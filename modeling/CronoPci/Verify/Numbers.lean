import CronoPci.Verify.Requests

/-!
# The handles that have their files

A Close closes the number of its device before anything that can fail, and a
number that is free is given to the next file. Which handles have their files is a
matter of what was called: a handle has its file from its Open on until some Close
closes its number. These handles are recorded beside the program (`kept`), and for
them the number names the file, which is the misc device of their own device; no
two keys have the same file, block, region or buffer.
-/

namespace CronoPci

open Posix Trans

section Numbers

variable {w : World} {p p' : Program} {c : Call} {kept : List Handle}

/-- The block of the handle that the call closes. -/
def Call.closes : Call → Option Addr
  | .use (.registry (.closeDev _ h)) => some h.addr
  | _ => none

theorem Program.closesNumber_iff {n : Nat} : p.ClosesNumber n c ↔
    ∃ a ∈ c.closes, ∃ d ∈ p.world.device? a, d.dwDeviceId ≠ 0 ∧ d.miscdevFd = n := by
  unfold Program.ClosesNumber Call.closes
  split <;> simp

instance (p : Program) (n : Nat) (c : Call) : Decidable (p.ClosesNumber n c) :=
  decidable_of_iff' _ Program.closesNumber_iff

/-- The handles that have their files after a call: the new ones, and those that had
theirs and whose number the call did not close. -/
def Program.keptBy (p : Program) (kept : List Handle) (c : Call) (p' : Program) : List Handle :=
  p'.live.filter fun h => decide (h ∉ p.live ∨
    h ∈ kept ∧ ∀ d ∈ p.world.device? h.addr, ¬p.ClosesNumber d.miscdevFd c)

/-- The programs of all runs, with the handles that have their files. -/
def Program.ReachesKeeping (w : World) (p : Program) (kept : List Handle) : Prop :=
  Reach (recorded Program.step Program.keptBy) (fun s c => s.1.Legal c) (.start w, []) (p, kept)

/-- What a part of a key has, where the files are those of `kept`. -/
def Program.PartHasKept (p : Program) (kept : List Handle) (k : Key × Part) (r : Resource) : Prop :=
  p.holdings.Holds k.1 ∧ ∃ b, p.holdings.get k.1.addr = some b ∧
    PartOf (fun h _ => h ∈ kept) k.1 b k.2 r

/-- The handles of the record are those whose number names their file. -/
structure KeptInv (p : Program) (kept : List Handle) : Prop where
  program : ProgramInv p
  kept_iff : ∀ h ∈ p.live, ∀ d, p.holdings.get h.addr = some (.device d) →
    (h ∈ kept ↔ p.holdings.file d.miscdevFd = some h.file)

namespace KeptInv

theorem step (hi : KeptInv p kept) (hl : p.Legal c) (hs : p.step c = .ok p') :
    KeptInv p' (p.keptBy kept c p') := by
  have ho := hi.program.outcome hl hs
  refine ⟨hi.program.step hl hs, ?_⟩
  intro h hh d hd
  rw [Program.keptBy, List.mem_filter, decide_eq_true_eq]
  by_cases hold : h ∈ p.live
  · obtain ⟨bars, hd'⟩ := ho.device_kept hi.program hold hh hd
    have hdev : p.world.device? h.addr = some { d with bars } := World.device?_eq_some.2 hd'
    have hown := hi.program.own_file_iff hl hs hold hh d.miscdevFd
    change _ ↔ p'.world.fds.file d.miscdevFd = some h.file
    rw [hown, hi.kept_iff h hold _ hd']
    simp only [show h ∈ p'.live from hh, hold, not_true_eq_false, false_or, true_and, hdev,
      Option.mem_some_iff, forall_eq']
    exact Iff.rfl
  · obtain ⟨d', hnew⟩ := (ho.new_keys.1 h hh).resolve_left hold
    obtain rfl : d = d' := by
      have hsame := hd.symm.trans hnew.get
      exact Block.device.inj (Option.some.inj hsame)
    exact iff_of_true ⟨hh, Or.inl hold⟩ hnew.file

theorem partHas_iff (hi : KeptInv p kept) (k : Key × Part) (r : Resource) :
    p.PartHasKept kept k r ↔ p.holdings.PartHas k r := by
  obtain ⟨k, i⟩ := k
  refine and_congr_right fun hk => exists_congr fun b => and_congr_right fun hb =>
    PartOf.own_iff ?_
  rintro h d rfl rfl
  exact hi.kept_iff h hk d hb

end KeptInv

theorem keptInv_reachable (hw : w.Initial) (hp : Program.ReachesKeeping w p kept) :
    KeptInv p kept := by
  refine Reach.invariant (I := fun s : Program × List Handle => KeptInv s.1 s.2)
    ⟨.start hw, fun h hh => by cases hh⟩ ?_ hp
  intro s s' c hi hl hs
  obtain ⟨hs, hkept⟩ := recorded_eq_ok hs
  rw [hkept]
  exact hi.step hl hs

/-- In every run, whatever the system answers, no two of the handles and
descriptors that the caller holds have a block, a region, a file or a locked
buffer in common, and the process has all of them. A handle has its file, the misc
device of its own device, for as long as no Close has closed its number. -/
theorem reachable_owns (hw : w.Initial) (hp : Program.Reachable w p) :
    (∃ kept, Program.ReachesKeeping w p kept) ∧ ∀ kept, Program.ReachesKeeping w p kept →
      Owns (p.PartHasKept kept) p.holdings.Has ∧
        ∀ h ∈ p.live, ∀ d, p.world.device? h.addr = some d →
          p.world.fds.path h.file = miscdevPath d ∧
          (h ∈ kept ↔ p.world.fds.file d.miscdevFd = some h.file) := by
  refine ⟨Reach.exists_record hp [], ?_⟩
  intro kept hkept
  have hi := keptInv_reachable hw hkept
  have howns := hi.program.sound.owns
  refine ⟨⟨?_, ?_⟩, ?_⟩
  · intro k r hr
    exact howns.mem k r ((hi.partHas_iff k r).1 hr)
  · intro k k' r hr hr'
    exact howns.inj k k' r ((hi.partHas_iff k r).1 hr) ((hi.partHas_iff k' r).1 hr')
  · intro h hh d hd
    have hd' := World.device?_eq_some.1 hd
    exact ⟨hi.program.sound.node h hh d hd', hi.kept_iff h hh d hd'⟩

/-- Two buffers are locked, a Close of the device fails, and the device opened then
gets its number. -/
theorem reachable_owns_three : ∃ p d, Program.ReachesKeeping World.boot p [⟨64, 11⟩] ∧
    p.live = [⟨64, 11⟩, ⟨16, 5⟩] ∧ p.contigs = [32] ∧ p.sgs = [48] ∧
    Owns (p.PartHasKept [⟨64, 11⟩]) p.holdings.Has ∧ p.world.device? 16 = some d ∧
    p.world.fds.path 5 = miscdevPath d ∧ p.world.fds.file d.miscdevFd ≠ some 5 := by
  obtain ⟨⟨p, kept⟩, hp, rfl, hlive, hcontigs, hsgs, hd⟩ : ∃ s,
      Reach (recorded Program.step Program.keptBy) (fun s c => s.1.Legal c)
        (.start World.boot, []) s ∧ s.2 = [⟨64, 11⟩] ∧ s.1.live = [⟨64, 11⟩, ⟨16, 5⟩] ∧
      s.1.contigs = [32] ∧ s.1.sgs = [48] ∧ (s.1.world.device? 16).isSome = true :=
    exists_reach_of_run (Call.setup ++ [.use (.registry (.closeFails 16 5)),
      .use (.registry (.opens 2 64))]) (by decide)
  obtain ⟨d, hd⟩ := Option.isSome_iff_exists.1 hd
  obtain ⟨howns, hnames⟩ := (reachable_owns World.boot_initial (Reach.of_record hp)).2 _ hp
  have hh : ⟨16, 5⟩ ∈ p.live := by
    rw [hlive]
    exact List.mem_cons_of_mem _ List.mem_cons_self
  obtain ⟨hpath, hkept⟩ := hnames _ hh d hd
  refine ⟨p, d, hp, hlive, hcontigs, hsgs, howns, hd, hpath, fun hfile => ?_⟩
  have hmem := hkept.2 hfile
  simp at hmem

end Numbers

end CronoPci
