import CronoPci.Verify.Held

/-!
# The account of a run

In every run no two of the resources that keys have are the same, and all of them
are there. A call is settled, touches nothing but what it is given and leaves
nothing behind, exactly when it is not `Program.Lossy`; a run of such calls
leaves the process with what it had before and what the caller holds.
-/

namespace CronoPci

open Posix Trans

/-! ## Every call -/

section Outcomes

variable {p : Program} {c : Call} {H : Holdings}

/-- Every call hands over: a key has what it had, or something new. -/
theorem Outcome.handover (ho : Outcome p c H) (hi : ProgramInv p) :
    Handover p.holdings.PartHas p.holdings.Has H.PartHas H.Has := by
  have howns := hi.sound.owns
  cases ho with
  | same =>
    exact .same howns (partHas_same rfl rfl rfl rfl rfl)
      (Holdings.has_mono (fun _ => id) (List.Subset.refl _) (fun _ _ => id) (fun _ h => h)
        fun _ h => h)
  | strayRegions hlossy hsub =>
    exact .same howns (partHas_same rfl rfl rfl rfl rfl)
      (Holdings.has_mono (fun _ => id) hsub (fun _ _ => id) (fun _ h => h) fun _ h => h)
  | strayBuffer =>
    exact .same howns (partHas_same rfl rfl rfl rfl rfl)
      (Holdings.has_mono (fun _ => id) (List.Subset.refl _) (fun _ _ => id)
        (Finset.subset_insert ..) fun _ h => h)
  | opened hclean hfresh hnum hf hnext hfilled =>
    exact (grows_opened hi hfresh hnum hf hfilled rfl).handover howns
  | described hclean hh hd hcount hfilled =>
    exact (grows_described hi hh hd hcount hfilled rfl).handover howns
  | closeFailed hgives hh hd hlossy heff =>
    exact (shrinks_closeFailed hi hh hd heff rfl).1.handover howns
  | closed hgives hh hd hlossy heff hzero =>
    exact (shrinks_closed hi hh hd heff hzero rfl).1.handover howns
  | closedAbsent => exact (shrinks_closedAbsent rfl).handover howns
  | unloaded hc has => exact (shrinks_unloaded hi has rfl).handover howns
  | lockedContig hclean hfresh hid hh hd hf hsize hmap =>
    exact (grows_lockedContig hi hfresh hid hmap rfl).handover howns
  | unlockedContig hclean hgives hq hb =>
    exact (shrinks_unlockedContig hi hq hb rfl).1.handover howns
  | unlockedMapped hlossy hq hb =>
    exact (shrinks_unlock hi hq hb (List.Subset.refl _) (fun _ hm => Or.inl hm)
      rfl).1.handover howns
  | lockedSg hclean hfresh hpage hne hid =>
    exact (grows_lockedSg hi hfresh hpage hne hid rfl).handover howns
  | unlockedSg hclean hgives hq hb =>
    exact (shrinks_unlockedSg hi hq hb rfl).1.handover howns

/-- The file that a Close closes is the device's unless it is lossy. -/
theorem file_of_clean {h : Handle} {d : KernelDevice} (hh : h ∈ p.live)
    (hd : p.world.device? h.addr = some d)
    (hlossy : p.Lossy c ↔ ∃ f ∈ p.world.fds.file d.miscdevFd, f ≠ h.file) (hclean : ¬p.Lossy c)
    (r : Resource) (hr : IsFile d.miscdevFd r) (hpool : p.holdings.Has r) :
    ∃ k : Key × Part, k.1 = .device h ∧ p.holdings.PartHas k r := by
  obtain ⟨f, rfl⟩ := hr
  have hf : f = h.file := by
    by_contra hne
    exact hclean (hlossy.2 ⟨f, hpool, hne⟩)
  subst hf
  exact ⟨(.device h, .file), rfl, hh, _, World.device?_eq_some.1 hd, .file hpool⟩

/-- A Close of another file than the device's own. -/
theorem unsettled_of_foreign {h : Handle} {d : KernelDevice} {f : Nat}
    (hgives : ∀ k, c.Gives k ↔ k = .device h) (hd : p.world.device? h.addr = some d)
    (hf : p.world.fds.file d.miscdevFd = some f) (hne : f ≠ h.file)
    (hclosed : H.file d.miscdevFd = none) :
    ¬Settled (fun k => c.Gives k.1) p.holdings.PartHas p.holdings.Has H.PartHas H.Has := by
  intro hs
  have hkept : H.Has (.file d.miscdevFd f) := by
    refine hs.spared (.file d.miscdevFd f) hf ?_
    rintro ⟨k, i⟩ hk ⟨-, b, hb, hp⟩
    obtain rfl := (hgives k).1 hk
    rw [show p.holdings.get (Key.addr (.device h)) = _ from World.device?_eq_some.1 hd] at hb
    cases hb
    generalize hr : Resource.file _ _ = r at hp
    cases hp with
    | file =>
      rw [Resource.file.injEq] at hr
      exact hne hr.2
    | _ => cases hr
  rw [Holdings.Has, hclosed] at hkept
  cases hkept

/-- A call that is lossy leaves something behind or touches what it was not
given. -/
theorem Outcome.unsettled (ho : Outcome p c H) (hi : ProgramInv p) (hlossy : p.Lossy c) :
    ¬Settled (fun k => c.Gives k.1) p.holdings.PartHas p.holdings.Has H.PartHas H.Has := by
  have howns := hi.sound.owns
  have hnodup : p.live.Nodup := .of_map _ hi.client.reg.nodup
  cases ho with
  | same hclean => exact absurd hlossy hclean
  | opened hclean => exact absurd hlossy hclean
  | described hclean => exact absurd hlossy hclean
  | lockedContig hclean => exact absurd hlossy hclean
  | unlockedContig hclean => exact absurd hlossy hclean
  | lockedSg hclean => exact absurd hlossy hclean
  | unlockedSg hclean => exact absurd hlossy hclean
  | @strayRegions space _ _ _ hsub hnew =>
    obtain ⟨m, hm, hfresh⟩ := hnew
    have hnew : ¬p.holdings.Has (.region m.start m.len) := by
      rintro ⟨m', hm', hstart, -⟩
      rw [← AddressSpace.eq_of_start (hsub hm') hm hstart] at hfresh
      exact hfresh hm'
    refine howns.unsettled (partHas_same rfl rfl rfl rfl rfl) ?_ hnew
    exact ⟨m, hm, rfl, rfl⟩
  | @strayBuffer id _ hid =>
    have hnew : ¬p.holdings.Has (.contigBuf id) := hid
    refine howns.unsettled (partHas_same rfl rfl rfl rfl rfl) ?_ hnew
    exact Finset.mem_insert_self ..
  | closeFailed hgives _ hd hforeign =>
    obtain ⟨f, hf, hne⟩ := hforeign.1 hlossy
    exact unsettled_of_foreign hgives hd hf hne (Function.update_self ..)
  | closed hgives _ hd hforeign =>
    obtain ⟨f, hf, hne⟩ := hforeign.1 hlossy
    exact unsettled_of_foreign hgives hd hf hne (Function.update_self ..)
  | @closedAbsent h d _ hh hd =>
    intro hs
    refine hs.tidy (.block h.addr) ((shrinks_closedAbsent rfl).drops howns
      (hi.block (k := .device h) hh) (fun hk => hnodup.not_mem_erase hk.1) ?_)
    exact hi.used (k := .device h) hh
  | @unloaded as hc has =>
    subst hc
    intro hs
    have hshrinks := shrinks_unloaded hi has rfl
    obtain ⟨h, hh, hout | ⟨d, hd, hleft⟩⟩ := hlossy
    · -- the block of a device that is not in range
      refine hs.tidy (.block h.addr) (hshrinks.drops howns (hi.block (k := .device h) hh)
        (fun hk => by cases hk.1) ?_)
      have hin : h.addr ∉ as := fun hin => hout ((has _).1 hin).2
      simp only [Holdings.Has, hin, ↓reduceIte]
      exact hi.used (k := .device h) hh
    · have hd' : p.holdings.get h.addr = some (.device d) := World.device?_eq_some.1 hd
      rcases hleft with hf | ⟨j, hj⟩
      · refine hs.tidy (.file d.miscdevFd h.file) (hshrinks.drops howns
          (k := (.device h, .file)) ⟨hh, _, hd', .file hf⟩ (fun hk => by cases hk.1) hf)
      · have hbar : p.holdings.PartHas (.device h, .bar j) _ := ⟨hh, _, hd', .bar hj⟩
        exact hs.tidy _ (hshrinks.drops howns hbar (fun hk => by cases hk.1)
          (howns.mem _ _ hbar))
  | @unlockedMapped q b _ hq hb =>
    intro hs
    have hshrinks := (shrinks_unlock hi hq hb (List.Subset.refl _) (fun _ hm => Or.inl hm) rfl).1
    have hregion : p.holdings.PartHas (.contig q, .region) _ :=
      ⟨hq, _, World.contig?_eq_some.1 hb, .region⟩
    exact hs.tidy _ (hshrinks.drops howns hregion
      (fun hk => hi.sound.contigs.not_mem_erase hk.1) (howns.mem _ _ hregion))

/-- A call that only opens files of its own and closes them again. -/
theorem settled_same (next : Nat) (path : Nat → List Char) :
    Settled (fun k => c.Gives k.1) p.holdings.PartHas p.holdings.Has
      { p.holdings with next, path }.PartHas { p.holdings with next, path }.Has := by
  apply Settled.same (partHas_same rfl rfl rfl rfl rfl)
  intro r
  cases r <;> exact Iff.rfl

/-- A call that is not lossy touches what it is given only, and leaves nothing
behind. -/
theorem Outcome.settled (ho : Outcome p c H) (hi : ProgramInv p) (hclean : ¬p.Lossy c) :
    Settled (fun k => c.Gives k.1) p.holdings.PartHas p.holdings.Has H.PartHas H.Has := by
  cases ho with
  | same => exact settled_same _ _
  | strayRegions hlossy => exact absurd hlossy hclean
  | strayBuffer hlossy => exact absurd hlossy hclean
  | closedAbsent hlossy => exact absurd hlossy hclean
  | unlockedMapped hlossy => exact absurd hlossy hclean
  | opened _ hfresh hnum hf hnext hfilled =>
    exact (grows_opened hi hfresh hnum hf hfilled rfl).settled
  | described _ hh hd hcount hfilled =>
    exact (grows_described hi hh hd hcount hfilled rfl).settled
  | lockedContig _ hfresh hid _ _ _ _ hmap =>
    exact (grows_lockedContig hi hfresh hid hmap rfl).settled
  | lockedSg _ hfresh hpage hne hid =>
    exact (grows_lockedSg hi hfresh hpage hne hid rfl).settled
  | closeFailed hgives hh hd hlossy heff =>
    obtain ⟨hs, hgone⟩ := shrinks_closeFailed hi hh hd heff rfl
    exact (hs.settled (file_of_clean hh hd hlossy hclean) hgone).mono
      fun k hk => (hgives k.1).2 hk
  | closed hgives hh hd hlossy heff hzero =>
    obtain ⟨hs, hgone⟩ := shrinks_closed hi hh hd heff hzero rfl
    exact (hs.settled (file_of_clean hh hd hlossy hclean) hgone).mono
      fun k hk => (hgives k.1).2 hk
  | unloaded hc has =>
    subst hc
    apply ((shrinks_unloaded hi has rfl).settled (fun _ h => absurd h id)
      (unloaded_gone hi has rfl hclean)).mono
    rintro ⟨_, i⟩ ⟨h, rfl⟩
    trivial
  | unlockedContig _ hgives hq hb =>
    obtain ⟨hs, hgone⟩ := shrinks_unlockedContig hi hq hb rfl
    exact (hs.settled (fun _ h => absurd h id) hgone).mono fun k hk => (hgives k.1).2 hk
  | unlockedSg _ hgives hq hb =>
    obtain ⟨hs, hgone⟩ := shrinks_unlockedSg hi hq hb rfl
    exact (hs.settled (fun _ h => absurd h id) hgone).mono fun k hk => (hgives k.1).2 hk

end Outcomes

/-! ## Runs -/

section Runs

variable {w : World} {p p' : Program} {c : Call}

theorem Program.step_client {u : Use} (hs : p.step (.use u) = .ok p') :
    p.client.step u = .ok p'.client := by
  cases u with
  | lockContig | unlockContig =>
    obtain ⟨r, he, hs⟩ := bind_eq_ok hs
    cases hs
    simp only [Client.step]
    rw [show p.client.world = p.world from rfl, he]
    rfl
  | _ =>
    obtain ⟨c', hc', hs⟩ := bind_eq_ok hs
    cases hs
    exact hc'

theorem Program.legal_use {u : Use} (hl : p.Legal (.use u)) : p.client.Legal u := by
  cases u with
  | registry | unlockSg => exact hl.2
  | _ => trivial

namespace ProgramInv

theorem start (hw : w.Initial) : ProgramInv (.start w) where
  client := .start hw
  sound := by
    refine ⟨?_, ?_, List.nodup_nil, ?_, ?_, .nothing ?_⟩
    · intro h hh
      cases hh
    · intro q hq
      cases hq
    · intro h hh
      cases hh
    · intro h hh
      cases hh
    · rintro ⟨k, i⟩ r ⟨hk, -⟩
      cases k <;> cases hk

theorem outcome (hi : ProgramInv p) (hl : p.Legal c) (hs : p.step c = .ok p') :
    Outcome p c p'.holdings := by
  refine step_outcome hi.client ?_ ?_ hl hs
  · intro h hh d hd
    exact hi.sound.tail h hh d (World.device?_eq_some.1 hd)
  · intro q hq
    obtain ⟨b, hb⟩ := hi.sound.contig q hq
    exact ⟨b, World.contig?_eq_some.2 hb⟩

/-- Every call of a run keeps the invariant. -/
theorem step (hi : ProgramInv p) (hl : p.Legal c) (hs : p.step c = .ok p') : ProgramInv p' := by
  have ho := hi.outcome hl hs
  refine ⟨?_, ho.sound hi (hi.sound.owns.handover (ho.handover hi))⟩
  cases c with
  | use u => exact use_inv hi.client (Program.legal_use hl) (Program.step_client hs)
  | cleanup sys hDev cmd n =>
    obtain ⟨⟨ret, calls, w⟩, he, hs⟩ := bind_eq_ok hs
    cases hs
    have hget := (Still.cleanup hl.2 he).get
    obtain ⟨heap, hheap⟩ := cardCleanupSetup_heap he
    refine ⟨?_, ?_⟩
    · refine hi.client.reg.frame (by rw [Client.setWorld, hheap]; exact .refl _) ?_
      intro h hh
      obtain ⟨d, hd⟩ := hi.client.reg.device h hh
      exact ⟨d, (World.device?_congr (congrFun hget h.addr)).trans hd⟩
    · apply hi.client.sg.kept
      intro a b ha _ _
      exact (congrFun hget a).trans ha
  | query q =>
    obtain ⟨ret, -, hs⟩ := bind_eq_ok hs
    cases hs
    exact hi.client

end ProgramInv

theorem programInv_reachable (hw : w.Initial) (hp : Program.Reachable w p) : ProgramInv p :=
  Reach.invariant (I := ProgramInv) (.start hw) (fun _ _ _ hi hl hs => hi.step hl hs) hp

/-- A call of a run takes from the process only what the keys it is given have,
and leaves nothing behind that no key has, exactly when it is not lossy. -/
theorem settled_iff_clean (hw : w.Initial) (hp : Program.Reachable w p) (hl : p.Legal c)
    (hs : p.step c = .ok p') :
    Settled (fun k => c.Gives k.1) p.holdings.PartHas p.holdings.Has p'.holdings.PartHas
      p'.holdings.Has ↔ ¬p.Lossy c := by
  have hi := programInv_reachable hw hp
  have ho := hi.outcome hl hs
  refine ⟨?_, ho.settled hi⟩
  intro hsettled hlossy
  exact ho.unsettled hi hlossy hsettled

/-- An Unlock that unmaps the region of its buffer is settled, and one that does
not is not. -/
theorem settled_iff_clean_unlock : ∃ p p' p'', Program.Reachable World.boot p ∧
    p.step (.unlocks none 16 32) = .ok p' ∧
    Settled (fun k => (Call.unlocks none 16 32).Gives k.1) p.holdings.PartHas p.holdings.Has
      p'.holdings.PartHas p'.holdings.Has ∧
    p.step (.unlocks (some .inval) 16 32) = .ok p'' ∧
    ¬Settled (fun k => (Call.unlocks (some .inval) 16 32).Gives k.1) p.holdings.PartHas
      p.holdings.Has p''.holdings.PartHas p''.holdings.Has := by
  obtain ⟨p, hp, hl, hclean, hok, hl', hlossy, hok'⟩ : ∃ p, Program.Reachable World.boot p ∧
      p.Legal (.unlocks none 16 32) ∧ ¬p.Lossy (.unlocks none 16 32) ∧
      (p.step (.unlocks none 16 32)).isOk = true ∧
      p.Legal (.unlocks (some .inval) 16 32) ∧ p.Lossy (.unlocks (some .inval) 16 32) ∧
      (p.step (.unlocks (some .inval) 16 32)).isOk = true :=
    exists_reach_of_run Call.setup (by decide)
  obtain ⟨p', hs⟩ := exists_ok_of_isOk hok
  obtain ⟨p'', hs'⟩ := exists_ok_of_isOk hok'
  refine ⟨p, p', p'', hp, hs, (settled_iff_clean World.boot_initial hp hl hs).2 hclean, hs', ?_⟩
  intro hsettled
  exact (settled_iff_clean World.boot_initial hp hl' hs').1 hsettled hlossy

/-- The programs of runs whose calls are not lossy. -/
def Program.ReachesClean (w : World) (p : Program) : Prop :=
  Reach Program.step (fun p c => p.Legal c ∧ ¬p.Lossy c) (.start w) p

/-- In a run without lossy calls the process has what it had at the start and
what the caller holds; with nothing held, it has what it had at the start. -/
theorem reachesClean_exact (hw : w.Initial) (hp : Program.ReachesClean w p) :
    Exact (Program.start w).holdings.Has p.holdings.PartHas p.holdings.Has ∧
      ((∀ k, ¬p.holdings.Holds k) →
        ∀ r, p.holdings.Has r ↔ (Program.start w).holdings.Has r) := by
  have hrun : ProgramInv p ∧
      Exact (Program.start w).holdings.Has p.holdings.PartHas p.holdings.Has := by
    refine Reach.invariant (I := fun p => ProgramInv p ∧
      Exact (Program.start w).holdings.Has p.holdings.PartHas p.holdings.Has) ?_ ?_ hp
    · refine ⟨.start hw, .start ?_⟩
      rintro ⟨k, i⟩ r ⟨hk, -⟩
      cases k <;> cases hk
    · rintro p p' c ⟨hi, hexact⟩ ⟨hl, hclean⟩ hs
      have ho := hi.outcome hl hs
      exact ⟨hi.step hl hs, hexact.step (ho.handover hi) (ho.settled hi hclean)⟩
  refine ⟨hrun.2, ?_⟩
  intro hnone
  apply hrun.2.drained
  intro k r hk
  exact hnone k.1 hk.1

/-- Everything that is opened and locked is given back. -/
theorem reachesClean_exact_empty : ∃ p, Program.ReachesClean World.boot p ∧ p.live = [] ∧
    ∀ r, p.holdings.Has r ↔ (Program.start World.boot).holdings.Has r := by
  obtain ⟨p, hp, hlive, hcontigs, hsgs⟩ : ∃ p, Program.ReachesClean World.boot p ∧
      p.live = [] ∧ p.contigs = [] ∧ p.sgs = [] :=
    exists_reach_of_run (Call.setup ++ [.unlocks none 16 32, .unlocksSg 16 48,
      .use (.registry (.closes 16 5)), .use (.registry .unload)]) (by decide)
  refine ⟨p, hp, hlive, (reachesClean_exact World.boot_initial hp).2 ?_⟩
  intro k
  cases k <;> simp [Holdings.Holds, Program.holdings, hlive, hcontigs, hsgs]

end Runs

end CronoPci
