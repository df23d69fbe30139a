import CronoPci.Verify.Range
import CronoPci.Verify.Reliance

/-!
# Which handles can be given back

A live handle can be given back, by some calls that lose nothing, exactly when a
Close would do it at once: its device has an id, stands in the range of the
registry and has its own file open, and the registry is not full
(`Program.Returns`). No call mends a handle that fails this, so that it stays
live for as long as the library is loaded.

Giving back all handles takes more than one Close for each, since the shrink loop
drops a device from the range. A stale pointer past the range stops the loop,
and an Open that fails leaves one there.
-/

namespace CronoPci

open Posix Trans

/-! ## Handles -/

namespace Program

/-- A Close gives the handle back. -/
def Returns (p : Program) (h : Handle) : Prop :=
  p.world.reg.iNewDev < 8 ∧ p.world.reg.Holds h.addr ∧ ∃ d ∈ p.world.device? h.addr,
    d.dwDeviceId ≠ 0 ∧ p.world.fds.file d.miscdevFd = some h.file

instance (p : Program) (h : Handle) : Decidable (p.Returns h) :=
  inferInstanceAs (Decidable (_ ∧ _ ∧ _))

end Program

def Call.unloads : Call → Bool
  | .use (.registry .unload) => true
  | _ => false

/-- The programs that calls without loss lead to while the library is loaded. -/
def Program.ReachesLoaded (p t : Program) : Prop :=
  Reach Program.step (fun p c => p.Legal c ∧ ¬p.Lossy c ∧ c.unloads = false) p t

/-! ## The registry -/

section Registry

variable {s s' : Session} {op : Op} {h : Handle}

/-- No call brings a device back into the range, or gets a full registry to
release one. -/
theorem Session.step_range (hi : RegInv s.live s.world) (hl : s.Legal op)
    (hs : s.step op = .ok s') (hop : op ≠ .unload) (hh : h ∈ s.live) :
    (s'.world.reg.Holds h.addr → s.world.reg.Holds h.addr) ∧
      (s'.world.reg.iNewDev < 8 → s.world.reg.iNewDev < 8) := by
  have h0 := hi.ne_zero hh
  cases op with
  | openDev sys slot =>
    cases step_openDev hs with
    | nothing => exact ⟨id, id⟩
    | dropped hdrop =>
      refine ⟨hdrop.within.holds h0, ?_⟩
      rw [hdrop.iNewDev]
      exact id
    | @opened _ _ w hv hopened =>
      refine ⟨?_, fun _ => hv.room⟩
      rintro ⟨k, hk, hka⟩
      rw [hopened.iNewDev] at hk
      rw [hopened.devices] at hka
      split at hka
      · exact absurd (Option.some.inj hka).symm (hi.ne_fresh hv.fresh hh)
      · exact ⟨k, by omega, hka⟩
  | closeDev munmap h' =>
    obtain ⟨d, hd⟩ := hi.device h' hl
    obtain ⟨ret, w, hc, hor⟩ := step_closeDev hs
    have hends := pciDeviceClose_ends munmap hd hi.distinct
    rw [hc] at hends
    have hworld : s'.world = w := by
      rcases hor with ⟨-, rfl⟩ | ⟨-, rfl⟩ <;> rfl
    rw [hworld]
    cases hends with
    | kept _ _ hreg =>
      rw [hreg]
      exact ⟨id, id⟩
    | released _ hrel =>
      refine ⟨?_, fun _ => hrel.room⟩
      rintro ⟨k, hk, hka⟩
      rw [hrel.devices] at hka
      split at hka
      · exact absurd (Option.some.inj hka).symm h0
      · exact ⟨k, Nat.lt_of_lt_of_le hk hrel.shrunk.le, hka⟩
  | getBars sys h' =>
    obtain ⟨d, hd⟩ := hi.device h' hl
    obtain ⟨w, rfl, rfl | ⟨ret, hends⟩⟩ := step_getBars hd hs
    · exact ⟨id, id⟩
    · obtain ⟨bars, hret⟩ := hends.retabled hd
      have hreg : w.reg = s.world.reg := hret.reg
      simp only [hreg]
      exact ⟨id, id⟩
  | unload => exact absurd rfl hop

/-- Only a Close that completes takes a handle off the live ones. -/
theorem Session.step_leaves (hi : RegInv s.live s.world) (hl : s.Legal op)
    (hs : s.step op = .ok s') (hop : op ≠ .unload) (hh : h ∈ s.live) (hgone : h ∉ s'.live) :
    ∃ munmap, op = .closeDev munmap h ∧ Releases munmap h.addr s.world ∧
      s.world.reg.iNewDev < 8 := by
  cases op with
  | openDev sys slot =>
    cases step_openDev hs with
    | nothing | dropped => exact absurd hh hgone
    | opened => exact absurd (List.mem_cons_of_mem _ hh) hgone
  | closeDev munmap h' =>
    obtain ⟨d, hd⟩ := hi.device h' hl
    obtain ⟨ret, w, hc, ⟨hret, rfl⟩ | ⟨-, rfl⟩⟩ := step_closeDev hs
    case inr => exact absurd hh hgone
    obtain rfl : h = h' := by
      by_contra hne
      exact hgone (hi.mem_erase.2 ⟨hne, hh⟩)
    have hends := pciDeviceClose_ends munmap hd hi.distinct
    rw [hc] at hends
    cases hends with
    | kept _ hne => exact absurd hret hne
    | released hreleases hrel => exact ⟨munmap, rfl, hreleases, hrel.room⟩
  | getBars sys h' =>
    obtain ⟨d, hd⟩ := hi.device h' hl
    obtain ⟨w, rfl, -⟩ := step_getBars hd hs
    exact absurd hh hgone
  | unload => exact absurd rfl hop

end Registry

/-! ## Handles that stay -/

section Stays

variable {w : World} {p p' t : Program} {c : Call} {H : Holdings} {h : Handle} {a : Addr}

/-- A call outside the registry leaves the handles and the registry as they are. -/
theorem Program.step_outside (hi : ProgramInv p) (hl : p.Legal c) (hs : p.step c = .ok p')
    (hop : ∀ op, c ≠ .use (.registry op)) : p'.live = p.live ∧ p'.world.reg = p.world.reg := by
  cases c with
  | use u =>
    have hu (op : Op) : u ≠ .registry op := fun he => hop op (by rw [he])
    obtain ⟨hlive, hspares⟩ :=
      use_spares hi.client (Program.legal_use hl) (Program.step_client hs) hu
    exact ⟨hlive, hspares.reg⟩
  | cleanup sys hDev cmd n =>
    obtain ⟨⟨ret, calls, w⟩, he, hs⟩ := bind_eq_ok hs
    cases hs
    obtain ⟨heap, rfl⟩ := cardCleanupSetup_heap he
    exact ⟨rfl, rfl⟩
  | query q =>
    obtain ⟨ret, -, hs⟩ := bind_eq_ok hs
    cases hs
    exact ⟨rfl, rfl⟩

theorem Program.step_range (hi : ProgramInv p) (hl : p.Legal c) (hs : p.step c = .ok p')
    (hload : c.unloads = false) (hh : h ∈ p.live) :
    (p'.world.reg.Holds h.addr → p.world.reg.Holds h.addr) ∧
      (p'.world.reg.iNewDev < 8 → p.world.reg.iNewDev < 8) := by
  by_cases hop : ∃ op, c = .use (.registry op)
  · obtain ⟨op, rfl⟩ := hop
    obtain ⟨s, hstep, rfl⟩ := Program.step_registry hs
    refine Session.step_range hi.client.reg hl.2 hstep ?_ hh
    rintro rfl
    cases hload
  · obtain ⟨-, hreg⟩ := Program.step_outside hi hl hs (not_exists.1 hop)
    rw [hreg]
    exact ⟨id, id⟩

/-- A file of before is open under the number that it had. -/
theorem Outcome.file_old (ho : Outcome p c H) {n f : Nat} (hf : H.file n = some f)
    (hold : f < p.world.fds.next) : p.world.fds.file n = some f := by
  have hnew {n' f' : Nat} (hnext : p.world.fds.next ≤ f')
      (hf : Function.update p.world.fds.file n' (some f') n = some f) :
      p.world.fds.file n = some f := by
    by_cases hn : n = n'
    · subst hn
      rw [Function.update_self] at hf
      cases hf
      omega
    · rwa [Function.update_of_ne hn] at hf
  have hclosed {n' : Nat} (hf : Function.update p.world.fds.file n' none n = some f) :
      p.world.fds.file n = some f := by
    by_cases hn : n = n'
    · subst hn
      rw [Function.update_self] at hf
      cases hf
    · rwa [Function.update_of_ne hn] at hf
  cases ho with
  | opened _ _ _ hnext => exact hnew hnext hf
  | closeFailed | closed | closedAbsent => exact hclosed hf
  | _ => exact hf

/-- No call mends a handle. -/
theorem Program.Returns.of_step (hi : ProgramInv p) (hl : p.Legal c) (hs : p.step c = .ok p')
    (hload : c.unloads = false) (hh : h ∈ p.live) (hh' : h ∈ p'.live) (hr : p'.Returns h) :
    p.Returns h := by
  obtain ⟨hroom, hholds, d', hd', hid, hfile⟩ := hr
  have ho := hi.outcome hl hs
  obtain ⟨hrange, hfull⟩ := Program.step_range hi hl hs hload hh
  obtain ⟨d, hd⟩ : ∃ d, p.world.device? h.addr = some d := hi.client.reg.device h hh
  obtain ⟨b, hb, hbecomes⟩ :=
    ho.becomes hi (hi.block (k := .device h) hh) hh' (World.device?_eq_some.1 hd)
  obtain rfl : b = .device d' := Option.some.inj (hb.symm.trans (World.device?_eq_some.1 hd'))
  have hown {n : Nat} (hfile : p'.world.fds.file n = some h.file) :
      p.world.fds.file n = some h.file := ho.file_old hfile (hi.sound.file h hh)
  refine ⟨hfull hroom, hrange hholds, d, hd, ?_⟩
  cases hbecomes with
  | same => exact ⟨hid, hown hfile⟩
  | device => exact ⟨hid, hown hfile⟩

/-- A call without loss takes off the live handles what a Close gives back. -/
theorem Program.Returns.of_leaves (hi : ProgramInv p) (hl : p.Legal c) (hs : p.step c = .ok p')
    (hclean : ¬p.Lossy c) (hload : c.unloads = false) (hh : h ∈ p.live) (hgone : h ∉ p'.live) :
    p.Returns h := by
  by_cases hop : ∃ op, c = .use (.registry op)
  case neg =>
    exfalso
    obtain ⟨hlive, -⟩ := Program.step_outside hi hl hs (not_exists.1 hop)
    rw [hlive] at hgone
    exact hgone hh
  obtain ⟨op, rfl⟩ := hop
  obtain ⟨s, hstep, rfl⟩ := Program.step_registry hs
  have hnot : op ≠ .unload := by
    rintro rfl
    cases hload
  obtain ⟨munmap, rfl, hrel, hroom⟩ :=
    Session.step_leaves hi.client.reg hl.2 hstep hnot hh hgone
  obtain ⟨d, hd⟩ : ∃ d, p.world.device? h.addr = some d := hi.client.reg.device h hh
  obtain ⟨hid, hopen, -⟩ := (releases_iff hd).1 hrel
  obtain ⟨f, hf⟩ := Option.ne_none_iff_exists'.1 hopen
  -- else the Close is lossy
  have hown : f = h.file ∧ p.world.reg.Holds h.addr := by
    by_contra hnot
    exact hclean ⟨d, hd, hid, f, hf, not_and_or.1 hnot⟩
  obtain ⟨rfl, hholds⟩ := hown
  exact ⟨hroom, hholds, d, hd, hid, hf⟩

/-- A handle that cannot be given back stays, and stays so. -/
theorem Program.step_kept (hi : ProgramInv p) (hl : p.Legal c) (hs : p.step c = .ok p')
    (hclean : ¬p.Lossy c) (hload : c.unloads = false) (hh : h ∈ p.live) (hnot : ¬p.Returns h) :
    h ∈ p'.live ∧ ¬p'.Returns h := by
  have hh' : h ∈ p'.live := by
    by_contra hgone
    exact hnot (.of_leaves hi hl hs hclean hload hh hgone)
  exact ⟨hh', fun hr => hnot (.of_step hi hl hs hload hh hh' hr)⟩

/-- What calls without loss give back, a Close would have given back at the start. -/
theorem Program.ReachesLoaded.returns (ht : p.ReachesLoaded t) (hi : ProgramInv p)
    (hh : h ∈ p.live) (hgone : h ∉ t.live) : p.Returns h := by
  by_contra hnot
  have hrun : ProgramInv t ∧ h ∈ t.live ∧ ¬t.Returns h := by
    refine Reach.invariant (I := fun t => ProgramInv t ∧ h ∈ t.live ∧ ¬t.Returns h)
      ⟨hi, hh, hnot⟩ ?_ ht
    rintro s s' c ⟨hi, hh, hnot⟩ ⟨hl, hclean, hload⟩ hs
    exact ⟨hi.step hl hs, Program.step_kept hi hl hs hclean hload hh hnot⟩
  exact hgone hrun.2.1

/-! ## Closes that give back -/

/-- The program after a call of the registry. -/
def Program.withSession (p : Program) (s : Session) : Program :=
  { p with client := { p.client with session := s } }

theorem Program.step_of_session {op : Op} {s : Session} (hs : p.client.session.step op = .ok s) :
    p.step (.use (.registry op)) = .ok (p.withSession s) := by
  simp only [Program.step, Client.step, hs, bind, Except.bind, pure, Except.pure]
  rfl

/-- A Close without faults of a handle that can be given back. -/
theorem Program.Returns.close (hr : p.Returns h) (hi : ProgramInv p) (hh : h ∈ p.live) :
    ∃ s d, p.Legal (.use (.registry (.closeDev (fun _ => none) h))) ∧
      ¬p.Lossy (.use (.registry (.closeDev (fun _ => none) h))) ∧
      p.step (.use (.registry (.closeDev (fun _ => none) h))) = .ok (p.withSession s) ∧
      s.live = p.live.erase h ∧ Released h.addr d p.world s.world := by
  obtain ⟨hroom, hholds, d, hd, hid, hfile⟩ := hr
  have hends := pciDeviceClose_ends (fun _ => none) hd hi.client.reg.distinct
  have hrel : Releases (fun _ => none) h.addr p.world := by
    refine (releases_iff hd).2 ⟨hid, ?_, fun _ _ _ _ => rfl⟩
    rw [hfile]
    exact Option.some_ne_none _
  have hclean : ¬p.Lossy (.use (.registry (.closeDev (fun _ => none) h))) := by
    rintro ⟨d', hd', -, f, hf, hne⟩
    obtain rfl : d = d' := Option.some.inj (hd.symm.trans hd')
    obtain rfl : h.file = f := Option.some.inj (hfile.symm.trans hf)
    rcases hne with hne | hnot
    · exact hne rfl
    · exact hnot hholds
  generalize hc : pciDeviceClose (fun _ => none) h.addr p.world = r at hends
  cases hends with
  | kept hnot => exact absurd hrel hnot
  | overruns _ h8 => omega
  | @released w' _ hdone =>
    have hc' : pciDeviceClose (fun _ => none) h.addr p.client.session.world =
      .ok (cronoSuccess, w') := hc
    have hstep : p.client.session.step (.closeDev (fun _ => none) h) =
        .ok { p.client.session with
          world := w'
          live := p.client.session.live.erase h
          closed := h :: p.client.session.closed } := by
      simp [Session.step, Session.closeDev, hc', bind, Except.bind, pure, Except.pure]
    exact ⟨_, d, ⟨Or.inl rfl, hh⟩, hclean, Program.step_of_session hstep, rfl, hdone⟩

/-- A handle can be given back by calls that lose nothing exactly when a Close
without faults gives it back at once. -/
theorem returned_iff (hw : w.Initial) (hp : Program.Reachable w p) (hh : h ∈ p.live) :
    (∃ t, p.ReachesLoaded t ∧ h ∉ t.live) ↔ p.Returns h := by
  have hi := programInv_reachable hw hp
  constructor
  · rintro ⟨t, ht, hgone⟩
    exact ht.returns hi hh hgone
  · intro hr
    obtain ⟨s, d, hl, hclean, hs, hlive, -⟩ := hr.close hi hh
    refine ⟨p.withSession s, Reach.init.step ⟨hl, hclean, rfl⟩ hs, ?_⟩
    have hnodup : p.live.Nodup := .of_map _ hi.client.reg.nodup
    intro hstill
    have hlive' : h ∈ s.live := hstill
    rw [hlive] at hlive'
    exact hnodup.not_mem_erase hlive'

/-- After device 1 is closed, the handle of device 2 is there to stay. -/
theorem returned_iff_dropped : ∃ p, Program.Reachable World.boot p ∧ p.live = [⟨32, 10⟩] ∧
    ∀ t, p.ReachesLoaded t → ⟨32, 10⟩ ∈ t.live := by
  obtain ⟨p, hp, hlive, hnot⟩ : ∃ p, Program.Reachable World.boot p ∧ p.live = [⟨32, 10⟩] ∧
      ¬p.Returns ⟨32, 10⟩ :=
    exists_reach_of_run [.use (.registry (.opens 1 16)), .use (.registry (.opens 2 32)),
      .use (.registry (.closes 16 5))] (by decide)
  refine ⟨p, hp, hlive, ?_⟩
  intro t ht
  by_contra hgone
  have hh : ⟨32, 10⟩ ∈ p.live := by
    rw [hlive]
    exact List.mem_singleton_self _
  exact hnot ((returned_iff World.boot_initial hp hh).1 ⟨t, ht, hgone⟩)

/-! ## Giving back all handles -/

/-- A stale pointer stands just past the range. -/
def Program.Stale (p : Program) : Prop :=
  p.world.reg.devices[p.world.reg.iNewDev]? ≠ some 0

/-- An Open that finds its device but no misc device leaves the pointer to its
block past the range. -/
theorem Program.step_openFails (bus : UInt32)
    (hfound : ∃ v, Found (.small bus a (some .noEnt) (.small [] fun _ => 0)) (busSlot bus) v)
    (hroom : p.world.reg.iNewDev < 8) (h0 : a ≠ 0) (hfree : p.world.heap.get a = none) :
    ∃ s, ¬p.Lossy (.use (.registry (.openFails bus a))) ∧
      p.step (.use (.registry (.openFails bus a))) = .ok (p.withSession s) ∧ s.live = p.live ∧
      Dropped a p.world s.world ∧ FdTable.Balanced p.world.fds s.world.fds := by
  have hno (v : SlotVars) : ¬OpensMisc (.small bus a (some .noEnt) (.small [] fun _ => 0))
      (busSlot bus) p.world v := by
    intro hv
    cases hv.stat
  obtain ⟨r, hr, he⟩ := pciDeviceOpen_result (.small bus a (some .noEnt) (.small [] fun _ => 0)) 0
    (busSlot bus) p.world
  cases hr with
  | index _ h8 => omega
  | null _ _ hm =>
    rcases Heap.malloc_eq_none.1 hm with h0' | hused
    · exact absurd h0' h0
    · exact absurd hfree hused
  | link hv | noBars hv | opened hv => exact absurd hv (hno _)
  | noDirectory hdir => cases hdir
  | notFound hens hnone =>
    obtain ⟨v, hv⟩ := hfound
    exact absurd hv (not_found_of_none hens hnone v)
  | @failed _ ret w' _ _ hret hdrop hfds =>
    have hclean : ¬p.Lossy (.use (.registry (.openFails bus a))) := by
      rintro ⟨⟨v, hv⟩, -⟩
      exact hno v hv
    have he' : pciDeviceOpen (.small bus a (some .noEnt) (.small [] fun _ => 0)) (some 0)
        (some (busSlot bus)) p.client.session.world = .ok (ret, some 0, w') := he
    have hstep : p.client.session.step (.openFails bus a) = .ok { p.client.session with
        world := w'
        peak := max p.client.session.peak (p.client.session.live.length + 1) } := by
      simp [Session.step, Session.openDev, Op.openFails, he', bind, Except.bind, pure, Except.pure]
    exact ⟨_, hclean, Program.step_of_session hstep, rfl, hdrop, hfds⟩

/-- An Open that fails keeps the handles that can be given back. -/
theorem Program.Returns.dropped (hr : p.Returns h) (hdrop : Dropped a p.world p'.world)
    (hfds : FdTable.Balanced p.world.fds p'.world.fds) : p'.Returns h := by
  obtain ⟨hroom, hholds, d, hd, hid, hfile⟩ := hr
  refine ⟨by rw [hdrop.iNewDev]; exact hroom, hdrop.holds hholds, d, ?_, hid, ?_⟩
  · exact (World.device?_congr (congrFun hdrop.get h.addr)).trans hd
  · rw [hfds.file_eq]
    exact hfile

/-- With a stale pointer past the range, a Close of one handle keeps the others
that can be given back. -/
theorem Program.Returns.beside {h' : Handle} {d : KernelDevice} (hr : p.Returns h')
    (hi : ProgramInv p) (hl : p.Legal (.use (.registry (.closeDev (fun _ => none) h))))
    (hclean : ¬p.Lossy (.use (.registry (.closeDev (fun _ => none) h))))
    (hs : p.step (.use (.registry (.closeDev (fun _ => none) h))) = .ok p')
    (hdone : Released h.addr d p.world p'.world) (hstale : p.Stale) (hh : h' ∈ p.live)
    (hh' : h' ∈ p'.live) (hne : h' ≠ h) : p'.Returns h' := by
  obtain ⟨hroom, hholds, d', hd', hid, hfile⟩ := hr
  have ho := hi.outcome hl hs
  have hown : p.holdings.PartHas (.device h', .file) (.file d'.miscdevFd h'.file) :=
    ⟨hh, _, World.device?_eq_some.1 hd', .file hfile⟩
  have hkept := (ho.settled hi hclean).keeps (ho.handover hi) hi.sound.owns
    (k := (.device h', .file)) (fun hg => hne hg) hown
  obtain ⟨b, hb, hbecomes⟩ :=
    ho.becomes hi (hi.block (k := .device h') hh) hh' (World.device?_eq_some.1 hd')
  refine ⟨by rw [hdone.stays hstale]; exact hroom, ?_, ?_⟩
  · exact (hdone.keeps_iff hi.client.reg.distinct).2 (Or.inl hstale) _ (hi.client.reg.ne_zero hh)
      (hi.client.reg.addr_ne hl.2 hh hne) hholds
  · have hopen : p'.world.fds.file d'.miscdevFd = some h'.file :=
      (hi.step hl hs).sound.owns.mem _ _ hkept
    cases hbecomes with
    | same => exact ⟨d', World.device?_eq_some.2 hb, hid, hopen⟩
    | device => exact ⟨_, World.device?_eq_some.2 hb, hid, hopen⟩

/-- On the way from `p` to a program without handles. -/
structure Program.Draining (p t : Program) : Prop where
  inv : ProgramInv t
  stale : t.Stale
  returns : ∀ h ∈ t.live, t.Returns h
  contigs : t.contigs = p.contigs
  sgs : t.sgs = p.sgs

/-- With a stale pointer past the range, one Close gives back one handle and
keeps the others. -/
theorem Program.Draining.step (hdrain : Program.Draining p t) (hleft : t.live.length ≠ 0) :
    ∃ c t', (t.Legal c ∧ ¬t.Lossy c ∧ c.unloads = false) ∧ t.step c = .ok t' ∧
      Program.Draining p t' ∧ t'.live.length < t.live.length := by
  obtain ⟨hi, hstale, hall, hcontigs, hsgs⟩ := hdrain
  obtain ⟨h, hh⟩ := List.exists_mem_of_length_pos (Nat.pos_of_ne_zero hleft)
  obtain ⟨s, d, hl, hclean, hs, hlive, hdone⟩ := (hall h hh).close hi hh
  have hlive' : (t.withSession s).live = t.live.erase h := hlive
  refine ⟨_, t.withSession s, ⟨hl, hclean, rfl⟩, hs, ⟨hi.step hl hs, ?_, ?_, hcontigs, hsgs⟩, ?_⟩
  · change s.world.reg.devices[s.world.reg.iNewDev]? ≠ some 0
    rw [hdone.stays hstale, hdone.devices_iNewDev]
    exact hstale
  · intro h' hh'
    have hold := hh'
    rw [hlive'] at hold
    obtain ⟨hne, hold⟩ := hi.client.reg.mem_erase.1 hold
    exact (hall h' hold).beside hi hl hclean hs hdone hstale hold hh' hne
  · have hpos : 0 < t.live.length := List.length_pos_of_mem hh
    rw [hlive', List.length_erase_of_mem hh]
    omega

/-- Handles each of which can be given back can all be given back: an Open that
fails leaves a stale pointer, and then they are closed one after the other. -/
theorem Program.exists_drained (hi : ProgramInv p) (hall : ∀ h ∈ p.live, p.Returns h)
    (hfree : ∃ a, a ≠ 0 ∧ p.world.heap.get a = none) :
    ∃ t, p.ReachesLoaded t ∧ t.live = [] ∧ t.contigs = p.contigs ∧ t.sgs = p.sgs := by
  by_cases hlive : p.live = []
  · exact ⟨p, .init, hlive, rfl, rfl⟩
  obtain ⟨h, hh⟩ := List.exists_mem_of_ne_nil _ hlive
  obtain ⟨a, h0, hfree⟩ := hfree
  obtain ⟨s, hclean, hs, hlive', hdrop, hfds⟩ :=
    Program.step_openFails 1 ⟨_, _, rfl, rfl⟩ (hall h hh).1 h0 hfree
  have hl : p.Legal (.use (.registry (.openFails 1 a))) := ⟨Or.inl rfl, trivial⟩
  have hdrain : Program.Draining p (p.withSession s) := by
    refine ⟨hi.step hl hs, ?_, ?_, rfl, rfl⟩
    · change s.world.reg.devices[s.world.reg.iNewDev]? ≠ some 0
      rw [hdrop.iNewDev, hdrop.devices, if_pos rfl]
      exact fun he => h0 (Option.some.inj he)
    · intro h hh
      have hold : h ∈ s.live := hh
      rw [hlive'] at hold
      exact (hall h hold).dropped hdrop hfds
  obtain ⟨t, ht, hdrain, hdone⟩ := Reach.exists_done (fun t : Program => t.live.length)
    (fun _ => Program.Draining.step) (Reach.init.step ⟨hl, hclean, rfl⟩ hs) hdrain
  exact ⟨t, ht, List.length_eq_zero_iff.1 hdone, hdrain.contigs, hdrain.sgs⟩

/-- All handles can be given back by calls that lose nothing exactly when a Close
without faults gives back each one at once, if `malloc` has an address left. -/
theorem drained_iff (hw : w.Initial) (hp : Program.Reachable w p)
    (hfree : ∃ a, a ≠ 0 ∧ p.world.heap.get a = none) :
    (∃ t, p.ReachesLoaded t ∧ t.live = []) ↔ ∀ h ∈ p.live, p.Returns h := by
  have hi := programInv_reachable hw hp
  constructor
  · rintro ⟨t, ht, hnone⟩ h hh
    refine ht.returns hi hh ?_
    rw [hnone]
    exact List.not_mem_nil
  · intro hall
    obtain ⟨t, ht, hnone, -⟩ := Program.exists_drained hi hall hfree
    exact ⟨t, ht, hnone⟩

/-- Two devices are open, and both can be given back. -/
theorem drained_iff_two : ∃ p, Program.Reachable World.boot p ∧ p.live = [⟨32, 10⟩, ⟨16, 5⟩] ∧
    ∃ t, p.ReachesLoaded t ∧ t.live = [] := by
  obtain ⟨p, hp, hlive, hfree, hall⟩ : ∃ p, Program.Reachable World.boot p ∧
      p.live = [⟨32, 10⟩, ⟨16, 5⟩] ∧ (p.world.heap.get 48).isNone = true ∧
      ∀ h ∈ p.live, p.Returns h :=
    exists_reach_of_run [.use (.registry (.opens 1 16)), .use (.registry (.opens 2 32))]
      (by decide)
  refine ⟨p, hp, hlive, (drained_iff World.boot_initial hp ⟨48, ?_, ?_⟩).2 hall⟩
  · decide
  · exact Option.isNone_iff_eq_none.1 hfree

end Stays

end CronoPci
