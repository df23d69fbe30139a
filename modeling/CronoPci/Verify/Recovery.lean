import CronoPci.Verify.Hazards
import CronoPci.Verify.Returns
import CronoPci.Verify.Trust

/-!
# Which programs can give back everything

Unlocking takes a device, so that buffers held after the last Close wait for
another Open. From a program that calls lead to, calls without loss lead to one
that holds nothing exactly when every live handle can be given back and, where
buffers are held without a handle, an Open has a slot that a Close can take back.
-/

namespace CronoPci

open Posix Trans

section Recovery

variable {w : World} {p p' t : Program} {c : Call} {H : Holdings} {h : Handle} {a q : Addr}
  {d : KernelDevice}

/-! ## Unlocking -/

/-- The calls before `p'` released no device. -/
structure Program.KeepsDevices (p p' : Program) : Prop where
  live : p'.live = p.live
  reg : p'.world.reg = p.world.reg
  fds : p'.world.fds = p.world.fds
  device : ∀ h ∈ p.live, ∀ d, p.world.device? h.addr = some d → p'.world.device? h.addr = some d
  free : ∀ a, p.world.heap.get a = none → p'.world.heap.get a = none

namespace Program.KeepsDevices

theorem refl (p : Program) : p.KeepsDevices p :=
  ⟨rfl, rfl, rfl, fun _ _ _ hd => hd, fun _ ha => ha⟩

theorem trans (h : p.KeepsDevices p') (h' : p'.KeepsDevices t) : p.KeepsDevices t := by
  refine ⟨h'.live.trans h.live, h'.reg.trans h.reg, h'.fds.trans h.fds, ?_, ?_⟩
  · intro i hh d hd
    exact h'.device i (h.live ▸ hh) d (h.device i hh d hd)
  · intro a ha
    exact h'.free a (h.free a ha)

theorem returns (hkeeps : p.KeepsDevices p') (hh : h ∈ p.live) (hr : p.Returns h) :
    p'.Returns h := by
  obtain ⟨hroom, hholds, d, hd, hid, hfile⟩ := hr
  refine ⟨by rw [hkeeps.reg]; exact hroom, by rw [hkeeps.reg]; exact hholds, d,
    hkeeps.device h hh d hd, hid, ?_⟩
  rw [hkeeps.fds]
  exact hfile

end Program.KeepsDevices

/-- An Unlock through the handle gets to the module. -/
def Program.Usable (p : Program) (h : Handle) : Prop :=
  ∃ d ∈ p.world.device? h.addr, d.dwDeviceId ≠ 0 ∧ d.miscdevFd ≠ 0

theorem Program.KeepsDevices.usable (hkeeps : p.KeepsDevices p') (hh : h ∈ p.live)
    (hu : p.Usable h) : p'.Usable h := by
  obtain ⟨d, hd, hid, hfd⟩ := hu
  exact ⟨d, hkeeps.device h hh d hd, hid, hfd⟩

/-- Calls outside the registry that close no file and free blocks only. -/
theorem ProgramInv.keepsDevices {u : Use} (hi : ProgramInv p) (hl : p.Legal (.use u))
    (hs : p.step (.use u) = .ok p') (hu : ∀ op, u ≠ .registry op)
    (hfds : p'.world.fds = p.world.fds)
    (hfree : ∀ a, p.world.heap.get a = none → p'.world.heap.get a = none) :
    p.KeepsDevices p' := by
  have hl' := Program.legal_use hl
  obtain ⟨hlive, hspares⟩ := use_spares hi.client hl' (Program.step_client hs) hu
  refine ⟨hlive, hspares.reg, hfds, ?_, hfree⟩
  intro h hh d hd
  exact World.device?_eq_some.2 (hspares.get _ _ (World.device?_eq_some.1 hd)
    (Use.Releases.not_device hi.client hl' hu hd))

/-- An Unlock through such a handle. -/
theorem sgUnlock_done {w : World} (sys : SgUnlockSys) {hDev p : Addr} {d : KernelDevice}
    {c : DmaSg} {page : List DmaPage} (hd : w.device? hDev = some d) (hid : d.dwDeviceId ≠ 0)
    (hfd : d.miscdevFd ≠ 0) (hsys : sys.ioctl = none) (hc : w.sg? p = some c)
    (hpage : w.pages? c.page = some page) : ∃ w', dmaSgBufUnlock sys hDev p w =
      .ok (cronoSuccess, w') ∧ w'.fds = w.fds ∧
      w'.heap.get = Function.update (Function.update w.heap.get c.page none) p none := by
  have hr := sgUnlock_result sys hDev hc hpage
  have hinit : w.initHDevFunc hDev = .ok (.ok d) := by
    rw [initHDevFunc_of_device hd, if_neg hid]
  generalize he : dmaSgBufUnlock sys hDev p w = r at hr
  cases hr with
  | badHandle hf =>
    rw [hinit] at hf
    cases hf
  | failed hret =>
    -- past the checks, the call returns success
    have hp : p ≠ 0 := Heap.ne_zero_of_get (World.sg?_eq_some.1 hc)
    obtain ⟨r, hr, he⟩ := bind_eq_ok he
    rw [hinit] at hr
    cases hr
    simp only [hp, ↓reduceIte] at he
    obtain ⟨-, -, he⟩ := bind_eq_ok he
    simp only [hfd, ↓reduceIte, hsys] at he
    obtain ⟨c', -, he⟩ := bind_eq_ok he
    split at he
    all_goals
      obtain ⟨w₁, -, he⟩ := bind_eq_ok he
      obtain ⟨w₂, -, he⟩ := bind_eq_ok he
      exact absurd (congrArg Prod.fst (Except.ok.inj he)).symm hret
  | unlocked hget => exact ⟨_, rfl, rfl, hget⟩

theorem Program.exists_unlockContig (hi : ProgramInv p) (hh : h ∈ p.live) (hu : p.Usable h)
    (hq : q ∈ p.contigs) : ∃ p', p.Legal (.unlocks none h.addr q) ∧
      ¬p.Lossy (.unlocks none h.addr q) ∧ p.step (.unlocks none h.addr q) = .ok p' ∧
      p.KeepsDevices p' ∧ p'.contigs = p.contigs.erase q ∧ p'.sgs = p.sgs := by
  have hpass : p.Passes h.addr := Or.inr ⟨h, hh, rfl⟩
  have hl : p.Legal (.unlocks none h.addr q) := ⟨hpass, hq⟩
  obtain ⟨b, hb⟩ := hi.sound.contig q hq
  obtain ⟨d, hd, hid, hfd⟩ := hu
  have hunlocks : Unlocks ⟨false, none, none⟩ h.addr p.world := by
    rw [Option.mem_def] at hd
    simp only [Unlocks, hd]
    exact ⟨trivial, hid, hfd⟩
  have hok : ∃ p', p.step (.unlocks none h.addr q) = .ok p' := by
    cases hs : p.step (.unlocks none h.addr q) with
    | error f => exact absurd ⟨f, hs⟩ (mt (unlockContig_faults hi hpass hq).iff.1 id)
    | ok p' => exact ⟨p', rfl⟩
  obtain ⟨p', hs⟩ := hok
  obtain ⟨⟨ret, w⟩, he, hs'⟩ := bind_eq_ok hs
  cases hs'
  rcases unlockContig_ok (World.contig?_eq_some.2 hb) he with ⟨hnot, -⟩ | ⟨-, hret, hdone⟩
  · exact absurd hunlocks hnot
  refine ⟨_, hl, fun hlossy => hlossy.2 rfl, hs, ?_, if_pos hret, rfl⟩
  refine hi.keepsDevices hl hs (by simp) hdone.fds ?_
  intro a ha
  change w.heap.get a = none
  rw [hdone.get]
  by_cases haq : a = q
  · rw [haq, Function.update_self]
  · rw [Function.update_of_ne haq]
    exact ha

theorem Program.exists_unlockSg (hi : ProgramInv p) (hh : h ∈ p.live) (hu : p.Usable h)
    (hq : q ∈ p.sgs) : ∃ p', p.Legal (.unlocksSg h.addr q) ∧ ¬p.Lossy (.unlocksSg h.addr q) ∧
      p.step (.unlocksSg h.addr q) = .ok p' ∧ p.KeepsDevices p' ∧ p'.contigs = p.contigs ∧
      p'.sgs = p.sgs.erase q := by
  have hpass : p.Passes h.addr := Or.inr ⟨h, hh, rfl⟩
  have hl : p.Legal (.unlocksSg h.addr q) := ⟨hpass, hq⟩
  obtain ⟨c, page, hc, hpage⟩ := hi.client.sg.block q hq
  obtain ⟨d, hd, hid, hfd⟩ := hu
  obtain ⟨w', he, hfds, hget⟩ := sgUnlock_done ⟨false, none⟩ hd hid hfd rfl hc hpage
  have he' : dmaSgBufUnlock ⟨false, none⟩ h.addr q p.client.world = .ok (cronoSuccess, w') := he
  have hs : p.step (.unlocksSg h.addr q) = .ok { p with
      client := { p.client.setWorld w' with sgs := p.client.sgs.erase q } } := by
    simp [Program.step, Call.unlocksSg, Client.step, he', bind, Except.bind, pure, Except.pure]
  refine ⟨_, hl, fun hlossy => hlossy, hs, ?_, rfl, rfl⟩
  refine hi.keepsDevices hl hs (by simp) hfds ?_
  intro a ha
  change w'.heap.get a = none
  rw [hget]
  simp only [Function.update_apply]
  repeat' split
  · rfl
  · rfl
  · exact ha

/-- One more buffer is unlocked. -/
theorem Program.exists_unlock (hi : ProgramInv p) (hh : h ∈ p.live) (hu : p.Usable h)
    (hleft : p.contigs.length + p.sgs.length ≠ 0) :
    ∃ c p', (p.Legal c ∧ ¬p.Lossy c ∧ c.unloads = false) ∧ p.step c = .ok p' ∧
      p.KeepsDevices p' ∧
      p'.contigs.length + p'.sgs.length < p.contigs.length + p.sgs.length := by
  by_cases hsgs : p.sgs = []
  · have hlen : 0 < p.contigs.length := by
      rw [hsgs, List.length_nil] at hleft
      omega
    obtain ⟨q, hq⟩ := List.exists_mem_of_length_pos hlen
    obtain ⟨p', hl, hclean, hs, hkeeps, hcontigs, hsgs⟩ := Program.exists_unlockContig hi hh hu hq
    refine ⟨_, p', ⟨hl, hclean, rfl⟩, hs, hkeeps, ?_⟩
    rw [hcontigs, hsgs, List.length_erase_of_mem hq]
    omega
  · have hlen : 0 < p.sgs.length := List.length_pos_of_ne_nil hsgs
    obtain ⟨q, hq⟩ := List.exists_mem_of_length_pos hlen
    obtain ⟨p', hl, hclean, hs, hkeeps, hcontigs, hsgs⟩ := Program.exists_unlockSg hi hh hu hq
    refine ⟨_, p', ⟨hl, hclean, rfl⟩, hs, hkeeps, ?_⟩
    rw [hcontigs, hsgs, List.length_erase_of_mem hq]
    omega

/-- Through a handle that can be used, all buffers are unlocked one after the
other. -/
theorem Program.exists_unlocked (hi : ProgramInv p) (hh : h ∈ p.live) (hu : p.Usable h) :
    ∃ t, p.ReachesLoaded t ∧ ProgramInv t ∧ p.KeepsDevices t ∧ t.contigs = [] ∧ t.sgs = [] := by
  have hstep (s : Program) (hI : ProgramInv s ∧ p.KeepsDevices s)
      (hleft : s.contigs.length + s.sgs.length ≠ 0) :
      ∃ c s', (s.Legal c ∧ ¬s.Lossy c ∧ c.unloads = false) ∧ s.step c = .ok s' ∧
        (ProgramInv s' ∧ p.KeepsDevices s') ∧
        s'.contigs.length + s'.sgs.length < s.contigs.length + s.sgs.length := by
    obtain ⟨hi, hkeeps⟩ := hI
    have hh' : h ∈ s.live := by
      rw [hkeeps.live]
      exact hh
    obtain ⟨c, s', hg, hs, hkeeps', hlt⟩ :=
      Program.exists_unlock hi hh' (hkeeps.usable hh hu) hleft
    exact ⟨c, s', hg, hs, ⟨hi.step hg.1 hs, hkeeps.trans hkeeps'⟩, hlt⟩
  obtain ⟨t, ht, ⟨hi', hkeeps⟩, hdone⟩ := Reach.exists_done
    (fun t : Program => t.contigs.length + t.sgs.length) hstep .init ⟨hi, .refl p⟩
  obtain ⟨hcontigs, hsgs⟩ := Nat.add_eq_zero_iff.1 hdone
  exact ⟨t, ht, hi', hkeeps, List.length_eq_zero_iff.1 hcontigs, List.length_eq_zero_iff.1 hsgs⟩

/-! ## Opening a device to unlock with -/

/-- An Open that gets past every check, of a function with an id. -/
theorem Program.step_completes {sys : OpenSys} {slot : PciSlot}
    (hc : sys.Completes slot p.world) (hid : (sys.seenIds slot).2 ≠ 0) :
    ∃ s h, ¬p.Lossy (.use (.registry (.openDev sys slot))) ∧
      p.step (.use (.registry (.openDev sys slot))) = .ok (p.withSession s) ∧
      s.live = h :: p.live ∧ (p.withSession s).Usable h ∧
      (p.world.reg.iNewDev < 7 → (p.withSession s).Returns h) := by
  obtain ⟨r, hr, he⟩ := pciDeviceOpen_result sys 0 slot p.world
  obtain ⟨d, w', rfl, hopened⟩ := hr.completed hc
  have h0 := hc.succeeds.ne_null
  obtain ⟨hslot, hzero⟩ := hopened.slot_id
  obtain ⟨f, -, -, -, hfds⟩ := hopened.fds
  obtain ⟨bars, hd⟩ := hopened.device
  have hfd : d.miscdevFd = p.world.miscNumber := by rw [hd]
  have hnew : w'.device? sys.malloc = some d := by
    rw [World.device?_update hopened.get, if_pos rfl]
  have hown : w'.fds.file d.miscdevFd = some f := by
    rw [hfds.file_eq, hfd, Function.update_self]
  have hclean : ¬p.Lossy (.use (.registry (.openDev sys slot))) := by
    rintro ⟨-, h⟩
    obtain ⟨dir, descs, hfilled, -⟩ := hopened.bars
    rw [← hslot] at h
    exact hfilled.not_strays h
  have he' : pciDeviceOpen sys (some 0) (some slot) p.client.session.world =
      .ok (cronoSuccess, some sys.malloc, w') := he
  have hstep : p.client.session.step (.openDev sys slot) = .ok { p.client.session with
      world := w'
      live := ⟨sys.malloc, Session.fileOf w' sys.malloc⟩ :: p.client.session.live
      peak := max p.client.session.peak (p.client.session.live.length + 1) } := by
    simp [Session.step, Session.openDev, he', h0, bind, Except.bind, pure, Except.pure]
  have hid' : d.dwDeviceId ≠ 0 := fun h => hid (hzero.1 h)
  refine ⟨_, _, hclean, Program.step_of_session hstep, rfl, ⟨d, hnew, hid', ?_⟩, ?_⟩
  · rw [hfd]
    exact p.world.miscNumber_ne_zero
  intro hroom
  refine ⟨?_, hopened.holds_new, d, hnew, hid', ?_⟩
  · change w'.reg.iNewDev < 8
    rw [hopened.iNewDev]
    omega
  · change w'.fds.file d.miscdevFd = some (Session.fileOf w' sys.malloc)
    simp only [Session.fileOf, hnew, hown, Option.getD_some]

/-- Opening the first device needs a slot and a block. -/
theorem completes_small (hroom : w.reg.iNewDev < 8) (h0 : a ≠ 0) (hfree : w.heap.get a = none) :
    (OpenSys.small 1 a none (.small [] fun _ => 0)).Completes (busSlot 1) w := by
  refine ⟨⟨_, rfl, rfl⟩, rfl, hroom, h0, hfree, rfl, rfl, ?_, ?_⟩
  · rintro (⟨e, hlink⟩ | ⟨dir, -, hnot | ⟨e, hmap⟩⟩)
    · cases hlink
    · exact hnot ⟨rfl, rfl⟩
    · cases hmap
  · rintro ⟨i, hi⟩
    cases hi

/-! ## Giving back everything -/

/-- Each handle can be given back; buffers held without a handle find a slot that
can be given back. -/
def Program.Recovers (p : Program) : Prop :=
  (∀ h ∈ p.live, p.Returns h) ∧
    (p.live = [] → p.contigs ≠ [] ∨ p.sgs ≠ [] → p.world.reg.iNewDev < 7)

instance (p : Program) : Decidable p.Recovers := inferInstanceAs (Decidable (_ ∧ (_ → _ → _)))

theorem Program.Recovers.exists_empty (hr : p.Recovers) (hi : ProgramInv p)
    (hfd : ∀ h ∈ p.live, ∀ d, p.world.device? h.addr = some d → d.miscdevFd ≠ 0)
    (hfree : ∃ a, a ≠ 0 ∧ p.world.heap.get a = none) :
    ∃ t, p.ReachesLoaded t ∧ t.live = [] ∧ t.contigs = [] ∧ t.sgs = [] := by
  obtain ⟨hall, hopen⟩ := hr
  obtain ⟨a, h0, hfree⟩ := hfree
  by_cases hlive : p.live = []
  · by_cases hnone : p.contigs = [] ∧ p.sgs = []
    · exact ⟨p, .init, hlive, hnone⟩
    -- open a device, unlock through it, close it
    have hroom := hopen hlive (not_and_or.1 hnone)
    have hid : ((OpenSys.small 1 a none (.small [] fun _ => 0)).seenIds (busSlot 1)).2 ≠ 0 := by
      change (0x0606 : UInt16) ≠ 0
      decide
    obtain ⟨s, h, hclean, hs, hlive', hu, hret⟩ :=
      Program.step_completes (completes_small (by omega) h0 hfree) hid
    have hl : p.Legal (.use (.registry (.opens 1 a))) := ⟨Or.inl rfl, trivial⟩
    have hh : h ∈ (p.withSession s).live := by
      change h ∈ s.live
      rw [hlive']
      exact List.mem_cons_self
    obtain ⟨t, ht, hi', hkeeps, hcontigs, hsgs⟩ :=
      Program.exists_unlocked (hi.step hl hs) hh hu
    have hlive₁ : t.live = [h] := by
      rw [hkeeps.live]
      change s.live = [h]
      rw [hlive', hlive]
    have hh' : h ∈ t.live := by
      rw [hlive₁]
      exact List.mem_cons_self
    obtain ⟨s', d, hl', hclean', hs', hgone, -⟩ :=
      (hkeeps.returns hh (hret hroom)).close hi' hh'
    have hfirst : p.ReachesLoaded (p.withSession s) := Reach.init.step ⟨hl, hclean, rfl⟩ hs
    refine ⟨t.withSession s', (hfirst.trans ht).step ⟨hl', hclean', rfl⟩ hs', ?_, hcontigs, hsgs⟩
    change s'.live = []
    rw [hgone, hlive₁, List.erase_cons_head]
  · obtain ⟨h, hh⟩ := List.exists_mem_of_ne_nil _ hlive
    obtain ⟨-, -, d, hd, hid, -⟩ := hall h hh
    obtain ⟨t, ht, hi', hkeeps, hcontigs, hsgs⟩ :=
      Program.exists_unlocked hi hh ⟨d, hd, hid, hfd h hh d hd⟩
    have hall' : ∀ h ∈ t.live, t.Returns h := by
      intro h hh
      rw [hkeeps.live] at hh
      exact hkeeps.returns hh (hall h hh)
    obtain ⟨u, hu, hnone, hcontigs', hsgs'⟩ :=
      Program.exists_drained hi' hall' ⟨a, h0, hkeeps.free a hfree⟩
    exact ⟨u, ht.trans hu, hnone, hcontigs'.trans hcontigs, hsgs'.trans hsgs⟩

/-! ## Buffers that stay locked -/

/-- Buffers are held without a handle, and no Open gives a handle that can be given
back. -/
structure Program.Stranded (p : Program) : Prop where
  live : p.live = []
  held : p.contigs ≠ [] ∨ p.sgs ≠ []
  full : 7 ≤ p.world.reg.iNewDev

/-- Without a handle no slot is regained, and a handle takes one. -/
theorem Program.step_slots (hi : ProgramInv p) (hl : p.Legal c) (hs : p.step c = .ok p')
    (hload : c.unloads = false) (hlive : p.live = []) :
    p.world.reg.iNewDev ≤ p'.world.reg.iNewDev ∧
      (p'.live ≠ [] → p'.world.reg.iNewDev = p.world.reg.iNewDev + 1) := by
  by_cases hop : ∃ op, c = .use (.registry op)
  case neg =>
    obtain ⟨hlive', hreg⟩ := Program.step_outside hi hl hs (not_exists.1 hop)
    rw [hreg]
    exact ⟨le_rfl, fun hne => absurd (hlive'.trans hlive) hne⟩
  obtain ⟨op, rfl⟩ := hop
  obtain ⟨s, hstep, rfl⟩ := Program.step_registry hs
  cases op with
  | openDev sys slot =>
    cases step_openDev hstep with
    | nothing => exact ⟨le_rfl, fun hne => absurd hlive hne⟩
    | dropped hdrop => exact ⟨hdrop.iNewDev.ge, fun hne => absurd hlive hne⟩
    | opened _ hopened => exact ⟨Nat.le.intro hopened.iNewDev.symm, fun _ => hopened.iNewDev⟩
  | closeDev munmap h | getBars sys h =>
    have hh : h ∈ p.live := hl.2
    rw [hlive] at hh
    cases hh
  | unload => cases hload

/-- Without a handle no buffer is unlocked. -/
theorem Program.step_held (hi : ProgramInv p) (hl : p.Legal c) (hs : p.step c = .ok p')
    (hlive : p.live = []) (hheld : p.contigs ≠ [] ∨ p.sgs ≠ []) :
    p'.contigs ≠ [] ∨ p'.sgs ≠ [] := by
  have hnull (hDev : Addr) (hpass : p.Passes hDev) :
      p.world.initHDevFunc hDev = .ok (.error (0 - einval)) := by
    rcases hi.initHDevFunc hpass with ⟨-, hinit⟩ | ⟨h, hh, -⟩
    · exact hinit
    · rw [hlive] at hh
      cases hh
  cases c with
  | cleanup | query =>
    obtain ⟨r, -, hs⟩ := bind_eq_ok hs
    cases hs
    exact hheld
  | use u =>
  cases u with
  | registry op =>
    obtain ⟨s, -, rfl⟩ := Program.step_registry hs
    exact hheld
  | lockContig sys hDev ppBuf size ppDma =>
    obtain ⟨r, -, hs⟩ := bind_eq_ok hs
    cases hs
    refine hheld.imp ?_ id
    intro hne
    split
    · exact List.cons_ne_nil _ _
    · exact hne
  | unlockContig sys hDev q =>
    obtain ⟨⟨ret, w⟩, he, hs⟩ := bind_eq_ok hs
    cases hs
    simp only [dmaContigBufUnlock, hnull hDev hl.1, bind, Except.bind, pure, Except.pure] at he
    cases he
    exact hheld
  | lockSg sys hDev pBuf size ppDma =>
    obtain ⟨c', hc', hs⟩ := bind_eq_ok hs
    cases hs
    obtain ⟨r, -, hc'⟩ := bind_eq_ok hc'
    cases hc'
    refine hheld.imp id ?_
    intro hne
    change (if _ then _ else _) ≠ []
    split
    · exact List.cons_ne_nil _ _
    · exact hne
  | unlockSg sys hDev q =>
    obtain ⟨c', hc', hs⟩ := bind_eq_ok hs
    cases hs
    obtain ⟨⟨ret, w⟩, he, hc'⟩ := bind_eq_ok hc'
    cases hc'
    have hinit : p.client.world.initHDevFunc hDev = _ := hnull hDev hl.1
    simp only [dmaSgBufUnlock, hinit, bind, Except.bind, pure, Except.pure] at he
    cases he
    exact hheld
  | scan | access | readCfg | writeCfg =>
    obtain ⟨c', hc', hs⟩ := bind_eq_ok hs
    cases hs
    obtain ⟨r, -, hc'⟩ := bind_eq_ok hc'
    cases hc'
    exact hheld

/-- A call leaves a stranded program stranded, or gives it a handle that cannot be
given back. -/
theorem Program.Stranded.step (hst : p.Stranded) (hi : ProgramInv p) (hl : p.Legal c)
    (hs : p.step c = .ok p') (hload : c.unloads = false) :
    p'.Stranded ∨ ∃ h ∈ p'.live, ¬p'.Returns h := by
  obtain ⟨hlive, hheld, hfull⟩ := hst
  obtain ⟨hslots, hopened⟩ := Program.step_slots hi hl hs hload hlive
  by_cases hlive' : p'.live = []
  · exact Or.inl ⟨hlive', Program.step_held hi hl hs hlive hheld, hfull.trans hslots⟩
  · have hmore := hopened hlive'
    obtain ⟨h, hh⟩ := List.exists_mem_of_ne_nil _ hlive'
    refine Or.inr ⟨h, hh, ?_⟩
    rintro ⟨hroom, -⟩
    omega

theorem Program.Stranded.holds (hst : p.Stranded) (hi : ProgramInv p) (ht : p.ReachesLoaded t) :
    t.live ≠ [] ∨ t.contigs ≠ [] ∨ t.sgs ≠ [] := by
  have hrun : ProgramInv t ∧ (t.Stranded ∨ ∃ h ∈ t.live, ¬t.Returns h) := by
    refine Reach.invariant
      (I := fun t => ProgramInv t ∧ (t.Stranded ∨ ∃ h ∈ t.live, ¬t.Returns h))
      ⟨hi, Or.inl hst⟩ ?_ ht
    rintro s s' c ⟨hi, hst | ⟨h, hh, hnot⟩⟩ ⟨hl, hclean, hload⟩ hs
    · exact ⟨hi.step hl hs, hst.step hi hl hs hload⟩
    · exact ⟨hi.step hl hs, Or.inr ⟨h, Program.step_kept hi hl hs hclean hload hh hnot⟩⟩
  rcases hrun.2 with hst | ⟨h, hh, -⟩
  · exact Or.inr hst.held
  · exact Or.inl (List.ne_nil_of_mem hh)

/-- Calls without loss give back everything that is held exactly when each handle
can be given back and buffers held without a handle find a slot, if `malloc` has
an address left. -/
theorem recovered_iff (hw : w.Initial) (hp : Program.Reachable w p)
    (hfree : ∃ a, a ≠ 0 ∧ p.world.heap.get a = none) :
    (∃ t, p.ReachesLoaded t ∧ ∀ k, ¬t.holdings.Holds k) ↔ p.Recovers := by
  have hi := programInv_reachable hw hp
  constructor
  · rintro ⟨t, ht, hnone⟩
    refine ⟨?_, ?_⟩
    · intro h hh
      exact ht.returns hi hh (hnone (.device h))
    · intro hlive hheld
      by_contra hnot
      have hst : p.Stranded := ⟨hlive, hheld, Nat.le_of_not_lt hnot⟩
      rcases hst.holds hi ht with hne | hne | hne <;>
        obtain ⟨k, hk⟩ := List.exists_mem_of_ne_nil _ hne
      · exact hnone (.device k) hk
      · exact hnone (.contig k) hk
      · exact hnone (.sg k) hk
  · intro hr
    have hfd (h : Handle) (hh : h ∈ p.live) (d : KernelDevice)
        (hd : p.world.device? h.addr = some d) : d.miscdevFd ≠ 0 :=
      (named_reachable hw hp h hh d (World.device?_eq_some.1 hd)).2
    obtain ⟨t, ht, hlive, hcontigs, hsgs⟩ := hr.exists_empty hi hfd hfree
    refine ⟨t, ht, ?_⟩
    intro k
    cases k <;>
      simp only [Holdings.Holds, Program.holdings, hlive, hcontigs, hsgs, List.not_mem_nil,
        not_false_eq_true]

/-- The device is closed while two of its buffers are locked. -/
theorem recovered_iff_buffers : ∃ p, Program.Reachable World.boot p ∧
    p.live = [] ∧ p.contigs = [32] ∧ p.sgs = [48] ∧
      ∃ t, p.ReachesLoaded t ∧ ∀ k, ¬t.holdings.Holds k := by
  obtain ⟨p, hp, hlive, hcontigs, hsgs, hfree, hr⟩ : ∃ p, Program.Reachable World.boot p ∧
      p.live = [] ∧ p.contigs = [32] ∧ p.sgs = [48] ∧ (p.world.heap.get 64).isNone = true ∧
      p.Recovers :=
    exists_reach_of_run (Call.setup ++ [.use (.registry (.closes 16 5))]) (by decide)
  refine ⟨p, hp, hlive, hcontigs, hsgs, (recovered_iff World.boot_initial hp ⟨64, ?_, ?_⟩).2 hr⟩
  · decide
  · exact Option.isNone_iff_eq_none.1 hfree

end Recovery

end CronoPci
