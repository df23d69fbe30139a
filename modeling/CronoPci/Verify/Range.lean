import CronoPci.Verify.Registry

/-!
# The range of the registry

What the shrink loop of Close does to the entries in range, over runs: when a
live device drops out of `devices[0..iNewDev)`, when a slot is lost, and when
an index runs past the array. Each question has an exact answer for one call,
in terms of the entry at `iNewDev` itself, the first one past the range, which
the loop looks at.
-/

namespace CronoPci

open Posix Trans

/-! ## When a Close completes -/

/-- Close reaches the shrink loop: the handle is valid, its descriptor is open,
and no `munmap` that it needs fails. -/
def Releases (munmap : Fin 6 → Option Errno) (p : Addr) (w : World) : Prop :=
  match w.device? p with
  | some d => d.dwDeviceId ≠ 0 ∧ w.fds.file d.miscdevFd ≠ none ∧
      (w.reg.Holds p → UnmapsSucceed munmap d.bars)
  | none => False

instance (munmap : Fin 6 → Option Errno) (p : Addr) (w : World) :
    Decidable (Releases munmap p w) :=
  match h : w.device? p with
  | some d => decidable_of_iff (d.dwDeviceId ≠ 0 ∧ w.fds.file d.miscdevFd ≠ none ∧
      (w.reg.Holds p → UnmapsSucceed munmap d.bars)) (by simp only [Releases, h])
  | none => isFalse (by simp only [Releases, h, not_false_eq_true])

theorem releases_iff {munmap : Fin 6 → Option Errno} {p : Addr} {w : World} {d : KernelDevice}
    (hd : w.device? p = some d) : Releases munmap p w ↔ d.dwDeviceId ≠ 0 ∧
      w.fds.file d.miscdevFd ≠ none ∧ (w.reg.Holds p → UnmapsSucceed munmap d.bars) := by
  simp only [Releases, hd]

/-- What a Close that completes does to the device `d` at `p`. -/
structure Released (p : Addr) (d : KernelDevice) (w w' : World) : Prop where
  room : w.reg.iNewDev < 8
  devices : ∀ k, w'.reg.devices[k]? =
    if k < w.reg.iNewDev ∧ w.reg.devices[k]? = some p then some 0 else w.reg.devices[k]?
  shrunk : Shrunk w'.reg.devices w.reg.iNewDev w'.reg.iNewDev
  freed : w.reg.Holds p → w'.heap.get p = none ∧ w'.heap.frees = p :: w.heap.frees
  unmapped : w.reg.Holds p → ∀ j : Fin 6, (j : Nat) < d.bars.barCount →
    (d.bars.barDescs.get j).userAddress ≠ 0 → ∀ m ∈ w'.space.maps,
      ¬(m.start = (d.bars.barDescs.get j).userAddress ∧
        m.len = (d.bars.barDescs.get j).length.toNat)

/-- How Close on the device `d` at `p` ends, by whether it reaches the shrink
loop. -/
inductive CloseEnds (munmap : Fin 6 → Option Errno) (p : Addr) (d : KernelDevice) (w : World) :
    Except Fault (Code × World) → Prop
  | kept {ret : Code} {w' : World} (hnot : ¬Releases munmap p w) (hret : ret ≠ cronoSuccess)
      (hreg : w'.reg = w.reg) : CloseEnds munmap p d w (.ok (ret, w'))
  | overruns (hrel : Releases munmap p w) (h8 : w.reg.iNewDev = 8) :
      CloseEnds munmap p d w (.error (.devicesIndex 8))
  | released {w' : World} (hrel : Releases munmap p w) (h : Released p d w w') :
      CloseEnds munmap p d w (.ok (cronoSuccess, w'))

/-- Unmapping that gets through leaves none of the regions it was to unmap. -/
theorem unmapBars_gone {munmap : Fin 6 → Option Errno} {t bars : BarTable} {space space' : Space}
    (h : unmapBars munmap t.indices t space = (none, bars, space')) {j : Fin 6}
    (hj : (j : Nat) < t.barCount) (hne : (t.barDescs.get j).userAddress ≠ 0) :
    ∀ m ∈ space'.maps,
      ¬(m.start = (t.barDescs.get j).userAddress ∧ m.len = (t.barDescs.get j).length.toNat) := by
  have hzero := unmapBars_zero (congrArg Prod.fst h) j (BarTable.mem_indices.2 hj)
  have heff := unmapBars_effect munmap t.indices t space
  rw [h] at hzero heff
  rcases heff.desc j with he | ⟨-, hgone⟩
  · rw [he] at hzero
    exact absurd hzero hne
  · exact hgone

theorem pciDeviceClose_ends (munmap : Fin 6 → Option Errno) {p : Addr} {d : KernelDevice}
    {w : World} (hd : w.device? p = some d) (hdist : w.reg.Distinct) :
    CloseEnds munmap p d w (pciDeviceClose munmap p w) := by
  have hr := pciDeviceClose_result munmap hd hdist
  have hp0 : p ≠ 0 := Heap.ne_zero_of_get (World.device?_eq_some.1 hd)
  have hrel : Releases munmap p w ↔ _ := releases_iff hd
  generalize pciDeviceClose munmap p w = r at hr
  cases hr with
  | invalid hid => exact .kept (fun h => (hrel.1 h).1 hid) (by decide) rfl
  | badFd hid hfd => exact .kept (fun h => (hrel.1 h).2.1 hfd) (by decide) rfl
  | closed hid hfd hr =>
    cases hr with
    | @unmapFails e bars space hp hun =>
      refine .kept ?_ e.ne_zero rfl
      intro h
      have := (unmapsSucceed_iff w.space).1 ((hrel.1 h).2.2 hp)
      simp only [closeMisc] at hun
      rw [hun] at this
      cases this
    | @released i bars space w₁ w' hroom hi hp hun hfreed hshrunk =>
      refine .released (hrel.2 ⟨hid, hfd, fun _ => (unmapsSucceed_iff _).2 (by rw [hun])⟩)
        ⟨hroom, ?_, ?_, fun _ => ⟨?_, ?_⟩, ?_⟩
      · intro k
        rw [hshrunk.devices, hfreed.devices]
        by_cases hki : k = i
        · subst hki
          rw [if_pos rfl, if_pos ⟨hi, hp⟩]
        · rw [if_neg hki, if_neg fun h => hki (hdist k i p h.1 hi h.2 hp hp0)]
          rfl
      · have := hshrunk.shrunk
        rw [hfreed.iNewDev, ← hshrunk.devices] at this
        exact this
      · rw [hshrunk.heap, hfreed.get, Function.update_self]
      · rw [hshrunk.heap, hfreed.frees]
        rfl
      · intro _ j hj hne
        rw [hshrunk.space, hfreed.space_eq]
        exact unmapBars_gone hun hj hne
    | absent hroom hp hshrunk =>
      refine .released (hrel.2 ⟨hid, hfd, fun h => absurd h hp⟩)
        ⟨hroom, ?_, ?_, fun h => absurd h hp, fun h => absurd h hp⟩
      · intro k
        have hne : ¬(k < w.reg.iNewDev ∧ w.reg.devices[k]? = some p) := fun h => hp ⟨k, h⟩
        rw [hshrunk.devices, if_neg hne]
        rfl
      · have := hshrunk.shrunk
        rw [← hshrunk.devices] at this
        exact this
    | full h8 hun => exact .overruns (hrel.2 ⟨hid, hfd, hun⟩) h8

/-! ## Dropping a device from the range -/

namespace Registry

/-- No non-null entry in range but `p`. -/
def HoldsOnly (r : Registry) (p : Addr) : Prop :=
  ∀ i : Fin 8, (i : Nat) < r.iNewDev → r.devices[i] = 0 ∨ r.devices[i] = p

instance (r : Registry) (p : Addr) : Decidable (r.HoldsOnly p) :=
  inferInstanceAs (Decidable (∀ i : Fin 8, (i : Nat) < r.iNewDev →
    r.devices[i] = 0 ∨ r.devices[i] = p))

theorem holdsOnly_iff {r : Registry} {p : Addr} :
    r.HoldsOnly p ↔ ∀ a, a ≠ 0 → r.Holds a → a = p := by
  constructor
  · rintro h a h0 ⟨i, hi, ha⟩
    have hi8 : i < 8 := Nat.lt_of_lt_of_le hi r.le
    rw [Vector.getElem?_eq_getElem hi8, Option.some.injEq] at ha
    rcases h ⟨i, hi8⟩ hi with he | he
    · exact absurd (ha.symm.trans he) h0
    · exact ha.symm.trans he
  · intro h i hi
    by_cases h0 : r.devices[i] = 0
    · exact Or.inl h0
    · exact Or.inr (h _ h0 ⟨i, hi, Vector.getElem?_eq_getElem i.2⟩)

end Registry

section Shrinking

variable {p : Addr} {d : KernelDevice} {w w' : World}

/-- The entry just past the range is the one that decides. -/
theorem Released.devices_iNewDev (h : Released p d w w') :
    w'.reg.devices[w.reg.iNewDev]? = w.reg.devices[w.reg.iNewDev]? := by
  rw [h.devices, if_neg fun hk => Nat.lt_irrefl _ hk.1]

/-- With a stale pointer past the range the loop does not move. -/
theorem Released.stays (h : Released p d w w')
    (hstale : w.reg.devices[w.reg.iNewDev]? ≠ some 0) : w'.reg.iNewDev = w.reg.iNewDev := by
  rcases Nat.eq_or_lt_of_le h.shrunk.le with he | hlt
  · exact he
  · have hnull := h.shrunk.null _ hlt (Nat.le_refl _)
    rw [h.devices_iNewDev] at hnull
    exact absurd hnull hstale

/-- With null past the range the loop goes down at least one entry. -/
theorem Released.moves (h : Released p d w w') (hpos : w.reg.iNewDev ≠ 0)
    (hnull : w.reg.devices[w.reg.iNewDev]? = some 0) : w'.reg.iNewDev < w.reg.iNewDev := by
  rcases Nat.eq_or_lt_of_le h.shrunk.le with he | hlt
  · have hstop := h.shrunk.stop (by omega)
    rw [he, h.devices_iNewDev] at hstop
    exact absurd hnull hstop
  · exact hlt

/-- The devices that Close does not release stay in range exactly when the loop
does not move or there are none: where it stops at a device, it drops it. -/
theorem Released.keeps_iff (h : Released p d w w') (hdist : w.reg.Distinct) :
    (∀ a, a ≠ 0 → a ≠ p → w.reg.Holds a → w'.reg.Holds a) ↔
      w.reg.devices[w.reg.iNewDev]? ≠ some 0 ∨ w.reg.HoldsOnly p := by
  rw [Registry.holdsOnly_iff]
  constructor
  · intro hkeep
    by_contra hnot
    simp only [not_or, not_not, not_forall, exists_prop] at hnot
    obtain ⟨hnull, a, h0, ⟨k, hk, hka⟩, hap⟩ := hnot
    have hlt := h.moves (by omega) hnull
    obtain ⟨k', hk', -⟩ := hkeep a h0 hap ⟨k, hk, hka⟩
    have hstop := h.shrunk.stop (by omega)
    -- the loop stopped at a device `b`, now out of range
    obtain ⟨b, hget⟩ : ∃ b, w'.reg.devices[w'.reg.iNewDev]? = some b :=
      ⟨_, Vector.getElem?_eq_getElem (Nat.lt_trans hlt h.room)⟩
    have hb0 : b ≠ 0 := by
      intro he
      subst he
      exact hstop hget
    have hb := hget
    rw [h.devices] at hb
    split at hb
    · cases hb
      exact hb0 rfl
    · next hbp =>
      obtain ⟨j, hj, hjb⟩ := hkeep b hb0 (fun he => hbp ⟨hlt, he ▸ hb⟩) ⟨_, hlt, hb⟩
      have hj' := h.devices j
      rw [hjb] at hj'
      split at hj'
      · cases hj'
        exact hb0 rfl
      · have := hdist j w'.reg.iNewDev b (Nat.lt_trans hj hlt) hlt hj'.symm hb hb0
        omega
  · rintro (hstale | honly) a h0 hap ⟨k, hk, hka⟩
    · refine ⟨k, by rw [h.stays hstale]; exact hk, ?_⟩
      rw [h.devices, if_neg fun hp => hap ?_]
      · exact hka
      · rw [hka, Option.some.injEq] at hp
        exact hp.2
    · exact absurd (honly a h0 ⟨k, hk, hka⟩) hap

end Shrinking

theorem Dropped.holds {p a : Addr} {w w' : World} (h : Dropped p w w') (ha : w.reg.Holds a) :
    w'.reg.Holds a := by
  obtain ⟨k, hk, hka⟩ := ha
  refine ⟨k, by rw [h.iNewDev]; exact hk, ?_⟩
  rw [h.devices, if_neg (by omega)]
  exact hka

theorem Opened.holds {sys : OpenSys} {slot : PciSlot} {v : SlotVars} {d : KernelDevice}
    {w w' : World} {a : Addr} (h : Opened sys slot v d w w') (ha : w.reg.Holds a) :
    w'.reg.Holds a := by
  obtain ⟨k, hk, hka⟩ := ha
  refine ⟨k, by rw [h.iNewDev]; omega, ?_⟩
  rw [h.devices, if_neg (by omega)]
  exact hka

theorem Opened.holds_new {sys : OpenSys} {slot : PciSlot} {v : SlotVars} {d : KernelDevice}
    {w w' : World} (h : Opened sys slot v d w w') : w'.reg.Holds sys.malloc :=
  ⟨w.reg.iNewDev, by rw [h.iNewDev]; omega, by rw [h.devices, if_pos rfl]⟩

/-- A Close that completes finds the entry past the range holding a stale
pointer, or no other device in range. -/
def Session.KeepsRange (s : Session) : Op → Prop
  | .closeDev munmap h => Releases munmap h.addr s.world →
      s.world.reg.iNewDev < 8 ∧
        (s.world.reg.devices[s.world.reg.iNewDev]? ≠ some 0 ∨ s.world.reg.HoldsOnly h.addr)
  | _ => True

instance (s : Session) (op : Op) : Decidable (s.KeepsRange op) :=
  match op with
  | .closeDev munmap h => inferInstanceAs (Decidable (Releases munmap h.addr s.world →
      s.world.reg.iNewDev < 8 ∧
        (s.world.reg.devices[s.world.reg.iNewDev]? ≠ some 0 ∨ s.world.reg.HoldsOnly h.addr)))
  | .openDev .. => inferInstanceAs (Decidable True)
  | .getBars .. => inferInstanceAs (Decidable True)
  | .unload => inferInstanceAs (Decidable True)

/-- Every live device stands in range. -/
def Session.AllHeld (s : Session) : Prop := ∀ h ∈ s.live, s.world.reg.Holds h.addr

/-- The exact condition for one Close, where every live device is in range. -/
theorem keepsRange_iff {s : Session} {h : Handle} (hi : RegInv s.live s.world) (hh : h ∈ s.live)
    (hall : s.AllHeld) (munmap : Fin 6 → Option Errno) :
    s.KeepsRange (.closeDev munmap h) ↔ ∃ ret w',
      pciDeviceClose munmap h.addr s.world = .ok (ret, w') ∧
        ∀ h' ∈ s.live, h' ≠ h → w'.reg.Holds h'.addr := by
  obtain ⟨d, hd⟩ := hi.device h hh
  have hends := pciDeviceClose_ends munmap hd hi.distinct
  simp only [Session.KeepsRange]
  generalize pciDeviceClose munmap h.addr s.world = r at hends
  cases hends with
  | kept hnot hret hreg =>
    refine iff_of_true (fun hrel => absurd hrel hnot) ⟨_, _, rfl, fun h' hh' _ => ?_⟩
    rw [hreg]
    exact hall h' hh'
  | overruns hrel h8 =>
    refine iff_of_false ?_ ?_
    · intro hg
      have := (hg hrel).1
      omega
    · rintro ⟨ret, w', he, -⟩
      cases he
  | @released w' hrel hdone =>
    have hkeep := hdone.keeps_iff hi.distinct
    -- the other live devices are the other non-null entries
    have hothers : (∀ h' ∈ s.live, h' ≠ h → w'.reg.Holds h'.addr) ↔
        ∀ a, a ≠ 0 → a ≠ h.addr → s.world.reg.Holds a → w'.reg.Holds a := by
      constructor
      · intro hlive a h0 hne ha
        obtain ⟨h', hh', rfl⟩ := hi.registered a h0 ha
        exact hlive h' hh' fun he => hne (he ▸ rfl)
      · intro haddr h' hh' hne
        exact haddr _ (hi.ne_zero hh') (hi.addr_ne hh hh' hne) (hall h' hh')
    constructor
    · intro hg
      exact ⟨_, _, rfl, hothers.2 (hkeep.2 (hg hrel).2)⟩
    · rintro ⟨ret, w'', he, hlive⟩ -
      cases he
      exact ⟨hdone.room, hkeep.1 (hothers.1 hlive)⟩

theorem allHeld_step {s s' : Session} {op : Op} (hi : RegInv s.live s.world) (hall : s.AllHeld)
    (hl : s.Legal op) (hg : s.KeepsRange op) (hs : s.step op = .ok s') : s'.AllHeld := by
  cases op with
  | openDev sys slot =>
    cases step_openDev hs with
    | nothing => exact hall
    | dropped hdrop =>
      intro h hh
      exact hdrop.holds (hall h hh)
    | opened hv hopened =>
      intro h hh
      rcases List.mem_cons.1 hh with rfl | hh
      · exact hopened.holds_new
      · exact hopened.holds (hall h hh)
  | closeDev munmap h =>
    obtain ⟨ret, w, hc, hkept⟩ := (keepsRange_iff hi hl hall munmap).1 hg
    obtain ⟨ret', w', hc', hor⟩ := step_closeDev hs
    rw [hc] at hc'
    cases hc'
    rcases hor with ⟨-, rfl⟩ | ⟨hret, rfl⟩
    · intro h' hh'
      obtain ⟨hne, hh'⟩ := hi.mem_erase.1 hh'
      exact hkept h' hh' hne
    · intro h' hh'
      obtain ⟨d, hd⟩ := hi.device h hl
      have hends := pciDeviceClose_ends munmap hd hi.distinct
      rw [hc] at hends
      cases hends with
      | kept _ _ hreg =>
        simp only [hreg]
        exact hall h' hh'
      | released => exact absurd rfl hret
  | getBars sys h =>
    obtain ⟨d, hd⟩ := hi.device h hl
    obtain ⟨w, rfl, rfl | ⟨ret, hends⟩⟩ := step_getBars hd hs
    · exact hall
    · obtain ⟨bars, hret⟩ := hends.retabled hd
      intro h' hh'
      simp only [hret.reg]
      exact hall h' hh'
  | unload =>
    obtain ⟨as, w, -, -, rfl⟩ := step_unload hi hs
    intro h hh
    cases hh

/-- In every run whose Closes meet `KeepsRange`, every live device is in range;
the next Close returns and keeps the others there exactly when it meets it too,
and one that succeeds has unmapped the device's BARs and freed its block. -/
theorem live_devices_held {w : World} {s : Session} (hw : w.Initial)
    (hs : Session.Reaches Session.KeepsRange w s) :
    s.AllHeld ∧ ∀ h ∈ s.live, ∀ munmap,
      (s.KeepsRange (.closeDev munmap h) ↔ ∃ ret w',
        pciDeviceClose munmap h.addr s.world = .ok (ret, w') ∧
          ∀ h' ∈ s.live, h' ≠ h → w'.reg.Holds h'.addr) ∧
      ∀ w', pciDeviceClose munmap h.addr s.world = .ok (cronoSuccess, w') →
        ∃ d, s.world.device? h.addr = some d ∧ w'.heap.get h.addr = none ∧
          w'.heap.frees = h.addr :: s.world.heap.frees ∧
          ∀ j : Fin 6, (j : Nat) < d.bars.barCount → (d.bars.barDescs.get j).userAddress ≠ 0 →
            ∀ m ∈ w'.space.maps, ¬(m.start = (d.bars.barDescs.get j).userAddress ∧
              m.len = (d.bars.barDescs.get j).length.toNat) := by
  have hi := regInv_reaches hw hs
  have hall : s.AllHeld := Reach.invariant_of (by intro h hh; cases hh)
    (fun _ ht => regInv_reaches hw ht)
    (fun _ _ _ hi hall hg hstep => allHeld_step hi hall hg.1 hg.2 hstep) hs
  refine ⟨hall, fun h hh munmap => ⟨keepsRange_iff hi hh hall munmap, ?_⟩⟩
  intro w' hc
  obtain ⟨d, hd⟩ := hi.device h hh
  have hends := pciDeviceClose_ends munmap hd hi.distinct
  rw [hc] at hends
  cases hends with
  | kept _ hret => exact absurd rfl hret
  | released _ hdone =>
    obtain ⟨hget, hfrees⟩ := hdone.freed (hall h hh)
    exact ⟨d, hd, hget, hfrees, hdone.unmapped (hall h hh)⟩

/-- Device 2, opened last, is closed while a failed Open has left its pointer
past the range. -/
theorem live_devices_held_stale : ∃ s, Session.Reaches Session.KeepsRange World.boot s ∧
    s.live.map Handle.addr = [16] ∧ s.closed.map Handle.addr = [32] ∧ s.AllHeld := by
  obtain ⟨s, hs, hlive, hclosed⟩ : ∃ s, Session.Reaches Session.KeepsRange World.boot s ∧
      s.live.map Handle.addr = [16] ∧ s.closed.map Handle.addr = [32] :=
    exists_reach_of_run [.opens 1 16, .opens 2 32, .openFails 3 48, .closes 32 10] (by decide)
  exact ⟨s, hs, hlive, hclosed, (live_devices_held World.boot_initial hs).1⟩

/-- Open device 1, open device 2, close device 1: device 2 is out of range. -/
theorem live_device_dropped : ∃ s, Session.Reachable World.boot s ∧
    ∃ h ∈ s.live, ¬s.world.reg.Holds h.addr :=
  exists_reach_of_run [.opens 1 16, .opens 2 32, .closes 16 5] (by decide)

/-! ## Indices past the array -/

/-- The call uses `devices[iNewDev]`: an Open that found its device stores
there, a Close that completes tests it. -/
def Session.IndexesEnd (s : Session) : Op → Prop
  | .openDev sys slot => ∃ v, Found sys slot v
  | .closeDev munmap h => Releases munmap h.addr s.world
  | _ => False

/-- An Open of a device that is there, with no free slot, returns an error and
leaves the registry unchanged. -/
def Session.RefusesWhenFull (s : Session) : Op → Prop
  | .openDev sys slot => (∃ v, Found sys slot v) → s.world.reg.iNewDev = 8 →
      ∃ ret phDev w', pciDeviceOpen sys (some 0) (some slot) s.world = .ok (ret, phDev, w') ∧
        ret ≠ cronoSuccess ∧ w'.reg = s.world.reg
  | _ => True

/-- Which call runs past the array. -/
theorem step_devicesIndex {s : Session} {op : Op} (hi : RegInv s.live s.world) (hl : s.Legal op) :
    (∃ i, s.step op = .error (.devicesIndex i)) ↔
      s.IndexesEnd op ∧ s.world.reg.iNewDev = 8 := by
  cases op with
  | openDev sys slot =>
    obtain ⟨r, hr, he⟩ := pciDeviceOpen_result sys 0 slot s.world
    simp only [Session.step, Session.openDev, Session.IndexesEnd, he]
    constructor
    · intro hfault
      obtain ⟨i, hf⟩ := hfault
      cases hr with
      | index hv hfull => exact ⟨⟨_, hv⟩, hfull⟩
      | _ => cases hf
    · intro hfull
      obtain ⟨⟨v, hv⟩, h8⟩ := hfull
      cases hr with
      | index => exact ⟨8, rfl⟩
      | null _ hroom => omega
      | link hv' | failed hv' | noBars hv' | opened hv' =>
        have hroom := hv'.room
        omega
      | noDirectory hdir => exact absurd hv (not_found_of_error hdir v)
      | notFound hdir hnone => exact absurd hv (not_found_of_none hdir hnone v)
  | closeDev munmap h =>
    obtain ⟨d, hd⟩ := hi.device h hl
    have hends := pciDeviceClose_ends munmap hd hi.distinct
    simp only [Session.step, Session.closeDev, Session.IndexesEnd]
    generalize pciDeviceClose munmap h.addr s.world = r at hends
    constructor
    · intro hfault
      obtain ⟨i, hf⟩ := hfault
      cases hends with
      | @kept ret w' _ hret =>
        simp only [bind, Except.bind, hret, ↓reduceIte] at hf
        cases hf
      | overruns hrel h8 => exact ⟨hrel, h8⟩
      | released => cases hf
    · intro hfull
      cases hends with
      | kept hnot => exact absurd hfull.1 hnot
      | overruns => exact ⟨8, rfl⟩
      | released _ hdone =>
        have hroom := hdone.room
        omega
  | getBars sys h =>
    refine iff_of_false ?_ fun h => h.1
    rintro ⟨i, hf⟩
    obtain ⟨d, hd⟩ := hi.device h hl
    obtain ⟨j, hj⟩ := getBars_fault hd hf
    cases hj
  | unload =>
    obtain ⟨as, w', hw', -⟩ := hi.onUnload
    simp only [Session.step, Session.unload, hw', Session.IndexesEnd]
    refine iff_of_false ?_ fun h => h.1
    rintro ⟨i, hf⟩
    cases hf

/-- In every reachable session a call keeps its indices within the array, and an
Open without a free slot fails cleanly, exactly when a call that uses
`devices[iNewDev]` finds `iNewDev` below 8. -/
theorem registry_indices {w : World} {s : Session} {op : Op} (hw : w.Initial)
    (hs : Session.Reachable w s) (hl : s.Legal op) :
    ((∀ i, s.step op ≠ .error (.devicesIndex i)) ∧ s.RefusesWhenFull op) ↔
      (s.IndexesEnd op → s.world.reg.iNewDev < 8) := by
  have hiff := step_devicesIndex (regInv_reaches hw hs) hl
  have hle := s.world.reg.le
  constructor
  · rintro ⟨hsafe, -⟩ hend
    by_contra hnot
    obtain ⟨i, hf⟩ := hiff.2 ⟨hend, by omega⟩
    exact hsafe i hf
  · intro hroom
    refine ⟨?_, ?_⟩
    · intro i hf
      obtain ⟨hend, h8⟩ := hiff.1 ⟨i, hf⟩
      have := hroom hend
      omega
    · cases op with
      | openDev sys slot =>
        intro hfound h8
        have := hroom hfound
        omega
      | closeDev | getBars | unload => trivial

/-- After Opens and Closes of which some failed, the next Open takes the last
entry of the array. -/
theorem registry_indices_last : ∃ s, Session.Reachable World.boot s ∧
    s.world.reg.iNewDev = 7 ∧ s.live.length = 6 ∧
    (∀ i, s.step (.opens 7 112) ≠ .error (.devicesIndex i)) ∧
      s.RefusesWhenFull (.opens 7 112) := by
  obtain ⟨s, hs, h7, hlive⟩ : ∃ s, Session.Reachable World.boot s ∧
      s.world.reg.iNewDev = 7 ∧ s.live.length = 6 :=
    exists_reach_of_run [.opens 1 16, .opens 2 32, .opens 3 48, .openFails 4 64, .closes 48 15,
      .opens 3 48, .opens 4 64, .opensBar 5 80, .closeFails 80 32, .openFails 6 96,
      .opens 6 96] (by decide)
  exact ⟨s, hs, h7, hlive, (registry_indices World.boot_initial hs (by trivial)).2
    fun _ => by omega⟩

/-- Eight devices are open and a ninth is opened. -/
theorem registry_overrun : ∃ s, Session.Reachable World.boot s ∧ s.live.length = 8 ∧
    s.step (.opens 9 144) = .error (.devicesIndex 8) := by
  obtain ⟨s, hs, hlive, hfault⟩ : ∃ s, Session.Reachable World.boot s ∧ s.live.length = 8 ∧
      faultIn (s.step (.opens 9 144)) = some (.devicesIndex 8) :=
    exists_reach_of_run [.opens 1 16, .opens 2 32, .opens 3 48, .opens 4 64, .opens 5 80,
      .opens 6 96, .opens 7 112, .opens 8 128] (by decide)
  exact ⟨s, hs, hlive, faultIn_eq_some.1 hfault⟩

/-! ## Losing a slot -/

/-- A Close that completes finds a slot to spare, or null past the range. -/
def Session.RegainsSlot (s : Session) : Op → Prop
  | .closeDev munmap h => Releases munmap h.addr s.world →
      s.world.reg.iNewDev < s.live.length ∨
        s.world.reg.devices[s.world.reg.iNewDev]? = some 0
  | _ => True

instance (s : Session) (op : Op) : Decidable (s.RegainsSlot op) :=
  match op with
  | .closeDev munmap h => inferInstanceAs (Decidable (Releases munmap h.addr s.world →
      s.world.reg.iNewDev < s.live.length ∨
        s.world.reg.devices[s.world.reg.iNewDev]? = some 0))
  | .openDev .. => inferInstanceAs (Decidable True)
  | .getBars .. => inferInstanceAs (Decidable True)
  | .unload => inferInstanceAs (Decidable True)

/-- No more slots are in use than devices are live. -/
structure Session.Slots (s : Session) : Prop where
  used : s.world.reg.iNewDev ≤ s.live.length
  live : s.live.length ≤ s.peak

/-- The exact condition for one Close, where no slot is lost yet. -/
theorem regainsSlot_iff {s : Session} {h : Handle} {munmap : Fin 6 → Option Errno} {w' : World}
    (hi : RegInv s.live s.world) (hslots : s.Slots) (hh : h ∈ s.live)
    (hc : pciDeviceClose munmap h.addr s.world = .ok (cronoSuccess, w')) :
    s.RegainsSlot (.closeDev munmap h) ↔ w'.reg.iNewDev ≤ (s.live.erase h).length := by
  obtain ⟨d, hd⟩ := hi.device h hh
  have hends := pciDeviceClose_ends munmap hd hi.distinct
  rw [hc] at hends
  have hpos : 0 < s.live.length := List.length_pos_of_mem hh
  have hused := hslots.used
  rw [List.length_erase_of_mem hh]
  simp only [Session.RegainsSlot]
  cases hends with
  | kept _ hret => exact absurd rfl hret
  | released hrel hdone =>
    have hle := hdone.shrunk.le
    constructor
    · intro hg
      rcases hg hrel with hspare | hnull
      · omega
      · by_cases hzero : s.world.reg.iNewDev = 0
        · omega
        · have := hdone.moves hzero hnull
          omega
    · intro hregained _
      by_contra hnot
      rw [not_or] at hnot
      have := hdone.stays hnot.2
      omega

theorem slots_step {s s' : Session} {op : Op} (hi : RegInv s.live s.world) (hslots : s.Slots)
    (hl : s.Legal op) (hg : s.RegainsSlot op) (hs : s.step op = .ok s') : s'.Slots := by
  obtain ⟨hused, hlive⟩ := hslots
  cases op with
  | openDev sys slot =>
    cases step_openDev hs with
    | nothing => exact ⟨hused, by simp⟩
    | dropped hdrop => exact ⟨by simpa [hdrop.iNewDev] using hused, by simp⟩
    | opened hv hopened => exact ⟨by simpa [hopened.iNewDev] using hused, by simp⟩
  | closeDev munmap h =>
    obtain ⟨ret, w, hc, ⟨hret, rfl⟩ | ⟨hret, rfl⟩⟩ := step_closeDev hs
    · rw [hret] at hc
      refine ⟨(regainsSlot_iff hi ⟨hused, hlive⟩ hl hc).1 hg, ?_⟩
      exact Nat.le_trans (List.erase_sublist.length_le) hlive
    · obtain ⟨d, hd⟩ := hi.device h hl
      have hends := pciDeviceClose_ends munmap hd hi.distinct
      rw [hc] at hends
      cases hends with
      | kept _ _ hreg => exact ⟨by simpa [hreg] using hused, hlive⟩
      | released => exact absurd rfl hret
  | getBars sys h =>
    obtain ⟨d, hd⟩ := hi.device h hl
    obtain ⟨w, rfl, rfl | ⟨ret, hends⟩⟩ := step_getBars hd hs
    · exact ⟨hused, hlive⟩
    · obtain ⟨bars, hret⟩ := hends.retabled hd
      exact ⟨by simpa [hret.reg] using hused, hlive⟩
  | unload =>
    obtain ⟨as, w, -, hzero, rfl⟩ := step_unload hi hs
    exact ⟨by simp [hzero], by simp⟩

/-- In every run whose Closes meet `RegainsSlot`, no more slots are in use than
devices are live, so fewer than eight live devices leave a slot to open another.
The next Close that succeeds keeps this up exactly when it meets it too. -/
theorem slots_recycled {w : World} {s : Session} (hw : w.Initial)
    (hs : Session.Reaches Session.RegainsSlot w s) :
    s.world.reg.iNewDev ≤ s.live.length ∧ s.world.reg.iNewDev ≤ s.peak ∧
    (s.live.length < 8 → ∀ sys slot i, s.step (.openDev sys slot) ≠ .error (.devicesIndex i)) ∧
    ∀ h ∈ s.live, ∀ munmap w',
      pciDeviceClose munmap h.addr s.world = .ok (cronoSuccess, w') →
      (s.RegainsSlot (.closeDev munmap h) ↔ w'.reg.iNewDev ≤ (s.live.erase h).length) := by
  have hi := regInv_reaches hw hs
  have hslots : s.Slots := Reach.invariant_of
    ⟨(congrArg Registry.iNewDev hw).le, Nat.zero_le _⟩
    (fun _ ht => regInv_reaches hw ht)
    (fun _ _ _ hi hslots hg hstep => slots_step hi hslots hg.1 hg.2 hstep) hs
  refine ⟨hslots.used, Nat.le_trans hslots.used hslots.live, ?_,
    fun h hh munmap w' hc => regainsSlot_iff hi hslots hh hc⟩
  intro hlt sys slot i hf
  obtain ⟨-, h8⟩ := (step_devicesIndex hi (by trivial)).1 ⟨i, hf⟩
  have := hslots.used
  omega

/-- Opening and closing one device again and again uses one slot. -/
theorem slots_recycled_once : ∃ s, Session.Reaches Session.RegainsSlot World.boot s ∧
    s.closed.map Handle.addr = [16, 16, 16] ∧ s.world.reg.iNewDev ≤ s.peak ∧
    s.world.reg.iNewDev ≤ s.live.length := by
  obtain ⟨s, hs, hclosed⟩ : ∃ s, Session.Reaches Session.RegainsSlot World.boot s ∧
      s.closed.map Handle.addr = [16, 16, 16] :=
    exists_reach_of_run [.opens 1 16, .closes 16 5, .opens 1 16, .closes 16 10, .opens 1 16,
      .closes 16 15] (by decide)
  have h := slots_recycled World.boot_initial hs
  exact ⟨s, hs, hclosed, h.2.1, h.1⟩

/-- A failed Open before each Close: with two devices open or being opened at a
time, three slots are in use after two rounds. -/
theorem slots_leak : ∃ s, Session.Reachable World.boot s ∧
    s.peak = 2 ∧ s.world.reg.iNewDev = 3 :=
  exists_reach_of_run [.opens 1 16, .openFails 2 32, .closes 16 5, .opens 1 16,
    .openFails 2 32, .closes 16 12, .opens 1 16] (by decide)

end CronoPci
