import CronoPci.Verify.Session

/-!
# The registry of open devices

`RegInv` ties `devices[0..iNewDev)` to the handles of the caller: every
non-null entry is the device of one live handle, in one place, and every live
handle has a block. It holds in every reachable session, whatever fails, and
it makes both ways of releasing a device free of double frees.

The converse, that every live handle is in range, is not part of it: the shrink
loop may drop one.
-/

namespace CronoPci

open Posix Trans

/-! ## Entries in range -/

namespace Registry

/-- Every non-null entry in the range of `r'` is one of `r`, in the same place. -/
def Within (r' r : Registry) : Prop :=
  ∀ k a, k < r'.iNewDev → r'.devices[k]? = some a → a ≠ 0 →
    k < r.iNewDev ∧ r.devices[k]? = some a

theorem Within.refl (r : Registry) : Within r r := fun _ _ hk ha _ => ⟨hk, ha⟩

theorem Within.trans {r r' r'' : Registry} (h : Within r'' r') (h' : Within r' r) :
    Within r'' r := fun k a hk ha h0 =>
  let ⟨hk', ha'⟩ := h k a hk ha h0
  h' k a hk' ha' h0

theorem Within.distinct {r r' : Registry} (h : Within r' r) (hr : r.Distinct) : r'.Distinct := by
  intro i j a hi hj hia hja h0
  obtain ⟨hi', hia'⟩ := h i a hi hia h0
  obtain ⟨hj', hja'⟩ := h j a hj hja h0
  exact hr i j a hi' hj' hia' hja' h0

theorem Within.holds {r r' : Registry} (h : Within r' r) {a : Addr} (h0 : a ≠ 0)
    (ha : r'.Holds a) : r.Holds a := by
  obtain ⟨i, hi, hia⟩ := ha
  exact ⟨i, h i a hi hia h0⟩

end Registry

theorem Dropped.within {p : Addr} {w w' : World} (h : Dropped p w w') :
    w'.reg.Within w.reg := by
  intro k a hk ha _
  rw [h.iNewDev] at hk
  rw [h.devices, if_neg (by omega)] at ha
  exact ⟨hk, ha⟩

theorem Freed.within {p : Addr} {i : Nat} {space : Space} {w w' : World}
    (h : Freed p i space w w') : w'.reg.Within w.reg := by
  intro k a hk ha h0
  rw [h.iNewDev] at hk
  rw [h.devices] at ha
  split at ha
  · cases ha
    exact absurd rfl h0
  · exact ⟨hk, ha⟩

theorem ShrunkTo.within {w w' : World} (h : ShrunkTo w w') : w'.reg.Within w.reg := by
  intro k a hk ha _
  rw [h.devices] at ha
  exact ⟨Nat.lt_of_lt_of_le hk h.shrunk.le, ha⟩

/-- Once entry `i` is cleared, the address it held is in range no more. -/
theorem Freed.not_holds {p : Addr} {i : Nat} {space : Space} {w w' : World}
    (h : Freed p i space w w') (hdist : w.reg.Distinct) (hi : i < w.reg.iNewDev)
    (hp : w.reg.devices[i]? = some p) (h0 : p ≠ 0) : ¬w'.reg.Holds p := by
  rintro ⟨k, hk, hkp⟩
  obtain ⟨hk', hkp'⟩ := h.within k p hk hkp h0
  have hki : k = i := hdist k i p hk' hi hkp' hp h0
  rw [h.devices, if_pos hki, Option.some.injEq] at hkp
  exact h0 hkp.symm

/-! ## The unload hook -/

/-- The process after the blocks `as` are freed, each once. -/
structure FreedAll (as : List Addr) (w w' : World) : Prop where
  nodup : as.Nodup
  get : ∀ a, w'.heap.get a = if a ∈ as then none else w.heap.get a
  frees : w'.heap.frees = as ++ w.heap.frees
  fds : w'.fds = w.fds
  dirs : w'.dirs = w.dirs
  space : w'.space = w.space
  kernel : w'.kernel = w.kernel
  mem : w'.mem = w.mem

/-- An index of a range is the first one or one of the rest. -/
theorem exists_range_succ {P : Nat → Prop} {i n : Nat} :
    (∃ k, i ≤ k ∧ k < i + (n + 1) ∧ P k) ↔ P i ∨ ∃ k, i + 1 ≤ k ∧ k < i + 1 + n ∧ P k := by
  constructor
  · intro h
    obtain ⟨k, hk, hk', hp⟩ := h
    rcases Nat.eq_or_lt_of_le hk with rfl | hk
    · exact Or.inl hp
    · exact Or.inr ⟨k, hk, by omega, hp⟩
  · intro h
    rcases h with hp | ⟨k, hk, hk', hp⟩
    · exact ⟨i, Nat.le_refl _, by omega, hp⟩
    · exact ⟨k, by omega, by omega, hp⟩

/-- The loop frees the non-null entries, each once. -/
theorem freeDevicesMemLoop_frees {n iDev : Nat} {w : World} (h8 : iDev + n ≤ 8)
    (hblock : ∀ k a, iDev ≤ k → k < iDev + n → w.reg.devices[k]? = some a → a ≠ 0 →
      (w.heap.get a).isSome)
    (hdist : ∀ j k a, iDev ≤ j → j < k → k < iDev + n → w.reg.devices[j]? = some a →
      w.reg.devices[k]? = some a → a = 0) :
    ∃ as w', freeDevicesMemLoop n iDev w = .ok w' ∧ FreedAll as w w' ∧
      ∀ a, a ∈ as ↔ a ≠ 0 ∧ ∃ k, iDev ≤ k ∧ k < iDev + n ∧ w.reg.devices[k]? = some a := by
  induction n generalizing iDev w with
  | zero =>
    refine ⟨[], w, rfl, ⟨List.nodup_nil, fun a => by simp, rfl, rfl, rfl, rfl, rfl, rfl⟩,
      ?_⟩
    intro a
    simp only [List.not_mem_nil, Nat.add_zero, false_iff, not_and, not_exists]
    omega
  | succ n ih =>
    have hlt : iDev < 8 := by omega
    have hget : w.reg.devices[iDev]? = some w.reg.devices[iDev] := Vector.getElem?_eq_getElem hlt
    generalize hp : w.reg.devices[iDev] = p at hget
    simp only [freeDevicesMemLoop, hlt, ↓reduceDIte, hp]
    by_cases h0 : p = 0
    · obtain ⟨as, w', hloop, hfreed, hmem⟩ := ih (show iDev + 1 + n ≤ 8 by omega)
        (fun k a hk hk' => hblock k a (by omega) (by omega))
        (fun j k a hj hjk hk => hdist j k a (by omega) hjk (by omega))
      refine ⟨as, w', by rw [if_neg (not_not.2 h0), hloop], hfreed, ?_⟩
      intro a
      rw [hmem, exists_range_succ, hget]
      refine and_congr_right fun ha => ⟨Or.inr, ?_⟩
      intro h
      rcases h with he | h
      · exact absurd ((Option.some.inj he).symm.trans h0) ha
      · exact h
    -- entry `iDev` is freed and cleared; the later entries hold other addresses
    have hother (k : Nat) (a : Addr) (hk : iDev + 1 ≤ k) (hk' : k < iDev + 1 + n)
        (hka : w.reg.devices[k]? = some a) : a ≠ p := by
      intro he
      subst he
      exact h0 (hdist iDev k a (Nat.le_refl _) hk (by omega) hget hka)
    obtain ⟨heap, hfree⟩ := Heap.exists_free (hblock iDev p (Nat.le_refl _) (by omega) hget h0)
    obtain ⟨-, hheap, hfrees⟩ := Heap.free_eq_some.1 hfree
    have hkeep (k : Nat) (hk : iDev + 1 ≤ k) :
        (w.reg.devices.set iDev 0)[k]? = w.reg.devices[k]? := by
      rw [Vector.getElem?_set, if_neg (by omega)]
    obtain ⟨as, w', hloop, hfreed, hmem⟩ := ih
      (w := { w with heap, reg := { w.reg with devices := w.reg.devices.set iDev 0 } })
      (show iDev + 1 + n ≤ 8 by omega)
      (fun k a hk hk' hka ha => by
        simp only at hka ⊢
        rw [hkeep k hk] at hka
        rw [hheap, Function.update_of_ne (hother k a hk hk' hka)]
        exact hblock k a (by omega) (by omega) hka ha)
      (fun j k a hj hjk hk hja hka => by
        simp only [hkeep j hj, hkeep k (by omega)] at hja hka
        exact hdist j k a (by omega) hjk (by omega) hja hka)
    have hmem' (a : Addr) : a ∈ as ↔
        a ≠ 0 ∧ ∃ k, iDev + 1 ≤ k ∧ k < iDev + 1 + n ∧ w.reg.devices[k]? = some a := by
      rw [hmem]
      refine and_congr_right fun _ => exists_congr fun k => and_congr_right fun hk => ?_
      simp only [hkeep k hk]
    have hpas : p ∉ as := fun hpa => by
      obtain ⟨-, k, hk, hk', hkp⟩ := (hmem' p).1 hpa
      exact hother k p hk hk' hkp rfl
    refine ⟨as ++ [p], w', ?_, ⟨?_, ?_, ?_, hfreed.fds, hfreed.dirs, hfreed.space,
      hfreed.kernel, hfreed.mem⟩, ?_⟩
    · simp only [ne_eq, h0, not_false_eq_true, ↓reduceIte, World.free, hfree, bind, Except.bind]
      exact hloop
    · rw [List.nodup_append]
      refine ⟨hfreed.nodup, List.nodup_singleton p, ?_⟩
      intro a ha b hb
      rw [List.mem_singleton.1 hb]
      intro he
      subst he
      exact hpas ha
    · intro a
      rw [hfreed.get]
      simp only [hheap, List.mem_append, List.mem_singleton]
      by_cases hap : a = p
      · simp [hap]
      · simp [hap]
    · simp [hfreed.frees, hfrees]
    · intro a
      rw [List.mem_append, List.mem_singleton, hmem', exists_range_succ, hget, Option.some.injEq]
      constructor
      · intro h
        rcases h with ⟨ha, hrest⟩ | he
        · exact ⟨ha, Or.inr hrest⟩
        · exact ⟨he ▸ h0, Or.inl he.symm⟩
      · intro h
        obtain ⟨ha, he | hrest⟩ := h
        · exact Or.inr he.symm
        · exact Or.inl ⟨ha, hrest⟩

/-- The unload hook frees each non-null entry in range once and empties the
range. -/
theorem onUnload_frees {w : World} (hdist : w.reg.Distinct)
    (hblock : ∀ a, a ≠ 0 → w.reg.Holds a → (w.heap.get a).isSome) :
    ∃ as w', onUnload w = .ok w' ∧ FreedAll as w w' ∧ w'.reg.iNewDev = 0 ∧
      ∀ a, a ∈ as ↔ a ≠ 0 ∧ w.reg.Holds a := by
  have h8 : 0 + w.reg.iNewDev ≤ 8 := by simpa using w.reg.le
  obtain ⟨as, w', hloop, hfreed, hmem⟩ := freeDevicesMemLoop_frees h8
    (fun k a _ hk hka h0 => hblock a h0 ⟨k, by omega, hka⟩)
    (fun j k a _ hjk hk hja hka => by
      by_contra h0
      have := hdist j k a (by omega) (by omega) hja hka h0
      omega)
  refine ⟨as, { w' with reg := w'.reg.reset }, ?_,
    ⟨hfreed.nodup, hfreed.get, hfreed.frees, hfreed.fds, hfreed.dirs, hfreed.space,
      hfreed.kernel, hfreed.mem⟩, rfl, ?_⟩
  · simp only [onUnload, freeDevicesMem, hloop, bind, Except.bind, pure, Except.pure]
  · intro a
    simp only [hmem, Nat.zero_le, true_and, Nat.zero_add]
    rfl

/-! ## The invariant -/

/-- The process after the table of the device `d` at `p`, at most, has changed;
descriptors and mappings may have changed too. -/
structure Retabled (p : Addr) (d : KernelDevice) (bars : BarTable) (w w' : World) : Prop where
  get : w'.heap.get = Function.update w.heap.get p (some (.device { d with bars }))
  frees : w'.heap.frees = w.heap.frees
  reg : w'.reg = w.reg
  dirs : w'.dirs = w.dirs
  kernel : w'.kernel = w.kernel
  mem : w'.mem = w.mem

theorem Retabled.setDevice {p : Addr} {d : KernelDevice} {w w' : World}
    (hd : w.device? p = some d) (bars : BarTable) (hheap : w'.heap = w.heap)
    (hreg : w'.reg = w.reg) (hdirs : w'.dirs = w.dirs) (hkernel : w'.kernel = w.kernel)
    (hmem : w'.mem = w.mem) : Retabled p d bars w (w'.setDevice p { d with bars }) := by
  have hblock : (w'.heap.get p).isSome := by
    rw [hheap, World.device?_eq_some.1 hd]
    rfl
  refine ⟨?_, ?_, hreg, hdirs, hkernel, hmem⟩
  · simp only [World.setDevice]
    rw [Heap.get_set hblock, hheap]
  · simp only [World.setDevice, Heap.frees_set, hheap]

/-- A world with the same heap counts as one where the table was not touched. -/
theorem Retabled.same {p : Addr} {d : KernelDevice} {w w' : World} (hd : w.device? p = some d)
    (hheap : w'.heap = w.heap) (hreg : w'.reg = w.reg) (hdirs : w'.dirs = w.dirs)
    (hkernel : w'.kernel = w.kernel) (hmem : w'.mem = w.mem) : Retabled p d d.bars w w' := by
  refine ⟨?_, by rw [hheap], hreg, hdirs, hkernel, hmem⟩
  rw [hheap, ← World.device?_eq_some.1 hd, Function.update_eq_self]

theorem FillEnds.retabled {sys : BarSys} {p : Addr} {d : KernelDevice} {w w' : World} {ret : Code}
    (hd : w.device? p = some d) (h : FillEnds sys p d w ret w') :
    ∃ bars, Retabled p d bars w w' := by
  cases h with
  | already => exact ⟨_, .same hd rfl rfl rfl rfl rfl⟩
  | failed => exact ⟨_, .same hd rfl rfl rfl rfl rfl⟩
  | @filled _ _ bars => exact ⟨bars, .setDevice hd bars rfl rfl rfl rfl rfl⟩

theorem FillEnds.fds {sys : BarSys} {p : Addr} {d : KernelDevice} {w w' : World} {ret : Code}
    (h : FillEnds sys p d w ret w') : FdTable.Balanced w.fds w'.fds := by
  cases h with
  | already => exact .refl _
  | failed _ _ _ _ _ hfds => exact hfds
  | filled _ _ hfds => exact hfds

/-- What ties the registry to the handles `live`. -/
structure RegInv (live : List Handle) (w : World) : Prop where
  /-- No address stands in range twice. -/
  distinct : w.reg.Distinct
  /-- What stands in range belongs to a live handle. -/
  registered : ∀ a, a ≠ 0 → w.reg.Holds a → ∃ h ∈ live, h.addr = a
  /-- A live handle has a block of its own. -/
  device : ∀ h ∈ live, ∃ d, w.device? h.addr = some d
  nodup : (live.map Handle.addr).Nodup

namespace RegInv

variable {live : List Handle} {w w' : World}

theorem ne_zero (hi : RegInv live w) {h : Handle} (hh : h ∈ live) : h.addr ≠ 0 := by
  obtain ⟨d, hd⟩ := hi.device h hh
  exact Heap.ne_zero_of_get (World.device?_eq_some.1 hd)

theorem addr_inj (hi : RegInv live w) {h h' : Handle} (hh : h ∈ live) (hh' : h' ∈ live)
    (he : h.addr = h'.addr) : h = h' :=
  List.inj_on_of_nodup_map hi.nodup hh hh' he

theorem addr_ne (hi : RegInv live w) {h h' : Handle} (hh : h ∈ live) (hh' : h' ∈ live)
    (hne : h' ≠ h) : h'.addr ≠ h.addr := fun he => hne (hi.addr_inj hh' hh he)

/-- A new block is none of a live handle. -/
theorem ne_fresh (hi : RegInv live w) {p : Addr} (hp : w.heap.get p = none) {h : Handle}
    (hh : h ∈ live) : h.addr ≠ p := by
  intro he
  subst he
  obtain ⟨d, hd⟩ := hi.device h hh
  rw [World.device?_eq_some, hp] at hd
  cases hd

theorem mem_erase (hi : RegInv live w) {h h' : Handle} :
    h' ∈ live.erase h ↔ h' ≠ h ∧ h' ∈ live :=
  (List.Nodup.of_map _ hi.nodup).mem_erase_iff

/-- What stands in range is an allocated block. -/
theorem allocated (hi : RegInv live w) {a : Addr} (h0 : a ≠ 0) (ha : w.reg.Holds a) :
    (w.heap.get a).isSome := by
  obtain ⟨h, hh, rfl⟩ := hi.registered a h0 ha
  obtain ⟨d, hd⟩ := hi.device h hh
  rw [World.device?_eq_some.1 hd]
  rfl

/-- Entries may go, blocks of live handles stay. -/
theorem frame (hi : RegInv live w) (hreg : w'.reg.Within w.reg)
    (hdev : ∀ h ∈ live, ∃ d, w'.device? h.addr = some d) : RegInv live w' where
  distinct := hreg.distinct hi.distinct
  registered a h0 ha := hi.registered a h0 (hreg.holds h0 ha)
  device := hdev
  nodup := hi.nodup

theorem dropped (hi : RegInv live w) {p : Addr} (h : Dropped p w w') : RegInv live w' :=
  hi.frame h.within fun h' hh' => by
    rw [World.device?_congr (congrFun h.get _)]
    exact hi.device h' hh'

theorem retabled (hi : RegInv live w) {p : Addr} {d : KernelDevice} {bars : BarTable}
    (h : Retabled p d bars w w') : RegInv live w' := by
  refine hi.frame (h.reg ▸ .refl _) ?_
  intro h' hh'
  rw [World.device?_update h.get]
  split
  · exact ⟨_, rfl⟩
  · exact hi.device h' hh'

/-- A handle that leaves range takes its own block along at most. -/
theorem remove (hi : RegInv live w) {h : Handle} (hh : h ∈ live) (hreg : w'.reg.Within w.reg)
    (hout : ¬w'.reg.Holds h.addr) (hget : ∀ a, a ≠ h.addr → w'.heap.get a = w.heap.get a) :
    RegInv (live.erase h) w' where
  distinct := hreg.distinct hi.distinct
  registered a h0 ha := by
    obtain ⟨h', hh', rfl⟩ := hi.registered a h0 (hreg.holds h0 ha)
    refine ⟨h', hi.mem_erase.2 ⟨?_, hh'⟩, rfl⟩
    intro he
    subst he
    exact hout ha
  device h' hh' := by
    obtain ⟨hne, hh'⟩ := hi.mem_erase.1 hh'
    rw [World.device?_congr (hget _ (hi.addr_ne hh hh' hne))]
    exact hi.device h' hh'
  nodup := hi.nodup.sublist (List.erase_sublist.map _)

/-- A new device stands in the entry at `iNewDev`. -/
theorem opened (hi : RegInv live w) {sys : OpenSys} {slot : PciSlot} {v : SlotVars}
    {d : KernelDevice} (hv : OpensMisc sys slot w v) (h : Opened sys slot v d w w') (f : Nat) :
    RegInv (⟨sys.malloc, f⟩ :: live) w' := by
  have hfresh {h' : Handle} (hh' : h' ∈ live) := hi.ne_fresh hv.fresh hh'
  -- an entry in range is the new one or one of before, and these differ
  have hentry {k : Nat} {a : Addr} (hk : k < w'.reg.iNewDev) (ha : w'.reg.devices[k]? = some a) :
      k = w.reg.iNewDev ∧ a = sys.malloc ∨ k < w.reg.iNewDev ∧ w.reg.devices[k]? = some a := by
    rw [h.iNewDev] at hk
    rw [h.devices] at ha
    split at ha
    · next hk' => exact Or.inl ⟨hk', (Option.some.inj ha).symm⟩
    · exact Or.inr ⟨by omega, ha⟩
  have hnew {a : Addr} {k : Nat} (h0 : a ≠ 0) (hk : k < w.reg.iNewDev)
      (ha : w.reg.devices[k]? = some a) : a ≠ sys.malloc := by
    obtain ⟨h', hh', rfl⟩ := hi.registered a h0 ⟨k, hk, ha⟩
    exact hfresh hh'
  refine ⟨?_, ?_, ?_, ?_⟩
  · intro i j a hi' hj' hia hja h0
    rcases hentry hi' hia with ⟨hin, ha⟩ | ⟨hin, hia⟩ <;>
      rcases hentry hj' hja with ⟨hjn, ha'⟩ | ⟨hjn, hja⟩
    · rw [hin, hjn]
    · exact absurd ha (hnew h0 hjn hja)
    · exact absurd ha' (hnew h0 hin hia)
    · exact hi.distinct i j a hin hjn hia hja h0
  · rintro a h0 ⟨k, hk, ha⟩
    rcases hentry hk ha with ⟨-, rfl⟩ | ⟨hk, ha⟩
    · exact ⟨_, List.mem_cons_self, rfl⟩
    · obtain ⟨h', hh', rfl⟩ := hi.registered a h0 ⟨k, hk, ha⟩
      exact ⟨h', List.mem_cons_of_mem _ hh', rfl⟩
  · intro h' hh'
    rw [World.device?_update h.get]
    rcases List.mem_cons.1 hh' with rfl | hh'
    · exact ⟨d, if_pos rfl⟩
    · rw [if_neg (hfresh hh')]
      exact hi.device h' hh'
  · simp only [List.map_cons, List.nodup_cons, List.mem_map, not_exists, not_and]
    exact ⟨fun h' hh' => hfresh hh', hi.nodup⟩

/-- The unload hook leaves no handle. -/
theorem unloaded (h : w.reg.iNewDev = 0) : RegInv [] w where
  distinct i j a hi := by omega
  registered := by rintro a - ⟨i, hi, -⟩; omega
  device := by simp
  nodup := List.nodup_nil

end RegInv

theorem World.Initial.regInv {w : World} (h : w.Initial) : RegInv [] w :=
  .unloaded (congrArg Registry.iNewDev h)

section Close

variable {munmap : Fin 6 → Option Errno} {p : Addr} {d : KernelDevice} {w w' : World} {ret : Code}

/-- Close leaves all blocks but the device's own as they are. -/
theorem CloseResult.get_ne (h : CloseResult munmap p d w (.ok (ret, w'))) {a : Addr}
    (ha : a ≠ p) : w'.heap.get a = w.heap.get a := by
  cases h with
  | invalid => rfl
  | badFd => rfl
  | closed _ _ hr =>
    cases hr with
    | unmapFails => simp only [World.setDevice, Heap.get_set_ne ha, closeMisc]
    | released _ _ _ _ hfreed hshrunk =>
      rw [hshrunk.heap, hfreed.get, Function.update_of_ne ha]
      rfl
    | absent _ _ hshrunk =>
      rw [hshrunk.heap]
      rfl

theorem CloseResult.frees (h : CloseResult munmap p d w (.ok (ret, w'))) :
    w'.heap.frees = w.heap.frees ∨ w'.heap.frees = p :: w.heap.frees := by
  cases h with
  | invalid => exact Or.inl rfl
  | badFd => exact Or.inl rfl
  | closed _ _ hr =>
    cases hr with
    | unmapFails =>
      left
      simp only [World.setDevice, Heap.frees_set, closeMisc]
    | released _ _ _ _ hfreed hshrunk =>
      right
      rw [hshrunk.heap, hfreed.frees]
      rfl
    | absent _ _ hshrunk =>
      left
      rw [hshrunk.heap]
      rfl

/-- A Close that fails leaves the device where it is. -/
theorem CloseResult.retabled (hd : w.device? p = some d)
    (h : CloseResult munmap p d w (.ok (ret, w'))) (hret : ret ≠ cronoSuccess) :
    ∃ bars, Retabled p d bars w w' := by
  cases h with
  | invalid => exact ⟨_, .same hd rfl rfl rfl rfl rfl⟩
  | badFd => exact ⟨_, .same hd rfl rfl rfl rfl rfl⟩
  | closed _ _ hr =>
    cases hr with
    | @unmapFails _ bars => exact ⟨bars, .setDevice hd bars rfl rfl rfl rfl rfl⟩
    | released => exact absurd rfl hret
    | absent => exact absurd rfl hret

end Close

/-- How a Close of a live handle that returns leaves the registry. -/
theorem RegInv.closed {live : List Handle} {w w' : World} {munmap : Fin 6 → Option Errno}
    {h : Handle} {d : KernelDevice} {ret : Code} (hi : RegInv live w) (hh : h ∈ live)
    (hd : w.device? h.addr = some d) (hr : CloseResult munmap h.addr d w (.ok (ret, w'))) :
    (ret = cronoSuccess → RegInv (live.erase h) w') ∧
      (ret ≠ cronoSuccess → RegInv live w') := by
  have h0 := hi.ne_zero hh
  refine ⟨?_, ?_⟩
  · intro hret
    have hget := fun a (ha : a ≠ h.addr) => hr.get_ne ha
    cases hr with
    | invalid => exact absurd hret (by decide)
    | badFd => exact absurd hret (by decide)
    | closed hid hfd hr =>
      cases hr with
      | @unmapFails e => exact absurd hret e.ne_zero
      | released hroom hi' hp hun hfreed hshrunk =>
        refine hi.remove hh (hshrunk.within.trans hfreed.within) ?_ hget
        intro hhold
        exact hfreed.not_holds hi.distinct hi' hp h0 (hshrunk.within.holds h0 hhold)
      | absent hroom hp hshrunk =>
        exact hi.remove hh hshrunk.within (fun hhold => hp (hshrunk.within.holds h0 hhold)) hget
  · intro hret
    obtain ⟨bars, hbars⟩ := hr.retabled hd hret
    exact hi.retabled hbars

/-- The unload hook of a session frees the block of each device in range. -/
theorem RegInv.onUnload {live : List Handle} {w : World} (hi : RegInv live w) :
    ∃ as w', onUnload w = .ok w' ∧ FreedAll as w w' ∧ w'.reg.iNewDev = 0 ∧
      ∀ a, a ∈ as ↔ a ≠ 0 ∧ w.reg.Holds a :=
  onUnload_frees hi.distinct fun _ h0 ha => hi.allocated h0 ha

theorem step_unload {s s' : Session} (hi : RegInv s.live s.world) (hs : s.step .unload = .ok s') :
    ∃ as w, FreedAll as s.world w ∧ w.reg.iNewDev = 0 ∧ s' = { s with world := w, live := [] } := by
  obtain ⟨as, w, hw, hfreed, hzero, -⟩ := hi.onUnload
  simp only [Session.step, Session.unload, hw] at hs
  cases hs
  exact ⟨as, w, hfreed, hzero, rfl⟩

/-- Every call of a run keeps the invariant. -/
theorem regInv_step {s s' : Session} {op : Op} (hi : RegInv s.live s.world) (hl : s.Legal op)
    (hs : s.step op = .ok s') : RegInv s'.live s'.world := by
  cases op with
  | openDev sys slot =>
    cases step_openDev hs with
    | nothing => exact ⟨hi.distinct, hi.registered, hi.device, hi.nodup⟩
    | dropped hdrop => exact hi.dropped hdrop
    | opened hv hopened => exact hi.opened hv hopened _
  | closeDev munmap h =>
    obtain ⟨d, hd⟩ := hi.device h hl
    obtain ⟨ret, w, hc, hor⟩ := step_closeDev hs
    have hr := pciDeviceClose_result munmap hd hi.distinct
    rw [hc] at hr
    rcases hor with ⟨hret, rfl⟩ | ⟨hret, rfl⟩
    · exact (hi.closed hl hd hr).1 hret
    · exact (hi.closed hl hd hr).2 hret
  | getBars sys h =>
    obtain ⟨d, hd⟩ := hi.device h hl
    obtain ⟨w, rfl, rfl | ⟨ret, hends⟩⟩ := step_getBars hd hs
    · exact hi
    · obtain ⟨bars, hret⟩ := hends.retabled hd
      exact hi.retabled hret
  | unload =>
    obtain ⟨as, w, -, hzero, rfl⟩ := step_unload hi hs
    exact .unloaded hzero

theorem regInv_reaches {w : World} {s : Session} {G : Session → Op → Prop} (hw : w.Initial)
    (hs : Session.Reaches G w s) : RegInv s.live s.world :=
  Reach.invariant (I := fun s => RegInv s.live s.world) hw.regInv
    (fun _ _ _ hi hg ha => regInv_step hi hg.1 ha) hs

/-! ## No double free -/

/-- Describing the BARs of a live device faults on an overlong link alone. -/
theorem getBars_fault {s : Session} {sys : BarSys} {h : Handle} {d : KernelDevice} {f : Fault}
    (hd : s.world.device? h.addr = some d) (hs : s.step (.getBars sys h) = .error f) :
    ∃ i, f = .linkBuffer i := by
  simp only [Session.step, Session.getBars, getBarDescriptions, initHDevFunc_of_device hd] at hs
  by_cases hid : d.dwDeviceId = 0
  · simp only [hid, ↓reduceIte] at hs
    cases hs
  simp only [hid, ↓reduceIte, Option.isNone_some, Bool.false_eq_true, or_self, bind,
    Except.bind] at hs
  rcases fill_ends sys hd with ⟨-, -, i, herr⟩ | ⟨ret, w', hfill, hends⟩
  · rw [herr] at hs
    cases hs
    exact ⟨i, rfl⟩
  · obtain ⟨bars, hbars⟩ := hends.retabled hd
    have hd' : w'.device? h.addr = some { d with bars } := by
      rw [World.device?_update hbars.get, if_pos rfl]
    rw [hfill] at hs
    by_cases hret : ret = cronoSuccess
    · simp only [hret, ne_eq, not_true_eq_false, ↓reduceIte, World.derefDevice_eq_ok.2 hd'] at hs
      cases hs
    · simp only [hret, ne_eq, not_false_eq_true, ↓reduceIte] at hs
      cases hs

/-- A call on live handles faults in one of three ways, and never in `free`. -/
theorem step_fault {s : Session} {op : Op} {f : Fault} (hi : RegInv s.live s.world)
    (hl : s.Legal op) (hs : s.step op = .error f) :
    f = .nullDeref ∨ f = .devicesIndex 8 ∧ s.world.reg.iNewDev = 8 ∨ ∃ i, f = .linkBuffer i := by
  cases op with
  | openDev sys slot =>
    obtain ⟨r, hr, he⟩ := pciDeviceOpen_result sys 0 slot s.world
    simp only [Session.step, Session.openDev, he] at hs
    cases r with
    | ok r => cases hs
    | error f' =>
      cases hs
      cases hr with
      | index hv hfull => exact Or.inr (Or.inl ⟨rfl, hfull⟩)
      | null => exact Or.inl rfl
      | link => exact Or.inr (Or.inr ⟨_, rfl⟩)
  | closeDev munmap h =>
    obtain ⟨d, hd⟩ := hi.device h hl
    have hr := pciDeviceClose_result munmap hd hi.distinct
    simp only [Session.step, Session.closeDev] at hs
    cases hc : pciDeviceClose munmap h.addr s.world with
    | ok r =>
      simp only [hc, bind, Except.bind] at hs
      split at hs <;> cases hs
    | error f' =>
      simp only [hc, bind, Except.bind, Except.error.injEq] at hs
      subst hs
      rw [hc] at hr
      cases hr with
      | closed hid hfd hr =>
        cases hr with
        | full h8 => exact Or.inr (Or.inl ⟨rfl, h8⟩)
  | getBars sys h =>
    obtain ⟨d, hd⟩ := hi.device h hl
    exact Or.inr (Or.inr (getBars_fault hd hs))
  | unload =>
    obtain ⟨as, w', hw', -⟩ := hi.onUnload
    simp only [Session.step, Session.unload, hw'] at hs
    cases hs

/-- A Close of a live device below the full registry returns, and frees the
device's block or nothing. -/
theorem RegInv.close_frees {live : List Handle} {w : World} {h : Handle} (hi : RegInv live w)
    (hh : h ∈ live) (hroom : w.reg.iNewDev < 8) (munmap : Fin 6 → Option Errno) :
    ∃ ret w', pciDeviceClose munmap h.addr w = .ok (ret, w') ∧
      (w'.heap.frees = w.heap.frees ∨ w'.heap.frees = h.addr :: w.heap.frees) ∧
      ∀ a, a ≠ h.addr → w'.heap.get a = w.heap.get a := by
  obtain ⟨d, hd⟩ := hi.device h hh
  have hr := pciDeviceClose_result munmap hd hi.distinct
  cases hc : pciDeviceClose munmap h.addr w with
  | error f =>
    rw [hc] at hr
    cases hr with
    | closed hid hfd hr =>
      cases hr with
      | full h8 => exact absurd (show w.reg.iNewDev = 8 from h8) (by omega)
  | ok r =>
    rw [hc] at hr
    exact ⟨r.1, r.2, rfl, hr.frees, fun a ha => hr.get_ne ha⟩

/-- In every reachable session the non-null entries in range are distinct
blocks of devices. No call frees a block that is not allocated; a Close frees
its own block at most, and the unload hook each block in range once. -/
theorem registry_frees_once {w : World} {s : Session} (hw : w.Initial)
    (hs : Session.Reachable w s) :
    s.world.reg.Distinct ∧
    (∀ a, a ≠ 0 → s.world.reg.Holds a → ∃ d, s.world.device? a = some d) ∧
    (∀ op, s.Legal op → ∀ a, s.step op ≠ .error (.badFree a)) ∧
    (∀ h ∈ s.live, s.world.reg.iNewDev < 8 → ∀ munmap, ∃ ret w',
      pciDeviceClose munmap h.addr s.world = .ok (ret, w') ∧
      (w'.heap.frees = s.world.heap.frees ∨ w'.heap.frees = h.addr :: s.world.heap.frees) ∧
      ∀ h' ∈ s.live, h' ≠ h → w'.heap.get h'.addr = s.world.heap.get h'.addr) ∧
    ∃ as w', onUnload s.world = .ok w' ∧ as.Nodup ∧ w'.heap.frees = as ++ s.world.heap.frees ∧
      ∀ a, a ∈ as ↔ a ≠ 0 ∧ s.world.reg.Holds a := by
  have hi := regInv_reaches hw hs
  refine ⟨hi.distinct, ?_, ?_, ?_, ?_⟩
  · intro a h0 ha
    obtain ⟨h, hh, rfl⟩ := hi.registered a h0 ha
    exact hi.device h hh
  · intro op hl a he
    rcases step_fault hi hl he with hf | ⟨hf, -⟩ | ⟨i, hf⟩ <;> cases hf
  · intro h hh hroom munmap
    obtain ⟨ret, w', hc, hfrees, hget⟩ := hi.close_frees hh hroom munmap
    exact ⟨ret, w', hc, hfrees, fun h' hh' hne => hget _ (hi.addr_ne hh hh' hne)⟩
  · obtain ⟨as, w', hw', hfreed, -, hmem⟩ := hi.onUnload
    exact ⟨as, w', hw', hfreed.nodup, hfreed.frees, hmem⟩

/-- Address 32 comes back from the allocator after a failed Open freed it. -/
theorem registry_frees_once_reused : ∃ s, Session.Reachable World.boot s ∧
    s.world.heap.frees = [32] ∧ s.live.map Handle.addr = [32, 16] ∧
    ∃ as w', onUnload s.world = .ok w' ∧ as.Nodup ∧ w'.heap.frees = as ++ [32] ∧
      ∀ a, a ∈ as ↔ a ≠ 0 ∧ s.world.reg.Holds a := by
  obtain ⟨s, hs, hfrees, hlive⟩ : ∃ s, Session.Reachable World.boot s ∧
      s.world.heap.frees = [32] ∧ s.live.map Handle.addr = [32, 16] :=
    exists_reach_of_run [.opens 1 16, .openFails 2 32, .opens 2 32] (by decide)
  have h := (registry_frees_once World.boot_initial hs).2.2.2.2
  rw [hfrees] at h
  exact ⟨s, hs, hfrees, hlive, h⟩

end CronoPci
