import CronoPci.Model.Device
import CronoPci.Trans.Sweep

/-!
# How releasing a device can end

The unmapping loop, the scan and the shrink loop of `freeDeviceMem`, each with
the one lemma that later proofs use: `unmapBars_effect`, `scan_absent` and
`scan_present`, `shrink_spec`. The unmapping loop is a sweep over the entries
with an address (`unmapBars_eq_sweep`). `freeDeviceMem_result` and
`pciDeviceClose_result` list how the calls end.
-/

namespace CronoPci

open Posix Trans

/-! ## Unmapping -/

namespace BarTable

theorem clearAddress_self (t : BarTable) (i : Fin 6) :
    (t.clearAddress i).barDescs.get i = { t.barDescs.get i with userAddress := 0 } :=
  Vector.getElem_set_self i.isLt

theorem clearAddress_ne (t : BarTable) {i j : Fin 6} (h : i ≠ j) :
    (t.clearAddress i).barDescs.get j = t.barDescs.get j :=
  Vector.getElem_set_ne i.isLt j.isLt fun he => h (Fin.ext he)

theorem mem_indices {t : BarTable} {j : Fin 6} : j ∈ t.indices ↔ (j : Nat) < t.barCount := by
  unfold indices
  rw [List.mem_take_iff_getElem]
  constructor
  · rintro ⟨i, hi, rfl⟩
    simp only [List.getElem_finRange, Fin.val_cast]
    omega
  · intro hj
    exact ⟨j, by simp [hj, j.2], by simp⟩

theorem nodup_indices (t : BarTable) : t.indices.Nodup :=
  (List.nodup_finRange 6).sublist (List.take_sublist ..)

end BarTable

/-- What unmapping some entries of a table does: an entry stays as it is, or
its address is zeroed and its region gone; no other region goes. -/
structure UnmapEffect (t : BarTable) (space : Space) (t' : BarTable) (space' : Space) : Prop where
  count : t'.barCount = t.barCount
  desc : ∀ j : Fin 6, t'.barDescs.get j = t.barDescs.get j ∨
    (t'.barDescs.get j = { t.barDescs.get j with userAddress := 0 } ∧
      ∀ m ∈ space'.maps, ¬(m.start = (t.barDescs.get j).userAddress ∧
        m.len = (t.barDescs.get j).length.toNat))
  sub : space'.maps ⊆ space.maps
  kept : ∀ m ∈ space.maps, m ∈ space'.maps ∨ ∃ j : Fin 6, (t.barDescs.get j).userAddress ≠ 0 ∧
    (t'.barDescs.get j).userAddress = 0 ∧ m.start = (t.barDescs.get j).userAddress ∧
      m.len = (t.barDescs.get j).length.toNat

theorem UnmapEffect.refl (t : BarTable) (space : Space) : UnmapEffect t space t space :=
  ⟨rfl, fun _ => Or.inl rfl, fun _ h => h, fun _ h => Or.inl h⟩

/-- One successful `munmap` before the rest of the loop. -/
theorem UnmapEffect.step {t t' : BarTable} {space space' : Space} {i : Fin 6}
    (hi : (t.barDescs.get i).userAddress ≠ 0)
    (h : UnmapEffect (t.clearAddress i)
      (space.munmap (t.barDescs.get i).userAddress (t.barDescs.get i).length.toNat) t' space') :
    UnmapEffect t space t' space' := by
  have hzero : (t'.barDescs.get i).userAddress = 0 := by
    rcases h.desc i with he | ⟨he, -⟩ <;> rw [he]
    rw [t.clearAddress_self]
  refine ⟨h.count, ?_, fun m hm => (AddressSpace.mem_munmap.1 (h.sub hm)).1,
    ?_⟩
  · intro j
    rcases eq_or_ne i j with rfl | hne
    · refine Or.inr ⟨?_, fun m hm => (AddressSpace.mem_munmap.1 (h.sub hm)).2⟩
      rcases h.desc i with he | ⟨he, -⟩ <;> rw [he, t.clearAddress_self]
    · have := h.desc j
      rwa [t.clearAddress_ne hne] at this
  · intro m hm
    by_cases hmi : m.start = (t.barDescs.get i).userAddress ∧
        m.len = (t.barDescs.get i).length.toNat
    · exact Or.inr ⟨i, hi, hzero, hmi⟩
    · rcases h.kept m (AddressSpace.mem_munmap.2 ⟨hm, hmi⟩) with hm' | ⟨j, hj, hj', hmj⟩
      · exact Or.inl hm'
      · rcases eq_or_ne i j with rfl | hne
        · rw [t.clearAddress_self] at hj
          exact absurd rfl hj
        · rw [t.clearAddress_ne hne] at hj hmj
          exact Or.inr ⟨j, hj, hj', hmj⟩

theorem unmapBars_effect (munmap : Fin 6 → Option Errno) (ibars : List (Fin 6)) (t : BarTable)
    (space : Space) : UnmapEffect t space (unmapBars munmap ibars t space).2.1
      (unmapBars munmap ibars t space).2.2 := by
  induction ibars generalizing t space with
  | nil => exact .refl t space
  | cons i ibars ih =>
    simp only [unmapBars]
    split
    · exact ih t space
    · next hi =>
      split
      · exact .refl t space
      · exact (ih _ _).step hi

/-- Every `munmap` that releasing the table calls for succeeds. -/
def UnmapsSucceed (munmap : Fin 6 → Option Errno) (t : BarTable) : Prop :=
  ∀ j : Fin 6, (j : Nat) < t.barCount → (t.barDescs.get j).userAddress ≠ 0 → munmap j = none

instance (munmap : Fin 6 → Option Errno) (t : BarTable) : Decidable (UnmapsSucceed munmap t) :=
  inferInstanceAs (Decidable (∀ j : Fin 6, (j : Nat) < t.barCount →
    (t.barDescs.get j).userAddress ≠ 0 → munmap j = none))

/-- Unmap the region of an entry and zero its address. -/
def unmapBar (s : BarTable × Space) (ibar : Fin 6) : BarTable × Space :=
  (s.1.clearAddress ibar,
    s.2.munmap (s.1.barDescs.get ibar).userAddress (s.1.barDescs.get ibar).length.toNat)

/-- The entry has an address, so its region is still to be unmapped. -/
def HasAddress (s : BarTable × Space) (ibar : Fin 6) : Prop :=
  (s.1.barDescs.get ibar).userAddress ≠ 0

instance (s : BarTable × Space) (ibar : Fin 6) : Decidable (HasAddress s ibar) :=
  inferInstanceAs (Decidable (¬_))

theorem unmapBars_eq_sweep (munmap : Fin 6 → Option Errno) (ibars : List (Fin 6)) (t : BarTable)
    (space : Space) :
    unmapBars munmap ibars t space = sweep HasAddress unmapBar munmap ibars (t, space) := by
  induction ibars generalizing t space with
  | nil => rfl
  | cons ibar ibars ih =>
    simp only [unmapBars, sweep]
    by_cases h : HasAddress (t, space) ibar
    · rw [if_neg h, if_pos h]
      cases munmap ibar with
      | some err => rfl
      | none => exact ih _ _
    · rw [if_pos (not_not.1 h), if_neg h]
      exact ih t space

theorem settles_unmapBar : Settles HasAddress unmapBar where
  self s ibar := by
    unfold HasAddress unmapBar
    rw [s.1.clearAddress_self]
    exact fun h => h rfl
  other s ibar j hne := by
    unfold HasAddress unmapBar
    rw [s.1.clearAddress_ne hne]

/-- The loop gets through exactly when no `munmap` fails. -/
theorem unmapBars_err_eq_none {munmap : Fin 6 → Option Errno} {ibars : List (Fin 6)}
    (hnd : ibars.Nodup) {t : BarTable} {space : Space} :
    (unmapBars munmap ibars t space).1 = none ↔
      ∀ j ∈ ibars, (t.barDescs.get j).userAddress ≠ 0 → munmap j = none := by
  rw [unmapBars_eq_sweep]
  exact sweep_eq_none_iff settles_unmapBar hnd

/-- A loop that gets through leaves no address. -/
theorem unmapBars_zero {munmap : Fin 6 → Option Errno} {ibars : List (Fin 6)} {t : BarTable}
    {space : Space} (h : (unmapBars munmap ibars t space).1 = none) :
    ∀ j ∈ ibars, ((unmapBars munmap ibars t space).2.1.barDescs.get j).userAddress = 0 := by
  rw [unmapBars_eq_sweep] at h ⊢
  intro j hj
  exact not_not.1 (not_pending_of_sweep settles_unmapBar h j hj)

/-! ## The scan -/

section Scan

variable {munmap : Fin 6 → Option Errno} {p : Addr} {w : World} {d : KernelDevice}

/-- No entry to look at holds the device: nothing happens. -/
theorem scan_absent {n iDev : Nat} (h8 : iDev + n ≤ 8)
    (h : ∀ k, iDev ≤ k → k < iDev + n → w.reg.devices[k]? ≠ some p) :
    freeDeviceMemScan munmap p n iDev w = .ok (none, w) := by
  induction n generalizing iDev with
  | zero => rfl
  | succ n ih =>
    have hlt : iDev < 8 := by omega
    have hne : p ≠ w.reg.devices[iDev] := fun he => by
      apply h iDev (Nat.le_refl _) (by omega)
      rw [Vector.getElem?_eq_getElem hlt, he]
    simp only [freeDeviceMemScan, hlt, ↓reduceDIte, ne_eq, hne, not_false_eq_true, ↓reduceIte]
    exact ih (by omega) fun k hk hk' => h k (by omega) (by omega)

/-- The process after a device at `p`, in entry `i`, is unmapped and freed. -/
structure Freed (p : Addr) (i : Nat) (space : Space) (w w' : World) : Prop where
  get : w'.heap.get = Function.update w.heap.get p none
  frees : w'.heap.frees = p :: w.heap.frees
  devices : ∀ k, w'.reg.devices[k]? = if k = i then some 0 else w.reg.devices[k]?
  iNewDev : w'.reg.iNewDev = w.reg.iNewDev
  space_eq : w'.space = space
  fds : w'.fds = w.fds
  dirs : w'.dirs = w.dirs
  kernel : w'.kernel = w.kernel
  mem : w'.mem = w.mem

/-- How the scan ends when the device is in one of its entries. -/
inductive ScanEnds (munmap : Fin 6 → Option Errno) (p : Addr) (i : Nat) (d : KernelDevice)
    (w : World) : Except Fault (Option Errno × World) → Prop
  | failed {e : Errno} {bars : BarTable} {space : Space}
      (h : unmapBars munmap d.bars.indices d.bars w.space = (some e, bars, space)) :
      ScanEnds munmap p i d w (.ok (some e, { w with space }.setDevice p { d with bars }))
  | freed {bars : BarTable} {space : Space} {w' : World}
      (h : unmapBars munmap d.bars.indices d.bars w.space = (none, bars, space))
      (hfreed : Freed p i space w w') : ScanEnds munmap p i d w (.ok (none, w'))

/-- The device is in exactly one of the entries to look at. -/
theorem scan_present {n iDev i : Nat} (h8 : iDev + n ≤ 8) (hd : w.device? p = some d)
    (hi : iDev ≤ i) (hi' : i < iDev + n) (hp : w.reg.devices[i]? = some p)
    (huniq : ∀ k, k < iDev + n → w.reg.devices[k]? = some p → k = i) :
    ScanEnds munmap p i d w (freeDeviceMemScan munmap p n iDev w) := by
  induction n generalizing iDev with
  | zero => omega
  | succ n ih =>
    have hlt : iDev < 8 := by omega
    rcases Nat.eq_or_lt_of_le hi with rfl | hi
    · have hpe : p = w.reg.devices[iDev] := by
        rw [Vector.getElem?_eq_getElem hlt, Option.some.injEq] at hp
        exact hp.symm
      have hp0 : p ≠ 0 := Heap.ne_zero_of_get (World.device?_eq_some.1 hd)
      simp only [freeDeviceMemScan, hlt, ↓reduceDIte, ← hpe, ne_eq, not_true_eq_false, ↓reduceIte,
        World.derefDevice_eq_ok.2 hd, bind, Except.bind, pure, Except.pure]
      rcases hun : unmapBars munmap d.bars.indices d.bars w.space with ⟨err, bars, space⟩
      cases err with
      | some e => exact .failed hun
      | none =>
        simp only
        have hsome : (w.heap.get p).isSome := by rw [World.device?_eq_some.1 hd]; rfl
        obtain ⟨heap, hfree⟩ := Heap.exists_free
          (h := w.heap.set p (.device { d with bars := bars.clearCount })) (a := p)
          (by rw [Heap.get_set_self hsome]; rfl)
        obtain ⟨-, hget, hfrees⟩ := Heap.free_eq_some.1 hfree
        simp only [World.setDevice, World.free, ← hpe, hfree]
        rw [scan_absent (by omega)]
        · refine .freed hun ⟨?_, ?_, ?_, rfl, rfl, rfl, rfl, rfl, rfl⟩
          · rw [hget, Heap.get_set hsome, Function.update_idem]
          · rw [hfrees, Heap.frees_set]
          · intro k
            rw [Vector.getElem?_set]
            simp only [eq_comm (a := iDev)]
        · intro k hk hk'
          rw [Vector.getElem?_set]
          split
          · omega
          · intro he
            have := huniq k (by omega) he
            omega
    · have hne : p ≠ w.reg.devices[iDev] := fun he => by
        have := huniq iDev (by omega) (by rw [Vector.getElem?_eq_getElem hlt, he])
        omega
      simp only [freeDeviceMemScan, hlt, ↓reduceDIte, ne_eq, hne, not_false_eq_true, ↓reduceIte]
      exact ih (by omega) hi (by omega) fun k hk hk' => huniq k (by omega) hk'

end Scan

/-! ## The shrink loop -/

/-- `m` is the index that shrinking from `n` ends at: the entries from `m + 1`
to `n` are null, and entry `m` is not unless `m` is 0. -/
structure Shrunk (devices : Vector Addr 8) (n m : Nat) : Prop where
  le : m ≤ n
  null : ∀ k, m < k → k ≤ n → devices[k]? = some 0
  stop : m ≠ 0 → devices[m]? ≠ some 0

theorem shrink_spec (devices : Vector Addr 8) {n : Nat} (h : n < 8) :
    ∃ m, shrink devices n = .ok m ∧ Shrunk devices n m := by
  induction n with
  | zero => exact ⟨0, rfl, Nat.le_refl 0, fun k h h' => by omega, fun h => absurd rfl h⟩
  | succ n ih =>
    simp only [shrink, h, ↓reduceDIte]
    split
    · next h0 =>
      obtain ⟨m, hm, hle, hnull, hstop⟩ := ih (by omega)
      refine ⟨m, hm, by omega, ?_, hstop⟩
      intro k hk hk'
      rcases Nat.eq_or_lt_of_le hk' with rfl | hk'
      · rw [Vector.getElem?_eq_getElem h, h0]
      · exact hnull k hk (by omega)
    · next h0 =>
      refine ⟨n + 1, rfl, Nat.le_refl _, fun k hk hk' => by omega, fun _ he => h0 ?_⟩
      rw [Vector.getElem?_eq_getElem h] at he
      exact Option.some.inj he

/-- With all eight entries taken the loop looks at an entry past the array. -/
theorem shrink_full (devices : Vector Addr 8) : shrink devices 8 = .error (.devicesIndex 8) := rfl

theorem Registry.shrink_ok {r : Registry} (h : r.iNewDev < 8) :
    ∃ r', r.shrink = .ok r' ∧ r'.devices = r.devices ∧
      Shrunk r.devices r.iNewDev r'.iNewDev := by
  obtain ⟨m, hm, hs⟩ := shrink_spec r.devices h
  unfold Registry.shrink
  split
  · next n hn =>
    rw [hm] at hn
    cases hn
    exact ⟨_, rfl, rfl, hs⟩
  · next e he =>
    rw [hm] at he
    cases he

theorem Registry.shrink_error {r : Registry} (h : r.iNewDev = 8) :
    r.shrink = .error (.devicesIndex 8) := by
  have hs : CronoPci.shrink r.devices r.iNewDev = .error (.devicesIndex 8) := by
    rw [h]; exact shrink_full _
  unfold Registry.shrink
  split
  · next n hn =>
    rw [hs] at hn
    cases hn
  · next e he =>
    rw [hs] at he
    cases he
    rfl

/-! ## Releasing the memory of a device -/

/-- The process after the shrink loop. -/
structure ShrunkTo (w w' : World) : Prop where
  heap : w'.heap = w.heap
  fds : w'.fds = w.fds
  dirs : w'.dirs = w.dirs
  space : w'.space = w.space
  kernel : w'.kernel = w.kernel
  mem : w'.mem = w.mem
  devices : w'.reg.devices = w.reg.devices
  shrunk : Shrunk w.reg.devices w.reg.iNewDev w'.reg.iNewDev

/-- How `freeDeviceMem` on the device `d` at `p` can end. -/
inductive FreeResult (munmap : Fin 6 → Option Errno) (p : Addr) (d : KernelDevice) (w : World) :
    Except Fault (Code × World) → Prop
  /-- A `munmap` failed; the entries unmapped before it have no address left. -/
  | unmapFails {e : Errno} {bars : BarTable} {space : Space} (hp : w.reg.Holds p)
      (h : unmapBars munmap d.bars.indices d.bars w.space = (some e, bars, space)) :
      FreeResult munmap p d w (.ok (e.code, { w with space }.setDevice p { d with bars }))
  | released {i : Nat} {bars : BarTable} {space : Space} {w₁ w' : World}
      (hroom : w.reg.iNewDev < 8) (hi : i < w.reg.iNewDev) (hp : w.reg.devices[i]? = some p)
      (h : unmapBars munmap d.bars.indices d.bars w.space = (none, bars, space))
      (hfreed : Freed p i space w w₁) (hshrunk : ShrunkTo w₁ w') :
      FreeResult munmap p d w (.ok (cronoSuccess, w'))
  /-- The device is not in range; the call succeeds all the same. -/
  | absent {w' : World} (hroom : w.reg.iNewDev < 8) (hp : ¬w.reg.Holds p)
      (hshrunk : ShrunkTo w w') : FreeResult munmap p d w (.ok (cronoSuccess, w'))
  /-- The shrink loop looks past the array. -/
  | full (h8 : w.reg.iNewDev = 8)
      (hget : w.reg.Holds p → UnmapsSucceed munmap d.bars) :
      FreeResult munmap p d w (.error (.devicesIndex 8))

theorem unmapsSucceed_iff {munmap : Fin 6 → Option Errno} {t : BarTable} (space : Space) :
    UnmapsSucceed munmap t ↔ (unmapBars munmap t.indices t space).1 = none := by
  rw [unmapBars_err_eq_none t.nodup_indices]
  simp only [BarTable.mem_indices]
  rfl

theorem freeDeviceMem_result (munmap : Fin 6 → Option Errno) {p : Addr} {d : KernelDevice}
    {w : World} (hd : w.device? p = some d) (hdist : w.reg.Distinct) :
    FreeResult munmap p d w (freeDeviceMem munmap p w) := by
  have hp0 : p ≠ 0 := Heap.ne_zero_of_get (World.device?_eq_some.1 hd)
  unfold freeDeviceMem
  by_cases hp : w.reg.Holds p
  · obtain ⟨i, hi, hpi⟩ := hp
    have hscan : ScanEnds munmap p i d w (freeDeviceMemScan munmap p w.reg.iNewDev 0 w) :=
      scan_present (by simpa using w.reg.le) hd (Nat.zero_le i) (by simpa using hi) hpi
        fun k hk hpk => hdist k i p (by simpa using hk) hi hpk hpi hp0
    generalize freeDeviceMemScan munmap p w.reg.iNewDev 0 w = r at hscan
    cases hscan with
    | failed h => exact .unmapFails ⟨i, hi, hpi⟩ h
    | @freed bars space w₁ h hfreed =>
      simp only [bind, Except.bind, pure, Except.pure]
      rcases Nat.lt_or_ge w.reg.iNewDev 8 with hlt | hge
      · obtain ⟨r', hr', hdev, hs⟩ :=
          Registry.shrink_ok (r := w₁.reg) (by rw [hfreed.iNewDev]; exact hlt)
        rw [hr']
        exact .released hlt hi hpi h hfreed ⟨rfl, rfl, rfl, rfl, rfl, rfl, hdev, hs⟩
      · have h8 : w.reg.iNewDev = 8 := Nat.le_antisymm w.reg.le hge
        rw [Registry.shrink_error (by rw [hfreed.iNewDev]; exact h8)]
        exact .full h8 fun _ => (unmapsSucceed_iff _).2 (by rw [h])
  · rw [scan_absent (by simpa using w.reg.le) fun k _ hk he => hp ⟨k, by simpa using hk, he⟩]
    simp only [bind, Except.bind, pure, Except.pure]
    rcases Nat.lt_or_ge w.reg.iNewDev 8 with hlt | hge
    · obtain ⟨r', hr', hdev, hs⟩ := Registry.shrink_ok (r := w.reg) hlt
      rw [hr']
      exact .absent hlt hp ⟨rfl, rfl, rfl, rfl, rfl, rfl, hdev, hs⟩
    · have h8 : w.reg.iNewDev = 8 := Nat.le_antisymm w.reg.le hge
      rw [Registry.shrink_error h8]
      exact .full h8 fun h => absurd h hp

/-! ## Close -/

/-- The process after `close(2)` on the descriptor of device `d`. -/
def closeMisc (d : KernelDevice) (w : World) : World := { w with fds := w.fds.close d.miscdevFd }

/-- How Close on the device `d` at `p` can end. -/
inductive CloseResult (munmap : Fin 6 → Option Errno) (p : Addr) (d : KernelDevice) (w : World) :
    Except Fault (Code × World) → Prop
  /-- A device whose id is 0 is no valid handle. -/
  | invalid (hid : d.dwDeviceId = 0) : CloseResult munmap p d w (.ok (0 - einval, w))
  /-- Nothing is open under the device's descriptor number. -/
  | badFd (hid : d.dwDeviceId ≠ 0) (hfd : w.fds.file d.miscdevFd = none) :
      CloseResult munmap p d w (.ok (ebadf, closeMisc d w))
  | closed {r : Except Fault (Code × World)} (hid : d.dwDeviceId ≠ 0)
      (hfd : w.fds.file d.miscdevFd ≠ none) (h : FreeResult munmap p d (closeMisc d w) r) :
      CloseResult munmap p d w r

theorem pciDeviceClose_result (munmap : Fin 6 → Option Errno) {p : Addr} {d : KernelDevice}
    {w : World} (hd : w.device? p = some d) (hdist : w.reg.Distinct) :
    CloseResult munmap p d w (pciDeviceClose munmap p w) := by
  unfold pciDeviceClose
  rw [initHDevFunc_of_device hd]
  simp only [bind, Except.bind, pure, Except.pure]
  by_cases hid : d.dwDeviceId = 0
  · rw [if_pos hid]
    exact .invalid hid
  rw [if_neg hid]
  simp only
  cases hfd : w.fds.file d.miscdevFd with
  | none => exact .badFd hid hfd
  | some f =>
    refine .closed hid (by simp [hfd]) ?_
    exact freeDeviceMem_result (w := closeMisc d w) munmap hd hdist

end CronoPci
