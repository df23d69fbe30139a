import CronoPci.Model.Device
import CronoPci.Verify.Bars

/-!
# How `CRONO_KERNEL_PciDeviceOpen` can end

`OpenResult` lists the results of a call with the inputs that lead to each, and
`pciDeviceOpen_result` shows the list complete. Later proofs use these cases and
never the code of Open.
-/

namespace CronoPci

open Posix

/-! ## The device asked for -/

/-- The directory loop's variables at the first entry that matches the slot. -/
def matchedVars (slot : PciSlot) : List Dirent → SlotVars → Option SlotVars
  | [], _ => none
  | en :: ens, v =>
    if en.dType ≠ dtLnk then matchedVars slot ens v
    else if (sscanfSlot en.dName v).Matches slot then some (sscanfSlot en.dName v)
    else matchedVars slot ens (sscanfSlot en.dName v)

theorem openLoop_eq (sys : OpenSys) (slot : PciSlot) (dr : Nat) (ens : List Dirent)
    (v : SlotVars) (w : World) : openLoop sys slot dr ens v w =
      match matchedVars slot ens v with
      | none => .ok (cronoSuccess, 0, w.closedir dr)
      | some v => openMatched sys slot v dr w := by
  induction ens generalizing v with
  | nil => rfl
  | cons en ens ih =>
    simp only [openLoop, matchedVars]
    split
    · exact ih v
    · split
      · rfl
      · exact ih _

/-- The listing has an entry for the slot, read into `v`. -/
def Found (sys : OpenSys) (slot : PciSlot) (v : SlotVars) : Prop :=
  ∃ ens, sys.opendir = .ok ens ∧ matchedVars slot ens sys.slotVars = some v

theorem Found.unique {sys : OpenSys} {slot : PciSlot} {v v' : SlotVars} (h : Found sys slot v)
    (h' : Found sys slot v') : v = v' := by
  obtain ⟨ens, hd, hm⟩ := h
  obtain ⟨ens', hd', hm'⟩ := h'
  rw [hd] at hd'
  cases hd'
  rw [hm] at hm'
  exact Option.some.inj hm'

theorem not_found_of_error {sys : OpenSys} {slot : PciSlot} {e : Errno}
    (h : sys.opendir = .error e) (v : SlotVars) : ¬Found sys slot v := by
  intro hv
  obtain ⟨ens, hens, -⟩ := hv
  rw [h] at hens
  cases hens

theorem not_found_of_none {sys : OpenSys} {slot : PciSlot} {ens : List Dirent}
    (h : sys.opendir = .ok ens) (hnone : matchedVars slot ens sys.slotVars = none)
    (v : SlotVars) : ¬Found sys slot v := by
  intro hv
  obtain ⟨ens', hens, hsome⟩ := hv
  rw [h] at hens
  cases hens
  rw [hnone] at hsome
  cases hsome

/-- The ids read for the entry. -/
def readIds (sys : OpenSys) (v : SlotVars) (fds : FdTable) : Code × Ids × FdTable :=
  cronoReadVendorDevice (constructConfigFilePath v.toSlot)
    (sys.config (constructConfigFilePath v.toSlot)) sys.ids fds

/-- What is read does not depend on the files that are open. -/
theorem readIds_congr (sys : OpenSys) (v : SlotVars) (fds fds' : FdTable) :
    (readIds sys v fds).1 = (readIds sys v fds').1 ∧
      (readIds sys v fds).2.1 = (readIds sys v fds').2.1 := by
  unfold readIds cronoReadVendorDevice cronoReadConfig
  cases (sys.config (constructConfigFilePath v.toSlot)).openErr with
  | some e => exact ⟨rfl, rfl⟩
  | none =>
    simp only
    split <;> exact ⟨rfl, rfl⟩

/-- The device before its misc device is opened. -/
def foundDevice (sys : OpenSys) (slot : PciSlot) (v : SlotVars) (fds : FdTable) : KernelDevice :=
  newDevice slot v (readIds sys v fds).2.1

/-- The number that the misc device gets: the lowest free one while the directory
is open. -/
def World.miscNumber (w : World) : Nat := w.opendir.fds.lowest

theorem World.miscNumber_ne_zero (w : World) : w.miscNumber ≠ 0 := FdTable.lowest_install_ne_zero

theorem World.miscNumber_ne_lowest (w : World) : w.miscNumber ≠ w.fds.lowest :=
  FdTable.lowest_install_ne

@[simp] theorem World.file_miscNumber (w : World) : w.fds.file w.miscNumber = none :=
  FdTable.file_lowest_install

/-- Open takes a slot of the registry and a block for the device. -/
structure Registers (sys : OpenSys) (slot : PciSlot) (w : World) (v : SlotVars) : Prop where
  found : Found sys slot v
  room : w.reg.iNewDev < 8
  ne_null : sys.malloc ≠ 0
  fresh : w.heap.get sys.malloc = none

/-- Open gets past the ids and the `stat`, and its `open` of the misc device
succeeds. -/
structure OpensMisc (sys : OpenSys) (slot : PciSlot) (w : World) (v : SlotVars) : Prop extends
    Registers sys slot w v where
  ids : (readIds sys v w.fds).1 = cronoSuccess
  stat : sys.stat (miscdevPath (foundDevice sys slot v w.fds)) = none
  misc : sys.openMisc (miscdevPath (foundDevice sys slot v w.fds)) = none

/-! ## The results -/

/-- An Open that failed after it registered `p`: the block is freed, the index
restored, and `p` is left behind in the entry past the range. -/
structure Dropped (p : Addr) (w w' : World) : Prop where
  get : w'.heap.get = w.heap.get
  frees : w'.heap.frees = p :: w.heap.frees
  devices : ∀ i, w'.reg.devices[i]? = if i = w.reg.iNewDev then some p else w.reg.devices[i]?
  iNewDev : w'.reg.iNewDev = w.reg.iNewDev
  dirs : w'.dirs = w.dirs
  kernel : w'.kernel = w.kernel
  mem : w'.mem = w.mem

/-- An Open that succeeded with device `d` at `p`. -/
structure Opened (sys : OpenSys) (slot : PciSlot) (v : SlotVars) (d : KernelDevice)
    (w w' : World) : Prop where
  device : ∃ bars, d = { foundDevice sys slot v w.fds with bars, miscdevFd := w.miscNumber }
  get : w'.heap.get = Function.update w.heap.get sys.malloc (some (.device d))
  frees : w'.heap.frees = w.heap.frees
  devices : ∀ i, w'.reg.devices[i]? =
    if i = w.reg.iNewDev then some sys.malloc else w.reg.devices[i]?
  iNewDev : w'.reg.iNewDev = w.reg.iNewDev + 1
  dirs : w'.dirs = w.dirs
  kernel : w'.kernel = w.kernel
  mem : w'.mem = w.mem
  fds : ∃ f, w.fds.next ≤ f ∧ f < w'.fds.next ∧ w'.fds.path f = miscdevPath d ∧
    FdTable.Effect w.fds w'.fds (Function.update w.fds.file w.miscNumber (some f))
  bars : ∃ dir descs, Filled sys.bars d w dir descs d.bars ∧
    w'.space = (mapRows sys.bars dir sys.bars.rows w.space).2

/-- How a call for `slot` can end. -/
inductive OpenResult (sys : OpenSys) (slot : PciSlot) (w : World) :
    Except Fault (Code × Addr × World) → Prop
  /-- All eight entries are taken: the store runs past the array. -/
  | index {v : SlotVars} (hv : Found sys slot v) (hfull : w.reg.iNewDev = 8) :
      OpenResult sys slot w (.error (.devicesIndex 8))
  /-- `malloc` returned `NULL`. -/
  | null {v : SlotVars} (hv : Found sys slot v) (hroom : w.reg.iNewDev < 8)
      (hm : w.heap.malloc sys.malloc (.device .zero) = none) :
      OpenResult sys slot w (.error .nullDeref)
  /-- The device's link fills its buffer. -/
  | link {v : SlotVars} {i : Nat} (hv : OpensMisc sys slot w v)
      (hlink : LinkOverruns sys.bars slot) : OpenResult sys slot w (.error (.linkBuffer i))
  /-- The directory does not open. -/
  | noDirectory {e : Errno} (he : sys.opendir = .error e) :
      OpenResult sys slot w (.ok (e.code, 0, w))
  /-- No entry matches; the call succeeds without a handle. -/
  | notFound {ens : List Dirent} {fds : FdTable} (hens : sys.opendir = .ok ens)
      (hv : matchedVars slot ens sys.slotVars = none) (hfds : FdTable.Balanced w.fds fds) :
      OpenResult sys slot w (.ok (cronoSuccess, 0, { w with fds }))
  /-- The ids, the `stat` or the open of the misc device failed. -/
  | failed {v : SlotVars} {ret : Code} {w' : World} (hv : Registers sys slot w v)
      (hnot : ¬OpensMisc sys slot w v) (hret : ret ≠ cronoSuccess)
      (hdrop : Dropped sys.malloc w w') (hfds : FdTable.Balanced w.fds w'.fds)
      (hspace : w'.space = w.space) : OpenResult sys slot w (.ok (ret, 0, w'))
  /-- The BARs could not be described: the handle stays published. -/
  | noBars {v : SlotVars} {ret : Code} {w' : World} (hv : OpensMisc sys slot w v)
      (hfails : FillFails sys.bars slot w.space)
      (hret : ret ≠ cronoSuccess) (hdrop : Dropped sys.malloc w w')
      (hfds : FdTable.Balanced w.fds w'.fds) (hmaps : w.space.maps ⊆ w'.space.maps)
      (hunmaps : w'.space.unmaps = w.space.unmaps) :
      OpenResult sys slot w (.ok (ret, sys.malloc, w'))
  | opened {v : SlotVars} {d : KernelDevice} {w' : World} (hv : OpensMisc sys slot w v)
      (hopened : Opened sys slot v d w w') :
      OpenResult sys slot w (.ok (cronoSuccess, sys.malloc, w'))

/-! ## The list is complete -/

theorem openMiscError_ne_zero (e : Code) : openMiscError e ≠ cronoSuccess := by
  unfold openMiscError
  split
  · decide
  · split <;> decide

theorem push_eq_ok {r : Registry} {p : Addr} (h : r.iNewDev < 8) :
    r.push p = .ok ⟨r.devices.set r.iNewDev p, r.iNewDev + 1, h⟩ := by
  unfold Registry.push
  rw [dif_pos h]

theorem push_eq_error {r : Registry} {p : Addr} (h : r.iNewDev = 8) :
    r.push p = .error (.devicesIndex 8) := by
  unfold Registry.push
  rw [dif_neg (by omega), h]

/-- The process in the middle of an Open that registered `p`. -/
structure Opening (p : Addr) (w w₁ : World) : Prop where
  room : w.reg.iNewDev < 8
  ne_null : p ≠ 0
  fresh : w.heap.get p = none
  block : (w₁.heap.get p).isSome
  get : ∀ a, a ≠ p → w₁.heap.get a = w.heap.get a
  frees : w₁.heap.frees = w.heap.frees
  reg : w₁.reg = ⟨w.reg.devices.set w.reg.iNewDev p, w.reg.iNewDev + 1, room⟩
  dirs : w₁.dirs = w.dirs + 1
  kernel : w₁.kernel = w.kernel
  mem : w₁.mem = w.mem

namespace Opening

variable {p : Addr} {w w₁ : World}

theorem setDevice (h : Opening p w w₁) (d : KernelDevice) : Opening p w (w₁.setDevice p d) where
  room := h.room
  ne_null := h.ne_null
  fresh := h.fresh
  block := by simp [World.setDevice, Heap.get_set_self h.block]
  get a ha := by simp only [World.setDevice, Heap.get_set_ne ha, h.get a ha]
  frees := by simp only [World.setDevice, Heap.frees_set, h.frees]
  reg := h.reg
  dirs := h.dirs
  kernel := h.kernel
  mem := h.mem

/-- Descriptors and mappings are no part of it. -/
theorem withFiles (h : Opening p w w₁) (fds : FdTable) (space : Space) :
    Opening p w { w₁ with fds, space } :=
  ⟨h.room, h.ne_null, h.fresh, h.block, h.get, h.frees, h.reg, h.dirs, h.kernel, h.mem⟩

theorem devices (h : Opening p w w₁) (i : Nat) : w₁.reg.devices[i]? =
    if i = w.reg.iNewDev then some p else w.reg.devices[i]? := by
  simp only [h.reg, Vector.getElem?_set, eq_comm (a := i)]

/-- The error label leaves the process `Dropped`. -/
theorem deviceError (h : Opening p w w₁) (ret : Code) (phDev : Addr) (dr : Nat) :
    ∃ w', deviceError ret phDev p dr w₁ = .ok (ret, phDev, w') ∧ Dropped p w w' ∧
      w'.fds = w₁.fds.close dr ∧ w'.space = w₁.space := by
  obtain ⟨heap, hheap⟩ := Heap.exists_free h.block
  obtain ⟨-, hget, hfrees⟩ := Heap.free_eq_some.1 hheap
  refine ⟨{ w₁.closedir dr with heap, reg := w₁.reg.pop }, ?_,
    ⟨?_, ?_, h.devices, ?_, ?_, h.kernel, h.mem⟩, rfl, rfl⟩
  · simp [CronoPci.deviceError, World.closedir, h.ne_null, World.free, hheap, bind, Except.bind,
      pure, Except.pure]
  · funext a
    simp only [hget]
    rcases Decidable.eq_or_ne a p with rfl | hne
    · rw [Function.update_self, h.fresh]
    · rw [Function.update_of_ne hne, h.get a hne]
  · simp only [hfrees, h.frees]
  · simp [Registry.pop, h.reg]
  · simp [World.closedir, h.dirs]

end Opening

theorem World.device?_congr {w w' : World} {p : Addr} (h : w'.heap.get p = w.heap.get p) :
    w'.device? p = w.device? p := by
  unfold World.device?
  rw [h]

/-- The devices after the block at `p` becomes `d`. -/
theorem World.device?_update {w w' : World} {p : Addr} {d : KernelDevice}
    (h : w'.heap.get = Function.update w.heap.get p (some (.device d))) (q : Addr) :
    w'.device? q = if q = p then some d else w.device? q := by
  split
  · next hqp => rw [World.device?_eq_some, h, hqp, Function.update_self]
  · next hqp => exact World.device?_congr (by rw [h, Function.update_of_ne hqp])

/-- Descriptors: the misc device's file closed again, then the directory. -/
theorem balanced_closed {w : World} {t : FdTable} {f : Nat}
    (h : FdTable.Effect w.opendir.fds t (Function.update w.opendir.fds.file w.miscNumber (some f)))
    (hf : w.fds.next ≤ f) (hne : f ≠ w.fds.next) :
    FdTable.Balanced w.fds ((t.close w.miscNumber).close w.fds.lowest) := by
  have hf' : w.opendir.fds.next ≤ f := by
    simp only [World.opendir, FdTable.next_install]
    omega
  have hclose := h.close (n := w.miscNumber) (f := f) (Function.update_self ..) hf'
  have hfile : Function.update (Function.update w.opendir.fds.file w.miscNumber (some f))
      w.miscNumber none = w.opendir.fds.file := by
    rw [Function.update_idem, ← w.opendir.fds.file_lowest]
    exact Function.update_eq_self ..
  rw [hfile] at hclose
  exact FdTable.Balanced.bracket hclose

/-- The part of Open after its misc device is open under a positive number. -/
theorem describeOpened_result {sys : OpenSys} {slot : PciSlot} {v : SlotVars} {w w₁ : World}
    {d : KernelDevice} (hv : OpensMisc sys slot w v)
    (hd : d = { foundDevice sys slot v w.fds with miscdevFd := w.miscNumber })
    (hw : Opening sys.malloc w w₁)
    (hdev : w₁.heap.get = Function.update w.heap.get sys.malloc (some (.device d)))
    (hspace : w₁.space = w.space) {f : Nat} (hf : w.fds.next < f) (hf' : f < w₁.fds.next)
    (hpath : w₁.fds.path f = miscdevPath d)
    (hfds : FdTable.Effect w.opendir.fds w₁.fds
      (Function.update w.opendir.fds.file w.miscNumber (some f))) :
    OpenResult sys slot w (describeOpened sys sys.malloc w.miscNumber w.fds.lowest w₁) := by
  have hslot : d.pciSlot = slot := by rw [hd]; rfl
  have hcount : d.bars.barCount = 0 := by rw [hd]; rfl
  have hdev' : w₁.device? sys.malloc = some d := by
    rw [World.device?_eq_some, hdev, Function.update_self]
  unfold describeOpened
  rcases fill_ends sys.bars hdev' with ⟨hlink, -, i, herr⟩ | ⟨ret, w₂, hfill, hends⟩
  · rw [herr]
    rw [hslot] at hlink
    exact .link hv hlink
  rw [hfill]
  cases hends with
  | already hpos' => omega
  | @failed _ fds space _ hret hfails hbal hmaps hunmaps =>
    rw [hslot, hspace] at hfails
    rw [hspace] at hmaps hunmaps
    obtain ⟨w', herr, hdrop, hfds', hspace'⟩ :=
      (hw.withFiles (fds.close w.miscNumber) space).deviceError ret sys.malloc w.fds.lowest
    simp only [bind, Except.bind, hret, ne_eq, not_false_eq_true, ↓reduceIte, herr]
    refine .noBars hv hfails hret hdrop ?_ ?_ ?_
    · rw [hfds']
      exact balanced_closed (hfds.balanced hbal) (Nat.le_of_lt hf) (Nat.ne_of_gt hf)
    · rw [hspace']; exact hmaps
    · rw [hspace']; exact hunmaps
  | @filled dir descs bars fds _ hfilled hbal =>
    simp only [bind, Except.bind, pure, Except.pure, ne_eq, not_true_eq_false, ↓reduceIte]
    have hblock : (w₁.heap.get sys.malloc).isSome := hw.block
    have hnext : w₁.fds.next ≤ fds.next := hbal.next_le
    refine .opened hv (d := { d with bars }) ⟨⟨bars, by rw [hd]⟩, ?_, ?_, hw.devices, ?_, ?_,
      hw.kernel, hw.mem, ⟨f, Nat.le_of_lt hf, Nat.lt_of_lt_of_le hf' hnext, ?_, ?_⟩, dir, descs,
      ?_, ?_⟩
    · simp only [World.setDevice, World.closedir]
      rw [Heap.get_set hblock, hdev, Function.update_idem]
    · simp only [World.setDevice, World.closedir, Heap.frees_set, hw.frees]
    · simp only [World.setDevice, World.closedir, hw.reg]
    · simp [World.setDevice, World.closedir, hw.dirs]
    · exact (hbal.path_eq f hf').trans hpath
    · exact FdTable.Effect.bracket (hfds.balanced hbal) w.miscNumber_ne_lowest
    · exact ⟨by simpa [hslot] using hfilled.directory, hfilled.opens,
        by simpa [hspace] using hfilled.mapped, hfilled.tail, hfilled.filled⟩
    · simp only [World.setDevice, World.closedir, hspace]

/-- The body of the match, from the process with the directory open. -/
theorem openMatched_result (sys : OpenSys) {slot : PciSlot} {v : SlotVars} (w : World)
    (hv : Found sys slot v) :
    OpenResult sys slot w (openMatched sys slot v w.fds.lowest w.opendir) := by
  unfold openMatched
  rcases Nat.lt_or_ge w.reg.iNewDev 8 with hroom | hfull
  case inr =>
    have hfull : w.reg.iNewDev = 8 := Nat.le_antisymm w.reg.le hfull
    have hpush (p : Addr) : w.opendir.reg.push p = .error (.devicesIndex 8) := push_eq_error hfull
    cases w.opendir.heap.malloc sys.malloc (.device .zero) <;>
      · simp only [hpush, bind, Except.bind]
        exact .index hv hfull
  have hpush (p : Addr) : w.opendir.reg.push p =
      .ok ⟨w.reg.devices.set w.reg.iNewDev p, w.reg.iNewDev + 1, hroom⟩ := push_eq_ok hroom
  cases hm : w.opendir.heap.malloc sys.malloc (.device .zero) with
  | none =>
    simp only [hpush, bind, Except.bind]
    exact .null hv hroom hm
  | some heap =>
    obtain ⟨hne, hfresh, hget, hfrees⟩ := Heap.malloc_eq_some.1 hm
    have hreg : Registers sys slot w v := ⟨hv, hroom, hne, hfresh⟩
    obtain ⟨hcode, hread⟩ := readIds_congr sys v w.fds w.opendir.fds
    have hfound : newDevice slot v (readIds sys v w.opendir.fds).2.1 =
        foundDevice sys slot v w.fds := by rw [← hread]; rfl
    have hbal : FdTable.Balanced w.opendir.fds (readIds sys v w.opendir.fds).2.2 :=
      cronoReadVendorDevice_balanced ..
    have hlow : (readIds sys v w.opendir.fds).2.2.lowest = w.miscNumber :=
      FdTable.lowest_congr hbal.file_eq
    -- the process with the device registered and its ids read
    have hw : Opening sys.malloc w
        { w.opendir with
          heap, fds := (readIds sys v w.opendir.fds).2.2
          reg := ⟨w.reg.devices.set w.reg.iNewDev sys.malloc, w.reg.iNewDev + 1, hroom⟩ } :=
      ⟨hroom, hne, hfresh, by simp [hget], fun a ha => by simp [hget, ha, World.opendir], hfrees,
        rfl, rfl, rfl, rfl⟩
    simp only [hpush, bind, Except.bind]
    rw [show cronoReadVendorDevice (constructConfigFilePath v.toSlot)
        (sys.config (constructConfigFilePath v.toSlot)) sys.ids w.opendir.fds =
      ((readIds sys v w.opendir.fds).1, (readIds sys v w.opendir.fds).2.1,
        (readIds sys v w.opendir.fds).2.2) from rfl]
    simp only [hfound]
    -- where Open gives up, it closes the directory
    have hclosed (w' : World) (h : w'.fds = (readIds sys v w.opendir.fds).2.2.close w.fds.lowest) :
        FdTable.Balanced w.fds w'.fds := by
      rw [h]
      exact FdTable.Balanced.bracket hbal
    by_cases hids : (readIds sys v w.opendir.fds).1 = cronoSuccess
    case neg =>
      obtain ⟨w', herr, hdrop, hfds, hspace⟩ := hw.deviceError tryAgain 0 w.fds.lowest
      have hret : tryAgain ≠ cronoSuccess := by decide
      rw [if_pos hids, herr]
      refine .failed hreg (fun h => hids ?_) hret hdrop (hclosed _ hfds) hspace
      rw [← hcode, h.ids]
    rw [if_neg (not_not_intro hids)]
    have hw₁ := hw.setDevice (foundDevice sys slot v w.fds)
    cases hstat : sys.stat (miscdevPath (foundDevice sys slot v w.fds)) with
    | some e =>
      obtain ⟨w', herr, hdrop, hfds, hspace⟩ := hw₁.deviceError (0 - einval) 0 w.fds.lowest
      have hret : 0 - einval ≠ cronoSuccess := by decide
      have hnot : ¬OpensMisc sys slot w v := fun h => by
        have := h.stat
        rw [hstat] at this
        cases this
      simp only
      rw [herr]
      exact .failed hreg hnot hret hdrop (hclosed _ hfds) hspace
    | none =>
      simp only
      cases hmisc : sys.openMisc (miscdevPath (foundDevice sys slot v w.fds)) with
      | some e =>
        obtain ⟨w', herr, hdrop, hfds, hspace⟩ :=
          hw₁.deviceError (openMiscError e.code) 0 w.fds.lowest
        have hnot : ¬OpensMisc sys slot w v := fun h => by
          have := h.misc
          rw [hmisc] at this
          cases this
        simp only
        rw [herr]
        exact .failed hreg hnot (openMiscError_ne_zero _) hdrop (hclosed _ hfds) hspace
      | none =>
        have hopens : OpensMisc sys slot w v := ⟨hreg, hcode.trans hids, hstat, hmisc⟩
        have heff := FdTable.Effect.install hbal (miscdevPath (foundDevice sys slot v w.fds))
        have hnext : w.opendir.fds.next ≤ (readIds sys v w.opendir.fds).2.2.next := hbal.next_le
        simp only [World.setDevice, hlow]
        rw [hlow] at heff
        rw [if_neg w.miscNumber_ne_zero]
        refine describeOpened_result hopens rfl
          ((hw₁.withFiles ((readIds sys v w.opendir.fds).2.2.install
            (miscdevPath (foundDevice sys slot v w.fds))) w.space).setDevice _) ?_ rfl hnext
          (Nat.lt_succ_self _) (Function.update_self ..) heff
        simp only
        rw [Heap.get_set (by simp [Heap.get_set_self, hget]), Heap.get_set (by simp [hget]), hget,
          Function.update_idem, Function.update_idem]
        rfl

/-- Every result of a call on non-null pointers is listed. -/
theorem pciDeviceOpen_result (sys : OpenSys) (h : Addr) (slot : PciSlot) (w : World) :
    ∃ r, OpenResult sys slot w r ∧
      pciDeviceOpen sys (some h) (some slot) w = r.map fun r => (r.1, some r.2.1, r.2.2) := by
  unfold pciDeviceOpen
  cases hdir : sys.opendir with
  | error e => exact ⟨_, .noDirectory hdir, rfl⟩
  | ok ens =>
    simp only [openLoop_eq]
    cases hv : matchedVars slot ens sys.slotVars with
    | none =>
      refine ⟨_, .notFound hdir hv (FdTable.Balanced.refl w.opendir.fds).bracket, ?_⟩
      simp [bind, Except.bind, pure, Except.pure, Except.map, World.closedir, World.opendir]
    | some v =>
      refine ⟨_, openMatched_result sys w ⟨ens, hdir, hv⟩, ?_⟩
      simp only
      cases openMatched sys slot v w.fds.lowest w.opendir <;> rfl

/-- The results of a call that opens its misc device. -/
inductive MiscResult (sys : OpenSys) (slot : PciSlot) (v : SlotVars) (w : World) :
    Except Fault (Code × Addr × World) → Prop
  | link {f : Fault} (hlink : LinkOverruns sys.bars slot) : MiscResult sys slot v w (.error f)
  | noBars {ret : Code} {w' : World} (hfails : FillFails sys.bars slot w.space)
      (hret : ret ≠ cronoSuccess) : MiscResult sys slot v w (.ok (ret, sys.malloc, w'))
  | opened {d : KernelDevice} {w' : World} (hopened : Opened sys slot v d w w') :
      MiscResult sys slot v w (.ok (cronoSuccess, sys.malloc, w'))

theorem OpensMisc.result {sys : OpenSys} {slot : PciSlot} {v : SlotVars} {w : World}
    {r : Except Fault (Code × Addr × World)} (hv : OpensMisc sys slot w v)
    (hr : OpenResult sys slot w r) : MiscResult sys slot v w r := by
  cases hr with
  | index _ hfull => exact absurd hfull (Nat.ne_of_lt hv.room)
  | null _ _ hm =>
    obtain ⟨heap, he⟩ := Heap.exists_malloc hv.ne_null hv.fresh
    rw [hm] at he
    cases he
  | link _ hlink => exact .link hlink
  | noDirectory he => exact absurd hv.found (not_found_of_error he _)
  | notFound he hnone => exact absurd hv.found (not_found_of_none he hnone _)
  | failed hv' hnot =>
    rw [hv'.found.unique hv.found] at hnot
    exact absurd hv hnot
  | noBars _ hfails hret => exact .noBars hfails hret
  | opened hv' hopened =>
    rw [hv'.found.unique hv.found] at hopened
    exact .opened hopened

end CronoPci
