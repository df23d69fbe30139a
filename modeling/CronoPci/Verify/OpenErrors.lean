import CronoPci.Verify.Session

/-!
# Opens that return an error

An error should leave the process as it was, with the handle `NULL`. The error
label of `CRONO_KERNEL_PciDeviceOpen` does so for a device whose ids, `stat` or
`open` failed. It does not take back the handle published before the BARs are
described. An `open` that returns descriptor 0 would count as a failure, but the
directory is open until the end, so that the misc device never gets that number.
-/

namespace CronoPci

open Posix Trans

/-- What an Open for `slot` that returns an error should leave: no handle, the
block it allocated freed once, no descriptor or directory stream open that was
not open before, and the registry in its range as it was. -/
structure Restored (sys : OpenSys) (slot : PciSlot) (w : World) (phDev : Option Addr)
    (w' : World) : Prop where
  handle : phDev = some 0
  heap : w'.heap.get = w.heap.get
  freed : ∀ v, Found sys slot v → w'.heap.frees = sys.malloc :: w.heap.frees
  notFreed : (∀ v, ¬Found sys slot v) → w'.heap.frees = w.heap.frees
  file : w'.fds.file = w.fds.file
  dirs : w'.dirs = w.dirs
  iNewDev : w'.reg.iNewDev = w.reg.iNewDev
  devices : ∀ i, i < w.reg.iNewDev → w'.reg.devices[i]? = w.reg.devices[i]?

theorem Dropped.restored {sys : OpenSys} {slot : PciSlot} {v : SlotVars} {w w' : World}
    (h : Dropped sys.malloc w w') (hv : Found sys slot v) (hfile : w'.fds.file = w.fds.file) :
    Restored sys slot w (some 0) w' where
  handle := rfl
  heap := h.get
  freed _ _ := h.frees
  notFreed hnot := absurd hv (hnot v)
  file := hfile
  dirs := h.dirs
  iNewDev := h.iNewDev
  devices i hi := by rw [h.devices, if_neg (Nat.ne_of_lt hi)]

theorem restored_refl {sys : OpenSys} {slot : PciSlot} {w : World}
    (hnot : ∀ v, ¬Found sys slot v) : Restored sys slot w (some 0) w :=
  ⟨rfl, rfl, fun v hv => absurd hv (hnot v), fun _ => rfl, rfl, rfl, rfl, fun _ _ => rfl⟩

/-- A link that overruns its buffer is no failure of a system call. -/
theorem LinkOverruns.not_fails {sys : BarSys} {slot : PciSlot} {space : Space}
    (h : LinkOverruns sys slot) : ¬FillFails sys slot space := by
  rintro (⟨e, hlink⟩ | ⟨dir, hdir, -⟩)
  · obtain ⟨i, hi⟩ := h
    simp [cronoGetSysDevicesDirectoryPath, hlink] at hi
  · exact hdir.not_overruns h

/-- The BARs of a device that was opened were described. -/
theorem Opened.not_fails {sys : OpenSys} {slot : PciSlot} {v : SlotVars} {d : KernelDevice}
    {w w' : World} (h : Opened sys slot v d w w') : ¬FillFails sys.bars slot w.space := by
  obtain ⟨dir, descs, hfilled, -⟩ := h.bars
  obtain ⟨bars, hd⟩ := h.device
  have hslot : d.pciSlot = slot := by rw [hd]; rfl
  rw [← hslot]
  exact hfilled.not_fails

/-- Every error of Open restores the process exactly when Open does not get a
misc device whose BARs it fails to describe. -/
theorem open_restores_iff (sys : OpenSys) (h : Addr) (slot : PciSlot) (w : World) :
    (∀ ret phDev w', pciDeviceOpen sys (some h) (some slot) w = .ok (ret, phDev, w') →
        ret ≠ cronoSuccess → Restored sys slot w phDev w') ↔
      ¬∃ v, OpensMisc sys slot w v ∧ FillFails sys.bars slot w.space := by
  obtain ⟨r, hr, he⟩ := pciDeviceOpen_result sys h slot w
  rw [he]
  constructor
  · rintro hall ⟨v, hv, hfails⟩
    cases hv.result hr with
    | link hlink => exact hlink.not_fails hfails
    | noBars _ hret =>
      have hhandle := (hall _ _ _ rfl hret).handle
      exact hv.ne_null (Option.some.inj hhandle)
    | opened hopened => exact hopened.not_fails hfails
  · intro hnot ret phDev w' hok hret
    cases hr with
    | index | null | link => cases hok
    | noDirectory hdir =>
      cases hok
      exact restored_refl (not_found_of_error hdir)
    | notFound | opened =>
      cases hok
      exact absurd rfl hret
    | failed hv _ _ hdrop hfds =>
      cases hok
      exact hdrop.restored hv.found hfds.file_eq
    | noBars hv hfails => exact absurd ⟨_, hv, hfails⟩ hnot

/-- The device's `resource` file does not open: Open returns the error with a
handle to the block it freed. -/
theorem open_publishes_freed :
    ∃ w', pciDeviceOpen
        (.small 1 16 none { BarSys.small [] (fun _ => 0) with
          openResource := fun _ => some .noEnt })
        (some 0) (some (busSlot 1)) World.boot = .ok (enoent, some 16, w') ∧
      w'.heap.get 16 = none ∧ w'.heap.frees = [16] :=
  ⟨_, rfl, by decide, by decide⟩

end CronoPci
