import CronoPci.Model.Device

/-!
# Scanning for devices

`CRONO_KERNEL_PciScanDevices`. The variables for the slot and the ids are
declared outside the loop and keep their values from entry to entry.
-/

namespace CronoPci

open Posix Posix.Text

/-- `CRONO_KERNEL_PCI_CARDS` -/
abbrev pciCards : Nat := 100

/-- `(uint32_t)PCI_ANY_ID` -/
def pciAnyId : UInt32 := 0xFFFFFFFF

/-- `CRONO_KERNEL_PCI_ID` -/
structure PciId where
  dwVendorId : UInt32
  dwDeviceId : UInt32
  deriving DecidableEq

/-- `CRONO_KERNEL_PCI_SCAN_RESULT` -/
structure ScanResult where
  dwNumDevices : UInt32
  deviceId : Vector PciId pciCards
  deviceSlot : Vector PciSlot pciCards

/-- Store a device at `index` and count it. -/
def ScanResult.store (res : ScanResult) (index : Nat) (slot : PciSlot) (ids : Ids) :
    Except Fault ScanResult :=
  if h : index < pciCards then
    .ok ⟨UInt32.ofNat (index + 1), res.deviceId.set index ⟨ids.1.toUInt32, ids.2.toUInt32⟩,
      res.deviceSlot.set index slot⟩
  else .error (.scanIndex index)

/-- The system's answers to one `CRONO_KERNEL_PciScanDevices` call. -/
structure ScanSys where
  /-- Whether `/sys/bus/pci/devices` is a directory. -/
  stat : Except Errno Bool
  /-- The value `errno` has where no call failed. -/
  errno : Code
  opendir : Except Errno (List Dirent)
  /-- The indeterminate contents of the slot variables. -/
  slotVars : SlotVars
  /-- The indeterminate contents of `vendor_id` and `device_id`. -/
  ids : Ids
  /-- The configuration files as the loop finds them at the `k`-th entry. -/
  config : (k : Nat) → List Char → ConfigSys

/-- The ids pass the filter. -/
def FilterMatches (dwVendorId dwDeviceId : UInt32) (ids : Ids) : Prop :=
  (ids.1.toUInt32 = dwVendorId ∨ pciAnyId = dwVendorId) ∧
    (ids.2.toUInt32 = dwDeviceId ∨ pciAnyId = dwDeviceId)

instance (dwVendorId dwDeviceId : UInt32) (ids : Ids) :
    Decidable (FilterMatches dwVendorId dwDeviceId ids) :=
  inferInstanceAs (Decidable (_ ∧ _))

/-- The directory loop from the `k`-th entry on. The result is `none` when the
caller passed `NULL`, which only a match dereferences. -/
def scanLoop (sys : ScanSys) (dwVendorId dwDeviceId : UInt32) : List Dirent → (k : Nat) →
    SlotVars → Ids → (indexInResult : Nat) → Option ScanResult → FdTable →
    Except Fault (Option ScanResult × FdTable)
  | [], _, _, _, _, res, fds => .ok (res, fds)
  | en :: ens, k, v, ids, indexInResult, res, fds =>
    if en.dType ≠ dtLnk then
      scanLoop sys dwVendorId dwDeviceId ens (k + 1) v ids indexInResult res fds
    else
      -- the number of fields parsed is not looked at
      let v := sscanfSlot en.dName v
      let path := constructConfigFilePath v.toSlot
      let (ret, ids, fds) := cronoReadVendorDevice path (sys.config k path) ids fds
      if ret ≠ cronoSuccess then
        scanLoop sys dwVendorId dwDeviceId ens (k + 1) v ids indexInResult res fds
      else if FilterMatches dwVendorId dwDeviceId ids then
        match res with
        | none => .error .nullDeref
        | some res => do
          let res ← res.store indexInResult v.toSlot ids
          scanLoop sys dwVendorId dwDeviceId ens (k + 1) v ids (indexInResult + 1) (some res) fds
      else scanLoop sys dwVendorId dwDeviceId ens (k + 1) v ids indexInResult res fds

/-- `CRONO_KERNEL_PciScanDevices`: the code, what `*pPciScanResult` holds
afterwards, and the process. -/
def pciScanDevices (sys : ScanSys) (dwVendorId dwDeviceId : UInt32) (res : Option ScanResult)
    (w : World) : Except Fault (Code × Option ScanResult × World) :=
  match sys.stat with
  | .error e => .ok (e.code, res, w)
  | .ok isDir =>
    -- no call has failed here, and `errno` may be 0
    if !isDir then .ok (sys.errno, res, w)
    else match sys.opendir with
      | .error e => .ok (e.code, res, w)
      | .ok ens => do
        let dr := w.fds.lowest
        let fds := w.fds.install sysBusPcidevsPath
        let (res, fds) ← scanLoop sys dwVendorId dwDeviceId ens 0 sys.slotVars sys.ids 0 res fds
        return (cronoSuccess, res, { w with fds := fds.close dr })

end CronoPci
