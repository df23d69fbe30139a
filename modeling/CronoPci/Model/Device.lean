import CronoPci.Model.Bars

/-!
# Opening and closing devices

`CRONO_KERNEL_PciDeviceOpen` and `CRONO_KERNEL_PciDeviceClose` with the
registry of open devices: the slot taken by Open, the scan and the shrink loop
of `freeDeviceMem`, and the unload hook.
-/

namespace CronoPci

open Posix Posix.Text

/-! ## Releasing a device -/

/-- The unmapping loop of `freeDeviceMem` over the entries `ibars`, with the
error of `munmap` for each entry, if any: the error returned, the device and the
address space. An entry that is unmapped has its address set to 0. -/
def unmapBars (munmap : Fin 6 → Option Errno) : List (Fin 6) → BarTable → Space →
    Option Errno × BarTable × Space
  | [], t, space => (none, t, space)
  | ibar :: ibars, t, space =>
    let desc := t.barDescs.get ibar
    if desc.userAddress = 0 then unmapBars munmap ibars t space
    else match munmap ibar with
      | some err => (some err, t, space)
      | none => unmapBars munmap ibars (t.clearAddress ibar)
          (space.munmap desc.userAddress desc.length.toNat)

/-- The scan of `freeDeviceMem`, for `n` entries from `devices[iDev]` on. It
goes on after a match. -/
def freeDeviceMemScan (munmap : Fin 6 → Option Errno) (pDevice : Addr) :
    (n iDev : Nat) → World → Except Fault (Option Errno × World)
  | 0, _, w => .ok (none, w)
  | n + 1, iDev, w =>
    if h : iDev < 8 then
      if pDevice ≠ w.reg.devices[iDev] then freeDeviceMemScan munmap pDevice n (iDev + 1) w
      else do
        let d ← w.derefDevice pDevice
        let (err, bars, space) := unmapBars munmap d.bars.indices d.bars w.space
        match err with
        | some err => return (some err, { w with space }.setDevice pDevice { d with bars })
        | none =>
          let w := { w with space }.setDevice pDevice
            { d with bars := bars.clearCount }
          let w ← w.free w.reg.devices[iDev]
          freeDeviceMemScan munmap pDevice n (iDev + 1)
            { w with reg := { w.reg with devices := w.reg.devices.set iDev 0 } }
    else .error (.devicesIndex iDev)

/-- `while (iNewDev > 0 && devices[iNewDev] == nullptr) iNewDev--;` -/
def shrink (devices : Vector Addr 8) : (iNewDev : Nat) → Except Fault Nat
  | 0 => .ok 0
  | n + 1 =>
    if h : n + 1 < 8 then
      if devices[n + 1] = 0 then shrink devices n else .ok (n + 1)
    else .error (.devicesIndex (n + 1))

theorem shrink_le {devices : Vector Addr 8} {n m : Nat} (h : shrink devices n = .ok m) :
    m ≤ n := by
  induction n with
  | zero =>
    simp only [shrink, Except.ok.injEq] at h
    omega
  | succ n ih =>
    simp only [shrink] at h
    split at h
    · split at h
      · exact Nat.le_succ_of_le (ih h)
      · simp only [Except.ok.injEq] at h
        omega
    · cases h

/-- The shrink loop of `freeDeviceMem` on the registry. -/
def Registry.shrink (r : Registry) : Except Fault Registry :=
  match h : CronoPci.shrink r.devices r.iNewDev with
  | .ok n => .ok ⟨r.devices, n, Nat.le_trans (shrink_le h) r.le⟩
  | .error e => .error e

/-- `freeDeviceMem` -/
def freeDeviceMem (munmap : Fin 6 → Option Errno) (pDevice : Addr) (w : World) :
    Except Fault (Code × World) := do
  let (err, w) ← freeDeviceMemScan munmap pDevice w.reg.iNewDev 0 w
  match err with
  | some err => return (err.code, w)
  | none =>
    let reg ← w.reg.shrink
    return (cronoSuccess, { w with reg })

/-- The loop of `freeDevicesMem`, for `n` entries from `devices[iDev]` on. -/
def freeDevicesMemLoop : (n iDev : Nat) → World → Except Fault World
  | 0, _, w => .ok w
  | n + 1, iDev, w =>
    if h : iDev < 8 then
      if w.reg.devices[iDev] ≠ 0 then do
        let w ← w.free w.reg.devices[iDev]
        freeDevicesMemLoop n (iDev + 1)
          { w with reg := { w.reg with devices := w.reg.devices.set iDev 0 } }
      else freeDevicesMemLoop n (iDev + 1) w
    else .error (.devicesIndex iDev)

/-- `freeDevicesMem` -/
def freeDevicesMem (w : World) : Except Fault World := do
  let w ← freeDevicesMemLoop w.reg.iNewDev 0 w
  return { w with reg := w.reg.reset }

/-- `onUnload` -/
def onUnload (w : World) : Except Fault World := freeDevicesMem w

/-- `CRONO_KERNEL_PciDeviceClose` -/
def pciDeviceClose (munmap : Fin 6 → Option Errno) (hDev : Addr) (w : World) :
    Except Fault (Code × World) := do
  match ← w.initHDevFunc hDev with
  | .error ret => return (ret, w)
  | .ok d =>
    let file := w.fds.file d.miscdevFd
    let w := { w with fds := w.fds.close d.miscdevFd }
    if file.isNone then return (ebadf, w)
    else freeDeviceMem munmap hDev w

/-! ## Opening a device -/

/-- A directory entry. -/
structure Dirent where
  dType : UInt8
  dName : List Char

/-- `DT_LNK` -/
def dtLnk : UInt8 := 10

/-- `domain, bus, dev, func`, which keep their values from entry to entry. -/
structure SlotVars where
  domain : UInt32
  bus : UInt32
  dev : UInt32
  func : UInt32

/-- `sscanf(d_name, "%x:%02x:%02x.%1u", &domain, &bus, &dev, &func)`: the
variables whose fields were reached are set. -/
def sscanfSlot (name : List Char) (v : SlotVars) : SlotVars :=
  match scanUnsigned 16 name.length name with
  | none => v
  | some (domain, cs) =>
    let v := { v with domain }
    match (scanLiteral ':' cs).bind (scanUnsigned 16 2) with
    | none => v
    | some (bus, cs) =>
      let v := { v with bus }
      match (scanLiteral ':' cs).bind (scanUnsigned 16 2) with
      | none => v
      | some (dev, cs) =>
        let v := { v with dev }
        match (scanLiteral '.' cs).bind (scanUnsigned 10 1) with
        | none => v
        | some (func, _) => { v with func }

/-- The entry's numbers are those of the slot asked for. -/
def SlotVars.Matches (v : SlotVars) (s : PciSlot) : Prop :=
  s.dwDomain = v.domain ∧ s.dwBus = v.bus ∧ s.dwSlot = v.dev ∧ s.dwFunction = v.func

instance (v : SlotVars) (s : PciSlot) : Decidable (v.Matches s) :=
  inferInstanceAs (Decidable (_ ∧ _))

/-- The slot that the variables name. -/
def SlotVars.toSlot (v : SlotVars) : PciSlot := ⟨v.domain, v.bus, v.dev, v.func⟩

/-- The system's answers to one `CRONO_KERNEL_PciDeviceOpen` call. -/
structure OpenSys where
  opendir : Except Errno (List Dirent)
  /-- The indeterminate contents of the slot variables. -/
  slotVars : SlotVars
  /-- The address `malloc` returns; 0, or one in use, is `NULL`. -/
  malloc : Addr
  config : List Char → ConfigSys
  /-- The indeterminate contents of `vendor_id` and `device_id`. -/
  ids : Ids
  stat : List Char → Option Errno
  openMisc : List Char → Option Errno
  /-- The value `errno` has where no call failed. -/
  errno : Code
  bars : BarSys

/-- `CRONO_CONSTRUCT_MISCDEV_NAME`: `"crono_%02X_%02X%02X%02X%01X"` in a buffer
of `CRONO_DEV_NAME_MAX_SIZE` bytes. -/
def constructMiscdevName (deviceId : UInt16) (v : SlotVars) : List Char :=
  truncateTo 32 ("crono_".toList ++ printUnsigned true 16 2 deviceId.toNat ++ '_' ::
    (printUnsigned true 16 2 v.domain.toNat ++ printUnsigned true 16 2 v.bus.toNat ++
      printUnsigned true 16 2 v.dev.toNat ++ printUnsigned true 16 1 v.func.toNat))

/-- The `switch (errno)` after the open of the misc device. -/
def openMiscError (errno : Code) : Code :=
  if errno = ebusy then tryAgain
  else if errno = enodev then noDeviceObject
  else insufficientResources

/-- `opendir(SYS_BUS_PCIDEVS_PATH)`, when it succeeds: the stream has a descriptor
of its own. -/
def World.opendir (w : World) : World :=
  { w with dirs := w.dirs + 1, fds := w.fds.install sysBusPcidevsPath }

/-- `closedir(dr)` -/
def World.closedir (w : World) (dr : Nat) : World :=
  { w with dirs := w.dirs - 1, fds := w.fds.close dr }

/-- The label `device_error`: close the directory, free the device, drop it
from the registry. -/
def deviceError (ret : Code) (phDev pDevice : Addr) (dr : Nat) (w : World) :
    Except Fault (Code × Addr × World) := do
  let w := w.closedir dr
  let w ← if pDevice ≠ 0 then w.free pDevice else pure w
  return (ret, phDev, { w with reg := w.reg.pop })

/-- The device as its slot, ids and misc device name are set. -/
def newDevice (slot : PciSlot) (v : SlotVars) (ids : Ids) : KernelDevice :=
  { KernelDevice.zero with
    pciSlot := slot
    dwVendorId := ids.1.toUInt32
    dwDeviceId := ids.2.toUInt32
    miscdevName := constructMiscdevName ids.2 v }

/-- `miscdev_path` -/
def miscdevPath (d : KernelDevice) : List Char := "/dev/".toList ++ d.miscdevName

/-- The end of a successful search: the handle is published, then the BARs are
described, and only then the directory is closed. -/
def describeOpened (sys : OpenSys) (pDevice : Addr) (miscdevFd dr : Nat) (w : World) :
    Except Fault (Code × Addr × World) := do
  let phDev := pDevice
  let (ret, w) ← fillDeviceBarDescriptions sys.bars pDevice w
  if ret ≠ cronoSuccess then
    deviceError ret phDev pDevice dr { w with fds := w.fds.close miscdevFd }
  else return (cronoSuccess, phDev, w.closedir dr)

/-- The body of the match in the directory loop: allocate and register the
device, read its ids, open its misc device and fill its BARs. -/
def openMatched (sys : OpenSys) (slot : PciSlot) (v : SlotVars) (dr : Nat) (w : World) :
    Except Fault (Code × Addr × World) := do
  match w.heap.malloc sys.malloc (.device .zero) with
  | none =>
    -- `malloc` returned `NULL`, which is registered and then cleared
    let _ ← w.reg.push 0
    throw .nullDeref
  | some heap =>
    let pDevice := sys.malloc
    let reg ← w.reg.push pDevice
    let path := constructConfigFilePath v.toSlot
    let (err, ids, fds) := cronoReadVendorDevice path (sys.config path) sys.ids w.fds
    let w := { w with heap, reg, fds }
    if err ≠ cronoSuccess then deviceError tryAgain 0 pDevice dr w
    else
      let d := newDevice slot v ids
      let w := w.setDevice pDevice d
      match sys.stat (miscdevPath d) with
      | some _ => deviceError (0 - einval) 0 pDevice dr w
      | none =>
        match sys.openMisc (miscdevPath d) with
        | some e => deviceError (openMiscError e.code) 0 pDevice dr w
        | none =>
          let miscdevFd := w.fds.lowest
          let w := { w with fds := w.fds.install (miscdevPath d) }
          -- `miscdev_fd <= 0`: descriptor 0 counts as a failure and stays open
          if miscdevFd = 0 then deviceError (openMiscError sys.errno) 0 pDevice dr w
          else describeOpened sys pDevice miscdevFd dr (w.setDevice pDevice { d with miscdevFd })

/-- The directory loop, from the entries not read yet. -/
def openLoop (sys : OpenSys) (slot : PciSlot) (dr : Nat) : List Dirent → SlotVars → World →
    Except Fault (Code × Addr × World)
  | [], _, w => .ok (cronoSuccess, 0, w.closedir dr)
  | en :: ens, v, w =>
    if en.dType ≠ dtLnk then openLoop sys slot dr ens v w
    else
      let v := sscanfSlot en.dName v
      if v.Matches slot then openMatched sys slot v dr w
      else openLoop sys slot dr ens v w

/-- `CRONO_KERNEL_PciDeviceOpen`: the code, what `*phDev` holds afterwards, and
the process. `phDev` and `pDeviceInfo` are `none` for `NULL`, and `phDev` is
otherwise what the caller's variable holds before the call. -/
def pciDeviceOpen (sys : OpenSys) (phDev : Option Addr) (pDeviceInfo : Option PciSlot)
    (w : World) : Except Fault (Code × Option Addr × World) :=
  match phDev, pDeviceInfo with
  | none, _ => .ok (0 - einval, none, w)
  | some h, none => .ok (0 - einval, some h, w)
  | some _, some slot =>
    match sys.opendir with
    | .error e => .ok (e.code, some 0, w)
    | .ok ens => do
      let dr := w.fds.lowest
      let (ret, h, w) ← openLoop sys slot dr ens sys.slotVars w.opendir
      return (ret, some h, w)

/-! ## The name of the misc device -/

/-- `strncpy(dst, src, n)` into a buffer that holds `dst`: `n` characters are
stored, with terminators after the end of `src`, and the buffer has to hold them
all. -/
def strncpy (dst src : List Char) (n : Nat) : Except Fault (List Char) :=
  if n ≤ dst.length then .ok ((List.range n).map (src.getD · nul) ++ dst.drop n)
  else .error (.nameBuffer dst.length)

/-- `CRONO_KERNEL_GetDeviceMiscName`: the code, and the buffer at `pMiscName`
afterwards, `none` for `NULL`. `strncpy` takes `nBuffSize` for an unsigned size,
and nothing else looks at it. -/
def getDeviceMiscName (hDev : Addr) (pMiscName : Option (List Char)) (nBuffSize : Int32)
    (w : World) : Except Fault (Code × Option (List Char)) := do
  match ← w.initHDevFunc hDev with
  | .error ret => return (ret, pMiscName)
  | .ok d =>
    match pMiscName with
    | none => return (0 - einval, none)
    | some buf => do
      let buf ← strncpy buf d.miscdevName nBuffSize.toInt64.toUInt64.toNat
      return (cronoSuccess, some buf)

end CronoPci
