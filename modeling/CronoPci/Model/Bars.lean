import CronoPci.Model.Sysfs

/-!
# BAR descriptions

`fill_device_bar_descriptions` reads the six lines of a device's `resource`
file, maps the file `resource<N>` of each BAR that exists, and stores the table
of the BARs found, compacted, in the device.
-/

namespace CronoPci

open Posix Posix.Text

/-! ## Extracting numbers from the `resource` stream -/

/-- A `std::ifstream`: the characters not read yet, and `failbit`. -/
structure HexStream where
  rest : List Char
  fail : Bool

/-- `>> std::hex >> v` for an `unsigned long long` that holds `v`. A stream that
has failed, or has nothing but white space left, leaves the variable as it is; a
field without digits sets it to 0, one that does not fit to the largest value. -/
def HexStream.extract (s : HexStream) (v : UInt64) : UInt64 × HexStream :=
  if s.fail then (v, s)
  else
    let cs := s.rest.dropWhile isSpace
    if cs = [] then (v, ⟨[], true⟩)
    else
      let (neg, ds, rest) := takeNumber 16 cs.length cs
      let n := digitsValue 16 ds
      if ds = [] then (0, ⟨rest, true⟩)
      else (UInt64.ofNat (toUInt64Value neg n), ⟨rest, decide (2 ^ 64 ≤ n)⟩)

/-- `start_addr`, `end_addr` and `flags` -/
structure ResourceRow where
  startAddr : UInt64
  endAddr : UInt64
  flags : UInt64
  deriving DecidableEq

/-- Extract the three numbers of a line into variables that hold `uninit`. -/
def HexStream.readRow (s : HexStream) (uninit : ResourceRow) : ResourceRow × HexStream :=
  let (startAddr, s) := s.extract uninit.startAddr
  let (endAddr, s) := s.extract uninit.endAddr
  let (flags, s) := s.extract uninit.flags
  (⟨startAddr, endAddr, flags⟩, s)

/-- The line stands for a BAR that does not exist. -/
def ResourceRow.Absent (row : ResourceRow) : Prop := row.startAddr = 0 ∧ row.endAddr = 0

instance (row : ResourceRow) : Decidable row.Absent := inferInstanceAs (Decidable (_ ∧ _))

/-- The 64-bit size of the BAR, stored in a 32-bit field. -/
def ResourceRow.length (row : ResourceRow) : UInt32 := (row.endAddr - row.startAddr + 1).toUInt32

/-! ## Filling the table -/

/-- The system's answers to one `fill_device_bar_descriptions` call. -/
structure BarSys where
  readlink : List Char → Except Errno (List Char)
  linkBuf : List Char
  openResource : List Char → Option Errno
  streamOpens : Bool
  /-- The text of the `resource` file. -/
  text : List Char
  /-- What the variables of each iteration hold before the extractions. -/
  uninit : Fin 6 → ResourceRow
  openBar : List Char → Option Errno
  mmap : Fin 6 → Except Errno Addr

/-- `resource_file_path` -/
def resourceFilePath (dir : List Char) : List Char := dir ++ "/resource".toList

/-- `bar_resource_file_path` -/
def barResourceFilePath (dir : List Char) (ibar : Fin 6) : List Char :=
  dir ++ "/resource".toList ++ printUnsigned false 10 1 ibar

/-- The loop over the BAR numbers, with `temp_bar_descs` and `bar_count` in
`t`: the filled table or the error returned, after its cleanup of the
descriptor of the BAR file. -/
def fillBars (sys : BarSys) (dir : List Char) : List (Fin 6) → HexStream → BarTable → FdTable →
    Space → Except Fault (Except Code BarTable × FdTable × Space)
  | [], _, t, fds, space => .ok (.ok t, fds, space)
  | ibar :: ibars, s, t, fds, space =>
    let row := (s.readRow (sys.uninit ibar)).1
    let s := (s.readRow (sys.uninit ibar)).2
    if row.Absent then fillBars sys dir ibars s t fds space
    else if h : t.barCount < 6 then
      match sys.openBar (barResourceFilePath dir ibar) with
      | some e => .ok (.error e.code, fds, space)
      | none =>
        let barResourceFd := fds.lowest
        let fds := fds.install (barResourceFilePath dir ibar)
        match mmapFd (sys.mmap ibar) row.length.toNat fds barResourceFd 0 space with
        | .error e => .ok (.error e.code, fds.close barResourceFd, space)
        | .ok (userAddr, space) =>
          fillBars sys dir ibars s (t.push ⟨ibar, 0, userAddr, row.startAddr, row.length⟩ h)
            (fds.close barResourceFd) space
    else .error (.barIndex t.barCount)

/-- `fill_device_bar_descriptions` -/
def fillDeviceBarDescriptions (sys : BarSys) (pDevice : Addr) (w : World) :
    Except Fault (Code × World) :=
  if pDevice = 0 then .ok (0 - einval, w)
  else do
    let d ← w.derefDevice pDevice
    -- descriptions that are set already stay
    if 0 < d.bars.barCount then return (cronoSuccess, w)
    else
      match ← cronoGetSysDevicesDirectoryPath sys.readlink sys.linkBuf d.pciSlot with
      | .error ret => return (ret, w)
      | .ok dir =>
        match sys.openResource (resourceFilePath dir) with
        | some e => return (e.code, w)
        | none =>
          let resourceFd := w.fds.lowest
          let fds := w.fds.install (resourceFilePath dir)
          if sys.streamOpens then
            let streamFd := fds.lowest
            let fds := fds.install (resourceFilePath dir)
            let (table, fds, space) ←
              fillBars sys dir (List.finRange 6) ⟨sys.text, false⟩ .empty fds w.space
            let w := { w with fds := (fds.close streamFd).close resourceFd, space }
            match table with
            | .error ret => return (ret, w)
            | .ok bars => return (cronoSuccess, w.setDevice pDevice { d with bars })
          else return (0 - einval, { w with fds := fds.close resourceFd })

/-- `CRONO_KERNEL_GetBarDescriptions`; the caller's outputs are `none` for
`NULL`. -/
def getBarDescriptions (sys : BarSys) (hDev : Addr) (barCount : Option Nat)
    (barDescs : Option (Vector BarDesc 6)) (w : World) :
    Except Fault (Code × Option Nat × Option (Vector BarDesc 6) × World) := do
  match ← w.initHDevFunc hDev with
  | .error ret => return (ret, barCount, barDescs, w)
  | .ok _ =>
    if barCount.isNone ∨ barDescs.isNone then return (0 - einval, barCount, barDescs, w)
    else
      let (ret, w) ← fillDeviceBarDescriptions sys hDev w
      if ret ≠ cronoSuccess then return (ret, barCount, barDescs, w)
      else
        let d ← w.derefDevice hDev
        return (cronoSuccess, some d.bars.barCount, some d.bars.barDescs, w)

end CronoPci
