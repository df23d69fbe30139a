import CronoPci.Model.Base
import CronoPci.Posix.Text

/-!
# Access to sysfs

The functions of `sysfs.cpp` that reading a device's ids and finding its
directory need: the paths built from a slot, the chunked read of the
configuration file, and the resolution of the device's symbolic link.
-/

namespace CronoPci

open Posix Posix.Text

/-! ## Paths -/

/-- `PATH_MAX` -/
def pathMax : Nat := 4096

/-- `SYS_BUS_PCIDEVS_PATH` -/
def sysBusPcidevsPath : List Char := "/sys/bus/pci/devices".toList

/-- `"%0{width}x:%02x:%02x.%1u"` of a slot. -/
def slotText (width : Nat) (s : PciSlot) : List Char :=
  printUnsigned false 16 width s.dwDomain.toNat ++ ':' ::
    (printUnsigned false 16 2 s.dwBus.toNat ++ ':' ::
      (printUnsigned false 16 2 s.dwSlot.toNat ++ '.' ::
        printUnsigned false 10 1 s.dwFunction.toNat))

/-- `CRONO_CONSTRUCT_CONFIG_FILE_PATH` -/
def constructConfigFilePath (s : PciSlot) : List Char :=
  truncateTo pathMax
    (if s.dwDomain ≤ 0xFFFF then sysBusPcidevsPath ++ '/' :: (slotText 4 s ++ "/config".toList)
    else sysBusPcidevsPath ++ '/' :: (slotText 1 s ++ "/config".toList))

/-- `CRONO_CONSTRUCT_DEV_SLINK_PATH` -/
def constructDevSlinkPath (s : PciSlot) : List Char :=
  truncateTo pathMax
    (if s.dwDomain ≤ 0xFFFF then sysBusPcidevsPath ++ '/' :: slotText 4 s
    else sysBusPcidevsPath ++ '/' :: slotText 1 s)

/-! ## Reading the configuration space -/

/-- The outcome of one `pread64`: an error, or the number of bytes the kernel
is ready to transfer. -/
inductive Transfer
  | fail (e : Errno)
  | count (n : Nat)

/-- A configuration file as one call finds it: whether it opens, its bytes, and
the outcomes of the reads in order. -/
structure ConfigSys where
  openErr : Option Errno
  content : Nat → UInt8
  pread : Nat → Transfer

/-- Copy `n` bytes of a file at `offset` to a buffer at `cursor`. -/
def copyBytes (content : Nat → UInt8) (offset cursor n : Nat) (data : Nat → UInt8) : Nat → UInt8 :=
  fun i => if cursor ≤ i ∧ i < cursor + n then content (offset + (i - cursor)) else data i

/-- The `while (temp_size > 0)` loop from the `k`-th read on: the error, the
size left and the buffer. Each chunk takes at least a byte, so `fuel` of the
size asked for is enough. -/
def readLoop (sys : ConfigSys) : (fuel k tempSize offset cursor : Nat) → (Nat → UInt8) →
    Code × Nat × (Nat → UInt8)
  | 0, _, tempSize, _, _, data => (cronoSuccess, tempSize, data)
  | fuel + 1, k, tempSize, offset, cursor, data =>
    if tempSize = 0 then (cronoSuccess, tempSize, data)
    else match sys.pread k with
      | .fail e => (e.code, tempSize, data)
      | .count n =>
        let bytes := min n tempSize
        -- zero bytes are taken for the end of the file
        if bytes = 0 then (cronoSuccess, tempSize, data)
        else readLoop sys fuel (k + 1) (tempSize - bytes) (offset + bytes) (cursor + bytes)
          (copyBytes sys.content offset cursor bytes data)

structure ReadResult where
  err : Code
  bytesRead : Nat
  data : Nat → UInt8
  fds : FdTable

/-- `crono_read_config`, with the path of the configuration file. -/
def cronoReadConfig (configFilePath : List Char) (sys : ConfigSys) (data : Nat → UInt8)
    (offset size : Nat) (fds : FdTable) : ReadResult :=
  match sys.openErr with
  | some e => ⟨e.code, 0, data, fds⟩
  | none =>
    let fd := fds.lowest
    let (err, tempSize, data) := readLoop sys size 0 size offset 0 data
    ⟨err, size - tempSize, data, (fds.install configFilePath).close fd⟩

/-- The little-endian `uint32_t` at the start of a buffer. -/
def loadUInt32 (data : Nat → UInt8) : UInt32 :=
  UInt32.ofNat ((data 0).toNat + 2 ^ 8 * (data 1).toNat + 2 ^ 16 * (data 2).toNat +
    2 ^ 24 * (data 3).toNat)

/-- Vendor and device id. -/
abbrev Ids := UInt16 × UInt16

/-- `crono_read_vendor_device`. The outputs keep what they held, `ids`, unless
all four bytes were read; a short read without an error still returns
`CRONO_SUCCESS`. -/
def cronoReadVendorDevice (configFilePath : List Char) (sys : ConfigSys) (ids : Ids)
    (fds : FdTable) : Code × Ids × FdTable :=
  let r := cronoReadConfig configFilePath sys (fun _ => 0) 0 4 fds
  if r.bytesRead ≠ 4 ∨ r.err ≠ 0 then (r.err, ids, r.fds)
  else
    let v := loadUInt32 r.data
    (r.err, ((v &&& 0xFFFF).toUInt16, (v >>> 16).toUInt16), r.fds)

/-! ## The directory of a device -/

/-- The terminator of a C string. -/
def nul : Char := Char.ofNat 0

/-- The C string at the start of a buffer. -/
def cString (buffer : List Char) : List Char := buffer.takeWhile (· ≠ nul)

/-- `crono_get_sys_devices_directory_path`, with the answer of `readlink` and
the indeterminate contents `linkBuf` of `dev_slink_content_path`. A link that
fills the buffer has its terminator stored past the end. -/
def cronoGetSysDevicesDirectoryPath (readlink : List Char → Except Errno (List Char))
    (linkBuf : List Char) (s : PciSlot) : Except Fault (Except Code (List Char)) :=
  match readlink (constructDevSlinkPath s) with
  | .error e => .ok (.error e.code)
  | .ok target =>
    let content := target.take (pathMax - 16)
    let len := content.length
    if len < pathMax - 16 then
      .ok (.ok ("/sys/".toList ++
        cString ((content ++ nul :: linkBuf.drop (len + 1)).drop 9)))
    else .error (.linkBuffer len)

end CronoPci
