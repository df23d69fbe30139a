import CronoPci.Model.Sysfs

/-!
# Access to the configuration space

`CRONO_KERNEL_PciReadCfg32` and `CRONO_KERNEL_PciWriteCfg32`, and the functions
of `sysfs.cpp` that they need beyond the read of the file: the size of the
configuration space and the chunked write.
-/

namespace CronoPci

open Posix

/-- The system's answers to one access, by the path of the configuration file. -/
structure CfgSys where
  /-- The size of the file. -/
  stat : List Char → Except Errno UInt64
  /-- The file, and the outcomes of the calls that transfer. -/
  config : List Char → ConfigSys

/-- `crono_get_config_space_size` -/
def cronoGetConfigSpaceSize (sys : CfgSys) (s : PciSlot) : Except Code UInt64 :=
  match sys.stat (constructConfigFilePath s) with
  | .error e => .error e.code
  | .ok size => .ok size

/-- The loop of `crono_write_config`: that of `crono_read_config`, with the
bytes going from the buffer to the file. -/
def writeLoop (pwrite : Nat → Transfer) (fuel k tempSize offset cursor : Nat)
    (data file : Nat → UInt8) : Code × Nat × (Nat → UInt8) :=
  readLoop ⟨none, data, pwrite⟩ fuel k tempSize cursor offset file

structure WriteResult where
  err : Code
  bytesWritten : Nat
  /-- The bytes of the file afterwards. -/
  content : Nat → UInt8
  fds : FdTable

/-- `crono_write_config`, with the path of the configuration file. -/
def cronoWriteConfig (configFilePath : List Char) (sys : ConfigSys) (data : Nat → UInt8)
    (offset size : Nat) (fds : FdTable) : WriteResult :=
  match sys.openErr with
  | some e => ⟨e.code, 0, sys.content, fds⟩
  | none =>
    let fd := fds.lowest
    let (err, tempSize, content) := writeLoop sys.pread size 0 size offset 0 data sys.content
    ⟨err, size - tempSize, content, (fds.install configFilePath).close fd⟩

/-- The bytes of a `uint32_t`, little-endian. -/
def storeUInt32 (v : UInt32) (i : Nat) : UInt8 := UInt8.ofNat (v.toNat / 2 ^ (8 * i))

/-- `config_space_size < dwOffset + sizeof(val)`, a 64-bit sum. -/
def ExceedsConfig (configSpaceSize : UInt64) (dwOffset : UInt32) : Prop :=
  configSpaceSize < dwOffset.toUInt64 + 4

instance (configSpaceSize : UInt64) (dwOffset : UInt32) :
    Decidable (ExceedsConfig configSpaceSize dwOffset) :=
  inferInstanceAs (Decidable (_ < _))

/-- `CRONO_KERNEL_PciReadCfg32`. `val` is what the caller's variable holds, and
`none` for `NULL`. -/
def pciReadCfg32 (sys : CfgSys) (hDev : Addr) (dwOffset : UInt32) (val : Option UInt32)
    (w : World) : Except Fault (Code × Option UInt32 × World) := do
  match ← w.initHDevFunc hDev with
  | .error ret => return (ret, val, w)
  | .ok d =>
    match val with
    | none => return (0 - einval, none, w)
    | some v =>
      match cronoGetConfigSpaceSize sys d.pciSlot with
      | .error ret => return (ret, some v, w)
      | .ok size =>
        if ExceedsConfig size dwOffset then return (0 - einval, some v, w)
        else
          let path := constructConfigFilePath d.pciSlot
          let r := cronoReadConfig path (sys.config path) (storeUInt32 v) dwOffset.toNat 4 w.fds
          let w := { w with fds := r.fds }
          if r.bytesRead ≠ 4 ∨ r.err ≠ 0 then return (r.err, some (loadUInt32 r.data), w)
          else return (cronoSuccess, some (loadUInt32 r.data), w)

/-- `CRONO_KERNEL_PciWriteCfg32`, with the bytes of the configuration file
afterwards. -/
def pciWriteCfg32 (sys : CfgSys) (hDev : Addr) (dwOffset val : UInt32) (w : World) :
    Except Fault (Code × (List Char → Nat → UInt8) × World) := do
  let content := fun path => (sys.config path).content
  match ← w.initHDevFunc hDev with
  | .error ret => return (ret, content, w)
  | .ok d =>
    match cronoGetConfigSpaceSize sys d.pciSlot with
    | .error ret => return (ret, content, w)
    | .ok size =>
      if ExceedsConfig size dwOffset then return (0 - einval, content, w)
      else
        let path := constructConfigFilePath d.pciSlot
        let r :=
          cronoWriteConfig path (sys.config path) (storeUInt32 val) dwOffset.toNat 4 w.fds
        let content := Function.update content path r.content
        let w := { w with fds := r.fds }
        if r.bytesWritten ≠ 4 ∨ r.err ≠ 0 then return (r.err, content, w)
        else return (cronoSuccess, content, w)

end CronoPci
