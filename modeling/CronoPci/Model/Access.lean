import CronoPci.Model.Base
import Mathlib.Algebra.Group.Nat.Defs

/-!
# Reading and writing device memory

The ten accessors of the BARs. Four read and four write through the first entry
of the BAR table; `CRONO_KERNEL_ReadAddr` and `CRONO_KERNEL_WriteAddr` take the
index of an entry. A call returns, with its results, the bytes of device memory
that it accessed. `CRONO_KERNEL_GetDeviceBARMem` hands the first entry out.
-/

namespace CronoPci

open Posix

/-! ## Device memory -/

/-- The `width` bytes from `addr` on. -/
structure Touch where
  addr : Addr
  width : Nat
  deriving DecidableEq

/-- The byte at `i` is one of them. -/
def Touch.Covers (t : Touch) (i : Addr) : Prop := t.addr ≤ i ∧ i < t.addr + t.width

/-- The little-endian value of `n` bytes. -/
def loadBytes (mem : Addr → UInt8) (a : Addr) : (n : Nat) → Nat
  | 0 => 0
  | n + 1 => (mem a).toNat + 2 ^ 8 * loadBytes mem (a + 1) n

def storeBytes (mem : Addr → UInt8) (a : Addr) (n v : Nat) : Addr → UInt8 :=
  fun i => if a ≤ i ∧ i < a + n then UInt8.ofNat (v / 2 ^ (8 * (i - a))) else mem i

namespace World

/-- Every byte of the range is mapped. -/
def Mapped (w : World) (t : Touch) : Prop :=
  ∀ k, k < t.width → ∃ m ∈ w.space.maps, m.Covers (t.addr + k) 1

instance (w : World) (t : Touch) : Decidable (w.Mapped t) :=
  inferInstanceAs (Decidable (∀ k, k < t.width → ∃ m ∈ w.space.maps, m.Covers (t.addr + k) 1))

/-- `*(volatile T *)addr` for an integer type of `n` bytes. -/
def load (w : World) (a : Addr) (n : Nat) : Except Fault (BitVec (8 * n)) :=
  if w.Mapped ⟨a, n⟩ then .ok (.ofNat _ (loadBytes w.mem a n)) else .error (.unmapped a)

/-- `*(volatile T *)addr = v` -/
def store (w : World) (a : Addr) (n : Nat) (v : BitVec (8 * n)) : Except Fault World :=
  if w.Mapped ⟨a, n⟩ then .ok { w with mem := storeBytes w.mem a n v.toNat }
  else .error (.unmapped a)

end World

/-! ## Accessors of the first entry -/

/-- The size of a pointer, which `sizeof(val)` is where `val` is one. -/
def sizeofPointer : UInt64 := 8

/-- The check of `CRONO_VALIDATE_MEM_RANGE`, a 64-bit sum against a 32-bit
length: the range does not fit. -/
def ExceedsRange (dwOffset : UInt32) (sizeofVal : UInt64) (desc : BarDesc) : Prop :=
  dwOffset.toUInt64 + sizeofVal > desc.length.toUInt64

instance (dwOffset : UInt32) (sizeofVal : UInt64) (desc : BarDesc) :
    Decidable (ExceedsRange dwOffset sizeofVal desc) :=
  inferInstanceAs (Decidable (_ > _))

/-- `CRONO_KERNEL_ReadAddr8` to `64`, for a value of `n` bytes. `val` is the
caller's variable, `none` for `NULL`; `sizeof(val)` is the size of the pointer. -/
def readAddrN (n : Nat) (hDev : Addr) (dwOffset : UInt32) (val : Option (BitVec (8 * n)))
    (w : World) : Except Fault (Code × Option (BitVec (8 * n)) × List Touch) := do
  match ← w.initHDevFunc hDev with
  | .error ret => return (ret, val, [])
  | .ok d =>
    let desc := d.bars.barDescs.get 0
    if val.isNone then return (0 - enomem, val, [])
    else if ExceedsRange dwOffset sizeofPointer desc then return (0 - enomem, val, [])
    else
      let a := desc.userAddress + dwOffset.toNat
      let v ← w.load a n
      return (cronoSuccess, some v, [⟨a, n⟩])

def readAddr8 := readAddrN 1
def readAddr16 := readAddrN 2
def readAddr32 := readAddrN 4
def readAddr64 := readAddrN 8

/-- `CRONO_KERNEL_WriteAddr8` to `64`, for a value of `n` bytes. -/
def writeAddrN (n : Nat) (hDev : Addr) (dwOffset : UInt32) (val : BitVec (8 * n)) (w : World) :
    Except Fault (Code × List Touch × World) := do
  match ← w.initHDevFunc hDev with
  | .error ret => return (ret, [], w)
  | .ok d =>
    let desc := d.bars.barDescs.get 0
    if ExceedsRange dwOffset (.ofNat n) desc then return (0 - enomem, [], w)
    else
      let a := desc.userAddress + dwOffset.toNat
      let w ← w.store a n val
      return (cronoSuccess, [⟨a, n⟩], w)

def writeAddr8 := writeAddrN 1
def writeAddr16 := writeAddrN 2
def writeAddr32 := writeAddrN 4
def writeAddr64 := writeAddrN 8

/-! ## Accessors by index -/

/-- `pDevice->bar_descs[barIndex]` -/
def KernelDevice.barDesc (d : KernelDevice) (barIndex : UInt32) : Except Fault BarDesc :=
  if h : barIndex.toNat < 6 then .ok (d.bars.barDescs.get ⟨barIndex.toNat, h⟩)
  else .error (.barIndex barIndex.toNat)

/-- `CRONO_KERNEL_ReadAddr`. Unlike its siblings it does not check `val`; the
size it checks is again that of the pointer. -/
def readAddr (hDev : Addr) (dwOffset : UInt32) (val : Option (BitVec 32)) (barIndex : UInt32)
    (w : World) : Except Fault (Code × Option (BitVec 32) × List Touch) := do
  match ← w.initHDevFunc hDev with
  | .error ret => return (ret, val, [])
  | .ok d =>
    let desc ← d.barDesc barIndex
    if ExceedsRange dwOffset sizeofPointer desc then return (0 - enomem, val, [])
    else
      let a := desc.userAddress + dwOffset.toNat
      let v ← w.load a 4
      match val with
      | none => throw .nullDeref
      | some _ => return (cronoSuccess, some v, [⟨a, 4⟩])

/-- `CRONO_KERNEL_WriteAddr` -/
def writeAddr (hDev : Addr) (dwOffset : UInt32) (val : BitVec 32) (barIndex : UInt32)
    (w : World) : Except Fault (Code × List Touch × World) := do
  match ← w.initHDevFunc hDev with
  | .error ret => return (ret, [], w)
  | .ok d =>
    let desc ← d.barDesc barIndex
    if ExceedsRange dwOffset 4 desc then return (0 - enomem, [], w)
    else
      let a := desc.userAddress + dwOffset.toNat
      let w ← w.store a 4 val
      return (cronoSuccess, [⟨a, 4⟩], w)

/-! ## The window of the first entry -/

/-- `CRONO_KERNEL_GetDeviceBARMem`: the code, and what `*pBARUSAddr` and
`*pBARMemSize` hold afterwards, `none` for `NULL`. -/
def getDeviceBarMem (hDev : Addr) (pBARUSAddr : Option Addr) (pBARMemSize : Option UInt64)
    (w : World) : Except Fault (Code × Option Addr × Option UInt64) := do
  match ← w.initHDevFunc hDev with
  | .error ret => return (ret, pBARUSAddr, pBARMemSize)
  | .ok d =>
    if pBARUSAddr.isNone then return (0 - einval, pBARUSAddr, pBARMemSize)
    else if pBARMemSize.isNone then return (0 - einval, pBARUSAddr, pBARMemSize)
    else
      let desc := d.bars.barDescs.get 0
      return (cronoSuccess, some desc.userAddress, some desc.length.toUInt64)

/-! ## A call of any accessor -/

/-- A call of one of the ten accessors, with its arguments but the handle and
the offset. -/
inductive Accessor
  | readAddr8 (val : Option (BitVec 8))
  | readAddr16 (val : Option (BitVec 16))
  | readAddr32 (val : Option (BitVec 32))
  | readAddr64 (val : Option (BitVec 64))
  | writeAddr8 (val : BitVec 8)
  | writeAddr16 (val : BitVec 16)
  | writeAddr32 (val : BitVec 32)
  | writeAddr64 (val : BitVec 64)
  | readAddr (val : Option (BitVec 32)) (barIndex : UInt32)
  | writeAddr (val : BitVec 32) (barIndex : UInt32)

/-- The code, the bytes accessed and the process after the call. -/
def Accessor.call (hDev : Addr) (dwOffset : UInt32) (w : World) :
    Accessor → Except Fault (Code × List Touch × World)
  | .readAddr8 val => (CronoPci.readAddr8 hDev dwOffset val w).map fun r => (r.1, r.2.2, w)
  | .readAddr16 val => (CronoPci.readAddr16 hDev dwOffset val w).map fun r => (r.1, r.2.2, w)
  | .readAddr32 val => (CronoPci.readAddr32 hDev dwOffset val w).map fun r => (r.1, r.2.2, w)
  | .readAddr64 val => (CronoPci.readAddr64 hDev dwOffset val w).map fun r => (r.1, r.2.2, w)
  | .writeAddr8 val => CronoPci.writeAddr8 hDev dwOffset val w
  | .writeAddr16 val => CronoPci.writeAddr16 hDev dwOffset val w
  | .writeAddr32 val => CronoPci.writeAddr32 hDev dwOffset val w
  | .writeAddr64 val => CronoPci.writeAddr64 hDev dwOffset val w
  | .readAddr val barIndex =>
    (CronoPci.readAddr hDev dwOffset val barIndex w).map fun r => (r.1, r.2.2, w)
  | .writeAddr val barIndex => CronoPci.writeAddr hDev dwOffset val barIndex w

/-- The code, the value in the caller's variable after a read, and the process
after the call. -/
def Accessor.exec (hDev : Addr) (dwOffset : UInt32) (w : World) :
    Accessor → Except Fault (Code × Option Nat × World)
  | .readAddr8 val =>
    (CronoPci.readAddr8 hDev dwOffset val w).map fun r => (r.1, r.2.1.map BitVec.toNat, w)
  | .readAddr16 val =>
    (CronoPci.readAddr16 hDev dwOffset val w).map fun r => (r.1, r.2.1.map BitVec.toNat, w)
  | .readAddr32 val =>
    (CronoPci.readAddr32 hDev dwOffset val w).map fun r => (r.1, r.2.1.map BitVec.toNat, w)
  | .readAddr64 val =>
    (CronoPci.readAddr64 hDev dwOffset val w).map fun r => (r.1, r.2.1.map BitVec.toNat, w)
  | .writeAddr8 val => (CronoPci.writeAddr8 hDev dwOffset val w).map fun r => (r.1, none, r.2.2)
  | .writeAddr16 val => (CronoPci.writeAddr16 hDev dwOffset val w).map fun r => (r.1, none, r.2.2)
  | .writeAddr32 val => (CronoPci.writeAddr32 hDev dwOffset val w).map fun r => (r.1, none, r.2.2)
  | .writeAddr64 val => (CronoPci.writeAddr64 hDev dwOffset val w).map fun r => (r.1, none, r.2.2)
  | .readAddr val barIndex =>
    (CronoPci.readAddr hDev dwOffset val barIndex w).map fun r =>
      (r.1, r.2.1.map BitVec.toNat, w)
  | .writeAddr val barIndex =>
    (CronoPci.writeAddr hDev dwOffset val barIndex w).map fun r => (r.1, none, r.2.2)

end CronoPci
