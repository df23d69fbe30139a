import CronoPci.Posix.AddressSpace
import CronoPci.Posix.Descriptors
import CronoPci.Posix.Heap
import Mathlib.Data.Finset.Insert

/-!
# The process that uses the library

Return codes, the structures of the headers, the registry `devices`/`iNewDev`,
and the state of a process that calls the library: its heap, descriptor table
and address space, the registry, and the part of the kernel module that the
library talks to.

A call returns or faults. A `Fault` is an operation without defined behaviour:
a dereference of `NULL` or of a block that is not allocated, a `free` of such a
block, an index outside an array. Nothing follows a fault.
-/

namespace CronoPci

open Posix

/-! ## Return codes -/

/-- The `uint32_t` results; negative codes wrap. -/
abbrev Code := UInt32

def cronoSuccess : Code := 0
def enoent : Code := 2
def ebadf : Code := 9
def enomem : Code := 12
def ebusy : Code := 16
def enodev : Code := 19
def einval : Code := 22

/-- `CRONO_KERNEL_INSUFFICIENT_RESOURCES` -/
def insufficientResources : Code := 0x20000005
/-- `CRONO_KERNEL_TRY_AGAIN` -/
def tryAgain : Code := 0x2000001d
/-- `CRONO_KERNEL_NO_DEVICE_OBJECT` -/
def noDeviceObject : Code := 0x20000023

/-- The value of `errno` after a failed call, which is not 0. -/
structure Errno where
  code : Code
  ne_zero : code ≠ 0
  deriving DecidableEq

namespace Errno

/-- `ENOENT` -/
def noEnt : Errno := ⟨enoent, by decide⟩
/-- `EBADF` -/
def badF : Errno := ⟨ebadf, by decide⟩
/-- `ENOMEM` -/
def noMem : Errno := ⟨enomem, by decide⟩
/-- `EINVAL` -/
def inval : Errno := ⟨einval, by decide⟩
/-- The result -1 of a system call. -/
def minusOne : Errno := ⟨0 - 1, by decide⟩

end Errno

inductive Fault
  /-- `NULL` is dereferenced. -/
  | nullDeref
  /-- The address dereferenced is not that of an allocated block of the type. -/
  | badPointer (a : Addr)
  /-- `free` of an address that is no allocated block. -/
  | badFree (a : Addr)
  /-- `devices[i]` outside the array. -/
  | devicesIndex (i : Nat)
  /-- `bar_descs[i]` outside the array. -/
  | barIndex (i : Nat)
  /-- `Page[i]` outside the array. -/
  | pageIndex (i : Nat)
  /-- `Cmd[i]` or `cmds[i]` outside the array. -/
  | cmdIndex (i : Nat)
  /-- `deviceId[i]` and `deviceSlot[i]` outside the arrays. -/
  | scanIndex (i : Nat)
  /-- A store past the end of `dev_slink_content_path`. -/
  | linkBuffer (i : Nat)
  /-- `pMiscName[i]` outside the caller's buffer. -/
  | nameBuffer (i : Nat)
  /-- An access to device memory that no mapping covers. -/
  | unmapped (a : Addr)
  deriving DecidableEq

/-- A program that returns `b` after `x` got through `x`. -/
theorem bind_eq_ok {α β : Type} {x : Except Fault α} {f : α → Except Fault β} {b : β}
    (h : (x >>= f) = .ok b) : ∃ a, x = .ok a ∧ f a = .ok b := by
  cases x with
  | error e => cases h
  | ok a => exact ⟨a, rfl, h⟩

/-- The fault that a call ends in, if any. -/
def faultIn {α : Type} : Except Fault α → Option Fault
  | .error f => some f
  | .ok _ => none

theorem faultIn_eq_some {α : Type} {x : Except Fault α} {f : Fault} :
    faultIn x = some f ↔ x = .error f := by
  cases x <;> simp [faultIn]

/-! ## Structures of the headers -/

/-- `CRONO_KERNEL_PCI_SLOT` -/
structure PciSlot where
  dwDomain : UInt32
  dwBus : UInt32
  dwSlot : UInt32
  dwFunction : UInt32
  deriving DecidableEq

/-- `CRONO_KERNEL_BAR_DESC` -/
structure BarDesc where
  barNum : Nat
  flags : UInt32
  userAddress : Addr
  physicalAddress : UInt64
  length : UInt32
  deriving DecidableEq

/-- An entry after `memset`. -/
def BarDesc.zero : BarDesc := ⟨0, 0, 0, 0, 0⟩

/-- `bar_descs` and `bar_count`: the count never exceeds the array. -/
structure BarTable where
  barDescs : Vector BarDesc 6
  barCount : Nat
  le : barCount ≤ 6

namespace BarTable

def empty : BarTable := ⟨Vector.replicate 6 .zero, 0, by omega⟩

/-- Fill the element at `bar_count` and count it. -/
def push (t : BarTable) (desc : BarDesc) (h : t.barCount < 6) : BarTable :=
  ⟨t.barDescs.set t.barCount desc, t.barCount + 1, h⟩

/-- `bar_descs[ibar].userAddress = 0` -/
def clearAddress (t : BarTable) (ibar : Fin 6) : BarTable :=
  { t with barDescs := t.barDescs.set ibar { t.barDescs.get ibar with userAddress := 0 } }

/-- `bar_count = 0` -/
def clearCount (t : BarTable) : BarTable := { t with barCount := 0, le := Nat.zero_le 6 }

/-- The indices that `for (ibar = 0; ibar < bar_count; ibar++)` visits. -/
def indices (t : BarTable) : List (Fin 6) := (List.finRange 6).take t.barCount

end BarTable

/-- `CRONO_KERNEL_DEVICE` -/
structure KernelDevice where
  pciSlot : PciSlot
  dwVendorId : UInt32
  dwDeviceId : UInt32
  bars : BarTable
  miscdevName : List Char
  miscdevFd : Nat

/-- A device after `memset`. -/
def KernelDevice.zero : KernelDevice := ⟨⟨0, 0, 0, 0⟩, 0, 0, .empty, [], 0⟩

/-- `CRONO_KERNEL_DMA_CONTIG` -/
structure DmaContig where
  pUserAddr : Addr
  dwBytes : UInt32
  pPhysicalAddr : UInt64
  id : Int
  deriving DecidableEq

/-- `CRONO_KERNEL_DMA_PAGE` -/
structure DmaPage where
  pPhysicalAddr : UInt64
  dwBytes : UInt32
  deriving DecidableEq

/-- `CRONO_KERNEL_DMA_SG` -/
structure DmaSg where
  pUserAddr : Addr
  dwPages : UInt32
  page : Addr
  id : Int
  deriving DecidableEq

/-- `CRONO_KERNEL_CMD` -/
structure KernelCmd where
  addr : UInt32
  data : UInt32
  deriving DecidableEq

/-- The contents of a heap block, by the type it was allocated for. -/
inductive Block
  | device (d : KernelDevice)
  | contig (c : DmaContig)
  | sg (c : DmaSg)
  /-- The array `Page` of a descriptor. -/
  | pages (ps : List DmaPage)
  /-- The array `pages` that is lent to the kernel module. -/
  | physAddrs (as : List UInt64)
  /-- The array `cmds` that is lent to the kernel module. -/
  | cmds (cs : List KernelCmd)

/-- What a region maps: the file of a path, from an offset on. -/
structure MapSource where
  path : List Char
  offset : Int
  deriving DecidableEq

abbrev Space := AddressSpace MapSource

/-! ## The registry -/

/-- `devices` and `iNewDev`: the index never exceeds the array. -/
structure Registry where
  devices : Vector Addr 8
  iNewDev : Nat
  le : iNewDev ≤ 8

namespace Registry

/-- The zero-initialised globals. -/
def empty : Registry := ⟨Vector.replicate 8 0, 0, by omega⟩

/-- `devices[iNewDev++] = pDevice` -/
def push (r : Registry) (pDevice : Addr) : Except Fault Registry :=
  if h : r.iNewDev < 8 then .ok ⟨r.devices.set r.iNewDev pDevice, r.iNewDev + 1, h⟩
  else .error (.devicesIndex r.iNewDev)

/-- `iNewDev--` -/
def pop (r : Registry) : Registry :=
  { r with iNewDev := r.iNewDev - 1, le := Nat.le_trans (Nat.sub_le ..) r.le }

/-- `iNewDev = 0` -/
def reset (r : Registry) : Registry := { r with iNewDev := 0, le := Nat.zero_le 8 }

/-- `a` stands in `devices[0..iNewDev)`. -/
def Holds (r : Registry) (a : Addr) : Prop := ∃ i, i < r.iNewDev ∧ r.devices[i]? = some a

instance (r : Registry) (a : Addr) : Decidable (r.Holds a) :=
  inferInstanceAs (Decidable (∃ i, i < r.iNewDev ∧ r.devices[i]? = some a))

/-- The non-null entries in range are pairwise distinct. -/
def Distinct (r : Registry) : Prop :=
  ∀ i j a, i < r.iNewDev → j < r.iNewDev → r.devices[i]? = some a → r.devices[j]? = some a →
    a ≠ 0 → i = j

end Registry

/-! ## The process -/

/-- The kernel module: the ids of the contiguous and of the scatter/gather
buffers it holds locked. -/
structure KernelModule where
  contigLocked : Finset Int
  sgLocked : Finset Int

structure World where
  heap : Heap Block
  fds : FdTable
  /-- The number of open directory streams. -/
  dirs : Nat
  space : Space
  reg : Registry
  kernel : KernelModule
  /-- The bytes behind mapped addresses. -/
  mem : Addr → UInt8

namespace World

def device? (w : World) (p : Addr) : Option KernelDevice :=
  match w.heap.get p with
  | some (.device d) => some d
  | _ => none

def contig? (w : World) (p : Addr) : Option DmaContig :=
  match w.heap.get p with
  | some (.contig c) => some c
  | _ => none

def sg? (w : World) (p : Addr) : Option DmaSg :=
  match w.heap.get p with
  | some (.sg c) => some c
  | _ => none

/-- The array of pages at `p`. -/
def pages? (w : World) (p : Addr) : Option (List DmaPage) :=
  match w.heap.get p with
  | some (.pages ps) => some ps
  | _ => none

/-- The array of commands at `p`. -/
def cmds? (w : World) (p : Addr) : Option (List KernelCmd) :=
  match w.heap.get p with
  | some (.cmds cs) => some cs
  | _ => none

/-- `*pDevice` -/
def derefDevice (w : World) (p : Addr) : Except Fault KernelDevice :=
  if p = 0 then .error .nullDeref
  else match w.device? p with
    | some d => .ok d
    | none => .error (.badPointer p)

/-- `*pDma` for a contiguous buffer. -/
def derefContig (w : World) (p : Addr) : Except Fault DmaContig :=
  if p = 0 then .error .nullDeref
  else match w.contig? p with
    | some c => .ok c
    | none => .error (.badPointer p)

/-- `*pDma` for a scatter/gather buffer. -/
def derefSg (w : World) (p : Addr) : Except Fault DmaSg :=
  if p = 0 then .error .nullDeref
  else match w.sg? p with
    | some c => .ok c
    | none => .error (.badPointer p)

/-- `*pDevice = d` -/
def setDevice (w : World) (p : Addr) (d : KernelDevice) : World :=
  { w with heap := w.heap.set p (.device d) }

/-- `free(p)` -/
def free (w : World) (p : Addr) : Except Fault World :=
  match w.heap.free p with
  | some heap => .ok { w with heap }
  | none => .error (.badFree p)

/-- An allocated block can be freed. -/
theorem exists_free {w : World} {p : Addr} (hb : (w.heap.get p).isSome) :
    ∃ heap, w.free p = .ok { w with heap } ∧ heap.get = Function.update w.heap.get p none := by
  obtain ⟨heap, hheap⟩ := Heap.exists_free hb
  refine ⟨heap, ?_, (Heap.free_eq_some.1 hheap).2.1⟩
  unfold free
  rw [hheap]

theorem device?_eq_some {w : World} {p : Addr} {d : KernelDevice} :
    w.device? p = some d ↔ w.heap.get p = some (.device d) := by
  unfold device?
  split <;> simp_all

theorem contig?_eq_some {w : World} {p : Addr} {c : DmaContig} :
    w.contig? p = some c ↔ w.heap.get p = some (.contig c) := by
  unfold contig?
  split <;> simp_all

theorem sg?_eq_some {w : World} {p : Addr} {c : DmaSg} :
    w.sg? p = some c ↔ w.heap.get p = some (.sg c) := by
  unfold sg?
  split <;> simp_all

theorem pages?_eq_some {w : World} {p : Addr} {ps : List DmaPage} :
    w.pages? p = some ps ↔ w.heap.get p = some (.pages ps) := by
  unfold pages?
  split <;> simp_all

theorem cmds?_eq_some {w : World} {p : Addr} {cs : List KernelCmd} :
    w.cmds? p = some cs ↔ w.heap.get p = some (.cmds cs) := by
  unfold cmds?
  split <;> simp_all

theorem derefDevice_eq_ok {w : World} {p : Addr} {d : KernelDevice} :
    w.derefDevice p = .ok d ↔ w.device? p = some d := by
  unfold derefDevice
  by_cases hp : p = 0
  · subst hp
    simp [device?, w.heap.null]
  · rw [if_neg hp]
    cases w.device? p <;> simp

theorem derefContig_eq_ok {w : World} {p : Addr} {c : DmaContig} :
    w.derefContig p = .ok c ↔ w.contig? p = some c := by
  unfold derefContig
  by_cases hp : p = 0
  · subst hp
    simp [contig?, w.heap.null]
  · rw [if_neg hp]
    cases w.contig? p <;> simp

theorem derefSg_eq_ok {w : World} {p : Addr} {c : DmaSg} :
    w.derefSg p = .ok c ↔ w.sg? p = some c := by
  unfold derefSg
  by_cases hp : p = 0
  · subst hp
    simp [sg?, w.heap.null]
  · rw [if_neg hp]
    cases w.sg? p <;> simp

/-- `CRONO_INIT_HDEV_FUNC(hDev)`: the device of a valid handle, or the code
that the function returns at once. -/
def initHDevFunc (w : World) (hDev : Addr) : Except Fault (Except Code KernelDevice) :=
  if hDev = 0 then .ok (.error (0 - einval))
  else do
    let d ← w.derefDevice hDev
    if d.dwDeviceId = 0 then return .error (0 - einval) else return .ok d

end World

theorem initHDevFunc_of_device {w : World} {p : Addr} {d : KernelDevice}
    (hd : w.device? p = some d) : w.initHDevFunc p =
      .ok (if d.dwDeviceId = 0 then .error (0 - einval) else .ok d) := by
  have hp : p ≠ 0 := Heap.ne_zero_of_get (World.device?_eq_some.1 hd)
  unfold World.initHDevFunc
  rw [if_neg hp, World.derefDevice_eq_ok.2 hd]
  simp only [bind, Except.bind, pure, Except.pure]
  split <;> rfl

theorem initHDevFunc_ok {w : World} {p : Addr} {d : KernelDevice}
    (h : w.initHDevFunc p = .ok (.ok d)) : w.device? p = some d ∧ d.dwDeviceId ≠ 0 := by
  unfold World.initHDevFunc at h
  split at h
  · cases h
  · obtain ⟨d', hd', h⟩ := bind_eq_ok h
    rw [World.derefDevice_eq_ok] at hd'
    split at h
    · cases h
    · next hid =>
      cases h
      exact ⟨hd', hid⟩

theorem initHDevFunc_error {w : World} {p : Addr} {ret : Code}
    (h : w.initHDevFunc p = .ok (.error ret)) :
    ret ≠ cronoSuccess ∧ ∀ d, w.device? p = some d → d.dwDeviceId = 0 := by
  have hret : (0 - einval : Code) ≠ cronoSuccess := by decide
  unfold World.initHDevFunc at h
  split at h
  · next h0 =>
    cases h
    refine ⟨hret, ?_⟩
    intro d hd
    exact absurd h0 (Heap.ne_zero_of_get (World.device?_eq_some.1 hd))
  · obtain ⟨d', hd', h⟩ := bind_eq_ok h
    rw [World.derefDevice_eq_ok] at hd'
    split at h
    · next hid =>
      cases h
      refine ⟨hret, ?_⟩
      intro d hd
      rw [hd'] at hd
      cases hd
      exact hid
    · cases h

/-- A mapping at the kernel's choice: an address, or a failure. A length of 0 and
a region the kernel cannot map there are failures too. -/
def mmapAt (choice : Except Errno Addr) (len : Nat) (source : MapSource) (space : Space) :
    Except Errno (Addr × Space) :=
  match choice with
  | .error e => .error e
  | .ok a =>
    match space.mmap ⟨a, len, source⟩ with
    | some space => .ok (a, space)
    | none => .error (if len = 0 then .inval else .noMem)

/-- `mmap(NULL, len, ..., fd, offset)`: the file open under `fd` is mapped. -/
def mmapFd (choice : Except Errno Addr) (len : Nat) (fds : FdTable) (fd : Nat) (offset : Int)
    (space : Space) : Except Errno (Addr × Space) :=
  match fds.file fd with
  | none => .error .badF
  | some f => mmapAt choice len ⟨fds.path f, offset⟩ space

end CronoPci
