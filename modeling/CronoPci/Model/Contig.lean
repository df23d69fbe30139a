import CronoPci.Model.Base
import Mathlib.Data.Finset.Erase

/-!
# Contiguous DMA buffers

`CRONO_KERNEL_DMAContigBufLock` and `CRONO_KERNEL_DMAContigBufUnlock`, with the
two `ioctl` calls of the kernel module that they make: the first locks a buffer
under a new id, the second unlocks it.
-/

namespace CronoPci

open Posix

namespace KernelModule

/-- `IOCTL_CRONO_LOCK_CONTIG_BUFFER` with the module's reply: a result other
than 0, or the id of the buffer and its DMA address. An id that is in use is no
reply of the module and counts as the failure -1. -/
def lockContig (k : KernelModule) (reply : Except Errno (Int × UInt64)) :
    Except Errno (Int × UInt64 × KernelModule) :=
  match reply with
  | .error e => .error e
  | .ok (id, dmaHandle) =>
    if id ∈ k.contigLocked then .error .minusOne
    else .ok (id, dmaHandle, { k with contigLocked := insert id k.contigLocked })

/-- `IOCTL_CRONO_UNLOCK_CONTIG_BUFFER`, when it returns 0. -/
def unlockContig (k : KernelModule) (id : Int) : KernelModule :=
  { k with contigLocked := k.contigLocked.erase id }

end KernelModule

/-- The system's answers to one `CRONO_KERNEL_DMAContigBufLock` call, and
whether the library is built with `CRONO_DEBUG_ENABLED`. -/
structure LockSys where
  debug : Bool
  /-- `sysconf(_SC_PAGE_SIZE)` -/
  pageSize : Nat
  ioctl : Except Errno (Int × UInt64)
  /-- The address `malloc` returns; 0, or one in use, is `NULL`. -/
  malloc : Addr
  mmap : Except Errno Addr

/-- `CRONO_KERNEL_DMAContigBufLock`: the code, what `*ppBuf` and `*ppDma` hold
afterwards, and the process. `ppBuf` and `ppDma` are `none` for `NULL`;
`dwOptions` is not read. -/
def dmaContigBufLock (sys : LockSys) (hDev : Addr) (ppBuf : Option Addr) (dwDMABufSize : UInt32)
    (ppDma : Option Addr) (w : World) :
    Except Fault (Code × Option Addr × Option Addr × World) :=
  match ppDma with
  | none => .ok (0 - einval, ppBuf, none, w)
  | some pDma =>
    if pDma ≠ 0 then
      -- the message of the preallocated path reads the id through the local
      -- `pDma`, which is `NULL` there
      if sys.debug then .error .nullDeref else .ok (cronoSuccess, ppBuf, some pDma, w)
    else do
      match ← w.initHDevFunc hDev with
      | .error ret => return (ret, ppBuf, some 0, w)
      | .ok d =>
        if ppBuf.isNone then return (0 - einval, ppBuf, some 0, w)
        else if dwDMABufSize = 0 then return (0 - einval, ppBuf, some 0, w)
        else if d.miscdevFd = 0 then return (0 - enoent, ppBuf, some 0, w)
        else match w.kernel.lockContig sys.ioctl with
          | .error e => return (e.code, ppBuf, some 0, w)
          | .ok (id, dmaHandle, kernel) =>
            let w := { w with kernel }
            let c : DmaContig := ⟨0, dwDMABufSize, dmaHandle, id⟩
            match w.heap.malloc sys.malloc (.contig c) with
            | none => return (0 - enomem, ppBuf, some 0, w)
            | some heap =>
              let pDma := sys.malloc
              let w := { w with heap }
              match mmapFd sys.mmap dwDMABufSize.toNat w.fds d.miscdevFd (id * sys.pageSize)
                  w.space with
              | .error _ =>
                -- the block is freed, but `*ppDma` was set before
                let w ← w.free pDma
                return (0 - enomem, ppBuf, some pDma, w)
              | .ok (pUserAddr, space) =>
                let heap := w.heap.set pDma (.contig { c with pUserAddr })
                return (cronoSuccess, some pUserAddr, some pDma, { w with heap, space })

/-- The system's answers to one `CRONO_KERNEL_DMAContigBufUnlock` call. -/
structure UnlockSys where
  debug : Bool
  ioctl : Option Errno
  munmap : Option Errno

/-- `CRONO_DEBUG("Buffer: id <%d>", pDma->id)` -/
def debugId (debug : Bool) (pDma : Addr) (w : World) : Except Fault Unit :=
  if debug then (w.derefContig pDma).map fun _ => () else .ok ()

/-- `CRONO_KERNEL_DMAContigBufUnlock` -/
def dmaContigBufUnlock (sys : UnlockSys) (hDev pDma : Addr) (w : World) :
    Except Fault (Code × World) := do
  match ← w.initHDevFunc hDev with
  | .error ret => return (ret, w)
  | .ok d =>
    if pDma = 0 then return (0 - einval, w)
    else
      debugId sys.debug pDma w
      if d.miscdevFd = 0 then return (0 - enoent, w)
      else
        -- the module gets the address of the id, and `*pDma` is read afterwards
        match sys.ioctl with
        | some e => return (e.code, w)
        | none =>
          let c ← w.derefContig pDma
          let w := { w with kernel := w.kernel.unlockContig c.id }
          -- a failed `munmap` is reported and otherwise ignored
          let w := if sys.munmap.isNone then
              { w with space := w.space.munmap c.pUserAddr c.dwBytes.toNat }
            else w
          let w ← w.free pDma
          return (cronoSuccess, w)

end CronoPci
