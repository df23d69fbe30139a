import CronoPci.Model.Base
import Mathlib.Data.Finset.Erase

/-!
# Scatter/gather DMA buffers

`CRONO_KERNEL_DMASGBufLock` and `CRONO_KERNEL_DMASGBufUnlock`. A Lock allocates
a descriptor, its array of pages and an array of addresses that it lends to the
kernel module, which locks the caller's buffer and fills the addresses in.
-/

namespace CronoPci

open Posix

namespace KernelModule

/-- `IOCTL_CRONO_LOCK_BUFFER` with the module's reply: a result other than 0, or
the id of the buffer and the physical addresses of its pages. An id that is in
use is no reply of the module and counts as the failure -1. -/
def lockSg (k : KernelModule) (reply : Except Errno (Int × (Nat → UInt64))) :
    Except Errno (Int × (Nat → UInt64) × KernelModule) :=
  match reply with
  | .error e => .error e
  | .ok (id, phys) =>
    if id ∈ k.sgLocked then .error .minusOne
    else .ok (id, phys, { k with sgLocked := insert id k.sgLocked })

/-- `IOCTL_CRONO_UNLOCK_BUFFER`, when it returns 0. -/
def unlockSg (k : KernelModule) (id : Int) : KernelModule :=
  { k with sgLocked := k.sgLocked.erase id }

end KernelModule

/-! ## Locking -/

/-- The system's answers to one `CRONO_KERNEL_DMASGBufLock` call, and whether
the library is built with `CRONO_DEBUG_ENABLED`. -/
structure SgLockSys where
  debug : Bool
  /-- `sysconf(_SC_PAGE_SIZE)` -/
  pageSize : Nat
  pageSize_pos : 0 < pageSize
  ioctl : Except Errno (Int × (Nat → UInt64))
  /-- The addresses `malloc` returns for the descriptor, its `Page` array and
  the `pages` array; 0, or one in use, is `NULL`. -/
  mallocDma : Addr
  mallocPage : Addr
  mallocPages : Addr
  /-- The indeterminate contents of the two arrays. -/
  uninitPage : Nat → DmaPage
  uninitPages : Nat → UInt64

/-- `DIV_ROUND_UP` of an `uint32_t` and a `long`, in 64 bits. -/
def divRoundUp (n : UInt32) (d : Nat) : UInt32 := .ofNat ((n.toNat + d - 1) / d)

/-- The loop that fills `Page`, for `n` pages from `iPage` on. The size of each
page is the literal 4096. -/
def fillPages (pages : List UInt64) : (n iPage : Nat) → List DmaPage →
    Except Fault (List DmaPage)
  | 0, _, page => .ok page
  | n + 1, iPage, page =>
    match pages[iPage]? with
    | none => .error (.pageIndex iPage)
    | some a =>
      if iPage < page.length then fillPages pages n (iPage + 1) (page.set iPage ⟨a, 4096⟩)
      else .error (.pageIndex iPage)

/-- The debug messages with the addresses of the first five pages. -/
def debugPages (debug : Bool) (dwPages : UInt32) (page : List DmaPage) : Except Fault Unit :=
  if debug ∧ page.length < min dwPages.toNat 5 then .error (.pageIndex page.length) else .ok ()

/-- `CRONO_KERNEL_DMASGBufLock`: the code, what `*ppDma` holds afterwards, and
the process. `pBuf` is 0 and `ppDma` is `none` for `NULL`; `dwOptions` is not
read. -/
def dmaSgBufLock (sys : SgLockSys) (hDev pBuf : Addr) (dwDMABufSize : UInt32)
    (ppDma : Option Addr) (w : World) : Except Fault (Code × Option Addr × World) := do
  match ← w.initHDevFunc hDev with
  | .error ret => return (ret, ppDma, w)
  | .ok d =>
    if pBuf = 0 then return (0 - einval, ppDma, w)
    else if ppDma.isNone then return (0 - einval, ppDma, w)
    else if dwDMABufSize = 0 then return (0 - einval, ppDma, w)
    else if d.miscdevFd = 0 then return (0 - enoent, ppDma, w)
    else
      let dwPages := divRoundUp dwDMABufSize sys.pageSize
      let c : DmaSg := ⟨pBuf, dwPages, 0, 0⟩
      match w.heap.malloc sys.mallocDma (.sg c) with
      | none => return (0 - enomem, ppDma, w)
      | some heap =>
        let pDma := sys.mallocDma
        match heap.malloc sys.mallocPage
            (.pages ((List.range dwPages.toNat).map sys.uninitPage)) with
        | none =>
          let w ← { w with heap }.free pDma
          return (0 - enomem, ppDma, w)
        | some heap =>
          let page := sys.mallocPage
          let heap := heap.set pDma (.sg { c with page })
          -- `*ppDma` is set here and stays whatever follows
          match heap.malloc sys.mallocPages
              (.physAddrs ((List.range dwPages.toNat).map sys.uninitPages)) with
          | none =>
            let w ← { w with heap }.free page
            let w ← w.free pDma
            return (0 - enomem, some pDma, w)
          | some heap =>
            let pages := sys.mallocPages
            match w.kernel.lockSg sys.ioctl with
            | .error e =>
              let w ← { w with heap }.free page
              let w ← w.free pDma
              let w ← w.free pages
              return (e.code, some pDma, w)
            | .ok (id, phys, kernel) =>
              let filled ← fillPages ((List.range dwPages.toNat).map phys) dwPages.toNat 0
                ((List.range dwPages.toNat).map sys.uninitPage)
              let heap := (heap.set pDma (.sg { c with page, id })).set page (.pages filled)
              debugPages sys.debug dwPages filled
              let w ← { w with heap, kernel }.free pages
              return (cronoSuccess, some pDma, w)

/-! ## Unlocking -/

/-- The system's answer to one `CRONO_KERNEL_DMASGBufUnlock` call. -/
structure SgUnlockSys where
  debug : Bool
  ioctl : Option Errno

/-- `CRONO_DEBUG("Buffer: id <%d>", pDma->id)` -/
def debugSgId (debug : Bool) (pDma : Addr) (w : World) : Except Fault Unit :=
  if debug then (w.derefSg pDma).map fun _ => () else .ok ()

/-- `CRONO_KERNEL_DMASGBufUnlock` -/
def dmaSgBufUnlock (sys : SgUnlockSys) (hDev pDma : Addr) (w : World) :
    Except Fault (Code × World) := do
  match ← w.initHDevFunc hDev with
  | .error ret => return (ret, w)
  | .ok d =>
    if pDma = 0 then return (0 - einval, w)
    else
      debugSgId sys.debug pDma w
      if d.miscdevFd = 0 then return (0 - enoent, w)
      else
        -- the module gets the address of the id, and `*pDma` is read afterwards
        match sys.ioctl with
        | some e => return (e.code, w)
        | none =>
          let c ← w.derefSg pDma
          let w := { w with kernel := w.kernel.unlockSg c.id }
          let w ← if c.page ≠ 0 then
              (w.free c.page).map fun w =>
                { w with heap := w.heap.set pDma (.sg { c with page := 0 }) }
            else pure w
          let w ← w.free pDma
          return (cronoSuccess, w)

end CronoPci
