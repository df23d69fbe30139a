import CronoPci.Verify.Contig
import CronoPci.Verify.ScatterGather

/-!
# Debug and release builds

A debug build evaluates the arguments of its messages, and a release build does
not. The messages of the DMA functions read descriptors and the array of pages;
those reads are harmless wherever the function itself goes on to read the same
object. Two places remain where it does not: a contiguous Lock that returns at
once, and an Unlock that returns an error, since it reads the descriptor only
after the module has unlocked the buffer.
-/

namespace CronoPci

open Posix Trans

/-! ## Locks -/

section Lock

variable (hDev : Addr) (size : UInt32) (ppDma : Option Addr) (w : World)

/-- The builds of the contiguous Lock differ on a preallocated buffer only. -/
theorem contigLock_builds (sys : LockSys) (ppBuf : Option Addr) :
    dmaContigBufLock { sys with debug := true } hDev ppBuf size ppDma w =
        dmaContigBufLock { sys with debug := false } hDev ppBuf size ppDma w ↔
      ∀ p, ppDma = some p → p = 0 := by
  cases ppDma with
  | none => exact iff_of_true rfl fun p h => by cases h
  | some p =>
    by_cases hp : p = 0
    · subst hp
      exact iff_of_true rfl fun p h => (Option.some.inj h).symm
    · refine iff_of_false ?_ fun h => hp (h p rfl)
      simp only [dmaContigBufLock, ne_eq, hp, not_false_eq_true, ↓reduceIte, Bool.false_eq_true]
      intro h
      cases h

/-- The messages of the scatter/gather Lock read what the Lock has written. -/
theorem sgLock_builds (sys : SgLockSys) (pBuf : Addr) :
    dmaSgBufLock { sys with debug := true } hDev pBuf size ppDma w =
      dmaSgBufLock { sys with debug := false } hDev pBuf size ppDma w := by
  simp only [dmaSgBufLock, fillPages_range, bind, Except.bind, debugPages_locked]

end Lock

/-! ## Unlocks -/

/-- What both Unlocks do until they read the descriptor: the message of a debug
build reads the id, and only after it the device is looked at and the module
called. -/
def unlockChecked {α : Type} (debug : Bool) (ioctl : Option Errno)
    (deref : World → Addr → Except Fault α) (unlock : α → Except Fault (Code × World))
    (hDev pDma : Addr) (w : World) : Except Fault (Code × World) := do
  match ← w.initHDevFunc hDev with
  | .error ret => return (ret, w)
  | .ok d =>
    if pDma = 0 then return (0 - einval, w)
    else
      if debug then (deref w pDma).map fun _ => () else .ok ()
      if d.miscdevFd = 0 then return (0 - enoent, w)
      else match ioctl with
        | some e => return (e.code, w)
        | none =>
          let c ← deref w pDma
          unlock c

/-- An Unlock of something that is no descriptor, on a valid handle, that returns
an error: the device is not open, or the module refuses. -/
def UnlocksStray {α : Type} (deref : World → Addr → Except Fault α) (ioctl : Option Errno)
    (hDev pDma : Addr) (w : World) : Prop :=
  pDma ≠ 0 ∧ (deref w pDma).isOk = false ∧
    ∃ d, w.device? hDev = some d ∧ d.dwDeviceId ≠ 0 ∧ (d.miscdevFd = 0 ∨ ioctl.isSome)

/-- The builds differ where the message reads what the function does not. -/
theorem unlockChecked_builds {α : Type} (deref : World → Addr → Except Fault α)
    (ioctl : Option Errno) (unlock : α → Except Fault (Code × World)) (hDev pDma : Addr)
    (w : World) :
    unlockChecked true ioctl deref unlock hDev pDma w =
        unlockChecked false ioctl deref unlock hDev pDma w ↔
      ¬UnlocksStray deref ioctl hDev pDma w := by
  simp only [unlockChecked, bind, Except.bind, pure, Except.pure, ↓reduceIte, Bool.false_eq_true]
  cases hinit : w.initHDevFunc hDev with
  | error f =>
    apply iff_of_true rfl
    rintro ⟨-, -, d, hd, -⟩
    rw [initHDevFunc_of_device hd] at hinit
    cases hinit
  | ok r =>
  cases r with
  | error ret =>
    apply iff_of_true rfl
    rintro ⟨-, -, d, hd, hid, -⟩
    exact hid ((initHDevFunc_error hinit).2 d hd)
  | ok d =>
  obtain ⟨hd, hid⟩ := initHDevFunc_ok hinit
  by_cases hp : pDma = 0
  · simp only [hp, ↓reduceIte, true_iff]
    exact fun h => h.1 rfl
  simp only [hp, ↓reduceIte]
  cases hderef : deref w pDma with
  | ok c =>
    apply iff_of_true rfl
    rintro ⟨-, hfails, -⟩
    rw [hderef] at hfails
    cases hfails
  | error f =>
    have hnot : (deref w pDma).isOk = false := by rw [hderef]; rfl
    -- the debug build faults, and the release build only if it gets to the descriptor
    by_cases hfd : d.miscdevFd = 0
    · simp only [hfd, ↓reduceIte, Except.map]
      refine iff_of_false (fun h => by cases h) (not_not.2 ⟨hp, hnot, d, hd, hid, Or.inl hfd⟩)
    · cases ioctl with
      | some e =>
        simp only [hfd, ↓reduceIte, Except.map]
        exact iff_of_false (fun h => by cases h)
          (not_not.2 ⟨hp, hnot, d, hd, hid, Or.inr rfl⟩)
      | none =>
        simp only [hfd, ↓reduceIte, Except.map, true_iff]
        rintro ⟨-, -, d', hd', -, hor⟩
        rw [hd] at hd'
        cases hd'
        rcases hor with hfd' | hsome
        · exact hfd hfd'
        · cases hsome

theorem contigUnlock_builds (sys : UnlockSys) (hDev pDma : Addr) (w : World) :
    dmaContigBufUnlock { sys with debug := true } hDev pDma w =
        dmaContigBufUnlock { sys with debug := false } hDev pDma w ↔
      ¬UnlocksStray World.derefContig sys.ioctl hDev pDma w :=
  unlockChecked_builds World.derefContig sys.ioctl _ hDev pDma w

theorem sgUnlock_builds (sys : SgUnlockSys) (hDev pDma : Addr) (w : World) :
    dmaSgBufUnlock { sys with debug := true } hDev pDma w =
        dmaSgBufUnlock { sys with debug := false } hDev pDma w ↔
      ¬UnlocksStray World.derefSg sys.ioctl hDev pDma w :=
  unlockChecked_builds World.derefSg sys.ioctl _ hDev pDma w

/-! ## The four functions -/

/-- Debug and release builds of the DMA functions agree, except on a contiguous
Lock of a preallocated buffer and on an Unlock of something that is no
descriptor that returns an error because the device is not open or the module
refuses. -/
theorem debug_builds_iff (lock : LockSys) (unlock : UnlockSys) (sgLock : SgLockSys)
    (sgUnlock : SgUnlockSys) (hDev pBuf pDma : Addr) (ppBuf ppDma : Option Addr)
    (size : UInt32) (w : World) :
    (dmaContigBufLock { lock with debug := true } hDev ppBuf size ppDma w =
        dmaContigBufLock { lock with debug := false } hDev ppBuf size ppDma w ↔
      ∀ p, ppDma = some p → p = 0) ∧
    (dmaContigBufUnlock { unlock with debug := true } hDev pDma w =
        dmaContigBufUnlock { unlock with debug := false } hDev pDma w ↔
      ¬UnlocksStray World.derefContig unlock.ioctl hDev pDma w) ∧
    dmaSgBufLock { sgLock with debug := true } hDev pBuf size ppDma w =
      dmaSgBufLock { sgLock with debug := false } hDev pBuf size ppDma w ∧
    (dmaSgBufUnlock { sgUnlock with debug := true } hDev pDma w =
        dmaSgBufUnlock { sgUnlock with debug := false } hDev pDma w ↔
      ¬UnlocksStray World.derefSg sgUnlock.ioctl hDev pDma w) :=
  ⟨contigLock_builds hDev size ppDma w lock ppBuf, contigUnlock_builds unlock hDev pDma w,
    sgLock_builds hDev size ppDma w sgLock pBuf, sgUnlock_builds sgUnlock hDev pDma w⟩

/-- A Lock with the variable of a locked buffer: the message of the debug build
reads through `NULL`, and the release build returns success. -/
theorem preallocated_debug_faults : ∃ s, RetrySession.Reachable 4096 World.oneDevice s ∧
    s.pDma = 32 ∧ s.world.contigId 32 = some 7 ∧
    dmaContigBufLock ⟨true, 4096, .error .noMem, 48, .error .noMem⟩ 16 (some 0) 4096 (some s.pDma)
      s.world = .error .nullDeref ∧
    dmaContigBufLock ⟨false, 4096, .error .noMem, 48, .error .noMem⟩ 16 (some 0) 4096 (some s.pDma)
      s.world = .ok (cronoSuccess, some 0, some s.pDma, s.world) := by
  obtain ⟨s, hs, hp, hid⟩ : ∃ s, RetrySession.Reachable 4096 World.oneDevice s ∧ s.pDma = 32 ∧
      s.world.contigId 32 = some 7 :=
    exists_reach_of_run [.small (.ok (7, 0x10000)) (.ok 65536)] (by decide)
  refine ⟨s, hs, hp, hid, ?_, ?_⟩
  · rw [hp]
    rfl
  · rw [hp]
    rfl

end CronoPci
