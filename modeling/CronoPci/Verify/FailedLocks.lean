import CronoPci.Verify.Contig
import CronoPci.Verify.ScatterGather

/-!
# What a failed Lock leaves in `*ppDma`

Both Lock functions set `*ppDma` before their last steps, and do not set it back
when one of these fails. `sgLock_out` says what the scatter/gather Lock leaves
in the variable; for the contiguous one `LockResult` does. A failure leaves the
variable alone except at the points after it is set.
-/

namespace CronoPci

open Posix

/-! ## The scatter/gather Lock -/

/-- `malloc` gives out the block at `a`, which is not one of `taken`. -/
def World.Allocates (w : World) (taken : List Addr) (a : Addr) : Prop :=
  a ≠ 0 ∧ w.heap.get a = none ∧ a ∉ taken

/-- The arguments pass the checks. -/
def SgAccepts (hDev pBuf : Addr) (size : UInt32) (ppDma : Option Addr) (w : World) : Prop :=
  (∃ d, w.device? hDev = some d ∧ d.dwDeviceId ≠ 0 ∧ d.miscdevFd ≠ 0) ∧ pBuf ≠ 0 ∧
    ppDma ≠ none ∧ size ≠ 0

/-- The arguments pass and the first two blocks are allocated: `*ppDma` is set. -/
def SgPublishes (sys : SgLockSys) (hDev pBuf : Addr) (size : UInt32) (ppDma : Option Addr)
    (w : World) : Prop :=
  SgAccepts hDev pBuf size ppDma w ∧ w.Allocates [] sys.mallocDma ∧
    w.Allocates [sys.mallocDma] sys.mallocPage

/-- The third block is not allocated, or the module refuses the buffer. -/
def SgFailsAfter (sys : SgLockSys) (w : World) : Prop :=
  ¬w.Allocates [sys.mallocDma, sys.mallocPage] sys.mallocPages ∨
    (w.kernel.lockSg sys.ioctl).isOk = false

section Out

variable {sys : SgLockSys} {hDev pBuf : Addr} {size : UInt32} {ppDma p : Option Addr}
  {w w' : World} {ret : Code}

/-- What a Lock that returns leaves in the variable. -/
theorem sgLock_out (h : dmaSgBufLock sys hDev pBuf size ppDma w = .ok (ret, p, w')) :
    (SgPublishes sys hDev pBuf size ppDma w ∧ p = some sys.mallocDma ∧
        (ret = cronoSuccess ↔ ¬SgFailsAfter sys w)) ∨
      (¬SgPublishes sys hDev pBuf size ppDma w ∧ p = ppDma ∧ ret ≠ cronoSuccess) := by
  -- an exit before the variable is set
  have hexit {code : Code} (hcode : code ≠ cronoSuccess)
      (hnot : ¬SgPublishes sys hDev pBuf size ppDma w)
      (he : (.ok (code, ppDma, w) : Except Fault _) = .ok (ret, p, w')) :
      ¬SgPublishes sys hDev pBuf size ppDma w ∧ p = ppDma ∧ ret ≠ cronoSuccess := by
    cases he
    exact ⟨hnot, rfl, hcode⟩
  have hstart : w.heap.Takes [] w.heap := .refl _
  unfold dmaSgBufLock at h
  obtain ⟨r, hinit, h⟩ := bind_eq_ok h
  cases r with
  | error code =>
    obtain ⟨hcode, hzero⟩ := initHDevFunc_error hinit
    refine Or.inr (hexit hcode ?_ h)
    rintro ⟨⟨⟨d, hd, hid, -⟩, -⟩, -⟩
    exact hid (hzero d hd)
  | ok d =>
  obtain ⟨hd, hid⟩ := initHDevFunc_ok hinit
  simp only at h
  split at h
  · next hbuf => exact Or.inr (hexit (by decide) (fun hp => hp.1.2.1 hbuf) h)
  next hbuf =>
  split at h
  · next hnone =>
    exact Or.inr (hexit (by decide) (fun hp => hp.1.2.2.1 (Option.isNone_iff_eq_none.1 hnone)) h)
  next hsome =>
  split at h
  · next hsize => exact Or.inr (hexit (by decide) (fun hp => hp.1.2.2.2 hsize) h)
  next hsize =>
  split at h
  · next hfd =>
    refine Or.inr (hexit (by decide) ?_ h)
    rintro ⟨⟨⟨d', hd', -, hfd'⟩, -⟩, -⟩
    rw [hd] at hd'
    cases hd'
    exact hfd' hfd
  next hfd =>
  have haccepts : SgAccepts hDev pBuf size ppDma w :=
    ⟨⟨d, hd, hid, hfd⟩, hbuf, by simpa using hsome, hsize⟩
  split at h
  · next hdma => exact Or.inr (hexit (by decide) (fun hp => hstart.not_of_malloc hdma hp.2.1) h)
  next heap₁ hdma =>
  have htakes₁ := hstart.malloc hdma
  split at h
  · next hpage =>
    obtain ⟨w₁, -, h⟩ := bind_eq_ok h
    cases h
    exact Or.inr ⟨fun hp => htakes₁.not_of_malloc hpage hp.2.2, rfl, by decide⟩
  next heap₂ hpage =>
  have hpub : SgPublishes sys hDev pBuf size ppDma w :=
    ⟨haccepts, hstart.of_malloc hdma, htakes₁.of_malloc hpage⟩
  have htakes₂ := (htakes₁.malloc hpage).set (a := sys.mallocDma)
    (b := .sg ⟨pBuf, divRoundUp size sys.pageSize, sys.mallocPage, 0⟩)
  -- from here on the variable has the new address
  refine Or.inl ⟨hpub, ?_⟩
  split at h
  · next hpages =>
    obtain ⟨w₁, -, h⟩ := bind_eq_ok h
    obtain ⟨w₂, -, h⟩ := bind_eq_ok h
    cases h
    exact ⟨rfl, iff_of_false (by decide) (not_not.2 (Or.inl (htakes₂.not_of_malloc hpages)))⟩
  next heap₄ hpages =>
  have hpagesAlloc : w.Allocates [sys.mallocDma, sys.mallocPage] sys.mallocPages :=
    htakes₂.of_malloc hpages
  split at h
  · next e hlock =>
    obtain ⟨w₁, -, h⟩ := bind_eq_ok h
    obtain ⟨w₂, -, h⟩ := bind_eq_ok h
    obtain ⟨w₃, -, h⟩ := bind_eq_ok h
    cases h
    refine ⟨rfl, iff_of_false e.ne_zero (not_not.2 (Or.inr ?_))⟩
    rw [hlock]
    rfl
  · next id phys kernel hlock =>
    obtain ⟨filled, -, h⟩ := bind_eq_ok h
    obtain ⟨u, -, h⟩ := bind_eq_ok h
    obtain ⟨w₁, -, h⟩ := bind_eq_ok h
    cases h
    refine ⟨rfl, iff_of_true rfl ?_⟩
    rintro (hnot | hrefused)
    · exact hnot hpagesAlloc
    · rw [hlock] at hrefused
      cases hrefused

/-- Every failure leaves the variable as it was. -/
def SgKeepsOut (sys : SgLockSys) (hDev pBuf : Addr) (size : UInt32) (ppDma : Option Addr)
    (w : World) : Prop :=
  ∀ ret p w', dmaSgBufLock sys hDev pBuf size ppDma w = .ok (ret, p, w') → ret ≠ cronoSuccess →
    p = ppDma

/-- A Lock that sets the variable returns. -/
theorem SgPublishes.returns (h : SgPublishes sys hDev pBuf size ppDma w) :
    ∃ r, dmaSgBufLock sys hDev pBuf size ppDma w = .ok r := by
  obtain ⟨⟨⟨d, hd, -⟩, -⟩, -⟩ := h
  have hr := sgLock_result sys hDev pBuf size ppDma w
  generalize dmaSgBufLock sys hDev pBuf size ppDma w = r at hr
  cases hr with
  | badHandle hbad =>
    rw [initHDevFunc_of_device hd] at hbad
    cases hbad
  | failed => exact ⟨_, rfl⟩
  | locked => exact ⟨_, rfl⟩

theorem sgKeepsOut_iff : SgKeepsOut sys hDev pBuf size ppDma w ↔
    (SgPublishes sys hDev pBuf size ppDma w → SgFailsAfter sys w →
      ppDma = some sys.mallocDma) := by
  constructor
  · intro hkeeps hpub hfails
    obtain ⟨⟨ret, p, w'⟩, h⟩ := hpub.returns
    rcases sgLock_out h with ⟨-, hp, hret⟩ | ⟨hnot, -⟩
    · exact (hkeeps ret p w' h fun hs => hret.1 hs hfails).symm.trans hp
    · exact absurd hpub hnot
  · intro hcond ret p w' h hret
    rcases sgLock_out h with ⟨hpub, hp, hiff⟩ | ⟨-, hp, -⟩
    · rw [hp, hcond hpub (by_contra fun hnot => hret (hiff.2 hnot))]
    · exact hp

end Out

/-! ## The contiguous Lock -/

/-- Every failure of a Lock with a null variable leaves it null. -/
def LockCall.KeepsOut (c : LockCall) (w : World) : Prop :=
  ∀ ret buf p w', c.exec 0 w = .ok (ret, buf, p, w') → ret ≠ cronoSuccess → p = some 0

theorem LockCall.keepsOut_iff (c : LockCall) (w : World) : c.KeepsOut w ↔ ¬c.MapFails w := by
  have hr := lock_result c.sys c.hDev c.ppBuf c.dwDMABufSize w
  unfold KeepsOut exec MapFails
  generalize dmaContigBufLock c.sys c.hDev c.ppBuf c.dwDMABufSize (some 0) w = r at hr
  cases hr with
  | badHandle hbad =>
    refine iff_of_true (fun _ _ _ _ h => by cases h) ?_
    cases hgrant : lockGranted c.sys c.hDev c.ppBuf c.dwDMABufSize w with
    | none => exact not_false
    | some g =>
      rw [initHDevFunc_of_device (lockGranted_eq_some.1 hgrant).1] at hbad
      cases hbad
  | refused hgrant =>
    rw [hgrant]
    refine iff_of_true (fun _ _ _ _ h _ => ?_) not_false
    cases h
    rfl
  | noMemory hgrant hmalloc =>
    rw [hgrant]
    refine iff_of_true (fun _ _ _ _ h _ => ?_) ?_
    · cases h
      rfl
    · rintro ⟨hne, hfresh, -⟩
      rcases hmalloc with h0 | hused
      · exact hne h0
      · exact hused hfresh
  | noMap hgrant hne hfresh hmap =>
    rw [hgrant]
    refine iff_of_false ?_ (not_not.2 ⟨hne, hfresh, hmap⟩)
    intro h
    exact hne (Option.some.inj (h _ _ _ _ rfl (by decide)))
  | locked hgrant _ _ hmap =>
    rw [hgrant]
    refine iff_of_true (fun _ _ _ _ h hret => ?_) ?_
    · cases h
      exact absurd rfl hret
    · rintro ⟨-, -, hfails⟩
      rw [hmap] at hfails
      cases hfails

/-! ## Both -/

/-- A failed Lock leaves `*ppDma` as it was, except where the scatter/gather Lock
fails after its first two allocations and the contiguous one in `mmap`. -/
theorem failed_lock_keeps_iff (sys : SgLockSys) (hDev pBuf : Addr) (size : UInt32)
    (ppDma : Option Addr) (c : LockCall) (w : World) :
    (SgKeepsOut sys hDev pBuf size ppDma w ↔
      (SgPublishes sys hDev pBuf size ppDma w → SgFailsAfter sys w →
        ppDma = some sys.mallocDma)) ∧
    (c.KeepsOut w ↔ ¬c.MapFails w) :=
  ⟨sgKeepsOut_iff, c.keepsOut_iff w⟩

/-- The module refuses a scatter/gather buffer, and `mmap` a contiguous one: the
variable that was null has the address of a freed block. -/
theorem failed_locks_hand_out :
    (∃ w', dmaSgBufLock ⟨false, 4096, smallPage_pos, .error .minusOne, 32, 33, 34, fun _ => ⟨0, 0⟩,
        fun _ => 0⟩ 16 1000 4096 (some 0) .oneDevice = .ok (0 - 1, some 32, w') ∧
      w'.heap.get 32 = none) ∧
    ∃ w', (LockCall.small (.ok (7, 0x10000)) (.error .noMem)).exec 0 .oneDevice =
        .ok (0 - enomem, some 0, some 32, w') ∧ w'.heap.get 32 = none :=
  ⟨⟨_, rfl, rfl⟩, _, rfl, rfl⟩

end CronoPci
