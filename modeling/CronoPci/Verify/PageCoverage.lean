import CronoPci.Verify.ScatterGather

/-!
# The pages of a locked buffer

A Lock counts the pages of a buffer from its size alone, and writes 4096 into
each entry whatever the page size is. The entries cover the buffer where its
start is far enough from the end of its page.
-/

namespace CronoPci

open Posix

/-- The entries are one for each page touched, and their sizes reach from the
start of the first page to the end of the buffer. -/
structure PagesCover (pageSize : Nat) (pBuf : Addr) (size : UInt32) (c : DmaSg)
    (page : List DmaPage) : Prop where
  count : c.dwPages.toNat = (pagesTouched pageSize pBuf size.toNat).card
  bytes : pBuf % pageSize + size.toNat ≤ (page.map fun p => p.dwBytes.toNat).sum

/-- The buffer lies in the first 4096 bytes of a page, or pages have 4096 bytes
and the offset of the start leaves the count as it is. -/
def StartFits (pageSize : Nat) (pBuf : Addr) (size : UInt32) : Prop :=
  pBuf % pageSize + size.toNat ≤ 4096 ∨
    pageSize = 4096 ∧ pBuf % pageSize + (size.toNat - 1) % 4096 < 4096

instance (pageSize : Nat) (pBuf : Addr) (size : UInt32) :
    Decidable (StartFits pageSize pBuf size) :=
  inferInstanceAs (Decidable (_ ∨ _))

/-- The rounding division stays in 32 bits. -/
theorem toNat_divRoundUp {n : UInt32} {d : Nat} (hn : n ≠ 0) (hd : 0 < d) :
    (divRoundUp n d).toNat = (n.toNat - 1) / d + 1 := by
  have hpos : 0 < n.toNat := Nat.pos_of_ne_zero fun h => hn (UInt32.toNat_inj.1 h)
  have hlt := n.toNat_lt
  have hround : (n.toNat + d - 1) / d = (n.toNat - 1) / d + 1 := by
    rw [show n.toNat + d - 1 = n.toNat - 1 + d by omega, Nat.add_div_right _ hd]
  have hle : (n.toNat - 1) / d ≤ n.toNat - 1 := Nat.div_le_self ..
  unfold divRoundUp
  rw [UInt32.toNat_ofNat', hround, Nat.mod_eq_of_lt (by omega)]

theorem sum_lockedPages (phys : Nat → UInt64) (n : Nat) :
    ((lockedPages phys n).map fun p => p.dwBytes.toNat).sum = n * 4096 := by
  simp [lockedPages, Function.comp_def]

/-- The count and the sizes are right exactly where the start fits. -/
theorem count_iff_startFits (off m : Nat) {ps : Nat} (hps : ps = 4096 ∨ 8192 ≤ ps) :
    (m / ps + 1 = (off + m) / ps + 1 ∧ off + (m + 1) ≤ (m / ps + 1) * 4096) ↔
      (off + (m + 1) ≤ 4096 ∨ ps = 4096 ∧ off + m % 4096 < 4096) := by
  rcases hps with rfl | hps
  · omega
  have hpos : 0 < ps := by omega
  constructor
  · rintro ⟨-, hsum⟩
    -- with larger pages the entries are too small for a second one
    have hfull : m / ps * ps ≤ m := Nat.div_mul_le_self m ps
    have hlarge : m / ps * 8192 ≤ m / ps * ps := Nat.mul_le_mul_left _ hps
    left
    omega
  · rintro (hle | ⟨h, -⟩)
    · rw [Nat.div_eq_of_lt (show m < ps by omega), Nat.div_eq_of_lt (show off + m < ps by omega)]
      omega
    · omega

/-- For every page size from 4096 on, the entries of a Lock that succeeds cover
the buffer exactly where its start fits. -/
theorem pages_cover_iff {sys : SgLockSys} {k : Nat} (hk : 12 ≤ k) (hps : sys.pageSize = 2 ^ k)
    {hDev pBuf : Addr} {size : UInt32} {ppDma p : Option Addr} {w w' : World}
    (hlock : dmaSgBufLock sys hDev pBuf size ppDma w = .ok (cronoSuccess, p, w')) :
    ∃ a c page, p = some a ∧ w'.sg? a = some c ∧ w'.pages? c.page = some page ∧
      (PagesCover sys.pageSize pBuf size c page ↔ StartFits sys.pageSize pBuf size) := by
  have hsize : sys.pageSize = 4096 ∨ 8192 ≤ sys.pageSize := by
    rcases Nat.eq_or_lt_of_le hk with rfl | hk
    · exact Or.inl hps
    · right
      rw [hps, show 8192 = 2 ^ 13 from rfl]
      exact Nat.pow_le_pow_right (by omega) hk
  have hr := sgLock_result sys hDev pBuf size ppDma w
  rw [hlock] at hr
  generalize hret : cronoSuccess = ret at hr
  cases hr with
  | failed hne => exact absurd hret.symm hne
  | @locked c phys heap hsz hc _ _ hne _ _ hget =>
    refine ⟨_, c, lockedPages phys c.dwPages.toNat, rfl, ?_, ?_, ?_⟩
    · rw [World.sg?_eq_some]
      simp only [hget]
      rw [Function.update_of_ne hne.symm, Function.update_self]
    · rw [World.pages?_eq_some]
      simp only [hget]
      rw [Function.update_self]
    · have hpos : 0 < size.toNat := Nat.pos_of_ne_zero fun h => hsz (UInt32.toNat_inj.1 h)
      have hcount : c.dwPages.toNat = (size.toNat - 1) / sys.pageSize + 1 := by
        rw [hc.2, toNat_divRoundUp hsz sys.pageSize_pos]
      have hiff := count_iff_startFits (pBuf % sys.pageSize) (size.toNat - 1) hsize
      rw [Nat.sub_add_cancel hpos] at hiff
      rw [StartFits, ← hiff]
      constructor
      · intro h
        have hn := h.count
        have hb := h.bytes
        rw [hcount, card_pagesTouched sys.pageSize_pos hpos] at hn
        rw [sum_lockedPages, hcount] at hb
        exact ⟨hn, hb⟩
      · intro h
        refine ⟨?_, ?_⟩
        · rw [hcount, card_pagesTouched sys.pageSize_pos hpos]
          exact h.1
        · rw [sum_lockedPages, hcount]
          exact h.2

/-- A Lock of `size` bytes at `pBuf` for the device at 16, with pages of 4096
bytes. -/
def SgLockSys.small : SgLockSys :=
  ⟨false, 4096, smallPage_pos, .ok (7, fun i => .ofNat (0x10000 + 4096 * i)), 32, 33, 34,
    fun _ => ⟨0, 0⟩, fun _ => 0⟩

/-- Three pages from a page boundary on. -/
theorem pages_cover_aligned : ∃ w', dmaSgBufLock .small 16 8192 9000 (some 0) .oneDevice =
      .ok (cronoSuccess, some 32, w') ∧ ∃ a c page, some 32 = some a ∧ w'.sg? a = some c ∧
        w'.pages? c.page = some page ∧ PagesCover 4096 8192 9000 c page := by
  obtain ⟨w', hlock⟩ : ∃ w', dmaSgBufLock .small 16 8192 9000 (some 0) .oneDevice =
      .ok (cronoSuccess, some 32, w') := ⟨_, rfl⟩
  obtain ⟨a, c, page, ha, hc, hpage, hiff⟩ := pages_cover_iff (k := 12) (by decide) rfl hlock
  exact ⟨w', hlock, a, c, page, ha, hc, hpage, hiff.2 (by decide)⟩

/-- Two bytes across a page boundary get one entry. -/
theorem pages_miss_last : ∃ w' c page,
    dmaSgBufLock .small 16 4095 2 (some 0) .oneDevice = .ok (cronoSuccess, some 32, w') ∧
      w'.sg? 32 = some c ∧ w'.pages? c.page = some page ∧ ¬PagesCover 4096 4095 2 c page := by
  refine ⟨_, _, _, rfl, rfl, rfl, ?_⟩
  intro h
  exact absurd h.count (by decide)

end CronoPci
