import CronoPci.Model.Sysfs
import CronoPci.Posix.Chunks

/-!
# Reads of a configuration file

The loop of `crono_read_config` is a `Posix.transfer`: what it returns follows
from how the transfer ends and how much is left, and the bytes in the buffer are
those of the file as far as the transfer got. `crono_read_vendor_device` has
three outcomes: the ids of the file, an error, or a short read, which changes
nothing and is reported as a success.
-/

namespace CronoPci

open Posix

/-! ## The read loop -/

/-- The outcomes of successive calls. -/
def chunks (outcomes : Nat → Transfer) (k : Nat) : Except Errno Nat :=
  match outcomes k with
  | .fail e => .error e
  | .count n => .ok n

theorem chunks_fail {outcomes : Nat → Transfer} {k : Nat} {e : Errno}
    (h : outcomes k = .fail e) : chunks outcomes k = .error e := by
  unfold chunks
  rw [h]

theorem chunks_count {outcomes : Nat → Transfer} {k n : Nat}
    (h : outcomes k = .count n) : chunks outcomes k = .ok n := by
  unfold chunks
  rw [h]

/-- The code that a transfer loop returns. -/
def endingCode : Ending Errno → Code
  | .full | .short => cronoSuccess
  | .failed e => e.code

theorem endingCode_eq_success {e : Ending Errno} :
    endingCode e = cronoSuccess ↔ e = .full ∨ e = .short := by
  cases e with
  | full => simp [endingCode]
  | short => simp [endingCode]
  | failed e => simpa [endingCode] using show e.code ≠ cronoSuccess from e.ne_zero

@[simp] theorem copyBytes_zero (content : Nat → UInt8) (offset cursor : Nat)
    (data : Nat → UInt8) : copyBytes content offset cursor 0 data = data := by
  funext i
  exact if_neg (by omega)

/-- Two neighbouring pieces copied one after the other. -/
theorem copyBytes_append (content : Nat → UInt8) (offset cursor n m : Nat) (data : Nat → UInt8) :
    copyBytes content (offset + n) (cursor + n) m (copyBytes content offset cursor n data) =
      copyBytes content offset cursor (n + m) data := by
  funext i
  unfold copyBytes
  by_cases h : cursor + n ≤ i ∧ i < cursor + n + m
  · rw [if_pos h, if_pos (by omega), show offset + n + (i - (cursor + n)) = offset + (i - cursor)
      by omega]
  · rw [if_neg h]
    by_cases h' : cursor ≤ i ∧ i < cursor + n
    · rw [if_pos h', if_pos (by omega)]
    · rw [if_neg h', if_neg (by omega)]

/-- The loop transfers from the file to the buffer. -/
theorem readLoop_eq (sys : ConfigSys) {fuel left : Nat} (k offset cursor : Nat)
    (data : Nat → UInt8) (h : left ≤ fuel) : readLoop sys fuel k left offset cursor data =
      (endingCode (transfer (chunks sys.pread) fuel k left).1,
        (transfer (chunks sys.pread) fuel k left).2, copyBytes sys.content offset cursor
          (left - (transfer (chunks sys.pread) fuel k left).2) data) := by
  induction fuel generalizing k left offset cursor data with
  | zero =>
    obtain rfl : left = 0 := by omega
    simp [readLoop, endingCode]
  | succ fuel ih =>
    rcases Nat.eq_zero_or_pos left with rfl | hleft
    · simp [readLoop, endingCode]
    simp only [readLoop, Nat.ne_of_gt hleft, ↓reduceIte]
    cases hk : sys.pread k with
    | fail e => simp [transfer_error fuel (chunks_fail hk) hleft, endingCode]
    | count n =>
      have hnext := chunks_count hk
      rcases Decidable.eq_or_ne n 0 with rfl | hn
      · simp [transfer_end fuel hnext hleft, endingCode]
      · have hmin : min n left ≠ 0 := by omega
        rw [transfer_step fuel hnext hn hleft]
        simp only [hmin, ↓reduceIte]
        rw [ih _ _ _ _ (by omega), copyBytes_append]
        have hle := transfer_le (chunks sys.pread) fuel (k + 1) (left - min n left)
        congr 4
        omega

/-! ## The whole read -/

namespace ConfigSys

/-- How a read of `size` bytes ends. A file that does not open is an error of
the whole read. -/
def ending (sys : ConfigSys) (size : Nat) : Ending Errno :=
  match sys.openErr with
  | some e => .failed e
  | none => (transfer (chunks sys.pread) size 0 size).1

/-- `crono_read_config` reports how the read ended, and a full read by its
count; the buffer then holds the file's bytes. -/
theorem read_result (sys : ConfigSys) (path : List Char) (data : Nat → UInt8) (offset : Nat)
    {size : Nat} (fds : FdTable) (hsize : 0 < size) :
    (cronoReadConfig path sys data offset size fds).err = endingCode (sys.ending size) ∧
      ((cronoReadConfig path sys data offset size fds).bytesRead = size ↔ sys.ending size = .full) ∧
      (sys.ending size = .full → (cronoReadConfig path sys data offset size fds).data =
        copyBytes sys.content offset 0 size data) := by
  unfold cronoReadConfig ending
  cases sys.openErr with
  | some e => simp [endingCode, Nat.ne_of_lt hsize]
  | none =>
    simp only [readLoop_eq sys 0 offset 0 data (Nat.le_refl size), true_and]
    have hle := transfer_le (chunks sys.pread) size 0 size
    refine ⟨?_, ?_⟩
    · rw [transfer_full_iff]
      omega
    · intro hfull
      rw [transfer_full_iff.1 hfull, Nat.sub_zero]

/-! ## The ids -/

/-- The ids in the first four bytes of the file. -/
def fileIds (sys : ConfigSys) : Ids :=
  (UInt16.ofNat ((sys.content 0).toNat + 2 ^ 8 * (sys.content 1).toNat),
    UInt16.ofNat ((sys.content 2).toNat + 2 ^ 8 * (sys.content 3).toNat))

end ConfigSys

/-- The halves of a little-endian value. -/
theorem loadUInt32_halves (data : Nat → UInt8) :
    ((loadUInt32 data &&& 0xFFFF).toUInt16, (loadUInt32 data >>> 16).toUInt16) =
      (UInt16.ofNat ((data 0).toNat + 2 ^ 8 * (data 1).toNat),
        UInt16.ofNat ((data 2).toNat + 2 ^ 8 * (data 3).toNat)) := by
  have h0 := (data 0).toNat_lt
  have h1 := (data 1).toNat_lt
  have h2 := (data 2).toNat_lt
  have h3 := (data 3).toNat_lt
  have hval : (loadUInt32 data).toNat = (data 0).toNat + 2 ^ 8 * (data 1).toNat +
      2 ^ 16 * (data 2).toNat + 2 ^ 24 * (data 3).toNat := by
    unfold loadUInt32
    rw [UInt32.toNat_ofNat', Nat.mod_eq_of_lt (by omega)]
  apply Prod.ext
  · apply UInt16.toNat_inj.1
    have hand : (loadUInt32 data &&& 0xFFFF).toNat = (loadUInt32 data).toNat % 2 ^ 16 := by
      rw [UInt32.toNat_and]
      exact Nat.and_two_pow_sub_one_eq_mod _ 16
    simp only [UInt32.toNat_toUInt16, hand, hval, UInt16.toNat_ofNat']
    omega
  · apply UInt16.toNat_inj.1
    have hshift : (loadUInt32 data >>> 16).toNat = (loadUInt32 data).toNat / 2 ^ 16 := by
      rw [UInt32.toNat_shiftRight, Nat.shiftRight_eq_div_pow]
      rfl
    simp only [UInt32.toNat_toUInt16, hshift, hval, UInt16.toNat_ofNat']
    omega

/-- `crono_read_vendor_device` by how the read of the four bytes ends. A short
read is reported as a success. -/
theorem cronoReadVendorDevice_result (path : List Char) (sys : ConfigSys) (ids : Ids)
    (fds : FdTable) :
    (cronoReadVendorDevice path sys ids fds).1 = endingCode (sys.ending 4) ∧
      (cronoReadVendorDevice path sys ids fds).2.1 =
        if sys.ending 4 = .full then sys.fileIds else ids := by
  obtain ⟨herr, hcount, hdata⟩ := sys.read_result path (fun _ => 0) 0 fds (show 0 < 4 by omega)
  unfold cronoReadVendorDevice
  by_cases hfull : sys.ending 4 = .full
  · have herr0 : (cronoReadConfig path sys (fun _ => 0) 0 4 fds).err = 0 := by
      rw [herr, hfull]
      rfl
    simp only [hcount.2 hfull, herr0, ne_eq, not_true_eq_false, or_self, ↓reduceIte, hfull,
      endingCode]
    refine ⟨rfl, ?_⟩
    rw [loadUInt32_halves, hdata hfull]
    rfl
  · have hne : (cronoReadConfig path sys (fun _ => 0) 0 4 fds).bytesRead ≠ 4 := fun h =>
      hfull (hcount.1 h)
    simp only [hne, ne_eq, not_false_eq_true, true_or, ↓reduceIte, hfull, herr, and_self]

end CronoPci
