import Mathlib.Data.Nat.Basic

/-!
# Transfers in chunks

A transfer of `left` bytes repeats a system call until nothing is left. Call `k`
answers `next k`: an error, or the number of bytes the system is ready to
transfer, of which it transfers as many as are left. Zero bytes are taken for
the end of the file. `transfer` says how the loop ends and what is left then;
loops of the two directions are compared with it.
-/

namespace Posix

/-- How a transfer ended. -/
inductive Ending (ε : Type)
  | full
  | short
  | failed (e : ε)
  deriving DecidableEq

variable {ε : Type}

/-- The end of the transfer from the `k`-th call on, and the number of bytes
left. Each call but the last takes at least a byte, so `fuel` of `left` is
enough. -/
def transfer (next : Nat → Except ε Nat) : (fuel k left : Nat) → Ending ε × Nat
  | _, _, 0 => (.full, 0)
  | 0, _, left + 1 => (.short, left + 1)
  | fuel + 1, k, left + 1 =>
    match next k with
    | .error e => (.failed e, left + 1)
    | .ok n =>
      if n = 0 then (.short, left + 1)
      else transfer next fuel (k + 1) (left + 1 - min n (left + 1))

variable {next : Nat → Except ε Nat}

@[simp] theorem transfer_zero (fuel k : Nat) : transfer next fuel k 0 = (.full, 0) := by
  cases fuel <;> rfl

theorem transfer_error {k left : Nat} {e : ε} (fuel : Nat) (h : next k = .error e)
    (hleft : 0 < left) : transfer next (fuel + 1) k left = (.failed e, left) := by
  obtain ⟨left, rfl⟩ := Nat.exists_eq_succ_of_ne_zero (Nat.ne_of_gt hleft)
  simp only [transfer, h]

theorem transfer_end {k left : Nat} (fuel : Nat) (h : next k = .ok 0) (hleft : 0 < left) :
    transfer next (fuel + 1) k left = (.short, left) := by
  obtain ⟨left, rfl⟩ := Nat.exists_eq_succ_of_ne_zero (Nat.ne_of_gt hleft)
  simp only [transfer, h, ↓reduceIte]

/-- A call that takes `n` bytes or what is left. -/
theorem transfer_step {k left n : Nat} (fuel : Nat) (h : next k = .ok n) (hn : n ≠ 0)
    (hleft : 0 < left) :
    transfer next (fuel + 1) k left = transfer next fuel (k + 1) (left - min n left) := by
  obtain ⟨left, rfl⟩ := Nat.exists_eq_succ_of_ne_zero (Nat.ne_of_gt hleft)
  simp only [transfer, h, hn, ↓reduceIte]

/-- No more than what was asked for is left, and nothing exactly after a full
transfer. -/
theorem transfer_left (next : Nat → Except ε Nat) (fuel k left : Nat) :
    (transfer next fuel k left).2 ≤ left ∧
      ((transfer next fuel k left).1 = .full ↔ (transfer next fuel k left).2 = 0) := by
  induction fuel generalizing k left with
  | zero => cases left <;> simp [transfer]
  | succ fuel ih =>
    rcases Nat.eq_zero_or_pos left with rfl | hleft
    · simp
    · cases hnext : next k with
      | error e => simp [transfer_error fuel hnext hleft, Nat.ne_of_gt hleft]
      | ok n =>
        rcases Decidable.eq_or_ne n 0 with rfl | hn
        · simp [transfer_end fuel hnext hleft, Nat.ne_of_gt hleft]
        · rw [transfer_step fuel hnext hn hleft]
          obtain ⟨hle, hiff⟩ := ih (k + 1) (left - min n left)
          exact ⟨Nat.le_trans hle (Nat.sub_le ..), hiff⟩

theorem transfer_le (next : Nat → Except ε Nat) (fuel k left : Nat) :
    (transfer next fuel k left).2 ≤ left := (transfer_left next fuel k left).1

theorem transfer_full_iff {fuel k left : Nat} :
    (transfer next fuel k left).1 = .full ↔ (transfer next fuel k left).2 = 0 :=
  (transfer_left next fuel k left).2

end Posix
