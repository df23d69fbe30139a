import CronoPci.Model.Config
import CronoPci.Verify.Session
import CronoPci.Verify.Transfer

/-!
# Chunked transfers

The loops of `crono_read_config` and `crono_write_config` without a bound on
their steps (`LoopRuns`), counting the calls and the chunks that they move. Each
loop has exactly one run, which moves at most as many chunks as bytes were asked
for, and makes one more call at most. What it leaves is told by the number of
bytes moved alone, so the way a complete transfer was split cannot be seen.
-/

namespace CronoPci

open Posix

/-! ## Runs of the loop -/

/-- A run of `while (temp_size > 0)` from the `k`-th call on: the chunks moved,
the calls made, and the error, the size left and the target at its end. -/
inductive LoopRuns (outcomes : Nat → Transfer) (source : Nat → UInt8) :
    (k tempSize offset cursor : Nat) → (Nat → UInt8) → (chunks calls : Nat) →
      Code × Nat × (Nat → UInt8) → Prop
  | done {k offset cursor : Nat} {data : Nat → UInt8} :
      LoopRuns outcomes source k 0 offset cursor data 0 0 (cronoSuccess, 0, data)
  | zero {k tempSize offset cursor : Nat} {data : Nat → UInt8} (hleft : 0 < tempSize)
      (h : outcomes k = .count 0) :
      LoopRuns outcomes source k tempSize offset cursor data 0 1 (cronoSuccess, tempSize, data)
  | fail {k tempSize offset cursor : Nat} {data : Nat → UInt8} {e : Errno} (hleft : 0 < tempSize)
      (h : outcomes k = .fail e) :
      LoopRuns outcomes source k tempSize offset cursor data 0 1 (e.code, tempSize, data)
  | chunk {k tempSize offset cursor n chunks calls : Nat} {data : Nat → UInt8}
      {r : Code × Nat × (Nat → UInt8)} (hleft : 0 < tempSize) (hn : 0 < n)
      (h : outcomes k = .count n)
      (hrest : LoopRuns outcomes source (k + 1) (tempSize - min n tempSize)
        (offset + min n tempSize) (cursor + min n tempSize)
        (copyBytes source offset cursor (min n tempSize) data) chunks calls r) :
      LoopRuns outcomes source k tempSize offset cursor data (chunks + 1) (calls + 1) r

namespace LoopRuns

variable {outcomes : Nat → Transfer} {source : Nat → UInt8} {k tempSize offset cursor : Nat}
  {data : Nat → UInt8} {chunks calls : Nat} {r : Code × Nat × (Nat → UInt8)}

/-- The loop has one run. -/
theorem unique {chunks' calls' : Nat} {r' : Code × Nat × (Nat → UInt8)}
    (h : LoopRuns outcomes source k tempSize offset cursor data chunks calls r)
    (h' : LoopRuns outcomes source k tempSize offset cursor data chunks' calls' r') :
    chunks' = chunks ∧ calls' = calls ∧ r' = r := by
  induction h generalizing chunks' calls' with
  | done =>
    cases h' with
    | done => exact ⟨rfl, rfl, rfl⟩
    | zero hleft | fail hleft | chunk hleft => omega
  | zero hleft hk =>
    cases h' with
    | done => omega
    | zero => exact ⟨rfl, rfl, rfl⟩
    | fail _ hk' => rw [hk] at hk'; cases hk'
    | chunk _ hn hk' =>
      rw [hk] at hk'
      cases hk'
      omega
  | fail hleft hk =>
    cases h' with
    | done => omega
    | zero _ hk' | chunk _ _ hk' => rw [hk] at hk'; cases hk'
    | fail _ hk' =>
      rw [hk] at hk'
      cases hk'
      exact ⟨rfl, rfl, rfl⟩
  | chunk hleft hn hk _ ih =>
    cases h' with
    | done => omega
    | zero _ hk' =>
      rw [hk] at hk'
      cases hk'
      omega
    | fail _ hk' => rw [hk] at hk'; cases hk'
    | chunk _ _ hk' hrest' =>
      rw [hk] at hk'
      cases hk'
      obtain ⟨rfl, rfl, rfl⟩ := ih hrest'
      exact ⟨rfl, rfl, rfl⟩

/-- Every chunk has a byte, and only the last call moves none. -/
theorem bounds (h : LoopRuns outcomes source k tempSize offset cursor data chunks calls r) :
    chunks + r.2.1 ≤ tempSize ∧ calls ≤ chunks + 1 := by
  induction h with
  | done | zero | fail => simp
  | chunk hleft hn _ _ ih =>
    obtain ⟨hle, hcalls⟩ := ih
    omega

/-- A success with something left is a last call that returned zero. -/
theorem success_iff (h : LoopRuns outcomes source k tempSize offset cursor data chunks calls r) :
    r.1 = cronoSuccess ∧ 0 < r.2.1 ↔ calls = chunks + 1 ∧ outcomes (k + chunks) = .count 0 := by
  induction h with
  | done => simp
  | zero hleft hk => simp [hleft, hk]
  | @fail k _ _ _ _ e hleft hk =>
    refine iff_of_false (fun hc => e.ne_zero hc.1) ?_
    rintro ⟨-, hc⟩
    rw [Nat.add_zero, hk] at hc
    cases hc
  | @chunk k _ _ _ _ chunks calls _ _ _ _ _ _ ih =>
    rw [ih, Nat.add_right_cancel_iff, Nat.add_right_comm, Nat.add_assoc k chunks 1]

/-- A run that leaves nothing succeeds. -/
theorem success_of_full
    (h : LoopRuns outcomes source k tempSize offset cursor data chunks calls r)
    (hfull : r.2.1 = 0) : r.1 = cronoSuccess := by
  induction h with
  | done => rfl
  | zero hleft | fail hleft => exact absurd hfull (Nat.ne_of_gt hleft)
  | chunk _ _ _ _ ih => exact ih hfull

end LoopRuns

/-- With fuel for every byte, the loop gives the result of its run. -/
theorem loopRuns_readLoop (sys : ConfigSys) {fuel left : Nat} (k offset cursor : Nat)
    (data : Nat → UInt8) (h : left ≤ fuel) :
    ∃ chunks calls, LoopRuns sys.pread sys.content k left offset cursor data chunks calls
      (readLoop sys fuel k left offset cursor data) := by
  induction fuel generalizing k left offset cursor data with
  | zero =>
    obtain rfl : left = 0 := by omega
    exact ⟨0, 0, .done⟩
  | succ fuel ih =>
    rcases Nat.eq_zero_or_pos left with rfl | hleft
    · exact ⟨0, 0, .done⟩
    simp only [readLoop, Nat.ne_of_gt hleft, ↓reduceIte]
    cases hk : sys.pread k with
    | fail e => exact ⟨0, 1, .fail hleft hk⟩
    | count n =>
      rcases Nat.eq_zero_or_pos n with rfl | hn
      · simp only [Nat.zero_min, ↓reduceIte]
        exact ⟨0, 1, .zero hleft hk⟩
      · have hmin : min n left ≠ 0 := by omega
        simp only [hmin, ↓reduceIte]
        obtain ⟨chunks, calls, hrun⟩ := ih (k + 1) (offset + min n left) (cursor + min n left)
          (copyBytes sys.content offset cursor (min n left) data) (show left - min n left ≤ fuel by
            omega)
        exact ⟨_, _, .chunk hleft hn hk hrun⟩

/-! ## What a transfer does -/

/-- A transfer that was asked for `size` bytes of `source` from `offset` on, to
`cursor` in `target`, ended with `err` and `target'`, and reports `n` bytes. -/
structure Moves (outcomes : Nat → Transfer) (source : Nat → UInt8) (offset : Nat)
    (target : Nat → UInt8) (cursor size : Nat) (err : Code) (n : Nat) (target' : Nat → UInt8) :
    Prop where
  le : n ≤ size
  /-- The loop ends, in one way, after at most `size` chunks and one more call;
  it succeeds with less than `size` bytes when that call returned zero. -/
  runs : ∃ chunks calls,
    LoopRuns outcomes source 0 size offset cursor target chunks calls (err, size - n, target') ∧
    (∀ chunks' calls' r, LoopRuns outcomes source 0 size offset cursor target chunks' calls' r →
      chunks' = chunks ∧ calls' = calls ∧ r = (err, size - n, target')) ∧
    chunks ≤ size ∧ calls ≤ chunks + 1 ∧
    (err = cronoSuccess ∧ n < size ↔ calls = chunks + 1 ∧ outcomes chunks = .count 0)
  moved : ∀ i, i < n → target' (cursor + i) = source (offset + i)
  kept : ∀ i, ¬(cursor ≤ i ∧ i < cursor + n) → target' i = target i

theorem moves_readLoop (sys : ConfigSys) (offset cursor size : Nat) (target : Nat → UInt8) :
    Moves sys.pread sys.content offset target cursor size
      (readLoop sys size 0 size offset cursor target).1
      (size - (readLoop sys size 0 size offset cursor target).2.1)
      (readLoop sys size 0 size offset cursor target).2.2 := by
  obtain ⟨chunks, calls, hrun⟩ := loopRuns_readLoop sys 0 offset cursor target (Nat.le_refl size)
  obtain ⟨hle, hcalls⟩ := hrun.bounds
  have hiff := hrun.success_iff
  have heq := readLoop_eq sys 0 offset cursor target (Nat.le_refl size)
  have hcopy : (readLoop sys size 0 size offset cursor target).2.2 =
      copyBytes sys.content offset cursor
        (size - (readLoop sys size 0 size offset cursor target).2.1) target := by
    rw [heq]
  generalize readLoop sys size 0 size offset cursor target = r at *
  have hleft : size - (size - r.2.1) = r.2.1 := by omega
  refine ⟨Nat.sub_le .., ⟨chunks, calls, ?_, ?_, by omega, hcalls, ?_⟩, ?_, ?_⟩
  · rw [hleft]
    exact hrun
  · rw [hleft]
    exact fun _ _ _ h => hrun.unique h
  · rw [Nat.zero_add] at hiff
    rw [← hiff]
    exact and_congr_right fun _ => by omega
  · intro i hi
    rw [hcopy, copyBytes, if_pos (by omega), Nat.add_sub_cancel_left]
  · intro i hi
    rw [hcopy, copyBytes, if_neg hi]

/-- A complete transfer succeeds, and what it leaves does not depend on the calls. -/
theorem Moves.complete {outcomes : Nat → Transfer} {source target target' : Nat → UInt8}
    {offset cursor size n : Nat} {err : Code}
    (h : Moves outcomes source offset target cursor size err n target') (hn : n = size) :
    err = cronoSuccess ∧ target' = copyBytes source offset cursor size target := by
  subst hn
  obtain ⟨chunks, calls, hrun, -⟩ := h.runs
  refine ⟨hrun.success_of_full (Nat.sub_self n), ?_⟩
  funext i
  unfold copyBytes
  split
  · next hi =>
    rw [← h.moved (i - cursor) (by omega), Nat.add_sub_cancel' hi.1]
  · next hi => exact h.kept i hi

/-! ## The two functions -/

section Config

variable {sys : ConfigSys} (hopen : sys.openErr = none) (path : List Char) (data : Nat → UInt8)
  (offset size : Nat) (fds : FdTable)

include hopen

theorem moves_cronoReadConfig : Moves sys.pread sys.content offset data 0 size
    (cronoReadConfig path sys data offset size fds).err
    (cronoReadConfig path sys data offset size fds).bytesRead
    (cronoReadConfig path sys data offset size fds).data := by
  have h := moves_readLoop sys offset 0 size data
  unfold cronoReadConfig
  simp only [hopen]
  exact h

theorem moves_cronoWriteConfig : Moves sys.pread data 0 sys.content offset size
    (cronoWriteConfig path sys data offset size fds).err
    (cronoWriteConfig path sys data offset size fds).bytesWritten
    (cronoWriteConfig path sys data offset size fds).content := by
  have h := moves_readLoop ⟨none, data, sys.pread⟩ 0 offset size sys.content
  unfold cronoWriteConfig
  simp only [hopen]
  exact h

end Config

/-- Two complete reads of a file, or two complete writes, have the same result,
whatever their calls returned. -/
def SameWhenComplete (path : List Char) (sys : ConfigSys) (data : Nat → UInt8)
    (offset size : Nat) (fds : FdTable) : Prop :=
  ∀ outcomes : Nat → Transfer,
    (let r := cronoReadConfig path sys data offset size fds
    let r' := cronoReadConfig path { sys with pread := outcomes } data offset size fds
    r.bytesRead = size → r'.bytesRead = size → r'.err = r.err ∧ r'.data = r.data) ∧
    (let r := cronoWriteConfig path sys data offset size fds
    let r' := cronoWriteConfig path { sys with pread := outcomes } data offset size fds
    r.bytesWritten = size → r'.bytesWritten = size → r'.err = r.err ∧ r'.content = r.content)

/-- Both functions move the bytes that they report, in a bounded number of
calls, and a complete transfer does not depend on how it was split. -/
theorem config_chunked {sys : ConfigSys} (hopen : sys.openErr = none) (path : List Char)
    (data : Nat → UInt8) (offset size : Nat) (fds : FdTable) :
    Moves sys.pread sys.content offset data 0 size
        (cronoReadConfig path sys data offset size fds).err
        (cronoReadConfig path sys data offset size fds).bytesRead
        (cronoReadConfig path sys data offset size fds).data ∧
      Moves sys.pread data 0 sys.content offset size
        (cronoWriteConfig path sys data offset size fds).err
        (cronoWriteConfig path sys data offset size fds).bytesWritten
        (cronoWriteConfig path sys data offset size fds).content ∧
      SameWhenComplete path sys data offset size fds := by
  have hread := moves_cronoReadConfig hopen path data offset size fds
  have hwrite := moves_cronoWriteConfig hopen path data offset size fds
  refine ⟨hread, hwrite, ?_⟩
  intro outcomes
  have hopen' : ({ sys with pread := outcomes } : ConfigSys).openErr = none := hopen
  constructor
  · intro r r' hfull hfull'
    obtain ⟨herr, hdata⟩ := hread.complete hfull
    have hread' := moves_cronoReadConfig hopen' path data offset size fds
    obtain ⟨herr', hdata'⟩ := hread'.complete hfull'
    exact ⟨herr'.trans herr.symm, hdata'.trans hdata.symm⟩
  · intro r r' hfull hfull'
    obtain ⟨herr, hcontent⟩ := hwrite.complete hfull
    obtain ⟨herr', hcontent'⟩ :=
      (moves_cronoWriteConfig hopen' path data offset size fds).complete hfull'
    exact ⟨herr'.trans herr.symm, hcontent'.trans hcontent.symm⟩

/-- Calls that transfer three bytes at most. -/
def ConfigSys.threes : ConfigSys := ⟨none, fun i => UInt8.ofNat i, fun _ => .count 3⟩

theorem config_chunked_threes :
    (cronoReadConfig (constructConfigFilePath (busSlot 1)) .threes (fun _ => 0) 4 8
        World.boot.fds).bytesRead = 8 ∧
      ∃ err data, Moves (fun _ => .count 3) (fun i => UInt8.ofNat i) 4 (fun _ => 0) 0 8 err 8 data ∧
        SameWhenComplete (constructConfigFilePath (busSlot 1)) .threes (fun _ => 0) 4 8
          World.boot.fds := by
  obtain ⟨hread, -, hsame⟩ := @config_chunked .threes rfl (constructConfigFilePath (busSlot 1))
    (fun _ => 0) 4 8 World.boot.fds
  exact ⟨rfl, _, _, hread, hsame⟩

end CronoPci
