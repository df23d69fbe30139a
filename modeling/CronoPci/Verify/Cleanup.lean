import CronoPci.Model.Cleanup
import CronoPci.Verify.Session

/-!
# Cleanup commands reach the module

The copy loop makes the block equal to the caller's commands (`copyCmds_eq`),
so that the module reads them through either alias. Without a block the first
store goes through `NULL`: nothing checks the result of `calloc`.
-/

namespace CronoPci

open Posix

/-! ## The copy -/

theorem storeCmd_eq {w : World} {p : Addr} {cs : List KernelCmd} {i : Nat} {c : KernelCmd}
    (hp : w.cmds? p = some cs) (hi : i < cs.length) :
    w.storeCmd p i c = .ok { w with heap := w.heap.set p (.cmds (cs.set i c)) } := by
  have hne : p ≠ 0 := Heap.ne_zero_of_get (World.cmds?_eq_some.1 hp)
  simp only [World.storeCmd, hne, ↓reduceIte, hp, hi]

/-- From `i` on, the loop replaces what is left of the block by the rest of the
commands. -/
theorem copyCmds_eq {p : Addr} {cmd cs : List KernelCmd} {n i : Nat} {w : World}
    (hp : w.cmds? p = some cs) (hcmd : cmd.length = i + n) (hcs : cs.length = i + n) :
    ∃ heap, copyCmds p cmd n i w = .ok { w with heap } ∧
      heap.get = Function.update w.heap.get p (some (.cmds (cs.take i ++ cmd.drop i))) := by
  induction n generalizing i cs w with
  | zero =>
    refine ⟨w.heap, rfl, ?_⟩
    rw [Nat.add_zero] at hcmd hcs
    rw [List.take_of_length_le (Nat.le_of_eq hcs), List.drop_of_length_le (Nat.le_of_eq hcmd),
      List.append_nil, ← World.cmds?_eq_some.1 hp, Function.update_eq_self]
  | succ n ih =>
    have hi : i < cmd.length := by omega
    have hi' : i < cs.length := by omega
    have hblock : (w.heap.get p).isSome := by
      rw [World.cmds?_eq_some.1 hp]
      rfl
    have hset : World.cmds? { w with heap := w.heap.set p (.cmds (cs.set i cmd[i])) } p =
        some (cs.set i cmd[i]) := World.cmds?_eq_some.2 (Heap.get_set_self hblock)
    obtain ⟨heap, hcopy, hget⟩ := ih (i := i + 1) hset (by omega)
      (by rw [List.length_set]; omega)
    refine ⟨heap, ?_, ?_⟩
    · simp only [copyCmds, List.getElem?_eq_getElem hi, storeCmd_eq hp hi', bind, Except.bind]
      exact hcopy
    · rw [hget, Heap.get_set hblock, Function.update_idem, List.take_add_one,
        List.getElem?_set_self hi', List.take_set_of_le (Nat.le_refl i), Option.toList_some,
        List.append_assoc, List.singleton_append, List.drop_eq_getElem_cons hi]

/-- A block with the commands reads as the commands. -/
theorem readCmds_eq {w : World} {p : Addr} {cmd : List KernelCmd} (h : w.cmds? p = some cmd) :
    w.readCmds p cmd.length = some cmd := by
  unfold World.readCmds
  split
  · next hlen => rw [List.length_eq_zero_iff.1 hlen]
  · simp [h]

/-! ## The call -/

/-- The module finds, through both aliases, `count` commands that are `cmd`. -/
def CleanupCall.Carries (call : CleanupCall) (cmd : List KernelCmd) : Prop :=
  call.info.count.toNat = cmd.length ∧ call.info.ucmds = call.info.cmds ∧
    call.world.readCmds call.info.cmds call.info.count.toNat = some cmd

/-- The call returns with the heap as it was; it made one call of the module
with the commands, or none and returns an error. -/
def CommandsIntact (sys : CleanupSys) (hDev : Addr) (cmd : List KernelCmd) (dwCmdCount : UInt32)
    (w : World) : Prop :=
  ∃ ret calls w', cardCleanupSetup sys hDev cmd dwCmdCount w = .ok (ret, calls, w') ∧
    w'.heap.get = w.heap.get ∧
    ((∃ call, calls = [call] ∧ call.Carries cmd) ∨ ret ≠ cronoSuccess ∧ calls = [])

section Setup

variable {sys : CleanupSys} {hDev : Addr} {cmd : List KernelCmd} {dwCmdCount : UInt32} {w : World}
  {d : KernelDevice}

/-- With a block, the module gets the commands. -/
theorem cleanup_of_block (hd : w.device? hDev = some d) (hid : d.dwDeviceId ≠ 0)
    (hfd : d.miscdevFd ≠ 0) (hlen : cmd.length = dwCmdCount.toNat) (hne : sys.calloc ≠ 0)
    (hfresh : w.heap.get sys.calloc = none) : CommandsIntact sys hDev cmd dwCmdCount w := by
  obtain ⟨heap, hmalloc⟩ := Heap.exists_malloc
    (b := Block.cmds (List.replicate dwCmdCount.toNat ⟨0, 0⟩)) hne hfresh
  obtain ⟨-, -, hget, -⟩ := Heap.malloc_eq_some.1 hmalloc
  have hblock : World.cmds? { w with heap } sys.calloc =
      some (List.replicate dwCmdCount.toNat ⟨0, 0⟩) :=
    World.cmds?_eq_some.2 (by rw [hget, Function.update_self])
  obtain ⟨heap', hcopy, hget'⟩ := copyCmds_eq (i := 0) hblock (by rw [hlen, Nat.zero_add])
    (by rw [List.length_replicate, Nat.zero_add])
  rw [List.take_zero, List.drop_zero, List.nil_append] at hget'
  obtain ⟨heap'', hfree, hget''⟩ := World.exists_free (w := { w with heap := heap' })
    (p := sys.calloc) (by rw [hget', Function.update_self]; rfl)
  refine ⟨sys.ioctl,
    [⟨d.miscdevFd, ⟨sys.calloc, sys.calloc, dwCmdCount⟩, { w with heap := heap' }⟩],
    { w with heap := heap'' }, ?_, ?_, Or.inl ⟨_, rfl, hlen.symm, rfl, ?_⟩⟩
  · unfold cardCleanupSetup
    simp only [initHDevFunc_of_device hd, hid, hfd, hmalloc, hcopy, hne, hfree, ↓reduceIte, bind,
      Except.bind, pure, Except.pure, ne_eq, not_false_eq_true]
  · simp only [hget'', hget', hget, Function.update_idem]
    rw [← hfresh, Function.update_eq_self]
  · rw [← hlen]
    exact readCmds_eq (World.cmds?_eq_some.2 (by rw [hget', Function.update_self]))

/-- Without a block, the first command is stored through `NULL`. -/
theorem cleanup_of_null (hd : w.device? hDev = some d) (hid : d.dwDeviceId ≠ 0)
    (hfd : d.miscdevFd ≠ 0) (hlen : cmd.length = dwCmdCount.toNat) (hcmd : cmd ≠ [])
    (hnull : sys.calloc = 0 ∨ w.heap.get sys.calloc ≠ none) :
    cardCleanupSetup sys hDev cmd dwCmdCount w = .error .nullDeref := by
  obtain ⟨c, cmd, rfl⟩ := List.exists_cons_of_ne_nil hcmd
  obtain ⟨n, hn⟩ : ∃ n, dwCmdCount.toNat = n + 1 := ⟨cmd.length, by rw [← hlen]; rfl⟩
  have hmalloc : w.heap.malloc sys.calloc
      (.cmds (List.replicate (n + 1) ⟨0, 0⟩)) = none := Heap.malloc_eq_none.2 hnull
  unfold cardCleanupSetup
  simp only [initHDevFunc_of_device hd, hid, hfd, hn, hmalloc, copyCmds, World.storeCmd,
    List.getElem?_cons_zero, ↓reduceIte, bind, Except.bind]

/-- An empty list needs no block. -/
theorem cleanup_of_nil (hd : w.device? hDev = some d) (hid : d.dwDeviceId ≠ 0)
    (hfd : d.miscdevFd ≠ 0) (hlen : dwCmdCount.toNat = 0)
    (hnull : sys.calloc = 0 ∨ w.heap.get sys.calloc ≠ none) :
    CommandsIntact sys hDev [] dwCmdCount w := by
  have hmalloc : w.heap.malloc sys.calloc (.cmds (List.replicate 0 ⟨0, 0⟩)) = none :=
    Heap.malloc_eq_none.2 hnull
  refine ⟨sys.ioctl, [⟨d.miscdevFd, ⟨0, 0, dwCmdCount⟩, w⟩], w, ?_, rfl,
    Or.inl ⟨_, rfl, hlen, rfl, ?_⟩⟩
  · unfold cardCleanupSetup
    simp only [initHDevFunc_of_device hd, hid, hfd, hlen, hmalloc, copyCmds, ↓reduceIte, bind,
      Except.bind, pure, Except.pure, ne_eq, not_true_eq_false]
  · simp only [World.readCmds, hlen, ↓reduceIte]

/-- The commands reach the module, or an error is returned, exactly when the
block is allocated or none is needed. -/
theorem commands_intact_iff (hd : w.device? hDev = some d) (hid : d.dwDeviceId ≠ 0)
    (hlen : cmd.length = dwCmdCount.toNat) : CommandsIntact sys hDev cmd dwCmdCount w ↔
      (d.miscdevFd = 0 ∨ dwCmdCount = 0 ∨ sys.calloc ≠ 0 ∧ w.heap.get sys.calloc = none) := by
  by_cases hfd : d.miscdevFd = 0
  · refine iff_of_true ⟨0 - enoent, [], w, ?_, rfl, Or.inr ⟨by decide, rfl⟩⟩ (Or.inl hfd)
    unfold cardCleanupSetup
    simp only [initHDevFunc_of_device hd, hid, hfd, ↓reduceIte, bind, Except.bind, pure,
      Except.pure]
  by_cases hblock : sys.calloc ≠ 0 ∧ w.heap.get sys.calloc = none
  · exact iff_of_true (cleanup_of_block hd hid hfd hlen hblock.1 hblock.2)
      (Or.inr (Or.inr hblock))
  have hnull : sys.calloc = 0 ∨ w.heap.get sys.calloc ≠ none := by
    by_contra h
    rw [not_or, not_not] at h
    exact hblock h
  by_cases hcount : dwCmdCount = 0
  · have hzero : dwCmdCount.toNat = 0 := by rw [hcount]; rfl
    obtain rfl : cmd = [] := List.length_eq_zero_iff.1 (hlen.trans hzero)
    exact iff_of_true (cleanup_of_nil hd hid hfd hzero hnull) (Or.inr (Or.inl hcount))
  · have hcmd : cmd ≠ [] := by
      rintro rfl
      exact hcount (UInt32.toNat_inj.1 hlen.symm)
    refine iff_of_false ?_ ?_
    · rintro ⟨ret, calls, w', he, -⟩
      rw [cleanup_of_null hd hid hfd hlen hcmd hnull] at he
      cases he
    · rintro (h | h | h)
      · exact hfd h
      · exact hcount h
      · exact hblock h

end Setup

theorem commands_intact_two :
    CommandsIntact ⟨32, 0⟩ 16 [⟨0x10, 1⟩, ⟨0x14, 2⟩] 2 .oneDevice :=
  (commands_intact_iff rfl (by decide) rfl).2 (Or.inr (Or.inr ⟨by decide, rfl⟩))

/-- `calloc` returns `NULL` for one command. -/
theorem commands_through_null :
    cardCleanupSetup ⟨0, 0⟩ 16 [⟨0x10, 1⟩] 1 .oneDevice = .error .nullDeref ∧
      ¬CommandsIntact ⟨0, 0⟩ 16 [⟨0x10, 1⟩] 1 .oneDevice := by
  have hfault : cardCleanupSetup ⟨0, 0⟩ 16 [⟨0x10, 1⟩] 1 .oneDevice = .error .nullDeref := rfl
  refine ⟨hfault, ?_⟩
  rintro ⟨ret, calls, w', he, -⟩
  rw [hfault] at he
  cases he

end CronoPci
