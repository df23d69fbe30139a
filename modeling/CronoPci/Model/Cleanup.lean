import CronoPci.Model.Base

/-!
# Cleanup commands

`CRONO_KERNEL_CardCleanupSetup` copies the caller's commands to a block of its
own, which it describes to the kernel module by two aliases and a count. The
block is used whether or not it was allocated.
-/

namespace CronoPci

open Posix

/-- `CRONO_KERNEL_CMDS_INFO` -/
structure CmdsInfo where
  cmds : Addr
  /-- The same address, as an integer. -/
  ucmds : Addr
  count : UInt32

/-- The system's answers to one `CRONO_KERNEL_CardCleanupSetup` call. -/
structure CleanupSys where
  /-- The address `calloc` returns; 0, or one in use, is `NULL`. -/
  calloc : Addr
  /-- What the `ioctl` returns. -/
  ioctl : Code

/-- A call of `IOCTL_CRONO_CLEANUP_SETUP`: the descriptor, the structure passed,
and the process as the module finds it. -/
structure CleanupCall where
  fd : Nat
  info : CmdsInfo
  world : World

namespace World

/-- `cmds[i] = c` -/
def storeCmd (w : World) (cmds : Addr) (i : Nat) (c : KernelCmd) : Except Fault World :=
  if cmds = 0 then .error .nullDeref
  else match w.cmds? cmds with
    | none => .error (.badPointer cmds)
    | some cs =>
      if i < cs.length then .ok { w with heap := w.heap.set cmds (.cmds (cs.set i c)) }
      else .error (.cmdIndex i)

/-- The `n` commands at `p`, as the module reads them. -/
def readCmds (w : World) (p : Addr) (n : Nat) : Option (List KernelCmd) :=
  if n = 0 then some []
  else (w.cmds? p).bind fun cs => if n ≤ cs.length then some (cs.take n) else none

end World

/-- The loop that copies the commands, for `n` commands from `i` on. -/
def copyCmds (cmds : Addr) (cmd : List KernelCmd) : (n i : Nat) → World → Except Fault World
  | 0, _, w => .ok w
  | n + 1, i, w =>
    match cmd[i]? with
    | none => .error (.cmdIndex i)
    | some c => do
      let w ← w.storeCmd cmds i c
      copyCmds cmds cmd n (i + 1) w

/-- `CRONO_KERNEL_CardCleanupSetup`, with the calls of the module that it makes. -/
def cardCleanupSetup (sys : CleanupSys) (hDev : Addr) (cmd : List KernelCmd)
    (dwCmdCount : UInt32) (w : World) : Except Fault (Code × List CleanupCall × World) := do
  match ← w.initHDevFunc hDev with
  | .error ret => return (ret, [], w)
  | .ok d =>
    if d.miscdevFd = 0 then return (0 - enoent, [], w)
    else
      -- the result of `calloc` is not checked
      let (cmds, heap) :=
        match w.heap.malloc sys.calloc (.cmds (List.replicate dwCmdCount.toNat ⟨0, 0⟩)) with
        | none => (0, w.heap)
        | some heap => (sys.calloc, heap)
      let w ← copyCmds cmds cmd dwCmdCount.toNat 0 { w with heap }
      let call : CleanupCall := ⟨d.miscdevFd, ⟨cmds, cmds, dwCmdCount⟩, w⟩
      let w ← if cmds ≠ 0 then w.free cmds else pure w
      return (sys.ioctl, [call], w)

end CronoPci
