import CronoPci.Trans.Reach
import CronoPci.Verify.Open
import CronoPci.Verify.Release

/-!
# Runs of Open and Close

A `Session` is a process together with what its caller knows: the handles it
got from successful Opens and has not closed, the ones whose Close failed, the
ones closed, and the largest number of devices that were open or being opened
at one time. `Session.step` makes one call; the system's answers are part of
the call, so a run of calls covers every order of successes and failures.
-/

namespace CronoPci

open Posix Trans

/-- A handle with the number of the open file behind its misc device. -/
structure Handle where
  addr : Addr
  file : Nat
  deriving DecidableEq

structure Session where
  world : World
  live : List Handle
  failed : List Handle
  closed : List Handle
  peak : Nat

/-- A call, with the system's answers to it. -/
inductive Op
  | openDev (sys : OpenSys) (slot : PciSlot)
  | closeDev (munmap : Fin 6 → Option Errno) (h : Handle)
  | getBars (sys : BarSys) (h : Handle)
  | unload

namespace Session

/-- The open file behind the device at `p`. -/
def fileOf (w : World) (p : Addr) : Nat :=
  match w.device? p with
  | some d => (w.fds.file d.miscdevFd).getD 0
  | none => 0

/-- Open: a handle is live when the call returns success and one. -/
def openDev (s : Session) (sys : OpenSys) (slot : PciSlot) : Except Fault Session := do
  let (ret, phDev, w) ← pciDeviceOpen sys (some 0) (some slot) s.world
  let p := phDev.getD 0
  return { s with
    world := w
    live := if ret = cronoSuccess ∧ p ≠ 0 then ⟨p, fileOf w p⟩ :: s.live else s.live
    peak := max s.peak (s.live.length + 1) }

/-- Close: a handle stays live until a call on it returns success. -/
def closeDev (s : Session) (munmap : Fin 6 → Option Errno) (h : Handle) :
    Except Fault Session := do
  let (ret, w) ← pciDeviceClose munmap h.addr s.world
  if ret = cronoSuccess then
    return { s with world := w, live := s.live.erase h, closed := h :: s.closed }
  else return { s with world := w, failed := h :: s.failed }

def getBars (s : Session) (sys : BarSys) (h : Handle) : Except Fault Session := do
  let (_, _, _, w) ←
    getBarDescriptions sys h.addr (some 0) (some (Vector.replicate 6 .zero)) s.world
  return { s with world := w }

/-- The unload hook; no handle is live after it. -/
def unload (s : Session) : Except Fault Session := do
  let w ← onUnload s.world
  return { s with world := w, live := [] }

def step (s : Session) : Op → Except Fault Session
  | .openDev sys slot => s.openDev sys slot
  | .closeDev munmap h => s.closeDev munmap h
  | .getBars sys h => s.getBars sys h
  | .unload => s.unload

/-- The caller passes live handles. -/
def Legal (s : Session) : Op → Prop
  | .closeDev _ h => h ∈ s.live
  | .getBars _ h => h ∈ s.live
  | _ => True

instance (s : Session) (op : Op) : Decidable (s.Legal op) :=
  match op with
  | .openDev .. => inferInstanceAs (Decidable True)
  | .closeDev _ h => inferInstanceAs (Decidable (h ∈ s.live))
  | .getBars _ h => inferInstanceAs (Decidable (h ∈ s.live))
  | .unload => inferInstanceAs (Decidable True)

end Session

/-- A process that has not called the library: the globals are zero. -/
def World.Initial (w : World) : Prop := w.reg = Registry.empty

/-- The session of a process that has not called the library. -/
def Session.start (w : World) : Session := ⟨w, [], [], [], 0⟩

/-- The sessions that calls meeting `G`, on live handles, lead to. -/
def Session.Reaches (G : Session → Op → Prop) (w : World) (s : Session) : Prop :=
  Reach Session.step (fun s op => s.Legal op ∧ G s op) (Session.start w) s

/-- The sessions of all runs. -/
def Session.Reachable (w : World) (s : Session) : Prop := Session.Reaches (fun _ _ => True) w s

/-! ## A small machine

Answers of a system with devices `0000:<bus>:00.0`, on which concrete runs are
evaluated. -/

/-- A process with the three standard streams open. -/
def World.boot : World where
  heap := ⟨fun _ => none, [], rfl⟩
  fds :=
    { file := fun n => if n < 3 then some n else none
      bound := 3
      next := 3
      path := fun _ => "/dev/tty".toList
      closes := []
      above := fun n hn => if_neg (Nat.not_lt.2 hn)
      lt_next := fun n f h => by split at h <;> simp_all
      inj := fun n m f hn hm => by split at hn <;> split at hm <;> simp_all
      once := List.nodup_nil
      gone := fun f hf => nomatch hf }
  dirs := 0
  space := ⟨[], [], by simp, List.Pairwise.nil⟩
  reg := .empty
  kernel := ⟨∅, ∅⟩
  mem := fun _ => 0

theorem World.boot_initial : World.boot.Initial := rfl

/-- A process with one device, at 16, whose misc device is open as descriptor 3
and whose BARs are not described yet. -/
def World.oneDevice : World :=
  { World.boot with
    heap := ⟨fun a => if a = 16 then some (.device { KernelDevice.zero with
      dwDeviceId := 6, miscdevFd := 3 }) else none, [], rfl⟩
    fds := World.boot.fds.install "/dev/crono_06".toList }

def busSlot (bus : UInt32) : PciSlot := ⟨0, bus, 0, 0⟩

/-- The device directory resolves, every file opens, and BAR number `i` is
mapped at `addr i`. -/
def BarSys.small (text : List Char) (addr : Fin 6 → Addr) : BarSys where
  readlink := fun _ => .ok "../../../devices/pci0000:00".toList
  linkBuf := []
  openResource := fun _ => none
  streamOpens := true
  text := text
  uninit := fun _ => ⟨0, 0, 0⟩
  openBar := fun _ => none
  mmap := fun ibar => .ok (addr ibar)

/-- Opening the device on `bus`: `malloc` returns `p`, `stat` of the misc
device answers `stat`, and everything else succeeds. -/
def OpenSys.small (bus : UInt32) (p : Addr) (stat : Option Errno) (bars : BarSys) : OpenSys where
  opendir := .ok [⟨dtLnk,
    "0000:".toList ++ Text.printUnsigned false 16 2 bus.toNat ++ ":00.0".toList⟩]
  slotVars := ⟨0, 0, 0, 0⟩
  malloc := p
  config := fun _ => ⟨none, fun i => if i = 0 then 0xDC else if i = 1 then 0x1A else 0x06,
    fun _ => .count 4⟩
  ids := (0, 0)
  stat := fun _ => stat
  openMisc := fun _ => none
  errno := 0
  bars := bars

/-- Open the device on `bus`, which has no BARs, at `p`. -/
def Op.opens (bus : UInt32) (p : Addr) : Op :=
  .openDev (.small bus p none (.small [] fun _ => 0)) (busSlot bus)

/-- Open the device on `bus`, with a BAR mapped at 4096, at `p`. -/
def Op.opensBar (bus : UInt32) (p : Addr) : Op :=
  .openDev (.small bus p none (.small "1000 1fff 200".toList fun _ => 4096)) (busSlot bus)

/-- Open the device on `bus`, whose misc device does not exist. -/
def Op.openFails (bus : UInt32) (p : Addr) : Op :=
  .openDev (.small bus p (some .noEnt) (.small [] fun _ => 0)) (busSlot bus)

/-- Close the device at `p`, whose misc device is open file `file`. -/
def Op.closes (p : Addr) (file : Nat) : Op := .closeDev (fun _ => none) ⟨p, file⟩

/-- Close the device at `p`, but `munmap` fails. -/
def Op.closeFails (p : Addr) (file : Nat) : Op :=
  .closeDev (fun _ => some .inval) ⟨p, file⟩

/-! ## The steps -/

/-- What an Open does to the session: nothing, a failure once the device is
registered, or a new live device. -/
inductive OpenStep (sys : OpenSys) (slot : PciSlot) (s : Session) : Session → Prop
  | nothing {fds : FdTable} (hfds : FdTable.Balanced s.world.fds fds) : OpenStep sys slot s
      { s with world := { s.world with fds }, peak := max s.peak (s.live.length + 1) }
  | dropped {w : World} (hdrop : Dropped sys.malloc s.world w)
      (hfds : FdTable.Balanced s.world.fds w.fds) (hmaps : s.world.space.maps ⊆ w.space.maps) :
      OpenStep sys slot s { s with world := w, peak := max s.peak (s.live.length + 1) }
  | opened {v : SlotVars} {d : KernelDevice} {w : World} (hv : OpensMisc sys slot s.world v)
      (hopened : Opened sys slot v d s.world w) : OpenStep sys slot s { s with
        world := w
        live := ⟨sys.malloc, Session.fileOf w sys.malloc⟩ :: s.live
        peak := max s.peak (s.live.length + 1) }

section Steps

variable {s s' : Session}

theorem step_openDev {sys : OpenSys} {slot : PciSlot} (h : s.step (.openDev sys slot) = .ok s') :
    OpenStep sys slot s s' := by
  obtain ⟨r, hr, he⟩ := pciDeviceOpen_result sys 0 slot s.world
  simp only [Session.step, Session.openDev, he] at h
  cases hr with
  | index | null | link => cases h
  | noDirectory =>
    cases h
    simpa using OpenStep.nothing (.refl s.world.fds)
  | notFound _ _ hfds =>
    cases h
    simpa using OpenStep.nothing hfds
  | failed _ _ hret hdrop hfds hspace =>
    cases h
    simpa [hret] using OpenStep.dropped hdrop hfds (by rw [hspace]; simp)
  | noBars _ _ hret hdrop hfds hmaps =>
    cases h
    simpa [hret] using OpenStep.dropped hdrop hfds hmaps
  | opened hv hopened =>
    cases h
    simpa [hv.ne_null] using OpenStep.opened hv hopened

theorem step_closeDev {munmap : Fin 6 → Option Errno} {h : Handle}
    (hs : s.step (.closeDev munmap h) = .ok s') :
    ∃ ret w, pciDeviceClose munmap h.addr s.world = .ok (ret, w) ∧
      ((ret = cronoSuccess ∧
          s' = { s with world := w, live := s.live.erase h, closed := h :: s.closed }) ∨
        (ret ≠ cronoSuccess ∧ s' = { s with world := w, failed := h :: s.failed })) := by
  simp only [Session.step, Session.closeDev] at hs
  obtain ⟨⟨ret, w⟩, he, hs⟩ := bind_eq_ok hs
  refine ⟨ret, w, he, ?_⟩
  simp only at hs
  split at hs
  · next hret =>
    cases hs
    exact Or.inl ⟨hret, rfl⟩
  · next hret =>
    cases hs
    exact Or.inr ⟨hret, rfl⟩

/-- Describing the BARs of a live device changes that device's table alone. -/
theorem step_getBars {sys : BarSys} {h : Handle} {d : KernelDevice}
    (hd : s.world.device? h.addr = some d) (hs : s.step (.getBars sys h) = .ok s') :
    ∃ w, s' = { s with world := w } ∧
      (w = s.world ∨ ∃ ret, FillEnds sys h.addr d s.world ret w) := by
  simp only [Session.step, Session.getBars, getBarDescriptions, initHDevFunc_of_device hd] at hs
  obtain ⟨⟨ret, c, b, w⟩, he, hs⟩ := bind_eq_ok hs
  cases hs
  refine ⟨w, rfl, ?_⟩
  simp only [bind, Except.bind, pure, Except.pure] at he
  by_cases hid : d.dwDeviceId = 0
  · simp only [hid, ↓reduceIte, Except.ok.injEq, Prod.mk.injEq] at he
    exact Or.inl he.2.2.2.symm
  simp only [hid, ↓reduceIte, Option.isNone_some, Bool.false_eq_true, or_self] at he
  rcases fill_ends sys hd with ⟨-, -, i, herr⟩ | ⟨ret', w', hfill, hends⟩
  · rw [herr] at he
    cases he
  rw [hfill] at he
  simp only [ne_eq, ite_not] at he
  split at he
  · cases hd' : w'.derefDevice h.addr with
    | error e => rw [hd'] at he; cases he
    | ok d' =>
      rw [hd'] at he
      cases he
      exact Or.inr ⟨_, hends⟩
  · cases he
    exact Or.inr ⟨_, hends⟩

end Steps

end CronoPci
