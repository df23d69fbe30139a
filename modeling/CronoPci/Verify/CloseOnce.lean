import CronoPci.Verify.Range

/-!
# Closing the misc device once

Close first closes the descriptor of the misc device and then unmaps the BARs,
which may fail; nothing records that the first step was done. `FileInv` says
what holds as long as no Close is called again after such a failure: a device
that was not closed has its own file open under its number, and the file of one
that was closed, or whose Close failed, was closed once. The second Close on a
handle closes whatever has the number then.
-/

namespace CronoPci

open Posix Trans

/-! ## Descriptors in a Close -/

/-- A Close that gets past the handle check closes the number it finds in the
device, whatever follows. -/
theorem CloseResult.fds {munmap : Fin 6 → Option Errno} {p : Addr} {d : KernelDevice}
    {w w' : World} {ret : Code} (h : CloseResult munmap p d w (.ok (ret, w')))
    (hid : d.dwDeviceId ≠ 0) : w'.fds = w.fds.close d.miscdevFd := by
  cases h with
  | invalid hid' => exact absurd hid' hid
  | badFd => rfl
  | closed _ _ hr =>
    cases hr with
    | unmapFails => rfl
    | released _ _ _ _ hfreed hshrunk => rw [hshrunk.fds, hfreed.fds]; rfl
    | absent _ _ hshrunk => rw [hshrunk.fds]; rfl

theorem CloseResult.invalid_eq {munmap : Fin 6 → Option Errno} {p : Addr} {d : KernelDevice}
    {w w' : World} {ret : Code} (h : CloseResult munmap p d w (.ok (ret, w')))
    (hid : d.dwDeviceId = 0) : w' = w := by
  cases h with
  | invalid => rfl
  | badFd hid' => exact absurd hid hid'
  | closed hid' => exact absurd hid hid'

/-! ## The invariant -/

/-- What ties the handles of the caller to the descriptor table. -/
structure FileInv (live failed closed : List Handle) (w : World) : Prop where
  /-- Before its first Close a device has its own file open. -/
  opened : ∀ h ∈ live, h ∉ failed →
    ∃ d, w.device? h.addr = some d ∧ w.fds.file d.miscdevFd = some h.file
  /-- Afterwards its file was closed once. -/
  once : ∀ h, h ∈ failed ∨ h ∈ closed → w.fds.closeCount h.file = 1
  /-- No two live handles name one file. -/
  inj : ∀ h ∈ live, ∀ h' ∈ live, h.file = h'.file → h = h'

namespace FileInv

variable {live failed closed : List Handle} {w w' : World}

/-- The files named are old ones. -/
theorem lt_next (hi : FileInv live failed closed w) {h : Handle} (hh : h ∈ live) :
    h.file < w.fds.next := by
  by_cases hf : h ∈ failed
  · have hmem : h.file ∈ closedFiles w.fds.closes :=
      List.count_pos_iff.1 (by rw [← FdTable.closeCount, hi.once h (Or.inl hf)]; omega)
    exact (w.fds.gone _ hmem).1
  · obtain ⟨d, -, hfile⟩ := hi.opened h hh hf
    exact w.fds.lt_next _ _ hfile

theorem closed_lt (hi : FileInv live failed closed w) {h : Handle}
    (hh : h ∈ failed ∨ h ∈ closed) : h.file < w.fds.next :=
  (w.fds.gone _ (List.count_pos_iff.1 (by rw [← FdTable.closeCount, hi.once h hh]; omega))).1

/-- Code that opens and closes only files of its own, and no block of a live
device but for its table. -/
theorem frame (hi : FileInv live failed closed w) {file : Nat → Option Nat}
    (hfds : FdTable.Effect w.fds w'.fds file)
    (hfile : ∀ n f, w.fds.file n = some f → file n = some f)
    (hdev : ∀ h ∈ live, ∀ d, w.device? h.addr = some d →
      ∃ bars, w'.device? h.addr = some { d with bars }) : FileInv live failed closed w' where
  opened h hh hf := by
    obtain ⟨d, hd, hown⟩ := hi.opened h hh hf
    obtain ⟨bars, hd'⟩ := hdev h hh d hd
    exact ⟨_, hd', by rw [hfds.file_eq]; exact hfile _ _ hown⟩
  once h hh := by
    rw [hfds.closeCount (hi.closed_lt hh)]
    exact hi.once h hh
  inj := hi.inj

theorem dropped (hi : FileInv live failed closed w) {p : Addr} (h : Dropped p w w')
    (hfds : FdTable.Balanced w.fds w'.fds) : FileInv live failed closed w' :=
  hi.frame hfds (fun _ _ hn => hn) fun h' _ d hd =>
    ⟨d.bars, by rw [World.device?_congr (congrFun h.get _)]; exact hd⟩

/-- A new device has a new file. -/
theorem opens (hi : FileInv live failed closed w) (hreg : RegInv live w) {sys : OpenSys}
    {slot : PciSlot} {v : SlotVars} {d : KernelDevice} (hv : OpensMisc sys slot w v)
    (h : Opened sys slot v d w w') :
    FileInv (⟨sys.malloc, Session.fileOf w' sys.malloc⟩ :: live) failed closed w' := by
  obtain ⟨f, hf, -, -, hfds⟩ := h.fds
  obtain ⟨bars, hd⟩ := h.device
  have hnew : w'.device? sys.malloc = some d := by rw [World.device?_update h.get, if_pos rfl]
  have hown : w'.fds.file d.miscdevFd = some f := by
    rw [hfds.file_eq, hd, Function.update_self]
  have hfile : Session.fileOf w' sys.malloc = f := by simp [Session.fileOf, hnew, hown]
  have hold : FileInv live failed closed w' := by
    apply hi.frame hfds fun _ _ hn => FdTable.update_of_free w.file_miscNumber hn f
    intro h' hh' d' hd'
    rw [World.device?_update h.get, if_neg (hreg.ne_fresh hv.fresh hh')]
    exact ⟨d'.bars, hd'⟩
  refine ⟨?_, hold.once, ?_⟩
  · intro h' hh' hnf
    rcases List.mem_cons.1 hh' with rfl | hh'
    · exact ⟨d, hnew, by rw [hown, hfile]⟩
    · exact hold.opened h' hh' hnf
  · intro h₁ hh₁ h₂ hh₂ he
    rw [hfile] at hh₁ hh₂
    rcases List.mem_cons.1 hh₁ with rfl | hh₁ <;> rcases List.mem_cons.1 hh₂ with rfl | hh₂
    · rfl
    · have := hi.lt_next hh₂
      simp only at he
      omega
    · have := hi.lt_next hh₁
      simp only at he
      omega
    · exact hi.inj h₁ hh₁ h₂ hh₂ he

/-- The first Close of a device closes its own file. -/
theorem close (hi : FileInv live failed closed w) (hreg : RegInv live w) {h : Handle}
    {d : KernelDevice} {munmap : Fin 6 → Option Errno} {ret : Code} (hh : h ∈ live)
    (hnf : h ∉ failed) (hd : w.device? h.addr = some d) (hid : d.dwDeviceId ≠ 0)
    (hc : pciDeviceClose munmap h.addr w = .ok (ret, w')) :
    FileInv (live.erase h) failed (h :: closed) w' ∧ FileInv live (h :: failed) closed w' := by
  have hr := pciDeviceClose_result munmap hd hreg.distinct
  rw [hc] at hr
  have hfds := hr.fds hid
  have hown : w.fds.file d.miscdevFd = some h.file := by
    obtain ⟨d', hd', hown⟩ := hi.opened h hh hnf
    rw [hd] at hd'
    cases hd'
    exact hown
  have hopened (h' : Handle) (hh' : h' ∈ live) (hne : h' ≠ h) (hnf' : h' ∉ failed) :
      ∃ d', w'.device? h'.addr = some d' ∧ w'.fds.file d'.miscdevFd = some h'.file := by
    obtain ⟨d', hd', hown'⟩ := hi.opened h' hh' hnf'
    have hsame : w'.device? h'.addr = w.device? h'.addr :=
      World.device?_congr (hr.get_ne (hreg.addr_ne hh hh' hne))
    refine ⟨d', by rw [hsame]; exact hd', ?_⟩
    have hnum : d'.miscdevFd ≠ d.miscdevFd := fun he => by
      rw [he, hown, Option.some.injEq] at hown'
      exact hne (hi.inj h' hh' h hh hown'.symm)
    rw [hfds, FdTable.file_close, Function.update_of_ne hnum]
    exact hown'
  have hself : w'.fds.closeCount h.file = 1 := by
    rw [hfds]
    exact FdTable.closeCount_close_self hown
  have honce (h' : Handle) (hh' : h' ∈ failed ∨ h' ∈ closed) :
      w'.fds.closeCount h'.file = 1 := by
    have hone := hi.once h' hh'
    rw [hfds, FdTable.closeCount_close_ne (FdTable.file_ne_of_closeCount hone)]
    exact hone
  constructor
  · refine ⟨?_, ?_, ?_⟩
    · intro h' hh' hnf'
      obtain ⟨hne, hh'⟩ := hreg.mem_erase.1 hh'
      exact hopened h' hh' hne hnf'
    · intro h' hh'
      rw [List.mem_cons] at hh'
      rcases hh' with hh' | rfl | hh'
      · exact honce h' (Or.inl hh')
      · exact hself
      · exact honce h' (Or.inr hh')
    · intro h₁ hh₁ h₂ hh₂
      exact hi.inj h₁ (List.mem_of_mem_erase hh₁) h₂ (List.mem_of_mem_erase hh₂)
  · refine ⟨?_, ?_, hi.inj⟩
    · intro h' hh' hnf'
      rw [List.mem_cons, not_or] at hnf'
      exact hopened h' hh' hnf'.1 hnf'.2
    · intro h' hh'
      rw [List.mem_cons] at hh'
      rcases hh' with (rfl | hh') | hh'
      · exact hself
      · exact honce h' (Or.inl hh')
      · exact honce h' (Or.inr hh')

end FileInv

/-! ## Runs -/

/-- A device with an id other than 0, which the handle check lets pass. -/
def World.ValidDevice (w : World) (p : Addr) : Prop :=
  match w.device? p with
  | some d => d.dwDeviceId ≠ 0
  | none => False

instance (w : World) (p : Addr) : Decidable (w.ValidDevice p) :=
  match h : w.device? p with
  | some d => decidable_of_iff (d.dwDeviceId ≠ 0) (by simp only [World.ValidDevice, h])
  | none => isFalse (by simp only [World.ValidDevice, h, not_false_eq_true])

/-- Close is not called again on a handle whose Close failed, nor on a device
with id 0. -/
def Session.ClosesFirst (s : Session) : Op → Prop
  | .closeDev _ h => h ∉ s.failed ∧ s.world.ValidDevice h.addr
  | _ => True

instance (s : Session) (op : Op) : Decidable (s.ClosesFirst op) :=
  match op with
  | .closeDev _ h => inferInstanceAs (Decidable (h ∉ s.failed ∧ s.world.ValidDevice h.addr))
  | .openDev .. => inferInstanceAs (Decidable True)
  | .getBars .. => inferInstanceAs (Decidable True)
  | .unload => inferInstanceAs (Decidable True)

theorem fileInv_step {s s' : Session} {op : Op} (hreg : RegInv s.live s.world)
    (hi : FileInv s.live s.failed s.closed s.world) (hl : s.Legal op) (hg : s.ClosesFirst op)
    (hs : s.step op = .ok s') : FileInv s'.live s'.failed s'.closed s'.world := by
  cases op with
  | openDev sys slot =>
    cases step_openDev hs with
    | nothing hfds => exact hi.frame hfds (fun _ _ h => h) fun _ _ d hd => ⟨d.bars, hd⟩
    | dropped hdrop hfds => exact hi.dropped hdrop hfds
    | opened hv hopened => exact hi.opens hreg hv hopened
  | closeDev munmap h =>
    obtain ⟨hnf, hvalid⟩ := hg
    obtain ⟨d, hd⟩ := hreg.device h hl
    have hid : d.dwDeviceId ≠ 0 := by simpa only [World.ValidDevice, hd] using hvalid
    obtain ⟨ret, w, hc, ⟨-, rfl⟩ | ⟨-, rfl⟩⟩ := step_closeDev hs
    · exact (hi.close hreg hl hnf hd hid hc).1
    · exact (hi.close hreg hl hnf hd hid hc).2
  | getBars sys h =>
    obtain ⟨d, hd⟩ := hreg.device h hl
    obtain ⟨w, rfl, rfl | ⟨ret, hends⟩⟩ := step_getBars hd hs
    · exact hi
    · obtain ⟨bars, hbars⟩ := hends.retabled hd
      apply hi.frame hends.fds (fun _ _ h => h)
      intro h' hh' d' hd'
      rw [World.device?_update hbars.get]
      split
      · next he =>
        rw [he, hd, Option.some.injEq] at hd'
        exact ⟨bars, by rw [hd']⟩
      · exact ⟨d'.bars, hd'⟩
  | unload =>
    obtain ⟨as, w, hfreed, -, rfl⟩ := step_unload hreg hs
    refine ⟨fun h hh => absurd hh List.not_mem_nil, fun h hh => ?_,
      fun h hh => absurd hh List.not_mem_nil⟩
    simp only [hfreed.fds]
    exact hi.once h hh

/-- The exact condition for one Close to close the device's own file. -/
theorem closesFirst_iff {s : Session} {h : Handle} {munmap : Fin 6 → Option Errno} {ret : Code}
    {w' : World} (hreg : RegInv s.live s.world) (hi : FileInv s.live s.failed s.closed s.world)
    (hh : h ∈ s.live) (hc : pciDeviceClose munmap h.addr s.world = .ok (ret, w')) :
    s.ClosesFirst (.closeDev munmap h) ↔
      ∃ n, w'.fds.closes = (n, some h.file) :: s.world.fds.closes := by
  obtain ⟨d, hd⟩ := hreg.device h hh
  have hr := pciDeviceClose_result munmap hd hreg.distinct
  rw [hc] at hr
  simp only [Session.ClosesFirst, World.ValidDevice, hd]
  constructor
  · rintro ⟨hnf, hid⟩
    obtain ⟨d', hd', hown⟩ := hi.opened h hh hnf
    rw [hd] at hd'
    cases hd'
    exact ⟨d.miscdevFd, by rw [hr.fds hid, FdTable.closes_close, hown]⟩
  · rintro ⟨n, hn⟩
    by_cases hid : d.dwDeviceId = 0
    · rw [hr.invalid_eq hid] at hn
      exact absurd (congrArg List.length hn) (by simp)
    refine ⟨?_, hid⟩
    intro hf
    -- the file was closed before and cannot be what the number refers to
    rw [hr.fds hid, FdTable.closes_close, List.cons.injEq, Prod.mk.injEq] at hn
    exact FdTable.file_ne_of_closeCount (hi.once h (Or.inl hf)) hn.1.2

/-- In every run that calls Close once on each device, with an id other than 0,
a device that Close was called on had its misc device closed once, and one that
it was not called on still has its own open under its number. The next Close
closes the device's own file exactly when it is the first one; then it releases
a device in range unless a `munmap` fails. -/
theorem misc_closed_once {w : World} {s : Session} (hw : w.Initial)
    (hs : Session.Reaches Session.ClosesFirst w s) :
    (∀ h, h ∈ s.failed ∨ h ∈ s.closed → s.world.fds.closeCount h.file = 1) ∧
    (∀ h ∈ s.live, h ∉ s.failed → ∃ d, s.world.device? h.addr = some d ∧
      s.world.fds.file d.miscdevFd = some h.file ∧ s.world.fds.closeCount h.file = 0) ∧
    (∀ h ∈ s.live, ∀ munmap ret w', pciDeviceClose munmap h.addr s.world = .ok (ret, w') →
      (s.ClosesFirst (.closeDev munmap h) ↔
        ∃ n, w'.fds.closes = (n, some h.file) :: s.world.fds.closes)) ∧
    ∀ h ∈ s.live, ∀ munmap, s.ClosesFirst (.closeDev munmap h) → s.world.reg.iNewDev < 8 →
      s.world.reg.Holds h.addr → (∀ j, munmap j = none) →
      ∃ d w', s.world.device? h.addr = some d ∧
        pciDeviceClose munmap h.addr s.world = .ok (cronoSuccess, w') ∧
        Released h.addr d s.world w' := by
  have hreg := regInv_reaches hw hs
  have hi : FileInv s.live s.failed s.closed s.world :=
    Reach.invariant_of (I := fun s => FileInv s.live s.failed s.closed s.world)
      ⟨by simp [Session.start], by simp [Session.start], by simp [Session.start]⟩
      (fun _ ht => regInv_reaches hw ht)
      (fun _ _ _ hreg hi hg hstep => fileInv_step hreg hi hg.1 hg.2 hstep) hs
  refine ⟨hi.once, ?_, fun h hh munmap ret w' hc => closesFirst_iff hreg hi hh hc,
    ?_⟩
  · intro h hh hnf
    obtain ⟨d, hd, hown⟩ := hi.opened h hh hnf
    exact ⟨d, hd, hown, FdTable.closeCount_eq_zero hown⟩
  · intro h hh munmap hg hroom hhold hunmap
    obtain ⟨hnf, hvalid⟩ := hg
    obtain ⟨d, hd, hown⟩ := hi.opened h hh hnf
    have hid : d.dwDeviceId ≠ 0 := by simpa only [World.ValidDevice, hd] using hvalid
    have hrel : Releases munmap h.addr s.world :=
      (releases_iff hd).2 ⟨hid, by simp [hown], fun _ j _ _ => hunmap j⟩
    have hends := pciDeviceClose_ends munmap hd hreg.distinct
    generalize pciDeviceClose munmap h.addr s.world = r at hends
    cases hends with
    | kept hnot => exact absurd hrel hnot
    | overruns _ h8 => omega
    | released _ hdone => exact ⟨d, _, hd, rfl, hdone⟩

/-- A Close that fails, and one that succeeds. -/
theorem misc_closed_once_failed : ∃ s, Session.Reaches Session.ClosesFirst World.boot s ∧
    s.failed = [⟨16, 5⟩] ∧ s.closed = [⟨32, 11⟩] ∧
    ∀ h, h ∈ s.failed ∨ h ∈ s.closed → s.world.fds.closeCount h.file = 1 := by
  obtain ⟨s, hs, hfailed, hclosed⟩ : ∃ s, Session.Reaches Session.ClosesFirst World.boot s ∧
      s.failed = [⟨16, 5⟩] ∧ s.closed = [⟨32, 11⟩] :=
    exists_reach_of_run [.opensBar 1 16, .closeFails 16 5, .opens 2 32, .closes 32 11] (by decide)
  exact ⟨s, hs, hfailed, hclosed, (misc_closed_once World.boot_initial hs).1⟩

/-- The Close of device 1 fails, device 2 gets its number, and the second Close
of device 1 closes the misc device of device 2. -/
theorem close_again_closes_other : ∃ s, Session.Reachable World.boot s ∧
    s.closed = [⟨16, 5⟩] ∧ s.live = [⟨32, 11⟩] ∧ s.world.fds.closeCount 11 = 1 :=
  exists_reach_of_run
    [.opensBar 1 16, .closeFails 16 5, .opens 2 32, .closes 16 5] (by decide)

end CronoPci
