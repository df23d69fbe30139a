import CronoPci.Verify.OpenErrors
import CronoPci.Verify.ScanOpen
import CronoPci.Verify.Uses

/-!
# What a success of Open means

Open returns the same code at the end of its directory loop as after a device
is opened, takes the variables of a name that `sscanf` did not read to the end
for a slot, and does not look at the device id that makes a handle valid
later on. Where none of this happens, a success comes with a handle of the slot
that every call accepts until it is closed.
-/

namespace CronoPci

open Posix Trans

/-! ## Opens that complete -/

/-- An Open that gave a device got past every check. -/
theorem Opened.completes {sys : OpenSys} {slot : PciSlot} {v : SlotVars} {d : KernelDevice}
    {w w' : World} (hv : OpensMisc sys slot w v) (h : Opened sys slot v d w w') :
    sys.Completes slot w := by
  obtain rfl := hv.found.eq_vars
  obtain ⟨herr, -⟩ := cronoReadVendorDevice_result (constructConfigFilePath slot)
    (sys.config (constructConfigFilePath slot)) sys.ids w.fds
  have hstat := hv.stat
  have hmisc := hv.misc
  rw [foundDevice_vars] at hstat hmisc
  obtain ⟨bars, hd⟩ := h.device
  obtain ⟨dir, descs, hfilled, -⟩ := h.bars
  have hdir := hfilled.directory
  rw [hd] at hdir
  exact ⟨hv.found, herr.symm.trans hv.ids, hv.room, hv.ne_null, hv.fresh, hstat, hmisc,
    h.not_fails, hdir.not_overruns⟩

/-- The device opened has the slot asked for and the id read. -/
theorem Opened.slot_id {sys : OpenSys} {slot : PciSlot} {d : KernelDevice} {w w' : World}
    (h : Opened sys slot slot.vars d w w') :
    d.pciSlot = slot ∧ (d.dwDeviceId = 0 ↔ (sys.seenIds slot).2 = 0) := by
  obtain ⟨bars, hd⟩ := h.device
  rw [foundDevice_vars] at hd
  subst hd
  refine ⟨rfl, ?_⟩
  simp only [newDevice, ← UInt32.toNat_inj, ← UInt16.toNat_inj, UInt16.toNat_toUInt32]
  rfl

/-! ## Trust -/

/-- The listing has a link whose name gives the slot. -/
def Listed (sys : OpenSys) (slot : PciSlot) : Prop :=
  ∃ ens, sys.opendir = .ok ens ∧ ∃ en ∈ ens, en.dType = dtLnk ∧ slotOfName en.dName = some slot

/-- The calls that check their handle take `p` for a device of `slot`. -/
def World.Accepts (w : World) (p : Addr) (slot : PciSlot) : Prop :=
  ∃ d, w.initHDevFunc p = .ok (.ok d) ∧ d.pciSlot = slot

/-- What the results of an Open by the client `c` promise: a success comes with a
handle that is accepted for as long as it is live, and a slot that is not listed
gives no success. -/
structure Trusted (c : Client) (sys : OpenSys) (slot : PciSlot) (ret : Code)
    (phDev : Option Addr) : Prop where
  handle : ret = cronoSuccess → ∃ (h : Handle) (c' : Client), phDev = some h.addr ∧ h.addr ≠ 0 ∧
    c.step (.registry (.openDev sys slot)) = .ok c' ∧ h ∈ c'.live ∧
      ∀ t, Client.ReachesHolding h c' t → h ∈ t.live → t.world.Accepts h.addr slot
  listed : ¬Listed sys slot → ret ≠ cronoSuccess

theorem Trusted.of_error {c : Client} {sys : OpenSys} {slot : PciSlot} {ret : Code}
    {phDev : Option Addr} (h : ret ≠ cronoSuccess) : Trusted c sys slot ret phDev :=
  ⟨fun he => absurd he h, fun _ => h⟩

/-- The client after an Open that returned a handle. -/
theorem step_opened {c : Client} {sys : OpenSys} {slot : PciSlot} {w' : World}
    (hopen : pciDeviceOpen sys (some 0) (some slot) c.world =
      .ok (cronoSuccess, some sys.malloc, w')) (h0 : sys.malloc ≠ 0) :
    ∃ c', c.step (.registry (.openDev sys slot)) = .ok c' ∧ c'.world = w' ∧
      ⟨sys.malloc, Session.fileOf w' sys.malloc⟩ ∈ c'.live := by
  have hstep : c.session.openDev sys slot = .ok { c.session with
      world := w'
      live := ⟨sys.malloc, Session.fileOf w' sys.malloc⟩ :: c.session.live
      peak := max c.session.peak (c.session.live.length + 1) } := by
    have hopen' : pciDeviceOpen sys (some 0) (some slot) c.session.world =
        .ok (cronoSuccess, some sys.malloc, w') := hopen
    simp [Session.openDev, hopen', h0, bind, Except.bind, pure, Except.pure]
  refine ⟨_, by simp only [Client.step, Session.step, hstep]; rfl, rfl, List.mem_cons_self⟩

/-- In every run, the results of an Open can be trusted exactly when some entry
matches, or the directory does not open, and an Open that completes is for a slot
that is listed and a device id that is not 0. -/
theorem open_trusted_iff {w : World} {c : Client} (hw : w.Initial) (hc : Client.Reachable w c)
    {sys : OpenSys} {slot : PciSlot} {prior : Addr} {ret : Code} {phDev : Option Addr}
    {w' : World}
    (hopen : pciDeviceOpen sys (some prior) (some slot) c.world = .ok (ret, phDev, w')) :
    Trusted c sys slot ret phDev ↔
      (∀ ens, sys.opendir = .ok ens → matchedVars slot ens sys.slotVars ≠ none) ∧
      (sys.Completes slot c.world → Listed sys slot ∧ (sys.seenIds slot).2 ≠ 0) := by
  have hi := clientInv_reachable hw hc
  have hopen0 : pciDeviceOpen sys (some 0) (some slot) c.world = .ok (ret, phDev, w') := hopen
  obtain ⟨r, hr, heq⟩ := pciDeviceOpen_result sys prior slot c.world
  rw [heq] at hopen
  constructor
  · intro ht
    refine ⟨?_, ?_⟩
    · intro ens hens hnone
      simp only [pciDeviceOpen, hens, openLoop_eq, hnone, bind, Except.bind, pure, Except.pure]
        at hopen0
      cases hopen0
      obtain ⟨h, c', hp, h0, -⟩ := ht.handle rfl
      exact h0 (Option.some.inj hp).symm
    · intro hcomplete
      obtain ⟨d, w₁, rfl, hopened⟩ := hr.completed hcomplete
      cases hopen
      refine ⟨by_contra fun hnot => ht.listed hnot rfl, ?_⟩
      obtain ⟨h, c', hp, h0, hstep, hlive, haccepts⟩ := ht.handle rfl
      obtain ⟨c'', hstep', hworld, -⟩ := step_opened hopen0 hcomplete.succeeds.ne_null
      obtain rfl : c'' = c' := Except.ok.inj (hstep'.symm.trans hstep)
      -- the handle is accepted at once, so its device id is not 0
      obtain ⟨d', hd', -⟩ := haccepts c'' .init hlive
      obtain ⟨hdev, hid⟩ := initHDevFunc_ok hd'
      rw [hworld, ← Option.some.inj hp, World.device?_update hopened.get, if_pos rfl] at hdev
      obtain rfl := Option.some.inj hdev
      exact fun h => hid (hopened.slot_id.2.2 h)
  · rintro ⟨hmatch, hcomplete⟩
    cases hr with
    | index | null | link => cases hopen
    | noDirectory =>
      cases hopen
      exact .of_error (Errno.ne_zero _)
    | notFound hens hnone => exact absurd hnone (hmatch _ hens)
    | failed _ _ hret | noBars _ _ hret =>
      cases hopen
      exact .of_error hret
    | @opened v d _ hv hopened =>
      cases hopen
      obtain ⟨hlisted, hid⟩ := hcomplete (hopened.completes hv)
      refine ⟨fun _ => ?_, fun hnot => absurd hlisted hnot⟩
      obtain rfl := hv.found.eq_vars
      obtain ⟨hslot, hid0⟩ := hopened.slot_id
      obtain ⟨c', hstep, rfl, hlive⟩ := step_opened hopen0 hv.ne_null
      refine ⟨_, c', rfl, hv.ne_null, hstep, hlive, ?_⟩
      intro t hreach hlive'
      have hl : c.Legal (.registry (.openDev sys slot)) := trivial
      have hdev : c'.world.device? sys.malloc = some d := by
        rw [World.device?_update hopened.get, if_pos rfl]
      obtain ⟨bars, hd⟩ := device_until_closed (use_inv hi hl hstep) hdev hreach hlive'
      refine ⟨{ d with bars }, (initHDevFunc_of_device hd).trans ?_, hslot⟩
      rw [if_neg (fun h => hid (hid0.1 h))]

/-- An Open of the function on `bus` over these links. -/
def OpenSys.over (names : List (List Char)) (bus : UInt32) : OpenSys :=
  { OpenSys.small bus 16 none (.small [] fun _ => 0) with
    opendir := .ok (names.map fun name => ⟨dtLnk, name⟩) }

/-- The second of two functions is opened. -/
theorem open_trusted_second : ∃ w', pciDeviceOpen (.over [kernelName (busSlot 1),
      kernelName (busSlot 2)] 2) (some 0) (some (busSlot 2)) World.boot =
        .ok (cronoSuccess, some 16, w') ∧
      Trusted (.start .boot) (.over [kernelName (busSlot 1), kernelName (busSlot 2)] 2) (busSlot 2)
        cronoSuccess (some 16) := by
  obtain ⟨w', hopen⟩ : ∃ w', pciDeviceOpen
      (.over [kernelName (busSlot 1), kernelName (busSlot 2)] 2) (some 0) (some (busSlot 2))
        (Client.start .boot).world = .ok (cronoSuccess, some 16, w') := ⟨_, rfl⟩
  refine ⟨w', hopen, (open_trusted_iff World.boot_initial .init hopen).2 ⟨?_, ?_⟩⟩
  · intro ens hens
    cases hens
    decide
  · intro _
    exact ⟨⟨_, rfl, ⟨dtLnk, kernelName (busSlot 2)⟩, by simp, rfl, by decide⟩, by decide⟩

/-- Successes that cannot be trusted: for a listing without links, for a function
whose id is 0, and for one that takes its last two numbers from the entry before. -/
theorem open_not_trusted :
    (∃ w', pciDeviceOpen (.over [] 1) (some 0) (some (busSlot 1)) World.boot =
        .ok (cronoSuccess, some 0, w') ∧
      ¬Trusted (.start .boot) (.over [] 1) (busSlot 1) cronoSuccess (some 0)) ∧
    (∃ w', pciDeviceOpen { OpenSys.over [kernelName (busSlot 1)] 1 with
        config := fun _ => ⟨none, fun _ => 0, fun _ => .count 4⟩ } (some 0) (some (busSlot 1))
          World.boot = .ok (cronoSuccess, some 16, w') ∧ ¬w'.Accepts 16 (busSlot 1)) ∧
    ∃ w', pciDeviceOpen (.over [kernelName (busSlot 1), "0000:02".toList] 2) (some 0)
        (some (busSlot 2)) World.boot = .ok (cronoSuccess, some 16, w') ∧
      ¬Listed (.over [kernelName (busSlot 1), "0000:02".toList] 2) (busSlot 2) := by
  refine ⟨⟨_, rfl, ?_⟩, ⟨_, rfl, ?_⟩, ⟨_, rfl, ?_⟩⟩
  · intro ht
    obtain ⟨h, c', hp, h0, -⟩ := ht.handle rfl
    exact h0 (Option.some.inj hp).symm
  · rintro ⟨d, hd, -⟩
    cases hd
  · rintro ⟨ens, hens, en, hen, -, hname⟩
    cases hens
    have hnone : ∀ name ∈ [kernelName (busSlot 1), "0000:02".toList],
        slotOfName name ≠ some (busSlot 2) := by decide
    obtain ⟨name, hmem, rfl⟩ := List.mem_map.1 hen
    exact hnone name hmem hname

end CronoPci
