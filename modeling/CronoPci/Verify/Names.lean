import CronoPci.Model.Device
import CronoPci.Posix.Numerals

/-!
# Slot names

The entries of the device directory are named by their slots. `slotOfName` is
the slot of a name in which `sscanf` finds all four fields. The kernel prints a
slot in a way that reads back, so that distinct functions have distinct names.
-/

namespace CronoPci

open Posix Posix.Text

/-- The slot that a name gives, when all four fields of
`"%x:%02x:%02x.%1u"` are found. -/
def slotOfName (name : List Char) : Option PciSlot := do
  let (domain, cs) ← scanUnsigned 16 name.length name
  let (bus, cs) ← (scanLiteral ':' cs).bind (scanUnsigned 16 2)
  let (dev, cs) ← (scanLiteral ':' cs).bind (scanUnsigned 16 2)
  let (func, _) ← (scanLiteral '.' cs).bind (scanUnsigned 10 1)
  return ⟨domain, bus, dev, func⟩

/-- A name with all four fields sets all four variables, whatever they held. -/
theorem sscanfSlot_of_slotOfName {name : List Char} {s : PciSlot}
    (h : slotOfName name = some s) (v : SlotVars) :
    sscanfSlot name v = ⟨s.dwDomain, s.dwBus, s.dwSlot, s.dwFunction⟩ := by
  simp only [slotOfName, bind, Option.bind_eq_some_iff, pure, Option.some.injEq, Prod.exists]
    at h
  obtain ⟨domain, cs, hdomain, bus, cs', ⟨cs₁, hlit₁, hbus⟩, dev, cs'', ⟨cs₂, hlit₂, hdev⟩, func,
    cs₃, ⟨cs₄, hlit₃, hfunc⟩, rfl⟩ := h
  simp only [sscanfSlot, hdomain, hlit₁, hbus, hlit₂, hdev, hlit₃, hfunc, Option.bind_some]

/-- The ranges of the fields of a PCI function. -/
structure PciSlot.Valid (s : PciSlot) : Prop where
  bus : s.dwBus ≤ 0xFF
  dev : s.dwSlot ≤ 0x1F
  func : s.dwFunction ≤ 7

instance (s : PciSlot) : Decidable s.Valid :=
  decidable_of_iff (s.dwBus ≤ 0xFF ∧ s.dwSlot ≤ 0x1F ∧ s.dwFunction ≤ 7)
    ⟨fun ⟨bus, dev, func⟩ => ⟨bus, dev, func⟩, fun h => ⟨h.bus, h.dev, h.func⟩⟩

/-- The name under which the kernel lists a function: `"%04x:%02x:%02x.%d"`. -/
def kernelName (s : PciSlot) : List Char := slotText 4 s

theorem scanUnsigned_field {base field : Nat} {n : UInt32} {rest : List Char} (width : Nat)
    (hb : 1 < base) (hb' : base ≤ 16) (hw : (digitsOf base width n.toNat).length ≤ field)
    (hrest : Stops base rest) :
    scanUnsigned base field (printUnsigned false base width n.toNat ++ rest) = some (n, rest) := by
  rw [scanUnsigned_print false hb hb' n.toNat_lt hw hrest, UInt32.ofNat_toNat]

/-- A name that the kernel prints reads back as its slot. -/
theorem slotOfName_kernelName {s : PciSlot} (hs : s.Valid) :
    slotOfName (kernelName s) = some s := by
  have hbus : (digitsOf 16 2 s.dwBus.toNat).length ≤ 2 := by
    have : s.dwBus.toNat ≤ 0xFF := hs.bus
    exact Nat.le_of_eq (length_digitsOf (by omega) (by omega) (by omega))
  have hdev : (digitsOf 16 2 s.dwSlot.toNat).length ≤ 2 := by
    have : s.dwSlot.toNat ≤ 0x1F := hs.dev
    exact Nat.le_of_eq (length_digitsOf (by omega) (by omega) (by omega))
  have hfunc : (digitsOf 10 1 s.dwFunction.toNat).length ≤ 1 := by
    have : s.dwFunction.toNat ≤ 7 := hs.func
    exact Nat.le_of_eq (length_digitsOf (by omega) (by omega) (by omega))
  have hdomain : (digitsOf 16 4 s.dwDomain.toNat).length ≤ (kernelName s).length := by
    simp only [kernelName, slotText, printUnsigned_eq, List.length_append, List.length_map]
    omega
  have hcolon (rest : List Char) : Stops 16 (':' :: rest) := by
    intro c hc
    cases hc
    decide
  have hdot (rest : List Char) : Stops 16 ('.' :: rest) := by
    intro c hc
    cases hc
    decide
  have hnil : Stops 10 [] := fun c hc => by cases hc
  have h₁ : scanUnsigned 16 (kernelName s).length (kernelName s) = some (s.dwDomain, _) :=
    scanUnsigned_field 4 (by omega) (by omega) hdomain (hcolon _)
  have h₂ (rest : List Char) := scanUnsigned_field 2 (by omega) (by omega) hbus (hcolon rest)
  have h₃ (rest : List Char) := scanUnsigned_field 2 (by omega) (by omega) hdev (hdot rest)
  have h₄ := scanUnsigned_field 1 (by omega) (by omega) hfunc hnil
  rw [List.append_nil] at h₄
  simp only [slotOfName, h₁, scanLiteral, ↓reduceIte, Option.bind_some, h₂, h₃, h₄, bind, pure]

/-- Distinct functions have distinct names. -/
theorem kernelName_inj {s t : PciSlot} (hs : s.Valid) (ht : t.Valid)
    (h : kernelName s = kernelName t) : s = t := by
  have := slotOfName_kernelName hs
  rw [h, slotOfName_kernelName ht] at this
  exact (Option.some.inj this).symm

end CronoPci
