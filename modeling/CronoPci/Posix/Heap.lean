import Mathlib.Logic.Function.Basic

/-!
# A process heap

The blocks handed out by `malloc` and not yet passed to `free`, with typed
contents. The allocator's choice of address is an argument of `malloc`: any
address that is not `NULL` and not in use may be handed out, also one that was
freed before. `free` of anything but an allocated block has no result, so a
program that gets a result from every `free` frees nothing twice.
-/

namespace Posix

/-- Process addresses; `0` is `NULL`. -/
abbrev Addr := Nat

/-- The allocated blocks, and the calls of `free` so far, the latest first. -/
structure Heap (β : Type) where
  get : Addr → Option β
  frees : List Addr
  null : get 0 = none

namespace Heap

variable {β : Type} {h h' : Heap β} {a c : Addr} {b : β}

/-- `malloc` with the allocator's choice `a`. -/
def malloc (h : Heap β) (a : Addr) (b : β) : Option (Heap β) :=
  if ha : a ≠ 0 ∧ (h.get a).isNone then
    some { h with
      get := Function.update h.get a (some b)
      null := by rw [Function.update_of_ne (Ne.symm ha.1)]; exact h.null }
  else none

/-- Overwrite the contents of block `a`; no effect where no block is. -/
def set (h : Heap β) (a : Addr) (b : β) : Heap β :=
  if ha : (h.get a).isSome then
    { h with
      get := Function.update h.get a (some b)
      null := by
        have h0 : (0 : Addr) ≠ a := by
          intro he
          subst he
          simp [h.null] at ha
        rw [Function.update_of_ne h0]; exact h.null }
  else h

/-- `free`; no result unless `a` is an allocated block. -/
def free (h : Heap β) (a : Addr) : Option (Heap β) :=
  match h.get a with
  | none => none
  | some _ => some
    { get := Function.update h.get a none
      frees := a :: h.frees
      null := by
        rcases Decidable.eq_or_ne 0 a with rfl | h0
        · exact Function.update_self ..
        · rw [Function.update_of_ne h0]; exact h.null }

theorem malloc_eq_some : h.malloc a b = some h' ↔
    a ≠ 0 ∧ h.get a = none ∧ h'.get = Function.update h.get a (some b) ∧ h'.frees = h.frees := by
  unfold malloc
  constructor
  · intro he
    split at he
    · next ha =>
      cases he
      exact ⟨ha.1, Option.isNone_iff_eq_none.1 ha.2, rfl, rfl⟩
    · cases he
  · rintro ⟨h0, hn, hg, hf⟩
    rw [dif_pos ⟨h0, by simp [hn]⟩]
    obtain ⟨g, f, n⟩ := h'
    cases hg
    cases hf
    rfl

theorem malloc_eq_none : h.malloc a b = none ↔ a = 0 ∨ h.get a ≠ none := by
  unfold malloc
  split
  · next ha => simp [ha.1, Option.isNone_iff_eq_none.1 ha.2]
  · next ha =>
    rw [not_and_or, not_not, Option.isNone_iff_eq_none] at ha
    simpa using ha

/-- A free address other than 0 can be given out. -/
theorem exists_malloc (h0 : a ≠ 0) (hn : h.get a = none) : ∃ h', h.malloc a b = some h' := by
  cases hm : h.malloc a b with
  | some h' => exact ⟨h', rfl⟩
  | none =>
    rcases malloc_eq_none.1 hm with he | hused
    · exact absurd he h0
    · exact absurd hn hused

theorem get_set (hb : (h.get a).isSome) :
    (h.set a b).get = Function.update h.get a (some b) := by
  unfold set
  rw [dif_pos hb]

@[simp] theorem frees_set : (h.set a b).frees = h.frees := by
  unfold set
  split <;> rfl

theorem get_set_self (hb : (h.get a).isSome) : (h.set a b).get a = some b := by
  rw [get_set hb, Function.update_self]

theorem get_set_ne (hca : c ≠ a) : (h.set a b).get c = h.get c := by
  unfold set
  split
  · exact Function.update_of_ne hca ..
  · rfl

theorem free_eq_some : h.free a = some h' ↔
    (h.get a).isSome ∧ h'.get = Function.update h.get a none ∧ h'.frees = a :: h.frees := by
  unfold free
  cases hg : h.get a with
  | none => simp
  | some b =>
    constructor
    · intro he
      cases he
      exact ⟨rfl, rfl, rfl⟩
    · rintro ⟨-, hg', hf'⟩
      obtain ⟨g, f, n⟩ := h'
      cases hg'
      cases hf'
      rfl

/-- An allocated block can be freed. -/
theorem exists_free (hb : (h.get a).isSome) : ∃ h', h.free a = some h' := by
  unfold free
  cases hg : h.get a with
  | none => simp [hg] at hb
  | some b => exact ⟨_, rfl⟩

theorem ne_zero_of_get (hb : h.get a = some b) : a ≠ 0 := by
  intro he
  subst he
  rw [h.null] at hb
  cases hb

/-! ## Blocks taken one after the other -/

/-- What is free in `h'` is what is free in `h` without the addresses `taken`. -/
def Takes (h : Heap β) (taken : List Addr) (h' : Heap β) : Prop :=
  ∀ x, h'.get x = none ↔ h.get x = none ∧ x ∉ taken

namespace Takes

variable {h'' : Heap β} {taken : List Addr}

theorem refl (h : Heap β) : h.Takes [] h := by
  intro x
  simp

/-- `malloc` gives out a block that was free and has not been taken. -/
theorem of_malloc (ht : h.Takes taken h') (hm : h'.malloc a b = some h'') :
    a ≠ 0 ∧ h.get a = none ∧ a ∉ taken := by
  obtain ⟨h0, hn, -, -⟩ := malloc_eq_some.1 hm
  exact ⟨h0, (ht a).1 hn⟩

theorem not_of_malloc (ht : h.Takes taken h') (hm : h'.malloc a b = none) :
    ¬(a ≠ 0 ∧ h.get a = none ∧ a ∉ taken) := by
  rintro ⟨h0, hfree⟩
  obtain ⟨h'', he⟩ := exists_malloc (b := b) h0 ((ht a).2 hfree)
  rw [hm] at he
  cases he

theorem malloc (ht : h.Takes taken h') (hm : h'.malloc a b = some h'') :
    h.Takes (taken ++ [a]) h'' := by
  obtain ⟨-, -, hg, -⟩ := malloc_eq_some.1 hm
  intro x
  rw [hg, List.mem_append, List.mem_singleton, not_or, ← and_assoc, ← ht x]
  by_cases hx : x = a
  · rw [hx, Function.update_self]
    simp
  · rw [Function.update_of_ne hx]
    simp [hx]

theorem set (ht : h.Takes taken h') : h.Takes taken (h'.set a b) := by
  intro x
  rw [← ht x]
  by_cases hx : x = a
  · subst hx
    cases hg : h'.get x with
    | none => simp [Heap.set, hg]
    | some b' => simp [get_set_self, hg]
  · rw [get_set_ne hx]

end Takes

end Heap

end Posix
