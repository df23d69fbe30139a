import Mathlib.Data.List.Nodup

/-!
# Sweeps that stop at a failure

A sweep goes through a list of items and handles each one that the state says is
pending; when handling an item fails, the sweep stops there. What an earlier
sweep has done is recorded in the state alone. Where handling an item settles
that item and no other (`Settles`), sweeps over one list can be repeated: each
takes up where the last one stopped, so that the items are handled in order and
each of them once, whatever fails on the way (`sweep_resume`).
-/

namespace Trans

section Sweep

variable {σ ι ε : Type} (pending : σ → ι → Prop) [∀ s i, Decidable (pending s i)]
  (act : σ → ι → σ)

/-- Handle the pending items in order, with the failure of each, if any: the
failure that the sweep stops at, and the state. -/
def sweep (fails : ι → Option ε) : List ι → σ → Option ε × σ
  | [], s => (none, s)
  | i :: is, s =>
    if pending s i then
      match fails i with
      | some e => (some e, s)
      | none => sweep fails is (act s i)
    else sweep fails is s

/-- Handling an item settles it, and none of the others. -/
structure Settles : Prop where
  self : ∀ s i, ¬pending (act s i) i
  other : ∀ s i j, i ≠ j → (pending (act s i) j ↔ pending s j)

variable {pending act} {fails : ι → Option ε} {is is' : List ι} {s : σ}

omit [∀ s i, Decidable (pending s i)] in
/-- The items pending after some were handled. -/
theorem Settles.foldl_iff [DecidableEq ι] (h : Settles pending act) {j : ι} :
    pending (is.foldl act s) j ↔ pending s j ∧ j ∉ is := by
  induction is generalizing s with
  | nil => simp
  | cons i is ih =>
    rw [List.foldl_cons, ih, List.mem_cons, not_or]
    by_cases hij : i = j
    · subst hij
      simp [h.self]
    · rw [h.other s i j hij]
      simp [Ne.symm hij]

theorem sweep_append : sweep pending act fails (is ++ is') s =
    match sweep pending act fails is s with
    | (none, s') => sweep pending act fails is' s'
    | (some e, s') => (some e, s') := by
  induction is generalizing s with
  | nil => rfl
  | cons i is ih =>
    simp only [List.cons_append, sweep]
    split
    · cases fails i with
      | some e => rfl
      | none => exact ih
    · exact ih

/-- Items that are settled already are passed over. -/
theorem sweep_eq_self (h : ∀ i ∈ is, ¬pending s i) : sweep pending act fails is s = (none, s) := by
  induction is with
  | nil => rfl
  | cons i is ih =>
    rw [sweep, if_neg (h i List.mem_cons_self)]
    exact ih fun j hj => h j (List.mem_cons_of_mem i hj)

/-- What is settled stays so. -/
theorem Settles.not_pending_sweep (h : Settles pending act) {j : ι} (hj : ¬pending s j) :
    ¬pending (sweep pending act fails is s).2 j := by
  induction is generalizing s with
  | nil => exact hj
  | cons i is ih =>
    rw [sweep]
    split
    · cases fails i with
      | some e => exact hj
      | none =>
        apply ih
        by_cases hij : i = j
        · exact hij ▸ h.self s i
        · rwa [h.other s i j hij]
    · exact ih hj

/-- A sweep gets through exactly when no pending item fails. -/
theorem sweep_eq_none_iff (h : Settles pending act) (hnd : is.Nodup) :
    (sweep pending act fails is s).1 = none ↔ ∀ i ∈ is, pending s i → fails i = none := by
  induction is generalizing s with
  | nil => simp [sweep]
  | cons i is ih =>
    obtain ⟨hi, hnd⟩ := List.nodup_cons.1 hnd
    rw [sweep, List.forall_mem_cons]
    by_cases hp : pending s i
    · rw [if_pos hp]
      cases hfail : fails i with
      | some e => simp [hp]
      | none =>
        -- the rest is pending after `i` is handled if it was before
        have hsame (j : ι) (hj : j ∈ is) : pending (act s i) j ↔ pending s j :=
          h.other s i j fun he => hi (he ▸ hj)
        simp only [ih hnd, implies_true, true_and]
        exact forall₂_congr fun j hj => by rw [hsame j hj]
    · rw [if_neg hp, ih hnd]
      simp [hp]

/-- A sweep that gets through leaves nothing pending. -/
theorem not_pending_of_sweep (h : Settles pending act)
    (hnone : (sweep pending act fails is s).1 = none) :
    ∀ i ∈ is, ¬pending (sweep pending act fails is s).2 i := by
  induction is generalizing s with
  | nil => simp
  | cons i is ih =>
    rw [List.forall_mem_cons]
    rw [sweep] at hnone ⊢
    by_cases hp : pending s i
    · rw [if_pos hp] at hnone ⊢
      cases hfail : fails i with
      | some e =>
        rw [hfail] at hnone
        cases hnone
      | none =>
        rw [hfail] at hnone
        exact ⟨h.not_pending_sweep (h.self s i), ih hnone⟩
    · rw [if_neg hp] at hnone ⊢
      exact ⟨h.not_pending_sweep hp, ih hnone⟩

variable (fails)

/-- A sweep over pending items handles the first of them, and all of them if it
does not fail. -/
theorem sweep_pending (h : Settles pending act) (hnd : is.Nodup) (hp : ∀ i ∈ is, pending s i) :
    ∃ k, k ≤ is.length ∧ (sweep pending act fails is s).2 = (is.take k).foldl act s ∧
      ((sweep pending act fails is s).1 = none → k = is.length) := by
  induction is generalizing s with
  | nil => exact ⟨0, Nat.le_refl 0, rfl, fun _ => rfl⟩
  | cons i is ih =>
    obtain ⟨hi, hnd⟩ := List.nodup_cons.1 hnd
    rw [sweep, if_pos (hp i List.mem_cons_self)]
    cases hfail : fails i with
    | some e =>
      refine ⟨0, Nat.zero_le _, rfl, ?_⟩
      intro he
      cases he
    | none =>
      -- the rest is still pending after `i` is handled
      have hrest : ∀ j ∈ is, pending (act s i) j := by
        intro j hj
        rw [h.other s i j fun he => hi (he ▸ hj)]
        exact hp j (List.mem_cons_of_mem i hj)
      obtain ⟨k, hk, hstate, hnone⟩ := ih hnd hrest
      refine ⟨k + 1, Nat.succ_le_succ hk, hstate, ?_⟩
      intro he
      rw [hnone he, List.length_cons]

/-- A sweep after others goes on from where they got to. -/
theorem sweep_resume [DecidableEq ι] (h : Settles pending act) (hnd : is.Nodup)
    (hp : ∀ i ∈ is, pending s i) {k : Nat} (hk : k ≤ is.length) :
    ∃ k', k ≤ k' ∧ k' ≤ is.length ∧
      (sweep pending act fails is ((is.take k).foldl act s)).2 = (is.take k').foldl act s ∧
      ((sweep pending act fails is ((is.take k).foldl act s)).1 = none → k' = is.length) := by
  generalize hs' : (is.take k).foldl act s = s'
  have hiff (j : ι) : pending s' j ↔ pending s j ∧ j ∉ is.take k := by
    rw [← hs']
    exact h.foldl_iff
  have hdone : ∀ i ∈ is.take k, ¬pending s' i := fun i hi hpi => ((hiff i).1 hpi).2 hi
  have hleft : ∀ i ∈ is.drop k, pending s' i := by
    intro i hi
    refine (hiff i).2 ⟨hp i (List.mem_of_mem_drop hi), ?_⟩
    intro hi'
    exact List.disjoint_take_drop hnd (Nat.le_refl k) hi' hi
  have hsweep : sweep pending act fails is s' = sweep pending act fails (is.drop k) s' :=
    calc sweep pending act fails is s'
      _ = sweep pending act fails (is.take k ++ is.drop k) s' := by rw [List.take_append_drop]
      _ = sweep pending act fails (is.drop k) s' := by rw [sweep_append, sweep_eq_self hdone]
  obtain ⟨n, hn, hstate, hnone⟩ :=
    sweep_pending fails h (hnd.sublist (List.drop_sublist k is)) hleft
  rw [List.length_drop] at hn hnone
  rw [hsweep]
  refine ⟨k + n, Nat.le_add_right k n, by omega, ?_, fun he => by have := hnone he; omega⟩
  rw [hstate, ← hs', ← List.foldl_append, ← List.take_add]

end Sweep

end Trans
