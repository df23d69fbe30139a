import Mathlib.Data.List.Nodup

/-!
# Ledgers of held resources

A component holds resources for its clients, who keep keys to them: `res k` is
the resource behind the key `k`. `Ledger live res held` says that the resources
held are exactly those behind the live keys, one for each key. A client gets a
fresh resource under a new key, and gives the resource of a key back.
-/

namespace Trans

variable {κ ρ : Type} [DecidableEq κ]

structure Ledger (live : List κ) (res : κ → Option ρ) (held : ρ → Prop) : Prop where
  held_iff : ∀ r, held r ↔ ∃ k ∈ live, res k = some r
  has : ∀ k ∈ live, ∃ r, res k = some r
  inj : ∀ k ∈ live, ∀ k' ∈ live, res k = res k' → k = k'
  nodup : live.Nodup

namespace Ledger

variable {live : List κ} {res res' : κ → Option ρ} {held held' : ρ → Prop} {k : κ} {r : ρ}

omit [DecidableEq κ] in
theorem nil (h : ∀ r, ¬held r) : Ledger ([] : List κ) res held where
  held_iff r := by simp [h r]
  has := by simp
  inj := by simp
  nodup := List.nodup_nil

omit [DecidableEq κ] in
/-- Keys and resources as before. -/
theorem congr (hl : Ledger live res held) (hsame : ∀ k ∈ live, res' k = res k)
    (hheld : ∀ r, held' r ↔ held r) : Ledger live res' held' where
  held_iff r := by
    rw [hheld, hl.held_iff]
    refine exists_congr fun k => and_congr_right fun hk => ?_
    rw [hsame k hk]
  has k hk := by
    rw [hsame k hk]
    exact hl.has k hk
  inj k hk k' hk' he := by
    rw [hsame k hk, hsame k' hk'] at he
    exact hl.inj k hk k' hk' he
  nodup := hl.nodup

omit [DecidableEq κ] in
/-- A fresh resource under a new key. -/
theorem acquire (hl : Ledger live res held) (hk : k ∉ live)
    (hsame : ∀ k' ∈ live, res' k' = res k') (hnew : res' k = some r) (hfresh : ¬held r)
    (hheld : ∀ r', held' r' ↔ r' = r ∨ held r') : Ledger (k :: live) res' held' := by
  have hl' : Ledger live res' held := hl.congr hsame fun _ => Iff.rfl
  -- no key of before has the new resource
  have hother (k' : κ) (hk' : k' ∈ live) : res' k' ≠ some r := fun he =>
    hfresh ((hl'.held_iff r).2 ⟨k', hk', he⟩)
  refine ⟨?_, ?_, ?_, List.nodup_cons.2 ⟨hk, hl.nodup⟩⟩
  · intro r'
    rw [hheld, hl'.held_iff]
    simp only [List.exists_mem_cons_iff, hnew, Option.some.injEq, eq_comm (a := r)]
  · intro k' hk'
    rcases List.mem_cons.1 hk' with rfl | hk'
    · exact ⟨r, hnew⟩
    · exact hl'.has k' hk'
  · intro k₁ hk₁ k₂ hk₂ he
    rcases List.mem_cons.1 hk₁ with rfl | hl₁ <;> rcases List.mem_cons.1 hk₂ with rfl | hl₂
    · rfl
    · exact absurd (he.symm.trans hnew) (hother k₂ hl₂)
    · exact absurd (he.trans hnew) (hother k₁ hl₁)
    · exact hl'.inj k₁ hl₁ k₂ hl₂ he

/-- The resource of a key is given back. -/
theorem release (hl : Ledger live res held) (hk : k ∈ live) (hr : res k = some r)
    (hsame : ∀ k' ∈ live.erase k, res' k' = res k')
    (hheld : ∀ r', held' r' ↔ r' ≠ r ∧ held r') : Ledger (live.erase k) res' held' := by
  have hmem (k' : κ) : k' ∈ live.erase k ↔ k' ≠ k ∧ k' ∈ live := hl.nodup.mem_erase_iff
  refine ⟨?_, ?_, ?_, hl.nodup.sublist List.erase_sublist⟩
  · intro r'
    rw [hheld, hl.held_iff]
    constructor
    · rintro ⟨hne, k', hk', he⟩
      have hkk : k' ≠ k := by
        intro hkk
        subst hkk
        rw [hr, Option.some.injEq] at he
        exact hne he.symm
      refine ⟨k', (hmem k').2 ⟨hkk, hk'⟩, ?_⟩
      rw [hsame k' ((hmem k').2 ⟨hkk, hk'⟩)]
      exact he
    · rintro ⟨k', hk', he⟩
      rw [hsame k' hk'] at he
      obtain ⟨hkk, hk'⟩ := (hmem k').1 hk'
      refine ⟨?_, k', hk', he⟩
      intro hrr
      subst hrr
      exact hkk (hl.inj k' hk' k hk (he.trans hr.symm))
  · intro k' hk'
    rw [hsame k' hk']
    exact hl.has k' ((hmem k').1 hk').2
  · intro k₁ hk₁ k₂ hk₂ he
    rw [hsame k₁ hk₁, hsame k₂ hk₂] at he
    exact hl.inj k₁ ((hmem k₁).1 hk₁).2 k₂ ((hmem k₂).1 hk₂).2 he

end Ledger

end Trans
