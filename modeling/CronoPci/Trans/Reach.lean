import Mathlib.Logic.Basic

/-!
# Guarded reachability for faulting step functions

A program is a function `step : σ → α → Except ε σ`: a call `a` in state `s`
either returns in a new state or faults, and a fault has no successor.
`Reach step G s₀ s` says that some run of calls, each meeting the guard `G` in
the state it is made in, leads from `s₀` to `s`. `recorded` keeps a record beside
the state, for what a state does not tell of its run. `runFrom` executes a list of
calls and checks the guard on the way, so that a concrete run can be evaluated.
-/

namespace Trans

section Reach

variable {σ α ε : Type} {step : σ → α → Except ε σ} {G : σ → α → Prop} {s₀ s : σ}

/-- The states reached from `s₀` by calls that all meet `G`. -/
inductive Reach (step : σ → α → Except ε σ) (G : σ → α → Prop) (s₀ : σ) : σ → Prop
  | init : Reach step G s₀ s₀
  | step {s s' : σ} {a : α} (hs : Reach step G s₀ s) (hg : G s a) (ha : step s a = .ok s') :
      Reach step G s₀ s'

/-- The invariant rule: what holds at the start and survives every guarded
call holds in every reached state. -/
theorem Reach.invariant {I : σ → Prop} (h0 : I s₀)
    (hstep : ∀ s s' a, I s → G s a → step s a = .ok s' → I s') (h : Reach step G s₀ s) : I s := by
  induction h with
  | init => exact h0
  | step _ hg ha ih => exact hstep _ _ _ ih hg ha

/-- The invariant rule with a second invariant already known of every state on
the way. -/
theorem Reach.invariant_of {I J : σ → Prop} (h0 : I s₀)
    (hJ : ∀ s, Reach step G s₀ s → J s)
    (hstep : ∀ s s' a, J s → I s → G s a → step s a = .ok s' → I s')
    (h : Reach step G s₀ s) : I s := by
  induction h with
  | init => exact h0
  | step hs hg ha ih => exact hstep _ _ _ (hJ _ hs) ih hg ha

/-- What holds at the start and every call keeps or breaks holds at the end, or was
broken on the way. -/
theorem Reach.holds_or_broken {P : σ → Prop} {B : σ → α → σ → Prop} (h0 : P s₀)
    (hstep : ∀ s s' a, P s → G s a → step s a = .ok s' → P s' ∨ B s a s')
    (h : Reach step G s₀ s) : P s ∨ ∃ s₁ a s₂, Reach step G s₀ s₁ ∧ step s₁ a = .ok s₂ ∧
      B s₁ a s₂ ∧ Reach step G s₂ s := by
  induction h with
  | init => exact Or.inl h0
  | step hs hg ha ih =>
    rcases ih with hP | ⟨s₁, a₁, s₂, hs₁, ha₁, hB, hs₂⟩
    · rcases hstep _ _ _ hP hg ha with hP' | hB
      · exact Or.inl hP'
      · exact Or.inr ⟨_, _, _, hs, ha, hB, .init⟩
    · exact Or.inr ⟨s₁, a₁, s₂, hs₁, ha₁, hB, hs₂.step hg ha⟩

theorem Reach.trans {t : σ} (h : Reach step G s₀ s) (h' : Reach step G s t) :
    Reach step G s₀ t := by
  induction h' with
  | init => exact h
  | step _ hg ha ih => exact ih.step hg ha

/-- The variant rule: where every state of `I` that is not done has a guarded call
that keeps `I` and brings it nearer, a state that is done can be reached. -/
theorem Reach.exists_done {I : σ → Prop} (left : σ → Nat)
    (hstep : ∀ s, I s → left s ≠ 0 →
      ∃ a s', G s a ∧ step s a = .ok s' ∧ I s' ∧ left s' < left s)
    (h : Reach step G s₀ s) (hI : I s) : ∃ t, Reach step G s₀ t ∧ I t ∧ left t = 0 := by
  induction hn : left s using Nat.strongRecOn generalizing s with
  | ind n ih =>
    by_cases hdone : left s = 0
    · exact ⟨s, h, hI, hdone⟩
    · obtain ⟨a, s', hg, ha, hI', hlt⟩ := hstep s hI hdone
      exact ih (left s') (hn ▸ hlt) (h.step hg ha) hI' rfl

end Reach

/-! ## Runs with a record -/

section Record

variable {σ α ε γ : Type} {step : σ → α → Except ε σ} {G : σ → α → Prop} {s₀ s : σ}
  {note : σ → γ → α → σ → γ}

/-- The program beside a record, in which `note` enters each call that returns. -/
def recorded (step : σ → α → Except ε σ) (note : σ → γ → α → σ → γ) (s : σ × γ) (a : α) :
    Except ε (σ × γ) :=
  (step s.1 a).map fun s' => (s', note s.1 s.2 a s')

theorem recorded_eq_ok {t t' : σ × γ} {a : α} (h : recorded step note t a = .ok t') :
    step t.1 a = .ok t'.1 ∧ t'.2 = note t.1 t.2 a t'.1 := by
  unfold recorded at h
  cases hs : step t.1 a with
  | error e =>
    rw [hs] at h
    cases h
  | ok s' =>
    rw [hs] at h
    cases h
    exact ⟨rfl, rfl⟩

/-- A recorded run is a run. -/
theorem Reach.of_record {t₀ t : σ × γ}
    (h : Reach (recorded step note) (fun t a => G t.1 a) t₀ t) : Reach step G t₀.1 t.1 := by
  induction h with
  | init => exact .init
  | step hs hg ha ih => exact ih.step hg (recorded_eq_ok ha).1

/-- A run can be recorded. -/
theorem Reach.exists_record (h : Reach step G s₀ s) (g₀ : γ) :
    ∃ g, Reach (recorded step note) (fun t a => G t.1 a) (s₀, g₀) (s, g) := by
  induction h with
  | init => exact ⟨g₀, .init⟩
  | @step s s' a hs hg ha ih =>
    obtain ⟨g, hr⟩ := ih
    refine ⟨note s g a s', hr.step hg ?_⟩
    rw [recorded, ha]
    rfl

end Record

/-! ## Runs that are executed -/

section Run

variable {σ α ε : Type} (step : σ → α → Except ε σ) (G : σ → α → Prop)
  [∀ s a, Decidable (G s a)]

/-- Execute `as` from `s`; `none` when a call faults or breaks the guard. -/
def runFrom (s : σ) : List α → Option σ
  | [] => some s
  | a :: as => if G s a then
      match step s a with
      | .ok s' => runFrom s' as
      | .error _ => none
    else none

variable {step G}

/-- What executes from a reached state is reached, also under another guard that its
calls meet. -/
theorem reach_of_runFrom {G' : σ → α → Prop} {s₀ s t : σ} {as : List α}
    (hG : ∀ a ∈ as, ∀ s, G s a → G' s a) (hs : Reach step G' s₀ s)
    (h : runFrom step G s as = some t) : Reach step G' s₀ t := by
  induction as generalizing s with
  | nil =>
    simp only [runFrom, Option.some.injEq] at h
    exact h ▸ hs
  | cons a as ih =>
    simp only [runFrom] at h
    split at h
    · next hg =>
      split at h
      · next s' ha =>
        have hg' := hG a List.mem_cons_self s hg
        exact ih (fun b hb => hG b (List.mem_cons_of_mem a hb)) (hs.step hg' ha) h
      · cases h
    · cases h

/-- A run that executes to a state satisfying `P` reaches such a state. -/
theorem exists_reach_of_run {P : σ → Prop} [DecidablePred P] {s₀ : σ} (as : List α)
    (h : (runFrom step G s₀ as).any (fun s => decide (P s)) = true) :
    ∃ s, Reach step G s₀ s ∧ P s := by
  obtain ⟨t, hr, hP⟩ := (Option.any_eq_true ..).1 h
  exact ⟨t, reach_of_runFrom (fun _ _ _ hg => hg) .init hr, of_decide_eq_true hP⟩

/-- A run whose calls all satisfy `Q` as well. -/
theorem exists_reach_and_of_run {P : σ → Prop} [DecidablePred P] {Q : α → Prop} {s₀ : σ}
    (as : List α) (hQ : ∀ a ∈ as, Q a)
    (h : (runFrom step G s₀ as).any (fun s => decide (P s)) = true) :
    ∃ s, Reach step (fun s a => G s a ∧ Q a) s₀ s ∧ P s := by
  obtain ⟨t, hr, hP⟩ := (Option.any_eq_true ..).1 h
  exact ⟨t, reach_of_runFrom (fun a ha _ hg => ⟨hg, hQ a ha⟩) .init hr, of_decide_eq_true hP⟩

end Run

end Trans
