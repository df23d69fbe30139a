import Mathlib.Logic.Basic
import Mathlib.Tactic.ByContra

/-!
# Resources and who has them

A process has resources, a `pool`, and its client holds keys: `has k r` says that
the key `k` stands for the resource `r`. `Owns` says that what keys have is in
the pool and no two keys have the same. `Exact` says besides that the pool is
what it was at the start of the run and what keys have, so that nothing is left
behind.

A step is judged by what it does to the pool and to the keys. Every step is a
`Handover`: a key has what it had or something new to the pool. A step that is
`Settled` for the keys it is given touches nothing else: what goes belonged to
one of them, and what no key has any more is gone.
-/

namespace Trans

variable {κ ρ : Type}

structure Owns (has : κ → ρ → Prop) (pool : ρ → Prop) : Prop where
  mem : ∀ k r, has k r → pool r
  inj : ∀ k k' r, has k r → has k' r → k = k'

/-- Nothing but what was there at the start, and what keys have. -/
structure Exact (init : ρ → Prop) (has : κ → ρ → Prop) (pool : ρ → Prop) : Prop extends
    Owns has pool where
  kept : ∀ r, init r → pool r
  apart : ∀ k r, has k r → ¬init r
  covered : ∀ r, pool r → init r ∨ ∃ k, has k r

structure Handover (has : κ → ρ → Prop) (pool : ρ → Prop) (has' : κ → ρ → Prop)
    (pool' : ρ → Prop) : Prop where
  entry : ∀ k r, has' k r → pool' r ∧ (has k r ∨ ¬pool r)
  alone : ∀ k k' r, ¬pool r → has' k r → has' k' r → k = k'

/-- The step leaves `r` behind: no key has it, and a key had it or it is new. -/
def Drops (has : κ → ρ → Prop) (pool : ρ → Prop) (has' : κ → ρ → Prop) (pool' : ρ → Prop)
    (r : ρ) : Prop :=
  pool' r ∧ (∀ k, ¬has' k r) ∧ ((∃ k, has k r) ∨ ¬pool r)

/-- A step that is given the keys `given`. -/
structure Settled (given : κ → Prop) (has : κ → ρ → Prop) (pool : ρ → Prop)
    (has' : κ → ρ → Prop) (pool' : ρ → Prop) : Prop where
  spared : ∀ r, pool r → (∀ k, given k → ¬has k r) → pool' r
  tidy : ∀ r, ¬Drops has pool has' pool' r

/-- The keys of `new`, which had nothing, get all that is new to the pool. -/
structure Grows (new : κ → Prop) (has : κ → ρ → Prop) (pool : ρ → Prop) (has' : κ → ρ → Prop)
    (pool' : ρ → Prop) : Prop where
  sub : ∀ r, pool r → pool' r
  old : ∀ k r, ¬new k → (has' k r ↔ has k r)
  empty : ∀ k r, new k → ¬has k r
  entry : ∀ k r, new k → has' k r → pool' r ∧ ¬pool r
  inj : ∀ k k' r, new k → new k' → has' k r → has' k' r → k = k'
  covered : ∀ r, pool' r → pool r ∨ ∃ k, has' k r

/-- What goes belonged to a given key, which loses it, or it is `loose`: no key
has it afterwards. -/
structure Shrinks (given : κ → Prop) (loose : ρ → Prop) (has : κ → ρ → Prop) (pool : ρ → Prop)
    (has' : κ → ρ → Prop) (pool' : ρ → Prop) : Prop where
  sub : ∀ r, pool' r → pool r
  old : ∀ k r, has' k r → has k r
  lost : ∀ r, pool r → pool' r ∨ (∃ k, given k ∧ has k r ∧ ¬has' k r) ∨ loose r
  loose : ∀ k r, loose r → ¬has' k r

section Rules

variable {given new : κ → Prop} {init loose : ρ → Prop} {has has' : κ → ρ → Prop}
  {pool pool' : ρ → Prop}

namespace Owns

theorem nothing (h : ∀ k r, ¬has k r) : Owns has pool where
  mem k r hr := absurd hr (h k r)
  inj k _ r hr := absurd hr (h k r)

theorem handover (ho : Owns has pool) (hs : Handover has pool has' pool') :
    Owns has' pool' := by
  refine ⟨fun k r hr => (hs.entry k r hr).1, ?_⟩
  intro k k' r hr hr'
  by_cases hpool : pool r
  · have hold (k : κ) (hr : has' k r) : has k r :=
      (hs.entry k r hr).2.resolve_right (not_not.2 hpool)
    exact ho.inj k k' r (hold k hr) (hold k' hr')
  · exact hs.alone k k' r hpool hr hr'

/-- A step that adds to the pool what no key gets is not settled. -/
theorem unsettled (ho : Owns has pool) (hhas : ∀ k r, has' k r ↔ has k r) {r : ρ} (hr : pool' r)
    (hnew : ¬pool r) : ¬Settled given has pool has' pool' := by
  intro hs
  refine hs.tidy r ⟨hr, ?_, Or.inr hnew⟩
  intro k hk
  exact hnew (ho.mem k r ((hhas k r).1 hk))

end Owns

namespace Handover

/-- Keys have what they had, and the pool loses nothing. -/
theorem same (ho : Owns has pool) (hhas : ∀ k r, has' k r ↔ has k r)
    (hpool : ∀ r, pool r → pool' r) : Handover has pool has' pool' := by
  refine ⟨?_, ?_⟩
  · intro k r hr
    rw [hhas] at hr
    exact ⟨hpool r (ho.mem k r hr), Or.inl hr⟩
  · intro k k' r hnew hr
    rw [hhas] at hr
    exact absurd (ho.mem k r hr) hnew

end Handover

namespace Grows

theorem handover (hg : Grows new has pool has' pool') (ho : Owns has pool) :
    Handover has pool has' pool' := by
  refine ⟨?_, ?_⟩
  · intro k r hr
    by_cases hk : new k
    · exact ⟨(hg.entry k r hk hr).1, Or.inr (hg.entry k r hk hr).2⟩
    · rw [hg.old k r hk] at hr
      exact ⟨hg.sub r (ho.mem k r hr), Or.inl hr⟩
  · intro k k' r hfresh hr hr'
    have hmust (k : κ) (hr : has' k r) : new k := by
      by_contra hk
      rw [hg.old k r hk] at hr
      exact hfresh (ho.mem k r hr)
    exact hg.inj k k' r (hmust k hr) (hmust k' hr') hr hr'

theorem settled (hg : Grows new has pool has' pool') : Settled given has pool has' pool' := by
  refine ⟨fun r hr _ => hg.sub r hr, ?_⟩
  rintro r ⟨hr, hnone, hdropped⟩
  have hpool : pool r := (hg.covered r hr).resolve_right fun ⟨k, hk⟩ => hnone k hk
  obtain ⟨k, hk⟩ := hdropped.resolve_right (not_not.2 hpool)
  have hold : ¬new k := fun hnew => hg.empty k r hnew hk
  exact hnone k ((hg.old k r hold).2 hk)

end Grows

namespace Shrinks

theorem handover (hs : Shrinks given loose has pool has' pool') (ho : Owns has pool) :
    Handover has pool has' pool' := by
  refine ⟨?_, ?_⟩
  · intro k r hr
    have hold := hs.old k r hr
    refine ⟨?_, Or.inl hold⟩
    rcases hs.lost r (ho.mem k r hold) with hpool | ⟨k', -, hk', hlost⟩ | hloose
    · exact hpool
    · rw [ho.inj k k' r hold hk'] at hr
      exact absurd hr hlost
    · exact absurd hr (hs.loose k r hloose)
  · intro k k' r hnew hr
    exact absurd (ho.mem k r (hs.old k r hr)) hnew

/-- What a key loses and is not gone is left behind. -/
theorem drops (hs : Shrinks given loose has pool has' pool') (ho : Owns has pool) {k : κ} {r : ρ}
    (hk : has k r) (hlost : ¬has' k r) (hr : pool' r) : Drops has pool has' pool' r := by
  refine ⟨hr, ?_, Or.inl ⟨k, hk⟩⟩
  intro k' hk'
  rw [ho.inj k' k r (hs.old k' r hk') hk] at hk'
  exact hlost hk'

/-- Settled, when what the given keys lose is gone. -/
theorem settled (hs : Shrinks given loose has pool has' pool')
    (hloose : ∀ r, loose r → pool r → ∃ k, given k ∧ has k r)
    (hgone : ∀ k r, has k r → pool' r → has' k r) : Settled given has pool has' pool' := by
  refine ⟨?_, ?_⟩
  · intro r hr hspared
    rcases hs.lost r hr with hpool | ⟨k, hk, hhas, -⟩ | hl
    · exact hpool
    · exact absurd hhas (hspared k hk)
    · obtain ⟨k, hk, hhas⟩ := hloose r hl hr
      exact absurd hhas (hspared k hk)
  · rintro r ⟨hr, hnone, ⟨k, hk⟩ | hnew⟩
    · exact hnone k (hgone k r hk hr)
    · exact hnew (hs.sub r hr)

end Shrinks

namespace Settled

theorem same (hhas : ∀ k r, has' k r ↔ has k r) (hpool : ∀ r, pool' r ↔ pool r) :
    Settled given has pool has' pool' := by
  refine ⟨fun r hr _ => (hpool r).2 hr, ?_⟩
  rintro r ⟨hr, hnone, ⟨k, hk⟩ | hnew⟩
  · exact hnone k ((hhas k r).2 hk)
  · exact hnew ((hpool r).1 hr)

theorem mono {given' : κ → Prop} (hs : Settled given has pool has' pool')
    (hgiven : ∀ k, given k → given' k) : Settled given' has pool has' pool' :=
  ⟨fun r hr hspared => hs.spared r hr fun k hk => hspared k (hgiven k hk), hs.tidy⟩

/-- A key that is not given keeps what it has. -/
theorem keeps (hs : Settled given has pool has' pool') (hh : Handover has pool has' pool')
    (ho : Owns has pool) {k : κ} {r : ρ} (hk : ¬given k) (hr : has k r) : has' k r := by
  have hpool : pool' r := by
    apply hs.spared r (ho.mem k r hr)
    intro k' hk' hr'
    rw [ho.inj k' k r hr' hr] at hk'
    exact hk hk'
  by_contra hne
  refine hs.tidy r ⟨hpool, ?_, Or.inl ⟨k, hr⟩⟩
  intro k' hr'
  have hold := (hh.entry k' r hr').2.resolve_right (not_not.2 (ho.mem k r hr))
  rw [ho.inj k' k r hold hr] at hr'
  exact hne hr'

end Settled

namespace Exact

theorem start (h : ∀ k r, ¬has k r) : Exact pool has pool where
  toOwns := .nothing h
  kept _ hr := hr
  apart k r hr := absurd hr (h k r)
  covered _ hr := Or.inl hr

/-- A settled step keeps the account exact. -/
theorem step (he : Exact init has pool) (hh : Handover has pool has' pool')
    (hs : Settled given has pool has' pool') : Exact init has' pool' where
  toOwns := he.toOwns.handover hh
  kept r hr := by
    apply hs.spared r (he.kept r hr)
    intro k _ hk
    exact he.apart k r hk hr
  apart k r hk hr := by
    rcases (hh.entry k r hk).2 with hold | hnew
    · exact he.apart k r hold hr
    · exact hnew (he.kept r hr)
  covered r hr := by
    by_contra hnone
    simp only [not_or, not_exists] at hnone
    refine hs.tidy r ⟨hr, hnone.2, ?_⟩
    by_cases hpool : pool r
    · exact Or.inl ((he.covered r hpool).resolve_left hnone.1)
    · exact Or.inr hpool

/-- With no key left the pool is as at the start. -/
theorem drained (he : Exact init has pool) (h : ∀ k r, ¬has k r) (r : ρ) :
    pool r ↔ init r := by
  refine ⟨?_, he.kept r⟩
  intro hr
  refine (he.covered r hr).resolve_right ?_
  rintro ⟨k, hk⟩
  exact h k r hk

end Exact

end Rules

end Trans
