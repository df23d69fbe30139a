import Mathlib.Logic.Function.Basic

/-!
# A process's table of open descriptors

Each successful `open` creates an open file, numbered in order of creation and
never numbered again, and installs it under the lowest free descriptor number.
The table remembers the path of each file. `close` takes a number out of the
table, or fails when nothing is open under it. The log of `close` calls records
what each call closed.

`Effect t t' file` is what a caller sees of a stretch of code that leaves the
table at `file` and closes only what it opened itself; `Balanced` is the case
of code that closes everything it opened.
-/

namespace Posix

/-- The files that `close` calls closed. -/
def closedFiles (closes : List (Nat × Option Nat)) : List Nat := closes.filterMap Prod.snd

/-- The open file under each number, the path that each file was opened by, and
the `close` calls so far (the number and the file closed, `none` for `EBADF`),
the latest first. A file is closed once at most and is not open afterwards. -/
structure FdTable where
  file : Nat → Option Nat
  bound : Nat
  next : Nat
  path : Nat → List Char
  closes : List (Nat × Option Nat)
  above : ∀ n, bound ≤ n → file n = none
  lt_next : ∀ n f, file n = some f → f < next
  inj : ∀ n m f, file n = some f → file m = some f → n = m
  once : (closedFiles closes).Nodup
  gone : ∀ f ∈ closedFiles closes, f < next ∧ ∀ n, file n ≠ some f

namespace FdTable

/-- The first free number among `n, n + 1, …`, looking at `fuel` of them. -/
def firstFree (file : Nat → Option Nat) : (fuel n : Nat) → Nat
  | 0, n => n
  | fuel + 1, n => if (file n).isNone then n else firstFree file fuel (n + 1)

/-- The lowest free descriptor number, which `open` returns. -/
def lowest (t : FdTable) : Nat := firstFree t.file t.bound 0

theorem firstFree_spec {file : Nat → Option Nat} {b : Nat} (hb : ∀ n, b ≤ n → file n = none)
    (fuel n : Nat) (hn : b ≤ n + fuel) :
    file (firstFree file fuel n) = none ∧
      ∀ k, n ≤ k → k < firstFree file fuel n → file k ≠ none := by
  induction fuel generalizing n with
  | zero =>
    simp only [firstFree]
    exact ⟨hb n (by omega), fun k hk hlt => absurd hlt (by omega)⟩
  | succ fuel ih =>
    simp only [firstFree]
    split
    · next he => exact ⟨Option.isNone_iff_eq_none.1 he, fun k hk hlt => absurd hlt (by omega)⟩
    · next he =>
      obtain ⟨h1, h2⟩ := ih (n + 1) (by omega)
      refine ⟨h1, ?_⟩
      intro k hk hlt
      rcases Nat.eq_or_lt_of_le hk with rfl | hk
      · intro hnone
        exact he (by simp [hnone])
      · exact h2 k hk hlt

@[simp] theorem file_lowest (t : FdTable) : t.file t.lowest = none :=
  (firstFree_spec t.above t.bound 0 (by omega)).1

/-- Every number below the one `open` returns is in use. -/
theorem used_below_lowest (t : FdTable) {k : Nat} (hk : k < t.lowest) : t.file k ≠ none :=
  (firstFree_spec t.above t.bound 0 (by omega)).2 k (Nat.zero_le k) hk

/-- The lowest free number depends on the files alone. -/
theorem lowest_congr {t t' : FdTable} (h : t'.file = t.file) : t'.lowest = t.lowest := by
  apply Nat.le_antisymm
  · apply Nat.le_of_not_lt
    intro hlt
    apply t'.used_below_lowest hlt
    rw [h, file_lowest]
  · apply Nat.le_of_not_lt
    intro hlt
    apply t.used_below_lowest hlt
    rw [← h, file_lowest]

/-- A successful `open` of `p`: a new file under the lowest free number. -/
def install (t : FdTable) (p : List Char) : FdTable where
  file := Function.update t.file t.lowest (some t.next)
  bound := max t.bound (t.lowest + 1)
  next := t.next + 1
  path := Function.update t.path t.next p
  closes := t.closes
  above n hn := by
    rw [Function.update_of_ne (by omega)]
    exact t.above n (by omega)
  lt_next n f h := by
    rcases Decidable.eq_or_ne n t.lowest with rfl | hne
    · rw [Function.update_self] at h
      cases h
      exact Nat.lt_succ_self _
    · rw [Function.update_of_ne hne] at h
      exact Nat.lt_succ_of_lt (t.lt_next n f h)
  inj n m f hn hm := by
    rcases Decidable.eq_or_ne n t.lowest with rfl | hn'
    · rcases Decidable.eq_or_ne m t.lowest with rfl | hm'
      · rfl
      · rw [Function.update_self] at hn
        rw [Function.update_of_ne hm'] at hm
        cases hn
        exact absurd (t.lt_next m _ hm) (Nat.lt_irrefl _)
    · rw [Function.update_of_ne hn'] at hn
      rcases Decidable.eq_or_ne m t.lowest with rfl | hm'
      · rw [Function.update_self] at hm
        cases hm
        exact absurd (t.lt_next n _ hn) (Nat.lt_irrefl _)
      · rw [Function.update_of_ne hm'] at hm
        exact t.inj n m f hn hm
  once := t.once
  gone f hf := by
    obtain ⟨hlt, hgone⟩ := t.gone f hf
    refine ⟨Nat.lt_succ_of_lt hlt, ?_⟩
    intro n hn
    rcases Decidable.eq_or_ne n t.lowest with rfl | hne
    · rw [Function.update_self, Option.some.injEq] at hn
      omega
    · rw [Function.update_of_ne hne] at hn
      exact hgone n hn

/-- `close(n)`. It fails, with `EBADF`, exactly when nothing is open under `n`. -/
def close (t : FdTable) (n : Nat) : FdTable where
  file := Function.update t.file n none
  bound := t.bound
  next := t.next
  path := t.path
  closes := (n, t.file n) :: t.closes
  above k hk := by
    rcases Decidable.eq_or_ne k n with rfl | hne
    · exact Function.update_self ..
    · rw [Function.update_of_ne hne]; exact t.above k hk
  lt_next k f h := by
    rcases Decidable.eq_or_ne k n with rfl | hne
    · rw [Function.update_self] at h; cases h
    · rw [Function.update_of_ne hne] at h; exact t.lt_next k f h
  inj k m f hk hm := by
    rcases Decidable.eq_or_ne k n with rfl | hk'
    · rw [Function.update_self] at hk; cases hk
    · rcases Decidable.eq_or_ne m n with rfl | hm'
      · rw [Function.update_self] at hm; cases hm
      · rw [Function.update_of_ne hk'] at hk
        rw [Function.update_of_ne hm'] at hm
        exact t.inj k m f hk hm
  once := by
    cases hn : t.file n with
    | none => exact t.once
    | some f => exact List.nodup_cons.2 ⟨fun hf => (t.gone f hf).2 n hn, t.once⟩
  gone f hf := by
    have hold : f ∈ closedFiles t.closes →
        f < t.next ∧ ∀ k, Function.update t.file n none k ≠ some f := fun hf => by
      obtain ⟨hlt, hgone⟩ := t.gone f hf
      refine ⟨hlt, ?_⟩
      intro k hk
      rcases Decidable.eq_or_ne k n with rfl | hne
      · rw [Function.update_self] at hk; cases hk
      · rw [Function.update_of_ne hne] at hk; exact hgone k hk
    cases hn : t.file n with
    | none => exact hold (by simpa [closedFiles, hn] using hf)
    | some g =>
      rw [hn] at hf
      rcases List.mem_cons.1 hf with rfl | hf
      · refine ⟨t.lt_next n _ hn, ?_⟩
        intro k hk
        rcases Decidable.eq_or_ne k n with rfl | hne
        · rw [Function.update_self] at hk; cases hk
        · rw [Function.update_of_ne hne] at hk
          exact hne (t.inj k n _ hk hn)
      · exact hold hf

/-- How often file `f` was closed. -/
def closeCount (t : FdTable) (f : Nat) : Nat := (closedFiles t.closes).count f

variable {t t' t'' : FdTable} {file file' : Nat → Option Nat} {n m f : Nat} {p : List Char}

@[simp] theorem file_install :
    (t.install p).file = Function.update t.file t.lowest (some t.next) := rfl
@[simp] theorem path_install : (t.install p).path = Function.update t.path t.next p := rfl
@[simp] theorem next_install : (t.install p).next = t.next + 1 := rfl
@[simp] theorem file_close : (t.close n).file = Function.update t.file n none := rfl
@[simp] theorem closes_close : (t.close n).closes = (n, t.file n) :: t.closes := rfl

/-- The next `open` gets another number. -/
theorem lowest_install_ne : (t.install p).lowest ≠ t.lowest := by
  intro h
  have hfree := (t.install p).file_lowest
  rw [h, file_install, Function.update_self] at hfree
  cases hfree

theorem file_lowest_install : t.file (t.install p).lowest = none := by
  have hfree := (t.install p).file_lowest
  rwa [file_install, Function.update_of_ne lowest_install_ne] at hfree

/-- Two files that are open at once do not both have number 0. -/
theorem lowest_install_ne_zero : (t.install p).lowest ≠ 0 := by
  intro hzero
  have hpos : 0 < t.lowest := by
    apply Nat.pos_of_ne_zero
    intro h
    exact lowest_install_ne (hzero.trans h.symm)
  apply t.used_below_lowest hpos
  rw [← hzero, file_lowest_install]

/-- Opening a file under a free number takes no number in use. -/
theorem update_of_free (hm : t.file m = none) (hn : t.file n = some f) (g : Nat) :
    Function.update t.file m (some g) n = some f := by
  rcases Decidable.eq_or_ne n m with rfl | hne
  · rw [hm] at hn
    cases hn
  · rw [Function.update_of_ne hne]
    exact hn

theorem closeCount_eq_zero (hn : t.file n = some f) : t.closeCount f = 0 :=
  List.count_eq_zero.2 fun hf => (t.gone f hf).2 n hn

/-- A file that was closed is open no more. -/
theorem file_ne_of_closeCount (hf : t.closeCount f = 1) : t.file n ≠ some f := by
  intro hn
  rw [closeCount_eq_zero hn] at hf
  cases hf

theorem closeCount_close_self (hn : t.file n = some f) : (t.close n).closeCount f = 1 := by
  have hzero := closeCount_eq_zero hn
  unfold closeCount at hzero ⊢
  simpa [closedFiles, hn] using hzero

theorem closeCount_close_ne (hn : t.file n ≠ some f) :
    (t.close n).closeCount f = t.closeCount f := by
  unfold closeCount
  cases hg : t.file n with
  | none => simp [closedFiles, hg]
  | some g =>
    have hne : g ≠ f := fun he => hn (he ▸ hg)
    simp [closedFiles, hg, hne]

/-! ## Effects of code that closes only its own files -/

/-- From `t` to `t'`, the table becomes `file` and every `close` call closes a
file opened since `t`. -/
structure Effect (t t' : FdTable) (file : Nat → Option Nat) : Prop where
  file_eq : t'.file = file
  next_le : t.next ≤ t'.next
  path_eq : ∀ f < t.next, t'.path f = t.path f
  closes_eq : ∃ log, t'.closes = log ++ t.closes ∧ ∀ c ∈ log, ∃ f, c.2 = some f ∧ t.next ≤ f

/-- Files of before are closed no more often. -/
theorem Effect.closeCount (h : Effect t t' file) (hf : f < t.next) :
    t'.closeCount f = t.closeCount f := by
  obtain ⟨log, e, own⟩ := h.closes_eq
  have hzero : (closedFiles log).count f = 0 := by
    apply List.count_eq_zero.2
    intro hmem
    obtain ⟨c, hc, hcf⟩ := List.mem_filterMap.1 hmem
    obtain ⟨g, hg, hle⟩ := own c hc
    rw [hg, Option.some.injEq] at hcf
    omega
  unfold FdTable.closeCount
  rw [e]
  simp only [closedFiles, List.filterMap_append, List.count_append] at hzero ⊢
  rw [hzero, Nat.zero_add]

/-- Everything opened between `t` and `t'` is closed again. -/
abbrev Balanced (t t' : FdTable) : Prop := Effect t t' t.file

theorem Balanced.refl (t : FdTable) : Balanced t t :=
  ⟨rfl, Nat.le_refl _, fun _ _ => rfl, [], rfl, fun _ h => nomatch h⟩

theorem Effect.trans (h₁ : Effect t t' file) (h₂ : Effect t' t'' file') :
    Effect t t'' file' := by
  obtain ⟨log₁, e₁, own₁⟩ := h₁.closes_eq
  obtain ⟨log₂, e₂, own₂⟩ := h₂.closes_eq
  refine ⟨h₂.file_eq, Nat.le_trans h₁.next_le h₂.next_le, ?_, log₂ ++ log₁, ?_, ?_⟩
  · intro f hf
    rw [h₂.path_eq f (Nat.lt_of_lt_of_le hf h₁.next_le), h₁.path_eq f hf]
  · rw [e₂, e₁, List.append_assoc]
  · intro c hc
    rcases List.mem_append.1 hc with hc | hc
    · obtain ⟨f, hf, hle⟩ := own₂ c hc
      exact ⟨f, hf, Nat.le_trans h₁.next_le hle⟩
    · exact own₁ c hc

/-- Balanced code after an effect leaves the effect. -/
theorem Effect.balanced (h₁ : Effect t t' file) (h₂ : Balanced t' t'') : Effect t t'' file := by
  have h := h₁.trans h₂
  rwa [h₁.file_eq] at h

theorem Effect.install (h : Effect t t' file) (p : List Char) :
    Effect t (t'.install p) (Function.update file t'.lowest (some t'.next)) := by
  refine ⟨?_, Nat.le_succ_of_le h.next_le, ?_, h.closes_eq⟩
  · rw [file_install, h.file_eq]
  · intro f hf
    have hlt : f < t'.next := Nat.lt_of_lt_of_le hf h.next_le
    rw [path_install, Function.update_of_ne (Nat.ne_of_lt hlt), h.path_eq f hf]

/-- Closing a file opened since `t`. -/
theorem Effect.close (h : Effect t t' file) (hn : file n = some f) (hf : t.next ≤ f) :
    Effect t (t'.close n) (Function.update file n none) := by
  obtain ⟨log, e, own⟩ := h.closes_eq
  refine ⟨?_, h.next_le, h.path_eq, (n, t'.file n) :: log, ?_, ?_⟩
  · rw [file_close, h.file_eq]
  · rw [closes_close, e]; rfl
  · intro c hc
    rcases List.mem_cons.1 hc with rfl | hc
    · exact ⟨f, by simp only [h.file_eq]; exact hn, hf⟩
    · exact own c hc

/-- Opening a file, code with an effect on other numbers, and closing the file
again. -/
theorem Effect.bracket {g : Nat}
    (h : Effect (t.install p) t' (Function.update (t.install p).file m (some g)))
    (hm : m ≠ t.lowest) : Effect t (t'.close t.lowest) (Function.update t.file m (some g)) := by
  have h1 := ((Balanced.refl t).install p).trans h
  have h2 := h1.close (n := t.lowest) (f := t.next)
    (by rw [Function.update_of_ne hm.symm, file_install, Function.update_self]) (Nat.le_refl _)
  have hfile : Function.update (Function.update (t.install p).file m (some g)) t.lowest none =
      Function.update t.file m (some g) := by
    rw [Function.update_comm hm, file_install, Function.update_idem, ← t.file_lowest,
      Function.update_eq_self]
  rwa [hfile] at h2

/-- Opening a file, balanced code, and closing the file again is balanced. -/
theorem Balanced.bracket (h : Balanced (t.install p) t') : Balanced t (t'.close t.lowest) := by
  have h1 : Effect t t' (t.install p).file := ((Balanced.refl t).install p).balanced h
  have h2 := h1.close (n := t.lowest) (f := t.next) (Function.update_self ..) (Nat.le_refl _)
  have hfile : Function.update (t.install p).file t.lowest none = t.file := by
    rw [file_install, Function.update_idem]
    funext k
    rcases Decidable.eq_or_ne k t.lowest with rfl | hne
    · rw [Function.update_self, file_lowest]
    · rw [Function.update_of_ne hne]
  rwa [hfile] at h2

end FdTable

end Posix
