import CronoPci.Posix.Text
import Mathlib.Data.Nat.Digits.Lemmas
import Mathlib.Tactic.FinCases

/-!
# Printed numbers read back

`scanf` reads what `printf` printed: the digits of a number, padded to a width,
give that number back as long as it fits the type and its digits the width of
the field.
-/

namespace Posix.Text

/-! ## Single digits -/

theorem digitVal_digitChar_sixteen (upper : Bool) (d : Fin 16) :
    digitVal 16 (digitChar upper d) = some d.1 := by
  revert upper d
  decide

theorem digitVal_eq_filter {base : Nat} (hb : base ≤ 16) (c : Char) :
    digitVal base c = (digitVal 16 c).filter (· < base) := by
  unfold digitVal
  simp only [Option.filter_filter]
  congr 1
  funext d
  by_cases h : d < base
  · simp [h, Nat.lt_of_lt_of_le h hb]
  · simp [h]

/-- A digit is read back, whatever its case. -/
theorem digitVal_digitChar (upper : Bool) {base d : Nat} (hb : base ≤ 16) (hd : d < base) :
    digitVal base (digitChar upper d) = some d := by
  rw [digitVal_eq_filter hb, digitVal_digitChar_sixteen upper ⟨d, Nat.lt_of_lt_of_le hd hb⟩]
  simp [hd]

/-- A digit is no space, no sign and no part of a base mark. -/
theorem plain_of_digitVal {base d : Nat} {c : Char} (h : digitVal base c = some d) :
    isSpace c = false ∧ c ≠ '-' ∧ c ≠ '+' ∧ c ≠ 'x' ∧ c ≠ 'X' := by
  have hnone {c' : Char} (hc' : digitVal base c' = none) : c ≠ c' := by
    rintro rfl
    rw [h] at hc'
    cases hc'
  refine ⟨?_, hnone rfl, hnone rfl, hnone rfl, hnone rfl⟩
  by_contra hspace
  simp only [isSpace, Bool.not_eq_false, Bool.or_eq_true, beq_iff_eq, Bool.and_eq_true,
    decide_eq_true_eq] at hspace
  have hn : c.toNat = 32 ∨ 9 ≤ c.toNat ∧ c.toNat ≤ 13 := by
    rcases hspace with rfl | hspace
    · exact Or.inl rfl
    · exact Or.inr hspace
  simp only [digitVal] at h
  rw [if_neg (by omega), if_neg (by omega), if_neg (by omega)] at h
  cases h

/-! ## The digits of a number -/

/-- The digits printed, the most significant first. -/
def digitsOf (base width n : Nat) : List Nat :=
  (if n = 0 then [0] else (Nat.digits base n).reverse).leftpad width 0

theorem printUnsigned_eq (upper : Bool) (base width n : Nat) :
    printUnsigned upper base width n = (digitsOf base width n).map (digitChar upper) := by
  have hzero : digitChar upper 0 = '0' := by cases upper <;> rfl
  simp only [printUnsigned, digitsOf, List.leftpad, List.map_append, List.map_replicate,
    List.length_map, hzero]

theorem digitsOf_lt {base width n d : Nat} (hb : 1 < base) (hd : d ∈ digitsOf base width n) :
    d < base := by
  simp only [digitsOf, List.leftpad, List.mem_append, List.mem_replicate] at hd
  rcases hd with ⟨-, rfl⟩ | hd
  · omega
  · split at hd
    · rw [List.mem_singleton.1 hd]
      omega
    · exact Nat.digits_lt_base hb (List.mem_reverse.1 hd)

/-- What is no digit is not printed. -/
theorem notMem_print (upper : Bool) {base : Nat} (hb : 1 < base) (hb' : base ≤ 16) {c : Char}
    (hc : digitVal base c = none) (width n : Nat) : c ∉ printUnsigned upper base width n := by
  rw [printUnsigned_eq]
  intro h
  obtain ⟨d, hd, rfl⟩ := List.mem_map.1 h
  rw [digitVal_digitChar upper hb' (digitsOf_lt hb hd)] at hc
  cases hc

theorem digitsOf_ne_nil (base width n : Nat) : digitsOf base width n ≠ [] := by
  unfold digitsOf List.leftpad
  split
  · simp
  · next hn => simp [Nat.digits_ne_nil_iff_ne_zero.2 hn]

theorem digitsValue_digitsOf (base width n : Nat) :
    digitsValue base (digitsOf base width n) = n := by
  unfold digitsValue digitsOf List.leftpad
  rw [List.reverse_append, List.reverse_replicate, Nat.ofDigits_append_replicate_zero]
  split
  · next hn => simp [hn]
  · rw [List.reverse_reverse, Nat.ofDigits_digits]

/-- A number of at most `k` digits is printed with no more than `k` or the width. -/
theorem length_digitsOf_le {base width n k : Nat} (hb : 1 < base) (hk : 0 < k)
    (hn : n < base ^ k) : (digitsOf base width n).length ≤ max width k := by
  have hle : (if n = 0 then [0] else (Nat.digits base n).reverse).length ≤ k := by
    split
    · exact hk
    · rw [List.length_reverse]
      exact (Nat.digits_length_le_iff hb n).2 hn
  simp only [digitsOf, List.leftpad, List.length_append, List.length_replicate]
  omega

/-- A number that fits the width has exactly that many digits. -/
theorem length_digitsOf {base width n : Nat} (hb : 1 < base) (hw : 0 < width)
    (hn : n < base ^ width) : (digitsOf base width n).length = width := by
  apply Nat.le_antisymm
  · have hle : (digitsOf base width n).length ≤ max width width := length_digitsOf_le hb hw hn
    rwa [Nat.max_self] at hle
  · simp only [digitsOf, List.leftpad, List.length_append, List.length_replicate]
    omega

/-- A number with enough digits is not padded. -/
theorem digitsOf_eq_of_le {base width n : Nat} (hb : 1 < base) (hn : base ^ (width - 1) ≤ n) :
    digitsOf base width n = digitsOf base 1 n := by
  have hpos : 0 < base ^ (width - 1) := Nat.pow_pos (by omega)
  have hdigits : width ≤ (Nat.digits base n).length := by
    have hlt := (Nat.lt_digits_length_iff hb n).2 hn
    omega
  have hne : 1 ≤ (Nat.digits base n).length :=
    List.length_pos_iff.2 (Nat.digits_ne_nil_iff_ne_zero.2 (by omega))
  simp only [digitsOf, show n ≠ 0 by omega, ↓reduceIte, List.leftpad, List.length_reverse]
  rw [Nat.sub_eq_zero_of_le hdigits, Nat.sub_eq_zero_of_le hne]

/-- Numbers printed alike are equal. -/
theorem printUnsigned_inj {upper : Bool} {base width n m : Nat} (hb : 1 < base) (hb' : base ≤ 16)
    (h : printUnsigned upper base width n = printUnsigned upper base width m) : n = m := by
  have hval (k : Nat) : ((digitsOf base width k).map (digitChar upper)).map (digitVal base) =
      (digitsOf base width k).map some := by
    rw [List.map_map]
    exact List.map_congr_left fun d hd => digitVal_digitChar upper hb' (digitsOf_lt hb hd)
  rw [printUnsigned_eq, printUnsigned_eq] at h
  have hdigits : (digitsOf base width n).map some = (digitsOf base width m).map some := by
    rw [← hval n, ← hval m, h]
  rw [← digitsValue_digitsOf base width n, ← digitsValue_digitsOf base width m,
    List.map_injective_iff.2 (Option.some_injective Nat) hdigits]

/-! ## Reading them back -/

/-- A number ends before `rest`. -/
def Stops (base : Nat) (rest : List Char) : Prop :=
  ∀ c ∈ rest.head?, digitVal base c = none ∧ c ≠ 'x' ∧ c ≠ 'X'

instance (base : Nat) (rest : List Char) : Decidable (Stops base rest) :=
  inferInstanceAs (Decidable (∀ c ∈ rest.head?, _))

/-- The characters are these digits, in either case. -/
def IsDigits (base : Nat) : List Char → List Nat → Prop :=
  List.Forall₂ fun c d => digitVal base c = some d

theorem isDigits_print (upper : Bool) {base : Nat} {ds : List Nat} (hb : base ≤ 16)
    (hds : ∀ d ∈ ds, d < base) : IsDigits base (ds.map (digitChar upper)) ds := by
  unfold IsDigits
  rw [List.forall₂_map_left_iff, List.forall₂_same]
  exact fun d hd => digitVal_digitChar upper hb (hds d hd)

theorem takeDigits_append {base width : Nat} {cs rest : List Char} {ds : List Nat}
    (hcs : IsDigits base cs ds) (hw : cs.length ≤ width) (hrest : Stops base rest) :
    takeDigits base width (cs ++ rest) = (ds, rest) := by
  induction hcs generalizing width with
  | nil =>
    cases width with
    | zero => rfl
    | succ width =>
      cases rest with
      | nil => rfl
      | cons c rest =>
        have hc := (hrest c rfl).1
        simp only [List.nil_append, takeDigits, hc]
  | cons hd _ ih =>
    cases width with
    | zero => simp at hw
    | succ width =>
      have hrec := ih (Nat.le_of_succ_le_succ hw)
      simp only [List.cons_append, takeDigits, hd, hrec]

theorem takeSign_of_ne {c : Char} (cs : List Char) (width : Nat) (hminus : c ≠ '-')
    (hplus : c ≠ '+') : takeSign width (c :: cs) = (false, width, c :: cs) := by
  unfold takeSign
  split
  · next he =>
    cases he
    exact absurd rfl hminus
  · next he =>
    cases he
    exact absurd rfl hplus
  · rfl

theorem takeBaseMark_of_ne {base width : Nat} {cs : List Char}
    (h : ∀ x ∈ cs.tail.head?, x ≠ 'x' ∧ x ≠ 'X') : takeBaseMark base width cs = (width, cs) := by
  unfold takeBaseMark
  split
  · next x _ =>
    obtain ⟨hx, hX⟩ := h x rfl
    rw [if_neg]
    rintro ⟨-, -, he | he⟩
    · exact hx he
    · exact hX he
  · rfl

/-- The sign and the base mark are looked for in vain. -/
theorem takeNumber_digits {base width : Nat} {cs rest : List Char} {ds : List Nat}
    (hcs : IsDigits base cs ds) (hne : ds ≠ []) (hw : cs.length ≤ width)
    (hrest : Stops base rest) : takeNumber base width (cs ++ rest) = (false, ds, rest) := by
  have hdigits := takeDigits_append hcs hw hrest
  cases hcs with
  | nil => exact absurd rfl hne
  | @cons c d cs ds hd hcs =>
    obtain ⟨-, hminus, hplus, -, -⟩ := plain_of_digitVal hd
    have hsign : takeSign width (c :: cs ++ rest) = (false, width, c :: cs ++ rest) :=
      takeSign_of_ne _ width hminus hplus
    have hmark : takeBaseMark base width (c :: cs ++ rest) = (width, c :: cs ++ rest) := by
      apply takeBaseMark_of_ne
      intro x hx
      -- the second character is the second digit or what follows the only one
      cases hcs with
      | nil => exact (hrest x hx).2
      | cons hd' =>
        obtain ⟨-, -, -, hx', hX'⟩ := plain_of_digitVal hd'
        cases hx
        exact ⟨hx', hX'⟩
    unfold takeNumber
    simp only [hsign, hmark, hdigits]

/-- Digits after the mark of base 16. -/
theorem takeNumber_marked {width : Nat} {x : Char} {cs rest : List Char} {ds : List Nat}
    (hx : x = 'x' ∨ x = 'X') (hcs : IsDigits 16 cs ds) (hw : cs.length + 2 ≤ width)
    (hrest : Stops 16 rest) : takeNumber 16 width ('0' :: x :: cs ++ rest) = (false, ds, rest) := by
  have hsign : takeSign width ('0' :: x :: (cs ++ rest)) =
      (false, width, '0' :: x :: (cs ++ rest)) :=
    takeSign_of_ne _ width (by decide) (by decide)
  have hmark : takeBaseMark 16 width ('0' :: x :: (cs ++ rest)) = (width - 2, cs ++ rest) := by
    simp only [takeBaseMark, hx, and_true, true_and]
    rw [if_pos (by omega)]
  have hdigits : takeDigits 16 (width - 2) (cs ++ rest) = (ds, rest) :=
    takeDigits_append hcs (by omega) hrest
  simp only [takeNumber, List.cons_append, hsign, hmark, hdigits]

/-- A number that fits the type, printed with digits that fit the field, is read
back, and reading goes on where it ends. -/
theorem scanUnsigned_print (upper : Bool) {base width field n : Nat} {rest : List Char}
    (hb : 1 < base) (hb' : base ≤ 16) (hn : n < 2 ^ 32)
    (hw : (digitsOf base width n).length ≤ field) (hrest : Stops base rest) :
    scanUnsigned base field (printUnsigned upper base width n ++ rest) =
      some (UInt32.ofNat n, rest) := by
  have hne := digitsOf_ne_nil base width n
  have hlt (d : Nat) (hd : d ∈ digitsOf base width n) : d < base := digitsOf_lt hb hd
  have hspace : ((digitsOf base width n).map (digitChar upper) ++ rest).dropWhile isSpace =
      (digitsOf base width n).map (digitChar upper) ++ rest := by
    obtain ⟨d, ds, he⟩ := List.exists_cons_of_ne_nil hne
    have hd := (plain_of_digitVal
      (digitVal_digitChar upper hb' (hlt d (he ▸ List.mem_cons_self)))).1
    rw [he, List.map_cons, List.cons_append, List.dropWhile_cons_of_neg (by simp [hd])]
  unfold scanUnsigned
  rw [printUnsigned_eq, hspace, takeNumber_digits (isDigits_print upper hb' hlt)
    (by simpa using hne) (by simpa using hw) hrest]
  simp only [hne, ↓reduceIte, digitsValue_digitsOf, toUInt64Value, Bool.false_eq_true,
    show n < 2 ^ 64 by omega]

end Posix.Text
