import Mathlib.Data.Nat.Digits.Defs

/-!
# Numbers in text

The number conversions of `printf` and of the `scanf`/`istream` family, over
strings as lists of characters. A conversion reads an optional sign, for base
16 an optional `0x`, and then digits, within a maximal field width.
-/

namespace Posix.Text

/-! ## Printing -/

/-- The digit `d` in lower or upper case. -/
def digitChar (upper : Bool) (d : Nat) : Char :=
  if d < 10 then Char.ofNat (48 + d) else Char.ofNat ((if upper then 55 else 87) + d)

/-- `%0{width}x`, `%0{width}X` and `%0{width}u`: at least `width` digits. -/
def printUnsigned (upper : Bool) (base width n : Nat) : List Char :=
  let ds := if n = 0 then [0] else (Nat.digits base n).reverse
  (ds.map (digitChar upper)).leftpad width '0'

/-- What `snprintf` leaves in a buffer of `size` bytes. -/
def truncateTo (size : Nat) (s : List Char) : List Char := s.take (size - 1)

/-! ## Scanning -/

/-- `isspace` in the C locale. -/
def isSpace (c : Char) : Bool :=
  c == ' ' || (9 ≤ c.toNat && c.toNat ≤ 13)

/-- The value of a digit character in `base` at most 16. -/
def digitVal (base : Nat) (c : Char) : Option Nat :=
  let n := c.toNat
  let v :=
    if 48 ≤ n ∧ n ≤ 57 then some (n - 48)
    else if 97 ≤ n ∧ n ≤ 102 then some (n - 87)
    else if 65 ≤ n ∧ n ≤ 70 then some (n - 55)
    else none
  v.filter (· < base)

/-- The longest run of digits within `width` characters, and what follows. -/
def takeDigits (base : Nat) : (width : Nat) → List Char → List Nat × List Char
  | 0, cs => ([], cs)
  | _ + 1, [] => ([], [])
  | width + 1, c :: cs =>
    match digitVal base c with
    | none => ([], c :: cs)
    | some d => (d :: (takeDigits base width cs).1, (takeDigits base width cs).2)

/-- An optional sign: whether it is a minus, the width left and what follows. -/
def takeSign (width : Nat) : List Char → Bool × Nat × List Char
  | '-' :: cs => if 0 < width then (true, width - 1, cs) else (false, width, '-' :: cs)
  | '+' :: cs => if 0 < width then (false, width - 1, cs) else (false, width, '+' :: cs)
  | cs => (false, width, cs)

/-- The optional `0x` of base 16: the width left and what follows. -/
def takeBaseMark (base width : Nat) (cs : List Char) : Nat × List Char :=
  match cs with
  | '0' :: x :: cs' =>
    if base = 16 ∧ 2 ≤ width ∧ (x = 'x' ∨ x = 'X') then (width - 2, cs') else (width, cs)
  | _ => (width, cs)

/-- Sign, digits (most significant first) and rest of a number field. -/
def takeNumber (base width : Nat) (cs : List Char) : Bool × List Nat × List Char :=
  let (neg, width, cs) := takeSign width cs
  let (width, cs) := takeBaseMark base width cs
  let (ds, rest) := takeDigits base width cs
  (neg, ds, rest)

/-- The number that digits denote, most significant first. -/
def digitsValue (base : Nat) (ds : List Nat) : Nat := Nat.ofDigits base ds.reverse

/-- `strtoull`: the 64-bit value of a field, negated modulo 2^64 under a minus
sign, the largest value when it does not fit. -/
def toUInt64Value (neg : Bool) (n : Nat) : Nat :=
  if n < 2 ^ 64 then (if neg then (2 ^ 64 - n) % 2 ^ 64 else n) else 2 ^ 64 - 1

/-- A `scanf` conversion `%{width}x` (base 16) or `%{width}u` (base 10) into an
`unsigned int`; `none` on a matching failure. -/
def scanUnsigned (base width : Nat) (cs : List Char) : Option (UInt32 × List Char) :=
  let (neg, ds, rest) := takeNumber base width (cs.dropWhile isSpace)
  if ds = [] then none
  else some (UInt32.ofNat (toUInt64Value neg (digitsValue base ds)), rest)

/-- A literal character of a `scanf` format. -/
def scanLiteral (c : Char) : List Char → Option (List Char)
  | [] => none
  | d :: cs => if d = c then some cs else none

example : printUnsigned false 16 4 255 = ['0', '0', 'f', 'f'] := by decide
example : scanUnsigned 16 4 "1f:03".toList = some (31, ":03".toList) := by decide

end Posix.Text
