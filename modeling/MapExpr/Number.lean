/-!
# Numbers

How floats are read and written as decimals, and what the language computes with them beyond the
four operations. A numeral denotes the float nearest to its exact value, whatever the count of its
digits, and a float is written as the shortest decimal that denotes it.
-/

namespace MapExpr

/-! ## The value of a row of digits

Adding digits one at a time takes quadratic time in the number of digits. `Digits.value` joins
neighbouring digits into digits of the squared base instead, and repeats this until one is left.
`value_eq_ofDigitChars` says that the result is the same.

The digits are joined from the least significant end, where the grouping into pairs does not depend
on how many digits there are.
-/

namespace Digits

/-- The value of digits in base `b`, the least significant one first. -/
def sum (b : Nat) : List Nat → Nat
  | [] => 0
  | d :: ds => d + b * sum b ds

/-- Every two neighbouring digits in base `b` as one digit in base `b * b`. -/
def pair (b : Nat) : List Nat → List Nat
  | low :: high :: ds => (low + b * high) :: pair b ds
  | ds => ds

/-- Joining neighbouring digits does not change the value of the row. -/
theorem sum_pair (b : Nat) (ds : List Nat) : sum (b * b) (pair b ds) = sum b ds := by
  fun_induction pair b ds with
  | case1 low high ds ih =>
    simp only [sum, ih]
    rw [Nat.mul_add, Nat.mul_assoc, Nat.add_assoc]
  | case2 ds h =>
    match ds, h with
    | [], _ => rfl
    | [d], _ => simp [sum]
    | low :: high :: ds, h => exact absurd rfl (h low high ds)

/-- The value of digits in base `b`, the least significant one first, after joining pairs for the
given number of rounds. -/
def join (b : Nat) (ds : List Nat) : Nat → Nat
  | 0 => sum b ds
  | rounds + 1 => join (b * b) (pair b ds) rounds

/-- No number of rounds changes the value of the row. -/
theorem join_eq_sum (b : Nat) (ds : List Nat) (rounds : Nat) : join b ds rounds = sum b ds := by
  induction rounds generalizing b ds with
  | zero => rfl
  | succ rounds ih => rw [join, ih, sum_pair]

/-- The value of decimal digits, the most significant one first. A round halves the number of
digits, so the rounds leave a single one. -/
def value (cs : List Char) : Nat :=
  join 10 (cs.reverse.map fun c => c.toNat - '0'.toNat) (cs.length.log2 + 1)

/-- Joining pairs gives the same value as adding the digits one at a time. -/
theorem value_eq_ofDigitChars (cs : List Char) : value cs = Nat.ofDigitChars 10 cs 0 := by
  rw [value, join_eq_sum, Nat.ofDigitChars, ← List.foldr_reverse]
  induction cs.reverse with
  | nil => rfl
  | cons c cs ih => rw [List.map_cons, sum, ih, List.foldr_cons, Nat.add_comm]

end Digits

/-! ## Rounding to a float

`Number.nearest` rounds a whole number times a power of ten to the nearest float. The number may
have any count of digits, so one that no finite float can match is recognised by its length before
it is multiplied or divided; `mul_pow_le_of_exceedsFloats` says that only such a number is.
-/

namespace Number

/-- The float above all finite ones. -/
def infinity : Float := Float.ofModel (.pack (.infinity .positive))

/-- Three decimal digits take fewer than ten binary ones. -/
theorem ten_pow_le_two_pow (k : Nat) : Nat.pow 10 k ≤ Nat.pow 2 (10 * (k / 3 + 1)) :=
  calc Nat.pow 10 k
    _ ≤ Nat.pow 10 (3 * (k / 3 + 1)) := Nat.pow_le_pow_right (by decide) (by omega)
    _ = Nat.pow 1000 (k / 3 + 1) := Nat.pow_mul 10 3 _
    _ ≤ Nat.pow 1024 (k / 3 + 1) := Nat.pow_le_pow_left (by decide) _
    _ = Nat.pow 2 (10 * (k / 3 + 1)) := (Nat.pow_mul 2 10 _).symm

/-- Whether `m * 10 ^ e` is above the finite floats for certain, as the number of its binary digits
alone can tell. -/
def exceedsFloats (m : Nat) (e : Int) : Bool :=
  1024 + 10 * ((-e).toNat / 3 + 1) ≤ m.log2

/-- What is recognised by its binary digits is above the finite floats in fact. -/
theorem mul_pow_le_of_exceedsFloats {m : Nat} {e : Int} (h : exceedsFloats m e) :
    Nat.pow 2 1024 * Nat.pow 10 (-e).toNat ≤ m := by
  have hm : 1024 + 10 * ((-e).toNat / 3 + 1) ≤ m.log2 := of_decide_eq_true h
  generalize 1024 = top at hm ⊢
  calc Nat.pow 2 top * Nat.pow 10 (-e).toNat
    _ ≤ Nat.pow 2 top * Nat.pow 2 (10 * ((-e).toNat / 3 + 1)) :=
      Nat.mul_le_mul_left _ (ten_pow_le_two_pow _)
    _ = Nat.pow 2 (top + 10 * ((-e).toNat / 3 + 1)) := (Nat.pow_add 2 _ _).symm
    _ ≤ Nat.pow 2 m.log2 := Nat.pow_le_pow_right (by decide) hm
    _ ≤ m := Nat.log2_self_le (by rintro rfl; simp at hm)

/-- The float nearest to `m * 10 ^ e`, a tie going to the even neighbour. A value certain to be
above the finite floats is infinite, without a division of its many digits. -/
def nearest (m : Nat) (e : Int) : Float :=
  if exceedsFloats m e then infinity
  else Float.ofModel (.ofScientific m e)

end Number

/-! ## Decimal numerals

The language writes a number as digits, optionally followed by a point and more digits; there is no
exponent. A `Decimal` is what such a numeral says, namely a whole number and the count of its digits
that stand behind the point. `Decimal.chars` writes the numeral and `Decimal.toFloat` is the float
that it denotes, the one nearest to its exact value.
-/

/-- The exact value `digits / 10 ^ places`. -/
structure Decimal where
  digits : Nat
  places : Nat
deriving DecidableEq

namespace Decimal

/-- The float that the numeral denotes. -/
def toFloat (d : Decimal) : Float :=
  Number.nearest d.digits (-(d.places : Int))

/-- The numeral made of the digits in front of the point and those behind it. -/
def ofDigits (whole fraction : List Char) : Decimal :=
  ⟨Digits.value (whole ++ fraction), fraction.length⟩

/-- The digits in front of the point. -/
def wholeChars (d : Decimal) : List Char :=
  Nat.toDigits 10 (d.digits / Nat.pow 10 d.places)

/-- The digits behind the point, as many as there are places. -/
def fractionChars (d : Decimal) : List Char :=
  if d.places = 0 then []
  else (Nat.toDigits 10 (d.digits % Nat.pow 10 d.places)).leftpad d.places '0'

/-- The numeral itself: a whole number has no point. -/
def chars (d : Decimal) : List Char :=
  if d.places = 0 then d.wholeChars else d.wholeChars ++ '.' :: d.fractionChars

end Decimal

/-! ## The shortest decimal of a float

A float is written with the fewest digits that read back as the same float; among those decimals the
nearest one is taken, and of two equally near the larger. The search runs over the grids of the
multiples of a power of ten, from coarse to fine. On a grid only the two neighbours of the exact
value have to be looked at, because whatever reads back lies in an interval around that value.

`readsBack` asks the reader itself, so the decimal that is found denotes the float by construction.
-/

namespace Shortest

/-- `n * 10 ^ j` as a decimal. -/
def onGrid (n : Nat) (j : Int) : Decimal :=
  if 0 ≤ j then ⟨n * Nat.pow 10 j.toNat, 0⟩ else ⟨n, (-j).toNat⟩

/-- The quotient `m * 2 ^ e / 10 ^ j` as a fraction of whole numbers. -/
def fraction (m : Nat) (e j : Int) : Nat × Nat :=
  (m * Nat.pow 2 e.toNat * Nat.pow 10 (-j).toNat, Nat.pow 2 (-e).toNat * Nat.pow 10 j.toNat)

/-- The decimal of one grid that reads back as `x`, the float of exact value `m * 2 ^ e`. -/
def onGrid? (x : Float) (m : Nat) (e j : Int) : Option Decimal :=
  let q := fraction m e j
  let below := onGrid (q.1 / q.2) j
  let above := onGrid (q.1 / q.2 + 1) j
  match decide (below.toFloat = x), decide (above.toFloat = x) with
  | true, true => if 2 * (q.1 % q.2) < q.2 then some below else some above
  | true, false => some below
  | false, true => some above
  | false, false => none

/-- The exact value `m * 2 ^ e` as a decimal. -/
def exact (m : Nat) (e : Int) : Decimal :=
  if 0 ≤ e then ⟨m * Nat.pow 2 e.toNat, 0⟩ else ⟨m * Nat.pow 5 (-e).toNat, (-e).toNat⟩

/-- An exponent `j` such that `m * 2 ^ e` is below `10 ^ (j + 1)`, and not far below. -/
def coarsest (m : Nat) (e : Int) : Int :=
  ((m.log2 + e) * 30103) / 100000 + 1

/-- The number of grids that are tried: seventeen digits tell any two floats apart, and the coarsest
grid may lie two digits above the leading one. -/
def grids : Nat := 20

/-- The shortest decimal of the positive float `x`, whose exact value is `m * 2 ^ e`. -/
def decimal (x : Float) (m : Nat) (e : Int) : Decimal :=
  ((List.range grids).findSome? fun i => onGrid? x m e (coarsest m e - (i : Nat))).getD (exact m e)

end Shortest

/-! ## Numbers and their text

`Number.text` writes a float the way every printed value and every error message shows it: the
shortest decimal, without an exponent and without a point after a whole number, with `-0`, `inf`,
`-inf` and `NaN` for the special values. `Number.ofText?` reads the wider notation that texts
handed to the language may use: a sign, a missing part on one side of the point, an exponent, and
the special values in any case of their letters.
-/

namespace Number

open Float.Model (UnpackedFloat)

/-- The float that stands for no number. -/
def nan : Float := Float.ofModel (.pack .notANumber)

/-! ### Writing -/

/-- The sign in front of a number. -/
def signChars : UnpackedFloat.Sign → List Char
  | .negative => ['-']
  | .positive => []

/-- The text of a float, as characters. -/
def chars (x : Float) : List Char :=
  match x.toModel.unpack with
  | .notANumber => ['N', 'a', 'N']
  | .infinity s => signChars s ++ ['i', 'n', 'f']
  | .zero s => signChars s ++ ['0']
  | .finite s m e _ => signChars s ++ (Shortest.decimal x.abs m e).chars

/-- The text of a float. -/
def text (x : Float) : String := String.ofList (chars x)

/-! ### Reading -/

/-- The power of ten that follows a numeral: nothing, or a letter `e` and a signed whole number. -/
def exponent? : List Char → Option Int
  | [] => some 0
  | c :: cs =>
    if c = 'e' ∨ c = 'E' then
      match cs with
      | '-' :: ds => (magnitude? ds).map fun n => -(n : Int)
      | '+' :: ds => (magnitude? ds).map fun n => (n : Int)
      | ds => (magnitude? ds).map fun n => (n : Int)
    else none
where
  /-- One or more digits and nothing else. -/
  magnitude? (ds : List Char) : Option Nat :=
    if ds ≠ [] ∧ ds.all Char.isDigit then some (Digits.value ds) else none

/-- A numeral in decimal notation: digits with at most one point among them, at least one digit in
all, and perhaps a power of ten. -/
def decimal? (cs : List Char) : Option Float :=
  let whole := cs.takeWhile Char.isDigit
  let rest := cs.dropWhile Char.isDigit
  let (fraction, rest) := match rest with
    | '.' :: ds => (ds.takeWhile Char.isDigit, ds.dropWhile Char.isDigit)
    | ds => ([], ds)
  if whole = [] ∧ fraction = [] then none
  else
    let d := Decimal.ofDigits whole fraction
    (exponent? rest).map fun e => nearest d.digits (e - d.places)

/-- A number without a sign: one of the special words, in any case of its letters, or a numeral. -/
def unsigned? (cs : List Char) : Option Float :=
  let word := cs.map Char.toLower
  if word = ['i', 'n', 'f'] ∨ word = ['i', 'n', 'f', 'i', 'n', 'i', 't', 'y'] then some infinity
  else if word = ['n', 'a', 'n'] then some nan
  else decimal? cs

/-- The float that a text denotes, if it is the text of a number. -/
def ofChars? : List Char → Option Float
  | '-' :: cs => (unsigned? cs).map fun x => -x
  | '+' :: cs => unsigned? cs
  | cs => unsigned? cs

@[inherit_doc ofChars?]
def ofText? (s : String) : Option Float := ofChars? s.toList

end Number

/-! ## Arithmetic beyond the four operations

Whole numbers, remainders and the small functions that the language offers on numbers. Whatever has
to be exact is computed on the exact value of a float, a whole number times a power of two, and not
with floats: `toInt?` tells which whole number a float is equal to, `ofInt` goes the other way, and
`remainder` subtracts a multiple of the divisor without rounding.
-/

namespace Number

open Float.Model (UnpackedFloat)

/-! ### Whole numbers -/

/-- The whole number that a float is equal to, if it is finite and has no fractional part. -/
def toInt? (x : Float) : Option Int :=
  match x.toModel.unpack with
  | .zero _ => some 0
  | .finite s m e _ =>
    if 0 ≤ e then some (s.apply (m * Nat.pow 2 e.toNat))
    else if m % Nat.pow 2 (-e).toNat = 0 then some (s.apply (m / Nat.pow 2 (-e).toNat))
    else none
  | .infinity _ => none
  | .notANumber => none

/-- Whether a float is finite and has no fractional part. -/
def isWhole (x : Float) : Bool := (toInt? x).isSome

/-- The float nearest to a whole number. -/
def ofInt (n : Int) : Float := Float.ofModel (.ofInt n)

/-- The largest whole number up to which floats tell all whole numbers apart. -/
def maxSafe : Nat := Nat.pow 2 53 - 1

/-- The whole number that a float is equal to, if floats tell it apart from its neighbours. -/
def toSafeInt? (x : Float) : Option Int :=
  (toInt? x).filter fun n => n.natAbs ≤ maxSafe

/-- The index that a float is equal to: a whole number from zero to the largest safe one. -/
def toIndex? (x : Float) : Option Nat :=
  match toSafeInt? x with
  | some (.ofNat n) => some n
  | _ => none

/-- The float that is equal to a whole number, if floats tell it apart from its neighbours. -/
def ofSafeInt? (n : Int) : Option Float :=
  if n.natAbs ≤ maxSafe then some (ofInt n) else none

/-! ### Remainder -/

/-- The float of sign `s` and magnitude `n * 2 ^ e`; a magnitude of zero keeps its sign. -/
def ofScaled (s : UnpackedFloat.Sign) (n : Nat) (e : Int) : Float :=
  Float.ofModel (.pack (if n = 0 then .zero s else .round .binary64 s n e))

/-- The remainder of a division whose quotient is cut towards zero. It has the sign of the dividend
and is computed on the exact values, so it is never rounded. -/
def remainder (x y : Float) : Float :=
  match x.toModel.unpack, y.toModel.unpack with
  | .finite s m e _, .finite _ m' e' _ =>
    let low := min e e'
    ofScaled s ((m * Nat.pow 2 (e - low).toNat) % (m' * Nat.pow 2 (e' - low).toNat)) low
  | .finite .., .infinity _ => x
  | .zero _, .finite .. => x
  | .zero _, .infinity _ => x
  | _, _ => nan

/-! ### Functions of one number -/

/-- Rounds towards zero. -/
def truncate (x : Float) : Float :=
  if x < 0 then x.ceil else x.floor

/-- `-1` or `1` for a number with a sign; zero and no number stay what they are. -/
def sign (x : Float) : Float :=
  if 0 < x then 1 else if x < 0 then -1 else x

/-- From degrees to radians. -/
def radians (x : Float) : Float :=
  x * (3.14159265358979323846264338327950288 / 180)

/-- From radians to degrees. -/
def degrees (x : Float) : Float :=
  x * 57.2957795130823208767981548141051703

/-! ### Choosing among numbers -/

/-- The smaller of two numbers; what is no number is passed over. -/
def least (x y : Float) : Float :=
  if x.isNaN then y else if y.isNaN then x else if y < x then y else x

/-- The larger of two numbers; what is no number is passed over. -/
def greatest (x y : Float) : Float :=
  if x.isNaN then y else if y.isNaN then x else if x < y then y else x

/-- Moves a number into the range from `low` to `high`. -/
def clamp (low high x : Float) : Float :=
  let raised := if x < low then low else x
  if high < raised then high else raised

/-- The sum of a list. The empty sum is the negative zero, the neutral element of float addition. -/
def sum (xs : List Float) : Float :=
  xs.foldl (· + ·) (-0.0)

end Number

end MapExpr
