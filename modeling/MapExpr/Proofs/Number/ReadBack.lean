import MapExpr.Proofs.Lexing.Pattern
import MapExpr.Proofs.Number.Value
import MapExpr.Text

/-!
# Written numbers are read back

The text of a float without a sign is digits, perhaps with a point and more digits, and it is a way
to write the token of that very float (`spells_chars`). The shortest decimal denotes the float
because the search keeps only decimals that do, and takes the exact one if it finds none; and the
digits of a decimal spell that decimal.

What a numeral denotes is never a NaN and never has a minus sign (`isNonnegative_toFloat`). It
may be infinite (`exists_digits_infinity`), so every other number is written in some way
(`exists_spells`).
-/

namespace MapExpr

section ReadBack

open Float.Model Float.Model.UnpackedFloat

/-! ## The digits of a decimal -/

/-- A whole number is written in digits. -/
theorem isDigits_toDigits (n : Nat) : IsDigits (Nat.toDigits 10 n) :=
  ⟨Nat.toDigits_ne_nil, fun _ h => Nat.isDigit_of_mem_toDigits (by decide) (by decide) h⟩

/-- Zeros may be written in front of digits. -/
theorem IsDigits.leftpad {cs : List Char} (h : IsDigits cs) (n : Nat) :
    IsDigits (cs.leftpad n '0') := by
  refine ⟨fun hnil => h.1 (List.append_eq_nil_iff.1 hnil).2, fun c hc => ?_⟩
  rcases List.mem_append.1 hc with hc | hc
  · rw [List.eq_of_mem_replicate hc]
    rfl
  · exact h.2 c hc

namespace Decimal

variable (d : Decimal)

/-- A decimal without places is read back from its digits. -/
theorem ofDigits_wholeChars (h : d.places = 0) : ofDigits d.wholeChars [] = d := by
  obtain ⟨digits, places⟩ := d
  obtain rfl : places = 0 := h
  have hdiv : digits / Nat.pow 10 0 = digits := Nat.div_one digits
  rw [ofDigits, wholeChars, hdiv, List.append_nil, Digits.value_eq_ofDigitChars,
    Nat.ofDigitChars_ten_toDigits]
  rfl

/-- The digits behind the point are as many as there are places. -/
theorem length_fractionChars : d.fractionChars.length = d.places := by
  rw [fractionChars]
  split
  · next h => rw [h]; rfl
  · next h =>
    have hpos : 0 < d.places := Nat.pos_of_ne_zero h
    have hmod : d.digits % Nat.pow 10 d.places < 10 ^ d.places :=
      Nat.mod_lt _ (Nat.pow_pos (by decide))
    have hlen := (Nat.length_toDigits_le_iff (b := 10) (by decide) hpos).2 hmod
    rw [List.length_leftpad]
    exact Nat.max_eq_left hlen

/-- The digits behind the point denote what the whole part leaves over. -/
theorem ofDigitChars_fractionChars (h : d.places ≠ 0) :
    Nat.ofDigitChars 10 d.fractionChars 0 = d.digits % Nat.pow 10 d.places := by
  rw [fractionChars, if_neg h, List.leftpad, Nat.ofDigitChars_append,
    Nat.ofDigitChars_replicate_zero, Nat.mul_zero, Nat.ofDigitChars_ten_toDigits]

/-- A decimal with places is read back from the digits on both sides of its point. -/
theorem ofDigits_chars (h : d.places ≠ 0) : ofDigits d.wholeChars d.fractionChars = d := by
  have hvalue : Digits.value (d.wholeChars ++ d.fractionChars) = d.digits := by
    rw [Digits.value_eq_ofDigitChars, Nat.ofDigitChars_append,
      Nat.ofDigitChars_eq_ofDigitChars_zero, d.ofDigitChars_fractionChars h,
      d.length_fractionChars, wholeChars, Nat.ofDigitChars_ten_toDigits]
    exact Nat.div_add_mod _ _
  rw [ofDigits, hvalue, d.length_fractionChars]

/-- A decimal is written as a numeral of the float that it denotes. -/
theorem spells_chars : Spells d.chars (.number d.toFloat) := by
  have hwhole : IsDigits d.wholeChars := isDigits_toDigits _
  rw [chars]
  split
  · next h =>
    have hs := Spells.whole hwhole
    rw [d.ofDigits_wholeChars h] at hs
    exact hs
  · next h =>
    have hfraction : IsDigits d.fractionChars := by
      rw [fractionChars, if_neg h]
      exact (isDigits_toDigits _).leftpad _
    have hs := Spells.fraction hwhole hfraction
    rw [d.ofDigits_chars h] at hs
    exact hs

end Decimal

/-! ## Decimals denote numbers without a sign -/

namespace Number

/-- Rounding a positive number does not give it a minus sign. -/
theorem isUnsigned_roundWithAccuracy (m : Nat) (e : Int) (a : Accuracy) :
    IsUnsigned (roundWithAccuracy .binary64 .positive m e a) := by
  rw [roundWithAccuracy]
  split
  dsimp only
  split
  · rfl
  · rfl

/-- A whole number times a power of ten has no minus sign. -/
theorem isUnsigned_ofScientific (m : Nat) (e : Int) :
    IsUnsigned (UnpackedFloat.ofScientific .binary64 m e) := by
  unfold UnpackedFloat.ofScientific
  split
  · rfl
  · split
    · rfl
    · split
      · rfl
      · split
        · exact isUnsigned_roundWithAccuracy _ _ _
        · rw [UnpackedFloat.div]
          exact isUnsigned_roundWithAccuracy _ _ _

/-- The float nearest to such a number has no minus sign. -/
theorem isUnsigned_nearest (m : Nat) (e : Int) : IsUnsigned (nearest m e).toModel.unpack := by
  rw [nearest]
  split
  · exact isUnsigned_unpack_pack (u := .infinity .positive) rfl
  · exact isUnsigned_unpack_pack (isUnsigned_ofScientific m e)


/-- Some digits denote infinity. -/
theorem exists_digits_infinity :
    ∃ ds, IsDigits ds ∧ (Decimal.ofDigits ds []).toFloat = infinity := by
  -- A digit takes more than three bits, so some hundred zeros exceed every finite float.
  obtain ⟨k, hk⟩ : ∃ k, 1034 ≤ 3 * k := ⟨400, by decide⟩
  have hbound : 2 ^ (3 * k) ≤ 10 ^ k := by
    rw [Nat.pow_mul]
    exact Nat.pow_le_pow_left (by decide) k
  have hlog : 3 * k ≤ (10 ^ k).log2 :=
    (Nat.le_log2 (Nat.ne_of_gt (Nat.pow_pos (by decide)))).2 hbound
  have hexceeds : exceedsFloats (10 ^ k) 0 = true := decide_eq_true (Nat.le_trans hk hlog)
  refine ⟨Nat.toDigits 10 (10 ^ k), isDigits_toDigits _, ?_⟩
  have hvalue : Digits.value (Nat.toDigits 10 (10 ^ k) ++ []) = 10 ^ k := by
    rw [List.append_nil, Digits.value_eq_ofDigitChars, Nat.ofDigitChars_ten_toDigits]
  rw [Decimal.toFloat, Decimal.ofDigits, hvalue]
  exact if_pos hexceeds

end Number

/-! ## The shortest decimal -/

namespace Shortest

variable {x : Float} {m : Nat} {e j : Int}

/-- What is found on a grid denotes the float. -/
theorem toFloat_of_onGrid? {d : Decimal} (h : onGrid? x m e j = some d) : d.toFloat = x := by
  unfold onGrid? at h
  dsimp only at h
  split at h
  · next hb ha =>
    split at h
    · exact Option.some.inj h ▸ of_decide_eq_true hb
    · exact Option.some.inj h ▸ of_decide_eq_true ha
  · next hb ha => exact Option.some.inj h ▸ of_decide_eq_true hb
  · next hb ha => exact Option.some.inj h ▸ of_decide_eq_true ha
  · cases h

/-- The shortest decimal denotes the float. -/
theorem toFloat_decimal (h : Number.Canonical m e) (hm : 0 < m) :
    (decimal (Number.ofParts m e hm) m e).toFloat = Number.ofParts m e hm := by
  rw [decimal]
  cases hd : (List.range grids).findSome? fun i =>
      onGrid? (Number.ofParts m e hm) m e (coarsest m e - (i : Nat)) with
  | none => exact Number.toFloat_exact h hm
  | some d =>
    obtain ⟨i, -, hi⟩ := List.exists_of_findSome?_eq_some hd
    exact toFloat_of_onGrid? hi

end Shortest

/-! ## The text of a float -/

namespace Number

/-- A float that is no NaN and has no minus sign. The zero with a minus sign is displayed with that
sign and is not among them. -/
def IsNonnegative (x : Float) : Prop := IsUnsigned x.toModel.unpack

/-- The parts are those of a number that is not infinite. -/
def IsBounded : UnpackedFloat → Prop
  | .zero _ | .finite _ _ _ _ => True
  | .infinity _ | .notANumber => False

/-- A float that is neither infinite nor a NaN. -/
def IsFinite (x : Float) : Prop := IsBounded x.toModel.unpack

/-- A decimal denotes a float without a minus sign. -/
theorem isNonnegative_toFloat (d : Decimal) : IsNonnegative d.toFloat :=
  isUnsigned_nearest _ _

/-- The digit zero spells the zero without a sign. -/
theorem spells_zero : Spells ['0'] (.number (.ofModel (.pack (.zero .positive)))) := by
  have h : IsDigits ['0'] := ⟨List.cons_ne_nil _ _, List.forall_mem_singleton.2 rfl⟩
  exact .whole h

/-- The digits of a finite float are a way to write it without its sign. -/
theorem spells_decimal {x : Float} {s : Sign} {m : Nat} {e : Int} {hm : 0 < m}
    (hu : x.toModel.unpack = .finite s m e hm) :
    Spells (Shortest.decimal x.abs m e).chars (.number (ofParts m e hm)) := by
  have habs : x.abs = ofParts m e hm := by
    show Float.ofModel (.pack x.toModel.unpack.abs) = _
    rw [hu]
    rfl
  have hs := (Shortest.decimal x.abs m e).spells_chars
  rw [habs, Shortest.toFloat_decimal (canonical_of_unpack hu) hm] at hs
  rw [habs]
  exact hs

/-- The text of a finite float without a sign is a way to write it. -/
theorem spells_chars {x : Float} (h : IsNonnegative x) (hfinite : IsFinite x) :
    Spells (chars x) (.number x) := by
  have hx := ofModel_pack_unpack x
  unfold IsNonnegative at h
  unfold IsFinite at hfinite
  cases hu : x.toModel.unpack with
  | infinity | notANumber =>
    rw [hu] at hfinite
    exact absurd hfinite id
  | zero s =>
    rw [hu] at h hx
    obtain rfl : s = .positive := h
    rw [chars, hu, ← hx]
    exact spells_zero
  | finite s m e hm =>
    rw [hu] at h hx
    obtain rfl : s = .positive := h
    -- The sign is positive already, so the digits are those of `x` itself.
    have hs := spells_decimal hu
    rw [show ofParts m e hm = x from hx] at hs
    rw [chars, hu]
    exact hs

/-- Every number without a sign is written in some way, the infinite one with very many digits. -/
theorem exists_spells {x : Float} (h : IsNonnegative x) : ∃ w, Spells w (.number x) := by
  by_cases hfinite : IsFinite x
  · exact ⟨_, spells_chars h hfinite⟩
  · have hx := ofModel_pack_unpack x
    unfold IsNonnegative at h
    unfold IsFinite at hfinite
    cases hu : x.toModel.unpack with
    | notANumber =>
      rw [hu] at h
      exact absurd h id
    | zero | finite =>
      rw [hu] at hfinite
      exact absurd trivial hfinite
    | infinity s =>
      rw [hu] at h hx
      obtain rfl : s = .positive := h
      obtain ⟨ds, hds, hinf⟩ := exists_digits_infinity
      have hs := Spells.whole hds
      rw [hinf, show infinity = x from hx] at hs
      exact ⟨ds, hs⟩

end Number

end ReadBack

/-! ## Displayed numbers are read back

A float is displayed as `NaN`, as `inf`, as the numeral of its shortest decimal, or as one of the
last two behind a minus sign (`Written`). Each of these is read as the float that it displays, the
sign of a zero included (`ofChars?_chars`). Since there is only one NaN, it is no exception.

No displayed float is empty or holds a blank, so that nothing is lost where blanks separate floats
or are taken off (`isPiece_chars`).
-/

namespace Number

open Float.Model Float.Model.UnpackedFloat

/-- The texts of floats without a sign. -/
inductive Unsigned : List Char → Float → Prop
  | infinity : Unsigned ['i', 'n', 'f'] infinity
  | numeral {w : List Char} {x : Float} (h : Spells w (.number x)) : Unsigned w x

/-- The texts of floats. -/
inductive Written : List Char → Float → Prop
  | nan : Written ['N', 'a', 'N'] nan
  | positive {w : List Char} {x : Float} (h : Unsigned w x) : Written w x
  | negative {w : List Char} {x : Float} (h : Unsigned w x) : Written ('-' :: w) (-x)

variable {w : List Char} {x : Float} {m : Nat} {e : Int}

/-! ### What is displayed -/

/-- The opposite of a float differs from it in the sign only. -/
theorem neg_ofParts (h : Canonical m e) (hm : 0 < m) :
    -ofParts m e hm = .ofModel (.pack (.finite .negative m e hm)) := by
  show Float.ofModel (.pack (Float.Model.pack (.finite .positive m e hm)).unpack.neg) = _
  rw [unpack_pack h hm]
  rfl

/-- What is displayed is one of these texts. -/
theorem written_chars (x : Float) : Written (chars x) x := by
  have hx := ofModel_pack_unpack x
  cases hu : x.toModel.unpack with
  | notANumber =>
    rw [hu] at hx
    rw [chars, hu, ← hx]
    exact .nan
  | infinity s =>
    rw [hu] at hx
    rw [chars, hu, ← hx]
    cases s with
    | positive => exact .positive .infinity
    | negative => exact .negative .infinity
  | zero s =>
    rw [hu] at hx
    rw [chars, hu, ← hx]
    cases s with
    | positive => exact .positive (.numeral spells_zero)
    | negative => exact .negative (.numeral spells_zero)
  | finite s m e hm =>
    have hs := spells_decimal hu
    rw [hu] at hx
    rw [chars, hu]
    cases s with
    | positive =>
      rw [show ofParts m e hm = x from hx] at hs
      exact .positive (.numeral hs)
    | negative =>
      have hw := Written.negative (.numeral hs)
      rw [neg_ofParts (canonical_of_unpack hu) hm, hx] at hw
      exact hw

/-! ### What is read -/

/-- What spells a number in a source is read as this number. -/
theorem decimal?_of_spells (h : Spells w (.number x)) : decimal? w = some x := by
  cases h with
  | whole h =>
    have htake : w.takeWhile Char.isDigit = w := List.takeWhile_eq_self_iff.2 h.2
    have hdrop : w.dropWhile Char.isDigit = [] := List.dropWhile_eq_nil_iff.2 h.2
    have hexponent : exponent? [] = some 0 := rfl
    simp only [decimal?, htake, hdrop]
    rw [if_neg fun hnil => h.1 hnil.1, hexponent, Option.map_some, Int.zero_sub]
    rfl
  | @fraction ds fs h hf =>
    have hexponent : exponent? [] = some 0 := rfl
    have htake : (ds ++ '.' :: fs).takeWhile Char.isDigit = ds := by
      rw [List.takeWhile_append_of_pos h.2]
      exact List.append_nil ds
    have hdrop : (ds ++ '.' :: fs).dropWhile Char.isDigit = '.' :: fs :=
      List.dropWhile_append_of_pos h.2
    have htake' : fs.takeWhile Char.isDigit = fs := List.takeWhile_eq_self_iff.2 hf.2
    have hdrop' : fs.dropWhile Char.isDigit = [] := List.dropWhile_eq_nil_iff.2 hf.2
    simp only [decimal?, htake, hdrop, htake', hdrop']
    rw [if_neg fun hnil => h.1 hnil.1, hexponent, Option.map_some, Int.zero_sub]
    rfl

/-- A numeral begins with a digit. -/
theorem exists_cons_of_numeral (h : Spells w (.number x)) :
    ∃ c cs, w = c :: cs ∧ c.isDigit = true := by
  cases h with
  | whole h =>
    obtain ⟨c, cs, rfl⟩ := List.exists_cons_of_ne_nil h.1
    exact ⟨c, cs, rfl, h.2 c List.mem_cons_self⟩
  | @fraction ds fs h hf =>
    obtain ⟨c, cs, rfl⟩ := List.exists_cons_of_ne_nil h.1
    exact ⟨c, _, rfl, h.2 c List.mem_cons_self⟩

/-- A digit has no small letter. -/
theorem toLower_of_isDigit {c : Char} (h : c.isDigit = true) : c.toLower = c := by
  refine Char.toLower_eq_of_not_isUpper fun hu => not_letter_of_isDigit h (.inl ?_)
  rw [Char.isAlpha, hu, Bool.true_or]

/-- The text of a float without a sign is read as this float. -/
theorem unsigned?_of_unsigned (h : Unsigned w x) : unsigned? w = some x := by
  cases h with
  | infinity => rfl
  | numeral h =>
    obtain ⟨c, cs, rfl, hc⟩ := exists_cons_of_numeral h
    have hword (d : Char) (ds : List Char) (hd : d.isDigit = false) :
        (c :: cs).map Char.toLower ≠ d :: ds := by
      intro hds
      rw [List.map_cons, toLower_of_isDigit hc] at hds
      obtain rfl := (List.cons.inj hds).1
      rw [hd] at hc
      cases hc
    rw [unsigned?, if_neg (not_or.2 ⟨hword _ _ rfl, hword _ _ rfl⟩), if_neg (hword _ _ rfl),
      decimal?_of_spells h]

/-- The text of a float is read as this float. -/
theorem ofChars?_of_written (h : Written w x) : ofChars? w = some x := by
  cases h with
  | nan => rfl
  | negative h => rw [ofChars?, unsigned?_of_unsigned h, Option.map_some]
  | positive h =>
    have hread := unsigned?_of_unsigned h
    cases h with
    | infinity => exact hread
    | numeral h =>
      obtain ⟨c, cs, rfl, hc⟩ := exists_cons_of_numeral h
      unfold ofChars?
      split
      · next heq =>
        cases heq
        cases hc
      · next heq =>
        cases heq
        cases hc
      · exact hread

/-- What is displayed is read as the float that it displays. -/
theorem ofChars?_chars (x : Float) : ofChars? (chars x) = some x :=
  ofChars?_of_written (written_chars x)

/-! ### Blanks -/

/-- A digit is no blank. -/
theorem isSpace_of_isDigit {c : Char} (h : c.isDigit = true) : Text.isSpace c = false := by
  have hzero : '0'.toNat = 48 := rfl
  have hnine : '9'.toNat = 57 := rfl
  rw [Char.isDigit_iff_toNat, hzero, hnine] at h
  simp only [Text.isSpace, Bool.or_eq_false_iff, Bool.and_eq_false_iff, decide_eq_false_iff_not,
    beq_eq_false_iff_ne]
  omega

/-- The text of a float without a sign is not empty and holds no blank. -/
theorem Unsigned.isPiece (h : Unsigned w x) : Text.IsPiece w := by
  cases h with
  | infinity => exact ⟨List.cons_ne_nil _ _, by simp [Text.isSpace]⟩
  | numeral h =>
    obtain ⟨c, cs, rfl, -⟩ := exists_cons_of_numeral h
    refine ⟨List.cons_ne_nil _ _, ?_⟩
    generalize c :: cs = w at h
    cases h with
    | whole h => exact fun c hc => isSpace_of_isDigit (h.2 c hc)
    | @fraction ds fs h hf =>
      intro c hc
      rcases List.mem_append.1 hc with hc | hc
      · exact isSpace_of_isDigit (h.2 c hc)
      · rcases List.mem_cons.1 hc with rfl | hc
        · rfl
        · exact isSpace_of_isDigit (hf.2 c hc)

/-- The text of a float is not empty and holds no blank. -/
theorem Written.isPiece (h : Written w x) : Text.IsPiece w := by
  cases h with
  | nan => exact ⟨List.cons_ne_nil _ _, by simp [Text.isSpace]⟩
  | positive h => exact h.isPiece
  | negative h => exact ⟨List.cons_ne_nil _ _, List.forall_mem_cons.2 ⟨rfl, h.isPiece.2⟩⟩

/-- What is displayed is not empty and holds no blank. -/
theorem isPiece_chars (x : Float) : Text.IsPiece (chars x) :=
  (written_chars x).isPiece

end Number

end MapExpr
