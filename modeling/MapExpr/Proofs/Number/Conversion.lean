import MapExpr.Proofs.Number.Order
import MapExpr.Value.Read

/-!
# Reading and writing whole numbers

A float is read as an index or as a whole number if it is equal to a safe one, and a whole number is
written as a float if it is safe. Neither rounds, and each undoes the other up to the sign of a zero
(`ExactConversion`).

What is refused is told by comparisons of floats (`toIndex?_eq_none_iff`, `toSafeInt?_eq_none_iff`),
and can be told by the value: a NaN or an infinity, a fraction, or a number out of range
(`isNoIndex_iff`, `isNoSafeInt_iff`).
-/

namespace MapExpr

namespace Number

variable {x y : Float} {n : Int} {k : Nat} {p : Position} {f : Located EvalFault}

/-! ## What is read -/

/-- A safe whole number is a whole number whose magnitude is not above the greatest safe one. -/
theorem toSafeInt?_eq_some_iff :
    toSafeInt? x = some n ↔ toInt? x = some n ∧ n.natAbs ≤ maxSafe := by
  rw [toSafeInt?, Option.filter_eq_some_iff, decide_eq_true_eq]

/-- An index is a whole number from zero to the greatest safe one. -/
theorem toIndex?_eq_some_iff : toIndex? x = some k ↔ toInt? x = some (k : Int) ∧ k ≤ maxSafe := by
  have hsafe := toSafeInt?_eq_some_iff (x := x) (n := k)
  rw [Int.natAbs_natCast] at hsafe
  rw [← hsafe, toIndex?]
  split
  · next m hm => rw [hm, Option.some_inj, Option.some_inj, Int.ofNat_eq_natCast, Int.natCast_inj]
  · next hnone => exact iff_of_false nofun fun h => hnone k h

/-! ## What is refused -/

/-- A float is no safe number if it is no whole one, or if its magnitude is too large. -/
theorem toSafeInt?_eq_none_iff :
    toSafeInt? x = none ↔ (!isWhole x || ofInt maxSafe < x.abs) = true := by
  rw [Option.eq_none_iff_forall_ne_some, isWhole]
  simp only [ne_eq, toSafeInt?_eq_some_iff]
  cases h : toInt? x with
  | none => exact iff_of_true nofun rfl
  | some n =>
    have hmax := maxSafe_lt_iff (toInt?_abs h)
    simp only [Option.some_inj, Option.isSome_some, Bool.not_true, Bool.false_or,
      decide_eq_true_eq, hmax]
    exact ⟨fun hall => by have := hall n; omega, by omega⟩

/-- What is read as a whole number passes the tests on fractions and on magnitudes. -/
theorem not_refused_of_toSafeInt? (h : toSafeInt? x = some n) :
    ¬ (!isWhole x || ofInt maxSafe < x.abs) = true := fun hrefused =>
  Option.some_ne_none n (h.symm.trans (toSafeInt?_eq_none_iff.2 hrefused))

/-- A float is no index if it is no whole number, or if it is negative or too large. -/
theorem toIndex?_eq_none_iff :
    toIndex? x = none ↔ (!isWhole x || x < 0 || ofInt maxSafe < x) = true := by
  rw [Option.eq_none_iff_forall_ne_some, isWhole]
  simp only [ne_eq, toIndex?_eq_some_iff]
  cases h : toInt? x with
  | none => exact iff_of_true nofun rfl
  | some n =>
    simp only [Option.some_inj, Option.isSome_some, Bool.not_true, Bool.false_or, Bool.or_eq_true,
      decide_eq_true_eq, lt_zero_iff h, maxSafe_lt_iff h]
    exact ⟨fun hall => by have := hall n.toNat; omega, by omega⟩

/-- What is read as an index passes the tests on fractions, signs and magnitudes. -/
theorem not_refused_of_toIndex? (h : toIndex? x = some k) :
    ¬ (!isWhole x || x < 0 || ofInt maxSafe < x) = true := fun hrefused =>
  Option.some_ne_none k (h.symm.trans (toIndex?_eq_none_iff.2 hrefused))

/-- A float is equal to no number of a kind if it is a NaN, an infinity or a number of another
kind. -/
theorem refused_iff (P : ℚ → Prop) :
    (x.isNaN ∨ x.isInf ∨ ∃ q, value? x = some q ∧ P q) ↔ ∀ q, value? x = some q → P q := by
  rw [← or_assoc, ← value?_eq_none_iff]
  cases value? x with
  | none => exact iff_of_true (.inl rfl) nofun
  | some q => simp

/-- A NaN, an infinity, a fraction, a negative number or one above the greatest safe one. -/
def IsNoIndex (x : Float) : Prop :=
  x.isNaN ∨ x.isInf ∨ ∃ q, value? x = some q ∧ (q.den ≠ 1 ∨ q < 0 ∨ maxSafe < q)

/-- A NaN, an infinity, a fraction or a number of a magnitude above the greatest safe one. -/
def IsNoSafeInt (x : Float) : Prop :=
  x.isNaN ∨ x.isInf ∨ ∃ q, value? x = some q ∧ (q.den ≠ 1 ∨ maxSafe < |q|)

/-- The numbers of these kinds are those that are not read as whole numbers. -/
theorem isNoSafeInt_iff : IsNoSafeInt x ↔ toSafeInt? x = none := by
  rw [IsNoSafeInt, refused_iff, Option.eq_none_iff_forall_ne_some]
  simp only [ne_eq, toSafeInt?_eq_some_iff, toInt?_eq_some_iff]
  constructor
  · intro h n hn
    have habs : |(n : ℚ)| = n.natAbs := by rw [Nat.cast_natAbs, Int.cast_abs]
    rcases h n hn.1 with hden | hlt
    · exact hden (Rat.den_intCast n)
    · rw [habs, Nat.cast_lt] at hlt
      exact Nat.not_lt.2 hn.2 hlt
  · intro h q hq
    by_contra! hcon
    obtain ⟨n, rfl⟩ : ∃ n : Int, q = n := ⟨q.num, (Rat.coe_int_num_of_den_eq_one hcon.1).symm⟩
    refine h n ⟨hq, ?_⟩
    rw [← Nat.cast_le (α := ℚ), Nat.cast_natAbs, Int.cast_abs]
    exact hcon.2

/-- The numbers of these kinds are those that are not read as indices. -/
theorem isNoIndex_iff : IsNoIndex x ↔ toIndex? x = none := by
  rw [IsNoIndex, refused_iff, Option.eq_none_iff_forall_ne_some]
  simp only [ne_eq, toIndex?_eq_some_iff, toInt?_eq_some_iff, Int.cast_natCast]
  constructor
  · intro h k hk
    rcases h k hk.1 with hden | hneg | hlt
    · exact hden (Rat.den_natCast k)
    · exact not_lt.2 (Nat.cast_nonneg k) hneg
    · exact Nat.not_lt.2 hk.2 (Nat.cast_lt.1 hlt)
  · intro h q hq
    by_contra! hcon
    obtain ⟨n, rfl⟩ : ∃ n : Int, q = n := ⟨q.num, (Rat.coe_int_num_of_den_eq_one hcon.1).symm⟩
    have hn : 0 ≤ n := by exact_mod_cast hcon.2.1
    obtain ⟨k, rfl⟩ := Int.eq_ofNat_of_zero_le hn
    exact h k ⟨hq, by exact_mod_cast hcon.2.2⟩

/-! ## Outcomes -/

/-- A whole number is read if the value of the float is a safe one. -/
theorem asInt_eq_ok_iff : asInt x p = .ok n ↔ value? x = some (n : ℚ) ∧ n.natAbs ≤ maxSafe := by
  rw [← toInt?_eq_some_iff, ← toSafeInt?_eq_some_iff, asInt]
  cases toSafeInt? x <;> simp

/-- The fault shows the float, and it is met for the numbers of these kinds only. -/
theorem asInt_eq_error_iff : asInt x p = .error f ↔ IsNoSafeInt x ∧ f = ⟨.notWhole x, p⟩ := by
  rw [isNoSafeInt_iff, asInt]
  cases toSafeInt? x <;> simp [eq_comm]

/-- An index is read if the value of the float is a safe one, and not negative. -/
theorem asIndex_eq_ok_iff : asIndex x p = .ok k ↔ value? x = some (k : ℚ) ∧ k ≤ maxSafe := by
  have hval := toInt?_eq_some_iff (x := x) (n := k)
  rw [Int.cast_natCast] at hval
  rw [← hval, ← toIndex?_eq_some_iff, asIndex]
  cases toIndex? x <;> simp

/-- The fault shows the float, and it is met for the numbers of these kinds only. -/
theorem asIndex_eq_error_iff : asIndex x p = .error f ↔ IsNoIndex x ∧ f = ⟨.invalidIndex x, p⟩ := by
  rw [isNoIndex_iff, asIndex]
  cases toIndex? x <;> simp [eq_comm]

/-- A whole number is written if it is safe, as the float nearest to it. -/
theorem exactly_eq_ok_iff : exactly n p = .ok y ↔ n.natAbs ≤ maxSafe ∧ y = ofInt n := by
  rw [exactly, ofSafeInt?]
  by_cases hn : n.natAbs ≤ maxSafe
  · rw [if_pos hn]
    simp [hn, eq_comm]
  · rw [if_neg hn]
    exact iff_of_false nofun fun h => hn h.1

/-- The fault shows the whole number, and it is met above the greatest safe one only. -/
theorem exactly_eq_error_iff :
    exactly n p = .error f ↔ maxSafe < n.natAbs ∧ f = ⟨.tooLarge n, p⟩ := by
  rw [exactly, ofSafeInt?]
  by_cases hn : n.natAbs ≤ maxSafe
  · rw [if_pos hn]
    exact iff_of_false nofun fun h => Nat.not_lt.2 hn h.1
  · rw [if_neg hn]
    simp [Nat.lt_of_not_le hn, eq_comm]

/-- A safe whole number is written. -/
theorem exactly_of_le (p : Position) (h : n.natAbs ≤ maxSafe) : exactly n p = .ok (ofInt n) :=
  exactly_eq_ok_iff.2 ⟨h, rfl⟩

/-- A whole number is written after any comparison that tells the safe ones apart. -/
theorem ite_eq_exactly {P : Prop} [Decidable P] (h : P ↔ maxSafe < n.natAbs) (p : Position) :
    (if P then .error ⟨.tooLarge n, p⟩ else .ok (ofInt n)) = exactly n p := by
  by_cases hn : n.natAbs ≤ maxSafe
  · rw [if_neg fun hP => Nat.not_lt.2 hn (h.1 hP), exactly_of_le p hn]
  · have hlt := Nat.lt_of_not_le hn
    rw [if_pos (h.2 hlt), exactly_eq_error_iff.2 ⟨hlt, rfl⟩]

/-! ## There and back -/

/-- Numbers of a type are read from floats and written as floats. Neither rounds, up to the greatest
safe number, and beyond it both refuse. -/
structure ExactConversion {α : Type} (number : α → Int) (read : Float → Evaluated α)
    (write : α → Evaluated Float) (Refused : Float → Prop) (cause : Float → EvalFault)
    (p : Position) : Prop where
  read_ok : ∀ x a, read x = .ok a ↔ value? x = some (number a : ℚ) ∧ (number a).natAbs ≤ maxSafe
  read_error : ∀ x f, read x = .error f ↔ Refused x ∧ f = ⟨cause x, p⟩
  write_error : ∀ a f,
    write a = .error f ↔ maxSafe < (number a).natAbs ∧ f = ⟨.tooLarge (number a), p⟩
  /-- What is written has the value of the number and is read as the number again. -/
  read_write : ∀ a, (number a).natAbs ≤ maxSafe →
    ∃ y, write a = .ok y ∧ value? y = some (number a : ℚ) ∧ read y = .ok a
  /-- What is read is written as a float that is equal to the one it is read from. -/
  write_read : ∀ x a, read x = .ok a → ∃ y, write a = .ok y ∧ y == x

/-- A conversion is exact if what it reads has the value of the float, and if it writes like the
conversion of whole numbers. -/
theorem exactConversion_of {α : Type} {number : α → Int} {read : Float → Evaluated α}
    {write : α → Evaluated Float} {Refused : Float → Prop} {cause : Float → EvalFault}
    (hok : ∀ x a, read x = .ok a ↔ value? x = some (number a : ℚ) ∧ (number a).natAbs ≤ maxSafe)
    (herror : ∀ x f, read x = .error f ↔ Refused x ∧ f = ⟨cause x, p⟩)
    (hwrite : ∀ a, write a = exactly (number a) p) :
    ExactConversion number read write Refused cause p where
  read_ok := hok
  read_error := herror
  write_error a f := by rw [hwrite, exactly_eq_error_iff]
  read_write a ha := by
    have hval := value?_ofInt ha
    exact ⟨ofInt (number a), by rw [hwrite, exactly_of_le p ha], hval, (hok _ _).2 ⟨hval, ha⟩⟩
  write_read x a hx := by
    obtain ⟨hval, ha⟩ := (hok x a).1 hx
    exact ⟨ofInt (number a), by rw [hwrite, exactly_of_le p ha],
      beq_of_value? (value?_ofInt ha) hval⟩

/-- Whole numbers are converted exactly. -/
theorem exactConversion_int (p : Position) :
    ExactConversion id (asInt · p) (exactly · p) IsNoSafeInt .notWhole p :=
  exactConversion_of (fun _ _ => asInt_eq_ok_iff) (fun _ _ => asInt_eq_error_iff) fun _ => rfl

/-- Indices are converted exactly. -/
theorem exactConversion_index (p : Position) :
    ExactConversion Nat.cast (asIndex · p) (fun k => exactly k p) IsNoIndex .invalidIndex p :=
  exactConversion_of (fun _ _ => asIndex_eq_ok_iff) (fun _ _ => asIndex_eq_error_iff) fun _ => rfl

end Number

/-! ## Whole numbers in words of 64 bits

A machine does not hold whole numbers but words. It cuts a float at the point to make a word of it,
and a word that has no room for the number is filled up to the greatest or least one. The functions
here read and write whole numbers by such casts, behind the comparisons that keep the casts exact,
and they agree with those that compute with whole numbers (`map_toWord`, `ofWord_eq`,
`map_toIndexWord`, `ofIndexWord_eq`).

The complement of a word turns all bits round. It has no overflow, and neither has the magnitude,
not even that of the least word, since it is held without a sign (`toInt_not`, `toNat_abs`).
-/

namespace Number

open Float.Model Float.Model.UnpackedFloat

/-! ### Casts -/

section Casts

variable {x : Float} {n : Int} {k : Nat}

/-- Cutting a whole float at the point leaves the number that it is equal to. -/
theorem toInt_unpack (h : toInt? x = some n) (low high : Int) :
    x.toModel.unpack.toInt low high = n := by
  unfold toInt? at h
  cases hu : x.toModel.unpack with
  | infinity | notANumber =>
    rw [hu] at h
    cases h
  | zero s =>
    rw [hu] at h
    cases h
    rfl
  | finite s m e hm =>
    have hcut : UnpackedFloat.toInt low high (.finite s m e hm) = s.apply
        (ExtendedMantissa.ofMantissaAndAccuracy (m <<< (e - 0).toNat) .exact
          >>> (0 - (e - (e - 0).toNat)).toNat).mantissa := rfl
    rw [hu] at h
    rw [hcut]
    dsimp only at h
    split at h
    · next he =>
      cases h
      have h0 : (0 - (e - (e - 0).toNat)).toNat = 0 := by omega
      have hs := shiftRight_exact (m <<< (e - 0).toNat) 0
      rw [Nat.pow_zero, Nat.mul_one] at hs
      rw [h0, hs, Int.sub_zero, Nat.shiftLeft_eq]
      rfl
    · next he =>
      split at h
      · next hdiv =>
        cases h
        have h0 : (e - 0).toNat = 0 := by omega
        have h1 : (0 - (e - (0 : Nat))).toNat = (-e).toNat := by omega
        have hm' : m / 2 ^ (-e).toNat * 2 ^ (-e).toNat = m :=
          Nat.div_mul_cancel (Nat.dvd_of_mod_eq_zero hdiv)
        have hs := shiftRight_exact (m / 2 ^ (-e).toNat) (-e).toNat
        rw [hm'] at hs
        rw [h0, h1, Nat.shiftLeft_zero, hs]
        rfl
      · cases h

/-- A safe whole number has room in a word with a sign. -/
theorem toInt_toInt64 (h : toInt? x = some n) (hn : n.natAbs ≤ maxSafe) :
    x.toModel.toInt64.toInt = n := by
  have hmax : maxSafe = 9007199254740991 := rfl
  have hlow : Int64.minValue.toInt = -9223372036854775808 := rfl
  have hhigh : Int64.maxValue.toInt = 9223372036854775807 := rfl
  show (Int64.ofIntClamp (x.toModel.unpack.toInt _ _)).toInt = n
  rw [toInt_unpack h, Int64.toInt_ofIntClamp (by omega) (by omega)]

/-- A safe index has room in a word. -/
theorem toNat_toUInt64 (h : toInt? x = some (k : Int)) (hk : k ≤ maxSafe) :
    x.toUInt64.toNat = k := by
  have hmax : maxSafe = 9007199254740991 := rfl
  have hsize : UInt64.size = 18446744073709551616 := rfl
  show (UInt64.ofNatClamp (x.toModel.unpack.toInt _ _).toNat).toNat = k
  rw [toInt_unpack h, Int.toNat_natCast, UInt64.toNat_ofNatClamp_of_lt (by omega)]

end Casts

/-! ### Words -/

/-- The complement of a word is the number that is left when one is added and the sign changed. -/
theorem toInt_not (w : Int64) : (~~~w).toInt = -w.toInt - 1 := by
  have hlow := w.le_toInt
  have hhigh := w.toInt_lt
  rw [Int64.toInt_not, Int.bmod_eq_of_le] <;> omega

/-- The magnitude of a word with a sign is held by a word without one. -/
theorem toNat_abs (w : Int64) : w.abs.toUInt64.toNat = w.toInt.natAbs := by
  have hlt := w.toBitVec.isLt
  show w.toBitVec.abs.toNat = w.toBitVec.toInt.natAbs
  rw [BitVec.toNat_abs, BitVec.toInt_eq_msb_cond]
  split <;> omega

/-! ### Reading and writing words -/

/-- A float read as a word with a sign. -/
def toWord (x : Float) (p : Position) : Evaluated Int64 :=
  if !isWhole x || ofInt maxSafe < x.abs then .error ⟨.notWhole x, p⟩
  else .ok x.toModel.toInt64

/-- A word with a sign as a float. -/
def ofWord (w : Int64) (p : Position) : Evaluated Float :=
  if UInt64.ofNat maxSafe < w.abs.toUInt64 then .error ⟨.tooLarge w.toInt, p⟩
  else .ok (.ofModel (.ofInt64 w))

/-- A float read as an index that is held by a word. -/
def toIndexWord (x : Float) (p : Position) : Evaluated UInt64 :=
  if !isWhole x || x < 0 || ofInt maxSafe < x then .error ⟨.invalidIndex x, p⟩
  else .ok x.toUInt64

/-- A length that is held by a word as a float. -/
def ofIndexWord (w : UInt64) (p : Position) : Evaluated Float :=
  if UInt64.ofNat maxSafe < w then .error ⟨.tooLarge w.toNat, p⟩
  else .ok w.toFloat

/-- Words with a sign are read like whole numbers. -/
theorem map_toWord (x : Float) (p : Position) : (toWord x p).map Int64.toInt = asInt x p := by
  rw [toWord, asInt]
  cases h : toSafeInt? x with
  | none =>
    rw [if_pos (toSafeInt?_eq_none_iff.1 h)]
    rfl
  | some n =>
    obtain ⟨hn, hle⟩ := toSafeInt?_eq_some_iff.1 h
    rw [if_neg (not_refused_of_toSafeInt? h)]
    exact congrArg Except.ok (toInt_toInt64 hn hle)

/-- Words without a sign are read like indices. -/
theorem map_toIndexWord (x : Float) (p : Position) :
    (toIndexWord x p).map UInt64.toNat = asIndex x p := by
  rw [toIndexWord, asIndex]
  cases h : toIndex? x with
  | none =>
    rw [if_pos (toIndex?_eq_none_iff.1 h)]
    rfl
  | some k =>
    obtain ⟨hk, hle⟩ := toIndex?_eq_some_iff.1 h
    rw [if_neg (not_refused_of_toIndex? h)]
    exact congrArg Except.ok (toNat_toUInt64 hk hle)

/-- The greatest safe number has room in a word. -/
theorem toNat_maxSafe : (UInt64.ofNat maxSafe).toNat = maxSafe := rfl

/-- Words with a sign are written like whole numbers, and the least of them is refused. -/
theorem ofWord_eq (w : Int64) (p : Position) : ofWord w p = exactly w.toInt p := by
  refine ite_eq_exactly ?_ p
  rw [UInt64.lt_iff_toNat_lt, toNat_maxSafe, toNat_abs]

/-- Words without a sign are written like whole numbers. -/
theorem ofIndexWord_eq (w : UInt64) (p : Position) : ofIndexWord w p = exactly w.toNat p := by
  refine ite_eq_exactly ?_ p
  rw [UInt64.lt_iff_toNat_lt, toNat_maxSafe, Int.natAbs_natCast]

/-! ### Exactness -/

/-- Words with a sign are converted exactly. -/
theorem exactConversion_word (p : Position) :
    ExactConversion Int64.toInt (toWord · p) (ofWord · p) IsNoSafeInt .notWhole p := by
  refine exactConversion_of (fun x w => ?_) (fun x f => ?_) fun w => ofWord_eq w p
  · rw [← asInt_eq_ok_iff (p := p), ← map_toWord]
    cases toWord x p <;> simp [Except.map, Int64.toInt_inj]
  · rw [← asInt_eq_error_iff, ← map_toWord]
    cases toWord x p <;> simp [Except.map]

/-- Words that hold indices are converted exactly. -/
theorem exactConversion_indexWord (p : Position) :
    ExactConversion (fun w : UInt64 => (w.toNat : Int)) (toIndexWord · p) (ofIndexWord · p)
      IsNoIndex .invalidIndex p := by
  refine exactConversion_of (fun x w => ?_) (fun x f => ?_) fun w => ofIndexWord_eq w p
  · rw [Int.cast_natCast, Int.natAbs_natCast, ← asIndex_eq_ok_iff (p := p), ← map_toIndexWord]
    cases toIndexWord x p <;> simp [Except.map, UInt64.toNat_inj]
  · rw [← asIndex_eq_error_iff, ← map_toIndexWord]
    cases toIndexWord x p <;> simp [Except.map]

end Number

end MapExpr
