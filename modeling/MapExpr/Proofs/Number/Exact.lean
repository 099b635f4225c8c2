import MapExpr.Number
import Mathlib

/-!
# Exact values are read exactly

A decimal that is equal to a float denotes it. The value `m * 2 ^ e` of a float is written as a
whole number, or as a whole number over a power of ten if `e` is negative; in both cases `nearest`
brings it to the mantissa `m * 2 ^ j` and the exponent `e - j`, without a remainder, and rounding
only takes the factor `2 ^ j` away again (`roundWithAccuracy_exact`).

The lemmas on how floats are packed come with the library as a whole and with no smaller part of it.
-/

namespace MapExpr

/-! ## Floats and their parts

A float is stored as bits and computed with as a sign, a mantissa and an exponent. The parts of a
finite float are canonical: its exponent is the one that rounding would choose for its value
(`canonical_of_unpack`). What is packed from a number with a positive sign has that sign, and is no
NaN (`isUnsigned_unpack_pack`).
-/

namespace Number

open Float.Model Float.Model.UnpackedFloat

/-- A float is packed from the parts it is unpacked to. -/
theorem ofModel_pack_unpack (x : Float) : Float.ofModel (.pack x.toModel.unpack) = x := by
  obtain ⟨bits, hv⟩ := x
  have h : UnpackedFloat.pack .binary64 (UnpackedFloat.unpack .binary64 bits.toBitVec)
      = bits.toBitVec := pack_unpack_of_valid hv
  simp only [Float.Model.pack, Float.Model.unpack, h]

/-! ### Kinds of floats -/

section Fields

variable (b : BitVec Format.binary64.numBits)

/-- The stored mantissa has 52 bits. -/
theorem unpackMantissa_lt : (unpackMantissa b).toNat < 2 ^ 52 := (unpackMantissa b).isLt

/-- The stored exponent has 11 bits. -/
theorem unpackExponent_lt : (unpackExponent b).toNat < 2 ^ 11 := (unpackExponent b).isLt

/-- The mantissa of a normal float, with its implicit bit. -/
theorem toNat_implicit : (1#1 ++ unpackMantissa b).toNat = 2 ^ 52 + (unpackMantissa b).toNat := by
  have h := Nat.shiftLeft_add_eq_or_of_lt (unpackMantissa_lt b) 1
  rw [BitVec.toNat_append]
  exact h.symm

end Fields

/-- What the parts of a float can be, and the components they come from. -/
inductive Parts (b : BitVec Format.binary64.numBits) : UnpackedFloat → Prop
  | infinity (he : unpackExponent b = -1#_) (hm : unpackMantissa b = 0#_) :
      Parts b (.infinity (Sign.ofBitVec (unpackSign b)))
  | notANumber (he : unpackExponent b = -1#_) (hm : unpackMantissa b ≠ 0#_) :
      Parts b .notANumber
  | zero (he : unpackExponent b = 0#_) (hm : unpackMantissa b = 0#_) :
      Parts b (.zero (Sign.ofBitVec (unpackSign b)))
  | subnormal {m : Nat} {h : 0 < m} (he : unpackExponent b = 0#_)
      (hm : (unpackMantissa b).toNat = m) :
      Parts b (.finite (Sign.ofBitVec (unpackSign b)) m (-1074) h)
  | normal {m : Nat} {e : Int} {h : 0 < m} (h₀ : 0 < (unpackExponent b).toNat)
      (h₁ : (unpackExponent b).toNat < 2047) (hm : 2 ^ 52 + (unpackMantissa b).toNat = m)
      (he : e = (unpackExponent b).toNat - 1075) :
      Parts b (.finite (Sign.ofBitVec (unpackSign b)) m e h)

/-- Every bit pattern has parts of one of these kinds. -/
theorem parts_unpack (b : BitVec Format.binary64.numBits) : Parts b (unpack .binary64 b) := by
  have hbias : ((Format.binary64.exponentBias + Format.binary64.mantissaBitsWithoutImplicit : Nat) :
      Int) = 1075 := rfl
  unfold UnpackedFloat.unpack
  dsimp only
  split
  · next he =>
    split
    · next hm => exact .infinity he hm
    · next hm => exact .notANumber he hm
  · next he =>
    split
    · next he₀ =>
      split
      · next hm => exact .zero he₀ hm
      · next hm =>
        have h₀ : (unpackExponent b).toNat = 0 := congrArg BitVec.toNat he₀
        have hexp : ((unpackExponent b).toNat : Int) - (Format.binary64.exponentBias +
            Format.binary64.mantissaBitsWithoutImplicit) + 1 = -1074 := by
          rw [h₀, ← Int.natCast_add, hbias]
          rfl
        simp only [hexp]
        exact .subnormal he₀ rfl
    · next he₀ =>
      have hlt := unpackExponent_lt b
      have h₁ : (unpackExponent b).toNat ≠ 2047 := fun h => he (BitVec.eq_of_toNat_eq h)
      have h₀ : (unpackExponent b).toNat ≠ 0 := fun h => he₀ (BitVec.eq_of_toNat_eq h)
      refine .normal (by omega) (by omega) (toNat_implicit b).symm ?_
      rw [← Int.natCast_add, hbias]

/-! ### Canonical parts -/

/-- The mantissa and the exponent are those of a float: a normal one has a mantissa of 53 bits, and
a subnormal one has the lowest exponent. -/
structure Canonical (m : Nat) (e : Int) : Prop where
  mantissa_lt : m < 2 ^ 53
  exponent_le : e ≤ 971
  le_exponent : -1074 ≤ e
  normal_or : 2 ^ 52 ≤ m ∨ e = -1074

/-- The parts of a finite float are canonical. -/
theorem canonical_of_unpack {f : Float.Model} {s : Sign} {m : Nat} {e : Int} {h : 0 < m}
    (hf : f.unpack = .finite s m e h) : Canonical m e := by
  have hp := parts_unpack f.toBits.toBitVec
  have hu : UnpackedFloat.unpack .binary64 f.toBits.toBitVec = .finite s m e h := hf
  rw [hu] at hp
  have hlt := unpackMantissa_lt f.toBits.toBitVec
  cases hp with
  | subnormal he hm => exact ⟨by omega, by decide, by decide, .inr rfl⟩
  | normal h₀ h₁ hm he => exact ⟨by omega, by omega, by omega, .inl (by omega)⟩

/-! ### Signs -/

/-- The parts are those of a number with a positive sign. -/
def IsUnsigned : UnpackedFloat → Prop
  | .infinity s | .zero s | .finite s _ _ _ => s = .positive
  | .notANumber => False

/-- Bits without a sign that are no NaN unpack to a number with a positive sign. -/
theorem isUnsigned_of_components {b : BitVec Format.binary64.numBits}
    (hs : unpackSign b = Sign.positive.toBitVec)
    (hn : unpackExponent b = -1#_ → unpackMantissa b = 0#_) :
    IsUnsigned (UnpackedFloat.unpack .binary64 b) := by
  have hsign : Sign.ofBitVec (unpackSign b) = .positive := by
    rw [hs]
    rfl
  cases hp : UnpackedFloat.unpack .binary64 b <;> have h := parts_unpack b <;> rw [hp] at h <;>
    cases h
  · exact hsign
  · next he hm => exact absurd (hn he) hm
  · exact hsign
  · exact hsign
  · exact hsign

/-- What is packed from a number with a positive sign has that sign and is no NaN. -/
theorem exists_components {u : UnpackedFloat} (h : IsUnsigned u) :
    ∃ e m, UnpackedFloat.pack .binary64 u = packComponents .binary64 .positive e m ∧
      (e = -1#_ → m = 0#_) := by
  have hzero : (0#11) ≠ -1#11 := by decide
  cases u with
  | notANumber => exact absurd h id
  | infinity s =>
    obtain rfl : s = .positive := h
    exact ⟨_, _, rfl, fun _ => rfl⟩
  | zero s =>
    obtain rfl : s = .positive := h
    exact ⟨_, _, rfl, fun he => absurd he hzero⟩
  | finite s m e hm =>
    obtain rfl : s = .positive := h
    unfold UnpackedFloat.pack
    dsimp only
    split
    · exact ⟨_, _, rfl, fun _ => rfl⟩
    · next hfit =>
      split
      -- An exponent that fits is below the one that is kept for infinity and NaN.
      · refine ⟨_, _, rfl, fun he => absurd (congrArg BitVec.toNat he) ?_⟩
        rw [BitVec.toNat_ofNat, Nat.mod_eq_of_lt (by omega)]
        show _ ≠ 2047
        have : (2 : Nat) ^ Format.binary64.exponentBits = 2048 := rfl
        omega
      · exact ⟨_, _, rfl, fun he => absurd he hzero⟩

/-- Packing keeps a positive sign and makes no number into a NaN. -/
theorem isUnsigned_unpack_pack {u : UnpackedFloat} (h : IsUnsigned u) :
    IsUnsigned (Float.Model.pack u).unpack := by
  obtain ⟨e, m, hp, hem⟩ := exists_components h
  show IsUnsigned (UnpackedFloat.unpack .binary64 (UnpackedFloat.pack .binary64 u))
  rw [hp]
  refine isUnsigned_of_components (unpackSign_packComponents _ _ _) ?_
  rw [unpackExponent_packComponents, unpackMantissa_packComponents]
  exact hem

end Number

/-! ## Decimals that are equal to a float -/

namespace Number

open Float.Model Float.Model.UnpackedFloat

variable {m : Nat} {e : Int}

/-! ### Binary digits -/

/-- Every factor of two adds one binary digit. -/
theorem log2_mul_two_pow (hm : 0 < m) (j : Nat) : (m * 2 ^ j).log2 = m.log2 + j := by
  induction j with
  | zero => rw [Nat.pow_zero, Nat.mul_one, Nat.add_zero]
  | succ j ih =>
    have hne : m * 2 ^ j ≠ 0 := Nat.ne_of_gt (Nat.mul_pos hm (Nat.two_pow_pos j))
    rw [Nat.pow_succ, ← Nat.mul_assoc, Nat.mul_comm _ 2, Nat.log2_two_mul hne, ih, Nat.add_assoc]

/-- A product has at most one binary digit more than its factors suggest. -/
theorem log2_mul_le {a b : Nat} (ha : 0 < a) (hb : 0 < b) :
    (a * b).log2 ≤ a.log2 + b.log2 + 1 := by
  have hlt : a * b < 2 ^ (a.log2 + b.log2 + 2) := by
    calc a * b
      _ < 2 ^ (a.log2 + 1) * 2 ^ (b.log2 + 1) :=
        Nat.mul_lt_mul'' Nat.lt_log2_self Nat.lt_log2_self
      _ = 2 ^ (a.log2 + b.log2 + 2) := by rw [← Nat.pow_add]; congr 1; omega
  have := (Nat.log2_lt (Nat.ne_of_gt (Nat.mul_pos ha hb))).2 hlt
  omega

/-- A power of ten has as many binary digits more than the power of five as it has factors of two.
-/
theorem log2_ten_pow (k : Nat) : (10 ^ k).log2 = (5 ^ k).log2 + k := by
  have h : 10 ^ k = 5 ^ k * 2 ^ k := by rw [← Nat.mul_pow]
  rw [h, log2_mul_two_pow (Nat.pow_pos (by decide))]

/-- A factor of five adds at most three binary digits. -/
theorem log2_five_pow_le (k : Nat) : (5 ^ k).log2 ≤ 3 * k := by
  have hle : 5 ^ k ≤ 2 ^ (3 * k) := by
    rw [Nat.pow_mul]
    exact Nat.pow_le_pow_left (by decide) k
  have hlt : 5 ^ k < 2 ^ (3 * k + 1) := by
    rw [Nat.pow_succ]
    have := Nat.two_pow_pos (3 * k)
    omega
  have := (Nat.log2_lt (Nat.ne_of_gt (Nat.pow_pos (by decide)))).2 hlt
  omega

/-- A canonical mantissa has at most 53 binary digits. -/
theorem Canonical.log2_le (h : Canonical m e) : m.log2 ≤ 52 := by
  by_cases hm : m = 0
  · subst hm
    decide
  · have := (Nat.log2_lt hm).2 h.mantissa_lt
    omega

/-- Rounding keeps 53 binary digits, or stops at the lowest exponent. -/
theorem targetExponent_binary64 (t : Int) :
    Format.binary64.targetExponent t = max (t - (53 : Nat)) (-1074) := rfl

/-- The parts of a float have the exponent that rounding chooses for their value. -/
theorem Canonical.targetExponent_eq (h : Canonical m e) (hm : 0 < m) :
    Format.binary64.targetExponent (totalExponent m e) = e := by
  have hle := h.log2_le
  have hlow := h.le_exponent
  rw [targetExponent_binary64, totalExponent]
  rcases h.normal_or with hn | rfl
  · have : 52 ≤ m.log2 := (Nat.le_log2 (Nat.ne_of_gt hm)).2 hn
    omega
  · omega

/-! ### Rounding takes away a power of two -/

/-- Shifting a mantissa out of its added zeros loses nothing. -/
theorem shiftRight_exact (m j : Nat) :
    (ExtendedMantissa.ofMantissaAndAccuracy (m * 2 ^ j) .exact) >>> j = ⟨m, false, false⟩ := by
  show j.repeat ExtendedMantissa.shiftRightOne ⟨m * 2 ^ j, false, false⟩ = ⟨m, false, false⟩
  induction j generalizing m with
  | zero => rw [Nat.pow_zero, Nat.mul_one]; rfl
  | succ j ih =>
    have hm : m * 2 ^ (j + 1) = (m * 2) * 2 ^ j := by
      rw [Nat.pow_succ, Nat.mul_comm (2 ^ j), Nat.mul_assoc]
    show ExtendedMantissa.shiftRightOne
      (j.repeat ExtendedMantissa.shiftRightOne ⟨m * 2 ^ (j + 1), false, false⟩) = _
    rw [hm, ih (m * 2)]
    simp [ExtendedMantissa.shiftRightOne]

/-- A canonical mantissa with some factors of two is shifted back without a remainder. -/
theorem shiftToTargetExponent_exact (h : Canonical m e) (hm : 0 < m) (j : Nat) :
    shiftToTargetExponent .binary64 (m * 2 ^ j) (e - j) .exact = (⟨m, false, false⟩, e) := by
  have ht : Format.binary64.targetExponent (totalExponent (m * 2 ^ j) (e - j)) = e := by
    rw [totalExponent, log2_mul_two_pow hm]
    have hte := h.targetExponent_eq hm
    rw [totalExponent] at hte
    rw [← hte]
    congr 1
    rw [hte]
    omega
  have hj : (e - (e - j)).toNat = j := by omega
  rw [shiftToTargetExponent, ht, shiftToExponent, hj, shiftRight_exact]
  congr 1
  omega

/-- Rounding the value of a float gives its parts, with any power of two in the mantissa. -/
theorem roundWithAccuracy_exact (h : Canonical m e) (hm : 0 < m) (s : Sign) (j : Nat) :
    roundWithAccuracy .binary64 s (m * 2 ^ j) (e - j) .exact = .finite s m e hm := by
  have hfst := shiftToTargetExponent_exact h hm j
  have hsnd := shiftToTargetExponent_exact h hm 0
  rw [Nat.pow_zero, Nat.mul_one, Int.natCast_zero, Int.sub_zero] at hsnd
  rw [roundWithAccuracy, hfst]
  show (let (fe, f) := shiftToTargetExponent .binary64 m e .exact
    if h : fe.mantissa = 0 then UnpackedFloat.zero s
    else .finite s fe.mantissa f (Nat.pos_of_ne_zero h)) = _
  rw [hsnd]
  exact dif_neg (Nat.ne_of_gt hm)

/-! ### Reading exact decimals -/

/-- The float with a positive sign and the given parts. -/
def ofParts (m : Nat) (e : Int) (hm : 0 < m) : Float :=
  Float.ofModel (.pack (.finite .positive m e hm))

/-- A whole number that is the value of a float denotes it. -/
theorem nearest_whole {k : Nat} (h : Canonical m k) (hm : 0 < m) :
    nearest (m * 2 ^ k) 0 = ofParts m k hm := by
  have hpos : 0 < m * 2 ^ k := Nat.mul_pos hm (Nat.two_pow_pos k)
  have hlog := h.log2_le
  have hk := h.exponent_le
  -- None of the shortcuts for very large and very small numbers is taken.
  have hfit : ¬ exceedsFloats (m * 2 ^ k) 0 = true := by
    rw [exceedsFloats, decide_eq_true_eq, log2_mul_two_pow hm]
    omega
  have hbits : (2 : Int) ^ Format.binary64.exponentBits = 2048 := rfl
  have hhigh : ¬ (0 : Int) > 2 ^ Format.binary64.exponentBits := by omega
  have hlow : ¬ (0 : Int) < -((2 ^ Format.binary64.exponentBits : Int) + (m * 2 ^ k).log2) := by
    omega
  have hround : roundWithAccuracy .binary64 .positive (m * 2 ^ (k + 53)) (-53) .exact
      = .finite .positive m k hm := by
    have he : (k : Int) - (k + 53 : Nat) = -53 := by omega
    rw [← he]
    exact roundWithAccuracy_exact h hm .positive (k + 53)
  have hshift : (m * 2 ^ k) <<< Format.binary64.mantissaBits * 10 ^ (0 : Int).toNat
      = m * 2 ^ (k + 53) := by
    have hbits' : Format.binary64.mantissaBits = 53 := rfl
    rw [hbits', Int.toNat_zero, Nat.shiftLeft_eq, Nat.pow_zero, Nat.mul_one, Nat.pow_add,
      Nat.mul_assoc]
  have hsci : UnpackedFloat.ofScientific .binary64 (m * 2 ^ k) 0 = .finite .positive m k hm := by
    rw [UnpackedFloat.ofScientific, dif_neg (Nat.ne_of_gt hpos), if_neg hhigh, if_neg hlow,
      if_pos (Int.le_refl 0), UnpackedFloat.mul, hshift]
    exact hround
  rw [nearest, if_neg hfit, Float.Model.ofScientific, hsci]
  rfl

/-- The quotient of `m * 5 ^ k` by `10 ^ k` is computed without a remainder. -/
theorem divCore_exact {k : Nat} (h : Canonical m (-k)) (hm : 0 < m) :
    ∃ j : Nat, divCore .binary64 (m * 5 ^ k) 0 (10 ^ k) 0
      = (m * 2 ^ j, -(k : Int) - j, .exact) := by
  have hfive : 0 < 5 ^ k := Nat.pow_pos (by decide)
  have hten : 10 ^ k = 5 ^ k * 2 ^ k := by rw [← Nat.mul_pow]
  have hnum := log2_mul_le hm hfive
  have hden := log2_ten_pow k
  have hlow := h.le_exponent
  have hlog := h.log2_le
  -- The exponent of the quotient is low enough for all digits of `m`.
  have ht : ∃ s : Nat, k ≤ s ∧ min ((0 : Int) - 0) (Format.binary64.targetExponent
      (totalExponent (m * 5 ^ k) 0 - totalExponent (10 ^ k) 0)) = -s := by
    rw [targetExponent_binary64, totalExponent, totalExponent]
    generalize (m * 5 ^ k).log2 = a at hnum ⊢
    generalize (10 ^ k).log2 = b at hden ⊢
    exact ⟨(-min ((0 : Int) - 0) (max ((a : Int) + 1 + 0 - ((b : Int) + 1 + 0) - (53 : Nat))
      (-1074))).toNat, by omega, by omega⟩
  obtain ⟨s, hks, hs⟩ := ht
  obtain ⟨j, rfl⟩ := Nat.exists_eq_add_of_le hks
  have hshift : ((0 : Int) - 0 - -(k + j : Nat)).toNat = k + j := by omega
  have hprod : (m * 5 ^ k) <<< (k + j) = m * 2 ^ j * 10 ^ k := by
    rw [Nat.shiftLeft_eq, hten, Nat.pow_add, Nat.mul_comm (2 ^ k), Nat.mul_mul_mul_comm]
  have hpos : 0 < 10 ^ k := Nat.pow_pos (by decide)
  refine ⟨j, ?_⟩
  rw [divCore, hs, hshift, hprod, Nat.mul_div_cancel _ hpos, Nat.mul_mod_left,
    accuracyOfFraction, if_pos rfl]
  congr 2
  omega

/-- A decimal fraction that is the value of a float denotes it. -/
theorem nearest_fraction {k : Nat} (h : Canonical m (-k)) (hm : 0 < m) (hk : 0 < k) :
    nearest (m * 5 ^ k) (-k) = ofParts m (-k) hm := by
  have hpos : 0 < m * 5 ^ k := Nat.mul_pos hm (Nat.pow_pos (by decide))
  have hlog := h.log2_le
  have hlow := h.le_exponent
  have hfit : ¬ exceedsFloats (m * 5 ^ k) (-k) = true := by
    have hnum := log2_mul_le hm (Nat.pow_pos (n := k) (by decide : 0 < 5))
    have hfive := log2_five_pow_le k
    have hk' : (-(-(k : Int))).toNat = k := by omega
    rw [exceedsFloats, decide_eq_true_eq, hk']
    omega
  have hbits : (2 : Int) ^ Format.binary64.exponentBits = 2048 := rfl
  have hhigh : ¬ (-(k : Int)) > 2 ^ Format.binary64.exponentBits := by omega
  have hlow' : ¬ (-(k : Int)) <
      -((2 ^ Format.binary64.exponentBits : Int) + (m * 5 ^ k).log2) := by omega
  have hneg : ¬ (0 : Int) ≤ -k := by omega
  have hk' : (-(-(k : Int))).toNat = k := by omega
  obtain ⟨j, hj⟩ := divCore_exact h hm
  have hsci : UnpackedFloat.ofScientific .binary64 (m * 5 ^ k) (-k)
      = .finite .positive m (-k) hm := by
    rw [UnpackedFloat.ofScientific, dif_neg (Nat.ne_of_gt hpos), if_neg hhigh, if_neg hlow',
      if_neg hneg, UnpackedFloat.div, hk', hj]
    exact roundWithAccuracy_exact h hm _ j
  rw [nearest, if_neg hfit, Float.Model.ofScientific, hsci]
  rfl

/-- The exact decimal of a float denotes it. -/
theorem toFloat_exact (h : Canonical m e) (hm : 0 < m) :
    (Shortest.exact m e).toFloat = ofParts m e hm := by
  unfold Shortest.exact
  split
  · next he =>
    obtain ⟨k, rfl⟩ := Int.eq_ofNat_of_zero_le he
    exact nearest_whole h hm
  · next he =>
    obtain ⟨k, hk⟩ := Int.eq_ofNat_of_zero_le (a := -e) (by omega)
    obtain rfl : e = -k := by omega
    have hk' : (-(-(k : Int))).toNat = k := by omega
    rw [hk']
    exact nearest_fraction h hm (by omega)

end Number

end MapExpr
