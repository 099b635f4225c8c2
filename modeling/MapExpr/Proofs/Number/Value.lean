import MapExpr.Proofs.Number.Exact

/-!
# The numbers that floats are equal to

A finite float is equal to a rational number, its mantissa times a power of two with its sign in
front (`value?`). Both zeros are equal to zero; an infinity or NaN is equal to no number.

The whole numbers among these are those that the program finds (`toInt?_eq_some_iff`), a safe whole
number becomes a float of this very value (`value?_ofInt`), and a float without its sign has the
value without its sign (`value?_abs`).
-/

namespace MapExpr

/-! ## Whole numbers and floats

The parts of a float come back when they are packed (`unpack_pack`). So when a whole number up to
the greatest safe one becomes a float, its binary digits are moved to the front of the mantissa, and
nothing is rounded (`unpack_ofInt`).
-/

namespace Number

open Float.Model Float.Model.UnpackedFloat

variable {m : Nat} {e : Int}

/-! ### Packing -/

/-- A sign comes back from its bit. -/
theorem ofBitVec_toBitVec (s : Sign) : Sign.ofBitVec s.toBitVec = s := by
  cases s <;> rfl

/-- What is unpacked from the components of a finite float. -/
theorem unpack_packComponents (s : Sign) {k r : Nat} (hk : k < 2047) (hr : r < 2 ^ 52)
    (hm : 0 < m) (h : k = 0 ∧ r = m ∧ e = -1074 ∨ 0 < k ∧ 2 ^ 52 + r = m ∧ e = (k : Int) - 1075) :
    UnpackedFloat.unpack .binary64
        (packComponents .binary64 s (BitVec.ofNat _ k) (BitVec.ofNat _ r)) = .finite s m e hm := by
  generalize hb : packComponents .binary64 s (BitVec.ofNat _ k) (BitVec.ofNat _ r) = b
  have hs : Sign.ofBitVec (unpackSign b) = s := by
    rw [← hb, unpackSign_packComponents, ofBitVec_toBitVec]
  have hexp : (unpackExponent b).toNat = k := by
    rw [← hb, unpackExponent_packComponents, BitVec.toNat_ofNat]
    exact Nat.mod_eq_of_lt (Nat.lt_trans hk (by decide))
  have hman : (unpackMantissa b).toNat = r := by
    rw [← hb, unpackMantissa_packComponents, BitVec.toNat_ofNat]
    exact Nat.mod_eq_of_lt hr
  have hlast : (-1#11).toNat = 2047 := rfl
  have hp := parts_unpack b
  generalize UnpackedFloat.unpack .binary64 b = u at hp ⊢
  cases hp with
  | infinity he _ | notANumber he _ =>
    have := congrArg BitVec.toNat he
    rw [hexp] at this
    exact absurd (this.trans hlast) (Nat.ne_of_lt hk)
  | zero he hm₀ =>
    have h₀ := congrArg BitVec.toNat he
    have h₁ := congrArg BitVec.toNat hm₀
    rw [hexp] at h₀
    rw [hman] at h₁
    change k = 0 at h₀
    change r = 0 at h₁
    omega
  | subnormal he hm' =>
    have h₀ := congrArg BitVec.toNat he
    rw [hexp] at h₀
    change k = 0 at h₀
    rw [hman] at hm'
    obtain ⟨-, rfl, rfl⟩ | ⟨h, -, -⟩ := h
    · subst hm'
      rw [hs]
    · omega
  | normal h₀ h₁ hm' he =>
    rw [hexp] at h₀ he
    rw [hman] at hm'
    obtain ⟨h, -, -⟩ | ⟨-, rfl, rfl⟩ := h
    · omega
    · subst hm' he
      rw [hs]

/-- The parts of a float come back when they are packed. -/
theorem unpack_pack (h : Canonical m e) (hm : 0 < m) (s : Sign) :
    (Float.Model.pack (.finite s m e hm)).unpack = .finite s m e hm := by
  show UnpackedFloat.unpack .binary64 (UnpackedFloat.pack .binary64 (.finite s m e hm)) = _
  have hle := h.exponent_le
  have hlow := h.le_exponent
  have hlt := h.mantissa_lt
  have hbias : (Format.binary64.exponentBias : Int) +
      (Format.binary64.mantissaBitsWithoutImplicit : Int) = 1075 := rfl
  have hbits : (2 : Nat) ^ Format.binary64.exponentBits = 2048 := rfl
  have hmant : Format.binary64.mantissaBits = 53 := rfl
  -- the stored exponent
  obtain ⟨k, hk, hke⟩ : ∃ k : Nat, (e + Format.binary64.exponentBias +
      Format.binary64.mantissaBitsWithoutImplicit).toNat = k ∧ (k : Int) = e + 1075 :=
    ⟨(e + 1075).toNat, by rw [Int.add_assoc, hbias], by omega⟩
  rw [UnpackedFloat.pack, hk]
  dsimp only
  rw [if_neg (by omega)]
  by_cases hn : 2 ^ 52 ≤ m
  · have hlog : m.log2 + 1 = Format.binary64.mantissaBits := by
      have := (Nat.le_log2 (Nat.ne_of_gt hm)).2 hn
      have := h.log2_le
      omega
    obtain ⟨r, rfl⟩ := Nat.exists_eq_add_of_le hn
    have hr : BitVec.ofNat 52 (2 ^ 52 + r) = BitVec.ofNat 52 r :=
      BitVec.eq_of_toNat_eq (by rw [BitVec.toNat_ofNat, BitVec.toNat_ofNat, Nat.add_mod_left])
    rw [if_pos hlog, hr]
    exact unpack_packComponents s (by omega) (by omega) hm (.inr ⟨by omega, rfl, by omega⟩)
  · obtain rfl : e = -1074 := h.normal_or.resolve_left hn
    have hlog : ¬ m.log2 + 1 = Format.binary64.mantissaBits := by
      have := (Nat.log2_lt (Nat.ne_of_gt hm)).2 (Nat.lt_of_not_le hn)
      omega
    rw [if_neg hlog]
    exact unpack_packComponents s (k := 0) (by decide) (Nat.lt_of_not_le hn) hm
      (.inl ⟨rfl, rfl, rfl⟩)

/-! ### Rounding what is not rounded -/

/-- Moving a power of two into the mantissa leaves the total exponent what it is. -/
theorem totalExponent_mul_two_pow (hm : 0 < m) (k : Nat) (e : Int) :
    totalExponent (m * 2 ^ k) e = totalExponent m (e + k) := by
  rw [totalExponent, totalExponent, log2_mul_two_pow hm]
  omega

/-- Too short a mantissa is shifted to the left. -/
theorem round_shift {k : Nat} (h : Canonical (m * 2 ^ k) e) (hm : 0 < m) (s : Sign) :
    UnpackedFloat.round .binary64 s m (e + k) =
      .finite s (m * 2 ^ k) e (Nat.mul_pos hm (Nat.two_pow_pos k)) := by
  have hpos : 0 < m * 2 ^ k := Nat.mul_pos hm (Nat.two_pow_pos k)
  have ht := h.targetExponent_eq hpos
  rw [totalExponent_mul_two_pow hm] at ht
  have hk : (e + k - e).toNat = k := by omega
  have hround := roundWithAccuracy_exact h hpos s 0
  rw [Nat.pow_zero, Nat.mul_one, Int.natCast_zero, Int.sub_zero] at hround
  rw [UnpackedFloat.round, ht, decreaseExponent, hk, Nat.shiftLeft_eq, Int.add_sub_cancel]
  exact hround

/-- Zeros behind a mantissa are cut off. -/
theorem round_cut {k : Nat} (h : Canonical m (e + k)) (hm : 0 < m) (s : Sign) :
    UnpackedFloat.round .binary64 s (m * 2 ^ k) e = .finite s m (e + k) hm := by
  have hk : (e - (e + k)).toNat = 0 := by omega
  have hround := roundWithAccuracy_exact h hm s k
  rw [Int.add_sub_cancel] at hround
  rw [UnpackedFloat.round, totalExponent_mul_two_pow hm, h.targetExponent_eq hm, decreaseExponent,
    hk, Nat.shiftLeft_zero, Int.natCast_zero, Int.sub_zero]
  exact hround

/-- A mantissa with a sign is normalised by rounding the mantissa under this sign. -/
theorem normalize_apply (hm : 0 < m) (s t : Sign) (e : Int) :
    UnpackedFloat.normalize .binary64 (s.apply m) e t = UnpackedFloat.round .binary64 s m e := by
  cases s with
  | negative =>
    have hlt : compare (-(m : Int)) 0 = .lt := by rw [Int.compare_eq_lt]; omega
    rw [UnpackedFloat.normalize, Sign.apply, hlt]
    simp
  | positive =>
    have hgt : compare (m : Int) 0 = .gt := by rw [Int.compare_eq_gt]; omega
    rw [UnpackedFloat.normalize, Sign.apply, hgt]
    simp

/-! ### From whole numbers to floats -/

/-- A safe whole number has at most 53 binary digits. -/
theorem log2_le_of_le_maxSafe {n : Nat} (h : n ≤ maxSafe) : n.log2 ≤ 52 := by
  rcases Nat.eq_zero_or_pos n with rfl | h0
  · decide
  · have hlt : n < 2 ^ 53 := Nat.lt_of_le_of_lt h (by decide)
    have := (Nat.log2_lt (Nat.ne_of_gt h0)).2 hlt
    omega

/-- A safe whole number, its binary digits moved to the front of the mantissa. -/
theorem canonical_shift {n : Nat} (h0 : 0 < n) (h : n ≤ maxSafe) :
    Canonical (n * 2 ^ (52 - n.log2)) (-(52 - n.log2 : Nat)) := by
  have hle := log2_le_of_le_maxSafe h
  have hlog : (n * 2 ^ (52 - n.log2)).log2 = 52 := by
    rw [log2_mul_two_pow h0]
    omega
  have hne : n * 2 ^ (52 - n.log2) ≠ 0 := Nat.ne_of_gt (Nat.mul_pos h0 (Nat.two_pow_pos _))
  refine ⟨(Nat.log2_lt hne).1 (by omega), by omega, by omega, .inl ((Nat.le_log2 hne).1 (by omega))⟩

/-- A safe whole number is rounded by moving its binary digits to the front. -/
theorem round_whole {n : Nat} (h0 : 0 < n) (h : n ≤ maxSafe) (s : Sign) :
    UnpackedFloat.round .binary64 s n 0 = .finite s (n * 2 ^ (52 - n.log2)) (-(52 - n.log2 : Nat))
      (Nat.mul_pos h0 (Nat.two_pow_pos _)) := by
  have hround := round_shift (canonical_shift h0 h) h0 s
  rwa [Int.add_left_neg] at hround

/-- These are the parts of the float that a safe whole number becomes. -/
theorem unpack_ofInt {n : Nat} (h0 : 0 < n) (h : n ≤ maxSafe) (s : Sign) :
    (ofInt (s.apply n)).toModel.unpack = .finite s (n * 2 ^ (52 - n.log2)) (-(52 - n.log2 : Nat))
      (Nat.mul_pos h0 (Nat.two_pow_pos _)) := by
  show (Float.Model.pack (UnpackedFloat.normalize .binary64 (s.apply n) 0 .positive)).unpack = _
  rw [normalize_apply h0, round_whole h0 h s]
  exact unpack_pack (canonical_shift h0 h) _ s

end Number

/-! ## Values -/

namespace Number

open Float.Model Float.Model.UnpackedFloat

/-- The value of a float with the given mantissa and exponent, its sign left aside. -/
def magnitude (m : Nat) (e : Int) : ℚ := m * 2 ^ e

/-- A magnitude with a sign in front. -/
def withSign : Sign → ℚ → ℚ
  | .negative, q => -q
  | .positive, q => q

/-- The rational number that the parts of a float stand for. -/
def partsValue? : UnpackedFloat → Option ℚ
  | .zero _ => some 0
  | .finite s m e _ => some (withSign s (magnitude m e))
  | .infinity _ | .notANumber => none

/-- The rational number that a float is equal to, if it is equal to one. -/
def value? (x : Float) : Option ℚ := partsValue? x.toModel.unpack

variable {x : Float} {m : Nat} {e n : Int}

/-- The floats without a value are the NaNs and the infinities. -/
theorem value?_eq_none_iff : value? x = none ↔ x.isNaN ∨ x.isInf := by
  show partsValue? x.toModel.unpack = none ↔ x.toModel.unpack.isNaN ∨ x.toModel.unpack.isInf
  cases x.toModel.unpack <;> simp [partsValue?, UnpackedFloat.isNaN, UnpackedFloat.isInf]

/-! ### Magnitudes -/

/-- A mantissa that is not zero has a positive magnitude. -/
theorem magnitude_pos (hm : 0 < m) (e : Int) : 0 < magnitude m e :=
  mul_pos (Nat.cast_pos.2 hm) (zpow_pos (by norm_num) e)

/-- A sign in front of a whole number is one in front of a rational number. -/
theorem cast_apply (s : Sign) (k : Nat) : ((s.apply k : Int) : ℚ) = withSign s k := by
  cases s <;> simp [Sign.apply, withSign]

/-- A magnitude is what is left of a number without its sign. -/
theorem abs_withSign (s : Sign) {q : ℚ} (hq : 0 < q) : |withSign s q| = q := by
  cases s with
  | negative => rw [withSign, abs_neg, abs_of_pos hq]
  | positive => exact abs_of_pos hq

/-- With an exponent that is not negative, a magnitude is a whole number. -/
theorem magnitude_of_nonneg (m : Nat) (he : 0 ≤ e) :
    magnitude m e = (m * Nat.pow 2 e.toNat : Nat) := by
  have hpow : Nat.pow 2 e.toNat = 2 ^ e.toNat := rfl
  obtain ⟨k, rfl⟩ := Int.eq_ofNat_of_zero_le he
  rw [magnitude, hpow, Int.toNat_natCast, zpow_natCast]
  push_cast
  rfl

/-- A negative exponent divides the mantissa by a power of two. -/
theorem magnitude_mul_two_pow (m : Nat) (he : e ≤ 0) :
    magnitude m e * (Nat.pow 2 (-e).toNat : Nat) = m := by
  have hpow : Nat.pow 2 (-e).toNat = 2 ^ (-e).toNat := rfl
  obtain ⟨k, hk⟩ := Int.eq_ofNat_of_zero_le (a := -e) (by omega)
  obtain rfl : e = -k := by omega
  rw [magnitude, hpow, hk, Int.toNat_natCast, zpow_neg, zpow_natCast, Nat.cast_pow, Nat.cast_ofNat,
    inv_mul_cancel_right₀ (by positivity)]

/-- A magnitude is a whole number if its mantissa has zeros in all places behind the point. -/
theorem magnitude_eq_natCast_iff (m k : Nat) (he : e ≤ 0) :
    magnitude m e = k ↔ m = k * Nat.pow 2 (-e).toNat := by
  have hpos : (0 : ℚ) < (Nat.pow 2 (-e).toNat : Nat) := Nat.cast_pos.2 (Nat.two_pow_pos _)
  rw [← mul_left_inj' hpos.ne', magnitude_mul_two_pow m he, ← Nat.cast_mul, Nat.cast_inj]

/-! ### Whole numbers -/

/-- The whole number that the program finds is the one that the float is equal to, and it finds one
if there is one. -/
theorem toInt?_eq_some_iff : toInt? x = some n ↔ value? x = some (n : ℚ) := by
  unfold toInt? value?
  cases x.toModel.unpack with
  | notANumber | infinity s => exact iff_of_false nofun nofun
  | zero s =>
    show some (0 : Int) = some n ↔ some (0 : ℚ) = some (n : ℚ)
    simp only [Option.some.injEq]
    exact Int.cast_inj.symm
  | finite s m e hm =>
    dsimp only [partsValue?]
    split
    · next he =>
      rw [magnitude_of_nonneg m he, ← cast_apply, Option.some_inj, Option.some_inj, Int.cast_inj]
      rfl
    · next he =>
      split
      · next hdiv =>
        have hm' : m = m / Nat.pow 2 (-e).toNat * Nat.pow 2 (-e).toNat :=
          (Nat.div_mul_cancel (Nat.dvd_of_mod_eq_zero hdiv)).symm
        rw [(magnitude_eq_natCast_iff m _ (by omega)).2 hm', ← cast_apply, Option.some_inj,
          Option.some_inj, Int.cast_inj, Int.natCast_ediv]
      · next hdiv =>
        refine iff_of_false nofun fun h => hdiv ?_
        have habs : magnitude m e = n.natAbs := by
          rw [Nat.cast_natAbs, Int.cast_abs, ← Option.some.inj h,
            abs_withSign s (magnitude_pos hm e)]
        rw [(magnitude_eq_natCast_iff m _ (by omega)).1 habs, Nat.mul_mod_left]

/-- Every whole number is a magnitude with a sign in front. -/
theorem exists_apply (n : Int) : ∃ (s : Sign) (k : Nat), n = s.apply k := by
  rcases Int.natAbs_eq n with hn | hn
  · exact ⟨.positive, n.natAbs, hn⟩
  · exact ⟨.negative, n.natAbs, hn⟩

/-- A sign does not change the magnitude. -/
theorem natAbs_apply (s : Sign) (n : Int) : (s.apply n).natAbs = n.natAbs := by
  cases s with
  | negative => exact Int.natAbs_neg n
  | positive => rfl

/-- A safe whole number is the value of the float that it becomes. -/
theorem value?_ofInt (h : n.natAbs ≤ maxSafe) : value? (ofInt n) = some (n : ℚ) := by
  obtain ⟨s, k, rfl⟩ := exists_apply n
  rw [natAbs_apply, Int.natAbs_natCast] at h
  rcases Nat.eq_zero_or_pos k with rfl | h0
  · cases s <;> rfl
  · have hpow : Nat.pow 2 (52 - k.log2) = 2 ^ (52 - k.log2) := rfl
    have hmag : magnitude (k * 2 ^ (52 - k.log2)) (-(52 - k.log2 : Nat)) = k := by
      rw [magnitude_eq_natCast_iff _ _ (by omega), Int.neg_neg, Int.toNat_natCast, hpow]
    rw [value?, unpack_ofInt h0 h, partsValue?, hmag, cast_apply]

/-- A safe whole number becomes the float of this value. -/
theorem value?_ofInt_natCast {k : Nat} (h : k ≤ maxSafe) : value? (ofInt k) = some (k : ℚ) :=
  value?_ofInt h

/-- A safe whole number is kept by the cast to a float. -/
theorem toInt?_ofInt (h : n.natAbs ≤ maxSafe) : toInt? (ofInt n) = some n :=
  toInt?_eq_some_iff.2 (value?_ofInt h)

/-- The value of the float without its sign is the one without its sign. -/
theorem value?_abs {q : ℚ} (h : value? x = some q) : value? x.abs = some |q| := by
  have habs : value? x.abs = partsValue? (Float.Model.pack x.toModel.unpack.abs).unpack := rfl
  rw [habs]
  unfold value? at h
  cases hu : x.toModel.unpack with
  | infinity | notANumber =>
    rw [hu] at h
    cases h
  | zero s =>
    rw [hu] at h
    cases h
    have hzero : (Float.Model.pack (.zero .positive)).unpack = .zero .positive := rfl
    rw [UnpackedFloat.abs, hzero, abs_zero]
    rfl
  | finite s m e hm =>
    rw [hu] at h
    cases h
    rw [abs_withSign s (magnitude_pos hm e), UnpackedFloat.abs,
      unpack_pack (canonical_of_unpack hu)]
    rfl

/-- Taking the sign away from a whole float takes it away from the number that it is equal to. -/
theorem toInt?_abs (h : toInt? x = some n) : toInt? x.abs = some (n.natAbs : Int) := by
  rw [toInt?_eq_some_iff, value?_abs (toInt?_eq_some_iff.1 h), Int.natCast_natAbs, Int.cast_abs]

end Number

end MapExpr
