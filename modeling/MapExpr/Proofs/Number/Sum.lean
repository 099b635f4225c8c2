import MapExpr.Proofs.Number.Order

/-!
# Sums and differences that are not rounded

Two floats are added by bringing them to one exponent and adding the mantissas. The sum of the
mantissas is then rounded, which leaves the value as it is if it is that of a float
(`round_exact`). So a sum that some float is equal to is found exactly (`value?_add`), and a
difference likewise, being the sum with the negative (`value?_sub`).
-/

namespace MapExpr

namespace Number

open Float.Model Float.Model.UnpackedFloat

variable {x y z : Float} {m m' : Nat} {e e' n : Int} {a b : ℚ} {u v w : UnpackedFloat}

/-! ## Magnitudes and powers of two -/

/-- A power of two can be moved from the exponent to the mantissa. -/
theorem magnitude_add (m k : Nat) (e : Int) : magnitude m (e + k) = magnitude (m * 2 ^ k) e := by
  rw [magnitude, magnitude, zpow_add₀ (by norm_num), zpow_natCast]
  push_cast
  ring

/-- At one exponent the mantissa is determined by the magnitude. -/
theorem magnitude_left_inj : magnitude m e = magnitude m' e ↔ m = m' := by
  rw [magnitude, magnitude, mul_left_inj' (zpow_pos (by norm_num) e).ne', Nat.cast_inj]

/-- Mantissas of one magnitude differ by a power of two. -/
theorem magnitude_eq_cases (h : magnitude m e = magnitude m' e') :
    (∃ k : Nat, m = m' * 2 ^ k ∧ e' = e + k) ∨ ∃ k : Nat, m' = m * 2 ^ k ∧ e = e' + k := by
  rcases le_total e e' with he | he
  · obtain ⟨k, rfl⟩ := Int.le.dest he
    rw [magnitude_add, magnitude_left_inj] at h
    exact .inl ⟨k, h, rfl⟩
  · obtain ⟨k, rfl⟩ := Int.le.dest he
    rw [magnitude_add, magnitude_left_inj] at h
    exact .inr ⟨k, h.symm, rfl⟩

/-! ## Rounding -/

/-- Rounding the value of a float gives its parts. -/
theorem round_exact (h : Canonical m e) (hm : 0 < m) (s : Sign)
    (heq : magnitude m' e' = magnitude m e) :
    UnpackedFloat.round .binary64 s m' e' = .finite s m e hm := by
  obtain ⟨k, rfl, rfl⟩ | ⟨k, rfl, rfl⟩ := magnitude_eq_cases heq
  · exact round_cut h hm s
  · exact round_shift h (Nat.pos_of_mul_pos_right hm) s

/-- A sign in front of a factor is a sign in front of the product. -/
theorem withSign_mul (s : Sign) (a b : ℚ) : withSign s a * b = withSign s (a * b) := by
  cases s <;> simp [withSign]

/-- A sign and a positive number can be told from the number with the sign in front. -/
theorem withSign_inj {s t : Sign} (ha : 0 < a) (hb : 0 < b) (h : withSign s a = withSign t b) :
    s = t ∧ a = b := by
  cases s <;> cases t <;> simp only [withSign] at h
  · exact ⟨rfl, neg_inj.1 h⟩
  · linarith
  · linarith
  · exact ⟨rfl, h⟩

namespace ValueParts

/-- The parts stand for the value. -/
theorem partsValue?_eq (h : ValueParts u a) : partsValue? u = some a := by
  cases h <;> rfl

/-- Parts with a value come back when they are packed. -/
theorem unpack_pack_eq (h : ValueParts u a) : (Float.Model.pack u).unpack = u := by
  cases h with
  | zero s => cases s <;> rfl
  | finite s hc => exact unpack_pack hc _ s

/-- The opposite parts stand for the opposite value. -/
theorem neg (h : ValueParts u a) : ValueParts u.neg (-a) := by
  cases h with
  | zero s =>
    rw [neg_zero]
    exact .zero (-s)
  | finite s hc =>
    have hneg (q : ℚ) : -withSign s q = withSign (-s) q := by
      cases s
      · exact neg_neg q
      · rfl
    rw [hneg]
    exact .finite (-s) hc

/-- A whole multiple of a power of two that is the value of a float is kept. -/
theorem normalize (h : ValueParts w (n * 2 ^ e)) (t : Sign) :
    ValueParts (UnpackedFloat.normalize .binary64 n e t) (n * 2 ^ e) := by
  obtain ⟨s, k, rfl⟩ := exists_apply n
  rw [cast_apply, withSign_mul] at h ⊢
  change ValueParts w (withSign s (magnitude k e)) at h
  change ValueParts _ (withSign s (magnitude k e))
  rcases Nat.eq_zero_or_pos k with rfl | hk
  · have hzero : withSign s (magnitude 0 e) = 0 := by cases s <;> simp [withSign, magnitude]
    have hnorm : UnpackedFloat.normalize .binary64 (s.apply (0 : Nat)) e t = .zero t := by
      cases s <;> rfl
    rw [hzero, hnorm]
    exact .zero t
  · rw [normalize_apply hk]
    have hpos := magnitude_pos hk e
    generalize hq : withSign s (magnitude k e) = q at h
    cases h with
    | zero t => cases s <;> simp only [withSign] at hq <;> linarith
    | @finite t m e' hm hc =>
      obtain ⟨rfl, hmag⟩ := withSign_inj hpos (magnitude_pos hm e') hq
      rw [round_exact hc hm s hmag]
      exact .finite s hc

/-- A mantissa that is brought to a lower exponent. -/
theorem aligned (s : Sign) (m : Nat) (h : e' ≤ e) :
    ((s.apply (decreaseExponent m e e').1 : Int) : ℚ) * 2 ^ e' = withSign s (magnitude m e) := by
  obtain ⟨k, rfl⟩ := Int.le.dest h
  have hk : (e' + k - e').toNat = k := by omega
  rw [decreaseExponent, hk, cast_apply, withSign_mul, magnitude_add, Nat.shiftLeft_eq]
  rfl

/-- The parts of two floats are added without rounding if some float is equal to the sum. -/
theorem add (hu : ValueParts u a) (hv : ValueParts v b) (hw : ValueParts w (a + b)) :
    ValueParts (UnpackedFloat.add .binary64 u v) (a + b) := by
  cases hu with
  | zero s =>
    rw [zero_add]
    cases hv with
    | zero t => cases s <;> cases t <;> exact .zero _
    | finite t hc => exact .finite t hc
  | @finite s m e hm hc =>
    cases hv with
    | zero t =>
      rw [add_zero]
      exact .finite s hc
    | @finite t m' e' hm' hc' =>
      rw [← aligned s m (min_le_left e e'), ← aligned t m' (min_le_right e e'), ← add_mul,
        ← Int.cast_add] at hw ⊢
      exact hw.normalize .positive

end ValueParts

/-- A difference is the sum with the opposite. -/
theorem sub_eq_add (u v : UnpackedFloat) :
    UnpackedFloat.sub .binary64 u v = UnpackedFloat.add .binary64 u v.neg := by
  have hneg (s : Sign) (n : Int) : (-s).apply n = -s.apply n := by
    cases s
    · exact (Int.neg_neg n).symm
    · rfl
  cases u with
  | notANumber => rfl
  | infinity s | zero s => cases v <;> rfl
  | finite s m e hm =>
    cases v with
    | notANumber | infinity t | zero t => rfl
    | finite t m' e' hm' =>
      show UnpackedFloat.normalize _ (s.apply _ - t.apply _) _ _ =
        UnpackedFloat.normalize _ (s.apply _ + (-t).apply _) _ _
      rw [hneg, ← Int.sub_eq_add_neg]

/-! ## Sums and differences -/

/-- A sum is exact if some float is equal to it. -/
theorem value?_add (hx : value? x = some a) (hy : value? y = some b)
    (hz : value? z = some (a + b)) : value? (x + y) = some (a + b) := by
  have h := (valueParts_of_value? hx).add (valueParts_of_value? hy) (valueParts_of_value? hz)
  show partsValue? (Float.Model.pack (UnpackedFloat.add .binary64 _ _)).unpack = _
  rw [h.unpack_pack_eq, h.partsValue?_eq]

/-- A difference is exact if some float is equal to it. -/
theorem value?_sub (hx : value? x = some a) (hy : value? y = some b)
    (hz : value? z = some (a - b)) : value? (x - y) = some (a - b) := by
  rw [sub_eq_add_neg] at hz ⊢
  have h := (valueParts_of_value? hx).add (valueParts_of_value? hy).neg (valueParts_of_value? hz)
  show partsValue? (Float.Model.pack (UnpackedFloat.sub .binary64 _ _)).unpack = _
  rw [sub_eq_add, h.unpack_pack_eq, h.partsValue?_eq]

end Number

end MapExpr
