import MapExpr.Proofs.Evaluation.Eager
import MapExpr.Proofs.Number.Conversion

/-!
# The complement of a number

`~` is defined on the whole numbers from the least safe one to the last but one of them: the
complement of the greatest safe number is below the least one. On these it is exact and its own
inverse, and of every other number it is said why it has no complement (`Complemented`).

A machine computes it on words: the number is cut to a word with a sign, all bits of the word are
turned round, and the word is cast back. No step loses anything (`complementWord_eq`).
-/

namespace MapExpr

open Number

/-- A number that is equal to a whole one which has a complement. -/
structure Complementable (x : Float) (n : Int) : Prop where
  value : value? x = some (n : ℚ)
  lower : -(maxSafe : Int) ≤ n
  upper : n < maxSafe

variable {H : Host} {x y : Float} {n : Int} {p q : Position} {f : Located EvalFault}

/-- The complement of a number. -/
def complementOf (x : Float) (p : Position) : Evaluated Float := do
  let n ← asInt x p
  exactly (-n - 1) p

/-- A number has a complement if and only if it is complementable. -/
theorem complementOf_eq_ok_iff :
    complementOf x p = .ok y ↔ ∃ n, Complementable x n ∧ y = ofInt (-n - 1) := by
  constructor
  · intro h
    obtain ⟨n, hn, hy⟩ := exists_of_bind_eq_ok h
    obtain ⟨hx, hle⟩ := asInt_eq_ok_iff.1 hn
    obtain ⟨hle', rfl⟩ := exactly_eq_ok_iff.1 hy
    exact ⟨n, ⟨hx, by omega, by omega⟩, rfl⟩
  · rintro ⟨n, ⟨hx, hlower, hupper⟩, rfl⟩
    rw [complementOf, asInt_eq_ok_iff.2 ⟨hx, by omega⟩]
    exact exactly_of_le p (by omega)

/-- A number has no complement if it is no safe whole number, or if it is the greatest of these. -/
theorem complementOf_eq_error_iff :
    complementOf x p = .error f ↔
      IsNoSafeInt x ∧ f = ⟨.notWhole x, p⟩ ∨
      value? x = some (maxSafe : ℚ) ∧ f = ⟨.tooLarge (-maxSafe - 1), p⟩ := by
  have hmax : asInt x p = .ok maxSafe ↔ value? x = some (maxSafe : ℚ) := by
    rw [asInt_eq_ok_iff, Int.cast_natCast, Int.natAbs_natCast, and_iff_left (le_refl maxSafe)]
  have hno : asInt x p = .error f ↔ IsNoSafeInt x ∧ f = ⟨.notWhole x, p⟩ := asInt_eq_error_iff
  rw [← hno, ← hmax, complementOf]
  cases h : asInt x p with
  | error e =>
    constructor
    · rintro ⟨⟩
      exact .inl rfl
    · rintro (h | ⟨h, -⟩)
      · cases h
        rfl
      · cases h
  | ok n =>
    have hle := (asInt_eq_ok_iff.1 h).2
    refine exactly_eq_error_iff.trans ⟨?_, ?_⟩
    · rintro ⟨hlt, rfl⟩
      obtain rfl : n = maxSafe := by omega
      exact .inr ⟨rfl, rfl⟩
    · rintro (h | ⟨h, rfl⟩)
      · cases h
      · cases h
        exact ⟨by omega, rfl⟩

/-- The range of the numbers that have a complement is kept by it. -/
theorem Complementable.ofInt (h : Complementable x n) :
    Complementable (Number.ofInt (-n - 1)) (-n - 1) := by
  obtain ⟨-, hlower, hupper⟩ := h
  exact ⟨value?_ofInt (by omega), by omega, by omega⟩

/-- Taking the complement twice leads back to the number, with a zero made positive. -/
theorem complementOf_complementOf (h : Complementable x n) (p q : Position) :
    ∃ y z, complementOf x p = .ok y ∧ Complementable y (-n - 1) ∧
      complementOf y q = .ok z ∧ Complementable z n ∧ z == x := by
  have hy := h.ofInt
  have hz := hy.ofInt
  have hn : -(-n - 1) - 1 = n := by omega
  rw [hn] at hz
  refine ⟨_, Number.ofInt n, complementOf_eq_ok_iff.2 ⟨n, h, rfl⟩, hy, ?_, hz,
    beq_of_value? hz.value h.value⟩
  exact complementOf_eq_ok_iff.2 ⟨-n - 1, hy, by rw [hn]⟩

/-! ## On words -/

/-- The complement as a machine computes it. -/
def complementWord (v : Value H) (p : Position) : Evaluated (Value H) := do
  let w ← toWord (← v.asNumber p) p
  return .number (← ofWord (~~~w) p)

/-- The complement on words is the complement of the language, for every value. -/
theorem complementWord_eq (v : Value H) (p : Position) :
    complementWord v p = UnaryOp.complement.apply v p := by
  simp only [complementWord, UnaryOp.apply, ofWord_eq, toInt_not]
  refine bind_congr fun x => ?_
  rw [← map_toWord]
  cases toWord x p <;> rfl

/-! ## Outcomes -/

/-- The operator takes a number to the complement of it. -/
theorem apply_complement (x : Float) (p : Position) :
    UnaryOp.complement.apply (.number x : Value H) p =
      (do return .number (← complementOf x p)) := by
  show (asInt x p >>= fun n => exactly (-n - 1) p >>= fun y => _) = _
  rw [complementOf, bind_assoc]

/-- The outcome of taking the complement of a number. -/
structure Complemented (x : Float) (p : Position) (r : Evaluated (Value H)) : Prop where
  ok_iff : (∃ v, r = .ok v) ↔ ∃ n, Complementable x n
  ok : ∀ n, Complementable x n → ∃ y, r = .ok (.number y) ∧ value? y = some ((-n - 1 : Int) : ℚ)
  /-- A number is no safe whole one, or it is the greatest one. -/
  error_iff : ∀ f, r = .error f ↔
    IsNoSafeInt x ∧ f = ⟨.notWhole x, p⟩ ∨
    value? x = some (maxSafe : ℚ) ∧ f = ⟨.tooLarge (-maxSafe - 1), p⟩

/-- The outcome of the operator is known for every number. -/
theorem complemented (x : Float) (p : Position) :
    Complemented x p (UnaryOp.complement.apply (.number x : Value H) p) := by
  have hok (n) (h : Complementable x n) : complementOf x p = .ok (ofInt (-n - 1)) :=
    complementOf_eq_ok_iff.2 ⟨n, h, rfl⟩
  rw [apply_complement]
  refine ⟨⟨?_, ?_⟩, fun n h => ?_, fun f => ?_⟩
  · rintro ⟨v, hv⟩
    obtain ⟨y, hy, -⟩ := exists_of_bind_eq_ok hv
    obtain ⟨n, h, -⟩ := complementOf_eq_ok_iff.1 hy
    exact ⟨n, h⟩
  · rintro ⟨n, h⟩
    rw [hok n h]
    exact ⟨_, rfl⟩
  · rw [hok n h]
    exact ⟨_, rfl, h.ofInt.value⟩
  · rw [← complementOf_eq_error_iff]
    cases complementOf x p with
    | error e => simp
    | ok y => exact iff_of_false nofun nofun

namespace Context

variable {c : Context H} {operand : Expr}

/-- In a tree the operator is applied to what its operand evaluates to. -/
theorem eval_complement (hoperand : c.eval operand = .ok (.number x)) (p : Position) :
    c.eval (.unary .complement operand p) = (do return .number (← complementOf x p)) := by
  rw [eval, hoperand]
  exact apply_complement x p

/-- A number has a complement if and only if it is a whole one from the least safe number to the
last but one, and this is exact and has itself a complement, the number again. Every other number is
refused, as one that is not whole or not safe, or as one of which the complement is not safe.
Computed on words the complement is the same, since no word overflows when its bits are turned round
or when its sign is left out, and the conversions between floats and whole numbers, be these words
or not, are exact. -/
theorem complement_exact (c : Context H) {operand : Expr} {x : Float}
    (hoperand : c.eval operand = .ok (.number x)) :
    (∀ p, Complemented x p (c.eval (.unary .complement operand p))) ∧
    (∀ p q n, Complementable x n → ∃ y z,
      c.eval (.unary .complement operand p) = .ok (.number y) ∧ Complementable y (-n - 1) ∧
      c.eval (.unary .complement (.unary .complement operand p) q) = .ok (.number z) ∧
      Complementable z n ∧ z == x) ∧
    (∀ (v : Value H) p, complementWord v p = UnaryOp.complement.apply v p) ∧
    (∀ w : Int64, (~~~w).toInt = -w.toInt - 1 ∧ w.abs.toUInt64.toNat = w.toInt.natAbs) ∧
    ∀ p,
      ExactConversion id (asInt · p) (exactly · p) IsNoSafeInt .notWhole p ∧
      ExactConversion Int64.toInt (toWord · p) (ofWord · p) IsNoSafeInt .notWhole p ∧
      (∀ x, (toWord x p).map Int64.toInt = asInt x p) ∧
      (∀ w, ofWord w p = exactly w.toInt p) ∧
      ofWord Int64.minValue p = .error ⟨.tooLarge Int64.minValue.toInt, p⟩ := by
  refine ⟨fun p => ?_, fun p q n h => ?_, complementWord_eq, fun w => ⟨toInt_not w, toNat_abs w⟩,
    fun p => ⟨exactConversion_int p, exactConversion_word p, (map_toWord · p), (ofWord_eq · p),
      ?_⟩⟩
  · rw [eval_complement hoperand, ← apply_complement]
    exact complemented x p
  · obtain ⟨y, z, hy, hcy, hz, hcz, hzx⟩ := complementOf_complementOf h p q
    have hfirst : c.eval (.unary .complement operand p) = .ok (.number y) := by
      rw [eval_complement hoperand, hy]
      rfl
    refine ⟨y, z, hfirst, hcy, ?_, hcz, hzx⟩
    rw [eval_complement hfirst, hz]
    rfl
  · exact ((exactConversion_word p).write_error _ _).2 ⟨by decide, rfl⟩

/-- The greatest of the safe numbers is whole and has no complement, the number below it has one,
and a NaN is not whole. -/
theorem complement_exact_bounds :
    let c : Context Host.bare := empty .bare
    let outcome (x : Float) : Evaluated (Value Host.bare) :=
      c.eval (.unary .complement (.literal (.number x) ⟨1, 1⟩) ⟨1, 0⟩)
    outcome (ofInt maxSafe) = .error ⟨.tooLarge (-maxSafe - 1), ⟨1, 0⟩⟩ ∧
    (∃ y, outcome (ofInt (maxSafe - 1)) = .ok (.number y) ∧
      value? y = some ((-maxSafe : Int) : ℚ)) ∧
    outcome nan = .error ⟨.notWhole nan, ⟨1, 0⟩⟩ := by
  intro c outcome
  have hoperand (x : Float) : c.eval (.literal (.number x) ⟨1, 1⟩) = .ok (.number x) := rfl
  have hspec (x : Float) : Complemented x ⟨1, 0⟩ (outcome x) :=
    (complement_exact c (hoperand x)).1 ⟨1, 0⟩
  have hmax : value? (ofInt maxSafe) = some (maxSafe : ℚ) := value?_ofInt (le_refl maxSafe)
  have hlast : Complementable (ofInt (maxSafe - 1)) (maxSafe - 1) :=
    ⟨value?_ofInt (by decide), by decide, by decide⟩
  have hleast : -(maxSafe - 1 : Int) - 1 = -maxSafe := by decide
  refine ⟨?_, ?_, ?_⟩
  · exact ((hspec _).error_iff _).2 (.inr ⟨hmax, rfl⟩)
  · rw [← hleast]
    exact (hspec _).ok _ hlast
  · exact ((hspec nan).error_iff _).2 (.inl ⟨.inl rfl, rfl⟩)

end Context

end MapExpr
