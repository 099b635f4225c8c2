import MapExpr.Proofs.Evaluation.Authority
import MapExpr.Proofs.Number.Exact

/-!
# The equality of values

`==` compares numbers as floats, vectors component by component, and a bound method by its method
and its receiver. `Value.Equals` says the same as a relation, with one case for each kind of value,
and the laws are inductions on it. They are those of the equality of floats: equal values are equal
the other way round and equality can be chained, but a value is equal to itself only if none of its
numbers is a NaN (`Equals.self_iff`).

Equal values differ in the signs of zeros at most, and a text shows these. Objects are told apart by
their identity, so their texts agree where one identity stands for one content (`SharesData`).
-/

namespace MapExpr

/-- One of the floats is the positive zero and the other one the negative zero. -/
def Number.OppositeZeros (x y : Float) : Prop := x = 0 ∧ y = -0 ∨ x = -0 ∧ y = 0

/-- Equal floats are the same, but for the signs of two zeros. -/
theorem Number.eq_or_oppositeZeros {x y : Float} (h : x == y) : x = y ∨ OppositeZeros x y :=
  (Float.beq_iff_ne_nan_and_eq.1 h).2.2

/-- A float is equal to itself unless it is a NaN. -/
theorem Number.beq_self_iff {x : Float} : x == x ↔ x.isNaN = false := by
  simp

variable {H : Host}

namespace Value

/-- The numbers in a value, from left to right. Those of a bound method are in its receiver. -/
def numbers : Value H → List Float
  | number x => [x]
  | vector xs => xs
  | bound _ receiver => receiver.numbers
  | none | string _ | function _ | object _ => []

/-- Objects of one identity in the two values hold the same data. -/
def SharesData (v w : Value H) : Prop :=
  ∀ a b : Object H, .object a ∈ v.authorities → .object b ∈ w.authorities → a.id = b.id →
    a.data = b.data

/-- The values are equal, kind by kind. -/
inductive Equals : Value H → Value H → Prop
  | none : Equals .none .none
  | number {x y : Float} (h : x == y) : Equals (.number x) (.number y)
  | vector {xs ys : List Float} (h : List.Forall₂ (fun x y => x == y) xs ys) :
      Equals (.vector xs) (.vector ys)
  | string (s : String) : Equals (.string s) (.string s)
  | function (f : Function H) : Equals (.function f) (.function f)
  | bound (m : Method H) {v w : Value H} (h : Equals v w) : Equals (.bound m v) (.bound m w)
  | object {a b : Object H} (h : a.id = b.id) : Equals (.object a) (.object b)

/-- Vectors are compared component by component, and only at equal lengths. -/
theorem isEqv_iff_forall₂ {xs ys : List Float} :
    xs.isEqv ys (· == ·) ↔ List.Forall₂ (fun x y => x == y) xs ys := by
  induction xs generalizing ys with
  | nil => cases ys <;> simp
  | cons x xs ih => cases ys <;> simp [List.isEqv_cons_cons, ih]

/-- The equality of vectors can be chained, since that of floats can. -/
theorem forall₂_beq_trans {xs ys zs : List Float} (h : List.Forall₂ (fun x y => x == y) xs ys)
    (h' : List.Forall₂ (fun x y => x == y) ys zs) : List.Forall₂ (fun x y => x == y) xs zs := by
  induction h generalizing zs with
  | nil => exact h'
  | cons hxy _ ih =>
    cases h' with
    | cons hyz h' => exact .cons (BEq.trans hxy hyz) (ih h')

/-- The relation is what the language computes. -/
theorem equal_iff_equals {v w : Value H} : v.equal w ↔ v.Equals w := by
  constructor
  · intro h
    induction v generalizing w with
    | none =>
      cases w with
      | none => exact .none
      | _ => cases h
    | number x =>
      cases w with
      | number y => exact .number h
      | _ => cases h
    | vector xs =>
      cases w with
      | vector ys => exact .vector (isEqv_iff_forall₂.1 h)
      | _ => cases h
    | string s =>
      cases w with
      | string t =>
        obtain rfl : s = t := by simpa [equal] using h
        exact .string s
      | _ => cases h
    | function f =>
      cases w with
      | function g =>
        obtain rfl : f = g := by simpa [equal] using h
        exact .function f
      | _ => cases h
    | bound m v ih =>
      cases w with
      | bound n w =>
        obtain ⟨rfl, hv⟩ : m = n ∧ v.equal w := by simpa [equal] using h
        exact .bound m (ih hv)
      | _ => cases h
    | object a =>
      cases w with
      | object b => exact .object (by simpa [equal] using h)
      | _ => cases h
  · intro h
    induction h with
    | none => rfl
    | number h => exact h
    | vector h => exact isEqv_iff_forall₂.2 h
    | string s => simp [equal]
    | function f => simp [equal]
    | bound m h ih => simp [equal, ih]
    | object h => simp [equal, h]

namespace Equals

variable {u v w : Value H}

/-- Equal values are equal the other way round. -/
theorem symm (h : v.Equals w) : w.Equals v := by
  induction h with
  | none => exact .none
  | number h => exact .number (BEq.symm h)
  | vector h => exact .vector (h.flip.imp fun _ _ => BEq.symm)
  | string s => exact .string s
  | function f => exact .function f
  | bound m _ ih => exact .bound m ih
  | object h => exact .object h.symm

/-- The equality of values can be chained. -/
theorem trans (h : u.Equals v) (h' : v.Equals w) : u.Equals w := by
  -- Both equalities are about values of one kind, so the second one has one case.
  induction h generalizing w with
  | none => exact h'
  | string s => exact h'
  | function f => exact h'
  | number h =>
    cases h' with
    | number h' => exact .number (BEq.trans h h')
  | vector h =>
    cases h' with
    | vector h' => exact .vector (forall₂_beq_trans h h')
  | bound m _ ih =>
    cases h' with
    | bound _ h' => exact .bound m (ih h')
  | object h =>
    cases h' with
    | object h' => exact .object (h.trans h')

/-- Equal values hold as many numbers, and these are equal one by one. -/
theorem forall₂_numbers (h : v.Equals w) :
    List.Forall₂ (fun x y => x == y) v.numbers w.numbers := by
  induction h with
  | number h => exact .cons h .nil
  | vector h => exact h
  | bound m _ ih => exact ih
  | none | string | function | object => exact .nil

/-- A value is equal to itself if and only if its numbers are. -/
theorem self_iff : v.Equals v ↔ ∀ x ∈ v.numbers, x.isNaN = false := by
  constructor
  · intro h x hx
    exact Number.beq_self_iff.1 (List.forall₂_same.1 h.forall₂_numbers x hx)
  · intro h
    induction v with
    | none => exact .none
    | number x => exact .number (Number.beq_self_iff.2 (h x List.mem_cons_self))
    | vector xs => exact .vector (List.forall₂_same.2 fun x hx => Number.beq_self_iff.2 (h x hx))
    | string s => exact .string s
    | function f => exact .function f
    | bound m v ih => exact .bound m (ih h)
    | object a => exact .object rfl

/-- Equal values have one type. -/
theorem typeName_eq (h : v.Equals w) : v.typeName = w.typeName := by
  cases h <;> rfl

/-- Equal values are true or false alike. -/
theorem isTrue_eq (h : v.Equals w) : v.isTrue = w.isTrue := by
  cases h <;> rfl

/-- Where no zeros differ in their signs, the numbers of equal values are the same ones. -/
theorem numbers_eq (h : v.Equals w)
    (hz : ∀ q ∈ v.numbers.zip w.numbers, ¬ Number.OppositeZeros q.1 q.2) :
    v.numbers = w.numbers := by
  have hn := h.forall₂_numbers
  generalize v.numbers = xs, w.numbers = ys at hn hz
  induction hn with
  | nil => rfl
  | @cons x y xs ys hxy _ ih =>
    rw [List.zip_cons_cons, List.forall_mem_cons] at hz
    rw [(Number.eq_or_oppositeZeros hxy).resolve_right hz.1, ih hz.2]

/-- Equal values have one text, unless it shows the sign of a zero or the data of an object. -/
theorem text_eq (h : v.Equals w) (hd : v.SharesData w)
    (hz : ∀ q ∈ v.numbers.zip w.numbers, ¬ Number.OppositeZeros q.1 q.2) : v.text = w.text := by
  have hn := h.numbers_eq hz
  cases h with
  | none => rfl
  | number => exact congrArg Number.text (List.singleton_inj.1 hn)
  | vector => exact congrArg (fun xs => " ".intercalate (xs.map Number.text)) hn
  | string s => rfl
  | function f => rfl
  | bound m h => rfl
  | @object a b h =>
    exact congrArg H.text (hd a b List.mem_cons_self List.mem_cons_self h)

end Equals

/-- `==` and `!=` never fail and are opposite. `==` is symmetric and transitive, and it holds
between a value and itself exactly if no number in the value is a NaN. Equal values are of one type,
count as true or not alike, and hold as many numbers; if no two of these are zeros of opposite
signs, the values have one text. -/
theorem equal_isPartialEquivalence (H : Host) :
    (∀ (v w : Value H) (p : Position),
      BinaryOp.equal.apply v w p = .ok (.ofBool (v.equal w)) ∧
      BinaryOp.notEqual.apply v w p = .ok (.ofBool (!v.equal w))) ∧
    (∀ v w : Value H, v.equal w = w.equal v) ∧
    (∀ u v w : Value H, u.equal v → v.equal w → u.equal w) ∧
    (∀ v : Value H, v.equal v ↔ ∀ x ∈ v.numbers, x.isNaN = false) ∧
    ∀ v w : Value H, v.equal w →
      v.typeName = w.typeName ∧ v.isTrue = w.isTrue ∧ v.numbers.length = w.numbers.length ∧
      (v.SharesData w → (∀ q ∈ v.numbers.zip w.numbers, ¬ Number.OppositeZeros q.1 q.2) →
        v.text = w.text) := by
  refine ⟨fun v w p => ⟨rfl, rfl⟩, fun v w => ?_, fun u v w h h' => ?_, fun v => ?_,
    fun v w h => ?_⟩
  · rw [Bool.eq_iff_iff, equal_iff_equals, equal_iff_equals]
    exact ⟨Equals.symm, Equals.symm⟩
  · rw [equal_iff_equals] at h h' ⊢
    exact h.trans h'
  · rw [equal_iff_equals]
    exact Equals.self_iff
  · rw [equal_iff_equals] at h
    exact ⟨h.typeName_eq, h.isTrue_eq, h.forall₂_numbers.length_eq, h.text_eq⟩

/-- The zeros of opposite signs make two of the vectors differ in their texts, and the third one,
that is equal to both, has the text of the first one. -/
theorem equal_isPartialEquivalence_zeros :
    let u : Value Host.bare := .vector [0, 0]
    let v : Value Host.bare := .vector [0, -0]
    let w : Value Host.bare := .vector [1 - 1, 0]
    u.equal v ∧ v.equal w ∧ u.equal w ∧ u.text = "0 0" ∧ v.text = "0 -0" ∧ w.text = u.text := by
  intro u v w
  obtain ⟨-, -, htrans, -, hlike⟩ := equal_isPartialEquivalence Host.bare
  have huv : u.equal v := by decide
  have hvw : v.equal w := by decide
  have hwu : w.equal u := by decide
  have hu : u.text = "0 0" := rfl
  have hv : v.text = "0 -0" := rfl
  refine ⟨huv, hvw, htrans u v w huv hvw, hu, hv, ?_⟩
  refine (hlike w u hwu).2.2.2 (fun a _ ha => absurd ha List.not_mem_nil) ?_
  simp only [w, u, numbers, List.zip_cons_cons, List.zip_nil_right, List.forall_mem_cons,
    Number.OppositeZeros]
  decide

end Value

end MapExpr
