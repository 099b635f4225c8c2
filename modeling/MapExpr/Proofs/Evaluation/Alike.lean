import MapExpr.Proofs.Evaluation.Reporting
import Mathlib.Data.List.Forall2

/-!
# Values of two hosts that are alike

Two values, each of its own host, are alike if they hold the same data, are the same function of the
library, or are the same method of the language together with receivers that are alike. Nothing that
a host brings along is alike to anything.

No operation of the language tells such values apart. Given values that are alike, it fails with the
same fault in both hosts, or its results are alike again. In particular two values are equal if and
only if the two that they are alike to are equal (`Value.Alike.equal_eq`), though a method that has
been kept with its receiver is made anew by each host.
-/

namespace MapExpr

/-- Both evaluations end in related values, or both of them in one fault. -/
inductive Matches {α β : Type} (R : α → β → Prop) : Evaluated α → Evaluated β → Prop
  | value {a : α} {b : β} (h : R a b) : Matches R (.ok a) (.ok b)
  | fault (e : Located EvalFault) : Matches R (.error e) (.error e)

namespace Matches

variable {α β γ δ : Type} {R : α → β → Prop} {S : γ → δ → Prop}

/-- Related values are related outcomes. -/
theorem pure {a : α} {b : β} (h : R a b) : Matches R (Pure.pure a) (Pure.pure b) := .value h

/-- One evaluation after the other. -/
theorem bind {x : Evaluated α} {y : Evaluated β} {f : α → Evaluated γ} {g : β → Evaluated δ}
    (h : Matches R x y) (hf : ∀ a b, R a b → Matches S (f a) (g b)) :
    Matches S (x >>= f) (y >>= g) := by
  cases h with
  | value h => exact hf _ _ h
  | fault e => exact .fault e

/-- Two evaluations after one that both have in common. -/
theorem bind_same (x : Evaluated α) {f : α → Evaluated γ} {g : α → Evaluated δ}
    (hf : ∀ a, Matches S (f a) (g a)) : Matches S (x >>= f) (x >>= g) := by
  cases x with
  | ok a => exact hf a
  | error e => exact .fault e

/-- A test that both sides share chooses among related outcomes. -/
theorem ite {b : Prop} [Decidable b] {x x' : Evaluated α} {y y' : Evaluated β}
    (h : Matches R x y) (h' : Matches R x' y') :
    Matches R (if b then x else x') (if b then y else y') := by
  split
  · exact h
  · exact h'

end Matches

/-- The values hold the same data, or the same code of the language with receivers that are
alike. -/
inductive Value.Alike {H K : Host} : Value H → Value K → Prop
  | none : Alike .none .none
  | number (x : Float) : Alike (.number x) (.number x)
  | vector (xs : List Float) : Alike (.vector xs) (.vector xs)
  | string (s : String) : Alike (.string s) (.string s)
  | library (f : LibraryFunction) (n : Nat) :
      Alike (.function (.library f n)) (.function (.library f n))
  | vectorMethod (m : VectorMethod) {v : Value H} {w : Value K} (h : Alike v w) :
      Alike (.bound (.vector m) v) (.bound (.vector m) w)
  | stringMethod (m : StringMethod) {v : Value H} {w : Value K} (h : Alike v w) :
      Alike (.bound (.string m) v) (.bound (.string m) w)

variable {H K : Host}

namespace Value

/-- A truth value is alike in both hosts. -/
theorem alike_ofBool (b : Bool) : (ofBool b : Value H).Alike (ofBool b : Value K) := by
  cases b
  · exact .none
  · exact .number 1

/-- A literal stands for alike values in both hosts. -/
theorem alike_literal (v : Literal) : (v.value : Value H).Alike (v.value : Value K) := by
  cases v with
  | number x => exact .number x
  | string s => exact .string s
  | none => exact .none

namespace Alike

variable {v v' : Value H} {w w' : Value K}

/-- In one host, only a value itself is alike to it. -/
theorem eq {u : Value H} (h : v.Alike u) : v = u := by
  induction h with
  | none | number | vector | string | library => rfl
  | vectorMethod m _ ih | stringMethod m _ ih => rw [ih]

/-- Alike values have the same text. -/
theorem text_eq (h : v.Alike w) : v.text = w.text := by
  cases h <;> rfl

/-- Alike values are true or false alike. -/
theorem isTrue_eq (h : v.Alike w) : v.isTrue = w.isTrue := by
  cases h <;> rfl

/-- Values are equal if and only if those that they are alike to are. -/
theorem equal_eq (h : v.Alike w) (h' : v'.Alike w') : v.equal v' = w.equal w' := by
  -- Only two bound methods of one type ask for the receivers.
  induction h generalizing v' w' with
  | none | number | vector | string => cases h' <;> rfl
  | library f n =>
    cases h' with
    | library g k => simp [equal]
    | _ => rfl
  | vectorMethod m h ih =>
    cases h' with
    | vectorMethod m' h' => simp [equal, ih h']
    | _ => simp [equal]
  | stringMethod m h ih =>
    cases h' with
    | stringMethod m' h' => simp [equal, ih h']
    | _ => simp [equal]

/-- Alike values are read as the same number, or refused alike. -/
theorem asNumber_eq (h : v.Alike w) : v.asNumber = w.asNumber := by
  cases h <;> rfl

/-- Alike values are read as the same vector, or refused alike. -/
theorem asVector_eq (h : v.Alike w) : v.asVector = w.asVector := by
  cases h <;> rfl

/-- Alike values are read as the same text, or refused alike. -/
theorem asString_eq (h : v.Alike w) : v.asString = w.asString := by
  cases h <;> rfl

end Alike

end Value

open Value

/-! ## Reading arguments -/

/-- A component of a vector is the same in both hosts. -/
theorem component_matches (xs : List Float) (i : Nat) (p : Position) :
    Matches Alike (component (H := H) xs i p) (component (H := K) xs i p) := by
  unfold component
  cases xs[i]? with
  | some x => exact .value (.number x)
  | none => exact .fault _

/-- The values of two lists are alike, one after the other. -/
abbrev AlikeAll (vs : List (Value H)) (ws : List (Value K)) : Prop := List.Forall₂ Alike vs ws

variable {args : List (Value H)} {args' : List (Value K)} {v : Value H} {w : Value K}

namespace Arguments

/-- Alike lists of arguments have alike arguments at every place, or none. -/
theorem getElem?_alike (h : AlikeAll args args') (i : Nat) :
    Option.Rel Alike args[i]? args'[i]? := by
  induction h generalizing i with
  | nil => exact .none
  | cons hv _ ih =>
    cases i with
    | zero => exact .some hv
    | succ i => exact ih i

/-- Alike lists of arguments lack the same arguments. -/
theorem get_matches (h : AlikeAll args args') (i : Nat) (p : Position) :
    Matches Alike (get args i p) (get args' i p) := by
  have hi := getElem?_alike h i
  unfold get
  generalize args[i]? = x, args'[i]? = y at hi
  cases hi with
  | some h => exact .value h
  | none => exact .fault _

/-- What is read of an argument is the same in both lists. -/
theorem read_eq {α : Type} {f : Value H → Evaluated α} {g : Value K → Evaluated α}
    (hf : ∀ v w, v.Alike w → f v = g w) (h : AlikeAll args args') (i : Nat) (p : Position) :
    (get args i p >>= f) = (get args' i p >>= g) := by
  have hi := get_matches h i p
  revert hi
  generalize get args i p = x, get args' i p = y
  rintro (h | e)
  · exact hf _ _ h
  · rfl

/-- An argument of alike lists is read as the same number. -/
theorem number_eq (h : AlikeAll args args') : number args = number args' := by
  funext i p
  exact read_eq (fun v w hv => congrFun hv.asNumber_eq p) h i p

/-- An argument of alike lists is read as the same vector. -/
theorem vector_eq (h : AlikeAll args args') : vector args = vector args' := by
  funext i p
  exact read_eq (fun v w hv => congrFun hv.asVector_eq p) h i p

/-- An argument of alike lists is read as the same text. -/
theorem string_eq (h : AlikeAll args args') : string args = string args' := by
  funext i p
  exact read_eq (fun v w hv => congrFun hv.asString_eq p) h i p

/-- Alike lists of arguments are read as the same numbers. -/
theorem numbers_eq (h : AlikeAll args args') : numbers args = numbers args' := by
  funext p
  unfold numbers
  induction h with
  | nil => rfl
  | cons hv _ ih => rw [List.mapM_cons, List.mapM_cons, hv.asNumber_eq, ih]

end Arguments

/-! ## Operators -/

/-- An operator takes alike operands to alike outcomes. -/
theorem UnaryOp.apply_matches (op : UnaryOp) (h : v.Alike w) (p : Position) :
    Matches Alike (op.apply v p) (op.apply w p) := by
  unfold UnaryOp.apply
  rw [h.asNumber_eq, h.isTrue_eq]
  cases op with
  | negate => exact .bind_same _ fun x => .pure (.number _)
  | logicalNot => exact .pure (alike_ofBool _)
  | complement =>
    exact .bind_same _ fun x => .bind_same _ fun n => .bind_same _ fun y => .pure (.number y)

namespace BinaryOp

variable {v' : Value H} {w' : Value K}

/-- Alike operands have the same sum, difference, product, quotient and remainder. -/
theorem calculate_matches (op : BinaryOp) (h : v.Alike w) (h' : v'.Alike w') (p : Position) :
    Matches Alike (op.calculate v v' p) (op.calculate w w' p) := by
  unfold calculate
  rw [h.asNumber_eq, h'.asNumber_eq]
  refine .bind_same _ fun x => .bind_same _ fun y => ?_
  cases op.arithmetic? with
  | some f => exact .pure (.number _)
  | none => exact .fault _

/-- Alike operands are compared with the same outcome. -/
theorem compare_matches (op : BinaryOp) (h : v.Alike w) (h' : v'.Alike w') (p : Position) :
    Matches Alike (op.compare v v' p) (op.compare w w' p) := by
  have hnumbers : ∀ f : Float → Float → Bool, Matches Alike
      (do return .ofBool (f (← v.asNumber p) (← v'.asNumber p)) : Evaluated (Value H))
      (do return .ofBool (f (← w.asNumber p) (← w'.asNumber p)) : Evaluated (Value K)) := by
    intro f
    rw [h.asNumber_eq, h'.asNumber_eq]
    exact .bind_same _ fun x => .bind_same _ fun y => .pure (alike_ofBool _)
  unfold compare
  rw [h.equal_eq h']
  cases op with
  | equal | notEqual => exact .pure (alike_ofBool _)
  | greater | greaterEqual | less | lessEqual => exact hnumbers _
  | add | subtract | multiply | divide | remainder | and | or => exact .fault _

/-- An operator between two operands takes alike ones to alike outcomes. -/
theorem apply_matches (op : BinaryOp) (h : v.Alike w) (h' : v'.Alike w') (p : Position) :
    Matches Alike (op.apply v v' p) (op.apply w w' p) := by
  have harithmetic := op.calculate_matches h h' p
  have hcomparison := op.compare_matches h h' p
  cases op with
  | add | subtract | multiply | divide | remainder => exact harithmetic
  | equal | notEqual | greater | greaterEqual | less | lessEqual => exact hcomparison
  | and | or =>
    refine .value ?_
    unfold select leftDecides
    rw [h.isTrue_eq]
    split
    · exact h
    · exact h'

end BinaryOp

/-! ## The library -/

namespace LibraryFunction

/-- A function of one number has alike outcomes on alike arguments. -/
theorem onNumber_matches (f : Float → Float) (h : AlikeAll args args') (p : Position) :
    Matches Alike (onNumber f args p) (onNumber f args' p) := by
  unfold onNumber
  rw [Arguments.number_eq h]
  exact .bind_same _ fun x => .pure (.number _)

/-- Choosing one of the arguments has alike outcomes on alike arguments. -/
theorem choose_matches (pick : Float → Float → Float) (h : AlikeAll args args') (p : Position) :
    Matches Alike (choose pick args p) (choose pick args' p) := by
  unfold choose
  rw [Arguments.numbers_eq h]
  refine .bind_same _ fun xs => ?_
  cases xs with
  | nil => exact .fault _
  | cons x xs => exact .pure (.number _)

/-- Interpolation, of numbers or of vectors, has alike outcomes on alike arguments. -/
theorem interpolate_matches (h : AlikeAll args args') (p : Position) :
    Matches Alike (interpolate args p) (interpolate args' p) := by
  have hnumbers : ∀ (t : Float) {a b : Value H} {a' b' : Value K}, a.Alike a' → b.Alike b' →
      Matches (Alike (H := H) (K := K))
        (do return .number (between (← a.asNumber p) (← b.asNumber p) t))
        (do return .number (between (← a'.asNumber p) (← b'.asNumber p) t)) := by
    intro t a b a' b' ha hb
    rw [ha.asNumber_eq, hb.asNumber_eq]
    exact .bind_same _ fun x => .bind_same _ fun y => .pure (.number _)
  unfold interpolate
  rw [Arguments.number_eq h]
  refine .bind_same _ fun t => ?_
  refine (Arguments.get_matches h 0 p).bind fun a a' ha => ?_
  refine (Arguments.get_matches h 1 p).bind fun b b' hb => ?_
  have hab := hnumbers t ha hb
  cases ha with
  | vector xs =>
    cases hb with
    | vector ys => exact .ite (.pure (.vector _)) (.fault _)
    | _ => exact hab
  | _ => exact hab

/-- Moving a number into a range has alike outcomes on alike arguments. -/
theorem confine_matches (h : AlikeAll args args') (p : Position) :
    Matches Alike (confine args p) (confine args' p) := by
  unfold confine
  rw [Arguments.number_eq h]
  refine .bind_same _ fun x => .bind_same _ fun low => .bind_same _ fun high => ?_
  exact .ite (.fault _) (.pure (.number _))

/-- Alike arguments make up the same vector. -/
theorem makeVector_matches (h : AlikeAll args args') (p : Position) :
    Matches Alike (makeVector args p) (makeVector args' p) := by
  have hnumbers : Matches (Alike (H := H) (K := K))
      (do return .vector (← Arguments.numbers args p))
      (do return .vector (← Arguments.numbers args' p)) := by
    rw [Arguments.numbers_eq h]
    exact .bind_same _ fun xs => .pure (.vector _)
  cases h with
  | nil => exact hnumbers
  | cons hv hvs =>
    cases hvs with
    | nil =>
      cases hv with
      | string s => exact .bind_same _ fun xs => .pure (.vector _)
      | _ => exact hnumbers
    | cons _ _ => cases hv <;> exact hnumbers

/-- Alike arguments have the same length, or none. -/
theorem measure_matches (h : AlikeAll args args') (p : Position) :
    Matches Alike (measure args p) (measure args' p) := by
  refine (Arguments.get_matches h 0 p).bind fun v w hv => ?_
  cases hv with
  | vector xs | string s => exact .bind_same _ fun x => .pure (.number _)
  | _ => exact .fault _

/-- Alike arguments are converted to the same number. -/
theorem toNumber_matches (h : AlikeAll args args') (p : Position) :
    Matches Alike (toNumber args p) (toNumber args' p) := by
  refine (Arguments.get_matches h 0 p).bind fun v w hv => ?_
  cases hv with
  | number x => exact .pure (.number _)
  | string s => exact .bind_same _ fun x => .pure (.number _)
  | _ => exact .fault _

/-- An assertion passes on alike arguments, or fails with the same message. -/
theorem affirm_matches (h : AlikeAll args args') (p : Position) :
    Matches Alike (affirm args p) (affirm args' p) := by
  refine (Arguments.get_matches h 0 p).bind fun v w hv => ?_
  rw [hv.isTrue_eq]
  exact .ite (.pure hv) (.fault _)

/-- A function of the library makes values that are alike of such values. -/
theorem run_matches (f : LibraryFunction) (h : AlikeAll args args') (p : Position) :
    Matches Alike (f.run args p) (f.run args' p) := by
  cases f with
  | atan2 =>
    unfold run
    rw [Arguments.number_eq h]
    exact .bind_same _ fun y => .bind_same _ fun x => .pure (.number _)
  | lerp => exact interpolate_matches h p
  | min | max => exact choose_matches _ h p
  | clamp => exact confine_matches h p
  | vec => exact makeVector_matches h p
  | len => exact measure_matches h p
  | str =>
    refine (Arguments.get_matches h 0 p).bind fun v w hv => ?_
    rw [hv.text_eq]
    exact .pure (.string _)
  | num => exact toNumber_matches h p
  | assert => exact affirm_matches h p
  | abs | floor | ceil | round | trunc | sqrt | sin | cos | tan | radians | degrees | sign =>
    exact onNumber_matches _ h p

end LibraryFunction

/-! ## Methods -/

/-- A method of vectors has alike outcomes on alike receivers and arguments. -/
theorem VectorMethod.run_matches (m : VectorMethod) (hv : v.Alike w) (h : AlikeAll args args')
    (p : Position) : Matches Alike (m.run v args p) (m.run w args' p) := by
  unfold VectorMethod.run
  rw [hv.asVector_eq, Arguments.vector_eq h]
  cases m with
  | normalized => exact .bind_same _ fun xs => .pure (.vector _)
  | dot =>
    refine .bind_same _ fun xs => .bind_same _ fun ys => ?_
    exact .ite (.pure (.number _)) (.fault _)

/-- A method of texts has alike outcomes on alike receivers and arguments. -/
theorem StringMethod.run_matches (m : StringMethod) (hv : v.Alike w) (h : AlikeAll args args')
    (p : Position) : Matches Alike (m.run v args p) (m.run w args' p) := by
  have hsecond := Arguments.getElem?_alike h 1
  unfold StringMethod.run
  rw [hv.asString_eq, Arguments.string_eq h, Arguments.number_eq h]
  refine .bind_same _ fun s => ?_
  cases m with
  | upper | lower | trim => exact .pure (.string _)
  | contains | startsWith | endsWith => exact .bind_same _ fun t => .pure (alike_ofBool _)
  | replace => exact .bind_same _ fun s => .bind_same _ fun t => .pure (.string _)
  | substr =>
    refine .bind_same _ fun x => .bind_same _ fun start => ?_
    generalize args[1]? = a, args'[1]? = b at hsecond
    cases hsecond with
    | none => exact .pure (.string _)
    | some hab =>
      dsimp only
      rw [hab.asNumber_eq]
      exact .bind_same _ fun y => .bind_same _ fun count => .pure (.string _)

end MapExpr
