import MapExpr.Operation
import MapExpr.Proofs.Number.Conversion
import MapExpr.Proofs.Safety.Breach

/-!
# Casts keep their numbers, and ranges are in order

A float that is read as an index or as a whole number is compared with the bounds of the safe
numbers as a float, and then cast to a word. A whole number is compared with them as a whole
number, and then cast to a float. After such a comparison the cast changes nothing, and the
complement of a whole number is held by a word (`asIndexChecked_eq`, `complementChecked_eq`,
`exactlyChecked_eq`).

A number is moved into a range only if the bounds are in order and neither is a NaN
(`confineChecked_eq`).
-/

namespace MapExpr

namespace Number

/-! ## Casts -/

/-- A float cast to a word without a sign. -/
def castUnsigned (x : Float) : Guarded Nat :=
  match toInt? x with
  | some (.ofNat n) => if n < Word.limit then .ok n else .error .lossyCast
  | _ => .error .lossyCast

/-- Whether a word with a sign holds a whole number. -/
def inSigned (n : Int) : Bool := -(Nat.pow 2 63 : Nat) ≤ n && n < (Nat.pow 2 63 : Nat)

/-- A float cast to a word with a sign. -/
def castSigned (x : Float) : Guarded Int :=
  match toInt? x with
  | some n => if inSigned n then .ok n else .error .lossyCast
  | none => .error .lossyCast

/-- A whole number cast to a float. -/
def castFloat (n : Int) : Guarded Float :=
  if toInt? (ofInt n) = some n then .ok (ofInt n) else .error .lossyCast

/-- A number read as an index. -/
def asIndexChecked (x : Float) (p : Position) : Checked Nat := do
  if !isWhole x || x < 0 || ofInt maxSafe < x then throw ⟨.invalidIndex x, p⟩
  else castUnsigned x

/-- A number read as a whole number. -/
def asIntChecked (x : Float) (p : Position) : Checked Int := do
  if !isWhole x || ofInt maxSafe < x.abs then throw ⟨.notWhole x, p⟩
  else castSigned x

/-- A whole number as a float. -/
def exactlyChecked (n : Int) (p : Position) : Checked Float := do
  if maxSafe < n.natAbs then throw ⟨.tooLarge n, p⟩
  else castFloat n

/-- The complement of a word with a sign. -/
def complement (n : Int) : Guarded Int :=
  if inSigned (-n - 1) then .ok (-n - 1) else .error .overflow

/-- A safe index is cast to the word that holds it. -/
theorem castUnsigned_eq {x : Float} {n : Nat} (h : toInt? x = some (n : Int)) (hn : n ≤ maxSafe) :
    castUnsigned x = .ok n := by
  have hlt : n < Word.limit := Nat.lt_of_le_of_lt hn (by decide)
  rw [castUnsigned, h]
  exact if_pos hlt

/-- A word with a sign holds every safe whole number, and the next one on either side. -/
theorem inSigned_of_natAbs_le {n : Int} (h : n.natAbs ≤ maxSafe + 1) : inSigned n = true := by
  have hlt : (maxSafe + 1 : Nat) < Nat.pow 2 63 := by decide
  rw [inSigned, Bool.and_eq_true, decide_eq_true_eq, decide_eq_true_eq]
  omega

/-- A safe whole number is cast to the word that holds it. -/
theorem castSigned_eq {x : Float} {n : Int} (h : toInt? x = some n) (hn : n.natAbs ≤ maxSafe) :
    castSigned x = .ok n := by
  rw [castSigned, h]
  exact if_pos (inSigned_of_natAbs_le (Nat.le_succ_of_le hn))

/-- A float that is read as an index is compared with the bounds first, and then cast without
loss. -/
theorem asIndexChecked_eq (x : Float) (p : Position) :
    asIndexChecked x p = .ofEvaluated (asIndex x p) := by
  rw [asIndexChecked, asIndex]
  cases h : toIndex? x with
  | none =>
    rw [if_pos (toIndex?_eq_none_iff.1 h)]
    rfl
  | some k =>
    obtain ⟨hk, hle⟩ := toIndex?_eq_some_iff.1 h
    rw [if_neg (not_refused_of_toIndex? h), castUnsigned_eq hk hle]
    rfl

/-- A float that is read as a whole number is compared with the bounds first, and then cast without
loss. -/
theorem asIntChecked_eq (x : Float) (p : Position) :
    asIntChecked x p = .ofEvaluated (asInt x p) := by
  rw [asIntChecked, asInt]
  cases h : toSafeInt? x with
  | none =>
    rw [if_pos (toSafeInt?_eq_none_iff.1 h)]
    rfl
  | some n =>
    obtain ⟨hn, hle⟩ := toSafeInt?_eq_some_iff.1 h
    rw [if_neg (not_refused_of_toSafeInt? h), castSigned_eq hn hle]
    rfl

/-- A whole number that is not too large is kept by the cast. -/
theorem exactlyChecked_eq (n : Int) (p : Position) :
    exactlyChecked n p = .ofEvaluated (exactly n p) := by
  rw [exactlyChecked, exactly, ofSafeInt?]
  by_cases hn : n.natAbs ≤ maxSafe
  · rw [if_neg (Nat.not_lt.2 hn), if_pos hn, castFloat, if_pos (toInt?_ofInt hn)]
    rfl
  · rw [if_pos (Nat.lt_of_not_le hn), if_neg hn]
    rfl

end Number

variable {H : Host}

/-- The complement of a whole number. -/
def complementChecked (v : Value H) (p : Position) : Checked (Value H) := do
  let x ← .ofEvaluated (v.asNumber p)
  let n ← Number.asIntChecked x p
  let m ← ExceptT.lift (Number.complement n)
  return .number (← Number.exactlyChecked m p)

/-- The complement of a safe number is held by a word. -/
theorem complementChecked_eq (v : Value H) (p : Position) :
    complementChecked v p = .ofEvaluated (UnaryOp.complement.apply v p) := by
  simp only [complementChecked, UnaryOp.apply, Checked.ofEvaluated_bind, Number.asIntChecked_eq]
  refine bind_congr fun x => ?_
  cases h : Number.asInt x p with
  | error e => rfl
  | ok n =>
    have hn := (Number.asInt_eq_ok_iff.1 h).2
    have hword : Number.complement n = .ok (-n - 1) :=
      if_pos (Number.inSigned_of_natAbs_le (by omega))
    rw [Checked.ofEvaluated_ok, pure_bind, pure_bind, hword, Checked.lift_ok, pure_bind,
      Number.exactlyChecked_eq]
    rfl

/-! ## Ranges -/

/-- Moves a number into a range, which must not be empty. -/
def clampChecked (low high x : Float) : Guarded Float :=
  if low ≤ high then .ok (Number.clamp low high x) else .error .emptyRange

namespace LibraryFunction

variable {args : List (Value H)}

/-- Moves a number into a range, after a look at the bounds. -/
def confineChecked (args : List (Value H)) (p : Position) : Checked (Value H) := do
  let x ← .ofEvaluated (Arguments.number args 0 p)
  let low ← .ofEvaluated (Arguments.number args 1 p)
  let high ← .ofEvaluated (Arguments.number args 2 p)
  if low.isNaN || high.isNaN || low > high then throw ⟨.emptyRange low high, p⟩
  else return .number (← clampChecked low high x)

/-- A number is moved into a range only if its bounds are in order. -/
theorem confineChecked_eq (args : List (Value H)) (p : Position) :
    confineChecked args p = .ofEvaluated (confine args p) := by
  simp only [confineChecked, confine, Checked.ofEvaluated_bind]
  refine bind_congr fun x => bind_congr fun low => bind_congr fun high => ?_
  split
  · rfl
  · next h =>
    simp only [Bool.or_eq_true, decide_eq_true_eq, not_or, Bool.not_eq_true] at h
    obtain ⟨⟨hlow, hhigh⟩, hle⟩ := h
    rw [clampChecked, if_pos (Number.le_of_not_lt hlow hhigh hle)]
    rfl

/-- The number that is chosen when the first argument is compared with those behind it. -/
def chooseChecked (pick : Float → Float → Float) (args : List (Value H)) (p : Position) :
    Checked (Value H) := do
  let first ← ExceptT.lift (item args 0)
  let x ← .ofEvaluated (first.asNumber p)
  let rest ← ExceptT.lift (itemsFrom args 1)
  let xs ← .ofEvaluated (Arguments.numbers rest p)
  return .number (xs.foldl pick x)

/-- There is a first argument to choose from. -/
theorem chooseChecked_eq (pick : Float → Float → Float) (h : 1 ≤ args.length) (p : Position) :
    chooseChecked pick args p = .ofEvaluated (choose pick args p) := by
  obtain ⟨v, vs, rfl⟩ := List.exists_cons_of_length_pos h
  have hfirst : item (v :: vs) 0 = .ok v := rfl
  have hrest : itemsFrom (v :: vs) 1 = .ok vs := itemsFrom_eq h
  rw [chooseChecked, hfirst, hrest, choose, Arguments.numbers, List.mapM_cons]
  simp only [Checked.lift_ok, pure_bind, bind_assoc, Checked.ofEvaluated_bind]
  rfl

end LibraryFunction

end MapExpr
