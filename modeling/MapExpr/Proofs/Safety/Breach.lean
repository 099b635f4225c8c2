import MapExpr.Token.Scan
import MapExpr.Value.Read

/-!
# Partial operations

A machine holds whole numbers in words of 64 bits, reaches the items of a sequence by their index
and cuts a text at byte offsets, and it orders the bounds of a range before it moves a number into
it. None of these operations is in order for all operands. Here each of them is a function that
looks whether it is, and reports a `Breach` if it is not.

The modules next to this one repeat the parts of the program in which such operations occur, with
the checks put in, and show that no check ever fails: the checked part is `.ok` of the part that
runs.
-/

namespace MapExpr

/-- What must not happen in a run. -/
inductive Breach where
  /-- A place in a sequence that is behind its end. -/
  | outOfRange
  /-- A place in a text that is behind its end or inside a character. -/
  | noBoundary
  /-- A whole number that a word does not hold. -/
  | overflow
  /-- A number that is changed by a cast. -/
  | lossyCast
  /-- Bounds of a range of floats of which the lower one is not at most the upper one. -/
  | emptyRange
deriving DecidableEq

/-- A result, or the breach that prevents it. -/
abbrev Guarded (α : Type) := Except Breach α

/-- A result or a fault of the language, or the breach that prevents both. -/
abbrev Checked (α : Type) := ExceptT (Located EvalFault) Guarded α

namespace Checked

variable {α β : Type}

/-- What can be evaluated without a partial operation. -/
def ofEvaluated (x : Evaluated α) : Checked α := ExceptT.mk (.ok x)

theorem ofEvaluated_ok (a : α) : ofEvaluated (.ok a) = pure a := rfl

/-- One evaluation after the other, neither with a partial operation. -/
theorem ofEvaluated_bind (x : Evaluated α) (f : α → Evaluated β) :
    ofEvaluated (x >>= f) = ofEvaluated x >>= fun a => ofEvaluated (f a) := by
  cases x <;> rfl

/-- A partial operation that is in order. -/
theorem lift_ok (a : α) : ExceptT.lift (.ok a : Guarded α) = (pure a : Checked α) := rfl

end Checked

/-- A computation without a breach is followed by the next one. -/
@[simp] theorem Guarded.ok_bind {α β : Type} (a : α) (f : α → Guarded β) :
    (Except.ok a : Guarded α) >>= f = f a := rfl

/-! ## Words -/

namespace Word

/-- The first whole number that a word does not hold. -/
def limit : Nat := Nat.pow 2 64

/-- The most bytes that a text, and the most items that a sequence can have in memory. -/
def maxExtent : Nat := Nat.pow 2 63 - 1

/-- The sum of two words. -/
def add (a b : Nat) : Guarded Nat :=
  if a + b < limit then .ok (a + b) else .error .overflow

/-- The difference of two words. -/
def sub (a b : Nat) : Guarded Nat :=
  if b ≤ a then .ok (a - b) else .error .overflow

/-- A sum below the limit is computed. -/
theorem add_eq {a b : Nat} (h : a + b < limit) : add a b = .ok (a + b) := if_pos h

/-- A difference that is not negative is computed. -/
theorem sub_eq {a b : Nat} (h : b ≤ a) : sub a b = .ok (a - b) := if_pos h

example : sub 0 1 = .error .overflow := rfl

/-- What is computed is the sum. -/
theorem eq_of_add {a b c : Nat} (h : add a b = .ok c) : c = a + b := by
  unfold add at h
  split at h <;> cases h
  rfl

/-- Twice the extent of what is in memory is held by a word. -/
theorem two_mul_maxExtent_lt : 2 * maxExtent + 1 < limit := by decide

end Word

/-! ## Sequences -/

section Sequences

variable {α : Type}

/-- The item at an index. -/
def item (xs : List α) (i : Nat) : Guarded α :=
  match xs[i]? with
  | some x => .ok x
  | none => .error .outOfRange

/-- The items from an index on. -/
def itemsFrom (xs : List α) (i : Nat) : Guarded (List α) :=
  if i ≤ xs.length then .ok (xs.drop i) else .error .outOfRange

/-- The items in front of an index, and those from it on. -/
def splitOff (xs : List α) (i : Nat) : Guarded (List α × List α) :=
  if i ≤ xs.length then .ok (xs.splitAt i) else .error .outOfRange

/-- An item that is there is found. -/
theorem item_eq {xs : List α} {i : Nat} {x : α} (h : xs[i]? = some x) : item xs i = .ok x := by
  rw [item, h]

example : item [5, 6] 2 = .error .outOfRange := rfl

/-- The items from an index on are found up to the end of the sequence. -/
theorem itemsFrom_eq {xs : List α} {i : Nat} (h : i ≤ xs.length) :
    itemsFrom xs i = .ok (xs.drop i) := if_pos h

/-- A sequence is split where two others were joined. -/
theorem splitOff_append (xs ys : List α) : splitOff (xs ++ ys) xs.length = .ok (xs, ys) := by
  have hlength : xs.length ≤ (xs ++ ys).length := by
    rw [List.length_append]
    exact Nat.le_add_right _ _
  rw [splitOff, if_pos hlength, List.splitAt_eq, List.take_left, List.drop_left]

end Sequences

/-! ## Texts -/

/-- The part of a text behind a byte offset. -/
def textFrom (cs : List Char) (a : Nat) : Guarded (List Char) :=
  match dropBytes? a cs with
  | some ds => .ok ds
  | none => .error .noBoundary

/-- The part of a text between two byte offsets. -/
def textBetween (cs : List Char) (a b : Nat) : Guarded (List Char) :=
  match bytesBetween? cs a b with
  | some ds => .ok ds
  | none => .error .noBoundary

variable {cs ds : List Char} {a b : Nat}

/-- A text is cut where a character begins. -/
theorem textFrom_eq (h : dropBytes? a cs = some ds) : textFrom cs a = .ok ds := by
  rw [textFrom, h]

/-- A text is cut between two places where characters begin. -/
theorem textBetween_eq (h : bytesBetween? cs a b = some ds) : textBetween cs a b = .ok ds := by
  rw [textBetween, h]

example : textBetween ['a', 'é'] 1 2 = .error .noBoundary := rfl

end MapExpr
