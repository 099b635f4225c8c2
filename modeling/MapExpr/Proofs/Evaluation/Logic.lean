import MapExpr.Entities
import MapExpr.Proofs.Evaluation.Eager
import MapExpr.Proofs.Evaluation.Names

/-!
# The laws of the logical operators

`and`, `or`, `!` and the conditional are operations on outcomes: they look at the outcome of their
first operand, and at that of another one only where the first one does not decide. `and` and `or`
give back the value of an operand as it is.

These operations obey the laws of a Boolean algebra, and not up to truth but exactly: both sides of
a law have the same value or the same fault (`boolean_laws`). What makes the laws hold with faults
is that the operand in front is evaluated first on both sides, and that it has its outcome again
where a side evaluates it a second time. A law that puts another operand in front does not hold.
-/

namespace MapExpr

variable {H : Host}

/-! ## Operations on outcomes -/

namespace Evaluated

/-- The right outcome if the left one is a true value, and else the left one. -/
def and (x y : Evaluated (Value H)) : Evaluated (Value H) := do
  let v ← x
  if v.isTrue then y else return v

/-- The left outcome if it is a true value or a fault, and else the right one. -/
def or (x y : Evaluated (Value H)) : Evaluated (Value H) := do
  let v ← x
  if v.isTrue then return v else y

/-- The opposite truth value. -/
def not (x : Evaluated (Value H)) : Evaluated (Value H) := do
  let v ← x
  return .ofBool (!v.isTrue)

/-- The second outcome if the first one is a true value, and the third one if it is a false
value. -/
def choose (x y z : Evaluated (Value H)) : Evaluated (Value H) := do
  let v ← x
  if v.isTrue then y else z

variable {v : Value H} (x y z : Evaluated (Value H))

/-- After a true value `and` is its right operand. -/
theorem and_of_isTrue (h : v.isTrue) : and (.ok v) y = y := if_pos h

/-- After a true value `or` is decided. -/
theorem or_of_isTrue (h : v.isTrue) : or (.ok v) y = .ok v := if_pos h

/-- Under a true condition the first branch is taken. -/
theorem choose_of_isTrue (h : v.isTrue) : choose (.ok v) y z = y := if_pos h

/-- The opposite of a true value is the false one. -/
theorem not_of_isTrue (h : v.isTrue) : not (.ok v) = .ok .none := by
  show Except.ok (Value.ofBool (!v.isTrue)) = _
  rw [h]
  rfl

/-- An outcome is a fault, or the only false value, or a true value. -/
theorem cases_isTrue :
    (∃ e, x = .error e) ∨ x = .ok .none ∨ ∃ v : Value H, v.isTrue ∧ x = .ok v := by
  cases x with
  | error e => exact .inl ⟨e, rfl⟩
  | ok v =>
    cases v with
    | none => exact .inr (.inl rfl)
    | number _ | vector _ | string _ | function _ | bound _ _ | object _ =>
      exact .inr (.inr ⟨_, rfl, rfl⟩)

/-! Each law is looked at for the three outcomes of the operand in front. With a fault or with the
false value both sides can be computed, whatever the other operands are. -/

/-- How a chain of `and` is grouped does not matter. -/
theorem and_assoc : and (and x y) z = and x (and y z) := by
  obtain ⟨e, rfl⟩ | rfl | ⟨v, hv, rfl⟩ := cases_isTrue x
  · rfl
  · rfl
  · rw [and_of_isTrue y hv, and_of_isTrue _ hv]

/-- How a chain of `or` is grouped does not matter. -/
theorem or_assoc : or (or x y) z = or x (or y z) := by
  obtain ⟨e, rfl⟩ | rfl | ⟨v, hv, rfl⟩ := cases_isTrue x
  · rfl
  · rfl
  · rw [or_of_isTrue y hv, or_of_isTrue z hv, or_of_isTrue _ hv]

/-- Negation turns `and` into `or`. -/
theorem not_and : not (and x y) = or (not x) (not y) := by
  obtain ⟨e, rfl⟩ | rfl | ⟨v, hv, rfl⟩ := cases_isTrue x
  · rfl
  · rfl
  · rw [and_of_isTrue y hv, not_of_isTrue hv]
    rfl

/-- Negation turns `or` into `and`. -/
theorem not_or : not (or x y) = and (not x) (not y) := by
  obtain ⟨e, rfl⟩ | rfl | ⟨v, hv, rfl⟩ := cases_isTrue x
  · rfl
  · rfl
  · rw [or_of_isTrue y hv, not_of_isTrue hv]
    rfl

/-- From the left, `and` distributes over `or`. -/
theorem and_or_distrib : and x (or y z) = or (and x y) (and x z) := by
  obtain ⟨e, rfl⟩ | rfl | ⟨v, hv, rfl⟩ := cases_isTrue x
  · rfl
  · rfl
  · rw [and_of_isTrue _ hv, and_of_isTrue y hv, and_of_isTrue z hv]

/-- From the left, `or` distributes over `and`. -/
theorem or_and_distrib : or x (and y z) = and (or x y) (or x z) := by
  obtain ⟨e, rfl⟩ | rfl | ⟨v, hv, rfl⟩ := cases_isTrue x
  · rfl
  · rfl
  · rw [or_of_isTrue _ hv, or_of_isTrue y hv, or_of_isTrue z hv, and_of_isTrue _ hv]

/-- An `or` with the same left operand is absorbed by `and`. -/
theorem and_or_self : and x (or x y) = x := by
  obtain ⟨e, rfl⟩ | rfl | ⟨v, hv, rfl⟩ := cases_isTrue x
  · rfl
  · rfl
  · rw [and_of_isTrue _ hv, or_of_isTrue y hv]

/-- An `and` with the same left operand is absorbed by `or`. -/
theorem or_and_self : or x (and x y) = x := by
  obtain ⟨e, rfl⟩ | rfl | ⟨v, hv, rfl⟩ := cases_isTrue x
  · rfl
  · rfl
  · rw [or_of_isTrue _ hv]

/-- A negated condition swaps the branches. -/
theorem choose_not : choose (not x) y z = choose x z y := by
  obtain ⟨e, rfl⟩ | rfl | ⟨v, hv, rfl⟩ := cases_isTrue x
  · rfl
  · rfl
  · rw [not_of_isTrue hv, choose_of_isTrue _ _ hv]
    rfl

end Evaluated

/-! ## Expressions -/

namespace Context

variable (c : Context H) (e f g : Expr) (p : Position)

/-- In a tree `and` is the operation on the outcomes of its operands. -/
theorem eval_and : c.eval (.binary .and e f p) = .and (c.eval e) (c.eval f) := by
  rw [eval_logical (.inl rfl)]
  refine bind_congr fun v => ?_
  cases h : v.isTrue <;> simp [BinaryOp.leftDecides, h]

/-- In a tree `or` is the operation on the outcomes of its operands. -/
theorem eval_or : c.eval (.binary .or e f p) = .or (c.eval e) (c.eval f) := by
  rw [eval_logical (.inr rfl)]
  refine bind_congr fun v => ?_
  cases h : v.isTrue <;> simp [BinaryOp.leftDecides, h]

/-- In a tree `!` is the operation on the outcome of its operand. -/
theorem eval_not : c.eval (.unary .logicalNot e p) = .not (c.eval e) := by
  rw [eval]
  rfl

/-- A conditional in a tree is the operation on the outcomes of its three parts. -/
theorem eval_conditional :
    c.eval (.conditional e f g p) = .choose (c.eval e) (c.eval f) (c.eval g) := by
  rw [eval]
  rfl

/-- The two expressions have one outcome in the context, a value or a fault with its place, be they
evaluated as they stand or as trees that are built by hand. -/
structure SameOutcome (c : Context H) (e f : Expr) : Prop where
  eval : c.eval e = c.eval f
  evalTree : c.registry.IgnoresPaths → c.evalTree e = c.evalTree f

variable {c e f} in
/-- One value in the tree as it stands is enough, since ways are not looked at. -/
theorem sameOutcome_of_eval (h : c.eval e = c.eval f) : c.SameOutcome e f where
  eval := h
  evalTree hr := by rw [evalTree_eq_eval hr, evalTree_eq_eval hr, h]

/-- Both logical operators are associative, `!` exchanges them, each distributes over the other and
absorbs it, and a negated condition exchanges the branches. The outcomes of both sides are the same
for all operands, whether these have values or fail and wherever the operators stand. -/
theorem boolean_laws (c : Context H) (a b d : Expr) (p q r s t : Position) :
    c.SameOutcome (.binary .and (.binary .and a b p) d q)
      (.binary .and a (.binary .and b d r) s) ∧
    c.SameOutcome (.binary .or (.binary .or a b p) d q)
      (.binary .or a (.binary .or b d r) s) ∧
    c.SameOutcome (.unary .logicalNot (.binary .and a b p) q)
      (.binary .or (.unary .logicalNot a r) (.unary .logicalNot b s) t) ∧
    c.SameOutcome (.unary .logicalNot (.binary .or a b p) q)
      (.binary .and (.unary .logicalNot a r) (.unary .logicalNot b s) t) ∧
    c.SameOutcome (.binary .and a (.binary .or b d p) q)
      (.binary .or (.binary .and a b r) (.binary .and a d s) t) ∧
    c.SameOutcome (.binary .or a (.binary .and b d p) q)
      (.binary .and (.binary .or a b r) (.binary .or a d s) t) ∧
    c.SameOutcome (.binary .and a (.binary .or a b p) q) a ∧
    c.SameOutcome (.binary .or a (.binary .and a b p) q) a ∧
    c.SameOutcome (.conditional a b d p) (.conditional (.unary .logicalNot a q) d b r) := by
  refine ⟨?_, ?_, ?_, ?_, ?_, ?_, ?_, ?_, ?_⟩ <;> refine sameOutcome_of_eval ?_ <;>
    simp only [eval_and, eval_or, eval_not, eval_conditional]
  · exact Evaluated.and_assoc _ _ _
  · exact Evaluated.or_assoc _ _ _
  · exact Evaluated.not_and _ _
  · exact Evaluated.not_or _ _
  · exact Evaluated.and_or_distrib _ _ _
  · exact Evaluated.or_and_distrib _ _ _
  · exact Evaluated.and_or_self _ _
  · exact Evaluated.or_and_self _ _
  · exact (Evaluated.choose_not _ _ _).symm

/-- Points that are told apart by the place of the call that made them: the calls in
`a and (a or x)` stand at one place, so the tree has the value of `a`, which is the same point. -/
theorem boolean_laws_points :
    let r : Registry Entities.host :=
      { Entities.registry "Point" 0 with
        callMethod _ v args site := Entities.offset "Point" 0 v args (.ofPosition site.position) }
    let c : Context Entities.host :=
      ((empty r).bind "p" (.object ⟨.given 0, .point 1 2 3⟩)).bind "d" (.vector [4, 5, 6])
    let a : Expr := .call (.member (.var "p" ⟨1, 0⟩) "offset" ⟨1, 1⟩) [.var "d" ⟨1, 9⟩]
      (.ofPosition ⟨1, 8⟩)
    let b : Expr := .unary .negate (.var "x" ⟨1, 17⟩) ⟨1, 16⟩
    let point : Value Entities.host :=
      .object ⟨.made 0 (.ofPosition ⟨1, 8⟩), .point (1 + 4) (2 + 5) (3 + 6)⟩
    c.registry.IgnoresPaths ∧
    c.evalTree (.binary .and a (.binary .or a b ⟨1, 14⟩) ⟨1, 12⟩) = c.evalTree a ∧
    c.evalTree a = .ok point ∧
    c.evalTree (.unary .logicalNot (.binary .and a b ⟨1, 14⟩) ⟨1, 12⟩)
      = c.evalTree (.binary .or (.unary .logicalNot a ⟨1, 12⟩) (.unary .logicalNot b ⟨1, 12⟩)
          ⟨1, 12⟩) ∧
    c.evalTree (.unary .logicalNot (.binary .and a b ⟨1, 14⟩) ⟨1, 12⟩)
      = .error ⟨.expectedNumber .none, ⟨1, 16⟩⟩ := by
  intro r c a b point
  have hr : c.registry.IgnoresPaths := by
    refine ⟨nofun, fun m v args s t h => ?_⟩
    show Entities.offset "Point" 0 v args (.ofPosition s.position) = _
    rw [h]
    rfl
  obtain ⟨-, -, hnot, -, -, -, habsorb, -⟩ :=
    boolean_laws c a b a ⟨1, 14⟩ ⟨1, 12⟩ ⟨1, 12⟩ ⟨1, 12⟩ ⟨1, 12⟩
  exact ⟨hr, habsorb.evalTree hr, rfl, hnot.evalTree hr, rfl⟩

/-- Exchanging the operands of `and` is no law: the first fault is another one. -/
example :
    let c : Context Host.bare := .empty .bare
    let a : Expr := .unary .negate (.var "x" ⟨1, 1⟩) ⟨1, 0⟩
    let b : Expr := .unary .negate (.var "x" ⟨1, 9⟩) ⟨1, 8⟩
    c.eval (.binary .and a b ⟨1, 3⟩) = .error ⟨.expectedNumber .none, ⟨1, 0⟩⟩ ∧
    c.eval (.binary .and b a ⟨1, 3⟩) = .error ⟨.expectedNumber .none, ⟨1, 8⟩⟩ :=
  ⟨rfl, rfl⟩

end Context

end MapExpr
