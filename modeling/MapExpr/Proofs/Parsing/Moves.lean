import MapExpr.Parse
import MapExpr.Proofs.Grammar.Phrase

/-!
# Single moves of the parser

`reduceOnce` applies a rule exactly if the relation `Rule` relates the two stacks
(`reduceOnce_eq_some_iff`), so that a question about the rules is a question about the constructors
of `Rule`.

`Stack.run` puts a token on the stack, applies all rules that fit and goes on. `Stack.proceed` is
the same from the middle: the rules are applied first. With it a move is an equation: a token that
is not refused is put on the stack (`run_cons`), one rule is applied (`proceed_of_rule`), or no rule
fits and the next token is read (`proceed_eq_run`).

The rest of the module says which rule fits where. A rule is stated on the pieces that it joins and
on whatever lies below them.
-/

namespace MapExpr

/-! ## What the next token holds back

The guards of the rules compare two levels of the grammar: a rule that makes a phrase of level `n`
waits as long as the next token asks for a tighter phrase on its left. `Token.leftLevel` is the
level that a token asks for, and the guards are stated with it: `Asks` lists what there is to ask
for, and `asks` is the one place where the tokens are gone through.

The other half is `Stack.rightLevel`, the level that the last piece of a stack asks of the phrase
after it. If that level is no higher than the one that the next token asks for, then an expression
on top of the stack stays as it is (`reduceOnce_expr_eq_none`).
-/

/-- The level that a token asks of the expression on its left. -/
def Token.leftLevel : Token → Nat
  | .symbol .dot | .symbol .openParen | .symbol .openBracket => 8
  | .symbol .question | .keyword .ifWord => 1
  | t =>
    match t.binaryOp? with
    | some op => op.precedence
    | none => 0

/-- The level that the next token, if there is one, asks of the expression on its left. -/
def nextLevel (next : Option Token) : Nat := next.elim 0 Token.leftLevel

/-- The level that the last piece of a stack asks of the phrase that comes after it. -/
def Stack.rightLevel : Stack → Nat
  | .unary _ _ :: _ => 7
  | .binary op _ :: _ => op.precedence + 1
  | _ => 0

/-- A token that comes next asks for the level of its own. -/
@[simp] theorem nextLevel_some (t : Token) : nextLevel (some t) = t.leftLevel := rfl

/-! ### The guards of the rules -/

/-- Every operator binds tighter than a conditional. -/
theorem BinaryOp.precedence_pos (op : BinaryOp) : 0 < op.precedence := by
  cases op <;> decide

/-- No operator binds as tightly as one in front of its operand. -/
theorem BinaryOp.precedence_le (op : BinaryOp) : op.precedence ≤ 6 := by
  cases op <;> decide

/-- An operator asks for a phrase of its own level on its left. -/
theorem Token.leftLevel_of_binaryOp? {t : Token} {op : BinaryOp} (h : t.binaryOp? = some op) :
    t.leftLevel = op.precedence := by
  unfold Token.leftLevel
  split
  · cases h
  · cases h
  · cases h
  · cases h
  · cases h
  · rw [h]

/-- No piece asks for more than the operand of an operator in front. -/
theorem Stack.rightLevel_le (s : Stack) : s.rightLevel ≤ 7 := by
  unfold Stack.rightLevel
  split
  · exact Nat.le_refl 7
  · exact Nat.succ_le_succ (BinaryOp.precedence_le _)
  · exact Nat.zero_le 7

/-- No stack asks for level 1: on the right of an operator at least level 2 is due. -/
theorem Stack.rightLevel_eq_zero {s : Stack} (h : s.rightLevel ≤ 1) : s.rightLevel = 0 := by
  unfold Stack.rightLevel at h ⊢
  split at h
  · omega
  · next op _ _ =>
    have := op.precedence_pos
    omega
  · rfl

/-- What the next token asks for, and what the guards of the rules make of it. -/
inductive Asks (next : Option Token) : Prop
  /-- An access, a call or an index asks for the tightest phrase and continues the operand. -/
  | access (operand : Rules.continuesOperand next = true) (level : nextLevel next = 8)
  /-- An operator asks for a phrase of its own level. -/
  | operator (op : BinaryOp) (operand : Rules.continuesOperand next = false)
      (later : next.bind Token.binaryOp? = some op) (level : nextLevel next = op.precedence)
  /-- The first sign of a conditional continues a branch, and no operand. -/
  | sign (operand : Rules.continuesOperand next = false)
      (later : next.bind Token.binaryOp? = none) (branch : Rules.continuesBranch next = true)
      (level : nextLevel next = 1)
  /-- Every other token, and the end of the input, asks for nothing. -/
  | nothing (operand : Rules.continuesOperand next = false)
      (later : next.bind Token.binaryOp? = none) (branch : Rules.continuesBranch next = false)
      (level : nextLevel next = 0)

/-- Every token asks for one of the four. -/
theorem asks (next : Option Token) : Asks next := by
  rcases next with _ | x | x | x | k | s
  case none => exact .nothing rfl rfl rfl rfl
  case some.number => exact .nothing rfl rfl rfl rfl
  case some.string => exact .nothing rfl rfl rfl rfl
  case some.identifier => exact .nothing rfl rfl rfl rfl
  case some.keyword =>
    cases k with
    | ifWord => exact .sign rfl rfl rfl rfl
    | andWord | orWord => exact .operator _ rfl rfl rfl
    | noneWord | elseWord => exact .nothing rfl rfl rfl rfl
  case some.symbol =>
    cases s with
    | dot | openParen | openBracket => exact .access rfl rfl
    | question => exact .sign rfl rfl rfl rfl
    | comma | closeParen | closeBracket | colon | semicolon | assign | bang | lineBreak =>
      exact .nothing rfl rfl rfl rfl
    | _ => exact .operator _ rfl rfl rfl

/-- No token asks for more than a postfix does. -/
theorem nextLevel_le (next : Option Token) : nextLevel next ≤ 8 := by
  cases asks next with
  | access _ hn => exact Nat.le_of_eq hn
  | operator op _ _ hn =>
    have := op.precedence_le
    omega
  | sign _ _ _ hn | nothing _ _ _ hn => omega

/-- No token asks for the level of the operators of one operand. -/
theorem nextLevel_ne_seven (next : Option Token) : nextLevel next ≠ 7 := by
  cases asks next with
  | operator op _ _ hn =>
    have := op.precedence_le
    omega
  | access _ hn | sign _ _ _ hn | nothing _ _ _ hn => omega

/-- A postfix comes next if a level above that of the operators is asked for. -/
theorem continuesOperand_eq (next : Option Token) :
    Rules.continuesOperand next = decide (7 < nextLevel next) := by
  cases asks next with
  | operator op h _ hn =>
    have := op.precedence_le
    rw [h, hn, eq_comm, decide_eq_false_iff_not]
    omega
  | access h hn | sign h _ _ hn | nothing h _ _ hn => rw [h, hn]; rfl

/-- An operator waits if a tighter level is asked for. -/
theorem bindsTighter_eq (next : Option Token) (op : BinaryOp) :
    (Rules.continuesOperand next || Rules.bindsTighter next op)
      = decide (op.precedence < nextLevel next) := by
  have hpos := op.precedence_pos
  have hle := op.precedence_le
  unfold Rules.bindsTighter
  cases asks next with
  | access h hn =>
    rw [h, hn, Bool.true_or, eq_comm, decide_eq_true_iff]
    omega
  | operator later h hlater hn => rw [h, hlater, hn, Bool.false_or]
  | sign h hlater _ hn | nothing h hlater _ hn =>
    rw [h, hlater, hn, Bool.false_or, eq_comm, decide_eq_false_iff_not]
    omega

/-- A conditional waits if any level above its own is asked for. -/
theorem continuesBranch_eq (next : Option Token) :
    Rules.continuesBranch next = decide (0 < nextLevel next) := by
  cases asks next with
  | access h hn => rw [Rules.continuesBranch, h, hn]; rfl
  | operator op h hlater hn =>
    rw [Rules.continuesBranch, h, hlater, hn, decide_eq_true op.precedence_pos]
    rfl
  | sign _ _ h hn | nothing _ _ h hn => rw [h, hn]; rfl

/-- What ends an element asks for nothing on its left. -/
theorem nextLevel_of_endsElement {next : Option Token} (h : Rules.endsElement next = true) :
    nextLevel next = 0 := by
  unfold Rules.endsElement at h
  split at h
  · rfl
  · rfl
  · rfl
  · cases h

/-! ## Which tokens are accepted

A stack is `Ready` if it waits for an operand. The tokens that begin an operand are accepted there,
and the operators behind an expression; each becomes the piece that one expects.
-/

namespace Stack

variable {form : Form} {s : Stack} {t : Token} {p : Position}

/-- The stack waits for an operand: neither an expression nor a point is its last piece. -/
structure Ready (s : Stack) : Prop where
  expr : s.topIsExpr = false
  dot : s.topIsDot = false

/-- Behind an operator in front an operand is waited for. -/
theorem Ready.unary {op : UnaryOp} : Ready (.unary op p :: s) := ⟨rfl, rfl⟩

/-- Behind an operator between operands an operand is waited for. -/
theorem Ready.binary {op : BinaryOp} : Ready (.binary op p :: s) := ⟨rfl, rfl⟩

/-- Behind a token that is no point an operand is waited for. -/
theorem Ready.token (h : t ≠ .symbol .dot) : Ready (.token t p :: s) := by
  refine ⟨rfl, ?_⟩
  unfold topIsDot
  split
  · next heq => cases heq; exact absurd rfl h
  · rfl

/-- Where an operand is waited for, a token that can begin one is accepted. -/
theorem Ready.refusal? (h : s.Ready) (hc : t.continuesExpr = false)
    (hj : s.joinRefusal? form t = none) : s.refusal? form t = none := by
  simp [Stack.refusal?, h.expr, h.dot, hc, hj]

/-- Behind an expression, a token that begins no operand is accepted. -/
theorem refusal?_expr {e : Expr} (hb : t.beginsOperand = false)
    (hj : joinRefusal? form (.expr e :: s) t = none) :
    refusal? form (.expr e :: s) t = none := by
  simp [Stack.refusal?, topIsDot, topIsExpr, hb, hj]

/-- A constant is accepted where an operand is waited for. -/
theorem Ready.refusal?_literal {v : Literal} (h : s.Ready) (ht : t.literal? = some v) :
    s.refusal? form t = none := by
  unfold Token.literal? at ht
  split at ht
  · exact h.refusal? rfl rfl
  · exact h.refusal? rfl rfl
  · exact h.refusal? rfl rfl
  · cases ht

/-- A constant becomes an expression. -/
theorem ofToken_literal {v : Literal} (ht : t.literal? = some v) :
    Item.ofToken s t p = .expr (.literal v p) := by
  unfold Token.literal? at ht
  split at ht <;> cases ht <;> rfl

/-- An operator in front is accepted where an operand is waited for. -/
theorem Ready.refusal?_unary {op : UnaryOp} (h : s.Ready) (ht : t.unaryOp? = some op) :
    s.refusal? form t = none := by
  unfold Token.unaryOp? at ht
  split at ht
  · exact h.refusal? rfl rfl
  · exact h.refusal? rfl rfl
  · cases ht

/-- An operator becomes a piece that takes one operand where an operand is waited for. -/
theorem Ready.ofToken_unary {op : UnaryOp} (h : s.Ready) (ht : t.unaryOp? = some op) :
    Item.ofToken s t p = .unary op p := by
  unfold Token.unaryOp? at ht
  split at ht
  · cases ht
    rw [Item.ofToken, h.expr]
    rfl
  · cases ht
    rfl
  · cases ht

/-- An operator is accepted behind an expression. -/
theorem refusal?_binary {op : BinaryOp} {e : Expr} (ht : t.binaryOp? = some op) :
    refusal? form (.expr e :: s) t = none := by
  unfold Token.binaryOp? at ht
  split at ht <;> first | exact refusal?_expr rfl rfl | cases ht

/-- An operator becomes a piece that takes two operands behind an expression. -/
theorem ofToken_binary {op : BinaryOp} {e : Expr} (ht : t.binaryOp? = some op) :
    Item.ofToken (.expr e :: s) t p = .binary op p := by
  unfold Token.binaryOp? at ht
  split at ht <;> cases ht <;> rfl

end Stack

section Rules

variable {form : Form} {next : Option Token} {s t : Stack} {p q : Position}

/-! ## The rules as a relation -/

/-- Only four rules look at a stack with an expression on top. -/
theorem reduceOnce_expr {e : Expr} : reduceOnce form next (.expr e :: s)
    = (Rules.unary? next (.expr e :: s)).or ((Rules.binary? next (.expr e :: s)).or
        ((Rules.conditional? next (.expr e :: s)).or (Rules.list? next (.expr e :: s)))) := by
  cases form
  · simp only [reduceOnce, Option.orElse_eq_orElse, Option.orElse_eq_or, reduceCtorEq, if_false,
      Option.or_none]
    rfl
  · have he : ((Rules.entry? (.expr e :: s)).or (Rules.join? (.expr e :: s))) = none := rfl
    simp only [reduceOnce, Option.orElse_eq_orElse, Option.orElse_eq_or, if_true, he,
      Option.or_none]
    rfl

/-- A stack with no expression on top is empty or ends in another piece. -/
theorem Stack.eq_nil_or_cons_of_topIsExpr (h : s.topIsExpr = false) :
    s = [] ∨ ∃ i r, s = i :: r ∧ i.isExpr = false := by
  rcases s with _ | ⟨i, r⟩
  · exact .inl rfl
  · refine .inr ⟨i, r, rfl, ?_⟩
    cases i <;> first | rfl | cases h

/-- Every rule is applied where its pieces are on top: no earlier one takes them. -/
theorem Rule.reduceOnce_eq (h : Rule form next s t) : reduceOnce form next s = some t := by
  cases h with
  | member | emptyCall | callOne | call | index => rfl
  | var h =>
    unfold reduceOnce Rules.name?
    split
    · next heq =>
      cases heq
      exact absurd rfl (h _ _ _)
    · next heq =>
      cases heq
      rfl
    · next hn => exact absurd rfl (hn _ _ _)
  -- Whether the brackets belong to the piece below them depends on this piece alone.
  | group h | emptyVector h | vectorOne h | vector h =>
    obtain rfl | ⟨i, r, rfl, hi⟩ := Stack.eq_nil_or_cons_of_topIsExpr h
    · rfl
    · cases i <;> first | rfl | cases hi
  | unary h =>
    rw [reduceOnce_expr, Rules.unary?, h]
    rfl
  | binary h =>
    rw [reduceOnce_expr, Rules.binary?, h]
    rfl
  | question h | ifElse h =>
    rw [reduceOnce_expr, Rules.conditional?, h]
    rfl
  | pair h | list h =>
    rw [reduceOnce_expr, Rules.list?, h]
    rfl
  | entry h | join h =>
    subst h
    rfl

/-- What the function does to a stack is what the relation says. -/
theorem reduceOnce_eq_some_iff : reduceOnce form next s = some t ↔ Rule form next s t :=
  ⟨rule_of_reduceOnce, Rule.reduceOnce_eq⟩

/-- The function does nothing where the relation holds of no stack. -/
theorem reduceOnce_eq_none_iff : reduceOnce form next s = none ↔ ∀ t, ¬ Rule form next s t := by
  simp only [Option.eq_none_iff_forall_ne_some, ne_eq, reduceOnce_eq_some_iff]

/-- Whether a rule takes a closing bracket does not depend on the token behind it. -/
theorem Rule.of_closes {b : Symbol} (hb : b = .closeParen ∨ b = .closeBracket)
    (h : Rule form next (.token (.symbol b) p :: s) t) (next' : Option Token) :
    Rule form next' (.token (.symbol b) p :: s) t := by
  cases h with
  | emptyCall => exact .emptyCall
  | callOne => exact .callOne
  | call => exact .call
  | group h => exact .group h
  | index => exact .index
  | emptyVector h => exact .emptyVector h
  | vectorOne h => exact .vectorOne h
  | vector h => exact .vector h
  | entry => rcases hb with hb | hb <;> cases hb

end Rules

/-! ## Moves -/

namespace Stack

variable {form : Form} {s t : Stack} {ts : List (Located Token)}

/-- Applies all rules that fit and then reads the tokens `ts`. -/
def proceed (form : Form) (s : Stack) (ts : List (Located Token)) :
    Except (Located ParseFault) Stack :=
  match checkClosed (reduce form (ts.head?.map Located.value) s) with
  | .error e => .error e
  | .ok s => s.run form ts

/-- A token that is accepted is put on the stack before the rules are applied. -/
theorem run_cons {u : Located Token} (h : s.refusal? form u.value = none) :
    s.run form (u :: ts) = proceed form (Item.ofToken s u.value u.position :: s) ts := by
  rw [run, step, shift, h]
  rfl

/-- Only a closing bracket on top of the stack is refused after the rules have been applied. -/
theorem eq_of_checkClosed (h : s.checkClosed = .ok t) : s = t := by
  unfold checkClosed at h
  split at h
  · cases h
  · cases h
  · exact Except.ok.inj h

/-- A step that does not fail puts the token on the stack and applies the rules. -/
theorem step_eq_ok_iff {u : Located Token} {next : Option Token} :
    s.step form u next = .ok t ↔ s.refusal? form u.value = none ∧
      reduce form next (Item.ofToken s u.value u.position :: s) = t ∧ t.checkClosed = .ok t := by
  rw [step, shift]
  cases s.refusal? form u.value with
  | some fault => exact iff_of_false nofun nofun
  | none =>
    refine ⟨fun h => ?_, fun h => ?_⟩
    · have ht := eq_of_checkClosed h
      exact ⟨rfl, ht, ht ▸ h⟩
    · obtain ⟨-, rfl, hc⟩ := h
      exact hc

/-- Applying all rules goes on behind the first one. -/
theorem reduce_of_reduceOnce {next : Option Token} (h : reduceOnce form next s = some t) :
    reduce form next s = reduce form next t := by
  rw [reduce]
  split
  · next u hu => rw [Option.some.inj (hu.symm.trans h)]
  · next hu => rw [hu] at h; cases h

/-- Where no rule fits, the stack stays what it is. -/
theorem reduce_of_eq_none {next : Option Token} (h : reduceOnce form next s = none) :
    reduce form next s = s := by
  rw [reduce]
  split
  · next u hu => rw [hu] at h; cases h
  · rfl

/-- A rule that fits is applied before the next token is read. -/
theorem proceed_of_rule (h : Rule form (ts.head?.map Located.value) s t) :
    proceed form s ts = proceed form t ts := by
  rw [proceed, reduce_of_reduceOnce h.reduceOnce_eq, ← proceed]

/-- Where no rule fits and no bracket was closed in vain, the next token is read at once. -/
theorem proceed_eq_run (h : reduceOnce form (ts.head?.map Located.value) s = none)
    (hc : checkClosed s = .ok s) : proceed form s ts = s.run form ts := by
  rw [proceed, reduce_of_eq_none h, hc]

/-- Where no rule fits, the next token is put on the stack. -/
theorem proceed_cons {u : Located Token} (h : reduceOnce form (some u.value) s = none)
    (hc : checkClosed s = .ok s) (hr : s.refusal? form u.value = none) :
    proceed form s (u :: ts) = proceed form (Item.ofToken s u.value u.position :: s) ts := by
  have hn : reduceOnce form ((u :: ts).head?.map Located.value) s = none := h
  rw [proceed_eq_run hn hc, run_cons hr]

end Stack

/-! ## Where no rule fits -/

/-- Pieces that no rule takes while they are on top of the stack. -/
def Item.isQuiet : Item → Bool
  | .token (.identifier _) _ => false
  | .token (.symbol .closeParen) _ => false
  | .token (.symbol .closeBracket) _ => false
  | .token (.symbol .semicolon) _ => false
  | .expr _ => false
  | .entries _ => false
  | _ => true

section Rules

variable {form : Form} {next : Option Token} {s t : Stack} {p q : Position}

/-- No rule fits where such a piece is on top. -/
theorem reduceOnce_of_isQuiet {i : Item} (h : i.isQuiet = true) :
    reduceOnce form next (i :: s) = none := by
  refine reduceOnce_eq_none_iff.2 fun t hr => ?_
  cases hr <;> cases h

/-- Such a piece is no closing bracket. -/
theorem checkClosed_of_isQuiet {i : Item} (h : i.isQuiet = true) :
    Stack.checkClosed (i :: s) = .ok (i :: s) := by
  unfold Stack.checkClosed
  split
  · next heq => cases heq; cases h
  · next heq => cases heq; cases h
  · rfl

/-- Behind such a piece the next token is read at once. -/
theorem proceed_of_isQuiet {i : Item} {ts : List (Located Token)} (h : i.isQuiet = true) :
    Stack.proceed form (i :: s) ts = Stack.run form (i :: s) ts :=
  Stack.proceed_eq_run (reduceOnce_of_isQuiet h) (checkClosed_of_isQuiet h)

/-- An expression is no closing bracket. -/
theorem checkClosed_expr {e : Expr} : Stack.checkClosed (.expr e :: s) = .ok (.expr e :: s) := rfl

/-- An expression stays as it is while the next token asks for a phrase at least as tight as the
stack below does. -/
theorem reduceOnce_expr_eq_none {e : Expr} (h : s.rightLevel ≤ nextLevel next)
    (h0 : 0 < nextLevel next) : reduceOnce form next (.expr e :: s) = none := by
  refine reduceOnce_eq_none_iff.2 fun t hr => ?_
  cases hr with
  | unary hg =>
    -- No token asks for level 7, so the next one is a postfix and goes on with the operand.
    have h7 : 7 ≤ nextLevel next := h
    have hne := nextLevel_ne_seven next
    rw [continuesOperand_eq, decide_eq_false_iff_not] at hg
    omega
  | @binary op _ _ _ _ hg =>
    have hop : op.precedence < nextLevel next := h
    rw [bindsTighter_eq, decide_eq_false_iff_not] at hg
    omega
  | question hg | ifElse hg =>
    rw [continuesBranch_eq, decide_eq_false_iff_not] at hg
    omega
  | pair he | list he =>
    -- What ends an element asks for no level.
    have hlevel := nextLevel_of_endsElement he
    omega

/-- Where the piece below an expression is a token that ends no branch and no element, no rule
fits. -/
theorem reduceOnce_expr_token {e : Expr} {t : Token} (hc : t ≠ .symbol .colon)
    (he : t ≠ .keyword .elseWord) (hl : t ≠ .symbol .comma) :
    reduceOnce form next (.expr e :: .token t p :: s) = none := by
  refine reduceOnce_eq_none_iff.2 fun u hr => ?_
  cases hr with
  | question => exact hc rfl
  | ifElse => exact he rfl
  | pair | list => exact hl rfl

/-! ## Where a rule fits

The guards of the rules in terms of levels.
-/

/-- A name that does not stand behind a point is a variable. -/
theorem Rule.name {x : String} (h : s.topIsDot = false) :
    Rule form next (.token (.identifier x) p :: s) (.expr (.var x p) :: s) := by
  refine .var ?_
  rintro _ _ _ rfl
  cases h

/-- An operator takes its operand unless a postfix comes next. -/
theorem Rule.unary_of_le {op : UnaryOp} {e : Expr} (h : nextLevel next ≤ 7) :
    Rule form next (.expr e :: .unary op p :: s) (.expr (.unary op e p) :: s) := by
  refine .unary ?_
  rw [continuesOperand_eq, decide_eq_false_iff_not]
  omega

/-- An operator takes its operands unless a tighter level is asked for. -/
theorem Rule.binary_of_le {op : BinaryOp} {l r : Expr} (h : nextLevel next ≤ op.precedence) :
    Rule form next (.expr r :: .binary op p :: .expr l :: s) (.expr (.binary op l r p) :: s) := by
  refine .binary ?_
  rw [bindsTighter_eq, decide_eq_false_iff_not]
  omega

/-- A token that asks for no level ends the last branch of a conditional. -/
theorem continuesBranch_eq_false (h : nextLevel next = 0) : Rules.continuesBranch next = false := by
  rw [continuesBranch_eq, h]
  rfl

end Rules

end MapExpr
