import MapExpr.Proofs.Grammar.Unambiguous
import MapExpr.Proofs.Parsing.Completeness
import MapExpr.Proofs.Parsing.Invariant
import MapExpr.Proofs.Parsing.Refusal

/-!
# What is read is a phrase

A token that is not refused keeps the invariant of `Parsed` when it is put on a stack to which no
rule applies. Together with the rules this makes a step keep it, and so a whole run; between two
tokens the stack is `Settled`, which says that no rule is left to apply. A stack that holds one
expression in the end is then the tree of a phrase with all the tokens.
-/

namespace MapExpr

section Soundness

variable {form : Form} {next : Option Token} {us vs ts : List (Located Token)} {s s' : Stack}
  {e : Expr} {t : Token} {p q : Position}

/-! ## Kinds of tokens -/

/-- What a token can do where an operand is waited for. -/
theorem Token.cases_of_ready (t : Token) :
    (∃ v, t.literal? = some v) ∨ (∃ x, t = .identifier x) ∨ (∃ op, t.unaryOp? = some op) ∨
      t.opens = true ∨ (∃ c, t = .symbol c ∧ (c = .closeParen ∨ c = .closeBracket)) ∨
      t = .symbol .comma ∨ t.continuesExpr = true := by
  rcases t with x | x | x | k | b
  · exact .inl ⟨_, rfl⟩
  · exact .inl ⟨_, rfl⟩
  · exact .inr (.inl ⟨x, rfl⟩)
  · cases k <;> simp [Token.literal?, Token.continuesExpr, Token.binaryOp?]
  · cases b <;> simp [Token.literal?, Token.continuesExpr, Token.binaryOp?, Token.unaryOp?,
      Token.opens]

/-- What a token can do behind an expression. -/
theorem Token.cases_of_expr (t : Token) :
    (∃ op, t.binaryOp? = some op) ∨ t.waits = true ∨ t = .symbol .dot ∨ t = .symbol .comma ∨
      (∃ c, t = .symbol c ∧ (c = .closeParen ∨ c = .closeBracket)) ∨ t = .symbol .assign ∨
      t = .symbol .semicolon ∨ t.beginsOperand = true := by
  rcases t with x | x | x | k | b
  · simp [Token.beginsOperand]
  · simp [Token.beginsOperand]
  · simp [Token.beginsOperand]
  · cases k <;> simp [Token.waits, Token.beginsOperand, Token.binaryOp?]
  · cases b <;> simp [Token.waits, Token.beginsOperand, Token.binaryOp?]

namespace Stack

/-- A token that begins an operand is put on the stack as it is. -/
theorem ofToken_opens (ht : t.opens = true) : Item.ofToken s t p = .token t p := by
  unfold Token.opens at ht
  split at ht <;> first | rfl | cases ht

/-- A token that waits for an operand is put on the stack as it is. -/
theorem ofToken_waits (ht : t.waits = true) : Item.ofToken s t p = .token t p := by
  unfold Token.waits at ht
  split at ht <;> first | rfl | cases ht

/-- Where an operand is waited for, no token that needs an expression before it is accepted. -/
theorem Ready.refusal?_ne_none (h : s.Ready) (hc : t.continuesExpr = true) :
    s.refusal? form t ≠ none := by
  unfold Stack.refusal?
  rw [h.dot, h.expr, hc]
  simp

/-- A comma where an operand is waited for is refused, unless a list may be separated there. -/
theorem Ready.refusal?_comma (h : s.Ready) : s.refusal? form (.symbol .comma)
    = if !s.canSeparate then some (.unexpectedToken (.symbol .comma) .noOperand) else none := by
  unfold Stack.refusal?
  rw [h.dot, h.expr]
  rfl

/-- Behind an expression, no token that begins an operand is accepted. -/
theorem refusal?_expr_ne_none (hb : t.beginsOperand = true) :
    refusal? form (.expr e :: s) t ≠ none := by
  unfold Stack.refusal?
  rw [hb]
  simp [topIsDot, topIsExpr]

/-- Behind an expression a token is refused for what it would be joined with only. -/
theorem joinRefusal?_of_refusal? (hr : refusal? form (.expr e :: s) t = none) :
    joinRefusal? form (.expr e :: s) t = none := by
  simp only [Stack.refusal?, topIsDot, topIsExpr, Bool.false_and, Bool.and_true, Bool.not_true,
    Bool.and_false, if_false, reduceCtorEq] at hr
  split at hr
  · cases hr
  · exact hr

/-- An assignment sign is accepted in a batch only, behind the first name of an entry. -/
theorem exists_var_of_assign (hj : joinRefusal? form (.expr e :: s) (.symbol .assign) = none) :
    form = .batch ∧ ∃ x q, e = .var x q ∧ (s = [] ∨ ∃ as s', s = .entries as :: s') := by
  cases form with
  | expression => cases hj
  | batch =>
    have ht : targetRefusal? (.expr e :: s) = none := hj
    refine ⟨rfl, ?_⟩
    unfold targetRefusal? at ht
    split at ht
    · next heq =>
      cases heq
      exact ⟨_, _, rfl, .inl rfl⟩
    · next heq =>
      cases heq
      exact ⟨_, _, rfl, .inr ⟨_, _, rfl⟩⟩
    · cases ht
    · cases ht
    · cases ht

/-- A semicolon is accepted behind an assignment sign and an expression only. -/
theorem exists_assign_of_semicolon
    (hj : joinRefusal? form (.expr e :: s) (.symbol .semicolon) = none) :
    ∃ p s', s = .token (.symbol .assign) p :: s' := by
  cases form with
  | expression => cases hj
  | batch =>
    have hp : hasPendingEntry (.expr e :: s) = true := by
      cases hh : hasPendingEntry (.expr e :: s)
      · simp [joinRefusal?, hh] at hj
      · rfl
    unfold hasPendingEntry at hp
    split at hp
    · next heq =>
      cases heq
      exact ⟨_, _, rfl⟩
    · cases hp

end Stack

/-! ## Stacks to which no rule applies -/

/-- What is left of the cases of `Parsed` where no rule fits and no bracket has been closed in
vain. -/
inductive AtRest (form : Form) (next : Option Token) : List (Located Token) → Stack → Prop
  | waiting {ts : List (Located Token)} {s : Stack} (h : Waiting form ts s) :
      AtRest form next ts s
  | expr {us vs ts : List (Located Token)} {s : Stack} {e : Expr} (h : Waiting form us s)
      (he : Means (max s.rightLevel (nextLevel next)) vs e) (hts : ts = us ++ vs) :
      AtRest form next ts (.expr e :: s)
  | list {us vs ts : List (Located Token)} {s : Stack} {es : List Expr} {p : Position}
      (h : Waiting form us s) (hr : MeansRow vs (.list es p))
      (hn : Rules.endsElement next = true) (hts : ts = us ++ vs) :
      AtRest form next ts (.list es p :: s)
  | dot {us vs ts : List (Located Token)} {s : Stack} {e : Expr} {p : Position}
      (h : Waiting form us s) (he : Means 8 vs e) (hts : ts = us ++ (vs ++ [⟨.symbol .dot, p⟩])) :
      AtRest form next ts (.token (.symbol .dot) p :: .expr e :: s)

/-- A parsed stack to which no rule applies is of one of these kinds. -/
theorem Parsed.atRest (h : Parsed form next ts s) (hn : MapExpr.reduceOnce form next s = none)
    (hc : s.checkClosed = .ok s) : AtRest form next ts s := by
  cases h with
  | waiting h => exact .waiting h
  | expr h he hts => exact .expr h he hts
  | list h hr he hts => exact .list h hr he hts
  | dot h he hts => exact .dot h he hts
  -- A name is taken by a rule, so it is never on top where a token is put on the stack.
  | name h hts => exact absurd (.name h.ready.dot) (reduceOnce_eq_none_iff.1 hn _)
  | memberName => cases hn
  -- A closing bracket that no rule takes is an error of its own.
  | closed h hc' => rcases hc' with rfl | rfl <;> cases hc
  | closedRow h hi hc' => rcases hc' with rfl | rfl <;> cases hc
  | semicolon h he hts =>
    cases h with
    | opener _ ht => cases ht
    | waiter _ _ _ ht => cases ht
    | assign hf => subst hf; cases hn
  | entries hf h hs ha hts =>
    subst hf hts
    rcases hs with rfl | ⟨bs, rfl⟩
    -- Entries with nothing below them are finished; two runs of entries would be joined first.
    · cases h with
      | start => exact .waiting (.entries rfl ha)
    · cases hn

/-! ## Putting a token on the stack -/

namespace Parsed

/-- What comes where an operand is waited for. -/
theorem shift_waiting (h : Waiting form ts s) (hr : s.refusal? form t = none) :
    Parsed form next (ts ++ [⟨t, p⟩]) (Item.ofToken s t p :: s) := by
  rcases t.cases_of_ready with ⟨v, hv⟩ | ⟨x, rfl⟩ | ⟨op, hop⟩ | ho | ⟨c, rfl, hc⟩ | rfl | hc
  · rw [Stack.ofToken_literal hv]
    exact .expr_of_means_nine h (.literal hv) rfl
  · exact .name h rfl
  · rw [h.ready.ofToken_unary hop]
    exact .waiting (.unary h hop rfl)
  · rw [Stack.ofToken_opens ho]
    exact .waiting (.opener h ho rfl)
  · rcases hc with rfl | rfl
    · exact .closed h (.inl rfl) rfl
    · exact .closed h (.inr rfl) rfl
  · rw [h.ready.refusal?_comma, h.canSeparate_eq_false] at hr
    cases hr
  · exact absurd hr (h.ready.refusal?_ne_none hc)

/-- What comes behind an expression that no rule takes. -/
theorem shift_expr (h : Waiting form us s) (he : Means (max s.rightLevel t.leftLevel) vs e)
    (hl : s.rightLevel ≤ t.leftLevel) (hr : Stack.refusal? form (.expr e :: s) t = none) :
    Parsed form next (us ++ vs ++ [⟨t, p⟩]) (Item.ofToken (.expr e :: s) t p :: .expr e :: s) := by
  have ht : Means t.leftLevel vs e := he.mono (Nat.le_max_right _ _)
  have h0 : Means 0 vs e := he.mono (Nat.zero_le _)
  have hj := Stack.joinRefusal?_of_refusal? hr
  rw [List.append_assoc]
  rcases t.cases_of_expr with ⟨op, hop⟩ | hw | rfl | rfl | ⟨c, rfl, hc⟩ | rfl | rfl | hb
  · rw [Token.leftLevel_of_binaryOp? hop] at hl ht
    rw [Stack.ofToken_binary hop]
    exact .waiting (.binary h hl ht hop rfl)
  · rw [Stack.ofToken_waits hw]
    exact .waiting (.waiter h hl ht hw rfl)
  · exact .dot h ht rfl
  · exact .waiting (.comma h (MeansRow.expr_iff.2 h0) rfl)
  · rcases hc with rfl | rfl
    · exact .closedRow h (MeansRow.expr_iff.2 h0) (.inl rfl) rfl
    · exact .closedRow h (MeansRow.expr_iff.2 h0) (.inr rfl) rfl
  · obtain ⟨hf, x, q, rfl, hs⟩ := Stack.exists_var_of_assign hj
    have hbare : s.Bare := by
      rcases hs with rfl | ⟨as, s', rfl⟩
      · exact .inl rfl
      · exact h.bare_of_entries
    exact .waiting (.assign hf h hbare h0 rfl)
  · obtain ⟨q, s', rfl⟩ := Stack.exists_assign_of_semicolon hj
    exact .semicolon h h0 rfl
  · exact absurd hr (Stack.refusal?_expr_ne_none hb)

/-- What comes behind a list. -/
theorem shift_list {i : Item} (h : Waiting form us s) (hi : MeansRow vs i)
    (hn : Rules.endsElement (some t) = true) :
    Parsed form next (us ++ vs ++ [⟨t, p⟩]) (Item.ofToken (i :: s) t p :: i :: s) := by
  rw [List.append_assoc]
  unfold Rules.endsElement at hn
  split at hn
  · next heq =>
    cases heq
    exact .waiting (.comma h hi rfl)
  · next heq =>
    cases heq
    exact .closedRow h hi (.inl rfl) rfl
  · next heq =>
    cases heq
    exact .closedRow h hi (.inr rfl) rfl
  · cases hn

/-- What comes behind a point. -/
theorem shift_dot (h : Waiting form us s) (he : Means 8 vs e)
    (hr : Stack.refusal? form (.token (.symbol .dot) q :: .expr e :: s) t = none) :
    Parsed form next (us ++ (vs ++ [⟨.symbol .dot, q⟩]) ++ [⟨t, p⟩])
      (Item.ofToken (.token (.symbol .dot) q :: .expr e :: s) t p ::
        .token (.symbol .dot) q :: .expr e :: s) := by
  have ht : ∃ x, t = .identifier x := by
    cases t with
    | identifier x => exact ⟨x, rfl⟩
    | number x => cases hr
    | string x => cases hr
    | keyword k => cases hr
    | symbol b => cases hr
  obtain ⟨x, rfl⟩ := ht
  exact .memberName h he (by simp)

/-- A token that is not refused keeps the invariant where no rule fits. -/
theorem shift (h : Parsed form (some t) ts s) (hn : MapExpr.reduceOnce form (some t) s = none)
    (hc : s.checkClosed = .ok s) (hr : s.refusal? form t = none) :
    Parsed form next (ts ++ [⟨t, p⟩]) (Item.ofToken s t p :: s) := by
  cases h.atRest hn hc with
  | waiting hw => exact shift_waiting hw hr
  | expr hw he hts =>
    subst hts
    exact shift_expr hw he (hw.rightLevel_le hn) hr
  | list hw hi he hts =>
    subst hts
    exact shift_list hw hi he
  | dot hw he hts =>
    subst hts
    exact shift_dot hw he hr

end Parsed

/-! ## Whole runs -/

/-- The stack stands for the tokens, and nothing is left to do before `next` is read. -/
structure Settled (form : Form) (next : Option Token) (ts : List (Located Token)) (s : Stack) :
    Prop where
  parsed : Parsed form next ts s
  reduced : reduceOnce form next s = none
  closed : s.checkClosed = .ok s

namespace Settled

variable {u : Located Token}

/-- A settled stack is at rest. -/
theorem atRest (h : Settled form next ts s) : AtRest form next ts s :=
  h.parsed.atRest h.reduced h.closed

/-- Before the first token there is nothing to do. -/
theorem start (form : Form) (next : Option Token) : Settled form next [] [] where
  parsed := .waiting .start
  reduced := Waiting.start.reduceOnce_eq_none
  closed := rfl

/-- A step that does not fail keeps the invariant and leaves no rule that fits. -/
theorem step (h : Settled form (some u.value) ts s) (hs : s.step form u next = .ok s') :
    Settled form next (ts ++ [u]) s' := by
  obtain ⟨hr, rfl, hc⟩ := Stack.step_eq_ok_iff.1 hs
  exact ⟨(h.parsed.shift h.reduced h.closed hr).reduce, reduceOnce_reduce, hc⟩

/-- A run that does not fail ends with a stack that is made of all the tokens. -/
theorem runBefore (h : Settled form ((us.head?.map Located.value).or next) ts s)
    (hs : s.runBefore form next us = .ok s') : Settled form next (ts ++ us) s' := by
  -- The induction is on the tokens to come; the tokens read so far grow with the stack.
  induction us generalizing ts s with
  | nil =>
    cases hs
    rwa [List.append_nil]
  | cons u us ih =>
    cases hu : s.step form u ((us.head?.map Located.value).or next) with
    | error e =>
      rw [Stack.runBefore_of_step_error hu] at hs
      cases hs
    | ok t =>
      rw [Stack.runBefore_of_step hu] at hs
      have hrest := ih (h.step hu) hs
      rwa [List.append_assoc, List.singleton_append] at hrest

end Settled

/-- A run leaves a settled stack. -/
theorem settled_of_runBefore (hs : Stack.runBefore form next [] ts = .ok s) :
    Settled form next ts s :=
  (Settled.start form _).runBefore hs

/-- What a whole source leaves on the stack. -/
theorem settled_of_run (hs : Stack.run form [] ts = .ok s) : Settled form none ts s :=
  settled_of_runBefore (Stack.runBefore_none.trans hs)

/-- An accepted list of tokens is a phrase with the tree that is returned. -/
theorem means_of_parseExpression (h : parseExpression ts = .ok e) : Means 0 ts e := by
  unfold parseExpression at h
  split at h
  · cases h
  · next hs =>
    cases h
    have hp := (settled_of_run hs).parsed
    -- A single expression on the stack stands for all the tokens.
    cases hp with
    | waiting h => cases h
    | expr h he hts =>
      cases h
      rw [hts]
      exact he.mono (Nat.zero_le _)
  · cases h

/-- The parser accepts the tokens that mean an expression, with this expression. -/
theorem parseExpression_eq_ok_iff : parseExpression ts = .ok e ↔ Means 0 ts e := by
  constructor
  · exact means_of_parseExpression
  · rintro ⟨d, hd, hts, rfl⟩
    exact parseExpression_of_derives ⟨hd, hts⟩

end Soundness

/-! ## The parser accepts the grammar

`parseExpression` accepts exactly the lists of tokens that the grammar derives. As the grammar is
unambiguous, there is one phrase for such a list, and the result is the tree of it.
-/

section Expression

variable {ts : List (Located Token)}

end Expression

end MapExpr
