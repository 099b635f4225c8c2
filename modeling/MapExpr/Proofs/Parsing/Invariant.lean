import MapExpr.Proofs.Parsing.Moves

/-!
# What a stack says about the tokens read so far

`Waiting ts s` says that the stack `s` has been built from the tokens `ts` and waits for an operand.
Every piece of it stands for its own run of tokens, and an expression with a token behind it is a
phrase of the level that this token asks for. Its two fields of levels are what makes the rules
sound: an operator is put on an expression only if the stack below asks for no tighter phrase.

`Parsed next ts s` describes all stacks that come up, with `next` the token behind `ts`. Beside the
stacks that wait for an operand these are the ones with a finished expression or list on top, and
the short-lived ones between a token and the rule that takes it.
-/

namespace MapExpr

namespace Token

/-- Tokens that are put on the stack as they are, where an operand is waited for. -/
def opens : Token → Bool
  | symbol .openParen | symbol .openBracket | symbol .lineBreak => true
  | _ => false

/-- Tokens that are put on an expression as they are and wait for an operand. -/
def waits : Token → Bool
  | symbol .openParen | symbol .openBracket | symbol .lineBreak => true
  | symbol .question | symbol .colon | keyword .ifWord | keyword .elseWord => true
  | _ => false

end Token

/-- Whether no tokens have been read since the last finished entry. -/
def Stack.Bare (s : Stack) : Prop := s = [] ∨ ∃ as, s = [.entries as]

/-- The stack is made of the tokens and waits for an operand. -/
inductive Waiting (form : Form) : List (Located Token) → Stack → Prop
  | start : Waiting form [] []
  | entries {ts : List (Located Token)} {as : List Assignment} (hf : form = .batch)
      (h : MeansEntries ts as.reverse) : Waiting form ts [.entries as]
  | opener {us ts : List (Located Token)} {s : Stack} {t : Token} {p : Position}
      (h : Waiting form us s) (ht : t.opens = true) (hts : ts = us ++ [⟨t, p⟩]) :
      Waiting form ts (.token t p :: s)
  | unary {us ts : List (Located Token)} {s : Stack} {t : Token} {op : UnaryOp} {p : Position}
      (h : Waiting form us s) (ht : t.unaryOp? = some op) (hts : ts = us ++ [⟨t, p⟩]) :
      Waiting form ts (.unary op p :: s)
  | waiter {us vs ts : List (Located Token)} {s : Stack} {e : Expr} {t : Token} {p : Position}
      (h : Waiting form us s) (hl : s.rightLevel ≤ t.leftLevel) (he : Means t.leftLevel vs e)
      (ht : t.waits = true) (hts : ts = us ++ (vs ++ [⟨t, p⟩])) :
      Waiting form ts (.token t p :: .expr e :: s)
  | binary {us vs ts : List (Located Token)} {s : Stack} {e : Expr} {t : Token} {op : BinaryOp}
      {p : Position} (h : Waiting form us s) (hl : s.rightLevel ≤ op.precedence)
      (he : Means op.precedence vs e) (ht : t.binaryOp? = some op)
      (hts : ts = us ++ (vs ++ [⟨t, p⟩])) : Waiting form ts (.binary op p :: .expr e :: s)
  | comma {us vs ts : List (Located Token)} {s : Stack} {i : Item} {p : Position}
      (h : Waiting form us s) (hr : MeansRow vs i)
      (hts : ts = us ++ (vs ++ [⟨.symbol .comma, p⟩])) :
      Waiting form ts (.token (.symbol .comma) p :: i :: s)
  | assign {us vs ts : List (Located Token)} {s : Stack} {x : String} {p q : Position}
      (hf : form = .batch) (h : Waiting form us s) (hs : s.Bare) (he : Means 0 vs (.var x q))
      (hts : ts = us ++ (vs ++ [⟨.symbol .assign, p⟩])) :
      Waiting form ts (.token (.symbol .assign) p :: .expr (.var x q) :: s)

/-- The stack is made of the tokens, and `next` comes behind them. -/
inductive Parsed (form : Form) (next : Option Token) : List (Located Token) → Stack → Prop
  | waiting {ts : List (Located Token)} {s : Stack} (h : Waiting form ts s) :
      Parsed form next ts s
  | expr {us vs ts : List (Located Token)} {s : Stack} {e : Expr} (h : Waiting form us s)
      (he : Means (max s.rightLevel (nextLevel next)) vs e) (hts : ts = us ++ vs) :
      Parsed form next ts (.expr e :: s)
  | list {us vs ts : List (Located Token)} {s : Stack} {es : List Expr} {p : Position}
      (h : Waiting form us s) (hr : MeansRow vs (.list es p))
      (hn : Rules.endsElement next = true) (hts : ts = us ++ vs) :
      Parsed form next ts (.list es p :: s)
  | name {us ts : List (Located Token)} {s : Stack} {x : String} {p : Position}
      (h : Waiting form us s) (hts : ts = us ++ [⟨.identifier x, p⟩]) :
      Parsed form next ts (.token (.identifier x) p :: s)
  | dot {us vs ts : List (Located Token)} {s : Stack} {e : Expr} {p : Position}
      (h : Waiting form us s) (he : Means 8 vs e) (hts : ts = us ++ (vs ++ [⟨.symbol .dot, p⟩])) :
      Parsed form next ts (.token (.symbol .dot) p :: .expr e :: s)
  | memberName {us vs ts : List (Located Token)} {s : Stack} {e : Expr} {x : String}
      {p q : Position} (h : Waiting form us s) (he : Means 8 vs e)
      (hts : ts = us ++ (vs ++ [⟨.symbol .dot, p⟩, ⟨.identifier x, q⟩])) :
      Parsed form next ts (.token (.identifier x) q :: .token (.symbol .dot) p :: .expr e :: s)
  | closed {us ts : List (Located Token)} {s : Stack} {c : Symbol} {q : Position}
      (h : Waiting form us s) (hc : c = .closeParen ∨ c = .closeBracket)
      (hts : ts = us ++ [⟨.symbol c, q⟩]) : Parsed form next ts (.token (.symbol c) q :: s)
  | closedRow {us vs ts : List (Located Token)} {s : Stack} {i : Item} {c : Symbol} {q : Position}
      (h : Waiting form us s) (hr : MeansRow vs i) (hc : c = .closeParen ∨ c = .closeBracket)
      (hts : ts = us ++ (vs ++ [⟨.symbol c, q⟩])) :
      Parsed form next ts (.token (.symbol c) q :: i :: s)
  | semicolon {us vs ts : List (Located Token)} {s : Stack} {e : Expr} {p q : Position}
      (h : Waiting form us (.token (.symbol .assign) p :: s)) (he : Means 0 vs e)
      (hts : ts = us ++ (vs ++ [⟨.symbol .semicolon, q⟩])) :
      Parsed form next ts
        (.token (.symbol .semicolon) q :: .expr e :: .token (.symbol .assign) p :: s)
  | entries {us vs ts : List (Located Token)} {s : Stack} {as : List Assignment}
      (hf : form = .batch) (h : Waiting form us s) (hs : s.Bare) (ha : MeansEntries vs as.reverse)
      (hts : ts = us ++ vs) : Parsed form next ts (.entries as :: s)

/-! ## Stacks that wait for an operand -/

namespace Waiting

variable {form : Form} {next : Option Token} {ts : List (Located Token)} {s : Stack}

/-- A stack that waits for an operand is ready for one. -/
theorem ready (h : Waiting form ts s) : s.Ready := by
  cases h with
  | start => exact ⟨rfl, rfl⟩
  | entries => exact ⟨rfl, rfl⟩
  | opener h ht => exact .token (by rintro rfl; cases ht)
  | unary => exact .unary
  | waiter h hl he ht => exact .token (by rintro rfl; cases ht)
  | binary => exact .binary
  | comma => exact .token nofun
  | assign => exact .token nofun

/-- A comma may not follow where an operand is waited for. -/
theorem canSeparate_eq_false (h : Waiting form ts s) : s.canSeparate = false := by
  cases h <;> rfl

/-- Finished entries are at the bottom of the stack. -/
theorem bare_of_entries {as : List Assignment} (h : Waiting form ts (.entries as :: s)) :
    Stack.Bare (.entries as :: s) := by
  cases h with
  | entries => exact .inr ⟨as, rfl⟩

/-- No rule fits where an operand is waited for. -/
theorem reduceOnce_eq_none (h : Waiting form ts s) : reduceOnce form next s = none := by
  cases h with
  | start => cases form <;> rfl
  | entries => cases form <;> rfl
  | @opener _ _ _ t _ h ht =>
    refine reduceOnce_of_isQuiet ?_
    unfold Token.opens at ht
    split at ht <;> first | rfl | cases ht
  | unary => exact reduceOnce_of_isQuiet rfl
  | @waiter _ _ _ _ _ t _ h hl he ht =>
    refine reduceOnce_of_isQuiet ?_
    unfold Token.waits at ht
    split at ht <;> first | rfl | cases ht
  | binary => exact reduceOnce_of_isQuiet rfl
  | comma => exact reduceOnce_of_isQuiet rfl
  | assign => exact reduceOnce_of_isQuiet rfl

/-- No rule holds an expression back without need: if none fits, then the next token asks for a
phrase at least as tight as the stack does. -/
theorem rightLevel_le {e : Expr} (h : Waiting form ts s)
    (hr : reduceOnce form next (.expr e :: s) = none) : s.rightLevel ≤ nextLevel next := by
  cases h with
  | unary h ht =>
    by_cases hn : nextLevel next ≤ 7
    · exact absurd (.unary_of_le hn) (reduceOnce_eq_none_iff.1 hr _)
    · exact Nat.le_of_not_le hn
  | @binary _ _ _ _ _ _ op _ h hl he ht =>
    by_cases hn : nextLevel next ≤ op.precedence
    · exact absurd (.binary_of_le hn) (reduceOnce_eq_none_iff.1 hr _)
    · exact Nat.lt_of_not_le hn
  -- Any other piece asks for no level at all.
  | start => exact Nat.zero_le _
  | entries => exact Nat.zero_le _
  | opener => exact Nat.zero_le _
  | waiter => exact Nat.zero_le _
  | comma => exact Nat.zero_le _
  | assign => exact Nat.zero_le _

end Waiting

/-! ## The rules keep the invariant

One lemma for each constructor of `Rule` says that it leads from a stack that `Parsed` describes to
another one with the same tokens. The guard of the rule gives the bound from the right, and the
level of the stack below the one from the left. `Parsed.reduce` repeats the rules.
-/

section Reduction

variable {form : Form} {next : Option Token} {us vs ts : List (Located Token)} {s t : Stack}
  {e : Expr} {p q : Position}

/-! ### The rules on expressions -/

/-- The tokens of an expression on a stack that waits for one. -/
theorem Parsed.expr_of_means {n : Nat} (h : Waiting form us s) (he : Means n vs e)
    (hs : s.rightLevel ≤ n) (hn : nextLevel next ≤ n) (hts : ts = us ++ vs) :
    Parsed form next ts (.expr e :: s) :=
  .expr h (he.mono (Nat.max_le.2 ⟨hs, hn⟩)) hts

/-- An operand of the highest level goes anywhere. -/
theorem Parsed.expr_of_means_nine (h : Waiting form us s) (he : Means 9 vs e)
    (hts : ts = us ++ vs) : Parsed form next ts (.expr e :: s) :=
  .expr_of_means h he (Nat.le_trans s.rightLevel_le (by omega))
    (Nat.le_succ_of_le (nextLevel_le next)) hts

/-- A phrase with a postfix goes anywhere. -/
theorem Parsed.expr_of_means_eight (h : Waiting form us s) (he : Means 8 vs e)
    (hts : ts = us ++ vs) : Parsed form next ts (.expr e :: s) :=
  .expr_of_means h he (Nat.le_succ_of_le s.rightLevel_le) (nextLevel_le next) hts

/-- The operand was read behind the operator, so it is of level 7 by the bound on the left. -/
theorem Parsed.unary {op : UnaryOp} (h : Waiting form us (.unary op p :: s)) (he : Means 7 vs e)
    (hn : Rules.continuesOperand next = false) :
    Parsed form next (us ++ vs) (.expr (.unary op e p) :: s) := by
  rw [continuesOperand_eq, decide_eq_false_iff_not] at hn
  cases h with
  | unary h ht hts =>
    subst hts
    exact .expr_of_means h (.unary ht he) (Stack.rightLevel_le _) (by omega) (by simp)

/-- The bound on the left makes the right operand one level tighter than the operator. -/
theorem Parsed.binary {op : BinaryOp} {l : Expr}
    (h : Waiting form us (.binary op p :: .expr l :: s)) (he : Means (op.precedence + 1) vs e)
    (hn : (Rules.continuesOperand next || Rules.bindsTighter next op) = false) :
    Parsed form next (us ++ vs) (.expr (.binary op l e p) :: s) := by
  rw [bindsTighter_eq, decide_eq_false_iff_not] at hn
  cases h with
  | binary h hl hf ht hts =>
    subst hts
    exact .expr_of_means h (.binary ht hf he) hl (by omega) (by simp)

/-- What lies below a separator of a conditional: it is no opening bracket, so it stands behind an
expression. -/
theorem Waiting.below_separator {t : Token} {f : Expr} (ht : t.opens = false) (hw : t.waits = true)
    (h : Waiting form ts (.token t p :: .expr f :: s)) :
    ∃ us vs, Waiting form us s ∧ s.rightLevel ≤ t.leftLevel ∧ Means t.leftLevel vs f ∧
      ts = us ++ (vs ++ [⟨t, p⟩]) := by
  cases h with
  | opener _ ho => rw [ht] at ho; cases ho
  | waiter h hl he _ hts => exact ⟨_, _, h, hl, he, hts⟩
  | comma => cases hw
  | assign => cases hw

/-- Behind both of its separators a conditional is complete. -/
theorem Parsed.question {c y : Expr}
    (h : Waiting form us (.token (.symbol .colon) q :: .expr y ::
      .token (.symbol .question) p :: .expr c :: s))
    (he : Means 0 vs e) (hn : Rules.continuesBranch next = false) :
    Parsed form next (us ++ vs) (.expr (.conditional c y e p) :: s) := by
  rw [continuesBranch_eq, decide_eq_false_iff_not] at hn
  obtain ⟨_, _, hfirst, -, hy, rfl⟩ := h.below_separator rfl rfl
  obtain ⟨_, _, hbelow, hl, hc, rfl⟩ := hfirst.below_separator rfl rfl
  exact .expr_of_means hbelow (.question (p := p) (q := q) hc hy he)
    (Nat.le_of_eq (Stack.rightLevel_eq_zero hl)) (by omega) (by simp)

/-- Three expressions with `if` and `else` between them are a conditional. -/
theorem Parsed.ifElse {c y : Expr}
    (h : Waiting form us (.token (.keyword .elseWord) q :: .expr c ::
      .token (.keyword .ifWord) p :: .expr y :: s))
    (he : Means 0 vs e) (hn : Rules.continuesBranch next = false) :
    Parsed form next (us ++ vs) (.expr (.conditional c y e p) :: s) := by
  rw [continuesBranch_eq, decide_eq_false_iff_not] at hn
  obtain ⟨_, _, hfirst, -, hc, rfl⟩ := h.below_separator rfl rfl
  obtain ⟨_, _, hbelow, hl, hy, rfl⟩ := hfirst.below_separator rfl rfl
  exact .expr_of_means hbelow (.ifElse (p := p) (q := q) hy hc he)
    (Nat.le_of_eq (Stack.rightLevel_eq_zero hl)) (by omega) (by simp)

/-- What stands in front of a comma is a row. -/
theorem Waiting.below_comma {i : Item} (h : Waiting form ts (.token (.symbol .comma) p :: i :: s)) :
    ∃ us vs, Waiting form us s ∧ MeansRow vs i ∧ ts = us ++ (vs ++ [⟨.symbol .comma, p⟩]) := by
  cases h with
  | opener _ ht => cases ht
  | waiter _ _ _ ht => cases ht
  | comma h hr hts => exact ⟨_, _, h, hr, hts⟩

/-- Two expressions with a comma between them are a list. -/
theorem Parsed.pair {f : Expr} (h : Waiting form us (.token (.symbol .comma) p :: .expr f :: s))
    (he : Means 0 vs e) (hn : Rules.endsElement next = true) :
    Parsed form next (us ++ vs) (.list [e, f] f.position :: s) := by
  obtain ⟨_, _, hbelow, hf, rfl⟩ := h.below_comma
  exact .list hbelow (.pair (p := p) (MeansRow.expr_iff.1 hf) he) hn (by simp)

/-- A list with a comma and an expression behind it is a longer list. -/
theorem Parsed.row {es : List Expr} (h : Waiting form us (.token (.symbol .comma) p ::
      .list es q :: s)) (he : Means 0 vs e) (hn : Rules.endsElement next = true) :
    Parsed form next (us ++ vs) (.list (e :: es) q :: s) := by
  obtain ⟨_, _, hbelow, hf, rfl⟩ := h.below_comma
  exact .list hbelow (.more (p := p) hf he) hn (by simp)

/-! ### The rules on brackets -/

/-- What lies below the bracket of a call or an index, which stands behind an expression. -/
theorem Waiting.below_postfix {b : Symbol} {f : Expr} (hb : b = .openParen ∨ b = .openBracket)
    (h : Waiting form ts (.token (.symbol b) p :: .expr f :: s)) :
    ∃ us vs, Waiting form us s ∧ Means 8 vs f ∧ ts = us ++ (vs ++ [⟨.symbol b, p⟩]) := by
  cases h with
  | opener h => cases h
  | waiter h _ he _ hts => rcases hb with rfl | rfl <;> exact ⟨_, _, h, he, hts⟩
  | comma => rcases hb with hb | hb <;> cases hb
  | assign => rcases hb with hb | hb <;> cases hb

/-- What lies below the bracket of a group or a vector, which stands where an operand is waited
for. -/
theorem Waiting.below_opener {b : Symbol} (hb : b = .openParen ∨ b = .openBracket)
    (hs : s.topIsExpr = false) (h : Waiting form ts (.token (.symbol b) p :: s)) :
    ∃ us, Waiting form us s ∧ ts = us ++ [⟨.symbol b, p⟩] := by
  cases h with
  | opener h _ hts => exact ⟨_, h, hts⟩
  | waiter => cases hs
  | comma => rcases hb with hb | hb <;> cases hb
  | assign => cases hs

/-- Parentheses with nothing between them behind an expression are a call. -/
theorem Parsed.emptyCall {f : Expr}
    (h : Waiting form us (.token (.symbol .openParen) p :: .expr f :: s)) :
    Parsed form next (us ++ [⟨.symbol .closeParen, q⟩])
      (.expr (.call f [] (.ofPosition p)) :: s) := by
  obtain ⟨_, _, hbelow, hf, rfl⟩ := h.below_postfix (.inl rfl)
  exact .expr_of_means_eight hbelow (.emptyCall (q := q) hf) (by simp)

/-- A row in parentheses behind an expression is a call. -/
theorem Parsed.call {f : Expr} {r : Row}
    (h : Waiting form us (.token (.symbol .openParen) p :: .expr f :: s)) (hr : r.Fits) :
    Parsed form next (us ++ (r.tokens ++ [⟨.symbol .closeParen, q⟩]))
      (.expr (.call f r.trees (.ofPosition p)) :: s) := by
  obtain ⟨_, _, hbelow, hf, rfl⟩ := h.below_postfix (.inl rfl)
  exact .expr_of_means_eight hbelow (hf.call (q := q) hr) (by simp)

/-- An expression in brackets behind an expression is an index. -/
theorem Parsed.index {f : Expr}
    (h : Waiting form us (.token (.symbol .openBracket) p :: .expr f :: s)) (he : Means 0 vs e) :
    Parsed form next (us ++ (vs ++ [⟨.symbol .closeBracket, q⟩])) (.expr (.index f e p) :: s) := by
  obtain ⟨_, _, hbelow, hf, rfl⟩ := h.below_postfix (.inr rfl)
  exact .expr_of_means_eight hbelow (hf.index (q := q) he) (by simp)

/-- An expression in parentheses is a group, if no expression stands in front. -/
theorem Parsed.group (hs : s.topIsExpr = false)
    (h : Waiting form us (.token (.symbol .openParen) p :: s)) (he : Means 0 vs e) :
    Parsed form next (us ++ (vs ++ [⟨.symbol .closeParen, q⟩])) (.expr e :: s) := by
  obtain ⟨_, hbelow, rfl⟩ := h.below_opener (.inl rfl) hs
  exact .expr_of_means_nine hbelow (he.group (p := p) (q := q)) (by simp)

/-- Brackets with nothing between them are a vector, if no expression stands in front. -/
theorem Parsed.emptyVector (hs : s.topIsExpr = false)
    (h : Waiting form us (.token (.symbol .openBracket) p :: s)) :
    Parsed form next (us ++ [⟨.symbol .closeBracket, q⟩]) (.expr (.vector [] p) :: s) := by
  obtain ⟨_, hbelow, rfl⟩ := h.below_opener (.inr rfl) hs
  exact .expr_of_means_nine hbelow (.emptyVector (q := q)) (by simp)

/-- A row in brackets is a vector, if no expression stands in front. -/
theorem Parsed.vector {r : Row} (hs : s.topIsExpr = false)
    (h : Waiting form us (.token (.symbol .openBracket) p :: s)) (hr : r.Fits) :
    Parsed form next (us ++ (r.tokens ++ [⟨.symbol .closeBracket, q⟩]))
      (.expr (.vector r.trees p) :: s) := by
  obtain ⟨_, hbelow, rfl⟩ := h.below_opener (.inr rfl) hs
  exact .expr_of_means_nine hbelow (.vector (q := q) hr) (by simp)

/-- A closing bracket right behind what waits for an operand ends an empty call or vector. -/
theorem Parsed.closed_rule {c : Symbol} (h : Waiting form us s)
    (hr : Rule form next (.token (.symbol c) q :: s) t) :
    Parsed form next (us ++ [⟨.symbol c, q⟩]) t := by
  cases hr with
  | emptyCall => exact .emptyCall h
  | emptyVector hs => exact .emptyVector hs h
  | callOne | call | group | index | vectorOne | vector | entry => cases h

/-- A closing bracket behind a row takes the row and what the bracket was opened for. -/
theorem Parsed.closedRow_rule {i : Item} {c : Symbol} (hc : c = .closeParen ∨ c = .closeBracket)
    (h : Waiting form us s) (hi : MeansRow vs i)
    (hr : Rule form next (.token (.symbol c) q :: i :: s) t) :
    Parsed form next (us ++ (vs ++ [⟨.symbol c, q⟩])) t := by
  cases hr with
  | emptyCall | emptyVector => rcases hi.isExpr_or_isList with ⟨e, he⟩ | ⟨es, p, he⟩ <;> cases he
  | callOne =>
    obtain ⟨d, hd, rfl, rfl⟩ := MeansRow.expr_iff.1 hi
    exact .call (r := .one d) h hd
  | call =>
    obtain ⟨r, hr, rfl, ht⟩ := hi.list
    exact ht ▸ .call h hr
  | group hs => exact .group hs h (MeansRow.expr_iff.1 hi)
  | index => exact .index h (MeansRow.expr_iff.1 hi)
  | vectorOne hs =>
    obtain ⟨d, hd, rfl, rfl⟩ := MeansRow.expr_iff.1 hi
    exact .vector (r := .one d) hs h hd
  | vector hs =>
    obtain ⟨r, hr, rfl, ht⟩ := hi.list
    exact ht ▸ .vector hs h hr
  | entry => rcases hc with hc | hc <;> cases hc

/-! ### All rules -/

/-- The semicolon behind a value completes an entry. -/
theorem Parsed.entry {x : String} {r : Position}
    (h : Waiting form us (.token (.symbol .assign) p :: .expr (.var x r) :: s))
    (he : Means 0 vs e) :
    Parsed form next (us ++ (vs ++ [⟨.symbol .semicolon, q⟩])) (.entries [⟨x, e, r⟩] :: s) := by
  cases h with
  | opener _ ht => cases ht
  | waiter _ _ _ ht => cases ht
  | assign hf h hs hx hts =>
    subst hf hts
    refine .entries rfl h hs ?_ (List.append_assoc _ _ _)
    have hone := MeansEntries.one (p := p) (q := q) ((means_var_iff (Nat.zero_le 9)).1 hx) he
    simpa using hone

/-- Entries that follow earlier ones are joined with them. -/
theorem Parsed.join {as bs : List Assignment} (h : Waiting form us (.entries bs :: s))
    (ha : MeansEntries vs as.reverse) : Parsed form next (us ++ vs) (.entries (as ++ bs) :: s) := by
  cases h with
  | entries hf hb =>
    refine .waiting (.entries hf ?_)
    rw [List.reverse_append]
    exact hb.append ha

/-- The rules that take an expression on top of the stack. -/
theorem Parsed.expr_rule (h : Waiting form us s)
    (he : Means (max s.rightLevel (nextLevel next)) vs e)
    (hr : Rule form next (.expr e :: s) t) : Parsed form next (us ++ vs) t := by
  have h0 : Means 0 vs e := he.mono (Nat.zero_le _)
  cases hr with
  | unary hn => exact .unary h (he.mono (Nat.le_max_left _ _)) hn
  | binary hn => exact .binary h (he.mono (Nat.le_max_left _ _)) hn
  | question hn => exact .question h h0 hn
  | ifElse hn => exact .ifElse h h0 hn
  | pair hn => exact .pair h h0 hn
  | list hn => exact .row h h0 hn

/-- Every rule keeps the invariant. -/
theorem Parsed.rule (h : Parsed form next ts s) (hr : Rule form next s t) :
    Parsed form next ts t := by
  cases h with
  | waiting h => exact absurd hr (reduceOnce_eq_none_iff.1 h.reduceOnce_eq_none t)
  | expr h he hts =>
    subst hts
    exact .expr_rule h he hr
  | list | dot => cases hr
  | name h hts =>
    cases hr with
    | member => cases h.ready.dot
    | var => exact .expr_of_means_nine h .name hts
  | memberName h he hts =>
    cases hr with
    | member => exact .expr_of_means_eight h he.member hts
    | var hn => exact absurd rfl (hn _ _ _)
  | closed h hc hts =>
    subst hts
    exact .closed_rule h hr
  | closedRow h hi hc hts =>
    subst hts
    exact .closedRow_rule hc h hi hr
  | semicolon h he hts =>
    subst hts
    cases hr with
    | entry => exact .entry h he
  -- Entries are the last case: they are joined with those at the bottom of the stack.
  | entries hf h hs ha hts =>
    subst hts
    cases hr with
    | join => exact .join h ha

/-- All rules together keep the invariant. -/
theorem Parsed.reduce (h : Parsed form next ts s) : Parsed form next ts (reduce form next s) := by
  fun_induction MapExpr.reduce form next s with
  | case1 s t hr ih => exact ih (h.rule (rule_of_reduceOnce hr))
  | case2 s hr => exact h

/-- No rule fits after all of them have been applied. -/
theorem reduceOnce_reduce : reduceOnce form next (reduce form next s) = none := by
  fun_induction MapExpr.reduce form next s with
  | case1 s t hr ih => exact ih
  | case2 s hr => exact hr

end Reduction

end MapExpr
