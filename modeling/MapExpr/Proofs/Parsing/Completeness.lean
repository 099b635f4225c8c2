import MapExpr.Proofs.Parsing.Moves

/-!
# Every phrase is read

`reads_phrase` says that the parser reads the tokens of a phrase as one expression, on top of any
stack that waits for an operand. Two levels bound the phrase: the one that the stack asks for on its
left, and the one that the token behind it asks for on its right.

The proof follows the phrase. Nothing is assumed about the stack below, apart from its last piece.
-/

namespace MapExpr

/-! ## Brackets and separators -/

namespace Stack

variable {form : Form} {s : Stack} {ts : List (Located Token)} {p q : Position}

/-- A postfix token leaves the expression in front of it as it is. -/
theorem proceed_postfix {e : Expr} {b : Symbol}
    (hb : b = .dot ∨ b = .openParen ∨ b = .openBracket) :
    proceed form (.expr e :: s) (⟨.symbol b, p⟩ :: ts)
      = proceed form (.token (.symbol b) p :: .expr e :: s) ts := by
  have hs : s.rightLevel ≤ 8 := Nat.le_succ_of_le s.rightLevel_le
  rcases hb with rfl | rfl | rfl
  all_goals
    exact proceed_cons (reduceOnce_expr_eq_none hs (Nat.zero_lt_succ 7)) rfl
      (refusal?_expr rfl rfl)

/-- A closing bracket goes on top of what stands behind an opening one. -/
theorem proceed_closer {r : Row} {b c : Symbol} (hb : b = .openParen ∨ b = .openBracket)
    (hc : c = .closeParen ∨ c = .closeBracket) :
    proceed form (r.item :: .token (.symbol b) p :: s) (⟨.symbol c, q⟩ :: ts)
      = proceed form (.token (.symbol c) q :: r.item :: .token (.symbol b) p :: s) ts := by
  -- A row is an expression or a list by now, and no rule joins it with an opening bracket.
  have hn : reduceOnce form (some (.symbol c)) (r.item :: .token (.symbol b) p :: s) = none := by
    cases r with
    | one e =>
      rcases hb with rfl | rfl
      all_goals exact reduceOnce_expr_token nofun nofun nofun
    | more es p' e => exact reduceOnce_of_isQuiet rfl
  rcases hc with rfl | rfl <;> cases r <;> exact proceed_cons hn rfl rfl

/-- The first sign of a conditional goes on an expression and waits for the next one. -/
theorem proceed_condition {e : Expr} {t u : Token} (hs : s.rightLevel ≤ 1) (ht : Completes t u) :
    proceed form (.expr e :: s) (⟨t, p⟩ :: ts) = run form (.token t p :: .expr e :: s) ts := by
  have hm : proceed form (.expr e :: s) (⟨t, p⟩ :: ts)
      = proceed form (.token t p :: .expr e :: s) ts := by
    cases ht
    all_goals
      exact proceed_cons (reduceOnce_expr_eq_none hs (Nat.zero_lt_succ 0)) rfl
        (refusal?_expr rfl rfl)
  rw [hm, proceed_of_isQuiet (by cases ht <;> rfl)]

/-- So does the second one, behind the first one and its expression. -/
theorem proceed_branch {e : Expr} {t u : Token} (ht : Completes t u) :
    proceed form (.expr e :: .token t p :: s) (⟨u, q⟩ :: ts)
      = run form (.token u q :: .expr e :: .token t p :: s) ts := by
  have hm : proceed form (.expr e :: .token t p :: s) (⟨u, q⟩ :: ts)
      = proceed form (.token u q :: .expr e :: .token t p :: s) ts := by
    cases ht
    all_goals
      exact proceed_cons (reduceOnce_expr_token nofun nofun nofun) rfl (refusal?_expr rfl rfl)
  rw [hm, proceed_of_isQuiet (by cases ht <;> rfl)]

end Stack

/-! ## One production at a time -/

/-- Wherever a phrase of level `n` may stand, the parser reads the tokens `us` as the
expression `e`. -/
def Reads (form : Form) (n : Nat) (us : List (Located Token)) (e : Expr) : Prop :=
  ∀ ⦃s : Stack⦄ ⦃ts : List (Located Token)⦄, s.Ready → s.rightLevel ≤ n →
    nextLevel (ts.head?.map Located.value) ≤ n →
    s.run form (us ++ ts) = Stack.proceed form (.expr e :: s) ts

/-- Behind an opening bracket, the parser reads the tokens `us` as the piece `i`. -/
def ReadsRow (form : Form) (us : List (Located Token)) (i : Item) : Prop :=
  ∀ ⦃s : Stack⦄ ⦃b : Symbol⦄ ⦃p : Position⦄ ⦃ts : List (Located Token)⦄,
    b = .openParen ∨ b = .openBracket →
    Rules.endsElement (ts.head?.map Located.value) = true →
    Stack.run form (.token (.symbol b) p :: s) (us ++ ts)
      = Stack.proceed form (i :: .token (.symbol b) p :: s) ts

namespace Reads

open Stack

variable {form : Form} {n : Nat} {us vs ws : List (Located Token)} {e f g : Expr}
  {p q : Position}

/-- A constant is read as itself. -/
theorem literal {t : Located Token} {v : Literal} (ht : t.value.literal? = some v) :
    Reads form n [t] (.literal v t.position) := by
  intro s ts hs _ _
  rw [List.singleton_append, run_cons (hs.refusal?_literal ht), ofToken_literal ht]

/-- A name is read as a variable. -/
theorem name {x : String} : Reads form n [⟨.identifier x, p⟩] (.var x p) := by
  intro s ts hs _ _
  rw [List.singleton_append, run_cons (hs.refusal? rfl rfl)]
  exact proceed_of_rule (.name hs.dot)

/-- Parentheses are read once their expression is. -/
theorem group (h : Reads form 0 us e) :
    Reads form n (⟨.symbol .openParen, p⟩ :: (us ++ [⟨.symbol .closeParen, q⟩])) e := by
  intro s ts hs _ _
  rw [List.cons_append, run_cons (hs.refusal? rfl rfl), List.append_assoc, List.singleton_append]
  calc proceed form (.token (.symbol .openParen) p :: s) (us ++ ⟨.symbol .closeParen, q⟩ :: ts)
    _ = Stack.run form (.token (.symbol .openParen) p :: s)
          (us ++ ⟨.symbol .closeParen, q⟩ :: ts) := proceed_of_isQuiet rfl
    _ = proceed form (.expr e :: .token (.symbol .openParen) p :: s)
          (⟨.symbol .closeParen, q⟩ :: ts) :=
      h (.token nofun) (Nat.le_refl 0) (Nat.le_refl 0)
    _ = proceed form (.token (.symbol .closeParen) q :: .expr e ::
          .token (.symbol .openParen) p :: s) ts :=
      proceed_cons (reduceOnce_expr_token nofun nofun nofun) rfl (refusal?_expr rfl rfl)
    _ = proceed form (.expr e :: s) ts := proceed_of_rule (.group hs.expr)

/-- Empty brackets are read as the empty vector. -/
theorem emptyVector :
    Reads form n [⟨.symbol .openBracket, p⟩, ⟨.symbol .closeBracket, q⟩] (.vector [] p) := by
  intro s ts hs _ _
  rw [List.cons_append, List.singleton_append, run_cons (hs.refusal? rfl rfl)]
  calc proceed form (.token (.symbol .openBracket) p :: s) (⟨.symbol .closeBracket, q⟩ :: ts)
    _ = proceed form (.token (.symbol .closeBracket) q ::
          .token (.symbol .openBracket) p :: s) ts :=
      proceed_cons (reduceOnce_of_isQuiet rfl) rfl rfl
    _ = proceed form (.expr (.vector [] p) :: s) ts :=
      proceed_of_rule (.emptyVector hs.expr)

/-- Brackets are read once their row is. -/
theorem vector {r : Row} (h : ReadsRow form us r.item) :
    Reads form n (⟨.symbol .openBracket, p⟩ :: (us ++ [⟨.symbol .closeBracket, q⟩]))
      (.vector r.trees p) := by
  intro s ts hs _ _
  rw [List.cons_append, run_cons (hs.refusal? rfl rfl), List.append_assoc, List.singleton_append]
  calc proceed form (.token (.symbol .openBracket) p :: s) (us ++ ⟨.symbol .closeBracket, q⟩ :: ts)
    _ = Stack.run form (.token (.symbol .openBracket) p :: s)
          (us ++ ⟨.symbol .closeBracket, q⟩ :: ts) := proceed_of_isQuiet rfl
    _ = proceed form (r.item :: .token (.symbol .openBracket) p :: s)
          (⟨.symbol .closeBracket, q⟩ :: ts) := h (.inr rfl) rfl
    _ = proceed form (.token (.symbol .closeBracket) q :: r.item ::
          .token (.symbol .openBracket) p :: s) ts := proceed_closer (.inr rfl) (.inr rfl)
    _ = proceed form (.expr (.vector r.trees p) :: s) ts := by
      cases r with
      | one e => exact proceed_of_rule (.vectorOne hs.expr)
      | more es p' e =>
        rw [Row.item, proceed_of_rule (.vector hs.expr), List.reverse_reverse]

/-- An expression is read up to the first token of a postfix behind it. -/
theorem run_postfix (h : Reads form 8 us e) {s : Stack} {b : Symbol} {ts : List (Located Token)}
    (hb : b = .dot ∨ b = .openParen ∨ b = .openBracket) (hs : s.Ready) (hl : s.rightLevel ≤ 8) :
    s.run form (us ++ ⟨.symbol b, p⟩ :: ts)
      = Stack.run form (.token (.symbol b) p :: .expr e :: s) ts := by
  have hnext : nextLevel (some (.symbol b)) ≤ 8 := nextLevel_le _
  calc s.run form (us ++ ⟨.symbol b, p⟩ :: ts)
    _ = proceed form (.expr e :: s) (⟨.symbol b, p⟩ :: ts) := h hs hl hnext
    _ = proceed form (.token (.symbol b) p :: .expr e :: s) ts := proceed_postfix hb
    _ = Stack.run form (.token (.symbol b) p :: .expr e :: s) ts := by
      rcases hb with rfl | rfl | rfl <;> exact proceed_of_isQuiet rfl

/-- An access is read behind its object. -/
theorem member {x : String} (h : Reads form 8 us e) (hn : n ≤ 8) :
    Reads form n (us ++ [⟨.symbol .dot, p⟩, ⟨.identifier x, q⟩]) (.member e x p) := by
  intro s ts hs hl _
  calc s.run form (us ++ [⟨.symbol .dot, p⟩, ⟨.identifier x, q⟩] ++ ts)
    _ = s.run form (us ++ ⟨.symbol .dot, p⟩ :: ⟨.identifier x, q⟩ :: ts) := by
      rw [List.append_assoc]
      rfl
    _ = Stack.run form (.token (.symbol .dot) p :: .expr e :: s) (⟨.identifier x, q⟩ :: ts) :=
      h.run_postfix (.inl rfl) hs (Nat.le_trans hl hn)
    _ = proceed form (.token (.identifier x) q :: .token (.symbol .dot) p :: .expr e :: s) ts :=
      run_cons rfl
    _ = proceed form (.expr (.member e x p) :: s) ts := proceed_of_rule .member

/-- A call without arguments is read behind its callee. -/
theorem emptyCall (h : Reads form 8 us e) (hn : n ≤ 8) :
    Reads form n (us ++ [⟨.symbol .openParen, p⟩, ⟨.symbol .closeParen, q⟩])
      (.call e [] (.ofPosition p)) := by
  intro s ts hs hl _
  calc s.run form (us ++ [⟨.symbol .openParen, p⟩, ⟨.symbol .closeParen, q⟩] ++ ts)
    _ = s.run form (us ++ ⟨.symbol .openParen, p⟩ :: ⟨.symbol .closeParen, q⟩ :: ts) := by
      rw [List.append_assoc]
      rfl
    _ = Stack.run form (.token (.symbol .openParen) p :: .expr e :: s)
          (⟨.symbol .closeParen, q⟩ :: ts) :=
      h.run_postfix (.inr (.inl rfl)) hs (Nat.le_trans hl hn)
    _ = proceed form (.token (.symbol .closeParen) q :: .token (.symbol .openParen) p ::
          .expr e :: s) ts := run_cons rfl
    _ = proceed form (.expr (.call e [] (.ofPosition p)) :: s) ts := proceed_of_rule .emptyCall

/-- A call is read behind its callee, once its row of arguments is. -/
theorem call {r : Row} (h : Reads form 8 us e) (hr : ReadsRow form vs r.item) (hn : n ≤ 8) :
    Reads form n (us ++ ⟨.symbol .openParen, p⟩ :: (vs ++ [⟨.symbol .closeParen, q⟩]))
      (.call e r.trees (.ofPosition p)) := by
  intro s ts hs hl _
  calc s.run form (us ++ ⟨.symbol .openParen, p⟩ :: (vs ++ [⟨.symbol .closeParen, q⟩]) ++ ts)
    _ = s.run form (us ++ ⟨.symbol .openParen, p⟩ :: (vs ++ ⟨.symbol .closeParen, q⟩ :: ts)) := by
      simp only [List.append_assoc, List.cons_append, List.nil_append]
    _ = Stack.run form (.token (.symbol .openParen) p :: .expr e :: s)
          (vs ++ ⟨.symbol .closeParen, q⟩ :: ts) :=
      h.run_postfix (.inr (.inl rfl)) hs (Nat.le_trans hl hn)
    _ = proceed form (r.item :: .token (.symbol .openParen) p :: .expr e :: s)
          (⟨.symbol .closeParen, q⟩ :: ts) := hr (.inl rfl) rfl
    _ = proceed form (.token (.symbol .closeParen) q :: r.item :: .token (.symbol .openParen) p ::
          .expr e :: s) ts := proceed_closer (.inl rfl) (.inl rfl)
    _ = proceed form (.expr (.call e r.trees (.ofPosition p)) :: s) ts := by
      cases r with
      | one a => exact proceed_of_rule .callOne
      | more as p' a =>
        rw [Row.item, proceed_of_rule .call, List.reverse_reverse]

/-- An index is read behind its object. -/
theorem index (h : Reads form 8 us e) (hi : Reads form 0 vs f) (hn : n ≤ 8) :
    Reads form n (us ++ ⟨.symbol .openBracket, p⟩ :: (vs ++ [⟨.symbol .closeBracket, q⟩]))
      (.index e f p) := by
  intro s ts hs hl _
  calc s.run form (us ++ ⟨.symbol .openBracket, p⟩ :: (vs ++ [⟨.symbol .closeBracket, q⟩]) ++ ts)
    _ = s.run form (us ++ ⟨.symbol .openBracket, p⟩ ::
          (vs ++ ⟨.symbol .closeBracket, q⟩ :: ts)) := by
      simp only [List.append_assoc, List.cons_append, List.nil_append]
    _ = Stack.run form (.token (.symbol .openBracket) p :: .expr e :: s)
          (vs ++ ⟨.symbol .closeBracket, q⟩ :: ts) :=
      h.run_postfix (.inr (.inr rfl)) hs (Nat.le_trans hl hn)
    _ = proceed form (.expr f :: .token (.symbol .openBracket) p :: .expr e :: s)
          (⟨.symbol .closeBracket, q⟩ :: ts) := hi (.token nofun) (Nat.le_refl 0) (Nat.le_refl 0)
    _ = proceed form (.token (.symbol .closeBracket) q :: .expr f ::
          .token (.symbol .openBracket) p :: .expr e :: s) ts :=
      proceed_cons (reduceOnce_expr_token nofun nofun nofun) rfl (refusal?_expr rfl rfl)
    _ = proceed form (.expr (.index e f p) :: s) ts := proceed_of_rule .index

/-- An operator is read once its operand is. -/
theorem unary {t : Located Token} {op : UnaryOp} (ht : t.value.unaryOp? = some op)
    (h : Reads form 7 us e) (hn : n ≤ 7) :
    Reads form n (t :: us) (.unary op e t.position) := by
  intro s ts hs _ hr
  calc s.run form (t :: us ++ ts)
    _ = proceed form (.unary op t.position :: s) (us ++ ts) := by
      rw [List.cons_append, run_cons (hs.refusal?_unary ht), hs.ofToken_unary ht]
    _ = Stack.run form (.unary op t.position :: s) (us ++ ts) := proceed_of_isQuiet rfl
    _ = proceed form (.expr e :: .unary op t.position :: s) ts :=
      h .unary (Nat.le_refl 7) (Nat.le_trans hr hn)
    _ = proceed form (.expr (.unary op e t.position) :: s) ts :=
      proceed_of_rule (.unary_of_le (Nat.le_trans hr hn))

/-- An operator is read between its operands, the right one being tighter. -/
theorem binary {t : Located Token} {op : BinaryOp} (ht : t.value.binaryOp? = some op)
    (h : Reads form op.precedence us e) (hf : Reads form (op.precedence + 1) vs f)
    (hn : n ≤ op.precedence) : Reads form n (us ++ t :: vs) (.binary op e f t.position) := by
  intro s ts hs hl hr
  have hp : t.value.leftLevel = op.precedence := Token.leftLevel_of_binaryOp? ht
  -- The operator is no tighter than what is waited for, so its left operand is complete.
  have hle : s.rightLevel ≤ nextLevel (some t.value) := by
    rw [nextLevel_some, hp]
    exact Nat.le_trans hl hn
  have hpos : 0 < nextLevel (some t.value) := by
    rw [nextLevel_some, hp]
    exact op.precedence_pos
  calc s.run form (us ++ t :: vs ++ ts)
    _ = s.run form (us ++ t :: (vs ++ ts)) := by rw [List.append_assoc, List.cons_append]
    _ = proceed form (.expr e :: s) (t :: (vs ++ ts)) :=
      h hs (Nat.le_trans hl hn) (Nat.le_of_eq hp)
    _ = proceed form (.binary op t.position :: .expr e :: s) (vs ++ ts) := by
      rw [proceed_cons (reduceOnce_expr_eq_none hle hpos) rfl (refusal?_binary ht),
        ofToken_binary ht]
    _ = Stack.run form (.binary op t.position :: .expr e :: s) (vs ++ ts) :=
      proceed_of_isQuiet rfl
    _ = proceed form (.expr f :: .binary op t.position :: .expr e :: s) ts :=
      hf .binary (Nat.le_refl _) (Nat.le_succ_of_le (Nat.le_trans hr hn))
    _ = proceed form (.expr (.binary op e f t.position) :: s) ts :=
      proceed_of_rule (.binary_of_le (Nat.le_trans hr hn))

/-- Three expressions with the signs of a conditional between them are read once each of them is, as
what the rule for these signs makes of them. -/
theorem conditional {t u : Token} {d : Expr} (htu : Completes t u) (h : Reads form 1 us e)
    (hf : Reads form 0 vs f) (hg : Reads form 0 ws g)
    (hd : ∀ {next : Option Token} {s : Stack}, Rules.continuesBranch next = false →
      Rule form next (.expr g :: .token u q :: .expr f :: .token t p :: .expr e :: s)
        (.expr d :: s))
    (hn : n = 0) : Reads form n (us ++ ⟨t, p⟩ :: (vs ++ ⟨u, q⟩ :: ws)) d := by
  intro s ts hs hl hr
  subst hn
  have ht : nextLevel (some t) ≤ 1 := by cases htu <;> exact Nat.le_refl 1
  have hu : nextLevel (some u) ≤ 0 := by cases htu <;> exact Nat.le_refl 0
  have hdot : t ≠ .symbol .dot ∧ u ≠ .symbol .dot := by cases htu <;> exact ⟨nofun, nofun⟩
  calc s.run form (us ++ ⟨t, p⟩ :: (vs ++ ⟨u, q⟩ :: ws) ++ ts)
    _ = s.run form (us ++ ⟨t, p⟩ :: (vs ++ ⟨u, q⟩ :: (ws ++ ts))) := by
      simp only [List.append_assoc, List.cons_append]
    _ = proceed form (.expr e :: s) (⟨t, p⟩ :: (vs ++ ⟨u, q⟩ :: (ws ++ ts))) :=
      h hs (Nat.le_succ_of_le hl) ht
    _ = Stack.run form (.token t p :: .expr e :: s) (vs ++ ⟨u, q⟩ :: (ws ++ ts)) :=
      proceed_condition (Nat.le_succ_of_le hl) htu
    _ = proceed form (.expr f :: .token t p :: .expr e :: s) (⟨u, q⟩ :: (ws ++ ts)) :=
      hf (.token hdot.1) (Nat.le_refl 0) hu
    _ = Stack.run form (.token u q :: .expr f :: .token t p :: .expr e :: s) (ws ++ ts) :=
      proceed_branch htu
    _ = proceed form (.expr g :: .token u q :: .expr f :: .token t p :: .expr e :: s) ts :=
      hg (.token hdot.2) (Nat.le_refl 0) hr
    _ = proceed form (.expr d :: s) ts :=
      proceed_of_rule (hd (continuesBranch_eq_false (Nat.le_zero.1 hr)))

end Reads

namespace ReadsRow

open Stack

variable {form : Form} {us vs : List (Located Token)} {e : Expr} {p : Position}

/-- An expression is read as a row of one element. -/
theorem one (h : Reads form 0 us e) : ReadsRow form us (.expr e) := by
  intro s b p ts hb he
  -- Behind a row stands a comma or a closing bracket, which ends every expression.
  have hready : Ready (.token (.symbol b) p :: s) := by
    rcases hb with rfl | rfl <;> exact .token nofun
  exact h hready (Nat.le_refl 0) (Nat.le_of_eq (nextLevel_of_endsElement he))

/-- A comma behind a row waits for one more expression. -/
theorem proceed_comma {r : Row} {s : Stack} {b : Symbol} {q : Position}
    {ts : List (Located Token)} (hb : b = .openParen ∨ b = .openBracket) :
    proceed form (r.item :: .token (.symbol b) q :: s) (⟨.symbol .comma, p⟩ :: ts)
      = Stack.run form (.token (.symbol .comma) p :: r.item :: .token (.symbol b) q :: s) ts := by
  have hn : reduceOnce form (some (.symbol .comma)) (r.item :: .token (.symbol b) q :: s)
      = none := by
    cases r with
    | one e =>
      rcases hb with rfl | rfl
      all_goals exact reduceOnce_expr_token nofun nofun nofun
    | more es p' e => exact reduceOnce_of_isQuiet rfl
  have hm : proceed form (r.item :: .token (.symbol b) q :: s) (⟨.symbol .comma, p⟩ :: ts)
      = proceed form (.token (.symbol .comma) p :: r.item :: .token (.symbol b) q :: s) ts := by
    cases r <;> exact proceed_cons hn rfl rfl
  rw [hm, proceed_of_isQuiet rfl]

/-- A row is read further behind a comma. -/
theorem more {r : Row} {d : Phrase} (hr : ReadsRow form us r.item)
    (h : Reads form 0 vs d.tree) :
    ReadsRow form (us ++ ⟨.symbol .comma, p⟩ :: vs) (Row.more r p d).item := by
  intro s b q ts hb he
  calc Stack.run form (.token (.symbol b) q :: s) (us ++ ⟨.symbol .comma, p⟩ :: vs ++ ts)
    _ = Stack.run form (.token (.symbol b) q :: s) (us ++ ⟨.symbol .comma, p⟩ :: (vs ++ ts)) := by
      rw [List.append_assoc, List.cons_append]
    _ = proceed form (r.item :: .token (.symbol b) q :: s) (⟨.symbol .comma, p⟩ :: (vs ++ ts)) :=
      hr hb rfl
    _ = Stack.run form (.token (.symbol .comma) p :: r.item :: .token (.symbol b) q :: s)
          (vs ++ ts) := proceed_comma hb
    _ = proceed form (.expr d.tree :: .token (.symbol .comma) p :: r.item ::
          .token (.symbol b) q :: s) ts :=
      h (.token nofun) (Nat.le_refl 0) (Nat.le_of_eq (nextLevel_of_endsElement he))
    _ = proceed form ((Row.more r p d).item :: .token (.symbol b) q :: s) ts := by
      cases r with
      | one e => exact proceed_of_rule (.pair he)
      | more es p' e =>
        have ht : (Row.more (.more es p' e) p d).trees.reverse
            = d.tree :: (Row.more es p' e).trees.reverse := by
          rw [Row.trees, List.reverse_append]
          rfl
        rw [Row.item, proceed_of_rule (.list he), Row.item, ht]
        rfl

end ReadsRow

/-! ## Whole phrases -/

mutual

/-- The parser reads every phrase of a level wherever a phrase of that level may stand. -/
theorem reads_phrase (form : Form) {n : Nat} :
    (d : Phrase) → d.Fits n → Reads form n d.tokens d.tree
  | .literal _ _, h => .literal h.2
  | .name _ _, _ => .name
  | .group _ e _, h => .group (reads_phrase form e h.2)
  | .emptyVector _ _, _ => .emptyVector
  | .vector _ es _, h => .vector (reads_row form es h.2)
  | .member o _ _ _, h => .member (reads_phrase form o h.2) h.1
  | .emptyCall f _ _, h => .emptyCall (reads_phrase form f h.2) h.1
  | .call f _ as _, h => .call (reads_phrase form f h.2.1) (reads_row form as h.2.2) h.1
  | .index o _ i _, h => .index (reads_phrase form o h.2.1) (reads_phrase form i h.2.2) h.1
  | .unary _ _ e, h => .unary h.2.1 (reads_phrase form e h.2.2) h.1
  | .binary l _ _ r, h =>
    .binary h.2.1 (reads_phrase form l h.2.2.1) (reads_phrase form r h.2.2.2) h.1
  | .question c _ y _ e, h =>
    .conditional .colon (reads_phrase form c h.2.1) (reads_phrase form y h.2.2.1)
      (reads_phrase form e h.2.2.2) .question (Nat.le_zero.1 h.1)
  | .ifElse y _ c _ e, h =>
    .conditional .elseWord (reads_phrase form y h.2.1) (reads_phrase form c h.2.2.1)
      (reads_phrase form e h.2.2.2) .ifElse (Nat.le_zero.1 h.1)

/-- The parser reads every row behind an opening bracket. -/
theorem reads_row (form : Form) : (r : Row) → r.Fits → ReadsRow form r.tokens r.item
  | .one e, h => .one (reads_phrase form e h)
  | .more r _ _, h => .more (reads_row form r h.1) (reads_phrase form _ h.2)

end

namespace Stack

/-- An expression on top of nothing is what the parser ends with. -/
theorem proceed_expr_nil {form : Form} {e : Expr} :
    proceed form [.expr e] [] = .ok [.expr e] := by
  rw [proceed_eq_run _ checkClosed_expr]
  · rfl
  · cases form <;> rfl

end Stack

/-- What a phrase derives is accepted, with the tree of the phrase. -/
theorem parseExpression_of_derives {d : Phrase} {ts : List (Located Token)} (h : d.Derives ts) :
    parseExpression ts = .ok d.tree := by
  -- Nothing is below the phrase and nothing behind it, so both bounds are zero.
  have hready : Stack.Ready [] := ⟨rfl, rfl⟩
  have hend : nextLevel (([] : List (Located Token)).head?.map Located.value) ≤ 0 := Nat.le_refl 0
  have hrun : Stack.run .expression [] (d.tokens ++ []) = .ok [.expr d.tree] := by
    rw [reads_phrase .expression d h.1 hready (Nat.le_refl 0) hend, Stack.proceed_expr_nil]
  rw [List.append_nil, h.2] at hrun
  rw [parseExpression, hrun]

end MapExpr
