import MapExpr.Parse
import MapExpr.Proofs.Safety.Breach

/-!
# Rules on the last pieces of the stack

The stack is kept as a sequence whose last item is its top. A rule looks at a window, the last few
pieces, and puts a single piece in their place. Where the window begins is counted from the length
of the stack, so that a window reaches below the bottom if the stack is too short.
`reduceOnceChecked` tries the rules in this way, with every index checked; it does what
`reduceOnce` does on every stack (`reduceOnceChecked_eq`).
-/

namespace MapExpr

/-! ## Windows -/

namespace Window

/-- A member of the expression before the point. -/
def member : List Item → Option Item
  | [.expr object, .token (.symbol .dot) p, .token (.identifier name) _] =>
    some (.expr (.member object name p))
  | _ => none

/-- A name on its own. -/
def name : List Item → Option Item
  | [.token (.identifier name) p] => some (.expr (.var name p))
  | _ => none

/-- A call without arguments. -/
def emptyCall : List Item → Option Item
  | [.expr callee, .token (.symbol .openParen) p, .token (.symbol .closeParen) _] =>
    some (.expr (.call callee [] (.ofPosition p)))
  | _ => none

/-- A call with arguments. -/
def call : List Item → Option Item
  | [.expr callee, .token (.symbol .openParen) p, .expr argument,
      .token (.symbol .closeParen) _] =>
    some (.expr (.call callee [argument] (.ofPosition p)))
  | [.expr callee, .token (.symbol .openParen) p, .list arguments _,
      .token (.symbol .closeParen) _] =>
    some (.expr (.call callee arguments.reverse (.ofPosition p)))
  | _ => none

/-- An expression in parentheses. -/
def group : List Item → Option Item
  | [.token (.symbol .openParen) _, .expr inner, .token (.symbol .closeParen) _] =>
    some (.expr inner)
  | _ => none

/-- A component of the expression before the bracket. -/
def index : List Item → Option Item
  | [.expr object, .token (.symbol .openBracket) p, .expr index,
      .token (.symbol .closeBracket) _] =>
    some (.expr (.index object index p))
  | _ => none

/-- A vector without components. -/
def emptyVector : List Item → Option Item
  | [.token (.symbol .openBracket) p, .token (.symbol .closeBracket) _] =>
    some (.expr (.vector [] p))
  | _ => none

/-- A vector with components. -/
def vector : List Item → Option Item
  | [.token (.symbol .openBracket) p, .expr element, .token (.symbol .closeBracket) _] =>
    some (.expr (.vector [element] p))
  | [.token (.symbol .openBracket) p, .list elements _, .token (.symbol .closeBracket) _] =>
    some (.expr (.vector elements.reverse p))
  | _ => none

/-- An operator in front of its operand. -/
def unary : List Item → Option Item
  | [.unary op p, .expr operand] => some (.expr (.unary op operand p))
  | _ => none

/-- An operator between its operands. -/
def binary : List Item → Option Item
  | [.expr left, .binary op p, .expr right] => some (.expr (.binary op left right p))
  | _ => none

/-- A conditional in one of its two forms. -/
def conditional : List Item → Option Item
  | [.expr condition, .token (.symbol .question) p, .expr yes, .token (.symbol .colon) _,
      .expr no] =>
    some (.expr (.conditional condition yes no p))
  | [.expr yes, .token (.keyword .ifWord) p, .expr condition, .token (.keyword .elseWord) _,
      .expr no] =>
    some (.expr (.conditional condition yes no p))
  | _ => none

/-- A list with one more element. -/
def list : List Item → Option Item
  | [.expr first, .token (.symbol .comma) _, .expr last] =>
    some (.list [last, first] first.position)
  | [.list es p, .token (.symbol .comma) _, .expr last] => some (.list (last :: es) p)
  | _ => none

/-- An entry of a batch. -/
def entry : List Item → Option Item
  | [.expr (.var name p), .token (.symbol .assign) _, .expr value,
      .token (.symbol .semicolon) _] =>
    some (.entries [⟨name, value, p⟩])
  | _ => none

/-- Entries that follow each other. -/
def join : List Item → Option Item
  | [.entries earlier, .entries later] => some (.entries (later ++ earlier))
  | _ => none

end Window

/-- Puts what a rule makes of the last `n` pieces in their place. -/
def attempt (n : Nat) (rule : List Item → Option Item) (s : Stack) : Guarded (Option Stack) :=
  if n ≤ s.length then do
    let (below, window) ← splitOff s.reverse (s.length - n)
    return (rule window).map fun i => i :: below.reverse
  else .ok none

/-- The first outcome, or the other one if no rule fits. -/
def otherwise (x y : Guarded (Option Stack)) : Guarded (Option Stack) := do
  match ← x with
  | some t => return some t
  | none => y

section Attempts

variable {n : Nat} {rule : List Item → Option Item} {s : Stack} {a b c d e : Item}

/-- A rule that looks at as many pieces as there are in the window sees just these. -/
theorem attempt_append (w : List Item) :
    attempt w.length rule (w ++ s) = .ok ((rule w.reverse).map (· :: s)) := by
  have hlength : (w ++ s).length - w.length = s.reverse.length := by
    rw [List.length_append, List.length_reverse, Nat.add_sub_cancel_left]
  have hle : w.length ≤ (w ++ s).length := by
    rw [List.length_append]
    exact Nat.le_add_right _ _
  rw [attempt, if_pos hle, hlength, List.reverse_append, splitOff_append, Guarded.ok_bind]
  simp only [List.reverse_reverse]
  rfl

theorem attempt_one : attempt 1 rule (a :: s) = .ok ((rule [a]).map (· :: s)) :=
  attempt_append [a]

theorem attempt_two : attempt 2 rule (a :: b :: s) = .ok ((rule [b, a]).map (· :: s)) :=
  attempt_append [a, b]

theorem attempt_three : attempt 3 rule (a :: b :: c :: s) = .ok ((rule [c, b, a]).map (· :: s)) :=
  attempt_append [a, b, c]

theorem attempt_four :
    attempt 4 rule (a :: b :: c :: d :: s) = .ok ((rule [d, c, b, a]).map (· :: s)) :=
  attempt_append [a, b, c, d]

theorem attempt_five :
    attempt 5 rule (a :: b :: c :: d :: e :: s) = .ok ((rule [e, d, c, b, a]).map (· :: s)) :=
  attempt_append [a, b, c, d, e]

/-- A window that the stack does not end in, or is too short for, is left alone. -/
theorem attempt_eq_none (h : ∀ w t i, rule w = some i → s ≠ w.reverse ++ t) :
    attempt n rule s = .ok none := by
  by_cases hn : n ≤ s.length
  · have hsplit : attempt _ rule (s.take n ++ s.drop n) = _ := attempt_append (s.take n)
    rw [List.take_append_drop, List.length_take_of_le hn] at hsplit
    cases hw : rule (s.take n).reverse with
    | none => rw [hsplit, hw]; rfl
    | some i =>
      refine absurd ?_ (h _ (s.drop n) i hw)
      rw [List.reverse_reverse, List.take_append_drop]
  · exact if_neg hn

/-- Rules tried one after the other without a breach are the first of them that fits. -/
theorem otherwise_ok (x y : Option Stack) : otherwise (.ok x) (.ok y) = .ok (x.or y) := by
  cases x <;> rfl

end Attempts

/-! ## Windows that do not fit

A window does nothing on a stack that does not end in one of the patterns it looks for. There is one
lemma for each window, with its patterns as the hypotheses.
-/

namespace Window

variable {n : Nat} {s : Stack}

theorem member_absent (h : ∀ x q p e t,
    s ≠ .token (.identifier x) q :: .token (.symbol .dot) p :: .expr e :: t) :
    attempt n member s = .ok none := by
  refine attempt_eq_none fun w t i hw => ?_
  unfold member at hw
  split at hw <;> cases hw
  exact h _ _ _ _ _

theorem name_absent (h : ∀ x q t, s ≠ .token (.identifier x) q :: t) :
    attempt n name s = .ok none := by
  refine attempt_eq_none fun w t i hw => ?_
  unfold name at hw
  split at hw <;> cases hw
  exact h _ _ _

theorem emptyCall_absent (h : ∀ q p f t,
    s ≠ .token (.symbol .closeParen) q :: .token (.symbol .openParen) p :: .expr f :: t) :
    attempt n emptyCall s = .ok none := by
  refine attempt_eq_none fun w t i hw => ?_
  unfold emptyCall at hw
  split at hw <;> cases hw
  exact h _ _ _ _

theorem call_absent
    (he : ∀ q a p f t, s ≠ .token (.symbol .closeParen) q :: .expr a ::
      .token (.symbol .openParen) p :: .expr f :: t)
    (hl : ∀ q as r p f t, s ≠ .token (.symbol .closeParen) q :: .list as r ::
      .token (.symbol .openParen) p :: .expr f :: t) :
    attempt n call s = .ok none := by
  refine attempt_eq_none fun w t i hw => ?_
  unfold call at hw
  split at hw <;> cases hw
  · exact he _ _ _ _ _
  · exact hl _ _ _ _ _ _

theorem group_absent (h : ∀ q e p t,
    s ≠ .token (.symbol .closeParen) q :: .expr e :: .token (.symbol .openParen) p :: t) :
    attempt n group s = .ok none := by
  refine attempt_eq_none fun w t i hw => ?_
  unfold group at hw
  split at hw <;> cases hw
  exact h _ _ _ _

theorem index_absent (h : ∀ q i p e t, s ≠ .token (.symbol .closeBracket) q :: .expr i ::
      .token (.symbol .openBracket) p :: .expr e :: t) :
    attempt n index s = .ok none := by
  refine attempt_eq_none fun w t i hw => ?_
  unfold index at hw
  split at hw <;> cases hw
  exact h _ _ _ _ _

theorem emptyVector_absent (h : ∀ q p t,
    s ≠ .token (.symbol .closeBracket) q :: .token (.symbol .openBracket) p :: t) :
    attempt n emptyVector s = .ok none := by
  refine attempt_eq_none fun w t i hw => ?_
  unfold emptyVector at hw
  split at hw <;> cases hw
  exact h _ _ _

theorem vector_absent
    (he : ∀ q e p t, s ≠ .token (.symbol .closeBracket) q :: .expr e ::
      .token (.symbol .openBracket) p :: t)
    (hl : ∀ q es r p t, s ≠ .token (.symbol .closeBracket) q :: .list es r ::
      .token (.symbol .openBracket) p :: t) :
    attempt n vector s = .ok none := by
  refine attempt_eq_none fun w t i hw => ?_
  unfold vector at hw
  split at hw <;> cases hw
  · exact he _ _ _ _
  · exact hl _ _ _ _ _

theorem unary_absent (h : ∀ e op p t, s ≠ .expr e :: .unary op p :: t) :
    attempt n unary s = .ok none := by
  refine attempt_eq_none fun w t i hw => ?_
  unfold unary at hw
  split at hw <;> cases hw
  exact h _ _ _ _

theorem binary_absent (h : ∀ r op p l t, s ≠ .expr r :: .binary op p :: .expr l :: t) :
    attempt n binary s = .ok none := by
  refine attempt_eq_none fun w t i hw => ?_
  unfold binary at hw
  split at hw <;> cases hw
  exact h _ _ _ _ _

theorem conditional_absent
    (hq : ∀ no r yes p c t, s ≠ .expr no :: .token (.symbol .colon) r :: .expr yes ::
      .token (.symbol .question) p :: .expr c :: t)
    (hi : ∀ no r c p yes t, s ≠ .expr no :: .token (.keyword .elseWord) r :: .expr c ::
      .token (.keyword .ifWord) p :: .expr yes :: t) :
    attempt n conditional s = .ok none := by
  refine attempt_eq_none fun w t i hw => ?_
  unfold conditional at hw
  split at hw <;> cases hw
  · exact hq _ _ _ _ _ _
  · exact hi _ _ _ _ _ _

theorem list_absent
    (he : ∀ e r f t, s ≠ .expr e :: .token (.symbol .comma) r :: .expr f :: t)
    (hl : ∀ e r es p t, s ≠ .expr e :: .token (.symbol .comma) r :: .list es p :: t) :
    attempt n list s = .ok none := by
  refine attempt_eq_none fun w t i hw => ?_
  unfold list at hw
  split at hw <;> cases hw
  · exact he _ _ _ _
  · exact hl _ _ _ _ _

theorem entry_absent (h : ∀ r v q x p t, s ≠ .token (.symbol .semicolon) r :: .expr v ::
      .token (.symbol .assign) q :: .expr (.var x p) :: t) :
    attempt n entry s = .ok none := by
  refine attempt_eq_none fun w t i hw => ?_
  unfold entry at hw
  split at hw <;> cases hw
  exact h _ _ _ _ _ _

theorem join_absent (h : ∀ later earlier t, s ≠ .entries later :: .entries earlier :: t) :
    attempt n join s = .ok none := by
  refine attempt_eq_none fun w t i hw => ?_
  unfold join at hw
  split at hw <;> cases hw
  exact h _ _ _

end Window

/-! ## The rules -/

section Rules

open Rules

/-- A member access goes before a name on its own. -/
def nameChecked (s : Stack) : Guarded (Option Stack) :=
  otherwise (attempt 3 Window.member s) (attempt 1 Window.name s)

/-- The rules on names look at pieces that are there. -/
theorem nameChecked_eq (s : Stack) : nameChecked s = .ok (name? s) := by
  unfold nameChecked name?
  split
  · rw [attempt_three]
    rfl
  · next h =>
    rw [attempt_one, Window.member_absent fun x q p e t hs => by cases hs; exact h _ _ _ rfl]
    rfl
  · next hm hn =>
    rw [Window.member_absent hm, Window.name_absent hn]
    rfl

/-- A call goes before a group. -/
def parenChecked (s : Stack) : Guarded (Option Stack) :=
  otherwise (attempt 3 Window.emptyCall s) <|
    otherwise (attempt 4 Window.call s) (attempt 3 Window.group s)

/-- The rules on parentheses look at pieces that are there. -/
theorem parenChecked_eq (s : Stack) : parenChecked s = .ok (paren? s) := by
  unfold parenChecked paren?
  split
  · rw [attempt_three]
    rfl
  · rw [attempt_three, attempt_four]
    rfl
  · rw [attempt_three, attempt_four]
    rfl
  · next h =>
    rw [attempt_three, attempt_three, Window.call_absent
      (fun _ _ _ _ _ hs => by cases hs; exact h _ _ rfl) (fun _ _ _ _ _ _ hs => by cases hs)]
    rfl
  · next hempty hone hmany hgroup =>
    rw [Window.emptyCall_absent hempty, Window.call_absent hone hmany, Window.group_absent hgroup]
    rfl

/-- Whether the piece that is `depth` places below the top is a finished expression. -/
def isExprAt (s : Stack) (depth : Nat) : Guarded Bool := do
  let below ← Word.add depth 1
  if below ≤ s.length then return (s.reverse[s.length - below]?).any Item.isExpr
  else return false

/-- Looking below the top counts down from the length without a breach. -/
theorem isExprAt_eq {depth : Nat} (h : depth + 1 < Word.limit) (s : Stack) :
    isExprAt s depth = .ok (Stack.topIsExpr (s.drop depth)) := by
  rw [isExprAt, Word.add_eq h, Guarded.ok_bind]
  by_cases hd : depth + 1 ≤ s.length
  · have hindex : s.length - (depth + 1) < s.length := by omega
    have hback : s.length - 1 - (s.length - (depth + 1)) = depth := by omega
    rw [if_pos hd, List.getElem?_reverse hindex, hback, List.drop_eq_getElem_cons hd,
      List.getElem?_eq_getElem hd]
    cases s[depth] <;> rfl
  · rw [if_neg hd, List.drop_eq_nil_of_le (Nat.le_of_not_lt hd)]
    rfl

/-- An index goes before a vector. Brackets behind an expression are no vector. -/
def bracketChecked (s : Stack) : Guarded (Option Stack) :=
  otherwise (attempt 4 Window.index s) do
    let bare := !(← isExprAt s 2)
    let free := !(← isExprAt s 3)
    otherwise (if bare then attempt 2 Window.emptyVector s else .ok none)
      (if free then attempt 3 Window.vector s else .ok none)

/-- The rules on brackets look at pieces that are there. -/
theorem bracketChecked_eq (s : Stack) : bracketChecked s = .ok (bracket? s) := by
  rw [bracketChecked, isExprAt_eq (by decide), isExprAt_eq (by decide), Guarded.ok_bind,
    Guarded.ok_bind]
  dsimp only
  fun_cases bracket? s with
  | case1 =>
    rw [attempt_four]
    rfl
  | case2 q e p s h =>
    have htop : Stack.topIsExpr s = false := by
      unfold Stack.topIsExpr
      split
      · next f t => exact absurd rfl (h f t)
      · rfl
    rw [Window.index_absent, attempt_two, attempt_three]
    · show otherwise _ (otherwise _ (if (!Stack.topIsExpr s) = true then _ else _)) = _
      rw [htop]
      rfl
    · intro _ _ _ _ _ hs
      cases hs
      exact h _ _ rfl
  | case3 q es r p s htop =>
    rw [Window.index_absent, attempt_two]
    · show otherwise _ (otherwise _ (if (!Stack.topIsExpr s) = true then _ else _)) = _
      rw [htop]
      rfl
    · exact nofun
  | case4 q es r p s htop =>
    rw [Window.index_absent, attempt_two, attempt_three]
    · show otherwise _ (otherwise _ (if (!Stack.topIsExpr s) = true then _ else _)) = _
      rw [Bool.eq_false_iff.2 htop]
      rfl
    · exact nofun
  | case5 q p s htop =>
    rw [Window.index_absent, Window.vector_absent, ite_self]
    · show otherwise _ (otherwise (if (!Stack.topIsExpr s) = true then _ else _) _) = _
      rw [htop]
      rfl
    all_goals exact nofun
  | case6 q p s htop =>
    rw [Window.index_absent, Window.vector_absent, ite_self, attempt_two]
    · show otherwise _ (otherwise (if (!Stack.topIsExpr s) = true then _ else _) _) = _
      rw [Bool.eq_false_iff.2 htop]
      rfl
    all_goals exact nofun
  | case7 s hindex hone hmany hempty =>
    rw [Window.index_absent hindex, Window.emptyVector_absent hempty,
      Window.vector_absent hone hmany, ite_self, ite_self]
    rfl

/-- An operator in front of an operand that does not go on. -/
def unaryChecked (next : Option Token) (s : Stack) : Guarded (Option Stack) :=
  if continuesOperand next then .ok none else attempt 2 Window.unary s

/-- The rule on operators in front looks at pieces that are there. -/
theorem unaryChecked_eq (next : Option Token) (s : Stack) :
    unaryChecked next s = .ok (unary? next s) := by
  unfold unary?
  split
  · rw [unaryChecked, attempt_two]
    split <;> rfl
  · next h => rw [unaryChecked, Window.unary_absent h, ite_self]

/-- Whether the next token belongs to an operator that binds tighter than the one below the top. -/
def tighterFollows (next : Option Token) (s : Stack) : Guarded Bool :=
  if 2 ≤ s.length then do
    match ← item s.reverse (s.length - 2) with
    | .binary op _ => return bindsTighter next op
    | _ => return false
  else .ok false

/-- An operator between operands, of which the right one belongs to it. -/
def binaryChecked (next : Option Token) (s : Stack) : Guarded (Option Stack) :=
  if continuesOperand next then .ok none
  else do
    if ← tighterFollows next s then return none
    else attempt 3 Window.binary s

/-- The operator that the next token is compared with lies below the top. -/
theorem tighterFollows_eq (next : Option Token) (a b : Item) (s : Stack) :
    tighterFollows next (a :: b :: s)
      = .ok (match b with | .binary op _ => bindsTighter next op | _ => false) := by
  have hlength : (a :: b :: s).length - 2 = s.length := by simp
  have hitem : (a :: b :: s).reverse[s.length]? = some b := by
    simp
  rw [tighterFollows, if_pos (by simp), hlength, item_eq hitem, Guarded.ok_bind]
  cases b <;> rfl

/-- The rule on operators between operands looks at pieces that are there. -/
theorem binaryChecked_eq (next : Option Token) (s : Stack) :
    binaryChecked next s = .ok (binary? next s) := by
  unfold binary?
  split
  · rw [binaryChecked, tighterFollows_eq, Guarded.ok_bind, attempt_three]
    dsimp only
    cases continuesOperand next with
    | true => rfl
    | false =>
      rw [Bool.false_or, if_neg Bool.false_ne_true]
      split <;> rfl
  · next h =>
    rw [binaryChecked, Window.binary_absent h]
    split
    · rfl
    · match s with
      | [] | [_] => rfl
      | a :: b :: s =>
        rw [tighterFollows_eq, Guarded.ok_bind]
        exact ite_self _

/-- A conditional whose last branch does not go on. -/
def conditionalChecked (next : Option Token) (s : Stack) : Guarded (Option Stack) :=
  if continuesBranch next then .ok none else attempt 5 Window.conditional s

/-- The rules on conditionals look at pieces that are there. -/
theorem conditionalChecked_eq (next : Option Token) (s : Stack) :
    conditionalChecked next s = .ok (conditional? next s) := by
  unfold conditional?
  split
  · rw [conditionalChecked, attempt_five]
    split <;> rfl
  · rw [conditionalChecked, attempt_five]
    split <;> rfl
  · next hq hi =>
    rw [conditionalChecked, Window.conditional_absent hq hi, ite_self]

/-- A list with one more element, if that ends here. -/
def listChecked (next : Option Token) (s : Stack) : Guarded (Option Stack) :=
  if endsElement next then attempt 3 Window.list s else .ok none

/-- The rules on lists look at pieces that are there. -/
theorem listChecked_eq (next : Option Token) (s : Stack) :
    listChecked next s = .ok (list? next s) := by
  unfold list?
  split
  · rw [listChecked, attempt_three]
    split <;> rfl
  · rw [listChecked, attempt_three]
    split <;> rfl
  · next he hl =>
    rw [listChecked, Window.list_absent he hl, ite_self]

/-- The rule on entries looks at pieces that are there. -/
theorem attempt_entry (s : Stack) : attempt 4 Window.entry s = .ok (Rules.entry? s) := by
  unfold entry?
  split
  · rw [attempt_four]
    rfl
  · next h => rw [Window.entry_absent h]

/-- The rule that joins entries looks at pieces that are there. -/
theorem attempt_join (s : Stack) : attempt 2 Window.join s = .ok (join? s) := by
  unfold join?
  split
  · rw [attempt_two]
    rfl
  · next h => rw [Window.join_absent h]

/-- One reduction: the rules in their order, each on its window. -/
def reduceOnceChecked (form : Form) (next : Option Token) (s : Stack) : Guarded (Option Stack) :=
  otherwise (nameChecked s) <| otherwise (parenChecked s) <| otherwise (bracketChecked s) <|
    otherwise (unaryChecked next s) <| otherwise (binaryChecked next s) <|
    otherwise (conditionalChecked next s) <| otherwise (listChecked next s) <|
    if form = .batch then otherwise (attempt 4 Window.entry s) (attempt 2 Window.join s)
    else .ok none

/-- On no stack does a rule reach outside of it, and the rules do what those on the top do. -/
theorem reduceOnceChecked_eq (form : Form) (next : Option Token) (s : Stack) :
    reduceOnceChecked form next s = .ok (reduceOnce form next s) := by
  have hbatch :
      (if form = .batch then otherwise (attempt 4 Window.entry s) (attempt 2 Window.join s)
        else .ok none)
      = .ok (if form = .batch then entry? s <|> join? s else none) := by
    split
    · rw [attempt_entry, attempt_join, otherwise_ok, Option.orElse_eq_orElse, Option.orElse_eq_or]
    · rfl
  simp only [reduceOnceChecked, nameChecked_eq, parenChecked_eq, bracketChecked_eq,
    unaryChecked_eq, binaryChecked_eq, conditionalChecked_eq, listChecked_eq, hbatch, otherwise_ok,
    reduceOnce, Option.orElse_eq_orElse, Option.orElse_eq_or]

end Rules

end MapExpr
