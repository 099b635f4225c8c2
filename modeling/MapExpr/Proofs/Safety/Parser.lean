import MapExpr.Proofs.Parsing.Bottom
import MapExpr.Proofs.Safety.Windows

/-!
# The parser stays inside its tokens

The parser reads its tokens through a cursor, counts the conditionals that are closed further up on
the stack, and applies the rules to windows of the stack. `parseExpressionChecked` and
`parseBatchChecked` are the parsers with these operations checked. No piece is put on the stack
without a token that has been read, and no rule makes the stack longer, so that the stack never
holds more pieces than tokens have been read (`Stack.length_le_of_step`), and no number that is
counted exceeds the number of tokens (`Stack.runChecked_eq`).
-/

namespace MapExpr

variable {form : Form} {next : Option Token} {s t : Stack}

/-! ## The length of the stack -/

/-- A rule leaves no more pieces than there were. -/
theorem Joins.length_le (h : Joins s t) : t.length ≤ s.length := by
  cases h with
  | pieces i s hw =>
    have hpos := List.length_pos_iff.2 hw
    rw [List.length_append, List.length_cons]
    omega
  | entries => exact Nat.le_succ _

/-- All rules together leave no more pieces than there were. -/
theorem length_reduce_le (form : Form) (next : Option Token) (s : Stack) :
    (reduce form next s).length ≤ s.length := by
  fun_induction reduce form next s with
  | case1 s t h ih => exact Nat.le_trans ih (rule_of_reduceOnce h).joins.length_le
  | case2 s h => exact Nat.le_refl _

/-- A token makes the stack longer by one piece at most. -/
theorem Stack.length_le_of_step {u : Located Token} (h : s.step form u next = .ok t) :
    t.length ≤ s.length + 1 := by
  obtain ⟨-, rfl, -⟩ := step_eq_ok_iff.1 h
  exact length_reduce_le form next _

/-! ## Reductions -/

/-- Applies rules as long as one fits. -/
def reduceChecked (form : Form) (next : Option Token) (s : Stack) : Guarded Stack :=
  match _h : reduceOnceChecked form next s with
  | .ok (some t) => reduceChecked form next t
  | .ok none => .ok s
  | .error b => .error b
termination_by s.weight
decreasing_by
  rw [reduceOnceChecked_eq] at _h
  exact weight_lt_of_reduceOnce (Except.ok.inj _h)

/-- The rules are applied without a breach, however many fit. -/
theorem reduceChecked_eq (form : Form) (next : Option Token) (s : Stack) :
    reduceChecked form next s = .ok (reduce form next s) := by
  fun_induction reduce form next s with
  | case1 s t h ih =>
    have honce := reduceOnceChecked_eq form next s
    rw [h] at honce
    rw [reduceChecked, ← ih]
    split
    · next u hu => rw [Option.some.inj (Except.ok.inj (hu.symm.trans honce))]
    · next hu => cases hu.symm.trans honce
    · next b hu => cases hu.symm.trans honce
  | case2 s h =>
    have honce := reduceOnceChecked_eq form next s
    rw [h] at honce
    rw [reduceChecked]
    split
    · next u hu => cases hu.symm.trans honce
    · rfl
    · next b hu => cases hu.symm.trans honce

namespace Stack

/-! ## Admission -/

/-- Whether some `opener` has no `closer` yet, where those that have one are counted in a word. -/
def hasPendingChecked (opener closer : Token) (closed : Nat) : Stack → Guarded Bool
  | [] => .ok false
  | .token t _ :: s =>
    if t = closer then do hasPendingChecked opener closer (← Word.add closed 1) s
    else if t = opener then
      if closed = 0 then .ok true
      else do hasPendingChecked opener closer (← Word.sub closed 1) s
    else if t = .symbol .openParen ∨ t = .symbol .openBracket then .ok false
    else hasPendingChecked opener closer closed s
  | _ :: s => hasPendingChecked opener closer closed s

/-- Counting closers stays inside a word, since there are no more of them than pieces. -/
theorem hasPendingChecked_eq {opener closer : Token} {closed : Nat}
    (h : closed + s.length < Word.limit) :
    hasPendingChecked opener closer closed s = .ok (s.hasPending opener closer closed) := by
  fun_induction hasPending opener closer closed s with
  | case1 => rfl
  | case2 closed p s ih =>
    rw [List.length_cons] at h
    rw [hasPendingChecked, if_pos rfl, Word.add_eq (by omega), Guarded.ok_bind]
    exact ih (by omega)
  | case3 p s hne => rw [hasPendingChecked, if_neg hne, if_pos rfl, if_pos rfl]
  | case4 p s n hne ih =>
    rw [List.length_cons] at h
    rw [hasPendingChecked, if_neg hne, if_pos rfl, if_neg (Nat.succ_ne_zero n),
      Word.sub_eq (Nat.succ_le_succ (Nat.zero_le n)), Guarded.ok_bind]
    exact ih (by omega)
  | case5 closed t p s hc ho hb => rw [hasPendingChecked, if_neg hc, if_neg ho, if_pos hb]
  | case6 closed t p s hc ho hb ih =>
    rw [List.length_cons] at h
    rw [hasPendingChecked, if_neg hc, if_neg ho, if_neg hb]
    exact ih (by omega)
  | case7 closed i s hi ih =>
    rw [List.length_cons] at h
    rw [hasPendingChecked]
    · exact ih (by omega)
    · exact hi

/-- Why a token that is in itself in order cannot be joined with what stands before it. -/
def joinRefusalChecked (form : Form) (s : Stack) (t : Token) : Guarded (Option ParseFault) :=
  match t with
  | .symbol .colon => do
    let pending ← s.hasPendingChecked (.symbol .question) (.symbol .colon) 0
    return if !pending then some (.unexpectedToken t .noQuestion) else none
  | .keyword .elseWord => do
    let pending ← s.hasPendingChecked (.keyword .ifWord) (.keyword .elseWord) 0
    return if !pending then some (.unexpectedToken t .noIf) else none
  | t => .ok (s.joinRefusal? form t)

/-- Why a token cannot follow what has been read, if it cannot. -/
def refusalChecked (form : Form) (s : Stack) (t : Token) : Guarded (Option ParseFault) :=
  if s.topIsDot && !(t matches .identifier _) then .ok (some (.unexpectedToken t .afterDot))
  else if t.beginsOperand && s.topIsExpr then .ok (some (.unexpectedToken t .noOperator))
  else if t.continuesExpr && !s.topIsExpr then .ok (some (.unexpectedToken t .noOperand))
  else s.joinRefusalChecked form t

/-- A token is looked at without a breach on a stack that a word can count. -/
theorem refusalChecked_eq (h : s.length < Word.limit) (u : Token) :
    s.refusalChecked form u = .ok (s.refusal? form u) := by
  have hjoin : s.joinRefusalChecked form u = .ok (s.joinRefusal? form u) := by
    unfold joinRefusalChecked
    split
    · rw [hasPendingChecked_eq (by omega)]
      rfl
    · rw [hasPendingChecked_eq (by omega)]
      rfl
    · rfl
  cases u <;> simp only [refusalChecked, refusal?, hjoin, apply_ite Except.ok]

/-! ## Runs -/

/-- One step: a token is put on the stack and all rules that fit are applied. -/
def stepChecked (form : Form) (s : Stack) (t : Located Token) (next : Option Token) :
    Guarded (Except (Located ParseFault) Stack) := do
  match ← s.refusalChecked form t.value with
  | some fault => return .error ⟨fault, t.position⟩
  | none =>
    let s ← reduceChecked form next (Item.ofToken s t.value t.position :: s)
    return checkClosed s

/-- A step is made without a breach on a stack that a word can count. -/
theorem stepChecked_eq (h : s.length < Word.limit) (u : Located Token) :
    s.stepChecked form u next = .ok (s.step form u next) := by
  rw [stepChecked, refusalChecked_eq h, Guarded.ok_bind, step, shift]
  cases s.refusal? form u.value with
  | some fault => rfl
  | none =>
    dsimp only
    rw [reduceChecked_eq]
    rfl

/-- The stack after the tokens from the cursor on. -/
def runChecked (form : Form) (ts : List (Located Token)) (cursor : Nat) (s : Stack) :
    Guarded (Except (Located ParseFault) Stack) :=
  if _hc : cursor < ts.length then
    match _h : Word.add cursor 1 with
    | .ok following => do
      let t ← item ts cursor
      match ← s.stepChecked form t (ts[following]?.map Located.value) with
      | .error e => return .error e
      | .ok s => runChecked form ts following s
    | .error b => .error b
  else .ok (.ok s)
termination_by ts.length - cursor
decreasing_by
  have := Word.eq_of_add _h
  omega

/-- As long as the stack holds no more pieces than tokens have been read, no check fails. -/
theorem runChecked_eq (form : Form) {ts : List (Located Token)} {cursor : Nat}
    (hfit : ts.length ≤ Word.maxExtent) (hs : s.length ≤ cursor) :
    runChecked form ts cursor s = .ok (s.run form (ts.drop cursor)) := by
  have hlimit := Word.two_mul_maxExtent_lt
  induction hn : ts.length - cursor generalizing cursor s with
  | zero =>
    rw [runChecked, dif_neg (by omega), List.drop_eq_nil_of_le (by omega), run]
  | succ n ih =>
    have hcursor : cursor < ts.length := by omega
    rw [runChecked, dif_pos hcursor, List.drop_eq_getElem_cons hcursor, run, List.head?_drop]
    split
    · next following hadd =>
      obtain rfl := Word.eq_of_add hadd
      rw [item_eq (List.getElem?_eq_getElem hcursor), Guarded.ok_bind,
        stepChecked_eq (by omega), Guarded.ok_bind]
      cases hstep : s.step form ts[cursor] (ts[cursor + 1]?.map Located.value) with
      | error e => rfl
      | ok t =>
        have hlength := length_le_of_step hstep
        exact ih (by omega) (by omega)
    · next b hadd =>
      rw [Word.add_eq (by omega)] at hadd
      cases hadd

end Stack

/-! ## Parsers -/

/-- The expression that the tokens make up. -/
def parseExpressionChecked (ts : List (Located Token)) :
    Guarded (Except (Located ParseFault) Expr) := do
  match ← Stack.runChecked .expression ts 0 [] with
  | .error e => return .error e
  | .ok [.expr e] => return .ok e
  | .ok s => return .error ⟨.invalidExpression, s.endPosition ts⟩

/-- The entries that the tokens make up, in order. -/
def parseBatchChecked (ts : List (Located Token)) :
    Guarded (Except (Located ParseFault) (List Assignment)) := do
  match ← Stack.runChecked .batch ts 0 [] with
  | .error e => return .error e
  | .ok [.entries es] => return .ok es.reverse
  | .ok s => return .error ⟨.invalidBatch, s.endPosition ts⟩

section Parsers

variable {ts : List (Located Token)}

/-- The parser of expressions stays inside tokens that memory can hold. -/
theorem parseExpressionChecked_eq (h : ts.length ≤ Word.maxExtent) :
    parseExpressionChecked ts = .ok (parseExpression ts) := by
  have hrun := Stack.runChecked_eq .expression (s := []) h (Nat.le_refl 0)
  rw [parseExpressionChecked, hrun, Guarded.ok_bind, List.drop_zero, parseExpression]
  rcases Stack.run .expression [] ts with e | _ | ⟨_ | _ | _ | _ | _ | _, _ | ⟨i, s⟩⟩ <;> rfl

/-- The parser of batches stays inside tokens that memory can hold. -/
theorem parseBatchChecked_eq (h : ts.length ≤ Word.maxExtent) :
    parseBatchChecked ts = .ok (parseBatch ts) := by
  have hrun := Stack.runChecked_eq .batch (s := []) h (Nat.le_refl 0)
  rw [parseBatchChecked, hrun, Guarded.ok_bind, List.drop_zero, parseBatch]
  rcases Stack.run .batch [] ts with e | _ | ⟨_ | _ | _ | _ | _ | _, _ | ⟨i, s⟩⟩ <;> rfl

end Parsers

end MapExpr
