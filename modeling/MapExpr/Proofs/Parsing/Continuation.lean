import MapExpr.Proofs.Parsing.Soundness
import Mathlib.Control.Monad.Basic
import Mathlib.Data.List.Induction

/-!
# Which tokens can be continued to an expression

Tokens that end too early are `Viable` if some further tokens make an expression of them. They need
not be: there are tokens that no rule can take and that are admitted all the same (`Misfits`).

If every piece on the stack fits on those below it, the tokens are viable. The stack stands for
phrases and for tokens that wait for others, and each of these can be given what it waits for, from
the top to the bottom. `Resumes` says what a waiting stack can be given; each piece hands what it
becomes to the stack below, so there is one lemma for each piece, and the induction is on how the
stack has been built (`Waiting.resumes`).

If some piece does not fit, no run ends with an expression, since the rules leave it where it is
(`completable_of_run`).
-/

namespace MapExpr

/-! ## Pieces without a place

A comma, the second sign of a conditional and a list belong to a piece further down on the stack.
The check in front of a token looks for that piece, but not in all the detail of the rules: a comma
is admitted behind any expression, and a colon behind an expression if there is a question mark
somewhere below, even with an `if` in between that has no `else` yet. `Item.fitsOn` asks what the
rules ask, and a stack is `completable` if every piece fits on those below it.

The rules neither make a stack completable nor end this (`Rule.completable`), whatever the
next token is. So a piece that does not fit when it is put on the stack is there to stay, and no run
from such a stack ends with a single expression.
-/

section Misfit

namespace Stack

/-- Whether the last piece is a bracket that may hold several expressions: that of a call or of a
vector. -/
def opensRow : Stack → Bool
  | .token (.symbol .openParen) _ :: s => topIsExpr s
  | .token (.symbol .openBracket) _ :: s => !topIsExpr s
  | _ => false

/-- Whether the last pieces are the first sign `opener` of a conditional and an expression. -/
def awaitsSecond (opener : Token) : Stack → Bool
  | .expr _ :: .token t _ :: _ => t = opener
  | _ => false

end Stack

/-- Whether the rules can ever join the piece with those below it. Line breaks are joined by no
rule. -/
def Item.fitsOn (i : Item) (s : Stack) : Bool :=
  match i with
  | .list _ _ => s.opensRow
  | .token (.symbol .comma) _ => Stack.opensRow s.tail
  | .token (.symbol .colon) _ => s.awaitsSecond (.symbol .question)
  | .token (.keyword .elseWord) _ => s.awaitsSecond (.keyword .ifWord)
  | .token (.symbol .lineBreak) _ => false
  | _ => true

/-- Whether every piece fits on those below it. -/
def Stack.completable : Stack → Bool
  | [] => true
  | i :: s => i.fitsOn s && completable s

/-- A stack is in order if its last piece fits on the others, and these are in order. -/
@[simp] theorem Stack.completable_cons (i : Item) (s : Stack) :
    completable (i :: s) = (i.fitsOn s && completable s) := rfl

variable {form : Form} {next : Option Token} {s t : Stack} {u : Located Token}
  {ts us : List (Located Token)}

/-! ### Rules -/

/-- A rule takes only pieces that fit, and what it makes of them fits wherever they did. -/
theorem Rule.completable (h : Rule form next s t) : t.completable = s.completable := by
  cases h with
  | member | var | unary | binary | pair | list | entry | join => simp [Item.fitsOn]
  | emptyCall | callOne | call | index => simp [Item.fitsOn, Stack.opensRow, Stack.topIsExpr]
  | group h | emptyVector h | vectorOne h | vector h => simp [Item.fitsOn, Stack.opensRow, h]
  | question | ifElse => simp [Item.fitsOn, Stack.awaitsSecond]

/-- Rules make no misfit and take none away. -/
theorem completable_reduce : (reduce form next s).completable = s.completable := by
  fun_induction reduce form next s with
  | case1 s t hr ih => rw [ih, (rule_of_reduceOnce hr).completable]
  | case2 s hr => rfl

/-! ### Runs -/

namespace Stack

/-- A step keeps a stack completable if the new piece fits. -/
theorem completable_of_step (h : s.step form u next = .ok t) :
    t.completable = ((Item.ofToken s u.value u.position).fitsOn s && s.completable) := by
  obtain ⟨-, rfl, -⟩ := step_eq_ok_iff.1 h
  exact completable_reduce

/-- Whether what comes out is completable does not depend on the token that comes behind. -/
theorem completable_of_runBefore {next' : Option Token} {t' : Stack}
    (h : s.runBefore form next ts = .ok t) (h' : s.runBefore form next' ts = .ok t') :
    t.completable = t'.completable := by
  induction ts generalizing s with
  | nil =>
    cases h
    cases h'
    rfl
  | cons u us ih =>
    cases hs : s.step form u ((us.head?.map Located.value).or next) with
    | error e =>
      rw [runBefore_of_step_error hs] at h
      cases h
    | ok s₁ =>
      cases hs' : s.step form u ((us.head?.map Located.value).or next') with
      | error e =>
        rw [runBefore_of_step_error hs'] at h'
        cases h'
      | ok s₂ =>
        rw [runBefore_of_step hs] at h
        rw [runBefore_of_step hs'] at h'
        cases us with
        | nil =>
          cases h
          cases h'
          rw [completable_of_step hs, completable_of_step hs']
        | cons w us =>
          -- With a token of `us` in sight the two steps are one.
          obtain rfl : s₁ = s₂ := Except.ok.inj (hs.symm.trans hs')
          exact ih h h'

/-- A run that ends with a completable stack began with one. -/
theorem completable_of_run (h : s.run form ts = .ok t) (ht : t.completable = true) :
    s.completable = true := by
  induction ts generalizing s with
  | nil =>
    cases h
    exact ht
  | cons u us ih =>
    cases hs : s.step form u (us.head?.map Located.value) with
    | error e =>
      rw [run_of_step_error hs] at h
      cases h
    | ok s' =>
      rw [run_of_step hs] at h
      have hs' := ih h
      rw [completable_of_step hs, Bool.and_eq_true] at hs'
      exact hs'.2

end Stack

end Misfit

/-! ## Stacks that can be continued -/

section Continuation

variable {next : Option Token} {s : Stack} {t : Located Token} {ts us vs ws : List (Located Token)}
  {e : Expr} {i : Item} {n : Nat} {p q : Position}

/-- There are tokens that make an expression of those in front of them. -/
def Viable (ts : List (Located Token)) : Prop :=
  ∃ us e, parseExpression (ts ++ us) = .ok e

/-- Tokens that are a phrase need none behind them. -/
theorem viable_of_means (h : Means n ts e) : Viable ts := by
  refine ⟨[], e, ?_⟩
  rw [List.append_nil]
  exact parseExpression_eq_ok_iff.2 (h.mono (Nat.zero_le n))

/-- What more tokens can be continued to, the first of them can be. -/
theorem Viable.of_append (h : Viable (ts ++ us)) : Viable ts := by
  obtain ⟨vs, e, he⟩ := h
  exact ⟨us ++ vs, e, by rw [← List.append_assoc, he]⟩

/-! ### What a stack can be given -/

/-- A constant may stand behind every stack that waits for an operand. -/
theorem Stack.rightLevel_le_nine (s : Stack) : s.rightLevel ≤ 9 :=
  Nat.le_trans s.rightLevel_le (by decide)

/-- A phrase that fits everywhere. -/
theorem means_noneWord (p : Position) : Means 9 [⟨.keyword .noneWord, p⟩] (.literal .none p) :=
  .literal rfl

/-- What can come behind the tokens of a stack that waits for an operand. -/
structure Resumes (ts : List (Located Token)) (s : Stack) : Prop where
  /-- A phrase of the level that the stack asks for. -/
  operand : ∀ vs e, Means s.rightLevel vs e → Viable (ts ++ vs)
  /-- Several expressions, in a bracket that may hold them. -/
  row : s.opensRow = true → ∀ vs i, MeansRow vs i → Viable (ts ++ vs)
  /-- The rest of a conditional, behind its first sign. -/
  conditional : ∀ t u, Completes t u → ∀ p s', s = .token t p :: s' → ∀ vs e ws f q,
    Means 0 vs e → Means 0 ws f → Viable (ts ++ (vs ++ ⟨u, q⟩ :: ws))

namespace Resumes

/-- In front of an expression there is nothing, and it needs nothing behind it. -/
theorem nil : Resumes [] [] where
  operand _ _ h := viable_of_means h
  row := nofun
  conditional _ _ hu _ _ hs := by
    cases hu <;> cases hs

/-- If a phrase can come, then so can its beginning `us`, behind which `ws` is missing. -/
theorem start (h : Resumes ts s) (ws : List (Located Token)) (hl : s.rightLevel ≤ n)
    (hm : Means n vs e) (hvs : ts ++ vs = us ++ ws) : Viable us := by
  have hwhole := h.operand vs e (hm.mono hl)
  rw [hvs] at hwhole
  exact hwhole.of_append

/-- An open parenthesis needs an expression and is then closed. -/
theorem group (h : Resumes ts s) (hs : s.topIsExpr = false) :
    Resumes (ts ++ [⟨.symbol .openParen, p⟩]) (.token (.symbol .openParen) p :: s) where
  operand vs e he :=
    h.start [⟨.symbol .closeParen, .start⟩] s.rightLevel_le_nine
      (Means.group (p := p) (q := .start) he) (by simp)
  row hrow := by
    rw [Stack.opensRow, hs] at hrow
    cases hrow
  conditional _ _ hu _ _ hs := by
    cases hu <;> cases hs

/-- An open bracket that begins a vector needs a row and is then closed. -/
theorem vector (h : Resumes ts s) :
    Resumes (ts ++ [⟨.symbol .openBracket, p⟩]) (.token (.symbol .openBracket) p :: s) := by
  have hrow : ∀ vs i, MeansRow vs i → Viable (ts ++ [⟨.symbol .openBracket, p⟩] ++ vs) := by
    rintro vs i ⟨r, hr, rfl, -⟩
    exact h.start [⟨.symbol .closeBracket, .start⟩] s.rightLevel_le_nine
      (Means.vector (p := p) (q := .start) hr) (by simp)
  refine ⟨fun vs e he => hrow vs _ (MeansRow.expr_iff.2 he), fun _ => hrow, ?_⟩
  intro _ _ hu _ _ hs
  cases hu <;> cases hs

/-- An operator in front needs an operand. -/
theorem unary {u : Token} {op : UnaryOp} (h : Resumes ts s) (hu : u.unaryOp? = some op) :
    Resumes (ts ++ [⟨u, p⟩]) (.unary op p :: s) where
  operand vs e he := h.start [] s.rightLevel_le (Means.unary (p := p) hu he) (by simp)
  row := nofun
  conditional _ _ hu _ _ hs := by
    cases hu <;> cases hs

/-- An operator behind an expression needs an operand that is tighter. -/
theorem binary {u : Token} {op : BinaryOp} (h : Resumes ts s) (hl : s.rightLevel ≤ op.precedence)
    (hu : u.binaryOp? = some op) (he : Means op.precedence us e) :
    Resumes (ts ++ (us ++ [⟨u, p⟩])) (.binary op p :: .expr e :: s) where
  operand vs f hf := h.start [] hl (Means.binary (p := p) hu he hf) (by simp)
  row := nofun
  conditional _ _ hu _ _ hs := by
    cases hu <;> cases hs

/-- The open parenthesis of a call needs arguments, or none, and is then closed. -/
theorem call (h : Resumes ts s) (hl : s.rightLevel ≤ 8) (he : Means 8 us e) :
    Resumes (ts ++ (us ++ [⟨.symbol .openParen, p⟩]))
      (.token (.symbol .openParen) p :: .expr e :: s) := by
  have hrow : ∀ vs i, MeansRow vs i →
      Viable (ts ++ (us ++ [⟨.symbol .openParen, p⟩]) ++ vs) := by
    rintro vs i ⟨r, hr, rfl, -⟩
    exact h.start [⟨.symbol .closeParen, .start⟩] hl
      (he.call (p := p) (q := .start) hr) (by simp)
  refine ⟨fun vs f hf => hrow vs _ (MeansRow.expr_iff.2 hf), fun _ => hrow, ?_⟩
  intro _ _ hu _ _ hs
  cases hu <;> cases hs

/-- The open bracket of an index needs an expression and is then closed. -/
theorem index (h : Resumes ts s) (hl : s.rightLevel ≤ 8) (he : Means 8 us e) :
    Resumes (ts ++ (us ++ [⟨.symbol .openBracket, p⟩]))
      (.token (.symbol .openBracket) p :: .expr e :: s) where
  operand vs f hf :=
    h.start [⟨.symbol .closeBracket, .start⟩] hl (he.index (p := p) (q := .start) hf) (by simp)
  row := nofun
  conditional _ _ hu _ _ hs := by
    cases hu <;> cases hs

/-- The first sign of a conditional needs an expression, the second sign and another expression. -/
theorem firstSign {u v : Token} (h : Resumes ts s) (hu : Completes u v) (hl : s.rightLevel ≤ 0)
    (he : Means 1 us e) :
    Resumes (ts ++ (us ++ [⟨u, p⟩])) (.token u p :: .expr e :: s) where
  operand vs f hf := by
    have hnone := (means_noneWord .start).mono (Nat.zero_le 9)
    obtain ⟨d, hd⟩ := hu.exists_means he hf hnone p .start
    exact h.start [⟨v, .start⟩, ⟨.keyword .noneWord, .start⟩] hl hd (by simp)
  row hrow := by
    cases hu <;> cases hrow
  conditional u' w hw p' s' hs vs f ws g q hf hg := by
    obtain ⟨rfl, rfl⟩ := Item.token.inj (List.cons.inj hs).1
    obtain rfl := hu.unique hw
    obtain ⟨d, hd⟩ := hu.exists_means he hf hg p q
    exact h.start [] hl hd (by simp)

/-- The second sign of a conditional needs an expression. -/
theorem secondSign {u v : Token} (h : Resumes ts (.token u q :: s)) (hu : Completes u v)
    (he : Means 0 us e) :
    Resumes (ts ++ (us ++ [⟨v, p⟩])) (.token v p :: i :: .token u q :: s) where
  operand vs f hf := by
    simpa using h.conditional u v hu q s rfl us e vs f p he hf
  row hrow := by
    cases hu <;> cases hrow
  conditional u' w hw p' s' hs := by
    obtain ⟨rfl, -⟩ := Item.token.inj (List.cons.inj hs).1
    cases hu <;> cases hw

/-- A comma in a row needs the next element. -/
theorem comma (h : Resumes ts s) (hs : s.opensRow = true) (hi : MeansRow us i) :
    Resumes (ts ++ (us ++ [⟨.symbol .comma, p⟩])) (.token (.symbol .comma) p :: i :: s) where
  operand vs f hf := by
    have hrow : ∃ j, MeansRow (us ++ ⟨.symbol .comma, p⟩ :: vs) j := by
      rcases hi.isExpr_or_isList with ⟨e, rfl⟩ | ⟨es, q, rfl⟩
      · exact ⟨_, MeansRow.pair (MeansRow.expr_iff.1 hi) hf⟩
      · exact ⟨_, hi.more hf⟩
    obtain ⟨j, hj⟩ := hrow
    simpa using h.row hs _ j hj
  row := nofun
  conditional _ _ hu _ _ hs := by
    cases hu <;> cases hs

end Resumes

/-- Where the second sign is awaited, the first one is below the expression. -/
theorem Stack.exists_of_awaitsSecond {u : Token}
    (h : Stack.awaitsSecond u (.expr e :: s) = true) : ∃ q s', s = .token u q :: s' := by
  unfold Stack.awaitsSecond at h
  split at h
  · next heq =>
    cases heq
    rw [decide_eq_true_eq] at h
    subst h
    exact ⟨_, _, rfl⟩
  · cases h

/-- A stack that waits for an operand can be given one if every piece fits. -/
theorem Waiting.resumes (h : Waiting .expression ts s) (hs : s.completable = true) :
    Resumes ts s := by
  induction h with
  | start => exact .nil
  | entries hf => cases hf
  | @opener us ts s u p h ht hts ih =>
    subst hts
    rw [Stack.completable_cons, Bool.and_eq_true] at hs
    have hrest := ih hs.2
    unfold Token.opens at ht
    split at ht
    · exact hrest.group h.ready.expr
    · exact hrest.vector
    · cases hs.1
    · cases ht
  | unary h ht hts ih =>
    subst hts
    exact (ih hs).unary ht
  | @waiter us vs ts s e u p h hl he ht hts ih =>
    subst hts
    rw [Stack.completable_cons, Bool.and_eq_true] at hs
    obtain ⟨hfits, hbelow⟩ := hs
    have hrest := ih hbelow
    unfold Token.waits at ht
    split at ht
    · exact hrest.call hl he
    · exact hrest.index hl he
    · cases hfits
    · exact hrest.firstSign .colon (Nat.le_of_eq (Stack.rightLevel_eq_zero hl)) he
    · obtain ⟨q, s', rfl⟩ := Stack.exists_of_awaitsSecond hfits
      exact hrest.secondSign .colon he
    · exact hrest.firstSign .elseWord (Nat.le_of_eq (Stack.rightLevel_eq_zero hl)) he
    · obtain ⟨q, s', rfl⟩ := Stack.exists_of_awaitsSecond hfits
      exact hrest.secondSign .elseWord he
    · cases ht
  | binary h hl he ht hts ih =>
    subst hts
    exact (ih hs).binary hl ht he
  | comma h hr hts ih =>
    subst hts
    rw [Stack.completable_cons, Stack.completable_cons, Bool.and_eq_true, Bool.and_eq_true] at hs
    exact (ih hs.2.2).comma hs.1 hr
  | assign hf => cases hf

/-- Tokens are viable if every piece fits that is on the stack behind them. -/
theorem viable_of_completable (h : Settled .expression next ts s) (hs : s.completable = true) :
    Viable ts := by
  cases h.atRest with
  | waiting hw =>
    exact (hw.resumes hs).start [⟨.keyword .noneWord, .start⟩] s.rightLevel_le_nine
      (means_noneWord .start) rfl
  | expr hw he hts =>
    subst hts
    exact (hw.resumes hs).operand _ _ (he.mono (Nat.le_max_left _ _))
  | list hw hr hn hts =>
    subst hts
    rw [Stack.completable_cons, Bool.and_eq_true] at hs
    exact (hw.resumes hs.2).row hs.1 _ _ hr
  | @dot _ _ _ s' _ p hw he hts =>
    subst hts
    have hl : Stack.rightLevel s' ≤ 8 := Nat.le_trans (Stack.rightLevel_le s') (by decide)
    exact (hw.resumes hs).start [⟨.identifier "x", .start⟩] hl
      (he.member (p := p) (q := .start) (x := "x")) (by simp)

/-! ### Viable tokens -/

/-- Tokens that are accepted leave a single expression on the stack. -/
theorem run_of_parseExpression (h : parseExpression ts = .ok e) :
    Stack.run .expression [] ts = .ok [.expr e] := by
  unfold parseExpression at h
  split at h
  · cases h
  · next hs =>
    cases h
    exact hs
  · cases h

/-- No token of viable ones is refused, whatever token comes behind them. -/
theorem Viable.exists_runBefore (h : Viable ts) (next : Option Token) :
    ∃ s, Stack.runBefore .expression next [] ts = .ok s := by
  cases hs : Stack.runBefore .expression next [] ts with
  | ok s => exact ⟨s, rfl⟩
  | error f =>
    obtain ⟨us, e, he⟩ := h
    have hrun := Stack.run_append_of_runBefore_error
      (Stack.runBefore_error hs (us.head?.map Located.value))
    cases hrun.symm.trans (run_of_parseExpression he)

/-- Tokens that can be continued have left no misfit on the stack. -/
theorem Viable.completable (h : Viable ts)
    (hs : Stack.runBefore .expression next [] ts = .ok s) : s.completable = true := by
  obtain ⟨us, e, he⟩ := h
  obtain ⟨s', hs'⟩ := Viable.exists_runBefore ⟨us, e, he⟩ (us.head?.map Located.value)
  have hrun := run_of_parseExpression he
  rw [Stack.run_append_of_runBefore hs'] at hrun
  rw [Stack.completable_of_runBefore hs hs']
  exact Stack.completable_of_run hrun rfl

/-- Tokens are viable if and only if every piece fits on the stack behind them. -/
theorem viable_iff_completable (hs : Stack.runBefore .expression next [] ts = .ok s) :
    Viable ts ↔ s.completable = true :=
  ⟨fun h => h.completable hs, viable_of_completable (settled_of_runBefore hs)⟩

/-! ### Tokens that end it -/

/-- The token is not refused behind the tokens `ts`, but its piece does not fit on the stack. It is
a comma outside a call and a vector or in an unfinished conditional, the second sign of a
conditional where the first sign of another one stands in between, or a line break. -/
def Misfits (ts : List (Located Token)) (t : Located Token) : Prop :=
  ∃ s, Stack.runBefore .expression (some t.value) [] ts = .ok s ∧
    s.refusal? .expression t.value = none ∧
    (Item.ofToken s t.value t.position).fitsOn s = false

/-- Only these tokens can do so. -/
theorem Misfits.token_mem (h : Misfits ts t) :
    t.value ∈ [.symbol .comma, .symbol .colon, .keyword .elseWord, .symbol .lineBreak] := by
  obtain ⟨s, -, -, hfits⟩ := h
  generalize t.value = u, t.position = p at hfits
  rcases u with x | x | x | k | b
  · cases hfits
  · cases hfits
  · cases hfits
  · cases k <;> first | decide | cases hfits
  · cases b
    case minus =>
      simp only [Item.ofToken] at hfits
      split at hfits <;> cases hfits
    all_goals first | decide | cases hfits

/-- A token that misfits cannot be followed by any others to make an expression. -/
theorem Misfits.not_viable (h : Misfits ts t) : ¬ Viable (ts ++ [t]) := by
  intro hv
  obtain ⟨s, hs, -, hfits⟩ := h
  obtain ⟨s', hs'⟩ := hv.exists_runBefore Option.none
  have hcompletable := hv.completable hs'
  rw [Stack.runBefore_concat hs] at hs'
  rw [Stack.completable_of_step hs', hfits] at hcompletable
  cases hcompletable

/-- A token behind viable ones ends it if it is refused, and otherwise only if it misfits. -/
theorem Viable.concat (h : Viable ts) (t : Located Token) :
    Viable (ts ++ [t]) ∨ Misfits ts t ∨
      ∃ why, ∀ us, parseExpression (ts ++ t :: us)
        = .error ⟨.unexpectedToken t.value why, t.position⟩ := by
  obtain ⟨s, hs⟩ := h.exists_runBefore (some t.value)
  cases hstep : s.step .expression t Option.none with
  | ok s' =>
    have hrun : Stack.runBefore .expression Option.none [] (ts ++ [t]) = .ok s' := by
      rw [Stack.runBefore_concat hs, hstep]
    obtain ⟨hr, -, -⟩ := Stack.step_eq_ok_iff.1 hstep
    cases hfits : (Item.ofToken s t.value t.position).fitsOn s with
    | false => exact .inr (.inl ⟨s, hs, hr, hfits⟩)
    | true =>
      refine .inl ((viable_iff_completable hrun).2 ?_)
      rw [Stack.completable_of_step hstep, hfits, h.completable hs]
      rfl
  | error f =>
    have hrefused := Stack.refused_of_step hstep
    have hparse : ∀ us, parseExpression (ts ++ t :: us) = .error f := by
      intro us
      refine parseExpression_followsRun.error _ _ ?_
      rw [Stack.run_append_of_runBefore hs]
      exact Stack.run_of_step_error (Stack.step_error hstep _)
    obtain ⟨fault, p⟩ := f
    obtain ⟨heager, rfl, htoken⟩ := hrefused
    cases fault with
    | unexpectedToken u why =>
      obtain rfl := htoken u why rfl
      exact .inr (.inr ⟨why, hparse⟩)
    | invalidTarget => cases heager
    | invalidExpression => exact heager.elim
    | invalidBatch => exact heager.elim

/-- Some tokens make an expression. -/
theorem viable_nil : Viable [] :=
  Viable.of_append (viable_of_means (means_noneWord .start) : Viable ([] ++ _))

/-- Tokens that end too early are viable if none of them misfits. -/
theorem viable_of_forall_not_misfits (h : parseExpression ts = .error ⟨.invalidExpression, p⟩)
    (hts : ∀ us t vs, ts = us ++ t :: vs → ¬ Misfits us t) : Viable ts := by
  -- All beginnings of the tokens are viable, the longer ones because the shorter ones are.
  have hall : ∀ us vs, ts = us ++ vs → Viable us := by
    intro us
    induction us using List.reverseRecOn with
    | nil => exact fun _ _ => viable_nil
    | append_singleton us t ih =>
      intro vs hvs
      rw [List.append_assoc, List.singleton_append] at hvs
      rcases (ih (t :: vs) hvs).concat t with hv | hmisfit | ⟨why, hwhy⟩
      · exact hv
      · exact absurd hmisfit (hts us t vs hvs)
      · cases (hvs ▸ h).symm.trans (hwhy vs)
  exact hall ts [] (List.append_nil ts).symm

/-- A token behind viable ones leaves nothing that could be continued to an expression if and only
if it is refused, whatever comes behind it, or misfits. So tokens that end too early are viable if
and only if none of them misfits, and only a comma, a colon, an `else` or a line break can do so. -/
theorem viable_unless_misfit (ts : List (Located Token)) :
    (∀ t, Viable ts → (¬ Viable (ts ++ [t]) ↔
      Misfits ts t ∨ ∃ why, ∀ us, parseExpression (ts ++ t :: us)
        = .error ⟨.unexpectedToken t.value why, t.position⟩)) ∧
    (∀ p, parseExpression ts = .error ⟨.invalidExpression, p⟩ →
      (Viable ts ↔ ∀ us t vs, ts = us ++ t :: vs → ¬ Misfits us t)) ∧
    ∀ t, Misfits ts t →
      t.value ∈ [.symbol .comma, .symbol .colon, .keyword .elseWord, .symbol .lineBreak] := by
  refine ⟨fun t hts => ⟨fun hv => ?_, ?_⟩, fun p h => ⟨fun hv us t vs hts hmisfit => ?_, ?_⟩,
    fun t => Misfits.token_mem⟩
  · exact (hts.concat t).resolve_left hv
  · rintro (hmisfit | ⟨why, hwhy⟩) hv
    · exact hmisfit.not_viable hv
    · obtain ⟨us, e, he⟩ := hv
      rw [List.append_assoc, List.singleton_append] at he
      cases he.symm.trans (hwhy us)
  · rw [hts, List.append_cons] at hv
    exact hmisfit.not_viable hv.of_append
  · exact viable_of_forall_not_misfits h

/-- The tokens of `(x` end too early and can be continued. A comma behind them is not refused and
cannot be taken, since a group holds one expression. -/
theorem viable_unless_misfit_group :
    let ts : List (Located Token) :=
      [⟨.symbol .openParen, ⟨1, 0⟩⟩, ⟨.identifier "x", ⟨1, 1⟩⟩]
    let t : Located Token := ⟨.symbol .comma, ⟨1, 2⟩⟩
    (parseExpression ts = .error ⟨.invalidExpression, ⟨1, 0⟩⟩ ∧ Viable ts) ∧
    Misfits ts t ∧ ¬ Viable (ts ++ [t]) := by
  intro ts t
  obtain ⟨hnext, hend, -⟩ := viable_unless_misfit ts
  have hparse : parseExpression ts = .error ⟨.invalidExpression, ⟨1, 0⟩⟩ := by cbv
  have hplain : ∀ u ∈ ts, u.value ∉
      [.symbol .comma, .symbol .colon, .keyword .elseWord, .symbol .lineBreak] := by decide
  have hts : Viable ts := by
    refine (hend _ hparse).2 fun us u vs hus hmisfit => ?_
    have hmem : u ∈ ts := hus ▸ List.mem_append_right us List.mem_cons_self
    exact hplain u hmem ((viable_unless_misfit us).2.2 u hmisfit)
  have hmisfit : Misfits ts t :=
    ⟨[.expr (.var "x" ⟨1, 1⟩), .token (.symbol .openParen) ⟨1, 0⟩], by cbv, by cbv, rfl⟩
  exact ⟨⟨hparse, hts⟩, hmisfit, (hnext t hts).2 (.inl hmisfit)⟩

/-- In `a if b ? c else d` no expression can take the `else`, since the question mark lacks its
colon. All the same the `else` is not refused. -/
theorem invalidExpression_not_viable :
    let us : List (Located Token) :=
      [⟨.identifier "a", ⟨1, 0⟩⟩, ⟨.keyword .ifWord, ⟨1, 2⟩⟩, ⟨.identifier "b", ⟨1, 5⟩⟩,
        ⟨.symbol .question, ⟨1, 7⟩⟩, ⟨.identifier "c", ⟨1, 9⟩⟩]
    let vs : List (Located Token) :=
      [⟨.keyword .elseWord, ⟨1, 11⟩⟩, ⟨.identifier "d", ⟨1, 16⟩⟩]
    tokenize .expression "a if b ? c else d" = .ok (us ++ vs) ∧
    parseExpression (us ++ vs) = .error ⟨.invalidExpression, ⟨1, 2⟩⟩ ∧
    ∀ ws e, parseExpression (us ++ vs ++ ws) ≠ .ok e := by
  intro us vs
  have hrun : Stack.runBefore .expression Option.none [] (us ++ vs) = .ok
      [.expr (.var "d" ⟨1, 16⟩), .token (.keyword .elseWord) ⟨1, 11⟩, .expr (.var "c" ⟨1, 9⟩),
        .token (.symbol .question) ⟨1, 7⟩, .expr (.var "b" ⟨1, 5⟩),
        .token (.keyword .ifWord) ⟨1, 2⟩, .expr (.var "a" ⟨1, 0⟩)] := by
    cbv
  have hviable : ¬ Viable (us ++ vs) := by
    rw [viable_iff_completable hrun]
    decide
  exact ⟨by decide +kernel, by cbv, fun ws e he => hviable ⟨ws, e, he⟩⟩

end Continuation

end MapExpr
