import MapExpr.Proofs.Parsing.Moves
import Mathlib.Data.List.Nodup

/-!
# Faults that no further tokens can mend

The rules look one token ahead, so what is on the stack behind a token depends on the token that
comes next. Whether the token is refused does not: the checks in front of it are made before the
next token is looked at, and a closing bracket is refused behind the rules only if none of them has
been applied. For every rule puts an expression, a list or entries on top of the stack, and the two
rules for brackets do not look ahead (`Stack.step_error`).

So the parser gives one fault for all lists of tokens that begin with a refused one and those in
front of it (`Stack.run_append_of_error`), and no list that can be continued to an expression or a
batch has such a fault.
-/

namespace MapExpr

section Refusal

/-- The fault is that of a token that is refused when it is read. Only in a batch there are targets
that can be refused. -/
def ParseFault.IsEager (form : Form) : ParseFault → Prop
  | unexpectedToken _ _ => True
  | invalidTarget => form = .batch
  | invalidExpression | invalidBatch => False

/-- The fault of tokens that end too early. -/
def ParseFault.unfinished : Form → ParseFault
  | .expression => invalidExpression
  | .batch => invalidBatch

/-- The fault is that of the token, and it stands at this token. -/
structure Refused (form : Form) (t : Located Token) (e : Located ParseFault) : Prop where
  eager : e.value.IsEager form
  position : e.position = t.position
  token : ∀ u why, e.value = .unexpectedToken u why → u = t.value

variable {form : Form} {next : Option Token} {s t : Stack} {u : Located Token}
  {ts us vs : List (Located Token)} {e : Located ParseFault}

/-- A token that is out of place is refused with its own place. -/
theorem Refused.unexpectedToken (u : Located Token) (why : Misplacement) :
    Refused form u ⟨.unexpectedToken u.value why, u.position⟩ where
  eager := trivial
  position := rfl
  token := by
    rintro _ _ ⟨⟩
    rfl

/-! ## A single token -/

/-- No rule leaves a closing bracket on top of the stack. -/
theorem Rule.checkClosed (h : Rule form next s t) : t.checkClosed = .ok t := by
  cases h <;> rfl

/-- Rules never leave a closing bracket that was closed in vain. -/
theorem checkClosed_reduce (h : s.checkClosed = .ok s) :
    (reduce form next s).checkClosed = .ok (reduce form next s) := by
  fun_induction reduce form next s with
  | case1 s t hr ih => exact ih (rule_of_reduceOnce hr).checkClosed
  | case2 s hr => exact h

/-- What is left of a stack after the rules is refused only if it is the stack itself, and then
whatever the next token is. -/
theorem checkClosed_reduce_error (h : (reduce form next s).checkClosed = .error e)
    (next' : Option Token) : s.checkClosed = .error e ∧ reduce form next' s = s := by
  cases hr : reduceOnce form next s with
  | some t =>
    rw [Stack.reduce_of_reduceOnce hr, checkClosed_reduce (rule_of_reduceOnce hr).checkClosed] at h
    cases h
  | none =>
    rw [Stack.reduce_of_eq_none hr] at h
    refine ⟨h, Stack.reduce_of_eq_none (reduceOnce_eq_none_iff.2 fun t ht => ?_)⟩
    unfold Stack.checkClosed at h
    split at h
    · exact reduceOnce_eq_none_iff.1 hr t (ht.of_closes (.inl rfl) next)
    · exact reduceOnce_eq_none_iff.1 hr t (ht.of_closes (.inr rfl) next)
    · cases h

namespace Stack

/-- Where a token is refused, it is refused whatever token comes next. -/
theorem step_error (h : s.step form u next = .error e) (next' : Option Token) :
    s.step form u next' = .error e := by
  rw [step, shift] at h ⊢
  cases hr : s.refusal? form u.value with
  | some fault =>
    rw [hr] at h
    exact h
  | none =>
    rw [hr] at h
    obtain ⟨hc, hs⟩ := checkClosed_reduce_error h next'
    change checkClosed (reduce form next' _) = _
    rw [hs, hc]

/-- A token is refused with its own fault, or with that of a target in a batch. -/
theorem refusal?_cases {t : Token} {fault : ParseFault} (h : s.refusal? form t = some fault) :
    (∃ why, fault = .unexpectedToken t why) ∨ form = .batch ∧ fault = .invalidTarget := by
  have htarget : ∀ f, s.targetRefusal? = some f →
      f = .unexpectedToken (.symbol .assign) .noName ∨ f = .invalidTarget := by
    intro f hf
    unfold targetRefusal? at hf
    split at hf <;> cases hf <;> simp
  have hform : form ≠ .expression → form = .batch := by cases form <;> simp
  unfold refusal? joinRefusal? at h
  grind

/-- A token that is on the stack as it is has been put there as it was read. -/
theorem eq_of_ofToken {t t' : Token} {p q : Position} (h : Item.ofToken s t p = .token t' q) :
    t = t' ∧ p = q := by
  unfold Item.ofToken at h
  split at h
  · cases h
  · cases h
  · cases h
  · cases h
  · split at h <;> cases h
  · split at h <;> cases h
    exact ⟨rfl, rfl⟩

/-- A fault in a step is that of the token that is read. -/
theorem refused_of_step (h : s.step form u next = .error e) : Refused form u e := by
  rw [step, shift] at h
  cases hr : s.refusal? form u.value with
  | some fault =>
    rw [hr] at h
    cases h
    rcases refusal?_cases hr with ⟨why, rfl⟩ | ⟨hf, rfl⟩
    · exact .unexpectedToken u why
    · refine ⟨hf, rfl, fun _ _ h => ?_⟩
      cases h
  | none =>
    rw [hr] at h
    obtain ⟨hc, -⟩ := checkClosed_reduce_error h next
    unfold checkClosed at hc
    split at hc
    · next heq =>
      cases hc
      obtain ⟨ht, rfl⟩ := eq_of_ofToken (List.cons.inj heq).1
      rw [← ht]
      exact .unexpectedToken u .closesNothing
    · next heq =>
      cases hc
      obtain ⟨ht, rfl⟩ := eq_of_ofToken (List.cons.inj heq).1
      rw [← ht]
      exact .unexpectedToken u .closesNothing
    · cases hc

/-! ## Runs -/

/-- How many tokens are read before one is refused. -/
def admitted (form : Form) (s : Stack) : List (Located Token) → Nat
  | [] => 0
  | t :: ts =>
    match s.step form t (ts.head?.map Located.value) with
    | .error _ => 0
    | .ok s => admitted form s ts + 1

section Step

variable {s' : Stack}

/-- A run goes on behind a step that has a stack. -/
theorem run_of_step (hs : s.step form u (ts.head?.map Located.value) = .ok s') :
    s.run form (u :: ts) = s'.run form ts := by
  rw [run, hs]

/-- A run ends with the fault of a step. -/
theorem run_of_step_error (hs : s.step form u (ts.head?.map Located.value) = .error e) :
    s.run form (u :: ts) = .error e := by
  rw [run, hs]

/-- A token that is read is counted. -/
theorem admitted_of_step (hs : s.step form u (ts.head?.map Located.value) = .ok s') :
    admitted form s (u :: ts) = admitted form s' ts + 1 := by
  rw [admitted, hs]

/-- A token that is refused is not counted, nor are those behind it. -/
theorem admitted_of_step_error (hs : s.step form u (ts.head?.map Located.value) = .error e) :
    admitted form s (u :: ts) = 0 := by
  rw [admitted, hs]

end Step

/-- A run without a fault reads all tokens. -/
theorem admitted_of_run (h : s.run form ts = .ok t) : admitted form s ts = ts.length := by
  induction ts generalizing s with
  | nil => rfl
  | cons u ts ih =>
    cases hs : s.step form u (ts.head?.map Located.value) with
    | error f =>
      rw [run_of_step_error hs] at h
      cases h
    | ok s' =>
      rw [run_of_step hs] at h
      rw [admitted_of_step hs, ih h, List.length_cons]

/-- A run fails with the fault of the token behind those that are admitted. -/
theorem refused_of_run (h : s.run form ts = .error e) :
    ∃ u, ts[admitted form s ts]? = some u ∧ Refused form u e := by
  induction ts generalizing s with
  | nil => cases h
  | cons u ts ih =>
    cases hs : s.step form u (ts.head?.map Located.value) with
    | error f =>
      rw [run_of_step_error hs] at h
      cases h
      rw [admitted_of_step_error hs]
      exact ⟨u, rfl, refused_of_step hs⟩
    | ok s' =>
      rw [run_of_step hs] at h
      rw [admitted_of_step hs, List.getElem?_cons_succ]
      exact ih h

/-- What comes behind the refused token does not matter. -/
theorem run_append_of_error (h : s.run form (us ++ ts) = .error e)
    (hus : admitted form s (us ++ ts) < us.length) (vs : List (Located Token)) :
    s.run form (us ++ vs) = .error e ∧ admitted form s (us ++ vs) = admitted form s (us ++ ts) := by
  induction us generalizing s with
  | nil => exact absurd hus (Nat.not_lt_zero _)
  | cons u us ih =>
    rw [List.cons_append] at h hus ⊢
    rw [List.cons_append]
    cases hs : s.step form u ((us ++ ts).head?.map Located.value) with
    | error f =>
      have hs' := step_error hs ((us ++ vs).head?.map Located.value)
      rw [run_of_step_error hs] at h
      rw [run_of_step_error hs', admitted_of_step_error hs', admitted_of_step_error hs]
      exact ⟨h, rfl⟩
    | ok s' =>
      rw [run_of_step hs] at h
      rw [admitted_of_step hs] at hus
      have hus' : admitted form s' (us ++ ts) < us.length := Nat.lt_of_succ_lt_succ hus
      -- A token of `us` comes next, so the step is the same one in both lists.
      have hnext : (us ++ vs).head? = (us ++ ts).head? := by
        obtain ⟨w, ws, rfl⟩ := List.exists_cons_of_length_pos (Nat.zero_lt_of_lt hus')
        rfl
      have hs' : s.step form u ((us ++ vs).head?.map Located.value) = .ok s' := by rw [hnext, hs]
      obtain ⟨hrun, hadmitted⟩ := ih h hus'
      rw [run_of_step hs', admitted_of_step hs', admitted_of_step hs, hadmitted]
      exact ⟨hrun, rfl⟩

end Stack

/-! ## Parsers -/

/-- The fault of tokens that end too early is never that of a token. -/
theorem ParseFault.not_isEager_unfinished (form : Form) : ¬ (unfinished form).IsEager form := by
  cases form <;> exact id

/-- The parser has the faults of its run. Where the run has none, there is a result, or the tokens
end too early. -/
structure FollowsRun {α : Type} (form : Form)
    (parse : List (Located Token) → Except (Located ParseFault) α) : Prop where
  error : ∀ ts e, Stack.run form [] ts = .error e → parse ts = .error e
  ok : ∀ ts s, Stack.run form [] ts = .ok s →
    (∃ a, parse ts = .ok a) ∨ ∃ p, parse ts = .error ⟨.unfinished form, p⟩

/-- What a parser says about a token that is refused, it says whatever comes behind this token. -/
structure RefusesAtOnce {α : Type} (form : Form)
    (parse : List (Located Token) → Except (Located ParseFault) α) : Prop where
  /-- The token behind those that are admitted is refused, or the tokens end too early. -/
  fault : ∀ ts e, parse ts = .error e →
    (∃ u, ts[Stack.admitted form [] ts]? = some u ∧ Refused form u e) ∨
    Stack.admitted form [] ts = ts.length ∧ e.value = .unfinished form
  /-- If the refused token is one of `us`, then it is refused in front of `vs` as well, with the
  same fault. -/
  behind : ∀ us ts vs e, parse (us ++ ts) = .error e →
    Stack.admitted form [] (us ++ ts) < us.length →
    parse (us ++ vs) = .error e ∧
      Stack.admitted form [] (us ++ vs) = Stack.admitted form [] (us ++ ts)
  /-- Where no two tokens stand at one place, the place of the fault tells whether it is. -/
  place : ∀ us ts e, ((us ++ ts).map Located.position).Nodup → parse (us ++ ts) = .error e →
    e.value.IsEager form →
    (e.position ∈ us.map Located.position ↔ Stack.admitted form [] (us ++ ts) < us.length)
  /-- The first tokens of what is accepted are accepted, or end too early. -/
  start : ∀ us ts a, parse (us ++ ts) = .ok a →
    (∃ b, parse us = .ok b) ∨ ∃ p, parse us = .error ⟨.unfinished form, p⟩

namespace FollowsRun

variable {α : Type} {parse : List (Located Token) → Except (Located ParseFault) α}

/-- A fault is that of the token that is refused, or the tokens have ended too early. -/
theorem fault (h : FollowsRun form parse) (hts : parse ts = .error e) :
    (∃ u, ts[Stack.admitted form [] ts]? = some u ∧ Refused form u e) ∨
    Stack.admitted form [] ts = ts.length ∧ e.value = .unfinished form := by
  cases hs : Stack.run form [] ts with
  | error f =>
    cases hts.symm.trans (h.error ts f hs)
    exact .inl (Stack.refused_of_run hs)
  | ok s =>
    refine .inr ⟨Stack.admitted_of_run hs, ?_⟩
    rcases h.ok ts s hs with ⟨a, ha⟩ | ⟨p, hp⟩
    · cases hts.symm.trans ha
    · cases hts.symm.trans hp
      rfl

/-- Where a token is refused, the run fails. -/
theorem run_of_lt (h : FollowsRun form parse) (hts : parse ts = .error e)
    (hlt : Stack.admitted form [] ts < ts.length) : Stack.run form [] ts = .error e := by
  cases hs : Stack.run form [] ts with
  | error f => exact congrArg Except.error (Except.error.inj ((h.error ts f hs).symm.trans hts))
  | ok s => exact absurd (Stack.admitted_of_run hs) (Nat.ne_of_lt hlt)

/-- A token that is refused decides, whatever tokens are behind it. -/
theorem behind (h : FollowsRun form parse) (hts : parse (us ++ ts) = .error e)
    (hus : Stack.admitted form [] (us ++ ts) < us.length) (vs : List (Located Token)) :
    parse (us ++ vs) = .error e ∧
      Stack.admitted form [] (us ++ vs) = Stack.admitted form [] (us ++ ts) := by
  have hlt : Stack.admitted form [] (us ++ ts) < (us ++ ts).length := by
    rw [List.length_append]
    exact Nat.lt_add_right ts.length hus
  obtain ⟨hrun, hadmitted⟩ := Stack.run_append_of_error (h.run_of_lt hts hlt) hus vs
  exact ⟨h.error _ e hrun, hadmitted⟩

/-- By its place a fault tells whether it arose among the first tokens. -/
theorem place (h : FollowsRun form parse) (hnodup : ((us ++ ts).map Located.position).Nodup)
    (hts : parse (us ++ ts) = .error e) (he : e.value.IsEager form) :
    e.position ∈ us.map Located.position ↔ Stack.admitted form [] (us ++ ts) < us.length := by
  rcases h.fault hts with ⟨u, hu, hrefused⟩ | ⟨-, hunfinished⟩
  · rw [hrefused.position]
    constructor
    · intro hmem
      refine Nat.lt_of_not_le fun hle => ?_
      rw [List.getElem?_append_right hle] at hu
      rw [List.map_append] at hnodup
      have hmem' := List.mem_map_of_mem (f := Located.position) (List.mem_of_getElem? hu)
      exact List.disjoint_of_nodup_append hnodup hmem hmem'
    · intro hlt
      rw [List.getElem?_append_left hlt] at hu
      exact List.mem_map_of_mem (List.mem_of_getElem? hu)
  · rw [hunfinished] at he
    exact absurd he (ParseFault.not_isEager_unfinished form)

/-- The beginning of accepted tokens is accepted, or it ends too early. -/
theorem start (h : FollowsRun form parse) {a : α} (hts : parse (us ++ ts) = .ok a) :
    (∃ b, parse us = .ok b) ∨ ∃ p, parse us = .error ⟨.unfinished form, p⟩ := by
  cases hs : Stack.run form [] us with
  | ok s => exact h.ok us s hs
  | error e =>
    -- A token of `us` that is refused would be refused in `us ++ ts`, too.
    obtain ⟨u, hu, -⟩ := Stack.refused_of_run hs
    have hlt : Stack.admitted form [] (us ++ []) < us.length := by
      rw [List.append_nil]
      exact (List.getElem?_eq_some_iff.1 hu).1
    have hus : parse (us ++ []) = .error e := by
      rw [List.append_nil]
      exact h.error us e hs
    cases hts.symm.trans (h.behind hus hlt ts).1

/-- A parser that follows its run decides at the first refused token. -/
theorem refusesAtOnce (h : FollowsRun form parse) : RefusesAtOnce form parse where
  fault _ _ := h.fault
  behind _ _ vs _ hts hus := h.behind hts hus vs
  place _ _ _ := h.place
  start _ _ _ := h.start

end FollowsRun

/-- The parser of expressions has the faults of its run. -/
theorem parseExpression_followsRun : FollowsRun .expression parseExpression where
  error ts e h := by
    rw [parseExpression, h]
  ok ts s h := by
    unfold parseExpression
    rw [h]
    split
    · next he => cases he
    · exact .inl ⟨_, rfl⟩
    · exact .inr ⟨_, rfl⟩

/-- The parser of batches has the faults of its run. -/
theorem parseBatch_followsRun : FollowsRun .batch parseBatch where
  error ts e h := by
    rw [parseBatch, h]
  ok ts s h := by
    unfold parseBatch
    rw [h]
    split
    · next he => cases he
    · exact .inl ⟨_, rfl⟩
    · exact .inr ⟨_, rfl⟩

/-- Whether a token is refused, and with which fault, is decided by the token and those in front of
it, in expressions and in batches. What begins an accepted list of tokens is never refused: it is
accepted itself, or it ends too early. -/
theorem parse_refusesAtOnce :
    RefusesAtOnce .expression parseExpression ∧ RefusesAtOnce .batch parseBatch :=
  ⟨parseExpression_followsRun.refusesAtOnce, parseBatch_followsRun.refusesAtOnce⟩

/-- The bracket in `x * y)` is refused in front of any tokens. In `x . y =` the sign is refused for
its target, and `x =(y` is only too short. -/
theorem parse_refusesAtOnce_bracket :
    let x : Located Token := ⟨.identifier "x", ⟨1, 0⟩⟩
    let y : Located Token := ⟨.identifier "y", ⟨1, 4⟩⟩
    let us : List (Located Token) := [x, ⟨.symbol .star, ⟨1, 2⟩⟩, y, ⟨.symbol .closeParen, ⟨1, 5⟩⟩]
    let vs : List (Located Token) := [x, ⟨.symbol .dot, ⟨1, 2⟩⟩, y, ⟨.symbol .assign, ⟨1, 6⟩⟩]
    let ws : List (Located Token) :=
      [x, ⟨.symbol .assign, ⟨1, 2⟩⟩, ⟨.symbol .openParen, ⟨1, 3⟩⟩, y]
    let ts : List (Located Token) := [⟨.symbol .closeParen, ⟨1, 8⟩⟩, ⟨.symbol .semicolon, ⟨1, 9⟩⟩]
    let e : Located ParseFault := ⟨.unexpectedToken (.symbol .closeParen) .closesNothing, ⟨1, 5⟩⟩
    (parseExpression (us ++ []) = .error e ∧ Stack.admitted .expression [] (us ++ []) = 3 ∧
      parseBatch (vs ++ ts) = .error ⟨.invalidTarget, ⟨1, 6⟩⟩ ∧
      Stack.admitted .batch [] (vs ++ ts) = 3 ∧ ∃ as, parseBatch (ws ++ ts) = .ok as) ∧
    (∀ q, parseExpression (us ++ q) = .error e) ∧
    (∀ q, parseBatch (vs ++ q) = .error ⟨.invalidTarget, ⟨1, 6⟩⟩) ∧
    ((∃ as, parseBatch ws = .ok as) ∨ ∃ p, parseBatch ws = .error ⟨.invalidBatch, p⟩) := by
  intro x y us vs ws ts e
  have hus : parseExpression (us ++ []) = .error e := by cbv
  have hvs : parseBatch (vs ++ ts) = .error ⟨.invalidTarget, ⟨1, 6⟩⟩ := by cbv
  have hus' : Stack.admitted .expression [] (us ++ []) = 3 := by cbv
  have hvs' : Stack.admitted .batch [] (vs ++ ts) = 3 := by cbv
  have hws : ∃ as, parseBatch (ws ++ ts) = .ok as := ⟨_, by cbv⟩
  obtain ⟨hexpression, hbatch⟩ := parse_refusesAtOnce
  refine ⟨⟨hus, hus', hvs, hvs', hws⟩, fun q => ?_, fun q => ?_, ?_⟩
  · exact (hexpression.behind us [] q e hus (hus' ▸ by decide)).1
  · exact (hbatch.behind vs ts q _ hvs (hvs' ▸ by decide)).1
  · obtain ⟨as, has⟩ := hws
    exact hbatch.start ws ts as has

end Refusal

/-! ## The stack in front of a token

A run over `us ++ vs` is a run over `us` in which the first token of `vs` is already in sight, and
then a run over `vs`. `Stack.runBefore` is the first part of it, with the token in sight as an
argument; the lemmas on appended runs put the two together.
-/

section Prefix

variable {form : Form} {next : Option Token} {s s' : Stack} {u : Located Token}
  {ts us vs : List (Located Token)} {e : Located ParseFault}

namespace Stack

/-- The stack behind the tokens, while `next` is the token that comes behind the last of them. -/
def runBefore (form : Form) (next : Option Token) (s : Stack) :
    List (Located Token) → Except (Located ParseFault) Stack
  | [] => .ok s
  | t :: ts =>
    match s.step form t ((ts.head?.map Located.value).or next) with
    | .error e => .error e
    | .ok s => s.runBefore form next ts

/-- The stack behind the tokens is reached from that behind the first of them. -/
theorem runBefore_of_step (h : s.step form u ((us.head?.map Located.value).or next) = .ok s') :
    s.runBefore form next (u :: us) = s'.runBefore form next us := by
  rw [runBefore, h]

/-- A refused token ends the first part of a run as well. -/
theorem runBefore_of_step_error
    (h : s.step form u ((us.head?.map Located.value).or next) = .error e) :
    s.runBefore form next (u :: us) = .error e := by
  rw [runBefore, h]

/-- Nothing comes behind the tokens of a whole run. -/
theorem runBefore_none : s.runBefore form none ts = s.run form ts := by
  induction ts generalizing s with
  | nil => rfl
  | cons t ts ih =>
    have hnext : (ts.head?.map Located.value).or none = ts.head?.map Located.value := Option.or_none
    cases hs : s.step form t (ts.head?.map Located.value) with
    | error e => rw [run_of_step_error hs, runBefore_of_step_error (hnext ▸ hs)]
    | ok s' => rw [run_of_step hs, runBefore_of_step (hnext ▸ hs), ih]

/-- The token in sight of the first part is the first one of the second part. -/
theorem runBefore_append : s.runBefore form next (us ++ vs) =
    match s.runBefore form ((vs.head?.map Located.value).or next) us with
    | .error e => .error e
    | .ok s => s.runBefore form next vs := by
  induction us generalizing s with
  | nil => rfl
  | cons u us ih =>
    have hnext : ((us ++ vs).head?.map Located.value).or next
        = (us.head?.map Located.value).or ((vs.head?.map Located.value).or next) := by
      cases us <;> rfl
    rw [List.cons_append]
    cases hs : s.step form u (((us ++ vs).head?.map Located.value).or next) with
    | error e => rw [runBefore_of_step_error hs, runBefore_of_step_error (hnext ▸ hs)]
    | ok s' => rw [runBefore_of_step hs, runBefore_of_step (hnext ▸ hs), ih]

/-- A run over two lists goes on from the stack behind the first one. -/
theorem run_append_of_runBefore (h : s.runBefore form (vs.head?.map Located.value) us = .ok s') :
    s.run form (us ++ vs) = s'.run form vs := by
  rw [← runBefore_none, runBefore_append, Option.or_none, h]
  exact runBefore_none

/-- A run over two lists ends with a fault in the first one. -/
theorem run_append_of_runBefore_error
    (h : s.runBefore form (vs.head?.map Located.value) us = .error e) :
    s.run form (us ++ vs) = .error e := by
  rw [← runBefore_none, runBefore_append, Option.or_none, h]

/-- The last token is put on the stack in front of it. -/
theorem runBefore_concat (h : s.runBefore form (some u.value) us = .ok s') :
    s.runBefore form next (us ++ [u]) = s'.step form u next := by
  have hnext : (([u] : List (Located Token)).head?.map Located.value).or next = some u.value := rfl
  rw [runBefore_append, hnext, h]
  cases hu : s'.step form u next with
  | error e => exact runBefore_of_step_error hu
  | ok t => exact runBefore_of_step hu

/-- Whether one of the tokens is refused does not depend on what comes behind them. -/
theorem runBefore_error (h : s.runBefore form next us = .error e) (next' : Option Token) :
    s.runBefore form next' us = .error e := by
  induction us generalizing s with
  | nil => cases h
  | cons u us ih =>
    cases hs : s.step form u ((us.head?.map Located.value).or next) with
    | error f =>
      rw [runBefore_of_step_error hs] at h
      rw [runBefore_of_step_error (step_error hs _), h]
    | ok t =>
      rw [runBefore_of_step hs] at h
      cases us with
      | nil => cases h
      | cons w us =>
        -- The step has a token of `us` in sight, so it is the same one in both runs.
        have hs' : s.step form u (((w :: us).head?.map Located.value).or next') = .ok t := hs
        rw [runBefore_of_step hs']
        exact ih h

end Stack

end Prefix

end MapExpr
