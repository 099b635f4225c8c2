import MapExpr.Proofs.Parsing.Batch
import Mathlib.Control.Monad.Basic

/-!
# What stands in front of an assignment sign

An assignment sign is admitted behind a variable at the beginning of an entry. The check looks at
the stack, and a variable on the stack may have been written in parentheses, so a target is admitted
that is no plain name (`assign_behind_parenthesis`). It is the only kind of them: the pieces below
the variable are nothing or finished entries, and the tokens of the variable itself are a name in
matching parentheses (`followsTarget_of_refusal?`).

Every batch with an assignment sign elsewhere is refused, at this sign at the latest.
-/

namespace MapExpr

variable {us vs ts : List (Located Token)} {s : Stack} {x : String} {p : Position}
  {as : List Assignment}

/-! ## The beginning of an entry -/

/-- An entry begins behind the tokens: there are none, or a semicolon is the last one. -/
def StartsEntry (ts : List (Located Token)) : Prop :=
  ∀ t, ts.getLast? = some t → t.value = .symbol .semicolon

/-- The tokens end with a name that begins an entry. -/
def FollowsName (ts : List (Located Token)) : Prop :=
  ∃ us x p, ts = us ++ [⟨.identifier x, p⟩] ∧ StartsEntry us

/-- The tokens end with a name that begins an entry and may stand in matching parentheses. -/
def FollowsTarget (ts : List (Located Token)) : Prop :=
  ∃ us vs x p, ts = us ++ vs ∧ Target vs x p ∧ StartsEntry us

/-- The first entry begins in front of all tokens. -/
theorem startsEntry_nil : StartsEntry [] := nofun

/-- Another entry begins behind a semicolon. -/
theorem startsEntry_append : StartsEntry (us ++ [⟨.symbol .semicolon, p⟩]) := by
  intro t ht
  rw [List.getLast?_concat] at ht
  cases ht
  rfl

/-- Entries end with a semicolon. -/
theorem MeansEntries.startsEntry (h : MeansEntries ts as) : StartsEntry ts := by
  obtain ⟨es, hes, rfl, -⟩ := h
  rw [← List.dropLast_concat_getLast hes, List.flatMap_append, List.flatMap_singleton, Entry.tokens]
  have hcut : ∀ (us vs ws : List (Located Token)) (t t' : Located Token),
      us ++ (vs ++ t :: (ws ++ [t'])) = (us ++ (vs ++ t :: ws)) ++ [t'] := by simp
  rw [hcut]
  exact startsEntry_append

/-- Below the first name of an entry there is nothing but finished entries. -/
theorem Stack.Bare.startsEntry (hs : s.Bare) (h : Waiting .batch us s) : StartsEntry us := by
  rcases hs with rfl | ⟨as, rfl⟩
  · cases h
    exact startsEntry_nil
  · cases h with
    | entries _ has => exact has.startsEntry

/-! ## Names and parentheses -/

/-- A target is a plain name unless it ends with a parenthesis. -/
theorem Target.eq_singleton (h : Target vs x p)
    (hv : ∀ q, vs.getLast? ≠ some ⟨.symbol .closeParen, q⟩) : vs = [⟨.identifier x, p⟩] := by
  cases h with
  | name => rfl
  | @group us _ _ r r' h =>
    refine absurd ?_ (hv r')
    rw [← List.cons_append, List.getLast?_concat]

/-- A target has tokens. -/
theorem Target.ne_nil (h : Target vs x p) : vs ≠ [] := by
  cases h with
  | name => exact List.cons_ne_nil _ _
  | group => exact List.cons_ne_nil _ _

/-- A name is a target, and a target is a name unless it ends with a parenthesis. -/
theorem followsName_iff : FollowsName ts ↔
    FollowsTarget ts ∧ ∀ q, ts.getLast? ≠ some ⟨.symbol .closeParen, q⟩ := by
  constructor
  · rintro ⟨us, x, p, rfl, hus⟩
    refine ⟨⟨us, _, x, p, rfl, .name, hus⟩, fun q hq => ?_⟩
    rw [List.getLast?_concat] at hq
    cases hq
  · rintro ⟨⟨us, vs, x, p, rfl, hvs, hus⟩, hlast⟩
    rw [List.getLast?_append_of_ne_nil us hvs.ne_nil] at hlast
    obtain rfl := hvs.eq_singleton hlast
    exact ⟨us, x, p, rfl, hus⟩

/-! ## Where an assignment sign is admitted -/

/-- An assignment sign is refused where no expression is on top of the stack. -/
theorem exists_expr_of_assign (h : s.refusal? .batch (.symbol .assign) = none) :
    ∃ f s', s = .expr f :: s' := by
  have htop : s.topIsExpr = true := by
    by_contra hne
    rw [Bool.not_eq_true] at hne
    simp only [Stack.refusal?, Token.continuesExpr, hne] at h
    split at h <;> cases h
  unfold Stack.topIsExpr at htop
  split at htop
  · exact ⟨_, _, rfl⟩
  · cases htop

/-- Where an assignment sign is admitted, it follows a target. -/
theorem followsTarget_of_refusal? (h : Settled .batch (some (.symbol .assign)) us s)
    (hr : s.refusal? .batch (.symbol .assign) = none) : FollowsTarget us := by
  obtain ⟨f, s', rfl⟩ := exists_expr_of_assign hr
  obtain ⟨-, x, q, rfl, hs⟩ := Stack.exists_var_of_assign (Stack.joinRefusal?_of_refusal? hr)
  cases h.parsed with
  | waiting hw => cases hw
  | @expr ws vs _ _ _ hw he hts =>
    have hbare : Stack.Bare s' := by
      rcases hs with rfl | ⟨as, s', rfl⟩
      · exact .inl rfl
      · exact hw.bare_of_entries
    have htarget : Target vs x q := (means_var_iff (Nat.zero_le 9)).1 (he.mono (Nat.zero_le _))
    exact ⟨ws, vs, x, q, hts, htarget, hbare.startsEntry hw⟩

/-- Where an assignment sign does not follow a target, the run fails at this sign or before it. -/
theorem exists_refused_of_assign (h : ¬ FollowsTarget us) (p : Position)
    (vs : List (Located Token)) :
    ∃ e, Stack.run .batch [] (us ++ ⟨.symbol .assign, p⟩ :: vs) = .error e ∧
      ∃ u ∈ us ++ [⟨.symbol .assign, p⟩], Refused .batch u e := by
  cases hs : Stack.runBefore .batch (some (.symbol .assign)) [] us with
  | error e =>
    -- A token of `us` is refused, and it is refused as well if nothing comes behind `us`.
    have hrun : Stack.run .batch [] us = .error e := by
      rw [← Stack.runBefore_none]
      exact Stack.runBefore_error hs none
    obtain ⟨u, hu, hrefused⟩ := Stack.refused_of_run hrun
    exact ⟨e, Stack.run_append_of_runBefore_error hs, u,
      List.mem_append_left _ (List.mem_of_getElem? hu), hrefused⟩
  | ok s =>
    cases hr : s.refusal? .batch (.symbol .assign) with
    | none => exact absurd (followsTarget_of_refusal? (settled_of_runBefore hs) hr) h
    | some fault =>
      have hstep : ∀ next, s.step .batch ⟨.symbol .assign, p⟩ next = .error ⟨fault, p⟩ := by
        intro next
        rw [Stack.step, Stack.shift, hr]
      have hrun : Stack.run .batch [] (us ++ ⟨.symbol .assign, p⟩ :: vs) = .error ⟨fault, p⟩ := by
        rw [Stack.run_append_of_runBefore hs]
        exact Stack.run_of_step_error (hstep _)
      exact ⟨_, hrun, _, List.mem_append_right _ (List.mem_singleton.2 rfl),
        Stack.refused_of_step (hstep none)⟩

/-- In front of an assignment sign of a batch that is accepted there is a name that begins an entry,
and there may be matching parentheses around the name; without a parenthesis directly in front of
the sign it is the plain name. A batch in which something else stands in front of the sign is
rejected, because of the sign or of a token before it: with the fault of a target that is no name,
or with that of an unexpected token. -/
theorem assign_follows_target (us vs : List (Located Token)) (p : Position) :
    (∀ as, parseBatch (us ++ ⟨.symbol .assign, p⟩ :: vs) = .ok as → FollowsTarget us) ∧
    (FollowsName us ↔
      FollowsTarget us ∧ ∀ q, us.getLast? ≠ some ⟨.symbol .closeParen, q⟩) ∧
    (¬ FollowsTarget us → ∃ e, parseBatch (us ++ ⟨.symbol .assign, p⟩ :: vs) = .error e ∧
      (∃ u ∈ us ++ [⟨.symbol .assign, p⟩], e.position = u.position) ∧
      (e.value = .invalidTarget ∨ ∃ u why, e.value = .unexpectedToken u why)) := by
  have hrejected : ¬ FollowsTarget us → ∃ e,
      parseBatch (us ++ ⟨.symbol .assign, p⟩ :: vs) = .error e ∧
        ∃ u ∈ us ++ [⟨.symbol .assign, p⟩], Refused .batch u e := by
    intro h
    obtain ⟨e, he, hrefused⟩ := exists_refused_of_assign h p vs
    exact ⟨e, parseBatch_followsRun.error _ _ he, hrefused⟩
  refine ⟨fun as has => ?_, followsName_iff, fun h => ?_⟩
  · by_contra hne
    obtain ⟨e, he, -⟩ := hrejected hne
    cases has.symm.trans he
  · obtain ⟨⟨fault, q⟩, he, u, hu, hrefused⟩ := hrejected h
    refine ⟨_, he, ⟨u, hu, hrefused.position⟩, ?_⟩
    have heager := hrefused.eager
    cases fault with
    | unexpectedToken t why => exact .inr ⟨t, why, rfl⟩
    | invalidTarget => exact .inl rfl
    | invalidExpression => exact heager.elim
    | invalidBatch => exact heager.elim

/-- The second sign of `b=x;((a))=y;` follows a target that is no plain name, and the sign of `1=2;`
follows none. -/
theorem assign_follows_target_grouped :
    let us : List (Located Token) :=
      [⟨.identifier "b", ⟨1, 0⟩⟩, ⟨.symbol .assign, ⟨1, 1⟩⟩, ⟨.identifier "x", ⟨1, 2⟩⟩,
        ⟨.symbol .semicolon, ⟨1, 3⟩⟩, ⟨.symbol .openParen, ⟨1, 4⟩⟩,
        ⟨.symbol .openParen, ⟨1, 5⟩⟩, ⟨.identifier "a", ⟨1, 6⟩⟩, ⟨.symbol .closeParen, ⟨1, 7⟩⟩,
        ⟨.symbol .closeParen, ⟨1, 8⟩⟩]
    let vs : List (Located Token) :=
      [⟨.identifier "y", ⟨1, 10⟩⟩, ⟨.symbol .semicolon, ⟨1, 11⟩⟩]
    let one : Located Token := ⟨.number 1, ⟨1, 0⟩⟩
    let two : List (Located Token) := [⟨.number 2, ⟨1, 2⟩⟩, ⟨.symbol .semicolon, ⟨1, 3⟩⟩]
    (tokenize .batch "b=x;((a))=y;" = .ok (us ++ ⟨.symbol .assign, ⟨1, 9⟩⟩ :: vs) ∧
      FollowsTarget us ∧ ¬ FollowsName us) ∧
    ¬ FollowsTarget [one] ∧
    ∃ e, parseBatch ([one] ++ ⟨.symbol .assign, ⟨1, 1⟩⟩ :: two) = .error e ∧
      (e.value = .invalidTarget ∨ ∃ u why, e.value = .unexpectedToken u why) := by
  intro us vs one two
  obtain ⟨haccepted, hname, -⟩ := assign_follows_target us vs ⟨1, 9⟩
  have hone : ¬ FollowsTarget [one] := by
    rintro ⟨ws, ts, x, p, hts, ht, -⟩
    -- A target is not empty, so it would be the number itself.
    obtain ⟨rfl, rfl⟩ : ws = [] ∧ ts = [one] := by
      rcases List.append_eq_singleton_iff.1 hts.symm with h | ⟨-, rfl⟩
      · exact h
      · exact absurd rfl ht.ne_nil
    change Target [⟨.number 1, ⟨1, 0⟩⟩] x p at ht
    cases ht
  obtain ⟨e, he, -, hfault⟩ := (assign_follows_target [one] two ⟨1, 1⟩).2.2 hone
  refine ⟨⟨by decide +kernel, haccepted _ (by cbv), fun h => ?_⟩, hone, e, he, hfault⟩
  exact (hname.1 h).2 ⟨1, 8⟩ rfl

/-- In `(a) = b;` the sign does not follow a plain name, and the batch is accepted. -/
theorem assign_behind_parenthesis :
    let us : List (Located Token) :=
      [⟨.symbol .openParen, ⟨1, 0⟩⟩, ⟨.identifier "a", ⟨1, 1⟩⟩, ⟨.symbol .closeParen, ⟨1, 2⟩⟩]
    let vs : List (Located Token) :=
      [⟨.identifier "b", ⟨1, 6⟩⟩, ⟨.symbol .semicolon, ⟨1, 7⟩⟩]
    tokenize .batch "(a) = b;" = .ok (us ++ ⟨.symbol .assign, ⟨1, 4⟩⟩ :: vs) ∧
    parseBatch (us ++ ⟨.symbol .assign, ⟨1, 4⟩⟩ :: vs) = .ok [⟨"a", .var "b" ⟨1, 6⟩, ⟨1, 1⟩⟩] ∧
    ¬ FollowsName us := by
  intro us vs
  refine ⟨by decide +kernel, by cbv, fun h => ?_⟩
  exact (followsName_iff.1 h).2 ⟨1, 2⟩ rfl

end MapExpr
