import MapExpr.Proofs.Parsing.Soundness

/-!
# The segments of a stack

Between two tokens the pieces of the stack stand for consecutive segments of the tokens that have
been read, from the bottom to the top, and nothing is lost, doubled or moved (`Segmented`). Which
piece may lie on which is restricted as well (`Shaped`): there are never two expressions without
anything between them, and what needs an expression in front of it lies on one.

Both follow from the invariant of the parser, which says how a stack has been built up. They hold
for every state that is reached, also if a later token is refused.
-/

namespace MapExpr

variable {form : Form} {us vs ws : List (Located Token)} {s s' : Stack} {i : Item}

/-! ## Segments -/

/-- The tokens that a piece stands for. -/
inductive Item.Covers : List (Located Token) → Item → Prop
  | token (t : Token) (p : Position) : Covers [⟨t, p⟩] (.token t p)
  | expr {ts : List (Located Token)} {e : Expr} (h : ∃ d : Phrase, d.Derives ts ∧ d.tree = e) :
      Covers ts (.expr e)
  /-- Two or more expressions with commas between them. -/
  | list {ts : List (Located Token)} {es : List Expr} {p : Position} (h : MeansRow ts (.list es p))
      (hlen : 2 ≤ es.length) : Covers ts (.list es p)
  | unary {t : Token} {op : UnaryOp} (h : t.unaryOp? = some op) (p : Position) :
      Covers [⟨t, p⟩] (.unary op p)
  | binary {t : Token} {op : BinaryOp} (h : t.binaryOp? = some op) (p : Position) :
      Covers [⟨t, p⟩] (.binary op p)
  | entries {ts : List (Located Token)} {as : List Assignment} (h : MeansEntries ts as.reverse) :
      Covers ts (.entries as)

/-- The tokens are put together from the segments of the pieces, the last piece of the stack being
the first one of the source. -/
def Stack.Segmented (ts : List (Located Token)) (s : Stack) : Prop :=
  ∃ segments : List (List (Located Token)),
    segments.flatten = ts ∧ List.Forall₂ Item.Covers segments s.reverse

/-- The empty stack stands for no tokens. -/
theorem Stack.Segmented.nil : Segmented [] [] := ⟨[], rfl, .nil⟩

/-- A piece on top stands for the segment behind the others. -/
theorem Stack.Segmented.push (h : s.Segmented us) (hi : i.Covers vs) :
    Segmented (us ++ vs) (i :: s) := by
  obtain ⟨segments, rfl, hs⟩ := h
  refine ⟨segments ++ [vs], ?_, ?_⟩
  · rw [List.flatten_append, List.flatten_singleton]
  · rw [List.reverse_cons]
    exact List.rel_append hs (.cons hi .nil)

/-- An expression stands for the tokens of its phrase. -/
theorem Item.covers_expr {n : Nat} {e : Expr} (h : Means n vs e) : (Item.expr e).Covers vs := by
  obtain ⟨d, hd, hvs, he⟩ := h.mono (Nat.zero_le n)
  exact .expr ⟨d, ⟨hd, hvs⟩, he⟩

/-- A row has at least one expression. -/
theorem Row.trees_ne_nil (r : Row) : r.trees ≠ [] := by
  cases r with
  | one d => exact List.cons_ne_nil d.tree []
  | more r p d => exact List.append_ne_nil_of_right_ne_nil r.trees (List.cons_ne_nil d.tree [])

/-- A row covers the piece that it becomes. -/
theorem MeansRow.covers (h : MeansRow vs i) : i.Covers vs := by
  obtain ⟨e, rfl⟩ | ⟨es, p, rfl⟩ := h.isExpr_or_isList
  · exact Item.covers_expr (MeansRow.expr_iff.1 h)
  · refine .list h ?_
    obtain ⟨r, -, -, hi⟩ := h
    cases r with
    | one d => cases hi
    | more r q d =>
      obtain ⟨rfl, -⟩ := Item.list.inj hi
      have hpos := List.length_pos_iff.2 r.trees_ne_nil
      rw [List.length_reverse, Row.trees, List.length_append, List.length_singleton]
      omega

/-! ## Which piece lies on which -/

/-- Tokens that are put on the stack behind an expression only. -/
def Token.followsExpr : Token → Bool
  | symbol .question | symbol .colon | symbol .dot | symbol .assign => true
  | keyword .ifWord | keyword .elseWord => true
  | _ => false

/-- Tokens that do not stay on the stack, since a rule takes them or they are refused. -/
def Token.isTaken : Token → Bool
  | identifier _ => true
  | symbol .closeParen | symbol .closeBracket | symbol .semicolon => true
  | _ => false

/-- What a piece requires of the stack below it. -/
def Item.LiesOn (form : Form) : Item → Stack → Prop
  | .expr _, s => s.topIsExpr = false
  | .binary _ _, s => s.topIsExpr = true
  -- Neither an expression nor a list is on top.
  | .unary _ _, s => s.canSeparate = false
  | .token t _, s => t.isTaken = false ∧ (t.followsExpr = true → s.topIsExpr = true)
  | .entries _, s => s = [] ∧ form = .batch
  | .list _ _, _ => True

/-- Every piece of the stack lies on what it requires. -/
def Stack.Shaped (form : Form) (s : Stack) : Prop :=
  ∀ i below, i :: below <:+ s → i.LiesOn form below

/-- In the empty stack no piece lies on another. -/
theorem Stack.Shaped.nil : Shaped form [] := fun i below h =>
  absurd (List.suffix_nil.1 h) (List.cons_ne_nil i below)

/-- A piece may be put on the stack that it requires. -/
theorem Stack.Shaped.push (h : s.Shaped form) (hi : i.LiesOn form s) : Shaped form (i :: s) := by
  intro j below hj
  rcases List.suffix_cons_iff.1 hj with heq | hsuffix
  · obtain ⟨rfl, rfl⟩ := List.cons.inj heq
    exact hi
  · exact h j below hsuffix

/-! ## Stacks that the parser builds -/

/-- What can be said of the stack while the parser runs. -/
structure Stack.Invariant (form : Form) (ts : List (Located Token)) (s : Stack) : Prop where
  segmented : s.Segmented ts
  shaped : s.Shaped form

/-- The empty stack is well built. -/
theorem Stack.Invariant.nil : Invariant form [] [] := ⟨.nil, .nil⟩

/-- A piece with its segment may be put on a stack that is well built. -/
theorem Stack.Invariant.push (h : s.Invariant form us) (hi : i.Covers vs) (hl : i.LiesOn form s) :
    Invariant form (us ++ vs) (i :: s) :=
  ⟨h.segmented.push hi, h.shaped.push hl⟩

/-- A token that begins an operand may lie on any stack. -/
theorem Item.liesOn_of_opens {t : Token} {p : Position} (ht : t.opens = true) :
    (Item.token t p).LiesOn form s := by
  unfold Token.opens at ht
  split at ht <;> first | exact ⟨rfl, nofun⟩ | cases ht

/-- A token that waits for an operand lies on an expression. -/
theorem Item.liesOn_of_waits {t : Token} {p : Position} {e : Expr} (ht : t.waits = true) :
    (Item.token t p).LiesOn form (.expr e :: s) := by
  unfold Token.waits at ht
  split at ht <;> first | exact ⟨rfl, fun _ => rfl⟩ | cases ht

/-- An expression or a list lies on a stack that waits for an operand. -/
theorem Waiting.liesOn (h : Waiting form us s) (hi : MeansRow vs i) : i.LiesOn form s := by
  obtain ⟨e, rfl⟩ | ⟨es, p, rfl⟩ := hi.isExpr_or_isList
  · exact h.ready.expr
  · trivial

/-- A stack that waits for an operand is well built. -/
theorem Waiting.invariant (h : Waiting form us s) : s.Invariant form us := by
  -- The induction follows the way in which the stack has been built up.
  induction h with
  | start => exact .nil
  | entries hf h => exact Stack.Invariant.nil.push (.entries h) ⟨rfl, hf⟩
  | opener h ht hts ih =>
    subst hts
    exact ih.push (.token _ _) (Item.liesOn_of_opens ht)
  | unary h ht hts ih =>
    subst hts
    exact ih.push (.unary ht _) h.canSeparate_eq_false
  | waiter h hl he ht hts ih =>
    subst hts
    rw [← List.append_assoc]
    exact (ih.push (Item.covers_expr he) h.ready.expr).push (.token _ _) (Item.liesOn_of_waits ht)
  | binary h hl he ht hts ih =>
    subst hts
    rw [← List.append_assoc]
    exact (ih.push (Item.covers_expr he) h.ready.expr).push (.binary ht _) rfl
  | comma h hr hts ih =>
    subst hts
    rw [← List.append_assoc]
    exact (ih.push hr.covers (h.liesOn hr)).push (.token _ _) ⟨rfl, nofun⟩
  | assign hf h hs he hts ih =>
    subst hts
    rw [← List.append_assoc]
    exact (ih.push (Item.covers_expr he) h.ready.expr).push (.token _ _) ⟨rfl, fun _ => rfl⟩

/-- A stack on which nothing is left to do is well built. -/
theorem Settled.invariant {next : Option Token} (h : Settled form next us s) :
    s.Invariant form us := by
  cases h.atRest with
  | waiting hw => exact hw.invariant
  | expr hw he hts =>
    subst hts
    exact hw.invariant.push (Item.covers_expr he) hw.ready.expr
  | list hw hr _ hts =>
    subst hts
    exact hw.invariant.push hr.covers trivial
  | dot hw he hts =>
    subst hts
    rw [← List.append_assoc]
    exact (hw.invariant.push (Item.covers_expr he) hw.ready.expr).push (.token _ _)
      ⟨rfl, fun _ => rfl⟩

/-! ## Reached states -/

namespace Stack

/-- The state of the parser between two tokens: `us` have been read, `s` is the stack, and `vs` are
still to come. -/
inductive Reached (form : Form) : List (Located Token) → Stack → List (Located Token) → Prop
  | start (vs : List (Located Token)) : Reached form [] [] vs
  | step {us vs : List (Located Token)} {u : Located Token} {s s' : Stack}
      (h : Reached form us s (u :: vs))
      (hs : s.step form u (vs.head?.map Located.value) = .ok s') : Reached form (us ++ [u]) s' vs

namespace Reached

/-- In every state that is reached nothing is left to do. -/
theorem settled (h : Reached form us s vs) : Settled form (vs.head?.map Located.value) us s := by
  induction h with
  | start vs => exact .start form _
  | step _ hs ih => exact ih.step hs

/-- A run goes on from each state that it reaches. -/
theorem run_eq (h : Reached form us s vs) : run form [] (us ++ vs) = run form s vs := by
  induction h with
  | start vs => rfl
  | step _ hs ih => rw [List.append_assoc, List.singleton_append, ih, run_of_step hs]

/-- The state behind more tokens. -/
theorem runBefore (h : Reached form us s (vs ++ ws))
    (hs : s.runBefore form (ws.head?.map Located.value) vs = .ok s') :
    Reached form (us ++ vs) s' ws := by
  induction vs generalizing us s with
  | nil =>
    cases hs
    rwa [List.append_nil]
  | cons v vs ih =>
    have hnext : (vs.head?.map Located.value).or (ws.head?.map Located.value)
        = (vs ++ ws).head?.map Located.value := by
      cases vs <;> rfl
    cases hv : s.step form v ((vs.head?.map Located.value).or (ws.head?.map Located.value)) with
    | error e =>
      rw [runBefore_of_step_error hv] at hs
      cases hs
    | ok t =>
      rw [runBefore_of_step hv] at hs
      have hrest := ih (.step h (hnext ▸ hv)) hs
      rwa [List.append_assoc, List.singleton_append] at hrest

end Reached

/-- In every state the tokens that have been read are cut into the segments of the pieces, the
pieces lie on what they require, and the run goes on with the stack and the tokens to come. -/
theorem invariant_of_reached (h : Reached form us s vs) :
    run form [] (us ++ vs) = run form s vs ∧ s.Invariant form us :=
  ⟨h.run_eq, h.settled.invariant⟩

/-- The state in front of a parenthesis that closes no bracket: an entry, and the beginning of
another one whose value is a list in an open bracket. -/
theorem invariant_of_reached_unclosed :
    let us : List (Located Token) :=
      [⟨.identifier "x", ⟨1, 0⟩⟩, ⟨.symbol .assign, ⟨1, 1⟩⟩, ⟨.keyword .noneWord, ⟨1, 2⟩⟩,
        ⟨.symbol .semicolon, ⟨1, 6⟩⟩, ⟨.identifier "y", ⟨1, 7⟩⟩, ⟨.symbol .assign, ⟨1, 8⟩⟩,
        ⟨.symbol .openBracket, ⟨1, 9⟩⟩, ⟨.identifier "a", ⟨1, 10⟩⟩, ⟨.symbol .comma, ⟨1, 11⟩⟩,
        ⟨.identifier "b", ⟨1, 12⟩⟩]
    let vs : List (Located Token) := [⟨.symbol .closeParen, ⟨1, 13⟩⟩]
    let s : Stack :=
      [.list [.var "b" ⟨1, 12⟩, .var "a" ⟨1, 10⟩] ⟨1, 10⟩, .token (.symbol .openBracket) ⟨1, 9⟩,
        .token (.symbol .assign) ⟨1, 8⟩, .expr (.var "y" ⟨1, 7⟩),
        .entries [⟨"x", .literal .none ⟨1, 2⟩, ⟨1, 0⟩⟩]]
    Reached .batch us s vs ∧
    run .batch [] (us ++ vs) =
      .error ⟨.unexpectedToken (.symbol .closeParen) .closesNothing, ⟨1, 13⟩⟩ ∧
    s.Invariant .batch us := by
  intro us vs s
  have hs : runBefore .batch (some (.symbol .closeParen)) [] us = .ok s := by cbv
  have hreached : Reached .batch us s vs := (Reached.start (us ++ vs)).runBefore hs
  obtain ⟨hrun, hinvariant⟩ := invariant_of_reached hreached
  refine ⟨hreached, ?_, hinvariant⟩
  rw [hrun]
  cbv

end Stack

end MapExpr
