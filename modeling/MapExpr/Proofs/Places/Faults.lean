import MapExpr.Proofs.Evaluation.FaultPlaces
import MapExpr.Proofs.Parsing.Reading
import MapExpr.Proofs.Parsing.Relocation
import MapExpr.Proofs.Places.Tokens

/-!
# Every fault stands in the source

Whatever stage a source fails in, the fault stands at a place of the source (`fault_places`): at the
first character of what is no token, at a token if the tokens are no expression, and at a node of
the tree if the tree has no value; and the nodes of a tree stand at tokens. Only a source without
any token has nothing to point at, and reports its beginning.

That the parser makes up no place follows from its carrying places along: moving all places but
those of the tokens moves no token, and hence neither the fault nor a node of the tree.
-/

namespace MapExpr

/-! ## Places that the parser reports -/

/-- Moves every place that is not one of `ps`. -/
def moveOthers (ps : List Position) (p : Position) : Position := if p ∈ ps then p else p.next ' '

/-- The places that are not moved are those of the list. -/
theorem moveOthers_eq_self_iff {ps : List Position} {p : Position} :
    moveOthers ps p = p ↔ p ∈ ps := by
  unfold moveOthers
  split
  · next h => exact iff_of_true rfl h
  · next h =>
    refine iff_of_false (fun heq => ?_) h
    have hoffset : (p.next ' ').offset = p.offset := congrArg Position.offset heq
    exact absurd hoffset (Nat.succ_ne_self _)

/-- Places that are not moved are among `ps`. -/
theorem subset_of_map_moveOthers {ps qs : List Position} (h : qs.map (moveOthers ps) = qs) :
    qs ⊆ ps := by
  induction qs with
  | nil => exact List.nil_subset ps
  | cons q qs ih =>
    obtain ⟨hq, hqs⟩ := List.cons.inj h
    exact List.cons_subset.2 ⟨moveOthers_eq_self_iff.1 hq, ih hqs⟩

section Parsing

variable {ts : List (Located Token)} {ps : List Position}

/-- Tokens stay where they are if all other places are moved. -/
theorem map_relocate_moveOthers (hts : ts.map Located.position ⊆ ps) :
    ts.map (Located.relocate (moveOthers ps)) = ts := by
  refine (List.map_congr_left fun t ht => ?_).trans (List.map_id ts)
  have hp : t.position ∈ ps := hts (List.mem_map_of_mem ht)
  exact congrArg (Located.mk t.value) (moveOthers_eq_self_iff.2 hp)

namespace MovesAlong

variable {α : Type} {move : (Position → Position) → α → α}
  {parse : List (Located Token) → Except (Located ParseFault) α}

/-- A fault is reported at a token, or at the beginning. -/
theorem mem_of_error (hparse : MovesAlong move parse) (hts : ts.map Located.position ⊆ ps)
    (hstart : .start ∈ ps ∨ ts ≠ []) {e : Located ParseFault} (h : parse ts = .error e) :
    e.position ∈ ps := by
  have hmove := hparse (moveOthers ps) ts (hstart.imp_left moveOthers_eq_self_iff.2)
  rw [map_relocate_moveOthers hts, h] at hmove
  have hfault : e = e.relocate (moveOthers ps) := Except.error.inj hmove
  exact moveOthers_eq_self_iff.1 (congrArg Located.position hfault).symm

/-- Tokens that are refused are so at one of them, or at the beginning if there are none. -/
theorem position_of_error (hparse : MovesAlong move parse) {e : Located ParseFault}
    (h : parse ts = .error e) :
    ts = [] ∧ e.position = .start ∨ e.position ∈ ts.map Located.position := by
  by_cases hts : ts = []
  · subst hts
    have hp : e.position ∈ [.start] := hparse.mem_of_error (List.nil_subset _) (.inl (.head _)) h
    exact .inl ⟨rfl, List.mem_singleton.1 hp⟩
  · exact .inr (hparse.mem_of_error (List.Subset.refl _) (.inr hts) h)

/-- What a parser makes of tokens stays where it is if all other places are moved. -/
theorem move_of_ok (hparse : MovesAlong move parse) (hts : ts ≠ []) {a : α}
    (h : parse ts = .ok a) : move (moveOthers (ts.map Located.position)) a = a := by
  have hmove := hparse (moveOthers (ts.map Located.position)) ts (.inr hts)
  rw [map_relocate_moveOthers (List.Subset.refl _), h] at hmove
  exact (Except.ok.inj hmove).symm

end MovesAlong

/-- The nodes of a tree that is not moved stand at these places. -/
theorem Expr.positions_subset {e : Expr} (h : e.relocate (moveOthers ps) = e) :
    e.positions ⊆ ps := by
  have hpositions := e.positions_relocate (f := moveOthers ps)
  rw [h] at hpositions
  exact subset_of_map_moveOthers hpositions.symm

/-- The nodes of a tree stand at tokens. -/
theorem positions_subset_of_parseExpression {e : Expr} (h : parseExpression ts = .ok e) :
    e.positions ⊆ ts.map Located.position := by
  have hts : ts ≠ [] := by
    rintro rfl
    cases h
  exact Expr.positions_subset (parseExpression_movesAlong.move_of_ok hts h)

/-- The nodes of the entries of a batch stand at tokens. -/
theorem positions_subset_of_parseBatch {as : List Assignment} (h : parseBatch ts = .ok as)
    {a : Assignment} (ha : a ∈ as) : a.value.positions ⊆ ts.map Located.position := by
  have hts : ts ≠ [] := by
    rintro rfl
    cases h
  have hmove := parseBatch_movesAlong.move_of_ok hts h
  have hentry := List.map_inj_left.1 (hmove.trans (List.map_id as).symm) a ha
  exact Expr.positions_subset (congrArg Assignment.value hentry)

end Parsing

/-! ## Places of a source -/

/-- A token of the source begins at the place. -/
def TokenAt (form : Form) (source : String) (p : Position) : Prop :=
  ∃ us t pre, t.position = p ∧ p = .behind pre ∧ TokenBehind form .start source.toList us t pre

/-- The fault stands where it arose: a lexical one at the character that begins no token, a
syntactical one at a token or, if there are none, at the beginning, and one of the evaluation at one
of the nodes, which has a token too. -/
inductive Placed (form : Form) (source : String) (nodes : Position → Prop) : Located Fault → Prop
  | lex {fault : LexFault} {c : Char} {pre post : List Char} {ts : List (Located Token)}
      (hsource : source.toList = pre ++ c :: post)
      (hs : Scans form .start source.toList ts (.behind pre) (c :: post))
      (ho : Offends form c post) : Placed form source nodes ⟨.lex fault, .behind pre⟩
  | beginning {fault : ParseFault} (h : tokenize form source = .ok []) :
      Placed form source nodes ⟨.parse fault, ⟨1, 0⟩⟩
  | token {fault : ParseFault} {p : Position} (h : TokenAt form source p) :
      Placed form source nodes ⟨.parse fault, p⟩
  | node {fault : EvalFault} {p : Position} (hp : nodes p) (h : TokenAt form source p) :
      Placed form source nodes ⟨.eval fault, p⟩

variable {form : Form} {source : String} {ts : List (Located Token)} {p : Position}
  {nodes : Position → Prop}

/-- A token begins at the place of each token of a source. -/
theorem tokenAt_of_mem (hts : tokenize form source = .ok ts) (h : p ∈ ts.map Located.position) :
    TokenAt form source p := by
  obtain ⟨t, ht, rfl⟩ := List.mem_map.1 h
  obtain ⟨us, vs, hsplit⟩ := List.append_of_mem ht
  obtain ⟨q, hs⟩ := ((tokenize_iff_longest form source).1 ts).1 hts
  obtain ⟨pre, hpre⟩ := hs.exists_tokenBehind hsplit
  exact ⟨us, t, pre, rfl, hpre.position.trans (Position.after_start pre), hpre⟩

/-- A lexical fault stands at the character that begins no token. -/
theorem placed_of_tokenize {e : Located LexFault} (h : tokenize form source = .error e) :
    Placed form source nodes (e.map Fault.lex) := by
  obtain ⟨ts, c, post, hs, ho, -⟩ := ((tokenize_iff_longest form source).2 e.value e.position).1 h
  obtain ⟨pre, hsource, hq⟩ := hs.exists_append
  have hp : e.position = .behind pre := hq.trans (Position.after_start pre)
  rw [hp] at hs
  rw [Located.map, hp]
  exact .lex hsource hs ho

/-- A syntactical fault stands at a token, or at the beginning if there is none. -/
theorem placed_of_parse {e : Located ParseFault} (hts : tokenize form source = .ok ts)
    (h : ts = [] ∧ e.position = .start ∨ e.position ∈ ts.map Located.position) :
    Placed form source nodes (e.map Fault.parse) := by
  rcases h with ⟨rfl, hp⟩ | hp
  · rw [Located.map, hp]
    exact .beginning hts
  · exact .token (tokenAt_of_mem hts hp)

/-- A source that cannot be read fails at a character or at a token. -/
theorem placed_of_readWith {α : Type} {move : (Position → Position) → α → α}
    {parse : List (Located Token) → Except (Located ParseFault) α} (hparse : MovesAlong move parse)
    {e : Located Fault} (h : readWith form parse source = .error e) :
    Placed form source nodes e := by
  rcases readWith_eq_error_iff.1 h with ⟨fault, hts, rfl⟩ | ⟨ts, fault, hts, hp, rfl⟩
  · exact placed_of_tokenize hts
  · exact placed_of_parse hts (hparse.position_of_error hp)

/-! ## Places of an evaluation -/

namespace Context

variable {H : Host} {c : Context H}

/-- A batch fails at a node of one of its entries. -/
theorem position_mem_of_assign (hc : c.Standard) {as : List Assignment} {e : Located EvalFault}
    (h : (c.assign as).2 = some e) : ∃ a ∈ as, e.position ∈ a.value.positions := by
  induction as generalizing c with
  | nil => cases h
  | cons a as ih =>
    cases hv : c.eval a.value with
    | ok v =>
      rw [assign_cons_of_eval hv] at h
      obtain ⟨b, hb, hp⟩ := ih (hc.bind a.name (hc.eval hv)) h
      exact ⟨b, List.mem_cons_of_mem a hb, hp⟩
    | error f =>
      rw [assign_cons_of_error hv] at h
      cases h
      exact ⟨a, List.mem_cons_self, position_mem_of_eval hc hv⟩

/-- A fault in evaluating a source stands where it arose. -/
theorem placed_of_evaluate (hc : c.Standard) {e : Located Fault}
    (h : c.evaluate source = .error e) :
    Placed .expression source
      (fun p => ∃ t, readExpression source = .ok t ∧ p ∈ t.positions) e := by
  unfold evaluate at h
  cases ht : readExpression source with
  | error f =>
    rw [ht] at h
    cases h
    rw [readExpression_eq] at ht
    exact placed_of_readWith parseExpression_movesAlong ht
  | ok t =>
    rw [ht] at h
    change (c.eval t).mapError _ = _ at h
    obtain ⟨ts, hts, hp⟩ := readExpression_eq_ok_iff.1 ht
    cases hv : c.eval t with
    | ok v =>
      rw [hv] at h
      cases h
    | error f =>
      rw [hv] at h
      cases h
      have hf := position_mem_of_eval hc hv
      exact .node ⟨t, rfl, hf⟩ (tokenAt_of_mem hts (positions_subset_of_parseExpression hp hf))

/-- A fault in carrying out a batch stands where it arose. -/
theorem placed_of_run (hc : c.Standard) {e : Located Fault} (h : (c.run source).2 = some e) :
    Placed .batch source
      (fun p => ∃ as, readBatch source = .ok as ∧ ∃ a ∈ as, p ∈ a.value.positions) e := by
  unfold run at h
  cases ht : readBatch source with
  | error f =>
    rw [ht] at h
    cases h
    rw [readBatch_eq] at ht
    exact placed_of_readWith parseBatch_movesAlong ht
  | ok as =>
    rw [ht] at h
    obtain ⟨f, hf, rfl⟩ := Option.map_eq_some_iff.1 h
    obtain ⟨ts, hts, hp⟩ := readBatch_eq_ok_iff.1 ht
    obtain ⟨a, ha, hmem⟩ := position_mem_of_assign hc hf
    exact .node ⟨as, rfl, a, ha, hmem⟩
      (tokenAt_of_mem hts (positions_subset_of_parseBatch hp ha hmem))

/-- Every fault of a source stands where it arose, and every fault of a tree at one of its nodes. -/
theorem fault_places (hc : c.Standard) :
    (∀ source e, c.evaluate source = .error e → Placed .expression source
      (fun p => ∃ t, readExpression source = .ok t ∧ p ∈ t.positions) e) ∧
    (∀ source e, (c.run source).2 = some e → Placed .batch source
      (fun p => ∃ as, readBatch source = .ok as ∧ ∃ a ∈ as, p ∈ a.value.positions) e) ∧
    (∀ t e, c.eval t = .error e → e.position ∈ t.positions) ∧
    (∀ t e, c.evalTree t = .error e → e.position ∈ t.positions) :=
  ⟨fun _ _ => placed_of_evaluate hc, fun _ _ => placed_of_run hc,
    fun _ _ => position_mem_of_eval hc, fun _ _ => position_mem_of_evalTree hc⟩

/-- If a string is asked for a member `x` that it has not, on the next line, then the fault stands
at the point. -/
theorem fault_places_member :
    let c : Context Host.bare := (empty .bare).bindLibrary
    let e : Located Fault := ⟨.eval (.unknownMember "string" "x"), ⟨2, 1⟩⟩
    (c.Standard ∧ c.evaluate "abs('ü'\n .x)" = .error e) ∧
      Placed .expression "abs('ü'\n .x)"
        (fun p => ∃ t, readExpression "abs('ü'\n .x)" = .ok t ∧ p ∈ t.positions) e := by
  intro c e
  have hc : c.Standard := standard_bare.bindLibrary
  have he : c.evaluate "abs('ü'\n .x)" = .error e := by cbv
  exact ⟨⟨hc, he⟩, (fault_places hc).1 _ e he⟩

end Context

end MapExpr
