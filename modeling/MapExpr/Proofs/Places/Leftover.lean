import MapExpr.Proofs.Parsing.Batch
import MapExpr.Proofs.Parsing.Bottom
import MapExpr.Proofs.Places.Faults

/-!
# Where an incomplete batch is reported

If the tokens of a batch end before all of them are entries, the fault stands at the first piece of
the stack that is no expression. Finished entries are such a piece and lie at the bottom. So once an
entry has been finished, the fault stands at the name that the first one assigns to, and not at what
is left over behind the entries; only if there are no finished entries is it a token of the rest
(`position_of_invalidBatch`).
-/

namespace MapExpr

variable {form : Form} {next : Option Token} {s t : Stack} {ts us rest : List (Located Token)}
  {p : Position} {e : Entry} {es : List Entry} {a : Assignment}

/-! ## Faults of a run -/

namespace Stack

/-- While the tokens are read, nothing says that more of them are missing. -/
theorem run_ne_invalidBatch : s.run form ts ≠ .error ⟨.invalidBatch, p⟩ := by
  intro h
  obtain ⟨u, -, hu⟩ := refused_of_run h
  exact hu.eager

end Stack

/-- Tokens that end too early are read to their end. -/
theorem exists_run_of_invalidBatch (h : parseBatch ts = .error ⟨.invalidBatch, p⟩) :
    ∃ s, Stack.run .batch [] ts = .ok s ∧ p = s.endPosition ts := by
  unfold parseBatch at h
  split at h
  · next fault hs =>
    cases h
    exact absurd hs Stack.run_ne_invalidBatch
  · cases h
  · next s _ hs =>
    cases h
    exact ⟨s, hs, rfl⟩

/-! ## Finished entries -/

/-- Behind a finished entry the fault stands at the name that the entry assigns to. -/
theorem position_of_invalidBatch_entry (he : e.Yields a)
    (h : parseBatch (e.tokens ++ us) = .error ⟨.invalidBatch, p⟩) : p = a.position := by
  obtain ⟨s, hs, rfl⟩ := exists_run_of_invalidBatch h
  have hentry : Stack.run .batch (Stack.ofEntries []) (e.tokens ++ us)
      = Stack.run .batch (Stack.ofEntries [a]) us := Stack.run_entry (Entry.yields_iff.1 he)
  have hrun : Stack.run .batch (Stack.ofEntries [a]) us = .ok s := hentry.symm.trans hs
  have hrests : Stack.Rests a (Stack.ofEntries [a]) := ⟨[a], rfl, rfl⟩
  rw [Stack.endPosition, (hrests.run hrun).leftover?_eq]
  rfl

/-- The name of a target is one of its tokens. -/
theorem Target.mem {x : String} (h : Target ts x p) : p ∈ ts.map Located.position := by
  induction h with
  | name => exact List.mem_singleton.2 rfl
  | group q r _ ih =>
    rw [List.map_cons, List.map_append]
    exact List.mem_cons_of_mem _ (List.mem_append_left _ ih)

/-- An entry stands at the place of one of its tokens. -/
theorem Entry.Yields.mem (he : e.Yields a) : a.position ∈ e.tokens.map Located.position := by
  rw [Entry.tokens, List.map_append]
  exact List.mem_append_left _ he.target.mem

/-! ## Sources -/

/-- No place stands in front of itself. -/
theorem Position.not_before_self (p : Position) : ¬ p.Before p := by
  rintro (h | ⟨-, h⟩)
  · exact absurd h (Nat.lt_irrefl _)
  · exact absurd h (Nat.lt_irrefl _)

/-- No two tokens of a source stand at one place. -/
theorem nodup_positions {source : String} (h : tokenize form source = .ok ts) :
    (ts.map Located.position).Nodup := by
  obtain ⟨q, hs⟩ := exists_scans_of_scan h
  refine List.pairwise_map.2 (hs.pairwise_before.imp ?_)
  intro t u hb heq
  rw [heq] at hb
  exact Position.not_before_self _ hb

/-- A batch that ends too early is reported at a token of what is left behind its finished entries
if there are none, and else at the name that the first entry assigns to. -/
theorem position_of_invalidBatch {source : String}
    (hts : tokenize .batch source = .ok (es.flatMap Entry.tokens ++ rest))
    (hes : ∀ e ∈ es, e.Valid) (hrest : rest ≠ [])
    (h : readBatch source = .error ⟨.parse .invalidBatch, p⟩) :
    (p ∈ rest.map Located.position ↔ es = []) ∧
    ∀ e ∈ es.head?, ∃ a, e.Yields a ∧ p = a.position := by
  obtain ⟨ts, hts', hparse⟩ := readWith_eq_parse_error_iff.1 (readBatch_eq ▸ h)
  obtain rfl := Except.ok.inj (hts'.symm.trans hts)
  cases es with
  | nil =>
    refine ⟨iff_of_true ?_ rfl, nofun⟩
    rcases parseBatch_movesAlong.position_of_error hparse with ⟨hnil, -⟩ | hp
    · exact absurd hnil hrest
    · exact hp
  | cons e es =>
    rw [List.flatMap_cons, List.append_assoc] at hts hparse
    obtain ⟨a, ha⟩ := Entry.valid_iff.1 (hes e List.mem_cons_self)
    obtain rfl := position_of_invalidBatch_entry ha hparse
    refine ⟨iff_of_false (fun hp => ?_) (List.cons_ne_nil e es), ?_⟩
    · have hnodup := nodup_positions hts
      rw [List.map_append] at hnodup
      refine List.disjoint_of_nodup_append hnodup ha.mem ?_
      rw [List.map_append]
      exact List.mem_append_right _ hp
    · rintro _ ⟨⟩
      exact ⟨a, ha, rfl⟩

/-- In `a = x; b = y; c` two entries are finished and `c` is left over, but the fault stands at
`a`. -/
theorem position_of_invalidBatch_first :
    let e : Entry := ⟨[⟨.identifier "a", ⟨1, 0⟩⟩], ⟨1, 2⟩, [⟨.identifier "x", ⟨1, 4⟩⟩], ⟨1, 5⟩⟩
    let e' : Entry := ⟨[⟨.identifier "b", ⟨1, 7⟩⟩], ⟨1, 9⟩, [⟨.identifier "y", ⟨1, 11⟩⟩], ⟨1, 12⟩⟩
    let rest : List (Located Token) := [⟨.identifier "c", ⟨1, 14⟩⟩]
    (tokenize .batch "a = x; b = y; c" = .ok ([e, e'].flatMap Entry.tokens ++ rest) ∧
      e.Valid ∧ e'.Valid ∧
      readBatch "a = x; b = y; c" = .error ⟨.parse .invalidBatch, ⟨1, 0⟩⟩) ∧
    ((⟨1, 0⟩ : Position) ∈ rest.map Located.position ↔ [e, e'] = []) ∧
    ∃ a, e.Yields a ∧ (⟨1, 0⟩ : Position) = a.position := by
  intro e e' rest
  have hts : tokenize .batch "a = x; b = y; c" = .ok ([e, e'].flatMap Entry.tokens ++ rest) := by
    cbv
  have he : e.Valid := ⟨⟨_, _, .name⟩, _, by cbv⟩
  have he' : e'.Valid := ⟨⟨_, _, .name⟩, _, by cbv⟩
  have hread : readBatch "a = x; b = y; c" = .error ⟨.parse .invalidBatch, ⟨1, 0⟩⟩ := by cbv
  have hes : ∀ d ∈ [e, e'], d.Valid :=
    List.forall_mem_cons.2 ⟨he, List.forall_mem_singleton.2 he'⟩
  obtain ⟨hiff, hfirst⟩ := position_of_invalidBatch hts hes (List.cons_ne_nil _ _) hread
  exact ⟨⟨hts, he, he', hread⟩, hiff, hfirst e rfl⟩

/-- In `a = x; b` the entry is finished and nothing that is left over begins with an entry, but the
fault does not stand at what is left over. -/
theorem invalidBatch_outside_remainder :
    let e : Entry := ⟨[⟨.identifier "a", ⟨1, 0⟩⟩], ⟨1, 2⟩, [⟨.identifier "x", ⟨1, 4⟩⟩], ⟨1, 5⟩⟩
    let rest : List (Located Token) := [⟨.identifier "b", ⟨1, 7⟩⟩]
    tokenize .batch "a = x; b" = .ok (e.tokens ++ rest) ∧ e.Valid ∧
    (∀ (d : Entry) (us : List (Located Token)), d.tokens ++ us ≠ rest) ∧
    readBatch "a = x; b" = .error ⟨.parse .invalidBatch, ⟨1, 0⟩⟩ ∧
    (⟨1, 0⟩ : Position) ∉ rest.map Located.position := by
  intro e rest
  refine ⟨by cbv, ⟨⟨_, _, .name⟩, _, by cbv⟩, fun d us h => ?_, by cbv, by decide⟩
  -- An entry has two signs at least, and a single token is left.
  have hlength := congrArg List.length h
  simp only [Entry.tokens, rest, List.length_append, List.length_cons, List.length_nil] at hlength
  omega

end MapExpr
