import MapExpr.Proofs.Evaluation.Erasure
import MapExpr.Proofs.Lexing.Scan
import MapExpr.Proofs.Parsing.Reading
import MapExpr.Proofs.Parsing.Relocation

/-!
# The layout of a source does not matter

Two sources that differ in the blanks between their tokens have the same outcome: the same value and
the same bindings, or a fault for the same reason (`outcome_of_spaced`). Each of the three stages
takes its part. The tokens are the same but for their places; the parser carries places along, so
the trees are the same but for theirs; and in a standard context the evaluation only reports places.
-/

namespace MapExpr

/-! ## More blanks between tokens

`Spaced cs cs'` says that the text `cs'` is the text `cs` with more blanks in it, none of them
inside a lexeme. Every lexeme of `cs` is still the longest one at its place in `cs'`, for up to the
first blank that has been put in the texts behind it are the same, and a lexeme does not reach over
a blank. So the two texts have the same tokens at other places (`exists_scan_of_spaced`).
-/

section Spacing

/-- The second text is the first one with more blanks in front of, between and behind its
lexemes. -/
inductive Spaced : List Char → List Char → Prop
  | nil : Spaced [] []
  | insert {b : Char} {cs cs' : List Char} (hb : b ∈ blanks) (h : Spaced cs cs') :
      Spaced cs (b :: cs')
  | blank {b : Char} {cs cs' : List Char} (hb : b ∈ blanks) (h : Spaced cs cs') :
      Spaced (b :: cs) (b :: cs')
  | lexeme {l rest rest' : List Char} {t : Token} (hl : Longest (l ++ rest) l t)
      (h : Spaced rest rest') : Spaced (l ++ rest) (l ++ rest')

variable {form : Form} {p : Position} {c : Char} {cs cs' l rest rest' : List Char} {t : Token}
  {ts : List (Located Token)}

namespace Spaced

/-- The texts are the same up to the first blank that has been put in. -/
theorem eq_or_exists (h : Spaced cs cs') :
    cs' = cs ∨ ∃ u b r r', b ∈ blanks ∧ cs = u ++ r ∧ cs' = u ++ b :: r' := by
  induction h with
  | nil => exact .inl rfl
  | @insert b cs cs' hb h ih => exact .inr ⟨[], b, cs, cs', hb, rfl, rfl⟩
  | @blank b cs cs' hb h ih =>
    rcases ih with rfl | ⟨u, d, r, r', hd, rfl, rfl⟩
    · exact .inl rfl
    · exact .inr ⟨b :: u, d, r, r', hd, rfl, rfl⟩
  | @lexeme l rest rest' t hl h ih =>
    rcases ih with rfl | ⟨u, d, r, r', hd, rfl, rfl⟩
    · exact .inl rfl
    · exact .inr ⟨l ++ u, d, r, r', hd, (List.append_assoc ..).symm, (List.append_assoc ..).symm⟩

/-- A lexeme stays the longest one if more blanks stand behind it. -/
theorem longest (h : Spaced rest rest') (hl : Longest (l ++ rest) l t) :
    Longest (l ++ rest') l t := by
  rcases h.eq_or_exists with rfl | ⟨u, b, r, r', hb, rfl, rfl⟩
  · exact hl
  · exact hl.insert_separator (mem_separators_of_mem_blanks hb)

end Spaced

/-- The tokens behind the first lexeme of a text that can be scanned. -/
theorem exists_scan_of_longest (hl : Longest (l ++ rest) l t)
    (h : scan form p (l ++ rest) = .ok ts) :
    (form = .batch ∨ t ≠ .symbol .assign) ∧
      ∃ us, scan form (p.after l) rest = .ok us ∧ ts = ⟨t, p⟩ :: us := by
  have hf : form = .batch ∨ t ≠ .symbol .assign := by
    cases form with
    | batch => exact .inl rfl
    | expression =>
      refine .inr ?_
      rintro rfl
      obtain rfl := hl.spells.assign
      have ho : Offends .expression '=' rest := ⟨by decide, .inr ⟨rfl, hl⟩⟩
      cases (scan_offends ho).symm.trans h
  refine ⟨hf, ?_⟩
  rw [scan_longest hl hf] at h
  cases hs : scan form (p.after l) rest with
  | error e =>
    rw [hs] at h
    cases h
  | ok us =>
    rw [hs] at h
    cases h
    exact ⟨us, rfl, rfl⟩

/-- More blanks between the lexemes leave the tokens what they are. -/
theorem exists_scan_of_spaced (h : Spaced cs cs') (p p' : Position)
    (hts : scan form p cs = .ok ts) :
    ∃ ts', scan form p' cs' = .ok ts' ∧ ts'.map Located.value = ts.map Located.value := by
  induction h generalizing p p' ts with
  | nil =>
    rw [scan] at hts
    cases hts
    exact ⟨[], by rw [scan], rfl⟩
  | @insert b cs cs' hb h ih =>
    obtain ⟨ts', hts', hvalues⟩ := ih p (p'.next b) hts
    exact ⟨ts', (scan_blank hb).trans hts', hvalues⟩
  | @blank b cs cs' hb h ih =>
    rw [scan_blank hb] at hts
    obtain ⟨ts', hts', hvalues⟩ := ih (p.next b) (p'.next b) hts
    exact ⟨ts', (scan_blank hb).trans hts', hvalues⟩
  | @lexeme l rest rest' t hl h ih =>
    obtain ⟨hf, us, hus, rfl⟩ := exists_scan_of_longest hl hts
    obtain ⟨us', hus', hvalues⟩ := ih (p.after l) (p'.after l) hus
    refine ⟨⟨t, p'⟩ :: us', ?_, congrArg (t :: ·) hvalues⟩
    rw [scan_longest (h.longest hl) hf, hus']
    rfl

end Spacing

/-! ## From tokens to outcomes -/

section Outcome

variable {f : Position → Position} {ts ts' : List (Located Token)} {s s' : String}

/-! ### Outcomes up to places -/

section WithoutPlace

variable {ε ε' α β : Type} {x y : Except (Located ε) α}

/-- An outcome without its place does not change when the place is moved. -/
theorem withoutPlace_mapError_relocate (x : Except (Located ε) α) :
    withoutPlace (x.mapError (Located.relocate f)) = withoutPlace x := by
  cases x <;> rfl

/-- Wording a fault anew has nothing to do with what becomes of a value. -/
theorem withoutPlace_map_mapError (x : Except (Located ε) α) (w : ε → ε') (k : α → β) :
    withoutPlace ((x.mapError (Located.map w)).map k) = (withoutPlace (x.map k)).mapError w := by
  cases x <;> rfl

/-- Two outcomes whose images agree are both faults for one reason, or both values with one
image. -/
theorem cases_of_withoutPlace_map {k : α → β}
    (h : withoutPlace (x.map k) = withoutPlace (y.map k)) :
    (∃ e e', x = .error e ∧ y = .error e' ∧ e.value = e'.value) ∨
      ∃ a b, x = .ok a ∧ y = .ok b ∧ k a = k b := by
  cases x with
  | error e =>
    cases y with
    | error e' => exact .inl ⟨e, e', rfl, rfl, Except.error.inj h⟩
    | ok b => cases h
  | ok a =>
    cases y with
    | error e' => cases h
    | ok b => exact .inr ⟨a, b, rfl, rfl, Except.ok.inj h⟩

end WithoutPlace

/-! ### Parsing -/

/-- Tokens without their places, all moved to the start. -/
theorem map_relocate_start (ts : List (Located Token)) :
    ts.map (Located.relocate fun _ => .start)
      = (ts.map Located.value).map fun t => ⟨t, .start⟩ := by
  rw [List.map_map]
  rfl

/-- Equal tokens are the same after all of them have been moved to the start. -/
theorem map_relocate_eq (h : ts'.map Located.value = ts.map Located.value) :
    ts'.map (Located.relocate fun _ => .start) = ts.map (Located.relocate fun _ => .start) := by
  rw [map_relocate_start, map_relocate_start, h]

/-- Erasing the places of an entry moves all of them to the start. -/
theorem Assignment.erase_eq_relocate (a : Assignment) : a.erase = a.relocate fun _ => .start := by
  rw [erase, relocate, a.value.erase_eq_relocate]

section Parsing

variable {α : Type} {move : (Position → Position) → α → α}
  {parse : List (Located Token) → Except (Located ParseFault) α}

/-- What a parser that moves along makes of tokens depends on their places in its places only. -/
theorem MovesAlong.parse_congr (hparse : MovesAlong move parse)
    (h : ts'.map Located.value = ts.map Located.value) :
    withoutPlace ((parse ts').map (move fun _ => .start))
      = withoutPlace ((parse ts).map (move fun _ => .start)) := by
  have hts := hparse (fun _ => .start) ts (.inl rfl)
  have hts' := hparse (fun _ => .start) ts' (.inl rfl)
  rw [map_relocate_eq h, hts] at hts'
  rw [← withoutPlace_mapError_relocate (f := fun _ => .start), ← hts',
    withoutPlace_mapError_relocate]

/-- More blanks between tokens leave the tokens what they are. -/
theorem exists_tokenize_of_spaced {form : Form} (hs : Spaced s.toList s'.toList)
    (h : tokenize form s = .ok ts) :
    ∃ ts', tokenize form s' = .ok ts' ∧ ts'.map Located.value = ts.map Located.value :=
  exists_scan_of_spaced hs .start .start h

/-- What is read from a source depends on its layout in the places only. -/
theorem MovesAlong.readWith_of_spaced {form : Form} (hparse : MovesAlong move parse)
    (hs : Spaced s.toList s'.toList) (h : tokenize form s = .ok ts) :
    withoutPlace ((readWith form parse s').map (move fun _ => .start))
      = withoutPlace ((readWith form parse s).map (move fun _ => .start)) := by
  obtain ⟨ts', h', hvalues⟩ := exists_tokenize_of_spaced hs h
  rw [readWith_of_tokenize h, readWith_of_tokenize h', withoutPlace_map_mapError,
    withoutPlace_map_mapError, hparse.parse_congr hvalues]

end Parsing

/-- Sources that differ in their layout hold trees that differ in their places. -/
theorem readExpression_of_spaced (hs : Spaced s.toList s'.toList)
    (h : tokenize .expression s = .ok ts) :
    withoutPlace ((readExpression s').map Expr.erase)
      = withoutPlace ((readExpression s).map Expr.erase) := by
  rw [readExpression_eq, funext Expr.erase_eq_relocate]
  exact parseExpression_movesAlong.readWith_of_spaced hs h

/-- Sources that differ in their layout hold entries that differ in their places. -/
theorem readBatch_of_spaced (hs : Spaced s.toList s'.toList) (h : tokenize .batch s = .ok ts) :
    withoutPlace ((readBatch s').map (List.map Assignment.erase))
      = withoutPlace ((readBatch s).map (List.map Assignment.erase)) := by
  rw [readBatch_eq, funext Assignment.erase_eq_relocate]
  exact parseBatch_movesAlong.readWith_of_spaced hs h

/-! ### Evaluation -/

namespace Context

variable {H : Host} {c : Context H}

/-- Blanks change neither the value of a source nor the reason of its fault. -/
theorem evaluate_of_spaced (hc : c.Standard) (hs : Spaced s.toList s'.toList)
    (h : tokenize .expression s = .ok ts) :
    withoutPlace (c.evaluate s') = withoutPlace (c.evaluate s) := by
  unfold evaluate
  rcases cases_of_withoutPlace_map (readExpression_of_spaced hs h) with
    ⟨e', e, hr', hr, he⟩ | ⟨e', e, hr', hr, he⟩
  · rw [hr, hr']
    exact congrArg Except.error he
  · rw [hr, hr']
    show withoutPlace ((c.eval e').mapError _) = withoutPlace ((c.eval e).mapError _)
    rw [withoutPlace_mapError, withoutPlace_mapError, eval_eq_of_erase_eq hc he]

/-- Blanks change neither the bindings of a batch nor the reason of its fault. -/
theorem run_of_spaced (hc : c.Standard) (hs : Spaced s.toList s'.toList)
    (h : tokenize .batch s = .ok ts) :
    (c.run s').1 = (c.run s).1 ∧
      (c.run s').2.map Located.value = (c.run s).2.map Located.value := by
  have hfault : ∀ o : Option (Located EvalFault),
      (o.map (Located.map Fault.eval)).map Located.value
        = (o.map Located.value).map Fault.eval := by
    intro o
    rw [Option.map_map, Option.map_map]
    rfl
  unfold run
  rcases cases_of_withoutPlace_map (readBatch_of_spaced hs h) with
    ⟨e', e, hr', hr, he⟩ | ⟨as', as, hr', hr, has⟩
  · rw [hr, hr']
    exact ⟨rfl, congrArg some he⟩
  · rw [hr, hr']
    obtain ⟨hcontext, hvalue⟩ := assign_eq_of_erase_eq hc has
    exact ⟨hcontext, by rw [hfault, hfault, hvalue]⟩

/-- More blanks between the tokens of a source change no token, no tree, no value, no binding and no
reason of a fault. -/
theorem outcome_of_spaced (hc : c.Standard) (hs : Spaced s.toList s'.toList) :
    (∀ form ts, tokenize form s = .ok ts →
      ∃ ts', tokenize form s' = .ok ts' ∧ ts'.map Located.value = ts.map Located.value) ∧
    (∀ ts, tokenize .expression s = .ok ts →
      withoutPlace ((readExpression s').map Expr.erase)
        = withoutPlace ((readExpression s).map Expr.erase) ∧
      withoutPlace (c.evaluate s') = withoutPlace (c.evaluate s)) ∧
    (∀ ts, tokenize .batch s = .ok ts →
      withoutPlace ((readBatch s').map (List.map Assignment.erase))
        = withoutPlace ((readBatch s).map (List.map Assignment.erase)) ∧
      (c.run s').1 = (c.run s).1 ∧
      (c.run s').2.map Located.value = (c.run s).2.map Located.value) := by
  refine ⟨fun form ts h => exists_tokenize_of_spaced hs h, fun ts h => ?_, fun ts h => ?_⟩
  · exact ⟨readExpression_of_spaced hs h, evaluate_of_spaced hc hs h⟩
  · exact ⟨readBatch_of_spaced hs h, run_of_spaced hc hs h⟩

/-- With a line break in the middle, `abs('x')` fails for the same reason at another place. -/
theorem outcome_of_spaced_call :
    let c : Context Host.bare := (empty .bare).bindLibrary
    let s := "abs('x')"
    let s' := " abs\n('x' )\t"
    (c.Standard ∧ Spaced s.toList s'.toList ∧
      (∃ ts, tokenize .expression s = .ok ts) ∧ ∃ ts, tokenize .batch s = .ok ts) ∧
    withoutPlace (c.evaluate s') = withoutPlace (c.evaluate s) ∧
    (c.run s').2.map Located.value = (c.run s).2.map Located.value ∧
    c.evaluate s = .error ⟨.eval (.expectedNumber .string), ⟨1, 3⟩⟩ ∧
    c.evaluate s' = .error ⟨.eval (.expectedNumber .string), ⟨2, 0⟩⟩ := by
  intro c s s'
  have hc : c.Standard := standard_bare.bindLibrary
  have habs : Longest (['a', 'b', 's'] ++ ['(', '\'', 'x', '\'', ')']) ['a', 'b', 's']
      (.identifier "abs") := Lexeme.longest_first (l := ⟨_, _⟩) rfl
  have hopen : Longest (['('] ++ ['\'', 'x', '\'', ')']) ['('] (.symbol .openParen) :=
    Lexeme.longest_first (l := ⟨_, _⟩) rfl
  have hstring : Longest (['\'', 'x', '\''] ++ [')']) ['\'', 'x', '\''] (.string "x") :=
    Lexeme.longest_first (l := ⟨_, _⟩) rfl
  have hclose : Longest ([')'] ++ []) [')'] (.symbol .closeParen) :=
    Lexeme.longest_first (l := ⟨_, _⟩) rfl
  have hs : Spaced s.toList s'.toList := by
    have hspace : ' ' ∈ blanks := by simp [blanks]
    have hbreak : '\n' ∈ blanks := by simp [blanks]
    have htab : '\t' ∈ blanks := by simp [blanks]
    have htoList : s.toList =
        ['a', 'b', 's'] ++ (['('] ++ (['\'', 'x', '\''] ++ ([')'] ++ []))) := by
      decide
    have htoList' : s'.toList = ' ' :: (['a', 'b', 's'] ++ '\n' :: (['('] ++
        (['\'', 'x', '\''] ++ ' ' :: ([')'] ++ ['\t'])))) := by
      decide
    rw [htoList, htoList']
    exact .insert hspace <| .lexeme habs <| .insert hbreak <| .lexeme hopen <| .lexeme hstring <|
      .insert hspace <| .lexeme hclose <| .insert htab .nil
  have hexpression : ∃ ts, tokenize .expression s = .ok ts := ⟨_, by cbv⟩
  have hbatch : ∃ ts, tokenize .batch s = .ok ts := ⟨_, by cbv⟩
  obtain ⟨-, heval, hrun⟩ := outcome_of_spaced hc hs
  obtain ⟨ts, hts⟩ := hexpression
  obtain ⟨us, hus⟩ := hbatch
  exact ⟨⟨hc, hs, ⟨ts, hts⟩, us, hus⟩, (heval ts hts).2, (hrun us hus).2.2, by cbv, by cbv⟩

end Context

end Outcome

end MapExpr
