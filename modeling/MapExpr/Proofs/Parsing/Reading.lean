import MapExpr.Eval

/-!
# Reading a source in two stages

An expression and a batch are read in the same way: the source is cut into tokens, and the tokens
are parsed. Either stage may fail, and the fault of the reading is that of the stage.
-/

namespace MapExpr

variable {α : Type}

/-- What the parser makes of the tokens of a source. -/
def readWith (form : Form) (parse : List (Located Token) → Except (Located ParseFault) α)
    (source : String) : Except (Located Fault) α := do
  let ts ← (tokenize form source).mapError (Located.map Fault.lex)
  (parse ts).mapError (Located.map Fault.parse)

/-- An expression is read with the parser of expressions. -/
theorem readExpression_eq : readExpression = readWith .expression parseExpression := rfl

/-- A batch is read with the parser of batches. -/
theorem readBatch_eq : readBatch = readWith .batch parseBatch := rfl

variable {form : Form} {parse : List (Located Token) → Except (Located ParseFault) α}
  {source : String} {ts : List (Located Token)} {a : α}

/-- A source with tokens is read as the parser reads these. -/
theorem readWith_of_tokenize (h : tokenize form source = .ok ts) :
    readWith form parse source = (parse ts).mapError (Located.map Fault.parse) := by
  rw [readWith, h]
  rfl

/-- A source is read if it has tokens and these are parsed. -/
theorem readWith_eq_ok_iff : readWith form parse source = .ok a ↔
    ∃ ts, tokenize form source = .ok ts ∧ parse ts = .ok a := by
  constructor
  · intro h
    cases hts : tokenize form source with
    | error fault =>
      rw [readWith, hts] at h
      cases h
    | ok ts =>
      rw [readWith_of_tokenize hts] at h
      cases hp : parse ts with
      | error fault =>
        rw [hp] at h
        cases h
      | ok b =>
        rw [hp] at h
        cases h
        exact ⟨ts, rfl, hp⟩
  · rintro ⟨ts, hts, hp⟩
    rw [readWith_of_tokenize hts, hp]
    rfl

/-- A reading fails in one of its stages. -/
theorem readWith_eq_error_iff {e : Located Fault} : readWith form parse source = .error e ↔
    (∃ fault, tokenize form source = .error fault ∧ e = fault.map Fault.lex) ∨
      ∃ ts fault, tokenize form source = .ok ts ∧ parse ts = .error fault ∧
        e = fault.map Fault.parse := by
  constructor
  · intro h
    cases hts : tokenize form source with
    | error fault =>
      rw [readWith, hts] at h
      cases h
      exact .inl ⟨fault, rfl, rfl⟩
    | ok ts =>
      rw [readWith_of_tokenize hts] at h
      cases hp : parse ts with
      | error fault =>
        rw [hp] at h
        cases h
        exact .inr ⟨ts, fault, rfl, hp, rfl⟩
      | ok b =>
        rw [hp] at h
        cases h
  · rintro (⟨fault, hts, rfl⟩ | ⟨ts, fault, hts, hp, rfl⟩)
    · rw [readWith, hts]
      rfl
    · rw [readWith_of_tokenize hts, hp]
      rfl

/-- A reading fails in the parser with the fault that this reports. -/
theorem readWith_eq_parse_error_iff {fault : ParseFault} {p : Position} :
    readWith form parse source = .error ⟨.parse fault, p⟩ ↔
      ∃ ts, tokenize form source = .ok ts ∧ parse ts = .error ⟨fault, p⟩ := by
  rw [readWith_eq_error_iff]
  constructor
  · rintro (⟨_, -, h⟩ | ⟨ts, e, hts, hp, h⟩)
    · cases h
    · cases h
      exact ⟨ts, hts, hp⟩
  · rintro ⟨ts, hts, hp⟩
    exact .inr ⟨ts, _, hts, hp, rfl⟩

/-- A source holds the expression that its tokens are parsed to. -/
theorem readExpression_eq_ok_iff {e : Expr} : readExpression source = .ok e ↔
    ∃ ts, tokenize .expression source = .ok ts ∧ parseExpression ts = .ok e := by
  rw [readExpression_eq]
  exact readWith_eq_ok_iff

/-- A source holds the entries that its tokens are parsed to. -/
theorem readBatch_eq_ok_iff {as : List Assignment} : readBatch source = .ok as ↔
    ∃ ts, tokenize .batch source = .ok ts ∧ parseBatch ts = .ok as := by
  rw [readBatch_eq]
  exact readWith_eq_ok_iff

/-! ## Evaluating a source -/

namespace Context

variable {H : Host} {c : Context H}

/-- A source that can be read has the value of its expression, or its fault in other words. -/
theorem evaluate_of_readExpression {e : Expr} (h : readExpression source = .ok e) :
    c.evaluate source = (c.eval e).mapError (Located.map Fault.eval) := by
  rw [evaluate, h]
  rfl

/-- A source that is no batch changes nothing. -/
theorem run_of_readBatch_error {fault : Located Fault} (h : readBatch source = .error fault) :
    c.run source = (c, some fault) := by
  rw [run, h]

/-- A source that is a batch changes what its entries change. -/
theorem run_of_readBatch {as : List Assignment} (h : readBatch source = .ok as) :
    c.run source = ((c.assign as).1, (c.assign as).2.map (Located.map Fault.eval)) := by
  rw [run, h]

end Context

end MapExpr
