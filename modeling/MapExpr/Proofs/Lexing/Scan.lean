import MapExpr.Proofs.Lexing.Longest

/-!
# A source is cut into its longest tokens

`Scans form p cs ts q rest` says that the text `cs` at the place `p` begins with blank runs and
lexemes, each of them the longest that the text begins with there; `ts` are their tokens, and what
is left is the text `rest` at the place `q`. A text that is scanned to its end has these tokens, and
a text in which the rest `Offends` fails at that place.

Both follow from one equation: scanning the whole text is scanning the rest and putting `ts` in
front (`Scans.scan_eq`).
-/

namespace MapExpr

/-- The text begins with blank runs and longest lexemes with the tokens `ts`, and goes on with
`rest` at the place `q`. An expression holds no lone `=`. -/
inductive Scans (form : Form) :
    Position → List Char → List (Located Token) → Position → List Char → Prop
  | blanks {p : Position} {w rest : List Char} (hw : ∀ c ∈ w, c ∈ blanks) :
      Scans form p (w ++ rest) [] (p.after w) rest
  | lexeme {p q : Position} {w l rest rest' : List Char} {t : Token} {ts : List (Located Token)}
      (hw : ∀ c ∈ w, c ∈ MapExpr.blanks) (hl : Longest (l ++ rest) l t)
      (hf : form = .batch ∨ t ≠ .symbol .assign)
      (h : Scans form (p.after (w ++ l)) rest ts q rest') :
      Scans form p (w ++ (l ++ rest)) (⟨t, p.after w⟩ :: ts) q rest'

/-- No token begins at the character `c` with `cs` behind it, or a lone `=` in an expression. -/
structure Offends (form : Form) (c : Char) (cs : List Char) : Prop where
  notBlank : c ∉ blanks
  noToken : (∀ w t, Spells w t → ¬ w <+: c :: cs) ∨
    form = .expression ∧ Longest (c :: cs) ['='] (.symbol .assign)

/-- The fault is the one for the character at which no token begins. -/
structure Blames (fault : LexFault) (c : Char) : Prop where
  quote : fault = .unterminatedString ↔ c = '\''
  operator : ∀ d, fault = .incompleteOperator d ↔ c = d ∧ (c = '=' ∨ c = '&' ∨ c = '|')
  other : ∀ d, fault = .unexpectedCharacter d ↔
    c = d ∧ c ≠ '\'' ∧ c ≠ '=' ∧ c ≠ '&' ∧ c ≠ '|'

/-- Every character that begins no token has its fault. -/
theorem blames_ofChar (c : Char) : Blames (.ofChar c) c := by
  unfold LexFault.ofChar
  by_cases hq : c = '\''
  · rw [if_pos hq]
    subst hq
    exact ⟨by simp, by simp, by simp⟩
  · rw [if_neg hq]
    by_cases ho : c = '=' ∨ c = '&' ∨ c = '|'
    · rw [if_pos ho]
      refine ⟨by simp [hq], by simp [ho], fun d => ?_⟩
      rcases ho with rfl | rfl | rfl <;> simp
    · rw [if_neg ho]
      simp only [not_or] at ho
      exact ⟨by simp [hq], by simp [ho], by simp [hq, ho]⟩

/-- Every character is blamed for one fault. -/
theorem Blames.eq {fault : LexFault} {c : Char} (h : Blames fault c) : fault = .ofChar c := by
  have hc := blames_ofChar c
  cases fault with
  | unterminatedString => exact (hc.quote.2 (h.quote.1 rfl)).symm
  | incompleteOperator d => exact ((hc.operator d).2 ((h.operator d).1 rfl)).symm
  | unexpectedCharacter d => exact ((hc.other d).2 ((h.other d).1 rfl)).symm

variable {form : Form} {p q : Position} {c : Char} {cs w l rest : List Char} {t : Token}
  {ts : List (Located Token)}

/-! ## Single steps -/

/-- What the scanner passes over are the blanks. -/
theorem mem_blanks_iff : c ∈ blanks ↔ Lexeme.isBlank c = true := by
  simp [blanks, Lexeme.isBlank, or_assoc]

/-- The scanner takes the longest token, unless this is a lone assignment sign in an expression. -/
theorem firstIn?_eq_some_iff : Lexeme.firstIn? form cs = some ⟨t, w⟩ ↔
    Longest cs w t ∧ (form = .batch ∨ t ≠ .symbol .assign) := by
  rw [Lexeme.firstIn?, Option.filter_eq_some_iff, Lexeme.first?_eq_some_iff]
  simp

/-- A lone `=` is written in one way. -/
theorem Spells.assign (h : Spells w (.symbol .assign)) : w = ['='] := by
  cases h with
  | symbol h => rfl

/-- The scanner stops where no token begins, or at a lone assignment sign in an expression. -/
theorem firstIn?_eq_none_iff : Lexeme.firstIn? form cs = none ↔
    (∀ w t, Spells w t → ¬ w <+: cs) ∨
      form = .expression ∧ Longest cs ['='] (.symbol .assign) := by
  constructor
  · intro h
    cases hf : Lexeme.first? cs with
    | none => exact .inl (Lexeme.first?_eq_none_iff.1 hf)
    | some l =>
      have hl := Lexeme.longest_first hf
      -- A lexeme is found but not allowed: it is the assignment sign in an expression.
      have hno : ¬ (form = .batch ∨ l.token ≠ .symbol .assign) := by
        intro hor
        rw [firstIn?_eq_some_iff.2 ⟨hl, hor⟩] at h
        cases h
      simp only [not_or, ne_eq, Decidable.not_not] at hno
      rw [hno.2] at hl
      rw [hl.spells.assign] at hl
      cases form with
      | expression => exact .inr ⟨rfl, hl⟩
      | batch => exact absurd rfl hno.1
  · intro h
    cases hf : Lexeme.firstIn? form cs with
    | none => rfl
    | some l =>
      obtain ⟨hl, hor⟩ := firstIn?_eq_some_iff.1 hf
      rcases h with h | ⟨rfl, h⟩
      · exact absurd hl.isPrefix (h _ _ hl.spells)
      · obtain ⟨-, ht⟩ := hl.unique h
        rcases hor with hor | hor
        · cases hor
        · exact absurd ht hor

/-- A blank is passed over. -/
theorem scan_blank (hc : c ∈ blanks) : scan form p (c :: cs) = scan form (p.next c) cs := by
  rw [scan, if_pos (mem_blanks_iff.1 hc)]

/-- A run of blanks is passed over. -/
theorem scan_blanks (hw : ∀ c ∈ w, c ∈ blanks) :
    scan form p (w ++ rest) = scan form (p.after w) rest := by
  induction w generalizing p with
  | nil => rfl
  | cons c w ih =>
    rw [List.cons_append, scan_blank (hw c List.mem_cons_self),
      ih fun d hd => hw d (List.mem_cons_of_mem c hd), Position.after_cons]

/-- The longest lexeme at the beginning is the first token. -/
theorem scan_longest (hl : Longest (l ++ rest) l t) (hf : form = .batch ∨ t ≠ .symbol .assign) :
    scan form p (l ++ rest) = (scan form (p.after l) rest).map (⟨t, p⟩ :: ·) := by
  obtain ⟨c, v, rfl⟩ := List.exists_cons_of_ne_nil hl.spells.ne_nil
  have hb : ¬ Lexeme.isBlank c = true := fun h => hl.spells.not_mem_blanks (mem_blanks_iff.2 h)
  have hfirst : Lexeme.firstIn? form (c :: (v ++ rest)) = some ⟨t, c :: v⟩ :=
    firstIn?_eq_some_iff.2 ⟨hl, hf⟩
  have hdrop : (v ++ rest).drop ((c :: v).length - 1) = rest := List.drop_left
  rw [List.cons_append, scan, if_neg hb, hfirst]
  dsimp only
  rw [hdrop]
  cases scan form (p.after (c :: v)) rest <;> rfl

/-- The scan ends at a character that offends, with its fault. -/
theorem scan_offends (h : Offends form c cs) :
    scan form p (c :: cs) = .error ⟨.ofChar c, p⟩ := by
  have hb : ¬ Lexeme.isBlank c = true := fun hb => h.notBlank (mem_blanks_iff.2 hb)
  rw [scan, if_neg hb, firstIn?_eq_none_iff.2 h.noToken]

/-! ## Whole texts -/

namespace Scans

/-- Scanning a text is scanning what is left and putting the first tokens in front. -/
theorem scan_eq (h : Scans form p cs ts q rest) :
    scan form p cs = (scan form q rest).map (ts ++ ·) := by
  induction h with
  | @blanks p w rest hw =>
    rw [scan_blanks hw]
    cases scan form (p.after w) rest <;> rfl
  | @lexeme p q w l rest rest' t ts hw hl hf h ih =>
    rw [scan_blanks hw, scan_longest hl hf, ← Position.after_append, ih]
    cases scan form q rest' <;> rfl

/-- A text can be left as it is. -/
theorem nil : Scans form p cs [] p cs := .blanks (w := []) nofun

/-- One more blank in front changes nothing. -/
theorem cons_blank (hc : c ∈ MapExpr.blanks) (h : Scans form (p.next c) cs ts q rest) :
    Scans form p (c :: cs) ts q rest := by
  cases h with
  | blanks hw => exact .blanks (w := c :: _) (List.forall_mem_cons.2 ⟨hc, hw⟩)
  | lexeme hw hl hf h => exact .lexeme (w := c :: _) (List.forall_mem_cons.2 ⟨hc, hw⟩) hl hf h

/-- A lexeme at the beginning, with no blanks in front. -/
theorem cons (hl : Longest (w ++ cs) w t) (hf : form = .batch ∨ t ≠ .symbol .assign)
    (h : Scans form (p.after w) cs ts q rest) : Scans form p (w ++ cs) (⟨t, p⟩ :: ts) q rest :=
  .lexeme (w := []) nofun hl hf h

/-- A longest lexeme may stand in front of the others. -/
theorem cons_lexeme (hl : Longest cs l t) (hf : form = .batch ∨ t ≠ .symbol .assign)
    (h : Scans form (p.after l) (cs.drop l.length) ts q rest) :
    Scans form p cs (⟨t, p⟩ :: ts) q rest := by
  obtain ⟨r, rfl⟩ := hl.isPrefix
  rw [List.drop_left] at h
  exact .cons hl hf h

end Scans

/-- A text is scanned to its end or to a place at which no token begins. -/
theorem scans_or_offends (form : Form) (p : Position) (cs : List Char) :
    (∃ ts q, Scans form p cs ts q []) ∨
      ∃ ts q c rest, Scans form p cs ts q (c :: rest) ∧ Offends form c rest := by
  fun_induction scan form p cs with
  | case1 p => exact .inl ⟨[], p, .nil⟩
  | case2 p c cs hb ih =>
    have hc := mem_blanks_iff.2 hb
    rcases ih with ⟨ts, q, h⟩ | ⟨ts, q, d, rest, h, ho⟩
    · exact .inl ⟨ts, q, h.cons_blank hc⟩
    · exact .inr ⟨ts, q, d, rest, h.cons_blank hc, ho⟩
  | case3 p c cs hb hf =>
    exact .inr ⟨[], p, c, cs, .nil, fun hc => hb (mem_blanks_iff.1 hc), firstIn?_eq_none_iff.1 hf⟩
  | case4 p c cs hb l hf ts hts ih | case5 p c cs hb l hf e he ih =>
    obtain ⟨hl, hform⟩ := firstIn?_eq_some_iff.1 hf
    obtain ⟨d, v, hv⟩ := List.exists_cons_of_ne_nil hl.spells.ne_nil
    -- The scanner has read the first character already and drops the rest of the lexeme.
    have hdrop : cs.drop (l.chars.length - 1) = (c :: cs).drop l.chars.length := by
      rw [hv]
      rfl
    rw [hdrop] at ih
    rcases ih with ⟨ts, q, h⟩ | ⟨ts, q, d, rest, h, ho⟩
    · exact .inl ⟨_, q, h.cons_lexeme hl hform⟩
    · exact .inr ⟨_, q, d, rest, h.cons_lexeme hl hform, ho⟩

/-- A text that is used up is scanned to its tokens. -/
theorem scan_of_scans_nil (h : Scans form p cs ts q []) : scan form p cs = .ok ts := by
  rw [h.scan_eq, scan]
  exact congrArg Except.ok (List.append_nil ts)

/-- A text that offends behind some tokens has its fault there. -/
theorem scan_of_offends (h : Scans form p cs ts q (c :: rest)) (ho : Offends form c rest) :
    scan form p cs = .error ⟨.ofChar c, q⟩ := by
  rw [h.scan_eq, scan_offends ho]
  rfl

/-- The tokens of a scan are the longest lexemes of the whole text. -/
theorem exists_scans_of_scan (h : scan form p cs = .ok ts) : ∃ q, Scans form p cs ts q [] := by
  rcases scans_or_offends form p cs with ⟨us, q, hs⟩ | ⟨us, q, c, r, hs, ho⟩
  · obtain rfl := Except.ok.inj ((scan_of_scans_nil hs).symm.trans h)
    exact ⟨q, hs⟩
  · cases (scan_of_offends hs ho).symm.trans h

/-- The tokens of a source are those of the longest lexemes between blank runs, if the source is cut
into such lexemes; else the source fails at the first place at which no token begins. -/
theorem tokenize_iff_longest (form : Form) (source : String) :
    (∀ ts, tokenize form source = .ok ts ↔ ∃ q, Scans form .start source.toList ts q []) ∧
    (∀ fault q, tokenize form source = .error ⟨fault, q⟩ ↔
      ∃ ts c rest, Scans form .start source.toList ts q (c :: rest) ∧ Offends form c rest ∧
        Blames fault c) := by
  refine ⟨fun ts => ⟨?_, ?_⟩, fun fault q => ⟨?_, ?_⟩⟩
  · intro h
    rcases scans_or_offends form .start source.toList with ⟨ts', q, hs⟩ | ⟨ts', q, c, r, hs, ho⟩
    · obtain rfl := Except.ok.inj ((scan_of_scans_nil hs).symm.trans h)
      exact ⟨q, hs⟩
    · cases (scan_of_offends hs ho).symm.trans h
  · rintro ⟨q, hs⟩
    exact scan_of_scans_nil hs
  · intro h
    rcases scans_or_offends form .start source.toList with ⟨ts', q', hs⟩ | ⟨ts', q', c, r, hs, ho⟩
    · cases (scan_of_scans_nil hs).symm.trans h
    · cases (scan_of_offends hs ho).symm.trans h
      exact ⟨ts', c, r, hs, ho, blames_ofChar c⟩
  · rintro ⟨ts, c, rest, hs, ho, hb⟩
    rw [hb.eq]
    exact scan_of_offends hs ho

end MapExpr
