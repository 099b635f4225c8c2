import MapExpr.Token.Scan

/-!
# The patterns of the tokens

`Spells w t` says that the characters `w` are a way to write the token `t`: digits, perhaps with a
fraction; a quote, anything else and a quote; a word, which is a keyword or an identifier; or a
symbol. `Longest cs w t` says that `w` is the longest such run that the text `cs` begins with.

A run tells by its first character to which kind of pattern it belongs, and a run of one kind
belongs to one token only (`Spells.unique`). So the longest run and its token are determined by the
text.
-/

namespace MapExpr

/-- The characters that may stand between tokens. -/
def blanks : List Char := [' ', '\t', '\r', '\x0c', '\n']

/-- One or more digits. -/
def IsDigits (cs : List Char) : Prop :=
  cs ≠ [] ∧ ∀ c ∈ cs, c.isDigit = true

/-- A letter or an underscore, and then letters, digits and underscores. -/
def IsWord (cs : List Char) : Prop :=
  ∃ c ds, cs = c :: ds ∧ (c.isAlpha = true ∨ c = '_') ∧
    ∀ d ∈ ds, d.isAlpha = true ∨ d.isDigit = true ∨ d = '_'

/-- The characters are a way to write the token. -/
inductive Spells : List Char → Token → Prop
  | whole {ds : List Char} (h : IsDigits ds) :
      Spells ds (.number (Decimal.ofDigits ds []).toFloat)
  | fraction {ds fs : List Char} (h : IsDigits ds) (hf : IsDigits fs) :
      Spells (ds ++ '.' :: fs) (.number (Decimal.ofDigits ds fs).toFloat)
  | string {body : List Char} (h : '\'' ∉ body) :
      Spells ('\'' :: (body ++ ['\''])) (.string (String.ofList body))
  | keyword {w : List Char} {k : Keyword} (h : IsWord w)
      (hk : w.map Char.toLower = k.spelling.toList) : Spells w (.keyword k)
  | identifier {w : List Char} (h : IsWord w)
      (hk : ∀ k : Keyword, w.map Char.toLower ≠ k.spelling.toList) :
      Spells w (.identifier (String.ofList w))
  | symbol {s : Symbol} (h : s ≠ .lineBreak) : Spells s.spelling.toList (.symbol s)

/-- The text begins with `w`, which spells `t`, and with no longer run that spells a token. -/
structure Longest (cs w : List Char) (t : Token) : Prop where
  spells : Spells w t
  isPrefix : w <+: cs
  length_le : ∀ w' t', Spells w' t' → w' <+: cs → w'.length ≤ w.length

/-! ## First characters -/

/-- The kinds of first characters. -/
inductive FirstChar (c : Char) : Prop
  | digit (h : c.isDigit = true)
  | letter (h : c.isAlpha = true ∨ c = '_')
  | quote (h : c = '\'')
  | symbol (hd : c.isDigit = false) (ha : c.isAlpha = false) (hu : c ≠ '_') (hq : c ≠ '\'')

/-- Every character is of one of these kinds. -/
theorem FirstChar.of (c : Char) : FirstChar c := by
  by_cases hd : c.isDigit = true
  · exact .digit hd
  · by_cases ha : c.isAlpha = true ∨ c = '_'
    · exact .letter ha
    · by_cases hq : c = '\''
      · exact .quote hq
      · obtain ⟨ha, hu⟩ := not_or.1 ha
        exact .symbol (Bool.eq_false_iff.2 hd) (Bool.eq_false_iff.2 ha) hu hq

/-- A digit begins no word. -/
theorem not_letter_of_isDigit {c : Char} (h : c.isDigit = true) :
    ¬ (c.isAlpha = true ∨ c = '_') := by
  have hd : (decide ('0'.val ≤ c.val) && decide (c.val ≤ '9'.val)) = true := h
  rw [Bool.and_eq_true, decide_eq_true_eq, decide_eq_true_eq] at hd
  rintro (ha | rfl)
  · have ha' : (decide ('A'.val ≤ c.val ∧ c.val ≤ 'Z'.val) ||
        decide ('a'.val ≤ c.val) && decide (c.val ≤ 'z'.val)) = true := ha
    rw [Bool.or_eq_true, Bool.and_eq_true, decide_eq_true_eq, decide_eq_true_eq,
      decide_eq_true_eq] at ha'
    have h9A : '9'.val < 'A'.val := by decide
    have h9a : '9'.val < 'a'.val := by decide
    rcases ha' with ⟨hA, -⟩ | ⟨ha, -⟩
    · exact absurd (UInt32.le_trans hA hd.2) (UInt32.not_le.2 h9A)
    · exact absurd (UInt32.le_trans ha hd.2) (UInt32.not_le.2 h9a)
  · cases h

/-- A digit begins no string. -/
theorem ne_quote_of_isDigit {c : Char} (h : c.isDigit = true) : c ≠ '\'' := by
  rintro rfl
  cases h

/-- A letter begins no string. -/
theorem ne_quote_of_letter {c : Char} (h : c.isAlpha = true ∨ c = '_') : c ≠ '\'' := by
  rintro rfl
  exact absurd h (by decide)

/-- Numerals, words and strings do not begin with a blank. -/
theorem not_mem_blanks {c : Char} (h : c.isDigit = true ∨ (c.isAlpha = true ∨ c = '_') ∨ c = '\'') :
    c ∉ blanks := by
  intro hb
  simp only [blanks, List.mem_cons, List.not_mem_nil, or_false] at hb
  rcases hb with rfl | rfl | rfl | rfl | rfl <;> exact absurd h (by decide)

/-- A symbol begins with a character of its own kind. -/
theorem Symbol.exists_spelling {s : Symbol} (h : s ≠ .lineBreak) :
    ∃ c w, s.spelling.toList = c :: w ∧ c.isDigit = false ∧ c.isAlpha = false ∧ c ≠ '_' ∧
      c ≠ '\'' ∧ c ∉ blanks := by
  cases s <;> first | exact absurd rfl h | exact ⟨_, _, rfl, by decide⟩

/-! ## Runs by their first character -/

namespace Spells

variable {c : Char} {w v : List Char} {t u : Token}

/-- What a run that begins with `c` can be. -/
theorem cases_of_cons (h : Spells (c :: w) t) :
    (c.isDigit = true ∧ ((IsDigits (c :: w) ∧ t = .number (Decimal.ofDigits (c :: w) []).toFloat) ∨
      ∃ ds fs, IsDigits ds ∧ IsDigits fs ∧ c :: w = ds ++ '.' :: fs ∧
        t = .number (Decimal.ofDigits ds fs).toFloat)) ∨
    ((c.isAlpha = true ∨ c = '_') ∧ IsWord (c :: w) ∧
      ((∃ k : Keyword, (c :: w).map Char.toLower = k.spelling.toList ∧ t = .keyword k) ∨
        (∀ k : Keyword, (c :: w).map Char.toLower ≠ k.spelling.toList) ∧
          t = .identifier (String.ofList (c :: w)))) ∨
    (c = '\'' ∧ ∃ body, '\'' ∉ body ∧ w = body ++ ['\''] ∧ t = .string (String.ofList body)) ∨
    (c.isDigit = false ∧ c.isAlpha = false ∧ c ≠ '_' ∧ c ≠ '\'' ∧ c ∉ blanks ∧
      ∃ s : Symbol, s ≠ .lineBreak ∧ s.spelling.toList = c :: w ∧ t = .symbol s) := by
  generalize hv : c :: w = v at h
  cases h with
  | whole h =>
    subst hv
    exact .inl ⟨h.2 c List.mem_cons_self, .inl ⟨h, rfl⟩⟩
  | @fraction ds fs h hf =>
    obtain ⟨d, ds, rfl⟩ := List.exists_cons_of_ne_nil h.1
    obtain ⟨rfl, rfl⟩ := List.cons.inj hv
    exact .inl ⟨h.2 c List.mem_cons_self, .inr ⟨c :: ds, fs, h, hf, rfl, rfl⟩⟩
  | string h =>
    obtain ⟨rfl, rfl⟩ := List.cons.inj hv
    exact .inr (.inr (.inl ⟨rfl, _, h, rfl, rfl⟩))
  | keyword h hk =>
    subst hv
    obtain ⟨d, ds, hd, hc, -⟩ := id h
    obtain ⟨rfl, -⟩ := List.cons.inj hd
    exact .inr (.inl ⟨hc, h, .inl ⟨_, hk, rfl⟩⟩)
  | identifier h hk =>
    subst hv
    obtain ⟨d, ds, hd, hc, -⟩ := id h
    obtain ⟨rfl, -⟩ := List.cons.inj hd
    exact .inr (.inl ⟨hc, h, .inr ⟨hk, rfl⟩⟩)
  | @symbol s h =>
    obtain ⟨d, ds, hd, h₁, h₂, h₃, h₄, h₅⟩ := s.exists_spelling h
    obtain ⟨rfl, rfl⟩ := List.cons.inj (hv.trans hd)
    exact .inr (.inr (.inr ⟨h₁, h₂, h₃, h₄, h₅, s, h, rfl, rfl⟩))

/-- Every token has some characters. -/
theorem ne_nil (h : Spells w t) : w ≠ [] := by
  cases h with
  | whole h => exact h.1
  | fraction => exact List.append_ne_nil_of_right_ne_nil _ (List.cons_ne_nil _ _)
  | string => exact List.cons_ne_nil _ _
  | keyword h | identifier h =>
    obtain ⟨c, ds, rfl, -⟩ := h
    exact List.cons_ne_nil _ _
  | symbol h =>
    obtain ⟨c, ds, hc, -⟩ := Symbol.exists_spelling h
    rw [hc]
    exact List.cons_ne_nil _ _

/-- What begins with a digit is a numeral. -/
theorem of_isDigit (h : Spells (c :: w) t) (hc : c.isDigit = true) :
    (IsDigits (c :: w) ∧ t = .number (Decimal.ofDigits (c :: w) []).toFloat) ∨
      ∃ ds fs, IsDigits ds ∧ IsDigits fs ∧ c :: w = ds ++ '.' :: fs ∧
        t = .number (Decimal.ofDigits ds fs).toFloat := by
  rcases h.cases_of_cons with ⟨-, h⟩ | ⟨hl, -⟩ | ⟨hq, -⟩ | ⟨hd, -⟩
  · exact h
  · exact absurd hl (not_letter_of_isDigit hc)
  · exact absurd hq (ne_quote_of_isDigit hc)
  · rw [hc] at hd
    cases hd

/-- What begins with a letter or an underscore is a word. -/
theorem of_letter (h : Spells (c :: w) t) (hc : c.isAlpha = true ∨ c = '_') :
    IsWord (c :: w) ∧
      ((∃ k : Keyword, (c :: w).map Char.toLower = k.spelling.toList ∧ t = .keyword k) ∨
        (∀ k : Keyword, (c :: w).map Char.toLower ≠ k.spelling.toList) ∧
          t = .identifier (String.ofList (c :: w))) := by
  rcases h.cases_of_cons with ⟨hd, -⟩ | ⟨-, h⟩ | ⟨hq, -⟩ | ⟨-, ha, hu, -⟩
  · exact absurd hc (not_letter_of_isDigit hd)
  · exact h
  · exact absurd hq (ne_quote_of_letter hc)
  · rcases hc with hc | hc
    · rw [hc] at ha
      cases ha
    · exact absurd hc hu

/-- What begins with a quote is a string. -/
theorem of_quote (h : Spells ('\'' :: w) t) :
    ∃ body, '\'' ∉ body ∧ w = body ++ ['\''] ∧ t = .string (String.ofList body) := by
  rcases h.cases_of_cons with ⟨hd, -⟩ | ⟨hl, -⟩ | ⟨-, h⟩ | ⟨-, -, -, hq, -⟩
  · exact absurd rfl (ne_quote_of_isDigit hd)
  · exact absurd rfl (ne_quote_of_letter hl)
  · exact h
  · exact absurd rfl hq

/-- What begins with another character is a symbol. -/
theorem of_symbol (h : Spells (c :: w) t) (hd : c.isDigit = false) (ha : c.isAlpha = false)
    (hu : c ≠ '_') (hq : c ≠ '\'') :
    ∃ s : Symbol, s ≠ .lineBreak ∧ s.spelling.toList = c :: w ∧ t = .symbol s := by
  rcases h.cases_of_cons with ⟨hd', -⟩ | ⟨hl, -⟩ | ⟨hq', -⟩ | ⟨-, -, -, -, -, h⟩
  · rw [hd] at hd'
    cases hd'
  · rcases hl with hl | hl
    · rw [ha] at hl
      cases hl
    · exact absurd hl hu
  · exact absurd hq' hq
  · exact h

/-- No token begins with a character that may stand between tokens. -/
theorem not_mem_blanks (h : Spells (c :: w) t) : c ∉ blanks := by
  rcases h.cases_of_cons with ⟨hd, -⟩ | ⟨hl, -⟩ | ⟨hq, -⟩ | ⟨-, -, -, -, hb, -⟩
  · exact MapExpr.not_mem_blanks (.inl hd)
  · exact MapExpr.not_mem_blanks (.inr (.inl hl))
  · exact MapExpr.not_mem_blanks (.inr (.inr hq))
  · exact hb

end Spells

/-! ## One token for one run -/

/-- Different symbols are spelled differently. -/
theorem Symbol.spelling_injective {s s' : Symbol} (h : s.spelling.toList = s'.spelling.toList) :
    s = s' := by
  cases s <;> cases s' <;> first | rfl | exact absurd h (by decide)

/-- The list of keywords is complete. -/
theorem Keyword.mem_all (k : Keyword) : k ∈ Keyword.all := by
  cases k <;> decide

/-- Different keywords are spelled differently. -/
theorem Keyword.spelling_injective {k k' : Keyword} (h : k.spelling.toList = k'.spelling.toList) :
    k = k' := by
  cases k <;> cases k' <;> first | rfl | exact absurd h (by decide)

/-- Digits end where the point of a fraction stands. -/
theorem IsDigits.append_inj {ds ds' fs fs' : List Char} (h : IsDigits ds) (h' : IsDigits ds')
    (heq : ds ++ '.' :: fs = ds' ++ '.' :: fs') : ds = ds' ∧ fs = fs' := by
  have hds : ds = ds' := by
    have ht : (ds ++ '.' :: fs).takeWhile Char.isDigit
        = (ds' ++ '.' :: fs').takeWhile Char.isDigit := congrArg _ heq
    rw [List.takeWhile_append_of_pos h.2, List.takeWhile_append_of_pos h'.2] at ht
    exact List.append_cancel_right ht
  subst hds
  exact ⟨rfl, (List.cons.inj (List.append_cancel_left heq)).2⟩

/-- Only digits do not hold a point. -/
theorem IsDigits.ne_fraction {ds ds' fs : List Char} (h : IsDigits ds) : ds ≠ ds' ++ '.' :: fs := by
  rintro rfl
  have := h.2 '.' (List.mem_append_right _ List.mem_cons_self)
  cases this

/-- Characters spell one token only. -/
theorem Spells.unique {w : List Char} {t u : Token} (h : Spells w t) (hu : Spells w u) : t = u := by
  obtain ⟨c, w, rfl⟩ := List.exists_cons_of_ne_nil h.ne_nil
  cases FirstChar.of c with
  | digit hc =>
    rcases h.of_isDigit hc with ⟨hd, rfl⟩ | ⟨ds, fs, hd, hf, hw, rfl⟩
    · rcases hu.of_isDigit hc with ⟨-, rfl⟩ | ⟨ds', fs', -, -, hw', -⟩
      · rfl
      · exact absurd hw' hd.ne_fraction
    · rcases hu.of_isDigit hc with ⟨hd', rfl⟩ | ⟨ds', fs', hd', -, hw', rfl⟩
      · exact absurd hw hd'.ne_fraction
      · obtain ⟨rfl, rfl⟩ := hd.append_inj hd' (hw.symm.trans hw')
        rfl
  | letter hc =>
    obtain ⟨-, ⟨k, hk, rfl⟩ | ⟨hk, rfl⟩⟩ := h.of_letter hc
    · obtain ⟨-, ⟨k', hk', rfl⟩ | ⟨hk', rfl⟩⟩ := hu.of_letter hc
      · rw [Keyword.spelling_injective (hk.symm.trans hk')]
      · exact absurd hk (hk' k)
    · obtain ⟨-, ⟨k', hk', rfl⟩ | ⟨hk', rfl⟩⟩ := hu.of_letter hc
      · exact absurd hk' (hk k')
      · rfl
  | quote hc =>
    subst hc
    obtain ⟨body, -, rfl, rfl⟩ := h.of_quote
    obtain ⟨body', -, hb, rfl⟩ := hu.of_quote
    rw [List.append_cancel_right hb]
  | symbol hd ha hu' hq =>
    obtain ⟨s, -, hs, rfl⟩ := h.of_symbol hd ha hu' hq
    obtain ⟨s', -, hs', rfl⟩ := hu.of_symbol hd ha hu' hq
    rw [Symbol.spelling_injective (hs.trans hs'.symm)]

/-- A text has at most one longest run, and that spells one token. -/
theorem Longest.unique {cs w w' : List Char} {t t' : Token} (h : Longest cs w t)
    (h' : Longest cs w' t') : w = w' ∧ t = t' := by
  have hlen : w.length = w'.length :=
    Nat.le_antisymm (h'.length_le w t h.spells h.isPrefix) (h.length_le w' t' h'.spells h'.isPrefix)
  obtain rfl : w = w' :=
    (List.prefix_of_prefix_length_le h.isPrefix h'.isPrefix (Nat.le_of_eq hlen)).eq_of_length hlen
  exact ⟨rfl, h.spells.unique h'.spells⟩

end MapExpr
