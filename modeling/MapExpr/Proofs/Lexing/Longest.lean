import MapExpr.Proofs.Lexing.Pattern

/-!
# The first lexeme is the longest one

`Lexeme.first?` decides by the first character what to look for. For each kind of lexeme there is a
lemma that it takes the longest run that matches, and one that it finds a lexeme if there is one.
-/

namespace MapExpr

namespace Lexeme

variable {c : Char} {cs w : List Char} {l : Lexeme} {t : Token}

/-- A run of characters of one class goes no further than all of them at the beginning. -/
theorem length_le_takeWhile {p : Char → Bool} (hw : ∀ d ∈ w, p d = true) (hp : w <+: cs) :
    w.length ≤ (cs.takeWhile p).length := by
  obtain ⟨r, rfl⟩ := hp
  rw [List.takeWhile_append_of_pos hw, List.length_append]
  omega

/-- A run at the beginning of a text has the first character of the text. -/
theorem cons_of_isPrefix {p : List Char} (h : p <+: c :: cs) (hp : p ≠ []) : ∃ v, p = c :: v := by
  obtain ⟨d, v, rfl⟩ := List.exists_cons_of_ne_nil hp
  obtain ⟨r, hr⟩ := h
  exact ⟨v, congrArg (· :: v) (List.cons.inj hr).1⟩

/-! ## Numerals -/

/-- The digits in front of a text that begins with one are a run of digits. -/
theorem isDigits_takeWhile (hc : c.isDigit = true) :
    IsDigits ((c :: cs).takeWhile Char.isDigit) := by
  refine ⟨?_, fun d hd => List.all_eq_true.1 List.all_takeWhile d hd⟩
  rw [List.takeWhile_cons_of_pos hc]
  exact List.cons_ne_nil _ _

/-- A fraction that a text begins with stands behind all its first digits. -/
theorem dropWhile_of_fraction {ds fs r : List Char} (h : IsDigits ds)
    (hcs : cs = ds ++ '.' :: (fs ++ r)) :
    cs.takeWhile Char.isDigit = ds ∧ cs.dropWhile Char.isDigit = '.' :: (fs ++ r) := by
  subst hcs
  rw [List.takeWhile_append_of_pos h.2, List.dropWhile_append_of_pos h.2]
  exact ⟨List.append_nil ds, rfl⟩

/-- Where no fraction follows, the numeral ends behind its first digits. -/
theorem longest_whole (hc : c.isDigit = true)
    (hf : ∀ d ds, (c :: cs).dropWhile Char.isDigit = '.' :: d :: ds → d.isDigit = false) :
    Longest (c :: cs) ((c :: cs).takeWhile Char.isDigit)
      (.number (Decimal.ofDigits ((c :: cs).takeWhile Char.isDigit) []).toFloat) := by
  refine ⟨.whole (isDigits_takeWhile hc), List.takeWhile_prefix _, ?_⟩
  intro w t hw hp
  obtain ⟨v, rfl⟩ := cons_of_isPrefix hp hw.ne_nil
  rcases hw.of_isDigit hc with ⟨hd, -⟩ | ⟨ds, fs, hd, hfs, hv, -⟩
  · exact length_le_takeWhile hd.2 hp
  · obtain ⟨r, hr⟩ := hp
    rw [hv, List.append_assoc] at hr
    obtain ⟨-, hdrop⟩ := dropWhile_of_fraction hd hr.symm
    obtain ⟨d, fs, rfl⟩ := List.exists_cons_of_ne_nil hfs.1
    have hdig := hfs.2 d List.mem_cons_self
    rw [hf d (fs ++ r) hdrop] at hdig
    cases hdig

/-- Where a fraction follows, the numeral ends behind the digits of it. -/
theorem longest_fraction {d : Char} {ds : List Char} (hc : c.isDigit = true)
    (hdrop : (c :: cs).dropWhile Char.isDigit = '.' :: d :: ds) (hd : d.isDigit = true) :
    Longest (c :: cs)
      ((c :: cs).takeWhile Char.isDigit ++ '.' :: (d :: ds).takeWhile Char.isDigit)
      (.number (Decimal.ofDigits ((c :: cs).takeWhile Char.isDigit)
        ((d :: ds).takeWhile Char.isDigit)).toFloat) := by
  have hcs : c :: cs = (c :: cs).takeWhile Char.isDigit ++ '.' :: d :: ds := by
    rw [← hdrop, List.takeWhile_append_dropWhile]
  refine ⟨.fraction (isDigits_takeWhile hc) (isDigits_takeWhile hd), ?_, ?_⟩
  · obtain ⟨r, hr⟩ := List.takeWhile_prefix Char.isDigit (l := d :: ds)
    refine ⟨r, ?_⟩
    rw [List.append_assoc, List.cons_append, hr]
    exact hcs.symm
  · intro w t hw hp
    obtain ⟨v, rfl⟩ := cons_of_isPrefix hp hw.ne_nil
    rw [List.length_append]
    rcases hw.of_isDigit hc with ⟨hd', -⟩ | ⟨ds', fs', hd', hf', hv, -⟩
    · have := length_le_takeWhile hd'.2 hp
      omega
    · obtain ⟨r, hr⟩ := hp
      rw [hv, List.append_assoc] at hr
      obtain ⟨htake, hdrop'⟩ := dropWhile_of_fraction hd' hr.symm
      have hfs : fs' <+: d :: ds := ⟨r, (List.cons.inj (hdrop'.symm.trans hdrop)).2⟩
      have hle : fs'.length ≤ ((d :: ds).takeWhile Char.isDigit).length :=
        length_le_takeWhile hf'.2 hfs
      rw [hv, htake, List.length_append, List.length_cons, List.length_cons]
      omega

/-- The numeral that is taken is the longest one. -/
theorem longest_numeral (hc : c.isDigit = true) :
    Longest (c :: cs) (numeral (c :: cs)).chars (numeral (c :: cs)).token := by
  unfold numeral
  dsimp only
  split
  · next d ds hdrop =>
    split
    · next hd => exact longest_fraction hc hdrop hd
    · next hd =>
      refine longest_whole hc fun d' ds' h => ?_
      rw [hdrop] at h
      cases h
      exact Bool.eq_false_iff.2 hd
  · next hn => exact longest_whole hc fun d ds h => absurd h (hn d ds)

/-! ## Words -/

/-- A word begins with a letter or an underscore. -/
theorem isWordStart_iff : isWordStart c = true ↔ c.isAlpha = true ∨ c = '_' := by
  rw [isWordStart, Bool.or_eq_true, decide_eq_true_eq]

/-- A word goes on with letters, digits and underscores. -/
theorem isWordChar_iff :
    isWordChar c = true ↔ c.isAlpha = true ∨ c.isDigit = true ∨ c = '_' := by
  rw [isWordChar, Char.isAlphanum, Bool.or_eq_true, Bool.or_eq_true, decide_eq_true_eq, or_assoc]

/-- What begins a word may stand anywhere in it. -/
theorem isWordChar_of_isWordStart (h : isWordStart c = true) : isWordChar c = true := by
  rw [isWordStart_iff] at h
  rw [isWordChar_iff]
  exact h.imp_right .inr

/-- A word is made of word characters. -/
theorem isWordChar_of_isWord (h : IsWord w) : ∀ d ∈ w, isWordChar d = true := by
  obtain ⟨c, ds, rfl, hc, hds⟩ := h
  intro d hd
  rw [isWordChar_iff]
  rcases List.mem_cons.1 hd with rfl | hd
  · exact hc.imp_right .inr
  · exact hds d hd

/-- The characters in front of a text that begins like a word are a word. -/
theorem isWord_takeWhile (hc : isWordStart c = true) :
    IsWord ((c :: cs).takeWhile isWordChar) := by
  refine ⟨c, cs.takeWhile isWordChar, ?_, isWordStart_iff.1 hc, fun d hd => ?_⟩
  · rw [List.takeWhile_cons_of_pos (isWordChar_of_isWordStart hc)]
  · exact isWordChar_iff.1 (List.all_eq_true.1 List.all_takeWhile d hd)

/-- The keyword that is found is spelled by the word, but for the case of letters. -/
theorem keyword?_eq_some {k : Keyword} (h : keyword? w = some k) :
    w.map Char.toLower = k.spelling.toList := by
  have := List.find?_some h
  exact (of_decide_eq_true this).symm

/-- If none is found, the word spells no keyword. -/
theorem keyword?_eq_none (h : keyword? w = none) (k : Keyword) :
    w.map Char.toLower ≠ k.spelling.toList := by
  have := List.find?_eq_none.1 h k k.mem_all
  exact fun heq => this (decide_eq_true heq.symm)

/-- The word that is taken is the longest one. -/
theorem longest_word (hc : isWordStart c = true) :
    Longest (c :: cs) (word (c :: cs)).chars (word (c :: cs)).token := by
  have hchars : (word (c :: cs)).chars = (c :: cs).takeWhile isWordChar := by
    unfold word
    dsimp only
    split <;> rfl
  refine ⟨?_, ?_, ?_⟩
  · unfold word
    dsimp only
    split
    · next hk => exact .keyword (isWord_takeWhile hc) (keyword?_eq_some hk)
    · next hk => exact .identifier (isWord_takeWhile hc) (keyword?_eq_none hk)
  · rw [hchars]
    exact List.takeWhile_prefix _
  · intro w t hw hp
    obtain ⟨v, rfl⟩ := cons_of_isPrefix hp hw.ne_nil
    rw [hchars]
    exact length_le_takeWhile (isWordChar_of_isWord (hw.of_letter (isWordStart_iff.1 hc)).1) hp

/-! ## Strings -/

/-- The text before the first quote. -/
theorem takeWhile_of_quote {body r : List Char} (h : '\'' ∉ body) :
    (body ++ '\'' :: r).takeWhile (· ≠ '\'') = body ∧
      (body ++ '\'' :: r).dropWhile (· ≠ '\'') = '\'' :: r := by
  have hb : ∀ d ∈ body, decide (d ≠ '\'') = true := by
    intro d hd
    refine decide_eq_true ?_
    rintro rfl
    exact h hd
  rw [List.takeWhile_append_of_pos hb, List.dropWhile_append_of_pos hb]
  exact ⟨List.append_nil body, rfl⟩

/-- A quoted run in front of a text leaves the text behind its second quote. -/
theorem eq_of_quoted {body : List Char} (h : '\'' :: (body ++ ['\'']) <+: '\'' :: cs) :
    ∃ r, cs = body ++ '\'' :: r := by
  obtain ⟨r, hr⟩ := h
  refine ⟨r, ?_⟩
  rw [← (List.cons.inj hr).2]
  exact List.append_assoc body ['\''] r

/-- The string that is taken is the longest one: it ends at the second quote. -/
theorem longest_quoted (h : quoted? cs = some l) : Longest ('\'' :: cs) l.chars l.token := by
  unfold quoted? at h
  dsimp only at h
  split at h
  · cases h
  · next d ds hdrop =>
    cases h
    have hd : d = '\'' := by
      have := List.head?_dropWhile_not (· ≠ '\'') cs
      rw [hdrop] at this
      simpa using this
    subst hd
    -- The run ends with the first quote, and a longer one would hold a quote inside.
    have hcs : cs = cs.takeWhile (· ≠ '\'') ++ '\'' :: ds := by
      rw [← hdrop, List.takeWhile_append_dropWhile]
    refine ⟨.string ?_, ⟨ds, ?_⟩, ?_⟩
    · intro hm
      have := List.all_eq_true.1 List.all_takeWhile _ hm
      simp at this
    · show '\'' :: (cs.takeWhile (· ≠ '\'') ++ ['\''] ++ ds) = '\'' :: cs
      rw [List.append_assoc, List.singleton_append, ← hcs]
    · intro w t hw hp
      obtain ⟨v, rfl⟩ := cons_of_isPrefix hp hw.ne_nil
      obtain ⟨body, hb, rfl, -⟩ := hw.of_quote
      obtain ⟨r, rfl⟩ := eq_of_quoted hp
      exact Nat.le_of_eq (by rw [(takeWhile_of_quote hb).1])

/-- A string is found wherever one can be read. -/
theorem exists_quoted {v : List Char} (hw : Spells ('\'' :: v) t) (hp : '\'' :: v <+: '\'' :: cs) :
    ∃ l, quoted? cs = some l := by
  obtain ⟨body, hb, rfl, -⟩ := hw.of_quote
  obtain ⟨r, rfl⟩ := eq_of_quoted hp
  unfold quoted?
  dsimp only
  rw [(takeWhile_of_quote hb).2]
  exact ⟨_, rfl⟩

/-! ## Symbols -/

/-- Among the symbols that a text begins with, the first one in the list is the longest. -/
theorem longest_symbol (hd : c.isDigit = false) (ha : c.isAlpha = false) (hu : c ≠ '_')
    (hq : c ≠ '\'') (h : symbol? (c :: cs) = some l) : Longest (c :: cs) l.chars l.token := by
  unfold symbol? at h
  obtain ⟨s, hs, rfl⟩ := Option.map_eq_some_iff.1 h
  obtain ⟨hp, as, bs, hall, has⟩ := List.find?_eq_some_iff_append.1 hs
  have hmem : s ∈ Symbol.longestFirst := by
    rw [hall]
    exact List.mem_append_right _ List.mem_cons_self
  refine ⟨.symbol (Symbol.mem_longestFirst.1 hmem), List.isPrefixOf_iff_prefix.1 hp, ?_⟩
  intro w t hw hp'
  obtain ⟨v, rfl⟩ := cons_of_isPrefix hp' hw.ne_nil
  obtain ⟨s', hs', hv, -⟩ := hw.of_symbol hd ha hu hq
  rw [← hv] at hp' ⊢
  have hmem' : s' ∈ as ++ s :: bs := hall ▸ Symbol.mem_longestFirst.2 hs'
  have hsorted : Symbol.longestFirst.Pairwise
      fun a b => b.spelling.toList.length ≤ a.spelling.toList.length := by decide
  rcases List.mem_append.1 hmem' with hm | hm
  · have := has s' hm
    rw [List.isPrefixOf_iff_prefix.2 hp'] at this
    cases this
  · rcases List.mem_cons.1 hm with rfl | hm
    · exact Nat.le_refl _
    · rw [hall] at hsorted
      exact (List.pairwise_cons.1 (List.pairwise_append.1 hsorted).2.1).1 s' hm

/-- A symbol is found wherever one can be read. -/
theorem exists_symbol {s : Symbol} (hs : s ≠ .lineBreak) (hp : s.spelling.toList <+: cs) :
    ∃ l, symbol? cs = some l := by
  unfold symbol?
  cases hf : Symbol.longestFirst.find? fun s => s.spelling.toList.isPrefixOf cs with
  | some s' => exact ⟨_, rfl⟩
  | none =>
    have := List.find?_eq_none.1 hf s (Symbol.mem_longestFirst.2 hs)
    exact absurd (List.isPrefixOf_iff_prefix.2 hp) this

/-! ## All lexemes -/

/-- What is found is the longest run. -/
theorem longest_first (h : first? cs = some l) : Longest cs l.chars l.token := by
  unfold first? at h
  split at h
  · cases h
  · next c cs =>
    split at h
    · next hd =>
      cases h
      exact longest_numeral hd
    · next hd =>
      split at h
      · next hw =>
        cases h
        exact longest_word hw
      · next hw =>
        split at h
        · next hq =>
          subst hq
          exact longest_quoted h
        · next hq =>
          rw [isWordStart_iff, not_or] at hw
          exact longest_symbol (Bool.eq_false_iff.2 hd) (Bool.eq_false_iff.2 hw.1) hw.2 hq h

/-- If a run spells a token, then something is found. -/
theorem exists_first (hw : Spells w t) (hp : w <+: cs) : ∃ l, first? cs = some l := by
  cases cs with
  | nil => exact absurd (List.prefix_nil.1 hp) hw.ne_nil
  | cons c cs =>
    obtain ⟨v, rfl⟩ := cons_of_isPrefix hp hw.ne_nil
    rw [first?]
    split
    · exact ⟨_, rfl⟩
    · next hd =>
      split
      · exact ⟨_, rfl⟩
      · next hs =>
        split
        · next hq =>
          subst hq
          exact exists_quoted hw hp
        · next hq =>
          rw [isWordStart_iff, not_or] at hs
          obtain ⟨s, hs, hv, -⟩ := hw.of_symbol (Bool.eq_false_iff.2 hd)
            (Bool.eq_false_iff.2 hs.1) hs.2 hq
          exact exists_symbol hs (hv ▸ hp)

/-- The lexeme that is found is the longest run of the text, and its token. -/
theorem first?_eq_some_iff : first? cs = some ⟨t, w⟩ ↔ Longest cs w t := by
  constructor
  · exact fun h => longest_first h
  · intro h
    obtain ⟨l, hl⟩ := exists_first h.spells h.isPrefix
    obtain ⟨rfl, rfl⟩ := (longest_first hl).unique h
    exact hl

/-- Nothing is found only where no token begins. -/
theorem first?_eq_none_iff : first? cs = none ↔ ∀ w t, Spells w t → ¬ w <+: cs := by
  constructor
  · intro h w t hw hp
    obtain ⟨l, hl⟩ := exists_first hw hp
    rw [h] at hl
    cases hl
  · intro h
    cases hf : first? cs with
    | none => rfl
    | some l => exact absurd (longest_first hf).isPrefix (h _ _ (longest_first hf).spells)

end Lexeme

/-! ## Blanks and semicolons end tokens

No token but a string has a blank in its spelling, or a semicolon behind its first character, and a
string ends at its second quote. So such a character that is put somewhere behind a lexeme leaves it
the longest one at its place (`Longest.insert_separator`).
-/

section Blank

variable {b c : Char} {l u w r r' : List Char} {t : Token}

/-- The characters at which every token ends that is not a string. -/
def separators : List Char := ';' :: blanks

/-- Every blank ends a token. -/
theorem mem_separators_of_mem_blanks (hb : b ∈ blanks) : b ∈ separators :=
  List.mem_cons_of_mem _ hb

/-- No separator goes on a numeral or a word. -/
theorem not_mem_separators (h : c.isAlpha = true ∨ c.isDigit = true ∨ c = '_') :
    c ∉ separators := by
  intro hc
  rcases List.mem_cons.1 hc with rfl | hc
  · exact absurd h (by decide)
  · refine not_mem_blanks ?_ hc
    rcases h with h | h | h
    · exact .inr (.inl (.inl h))
    · exact .inl h
    · exact .inr (.inl (.inr h))

/-- A point does not end a token, since it may stand in a numeral. -/
theorem point_not_mem_separators : '.' ∉ separators := by decide

/-- No separator is a digit. -/
theorem IsDigits.not_mem {cs : List Char} (h : IsDigits cs) (hb : b ∈ separators) : b ∉ cs :=
  fun hmem => not_mem_separators (.inr (.inl (h.2 b hmem))) hb

/-- No separator stands in a word. -/
theorem IsWord.not_mem {cs : List Char} (h : IsWord cs) (hb : b ∈ separators) : b ∉ cs := by
  intro hmem
  have hchar := Lexeme.isWordChar_of_isWord h b hmem
  exact not_mem_separators (Lexeme.isWordChar_iff.1 hchar) hb

/-- No separator stands in a symbol behind its first character. -/
theorem Symbol.not_mem_tail {s : Symbol} (hb : b ∈ separators) : b ∉ s.spelling.toList.tail := by
  have hall : (separators.all fun b => !s.spelling.toList.tail.contains b) = true := by
    cases s <;> rfl
  simpa using List.all_eq_true.1 hall b hb

/-- Only the spelling of a string may go on over a separator. -/
theorem Spells.not_mem_tail (h : Spells (c :: w) t) (hc : c ≠ '\'') (hb : b ∈ separators) :
    b ∉ w := by
  rcases h.cases_of_cons with ⟨-, ⟨hd, -⟩ | ⟨ds, fs, hd, hf, hw, -⟩⟩ | ⟨-, hw, -⟩ | ⟨hq, -⟩ |
    ⟨-, -, -, -, -, s, -, hw, -⟩
  · exact fun hmem => hd.not_mem hb (List.mem_cons_of_mem c hmem)
  · intro hmem
    have hmem := List.mem_cons_of_mem c hmem
    rw [hw, List.mem_append, List.mem_cons] at hmem
    rcases hmem with hmem | rfl | hmem
    · exact hd.not_mem hb hmem
    · exact point_not_mem_separators hb
    · exact hf.not_mem hb hmem
  · exact fun hmem => hw.not_mem hb (List.mem_cons_of_mem c hmem)
  · exact absurd hq hc
  · have hs := Symbol.not_mem_tail (s := s) hb
    rw [hw] at hs
    exact hs

/-- Only the spelling of a string may hold a blank. -/
theorem Spells.not_mem (h : Spells (c :: w) t) (hc : c ≠ '\'') (hb : b ∈ blanks) : b ∉ c :: w := by
  rw [List.mem_cons]
  rintro (rfl | hmem)
  · exact h.not_mem_blanks hb
  · exact h.not_mem_tail hc (mem_separators_of_mem_blanks hb) hmem

/-- A string that begins with a string is that string. -/
theorem Spells.eq_of_quoted {body v : List Char} {u : Token} (hb : '\'' ∉ body)
    (h : Spells ('\'' :: v) u) (hp : body ++ ['\''] <+: v) : v = body ++ ['\''] := by
  obtain ⟨body', hb', rfl, -⟩ := h.of_quote
  obtain ⟨r, hr⟩ := hp
  have hbody : body' = body := by
    have ht := congrArg (List.takeWhile (· ≠ '\'')) hr
    rw [List.append_assoc, List.singleton_append, (Lexeme.takeWhile_of_quote hb).1,
      (Lexeme.takeWhile_of_quote hb').1] at ht
    exact ht.symm
  rw [hbody]

/-- A run that goes on behind a lexeme over a separator spells no token. -/
theorem Spells.not_mem_of_append (h : Spells l t) (hb : b ∈ separators) {v : List Char}
    {t' : Token} (h' : Spells (l ++ v) t') : b ∉ v := by
  intro hmem
  obtain ⟨c, l, rfl⟩ := List.exists_cons_of_ne_nil h.ne_nil
  by_cases hc : c = '\''
  · -- A string has ended before the separator.
    subst hc
    obtain ⟨body, hbody, rfl, -⟩ := h.of_quote
    have hv := Spells.eq_of_quoted hbody h' (List.prefix_append _ _)
    rw [List.append_right_eq_self.1 hv] at hmem
    cases hmem
  · exact h'.not_mem_tail hc hb (List.mem_append_right l hmem)

/-- A separator that is put behind the longest lexeme, at once or later on, leaves it the
longest. -/
theorem Longest.insert_separator (h : Longest (l ++ (u ++ r)) l t) (hb : b ∈ separators) :
    Longest (l ++ (u ++ b :: r')) l t := by
  refine ⟨h.spells, List.prefix_append _ _, fun w' t' hw' hp => Nat.le_of_not_lt fun hlt => ?_⟩
  obtain ⟨v, rfl⟩ : l <+: w' :=
    List.prefix_of_prefix_length_le (List.prefix_append _ _) hp (by omega)
  have hv : v <+: u ++ b :: r' := (List.prefix_append_right_inj l).1 hp
  rcases Nat.lt_or_ge u.length v.length with hlong | hshort
  · have hub : u ++ [b] <+: v := by
      refine List.prefix_of_prefix_length_le ⟨r', ?_⟩ hv ?_
      · rw [List.append_assoc]
        rfl
      · rw [List.length_append]
        exact hlong
    have hmem : b ∈ v := hub.subset (List.mem_append_right _ List.mem_cons_self)
    exact h.spells.not_mem_of_append hb hw' hmem
  · have hvu : v <+: u := List.prefix_of_prefix_length_le hv (List.prefix_append _ _) hshort
    have hvr : v <+: u ++ r := hvu.trans (List.prefix_append _ _)
    have hle := h.length_le _ _ hw' ((List.prefix_append_right_inj l).2 hvr)
    omega

/-- A spelling is the longest lexeme if nothing or a separator stands behind it. -/
theorem Spells.longest (h : Spells l t) (hr : ∀ c ∈ r.head?, c ∈ separators) :
    Longest (l ++ r) l t := by
  have hnil : Longest (l ++ []) l t := by
    refine ⟨h, List.prefix_append _ _, fun w' t' _ hp => ?_⟩
    rw [List.append_nil] at hp
    exact hp.length_le
  cases r with
  | nil => exact hnil
  | cons b r => exact hnil.insert_separator (u := []) (r := []) (hr b rfl)

end Blank

end MapExpr
