import MapExpr.Proofs.Lexing.Scan
import MapExpr.Proofs.Printing.Surface

/-!
# Texts that are put together

Where one text is put behind another, a lexeme of the first one could go on into the second. This is
ruled out for the texts that an entry of a batch is made of (`Scans.exists_entry`). A name ends in
front of the sign `=`, the sign ends in front of everything but another `=`, and a text that is
scanned to its end keeps its tokens if a separator follows (`Scans.exists_append_separator`).

The other way round, a text that holds a single identifier is this identifier between blanks
(`isIdentifier_iff`).
-/

namespace MapExpr

variable {form : Form} {p q r : Position} {b c : Char} {cs w w' rest rest' : List Char}
  {ts us : List (Located Token)} {t : Token} {x : String}

namespace Scans

/-- Blanks may stand in front of a text. -/
theorem append_blanks (hw : ∀ c ∈ w, c ∈ MapExpr.blanks)
    (h : Scans form (p.after w) cs ts q rest) : Scans form p (w ++ cs) ts q rest := by
  induction w generalizing p with
  | nil => exact h
  | cons c w ih =>
    rw [List.forall_mem_cons] at hw
    exact (ih hw.2 h).cons_blank hw.1

/-- Blanks alone have no tokens. -/
theorem of_blanks (hw : ∀ c ∈ w, c ∈ MapExpr.blanks) (p : Position) :
    Scans form p w [] (p.after w) [] := by
  have hs : Scans form p (w ++ []) [] (p.after w) [] := .blanks hw
  rwa [List.append_nil] at hs

/-- One scan goes on where the other one has ended. -/
theorem trans (h : Scans form p cs ts q rest) (h' : Scans form q rest us r rest') :
    Scans form p cs (ts ++ us) r rest' := by
  induction h with
  | blanks hw => exact append_blanks hw h'
  | lexeme hw hl hf _ ih => exact .lexeme hw hl hf (ih h')

/-- What has been scanned keeps its tokens wherever it stands and whatever comes behind a
separator. -/
theorem exists_append_separator (h : Scans form p cs ts q rest) (hb : b ∈ separators)
    (p' : Position) (more : List Char) :
    ∃ ts' q', Scans .batch p' (cs ++ b :: more) ts' q' (rest ++ b :: more) ∧
      ts'.map Located.value = ts.map Located.value := by
  induction h generalizing p' with
  | @blanks p w rest hw =>
    rw [List.append_assoc]
    exact ⟨[], _, .blanks hw, rfl⟩
  | @lexeme p q w l rest rest' t ts hw hl hf h ih =>
    obtain ⟨ts', q', hs, hts⟩ := ih (p'.after (w ++ l))
    have hl' : Longest (l ++ (rest ++ b :: more)) l t := by
      rw [← List.append_nil rest] at hl
      exact hl.insert_separator hb
    rw [List.append_assoc, List.append_assoc]
    exact ⟨⟨t, p'.after w⟩ :: ts', q', .lexeme hw hl' (.inl rfl) hs, congrArg (t :: ·) hts⟩

end Scans

/-! ## Names -/

/-- A name ends where no more characters of a word follow. -/
theorem IsName.longest (hx : IsName x) (hr : ∀ c ∈ rest.head?, Lexeme.isWordChar c = false) :
    Longest (x.toList ++ rest) x.toList (.identifier x) := by
  refine ⟨hx.spells, List.prefix_append _ _, fun w t hw hp => ?_⟩
  have htake : (x.toList ++ rest).takeWhile Lexeme.isWordChar = x.toList := by
    rw [List.takeWhile_append_of_pos (Lexeme.isWordChar_of_isWord hx.isWord)]
    cases rest with
    | nil => exact List.append_nil _
    | cons c rest => rw [List.takeWhile_cons_of_neg (by simp [hr c rfl]), List.append_nil]
  obtain ⟨c, ds, hcs, hc, -⟩ := hx.isWord
  rw [hcs] at hp htake ⊢
  obtain ⟨v, rfl⟩ := Lexeme.cons_of_isPrefix hp hw.ne_nil
  have hle := Lexeme.length_le_takeWhile (Lexeme.isWordChar_of_isWord (hw.of_letter hc).1) hp
  rwa [htake] at hle

/-- A name between blanks is the only token of the text. -/
theorem IsName.tokenize_between_blanks (hx : IsName x) (hw : ∀ c ∈ w, c ∈ blanks)
    (hw' : ∀ c ∈ w', c ∈ blanks) {source : String} (hs : source.toList = w ++ (x.toList ++ w'))
    (form : Form) : tokenize form source = .ok [⟨.identifier x, Position.start.after w⟩] := by
  have hl : Longest (x.toList ++ w') x.toList (.identifier x) := by
    refine hx.spells.longest fun c hc => mem_separators_of_mem_blanks ?_
    exact hw' c (List.mem_of_mem_head? hc)
  have hrest : Scans form _ w' [] _ [] :=
    Scans.of_blanks hw' (Position.start.after (w ++ x.toList))
  rw [tokenize, hs, scan_of_scans_nil (.lexeme hw hl (.inr nofun) hrest)]

/-- A text that is a name has this name as its only token. -/
theorem IsName.tokenize (hx : IsName x) (form : Form) :
    tokenize form x = .ok [⟨.identifier x, .start⟩] :=
  hx.tokenize_between_blanks (List.forall_mem_nil _) (List.forall_mem_nil _)
    (List.append_nil _).symm form

/-- An identifier is written in one way. -/
theorem Spells.eq_toList (h : Spells w (.identifier x)) : w = x.toList := by
  cases h with
  | identifier => exact String.toList_ofList.symm

/-- A text without tokens is blank. -/
theorem Scans.forall_mem_blanks (h : Scans form p cs [] q []) : ∀ c ∈ cs, c ∈ MapExpr.blanks := by
  generalize hrest : ([] : List Char) = rest at h
  cases h with
  | blanks hw =>
    subst hrest
    rw [List.append_nil]
    exact hw

/-- A text holds a single identifier if and only if it is a name between blanks. -/
theorem isIdentifier_iff : isIdentifier x = true ↔ ∃ w y w', (∀ c ∈ w, c ∈ blanks) ∧
    (∀ c ∈ w', c ∈ blanks) ∧ IsName y ∧ x.toList = w ++ (y.toList ++ w') := by
  constructor
  · intro h
    unfold isIdentifier at h
    split at h
    · next y p hts =>
      obtain ⟨q, hs⟩ := exists_scans_of_scan hts
      generalize hcs : x.toList = cs at hs
      cases hs with
      | @lexeme _ _ w l rest _ _ _ hw hl hf hs =>
        have hname : IsName y := Token.IsSpelled.isName ⟨l, hl.spells⟩
        exact ⟨w, y, rest, hw, hs.forall_mem_blanks, hname, by rw [hl.spells.eq_toList]⟩
    · cases h
  · rintro ⟨w, y, w', hw, hw', hy, hx⟩
    rw [isIdentifier, hy.tokenize_between_blanks hw hw' hx]

/-- The blanks between tokens are among those that are trimmed off a name. -/
theorem isSpace_of_mem_blanks (hc : c ∈ blanks) : Text.isSpace c = true := by
  have hall : blanks.all Text.isSpace = true := by decide
  exact List.all_eq_true.1 hall c hc

/-- A trimmed text that holds a single identifier is that identifier. -/
theorem isName_of_isIdentifier_trim (h : isIdentifier (String.ofList (Text.trim cs)) = true) :
    IsName (String.ofList (Text.trim cs)) := by
  obtain ⟨w, y, w', hw, hw', hy, hx⟩ := isIdentifier_iff.1 h
  rw [String.toList_ofList] at hx
  obtain ⟨hhead, hlast⟩ := Text.isSpace_ends_trim cs
  rw [hx] at hhead hlast
  have hleft : w = [] := by
    cases w with
    | nil => rfl
    | cons c w =>
      have hc := isSpace_of_mem_blanks (hw c List.mem_cons_self)
      rw [hhead c rfl] at hc
      cases hc
  have hright : w' = [] := by
    cases hc : w'.getLast? with
    | none => exact List.getLast?_eq_none_iff.1 hc
    | some c =>
      have hspace := isSpace_of_mem_blanks (hw' c (List.mem_of_getLast? hc))
      rw [hlast c (by simp [List.getLast?_append, hc])] at hspace
      cases hspace
  rw [hx, hleft, hright, List.append_nil, List.nil_append, String.ofList_toList]
  exact hy

/-! ## Signs -/

/-- What begins with `=` is the sign of an assignment or of a comparison. -/
theorem Spells.of_equals {v : List Char} {t : Token} (h : Spells ('=' :: v) t) :
    (v = [] ∧ t = .symbol .assign) ∨ (v = ['='] ∧ t = .symbol .equal) := by
  obtain ⟨s, -, hv, rfl⟩ := h.of_symbol rfl rfl (by decide) (by decide)
  have hhead : s.spelling.toList.head? = some '=' := congrArg List.head? hv
  cases s
  case assign => exact .inl ⟨(List.cons.inj hv).2.symm, rfl⟩
  case equal => exact .inr ⟨(List.cons.inj hv).2.symm, rfl⟩
  all_goals exact absurd hhead (by decide)

/-- The sign of an assignment ends in front of everything but another such sign. -/
theorem longest_assign (h : cs.head? ≠ some '=') : Longest ('=' :: cs) ['='] (.symbol .assign) := by
  refine ⟨.symbol (s := .assign) nofun, ⟨cs, rfl⟩, fun w t hw hp => ?_⟩
  obtain ⟨v, rfl⟩ := Lexeme.cons_of_isPrefix hp hw.ne_nil
  rcases hw.of_equals with ⟨rfl, -⟩ | ⟨rfl, -⟩
  · exact Nat.le_refl 1
  · obtain ⟨r, rfl⟩ := (List.cons_prefix_cons.1 hp).2
    exact absurd rfl h

/-- A semicolon is a token whatever follows it. -/
theorem longest_semicolon : Longest (';' :: cs) [';'] (.symbol .semicolon) :=
  Lexeme.longest_first (l := ⟨_, _⟩) rfl

/-- A name, the sign of an assignment, a text that can be scanned and a semicolon have the tokens
that they have on their own. -/
theorem Scans.exists_entry (hx : IsName x) (h : Scans form r cs ts q [])
    (hcs : cs.head? ≠ some '=') (p : Position) (more : List Char) :
    ∃ p₁ vs p₂ p₃, Scans .batch p (x.toList ++ '=' :: (cs ++ ';' :: more))
        (⟨.identifier x, p⟩ :: ⟨.symbol .assign, p₁⟩ :: (vs ++ [⟨.symbol .semicolon, p₂⟩])) p₃
        more ∧
      vs.map Located.value = ts.map Located.value := by
  obtain ⟨vs, q', hvs, hvalues⟩ := h.exists_append_separator (b := ';') List.mem_cons_self
    ((p.after x.toList).after ['=']) more
  have hname : Longest (x.toList ++ '=' :: (cs ++ ';' :: more)) x.toList (.identifier x) :=
    hx.longest (by rintro c ⟨⟩; rfl)
  have hassign : Longest ('=' :: (cs ++ ';' :: more)) ['='] (.symbol .assign) := by
    refine longest_assign ?_
    cases cs with
    | nil => nofun
    | cons c cs => exact hcs
  have hend : Scans .batch q' (';' :: more) [⟨.symbol .semicolon, q'⟩] (q'.after [';']) more :=
    .cons (w := [';']) longest_semicolon (.inl rfl) .nil
  have hvalue := Scans.cons (w := ['=']) hassign (.inl rfl) (hvs.trans hend)
  exact ⟨_, vs, q', _, .cons hname (.inl rfl) hvalue, hvalues⟩

end MapExpr
