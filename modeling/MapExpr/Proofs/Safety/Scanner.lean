import MapExpr.Proofs.Places.Tokens
import MapExpr.Proofs.Safety.Breach

/-!
# The scanner stays inside its source

The scanner cuts the source at the byte offset of a fault, cuts the quotes off a string and counts
lines and bytes in words. `scanChecked` is the scanner with these operations checked. Its mark is
that of the text in front of it, so that no number it counts exceeds the length of the source, and
the offsets at which it cuts are those of characters: no check fails (`tokenizeChecked_eq`).
-/

namespace MapExpr

/-- What stands between the quotes of a string. -/
def unquoted (w : List Char) : Guarded (List Char) := do
  textBetween w 1 (← Word.sub (byteLength w) 1)

/-- The token of a lexeme; the quotes of a string are cut off. -/
def Lexeme.tokenChecked (l : Lexeme) : Guarded Token :=
  match l.token with
  | .string _ => do return .string (String.ofList (← unquoted l.chars))
  | t => .ok t

/-- The fault at the first character of a text. -/
def LexFault.ofText : List Char → LexFault
  | c :: _ => .ofChar c
  | [] => .unexpectedCharacter (Char.ofNat 0)

namespace LineMark

/-- The line behind a line break. -/
def newLineChecked (m : LineMark) (offset : Nat) : Guarded LineMark := do
  return ⟨← Word.add m.line 1, offset⟩

/-- The line in which a text ends that begins at a byte offset of the line. -/
def skipLinesChecked (m : LineMark) (text : List Char) (textStart : Nat) : Guarded LineMark :=
  match lastLineBreak? text with
  | some n => do
    let line ← Word.add m.line (text.count '\n')
    return ⟨line, ← Word.add (← Word.add textStart n) 1⟩
  | none => .ok m

/-- The line behind a token that begins at a byte offset of the line. -/
def skipTokenChecked (m : LineMark) (t : Token) (offset : Nat) : Guarded LineMark :=
  match t with
  | .string s => do m.skipLinesChecked s.toList (← Word.add offset 1)
  | _ => .ok m

end LineMark

/-- The tokens of the characters that begin at a byte offset of the source, in the given line. -/
def scanChecked (form : Form) (source : List Char) (m : LineMark) (offset : Nat) :
    List Char → Guarded (Except (Located LexFault) (List (Located Token)))
  | [] => .ok (.ok [])
  | c :: cs =>
    if c = '\n' then do
      scanChecked form source (← m.newLineChecked (offset + 1)) (offset + 1) cs
    else if Lexeme.isBlank c then scanChecked form source m (offset + c.utf8Size) cs
    else
      match Lexeme.firstIn? form (c :: cs) with
      | none => do
        let rest ← textFrom source offset
        return .error ⟨.ofText rest, m.positionOf source offset⟩
      | some l => do
        let t ← l.tokenChecked
        match ← scanChecked form source (← m.skipTokenChecked t offset)
            (offset + byteLength l.chars) (cs.drop (l.chars.length - 1)) with
        | .ok ts => return .ok (⟨t, m.positionOf source offset⟩ :: ts)
        | .error e => return .error e
termination_by cs => cs.length
decreasing_by all_goals simp; try omega

/-- The tokens of a source text. -/
def tokenizeChecked (form : Form) (source : String) :
    Guarded (Except (Located LexFault) (List (Located Token))) :=
  scanChecked form source.toList .first 0 source.toList

/-! ## No check fails -/

section Scanner

variable {form : Form} {m : LineMark} {pre cs : List Char}

/-- A text takes at least one byte for each character. -/
theorem length_le_byteLength (cs : List Char) : cs.length ≤ byteLength cs := by
  induction cs with
  | nil => exact Nat.le_refl _
  | cons c cs ih =>
    have := c.utf8Size_pos
    rw [List.length_cons, byteLength_cons]
    omega

/-- A line break is inside of its text. -/
theorem le_of_lastLineBreak? {n : Nat} (h : lastLineBreak? cs = some n) : n ≤ byteLength cs := by
  rcases lastLineBreak?_eq cs with ⟨hnone, -⟩ | ⟨ds, es, rfl, -, hsome⟩
  · rw [hnone] at h
    cases h
  · rw [hsome] at h
    cases h
    rw [byteLength_append]
    exact Nat.le_add_right _ _

/-- A string is cut at its quotes, which are characters of one byte. -/
theorem unquoted_eq (body : List Char) : unquoted ('\'' :: (body ++ ['\''])) = .ok body := by
  have hquote : byteLength ['\''] = 1 := by decide
  have hcut := bytesBetween?_append ['\''] body ['\'']
  rw [hquote, byteLength_append, hquote] at hcut
  have hlength : byteLength ('\'' :: (body ++ ['\''])) = 1 + byteLength body + 1 := by
    rw [← List.singleton_append, byteLength_append, byteLength_append, hquote, Nat.add_assoc]
  rw [unquoted, hlength, Word.sub_eq (Nat.le_add_left _ _), Guarded.ok_bind, Nat.add_sub_cancel]
  exact textBetween_eq hcut

/-- What spells a token is long enough to be cut at its quotes. -/
theorem tokenChecked_eq {t : Token} {w : List Char} (h : Spells w t) :
    Lexeme.tokenChecked ⟨t, w⟩ = .ok t := by
  cases h with
  | @string body hbody =>
    rw [Lexeme.tokenChecked, unquoted_eq]
    rfl
  | _ => rfl

namespace LineMark

/-- Counting one more line stays inside a word. -/
theorem newLineChecked_eq (h : m.line + 1 < Word.limit) (offset : Nat) :
    m.newLineChecked offset = .ok (m.newLine offset) := by
  rw [newLineChecked, Word.add_eq h]
  rfl

/-- Counting the lines of a text stays inside a word. -/
theorem skipLinesChecked_eq {text : List Char} {textStart : Nat}
    (hline : m.line + text.count '\n' < Word.limit)
    (hstart : textStart + byteLength text + 1 < Word.limit) :
    m.skipLinesChecked text textStart = .ok (m.skipLines text textStart) := by
  unfold skipLinesChecked skipLines
  cases h : lastLineBreak? text with
  | none => rfl
  | some n =>
    have hn := le_of_lastLineBreak? h
    dsimp only
    rw [Word.add_eq hline, Guarded.ok_bind, Word.add_eq (by omega), Guarded.ok_bind,
      Word.add_eq (by omega)]
    rfl

end LineMark

/-- The numbers of a mark and of a place in a text that fits into memory are held by words. -/
theorem LineMark.At.line_le (hm : m.At pre) : m.line ≤ 1 + byteLength pre := by
  have hcount := List.count_le_length (a := '\n') (l := pre)
  have hlength := length_le_byteLength pre
  have := hm.line
  omega

/-- The mark is moved over a token. -/
theorem LineMark.At.skipTokenChecked_eq {t : Token} {w : List Char} (hm : m.At pre)
    (h : Spells w t) (hfit : byteLength (pre ++ w) ≤ Word.maxExtent) :
    m.skipTokenChecked t (byteLength pre) = .ok (m.skipToken t (byteLength pre)) := by
  cases h with
  | @string body hbody =>
    have hline := hm.line_le
    have hlimit := Word.two_mul_maxExtent_lt
    have hquote : byteLength ['\''] = 1 := by decide
    have hcount := List.count_le_length (a := '\n') (l := body)
    have hlength := length_le_byteLength body
    rw [byteLength_append, byteLength_cons, byteLength_append, hquote] at hfit
    have hopen := '\''.utf8Size_pos
    rw [LineMark.skipTokenChecked, LineMark.skipToken, Word.add_eq (by omega), Guarded.ok_bind,
      String.toList_ofList]
    exact skipLinesChecked_eq (by omega) (by omega)
  | _ => rfl

/-- In a source that fits into memory no check of the scanner fails. -/
theorem scanChecked_eq (hm : m.At pre) (hfit : byteLength (pre ++ cs) ≤ Word.maxExtent) :
    scanChecked form (pre ++ cs) m (byteLength pre) cs
      = .ok (scanByLines form (pre ++ cs) m (byteLength pre) cs) := by
  induction hn : cs.length using Nat.strong_induction_on generalizing cs m pre with
  | _ n ih =>
    subst hn
    have hline := hm.line_le
    have hlimit := Word.two_mul_maxExtent_lt
    cases cs with
    | nil => rw [scanChecked, scanByLines]
    | cons c cs =>
      have hsource : pre ++ c :: cs = pre ++ [c] ++ cs := by
        rw [List.append_assoc]
        rfl
      have hpre : byteLength pre < Word.maxExtent := by
        have := c.utf8Size_pos
        rw [byteLength_append, byteLength_cons] at hfit
        omega
      rw [scanChecked, scanByLines]
      by_cases hc : c = '\n'
      · subst hc
        have hbreak := ih cs.length (Nat.lt_succ_self _) hm.newLine (hsource ▸ hfit) rfl
        rw [byteLength_append] at hbreak
        rw [if_pos rfl, if_pos rfl, LineMark.newLineChecked_eq (by omega), Guarded.ok_bind, hsource]
        exact hbreak
      · rw [if_neg hc, if_neg hc]
        split
        · have hblank := ih cs.length (Nat.lt_succ_self _) (hm.concat hc) (hsource ▸ hfit) rfl
          rw [byteLength_append] at hblank
          rw [hsource]
          exact hblank
        · cases hf : Lexeme.firstIn? form (c :: cs) with
          | none =>
            dsimp only
            rw [textFrom_eq (dropBytes?_byteLength pre (c :: cs))]
            rfl
          | some l =>
            obtain ⟨hl, -⟩ := firstIn?_eq_some_iff.1 hf
            obtain ⟨d, v, hv⟩ := List.exists_cons_of_ne_nil hl.spells.ne_nil
            obtain ⟨r, hr⟩ := hl.isPrefix
            -- The scanner has read the first character already and drops the rest of the lexeme.
            have hdrop : cs.drop (l.chars.length - 1) = r := by
              rw [hv] at hr ⊢
              rw [← (List.cons.inj hr).2]
              exact List.drop_left
            have hlen : r.length < (c :: cs).length := by
              rw [← hr, hv, List.length_append, List.length_cons]
              omega
            rw [← hr, ← List.append_assoc] at hfit
            have hrest := ih r.length hlen (hm.skipToken hl.spells) hfit rfl
            rw [byteLength_append, List.append_assoc, hr] at hrest
            rw [byteLength_append] at hfit
            dsimp only
            rw [tokenChecked_eq hl.spells, Guarded.ok_bind,
              hm.skipTokenChecked_eq hl.spells (by omega), Guarded.ok_bind, hdrop, hrest,
              Guarded.ok_bind]
            cases scanByLines form (pre ++ c :: cs) _ _ r with
            | ok ts => rfl
            | error e => rfl

end Scanner

/-- A source that fits into memory is cut into its tokens, or refused, without a breach. -/
theorem tokenizeChecked_eq {source : String} (h : byteLength source.toList ≤ Word.maxExtent)
    (form : Form) : tokenizeChecked form source = .ok (tokenize form source) := by
  rw [← tokenizeByLines_eq]
  exact scanChecked_eq .first h

end MapExpr
