import MapExpr.Proofs.Lexing.Scan
import Mathlib.Control.Monad.Basic
import Mathlib.Data.List.DropRight

/-!
# Tokens and lexical faults stand at their first character

Every token of a source carries the place behind the text in front of its first character, and so
does the fault at a character that begins no token (`tokenize_places`). Tokens follow each other, so
their places do too.

A scanner that counts bytes and keeps a `LineMark` finds the same places: at every character its
mark is that of the text in front (`scanByLines_eq`).
-/

namespace MapExpr

/-! ## Lines and offsets

`Position.behind cs` is the place behind the text `cs`, told at once from the whole text: the line
is one more than the number of line breaks, and the offset is the number of characters behind the
last of them. Moving on character by character from the start leads to this place
(`after_start`), and so does counting bytes: a `LineMark` that is `At` a text knows the line in
which the text ends and the bytes in front of this line, and finds the place behind the text from
its length in bytes (`LineMark.At.positionOf`).
-/

/-- Whether a character stays in its line. -/
def staysInLine (c : Char) : Bool := c ≠ '\n'

/-- Every character but a line break stays in its line. -/
theorem staysInLine_iff {c : Char} : staysInLine c = true ↔ c ≠ '\n' := by
  rw [staysInLine, decide_eq_true_eq]

/-- A line break does not stay in its line. -/
theorem not_staysInLine : ¬ staysInLine '\n' = true := by decide

namespace Position

/-- The place behind a text that begins at the start. -/
def behind (cs : List Char) : Position :=
  ⟨1 + cs.count '\n', (cs.rtakeWhile staysInLine).length⟩

/-- The place is in front of the other one: in an earlier line, or earlier in the same line. -/
def Before (p q : Position) : Prop := p.line < q.line ∨ p.line = q.line ∧ p.offset < q.offset

/-- One more character moves the place behind a text on by this character. -/
theorem behind_concat (cs : List Char) (c : Char) : behind (cs ++ [c]) = (behind cs).next c := by
  by_cases hc : c = '\n'
  · subst hc
    rw [behind, List.rtakeWhile_concat_neg _ _ _ not_staysInLine, List.count_append]
    rfl
  · rw [behind, List.rtakeWhile_concat_pos _ _ _ (staysInLine_iff.2 hc), List.count_append,
      List.count_singleton, if_neg (by simpa using hc), List.length_append, next, if_neg hc]
    rfl

/-- Reading a text from the start leads to the place behind it. -/
theorem after_start (cs : List Char) : start.after cs = behind cs := by
  induction cs using List.reverseRecOn with
  | nil => rfl
  | append_singleton cs c ih => rw [after_append, ih, behind_concat, after_cons, after_nil]

/-- Reading on from behind a text leads behind both texts. -/
theorem after_behind (cs ds : List Char) : (behind cs).after ds = behind (cs ++ ds) := by
  rw [← after_start, ← after_append, after_start]

/-- Places in front of each other are in a chain. -/
theorem Before.trans {p q r : Position} (h : p.Before q) (h' : q.Before r) : p.Before r := by
  unfold Before at *
  omega

/-- Every character moves forward. -/
theorem before_next (p : Position) (c : Char) : p.Before (p.next c) := by
  unfold next
  split
  · exact .inl (Nat.lt_succ_self _)
  · exact .inr ⟨rfl, Nat.lt_succ_self _⟩

/-- Every text leads on. -/
theorem before_after (p : Position) {cs : List Char} (h : cs ≠ []) : p.Before (p.after cs) := by
  induction cs generalizing p with
  | nil => exact absurd rfl h
  | cons c cs ih =>
    rw [after_cons]
    cases cs with
    | nil => exact p.before_next c
    | cons d cs => exact (p.before_next c).trans (ih _ (List.cons_ne_nil d cs))

/-- No text leads back. -/
theorem Before.after {p q : Position} (h : p.Before q) (cs : List Char) :
    p.Before (q.after cs) := by
  cases cs with
  | nil => exact h
  | cons c cs => exact h.trans (q.before_after (List.cons_ne_nil c cs))

end Position

/-! ### Bytes -/

section Bytes

variable {c : Char} {cs ds : List Char}

@[simp] theorem byteLength_nil : byteLength [] = 0 := rfl

@[simp] theorem byteLength_cons (c : Char) (cs : List Char) :
    byteLength (c :: cs) = c.utf8Size + byteLength cs := rfl

/-- Two texts take as many bytes as both of them together. -/
@[simp] theorem byteLength_append (cs ds : List Char) :
    byteLength (cs ++ ds) = byteLength cs + byteLength ds := by
  induction cs with
  | nil => exact (Nat.zero_add _).symm
  | cons c cs ih => rw [List.cons_append, byteLength_cons, byteLength_cons, ih, Nat.add_assoc]

/-- A character has at least one byte. -/
theorem exists_utf8Size_add (c : Char) (n : Nat) : ∃ m, c.utf8Size + n = m + 1 := by
  have := c.utf8Size_pos
  exact ⟨c.utf8Size + n - 1, by omega⟩

/-- Dropping as many bytes as a text takes leaves the text behind it. -/
theorem dropBytes?_byteLength (cs ds : List Char) :
    dropBytes? (byteLength cs) (cs ++ ds) = some ds := by
  induction cs with
  | nil => cases ds <;> rfl
  | cons c cs ih =>
    obtain ⟨m, hm⟩ := exists_utf8Size_add c (byteLength cs)
    have hrest : m + 1 - c.utf8Size = byteLength cs := by omega
    rw [byteLength_cons, List.cons_append, hm, dropBytes?, if_pos (by omega), hrest, ih]

/-- Taking as many bytes as a text takes gives this text. -/
theorem takeBytes?_byteLength (cs ds : List Char) :
    takeBytes? (byteLength cs) (cs ++ ds) = some cs := by
  induction cs with
  | nil => cases ds <;> rfl
  | cons c cs ih =>
    obtain ⟨m, hm⟩ := exists_utf8Size_add c (byteLength cs)
    have hrest : m + 1 - c.utf8Size = byteLength cs := by omega
    rw [byteLength_cons, List.cons_append, hm, takeBytes?, if_pos (by omega), hrest, ih]
    rfl

/-- A piece of a text is found between the bytes in front of it and those at its end. -/
theorem bytesBetween?_append (cs ds es : List Char) :
    bytesBetween? (cs ++ (ds ++ es)) (byteLength cs) (byteLength (cs ++ ds)) = some ds := by
  rw [byteLength_append, bytesBetween?, if_pos (Nat.le_add_right _ _), dropBytes?_byteLength,
    Nat.add_sub_cancel_left]
  exact takeBytes?_byteLength ds es

/-- What the byte offset of the last line break says about a text. -/
theorem lastLineBreak?_eq (cs : List Char) :
    (lastLineBreak? cs = none ∧ '\n' ∉ cs) ∨
      ∃ ds es, cs = ds ++ '\n' :: es ∧ '\n' ∉ es ∧ lastLineBreak? cs = some (byteLength ds) := by
  induction cs with
  | nil => exact .inl ⟨rfl, List.not_mem_nil⟩
  | cons c cs ih =>
    rcases ih with ⟨hnone, hmem⟩ | ⟨ds, es, hcs, hes, hsome⟩
    · by_cases hc : c = '\n'
      · subst hc
        exact .inr ⟨[], cs, rfl, hmem, by rw [lastLineBreak?, hnone]; rfl⟩
      · refine .inl ⟨by rw [lastLineBreak?, hnone]; exact if_neg hc, ?_⟩
        rw [List.mem_cons, not_or]
        exact ⟨Ne.symm hc, hmem⟩
    · exact .inr ⟨c :: ds, es, congrArg (c :: ·) hcs, hes, by rw [lastLineBreak?, hsome]; rfl⟩

end Bytes

/-! ### Marks -/

namespace LineMark

/-- The mark is that of the line in which a text ends. -/
structure At (m : LineMark) (cs : List Char) : Prop where
  line : m.line = 1 + cs.count '\n'
  lineStart : m.lineStart = byteLength (cs.rdropWhile staysInLine)

namespace At

variable {m : LineMark} {c : Char} {cs ds : List Char} {l : List Char} {t : Token}

/-- The first mark is that of the empty text. -/
theorem first : LineMark.first.At [] := ⟨rfl, rfl⟩

/-- Behind a line break the mark is that of the next line. -/
theorem newLine (h : m.At cs) : (m.newLine (byteLength cs + 1)).At (cs ++ ['\n']) where
  line := by
    rw [List.count_append, ← Nat.add_assoc, ← h.line]
    rfl
  lineStart := by
    rw [List.rdropWhile_concat_neg _ _ _ not_staysInLine, byteLength_append]
    rfl

/-- Within a line the mark stays what it is. -/
theorem concat (h : m.At cs) (hc : c ≠ '\n') : m.At (cs ++ [c]) where
  line := by
    rw [List.count_append, List.count_singleton, if_neg (by simpa using hc), Nat.add_zero,
      ← h.line]
  lineStart := by
    rw [List.rdropWhile_concat_pos _ _ _ (staysInLine_iff.2 hc), ← h.lineStart]

/-- The mark stays what it is as long as no line ends. -/
theorem append (h : m.At cs) (hds : '\n' ∉ ds) : m.At (cs ++ ds) := by
  induction ds generalizing cs with
  | nil =>
    rw [List.append_nil]
    exact h
  | cons d ds ih =>
    rw [List.mem_cons, not_or] at hds
    have := ih (h.concat (Ne.symm hds.1)) hds.2
    rwa [List.append_assoc] at this

/-- The mark is moved over a text by the last of its line breaks. -/
theorem skipLines (h : m.At cs) (ds : List Char) :
    (m.skipLines ds (byteLength cs)).At (cs ++ ds) := by
  unfold LineMark.skipLines
  rcases lastLineBreak?_eq ds with ⟨hnone, hmem⟩ | ⟨es, fs, rfl, hfs, hsome⟩
  · rw [hnone]
    exact h.append hmem
  · rw [hsome]
    have hbreak : LineMark.At ⟨m.line + (es ++ '\n' :: fs).count '\n',
        byteLength cs + byteLength es + 1⟩ (cs ++ es ++ ['\n']) := by
      constructor
      · simp only [List.count_append, List.count_cons_self, List.count_eq_zero_of_not_mem hfs,
          List.count_nil, h.line]
        omega
      · rw [List.rdropWhile_concat_neg _ _ _ not_staysInLine]
        simp only [byteLength_append]
        rfl
    have := hbreak.append hfs
    rwa [List.append_assoc, List.append_assoc] at this

/-- The mark is moved over a token. -/
theorem skipToken (h : m.At cs) (hl : Spells l t) :
    (m.skipToken t (byteLength cs)).At (cs ++ l) := by
  have hbreak : '\n' ∈ blanks := by decide
  by_cases hq : ∃ body, '\'' ∉ body ∧ l = '\'' :: (body ++ ['\'']) ∧
      t = .string (String.ofList body)
  · obtain ⟨body, -, rfl, rfl⟩ := hq
    have hopen : m.At (cs ++ ['\'']) := h.concat (by decide)
    have hbody := hopen.skipLines body
    have hclose := hbody.concat (c := '\'') (by decide)
    rw [byteLength_append, List.append_assoc, List.append_assoc] at hclose
    rw [LineMark.skipToken, String.toList_ofList]
    exact hclose
  · have hkeep : m.skipToken t (byteLength cs) = m := by
      cases hl with
      | string hbody => exact absurd ⟨_, hbody, rfl, rfl⟩ hq
      | _ => rfl
    obtain ⟨c, l, rfl⟩ := List.exists_cons_of_ne_nil hl.ne_nil
    have hc : c ≠ '\'' := by
      rintro rfl
      obtain ⟨body, hbody, rfl, rfl⟩ := hl.of_quote
      exact hq ⟨body, hbody, rfl, rfl⟩
    rw [hkeep]
    exact h.append (hl.not_mem hc hbreak)

/-- The mark finds the place behind its text. -/
theorem positionOf (h : m.At cs) (ds : List Char) :
    m.positionOf (cs ++ ds) (byteLength cs) = .behind cs := by
  have hsplit : cs.rdropWhile staysInLine ++ cs.rtakeWhile staysInLine = cs :=
    List.rdropWhile_append_rtakeWhile ..
  have hbytes := bytesBetween?_append (cs.rdropWhile staysInLine) (cs.rtakeWhile staysInLine) ds
  rw [← List.append_assoc, hsplit, ← h.lineStart] at hbytes
  rw [LineMark.positionOf, hbytes, h.line]
  rfl

end At

end LineMark

/-! ## Tokens -/

section Tokens

variable {form : Form} {p q : Position} {c : Char} {cs rest : List Char} {t : Located Token}
  {ts us vs : List (Located Token)}

/-! ### Places along a scan -/

/-- The lexeme of the token `t` is the longest at the place behind `pre`, and the tokens in front of
it are `us`. -/
structure TokenBehind (form : Form) (p : Position) (cs : List Char) (us : List (Located Token))
    (t : Located Token) (pre : List Char) : Prop where
  position : t.position = p.after pre
  lexeme : ∃ l post, cs = pre ++ (l ++ post) ∧ Longest (l ++ post) l t.value ∧
    Scans form p cs us t.position (l ++ post)

namespace Scans

/-- What has been scanned stands in front of the rest. -/
theorem exists_append (h : Scans form p cs ts q rest) :
    ∃ pre, cs = pre ++ rest ∧ q = p.after pre := by
  induction h with
  | blanks hw => exact ⟨_, rfl, rfl⟩
  | @lexeme p q w l rest rest' t ts hw hl hf h ih =>
    obtain ⟨pre, rfl, rfl⟩ := ih
    refine ⟨w ++ l ++ pre, ?_, ?_⟩
    · simp only [List.append_assoc]
    · rw [← Position.after_append]

/-- Each token stands behind a part of the text. -/
theorem exists_tokenBehind (h : Scans form p cs ts q rest) (hts : ts = us ++ t :: vs) :
    ∃ pre, TokenBehind form p cs us t pre := by
  induction h generalizing us with
  | blanks hw => exact absurd hts (by simp)
  | @lexeme p q w l rest rest' t' ts hw hl hf h ih =>
    cases us with
    | nil =>
      obtain ⟨rfl, rfl⟩ := List.cons.inj hts
      exact ⟨w, rfl, l, rest, rfl, hl, .blanks hw⟩
    | cons u us =>
      obtain ⟨rfl, rfl⟩ := List.cons.inj hts
      obtain ⟨pre, hp, l', post, rfl, hl', hs⟩ := ih rfl
      refine ⟨w ++ l ++ pre, ?_, l', post, ?_, hl', .lexeme hw hl hf hs⟩
      · rw [hp, ← Position.after_append]
      · simp only [List.append_assoc]

/-- No token stands in front of the text. -/
theorem before_of_mem (h : Scans form p cs ts q rest) {p' : Position} (hp : p'.Before p) :
    ∀ t ∈ ts, p'.Before t.position := by
  induction h with
  | blanks hw => nofun
  | lexeme hw hl hf h ih =>
    exact List.forall_mem_cons.2 ⟨hp.after _, ih (hp.after _)⟩

/-- Each token stands in front of those behind it. -/
theorem pairwise_before (h : Scans form p cs ts q rest) :
    ts.Pairwise fun t u => t.position.Before u.position := by
  induction h with
  | blanks hw => exact .nil
  | @lexeme p q w l rest rest' t ts hw hl hf h ih =>
    refine .cons (h.before_of_mem ?_) ih
    rw [Position.after_append]
    exact Position.before_after _ hl.spells.ne_nil

end Scans

/-! ### Counting bytes -/

/-- A scanner whose mark is that of the text in front finds the places behind this text. -/
theorem scanByLines_eq {m : LineMark} {pre : List Char} (hm : m.At pre) :
    scanByLines form (pre ++ cs) m (byteLength pre) cs = scan form (.behind pre) cs := by
  induction hn : cs.length using Nat.strong_induction_on generalizing cs m pre with
  | _ n ih =>
    subst hn
    cases cs with
    | nil => rw [scanByLines, scan]
    | cons c cs =>
      have hsource : pre ++ c :: cs = pre ++ [c] ++ cs := by
        rw [List.append_assoc]
        rfl
      have hnext : Position.behind (pre ++ [c]) = (Position.behind pre).next c :=
        Position.behind_concat pre c
      rw [scanByLines, scan]
      by_cases hc : c = '\n'
      · subst hc
        have hbreak := ih cs.length (Nat.lt_succ_self _) hm.newLine rfl
        rw [byteLength_append] at hbreak
        rw [if_pos rfl, if_pos (by decide), ← hnext, hsource]
        exact hbreak
      · rw [if_neg hc]
        split
        · have hblank := ih cs.length (Nat.lt_succ_self _) (hm.concat hc) rfl
          rw [byteLength_append] at hblank
          rw [← hnext, hsource]
          exact hblank
        · rw [hm.positionOf]
          cases hf : Lexeme.firstIn? form (c :: cs) with
          | none => rfl
          | some l =>
            obtain ⟨hl, -⟩ := firstIn?_eq_some_iff.1 hf
            obtain ⟨d, v, hv⟩ := List.exists_cons_of_ne_nil hl.spells.ne_nil
            obtain ⟨r, hr⟩ := hl.isPrefix
            -- The scanner has read the first character already and drops the rest of the lexeme.
            have hdrop : cs.drop (l.chars.length - 1) = r := by
              rw [hv] at hr ⊢
              rw [← (List.cons.inj hr).2]
              exact List.drop_left
            have hlen : r.length < (c :: cs).length := by
              rw [← hr, hv, List.length_append, List.length_cons]
              omega
            have hrest := ih r.length hlen (hm.skipToken hl.spells) rfl
            rw [byteLength_append, List.append_assoc, hr] at hrest
            dsimp only
            rw [hdrop, hrest]
            cases hs : scan form (.behind (pre ++ l.chars)) r with
            | ok ts => rw [Position.after_behind, hs]
            | error e => rw [Position.after_behind, hs]

/-- Counting bytes and lines gives the same tokens at the same places. -/
theorem tokenizeByLines_eq (form : Form) (source : String) :
    tokenizeByLines form source = tokenize form source :=
  scanByLines_eq .first

/-! ### The places of a source -/

/-- Every token stands behind all that is in front of its first character, each in front of the
next, and so does the fault at a character that begins no token; and counting bytes and lines leads
to the same places. -/
theorem tokenize_places (form : Form) (source : String) :
    (∀ ts, tokenize form source = .ok ts →
      (∀ us t vs, ts = us ++ t :: vs → ∃ pre,
        t.position = .behind pre ∧ TokenBehind form .start source.toList us t pre) ∧
      ts.Pairwise fun t u => t.position.Before u.position) ∧
    (∀ fault p, tokenize form source = .error ⟨fault, p⟩ → ∃ pre c post ts,
      p = .behind pre ∧ source.toList = pre ++ c :: post ∧
      Scans form .start source.toList ts p (c :: post) ∧ Offends form c post ∧ Blames fault c) ∧
    tokenizeByLines form source = tokenize form source := by
  refine ⟨fun ts hts => ?_, fun fault p hp => ?_, tokenizeByLines_eq form source⟩
  · obtain ⟨q, hs⟩ := ((tokenize_iff_longest form source).1 ts).1 hts
    refine ⟨fun us t vs hsplit => ?_, hs.pairwise_before⟩
    obtain ⟨pre, h⟩ := hs.exists_tokenBehind hsplit
    exact ⟨pre, h.position.trans (Position.after_start pre), h⟩
  · obtain ⟨ts, c, post, hs, ho, hb⟩ := ((tokenize_iff_longest form source).2 fault p).1 hp
    obtain ⟨pre, hsource, hq⟩ := hs.exists_append
    exact ⟨pre, c, post, ts, hq.trans (Position.after_start pre), hsource, hs, ho, hb⟩

/-- Behind a string over two lines the offset counts characters from the second line on, and a text
that ends in the middle of an operator fails at the character that is left alone. -/
theorem tokenize_places_lines :
    (tokenize .expression "'é\nüß' x"
        = .ok [⟨.string "é\nüß", ⟨1, 0⟩⟩, ⟨.identifier "x", ⟨2, 4⟩⟩] ∧
      ∃ pre, (⟨2, 4⟩ : Position) = .behind pre ∧
        TokenBehind .expression .start "'é\nüß' x".toList [⟨.string "é\nüß", ⟨1, 0⟩⟩]
          ⟨.identifier "x", ⟨2, 4⟩⟩ pre) ∧
    (tokenize .expression "'é'\n &" = .error ⟨.incompleteOperator '&', ⟨2, 1⟩⟩ ∧
      ∃ pre c post ts, (⟨2, 1⟩ : Position) = .behind pre ∧ "'é'\n &".toList = pre ++ c :: post ∧
        Scans .expression .start "'é'\n &".toList ts ⟨2, 1⟩ (c :: post) ∧
        Offends .expression c post ∧ Blames (.incompleteOperator '&') c) := by
  have hok : tokenize .expression "'é\nüß' x"
      = .ok [⟨.string "é\nüß", ⟨1, 0⟩⟩, ⟨.identifier "x", ⟨2, 4⟩⟩] := by decide +kernel
  have herror : tokenize .expression "'é'\n &" = .error ⟨.incompleteOperator '&', ⟨2, 1⟩⟩ := by
    decide +kernel
  have hplaces := ((tokenize_places .expression "'é\nüß' x").1 _ hok).1
  exact ⟨⟨hok, hplaces [⟨.string "é\nüß", ⟨1, 0⟩⟩] ⟨.identifier "x", ⟨2, 4⟩⟩ [] rfl⟩, herror,
    (tokenize_places .expression "'é'\n &").2.1 _ _ herror⟩

end Tokens

end MapExpr
