import MapExpr.Proofs.Parsing.Reading
import MapExpr.Proofs.Parsing.Soundness
import MapExpr.Proofs.Printing.Printer

/-!
# Reading inverts printing

`ReadAs n ws e` says that tokens spelled as the words `ws` are a phrase of level `n` with the tree
`e`, up to places. Each constructor of a tree keeps it if its operands are of the levels that the
grammar asks for, and the parentheses of the printer see to that. So a printed tree is read back
(`readExpression_text`), in every style that writes its numbers as they are read.

What is read can stand in a source (`surface_of_readExpression`); hence the trees that can are, up
to places, exactly those that are read.
-/

namespace MapExpr

/-! ## Tokens of given words -/

namespace Spelled

variable {w : String} {ws vs : List String} {t : Token} {ts : List (Located Token)}

/-- No words spell no tokens. -/
theorem nil (h : Spelled [] ts) : ts = [] :=
  List.forall₂_nil_left_iff.1 h

/-- The first word spells the first token. -/
theorem cons (h : Spelled (w :: ws) ts) (hw : Spells w.toList t) :
    ∃ p us, ts = ⟨t, p⟩ :: us ∧ Spelled ws us := by
  obtain ⟨⟨u, p⟩, us, hu, hus, rfl⟩ := List.forall₂_cons_left_iff.1 h
  obtain rfl : u = t := hu.unique hw
  exact ⟨p, us, rfl, hus⟩

/-- A single word spells a single token. -/
theorem singleton (h : Spelled [w] ts) (hw : Spells w.toList t) : ∃ p, ts = [⟨t, p⟩] := by
  obtain ⟨p, us, rfl, hus⟩ := h.cons hw
  exact ⟨p, by rw [hus.nil]⟩

/-- The spelling of a symbol spells this symbol. -/
theorem symbol (s : Symbol) (hs : s ≠ .lineBreak) (h : Spelled (s.spelling :: ws) ts) :
    ∃ p us, ts = ⟨.symbol s, p⟩ :: us ∧ Spelled ws us :=
  h.cons (.symbol hs)

/-- The tokens of joined words are cut where the words are. -/
theorem append (h : Spelled (ws ++ vs) ts) :
    ∃ us us', ts = us ++ us' ∧ Spelled ws us ∧ Spelled vs us' := by
  induction ws generalizing ts with
  | nil => exact ⟨[], ts, rfl, List.Forall₂.nil, h⟩
  | cons w ws ih =>
    obtain ⟨t, us, ht, hus, rfl⟩ := List.forall₂_cons_left_iff.1 h
    obtain ⟨us, us', rfl, hws, hvs⟩ := ih hus
    exact ⟨t :: us, us', rfl, List.Forall₂.cons ht hws, hvs⟩

/-- Words in brackets. -/
theorem bracketed (b c : Symbol) (hb : b ≠ .lineBreak) (hc : c ≠ .lineBreak)
    (h : Spelled (b.spelling :: (ws ++ [c.spelling])) ts) :
    ∃ p us q, ts = ⟨.symbol b, p⟩ :: (us ++ [⟨.symbol c, q⟩]) ∧ Spelled ws us := by
  obtain ⟨p, _, rfl, h₁⟩ := h.symbol b hb
  obtain ⟨us, _, rfl, hus, h₂⟩ := h₁.append
  obtain ⟨q, rfl⟩ := h₂.singleton (.symbol hc)
  exact ⟨p, us, q, rfl, hus⟩

end Spelled

/-! ## One constructor at a time -/

/-- Tokens that are spelled as the words are a phrase of level `n` with the tree `e`, up to
places. -/
def ReadAs (n : Nat) (ws : List String) (e : Expr) : Prop :=
  ∀ ts, Spelled ws ts → ∃ f, Means n ts f ∧ f.erase = e.erase

/-- Tokens that are spelled as the words are a row with the trees `es`, up to places. -/
def ReadAsRow (ws : List String) (es : List Expr) : Prop :=
  ∀ ts, Spelled ws ts →
    ∃ r : Row, r.Fits ∧ r.tokens = ts ∧ Expr.eraseAll r.trees = Expr.eraseAll es

variable {m n : Nat} {ws vs us : List String} {e f g : Expr} {es : List Expr} {p : Position}

namespace ReadAs

/-- What is read at a tighter level is read at every looser one. -/
theorem mono (h : ReadAs n ws e) (hmn : m ≤ n) : ReadAs m ws e := by
  intro ts hts
  obtain ⟨f, hf, he⟩ := h ts hts
  exact ⟨f, hf.mono hmn, he⟩

/-- The spelling of a constant is read as this constant. -/
theorem literal {w : String} {t : Token} {v : Literal} (hw : Spells w.toList t)
    (ht : t.literal? = some v) : ReadAs 9 [w] (.literal v p) := by
  intro ts hts
  obtain ⟨q, rfl⟩ := hts.singleton hw
  exact ⟨_, .literal ht, rfl⟩

/-- A name is read as a variable. -/
theorem var {x : String} (hx : IsName x) : ReadAs 9 [x] (.var x p) := by
  intro ts hts
  obtain ⟨q, rfl⟩ := hts.singleton hx.spells
  exact ⟨_, .name, rfl⟩

/-- Words in parentheses are read as the same tree, at the tightest level. -/
theorem group (h : ReadAs 0 ws e) : ReadAs 9 ("(" :: (ws ++ [")"])) e := by
  intro ts h₁
  obtain ⟨q, ts, q', rfl, hts⟩ := h₁.bracketed .openParen .closeParen nofun nofun
  obtain ⟨f, hf, he⟩ := h ts hts
  exact ⟨f, hf.group, he⟩

/-- Empty brackets are read as the empty vector. -/
theorem emptyVector : ReadAs 9 ["[", "]"] (.vector [] p) := by
  intro ts h₁
  obtain ⟨q, _, rfl, h₂⟩ := h₁.symbol .openBracket nofun
  obtain ⟨q', rfl⟩ := h₂.singleton (.symbol (s := .closeBracket) nofun)
  exact ⟨_, .emptyVector, rfl⟩

/-- A row in brackets is read as a vector. -/
theorem vector (h : ReadAsRow ws es) : ReadAs 9 ("[" :: (ws ++ ["]"])) (.vector es p) := by
  intro ts h₁
  obtain ⟨q, ts, q', rfl, hts⟩ := h₁.bracketed .openBracket .closeBracket nofun nofun
  obtain ⟨r, hr, rfl, he⟩ := h ts hts
  exact ⟨_, .vector hr, congrArg (Expr.vector · _) he⟩

/-- A point and a name behind words are read as an access. -/
theorem member {x : String} (h : ReadAs 8 ws e) (hx : IsName x) :
    ReadAs 8 (ws ++ [".", x]) (.member e x p) := by
  intro ts h₁
  obtain ⟨ts, _, rfl, hts, h₂⟩ := h₁.append
  obtain ⟨q, _, rfl, h₃⟩ := h₂.symbol .dot nofun
  obtain ⟨q', rfl⟩ := h₃.singleton hx.spells
  obtain ⟨f, hf, he⟩ := h ts hts
  exact ⟨_, hf.member, congrArg (Expr.member · x _) he⟩

/-- Empty parentheses behind words are read as a call without arguments. -/
theorem emptyCall (h : ReadAs 8 ws e) {site : CallSite} :
    ReadAs 8 (ws ++ ["(", ")"]) (.call e [] site) := by
  intro ts h₁
  obtain ⟨ts, _, rfl, hts, h₂⟩ := h₁.append
  obtain ⟨q, _, rfl, h₃⟩ := h₂.symbol .openParen nofun
  obtain ⟨q', rfl⟩ := h₃.singleton (.symbol (s := .closeParen) nofun)
  obtain ⟨f, hf, he⟩ := h ts hts
  exact ⟨_, hf.emptyCall, congrArg (Expr.call · [] _) he⟩

/-- A row in parentheses behind words is read as a call. -/
theorem call (h : ReadAs 8 ws e) (has : ReadAsRow vs es) {site : CallSite} :
    ReadAs 8 (ws ++ "(" :: (vs ++ [")"])) (.call e es site) := by
  intro ts h₁
  obtain ⟨ts, _, rfl, hts, h₂⟩ := h₁.append
  obtain ⟨q, us, q', rfl, hus⟩ := h₂.bracketed .openParen .closeParen nofun nofun
  obtain ⟨f, hf, he⟩ := h ts hts
  obtain ⟨r, hr, rfl, hes⟩ := has us hus
  exact ⟨_, hf.call hr, congrArg₂ (Expr.call · · _) he hes⟩

/-- Words in brackets behind others are read as an index. -/
theorem index (h : ReadAs 8 ws e) (hi : ReadAs 0 vs f) :
    ReadAs 8 (ws ++ "[" :: (vs ++ ["]"])) (.index e f p) := by
  intro ts h₁
  obtain ⟨ts, _, rfl, hts, h₂⟩ := h₁.append
  obtain ⟨q, us, q', rfl, hus⟩ := h₂.bracketed .openBracket .closeBracket nofun nofun
  obtain ⟨o, ho, he⟩ := h ts hts
  obtain ⟨i, hi, hf⟩ := hi us hus
  exact ⟨_, ho.index hi, congrArg₂ (Expr.index · · _) he hf⟩

/-- The spelling of an operator in front of words is read as the operator with its operand. -/
theorem unary {op : UnaryOp} (hop : op ≠ .complement) (h : ReadAs 7 ws e) :
    ReadAs 7 (op.spelling :: ws) (.unary op e p) := by
  intro ts h₁
  obtain ⟨t, ht, hop⟩ := UnaryOp.exists_spells hop
  obtain ⟨q, ts, rfl, hts⟩ := h₁.cons ht
  obtain ⟨f, hf, he⟩ := h ts hts
  exact ⟨_, .unary hop hf, congrArg (Expr.unary op · _) he⟩

/-- The spelling of an operator between words is read as the operator with both operands. -/
theorem binary {op : BinaryOp} (h : ReadAs op.precedence ws e)
    (hr : ReadAs (op.precedence + 1) vs f) :
    ReadAs op.precedence (ws ++ op.spelling :: vs) (.binary op e f p) := by
  intro ts h₁
  obtain ⟨t, ht, hop⟩ := op.exists_spells
  obtain ⟨ts, _, rfl, hts, h₂⟩ := h₁.append
  obtain ⟨q, us, rfl, hus⟩ := h₂.cons ht
  obtain ⟨l, hl, he⟩ := h ts hts
  obtain ⟨r, hr, hf⟩ := hr us hus
  exact ⟨_, .binary hop hl hr, congrArg₂ (Expr.binary op · · _) he hf⟩

/-- Words with `?` and `:` between them are read as a conditional. -/
theorem conditional (h : ReadAs 1 ws e) (hy : ReadAs 0 vs f) (hn : ReadAs 0 us g) :
    ReadAs 0 (ws ++ "?" :: (vs ++ ":" :: us)) (.conditional e f g p) := by
  intro ts h₁
  obtain ⟨cs, _, rfl, hcs, h₂⟩ := h₁.append
  obtain ⟨q, _, rfl, h₃⟩ := h₂.symbol .question nofun
  obtain ⟨ys, _, rfl, hys, h₄⟩ := h₃.append
  obtain ⟨q', ns, rfl, hns⟩ := h₄.symbol .colon nofun
  obtain ⟨c, hc, he⟩ := h cs hcs
  obtain ⟨y, hy, hf⟩ := hy ys hys
  obtain ⟨n, hn, hg⟩ := hn ns hns
  refine ⟨_, .question hc hy hn, ?_⟩
  rw [Expr.erase, Expr.erase, he, hf, hg]

/-- Parentheses make a phrase of any level. -/
theorem operand {s : Style} (h : ReadAs e.level (e.words s) e) (hn : n ≤ 9) :
    ReadAs n (e.operand s n) e := by
  rw [Expr.operand, enclose]
  split
  · exact (group (h.mono (Nat.zero_le _))).mono hn
  · next hw =>
    -- Without parentheses the tree is tight enough for its place.
    have hlevel : ¬ e.level < n := by
      intro hlt
      rw [Expr.wrapped, decide_eq_true hlt] at hw
      exact hw rfl
    exact h.mono (Nat.le_of_not_lt hlevel)

end ReadAs

namespace ReadAsRow

/-- Words are read as a row of one tree. -/
theorem one (h : ReadAs 0 ws e) : ReadAsRow ws [e] := by
  intro ts hts
  obtain ⟨f, ⟨d, hd, rfl, rfl⟩, he⟩ := h ts hts
  exact ⟨.one d, hd, rfl, congrArg (fun f => [f]) he⟩

/-- A row goes on behind a comma. -/
theorem more (h : ReadAsRow ws es) (he : ReadAs 0 vs e) :
    ReadAsRow (ws ++ "," :: vs) (es ++ [e]) := by
  intro ts h₁
  obtain ⟨ts, _, rfl, hts, h₂⟩ := h₁.append
  obtain ⟨q, us, rfl, hus⟩ := h₂.symbol .comma nofun
  obtain ⟨r, hr, rfl, hes⟩ := h ts hts
  obtain ⟨f, ⟨d, hd, rfl, rfl⟩, hf⟩ := he us hus
  refine ⟨.more r q d, ⟨hr, hd⟩, rfl, ?_⟩
  rw [Row.trees, Expr.eraseAll_append, Expr.eraseAll_append, hes]
  exact congrArg (fun f => Expr.eraseAll es ++ [f]) hf

end ReadAsRow

/-! ## Whole trees -/

namespace Expr

variable {P : Float → Prop} {s : Style}

/-- No operator between operands is as tight as one in front of its operand. -/
theorem precedence_lt (op : BinaryOp) : op.precedence < 7 := by
  cases op <;> decide

mutual

/-- The words of a tree are read as the tree. -/
theorem readAs_words (hs : s.Writes P) : (e : Expr) → e.Surface P → ReadAs e.level (e.words s) e
  | literal (.number x) _, h => .literal (hs x h) rfl
  | literal (.string t) _, h => .literal (spells_string h) rfl
  | literal .none _, _ => .literal (spells_keyword .noneWord) rfl
  | vector [] _, _ => .emptyVector
  | vector (e :: es) _, h =>
    .vector (readAsRow_commaWords hs es h.2 (.one ((readAs_words hs e h.1).operand (by decide))))
  | var x _, h => .var h
  | member o x _, h => .member ((readAs_words hs o h.1).operand (by decide)) h.2
  | index o i _, h =>
    .index ((readAs_words hs o h.1).operand (by decide))
      ((readAs_words hs i h.2).operand (by decide))
  | call f [] _, h => .emptyCall ((readAs_words hs f h.1).operand (by decide))
  | call f (e :: es) _, h =>
    .call ((readAs_words hs f h.1).operand (by decide))
      (readAsRow_commaWords hs es h.2.2
        (.one ((readAs_words hs e h.2.1).operand (by decide))))
  | unary op e _, h => .unary h.1 ((readAs_words hs e h.2).operand (by decide))
  | binary op l r _, h =>
    have hop := precedence_lt op
    .binary ((readAs_words hs l h.1).operand (by omega))
      ((readAs_words hs r h.2).operand (by omega))
  | conditional c y n _, h =>
    .conditional ((readAs_words hs c h.1).operand (by decide))
      ((readAs_words hs y h.2.1).operand (by decide))
      ((readAs_words hs n h.2.2).operand (by decide))

/-- A row goes on with the words of further trees. -/
theorem readAsRow_commaWords (hs : s.Writes P) : (fs : List Expr) → SurfaceAll P fs →
    {ws : List String} → {es : List Expr} → ReadAsRow ws es →
      ReadAsRow (ws ++ commaWords s fs) (es ++ fs)
  | [], _, ws, es, hr => by
    rw [commaWords, List.append_nil, List.append_nil]
    exact hr
  | f :: fs, h, ws, es, hr => by
    have hf := (readAs_words hs f h.1).operand (n := 0) (by decide)
    have hfs := readAsRow_commaWords hs fs h.2 (hr.more hf)
    rw [List.append_assoc, List.append_assoc] at hfs
    exact hfs

end

end Expr

/-! ## Source texts -/

/-- The tokens of a source are spelled in it. -/
theorem Scans.allSpelled {form : Form} {p q : Position} {cs rest : List Char}
    {ts : List (Located Token)} (h : Scans form p cs ts q rest) : AllSpelled ts := by
  induction h with
  | blanks hw => nofun
  | lexeme hw hl hf h ih => exact AllSpelled.cons_iff.2 ⟨⟨_, hl.spells⟩, ih⟩

/-- What is read can stand in a source. -/
theorem surface_of_readExpression {source : String} (h : readExpression source = .ok e) :
    e.Surface Number.IsNonnegative := by
  obtain ⟨ts, hts, he⟩ := readExpression_eq_ok_iff.1 h
  -- The tokens of an accepted source are those of its longest lexemes.
  obtain ⟨q, hs⟩ := exists_scans_of_scan hts
  exact (parseExpression_eq_ok_iff.1 he).surface hs.allSpelled

/-- A printed tree is read back. -/
theorem readExpression_text {P : Float → Prop} {s : Style} (hs : s.Writes P) (h : e.Surface P) :
    ∃ f, readExpression (e.text s) = .ok f ∧ f.erase = e.erase := by
  obtain ⟨ts, htokens, hts⟩ := exists_tokenize_intercalate (e.writable_operand hs h 0)
  obtain ⟨f, hf, he⟩ := (e.readAs_words hs h).operand (Nat.zero_le 9) ts hts
  exact ⟨f, readExpression_eq_ok_iff.2 ⟨ts, htokens, parseExpression_eq_ok_iff.2 hf⟩, he⟩

/-- The display of a finite number is read as that number. -/
theorem writes_display (extra : Expr → Bool) :
    (Style.display extra).Writes fun x => Number.IsNonnegative x ∧ Number.IsFinite x := by
  rintro x ⟨h, hfinite⟩
  have hs := Number.spells_chars h hfinite
  rw [← String.toList_ofList (l := Number.chars x)] at hs
  exact hs

/-- There is a way to write every number that a source can hold. -/
theorem exists_writes : ∃ s : Style, s.Writes Number.IsNonnegative := by
  have hnumeral : ∀ x, ∃ w : String, Number.IsNonnegative x → Spells w.toList (.number x) := by
    intro x
    by_cases hx : Number.IsNonnegative x
    · obtain ⟨w, hw⟩ := Number.exists_spells hx
      rw [← String.toList_ofList (l := w)] at hw
      exact ⟨_, fun _ => hw⟩
    · exact ⟨"", fun h => absurd h hx⟩
  obtain ⟨numeral, hn⟩ := Classical.axiomOfChoice hnumeral
  exact ⟨⟨numeral, fun _ => false⟩, hn⟩

/-- Up to places, the trees that are read are exactly those that can stand in a source, and reading
inverts printing, with the parentheses that are needed and with any others. -/
theorem readExpression_inverts_text :
    (∀ source e, readExpression source = .ok e → e.Surface Number.IsNonnegative) ∧
    (∀ e : Expr, e.Surface Number.IsNonnegative →
      ∃ source f, readExpression source = .ok f ∧ f.erase = e.erase) ∧
    (∀ e : Expr, (e.Surface fun x => Number.IsNonnegative x ∧ Number.IsFinite x) → ∀ extra,
      ∃ f, readExpression (e.text (.display extra)) = .ok f ∧ f.erase = e.erase) := by
  refine ⟨fun source e => surface_of_readExpression, fun e h => ?_, fun e h extra => ?_⟩
  · obtain ⟨s, hs⟩ := exists_writes
    exact ⟨e.text s, readExpression_text hs h⟩
  · exact readExpression_text (writes_display extra) h

/-- A conditional needs parentheses behind a minus sign, and its parts need none. -/
theorem readExpression_negated_conditional :
    ∃ f, readExpression "- ( a ? 'x' : 1.5 )" = .ok f ∧ f.Surface Number.IsNonnegative ∧
      f.erase = .unary .negate
        (.conditional (.var "a" .start) (.literal (.string "x") .start)
          (.literal (.number (Decimal.toFloat ⟨15, 1⟩)) .start) .start) .start := by
  have hname : IsName "a" :=
    ⟨⟨'a', [], rfl, by decide, nofun⟩, fun k => by cases k <;> decide⟩
  have hquote : '\'' ∉ "x".toList := by decide
  have hfinite : Number.IsFinite (Decimal.toFloat ⟨15, 1⟩) := by
    unfold Number.IsFinite
    trivial
  obtain ⟨f, hf, he⟩ := readExpression_inverts_text.2.2
    (.unary .negate
      (.conditional (.var "a" .start) (.literal (.string "x") .start)
        (.literal (.number (Decimal.toFloat ⟨15, 1⟩)) .start) .start) .start)
    ⟨nofun, hname, hquote, Number.isNonnegative_toFloat _, hfinite⟩ fun _ => false
  exact ⟨f, hf, readExpression_inverts_text.1 _ f hf, he⟩

end MapExpr
