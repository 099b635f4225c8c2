import MapExpr.Proofs.Lexing.Scan
import MapExpr.Proofs.Printing.Surface
import Mathlib.Data.List.Forall2

/-!
# Printing a tree

`Expr.text` prints a tree as words with one blank between them. An operand is put in parentheses if
its level is below the one that the grammar asks for at its place (see `Phrase.Fits`), and wherever
the style asks for more of them: with `fun _ => false` there are only the parentheses that are
needed, and with `fun _ => true` there are some around every operand.

Every word of a tree that can stand in a source is the spelling of a token (`writable_operand`).
-/

namespace MapExpr

/-- How a tree is printed. -/
structure Style where
  /-- How a number is written. -/
  numeral : Float → String
  /-- Which operands get parentheses that they do not need. -/
  extra : Expr → Bool

/-- Numbers are written as they are displayed. -/
def Style.display (extra : Expr → Bool) : Style := ⟨Number.text, extra⟩

/-- The words, with parentheses around them or not. -/
def enclose (inside : Bool) (ws : List String) : List String :=
  if inside then "(" :: (ws ++ [")"]) else ws

namespace Expr

/-- The highest level of the grammar at which the tree is a phrase without parentheses. -/
def level : Expr → Nat
  | literal _ _ | vector _ _ | var _ _ => 9
  | member _ _ _ | index _ _ _ | call _ _ _ => 8
  | unary _ _ _ => 7
  | binary op _ _ _ => op.precedence
  | conditional _ _ _ _ => 0

/-- Whether the tree gets parentheses at a place of level `n`. -/
def wrapped (s : Style) (n : Nat) (e : Expr) : Bool :=
  decide (e.level < n) || s.extra e

mutual

/-- The words of a tree. -/
def words (s : Style) : Expr → List String
  | literal (.number x) _ => [s.numeral x]
  | literal (.string t) _ => ["'" ++ t ++ "'"]
  | literal .none _ => ["none"]
  | vector es _ => "[" :: ((commaWords s es).tail ++ ["]"])
  | var x _ => [x]
  | member o x _ => enclose (o.wrapped s 8) (o.words s) ++ [".", x]
  | index o i _ =>
    enclose (o.wrapped s 8) (o.words s) ++ "[" :: (enclose (i.wrapped s 0) (i.words s) ++ ["]"])
  | call f as _ => enclose (f.wrapped s 8) (f.words s) ++ "(" :: ((commaWords s as).tail ++ [")"])
  | unary op e _ => op.spelling :: enclose (e.wrapped s 7) (e.words s)
  | binary op l r _ =>
    enclose (l.wrapped s op.precedence) (l.words s) ++
      op.spelling :: enclose (r.wrapped s (op.precedence + 1)) (r.words s)
  | conditional c y n _ =>
    enclose (c.wrapped s 1) (c.words s) ++ "?" :: (enclose (y.wrapped s 0) (y.words s) ++
      ":" :: enclose (n.wrapped s 0) (n.words s))

/-- The words of several trees, each with a comma in front. -/
def commaWords (s : Style) : List Expr → List String
  | [] => []
  | e :: es => "," :: (enclose (e.wrapped s 0) (e.words s) ++ commaWords s es)

end

/-- The words of a tree at a place of level `n`. -/
def operand (s : Style) (n : Nat) (e : Expr) : List String :=
  enclose (e.wrapped s n) (e.words s)

/-- The tree as a source text. -/
def text (s : Style) (e : Expr) : String :=
  " ".intercalate (e.operand s 0)

example (p : Position) : (binary .multiply (var "a" p) (binary .add (var "b" p) (var "c" p) p)
    p).text (.display fun _ => false) = "a * ( b + c )" := rfl

end Expr

/-! ## Words are tokens -/

/-- The word is the spelling of a token that an expression may hold. -/
def Writable (w : String) : Prop := ∃ t, Spells w.toList t ∧ t ≠ .symbol .assign

/-- Every symbol can be written but the line break and the assignment sign. -/
theorem writable_symbol {s : Symbol} (h : s ≠ .lineBreak) (hs : s ≠ .assign) :
    Writable s.spelling :=
  ⟨.symbol s, .symbol h, fun ht => hs (Token.symbol.inj ht)⟩

/-- A character that begins a word and others that go on with it are a word. -/
theorem isWord_of_all {c : Char} {cs : List Char} (hc : Lexeme.isWordStart c = true)
    (h : cs.all Lexeme.isWordChar = true) : IsWord (c :: cs) :=
  ⟨c, cs, rfl, Lexeme.isWordStart_iff.1 hc, fun d hd =>
    Lexeme.isWordChar_iff.1 (List.all_eq_true.1 h d hd)⟩

/-- A keyword is spelled in small letters. -/
theorem spells_keyword (k : Keyword) : Spells k.spelling.toList (.keyword k) := by
  cases k <;> exact .keyword (isWord_of_all rfl rfl) rfl

/-- A string without a quote in it is spelled between quotes. -/
theorem spells_string {s : String} (h : '\'' ∉ s.toList) :
    Spells ("'" ++ s ++ "'").toList (.string s) := by
  have hs := Spells.string h
  rw [String.ofList_toList] at hs
  rw [String.toList_append, String.toList_append]
  exact hs

/-- An operator is spelled as a token that is read as that operator. -/
theorem BinaryOp.exists_spells (op : BinaryOp) :
    ∃ t, Spells op.spelling.toList t ∧ t.binaryOp? = some op := by
  have symbol {s : Symbol} (h : s ≠ .lineBreak) := Spells.symbol h
  cases op with
  | add => exact ⟨_, symbol (s := .plus) nofun, rfl⟩
  | subtract => exact ⟨_, symbol (s := .minus) nofun, rfl⟩
  | multiply => exact ⟨_, symbol (s := .star) nofun, rfl⟩
  | divide => exact ⟨_, symbol (s := .slash) nofun, rfl⟩
  | remainder => exact ⟨_, symbol (s := .percent) nofun, rfl⟩
  | equal => exact ⟨_, symbol (s := .equal) nofun, rfl⟩
  | notEqual => exact ⟨_, symbol (s := .notEqual) nofun, rfl⟩
  | greater => exact ⟨_, symbol (s := .greater) nofun, rfl⟩
  | greaterEqual => exact ⟨_, symbol (s := .greaterEqual) nofun, rfl⟩
  | less => exact ⟨_, symbol (s := .less) nofun, rfl⟩
  | lessEqual => exact ⟨_, symbol (s := .lessEqual) nofun, rfl⟩
  | and => exact ⟨_, spells_keyword .andWord, rfl⟩
  | or => exact ⟨_, spells_keyword .orWord, rfl⟩

/-- Every operator in front of its operand has a token but the complement. -/
theorem UnaryOp.exists_spells {op : UnaryOp} (h : op ≠ .complement) :
    ∃ t, Spells op.spelling.toList t ∧ t.unaryOp? = some op := by
  cases op with
  | negate => exact ⟨_, Spells.symbol (s := .minus) nofun, rfl⟩
  | logicalNot => exact ⟨_, Spells.symbol (s := .bang) nofun, rfl⟩
  | complement => exact absurd rfl h

/-- Every operator between operands can be written. -/
theorem BinaryOp.writable (op : BinaryOp) : Writable op.spelling := by
  obtain ⟨t, ht, hop⟩ := op.exists_spells
  exact ⟨t, ht, by rintro rfl; cases hop⟩

/-- Every operator in front of its operand can be written but the complement. -/
theorem UnaryOp.writable {op : UnaryOp} (h : op ≠ .complement) : Writable op.spelling := by
  obtain ⟨t, ht, hop⟩ := exists_spells h
  exact ⟨t, ht, by rintro rfl; cases hop⟩

/-- A name can be written. -/
theorem IsName.writable {x : String} (h : IsName x) : Writable x := ⟨_, h.spells, nofun⟩

/-- All these words are writable. -/
def AllWritable (ws : List String) : Prop := ∀ w ∈ ws, Writable w

namespace AllWritable

variable {w : String} {ws vs : List String}

/-- A writable word is a list of writable words. -/
theorem singleton (h : Writable w) : AllWritable [w] := List.forall_mem_singleton.2 h

/-- Writable words can be put behind one another. -/
theorem append (h : AllWritable ws) (hv : AllWritable vs) : AllWritable (ws ++ vs) :=
  List.forall_mem_append.2 ⟨h, hv⟩

/-- A writable word can be put in front of others. -/
theorem cons (h : Writable w) (hws : AllWritable ws) : AllWritable (w :: ws) :=
  List.forall_mem_cons.2 ⟨h, hws⟩

/-- Writable words are writable without the first one. -/
theorem tail (h : AllWritable ws) : AllWritable ws.tail := fun w hw => h w (List.mem_of_mem_tail hw)

/-- Words with a symbol in front. -/
theorem cons_symbol (s : Symbol) (h : s ≠ .lineBreak ∧ s ≠ .assign) (hws : AllWritable ws) :
    AllWritable (s.spelling :: ws) :=
  cons (writable_symbol h.1 h.2) hws

/-- Parentheses can be written. -/
theorem enclose {inside : Bool} (h : AllWritable ws) : AllWritable (enclose inside ws) := by
  cases inside with
  | false => exact h
  | true =>
    exact cons_symbol .openParen (by decide) (h.append (cons_symbol .closeParen (by decide) nofun))

end AllWritable

/-- The style writes the numbers in `P` as they are read. -/
def Style.Writes (s : Style) (P : Float → Prop) : Prop :=
  ∀ x, P x → Spells (s.numeral x).toList (.number x)

namespace Expr

variable {P : Float → Prop} {s : Style}

mutual

/-- The words of a tree that can stand in a source are tokens. -/
theorem writable_words (hs : s.Writes P) : (e : Expr) → e.Surface P → AllWritable (e.words s)
  | literal (.number x) _, h => .singleton ⟨_, hs x h, nofun⟩
  | literal (.string t) _, h => .singleton ⟨_, spells_string h, nofun⟩
  | literal .none _, _ => .singleton ⟨_, spells_keyword .noneWord, nofun⟩
  | vector es _, h =>
    .cons_symbol .openBracket (by decide) <| .append (writable_commaWords hs es h).tail <|
      .cons_symbol .closeBracket (by decide) nofun
  | var x _, h => .singleton h.writable
  | member o x _, h =>
    .append (writable_words hs o h.1).enclose <| .cons_symbol .dot (by decide) <|
      .singleton h.2.writable
  | index o i _, h =>
    .append (writable_words hs o h.1).enclose <| .cons_symbol .openBracket (by decide) <|
      .append (writable_words hs i h.2).enclose <| .cons_symbol .closeBracket (by decide) nofun
  | call f as _, h =>
    .append (writable_words hs f h.1).enclose <| .cons_symbol .openParen (by decide) <|
      .append (writable_commaWords hs as h.2).tail <| .cons_symbol .closeParen (by decide) nofun
  | unary op e _, h => .cons (UnaryOp.writable h.1) (writable_words hs e h.2).enclose
  | binary op l r _, h =>
    .append (writable_words hs l h.1).enclose <|
      .cons op.writable (writable_words hs r h.2).enclose
  | conditional c y n _, h =>
    .append (writable_words hs c h.1).enclose <| .cons_symbol .question (by decide) <|
      .append (writable_words hs y h.2.1).enclose <| .cons_symbol .colon (by decide)
        (writable_words hs n h.2.2).enclose

/-- Trees that a source can hold are written with commas in writable words. -/
theorem writable_commaWords (hs : s.Writes P) : (es : List Expr) → SurfaceAll P es →
    AllWritable (commaWords s es)
  | [], _ => nofun
  | e :: es, h =>
    .cons_symbol .comma (by decide) <| .append (writable_words hs e h.1).enclose
      (writable_commaWords hs es h.2)

end

/-- An operand that a source can hold is written in writable words. -/
theorem writable_operand (hs : s.Writes P) {e : Expr} (h : e.Surface P) (n : Nat) :
    AllWritable (e.operand s n) :=
  (writable_words hs e h).enclose

end Expr

/-! ## Words with blanks between them are scanned one by one

A word that spells a token and has a blank behind it is the longest lexeme at its place, so a
printed text is scanned into the tokens of its words (`exists_tokenize_intercalate`).
-/

/-- The tokens are spelled as the words, one for each. -/
def Spelled (ws : List String) (ts : List (Located Token)) : Prop :=
  List.Forall₂ (fun w t => Spells w.toList t.value) ws ts

/-- The text of some words, each with a blank in front. -/
def blankWords (ws : List String) : List Char :=
  ws.flatMap fun w => ' ' :: w.toList

/-- Behind a word there is a blank, or nothing. -/
theorem head?_blankWords (ws : List String) : ∀ c ∈ (blankWords ws).head?, c ∈ separators := by
  cases ws with
  | nil => nofun
  | cons w ws =>
    rintro c ⟨⟩
    exact mem_separators_of_mem_blanks List.mem_cons_self

/-- Words joined by blanks are the first one and then the others, each behind a blank. -/
theorem toList_intercalate_cons (w : String) (ws : List String) :
    (" ".intercalate (w :: ws)).toList = w.toList ++ blankWords ws := by
  rw [String.toList_intercalate]
  induction ws generalizing w with
  | nil => simp [blankWords]
  | cons v ws ih =>
    rw [List.map_cons, List.map_cons, List.intercalate_cons_cons, ← List.map_cons, ih v,
      List.append_assoc]
    rfl

/-- Words are scanned one by one, whatever blanks are in front of the first one. -/
theorem exists_scans_blankWords {lead : List Char} (hlead : ∀ c ∈ lead, c ∈ blanks) {w : String}
    {ws : List String} (h : AllWritable (w :: ws)) (p : Position) :
    ∃ ts q, Scans .expression p (lead ++ (w.toList ++ blankWords ws)) ts q [] ∧
      Spelled (w :: ws) ts := by
  induction ws generalizing lead w p with
  | nil =>
    obtain ⟨t, ht, hassign⟩ := h w List.mem_cons_self
    have hl := ht.longest (head?_blankWords [])
    exact ⟨_, _, .lexeme hlead hl (.inr hassign) .nil, .cons ht .nil⟩
  | cons v ws ih =>
    obtain ⟨t, ht, hassign⟩ := h w List.mem_cons_self
    have hl := ht.longest (head?_blankWords (v :: ws))
    have hblank : ∀ c ∈ [' '], c ∈ blanks := List.forall_mem_singleton.2 List.mem_cons_self
    obtain ⟨ts, q, hs, hts⟩ := ih hblank (fun u hu => h u (List.mem_cons_of_mem w hu))
      (p.after (lead ++ w.toList))
    exact ⟨_, q, .lexeme hlead hl (.inr hassign) hs, .cons ht hts⟩

/-- A printed text is scanned into the tokens of its words. -/
theorem exists_tokenize_intercalate {ws : List String} (h : AllWritable ws) :
    ∃ ts, tokenize .expression (" ".intercalate ws) = .ok ts ∧ Spelled ws ts := by
  cases ws with
  | nil => exact ⟨[], scan_of_scans_nil .nil, .nil⟩
  | cons w ws =>
    have hlead : ∀ c ∈ ([] : List Char), c ∈ blanks := nofun
    obtain ⟨ts, q, hs, hts⟩ := exists_scans_blankWords hlead h .start
    refine ⟨ts, ?_, hts⟩
    rw [tokenize, toList_intercalate_cons]
    exact scan_of_scans_nil hs

end MapExpr
