import MapExpr.Token

/-!
# From source text to tokens

`tokenize` cuts a source into its tokens, each with the place of its first character, or reports the
first place at which no token begins. A source is either one expression or a batch of assignments;
only a batch knows the lone `=`.
-/

namespace MapExpr

/-! ## Lexemes

`Lexeme.first?` finds the token that a text begins with, taking as many characters as the token can
have: a numeral runs on through all its digits and, if a digit follows the point, through its
fraction; a word through all its letters, digits and underscores; a string to the next quote, across
line breaks; and a symbol of two characters goes before one of a single character.
-/

/-- A token together with the characters that it was read from. -/
structure Lexeme where
  token : Token
  chars : List Char

namespace Lexeme

/-- Characters that may stand between tokens. -/
def isBlank (c : Char) : Bool :=
  c = ' ' || c = '\t' || c = '\r' || c = '\x0c' || c = '\n'

/-- Characters that may begin a word. -/
def isWordStart (c : Char) : Bool := c.isAlpha || c = '_'

/-- Characters that may stand inside a word. -/
def isWordChar (c : Char) : Bool := c.isAlphanum || c = '_'

/-- The numeral that a text begins with. A point belongs to it only in front of a digit. -/
def numeral (cs : List Char) : Lexeme :=
  let whole := cs.takeWhile Char.isDigit
  match cs.dropWhile Char.isDigit with
  | '.' :: d :: ds =>
    if d.isDigit then
      let fraction := (d :: ds).takeWhile Char.isDigit
      ⟨.number (Decimal.ofDigits whole fraction).toFloat, whole ++ '.' :: fraction⟩
    else ⟨.number (Decimal.ofDigits whole []).toFloat, whole⟩
  | _ => ⟨.number (Decimal.ofDigits whole []).toFloat, whole⟩

/-- The string whose opening quote stood before the text, if another quote closes it. -/
def quoted? (cs : List Char) : Option Lexeme :=
  let body := cs.takeWhile (· ≠ '\'')
  match cs.dropWhile (· ≠ '\'') with
  | [] => none
  | _ :: _ => some ⟨.string (String.ofList body), '\'' :: (body ++ ['\''])⟩

/-- The keyword that a word spells, if it is one; the case of its letters does not matter. -/
def keyword? (cs : List Char) : Option Keyword :=
  Keyword.all.find? fun k => k.spelling.toList = cs.map Char.toLower

/-- The word that a text begins with. -/
def word (cs : List Char) : Lexeme :=
  let w := cs.takeWhile isWordChar
  match keyword? w with
  | some k => ⟨.keyword k, w⟩
  | none => ⟨.identifier (String.ofList w), w⟩

/-- The symbol that a text begins with. -/
def symbol? (cs : List Char) : Option Lexeme :=
  (Symbol.longestFirst.find? fun s => s.spelling.toList.isPrefixOf cs).map fun s =>
    ⟨.symbol s, s.spelling.toList⟩

/-- The longest lexeme that a text begins with. -/
def first? : List Char → Option Lexeme
  | [] => none
  | c :: cs =>
    if c.isDigit then some (numeral (c :: cs))
    else if isWordStart c then some (word (c :: cs))
    else if c = '\'' then quoted? cs
    else symbol? (c :: cs)

end Lexeme

/-! ## Scanning -/

/-- What a source text is read as. -/
inductive Form where
  /-- A single expression. -/
  | expression
  /-- Entries `name = expression;`, one after the other. -/
  | batch
deriving DecidableEq

/-- Why no token begins at a place. -/
inductive LexFault where
  /-- A string is opened and not closed. -/
  | unterminatedString
  /-- The first half of an operator that is written with the character doubled. -/
  | incompleteOperator (found : Char)
  /-- A character that begins no token. -/
  | unexpectedCharacter (found : Char)
deriving DecidableEq

/-- The wording of a fault. -/
def LexFault.message : LexFault → String
  | unterminatedString => "Unterminated string literal."
  | incompleteOperator c =>
    "Incomplete operator '" ++ c.toString ++ "', expected '" ++ c.toString ++ c.toString ++ "'."
  | unexpectedCharacter c => "Unexpected character '" ++ c.toString ++ "'."

/-- The fault at a character that begins no token. -/
def LexFault.ofChar (c : Char) : LexFault :=
  if c = '\'' then unterminatedString
  else if c = '=' ∨ c = '&' ∨ c = '|' then incompleteOperator c
  else unexpectedCharacter c

/-- The lexeme that a source of the given form begins with: an expression knows no assignment. -/
def Lexeme.firstIn? (form : Form) (cs : List Char) : Option Lexeme :=
  (Lexeme.first? cs).filter fun l => form = .batch || l.token ≠ .symbol .assign

/-- The tokens of the characters that begin at the place `p`. -/
def scan (form : Form) (p : Position) :
    List Char → Except (Located LexFault) (List (Located Token))
  | [] => .ok []
  | c :: cs =>
    if Lexeme.isBlank c then scan form (p.next c) cs
    else
      match Lexeme.firstIn? form (c :: cs) with
      | none => .error ⟨.ofChar c, p⟩
      | some l =>
        match scan form (p.after l.chars) (cs.drop (l.chars.length - 1)) with
        | .ok ts => .ok (⟨l.token, p⟩ :: ts)
        | .error e => .error e
termination_by cs => cs.length
decreasing_by all_goals simp; try omega

/-- The tokens of a source text, with their places. -/
def tokenize (form : Form) (source : String) :
    Except (Located LexFault) (List (Located Token)) :=
  scan form .start source.toList

/-- Whether a text holds exactly one identifier, so that a variable can be bound and used under
it. -/
def isIdentifier (name : String) : Bool :=
  match tokenize .expression name with
  | .ok [⟨.identifier _, _⟩] => true
  | _ => false

/-! ## Keeping lines by byte offsets

A scanner that goes through the bytes of a source knows where it is as a byte offset. To name places
by line and character it keeps a `LineMark`, the number of the line it is in and the byte offset at
which that line begins. Line breaks move the mark on, those between tokens one by one and those
inside of a string all at once. The offset of a place is the number of characters, not bytes,
between the beginning of its line and the place.

`tokenizeByLines` names its places in this way.
-/

/-- The number of bytes of a text. -/
def byteLength : List Char → Nat
  | [] => 0
  | c :: cs => c.utf8Size + byteLength cs

/-- The text without its first `n` bytes, if a character ends there. -/
def dropBytes? : Nat → List Char → Option (List Char)
  | 0, cs => some cs
  | _ + 1, [] => none
  | n + 1, c :: cs => if c.utf8Size ≤ n + 1 then dropBytes? (n + 1 - c.utf8Size) cs else none

/-- The first `n` bytes of a text, if a character ends there. -/
def takeBytes? : Nat → List Char → Option (List Char)
  | 0, _ => some []
  | _ + 1, [] => none
  | n + 1, c :: cs =>
    if c.utf8Size ≤ n + 1 then (takeBytes? (n + 1 - c.utf8Size) cs).map (c :: ·) else none

/-- The characters from the byte offset `a` up to the byte offset `b`, if both are boundaries of
characters. -/
def bytesBetween? (cs : List Char) (a b : Nat) : Option (List Char) :=
  if a ≤ b then (dropBytes? a cs).bind (takeBytes? (b - a)) else none

/-- The byte offset of the last line break of a text. -/
def lastLineBreak? : List Char → Option Nat
  | [] => none
  | c :: cs =>
    match lastLineBreak? cs with
    | some n => some (c.utf8Size + n)
    | none => if c = '\n' then some 0 else none

/-- The line that a scanner is in. -/
structure LineMark where
  /-- Lines are counted from 1. -/
  line : Nat
  /-- The byte offset of the first character of the line. -/
  lineStart : Nat

namespace LineMark

/-- The first line. -/
def first : LineMark := ⟨1, 0⟩

/-- The line that begins at the byte offset, behind a line break. -/
def newLine (m : LineMark) (offset : Nat) : LineMark := ⟨m.line + 1, offset⟩

/-- The line in which a text ends that begins at a byte offset of the line. -/
def skipLines (m : LineMark) (text : List Char) (textStart : Nat) : LineMark :=
  match lastLineBreak? text with
  | some n => ⟨m.line + text.count '\n', textStart + n + 1⟩
  | none => m

/-- The line behind a token that begins at a byte offset of the line: only strings hold line
breaks. -/
def skipToken (m : LineMark) (t : Token) (offset : Nat) : LineMark :=
  match t with
  | .string s => m.skipLines s.toList (offset + 1)
  | _ => m

/-- The place of a byte offset of the line. -/
def positionOf (m : LineMark) (source : List Char) (offset : Nat) : Position :=
  ⟨m.line, ((bytesBetween? source m.lineStart offset).map List.length).getD 0⟩

end LineMark

/-- The tokens of the characters that begin at a byte offset of the source, in the given line. -/
def scanByLines (form : Form) (source : List Char) (m : LineMark) (offset : Nat) :
    List Char → Except (Located LexFault) (List (Located Token))
  | [] => .ok []
  | c :: cs =>
    if c = '\n' then scanByLines form source (m.newLine (offset + 1)) (offset + 1) cs
    else if Lexeme.isBlank c then scanByLines form source m (offset + c.utf8Size) cs
    else
      match Lexeme.firstIn? form (c :: cs) with
      | none => .error ⟨.ofChar c, m.positionOf source offset⟩
      | some l =>
        match scanByLines form source (m.skipToken l.token offset) (offset + byteLength l.chars)
            (cs.drop (l.chars.length - 1)) with
        | .ok ts => .ok (⟨l.token, m.positionOf source offset⟩ :: ts)
        | .error e => .error e
termination_by cs => cs.length
decreasing_by all_goals simp; try omega

/-- The tokens of a source text, their places counted by lines. -/
def tokenizeByLines (form : Form) (source : String) :
    Except (Located LexFault) (List (Located Token)) :=
  scanByLines form source.toList .first 0 source.toList

end MapExpr
