import MapExpr.Number
import MapExpr.Position

/-!
# Tokens

A source text is read as a sequence of tokens: numbers, strings, words and punctuation. Five words
are kept as keywords, whatever the case of their letters; every other word is an identifier. The
text of a token is how messages name it.
-/

namespace MapExpr

/-- The words that the language keeps for itself. -/
inductive Keyword where
  | noneWord
  | andWord
  | orWord
  | ifWord
  | elseWord
deriving DecidableEq

namespace Keyword

/-- All keywords. -/
def all : List Keyword := [noneWord, andWord, orWord, ifWord, elseWord]

/-- The keyword in small letters. -/
def spelling : Keyword → String
  | noneWord => "none"
  | andWord => "and"
  | orWord => "or"
  | ifWord => "if"
  | elseWord => "else"

end Keyword

/-- Punctuation and the operators that are not spelled as words. -/
inductive Symbol where
  | dot
  | comma
  | openParen
  | closeParen
  | openBracket
  | closeBracket
  | question
  | colon
  | semicolon
  | assign
  | plus
  | minus
  | star
  | slash
  | percent
  | bang
  | equal
  | notEqual
  | greater
  | greaterEqual
  | less
  | lessEqual
  | doubleAmpersand
  | doubleBar
  /-- The end of a line. It only moves the place forward, so the tokens of a source never hold it;
  a list of tokens that is made by hand may. -/
  | lineBreak
deriving DecidableEq

namespace Symbol

/-- The characters of a symbol. -/
def spelling : Symbol → String
  | dot => "."
  | comma => ","
  | openParen => "("
  | closeParen => ")"
  | openBracket => "["
  | closeBracket => "]"
  | question => "?"
  | colon => ":"
  | semicolon => ";"
  | assign => "="
  | plus => "+"
  | minus => "-"
  | star => "*"
  | slash => "/"
  | percent => "%"
  | bang => "!"
  | equal => "=="
  | notEqual => "!="
  | greater => ">"
  | greaterEqual => ">="
  | less => "<"
  | lessEqual => "<="
  | doubleAmpersand => "&&"
  | doubleBar => "||"
  | lineBreak => "\n"

/-- All symbols that the tokens of a source hold, those of two characters first. -/
def longestFirst : List Symbol :=
  [equal, notEqual, greaterEqual, lessEqual, doubleAmpersand, doubleBar,
   dot, comma, openParen, closeParen, openBracket, closeBracket, question, colon, semicolon,
   assign, plus, minus, star, slash, percent, bang, greater, less]

/-- Every symbol but the line break can be a token of a source. -/
theorem mem_longestFirst {s : Symbol} : s ∈ longestFirst ↔ s ≠ lineBreak := by
  cases s <;> decide

end Symbol

/-- The smallest meaningful unit of a source text. -/
inductive Token where
  | number (x : Float)
  /-- Text between quotes, without them. -/
  | string (s : String)
  | identifier (name : String)
  | keyword (k : Keyword)
  | symbol (s : Symbol)
deriving DecidableEq

/-- The token as messages name it. -/
def Token.text : Token → String
  | number x => "'" ++ Number.text x ++ "'"
  | string s => "string '" ++ s ++ "'"
  | identifier name => "identifier '" ++ name ++ "'"
  | keyword k => "'" ++ k.spelling ++ "'"
  | symbol .lineBreak => "line break"
  | symbol s => "'" ++ s.spelling ++ "'"

end MapExpr
