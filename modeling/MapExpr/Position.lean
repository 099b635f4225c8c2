/-!
# Source positions

A `Position` is a place in a source text. It is moved one character at a time, so the position of
any token follows from the characters in front of it: `Position.after` reads a whole run, and
`after_append` says that two runs read one after the other are read like their concatenation.
-/

namespace MapExpr

/-- A place in a source text: the line, counted from 1, and the number of characters that stand
before the place in that line. -/
structure Position where
  line : Nat
  offset : Nat
deriving DecidableEq, Inhabited

namespace Position

/-- The beginning of every source. -/
def start : Position := ⟨1, 0⟩

/-- The place behind one character: a line break opens the next line, any other character moves
forward in the same line. -/
def next (p : Position) (c : Char) : Position :=
  if c = '\n' then ⟨p.line + 1, 0⟩ else ⟨p.line, p.offset + 1⟩

/-- The place behind a run of characters. -/
def after (p : Position) (cs : List Char) : Position :=
  cs.foldl next p

@[simp] theorem after_nil (p : Position) : p.after [] = p := rfl

@[simp] theorem after_cons (p : Position) (c : Char) (cs : List Char) :
    p.after (c :: cs) = (p.next c).after cs := rfl

/-- The place behind two runs is the place behind the second one, read from behind the first. -/
theorem after_append (p : Position) (cs ds : List Char) :
    p.after (cs ++ ds) = (p.after cs).after ds := by
  simp [after]

/-- The place as error messages name it. -/
def text (p : Position) : String :=
  "line " ++ toString p.line ++ ", offset " ++ toString p.offset

end Position

/-- Something found at a place of the source. -/
structure Located (α : Type) where
  value : α
  position : Position
deriving DecidableEq

/-! ## Call sites

The place of a call is what its faults report. It does not always tell two calls apart: the calls of
a parsed source stand at different places, but a tree that is built by hand may put several calls at
one place. A `CallSite` therefore also holds how the call is reached in its tree, which is left
empty in parsed trees.
-/

/-- A call of an expression. -/
structure CallSite where
  position : Position
  /-- The way from the call up to the root: which child every node on it is. -/
  path : List Nat
deriving DecidableEq

/-- The call at a place of a source text. -/
def CallSite.ofPosition (p : Position) : CallSite := ⟨p, []⟩

end MapExpr
