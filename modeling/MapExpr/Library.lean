/-!
# Functions and methods of the language

Which functions the library has and which methods vectors and strings have, each with the name under
which it complains and the number of arguments that it takes.
-/

namespace MapExpr

/-! ## How many arguments a function takes

Every function and every method declares under which name it complains and how many arguments it
accepts; the receiver of a method is not counted.
-/

/-- The numbers of arguments that are accepted. -/
inductive Arity where
  | exact (n : Nat)
  | atLeast (n : Nat)
  | oneOf (ns : List Nat)
deriving DecidableEq

namespace Arity

/-- Whether `n` arguments are accepted. -/
def accepts : Arity → Nat → Bool
  | exact m, n => n = m
  | atLeast m, n => m ≤ n
  | oneOf ms, n => ms.contains n

/-- The wording of an arity. -/
def text : Arity → String
  | exact n => toString n
  | atLeast n => "at least " ++ toString n
  | oneOf ns => " or ".intercalate (ns.map toString)

end Arity

/-- What a function or a method declares about itself. -/
structure Signature where
  name : String
  arity : Arity
deriving DecidableEq

/-! ## The function library

The functions that a context offers to its expressions unless it is told otherwise: rounding,
trigonometry, interpolation, conversions and assertions.
-/

/-- A function of the library. -/
inductive LibraryFunction where
  | abs
  | floor
  | ceil
  | round
  | trunc
  | sqrt
  | sin
  | cos
  | tan
  | radians
  | degrees
  | sign
  | atan2
  | lerp
  | min
  | max
  | clamp
  | vec
  | len
  | str
  | num
  | assert
deriving DecidableEq

namespace LibraryFunction

/-- All functions of the library. -/
def all : List LibraryFunction :=
  [abs, floor, ceil, round, trunc, sqrt, sin, cos, tan, radians, degrees, sign, atan2, lerp, min,
   max, clamp, vec, len, str, num, assert]

/-- The list of functions is complete. -/
theorem mem_all (f : LibraryFunction) : f ∈ all := by
  cases f <;> decide

/-- The name under which a function is called. -/
def name : LibraryFunction → String
  | abs => "abs"
  | floor => "floor"
  | ceil => "ceil"
  | round => "round"
  | trunc => "trunc"
  | sqrt => "sqrt"
  | sin => "sin"
  | cos => "cos"
  | tan => "tan"
  | radians => "radians"
  | degrees => "degrees"
  | sign => "sign"
  | atan2 => "atan2"
  | lerp => "lerp"
  | min => "min"
  | max => "max"
  | clamp => "clamp"
  | vec => "vec"
  | len => "len"
  | str => "str"
  | num => "num"
  | assert => "assert"

/-- How many arguments a function takes. -/
def arity : LibraryFunction → Arity
  | atan2 => .exact 2
  | lerp | clamp => .exact 3
  | min | max | vec => .atLeast 1
  | _ => .exact 1

/-- The declaration of a function. -/
def signature (f : LibraryFunction) : Signature := ⟨f.name, f.arity⟩

/-- The function of a name. -/
def ofName? (name : String) : Option LibraryFunction :=
  all.find? fun f => f.name = name

/-- A function is found under its own name. -/
theorem ofName?_name (f : LibraryFunction) : ofName? f.name = some f := by
  cases f <;> decide

/-- What is found under a name has this name. -/
theorem name_of_ofName? {name : String} {f : LibraryFunction} (h : ofName? name = some f) :
    f.name = name := by
  simpa using List.find?_some h

end LibraryFunction

/-! ## Methods of vectors and strings

What can be called on a vector or on a string, apart from the properties that are read without a
call.
-/

/-- A method of vectors. -/
inductive VectorMethod where
  | normalized
  | dot
deriving DecidableEq

/-- The declaration of a method of vectors. -/
def VectorMethod.signature : VectorMethod → Signature
  | normalized => ⟨"normalized", .exact 0⟩
  | dot => ⟨"dot", .exact 1⟩

/-- A method of strings. -/
inductive StringMethod where
  | upper
  | lower
  | trim
  | contains
  | startsWith
  | endsWith
  | replace
  | substr
deriving DecidableEq

/-- The declaration of a method of strings. -/
def StringMethod.signature : StringMethod → Signature
  | upper => ⟨"upper", .exact 0⟩
  | lower => ⟨"lower", .exact 0⟩
  | trim => ⟨"trim", .exact 0⟩
  | contains => ⟨"contains", .exact 1⟩
  | startsWith => ⟨"startswith", .exact 1⟩
  | endsWith => ⟨"endswith", .exact 1⟩
  | replace => ⟨"replace", .exact 2⟩
  | substr => ⟨"substr", .oneOf [1, 2]⟩

end MapExpr
