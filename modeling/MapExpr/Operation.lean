import MapExpr.Text
import MapExpr.Text.Casing
import MapExpr.Value.Read

/-!
# What operators, functions and methods do

The operators of the language, the functions of its library and the methods of vectors and strings,
once their operands, arguments and receivers are known.
-/

namespace MapExpr

/-! ## Operators on values

What the operators do once their operands are known. Arithmetic and the four relations between
numbers want two numbers, and the left operand is looked at first; any two values can be compared
for equality. The logical operators return one of their operands. How much of an expression is
evaluated before an operator is applied is another matter.
-/

section Operation

variable {H : Host}

/-- The value of an operator with one operand. -/
def UnaryOp.apply (op : UnaryOp) (v : Value H) (p : Position) : Evaluated (Value H) := do
  match op with
  | negate => return .number (-(← v.asNumber p))
  | logicalNot => return .ofBool (!v.isTrue)
  | complement =>
    let n ← Number.asInt (← v.asNumber p) p
    return .number (← Number.exactly (-n - 1) p)

namespace BinaryOp

/-- What an arithmetic operator makes of two numbers. -/
def arithmetic? : BinaryOp → Option (Float → Float → Float)
  | add => some fun x y => x + y
  | subtract => some fun x y => x - y
  | multiply => some fun x y => x * y
  | divide => some fun x y => x / y
  | remainder => some Number.remainder
  | _ => none

/-- What a relation between numbers says of two of them. -/
def relation? : BinaryOp → Option (Float → Float → Bool)
  | greater => some fun x y => x > y
  | greaterEqual => some fun x y => x ≥ y
  | less => some fun x y => x < y
  | lessEqual => some fun x y => x ≤ y
  | _ => none

/-- The value of an arithmetic operator. -/
def calculate (op : BinaryOp) (l r : Value H) (p : Position) : Evaluated (Value H) := do
  let x ← l.asNumber p
  let y ← r.asNumber p
  match op.arithmetic? with
  | some f => return .number (f x y)
  | none => throw ⟨.notArithmetic op, p⟩

/-- The value of a comparison. -/
def compare (op : BinaryOp) (l r : Value H) (p : Position) : Evaluated (Value H) := do
  match op with
  | equal => return .ofBool (l.equal r)
  | notEqual => return .ofBool (!l.equal r)
  | op =>
    match op.relation? with
    | some f =>
      let x ← l.asNumber p
      let y ← r.asNumber p
      return .ofBool (f x y)
    | none => throw ⟨.notComparison op, p⟩

/-- Whether the left operand of a logical operator is its value, whatever the right one is. Every
operator but `or` is taken for `and`. -/
def leftDecides (op : BinaryOp) (l : Value H) : Bool := l.isTrue == (op = .or)

/-- The operand that a logical operator selects. -/
def select (op : BinaryOp) (l r : Value H) : Value H :=
  if op.leftDecides l then l else r

/-- The value of an operator with two operands. -/
def apply (op : BinaryOp) (l r : Value H) (p : Position) : Evaluated (Value H) :=
  match op with
  | add | subtract | multiply | divide | remainder => op.calculate l r p
  | equal | notEqual | greater | greaterEqual | less | lessEqual => op.compare l r p
  | and | or => .ok (op.select l r)

end BinaryOp

end Operation

/-! ## What the library functions do

Each function reads its arguments in a fixed order, which decides the fault that is reported if
several arguments are wrong. A function is called after its number of arguments has been checked.
-/

namespace LibraryFunction

variable {H : Host}

/-- A function of one number. -/
def onNumber (f : Float → Float) (args : List (Value H)) (p : Position) : Evaluated (Value H) := do
  return .number (f (← Arguments.number args 0 p))

/-- The number that is chosen when the arguments are compared from left to right. -/
def choose (pick : Float → Float → Float) (args : List (Value H)) (p : Position) :
    Evaluated (Value H) := do
  match ← Arguments.numbers args p with
  | [] => throw ⟨.missingArgument 0, p⟩
  | x :: xs => return .number (xs.foldl pick x)

/-- The number that lies between `a` and `b`, or beyond them, as `t` says. -/
def between (a b t : Float) : Float := a + (b - a) * t

/-- Interpolates between two vectors of one length, or between two numbers. -/
def interpolate (args : List (Value H)) (p : Position) : Evaluated (Value H) := do
  let t ← Arguments.number args 2 p
  match ← Arguments.get args 0 p, ← Arguments.get args 1 p with
  | .vector xs, .vector ys =>
    if xs.length = ys.length then
      return .vector ((xs.zip ys).map fun q => between q.1 q.2 t)
    else throw ⟨.lerpLengths xs.length ys.length, p⟩
  | a, b =>
    let x ← a.asNumber p
    let y ← b.asNumber p
    return .number (between x y t)

/-- Moves a number into a range, which must not be empty. -/
def confine (args : List (Value H)) (p : Position) : Evaluated (Value H) := do
  let x ← Arguments.number args 0 p
  let low ← Arguments.number args 1 p
  let high ← Arguments.number args 2 p
  if low.isNaN || high.isNaN || low > high then throw ⟨.emptyRange low high, p⟩
  else return .number (Number.clamp low high x)

/-- The number that a text denotes. -/
def parseNumber (cs : List Char) (p : Position) : Evaluated Float :=
  match Number.ofChars? cs with
  | some x => .ok x
  | none => .error ⟨.notANumber (String.ofList cs), p⟩

/-- A vector of the numbers in a text, if a text is all that is given, and else of the arguments. -/
def makeVector (args : List (Value H)) (p : Position) : Evaluated (Value H) := do
  match args with
  | [.string s] => return .vector (← (Text.words s.toList).mapM fun w => parseNumber w p)
  | args => return .vector (← Arguments.numbers args p)

/-- The number of components of a vector, or of characters of a text. -/
def measure (args : List (Value H)) (p : Position) : Evaluated (Value H) := do
  match ← Arguments.get args 0 p with
  | .vector xs => return .number (← Number.exactly xs.length p)
  | .string s => return .number (← Number.exactly s.length p)
  | v => throw ⟨.noLength v.typeName, p⟩

/-- The number that the argument is or denotes, blanks around it left aside. -/
def toNumber (args : List (Value H)) (p : Position) : Evaluated (Value H) := do
  match ← Arguments.get args 0 p with
  | .number x => return .number x
  | .string s => return .number (← parseNumber (Text.trim s.toList) p)
  | v => throw ⟨.expectedNumber v.typeName, p⟩

/-- The argument itself, which has to count as true. -/
def affirm (args : List (Value H)) (p : Position) : Evaluated (Value H) := do
  let v ← Arguments.get args 0 p
  if v.isTrue then return v else throw ⟨.assertionFailed, p⟩

/-- Runs a function of the library. -/
def run (f : LibraryFunction) (args : List (Value H)) (p : Position) : Evaluated (Value H) :=
  match f with
  | abs => onNumber Float.abs args p
  | floor => onNumber Float.floor args p
  | ceil => onNumber Float.ceil args p
  | round => onNumber Float.round args p
  | trunc => onNumber Number.truncate args p
  | sqrt => onNumber Float.sqrt args p
  | sin => onNumber Float.sin args p
  | cos => onNumber Float.cos args p
  | tan => onNumber Float.tan args p
  | radians => onNumber Number.radians args p
  | degrees => onNumber Number.degrees args p
  | sign => onNumber Number.sign args p
  | atan2 => do
    let y ← Arguments.number args 0 p
    let x ← Arguments.number args 1 p
    return .number (Float.atan2 y x)
  | lerp => interpolate args p
  | min => choose Number.least args p
  | max => choose Number.greatest args p
  | clamp => confine args p
  | vec => makeVector args p
  | len => measure args p
  | str => do return .string (← Arguments.get args 0 p).text
  | num => toNumber args p
  | assert => affirm args p

end LibraryFunction

/-! ## Members of vectors

The length of a vector, and its two methods. A method is called after its number of arguments has
been checked.
-/

namespace Vector

/-- The length of an arrow with the given components. -/
def magnitude (xs : List Float) : Float :=
  (Number.sum (xs.map fun x => x * x)).sqrt

/-- The vector of length one with the same direction. A vector of length zero has none and stays
as it is. -/
def normalized (xs : List Float) : List Float :=
  let length := magnitude xs
  if length == 0 then xs else xs.map fun x => x / length

/-- The dot product. -/
def dot (xs ys : List Float) : Float :=
  Number.sum ((xs.zip ys).map fun q => q.1 * q.2)

end Vector

/-- Runs a method of vectors. -/
def VectorMethod.run {H : Host} (m : VectorMethod) (receiver : Value H) (args : List (Value H))
    (p : Position) : Evaluated (Value H) := do
  match m with
  | normalized => return .vector (Vector.normalized (← receiver.asVector p))
  | dot =>
    let xs ← receiver.asVector p
    let ys ← Arguments.vector args 0 p
    if xs.length = ys.length then return .number (Vector.dot xs ys)
    else throw ⟨.dotLengths xs.length ys.length, p⟩

/-! ## Members of strings

The methods of strings. Positions and lengths count characters, and a range that reaches past the
end of a text is cut short.
-/

/-- At most `count` characters of a text, from the one at `start` on; all of them if no count is
given. -/
def substring (s : String) (start : Nat) (count : Option Nat) : String :=
  let rest := s.toList.drop start
  String.ofList (match count with
    | some n => rest.take n
    | none => rest)

/-- Runs a method of strings. The receiver is looked at before the arguments. -/
def StringMethod.run {H : Host} (m : StringMethod) (receiver : Value H) (args : List (Value H))
    (p : Position) : Evaluated (Value H) := do
  let s ← receiver.asString p
  match m with
  | upper => return .string (Casing.upper s)
  | lower => return .string (Casing.lower s)
  | trim => return .string (String.ofList (Text.trim s.toList))
  | contains =>
    let t ← Arguments.string args 0 p
    return .ofBool (Text.contains t.toList s.toList)
  | startsWith =>
    let t ← Arguments.string args 0 p
    return .ofBool (t.toList.isPrefixOf s.toList)
  | endsWith =>
    let t ← Arguments.string args 0 p
    return .ofBool (t.toList.isSuffixOf s.toList)
  | replace =>
    let pattern ← Arguments.string args 0 p
    let replacement ← Arguments.string args 1 p
    return .string (String.ofList (Text.replace pattern.toList replacement.toList s.toList))
  | substr =>
    let start ← Number.asIndex (← Arguments.number args 0 p) p
    match args[1]? with
    | none => return .string (substring s start none)
    | some v =>
      let count ← Number.asIndex (← v.asNumber p) p
      return .string (substring s start (some count))

end MapExpr
