import MapExpr.Expr
import MapExpr.Value

/-!
# Taking values apart

A value is read as what an operation needs, and a value of another type is a fault at the place that
the operation reports.
-/

namespace MapExpr

/-! ## Why an evaluation fails

Every failure has a cause and the place of the expression that failed. Causes are told apart by what
was wrong, and `EvalFault.message` words them.
-/

/-- Why an evaluation fails. -/
inductive EvalFault where
  | unknownMember (type member : String)
  | expectedNumber (found : TypeName)
  | expectedVector (found : TypeName)
  | expectedString (found : TypeName)
  | expectedObject (found : TypeName)
  /-- An object, but not one of the type that the host has given a name. -/
  | wrongObject (wanted : String)
  | notArithmetic (op : BinaryOp)
  | notComparison (op : BinaryOp)
  /-- The length of something that has none. -/
  | noLength (found : TypeName)
  | invalidIndex (x : Float)
  | outOfBounds (index length : Nat)
  | notCallable (found : TypeName)
  | argumentCount (name : String) (expected : Arity) (found : Nat)
  | notWhole (x : Float)
  /-- A whole number that floats do not tell apart from its neighbours. -/
  | tooLarge (n : Int)
  | dotLengths (left right : Nat)
  | lerpLengths (left right : Nat)
  | emptyRange (low high : Float)
  | notANumber (text : String)
  /-- An argument that the host does not accept. -/
  | rejected (details : String)
  | assertionFailed
  /-- An argument that is asked for and was not given. The declared arities rule it out. -/
  | missingArgument (index : Nat)
deriving DecidableEq

/-- The wording of a fault. -/
def EvalFault.message : EvalFault → String
  | unknownMember type member => "Type '" ++ type ++ "' has no member '" ++ member ++ "'."
  | expectedNumber found => "Expected a number, found " ++ found.text ++ "."
  | expectedVector found => "Expected a vector, found " ++ found.text ++ "."
  | expectedString found => "Expected a string, found " ++ found.text
  | expectedObject found => "Expected a host value, found " ++ found.text
  | wrongObject wanted => "Expected a host value of type '" ++ wanted ++ "'"
  | notArithmetic op => "'" ++ op.spelling ++ "' is not an arithmetic operator"
  | notComparison op => "'" ++ op.spelling ++ "' is not a comparison"
  | noLength found => "len: expected a vector or a string, found " ++ found.text
  | invalidIndex x =>
    "Invalid index " ++ Number.text x ++ ", expected a whole non-negative number."
  | outOfBounds index length =>
    "Index " ++ toString index ++ " is out of bounds for a vector of length "
      ++ toString length ++ "."
  | notCallable found => "A value of type '" ++ found.text ++ "' cannot be called."
  | argumentCount name expected found =>
    "'" ++ name ++ "' expects " ++ expected.text ++ " argument(s), found " ++ toString found ++ "."
  | notWhole x => "Expected a whole number, found " ++ Number.text x
  | tooLarge n => toString n ++ " is too large to be represented exactly"
  | dotLengths left right =>
    "Cannot take the dot product of vectors of length " ++ toString left ++ " and "
      ++ toString right
  | lerpLengths left right =>
    "lerp: vectors of length " ++ toString left ++ " and " ++ toString right ++ " differ in length"
  | emptyRange low high =>
    "clamp: min (" ++ Number.text low ++ ") > max (" ++ Number.text high ++ ")"
  | notANumber text => "'" ++ text ++ "' is not a number"
  | rejected details => details
  | assertionFailed => "Assertion failed."
  | missingArgument index => "Argument " ++ toString (index + 1) ++ " is missing."

/-- A result, or the fault that prevents it and its place. -/
abbrev Evaluated (α : Type) := Except (Located EvalFault) α

/-! ## Readers -/

namespace Value

variable {H : Host}

/-- A value read as a number. -/
def asNumber (v : Value H) (p : Position) : Evaluated Float :=
  match v with
  | number x => .ok x
  | v => .error ⟨.expectedNumber v.typeName, p⟩

/-- A value read as the components of a vector. -/
def asVector (v : Value H) (p : Position) : Evaluated (List Float) :=
  match v with
  | vector xs => .ok xs
  | v => .error ⟨.expectedVector v.typeName, p⟩

/-- A value read as a text. -/
def asString (v : Value H) (p : Position) : Evaluated String :=
  match v with
  | string s => .ok s
  | v => .error ⟨.expectedString v.typeName, p⟩

/-- A value read as an object of the host. -/
def asObject (v : Value H) (p : Position) : Evaluated (Object H) :=
  match v with
  | object o => .ok o
  | v => .error ⟨.expectedObject v.typeName, p⟩

end Value

namespace Number

/-- A number read as an index. -/
def asIndex (x : Float) (p : Position) : Evaluated Nat :=
  match toIndex? x with
  | some n => .ok n
  | none => .error ⟨.invalidIndex x, p⟩

/-- A number read as a whole number. -/
def asInt (x : Float) (p : Position) : Evaluated Int :=
  match toSafeInt? x with
  | some n => .ok n
  | none => .error ⟨.notWhole x, p⟩

/-- A whole number as a float. -/
def exactly (n : Int) (p : Position) : Evaluated Float :=
  match ofSafeInt? n with
  | some x => .ok x
  | none => .error ⟨.tooLarge n, p⟩

end Number

/-- The component of a vector at an index. -/
def component {H : Host} (xs : List Float) (i : Nat) (p : Position) : Evaluated (Value H) :=
  match xs[i]? with
  | some x => .ok (.number x)
  | none => .error ⟨.outOfBounds i xs.length, p⟩

namespace Arguments

variable {H : Host}

/-- The argument at an index. -/
def get (args : List (Value H)) (i : Nat) (p : Position) : Evaluated (Value H) :=
  match args[i]? with
  | some v => .ok v
  | none => .error ⟨.missingArgument i, p⟩

/-- The argument at an index, read as a number. -/
def number (args : List (Value H)) (i : Nat) (p : Position) : Evaluated Float := do
  (← get args i p).asNumber p

/-- The argument at an index, read as the components of a vector. -/
def vector (args : List (Value H)) (i : Nat) (p : Position) : Evaluated (List Float) := do
  (← get args i p).asVector p

/-- The argument at an index, read as a text. -/
def string (args : List (Value H)) (i : Nat) (p : Position) : Evaluated String := do
  (← get args i p).asString p

/-- All arguments, read as numbers from left to right. -/
def numbers (args : List (Value H)) (p : Position) : Evaluated (List Float) :=
  args.mapM fun v => v.asNumber p

end Arguments

/-- Refuses a call with a number of arguments that is not accepted. -/
def Signature.admit (s : Signature) (count : Nat) (p : Position) : Evaluated Unit :=
  if s.arity.accepts count then .ok () else .error ⟨.argumentCount s.name s.arity count, p⟩

end MapExpr
