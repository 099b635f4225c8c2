import MapExpr.Library
import MapExpr.Number
import MapExpr.Position

/-!
# Values

What an expression evaluates to. There is no separate type of truth values: every value but `none`
counts as true, and `Value.ofBool` makes the number one of true and `none` of false.

`Value.equal` is the equality of the language. Numbers are compared as floats, so the two zeros
are equal and a value that holds `NaN` anywhere differs from itself.
-/

namespace MapExpr

/-! ## Hosts and their objects

A host is the program that embeds the language. It may hand objects of its own to expressions, and
functions and methods that work on them. The language never looks into an object: it prints it as
the host says and tells two objects apart by their identity.
-/

/-- What a host brings along. Its functions and methods are named here by codes that can be
compared; what they do is said where members are looked up. -/
structure Host where
  /-- What an object holds. -/
  Data : Type
  /-- The functions of the host. -/
  Function : Type
  /-- The methods of its objects. -/
  Method : Type
  /-- The text of an object. -/
  text : Data → String
  functionSignature : Function → Signature
  methodSignature : Method → Signature
  decidableFunction : DecidableEq Function
  decidableMethod : DecidableEq Method

attribute [instance] Host.decidableFunction Host.decidableMethod

/-- The host that brings nothing along. -/
def Host.bare : Host where
  Data := Empty
  Function := Empty
  Method := Empty
  text := nofun
  functionSignature := nofun
  methodSignature := nofun
  decidableFunction := inferInstance
  decidableMethod := inferInstance

/-- The identity of an object. One that the host has handed in is known by a number; one that was
made by a function or a method is known by the run in which it was made and by the call that made
it, since a run evaluates a call at most once. -/
inductive ObjectId where
  | given (number : Nat)
  | made (run : Nat) (site : CallSite)
deriving DecidableEq

/-- An object of a host. -/
structure Object (H : Host) where
  id : ObjectId
  data : H.Data

/-! ## Values and their equality -/

/-- The types of values as messages name them. -/
inductive TypeName where
  | none
  | number
  | vector
  | string
  | function
  | object
deriving DecidableEq

/-- The name of a type. -/
def TypeName.text : TypeName → String
  | none => "none"
  | number => "number"
  | vector => "vector"
  | string => "string"
  | function => "function"
  | object => "object"

/-- A function that stands on its own. -/
inductive Function (H : Host) where
  /-- A function of the library; the number tells which time the library was bound to a context. -/
  | library (f : LibraryFunction) (registration : Nat)
  | host (f : H.Function)
deriving DecidableEq

/-- A function that belongs to the values of a type. -/
inductive Method (H : Host) where
  | vector (m : VectorMethod)
  | string (m : StringMethod)
  | host (m : H.Method)
deriving DecidableEq

/-- The declaration of a function. -/
def Function.signature {H : Host} : Function H → Signature
  | library f _ => f.signature
  | host f => H.functionSignature f

/-- The declaration of a method. -/
def Method.signature {H : Host} : Method H → Signature
  | vector m => m.signature
  | string m => m.signature
  | host m => H.methodSignature m

/-- A value. -/
inductive Value (H : Host) where
  | none
  | number (x : Float)
  | vector (xs : List Float)
  | string (s : String)
  | function (f : Function H)
  /-- A method together with the value on which it is to be called. -/
  | bound (m : Method H) (receiver : Value H)
  | object (o : Object H)

namespace Value

variable {H : Host}

/-- The type of a value. -/
def typeName : Value H → TypeName
  | none => .none
  | number _ => .number
  | vector _ => .vector
  | string _ => .string
  | function _ | bound _ _ => .function
  | object _ => .object

/-- The text of a value. Nothing is printed for `none`. -/
def text : Value H → String
  | none => ""
  | number x => Number.text x
  | vector xs => " ".intercalate (xs.map Number.text)
  | string s => s
  | function _ | bound _ _ => "function"
  | object o => H.text o.data

/-- Everything but `none` counts as true. -/
def isTrue : Value H → Bool
  | none => false
  | _ => true

/-- The value that stands for a truth value. -/
def ofBool (b : Bool) : Value H := if b then number 1 else none

/-- The equality of the language: numbers as floats, vectors component by component, functions and
objects by identity, and a bound method by the method and the receiver. -/
def equal : Value H → Value H → Bool
  | none, none => true
  | number x, number y => x == y
  | vector xs, vector ys => xs.isEqv ys (· == ·)
  | string s, string t => s = t
  | function f, function g => f = g
  | bound m v, bound n w => m = n && v.equal w
  | object a, object b => a.id = b.id
  | _, _ => false

end Value

end MapExpr
