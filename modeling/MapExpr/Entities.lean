import MapExpr.Registry

/-!
# Points and brushes

A host with two kinds of objects. A point has a place, which expressions can read and from which
they can make another point; a brush has no members.

Every object that `offset` makes is a new one. Its identity is made of the run during which the
method was called and of the call, so two calls in one run, and two runs, make different objects.
-/

namespace MapExpr

/-- An object on a map. -/
inductive Entity where
  | point (x y z : Float)
  | brush

/-- A method of points. -/
inductive PointMethod where
  | offset
deriving DecidableEq

namespace Entities

/-- The host of points and brushes. -/
def host : Host where
  Data := Entity
  Function := Empty
  Method := PointMethod
  text
    | .point x y z => " ".intercalate ([x, y, z].map Number.text)
    | .brush => "brush"
  functionSignature := nofun
  methodSignature
    | .offset => ⟨"offset", .exact 1⟩
  decidableFunction := inferInstance
  decidableMethod := inferInstance

/-- The place of a value that has to be a point. The label names the type of points in the complaint
about a brush. -/
def asPoint (label : String) (v : Value host) (p : Position) :
    Evaluated (Float × Float × Float) := do
  match (← v.asObject p).data with
  | .point x y z => return (x, y, z)
  | .brush => throw ⟨.wrongObject label, p⟩

/-- A new point, away from the receiver by the vector that is given. -/
def offset (label : String) (run : Nat) (receiver : Value host) (args : List (Value host))
    (site : CallSite) : Evaluated (Value host) := do
  let (x, y, z) ← asPoint label receiver site.position
  match ← Arguments.vector args 0 site.position with
  | [dx, dy, dz] => return .object ⟨.made run site, .point (x + dx) (y + dy) (z + dz)⟩
  | _ => throw ⟨.rejected "offset expects a 3 component vector", site.position⟩

/-- The members of points. -/
def pointTable (label : String) : MemberTable host :=
  MemberTable.empty "point"
    |>.property "x" (fun v p => do
        let (x, _, _) ← asPoint label v p
        return .number x)
    |>.property "y" (fun v p => do
        let (_, y, _) ← asPoint label v p
        return .number y)
    |>.property "z" (fun v p => do
        let (_, _, z) ← asPoint label v p
        return .number z)
    |>.property "origin" (fun v p => do
        let (x, y, z) ← asPoint label v p
        return .vector [x, y, z])
    |>.method (.host .offset)

/-- The registry that gives points their members, for one run. -/
def registry (label : String) (run : Nat) : Registry host where
  members?
    | .point .. => some (pointTable label)
    | .brush => none
  callFunction := nofun
  callMethod
    | .offset => offset label run

/-- The registry that gives no object any members. -/
def plainRegistry (label : String) (run : Nat) : Registry host :=
  { registry label run with members? := fun _ => none }

end Entities

end MapExpr
