import MapExpr.Operation

/-!
# Members of values

Which members the values of a type have is said by a table. The tables of the types of the
language are fixed; a registry adds those of the objects of a host and says what the functions and
methods of the host do.
-/

namespace MapExpr

/-- Something that is reached through a point after a value. -/
inductive Member (H : Host) where
  /-- Read at once, from the value in front of the point. -/
  | property (read : Value H → Position → Evaluated (Value H))
  /-- Kept together with the value, until it is called. -/
  | method (m : Method H)

/-- The members of the values of a type, under the name of the type. -/
structure MemberTable (H : Host) where
  typeName : String
  members : List (String × Member H)

namespace MemberTable

variable {H : Host}

/-- The table without members. -/
def empty (typeName : String) : MemberTable H := ⟨typeName, []⟩

/-- Adds a member; it replaces one of the same name. -/
def insert (t : MemberTable H) (name : String) (m : Member H) : MemberTable H :=
  { t with members := (name, m) :: t.members.filter fun q => q.1 ≠ name }

/-- Adds a property. -/
def property (t : MemberTable H) (name : String)
    (read : Value H → Position → Evaluated (Value H)) : MemberTable H :=
  t.insert name (.property read)

/-- Adds a method under the name that it declares. -/
def method (t : MemberTable H) (m : Method H) : MemberTable H :=
  t.insert m.signature.name (.method m)

/-- The member of a name. -/
def get? (t : MemberTable H) (name : String) : Option (Member H) :=
  t.members.lookup name

/-- The names of all members in ascending order. -/
def names (t : MemberTable H) : List String :=
  (t.members.map Prod.fst).mergeSort

/-- A name is looked up as before in a list without the entries of another one. -/
private theorem lookup_filter_ne {α : Type} {name n : String} (h : n ≠ name)
    (l : List (String × α)) :
    (l.filter fun q => q.1 ≠ name).lookup n = l.lookup n := by
  induction l with
  | nil => rfl
  | cons q qs ih =>
    obtain ⟨a, x⟩ := q
    by_cases ha : a = name
    · have hn : (n == a) = false := by simpa [ha] using h
      rw [List.filter_cons_of_neg (by simpa using ha), List.lookup_cons, hn, ih]
    · rw [List.filter_cons_of_pos (by simpa using ha), List.lookup_cons, List.lookup_cons, ih]

/-- A member that has been added is found under its name, and the others are found as before. -/
theorem get?_insert (t : MemberTable H) (name n : String) (m : Member H) :
    (t.insert name m).get? n = if n = name then some m else t.get? n := by
  by_cases h : n = name
  · simp [get?, insert, h]
  · have hn : (n == name) = false := by simpa using h
    simp only [get?, insert, List.lookup_cons, hn, if_neg h]
    exact lookup_filter_ne h t.members

/-- What all members of a table have in common, they still have after one of them has been added. -/
theorem forall_get?_insert {P : Member H → Prop} {t : MemberTable H}
    (ht : ∀ n k, t.get? n = some k → P k) (name : String) {m : Member H} (hm : P m) :
    ∀ n k, (t.insert name m).get? n = some k → P k := by
  intro n k h
  rw [get?_insert] at h
  split at h
  · cases h
    exact hm
  · exact ht n k h

/-! ## The types of the language -/

/-- Components by name, the count and the length. -/
def vector : MemberTable H :=
  empty "vector"
    |>.property "x" (fun v p => do component (← v.asVector p) 0 p)
    |>.property "y" (fun v p => do component (← v.asVector p) 1 p)
    |>.property "z" (fun v p => do component (← v.asVector p) 2 p)
    |>.property "w" (fun v p => do component (← v.asVector p) 3 p)
    |>.property "count" (fun v p => do
        return .number (← Number.exactly (← v.asVector p).length p))
    |>.property "length" (fun v p => do return .number (Vector.magnitude (← v.asVector p)))
    |>.method (.vector .normalized)
    |>.method (.vector .dot)

/-- The length and the methods of texts. -/
def string : MemberTable H :=
  empty "string"
    |>.property "length" (fun v p => do
        return .number (← Number.exactly (← v.asString p).length p))
    |>.method (.string .upper)
    |>.method (.string .lower)
    |>.method (.string .trim)
    |>.method (.string .contains)
    |>.method (.string .startsWith)
    |>.method (.string .endsWith)
    |>.method (.string .replace)
    |>.method (.string .substr)

end MemberTable

/-- What a host says about its objects, functions and methods. -/
structure Registry (H : Host) where
  /-- The members of objects; objects without a table have no members. -/
  members? : H.Data → Option (MemberTable H)
  /-- What a function of the host does, its number of arguments being in order. -/
  callFunction : H.Function → List (Value H) → CallSite → Evaluated (Value H)
  /-- What a method of the host does, its number of arguments being in order. -/
  callMethod : H.Method → Value H → List (Value H) → CallSite → Evaluated (Value H)

/-- The registry of the host that brings nothing along. -/
def Registry.bare : Registry Host.bare where
  members? := nofun
  callFunction := nofun
  callMethod := nofun

namespace Registry

variable {H : Host}

/-- The table that says which members a value has. -/
def tableOf (r : Registry H) : Value H → MemberTable H
  | .none => .empty "none"
  | .number _ => .empty "number"
  | .vector _ => .vector
  | .string _ => .string
  | .function _ | .bound _ _ => .empty "function"
  | .object o => (r.members? o.data).getD (.empty "object")

/-- Runs a method on a receiver. -/
def invoke (r : Registry H) (m : Method H) (receiver : Value H) (args : List (Value H))
    (site : CallSite) : Evaluated (Value H) := do
  m.signature.admit args.length site.position
  match m with
  | .vector m => m.run receiver args site.position
  | .string m => m.run receiver args site.position
  | .host m => r.callMethod m receiver args site

/-- Runs a function. -/
def apply (r : Registry H) (f : Function H) (args : List (Value H)) (site : CallSite) :
    Evaluated (Value H) := do
  f.signature.admit args.length site.position
  match f with
  | .library f _ => f.run args site.position
  | .host f => r.callFunction f args site

/-- What stands after a point: the member of a value. -/
def access (r : Registry H) (v : Value H) (name : String) (p : Position) :
    Evaluated (Value H) :=
  let table := r.tableOf v
  match table.get? name with
  | some (.property read) => read v p
  | some (.method m) => .ok (.bound m v)
  | none => .error ⟨.unknownMember table.typeName name, p⟩

end Registry

end MapExpr
