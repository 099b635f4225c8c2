import MapExpr.Proofs.Evaluation.FaultPlaces

/-!
# Every argument that is read was given

Functions and methods read their arguments by index. Each of them declares how many arguments it
takes, and a call refuses any other number before it runs. The declarations are right: where a
number of arguments is accepted, all those that are read were given
(`LibraryFunction.run_supplied`, `VectorMethod.run_supplied`, `StringMethod.run_supplied`). So in a
standard context no evaluation asks for an argument that is missing (`Context.eval_supplied`),
whatever the tree.
-/

namespace MapExpr

/-- The outcome is not that an argument is asked for and was not given. -/
def Supplied {α : Type} (x : Evaluated α) : Prop :=
  ∀ i p, x ≠ .error ⟨.missingArgument i, p⟩

namespace Supplied

variable {α β : Type}

theorem ok (a : α) : Supplied (.ok a) := nofun

/-- Two steps ask for no missing argument if neither of them does. -/
theorem bind {x : Evaluated α} {f : α → Evaluated β} (hx : Supplied x)
    (hf : ∀ a, x = .ok a → Supplied (f a)) : Supplied (x >>= f) :=
  match x, hx, hf with
  | .ok a, _, hf => hf a rfl
  | .error e, hx, _ => fun i p h => hx i p (by cases h; rfl)

/-- Nor do any number of steps. -/
theorem mapM {f : α → Evaluated β} (hf : ∀ a, Supplied (f a)) (as : List α) :
    Supplied (as.mapM f) := by
  induction as with
  | nil => exact .ok _
  | cons a as ih =>
    rw [List.mapM_cons]
    exact (hf a).bind fun b _ => ih.bind fun bs _ => .ok _

end Supplied

variable {H : Host} {args : List (Value H)} {p : Position}

/-! ## Readers

A reader of a value or of a number asks for no argument, and one of arguments asks for those that it
is told to read.
-/

theorem Value.asNumber_supplied (v : Value H) (p : Position) : Supplied (v.asNumber p) := by
  cases v <;> exact nofun

theorem Value.asVector_supplied (v : Value H) (p : Position) : Supplied (v.asVector p) := by
  cases v <;> exact nofun

theorem Value.asString_supplied (v : Value H) (p : Position) : Supplied (v.asString p) := by
  cases v <;> exact nofun

theorem Number.asIndex_supplied (x : Float) (p : Position) : Supplied (Number.asIndex x p) := by
  unfold Number.asIndex
  split <;> exact nofun

theorem Number.asInt_supplied (x : Float) (p : Position) : Supplied (Number.asInt x p) := by
  unfold Number.asInt
  split <;> exact nofun

theorem Number.exactly_supplied (n : Int) (p : Position) : Supplied (Number.exactly n p) := by
  unfold Number.exactly
  split <;> exact nofun

theorem component_supplied (xs : List Float) (i : Nat) (p : Position) :
    Supplied (component (H := H) xs i p) := by
  unfold component
  split <;> exact nofun

namespace Arguments

variable {i : Nat}

/-- An argument is there if its index is below the number of arguments. -/
theorem get_supplied (h : i < args.length) : Supplied (get args i p) := by
  rw [get, List.getElem?_eq_getElem h]
  exact .ok _

/-- An argument that was given is there to be read as a number. -/
theorem number_supplied (h : i < args.length) : Supplied (number args i p) :=
  (get_supplied h).bind fun v _ => v.asNumber_supplied p

/-- An argument that was given is there to be read as a vector. -/
theorem vector_supplied (h : i < args.length) : Supplied (vector args i p) :=
  (get_supplied h).bind fun v _ => v.asVector_supplied p

/-- An argument that was given is there to be read as a text. -/
theorem string_supplied (h : i < args.length) : Supplied (string args i p) :=
  (get_supplied h).bind fun v _ => v.asString_supplied p

/-- Reading all arguments asks for none that was not given. -/
theorem numbers_supplied (args : List (Value H)) (p : Position) : Supplied (numbers args p) :=
  .mapM (fun v => v.asNumber_supplied p) args

end Arguments

/-! ## The library -/

namespace LibraryFunction

/-- A function of one number asks for its only argument. -/
theorem onNumber_supplied (f : Float → Float) (h : args.length = 1) :
    Supplied (onNumber f args p) :=
  (Arguments.number_supplied (by omega)).bind fun _ _ => .ok _

/-- Choosing asks for the first argument, and then for those that are there. -/
theorem choose_supplied (pick : Float → Float → Float) (h : 1 ≤ args.length) :
    Supplied (choose pick args p) := by
  obtain ⟨v, vs, rfl⟩ := List.exists_cons_of_length_pos h
  simp only [choose, Arguments.numbers, List.mapM_cons, bind_assoc, pure_bind]
  refine (v.asNumber_supplied p).bind fun x _ => ?_
  exact (Arguments.numbers_supplied vs p).bind fun xs _ => .ok _

/-- Interpolation asks for its three arguments. -/
theorem interpolate_supplied (h : args.length = 3) : Supplied (interpolate args p) := by
  refine (Arguments.number_supplied (by omega)).bind fun t _ => ?_
  refine (Arguments.get_supplied (by omega)).bind fun a _ => ?_
  refine (Arguments.get_supplied (by omega)).bind fun b _ => ?_
  split
  · split <;> exact nofun
  · refine (a.asNumber_supplied p).bind fun x _ => ?_
    exact (b.asNumber_supplied p).bind fun y _ => .ok _

/-- Moving a number into a range asks for the number and the two bounds. -/
theorem confine_supplied (h : args.length = 3) : Supplied (confine args p) := by
  refine (Arguments.number_supplied (by omega)).bind fun x _ => ?_
  refine (Arguments.number_supplied (by omega)).bind fun low _ => ?_
  refine (Arguments.number_supplied (by omega)).bind fun high _ => ?_
  split <;> exact nofun

/-- Reading a number from a text asks for no argument. -/
theorem parseNumber_supplied (cs : List Char) (p : Position) : Supplied (parseNumber cs p) := by
  unfold parseNumber
  split <;> exact nofun

/-- A vector is made of as many arguments as there are. -/
theorem makeVector_supplied (args : List (Value H)) (p : Position) :
    Supplied (makeVector args p) := by
  unfold makeVector
  split
  · exact (Supplied.mapM (fun w => parseNumber_supplied w p) _).bind fun _ _ => .ok _
  · exact (Arguments.numbers_supplied args p).bind fun _ _ => .ok _

/-- Measuring asks for its only argument. -/
theorem measure_supplied (h : args.length = 1) : Supplied (measure args p) := by
  refine (Arguments.get_supplied (by omega)).bind fun v _ => ?_
  split
  · exact (Number.exactly_supplied _ p).bind fun _ _ => .ok _
  · exact (Number.exactly_supplied _ p).bind fun _ _ => .ok _
  · exact nofun

/-- Converting asks for its only argument. -/
theorem toNumber_supplied (h : args.length = 1) : Supplied (toNumber args p) := by
  refine (Arguments.get_supplied (by omega)).bind fun v _ => ?_
  split
  · exact .ok _
  · exact (parseNumber_supplied _ p).bind fun _ _ => .ok _
  · exact nofun

/-- An assertion asks for its only argument. -/
theorem affirm_supplied (h : args.length = 1) : Supplied (affirm args p) := by
  refine (Arguments.get_supplied (by omega)).bind fun v _ => ?_
  split <;> exact nofun

/-- A function of the library that is given a number of arguments it takes reads no others. -/
theorem run_supplied (f : LibraryFunction) (h : f.arity.accepts args.length = true) :
    Supplied (f.run args p) := by
  cases f with
  | atan2 =>
    have h : args.length = 2 := of_decide_eq_true h
    refine (Arguments.number_supplied (by omega)).bind fun y _ => ?_
    exact (Arguments.number_supplied (by omega)).bind fun x _ => .ok _
  | lerp => exact interpolate_supplied (of_decide_eq_true h)
  | clamp => exact confine_supplied (of_decide_eq_true h)
  | min | max => exact choose_supplied _ (of_decide_eq_true h)
  | vec => exact makeVector_supplied args p
  | len => exact measure_supplied (of_decide_eq_true h)
  | str =>
    have h : args.length = 1 := of_decide_eq_true h
    exact (Arguments.get_supplied (by omega)).bind fun v _ => .ok _
  | num => exact toNumber_supplied (of_decide_eq_true h)
  | assert => exact affirm_supplied (of_decide_eq_true h)
  | abs | floor | ceil | round | trunc | sqrt | sin | cos | tan | radians | degrees | sign =>
    exact onNumber_supplied _ (of_decide_eq_true h)

end LibraryFunction

/-! ## Members -/

/-- A method of vectors asks for no more arguments than it declares. -/
theorem VectorMethod.run_supplied (m : VectorMethod) (v : Value H)
    (h : m.signature.arity.accepts args.length = true) : Supplied (m.run v args p) := by
  cases m with
  | normalized => exact (v.asVector_supplied p).bind fun _ _ => .ok _
  | dot =>
    have h : args.length = 1 := of_decide_eq_true h
    refine (v.asVector_supplied p).bind fun xs _ => ?_
    refine (Arguments.vector_supplied (by omega)).bind fun ys _ => ?_
    split <;> exact nofun

/-- A method of texts asks for no more arguments than it declares. -/
theorem StringMethod.run_supplied (m : StringMethod) (v : Value H)
    (h : m.signature.arity.accepts args.length = true) : Supplied (m.run v args p) := by
  refine (v.asString_supplied p).bind fun s _ => ?_
  cases m with
  | upper | lower | trim => exact .ok _
  | contains | startsWith | endsWith =>
    have h : args.length = 1 := of_decide_eq_true h
    exact (Arguments.string_supplied (by omega)).bind fun _ _ => .ok _
  | replace =>
    have h : args.length = 2 := of_decide_eq_true h
    refine (Arguments.string_supplied (by omega)).bind fun pattern _ => ?_
    exact (Arguments.string_supplied (by omega)).bind fun _ _ => .ok _
  | substr =>
    have h : args.length = 1 ∨ args.length = 2 := by
      have hmem : args.length ∈ [1, 2] := List.contains_iff_mem.1 h
      simpa using hmem
    refine (Arguments.number_supplied (by omega)).bind fun x _ => ?_
    refine (Number.asIndex_supplied x p).bind fun start _ => ?_
    -- the count may be left out
    cases args[1]? with
    | none => exact .ok _
    | some w =>
      refine (w.asNumber_supplied p).bind fun y _ => ?_
      exact (Number.asIndex_supplied y p).bind fun _ _ => .ok _

/-- What is read asks for no argument. -/
def Member.Supplied : Member H → Prop
  | property read => ∀ v p, MapExpr.Supplied (read v p)
  | method _ => True

/-- What is read from the members of the table asks for no argument. -/
def MemberTable.Supplied (t : MemberTable H) : Prop :=
  ∀ name m, t.get? name = some m → m.Supplied

namespace MemberTable

/-- A table without members reads nothing. -/
theorem supplied_empty (typeName : String) : (empty typeName : MemberTable H).Supplied :=
  fun _ _ h => nomatch h

variable {t : MemberTable H}

/-- A property that asks for no argument may be added. -/
theorem Supplied.property (ht : t.Supplied) (name : String)
    {read : Value H → Position → Evaluated (Value H)}
    (hread : ∀ v p, MapExpr.Supplied (read v p)) : (t.property name read).Supplied :=
  forall_get?_insert ht name hread

/-- A method may be added: it is not run when it is read. -/
theorem Supplied.method (ht : t.Supplied) (m : Method H) : (t.method m).Supplied :=
  forall_get?_insert (P := Member.Supplied) ht m.signature.name trivial

/-- The members of vectors ask for no argument. -/
theorem supplied_vector : (vector : MemberTable H).Supplied := by
  have hcomponent (i : Nat) (v : Value H) (p : Position) :
      MapExpr.Supplied (v.asVector p >>= fun xs => component (H := H) xs i p) :=
    (v.asVector_supplied p).bind fun xs _ => component_supplied xs i p
  exact (supplied_empty "vector")
    |>.property "x" (hcomponent 0)
    |>.property "y" (hcomponent 1)
    |>.property "z" (hcomponent 2)
    |>.property "w" (hcomponent 3)
    |>.property "count" (fun v p => (v.asVector_supplied p).bind fun xs _ =>
        (Number.exactly_supplied _ p).bind fun _ _ => .ok _)
    |>.property "length" (fun v p => (v.asVector_supplied p).bind fun _ _ => .ok _)
    |>.method (.vector .normalized)
    |>.method (.vector .dot)

/-- The members of texts ask for no argument. -/
theorem supplied_string : (string : MemberTable H).Supplied :=
  (supplied_empty "string")
    |>.property "length" (fun v p => (v.asString_supplied p).bind fun _ _ =>
        (Number.exactly_supplied _ p).bind fun _ _ => .ok _)
    |>.method (.string .upper)
    |>.method (.string .lower)
    |>.method (.string .trim)
    |>.method (.string .contains)
    |>.method (.string .startsWith)
    |>.method (.string .endsWith)
    |>.method (.string .replace)
    |>.method (.string .substr)

end MemberTable

/-! ## Operators -/

/-- An operator on one operand asks for no argument. -/
theorem UnaryOp.apply_supplied (op : UnaryOp) (v : Value H) (p : Position) :
    Supplied (op.apply v p) := by
  cases op with
  | negate => exact (v.asNumber_supplied p).bind fun _ _ => .ok _
  | logicalNot => exact .ok _
  | complement =>
    refine (v.asNumber_supplied p).bind fun x _ => ?_
    refine (Number.asInt_supplied x p).bind fun n _ => ?_
    exact (Number.exactly_supplied _ p).bind fun _ _ => .ok _

namespace BinaryOp

variable (op : BinaryOp) (l r : Value H) (p : Position)

/-- Arithmetic asks for no argument. -/
theorem calculate_supplied : Supplied (op.calculate l r p) := by
  refine (l.asNumber_supplied p).bind fun x _ => ?_
  refine (r.asNumber_supplied p).bind fun y _ => ?_
  split <;> exact nofun

/-- A comparison asks for no argument. -/
theorem compare_supplied : Supplied (op.compare l r p) := by
  unfold compare
  split
  · exact .ok _
  · exact .ok _
  · split
    · refine (l.asNumber_supplied p).bind fun x _ => ?_
      exact (r.asNumber_supplied p).bind fun y _ => .ok _
    · exact nofun

/-- An operator between operands asks for no argument. -/
theorem apply_supplied : Supplied (op.apply l r p) := by
  unfold apply
  split
  all_goals first | exact calculate_supplied _ l r p | exact compare_supplied _ l r p | exact .ok _

end BinaryOp

/-! ## Access, calls and evaluation -/

namespace Registry

variable {r : Registry H}

/-- The members of every value ask for no argument, if those of objects do not. -/
theorem tableOf_supplied (hr : ∀ d, r.members? d = none) (v : Value H) :
    (r.tableOf v).Supplied := by
  cases v with
  | vector xs => exact MemberTable.supplied_vector
  | string s => exact MemberTable.supplied_string
  | object o =>
    rw [tableOf, hr]
    exact MemberTable.supplied_empty _
  | _ => exact MemberTable.supplied_empty _

/-- A member access asks for no argument. -/
theorem access_supplied (hr : ∀ d, r.members? d = none) (v : Value H) (name : String)
    (p : Position) : Supplied (r.access v name p) := by
  have ht := tableOf_supplied hr v name
  unfold access
  dsimp only
  split
  · next read h => exact ht _ h v p
  · exact .ok _
  · exact nofun

/-- A call goes on only if the number of arguments is accepted. -/
theorem accepts_of_admits {s : Signature} {n : Nat} (h : s.admit n p = .ok ()) :
    s.arity.accepts n = true := by
  unfold Signature.admit at h
  split at h
  · assumption
  · cases h

/-- Counting the arguments asks for none of them. -/
theorem admit_supplied (s : Signature) (n : Nat) (p : Position) : Supplied <| s.admit n p := by
  unfold Signature.admit
  split <;> exact nofun

/-- A call of a library function asks for no argument that was not given, whatever it is called
with. -/
theorem apply_supplied {f : Function H} (hf : f.Standard) (args : List (Value H))
    (site : CallSite) : Supplied (r.apply f args site) := by
  refine (admit_supplied _ _ _).bind fun _ h => ?_
  cases f with
  | library f n => exact f.run_supplied (accepts_of_admits h)
  | host f => exact hf.elim

/-- A call of a method of the language asks for no argument that was not given, whatever it is
called on and with. -/
theorem invoke_supplied {m : Method H} (hm : m.Standard) (v : Value H) (args : List (Value H))
    (site : CallSite) : Supplied (r.invoke m v args site) := by
  refine (admit_supplied _ _ _).bind fun _ h => ?_
  cases m with
  | vector m => exact m.run_supplied v (accepts_of_admits h)
  | string m => exact m.run_supplied v (accepts_of_admits h)
  | host m => exact hm.elim

end Registry

namespace Context

variable {c : Context H}

mutual

/-- No evaluation in a standard context asks for an argument that was not given. -/
theorem eval_supplied (hc : c.Standard) : (e : Expr) → Supplied (c.eval e)
  | .literal _ _ => .ok _
  | .var _ _ => .ok _
  | .vector es _ => (evalComponents_supplied hc es).bind fun _ _ => .ok _
  | .member e x p =>
    (eval_supplied hc e).bind fun v _ => Registry.access_supplied hc.members? v x p
  | .index e i p => by
    refine (eval_supplied hc e).bind fun v _ => ?_
    refine (v.asVector_supplied p).bind fun xs _ => ?_
    refine (eval_supplied hc i).bind fun w _ => ?_
    refine (w.asNumber_supplied _).bind fun x _ => ?_
    exact (Number.asIndex_supplied x p).bind fun n _ => component_supplied xs n p
  | .call f as site => by
    refine (eval_supplied hc f).bind fun v hv => ?_
    -- what is called is not of the host
    have hv : v.Standard := hc.eval hv
    cases v with
    | function f =>
      exact (evalAll_supplied hc as).bind fun args _ => Registry.apply_supplied hv args site
    | bound m v =>
      exact (evalAll_supplied hc as).bind fun args _ => Registry.invoke_supplied hv.1 v args site
    | none | number _ | vector _ | string _ | object _ => exact nofun
  | .unary op e p => (eval_supplied hc e).bind fun v _ => op.apply_supplied v p
  | .binary op l r p => by
    have hright := eval_supplied hc r
    refine (eval_supplied hc l).bind fun v _ => ?_
    split
    · split
      · exact .ok _
      · exact hright
    · split
      · exact .ok _
      · exact hright
    · exact hright.bind fun w _ => BinaryOp.apply_supplied _ v w p
  | .conditional t y n _ => by
    refine (eval_supplied hc t).bind fun v _ => ?_
    split
    · exact eval_supplied hc y
    · exact eval_supplied hc n

/-- Several expressions ask for no argument that was not given. -/
theorem evalAll_supplied (hc : c.Standard) : (es : List Expr) → Supplied (c.evalAll es)
  | [] => .ok _
  | e :: es =>
    (eval_supplied hc e).bind fun _ _ => (evalAll_supplied hc es).bind fun _ _ => .ok _

/-- The components of a vector ask for no argument that was not given. -/
theorem evalComponents_supplied (hc : c.Standard) :
    (es : List Expr) → Supplied (c.evalComponents es)
  | [] => .ok _
  | e :: es => by
    refine (eval_supplied hc e).bind fun v _ => ?_
    refine (v.asNumber_supplied _).bind fun x _ => ?_
    exact (evalComponents_supplied hc es).bind fun xs _ => .ok _

end

end Context

end MapExpr
