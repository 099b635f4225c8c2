import MapExpr.Eval

/-!
# Operations report where they are told to

Every operation of the language is handed the place that its faults are reported at. `Reports Q f`
says of such an operation that its outcome does not depend on the place: either it has one value,
which satisfies `Q`, or it fails for one reason, and the fault stands at the place it was handed.

The readers of values, the operators, the library functions and the methods are all of this kind,
and so are member access and calls in a standard context. Hardly any of them has another result than
data. The exceptions are named: a logical operator selects an operand, an assertion returns its
argument, and a method is kept together with its receiver.
-/

namespace MapExpr

/-! ## Values that bring no code of the host along

A value is standard if nothing of the host can be called through it: its functions are those of the
library, and its methods those of vectors and strings. Objects of the host are allowed, but in a
standard context they have no members. Evaluation in such a context runs the code of the language
only.
-/

section Standard

variable {H : Host}

/-- The function is one of the library. -/
def Function.Standard : Function H → Prop
  | library _ _ => True
  | host _ => False

/-- The method is one of vectors or strings. -/
def Method.Standard : Method H → Prop
  | vector _ | string _ => True
  | host _ => False

/-- Nothing of the host can be called through the value. -/
def Value.Standard : Value H → Prop
  | function f => f.Standard
  | bound m receiver => m.Standard ∧ receiver.Standard
  | none | number _ | vector _ | string _ | object _ => True

/-- The value is data: it carries no code and no object. -/
def Value.Plain : Value H → Prop
  | none | number _ | vector _ | string _ => True
  | function _ | bound _ _ | object _ => False

/-- Data bring no code of a host along. -/
theorem Value.Plain.standard {v : Value H} (hv : v.Plain) : v.Standard := by
  cases v with
  | none | number _ | vector _ | string _ => trivial
  | function _ | bound _ _ | object _ => exact hv.elim

/-- Truth values are data. -/
theorem Value.plain_ofBool (b : Bool) : (ofBool b : Value H).Plain := by
  cases b <;> trivial

/-- Literals stand for data. -/
theorem Literal.plain_value (v : Literal) : (v.value : Value H).Plain := by
  cases v <;> trivial

/-- A property of standard values that all data has, and a method with its receiver. The operations
of the language have no other results than these and their arguments, so they hand it on. -/
structure Value.Closed (P : Value H → Prop) : Prop where
  standard : ∀ {v}, P v → v.Standard
  plain : ∀ {v}, v.Plain → P v
  bound : ∀ {m v}, m.Standard → P v → P (bound m v)

/-- Being standard is itself a property of this kind. -/
theorem Value.closed_standard : Closed (Standard (H := H)) where
  standard hv := hv
  plain hv := hv.standard
  bound hm hv := ⟨hm, hv⟩

/-- Nothing of the host can be called through the values of the context, and its objects have no
members. -/
structure Context.Standard (c : Context H) : Prop where
  members? : ∀ d, c.registry.members? d = none
  resolve : ∀ {x v}, c.resolve x = some v → v.Standard

namespace Context

/-- What an entry leaves behind is the context in which its name is bound to its value. -/
theorem assignOne_eq_ok_iff {c d : Context H} {a : Assignment} :
    c.assignOne a = .ok d ↔ ∃ v, c.eval a.value = .ok v ∧ c.bind a.name v = d := by
  unfold assignOne
  cases c.eval a.value with
  | error e => exact ⟨nofun, nofun⟩
  | ok v =>
    constructor
    · intro h
      exact ⟨v, rfl, Except.ok.inj h⟩
    · rintro ⟨w, hw, rfl⟩
      cases hw
      rfl

/-- Behind an entry with a value the batch goes on. -/
theorem assign_cons_of_eval {c : Context H} {a : Assignment} {v : Value H}
    (h : c.eval a.value = .ok v) (as : List Assignment) :
    c.assign (a :: as) = (c.bind a.name v).assign as := by
  rw [assign, assignOne_eq_ok_iff.2 ⟨v, h, rfl⟩]

/-- An entry that fails ends the batch. -/
theorem assign_cons_of_error {c : Context H} {a : Assignment} {e : Located EvalFault}
    (h : c.eval a.value = .error e) (as : List Assignment) : c.assign (a :: as) = (c, some e) := by
  rw [assign, assignOne, h]
  rfl

/-- A context without bindings is standard if the objects of the host have no members. -/
theorem standard_empty {r : Registry H} (hr : ∀ d, r.members? d = none) : (empty r).Standard where
  members? := hr
  resolve h := nomatch h

/-- The context of the host that brings nothing along is standard. -/
theorem standard_bare : (empty Registry.bare).Standard :=
  standard_empty fun d => Empty.elim d

namespace Standard

variable {c : Context H}

/-- A name that stands for nothing has a standard value too. -/
theorem lookup (hc : c.Standard) (x : String) : (c.lookup x).Standard := by
  unfold Context.lookup
  cases h : c.resolve x with
  | none => trivial
  | some v => exact hc.resolve h

/-- Binding a standard value keeps a context standard. -/
theorem bind (hc : c.Standard) (x : String) {v : Value H} (hv : v.Standard) :
    (c.bind x v).Standard where
  members? := hc.members?
  resolve {y w} h := by
    rw [resolve_bind] at h
    split at h
    · cases h
      exact hv
    · exact hc.resolve h

/-- Binding the library keeps a context standard. -/
theorem bindLibrary (hc : c.Standard) : c.bindLibrary.Standard where
  members? := hc.members?
  resolve {x v} h := by
    unfold Context.bindLibrary at h
    dsimp only at h
    split at h
    · cases h
      trivial
    · exact hc.resolve h

end Standard

end Context

end Standard

/-! ## Operations that report at the place they are handed -/

section Reporting

/-- The operation has the same outcome at every place: a value in `Q`, or a fault at the place. -/
inductive Reports {α : Type} (Q : α → Prop) (f : Position → Evaluated α) : Prop
  | value (a : α) (hf : ∀ p, f p = .ok a) (ha : Q a)
  | fault (e : EvalFault) (hf : ∀ p, f p = .error ⟨e, p⟩)

namespace Reports

variable {α β : Type} {P : α → Prop} {Q : β → Prop}

/-- A value is the same at every place. -/
theorem pure {a : α} (ha : P a) : Reports P fun _ => Pure.pure a := .value a (fun _ => rfl) ha

/-- A fault that is thrown at the place stands there. -/
theorem throw (e : EvalFault) : Reports P fun p => Except.error ⟨e, p⟩ := .fault e fun _ => rfl

/-- Less may be said of the value. -/
theorem mono {P' : α → Prop} {f : Position → Evaluated α} (hf : Reports P f)
    (h : ∀ a, P a → P' a) : Reports P' f := by
  cases hf with
  | value a hf ha => exact .value a hf (h a ha)
  | fault e hf => exact .fault e hf

/-- One operation after the other, both at the same place. -/
theorem bind {f : Position → Evaluated α} {g : α → Position → Evaluated β} (hf : Reports P f)
    (hg : ∀ a, P a → Reports Q (g a)) : Reports Q fun p => f p >>= fun a => g a p := by
  cases hf with
  | fault e hf => exact .fault e fun p => by rw [hf]; rfl
  | value a hf ha =>
    cases hg a ha with
    | value b hg hb => exact .value b (fun p => by rw [hf]; exact hg p) hb
    | fault e hg => exact .fault e fun p => by rw [hf]; exact hg p

/-- One operation after the other, with the last result worded anew. -/
theorem map {f : Position → Evaluated α} {g : α → β} (hf : Reports P f) (hg : ∀ a, P a → Q (g a)) :
    Reports Q fun p => f p >>= fun a => Pure.pure (g a) :=
  hf.bind fun a ha => .pure (hg a ha)

/-- Operations that report do so one after the other as well. -/
theorem mapM {f : α → Position → Evaluated β} {as : List α} (hf : ∀ a ∈ as, Reports Q (f a)) :
    Reports (∀ b ∈ ·, Q b) fun p => as.mapM fun a => f a p := by
  induction as with
  | nil => exact .pure (by simp)
  | cons a as ih =>
    rw [List.forall_mem_cons] at hf
    simp only [List.mapM_cons]
    exact hf.1.bind fun b hb => (ih hf.2).map fun bs hbs => List.forall_mem_cons.2 ⟨hb, hbs⟩

end Reports

variable {H : Host}

/-! ### Readers

A reader reports a value or a number that it refuses at the place that it is handed.
-/

section Readers

/-- No condition on a result. -/
abbrev Any {α : Type} (_ : α) : Prop := True

theorem Value.asNumber_reports (v : Value H) : Reports Any v.asNumber := by
  cases v with
  | number x => exact .pure trivial
  | _ => exact .throw _

theorem Value.asVector_reports (v : Value H) : Reports Any v.asVector := by
  cases v with
  | vector xs => exact .pure trivial
  | _ => exact .throw _

theorem Value.asString_reports (v : Value H) : Reports Any v.asString := by
  cases v with
  | string s => exact .pure trivial
  | _ => exact .throw _

theorem Number.asIndex_reports (x : Float) : Reports Any (Number.asIndex x) := by
  unfold Number.asIndex
  cases Number.toIndex? x with
  | some n => exact .pure trivial
  | none => exact .throw _

theorem Number.asInt_reports (x : Float) : Reports Any (Number.asInt x) := by
  unfold Number.asInt
  cases Number.toSafeInt? x with
  | some n => exact .pure trivial
  | none => exact .throw _

theorem Number.exactly_reports (n : Int) : Reports Any (Number.exactly n) := by
  unfold Number.exactly
  cases Number.ofSafeInt? n with
  | some x => exact .pure trivial
  | none => exact .throw _

/-- Taking a component reports at the place, and the component is data. -/
theorem component_reports (xs : List Float) (i : Nat) :
    Reports Value.Plain (component (H := H) xs i) := by
  unfold component
  cases xs[i]? with
  | some x => exact .pure trivial
  | none => exact .throw _

/-- A wrong number of arguments is reported at the place. -/
theorem Signature.admit_reports (s : Signature) (count : Nat) :
    Reports Any ( s.admit count) := by
  unfold Signature.admit
  split
  · exact .pure trivial
  · exact .throw _

namespace Arguments

variable {args : List (Value H)}

/-- An argument that is missing is reported at the place, and one that is there is what it was. -/
theorem get_reports {P : Value H → Prop} (hargs : ∀ v ∈ args, P v) (i : Nat) :
    Reports P (get args i) := by
  unfold get
  cases h : args[i]? with
  | some v => exact .pure (hargs v (List.mem_of_getElem? h))
  | none => exact .throw _

theorem get_reports_any (args : List (Value H)) (i : Nat) : Reports Any (get args i) :=
  get_reports (fun _ _ => trivial) i

theorem number_reports (args : List (Value H)) (i : Nat) : Reports Any (number args i) :=
  (get_reports_any args i).bind fun v _ => v.asNumber_reports

theorem vector_reports (args : List (Value H)) (i : Nat) : Reports Any (vector args i) :=
  (get_reports_any args i).bind fun v _ => v.asVector_reports

theorem string_reports (args : List (Value H)) (i : Nat) : Reports Any (string args i) :=
  (get_reports_any args i).bind fun v _ => v.asString_reports

theorem numbers_reports (args : List (Value H)) :
    Reports (∀ x ∈ ·, Any x) (numbers args) :=
  .mapM fun v _ => v.asNumber_reports

end Arguments

end Readers

/-! ### Operators -/

/-- An operator on one operand reports at its place and computes data. -/
theorem UnaryOp.apply_reports (op : UnaryOp) (v : Value H) :
    Reports Value.Plain (op.apply v) := by
  cases op with
  | negate => exact v.asNumber_reports.map fun _ _ => trivial
  | logicalNot => exact .pure (Value.plain_ofBool _)
  | complement =>
    refine v.asNumber_reports.bind fun x _ => ?_
    refine (Number.asInt_reports x).bind fun n _ => ?_
    exact (Number.exactly_reports _).map fun _ _ => trivial

namespace BinaryOp

/-- Arithmetic reports at its place and computes data. -/
theorem calculate_reports (op : BinaryOp) (l r : Value H) :
    Reports Value.Plain (op.calculate l r) := by
  refine l.asNumber_reports.bind fun x _ => ?_
  refine r.asNumber_reports.bind fun y _ => ?_
  cases op.arithmetic? with
  | some f => exact .pure trivial
  | none => exact .throw _

/-- A comparison reports at its place and computes data. -/
theorem compare_reports (op : BinaryOp) (l r : Value H) :
    Reports Value.Plain (op.compare l r) := by
  unfold compare
  split
  · exact .pure (Value.plain_ofBool _)
  · exact .pure (Value.plain_ofBool _)
  · cases op.relation? with
    | some f =>
      refine l.asNumber_reports.bind fun x _ => ?_
      exact r.asNumber_reports.map fun y _ => Value.plain_ofBool _
    | none => exact .throw _

/-- The value of an operator is data or one of the operands. -/
theorem apply_reports (op : BinaryOp) (l r : Value H) :
    Reports (fun v => v.Plain ∨ v = l ∨ v = r) (op.apply l r) := by
  have harithmetic := op.calculate_reports l r
  have hcomparison := op.compare_reports l r
  cases op with
  | add | subtract | multiply | divide | remainder => exact harithmetic.mono fun v hv => Or.inl hv
  | equal | notEqual | greater | greaterEqual | less | lessEqual =>
    exact hcomparison.mono fun v hv => Or.inl hv
  | and | or =>
    refine .pure (Or.inr ?_)
    unfold select
    split
    · exact Or.inl rfl
    · exact Or.inr rfl

end BinaryOp

/-! ### The library -/

namespace LibraryFunction

/-- A function of one number reports at the place of its call. -/
theorem onNumber_reports (f : Float → Float) (args : List (Value H)) :
    Reports Value.Plain (onNumber f args) :=
  (Arguments.number_reports args 0).map fun _ _ => trivial

/-- Choosing one of the arguments reports at the place of the call. -/
theorem choose_reports (pick : Float → Float → Float) (args : List (Value H)) :
    Reports Value.Plain (choose pick args) := by
  refine (Arguments.numbers_reports args).bind fun xs _ => ?_
  cases xs with
  | nil => exact .throw _
  | cons x xs => exact .pure trivial

/-- Interpolation, of numbers or of vectors, reports at the place of the call. -/
theorem interpolate_reports (args : List (Value H)) :
    Reports Value.Plain (interpolate args) := by
  refine (Arguments.number_reports args 2).bind fun t _ => ?_
  refine (Arguments.get_reports_any args 0).bind fun a _ => ?_
  refine (Arguments.get_reports_any args 1).bind fun b _ => ?_
  split
  · split
    · exact .pure trivial
    · exact .throw _
  · refine a.asNumber_reports.bind fun x _ => ?_
    exact b.asNumber_reports.map fun y _ => trivial

/-- Moving a number into a range reports at the place of the call. -/
theorem confine_reports (args : List (Value H)) : Reports Value.Plain (confine args) := by
  refine (Arguments.number_reports args 0).bind fun x _ => ?_
  refine (Arguments.number_reports args 1).bind fun low _ => ?_
  refine (Arguments.number_reports args 2).bind fun high _ => ?_
  split
  · exact .throw _
  · exact .pure trivial

/-- A text that is no number is reported at the place of the call. -/
theorem parseNumber_reports (cs : List Char) : Reports Any (parseNumber cs) := by
  unfold parseNumber
  cases Number.ofChars? cs with
  | some x => exact .pure trivial
  | none => exact .throw _

/-- An argument that is no number is reported at the place of the call. -/
theorem makeVector_reports (args : List (Value H)) : Reports Value.Plain (makeVector args) := by
  unfold makeVector
  split
  · exact (Reports.mapM fun w _ => parseNumber_reports w).map fun _ _ => trivial
  · exact (Arguments.numbers_reports args).map fun _ _ => trivial

/-- A value without a length is reported at the place of the call. -/
theorem measure_reports (args : List (Value H)) : Reports Value.Plain (measure args) := by
  refine (Arguments.get_reports_any args 0).bind fun v _ => ?_
  split
  · exact (Number.exactly_reports _).map fun _ _ => trivial
  · exact (Number.exactly_reports _).map fun _ _ => trivial
  · exact .throw _

/-- A value that does not convert is reported at the place of the call. -/
theorem toNumber_reports (args : List (Value H)) : Reports Value.Plain (toNumber args) := by
  refine (Arguments.get_reports_any args 0).bind fun v _ => ?_
  split
  · exact .pure trivial
  · exact (parseNumber_reports _).map fun _ _ => trivial
  · exact .throw _

/-- A failed assertion is reported at the place of the call; one that passes gives an argument back.
-/
theorem affirm_reports (args : List (Value H)) : Reports (· ∈ args) (affirm args) := by
  refine (Arguments.get_reports (fun _ hv => hv) 0).bind fun v hv => ?_
  split
  · exact .pure hv
  · exact .throw _

/-- All functions of the library but one compute data. -/
theorem run_reports_plain {f : LibraryFunction} (hf : f ≠ assert) (args : List (Value H)) :
    Reports Value.Plain (f.run args) := by
  cases f with
  | atan2 =>
    refine (Arguments.number_reports args 0).bind fun y _ => ?_
    exact (Arguments.number_reports args 1).map fun x _ => trivial
  | lerp => exact interpolate_reports args
  | min | max => exact choose_reports _ args
  | clamp => exact confine_reports args
  | vec => exact makeVector_reports args
  | len => exact measure_reports args
  | str => exact (Arguments.get_reports_any args 0).map fun _ _ => trivial
  | num => exact toNumber_reports args
  | assert => exact absurd rfl hf
  | abs | floor | ceil | round | trunc | sqrt | sin | cos | tan | radians | degrees | sign =>
    exact onNumber_reports _ args

/-- A function of the library reports its faults at the call. Its value is data or one of the
arguments. -/
theorem run_reports (f : LibraryFunction) (args : List (Value H)) :
    Reports (fun v => v.Plain ∨ v ∈ args) (f.run args) := by
  by_cases hf : f = assert
  · rw [hf]
    exact (affirm_reports args).mono fun v hv => Or.inr hv
  · exact (run_reports_plain hf args).mono fun v hv => Or.inl hv

end LibraryFunction

/-! ### Members -/

/-- A method of vectors reports at the place of the call and computes data. -/
theorem VectorMethod.run_reports (m : VectorMethod) (v : Value H) (args : List (Value H)) :
    Reports Value.Plain (m.run v args) := by
  cases m with
  | normalized => exact v.asVector_reports.map fun _ _ => trivial
  | dot =>
    refine v.asVector_reports.bind fun xs _ => ?_
    refine (Arguments.vector_reports args 0).bind fun ys _ => ?_
    split
    · exact .pure trivial
    · exact .throw _

/-- A method of texts reports at the place of the call and computes data. -/
theorem StringMethod.run_reports (m : StringMethod) (v : Value H) (args : List (Value H)) :
    Reports Value.Plain (m.run v args) := by
  refine v.asString_reports.bind fun s _ => ?_
  cases m with
  | upper | lower | trim => exact .pure trivial
  | contains | startsWith | endsWith =>
    exact (Arguments.string_reports args 0).map fun _ _ => Value.plain_ofBool _
  | replace =>
    refine (Arguments.string_reports args 0).bind fun pattern _ => ?_
    exact (Arguments.string_reports args 1).map fun _ _ => trivial
  | substr =>
    refine (Arguments.number_reports args 0).bind fun x _ => ?_
    refine (Number.asIndex_reports x).bind fun start _ => ?_
    cases args[1]? with
    | none => exact .pure trivial
    | some w =>
      refine w.asNumber_reports.bind fun y _ => ?_
      exact (Number.asIndex_reports y).map fun _ _ => trivial

/-- What is read reports at the place of the access and is data, and a method is one of vectors or
strings. -/
def Member.Standard : Member H → Prop
  | property read => ∀ v, Reports Value.Plain (read v)
  | method m => m.Standard

/-- All members of the table are standard. -/
def MemberTable.Standard (t : MemberTable H) : Prop :=
  ∀ name m, t.get? name = some m → m.Standard

namespace MemberTable

/-- A table without members is standard. -/
theorem standard_empty (typeName : String) : (empty typeName : MemberTable H).Standard :=
  fun _ _ h => nomatch h

variable {t : MemberTable H}

/-- Adding a property that reports and reads data keeps a table standard. -/
theorem Standard.property (ht : t.Standard) (name : String)
    {read : Value H → Position → Evaluated (Value H)}
    (hread : ∀ v, Reports Value.Plain (read v)) : (t.property name read).Standard :=
  forall_get?_insert ht name hread

/-- Adding a method of the language keeps a table standard. -/
theorem Standard.method (ht : t.Standard) (m : Method H) (hm : m.Standard) :
    (t.method m).Standard :=
  forall_get?_insert ht m.signature.name hm

/-- The members of vectors are standard. -/
theorem standard_vector : (vector : MemberTable H).Standard := by
  have hcomponent : ∀ (i : Nat) (v : Value H),
      Reports (Value.Plain (H := H)) fun p => v.asVector p >>= fun xs => component xs i p :=
    fun i v => v.asVector_reports.bind fun xs _ => component_reports xs i
  have hcount : ∀ v : Value H, Reports (Value.Plain (H := H)) fun p => do
      let xs ← v.asVector p
      return .number (← Number.exactly xs.length p) :=
    fun v => v.asVector_reports.bind fun xs _ => (Number.exactly_reports _).map fun _ _ => trivial
  have hlength : ∀ v : Value H, Reports (Value.Plain (H := H)) fun p => do
      return .number (Vector.magnitude (← v.asVector p)) :=
    fun v => v.asVector_reports.map fun _ _ => trivial
  exact (standard_empty "vector")
    |>.property "x" (hcomponent 0)
    |>.property "y" (hcomponent 1)
    |>.property "z" (hcomponent 2)
    |>.property "w" (hcomponent 3)
    |>.property "count" hcount
    |>.property "length" hlength
    |>.method (.vector .normalized) trivial
    |>.method (.vector .dot) trivial

/-- The members of texts are standard. -/
theorem standard_string : (string : MemberTable H).Standard := by
  have hlength : ∀ v : Value H, Reports (Value.Plain (H := H)) fun p => do
      let s ← v.asString p
      return .number (← Number.exactly s.length p) :=
    fun v => v.asString_reports.bind fun s _ => (Number.exactly_reports _).map fun _ _ => trivial
  exact (standard_empty "string")
    |>.property "length" hlength
    |>.method (.string .upper) trivial
    |>.method (.string .lower) trivial
    |>.method (.string .trim) trivial
    |>.method (.string .contains) trivial
    |>.method (.string .startsWith) trivial
    |>.method (.string .endsWith) trivial
    |>.method (.string .replace) trivial
    |>.method (.string .substr) trivial

end MemberTable

/-! ### Access and calls -/

namespace Registry

variable {r : Registry H}

/-- Every value has a standard table if the objects of the host have none. -/
theorem tableOf_standard (hr : ∀ d, r.members? d = none) (v : Value H) :
    (r.tableOf v).Standard := by
  cases v with
  | vector xs => exact MemberTable.standard_vector
  | string s => exact MemberTable.standard_string
  | object o =>
    rw [tableOf, hr]
    exact MemberTable.standard_empty _
  | _ => exact MemberTable.standard_empty _

/-- What stands after a point is data, or a method of the language with the value in front of the
point. -/
theorem access_reports (hr : ∀ d, r.members? d = none) (v : Value H) (name : String) :
    Reports (fun w => w.Plain ∨ ∃ m, m.Standard ∧ w = .bound m v) (r.access v name) := by
  have ht := tableOf_standard hr v name
  unfold access
  dsimp only
  cases h : (r.tableOf v).get? name with
  | none => exact .throw _
  | some m =>
    cases m with
    | property read => exact (ht _ h v).mono fun w hw => Or.inl hw
    | method m => exact .pure (Or.inr ⟨m, ht _ h, rfl⟩)

/-- A library function looks at the place of the call only. -/
theorem apply_ofPosition {f : Function H} (hf : f.Standard) (args : List (Value H))
    (site : CallSite) : r.apply f args (.ofPosition site.position) = r.apply f args site := by
  cases f with
  | library f n => rfl
  | host f => exact hf.elim

/-- A call of a library function reports at the place of the call. -/
theorem apply_reports {f : Function H} (hf : f.Standard) (args : List (Value H)) :
    Reports (fun v => v.Plain ∨ v ∈ args) fun p => r.apply f args (.ofPosition p) := by
  cases f with
  | library f n =>
    exact (Signature.admit_reports _ _).bind fun _ _ => LibraryFunction.run_reports f args
  | host f => exact hf.elim

/-- A method of the language looks at the place of the call only. -/
theorem invoke_ofPosition {m : Method H} (hm : m.Standard) (v : Value H) (args : List (Value H))
    (site : CallSite) : r.invoke m v args (.ofPosition site.position) = r.invoke m v args site := by
  cases m with
  | vector m | string m => rfl
  | host m => exact hm.elim

/-- A call of a method of the language reports at the place of the call. -/
theorem invoke_reports {m : Method H} (hm : m.Standard) (v : Value H) (args : List (Value H)) :
    Reports Value.Plain fun p => r.invoke m v args (.ofPosition p) := by
  cases m with
  | vector m =>
    exact (Signature.admit_reports _ _).bind fun _ _ => VectorMethod.run_reports m v args
  | string m =>
    exact (Signature.admit_reports _ _).bind fun _ _ => StringMethod.run_reports m v args
  | host m => exact hm.elim

end Registry

end Reporting

end MapExpr
