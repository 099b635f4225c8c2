import MapExpr.Entities
import MapExpr.Proofs.Evaluation.Alike
import MapExpr.Proofs.Evaluation.Eager

/-!
# What a host registers is seen through its objects only

Two contexts, each of its own host, that bind the same names to values that are alike evaluate every
expression to values that are alike, or fail with the same fault (`Context.Alike.eval`), and after a
batch they bind the same names to values that are alike again. The members of objects, and what the
functions and methods of the host do, never come into play: an object can be reached from an object
or through the code of the host only, and neither of them is alike to anything.

So a context without such values may be given any other registry (`Context.withRegistry_eq`).
-/

namespace MapExpr

open Value

variable {H K : Host}

/-! ## Tables of members -/

/-- What is read of values that are alike is alike. -/
def ReadsAlike (f : Value H → Position → Evaluated (Value H))
    (g : Value K → Position → Evaluated (Value K)) : Prop :=
  ∀ v w, v.Alike w → ∀ p, Matches Alike (f v p) (g w p)

/-- A reading of vectors need only be compared on one and the same vector. -/
theorem ReadsAlike.of_vector {f : List Float → Position → Evaluated (Value H)}
    {g : List Float → Position → Evaluated (Value K)}
    (h : ∀ xs p, Matches Alike (f xs p) (g xs p)) :
    ReadsAlike (fun v p => v.asVector p >>= fun xs => f xs p)
      (fun w p => w.asVector p >>= fun xs => g xs p) := by
  intro v w hv p
  dsimp only
  rw [hv.asVector_eq]
  exact .bind_same _ fun xs => h xs p

/-- A reading of texts need only be compared on one and the same text. -/
theorem ReadsAlike.of_string {f : String → Position → Evaluated (Value H)}
    {g : String → Position → Evaluated (Value K)}
    (h : ∀ s p, Matches Alike (f s p) (g s p)) :
    ReadsAlike (fun v p => v.asString p >>= fun s => f s p)
      (fun w p => w.asString p >>= fun s => g s p) := by
  intro v w hv p
  dsimp only
  rw [hv.asString_eq]
  exact .bind_same _ fun s => h s p

/-- Both members are read alike, or they are the same method of the language. -/
inductive Member.Alike : Member H → Member K → Prop
  | property {f : Value H → Position → Evaluated (Value H)}
      {g : Value K → Position → Evaluated (Value K)} (h : ReadsAlike f g) :
      Alike (.property f) (.property g)
  | vectorMethod (m : VectorMethod) : Alike (.method (.vector m)) (.method (.vector m))
  | stringMethod (m : StringMethod) : Alike (.method (.string m)) (.method (.string m))

namespace MemberTable

/-- Both tables have the same names, and under each of them members that are alike. -/
structure Alike (t : MemberTable H) (u : MemberTable K) : Prop where
  typeName : t.typeName = u.typeName
  get? : ∀ name, Option.Rel Member.Alike (t.get? name) (u.get? name)

/-- Tables without members are alike. -/
theorem alike_empty (typeName : String) :
    (empty typeName : MemberTable H).Alike (empty typeName : MemberTable K) where
  typeName := rfl
  get? _ := .none

namespace Alike

variable {t : MemberTable H} {u : MemberTable K}

/-- Alike tables stay alike when alike members are added under one name. -/
theorem insert (h : t.Alike u) (name : String) {m : Member H} {n : Member K} (hm : m.Alike n) :
    (t.insert name m).Alike (u.insert name n) where
  typeName := h.typeName
  get? x := by
    rw [get?_insert, get?_insert]
    split
    · exact .some hm
    · exact h.get? x

/-- Alike tables stay alike when a property that reads alike is added. -/
theorem property (h : t.Alike u) (name : String) {f : Value H → Position → Evaluated (Value H)}
    {g : Value K → Position → Evaluated (Value K)}
    (hf : ReadsAlike f g) :
    (t.property name f).Alike (u.property name g) :=
  h.insert name (.property hf)

/-- Alike tables stay alike when a method of vectors is added. -/
theorem vectorMethod (h : t.Alike u) (m : VectorMethod) :
    (t.method (.vector m)).Alike (u.method (.vector m)) :=
  h.insert _ (.vectorMethod m)

/-- Alike tables stay alike when a method of texts is added. -/
theorem stringMethod (h : t.Alike u) (m : StringMethod) :
    (t.method (.string m)).Alike (u.method (.string m)) :=
  h.insert _ (.stringMethod m)

end Alike

/-- The members of vectors are those of the language, whatever the host. -/
theorem alike_vector : (vector : MemberTable H).Alike (vector : MemberTable K) := by
  have hcomponent : ∀ i, ReadsAlike (H := H) (K := K)
      (fun v p => do component (← v.asVector p) i p)
      (fun w p => do component (← w.asVector p) i p) :=
    fun i => .of_vector fun xs p => component_matches xs i p
  have hcount : ReadsAlike (H := H) (K := K)
      (fun v p => do return .number (← Number.exactly (← v.asVector p).length p))
      (fun w p => do return .number (← Number.exactly (← w.asVector p).length p)) :=
    .of_vector fun xs p => .bind_same _ fun x => .pure (.number x)
  have hlength : ReadsAlike (H := H) (K := K)
      (fun v p => do return .number (Vector.magnitude (← v.asVector p)))
      (fun w p => do return .number (Vector.magnitude (← w.asVector p))) :=
    .of_vector fun xs p => .pure (.number _)
  exact (alike_empty "vector")
    |>.property "x" (hcomponent 0)
    |>.property "y" (hcomponent 1)
    |>.property "z" (hcomponent 2)
    |>.property "w" (hcomponent 3)
    |>.property "count" hcount
    |>.property "length" hlength
    |>.vectorMethod .normalized
    |>.vectorMethod .dot

/-- The members of texts are those of the language, whatever the host. -/
theorem alike_string : (string : MemberTable H).Alike (string : MemberTable K) := by
  have hlength : ReadsAlike (H := H) (K := K)
      (fun v p => do return .number (← Number.exactly (← v.asString p).length p))
      (fun w p => do return .number (← Number.exactly (← w.asString p).length p)) :=
    .of_string fun s p => .bind_same _ fun x => .pure (.number x)
  exact (alike_empty "string")
    |>.property "length" hlength
    |>.stringMethod .upper
    |>.stringMethod .lower
    |>.stringMethod .trim
    |>.stringMethod .contains
    |>.stringMethod .startsWith
    |>.stringMethod .endsWith
    |>.stringMethod .replace
    |>.stringMethod .substr

end MemberTable

/-! ## Access and calls -/

namespace Registry

variable {r : Registry H} {q : Registry K} {v : Value H} {w : Value K} {args : List (Value H)}
  {args' : List (Value K)}

/-- The tables of the language do not depend on the registry. -/
theorem tableOf_alike (h : v.Alike w) : (r.tableOf v).Alike (q.tableOf w) := by
  cases h with
  | vector xs => exact MemberTable.alike_vector
  | string s => exact MemberTable.alike_string
  | _ => exact MemberTable.alike_empty _

/-- Alike values have alike members, in any two registries. -/
theorem access_matches (h : v.Alike w) (name : String) (p : Position) :
    Matches Alike (r.access v name p) (q.access w name p) := by
  obtain ⟨htypeName, hget⟩ := tableOf_alike (r := r) (q := q) h
  have hmember := hget name
  unfold access
  dsimp only
  rw [htypeName]
  generalize (r.tableOf v).get? name = m, (q.tableOf w).get? name = n at hmember
  cases hmember with
  | none => exact .fault _
  | some hmn =>
    cases hmn with
    | property hf => exact hf v w h p
    | vectorMethod m => exact .value (.vectorMethod m h)
    | stringMethod m => exact .value (.stringMethod m h)

/-- A function of the library has alike outcomes in any two registries. -/
theorem apply_matches (f : LibraryFunction) (n : Nat) (h : AlikeAll args args') (site : CallSite) :
    Matches Alike (r.apply (.library f n) args site) (q.apply (.library f n) args' site) := by
  unfold apply
  rw [h.length_eq]
  exact .bind_same _ fun _ => LibraryFunction.run_matches f h site.position

/-- A method of vectors has alike outcomes in any two registries. -/
theorem invoke_vectorMethod_matches (m : VectorMethod) (hv : v.Alike w) (h : AlikeAll args args')
    (site : CallSite) :
    Matches Alike (r.invoke (.vector m) v args site) (q.invoke (.vector m) w args' site) := by
  unfold invoke
  rw [h.length_eq]
  exact .bind_same _ fun _ => VectorMethod.run_matches m hv h site.position

/-- A method of texts has alike outcomes in any two registries. -/
theorem invoke_stringMethod_matches (m : StringMethod) (hv : v.Alike w) (h : AlikeAll args args')
    (site : CallSite) :
    Matches Alike (r.invoke (.string m) v args site) (q.invoke (.string m) w args' site) := by
  unfold invoke
  rw [h.length_eq]
  exact .bind_same _ fun _ => StringMethod.run_matches m hv h site.position

end Registry

namespace Context

/-- Both contexts bind the same names, and each of them to values that are alike. -/
def Alike (c : Context H) (d : Context K) : Prop :=
  ∀ x, Option.Rel Value.Alike (c.resolve x) (d.resolve x)

namespace Alike

variable {c : Context H} {d : Context K}

/-- A name stands for alike values in alike contexts. -/
theorem lookup (h : c.Alike d) (x : String) : (c.lookup x).Alike (d.lookup x) := by
  have hx := h x
  unfold Context.lookup
  generalize c.resolve x = a, d.resolve x = b at hx
  cases hx with
  | none => exact .none
  | some hab => exact hab

/-- Contexts stay alike when one name is bound to alike values. -/
theorem bind (h : c.Alike d) (x : String) {v : Value H} {w : Value K} (hv : v.Alike w) :
    (c.bind x v).Alike (d.bind x w) := by
  intro y
  rw [resolve_bind, resolve_bind]
  split
  · exact .some hv
  · exact h y

/-! ## Evaluation -/

mutual

/-- An expression has values that are alike in both contexts, or fails with one fault. -/
theorem eval (h : c.Alike d) : (e : Expr) → Matches Value.Alike (c.eval e) (d.eval e)
  | .literal v _ => .value (alike_literal v)
  | .vector es _ => by
    rw [Context.eval, Context.eval, evalComponents_eq h es]
    exact .bind_same _ fun xs => .pure (.vector xs)
  | .var x _ => .value (h.lookup x)
  | .member e x p => (eval h e).bind fun v w hv => Registry.access_matches hv x p
  | .index e i p => by
    refine (eval h e).bind fun v w hv => ?_
    rw [hv.asVector_eq]
    refine .bind_same _ fun xs => (eval h i).bind fun v' w' hv' => ?_
    rw [hv'.asNumber_eq]
    exact .bind_same _ fun x => .bind_same _ fun n => component_matches xs n p
  | .call f as site => by
    refine (eval h f).bind fun v w hv => ?_
    cases hv with
    | library f n =>
      exact (evalAll h as).bind fun vs ws hvs => Registry.apply_matches f n hvs site
    | vectorMethod m hv =>
      exact (evalAll h as).bind fun vs ws hvs => Registry.invoke_vectorMethod_matches m hv hvs site
    | stringMethod m hv =>
      exact (evalAll h as).bind fun vs ws hvs => Registry.invoke_stringMethod_matches m hv hvs site
    | none | number _ | vector _ | string _ => exact .fault _
  | .unary op e p => (eval h e).bind fun v w hv => op.apply_matches hv p
  | .binary op l r p => by
    rcases op.cases_logical with hop | hop
    · rw [eval_logical hop, eval_logical hop]
      refine (eval h l).bind fun v w hv => ?_
      unfold BinaryOp.leftDecides
      rw [hv.isTrue_eq]
      exact .ite (.pure hv) (eval h r)
    · rw [eval_binary hop, eval_binary hop]
      exact (eval h l).bind fun v w hv => (eval h r).bind fun v' w' hv' =>
        op.apply_matches hv hv' p
  | .conditional t y n _ => by
    refine (eval h t).bind fun v w hv => ?_
    rw [hv.isTrue_eq]
    exact .ite (eval h y) (eval h n)

/-- Expressions have alike values in alike contexts, or fail with one fault. -/
theorem evalAll (h : c.Alike d) : (es : List Expr) →
    Matches AlikeAll (c.evalAll es) (d.evalAll es)
  | [] => .value .nil
  | e :: es => (eval h e).bind fun _ _ hv => (evalAll h es).bind fun _ _ hvs =>
    .pure (.cons hv hvs)

/-- Components have the same numbers in alike contexts, or fail with one fault. -/
theorem evalComponents_eq (h : c.Alike d) : (es : List Expr) →
    c.evalComponents es = d.evalComponents es
  | [] => rfl
  | e :: es => by
    have he := eval h e
    rw [Context.evalComponents, Context.evalComponents, evalComponents_eq h es]
    generalize c.eval e = x, d.eval e = y at he
    cases he with
    | value hv =>
      have hx := congrFun hv.asNumber_eq e.position
      exact congrArg (· >>= fun x => d.evalComponents es >>= fun xs => pure (x :: xs)) hx
    | fault f => rfl

end

/-- A tree that was built by hand has values that are alike too. -/
theorem evalTree (h : c.Alike d) (e : Expr) : Matches Value.Alike (c.evalTree e) (d.evalTree e) :=
  h.eval e.addressed

/-- An entry leaves alike contexts alike, or fails with one fault in both. -/
theorem assignOne (h : c.Alike d) (a : Assignment) :
    Matches Context.Alike (c.assignOne a) (d.assignOne a) :=
  (h.eval a.value).bind fun _ _ hv => .pure (h.bind a.name hv)

/-- A batch leaves contexts that are alike, and ends with one fault or with none. -/
theorem assign (h : c.Alike d) (as : List Assignment) :
    (c.assign as).1.Alike (d.assign as).1 ∧ (c.assign as).2 = (d.assign as).2 := by
  induction as generalizing c d with
  | nil => exact ⟨h, rfl⟩
  | cons a as ih =>
    have ha := h.assignOne a
    rw [Context.assign, Context.assign]
    generalize c.assignOne a = x, d.assignOne a = y at ha
    cases ha with
    | value h' => exact ih h'
    | fault e => exact ⟨h, rfl⟩

end Alike

/-! ## Other registries -/

/-- The context with another registry. -/
def withRegistry (c : Context H) (r : Registry H) : Context H := { c with registry := r }

/-- All that is bound is data or a function of the library: no object, no method with its receiver,
no function of the host. -/
def Elementary (c : Context H) : Prop :=
  ∀ x v, c.resolve x = some v → v.Plain ∨ ∃ f n, v = .function (.library f n)

variable {c : Context H} {r : Registry H}

/-- Nothing is bound in the empty context. -/
theorem elementary_empty : (empty r).Elementary := nofun

namespace Elementary

/-- Binding data keeps a context elementary. -/
theorem bind (h : c.Elementary) (x : String) {v : Value H} (hv : v.Plain) :
    (c.bind x v).Elementary := by
  intro y w hw
  rw [resolve_bind] at hw
  split at hw
  · cases hw
    exact .inl hv
  · exact h y w hw

/-- Binding the library keeps a context elementary. -/
theorem bindLibrary (h : c.Elementary) : c.bindLibrary.Elementary := by
  intro x v hv
  unfold Context.bindLibrary at hv
  dsimp only at hv
  split at hv
  · cases hv
    exact .inr ⟨_, _, rfl⟩
  · exact h x v hv

/-- What is bound is alike to itself. -/
theorem alike_self (h : c.Elementary) : c.Alike c := by
  intro x
  cases hx : c.resolve x with
  | none => exact .none
  | some v =>
    refine .some ?_
    rcases h x v hx with hv | ⟨f, n, rfl⟩
    · cases v with
      | none => exact .none
      | number x => exact .number x
      | vector xs => exact .vector xs
      | string s => exact .string s
      | function _ | bound _ _ | object _ => exact hv.elim
    · exact .library f n

end Elementary

/-- Within one host, what is evaluated with another registry is the same. -/
theorem Alike.eval_withRegistry (h : c.Alike c) (r : Registry H) (e : Expr) :
    (c.withRegistry r).eval e = c.eval e := by
  have h' : c.Alike (c.withRegistry r) := h
  have he := h'.eval e
  generalize c.eval e = x, (c.withRegistry r).eval e = y at he
  cases he with
  | value hv => rw [hv.eq]
  | fault f => rfl

/-- Within one host, a batch does the same with another registry. -/
theorem Alike.assign_withRegistry (h : c.Alike c) (r : Registry H) (as : List Assignment) :
    (c.withRegistry r).assign as = ((c.assign as).1.withRegistry r, (c.assign as).2) := by
  induction as generalizing c with
  | nil => rfl
  | cons a as ih =>
    have ha := h.eval a.value
    rw [Context.assign, Context.assign, Context.assignOne, Context.assignOne,
      h.eval_withRegistry r a.value]
    generalize c.eval a.value = x at ha
    cases ha with
    | value hv => exact ih (h.bind a.name hv)
    | fault e => rfl

/-- What a host registers is not seen from a context that binds data and functions of the library
only. With another registry every expression has the same result, and every batch ends with the same
bindings. In another host whose context binds the same, the results and the bindings are alike, and
the faults are the same. -/
theorem registration_conservative (hc : c.Elementary) :
    (∀ r : Registry H,
      (∀ e, (c.withRegistry r).eval e = c.eval e) ∧
      (∀ e, (c.withRegistry r).evalTree e = c.evalTree e) ∧
      ∀ as, (c.withRegistry r).assign as = ((c.assign as).1.withRegistry r, (c.assign as).2)) ∧
    ∀ {K : Host} (d : Context K), c.Alike d →
      (∀ e, Matches Value.Alike (c.eval e) (d.eval e)) ∧
      (∀ e, Matches Value.Alike (c.evalTree e) (d.evalTree e)) ∧
      ∀ as, (c.assign as).1.Alike (d.assign as).1 ∧ (c.assign as).2 = (d.assign as).2 := by
  have hself : c.Alike c := hc.alike_self
  refine ⟨fun r => ⟨fun e => ?_, fun e => ?_, fun as => ?_⟩, fun d h => ⟨?_, ?_, ?_⟩⟩
  · exact hself.eval_withRegistry r e
  · exact hself.eval_withRegistry r e.addressed
  · exact hself.assign_withRegistry r as
  · exact h.eval
  · exact h.evalTree
  · exact h.assign

/-- Whether a method that is kept with its receiver is equal to itself does not depend on whether
points have members, and the batch `m = s.upper` binds `m` to the same method either way. -/
theorem registration_conservative_method :
    let c : Context Entities.host :=
      (empty (Entities.registry "Point" 0)).bindLibrary.bind "s" (.string "a")
    let r := Entities.plainRegistry "Point" 0
    let method : Expr := .member (.var "s" ⟨1, 0⟩) "upper" ⟨1, 1⟩
    let e : Expr := .binary .equal method method ⟨1, 8⟩
    let as : List Assignment := [⟨"m", method, ⟨1, 0⟩⟩]
    (c.Elementary ∧ c.eval e = .ok (.number 1) ∧
      (c.assign as).1.resolve "m" = some (.bound (.string .upper) (.string "a"))) ∧
    (c.withRegistry r).eval e = c.eval e ∧
    (c.withRegistry r).assign as = ((c.assign as).1.withRegistry r, (c.assign as).2) := by
  intro c r method e as
  have hc : c.Elementary := elementary_empty.bindLibrary.bind "s" trivial
  obtain ⟨heval, -, hassign⟩ := (registration_conservative hc).1 r
  exact ⟨⟨hc, rfl, rfl⟩, heval e, hassign as⟩

end Context

end MapExpr
