import MapExpr.Eval
import MapExpr.Proofs.Tree

/-!
# The value of a tree depends on its names

Two contexts with one registry that give the same value to every name in a tree give the same result
to the tree, be it a value or a fault (`eval_congr`). So nothing that happens to other names is seen
by the tree, and whether a name is bound to `none` or not bound at all is seen by no tree
(`sameResult_of_names`).

The names of a tree are those of its variables. What stands behind a point is not among them, and a
function is found under its name only if a variable in the tree spells that name.
-/

namespace MapExpr

namespace Context

variable {H : Host} {c d : Context H}

mutual

/-- The result is the same in two contexts that give the same value to all names of the tree. -/
theorem eval_congr (hr : d.registry = c.registry) : (e : Expr) →
    (∀ x ∈ e.names, d.lookup x = c.lookup x) → d.eval e = c.eval e
  | .literal _ _, _ => rfl
  | .vector es _, h => by rw [eval, eval, evalComponents_congr hr es h]
  | .var x _, h => by rw [eval, eval, h x List.mem_cons_self]
  | .member e _ _, h => by rw [eval, eval, eval_congr hr e h, hr]
  | .index e i _, h => by
    rw [Expr.names_index, List.forall_mem_append] at h
    rw [eval, eval, eval_congr hr e h.1, eval_congr hr i h.2]
  | .call f as _, h => by
    rw [Expr.names_call, List.forall_mem_append] at h
    rw [eval, eval, eval_congr hr f h.1, evalAll_congr hr as h.2, hr]
  | .unary _ e _, h => by rw [eval, eval, eval_congr hr e h]
  | .binary _ l r _, h => by
    rw [Expr.names_binary, List.forall_mem_append] at h
    rw [eval, eval, eval_congr hr l h.1, eval_congr hr r h.2]
  | .conditional t y n _, h => by
    rw [Expr.names_conditional, List.forall_mem_append, List.forall_mem_append] at h
    rw [eval, eval, eval_congr hr t h.1, eval_congr hr y h.2.1, eval_congr hr n h.2.2]

/-- Several trees have the same results if their names stand for the same values. -/
theorem evalAll_congr (hr : d.registry = c.registry) : (es : List Expr) →
    (∀ x ∈ Expr.namesAll es, d.lookup x = c.lookup x) → d.evalAll es = c.evalAll es
  | [], _ => rfl
  | e :: es, h => by
    rw [Expr.namesAll_cons, List.forall_mem_append] at h
    rw [evalAll, evalAll, eval_congr hr e h.1, evalAll_congr hr es h.2]

/-- Components have the same numbers if their names stand for the same values. -/
theorem evalComponents_congr (hr : d.registry = c.registry) : (es : List Expr) →
    (∀ x ∈ Expr.namesAll es, d.lookup x = c.lookup x) →
    d.evalComponents es = c.evalComponents es
  | [], _ => rfl
  | e :: es, h => by
    rw [Expr.namesAll_cons, List.forall_mem_append] at h
    rw [evalComponents, evalComponents, eval_congr hr e h.1, evalComponents_congr hr es h.2]

end

/-- Another name stands for what it did before the binding. -/
theorem lookup_bind_of_ne {x y : String} {v : Value H} (h : y ≠ x) :
    (c.bind x v).lookup y = c.lookup y := by
  rw [lookup, resolve_bind_of_ne c v h]
  rfl

/-- The name that is bound stands for its value. -/
@[simp] theorem lookup_bind_self {x : String} {v : Value H} : (c.bind x v).lookup x = v := by
  rw [lookup, resolve_bind_self]
  rfl

/-- Another name stands for what it did before a name was taken out. -/
theorem lookup_unbind_of_ne {x y : String} (h : y ≠ x) : (c.unbind x).lookup y = c.lookup y := by
  rw [lookup, resolve_unbind, if_neg h]
  rfl

/-- The name that is taken out stands for `none`. -/
theorem lookup_unbind_self {x : String} : (c.unbind x).lookup x = .none := by
  rw [lookup, resolve_unbind, if_pos rfl]
  rfl

/-- A name that a tree does not mention may be bound. -/
theorem eval_bind_of_not_mem {x : String} {e : Expr} (h : x ∉ e.names) (v : Value H) :
    (c.bind x v).eval e = c.eval e := by
  have hr : (c.bind x v).registry = c.registry := rfl
  exact eval_congr hr e fun y hy => lookup_bind_of_ne (ne_of_mem_of_not_mem hy h)

/-- A name that no function of the library has keeps its value when the library is bound. -/
theorem lookup_bindLibrary_of_ne {x : String} (h : ∀ f : LibraryFunction, f.name ≠ x) :
    c.bindLibrary.lookup x = c.lookup x := by
  have hx : LibraryFunction.ofName? x = none := by
    cases hf : LibraryFunction.ofName? x with
    | none => rfl
    | some f => exact absurd (LibraryFunction.name_of_ofName? hf) (h f)
  rw [lookup, bindLibrary]
  dsimp only
  rw [hx]
  rfl

/-- The tree has the same result in the second context as in the first one, be it evaluated as it
stands or as one that is built by hand. -/
structure SameResult (c d : Context H) (e : Expr) : Prop where
  eval : d.eval e = c.eval e
  evalTree : d.evalTree e = c.evalTree e

/-- The result is the same if the names of the tree stand for the same values. -/
theorem sameResult_of_lookup (hr : d.registry = c.registry) {e : Expr}
    (h : ∀ x ∈ e.names, d.lookup x = c.lookup x) : SameResult c d e where
  eval := eval_congr hr e h
  evalTree := eval_congr hr e.addressed (by rwa [Expr.addressed, Expr.names_addressAt])

/-- The result of a tree is determined by the values of its names. It is the same if another name is
bound, bound anew or taken out of the context, and if the library is bound of which the tree names
no function; and every name may be bound to `none` just as well as not be bound. -/
theorem sameResult_of_names (c : Context H) (e : Expr) :
    (∀ d : Context H, d.registry = c.registry → (∀ x ∈ e.names, d.lookup x = c.lookup x) →
      SameResult c d e) ∧
    (∀ x ∉ e.names, SameResult c (c.unbind x) e ∧ ∀ v, SameResult c (c.bind x v) e) ∧
    ((∀ f : LibraryFunction, f.name ∉ e.names) → SameResult c c.bindLibrary e) ∧
    ∀ x, SameResult (c.bind x .none) (c.unbind x) e := by
  refine ⟨fun d hr h => sameResult_of_lookup hr h, fun x hx => ⟨?_, fun v => ?_⟩, fun h => ?_,
    fun x => ?_⟩
  · have hr : (c.unbind x).registry = c.registry := rfl
    exact sameResult_of_lookup hr fun y hy => lookup_unbind_of_ne (ne_of_mem_of_not_mem hy hx)
  · have hr : (c.bind x v).registry = c.registry := rfl
    exact sameResult_of_lookup hr fun y hy => lookup_bind_of_ne (ne_of_mem_of_not_mem hy hx)
  · have hr : c.bindLibrary.registry = c.registry := rfl
    exact sameResult_of_lookup hr fun y hy => lookup_bindLibrary_of_ne fun f hf => h f (hf ▸ hy)
  · have hr : (c.unbind x).registry = (c.bind x .none).registry := rfl
    refine sameResult_of_lookup hr fun y _ => ?_
    by_cases hy : y = x
    · rw [hy, lookup_unbind_self, lookup_bind_self]
    · rw [lookup_unbind_of_ne hy, lookup_bind_of_ne hy]

/-- In `v.x.abs` neither the member `x` nor the member `abs` is a name: a binding of `x` and the
function `abs` change nothing in the fault. -/
theorem sameResult_of_names_members :
    let c : Context Host.bare := (empty .bare).bind "v" (.vector [1, 2])
    let e : Expr := .member (.member (.var "v" ⟨1, 0⟩) "x" ⟨1, 1⟩) "abs" ⟨1, 3⟩
    ("x" ∉ e.names ∧ (∀ f : LibraryFunction, f.name ∉ e.names) ∧
      c.eval e = .error ⟨.unknownMember "number" "abs", ⟨1, 3⟩⟩) ∧
    SameResult c (c.unbind "x") e ∧ SameResult c (c.bind "x" (.string "s")) e ∧
    SameResult c c.bindLibrary e ∧
    SameResult c (c.bind "x" (.string "s")).bindLibrary e ∧
    SameResult (c.bind "v" .none) (c.unbind "v") e := by
  intro c e
  have hx : "x" ∉ e.names := by decide
  have hlibrary : ∀ f : LibraryFunction, f.name ∉ e.names := by
    intro f
    cases f <;> decide
  obtain ⟨hlookup, hname, hbound, hnone⟩ := sameResult_of_names c e
  refine ⟨⟨hx, hlibrary, rfl⟩, (hname "x" hx).1, (hname "x" hx).2 _, hbound hlibrary,
    hlookup _ rfl fun y hy => ?_, hnone "v"⟩
  obtain rfl : y = "v" := List.mem_singleton.1 hy
  rfl

end Context

/-! ## A part of a tree may be replaced by a name

If a part of a tree has a value, then it may be taken out: the tree with a variable in its place has
the same result, value or fault, in the context in which the variable is bound to the value, as long
as the tree itself holds no variable of that name (`eval_within_var`).

The proof goes up the way from the part to the root. At each node the child on the way has the same
result in both trees, the other children have the same result in both contexts, and the place of
the child, which a fault of the node may be reported at, is the same too (`eval_fill_congr`).

A tree that is built by hand is addressed before it is evaluated. As long as the functions and
methods of the host look at the place of a call only, that makes no difference (`evalTree_eq_eval`).
-/

section Replacement

variable {H : Host}

/-- What the functions and methods of the host do depends on their receiver, their arguments and
the place of the call, but not on the way from the root of the tree to the call. -/
structure Registry.IgnoresPaths (r : Registry H) : Prop where
  callFunction : ∀ f args s t, s.position = t.position →
    r.callFunction f args s = r.callFunction f args t
  callMethod : ∀ m receiver args s t, s.position = t.position →
    r.callMethod m receiver args s = r.callMethod m receiver args t

/-! ### Addresses -/

namespace Registry.IgnoresPaths

variable {r : Registry H} {s t : CallSite}

/-- A function has one outcome at calls of one place, however they are reached. -/
theorem apply_eq (hr : r.IgnoresPaths) (f : Function H) (args : List (Value H))
    (h : s.position = t.position) : r.apply f args s = r.apply f args t := by
  cases f with
  | library f n => rw [apply, apply, h]
  | host f =>
    rw [apply, apply, h]
    exact bind_congr fun _ => hr.callFunction f args s t h

/-- A method has one outcome at calls of one place, however they are reached. -/
theorem invoke_eq (hr : r.IgnoresPaths) (m : Method H) (receiver : Value H) (args : List (Value H))
    (h : s.position = t.position) : r.invoke m receiver args s = r.invoke m receiver args t := by
  cases m with
  | vector m | string m => rw [invoke, invoke, h]
  | host m =>
    rw [invoke, invoke, h]
    exact bind_congr fun _ => hr.callMethod m receiver args s t h

end Registry.IgnoresPaths

namespace Context

variable {c d : Context H}

mutual

/-- Writing ways into the calls of a tree does not change its result. -/
theorem eval_addressAt (hr : c.registry.IgnoresPaths) : (path : List Nat) → (e : Expr) →
    c.eval (e.addressAt path) = c.eval e
  | _, .literal _ _ => rfl
  | path, .vector es _ => by
    rw [Expr.addressAt, eval, eval, evalComponents_addressAll hr path 0 es]
  | _, .var _ _ => rfl
  | path, .member e _ _ => by
    rw [Expr.addressAt, eval, eval, eval_addressAt hr (0 :: path) e]
  | path, .index e i _ => by
    rw [Expr.addressAt, eval, eval, eval_addressAt hr (0 :: path) e,
      eval_addressAt hr (1 :: path) i, Expr.position_addressAt]
  | path, .call f as site => by
    rw [Expr.addressAt, eval, eval, eval_addressAt hr (0 :: path) f,
      evalAll_addressAll hr path 1 as]
    refine bind_congr fun v => ?_
    cases v with
    | function f => exact bind_congr fun args => hr.apply_eq f args rfl
    | bound m v => exact bind_congr fun args => hr.invoke_eq m v args rfl
    | none | number _ | vector _ | string _ | object _ => rfl
  | path, .unary _ e _ => by
    rw [Expr.addressAt, eval, eval, eval_addressAt hr (0 :: path) e]
  | path, .binary _ l r _ => by
    rw [Expr.addressAt, eval, eval, eval_addressAt hr (0 :: path) l,
      eval_addressAt hr (1 :: path) r]
  | path, .conditional t y n _ => by
    rw [Expr.addressAt, eval, eval, eval_addressAt hr (0 :: path) t,
      eval_addressAt hr (1 :: path) y, eval_addressAt hr (2 :: path) n]

/-- Nor does it change the results of several trees. -/
theorem evalAll_addressAll (hr : c.registry.IgnoresPaths) : (path : List Nat) → (i : Nat) →
    (es : List Expr) → c.evalAll (Expr.addressAll path i es) = c.evalAll es
  | _, _, [] => rfl
  | path, i, e :: es => by
    rw [Expr.addressAll, evalAll, evalAll, eval_addressAt hr (i :: path) e,
      evalAll_addressAll hr path (i + 1) es]

/-- Nor does it change the numbers that components evaluate to. -/
theorem evalComponents_addressAll (hr : c.registry.IgnoresPaths) : (path : List Nat) → (i : Nat) →
    (es : List Expr) → c.evalComponents (Expr.addressAll path i es) = c.evalComponents es
  | _, _, [] => rfl
  | path, i, e :: es => by
    rw [Expr.addressAll, evalComponents, evalComponents, eval_addressAt hr (i :: path) e,
      evalComponents_addressAll hr path (i + 1) es, Expr.position_addressAt]

end

/-- A tree that is built by hand is evaluated like any other. -/
theorem evalTree_eq_eval (hr : c.registry.IgnoresPaths) (e : Expr) : c.evalTree e = c.eval e :=
  eval_addressAt hr [] e

/-! ### Replacing a child -/

variable {e e' : Expr} {before after : List Expr}

/-- Among arguments, one may be replaced by another one with the same result. -/
theorem evalAll_replace (hr : d.registry = c.registry) (h : d.eval e' = c.eval e)
    (hn : ∀ x ∈ Expr.namesAll (before ++ after), d.lookup x = c.lookup x) :
    d.evalAll (before ++ e' :: after) = c.evalAll (before ++ e :: after) := by
  induction before with
  | nil =>
    rw [List.nil_append, List.nil_append, evalAll, evalAll, h, evalAll_congr hr after hn]
  | cons f before ih =>
    rw [List.cons_append, Expr.namesAll_cons, List.forall_mem_append] at hn
    rw [List.cons_append, List.cons_append, evalAll, evalAll, eval_congr hr f hn.1, ih hn.2]

/-- Among the components of a vector, one may be replaced by another one with the same result at
the same place. -/
theorem evalComponents_replace (hr : d.registry = c.registry) (hp : e'.position = e.position)
    (h : d.eval e' = c.eval e)
    (hn : ∀ x ∈ Expr.namesAll (before ++ after), d.lookup x = c.lookup x) :
    d.evalComponents (before ++ e' :: after) = c.evalComponents (before ++ e :: after) := by
  induction before with
  | nil =>
    rw [List.nil_append, List.nil_append, evalComponents, evalComponents, h, hp,
      evalComponents_congr hr after hn]
  | cons f before ih =>
    rw [List.cons_append, Expr.namesAll_cons, List.forall_mem_append] at hn
    rw [List.cons_append, List.cons_append, evalComponents, evalComponents,
      eval_congr hr f hn.1, ih hn.2]

/-- A child may be replaced by another one with the same result at the same place, if the contexts
give the same values to the names in the other children. -/
theorem eval_fill_congr (hr : d.registry = c.registry) (hp : e'.position = e.position)
    (h : d.eval e' = c.eval e) (k : Frame)
    (hn : ∀ x ∈ Expr.namesAll k.siblings, d.lookup x = c.lookup x) :
    d.eval (k.fill e') = c.eval (k.fill e) := by
  cases k with
  | element before after p =>
    rw [Frame.fill, Frame.fill, eval, eval, evalComponents_replace hr hp h hn]
  | owner x p => rw [Frame.fill, Frame.fill, eval, eval, h, hr]
  | indexed i p =>
    rw [Frame.siblings, Expr.namesAll_cons, List.forall_mem_append] at hn
    rw [Frame.fill, Frame.fill, eval, eval, h, eval_congr hr i hn.1]
  | index o p =>
    rw [Frame.siblings, Expr.namesAll_cons, List.forall_mem_append] at hn
    rw [Frame.fill, Frame.fill, eval, eval, h, hp, eval_congr hr o hn.1]
  | callee as site =>
    rw [Frame.fill, Frame.fill, eval, eval, h, evalAll_congr hr as hn, hr]
  | argument f before after site =>
    rw [Frame.siblings, Expr.namesAll_cons, List.forall_mem_append] at hn
    rw [Frame.fill, Frame.fill, eval, eval, eval_congr hr f hn.1, evalAll_replace hr h hn.2, hr]
  | operand op p => rw [Frame.fill, Frame.fill, eval, eval, h]
  | left op r p =>
    rw [Frame.siblings, Expr.namesAll_cons, List.forall_mem_append] at hn
    rw [Frame.fill, Frame.fill, eval, eval, h, eval_congr hr r hn.1]
  | right op l p =>
    rw [Frame.siblings, Expr.namesAll_cons, List.forall_mem_append] at hn
    rw [Frame.fill, Frame.fill, eval, eval, h, eval_congr hr l hn.1]
  | condition y n p =>
    rw [Frame.siblings, Expr.namesAll_cons, Expr.namesAll_cons, List.forall_mem_append,
      List.forall_mem_append] at hn
    rw [Frame.fill, Frame.fill, eval, eval, h, eval_congr hr y hn.1, eval_congr hr n hn.2.1]
  | yes t n p =>
    rw [Frame.siblings, Expr.namesAll_cons, Expr.namesAll_cons, List.forall_mem_append,
      List.forall_mem_append] at hn
    rw [Frame.fill, Frame.fill, eval, eval, h, eval_congr hr t hn.1, eval_congr hr n hn.2.1]
  | no t y p =>
    rw [Frame.siblings, Expr.namesAll_cons, Expr.namesAll_cons, List.forall_mem_append,
      List.forall_mem_append] at hn
    rw [Frame.fill, Frame.fill, eval, eval, h, eval_congr hr t hn.1, eval_congr hr y hn.2.1]

/-! ### Replacing a part -/

variable {s : Expr} {v : Value H} {x : String}

/-- On the way up from a part that has a value, every node has the same result with the variable
below it. -/
theorem eval_within_of_eval (hs : c.eval s = .ok v) (ks : List Frame)
    (hx : x ∉ (s.within ks).names) :
    (c.bind x v).eval ((Expr.var x s.position).within ks) = c.eval (s.within ks) := by
  induction ks with
  | nil =>
    show Except.ok ((c.bind x v).lookup x) = c.eval s
    rw [lookup_bind_self, hs]
  | cons k ks ih =>
    rw [Expr.within_cons, Frame.mem_names_fill, not_or] at hx
    have hr : (c.bind x v).registry = c.registry := rfl
    have hv : (Expr.var x s.position).position = s.position := rfl
    have hp := Expr.position_within hv ks
    refine eval_fill_congr hr hp (ih hx.1) k fun y hy => lookup_bind_of_ne ?_
    rintro rfl
    exact hx.2 hy

/-- A part that has a value may be replaced by a name that is bound to this value and does not
stand in the tree: the result is the same, be it a value or a fault. -/
theorem eval_within_var (c : Context H) (s : Expr) (ks : List Frame) (x : String) (v : Value H)
    (hx : x ∉ (s.within ks).names) :
    (c.eval s = .ok v →
      (c.bind x v).eval ((Expr.var x s.position).within ks) = c.eval (s.within ks)) ∧
    (c.registry.IgnoresPaths → c.evalTree s = .ok v →
      (c.bind x v).evalTree ((Expr.var x s.position).within ks) = c.evalTree (s.within ks)) := by
  refine ⟨fun hs => eval_within_of_eval hs ks hx, fun hr hs => ?_⟩
  have hb : (c.bind x v).registry.IgnoresPaths := hr
  rw [evalTree_eq_eval hr] at hs
  rw [evalTree_eq_eval hb, evalTree_eq_eval hr, eval_within_of_eval hs ks hx]

/-- In `[1, t ? 'a' : none]` the conditional is no number, and neither is a name bound to its
value: the fault is reported at the same place. -/
theorem eval_within_var_component :
    let c : Context Host.bare := .empty .bare
    let s : Expr := .conditional (.var "t" ⟨1, 4⟩) (.literal (.string "a") ⟨1, 8⟩)
      (.literal .none ⟨1, 14⟩) ⟨1, 6⟩
    let ks : List Frame := [.element [.literal (.number 1) ⟨1, 1⟩] [] ⟨1, 0⟩]
    ("x" ∉ (s.within ks).names ∧ c.eval s = .ok .none ∧
      c.registry.IgnoresPaths ∧ c.evalTree s = .ok .none) ∧
    (c.bind "x" .none).eval ((Expr.var "x" s.position).within ks) = c.eval (s.within ks) ∧
    (c.bind "x" .none).evalTree ((Expr.var "x" s.position).within ks) = c.evalTree (s.within ks) ∧
    c.eval (s.within ks) = .error ⟨.expectedNumber .none, ⟨1, 6⟩⟩ := by
  intro c s ks
  have hx : "x" ∉ (s.within ks).names := by decide
  have hr : c.registry.IgnoresPaths := ⟨nofun, nofun⟩
  obtain ⟨heval, htree⟩ := eval_within_var c s ks "x" .none hx
  exact ⟨⟨hx, rfl, hr, rfl⟩, heval rfl, htree hr rfl, rfl⟩

end Context

end Replacement

end MapExpr
