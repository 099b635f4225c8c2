import MapExpr.Eval
import MapExpr.Proofs.Tree

/-!
# Lazy evaluation refines eager evaluation

`Context.evalEager` evaluates every part of an expression: both operands of a logical operator,
which is then applied to two values like any other operator, and all three parts of a conditional,
among which it picks afterwards. `Context.eval` leaves out what does not matter for the value.

What is left out can only fail. So if the eager evaluation has a value, then the lazy one has the
same (`Refines`), and the eager evaluation has a value exactly if every single node of the tree
has one (`evalEager_eq_ok_iff`). In particular it does not matter whether a logical operator decides
before its right operand is evaluated or chooses between the values of both.
-/

namespace MapExpr

variable {H : Host}

namespace Context

mutual

/-- The value of an expression of which every part is evaluated. -/
def evalEager (c : Context H) : Expr → Evaluated (Value H)
  | .literal value _ => .ok value.value
  | .vector elements _ => do return .vector (← c.evalComponentsEager elements)
  | .var name _ => .ok (c.lookup name)
  | .member object name p => do c.registry.access (← c.evalEager object) name p
  | .index object index p => do
    let xs ← (← c.evalEager object).asVector p
    let x ← (← c.evalEager index).asNumber index.position
    component xs (← Number.asIndex x p) p
  | .call callee arguments site => do
    match ← c.evalEager callee with
    | .function f => c.registry.apply f (← c.evalAllEager arguments) site
    | .bound m receiver => c.registry.invoke m receiver (← c.evalAllEager arguments) site
    | v => throw ⟨.notCallable v.typeName, site.position⟩
  | .unary op operand p => do op.apply (← c.evalEager operand) p
  | .binary op left right p => do
    let l ← c.evalEager left
    op.apply l (← c.evalEager right) p
  | .conditional condition yes no _ => do
    let v ← c.evalEager condition
    let y ← c.evalEager yes
    let n ← c.evalEager no
    return if v.isTrue then y else n

/-- The values of expressions of which every part is evaluated. -/
def evalAllEager (c : Context H) : List Expr → Evaluated (List (Value H))
  | [] => .ok []
  | e :: es => do
    let v ← c.evalEager e
    let vs ← c.evalAllEager es
    return v :: vs

/-- The numbers that the components of a vector evaluate to if every part of them is evaluated. -/
def evalComponentsEager (c : Context H) : List Expr → Evaluated (List Float)
  | [] => .ok []
  | e :: es => do
    let x ← (← c.evalEager e).asNumber e.position
    let xs ← c.evalComponentsEager es
    return x :: xs

end

end Context

/-! ## Refinement -/

/-- The second outcome is a value of which the first one is the same, and if the first one is a
fault, then so is the second. -/
structure Refines {α : Type} (x y : Evaluated α) : Prop where
  ok : ∀ a, y = .ok a → x = .ok a
  error : ∀ e, x = .error e → ∃ e', y = .error e'

namespace Refines

variable {α β : Type} {x x' y y' : Evaluated α}

/-- An outcome that has every value of another one fails only if the other one does. -/
theorem of_ok (h : ∀ a, y = .ok a → x = .ok a) : Refines x y where
  ok := h
  error e hx := by
    cases y with
    | error e' => exact ⟨e', rfl⟩
    | ok a =>
      rw [h a rfl] at hx
      cases hx

/-- Every outcome refines itself. -/
theorem refl (x : Evaluated α) : Refines x x := of_ok fun _ h => h

/-- One evaluation after the other on both sides. -/
theorem bind {f g : α → Evaluated β} (h : Refines x y) (hf : ∀ a, Refines (f a) (g a)) :
    Refines (x >>= f) (y >>= g) := by
  refine of_ok fun b hb => ?_
  cases y with
  | error e => cases hb
  | ok a =>
    rw [h.ok a rfl]
    exact (hf a).ok b hb

/-- Evaluating one of two things is refined from evaluating both and choosing afterwards. -/
theorem choose (h : Refines x y) (h' : Refines x' y') (b : Bool) :
    Refines (if b then x else x') (do
      let a ← y
      let a' ← y'
      return if b then a else a') := by
  refine of_ok fun v hv => ?_
  cases y with
  | error e => cases hv
  | ok a =>
    cases y' with
    | error e => cases hv
    | ok a' =>
      cases b with
      | true => exact (h.ok a rfl).trans hv
      | false => exact (h'.ok a' rfl).trans hv

end Refines

/-- A value of two evaluations after each other comes from a value of each. -/
theorem exists_of_bind_eq_ok {ε α β : Type} {x : Except ε α} {f : α → Except ε β} {b : β}
    (h : x >>= f = .ok b) : ∃ a, x = .ok a ∧ f a = .ok b := by
  cases x with
  | error e => cases h
  | ok a => exact ⟨a, rfl, h⟩

/-- An operator is logical, or else its right operand is always evaluated. -/
theorem BinaryOp.cases_logical (op : BinaryOp) :
    (op = .and ∨ op = .or) ∨ op ≠ .and ∧ op ≠ .or := by
  cases op <;> simp

namespace Context

variable {c : Context H} {e l r : Expr} {op : BinaryOp} {p : Position} {v w : Value H}

/-! ## Logical operators -/

/-- A logical operator evaluates its right operand if the left one does not decide. -/
theorem eval_logical (h : op = .and ∨ op = .or) : c.eval (.binary op l r p) =
    c.eval l >>= fun v => if op.leftDecides v then pure v else c.eval r := by
  rcases h with rfl | rfl <;> rw [eval]

/-- Every other operator is applied to the values of both operands. -/
theorem eval_binary (h : op ≠ .and ∧ op ≠ .or) : c.eval (.binary op l r p) =
    c.eval l >>= fun v => c.eval r >>= fun w => op.apply v w p := by
  rw [eval]
  refine bind_congr fun v => ?_
  split
  · exact absurd rfl h.1
  · exact absurd rfl h.2
  · rfl

/-- Applied to two values, a logical operator gives back one of them. -/
theorem apply_logical (h : op = .and ∨ op = .or) : op.apply v w p = .ok (op.select v w) := by
  rcases h with rfl | rfl <;> rfl

/-- If both operands have values, then the operator is applied to them, be it logical or not. -/
theorem eval_binary_of_ok (hl : c.eval l = .ok v) (hr : c.eval r = .ok w) :
    c.eval (.binary op l r p) = op.apply v w p := by
  rcases op.cases_logical with h | h
  · rw [eval_logical h, hl, apply_logical h]
    show (if op.leftDecides v then pure v else c.eval r) = .ok (if op.leftDecides v then v else w)
    rw [hr]
    split <;> rfl
  · rw [eval_binary h, hl, hr]
    rfl

/-! ## The lazy evaluation refines the eager one -/

mutual

/-- The value of an expression is the eager one, if there is an eager one. -/
theorem refines_evalEager : (e : Expr) → Refines (c.eval e) (c.evalEager e)
  | .literal _ _ | .var _ _ => .refl _
  | .vector es _ => by
    rw [eval, evalEager]
    exact (evalComponents_refines es).bind fun xs => .refl _
  | .member e x p => by
    rw [eval, evalEager]
    exact (refines_evalEager e).bind fun v => .refl _
  | .index e i p => by
    rw [eval, evalEager]
    refine (refines_evalEager e).bind fun v => (Refines.refl _).bind fun xs => ?_
    exact (refines_evalEager i).bind fun w => .refl _
  | .call f as site => by
    rw [eval, evalEager]
    refine (refines_evalEager f).bind fun v => ?_
    cases v with
    | function f => exact (evalAll_refines as).bind fun args => .refl _
    | bound m v => exact (evalAll_refines as).bind fun args => .refl _
    | none | number _ | vector _ | string _ | object _ => exact .refl _
  | .unary op e p => by
    rw [eval, evalEager]
    exact (refines_evalEager e).bind fun v => .refl _
  | .binary op l r p => by
    have hl := refines_evalEager l
    have hr := refines_evalEager r
    rw [evalEager]
    rcases op.cases_logical with h | h
    · rw [eval_logical h]
      refine hl.bind fun v => ?_
      simp only [apply_logical h]
      exact (Refines.refl (pure v)).choose hr (op.leftDecides v)
    · rw [eval_binary h]
      exact hl.bind fun v => hr.bind fun w => .refl _
  | .conditional t y n p => by
    rw [eval, evalEager]
    refine (refines_evalEager t).bind fun v => ?_
    exact (refines_evalEager y).choose (refines_evalEager n) v.isTrue

/-- The same for a list of expressions, from left to right. -/
theorem evalAll_refines : (es : List Expr) → Refines (c.evalAll es) (c.evalAllEager es)
  | [] => .refl _
  | e :: es => by
    rw [evalAll, evalAllEager]
    exact (refines_evalEager e).bind fun v => (evalAll_refines es).bind fun vs => .refl _

/-- The same for the components of a vector. -/
theorem evalComponents_refines : (es : List Expr) →
    Refines (c.evalComponents es) (c.evalComponentsEager es)
  | [] => .refl _
  | e :: es => by
    rw [evalComponents, evalComponentsEager]
    refine (refines_evalEager e).bind fun v => (Refines.refl _).bind fun x => ?_
    exact (evalComponents_refines es).bind fun xs => .refl _

end

/-! ## When the eager evaluation has a value -/

mutual

/-- Every node of a tree with an eager value has one. -/
theorem exists_evalEager_of_mem_nodes : (e : Expr) → {v : Value H} → c.evalEager e = .ok v →
    ∀ s ∈ e.nodes, ∃ w, c.evalEager s = .ok w
  | .literal _ _, v, h | .var _ _, v, h => List.forall_mem_singleton.2 ⟨v, h⟩
  | .vector es p, v, h => by
    refine List.forall_mem_cons.2 ⟨⟨v, h⟩, ?_⟩
    rw [evalEager] at h
    obtain ⟨xs, hxs, -⟩ := exists_of_bind_eq_ok h
    exact exists_evalEager_of_components es hxs
  | .member e x p, v, h => by
    refine List.forall_mem_cons.2 ⟨⟨v, h⟩, ?_⟩
    rw [evalEager] at h
    obtain ⟨o, ho, -⟩ := exists_of_bind_eq_ok h
    exact exists_evalEager_of_mem_nodes e ho
  | .index e i p, v, h => by
    refine List.forall_mem_cons.2 ⟨⟨v, h⟩, ?_⟩
    rw [evalEager] at h
    obtain ⟨o, ho, h⟩ := exists_of_bind_eq_ok h
    obtain ⟨xs, -, h⟩ := exists_of_bind_eq_ok h
    obtain ⟨n, hn, -⟩ := exists_of_bind_eq_ok h
    exact List.forall_mem_append.2
      ⟨exists_evalEager_of_mem_nodes e ho, exists_evalEager_of_mem_nodes i hn⟩
  | .call f as site, v, h => by
    refine List.forall_mem_cons.2 ⟨⟨v, h⟩, ?_⟩
    rw [evalEager] at h
    obtain ⟨g, hg, h⟩ := exists_of_bind_eq_ok h
    have hargs : ∃ args, c.evalAllEager as = .ok args := by
      cases g with
      | function g =>
        obtain ⟨args, hargs, -⟩ := exists_of_bind_eq_ok h
        exact ⟨args, hargs⟩
      | bound m receiver =>
        obtain ⟨args, hargs, -⟩ := exists_of_bind_eq_ok h
        exact ⟨args, hargs⟩
      | none | number _ | vector _ | string _ | object _ => cases h
    obtain ⟨args, hargs⟩ := hargs
    exact List.forall_mem_append.2
      ⟨exists_evalEager_of_mem_nodes f hg, exists_evalEager_of_all as hargs⟩
  | .unary op e p, v, h => by
    refine List.forall_mem_cons.2 ⟨⟨v, h⟩, ?_⟩
    rw [evalEager] at h
    obtain ⟨o, ho, -⟩ := exists_of_bind_eq_ok h
    exact exists_evalEager_of_mem_nodes e ho
  | .binary op l r p, v, h => by
    refine List.forall_mem_cons.2 ⟨⟨v, h⟩, ?_⟩
    rw [evalEager] at h
    obtain ⟨a, ha, h⟩ := exists_of_bind_eq_ok h
    obtain ⟨b, hb, -⟩ := exists_of_bind_eq_ok h
    exact List.forall_mem_append.2
      ⟨exists_evalEager_of_mem_nodes l ha, exists_evalEager_of_mem_nodes r hb⟩
  | .conditional t y n p, v, h => by
    refine List.forall_mem_cons.2 ⟨⟨v, h⟩, ?_⟩
    rw [evalEager] at h
    obtain ⟨a, ha, h⟩ := exists_of_bind_eq_ok h
    obtain ⟨b, hb, h⟩ := exists_of_bind_eq_ok h
    obtain ⟨d, hd, -⟩ := exists_of_bind_eq_ok h
    exact List.forall_mem_append.2 ⟨exists_evalEager_of_mem_nodes t ha, List.forall_mem_append.2
      ⟨exists_evalEager_of_mem_nodes y hb, exists_evalEager_of_mem_nodes n hd⟩⟩

/-- If expressions have values eagerly, then so do all nodes below them. -/
theorem exists_evalEager_of_all : (es : List Expr) → {vs : List (Value H)} →
    c.evalAllEager es = .ok vs → ∀ s ∈ Expr.nodesAll es, ∃ w, c.evalEager s = .ok w
  | [], _, _ => nofun
  | e :: es, vs, h => by
    rw [evalAllEager] at h
    obtain ⟨v, hv, h⟩ := exists_of_bind_eq_ok h
    obtain ⟨vs, hvs, -⟩ := exists_of_bind_eq_ok h
    exact List.forall_mem_append.2
      ⟨exists_evalEager_of_mem_nodes e hv, exists_evalEager_of_all es hvs⟩

/-- If components have numbers eagerly, then all nodes below them have values. -/
theorem exists_evalEager_of_components : (es : List Expr) → {xs : List Float} →
    c.evalComponentsEager es = .ok xs → ∀ s ∈ Expr.nodesAll es, ∃ w, c.evalEager s = .ok w
  | [], _, _ => nofun
  | e :: es, xs, h => by
    rw [evalComponentsEager] at h
    obtain ⟨v, hv, h⟩ := exists_of_bind_eq_ok h
    obtain ⟨x, -, h⟩ := exists_of_bind_eq_ok h
    obtain ⟨xs, hxs, -⟩ := exists_of_bind_eq_ok h
    exact List.forall_mem_append.2
      ⟨exists_evalEager_of_mem_nodes e hv, exists_evalEager_of_components es hxs⟩

end

mutual

/-- If every node has a value, then nothing that is left out would have failed. -/
theorem evalEager_eq_eval : (e : Expr) → (∀ s ∈ e.nodes, ∃ w, c.eval s = .ok w) →
    c.evalEager e = c.eval e
  | .literal _ _, _ | .var _ _, _ => by rw [evalEager, eval]
  | .vector es p, h => by
    rw [evalEager, eval, evalComponentsEager_eq es (List.forall_mem_cons.1 h).2]
  | .member e x p, h => by
    rw [evalEager, eval, evalEager_eq_eval e (List.forall_mem_cons.1 h).2]
  | .index e i p, h => by
    obtain ⟨he, hi⟩ := List.forall_mem_append.1 (List.forall_mem_cons.1 h).2
    rw [evalEager, eval, evalEager_eq_eval e he, evalEager_eq_eval i hi]
  | .call f as site, h => by
    obtain ⟨hf, has⟩ := List.forall_mem_append.1 (List.forall_mem_cons.1 h).2
    rw [evalEager, eval, evalEager_eq_eval f hf]
    refine bind_congr fun v => ?_
    cases v with
    | function g =>
      exact congrArg (· >>= fun args => c.registry.apply g args site) (evalAllEager_eq as has)
    | bound m v =>
      exact congrArg (· >>= fun args => c.registry.invoke m v args site) (evalAllEager_eq as has)
    | none | number _ | vector _ | string _ | object _ => rfl
  | .unary op e p, h => by
    rw [evalEager, eval, evalEager_eq_eval e (List.forall_mem_cons.1 h).2]
  | .binary op l r p, h => by
    obtain ⟨hl, hr⟩ := List.forall_mem_append.1 (List.forall_mem_cons.1 h).2
    obtain ⟨v, hv⟩ := hl l l.mem_nodes_self
    obtain ⟨w, hw⟩ := hr r r.mem_nodes_self
    rw [eval_binary_of_ok hv hw, evalEager, evalEager_eq_eval l hl, evalEager_eq_eval r hr, hv, hw]
    rfl
  | .conditional t y n p, h => by
    obtain ⟨ht, hyn⟩ := List.forall_mem_append.1 (List.forall_mem_cons.1 h).2
    obtain ⟨hy, hn⟩ := List.forall_mem_append.1 hyn
    obtain ⟨v, hv⟩ := hy y y.mem_nodes_self
    obtain ⟨w, hw⟩ := hn n n.mem_nodes_self
    rw [evalEager, eval, evalEager_eq_eval t ht, evalEager_eq_eval y hy, evalEager_eq_eval n hn,
      hv, hw]
    refine bind_congr fun u => ?_
    cases u.isTrue <;> rfl

/-- Expressions all of whose nodes have values have them eagerly. -/
theorem evalAllEager_eq : (es : List Expr) → (∀ s ∈ Expr.nodesAll es, ∃ w, c.eval s = .ok w) →
    c.evalAllEager es = c.evalAll es
  | [], _ => by rw [evalAllEager, evalAll]
  | e :: es, h => by
    obtain ⟨he, hes⟩ := List.forall_mem_append.1 h
    rw [evalAllEager, evalAll, evalEager_eq_eval e he, evalAllEager_eq es hes]

/-- Components all of whose nodes have values have the same numbers eagerly. -/
theorem evalComponentsEager_eq : (es : List Expr) →
    (∀ s ∈ Expr.nodesAll es, ∃ w, c.eval s = .ok w) →
    c.evalComponentsEager es = c.evalComponents es
  | [], _ => by rw [evalComponentsEager, evalComponents]
  | e :: es, h => by
    obtain ⟨he, hes⟩ := List.forall_mem_append.1 h
    rw [evalComponentsEager, evalComponents, evalEager_eq_eval e he, evalComponentsEager_eq es hes]

end

/-- The eager evaluation has the value of the lazy one if every node has a value, and else none. -/
theorem evalEager_eq_ok_iff :
    c.evalEager e = .ok v ↔ c.eval e = .ok v ∧ ∀ s ∈ e.nodes, ∃ w, c.eval s = .ok w := by
  constructor
  · intro h
    refine ⟨(refines_evalEager e).ok v h, fun s hs => ?_⟩
    obtain ⟨w, hw⟩ := exists_evalEager_of_mem_nodes e h s hs
    exact ⟨w, (refines_evalEager s).ok w hw⟩
  · rintro ⟨hv, hnodes⟩
    exact (evalEager_eq_eval e hnodes).trans hv

/-- If evaluating every part of a tree gives a value, then evaluating it lazily gives the same
value, and if the lazy evaluation fails, then so does the eager one. A logical operator whose
operands both have values is the operator applied to these. -/
theorem lazy_refines_eager (c : Context H) (e : Expr) :
    Refines (c.eval e) (c.evalEager e) ∧
    Refines (c.evalTree e) (c.evalEager e.addressed) ∧
    (∀ v, c.evalEager e = .ok v ↔
      c.eval e = .ok v ∧ ∀ s ∈ e.nodes, ∃ w, c.eval s = .ok w) ∧
    ∀ op l r p v w, c.eval l = .ok v → c.eval r = .ok w →
      c.eval (.binary op l r p) = op.apply v w p :=
  ⟨refines_evalEager e, refines_evalEager e.addressed, fun _ => evalEager_eq_ok_iff,
    fun _ _ _ _ _ _ => eval_binary_of_ok⟩

/-- A call of `none` is not reached behind a false operand. -/
example :
    let c : Context Host.bare := .empty .bare
    let e : Expr := .binary .and (.literal .none ⟨1, 0⟩)
      (.call (.var "f" ⟨1, 9⟩) [] (.ofPosition ⟨1, 10⟩)) ⟨1, 5⟩
    c.eval e = .ok .none ∧ c.evalEager e = .error ⟨.notCallable .none, ⟨1, 10⟩⟩ :=
  ⟨rfl, rfl⟩

end Context

end MapExpr
