import MapExpr.Proofs.Evaluation.Reporting
import MapExpr.Proofs.Tree

/-!
# Faults stand at nodes of the tree

In a standard context every fault of an evaluation stands at the place of a node of the tree: at the
node that failed or, if an index or a component of a vector is no number, at the child. Values are
standard again, so that this holds of the calls and accesses further up too. Both are shown at once,
and not of being standard alone: a value has every closed property that the values of the names in
the expression have (`eval_ends`).
-/

namespace MapExpr

/-- The outcome is a value in `P` or a fault at one of the places. -/
def Ends {α : Type} (P : α → Prop) (ps : List Position) : Evaluated α → Prop
  | .ok a => P a
  | .error e => e.position ∈ ps

namespace Ends

variable {α β : Type} {P : α → Prop} {Q : β → Prop} {ps : List Position}

/-- A value in `P` is an end. -/
theorem pure {a : α} (ha : P a) : Ends P ps (Pure.pure a) := ha

/-- One evaluation after the other. -/
theorem bind {x : Evaluated α} {f : α → Evaluated β} (hx : Ends P ps x)
    (hf : ∀ a, P a → Ends Q ps (f a)) : Ends Q ps (x >>= f) :=
  match x, hx with
  | .ok a, ha => hf a ha
  | .error _, he => he

end Ends

/-- An operation that reports at its place ends in a value or at this place. -/
theorem Reports.ends {α : Type} {P : α → Prop} {f : Position → Evaluated α} {ps : List Position}
    {p : Position} (hf : Reports P f) (hp : p ∈ ps) : Ends P ps (f p) := by
  cases hf with
  | value a hf ha =>
    rw [hf]
    exact ha
  | fault e hf =>
    rw [hf]
    exact hp

namespace Context

variable {H : Host} {c : Context H} {ps : List Position} {P : Value H → Prop}

mutual

/-- An expression fails at one of its nodes, or its value has every closed property that the values
of its names have. -/
theorem eval_ends (hP : Value.Closed P) (hr : ∀ d, c.registry.members? d = none) : (e : Expr) →
    e.positions ⊆ ps → (∀ x ∈ e.names, P (c.lookup x)) → Ends P ps (c.eval e)
  | .literal v _, _, _ => hP.plain v.plain_value
  | .var x _, _, hx => hx x (by simp)
  | .vector es p, h, hx => by
    rw [Expr.positions_vector, List.cons_subset] at h
    rw [Expr.names_vector] at hx
    exact (evalComponents_ends hP hr es h.2 hx).bind fun xs _ => .pure (hP.plain trivial)
  | .member e x p, h, hx => by
    rw [Expr.positions_member, List.cons_subset] at h
    rw [Expr.names_member] at hx
    refine (eval_ends hP hr e h.2 hx).bind fun v hv => ?_
    refine ((Registry.access_reports hr v x).mono ?_).ends h.1
    rintro w (hw | ⟨m, hm, rfl⟩)
    · exact hP.plain hw
    · exact hP.bound hm hv
  | .index e i p, h, hx => by
    rw [Expr.positions_index, List.cons_subset, List.append_subset] at h
    rw [Expr.names_index, List.forall_mem_append] at hx
    obtain ⟨hp, he, hi⟩ := h
    refine (eval_ends hP hr e he hx.1).bind fun v _ => ?_
    refine (v.asVector_reports.ends hp).bind fun xs _ => ?_
    refine (eval_ends hP hr i hi hx.2).bind fun w _ => ?_
    -- an index that is no number is reported at the index, and a wrong one at the bracket
    refine (w.asNumber_reports.ends (hi i.position_mem_positions)).bind fun x _ => ?_
    refine ((Number.asIndex_reports x).ends hp).bind fun n _ => ?_
    exact ((component_reports xs n).mono fun _ => hP.plain).ends hp
  | .call f as site, h, hx => by
    rw [Expr.positions_call, List.cons_subset, List.append_subset] at h
    rw [Expr.names_call, List.forall_mem_append] at hx
    obtain ⟨hp, hf, has⟩ := h
    refine (eval_ends hP hr f hf hx.1).bind fun v hv => ?_
    have hv := hP.standard hv
    cases v with
    | function f =>
      refine (evalAll_ends hP hr as has hx.2).bind fun args hargs => ?_
      rw [← Registry.apply_ofPosition hv]
      refine ((Registry.apply_reports hv args).mono ?_).ends hp
      exact fun w hw => hw.elim hP.plain (hargs w)
    | bound m v =>
      refine (evalAll_ends hP hr as has hx.2).bind fun args _ => ?_
      rw [← Registry.invoke_ofPosition hv.1]
      exact ((Registry.invoke_reports hv.1 v args).mono fun _ => hP.plain).ends hp
    | none | number _ | vector _ | string _ | object _ => exact hp
  | .unary op e p, h, hx => by
    rw [Expr.positions_unary, List.cons_subset] at h
    rw [Expr.names_unary] at hx
    refine (eval_ends hP hr e h.2 hx).bind fun v _ => ?_
    exact ((op.apply_reports v).mono fun _ => hP.plain).ends h.1
  | .binary op l r p, h, hx => by
    rw [Expr.positions_binary, List.cons_subset, List.append_subset] at h
    rw [Expr.names_binary, List.forall_mem_append] at hx
    obtain ⟨hp, hl, hr'⟩ := h
    have hright := eval_ends hP hr r hr' hx.2
    refine (eval_ends hP hr l hl hx.1).bind fun v hv => ?_
    split
    · split
      · exact .pure hv
      · exact hright
    · split
      · exact .pure hv
      · exact hright
    · refine hright.bind fun w hw => ((BinaryOp.apply_reports _ v w).mono ?_).ends hp
      rintro u (hu | rfl | rfl)
      · exact hP.plain hu
      · exact hv
      · exact hw
  | .conditional t y n p, h, hx => by
    rw [Expr.positions_conditional, List.cons_subset, List.append_subset, List.append_subset] at h
    rw [Expr.names_conditional, List.forall_mem_append, List.forall_mem_append] at hx
    refine (eval_ends hP hr t h.2.1 hx.1).bind fun v _ => ?_
    split
    · exact eval_ends hP hr y h.2.2.1 hx.2.1
    · exact eval_ends hP hr n h.2.2.2 hx.2.2

/-- Several expressions have values in `P`, or a fault at one of their nodes. -/
theorem evalAll_ends (hP : Value.Closed P) (hr : ∀ d, c.registry.members? d = none) :
    (es : List Expr) → Expr.positionsAll es ⊆ ps → (∀ x ∈ Expr.namesAll es, P (c.lookup x)) →
    Ends (∀ v ∈ ·, P v) ps (c.evalAll es)
  | [], _, _ => nofun
  | e :: es, h, hx => by
    rw [Expr.positionsAll_cons, List.append_subset] at h
    rw [Expr.namesAll_cons, List.forall_mem_append] at hx
    refine (eval_ends hP hr e h.1 hx.1).bind fun v hv => ?_
    refine (evalAll_ends hP hr es h.2 hx.2).bind fun vs hvs => ?_
    exact .pure (List.forall_mem_cons.2 ⟨hv, hvs⟩)

/-- The components of a vector are numbers, or there is a fault at one of their nodes. -/
theorem evalComponents_ends (hP : Value.Closed P) (hr : ∀ d, c.registry.members? d = none) :
    (es : List Expr) → Expr.positionsAll es ⊆ ps → (∀ x ∈ Expr.namesAll es, P (c.lookup x)) →
    Ends Any ps (c.evalComponents es)
  | [], _, _ => trivial
  | e :: es, h, hx => by
    rw [Expr.positionsAll_cons, List.append_subset] at h
    rw [Expr.namesAll_cons, List.forall_mem_append] at hx
    refine (eval_ends hP hr e h.1 hx.1).bind fun v _ => ?_
    refine (v.asNumber_reports.ends (h.1 e.position_mem_positions)).bind fun x _ => ?_
    exact (evalComponents_ends hP hr es h.2 hx.2).bind fun xs _ => .pure trivial

end

/-- The value of an expression has every closed property that the values of its names have. -/
theorem closed_of_eval (hP : Value.Closed P) (hr : ∀ d, c.registry.members? d = none) {e : Expr}
    (hx : ∀ x ∈ e.names, P (c.lookup x)) {v : Value H} (h : c.eval e = .ok v) : P v := by
  have := eval_ends hP hr e (List.Subset.refl _) hx
  rwa [h] at this

/-- Nothing of the host can be called through the value of an expression. -/
theorem Standard.eval (hc : c.Standard) {e : Expr} {v : Value H} (h : c.eval e = .ok v) :
    v.Standard :=
  closed_of_eval Value.closed_standard hc.members? (fun x _ => hc.lookup x) h

/-- An entry that has a value leaves a standard context standard. -/
theorem Standard.assignOne (hc : c.Standard) {a : Assignment} {d : Context H}
    (h : c.assignOne a = .ok d) : d.Standard := by
  obtain ⟨v, hv, rfl⟩ := assignOne_eq_ok_iff.1 h
  exact hc.bind a.name (hc.eval hv)

/-- A fault of an evaluation stands at a node. -/
theorem position_mem_of_eval (hc : c.Standard) {e : Expr} {f : Located EvalFault}
    (h : c.eval e = .error f) : f.position ∈ e.positions := by
  have := eval_ends Value.closed_standard hc.members? e (List.Subset.refl _) fun x _ => hc.lookup x
  rwa [h] at this

end Context

/-! ## Trees that are built by hand -/

namespace Context

variable {H : Host} {c : Context H}

/-- A fault in a tree that was built by hand stands at a node of this tree. -/
theorem position_mem_of_evalTree (hc : c.Standard) {e : Expr} {f : Located EvalFault}
    (h : c.evalTree e = .error f) : f.position ∈ e.positions := by
  rw [← Expr.positions_addressAt [] e]
  exact position_mem_of_eval hc h

end Context

end MapExpr
