import MapExpr.Proofs.Evaluation.FaultPlaces
import MapExpr.Proofs.Printing.Surface

/-!
# Places are only reported

In a standard context an expression and the same expression without its places have the same value,
or they fail for the same reason (`eval_erase`). So places are looked at for nothing but reports:
two expressions that differ in their places only have the same outcome up to the place of the fault
(`eval_eq_of_erase_eq`), and so have two batches (`assign_eq_of_erase_eq`).
-/

namespace MapExpr

/-- The outcome of an evaluation, the place of the fault left aside. -/
def withoutPlace {ε α : Type} (x : Except (Located ε) α) : Except ε α := x.mapError Located.value

section WithoutPlace

variable {ε α β : Type}

/-- Outcomes that agree up to the place are continued in the same way. -/
theorem withoutPlace_bind_congr {x y : Except (Located ε) α} {f g : α → Except (Located ε) β}
    (hxy : withoutPlace x = withoutPlace y)
    (hfg : ∀ a, y = .ok a → withoutPlace (f a) = withoutPlace (g a)) :
    withoutPlace (x >>= f) = withoutPlace (y >>= g) := by
  cases x with
  | error e =>
    cases y with
    | error e' => exact congrArg Except.error (Except.error.inj hxy)
    | ok b => cases hxy
  | ok a =>
    cases y with
    | error e' => cases hxy
    | ok b =>
      cases hxy
      exact hfg a rfl

/-- Wording faults anew leaves their places alone. -/
theorem withoutPlace_mapError {ε' : Type} (x : Except (Located ε) α) (w : ε → ε') :
    withoutPlace (x.mapError (Located.map w)) = (withoutPlace x).mapError w := by
  cases x <;> rfl

/-- An operation that reports where it is told to has the same outcome at all places. -/
theorem Reports.withoutPlace_eq {P : α → Prop} {f : Position → Evaluated α} (hf : Reports P f)
    (p q : Position) : withoutPlace (f p) = withoutPlace (f q) := by
  cases hf with
  | value a hf _ => rw [hf, hf]
  | fault e hf =>
    rw [hf, hf]
    rfl

end WithoutPlace

namespace Context

variable {H : Host} {c : Context H}

mutual

/-- Without its places an expression has the same outcome up to the place of the fault. -/
theorem eval_erase (hc : c.Standard) : (e : Expr) →
    withoutPlace (c.eval e.erase) = withoutPlace (c.eval e)
  | .literal _ _ => rfl
  | .var _ _ => rfl
  | .vector es _ => by
    rw [Expr.erase, eval, eval]
    exact withoutPlace_bind_congr (evalComponents_erase hc es) fun xs _ => rfl
  | .member e x p => by
    rw [Expr.erase, eval, eval]
    refine withoutPlace_bind_congr (eval_erase hc e) fun v _ => ?_
    exact (Registry.access_reports hc.members? v x).withoutPlace_eq _ _
  | .index e i p => by
    rw [Expr.erase, eval, eval]
    refine withoutPlace_bind_congr (eval_erase hc e) fun v _ => ?_
    refine withoutPlace_bind_congr (v.asVector_reports.withoutPlace_eq _ _) fun xs _ => ?_
    refine withoutPlace_bind_congr (eval_erase hc i) fun w _ => ?_
    refine withoutPlace_bind_congr (w.asNumber_reports.withoutPlace_eq _ _) fun x _ => ?_
    refine withoutPlace_bind_congr ((Number.asIndex_reports x).withoutPlace_eq _ _) fun n _ => ?_
    exact (component_reports xs n).withoutPlace_eq _ _
  | .call f as site => by
    rw [Expr.erase, eval, eval]
    refine withoutPlace_bind_congr (eval_erase hc f) fun v hv => ?_
    have hv := hc.eval hv
    cases v with
    | function f =>
      refine withoutPlace_bind_congr (evalAll_erase hc as) fun args _ => ?_
      rw [← Registry.apply_ofPosition hv args site]
      exact (Registry.apply_reports hv args).withoutPlace_eq _ _
    | bound m v =>
      refine withoutPlace_bind_congr (evalAll_erase hc as) fun args _ => ?_
      rw [← Registry.invoke_ofPosition hv.1 v args site]
      exact (Registry.invoke_reports hv.1 v args).withoutPlace_eq _ _
    | none | number _ | vector _ | string _ | object _ => rfl
  | .unary op e p => by
    rw [Expr.erase, eval, eval]
    refine withoutPlace_bind_congr (eval_erase hc e) fun v _ => ?_
    exact (op.apply_reports v).withoutPlace_eq _ _
  | .binary op l r p => by
    have hright := eval_erase hc r
    rw [Expr.erase, eval, eval]
    refine withoutPlace_bind_congr (eval_erase hc l) fun v _ => ?_
    split
    · split
      · rfl
      · exact hright
    · split
      · rfl
      · exact hright
    · refine withoutPlace_bind_congr hright fun w _ => ?_
      exact (BinaryOp.apply_reports _ v w).withoutPlace_eq _ _
  | .conditional t y n _ => by
    rw [Expr.erase, eval, eval]
    refine withoutPlace_bind_congr (eval_erase hc t) fun v _ => ?_
    split
    · exact eval_erase hc y
    · exact eval_erase hc n

/-- The places of several expressions matter for no value and for no reason of a fault. -/
theorem evalAll_erase (hc : c.Standard) : (es : List Expr) →
    withoutPlace (c.evalAll (Expr.eraseAll es)) = withoutPlace (c.evalAll es)
  | [] => rfl
  | e :: es => by
    rw [Expr.eraseAll, evalAll, evalAll]
    refine withoutPlace_bind_congr (eval_erase hc e) fun v _ => ?_
    exact withoutPlace_bind_congr (evalAll_erase hc es) fun vs _ => rfl

/-- Nor do those of the components of a vector. -/
theorem evalComponents_erase (hc : c.Standard) : (es : List Expr) →
    withoutPlace (c.evalComponents (Expr.eraseAll es)) = withoutPlace (c.evalComponents es)
  | [] => rfl
  | e :: es => by
    rw [Expr.eraseAll, evalComponents, evalComponents]
    refine withoutPlace_bind_congr (eval_erase hc e) fun v _ => ?_
    refine withoutPlace_bind_congr (v.asNumber_reports.withoutPlace_eq _ _) fun x _ => ?_
    exact withoutPlace_bind_congr (evalComponents_erase hc es) fun xs _ => rfl

end

/-- Expressions that differ in their places only have the same outcome. -/
theorem eval_eq_of_erase_eq (hc : c.Standard) {e e' : Expr} (h : e'.erase = e.erase) :
    withoutPlace (c.eval e') = withoutPlace (c.eval e) := by
  rw [← eval_erase hc e', ← eval_erase hc e, h]

end Context

/-! ## Batches -/

/-- The entry without its places. -/
def Assignment.erase (a : Assignment) : Assignment := ⟨a.name, a.value.erase, .start⟩

namespace Context

variable {H : Host} {c : Context H}

/-- Entries that differ in their places only leave the same context behind or fail for the same
reason. -/
theorem assignOne_eq_of_erase_eq (hc : c.Standard) {a b : Assignment} (h : b.erase = a.erase) :
    withoutPlace (c.assignOne b) = withoutPlace (c.assignOne a) := by
  obtain ⟨hname, hvalue, -⟩ := Assignment.mk.inj h
  unfold assignOne
  rw [hname]
  exact withoutPlace_bind_congr (eval_eq_of_erase_eq hc hvalue) fun v _ => rfl

/-- Batches that differ in their places only leave the same context behind, and they fail for the
same reason if they fail. -/
theorem assign_eq_of_erase_eq (hc : c.Standard) {as bs : List Assignment}
    (h : bs.map Assignment.erase = as.map Assignment.erase) :
    (c.assign bs).1 = (c.assign as).1 ∧
      (c.assign bs).2.map Located.value = (c.assign as).2.map Located.value := by
  induction as generalizing c bs with
  | nil =>
    rw [List.map_nil, List.map_eq_nil_iff] at h
    rw [h]
    exact ⟨rfl, rfl⟩
  | cons a as ih =>
    obtain ⟨b, bs, rfl, hb, hbs⟩ := List.map_eq_cons_iff.1 h
    have hone := assignOne_eq_of_erase_eq hc hb
    rw [assign, assign]
    cases hd : c.assignOne a with
    | error e =>
      cases hd' : c.assignOne b with
      | error e' =>
        rw [hd, hd'] at hone
        exact ⟨rfl, congrArg some (Except.error.inj hone)⟩
      | ok d' =>
        rw [hd, hd'] at hone
        cases hone
    | ok d =>
      cases hd' : c.assignOne b with
      | error e' =>
        rw [hd, hd'] at hone
        cases hone
      | ok d' =>
        rw [hd, hd'] at hone
        cases hone
        exact ih (hc.assignOne hd) hbs

end Context

end MapExpr
