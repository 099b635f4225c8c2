import MapExpr.Proofs.Evaluation.Texts
import MapExpr.Proofs.Number.Order

/-!
# The smallest and the largest argument

`min` and `max` read their arguments as numbers from left to right and go through them with one
operation on two numbers. The first argument that is no number is the fault (`Chosen.error_iff`). If
there is none, the result is the number among the arguments that is extreme, NaNs left aside
(`Chosen.ok`).

A list has one extreme number only, whatever the order of the list is, and the extreme one of two
extreme numbers is that of both lists. So the arguments may be put into another order, written twice
or split into two calls (`eval_call_extreme`).
-/

namespace MapExpr

open Number

variable {H : Host} {args args' : List (Value H)} {v : Value H} {x y : Float}
  {le : Float → Float → Prop} {pick : Float → Float → Float} {p q : Position}
  {r s : Evaluated (Value H)}

/-! ## Arguments that are read as numbers -/

/-- Different numbers are different values. -/
theorem Value.number_injective : Function.Injective (Value.number : Float → Value H) :=
  fun _ _ h => Value.number.inj h

namespace Arguments

/-- The leftmost argument that is no number. -/
def nonNumber? (args : List (Value H)) : Option (Value H) :=
  args.find? fun v => v.typeName ≠ .number

/-- None is found if and only if all arguments are numbers. -/
theorem nonNumber?_eq_none_iff : nonNumber? args = none ↔ ∀ v ∈ args, v.typeName = .number := by
  rw [nonNumber?, List.find?_eq_none]
  simp only [decide_eq_true_eq, not_not]

/-- One is found if and only if there is one. -/
theorem exists_nonNumber?_iff :
    (∃ v, nonNumber? args = some v) ↔ ∃ v ∈ args, v.typeName ≠ .number := by
  rw [← Option.isSome_iff_exists, nonNumber?, List.find?_isSome]
  simp only [decide_eq_true_eq]

/-- The arguments in front are looked at first. -/
theorem nonNumber?_append :
    nonNumber? (args ++ args') = (nonNumber? args).or (nonNumber? args') :=
  List.find?_append

/-- Among numbers there is none. -/
theorem nonNumber?_map (xs : List Float) :
    nonNumber? (xs.map (.number : Float → Value H)) = none :=
  nonNumber?_eq_none_iff.2 (List.forall_mem_map.2 fun _ _ => rfl)

/-- Arguments among which there is none are a list of numbers. -/
theorem exists_map_number (h : nonNumber? args = none) :
    ∃ xs : List Float, args = xs.map .number := by
  induction args with
  | nil => exact ⟨[], rfl⟩
  | cons v vs ih =>
    rw [nonNumber?, List.find?_cons] at h
    cases v with
    | number x =>
      obtain ⟨xs, rfl⟩ := ih h
      exact ⟨x :: xs, rfl⟩
    | none | vector | string | function | bound | object => cases h

/-- Reading the arguments as numbers fails at the leftmost one that is none. -/
theorem numbers_of_nonNumber? (h : nonNumber? args = some v) (p : Position) :
    numbers args p = .error ⟨.expectedNumber v.typeName, p⟩ := by
  unfold numbers
  induction args with
  | nil => cases h
  | cons w ws ih =>
    rw [nonNumber?, List.find?_cons] at h
    rw [List.mapM_cons]
    cases w with
    | number x =>
      rw [ih h]
      rfl
    | none | vector | string | function | bound | object =>
      cases h
      rfl

end Arguments

open Arguments

/-! ## Choosing among arguments -/

/-- The outcome of choosing the argument that stands in front in the order `le`. -/
structure Chosen (le : Float → Float → Prop) (args : List (Value H)) (p : Position)
    (r : Evaluated (Value H)) : Prop where
  fails_iff : (∃ g, r = .error g) ↔ ∃ v ∈ args, v.typeName ≠ .number
  error_iff : ∀ g, r = .error g ↔
    ∃ v, nonNumber? args = some v ∧ g = ⟨.expectedNumber v.typeName, p⟩
  ok : ∀ xs, args = xs.map .number → ∃ y, r = .ok (.number y) ∧ Extreme le xs y

/-- Two choices lead to the same number, or to the same fault at their places. -/
inductive SameChoice : Evaluated (Value H) → Evaluated (Value H) → Prop
  | number {x y : Float} (h : SameNumber x y) : SameChoice (.ok (.number x)) (.ok (.number y))
  | fault (f : EvalFault) (p q : Position) : SameChoice (.error ⟨f, p⟩) (.error ⟨f, q⟩)

namespace Chosen

/-- An outcome is a choice if it fails for the right arguments and is extreme for lists of numbers.
-/
theorem of_error_iff
    (herror : ∀ g, r = .error g ↔
      ∃ v, nonNumber? args = some v ∧ g = ⟨.expectedNumber v.typeName, p⟩)
    (hok : ∀ xs, args = xs.map .number → ∃ y, r = .ok (.number y) ∧ Extreme le xs y) :
    Chosen le args p r where
  fails_iff := by
    rw [← exists_nonNumber?_iff, exists_congr herror, exists_comm]
    simp
  error_iff := herror
  ok := hok

/-- The fault names the type of the leftmost argument that is no number. -/
theorem eq_error (h : Chosen le args p r) (hv : nonNumber? args = some v) :
    r = .error ⟨.expectedNumber v.typeName, p⟩ :=
  (h.error_iff _).2 ⟨v, hv, rfl⟩

/-- Arguments that are the same up to their order and number lead to the same number, or both lists
fail; which of several misfits is reported depends on the order. -/
theorem congr (hle : Orders le) (h : Chosen le args p r) (h' : Chosen le args' q s)
    (hargs : ∀ v, v ∈ args ↔ v ∈ args') :
    (∃ f g, r = .error f ∧ s = .error g) ∨
    ∃ x y, r = .ok (.number x) ∧ s = .ok (.number y) ∧ SameNumber x y := by
  cases hv : nonNumber? args with
  | some v =>
    obtain ⟨w, hw, hne⟩ := exists_nonNumber?_iff.1 ⟨v, hv⟩
    obtain ⟨g, hg⟩ := h'.fails_iff.2 ⟨w, (hargs w).1 hw, hne⟩
    exact .inl ⟨_, g, h.eq_error hv, hg⟩
  | none =>
    have hv' : nonNumber? args' = none := nonNumber?_eq_none_iff.2 fun w hw =>
      nonNumber?_eq_none_iff.1 hv w ((hargs w).2 hw)
    obtain ⟨xs, rfl⟩ := exists_map_number hv
    obtain ⟨ys, rfl⟩ := exists_map_number hv'
    obtain ⟨x, hr, hx⟩ := h.ok xs rfl
    obtain ⟨y, hs, hy⟩ := h'.ok ys rfl
    have hxy (z : Float) : z ∈ xs ↔ z ∈ ys := by
      rw [← List.mem_map_of_injective Value.number_injective, hargs,
        List.mem_map_of_injective Value.number_injective]
    exact .inr ⟨x, y, hr, hs, (hx.congr hxy).unique hle hy⟩

end Chosen

/-- Going through the arguments with an operation that picks by an order chooses by this order. -/
theorem chosen_choose (hle : Orders le) (hp : Picks le pick) (hargs : args ≠ []) (p : Position) :
    Chosen le args p (LibraryFunction.choose pick args p) := by
  cases hv : nonNumber? args with
  | some v =>
    have hr : LibraryFunction.choose pick args p = .error ⟨.expectedNumber v.typeName, p⟩ := by
      rw [LibraryFunction.choose, numbers_of_nonNumber? hv]
      rfl
    rw [hr]
    refine .of_error_iff (fun g => ?_) fun xs hxs => ?_
    · simp [hv, eq_comm]
    · rw [hxs, nonNumber?_map] at hv
      cases hv
  | none =>
    obtain ⟨xs, rfl⟩ := exists_map_number hv
    cases xs with
    | nil => exact absurd rfl hargs
    | cons x xs =>
      have hr : LibraryFunction.choose pick ((x :: xs).map .number) p =
          .ok (.number (xs.foldl pick x) : Value H) := by
        rw [LibraryFunction.choose, LibraryFunction.numbers_map]
        rfl
      rw [hr]
      refine .of_error_iff (fun g => iff_of_false nofun ?_) fun ys hys => ⟨_, rfl, ?_⟩
      · rintro ⟨v, h, -⟩
        exact nomatch hv.symm.trans h
      · rw [← List.map_injective_iff.2 Value.number_injective hys]
        exact hp.foldl hle x xs

/-! ## Calls -/

/-- The order by which a function of the library chooses among its arguments. -/
inductive Chooses : LibraryFunction → (Float → Float → Prop) → Prop
  | min : Chooses .min (· ≤ ·)
  | max : Chooses .max (· ≥ ·)

variable {f : LibraryFunction}

/-- The orders of `min` and of `max` are orders that a choice can go by. -/
theorem Chooses.orders (hf : Chooses f le) : Orders le := by
  cases hf with
  | min => exact orders_le
  | max => exact orders_ge

/-- Both functions accept any number of arguments but none at all. -/
theorem Chooses.accepts (hf : Chooses f le) {n : Nat} (hn : 0 < n) : f.arity.accepts n := by
  cases hf with
  | min => exact decide_eq_true hn
  | max => exact decide_eq_true hn

/-- Either function chooses among its arguments, if it has some. -/
theorem Chooses.chosen (hf : Chooses f le) (hargs : args ≠ []) (p : Position) :
    Chosen le args p (f.run args p) := by
  cases hf with
  | min => exact chosen_choose orders_le picks_least hargs p
  | max => exact chosen_choose orders_ge picks_greatest hargs p

namespace Context

variable {c : Context H} {callee e : Expr} {es fs : List Expr} {i : Nat} {g : Located EvalFault}

/-- Expressions that have values one by one have them as one list. -/
theorem evalAll_append (hes : c.evalAll es = .ok args) (hfs : c.evalAll fs = .ok args') :
    c.evalAll (es ++ fs) = .ok (args ++ args') := by
  induction es generalizing args with
  | nil =>
    cases hes
    exact hfs
  | cons e es ih =>
    rw [evalAll] at hes
    obtain ⟨v, hv, hes⟩ := exists_of_bind_eq_ok hes
    obtain ⟨vs, hvs, hes⟩ := exists_of_bind_eq_ok hes
    cases hes
    rw [List.cons_append, evalAll, hv, ih hvs]
    rfl

/-- Some expressions have some values. -/
theorem ne_nil_of_evalAll (hes : c.evalAll es = .ok args) (h : es ≠ []) : args ≠ [] := by
  obtain ⟨e, es, rfl⟩ := List.exists_cons_of_ne_nil h
  rw [evalAll] at hes
  obtain ⟨v, -, hes⟩ := exists_of_bind_eq_ok hes
  obtain ⟨vs, -, hes⟩ := exists_of_bind_eq_ok hes
  cases hes
  exact List.cons_ne_nil v vs

/-- A call fails with the fault of its arguments. -/
theorem eval_call_of_error {F : Function H} (hf : c.eval callee = .ok (.function F))
    (hes : c.evalAll es = .error g) (site : CallSite) :
    c.eval (.call callee es site) = .error g := by
  rw [eval, hf, hes]
  rfl

/-- A call of `min` or `max` chooses among the values of the argument expressions. -/
theorem chosen_eval_call (hf : Chooses f le)
    (hcallee : c.eval callee = .ok (.function (.library f i))) (h : es ≠ [])
    (hes : c.evalAll es = .ok args) (site : CallSite) :
    Chosen le args site.position (c.eval (.call callee es site)) := by
  have hargs := ne_nil_of_evalAll hes h
  rw [eval_call_library hcallee hes (hf.accepts (List.length_pos_iff.2 hargs))]
  exact hf.chosen hargs site.position

/-- Choosing among the choices from two lists is choosing from both of them. -/
theorem sameChoice_append (hf : Chooses f le)
    (hcallee : c.eval callee = .ok (.function (.library f i))) (h : es ≠ []) (h' : fs ≠ [])
    (hes : c.evalAll es = .ok args) (hfs : c.evalAll fs = .ok args') (s t u v : CallSite) :
    SameChoice (c.eval (.call callee (es ++ fs) s))
      (c.eval (.call callee [.call callee es t, .call callee fs u] v)) := by
  have hleft := chosen_eval_call hf hcallee h hes t
  have hright := chosen_eval_call hf hcallee h' hfs u
  have hboth := chosen_eval_call hf hcallee (List.append_ne_nil_of_left_ne_nil h fs)
    (evalAll_append hes hfs) s
  cases hv : nonNumber? args with
  | some v =>
    have hfault : c.evalAll [.call callee es t, .call callee fs u] =
        .error ⟨.expectedNumber v.typeName, t.position⟩ := by
      rw [evalAll, hleft.eq_error hv]
      rfl
    rw [hboth.eq_error (v := v) (by rw [nonNumber?_append, hv]; rfl),
      eval_call_of_error hcallee hfault]
    exact .fault _ _ _
  | none =>
    obtain ⟨xs, rfl⟩ := exists_map_number hv
    obtain ⟨x, hx, hxs⟩ := hleft.ok xs rfl
    cases hv' : nonNumber? args' with
    | some w =>
      have hfault : c.evalAll [.call callee es t, .call callee fs u] =
          .error ⟨.expectedNumber w.typeName, u.position⟩ := by
        rw [evalAll, hx, evalAll, hright.eq_error hv']
        rfl
      rw [hboth.eq_error (v := w) (by rw [nonNumber?_append, hv, hv']; rfl),
        eval_call_of_error hcallee hfault]
      exact .fault _ _ _
    | none =>
      obtain ⟨ys, rfl⟩ := exists_map_number hv'
      obtain ⟨y, hy, hys⟩ := hright.ok ys rfl
      obtain ⟨z, hz, hzs⟩ := hboth.ok (xs ++ ys) List.map_append.symm
      have hpair : c.evalAll [.call callee es t, .call callee fs u] =
          .ok ([x, y].map .number) := evalAll_numbers (.cons hx (.cons hy .nil))
      obtain ⟨w, hw, hws⟩ :=
        (chosen_eval_call hf hcallee (List.cons_ne_nil _ _) hpair v).ok [x, y] rfl
      rw [hz, hw]
      exact .number (hzs.unique hf.orders (hxs.append hf.orders hys hws))

/-- `min` and `max` fail if and only if some argument is no number, and name the type of the
leftmost one. Otherwise the result is a NaN if all arguments are, and else it is equal to an
argument and stands in front of every other one that is not a NaN. The order of the arguments and
repetitions among them do not matter for it, and a call may be split into a call of two calls. -/
theorem eval_call_extreme (c : Context H) {callee : Expr} {f : LibraryFunction} {i : Nat}
    {le : Float → Float → Prop} (hf : Chooses f le)
    (hcallee : c.eval callee = .ok (.function (.library f i))) :
    (∀ es args site, es ≠ [] → c.evalAll es = .ok args →
      Chosen le args site.position (c.eval (.call callee es site))) ∧
    (∀ es fs args args' s t, es ≠ [] → fs ≠ [] → c.evalAll es = .ok args →
      c.evalAll fs = .ok args' → (∀ v, v ∈ args ↔ v ∈ args') →
      (∃ g g', c.eval (.call callee es s) = .error g ∧ c.eval (.call callee fs t) = .error g') ∨
      ∃ x y, c.eval (.call callee es s) = .ok (.number x) ∧
        c.eval (.call callee fs t) = .ok (.number y) ∧ SameNumber x y) ∧
    ∀ es fs args args' s t u v, es ≠ [] → fs ≠ [] → c.evalAll es = .ok args →
      c.evalAll fs = .ok args' →
      SameChoice (c.eval (.call callee (es ++ fs) s))
        (c.eval (.call callee [.call callee es t, .call callee fs u] v)) := by
  refine ⟨fun es args site h hes => ?_, fun es fs args args' s t h h' hes hfs hargs => ?_,
    fun es fs args args' s t u v h h' hes hfs => ?_⟩
  · exact chosen_eval_call hf hcallee h hes site
  · exact (chosen_eval_call hf hcallee h hes s).congr hf.orders
      (chosen_eval_call hf hcallee h' hfs t) hargs
  · exact sameChoice_append hf hcallee h h' hes hfs s t u v

/-- A NaN in front of two numbers, the same arguments in another order with one of them repeated,
and a text that is reported in place of the `none` behind it. -/
theorem eval_call_extreme_min :
    let c : Context Host.bare := (empty .bare).bindLibrary
    let number (x : Float) : Expr := .literal (.number x) ⟨1, 4⟩
    let min (es : List Expr) : Expr := .call (.var "min" ⟨1, 0⟩) es (.ofPosition ⟨1, 3⟩)
    let text : Expr := .literal (.string "a") ⟨1, 4⟩
    let none : Expr := .literal .none ⟨1, 9⟩
    c.eval (min [number 2, text, none]) = .error ⟨.expectedNumber .string, ⟨1, 3⟩⟩ ∧
    (∃ y, c.eval (min [number nan, number 2, number 1]) = .ok (.number y) ∧
      Extreme (· ≤ ·) [nan, 2, 1] y) ∧
    ((∃ g g', c.eval (min [number nan, number 2]) = .error g ∧
        c.eval (min [number 2, number nan, number 2]) = .error g') ∨
      ∃ x y, c.eval (min [number nan, number 2]) = .ok (.number x) ∧
        c.eval (min [number 2, number nan, number 2]) = .ok (.number y) ∧ SameNumber x y) ∧
    SameChoice (c.eval (min [number nan, number 2, number 1]))
      (c.eval (min [min [number nan], min [number 2, number 1]])) := by
  intro c number min text none
  obtain ⟨hchosen, hcongr, happend⟩ := eval_call_extreme c .min
    (show c.eval (.var "min" ⟨1, 0⟩) = .ok (.function (.library .min 0)) from rfl)
  refine ⟨?_, ?_, ?_, ?_⟩
  · exact ((hchosen _ [.number 2, .string "a", .none] _ (List.cons_ne_nil _ _) rfl).error_iff _).2
      ⟨.string "a", rfl, rfl⟩
  · exact (hchosen _ [.number nan, .number 2, .number 1] _ (List.cons_ne_nil _ _) rfl).ok
      [nan, 2, 1] rfl
  · refine hcongr _ _ [.number nan, .number 2] [.number 2, .number nan, .number 2] _ _
      (List.cons_ne_nil _ _) (List.cons_ne_nil _ _) rfl rfl fun v => ?_
    simp only [List.mem_cons, List.not_mem_nil, or_false]
    tauto
  · exact happend [number nan] _ [.number nan] [.number 2, .number 1] _ _ _ _
      (List.cons_ne_nil _ _) (List.cons_ne_nil _ _) rfl rfl

end Context

end MapExpr
