import MapExpr.Proofs.Evaluation.FaultPlaces
import MapExpr.Proofs.Evaluation.Hosts
import MapExpr.Proofs.Evaluation.Names
import MapExpr.Proofs.Parsing.Reading
import Mathlib.Data.List.Perm.Basic

/-!
# How far a batch is carried out

The entries of a batch are evaluated one after the other, each in the context that the entries
before it have left, and the first fault ends the batch. `Context.update` says what a context is
after names have been given values, without going through these one by one: the last value of a
name counts, and every other name stands for what it has stood for. `Course` says with it how a
batch ends, be it at the end or at an entry that fails, and every batch has a course
(`exists_course`).

Two batches one behind the other are carried out like a single one (`assign_append`), and a source
that holds no batch leaves the context as it is.
-/

namespace MapExpr

namespace Context

variable {H : Host} {c d : Context H} {a : Assignment} {as bs : List Assignment}
  {v : Value H} {vs : List (Value H)} {e : Located EvalFault} {x : String}

/-! ## Several bindings at once -/

/-- The context in which names have been given values, one after the other. The last value of a name
counts. -/
def update (c : Context H) (qs : List (String × Value H)) : Context H :=
  { c with resolve := fun x => (qs.reverse.lookup x).or (c.resolve x) }

/-- Without bindings the context stays what it is. -/
@[simp] theorem update_nil (c : Context H) : c.update [] = c := rfl

/-- The first name is bound before the others. -/
theorem update_cons (c : Context H) (x : String) (v : Value H) (qs : List (String × Value H)) :
    c.update ((x, v) :: qs) = (c.bind x v).update qs := by
  simp only [update, bind, mk.injEq, true_and, and_true]
  funext y
  have hone : ([(x, v)].lookup y).or (c.resolve y) = if y = x then some v else c.resolve y := by
    by_cases hy : y = x
    · simp [hy]
    · have hbeq : (y == x) = false := beq_false_of_ne hy
      rw [List.lookup_cons, hbeq, if_neg hy]
      rfl
  rw [List.reverse_cons, List.lookup_append, Option.or_assoc, hone]

/-- The names of the first entries with the values that they are given. -/
def bindings (as : List Assignment) (vs : List (Value H)) : List (String × Value H) :=
  (as.map Assignment.name).zip vs

/-- As long as there are no values, nothing is bound. -/
@[simp] theorem bindings_nil (as : List Assignment) : bindings as ([] : List (Value H)) = [] :=
  List.zip_nil_right

/-- The first name gets the first value. -/
@[simp] theorem bindings_cons (a : Assignment) (as : List Assignment) (v : Value H)
    (vs : List (Value H)) : bindings (a :: as) (v :: vs) = (a.name, v) :: bindings as vs := rfl

/-! ## Entries one after the other -/

/-- In a batch that succeeds the first entry has a value. -/
theorem exists_eval_of_assign (h : (c.assign (a :: as)).2 = none) :
    ∃ v, c.eval a.value = .ok v := by
  cases hv : c.eval a.value with
  | ok v => exact ⟨v, rfl⟩
  | error e =>
    rw [assign_cons_of_error hv] at h
    cases h

/-- The entries behind others are carried out in the context that these have left, if none of these
has failed. -/
theorem assign_append (c : Context H) (as bs : List Assignment) :
    c.assign (as ++ bs) = match c.assign as with
      | (d, none) => d.assign bs
      | (d, some e) => (d, some e) := by
  induction as generalizing c with
  | nil => rfl
  | cons a as ih =>
    rw [List.cons_append]
    cases hv : c.eval a.value with
    | ok v => rw [assign_cons_of_eval hv, assign_cons_of_eval hv, ih]
    | error e => rw [assign_cons_of_error hv, assign_cons_of_error hv]

/-! ## The course of a batch -/

/-- The batch `as` changes the context `c` into `d` and ends with a fault or without one. The values
`vs` are those of the entries that are carried out. -/
structure Course (c : Context H) (as : List Assignment) (vs : List (Value H)) (d : Context H)
    (fault : Option (Located EvalFault)) : Prop where
  length_le : vs.length ≤ as.length
  /-- Each value is that of its entry in the context that the entries before it have left. -/
  value : ∀ i a v, as[i]? = some a → vs[i]? = some v →
    (c.update ((bindings as vs).take i)).eval a.value = .ok v
  context : d = c.update (bindings as vs)
  others : ∀ x ∉ (as.take vs.length).map Assignment.name, d.resolve x = c.resolve x
  completed : fault = none ↔ vs.length = as.length
  /-- A fault is that of the next entry, in the context in which the batch ends. -/
  stopped : ∀ e, fault = some e ↔
    ∃ a, as[vs.length]? = some a ∧ d.eval a.value = .error e

namespace Course

/-- The empty batch changes nothing and does not fail. -/
theorem nil (c : Context H) : c.Course [] [] c none where
  length_le := Nat.le_refl 0
  value _ _ _ h := nomatch h
  context := rfl
  others _ _ := rfl
  completed := iff_of_true rfl rfl
  stopped _ := iff_of_false nofun fun ⟨_, h, _⟩ => nomatch h

/-- An entry that fails ends the batch. -/
theorem stop (h : c.eval a.value = .error e) (as : List Assignment) :
    c.Course (a :: as) [] c (some e) where
  length_le := Nat.zero_le _
  value _ _ _ _ h := nomatch h
  context := rfl
  others _ _ := rfl
  completed := iff_of_false nofun (Nat.succ_ne_zero as.length).symm
  stopped f := by
    constructor
    · rintro ⟨⟩
      exact ⟨a, rfl, h⟩
    · rintro ⟨b, hb, hf⟩
      cases hb
      rw [Except.error.inj (h.symm.trans hf)]

/-- An entry with a value is carried out, and the batch goes on. -/
theorem cons {fault : Option (Located EvalFault)} (h : c.eval a.value = .ok v)
    (hrest : (c.bind a.name v).Course as vs d fault) : c.Course (a :: as) (v :: vs) d fault where
  length_le := Nat.succ_le_succ hrest.length_le
  value i b w hb hw := by
    cases i with
    | zero =>
      cases hb
      cases hw
      exact h
    | succ i =>
      rw [bindings_cons, List.take_succ_cons, update_cons]
      exact hrest.value i b w hb hw
  context := by
    rw [bindings_cons, update_cons]
    exact hrest.context
  others x hx := by
    rw [List.length_cons, List.take_succ_cons, List.map_cons, List.mem_cons, not_or] at hx
    rw [hrest.others x hx.2, resolve_bind_of_ne c v hx.1]
  completed := by
    rw [hrest.completed, List.length_cons, List.length_cons, Nat.add_right_cancel_iff]
  stopped := hrest.stopped

end Course

/-- Every batch takes its course. -/
theorem exists_course (c : Context H) (as : List Assignment) :
    ∃ vs, c.Course as vs (c.assign as).1 (c.assign as).2 := by
  induction as generalizing c with
  | nil => exact ⟨[], .nil c⟩
  | cons a as ih =>
    cases hv : c.eval a.value with
    | ok v =>
      obtain ⟨vs, hrest⟩ := ih (c.bind a.name v)
      rw [assign_cons_of_eval hv]
      exact ⟨v :: vs, hrest.cons hv⟩
    | error e =>
      rw [assign_cons_of_error hv]
      exact ⟨[], .stop hv as⟩

/-- Every batch has a course: the first entries are carried out, each in the context that those
before it have left, and nothing but their names changes what it stands for; then the batch is at
its end, or the next entry fails in the context that is left. A batch with another one behind it
does what the two do one after the other, the second only if the first succeeds. A source that
cannot be cut into tokens, or whose tokens are no batch, leaves the context as it is, and every
other one does what its batch does. -/
theorem assign_in_sequence (c : Context H) :
    (∀ as, ∃ vs, c.Course as vs (c.assign as).1 (c.assign as).2) ∧
    (∀ as bs, c.assign (as ++ bs) = match c.assign as with
      | (d, none) => d.assign bs
      | (d, some e) => (d, some e)) ∧
    ∀ source, c.run source = match tokenize .batch source with
      | .error f => (c, some (f.map Fault.lex))
      | .ok ts => match parseBatch ts with
        | .error f => (c, some (f.map Fault.parse))
        | .ok as => ((c.assign as).1, (c.assign as).2.map (Located.map Fault.eval)) := by
  refine ⟨c.exists_course, c.assign_append, fun source => ?_⟩
  cases h : tokenize .batch source with
  | error f =>
    exact run_of_readBatch_error (readWith_eq_error_iff.2 (.inl ⟨f, h, rfl⟩))
  | ok ts =>
    rw [run, readBatch_eq, readWith_of_tokenize h]
    dsimp only
    cases parseBatch ts <;> rfl

/-- The first entry takes the name of a function of the library, so the third one has nothing to
call. What has been bound before stays. -/
theorem assign_in_sequence_stopped :
    let c : Context Host.bare := (empty .bare).bindLibrary
    let as : List Assignment :=
      [⟨"abs", .literal (.number 1) ⟨1, 6⟩, ⟨1, 0⟩⟩, ⟨"x", .var "abs" ⟨1, 13⟩, ⟨1, 9⟩⟩,
       ⟨"x", .call (.var "abs" ⟨1, 22⟩) [.var "x" ⟨1, 26⟩] (.ofPosition ⟨1, 25⟩), ⟨1, 18⟩⟩]
    c.assign as = (c.update [("abs", .number 1), ("x", .number 1)],
      some ⟨.notCallable .number, ⟨1, 25⟩⟩) ∧
    ∃ vs, c.Course as vs (c.assign as).1 (c.assign as).2 := by
  intro c as
  refine ⟨?_, (assign_in_sequence c).1 as⟩
  rw [update_cons, update_cons, update_nil]
  rfl

end Context

/-! ## Batches in another order

Two entries depend on each other if they assign to one name, or if one of them mentions the name
that the other assigns to. A value does not depend on anything else that a batch binds: what a
method or a function does that is called through a name is determined by what the name stands for.
So two entries next to each other that do not depend on each other may change places
(`SameEffect.swap`).

For any other order, `Reorders` numbers the entries: where one depends on another, the one with the
smaller number stays in front. The first entry of the batch depends on none of those that have come
to stand before it, so it can be moved back to the front, and the rest is a shorter batch in another
order (`sameEffect_of_numbered`).
-/

/-- The order of the two entries counts: they assign to one name, or one of them mentions the name
that the other assigns to. -/
def Assignment.Dependent (a b : Assignment) : Prop :=
  a.name = b.name ∨ a.name ∈ b.value.names ∨ b.name ∈ a.value.names

instance (a b : Assignment) : Decidable (a.Dependent b) :=
  inferInstanceAs (Decidable (_ ∨ _ ∨ _))

/-- The entries `bs` are the entries `as` in another order, in which dependent ones follow each
other as they did before. -/
def Reorders (as bs : List Assignment) : Prop :=
  ∃ ns : List (Assignment × Nat), ns.Perm as.zipIdx ∧ ns.map Prod.fst = bs ∧
    ns.Pairwise fun x y => x.1.Dependent y.1 → x.2 < y.2

/-- Which of the two entries comes first does not matter. -/
theorem Assignment.Dependent.symm {a b : Assignment} (h : a.Dependent b) : b.Dependent a := by
  rcases h with h | h | h
  · exact .inl h.symm
  · exact .inr (.inr h)
  · exact .inr (.inl h)

/-- Where the batch `as` succeeds, the batch `bs` does the same. -/
def SameEffect (H : Host) (as bs : List Assignment) : Prop :=
  ∀ c : Context H, (c.assign as).2 = none → c.assign bs = c.assign as

namespace SameEffect

variable {H : Host} {a b : Assignment} {as bs cs : List Assignment}

/-- A batch has its own effect. -/
theorem refl (as : List Assignment) : SameEffect H as as := fun _ _ => rfl

/-- From a first batch over a second one to a third one the effect is kept. -/
theorem trans (h : SameEffect H as bs) (h' : SameEffect H bs cs) : SameEffect H as cs := by
  intro c hc
  have hb := h c hc
  rw [← hb] at hc
  exact (h' c hc).trans hb

/-- The entries in front may be the same. -/
theorem append_left (as : List Assignment) (h : SameEffect H bs cs) :
    SameEffect H (as ++ bs) (as ++ cs) := by
  intro c hc
  rw [Context.assign_append] at hc ⊢
  rw [Context.assign_append]
  split at hc
  · next d _ => exact h d hc
  · cases hc

/-- The entry in front may be the same. -/
theorem cons (a : Assignment) (h : SameEffect H as bs) : SameEffect H (a :: as) (a :: bs) :=
  h.append_left [a]

/-- Two entries that do not depend on each other change places. -/
theorem swap (h : ¬ a.Dependent b) (as : List Assignment) :
    SameEffect H (a :: b :: as) (b :: a :: as) := by
  intro c hc
  simp only [Assignment.Dependent, not_or] at h
  obtain ⟨hne, hab, hba⟩ := h
  obtain ⟨v, hv⟩ := Context.exists_eval_of_assign hc
  rw [Context.assign_cons_of_eval hv] at hc ⊢
  obtain ⟨w, hw⟩ := Context.exists_eval_of_assign hc
  have hw' : c.eval b.value = .ok w := by rwa [Context.eval_bind_of_not_mem hab] at hw
  have hv' : (c.bind b.name w).eval a.value = .ok v := by rwa [Context.eval_bind_of_not_mem hba]
  calc c.assign (b :: a :: as)
    _ = (c.bind b.name w).assign (a :: as) := Context.assign_cons_of_eval hw' _
    _ = ((c.bind b.name w).bind a.name v).assign as := Context.assign_cons_of_eval hv' _
    _ = ((c.bind a.name v).bind b.name w).assign as := by rw [Context.bind_comm c v w hne]
    _ = (c.bind a.name v).assign (b :: as) := (Context.assign_cons_of_eval hw _).symm

/-- An entry moves behind entries that do not depend on it. -/
theorem move (h : ∀ b ∈ bs, ¬ a.Dependent b) (as : List Assignment) :
    SameEffect H (a :: (bs ++ as)) (bs ++ a :: as) := by
  induction bs with
  | nil => exact refl _
  | cons b bs ih =>
    rw [List.forall_mem_cons] at h
    exact (swap h.1 (bs ++ as)).trans ((ih h.2).cons b)

end SameEffect

/-- Numbered entries have the same effect in any order that keeps dependent ones in the order of
their numbers. -/
theorem sameEffect_of_numbered {H : Host} {ns ms : List (Assignment × Nat)} (hp : ms.Perm ns)
    (hns : ns.Pairwise fun x y => x.2 < y.2)
    (hms : ms.Pairwise fun x y => x.1.Dependent y.1 → x.2 < y.2) :
    SameEffect H (ns.map Prod.fst) (ms.map Prod.fst) := by
  induction ns generalizing ms with
  | nil =>
    obtain rfl := hp.eq_nil
    exact .refl _
  | cons x ns ih =>
    obtain ⟨before, after, rfl⟩ := List.append_of_mem (hp.mem_iff.2 List.mem_cons_self)
    obtain ⟨hx, hns⟩ := List.pairwise_cons.1 hns
    have hrest : (before ++ after).Perm ns := (List.perm_middle.symm.trans hp).cons_inv
    -- What stands before the first entry has a larger number, so nothing of it depends on it.
    have hbefore : ∀ a ∈ before.map Prod.fst, ¬ x.1.Dependent a := by
      intro a ha hdep
      obtain ⟨y, hy, rfl⟩ := List.mem_map.1 ha
      have hlt : x.2 < y.2 := hx y (hrest.mem_iff.1 (List.mem_append_left after hy))
      have hgt : y.2 < x.2 :=
        (List.pairwise_append.1 hms).2.2 y hy x List.mem_cons_self hdep.symm
      exact Nat.lt_asymm hlt hgt
    have hmove : SameEffect H (x.1 :: (before ++ after).map Prod.fst)
        ((before ++ x :: after).map Prod.fst) := by
      rw [List.map_append, List.map_append]
      exact SameEffect.move hbefore _
    have htail : (before ++ after).Pairwise fun x y => x.1.Dependent y.1 → x.2 < y.2 :=
      hms.sublist ((List.sublist_cons_self x after).append_left before)
    exact ((ih hrest hns htail).cons x.1).trans hmove

/-- A batch in another order has the same effect, swap by swap. -/
theorem sameEffect_of_reorders {H : Host} {as bs : List Assignment} (h : Reorders as bs) :
    SameEffect H as bs := by
  obtain ⟨ns, hp, rfl, hns⟩ := h
  have hnumbers : (as.zipIdx.map Prod.snd).Pairwise (· < ·) := by
    rw [List.zipIdx_map_snd]
    exact List.pairwise_lt_range'
  have heffect := sameEffect_of_numbered (H := H) hp (List.pairwise_map.1 hnumbers) hns
  rwa [List.zipIdx_map_fst] at heffect

/-- Two neighbours that do not depend on each other may change places in a batch that succeeds: the
batch still succeeds and ends in the same context. So may all entries, as long as those that depend
on each other keep their order. -/
theorem Context.assign_reordered {H : Host} (c : Context H) :
    (∀ before a b after, ¬ Assignment.Dependent a b →
      (c.assign (before ++ a :: b :: after)).2 = none →
      c.assign (before ++ b :: a :: after) = c.assign (before ++ a :: b :: after)) ∧
    ∀ as bs, Reorders as bs → (c.assign as).2 = none → c.assign bs = c.assign as :=
  ⟨fun before _ _ after h => (SameEffect.swap h after).append_left before c,
    fun _ _ h => sameEffect_of_reorders h c⟩

/-- A method keeps the value that it has been read from, so its call depends on the entry that has
read it, and on no other one. -/
theorem Context.assign_reordered_method :
    let c : Context Host.bare := (empty .bare).bind "s" (.string "a")
    let m : Assignment := ⟨"m", .member (.var "s" ⟨1, 4⟩) "upper" ⟨1, 5⟩, ⟨1, 0⟩⟩
    let n : Assignment := ⟨"s", .literal (.number 2) ⟨1, 17⟩, ⟨1, 13⟩⟩
    let k : Assignment := ⟨"k", .literal (.number 3) ⟨1, 24⟩, ⟨1, 20⟩⟩
    let t : Assignment := ⟨"t", .call (.var "m" ⟨1, 31⟩) [] (.ofPosition ⟨1, 32⟩), ⟨1, 27⟩⟩
    ((c.assign [m, n, k, t]).2 = none ∧ ¬ k.Dependent t ∧
      Reorders [m, n, k, t] [m, t, k, n]) ∧
    c.assign [m, n, t, k] = c.assign [m, n, k, t] ∧
    c.assign [m, t, k, n] = c.assign [m, n, k, t] := by
  intro c m n k t
  have hkt : ¬ k.Dependent t := by decide
  have horder : Reorders [m, n, k, t] [m, t, k, n] := by
    refine ⟨[(m, 0), (t, 3), (k, 2), (n, 1)], ?_, rfl, by decide⟩
    exact (List.reverse_perm [(n, 1), (k, 2), (t, 3)]).cons (m, 0)
  obtain ⟨hswap, hreorder⟩ := assign_reordered c
  exact ⟨⟨rfl, hkt, horder⟩, hswap [m, n] k t [] hkt rfl, hreorder _ _ horder rfl⟩

/-! ## A batch that is carried out twice

A batch reads nothing ahead if no entry mentions a name to which the entry itself or one behind it
assigns. What its entries read is then bound by entries before them or not by the batch at all. When
the batch is carried out again, an entry finds other values than before under the names that are
assigned from there on, but it reads none of them, and the names that it reads stand for what they
have stood for when it was reached the first time. `assign_of_agree` runs the batch in two contexts
that agree on every name that is still not assigned to; behind the last entry they agree on all.

A method that is read a second time is the same function value as the first time, being the method
of its type with the value in front of the point. So nothing is left that could differ, in contexts
where the code of a host cannot be called: what such a code makes may differ from run to run.
-/

section Rerunning

variable {H : Host}

/-- No entry mentions a name to which the entry itself or one behind it assigns. -/
def ReadsNothingAhead : List Assignment → Prop
  | [] => True
  | a :: as => (∀ x ∈ a.value.names, x ∉ (a :: as).map Assignment.name) ∧ ReadsNothingAhead as

/-- Objects without members have none in any registry. -/
theorem Registry.access_eq_of_no_members {r q : Registry H} (hr : ∀ o, r.members? o = none)
    (hq : ∀ o, q.members? o = none) (v : Value H) (name : String) (p : Position) :
    r.access v name p = q.access v name p := by
  have htable : r.tableOf v = q.tableOf v := by
    cases v with
    | object o => rw [tableOf, tableOf, hr, hq]
    | none | number _ | vector _ | string _ | function _ | bound _ _ => rfl
  rw [access, access, htable]

namespace Context

variable {c d : Context H} {r : Registry H} {as : List Assignment}

/-! ### No code of the host is run -/

mutual

/-- In a standard context the registry does not matter, as long as objects have no members. -/
theorem eval_withRegistry (hc : c.Standard) (hr : ∀ o, r.members? o = none) :
    (e : Expr) → (c.withRegistry r).eval e = c.eval e
  | .literal _ _ => rfl
  | .vector es _ => by rw [eval, eval, evalComponents_withRegistry hc hr es]
  | .var _ _ => rfl
  | .member e x p => by
    rw [eval, eval, eval_withRegistry hc hr e]
    exact bind_congr fun v => Registry.access_eq_of_no_members hr hc.members? v x p
  | .index e i _ => by
    rw [eval, eval, eval_withRegistry hc hr e, eval_withRegistry hc hr i]
  | .call f as _ => by
    rw [eval, eval, eval_withRegistry hc hr f, evalAll_withRegistry hc hr as]
    cases hf : c.eval f with
    | error _ => rfl
    | ok v =>
      have hv := hc.eval hf
      cases v with
      | function f =>
        cases f with
        | library f n => rfl
        | host f => exact hv.elim
      | bound m v =>
        cases m with
        | vector m => rfl
        | string m => rfl
        | host m => exact hv.1.elim
      | none | number _ | vector _ | string _ | object _ => rfl
  | .unary _ e _ => by rw [eval, eval, eval_withRegistry hc hr e]
  | .binary _ l n _ => by
    rw [eval, eval, eval_withRegistry hc hr l, eval_withRegistry hc hr n]
  | .conditional t y n _ => by
    rw [eval, eval, eval_withRegistry hc hr t, eval_withRegistry hc hr y,
      eval_withRegistry hc hr n]

/-- Several expressions have the same values with any registry that gives objects no members. -/
theorem evalAll_withRegistry (hc : c.Standard) (hr : ∀ o, r.members? o = none) :
    (es : List Expr) → (c.withRegistry r).evalAll es = c.evalAll es
  | [] => rfl
  | e :: es => by
    rw [evalAll, evalAll, eval_withRegistry hc hr e, evalAll_withRegistry hc hr es]

/-- Components are the same numbers with any registry that gives objects no members. -/
theorem evalComponents_withRegistry (hc : c.Standard) (hr : ∀ o, r.members? o = none) :
    (es : List Expr) → (c.withRegistry r).evalComponents es = c.evalComponents es
  | [] => rfl
  | e :: es => by
    rw [evalComponents, evalComponents, eval_withRegistry hc hr e,
      evalComponents_withRegistry hc hr es]

end

/-- What an expression evaluates to is determined by its names, in a standard context and in any
other one whose objects have no members. -/
theorem Standard.eval_congr (hc : c.Standard) (hd : ∀ o, d.registry.members? o = none) {e : Expr}
    (h : ∀ x ∈ e.names, d.lookup x = c.lookup x) : d.eval e = c.eval e := by
  have hr : d.registry = (c.withRegistry d.registry).registry := rfl
  calc d.eval e
    _ = (c.withRegistry d.registry).eval e := Context.eval_congr hr e h
    _ = c.eval e := eval_withRegistry hc hd e

/-! ### The second time -/

/-- Names that no entry assigns to are not changed. -/
theorem resolve_assign_of_not_mem {x : String} (h : x ∉ as.map Assignment.name) :
    (c.assign as).1.resolve x = c.resolve x := by
  obtain ⟨vs, hcourse⟩ := exists_course c as
  refine hcourse.others x fun hx => h ?_
  rw [List.map_take] at hx
  exact List.mem_of_mem_take hx

/-- A batch does not touch the registry. -/
theorem registry_assign (c : Context H) (as : List Assignment) :
    (c.assign as).1.registry = c.registry := by
  obtain ⟨vs, hcourse⟩ := exists_course c as
  rw [hcourse.context]
  rfl

/-- In two contexts that agree on all names but those that are assigned to, the same is assigned. -/
theorem assign_of_agree (hc : c.Standard) (hd : ∀ o, d.registry.members? o = none)
    (has : ReadsNothingAhead as) (h : (c.assign as).2 = none)
    (hagree : ∀ x ∉ as.map Assignment.name, d.resolve x = c.resolve x) :
    d.assign as = ({ d with resolve := (c.assign as).1.resolve }, none) := by
  induction as generalizing c d with
  | nil =>
    have hresolve : d.resolve = c.resolve := funext fun x => hagree x List.not_mem_nil
    rw [assign, assign, ← hresolve]
  | cons a as ih =>
    obtain ⟨hnames, has⟩ := has
    obtain ⟨v, hv⟩ := exists_eval_of_assign h
    have hv' : d.eval a.value = .ok v := by
      rw [hc.eval_congr hd fun x hx => ?_, hv]
      rw [lookup, lookup, hagree x (hnames x hx)]
    rw [assign_cons_of_eval hv] at h ⊢
    rw [assign_cons_of_eval hv']
    refine ih (hc.bind a.name (hc.eval hv)) hd has h fun x hx => ?_
    -- the name of the entry is the only one on which the two contexts may have disagreed
    by_cases hxa : x = a.name
    · rw [hxa, resolve_bind_self, resolve_bind_self]
    · have hx' : x ∉ (a :: as).map Assignment.name := List.not_mem_cons_of_ne_of_not_mem hxa hx
      rw [resolve_bind_of_ne d v hxa, resolve_bind_of_ne c v hxa, hagree x hx']

/-- A batch that succeeds and reads nothing ahead succeeds again in the context that it has left,
and changes nothing there. The registry may be that of another run, if objects have no members in
it either. -/
theorem assign_idempotent (hc : c.Standard) (has : ReadsNothingAhead as)
    (h : (c.assign as).2 = none) :
    let d := (c.assign as).1
    d.assign as = (d, none) ∧
    ∀ r, (∀ o, r.members? o = none) → (d.withRegistry r).assign as = (d.withRegistry r, none) := by
  intro d
  have hagree : ∀ x ∉ as.map Assignment.name, d.resolve x = c.resolve x :=
    fun x hx => resolve_assign_of_not_mem hx
  have hregistry : d.registry = c.registry := registry_assign c as
  refine ⟨assign_of_agree hc (hregistry ▸ hc.members?) has h hagree, fun r hr => ?_⟩
  exact assign_of_agree (d := d.withRegistry r) hc hr has h hagree

/-- When the batch is carried out again, `m` is bound to a method from the start, but it is a number
again when the second entry is reached, and the method again when it is called. -/
theorem assign_idempotent_method :
    let c : Context Host.bare := (empty .bare).bindLibrary.bind "s" (.string "a")
    let as : List Assignment :=
      [⟨"m", .literal (.number 1) ⟨1, 4⟩, ⟨1, 0⟩⟩,
       ⟨"m", .member (.var "s" ⟨1, 11⟩) "upper" ⟨1, 12⟩, ⟨1, 7⟩⟩,
       ⟨"t", .call (.var "m" ⟨1, 24⟩) [] (.ofPosition ⟨1, 25⟩), ⟨1, 20⟩⟩,
       ⟨"f", .var "abs" ⟨1, 33⟩, ⟨1, 29⟩⟩]
    let d := (c.assign as).1
    (c.Standard ∧ ReadsNothingAhead as ∧ (c.assign as).2 = none ∧
      d.resolve "m" = some (.bound (.string .upper) (.string "a")) ∧
      d.resolve "f" = some (.function (.library .abs 0))) ∧
    d.assign as = (d, none) ∧
    ∀ r, (∀ o, r.members? o = none) → (d.withRegistry r).assign as = (d.withRegistry r, none) := by
  intro c as d
  have hc : c.Standard := standard_bare.bindLibrary.bind "s" trivial
  have has : ReadsNothingAhead as := ⟨by decide, by decide, by decide, by decide, trivial⟩
  exact ⟨⟨hc, has, rfl, rfl, rfl⟩, assign_idempotent hc has rfl⟩

end Context

end Rerunning

end MapExpr
