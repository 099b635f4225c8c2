import MapExpr.Proofs.Evaluation.FaultPlaces
import MapExpr.Proofs.Parsing.Reading

/-!
# Nothing is obtained but through names

Functions and objects are authorities: they can be called or handed to the host, and no expression
can build one from data. In a standard context every authority in the value of a tree is contained
in what some name of the tree is bound to (`exists_name_of_mem_authorities`), since containing it is
a closed property of values.

For what is done to a context over time, what counts is which authority is withheld: the names that
are mentioned stand for values without it. Then no evaluation comes across it and no entry binds it.
`Withholds` is the invariant. It is kept by every entry (`Withholds.assignOne`), so by every batch
and by every sequence of evaluations and batches (`Withholds.performAll`).
-/

namespace MapExpr

variable {H : Host}

/-- A function or an object. -/
inductive Authority (H : Host) where
  | function (f : Function H)
  | object (o : Object H)

/-- The functions and objects that a value contains. A method contains those of its receiver. -/
def Value.authorities : Value H → List (Authority H)
  | function f => [.function f]
  | object o => [.object o]
  | bound _ receiver => receiver.authorities
  | none | number _ | vector _ | string _ => []

/-- Plain data contain no authority. -/
theorem Value.Plain.authorities {v : Value H} (hv : v.Plain) : v.authorities = [] := by
  cases v with
  | none | number _ | vector _ | string _ => rfl
  | function _ | bound _ _ | object _ => exact hv.elim

/-- If an authority is in a result, then it has been in one of the values that the result is made
of. -/
theorem Value.closed_authorities (a : Authority H) (G : Prop) :
    Closed fun v : Value H => v.Standard ∧ (a ∈ v.authorities → G) where
  standard hv := hv.1
  plain hv := ⟨hv.standard, fun ha => absurd ha (by simp [hv.authorities])⟩
  bound hm hv := ⟨⟨hm, hv.1⟩, hv.2⟩

namespace Context

variable {c d : Context H} {a : Authority H}

/-- What a name stands for contains an authority if and only if it is bound to a value that does. -/
theorem mem_authorities_lookup {x : String} :
    a ∈ (c.lookup x).authorities ↔ ∃ w, c.resolve x = some w ∧ a ∈ w.authorities := by
  unfold lookup
  cases c.resolve x <;> simp [Value.authorities]

/-- An authority in the value of a tree is in what a name of the tree is bound to. -/
theorem exists_name_of_mem_authorities (hc : c.Standard) {e : Expr} {v : Value H}
    (h : c.eval e = .ok v) (ha : a ∈ v.authorities) :
    ∃ x ∈ e.names, ∃ w, c.resolve x = some w ∧ a ∈ w.authorities := by
  refine (closed_of_eval (Value.closed_authorities a _) hc.members? (fun x hx => ?_) h).2 ha
  exact ⟨hc.lookup x, fun ha => ⟨x, hx, mem_authorities_lookup.1 ha⟩⟩

/-- An authority in the value of a tree built by hand comes from one of its names as well. -/
theorem exists_name_of_mem_authorities_evalTree (hc : c.Standard) {e : Expr} {v : Value H}
    (h : c.evalTree e = .ok v) (ha : a ∈ v.authorities) :
    ∃ x ∈ e.names, ∃ w, c.resolve x = some w ∧ a ∈ w.authorities := by
  rw [← Expr.names_addressAt [] e]
  exact exists_name_of_mem_authorities hc h ha

end Context

/-! ## Evaluations and batches -/

/-- What is done with a context: it evaluates a source text or a tree that was built by hand, or it
takes in a batch in one of these forms. -/
inductive Act where
  | evaluate (source : String)
  | evalTree (e : Expr)
  | run (source : String)
  | assign (as : List Assignment)

/-- The names that are mentioned. The names that a batch binds are not among them. -/
def Act.names : Act → List String
  | evaluate source => match readExpression source with
    | .ok e => e.names
    | .error _ => []
  | evalTree e => e.names
  | run source => match readBatch source with
    | .ok as => Expr.namesAll (as.map Assignment.value)
    | .error _ => []
  | assign as => Expr.namesAll (as.map Assignment.value)

namespace Context

/-- The values of all nodes of a tree: those that its evaluation comes across, and those of the
nodes that it leaves out. -/
def values (c : Context H) (e : Expr) : List (Value H) :=
  e.nodes.filterMap fun s => (c.eval s).toOption

/-- The values of all nodes in a batch, up to the first entry that fails. -/
def valuesAll (c : Context H) : List Assignment → List (Value H)
  | [] => []
  | a :: as => c.values a.value ++
    match c.assignOne a with
    | .ok d => d.valuesAll as
    | .error _ => []

/-- The context after an act, and the values that have been obtained. -/
def perform (c : Context H) : Act → Context H × List (Value H)
  | .evaluate source => (c, match readExpression source with
    | .ok e => c.values e
    | .error _ => [])
  | .evalTree e => (c, c.values e.addressed)
  | .run source => ((c.run source).1, match readBatch source with
    | .ok as => c.valuesAll as
    | .error _ => [])
  | .assign as => ((c.assign as).1, c.valuesAll as)

/-- The context after several acts, and all values that have been obtained. -/
def performAll (c : Context H) : List Act → Context H × List (Value H)
  | [] => (c, [])
  | act :: acts =>
    let (d, vs) := c.perform act
    let (d, ws) := d.performAll acts
    (d, vs ++ ws)

variable {c d : Context H} {a : Authority H}

/-- The values of a tree are those that its nodes have on their own. -/
theorem mem_values {e : Expr} {v : Value H} :
    v ∈ c.values e ↔ ∃ s ∈ e.nodes, c.eval s = .ok v := by
  have hok : ∀ s, (c.eval s).toOption = some v ↔ c.eval s = .ok v := fun s => by
    cases c.eval s <;> simp [Except.toOption]
  simp only [values, List.mem_filterMap, hok]

/-! ## An authority that is withheld -/

/-- The names stand for values without the authority. -/
def Clear (c : Context H) (a : Authority H) (xs : List String) : Prop :=
  ∀ x ∈ xs, ∀ w, c.resolve x = some w → a ∉ w.authorities

/-- Whatever holds the authority in the context `d` is bound to the same name in `c`. -/
structure Withholds (a : Authority H) (c d : Context H) : Prop where
  standard : d.Standard
  resolve : ∀ {x w}, d.resolve x = some w → a ∈ w.authorities → c.resolve x = some w

namespace Withholds

/-- A standard context binds the authority to no other names than it does itself. -/
theorem refl (hc : c.Standard) : Withholds a c c := ⟨hc, fun h _ => h⟩

/-- Trees that mention clear names only have values without the authority. -/
theorem not_mem_of_eval (hd : Withholds a c d) {e : Expr} (he : c.Clear a e.names) {v : Value H}
    (h : d.eval e = .ok v) : a ∉ v.authorities := by
  intro ha
  obtain ⟨x, hx, w, hw, ha⟩ := exists_name_of_mem_authorities hd.standard h ha
  exact he x hx w (hd.resolve hw ha) ha

/-- Trees that mention only clear names show the authority at none of their nodes. -/
theorem not_mem_values (hd : Withholds a c d) {e : Expr} (he : c.Clear a e.names) :
    ∀ v ∈ d.values e, a ∉ v.authorities := by
  intro v hv
  obtain ⟨s, hs, hv⟩ := mem_values.1 hv
  exact hd.not_mem_of_eval (fun x hx => he x (Expr.names_subset_of_mem_nodes hs hx)) hv

/-- An entry that mentions clear names only binds its name to a value without the authority. -/
theorem assignOne (hd : Withholds a c d) {b : Assignment} (hb : c.Clear a b.value.names)
    {d' : Context H} (h : d.assignOne b = .ok d') : Withholds a c d' where
  standard := hd.standard.assignOne h
  resolve {x w} hx ha := by
    obtain ⟨v, hv, rfl⟩ := assignOne_eq_ok_iff.1 h
    rw [resolve_bind] at hx
    split at hx
    · cases hx
      exact absurd ha (hd.not_mem_of_eval hb hv)
    · exact hd.resolve hx ha

/-- A batch that mentions only clear names shows the authority nowhere and binds no further name to
it. -/
theorem assign (hd : Withholds a c d) {bs : List Assignment}
    (hbs : c.Clear a (Expr.namesAll (bs.map Assignment.value))) :
    Withholds a c (d.assign bs).1 ∧ ∀ v ∈ d.valuesAll bs, a ∉ v.authorities := by
  induction bs generalizing d with
  | nil => exact ⟨hd, nofun⟩
  | cons b bs ih =>
    rw [List.map_cons, Expr.namesAll_cons, Clear, List.forall_mem_append] at hbs
    have hvalues := hd.not_mem_values hbs.1
    rw [Context.assign, valuesAll]
    cases h : d.assignOne b with
    | error f => exact ⟨hd, List.forall_mem_append.2 ⟨hvalues, List.forall_mem_nil _⟩⟩
    | ok d' =>
      obtain ⟨hd', hrest⟩ := ih (hd.assignOne hbs.1 h) hbs.2
      exact ⟨hd', List.forall_mem_append.2 ⟨hvalues, hrest⟩⟩

/-- An act that mentions clear names only obtains no value with the authority and binds none. -/
theorem perform (hd : Withholds a c d) {act : Act} (hact : c.Clear a act.names) :
    Withholds a c (d.perform act).1 ∧ ∀ v ∈ (d.perform act).2, a ∉ v.authorities := by
  cases act with
  | evaluate source =>
    rw [Act.names] at hact
    rw [Context.perform]
    refine ⟨hd, ?_⟩
    cases he : readExpression source with
    | error f => exact List.forall_mem_nil _
    | ok e =>
      rw [he] at hact
      exact hd.not_mem_values hact
  | evalTree e =>
    refine ⟨hd, hd.not_mem_values ?_⟩
    rw [Expr.addressed, Expr.names_addressAt]
    exact hact
  | run source =>
    rw [Act.names] at hact
    rw [Context.perform, Context.run]
    cases hbs : readBatch source with
    | error f => exact ⟨hd, List.forall_mem_nil _⟩
    | ok bs =>
      rw [hbs] at hact
      exact hd.assign hact
  | assign bs => exact hd.assign hact

/-- The same holds of any number of acts, one after the other. -/
theorem performAll (hd : Withholds a c d) {acts : List Act}
    (hacts : ∀ act ∈ acts, c.Clear a act.names) :
    Withholds a c (d.performAll acts).1 ∧ ∀ v ∈ (d.performAll acts).2, a ∉ v.authorities := by
  induction acts generalizing d with
  | nil => exact ⟨hd, List.forall_mem_nil _⟩
  | cons act acts ih =>
    rw [List.forall_mem_cons] at hacts
    obtain ⟨hd', hvalues⟩ := hd.perform hacts.1
    obtain ⟨hd'', hrest⟩ := ih hd' hacts.2
    exact ⟨hd'', List.forall_mem_append.2 ⟨hvalues, hrest⟩⟩

end Withholds

/-- In a standard context, every function and every object in the value of a tree or of one of its
nodes is in what some name of the tree is bound to. Whatever is done with the context, an authority
that is in the value of no name mentioned is not obtained, and no name is bound to it but those that
have been bound to it all along. -/
theorem no_ambient_authority (hc : c.Standard) :
    (∀ (e : Expr), ∀ s ∈ e.nodes, ∀ v, c.eval s = .ok v ∨ c.evalTree s = .ok v →
      ∀ a ∈ v.authorities, ∃ x ∈ e.names, ∃ w, c.resolve x = some w ∧ a ∈ w.authorities) ∧
    ∀ (a : Authority H) (acts : List Act), (∀ act ∈ acts, c.Clear a act.names) →
      (∀ v ∈ (c.performAll acts).2, a ∉ v.authorities) ∧
      ∀ x w, (c.performAll acts).1.resolve x = some w → a ∈ w.authorities →
        c.resolve x = some w := by
  refine ⟨fun e s hs v h a ha => ?_, fun a acts hacts => ?_⟩
  · have hx : ∃ x ∈ s.names, ∃ w, c.resolve x = some w ∧ a ∈ w.authorities := by
      rcases h with h | h
      · exact exists_name_of_mem_authorities hc h ha
      · exact exists_name_of_mem_authorities_evalTree hc h ha
    obtain ⟨x, hx, w⟩ := hx
    exact ⟨x, Expr.names_subset_of_mem_nodes hs hx, w⟩
  · obtain ⟨hd, hvalues⟩ := (Withholds.refl hc).performAll hacts
    exact ⟨hvalues, fun x w hx ha => hd.resolve hx ha⟩

/-- The entry `g = abs` and the expression `assert(g)` obtain the functions `abs` and `assert`,
which they mention. They do not obtain `min`, and no other name is bound to it afterwards. -/
theorem no_ambient_authority_assert :
    let c : Context Host.bare := (empty .bare).bindLibrary
    let abs : Value Host.bare := .function (.library .abs 0)
    let assert : Value Host.bare := .function (.library .assert 0)
    let e : Expr := .call (.var "assert" ⟨1, 0⟩) [.var "g" ⟨1, 7⟩] (.ofPosition ⟨1, 6⟩)
    let acts : List Act := [.assign [⟨"g", .var "abs" ⟨1, 2⟩, ⟨1, 0⟩⟩], .evalTree e]
    let min : Authority Host.bare := .function (.library .min 0)
    (c.performAll acts).2 = [abs, abs, assert, abs] ∧
    (∀ v ∈ (c.performAll acts).2, min ∉ v.authorities) ∧
    (∀ x w, (c.performAll acts).1.resolve x = some w → min ∈ w.authorities →
      c.resolve x = some w) ∧
    ∃ x ∈ e.names, ∃ w, (c.bind "g" abs).resolve x = some w ∧
      .function (.library .abs 0) ∈ w.authorities := by
  intro c abs assert e acts min
  have hc : c.Standard := standard_bare.bindLibrary
  have hclear : ∀ act ∈ acts, c.Clear min act.names := by
    have habs : c.resolve "abs" = some abs := rfl
    have hassert : c.resolve "assert" = some assert := rfl
    have hg : c.resolve "g" = none := rfl
    simp [acts, e, Clear, Act.names, habs, hassert, hg, abs, assert, min, Value.authorities]
  obtain ⟨hvalues, hbindings⟩ := (no_ambient_authority hc).2 min acts hclear
  refine ⟨rfl, hvalues, hbindings, ?_⟩
  have habs : abs.Standard := trivial
  have hvalue : (c.bind "g" abs).eval e = .ok abs := rfl
  exact (no_ambient_authority (hc.bind "g" habs)).1 e e e.mem_nodes_self abs (.inl hvalue) _
    List.mem_cons_self

end Context

end MapExpr
