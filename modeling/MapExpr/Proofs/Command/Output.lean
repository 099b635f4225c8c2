import MapExpr.Command
import MapExpr.Proofs.Evaluation.Sequence

/-!
# What the command prints for a batch

The library carries out a batch as a whole. The command carries out one entry at a time, as a batch
of its own, then looks its name up and prints what it finds. The two end in one context and with one
fault, and there is a line for every entry that has been carried out (`printEach_eq`). A line shows
the value that its entry has given to the name, since it is printed before the next entry begins.

`PrintsBindings` says this of a source text, and `Command.run_prints_bindings` of the whole command.
-/

namespace MapExpr

namespace Context

variable {H : Host} {c : Context H} {a : Assignment} {as : List Assignment} {v : Value H}
  {source : String}

/-- The lines for names and the values that these have been given. -/
def transcript (qs : List (String × Value H)) : String :=
  String.join (qs.map fun q => q.1 ++ " = " ++ q.2.text ++ "\n")

@[simp] theorem transcript_nil : transcript ([] : List (String × Value H)) = "" := rfl

/-- The line for a name that has just been bound shows the value. -/
theorem transcript_cons (c : Context H) (x : String) (v : Value H) (qs : List (String × Value H)) :
    transcript ((x, v) :: qs) = (c.bind x v).line x ++ transcript qs := by
  rw [transcript, List.map_cons, String.join_cons, line, lookup, resolve_bind_self]
  rfl

/-! ## Entries one at a time -/

/-- An entry with a value is bound and told of, before the other entries are carried out. -/
theorem printEach_cons_of_eval (h : c.eval a.value = .ok v) (as : List Assignment) :
    c.printEach (a :: as) =
      (((c.bind a.name v).printEach as).1,
        (c.bind a.name v).line a.name ++ ((c.bind a.name v).printEach as).2.1,
        ((c.bind a.name v).printEach as).2.2) := by
  rw [printEach, assign_cons_of_eval h]
  rfl

/-- At an entry without a value nothing is printed and the command stops. -/
theorem printEach_cons_of_error {e : Located EvalFault} (h : c.eval a.value = .error e)
    (as : List Assignment) : c.printEach (a :: as) = (c, "", some e) := by
  rw [printEach, assign_cons_of_error h]

/-- Carried out one at a time, the entries have the effect of the batch, and each one that has been
carried out is printed. -/
theorem printEach_eq (c : Context H) (as : List Assignment) :
    ∃ vs, c.Course as vs (c.assign as).1 (c.assign as).2 ∧
      c.printEach as = ((c.assign as).1, transcript (bindings as vs), (c.assign as).2) := by
  induction as generalizing c with
  | nil => exact ⟨[], .nil c, rfl⟩
  | cons a as ih =>
    cases hv : c.eval a.value with
    | ok v =>
      obtain ⟨vs, hcourse, heach⟩ := ih (c.bind a.name v)
      rw [printEach_cons_of_eval hv, assign_cons_of_eval hv, heach]
      refine ⟨v :: vs, hcourse.cons hv, ?_⟩
      rw [bindings_cons, transcript_cons c]
    | error e =>
      rw [printEach_cons_of_error hv, assign_cons_of_error hv]
      exact ⟨[], .stop hv as, by rw [bindings_nil, transcript_nil]⟩

/-! ## A source text -/

/-- The command has the effect of the library on a source text, and its output tells of each entry
that has been carried out. -/
structure PrintsBindings (c : Context H) (source : String) : Prop where
  context : (c.printBatch source).1 = (c.run source).1
  failure : (c.printBatch source).2.2 = (c.run source).2.map Failure.failed
  /-- Nothing is printed and nothing is bound for a text that is no batch. -/
  unread : ∀ f, readBatch source = .error f →
    c.run source = (c, some f) ∧ (c.printBatch source).2.1 = ""
  /-- For a batch there is one line for each entry that is carried out, with the value that this
  entry has in its place. -/
  lines : ∀ as, readBatch source = .ok as → ∃ vs fault,
    c.Course as vs (c.run source).1 fault ∧
    (c.run source).2 = fault.map (Located.map Fault.eval) ∧
    (c.printBatch source).2.1 = transcript (bindings as vs)

/-- A text that is no batch changes nothing and prints nothing. -/
theorem printBatch_of_error {f : Located Fault} (h : readBatch source = .error f) :
    c.printBatch source = (c, "", some (.failed f)) := by
  rw [printBatch, h]

/-- A text that is a batch is carried out entry by entry. -/
theorem printBatch_of_readBatch (h : readBatch source = .ok as) :
    c.printBatch source = ((c.printEach as).1, (c.printEach as).2.1,
      (c.printEach as).2.2.map fun e => Failure.failed (e.map Fault.eval)) := by
  rw [printBatch, h]

/-- The command has the effect of the library on every source text. -/
theorem printsBindings (c : Context H) (source : String) : c.PrintsBindings source := by
  cases h : readBatch source with
  | error f =>
    have hrun : c.run source = (c, some f) := run_of_readBatch_error h
    have hprint : c.printBatch source = (c, "", some (.failed f)) := printBatch_of_error h
    refine ⟨by rw [hrun, hprint], by rw [hrun, hprint]; rfl, fun g hg => ?_, fun as has => ?_⟩
    · obtain rfl := Except.error.inj (h.symm.trans hg)
      exact ⟨hrun, by rw [hprint]⟩
    · cases h.symm.trans has
  | ok as =>
    obtain ⟨vs, hcourse, heach⟩ := c.printEach_eq as
    have hrun : c.run source = _ := run_of_readBatch h
    have hprint : c.printBatch source = _ := printBatch_of_readBatch h
    rw [heach] at hprint
    refine ⟨by rw [hrun, hprint], ?_, fun f hf => ?_, fun bs hbs => ?_⟩
    · rw [hrun, hprint, Option.map_map]
      rfl
    · cases h.symm.trans hf
    · obtain rfl := Except.ok.inj (h.symm.trans hbs)
      exact ⟨vs, (c.assign as).2, by rw [hrun]; exact hcourse, by rw [hrun], by rw [hprint]⟩

end Context

/-! ## The command -/

namespace Command

/-- In any context the command has the effect of the library on the text of a batch and prints one
line for each entry that is carried out, with the value that the entry itself has. A command for a
batch whose settings have been applied does this in the context that they leave, writes these lines
and nothing else to its output, and succeeds if and only if the library does. -/
theorem run_prints_bindings :
    (∀ {H : Host} (c : Context H) (source : String), c.PrintsBindings source) ∧
    ∀ (o : Options) (c : Context Host.bare) (source : String), o.isBatch = true →
      (start o).applySettings o.settings = (c, none) →
      run o (.ok source) = match (c.run source).2 with
        | none => ⟨0, (c.printBatch source).2.1, ""⟩
        | some f => ⟨1, (c.printBatch source).2.1, (Failure.failed f).report⟩ := by
  refine ⟨Context.printsBindings, fun o c source ho hc => ?_⟩
  have hprint : print o source = (c.printBatch source).2 := by
    rw [print, hc]
    exact if_pos ho
  have hfailure := (c.printsBindings source).failure
  rw [run]
  dsimp only
  rw [hprint, hfailure]
  cases (c.run source).2 <;> rfl

/-- The name `x` is printed twice, the second time with the text of `none`, and the third entry has
nothing to call. -/
theorem run_prints_bindings_stopped :
    let o : Options := ⟨false, true, true, ["s='a'"], "x=s;x=y;z=s();"⟩
    let c := (start o).bind "s" (.string "a")
    run o (.ok o.source) = ⟨1, "x = a\nx = \n",
      "Error: Error at line 1, offset 11: A value of type 'string' cannot be called.\n"⟩ ∧
    c.PrintsBindings o.source := by
  intro o c
  have hc : (start o).applySettings o.settings = (c, none) := by with_unfolding_all rfl
  have hfault : (c.run o.source).2 = some ⟨.eval (.notCallable .string), ⟨1, 11⟩⟩ := by
    decide +kernel
  have houtput : (c.printBatch o.source).2.1 = "x = a\nx = \n" := by decide +kernel
  refine ⟨?_, run_prints_bindings.1 c o.source⟩
  rw [run_prints_bindings.2 o c o.source rfl hc, hfault, houtput]
  rfl

end Command

end MapExpr
