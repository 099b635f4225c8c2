import MapExpr.Proofs.Safety.Arguments
import MapExpr.Proofs.Safety.Numbers
import MapExpr.Proofs.Safety.Parser
import MapExpr.Proofs.Safety.Scanner

/-!
# No run leads to a breach

The scanner, the parsers, the evaluation of a tree and the calls of functions and methods, taken
together. With all partial operations checked each of them has the outcome that it has without the
checks, and no argument is missing where one is read. Sources and sequences of tokens are those that
fit into memory; about trees, receivers and arguments nothing is assumed, and a context may hold all
that is not code of a host.
-/

namespace MapExpr

/-! ## Evaluation stays inside its words and ranges

`Context.evalChecked` is the evaluation of an expression in which indices, lengths and whole
numbers are cast with a check, ranges are looked at before a number is moved into them, and the
first of several numbers is taken by its index. What the functions and methods of a host do is not
part of it.

No such check fails, whatever the tree and the context (`Context.evalChecked_eq`). A function or a
method is called with as many arguments as it takes only, which a call looks at first; this is what
the checks of the functions rely on.
-/

section Evaluator

variable {H : Host}

/-! ### Functions and methods -/

namespace LibraryFunction

/-- The number of components of a vector, or of characters of a text. -/
def measureChecked (args : List (Value H)) (p : Position) : Checked (Value H) := do
  match ← .ofEvaluated (Arguments.get args 0 p) with
  | .vector xs => return .number (← Number.exactlyChecked xs.length p)
  | .string s => return .number (← Number.exactlyChecked s.length p)
  | v => throw ⟨.noLength v.typeName, p⟩

/-- Runs a function of the library. -/
def runChecked (f : LibraryFunction) (args : List (Value H)) (p : Position) :
    Checked (Value H) :=
  match f with
  | min => chooseChecked Number.least args p
  | max => chooseChecked Number.greatest args p
  | clamp => confineChecked args p
  | len => measureChecked args p
  | f => .ofEvaluated (f.run args p)

/-- Measuring a value leads to no breach. -/
theorem measureChecked_eq (args : List (Value H)) (p : Position) :
    measureChecked args p = .ofEvaluated (measure args p) := by
  simp only [measureChecked, measure, Checked.ofEvaluated_bind, Number.exactlyChecked_eq]
  refine bind_congr fun v => ?_
  cases v <;> simp only [Checked.ofEvaluated_bind] <;> rfl

/-- A function that accepts the number of its arguments leads to no breach. -/
theorem runChecked_eq (f : LibraryFunction) {args : List (Value H)}
    (h : f.arity.accepts args.length = true) (p : Position) :
    f.runChecked args p = .ofEvaluated (f.run args p) := by
  cases f with
  | min | max => exact chooseChecked_eq _ (of_decide_eq_true h) p
  | clamp => exact confineChecked_eq args p
  | len => exact measureChecked_eq args p
  | _ => rfl

end LibraryFunction

/-- Runs a method of strings. -/
def StringMethod.runChecked (m : StringMethod) (receiver : Value H) (args : List (Value H))
    (p : Position) : Checked (Value H) :=
  match m with
  | substr => do
    let s ← .ofEvaluated (receiver.asString p)
    let x ← .ofEvaluated (Arguments.number args 0 p)
    let start ← Number.asIndexChecked x p
    match args[1]? with
    | none => return .string (substring s start none)
    | some v =>
      let y ← .ofEvaluated (v.asNumber p)
      let count ← Number.asIndexChecked y p
      return .string (substring s start (some count))
  | m => .ofEvaluated (m.run receiver args p)

/-- A method of texts leads to no breach. -/
theorem StringMethod.runChecked_eq (m : StringMethod) (receiver : Value H)
    (args : List (Value H)) (p : Position) :
    m.runChecked receiver args p = .ofEvaluated (m.run receiver args p) := by
  cases m with
  | substr =>
    simp only [runChecked, run, Checked.ofEvaluated_bind, Number.asIndexChecked_eq]
    refine bind_congr fun s => bind_congr fun x => bind_congr fun start => ?_
    cases args[1]? with
    | none => rfl
    | some v =>
      simp only [Checked.ofEvaluated_bind]
      rfl
  | _ => rfl

/-- The value of an operator with one operand. -/
def UnaryOp.applyChecked (op : UnaryOp) (v : Value H) (p : Position) : Checked (Value H) :=
  match op with
  | complement => complementChecked v p
  | op => .ofEvaluated (op.apply v p)

/-- An operator on one operand leads to no breach. -/
theorem UnaryOp.applyChecked_eq (op : UnaryOp) (v : Value H) (p : Position) :
    op.applyChecked v p = .ofEvaluated (op.apply v p) := by
  cases op with
  | complement => exact complementChecked_eq v p
  | _ => rfl

namespace Registry

variable (r : Registry H)

/-- Runs a method on a receiver. -/
def invokeChecked (m : Method H) (receiver : Value H) (args : List (Value H)) (site : CallSite) :
    Checked (Value H) := do
  .ofEvaluated <| m.signature.admit args.length site.position
  match m with
  | .vector m => .ofEvaluated (m.run receiver args site.position)
  | .string m => m.runChecked receiver args site.position
  | .host m => .ofEvaluated (r.callMethod m receiver args site)

/-- Runs a function. -/
def applyChecked (f : Function H) (args : List (Value H)) (site : CallSite) :
    Checked (Value H) := do
  .ofEvaluated <| f.signature.admit args.length site.position
  match f with
  | .library f _ => f.runChecked args site.position
  | .host f => .ofEvaluated (r.callFunction f args site)

/-- What stands after a point. The length of a text and the number of components of a vector are
cast. -/
def accessChecked (v : Value H) (name : String) (p : Position) : Checked (Value H) :=
  match v, name with
  | .vector xs, "count" => do return .number (← Number.exactlyChecked xs.length p)
  | .string s, "length" => do return .number (← Number.exactlyChecked s.length p)
  | v, name => .ofEvaluated (r.access v name p)

/-- A method leads to no breach, since the number of arguments is looked at first. -/
theorem invokeChecked_eq (m : Method H) (receiver : Value H) (args : List (Value H))
    (site : CallSite) :
    r.invokeChecked m receiver args site = .ofEvaluated (r.invoke m receiver args site) := by
  unfold invokeChecked invoke
  rw [Checked.ofEvaluated_bind]
  refine bind_congr fun _ => ?_
  cases m with
  | string m => exact m.runChecked_eq receiver args site.position
  | _ => rfl

/-- The function runs only if the number of arguments is one that it takes. -/
theorem applyChecked_eq (f : Function H) (args : List (Value H)) (site : CallSite) :
    r.applyChecked f args site = .ofEvaluated (r.apply f args site) := by
  unfold applyChecked apply
  cases h : f.signature.admit args.length site.position with
  | error e => rfl
  | ok _ =>
    cases f with
    | library f n => exact f.runChecked_eq (accepts_of_admits h) site.position
    | host f => rfl

/-- A member access leads to no breach. -/
theorem accessChecked_eq (v : Value H) (name : String) (p : Position) :
    r.accessChecked v name p = .ofEvaluated (r.access v name p) := by
  unfold accessChecked
  split
  · next xs =>
    have hcount : r.access (.vector xs) "count" p
        = Number.exactly xs.length p >>= fun x => pure (.number x) := rfl
    rw [hcount, Checked.ofEvaluated_bind, Number.exactlyChecked_eq]
    rfl
  · next s =>
    have hlength : r.access (.string s) "length" p
        = Number.exactly s.length p >>= fun x => pure (.number x) := rfl
    rw [hlength, Checked.ofEvaluated_bind, Number.exactlyChecked_eq]
    rfl
  · rfl

end Registry

namespace Context

/-! ### Expressions -/

mutual

/-- The value of an expression. -/
def evalChecked (c : Context H) : Expr → Checked (Value H)
  | .literal value _ => return value.value
  | .vector elements _ => do return .vector (← c.evalComponentsChecked elements)
  | .var name _ => return c.lookup name
  | .member object name p => do c.registry.accessChecked (← c.evalChecked object) name p
  | .index object index p => do
    let xs ← .ofEvaluated ((← c.evalChecked object).asVector p)
    let x ← .ofEvaluated ((← c.evalChecked index).asNumber index.position)
    let i ← Number.asIndexChecked x p
    .ofEvaluated (component xs i p)
  | .call callee arguments site => do
    match ← c.evalChecked callee with
    | .function f => c.registry.applyChecked f (← c.evalAllChecked arguments) site
    | .bound m receiver =>
      c.registry.invokeChecked m receiver (← c.evalAllChecked arguments) site
    | v => throw ⟨.notCallable v.typeName, site.position⟩
  | .unary op operand p => do op.applyChecked (← c.evalChecked operand) p
  | .binary op left right p => do
    let l ← c.evalChecked left
    match op with
    | .and | .or => if op.leftDecides l then return l else c.evalChecked right
    | op => .ofEvaluated (op.apply l (← c.evalChecked right) p)
  | .conditional condition yes no _ => do
    if (← c.evalChecked condition).isTrue then c.evalChecked yes else c.evalChecked no

/-- The values of expressions, from left to right. -/
def evalAllChecked (c : Context H) : List Expr → Checked (List (Value H))
  | [] => return []
  | e :: es => do
    let v ← c.evalChecked e
    let vs ← c.evalAllChecked es
    return v :: vs

/-- The numbers that the components of a vector evaluate to, from left to right. -/
def evalComponentsChecked (c : Context H) : List Expr → Checked (List Float)
  | [] => return []
  | e :: es => do
    let x ← .ofEvaluated ((← c.evalChecked e).asNumber e.position)
    let xs ← c.evalComponentsChecked es
    return x :: xs

end

variable (c : Context H)

mutual

/-- An expression is evaluated without a breach. -/
theorem evalChecked_eq : (e : Expr) → c.evalChecked e = .ofEvaluated (c.eval e)
  | .literal _ _ => by
    rw [evalChecked, eval]
    rfl
  | .var _ _ => by
    rw [evalChecked, eval]
    rfl
  | .vector es _ => by
    rw [evalChecked, eval, evalComponentsChecked_eq es, Checked.ofEvaluated_bind]
    rfl
  | .member e x p => by
    rw [evalChecked, eval, evalChecked_eq e, Checked.ofEvaluated_bind]
    exact bind_congr fun v => c.registry.accessChecked_eq v x p
  | .index e i p => by
    simp only [evalChecked, eval, evalChecked_eq e, evalChecked_eq i, Checked.ofEvaluated_bind,
      Number.asIndexChecked_eq]
  | .call f as site => by
    rw [evalChecked, eval, evalChecked_eq f, Checked.ofEvaluated_bind]
    refine bind_congr fun v => ?_
    cases v with
    | function f =>
      dsimp only
      rw [evalAllChecked_eq as, Checked.ofEvaluated_bind]
      exact bind_congr fun args => c.registry.applyChecked_eq f args site
    | bound m v =>
      dsimp only
      rw [evalAllChecked_eq as, Checked.ofEvaluated_bind]
      exact bind_congr fun args => c.registry.invokeChecked_eq m v args site
    | none | number _ | vector _ | string _ | object _ => rfl
  | .unary op e p => by
    rw [evalChecked, eval, evalChecked_eq e, Checked.ofEvaluated_bind]
    exact bind_congr fun v => op.applyChecked_eq v p
  | .binary op l r p => by
    rw [evalChecked, eval, evalChecked_eq l, Checked.ofEvaluated_bind]
    refine bind_congr fun v => ?_
    have hr := evalChecked_eq r
    cases op with
    | and | or =>
      dsimp only
      rw [hr]
      split <;> rfl
    | _ =>
      dsimp only
      rw [hr, Checked.ofEvaluated_bind]
  | .conditional t y n _ => by
    rw [evalChecked, eval, evalChecked_eq t, Checked.ofEvaluated_bind]
    refine bind_congr fun v => ?_
    split
    · exact evalChecked_eq y
    · exact evalChecked_eq n

/-- Several expressions are evaluated without a breach. -/
theorem evalAllChecked_eq : (es : List Expr) → c.evalAllChecked es = .ofEvaluated (c.evalAll es)
  | [] => by
    rw [evalAllChecked, evalAll]
    rfl
  | e :: es => by
    simp only [evalAllChecked, evalAll, evalChecked_eq e, evalAllChecked_eq es,
      Checked.ofEvaluated_bind]
    rfl

/-- The components of a vector are evaluated without a breach. -/
theorem evalComponentsChecked_eq : (es : List Expr) →
    c.evalComponentsChecked es = .ofEvaluated (c.evalComponents es)
  | [] => by
    rw [evalComponentsChecked, evalComponents]
    rfl
  | e :: es => by
    simp only [evalComponentsChecked, evalComponents, evalChecked_eq e,
      evalComponentsChecked_eq es, Checked.ofEvaluated_bind]
    rfl

end

end Context

end Evaluator

/-! ## All parts together -/

section Program

/-- The run without checks has the outcome of the run with checks, in which there is no breach, and
it does not ask for an argument that was not given. -/
structure Unbroken {α : Type} (checked : Checked α) (run : Evaluated α) : Prop where
  checked_eq : checked = .ofEvaluated run
  supplied : Supplied run

variable {H : Host}

/-- In no run is there a breach: not where a source is cut into tokens, not where tokens are
parsed, not where a tree is evaluated in a standard context, and not where a function or a method of
the language is called, whatever it is called on and with. Once a number of arguments is accepted,
the function or the method itself runs without a breach. A tree that was built by hand is evaluated
as the tree `e.addressed`, which is one of the trees `e` here. -/
theorem Context.Standard.runs_without_breach {c : Context H} (hc : c.Standard) :
    (∀ (form : Form) (source : String), byteLength source.toList ≤ Word.maxExtent →
      tokenizeChecked form source = .ok (tokenize form source)) ∧
    (∀ ts : List (Located Token), ts.length ≤ Word.maxExtent →
      parseExpressionChecked ts = .ok (parseExpression ts) ∧
      parseBatchChecked ts = .ok (parseBatch ts)) ∧
    (∀ e : Expr, Unbroken (c.evalChecked e) (c.eval e)) ∧
    (∀ (r : Registry H) (f : Function H) (args : List (Value H)) (site : CallSite), f.Standard →
      Unbroken (r.applyChecked f args site) (r.apply f args site)) ∧
    (∀ (r : Registry H) (m : Method H) (v : Value H) (args : List (Value H)) (site : CallSite),
      m.Standard → Unbroken (r.invokeChecked m v args site) (r.invoke m v args site)) ∧
    (∀ (f : LibraryFunction) (args : List (Value H)) (p : Position),
      f.arity.accepts args.length = true → Unbroken (f.runChecked args p) (f.run args p)) ∧
    (∀ (m : VectorMethod) (v : Value H) (args : List (Value H)) (p : Position),
      m.signature.arity.accepts args.length = true → Supplied (m.run v args p)) ∧
    (∀ (m : StringMethod) (v : Value H) (args : List (Value H)) (p : Position),
      m.signature.arity.accepts args.length = true →
      Unbroken (m.runChecked v args p) (m.run v args p)) := by
  refine ⟨fun form source h => tokenizeChecked_eq h form, fun ts h => ?_, fun e => ?_,
    fun r f args site hf => ?_, fun r m v args site hm => ?_, fun f args p h => ?_,
    fun m v args p h => m.run_supplied v h, fun m v args p h => ?_⟩
  · exact ⟨parseExpressionChecked_eq h, parseBatchChecked_eq h⟩
  · exact ⟨c.evalChecked_eq e, eval_supplied hc e⟩
  · exact ⟨r.applyChecked_eq f args site, Registry.apply_supplied hf args site⟩
  · exact ⟨r.invokeChecked_eq m v args site, Registry.invoke_supplied hm v args site⟩
  · exact ⟨f.runChecked_eq h p, f.run_supplied h⟩
  · exact ⟨m.runChecked_eq v args p, m.run_supplied v h⟩

/-- A string that is not closed, a sum without its right operand, `min()`, and functions and methods
that are called on what they are not made for. -/
theorem Context.library_runs_without_breach :
    let c : Context Host.bare := (empty .bare).bindLibrary
    let ts : List (Located Token) := [⟨.identifier "x", ⟨1, 0⟩⟩, ⟨.symbol .plus, ⟨1, 2⟩⟩]
    let e : Expr := .call (.var "min" ⟨1, 0⟩) [] (.ofPosition ⟨1, 3⟩)
    let site : CallSite := .ofPosition .start
    c.Standard ∧
    tokenizeChecked .expression "'é" = .ok (tokenize .expression "'é") ∧
    parseExpressionChecked ts = .ok (parseExpression ts) ∧
    Unbroken (c.evalChecked e) (.error ⟨.argumentCount "min" (.atLeast 1) 0, ⟨1, 3⟩⟩) ∧
    Unbroken (c.registry.applyChecked (.library .clamp 0) [.number 1, .none, .none] site)
      (.error ⟨.expectedNumber .none, .start⟩) ∧
    Unbroken (c.registry.invokeChecked (.string .substr) .none [.number 1] site)
      (.error ⟨.expectedString .none, .start⟩) ∧
    Unbroken (LibraryFunction.max.runChecked ([.none] : List (Value Host.bare)) .start)
      (.error ⟨.expectedNumber .none, .start⟩) ∧
    Supplied (VectorMethod.dot.run (.vector [] : Value Host.bare) [.none] .start) ∧
    Unbroken (StringMethod.contains.runChecked (.string "a" : Value Host.bare) [.none] .start)
      (.error ⟨.expectedString .none, .start⟩) := by
  intro c ts e site
  have hc : c.Standard := standard_bare.bindLibrary
  obtain ⟨htokens, hparse, heval, hcall, hinvoke, hfunction, hvector, hstring⟩ :=
    Standard.runs_without_breach hc
  have hfit : byteLength "'é".toList ≤ Word.maxExtent := by decide
  exact ⟨hc, htokens .expression "'é" hfit, (hparse ts (by decide)).1, heval e,
    hcall c.registry (.library .clamp 0) _ site trivial,
    hinvoke c.registry (.string .substr) .none _ site trivial, hfunction .max [.none] .start rfl,
    hvector .dot _ [.none] .start rfl, hstring .contains _ [.none] .start rfl⟩

end Program

end MapExpr
