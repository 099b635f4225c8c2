import MapExpr.Parse
import MapExpr.Registry

/-!
# Evaluating expressions

`Context.eval` is the value of an expression in a context, or the fault that is met first.
Operands are evaluated from left to right. The logical operators evaluate their right operand only
if the left one does not decide, and a conditional evaluates one of its branches.

Evaluation changes nothing; `Context.assign` evaluates the entries of a batch one after the other,
each in the context that the entries before it have left.
-/

namespace MapExpr

/-! ## Contexts

A context says what a name stands for. Looking a name up after it has been bound gives the value
it was bound to, and binding one name leaves all others alone.
-/

/-- What an expression is evaluated in. -/
structure Context (H : Host) where
  registry : Registry H
  /-- What a name is bound to. -/
  resolve : String → Option (Value H)
  /-- How many times the library has been bound. Functions of different times are not the same. -/
  registrations : Nat

namespace Context

variable {H : Host}

/-- The context without bindings. -/
def empty (registry : Registry H) : Context H := ⟨registry, fun _ => none, 0⟩

/-- Binds a name to a value; an earlier binding of the name is lost. -/
def bind (c : Context H) (name : String) (v : Value H) : Context H :=
  { c with resolve := fun n => if n = name then some v else c.resolve n }

/-- Takes a name out of the context. -/
def unbind (c : Context H) (name : String) : Context H :=
  { c with resolve := fun n => if n = name then none else c.resolve n }

/-- What a name stands for in an expression: a name that is not bound stands for `none`. -/
def lookup (c : Context H) (name : String) : Value H := (c.resolve name).getD .none

/-- Binds every function of the library under its name. -/
def bindLibrary (c : Context H) : Context H :=
  { c with
    resolve := fun n =>
      match LibraryFunction.ofName? n with
      | some f => some (.function (.library f c.registrations))
      | none => c.resolve n
    registrations := c.registrations + 1 }

/-! ### What the operations do to a name -/

/-- The name that is bound has its new value, and every other name the one it had. -/
theorem resolve_bind (c : Context H) (name n : String) (v : Value H) :
    (c.bind name v).resolve n = if n = name then some v else c.resolve n := rfl

@[simp] theorem resolve_bind_self (c : Context H) (name : String) (v : Value H) :
    (c.bind name v).resolve name = some v := by
  simp [resolve_bind]

/-- Binding a name leaves the other names alone. -/
theorem resolve_bind_of_ne (c : Context H) {name n : String} (v : Value H) (h : n ≠ name) :
    (c.bind name v).resolve n = c.resolve n := by
  simp [resolve_bind, h]

/-- The name that is taken out is unbound, and every other name is bound as before. -/
theorem resolve_unbind (c : Context H) (name n : String) :
    (c.unbind name).resolve n = if n = name then none else c.resolve n := rfl

/-- Of two bindings of one name the later one counts. -/
theorem bind_bind_self (c : Context H) (name : String) (v w : Value H) :
    (c.bind name v).bind name w = c.bind name w := by
  simp only [bind, mk.injEq, true_and, and_true]
  funext n
  split <;> rfl

/-- The order in which two different names are bound does not matter. -/
theorem bind_comm (c : Context H) {a b : String} (v w : Value H) (h : a ≠ b) :
    (c.bind a v).bind b w = (c.bind b w).bind a v := by
  simp only [bind, mk.injEq, true_and, and_true]
  funext n
  by_cases ha : n = a
  · have hb : n ≠ b := fun hb => h (ha.symm.trans hb)
    simp [ha, h]
  · simp [ha]

end Context

/-! ## Expressions and entries -/

/-- The value that a literal stands for. -/
def Literal.value {H : Host} : Literal → Value H
  | number x => .number x
  | string s => .string s
  | none => .none

namespace Context

variable {H : Host}

mutual

/-- The value of an expression. -/
def eval (c : Context H) : Expr → Evaluated (Value H)
  | .literal value _ => .ok value.value
  | .vector elements _ => do return .vector (← c.evalComponents elements)
  | .var name _ => .ok (c.lookup name)
  | .member object name p => do c.registry.access (← c.eval object) name p
  | .index object index p => do
    let xs ← (← c.eval object).asVector p
    let x ← (← c.eval index).asNumber index.position
    component xs (← Number.asIndex x p) p
  | .call callee arguments site => do
    match ← c.eval callee with
    | .function f => c.registry.apply f (← c.evalAll arguments) site
    | .bound m receiver => c.registry.invoke m receiver (← c.evalAll arguments) site
    | v => throw ⟨.notCallable v.typeName, site.position⟩
  | .unary op operand p => do op.apply (← c.eval operand) p
  | .binary op left right p => do
    let l ← c.eval left
    match op with
    | .and | .or => if op.leftDecides l then return l else c.eval right
    | op => op.apply l (← c.eval right) p
  | .conditional condition yes no _ => do
    if (← c.eval condition).isTrue then c.eval yes else c.eval no

/-- The values of expressions, from left to right. -/
def evalAll (c : Context H) : List Expr → Evaluated (List (Value H))
  | [] => .ok []
  | e :: es => do
    let v ← c.eval e
    let vs ← c.evalAll es
    return v :: vs

/-- The numbers that the components of a vector evaluate to, from left to right. -/
def evalComponents (c : Context H) : List Expr → Evaluated (List Float)
  | [] => .ok []
  | e :: es => do
    let x ← (← c.eval e).asNumber e.position
    let xs ← c.evalComponents es
    return x :: xs

end

/-- The value of a tree that was built by hand. Its calls may stand at one place, so each of them is
told how it is reached before the tree is evaluated. -/
def evalTree (c : Context H) (e : Expr) : Evaluated (Value H) := c.eval e.addressed

/-- Evaluates an entry and binds its name. -/
def assignOne (c : Context H) (a : Assignment) : Evaluated (Context H) := do
  return c.bind a.name (← c.eval a.value)

/-- Evaluates entries in order and binds their names. The first fault ends the batch; what has been
bound before it stays bound. -/
def assign (c : Context H) : List Assignment → Context H × Option (Located EvalFault)
  | [] => (c, none)
  | a :: as =>
    match c.assignOne a with
    | .ok c => c.assign as
    | .error e => (c, some e)

/-- A list of one expression has the list of its value. -/
theorem evalAll_singleton {c : Context H} {e : Expr} {v : Value H} (h : c.eval e = .ok v) :
    c.evalAll [e] = .ok [v] := by
  rw [evalAll, h]
  rfl

/-- A call of a library function runs it, if the arguments have values and there are as many of them
as the function takes. -/
theorem eval_call_library {c : Context H} {callee : Expr} {es : List Expr} {site : CallSite}
    {f : LibraryFunction} {registration : Nat} {vs : List (Value H)}
    (hf : c.eval callee = .ok (.function (.library f registration))) (hes : c.evalAll es = .ok vs)
    (hcount : f.arity.accepts vs.length) :
    c.eval (.call callee es site) = f.run vs site.position := by
  have happly : c.registry.apply (.library f registration) vs site = f.run vs site.position := by
    have hok : f.signature.admit vs.length site.position = .ok () := if_pos hcount
    rw [Registry.apply, Function.signature, hok]
    rfl
  rw [eval, hf, hes]
  exact happly

end Context

/-! ## Evaluating source texts

A source text is cut into tokens, parsed and evaluated, and each of the three may fail. `Fault` is
any of these failures; its message tells the place first.
-/

/-- Why a source text has no value. -/
inductive Fault where
  | lex (fault : LexFault)
  | parse (fault : ParseFault)
  | eval (fault : EvalFault)
deriving DecidableEq

/-- The wording of a fault. -/
def Fault.message : Fault → String
  | lex fault => fault.message
  | parse fault => fault.message
  | eval fault => fault.message

/-- A fault together with its place, as it is shown. -/
def Located.report (e : Located Fault) : String :=
  "Error at " ++ e.position.text ++ ": " ++ e.value.message

/-- The same thing in other words, at the same place. -/
def Located.map {α β : Type} (f : α → β) (a : Located α) : Located β := ⟨f a.value, a.position⟩

/-- The expression that a source text holds. -/
def readExpression (source : String) : Except (Located Fault) Expr := do
  let ts ← (tokenize .expression source).mapError (Located.map Fault.lex)
  (parseExpression ts).mapError (Located.map Fault.parse)

/-- The entries that a source text holds. -/
def readBatch (source : String) : Except (Located Fault) (List Assignment) := do
  let ts ← (tokenize .batch source).mapError (Located.map Fault.lex)
  (parseBatch ts).mapError (Located.map Fault.parse)

namespace Context

variable {H : Host}

/-- The value of a source text. -/
def evaluate (c : Context H) (source : String) : Except (Located Fault) (Value H) := do
  let e ← readExpression source
  (c.eval e).mapError (Located.map Fault.eval)

/-- Evaluates the entries of a source text and binds their names. A text that is no batch changes
nothing. -/
def run (c : Context H) (source : String) : Context H × Option (Located Fault) :=
  match readBatch source with
  | .error e => (c, some e)
  | .ok as =>
    let (c, fault) := c.assign as
    (c, fault.map (Located.map Fault.eval))

end Context

end MapExpr
