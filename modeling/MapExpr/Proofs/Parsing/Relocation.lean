import MapExpr.Proofs.Parsing.Moves
import MapExpr.Proofs.Printing.Surface
import MapExpr.Proofs.Tree

/-!
# Parsing moves with its tokens

The parser carries places along and never looks at them: if all tokens are moved, then the same
rules fit, the same tokens are refused, and the tree or the fault in the end is the moved one
(`parseExpression_movesAlong`, `parseBatch_movesAlong`). The only place that the parser makes up is
the start, at which it reports that there are no tokens at all.
-/

namespace MapExpr

/-! ## Moving tokens and trees

A map of places moves a token to another place, and a tree with all its nodes. A tree without its
places is a tree that has been moved to the start (`erase_eq_relocate`).
-/

/-- The same thing at another place. -/
def Located.relocate {α : Type} (f : Position → Position) (a : Located α) : Located α :=
  ⟨a.value, f a.position⟩

namespace Expr

mutual

/-- The tree with all its nodes moved. -/
def relocate (f : Position → Position) : Expr → Expr
  | literal v p => literal v (f p)
  | vector es p => vector (relocateAll f es) (f p)
  | var x p => var x (f p)
  | member o x p => member (o.relocate f) x (f p)
  | index o i p => index (o.relocate f) (i.relocate f) (f p)
  | call g as site => call (g.relocate f) (relocateAll f as) (.ofPosition (f site.position))
  | unary op e p => unary op (e.relocate f) (f p)
  | binary op l r p => binary op (l.relocate f) (r.relocate f) (f p)
  | conditional c y n p => conditional (c.relocate f) (y.relocate f) (n.relocate f) (f p)

@[inherit_doc relocate]
def relocateAll (f : Position → Position) : List Expr → List Expr
  | [] => []
  | e :: es => e.relocate f :: relocateAll f es

end

variable {f : Position → Position}

/-- Several trees are moved one by one. -/
theorem relocateAll_eq_map (es : List Expr) : relocateAll f es = es.map (relocate f) := by
  induction es with
  | nil => rfl
  | cons e es ih => exact congrArg (e.relocate f :: ·) ih

/-- The place of a moved tree is the moved place. -/
theorem position_relocate (e : Expr) : (e.relocate f).position = f e.position := by
  cases e <;> rfl

mutual

/-- The places of a moved tree are its places, moved. -/
theorem positions_relocate : (e : Expr) → (e.relocate f).positions = e.positions.map f
  | literal _ _ | var _ _ => rfl
  | vector es p => by
    rw [relocate, positions_vector, positions_vector, List.map_cons, positionsAll_relocateAll es]
  | member e x p => by
    rw [relocate, positions_member, positions_member, List.map_cons, positions_relocate e]
  | index e i p => by
    rw [relocate, positions_index, positions_index, List.map_cons, List.map_append,
      positions_relocate e, positions_relocate i]
  | call g as site => by
    rw [relocate, positions_call, positions_call, List.map_cons, List.map_append,
      positions_relocate g, positionsAll_relocateAll as]
    rfl
  | unary op e p => by
    rw [relocate, positions_unary, positions_unary, List.map_cons, positions_relocate e]
  | binary op l r p => by
    rw [relocate, positions_binary, positions_binary, List.map_cons, List.map_append,
      positions_relocate l, positions_relocate r]
  | conditional c y n p => by
    rw [relocate, positions_conditional, positions_conditional, List.map_cons, List.map_append,
      List.map_append, positions_relocate c, positions_relocate y, positions_relocate n]

/-- The places of moved trees are their places, moved. -/
theorem positionsAll_relocateAll : (es : List Expr) →
    positionsAll (relocateAll f es) = (positionsAll es).map f
  | [] => rfl
  | e :: es => by
    rw [relocateAll, positionsAll_cons, positionsAll_cons, List.map_append, positions_relocate e,
      positionsAll_relocateAll es]

end

mutual

/-- A tree without its places has been moved to the start. -/
theorem erase_eq_relocate : (e : Expr) → e.erase = e.relocate fun _ => .start
  | literal _ _ | var _ _ => rfl
  | vector es _ => by rw [erase, relocate, eraseAll_eq_relocateAll es]
  | member e _ _ => by rw [erase, relocate, erase_eq_relocate e]
  | index e i _ => by rw [erase, relocate, erase_eq_relocate e, erase_eq_relocate i]
  | call g as _ => by rw [erase, relocate, erase_eq_relocate g, eraseAll_eq_relocateAll as]
  | unary _ e _ => by rw [erase, relocate, erase_eq_relocate e]
  | binary _ l r _ => by rw [erase, relocate, erase_eq_relocate l, erase_eq_relocate r]
  | conditional c y n _ => by
    rw [erase, relocate, erase_eq_relocate c, erase_eq_relocate y, erase_eq_relocate n]

/-- Erasing the places of several trees moves them to the start. -/
theorem eraseAll_eq_relocateAll : (es : List Expr) →
    eraseAll es = relocateAll (fun _ => .start) es
  | [] => rfl
  | e :: es => by rw [eraseAll, relocateAll, erase_eq_relocate e, eraseAll_eq_relocateAll es]

end

end Expr

/-- The entry with its name and its value moved. -/
def Assignment.relocate (f : Position → Position) (a : Assignment) : Assignment :=
  ⟨a.name, a.value.relocate f, f a.position⟩

/-! ## Moving the pieces of a stack -/

section Relocation

variable {f : Position → Position}

/-- Trees are moved in any order. -/
theorem Expr.relocateAll_reverse (es : List Expr) :
    relocateAll f es.reverse = (relocateAll f es).reverse := by
  rw [relocateAll_eq_map, relocateAll_eq_map, List.map_reverse]

/-- Only a variable is moved to a variable. -/
theorem Expr.relocate_eq_var {e : Expr} {x : String} {p : Position} :
    e.relocate f = .var x p ↔ ∃ q, e = .var x q ∧ f q = p := by
  cases e <;> simp [relocate]

/-- The piece with all its places moved. -/
def Item.relocate (f : Position → Position) : Item → Item
  | token t p => token t (f p)
  | expr e => expr (e.relocate f)
  | list es p => list (Expr.relocateAll f es) (f p)
  | unary op p => unary op (f p)
  | binary op p => binary op (f p)
  | entries as => entries (as.map (Assignment.relocate f))

/-- The stack with all its pieces moved. -/
def Stack.relocate (f : Position → Position) (s : Stack) : Stack := s.map (Item.relocate f)

/-- The piece `j` is the piece `i` with its places moved. -/
inductive Item.Moved (f : Position → Position) : Item → Item → Prop
  | token {t : Token} {p : Position} : Moved f (token t p) (token t (f p))
  | expr {e e' : Expr} (h : e.relocate f = e') : Moved f (expr e) (expr e')
  | list {es : List Expr} {p : Position} : Moved f (list es p) (list (Expr.relocateAll f es) (f p))
  | unary {op : UnaryOp} {p : Position} : Moved f (unary op p) (unary op (f p))
  | binary {op : BinaryOp} {p : Position} : Moved f (binary op p) (binary op (f p))
  | entries {as : List Assignment} :
      Moved f (entries as) (entries (as.map (Assignment.relocate f)))

/-- Moving a piece gives one that has been moved. -/
theorem Item.moved_relocate (i : Item) : i.Moved f (i.relocate f) := by
  cases i with
  | token => exact .token
  | expr => exact .expr rfl
  | list => exact .list
  | unary => exact .unary
  | binary => exact .binary
  | entries => exact .entries

namespace Stack

/-- The second stack is the first one with its pieces moved. -/
inductive Moved (f : Position → Position) : Stack → Stack → Prop
  | nil : Moved f [] []
  | cons {i j : Item} {s r : Stack} (hi : i.Moved f j) (hs : Moved f s r) :
    Moved f (i :: s) (j :: r)

/-- Moving a stack gives one that has been moved. -/
theorem moved_relocate (s : Stack) : Moved f s (s.relocate f) := by
  induction s with
  | nil => exact .nil
  | cons i s ih => exact .cons i.moved_relocate ih

/-- A moved expression is an expression. -/
theorem Moved.topIsExpr {s r : Stack} (h : Moved f s r) : r.topIsExpr = s.topIsExpr := by
  rcases h with _ | ⟨⟨⟩, -⟩ <;> rfl

/-! ### Questions about a moved stack -/

/-- What the parser asks about the last piece of a stack has the same answer wherever the piece
stands, and a closing bracket there is refused where it stands. -/
structure TopMoves (f : Position → Position) (s : Stack) : Prop where
  topIsExpr : (s.relocate f).topIsExpr = s.topIsExpr
  topIsDot : (s.relocate f).topIsDot = s.topIsDot
  canClose : (s.relocate f).canClose = s.canClose
  canSeparate : (s.relocate f).canSeparate = s.canSeparate
  checkClosed : checkClosed (s.relocate f)
    = ((checkClosed s).map (Stack.relocate f)).mapError (Located.relocate f)

/-- The last piece of every stack is asked with the same answers. -/
theorem topMoves (f : Position → Position) (s : Stack) : s.TopMoves f := by
  rcases s with _ | ⟨⟨t, p⟩ | _ | _ | _ | _ | _, s⟩
  case cons.token =>
    cases t with
    | symbol b => cases b <;> exact ⟨rfl, rfl, rfl, rfl, rfl⟩
    | _ => exact ⟨rfl, rfl, rfl, rfl, rfl⟩
  all_goals exact ⟨rfl, rfl, rfl, rfl, rfl⟩

/-- An opener that waits for its closer does so wherever it stands. -/
theorem hasPending_relocate (opener closer : Token) (closed : Nat) (s : Stack) :
    (s.relocate f).hasPending opener closer closed = s.hasPending opener closer closed := by
  induction s generalizing closed with
  | nil => rfl
  | cons i s ih =>
    cases i with
    | token t p =>
      show hasPending opener closer closed (.token t (f p) :: Stack.relocate f s) = _
      simp only [hasPending, ih]
    | expr _ | list _ _ | unary _ _ | binary _ _ | entries _ => exact ih closed

/-- An entry that waits for its semicolon does so wherever it stands. -/
theorem hasPendingEntry_relocate (s : Stack) :
    (s.relocate f).hasPendingEntry = s.hasPendingEntry := by
  rcases s with _ | ⟨_ | e | _ | _ | _ | _, _ | ⟨⟨t, p⟩ | _ | _ | _ | _ | _, s⟩⟩
  case cons.expr.cons.token =>
    cases t with
    | symbol b => cases b <;> rfl
    | _ => rfl
  all_goals rfl

/-- A target is refused for what it is, not for where it stands. -/
theorem targetRefusal?_relocate (s : Stack) : (s.relocate f).targetRefusal? = s.targetRefusal? := by
  rcases s with _ | ⟨_ | e | _ | _ | _ | _, _ | ⟨j, s⟩⟩
  case cons.expr.nil => cases e <;> rfl
  case cons.expr.cons => cases e <;> cases j <;> rfl
  all_goals rfl

/-- A token is refused for what it is, not for where it stands. -/
theorem refusal?_relocate (form : Form) (s : Stack) (t : Token) :
    (s.relocate f).refusal? form t = s.refusal? form t := by
  have hjoin : (s.relocate f).joinRefusal? form t = s.joinRefusal? form t := by
    unfold joinRefusal?
    simp only [(topMoves f s).canSeparate, (topMoves f s).canClose, hasPending_relocate,
      hasPendingEntry_relocate, targetRefusal?_relocate]
  unfold refusal?
  rw [(topMoves f s).topIsDot, (topMoves f s).topIsExpr, hjoin]

end Stack

open Stack

/-! ### Rules -/

variable {form : Form} {next : Option Token}

/-- A rule makes of the moved pieces what it makes of the pieces, moved. -/
theorem Rule.relocate {s t : Stack} (h : Rule form next s t) :
    Rule form next (s.relocate f) (t.relocate f) := by
  cases h with
  | member => exact .member
  | @var x p s h =>
    refine .var fun q e r hs => ?_
    have hm := Stack.moved_relocate s (f := f)
    rw [show Stack.relocate f s = _ from hs] at hm
    obtain _ | ⟨⟨⟩, _ | ⟨⟨⟩, -⟩⟩ := hm
    exact h _ _ _ rfl
  | emptyCall => exact .emptyCall
  | callOne => exact .callOne
  | @call callee as p q r s =>
    have has := Expr.relocateAll_reverse (f := f) as
    simp only [Stack.relocate, List.map_cons, Item.relocate, Expr.relocate, has]
    exact .call
  | group h => exact .group ((topMoves f _).topIsExpr.trans h)
  | index => exact .index
  | emptyVector h => exact .emptyVector ((topMoves f _).topIsExpr.trans h)
  | vectorOne h => exact .vectorOne ((topMoves f _).topIsExpr.trans h)
  | @vector es p q r s h =>
    have hes := Expr.relocateAll_reverse (f := f) es
    simp only [Stack.relocate, List.map_cons, Item.relocate, Expr.relocate, hes]
    exact .vector ((topMoves f _).topIsExpr.trans h)
  | unary h => exact .unary h
  | binary h => exact .binary h
  | question h => exact .question h
  | ifElse h => exact .ifElse h
  | @pair first last p s h =>
    have hp := first.position_relocate (f := f)
    simp only [Stack.relocate, List.map_cons, Item.relocate, Expr.relocateAll, ← hp]
    exact .pair h
  | list h => exact .list h
  | entry h => exact .entry h
  | join h =>
    simp only [Stack.relocate, List.map_cons, Item.relocate, List.map_append]
    exact .join h

/-- A rule that fits the moved pieces fits the pieces. -/
theorem Rule.of_moved {s r u : Stack} (hm : Stack.Moved f s r) (h : Rule form next r u) :
    ∃ t, Rule form next s t := by
  cases h with
  | member =>
    obtain _ | ⟨⟨⟩, _ | ⟨⟨⟩, _ | ⟨⟨⟩, -⟩⟩⟩ := hm
    exact ⟨_, .member⟩
  | var h =>
    obtain _ | ⟨⟨⟩, hm⟩ := hm
    refine ⟨_, .var ?_⟩
    rintro _ _ _ rfl
    obtain _ | ⟨⟨⟩, _ | ⟨⟨⟩, -⟩⟩ := hm
    exact h _ _ _ rfl
  | emptyCall =>
    obtain _ | ⟨⟨⟩, _ | ⟨⟨⟩, _ | ⟨⟨⟩, -⟩⟩⟩ := hm
    exact ⟨_, .emptyCall⟩
  | callOne =>
    obtain _ | ⟨⟨⟩, _ | ⟨⟨⟩, _ | ⟨⟨⟩, _ | ⟨⟨⟩, -⟩⟩⟩⟩ := hm
    exact ⟨_, .callOne⟩
  | call =>
    obtain _ | ⟨⟨⟩, _ | ⟨⟨⟩, _ | ⟨⟨⟩, _ | ⟨⟨⟩, -⟩⟩⟩⟩ := hm
    exact ⟨_, .call⟩
  | group h =>
    obtain _ | ⟨⟨⟩, _ | ⟨⟨⟩, _ | ⟨⟨⟩, hm⟩⟩⟩ := hm
    exact ⟨_, .group (hm.topIsExpr.symm.trans h)⟩
  | index =>
    obtain _ | ⟨⟨⟩, _ | ⟨⟨⟩, _ | ⟨⟨⟩, _ | ⟨⟨⟩, -⟩⟩⟩⟩ := hm
    exact ⟨_, .index⟩
  | emptyVector h =>
    obtain _ | ⟨⟨⟩, _ | ⟨⟨⟩, hm⟩⟩ := hm
    exact ⟨_, .emptyVector (hm.topIsExpr.symm.trans h)⟩
  | vectorOne h =>
    obtain _ | ⟨⟨⟩, _ | ⟨⟨⟩, _ | ⟨⟨⟩, hm⟩⟩⟩ := hm
    exact ⟨_, .vectorOne (hm.topIsExpr.symm.trans h)⟩
  | vector h =>
    obtain _ | ⟨⟨⟩, _ | ⟨⟨⟩, _ | ⟨⟨⟩, hm⟩⟩⟩ := hm
    exact ⟨_, .vector (hm.topIsExpr.symm.trans h)⟩
  | unary h =>
    obtain _ | ⟨⟨⟩, _ | ⟨⟨⟩, -⟩⟩ := hm
    exact ⟨_, .unary h⟩
  | binary h =>
    obtain _ | ⟨⟨⟩, _ | ⟨⟨⟩, _ | ⟨⟨⟩, -⟩⟩⟩ := hm
    exact ⟨_, .binary h⟩
  | question h =>
    obtain _ | ⟨⟨⟩, _ | ⟨⟨⟩, _ | ⟨⟨⟩, _ | ⟨⟨⟩, _ | ⟨⟨⟩, -⟩⟩⟩⟩⟩ := hm
    exact ⟨_, .question h⟩
  | ifElse h =>
    obtain _ | ⟨⟨⟩, _ | ⟨⟨⟩, _ | ⟨⟨⟩, _ | ⟨⟨⟩, _ | ⟨⟨⟩, -⟩⟩⟩⟩⟩ := hm
    exact ⟨_, .ifElse h⟩
  | pair h =>
    obtain _ | ⟨⟨⟩, _ | ⟨⟨⟩, _ | ⟨⟨⟩, -⟩⟩⟩ := hm
    exact ⟨_, .pair h⟩
  | list h =>
    obtain _ | ⟨⟨⟩, _ | ⟨⟨⟩, _ | ⟨⟨⟩, -⟩⟩⟩ := hm
    exact ⟨_, .list h⟩
  | entry h =>
    obtain _ | ⟨⟨⟩, _ | ⟨⟨⟩, _ | ⟨⟨⟩, _ | ⟨_ | htarget, -⟩⟩⟩⟩ := hm
    obtain ⟨p, rfl, -⟩ := Expr.relocate_eq_var.1 htarget
    exact ⟨_, .entry h⟩
  | join h =>
    obtain _ | ⟨⟨⟩, _ | ⟨⟨⟩, -⟩⟩ := hm
    exact ⟨_, .join h⟩

/-- The rule that fits is the same wherever the pieces stand. -/
theorem reduceOnce_relocate (s : Stack) :
    reduceOnce form next (s.relocate f) = (reduceOnce form next s).map (Stack.relocate f) := by
  cases h : reduceOnce form next s with
  | some t => exact (rule_of_reduceOnce h).relocate.reduceOnce_eq
  | none =>
    refine reduceOnce_eq_none_iff.2 fun u hu => ?_
    obtain ⟨t, ht⟩ := hu.of_moved (Stack.moved_relocate s)
    exact reduceOnce_eq_none_iff.1 h t ht

/-- All rules that fit are applied to a moved stack as to the stack itself. -/
theorem reduce_relocate (s : Stack) :
    reduce form next (s.relocate f) = (reduce form next s).relocate f := by
  have hstep (s : Stack) : reduceOnce form next (s.relocate f) = _ := reduceOnce_relocate s
  fun_induction reduce form next s with
  | case1 s t h ih =>
    rw [Stack.reduce_of_reduceOnce (t := t.relocate f), ih]
    rw [hstep, h]
    rfl
  | case2 s h =>
    rw [Stack.reduce_of_eq_none]
    rw [hstep, h]
    rfl

/-! ### Runs -/

/-- A moved token becomes the moved piece. -/
theorem Item.ofToken_relocate (s : Stack) (t : Token) (p : Position) :
    Item.ofToken (s.relocate f) t (f p) = (Item.ofToken s t p).relocate f := by
  unfold Item.ofToken
  rw [(topMoves f s).topIsExpr]
  split
  · rfl
  · rfl
  · rfl
  · rfl
  · split <;> rfl
  · cases t.binaryOp? <;> rfl

namespace Stack

/-- A moved token is put on a moved stack, or refused at its place. -/
theorem shift_relocate (s : Stack) (t : Located Token) :
    (s.relocate f).shift form (t.relocate f)
      = ((s.shift form t).map (Stack.relocate f)).mapError (Located.relocate f) := by
  unfold shift
  rw [show (t.relocate f).value = t.value from rfl, refusal?_relocate]
  cases s.refusal? form t.value with
  | some fault => rfl
  | none => exact congrArg (fun i => Except.ok (i :: s.relocate f)) (Item.ofToken_relocate s _ _)

/-- A step moves with its stack and its token. -/
theorem step_relocate (s : Stack) (t : Located Token) (next : Option Token) :
    (s.relocate f).step form (t.relocate f) next
      = ((s.step form t next).map (Stack.relocate f)).mapError (Located.relocate f) := by
  unfold step
  rw [shift_relocate]
  cases s.shift form t with
  | error e => rfl
  | ok s =>
    show checkClosed (reduce form next (s.relocate f)) = _
    rw [reduce_relocate, (topMoves f _).checkClosed]

/-- A run moves with its stack and its tokens. -/
theorem run_relocate (s : Stack) (ts : List (Located Token)) :
    (s.relocate f).run form (ts.map (Located.relocate f))
      = ((s.run form ts).map (Stack.relocate f)).mapError (Located.relocate f) := by
  induction ts generalizing s with
  | nil => rfl
  | cons t ts ih =>
    have hnext : (ts.map (Located.relocate f)).head?.map Located.value
        = ts.head?.map Located.value := by cases ts <;> rfl
    rw [List.map_cons, run, run, hnext, step_relocate]
    cases s.step form t (ts.head?.map Located.value) with
    | error e => rfl
    | ok s => exact ih s

/-- The place that is left over moves with the stack. -/
theorem leftover?_relocate (s : Stack) : (s.relocate f).leftover? = s.leftover?.map f := by
  have hexpr : (fun i : Item => !i.isExpr) ∘ Item.relocate f = fun i => !i.isExpr := by
    funext i
    cases i <;> rfl
  have hposition : Item.position? ∘ Item.relocate f = Option.map f ∘ Item.position? := by
    funext i
    cases i with
    | expr e => exact congrArg some e.position_relocate
    | entries as =>
      simp only [Function.comp_apply, Item.relocate, Item.position?, List.getLast?_map,
        Option.map_map]
      rfl
    | _ => rfl
  rw [leftover?, leftover?, Stack.relocate, ← List.map_reverse, List.filter_map, hexpr,
    List.findSome?_map, hposition, List.map_findSome?]

/-- The place at which tokens end too early moves along, unless there are no tokens. -/
theorem endPosition_relocate (s : Stack) {ts : List (Located Token)}
    (h : f .start = .start ∨ ts ≠ []) :
    (s.relocate f).endPosition (ts.map (Located.relocate f)) = f (s.endPosition ts) := by
  unfold endPosition
  rw [leftover?_relocate, List.getLast?_map]
  cases s.leftover? with
  | some p => rfl
  | none =>
    cases hl : ts.getLast? with
    | some t => rfl
    | none =>
      rcases h with h | h
      · exact h.symm
      · exact absurd (List.getLast?_eq_none_iff.1 hl) h

end Stack

/-! ### The parsers -/

/-- If all tokens are moved, then what the parser makes of them moves with them, or else the fault
does. Only the beginning, which is reported if there are no tokens, has to stay. -/
def MovesAlong {α : Type} (move : (Position → Position) → α → α)
    (parse : List (Located Token) → Except (Located ParseFault) α) : Prop :=
  ∀ (f : Position → Position) (ts : List (Located Token)), f .start = .start ∨ ts ≠ [] →
    parse (ts.map (Located.relocate f)) = ((parse ts).map (move f)).mapError (Located.relocate f)

/-- The parser of expressions moves along with its tokens. -/
theorem parseExpression_movesAlong : MovesAlong Expr.relocate parseExpression := by
  intro f ts h
  have hrun : Stack.run .expression [] (ts.map (Located.relocate f)) = _ := Stack.run_relocate [] ts
  unfold parseExpression
  rw [hrun]
  cases Stack.run .expression [] ts with
  | error e => rfl
  | ok s =>
    have hfault := congrArg (fun p : Position => (.error ⟨.invalidExpression, p⟩ :
      Except (Located ParseFault) Expr)) (Stack.endPosition_relocate s h)
    rcases s with _ | ⟨_ | e | _ | _ | _ | _, _ | ⟨j, s⟩⟩
    case cons.expr.nil => rfl
    all_goals exact hfault

/-- The parser of batches moves along with its tokens. -/
theorem parseBatch_movesAlong :
    MovesAlong (fun f => List.map (Assignment.relocate f)) parseBatch := by
  intro f ts h
  have hrun : Stack.run .batch [] (ts.map (Located.relocate f)) = _ := Stack.run_relocate [] ts
  unfold parseBatch
  rw [hrun]
  cases Stack.run .batch [] ts with
  | error e => rfl
  | ok s =>
    have hfault := congrArg (fun p : Position => (.error ⟨.invalidBatch, p⟩ :
      Except (Located ParseFault) (List Assignment))) (Stack.endPosition_relocate s h)
    rcases s with _ | ⟨_ | _ | _ | _ | _ | as, _ | ⟨j, s⟩⟩
    case cons.entries.nil => exact congrArg Except.ok (List.map_reverse ..).symm
    all_goals exact hfault

end Relocation

end MapExpr
