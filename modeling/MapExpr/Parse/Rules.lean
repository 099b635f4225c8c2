import MapExpr.Expr
import MapExpr.Token.Scan

/-!
# The parse stack and the rules of the grammar

Parsing goes through the tokens from left to right and keeps a stack of the pieces that are not
yet joined into one tree, with the last piece on top. Each rule looks at the last pieces of the
stack, and some of them at the token that comes next, and joins the pieces into one. `reduceOnce`
tries the rules in a fixed order and `reduce` repeats it until no rule applies.

`Rule` is what the rules do, said without their order: one constructor for each way to join pieces.
What holds of every rule is shown by cases on it.

## Why the repetition ends

Every rule replaces pieces by a single one, so the stack gets shorter, with one exception: a name on
its own becomes a variable, one piece for one piece. The weight of a stack counts its pieces and,
once more, the names among them, and every rule lowers it (`weight_lt_of_reduceOnce`).
-/

namespace MapExpr

/-! ## The stack -/

/-- A piece of a source that is partly understood. -/
inductive Item where
  /-- A token that still waits for what it belongs to. -/
  | token (t : Token) (pos : Position)
  /-- A finished expression. -/
  | expr (e : Expr)
  /-- Two or more expressions separated by commas, the last one first; the place is that of the
  first one in the source. -/
  | list (es : List Expr) (pos : Position)
  /-- An operator that waits for its only operand. -/
  | unary (op : UnaryOp) (pos : Position)
  /-- An operator that waits for its right operand. -/
  | binary (op : BinaryOp) (pos : Position)
  /-- Finished entries of a batch, the last one first. -/
  | entries (es : List Assignment)

/-- The place of a piece; entries are placed at the first one in the source. -/
def Item.position? : Item → Option Position
  | token _ p | list _ p | unary _ p | binary _ p => some p
  | expr e => some e.position
  | entries es => es.getLast?.map Assignment.position

/-- Whether a piece is a finished expression. -/
def Item.isExpr : Item → Bool
  | expr _ => true
  | _ => false

/-- The pieces of what has been read, the last one first. -/
abbrev Stack := List Item

namespace Stack

/-- Whether the last piece is a finished expression. -/
def topIsExpr : Stack → Bool
  | .expr _ :: _ => true
  | _ => false

/-- Whether the last piece is a point that waits for a member name. -/
def topIsDot : Stack → Bool
  | .token (.symbol .dot) _ :: _ => true
  | _ => false

/-- Whether a closing bracket may follow: after an expression, a list or an opening bracket. -/
def canClose : Stack → Bool
  | .expr _ :: _ => true
  | .list _ _ :: _ => true
  | .token (.symbol .openParen) _ :: _ => true
  | .token (.symbol .openBracket) _ :: _ => true
  | _ => false

/-- Whether a comma may follow: after an expression or a list. -/
def canSeparate : Stack → Bool
  | .expr _ :: _ => true
  | .list _ _ :: _ => true
  | _ => false

/-- Whether, inside the innermost open bracket, some `opener` has no `closer` after it yet, when
`closed` further ones of them are accounted for. -/
def hasPending (opener closer : Token) (closed : Nat) : Stack → Bool
  | [] => false
  | .token t _ :: s =>
    if t = closer then hasPending opener closer (closed + 1) s
    else if t = opener then
      match closed with
      | 0 => true
      | n + 1 => hasPending opener closer n s
    else if t = .symbol .openParen ∨ t = .symbol .openBracket then false
    else hasPending opener closer closed s
  | _ :: s => hasPending opener closer closed s

/-- Whether the last pieces are an assignment sign and the expression after it. -/
def hasPendingEntry : Stack → Bool
  | .expr _ :: .token (.symbol .assign) _ :: _ => true
  | _ => false

/-- The place of the first piece that is no finished expression. -/
def leftover? (s : Stack) : Option Position :=
  (s.reverse.filter fun i => !i.isExpr).findSome? Item.position?

end Stack

/-! ## The rules -/

section Rules

namespace Rules

/-- Whether the next token continues the last operand: a member access, a call or an index. -/
def continuesOperand : Option Token → Bool
  | some (.symbol .dot) => true
  | some (.symbol .openParen) => true
  | some (.symbol .openBracket) => true
  | _ => false

/-- Whether the next token is an operator that binds tighter than `op`. An equally tight one does
not, so operators of one level group to the left. -/
def bindsTighter (next : Option Token) (op : BinaryOp) : Bool :=
  match next.bind Token.binaryOp? with
  | some later => op.precedence < later.precedence
  | none => false

/-- Whether the next token can make the last branch of a conditional longer. -/
def continuesBranch (next : Option Token) : Bool :=
  continuesOperand next || (next.bind Token.binaryOp?).isSome
    || next = some (.symbol .question) || next = some (.keyword .ifWord)

/-- Whether the next token ends an element of a list. -/
def endsElement : Option Token → Bool
  | some (.symbol .comma) => true
  | some (.symbol .closeParen) => true
  | some (.symbol .closeBracket) => true
  | _ => false

/-- A name after a point is a member of the expression before it; any other name is a variable. -/
def name? : Stack → Option Stack
  | .token (.identifier name) _ :: .token (.symbol .dot) p :: .expr object :: s =>
    some (.expr (.member object name p) :: s)
  | .token (.identifier name) p :: s => some (.expr (.var name p) :: s)
  | _ => none

/-- A closed parenthesis is a call if an expression stands before it, and else a group. -/
def paren? : Stack → Option Stack
  | .token (.symbol .closeParen) _ :: .token (.symbol .openParen) p :: .expr callee :: s =>
    some (.expr (.call callee [] (.ofPosition p)) :: s)
  | .token (.symbol .closeParen) _ :: .expr argument :: .token (.symbol .openParen) p ::
      .expr callee :: s =>
    some (.expr (.call callee [argument] (.ofPosition p)) :: s)
  | .token (.symbol .closeParen) _ :: .list arguments _ :: .token (.symbol .openParen) p ::
      .expr callee :: s =>
    some (.expr (.call callee arguments.reverse (.ofPosition p)) :: s)
  | .token (.symbol .closeParen) _ :: .expr inner :: .token (.symbol .openParen) _ :: s =>
    some (.expr inner :: s)
  | _ => none

/-- A closed bracket with one expression inside is an index if an expression stands before it.
Without an expression before it the brackets are a vector. -/
def bracket? : Stack → Option Stack
  | .token (.symbol .closeBracket) _ :: .expr index :: .token (.symbol .openBracket) p ::
      .expr object :: s =>
    some (.expr (.index object index p) :: s)
  | .token (.symbol .closeBracket) _ :: .expr element :: .token (.symbol .openBracket) p :: s =>
    some (.expr (.vector [element] p) :: s)
  | .token (.symbol .closeBracket) _ :: .list elements _ :: .token (.symbol .openBracket) p :: s =>
    if Stack.topIsExpr s then none else some (.expr (.vector elements.reverse p) :: s)
  | .token (.symbol .closeBracket) _ :: .token (.symbol .openBracket) p :: s =>
    if Stack.topIsExpr s then none else some (.expr (.vector [] p) :: s)
  | _ => none

/-- An operator in front of a finished operand. -/
def unary? (next : Option Token) : Stack → Option Stack
  | .expr operand :: .unary op p :: s =>
    if continuesOperand next then none else some (.expr (.unary op operand p) :: s)
  | _ => none

/-- An operator between two operands, unless the right one belongs to a tighter operator. -/
def binary? (next : Option Token) : Stack → Option Stack
  | .expr right :: .binary op p :: .expr left :: s =>
    if continuesOperand next || bindsTighter next op then none
    else some (.expr (.binary op left right p) :: s)
  | _ => none

/-- The two ways to write a conditional. The last branch reaches as far as it can. -/
def conditional? (next : Option Token) : Stack → Option Stack
  | .expr no :: .token (.symbol .colon) _ :: .expr yes :: .token (.symbol .question) p ::
      .expr condition :: s =>
    if continuesBranch next then none else some (.expr (.conditional condition yes no p) :: s)
  | .expr no :: .token (.keyword .elseWord) _ :: .expr condition :: .token (.keyword .ifWord) p ::
      .expr yes :: s =>
    if continuesBranch next then none else some (.expr (.conditional condition yes no p) :: s)
  | _ => none

/-- Expressions between commas are collected into one list, whatever brackets it stands in. -/
def list? (next : Option Token) : Stack → Option Stack
  | .expr last :: .token (.symbol .comma) _ :: .expr first :: s =>
    if endsElement next then some (.list [last, first] first.position :: s) else none
  | .expr last :: .token (.symbol .comma) _ :: .list es p :: s =>
    if endsElement next then some (.list (last :: es) p :: s) else none
  | _ => none

/-- A name, an assignment sign, an expression and a semicolon are an entry of a batch. -/
def entry? : Stack → Option Stack
  | .token (.symbol .semicolon) _ :: .expr value :: .token (.symbol .assign) _ ::
      .expr (.var name p) :: s =>
    some (.entries [⟨name, value, p⟩] :: s)
  | _ => none

/-- Entries that follow each other are one batch. -/
def join? : Stack → Option Stack
  | .entries later :: .entries earlier :: s => some (.entries (later ++ earlier) :: s)
  | _ => none

end Rules

open Rules

/-- Applies the first rule that fits; the rules on entries hold in a batch only. -/
def reduceOnce (form : Form) (next : Option Token) (s : Stack) : Option Stack :=
  name? s <|> paren? s <|> bracket? s <|> unary? next s <|> binary? next s <|>
    conditional? next s <|> list? next s <|>
    (if form = .batch then entry? s <|> join? s else none)

/-! ### What a rule does to the stack -/

/-- The stack `s` ends in pieces that a rule joins, and `t` is what the rule makes of it: one
constructor for each way to join pieces. A guard on the pieces below leaves these to the rule that
takes more of them, a guard on `next` leaves them to the one that fits behind that token. -/
inductive Rule (form : Form) (next : Option Token) : Stack → Stack → Prop
  | member {name : String} {object : Expr} {p q : Position} {s : Stack} :
      Rule form next
        (.token (.identifier name) q :: .token (.symbol .dot) p :: .expr object :: s)
        (.expr (.member object name p) :: s)
  | var {name : String} {p : Position} {s : Stack}
      (h : ∀ q object r, s ≠ .token (.symbol .dot) q :: .expr object :: r) :
      Rule form next (.token (.identifier name) p :: s) (.expr (.var name p) :: s)
  | emptyCall {callee : Expr} {p q : Position} {s : Stack} :
      Rule form next
        (.token (.symbol .closeParen) q :: .token (.symbol .openParen) p :: .expr callee :: s)
        (.expr (.call callee [] (.ofPosition p)) :: s)
  | callOne {callee argument : Expr} {p q : Position} {s : Stack} :
      Rule form next
        (.token (.symbol .closeParen) q :: .expr argument :: .token (.symbol .openParen) p ::
          .expr callee :: s)
        (.expr (.call callee [argument] (.ofPosition p)) :: s)
  | call {callee : Expr} {arguments : List Expr} {p q r : Position} {s : Stack} :
      Rule form next
        (.token (.symbol .closeParen) q :: .list arguments r :: .token (.symbol .openParen) p ::
          .expr callee :: s)
        (.expr (.call callee arguments.reverse (.ofPosition p)) :: s)
  | group {inner : Expr} {p q : Position} {s : Stack} (h : s.topIsExpr = false) :
      Rule form next
        (.token (.symbol .closeParen) q :: .expr inner :: .token (.symbol .openParen) p :: s)
        (.expr inner :: s)
  | index {object index : Expr} {p q : Position} {s : Stack} :
      Rule form next
        (.token (.symbol .closeBracket) q :: .expr index :: .token (.symbol .openBracket) p ::
          .expr object :: s)
        (.expr (.index object index p) :: s)
  | emptyVector {p q : Position} {s : Stack} (h : s.topIsExpr = false) :
      Rule form next
        (.token (.symbol .closeBracket) q :: .token (.symbol .openBracket) p :: s)
        (.expr (.vector [] p) :: s)
  | vectorOne {element : Expr} {p q : Position} {s : Stack} (h : s.topIsExpr = false) :
      Rule form next
        (.token (.symbol .closeBracket) q :: .expr element :: .token (.symbol .openBracket) p :: s)
        (.expr (.vector [element] p) :: s)
  | vector {elements : List Expr} {p q r : Position} {s : Stack} (h : s.topIsExpr = false) :
      Rule form next
        (.token (.symbol .closeBracket) q :: .list elements r :: .token (.symbol .openBracket) p ::
          s)
        (.expr (.vector elements.reverse p) :: s)
  | unary {op : UnaryOp} {operand : Expr} {p : Position} {s : Stack}
      (h : continuesOperand next = false) :
      Rule form next (.expr operand :: .unary op p :: s) (.expr (.unary op operand p) :: s)
  | binary {op : BinaryOp} {left right : Expr} {p : Position} {s : Stack}
      (h : (continuesOperand next || bindsTighter next op) = false) :
      Rule form next (.expr right :: .binary op p :: .expr left :: s)
        (.expr (.binary op left right p) :: s)
  | question {condition yes no : Expr} {p q : Position} {s : Stack}
      (h : continuesBranch next = false) :
      Rule form next
        (.expr no :: .token (.symbol .colon) q :: .expr yes :: .token (.symbol .question) p ::
          .expr condition :: s)
        (.expr (.conditional condition yes no p) :: s)
  | ifElse {condition yes no : Expr} {p q : Position} {s : Stack}
      (h : continuesBranch next = false) :
      Rule form next
        (.expr no :: .token (.keyword .elseWord) q :: .expr condition ::
          .token (.keyword .ifWord) p :: .expr yes :: s)
        (.expr (.conditional condition yes no p) :: s)
  | pair {first last : Expr} {p : Position} {s : Stack} (h : endsElement next = true) :
      Rule form next (.expr last :: .token (.symbol .comma) p :: .expr first :: s)
        (.list [last, first] first.position :: s)
  | list {es : List Expr} {last : Expr} {p q : Position} {s : Stack}
      (h : endsElement next = true) :
      Rule form next (.expr last :: .token (.symbol .comma) q :: .list es p :: s)
        (.list (last :: es) p :: s)
  | entry {name : String} {value : Expr} {p q r : Position} {s : Stack} (h : form = .batch) :
      Rule form next
        (.token (.symbol .semicolon) r :: .expr value :: .token (.symbol .assign) q ::
          .expr (.var name p) :: s)
        (.entries [⟨name, value, p⟩] :: s)
  | join {later earlier : List Assignment} {s : Stack} (h : form = .batch) :
      Rule form next (.entries later :: .entries earlier :: s) (.entries (later ++ earlier) :: s)

/-- A stack that does not end in an expression, whichever it be, has none on top. -/
theorem Stack.topIsExpr_eq_false {s : Stack} (h : ∀ e r, s ≠ .expr e :: r) :
    s.topIsExpr = false := by
  unfold topIsExpr
  split
  · exact absurd rfl (h _ _)
  · rfl

section Inversion

variable {form : Form} {next : Option Token} {s t : Stack}

namespace Rules

/-- What is done to a name is the rule of a member or of a variable. -/
theorem rule_of_name? (h : name? s = some t) : Rule form next s t := by
  unfold name? at h
  split at h <;> cases h
  · exact .member
  · next hn => exact .var fun _ _ _ hs => hn _ _ _ hs

/-- What is done to a closed parenthesis is a rule of calls or of groups. -/
theorem rule_of_paren? (h : paren? s = some t) : Rule form next s t := by
  unfold paren? at h
  split at h <;> cases h
  · exact .emptyCall
  · exact .callOne
  · exact .call
  · next hn => exact .group (Stack.topIsExpr_eq_false fun _ _ hs => hn _ _ hs)

/-- What is done to a closed bracket is a rule of indices or of vectors. -/
theorem rule_of_bracket? (h : bracket? s = some t) : Rule form next s t := by
  unfold bracket? at h
  split at h
  · cases h
    exact .index
  · next hn =>
    cases h
    exact .vectorOne (Stack.topIsExpr_eq_false fun _ _ hs => hn _ _ hs)
  · split at h <;> cases h
    next hs => exact .vector (Bool.eq_false_iff.2 hs)
  · split at h <;> cases h
    next hs => exact .emptyVector (Bool.eq_false_iff.2 hs)
  · cases h

/-- What is done to an operator and its operand is the rule of unary operators. -/
theorem rule_of_unary? (h : unary? next s = some t) : Rule form next s t := by
  unfold unary? at h
  split at h
  · split at h <;> cases h
    next hn => exact .unary (Bool.eq_false_iff.2 hn)
  · cases h

/-- What is done to an operator between two operands is the rule of binary operators. -/
theorem rule_of_binary? (h : binary? next s = some t) : Rule form next s t := by
  unfold binary? at h
  split at h
  · split at h <;> cases h
    next hn => exact .binary (Bool.eq_false_iff.2 hn)
  · cases h

/-- What is done to three branches is one of the two rules of conditionals. -/
theorem rule_of_conditional? (h : conditional? next s = some t) : Rule form next s t := by
  unfold conditional? at h
  split at h
  · split at h <;> cases h
    next hn => exact .question (Bool.eq_false_iff.2 hn)
  · split at h <;> cases h
    next hn => exact .ifElse (Bool.eq_false_iff.2 hn)
  · cases h

/-- What is done around a comma makes a list or lengthens one. -/
theorem rule_of_list? (h : list? next s = some t) : Rule form next s t := by
  unfold list? at h
  split at h
  · split at h <;> cases h
    next hy => exact .pair hy
  · split at h <;> cases h
    next hy => exact .list hy
  · cases h

/-- What is done to a complete entry is the rule of entries. -/
theorem rule_of_entry? (h : entry? s = some t) : Rule .batch next s t := by
  unfold entry? at h
  split at h <;> cases h
  exact .entry rfl

/-- What is done to neighbouring entries is the rule that joins them. -/
theorem rule_of_join? (h : join? s = some t) : Rule .batch next s t := by
  unfold join? at h
  split at h <;> cases h
  exact .join rfl

end Rules

/-- Whatever is made of a stack is made by one of the rules. -/
theorem rule_of_reduceOnce (h : reduceOnce form next s = some t) : Rule form next s t := by
  simp only [reduceOnce, Option.orElse_eq_orElse, Option.orElse_eq_or, Option.or_eq_some_iff] at h
  rcases h with h | ⟨-, h | ⟨-, h | ⟨-, h | ⟨-, h | ⟨-, h | ⟨-, h | ⟨-, h⟩⟩⟩⟩⟩⟩⟩
  · exact rule_of_name? h
  · exact rule_of_paren? h
  · exact rule_of_bracket? h
  · exact rule_of_unary? h
  · exact rule_of_binary? h
  · exact rule_of_conditional? h
  · exact rule_of_list? h
  · split at h
    · next hf =>
      subst hf
      rcases Option.or_eq_some_iff.1 h with h | ⟨-, h⟩
      · exact rule_of_entry? h
      · exact rule_of_join? h
    · cases h

end Inversion

/-! ### The weight of a stack -/

/-- A name counts twice, every other piece once. -/
def Item.weight : Item → Nat
  | .token (.identifier _) _ => 2
  | _ => 1

/-- The number of pieces and of names among them. -/
def Stack.weight : Stack → Nat
  | [] => 0
  | i :: s => i.weight + Stack.weight s

@[simp] theorem Stack.weight_cons (i : Item) (s : Stack) :
    Stack.weight (i :: s) = i.weight + Stack.weight s := rfl

/-- A rule leaves fewer pieces, or as many with one name less. -/
theorem Rule.weight_lt {form : Form} {next : Option Token} {s t : Stack}
    (h : Rule form next s t) : t.weight < s.weight := by
  cases h <;> simp [Item.weight] <;> omega

/-- Every rule makes the stack lighter. -/
theorem weight_lt_of_reduceOnce {form : Form} {next : Option Token} {s t : Stack}
    (h : reduceOnce form next s = some t) : t.weight < s.weight :=
  (rule_of_reduceOnce h).weight_lt

/-- Applies rules as long as one fits. -/
def reduce (form : Form) (next : Option Token) (s : Stack) : Stack :=
  match _h : reduceOnce form next s with
  | some t => reduce form next t
  | none => s
termination_by s.weight
decreasing_by exact weight_lt_of_reduceOnce ‹_›

end Rules

end MapExpr
