import MapExpr.Parse.Rules

/-!
# From tokens to trees

The parser puts the tokens on the stack one at a time and after each of them applies the rules of
the grammar as long as one fits, knowing the token that comes next. `parseExpression` succeeds if
one expression is left in the end, `parseBatch` if the entries of one batch are.
-/

namespace MapExpr

/-! ## Which token may come next

A token that could never be joined with what stands in front of it is refused at once, so that the
failure is reported at that token. `refusal?` tells why a token is refused; several reasons may
apply, and the first one is given.
-/

/-- Why a token cannot stand where it stands. -/
inductive Misplacement where
  | afterDot
  | noOperator
  | noOperand
  | noQuestion
  | noIf
  | noBatch
  | noName
  | noEntry
  | closesNothing
deriving DecidableEq

/-- The wording of a misplacement. -/
def Misplacement.details : Misplacement → String
  | afterDot => "expected a member name after '.'"
  | noOperator => "expected an operator between two operands"
  | noOperand => "expected an expression before it"
  | noQuestion => "there is no '?' for it to complete"
  | noIf => "there is no 'if' for it to complete"
  | noBatch => "assignments are only allowed in an assignment batch"
  | noName => "an assignment can only start with a name"
  | noEntry => "expected 'name = expression' before it"
  | closesNothing => "it does not close a group, call, index or vector"

/-- Why tokens are no expression, or no batch. -/
inductive ParseFault where
  /-- A token that cannot stand where it stands. -/
  | unexpectedToken (token : Token) (why : Misplacement)
  /-- The tokens end before they are one expression. -/
  | invalidExpression
  /-- The tokens end before they are a sequence of entries. -/
  | invalidBatch
  /-- An assignment to something else than a name. -/
  | invalidTarget
deriving DecidableEq

/-- The wording of a fault. -/
def ParseFault.message : ParseFault → String
  | unexpectedToken token why => "Unexpected token " ++ token.text ++ ": " ++ why.details ++ "."
  | invalidExpression => "Invalid expression."
  | invalidBatch => "Invalid assignments sequence."
  | invalidTarget => "Only a variable name can be assigned to."

namespace Token

/-- Tokens that begin an operand and so cannot follow one. -/
def beginsOperand : Token → Bool
  | number _ | string _ | identifier _ => true
  | keyword .noneWord => true
  | symbol .bang => true
  | _ => false

/-- Tokens that mean nothing without an expression before them. A minus sign is not among them,
since without one it is a negation. -/
def continuesExpr : Token → Bool
  | symbol .question | symbol .colon | symbol .dot | symbol .assign | symbol .semicolon => true
  | keyword .ifWord | keyword .elseWord => true
  | symbol .minus => false
  | t => t.binaryOp?.isSome

end Token

namespace Stack

/-- Why a name cannot be assigned to here: the assignment sign has to follow a name that is the
first piece of all or the first one after finished entries. -/
def targetRefusal? : Stack → Option ParseFault
  | [.expr (.var _ _)] => none
  | .expr (.var _ _) :: .entries _ :: _ => none
  | [.expr _] => some .invalidTarget
  | .expr _ :: .entries _ :: _ => some .invalidTarget
  | _ => some (.unexpectedToken (.symbol .assign) .noName)

/-- Why a token that is in itself in order cannot be joined with what stands before it. -/
def joinRefusal? (form : Form) (s : Stack) (t : Token) : Option ParseFault :=
  let refuse (bad : Bool) (why : Misplacement) :=
    if bad then some (.unexpectedToken t why) else none
  match t with
  | .symbol .comma => refuse (!s.canSeparate) .noOperand
  | .symbol .closeParen | .symbol .closeBracket => refuse (!s.canClose) .noOperand
  | .symbol .colon =>
    refuse (!s.hasPending (.symbol .question) (.symbol .colon) 0) .noQuestion
  | .keyword .elseWord =>
    refuse (!s.hasPending (.keyword .ifWord) (.keyword .elseWord) 0) .noIf
  | .symbol .assign =>
    if form = .expression then refuse true .noBatch else s.targetRefusal?
  | .symbol .semicolon =>
    if form = .expression then refuse true .noBatch else refuse (!s.hasPendingEntry) .noEntry
  | _ => none

/-- Why a token cannot follow what has been read, if it cannot. -/
def refusal? (form : Form) (s : Stack) (t : Token) : Option ParseFault :=
  if s.topIsDot && !(t matches .identifier _) then some (.unexpectedToken t .afterDot)
  else if t.beginsOperand && s.topIsExpr then some (.unexpectedToken t .noOperator)
  else if t.continuesExpr && !s.topIsExpr then some (.unexpectedToken t .noOperand)
  else s.joinRefusal? form t

end Stack

/-! ## The parser -/

/-- The piece that a token becomes. A literal is an expression right away; a minus sign with no
expression before it is a negation. -/
def Item.ofToken (s : Stack) (t : Token) (p : Position) : Item :=
  match t with
  | .number x => .expr (.literal (.number x) p)
  | .string x => .expr (.literal (.string x) p)
  | .keyword .noneWord => .expr (.literal .none p)
  | .symbol .bang => .unary .logicalNot p
  | .symbol .minus => if s.topIsExpr then .binary .subtract p else .unary .negate p
  | t =>
    match t.binaryOp? with
    | some op => .binary op p
    | none => .token t p

namespace Stack

/-- Puts a token on the stack, unless it is refused. -/
def shift (form : Form) (s : Stack) (t : Located Token) : Except (Located ParseFault) Stack :=
  match s.refusal? form t.value with
  | some fault => .error ⟨fault, t.position⟩
  | none => .ok (Item.ofToken s t.value t.position :: s)

/-- A closing bracket that no rule has taken closes nothing. -/
def checkClosed : Stack → Except (Located ParseFault) Stack
  | .token (.symbol .closeParen) p :: _ =>
    .error ⟨.unexpectedToken (.symbol .closeParen) .closesNothing, p⟩
  | .token (.symbol .closeBracket) p :: _ =>
    .error ⟨.unexpectedToken (.symbol .closeBracket) .closesNothing, p⟩
  | s => .ok s

/-- One step: a token is put on the stack and all rules that fit are applied. -/
def step (form : Form) (s : Stack) (t : Located Token) (next : Option Token) :
    Except (Located ParseFault) Stack :=
  match s.shift form t with
  | .error e => .error e
  | .ok s => checkClosed (reduce form next s)

/-- The stack after all tokens. -/
def run (form : Form) (s : Stack) : List (Located Token) → Except (Located ParseFault) Stack
  | [] => .ok s
  | t :: ts =>
    match s.step form t (ts.head?.map Located.value) with
    | .error e => .error e
    | .ok s => s.run form ts

/-- Where to report that the tokens ended too early: at the first piece that is no expression,
else at the last token, else at the beginning. -/
def endPosition (s : Stack) (ts : List (Located Token)) : Position :=
  (s.leftover?.or (ts.getLast?.map Located.position)).getD .start

end Stack

/-- The expression that the tokens make up. -/
def parseExpression (ts : List (Located Token)) : Except (Located ParseFault) Expr :=
  match Stack.run .expression [] ts with
  | .error e => .error e
  | .ok [.expr e] => .ok e
  | .ok s => .error ⟨.invalidExpression, s.endPosition ts⟩

/-- The entries that the tokens make up, in order. -/
def parseBatch (ts : List (Located Token)) : Except (Located ParseFault) (List Assignment) :=
  match Stack.run .batch [] ts with
  | .error e => .error e
  | .ok [.entries es] => .ok es.reverse
  | .ok s => .error ⟨.invalidBatch, s.endPosition ts⟩

end MapExpr
