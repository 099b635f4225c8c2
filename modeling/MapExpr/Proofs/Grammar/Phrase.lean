import MapExpr.Parse.Rules
import Mathlib.Data.List.Forall2

/-!
# The grammar of expressions

A `Phrase` is a parse tree: it holds every token of the source that it was read from, brackets and
commas included. `Phrase.tokens` lists them and `Phrase.tree` is the expression that is meant, in
which a group leaves no node.

## Levels

The grammar has one category of phrases for each level, and a phrase of one level is a phrase of
every lower one.

* 0: conditionals, `or ? cond : cond` and `or if cond else cond`;
* 1 to 6: the operators of two operands, by precedence. They group to the left: the left operand is
  of the level of the operator, the right one of the next level;
* 7: `-` and `!` in front of an operand of the same level;
* 8: member accesses, calls and indices, behind an operand of the same level;
* 9: constants, names, groups and vectors.

`Phrase.Fits n` says that a phrase belongs to the category of level `n`, and `Phrase.Derives` that
a list of tokens is an expression.
-/

namespace MapExpr

namespace Token

/-- The constant that a token stands for. -/
def literal? : Token → Option Literal
  | number x => some (.number x)
  | string s => some (.string s)
  | keyword .noneWord => some .none
  | _ => none

/-- The operator that a token in front of its only operand spells. -/
def unaryOp? : Token → Option UnaryOp
  | symbol .minus => some .negate
  | symbol .bang => some .logicalNot
  | _ => none

end Token

mutual

/-- An expression together with all its tokens. -/
inductive Phrase where
  | literal (t : Located Token) (value : Literal)
  | name (x : String) (p : Position)
  /-- `( inner )` -/
  | group (p : Position) (inner : Phrase) (q : Position)
  /-- `[ ]` -/
  | emptyVector (p q : Position)
  /-- `[ elements ]` -/
  | vector (p : Position) (elements : Row) (q : Position)
  /-- `object . x` -/
  | member (object : Phrase) (p : Position) (x : String) (q : Position)
  /-- `callee ( )` -/
  | emptyCall (callee : Phrase) (p q : Position)
  /-- `callee ( arguments )` -/
  | call (callee : Phrase) (p : Position) (arguments : Row) (q : Position)
  /-- `object [ index ]` -/
  | index (object : Phrase) (p : Position) (index : Phrase) (q : Position)
  | unary (t : Located Token) (op : UnaryOp) (operand : Phrase)
  | binary (left : Phrase) (t : Located Token) (op : BinaryOp) (right : Phrase)
  /-- `condition ? yes : no` -/
  | question (condition : Phrase) (p : Position) (yes : Phrase) (q : Position) (no : Phrase)
  /-- `yes if condition else no` -/
  | ifElse (yes : Phrase) (p : Position) (condition : Phrase) (q : Position) (no : Phrase)

/-- One or more expressions with commas between them. -/
inductive Row where
  | one (e : Phrase)
  | more (init : Row) (p : Position) (last : Phrase)

end

mutual

/-- The tokens of a phrase, from left to right. -/
def Phrase.tokens : Phrase → List (Located Token)
  | .literal t _ => [t]
  | .name x p => [⟨.identifier x, p⟩]
  | .group p e q => ⟨.symbol .openParen, p⟩ :: (e.tokens ++ [⟨.symbol .closeParen, q⟩])
  | .emptyVector p q => [⟨.symbol .openBracket, p⟩, ⟨.symbol .closeBracket, q⟩]
  | .vector p es q => ⟨.symbol .openBracket, p⟩ :: (es.tokens ++ [⟨.symbol .closeBracket, q⟩])
  | .member o p x q => o.tokens ++ [⟨.symbol .dot, p⟩, ⟨.identifier x, q⟩]
  | .emptyCall f p q => f.tokens ++ [⟨.symbol .openParen, p⟩, ⟨.symbol .closeParen, q⟩]
  | .call f p as q =>
    f.tokens ++ ⟨.symbol .openParen, p⟩ :: (as.tokens ++ [⟨.symbol .closeParen, q⟩])
  | .index o p i q =>
    o.tokens ++ ⟨.symbol .openBracket, p⟩ :: (i.tokens ++ [⟨.symbol .closeBracket, q⟩])
  | .unary t _ e => t :: e.tokens
  | .binary l t _ r => l.tokens ++ t :: r.tokens
  | .question c p y q n =>
    c.tokens ++ ⟨.symbol .question, p⟩ :: (y.tokens ++ ⟨.symbol .colon, q⟩ :: n.tokens)
  | .ifElse y p c q n =>
    y.tokens ++ ⟨.keyword .ifWord, p⟩ :: (c.tokens ++ ⟨.keyword .elseWord, q⟩ :: n.tokens)

@[inherit_doc Phrase.tokens]
def Row.tokens : Row → List (Located Token)
  | .one e => e.tokens
  | .more es p e => es.tokens ++ ⟨.symbol .comma, p⟩ :: e.tokens

end

mutual

/-- The expression that a phrase means. Every node carries the place of the token that introduced
it. -/
def Phrase.tree : Phrase → Expr
  | .literal t v => .literal v t.position
  | .name x p => .var x p
  | .group _ e _ => e.tree
  | .emptyVector p _ => .vector [] p
  | .vector p es _ => .vector es.trees p
  | .member o p x _ => .member o.tree x p
  | .emptyCall f p _ => .call f.tree [] (.ofPosition p)
  | .call f p as _ => .call f.tree as.trees (.ofPosition p)
  | .index o p i _ => .index o.tree i.tree p
  | .unary t op e => .unary op e.tree t.position
  | .binary l t op r => .binary op l.tree r.tree t.position
  | .question c p y _ n => .conditional c.tree y.tree n.tree p
  | .ifElse y p c _ n => .conditional c.tree y.tree n.tree p

/-- The expressions that a row means, in order. -/
def Row.trees : Row → List Expr
  | .one e => [e.tree]
  | .more es _ e => es.trees ++ [e.tree]

end

mutual

/-- Whether a phrase is one of the grammar's category of level `n`. -/
def Phrase.Fits : Nat → Phrase → Prop
  | n, .literal t v => n ≤ 9 ∧ t.value.literal? = some v
  | n, .name _ _ => n ≤ 9
  | n, .group _ e _ => n ≤ 9 ∧ e.Fits 0
  | n, .emptyVector _ _ => n ≤ 9
  | n, .vector _ es _ => n ≤ 9 ∧ es.Fits
  | n, .member o _ _ _ => n ≤ 8 ∧ o.Fits 8
  | n, .emptyCall f _ _ => n ≤ 8 ∧ f.Fits 8
  | n, .call f _ as _ => n ≤ 8 ∧ f.Fits 8 ∧ as.Fits
  | n, .index o _ i _ => n ≤ 8 ∧ o.Fits 8 ∧ i.Fits 0
  | n, .unary t op e => n ≤ 7 ∧ t.value.unaryOp? = some op ∧ e.Fits 7
  | n, .binary l t op r =>
    n ≤ op.precedence ∧ t.value.binaryOp? = some op ∧
      l.Fits op.precedence ∧ r.Fits (op.precedence + 1)
  | n, .question c _ y _ e => n ≤ 0 ∧ c.Fits 1 ∧ y.Fits 0 ∧ e.Fits 0
  | n, .ifElse y _ c _ e => n ≤ 0 ∧ y.Fits 1 ∧ c.Fits 0 ∧ e.Fits 0

/-- Whether every expression of a row is one of the grammar. -/
def Row.Fits : Row → Prop
  | .one e => e.Fits 0
  | .more es _ e => es.Fits ∧ e.Fits 0

end

namespace Phrase

/-- A phrase of one level is a phrase of every lower level. -/
theorem Fits.mono {d : Phrase} {m n : Nat} (h : d.Fits n) (hmn : m ≤ n) : d.Fits m := by
  cases d <;> simp only [Fits] at h ⊢ <;> first | omega | exact ⟨by omega, h.2⟩

/-- The tokens `ts` are an expression, and `d` is a way to read them. -/
def Derives (d : Phrase) (ts : List (Located Token)) : Prop :=
  d.Fits 0 ∧ d.tokens = ts

end Phrase

/-! ## What a run of tokens means

`Means n ts e` says that the tokens `ts` are a phrase of level `n` with the tree `e`, and
`MeansRow ts i` that they are a row which becomes the piece `i` on the stack. Both hide the phrase,
since the stack keeps its tree only. There is one lemma for each production of the grammar.
-/

section Meaning

/-- The place of a row is that of its first expression. -/
def Row.position : Row → Position
  | .one e => e.tree.position
  | .more es _ _ => es.position

/-- The piece that a row becomes on the stack: a single expression is no list. -/
def Row.item (es : Row) : Item :=
  match es with
  | .one e => .expr e.tree
  | .more _ _ _ => .list es.trees.reverse es.position

/-- The tokens `ts` are a phrase of level `n` with the tree `e`. -/
def Means (n : Nat) (ts : List (Located Token)) (e : Expr) : Prop :=
  ∃ d : Phrase, d.Fits n ∧ d.tokens = ts ∧ d.tree = e

/-- The tokens `ts` are a row that becomes the piece `i`. -/
def MeansRow (ts : List (Located Token)) (i : Item) : Prop :=
  ∃ r : Row, r.Fits ∧ r.tokens = ts ∧ r.item = i

variable {m n : Nat} {us vs ws : List (Located Token)} {e f g : Expr} {p q : Position}

namespace Means

/-- A phrase of a tighter level is one of every looser level. -/
theorem mono (h : Means n us e) (hmn : m ≤ n) : Means m us e := by
  obtain ⟨d, hd, hus, he⟩ := h
  exact ⟨d, hd.mono hmn, hus, he⟩

/-- A constant is a phrase on its own. -/
theorem literal {t : Token} {v : Literal} (ht : t.literal? = some v) :
    Means 9 [⟨t, p⟩] (.literal v p) :=
  ⟨.literal ⟨t, p⟩ v, ⟨Nat.le_refl 9, ht⟩, rfl, rfl⟩

/-- A name is a variable on its own. -/
theorem name {x : String} : Means 9 [⟨.identifier x, p⟩] (.var x p) :=
  ⟨.name x p, Nat.le_refl 9, rfl, rfl⟩

/-- An expression in parentheses means the same, and is as tight as a constant. -/
theorem group (h : Means 0 us e) :
    Means 9 (⟨.symbol .openParen, p⟩ :: (us ++ [⟨.symbol .closeParen, q⟩])) e := by
  obtain ⟨d, hd, rfl, rfl⟩ := h
  exact ⟨.group p d q, ⟨Nat.le_refl 9, hd⟩, rfl, rfl⟩

/-- Brackets with nothing between them are the empty vector. -/
theorem emptyVector :
    Means 9 [⟨.symbol .openBracket, p⟩, ⟨.symbol .closeBracket, q⟩] (.vector [] p) :=
  ⟨.emptyVector p q, Nat.le_refl 9, rfl, rfl⟩

/-- A row in brackets is the vector of its expressions. -/
theorem vector {r : Row} (h : r.Fits) :
    Means 9 (⟨.symbol .openBracket, p⟩ :: (r.tokens ++ [⟨.symbol .closeBracket, q⟩]))
      (.vector r.trees p) :=
  ⟨.vector p r q, ⟨Nat.le_refl 9, h⟩, rfl, rfl⟩

/-- A point and a name behind a phrase are an access. -/
theorem member {x : String} (h : Means 8 us e) :
    Means 8 (us ++ [⟨.symbol .dot, p⟩, ⟨.identifier x, q⟩]) (.member e x p) := by
  obtain ⟨d, hd, rfl, rfl⟩ := h
  exact ⟨.member d p x q, ⟨Nat.le_refl 8, hd⟩, rfl, rfl⟩

/-- Parentheses behind a phrase are a call without arguments. -/
theorem emptyCall (h : Means 8 us e) :
    Means 8 (us ++ [⟨.symbol .openParen, p⟩, ⟨.symbol .closeParen, q⟩])
      (.call e [] (.ofPosition p)) := by
  obtain ⟨d, hd, rfl, rfl⟩ := h
  exact ⟨.emptyCall d p q, ⟨Nat.le_refl 8, hd⟩, rfl, rfl⟩

/-- A row in parentheses behind a phrase is a call with these arguments. -/
theorem call {r : Row} (h : Means 8 us e) (hr : r.Fits) :
    Means 8 (us ++ ⟨.symbol .openParen, p⟩ :: (r.tokens ++ [⟨.symbol .closeParen, q⟩]))
      (.call e r.trees (.ofPosition p)) := by
  obtain ⟨d, hd, rfl, rfl⟩ := h
  exact ⟨.call d p r q, ⟨Nat.le_refl 8, hd, hr⟩, rfl, rfl⟩

/-- An expression in brackets behind a phrase is an index. -/
theorem index (h : Means 8 us e) (hi : Means 0 vs f) :
    Means 8 (us ++ ⟨.symbol .openBracket, p⟩ :: (vs ++ [⟨.symbol .closeBracket, q⟩]))
      (.index e f p) := by
  obtain ⟨d, hd, rfl, rfl⟩ := h
  obtain ⟨i, hi, rfl, rfl⟩ := hi
  exact ⟨.index d p i q, ⟨Nat.le_refl 8, hd, hi⟩, rfl, rfl⟩

/-- An operator in front of a phrase takes it as its operand. -/
theorem unary {t : Token} {op : UnaryOp} (ht : t.unaryOp? = some op) (h : Means 7 us e) :
    Means 7 (⟨t, p⟩ :: us) (.unary op e p) := by
  obtain ⟨d, hd, rfl, rfl⟩ := h
  exact ⟨.unary ⟨t, p⟩ op d, ⟨Nat.le_refl 7, ht, hd⟩, rfl, rfl⟩

/-- An operator takes a phrase of its own level on the left and a tighter one on the right. -/
theorem binary {t : Token} {op : BinaryOp} (ht : t.binaryOp? = some op)
    (h : Means op.precedence us e) (hf : Means (op.precedence + 1) vs f) :
    Means op.precedence (us ++ ⟨t, p⟩ :: vs) (.binary op e f p) := by
  obtain ⟨l, hl, rfl, rfl⟩ := h
  obtain ⟨r, hr, rfl, rfl⟩ := hf
  exact ⟨.binary l ⟨t, p⟩ op r, ⟨Nat.le_refl _, ht, hl, hr⟩, rfl, rfl⟩

/-- The conditional that begins with its condition. -/
theorem question (h : Means 1 us e) (hf : Means 0 vs f) (hg : Means 0 ws g) :
    Means 0 (us ++ ⟨.symbol .question, p⟩ :: (vs ++ ⟨.symbol .colon, q⟩ :: ws))
      (.conditional e f g p) := by
  obtain ⟨c, hc, rfl, rfl⟩ := h
  obtain ⟨y, hy, rfl, rfl⟩ := hf
  obtain ⟨d, hd, rfl, rfl⟩ := hg
  exact ⟨.question c p y q d, ⟨Nat.le_refl 0, hc, hy, hd⟩, rfl, rfl⟩

/-- The conditional that has its condition in the middle. -/
theorem ifElse (h : Means 1 us e) (hf : Means 0 vs f) (hg : Means 0 ws g) :
    Means 0 (us ++ ⟨.keyword .ifWord, p⟩ :: (vs ++ ⟨.keyword .elseWord, q⟩ :: ws))
      (.conditional f e g p) := by
  obtain ⟨y, hy, rfl, rfl⟩ := h
  obtain ⟨c, hc, rfl, rfl⟩ := hf
  obtain ⟨d, hd, rfl, rfl⟩ := hg
  exact ⟨.ifElse y p c q d, ⟨Nat.le_refl 0, hy, hc, hd⟩, rfl, rfl⟩

end Means

/-- The first and the second sign of a conditional. -/
inductive Completes : Token → Token → Prop
  | colon : Completes (.symbol .question) (.symbol .colon)
  | elseWord : Completes (.keyword .ifWord) (.keyword .elseWord)

/-- Two signs that belong together make a conditional of three expressions. -/
theorem Completes.exists_means {u v : Token} {f g : Expr} (h : Completes u v) (he : Means 1 us e)
    (hf : Means 0 vs f) (hg : Means 0 ws g) (p q : Position) :
    ∃ d, Means 0 (us ++ ⟨u, p⟩ :: (vs ++ ⟨v, q⟩ :: ws)) d := by
  cases h with
  | colon => exact ⟨_, he.question hf hg⟩
  | elseWord => exact ⟨_, he.ifElse hf hg⟩

/-- The first sign says which the second one is. -/
theorem Completes.unique {u v w : Token} (h : Completes u v) (h' : Completes u w) : v = w := by
  cases h <;> cases h' <;> rfl

namespace MeansRow

/-- A row that is a single expression on the stack is that expression. -/
theorem expr_iff : MeansRow us (.expr e) ↔ Means 0 us e := by
  constructor
  · rintro ⟨r, hr, rfl, hi⟩
    cases r with
    | one d => exact ⟨d, hr, rfl, Item.expr.inj hi⟩
    | more r p d => cases hi
  · rintro ⟨d, hd, rfl, rfl⟩
    exact ⟨.one d, hd, rfl, rfl⟩

/-- A piece that is a list comes from a row with its expressions, the last one of them first. -/
theorem list {es : List Expr} (h : MeansRow us (.list es p)) :
    ∃ r : Row, r.Fits ∧ r.tokens = us ∧ r.trees = es.reverse := by
  obtain ⟨r, hr, rfl, hi⟩ := h
  cases r with
  | one d => cases hi
  | more r q d =>
    obtain ⟨rfl, rfl⟩ := Item.list.inj hi
    exact ⟨.more r q d, hr, rfl, (List.reverse_reverse _).symm⟩

/-- Two expressions with a comma between them are a list. -/
theorem pair (h : Means 0 us e) (hf : Means 0 vs f) :
    MeansRow (us ++ ⟨.symbol .comma, p⟩ :: vs) (.list [f, e] e.position) := by
  obtain ⟨d, hd, rfl, rfl⟩ := h
  obtain ⟨c, hc, rfl, rfl⟩ := hf
  exact ⟨.more (.one d) p c, ⟨hd, hc⟩, rfl, rfl⟩

/-- A list with a comma and an expression behind it is a list. -/
theorem more {es : List Expr} (h : MeansRow us (.list es q)) (hf : Means 0 vs f) :
    MeansRow (us ++ ⟨.symbol .comma, p⟩ :: vs) (.list (f :: es) q) := by
  obtain ⟨r, hr, rfl, hi⟩ := h
  obtain ⟨c, hc, rfl, rfl⟩ := hf
  cases r with
  | one d => cases hi
  | more r p' d =>
    obtain ⟨rfl, rfl⟩ := Item.list.inj hi
    refine ⟨.more (.more r p' d) p c, ⟨hr, hc⟩, rfl, ?_⟩
    have ht : (Row.more (.more r p' d) p c).trees.reverse
        = c.tree :: (Row.more r p' d).trees.reverse := by
      rw [Row.trees, List.reverse_append]
      rfl
    rw [Row.item, ht]
    rfl

/-- A row is a single expression or a list. -/
theorem isExpr_or_isList {i : Item} (h : MeansRow us i) :
    (∃ e, i = .expr e) ∨ ∃ es p, i = .list es p := by
  obtain ⟨r, -, -, rfl⟩ := h
  cases r with
  | one d => exact .inl ⟨_, rfl⟩
  | more r p d => exact .inr ⟨_, _, rfl⟩

end MeansRow

end Meaning

/-! ## The grammar of batches

A batch is one or more entries `target = value ;`. The target of an entry is a name, which may stand
in parentheses; its value is an expression.
-/

/-- The tokens are the name `x` at `p`, or that name in matching parentheses. -/
inductive Target : List (Located Token) → String → Position → Prop
  | name {x : String} {p : Position} : Target [⟨.identifier x, p⟩] x p
  | group {ts : List (Located Token)} {x : String} {p : Position} (q r : Position)
      (h : Target ts x p) :
      Target (⟨.symbol .openParen, q⟩ :: (ts ++ [⟨.symbol .closeParen, r⟩])) x p

/-- The tokens of one entry, cut into its parts. -/
structure Entry where
  target : List (Located Token)
  equals : Position
  value : List (Located Token)
  semicolon : Position

namespace Entry

/-- The tokens of an entry, from left to right. -/
def tokens (e : Entry) : List (Located Token) :=
  e.target ++ ⟨.symbol .assign, e.equals⟩ :: (e.value ++ [⟨.symbol .semicolon, e.semicolon⟩])

/-- The entry assigns to the name of `a` the expression of `a`. -/
structure Means (e : Entry) (a : Assignment) : Prop where
  target : Target e.target a.name a.position
  value : MapExpr.Means 0 e.value a.value

end Entry

/-- The tokens are the entries `as`, of which there is at least one. -/
def MeansEntries (ts : List (Located Token)) (as : List Assignment) : Prop :=
  ∃ es : List Entry, es ≠ [] ∧ es.flatMap Entry.tokens = ts ∧ List.Forall₂ Entry.Means es as

/-! ### Targets are the phrases of a variable -/

/-- A phrase whose tree is a variable is a target. -/
theorem Phrase.target_of_tree_eq {x : String} {p : Position} :
    (d : Phrase) → d.tree = .var x p → Target d.tokens x p
  | .name y q, h => by
    obtain ⟨rfl, rfl⟩ := Expr.var.inj h
    exact .name
  | .group q e r, h => .group q r (target_of_tree_eq e h)
  | .literal _ _, h | .emptyVector _ _, h | .vector _ _ _, h | .member _ _ _ _, h
  | .emptyCall _ _ _, h | .call _ _ _ _, h | .index _ _ _ _, h | .unary _ _ _, h
  | .binary _ _ _ _, h | .question _ _ _ _ _, h | .ifElse _ _ _ _ _, h => by cases h

/-- The phrases that mean a variable are its name and this name in parentheses. -/
theorem means_var_iff {ts : List (Located Token)} {x : String} {p : Position} {n : Nat}
    (hn : n ≤ 9) : Means n ts (.var x p) ↔ Target ts x p := by
  constructor
  · rintro ⟨d, -, rfl, hd⟩
    exact d.target_of_tree_eq hd
  · intro h
    refine Means.mono ?_ hn
    induction h with
    | name => exact .name
    | group q r _ ih => exact .group (ih.mono (Nat.zero_le 9))

/-! ### Entries one after the other -/

namespace MeansEntries

variable {us vs : List (Located Token)} {as bs : List Assignment}

/-- A target, an assignment sign, an expression and a semicolon are one entry. -/
theorem one {x : String} {e : Expr} {p q r : Position} (ht : Target us x r)
    (hv : Means 0 vs e) :
    MeansEntries (us ++ ⟨.symbol .assign, p⟩ :: (vs ++ [⟨.symbol .semicolon, q⟩]))
      [⟨x, e, r⟩] :=
  ⟨[⟨us, p, vs, q⟩], nofun, by simp [Entry.tokens], .cons ⟨ht, hv⟩ .nil⟩

/-- Entries with others behind them are entries. -/
theorem append (h : MeansEntries us as) (hv : MeansEntries vs bs) :
    MeansEntries (us ++ vs) (as ++ bs) := by
  obtain ⟨es, hes, rfl, has⟩ := h
  obtain ⟨fs, hfs, rfl, hbs⟩ := hv
  refine ⟨es ++ fs, ?_, List.flatMap_append, List.rel_append has hbs⟩
  exact fun h => hes (List.append_eq_nil_iff.1 h).1

end MeansEntries

end MapExpr
