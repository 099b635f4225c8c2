import MapExpr.Proofs.Parsing.Moves

/-!
# The left spine of a phrase

A phrase begins with a head, which is a constant, a name, something in brackets or an operator in
front of its operand, and continues with tails: postfixes, operators with their right operands, and
the rest of a conditional. `Left d e` says that `e` is `d` with some more tails, so the phrases
`d` with `Left d e` are those that one finds from `e` by going to the left.

A tail says by its first token how tight the phrase before it has to be. `Phrase.Before d r` is the
condition under which the phrase `d` may be followed by the tokens `r`, and it is handed down the
spine (`Left.before`).
-/

namespace MapExpr

/-- What can stand behind an operand to make a longer phrase of both. -/
inductive Tail where
  | member (p : Position) (x : String) (q : Position)
  | emptyCall (p q : Position)
  | call (p : Position) (arguments : Row) (q : Position)
  | index (p : Position) (index : Phrase) (q : Position)
  | binary (t : Located Token) (op : BinaryOp) (right : Phrase)
  | question (p : Position) (yes : Phrase) (q : Position) (no : Phrase)
  | ifElse (p : Position) (condition : Phrase) (q : Position) (no : Phrase)

namespace Tail

/-- The tokens of a tail, from left to right. -/
def tokens : Tail → List (Located Token)
  | member p x q => [⟨.symbol .dot, p⟩, ⟨.identifier x, q⟩]
  | emptyCall p q => [⟨.symbol .openParen, p⟩, ⟨.symbol .closeParen, q⟩]
  | call p as q => ⟨.symbol .openParen, p⟩ :: (as.tokens ++ [⟨.symbol .closeParen, q⟩])
  | index p i q => ⟨.symbol .openBracket, p⟩ :: (i.tokens ++ [⟨.symbol .closeBracket, q⟩])
  | binary t _ r => t :: r.tokens
  | question p y q n => ⟨.symbol .question, p⟩ :: (y.tokens ++ ⟨.symbol .colon, q⟩ :: n.tokens)
  | ifElse p c q n =>
    ⟨.keyword .ifWord, p⟩ :: (c.tokens ++ ⟨.keyword .elseWord, q⟩ :: n.tokens)

/-- The first token of a tail. -/
def first : Tail → Token
  | member _ _ _ => .symbol .dot
  | emptyCall _ _ | call _ _ _ => .symbol .openParen
  | index _ _ _ => .symbol .openBracket
  | binary t _ _ => t.value
  | question _ _ _ _ => .symbol .question
  | ifElse _ _ _ _ => .keyword .ifWord

/-- The level of the phrase that a tail ends. -/
def level : Tail → Nat
  | binary _ op _ => op.precedence
  | question _ _ _ _ | ifElse _ _ _ _ => 0
  | _ => 8

/-- Whether the parts of a tail are in order. -/
def Fits : Tail → Prop
  | member _ _ _ | emptyCall _ _ => True
  | call _ as _ => as.Fits
  | index _ i _ => i.Fits 0
  | binary t op r => t.value.binaryOp? = some op ∧ r.Fits (op.precedence + 1)
  | question _ y _ n | ifElse _ y _ n => y.Fits 0 ∧ n.Fits 0

/-- Every tail begins with its first token. -/
theorem exists_tokens (x : Tail) : ∃ p us, x.tokens = ⟨x.first, p⟩ :: us := by
  cases x <;> exact ⟨_, _, rfl⟩

/-- The first token of a tail asks for the level that the phrase before it has to have. -/
theorem leftLevel_first {x : Tail} (h : x.Fits) : x.first.leftLevel = max x.level 1 := by
  cases x with
  | binary t op r =>
    have hop : t.value.leftLevel = op.precedence := Token.leftLevel_of_binaryOp? h.1
    have := op.precedence_pos
    show t.value.leftLevel = max op.precedence 1
    omega
  | _ => rfl

/-- In front of a tail a phrase has to be as tight as the tail says. -/
theorem nextLevel_tokens {x : Tail} (h : x.Fits) (r : List (Located Token)) :
    nextLevel ((x.tokens ++ r).head?.map Located.value) = max x.level 1 := by
  obtain ⟨p, us, hx⟩ := x.exists_tokens
  rw [hx, ← leftLevel_first h]
  rfl

end Tail

namespace Phrase

/-- A phrase with a tail behind it. -/
def extend (d : Phrase) : Tail → Phrase
  | .member p x q => .member d p x q
  | .emptyCall p q => .emptyCall d p q
  | .call p as q => .call d p as q
  | .index p i q => .index d p i q
  | .binary t op r => .binary d t op r
  | .question p y q n => .question d p y q n
  | .ifElse p c q n => .ifElse d p c q n

/-- A tail stands behind the phrase that it makes longer. -/
theorem tokens_extend (d : Phrase) (x : Tail) : (d.extend x).tokens = d.tokens ++ x.tokens := by
  cases x <;> rfl

/-- A longer phrase is in order if the shorter one is tight enough and the tail is in order. -/
theorem fits_extend {d : Phrase} {x : Tail} {n : Nat} :
    (d.extend x).Fits n ↔ n ≤ x.level ∧ d.Fits (max x.level 1) ∧ x.Fits := by
  cases x with
  | member p y q =>
    show n ≤ 8 ∧ d.Fits 8 ↔ n ≤ 8 ∧ d.Fits 8 ∧ True
    rw [and_true]
  | emptyCall p q =>
    show n ≤ 8 ∧ d.Fits 8 ↔ n ≤ 8 ∧ d.Fits 8 ∧ True
    rw [and_true]
  | binary t op r =>
    have hop : max op.precedence 1 = op.precedence := Nat.max_eq_left op.precedence_pos
    show n ≤ op.precedence ∧ t.value.binaryOp? = some op ∧ d.Fits op.precedence ∧
        r.Fits (op.precedence + 1) ↔
      n ≤ op.precedence ∧ d.Fits (max op.precedence 1) ∧ t.value.binaryOp? = some op ∧
        r.Fits (op.precedence + 1)
    rw [hop, and_left_comm (a := d.Fits op.precedence)]
  | call p as q => rfl
  | index p i q => rfl
  | question p y q e => rfl
  | ifElse p c q e => rfl

/-- Phrases that are no shorter phrase with a tail. -/
def isHead : Phrase → Bool
  | literal _ _ | name _ _ | group _ _ _ | emptyVector _ _ | vector _ _ _ | unary _ _ _ => true
  | _ => false

/-- The phrase may stand in front of the tokens `r`: it is as tight as the first of them asks. -/
def Before (d : Phrase) (r : List (Located Token)) : Prop :=
  ∃ n, d.Fits n ∧ nextLevel (r.head?.map Located.value) ≤ n

/-- What a longer phrase may stand in front of, the shorter one may with the tail in between. -/
theorem Before.of_extend {d : Phrase} {x : Tail} {r : List (Located Token)}
    (h : (d.extend x).Before r) : d.Before (x.tokens ++ r) := by
  obtain ⟨n, hn, hr⟩ := h
  obtain ⟨hx, hd, hf⟩ := fits_extend.1 hn
  exact ⟨_, hd, Nat.le_of_eq (x.nextLevel_tokens hf r)⟩

/-- In front of its continuation the tail is in order and tight enough. -/
theorem Before.tail {d : Phrase} {x : Tail} {r : List (Located Token)}
    (h : (d.extend x).Before r) :
    x.Fits ∧ nextLevel (r.head?.map Located.value) ≤ x.level := by
  obtain ⟨n, hn, hr⟩ := h
  obtain ⟨hx, hd, hf⟩ := fits_extend.1 hn
  exact ⟨hf, Nat.le_trans hr hx⟩

end Phrase

/-! ## The spine -/

/-- The phrase `e` is `d` with some more tails. -/
inductive Left (d : Phrase) : Phrase → Prop
  | refl : Left d d
  | extend {e : Phrase} (x : Tail) (h : Left d e) : Left d (e.extend x)

namespace Left

variable {d e : Phrase}

/-- The first of the tails, if there are any. -/
theorem eq_or_extend (h : Left d e) : d = e ∨ ∃ x, Left (d.extend x) e := by
  induction h with
  | refl => exact .inl rfl
  | extend x h ih =>
    rcases ih with rfl | ⟨y, hy⟩
    · exact .inr ⟨x, .refl⟩
    · exact .inr ⟨y, .extend x hy⟩

/-- A phrase on the left spine of one in order is in order itself, on the same level. -/
theorem fits {n : Nat} (h : Left d e) (he : e.Fits n) : d.Fits n := by
  induction h with
  | refl => exact he
  | extend x h ih =>
    obtain ⟨hx, he', -⟩ := Phrase.fits_extend.1 he
    exact ih (he'.mono (Nat.le_trans hx (Nat.le_max_left _ _)))

/-- What may stand behind a phrase is also right for the shorter phrases on its spine. -/
theorem before {r : List (Located Token)} (h : Left d e) (he : e.Before r) :
    ∃ us, e.tokens = d.tokens ++ us ∧ d.Before (us ++ r) := by
  induction h generalizing r with
  | refl => exact ⟨[], (List.append_nil _).symm, he⟩
  | extend x h ih =>
    obtain ⟨us, hus, hd⟩ := ih he.of_extend
    refine ⟨us ++ x.tokens, ?_, ?_⟩
    · rw [Phrase.tokens_extend, hus, List.append_assoc]
    · rwa [List.append_assoc]

/-- Where the next token is too loose for a tail, there is none. -/
theorem eq_of_nextLevel_lt {n : Nat} {r r' : List (Located Token)} (h : Left d e) (he : e.Fits n)
    (hr : nextLevel (r.head?.map Located.value) < max n 1)
    (ht : d.tokens ++ r = e.tokens ++ r') : d = e := by
  rcases h.eq_or_extend with rfl | ⟨x, hx⟩
  · rfl
  · obtain ⟨hn, -, hf⟩ := Phrase.fits_extend.1 (hx.fits he)
    obtain ⟨us, hus, -⟩ := hx.before (r := []) ⟨0, (he.mono (Nat.zero_le n)), Nat.le_refl 0⟩
    rw [hus, Phrase.tokens_extend, List.append_assoc, List.append_assoc] at ht
    rw [List.append_cancel_left ht, x.nextLevel_tokens hf] at hr
    omega

/-- Every phrase has a head. -/
theorem exists_head : (e : Phrase) → ∃ d, d.isHead = true ∧ Left d e
  | .member o p x q => (exists_head o).imp fun _ h => ⟨h.1, h.2.extend (.member p x q)⟩
  | .emptyCall f p q => (exists_head f).imp fun _ h => ⟨h.1, h.2.extend (.emptyCall p q)⟩
  | .call f p as q => (exists_head f).imp fun _ h => ⟨h.1, h.2.extend (.call p as q)⟩
  | .index o p i q => (exists_head o).imp fun _ h => ⟨h.1, h.2.extend (.index p i q)⟩
  | .binary l t op r => (exists_head l).imp fun _ h => ⟨h.1, h.2.extend (.binary t op r)⟩
  | .question c p y q n =>
    (exists_head c).imp fun _ h => ⟨h.1, h.2.extend (.question p y q n)⟩
  | .ifElse y p c q n => (exists_head y).imp fun _ h => ⟨h.1, h.2.extend (.ifElse p c q n)⟩
  | .literal _ _ | .name _ _ | .group _ _ _ | .emptyVector _ _ | .vector _ _ _ | .unary _ _ _ =>
    ⟨_, rfl, .refl⟩

end Left

end MapExpr
