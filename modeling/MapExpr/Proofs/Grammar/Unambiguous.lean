import MapExpr.Proofs.Grammar.Spine

/-!
# The grammar is unambiguous

Two phrases that begin with the same tokens lie on one spine, provided that each of them may stand
in front of what follows it. The proof follows the first of the two phrases. Its head is found
again in the second one since the first token tells heads apart, and its tails are found one after
the other since the first token tells tails apart and their inner phrases are compared in the same
way. Rows are compared like phrases.

Two phrases with the same tokens are equal then, since behind the last token no tail begins.
-/

namespace MapExpr

/-- Phrases that begin like `d` lie on one spine with it. -/
def Compares (d : Phrase) : Prop :=
  ∀ ⦃e : Phrase⦄ ⦃r r' : List (Located Token)⦄, d.Before r → e.Before r' →
    d.tokens ++ r = e.tokens ++ r' → Left d e ∨ Left e d

variable {d e o : Phrase} {n : Nat} {r r' us : List (Located Token)} {p q : Position}

/-- Phrases that begin like `d` are equal to it where no tail may follow either. -/
theorem Compares.eq (h : Compares d) (hd : d.Fits n) (he : e.Fits n)
    (hr : nextLevel (r.head?.map Located.value) < max n 1)
    (hr' : nextLevel (r'.head?.map Located.value) < max n 1)
    (ht : d.tokens ++ r = e.tokens ++ r') : d = e ∧ r = r' := by
  have heq : d = e := by
    rcases h ⟨n, hd, by omega⟩ ⟨n, he, by omega⟩ ht with hl | hl
    · exact hl.eq_of_nextLevel_lt he hr ht
    · exact (hl.eq_of_nextLevel_lt hd hr' ht.symm).symm
  subst heq
  exact ⟨rfl, List.append_cancel_left ht⟩

/-- An inner phrase ends where the first token comes that no phrase contains on its own. -/
theorem Compares.eq_of_zero (h : Compares d) (hd : d.Fits 0) (he : e.Fits 0)
    (hr : nextLevel (r.head?.map Located.value) = 0)
    (hr' : nextLevel (r'.head?.map Located.value) = 0)
    (ht : d.tokens ++ r = e.tokens ++ r') : d = e ∧ r = r' :=
  h.eq hd he (by omega) (by omega) ht

/-- Two inner phrases with a token between them are compared one after the other. -/
theorem Compares.eq_pair {d' o' : Phrase} {t t' : Located Token} (h : Compares d) (ho : Compares o)
    (hd : d.Fits 0 ∧ o.Fits 0) (hd' : d'.Fits 0 ∧ o'.Fits 0) (ht : nextLevel (some t.value) = 0)
    (ht' : nextLevel (some t'.value) = 0) (hr : nextLevel (r.head?.map Located.value) = 0)
    (hr' : nextLevel (r'.head?.map Located.value) = 0)
    (heq : d.tokens ++ t :: (o.tokens ++ r) = d'.tokens ++ t' :: (o'.tokens ++ r')) :
    d = d' ∧ t = t' ∧ o = o' := by
  have hsep : nextLevel ((t :: (o.tokens ++ r)).head?.map Located.value) = 0 := ht
  have hsep' : nextLevel ((t' :: (o'.tokens ++ r')).head?.map Located.value) = 0 := ht'
  obtain ⟨rfl, heq'⟩ := h.eq_of_zero hd.1 hd'.1 hsep hsep' heq
  obtain ⟨rfl, ho'⟩ := List.cons.inj heq'
  obtain ⟨rfl, -⟩ := ho.eq_of_zero hd.2 hd'.2 hr hr' ho'
  exact ⟨rfl, rfl, rfl⟩

/-! ## Rows -/

/-- The row `s` is `r` with some more elements. -/
inductive Row.Left (r : Row) : Row → Prop
  | refl : Row.Left r r
  | more {s : Row} (p : Position) (e : Phrase) (h : Row.Left r s) : Row.Left r (.more s p e)

namespace Row.Left

variable {r s : Row}

/-- A longer row goes on with a comma and an element. -/
theorem eq_or_more (h : Row.Left r s) : r = s ∨ ∃ p e, Row.Left (.more r p e) s := by
  induction h with
  | refl => exact .inl rfl
  | more p e h ih =>
    rcases ih with rfl | ⟨q, f, hf⟩
    · exact .inr ⟨p, e, .refl⟩
    · exact .inr ⟨q, f, .more p e hf⟩

/-- The beginning of a row in order is in order. -/
theorem fits (h : Row.Left r s) (hs : s.Fits) : r.Fits := by
  induction h with
  | refl => exact hs
  | more p e h ih => exact ih hs.1

/-- Every row has a first element. -/
theorem exists_one : (s : Row) → ∃ e, Row.Left (.one e) s
  | .one e => ⟨e, .refl⟩
  | .more s p e => (exists_one s).imp fun _ h => .more p e h

/-- Behind a part of a row there is a comma, or the end of the row. -/
theorem exists_tokens (h : Row.Left r s) (us : List (Located Token))
    (hu : Rules.endsElement (us.head?.map Located.value) = true) :
    ∃ vs, s.tokens ++ us = r.tokens ++ vs ∧
      Rules.endsElement (vs.head?.map Located.value) = true := by
  induction h generalizing us with
  | refl => exact ⟨us, rfl, hu⟩
  | @more s p e h ih =>
    obtain ⟨vs, hvs, hv⟩ := ih (⟨.symbol .comma, p⟩ :: (e.tokens ++ us)) rfl
    refine ⟨vs, ?_, hv⟩
    rw [← hvs, Row.tokens, List.append_assoc]
    rfl

/-- Where one row has its closing bracket, a longer one has a comma. -/
theorem eq_of_closer {c : Symbol} {us vs : List (Located Token)}
    (h : Row.Left r s) (hc : c = .closeParen ∨ c = .closeBracket)
    (ht : r.tokens ++ ⟨.symbol c, p⟩ :: us = s.tokens ++ ⟨.symbol c, q⟩ :: vs) : r = s := by
  have hp : Rules.endsElement (some (.symbol c)) = true := by
    rcases hc with rfl | rfl <;> rfl
  rcases h.eq_or_more with rfl | ⟨p', e, he⟩
  · rfl
  · obtain ⟨ws, hws, -⟩ := he.exists_tokens (⟨.symbol c, q⟩ :: vs) hp
    rw [hws, Row.tokens, List.append_assoc] at ht
    have hcomma := (List.cons.inj (List.append_cancel_left ht)).1
    rcases hc with rfl | rfl <;> cases hcomma

end Row.Left

/-- Rows that begin like `r` have the same elements as far as both go. -/
def RowCompares (r : Row) : Prop :=
  ∀ ⦃s : Row⦄ ⦃us vs : List (Located Token)⦄, r.Fits → s.Fits →
    Rules.endsElement (us.head?.map Located.value) = true →
    Rules.endsElement (vs.head?.map Located.value) = true →
    r.tokens ++ us = s.tokens ++ vs → Row.Left r s ∨ Row.Left s r

namespace RowCompares

/-- A row of one element begins like any row with the same first tokens. -/
theorem one (h : Compares d) : RowCompares (.one d) := by
  intro s us vs hd hs hu hv ht
  obtain ⟨e, he⟩ := Row.Left.exists_one s
  obtain ⟨ws, hws, hw⟩ := he.exists_tokens vs hv
  rw [hws] at ht
  obtain ⟨rfl, -⟩ := h.eq_of_zero hd (he.fits hs) (nextLevel_of_endsElement hu)
    (nextLevel_of_endsElement hw) ht
  exact .inl he

/-- A row with one more element goes on like the row that it is compared with. -/
theorem more {r : Row} (hr : RowCompares r) (h : Compares d) : RowCompares (.more r p d) := by
  intro s us vs hd hs hu hv ht
  have ht' : r.tokens ++ ⟨.symbol .comma, p⟩ :: (d.tokens ++ us) = s.tokens ++ vs := by
    rw [← ht, Row.tokens, List.append_assoc]
    rfl
  rcases hr hd.1 hs rfl hv ht' with hl | hl
  · rcases hl.eq_or_more with rfl | ⟨q, e, he⟩
    · exact .inr (.more p d .refl)
    · obtain ⟨ws, hws, hw⟩ := he.exists_tokens vs hv
      have hc : (⟨.symbol .comma, p⟩ : Located Token) :: (d.tokens ++ us)
          = ⟨.symbol .comma, q⟩ :: (e.tokens ++ ws) := by
        rw [hws, Row.tokens, List.append_assoc] at ht'
        exact List.append_cancel_left ht'
      obtain ⟨hp, hc⟩ := List.cons.inj hc
      obtain ⟨rfl, -⟩ := h.eq_of_zero hd.2 (he.fits hs).2 (nextLevel_of_endsElement hu)
        (nextLevel_of_endsElement hw) hc
      cases hp
      exact .inl he
  · exact .inr (.more p d hl)

/-- Two rows with a closing bracket behind them are equal. -/
theorem eq {r s : Row} {c : Symbol} {us vs : List (Located Token)} (h : RowCompares r)
    (hr : r.Fits) (hs : s.Fits) (hc : c = .closeParen ∨ c = .closeBracket)
    (ht : r.tokens ++ ⟨.symbol c, p⟩ :: us = s.tokens ++ ⟨.symbol c, q⟩ :: vs) :
    r = s ∧ p = q ∧ us = vs := by
  have hp : Rules.endsElement (some (.symbol c)) = true := by
    rcases hc with rfl | rfl <;> rfl
  have hrs : r = s := by
    rcases @h s (⟨.symbol c, p⟩ :: us) (⟨.symbol c, q⟩ :: vs) hr hs hp hp ht with hl | hl
    · exact hl.eq_of_closer hc ht
    · exact (hl.eq_of_closer hc ht.symm).symm
  subst hrs
  obtain ⟨hpq, hus⟩ := List.cons.inj (List.append_cancel_left ht)
  cases hpq
  exact ⟨rfl, rfl, hus⟩

end RowCompares

/-! ## Heads -/

/-- Heads with the same tokens in front are equal. -/
def HeadCompares (d : Phrase) : Prop :=
  ∀ ⦃e : Phrase⦄ ⦃r r' : List (Located Token)⦄, e.isHead = true → d.Before r → e.Before r' →
    d.tokens ++ r = e.tokens ++ r' → d = e

/-- A constant is no operator. -/
theorem Token.unaryOp?_of_literal? {t : Token} {v : Literal} (h : t.literal? = some v) :
    t.unaryOp? = none := by
  unfold Token.literal? at h
  split at h <;> first | rfl | cases h

/-- The first token of a phrase is no closing bracket. -/
theorem Phrase.tokens_append_ne {c : Symbol} (hd : d.Fits n)
    (hc : c = .closeParen ∨ c = .closeBracket) : d.tokens ++ r ≠ ⟨.symbol c, p⟩ :: r' := by
  intro ht
  obtain ⟨e, he, hl⟩ := Left.exists_head d
  obtain ⟨us, hus, -⟩ := hl.before (r := []) ⟨0, hd.mono (Nat.zero_le n), Nat.le_refl 0⟩
  have hf := hl.fits hd
  rw [hus, List.append_assoc] at ht
  cases e with
  | literal t v =>
    have hv := hf.2
    rw [(List.cons.inj ht).1] at hv
    rcases hc with rfl | rfl <;> cases hv
  | unary t op f =>
    have hop := hf.2.1
    rw [(List.cons.inj ht).1] at hop
    rcases hc with rfl | rfl <;> cases hop
  | name | group | emptyVector | vector => rcases hc with rfl | rfl <;> cases (List.cons.inj ht).1
  | member | emptyCall | call | index | binary | question | ifElse => cases he

/-- A row does not begin with a closing bracket. -/
theorem Row.tokens_append_ne {s : Row} {c : Symbol} (hs : s.Fits)
    (hc : c = .closeParen ∨ c = .closeBracket)
    (hr : Rules.endsElement (r.head?.map Located.value)) :
    s.tokens ++ r ≠ ⟨.symbol c, p⟩ :: r' := by
  obtain ⟨e, he⟩ := Row.Left.exists_one s
  obtain ⟨ws, hws, -⟩ := he.exists_tokens r hr
  rw [hws]
  exact Phrase.tokens_append_ne (he.fits hs) hc

namespace HeadCompares

/-- A constant is found again, since no other head begins with its token. -/
theorem literal {t : Located Token} {v : Literal} : HeadCompares (.literal t v) := by
  intro e r r' he hd he' ht
  obtain ⟨m, hm, -⟩ := hd
  obtain ⟨n, hn, -⟩ := he'
  have hv : t.value.literal? = some v := hm.2
  cases e with
  | literal u w =>
    obtain ⟨rfl, -⟩ := List.cons.inj ht
    have hw : t.value.literal? = some w := hn.2
    rw [Option.some.inj (hv.symm.trans hw)]
  | unary u op f =>
    obtain ⟨rfl, -⟩ := List.cons.inj ht
    have hop : t.value.unaryOp? = some op := hn.2.1
    rw [Token.unaryOp?_of_literal? hv] at hop
    cases hop
  | name | group | emptyVector | vector =>
    rw [(List.cons.inj ht).1] at hv
    cases hv
  | member | emptyCall | call | index | binary | question | ifElse => cases he

/-- An operator is found again, and its operand by comparison of what is behind it. -/
theorem unary {t : Located Token} {op : UnaryOp} (h : Compares o) :
    HeadCompares (.unary t op o) := by
  intro e r r' he hd he' ht
  obtain ⟨m, ⟨hm, hop, ho⟩, hr⟩ := hd
  obtain ⟨n, hn, hr'⟩ := he'
  cases e with
  | literal u w =>
    obtain ⟨rfl, -⟩ := List.cons.inj ht
    have hw : t.value.literal? = some w := hn.2
    rw [Token.unaryOp?_of_literal? hw] at hop
    cases hop
  | unary u op' f =>
    obtain ⟨rfl, ht'⟩ := List.cons.inj ht
    obtain ⟨hn, hop', hf⟩ := hn
    -- No token asks for level 7, so both operands end where no tail can follow.
    have hlt : nextLevel (r.head?.map Located.value) < max 7 1 := by
      have := nextLevel_ne_seven (r.head?.map Located.value)
      omega
    have hlt' : nextLevel (r'.head?.map Located.value) < max 7 1 := by
      have := nextLevel_ne_seven (r'.head?.map Located.value)
      omega
    obtain ⟨rfl, -⟩ := h.eq ho hf hlt hlt' ht'
    rw [Option.some.inj (hop.symm.trans hop')]
  | name | group | emptyVector | vector =>
    rw [(List.cons.inj ht).1] at hop
    cases hop
  | member | emptyCall | call | index | binary | question | ifElse => cases he

/-- A name is found again, since no other head begins with one. -/
theorem name {x : String} : HeadCompares (.name x p) := by
  intro e r r' he _ he' ht
  obtain ⟨n, hn, -⟩ := he'
  have hfst := fun u us (h : e.tokens = u :: us) => (List.cons.inj (h ▸ ht)).1
  cases e with
  | name y q => cases hfst _ _ rfl; rfl
  | literal u w => cases hfst _ _ rfl; cases hn.2
  | unary u op f => cases hfst _ _ rfl; cases hn.2.1
  | group | emptyVector | vector => cases hfst _ _ rfl
  | member | emptyCall | call | index | binary | question | ifElse => cases he

/-- A group is found again, since what is in it ends at its closing parenthesis. -/
theorem group (h : Compares o) : HeadCompares (.group p o q) := by
  intro e r r' he hd he' ht
  obtain ⟨m, hm, -⟩ := hd
  obtain ⟨n, hn, -⟩ := he'
  have hfst := fun u us (h : e.tokens = u :: us) => (List.cons.inj (h ▸ ht)).1
  cases e with
  | group p' o' q' =>
    cases hfst _ _ rfl
    have ht' : o.tokens ++ ⟨.symbol .closeParen, q⟩ :: r
        = o'.tokens ++ ⟨.symbol .closeParen, q'⟩ :: r' := by
      simpa [Phrase.tokens] using ht
    obtain ⟨rfl, hq⟩ := h.eq_of_zero hm.2 hn.2 rfl rfl ht'
    cases (List.cons.inj hq).1
    rfl
  | literal u w => cases hfst _ _ rfl; cases hn.2
  | unary u op f => cases hfst _ _ rfl; cases hn.2.1
  | name | emptyVector | vector => cases hfst _ _ rfl
  | member | emptyCall | call | index | binary | question | ifElse => cases he

/-- An empty vector is found again, since no row begins with the closing bracket. -/
theorem emptyVector : HeadCompares (.emptyVector p q) := by
  intro e r r' he _ he' ht
  obtain ⟨n, hn, -⟩ := he'
  have hfst := fun u us (h : e.tokens = u :: us) => (List.cons.inj (h ▸ ht)).1
  cases e with
  | emptyVector p' q' =>
    cases hfst _ _ rfl
    cases (List.cons.inj (List.cons.inj ht).2).1
    rfl
  | vector p' s q' =>
    have ht' : s.tokens ++ ⟨.symbol .closeBracket, q'⟩ :: r' = ⟨.symbol .closeBracket, q⟩ :: r := by
      have := (List.cons.inj ht).2
      simpa [Phrase.tokens] using this.symm
    exact absurd ht' (Row.tokens_append_ne hn.2 (.inr rfl) rfl)
  | literal u w => cases hfst _ _ rfl; cases hn.2
  | unary u op f => cases hfst _ _ rfl; cases hn.2.1
  | name | group => cases hfst _ _ rfl
  | member | emptyCall | call | index | binary | question | ifElse => cases he

/-- A vector is found again, since its row ends at the closing bracket. -/
theorem vector {s : Row} (h : RowCompares s) : HeadCompares (.vector p s q) := by
  intro e r r' he hd he' ht
  obtain ⟨m, hm, -⟩ := hd
  obtain ⟨n, hn, -⟩ := he'
  have hfst := fun u us (h : e.tokens = u :: us) => (List.cons.inj (h ▸ ht)).1
  cases e with
  | vector p' s' q' =>
    cases hfst _ _ rfl
    have ht' : s.tokens ++ ⟨.symbol .closeBracket, q⟩ :: r
        = s'.tokens ++ ⟨.symbol .closeBracket, q'⟩ :: r' := by
      simpa [Phrase.tokens] using ht
    obtain ⟨rfl, rfl, -⟩ := h.eq hm.2 hn.2 (.inr rfl) ht'
    rfl
  | emptyVector p' q' =>
    have ht' : s.tokens ++ ⟨.symbol .closeBracket, q⟩ :: r = ⟨.symbol .closeBracket, q'⟩ :: r' := by
      have := (List.cons.inj ht).2
      simpa [Phrase.tokens] using this
    exact absurd ht' (Row.tokens_append_ne hm.2 (.inr rfl) rfl)
  | literal u w => cases hfst _ _ rfl; cases hn.2
  | unary u op f => cases hfst _ _ rfl; cases hn.2.1
  | name | group => cases hfst _ _ rfl
  | member | emptyCall | call | index | binary | question | ifElse => cases he

/-- The head of the first phrase is found in the second one. -/
theorem compares (h : HeadCompares d) : Compares d := by
  intro e r r' hd he ht
  -- The head of `e` begins like `d`, so it is `d`; then `d` lies on the spine of `e`.
  obtain ⟨f, hf, hl⟩ := Left.exists_head e
  obtain ⟨us, hus, hfr⟩ := hl.before he
  rw [hus, List.append_assoc] at ht
  obtain rfl := h hf hd hfr ht
  exact .inl hl

end HeadCompares

/-! ## Tails -/

/-- Tails with the same tokens in front are equal. -/
def TailCompares (x : Tail) : Prop :=
  ∀ ⦃y : Tail⦄ ⦃r r' : List (Located Token)⦄, x.Fits → y.Fits →
    nextLevel (r.head?.map Located.value) ≤ x.level →
    nextLevel (r'.head?.map Located.value) ≤ y.level → x.tokens ++ r = y.tokens ++ r' → x = y

namespace TailCompares

/-- Tails with the same tokens in front have the same first token. -/
theorem first_eq {x y : Tail} (ht : x.tokens ++ r = y.tokens ++ r') : x.first = y.first := by
  obtain ⟨p, us, hx⟩ := x.exists_tokens
  obtain ⟨q, vs, hy⟩ := y.exists_tokens
  rw [hx, hy] at ht
  exact congrArg Located.value (List.cons.inj ht).1

/-- A tail that begins with no operator is none of an operator. -/
theorem binaryOp?_ne {x : Tail} {t : Located Token} {op : BinaryOp}
    (hx : x.first.binaryOp? = none) (hop : t.value.binaryOp? = some op) : x.first ≠ t.value := by
  intro heq
  rw [heq, hop] at hx
  cases hx

/-- A member access is found again. -/
theorem member {x : String} : TailCompares (.member p x q) := by
  intro y r r' _ hy _ _ ht
  have hfst := first_eq ht
  cases y with
  | member p' x' q' =>
    obtain ⟨hp, ht'⟩ := List.cons.inj ht
    cases hp
    cases (List.cons.inj ht').1
    rfl
  | binary t op f => exact absurd hfst (binaryOp?_ne rfl hy.1)
  | emptyCall | call | index | question | ifElse => cases hfst

/-- A call without arguments is found again, since no row begins with the closing parenthesis. -/
theorem emptyCall : TailCompares (.emptyCall p q) := by
  intro y r r' _ hy _ _ ht
  have hfst := first_eq ht
  cases y with
  | emptyCall p' q' =>
    obtain ⟨hp, ht'⟩ := List.cons.inj ht
    cases hp
    cases (List.cons.inj ht').1
    rfl
  | call p' s q' =>
    have ht' : s.tokens ++ ⟨.symbol .closeParen, q'⟩ :: r' = ⟨.symbol .closeParen, q⟩ :: r := by
      have := (List.cons.inj ht).2
      simpa [Tail.tokens] using this.symm
    exact absurd ht' (Row.tokens_append_ne hy (.inl rfl) rfl)
  | binary t op f => exact absurd hfst (binaryOp?_ne rfl hy.1)
  | member | index | question | ifElse => cases hfst

/-- A call is found again, since its row ends at the closing parenthesis. -/
theorem call {s : Row} (h : RowCompares s) : TailCompares (.call p s q) := by
  intro y r r' hx hy _ _ ht
  have hfst := first_eq ht
  cases y with
  | call p' s' q' =>
    have hp := (List.cons.inj ht).1
    have ht' : s.tokens ++ ⟨.symbol .closeParen, q⟩ :: r
        = s'.tokens ++ ⟨.symbol .closeParen, q'⟩ :: r' := by
      have := (List.cons.inj ht).2
      simpa [Tail.tokens] using this
    obtain ⟨rfl, rfl, -⟩ := h.eq hx hy (.inl rfl) ht'
    cases hp
    rfl
  | emptyCall p' q' =>
    have ht' : s.tokens ++ ⟨.symbol .closeParen, q⟩ :: r = ⟨.symbol .closeParen, q'⟩ :: r' := by
      have := (List.cons.inj ht).2
      simpa [Tail.tokens] using this
    exact absurd ht' (Row.tokens_append_ne hx (.inl rfl) rfl)
  | binary t op f => exact absurd hfst (binaryOp?_ne rfl hy.1)
  | member | index | question | ifElse => cases hfst

/-- An index is found again, since it ends at the closing bracket. -/
theorem index (h : Compares d) : TailCompares (.index p d q) := by
  intro y r r' hx hy _ _ ht
  have hfst := first_eq ht
  cases y with
  | index p' d' q' =>
    have hp := (List.cons.inj ht).1
    have ht' : d.tokens ++ ⟨.symbol .closeBracket, q⟩ :: r
        = d'.tokens ++ ⟨.symbol .closeBracket, q'⟩ :: r' := by
      have := (List.cons.inj ht).2
      simpa [Tail.tokens] using this
    obtain ⟨rfl, hq⟩ := h.eq_of_zero hx hy rfl rfl ht'
    cases hp
    cases (List.cons.inj hq).1
    rfl
  | binary t op f => exact absurd hfst (binaryOp?_ne rfl hy.1)
  | member | emptyCall | call | question | ifElse => cases hfst

/-- An operator is found again, and its right operand by comparison. -/
theorem binary {t : Located Token} {op : BinaryOp} (h : Compares d) :
    TailCompares (.binary t op d) := by
  intro y r r' hx hy hr hr' ht
  have hfst := first_eq ht
  cases y with
  | binary u op' d' =>
    obtain ⟨rfl, ht'⟩ := List.cons.inj ht
    obtain rfl := Option.some.inj (hx.1.symm.trans hy.1)
    have hlt : nextLevel (r.head?.map Located.value) < max (op.precedence + 1) 1 := by
      have : nextLevel (r.head?.map Located.value) ≤ op.precedence := hr
      omega
    have hlt' : nextLevel (r'.head?.map Located.value) < max (op.precedence + 1) 1 := by
      have : nextLevel (r'.head?.map Located.value) ≤ op.precedence := hr'
      omega
    obtain ⟨rfl, -⟩ := h.eq hx.2 hy.2 hlt hlt' ht'
    rfl
  | member | emptyCall | call | index | question | ifElse =>
    exact absurd hfst.symm (binaryOp?_ne rfl hx.1)

/-- A conditional is found again, since its first branch ends at the colon. -/
theorem question (h : Compares d) (ho : Compares o) : TailCompares (.question p d q o) := by
  intro y r r' hx hy hr hr' ht
  have hfst := first_eq ht
  cases y with
  | question p' d' q' o' =>
    have hp := (List.cons.inj ht).1
    have ht' : d.tokens ++ ⟨.symbol .colon, q⟩ :: (o.tokens ++ r)
        = d'.tokens ++ ⟨.symbol .colon, q'⟩ :: (o'.tokens ++ r') := by
      have := (List.cons.inj ht).2
      simpa [Tail.tokens] using this
    obtain ⟨rfl, hq, rfl⟩ :=
      h.eq_pair ho hx hy rfl rfl (Nat.le_zero.1 hr) (Nat.le_zero.1 hr') ht'
    cases hp
    cases hq
    rfl
  | binary t op f => exact absurd hfst (binaryOp?_ne rfl hy.1)
  | member | emptyCall | call | index | ifElse => cases hfst

/-- A conditional with the condition in the middle is found again, since this ends at `else`. -/
theorem ifElse (h : Compares d) (ho : Compares o) : TailCompares (.ifElse p d q o) := by
  intro y r r' hx hy hr hr' ht
  have hfst := first_eq ht
  cases y with
  | ifElse p' d' q' o' =>
    have hp := (List.cons.inj ht).1
    have ht' : d.tokens ++ ⟨.keyword .elseWord, q⟩ :: (o.tokens ++ r)
        = d'.tokens ++ ⟨.keyword .elseWord, q'⟩ :: (o'.tokens ++ r') := by
      have := (List.cons.inj ht).2
      simpa [Tail.tokens] using this
    obtain ⟨rfl, hq, rfl⟩ :=
      h.eq_pair ho hx hy rfl rfl (Nat.le_zero.1 hr) (Nat.le_zero.1 hr') ht'
    cases hp
    cases hq
    rfl
  | binary t op f => exact absurd hfst (binaryOp?_ne rfl hy.1)
  | member | emptyCall | call | index | question => cases hfst

/-- Behind the same operand the next tail of the second phrase is that of the first one. -/
theorem compares {x : Tail} (hx : TailCompares x) (h : Compares o) : Compares (o.extend x) := by
  intro e r r' hd he ht
  have ht' : o.tokens ++ (x.tokens ++ r) = e.tokens ++ r' := by
    rw [← ht, Phrase.tokens_extend, List.append_assoc]
  rcases h hd.of_extend he ht' with hl | hl
  · rcases hl.eq_or_extend with rfl | ⟨y, hy⟩
    · exact .inr (.extend x .refl)
    -- Both phrases go on behind `o`, so the tails that come next are compared.
    · obtain ⟨us, hus, hb⟩ := hy.before he
      have hxy : x.tokens ++ r = y.tokens ++ (us ++ r') := by
        rw [hus, Phrase.tokens_extend, List.append_assoc, List.append_assoc] at ht'
        exact List.append_cancel_left ht'
      obtain rfl := hx hd.tail.1 hb.tail.1 hd.tail.2 hb.tail.2 hxy
      exact .inl hy
  · exact .inr (.extend x hl)

end TailCompares

/-! ## All phrases -/

mutual

/-- Every phrase lies on one spine with those that begin like it. -/
theorem compares_phrase : (d : Phrase) → Compares d
  | .literal _ _ => HeadCompares.literal.compares
  | .name _ _ => HeadCompares.name.compares
  | .group _ e _ => (HeadCompares.group (compares_phrase e)).compares
  | .emptyVector _ _ => HeadCompares.emptyVector.compares
  | .vector _ s _ => (HeadCompares.vector (compares_row s)).compares
  | .unary _ _ e => (HeadCompares.unary (compares_phrase e)).compares
  | .member o _ _ _ => TailCompares.member.compares (compares_phrase o)
  | .emptyCall f _ _ => TailCompares.emptyCall.compares (compares_phrase f)
  | .call f _ s _ => (TailCompares.call (compares_row s)).compares (compares_phrase f)
  | .index o _ i _ => (TailCompares.index (compares_phrase i)).compares (compares_phrase o)
  | .binary l _ _ e => (TailCompares.binary (compares_phrase e)).compares (compares_phrase l)
  | .question c _ y _ e =>
    (TailCompares.question (compares_phrase y) (compares_phrase e)).compares (compares_phrase c)
  | .ifElse y _ c _ e =>
    (TailCompares.ifElse (compares_phrase c) (compares_phrase e)).compares (compares_phrase y)

/-- Every row has the elements of those that begin like it. -/
theorem compares_row : (s : Row) → RowCompares s
  | .one e => .one (compares_phrase e)
  | .more s _ e => .more (compares_row s) (compares_phrase e)

end

/-- A list of tokens is read in at most one way. -/
theorem Phrase.Derives.unique {ts : List (Located Token)} (hd : d.Derives ts)
    (he : e.Derives ts) : d = e := by
  have ht : d.tokens ++ [] = e.tokens ++ [] := by rw [hd.2, he.2]
  have hnil : nextLevel (([] : List (Located Token)).head?.map Located.value) = 0 := rfl
  exact ((compares_phrase d).eq_of_zero hd.1 he.1 hnil hnil ht).1

end MapExpr
