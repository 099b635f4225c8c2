import MapExpr.Proofs.Grammar.Phrase
import MapExpr.Proofs.Number.ReadBack

/-!
# Trees that a source can hold

A tree that is built by hand may hold what no source text can express: a name with a blank in it, a
string with a quote, a negative constant, a complement. `Expr.Surface` says that there is none of
this, and the tree of a phrase is of that kind if all its tokens are spelled in a source
(`Means.surface`).

Which constants are allowed is a parameter: a source may hold any number without a sign, but the
infinite one is not written as it is displayed.
-/

namespace MapExpr

/-- The text is a word and not a keyword, whatever the case of its letters. -/
structure IsName (x : String) : Prop where
  isWord : IsWord x.toList
  notKeyword : ∀ k : Keyword, x.toList.map Char.toLower ≠ k.spelling.toList

/-- A name spells the identifier of this name. -/
theorem IsName.spells {x : String} (h : IsName x) : Spells x.toList (.identifier x) := by
  have hx := Spells.identifier h.isWord h.notKeyword
  rw [String.ofList_toList] at hx
  exact hx

namespace Expr

section Surface

variable (P : Float → Prop)

mutual

/-- The tree can stand in a source that holds only numbers in `P`. -/
def Surface : Expr → Prop
  | literal (.number x) _ => P x
  | literal (.string s) _ => '\'' ∉ s.toList
  | literal .none _ => True
  | vector es _ => SurfaceAll es
  | var x _ => IsName x
  | member o x _ => o.Surface ∧ IsName x
  | index o i _ => o.Surface ∧ i.Surface
  | call f as _ => f.Surface ∧ SurfaceAll as
  | unary op e _ => op ≠ .complement ∧ e.Surface
  | binary _ l r _ => l.Surface ∧ r.Surface
  | conditional c y n _ => c.Surface ∧ y.Surface ∧ n.Surface

/-- All these trees can stand in a source. -/
def SurfaceAll : List Expr → Prop
  | [] => True
  | e :: es => e.Surface ∧ SurfaceAll es

end

variable {P}

/-- Two lists of trees that a source can hold make one such list. -/
theorem surfaceAll_append {es fs : List Expr} (h : SurfaceAll P es) (hf : SurfaceAll P fs) :
    SurfaceAll P (es ++ fs) := by
  induction es with
  | nil => exact hf
  | cons e es ih => exact ⟨h.1, ih h.2⟩

end Surface

mutual

/-- The tree without its places. -/
def erase : Expr → Expr
  | literal v _ => literal v .start
  | vector es _ => vector (eraseAll es) .start
  | var x _ => var x .start
  | member o x _ => member o.erase x .start
  | index o i _ => index o.erase i.erase .start
  | call f as _ => call f.erase (eraseAll as) (.ofPosition .start)
  | unary op e _ => unary op e.erase .start
  | binary op l r _ => binary op l.erase r.erase .start
  | conditional c y n _ => conditional c.erase y.erase n.erase .start

/-- The trees without their places. -/
def eraseAll : List Expr → List Expr
  | [] => []
  | e :: es => e.erase :: eraseAll es

end

/-- Places are erased from two lists as from one. -/
theorem eraseAll_append (es fs : List Expr) : eraseAll (es ++ fs) = eraseAll es ++ eraseAll fs := by
  induction es with
  | nil => rfl
  | cons e es ih => exact congrArg (e.erase :: ·) ih

end Expr

/-! ## What the tokens of a source hold -/

/-- The token is spelled in some way. -/
def Token.IsSpelled (t : Token) : Prop := ∃ w, Spells w t

namespace Token.IsSpelled

/-- An identifier that is spelled is a name. -/
theorem isName {x : String} (h : IsSpelled (.identifier x)) : IsName x := by
  obtain ⟨w, h⟩ := h
  cases h with
  | identifier hw hk =>
    have hx := String.toList_ofList (l := w)
    exact ⟨hx.symm ▸ hw, hx.symm ▸ hk⟩

/-- A number that is spelled has no minus sign. -/
theorem isNonnegative {x : Float} (h : IsSpelled (.number x)) : Number.IsNonnegative x := by
  obtain ⟨w, h⟩ := h
  cases h with
  | whole | fraction => exact Number.isNonnegative_toFloat _

/-- A string that is spelled has no quote in it. -/
theorem quote_not_mem {s : String} (h : IsSpelled (.string s)) : '\'' ∉ s.toList := by
  obtain ⟨w, h⟩ := h
  cases h with
  | @string body hb =>
    rw [String.toList_ofList]
    exact hb

end Token.IsSpelled

/-- The complement has no token. -/
theorem Token.unaryOp?_ne_complement {t : Token} {op : UnaryOp} (h : t.unaryOp? = some op) :
    op ≠ .complement := by
  rintro rfl
  unfold Token.unaryOp? at h
  split at h <;> cases h

/-- A constant that a spelled token stands for can stand in a source. -/
theorem Token.surface_of_literal? {t : Token} {v : Literal} {p : Position}
    (h : t.literal? = some v) (ht : t.IsSpelled) :
    (Expr.literal v p).Surface Number.IsNonnegative := by
  unfold Token.literal? at h
  split at h
  · cases h
    exact ht.isNonnegative
  · cases h
    exact ht.quote_not_mem
  · cases h
    exact trivial
  · cases h

/-! ## Phrases -/

/-- The tokens are all spelled in some way. -/
def AllSpelled (ts : List (Located Token)) : Prop := ∀ t ∈ ts, t.value.IsSpelled

namespace AllSpelled

variable {t : Located Token} {ts us : List (Located Token)}

/-- Tokens are spelled if the first one and the others are. -/
theorem cons_iff : AllSpelled (t :: ts) ↔ t.value.IsSpelled ∧ AllSpelled ts :=
  List.forall_mem_cons

/-- Tokens are spelled if those in front and those behind are. -/
theorem append_iff : AllSpelled (ts ++ us) ↔ AllSpelled ts ∧ AllSpelled us :=
  List.forall_mem_append

end AllSpelled

mutual

/-- The tree of a phrase can stand in a source if its tokens can. -/
theorem Phrase.surface_tree : (d : Phrase) → (n : Nat) → d.Fits n → AllSpelled d.tokens →
    d.tree.Surface Number.IsNonnegative
  | .literal t v, n, h, ht => Token.surface_of_literal? h.2 (AllSpelled.cons_iff.1 ht).1
  | .name x p, n, h, ht => (AllSpelled.cons_iff.1 ht).1.isName
  | .group p e q, n, h, ht => by
    rw [Phrase.tokens, AllSpelled.cons_iff, AllSpelled.append_iff] at ht
    exact e.surface_tree 0 h.2 ht.2.1
  | .emptyVector p q, n, h, ht => trivial
  | .vector p es q, n, h, ht => by
    rw [Phrase.tokens, AllSpelled.cons_iff, AllSpelled.append_iff] at ht
    exact es.surface_trees h.2 ht.2.1
  | .member o p x q, n, h, ht => by
    rw [Phrase.tokens, AllSpelled.append_iff, AllSpelled.cons_iff, AllSpelled.cons_iff] at ht
    exact ⟨o.surface_tree 8 h.2 ht.1, ht.2.2.1.isName⟩
  | .emptyCall f p q, n, h, ht => by
    rw [Phrase.tokens, AllSpelled.append_iff] at ht
    exact ⟨f.surface_tree 8 h.2 ht.1, trivial⟩
  | .call f p as q, n, h, ht => by
    rw [Phrase.tokens, AllSpelled.append_iff, AllSpelled.cons_iff, AllSpelled.append_iff] at ht
    exact ⟨f.surface_tree 8 h.2.1 ht.1, as.surface_trees h.2.2 ht.2.2.1⟩
  | .index o p i q, n, h, ht => by
    rw [Phrase.tokens, AllSpelled.append_iff, AllSpelled.cons_iff, AllSpelled.append_iff] at ht
    exact ⟨o.surface_tree 8 h.2.1 ht.1, i.surface_tree 0 h.2.2 ht.2.2.1⟩
  | .unary t op e, n, h, ht =>
    ⟨Token.unaryOp?_ne_complement h.2.1, e.surface_tree 7 h.2.2 (AllSpelled.cons_iff.1 ht).2⟩
  | .binary l t op r, n, h, ht => by
    rw [Phrase.tokens, AllSpelled.append_iff, AllSpelled.cons_iff] at ht
    exact ⟨l.surface_tree _ h.2.2.1 ht.1, r.surface_tree _ h.2.2.2 ht.2.2⟩
  | .question c p y q e, n, h, ht => by
    rw [Phrase.tokens, AllSpelled.append_iff, AllSpelled.cons_iff, AllSpelled.append_iff,
      AllSpelled.cons_iff] at ht
    exact ⟨c.surface_tree 1 h.2.1 ht.1, y.surface_tree 0 h.2.2.1 ht.2.2.1,
      e.surface_tree 0 h.2.2.2 ht.2.2.2.2⟩
  | .ifElse y p c q e, n, h, ht => by
    rw [Phrase.tokens, AllSpelled.append_iff, AllSpelled.cons_iff, AllSpelled.append_iff,
      AllSpelled.cons_iff] at ht
    -- The condition stands behind the `if`, but comes first in the tree.
    exact ⟨c.surface_tree 0 h.2.2.1 ht.2.2.1, y.surface_tree 1 h.2.1 ht.1,
      e.surface_tree 0 h.2.2.2 ht.2.2.2.2⟩

/-- The trees of a row of spelled tokens can stand in a source. -/
theorem Row.surface_trees : (r : Row) → r.Fits → AllSpelled r.tokens →
    Expr.SurfaceAll Number.IsNonnegative r.trees
  | .one e, h, ht => ⟨e.surface_tree 0 h ht, trivial⟩
  | .more es p e, h, ht => by
    rw [Row.tokens, AllSpelled.append_iff, AllSpelled.cons_iff] at ht
    exact Expr.surfaceAll_append (es.surface_trees h.1 ht.1) ⟨e.surface_tree 0 h.2 ht.2.2, trivial⟩

end

/-- The tree that spelled tokens mean can stand in a source. -/
theorem Means.surface {n : Nat} {ts : List (Located Token)} {e : Expr} (h : Means n ts e)
    (ht : AllSpelled ts) : e.Surface Number.IsNonnegative := by
  obtain ⟨d, hd, rfl, rfl⟩ := h
  exact d.surface_tree n hd ht

end MapExpr
