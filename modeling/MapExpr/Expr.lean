import MapExpr.Token

/-!
# Expressions and batches

The tree of an expression. Every node carries the place of the token that introduced it: the literal
or name itself, the opening bracket of a vector, of a call or of an index, the point of a member
access, the operator, and the `?` or `if` of a conditional.
-/

namespace MapExpr

/-! ## Operators

The operators of the language with their spelling and, for those with two operands, how tightly they
bind. Two spellings of a logical operator mean the same: `Token.binaryOp?` reads `&&` as `and` and
`||` as `or`.
-/

/-- An operator in front of its only operand. -/
inductive UnaryOp where
  | negate
  | logicalNot
  /-- The bitwise complement of a whole number. It has no token and is met in trees built by hand
  only. -/
  | complement
deriving DecidableEq

/-- An operator between two operands. -/
inductive BinaryOp where
  | add
  | subtract
  | multiply
  | divide
  | remainder
  | equal
  | notEqual
  | greater
  | greaterEqual
  | less
  | lessEqual
  | and
  | or
deriving DecidableEq

namespace UnaryOp

/-- All operators of one operand. -/
def all : List UnaryOp := [negate, logicalNot, complement]

/-- The operator as it is written. -/
def spelling : UnaryOp → String
  | negate => "-"
  | logicalNot => "!"
  | complement => "~"

end UnaryOp

namespace BinaryOp

/-- All operators of two operands. -/
def all : List BinaryOp :=
  [add, subtract, multiply, divide, remainder, equal, notEqual, greater, greaterEqual, less,
   lessEqual, and, or]

/-- The operator as it is written; the logical ones are spelled as words. -/
def spelling : BinaryOp → String
  | add => "+"
  | subtract => "-"
  | multiply => "*"
  | divide => "/"
  | remainder => "%"
  | equal => "=="
  | notEqual => "!="
  | greater => ">"
  | greaterEqual => ">="
  | less => "<"
  | lessEqual => "<="
  | and => "and"
  | or => "or"

/-- How tightly an operator binds; the larger number binds tighter. -/
def precedence : BinaryOp → Nat
  | or => 1
  | and => 2
  | equal | notEqual => 3
  | greater | greaterEqual | less | lessEqual => 4
  | add | subtract => 5
  | multiply | divide | remainder => 6

end BinaryOp

/-- The operator of two operands that a token spells. The minus sign is among them: whether it
stands for a negation depends on what is in front of it. -/
def Token.binaryOp? : Token → Option BinaryOp
  | .symbol .plus => some .add
  | .symbol .minus => some .subtract
  | .symbol .star => some .multiply
  | .symbol .slash => some .divide
  | .symbol .percent => some .remainder
  | .symbol .equal => some .equal
  | .symbol .notEqual => some .notEqual
  | .symbol .greater => some .greater
  | .symbol .greaterEqual => some .greaterEqual
  | .symbol .less => some .less
  | .symbol .lessEqual => some .lessEqual
  | .symbol .doubleAmpersand | .keyword .andWord => some .and
  | .symbol .doubleBar | .keyword .orWord => some .or
  | _ => none

/-! ## Trees -/

/-- A constant that is written out in the source. -/
inductive Literal where
  | number (x : Float)
  | string (s : String)
  | none
deriving DecidableEq

/-- An expression. -/
inductive Expr where
  | literal (value : Literal) (pos : Position)
  /-- `[a, b, c]` -/
  | vector (elements : List Expr) (pos : Position)
  | var (name : String) (pos : Position)
  /-- `object.name` -/
  | member (object : Expr) (name : String) (pos : Position)
  /-- `object[index]` -/
  | index (object index : Expr) (pos : Position)
  /-- `callee(a, b, c)` -/
  | call (callee : Expr) (arguments : List Expr) (site : CallSite)
  | unary (op : UnaryOp) (operand : Expr) (pos : Position)
  | binary (op : BinaryOp) (left right : Expr) (pos : Position)
  /-- `condition ? yes : no`, or `yes if condition else no` -/
  | conditional (condition yes no : Expr) (pos : Position)

/-- The place of the outermost node. -/
def Expr.position : Expr → Position
  | literal _ p | vector _ p | var _ p | member _ _ p | index _ _ p
  | unary _ _ p | binary _ _ _ p | conditional _ _ _ p => p
  | call _ _ site => site.position

/-- An entry `name = value;` of a batch, with the place of the name. -/
structure Assignment where
  name : String
  value : Expr
  position : Position

/-! ## Addresses of calls

`Expr.addressed` writes into every call of a tree how it is reached from the root, and changes
nothing else. Afterwards no two calls of the tree have the same site (`nodup_sites_addressed`),
whatever places they claim.

The children of a node are numbered from left to right. All calls below a child end their way with
the number of the child and the way of the node, so the calls below different children differ, and
none of them has the way of the node itself.
-/

namespace Expr

mutual

/-- The tree whose root is reached by the given way. -/
def addressAt (path : List Nat) : Expr → Expr
  | literal v p => literal v p
  | vector es p => vector (addressAll path 0 es) p
  | var name p => var name p
  | member e name p => member (addressAt (0 :: path) e) name p
  | index e i p => index (addressAt (0 :: path) e) (addressAt (1 :: path) i) p
  | call f as site => call (addressAt (0 :: path) f) (addressAll path 1 as) ⟨site.position, path⟩
  | unary op e p => unary op (addressAt (0 :: path) e) p
  | binary op l r p => binary op (addressAt (0 :: path) l) (addressAt (1 :: path) r) p
  | conditional c y n p =>
    conditional (addressAt (0 :: path) c) (addressAt (1 :: path) y) (addressAt (2 :: path) n) p

/-- The children of a node that are numbered from `i` on. -/
def addressAll (path : List Nat) (i : Nat) : List Expr → List Expr
  | [] => []
  | e :: es => addressAt (i :: path) e :: addressAll path (i + 1) es

end

/-- The tree in which every call holds how it is reached. -/
def addressed (e : Expr) : Expr := e.addressAt []

mutual

/-- The calls of a tree. -/
def sites : Expr → List CallSite
  | literal _ _ | var _ _ => []
  | vector es _ => sitesAll es
  | member e _ _ | unary _ e _ => e.sites
  | index l r _ | binary _ l r _ => l.sites ++ r.sites
  | call f as site => site :: (f.sites ++ sitesAll as)
  | conditional c y n _ => c.sites ++ (y.sites ++ n.sites)

/-- The calls of several trees. -/
def sitesAll : List Expr → List CallSite
  | [] => []
  | e :: es => e.sites ++ sitesAll es

end

/-! ### Different calls have different ways -/

/-- The call is reached through a child of the node, one of those that are numbered from `i` on. -/
private def Below (path : List Nat) (i : Nat) (s : CallSite) : Prop :=
  ∃ j, i ≤ j ∧ (j :: path) <:+ s.path

/-- A call behind the child `j` is behind one of the children from `i` on, if `j` is one of them. -/
private theorem below_of_child {path : List Nat} {i j : Nat} {s : CallSite} (hij : i ≤ j)
    (h : (j :: path) <:+ s.path) : Below path i s := ⟨j, hij, h⟩

/-- Two ways that end alike and go through children of the same node go through the same child. -/
private theorem child_unique {path way : List Nat} {i j : Nat} (hi : (i :: path) <:+ way)
    (hj : (j :: path) <:+ way) : i = j := by
  have h : (i :: path) <:+ (j :: path) := List.suffix_of_suffix_length_le hi hj (by simp)
  have := h.eq_of_length (by simp)
  exact (List.cons.inj this).1

mutual

/-- Every call of an addressed tree holds the way of the tree at the end of its own. -/
private theorem suffix_of_mem_sites (path : List Nat) : (e : Expr) →
    ∀ s ∈ (addressAt path e).sites, path <:+ s.path
  | literal _ _, s, h | var _ _, s, h => by simp [addressAt, sites] at h
  | vector es _, s, h => by
    obtain ⟨j, _, hj⟩ := below_of_mem_sitesAll path 0 es s (by simpa [addressAt, sites] using h)
    exact (List.suffix_cons j path).trans hj
  | member e _ _, s, h | unary _ e _, s, h => by
    exact (List.suffix_cons 0 path).trans
      (suffix_of_mem_sites (0 :: path) e s (by simpa [addressAt, sites] using h))
  | index l r _, s, h | binary _ l r _, s, h => by
    simp only [addressAt, sites, List.mem_append] at h
    rcases h with h | h
    · exact (List.suffix_cons 0 path).trans (suffix_of_mem_sites (0 :: path) l s h)
    · exact (List.suffix_cons 1 path).trans (suffix_of_mem_sites (1 :: path) r s h)
  | call f as _, s, h => by
    simp only [addressAt, sites, List.mem_cons, List.mem_append] at h
    rcases h with rfl | h | h
    · exact List.suffix_refl path
    · exact (List.suffix_cons 0 path).trans (suffix_of_mem_sites (0 :: path) f s h)
    · obtain ⟨j, _, hj⟩ := below_of_mem_sitesAll path 1 as s h
      exact (List.suffix_cons j path).trans hj
  | conditional c y n _, s, h => by
    simp only [addressAt, sites, List.mem_append] at h
    rcases h with h | h | h
    · exact (List.suffix_cons 0 path).trans (suffix_of_mem_sites (0 :: path) c s h)
    · exact (List.suffix_cons 1 path).trans (suffix_of_mem_sites (1 :: path) y s h)
    · exact (List.suffix_cons 2 path).trans (suffix_of_mem_sites (2 :: path) n s h)

/-- Every call of addressed children is reached through one of them. -/
private theorem below_of_mem_sitesAll (path : List Nat) (i : Nat) : (es : List Expr) →
    ∀ s ∈ sitesAll (addressAll path i es), Below path i s
  | [], s, h => by simp [addressAll, sitesAll] at h
  | e :: es, s, h => by
    simp only [addressAll, sitesAll, List.mem_append] at h
    rcases h with h | h
    · exact below_of_child (Nat.le_refl i) (suffix_of_mem_sites (i :: path) e s h)
    · obtain ⟨j, hij, hj⟩ := below_of_mem_sitesAll path (i + 1) es s h
      exact below_of_child (by omega) hj

end

/-- The calls below two different children differ. -/
private theorem disjoint_of_suffix {path : List Nat} {i j : Nat} {ss ts : List CallSite}
    (hij : i ≠ j) (hs : ∀ s ∈ ss, (i :: path) <:+ s.path) (ht : ∀ s ∈ ts, (j :: path) <:+ s.path) :
    ∀ s ∈ ss, ∀ t ∈ ts, s ≠ t := by
  rintro s hsm t htm rfl
  exact hij (child_unique (hs s hsm) (ht s htm))

mutual

/-- The calls of a tree differ, wherever the tree hangs. -/
private theorem nodup_sites_addressAt (path : List Nat) : (e : Expr) →
    (addressAt path e).sites.Nodup
  | literal _ _ | var _ _ => by simp [addressAt, sites]
  | vector es _ => by simpa [addressAt, sites] using nodup_sitesAll_addressAll path 0 es
  | member e _ _ | unary _ e _ => by
    simpa [addressAt, sites] using nodup_sites_addressAt (0 :: path) e
  | index l r _ | binary _ l r _ => by
    simp only [addressAt, sites]
    exact List.nodup_append.2 ⟨nodup_sites_addressAt _ l, nodup_sites_addressAt _ r,
      disjoint_of_suffix (by decide) (suffix_of_mem_sites _ l) (suffix_of_mem_sites _ r)⟩
  | call f as site => by
    simp only [addressAt, sites]
    have hf := suffix_of_mem_sites (0 :: path) f
    have ha := below_of_mem_sitesAll path 1 as
    refine List.nodup_cons.2 ⟨fun h => ?_, List.nodup_append.2
      ⟨nodup_sites_addressAt _ f, nodup_sitesAll_addressAll path 1 as, ?_⟩⟩
    · -- every way below the node is longer than its own
      have hlen : ∃ j, (j :: path) <:+ path := by
        rcases List.mem_append.1 h with h | h
        · exact ⟨0, hf _ h⟩
        · obtain ⟨j, _, hj⟩ := ha _ h
          exact ⟨j, hj⟩
      obtain ⟨j, hj⟩ := hlen
      have := hj.length_le
      rw [List.length_cons] at this
      omega
    · rintro s hs t ht rfl
      obtain ⟨j, hj, hsuf⟩ := ha s ht
      have := child_unique (hf s hs) hsuf
      omega
  | conditional c y n _ => by
    simp only [addressAt, sites]
    have hc := suffix_of_mem_sites (0 :: path) c
    have hy := suffix_of_mem_sites (1 :: path) y
    have hn := suffix_of_mem_sites (2 :: path) n
    refine List.nodup_append.2 ⟨nodup_sites_addressAt _ c, List.nodup_append.2
      ⟨nodup_sites_addressAt _ y, nodup_sites_addressAt _ n,
        disjoint_of_suffix (by decide) hy hn⟩, fun s hs t ht => ?_⟩
    rcases List.mem_append.1 ht with ht | ht
    · exact disjoint_of_suffix (by decide) hc hy s hs t ht
    · exact disjoint_of_suffix (by decide) hc hn s hs t ht

/-- The calls below the children of one node differ. -/
private theorem nodup_sitesAll_addressAll (path : List Nat) (i : Nat) : (es : List Expr) →
    (sitesAll (addressAll path i es)).Nodup
  | [] => by simp [addressAll, sitesAll]
  | e :: es => by
    simp only [addressAll, sitesAll]
    refine List.nodup_append.2 ⟨nodup_sites_addressAt _ e, nodup_sitesAll_addressAll path _ es, ?_⟩
    rintro s hs t ht rfl
    obtain ⟨j, hj, hsuf⟩ := below_of_mem_sitesAll path (i + 1) es s ht
    have := child_unique (suffix_of_mem_sites (i :: path) e s hs) hsuf
    omega

end

/-- No two calls of an addressed tree have the same site. -/
theorem nodup_sites_addressed (e : Expr) : e.addressed.sites.Nodup :=
  nodup_sites_addressAt [] e

end Expr

end MapExpr
