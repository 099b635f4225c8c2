import MapExpr.Expr

/-!
# The nodes of a tree

`Expr.nodes` lists a tree and everything below it. Two things are read off the nodes: the names of
the variables among them (`Expr.names`), on which alone the value of the tree depends, and their
places (`Expr.positions`), one of which every fault of the tree is reported at.

A `Frame` is a node with one of its children taken out. A way from the root of a tree down to one
of its nodes passes through frames, so `s.within ks` is the tree that has `s` at the end of the way
`ks`, and putting another tree there leaves the frames as they are. Every occurrence of a tree in
another one is of this form (`mem_nodes_iff`).
-/

namespace MapExpr

namespace Expr

mutual

/-- A tree and all that is below it. -/
def nodes : Expr → List Expr
  | literal v p => [literal v p]
  | vector es p => vector es p :: nodesAll es
  | var x p => [var x p]
  | member e x p => member e x p :: e.nodes
  | index e i p => index e i p :: (e.nodes ++ i.nodes)
  | call f as site => call f as site :: (f.nodes ++ nodesAll as)
  | unary op e p => unary op e p :: e.nodes
  | binary op l r p => binary op l r p :: (l.nodes ++ r.nodes)
  | conditional c y n p => conditional c y n p :: (c.nodes ++ (y.nodes ++ n.nodes))

/-- Several trees and all that is below them. -/
def nodesAll : List Expr → List Expr
  | [] => []
  | e :: es => e.nodes ++ nodesAll es

end

/-- The name of a variable. -/
def name? : Expr → Option String
  | var x _ => some x
  | _ => none

/-- The names of the variables in a tree. -/
def names (e : Expr) : List String := e.nodes.filterMap name?

@[inherit_doc names]
def namesAll (es : List Expr) : List String := (nodesAll es).filterMap name?

/-- The places of the nodes of a tree. -/
def positions (e : Expr) : List Position := e.nodes.map position

@[inherit_doc positions]
def positionsAll (es : List Expr) : List Position := (nodesAll es).map position

variable {e f i l r c y n : Expr} {es as : List Expr} {x : String} {p : Position}

/-! ## Names and places of each kind of node

The names of a node are those of its children, and its places are its own one and then theirs.
-/

section Simp

@[simp] theorem names_literal {v : Literal} : (literal v p).names = [] := rfl

@[simp] theorem names_vector : (vector es p).names = namesAll es := rfl

@[simp] theorem names_var : (var x p).names = [x] := rfl

@[simp] theorem names_member : (member e x p).names = e.names := rfl

@[simp] theorem names_index : (index e i p).names = e.names ++ i.names :=
  List.filterMap_append

@[simp] theorem names_call {site : CallSite} : (call f as site).names = f.names ++ namesAll as :=
  List.filterMap_append

@[simp] theorem names_unary {op : UnaryOp} : (unary op e p).names = e.names := rfl

@[simp] theorem names_binary {op : BinaryOp} : (binary op l r p).names = l.names ++ r.names :=
  List.filterMap_append

@[simp] theorem names_conditional :
    (conditional c y n p).names = c.names ++ (y.names ++ n.names) := by
  show (c.nodes ++ (y.nodes ++ n.nodes)).filterMap name? = _
  rw [List.filterMap_append, List.filterMap_append]
  rfl

@[simp] theorem namesAll_nil : namesAll [] = [] := rfl

@[simp] theorem namesAll_cons : namesAll (e :: es) = e.names ++ namesAll es :=
  List.filterMap_append

@[simp] theorem positions_literal {v : Literal} : (literal v p).positions = [p] := rfl

@[simp] theorem positions_vector : (vector es p).positions = p :: positionsAll es := rfl

@[simp] theorem positions_var : (var x p).positions = [p] := rfl

@[simp] theorem positions_member : (member e x p).positions = p :: e.positions := rfl

@[simp] theorem positions_index : (index e i p).positions = p :: (e.positions ++ i.positions) :=
  congrArg (p :: ·) List.map_append

@[simp] theorem positions_call {site : CallSite} :
    (call f as site).positions = site.position :: (f.positions ++ positionsAll as) :=
  congrArg (site.position :: ·) List.map_append

@[simp] theorem positions_unary {op : UnaryOp} : (unary op e p).positions = p :: e.positions := rfl

@[simp] theorem positions_binary {op : BinaryOp} :
    (binary op l r p).positions = p :: (l.positions ++ r.positions) :=
  congrArg (p :: ·) List.map_append

@[simp] theorem positions_conditional :
    (conditional c y n p).positions = p :: (c.positions ++ (y.positions ++ n.positions)) := by
  show p :: (c.nodes ++ (y.nodes ++ n.nodes)).map position = _
  rw [List.map_append, List.map_append]
  rfl

@[simp] theorem positionsAll_nil : positionsAll [] = [] := rfl

@[simp] theorem positionsAll_cons : positionsAll (e :: es) = e.positions ++ positionsAll es :=
  List.map_append

end Simp

/-- A tree is a node of itself. -/
theorem mem_nodes_self (e : Expr) : e ∈ e.nodes := by
  cases e <;> exact List.mem_cons_self

/-- The place of a tree is one of its places. -/
theorem position_mem_positions (e : Expr) : e.position ∈ e.positions :=
  List.mem_map_of_mem e.mem_nodes_self

/-- The nodes of two lists of trees are those of one list and then of the other. -/
@[simp] theorem nodesAll_append (es fs : List Expr) :
    nodesAll (es ++ fs) = nodesAll es ++ nodesAll fs := by
  induction es with
  | nil => rfl
  | cons e es ih => rw [List.cons_append, nodesAll, nodesAll, ih, List.append_assoc]

/-- The names of two lists of trees are those of one list and then of the other. -/
@[simp] theorem namesAll_append (es fs : List Expr) :
    namesAll (es ++ fs) = namesAll es ++ namesAll fs := by
  rw [namesAll, nodesAll_append, List.filterMap_append]
  rfl

end Expr

/-! ## Addressed trees -/

namespace Expr

/-- Addressing a tree does not move it. -/
theorem position_addressAt (path : List Nat) (e : Expr) :
    (e.addressAt path).position = e.position := by
  cases e <;> rfl

/-- Addressing a tree does not rename its variables. -/
theorem name?_addressAt (path : List Nat) (e : Expr) : (e.addressAt path).name? = e.name? := by
  cases e <;> rfl

section Addressed

variable {α : Type} {f : Expr → α}

mutual

/-- What is read off each node by itself is the same after the calls have been addressed. -/
theorem map_nodes_addressAt (hf : ∀ path e, f (addressAt path e) = f e) :
    (path : List Nat) → (e : Expr) → (e.addressAt path).nodes.map f = e.nodes.map f
  | _, literal _ _ | _, var _ _ => rfl
  | path, vector es p =>
    List.cons_eq_cons.2 ⟨hf path (vector es p), map_nodesAll_addressAll hf path 0 es⟩
  | path, member e x p =>
    List.cons_eq_cons.2 ⟨hf path (member e x p), map_nodes_addressAt hf _ e⟩
  | path, index e i p => by
    refine List.cons_eq_cons.2 ⟨hf path (index e i p), ?_⟩
    rw [List.map_append, List.map_append, map_nodes_addressAt hf _ e, map_nodes_addressAt hf _ i]
  | path, call g as site => by
    refine List.cons_eq_cons.2 ⟨hf path (call g as site), ?_⟩
    rw [List.map_append, List.map_append, map_nodes_addressAt hf _ g,
      map_nodesAll_addressAll hf path 1 as]
  | path, unary op e p =>
    List.cons_eq_cons.2 ⟨hf path (unary op e p), map_nodes_addressAt hf _ e⟩
  | path, binary op l r p => by
    refine List.cons_eq_cons.2 ⟨hf path (binary op l r p), ?_⟩
    rw [List.map_append, List.map_append, map_nodes_addressAt hf _ l, map_nodes_addressAt hf _ r]
  | path, conditional c y n p => by
    refine List.cons_eq_cons.2 ⟨hf path (conditional c y n p), ?_⟩
    rw [List.map_append, List.map_append, List.map_append, List.map_append,
      map_nodes_addressAt hf _ c, map_nodes_addressAt hf _ y, map_nodes_addressAt hf _ n]

/-- What addressing does not change at a node, it does not change in several trees. -/
theorem map_nodesAll_addressAll (hf : ∀ path e, f (addressAt path e) = f e) :
    (path : List Nat) → (i : Nat) → (es : List Expr) →
    (nodesAll (addressAll path i es)).map f = (nodesAll es).map f
  | _, _, [] => rfl
  | path, i, e :: es => by
    rw [addressAll, nodesAll, nodesAll, List.map_append, List.map_append,
      map_nodes_addressAt hf _ e, map_nodesAll_addressAll hf path (i + 1) es]

end

end Addressed

/-- Telling the calls how they are reached moves no node. -/
theorem positions_addressAt (path : List Nat) (e : Expr) :
    (e.addressAt path).positions = e.positions :=
  map_nodes_addressAt position_addressAt path e

theorem names_addressAt (path : List Nat) (e : Expr) : (e.addressAt path).names = e.names := by
  have hmap : ∀ es : List Expr, es.filterMap name? = (es.map name?).filterMap id := by
    intro es
    rw [List.filterMap_map]
    rfl
  rw [names, names, hmap, hmap, map_nodes_addressAt name?_addressAt]

end Expr

/-! ## Ways into a tree -/

/-- A node with one of its children taken out. -/
inductive Frame where
  /-- `[before, _, after]` -/
  | element (before after : List Expr) (pos : Position)
  /-- `_.name` -/
  | owner (name : String) (pos : Position)
  /-- `_[index]` -/
  | indexed (index : Expr) (pos : Position)
  /-- `object[_]` -/
  | index (object : Expr) (pos : Position)
  /-- `_(arguments)` -/
  | callee (arguments : List Expr) (site : CallSite)
  /-- `callee(before, _, after)` -/
  | argument (callee : Expr) (before after : List Expr) (site : CallSite)
  | operand (op : UnaryOp) (pos : Position)
  | left (op : BinaryOp) (right : Expr) (pos : Position)
  | right (op : BinaryOp) (left : Expr) (pos : Position)
  /-- `_ ? yes : no` -/
  | condition (yes no : Expr) (pos : Position)
  /-- `condition ? _ : no` -/
  | yes (condition no : Expr) (pos : Position)
  /-- `condition ? yes : _` -/
  | no (condition yes : Expr) (pos : Position)

namespace Frame

/-- The node with a child put in. -/
def fill : Frame → Expr → Expr
  | element before after p, e => .vector (before ++ e :: after) p
  | owner name p, e => .member e name p
  | indexed i p, e => .index e i p
  | index o p, e => .index o e p
  | callee as site, e => .call e as site
  | argument f before after site, e => .call f (before ++ e :: after) site
  | operand op p, e => .unary op e p
  | left op r p, e => .binary op e r p
  | right op l p, e => .binary op l e p
  | condition y n p, e => .conditional e y n p
  | yes c n p, e => .conditional c e n p
  | no c y p, e => .conditional c y e p

/-- The children that have been left in. -/
def siblings : Frame → List Expr
  | element before after _ => before ++ after
  | owner _ _ | operand _ _ => []
  | indexed e _ | index e _ | left _ e _ | right _ e _ => [e]
  | callee as _ => as
  | argument f before after _ => f :: (before ++ after)
  | condition e f _ | yes e f _ | no e f _ => [e, f]

variable {e s : Expr} {x : String}

/-- The place of a node does not depend on its children. -/
theorem position_fill (k : Frame) (e s : Expr) : (k.fill e).position = (k.fill s).position := by
  cases k <;> rfl

/-- The names of a filled frame are those of the child and of the siblings. -/
theorem mem_names_fill {k : Frame} :
    x ∈ (k.fill e).names ↔ x ∈ e.names ∨ x ∈ Expr.namesAll k.siblings := by
  cases k <;> simp [fill, siblings, or_left_comm, or_comm]

/-- What is below a child is below the node. -/
theorem mem_nodes_fill {k : Frame} (h : s ∈ e.nodes) : s ∈ (k.fill e).nodes := by
  cases k <;> simp [fill, Expr.nodes, Expr.nodesAll_append, Expr.nodesAll, h]

end Frame

namespace Expr

/-- The tree that is reached through the frames, the outermost of them first. -/
def within (s : Expr) (ks : List Frame) : Expr := ks.foldr Frame.fill s

@[simp] theorem within_nil (s : Expr) : s.within [] = s := rfl

@[simp] theorem within_cons (s : Expr) (k : Frame) (ks : List Frame) :
    s.within (k :: ks) = k.fill (s.within ks) := rfl

/-- Two trees at one place stay so at the end of a way. -/
theorem position_within {s t : Expr} (h : t.position = s.position) (ks : List Frame) :
    (t.within ks).position = (s.within ks).position := by
  cases ks with
  | nil => exact h
  | cons k ks => exact k.position_fill _ _

/-- One more step on the way, at the upper end. -/
private theorem exists_within_cons {s e : Expr} (k : Frame) (h : ∃ ks, s.within ks = e) :
    ∃ ks, s.within ks = k.fill e := by
  obtain ⟨ks, rfl⟩ := h
  exact ⟨k :: ks, rfl⟩

mutual

/-- Every node of a tree is reached through some frames. -/
private theorem exists_within {s : Expr} : (e : Expr) → s ∈ e.nodes → ∃ ks, s.within ks = e
  | literal _ _, h | var _ _, h => ⟨[], List.mem_singleton.1 h⟩
  | vector es p, h => by
    rcases List.mem_cons.1 h with rfl | h
    · exact ⟨[], rfl⟩
    · obtain ⟨before, e, after, rfl, he⟩ := exists_withinAll es h
      exact exists_within_cons (.element before after p) he
  | member e x p, h => by
    rcases List.mem_cons.1 h with rfl | h
    · exact ⟨[], rfl⟩
    · exact exists_within_cons (.owner x p) (exists_within e h)
  | index e i p, h => by
    rcases List.mem_cons.1 h with rfl | h
    · exact ⟨[], rfl⟩
    · rcases List.mem_append.1 h with h | h
      · exact exists_within_cons (.indexed i p) (exists_within e h)
      · exact exists_within_cons (.index e p) (exists_within i h)
  | call f as site, h => by
    rcases List.mem_cons.1 h with rfl | h
    · exact ⟨[], rfl⟩
    · rcases List.mem_append.1 h with h | h
      · exact exists_within_cons (.callee as site) (exists_within f h)
      · obtain ⟨before, e, after, rfl, he⟩ := exists_withinAll as h
        exact exists_within_cons (.argument f before after site) he
  | unary op e p, h => by
    rcases List.mem_cons.1 h with rfl | h
    · exact ⟨[], rfl⟩
    · exact exists_within_cons (.operand op p) (exists_within e h)
  | binary op l r p, h => by
    rcases List.mem_cons.1 h with rfl | h
    · exact ⟨[], rfl⟩
    · rcases List.mem_append.1 h with h | h
      · exact exists_within_cons (.left op r p) (exists_within l h)
      · exact exists_within_cons (.right op l p) (exists_within r h)
  | conditional c y n p, h => by
    rcases List.mem_cons.1 h with rfl | h
    · exact ⟨[], rfl⟩
    · simp only [List.mem_append] at h
      rcases h with h | h | h
      · exact exists_within_cons (.condition y n p) (exists_within c h)
      · exact exists_within_cons (.yes c n p) (exists_within y h)
      · exact exists_within_cons (.no c y p) (exists_within n h)

/-- Every node of several trees is reached in one of them. -/
private theorem exists_withinAll {s : Expr} : (es : List Expr) → s ∈ nodesAll es →
    ∃ before e after, es = before ++ e :: after ∧ ∃ ks, s.within ks = e
  | [], h => absurd h List.not_mem_nil
  | e :: es, h => by
    rcases List.mem_append.1 h with h | h
    · exact ⟨[], e, es, rfl, exists_within e h⟩
    · obtain ⟨before, f, after, rfl, hf⟩ := exists_withinAll es h
      exact ⟨e :: before, f, after, rfl, hf⟩

end

/-- The nodes of a tree are what its ways lead to. -/
theorem mem_nodes_iff {s e : Expr} : s ∈ e.nodes ↔ ∃ ks, s.within ks = e := by
  refine ⟨exists_within e, ?_⟩
  rintro ⟨ks, rfl⟩
  induction ks with
  | nil => exact s.mem_nodes_self
  | cons k ks ih => exact Frame.mem_nodes_fill ih

theorem names_subset_of_mem_nodes {s e : Expr} (h : s ∈ e.nodes) : s.names ⊆ e.names := by
  obtain ⟨ks, rfl⟩ := mem_nodes_iff.1 h
  induction ks with
  | nil => exact List.Subset.refl _
  | cons k ks ih =>
    have hs := ih (mem_nodes_iff.2 ⟨ks, rfl⟩)
    exact fun x hx => Frame.mem_names_fill.2 (Or.inl (hs hx))

end Expr

end MapExpr
