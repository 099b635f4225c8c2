import MapExpr.Proofs.Parsing.Moves

/-!
# What stays at the bottom of the stack

A rule joins the last pieces of the stack into one and does not touch those below them, and finished
entries are joined with other entries only (`Rule.joins`). So the first entry that has been
finished stays the first one of the entries at the bottom, whatever is read afterwards
(`Stack.Rests.run`).
-/

namespace MapExpr

/-- Whether a piece is made of finished entries. -/
def Item.isEntries : Item → Bool
  | .entries _ => true
  | _ => false

/-- The pieces that a rule joins: the last ones of the stack, in the place of which a single one
stands afterwards. -/
inductive Joins : Stack → Stack → Prop
  | pieces {w : List Item} (i : Item) (s : Stack) (hw : w ≠ [])
      (he : ∀ j ∈ w, j.isEntries = false) : Joins (w ++ s) (i :: s)
  | entries (later earlier : List Assignment) (s : Stack) :
      Joins (.entries later :: .entries earlier :: s) (.entries (later ++ earlier) :: s)

variable {form : Form} {next : Option Token} {s t : Stack} {a : Assignment}

/-- Pieces without entries among them are joined. -/
private theorem joins_of_all {w : List Item} {i : Item} (hw : w ≠ [])
    (he : w.all (fun j => !j.isEntries) = true) : Joins (w ++ s) (i :: s) :=
  .pieces i s hw fun j hj => by simpa using List.all_eq_true.1 he j hj

/-- Every rule joins the last pieces of the stack. -/
theorem Rule.joins (h : Rule form next s t) : Joins s t := by
  cases h with
  | var => exact joins_of_all (w := [_]) nofun rfl
  | emptyVector | unary => exact joins_of_all (w := [_, _]) nofun rfl
  | member | emptyCall | group | vectorOne | vector | binary | pair | list =>
    exact joins_of_all (w := [_, _, _]) nofun rfl
  | callOne | call | index | entry => exact joins_of_all (w := [_, _, _, _]) nofun rfl
  | question | ifElse => exact joins_of_all (w := [_, _, _, _, _]) nofun rfl
  | join => exact .entries _ _ _

namespace Stack

/-- At the bottom of the stack are finished entries, the first of which is `a`. -/
def Rests (a : Assignment) (s : Stack) : Prop :=
  ∃ as, s.getLast? = some (.entries as) ∧ as.getLast? = some a

namespace Rests

/-- A piece on top leaves the bottom as it is. -/
theorem cons (h : Rests a s) (i : Item) : Rests a (i :: s) := by
  obtain ⟨as, hs, ha⟩ := h
  have hne : s ≠ [] := by
    rintro rfl
    cases hs
  refine ⟨as, ?_, ha⟩
  rw [List.getLast?_cons_of_ne_nil hne, hs]

/-- Joining the last pieces leaves the first entry at the bottom. -/
theorem joins (h : Rests a s) (hj : Joins s t) : Rests a t := by
  obtain ⟨as, hs, ha⟩ := h
  cases hj with
  | @pieces w i s hw he =>
    cases s with
    | nil =>
      -- The last piece of all would be one of those that are joined.
      rw [List.append_nil] at hs
      cases he _ (List.mem_of_getLast? hs)
    | cons j s =>
      refine cons ⟨as, ?_, ha⟩ i
      rw [List.getLast?_append, List.getLast?_cons] at hs
      exact List.getLast?_cons.trans hs
  | entries later earlier s =>
    cases s with
    | nil =>
      obtain rfl : earlier = as := Item.entries.inj (Option.some.inj hs)
      refine ⟨later ++ earlier, rfl, ?_⟩
      rw [List.getLast?_append, ha]
      rfl
    | cons j s => exact ⟨as, hs, ha⟩

/-- However many rules are applied, the first entry stays at the bottom. -/
theorem reduce (h : Rests a s) : Rests a (reduce form next s) := by
  fun_induction MapExpr.reduce form next s with
  | case1 s t hr ih => exact ih (h.joins (rule_of_reduceOnce hr).joins)
  | case2 s hr => exact h

/-- Reading a token leaves the first entry at the bottom. -/
theorem step {u : Located Token} (h : Rests a s) (hs : s.step form u next = .ok t) :
    Rests a t := by
  obtain ⟨-, rfl, -⟩ := step_eq_ok_iff.1 hs
  exact (h.cons _).reduce

/-- The first finished entry stays where it is. -/
theorem run {ts : List (Located Token)} (h : Rests a s) (hs : s.run form ts = .ok t) :
    Rests a t := by
  induction ts generalizing s with
  | nil =>
    cases hs
    exact h
  | cons u ts ih =>
    rw [Stack.run] at hs
    split at hs
    · cases hs
    · next s' hs' => exact ih (h.step hs') hs

/-- Entries are no expression, so they are the first thing that is left over. -/
theorem leftover?_eq (h : Rests a s) : s.leftover? = some a.position := by
  obtain ⟨as, hs, ha⟩ := h
  rw [List.getLast?_eq_head?_reverse] at hs
  obtain ⟨w, hw⟩ := List.head?_eq_some_iff.1 hs
  have hp : Item.position? (.entries as) = some a.position := by
    rw [Item.position?, ha]
    rfl
  rw [leftover?, hw, List.filter_cons_of_pos rfl, List.findSome?_cons, hp]

end Rests

end Stack

end MapExpr
