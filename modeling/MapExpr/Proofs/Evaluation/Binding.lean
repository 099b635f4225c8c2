import MapExpr.Proofs.Command.Settings

/-!
# Bound names and the texts that refer to them

A text passes as an identifier if it is one with blanks around it (`isIdentifier_iff_isName`),
since the scanner skips these. As an expression such a text stands for the name without the blanks,
but binding takes the text as it is. So what has been bound under an accepted text is found again
through this text only if there are no blanks to take off
(`Context.evaluate_bind_of_isIdentifier`).
-/

namespace MapExpr

variable {x y : String} {w w' cs : List Char}

/-- The text without the blanks at its ends. -/
def withoutBlanks (x : String) : String :=
  String.ofList ((x.toList.dropWhile Lexeme.isBlank).rdropWhile Lexeme.isBlank)

/-- Every text is the one without its outer blanks, between two runs of blanks. -/
theorem exists_blanks_around (x : String) : ∃ w w', (∀ c ∈ w, c ∈ blanks) ∧
    (∀ c ∈ w', c ∈ blanks) ∧ x.toList = w ++ ((withoutBlanks x).toList ++ w') := by
  refine ⟨x.toList.takeWhile Lexeme.isBlank,
    (x.toList.dropWhile Lexeme.isBlank).rtakeWhile Lexeme.isBlank, fun c hc => ?_,
    fun c hc => ?_, ?_⟩
  · exact mem_blanks_iff.2 (List.mem_takeWhile_imp hc)
  · exact mem_blanks_iff.2 (List.mem_rtakeWhile_imp hc)
  · rw [withoutBlanks, String.toList_ofList, List.rdropWhile_append_rtakeWhile,
      List.takeWhile_append_dropWhile]

/-- Blanks in front of a text that does not begin with one are dropped, and nothing else. -/
theorem dropWhile_blanks_append (hw : ∀ c ∈ w, c ∈ blanks) (hcs : ∀ c ∈ cs.head?, c ∉ blanks) :
    (w ++ cs).dropWhile Lexeme.isBlank = cs := by
  rw [List.dropWhile_append_of_pos fun c hc => mem_blanks_iff.1 (hw c hc)]
  cases cs with
  | nil => rfl
  | cons c cs => exact List.dropWhile_cons_of_neg fun hc => hcs c rfl (mem_blanks_iff.2 hc)

/-- A name is what is left of a text when the blanks around the name are taken off. -/
theorem IsName.withoutBlanks_eq (hy : IsName y) (hw : ∀ c ∈ w, c ∈ blanks)
    (hw' : ∀ c ∈ w', c ∈ blanks) (hx : x.toList = w ++ (y.toList ++ w')) :
    withoutBlanks x = y := by
  have hblank : ∀ c ∈ y.toList, c ∉ blanks := fun c hc hb =>
    hy.isWord.not_mem (mem_separators_of_mem_blanks hb) hc
  have hhead : ∀ c ∈ (y.toList ++ w').head?, c ∉ blanks := by
    intro c hc
    rw [List.head?_append_of_ne_nil _ hy.spells.ne_nil] at hc
    exact hblank c (List.mem_of_mem_head? hc)
  have hlast : ∀ c ∈ y.toList.reverse.head?, c ∉ blanks := fun c hc =>
    hblank c (List.mem_reverse.1 (List.mem_of_mem_head? hc))
  have hback : (y.toList ++ w').rdropWhile Lexeme.isBlank = y.toList := by
    rw [List.rdropWhile, List.reverse_append,
      dropWhile_blanks_append (fun c hc => hw' c (List.mem_reverse.1 hc)) hlast,
      List.reverse_reverse]
  rw [withoutBlanks, hx, dropWhile_blanks_append hw hhead, hback, String.ofList_toList]

/-- A name has no blanks around it. -/
theorem IsName.withoutBlanks_self (hx : IsName x) : withoutBlanks x = x :=
  hx.withoutBlanks_eq (List.forall_mem_nil _) (List.forall_mem_nil _) (List.append_nil _).symm

/-- The texts that pass as identifiers are the names with blanks around them. -/
theorem isIdentifier_iff_isName : isIdentifier x = true ↔ IsName (withoutBlanks x) := by
  rw [isIdentifier_iff]
  constructor
  · rintro ⟨w, y, w', hw, hw', hy, hx⟩
    rwa [hy.withoutBlanks_eq hw hw' hx]
  · intro hname
    obtain ⟨w, w', hw, hw', hx⟩ := exists_blanks_around x
    exact ⟨w, _, w', hw, hw', hname, hx⟩

/-- A text that passes as an identifier is read as the variable without the blanks. -/
theorem exists_readExpression_of_isIdentifier (h : isIdentifier x = true) :
    ∃ p, readExpression x = .ok (.var (withoutBlanks x) p) := by
  obtain ⟨w, w', hw, hw', hx⟩ := exists_blanks_around x
  exact ⟨_, readExpression_of_tokenize
    ((isIdentifier_iff_isName.1 h).tokenize_between_blanks hw hw' hx .expression)⟩

namespace Context

variable {H : Host} {c : Context H}

/-- A text that passes as an identifier evaluates to what the name in it stands for. -/
theorem evaluate_of_isIdentifier (h : isIdentifier x = true) :
    c.evaluate x = .ok (c.lookup (withoutBlanks x)) := by
  obtain ⟨p, hp⟩ := exists_readExpression_of_isIdentifier h
  rw [evaluate_of_readExpression hp]
  rfl

/-- A name that has been bound stands for its value, and the other names stand for what they did. -/
theorem lookup_bind (c : Context H) (x y : String) (v : Value H) :
    (c.bind x v).lookup y = if y = x then v else c.lookup y := by
  rw [lookup, resolve_bind]
  split <;> rfl

/-- A text passes as an identifier if and only if it is a name with blanks around it. Evaluated
after a value has been bound under it, it gives this value if it has no blanks, and else what the
name inside stands for, which binding the text has not changed. So the value is found again,
whatever it is, if and only if the text is a name. -/
theorem evaluate_bind_of_isIdentifier (c : Context H) (x : String) :
    (isIdentifier x = true ↔ IsName (withoutBlanks x)) ∧
    (isIdentifier x = true →
      (IsName x ↔ withoutBlanks x = x) ∧
      (∀ v, (c.bind x v).evaluate x
        = .ok (if withoutBlanks x = x then v else c.lookup (withoutBlanks x))) ∧
      ((∀ v, (c.bind x v).evaluate x = .ok v) ↔ IsName x)) := by
  refine ⟨isIdentifier_iff_isName, fun h => ?_⟩
  have hname : IsName x ↔ withoutBlanks x = x :=
    ⟨IsName.withoutBlanks_self, fun hx => hx ▸ isIdentifier_iff_isName.1 h⟩
  have hbind : ∀ v, (c.bind x v).evaluate x
      = .ok (if withoutBlanks x = x then v else c.lookup (withoutBlanks x)) := fun v => by
    rw [evaluate_of_isIdentifier h, lookup_bind]
  refine ⟨hname, hbind, fun hall => ?_, fun hx v => ?_⟩
  · rw [hname]
    by_contra hne
    -- Two values that differ cannot both be what the name inside stands for.
    have hlookup : ∀ v, c.lookup (withoutBlanks x) = v := fun v => by
      have hv := (hbind v).symm.trans (hall v)
      rw [if_neg hne] at hv
      exact Except.ok.inj hv
    cases (hlookup .none).symm.trans (hlookup (.string ""))
  · rw [hbind v, if_pos (hname.1 hx)]

/-- The text ` x` passes, but it is no name, and the number bound under it is not found again. -/
theorem isIdentifier_blank_in_front :
    isIdentifier " x" = true ∧ ¬ IsName " x" ∧
    ((empty .bare).bind " x" (.number 1)).evaluate " x" = .ok .none := by
  exact ⟨by cbv, fun h => absurd h.withoutBlanks_self (by cbv), by cbv⟩

end Context

end MapExpr
