/-!
# Blank space and search in texts

What is done with texts apart from changing their case. Blank space is taken off both ends of a text
or cuts it into words, and one text is found in another one and replaced there.
-/

namespace MapExpr.Text

/-! ## Blank space

Which characters count as blank in a text that is handed to the language, and the two things that
are done with them: `trim` takes them off both ends and `words` cuts a text at them.
-/

/-- The characters that Unicode calls white space. -/
def isSpace (c : Char) : Bool :=
  let n := c.toNat
  (0x0009 ≤ n && n ≤ 0x000D) || n == 0x0020 || n == 0x0085 || n == 0x00A0 || n == 0x1680
    || (0x2000 ≤ n && n ≤ 0x200A) || n == 0x2028 || n == 0x2029 || n == 0x202F || n == 0x205F
    || n == 0x3000

/-- The characters without the blanks at both ends. -/
def trim (cs : List Char) : List Char :=
  ((cs.dropWhile isSpace).reverse.dropWhile isSpace).reverse

/-- The longest pieces without a blank, in order. -/
def words : List Char → List (List Char)
  | [] => []
  | c :: cs =>
    if isSpace c then words cs
    else (c :: cs.takeWhile fun d => !isSpace d) :: words (cs.dropWhile fun d => !isSpace d)
termination_by cs => cs.length
decreasing_by
  · simp
  · have := (List.dropWhile_sublist (fun d => !isSpace d) (l := cs)).length_le
    simp only [List.length_cons]
    omega

theorem words_nil : words [] = [] := by
  unfold words
  rfl

/-- A blank is passed over, and any other character begins a piece that reaches to the next blank.
-/
theorem words_cons (c : Char) (cs : List Char) :
    words (c :: cs) =
      if isSpace c then words cs
      else (c :: cs.takeWhile fun d => !isSpace d) ::
        words (cs.dropWhile fun d => !isSpace d) := by
  conv => lhs; unfold words

/-- Whatever `Char.isWhitespace` accepts is blank. -/
theorem isSpace_of_isWhitespace {c : Char} (h : c.isWhitespace = true) : isSpace c = true := by
  simp only [Char.isWhitespace, Bool.or_eq_true, decide_eq_true_eq] at h
  obtain ((rfl | rfl) | rfl) | rfl := h <;> decide

/-- Where a trimmed text begins and where it ends no blank stands. -/
theorem isSpace_ends_trim (cs : List Char) :
    (∀ c ∈ (trim cs).head?, isSpace c = false) ∧ ∀ c ∈ (trim cs).getLast?, isSpace c = false := by
  have hhead : ∀ ds : List Char, ∀ c ∈ (ds.dropWhile isSpace).head?, isSpace c = false := by
    intro ds c hc
    have hdrop := List.head?_dropWhile_not isSpace ds
    rw [hc] at hdrop
    exact hdrop
  refine ⟨fun c hc => ?_, fun c hc => ?_⟩
  · obtain ⟨r, hr⟩ : trim cs <+: cs.dropWhile isSpace := by
      rw [trim, ← List.reverse_suffix, List.reverse_reverse]
      exact List.dropWhile_suffix isSpace
    refine hhead cs c ?_
    rw [← hr, List.head?_append, hc]
    rfl
  · rw [trim, List.getLast?_reverse] at hc
    exact hhead _ c hc

/-- Characters that are not cut apart: there are some, and none of them is a blank. -/
def IsPiece (w : List Char) : Prop :=
  w ≠ [] ∧ ∀ c ∈ w, isSpace c = false

/-! ## Finding one text in another

Texts are compared character by character. Replacing goes from left to right, and what has been
put in is not looked at again.
-/

/-- Whether `pattern` stands somewhere in the text. -/
def contains (pattern : List Char) : List Char → Bool
  | [] => pattern.isEmpty
  | c :: cs => pattern.isPrefixOf (c :: cs) || contains pattern cs

/-- A text contains a pattern if the pattern is a run of its characters. -/
theorem contains_iff_isInfix {pattern cs : List Char} :
    contains pattern cs = true ↔ pattern <:+: cs := by
  induction cs with
  | nil => simp [contains]
  | cons c cs ih => simp [contains, ih, List.infix_cons_iff]

/-- The text with every occurrence of `p :: pattern` replaced, where the first `skip` characters
belong to the occurrence that was found last. -/
def replaceFound (p : Char) (pattern replacement : List Char) (skip : Nat) :
    List Char → List Char
  | [] => []
  | c :: cs =>
    match skip with
    | n + 1 => replaceFound p pattern replacement n cs
    | 0 =>
      if (p :: pattern).isPrefixOf (c :: cs) then
        replacement ++ replaceFound p pattern replacement pattern.length cs
      else c :: replaceFound p pattern replacement 0 cs

/-- The text with every occurrence of a pattern replaced. The empty pattern occurs before every
character and once more at the end. -/
def replace (pattern replacement cs : List Char) : List Char :=
  match pattern with
  | [] => replacement ++ cs.flatMap fun c => c :: replacement
  | p :: ps => replaceFound p ps replacement 0 cs

end MapExpr.Text
