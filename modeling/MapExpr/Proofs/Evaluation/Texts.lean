import MapExpr.Proofs.Evaluation.Eager
import MapExpr.Proofs.Number.ReadBack

/-!
# Values from their texts

`str` displays a value, and `vec` and `num` read what is displayed. A vector is displayed as its
components with a blank between any two, and `vec` cuts a text at its blanks; since no component is
empty or holds a blank, the pieces are the components again (`words_intercalate`). So a vector comes
back from its text whatever its components are, and so does a number (`texts_readBack`).

Not every text that `vec` reads is a displayed one. But what it makes of a text is a vector, which
comes back from its own text.
-/

namespace MapExpr

namespace Text

variable {w r : List Char}

/-- The first piece of a text ends where a blank stands behind it. -/
theorem words_append (hw : IsPiece w) (hr : ∀ c ∈ r.head?, isSpace c = true) :
    words (w ++ r) = w :: words r := by
  obtain ⟨hne, hw⟩ := hw
  obtain ⟨c, cs, rfl⟩ := List.exists_cons_of_ne_nil hne
  obtain ⟨hc, hcs⟩ := List.forall_mem_cons.1 hw
  have hcs' : ∀ d ∈ cs, (!isSpace d) = true := fun d hd => by rw [hcs d hd]; rfl
  have htake : (cs ++ r).takeWhile (fun d => !isSpace d) = cs := by
    rw [List.takeWhile_append_of_pos hcs']
    cases r with
    | nil => rw [List.takeWhile_nil, List.append_nil]
    | cons d r => rw [List.takeWhile_cons_of_neg (by simp [hr d rfl]), List.append_nil]
  have hdrop : (cs ++ r).dropWhile (fun d => !isSpace d) = r := by
    rw [List.dropWhile_append_of_pos hcs']
    cases r with
    | nil => rfl
    | cons d r => rw [List.dropWhile_cons_of_neg (by simp [hr d rfl])]
  rw [List.cons_append, words_cons, if_neg (Bool.eq_false_iff.1 hc), htake, hdrop]

/-- Pieces that are joined by blanks are cut apart again. -/
theorem words_intercalate (ws : List (List Char)) (h : ∀ w ∈ ws, IsPiece w) :
    words ([' '].intercalate ws) = ws := by
  induction ws with
  | nil => exact words_nil
  | cons w ws ih =>
    obtain ⟨hw, hws⟩ := List.forall_mem_cons.1 h
    cases ws with
    | nil =>
      have hend := words_append (r := []) hw nofun
      rw [List.append_nil, words_nil] at hend
      rw [List.intercalate_singleton]
      exact hend
    | cons v ws =>
      have hblank : isSpace ' ' = true := rfl
      rw [List.intercalate_cons_cons, List.append_assoc, List.singleton_append,
        words_append hw (by simp [hblank]), words_cons, if_pos hblank, ih hws]

/-- From a piece no blank is taken off. -/
theorem trim_of_isPiece (h : IsPiece w) : trim w = w := by
  have hall (cs : List Char) (hcs : ∀ c ∈ cs, isSpace c = false) : cs.dropWhile isSpace = cs := by
    cases cs with
    | nil => rfl
    | cons c cs => exact List.dropWhile_cons_of_neg (by simp [hcs c List.mem_cons_self])
  rw [trim, hall w h.2, hall w.reverse fun c hc => h.2 c (List.mem_reverse.1 hc),
    List.reverse_reverse]

end Text

variable {H : Host}

namespace LibraryFunction

/-- The text of a float is read as this float. -/
theorem parseNumber_chars (x : Float) (p : Position) : parseNumber (Number.chars x) p = .ok x := by
  rw [parseNumber, Number.ofChars?_chars]

/-- The texts of floats are read as these floats. -/
theorem mapM_parseNumber (xs : List Float) (p : Position) :
    ((xs.map Number.chars).mapM fun w => parseNumber w p) = .ok xs := by
  induction xs with
  | nil => rfl
  | cons x xs ih =>
    rw [List.map_cons, List.mapM_cons, parseNumber_chars, ih]
    rfl

/-- A vector is displayed as its components with a blank between any two. -/
theorem toList_text (xs : List Float) :
    (Value.text (.vector xs : Value H)).toList = [' '].intercalate (xs.map Number.chars) := by
  have hmap : String.toList ∘ Number.text = Number.chars :=
    funext fun x => String.toList_ofList
  rw [Value.text, String.toList_intercalate, List.map_map, hmap]
  rfl

/-- A vector is read from its text. -/
theorem makeVector_text (xs : List Float) (p : Position) :
    makeVector [.string (Value.text (.vector xs : Value H))] p = .ok (.vector xs : Value H) := by
  have hpieces : ∀ w ∈ xs.map Number.chars, Text.IsPiece w :=
    List.forall_mem_map.2 fun x _ => Number.isPiece_chars x
  rw [makeVector, toList_text, Text.words_intercalate _ hpieces, mapM_parseNumber]
  rfl

/-- A text is read as a number without the blanks around it. -/
theorem toNumber_string (s : String) (p : Position) :
    toNumber [.string s] p = (do return .number (← parseNumber (Text.trim s.toList) p) :
      Evaluated (Value H)) := rfl

/-- A number is read from its text. -/
theorem toNumber_text (x : Float) (p : Position) :
    toNumber [.string (Value.text (.number x : Value H))] p = .ok (.number x : Value H) := by
  rw [toNumber_string, Value.text, Number.text, String.toList_ofList,
    Text.trim_of_isPiece (Number.isPiece_chars x), parseNumber_chars]
  rfl

/-- Arguments that are numbers are read as these. -/
theorem numbers_map (xs : List Float) (p : Position) :
    Arguments.numbers (xs.map (.number : Float → Value H)) p = .ok xs := by
  unfold Arguments.numbers
  induction xs with
  | nil => rfl
  | cons x xs ih =>
    rw [List.map_cons, List.mapM_cons, ih]
    rfl

/-- Numbers that are given one by one are the components. -/
theorem makeVector_numbers (xs : List Float) (p : Position) :
    makeVector (xs.map (.number : Float → Value H)) p = .ok (.vector xs) := by
  unfold makeVector
  split
  · next s hs =>
    obtain ⟨x, -, hx⟩ := List.mem_map.1 (hs ▸ List.mem_singleton_self (.string s : Value H))
    cases hx
  · rw [numbers_map]
    rfl

/-- What is made of a text or of numbers is a vector. -/
theorem exists_vector_of_makeVector {args : List (Value H)} {p : Position} {v : Value H}
    (h : makeVector args p = .ok v) : ∃ xs, v = .vector xs := by
  unfold makeVector at h
  split at h
  all_goals
    obtain ⟨xs, -, hxs⟩ := exists_of_bind_eq_ok h
    exact ⟨xs, (Except.ok.inj hxs).symm⟩

end LibraryFunction

namespace Context

variable {c : Context H} {vec str num e : Expr} {es : List Expr} {i j k : Nat} {x : Float}
  {xs : List Float} {v : Value H} {s t : CallSite}

/-- The text of a value is what `str` makes of it. -/
theorem eval_str (hstr : c.eval str = .ok (.function (.library .str j))) (h : c.eval e = .ok v) :
    c.eval (.call str [e] s) = .ok (.string v.text) := by
  rw [eval_call_library hstr (evalAll_singleton h) rfl]
  rfl

/-- Expressions that evaluate to numbers have the list of these as their values. -/
theorem evalAll_numbers (h : List.Forall₂ (fun e x => c.eval e = .ok (.number x)) es xs) :
    c.evalAll es = .ok (xs.map .number) := by
  induction h with
  | nil => rfl
  | cons h _ ih =>
    rw [evalAll, h, ih]
    rfl

/-- Components that evaluate to numbers make up the vector of these. -/
theorem evalComponents_numbers (h : List.Forall₂ (fun e x => c.eval e = .ok (.number x)) es xs) :
    c.evalComponents es = .ok xs := by
  induction h with
  | nil => rfl
  | cons h _ ih =>
    rw [evalComponents, h, ih]
    rfl

/-- The text of a vector is read as the vector. -/
theorem eval_vec_str (hvec : c.eval vec = .ok (.function (.library .vec i)))
    (hstr : c.eval str = .ok (.function (.library .str j))) (h : c.eval e = .ok (.vector xs)) :
    c.eval (.call vec [.call str [e] s] t) = .ok (.vector xs) := by
  rw [eval_call_library hvec (evalAll_singleton (eval_str hstr h)) rfl]
  exact LibraryFunction.makeVector_text xs t.position

/-- What a call of `vec` evaluates to is a vector. -/
theorem exists_vector_of_eval_vec (hvec : c.eval vec = .ok (.function (.library .vec i)))
    (h : c.eval (.call vec es s) = .ok v) : ∃ xs, v = .vector xs := by
  rw [eval, hvec] at h
  obtain ⟨f, hf, h⟩ := exists_of_bind_eq_ok h
  cases hf
  obtain ⟨vs, -, h⟩ := exists_of_bind_eq_ok h
  obtain ⟨-, -, h⟩ := exists_of_bind_eq_ok h
  exact LibraryFunction.exists_vector_of_makeVector h

/-- A vector comes back from its text, and a number as a number and as a vector of one component.
Numbers that are given to `vec` one by one make the vector that is written with them. Whatever `vec`
accepts, be it a text or numbers, the text of the result is accepted again and gives the same
vector. All components come back as they are, the infinite ones, the NaN and the zeros with their
signs among them. -/
theorem texts_readBack (c : Context H) {vec str num : Expr} {i j k : Nat}
    (hvec : c.eval vec = .ok (.function (.library .vec i)))
    (hstr : c.eval str = .ok (.function (.library .str j)))
    (hnum : c.eval num = .ok (.function (.library .num k))) :
    (∀ e xs s t, c.eval e = .ok (.vector xs) →
      c.eval (.call vec [.call str [e] s] t) = .ok (.vector xs)) ∧
    (∀ e x s t, c.eval e = .ok (.number x) →
      c.eval (.call num [.call str [e] s] t) = .ok (.number x) ∧
      c.eval (.call vec [.call str [e] s] t) = .ok (.vector [x])) ∧
    (∀ es xs p t, es ≠ [] → List.Forall₂ (fun e x => c.eval e = .ok (.number x)) es xs →
      c.eval (.call vec es t) = .ok (.vector xs) ∧ c.eval (.vector es p) = .ok (.vector xs)) ∧
    ∀ es v s t u, c.eval (.call vec es s) = .ok v →
      c.eval (.call vec [.call str [.call vec es s] t] u) = .ok v := by
  refine ⟨fun e xs s t h => eval_vec_str hvec hstr h, fun e x s t h => ⟨?_, ?_⟩,
    fun es xs p t hes h => ⟨?_, ?_⟩, fun es v s t u h => ?_⟩
  · rw [eval_call_library hnum (evalAll_singleton (eval_str hstr h)) rfl]
    exact LibraryFunction.toNumber_text x t.position
  · rw [eval_call_library hvec (evalAll_singleton (eval_str hstr h)) rfl]
    exact LibraryFunction.makeVector_text [x] t.position
  · have hcount : LibraryFunction.vec.arity.accepts
        (xs.map (.number : Float → Value H)).length := by
      rw [List.length_map, ← h.length_eq]
      exact decide_eq_true (List.length_pos_iff.2 hes)
    rw [eval_call_library hvec (evalAll_numbers h) hcount]
    exact LibraryFunction.makeVector_numbers xs t.position
  · rw [eval, evalComponents_numbers h]
    rfl
  · obtain ⟨xs, rfl⟩ := exists_vector_of_eval_vec hvec h
    exact eval_vec_str hvec hstr h

/-- Both zeros, an infinity and the NaN in a vector, and the text of the vector. -/
theorem texts_readBack_special :
    let c : Context Host.bare := (empty .bare).bindLibrary
    let number (x : Float) : Expr := .literal (.number x) ⟨1, 9⟩
    let call (f : String) (e : Expr) : Expr := .call (.var f ⟨1, 0⟩) [e] (.ofPosition ⟨1, 3⟩)
    let special : Expr :=
      .vector [number 0, number (-0), number (-Number.infinity), number Number.nan] ⟨1, 8⟩
    c.eval (call "vec" (call "str" special)) =
      .ok (.vector [0, -0, -Number.infinity, Number.nan]) ∧
    c.eval (call "vec" (call "str" (call "vec" (call "str" special)))) =
      .ok (.vector [0, -0, -Number.infinity, Number.nan]) ∧
    c.eval (call "num" (call "str" (number (-0)))) = .ok (.number (-0)) ∧
    c.eval (call "vec" (number (-0))) = .ok (.vector [-0]) := by
  intro c number call special
  have hlibrary (f : LibraryFunction) :
      c.eval (.var f.name ⟨1, 0⟩) = .ok (.function (.library f 0)) := by
    cases f <;> rfl
  obtain ⟨hvector, hnumber, hgiven, hagain⟩ :=
    texts_readBack c (hlibrary .vec) (hlibrary .str) (hlibrary .num)
  have hspecial : c.eval (call "vec" (call "str" special)) =
      .ok (.vector [0, -0, -Number.infinity, Number.nan]) := hvector special _ _ _ rfl
  refine ⟨hspecial, hagain _ _ _ _ _ hspecial, (hnumber (number (-0)) _ _ _ rfl).1, ?_⟩
  exact (hgiven [number (-0)] _ ⟨1, 0⟩ _ (List.cons_ne_nil _ _) (.cons rfl .nil)).1

end Context

end MapExpr
