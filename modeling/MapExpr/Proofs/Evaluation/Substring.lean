import MapExpr.Proofs.Evaluation.Eager
import MapExpr.Proofs.Evaluation.Indexing
import MapExpr.Proofs.Number.Sum

/-!
# Parts of texts

`substr` reads its arguments as indices and leaves characters out in front of the first index and
behind as many as are asked for (`IsCut`). It fails if an argument is no index, whatever the text
is, and never because of the length of the text (`CutBy`).

Positions, counts and lengths count characters. The methods that look at the beginning or the end of
a text may look at its bytes all the same: no character begins inside of another, so bytes that
make up a text are found at the end only where its characters are (`isSuffix_iff_bytes`). Both
methods can therefore be written with `substr`, where sums, differences and comparisons of indices
are exact (`cutsExactly`).
-/

namespace MapExpr

open Number

variable {H : Host}

/-! ## Cutting -/

/-- The text `t` consists of the characters of `s` at the positions from `start` on that are below
`stop`. -/
structure IsCut (s : String) (start stop : Nat) (t : String) : Prop where
  length : t.length = stop - start
  get : ∀ i < stop - start, t.toList[i]? = s.toList[start + i]?

section Cuts

variable {s t u : String} {start stop : Nat}

/-- Which characters are left determines the text. -/
theorem IsCut.unique (ht : IsCut s start stop t) (hu : IsCut s start stop u) : t = u := by
  refine String.toList_inj.1 (List.ext_getElem? fun i => ?_)
  rcases Nat.lt_or_ge i (stop - start) with hi | hi
  · rw [ht.get i hi, hu.get i hi]
  · rw [List.getElem?_eq_none (by rw [String.length_toList, ht.length]; exact hi),
      List.getElem?_eq_none (by rw [String.length_toList, hu.length]; exact hi)]

/-- Without a count the first characters are dropped. -/
theorem toList_substring_none (s : String) (a : Nat) :
    (substring s a none).toList = s.toList.drop a := String.toList_ofList

/-- With a count only so many of the other characters are kept. -/
theorem toList_substring_some (s : String) (a b : Nat) :
    (substring s a (some b)).toList = (s.toList.drop a).take b := String.toList_ofList

/-- With a count the cut ends behind so many characters, or with the text. -/
theorem isCut_substring_some (s : String) (a b : Nat) :
    IsCut s a (min (a + b) s.length) (substring s a (some b)) where
  length := by
    rw [← String.length_toList, toList_substring_some, List.length_take, List.length_drop,
      String.length_toList]
    omega
  get i hi := by
    rw [toList_substring_some, List.getElem?_take_of_lt (by omega), List.getElem?_drop]

/-- Without a count the cut ends with the text. -/
theorem isCut_substring_none (s : String) (a : Nat) :
    IsCut s a s.length (substring s a none) where
  length := by
    rw [← String.length_toList, toList_substring_none, List.length_drop, String.length_toList]
  get i hi := by
    rw [toList_substring_none, List.getElem?_drop]

/-- The text with a count is the only one that is cut in this way. -/
theorem eq_substring_some_iff {a b : Nat} :
    t = substring s a (some b) ↔ IsCut s a (min (a + b) s.length) t := by
  constructor
  · rintro rfl
    exact isCut_substring_some s a b
  · exact fun h => h.unique (isCut_substring_some s a b)

/-- The text without a count is the only one that is cut in this way. -/
theorem eq_substring_none_iff {a : Nat} : t = substring s a none ↔ IsCut s a s.length t := by
  constructor
  · rintro rfl
    exact isCut_substring_none s a
  · exact fun h => h.unique (isCut_substring_none s a)

/-- What is in front of a position and what is from it on make up the whole. -/
theorem substring_append (s : String) (a : Nat) :
    substring s 0 (some a) ++ substring s a none = s := by
  refine String.toList_inj.1 ?_
  rw [String.toList_append, toList_substring_some, toList_substring_none, List.drop_zero,
    List.take_append_drop]

/-- Two cuts at the front are one. -/
theorem substring_substring (s : String) (a b : Nat) :
    substring (substring s a none) b none = substring s (a + b) none := by
  refine String.toList_inj.1 ?_
  rw [toList_substring_none, toList_substring_none, toList_substring_none, List.drop_drop]

/-- A cut with a count is one at the front followed by one at the end. -/
theorem substring_some (s : String) (a b : Nat) :
    substring s a (some b) = substring (substring s a none) 0 (some b) := by
  refine String.toList_inj.1 ?_
  rw [toList_substring_some, toList_substring_some, toList_substring_none, List.drop_zero]

/-! ## The beginning and the end of a text -/

/-- A text begins with another one if cutting to its length gives this one. -/
theorem isPrefix_iff_substring :
    t.toList <+: s.toList ↔ substring s 0 (some t.length) = t := by
  rw [← String.toList_inj, toList_substring_some, List.drop_zero, ← String.length_toList,
    List.prefix_iff_eq_take, eq_comm]

/-- A text ends with another one if it is as long, and cutting off the rest gives this one. -/
theorem isSuffix_iff_substring :
    t.toList <:+ s.toList ↔ t.length ≤ s.length ∧ substring s (s.length - t.length) none = t := by
  rw [← String.toList_inj, toList_substring_none, ← String.length_toList, ← String.length_toList,
    List.suffix_iff_eq_drop, eq_comm (a := t.toList)]
  refine ⟨fun h => ⟨?_, h⟩, And.right⟩
  rw [← h, List.length_drop]
  omega

/-- A text begins with another one if its bytes do. -/
theorem isPrefix_iff_bytes :
    t.toList <+: s.toList ↔ ∃ b, s.toByteArray = t.toByteArray ++ b := by
  constructor
  · rintro ⟨cs, hcs⟩
    have hs : s = t ++ String.ofList cs := by
      rw [← String.toList_inj, String.toList_append, String.toList_ofList, hcs]
    exact ⟨_, hs ▸ String.toByteArray_append⟩
  · rintro ⟨b, hb⟩
    refine List.isPrefix_of_utf8Encode_append_eq_utf8Encode b ?_
    rw [String.utf8Encode_toList, String.utf8Encode_toList, hb]

/-- A text ends with another one if its bytes do, since no character begins inside of another. -/
theorem isSuffix_iff_bytes :
    t.toList <:+ s.toList ↔ ∃ b, s.toByteArray = b ++ t.toByteArray := by
  constructor
  · rintro ⟨cs, hcs⟩
    have hs : s = String.ofList cs ++ t := by
      rw [← String.toList_inj, String.toList_append, String.toList_ofList, hcs]
    exact ⟨_, hs ▸ String.toByteArray_append⟩
  · rintro ⟨b, hb⟩
    have hsize : s.utf8ByteSize = b.size + t.toByteArray.size := by
      rw [← String.size_toByteArray, hb, ByteArray.size_append]
    -- The bytes behind `b` are those of a text, so a character of `s` begins there.
    have hvalid : String.Pos.Raw.IsValid s ⟨b.size⟩ := by
      rw [String.Pos.Raw.isValid_iff_isValidUTF8_extract_utf8ByteSize, String.Pos.Raw.le_iff,
        String.byteIdx_rawEndPos, hb, ByteArray.extract_append_eq_right rfl hsize]
      exact ⟨by rw [hsize]; exact Nat.le_add_right _ _, t.isValidUTF8⟩
    obtain ⟨s₁, s₂, rfl, hpos⟩ := String.Pos.Raw.isValid_iff_exists_append.1 hvalid
    have hlen : s₁.toByteArray.size = b.size := by
      rw [String.size_toByteArray, ← String.byteIdx_rawEndPos, ← hpos]
    rw [String.toByteArray_append, ByteArray.append_eq_append_iff_of_size_eq_left hlen,
      String.toByteArray_inj] at hb
    rw [← hb.2, String.toList_append]
    exact List.suffix_append s₁.toList s₂.toList

end Cuts

/-! ## Arguments that are read as indices -/

namespace Value

variable {v : Value H} {k : Nat} {p : Position}

/-- The value is a number that is equal to the index `k`. -/
def IsIndex (v : Value H) (k : Nat) : Prop :=
  ∃ x, v = .number x ∧ value? x = some (k : ℚ) ∧ k ≤ maxSafe

/-- A value read as an index. -/
def asIndex (v : Value H) (p : Position) : Evaluated Nat := do
  Number.asIndex (← v.asNumber p) p

/-- A value is read as the index that it is equal to. -/
theorem asIndex_eq_ok_iff : v.asIndex p = .ok k ↔ v.IsIndex k := by
  cases v with
  | number x =>
    show Number.asIndex x p = .ok k ↔ _
    rw [Number.asIndex_eq_ok_iff, IsIndex]
    simp
  | none | vector | string | function | bound | object => exact iff_of_false nofun nofun

/-- Reading an index fails for every value that is none. -/
theorem exists_asIndex_error_iff : (∃ f, v.asIndex p = .error f) ↔ ¬ ∃ k, v.IsIndex k := by
  simp only [← asIndex_eq_ok_iff (p := p)]
  cases v.asIndex p <;> simp

end Value

/-- All arguments, read as indices from left to right. -/
def Arguments.indices (args : List (Value H)) (p : Position) : Evaluated (List Nat) :=
  args.mapM fun v => v.asIndex p

section Indices

variable {args : List (Value H)} {v w : Value H} {a b : Nat} {p : Position}

/-- Reading the arguments fails if one of them is no index, whichever. -/
theorem Arguments.exists_indices_error_iff :
    (∃ f, indices args p = .error f) ↔ ∃ v ∈ args, ¬ ∃ k, v.IsIndex k := by
  unfold indices
  induction args with
  | nil => exact iff_of_false nofun nofun
  | cons v vs ih =>
    rw [List.mapM_cons, List.exists_mem_cons_iff, ← Value.exists_asIndex_error_iff (p := p), ← ih]
    cases v.asIndex p with
    | error f => exact iff_of_true ⟨f, rfl⟩ (.inl ⟨f, rfl⟩)
    | ok k =>
      cases vs.mapM fun v => v.asIndex p with
      | error f => exact iff_of_true ⟨f, rfl⟩ (.inr ⟨f, rfl⟩)
      | ok ks => exact iff_of_false nofun (Or.rec nofun nofun)

/-- An argument that is an index is read as it. -/
theorem Arguments.indices_singleton (hv : v.IsIndex a) (p : Position) :
    indices [v] p = .ok [a] := by
  rw [indices, List.mapM_cons, List.mapM_nil, Value.asIndex_eq_ok_iff.2 hv]
  rfl

/-- Two arguments that are indices are read as them. -/
theorem Arguments.indices_pair (hv : v.IsIndex a) (hw : w.IsIndex b) (p : Position) :
    indices [v, w] p = .ok [a, b] := by
  rw [indices, List.mapM_cons, List.mapM_cons, List.mapM_nil, Value.asIndex_eq_ok_iff.2 hv,
    Value.asIndex_eq_ok_iff.2 hw]
  rfl

end Indices

/-! ## Cutting by indices -/

/-- The outcome of cutting a text. -/
structure CutBy (s : String) (args : List (Value H)) (p : Position) (r : Evaluated (Value H)) :
    Prop where
  fails_iff : (∃ f, r = .error f) ↔ ∃ v ∈ args, ¬ ∃ k, v.IsIndex k
  error_iff : ∀ f, r = .error f ↔ Arguments.indices args p = .error f
  rest : ∀ v a, args = [v] → v.IsIndex a → ∃ t, r = .ok (.string t) ∧ IsCut s a s.length t
  range : ∀ v w a b, args = [v, w] → v.IsIndex a → w.IsIndex b →
    ∃ t, r = .ok (.string t) ∧ IsCut s a (min (a + b) s.length) t

/-- The arguments are read first, and then the text is cut. -/
theorem run_substr (s : String) {args : List (Value H)}
    (h : StringMethod.substr.signature.arity.accepts args.length) (p : Position) :
    StringMethod.substr.run (.string s) args p = (do
      let ks ← Arguments.indices args p
      return .string (substring s (ks.headD 0) ks[1]?)) := by
  have hread (v : Value H) {α : Type} (g : Nat → Evaluated α) :
      (v.asNumber p >>= fun x => Number.asIndex x p >>= g) = v.asIndex p >>= g :=
    (bind_assoc _ _ _).symm
  obtain ⟨v, rfl⟩ | ⟨v, w, rfl⟩ : (∃ v, args = [v]) ∨ ∃ v w, args = [v, w] := by
    have hlen : args.length = 1 ∨ args.length = 2 := by
      simpa [StringMethod.signature, Arity.accepts] using h
    exact hlen.imp List.length_eq_one_iff.1 List.length_eq_two.1
  · show (v.asNumber p >>= fun x => Number.asIndex x p >>= _) = _
    rw [hread, Arguments.indices, List.mapM_cons, List.mapM_nil]
    cases v.asIndex p <;> rfl
  · show (v.asNumber p >>= fun x => Number.asIndex x p >>= fun a =>
      w.asNumber p >>= fun y => Number.asIndex y p >>= _) = _
    rw [hread]
    simp only [hread]
    rw [Arguments.indices, List.mapM_cons, List.mapM_cons, List.mapM_nil]
    cases v.asIndex p with
    | error f => rfl
    | ok a => cases w.asIndex p <;> rfl

/-- The method cuts by its arguments, whenever it accepts their number. -/
theorem cutBy_run (s : String) {args : List (Value H)}
    (h : StringMethod.substr.signature.arity.accepts args.length) (p : Position) :
    CutBy s args p (StringMethod.substr.run (.string s) args p) := by
  have herror (f) : StringMethod.substr.run (.string s) args p = .error f ↔
      Arguments.indices args p = .error f := by
    rw [run_substr s h]
    cases Arguments.indices args p with
    | error g =>
      show (.error g : Evaluated (Value H)) = .error f ↔ _
      rw [Except.error.injEq, Except.error.injEq]
    | ok ks => exact iff_of_false nofun nofun
  refine ⟨?_, herror, ?_, ?_⟩
  · rw [exists_congr herror, Arguments.exists_indices_error_iff]
  · rintro v a rfl hv
    rw [run_substr s h, Arguments.indices_singleton hv]
    exact ⟨_, rfl, isCut_substring_none s a⟩
  · rintro v w a b rfl hv hw
    rw [run_substr s h, Arguments.indices_pair hv hw]
    exact ⟨_, rfl, isCut_substring_some s a b⟩

/-! ## Methods of texts -/

/-- The call of a method of the value of an expression. -/
def Expr.callMethod (object : Expr) (name : String) (arguments : List Expr) (q : Position)
    (site : CallSite) : Expr :=
  .call (.member object name q) arguments site

namespace Context

variable {c : Context H} {object other i j k zero : Expr} {es : List Expr}
  {args : List (Value H)} {s t : String} {a b : Nat}

/-- A method of texts that is called on a text is run, if there are as many arguments as it
takes. -/
theorem eval_callMethod (m : StringMethod) (hobject : c.eval object = .ok (.string s))
    (hes : c.evalAll es = .ok args) (hcount : m.signature.arity.accepts args.length) (q : Position)
    (site : CallSite) :
    c.eval (object.callMethod m.signature.name es q site) =
      m.run (.string s) args site.position := by
  have hmember : c.eval (.member object m.signature.name q) =
      .ok (.bound (.string m) (.string s)) := by
    rw [eval_member_of hobject]
    cases m <;> rfl
  have hadmit : m.signature.admit args.length site.position = .ok () := if_pos hcount
  have hinvoke : c.registry.invoke (.string m) (.string s) args site =
      m.run (.string s) args site.position := by
    rw [Registry.invoke, Method.signature, hadmit]
    rfl
  rw [Expr.callMethod, eval, hmember, hes]
  exact hinvoke

/-- The expression evaluates to the index `k`. -/
def HasIndex (c : Context H) (e : Expr) (k : Nat) : Prop :=
  ∃ v, c.eval e = .ok v ∧ v.IsIndex k

/-- Called with one index, the method drops the characters in front of it. -/
theorem eval_substr_rest (hobject : c.eval object = .ok (.string s)) (hi : c.HasIndex i a)
    (q : Position) (site : CallSite) :
    c.eval (object.callMethod "substr" [i] q site) = .ok (.string (substring s a none)) := by
  obtain ⟨v, hv, ha⟩ := hi
  have hcall := eval_callMethod .substr hobject (evalAll_singleton hv) rfl q site
  rw [run_substr s rfl, Arguments.indices_singleton ha] at hcall
  exact hcall

/-- Called with two indices, it keeps as many of the others as the second one says. -/
theorem eval_substr_range (hobject : c.eval object = .ok (.string s)) (hi : c.HasIndex i a)
    (hj : c.HasIndex j b) (q : Position) (site : CallSite) :
    c.eval (object.callMethod "substr" [i, j] q site) = .ok (.string (substring s a (some b))) := by
  obtain ⟨v, hv, ha⟩ := hi
  obtain ⟨w, hw, hb⟩ := hj
  have hpair : c.evalAll [i, j] = .ok [v, w] := by
    rw [evalAll, hv, evalAll_singleton hw]
    rfl
  have hcall := eval_callMethod .substr hobject hpair rfl q site
  rw [run_substr s rfl, Arguments.indices_pair ha hb] at hcall
  exact hcall

/-- The method `startswith` compares with the characters in front. -/
theorem eval_startsWith (hobject : c.eval object = .ok (.string s))
    (hother : c.eval other = .ok (.string t)) (q : Position) (site : CallSite) :
    c.eval (object.callMethod "startswith" [other] q site) =
      .ok (.ofBool (t.toList.isPrefixOf s.toList)) :=
  eval_callMethod .startsWith hobject (evalAll_singleton hother) rfl q site

/-- The method `endswith` compares with the characters at the end. -/
theorem eval_endsWith (hobject : c.eval object = .ok (.string s))
    (hother : c.eval other = .ok (.string t)) (q : Position) (site : CallSite) :
    c.eval (object.callMethod "endswith" [other] q site) =
      .ok (.ofBool (t.toList.isSuffixOf s.toList)) :=
  eval_callMethod .endsWith hobject (evalAll_singleton hother) rfl q site

/-- The member `length` counts the characters of a text. -/
theorem eval_length (hobject : c.eval object = .ok (.string s)) (q : Position) :
    Counted s.length q (c.eval (.member object "length" q)) := by
  rw [eval_member_of hobject]
  exact counted s.length q

/-- As long as the length is a safe whole number, it is an index. -/
theorem hasIndex_length (hobject : c.eval object = .ok (.string s)) (h : s.length ≤ maxSafe)
    (q : Position) : c.HasIndex (.member object "length" q) s.length := by
  obtain ⟨y, hy, hval⟩ := (eval_length hobject q).ok h
  exact ⟨.number y, hy, y, rfl, hval, h⟩

/-- A sum of indices that is an index is computed exactly. -/
theorem hasIndex_add (hi : c.HasIndex i a) (hj : c.HasIndex j b) (h : a + b ≤ maxSafe)
    (p : Position) : c.HasIndex (.binary .add i j p) (a + b) := by
  obtain ⟨_, hv, x, rfl, hx, -⟩ := hi
  obtain ⟨_, hw, y, rfl, hy, -⟩ := hj
  have hz : value? (ofInt (a + b : Nat)) = some ((a : ℚ) + b) := by
    rw [value?_ofInt_natCast h, Nat.cast_add]
  have hsum := value?_add hx hy hz
  rw [← Nat.cast_add] at hsum
  exact ⟨.number (x + y), eval_binary_of_ok hv hw, x + y, rfl, hsum, h⟩

/-- A difference of indices that is not negative is computed exactly. -/
theorem hasIndex_subtract (hi : c.HasIndex i a) (hj : c.HasIndex j b) (h : b ≤ a) (p : Position) :
    c.HasIndex (.binary .subtract i j p) (a - b) := by
  obtain ⟨_, hv, x, rfl, hx, ha⟩ := hi
  obtain ⟨_, hw, y, rfl, hy, -⟩ := hj
  have hab : a - b ≤ maxSafe := (Nat.sub_le a b).trans ha
  have hz : value? (ofInt (a - b : Nat)) = some ((a : ℚ) - b) := by
    rw [value?_ofInt_natCast hab, Nat.cast_sub h]
  have hdiff := value?_sub hx hy hz
  rw [← Nat.cast_sub h] at hdiff
  exact ⟨.number (x - y), eval_binary_of_ok hv hw, x - y, rfl, hdiff, hab⟩

/-- Indices are compared as whole numbers. -/
theorem eval_lessEqual (hi : c.HasIndex i a) (hj : c.HasIndex j b) (p : Position) :
    c.eval (.binary .lessEqual i j p) = .ok (.ofBool (decide (a ≤ b))) := by
  obtain ⟨_, hv, x, rfl, hx, -⟩ := hi
  obtain ⟨_, hw, y, rfl, hy, -⟩ := hj
  have hle : x ≤ y ↔ a ≤ b := by rw [le_iff_of_value? hx hy, Nat.cast_le]
  rw [eval_binary_of_ok hv hw, ← decide_eq_decide.2 hle]
  rfl

/-- Texts are equal if they have the same characters. -/
theorem eval_equal_string (hobject : c.eval object = .ok (.string s))
    (hother : c.eval other = .ok (.string t)) (p : Position) :
    c.eval (.binary .equal object other p) = .ok (.ofBool (decide (s = t))) :=
  eval_binary_of_ok hobject hother

/-- What the methods of the text `s` do that are called on the expression `object`. -/
structure CutsExactly (c : Context H) (object : Expr) (s : String) (q : Position)
    (site : CallSite) : Prop where
  outcome : ∀ es args, c.evalAll es = .ok args → args.length = 1 ∨ args.length = 2 →
    CutBy s args site.position (c.eval (object.callMethod "substr" es q site))
  count : Counted s.length q (c.eval (.member object "length" q))
  join : ∀ zero i a, c.HasIndex zero 0 → c.HasIndex i a →
    ∃ t u, c.eval (object.callMethod "substr" [zero, i] q site) = .ok (.string t) ∧
      c.eval (object.callMethod "substr" [i] q site) = .ok (.string u) ∧ t ++ u = s
  rest_rest : ∀ i j p a b, c.HasIndex i a → c.HasIndex j b → a + b ≤ maxSafe →
    c.eval ((object.callMethod "substr" [i] q site).callMethod "substr" [j] q site) =
      c.eval (object.callMethod "substr" [.binary .add i j p] q site)
  range_eq : ∀ zero i j a b, c.HasIndex zero 0 → c.HasIndex i a → c.HasIndex j b →
    c.eval (object.callMethod "substr" [i, j] q site) =
      c.eval ((object.callMethod "substr" [i] q site).callMethod "substr" [zero, j] q site)
  length : ∀ i j a b, c.HasIndex i a → c.HasIndex j b →
    ∃ y, c.eval (.member (object.callMethod "substr" [i, j] q site) "length" q) =
      .ok (.number y) ∧ value? y = some ((min b (s.length - a) : Nat) : ℚ)
  /-- A text begins with another one if its characters do, and just as well if its bytes do. -/
  startsWith : ∀ other t, c.eval other = .ok (.string t) →
    ∃ b : Bool, c.eval (object.callMethod "startswith" [other] q site) = .ok (.ofBool b) ∧
      (b ↔ IsCut s 0 (min t.length s.length) t) ∧
      (b ↔ ∃ r, s.toByteArray = t.toByteArray ++ r)
  startsWith_eq : ∀ zero other t p, c.HasIndex zero 0 → c.eval other = .ok (.string t) →
    t.length ≤ maxSafe →
    c.eval (object.callMethod "startswith" [other] q site) = c.eval (.binary .equal
      (object.callMethod "substr" [zero, .member other "length" q] q site) other p)
  endsWith : ∀ other t, c.eval other = .ok (.string t) →
    ∃ b : Bool, c.eval (object.callMethod "endswith" [other] q site) = .ok (.ofBool b) ∧
      (b ↔ t.length ≤ s.length ∧ IsCut s (s.length - t.length) s.length t) ∧
      (b ↔ ∃ r, s.toByteArray = r ++ t.toByteArray)
  endsWith_eq : ∀ other t p, c.eval other = .ok (.string t) → s.length ≤ maxSafe →
    t.length ≤ maxSafe →
    c.eval (object.callMethod "endswith" [other] q site) = c.eval (.binary .and
      (.binary .lessEqual (.member other "length" q) (.member object "length" q) p)
      (.binary .equal (object.callMethod "substr"
        [.binary .subtract (.member object "length" q) (.member other "length" q) p] q site)
        other p) p)

/-- A text is cut at characters, and nothing of it is lost or moved: the parts in front of an index
and from it on make up the text, parts of parts are parts, and the length of a part is known. That a
text begins or ends with another one is found out by cutting as well. -/
theorem cutsExactly (c : Context H) {object : Expr} {s : String}
    (hobject : c.eval object = .ok (.string s)) (q : Position) (site : CallSite) :
    CutsExactly c object s q site where
  outcome es args hes hlen := by
    have hcount : StringMethod.substr.signature.arity.accepts args.length := by
      simpa [StringMethod.signature, Arity.accepts] using hlen
    have hcall := eval_callMethod .substr hobject hes hcount q site
    have hcut := cutBy_run s hcount site.position
    rw [← hcall] at hcut
    exact hcut
  count := eval_length hobject q
  join zero i a hzero hi :=
    ⟨_, _, eval_substr_range hobject hzero hi q site, eval_substr_rest hobject hi q site,
      substring_append s a⟩
  rest_rest i j p a b hi hj h := by
    rw [eval_substr_rest (eval_substr_rest hobject hi q site) hj, substring_substring,
      eval_substr_rest hobject (hasIndex_add hi hj h p)]
  range_eq zero i j a b hzero hi hj := by
    rw [eval_substr_range hobject hi hj, substring_some,
      eval_substr_range (eval_substr_rest hobject hi q site) hzero hj]
  length i j a b hi hj := by
    have hb : b ≤ maxSafe := by
      obtain ⟨_, -, x, -, -, hb⟩ := hj
      exact hb
    have hlen : (substring s a (some b)).length = min b (s.length - a) := by
      rw [(isCut_substring_some s a b).length]
      omega
    rw [← hlen]
    exact (eval_length (eval_substr_range hobject hi hj q site) q).ok (by omega)
  startsWith other t hother := by
    refine ⟨_, eval_startsWith hobject hother q site, ?_, ?_⟩
    · rw [List.isPrefixOf_iff_prefix, isPrefix_iff_substring, eq_comm, eq_substring_some_iff,
        Nat.zero_add]
    · rw [List.isPrefixOf_iff_prefix, isPrefix_iff_bytes]
  startsWith_eq zero other t p hzero hother ht := by
    have hprefix : t.toList.isPrefixOf s.toList =
        decide (substring s 0 (some t.length) = t) := by
      rw [Bool.eq_iff_iff, List.isPrefixOf_iff_prefix, isPrefix_iff_substring, decide_eq_true_eq]
    rw [eval_startsWith hobject hother, eval_equal_string
      (eval_substr_range hobject hzero (hasIndex_length hother ht q) q site) hother,
      hprefix]
  endsWith other t hother := by
    refine ⟨_, eval_endsWith hobject hother q site, ?_, ?_⟩
    · rw [List.isSuffixOf_iff_suffix, isSuffix_iff_substring, eq_comm (b := t),
        eq_substring_none_iff]
    · rw [List.isSuffixOf_iff_suffix, isSuffix_iff_bytes]
  endsWith_eq other t p hother hs ht := by
    have hn := hasIndex_length hobject hs q
    have hk := hasIndex_length hother ht q
    have hsuffix : t.toList.isSuffixOf s.toList = decide (t.length ≤ s.length ∧
        substring s (s.length - t.length) none = t) := by
      rw [Bool.eq_iff_iff, List.isSuffixOf_iff_suffix, isSuffix_iff_substring, decide_eq_true_eq]
    rw [eval_endsWith hobject hother, hsuffix, eval_logical (.inl rfl), eval_lessEqual hk hn]
    by_cases h : t.length ≤ s.length
    · have hcut := eval_substr_rest hobject (hasIndex_subtract hn hk h p) q site
      show _ = if BinaryOp.and.leftDecides (.ofBool (decide (t.length ≤ s.length))) then _ else _
      rw [decide_eq_true h, eval_equal_string hcut hother]
      simp only [h, true_and]
      rfl
    · rw [decide_eq_false h, decide_eq_false fun h' => h h'.1]
      rfl

/-- Characters of one, two and four bytes, a count far behind the end, and an argument between two
indices behind one that is too large for the text. -/
theorem cutsExactly_mixed :
    let c : Context Host.bare := (empty .bare).bindLibrary
    let text (s : String) : Expr := .literal (.string s) ⟨1, 0⟩
    let number (x : Float) : Expr := .literal (.number x) ⟨1, 14⟩
    let call (method : String) (es : List Expr) : Expr :=
      (text "aé😀b").callMethod method es ⟨1, 6⟩ (.ofPosition ⟨1, 13⟩)
    (∃ t, c.eval (call "substr" [number 1, number (ofInt maxSafe)]) = .ok (.string t) ∧
      IsCut "aé😀b" 1 4 t) ∧
    (∃ f, c.eval (call "substr" [number 9, number 0.5]) = .error f) ∧
    (∃ t u, c.eval (call "substr" [number 0, number 2]) = .ok (.string t) ∧
      c.eval (call "substr" [number 2]) = .ok (.string u) ∧ t ++ u = "aé😀b") ∧
    c.eval (call "endswith" [text "😀b"]) = c.eval (.binary .and
      (.binary .lessEqual (.member (text "😀b") "length" ⟨1, 6⟩)
        (.member (text "aé😀b") "length" ⟨1, 6⟩) ⟨1, 20⟩)
      (.binary .equal (call "substr" [.binary .subtract (.member (text "aé😀b") "length" ⟨1, 6⟩)
        (.member (text "😀b") "length" ⟨1, 6⟩) ⟨1, 20⟩]) (text "😀b") ⟨1, 20⟩) ⟨1, 20⟩) := by
  intro c text number call
  have htext : c.eval (text "aé😀b") = .ok (.string "aé😀b") := rfl
  have hcuts := cutsExactly c htext ⟨1, 6⟩ (.ofPosition ⟨1, 13⟩)
  have hindex (x : Float) (k : Nat) (hx : toInt? x = some (k : Int)) (hk : k ≤ maxSafe) :
      (Value.number x : Value Host.bare).IsIndex k :=
    ⟨x, rfl, toInt?_eq_some_iff.1 hx, hk⟩
  have hno : ¬ ∃ k, (Value.number 0.5 : Value Host.bare).IsIndex k :=
    Value.exists_asIndex_error_iff.1 ⟨⟨.invalidIndex 0.5, ⟨1, 13⟩⟩, rfl⟩
  refine ⟨?_, ?_, ?_, ?_⟩
  · exact (hcuts.outcome _ [.number 1, .number (ofInt maxSafe)] rfl (.inr rfl)).range _ _ 1 maxSafe
      rfl (hindex 1 1 rfl (by decide)) (hindex _ maxSafe (toInt?_ofInt le_rfl) le_rfl)
  · exact (hcuts.outcome _ [.number 9, .number 0.5] rfl (.inr rfl)).fails_iff.2
      ⟨_, List.mem_cons_of_mem _ (List.mem_singleton_self _), hno⟩
  · exact hcuts.join _ _ 2 ⟨_, rfl, hindex 0 0 rfl (by decide)⟩ ⟨_, rfl, hindex 2 2 rfl (by decide)⟩
  · exact hcuts.endsWith_eq _ "😀b" _ rfl (by decide) (by decide)

end Context

end MapExpr
