import MapExpr.Eval
import MapExpr.Proofs.Number.Conversion

/-!
# The components of a vector

A vector is asked for a component by a number, by the name of an axis, or for how many there are.
A number finds a component if it is equal to its index, and every other number is refused for one of
two reasons, which its value tells apart (`IndexedAt`). The names of the axes stand for the first
four indices, and the two ways to count the components agree (`Counted`).

No length above the greatest safe number is ever counted, and no component behind it found.
-/

namespace MapExpr

variable {H : Host}

open Number

section Outcomes

variable {xs : List Float} {k : Nat} {x : Float} {p : Position} {v : Value H}
  {f : Located EvalFault}

/-- A component is found if and only if its index is below the length. -/
theorem component_eq_ok_iff :
    component xs k p = .ok v ↔ ∃ hk : k < xs.length, v = .number xs[k] := by
  unfold component
  by_cases hk : k < xs.length
  · rw [List.getElem?_eq_getElem hk]
    simp [hk, eq_comm]
  · rw [List.getElem?_eq_none (Nat.le_of_not_lt hk)]
    exact iff_of_false nofun fun h => hk h.1

/-- The fault names the index and the length, and there is none below the length. -/
theorem component_eq_error_iff :
    component (H := H) xs k p = .error f ↔
      xs.length ≤ k ∧ f = ⟨.outOfBounds k xs.length, p⟩ := by
  unfold component
  by_cases hk : k < xs.length
  · rw [List.getElem?_eq_getElem hk]
    exact iff_of_false nofun fun h => Nat.not_lt.2 h.1 hk
  · rw [List.getElem?_eq_none (Nat.le_of_not_lt hk)]
    simp [Nat.le_of_not_lt hk, eq_comm]

/-- The outcome of asking a vector for the component at a number. -/
structure IndexedAt (xs : List Float) (x : Float) (p : Position) (r : Evaluated (Value H)) :
    Prop where
  /-- There is a component if the number is equal to its index. -/
  ok_iff : ∀ v, r = .ok v ↔ ∃ (k : Nat) (hk : k < xs.length),
    value? x = some (k : ℚ) ∧ k ≤ maxSafe ∧ v = .number xs[k]
  /-- In a vector all of whose indices are safe every component is found. -/
  ok_iff_of_length : xs.length ≤ maxSafe + 1 → ∀ v, r = .ok v ↔
    ∃ (k : Nat) (hk : k < xs.length), value? x = some (k : ℚ) ∧ v = .number xs[k]
  /-- A number is no index at all, or it is one behind the last component. -/
  error_iff : ∀ f, r = .error f ↔
    IsNoIndex x ∧ f = ⟨.invalidIndex x, p⟩ ∨
    ∃ k : Nat, value? x = some (k : ℚ) ∧ k ≤ maxSafe ∧ xs.length ≤ k ∧
      f = ⟨.outOfBounds k xs.length, p⟩

/-- An outcome is known from an iff for its value and one for its fault. -/
theorem indexedAt_of {r : Evaluated (Value H)}
    (hok : ∀ v, r = .ok v ↔ ∃ (k : Nat) (hk : k < xs.length),
      value? x = some (k : ℚ) ∧ k ≤ maxSafe ∧ v = .number xs[k])
    (herror : ∀ f, r = .error f ↔ IsNoIndex x ∧ f = ⟨.invalidIndex x, p⟩ ∨
      ∃ k : Nat, value? x = some (k : ℚ) ∧ k ≤ maxSafe ∧ xs.length ≤ k ∧
        f = ⟨.outOfBounds k xs.length, p⟩) : IndexedAt xs x p r where
  ok_iff := hok
  error_iff := herror
  ok_iff_of_length hxs v := by
    rw [hok]
    constructor
    · rintro ⟨k, hk, hx, -, hv⟩
      exact ⟨k, hk, hx, hv⟩
    · rintro ⟨k, hk, hx, hv⟩
      exact ⟨k, hk, hx, Nat.le_of_lt_succ (Nat.lt_of_lt_of_le hk hxs), hv⟩

/-- Reading a number as an index and then taking the component has the outcome that indexing has. -/
theorem indexedAt (xs : List Float) (x : Float) (p : Position) :
    IndexedAt (H := H) xs x p (do component xs (← asIndex x p) p) := by
  have hok (k : Nat) : asIndex x p = .ok k ↔ value? x = some (k : ℚ) ∧ k ≤ maxSafe :=
    asIndex_eq_ok_iff
  have herror (f) : asIndex x p = .error f ↔ IsNoIndex x ∧ f = ⟨.invalidIndex x, p⟩ :=
    asIndex_eq_error_iff
  cases h : asIndex x p with
  | error e =>
    obtain ⟨hx, rfl⟩ := (herror e).1 h
    have hnone (k : Nat) : ¬ (value? x = some (k : ℚ) ∧ k ≤ maxSafe) := fun hk =>
      nomatch h.symm.trans ((hok k).2 hk)
    refine indexedAt_of (fun v => iff_of_false nofun ?_) fun f => ?_
    · rintro ⟨k, -, hk, hle, -⟩
      exact hnone k ⟨hk, hle⟩
    · constructor
      · rintro ⟨⟩
        exact .inl ⟨hx, rfl⟩
      · rintro (⟨-, rfl⟩ | ⟨k, hk, hle, -⟩)
        · rfl
        · exact absurd ⟨hk, hle⟩ (hnone k)
  | ok k =>
    obtain ⟨hk, hle⟩ := (hok k).1 h
    have huniq (j : Nat) (hj : value? x = some (j : ℚ)) : j = k :=
      Nat.cast_injective (Option.some_inj.1 (hj.symm.trans hk))
    refine indexedAt_of (fun v => component_eq_ok_iff.trans ?_)
      fun f => component_eq_error_iff.trans ?_
    · constructor
      · rintro ⟨hlt, rfl⟩
        exact ⟨k, hlt, hk, hle, rfl⟩
      · rintro ⟨j, hlt, hj, -, rfl⟩
        obtain rfl := huniq j hj
        exact ⟨hlt, rfl⟩
    · constructor
      · rintro ⟨hlen, rfl⟩
        exact .inr ⟨k, hk, hle, hlen, rfl⟩
      · rintro (⟨hx, -⟩ | ⟨j, hj, -, hlen, rfl⟩)
        · exact nomatch h.symm.trans ((herror _).2 ⟨hx, rfl⟩)
        · obtain rfl := huniq j hj
          exact ⟨hlen, rfl⟩

/-- The outcome of counting: the number of this value, or a fault if there is none that floats tell
apart from its neighbours. -/
structure Counted (n : Nat) (p : Position) (r : Evaluated (Value H)) : Prop where
  ok : n ≤ maxSafe → ∃ y, r = .ok (.number y) ∧ value? y = some (n : ℚ)
  error : maxSafe < n → r = .error ⟨.tooLarge n, p⟩

/-- Counting has a value as long as the count is a safe whole number. -/
theorem counted (n : Nat) (p : Position) :
    Counted (H := H) n p (do return .number (← exactly n p)) where
  ok h := by
    have hn : (n : Int).natAbs ≤ maxSafe := h
    rw [exactly_of_le p hn]
    exact ⟨ofInt n, rfl, value?_ofInt hn⟩
  error h := by
    have hn : maxSafe < (n : Int).natAbs := h
    rw [exactly_eq_error_iff.2 ⟨hn, rfl⟩]
    rfl

end Outcomes

/-- The names of the axes, and the indices of the components that they name. -/
def axes : List (String × Nat) := [("x", 0), ("y", 1), ("z", 2), ("w", 3)]

/-- An axis is read as the component of its index. -/
theorem access_axis (r : Registry H) (xs : List Float) (p : Position) {name : String} {k : Nat}
    (h : (name, k) ∈ axes) : r.access (.vector xs) name p = component xs k p := by
  simp only [axes, List.mem_cons, Prod.mk.injEq, List.not_mem_nil, or_false] at h
  obtain ⟨rfl, rfl⟩ | ⟨rfl, rfl⟩ | ⟨rfl, rfl⟩ | ⟨rfl, rfl⟩ := h <;> rfl

/-- The indices of the axes are safe whole numbers. -/
theorem le_maxSafe_of_mem_axes {name : String} {k : Nat} (h : (name, k) ∈ axes) : k ≤ maxSafe := by
  have hall : ∀ q ∈ axes, q.2 ≤ maxSafe := by decide
  exact hall _ h

namespace Context

variable {c : Context H} {object index callee : Expr} {xs : List Float} {x : Float}

/-- Indexing in a tree goes by the values of the vector and of the index. -/
theorem eval_index_of (hobject : c.eval object = .ok (.vector xs))
    (hindex : c.eval index = .ok (.number x)) (p : Position) :
    c.eval (.index object index p) = (do component xs (← asIndex x p) p) := by
  rw [eval, hobject, hindex]
  rfl

/-- Access in a tree goes by the value of the object. -/
theorem eval_member_of {v : Value H} (hobject : c.eval object = .ok v) (name : String)
    (p : Position) : c.eval (.member object name p) = c.registry.access v name p := by
  rw [eval, hobject]
  rfl

/-- The name of an axis finds what the index of its component finds, or fails as it does. -/
theorem eval_axis (hobject : c.eval object = .ok (.vector xs))
    (hindex : c.eval index = .ok (.number x)) {name : String} {k : Nat} (hk : (name, k) ∈ axes)
    (hx : value? x = some (k : ℚ)) (p : Position) :
    c.eval (.member object name p) = c.eval (.index object index p) := by
  rw [eval_member_of hobject, access_axis c.registry xs p hk, eval_index_of hobject hindex,
    asIndex_eq_ok_iff.2 ⟨hx, le_maxSafe_of_mem_axes hk⟩]
  rfl

/-- The member `count` tells how many components there are. -/
theorem eval_count (hobject : c.eval object = .ok (.vector xs)) (p : Position) :
    Counted xs.length p (c.eval (.member object "count" p)) := by
  rw [eval_member_of hobject]
  exact counted xs.length p

/-- The function `len` counts the components as the member does. -/
theorem eval_len (hobject : c.eval object = .ok (.vector xs)) {registration : Nat}
    (hlen : c.eval callee = .ok (.function (.library .len registration))) (site : CallSite) :
    Counted xs.length site.position (c.eval (.call callee [object] site)) := by
  rw [eval_call_library hlen (evalAll_singleton hobject) rfl]
  exact counted xs.length site.position

/-- A vector has a component at a number if and only if the number is equal to its index, and else
it is said of the number whether it is no index at all or behind the last component. The names of
the axes agree with the first four indices, and `count` and `len` with each other. The conversions
between floats and lengths, be these words of a machine or not, are exact. -/
theorem indexing_exact (c : Context H) {object : Expr} {xs : List Float}
    (hobject : c.eval object = .ok (.vector xs)) :
    (∀ index x p, c.eval index = .ok (.number x) →
      IndexedAt xs x p (c.eval (.index object index p))) ∧
    (∀ name k index x p, (name, k) ∈ axes → c.eval index = .ok (.number x) →
      value? x = some (k : ℚ) →
      c.eval (.member object name p) = c.eval (.index object index p)) ∧
    (∀ p, Counted xs.length p (c.eval (.member object "count" p))) ∧
    (∀ callee registration site,
      c.eval callee = .ok (.function (.library .len registration)) →
      Counted xs.length site.position (c.eval (.call callee [object] site))) ∧
    ∀ p,
      ExactConversion Nat.cast (asIndex · p) (fun k => exactly k p) IsNoIndex .invalidIndex p ∧
      ExactConversion (fun w : UInt64 => (w.toNat : Int)) (toIndexWord · p) (ofIndexWord · p)
        IsNoIndex .invalidIndex p ∧
      (∀ x, (toIndexWord x p).map UInt64.toNat = asIndex x p) ∧
      ∀ w, ofIndexWord w p = exactly w.toNat p := by
  refine ⟨fun index x p hindex => ?_, fun name k index x p hk hindex hx => ?_, fun p => ?_,
    fun callee registration site hlen => ?_, fun p => ?_⟩
  · rw [eval_index_of hobject hindex]
    exact indexedAt xs x p
  · exact eval_axis hobject hindex hk hx p
  · exact eval_count hobject p
  · exact eval_len hobject hlen site
  · exact ⟨exactConversion_index p, exactConversion_indexWord p, (map_toIndexWord · p),
      (ofIndexWord_eq · p)⟩

/-- The negative zero is the index of the first component, the number behind the last component is
told from no number at all, and the missing axis fails like its index. -/
theorem indexing_exact_pair :
    let c : Context Host.bare := (empty .bare).bindLibrary
    let pair : Expr := .vector [.literal (.number 4) ⟨1, 1⟩, .literal (.number 5) ⟨1, 4⟩] ⟨1, 0⟩
    let outcome (x : Float) : Evaluated (Value Host.bare) :=
      c.eval (.index pair (.literal (.number x) ⟨1, 7⟩) ⟨1, 6⟩)
    outcome (-0) = .ok (.number 4) ∧
    outcome 2 = .error ⟨.outOfBounds 2 2, ⟨1, 6⟩⟩ ∧
    outcome nan = .error ⟨.invalidIndex nan, ⟨1, 6⟩⟩ ∧
    c.eval (.member pair "z" ⟨1, 6⟩) = outcome 2 ∧
    Counted 2 ⟨1, 6⟩ (c.eval (.member pair "count" ⟨1, 6⟩)) ∧
    Counted 2 ⟨1, 3⟩ (c.eval (.call (.var "len" ⟨1, 0⟩) [pair] (.ofPosition ⟨1, 3⟩))) := by
  intro c pair outcome
  have hpair : c.eval pair = .ok (.vector [4, 5]) := rfl
  have htwo : value? 2 = some ((2 : Nat) : ℚ) := (toInt?_eq_some_iff (n := 2)).1 rfl
  obtain ⟨hindex, haxis, hcount, hlen, -⟩ := indexing_exact c hpair
  refine ⟨?_, ?_, ?_, ?_, ?_, ?_⟩
  · exact ((hindex _ (-0) _ rfl).ok_iff _).2 ⟨0, by decide, rfl, Nat.zero_le _, rfl⟩
  · exact ((hindex _ 2 _ rfl).error_iff _).2 (.inr ⟨2, htwo, by decide, by decide, rfl⟩)
  · exact ((hindex _ nan _ rfl).error_iff _).2 (.inl ⟨.inl rfl, rfl⟩)
  · exact haxis "z" 2 _ 2 _ (by decide) rfl htwo
  · exact hcount _
  · exact hlen (.var "len" ⟨1, 0⟩) 0 (.ofPosition ⟨1, 3⟩) rfl

end Context

end MapExpr
