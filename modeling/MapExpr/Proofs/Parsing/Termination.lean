import MapExpr.Proofs.Parsing.Invariant
import MapExpr.Proofs.Parsing.Refusal

/-!
# How many rules are applied

Every rule lowers the number of pieces and names on the stack, one added to the other, whatever the
pieces are. So the rules come to an end on every stack, be it one that the parser builds or not
(`Reduces.weight_le`). A token raises this number by two at most, and a whole run over `n` tokens
therefore applies `2 * n` rules at most, no matter how it ends (`Stack.Runs.count_le`).
-/

namespace MapExpr

variable {form : Form} {next : Option Token} {s t u : Stack} {k : Nat}
  {ts : List (Located Token)} {r : Except (Located ParseFault) Stack}

/-! ## Pieces and names -/

/-- Whether a piece is a name that has not become an expression yet. -/
def Item.isName : Item → Bool
  | .token (.identifier _) _ => true
  | _ => false

/-- A piece weighs one, and one more if it is a name. -/
theorem Item.weight_eq (i : Item) : i.weight = 1 + if i.isName then 1 else 0 := by
  cases i with
  | token t p => cases t <;> rfl
  | expr | list | unary | binary | entries => rfl

/-- No piece weighs more than two. -/
theorem Item.weight_le (i : Item) : i.weight ≤ 2 := by
  rw [Item.weight_eq]
  split <;> decide

/-- A stack weighs as much as it has pieces and names. -/
theorem Stack.weight_eq (s : Stack) : s.weight = s.length + s.countP Item.isName := by
  induction s with
  | nil => rfl
  | cons i s ih =>
    rw [weight_cons, List.length_cons, List.countP_cons, Item.weight_eq, ih]
    omega

/-! ## Rules one after the other -/

/-- From `s` one comes to `t` by `k` rules, each being the first that fits. -/
inductive Reduces (form : Form) (next : Option Token) : Nat → Stack → Stack → Prop
  | refl (s : Stack) : Reduces form next 0 s s
  | step {k : Nat} {s t u : Stack} (h : reduceOnce form next s = some t)
      (h' : Reduces form next k t u) : Reduces form next (k + 1) s u

namespace Reduces

/-- Every rule lowers the weight by one at least. -/
theorem weight_le (h : Reduces form next k s t) : k + t.weight ≤ s.weight := by
  induction h with
  | refl s => exact Nat.le_of_eq (Nat.zero_add _)
  | step h _ ih =>
    have hlt := weight_lt_of_reduceOnce h
    omega

/-- Rules one after the other lead to the same end as all at once. -/
theorem reduce_eq (h : Reduces form next k s t) : reduce form next s = reduce form next t := by
  induction h with
  | refl s => rfl
  | step h _ ih => rw [Stack.reduce_of_reduceOnce h, ih]

end Reduces

/-- All rules that fit, counted. -/
theorem exists_reduces_reduce (form : Form) (next : Option Token) (s : Stack) :
    ∃ k, Reduces form next k s (reduce form next s) := by
  fun_induction reduce form next s with
  | case1 s t h ih =>
    obtain ⟨k, hk⟩ := ih
    exact ⟨k + 1, .step h hk⟩
  | case2 s h => exact ⟨0, .refl s⟩

namespace Stack

/-! ## Whole runs -/

/-- The tokens `ts` are read, starting with the stack `s`: `k` rules are applied and `r` is the
outcome. After each token the rules go on until none fits. -/
inductive Runs (form : Form) : Stack → List (Located Token) → Nat →
    Except (Located ParseFault) Stack → Prop
  | done (s : Stack) : Runs form s [] 0 (.ok s)
  | refused {s : Stack} {u : Located Token} {ts : List (Located Token)} {e : Located ParseFault}
      (h : s.shift form u = .error e) : Runs form s (u :: ts) 0 (.error e)
  | unclosed {s s₁ s₂ : Stack} {u : Located Token} {ts : List (Located Token)} {k : Nat}
      {e : Located ParseFault} (h : s.shift form u = .ok s₁)
      (hr : Reduces form (ts.head?.map Located.value) k s₁ s₂)
      (hn : reduceOnce form (ts.head?.map Located.value) s₂ = none)
      (hc : s₂.checkClosed = .error e) : Runs form s (u :: ts) k (.error e)
  | next {s s₁ s₂ s₃ : Stack} {u : Located Token} {ts : List (Located Token)} {j k : Nat}
      {r : Except (Located ParseFault) Stack} (h : s.shift form u = .ok s₁)
      (hr : Reduces form (ts.head?.map Located.value) k s₁ s₂)
      (hn : reduceOnce form (ts.head?.map Located.value) s₂ = none)
      (hc : s₂.checkClosed = .ok s₃) (hs : Runs form s₃ ts j r) : Runs form s (u :: ts) (k + j) r

/-- A step puts its token on the stack and then applies all rules. -/
theorem step_of_shift {u : Located Token} (h : s.shift form u = .ok t) :
    s.step form u next = (reduce form next t).checkClosed := by
  rw [step, h]

/-- A step refuses its token before any rule is applied. -/
theorem step_of_shift_error {u : Located Token} {e : Located ParseFault}
    (h : s.shift form u = .error e) : s.step form u next = .error e := by
  rw [step, h]

/-- A token adds at most two to the weight of the stack: one piece, which may be a name. -/
theorem weight_le_of_shift {u : Located Token} (h : s.shift form u = .ok t) :
    t.weight ≤ s.weight + 2 := by
  unfold shift at h
  split at h
  · cases h
  · cases h
    have hle := (Item.ofToken s u.value u.position).weight_le
    rw [weight_cons]
    omega

namespace Runs

/-- A run pays for its rules with the weight that its tokens bring along. -/
theorem count_le (h : Runs form s ts k r) : k ≤ s.weight + 2 * ts.length := by
  induction h with
  | done s => exact Nat.zero_le _
  | refused h => exact Nat.zero_le _
  | unclosed h hr hn hc =>
    have hshift := weight_le_of_shift h
    have hrules := hr.weight_le
    rw [List.length_cons]
    omega
  | next h hr hn hc hs ih =>
    obtain rfl := eq_of_checkClosed hc
    have hshift := weight_le_of_shift h
    have hrules := hr.weight_le
    rw [List.length_cons]
    omega

/-- The outcome is the one that the parser has. -/
theorem eq_run (h : Runs form s ts k r) : s.run form ts = r := by
  induction h with
  | done s => rfl
  | refused h => rw [run_of_step_error (step_of_shift_error h)]
  | unclosed h hr hn hc =>
    rw [← reduce_of_eq_none hn, ← hr.reduce_eq, ← step_of_shift h] at hc
    rw [run_of_step_error hc]
  | next h hr hn hc hs ih =>
    rw [← reduce_of_eq_none hn, ← hr.reduce_eq, ← step_of_shift h] at hc
    rw [run_of_step hc, ih]

end Runs

/-- Every run applies some number of rules. -/
theorem exists_runs (s : Stack) (ts : List (Located Token)) :
    ∃ k, Runs form s ts k (s.run form ts) := by
  induction ts generalizing s with
  | nil => exact ⟨0, .done s⟩
  | cons u ts ih =>
    cases h : s.shift form u with
    | error e =>
      rw [run_of_step_error (step_of_shift_error h)]
      exact ⟨0, .refused h⟩
    | ok s₁ =>
      obtain ⟨k, hk⟩ := exists_reduces_reduce form (ts.head?.map Located.value) s₁
      cases hc : (reduce form (ts.head?.map Located.value) s₁).checkClosed with
      | error e =>
        rw [run_of_step_error ((step_of_shift h).trans hc)]
        exact ⟨k, .unclosed h hk reduceOnce_reduce hc⟩
      | ok s₃ =>
        obtain ⟨j, hj⟩ := ih s₃
        rw [run_of_step ((step_of_shift h).trans hc)]
        exact ⟨k + j, .next h hk reduceOnce_reduce hc hj⟩

end Stack

/-- On every stack each rule that is applied lowers the number of pieces and of names among them, so
no rule fits any more after finitely many. The parser applies at most two rules for each token that
it is given, also if it refuses one of them. -/
theorem reductions_bounded (form : Form) :
    (∀ next s t, reduceOnce form next s = some t →
      t.length + t.countP Item.isName < s.length + s.countP Item.isName) ∧
    (∀ next s, ∃ k t, Reduces form next k s t ∧ reduceOnce form next t = none ∧
      reduce form next s = t ∧
      k + (t.length + t.countP Item.isName) ≤ s.length + s.countP Item.isName) ∧
    ∀ ts, (∃ k, Stack.Runs form [] ts k (Stack.run form [] ts)) ∧
      ∀ k r, Stack.Runs form [] ts k r → Stack.run form [] ts = r ∧ k ≤ 2 * ts.length := by
  simp only [← Stack.weight_eq]
  refine ⟨fun next s t h => weight_lt_of_reduceOnce h, fun next s => ?_, fun ts => ⟨?_, ?_⟩⟩
  · obtain ⟨k, hk⟩ := exists_reduces_reduce form next s
    exact ⟨k, _, hk, reduceOnce_reduce, rfl, hk.weight_le⟩
  · exact Stack.exists_runs [] ts
  · intro k r h
    have hle := h.count_le
    rw [Stack.weight, Nat.zero_add] at hle
    exact ⟨h.eq_run, hle⟩

/-- Two names next to each other, which the parser never puts on a stack, and the run over
`y=f(a+b);`: four names, the sum, the call and the entry take seven rules. -/
theorem reductions_bounded_names :
    let s : Stack := [.token (.identifier "b") ⟨1, 2⟩, .token (.identifier "a") ⟨1, 0⟩]
    let t : Stack := [.expr (.var "b" ⟨1, 2⟩), .token (.identifier "a") ⟨1, 0⟩]
    let ts : List (Located Token) :=
      [⟨.identifier "y", ⟨1, 0⟩⟩, ⟨.symbol .assign, ⟨1, 1⟩⟩, ⟨.identifier "f", ⟨1, 2⟩⟩,
        ⟨.symbol .openParen, ⟨1, 3⟩⟩, ⟨.identifier "a", ⟨1, 4⟩⟩, ⟨.symbol .plus, ⟨1, 5⟩⟩,
        ⟨.identifier "b", ⟨1, 6⟩⟩, ⟨.symbol .closeParen, ⟨1, 7⟩⟩, ⟨.symbol .semicolon, ⟨1, 8⟩⟩]
    let e : Expr := .call (.var "f" ⟨1, 2⟩)
      [.binary .add (.var "a" ⟨1, 4⟩) (.var "b" ⟨1, 6⟩) ⟨1, 5⟩] (.ofPosition ⟨1, 3⟩)
    (reduceOnce .batch none s = some t ∧
      t.length + t.countP Item.isName < s.length + s.countP Item.isName) ∧
    Stack.Runs .batch [] ts 7 (.ok [.entries [⟨"y", e, ⟨1, 0⟩⟩]]) ∧
    Stack.run .batch [] ts = .ok [.entries [⟨"y", e, ⟨1, 0⟩⟩]] ∧ 7 ≤ 2 * ts.length := by
  intro s t ts e
  obtain ⟨hrule, -, hruns⟩ := reductions_bounded .batch
  have hrun : Stack.Runs .batch [] ts 7 (.ok [.entries [⟨"y", e, ⟨1, 0⟩⟩]]) :=
    .next (k := 1) rfl (.step rfl (.refl _)) rfl rfl <|
    .next (k := 0) rfl (.refl _) rfl rfl <|
    .next (k := 1) rfl (.step rfl (.refl _)) rfl rfl <|
    .next (k := 0) rfl (.refl _) rfl rfl <|
    .next (k := 1) rfl (.step rfl (.refl _)) rfl rfl <|
    .next (k := 0) rfl (.refl _) rfl rfl <|
    .next (k := 2) rfl (.step rfl (.step rfl (.refl _))) rfl rfl <|
    .next (k := 1) rfl (.step rfl (.refl _)) rfl rfl <|
    .next (k := 1) rfl (.step rfl (.refl _)) rfl rfl (.done _)
  exact ⟨⟨rfl, hrule none s t rfl⟩, hrun, (hruns ts).2 7 _ hrun⟩

end MapExpr
