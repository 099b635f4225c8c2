import MapExpr.Proofs.Parsing.Soundness

/-!
# The parser accepts batches

`parseBatch` accepts exactly the lists of tokens that are cut into entries, and there is one way to
cut them: an assignment sign and a semicolon stand in no target and no value, so the first of each
ends the target and the value of the first entry.

What stands below an entry on the stack is nothing or the entries before it, and neither changes how
the target and the value are read. So a value is read like an expression on its own.
-/

namespace MapExpr

namespace Entry

/-- The entry assigns to the name of `a` what its value is when it is parsed on its own. -/
structure Yields (e : Entry) (a : Assignment) : Prop where
  target : Target e.target a.name a.position
  value : parseExpression e.value = .ok a.value

/-- To be parsed as a value is to mean it. -/
theorem yields_iff {e : Entry} {a : Assignment} : e.Yields a ↔ e.Means a :=
  ⟨fun h => ⟨h.target, parseExpression_eq_ok_iff.1 h.value⟩,
    fun h => ⟨h.target, parseExpression_eq_ok_iff.2 h.value⟩⟩

/-- The entry has a target, and its value is accepted as an expression on its own. -/
def Valid (e : Entry) : Prop :=
  (∃ x p, Target e.target x p) ∧ ∃ v, parseExpression e.value = .ok v

/-- An entry is valid if some assignment is what it yields. -/
theorem valid_iff {e : Entry} : e.Valid ↔ ∃ a, e.Yields a := by
  constructor
  · rintro ⟨⟨x, p, ht⟩, v, hv⟩
    exact ⟨⟨x, v, p⟩, ht, hv⟩
  · rintro ⟨a, ht, hv⟩
    exact ⟨⟨_, _, ht⟩, _, hv⟩

end Entry

/-- The tokens are the valid entries `es` one after the other, of which there is at least one. -/
def Splits (es : List Entry) (ts : List (Located Token)) : Prop :=
  es ≠ [] ∧ es.flatMap Entry.tokens = ts ∧ ∀ e ∈ es, e.Valid

variable {ts us : List (Located Token)} {as : List Assignment} {e : Entry} {a : Assignment}

/-! ## Reading entries -/

namespace Stack

/-- The stack behind the finished entries `as`, the last one first. -/
def ofEntries (as : List Assignment) : Stack :=
  match as with
  | [] => []
  | as => [.entries as]

/-- Behind a finished entry no token has been read. -/
theorem ofEntries_bare : (ofEntries as).Bare := by
  cases as with
  | nil => exact .inl rfl
  | cons a as => exact .inr ⟨_, rfl⟩

variable {s : Stack} {x : String} {v : Expr} {p q r : Position}

/-- Where an entry may begin, an operand may. -/
theorem Bare.ready (h : s.Bare) : s.Ready := by
  rcases h with rfl | ⟨as, rfl⟩ <;> exact ⟨rfl, rfl⟩

/-- The first phrase of an entry may be of any level. -/
theorem Bare.rightLevel (h : s.Bare) : s.rightLevel = 0 := by
  rcases h with rfl | ⟨as, rfl⟩ <;> rfl

/-- An assignment sign is accepted behind the first name of an entry. -/
theorem Bare.proceed_assign (h : s.Bare) :
    proceed .batch (.expr (.var x q) :: s) (⟨.symbol .assign, p⟩ :: ts)
      = run .batch (.token (.symbol .assign) p :: .expr (.var x q) :: s) ts := by
  have hm : proceed .batch (.expr (.var x q) :: s) (⟨.symbol .assign, p⟩ :: ts)
      = proceed .batch (.token (.symbol .assign) p :: .expr (.var x q) :: s) ts := by
    rcases h with rfl | ⟨as, rfl⟩ <;> exact proceed_cons rfl rfl rfl
  rw [hm, proceed_of_isQuiet rfl]

/-- A semicolon behind a value ends the entry. -/
theorem proceed_semicolon :
    proceed .batch (.expr v :: .token (.symbol .assign) p :: .expr (.var x q) :: s)
        (⟨.symbol .semicolon, r⟩ :: ts)
      = proceed .batch (.entries [⟨x, v, q⟩] :: s) ts := by
  calc proceed .batch (.expr v :: .token (.symbol .assign) p :: .expr (.var x q) :: s)
        (⟨.symbol .semicolon, r⟩ :: ts)
    _ = proceed .batch (.token (.symbol .semicolon) r :: .expr v ::
          .token (.symbol .assign) p :: .expr (.var x q) :: s) ts :=
      proceed_cons (reduceOnce_expr_token nofun nofun nofun) rfl rfl
    _ = proceed .batch (.entries [⟨x, v, q⟩] :: s) ts := proceed_of_rule (.entry rfl)

/-- Finished entries are joined with those before them. -/
theorem proceed_entries :
    proceed .batch (.entries [a] :: ofEntries as) ts = run .batch (ofEntries (a :: as)) ts := by
  cases as with
  | nil => exact proceed_eq_run rfl rfl
  | cons b bs =>
    have hj : proceed .batch (.entries [a] :: ofEntries (b :: bs)) ts
        = proceed .batch (ofEntries (a :: b :: bs)) ts := proceed_of_rule (.join rfl)
    rw [hj]
    exact proceed_eq_run rfl rfl

/-- One entry is read behind any finished ones. -/
theorem run_entry (h : e.Means a) :
    run .batch (ofEntries as) (e.tokens ++ ts) = run .batch (ofEntries (a :: as)) ts := by
  have hb : (ofEntries as).Bare := ofEntries_bare
  -- The target is a phrase too, so both sides of the assignment sign are read as phrases.
  obtain ⟨d, hd, hdt, hda⟩ := (means_var_iff (Nat.zero_le 9)).2 h.target
  obtain ⟨w, hw, hwt, hwa⟩ := h.value
  have htarget := reads_phrase .batch d hd
  have hvalue := reads_phrase .batch w hw
  rw [hdt, hda] at htarget
  rw [hwt, hwa] at hvalue
  calc run .batch (ofEntries as) (e.tokens ++ ts)
    _ = run .batch (ofEntries as) (e.target ++ ⟨.symbol .assign, e.equals⟩ ::
          (e.value ++ ⟨.symbol .semicolon, e.semicolon⟩ :: ts)) := by
      rw [Entry.tokens]
      simp only [List.append_assoc, List.cons_append, List.nil_append]
    _ = proceed .batch (.expr (.var a.name a.position) :: ofEntries as)
          (⟨.symbol .assign, e.equals⟩ ::
            (e.value ++ ⟨.symbol .semicolon, e.semicolon⟩ :: ts)) :=
      htarget hb.ready (Nat.le_of_eq hb.rightLevel) (Nat.le_refl 0)
    _ = run .batch (.token (.symbol .assign) e.equals :: .expr (.var a.name a.position) ::
          ofEntries as) (e.value ++ ⟨.symbol .semicolon, e.semicolon⟩ :: ts) := hb.proceed_assign
    _ = proceed .batch (.expr a.value :: .token (.symbol .assign) e.equals ::
          .expr (.var a.name a.position) :: ofEntries as)
          (⟨.symbol .semicolon, e.semicolon⟩ :: ts) :=
      hvalue (.token nofun) (Nat.le_refl 0) (Nat.le_refl 0)
    _ = proceed .batch (.entries [a] :: ofEntries as) ts := proceed_semicolon
    _ = run .batch (ofEntries (a :: as)) ts := proceed_entries

/-- All entries are read, one after the other. -/
theorem run_entries {es : List Entry} {bs : List Assignment} (h : List.Forall₂ Entry.Means es bs) :
    run .batch (ofEntries as) (es.flatMap Entry.tokens) = .ok (ofEntries (bs.reverse ++ as)) := by
  induction h generalizing as with
  | nil => rfl
  | @cons e b es bs he hes ih =>
    rw [List.flatMap_cons, run_entry he, ih, List.reverse_cons, List.append_assoc]
    rfl

end Stack

/-- Entries one after the other are accepted, with the assignments that they mean. -/
theorem parseBatch_of_means (h : MeansEntries ts as) : parseBatch ts = .ok as := by
  obtain ⟨es, hes, rfl, has⟩ := h
  have hrun : Stack.run .batch [] (es.flatMap Entry.tokens) = .ok (Stack.ofEntries as.reverse) := by
    have h : Stack.run .batch (Stack.ofEntries []) (es.flatMap Entry.tokens)
        = .ok (Stack.ofEntries (as.reverse ++ [])) := Stack.run_entries has
    rw [List.append_nil] at h
    exact h
  have hne : as.reverse ≠ [] := by
    intro hnil
    rw [List.reverse_eq_nil_iff] at hnil
    subst hnil
    cases has
    exact hes rfl
  have hof : Stack.ofEntries as.reverse = [.entries as.reverse] := by
    cases hr : as.reverse with
    | nil => exact absurd hr hne
    | cons b bs => rfl
  rw [parseBatch, hrun, hof]
  exact congrArg Except.ok (List.reverse_reverse as)

/-- An accepted list of tokens is cut into entries that mean what is returned. -/
theorem means_of_parseBatch (h : parseBatch ts = .ok as) : MeansEntries ts as := by
  unfold parseBatch at h
  split at h
  · cases h
  · next hs =>
    cases h
    have hp := (settled_of_run hs).parsed
    cases hp with
    | waiting h =>
      cases h with
      | entries hf h => exact h
    | entries hf h hb ha hts =>
      cases h with
      | start => rwa [hts]
  · cases h

/-! ## Where entries end -/

/-- Tokens that stand in no expression. -/
def Token.endsPart : Token → Bool
  | .symbol .assign | .symbol .semicolon => true
  | _ => false

/-- A constant ends no part of an entry. -/
theorem Token.endsPart_of_literal? {t : Token} {v : Literal} (h : t.literal? = some v) :
    t.endsPart = false := by
  unfold Token.literal? at h
  split at h <;> first | rfl | cases h

/-- An operator in front of its operand ends no part of an entry. -/
theorem Token.endsPart_of_unaryOp? {t : Token} {op : UnaryOp} (h : t.unaryOp? = some op) :
    t.endsPart = false := by
  unfold Token.unaryOp? at h
  split at h <;> first | rfl | cases h

/-- An operator between two operands ends no part of an entry. -/
theorem Token.endsPart_of_binaryOp? {t : Token} {op : BinaryOp} (h : t.binaryOp? = some op) :
    t.endsPart = false := by
  unfold Token.binaryOp? at h
  split at h <;> first | rfl | cases h

mutual

/-- No token of a phrase ends a part of an entry. -/
theorem Phrase.endsPart_eq_false {n : Nat} : (d : Phrase) → d.Fits n →
    ∀ t ∈ d.tokens, t.value.endsPart = false
  | .literal t v, h => by
    simpa [Phrase.tokens] using Token.endsPart_of_literal? h.2
  | .name x p, _ => by
    simp [Phrase.tokens, Token.endsPart]
  | .group p d q, h => by
    have hd := d.endsPart_eq_false h.2
    simpa [Phrase.tokens, Token.endsPart, or_imp, forall_and] using hd
  | .emptyVector p q, _ => by
    simp [Phrase.tokens, Token.endsPart]
  | .vector p r q, h => by
    have hr := r.endsPart_eq_false h.2
    simpa [Phrase.tokens, Token.endsPart, or_imp, forall_and] using hr
  | .member d p x q, h => by
    have hd := d.endsPart_eq_false h.2
    simpa [Phrase.tokens, Token.endsPart, or_imp, forall_and] using hd
  | .emptyCall d p q, h => by
    have hd := d.endsPart_eq_false h.2
    simpa [Phrase.tokens, Token.endsPart, or_imp, forall_and] using hd
  | .call d p r q, h => by
    have hd := d.endsPart_eq_false h.2.1
    have hr := r.endsPart_eq_false h.2.2
    simpa [Phrase.tokens, Token.endsPart, or_imp, forall_and] using ⟨hd, hr⟩
  | .index d p i q, h => by
    have hd := d.endsPart_eq_false h.2.1
    have hi := i.endsPart_eq_false h.2.2
    simpa [Phrase.tokens, Token.endsPart, or_imp, forall_and] using ⟨hd, hi⟩
  | .unary t op d, h => by
    have ht := Token.endsPart_of_unaryOp? h.2.1
    have hd := d.endsPart_eq_false h.2.2
    simpa [Phrase.tokens, or_imp, forall_and] using ⟨ht, hd⟩
  | .binary l t op r, h => by
    have ht := Token.endsPart_of_binaryOp? h.2.1
    have hl := l.endsPart_eq_false h.2.2.1
    have hr := r.endsPart_eq_false h.2.2.2
    simpa [Phrase.tokens, or_imp, forall_and] using ⟨hl, ht, hr⟩
  | .question c p y q d, h => by
    have hc := c.endsPart_eq_false h.2.1
    have hy := y.endsPart_eq_false h.2.2.1
    have hd := d.endsPart_eq_false h.2.2.2
    simpa [Phrase.tokens, Token.endsPart, or_imp, forall_and] using ⟨hc, hy, hd⟩
  | .ifElse y p c q d, h => by
    have hy := y.endsPart_eq_false h.2.1
    have hc := c.endsPart_eq_false h.2.2.1
    have hd := d.endsPart_eq_false h.2.2.2
    simpa [Phrase.tokens, Token.endsPart, or_imp, forall_and] using ⟨hy, hc, hd⟩

/-- No token of a row ends a part of an entry. -/
theorem Row.endsPart_eq_false : (r : Row) → r.Fits → ∀ t ∈ r.tokens, t.value.endsPart = false
  | .one d, h => by
    have hd := d.endsPart_eq_false h
    simpa [Row.tokens] using hd
  | .more r p d, h => by
    have hr := r.endsPart_eq_false h.1
    have hd := d.endsPart_eq_false h.2
    simpa [Row.tokens, Token.endsPart, or_imp, forall_and] using ⟨hr, hd⟩

end

/-- No token of an expression ends a part of an entry. -/
theorem Means.endsPart_eq_false {n : Nat} {v : Expr} (h : Means n ts v) :
    ∀ t ∈ ts, t.value.endsPart = false := by
  obtain ⟨d, hd, rfl, -⟩ := h
  exact d.endsPart_eq_false hd

/-- Two runs that hold no such token are equal if one comes behind each of them. -/
theorem append_cons_inj_of_endsPart {us vs us' vs' : List (Located Token)} {t t' : Located Token}
    (hu : ∀ u ∈ us, u.value.endsPart = false) (hu' : ∀ u ∈ us', u.value.endsPart = false)
    (ht : t.value.endsPart = true) (ht' : t'.value.endsPart = true)
    (h : us ++ t :: vs = us' ++ t' :: vs') : us = us' ∧ t = t' ∧ vs = vs' := by
  induction us generalizing us' with
  | nil =>
    cases us' with
    | nil =>
      obtain ⟨rfl, rfl⟩ := List.cons.inj h
      exact ⟨rfl, rfl, rfl⟩
    | cons u us' =>
      obtain ⟨rfl, -⟩ := List.cons.inj h
      rw [hu' t List.mem_cons_self] at ht
      cases ht
  | cons u us ih =>
    cases us' with
    | nil =>
      obtain ⟨rfl, -⟩ := List.cons.inj h
      rw [hu u List.mem_cons_self] at ht'
      cases ht'
    | cons u' us' =>
      obtain ⟨rfl, hrest⟩ := List.cons.inj h
      obtain ⟨rfl, ht, hv⟩ := ih (fun w hw => hu w (List.mem_cons_of_mem _ hw))
        (fun w hw => hu' w (List.mem_cons_of_mem _ hw)) hrest
      exact ⟨rfl, ht, hv⟩

/-- The first entry of two valid ones with the same tokens in front. -/
theorem Entry.eq_of_tokens {e' : Entry} (he : e.Valid) (he' : e'.Valid)
    (h : e.tokens ++ ts = e'.tokens ++ us) : e = e' ∧ ts = us := by
  obtain ⟨a, ha⟩ := Entry.valid_iff.1 he
  obtain ⟨a', ha'⟩ := Entry.valid_iff.1 he'
  obtain ⟨ht, hv⟩ := Entry.yields_iff.1 ha
  obtain ⟨ht', hv'⟩ := Entry.yields_iff.1 ha'
  rw [← means_var_iff (Nat.zero_le 9)] at ht ht'
  have htokens : e.target ++ ⟨.symbol .assign, e.equals⟩ ::
        (e.value ++ ⟨.symbol .semicolon, e.semicolon⟩ :: ts)
      = e'.target ++ ⟨.symbol .assign, e'.equals⟩ ::
        (e'.value ++ ⟨.symbol .semicolon, e'.semicolon⟩ :: us) := by
    simpa [Entry.tokens] using h
  obtain ⟨h₁, h₂, hvalue⟩ := append_cons_inj_of_endsPart ht.endsPart_eq_false
    ht'.endsPart_eq_false rfl rfl htokens
  obtain ⟨h₃, h₄, hrest⟩ := append_cons_inj_of_endsPart hv.endsPart_eq_false
    hv'.endsPart_eq_false rfl rfl hvalue
  obtain ⟨w, p, x, q⟩ := e
  obtain ⟨w', p', x', q'⟩ := e'
  cases h₁
  cases h₂
  cases h₃
  cases h₄
  exact ⟨rfl, hrest⟩

/-- An entry has tokens. -/
theorem Entry.tokens_ne_nil : e.tokens ≠ [] := by
  rw [Entry.tokens]
  exact List.append_ne_nil_of_right_ne_nil _ (List.cons_ne_nil _ _)

/-- Tokens are cut into valid entries in at most one way. -/
theorem Splits.unique {es es' : List Entry} (h : Splits es ts) (h' : Splits es' ts) : es = es' := by
  obtain ⟨-, hts, hv⟩ := h
  obtain ⟨-, hts', hv'⟩ := h'
  induction es generalizing es' ts with
  | nil =>
    subst hts
    cases es' with
    | nil => rfl
    | cons e' es' => exact absurd (List.append_eq_nil_iff.1 hts').1 Entry.tokens_ne_nil
  | cons e es ih =>
    cases es' with
    | nil =>
      subst hts'
      exact absurd (List.append_eq_nil_iff.1 hts).1 Entry.tokens_ne_nil
    | cons e' es' =>
      obtain ⟨rfl, hrest⟩ := Entry.eq_of_tokens (hv e List.mem_cons_self)
        (hv' e' List.mem_cons_self) (hts.trans hts'.symm)
      rw [ih rfl (fun w hw => hv w (List.mem_cons_of_mem _ hw)) hrest.symm
        (fun w hw => hv' w (List.mem_cons_of_mem _ hw))]

/-! ## Batches -/

/-- Entries mean the assignments that they yield, one by one. -/
theorem forall₂_means_iff {es : List Entry} :
    List.Forall₂ Entry.Means es as ↔ List.Forall₂ Entry.Yields es as := by
  have : Entry.Means = Entry.Yields := by
    funext e a
    exact propext Entry.yields_iff.symm
  rw [this]

/-- Valid entries are those that yield some assignments. -/
theorem forall_valid_iff {es : List Entry} :
    (∀ e ∈ es, e.Valid) ↔ ∃ as, List.Forall₂ Entry.Yields es as := by
  constructor
  · intro h
    induction es with
    | nil => exact ⟨[], .nil⟩
    | cons e es ih =>
      obtain ⟨a, ha⟩ := Entry.valid_iff.1 (h e List.mem_cons_self)
      obtain ⟨as, has⟩ := ih fun w hw => h w (List.mem_cons_of_mem _ hw)
      exact ⟨a :: as, .cons ha has⟩
  · rintro ⟨as, h⟩
    induction h with
    | nil => exact fun e he => absurd he List.not_mem_nil
    | @cons e a es as he _ ih =>
      intro w hw
      rcases List.mem_cons.1 hw with rfl | hw
      · exact Entry.valid_iff.2 ⟨a, he⟩
      · exact ih w hw

/-- The tokens mean the entries `as` if they are cut into valid entries that yield `as`. -/
theorem meansEntries_iff :
    MeansEntries ts as ↔ ∃ es, Splits es ts ∧ List.Forall₂ Entry.Yields es as := by
  constructor
  · rintro ⟨es, hes, hts, h⟩
    rw [forall₂_means_iff] at h
    exact ⟨es, ⟨hes, hts, forall_valid_iff.2 ⟨as, h⟩⟩, h⟩
  · rintro ⟨es, ⟨hes, hts, -⟩, h⟩
    exact ⟨es, hes, hts, forall₂_means_iff.2 h⟩

/-- The parser accepts the tokens that are entries, with the assignments that these mean. -/
theorem parseBatch_eq_ok_iff : parseBatch ts = .ok as ↔ MeansEntries ts as :=
  ⟨means_of_parseBatch, parseBatch_of_means⟩

/-- A list of tokens is accepted as a batch if and only if it is cut into valid entries, which is
possible in one way only, and then every entry yields one assignment, in order; its value is that of
the expression on its own. Every other list is rejected. -/
theorem parseBatch_iff_unique_split (ts : List (Located Token)) :
    (∀ as, parseBatch ts = .ok as ↔
      ∃ es, (∀ es', Splits es' ts ↔ es' = es) ∧ List.Forall₂ Entry.Yields es as) ∧
    ((∃ fault, parseBatch ts = .error fault) ↔ ∀ es, ¬ Splits es ts) := by
  refine ⟨fun as => ⟨?_, ?_⟩, ?_, ?_⟩
  · intro h
    obtain ⟨es, hes, has⟩ := meansEntries_iff.1 (means_of_parseBatch h)
    exact ⟨es, fun es' => ⟨fun h' => h'.unique hes, fun h' => h' ▸ hes⟩, has⟩
  · rintro ⟨es, hes, has⟩
    exact parseBatch_of_means (meansEntries_iff.2 ⟨es, (hes es).2 rfl, has⟩)
  · rintro ⟨fault, hf⟩ es hes
    obtain ⟨as, has⟩ := forall_valid_iff.1 hes.2.2
    rw [parseBatch_of_means (meansEntries_iff.2 ⟨es, hes, has⟩)] at hf
    cases hf
  · intro h
    cases hp : parseBatch ts with
    | error fault => exact ⟨fault, rfl⟩
    | ok as =>
      obtain ⟨es, hes, -⟩ := meansEntries_iff.1 (means_of_parseBatch hp)
      exact absurd hes (h es)

end MapExpr
