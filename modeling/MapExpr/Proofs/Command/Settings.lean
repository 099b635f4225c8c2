import MapExpr.Command
import MapExpr.Proofs.Layout
import MapExpr.Proofs.Lexing.Seams
import MapExpr.Proofs.Parsing.Batch

/-!
# Settings are the entries of a batch

A setting `name=expression` of the command line is cut at its first `=`, and its expression is read
and evaluated on its own. The same settings with semicolons behind them make up the text of a batch,
which is scanned and parsed as a whole before anything is evaluated. Both ways have the same effect:
they bind the same names to the same values, and if one stops, the other stops at the same place and
for the same reason (`applySettings_agree_batch`).

The text is scanned entry by entry (`exists_entry`), and what the parser makes of the value of an
entry is what it makes of the expression of the setting, but for the places. In a standard context
these are reported only, so the two ways agree at every setting (`Agree.cons`) and in the whole.
-/

namespace MapExpr

namespace Setting

/-- The text in front of the first `=`, without the blanks at its ends. -/
def name (s : String) : String := String.ofList (Text.trim (s.toList.takeWhile (· ≠ '=')))

/-- The text behind the first `=`. -/
def expression (s : String) : String := String.ofList ((s.toList.dropWhile (· ≠ '=')).drop 1)

/-- The name of the setting is an identifier, and its expression can be read. -/
structure Accepted (s : String) : Prop where
  assigns : '=' ∈ s.toList
  isIdentifier : isIdentifier (name s) = true
  reads : ∃ e, readExpression (expression s) = .ok e

/-- The settings as the text of a batch. -/
def batch : List String → String
  | [] => ""
  | s :: ss => name s ++ "=" ++ expression s ++ ";" ++ batch ss

/-- The entry assigns to the name of the setting what its expression is read as, but for the
places. -/
structure Enters (s : String) (a : Assignment) : Prop where
  name : a.name = Setting.name s
  value : ∃ e, readExpression (expression s) = .ok e ∧ a.value.erase = e.erase

/-- The text of a batch begins with the first setting and the semicolon behind it. -/
theorem toList_batch_cons (s : String) (ss : List String) :
    (batch (s :: ss)).toList
      = (name s).toList ++ '=' :: ((expression s).toList ++ ';' :: (batch ss).toList) := by
  simp [batch]

/-- The name of an accepted setting is a name, without any blank. -/
theorem isName_name {s : String} (h : isIdentifier (name s) = true) : IsName (name s) :=
  isName_of_isIdentifier_trim h

end Setting

/-! ## Reading -/

/-- A text whose only token is a name is read as a variable. -/
theorem readExpression_of_tokenize {source x : String} {p : Position}
    (h : tokenize .expression source = .ok [⟨.identifier x, p⟩]) :
    readExpression source = .ok (.var x p) :=
  readExpression_eq_ok_iff.2 ⟨_, h,
    parseExpression_eq_ok_iff.2 ((means_var_iff (Nat.zero_le 9)).2 .name)⟩

/-- A name that is read as an expression is a variable at the start of the text. -/
theorem IsName.readExpression {x : String} (hx : IsName x) :
    readExpression x = .ok (.var x .start) :=
  readExpression_of_tokenize (hx.tokenize .expression)

/-- An expression does not begin with the sign of an assignment or of a comparison. -/
theorem head?_ne_of_readExpression {source : String} {e : Expr}
    (h : readExpression source = .ok e) : source.toList.head? ≠ some '=' := by
  intro hhead
  obtain ⟨ts, hts, he⟩ := readExpression_eq_ok_iff.1 h
  obtain ⟨q, hs⟩ := exists_scans_of_scan hts
  have hblank : '=' ∉ blanks := by decide
  generalize source.toList = cs at hhead hs
  generalize hrest : ([] : List Char) = rest at hs
  cases hs with
  | blanks hw =>
    subst hrest
    rw [List.append_nil] at hhead
    exact hblank (hw _ (List.mem_of_mem_head? hhead))
  | @lexeme _ _ w l _ _ t _ hw hl hf _ =>
    cases w with
    | cons c w =>
      obtain rfl := Option.some.inj hhead
      exact hblank (hw _ List.mem_cons_self)
    | nil =>
      obtain ⟨c, v, rfl⟩ := List.exists_cons_of_ne_nil hl.spells.ne_nil
      obtain rfl := Option.some.inj hhead
      rcases hl.spells.of_equals with ⟨-, rfl⟩ | ⟨-, rfl⟩
      · exact hf.elim nofun fun hne => hne rfl
      · cases he

namespace Setting

variable {s : String} {ss : List String}

/-- A setting with a semicolon behind it is scanned as an entry, whatever comes next. -/
theorem exists_entry (hs : Accepted s) (p : Position) (more : List Char) :
    ∃ (e : Entry) (a : Assignment) (q : Position),
      Scans .batch p ((name s).toList ++ '=' :: ((expression s).toList ++ ';' :: more)) e.tokens q
        more ∧ e.Means a ∧ Enters s a := by
  obtain ⟨tree, htree⟩ := hs.reads
  obtain ⟨us, hus, hparse⟩ := readExpression_eq_ok_iff.1 htree
  obtain ⟨q, hscan⟩ := exists_scans_of_scan hus
  obtain ⟨p₁, vs, p₂, p₃, hentry, hvalues⟩ :=
    hscan.exists_entry (isName_name hs.isIdentifier) (head?_ne_of_readExpression htree) p more
  -- The tokens of the value are those of the expression elsewhere, so the parser makes of them what
  -- it makes of the expression.
  have hparsed := parseExpression_movesAlong.parse_congr hvalues
  rw [← funext Expr.erase_eq_relocate] at hparsed
  rcases cases_of_withoutPlace_map hparsed with ⟨f, f', -, hf, -⟩ | ⟨v, w, hv, hw, heq⟩
  · cases hf.symm.trans hparse
  · obtain rfl := Except.ok.inj (hw.symm.trans hparse)
    exact ⟨⟨[⟨.identifier (name s), p⟩], p₁, vs, p₂⟩, ⟨name s, v, p⟩, p₃, hentry,
      Entry.yields_iff.1 ⟨.name, hv⟩, ⟨rfl, w, htree, heq⟩⟩

/-- The text of a batch is scanned into entries, one for each setting. -/
theorem exists_entries (hss : ∀ s ∈ ss, Accepted s) (p : Position) :
    ∃ (es : List Entry) (as : List Assignment) (q : Position),
      Scans .batch p (batch ss).toList (es.flatMap Entry.tokens) q [] ∧
      List.Forall₂ Entry.Means es as ∧ List.Forall₂ Enters ss as := by
  induction ss generalizing p with
  | nil => exact ⟨[], [], p, .nil, .nil, .nil⟩
  | cons s ss ih =>
    rw [List.forall_mem_cons] at hss
    obtain ⟨e, a, q, hs, he, ha⟩ := exists_entry hss.1 p (batch ss).toList
    obtain ⟨es, as, r, hrest, hes, has⟩ := ih hss.2 q
    rw [toList_batch_cons]
    exact ⟨e :: es, a :: as, r, hs.trans hrest, .cons he hes, .cons ha has⟩

/-- The text of a batch is read as one entry for each setting. -/
theorem exists_readBatch (hne : ss ≠ []) (hss : ∀ s ∈ ss, Accepted s) :
    ∃ as, readBatch (batch ss) = .ok as ∧ List.Forall₂ Enters ss as := by
  obtain ⟨es, as, q, hs, hes, has⟩ := exists_entries hss .start
  have hnil : es ≠ [] := by
    rintro rfl
    cases hes
    cases has
    exact hne rfl
  refine ⟨as, readBatch_eq_ok_iff.2 ⟨_, scan_of_scans_nil hs, ?_⟩, has⟩
  exact parseBatch_of_means ⟨es, hnil, rfl, hes⟩

/-- The entries of a batch are named as its settings, in the same order. -/
theorem map_name_eq {as : List Assignment} (h : List.Forall₂ Enters ss as) :
    as.map Assignment.name = ss.map name := by
  induction h with
  | nil => rfl
  | cons ha _ ih => rw [List.map_cons, List.map_cons, ha.name, ih]

end Setting

/-! ## Applying -/

namespace Context

open Setting

variable {H : Host} {c d : Context H} {s : String} {ss : List String} {a : Assignment}
  {as : List Assignment}

/-- Settings and entries are applied with the same effect: to the end, with the same bindings, or up
to the same number `i`, where both fail for the same reason after the same bindings. -/
inductive Agree (c : Context H) (ss : List String) (as : List Assignment) : Prop
  | completed (d : Context H) (settings : c.applySettings ss = (d, none))
      (entries : c.assign as = (d, none))
  | stopped (i : Nat) (s : String) (a : Assignment) (d : Context H) (fault : EvalFault)
      (p q : Position) (setting : ss[i]? = some s) (entry : as[i]? = some a)
      (settingsBefore : c.applySettings (ss.take i) = (d, none))
      (entriesBefore : c.assign (as.take i) = (d, none))
      (settingFails : d.applySetting s = .error (.settingFailed (name s) ⟨.eval fault, p⟩))
      (entryFails : d.assignOne a = .error ⟨fault, q⟩)
      (settings : c.applySettings ss = (d, some (.settingFailed (name s) ⟨.eval fault, p⟩)))
      (entries : c.assign as = (d, some ⟨fault, q⟩))

/-- Of an accepted setting only the value of its expression decides. -/
theorem applySetting_of_accepted (hs : Accepted s) : c.applySetting s =
    match c.evaluate (expression s) with
    | .ok v => .ok (c.bind (name s) v)
    | .error fault => .error (.settingFailed (name s) fault) := by
  have hcut : s.toList.dropWhile (· ≠ '=') ≠ [] := by
    intro hnil
    have hall := List.dropWhile_eq_nil_iff.1 hnil '=' hs.assigns
    simp at hall
  obtain ⟨b, cs, hcs⟩ := List.exists_cons_of_ne_nil hcut
  have hidentifier := hs.isIdentifier
  rw [name] at hidentifier
  rw [applySetting, expression, name]
  dsimp only
  rw [hcs, List.drop_one, List.tail_cons]
  exact if_pos hidentifier

/-- A setting and its entry bind the same name to the same value, or they fail for one reason. -/
theorem applySetting_agree (hc : c.Standard) (hs : Accepted s) (ha : Enters s a) :
    (∃ d, c.applySetting s = .ok d ∧ c.assignOne a = .ok d) ∨
      ∃ fault p q, c.applySetting s = .error (.settingFailed (name s) ⟨.eval fault, p⟩) ∧
        c.assignOne a = .error ⟨fault, q⟩ := by
  obtain ⟨hname, e, he, hvalue⟩ := ha
  have heval := eval_eq_of_erase_eq hc hvalue
  rw [applySetting_of_accepted hs, evaluate_of_readExpression he, assignOne, hname]
  cases hv : c.eval a.value with
  | ok v =>
    cases hw : c.eval e with
    | ok w =>
      rw [hv, hw] at heval
      cases heval
      exact .inl ⟨_, rfl, rfl⟩
    | error f =>
      rw [hv, hw] at heval
      cases heval
  | error f =>
    cases hw : c.eval e with
    | ok w =>
      rw [hv, hw] at heval
      cases heval
    | error g =>
      rw [hv, hw] at heval
      obtain ⟨fault, q⟩ := f
      obtain ⟨fault', p⟩ := g
      obtain rfl : fault = fault' := Except.error.inj heval
      exact .inr ⟨fault, p, q, rfl, rfl⟩

/-- One more setting in front that is applied to its end. -/
theorem Agree.cons (hsetting : c.applySetting s = .ok d) (hentry : c.assignOne a = .ok d)
    (h : d.Agree ss as) : c.Agree (s :: ss) (a :: as) := by
  have hsettings : ∀ ss, c.applySettings (s :: ss) = d.applySettings ss := fun ss => by
    rw [applySettings, hsetting]
  have hentries : ∀ as, c.assign (a :: as) = d.assign as := fun as => by
    rw [assign, hentry]
  cases h with
  | completed d' h h' =>
    exact .completed d' ((hsettings ss).trans h) ((hentries as).trans h')
  | stopped i t b d' fault p q ht hb h h' hf hf' hend hend' =>
    exact .stopped (i + 1) t b d' fault p q ht hb ((hsettings _).trans h) ((hentries _).trans h')
      hf hf' ((hsettings ss).trans hend) ((hentries as).trans hend')

/-- Settings and their entries are applied with the same effect. -/
theorem applySettings_agree (hc : c.Standard) (hss : ∀ s ∈ ss, Accepted s)
    (h : List.Forall₂ Enters ss as) : c.Agree ss as := by
  induction h generalizing c with
  | nil => exact .completed c rfl rfl
  | @cons s a ss as ha _ ih =>
    rw [List.forall_mem_cons] at hss
    rcases applySetting_agree hc hss.1 ha with ⟨d, hs, ha⟩ | ⟨fault, p, q, hs, ha⟩
    · exact .cons hs ha (ih (hc.assignOne ha) hss.2)
    · refine .stopped 0 s a c fault p q rfl rfl rfl rfl hs ha ?_ ?_
      · rw [applySettings, hs]
      · rw [assign, ha]

/-- Settings are applied with the same effect as the batch that is written of them. A name that is
accepted in a setting is spelled as an identifier, so that an expression can refer to it. -/
theorem applySettings_agree_batch (hc : c.Standard) (hne : ss ≠ [])
    (hss : ∀ s ∈ ss, Accepted s) :
    (∃ as, readBatch (batch ss) = .ok as ∧ as.map Assignment.name = ss.map name ∧
      c.run (batch ss) = ((c.assign as).1, (c.assign as).2.map (Located.map Fault.eval)) ∧
      c.Agree ss as) ∧
    (c.run (batch ss)).1 = (c.applySettings ss).1 ∧
    ∀ s, isIdentifier (name s) = true →
      IsName (name s) ∧ ∀ d : Context H, d.evaluate (name s) = .ok (d.lookup (name s)) := by
  obtain ⟨as, has, henters⟩ := exists_readBatch hne hss
  have hagree := applySettings_agree hc hss henters
  have hrun : c.run (batch ss)
      = ((c.assign as).1, (c.assign as).2.map (Located.map Fault.eval)) := run_of_readBatch has
  refine ⟨⟨as, has, map_name_eq henters, hrun, hagree⟩, ?_, fun s hs => ?_⟩
  · rw [hrun]
    cases hagree with
    | completed d hd hd' => rw [hd, hd']
    | stopped i s a d fault p q _ _ _ _ _ _ hd hd' => rw [hd, hd']
  · have hname := isName_name hs
    refine ⟨hname, fun d => ?_⟩
    rw [evaluate_of_readExpression hname.readExpression]
    rfl

/-- Of `s = 'x'` and `t=abs(s)` the second fails. As entries of a batch they bind `s` too, and the
fault stands further to the right. -/
theorem applySettings_agree_batch_stopped :
    let c : Context Host.bare := (empty .bare).bindLibrary
    let ss := [" s = 'x'", "t=abs(s)"]
    (batch ss = "s= 'x';t=abs(s);" ∧
      (∃ as, readBatch (batch ss) = .ok as ∧ as.map Assignment.name = ["s", "t"] ∧ c.Agree ss as) ∧
      (c.run (batch ss)).1 = (c.applySettings ss).1) ∧
    (c.applySettings ss).2
      = some (.settingFailed "t" ⟨.eval (.expectedNumber .string), ⟨1, 3⟩⟩) ∧
    (c.run (batch ss)).2 = some ⟨.eval (.expectedNumber .string), ⟨1, 12⟩⟩ := by
  intro c ss
  have hc : c.Standard := standard_bare.bindLibrary
  have hfirst : Accepted " s = 'x'" := ⟨by decide, by cbv, _, by cbv⟩
  have hsecond : Accepted "t=abs(s)" := ⟨by decide, by cbv, _, by cbv⟩
  have hss : ∀ s ∈ ss, Accepted s :=
    List.forall_mem_cons.2 ⟨hfirst, List.forall_mem_singleton.2 hsecond⟩
  obtain ⟨⟨as, has, hnames, -, hagree⟩, hcontext, -⟩ :=
    applySettings_agree_batch hc (List.cons_ne_nil _ _) hss
  exact ⟨⟨by cbv, ⟨as, has, hnames, hagree⟩, hcontext⟩, by cbv, by cbv⟩

end Context

end MapExpr
