import MapExpr.Proofs.Number.Value

/-!
# The order of floats

Floats are compared by their parts. Two numbers of which neither is a NaN stand in one order or the
other (`le_of_not_lt`), and floats that are equal to rational numbers are compared as these are
(`compare_of_value?`). For whole floats this says how they are compared with zero and with the
greatest safe number (`lt_zero_iff`, `maxSafe_lt_iff`).
-/

namespace MapExpr

namespace Number

open Float.Model Float.Model.UnpackedFloat

/-- Comparing exponents and then mantissas the other way round gives the opposite order. -/
theorem compareParts_swap (e₁ e₂ : Int) (m₁ m₂ : Nat) :
    (compare e₂ e₁).then (compare m₂ m₁) = ((compare e₁ e₂).then (compare m₁ m₂)).swap := by
  rw [Ordering.swap_then, Int.compare_swap, Nat.compare_swap]

/-- Comparing the other way round turns the result round. -/
theorem compare_swap (u v : UnpackedFloat) :
    v.compare u = (u.compare v).map Ordering.swap := by
  rcases u with (_ | _) | _ | (_ | _) | ⟨_ | _, m₁, e₁, h₁⟩ <;>
    rcases v with (_ | _) | _ | (_ | _) | ⟨_ | _, m₂, e₂, h₂⟩ <;> try rfl
  -- two finite floats of one sign are left
  · exact congrArg (fun o => some o.swap) (compareParts_swap ..)
  · exact congrArg some (compareParts_swap ..)

/-- Of two numbers of which neither is a NaN, one is not above the other. -/
theorem compare_ne_none {u v : UnpackedFloat} (hu : u.isNaN = false) (hv : v.isNaN = false) :
    u.compare v ≠ none := by
  fun_cases UnpackedFloat.compare u v
  · cases hu
  · cases hv
  all_goals exact nofun

/-- A float is below another one if its parts are. -/
theorem lt_iff_compare (x y : Float) :
    x < y ↔ x.toModel.unpack.compare y.toModel.unpack = some .lt := by
  show (decide (x.toModel < y.toModel)) = true ↔ _
  rw [decide_eq_true_eq]
  show (x.toModel.unpack.lt y.toModel.unpack) = true ↔ _
  rw [UnpackedFloat.lt, beq_iff_eq]

/-- A float is not above another one if its parts are not. -/
theorem le_iff_compare (x y : Float) :
    x ≤ y ↔ ∃ o, x.toModel.unpack.compare y.toModel.unpack = some o ∧ o.isLE := by
  show (decide (x.toModel ≤ y.toModel)) = true ↔ _
  rw [decide_eq_true_eq]
  show (x.toModel.unpack.le y.toModel.unpack) = true ↔ _
  rw [UnpackedFloat.le, Option.any_eq_true]

/-- Two numbers, neither of which is a NaN, are in one order or the other. -/
theorem le_of_not_lt {x y : Float} (hx : x.isNaN = false) (hy : y.isNaN = false) (h : ¬ y < x) :
    x ≤ y := by
  rw [lt_iff_compare, compare_swap] at h
  rw [le_iff_compare]
  obtain ⟨o, ho⟩ := Option.ne_none_iff_exists'.1 (compare_ne_none hx hy)
  refine ⟨o, ho, ?_⟩
  rw [ho] at h
  cases o with
  | lt | eq => rfl
  | gt => exact absurd rfl h

/-- Floats that are compared like members of a linear order are ordered like them. -/
theorem le_iff_of_compare {α : Type} [LinearOrder α] {x y : Float} {a b : α}
    (h : x.toModel.unpack.compare y.toModel.unpack = some (compare a b)) : x ≤ y ↔ a ≤ b := by
  rw [le_iff_compare, h, ← compare_le_iff_le]
  simp only [Option.some_inj, exists_eq_left']
  exact Ordering.isLE_iff_ne_gt

/-! ## Values -/

section Values

variable {x y : Float} {a b : ℚ} {m m' : Nat} {e e' n : Int}

/-- Of two magnitudes the one with the greater exponent is greater. -/
theorem magnitude_lt_of_lt (h : Canonical m e) (h' : Canonical m' e') (he : e < e') :
    magnitude m e < magnitude m' e' := by
  have hlow := h.le_exponent
  have hn : 2 ^ 52 ≤ m' := h'.normal_or.resolve_right (by omega)
  have hm : (m : ℚ) < 2 ^ 53 := by exact_mod_cast h.mantissa_lt
  have hm' : (2 : ℚ) ^ 52 ≤ m' := by exact_mod_cast hn
  calc (m : ℚ) * 2 ^ e
    _ < 2 ^ 53 * 2 ^ e := by gcongr
    _ = 2 ^ 52 * 2 ^ (e + 1) := by rw [zpow_add_one₀ (by norm_num)]; ring
    _ ≤ m' * 2 ^ e' := by gcongr <;> norm_num; omega

/-- Magnitudes are compared by their exponents, and by their mantissas if these are the same. -/
theorem compare_magnitude (h : Canonical m e) (h' : Canonical m' e') :
    compare (magnitude m e) (magnitude m' e') = (compare e e').then (compare m m') := by
  rcases lt_trichotomy e e' with he | rfl | he
  · rw [compare_lt_iff_lt.2 he, compare_lt_iff_lt.2 (magnitude_lt_of_lt h h' he)]
    rfl
  · have hmono : StrictMono fun m : Nat => magnitude m e := fun a b hab =>
      mul_lt_mul_of_pos_right (Nat.cast_lt.2 hab) (zpow_pos (by norm_num) e)
    have hmap := hmono.cmp_map_eq m m'
    rw [cmp_eq_compare, cmp_eq_compare] at hmap
    rw [hmap, compare_eq_iff_eq.2 rfl]
    rfl
  · rw [compare_gt_iff_gt.2 he, compare_gt_iff_gt.2 (magnitude_lt_of_lt h' h he)]
    rfl

/-- Opposite numbers are in the opposite order. -/
theorem compare_neg_neg (a b : ℚ) : compare (-a) (-b) = (compare a b).swap := by
  rcases lt_trichotomy a b with h | rfl | h
  · rw [compare_lt_iff_lt.2 h, compare_gt_iff_gt.2 (neg_lt_neg h)]
    rfl
  · rw [compare_eq_iff_eq.2 rfl, compare_eq_iff_eq.2 rfl]
    rfl
  · rw [compare_gt_iff_gt.2 h, compare_lt_iff_lt.2 (neg_lt_neg h)]
    rfl

/-- The parts of a float and the number that it is equal to. -/
inductive ValueParts : UnpackedFloat → ℚ → Prop
  | zero (s : Sign) : ValueParts (.zero s) 0
  | finite (s : Sign) {m : Nat} {e : Int} {hm : 0 < m} (hc : Canonical m e) :
      ValueParts (.finite s m e hm) (withSign s (magnitude m e))

/-- The parts of a float with a value are those of a zero or of a finite number. -/
theorem valueParts_of_value? (h : value? x = some a) : ValueParts x.toModel.unpack a := by
  unfold value? at h
  cases hu : x.toModel.unpack with
  | infinity | notANumber =>
    rw [hu] at h
    cases h
  | zero s =>
    rw [hu] at h
    cases h
    exact .zero s
  | finite s m e hm =>
    rw [hu] at h
    cases h
    exact .finite s (canonical_of_unpack hu)

/-- Parts are compared as the values that they stand for. -/
theorem ValueParts.compare_eq {u v : UnpackedFloat} (hu : ValueParts u a) (hv : ValueParts v b) :
    u.compare v = some (compare a b) := by
  cases hu with
  | zero s =>
    cases hv with
    | zero t => rw [compare_eq_iff_eq.2 rfl]; rfl
    | @finite t m e hm hc =>
      have hpos := magnitude_pos hm e
      cases t with
      | negative => rw [withSign, compare_gt_iff_gt.2 (neg_lt_zero.2 hpos)]; rfl
      | positive => rw [withSign, compare_lt_iff_lt.2 hpos]; rfl
  | @finite s m e hm hc =>
    have hpos := magnitude_pos hm e
    cases hv with
    | zero t =>
      cases s with
      | negative => rw [withSign, compare_lt_iff_lt.2 (neg_lt_zero.2 hpos)]; rfl
      | positive => rw [withSign, compare_gt_iff_gt.2 hpos]; rfl
    | @finite t m' e' hm' hc' =>
      have hpos' := magnitude_pos hm' e'
      cases s <;> cases t <;> dsimp only [withSign]
      · rw [compare_neg_neg, compare_magnitude hc hc']; rfl
      · rw [compare_lt_iff_lt.2 ((neg_lt_zero.2 hpos).trans hpos')]; rfl
      · rw [compare_gt_iff_gt.2 ((neg_lt_zero.2 hpos').trans hpos)]; rfl
      · rw [compare_magnitude hc hc']; rfl

/-- Floats that are equal to rational numbers are compared as these are. -/
theorem compare_of_value? (hx : value? x = some a) (hy : value? y = some b) :
    x.toModel.unpack.compare y.toModel.unpack = some (compare a b) :=
  (valueParts_of_value? hx).compare_eq (valueParts_of_value? hy)

/-- Floats with values are strictly ordered as these are. -/
theorem lt_iff_of_value? (hx : value? x = some a) (hy : value? y = some b) : x < y ↔ a < b := by
  rw [lt_iff_compare, compare_of_value? hx hy, Option.some_inj, compare_lt_iff_lt]

/-- Floats with values are ordered as these are. -/
theorem le_iff_of_value? (hx : value? x = some a) (hy : value? y = some b) : x ≤ y ↔ a ≤ b :=
  le_iff_of_compare (compare_of_value? hx hy)

/-- Floats of one value are equal, be they zeros of opposite signs or the same float. -/
theorem beq_of_value? (hx : value? x = some a) (hy : value? y = some a) : x == y := by
  show (x.toModel.unpack.beq y.toModel.unpack) = true
  rw [UnpackedFloat.beq, beq_iff_eq, compare_of_value? hx hy, compare_eq_iff_eq.2 rfl]

/-- A whole float is greater than all safe numbers if the number that it is equal to is. -/
theorem maxSafe_lt_iff (h : toInt? x = some n) : ofInt maxSafe < x ↔ (maxSafe : Int) < n := by
  have hmax : value? (ofInt maxSafe) = some ((maxSafe : Int) : ℚ) := value?_ofInt (le_refl maxSafe)
  rw [lt_iff_of_value? hmax (toInt?_eq_some_iff.1 h), Int.cast_lt]

/-- A whole float is below zero if the number that it is equal to is. -/
theorem lt_zero_iff (h : toInt? x = some n) : x < 0 ↔ n < 0 := by
  have hzero : value? 0 = some 0 := rfl
  rw [lt_iff_of_value? (toInt?_eq_some_iff.1 h) hzero, Int.cast_lt_zero]

end Values

end Number

/-! ## The order of all floats but NaN

Every float but NaN has a rank: the rational number that it is equal to, or one of two ends, below
and above all of these, for the infinities (`rank?`). Floats are compared as their ranks are
(`compare_of_rank?`), so the laws of a linear order hold for them, with the equality of floats in
place of identity: the zeros have one rank. A NaN has no rank and is in no order with any float.
-/

namespace Number

open Float.Model Float.Model.UnpackedFloat

/-- The rank of the float with the given parts. -/
def partsRank? : UnpackedFloat → Option (WithBot (WithTop ℚ))
  | .infinity .negative => some ⊥
  | .infinity .positive => some ⊤
  | u => (partsValue? u).map fun a => ((a : WithTop ℚ) : WithBot (WithTop ℚ))

/-- The place of a float in the order of all floats, if it is no NaN. -/
def rank? (x : Float) : Option (WithBot (WithTop ℚ)) := partsRank? x.toModel.unpack

variable {x y z : Float} {a b : WithBot (WithTop ℚ)}

/-- The floats without a rank are the NaNs. -/
theorem rank?_eq_none_iff : rank? x = none ↔ x.isNaN := by
  show partsRank? x.toModel.unpack = none ↔ x.toModel.unpack.isNaN
  rcases x.toModel.unpack with (_ | _) | _ | _ | _ <;>
    simp [partsRank?, partsValue?, UnpackedFloat.isNaN]

/-- Every other float has a rank. -/
theorem exists_rank? (h : x.isNaN = false) : ∃ a, rank? x = some a :=
  Option.ne_none_iff_exists'.1 fun hnone =>
    Bool.false_ne_true (h.symm.trans (rank?_eq_none_iff.1 hnone))

/-! ### Comparing ranks -/

/-- The parts of a float and its rank. -/
inductive RankParts : UnpackedFloat → WithBot (WithTop ℚ) → Prop
  | bot : RankParts (.infinity .negative) ⊥
  | top : RankParts (.infinity .positive) ⊤
  | value {u : UnpackedFloat} {q : ℚ} (h : ValueParts u q) : RankParts u (q : WithTop ℚ)

/-- The parts of a float with a rank are those of an infinity or of a number with a value. -/
theorem rankParts_of_rank? (h : rank? x = some a) : RankParts x.toModel.unpack a := by
  unfold rank? at h
  cases hu : x.toModel.unpack with
  | notANumber =>
    rw [hu] at h
    cases h
  | infinity s =>
    rw [hu] at h
    cases s with
    | negative => cases h; exact .bot
    | positive => cases h; exact .top
  | zero s =>
    rw [hu] at h
    cases h
    exact .value (.zero s)
  | finite s m e hm =>
    rw [hu] at h
    cases h
    exact .value (.finite s (canonical_of_unpack hu))

/-- Rational numbers are compared in the same way between the two ends. -/
theorem compare_coe (q r : ℚ) :
    compare ((q : WithTop ℚ) : WithBot (WithTop ℚ)) (r : WithTop ℚ) = compare q r := by
  have hmono : StrictMono fun q : ℚ => ((q : WithTop ℚ) : WithBot (WithTop ℚ)) := fun a b hab =>
    WithBot.coe_lt_coe.2 (WithTop.coe_lt_coe.2 hab)
  have hmap := hmono.cmp_map_eq q r
  rwa [cmp_eq_compare, cmp_eq_compare] at hmap

/-- Parts are compared as their ranks. -/
theorem RankParts.compare_eq {u v : UnpackedFloat} (hu : RankParts u a) (hv : RankParts v b) :
    u.compare v = some (compare a b) := by
  cases hu with
  | bot =>
    cases hv with
    | bot => rw [compare_eq_iff_eq.2 rfl]; rfl
    | top => rw [compare_lt_iff_lt.2 (WithBot.bot_lt_coe _)]; rfl
    | value hv =>
      rw [compare_lt_iff_lt.2 (WithBot.bot_lt_coe _)]
      cases hv <;> rfl
  | top =>
    cases hv with
    | bot => rw [compare_gt_iff_gt.2 (WithBot.bot_lt_coe _)]; rfl
    | top => rw [compare_eq_iff_eq.2 rfl]; rfl
    | value hv =>
      rw [compare_gt_iff_gt.2 (WithBot.coe_lt_coe.2 (WithTop.coe_lt_top _))]
      cases hv <;> rfl
  | value hu =>
    cases hv with
    | bot =>
      rw [compare_gt_iff_gt.2 (WithBot.bot_lt_coe _)]
      cases hu <;> rfl
    | top =>
      rw [compare_lt_iff_lt.2 (WithBot.coe_lt_coe.2 (WithTop.coe_lt_top _))]
      cases hu <;> rfl
    | value hv => rw [hu.compare_eq hv, compare_coe]

/-- Floats are compared as their ranks are. -/
theorem compare_of_rank? (hx : rank? x = some a) (hy : rank? y = some b) :
    x.toModel.unpack.compare y.toModel.unpack = some (compare a b) :=
  (rankParts_of_rank? hx).compare_eq (rankParts_of_rank? hy)

/-- Floats with ranks are ordered as these are. -/
theorem le_iff_of_rank? (hx : rank? x = some a) (hy : rank? y = some b) : x ≤ y ↔ a ≤ b :=
  le_iff_of_compare (compare_of_rank? hx hy)

/-- Floats with ranks are equal if these are the same. -/
theorem beq_iff_of_rank? (hx : rank? x = some a) (hy : rank? y = some b) : x == y ↔ a = b := by
  show (x.toModel.unpack.beq y.toModel.unpack) = true ↔ a = b
  rw [UnpackedFloat.beq, beq_iff_eq, compare_of_rank? hx hy, Option.some_inj, compare_eq_iff_eq]

/-! ### The laws of the order -/

/-- What can be compared is no NaN. -/
theorem isNaN_of_compare {u v : UnpackedFloat} {o : Ordering} (h : u.compare v = some o) :
    u.isNaN = false ∧ v.isNaN = false := by
  cases u with
  | notANumber => cases h
  | infinity | zero | finite =>
    refine ⟨rfl, ?_⟩
    cases v with
    | notANumber => cases h
    | infinity | zero | finite => rfl

/-- A NaN is in no order with any float. -/
theorem isNaN_of_le (h : x ≤ y) : x.isNaN = false ∧ y.isNaN = false := by
  obtain ⟨o, ho, -⟩ := (le_iff_compare x y).1 h
  exact isNaN_of_compare ho

/-- The order of floats can be chained. -/
protected theorem le_trans (hxy : x ≤ y) (hyz : y ≤ z) : x ≤ z := by
  obtain ⟨hx, hy⟩ := isNaN_of_le hxy
  obtain ⟨a, ha⟩ := exists_rank? hx
  obtain ⟨b, hb⟩ := exists_rank? hy
  obtain ⟨c, hc⟩ := exists_rank? (isNaN_of_le hyz).2
  rw [le_iff_of_rank? ha hb] at hxy
  rw [le_iff_of_rank? hb hc] at hyz
  exact (le_iff_of_rank? ha hc).2 (hxy.trans hyz)

/-- A float below another one is not above it. -/
protected theorem le_of_lt (h : x < y) : x ≤ y := by
  rw [lt_iff_compare] at h
  exact (le_iff_compare x y).2 ⟨.lt, h, rfl⟩

/-- Floats that are in order both ways are equal, be they zeros of opposite signs or one float. -/
theorem beq_of_le_of_le (hxy : x ≤ y) (hyx : y ≤ x) : x == y := by
  obtain ⟨hx, hy⟩ := isNaN_of_le hxy
  obtain ⟨a, ha⟩ := exists_rank? hx
  obtain ⟨b, hb⟩ := exists_rank? hy
  rw [le_iff_of_rank? ha hb] at hxy
  rw [le_iff_of_rank? hb ha] at hyx
  exact (beq_iff_of_rank? ha hb).2 (le_antisymm hxy hyx)

/-- A NaN is equal to no float. -/
theorem isNaN_of_beq (h : x == y) : x.isNaN = false ∧ y.isNaN = false := by
  have h : (x.toModel.unpack.beq y.toModel.unpack) = true := h
  rw [UnpackedFloat.beq, beq_iff_eq] at h
  exact isNaN_of_compare h

/-- Equal floats are not above one another. -/
theorem le_of_beq (h : x == y) : x ≤ y := by
  obtain ⟨hx, hy⟩ := isNaN_of_beq h
  obtain ⟨a, ha⟩ := exists_rank? hx
  obtain ⟨b, hb⟩ := exists_rank? hy
  exact (le_iff_of_rank? ha hb).2 ((beq_iff_of_rank? ha hb).1 h).le

end Number

/-! ## The extreme ones of several numbers

`Extreme le xs r` says that `r` is the number among `xs` that stands in front of all others in the
order `le`, where every NaN is passed over: it is a NaN only if there is nothing else. Numbers are
told apart up to their equality, so the sign of a zero is left open.

The smaller or larger one of two numbers is extreme among the two, and nothing more is known of the
function that picks it (`Picks`). Picking from left to right then gives an extreme number of a whole
list (`Picks.foldl`), and a list has no other one (`Extreme.unique`).
-/

namespace Number

/-- The relation is the order of the floats, in one direction or the other. -/
structure Orders (le : Float → Float → Prop) : Prop where
  trans : ∀ x y z, le x y → le y z → le x z
  beq_of_le : ∀ x y, le x y → le y x → x == y
  le_of_beq : ∀ x y, x == y → le x y

/-- The order from small to large can be chosen by. -/
theorem orders_le : Orders (· ≤ ·) where
  trans _ _ _ := Number.le_trans
  beq_of_le _ _ := beq_of_le_of_le
  le_of_beq _ _ := le_of_beq

/-- The order from large to small can be chosen by. -/
theorem orders_ge : Orders (· ≥ ·) where
  trans _ _ _ hxy hyz := Number.le_trans hyz hxy
  beq_of_le _ _ hxy hyx := beq_of_le_of_le hyx hxy
  le_of_beq _ _ h := le_of_beq (BEq.symm h)

/-- Two floats are the same number, the sign of a zero left aside, or both are a NaN. -/
def SameNumber (x y : Float) : Prop := x == y ∨ x.isNaN ∧ y.isNaN

/-- In the order `le` the number `r` stands in front of all of `xs` but the NaNs among them. -/
structure Extreme (le : Float → Float → Prop) (xs : List Float) (r : Float) : Prop where
  isNaN_iff : r.isNaN ↔ ∀ x ∈ xs, x.isNaN
  /-- The number is one of the list. -/
  mem : r.isNaN = false → ∃ x ∈ xs, r == x
  front : r.isNaN = false → ∀ x ∈ xs, x.isNaN = false → le r x

/-- Of two numbers the one in front is picked, and a NaN is passed over. -/
def Picks (le : Float → Float → Prop) (pick : Float → Float → Float) : Prop :=
  ∀ x y, Extreme le [x, y] (pick x y)

variable {le : Float → Float → Prop} {pick : Float → Float → Float} {xs ys : List Float}
  {r s t x y : Float}

namespace Extreme

/-- One number among NaNs is enough for a number to be extreme. -/
theorem isNaN_eq_false (h : Extreme le xs r) (hx : x ∈ xs) (hx' : x.isNaN = false) :
    r.isNaN = false := by
  rw [Bool.eq_false_iff]
  intro hr
  exact Bool.false_ne_true (hx'.symm.trans (h.isNaN_iff.1 hr x hx))

/-- A single float is the extreme one. -/
theorem singleton (hle : Orders le) (x : Float) : Extreme le [x] x where
  isNaN_iff := by simp
  mem hx := ⟨x, List.mem_singleton_self x, by simpa using hx⟩
  front hx y hy _ := by
    rw [List.mem_singleton.1 hy]
    exact hle.le_of_beq x x (by simpa using hx)

/-- The extreme one of two extreme numbers is extreme among all. -/
theorem append (hle : Orders le) (hr : Extreme le xs r) (hs : Extreme le ys s)
    (ht : Extreme le [r, s] t) : Extreme le (xs ++ ys) t where
  isNaN_iff := by
    rw [ht.isNaN_iff, List.forall_mem_append, ← hr.isNaN_iff, ← hs.isNaN_iff]
    simp
  mem htn := by
    obtain ⟨u, hu, htu⟩ := ht.mem htn
    obtain rfl | rfl : u = r ∨ u = s := by simpa using hu
    · obtain ⟨x, hx, hux⟩ := hr.mem (isNaN_of_beq htu).2
      exact ⟨x, List.mem_append_left ys hx, BEq.trans htu hux⟩
    · obtain ⟨x, hx, hux⟩ := hs.mem (isNaN_of_beq htu).2
      exact ⟨x, List.mem_append_right xs hx, BEq.trans htu hux⟩
  front htn x hx hxn := by
    rcases List.mem_append.1 hx with hx | hx
    · have hrn := hr.isNaN_eq_false hx hxn
      exact hle.trans t r x (ht.front htn r (by simp) hrn) (hr.front hrn x hx hxn)
    · have hsn := hs.isNaN_eq_false hx hxn
      exact hle.trans t s x (ht.front htn s (by simp) hsn) (hs.front hsn x hx hxn)

/-- The order of the list and how often it holds a number do not matter. -/
theorem congr (h : Extreme le xs r) (hxy : ∀ x, x ∈ xs ↔ x ∈ ys) : Extreme le ys r where
  isNaN_iff := h.isNaN_iff.trans (forall_congr' fun x => imp_congr_left (hxy x))
  mem hr := by
    obtain ⟨x, hx, hrx⟩ := h.mem hr
    exact ⟨x, (hxy x).1 hx, hrx⟩
  front hr x hx := h.front hr x ((hxy x).2 hx)

/-- A list has one extreme number only. -/
theorem unique (hle : Orders le) (hr : Extreme le xs r) (hs : Extreme le xs s) :
    SameNumber r s := by
  have hiff : r.isNaN ↔ s.isNaN := hr.isNaN_iff.trans hs.isNaN_iff.symm
  by_cases hrn : r.isNaN
  · exact .inr ⟨hrn, hiff.1 hrn⟩
  · have hsn : s.isNaN = false := Bool.eq_false_iff.2 fun h => hrn (hiff.2 h)
    rw [Bool.not_eq_true] at hrn
    obtain ⟨x, hx, hrx⟩ := hr.mem hrn
    obtain ⟨y, hy, hsy⟩ := hs.mem hsn
    -- Each of the two is equal to a number of the list, and the other one stands in front of it.
    have hsr : le s r := hle.trans s x r (hs.front hsn x hx (isNaN_of_beq hrx).2)
      (hle.le_of_beq x r (BEq.symm hrx))
    have hrs : le r s := hle.trans r y s (hr.front hrn y hy (isNaN_of_beq hsy).2)
      (hle.le_of_beq y s (BEq.symm hsy))
    exact .inl (hle.beq_of_le r s hrs hsr)

end Extreme

/-- Picking from left to right leads to an extreme number of those that have been met. -/
theorem Picks.foldl_append (hle : Orders le) (hp : Picks le pick) (h : Extreme le ys r) :
    Extreme le (ys ++ xs) (xs.foldl pick r) := by
  -- The induction is on the numbers to come; those already met grow with the result.
  induction xs generalizing ys r with
  | nil => rwa [List.append_nil]
  | cons x xs ih =>
    have hstep := ih (h.append hle (.singleton hle x) (hp r x))
    rwa [List.append_assoc, List.singleton_append] at hstep

/-- Going through the floats with an operation that picks leads to the extreme one. -/
theorem Picks.foldl (hle : Orders le) (hp : Picks le pick) (x : Float) (xs : List Float) :
    Extreme le (x :: xs) (xs.foldl pick x) :=
  hp.foldl_append hle (.singleton hle x)

/-! ### The smaller and the larger one of two numbers -/

/-- A float that is no NaN is equal to itself. -/
theorem beq_self (hx : x.isNaN = false) : x == x := by
  simpa using hx

/-- A number that stands in front of another one, or next to a NaN, is extreme among the two. -/
theorem extreme_pair (hle : Orders le) (hx : x.isNaN = false)
    (hxy : y.isNaN = false → le x y) : Extreme le [x, y] x where
  isNaN_iff := by
    have hx' : ¬ x.isNaN = true := Bool.eq_false_iff.1 hx
    exact iff_of_false hx' fun h => hx' (h x List.mem_cons_self)
  mem _ := ⟨x, List.mem_cons_self, beq_self hx⟩
  front _ z hz hzn := by
    obtain rfl | rfl : z = x ∨ z = y := by simpa using hz
    · exact hle.le_of_beq z z (beq_self hzn)
    · exact hxy hzn

/-- Of two NaNs neither is a number. -/
theorem extreme_of_isNaN (hx : x.isNaN) (hy : y.isNaN) : Extreme le [x, y] y where
  isNaN_iff := iff_of_true hy (by simp only [List.forall_mem_cons, hx, hy]; simp)
  mem h := absurd hy (Bool.eq_false_iff.1 h)
  front h := absurd hy (Bool.eq_false_iff.1 h)

/-- The order of two floats does not matter. -/
theorem Extreme.swap (h : Extreme le [x, y] r) : Extreme le [y, x] r :=
  h.congr fun _ => (List.Perm.swap y x []).mem_iff

/-- Looking at NaNs first and then comparing picks the number in front. -/
theorem picks_of_ite (hle : Orders le) {before : Float → Float → Prop} [DecidableRel before]
    (hbefore : ∀ x y, before y x → le y x)
    (hnot : ∀ x y, x.isNaN = false → y.isNaN = false → ¬ before y x → le x y) :
    Picks le fun x y =>
      if x.isNaN then y else if y.isNaN then x else if before y x then y else x := by
  intro x y
  dsimp only
  split
  · next hx =>
    by_cases hy : y.isNaN
    · exact extreme_of_isNaN hx hy
    · rw [Bool.not_eq_true] at hy
      exact (extreme_pair hle hy fun hx' => absurd hx (Bool.eq_false_iff.1 hx')).swap
  · next hx =>
    rw [Bool.not_eq_true] at hx
    split
    · next hy => exact extreme_pair hle hx fun hy' => absurd hy (Bool.eq_false_iff.1 hy')
    · next hy =>
      rw [Bool.not_eq_true] at hy
      split
      · next hb => exact (extreme_pair hle hy fun _ => hbefore x y hb).swap
      · next hb => exact extreme_pair hle hx fun _ => hnot x y hx hy hb

/-- The smaller of two floats is picked by the order from small to large. -/
theorem picks_least : Picks (· ≤ ·) least :=
  picks_of_ite orders_le (fun _ _ => Number.le_of_lt) fun _ _ => le_of_not_lt

/-- The larger of two floats is picked by the order from large to small. -/
theorem picks_greatest : Picks (· ≥ ·) greatest :=
  picks_of_ite orders_ge (fun _ _ => Number.le_of_lt) fun _ _ hx hy => le_of_not_lt hy hx

end Number

end MapExpr
