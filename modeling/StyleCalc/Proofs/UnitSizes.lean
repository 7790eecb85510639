import Mathlib.Algebra.Order.Ring.Rat
import Mathlib.Tactic.Linarith
import StyleCalc.Proofs.KnownUnits
import StyleCalc.Proofs.Reference

set_option autoImplicit false

namespace StyleCalc

variable {pi : Rat}

namespace Exact

theorem value_number (x : Rat) : Scalar.isNaN (.value x : Exact pi) = false := by
  change (!decide (x = x)) = false
  simp

theorem least_value (x y : Rat) : (Scalar.least (.value x) (.value y) : Exact pi) = .value (min x y) := by
  have less : Scalar.lt (.value y : Exact pi) (.value x) = decide (y < x) := rfl
  rw [Scalar.least, value_number, less, Bool.false_or]
  by_cases before : y < x
  · rw [if_pos (decide_eq_true before), min_eq_right before.le]
  · rw [if_neg (by simpa using before), min_eq_left (not_lt.mp before)]

theorem greatest_value (x y : Rat) : (Scalar.greatest (.value x) (.value y) : Exact pi) = .value (max x y) := by
  have less : Scalar.lt (.value x : Exact pi) (.value y) = decide (x < y) := rfl
  rw [Scalar.greatest, value_number, less, Bool.false_or]
  by_cases before : x < y
  · rw [if_pos (decide_eq_true before), max_eq_right before.le]
  · rw [if_neg (by simpa using before), max_eq_left (not_lt.mp before)]

theorem neg_negated (x : Exact pi) : - -x = x := by
  cases x with
  | value x => exact congrArg value (Rat.neg_neg x)
  | undefined => rfl

end Exact

namespace Context

def lesserSide (ctx : Context (Exact pi)) : Rat :=
  min ctx.viewport.width.toRat ctx.viewport.height.toRat

def greaterSide (ctx : Context (Exact pi)) : Rat :=
  max ctx.viewport.width.toRat ctx.viewport.height.toRat

def sideFor (ctx : Context (Exact pi)) (units : String) (x : Rat) : Rat :=
  if units = "vmin" ↔ 0 ≤ x then ctx.lesserSide else ctx.greaterSide

end Context

theorem lesser_part (w h x : Rat) :
    min (x * (w / 100)) (x * (h / 100)) = x * ((if 0 ≤ x then min w h else max w h) / 100) := by
  rw [mul_div_left_comm x w, mul_div_left_comm x h, mul_div_left_comm x]
  by_cases positive : 0 ≤ x
  · have part : 0 ≤ x / 100 := by linarith
    rw [if_pos positive, min_mul_of_nonneg w h part]
  · have part : x / 100 ≤ 0 := by linarith
    rw [if_neg positive]
    exact (antitone_mul_right part).map_max.symm

theorem greater_part (w h x : Rat) :
    max (x * (w / 100)) (x * (h / 100)) = x * ((if 0 ≤ x then max w h else min w h) / 100) := by
  rw [mul_div_left_comm x w, mul_div_left_comm x h, mul_div_left_comm x]
  by_cases positive : 0 ≤ x
  · have part : 0 ≤ x / 100 := by linarith
    rw [if_pos positive, max_mul_of_nonneg w h part]
  · have part : x / 100 ≤ 0 := by linarith
    rw [if_neg positive]
    exact (antitone_mul_right part).map_min.symm

def Kind.settledUnits (k : Kind) (units : String) : String :=
  if k = .count ∨ k = .percent then units else k.canonicalUnits

def Amounts (ctx : Context (Exact pi)) (kind : Kind) (units : String) (x y : Rat) : Prop :=
  (⟨kind, .value x, units⟩ : Numeric (Exact pi)).normalize ctx = .ok ⟨kind, .value y, kind.settledUnits units⟩

def Accepted (ctx : Context (Exact pi)) (kind : Kind) (units : String) : Prop :=
  ∃ x r, (⟨kind, .value x, units⟩ : Numeric (Exact pi)).normalize ctx = .ok r

def Choosing (kind : Kind) (units : String) : Prop :=
  kind = .length ∧ (units = "vmin" ∨ units = "vmax")

theorem amounts_bare (ctx : Context (Exact pi)) (kind : Kind) (units : String)
    (bare : kind = .count ∨ kind = .percent) (x : Rat) : Amounts ctx kind units x (x * 1) := by
  rw [Amounts, Kind.settledUnits, if_pos bare, Rat.mul_one]
  exact if_pos (or_assoc.mp (.inl bare))

theorem amounts_linear (ctx : Context (Exact pi)) (sized : ctx.Sized) (kind : Kind) (units : String)
    (linear : units ∈ kind.linear) (x : Rat) : Amounts ctx kind units x (x * ctx.unitSize units) := by
  have settled : kind.settledUnits units = kind.canonicalUnits := by
    rw [Kind.settledUnits]
    split
    · rename_i bare
      rcases bare with rfl | rfl <;> exact List.mem_singleton.mp linear
    · rfl
  rw [Amounts, settled]
  exact Numeric.normalize_linear ctx sized kind x units linear

theorem amounts_pixels (ctx : Context (Exact pi)) (units : String) (x y : Rat) (other : units ≠ "px")
    (pixels : Numeric.pixels? ctx (.value x) units = some (.value y)) : Amounts ctx .length units x y := by
  have converted : Numeric.converted? ctx ⟨.length, .value x, units⟩ = some (.value y) := pixels
  have foreign : ¬ (Kind.length = .count ∨ Kind.length = .percent ∨ units = Kind.length.canonicalUnits) := by
    simpa [Kind.canonicalUnits] using other
  rw [Amounts, Numeric.normalize, if_neg foreign, converted]
  rfl

theorem amounts_choosing (ctx : Context (Exact pi)) (sized : ctx.Sized) (kind : Kind) (units : String)
    (choosing : Choosing kind units) (x : Rat) : Amounts ctx kind units x (x * (ctx.sideFor units x / 100)) := by
  obtain ⟨rfl, either⟩ := choosing
  have width := Exact.part_value _ sized.viewport.width x
  have height := Exact.part_value _ sized.viewport.height x
  rcases either with rfl | rfl
  · refine amounts_pixels ctx "vmin" x _ (by decide) ?_
    change some (Scalar.least _ _) = _
    rw [width, height, Exact.least_value, lesser_part]
    simp [Context.sideFor, Context.lesserSide, Context.greaterSide]
  · refine amounts_pixels ctx "vmax" x _ (by decide) ?_
    change some (Scalar.greatest _ _) = _
    rw [width, height, Exact.greatest_value, greater_part]
    by_cases positive : 0 ≤ x <;> simp [Context.sideFor, Context.lesserSide, Context.greaterSide, positive]

theorem amounts_unique (ctx : Context (Exact pi)) (kind : Kind) (units : String) (x y z : Rat)
    (first : Amounts ctx kind units x y) (second : Amounts ctx kind units x z) : y = z :=
  Exact.value.inj (Numeric.mk.inj (Except.ok.inj (first.symm.trans second))).2.1

theorem accepted_cases (ctx : Context (Exact pi)) (kind : Kind) (units : String) (accepted : Accepted ctx kind units) :
    (kind = .count ∨ kind = .percent) ∨ units ∈ kind.linear ∨ Choosing kind units := by
  obtain ⟨x, r, given⟩ := accepted
  by_cases settled : kind = .count ∨ kind = .percent ∨ units = kind.canonicalUnits
  · rcases or_assoc.mpr settled with bare | canonical
    · exact .inl bare
    · exact .inr (.inl (canonical ▸ kind.canonical_linear))
  · right
    rw [Numeric.normalize, if_neg settled] at given
    cases converted : Numeric.converted? ctx ⟨kind, .value x, units⟩ with
    | none =>
        rw [converted] at given
        cases given
    | some value =>
        have convertible : units ∈ kind.convertible := Numeric.converted_convertible ctx _ value converted
        cases kind with
        | length => simpa [Kind.convertible, Kind.linear, Choosing, or_assoc] using convertible
        | _ => exact .inl convertible

def OneSize (ctx : Context (Exact pi)) (kind : Kind) (units : String) : Prop :=
  ¬ Choosing kind units ∨ ctx.viewport.width = ctx.viewport.height

theorem factor_of_one_size (ctx : Context (Exact pi)) (sized : ctx.Sized) (kind : Kind) (units : String)
    (accepted : Accepted ctx kind units) (one : OneSize ctx kind units) :
    ∃ factor, ∀ x, Amounts ctx kind units x (x * factor) := by
  rcases accepted_cases ctx kind units accepted with bare | linear | choosing
  · exact ⟨1, amounts_bare ctx kind units bare⟩
  · exact ⟨ctx.unitSize units, amounts_linear ctx sized kind units linear⟩
  · have square := one.resolve_left (not_not_intro choosing)
    have either (x : Rat) : ctx.sideFor units x = ctx.viewport.width.toRat := by
      rw [Context.sideFor, Context.lesserSide, Context.greaterSide, ← square, min_self, max_self, ite_self]
    refine ⟨ctx.viewport.width.toRat / 100, fun x => ?_⟩
    rw [← either x]
    exact amounts_choosing ctx sized kind units choosing x

-- The magnitudes one and minus one are measured by different sides.
theorem one_size_of_factor (ctx : Context (Exact pi)) (sized : ctx.Sized) (kind : Kind) (units : String)
    (factor : Rat) (scaled : ∀ x, Amounts ctx kind units x (x * factor)) : OneSize ctx kind units := by
  by_cases choosing : Choosing kind units
  · right
    have above := amounts_unique ctx kind units 1 _ _ (scaled 1) (amounts_choosing ctx sized kind units choosing 1)
    have below := amounts_unique ctx kind units (-1) _ _ (scaled (-1))
      (amounts_choosing ctx sized kind units choosing (-1))
    have sides : ctx.sideFor units 1 = ctx.sideFor units (-1) := by linarith
    have same : ctx.lesserSide = ctx.greaterSide := by
      by_cases lesser : units = "vmin"
      · simpa [Context.sideFor, lesser] using sides
      · simpa [Context.sideFor, lesser] using sides.symm
    rw [Exact.finite_value _ sized.viewport.width, Exact.finite_value _ sized.viewport.height]
    exact congrArg Exact.value (inf_eq_sup.mp same)
  · exact .inl choosing

namespace Numeric

def negated (n : Numeric (Exact pi)) : Numeric (Exact pi) :=
  n.withValue (-n.value)

theorem negated_twice (n : Numeric (Exact pi)) : n.negated.negated = n := by
  rw [negated, negated, withValue, withValue, Exact.neg_negated]

def Odd (ctx : Context (Exact pi)) (n : Numeric (Exact pi)) : Prop :=
  ∀ r, n.normalize ctx = .ok r → n.negated.normalize ctx = .ok r.negated

theorem odd_of_one_size (ctx : Context (Exact pi)) (sized : ctx.Sized) (kind : Kind) (units : String)
    (one : OneSize ctx kind units) (x : Rat) : Odd ctx ⟨kind, .value x, units⟩ := by
  intro r given
  obtain ⟨factor, scaled⟩ := factor_of_one_size ctx sized kind units ⟨x, r, given⟩ one
  obtain rfl := Except.ok.inj ((scaled x).symm.trans given)
  have opposite := scaled (-x)
  rw [neg_mul] at opposite
  exact opposite

theorem odd_of_canonical (ctx : Context (Exact pi)) (n : Numeric (Exact pi))
    (canonical : n.units = n.kind.canonicalUnits) : Odd ctx n := by
  intro r given
  obtain rfl := Except.ok.inj ((normalize_again ctx n canonical).symm.trans given)
  exact normalize_again ctx n.negated canonical

end Numeric

def SumOp.opposite : SumOp → SumOp
  | add => sub
  | sub => add

namespace Numeric

theorem sum_value_opposite (op : SumOp) (x y : Exact pi) : x + op.opposite.sign * -y = x + op.sign * y := by
  cases x with
  | undefined => cases op <;> rfl
  | value x =>
      cases y with
      | undefined => cases op <;> rfl
      | value y =>
          have plain : op.opposite.plain x (-y) = op.plain x y := by
            cases op with
            | add => exact sub_neg_eq_add x y
            | sub => exact (sub_eq_add_neg x y).symm
          exact (op.opposite.sign_plain x (-y)).trans ((congrArg Exact.value plain).trans (op.sign_plain x y).symm)

theorem part_negated (side x : Exact pi) : side * -x / Scalar.ofNat 100 = -(side * x / Scalar.ofNat 100) := by
  cases side with
  | undefined => rfl
  | value side =>
      cases x with
      | undefined => rfl
      | value x =>
          have opposite : side * -x / 100 = -(side * x / 100) := by rw [mul_neg, neg_div]
          rw [Exact.value_mul, Exact.hundredth]
          exact (Exact.hundredth (side * -x)).trans (congrArg Exact.value opposite)

theorem of_percent_negated (ctx : Context (Exact pi)) (axis : Option Axis) (m q : Numeric (Exact pi)) (x : Exact pi)
    (given : ofPercent ctx axis m x = .ok q) : ofPercent ctx axis m (-x) = .ok q.negated := by
  by_cases isLength : m.kind = .length
  · rw [ofPercent, if_pos isLength] at given ⊢
    obtain rfl := Except.ok.inj given
    dsimp only
    rw [part_negated]
    rfl
  · rw [ofPercent, if_neg isLength] at given
    cases given

theorem same_kind_negated (ctx : Context (Exact pi)) (axis : Option Axis) (op : SumOp) (m n p q : Numeric (Exact pi))
    (odd : Odd ctx n) (given : sameKind ctx axis op m n = .ok (p, q)) :
    sameKind ctx axis op.opposite m n.negated = .ok (p, q.negated) ∧ Odd ctx q := by
  by_cases same : m.kind = n.kind
  · rw [sameKind, if_pos same] at given
    cases given
    exact ⟨if_pos same, odd⟩
  · rw [sameKind, if_neg same] at given
    rw [sameKind, if_neg (show ¬ m.kind = n.negated.kind from same)]
    by_cases left : m.isPercent
    · rw [if_pos left] at given ⊢
      obtain ⟨side, converted, pair⟩ := (except_map_ok_iff _ _ _).mp given
      cases pair
      exact ⟨(except_map_ok_iff _ _ _).mpr ⟨p, converted, rfl⟩, odd⟩
    · rw [if_neg left] at given ⊢
      by_cases right : n.isPercent
      · rw [if_pos right] at given
        rw [if_pos (show n.negated.isPercent = true from right)]
        obtain ⟨side, converted, pair⟩ := (except_map_ok_iff _ _ _).mp given
        cases pair
        exact ⟨(except_map_ok_iff _ _ _).mpr ⟨q.negated, of_percent_negated ctx axis m q n.value converted, rfl⟩,
          odd_of_canonical ctx q (of_percent_units ctx axis m q n.value converted)⟩
      · rw [if_neg right] at given
        cases given

theorem same_units_negated (ctx : Context (Exact pi)) (m n p q : Numeric (Exact pi)) (odd : Odd ctx n)
    (given : sameUnits ctx m n = .ok (p, q)) : sameUnits ctx m n.negated = .ok (p, q.negated) := by
  by_cases same : m.units = n.units
  · rw [sameUnits, if_pos same] at given
    cases given
    exact if_pos same
  · rw [sameUnits, if_neg same] at given
    obtain ⟨p', left, rest⟩ := (except_bind_ok_iff _ _ _).mp given
    obtain ⟨q', right, pair⟩ := (except_bind_ok_iff _ _ _).mp rest
    cases pair
    rw [sameUnits, if_neg (show ¬ m.units = n.negated.units from same), left, odd q right]
    rfl

theorem sum_negated (ctx : Context (Exact pi)) (axis : Option Axis) (m : Numeric (Exact pi)) (op : SumOp)
    (n : Numeric (Exact pi)) (odd : Odd ctx n) (r : Option (Numeric (Exact pi))) (given : m.sum ctx axis op n = .ok r) :
    m.sum ctx axis op.opposite n.negated = .ok r := by
  obtain ⟨⟨p, q⟩, kinds, rest⟩ := (except_bind_ok_iff _ _ _).mp given
  obtain ⟨⟨p', q'⟩, units, value⟩ := (except_bind_ok_iff _ _ _).mp rest
  obtain ⟨kinds, odd⟩ := same_kind_negated ctx axis op m n p q odd kinds
  have units := same_units_negated ctx p q p' q' odd units
  rw [sum, kinds]
  change (sameUnits ctx p q.negated >>= _) = _
  rw [units, ← value]
  change Except.ok (p'.withValue (p'.value + op.opposite.sign * -q'.value)).finite? = _
  rw [sum_value_opposite]
  rfl

theorem sub_iff_add_negated (ctx : Context (Exact pi)) (axis : Option Axis) (m n : Numeric (Exact pi))
    (odd : Odd ctx n) (oddNegated : Odd ctx n.negated) (r : Option (Numeric (Exact pi))) :
    m.sum ctx axis .sub n = .ok r ↔ m.sum ctx axis .add n.negated = .ok r := by
  constructor
  · exact sum_negated ctx axis m .sub n odd r
  · intro given
    have back := sum_negated ctx axis m .add n.negated oddNegated r given
    rw [negated_twice] at back
    exact back

theorem minus_one_times (kind : Kind) (units : String) (x : Rat) :
    (count (.value (-1))).product .mul ⟨kind, .value x, units⟩ =
      .ok (some (⟨kind, .value x, units⟩ : Numeric (Exact pi)).negated) := by
  have opposite : x * -1 = -x := by rw [mul_neg, mul_one]
  exact congrArg (fun y => Except.ok (some (⟨kind, .value y, units⟩ : Numeric (Exact pi)))) opposite

theorem sum_amounts (ctx : Context (Exact pi)) (axis : Option Axis) (kind : Kind) (left right : String)
    (op : SumOp) (w x y z total : Rat) (different : left ≠ right) (first : Amounts ctx kind left w y)
    (second : Amounts ctx kind right x z) (summed : op.plain y z = total) :
    (⟨kind, .value w, left⟩ : Numeric (Exact pi)).sum ctx axis op ⟨kind, .value x, right⟩ =
      .ok (some ⟨kind, .value total, kind.settledUnits left⟩) := by
  rw [sum, sameKind, if_pos rfl]
  change (sameUnits ctx ⟨kind, .value w, left⟩ ⟨kind, .value x, right⟩ >>= _) = _
  rw [sameUnits, if_neg different, first, second]
  change Except.ok (finite? ⟨kind, Exact.value y + op.sign * Exact.value z, kind.settledUnits left⟩) = _
  rw [op.sign_plain, summed]
  rfl

theorem units_have_one_size (ctx : Context (Exact pi)) (sized : ctx.Sized) (kind : Kind) (units : String)
    (accepted : Accepted ctx kind units) :
    ((∃ factor, ∀ x, Amounts ctx kind units x (x * factor)) ↔ OneSize ctx kind units) ∧
    (Choosing kind units → ∀ x, Amounts ctx kind units x (x * (ctx.sideFor units x / 100))) ∧
    (OneSize ctx kind units → ∀ x : Rat,
      (∀ y, Amounts ctx kind units x y → Amounts ctx kind units (-x) (-y)) ∧
      ∃ opposite : Numeric (Exact pi),
        (count (.value (-1))).product .mul ⟨kind, .value x, units⟩ = .ok (some opposite) ∧
        ∀ axis (m : Numeric (Exact pi)) r,
          m.sum ctx axis .sub ⟨kind, .value x, units⟩ = .ok r ↔ m.sum ctx axis .add opposite = .ok r) := by
  refine ⟨⟨?_, factor_of_one_size ctx sized kind units accepted⟩, amounts_choosing ctx sized kind units, ?_⟩
  · intro ⟨factor, scaled⟩
    exact one_size_of_factor ctx sized kind units factor scaled
  · intro one x
    have odd := odd_of_one_size ctx sized kind units one
    exact ⟨fun y => odd x _, _, minus_one_times kind units x, fun axis m r =>
      sub_iff_add_negated ctx axis m _ (odd x) (odd (-x)) r⟩

end Numeric

def screen : Context (Exact 3) where
  resolveUrl := .ok
  lookup _ := none
  fontSize := .value 16
  rootFontSize := .value 10
  viewport := ⟨.value 800, .value 600⟩
  element := ⟨.value 0, .value 0⟩
  index := 0

namespace Numeric

theorem screen_em_has_one_size :
    screen.Sized ∧ Accepted screen .length "em" ∧ OneSize screen .length "em" ∧
      ∃ factor, ∀ x, Amounts screen .length "em" x (x * factor) := by
  have sized : screen.Sized := ⟨rfl, rfl, rfl, rfl⟩
  have accepted : Accepted screen .length "em" := ⟨1, _, rfl⟩
  have one : OneSize screen .length "em" := .inl (by simp [Choosing])
  exact ⟨sized, accepted, one, (units_have_one_size screen sized .length "em" accepted).1.mpr one⟩

-- Ten hundredths of the lesser side are sixty pixels, and ten below nothing are eighty pixels below it.
theorem lesser_side_has_two_sizes :
    screen.Sized ∧ 0 ≤ screen.viewport.width.toRat ∧ 0 ≤ screen.viewport.height.toRat ∧
      0 ≤ screen.fontSize.toRat ∧ 0 ≤ screen.rootFontSize.toRat ∧ Accepted screen .length "vmin" ∧
      Amounts screen .length "vmin" 10 60 ∧ Amounts screen .length "vmin" (-10) (-80) ∧
      (¬ ∃ factor, ∀ x, Amounts screen .length "vmin" x (x * factor)) ∧
      (⟨.length, .value 0, "px"⟩ : Numeric (Exact 3)).sum screen none .sub ⟨.length, .value 10, "vmin"⟩ =
        .ok (some ⟨.length, .value (-60), "px"⟩) ∧
      (⟨.length, .value 0, "px"⟩ : Numeric (Exact 3)).sum screen none .add ⟨.length, .value (-10), "vmin"⟩ =
        .ok (some ⟨.length, .value (-80), "px"⟩) := by
  have sized : screen.Sized := ⟨rfl, rfl, rfl, rfl⟩
  have choosing : Choosing .length "vmin" := ⟨rfl, .inl rfl⟩
  have amount (x y : Rat) (same : x * (screen.sideFor "vmin" x / 100) = y) : Amounts screen .length "vmin" x y :=
    same ▸ amounts_choosing screen sized .length "vmin" choosing x
  have above : Amounts screen .length "vmin" 10 60 := amount 10 60 (by decide +kernel)
  have below : Amounts screen .length "vmin" (-10) (-80) := amount (-10) (-80) (by decide +kernel)
  have nothing : Amounts screen .length "px" 0 0 := rfl
  have less := sum_amounts screen none .length "px" "vmin" .sub 0 10 0 60 (-60) (by decide) nothing above
    (by decide +kernel)
  have more := sum_amounts screen none .length "px" "vmin" .add 0 (-10) 0 (-80) (-80) (by decide)
    nothing below (by decide +kernel)
  refine ⟨sized, by decide, by decide, by decide, by decide, ⟨10, _, above⟩, above, below, ?_, less, more⟩
  intro ⟨factor, scaled⟩
  have first := amounts_unique screen .length "vmin" 10 _ _ (scaled 10) above
  have second := amounts_unique screen .length "vmin" (-10) _ _ (scaled (-10)) below
  linarith

end Numeric

end StyleCalc
