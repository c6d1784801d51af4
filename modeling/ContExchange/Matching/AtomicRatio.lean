import ContExchange.Matching.GroupCaps

/-!
# Matching: atomic groups keep their ratios

Under `strict_atomic` and `scalable_atomic` all legs of a group are executed at one group
unit.  The unit is the least of rounded quotients, each leg gets its multiple, and no leg
more than its cap.

* `ratioQty_bounds`: a leg executes the unit up to half a unit of its last place;
* `completed_leg`: a group at its desired unit completes one of its legs;
* `atomic_group_keeps_ratio`: both policies, for any legs with different instruments.
-/

namespace ContExchange
namespace Matching

open Common Lib Decimal List GroupedSolverBisection VectorLeg

def VectorLeg.ratio (leg : VectorLeg) : ℚ :=
  |leg.targetRatio.toRat|

def VectorLeg.remaining (leg : VectorLeg) : ℚ :=
  max 0 (leg.qMax.toRat - leg.filledCum.toRat)

def VectorLeg.rateCap (leg : VectorLeg) : Decimal × String :=
  considerCap leg.qRate "rate" (leg.remainingQty, "remaining")

def VectorLeg.liqCap (leg : VectorLeg) : Decimal × String :=
  considerOptional leg.qLiq "liq" leg.rateCap

def VectorLeg.riskCap (leg : VectorLeg) : Decimal × String :=
  considerOptional leg.qRisk "risk" leg.liqCap

/-- The differences of a leg fit 64 bits, and its mantissas can be compared. -/
structure VectorLeg.Exact (leg : VectorLeg) : Prop where
  remaining : Decimal.SubExact leg.qMax leg.filledCum
  negated : Decimal.SubExact (Decimal.zeroAt leg.targetRatio.scale) leg.targetRatio
  ratio : Decimal.Comparable leg.absRatio Decimal.zero
  rate : Decimal.Comparable leg.qRate leg.remainingQty
  liq : ∀ c ∈ leg.qLiq, Decimal.Comparable c leg.rateCap.1
  risk : ∀ c ∈ leg.qRisk, Decimal.Comparable c leg.liqCap.1
  venue : ∀ c ∈ leg.qVenue, Decimal.Comparable c leg.riskCap.1

section Legs

variable {leg : VectorLeg}

theorem absRatio_toRat (h : Decimal.SubExact (zeroAt leg.targetRatio.scale) leg.targetRatio) :
    leg.absRatio.toRat = leg.ratio := by
  unfold absRatio ratio
  dsimp only
  split_ifs with hneg
  · rw [cmp_zeroAt_neg_iff] at hneg
    rw [sub_toRat h, toRat_zeroAt, zero_sub, abs_of_neg hneg]
  · rw [cmp_zeroAt_neg_iff, not_lt] at hneg
    rw [abs_of_nonneg hneg]

theorem remainingQty_toRat (h : Decimal.SubExact leg.qMax leg.filledCum) :
    leg.remainingQty.toRat = leg.remaining := by
  have hsub := sub_toRat h
  unfold remainingQty remaining
  dsimp only
  split_ifs with hneg
  · rw [cmp_zeroAt_neg_iff, hsub] at hneg
    rw [toRat_zeroAt, max_eq_left hneg.le]
  · rw [cmp_zeroAt_neg_iff, hsub, not_lt] at hneg
    rw [hsub, max_eq_right hneg]

theorem VectorLeg.Exact.hasRatio_iff (h : leg.Exact) : leg.hasRatio = true ↔ leg.ratio ≠ 0 := by
  have hle : Decimal.cmp leg.absRatio .zero ≤ 0 ↔ leg.ratio ≤ 0 := by
    rw [h.ratio.cmp_nonpos_iff, absRatio_toRat h.negated, toRat_zero]
  have hge : 0 ≤ Decimal.cmp leg.absRatio .zero ↔ 0 ≤ leg.ratio := by
    rw [← ge_iff_le, h.ratio.cmp_nonneg_iff, absRatio_toRat h.negated, toRat_zero]
  unfold hasRatio
  rw [decide_eq_true_eq]
  simp only [ne_eq, le_antisymm_iff, hle, hge]

theorem considerCap_le {c : Decimal} {cap : Decimal × String} (name : String)
    (h : Decimal.Comparable c cap.1) : (considerCap c name cap).1.toRat ≤ cap.1.toRat := by
  unfold considerCap
  split_ifs with hless
  · exact (h.cmp_neg_iff.mp hless).le
  · exact le_rfl

theorem considerOptional_le {c : Option Decimal} {cap : Decimal × String} (name : String)
    (h : ∀ d ∈ c, Decimal.Comparable d cap.1) :
    (considerOptional c name cap).1.toRat ≤ cap.1.toRat := by
  cases c with
  | none => exact le_rfl
  | some d => exact considerCap_le name (h d rfl)

theorem VectorLeg.Exact.cap_le (h : leg.Exact) : leg.feasibleCap.cap.toRat ≤ leg.remaining := by
  rw [← remainingQty_toRat h.remaining]
  calc leg.feasibleCap.cap.toRat ≤ leg.riskCap.1.toRat := considerOptional_le "venue" h.venue
    _ ≤ leg.liqCap.1.toRat := considerOptional_le "risk" h.risk
    _ ≤ leg.rateCap.1.toRat := considerOptional_le "liq" h.liq
    _ ≤ leg.remainingQty.toRat := considerCap_le "rate" h.rate

end Legs

section Unit

variable {caps : List FeasibleCap} {leg : VectorLeg} {g : Decimal}

theorem ratioQty_bounds (hratio : 0 < leg.absRatio.toRat)
    (hquotient : Decimal.DivFits (capOf caps leg) leg.absRatio 12)
    (hproduct : Decimal.MulExact g leg.absRatio)
    (hcomparable : Decimal.Comparable (Decimal.mul g leg.absRatio) (capOf caps leg))
    (hleast : g.toRat ≤ (leg.feasibleUnit caps).toRat) :
    (g.toRat - 1 / 2 / 10 ^ 12) * leg.absRatio.toRat ≤ (ratioQty caps g leg).toRat ∧
      (ratioQty caps g leg).toRat ≤ g.toRat * leg.absRatio.toRat ∧
      (ratioQty caps g leg).toRat ≤ (capOf caps leg).toRat := by
  have hmin : (ratioQty caps g leg).toRat =
      min (g.toRat * leg.absRatio.toRat) (capOf caps leg).toRat := by
    unfold ratioQty Decimal.min
    rw [← mul_toRat hproduct]
    split_ifs with hcmp
    · rw [min_eq_left (hcomparable.cmp_nonpos_iff.mp hcmp)]
    · rw [hcomparable.cmp_nonpos_iff, not_le] at hcmp
      rw [min_eq_right hcmp.le]
  have herror := (abs_le.mp (divUnits_error hquotient)).2
  have hcap : (g.toRat - 1 / 2 / 10 ^ 12) * leg.absRatio.toRat ≤ (capOf caps leg).toRat := by
    rw [← le_div_iff₀ hratio]
    unfold feasibleUnit at hleast
    norm_num at herror ⊢
    linarith
  rw [hmin]
  refine ⟨le_min ?_ hcap, min_le_left _ _, min_le_right _ _⟩
  exact mul_le_mul_of_nonneg_right (by norm_num) hratio.le

theorem completed_leg (hratio : 0 < leg.absRatio.toRat)
    (hquotient : Decimal.DivFits leg.remainingQty leg.absRatio 12)
    (hcap : (capOf caps leg).toRat ≤ leg.remainingQty.toRat) {q : ℚ}
    (hlow : (g.toRat - 1 / 2 / 10 ^ 12) * leg.absRatio.toRat ≤ q)
    (hhigh : q ≤ (capOf caps leg).toRat) (hreached : leg.desiredUnit.toRat ≤ g.toRat) :
    |leg.remainingQty.toRat - q| ≤ leg.absRatio.toRat / 10 ^ 12 := by
  have herror := (abs_le.mp (divUnits_error hquotient)).1
  have hrest : leg.remainingQty.toRat ≤ (g.toRat + 1 / 2 / 10 ^ 12) * leg.absRatio.toRat := by
    rw [← div_le_iff₀ hratio]
    unfold desiredUnit at hreached
    norm_num at herror ⊢
    linarith
  rw [abs_of_nonneg (by linarith)]
  calc leg.remainingQty.toRat - q
      ≤ (g.toRat + 1 / 2 / 10 ^ 12) * leg.absRatio.toRat -
          (g.toRat - 1 / 2 / 10 ^ 12) * leg.absRatio.toRat := by linarith
    _ = leg.absRatio.toRat / 10 ^ 12 := by ring

end Unit

/-- The decimals that the solver computes for a group fit 64 bits, up to the rounding of the
quotients, and its comparisons are exact. -/
structure MultiLegVectorOrder.Fits (order : MultiLegVectorOrder) : Prop where
  legs : ∀ leg ∈ order.legs, leg.Exact
  quotients : ∀ leg ∈ order.legs, leg.hasRatio = true →
    Decimal.DivFits (capOf (computeFeasibleCaps order) leg) leg.absRatio 12 ∧
      Decimal.DivFits leg.remainingQty leg.absRatio 12
  scale : order.atomicityPolicy = .scalableAtomic →
    ∀ units ∈ groupUnits (computeFeasibleCaps order) order.legs,
      (0 < units.desired.toRat → Decimal.DivFits units.feasible units.desired 6) ∧
        Decimal.Comparable (executionScale units) order.minExecutionScale
  products : ∀ units ∈ groupUnits (computeFeasibleCaps order) order.legs,
    Decimal.cmp (policyDecision order units).gExec Decimal.zero > 0 →
      ∀ leg ∈ order.legs, leg.hasRatio = true →
        Decimal.MulExact units.feasible leg.absRatio ∧
          Decimal.Comparable (Decimal.mul units.feasible leg.absRatio)
            (capOf (computeFeasibleCaps order) leg)

def MultiLegVectorOrder.ratioLegs (order : MultiLegVectorOrder) : List VectorLeg :=
  order.legs.filter (fun leg => leg.ratio ≠ 0)

/-- All legs are executed, at units that differ by `10^-12` at most. -/
structure KeepsRatios (legs : List VectorLeg) (execs : List LegExec) : Prop where
  all : List.Forall₂ (fun leg e => e.legId = leg.legId ∧
    e.instrumentSymbol = leg.instrumentSymbol ∧ e.targetRatio = leg.targetRatio) legs execs
  units : ∀ p ∈ legs.zip execs, ∀ q ∈ legs.zip execs,
    |p.2.executedQty.toRat / p.1.ratio - q.2.executedQty.toRat / q.1.ratio| ≤ 1 / 10 ^ 12

section Group

variable {order : MultiLegVectorOrder} {units : GroupUnits} {leg : VectorLeg}

theorem groupUnits_least (hunits : groupUnits (computeFeasibleCaps order) order.legs = some units) :
    ((∃ leg ∈ order.legs.filter hasRatio,
          units.feasible = leg.feasibleUnit (computeFeasibleCaps order)) ∧
        ∀ leg ∈ order.legs.filter hasRatio,
          units.feasible.toRat ≤ (leg.feasibleUnit (computeFeasibleCaps order)).toRat) ∧
      ∃ leg ∈ order.legs.filter hasRatio, units.desired = leg.desiredUnit := by
  obtain ⟨hfeasible, hdesired⟩ := groupUnits_spec (computeFeasibleCaps order) order.legs
  rw [hunits, Option.map_some] at hfeasible hdesired
  exact ⟨leastOf_le (fun leg _ => feasibleUnit_scaleOk _ leg) hfeasible.symm,
    (leastOf_le (fun leg _ => desiredUnit_scaleOk leg) hdesired.symm).1⟩

/-- The scale before its rounding. -/
def GroupUnits.exactScale (units : GroupUnits) : ℚ :=
  max 0 (min 1 (units.feasible.toRat / units.desired.toRat))

theorem oneDecimal_toRat : oneDecimal.toRat = 1 := by
  simp [oneDecimal, Decimal.toRat, Decimal.of]

theorem clamp01_toRat {d : Decimal} (h : d.ScaleOk) :
    (clamp01 d).toRat = max 0 (min 1 d.toRat) := by
  unfold clamp01
  split_ifs with hneg hmore
  · rw [cmp_neg_iff h scaleOk_zero, toRat_zero] at hneg
    rw [min_eq_right (hneg.le.trans zero_le_one), max_eq_left hneg.le, toRat_zero]
  · rw [gt_iff_lt, cmp_pos_iff h (by decide), oneDecimal_toRat] at hmore
    rw [min_eq_left hmore.le, max_eq_right zero_le_one, oneDecimal_toRat]
  · rw [cmp_neg_iff h scaleOk_zero, toRat_zero, not_lt] at hneg
    rw [gt_iff_lt, cmp_pos_iff h (by decide), oneDecimal_toRat, not_lt] at hmore
    rw [min_eq_right hmore, max_eq_right hneg]

theorem executionScale_toRat (hdesired : units.desired.ScaleOk) :
    (executionScale units).toRat =
      if 0 < units.desired.toRat then
        max 0 (min 1 (Decimal.divUnits units.feasible units.desired 6).toRat)
      else 0 := by
  have hiff : Decimal.cmp units.desired .zero > 0 ↔ 0 < units.desired.toRat := by
    rw [gt_iff_lt, cmp_pos_iff hdesired scaleOk_zero, toRat_zero]
  obtain ⟨hlow, hhigh⟩ := divUnits_places units.feasible units.desired (s := 6) (by norm_num)
  unfold executionScale
  split_ifs with hcmp hpositive hpositive
  · exact clamp01_toRat ⟨hlow, hhigh.trans (by norm_num)⟩
  · exact absurd (hiff.mp hcmp) hpositive
  · exact absurd (hiff.mpr hpositive) hcmp
  · exact toRat_zero

theorem executionScale_error (hdesired : units.desired.ScaleOk)
    (hpositive : 0 < units.desired.toRat)
    (hfits : Decimal.DivFits units.feasible units.desired 6) :
    |(executionScale units).toRat - units.exactScale| ≤ 1 / 2 / 10 ^ 6 := by
  have herror := divUnits_error hfits
  rw [executionScale_toRat hdesired, if_pos hpositive]
  unfold GroupUnits.exactScale
  set rounded := (Decimal.divUnits units.feasible units.desired 6).toRat
  set exact := units.feasible.toRat / units.desired.toRat
  calc |max 0 (min 1 rounded) - max 0 (min 1 exact)|
      ≤ max |0 - 0| |min 1 rounded - min 1 exact| := abs_max_sub_max_le_max _ _ _ _
    _ = |min 1 rounded - min 1 exact| := by simp
    _ ≤ max |1 - 1| |rounded - exact| := abs_min_sub_min_le_max _ _ _ _
    _ = |rounded - exact| := by simp
    _ ≤ 1 / 2 / 10 ^ 6 := by norm_num at herror ⊢; exact herror

theorem executionScale_le (hdesired : units.desired.ScaleOk)
    (hfits : 0 < units.desired.toRat → Decimal.DivFits units.feasible units.desired 6) :
    (executionScale units).toRat ≤ units.exactScale + 1 / 10 ^ 6 := by
  by_cases hpositive : 0 < units.desired.toRat
  · have herror := (abs_le.mp (executionScale_error hdesired hpositive (hfits hpositive))).2
    norm_num at herror ⊢
    linarith
  · have hnonneg : 0 ≤ units.exactScale := le_max_left _ _
    rw [executionScale_toRat hdesired, if_neg hpositive]
    positivity

theorem cmp_zero_zero : ¬Decimal.cmp .zero .zero > 0 := by
  decide

theorem strict_trades_iff (h : order.atomicityPolicy = .strictAtomic) :
    Decimal.cmp (policyDecision order units).gExec .zero > 0 ↔
      ¬Decimal.cmp units.feasible units.desired < 0 ∧ Decimal.cmp units.feasible .zero > 0 := by
  unfold policyDecision
  rw [h]
  dsimp only
  split_ifs with hless
  · exact iff_of_false cmp_zero_zero fun h => h.1 hless
  · exact (and_iff_right hless).symm

theorem scalable_trades_iff (h : order.atomicityPolicy = .scalableAtomic) :
    Decimal.cmp (policyDecision order units).gExec .zero > 0 ↔
      ¬Decimal.cmp (executionScale units) order.minExecutionScale < 0 ∧
        Decimal.cmp units.feasible .zero > 0 := by
  unfold policyDecision
  rw [h]
  dsimp only
  split_ifs with hless
  · exact iff_of_false cmp_zero_zero fun h => h.1 hless
  · exact (and_iff_right hless).symm
  · exact (and_iff_right hless).symm

theorem ratioLegs_eq (hfits : order.Fits) :
    order.legs.filter hasRatio = order.ratioLegs := by
  refine filter_congr fun leg hleg => ?_
  rw [Bool.eq_iff_iff, (hfits.legs leg hleg).hasRatio_iff, decide_eq_true_eq]

theorem execs_of_trades (hpolicy : order.atomicityPolicy ≠ .bestEffort)
    (hunits : groupUnits (computeFeasibleCaps order) order.legs = some units)
    (hpositive : Decimal.cmp (policyDecision order units).gExec .zero > 0) :
    (solve order (computeFeasibleCaps order)).legExecs =
      (order.legs.filter hasRatio).map
        (fun leg => leg.exec (ratioQty (computeFeasibleCaps order) units.feasible leg)) := by
  unfold solve solveRatio
  rw [hunits]
  dsimp only
  rw [if_neg hpolicy, if_pos hpositive, gExec_of_pos hpositive]

section Trades

variable (hfits : order.Fits)
  (hunits : groupUnits (computeFeasibleCaps order) order.legs = some units)
  (hpositive : Decimal.cmp (policyDecision order units).gExec .zero > 0)

include hfits hunits hpositive

theorem legExec_bounds (hleg : leg ∈ order.legs.filter hasRatio) :
    0 < leg.ratio ∧
      (units.feasible.toRat - 1 / 2 / 10 ^ 12) * leg.ratio ≤
        (ratioQty (computeFeasibleCaps order) units.feasible leg).toRat ∧
      (ratioQty (computeFeasibleCaps order) units.feasible leg).toRat ≤
        units.feasible.toRat * leg.ratio ∧
      (ratioQty (computeFeasibleCaps order) units.feasible leg).toRat ≤
        (capOf (computeFeasibleCaps order) leg).toRat := by
  obtain ⟨hmem, hratio⟩ := mem_filter.mp hleg
  have hexact := hfits.legs leg hmem
  have habs := absRatio_toRat hexact.negated
  have hpos : 0 < leg.ratio := lt_of_le_of_ne (abs_nonneg _) (hexact.hasRatio_iff.mp hratio).symm
  obtain ⟨hproduct, hcomparable⟩ := hfits.products units hunits hpositive leg hmem hratio
  have hbounds := ratioQty_bounds (habs ▸ hpos) (hfits.quotients leg hmem hratio).1 hproduct
    hcomparable ((groupUnits_least hunits).1.2 leg hleg)
  rw [habs] at hbounds
  exact ⟨hpos, hbounds⟩

theorem keepsRatios_of_trades :
    KeepsRatios order.ratioLegs (order.ratioLegs.map
      (fun leg => leg.exec (ratioQty (computeFeasibleCaps order) units.feasible leg))) where
  all := by
    rw [forall₂_map_right_iff, forall₂_same]
    exact fun leg _ => ⟨rfl, rfl, rfl⟩
  units := by
    have hunit : ∀ p ∈ order.ratioLegs.zip (order.ratioLegs.map
        (fun leg => leg.exec (ratioQty (computeFeasibleCaps order) units.feasible leg))),
        units.feasible.toRat - 1 / 2 / 10 ^ 12 ≤ p.2.executedQty.toRat / p.1.ratio ∧
          p.2.executedQty.toRat / p.1.ratio ≤ units.feasible.toRat := by
      intro p hp
      rw [← map_prod_left_eq_zip, ← ratioLegs_eq hfits, mem_map] at hp
      obtain ⟨leg, hleg, rfl⟩ := hp
      obtain ⟨hpos, hlow, hhigh, -⟩ := legExec_bounds hfits hunits hpositive hleg
      exact ⟨(le_div_iff₀ hpos).mpr hlow, (div_le_iff₀ hpos).mpr hhigh⟩
    intro p hp q hq
    obtain ⟨hpLow, hpHigh⟩ := hunit p hp
    obtain ⟨hqLow, hqHigh⟩ := hunit q hq
    rw [abs_le]
    norm_num at hpLow hqLow ⊢
    constructor <;> linarith

theorem exists_completed (hdistinct : (order.legs.map VectorLeg.instrumentSymbol).Nodup)
    (hreached : units.desired.toRat ≤ units.feasible.toRat) :
    ∃ p ∈ order.ratioLegs.zip (order.ratioLegs.map
        (fun leg => leg.exec (ratioQty (computeFeasibleCaps order) units.feasible leg))),
      |p.1.remaining - p.2.executedQty.toRat| ≤ p.1.ratio / 10 ^ 12 := by
  obtain ⟨-, leg, hleg, hleast⟩ := groupUnits_least hunits
  rw [hleast] at hreached
  obtain ⟨hmem, hratio⟩ := mem_filter.mp hleg
  have hexact := hfits.legs leg hmem
  obtain ⟨hpos, hlow, -, hcap⟩ := legExec_bounds hfits hunits hpositive hleg
  have hown : (capOf (computeFeasibleCaps order) leg).toRat ≤ leg.remainingQty.toRat := by
    rw [computeFeasibleCaps, capOf_of_distinct hdistinct hmem, remainingQty_toRat hexact.remaining]
    exact hexact.cap_le
  rw [← absRatio_toRat hexact.negated] at hpos hlow
  have hcompleted := completed_leg hpos (hfits.quotients leg hmem hratio).2 hown hlow hcap hreached
  rw [absRatio_toRat hexact.negated, remainingQty_toRat hexact.remaining] at hcompleted
  refine ⟨(leg, leg.exec (ratioQty (computeFeasibleCaps order) units.feasible leg)), ?_, hcompleted⟩
  rw [← map_prod_left_eq_zip, ← ratioLegs_eq hfits]
  exact mem_map_of_mem hleg

end Trades

end Group

/-- Under the atomic policies nothing is executed or all legs keep their ratios; a strict
group executes only at its desired unit and completes one of its legs, a scalable one only
at its least scale. -/
theorem atomic_group_keeps_ratio (order : MultiLegVectorOrder)
    (hpolicy : order.atomicityPolicy = .strictAtomic ∨ order.atomicityPolicy = .scalableAtomic)
    (hdistinct : (order.legs.map VectorLeg.instrumentSymbol).Nodup) (hfits : order.Fits) :
    (GroupedSolverBisection.solve order (computeFeasibleCaps order)).legExecs = [] ∨
      ∃ units, groupUnits (computeFeasibleCaps order) order.legs = some units ∧
        KeepsRatios order.ratioLegs
          (GroupedSolverBisection.solve order (computeFeasibleCaps order)).legExecs ∧
        (order.atomicityPolicy = .strictAtomic →
          units.desired.toRat ≤ units.feasible.toRat ∧
            ∃ p ∈ order.ratioLegs.zip
                (GroupedSolverBisection.solve order (computeFeasibleCaps order)).legExecs,
              |p.1.remaining - p.2.executedQty.toRat| ≤ p.1.ratio / 10 ^ 12) ∧
        (order.atomicityPolicy = .scalableAtomic →
          order.minExecutionScale.toRat ≤ units.exactScale + 1 / 10 ^ 6) := by
  have hbest : order.atomicityPolicy ≠ .bestEffort := by
    rcases hpolicy with h | h <;> simp [h]
  rcases solve_legExecs order with ⟨⟨units, hunits, htrades⟩, -⟩ | ⟨-, hnone⟩
  · have hpositive := htrades.resolve_left hbest
    have hexecs := execs_of_trades hbest hunits hpositive
    rw [ratioLegs_eq hfits] at hexecs
    have hfeasible : units.feasible.ScaleOk := by
      obtain ⟨⟨⟨leg, -, hleg⟩, -⟩, -⟩ := groupUnits_least hunits
      rw [hleg]
      exact feasibleUnit_scaleOk _ leg
    have hdesired : units.desired.ScaleOk := by
      obtain ⟨-, leg, -, hleg⟩ := groupUnits_least hunits
      rw [hleg]
      exact desiredUnit_scaleOk leg
    refine .inr ⟨units, hunits, ?_, fun hstrict => ?_, fun hscalable => ?_⟩
    · rw [hexecs]
      exact keepsRatios_of_trades hfits hunits hpositive
    · have hreached : units.desired.toRat ≤ units.feasible.toRat := by
        have hnot := ((strict_trades_iff hstrict).mp hpositive).1
        rwa [Decimal.cmp_neg_iff hfeasible hdesired, not_lt] at hnot
      refine ⟨hreached, ?_⟩
      rw [hexecs]
      exact exists_completed hfits hunits hpositive hdistinct hreached
    · obtain ⟨hquotient, hcomparable⟩ := hfits.scale hscalable units hunits
      have hnot := ((scalable_trades_iff hscalable).mp hpositive).1
      rw [hcomparable.cmp_neg_iff, not_lt] at hnot
      exact hnot.trans (executionScale_le hdesired hquotient)
  · exact .inl hnone

/-- A group of two instruments that its rate scales down. -/
def scaledGroup : MultiLegVectorOrder :=
  plainGroup .scalableAtomic (twoLegs "BTC/USDT" "ETH/USDT")

theorem scaledGroup_fits : scaledGroup.Fits where
  legs := by
    intro leg hleg
    rcases mem_cons.mp hleg with rfl | hleg
    · constructor <;> decide +kernel
    · rw [mem_singleton.mp hleg]
      constructor <;> decide +kernel
  quotients := by decide +kernel
  scale := by decide +kernel
  products := by decide +kernel

theorem scaledGroup_keeps_ratios :
    KeepsRatios scaledGroup.ratioLegs
      (GroupedSolverBisection.solve scaledGroup (computeFeasibleCaps scaledGroup)).legExecs := by
  have hnodup : (scaledGroup.legs.map VectorLeg.instrumentSymbol).Nodup := by decide
  obtain ⟨units, -, hkeeps, -⟩ := (atomic_group_keeps_ratio scaledGroup (.inr rfl) hnodup
    scaledGroup_fits).resolve_left (by decide +kernel)
  exact hkeeps

end Matching
end ContExchange
