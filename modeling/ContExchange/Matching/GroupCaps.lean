import ContExchange.Matching.GroupUnits

/-!
# Matching: a group and the caps of its legs

The caps of a group are computed leg by leg and handed to the solver by instrument, so
that the last leg of an instrument caps all of them.

* `CapCovered`: what a leg trades is nevertheless within its own cap;
* `tradeQty_within_iff`: this is exactly when a leg keeps to its limits;
* `groups_within_caps_iff`: for all groups of a batch.
-/

namespace ContExchange
namespace Matching

open Common Lib Decimal List Option MultiLegVectorOrder VectorLeg

section Smaller

variable {a b : Decimal}

theorem min_le_cap (ha : 0 ≤ a.scale) (hb : b.ScaleOk) (hnonneg : 0 ≤ b.toRat) :
    (Decimal.min a b).toRat ≤ b.toRat := by
  unfold Decimal.min
  split_ifs with hcmp
  · by_cases hnear : |a.scale - b.scale| ≤ 19
    · exact (comparable_of_scales hnear).cmp_nonpos_iff.mp hcmp
    · -- the first has so many places that it is below the last place of the second
      have hfar : b.scale + 19 < a.scale := by
        obtain ⟨hb₀, hb₁⟩ := hb
        rw [abs_le] at hnear
        omega
      rcases (lt_or_eq_of_le ((toRat_nonneg_iff b).mp hnonneg)) with hpos | hzero
      · have hunits : (a.units : ℚ) < 10 ^ (19 : Int) := by
          have := a.fits.2
          unfold int64Max at this
          exact_mod_cast (show a.units < 10 ^ 19 by omega)
        have hplace : (10 : ℚ) ^ (19 : Int) * 10 ^ (-a.scale) ≤ 10 ^ (-b.scale) := by
          rw [← zpow_add₀ (by norm_num)]
          exact zpow_le_zpow_right₀ (by norm_num) (by omega)
        have hone : (10 : ℚ) ^ (-b.scale) ≤ b.toRat := by
          have : (1 : ℚ) ≤ b.units := by exact_mod_cast hpos
          calc (10 : ℚ) ^ (-b.scale) = 1 * 10 ^ (-b.scale) := (one_mul _).symm
            _ ≤ b.units * 10 ^ (-b.scale) :=
              mul_le_mul_of_nonneg_right this (pow10_pos _).le
        exact ((mul_le_mul_of_nonneg_right hunits.le (pow10_pos _).le).trans hplace).trans hone
      · have hcomparable : Decimal.Comparable a b := by
          unfold Decimal.Comparable
          rw [max_eq_left (by omega), unitsAt_self]
          have hzero' : b.unitsAt a.scale = 0 := by
            unfold Decimal.unitsAt
            rw [← hzero, zero_mul]
          rw [hzero']
          exact ⟨.inl (i128_of_small a.abs_units_le).1, .inl (by decide)⟩
        exact hcomparable.cmp_nonpos_iff.mp hcmp
  · exact le_rfl

theorem min_le_iff {q : ℚ} (ha : 0 ≤ a.scale) (hb : b.ScaleOk) (hnonneg : 0 ≤ b.toRat) :
    (Decimal.min a b).toRat ≤ q ↔ b.toRat ≤ q ∨ Decimal.cmp a b ≤ 0 ∧ a.toRat ≤ q := by
  have hcap := min_le_cap ha hb hnonneg
  constructor
  · intro hmin
    unfold Decimal.min at hmin
    split_ifs at hmin with hcmp
    · exact .inr ⟨hcmp, hmin⟩
    · exact .inl hmin
  · rintro (hle | ⟨hcmp, hle⟩)
    · exact hcap.trans hle
    · unfold Decimal.min
      rw [if_pos hcmp]
      exact hle

end Smaller

section InstrumentCaps

/-- The cap of the last leg on the instrument of a leg. -/
def MultiLegVectorOrder.instrumentCap (order : MultiLegVectorOrder) (leg : VectorLeg) : Decimal :=
  ((order.legs.filter (fun other => other.instrumentSymbol = leg.instrumentSymbol)).getLast?.map
    (fun other => other.feasibleCap.cap)).getD leg.remainingQty

/-- The group unit that this cap allows. -/
def MultiLegVectorOrder.instrumentUnit (order : MultiLegVectorOrder) (leg : VectorLeg) : Decimal :=
  Decimal.divUnits (order.instrumentCap leg) leg.absRatio 12

theorem capOf_computeFeasibleCaps (order : MultiLegVectorOrder) (leg : VectorLeg) :
    capOf (computeFeasibleCaps order) leg = order.instrumentCap leg := by
  unfold computeFeasibleCaps MultiLegVectorOrder.instrumentCap
  induction order.legs using List.reverseRecOn with
  | nil => rfl
  | append_singleton legs last ih =>
      rw [capOf_concat, filter_append]
      split_ifs with hsame
      · rw [filter_cons_of_pos (by simpa using hsame), filter_nil, getLast?_concat]
        rfl
      · rw [filter_cons_of_neg (by simpa using hsame), filter_nil, append_nil]
        exact ih

theorem feasibleUnit_computeFeasibleCaps (order : MultiLegVectorOrder) (leg : VectorLeg) :
    leg.feasibleUnit (computeFeasibleCaps order) = order.instrumentUnit leg := by
  unfold feasibleUnit MultiLegVectorOrder.instrumentUnit
  rw [capOf_computeFeasibleCaps]

end InstrumentCaps

/-- The first of the legs that allow the least group unit. -/
def BindingLeg (order : MultiLegVectorOrder) (leg : VectorLeg) : Prop :=
  FirstLeast order.instrumentUnit (order.legs.filter VectorLeg.hasRatio) leg

/-- The cap of the instrument of a leg is at most the leg's own, or the group keeps its ratios
and what the binding leg allows is. -/
def CapCovered (order : MultiLegVectorOrder) (leg : VectorLeg) : Prop :=
  (order.instrumentCap leg).toRat ≤ leg.feasibleCap.cap.toRat ∨
    order.atomicityPolicy ≠ .bestEffort ∧
      ∃ binding, BindingLeg order binding ∧
        Decimal.cmp (Decimal.mul (order.instrumentUnit binding) leg.absRatio)
            (order.instrumentCap leg) ≤ 0 ∧
        (Decimal.mul (order.instrumentUnit binding) leg.absRatio).toRat ≤
          leg.feasibleCap.cap.toRat

/-- A quantity is within the limits of a leg. -/
def VectorLeg.Within (leg : VectorLeg) (qty : Decimal) : Prop :=
  0 ≤ qty.toRat ∧ ∀ limit ∈ leg.limits, qty.toRat ≤ limit.toRat

section Trade

variable {order : MultiLegVectorOrder} {leg : VectorLeg} {units : GroupUnits}

theorem feasibleUnit_scaleOk (caps : List FeasibleCap) (leg : VectorLeg) :
    (leg.feasibleUnit caps).ScaleOk := by
  obtain ⟨hlow, hhigh⟩ := divUnits_places (capOf caps leg) leg.absRatio (s := 12) (by norm_num)
  exact ⟨hlow, hhigh.trans (by norm_num)⟩

theorem instrumentUnit_scaleOk (order : MultiLegVectorOrder) (leg : VectorLeg) :
    (order.instrumentUnit leg).ScaleOk :=
  feasibleUnit_computeFeasibleCaps order leg ▸ feasibleUnit_scaleOk _ leg

theorem leastOf_instrumentUnit
    (hunits : groupUnits (computeFeasibleCaps order) order.legs = some units) :
    leastOf order.instrumentUnit (order.legs.filter VectorLeg.hasRatio) = some units.feasible := by
  have hleast := (groupUnits_spec (computeFeasibleCaps order) order.legs).1
  rw [hunits, map_some, funext (feasibleUnit_computeFeasibleCaps order)] at hleast
  exact hleast.symm

theorem desiredUnit_scaleOk (leg : VectorLeg) : leg.desiredUnit.ScaleOk := by
  obtain ⟨hlow, hhigh⟩ := divUnits_places leg.remainingQty leg.absRatio (s := 12) (by norm_num)
  exact ⟨hlow, hhigh.trans (by norm_num)⟩

theorem feasible_iff_binding
    (hunits : groupUnits (computeFeasibleCaps order) order.legs = some units)
    {leg : VectorLeg} (h : BindingLeg order leg) :
    units.feasible = order.instrumentUnit leg := by
  have hleast := leastOf_instrumentUnit hunits
  exact leastOf_of_firstLeast (fun y _ => instrumentUnit_scaleOk order y) hleast h

theorem gExec_of_pos (h : Decimal.cmp (policyDecision order units).gExec .zero > 0) :
    (policyDecision order units).gExec = units.feasible := by
  revert h
  unfold policyDecision
  cases order.atomicityPolicy <;> dsimp only
  · split_ifs <;> simp [Decimal.cmp]
  · split_ifs <;> simp [Decimal.cmp]
  all_goals simp [Decimal.cmp]

theorem exists_bindingLeg
    (hunits : groupUnits (computeFeasibleCaps order) order.legs = some units) :
    ∃ binding, BindingLeg order binding := by
  exact exists_firstLeast (fun y _ => instrumentUnit_scaleOk order y)
    (leastOf_instrumentUnit hunits)

theorem tradeQty_within_iff (hok : ∀ leg ∈ order.legs, leg.CapsOk) (htrades : order.Trades)
    (hleg : leg ∈ order.legs) : leg.Within (order.tradeQty leg) ↔ CapCovered order leg := by
  obtain ⟨units, hunits, hpolicy⟩ := htrades
  obtain ⟨other, hother, -, hcap⟩ := capOf_mem hleg
  have hcapOk : (order.instrumentCap leg).ScaleOk ∧
      0 ≤ (order.instrumentCap leg).toRat := by
    rw [← capOf_computeFeasibleCaps]
    unfold computeFeasibleCaps
    rw [hcap]
    exact feasibleCap_ok (hok other hother)
  unfold VectorLeg.Within CapCovered tradeQty
  rw [hunits, capOf_computeFeasibleCaps, le_limits_iff (hok leg hleg)]
  dsimp only
  by_cases hbest : order.atomicityPolicy = .bestEffort
  · rw [if_pos hbest, and_iff_right hcapOk.2, or_iff_left fun h => h.1 hbest]
  · have hpositive := hpolicy.resolve_left hbest
    have hexec := gExec_of_pos hpositive
    obtain ⟨binding, hbinding⟩ := exists_bindingLeg hunits
    have hunit := feasible_iff_binding hunits hbinding
    have hscale := instrumentUnit_scaleOk order binding
    rw [hexec, hunit, gt_iff_lt, cmp_pos_iff hscale scaleOk_zero, toRat_zero] at hpositive
    obtain ⟨hratioScale, hratio⟩ := absRatio_spec (hok leg hleg).ratio
    have hmul := mul_nonneg_toRat hpositive.le hratio
    have hplaces : 0 ≤ (Decimal.mul (order.instrumentUnit binding)
        leg.absRatio).scale := by
      rw [(mul_eq _ _).1]
      exact (normalizeI128_scale (add_nonneg hscale.1 hratioScale.1)).1
    have hmin : 0 ≤ (Decimal.min (Decimal.mul (order.instrumentUnit binding)
        leg.absRatio) (order.instrumentCap leg)).toRat := by
      unfold Decimal.min
      split_ifs
      · exact hmul
      · exact hcapOk.2
    unfold ratioQty
    rw [capOf_computeFeasibleCaps]
    rw [if_neg hbest, hexec, hunit, and_iff_right hmin, min_le_iff hplaces hcapOk.1 hcapOk.2]
    refine or_congr_right ?_
    constructor
    · exact fun h => ⟨hbest, binding, hbinding, h⟩
    · rintro ⟨-, binding', hbinding', h⟩
      rw [← feasible_iff_binding hunits hbinding', hunit] at h
      exact h

end Trade

section Groups

variable {order : MultiLegVectorOrder} {prices : ReferencePrices}

/-- Nothing is executed, or every leg with a ratio within its limits. -/
def ExecsWithin (order : MultiLegVectorOrder) (execs : List LegExec) : Prop :=
  execs = [] ∨ List.Forall₂ (fun leg e => e.legId = leg.legId ∧ leg.Within e.executedQty)
    (order.legs.filter VectorLeg.hasRatio) execs

/-- The caps are covered if the group executes. -/
def CapsCovered (order : MultiLegVectorOrder) (prices : ReferencePrices) : Prop :=
  order.Trades → ¬order.HardViolated prices →
    ∀ leg ∈ order.legs.filter VectorLeg.hasRatio, CapCovered order leg

theorem execsWithin_iff (hok : ∀ leg ∈ order.legs, leg.CapsOk) :
    ExecsWithin order (solveGroup prices order).solve.legExecs ↔ CapsCovered order prices := by
  unfold ExecsWithin CapsCovered
  rcases solveGroup_legExecs order prices with ⟨htrades, hhard, hexecs⟩ | ⟨hnot, hexecs⟩
  · have hsame : List.Forall₂ (fun leg e => e.legId = leg.legId ∧ leg.Within e.executedQty)
        (order.legs.filter hasRatio) order.trades ↔
          ∀ leg ∈ order.legs.filter hasRatio, CapCovered order leg := by
      unfold trades
      rw [forall₂_map_right_iff, forall₂_same]
      refine forall₂_congr fun leg hleg => ?_
      rw [← tradeQty_within_iff hok htrades (mem_of_mem_filter hleg)]
      exact and_iff_right rfl
    rw [hexecs, hsame]
    constructor
    · rintro (hnone | hall) - -
      · have hnil : order.legs.filter hasRatio = [] := map_eq_nil_iff.mp hnone
        rw [hnil]
        exact forall_mem_nil _
      · exact hall
    · exact fun h => .inr (h htrades hhard)
  · rw [hexecs]
    exact iff_of_true (.inl rfl) fun htrades hhard => absurd ⟨htrades, hhard⟩ hnot

/-- Every group of a batch keeps to the limits of its legs exactly when the caps of the groups
that execute are covered. -/
theorem groups_within_caps_iff (groups : List MultiLegVectorOrder) (prices : ReferencePrices)
    (hok : ∀ order ∈ groups, ∀ leg ∈ order.legs, leg.CapsOk) :
    List.Forall₂ (fun order result => ExecsWithin order result.solve.legExecs) groups
        (executeGroups groups prices) ↔
      ∀ order ∈ groups, CapsCovered order prices := by
  unfold executeGroups
  rw [List.forall₂_map_right_iff, List.forall₂_same]
  exact forall₂_congr fun order horder => execsWithin_iff (hok order horder)

end Groups

def cappedLeg (legId symbol : String) (qRate : Decimal) : VectorLeg where
  legId
  instrumentSymbol := symbol
  targetRatio := Decimal.of 1 0
  pLow := Decimal.zero
  pHigh := Decimal.of 100 0
  qRate
  qMax := Decimal.of 10 0
  filledCum := Decimal.zero

/-- A group under a policy, without constraints. -/
def plainGroup (policy : GroupAtomicityPolicy) (legs : List VectorLeg) : MultiLegVectorOrder where
  parentOrderId := "c-1"
  userId := "u-1"
  legs
  atomicityPolicy := policy
  fallbackPolicy := .waitNextBatch
  minExecutionScale := Decimal.zero
  maxRatioDeviationBps := 0
  constraints := []

theorem cappedLeg_ok (legId symbol : String) {qRate : Decimal} (hscale : qRate.ScaleOk)
    (hnonneg : 0 ≤ qRate.toRat) : (cappedLeg legId symbol qRate).CapsOk where
  ratio := show (Decimal.of 1 0).ScaleOk by decide
  qMax := show (Decimal.of 10 0).ScaleOk by decide
  filledCum := Decimal.scaleOk_zero
  caps := by simpa [cappedLeg] using And.intro hscale hnonneg

/-- A leg at its rate and one at the rate ten. -/
def twoLegs (first second : String) : List VectorLeg :=
  [cappedLeg "a" first (Decimal.of 1 0), cappedLeg "b" second (Decimal.of 10 0)]

theorem twoLegs_ok (first second : String) : ∀ leg ∈ twoLegs first second, leg.CapsOk := by
  intro leg hleg
  rcases mem_cons.mp hleg with rfl | hleg
  · exact cappedLeg_ok _ _ (by decide) (by decide +kernel)
  · rw [mem_singleton.mp hleg]
    exact cappedLeg_ok _ _ (by decide) (by decide +kernel)

/-- Two instruments, each with its own cap. -/
theorem two_instruments_within :
    List.Forall₂ (fun order result => ExecsWithin order result.solve.legExecs)
      [plainGroup .scalableAtomic (twoLegs "BTC/USDT" "ETH/USDT")]
      (executeGroups [plainGroup .scalableAtomic (twoLegs "BTC/USDT" "ETH/USDT")] ∅) := by
  refine (groups_within_caps_iff _ ∅ ?_).mpr ?_
  · intro order horder
    rw [List.mem_singleton.mp horder]
    exact twoLegs_ok _ _
  · intro order horder
    rw [List.mem_singleton.mp horder]
    have hcaps : ∀ leg ∈ twoLegs "BTC/USDT" "ETH/USDT",
        ((plainGroup .scalableAtomic (twoLegs "BTC/USDT" "ETH/USDT")).instrumentCap leg).toRat ≤
          leg.feasibleCap.cap.toRat := by
      decide +kernel
    intro _ _ leg hleg
    exact .inl (hcaps leg (List.mem_of_mem_filter hleg))

/-- Two legs of one instrument: the first trades at ten times its rate. -/
theorem last_cap_wins :
    (∀ leg ∈ twoLegs "BTC/USDT" "BTC/USDT", leg.CapsOk) ∧
      ¬ExecsWithin (plainGroup .strictAtomic (twoLegs "BTC/USDT" "BTC/USDT"))
        (solveGroup ∅ (plainGroup .strictAtomic (twoLegs "BTC/USDT" "BTC/USDT"))).solve.legExecs := by
  refine ⟨twoLegs_ok _ _, ?_⟩
  have hqty : (solveGroup ∅ (plainGroup .strictAtomic
      (twoLegs "BTC/USDT" "BTC/USDT"))).solve.legExecs.map (fun e => e.executedQty.toRat) =
        [10, 10] := by
    decide +kernel
  rintro (hnone | hall)
  · rw [hnone] at hqty
    cases hqty
  · have hfirst : (plainGroup .strictAtomic
        (twoLegs "BTC/USDT" "BTC/USDT")).legs.filter VectorLeg.hasRatio =
          twoLegs "BTC/USDT" "BTC/USDT" := by
      decide +kernel
    rw [hfirst] at hall
    obtain ⟨e, execs, ⟨-, hwithin⟩, -, hexecs⟩ := List.forall₂_cons_left_iff.mp hall
    rw [hexecs, List.map_cons] at hqty
    have hten : e.executedQty.toRat = 10 := (List.cons.inj hqty).1
    have hrate := hwithin.2 (Decimal.of 1 0) (by simp [VectorLeg.limits, cappedLeg])
    rw [hten] at hrate
    revert hrate
    decide +kernel

end Matching
end ContExchange
