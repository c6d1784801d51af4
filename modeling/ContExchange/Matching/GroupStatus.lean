import ContExchange.Matching.AtomicRatio

/-!
# Matching: the status of a group

`Solve` sets the status, the scale and the executions of a group on the branches of its
policy, and the constraints may block or degrade the group afterwards.

* `solve_outcome`: the ways in which the solver ends;
* `constraint_outcome`: what the constraints make of its result;
* `group_status_tells`: what the status says about the executions.
-/

namespace ContExchange
namespace Matching

open Common Lib Decimal List GroupedSolverBisection VectorLeg

/-- How `Solve` ends for a group. -/
inductive SolveOutcome (order : MultiLegVectorOrder) (r : GroupedSolveResult) : Prop
  | turnedAway (status : r.status = .blocked) (execs : r.legExecs = [])
      (scale : r.executionScale = Decimal.zero)
  | bestEffort (units : GroupUnits)
      (found : groupUnits (computeFeasibleCaps order) order.legs = some units)
      (policy : order.atomicityPolicy = .bestEffort)
      (execs : r.legExecs = (order.legs.filter VectorLeg.hasRatio).map
        (fun leg => leg.exec (capOf (computeFeasibleCaps order) leg)))
      (status : r.status =
        if Decimal.cmp units.feasible units.feasibleMax ≠ 0 then .degraded else .fullyExecuted)
  | strict (units : GroupUnits)
      (found : groupUnits (computeFeasibleCaps order) order.legs = some units)
      (policy : order.atomicityPolicy = .strictAtomic)
      (trades : Decimal.cmp (policyDecision order units).gExec Decimal.zero > 0)
      (execs : r.legExecs = (order.legs.filter VectorLeg.hasRatio).map
        (fun leg => leg.exec (ratioQty (computeFeasibleCaps order) units.feasible leg)))
      (status : r.status = .fullyExecuted) (scale : r.executionScale = oneDecimal)
  | scalable (units : GroupUnits)
      (found : groupUnits (computeFeasibleCaps order) order.legs = some units)
      (policy : order.atomicityPolicy = .scalableAtomic)
      (trades : Decimal.cmp (policyDecision order units).gExec Decimal.zero > 0)
      (execs : r.legExecs = (order.legs.filter VectorLeg.hasRatio).map
        (fun leg => leg.exec (ratioQty (computeFeasibleCaps order) units.feasible leg)))
      (status : r.status =
        if Decimal.cmp (executionScale units) oneDecimal ≥ 0 then .fullyExecuted else .scaled)
      (scale : r.executionScale = executionScale units)
  | noUnit (units : GroupUnits)
      (found : groupUnits (computeFeasibleCaps order) order.legs = some units)
      (unit : ¬Decimal.cmp units.feasible Decimal.zero > 0) (execs : r.legExecs = [])
      (scale : r.executionScale = Decimal.zero)
      (status : r.status = .fullyExecuted ∨
        r.status = .scaled ∧ order.atomicityPolicy = .scalableAtomic)

section Solver

variable {order : MultiLegVectorOrder} {units : GroupUnits}

theorem solveRatio_of_pos (h : Decimal.cmp (policyDecision order units).gExec .zero > 0) :
    solveRatio order (computeFeasibleCaps order) units =
      { executionScale := (policyDecision order units).scale
        legExecs := (order.legs.filter hasRatio).map
          (fun leg => leg.exec (ratioQty (computeFeasibleCaps order) units.feasible leg))
        violatedConstraints := (policyDecision order units).violated
        status := (policyDecision order units).status
        bindingLeg := units.bindingLeg } := by
  unfold solveRatio
  dsimp only
  rw [if_pos h, gExec_of_pos h]

theorem solveRatio_of_nonpos
    (h : ¬Decimal.cmp (policyDecision order units).gExec .zero > 0) :
    (solveRatio order (computeFeasibleCaps order) units).legExecs = [] ∧
      (solveRatio order (computeFeasibleCaps order) units).executionScale = .zero ∧
      (solveRatio order (computeFeasibleCaps order) units).status =
        (policyDecision order units).status := by
  unfold solveRatio
  dsimp only
  rw [if_neg h]
  exact ⟨rfl, rfl, rfl⟩

theorem solve_outcome (order : MultiLegVectorOrder) :
    SolveOutcome order (solve order (computeFeasibleCaps order)) := by
  unfold solve
  cases hfound : groupUnits (computeFeasibleCaps order) order.legs with
  | none => exact .turnedAway rfl rfl rfl
  | some units =>
      dsimp only
      by_cases hbest : order.atomicityPolicy = .bestEffort
      · rw [if_pos hbest]
        refine .bestEffort units hfound hbest rfl ?_
        by_cases hequal : Decimal.cmp units.feasible units.feasibleMax ≠ 0 <;>
          simp [solveBestEffort, hequal]
      · rw [if_neg hbest]
        by_cases htrades : Decimal.cmp (policyDecision order units).gExec .zero > 0
        · have hform := solveRatio_of_pos htrades
          cases hpolicy : order.atomicityPolicy with
          | strictAtomic =>
              have hreached := ((strict_trades_iff hpolicy).mp htrades).1
              refine .strict units hfound hpolicy htrades ?_ ?_ ?_
              · rw [hform]
              · rw [hform]
                simp [policyDecision, hpolicy, hreached]
              · rw [hform]
                simp [policyDecision, hpolicy, hreached]
          | scalableAtomic =>
              have hreached := ((scalable_trades_iff hpolicy).mp htrades).1
              refine .scalable units hfound hpolicy htrades ?_ ?_ ?_
              · rw [hform]
              · rw [hform]
                simp [policyDecision, hpolicy, hreached]
              · rw [hform]
                simp [policyDecision, hpolicy, hreached]
          | bestEffort => exact absurd hpolicy hbest
          | sequentialFallback =>
              simp only [policyDecision, hpolicy] at htrades
              exact absurd htrades cmp_zero_zero
          | externalCompensating =>
              simp only [policyDecision, hpolicy] at htrades
              exact absurd htrades cmp_zero_zero
        · obtain ⟨hexecs, hscale, hstatus⟩ := solveRatio_of_nonpos htrades
          cases hpolicy : order.atomicityPolicy with
          | strictAtomic =>
              by_cases hless : Decimal.cmp units.feasible units.desired < 0
              · exact .turnedAway (by rw [hstatus]; simp [policyDecision, hpolicy, hless])
                  hexecs hscale
              · have hunit := (strict_trades_iff hpolicy).not.mp htrades
                exact .noUnit units hfound (fun h => hunit ⟨hless, h⟩) hexecs hscale
                  (.inl (by rw [hstatus]; simp [policyDecision, hpolicy, hless]))
          | scalableAtomic =>
              by_cases hless : Decimal.cmp (executionScale units) order.minExecutionScale < 0
              · exact .turnedAway (by rw [hstatus]; simp [policyDecision, hpolicy, hless])
                  hexecs hscale
              · have hunit := (scalable_trades_iff hpolicy).not.mp htrades
                refine .noUnit units hfound (fun h => hunit ⟨hless, h⟩) hexecs hscale ?_
                rw [hstatus]
                by_cases hone : Decimal.cmp (executionScale units) oneDecimal ≥ 0
                · exact .inl (by simp [policyDecision, hpolicy, hless, hone])
                · exact .inr ⟨by simp [policyDecision, hpolicy, hless, hone], hpolicy⟩
          | bestEffort => exact absurd hpolicy hbest
          | sequentialFallback =>
              exact .turnedAway (by rw [hstatus]; simp [policyDecision, hpolicy]) hexecs hscale
          | externalCompensating =>
              exact .turnedAway (by rw [hstatus]; simp [policyDecision, hpolicy]) hexecs hscale

end Solver

/-- Some constraints are violated, and none of them is hard. -/
def SoftViolated (order : MultiLegVectorOrder) (prices : ReferencePrices) (execs : List LegExec) :
    Prop :=
  evaluateConstraints order.constraints execs prices ≠ [] ∧
    ∀ v ∈ evaluateConstraints order.constraints execs prices, v.hard = false

inductive ConstraintOutcome (order : MultiLegVectorOrder) (prices : ReferencePrices)
    (before after : GroupedSolveResult) : Prop
  | passed (kept : before.legExecs ≠ [] →
        evaluateConstraints order.constraints before.legExecs prices = [])
      (execs : after.legExecs = before.legExecs)
      (scale : after.executionScale = before.executionScale)
      (status : after.status = before.status)
  | degraded (some : before.legExecs ≠ []) (soft : SoftViolated order prices before.legExecs)
      (execs : after.legExecs = before.legExecs)
      (scale : after.executionScale = before.executionScale) (status : after.status = .degraded)
  | blocked (execs : after.legExecs = []) (scale : after.executionScale = Decimal.zero)
      (status : after.status = .blocked)

theorem constraint_outcome (order : MultiLegVectorOrder) (prices : ReferencePrices)
    (r : GroupedSolveResult) :
    ConstraintOutcome order prices r (applyConstraints order prices r) := by
  unfold applyConstraints
  split_ifs with hchecked
  · dsimp only
    split_ifs with hhard hviolated
    · exact .blocked rfl rfl rfl
    · refine .degraded hchecked.2 ⟨hviolated, fun v hv => ?_⟩ rfl rfl rfl
      rw [Bool.not_eq_true, any_eq_false] at hhard
      exact Bool.eq_false_of_not_eq_true (hhard v hv)
    · exact .passed (fun _ => not_not.mp hviolated) rfl rfl rfl
  · refine .passed (fun hsome => ?_) rfl rfl rfl
    have hnone : order.constraints = [] := by
      by_contra hconstraints
      exact hchecked ⟨hconstraints, hsome⟩
    rw [hnone]
    rfl

/-- What the status of a group says whatever its decimals are. -/
structure StatusHolds (order : MultiLegVectorOrder) (prices : ReferencePrices)
    (r : GroupedSolveResult) : Prop where
  blocked : r.status = .blocked → r.legExecs = []
  noScale : r.legExecs = [] → r.executionScale = Decimal.zero
  scaled : r.status = .scaled → order.atomicityPolicy = .scalableAtomic ∧
    0 ≤ r.executionScale.toRat ∧ r.executionScale.toRat < 1
  degraded : r.status = .degraded → r.legExecs ≠ [] ∧
    (order.atomicityPolicy = .bestEffort ∨ SoftViolated order prices r.legExecs)

/-- Every leg with a ratio executes its share of the desired unit, but for a part of it and
half a unit of the last place of the group unit. -/
def ExecutesShares (order : MultiLegVectorOrder) (units : GroupUnits) (part : ℚ)
    (execs : List LegExec) : Prop :=
  List.Forall₂ (fun leg e =>
    (units.desired.toRat * (1 - part) - 1 / 2 / 10 ^ 12) * leg.ratio ≤ e.executedQty.toRat)
    order.ratioLegs execs

/-- What the status of a group with positive units says. -/
structure StatusTells (order : MultiLegVectorOrder) (prices : ReferencePrices) (units : GroupUnits)
    (r : GroupedSolveResult) : Prop where
  idle : r.legExecs = [] → r.status = .blocked
  executes : ∀ e ∈ r.legExecs, 0 < e.executedQty.toRat
  full : order.atomicityPolicy ≠ .bestEffort → r.status = .fullyExecuted →
    r.executionScale.toRat = 1 ∧ ExecutesShares order units (1 / 10 ^ 6) r.legExecs
  shares : order.atomicityPolicy ≠ .bestEffort → ExecutesShares order units 0 r.legExecs →
    r.status = .fullyExecuted ∨ r.status = .degraded
  proportional : order.atomicityPolicy = .bestEffort → r.legExecs ≠ [] →
    (r.status = .fullyExecuted ↔
      (∀ leg ∈ order.ratioLegs,
        (leg.feasibleUnit (computeFeasibleCaps order)).toRat = units.feasible.toRat) ∧
      evaluateConstraints order.constraints r.legExecs prices = [])
  scaled : r.status = .scaled → 1 / 2 / 10 ^ 6 < units.exactScale → 0 < r.executionScale.toRat

section Status

variable {order : MultiLegVectorOrder} {prices : ReferencePrices} {units : GroupUnits}
  {leg : VectorLeg}

theorem groupUnits_scaleOk
    (hfound : groupUnits (computeFeasibleCaps order) order.legs = some units) :
    units.feasible.ScaleOk ∧ units.desired.ScaleOk := by
  obtain ⟨⟨⟨leg, -, hleg⟩, -⟩, other, -, hother⟩ := groupUnits_least hfound
  rw [hleg, hother]
  exact ⟨feasibleUnit_scaleOk _ leg, desiredUnit_scaleOk other⟩

theorem filter_ne_nil (hfound : groupUnits (computeFeasibleCaps order) order.legs = some units) :
    order.legs.filter hasRatio ≠ [] := by
  obtain ⟨⟨⟨leg, hleg, -⟩, -⟩, -⟩ := groupUnits_least hfound
  exact ne_nil_of_mem hleg

theorem executionScale_range (hdesired : units.desired.ScaleOk) :
    0 ≤ (executionScale units).toRat ∧ (executionScale units).toRat ≤ 1 := by
  rw [executionScale_toRat hdesired]
  split_ifs
  · exact ⟨le_max_left _ _, max_le zero_le_one (min_le_left _ _)⟩
  · exact ⟨le_rfl, zero_le_one⟩

theorem executionScale_scaleOk (units : GroupUnits) : (executionScale units).ScaleOk := by
  obtain ⟨hlow, hhigh⟩ := divUnits_places units.feasible units.desired (s := 6) (by norm_num)
  unfold executionScale clamp01
  split_ifs
  · exact scaleOk_zero
  · decide
  · exact ⟨hlow, hhigh.trans (by norm_num)⟩
  · exact scaleOk_zero

theorem scale_full_iff (hdesired : units.desired.ScaleOk) :
    Decimal.cmp (executionScale units) oneDecimal ≥ 0 ↔ (executionScale units).toRat = 1 := by
  rw [ge_iff_le, cmp_nonneg_iff (executionScale_scaleOk units) (by decide), oneDecimal_toRat]
  exact ⟨fun h => le_antisymm (executionScale_range hdesired).2 h, fun h => h.ge⟩

theorem SolveOutcome.holds {r : GroupedSolveResult} (h : SolveOutcome order r) :
    (r.status = .blocked → r.legExecs = []) ∧
    (r.legExecs = [] → r.executionScale = .zero) ∧
    (r.status = .scaled → order.atomicityPolicy = .scalableAtomic ∧
      0 ≤ r.executionScale.toRat ∧ r.executionScale.toRat < 1) ∧
    (r.status = .degraded → r.legExecs ≠ [] ∧ order.atomicityPolicy = .bestEffort) := by
  cases h with
  | turnedAway status execs scale => simp [status, execs, scale]
  | bestEffort units found policy execs status =>
      have hsome : r.legExecs ≠ [] := by
        rw [execs]
        exact map_eq_nil_iff.not.mpr (filter_ne_nil found)
      refine ⟨?_, fun h => absurd h hsome, ?_, fun _ => ⟨hsome, policy⟩⟩ <;>
      · intro h
        rw [status] at h
        split_ifs at h
  | strict units found policy trades execs status scale =>
      have hsome : r.legExecs ≠ [] := by
        rw [execs]
        exact map_eq_nil_iff.not.mpr (filter_ne_nil found)
      simp [status, hsome]
  | scalable units found policy trades execs status scale =>
      have hsome : r.legExecs ≠ [] := by
        rw [execs]
        exact map_eq_nil_iff.not.mpr (filter_ne_nil found)
      have hdesired := (groupUnits_scaleOk found).2
      obtain ⟨hlow, hhigh⟩ := executionScale_range hdesired
      refine ⟨fun h => ?_, fun h => absurd h hsome, fun h => ⟨policy, ?_⟩, fun h => ?_⟩
      · rw [status] at h
        split_ifs at h
      · rw [scale]
        refine ⟨hlow, lt_of_le_of_ne hhigh fun hone => ?_⟩
        rw [status, if_pos ((scale_full_iff hdesired).mpr hone)] at h
        cases h
      · rw [status] at h
        split_ifs at h
  | noUnit units found unit execs scale status =>
      refine ⟨fun _ => execs, fun _ => scale, fun h => ?_, fun h => ?_⟩
      · rw [h] at status
        obtain hfull | ⟨-, hpolicy⟩ := status
        · cases hfull
        · rw [scale, toRat_zero]
          exact ⟨hpolicy, le_rfl, zero_lt_one⟩
      · rw [h] at status
        obtain hfull | ⟨hscaled, -⟩ := status
        · cases hfull
        · cases hscaled

theorem statusHolds (order : MultiLegVectorOrder) (prices : ReferencePrices) :
    StatusHolds order prices (solveGroup prices order).solve := by
  obtain ⟨hblocked, hscale, hscaled, hdegraded⟩ := (solve_outcome order).holds
  unfold solveGroup
  dsimp only
  cases constraint_outcome order prices (solve order (computeFeasibleCaps order)) with
  | passed kept execs scale status =>
      constructor
      · rwa [status, execs]
      · rwa [execs, scale]
      · rwa [status, scale]
      · rw [status, execs]
        exact fun h => ⟨(hdegraded h).1, .inl (hdegraded h).2⟩
  | degraded some soft execs scale status =>
      constructor
      · simp [status]
      · rw [execs]
        exact fun h => absurd h some
      · simp [status]
      · rw [execs]
        exact fun _ => ⟨some, .inr soft⟩
  | blocked execs scale status =>
      constructor
      · exact fun _ => execs
      · exact fun _ => scale
      · simp [status]
      · simp [status]

theorem le_of_half_place {a b : Decimal} {s : Int} (ha : a.scale = s) (hb : b.scale = s)
    (h : a.toRat - 1 / 2 * (10 : ℚ) ^ (-s) ≤ b.toRat) : a.toRat ≤ b.toRat := by
  have hp := pow10_pos (-s)
  unfold Decimal.toRat at h ⊢
  rw [ha, hb] at h ⊢
  have hunits : (a.units : ℚ) - 1 / 2 ≤ b.units := by
    refine le_of_mul_le_mul_right ?_ hp
    linarith
  have hle : a.units ≤ b.units := by
    by_contra hless
    have : (b.units : ℚ) + 1 ≤ a.units := by exact_mod_cast not_le.mp hless
    linarith
  exact mul_le_mul_of_nonneg_right (by exact_mod_cast hle) hp.le

theorem last_place_le {a : Decimal} {s : Int} (ha : a.scale = s) (h : 0 < a.toRat) :
    (10 : ℚ) ^ (-s) ≤ a.toRat := by
  have hp := pow10_pos (-s)
  unfold Decimal.toRat at h ⊢
  rw [ha] at h ⊢
  have hpositive : (0 : ℚ) < a.units := (mul_pos_iff_of_pos_right hp).mp h
  have hone : (1 : ℚ) ≤ a.units := by exact_mod_cast hpositive
  exact le_mul_of_one_le_left hp.le hone

theorem groupUnits_scale (hfits : order.Fits)
    (hfound : groupUnits (computeFeasibleCaps order) order.legs = some units) :
    units.feasible.scale = 12 ∧ units.desired.scale = 12 := by
  obtain ⟨⟨⟨leg, hleg, hfeasible⟩, -⟩, other, hother, hdesired⟩ := groupUnits_least hfound
  obtain ⟨hmem, hratio⟩ := mem_filter.mp hleg
  obtain ⟨hmem', hratio'⟩ := mem_filter.mp hother
  rw [hfeasible, hdesired]
  exact ⟨divUnits_scale (hfits.quotients leg hmem hratio).1,
    divUnits_scale (hfits.quotients other hmem' hratio').2⟩

theorem groupUnits_greatest (caps : List FeasibleCap) (legs : List VectorLeg) {units : GroupUnits}
    (h : groupUnits caps legs = some units) :
    (∃ leg ∈ legs.filter hasRatio, units.feasibleMax = leg.feasibleUnit caps) ∧
      ∀ leg ∈ legs.filter hasRatio, (leg.feasibleUnit caps).toRat ≤ units.feasibleMax.toRat := by
  induction legs using List.reverseRecOn generalizing units with
  | nil => cases h
  | append_singleton legs last ih =>
      rw [groupUnits_concat] at h
      unfold groupUnitsStep at h
      cases hratio : last.hasRatio with
      | false =>
          rw [hratio, if_neg Bool.false_ne_true] at h
          simpa [filter_append, hratio] using ih h
      | true =>
          rw [hratio, if_pos rfl] at h
          have hform : (legs ++ [last]).filter hasRatio = legs.filter hasRatio ++ [last] := by
            simp [filter_append, hratio]
          cases hold : groupUnits caps legs with
          | none =>
              have hnil : legs.filter hasRatio = [] := by
                have hleast := (groupUnits_spec caps legs).1
                rw [hold, Option.map_none] at hleast
                exact leastOf_eq_none.mp hleast.symm
              rw [hold] at h
              cases h
              rw [hform, hnil]
              exact ⟨⟨last, by simp, rfl⟩, by simp [feasibleUnit]⟩
          | some old =>
              obtain ⟨⟨leg, hleg, hmax⟩, hall⟩ := ih hold
              have hlast := feasibleUnit_scaleOk caps last
              have hscale : old.feasibleMax.ScaleOk := hmax ▸ feasibleUnit_scaleOk caps leg
              rw [hold] at h
              cases h
              rw [hform]
              dsimp only
              change (∃ x ∈ _, (if Decimal.cmp (last.feasibleUnit caps) old.feasibleMax > 0 then
                last.feasibleUnit caps else old.feasibleMax) = _) ∧ ∀ x ∈ _, _ ≤ Decimal.toRat
                (if Decimal.cmp (last.feasibleUnit caps) old.feasibleMax > 0 then
                  last.feasibleUnit caps else old.feasibleMax)
              split_ifs with hmore
              · rw [gt_iff_lt, cmp_pos_iff hlast hscale] at hmore
                refine ⟨⟨last, by simp, rfl⟩, fun x hx => ?_⟩
                rcases mem_append.mp hx with hx | hx
                · exact (hall x hx).trans hmore.le
                · rw [mem_singleton.mp hx]
              · rw [gt_iff_lt, cmp_pos_iff hlast hscale, not_lt] at hmore
                refine ⟨⟨leg, mem_append_left _ hleg, hmax⟩, fun x hx => ?_⟩
                rcases mem_append.mp hx with hx | hx
                · exact hall x hx
                · rw [mem_singleton.mp hx]
                  exact hmore

theorem absRatio_pos (hfits : order.Fits) (hleg : leg ∈ order.legs.filter hasRatio) :
    leg.absRatio.toRat = leg.ratio ∧ 0 < leg.ratio := by
  obtain ⟨hmem, hratio⟩ := mem_filter.mp hleg
  have hexact := hfits.legs leg hmem
  exact ⟨absRatio_toRat hexact.negated,
    lt_of_le_of_ne (abs_nonneg _) (hexact.hasRatio_iff.mp hratio).symm⟩

theorem capOf_pos (hfits : order.Fits)
    (hfound : groupUnits (computeFeasibleCaps order) order.legs = some units)
    (hpositive : 0 < units.feasible.toRat) (hleg : leg ∈ order.legs.filter hasRatio) :
    0 < (capOf (computeFeasibleCaps order) leg).toRat := by
  obtain ⟨habs, hratio⟩ := absRatio_pos hfits hleg
  obtain ⟨hmem, hhas⟩ := mem_filter.mp hleg
  have hplace := last_place_le (groupUnits_scale hfits hfound).1 hpositive
  have hleast := (groupUnits_least hfound).1.2 leg hleg
  have herror := (abs_le.mp (divUnits_error (hfits.quotients leg hmem hhas).1)).2
  rw [habs] at herror
  have hquotient : 0 < (capOf (computeFeasibleCaps order) leg).toRat / leg.ratio := by
    unfold feasibleUnit at hleast
    norm_num at herror hplace ⊢
    linarith
  exact (div_pos_iff_of_pos_right hratio).mp hquotient

section Trades

variable (hfits : order.Fits)
  (hfound : groupUnits (computeFeasibleCaps order) order.legs = some units)
  (htrades : Decimal.cmp (policyDecision order units).gExec .zero > 0)

include hfits hfound htrades

theorem executed_pos (hpositive : 0 < units.feasible.toRat)
    (hleg : leg ∈ order.legs.filter hasRatio) :
    0 < (ratioQty (computeFeasibleCaps order) units.feasible leg).toRat := by
  obtain ⟨hratio, hlow, -, -⟩ := legExec_bounds hfits hfound htrades hleg
  have hplace := last_place_le (groupUnits_scale hfits hfound).1 hpositive
  refine lt_of_lt_of_le (mul_pos ?_ hratio) hlow
  norm_num at hplace ⊢
  linarith

theorem executesShares_of_reached {part : ℚ}
    (hreached : units.desired.toRat * (1 - part) ≤ units.feasible.toRat) :
    ExecutesShares order units part ((order.legs.filter hasRatio).map
      (fun leg => leg.exec (ratioQty (computeFeasibleCaps order) units.feasible leg))) := by
  unfold ExecutesShares
  rw [← ratioLegs_eq hfits, forall₂_map_right_iff, forall₂_same]
  intro leg hleg
  obtain ⟨hratio, hlow, -, -⟩ := legExec_bounds hfits hfound htrades hleg
  refine le_trans (mul_le_mul_of_nonneg_right ?_ hratio.le) hlow
  linarith

theorem reached_of_executesShares
    (hshares : ExecutesShares order units 0 ((order.legs.filter hasRatio).map
      (fun leg => leg.exec (ratioQty (computeFeasibleCaps order) units.feasible leg)))) :
    units.desired.toRat ≤ units.feasible.toRat := by
  unfold ExecutesShares at hshares
  rw [← ratioLegs_eq hfits, forall₂_map_right_iff, forall₂_same] at hshares
  obtain ⟨leg, hleg⟩ := exists_mem_of_ne_nil _ (filter_ne_nil hfound)
  obtain ⟨hratio, -, hhigh, -⟩ := legExec_bounds hfits hfound htrades hleg
  obtain ⟨hfeasible, hdesired⟩ := groupUnits_scale hfits hfound
  have hle := le_of_mul_le_mul_right ((hshares leg hleg).trans hhigh) hratio
  refine le_of_half_place hdesired hfeasible ?_
  norm_num at hle ⊢
  linarith

end Trades

theorem executionScale_of_reached (hdesired : units.desired.ScaleOk)
    (hpositive : 0 < units.desired.toRat) (hfits : Decimal.DivFits units.feasible units.desired 6)
    (hreached : units.desired.toRat ≤ units.feasible.toRat) : (executionScale units).toRat = 1 := by
  have herror := (abs_le.mp (Decimal.divUnits_error hfits)).1
  have hquotient : 1 ≤ units.feasible.toRat / units.desired.toRat :=
    (one_le_div hpositive).mpr hreached
  have hone : (Decimal.of 1000000 6).toRat = 1 := by
    norm_num [Decimal.of, Decimal.toRat]
  have hle : 1 ≤ (Decimal.divUnits units.feasible units.desired 6).toRat := by
    rw [← hone]
    refine le_of_half_place (s := 6) rfl (Decimal.divUnits_scale hfits) ?_
    rw [hone]
    linarith
  rw [executionScale_toRat hdesired, if_pos hpositive, min_eq_left hle, max_eq_right zero_le_one]

theorem reached_of_executionScale (hdesired : units.desired.ScaleOk)
    (hpositive : 0 < units.desired.toRat) (hfits : Decimal.DivFits units.feasible units.desired 6)
    (hone : (executionScale units).toRat = 1) :
    units.desired.toRat * (1 - 1 / 10 ^ 6) ≤ units.feasible.toRat := by
  have herror := (abs_le.mp (executionScale_error hdesired hpositive hfits)).2
  rw [hone] at herror
  have hexact : 1 - 1 / 10 ^ 6 ≤ units.feasible.toRat / units.desired.toRat := by
    by_contra hless
    have hmax : units.exactScale < 1 - 1 / 10 ^ 6 :=
      max_lt (by norm_num) ((min_le_right _ _).trans_lt (not_le.mp hless))
    norm_num at herror hmax
    linarith
  rwa [le_div_iff₀ hpositive, mul_comm] at hexact

/-- What the status of a group with positive units says before the constraints. -/
structure SolveTells (order : MultiLegVectorOrder) (units : GroupUnits) (r : GroupedSolveResult) :
    Prop where
  idle : r.legExecs = [] → r.status = .blocked
  executes : ∀ e ∈ r.legExecs, 0 < e.executedQty.toRat
  full : order.atomicityPolicy ≠ .bestEffort → r.status = .fullyExecuted →
    r.executionScale.toRat = 1 ∧ ExecutesShares order units (1 / 10 ^ 6) r.legExecs
  shares : order.atomicityPolicy ≠ .bestEffort → ExecutesShares order units 0 r.legExecs →
    r.status = .fullyExecuted
  proportional : order.atomicityPolicy = .bestEffort → r.legExecs ≠ [] →
    (r.status = .fullyExecuted ↔ ∀ leg ∈ order.ratioLegs,
      (leg.feasibleUnit (computeFeasibleCaps order)).toRat = units.feasible.toRat)
  scaled : r.status = .scaled → 1 / 2 / 10 ^ 6 < units.exactScale → 0 < r.executionScale.toRat

theorem not_executesShares_nil {part : ℚ} (hfits : order.Fits)
    (hfound : groupUnits (computeFeasibleCaps order) order.legs = some units) :
    ¬ExecutesShares order units part [] := by
  unfold ExecutesShares
  rw [forall₂_nil_right_iff, ← ratioLegs_eq hfits]
  exact filter_ne_nil hfound

theorem SolveOutcome.tells {r : GroupedSolveResult} (h : SolveOutcome order r) (hfits : order.Fits)
    (hfound : groupUnits (computeFeasibleCaps order) order.legs = some units)
    (hfeasible : 0 < units.feasible.toRat) (hdesired : 0 < units.desired.toRat) :
    SolveTells order units r := by
  obtain ⟨hscaleOk, hdesiredOk⟩ := groupUnits_scaleOk hfound
  have hsome := filter_ne_nil hfound
  have hnone : ∀ part, ¬ExecutesShares order units part [] :=
    fun _ => not_executesShares_nil hfits hfound
  cases h with
  | turnedAway status execs scale =>
      constructor <;> simp [status, execs, hnone]
  | bestEffort units' found policy execs status =>
      obtain rfl : units = units' := Option.some.inj (hfound.symm.trans found)
      obtain ⟨⟨top, htop, hmax⟩, hall⟩ := groupUnits_greatest _ _ hfound
      have hmaxOk : units.feasibleMax.ScaleOk := hmax ▸ feasibleUnit_scaleOk _ top
      have hleast := (groupUnits_least hfound).1.2
      constructor
      · simp [execs, hsome]
      · intro e he
        rw [execs, mem_map] at he
        obtain ⟨leg, hleg, rfl⟩ := he
        exact capOf_pos hfits hfound hfeasible hleg
      · exact fun h => absurd policy h
      · exact fun h => absurd policy h
      · intro _ _
        have hequal : Decimal.cmp units.feasible units.feasibleMax = 0 ↔
            units.feasible.toRat = units.feasibleMax.toRat := by
          rw [le_antisymm_iff, cmp_nonpos_iff hscaleOk hmaxOk, le_antisymm_iff,
            cmp_nonneg_iff hscaleOk hmaxOk]
        rw [status, ← ratioLegs_eq hfits]
        have hfull : (if Decimal.cmp units.feasible units.feasibleMax ≠ 0 then
            GroupExecStatus.degraded else .fullyExecuted) = .fullyExecuted ↔
              units.feasible.toRat = units.feasibleMax.toRat := by
          rw [← hequal]
          split_ifs with hne
          · exact iff_of_false (by simp) hne
          · exact iff_of_true rfl (not_not.mp hne)
        rw [hfull]
        constructor
        · exact fun heq leg hleg => le_antisymm (heq ▸ hall leg hleg) (hleast leg hleg)
        · exact fun heq => by rw [hmax, heq top htop]
      · intro h
        rw [status] at h
        split_ifs at h
  | strict units' found policy trades execs status scale =>
      obtain rfl : units = units' := Option.some.inj (hfound.symm.trans found)
      have hreached : units.desired.toRat ≤ units.feasible.toRat := by
        have hnot := ((strict_trades_iff policy).mp trades).1
        rwa [cmp_neg_iff hscaleOk hdesiredOk, not_lt] at hnot
      constructor
      · simp [execs, hsome]
      · intro e he
        rw [execs, mem_map] at he
        obtain ⟨leg, hleg, rfl⟩ := he
        exact executed_pos hfits hfound trades hfeasible hleg
      · intro _ _
        rw [scale, oneDecimal_toRat, execs]
        refine ⟨rfl, executesShares_of_reached hfits hfound trades ?_⟩
        linarith
      · exact fun _ _ => status
      · exact fun h => absurd (policy.symm.trans h) (by simp)
      · simp [status]
  | scalable units' found policy trades execs status scale =>
      obtain rfl : units = units' := Option.some.inj (hfound.symm.trans found)
      have hquotient := (hfits.scale policy units hfound).1 hdesired
      constructor
      · simp [execs, hsome]
      · intro e he
        rw [execs, mem_map] at he
        obtain ⟨leg, hleg, rfl⟩ := he
        exact executed_pos hfits hfound trades hfeasible hleg
      · intro _ hfull
        have hone : (executionScale units).toRat = 1 := by
          rw [← scale_full_iff hdesiredOk]
          by_contra hless
          rw [status, if_neg hless] at hfull
          cases hfull
        rw [scale, execs]
        exact ⟨hone, executesShares_of_reached hfits hfound trades
          (reached_of_executionScale hdesiredOk hdesired hquotient hone)⟩
      · intro _ hshares
        rw [execs] at hshares
        have hreached := reached_of_executesShares hfits hfound trades hshares
        rw [status, if_pos ((scale_full_iff hdesiredOk).mpr
          (executionScale_of_reached hdesiredOk hdesired hquotient hreached))]
      · exact fun h => absurd (policy.symm.trans h) (by simp)
      · intro _ hexact
        have herror := (abs_le.mp (executionScale_error hdesiredOk hdesired hquotient)).1
        rw [scale]
        linarith
  | noUnit units' found unit execs scale status =>
      obtain rfl : units = units' := Option.some.inj (hfound.symm.trans found)
      rw [gt_iff_lt, cmp_pos_iff hscaleOk scaleOk_zero, toRat_zero] at unit
      exact absurd hfeasible unit

theorem SolveTells.after {before after : GroupedSolveResult} (h : SolveTells order units before)
    (hfits : order.Fits) (hfound : groupUnits (computeFeasibleCaps order) order.legs = some units)
    (hconstraints : ConstraintOutcome order prices before after) :
    StatusTells order prices units after := by
  cases hconstraints with
  | passed kept execs scale status =>
      constructor
      · rw [execs, status]
        exact h.idle
      · rw [execs]
        exact h.executes
      · rw [execs, status, scale]
        exact h.full
      · rw [execs, status]
        exact fun hpolicy hshares => .inl (h.shares hpolicy hshares)
      · rw [execs, status]
        exact fun hbest hsome => (h.proportional hbest hsome).trans (and_iff_left (kept hsome)).symm
      · rw [status, scale]
        exact h.scaled
  | degraded some soft execs scale status =>
      constructor
      · rw [execs]
        exact fun hnone => absurd hnone some
      · rw [execs]
        exact h.executes
      · simp [status]
      · exact fun _ _ => .inr status
      · rw [execs]
        exact fun _ _ => iff_of_false (by simp [status]) fun hclean => soft.1 hclean.2
      · simp [status]
  | blocked execs scale status =>
      constructor
      · exact fun _ => status
      · simp [execs]
      · simp [status]
      · rw [execs]
        exact fun _ hshares => absurd hshares (not_executesShares_nil hfits hfound)
      · exact fun _ hsome => absurd execs hsome
      · simp [status]

end Status

/-- What the status of a group says about its executions and its scale, for every policy and
all constraints; where the units of the group are positive it tells exactly how they ended. -/
theorem group_status_tells (order : MultiLegVectorOrder) (prices : ReferencePrices) :
    StatusHolds order prices (solveGroup prices order).solve ∧
      ∀ units, groupUnits (computeFeasibleCaps order) order.legs = some units → order.Fits →
        0 < units.feasible.toRat → 0 < units.desired.toRat →
          StatusTells order prices units (solveGroup prices order).solve := by
  refine ⟨statusHolds order prices, fun units hfound hfits hfeasible hdesired => ?_⟩
  exact ((solve_outcome order).tells hfits hfound hfeasible hdesired).after hfits hfound
    (constraint_outcome order prices _)

/-- The group of two instruments is scaled to a tenth. -/
theorem scaledGroup_tells :
    ∃ units, units.exactScale = 1 / 10 ∧
      StatusTells scaledGroup ∅ units (solveGroup ∅ scaledGroup).solve := by
  have hfound : groupUnits (computeFeasibleCaps scaledGroup) scaledGroup.legs =
      some
        { feasible := Decimal.of 1000000000000 12
          feasibleMax := Decimal.of 10000000000000 12
          desired := Decimal.of 10000000000000 12
          bindingLeg := "BTC/USDT" } := by
    decide +kernel
  exact ⟨_, by decide +kernel, (group_status_tells scaledGroup ∅).2 _ hfound scaledGroup_fits
    (by decide +kernel) (by decide +kernel)⟩

structure TellsTruth (order : MultiLegVectorOrder) (r : GroupedSolveResult) : Prop where
  blocked : r.status = .blocked ↔ r.legExecs = []
  blockedScale : r.status = .blocked → r.executionScale.toRat = 0
  full : r.status = .fullyExecuted ↔
    ∃ units, groupUnits (computeFeasibleCaps order) order.legs = some units ∧
      ExecutesShares order units 0 r.legExecs
  fullScale : r.status = .fullyExecuted → r.executionScale.toRat = 1
  scaled : r.status = .scaled → 0 < r.executionScale.toRat ∧ r.executionScale.toRat < 1

/-- A group with a soft bound on what it buys of one instrument. -/
def softGroup : MultiLegVectorOrder :=
  { plainGroup .strictAtomic [cappedLeg "a" "BTC/USDT" (Decimal.of 10 0)] with
    constraints :=
      [{ constraintId := "factor"
         type := .factorNeutrality
         coefficients := AList.insert "BTC/USDT" (Decimal.of 1 0) ∅
         lower := none
         upper := some (Decimal.of 1 0)
         severity := .soft }] }

/-- The leg executes its share, and the group is degraded. -/
theorem softGroup_degraded : ¬TellsTruth softGroup (solveGroup ∅ softGroup).solve := by
  have hdegraded : (solveGroup ∅ softGroup).solve.status = .degraded := by
    decide +kernel
  have hfound : groupUnits (computeFeasibleCaps softGroup) softGroup.legs =
      some
        { feasible := Decimal.of 10000000000000 12
          feasibleMax := Decimal.of 10000000000000 12
          desired := Decimal.of 10000000000000 12
          bindingLeg := "BTC/USDT" } := by
    decide +kernel
  intro h
  have hfull := h.full.mpr ⟨_, hfound, by unfold ExecutesShares; decide +kernel⟩
  rw [hdegraded] at hfull
  cases hfull

end Matching
end ContExchange
