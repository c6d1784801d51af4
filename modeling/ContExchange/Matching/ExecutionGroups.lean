import ContExchange.Matching.AtomicRatio

/-!
# Matching: execution groups

The part of `run_grouped_batch` from the active groups to the published
`ExecutionGroup`s: `SplitInternalExternal` takes the external legs out,
`SolveGroupedBatchUseCase` clears the rest, and `BuildExecutionGroup` gives every
executed leg the reference price of its symbol.

* `WithinLimits`: an executed leg has a positive price within the band of the leg on
  its side, and a notional of quantity times price up to rounding;
* `groups_within_limits_iff`: this holds of every published group exactly when the
  symbols of the legs that trade have reference prices within their bands.
-/

namespace ContExchange
namespace Matching

open Common Lib Decimal List VectorLeg GroupedSolverBisection

def MultiLegVectorOrder.internalPart (g : MultiLegVectorOrder) : MultiLegVectorOrder :=
  { g with legs := g.legs.filter (fun leg => !leg.isExternal) }

def MultiLegVectorOrder.externalLegs (g : MultiLegVectorOrder) : List VectorLeg :=
  g.legs.filter VectorLeg.isExternal

/-- The groups for the solver: those with internal legs, without the external ones. -/
def internalGroups (groups : List MultiLegVectorOrder) : List MultiLegVectorOrder :=
  (groups.map MultiLegVectorOrder.internalPart).filter (fun g => decide (g.legs ≠ []))

/-- `fob.matching.v1.GroupStatus`, as far as a batch sets it. -/
inductive GroupStatus where
  | filled
  | partial_
  | degraded
  | cancelledByAtomicity
deriving DecidableEq

def statusProto : GroupExecStatus → GroupStatus
  | .fullyExecuted => .filled
  | .scaled => .partial_
  | .degraded => .degraded
  | .blocked => .cancelledByAtomicity

/-- `fob.matching.v1.LegResult`. -/
structure GroupLegResult where
  legId : String
  instrumentSymbol : String
  side : Side
  execQty : Decimal
  execPrice : Decimal
  execNotional : Decimal
  liquiditySource : String
deriving DecidableEq

/-- `fob.matching.v1.ExecutionGroup`. -/
structure ExecutionGroupEvent where
  executionGroupId : String
  batchId : String
  parentOrderId : String
  userId : String
  atomicityPolicy : GroupAtomicityPolicy
  groupStatus : GroupStatus
  executionScale : Decimal
  legResults : List GroupLegResult
  violatedConstraints : List String
  fallbackAction : Option String
  bindingLegIds : List String
deriving DecidableEq

def sideFromRatio (ratio : Decimal) : Side :=
  if Decimal.cmp ratio Decimal.zero < 0 then .sell else .buy

def LegExec.result (prices : ReferencePrices) (e : LegExec) : GroupLegResult where
  legId := e.legId
  instrumentSymbol := e.instrumentSymbol
  side := sideFromRatio e.targetRatio
  execQty := e.executedQty
  execPrice := priceOf prices e.instrumentSymbol
  execNotional := Decimal.mul e.executedQty (priceOf prices e.instrumentSymbol)
  liquiditySource := "internal"

def buildExecutionGroup (executionGroupId batchId : String) (order : MultiLegVectorOrder)
    (result : GroupedSolveResult) (prices : ReferencePrices) : ExecutionGroupEvent where
  executionGroupId
  batchId
  parentOrderId := order.parentOrderId
  userId := order.userId
  atomicityPolicy := order.atomicityPolicy
  groupStatus := statusProto result.status
  executionScale := result.executionScale
  legResults := result.legExecs.map (LegExec.result prices)
  violatedConstraints := result.violatedConstraints
  fallbackAction := if result.fallbackAction = "none" then none else some result.fallbackAction
  bindingLegIds := if result.bindingLeg = "" then [] else [result.bindingLeg]

/-- The last group with the id, as the loop over the groups leaves it. -/
def findGroup (groups : List MultiLegVectorOrder) (parentOrderId : String) :
    Option MultiLegVectorOrder :=
  (groups.filter (fun g => decide (g.parentOrderId = parentOrderId))).getLast?

/-- The round of the loop over the results; the drawn ids are by group. -/
def publishResult (groupIds : String → String) (batchId : String)
    (groups : List MultiLegVectorOrder) (prices : ReferencePrices) (r : GroupBatchResult) :
    Option ExecutionGroupEvent :=
  match findGroup groups r.parentOrderId with
  | none => none
  | some order =>
      if r.solve.legExecs = [] then none
      else some (buildExecutionGroup (groupIds r.parentOrderId) batchId order r.solve prices)

/-- The execution groups that `run_grouped_batch` publishes for the active groups. -/
def publishedGroups (groupIds : String → String) (batchId : String)
    (groups : List MultiLegVectorOrder) (prices : ReferencePrices) :
    List ExecutionGroupEvent :=
  (executeGroups (internalGroups groups) prices).filterMap
    (publishResult groupIds batchId (internalGroups groups) prices)

/-- The active groups: the rows of two tables with primary keys. -/
structure ActiveGroups where
  groups : List MultiLegVectorOrder
  parents_nodup : (groups.map MultiLegVectorOrder.parentOrderId).Nodup
  legs_nodup : ∀ g ∈ groups, (g.legs.map VectorLeg.legId).Nodup

/-- A positive price within the band, on the side of the leg. -/
def PriceWithin (leg : VectorLeg) (price : Decimal) : Prop :=
  0 < price.toRat ∧
    match sideFromRatio leg.targetRatio with
    | .sell => leg.pLow.toRat ≤ price.toRat
    | _ => price.toRat ≤ leg.pHigh.toRat

/-- The notional is the product, rounded in the last place that it keeps; a product
beyond the range of a decimal is cut. -/
def NotionalRounded (lr : GroupLegResult) : Prop :=
  lr.execNotional = Decimal.mul lr.execQty lr.execPrice ∧
    (|lr.execQty.toRat * lr.execPrice.toRat| < int64Max →
      |lr.execNotional.toRat - lr.execQty.toRat * lr.execPrice.toRat| ≤
        (10 : ℚ) ^ (-lr.execNotional.scale))

def WithinLimits (groups : List MultiLegVectorOrder) (eg : ExecutionGroupEvent) : Prop :=
  ∀ lr ∈ eg.legResults, 0 < lr.execQty.toRat →
    NotionalRounded lr ∧
      ∃ g ∈ groups, g.parentOrderId = eg.parentOrderId ∧
        ∃ leg ∈ g.legs, leg.legId = lr.legId ∧ lr.side = sideFromRatio leg.targetRatio ∧
          PriceWithin leg lr.execPrice

/-- The first of the legs with the least unit that would complete them. -/
def LeastDesired (g : MultiLegVectorOrder) (leg : VectorLeg) : Prop :=
  FirstLeast desiredUnit (g.legs.filter hasRatio) leg

section Shares

variable (g : MultiLegVectorOrder) (binding least leg : VectorLeg)

/-- The scale that the units of two legs give. -/
def scaleOf : Decimal :=
  if 0 < least.desiredUnit.toRat then
    clamp01 (Decimal.divUnits (g.instrumentUnit binding) least.desiredUnit 6)
  else Decimal.zero

/-- The policy lets a group trade: the unit that its binding leg allows is positive and, when
the group is atomic, enough of what its legs desire. -/
def PolicyAllows : Prop :=
  match g.atomicityPolicy with
  | .bestEffort => True
  | .strictAtomic =>
      least.desiredUnit.toRat ≤ (g.instrumentUnit binding).toRat ∧
        0 < (g.instrumentUnit binding).toRat
  | .scalableAtomic =>
      0 ≤ Decimal.cmp (scaleOf g binding least) g.minExecutionScale ∧
        0 < (g.instrumentUnit binding).toRat
  | _ => False

/-- The share of a leg: its cap, or its ratio at the unit of the binding leg up to the cap. -/
def shareOf : Decimal :=
  if g.atomicityPolicy = .bestEffort then g.instrumentCap leg
  else
    Decimal.min (Decimal.mul (g.instrumentUnit binding) leg.absRatio) (g.instrumentCap leg)

/-- No hard constraint is violated at the shares of the legs. -/
def ConstraintsAllow (prices : ReferencePrices) : Prop :=
  ∀ v ∈ evaluateConstraints g.constraints
    ((g.legs.filter hasRatio).map (fun leg => leg.exec (shareOf g binding leg))) prices,
    v.hard = false

end Shares

/-- A leg gets a positive share in a group that its policy and its constraints let trade. -/
def LegTrades (prices : ReferencePrices) (g : MultiLegVectorOrder) (leg : VectorLeg) : Prop :=
  ∃ binding least, BindingLeg g binding ∧ LeastDesired g least ∧ PolicyAllows g binding least ∧
    ConstraintsAllow g binding prices ∧ leg.hasRatio = true ∧ 0 < (shareOf g binding leg).toRat

def PricesWithin (groups : List MultiLegVectorOrder) (prices : ReferencePrices) : Prop :=
  ∀ g ∈ groups, ∀ leg ∈ g.internalPart.legs, LegTrades prices g.internalPart leg →
    ∃ price, prices.lookup leg.instrumentSymbol = some price ∧ PriceWithin leg price

section Publishing

variable {groupIds : String → String} {batchId : String} {prices : ReferencePrices}

theorem priceWithin_priceOf_iff (leg : VectorLeg) :
    PriceWithin leg (priceOf prices leg.instrumentSymbol) ↔
      ∃ price, prices.lookup leg.instrumentSymbol = some price ∧ PriceWithin leg price := by
  unfold priceOf
  cases prices.lookup leg.instrumentSymbol with
  | none =>
      refine iff_of_false (fun h => ?_) ?_
      · have hpositive := h.1
        rw [Option.getD_none, toRat_zero] at hpositive
        exact lt_irrefl _ hpositive
      · rintro ⟨price, hnone, -⟩
        cases hnone
  | some price => simp

variable {g : MultiLegVectorOrder}

theorem policyAllows_iff {units : GroupUnits} {binding least : VectorLeg}
    (hunits : groupUnits (computeFeasibleCaps g) g.legs = some units)
    (hbinding : BindingLeg g binding) (hleast : LeastDesired g least) :
    PolicyAllows g binding least ↔
      g.atomicityPolicy = .bestEffort ∨ Decimal.cmp (policyDecision g units).gExec .zero > 0 := by
  have hfeasible := feasible_iff_binding hunits hbinding
  have hdesired : units.desired = least.desiredUnit := by
    have hspec := (groupUnits_spec (computeFeasibleCaps g) g.legs).2
    rw [hunits, Option.map_some] at hspec
    exact leastOf_of_firstLeast (fun leg _ => desiredUnit_scaleOk leg) hspec.symm hleast
  have hunit := instrumentUnit_scaleOk g binding
  have hpositive : Decimal.cmp units.feasible .zero > 0 ↔
      0 < (g.instrumentUnit binding).toRat := by
    rw [hfeasible, gt_iff_lt, cmp_pos_iff hunit scaleOk_zero, toRat_zero]
  unfold PolicyAllows
  cases hpolicy : g.atomicityPolicy with
  | bestEffort => simp
  | strictAtomic =>
      rw [strict_trades_iff hpolicy, hpositive, hfeasible, hdesired,
        cmp_neg_iff hunit (desiredUnit_scaleOk least), not_lt]
      simp
  | scalableAtomic =>
      have hscale : executionScale units = scaleOf g binding least := by
        unfold executionScale scaleOf
        rw [hfeasible, hdesired]
        refine if_congr ?_ rfl rfl
        rw [gt_iff_lt, cmp_pos_iff (desiredUnit_scaleOk least) scaleOk_zero, toRat_zero]
      rw [scalable_trades_iff hpolicy, hpositive, hscale, not_lt]
      simp
  | sequentialFallback =>
      simp [policyDecision, hpolicy, cmp_zero_zero]
  | externalCompensating =>
      simp [policyDecision, hpolicy, cmp_zero_zero]

theorem tradeQty_eq_shareOf {units : GroupUnits} {binding : VectorLeg}
    (hunits : groupUnits (computeFeasibleCaps g) g.legs = some units)
    (hbinding : BindingLeg g binding)
    (hpolicy : g.atomicityPolicy = .bestEffort ∨
      Decimal.cmp (policyDecision g units).gExec .zero > 0) (leg : VectorLeg) :
    g.tradeQty leg = shareOf g binding leg := by
  unfold MultiLegVectorOrder.tradeQty shareOf
  rw [hunits]
  dsimp only
  by_cases hbest : g.atomicityPolicy = .bestEffort
  · rw [if_pos hbest, if_pos hbest, capOf_computeFeasibleCaps]
  · rw [if_neg hbest, if_neg hbest, gExec_of_pos (hpolicy.resolve_left hbest),
      feasible_iff_binding hunits hbinding]
    unfold ratioQty
    rw [capOf_computeFeasibleCaps]

/-- The legs that the solver gives a positive quantity. -/
theorem legTrades_iff {leg : VectorLeg} :
    LegTrades prices g leg ↔
      g.Trades ∧ ¬g.HardViolated prices ∧ leg.hasRatio = true ∧ 0 < (g.tradeQty leg).toRat := by
  have hallowed : ∀ {binding}, (∀ leg, g.tradeQty leg = shareOf g binding leg) →
      (ConstraintsAllow g binding prices ↔ ¬g.HardViolated prices) := by
    intro binding hshares
    unfold ConstraintsAllow MultiLegVectorOrder.HardViolated MultiLegVectorOrder.trades
    simp only [hshares, not_exists, not_and, Bool.not_eq_true]
  constructor
  · rintro ⟨binding, least, hbinding, hleast, hpolicy, hconstraints, hratio, hqty⟩
    cases hunits : groupUnits (computeFeasibleCaps g) g.legs with
    | none =>
        have hnone := (groupUnits_spec (computeFeasibleCaps g) g.legs).1
        rw [hunits] at hnone
        obtain ⟨front, back, hform, -⟩ := hbinding
        rw [leastOf_eq_none.mp hnone.symm] at hform
        exact absurd hform (by simp)
    | some units =>
        have htrades := (policyAllows_iff hunits hbinding hleast).mp hpolicy
        have hshares := tradeQty_eq_shareOf hunits hbinding htrades
        exact ⟨⟨units, hunits, htrades⟩, (hallowed hshares).mp hconstraints, hratio,
          (hshares leg).symm ▸ hqty⟩
  · rintro ⟨⟨units, hunits, htrades⟩, hfree, hratio, hqty⟩
    obtain ⟨binding, hbinding⟩ := exists_bindingLeg hunits
    obtain ⟨least, hleast⟩ : ∃ least, LeastDesired g least := by
      have hspec := (groupUnits_spec (computeFeasibleCaps g) g.legs).2
      rw [hunits, Option.map_some] at hspec
      exact exists_firstLeast (fun leg _ => desiredUnit_scaleOk leg) hspec.symm
    have hshares := tradeQty_eq_shareOf hunits hbinding htrades
    exact ⟨binding, least, hbinding, hleast, (policyAllows_iff hunits hbinding hleast).mpr htrades,
      (hallowed hshares).mpr hfree, hratio, hshares leg ▸ hqty⟩

theorem result_of_legTrades {leg : VectorLeg} (hleg : leg ∈ g.legs)
    (htrades : LegTrades prices g leg) :
    (leg.exec (g.tradeQty leg)).result prices ∈
      (solveGroup prices g).solve.legExecs.map (LegExec.result prices) := by
  obtain ⟨hgroup, hfree, hratio, -⟩ := legTrades_iff.mp htrades
  rcases solveGroup_legExecs g prices with ⟨-, -, hexecs⟩ | ⟨hblocked, -⟩
  · rw [hexecs]
    apply mem_map_of_mem
    exact mem_map_of_mem (mem_filter.mpr ⟨hleg, hratio⟩)
  · exact absurd ⟨hgroup, hfree⟩ hblocked

theorem legTrades_of_result {lr : GroupLegResult}
    (hlr : lr ∈ (solveGroup prices g).solve.legExecs.map (LegExec.result prices))
    (hqty : 0 < lr.execQty.toRat) :
    ∃ leg ∈ g.legs, LegTrades prices g leg ∧ lr = (leg.exec (g.tradeQty leg)).result prices := by
  rcases solveGroup_legExecs g prices with ⟨hgroup, hfree, hexecs⟩ | ⟨-, hexecs⟩
  · rw [hexecs] at hlr
    obtain ⟨e, he, rfl⟩ := mem_map.mp hlr
    obtain ⟨leg, hleg, rfl⟩ := mem_map.mp he
    obtain ⟨hmem, hratio⟩ := mem_filter.mp hleg
    exact ⟨leg, hmem, legTrades_iff.mpr ⟨hgroup, hfree, hratio, hqty⟩, rfl⟩
  · rw [hexecs] at hlr
    cases hlr

variable {groups : List MultiLegVectorOrder}

theorem mem_internalGroups :
    g ∈ internalGroups groups ↔ (∃ g' ∈ groups, g'.internalPart = g) ∧ g.legs ≠ [] := by
  unfold internalGroups
  simp only [mem_filter, mem_map, decide_eq_true_eq]

theorem findGroup_of_mem (hg : g ∈ groups) :
    ∃ order ∈ groups, order.parentOrderId = g.parentOrderId ∧
      findGroup groups g.parentOrderId = some order := by
  have hne : groups.filter (fun h => decide (h.parentOrderId = g.parentOrderId)) ≠ [] :=
    ne_nil_of_mem (mem_filter.mpr ⟨hg, decide_eq_true rfl⟩)
  have hlast := getLast_mem hne
  obtain ⟨hmem, hid⟩ := mem_filter.mp hlast
  exact ⟨_, hmem, of_decide_eq_true hid, getLast?_eq_some_getLast hne⟩

theorem mem_publishedGroups {eg : ExecutionGroupEvent} :
    eg ∈ publishedGroups groupIds batchId groups prices ↔
      ∃ g ∈ internalGroups groups, (solveGroup prices g).solve.legExecs ≠ [] ∧
        ∃ order ∈ internalGroups groups, order.parentOrderId = g.parentOrderId ∧
          findGroup (internalGroups groups) g.parentOrderId = some order ∧
          eg = buildExecutionGroup (groupIds g.parentOrderId) batchId order
            (solveGroup prices g).solve prices := by
  unfold publishedGroups executeGroups
  rw [mem_filterMap]
  constructor
  · rintro ⟨r, hr, hpublish⟩
    obtain ⟨g, hg, rfl⟩ := mem_map.mp hr
    obtain ⟨order, horder, hid, hfind⟩ := findGroup_of_mem hg
    unfold publishResult at hpublish
    have hparent : (solveGroup prices g).parentOrderId = g.parentOrderId := rfl
    rw [hparent, hfind] at hpublish
    dsimp only at hpublish
    split at hpublish
    · cases hpublish
    · rename_i hexecs
      cases hpublish
      exact ⟨g, hg, hexecs, order, horder, hid, hfind, rfl⟩
  · rintro ⟨g, hg, hexecs, order, horder, hid, hfind, rfl⟩
    refine ⟨solveGroup prices g, mem_map_of_mem hg, ?_⟩
    unfold publishResult
    have hparent : (solveGroup prices g).parentOrderId = g.parentOrderId := rfl
    rw [hparent, hfind]
    exact if_neg hexecs

theorem notionalRounded_result (e : LegExec) : NotionalRounded (e.result prices) := by
  refine ⟨rfl, fun hrange => ?_⟩
  have herror := mul_error hrange
  have hunit := pow10_pos (-(e.result prices).execNotional.scale)
  refine herror.trans ?_
  change 5 / 9 * (10 : ℚ) ^ (-(e.result prices).execNotional.scale) ≤ _
  linarith

/-- Every published group is within the limits of its legs exactly when the reference
prices are within the bands of the legs that get a positive share. -/
theorem groups_within_limits_iff (active : ActiveGroups) (prices : ReferencePrices)
    (groupIds : String → String) (batchId : String) :
    (∀ eg ∈ publishedGroups groupIds batchId active.groups prices,
        WithinLimits active.groups eg) ↔
      PricesWithin active.groups prices := by
  constructor
  · intro h g hg leg hleg htrades
    have hinternal : g.internalPart ∈ internalGroups active.groups :=
      mem_internalGroups.mpr ⟨⟨g, hg, rfl⟩, List.ne_nil_of_mem hleg⟩
    have hresult := result_of_legTrades hleg htrades
    obtain ⟨order, horder, hid, hfind⟩ := findGroup_of_mem hinternal
    have hexecs : (solveGroup prices g.internalPart).solve.legExecs ≠ [] := by
      intro hnone
      rw [hnone] at hresult
      cases hresult
    have hpublished : buildExecutionGroup (groupIds g.internalPart.parentOrderId) batchId order
        (solveGroup prices g.internalPart).solve prices ∈
          publishedGroups groupIds batchId active.groups prices :=
      mem_publishedGroups.mpr ⟨_, hinternal, hexecs, order, horder, hid, hfind, rfl⟩
    obtain ⟨-, g', hg', hparent, leg', hleg', hlegId, -, hprice⟩ :=
      h _ hpublished _ hresult (legTrades_iff.mp htrades).2.2.2
    have hsame : g' = g :=
      List.inj_on_of_nodup_map active.parents_nodup hg' hg (hparent.trans hid)
    subst hsame
    have hmem : leg ∈ g'.legs := (List.mem_filter.mp hleg).1
    have hlegs : leg' = leg :=
      List.inj_on_of_nodup_map (active.legs_nodup g' hg') hleg' hmem hlegId
    subst hlegs
    exact (priceWithin_priceOf_iff leg').mp hprice
  · intro h eg heg lr hlr hqty
    obtain ⟨g, hg, -, order, -, hid, -, rfl⟩ := mem_publishedGroups.mp heg
    obtain ⟨⟨g', hg', rfl⟩, -⟩ := mem_internalGroups.mp hg
    obtain ⟨leg, hleg, htrades, rfl⟩ := legTrades_of_result hlr hqty
    refine ⟨notionalRounded_result _, g', hg', hid.symm, leg, (List.mem_filter.mp hleg).1, rfl,
      rfl, ?_⟩
    exact (priceWithin_priceOf_iff leg).mpr (h g' hg' leg hleg htrades)

end Publishing

def bandedLeg : VectorLeg where
  legId := "l1"
  instrumentSymbol := "BTC/USDT"
  targetRatio := Decimal.of 1 0
  pLow := Decimal.of 90 0
  pHigh := Decimal.of 100 0
  qRate := Decimal.of 1 0
  qMax := Decimal.of 1 0
  filledCum := Decimal.of 0 0

def bandedGroup : MultiLegVectorOrder where
  parentOrderId := "c1"
  userId := "demo-user"
  legs := [bandedLeg]
  atomicityPolicy := .strictAtomic
  fallbackPolicy := .cancel
  minExecutionScale := Decimal.zero
  maxRatioDeviationBps := 0
  constraints := []

def bandedGroups : ActiveGroups where
  groups := [bandedGroup]
  parents_nodup := by decide
  legs_nodup := by decide

/-- What is published for the group at a price. -/
def bandedEvent (price notional : Decimal) : ExecutionGroupEvent where
  executionGroupId := "c1"
  batchId := "b1"
  parentOrderId := "c1"
  userId := "demo-user"
  atomicityPolicy := .strictAtomic
  groupStatus := .filled
  executionScale := Decimal.of 1 0
  legResults :=
    [{ legId := "l1"
       instrumentSymbol := "BTC/USDT"
       side := .buy
       execQty := Decimal.of 1000000000000 12
       execPrice := price
       execNotional := notional
       liquiditySource := "internal" }]
  violatedConstraints := []
  fallbackAction := none
  bindingLegIds := ["BTC/USDT"]

theorem priceWithin_of_bandedEvent {price notional : Decimal}
    (h : WithinLimits bandedGroups.groups (bandedEvent price notional)) :
    PriceWithin bandedLeg price := by
  have hqty : 0 < (Decimal.of 1000000000000 12).toRat := by
    norm_num [Decimal.toRat, Decimal.of]
  obtain ⟨-, g, hg, -, leg, hleg, -, -, hprice⟩ := h _ List.mem_cons_self hqty
  obtain rfl := List.mem_singleton.mp hg
  obtain rfl := List.mem_singleton.mp hleg
  exact hprice

/-- The group executes above its limit, and at zero without a price. -/
theorem executed_outside_band :
    (∃ eg ∈ publishedGroups id "b1" bandedGroups.groups
        ((∅ : ReferencePrices).insert "BTC/USDT" (Decimal.of 150 0)),
      ¬ WithinLimits bandedGroups.groups eg) ∧
    ∃ eg ∈ publishedGroups id "b1" bandedGroups.groups ∅,
      ¬ WithinLimits bandedGroups.groups eg := by
  constructor
  · refine ⟨bandedEvent (Decimal.of 150 0) (Decimal.of 150000000000000 12), by decide, ?_⟩
    intro h
    have hprice := (priceWithin_of_bandedEvent h).2
    change (Decimal.of 150 0).toRat ≤ (Decimal.of 100 0).toRat at hprice
    norm_num [Decimal.toRat, Decimal.of] at hprice
  · refine ⟨bandedEvent Decimal.zero (Decimal.of 0 12), by decide, ?_⟩
    intro h
    have hprice := (priceWithin_of_bandedEvent h).1
    rw [Decimal.toRat_zero] at hprice
    exact lt_irrefl _ hprice

end Matching
end ContExchange
