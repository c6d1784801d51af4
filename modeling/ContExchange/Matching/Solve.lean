import ContExchange.Matching.Curve
import ContExchange.Lib.Loops

/-!
# Matching: the continuous clearing solver

`ContinuousClearingSolver::Solve` around its numerical backend.  The backend's
answer (the rates `x` and the prices `pi`) is a parameter: any finite vectors,
or none when an entry is not finite, which selects the fallback.

Planning turns the rates into planned leg fills.  For each symbol with single-leg
orders only, three phases allocate quantity to them: external liquidity that
improves on the internal price, the internal cross, and external liquidity for
the side with unmet demand.  A symbol with a multi-leg order gets its requests in
full.  Emission turns the planned legs into fills and order updates.

Doubles are read as exact rationals.  The order in which the source goes through
its hash maps of symbols does not matter for the results; the model fixes one.
-/

namespace ContExchange
namespace Matching

open Common Lib

/-- The limits of the orders with a leg in the symbol: `p_high` of the BUY orders
and the lower limits of the SELL orders. -/
def overlapLimits (orders : List FlowOrder) (symbol : String) (side : Side) : List ℚ :=
  orders.filterMap (fun order =>
    match order.findLeg symbol with
    | none => none
    | some leg =>
        let weight := leg.weight.toRat
        if |weight| ≤ kQtyEps then none
        else if decide (0 < weight) = decide (side = .buy) then
          some (limitPrice side order)
        else none)

def computeInternalOverlapPrice (orders : List FlowOrder) (symbol : String) : Option ℚ :=
  match overlapLimits orders symbol .buy, overlapLimits orders symbol .sell with
  | buy :: buys, sell :: sells =>
      let minBuyMax := buys.foldl min buy
      let maxSellMin := sells.foldl max sell
      if minBuyMax + kQtyEps < maxSellMin then none
      else some (1 / 2 * (maxSellMin + minBuyMax))
  | _, _ => none

/-- The initial price of a symbol: the overlap price, else the reference price,
else zero. -/
def initialPi
    (orders : List FlowOrder) (referencePrices : Table String Decimal)
    (symbol : String) : ℚ :=
  match computeInternalOverlapPrice orders symbol with
  | some price => price
  | none =>
      match referencePrices.lookup symbol with
      | some price => price.toRat
      | none => 0

/-- `qH` of an order: the rate that neither its speed nor its remaining quantity
exceeds. -/
def qH (batchIntervalMs : ℕ) (order : FlowOrder) : ℚ :=
  min order.qRate.toRat
    (order.remainingQty.toRat / max (1 / 10 ^ 9) (intervalSeconds batchIntervalMs))

/-- The rates and prices a backend leaves. -/
structure SolverAnswer where
  x : ℕ → ℚ
  pi : String → ℚ

/-- The inputs of `Solve` and the answer of `SolveImpl` on them; `none` is an
answer with an entry that is not finite. -/
structure SolveInput where
  batchIntervalMs : ℕ := 1000
  orders : List FlowOrder
  referencePrices : Table String Decimal := ∅
  externalLiquidity : ExternalLiquidityBySymbol := ∅
  answer : Option SolverAnswer := none

namespace SolveInput

variable (inp : SolveInput)

/-- The price of a symbol after the fallback. -/
def pi (symbol : String) : ℚ :=
  match inp.answer with
  | some a => a.pi symbol
  | none => initialPi inp.orders inp.referencePrices symbol

/-- The rate of an order after the fallback, clamped to `[0, qH]`. -/
def executedRate (i : ℕ) (order : FlowOrder) : ℚ :=
  let cap := qH inp.batchIntervalMs order
  match inp.answer with
  | some a => clampFromZero (a.x i) cap
  | none => clampFromZero cap cap

end SolveInput

structure PlannedLegFill where
  order : FlowOrder
  orderIndex : ℕ
  symbol : String
  side : Side
  orderQty : ℚ
  maxLegQty : ℚ
  weightAbs : ℚ
  requestedLegQty : ℚ
  clearPrice : ℚ
  actualLegQty : ℚ := 0
  internalLegQty : ℚ := 0
  externalLegQty : ℚ := 0

/-- The planned fill of a leg; `none` when its quantity is dust. -/
def planLeg
    (inp : SolveInput) (i : ℕ) (order : FlowOrder) (leg : FlowOrderLeg) :
    Option PlannedLegFill :=
  let executedQty := inp.executedRate i order * intervalSeconds inp.batchIntervalMs
  let maxOrderQty := qH inp.batchIntervalMs order * intervalSeconds inp.batchIntervalMs
  let legWeight := |leg.weight.toRat|
  let legQty := executedQty * legWeight
  if legQty ≤ kQtyEps then none
  else
    some
      { order
        orderIndex := i
        symbol := leg.instrumentSymbol
        side := if 0 < leg.weight.units then .buy else .sell
        orderQty := executedQty
        maxLegQty := maxOrderQty * legWeight
        weightAbs := legWeight
        requestedLegQty := legQty
        clearPrice := inp.pi leg.instrumentSymbol }

/-- The planned fills of the orders from index `i` on. -/
def planFrom (inp : SolveInput) : ℕ → List FlowOrder → List PlannedLegFill
  | _, [] => []
  | i, order :: orders =>
      order.legs.filterMap (planLeg inp i order) ++ planFrom inp (i + 1) orders

/-- `planned_fills` after planning. -/
def plannedFills (inp : SolveInput) : List PlannedLegFill :=
  planFrom inp 0 inp.orders

namespace PlannedLegFill

variable (p : PlannedLegFill)

/-- The part of the request that is not allocated yet. -/
def shortfall : ℚ :=
  max 0 (p.requestedLegQty - p.actualLegQty)

/-- The part of the maximal quantity that is not allocated yet. -/
def headroom : ℚ :=
  max 0 (p.maxLegQty - p.actualLegQty)

/-- Quantity from the internal cross. -/
def addInternal (qty : ℚ) : PlannedLegFill :=
  { p with
    internalLegQty := p.internalLegQty + qty
    actualLegQty := p.actualLegQty + qty }

/-- Quantity from the venue. -/
def addExternal (qty : ℚ) : PlannedLegFill :=
  { p with
    externalLegQty := p.externalLegQty + qty
    actualLegQty := p.actualLegQty + qty }

/-- The request in full, as an internal quantity. -/
def takeRequested : PlannedLegFill :=
  { p with
    actualLegQty := p.requestedLegQty
    internalLegQty := p.requestedLegQty }

end PlannedLegFill

def onSymbol (symbol : String) (p : PlannedLegFill) : Bool :=
  decide (p.symbol = symbol)

/-- The legs of one side of a symbol: `plan.buys` or `plan.sells`. -/
def onSide (symbol : String) (side : Side) (p : PlannedLegFill) : Bool :=
  decide (p.symbol = symbol ∧ p.side = side)

/-- `planned_fills` and `actual_order_qty` during the allocation. -/
structure Allocation where
  fills : List PlannedLegFill
  actualOrderQty : ℕ → ℚ

def updateActualOrderQty (qtys : ℕ → ℚ) (p : PlannedLegFill) : ℕ → ℚ :=
  if p.weightAbs ≤ kQtyEps then qtys
  else
    Function.update qtys p.orderIndex
      (max (qtys p.orderIndex) (p.actualLegQty / p.weightAbs))

def requestedRemaining (symbol : String) (side : Side) (fills : List PlannedLegFill) : ℚ :=
  sumOn (onSide symbol side) PlannedLegFill.shortfall fills

def capacityRemaining (symbol : String) (side : Side) (fills : List PlannedLegFill) : ℚ :=
  sumOn (onSide symbol side) PlannedLegFill.headroom fills

/-- The body of the loop of `allocate_internal_side`. -/
def internalStep
    (ratio : ℚ) (qtys : ℕ → ℚ) (p : PlannedLegFill) : (ℕ → ℚ) × PlannedLegFill :=
  let qty := p.shortfall * ratio
  if qty ≤ kQtyEps then (qtys, p)
  else (updateActualOrderQty qtys (p.addInternal qty), p.addInternal qty)

def allocateInternalSide
    (symbol : String) (side : Side) (targetTotal : ℚ) (alloc : Allocation) : Allocation :=
  let totalRemaining := requestedRemaining symbol side alloc.fills
  if totalRemaining ≤ kQtyEps ∨ targetTotal ≤ kQtyEps then alloc
  else
    let ratio := clampFromZero (targetTotal / totalRemaining) 1
    let r := forEach (onSide symbol side) (internalStep ratio)
      alloc.actualOrderQty alloc.fills
    { fills := r.2, actualOrderQty := r.1 }

/-- The variables of the loop of `allocate_external_side`. -/
structure ExternalPass where
  allocated : ℚ
  consumed : ℚ
  actualOrderQty : ℕ → ℚ

/-- The parameters of a call of `allocate_external_side`. -/
structure ExternalCall where
  curve : VenueLiquidityCurve
  side : Side
  targetTotal : ℚ
  requirePriceImprovement : Bool
  batchIntervalMs : ℕ

namespace ExternalCall

variable (call : ExternalCall)

def maxTradable (p : PlannedLegFill) : ℚ :=
  if call.requirePriceImprovement then
    maxPriceImprovingExternalQtyForOrder call.curve call.side p.order p.clearPrice
  else maxTradableExternalQtyForOrder call.curve call.side p.order

/-- What the leg can still take: its maximum and its speed band at the venue's
price. -/
def remainingCapacity (s : ExternalPass) (p : PlannedLegFill) : ℚ :=
  let qtyForPrice := s.consumed + min (call.targetTotal - s.allocated) p.headroom
  let priceForBand := (externalPriceAtQty call.curve call.side qtyForPrice).getD p.clearPrice
  let cap :=
    match priceBandMaxQtyForSingleLegOrder p.order call.side priceForBand
      call.batchIntervalMs with
    | none => p.maxLegQty
    | some bandMax => min p.maxLegQty (bandMax * p.weightAbs)
  max 0 (cap - p.actualLegQty)

/-- The quantity the leg gets from the venue. -/
def quantity (s : ExternalPass) (p : PlannedLegFill) : ℚ :=
  min (call.targetTotal - s.allocated)
    (min (call.remainingCapacity s p) (max 0 (call.maxTradable p - s.consumed)))

/-- The body of the loop.  The source leaves the loop once the target is met;
then nothing changes any more, so the model passes over the rest. -/
def step (s : ExternalPass) (p : PlannedLegFill) : ExternalPass × PlannedLegFill :=
  if call.targetTotal - s.allocated ≤ kQtyEps then (s, p)
  else if call.remainingCapacity s p ≤ kQtyEps then (s, p)
  else if call.quantity s p ≤ kQtyEps then (s, p)
  else
    let qty := call.quantity s p
    ({ allocated := s.allocated + qty
       consumed := s.consumed + qty
       actualOrderQty := updateActualOrderQty s.actualOrderQty (p.addExternal qty) },
      p.addExternal qty)

end ExternalCall

/-- `allocate_external_side`, called with the remaining capacity of the side. -/
def allocateExternalSide
    (inp : SolveInput) (symbol : String) (side : Side)
    (requirePriceImprovement : Bool) (alloc : Allocation) : Allocation :=
  let targetTotal := capacityRemaining symbol side alloc.fills
  match inp.externalLiquidity.lookup symbol with
  | none => alloc
  | some curve =>
      if targetTotal ≤ kQtyEps then alloc
      else
        let call : ExternalCall :=
          { curve
            side
            targetTotal
            requirePriceImprovement
            batchIntervalMs := inp.batchIntervalMs }
        let r := forEach (onSide symbol side) call.step
          { allocated := 0
            consumed := sumOn (onSide symbol side) PlannedLegFill.externalLegQty alloc.fills
            actualOrderQty := alloc.actualOrderQty }
          alloc.fills
        { fills := r.2, actualOrderQty := r.1.actualOrderQty }

/-- Phase 1: external liquidity that improves on the internal price. -/
def externalImprove (inp : SolveInput) (symbol : String) (alloc : Allocation) : Allocation :=
  allocateExternalSide inp symbol .sell true (allocateExternalSide inp symbol .buy true alloc)

/-- The quantity that both sides can cross. -/
def internalTotal (symbol : String) (fills : List PlannedLegFill) : ℚ :=
  min (requestedRemaining symbol .buy fills) (requestedRemaining symbol .sell fills)

def internalCross (symbol : String) (alloc : Allocation) : Allocation :=
  allocateInternalSide symbol .sell (internalTotal symbol alloc.fills)
    (allocateInternalSide symbol .buy (internalTotal symbol alloc.fills) alloc)

/-- Phase 3: external liquidity for the side with more unmet demand. -/
def externalResidual (inp : SolveInput) (symbol : String) (alloc : Allocation) : Allocation :=
  let buyLeft := requestedRemaining symbol .buy alloc.fills
  let sellLeft := requestedRemaining symbol .sell alloc.fills
  if sellLeft + kQtyEps < buyLeft then allocateExternalSide inp symbol .buy false alloc
  else if buyLeft + kQtyEps < sellLeft then allocateExternalSide inp symbol .sell false alloc
  else alloc

def shortcutStep (qtys : ℕ → ℚ) (p : PlannedLegFill) : (ℕ → ℚ) × PlannedLegFill :=
  (Function.update qtys p.orderIndex p.orderQty, p.takeRequested)

def shortcutSide (symbol : String) (side : Side) (alloc : Allocation) : Allocation :=
  let r := forEach (onSide symbol side) shortcutStep alloc.actualOrderQty alloc.fills
  { fills := r.2, actualOrderQty := r.1 }

/-- `all_single_leg` of the symbol's plan. -/
def allSingleLeg (symbol : String) (fills : List PlannedLegFill) : Bool :=
  fills.all (fun p => !onSymbol symbol p || decide (p.order.legs.length = 1))

def allocateSymbol (inp : SolveInput) (alloc : Allocation) (symbol : String) : Allocation :=
  if allSingleLeg symbol alloc.fills then
    externalResidual inp symbol (internalCross symbol (externalImprove inp symbol alloc))
  else shortcutSide symbol .sell (shortcutSide symbol .buy alloc)

/-- The symbols of the planned legs, each once. -/
def planSymbols (fills : List PlannedLegFill) : List String :=
  (fills.map PlannedLegFill.symbol).dedup

def allocate (inp : SolveInput) : Allocation :=
  (planSymbols (plannedFills inp)).foldl (allocateSymbol inp)
    { fills := plannedFills inp, actualOrderQty := fun _ => 0 }

end Matching
end ContExchange
