import ContExchange.Matching.Solve

/-!
# Matching: emission of the batch result

The second half of `ContinuousClearingSolver::Solve`: the planned legs become
fills, in planning order and each leg's internal fill before its external one;
the orders with executed quantity get an update; the clear prices become the
volume-weighted prices of the fills.
-/

namespace ContExchange
namespace Matching

open Common Lib

/-- The arguments of a call of `AddFill`. -/
structure FillArgs where
  order : FlowOrder
  symbol : String
  side : Side
  qty : ℚ
  price : ℚ
  liquiditySource : String
  curve : Option VenueLiquidityCurve := none

def contains (text pattern : String) : Bool :=
  decide (pattern.toList <:+: text.toList)

def liquiditySourceForVenue (venueId : String) : String :=
  if contains venueId "uniswap" || contains venueId "dex" then "dex_hedge" else "cex_hedge"

def curveIdForVenueCurve (curve : VenueLiquidityCurve) : String :=
  if curve.curveId ≠ "" then curve.curveId else curve.metaEventId

/-- The instrument of a symbol, split at the first slash. -/
def splitSymbol (symbol : String) : Instrument :=
  let cs := symbol.toList
  if '/' ∈ cs then
    { symbol
      base := String.ofList (cs.takeWhile (· ≠ '/'))
      quote := String.ofList ((cs.dropWhile (· ≠ '/')).drop 1) }
  else { symbol, base := "", quote := "" }

/-- The fill that `AddFill` appends. -/
def fillOf (a : FillArgs) : FlowFill :=
  { orderId := a.order.orderId
    userId := a.order.userId
    instrument := splitSymbol a.symbol
    side := a.side
    executedQty := toDecimal a.qty
    price := some (toDecimal a.price)
    executedNotional := toDecimal (a.qty * a.price)
    liquiditySource := a.liquiditySource
    provenance :=
      match a.curve with
      | none => { liquiditySource := a.liquiditySource }
      | some curve =>
          { liquiditySource := a.liquiditySource
            venueId := curve.venueId
            snapshotId := curve.snapshotId
            curveId := curveIdForVenueCurve curve } }

/-- `AddFill`: nothing for a dust quantity. -/
def addFill (a : FillArgs) : Option FlowFill :=
  if a.qty ≤ kQtyEps then none else some (fillOf a)

def internalArgs (p : PlannedLegFill) : List FillArgs :=
  if kQtyEps < p.internalLegQty then
    [{ order := p.order
       symbol := p.symbol
       side := p.side
       qty := p.internalLegQty
       price := p.clearPrice
       liquiditySource := "internal" }]
  else []

/-- The external fill of a planned leg, priced at the quantity `consumed` that
the venue's side has given out by then, this leg included. -/
def externalArgs
    (externalLiquidity : ExternalLiquidityBySymbol) (consumed : ℚ) (p : PlannedLegFill) :
    List FillArgs :=
  if p.externalLegQty ≤ kQtyEps then []
  else
    match externalLiquidity.lookup p.symbol with
    | none => []
    | some curve =>
        [{ order := p.order
           symbol := p.symbol
           side := p.side
           qty := p.externalLegQty
           price := (externalPriceAtQty curve p.side consumed).getD p.clearPrice
           liquiditySource := liquiditySourceForVenue curve.venueId
           curve := some curve }]

/-- The quantity a leg adds to `symbol_external_consumed`. -/
def externalTaken
    (externalLiquidity : ExternalLiquidityBySymbol) (p : PlannedLegFill) : ℚ :=
  if p.externalLegQty ≤ kQtyEps then 0
  else
    match externalLiquidity.lookup p.symbol with
    | none => 0
    | some _ => p.externalLegQty

/-- The emission loop; `consumed` is `symbol_external_consumed`. -/
def emitFrom
    (externalLiquidity : ExternalLiquidityBySymbol) :
    (consumed : String × Side → ℚ) → List PlannedLegFill → List FillArgs
  | _, [] => []
  | consumed, p :: ps =>
      let total := consumed (p.symbol, p.side) + externalTaken externalLiquidity p
      internalArgs p ++ externalArgs externalLiquidity total p ++
        emitFrom externalLiquidity (Function.update consumed (p.symbol, p.side) total) ps

/-- The calls of `AddFill`, in order. -/
def fillArgs (inp : SolveInput) : List FillArgs :=
  emitFrom inp.externalLiquidity (fun _ => 0) (allocate inp).fills

/-- The quantity of an order that is left after the batch. -/
def newRemaining (order : FlowOrder) (executedQty : ℚ) : ℚ :=
  max 0 (order.remainingQty.toRat - executedQty)

/-- The update of an order; none for a dust quantity. -/
def orderUpdate (order : FlowOrder) (executedQty : ℚ) : Option OrderStateUpdate :=
  if executedQty ≤ kQtyEps then none
  else
    some
      { orderId := order.orderId
        status :=
          if newRemaining order executedQty ≤ kQtyEps then .filled else .partiallyFilled
        remainingQty := some (toDecimal (newRemaining order executedQty))
        filledQtyTotal := some (toDecimal (order.filledCum.toRat + executedQty)) }

/-- The updates of the orders from index `i` on. -/
def updatesFrom (qtys : ℕ → ℚ) : ℕ → List FlowOrder → List OrderStateUpdate
  | _, [] => []
  | i, order :: orders => (orderUpdate order (qtys i)).toList ++ updatesFrom qtys (i + 1) orders

/-- The executed rates of the orders from index `i` on. -/
def ratesFrom (batchIntervalMs : ℕ) (qtys : ℕ → ℚ) :
    ℕ → List FlowOrder → List (String × Decimal)
  | _, [] => []
  | i, order :: orders =>
      (if qtys i ≤ kQtyEps then []
        else [(order.orderId, toDecimal (qtys i * 1000 / batchIntervalMs))]) ++
        ratesFrom batchIntervalMs qtys (i + 1) orders

/-- `symbol_total_qty` of a symbol. -/
def symbolTotalQty (symbol : String) (args : List FillArgs) : ℚ :=
  sumOn (fun a => decide (a.symbol = symbol)) FillArgs.qty args

/-- `symbol_total_notional` of a symbol. -/
def symbolTotalNotional (symbol : String) (args : List FillArgs) : ℚ :=
  sumOn (fun a => decide (a.symbol = symbol)) (fun a => a.qty * a.price) args

/-- The clear price of a symbol: the volume-weighted price of its fills, or the
solver's price when there are none. -/
def clearPrice (inp : SolveInput) (args : List FillArgs) (symbol : String) : Decimal :=
  if symbolTotalQty symbol args ≤ kQtyEps then toDecimal (inp.pi symbol)
  else toDecimal (symbolTotalNotional symbol args / symbolTotalQty symbol args)

/-- The symbols of all legs, each once: the keys of `prices_map`. -/
def legSymbols (orders : List FlowOrder) : List String :=
  (orders.flatMap (fun o => o.legs.map FlowOrderLeg.instrumentSymbol)).dedup

def solve (inp : SolveInput) : BatchResult :=
  let args := fillArgs inp
  let qtys := (allocate inp).actualOrderQty
  { clearPrices := (legSymbols inp.orders).map (fun sym => (sym, clearPrice inp args sym))
    executedRates := ratesFrom inp.batchIntervalMs qtys 0 inp.orders
    fills := args.filterMap addFill
    orderUpdates := updatesFrom qtys 0 inp.orders }

end Matching
end ContExchange
