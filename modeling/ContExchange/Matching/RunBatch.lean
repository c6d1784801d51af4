import ContExchange.Matching.Emit
import ContExchange.Matching.FlowOrderRepository

/-!
# Matching: one batch

`RunBatchUseCase::Execute`: the active orders go to the solver, the fills of its
result are capped by the remaining quantities, the batch is published, and the
order updates of the solver are applied to the active orders.  The fill deltas
go to the repository.

The solver and the publisher are parameters: a solver that throws returns
`none`, a publisher reports whether the batch is out.  The order in which the
source goes through its hash maps does not matter; the model takes the order of
the table.
-/

namespace ContExchange
namespace Matching

open Common Lib

/-- `active_orders`, by order id. -/
abbrev ActiveOrders := Table String FlowOrder

def snapshotActiveOrders (active : ActiveOrders) : List FlowOrder :=
  active.entries.map (fun r => r.2)

def capRemaining (order : FlowOrder) : Decimal :=
  let remaining := Decimal.sub order.qMax order.filledCum
  if remaining.units < 0 then Decimal.zero else remaining

/-- `remaining_by_order`: `emplace` keeps the first order of an id. -/
def remainingByOrder (snapshot : List FlowOrder) (orderId : String) : Option Decimal :=
  (snapshot.find? (fun o => o.orderId = orderId)).map capRemaining

/-- What is left of a quantity for a fill that would exceed it. -/
def allowedQty (remaining applied : Decimal) : Decimal :=
  let allowed := Decimal.sub remaining applied
  if allowed.units < 0 then Decimal.zero else allowed

/-- The fill with the capped quantity and the notional that goes with it. -/
def withQty (fill : FlowFill) (qty : Decimal) : FlowFill :=
  { fill with
    executedQty := qty
    executedNotional :=
      match fill.price with
      | none => fill.executedNotional
      | some price => Decimal.mul qty price }

/-- The body of the loop for an order of the snapshot: what is applied to the
order so far and the fill. -/
def capOne (remaining applied : Decimal) (fill : FlowFill) : Decimal × FlowFill :=
  let wouldApply := Decimal.add applied fill.executedQty
  if Decimal.cmp wouldApply remaining ≤ 0 then (wouldApply, fill)
  else (remaining, withQty fill (allowedQty remaining applied))

/-- The body of the loop; `applied` is `applied_by_order`. -/
def capFill
    (snapshot : List FlowOrder) (applied : String → Decimal) (fill : FlowFill) :
    (String → Decimal) × FlowFill :=
  match remainingByOrder snapshot fill.orderId with
  | none => (applied, fill)
  | some remaining =>
      let r := capOne remaining (applied fill.orderId) fill
      (Function.update applied fill.orderId r.1, r.2)

def capFillsAgainstRemaining (snapshot : List FlowOrder) (fills : List FlowFill) :
    List FlowFill :=
  (forEach (fun _ => true) (capFill snapshot) (fun _ => Decimal.zero) fills).2

def normalizeLiquiditySource (liquiditySource : String) : String :=
  if liquiditySource = "" then "internal" else liquiditySource

/-- The text, or another one when it is empty. -/
def orElseText (text other : String) : String :=
  if text = "" then other else text

def backfillFillProvenance
    (externalLiquidity : ExternalLiquidityBySymbol) (fill : FlowFill) : FlowFill :=
  let source := normalizeLiquiditySource fill.liquiditySource
  let provenance :=
    { fill.provenance with
      liquiditySource := orElseText fill.provenance.liquiditySource source }
  { fill with
    liquiditySource := source
    provenance :=
      if source = "internal" then provenance
      else
        match externalLiquidity.lookup fill.instrument.symbol with
        | none => provenance
        | some curve =>
            { provenance with
              venueId := orElseText provenance.venueId curve.venueId
              snapshotId := orElseText provenance.snapshotId curve.snapshotId
              curveId := orElseText provenance.curveId (curveIdForVenueCurve curve) } }

def addToOrder (deltas : Table String Decimal) (fill : FlowFill) : Table String Decimal :=
  match deltas.lookup fill.orderId with
  | none => deltas.insert fill.orderId fill.executedQty
  | some qty => deltas.insert fill.orderId (Decimal.add qty fill.executedQty)

def fillByOrder (fills : List FlowFill) : Table String Decimal :=
  fills.foldl addToOrder ∅

def fillDeltas (fills : List FlowFill) : List OrderFillDelta :=
  (fillByOrder fills).entries.map (fun r => { orderId := r.1, executedQtyDelta := r.2 })

/-- The domain status of an update; a status without a counterpart changes
nothing. -/
def updatedStatus (old : FlowOrderStatus) : OrderStatus → FlowOrderStatus
  | .partiallyFilled => .partiallyFilled
  | .filled => .filled
  | .canceled => .cancelled
  | .expired => .expired
  | .rejected => .liquidated
  | .new | .unspecified => old

def FlowOrder.update (order : FlowOrder) (u : OrderStateUpdate) : FlowOrder :=
  { order with
    filledCum := u.filledQtyTotal.getD order.filledCum
    status := updatedStatus order.status u.status }

def updateActiveOrder (active : ActiveOrders) (u : OrderStateUpdate) : ActiveOrders :=
  match active.lookup u.orderId with
  | none => active
  | some order =>
      if u.status.isTerminal then active.erase u.orderId
      else active.insert u.orderId (order.update u)

/-- The orders with a remaining quantity of at most a millionth count as filled. -/
def hasRemaining (order : FlowOrder) : Bool :=
  decide (0 < Decimal.cmp order.remainingQty (Decimal.of 1 6))

/-- The active orders after the updates and the cleanup. -/
def applyOrderUpdates (updates : List OrderStateUpdate) (active : ActiveOrders) :
    ActiveOrders :=
  (updates.foldl updateActiveOrder active).filter (fun _ order => hasRemaining order)

inductive RunBatchStatus where
  | executed
  | skippedEmpty
  | failedSolver
  | failedPublish
deriving DecidableEq

structure RunBatchResult where
  status : RunBatchStatus
  batchId : String
  activeBefore : Nat
  activeAfter : Nat
  fills : Nat := 0
  fillDeltas : List OrderFillDelta := []
  batch : BatchResult := { fills := [], orderUpdates := [] }

/-- The batch that is published: the solver's result with capped fills. -/
def publishedBatch
    (batchId : String) (externalLiquidity : ExternalLiquidityBySymbol)
    (snapshot : List FlowOrder) (result : BatchResult) : BatchResult :=
  { result with
    batchId
    fills := (capFillsAgainstRemaining snapshot result.fills).map
      (backfillFillProvenance externalLiquidity) }

def execute
    (solver : List FlowOrder → Option BatchResult) (publish : BatchResult → Bool)
    (batchId : String) (externalLiquidity : ExternalLiquidityBySymbol)
    (active : ActiveOrders) : RunBatchResult × ActiveOrders :=
  let before := active.entries.length
  if active.entries.isEmpty then
    ({ status := .skippedEmpty, batchId, activeBefore := before, activeAfter := before }, active)
  else
    match solver (snapshotActiveOrders active) with
    | none =>
        ({ status := .failedSolver, batchId, activeBefore := before, activeAfter := before },
          active)
    | some result =>
        let batch := publishedBatch batchId externalLiquidity (snapshotActiveOrders active) result
        if !publish batch then
          ({ status := .failedPublish
             batchId
             activeBefore := before
             activeAfter := before
             fills := batch.fills.length
             batch },
            active)
        else
          let active' := applyOrderUpdates batch.orderUpdates active
          ({ status := .executed
             batchId
             activeBefore := before
             activeAfter := active'.entries.length
             fills := batch.fills.length
             fillDeltas := fillDeltas batch.fills
             batch },
            active')

end Matching
end ContExchange
