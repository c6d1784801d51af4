import ContExchange.Matching.RunBatch

/-!
# Matching: from a batch to its hedge intents

After a batch is published, its fills are netted by provider and symbol
(`PositionSnapshotCalculator`), each net position is compared with the thresholds
of its symbol (`HedgeTriggerPolicy`), and every triggered position becomes an
execution intent on the other side (`ExecutionIntentBuilder`).

The positions are in the order of the table; the source goes through a hash map.
-/

namespace ContExchange
namespace Matching

open Common Lib

structure PositionSnapshot where
  providerId : String
  symbol : String
  netQty : Decimal
  batchId : String
  clearingPrice : Decimal := Decimal.zero
deriving DecidableEq

structure SnapshotAccumulator where
  providerId : String
  symbol : String
  netQty : Decimal := Decimal.zero
deriving DecidableEq

def isValidFill (fill : FlowFill) : Bool :=
  decide (fill.userId ≠ "") && decide (fill.instrument.symbol ≠ "") &&
    decide (fill.side = .buy ∨ fill.side = .sell) && decide (0 < fill.executedQty.units)

def snapshotKey (providerId symbol : String) : String :=
  providerId ++ "\x1f" ++ symbol

def addToTotals
    (totals : Table String SnapshotAccumulator) (fill : FlowFill) :
    Table String SnapshotAccumulator :=
  if isValidFill fill then
    let key := snapshotKey fill.userId fill.instrument.symbol
    let total := (totals.lookup key).getD
      { providerId := fill.userId, symbol := fill.instrument.symbol }
    totals.insert key
      { total with
        netQty :=
          if fill.side = .buy then Decimal.add total.netQty fill.executedQty
          else Decimal.sub total.netQty fill.executedQty }
  else totals

def SnapshotAccumulator.snapshot
    (batch : BatchResult) (total : SnapshotAccumulator) : Option PositionSnapshot :=
  if Decimal.cmp total.netQty Decimal.zero = 0 then none
  else
    some
      { providerId := total.providerId
        symbol := total.symbol
        netQty := total.netQty
        batchId := batch.batchId
        clearingPrice := (batch.clearPrices.lookup total.symbol).getD Decimal.zero }

/-- `PositionSnapshotCalculator::Calculate`. -/
def calculatePositionSnapshots (batch : BatchResult) : List PositionSnapshot :=
  (batch.fills.foldl addToTotals ∅).entries.filterMap (fun r => r.2.snapshot batch)

/-- `HedgeTriggerThreshold`; a threshold that is not positive is off. -/
structure HedgeTriggerThreshold where
  thresholdQty : Decimal := Decimal.zero
  thresholdNotional : Decimal := Decimal.zero
deriving DecidableEq

structure HedgeTriggerConfig where
  defaultThresholds : HedgeTriggerThreshold := {}
  perSymbolThresholds : Table String HedgeTriggerThreshold := ∅

structure HedgeTriggerDecision where
  snapshot : PositionSnapshot
  absQty : Decimal
  absNotional : Decimal
  qtyCheckEnabled : Bool
  notionalCheckEnabled : Bool
  qtyThresholdExceeded : Bool
  notionalThresholdExceeded : Bool
deriving DecidableEq

/-- `triggered`: one threshold is exceeded. -/
def HedgeTriggerDecision.triggered (decision : HedgeTriggerDecision) : Bool :=
  decision.qtyThresholdExceeded || decision.notionalThresholdExceeded

def absDecimal (value : Decimal) : Decimal :=
  if Decimal.cmp value Decimal.zero ≥ 0 then value else Decimal.sub Decimal.zero value

/-- A decimal above zero: `IsThresholdEnabled` and `HasValidReferenceMid`. -/
def isPositive (value : Decimal) : Bool :=
  decide (Decimal.cmp value Decimal.zero > 0)

/-- `ResolveThresholdForSymbol`. -/
def HedgeTriggerConfig.resolve (config : HedgeTriggerConfig) (symbol : String) :
    HedgeTriggerThreshold :=
  (config.perSymbolThresholds.lookup symbol).getD config.defaultThresholds

/-- `HedgeTriggerPolicy::Evaluate` of one snapshot. -/
def evaluateSnapshot (config : HedgeTriggerConfig) (snapshot : PositionSnapshot) :
    HedgeTriggerDecision :=
  let thresholds := config.resolve snapshot.symbol
  let absQty := absDecimal snapshot.netQty
  let qtyCheckEnabled := isPositive thresholds.thresholdQty
  let notionalCheckEnabled :=
    isPositive thresholds.thresholdNotional && isPositive snapshot.clearingPrice
  let absNotional :=
    if notionalCheckEnabled then Decimal.mul absQty snapshot.clearingPrice else Decimal.zero
  { snapshot
    absQty
    absNotional
    qtyCheckEnabled
    notionalCheckEnabled
    qtyThresholdExceeded :=
      qtyCheckEnabled && decide (Decimal.cmp absQty thresholds.thresholdQty > 0)
    notionalThresholdExceeded :=
      notionalCheckEnabled &&
        decide (Decimal.cmp absNotional thresholds.thresholdNotional > 0) }

/-- `HedgeTriggerPolicy::Evaluate`. -/
def evaluateHedgeTriggers
    (config : HedgeTriggerConfig) (snapshots : List PositionSnapshot) :
    List HedgeTriggerDecision :=
  snapshots.map (evaluateSnapshot config)

inductive ExecutionStrategy where
  | unspecified
  | market
  | limit
  | twap
  | postOnly
deriving DecidableEq

inductive ExecutionUrgency where
  | unspecified
  | low
  | medium
  | high
deriving DecidableEq

inductive HedgeSource where
  | unspecified
  | autoBatch
  | manualOverride
  | backtest
deriving DecidableEq

/-- `fob.execution.v1.ExecutionIntent`, as matching fills it in. -/
structure ExecutionIntent where
  intentId : String
  batchId : String
  internalOrderId : String := ""
  reason : String
  hedgeFlowId : String := ""
  providerId : String := ""
  source : HedgeSource := .unspecified
  venue : String := ""
  instrument : Instrument
  allowedVenues : List String := []
  side : Side
  targetQty : Decimal
  targetNotional : Option Decimal := none
  maxSlippageBps : Int := 0
  referenceMid : Option Decimal := none
  strategy : ExecutionStrategy := .unspecified
  urgency : ExecutionUrgency := .unspecified
  tif : TimeInForce := .unspecified
  timeoutMs : Int := 0
  clientOrderId : String
deriving DecidableEq

structure HedgeExecutionIntentConfig where
  urgency : ExecutionUrgency := .medium
  strategy : ExecutionStrategy := .market
  tif : TimeInForce := .ioc
  timeoutMs : Int := 30000
  maxSlippageBps : Int := 0
  allowedVenues : List String := []

/-- `PopulateInstrument`: base and quote from a symbol with a slash inside. -/
def populateInstrument (symbol : String) : Instrument :=
  let base := symbol.toList.takeWhile (fun c => c ≠ '/')
  let quote := (symbol.toList.dropWhile (fun c => c ≠ '/')).drop 1
  if base = [] ∨ quote = [] then { symbol, base := "", quote := "" }
  else { symbol, base := String.ofList base, quote := String.ofList quote }

def makeHedgeFlowId (snapshot : PositionSnapshot) : String :=
  snapshot.batchId ++ "|hedge|" ++ snapshot.providerId ++ "|" ++ snapshot.symbol

/-- `BuildFromHedgeTriggerDecisions` of one decision. -/
def buildHedgeIntent (config : HedgeExecutionIntentConfig) (decision : HedgeTriggerDecision) :
    Option ExecutionIntent :=
  let snapshot := decision.snapshot
  if !decision.triggered then none
  else if !isPositive snapshot.clearingPrice then none
  else if Decimal.cmp snapshot.netQty Decimal.zero = 0 then none
  else
    let targetQty := absDecimal snapshot.netQty
    let hedgeFlowId := makeHedgeFlowId snapshot
    let intentId := hedgeFlowId ++ "|intent"
    some
      { intentId
        batchId := snapshot.batchId
        reason := "hedge"
        hedgeFlowId
        providerId := snapshot.providerId
        source := .autoBatch
        instrument := populateInstrument snapshot.symbol
        allowedVenues := config.allowedVenues
        side := if Decimal.cmp snapshot.netQty Decimal.zero > 0 then .sell else .buy
        targetQty
        targetNotional := some (Decimal.mul targetQty snapshot.clearingPrice)
        maxSlippageBps := config.maxSlippageBps
        referenceMid := some snapshot.clearingPrice
        strategy := config.strategy
        urgency := config.urgency
        tif := config.tif
        timeoutMs := if config.timeoutMs > 0 then config.timeoutMs else 30000
        clientOrderId := intentId }

/-- `BuildFromHedgeTriggerDecisions`. -/
def buildHedgeIntents
    (config : HedgeExecutionIntentConfig) (decisions : List HedgeTriggerDecision) :
    List ExecutionIntent :=
  decisions.filterMap (buildHedgeIntent config)

end Matching
end ContExchange
