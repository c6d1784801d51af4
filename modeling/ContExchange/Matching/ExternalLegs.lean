import ContExchange.Ledger.ExecutionReports
import ContExchange.Matching.ActiveGroups
import ContExchange.Matching.HedgeChain

/-!
# Matching: external legs of combos

A leg that allows venues only is executed outside: every batch sends one chunk of it as
an execution intent, unless a chunk of the leg is in flight, and the report of the venue
frees the leg, raises `filled_cum`, or fails the leg and records a compensation for what
the internal legs have filled.

* `runGroupedBatch`: the batch of the combos, with what the database and the bus answer;
* `onExternalExecutionReport`: the report of a chunk;
* `ComboLoop.step`: batches and reports of sent chunks in any order, with duplicates.

A statement that violates a CHECK, or that the database does not answer, throws, and the
loop goes on with the rows as they were.
-/

namespace ContExchange
namespace Matching

open Common Lib
open OrderFlow (ComboTables ComboOrderRow ComboLegRow insertNew)
open Ledger (ExecutionReport ExecutionReportStatus isTerminalStatus)

/-- An UPDATE of the leg with the id, if it is there and meets the condition: the tables
and whether a row was changed; `none` when the row violates a CHECK. -/
def updateLeg (legId : String) (condition : ComboLegRow → Bool)
    (set : ComboLegRow → ComboLegRow) (t : ComboTables) : Option (ComboTables × Bool) :=
  match t.legs.lookup legId with
  | none => some (t, false)
  | some row =>
      if condition row then
        if (set row).checked then some ({ t with legs := t.legs.insert legId (set row) }, true)
        else none
      else some (t, false)

/-- `LEAST(filled_cum + qty, q_max)`. -/
def leastFilled (row : ComboLegRow) (qty : Decimal) : ℚ :=
  min (row.filledCum.toRat + printedValue qty) row.qMax.toRat

/-- `SET filled_cum = LEAST(filled_cum + qty, q_max)`, rounded to the column. -/
def addFilledCum (qty : Decimal) (row : ComboLegRow) : ComboLegRow :=
  { row with filledCum := ⟨llround (leastFilled row qty * 10 ^ 18)⟩ }

/-- The UPDATE of a leg with its executed quantity. -/
def persistLegResult (parentOrderId : String) (t : ComboTables) (lr : GroupLegResult) :
    Option ComboTables :=
  if Prints lr.execQty then
    (updateLeg lr.legId (fun row => decide (row.parentOrderId = parentOrderId))
      (addFilledCum lr.execQty) t).map Prod.fst
  else none

/-- Some leg of the combo has reached its `q_max`. -/
def someLegFilled (parentOrderId : String) (t : ComboTables) : Bool :=
  t.legs.entries.any (fun e =>
    decide (e.2.parentOrderId = parentOrderId ∧ e.2.qMax.units ≤ e.2.filledCum.units))

def persistComboStatus (parentOrderId : String) (t : ComboTables) : ComboTables :=
  match t.comboOrders.lookup parentOrderId with
  | none => t
  | some row =>
      if row.status = "filled" ∨ row.status = "cancelled" then t
      else
        { t with
          comboOrders := t.comboOrders.insert parentOrderId
            { row with
              status :=
                if someLegFilled parentOrderId t then "filled" else "partially_filled" } }

def closeFilledCombo (parentOrderId : String) (t : ComboTables) : ComboTables :=
  match t.comboOrders.lookup parentOrderId with
  | none => t
  | some row =>
      if row.status = "filled" then
        { t with
          legs := t.legs.mapRows (fun _ leg =>
            if leg.parentOrderId = parentOrderId ∧ leg.status = "active" then
              { leg with status := "filled" }
            else leg) }
      else t

/-- `PersistExecutionGroup` for a group that is not yet there. -/
def persistExecutionGroup (eg : ExecutionGroupEvent) (t : ComboTables) : Option ComboTables :=
  (eg.legResults.foldlM (persistLegResult eg.parentOrderId) t).map (fun t =>
    closeFilledCombo eg.parentOrderId (persistComboStatus eg.parentOrderId t))

/-- `GraphTransition`, with the new `q_max` of a resized leg. -/
inductive GraphTransition where
  | ocoCancel (targetLegId : String)
  | bracketResize (targetLegId : String) (qMax : Decimal)
  | conditionalActivate (targetLegId : String)

def persistTransition (t : ComboTables) : GraphTransition → Option ComboTables
  | .ocoCancel target =>
      (updateLeg target (fun row => decide (row.status ≠ "cancelled"))
        (fun row => { row with status := "cancelled" }) t).map Prod.fst
  | .bracketResize target qMax =>
      (updateLeg target (fun _ => true)
        (fun row => { row with qMax := toPgNumeric qMax, status := "active" }) t).map Prod.fst
  | .conditionalActivate target =>
      (updateLeg target (fun row => decide (row.status = "waiting_for_trigger"))
        (fun row => { row with status := "active" }) t).map Prod.fst

def persistChildGraphTransitions (transitions : List GraphTransition) (t : ComboTables) :
    Option ComboTables :=
  transitions.foldlM persistTransition t

/-- A row of `combo_compensations` under its combo, leg and report. -/
structure ComboCompensation where
  reason : String
  internalFilledQty : PgNumeric
deriving DecidableEq

/-- A chunk on its way to a venue, with the quantity of its last terminal report. -/
structure SentChunk where
  intent : ExecutionIntent
  reported : Option Decimal := none

/-- The combos of `MatchingLoop`: the tables, the legs in flight, the recorded
compensations and the chunks that were sent, numbered as they were sent. -/
structure ComboLoop where
  tables : ComboTables
  inFlight : Finset String := ∅
  compensations : Table (String × String × String) ComboCompensation := ∅
  sent : Table Nat SentChunk := ∅
  sentCount : Nat := 0

def buildExternalIntent (parentOrderId batchId intentId : String) (leg : VectorLeg) :
    ExecutionIntent where
  intentId
  batchId
  internalOrderId := leg.legId
  reason := "combo_external_leg:" ++ parentOrderId
  hedgeFlowId := leg.legId
  venue := (leg.venuePreferences.find? (fun v => decide (v ≠ "" ∧ v ≠ "internal"))).getD ""
  instrument := { symbol := leg.instrumentSymbol, base := "", quote := "" }
  allowedVenues := leg.venuePreferences
  side :=
    if Decimal.cmp leg.targetRatio (Decimal.zeroAt leg.targetRatio.scale) < 0 then .sell else .buy
  targetQty := Decimal.min leg.remainingQty leg.qRate
  clientOrderId := leg.legId ++ "#" ++ intentId

/-- What a batch depends on beside the state: whether the groups can be read, the
reference prices, the drawn ids by leg and by group, the legs whose chunk the bus takes,
the groups whose rows are written, and the transitions of their child graphs. -/
structure GroupedBatch where
  batchId : String
  groupsRead : Bool := true
  prices : ReferencePrices := ∅
  intentIds : String → String := id
  groupIds : String → String := id
  produced : String → Bool := fun _ => true
  persisted : String → Bool := fun _ => true
  transitions : String → List GraphTransition := fun _ => []

/-- The round of the loop over the external legs; a leg whose chunk is not taken is
released again. -/
def sendChunk (batch : GroupedBatch) (parentOrderId : String) (s : ComboLoop)
    (leg : VectorLeg) : ComboLoop :=
  if leg.legId ∈ s.inFlight then s
  else if batch.produced leg.legId then
    { s with
      inFlight := insert leg.legId s.inFlight
      sent := s.sent.insert s.sentCount
        { intent :=
            buildExternalIntent parentOrderId batch.batchId (batch.intentIds leg.legId) leg }
      sentCount := s.sentCount + 1 }
  else s

def sendChunks (batch : GroupedBatch) (groups : List MultiLegVectorOrder) (s : ComboLoop) :
    ComboLoop :=
  groups.foldl (fun s g => g.externalLegs.foldl (sendChunk batch g.parentOrderId) s) s

/-- The rows after a published group and the transitions of its child graph. -/
def persistGroup (batch : GroupedBatch) (t : ComboTables) (eg : ExecutionGroupEvent) :
    ComboTables :=
  let filled :=
    if batch.persisted eg.parentOrderId then (persistExecutionGroup eg t).getD t else t
  (persistChildGraphTransitions (batch.transitions eg.parentOrderId) filled).getD filled

def runGroupedBatch (batch : GroupedBatch) (s : ComboLoop) : ComboLoop :=
  match (if batch.groupsRead then loadActiveGroups s.tables else none) with
  | none => s
  | some groups =>
      let routed := sendChunks batch groups s
      { routed with
        tables :=
          (publishedGroups batch.groupIds batch.batchId groups batch.prices).foldl
            (persistGroup batch) routed.tables }

/-- The leg of a client order id: what stands before the first `#`. -/
def legIdOf (clientOrderId : String) : String :=
  String.ofList (clientOrderId.toList.takeWhile (fun c => decide (c ≠ '#')))

/-- The reason of a terminal status other than FILLED. -/
def failureReason : ExecutionReportStatus → String
  | .rejected => "rejected"
  | .cancelled => "cancelled"
  | _ => "expired"

/-- Whether the database answers the statements of a report: the combo of the leg, the
update of the leg, the fills of the internal legs, the compensation. -/
structure ReportDatabase where
  finds : Bool := true
  marks : Bool := true
  sums : Bool := true
  records : Bool := true

/-- `MarkExternalLegFilled` changes legs in these statuses. -/
def isOpenLeg (row : ComboLegRow) : Bool :=
  decide (row.status = "active" ∨ row.status = "partially_filled")

def markExternalLegFilled (legId : String) (qty : Decimal) (t : ComboTables) :
    Option (ComboTables × Bool) :=
  if Prints qty then
    updateLeg legId isOpenLeg
      (fun row =>
        { addFilledCum qty row with
          status :=
            if row.qMax.toRat ≤ leastFilled row qty then "filled" else "partially_filled" })
      t
  else none

/-- `MarkExternalLegFailed` changes legs in other statuses than these. -/
def failedLegStatuses : List String :=
  ["cancelled", "filled", "failed_external"]

def markExternalLegFailed (legId : String) (t : ComboTables) : Option (ComboTables × Bool) :=
  updateLeg legId (fun row => decide (row.status ∉ failedLegStatuses))
    (fun row => { row with status := "failed_external" }) t

/-- The rows that `SumInternalFilledQty` adds up. -/
def internalFilled (parentOrderId failedLegId legId : String) (row : ComboLegRow) : Bool :=
  decide (row.parentOrderId = parentOrderId ∧ legId ≠ failedLegId ∧
    some "internal".toList ∈ row.venuePreferences ∧ 0 < row.filledCum.units)

/-- The sum over the internal legs, in units of the column. -/
def internalFilledUnits (parentOrderId failedLegId : String) (t : ComboTables) : Int :=
  (t.legs.filter (internalFilled parentOrderId failedLegId)).sum (fun _ row => row.filledCum.units)

def sumInternalFilledQty (parentOrderId failedLegId : String) (t : ComboTables) :
    Option Decimal :=
  parsePgNumeric ⟨internalFilledUnits parentOrderId failedLegId t⟩

/-- `RecordPending`: ON CONFLICT DO NOTHING. -/
def recordPending (parentOrderId legId : String) (report : ExecutionReport)
    (internalFilledQty : Decimal)
    (t : Table (String × String × String) ComboCompensation) :
    Table (String × String × String) ComboCompensation :=
  insertNew t (parentOrderId, legId, report.reportId)
    { reason := failureReason report.status, internalFilledQty := toPgNumeric internalFilledQty }

def failLeg (db : ReportDatabase) (parentOrderId legId : String) (report : ExecutionReport)
    (s : ComboLoop) : ComboLoop :=
  match (if db.marks then markExternalLegFailed legId s.tables else none) with
  | none => s
  | some (tables, false) => { s with tables }
  | some (tables, true) =>
      match (if db.sums then sumInternalFilledQty parentOrderId legId tables else none) with
      | none => { s with tables }
      | some qty =>
          if Decimal.cmp qty Decimal.zero ≤ 0 ∨ !db.records then { s with tables }
          else
            { s with
              tables
              compensations := recordPending parentOrderId legId report qty s.compensations }

def onExternalExecutionReport (db : ReportDatabase) (report : ExecutionReport) (s : ComboLoop) :
    ComboLoop :=
  let legId := legIdOf report.clientOrderId
  if legId = "" ∨ !isTerminalStatus report.status ∨ !db.finds then s
  else
    match s.tables.legs.lookup legId with
    | none => s
    | some row =>
        let freed := { s with inFlight := s.inFlight.erase legId }
        if report.status = .filled then
          { freed with
            tables :=
              ((if db.marks then markExternalLegFilled legId report.filledQty s.tables
                else none).map Prod.fst).getD s.tables }
        else failLeg db row.parentOrderId legId report freed

/-- What happens to the combos: a batch, or a report of the chunk with the number. -/
inductive ComboEvent where
  | batch (batch : GroupedBatch)
  | report (chunk : Nat) (report : ExecutionReport) (db : ReportDatabase)

/-- A chunk keeps the quantity of its terminal report. -/
def ComboLoop.noteReport (s : ComboLoop) (n : Nat) (chunk : SentChunk)
    (report : ExecutionReport) : ComboLoop :=
  if isTerminalStatus report.status then
    { s with sent := s.sent.insert n { chunk with reported := some report.filledQty } }
  else s

def SentChunk.echo (chunk : SentChunk) (report : ExecutionReport) : ExecutionReport :=
  { report with clientOrderId := chunk.intent.clientOrderId }

def ComboLoop.step (s : ComboLoop) : ComboEvent → ComboLoop
  | .batch batch => runGroupedBatch batch s
  | .report n report db =>
      match s.sent.lookup n with
      | none => s
      | some chunk =>
          (onExternalExecutionReport db (chunk.echo report) s).noteReport n chunk report

end Matching
end ContExchange
