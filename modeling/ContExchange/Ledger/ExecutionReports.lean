import ContExchange.Common.Messages
import ContExchange.Lib.Runs

/-!
# Ledger: execution reports

`RememberExecutionIntent` and `ApplyExecutionReport` reconcile the reports of the
venues with the intents.  A report carries cumulative amounts; the ledger keeps
the last accepted amounts under a composite key and books the difference to the
balances on the venue and to the hedge records.  Reports that arrive before
their intent wait in a queue.
-/

namespace ContExchange
namespace Ledger

open Common Lib

inductive ExecutionReportStatus where
  | unspecified
  | new
  | partiallyFilled
  | filled
  | cancelled
  | rejected
  | expired
  | overfillGuard
  | underfilled
deriving DecidableEq

/-- The number of a status, as a `static_cast` to `int` gives it. -/
def ExecutionReportStatus.toInt : ExecutionReportStatus → Int
  | .unspecified => 0
  | .new => 1
  | .partiallyFilled => 2
  | .filled => 3
  | .cancelled => 4
  | .rejected => 5
  | .expired => 6
  | .overfillGuard => 7
  | .underfilled => 8

structure Timestamp where
  seconds : Int
  nanos : Int := 0
deriving DecidableEq

/-- `timestamp_to_time_point`, in nanoseconds. -/
def timestampToTimePoint (ts : Timestamp) : Int :=
  ts.seconds * 1000000000 + ts.nanos

structure ExecutionIntent where
  intentId : String
  venue : String := ""
  instrument : Instrument
  venueSymbol : String := ""
  side : Side
  targetQty : Decimal
  limitPrice : Option Decimal := none
  clientOrderId : String := ""
deriving DecidableEq

structure ReportError where
  code : String := ""
  message : String := ""
  details : String := ""
deriving DecidableEq

structure ExecutionReport where
  reportId : String := ""
  intentId : String
  venue : String := ""
  instrument : Instrument
  venueSymbol : String := ""
  venueOrderId : String := ""
  clientOrderId : String := ""
  status : ExecutionReportStatus
  filledQty : Decimal
  remainingQty : Decimal := Decimal.zero
  averagePrice : Decimal
  feeTotal : Option Fee := none
  error : Option ReportError := none
  tsEvent : Option Timestamp := none
deriving DecidableEq

def hasNonEmptyError (report : ExecutionReport) : Bool :=
  match report.error with
  | none => false
  | some error => error.code ≠ "" || error.message ≠ "" || error.details ≠ ""

def isPositive (value : Decimal) : Bool :=
  0 < Decimal.cmp value Decimal.zero

def normalizeExecutionStatus (report : ExecutionReport) : ExecutionReportStatus :=
  if report.status ≠ .new ∧ report.status ≠ .unspecified then report.status
  else if hasNonEmptyError report then .rejected
  else if isPositive report.filledQty ∧ isPositive report.remainingQty then .partiallyFilled
  else if isPositive report.filledQty ∧ ¬ isPositive report.remainingQty then .filled
  else report.status

def isTerminalStatus : ExecutionReportStatus → Bool
  | .filled | .cancelled | .rejected | .expired => true
  | _ => false

def isAllowedStatusTransition (prev next : ExecutionReportStatus) : Bool :=
  if prev = .unspecified then true
  else if prev = next then true
  else if isTerminalStatus prev then false
  else if prev = .new then
    next = .partiallyFilled || next = .filled || next = .cancelled || next = .rejected ||
      next = .expired
  else if prev = .partiallyFilled then
    next = .filled || next = .cancelled || next = .partiallyFilled
  else false

/-- `normalize_symbol`: the symbol without slashes and blanks. -/
def normalizeSymbol (value : String) : String :=
  String.ofList (value.toList.filter (fun c => c ≠ '/' ∧ c ≠ ' ' ∧ c ≠ '\t' ∧ c ≠ '\n'))

/-- `extract_base_quote`: the fields, or the symbol split at its first slash. -/
def extractBaseQuote (instrument : Instrument) : String × String :=
  if instrument.base ≠ "" ∨ instrument.quote ≠ "" then (instrument.base, instrument.quote)
  else
    let symbol := instrument.symbol.toList
    if '/' ∈ symbol then
      (String.ofList (symbol.takeWhile (· ≠ '/')),
        String.ofList (symbol.dropWhile (· ≠ '/')).tail)
    else ("", "")

/-- Two optional fields agree: one of them is empty, or they are the same. -/
def agreeIfSet (lhs rhs : String) : Prop :=
  lhs ≠ "" → rhs ≠ "" → lhs = rhs
deriving Decidable

def instrumentMatches (intent : ExecutionIntent) (report : ExecutionReport) : Prop :=
  agreeIfSet intent.instrument.symbol report.instrument.symbol ∧
    agreeIfSet intent.instrument.base report.instrument.base ∧
    agreeIfSet intent.instrument.quote report.instrument.quote
deriving Decidable

def executionStateKey (report : ExecutionReport) : String :=
  let orderKey := if report.venueOrderId ≠ "" then report.venueOrderId else report.clientOrderId
  report.intentId ++ "|" ++ orderKey

def decimalKey (d : Decimal) : String :=
  toString d.units ++ ":" ++ toString d.scale

def executionReportKey (report : ExecutionReport) : String :=
  if report.reportId ≠ "" then report.reportId
  else
    report.intentId ++ "|" ++ report.venueOrderId ++ "|" ++
      toString (normalizeExecutionStatus report).toInt ++ "|" ++
      decimalKey report.filledQty ++ "|" ++ decimalKey report.remainingQty ++ "|" ++
      decimalKey report.averagePrice

/-- The time point of `report_timestamp`: the event time, or the clock. -/
def reportTimestamp (now : Int) (report : ExecutionReport) : Int :=
  (report.tsEvent.map timestampToTimePoint).getD now

structure ExecutionLedgerState where
  status : ExecutionReportStatus := .unspecified
  filledQty : Decimal := Decimal.zero
  remainingQty : Decimal := Decimal.zero
  averagePrice : Decimal := Decimal.zero
  feeTotal : Decimal := Decimal.zero
  feeCurrency : String := ""
  terminal : Bool := false
deriving DecidableEq

structure VenueBalanceEntry where
  total : Decimal := Decimal.zero
  reserved : Decimal := Decimal.zero
  available : Decimal := Decimal.zero
deriving DecidableEq

/-- `LedgerUseCases::HedgePnlRecord`; the time point is in nanoseconds. -/
structure HedgePnlRecord where
  hedgeId : String
  venue : String
  instrumentSymbol : String
  side : Side
  executedQty : Decimal
  executedPrice : Decimal
  internalPrice : Decimal
  hedgePnl : Decimal
  timestamp : Int
deriving DecidableEq

structure ExecutionReconciliationStats where
  queuedReports : Nat := 0
  replayedReports : Nat := 0
  appliedReports : Nat := 0
  duplicateReports : Nat := 0
  missingPlanReports : Nat := 0
  planMismatchReports : Nat := 0
  statusRegressionReports : Nat := 0
  qtyRegressionReports : Nat := 0
deriving DecidableEq

/-- `venue_balances_`, by venue and currency. -/
abbrev VenueBalances := Table (String × String) VenueBalanceEntry

/-- The part of `LedgerUseCases` that execution reports read and write. -/
structure ExecutionBooks where
  executionIntents : Table String ExecutionIntent := ∅
  pendingExecutionReports : Table String (List ExecutionReport) := ∅
  executionStates : Table String ExecutionLedgerState := ∅
  seenExecutionReportKeys : List String := []
  venueBalances : VenueBalances := ∅
  hedgePnlRecords : Table String (List HedgePnlRecord) := ∅
  hedgePnlSummary : Table String Decimal := ∅
  execReconStats : ExecutionReconciliationStats := {}

namespace ExecutionBooks

/-- The execution state of a key; a missing entry reads as new. -/
def executionState (s : ExecutionBooks) (key : String) : ExecutionLedgerState :=
  (s.executionStates.lookup key).getD {}

def stateOf (s : ExecutionBooks) (report : ExecutionReport) : ExecutionLedgerState :=
  s.executionState (executionStateKey report)

def records (s : ExecutionBooks) (venue : String) : List HedgePnlRecord :=
  (s.hedgePnlRecords.lookup venue).getD []

def pending (s : ExecutionBooks) (intentId : String) : List ExecutionReport :=
  (s.pendingExecutionReports.lookup intentId).getD []

/-- An assignment to an entry of `execution_states_`. -/
def setState (s : ExecutionBooks) (key : String) (state : ExecutionLedgerState) :
    ExecutionBooks :=
  { s with executionStates := s.executionStates.insert key state }

/-- An update of the counters. -/
def count (s : ExecutionBooks)
    (f : ExecutionReconciliationStats → ExecutionReconciliationStats) : ExecutionBooks :=
  { s with execReconStats := f s.execReconStats }

end ExecutionBooks

/-- What a report does to the total of an entry. -/
inductive VenueChange where
  | add (amount : Decimal)
  | sub (amount : Decimal)
  | keep
deriving DecidableEq

/-- An entry with a changed total; `available` is recomputed. -/
def VenueBalanceEntry.change (entry : VenueBalanceEntry) (change : VenueChange) :
    VenueBalanceEntry :=
  let total :=
    match change with
    | .add amount => Decimal.add entry.total amount
    | .sub amount => Decimal.sub entry.total amount
    | .keep => entry.total
  { entry with total, available := Decimal.sub total entry.reserved }

/-- A change of the entry of a currency on a venue. -/
structure VenueMove where
  venue : String
  currency : String
  change : VenueChange
deriving DecidableEq

/-- The entry of a currency on a venue; a missing entry reads as zero. -/
def venueBalance (balances : VenueBalances) (venue currency : String) : VenueBalanceEntry :=
  (balances.lookup (venue, currency)).getD {}

/-- `ensure_venue_balance_locked`: an entry whose total is the literal
`Decimal{0, 0}` counts as just created and is reset. -/
def ensureVenueBalance (balances : VenueBalances) (venue currency : String) :
    VenueBalanceEntry :=
  let entry := venueBalance balances venue currency
  if entry.total.scale = 0 ∧ entry.total.units = 0 then {} else entry

/-- An update through the reference `ensure_venue_balance_locked` returns. -/
def applyMove (balances : VenueBalances) (m : VenueMove) : VenueBalances :=
  balances.insert (m.venue, m.currency)
    ((ensureVenueBalance balances m.venue m.currency).change m.change)

/-- The base currency: a buy adds, a sell subtracts. -/
def baseChange (side : Side) (deltaQty : Decimal) : VenueChange :=
  match side with
  | .buy => .add deltaQty
  | .sell => .sub deltaQty
  | .unspecified => .keep

/-- The quote currency: a buy pays, a sell receives. -/
def quoteChange (side : Side) (quoteDelta : Decimal) : VenueChange :=
  match side with
  | .buy => .sub quoteDelta
  | .sell => .add quoteDelta
  | .unspecified => .keep

def market (intent : ExecutionIntent) (report : ExecutionReport) : String × String :=
  let ofIntent := extractBaseQuote intent.instrument
  if ofIntent.1 = "" ∨ ofIntent.2 = "" then
    let ofReport := extractBaseQuote report.instrument
    (if ofIntent.1 = "" then ofReport.1 else ofIntent.1,
      if ofIntent.2 = "" then ofReport.2 else ofIntent.2)
  else ofIntent

/-- `internal_price`: the limit price of the intent, if it is set. -/
def internalPrice (intent : ExecutionIntent) (report : ExecutionReport) : Decimal :=
  match intent.limitPrice with
  | none => report.averagePrice
  | some limitPrice => if limitPrice.units ≠ 0 then limitPrice else report.averagePrice

/-- The cumulative fee a report states; zero without one. -/
def ExecutionReport.feeAmount (report : ExecutionReport) : Decimal :=
  match report.feeTotal with
  | none => Decimal.zero
  | some fee => fee.amount.getD Decimal.zero

def ExecutionReport.feeCurrency (quote : String) (report : ExecutionReport) : String :=
  match report.feeTotal with
  | none => ""
  | some fee => if fee.currency = "" then quote else fee.currency

def calculateHedgePnl (side : Side) (executedPrice internalPrice qty : Decimal) : Decimal :=
  let pnl := Decimal.mul (Decimal.sub executedPrice internalPrice) qty
  if side = .buy then pnl.negUnits else pnl

namespace ExecutionLedgerState

variable (state : ExecutionLedgerState) (report : ExecutionReport)

def deltaQty : Decimal :=
  Decimal.sub report.filledQty state.filledQty

def quoteDelta : Decimal :=
  Decimal.mul (state.deltaQty report) report.averagePrice

/-- `fee_delta`: only a fee that has grown. -/
def feeDelta : Decimal :=
  if Decimal.cmp report.feeAmount state.feeTotal > 0 then
    Decimal.sub report.feeAmount state.feeTotal
  else Decimal.zero

/-- The state that is saved after an accepted report. -/
def saved : ExecutionLedgerState where
  status := normalizeExecutionStatus report
  filledQty := report.filledQty
  remainingQty := report.remainingQty
  averagePrice := report.averagePrice
  feeTotal :=
    match report.feeTotal with
    | none => state.feeTotal
    | some fee => fee.amount.getD Decimal.zero
  feeCurrency :=
    match report.feeTotal with
    | none => state.feeCurrency
    | some fee => fee.currency
  terminal := isTerminalStatus (normalizeExecutionStatus report)

end ExecutionLedgerState

/-- The changes of the balances on the venue, in order: base, quote, fee. -/
def executionMoves
    (intent : ExecutionIntent) (report : ExecutionReport) (state : ExecutionLedgerState) :
    List VenueMove :=
  let base := (market intent report).1
  let quote := (market intent report).2
  let feeCurrency := report.feeCurrency quote
  (if base ≠ "" then
      [⟨report.venue, base, baseChange intent.side (state.deltaQty report)⟩] else []) ++
    (if quote ≠ "" then
      [⟨report.venue, quote, quoteChange intent.side (state.quoteDelta report)⟩] else []) ++
    (if feeCurrency ≠ "" ∧ Decimal.cmp (state.feeDelta report) Decimal.zero > 0 then
      [⟨report.venue, feeCurrency, .sub (state.feeDelta report)⟩] else [])

/-- The record of the new part of an execution. -/
def hedgeRecord
    (now : Int) (intent : ExecutionIntent) (report : ExecutionReport)
    (state : ExecutionLedgerState) : HedgePnlRecord where
  hedgeId := executionReportKey report
  venue := report.venue
  instrumentSymbol := intent.instrument.symbol
  side := intent.side
  executedQty := state.deltaQty report
  executedPrice := report.averagePrice
  internalPrice := internalPrice intent report
  hedgePnl := calculateHedgePnl intent.side report.averagePrice (internalPrice intent report)
    (state.deltaQty report)
  timestamp := reportTimestamp now report

/-- The key of `hedge_pnl_summary_` and of the aggregation. -/
def summaryKey (venue instrumentSymbol : String) : String :=
  venue ++ "|" ++ instrumentSymbol

def storeRecord (s : ExecutionBooks) (record : HedgePnlRecord) : ExecutionBooks :=
  let key := summaryKey record.venue record.instrumentSymbol
  { s with
    hedgePnlRecords := s.hedgePnlRecords.insert record.venue (s.records record.venue ++ [record])
    hedgePnlSummary := s.hedgePnlSummary.insert key
      (match s.hedgePnlSummary.lookup key with
        | none => record.hedgePnl
        | some total => Decimal.add total record.hedgePnl) }

/-- The section of `apply_execution_report_locked` for a positive delta. -/
def bookExecution
    (now : Int) (s : ExecutionBooks) (intent : ExecutionIntent) (report : ExecutionReport)
    (state : ExecutionLedgerState) : ExecutionBooks :=
  (storeRecord
    { s with venueBalances := run applyMove s.venueBalances (executionMoves intent report state) }
    (hedgeRecord now intent report state)).count
      (fun stats => { stats with appliedReports := stats.appliedReports + 1 })

/-- The cross-field validation of a report against its intent. -/
def MatchesPlan (intent : ExecutionIntent) (report : ExecutionReport) : Prop :=
  agreeIfSet intent.venue report.venue ∧ instrumentMatches intent report ∧
    (intent.venueSymbol ≠ "" → report.venueSymbol ≠ "" →
      normalizeSymbol intent.venueSymbol = normalizeSymbol report.venueSymbol) ∧
    agreeIfSet intent.clientOrderId report.clientOrderId ∧
    ¬ Decimal.cmp report.filledQty intent.targetQty > 0
deriving Decidable

def applyExecutionReportLocked
    (now : Int) (s : ExecutionBooks) (report : ExecutionReport) : ExecutionBooks × Bool :=
  match s.executionIntents.lookup report.intentId with
  | none => (s, false)
  | some intent =>
      if ¬ MatchesPlan intent report then
        (s.count (fun stats => { stats with planMismatchReports := stats.planMismatchReports + 1 }),
          false)
      else
        let key := executionStateKey report
        let state := s.stateOf report
        -- the lookup creates the entry of a new key, also for a report that is rejected
        let s := s.setState key state
        if Decimal.cmp report.filledQty state.filledQty < 0 then
          (s.count (fun stats =>
            { stats with qtyRegressionReports := stats.qtyRegressionReports + 1 }), false)
        else if ¬ isAllowedStatusTransition state.status (normalizeExecutionStatus report) then
          (s.count (fun stats =>
            { stats with statusRegressionReports := stats.statusRegressionReports + 1 }), false)
        else
          let booked :=
            if Decimal.cmp (state.deltaQty report) Decimal.zero > 0 then
              bookExecution now s intent report state
            else s
          (booked.setState key (state.saved report), true)

/-- One round of the loop over the queued reports. -/
def replayReport (now : Int) (s : ExecutionBooks) (report : ExecutionReport) : ExecutionBooks :=
  (applyExecutionReportLocked now
    (s.count (fun stats => { stats with replayedReports := stats.replayedReports + 1 }))
    report).1

def rememberExecutionIntent
    (now : Int) (s : ExecutionBooks) (intent : ExecutionIntent) : ExecutionBooks :=
  if intent.intentId = "" then s
  else
    run (replayReport now)
      { s with
        executionIntents := s.executionIntents.insert intent.intentId intent
        pendingExecutionReports := s.pendingExecutionReports.erase intent.intentId }
      (s.pending intent.intentId)

/-- The report waits: it names no intent, or one that is not known yet. -/
def ExecutionBooks.Waits (s : ExecutionBooks) (report : ExecutionReport) : Prop :=
  report.intentId = "" ∨ s.executionIntents.lookup report.intentId = none
deriving Decidable

def applyExecutionReport
    (now : Int) (s : ExecutionBooks) (report : ExecutionReport) : ExecutionBooks :=
  let key := executionReportKey report
  if key ∈ s.seenExecutionReportKeys then
    s.count (fun stats => { stats with duplicateReports := stats.duplicateReports + 1 })
  else
    let s := { s with seenExecutionReportKeys := key :: s.seenExecutionReportKeys }
    if s.Waits report then
      { s with
        pendingExecutionReports := s.pendingExecutionReports.insert report.intentId
          (s.pending report.intentId ++ [report])
        execReconStats := { s.execReconStats with
          missingPlanReports := s.execReconStats.missingPlanReports + 1
          queuedReports := s.execReconStats.queuedReports + 1 } }
    else (applyExecutionReportLocked now s report).1

end Ledger
end ContExchange
