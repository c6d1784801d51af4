import ContExchange.Matching.HedgeChain
import ContExchange.Venues.SimSessions

/-!
# Venues: the execution loop

`exec_consume_loop` takes the execution intents one after the other: it asks the router for
the routing mode of the intent's venue and instrument, looks an adapter up, sends the order
and publishes the report.  In the mode `SIM_ONLY` it publishes a simulated report instead,
and in the mode `SHADOW` one after the live report.

The loop is one of several threads.  A step below is what it does between two points at
which the session registry, the venue settings or an adapter may change:

* `consume`: an intent arrives and `Decide` is asked;
* `choose`: `find_adapter` looks up an adapter;
* `send`: `ExecuteOnVenue::Run`, and the reports are published.

The adapters are behind their interface, with a state of any type.  The result of the
venue simulator is what a step finds outside; the tables of the child orders and the hedge
flows are written and never asked, and are left out.
-/

namespace ContExchange
namespace Venues

open Common Lib
open Ledger (ExecutionReportStatus ReportError)
open Matching (ExecutionStrategy)

/-- `fob.execution.v1.ExecutionIntent`, as the loop reads it. -/
structure ExecutionIntent extends Ledger.ExecutionIntent where
  hedgeFlowId : String := ""
  strategy : ExecutionStrategy := .unspecified
  tif : TimeInForce := .unspecified
deriving DecidableEq

/-- `fob.execution.v1.ExecutionReport`, with the source and the partition key of its
`EventMeta`. -/
structure ExecutionReport extends Ledger.ExecutionReport where
  source : String
  partitionKey : String
  hedgeFlowId : String := ""
deriving DecidableEq

inductive SimAlertType where
  | unspecified
  | staleLob
  | simTimeout
  | lobSourceDown
deriving DecidableEq

/-- What is published: an execution report, the annotation of a simulated one, or an alert. -/
inductive Payload where
  | report (report : ExecutionReport)
  | sidecar (reportId simSessionId : String)
  | alert (type : SimAlertType) (simSessionId venueId symbol message : String)
deriving DecidableEq

structure Message where
  topic : String
  key : String
  payload : Payload
deriving DecidableEq

inductive VenueType where
  | cex
  | dex
  | amm
deriving DecidableEq

inductive VenueConnectionStatus where
  | connected
  | stale
  | disconnected
  | empty
deriving DecidableEq

structure VenueOrderResult where
  accepted : Bool := false
  venueOrderId : String := ""
  status : ExecutionReportStatus := .unspecified
  filledQty : Decimal := Decimal.zero
  remainingQty : Decimal := Decimal.zero
  averagePrice : Decimal := Decimal.zero
  fee : Option Fee := none
  errorCode : String := ""
  errorMessage : String := ""

/-- `VenueAdapter`: what an adapter does from its state; `SendOrder` may throw. -/
structure VenueAdapter (σ : Type) where
  heartbeat : σ → VenueConnectionStatus
  reconnect : σ → Bool × σ
  sendOrder : σ → ExecutionIntent → Except String VenueOrderResult × σ

/-- The state of a `SimulatedVenueAdapter` that an order looks at; the mid price moves with
the snapshots. -/
structure SimulatedVenue where
  connected : Bool := false
  midPrice : Decimal := Decimal.zero
  consecutiveErrors : Nat := 0
  reconnectAttempts : Nat := 0

def SimulatedVenue.sendOrder (v : SimulatedVenue) (intent : ExecutionIntent) :
    VenueOrderResult × SimulatedVenue :=
  let venueOrderId :=
    "SIM-" ++ if intent.intentId = "" then intent.clientOrderId else intent.intentId
  if v.connected = false then
    ({ venueOrderId
       accepted := false
       status := .rejected
       errorCode := "VENUE_DISCONNECTED"
       errorMessage := "Adapter is disconnected" },
      { v with consecutiveErrors := v.consecutiveErrors + 1 })
  else
    ({ venueOrderId
       accepted := true
       status := .filled
       filledQty := intent.targetQty
       remainingQty := Decimal.zeroAt intent.targetQty.scale
       averagePrice :=
        (intent.limitPrice.filter (fun price => price.units ≠ 0)).getD v.midPrice },
      { v with consecutiveErrors := 0 })

def simulatedVenueAdapter : VenueAdapter SimulatedVenue where
  heartbeat v := if v.connected then .connected else .disconnected
  reconnect v :=
    (true, { v with
      connected := true
      consecutiveErrors := 0
      reconnectAttempts := v.reconnectAttempts + 1 })
  sendOrder v intent := ((.ok (v.sendOrder intent).1), (v.sendOrder intent).2)

structure LoopAdapter (σ : Type) where
  venueId : String
  venueType : VenueType := .cex
  state : σ

structure VenueConfigRecord where
  venueId : String
  isActive : Bool := true
  routingMode : String := "auto"

/-- `RouteDecision`; the models are kept as their texts. -/
structure RouteDecision where
  mode : RoutingMode := .liveOnly
  hasSession : Bool := false
  simSessionId : String := ""
  latencyModel : Option String := none
  impactModel : Option String := none
  feeModel : Option String := none
  rejectionModel : Option String := none
  staleLobThresholdMs : Nat := 2000
  partialFillMode : PartialFillMode := .levelByLevel

/-- `VenueSimRouter::Decide`. -/
def decideRoute (registry : SimSessions) (venueId symbol : String) : RouteDecision :=
  match SimSessionRegistry.resolve registry venueId symbol with
  | none => {}
  | some session =>
      { mode := if session.routingMode = .unspecified then .liveOnly else session.routingMode
        hasSession := true
        simSessionId := session.simSessionId
        latencyModel := session.latencyModel
        impactModel := session.impactModel
        feeModel := session.feeModel
        rejectionModel := session.rejectionModel
        staleLobThresholdMs :=
          if 0 < session.staleLobThresholdMs then session.staleLobThresholdMs else 2000
        partialFillMode :=
          if session.partialFillMode = .unspecified then .levelByLevel
          else session.partialFillMode }

def routingSymbol (i : Instrument) : String :=
  if i.symbol ≠ "" then i.symbol
  else if i.base ≠ "" ∧ i.quote ≠ "" then i.base ++ "/" ++ i.quote
  else i.symbol

def normalizeRoutingMode (rawMode : String) : String :=
  if rawMode.toLower = "watch" then "watch" else "auto"

section Lookup

variable {σ : Type} (impl : VenueAdapter σ)

def isAdapterEligible (venueConfigs : Table String VenueConfigRecord) (enforceHealthCheck : Bool)
    (a : LoopAdapter σ) : Bool :=
  (match venueConfigs.lookup a.venueId with
    | none => true
    | some cfg => cfg.isActive && normalizeRoutingMode cfg.routingMode ≠ "watch") &&
  (!enforceHealthCheck || impl.heartbeat a.state ≠ .disconnected)

/-- `find_adapter`: the place of the adapter, and where the next search starts. -/
def findAdapter (adapters : List (LoopAdapter σ)) (venueConfigs : Table String VenueConfigRecord)
    (nextExecAdapterIdx : Nat) (venueId : String) : Option Nat × Nat :=
  if venueId ≠ "" then
    match adapters.findIdx? (fun a => a.venueId = venueId) with
    | none => (none, nextExecAdapterIdx)
    | some idx =>
        if (adapters[idx]?.any (isAdapterEligible impl venueConfigs false)) then
          (some idx, nextExecAdapterIdx)
        else (none, nextExecAdapterIdx)
  else
    let count := adapters.length
    let places := (List.range count).map (fun offset => (nextExecAdapterIdx + offset) % count)
    let eligible (enforceHealthCheck : Bool) (idx : Nat) : Bool :=
      adapters[idx]?.any (isAdapterEligible impl venueConfigs enforceHealthCheck)
    match (places.find? (eligible true)).or (places.find? (eligible false)) with
    | none => (none, nextExecAdapterIdx)
    | some idx => (some idx, (idx + 1) % count)

end Lookup

structure ExecutionReportTopics where
  venue : String := "execution.venue"
  legacy : String := "execution.reports"
  backtest : String := "backtest.execution.venue"

structure BacktestSession where
  sessionId : String := ""
  namespaceId : String := ""

/-- `ResolveNamespace` of a session that is enabled. -/
def BacktestSession.resolveNamespace (session : BacktestSession) : String :=
  if session.namespaceId ≠ "" then session.namespaceId else "replay::" ++ session.sessionId

/-- The topics of the loop's report producer. -/
def loopTopics : ExecutionReportTopics := {}

/-- What the loop was set up with. -/
structure LoopConfig where
  backtestSession : BacktestSession := {}
  symbolMap : Table String String := ∅
  runtimeSymbolMap : Table String String := ∅

/-- `normalize_venue_symbol`: without slashes and white space. -/
def normalizeVenueSymbol (s : String) : String :=
  String.ofList (s.toList.filter (fun c =>
    c ≠ '/' && !(c = ' ' || (9 ≤ c.toNat && c.toNat ≤ 13))))

def canonicalSymbol (instrument : Instrument) : String :=
  if instrument.symbol ≠ "" then instrument.symbol
  else if instrument.base ≠ "" ∧ instrument.quote ≠ "" then
    instrument.base ++ "/" ++ instrument.quote
  else ""

def defaultVenueSymbol (instrument : Instrument) : String :=
  if instrument.base ≠ "" ∧ instrument.quote ≠ "" then instrument.base ++ instrument.quote
  else normalizeVenueSymbol (canonicalSymbol instrument)

def resolveVenueSymbol (cfg : LoopConfig) (intent : ExecutionIntent) (venueId : String) :
    String :=
  let symbol := canonicalSymbol intent.instrument
  if intent.venueSymbol ≠ "" then normalizeVenueSymbol intent.venueSymbol
  else
    let runtime := if venueId ≠ "" then cfg.runtimeSymbolMap.lookup venueId else none
    let keys :=
      (if venueId ≠ "" ∧ symbol ≠ "" then [venueId ++ "|" ++ symbol, venueId ++ ":" ++ symbol]
        else []) ++ (if symbol ≠ "" then [symbol] else [])
    (runtime.or (keys.findSome? cfg.symbolMap.lookup)).getD (defaultVenueSymbol intent.instrument)

def hasLimitPrice (intent : ExecutionIntent) : Bool :=
  intent.limitPrice.any (fun price => price.units ≠ 0)

/-- `BuildChildIntent`, for the venue and the type of the adapter. -/
def buildChildIntent (cfg : LoopConfig) (adapter : Option (String × VenueType))
    (intent : ExecutionIntent) : ExecutionIntent :=
  let venue := (adapter.map Prod.fst).elim intent.venue
    (fun id => if id ≠ "" then id else intent.venue)
  let instrument := { intent.instrument with symbol := routingSymbol intent.instrument }
  let out : ExecutionIntent :=
    { intent with
      venue
      instrument
      clientOrderId :=
        if intent.clientOrderId = "" then intent.intentId else intent.clientOrderId
      strategy :=
        if intent.strategy = .unspecified then
          if hasLimitPrice intent then .limit else .market
        else intent.strategy
      tif :=
        if intent.tif = .unspecified then
          if (adapter.map Prod.snd).any (fun t => t = .dex || t = .amm) then .ioc
          else if hasLimitPrice intent then .gtc
          else .unspecified
        else intent.tif }
  let venueSymbol := resolveVenueSymbol cfg out venue
  { out with venueSymbol := if venueSymbol ≠ "" then venueSymbol else intent.venueSymbol }

def makeExecutionReport (reportId : String) (intent : ExecutionIntent) (venueId : String)
    (result : VenueOrderResult) : ExecutionReport where
  source := "venues"
  partitionKey := intent.intentId
  reportId := reportId
  intentId := intent.intentId
  venue := if venueId = "" then intent.venue else venueId
  instrument := intent.instrument
  venueSymbol := intent.venueSymbol
  venueOrderId := result.venueOrderId
  clientOrderId := intent.clientOrderId
  status := result.status
  filledQty := result.filledQty
  remainingQty := result.remainingQty
  averagePrice := result.averagePrice
  feeTotal := result.fee
  error :=
    if result.errorCode ≠ "" ∨ result.errorMessage ≠ "" then
      some { code := result.errorCode, message := result.errorMessage }
    else none

/-- `reject`. -/
def rejectOrder (code message : String) : VenueOrderResult where
  accepted := false
  status := .rejected
  errorCode := code
  errorMessage := message

def makeExecutionExceptionReport (reportId : String) (intent : ExecutionIntent)
    (code message : String) : ExecutionReport where
  source := "venues"
  partitionKey := intent.intentId
  reportId := reportId
  intentId := intent.intentId
  venue := intent.venue
  instrument := intent.instrument
  venueSymbol := intent.venueSymbol
  clientOrderId := intent.clientOrderId
  status := .rejected
  filledQty := Decimal.zero
  remainingQty := intent.targetQty
  averagePrice := Decimal.zero
  error := some { code, message }

/-- `StampForSession`, as far as the key goes. -/
def stampForSession (session : BacktestSession) (report : ExecutionReport) : ExecutionReport :=
  let key :=
    if report.partitionKey = "" then
      if report.intentId = "" then report.reportId else report.intentId
    else report.partitionKey
  { report with partitionKey := session.resolveNamespace ++ "|" ++ key }

/-- `Normalize`. -/
def normalizeReport (report : ExecutionReport) : ExecutionReport :=
  { report with
    status := Ledger.normalizeExecutionStatus report.toExecutionReport }

/-- `ExecutionReportProducer::Publish`. -/
def publishReport (cfg : LoopConfig) (report : ExecutionReport) : List Message :=
  let backtest := cfg.backtestSession.sessionId ≠ ""
  let out := normalizeReport report
  let out := if backtest then stampForSession cfg.backtestSession out else out
  let key :=
    if out.partitionKey = "" then if out.intentId = "" then out.reportId else out.intentId
    else out.partitionKey
  let topics :=
    if backtest then [loopTopics.backtest] else [loopTopics.venue, loopTopics.legacy]
  (topics.filter (fun topic => topic ≠ "")).map
    (fun topic => { topic, key, payload := .report out })

structure SimulateResult where
  status : ExecutionReportStatus := .unspecified
  filledQty : Decimal := Decimal.zero
  remainingQty : Decimal := Decimal.zero
  avgPrice : Decimal := Decimal.zero
  fee : Option Fee := none
  rejectReason : String := ""

/-- `SimExecutionAssembler::Assemble`: the report. -/
def assembleReport (reportId : String) (intent : ExecutionIntent) (result : SimulateResult) :
    ExecutionReport where
  source := "venue-simulator"
  partitionKey := intent.intentId
  reportId := reportId
  intentId := intent.intentId
  hedgeFlowId := intent.hedgeFlowId
  venue := intent.venue
  instrument := intent.instrument
  venueSymbol := intent.venueSymbol
  clientOrderId := intent.clientOrderId
  status := result.status
  filledQty := result.filledQty
  remainingQty := result.remainingQty
  averagePrice := result.avgPrice
  feeTotal := result.fee
  error :=
    if result.status = .rejected ∧ result.rejectReason ≠ "" then
      some { code := result.rejectReason, message := "sim reject: " ++ result.rejectReason }
    else none

def alertType (reason : String) : SimAlertType :=
  if reason = "SIM_STALE_LOB" then .staleLob
  else if reason = "SIM_TIMEOUT" then .simTimeout
  else if reason = "SIM_NO_LIQUIDITY" then .lobSourceDown
  else .unspecified

def publishSimExecution (reportId : String) (intent : ExecutionIntent) (decision : RouteDecision)
    (result : SimulateResult) : List Message :=
  let report := assembleReport reportId intent result
  let key := if intent.hedgeFlowId = "" then intent.intentId else intent.hedgeFlowId
  let error := report.error.getD {}
  let type := alertType error.code
  { topic := "sim.execution.venue", key, payload := .report report } ::
  { topic := "sim.execution.annotations", key := reportId,
    payload := .sidecar reportId decision.simSessionId } ::
  (if report.status = .rejected ∧ type ≠ .unspecified then
    [{ topic := "sim.alerts", key := decision.simSessionId,
       payload := .alert type decision.simSessionId intent.venue
        (routingSymbol intent.instrument) error.message }]
  else [])

section Running

variable {σ : Type} (impl : VenueAdapter σ) (cfg : LoopConfig)

/-- An order that was handed to an adapter. -/
structure SentOrder where
  venueId : String
  order : ExecutionIntent
  result : Except String VenueOrderResult

/-- What `Run` leaves: the report or what it threw, the adapter, and the order if one was
sent. -/
structure RunResult (σ : Type) where
  report : Except String ExecutionReport
  adapter : Option (LoopAdapter σ) := none
  sent : Option SentOrder := none

/-- The check of the connection before an order: an adapter that is disconnected is connected
again. -/
def ensureConnected (state : σ) : Bool × σ :=
  if impl.heartbeat state = .disconnected then impl.reconnect state else (true, state)

/-- `ExecuteOnVenue::Run`. -/
def executeOnVenue (reportId : String) (intent : ExecutionIntent)
    (adapter : Option (LoopAdapter σ)) : RunResult σ :=
  let child := buildChildIntent cfg (adapter.map (fun a => (a.venueId, a.venueType))) intent
  match adapter with
  | none =>
      { report := .ok (makeExecutionReport reportId child child.venue
          (rejectOrder "VENUE_NOT_FOUND"
            ("No venue adapter registered for venue=" ++ child.venue))) }
  | some a =>
      let ready := ensureConnected impl a.state
      if ready.1 = false then
        { report := .ok (makeExecutionReport reportId child a.venueId
            (rejectOrder "RECONNECT_FAILED" "Venue adapter reconnect failed"))
          adapter := some { a with state := ready.2 } }
      else
        let answer := impl.sendOrder ready.2 child
        { report := answer.1.map (makeExecutionReport reportId child a.venueId)
          adapter := some { a with state := answer.2 }
          sent := some { venueId := a.venueId, order := child, result := answer.1 } }

theorem executeOnVenue_cases (reportId : String) (intent : ExecutionIntent)
    (adapter : Option (LoopAdapter σ)) :
    (∃ venueId code message,
      (executeOnVenue impl cfg reportId intent adapter).report =
        .ok (makeExecutionReport reportId
          (buildChildIntent cfg (adapter.map (fun a => (a.venueId, a.venueType))) intent) venueId
          (rejectOrder code message)) ∧
      (executeOnVenue impl cfg reportId intent adapter).sent = none) ∨
    ∃ a ∈ adapter, ∃ child,
      child = buildChildIntent cfg (some (a.venueId, a.venueType)) intent ∧
      (ensureConnected impl a.state).1 = true ∧
      (executeOnVenue impl cfg reportId intent adapter).report =
        (impl.sendOrder (ensureConnected impl a.state).2 child).1.map
          (makeExecutionReport reportId child a.venueId) ∧
      (executeOnVenue impl cfg reportId intent adapter).sent =
        some { venueId := a.venueId, order := child,
               result := (impl.sendOrder (ensureConnected impl a.state).2 child).1 } := by
  unfold executeOnVenue
  cases adapter with
  | none => exact Or.inl ⟨_, _, _, rfl, rfl⟩
  | some a =>
      dsimp only
      cases hready : (ensureConnected impl a.state).1 with
      | false =>
          rw [if_pos rfl]
          exact Or.inl ⟨_, _, _, rfl, rfl⟩
      | true =>
          rw [if_neg (by decide)]
          exact Or.inr ⟨a, rfl, _, rfl, hready, rfl, rfl⟩

/-- The report of the loop: the one of `Run`, or of the exception, with the hedge flow of
the intent. -/
def loopReport (reportId : String) (intent : ExecutionIntent)
    (report : Except String ExecutionReport) : ExecutionReport :=
  let rep := match report with
    | .ok rep => rep
    | .error what => makeExecutionExceptionReport reportId intent "EXECUTION_EXCEPTION" what
  { rep with hedgeFlowId := if rep.hedgeFlowId = "" then intent.hedgeFlowId else rep.hedgeFlowId }

inductive LoopPhase where
  | idle
  | decided (intent : ExecutionIntent) (decision : RouteDecision)
  | chosen (intent : ExecutionIntent) (decision : RouteDecision) (adapter : Option Nat)

/-- The registry, the adapters and the settings, the loop, the orders sent so far, each with
the session that governed its venue at that moment, and what was published. -/
structure LoopWorld (σ : Type) where
  registry : SimSessions := ∅
  adapters : List (LoopAdapter σ)
  venueConfigs : Table String VenueConfigRecord := ∅
  nextExecAdapterIdx : Nat := 0
  phase : LoopPhase := .idle
  sent : List (SentOrder × Option SimSession) := []
  published : List Message := []

/-- What a step finds outside: the result of the simulator, the ids of the reports, and
which topics take a message. -/
structure LoopEnv where
  result : SimulateResult := {}
  reportId : String := ""
  simReportId : String := ""
  takes : String → Bool := fun _ => true

/-- A step of the loop, or a change by another thread. -/
inductive LoopStep (σ : Type) where
  | config (evt : SimConfigEvent)
  | venueConfig (record : VenueConfigRecord)
  | adapter (idx : Nat) (state : σ)
  | consume (intent : ExecutionIntent) (env : LoopEnv)
  | choose
  | send (env : LoopEnv)

namespace LoopWorld

def publish (s : LoopWorld σ) (env : LoopEnv) (messages : List Message) : LoopWorld σ :=
  { s with published := s.published ++ messages.filter (fun m => env.takes m.topic) }

/-- `find_adapter` in a state. -/
def lookup (s : LoopWorld σ) (venueId : String) : Option Nat × Nat :=
  findAdapter impl s.adapters s.venueConfigs s.nextExecAdapterIdx venueId

def adapterAt (s : LoopWorld σ) (idx : Option Nat) : Option (LoopAdapter σ) :=
  idx.bind (fun idx => s.adapters[idx]?)

/-- The decision that the router takes about an intent. -/
def decision (s : LoopWorld σ) (intent : ExecutionIntent) : RouteDecision :=
  decideRoute s.registry intent.venue (routingSymbol intent.instrument)

/-- What the loop publishes after `Run`: the report, and in the mode `SHADOW` a simulated one
after it. -/
def executionMessages (env : LoopEnv) (intent : ExecutionIntent) (decision : RouteDecision)
    (report : Except String ExecutionReport) : List Message :=
  publishReport cfg (loopReport env.reportId intent report) ++
    (if decision.mode = .shadow then
      publishSimExecution env.simReportId intent decision env.result
    else [])

/-- The loop after `Run`. -/
def executed (s : LoopWorld σ) (intent : ExecutionIntent) (idx : Option Nat) (r : RunResult σ) :
    LoopWorld σ :=
  { s with
    adapters := r.adapter.elim s.adapters (fun a => s.adapters.modify (idx.getD 0) (fun _ => a))
    phase := .idle
    sent := s.sent ++ r.sent.toList.map (fun o =>
      (o, SimSessionRegistry.resolve s.registry o.venueId (routingSymbol intent.instrument))) }

def step (s : LoopWorld σ) : LoopStep σ → LoopWorld σ
  | .config evt => { s with registry := applySimConfigEvent evt s.registry }
  | .venueConfig record =>
      { s with venueConfigs := s.venueConfigs.insert record.venueId record }
  | .adapter idx state =>
      { s with adapters := s.adapters.modify idx (fun a => { a with state }) }
  | .consume intent env =>
      match s.phase with
      | .idle =>
          if (s.decision intent).mode = .simOnly then
            s.publish env
              (publishSimExecution env.simReportId intent (s.decision intent) env.result)
          else { s with phase := .decided intent (s.decision intent) }
      | _ => s
  | .choose =>
      match s.phase with
      | .decided intent decision =>
          { s with
            nextExecAdapterIdx := (s.lookup impl intent.venue).2
            phase := .chosen intent decision (s.lookup impl intent.venue).1 }
      | _ => s
  | .send env =>
      match s.phase with
      | .chosen intent decision idx =>
          let r := executeOnVenue impl cfg env.reportId intent (s.adapterAt idx)
          (s.executed intent idx r).publish env (executionMessages cfg env intent decision r.report)
      | _ => s

end LoopWorld

end Running

end Venues
end ContExchange
