import ContExchange.Ledger.ReservationHistory
import ContExchange.Matching.OrderEvents

/-!
# Order flow: creating and cancelling orders

`OrderFlowUseCases` with what it calls.  `CreateFlowOrder` validates the request,
asks the risk service, reserves the funds in the ledger under the order id, keeps
the order in memory, inserts its row and publishes a create event;
`CancelFlowOrder` marks the order, publishes a cancel event and releases the
reservation.

The ledger and the rows of `flow_orders` are part of the state.  What a call
depends on beside it (the answer of the risk service, the calls that get through,
the database, the clock) is a `CreateEnv`.

`createFlowOrder_outcome` says what a create can do: it stops at a gate before the
order is stored, fails at the database, or is accepted.
-/

namespace ContExchange
namespace OrderFlow

open Common Lib Option
open Matching (ProtoFlowOrder FlowOrderRows OrderEvent insertFlowOrder insertedRow)
open Ledger (LedgerUseCases LedgerError ReserveFundsRequest ReserveFundsResponse Reservation
  reserveFunds releaseFunds)

/-- `OrderFlowUseCases`, the ledger and, where a database is configured, the rows
of `flow_orders`. -/
structure OrderFlowUseCases where
  orders : Table String ProtoFlowOrder := ∅
  appliedFills : Table String Bool := ∅
  ledger : LedgerUseCases := {}
  flowOrderRepo : Option FlowOrderRows := none

/-- The decision of `EvaluateVenueHealthGateLocked`. -/
inductive VenueHealthDecision where
  | accept
  | resize
  | reject
deriving DecidableEq

/-- What becomes of a remote call: it is answered, it never arrives, or it is
handled and the answer is lost. -/
inductive RpcOutcome where
  | answered
  | notSent
  | replyLost
deriving DecidableEq

/-- What a create depends on beside the state. -/
structure CreateEnv where
  riskReachable : Bool := true
  halted : Bool := false
  venueGate : VenueHealthDecision := .accept
  reserve : RpcOutcome := .answered
  releaseArrives : Bool := true
  databaseUp : Bool := true
  rpcMessage : String := ""
  databaseMessage : String := ""
  now : Int := 0

/-- `validate_order`: the message of the first check that fails. -/
def validateOrder (o : ProtoFlowOrder) : Option String :=
  if o.total.units ≤ 0 then some "total_qty must be > 0"
  else if Decimal.cmp o.low o.high > 0 then some "price_low must be <= price_high"
  else if o.speed.units ≤ 0 then some "max_speed must be > 0"
  else none

inductive RiskDecision where
  | accept
  | reject
  | resize
  | halt
deriving DecidableEq

structure PreTradeCheckResponse where
  decision : RiskDecision
  resizedOrder : Option ProtoFlowOrder := none
  error : Option LedgerError := none

def checkNewOrder (env : CreateEnv) (o : ProtoFlowOrder) : PreTradeCheckResponse :=
  if env.halted then
    { decision := .halt
      error := some
        { code := "KILL_SWITCH"
          message := "Trading is halted for this instrument (or globally)." } }
  else
    match env.venueGate with
    | .reject =>
        { decision := .reject
          error := some
            { code := "VENUE_UNAVAILABLE"
              message := "All external venues are unavailable by venue.health." } }
    | .resize =>
        { decision := .resize
          resizedOrder := some o
          error := some
            { code := "VENUE_THROTTLE"
              message :=
                "External venue health degraded; preserving requested order speed." } }
    | .accept =>
        if o.total.units ≤ 0 then
          { decision := .reject
            error := some { code := "BAD_QTY", message := "total_qty must be > 0" } }
        else if Decimal.cmp o.low o.high > 0 then
          { decision := .reject
            error := some
              { code := "BAD_PRICE_RANGE", message := "price_low must be <= price_high" } }
        else { decision := .accept }

/-- `RiskClient::CheckNewOrder`: a failed call counts as a reject. -/
def riskCheck (env : CreateEnv) (o : ProtoFlowOrder) : PreTradeCheckResponse :=
  if env.riskReachable then checkNewOrder env o
  else
    { decision := .reject
      error := some { code := "GRPC_ERROR", message := env.rpcMessage } }

/-- The order that goes on: the one of the risk service after a resize. -/
def approvedOrder (resp : PreTradeCheckResponse) (o : ProtoFlowOrder) : ProtoFlowOrder :=
  if resp.decision = .resize then resp.resizedOrder.getD o else o

/-- The reserve request: the quote at the upper limit for a BUY, the base for a SELL. -/
def reserveRequest (o : ProtoFlowOrder) : Option ReserveFundsRequest :=
  match o.side with
  | .buy =>
      some
        { reservationId := o.orderId
          userId := o.userId
          orderId := o.orderId
          currency := o.instrument.quote
          amount := Decimal.mul o.total o.high }
  | .sell =>
      some
        { reservationId := o.orderId
          userId := o.userId
          orderId := o.orderId
          currency := o.instrument.base
          amount := o.total }
  | .unspecified => none

/-- `LedgerClient::ReserveFunds`: the ledger afterwards and the answer. -/
def ledgerReserve (env : CreateEnv) (s : LedgerUseCases) (req : ReserveFundsRequest) :
    LedgerUseCases × ReserveFundsResponse :=
  let failed : ReserveFundsResponse :=
    { success := false
      error := some { code := "GRPC_ERROR", message := env.rpcMessage } }
  match env.reserve with
  | .answered => reserveFunds s req
  | .notSent => (s, failed)
  | .replyLost => ((reserveFunds s req).1, failed)

/-- `LedgerClient::ReleaseFunds`. -/
def ledgerRelease (arrives : Bool) (s : LedgerUseCases) (reservationId : String) :
    LedgerUseCases :=
  if arrives then releaseFunds s reservationId else s

structure CreateFlowOrderResponse where
  accepted : Bool
  orderId : String := ""
  error : Option LedgerError := none
deriving DecidableEq

/-- A call: the state afterwards, the response and the published events. -/
structure Answer (ρ : Type) where
  state : OrderFlowUseCases
  response : ρ
  published : List OrderEvent := []

def refuse (s : OrderFlowUseCases) (error : Option LedgerError) :
    Answer CreateFlowOrderResponse :=
  { state := s, response := { accepted := false, error } }

def storedOrder (now : Int) (o : ProtoFlowOrder) : ProtoFlowOrder :=
  { o with status := .new, remainingQty := some o.total, updatedAt := some now }

/-- The text of the exception of `InsertFlowOrder`. -/
def insertError (env : CreateEnv) (o : ProtoFlowOrder) : String :=
  if o.orderId = "" then "InsertFlowOrder: order_id is empty"
  else if o.userId = "" then "InsertFlowOrder: user_id is empty"
  else if o.instrument.symbol = "" then "InsertFlowOrder: instrument.symbol is empty"
  else env.databaseMessage

/-- The rows after `InsertFlowOrder`; `none` when it throws. -/
def persistOrder (env : CreateEnv) (repo : Option FlowOrderRows) (stored : ProtoFlowOrder) :
    Option (Option FlowOrderRows) :=
  match repo with
  | none => some none
  | some rows =>
      if env.databaseUp then (insertFlowOrder env.now stored rows).map some else none

/-- The steps after the reserve: the order in memory, its row, the create event.
A failed insert releases the reservation and drops the order. -/
def activateOrder (env : CreateEnv) (s : OrderFlowUseCases) (o : ProtoFlowOrder) :
    Answer CreateFlowOrderResponse :=
  let stored := storedOrder env.now o
  let kept := { s with orders := s.orders.insert stored.orderId stored }
  match persistOrder env s.flowOrderRepo stored with
  | none =>
      refuse
        { kept with
          ledger := ledgerRelease env.releaseArrives kept.ledger stored.orderId
          orders := kept.orders.erase stored.orderId }
        (some { code := "PERSIST_ERROR", message := insertError env stored })
  | some repo =>
      { state := { kept with flowOrderRepo := repo }
        response := { accepted := true, orderId := stored.orderId }
        published := [.create stored] }

def fundOrder (env : CreateEnv) (s : OrderFlowUseCases) (o : ProtoFlowOrder) :
    Answer CreateFlowOrderResponse :=
  match reserveRequest o with
  | none =>
      refuse s
        (some { code := "SIDE_UNSPECIFIED", message := "Order side must be BUY or SELL" })
  | some req =>
      let led := ledgerReserve env s.ledger req
      if led.2.success then activateOrder env { s with ledger := led.1 } o
      else refuse { s with ledger := led.1 } led.2.error

def createFlowOrder (env : CreateEnv) (s : OrderFlowUseCases) (o : ProtoFlowOrder) :
    Answer CreateFlowOrderResponse :=
  match validateOrder o with
  | some err => refuse s (some { code := "VALIDATION_ERROR", message := err })
  | none =>
      let risk := riskCheck env o
      if risk.decision = .halt ∨ risk.decision = .reject then refuse s risk.error
      else fundOrder env s (approvedOrder risk o)

structure CancelFlowOrderRequest where
  orderId : String
  userId : String := ""
deriving DecidableEq

structure CancelFlowOrderResponse where
  success : Bool
  error : Option LedgerError := none
deriving DecidableEq

/-- `OrderFlowUseCases::CancelFlowOrder`; the user of the request only goes into
the messages. -/
def cancelFlowOrder (releaseArrives : Bool) (now : Int) (s : OrderFlowUseCases)
    (req : CancelFlowOrderRequest) : Answer CancelFlowOrderResponse :=
  match s.orders.lookup req.orderId with
  | none =>
      { state := s
        response :=
          { success := false
            error := some { code := "NOT_FOUND", message := "Order not found" } } }
  | some o =>
      { state :=
          { s with
            orders :=
              s.orders.insert req.orderId { o with status := .canceled, updatedAt := some now }
            ledger := ledgerRelease releaseArrives s.ledger req.orderId }
        response := { success := true }
        published := [.cancel req.orderId] }

/-- The request passes everything that is asked before the order is stored: its
own checks, the risk service and the ledger. -/
structure PassesGates (env : CreateEnv) (s : OrderFlowUseCases) (o : ProtoFlowOrder) : Prop where
  valid : validateOrder o = none
  risk : env.riskReachable = true ∧ env.halted = false ∧ env.venueGate ≠ .reject
  side : o.side ≠ .unspecified
  answered : env.reserve = .answered
  funded : ∀ req, reserveRequest o = some req → ¬ Ledger.Refused s.ledger req

/-- The row of the order can be written, where there is a database. -/
def Persists (env : CreateEnv) (s : OrderFlowUseCases) (o : ProtoFlowOrder) : Prop :=
  ∀ rows, s.flowOrderRepo = some rows →
    env.databaseUp = true ∧ o.orderId ≠ "" ∧ o.userId ≠ "" ∧ o.instrument.symbol ≠ "" ∧
      (insertedRow env.now o).checked = true

/-- The ledger after the reserve of an order was handled. -/
def reservedLedger (s : LedgerUseCases) (o : ProtoFlowOrder) : LedgerUseCases :=
  match reserveRequest o with
  | none => s
  | some req => (reserveFunds s req).1

/-- What a create can do: it stops before the order is stored, the insert throws, or
the order is accepted. -/
inductive CreateOutcome (env : CreateEnv) (s : OrderFlowUseCases) (o : ProtoFlowOrder) :
    Answer CreateFlowOrderResponse → Prop where
  | stopped {led : LedgerUseCases} {error : Option LedgerError}
      (hgates : ¬ PassesGates env s o)
      (hled : led = s.ledger ∨ led = reservedLedger s.ledger o) :
      CreateOutcome env s o (refuse { s with ledger := led } error)
  | unpersisted {error : Option LedgerError}
      (hgates : PassesGates env s o)
      (hrow : ¬ Persists env s o) :
      CreateOutcome env s o
        (refuse
          { s with
            ledger := ledgerRelease env.releaseArrives (reservedLedger s.ledger o) o.orderId
            orders := (s.orders.insert o.orderId (storedOrder env.now o)).erase o.orderId }
          error)
  | accepted {repo : Option FlowOrderRows}
      (hgates : PassesGates env s o)
      (hrow : Persists env s o)
      (hrepo : persistOrder env s.flowOrderRepo (storedOrder env.now o) = some repo) :
      CreateOutcome env s o
        { state :=
            { s with
              orders := s.orders.insert o.orderId (storedOrder env.now o)
              ledger := reservedLedger s.ledger o
              flowOrderRepo := repo }
          response := { accepted := true, orderId := o.orderId }
          published := [.create (storedOrder env.now o)] }

section Requests

variable {o : ProtoFlowOrder} {req : ReserveFundsRequest}

theorem reserveRequest_ids (h : reserveRequest o = some req) :
    req.reservationId = o.orderId ∧ req.userId = o.userId ∧ req.orderId = o.orderId := by
  unfold reserveRequest at h
  split at h
  · cases h
    exact ⟨rfl, rfl, rfl⟩
  · cases h
    exact ⟨rfl, rfl, rfl⟩
  · cases h

theorem reserveRequest_eq_none_iff : reserveRequest o = none ↔ o.side = .unspecified := by
  unfold reserveRequest
  cases o.side with
  | buy => simp
  | sell => simp
  | unspecified => simp

theorem lookup_reservedLedger_ne {s : LedgerUseCases} {id : String} (hid : o.orderId ≠ id) :
    (reservedLedger s o).reservations.lookup id = s.reservations.lookup id := by
  unfold reservedLedger
  cases hreq : reserveRequest o with
  | none => rfl
  | some req =>
      have hids := reserveRequest_ids hreq
      exact Ledger.lookup_reserveFunds_ne (hids.1 ▸ hid)

theorem lookup_reservedLedger_of_some {s : LedgerUseCases} {id : String} {r : Reservation}
    (h : s.reservations.lookup id = some r) :
    (reservedLedger s o).reservations.lookup id = some r := by
  by_cases hid : o.orderId = id
  · subst hid
    unfold reservedLedger
    cases hreq : reserveRequest o with
    | none => exact h
    | some req =>
        have hids := reserveRequest_ids hreq
        rw [← hids.1] at h
        dsimp only
        unfold reserveFunds
        rw [h, ← hids.1]
        exact h
  · rw [lookup_reservedLedger_ne hid, h]

theorem success_reserveFunds_iff (s : LedgerUseCases) (req : ReserveFundsRequest) :
    (reserveFunds s req).2.success = true ↔ ¬ Ledger.Refused s req := by
  rcases Ledger.reserveFunds_cases s req with ⟨r, hr, -, hs⟩ | ⟨href, -, hs⟩ | ⟨-, hnot, -, hs⟩
  · refine iff_of_true hs (fun h => ?_)
    rw [h.1] at hr
    cases hr
  · exact iff_of_false (by rw [hs]; exact Bool.false_ne_true) (not_not.mpr href)
  · exact iff_of_true hs hnot

theorem success_ledgerReserve_iff (env : CreateEnv) (s : LedgerUseCases)
    (req : ReserveFundsRequest) :
    (ledgerReserve env s req).2.success = true ↔
      env.reserve = .answered ∧ ¬ Ledger.Refused s req := by
  unfold ledgerReserve
  cases env.reserve with
  | answered => simp [success_reserveFunds_iff]
  | notSent => simp
  | replyLost => simp

theorem ledgerReserve_ledger (env : CreateEnv) (s : LedgerUseCases) (req : ReserveFundsRequest) :
    (ledgerReserve env s req).1 = s ∧ env.reserve = .notSent ∨
      (ledgerReserve env s req).1 = (reserveFunds s req).1 := by
  unfold ledgerReserve
  cases henv : env.reserve with
  | answered => exact .inr rfl
  | notSent => exact .inl ⟨rfl, rfl⟩
  | replyLost => exact .inr rfl

end Requests

section Create

variable (env : CreateEnv) (s : OrderFlowUseCases) (o : ProtoFlowOrder)

theorem approvedOrder_riskCheck : approvedOrder (riskCheck env o) o = o := by
  have hsame : (riskCheck env o).resizedOrder.getD o = o := by
    unfold riskCheck checkNewOrder
    cases env.riskReachable with
    | false => rfl
    | true =>
        cases env.halted with
        | true => rfl
        | false =>
            cases env.venueGate with
            | reject => rfl
            | resize => rfl
            | accept =>
                dsimp only
                rw [if_pos rfl, if_neg Bool.false_ne_true]
                split
                · rfl
                · split
                  · rfl
                  · rfl
  unfold approvedOrder
  rw [hsame, ite_self]

/-- A valid order is stopped by the risk service unless it is reachable, trading is
not halted and some venue is up. -/
theorem riskCheck_stops_iff (hvalid : validateOrder o = none) :
    ((riskCheck env o).decision = .halt ∨ (riskCheck env o).decision = .reject) ↔
      ¬ (env.riskReachable = true ∧ env.halted = false ∧ env.venueGate ≠ .reject) := by
  have hqty : ¬ o.total.units ≤ 0 := by
    intro h
    simp [validateOrder, h] at hvalid
  have hband : ¬ Decimal.cmp o.low o.high > 0 := by
    intro h
    simp [validateOrder, hqty, h] at hvalid
  unfold riskCheck checkNewOrder
  cases env.riskReachable with
  | false => simp
  | true =>
      cases env.halted with
      | true => simp
      | false =>
          cases env.venueGate with
          | reject => simp
          | resize => simp
          | accept => simp [hqty, hband]

theorem insertFlowOrder_eq_none_iff (now : Int) (rows : FlowOrderRows) :
    insertFlowOrder now o rows = none ↔
      ¬ (o.orderId ≠ "" ∧ o.userId ≠ "" ∧ o.instrument.symbol ≠ "" ∧
        (insertedRow now o).checked = true) := by
  unfold insertFlowOrder
  by_cases hempty : o.orderId = "" ∨ o.userId = "" ∨ o.instrument.symbol = ""
  · simp only [if_pos hempty]
    tauto
  · simp only [if_neg hempty]
    cases hchecked : (insertedRow now o).checked with
    | false => simp
    | true =>
        simp only [Bool.not_true, Bool.false_eq_true, if_false]
        refine iff_of_false ?_ (by tauto)
        cases rows.lookup o.orderId with
        | none => simp
        | some old => simp

theorem persistOrder_eq_none_iff :
    persistOrder env s.flowOrderRepo (storedOrder env.now o) = none ↔ ¬ Persists env s o := by
  unfold persistOrder Persists
  cases s.flowOrderRepo with
  | none => simp
  | some rows =>
      cases env.databaseUp with
      | false => simp
      | true =>
          have hinsert := insertFlowOrder_eq_none_iff (storedOrder env.now o) env.now rows
          simp only [if_true, map_eq_none_iff, hinsert]
          simp only [Option.some.injEq, forall_eq', true_and]
          exact Iff.rfl

theorem fundOrder_outcome (hvalid : validateOrder o = none)
    (hrisk : env.riskReachable = true ∧ env.halted = false ∧ env.venueGate ≠ .reject) :
    CreateOutcome env s o (fundOrder env s o) := by
  unfold fundOrder
  cases hreq : reserveRequest o with
  | none =>
      refine .stopped (fun h => ?_) (.inl rfl)
      exact h.side (reserveRequest_eq_none_iff.mp hreq)
  | some req =>
      have hled : reservedLedger s.ledger o = (reserveFunds s.ledger req).1 := by
        unfold reservedLedger
        rw [hreq]
      have hgates : PassesGates env s o ↔
          (ledgerReserve env s.ledger req).2.success = true := by
        rw [success_ledgerReserve_iff]
        refine ⟨fun h => ⟨h.answered, h.funded req hreq⟩, fun h => ⟨hvalid, hrisk, ?_, h.1, ?_⟩⟩
        · rw [Ne, ← reserveRequest_eq_none_iff, hreq]
          exact some_ne_none req
        · intro req' hreq'
          rw [hreq] at hreq'
          cases hreq'
          exact h.2
      have hledger := ledgerReserve_ledger env s.ledger req
      rw [← hled] at hledger
      dsimp only
      by_cases hsuccess : (ledgerReserve env s.ledger req).2.success = true
      · have hsame : (ledgerReserve env s.ledger req).1 = reservedLedger s.ledger o := by
          rcases hledger with ⟨-, hnot⟩ | hsame
          · rw [success_ledgerReserve_iff, hnot] at hsuccess
            cases hsuccess.1
          · exact hsame
        rw [if_pos hsuccess, hsame]
        unfold activateOrder
        by_cases hrow : Persists env s o
        · obtain ⟨repo, hrepo⟩ := ne_none_iff_exists'.mp
            ((persistOrder_eq_none_iff env s o).not.mpr (not_not.mpr hrow))
          simp only [hrepo]
          exact .accepted (hgates.mpr hsuccess) hrow hrepo
        · simp only [(persistOrder_eq_none_iff env s o).mpr hrow]
          exact .unpersisted (hgates.mpr hsuccess) hrow
      · rw [if_neg hsuccess]
        exact .stopped (fun h => hsuccess (hgates.mp h)) (hledger.imp And.left id)

theorem createFlowOrder_outcome : CreateOutcome env s o (createFlowOrder env s o) := by
  unfold createFlowOrder
  cases hvalid : validateOrder o with
  | some err =>
      refine .stopped (fun h => ?_) (.inl rfl)
      rw [h.valid] at hvalid
      cases hvalid
  | none =>
      dsimp only
      rw [approvedOrder_riskCheck]
      have hstops := riskCheck_stops_iff env o hvalid
      by_cases hrisk :
          (riskCheck env o).decision = .halt ∨ (riskCheck env o).decision = .reject
      · rw [if_pos hrisk]
        exact .stopped (fun h => hstops.mp hrisk h.risk) (.inl rfl)
      · rw [if_neg hrisk]
        rw [hstops, not_not] at hrisk
        exact fundOrder_outcome env s o hvalid hrisk

end Create

def demoCreate : ProtoFlowOrder where
  orderId := "11111111-1111-4111-8111-111111111111"
  userId := "demo-user"
  instrument := { symbol := "BTC/USDT", base := "BTC", quote := "USDT" }
  side := .buy
  priceLow := some (Decimal.of 90 0)
  priceHigh := some (Decimal.of 100 0)
  maxSpeed := some (Decimal.of 1 0)
  totalQty := some (Decimal.of 1 0)

/-- The service with the demo balances, without a database. -/
def demoStart : OrderFlowUseCases where
  ledger := LedgerUseCases.demoSeed

end OrderFlow
end ContExchange
