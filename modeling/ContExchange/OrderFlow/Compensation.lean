import ContExchange.OrderFlow.BatchApplication
import ContExchange.OrderFlow.ComboRows

/-!
# Order flow: resolving compensations

`ResolveCompensationUseCase::Resolve` with what it calls.  When an external leg of a
combo fails, matching keeps a pending compensation.  To reverse it, the use case asks
matching for the compensation, loads the internal legs with a fill, creates an order
of the other side for each of them through `CreateFlowOrder`, and tells matching that
the compensation is resolved.

The operator and the auto loop call the use case independently of each other, so a call
is cut at its remote calls: `startResolve` is the part before the loop over the legs,
`reverseNext` one round of the loop and `finishResolve` the rest.  The steps of several
calls, and other calls of order flow, may come in any order.
-/

namespace ContExchange
namespace OrderFlow

open Common Lib
open Matching (PgNumeric ProtoFlowOrder OrderEvent stripZeros)
open Ledger (LedgerError)

/-- `combo_compensations.status`. -/
inductive CompensationStatus where
  | pending
  | resolved
  | cancelled
deriving DecidableEq

/-- A row of `combo_compensations`. -/
structure CompensationRow where
  parentOrderId : String
  status : CompensationStatus := .pending
  resolutionAction : Option String := none
  operatorId : Option String := none
  resolvingRef : Option String := none
deriving DecidableEq

abbrev Compensations : Type := Table String CompensationRow

def getPending (compensations : Compensations) (compensationId : String) :
    Option CompensationRow :=
  if compensationId = "" then none
  else
    (compensations.lookup compensationId).filter (fun row => decide (row.status = .pending))

structure ResolveCompensationRequest where
  compensationId : String
  action : String
  operatorId : String
deriving DecidableEq

/-- The checks that both services make of a request. -/
def ResolveCompensationRequest.check (req : ResolveCompensationRequest) : Option LedgerError :=
  if req.action ≠ "reverse_internal" ∧ req.action ≠ "retry_external" ∧ req.action ≠ "accept" then
    some
      { code := "INVALID_ACTION"
        message := "action must be reverse_internal | retry_external | accept" }
  else if req.compensationId = "" ∨ req.operatorId = "" then
    some
      { code := "INVALID_ARGUMENT"
        message := "compensation_id and operator_id are required" }
  else none

structure ResolvePendingResponse where
  applied : Bool
  error : Option LedgerError := none
deriving DecidableEq

/-- `PostgresComboCompensationRepository::ResolvePending`. -/
def resolvePendingRow (compensations : Compensations) (req : ResolveCompensationRequest)
    (resolvingRef : String) : Compensations × Bool :=
  match (compensations.lookup req.compensationId).filter
      (fun row => decide (row.status = .pending)) with
  | none => (compensations, false)
  | some row =>
      (compensations.insert req.compensationId
        { row with
          status := if req.action = "accept" then .cancelled else .resolved
          resolutionAction := some req.action
          operatorId := some req.operatorId
          resolvingRef := some resolvingRef }, true)

def resolvePending (compensations : Compensations) (req : ResolveCompensationRequest)
    (resolvingRef : String) : Compensations × ResolvePendingResponse :=
  match req.check with
  | some error => (compensations, { applied := false, error := some error })
  | none =>
      let r := resolvePendingRow compensations req resolvingRef
      (r.1, { applied := r.2 })

/-- A 64-bit integer, wrapping on overflow. -/
def wrapInt64 (z : Int) : Int :=
  (z + 2 ^ 63) % 2 ^ 64 - 2 ^ 63

theorem wrapInt64_fits (z : Int) : Int64Fits (wrapInt64 z) := by
  unfold wrapInt64 Int64Fits int64Min int64Max
  omega

/-- `ParseNum`: the decimal of a column, its mantissa cut to 64 bits. -/
def parseNum (z : PgNumeric) : Decimal :=
  let r := stripZeros 18 z.units
  ⟨wrapInt64 r.1, r.2, wrapInt64_fits r.1⟩

structure ReversalLegRow where
  legId : String
  instrumentSymbol : String
  isBuy : Bool
  pLow : Decimal
  pHigh : Decimal
  qRate : Decimal
  filledCum : Decimal
deriving DecidableEq

structure ComboReversalContext where
  userId : String := ""
  legs : List ReversalLegRow := []

/-- The venue preference that keeps a leg inside. -/
def internalVenue : Option (List Char) :=
  some ['i', 'n', 't', 'e', 'r', 'n', 'a', 'l']

/-- The conditions of the query of `LoadInternalFilledLegs`. -/
def ComboLegRow.loadsForReversal (parentOrderId : String) (row : ComboLegRow) : Bool :=
  decide (row.parentOrderId = parentOrderId ∧ 0 < row.filledCum.units ∧
    (row.venuePreferences = [] ∨ row.venuePreferences = [internalVenue]))

/-- What `LoadInternalFilledLegs` makes of a row. -/
def ComboLegRow.toReversalLeg (legId : String) (row : ComboLegRow) : ReversalLegRow where
  legId
  instrumentSymbol := row.instrumentSymbol
  isBuy := decide (row.side = "buy")
  pLow := parseNum row.pLow
  pHigh := parseNum row.pHigh
  qRate := parseNum row.qRate
  filledCum := parseNum row.filledCum

def loadInternalFilledLegs (tables : ComboTables) (parentOrderId : String) :
    ComboReversalContext :=
  match tables.comboOrders.lookup parentOrderId with
  | none => {}
  | some combo =>
      let rows := (tables.legs.filter (fun _ row => row.loadsForReversal parentOrderId)).entries
      let legs := (rows.map (fun e => e.2.toReversalLeg e.1)).insertionSort
        (fun a b => a.legId ≤ b.legId)
      { userId := if legs = [] then "" else combo.userId.getD ""
        legs }

structure ReversalOrder where
  instrumentSymbol : String
  isBuy : Bool
  qty : Decimal
deriving DecidableEq

/-- `ComputeReversals`: the other side for every leg with a fill. -/
def computeReversals (legs : List ReversalLegRow) : List ReversalOrder :=
  legs.filterMap (fun leg =>
    if Decimal.cmp leg.filledCum Decimal.zero ≤ 0 then none
    else
      some
        { instrumentSymbol := leg.instrumentSymbol
          isBuy := !leg.isBuy
          qty := leg.filledCum })

def fnv1a (text : String) (seed : Nat) : Nat :=
  (text.toList.flatMap String.utf8EncodeChar).foldl
    (fun h c => (h ^^^ c.toNat) * 1099511628211 % 2 ^ 64) seed

/-- The lowest `width` hexadecimal digits. -/
def hexDigits : (width : Nat) → Nat → List Char
  | 0, _ => []
  | k + 1, n => hexDigits k (n / 16) ++ [Nat.digitChar (n % 16)]

def deterministicUuid (key : String) : String :=
  let hi := fnv1a key 1469598103934665603
  let lo := fnv1a (key ++ "#rev") 1469598103934665603
  String.ofList
    (hexDigits 8 (hi / 2 ^ 32) ++ '-' :: hexDigits 4 (hi / 2 ^ 16) ++ '-' :: hexDigits 4 hi ++
      '-' :: hexDigits 4 (lo / 2 ^ 48) ++ '-' :: hexDigits 12 lo)

/-- `SplitSymbol`: base and quote of `BASE/QUOTE`, both empty without a slash. -/
def splitSymbol (symbol : String) : String × String :=
  let text := symbol.toList
  if '/' ∈ text then
    (String.ofList (text.takeWhile (· ≠ '/')), String.ofList ((text.dropWhile (· ≠ '/')).drop 1))
  else ("", "")

def reversingOrder (compensationId userId : String) (leg : ReversalLegRow)
    (rev : ReversalOrder) : ProtoFlowOrder where
  orderId := deterministicUuid (compensationId ++ ":" ++ leg.legId)
  userId
  instrument :=
    { symbol := rev.instrumentSymbol
      base := (splitSymbol rev.instrumentSymbol).1
      quote := (splitSymbol rev.instrumentSymbol).2 }
  side := if rev.isBuy then .buy else .sell
  totalQty := some rev.qty
  priceLow := some leg.pLow
  priceHigh := some leg.pHigh
  maxSpeed := some leg.qRate
  tif := .gtc

structure ResolveCompensationResponse where
  applied : Bool
  reversingOrderIds : List String := []
  error : Option LedgerError := none
deriving DecidableEq

/-- A call in the loop: the legs that it still has to reverse, and the creates that it
made with their answers. -/
structure ReverseCall where
  req : ResolveCompensationRequest
  userId : String := ""
  legs : List (ReversalLegRow × ReversalOrder) := []
  made : List (ReversalLegRow × CreateFlowOrderResponse) := []

/-- An activated reversing order with the leg that it reverses. -/
structure Reversal where
  legId : String
  order : ProtoFlowOrder

/-- The services around a compensation.  `calls` are the calls in progress;
`reversals` is the history of the reversing orders that were activated. -/
structure Resolver where
  flow : OrderFlowUseCases := {}
  tables : ComboTables := {}
  compensations : Compensations := ∅
  calls : Table Nat ReverseCall := ∅
  reversals : List Reversal := []

/-- What the first part of a call depends on beside the state. -/
structure StartEnv where
  getPending : RpcOutcome := .answered
  databaseUp : Bool := true

/-- Where the first part of a call ends: with a response, with an exception, or in the
loop. -/
inductive ResolveStart where
  | answered (response : ResolveCompensationResponse)
  | thrown
  | reversing (call : ReverseCall)

/-- `Resolve` up to the loop over the legs. -/
def startResolve (env : StartEnv) (s : Resolver) (req : ResolveCompensationRequest) :
    ResolveStart :=
  match req.check with
  | some error => .answered { applied := false, error := some error }
  | none =>
      match (if env.getPending = .answered then getPending s.compensations req.compensationId
        else none) with
      | none => .answered { applied := false }
      | some row =>
          if req.action = "retry_external" then
            .answered
              { applied := false
                error := some
                  { code := "NOT_IMPLEMENTED"
                    message := "retry_external is deferred to MVP-7 (re-emit ExecutionIntent)" } }
          else if req.action = "reverse_internal" then
            if env.databaseUp then
              let ctx := loadInternalFilledLegs s.tables row.parentOrderId
              let reversals := computeReversals ctx.legs
              if reversals.length ≠ ctx.legs.length then
                .answered
                  { applied := false
                    error := some
                      { code := "INTERNAL", message := "reversal/leg count mismatch" } }
              else .reversing { req, userId := ctx.userId, legs := ctx.legs.zip reversals }
            else .thrown
          else .reversing { req }

def activated (legId : String) (published : List OrderEvent) : List Reversal :=
  published.filterMap (fun e =>
    match e with
    | .create order => some ⟨legId, order⟩
    | _ => none)

/-- One round of the loop over the legs. -/
def reverseNext (env : CreateEnv) (s : Resolver) (call : ReverseCall) : Resolver × ReverseCall :=
  match call.legs with
  | [] => (s, call)
  | (leg, rev) :: rest =>
      let a := createFlowOrder env s.flow
        (reversingOrder call.req.compensationId call.userId leg rev)
      ({ s with
          flow := a.state
          reversals := s.reversals ++ activated leg.legId a.published },
        { call with
          legs := rest
          made := call.made ++ [(leg, a.response)] })

/-- The ids of the accepted creates of a call. -/
def ReverseCall.reversingOrderIds (call : ReverseCall) : List String :=
  (call.made.map (fun m => m.2.orderId)).filter (fun id => decide (id ≠ ""))

/-- `Resolve` after the loop. -/
def finishResolve (rpc : RpcOutcome) (rpcMessage : String) (s : Resolver) (call : ReverseCall) :
    Resolver × ResolveCompensationResponse :=
  let r := resolvePending s.compensations call.req (",".intercalate call.reversingOrderIds)
  let failed : ResolveCompensationResponse :=
    { applied := false
      reversingOrderIds := call.reversingOrderIds
      error := some { code := "GRPC_ERROR", message := rpcMessage } }
  match rpc with
  | .answered =>
      ({ s with compensations := r.1 },
        { applied := r.2.applied
          reversingOrderIds := call.reversingOrderIds
          error := r.2.error })
  | .notSent => (s, failed)
  | .replyLost => ({ s with compensations := r.1 }, failed)

/-- A step of a call, or a call of another client of order flow. -/
inductive ResolveEvent where
  | start (callId : Nat) (env : StartEnv) (req : ResolveCompensationRequest)
  | create (callId : Nat) (env : CreateEnv)
  | finish (callId : Nat) (resolvePending : RpcOutcome) (rpcMessage : String)
  | orderFlow (call : OrderFlowCall)

/-- A step of a call that is in progress, if there is one of that number. -/
def Resolver.onCall (s : Resolver) (callId : Nat) (act : ReverseCall → Resolver) : Resolver :=
  match s.calls.lookup callId with
  | none => s
  | some call => act call

/-- The state after a step. -/
def Resolver.step (s : Resolver) : ResolveEvent → Resolver
  | .start callId env req =>
      match s.calls.lookup callId with
      | some _ => s
      | none =>
          match startResolve env s req with
          | .reversing call => { s with calls := s.calls.insert callId call }
          | _ => s
  | .create callId env =>
      s.onCall callId (fun call =>
        let r := reverseNext env s call
        { r.1 with calls := s.calls.insert callId r.2 })
  | .finish callId rpc rpcMessage =>
      s.onCall callId (fun call =>
        if call.legs = [] then
          { (finishResolve rpc rpcMessage s call).1 with calls := s.calls.erase callId }
        else s)
  | .orderFlow call => { s with flow := s.flow.step call }

end OrderFlow
end ContExchange
