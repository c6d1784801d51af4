import ContExchange.Lib.PgText
import ContExchange.OrderFlow.ComboOrders

/-!
# Order flow: combo orders in the database and on the bus

The tables `combo_orders`, `combo_order_legs` and `combo_constraints` with
`InsertComboOrder`, which writes every enumeration as the string of its mapper, the
coefficients as a hand-made object text and the venue preferences as a hand-made array
text; the producer that publishes the legs of an `orchestration_only` combo as
independent orders; and `CreateComboOrderUseCase::Execute`.

A row that is already there is not touched (ON CONFLICT DO NOTHING); a statement that
fails undoes the transaction (`none`).  An id stands for the UUID it is cast to.
-/

namespace ContExchange
namespace OrderFlow

open Common Lib
open Matching (PgNumeric Prints toPgNumeric OrderEvent ProtoFlowOrder)
open Ledger (LedgerError)

/-- `ExecModeDb`; `none` is the `std::invalid_argument`. -/
def execModeDb : ExecutionMode → Option String
  | .orchestrationOnly => some "orchestration_only"
  | .multilegVectorSolver => some "multileg_vector_solver"
  | .unspecified => none

def comboTypeDb : ComboType → Option String
  | .pair => some "pair"
  | .basket => some "basket"
  | .spread => some "spread"
  | .conditional => some "conditional"
  | .oco => some "oco"
  | .bracket => some "bracket"
  | .factor => some "factor"
  | .budget => some "budget"
  | .unspecified => none

def atomicityPolicyDb : AtomicityPolicy → String
  | .strictAtomic => "strict_atomic"
  | .scalableAtomic => "scalable_atomic"
  | .bestEffort => "best_effort"
  | .sequentialFallback => "sequential_fallback"
  | .externalCompensating => "external_compensating"
  | .unspecified => "best_effort"

def atomicityScopeDb : AtomicityScope → String
  | .internalBatch => "internal_batch"
  | .venueNative => "venue_native"
  | .externalCompensating => "external_compensating"
  | .none | .unspecified => "none"

def fallbackPolicyDb : FallbackPolicy → String
  | .scaleDown => "scale_down"
  | .waitNextBatch => "wait_next_batch"
  | .cancel => "cancel"
  | .degrade => "degrade"
  | .compensate => "compensate"
  | .unspecified => "scale_down"

def ratioBasisDb : RatioBasis → String
  | .notionalWeight => "notional_weight"
  | .quantityRatio => "quantity_ratio"
  | .unspecified => ""

def sideDb : Side → Option String
  | .buy => some "buy"
  | .sell => some "sell"
  | .unspecified => none

def constraintTypeDb : ConstraintType → String
  | .maxWeightDeviation => "max_weight_deviation"
  | .maxTotalNotional => "max_total_notional"
  | .spreadRange => "spread_range"
  | .factorNeutrality => "factor_neutrality"
  | .maxLeverage => "max_leverage"
  | .maxMargin => "max_margin"
  | .riskLimit => "risk_limit"
  | .ratioEquality => "ratio_equality"

/-- The strings of the severities. -/
def severityDb : ConstraintSeverity → String
  | .soft => "soft"
  | .hard => "hard"

/-- `NULLIF(s, '')`. -/
def nullIfEmpty (s : String) : Option String :=
  if s = "" then none else some s

def coefficientsJson (m : Table String Decimal) : List Char :=
  '{' :: [','].intercalate
    (m.entries.map (fun e => '"' :: e.1.toList ++ "\":\"".toList ++ e.2.toStringText ++ ['"'])) ++ ['}']

def venuePrefsArray (v : List String) : List Char :=
  '{' :: [','].intercalate (v.map (fun s => '"' :: s.toList ++ ['"'])) ++ ['}']

/-- A row of `combo_orders`. -/
structure ComboOrderRow where
  comboType : String
  executionMode : String
  status : String
  ratioBasis : Option String
  atomicityPolicy : String
  atomicityScope : String
  fallbackPolicy : String
  minExecutionScale : Option PgNumeric
  maxRatioDeviationBps : Option Int
  userId : Option String
  accountId : Option String
deriving DecidableEq

/-- A row of `combo_order_legs`. -/
structure ComboLegRow where
  parentOrderId : String
  instrumentSymbol : String
  side : String
  ratio : Option PgNumeric
  weight : Option PgNumeric
  ratioBasis : Option String
  pLow : PgNumeric
  pHigh : PgNumeric
  qRate : PgNumeric
  qMax : PgNumeric
  filledCum : PgNumeric
  venuePreferences : List (Option (List Char))
  status : String
deriving DecidableEq

/-- A row of `combo_constraints`. -/
structure ComboConstraintRow where
  parentOrderId : String
  constraintType : String
  coefficients : Table (List Char) (List Char)
  lowerBound : Option PgNumeric
  upperBound : Option PgNumeric
  value : Option PgNumeric
  valueBps : Option Int
  severity : String
deriving DecidableEq

structure ComboTables where
  comboOrders : Table String ComboOrderRow := ∅
  legs : Table String ComboLegRow := ∅
  constraints : Table String ComboConstraintRow := ∅

/-- The CHECK of `combo_orders`. -/
def ComboOrderRow.checked (row : ComboOrderRow) : Bool :=
  row.minExecutionScale.all (fun z => decide (0 ≤ z.units ∧ z.units ≤ 10 ^ 18))

/-- The CHECKs of `combo_order_legs`. -/
def ComboLegRow.checked (row : ComboLegRow) : Bool :=
  decide (0 < row.pLow.units ∧ row.pLow.units ≤ row.pHigh.units ∧ 0 < row.qRate.units ∧
    0 < row.qMax.units ∧ 0 ≤ row.filledCum.units ∧ row.filledCum.units ≤ row.qMax.units ∧
      row.ratio.isSome ≠ row.weight.isSome)

/-- ON CONFLICT DO NOTHING. -/
def insertNew {κ ν : Type} [DecidableEq κ] (t : Table κ ν) (k : κ) (v : ν) : Table κ ν :=
  if (t.lookup k).isSome then t else t.insert k v

def comboOrderRow (combo : ComboOrder) : Option ComboOrderRow := do
  let comboType ← comboTypeDb combo.comboType
  let executionMode ← execModeDb combo.executionMode
  if ∀ d ∈ combo.minExecutionScale, Prints d then
    some
      { comboType
        executionMode
        status := "active"
        ratioBasis := nullIfEmpty (ratioBasisDb combo.ratioBasis)
        atomicityPolicy := atomicityPolicyDb combo.atomicityPolicy
        atomicityScope := atomicityScopeDb combo.atomicityScope
        fallbackPolicy := fallbackPolicyDb combo.fallbackPolicy
        minExecutionScale := combo.minExecutionScale.map toPgNumeric
        maxRatioDeviationBps := combo.maxRatioDeviationBps
        userId := nullIfEmpty combo.userId
        accountId := nullIfEmpty combo.accountId }
  else none

/-- The decimals of a leg that are printed into its row. -/
def Leg.numbers (leg : Leg) : List Decimal :=
  leg.ratio.toList ++ leg.weight.toList ++
    [leg.pLow, leg.pHigh, leg.qRate, leg.qMax, leg.filledCum]

def comboLegRow (parentOrderId : String) (leg : Leg) : Option ComboLegRow := do
  let side ← sideDb leg.side
  let venuePreferences ← arrayElements (venuePrefsArray leg.venuePreferences)
  if ∀ d ∈ leg.numbers, Prints d then
    some
      { parentOrderId
        instrumentSymbol := leg.instrumentSymbol
        side
        ratio := leg.ratio.map toPgNumeric
        weight := leg.weight.map toPgNumeric
        ratioBasis := nullIfEmpty (ratioBasisDb leg.ratioBasis)
        pLow := toPgNumeric leg.pLow
        pHigh := toPgNumeric leg.pHigh
        qRate := toPgNumeric leg.qRate
        qMax := toPgNumeric leg.qMax
        filledCum := toPgNumeric leg.filledCum
        venuePreferences
        status := "active" }
  else none

/-- The decimals of a constraint that are printed into its row, and those in its object,
which need a text only. -/
def MultiLegConstraint.Prints (c : MultiLegConstraint) : Prop :=
  (∀ d ∈ c.lower.toList ++ c.upper.toList ++ c.value.toList, Matching.Prints d) ∧
    ∀ e ∈ c.coefficients.entries, pow10I e.2.scale ≠ 0
deriving Decidable

def comboConstraintRow (parentOrderId : String) (c : MultiLegConstraint) :
    Option ComboConstraintRow := do
  let coefficients ← objectMembers (coefficientsJson c.coefficients)
  if c.Prints then
    some
      { parentOrderId
        constraintType := constraintTypeDb c.type
        coefficients
        lowerBound := c.lower.map toPgNumeric
        upperBound := c.upper.map toPgNumeric
        value := c.value.map toPgNumeric
        valueBps := c.valueBps
        severity := severityDb c.severity }
  else none

def insertLeg (parentOrderId : String) (t : ComboTables) (leg : Leg) : Option ComboTables := do
  let row ← comboLegRow parentOrderId leg
  if row.checked then some { t with legs := insertNew t.legs leg.legId row } else none

def insertConstraint (parentOrderId : String) (t : ComboTables) (c : MultiLegConstraint) :
    Option ComboTables := do
  let row ← comboConstraintRow parentOrderId c
  some { t with constraints := insertNew t.constraints c.constraintId row }

/-- `PostgresComboOrderRepository::InsertComboOrder` without the rows of the links. -/
def insertComboOrder (combo : ComboOrder) (t : ComboTables) : Option ComboTables :=
  if combo.validate.isSome then none
  else do
    let row ← comboOrderRow combo
    if row.checked then
      let withParent :=
        { t with comboOrders := insertNew t.comboOrders combo.comboOrderId row }
      let withLegs ← combo.legs.foldlM (insertLeg combo.comboOrderId) withParent
      combo.constraints.foldlM (insertConstraint combo.comboOrderId) withLegs
    else none

/-- The order of a leg: its instrument has a symbol, but no base and no quote. -/
def legOrder (userId : String) (leg : Leg) : ProtoFlowOrder where
  orderId := leg.legId
  userId
  instrument := { symbol := leg.instrumentSymbol, base := "", quote := "" }
  side := leg.side
  priceLow := some leg.pLow
  priceHigh := some leg.pHigh
  maxSpeed := some leg.qRate
  totalQty := some leg.qMax
  remainingQty := some leg.remainingQty
  tif := .gtc

/-- `OrdersNormalizedGroupedProducer::PublishOrchestration`: one create event for each
leg; `none` when it throws. -/
def publishOrchestration (combo : ComboOrder) (userId : String) : Option (List OrderEvent) :=
  if combo.executionMode ≠ .orchestrationOnly ∨ combo.validate.isSome then none
  else some (combo.legs.map (fun leg => .create (legOrder userId leg)))

/-- What a combo create depends on beside the state: the drawn ids, the answer of the
group risk check (`some` is a reject with its reason), the policy and the database. -/
structure ComboEnv where
  ids : Uuids
  riskReject : ComboOrder → Option String := fun _ => none
  policy : ComboPolicy := {}
  databaseUp : Bool := true

/-- `CreateComboOrderUseCase`: the ids of the requests of a client, and the tables. -/
structure ComboService where
  idempotency : Table String String := ∅
  tables : ComboTables := {}

structure CreateComboOrderResponse where
  accepted : Bool
  comboId : String := ""
  rejected : Bool := false
  error : Option LedgerError := none
  legOrderIds : List String := []
  ratioGuaranteed : Bool := false
  executionGuarantees : String := ""

/-- `SetGuarantees`: what mode, scope and type of a combo guarantee. -/
def CreateComboOrderResponse.setGuarantees (resp : CreateComboOrderResponse)
    (req : CreateComboOrderRequest) : CreateComboOrderResponse :=
  if req.executionMode = .orchestrationOnly then
    { resp with
      ratioGuaranteed := false
      executionGuarantees :=
        "orchestration_only: ноги исполняются независимо; ratio/weights/spread НЕ гарантируются" }
  else if req.comboType = .oco then
    { resp with
      ratioGuaranteed := false
      executionGuarantees :=
        "OCO eventual: исполняется одна ветвь, сиблинги отменяются; возможно частичное " ++
          "исполнение нескольких ветвей до отмены (best_effort)" }
  else if req.comboType = .bracket then
    { resp with
      ratioGuaranteed := false
      executionGuarantees :=
        "bracket: TP/SL exits активируются после заполнения entry; не ratio-locked" }
  else if req.comboType = .conditional then
    { resp with
      ratioGuaranteed := false
      executionGuarantees :=
        "conditional: активация по триггеру; гарантии зависят от условия (MVP)" }
  else if req.atomicityScope = .externalCompensating then
    { resp with
      ratioGuaranteed := false
      executionGuarantees :=
        "external_compensating: исполнение НЕ атомарно; возможна компенсирующая транзакция" }
  else
    { resp with
      ratioGuaranteed := true
      executionGuarantees :=
        "multileg_vector_solver: ratio/weights гарантируются в пределах policy/tolerance" }

/-- A combo create: the state afterwards, the response, which is missing when an
exception leaves the call, and the published events. -/
structure ComboAnswer where
  state : ComboService
  response : Option CreateComboOrderResponse
  published : List OrderEvent := []

def refuseCombo (s : ComboService) (code message : String) : ComboAnswer :=
  { state := s
    response := some { accepted := false, rejected := true, error := some { code, message } } }

/-- The steps after the risk check: the rows, the events, the id of the request. -/
def placeCombo (env : ComboEnv) (s : ComboService) (req : CreateComboOrderRequest)
    (combo : ComboOrder) : ComboAnswer :=
  match (if env.databaseUp then insertComboOrder combo s.tables else none) with
  | none => { state := s, response := none }
  | some tables =>
      let events :=
        if combo.executionMode = .orchestrationOnly then
          (publishOrchestration combo req.userId).getD []
        else []
      { state :=
          { tables
            idempotency :=
              if req.clientComboId = "" then s.idempotency
              else s.idempotency.insert req.clientComboId combo.comboOrderId }
        response := some
          (CreateComboOrderResponse.setGuarantees
            { accepted := true
              comboId := combo.comboOrderId
              legOrderIds := combo.legs.map Leg.legId }
            req)
        published := events }

/-- `CreateComboOrderUseCase::Execute`. -/
def executeCombo (env : ComboEnv) (s : ComboService) (req : CreateComboOrderRequest) :
    ComboAnswer :=
  match (if req.clientComboId = "" then none else s.idempotency.lookup req.clientComboId) with
  | some comboId =>
      { state := s
        response := some
          (CreateComboOrderResponse.setGuarantees { accepted := true, comboId } req) }
  | none =>
      let combo := buildDomain env.ids req
      match combo.validate with
      | some err => refuseCombo s err.code err.message
      | none =>
          match env.policy.checkCreate combo with
          | some err => refuseCombo s err.code err.message
          | none =>
              match env.riskReject combo with
              | some reason =>
                  refuseCombo s "RISK_REJECTED"
                    (if reason = "" then "grouped pre-trade risk rejected" else reason)
              | none => placeCombo env s req combo

end OrderFlow
end ContExchange
