import ContExchange.OrderFlow.FlowOrders

/-!
# Order flow: combo orders

The domain layer of the combo orders: a `ComboOrder` with its legs, constraints and
conditional links, the checks of `validate` and of the `ComboPolicy`, and `BuildDomain`,
which makes a combo of a request.

Ids that the request leaves open are drawn by `uuid_v4`; the drawn ids are a parameter
(`Uuids`).  The coefficients of a constraint are decimals here: they come from doubles
of the request, which are not modelled.
-/

namespace ContExchange
namespace OrderFlow

open Common Lib

inductive ExecutionMode where
  | unspecified
  | orchestrationOnly
  | multilegVectorSolver
deriving DecidableEq

inductive AtomicityPolicy where
  | unspecified
  | strictAtomic
  | scalableAtomic
  | bestEffort
  | sequentialFallback
  | externalCompensating
deriving DecidableEq

inductive AtomicityScope where
  | unspecified
  | internalBatch
  | venueNative
  | externalCompensating
  | none
deriving DecidableEq

inductive ComboType where
  | unspecified
  | pair
  | basket
  | spread
  | conditional
  | oco
  | bracket
  | factor
  | budget
deriving DecidableEq

inductive RatioBasis where
  | unspecified
  | notionalWeight
  | quantityRatio
deriving DecidableEq

inductive FallbackPolicy where
  | unspecified
  | scaleDown
  | waitNextBatch
  | cancel
  | degrade
  | compensate
deriving DecidableEq

inductive ConstraintType where
  | maxWeightDeviation
  | maxTotalNotional
  | spreadRange
  | factorNeutrality
  | maxLeverage
  | maxMargin
  | riskLimit
  | ratioEquality
deriving DecidableEq

inductive ConstraintSeverity where
  | hard
  | soft
deriving DecidableEq

inductive ConditionalLinkType where
  | oco
  | bracket
  | conditional
deriving DecidableEq

structure DomainError where
  code : String
  message : String
deriving DecidableEq

structure Leg where
  legId : String
  instrumentSymbol : String
  side : Side
  ratio : Option Decimal
  weight : Option Decimal
  ratioBasis : RatioBasis
  pLow : Decimal
  pHigh : Decimal
  qRate : Decimal
  qMax : Decimal
  filledCum : Decimal
  venuePreferences : List String

structure MultiLegConstraint where
  constraintId : String
  type : ConstraintType
  coefficients : Table String Decimal
  lower : Option Decimal
  upper : Option Decimal
  value : Option Decimal := none
  valueBps : Option Int := none
  severity : ConstraintSeverity

structure ConditionalLink where
  linkId : String
  fromLegId : String
  toLegId : String
  type : ConditionalLinkType
  conditionJson : String

structure ComboOrder where
  comboOrderId : String
  userId : String
  accountId : String
  comboType : ComboType
  executionMode : ExecutionMode
  atomicityPolicy : AtomicityPolicy
  atomicityScope : AtomicityScope
  fallbackPolicy : FallbackPolicy
  ratioBasis : RatioBasis
  minExecutionScale : Option Decimal
  maxRatioDeviationBps : Option Int
  legs : List Leg
  constraints : List MultiLegConstraint
  conditionalLinks : List ConditionalLink

def Leg.remainingQty (leg : Leg) : Decimal :=
  let remaining := Decimal.sub leg.qMax leg.filledCum
  if Decimal.cmp remaining Decimal.zero < 0 then Decimal.zero else remaining

/-- `Leg::validate`: the first check that fails. -/
def Leg.validate (leg : Leg) : Option DomainError :=
  if leg.instrumentSymbol = "" then
    some { code := "LEG_INSTRUMENT_EMPTY", message := "leg instrument_symbol is empty" }
  else if leg.side = .unspecified then
    some { code := "LEG_SIDE_UNSPECIFIED", message := "leg side is unspecified" }
  else if leg.ratio.isSome = leg.weight.isSome then
    some
      { code := "LEG_RATIO_XOR_WEIGHT"
        message := "exactly one of \x7bratio, weight\x7d must be set" }
  else if ¬ Decimal.cmp leg.pLow Decimal.zero > 0 then
    some { code := "LEG_PRICE_RANGE", message := "p_low must be > 0" }
  else if Decimal.cmp leg.pHigh leg.pLow < 0 then
    some { code := "LEG_PRICE_RANGE", message := "p_high must be >= p_low" }
  else if ¬ Decimal.cmp leg.qRate Decimal.zero > 0 then
    some { code := "LEG_Q_RATE", message := "q_rate must be > 0" }
  else if ¬ Decimal.cmp leg.qMax Decimal.zero > 0 then
    some { code := "LEG_Q_MAX", message := "q_max must be > 0" }
  else if ¬ Decimal.cmp leg.filledCum Decimal.zero ≥ 0 then
    some { code := "LEG_FILLED_CUM", message := "filled_cum must be >= 0" }
  else if ¬ Decimal.cmp leg.filledCum leg.qMax ≤ 0 then
    some
      { code := "LEG_FILLED_CUM_EXCEEDS_QMAX", message := "filled_cum must be <= q_max" }
  else none

/-- The check of `MultiLegConstraint::validate` that depends on the type. -/
def MultiLegConstraint.validateType (c : MultiLegConstraint) : Option DomainError :=
  match c.type with
  | .spreadRange =>
      match c.lower, c.upper with
      | some lower, some upper =>
          if Decimal.cmp lower upper > 0 then
            some { code := "CONSTRAINT_SPREAD_BOUNDS", message := "lower must be <= upper" }
          else none
      | _, _ =>
          some
            { code := "CONSTRAINT_SPREAD_BOUNDS"
              message := "spread_range requires lower and upper" }
  | .maxTotalNotional =>
      if c.value.any (fun v => decide (Decimal.cmp v Decimal.zero > 0)) then none
      else
        some
          { code := "CONSTRAINT_NOTIONAL_VALUE"
            message := "max_total_notional requires value > 0" }
  | _ => none

def MultiLegConstraint.validate (c : MultiLegConstraint) : Option DomainError :=
  if c.constraintId = "" then
    some { code := "CONSTRAINT_ID_EMPTY", message := "constraint_id is empty" }
  else if c.value.any (fun v => decide (Decimal.cmp v Decimal.zero < 0)) then
    some { code := "CONSTRAINT_VALUE_NEGATIVE", message := "constraint value must be >= 0" }
  else if c.valueBps.any (fun bps => decide (bps < 0)) then
    some { code := "CONSTRAINT_VALUE_BPS_NEGATIVE", message := "value_bps must be >= 0" }
  else c.validateType

def ConditionalLink.validate (link : ConditionalLink) : Option DomainError :=
  if link.linkId = "" then some { code := "LINK_ID_EMPTY", message := "link_id is empty" }
  else if link.fromLegId = "" ∨ link.toLegId = "" then
    some { code := "LINK_LEG_EMPTY", message := "from_leg_id/to_leg_id must be set" }
  else if link.fromLegId = link.toLegId then
    some { code := "LINK_SELF_LOOP", message := "from_leg_id must differ from to_leg_id" }
  else none

/-- The checks of `ComboOrder::validate` on the group as a whole. -/
def ComboOrder.validateGroup (combo : ComboOrder) : Option DomainError :=
  if combo.executionMode = .multilegVectorSolver ∧ combo.atomicityPolicy = .unspecified then
    some
      { code := "COMBO_POLICY_REQUIRED"
        message := "multileg_vector_solver requires atomicity_policy" }
  else if combo.atomicityPolicy = .strictAtomic ∧
      combo.atomicityScope = .externalCompensating then
    some
      { code := "COMBO_STRICT_EXTERNAL_SCOPE"
        message := "strict_atomic incompatible with external_compensating scope" }
  else if combo.minExecutionScale.any (fun s =>
      decide (¬ Decimal.cmp s Decimal.zero ≥ 0 ∨ Decimal.cmp s (Decimal.of 1 0) > 0)) then
    some
      { code := "COMBO_MIN_SCALE_RANGE", message := "min_execution_scale must be in [0, 1]" }
  else if combo.maxRatioDeviationBps.any (fun bps => decide (bps < 0)) then
    some
      { code := "COMBO_RATIO_DEV_NEGATIVE", message := "max_ratio_deviation_bps must be >= 0" }
  else none

def ComboOrder.validate (combo : ComboOrder) : Option DomainError :=
  if combo.comboOrderId = "" then
    some { code := "COMBO_ID_EMPTY", message := "combo_order_id is empty" }
  else if combo.executionMode = .unspecified then
    some { code := "COMBO_MODE_UNSPECIFIED", message := "execution_mode is unspecified" }
  else if combo.legs.length < 2 then
    some { code := "COMBO_TOO_FEW_LEGS", message := "combo requires at least 2 legs" }
  else
    (combo.legs.findSome? Leg.validate).or
      ((combo.constraints.findSome? MultiLegConstraint.validate).or
        ((combo.conditionalLinks.findSome? ConditionalLink.validate).or combo.validateGroup))

structure ComboPolicy where
  groupedOrdersEnabled : Bool := true
  multilegVectorSolverEnabled : Bool := true
  externalCompensatingEnabled : Bool := false
  maxLegsPerGroup : Int := 8
  allowedComboTypes : List ComboType := []
  allowedAtomicityPolicies : List AtomicityPolicy := []

def ComboPolicy.checkCreate (p : ComboPolicy) (combo : ComboOrder) : Option DomainError :=
  if !p.groupedOrdersEnabled then
    some { code := "COMBO_DISABLED", message := "grouped/combo orders are disabled by policy" }
  else if combo.executionMode = .multilegVectorSolver ∧ !p.multilegVectorSolverEnabled then
    some
      { code := "COMBO_MULTILEG_DISABLED"
        message := "multileg_vector_solver mode is disabled by policy" }
  else if combo.atomicityScope = .externalCompensating ∧ !p.externalCompensatingEnabled then
    some
      { code := "COMBO_EXTERNAL_COMP_DISABLED"
        message := "external_compensating scope is disabled by policy" }
  else if (combo.legs.length : Int) > p.maxLegsPerGroup then
    some { code := "COMBO_TOO_MANY_LEGS", message := "legs exceed maxLegsPerGroup" }
  else if p.allowedComboTypes ≠ [] ∧ combo.comboType ∉ p.allowedComboTypes then
    some { code := "COMBO_TYPE_NOT_ALLOWED", message := "combo_type not in allowedComboTypes" }
  else if p.allowedAtomicityPolicies ≠ [] ∧
      combo.atomicityPolicy ∉ p.allowedAtomicityPolicies then
    some
      { code := "COMBO_POLICY_NOT_ALLOWED"
        message := "atomicity_policy not in allowedAtomicityPolicies" }
  else none

/-- `fob.orders.v1.Leg`. -/
structure ProtoLeg where
  legId : String := ""
  instrument : Instrument
  side : Side
  ratio : Option Decimal := none
  weight : Option Decimal := none
  priceLow : Option Decimal := none
  priceHigh : Option Decimal := none
  maxRate : Option Decimal := none
  maxQty : Option Decimal := none
  venuePreferences : List String := []

/-- `fob.orders.v1.MultiLegConstraint`. -/
structure ProtoConstraint where
  constraintId : String := ""
  constraintType : String
  coefficients : Table String Decimal := ∅
  lowerBound : Option Decimal := none
  upperBound : Option Decimal := none
  soft : Bool := false

/-- `fob.orders.v1.ConditionalLink`. -/
structure ProtoLink where
  linkId : String := ""
  sourceRef : String
  targetRef : String
  linkType : ConditionalLinkType
  triggerCondition : String := ""

structure CreateComboOrderRequest where
  clientComboId : String := ""
  userId : String
  accountId : String := ""
  comboType : ComboType
  executionMode : ExecutionMode
  atomicityPolicy : AtomicityPolicy := .unspecified
  atomicityScope : AtomicityScope := .unspecified
  fallbackPolicy : String := ""
  ratioBasis : RatioBasis := .unspecified
  minExecutionScale : Option Decimal := none
  maxRatioDeviationBps : Nat := 0
  legs : List ProtoLeg
  constraints : List ProtoConstraint := []
  graphLinks : List ProtoLink := []

/-- The ids that `uuid_v4` draws for a combo. -/
structure Uuids where
  combo : String
  leg : Nat → String
  constraint : Nat → String
  link : Nat → String

def mapFallback (f : String) : FallbackPolicy :=
  if f = "scale_down" then .scaleDown
  else if f = "skip_batch" then .waitNextBatch
  else if f = "cancel_group" ∨ f = "cancel" then .cancel
  else if f = "best_effort" then .degrade
  else if f = "compensate" then .compensate
  else .scaleDown

def mapConstraintType (t : String) : ConstraintType :=
  if t = "max_weight_deviation" then .maxWeightDeviation
  else if t = "spread_range" then .spreadRange
  else if t = "factor_neutrality" then .factorNeutrality
  else if t = "ratio_eq" ∨ t = "ratio_equality" then .ratioEquality
  else if t = "margin_cap" ∨ t = "max_margin" then .maxMargin
  else .maxTotalNotional

def idOr (id drawn : String) : String :=
  if id = "" then drawn else id

/-- A conversion to `int32`. -/
def int32OfUint32 (n : Nat) : Int :=
  if n % 2 ^ 32 < 2 ^ 31 then n % 2 ^ 32 else n % 2 ^ 32 - 2 ^ 32

/-- A leg of the domain: nothing filled yet. -/
def buildLeg (basis : RatioBasis) (drawn : String) (p : ProtoLeg) : Leg where
  legId := idOr p.legId drawn
  instrumentSymbol := Matching.instrumentSymbol p.instrument
  side := p.side
  ratio := p.ratio
  weight := p.weight
  ratioBasis := basis
  pLow := p.priceLow.getD Decimal.zero
  pHigh := p.priceHigh.getD Decimal.zero
  qRate := p.maxRate.getD Decimal.zero
  qMax := p.maxQty.getD Decimal.zero
  filledCum := Decimal.zero
  venuePreferences := p.venuePreferences

/-- A constraint of the domain; `value` and `value_bps` are not set. -/
def buildConstraint (drawn : String) (p : ProtoConstraint) : MultiLegConstraint where
  constraintId := idOr p.constraintId drawn
  type := mapConstraintType p.constraintType
  coefficients := p.coefficients
  lower := p.lowerBound
  upper := p.upperBound
  severity := if p.soft then .soft else .hard

def buildLink (drawn : String) (p : ProtoLink) : ConditionalLink where
  linkId := idOr p.linkId drawn
  fromLegId := p.sourceRef
  toLegId := p.targetRef
  type := p.linkType
  conditionJson := p.triggerCondition

def buildDomain (ids : Uuids) (req : CreateComboOrderRequest) : ComboOrder where
  comboOrderId := ids.combo
  userId := req.userId
  accountId := req.accountId
  comboType := req.comboType
  executionMode := req.executionMode
  atomicityPolicy := req.atomicityPolicy
  atomicityScope := req.atomicityScope
  fallbackPolicy := mapFallback req.fallbackPolicy
  ratioBasis := req.ratioBasis
  minExecutionScale := req.minExecutionScale
  maxRatioDeviationBps :=
    if req.maxRatioDeviationBps = 0 then none
    else some (int32OfUint32 req.maxRatioDeviationBps)
  legs := req.legs.mapIdx (fun i p => buildLeg req.ratioBasis (ids.leg i) p)
  constraints := req.constraints.mapIdx (fun i p => buildConstraint (ids.constraint i) p)
  conditionalLinks := req.graphLinks.mapIdx (fun i p => buildLink (ids.link i) p)

end OrderFlow
end ContExchange
