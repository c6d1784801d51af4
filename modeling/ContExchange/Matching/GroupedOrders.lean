import ContExchange.Common.Messages

/-!
# Matching: the grouped solver

Combo orders in `multileg_vector_solver` mode are cleared as groups.
`ComputeFeasibleCaps` says how much of each leg can trade in a batch,
`GroupedSolverBisection::Solve` finds the group unit that all legs can keep and what
the policy of the group makes of it, and `EvaluateConstraints` checks the group
constraints at the result.  `SolveGroupedBatchUseCase::Execute` does this for every
active group.

`solve_legExecs` says when a group trades and how much of each leg.
-/

namespace ContExchange
namespace Matching

open Common Lib

inductive GroupConstraintType where
  | spreadRange
  | factorNeutrality
  | maxTotalNotional
  | other
deriving DecidableEq

inductive GroupConstraintSeverity where
  | hard
  | soft
deriving DecidableEq

structure GroupConstraint where
  constraintId : String
  type : GroupConstraintType
  coefficients : Table String Decimal
  lower : Option Decimal
  upper : Option Decimal
  severity : GroupConstraintSeverity

inductive GroupAtomicityPolicy where
  | strictAtomic
  | scalableAtomic
  | bestEffort
  | sequentialFallback
  | externalCompensating
deriving DecidableEq

inductive GroupFallbackPolicy where
  | scaleDown
  | waitNextBatch
  | cancel
  | degrade
  | compensate
deriving DecidableEq

structure VectorLeg where
  legId : String
  instrumentSymbol : String
  targetRatio : Decimal
  pLow : Decimal
  pHigh : Decimal
  qRate : Decimal
  qMax : Decimal
  filledCum : Decimal
  qLiq : Option Decimal := none
  qRisk : Option Decimal := none
  qVenue : Option Decimal := none
  venuePreferences : List String := []
deriving DecidableEq

def VectorLeg.remainingQty (leg : VectorLeg) : Decimal :=
  let remaining := Decimal.sub leg.qMax leg.filledCum
  let zero := Decimal.zeroAt remaining.scale
  if Decimal.cmp remaining zero < 0 then zero else remaining

def VectorLeg.absRatio (leg : VectorLeg) : Decimal :=
  let zero := Decimal.zeroAt leg.targetRatio.scale
  if Decimal.cmp leg.targetRatio zero < 0 then Decimal.sub zero leg.targetRatio
  else leg.targetRatio

def VectorLeg.isExternal (leg : VectorLeg) : Bool :=
  decide (leg.venuePreferences ≠ [] ∧ "internal" ∉ leg.venuePreferences)

structure MultiLegVectorOrder where
  parentOrderId : String
  userId : String
  legs : List VectorLeg
  atomicityPolicy : GroupAtomicityPolicy
  fallbackPolicy : GroupFallbackPolicy
  minExecutionScale : Decimal
  maxRatioDeviationBps : Int
  constraints : List GroupConstraint

abbrev ReferencePrices : Type := Table String Decimal

structure FeasibleCap where
  instrumentSymbol : String
  cap : Decimal
  bindingFactor : String
deriving DecidableEq

/-- `ConsiderCap`: a smaller candidate replaces the cap. -/
def considerCap (candidate : Decimal) (name : String) (cap : Decimal × String) :
    Decimal × String :=
  if Decimal.cmp candidate cap.1 < 0 then (candidate, name) else cap

/-- `ConsiderCap` for a cap that may be missing. -/
def considerOptional (candidate : Option Decimal) (name : String) (cap : Decimal × String) :
    Decimal × String :=
  match candidate with
  | none => cap
  | some c => considerCap c name cap

def VectorLeg.feasibleCap (leg : VectorLeg) : FeasibleCap :=
  let rate := considerCap leg.qRate "rate" (leg.remainingQty, "remaining")
  let liq := considerOptional leg.qLiq "liq" rate
  let risk := considerOptional leg.qRisk "risk" liq
  let venue := considerOptional leg.qVenue "venue" risk
  { instrumentSymbol := leg.instrumentSymbol, cap := venue.1, bindingFactor := venue.2 }

/-- `ComputeFeasibleCaps`; the prices are not used. -/
def computeFeasibleCaps (order : MultiLegVectorOrder) : List FeasibleCap :=
  order.legs.map VectorLeg.feasibleCap

structure LegExec where
  legId : String
  instrumentSymbol : String
  executedQty : Decimal
  targetRatio : Decimal
deriving DecidableEq

inductive GroupExecStatus where
  | fullyExecuted
  | scaled
  | blocked
  | degraded
deriving DecidableEq

structure GroupedSolveResult where
  executionScale : Decimal := Decimal.zero
  legExecs : List LegExec := []
  violatedConstraints : List String := []
  fallbackAction : String := "none"
  status : GroupExecStatus := .blocked
  bindingLeg : String := ""
deriving DecidableEq

/-- The decimal `Decimal{1, 0}`. -/
def oneDecimal : Decimal := Decimal.of 1 0

def clamp01 (a : Decimal) : Decimal :=
  if Decimal.cmp a Decimal.zero < 0 then Decimal.zero
  else if Decimal.cmp a oneDecimal > 0 then oneDecimal
  else a

def fallbackActionStr : GroupFallbackPolicy → String
  | .scaleDown => "scale_down"
  | .waitNextBatch => "wait_next_batch"
  | .cancel => "cancel"
  | .degrade => "degrade"
  | .compensate => "compensate"

/-- `cap_by_sym`: the last cap of a symbol. -/
def capBySym (caps : List FeasibleCap) : Table String Decimal :=
  caps.foldl (fun t fc => t.insert fc.instrumentSymbol fc.cap) ∅

def capOf (caps : List FeasibleCap) (leg : VectorLeg) : Decimal :=
  ((capBySym caps).lookup leg.instrumentSymbol).getD leg.remainingQty

def VectorLeg.hasRatio (leg : VectorLeg) : Bool :=
  decide (Decimal.cmp leg.absRatio Decimal.zero ≠ 0)

/-- The group units that the loop over the legs finds. -/
structure GroupUnits where
  feasible : Decimal
  feasibleMax : Decimal
  desired : Decimal
  bindingLeg : String
deriving DecidableEq

/-- One round of the loop; `none` before the first leg with a ratio.  The ratio is not
zero where the quotients are taken. -/
def groupUnitsStep (caps : List FeasibleCap) (units : Option GroupUnits) (leg : VectorLeg) :
    Option GroupUnits :=
  if leg.hasRatio then
    let gi := Decimal.divUnits (capOf caps leg) leg.absRatio 12
    let di := Decimal.divUnits leg.remainingQty leg.absRatio 12
    match units with
    | none =>
        some
          { feasible := gi
            feasibleMax := gi
            desired := di
            bindingLeg := leg.instrumentSymbol }
    | some u =>
        some
          { feasible := if Decimal.cmp gi u.feasible < 0 then gi else u.feasible
            feasibleMax := if Decimal.cmp gi u.feasibleMax > 0 then gi else u.feasibleMax
            desired := if Decimal.cmp di u.desired < 0 then di else u.desired
            bindingLeg :=
              if Decimal.cmp gi u.feasible < 0 then leg.instrumentSymbol else u.bindingLeg }
  else units

/-- The loop over the legs. -/
def groupUnits (caps : List FeasibleCap) (legs : List VectorLeg) : Option GroupUnits :=
  legs.foldl (groupUnitsStep caps) none

/-- The scale of a group: feasible over desired, between zero and one. -/
def executionScale (units : GroupUnits) : Decimal :=
  if Decimal.cmp units.desired Decimal.zero > 0 then
    clamp01 (Decimal.divUnits units.feasible units.desired 6)
  else Decimal.zero

/-- The execution of a leg with a quantity. -/
def VectorLeg.exec (leg : VectorLeg) (qty : Decimal) : LegExec where
  legId := leg.legId
  instrumentSymbol := leg.instrumentSymbol
  executedQty := qty
  targetRatio := leg.targetRatio

/-- The result of a `best_effort` group: every leg up to its cap. -/
def solveBestEffort (order : MultiLegVectorOrder) (caps : List FeasibleCap) (units : GroupUnits) :
    GroupedSolveResult :=
  let unequal := decide (Decimal.cmp units.feasible units.feasibleMax ≠ 0)
  { executionScale := executionScale units
    legExecs := (order.legs.filter VectorLeg.hasRatio).map (fun leg => leg.exec (capOf caps leg))
    violatedConstraints := if unequal then ["ratio_deviation"] else []
    status := if unequal then .degraded else .fullyExecuted
    bindingLeg := units.bindingLeg }

/-- What the policy decides for a group that keeps its ratios: the group unit to
execute, the status, the scale and the violations. -/
structure PolicyDecision where
  gExec : Decimal := Decimal.zero
  status : GroupExecStatus := .blocked
  scale : Decimal
  violated : List String := []

/-- The `switch` over the policies. -/
def policyDecision (order : MultiLegVectorOrder) (units : GroupUnits) : PolicyDecision :=
  let alpha := executionScale units
  match order.atomicityPolicy with
  | .strictAtomic =>
      if Decimal.cmp units.feasible units.desired < 0 then { scale := alpha }
      else { gExec := units.feasible, status := .fullyExecuted, scale := oneDecimal }
  | .scalableAtomic =>
      if Decimal.cmp alpha order.minExecutionScale < 0 then { scale := alpha }
      else
        { gExec := units.feasible
          status := if Decimal.cmp alpha oneDecimal ≥ 0 then .fullyExecuted else .scaled
          scale := alpha }
  | _ => { scale := alpha, violated := ["policy_not_implemented_mvp2"] }

/-- The quantity of a leg at a group unit, not above its cap. -/
def ratioQty (caps : List FeasibleCap) (gExec : Decimal) (leg : VectorLeg) : Decimal :=
  Decimal.min (Decimal.mul gExec leg.absRatio) (capOf caps leg)

/-- The result of a group that keeps its ratios. -/
def solveRatio (order : MultiLegVectorOrder) (caps : List FeasibleCap) (units : GroupUnits) :
    GroupedSolveResult :=
  let d := policyDecision order units
  if Decimal.cmp d.gExec Decimal.zero > 0 then
    { executionScale := d.scale
      legExecs := (order.legs.filter VectorLeg.hasRatio).map
        (fun leg => leg.exec (ratioQty caps d.gExec leg))
      violatedConstraints := d.violated
      status := d.status
      bindingLeg := units.bindingLeg }
  else
    { executionScale := Decimal.zero
      violatedConstraints := d.violated
      fallbackAction := fallbackActionStr order.fallbackPolicy
      status := d.status
      bindingLeg := units.bindingLeg }

def GroupedSolverBisection.solve (order : MultiLegVectorOrder) (caps : List FeasibleCap) :
    GroupedSolveResult :=
  match groupUnits caps order.legs with
  | none => {}
  | some units =>
      if order.atomicityPolicy = .bestEffort then solveBestEffort order caps units
      else solveRatio order caps units

/-- `PriceOf`: zero for a symbol without a price. -/
def priceOf (prices : ReferencePrices) (symbol : String) : Decimal :=
  (prices.lookup symbol).getD Decimal.zero

/-- `Abs`. -/
def absValue (d : Decimal) : Decimal :=
  if Decimal.cmp d Decimal.zero < 0 then Decimal.sub Decimal.zero d else d

def LegExec.signedExec (e : LegExec) : Decimal :=
  if Decimal.cmp e.targetRatio Decimal.zero < 0 then Decimal.sub Decimal.zero e.executedQty
  else e.executedQty

def constraintValue (c : GroupConstraint) (execs : List LegExec) (prices : ReferencePrices) :
    Decimal :=
  match c.type with
  | .maxTotalNotional =>
      execs.foldl
        (fun value e =>
          Decimal.add value
            (absValue (Decimal.mul e.executedQty (priceOf prices e.instrumentSymbol))))
        Decimal.zero
  | type =>
      let signed : Table String Decimal :=
        execs.foldl (fun t e => t.insert e.instrumentSymbol e.signedExec) ∅
      c.coefficients.entries.foldl
        (fun value entry =>
          let x :=
            if type = .spreadRange then priceOf prices entry.1
            else (signed.lookup entry.1).getD Decimal.zero
          Decimal.add value (Decimal.mul entry.2 x))
        Decimal.zero

structure ConstraintViolation where
  constraintId : String
  type : GroupConstraintType
  value : Decimal
  hard : Bool
deriving DecidableEq

def GroupConstraint.violation (execs : List LegExec) (prices : ReferencePrices)
    (c : GroupConstraint) : Option ConstraintViolation :=
  if c.type = .other then none
  else
    let value := constraintValue c execs prices
    if c.lower.any (fun l => decide (Decimal.cmp value l < 0)) ∨
        c.upper.any (fun u => decide (Decimal.cmp value u > 0)) then
      some
        { constraintId := c.constraintId
          type := c.type
          value
          hard := decide (c.severity = .hard) }
    else none

def evaluateConstraints (constraints : List GroupConstraint) (execs : List LegExec)
    (prices : ReferencePrices) : List ConstraintViolation :=
  constraints.filterMap (GroupConstraint.violation execs prices)

structure GroupBatchResult where
  parentOrderId : String
  solve : GroupedSolveResult
deriving DecidableEq

/-- The constraints of a group at what the solver wants to execute: a hard violation
blocks the group, a soft one degrades it. -/
def applyConstraints (group : MultiLegVectorOrder) (prices : ReferencePrices)
    (r : GroupedSolveResult) : GroupedSolveResult :=
  if group.constraints ≠ [] ∧ r.legExecs ≠ [] then
    let violations := evaluateConstraints group.constraints r.legExecs prices
    let noted :=
      { r with
        violatedConstraints :=
          r.violatedConstraints ++ violations.map ConstraintViolation.constraintId }
    if violations.any ConstraintViolation.hard then
      { noted with legExecs := [], executionScale := Decimal.zero, status := .blocked }
    else if violations ≠ [] then { noted with status := .degraded }
    else noted
  else r

/-- The round of `Execute` for a group. -/
def solveGroup (prices : ReferencePrices) (group : MultiLegVectorOrder) : GroupBatchResult where
  parentOrderId := group.parentOrderId
  solve := applyConstraints group prices
    (GroupedSolverBisection.solve group (computeFeasibleCaps group))

/-- `SolveGroupedBatchUseCase::Execute`. -/
def executeGroups (groups : List MultiLegVectorOrder) (prices : ReferencePrices) :
    List GroupBatchResult :=
  groups.map (solveGroup prices)

/-- The policy lets the group trade: `best_effort` whenever some leg has a ratio, the
policies that keep the ratios when the group unit to execute is positive. -/
def MultiLegVectorOrder.Trades (order : MultiLegVectorOrder) : Prop :=
  ∃ units, groupUnits (computeFeasibleCaps order) order.legs = some units ∧
    (order.atomicityPolicy = .bestEffort ∨
      Decimal.cmp (policyDecision order units).gExec Decimal.zero > 0)

/-- The quantity of a leg when its group trades. -/
def MultiLegVectorOrder.tradeQty (order : MultiLegVectorOrder) (leg : VectorLeg) : Decimal :=
  match groupUnits (computeFeasibleCaps order) order.legs with
  | none => Decimal.zero
  | some units =>
      if order.atomicityPolicy = .bestEffort then capOf (computeFeasibleCaps order) leg
      else ratioQty (computeFeasibleCaps order) (policyDecision order units).gExec leg

/-- The executions of the legs when the group trades. -/
def MultiLegVectorOrder.trades (order : MultiLegVectorOrder) : List LegExec :=
  (order.legs.filter VectorLeg.hasRatio).map (fun leg => leg.exec (order.tradeQty leg))

/-- A hard constraint is violated at what the group would trade. -/
def MultiLegVectorOrder.HardViolated (order : MultiLegVectorOrder) (prices : ReferencePrices) :
    Prop :=
  ∃ v ∈ evaluateConstraints order.constraints order.trades prices, v.hard = true

section Solver

variable (order : MultiLegVectorOrder)

theorem solve_legExecs :
    (order.Trades ∧
        (GroupedSolverBisection.solve order (computeFeasibleCaps order)).legExecs = order.trades) ∨
      (¬ order.Trades ∧
        (GroupedSolverBisection.solve order (computeFeasibleCaps order)).legExecs = []) := by
  unfold GroupedSolverBisection.solve MultiLegVectorOrder.Trades MultiLegVectorOrder.trades
    MultiLegVectorOrder.tradeQty
  cases groupUnits (computeFeasibleCaps order) order.legs with
  | none =>
      refine .inr ⟨?_, rfl⟩
      rintro ⟨units, h, -⟩
      cases h
  | some units =>
      by_cases hbest : order.atomicityPolicy = .bestEffort
      · simp only [if_pos hbest]
        exact .inl ⟨⟨units, rfl, .inl hbest⟩, rfl⟩
      · simp only [if_neg hbest]
        unfold solveRatio
        by_cases hpositive : Decimal.cmp (policyDecision order units).gExec .zero > 0
        · refine .inl ⟨⟨units, rfl, .inr hpositive⟩, ?_⟩
          simp only [if_pos hpositive]
        · refine .inr ⟨?_, ?_⟩
          · rintro ⟨units', h, hbest' | hpositive'⟩
            · exact hbest hbest'
            · cases h
              exact hpositive hpositive'
          · simp only [if_neg hpositive]

theorem solveGroup_legExecs (prices : ReferencePrices) :
    (order.Trades ∧ ¬ order.HardViolated prices ∧
        (solveGroup prices order).solve.legExecs = order.trades) ∨
      (¬ (order.Trades ∧ ¬ order.HardViolated prices) ∧
        (solveGroup prices order).solve.legExecs = []) := by
  unfold solveGroup applyConstraints
  dsimp only
  rcases solve_legExecs order with ⟨htrades, hexecs⟩ | ⟨htrades, hexecs⟩
  · rw [hexecs]
    by_cases hchecked : order.constraints ≠ [] ∧ order.trades ≠ []
    · rw [if_pos hchecked]
      have hhard : (evaluateConstraints order.constraints order.trades prices).any
          ConstraintViolation.hard = true ↔ order.HardViolated prices :=
        List.any_eq_true
      by_cases hviolated : order.HardViolated prices
      · rw [if_pos (hhard.mpr hviolated)]
        exact .inr ⟨fun h => h.2 hviolated, rfl⟩
      · rw [if_neg (hhard.not.mpr hviolated)]
        refine .inl ⟨htrades, hviolated, ?_⟩
        split
        · rfl
        · rfl
    · rw [if_neg hchecked]
      by_cases hnone : order.trades = []
      · by_cases hviolated : order.HardViolated prices
        · exact .inr ⟨fun h => h.2 hviolated, by rw [hexecs, hnone]⟩
        · exact .inl ⟨htrades, hviolated, hexecs⟩
      · have hempty : order.constraints = [] := by
          by_contra hsome
          exact hchecked ⟨hsome, hnone⟩
        refine .inl ⟨htrades, ?_, hexecs⟩
        rintro ⟨v, hv, -⟩
        rw [hempty] at hv
        cases hv
  · rw [if_neg (fun h => h.2 hexecs)]
    exact .inr ⟨fun h => htrades h.1, hexecs⟩

end Solver

end Matching
end ContExchange
