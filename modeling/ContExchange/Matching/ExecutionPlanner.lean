import ContExchange.Matching.HedgeChain
import ContExchange.Matching.PlannerCache

/-!
# Matching: the multi-venue plan of a hedge

`BuildMultiVenuePlan` splits a target quantity over the venues in proportion to
their liquidity.  Shares below a threshold are dropped and redistributed, each
quantity is rounded to eight decimals, and what the rounding leaves over is added
to the largest one.  `FanOutIntentByPlan` makes one intent of every allocation.

The shares are doubles; the quantities are decimals.
-/

namespace ContExchange
namespace Matching
namespace Planner

open Common Lib

structure VenueAllocation where
  venueId : String
  qty : Decimal := Decimal.zero
  liquidityUsed : Double := Double.zero
  share : Double := Double.zero
deriving DecidableEq

structure PlanRequest where
  symbol : String
  side : Side := .buy
  targetQty : Decimal := Decimal.zero
  allowedVenues : List String := []
  plannerInputs : List PlannerVenueInput := []

structure PlanConfig where
  minAllocationFraction : Double := Double.ofRat (5 / 100)
  minAllocationAbs : Double := Double.zero

structure PlanResult where
  allocations : List VenueAllocation := []
  rejectReason : String := ""
  feasible : Bool := false
deriving DecidableEq

/-- `DecimalToDouble`: the mantissa times a power of ten. -/
def decimalToDouble (d : Decimal) : Double :=
  (Double.ofRat d.units).mul (Double.ofRat ((10 : ℚ) ^ (-d.scale)))

/-- `std::llround`; a value outside 64 bits gives the smallest mantissa. -/
def llroundDouble : Double → Int
  | .num q => if Int64Fits (llround q) then llround q else int64Min
  | .nan | .inf _ => int64Min

theorem llroundDouble_fits (d : Double) : Int64Fits (max 0 (llroundDouble d)) := by
  have hfits : Int64Fits (llroundDouble d) := by
    unfold llroundDouble
    split
    · split
      · assumption
      · decide
    · decide
    · decide
  unfold Int64Fits int64Min int64Max at *
  omega

/-- `DecimalFromDouble`: eight decimals. -/
def decimalFromDouble (value : Double) : Decimal :=
  if !value.isFinite || value.le Double.zero then Decimal.zero
  else
    let scaled := (List.range 8).foldl (fun scaled _ => scaled.mul (.num 10)) value
    ⟨max 0 (llroundDouble scaled), 8, llroundDouble_fits scaled⟩

def maxQtyOnSide (side : SideLiquidityCurve) : Double :=
  side.qGrid.foldl (fun maxQ q => if q.isFinite && maxQ.lt q then q else maxQ) Double.zero

def sideCurveForIntent (curve : VenueLiquidityCurve) (side : Side) : SideLiquidityCurve :=
  if side = .buy then curve.askCurve else curve.bidCurve

def venueHealthGreen (health : VenueHealth) : Bool :=
  decide (health.routingRecommendation ≠ .block) && decide (health.breakerState ≠ .open)

structure Candidate where
  venueId : String
  liquidity : Double

/-- The candidate of an input, if the input passes the filters and has liquidity. -/
def candidateOf (request : PlanRequest) (input : PlannerVenueInput) : Option Candidate :=
  let liquidity := maxQtyOnSide (sideCurveForIntent input.curve request.side)
  if !input.usable then none
  else if request.allowedVenues ≠ [] ∧ input.venueId ∉ request.allowedVenues then none
  else if input.health.any (fun health => !venueHealthGreen health) then none
  else if !Double.zero.lt liquidity then none
  else some { venueId := input.venueId, liquidity }

def candidates (request : PlanRequest) : List Candidate :=
  request.plannerInputs.filterMap (candidateOf request)

structure Provisional where
  venueId : String
  liquidity : Double
  share : Double
  qty : Double

def totalLiquidity (request : PlanRequest) : Double :=
  (candidates request).foldl (fun total c => total.add c.liquidity) Double.zero

def minAllocThreshold (request : PlanRequest) (config : PlanConfig) : Double :=
  config.minAllocationAbs.max
    (config.minAllocationFraction.mul (decimalToDouble request.targetQty))

/-- The proportional split. -/
def provisional (request : PlanRequest) : List Provisional :=
  (candidates request).map (fun c =>
    let share := c.liquidity.div (totalLiquidity request)
    { venueId := c.venueId
      liquidity := c.liquidity
      share
      qty := share.mul (decimalToDouble request.targetQty) })

/-- The test of a share that is too small. -/
def belowThreshold (request : PlanRequest) (config : PlanConfig) (p : Provisional) : Bool :=
  p.qty.lt (minAllocThreshold request config)

def droppedShare (request : PlanRequest) (config : PlanConfig) : Double :=
  ((provisional request).filter (belowThreshold request config)).foldl
    (fun dropped p => dropped.add p.share) Double.zero

/-- `kept`, with the dropped share redistributed. -/
def kept (request : PlanRequest) (config : PlanConfig) : List Provisional :=
  let survivors := (provisional request).filter (fun p => !belowThreshold request config p)
  let keptShareSum := Double.one.sub (droppedShare request config)
  if Double.zero.lt (droppedShare request config) && Double.zero.lt keptShareSum then
    survivors.map (fun p =>
      let share := p.share.div keptShareSum
      { p with share, qty := share.mul (decimalToDouble request.targetQty) })
  else survivors

/-- The first index of a largest quantity. -/
def largestIdx : List Provisional → Nat
  | [] => 0
  | p :: ps =>
      ((ps.zipIdx 1).foldl
        (fun best q => if best.1.lt q.1.qty then (q.1.qty, q.2) else best) (p.qty, 0)).2

/-- The rounding fix: the quantities at eight decimals, with the residual added to the
largest one. -/
def reconcile (targetQty : Decimal) (shares : List Provisional) : List Decimal :=
  let qtys := shares.map (fun p => decimalFromDouble p.qty)
  let diff := Decimal.sub targetQty (qtys.foldl Decimal.add Decimal.zero)
  if Decimal.cmp diff Decimal.zero ≠ 0 then
    qtys.modify (largestIdx shares) (fun q => Decimal.add q diff)
  else qtys

/-- The plan that gives one venue everything. -/
def singleVenue (request : PlanRequest) (venueId : String) (liquidity : Double) : PlanResult :=
  { allocations :=
      [{ venueId, qty := request.targetQty, liquidityUsed := liquidity, share := Double.one }]
    feasible := true }

/-- The plan that gives every kept venue its quantity. -/
def spreadPlan (request : PlanRequest) (shares : List Provisional) : PlanResult :=
  { allocations := shares.zipWith
      (fun p qty => { venueId := p.venueId, qty, liquidityUsed := p.liquidity, share := p.share })
      (reconcile request.targetQty shares)
    feasible := true }

def buildMultiVenuePlan (request : PlanRequest) (config : PlanConfig) : PlanResult :=
  if (decimalToDouble request.targetQty).le Double.zero then
    { rejectReason := "target_qty_non_positive" }
  else
    match candidates request with
    | [] => { rejectReason := "no_usable_venue" }
    | [c] => singleVenue request c.venueId c.liquidity
    | _ :: _ :: _ =>
        if !Double.zero.lt (totalLiquidity request) then
          { rejectReason := "zero_total_liquidity" }
        else
          match kept request config with
          | [] =>
              match maxElement (fun a b => a.liquidity.lt b.liquidity) (provisional request) with
              | none => { rejectReason := "no_usable_venue" }
              | some best => singleVenue request best.venueId best.liquidity
          | p :: ps => spreadPlan request (p :: ps)

def fanOutIntent (intent : ExecutionIntent) (alloc : VenueAllocation) : ExecutionIntent :=
  let newHedgeFlowId :=
    if intent.hedgeFlowId = "" then "hedge|" ++ alloc.venueId
    else intent.hedgeFlowId ++ "|" ++ alloc.venueId
  let newIntentId := newHedgeFlowId ++ "|intent"
  { intent with
    hedgeFlowId := newHedgeFlowId
    intentId := newIntentId
    clientOrderId := newIntentId
    venue := alloc.venueId
    targetQty := alloc.qty
    targetNotional :=
      match intent.referenceMid with
      | some mid => some (Decimal.mul alloc.qty mid)
      | none => intent.targetNotional
    allowedVenues := [alloc.venueId] }

def fanOutIntentByPlan (intent : ExecutionIntent) (plan : PlanResult) : List ExecutionIntent :=
  if !plan.feasible || plan.allocations.isEmpty then [intent]
  else if plan.allocations.length = 1 ∧ (plan.allocations.map (·.venueId)).head? = some "" then
    [intent]
  else plan.allocations.map (fanOutIntent intent)

end Planner
end Matching
end ContExchange
