import ContExchange.Common.Double
import Mathlib.Data.List.Infix

/-!
# Matching: which venue curves may be used

The filter in front of the planner: a curve is used when its identity, one of
its sides and its confidence are sound and the health of its venue, if any is
known, allows matching.  A refusal carries its reason.

The curves and healths are the messages of the venues, with the fields that the
filter and the planner cache read.
-/

namespace ContExchange
namespace Matching
namespace Planner

open Common

structure SideLiquidityCurve where
  qGrid : List Double := []
  pOfQ : List Double := []
deriving DecidableEq

/-- `fob.venue.v1.VenueLiquidityCurve`; `symbol` is the symbol of its instrument. -/
structure VenueLiquidityCurve where
  venueId : String
  symbol : String
  bidCurve : SideLiquidityCurve := {}
  askCurve : SideLiquidityCurve := {}
  confidence : Double := Double.zero
  level : String := ""
deriving DecidableEq

inductive VenueHealthEventType where
  | unspecified
  | raw
  | aggregated
deriving DecidableEq

inductive CircuitBreakerState where
  | unspecified
  | closed
  | open
  | halfOpen
deriving DecidableEq

inductive VenueHealthStatus where
  | unspecified
  | ok
  | stale
  | disconnected
  | rateLimit
  | degraded
deriving DecidableEq

inductive RoutingRecommendation where
  | allow
  | caution
  | avoid
  | block
deriving DecidableEq

structure VenueHealth where
  venue : String
  eventType : VenueHealthEventType := .unspecified
  breakerState : CircuitBreakerState := .unspecified
  status : VenueHealthStatus := .unspecified
  healthScore : Double := Double.zero
  routingRecommendation : RoutingRecommendation := .allow
  reason : String := ""
deriving DecidableEq

structure VenueThresholds where
  minHealthScore : Double := .num (1 / 2)
deriving DecidableEq

/-- The loop of `SideHasLiquidity` over the points of a side. -/
def sideLoop : (prevQty : Option Double) → (hasPositiveQty : Bool) → List (Double × Double) → Bool
  | _, hasPositiveQty, [] => hasPositiveQty
  | prevQty, hasPositiveQty, (qty, price) :: points =>
      if !qty.isFinite || !price.isFinite then false
      else if qty.lt Double.zero || price.le Double.zero then false
      else if prevQty.any (fun prev => qty.lt prev) then false
      else sideLoop (some qty) (hasPositiveQty || Double.zero.lt qty) points

def sideHasLiquidity (side : SideLiquidityCurve) : Bool :=
  if side.qGrid = [] ∨ side.pOfQ = [] ∨ side.qGrid.length ≠ side.pOfQ.length then false
  else sideLoop none false (side.qGrid.zip side.pOfQ)

def curveHasUsableLiquidity (curve : VenueLiquidityCurve) : Bool :=
  sideHasLiquidity curve.bidCurve || sideHasLiquidity curve.askCurve

def containsKeyword (value keyword : String) : Bool :=
  decide (keyword.toList <:+: value.toList.map Char.toLower)

/-- `VenueAllowsMatching`; a refusal is the reason. -/
def venueAllowsMatching (health : VenueHealth) (thresholds : VenueThresholds) :
    Except String Unit := do
  if containsKeyword health.reason "disable" then throw "disabled_reason"
  if health.breakerState = .open then throw "circuit_breaker_open"
  match health.routingRecommendation with
  | .block => throw "routing_block"
  | .avoid => throw "routing_avoid"
  | .allow | .caution => pure ()
  match health.status with
  | .stale => throw "status_stale"
  | .disconnected => throw "status_disconnected"
  | .rateLimit => throw "status_rate_limit"
  | .degraded => throw "status_degraded"
  | .unspecified | .ok => pure ()
  if health.healthScore.lt thresholds.minHealthScore then throw "health_score"

/-- `ShouldUseVenueCurveForMatching`; a refusal is the reason. -/
def shouldUseVenueCurveForMatching
    (curve : VenueLiquidityCurve) (health : Option VenueHealth) (thresholds : VenueThresholds) :
    Except String Unit := do
  if curve.venueId = "" ∨ curve.symbol = "" then throw "missing_curve_identity"
  if !curveHasUsableLiquidity curve then throw "empty_curve"
  if !curve.confidence.isFinite || curve.confidence.lt Double.zero then
    throw "invalid_confidence"
  match health with
  | some health => venueAllowsMatching health thresholds
  | none => pure ()

theorem identity_of_shouldUse
    {curve : VenueLiquidityCurve} {health : Option VenueHealth} {thresholds : VenueThresholds}
    (h : shouldUseVenueCurveForMatching curve health thresholds = .ok ()) :
    curve.venueId ≠ "" ∧ curve.symbol ≠ "" := by
  unfold shouldUseVenueCurveForMatching at h
  by_cases hid : curve.venueId = "" ∨ curve.symbol = ""
  · rw [if_pos hid] at h
    cases h
  · exact not_or.mp hid

end Planner
end Matching
end ContExchange
