import ContExchange.Common.DoubleOrder
import ContExchange.Lib.Selection
import ContExchange.Venues.DepthCurveBuilder
import ContExchange.Venues.VenueSimAdapter

/-!
# Venues: the venue simulator

`VenueSimulator::Simulate` fills an order from the levels of a snapshot.  It computes in doubles
and reports decimals of eight places.  The impact comes on top of the average price of the walk,
and an order counts as filled once a billionth is missing.

The sorts of the levels, the generator of random numbers and the functions of the mathematical
library are parameters.
-/

namespace ContExchange
namespace Venues
namespace Simulator

open Common Lib
open Ledger (ExecutionReportStatus)
open Matching (ExecutionStrategy)

/-- `fob.venue.v1.VenueSnapshot`, as far as it is read. -/
structure VenueSnapshot where
  eventId : String := ""
  askPrices : List Decimal := []
  askQuantities : List Decimal := []
  bidPrices : List Decimal := []
  bidQuantities : List Decimal := []
  midPrice : Option Decimal := none
  bestBid : Option Decimal := none
  bestAsk : Option Decimal := none
  hasTakerFee : Bool := false
  hasMakerFee : Bool := false

inductive LatencyDistribution where
  | unspecified
  | lognormal
  | uniform
  | fixed
  | empirical
deriving DecidableEq

inductive ImpactModelType where
  | unspecified
  | linear
  | sqrt
  | powerLaw
  | levelByLevel
deriving DecidableEq

inductive PartialFillMode where
  | unspecified
  | proportional
  | levelByLevel
  | none
deriving DecidableEq

structure LatencyModel where
  distribution : LatencyDistribution := .unspecified
  p50Ms : Nat := 0
  p95Ms : Nat := 0
  p99Ms : Nat := 0
  tailProbability : Double := Double.zero
  timeoutMs : Nat := 0

/-- `fob.sim.v1.ImpactModel`, as far as it is read. -/
structure ImpactModel where
  modelType : ImpactModelType := .unspecified
  impactCoeff : Double := Double.zero
  powerExponent : Double := Double.zero

structure FeeModel where
  makerBps : Int := 0
  takerBps : Int := 0
  minFee : Decimal := Decimal.zero
  gasFlat : Decimal := Decimal.zero

structure RejectionModel where
  insufficientLiquidityEnabled : Bool := false
  priceConstraintEnabled : Bool := false
  randomRejectionRate : Double := Double.zero
  rateLimitRejectRate : Double := Double.zero
  minLiquidityThreshold : Decimal := Decimal.zero

structure SimModels where
  latency : LatencyModel := {}
  impact : ImpactModel := {}
  fee : FeeModel := {}
  rejection : RejectionModel := {}

structure SimulateRequest where
  symbol : String := ""
  side : Side := .buy
  orderType : ExecutionStrategy := .market
  targetQty : Decimal := Decimal.zero
  hasLimitPrice : Bool := false
  limitPrice : Decimal := Decimal.zero
  snapshot : Option VenueSnapshot := none
  lobAgeMs : Nat := 0
  staleThresholdMs : Nat := 2000
  partialFillMode : PartialFillMode := .levelByLevel
  rngSeed : Nat := 0

structure SimulateResult where
  status : ExecutionReportStatus := .unspecified
  filledQty : Decimal := Decimal.zero
  remainingQty : Decimal := Decimal.zero
  avgPrice : Decimal := Decimal.zero
  fee : Decimal := Decimal.zero
  feeCurrency : String := ""
  impactBps : Double := Double.zero
  slippageBps : Int := 0
  latencySampleMs : Nat := 0
  lobSnapshotId : String := ""
  rejectReason : String := ""

/-- A generator of random numbers with its distributions. -/
structure Randomness (ρ : Type) where
  seed : Nat → ρ
  unit : ρ → Double × ρ
  lognormal : Double → Double → ρ → Double × ρ

/-- The functions of the mathematical library. -/
structure Libm where
  sqrt : Double → Double
  pow : Double → Double → Double
  log : Double → Double

/-- The factor of `D2Dec`: so many multiplications by ten. -/
def scaleUp : Nat → Double → Double
  | 0, value => value
  | places + 1, value => (scaleUp places value).mul (.num 10)

theorem llroundDouble_fits (value : Double) : Int64Fits (llroundDouble value) := by
  unfold llroundDouble
  split
  · split_ifs with h
    · exact h
    · decide
  · decide
  · decide

/-- `D2Dec`, with eight decimals. -/
def d2Dec (value : Double) : Decimal :=
  if value.isFinite then
    ⟨llroundDouble (scaleUp 8 value), 8, llroundDouble_fits _⟩
  else Decimal.zero

structure Level where
  price : Double
  qty : Double

/-- The two calls of `std::sort`, by rising and by falling prices.  Levels of one price may stand
in any order. -/
structure LevelSorts where
  asks : SortOf (fun lvl : Level => lvl.price.position)
  bids : SortOf (fun lvl : Level => OrderDual.toDual lvl.price.position)

def extractLevels (std : LevelSorts) (s : VenueSnapshot) (side : Side) : List Level :=
  let levelsOf (prices quantities : List Decimal) : List Level :=
    List.zipWith (fun p q => { price := asDouble p, qty := asDouble q }) prices quantities
  if side = .buy then std.asks.sort (levelsOf s.askPrices s.askQuantities)
  else std.bids.sort (levelsOf s.bidPrices s.bidQuantities)

def midPrice (s : VenueSnapshot) : Double :=
  match s.midPrice.filter (fun mid => Double.zero.lt (asDouble mid)) with
  | some mid => asDouble mid
  | none =>
      let bb := (s.bestBid.map asDouble).getD Double.zero
      let ba := (s.bestAsk.map asDouble).getD Double.zero
      if Double.zero.lt bb && Double.zero.lt ba then
        (Double.ofRat (1 / 2)).mul (bb.add ba)
      else if Double.zero.lt bb then bb else ba

def impactDelta (libm : Libm) (m : ImpactModel) (filledQty : Double) : Double :=
  let a := m.impactCoeff
  match m.modelType with
  | .linear => a.mul filledQty
  | .sqrt => a.mul (libm.sqrt (Double.zero.max filledQty))
  | .powerLaw =>
      a.mul (libm.pow (Double.zero.max filledQty)
        (if Double.zero.lt m.powerExponent then m.powerExponent else Double.one))
  | .levelByLevel | .unspecified => Double.zero

/-- The basis points of `FeeRate`: maker for limit and post-only orders, taker otherwise. -/
def feeBps (m : FeeModel) (orderType : ExecutionStrategy) : Int :=
  if orderType = .limit ∨ orderType = .postOnly then m.makerBps else m.takerBps

def feeRate (m : FeeModel) (orderType : ExecutionStrategy) : Double :=
  (Double.ofRat (feeBps m orderType)).div (.num 10000)

def fabs : Double → Double
  | .num q => .num |q|
  | .inf _ => .inf false
  | .nan => .nan

/-- A cast to `uint32_t`, by way of 64 bits; what does not fit these becomes zero. -/
def toUInt32 : Double → Nat
  | .num q =>
      let integer := if q < 0 then -⌊-q⌋ else ⌊q⌋
      if Int64Fits integer then (integer % 2 ^ 32).toNat else 0
  | .nan | .inf _ => 0

def SimulateRequest.limit (request : SimulateRequest) : Option Double :=
  if request.hasLimitPrice ∧ request.orderType ≠ .market then some (asDouble request.limitPrice)
  else none

/-- A level is passed over: without a quantity or a price, or worse than the limit price. -/
def passedOver (isBuy : Bool) (limit : Option Double) (lvl : Level) : Bool :=
  (lvl.qty.le Double.zero || lvl.price.le Double.zero) ||
    match limit with
    | none => false
    | some limit => if isBuy then limit.lt lvl.price else lvl.price.lt limit

def walk (isBuy : Bool) (limit : Option Double) (target : Double) :
    List Level → Double × Double → Double × Double
  | [], sums => sums
  | lvl :: rest, (filled, notional) =>
      if target.le filled then (filled, notional)
      else if passedOver isBuy limit lvl then walk isBuy limit target rest (filled, notional)
      else
        let take := lvl.qty.min (target.sub filled)
        walk isBuy limit target rest (filled.add take, notional.add (take.mul lvl.price))

/-- A random draw below a rate; nothing is drawn for a rate that is not positive. -/
def drawsBelow {ρ : Type} (rng : Randomness ρ) (rate : Double) (state : ρ) : Bool × ρ :=
  if Double.zero.lt rate then
    let (value, state) := rng.unit state
    (value.lt rate, state)
  else (false, state)

def sampleLatency {ρ : Type} (libm : Libm) (rng : Randomness ρ) (m : LatencyModel) (state : ρ) :
    Nat :=
  match m.distribution with
  | .fixed => m.p50Ms
  | .uniform =>
      let lo := Double.num m.p50Ms
      let hi := lo.max (.num m.p99Ms)
      toUInt32 (lo.add ((rng.unit state).1.mul (hi.sub lo)))
  | .lognormal | .empirical | .unspecified =>
      let p50 := Double.one.max (.num m.p50Ms)
      let p95 := p50.max (.num m.p95Ms)
      let mu := libm.log p50
      let sigma := Double.zero.max (((libm.log p95).sub mu).div (Double.ofRat (1645 / 1000)))
      let (sample, state) := rng.lognormal mu sigma state
      let sample :=
        if (drawsBelow rng m.tailProbability state).1 then sample.mul (.num 3) else sample
      toUInt32 (Double.zero.max sample)

/-- The average price with the impact on top. -/
def averageWithImpact (isBuy : Bool) (vwap delta : Double) : Double :=
  if isBuy then vwap.add delta else vwap.sub delta

def feeOf (m : FeeModel) (orderType : ExecutionStrategy) (filled avgWithImpact : Double) :
    Double :=
  let fee := (filled.mul avgWithImpact).mul (feeRate m orderType)
  let minFee := asDouble m.minFee
  let fee := if Double.zero.lt minFee && fee.lt minFee then minFee else fee
  let gas := asDouble m.gasFlat
  if Double.zero.lt gas then fee.add gas else fee

/-- The tolerance of a filled order. -/
def eps : Double := Double.ofRat (1 / 10 ^ 9)

/-- The status of an order that was not rejected. -/
def statusOf (mode : PartialFillMode) (filled target : Double) : ExecutionReportStatus :=
  if target.le (filled.add eps) then .filled
  else if mode = .none then .underfilled
  else .partiallyFilled

def rejected (out : SimulateResult) (reason : String) : SimulateResult :=
  { out with status := .rejected, rejectReason := reason }

def withTelemetry (out : SimulateResult) (isBuy : Bool) (mid avgWithImpact : Double) :
    SimulateResult :=
  if Double.zero.lt mid then
    { out with
      impactBps := ((fabs (avgWithImpact.sub mid)).div mid).mul (.num 10000)
      slippageBps := Int.bmod (llroundDouble
        ((((avgWithImpact.sub mid).div mid).mul (.num 10000)).mul
          (.num (if isBuy then 1 else -1)))) (2 ^ 32) }
  else out

/-- `Simulate` behind the checks that come before the walk. -/
def simulateWalk {ρ : Type} (std : LevelSorts) (libm : Libm) (rng : Randomness ρ)
    (request : SimulateRequest)
    (models : SimModels) (snapshot : VenueSnapshot) (out : SimulateResult) (state : ρ) :
    SimulateResult :=
  let target := asDouble request.targetQty
  let mid := midPrice snapshot
  let isBuy := decide (request.side = .buy)
  let sums := walk isBuy request.limit target (extractLevels std snapshot request.side)
    (Double.zero, Double.zero)
  let filled := sums.1
  let minLiq := asDouble models.rejection.minLiquidityThreshold
  if models.rejection.priceConstraintEnabled && request.limit.isSome && filled.le Double.zero then
    rejected out "SIM_PRICE_CONSTRAINT"
  else if filled.le Double.zero then rejected out "SIM_NO_LIQUIDITY"
  else if models.rejection.insufficientLiquidityEnabled && Double.zero.lt minLiq &&
      filled.lt minLiq then
    rejected out "SIM_NO_LIQUIDITY"
  else
    let (rejects, state) := drawsBelow rng models.rejection.randomRejectionRate state
    if rejects then rejected out "SIM_RANDOM_REJECT"
    else
      let vwap := sums.2.div filled
      let avgWithImpact := averageWithImpact isBuy vwap (impactDelta libm models.impact filled)
      let latencyMs := sampleLatency libm rng models.latency state
      let out :=
        { withTelemetry out isBuy mid avgWithImpact with latencySampleMs := latencyMs }
      if 0 < models.latency.timeoutMs ∧ models.latency.timeoutMs < latencyMs then
        { rejected out "SIM_TIMEOUT" with
          filledQty := Decimal.zero
          remainingQty := request.targetQty }
      else
        { out with
          filledQty := d2Dec filled
          remainingQty := d2Dec (Double.zero.max (target.sub filled))
          avgPrice := d2Dec avgWithImpact
          fee := d2Dec (feeOf models.fee request.orderType filled avgWithImpact)
          feeCurrency :=
            if snapshot.hasTakerFee || snapshot.hasMakerFee then request.symbol
            else out.feeCurrency
          status := statusOf request.partialFillMode filled target }

def simulate {ρ : Type} (std : LevelSorts) (libm : Libm) (rng : Randomness ρ)
    (request : SimulateRequest)
    (models : SimModels) : SimulateResult :=
  let out : SimulateResult :=
    { lobSnapshotId := (request.snapshot.map VenueSnapshot.eventId).getD ""
      remainingQty := request.targetQty }
  if request.staleThresholdMs < request.lobAgeMs then rejected out "SIM_STALE_LOB"
  else
    match request.snapshot with
    | none => rejected out "SIM_NO_LIQUIDITY"
    | some snapshot =>
        let (rejects, state) :=
          drawsBelow rng models.rejection.rateLimitRejectRate (rng.seed request.rngSeed)
        if rejects then rejected out "SIM_RATE_LIMIT"
        else simulateWalk std libm rng request models snapshot out state

end Simulator
end Venues
end ContExchange
