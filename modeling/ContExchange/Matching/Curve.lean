import ContExchange.Matching.FlowOrder

/-!
# Matching: external liquidity curves

The venue curves the solver routes to, and the four functions that read them:
the price at a quantity, the depth an order may trade within its limit, the
depth that also improves on the internal price, and the quantity an order's
speed band allows at a price.

Doubles are read as exact rationals.
-/

namespace ContExchange
namespace Matching

open Common Lib

def kQtyEps : ℚ := 1 / 10 ^ 12

structure SideLiquidityCurve where
  qGrid : List ℚ
  pOfQ : List ℚ
deriving DecidableEq

/-- `fob.venue.v1.VenueLiquidityCurve`; `metaEventId` is the event id of its meta. -/
structure VenueLiquidityCurve where
  venueId : String
  snapshotId : String := ""
  curveId : String := ""
  metaEventId : String := ""
  askCurve : Option SideLiquidityCurve := none
  bidCurve : Option SideLiquidityCurve := none
deriving DecidableEq

abbrev ExternalLiquidityBySymbol := Table String VenueLiquidityCurve

def selectExternalCurve (curve : VenueLiquidityCurve) : Side → Option SideLiquidityCurve
  | .buy => curve.askCurve
  | .sell => curve.bidCurve
  | .unspecified => none

/-- The side curve, when it has a point and a price. -/
def usableCurve (curve : VenueLiquidityCurve) (side : Side) : Option SideLiquidityCurve :=
  (selectExternalCurve curve side).filter
    (fun c => !c.qGrid.isEmpty && !c.pOfQ.isEmpty)

/-- The price of a grid point; a shorter price list repeats its last entry. -/
def SideLiquidityCurve.priceAt (c : SideLiquidityCurve) (i : Nat) : ℚ :=
  c.pOfQ.getD (min i (c.pOfQ.length - 1)) 0

/-- The first grid point that reaches the quantity, or the last one. -/
def SideLiquidityCurve.indexAt (c : SideLiquidityCurve) (qty : ℚ) : Nat :=
  (c.qGrid.findIdx? (fun q => decide (qty ≤ q + kQtyEps))).getD (c.qGrid.length - 1)

def externalPriceAtQty (curve : VenueLiquidityCurve) (side : Side) (qty : ℚ) : Option ℚ :=
  (usableCurve curve side).map (fun c => c.priceAt (c.indexAt qty))

/-- The limit of an order on a side: `p_high`, and its negation for SELL. -/
def limitPrice (side : Side) (order : FlowOrder) : ℚ :=
  if side = .buy then order.pHigh.toRat else -order.pHigh.toRat

/-- The price respects the limit up to `kQtyEps`. -/
def acceptable (side : Side) (limit price : ℚ) : Bool :=
  if side = .buy then decide (price ≤ limit + kQtyEps) else decide (limit ≤ price + kQtyEps)

/-- The price is better than the internal one by more than `kQtyEps`. -/
def improvesInternal (side : Side) (internalPrice price : ℚ) : Bool :=
  if side = .buy then decide (price + kQtyEps < internalPrice)
  else decide (internalPrice + kQtyEps < price)

/-- The loop over the grid: the last point before the first price that is
refused. -/
def SideLiquidityCurve.lastWhile (c : SideLiquidityCurve) (ok : ℚ → Bool) :
    (i : Nat) → List ℚ → ℚ → ℚ
  | _, [], maxQty => maxQty
  | i, q :: qs, maxQty =>
      if ok (c.priceAt i) then c.lastWhile ok (i + 1) qs q else maxQty

/-- The depth of a side curve up to the first price that is refused. -/
def depthWhile (curve : VenueLiquidityCurve) (side : Side) (ok : ℚ → Bool) : ℚ :=
  match usableCurve curve side with
  | none => 0
  | some c => c.lastWhile ok 0 c.qGrid 0

def maxTradableExternalQtyForOrder
    (curve : VenueLiquidityCurve) (side : Side) (order : FlowOrder) : ℚ :=
  depthWhile curve side (acceptable side (limitPrice side order))

def maxPriceImprovingExternalQtyForOrder
    (curve : VenueLiquidityCurve) (side : Side) (order : FlowOrder)
    (internalPrice : ℚ) : ℚ :=
  depthWhile curve side (fun price =>
    acceptable side (limitPrice side order) price && improvesInternal side internalPrice price)

/-- `std::clamp(v, 0, hi)` of the standard library in use. -/
def clampFromZero (v hi : ℚ) : ℚ :=
  min (max v 0) hi

/-- The seconds of a batch interval given in milliseconds. -/
def intervalSeconds (batchIntervalMs : ℕ) : ℚ :=
  (batchIntervalMs : ℚ) / 1000

/-- `PriceBandMaxQtyForSingleLegOrder`; `none` is infinity. -/
def priceBandMaxQtyForSingleLegOrder
    (order : FlowOrder) (side : Side) (price : ℚ) (batchIntervalMs : ℕ) : Option ℚ :=
  if order.legs.length ≠ 1 then none
  else
    let pLow := order.pLow.toRat
    let pHigh := order.pHigh.toRat
    -- the signed limits of a SELL order are turned back into the client's
    let band := if pLow < 0 ∧ pHigh < 0 then (-pHigh, -pLow) else (pLow, pHigh)
    let low := min band.1 band.2
    let high := max band.1 band.2
    let width := high - low
    if width ≤ kQtyEps then none
    else
      let ratio :=
        match side with
        | .buy => (high - price) / width
        | .sell => (price - low) / width
        | .unspecified => 1
      some (order.qRate.toRat * clampFromZero ratio 1 * intervalSeconds batchIntervalMs)

/-- `std::llround`: half away from zero. -/
def llround (x : ℚ) : Int :=
  if 0 ≤ x then ⌊x + 1 / 2⌋ else -⌊-x + 1 / 2⌋

/-- `ToDecimal`: twelve places.  A value outside 64 bits gives what `llround`
returns there, the smallest mantissa. -/
def toDecimal (dbl : ℚ) : Decimal :=
  let rounded := llround (dbl * 10 ^ 12)
  if h : Int64Fits rounded then ⟨rounded, 12, h⟩ else ⟨int64Min, 12, by decide⟩

end Matching
end ContExchange
