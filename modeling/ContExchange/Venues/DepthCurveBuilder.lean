import ContExchange.Venues.AmmTicks
import ContExchange.Venues.DepthCanonicalizer

/-!
# Venues: the curves of a canonical book

`BuildDepthSideCurves` turns the levels of one side into the price `p(q)` and the cost `S(q)`
of a quantity.  The stages of the second level take the cost to doubles, change it and
rebuild the price from its slopes: `ApplyConvexifiedCostLayer` pools slopes that fall,
`ApplyMoreauRegularizationL2` takes the lower envelope of parabolas, and
`ApplyTikhonovRegularizationL2` solves a linear system by conjugate gradients.

The Lagrangian, its interpolation and the dual layer are left out: neither `p(q)` nor `S(q)`
is made from them.
-/

namespace ContExchange
namespace Common
namespace Double

/-- `std::fabs`. -/
def abs : Double → Double
  | .nan => .nan
  | .inf _ => .inf false
  | .num q => .num |q|

/-- The number of `long double` with a 64-bit mantissa that is nearest to a value. -/
def longDouble (q : ℚ) : ℚ :=
  if q = 0 then 0
  else
    let lastPlace := binaryExponent |q| - 63
    let v := (roundHalfEven (|q| / (2 : ℚ) ^ lastPlace) : ℚ) * (2 : ℚ) ^ lastPlace
    if q < 0 then -v else v

end Double
end Common

namespace Venues

open Common
open Backtest (BookLevel)

structure QOfPPoint where
  price : Decimal
  cumulativeQty : Decimal
deriving DecidableEq

structure POfQPoint where
  qty : Decimal
  price : Decimal
deriving DecidableEq

structure SOfQPoint where
  qty : Decimal
  cumulativeCost : Decimal
deriving DecidableEq

structure DepthSideCurves where
  side : ExecutionSide
  qOfP : List QOfPPoint := []
  pOfQ : List POfQPoint := []
  sOfQ : List SOfQPoint := []
deriving DecidableEq

def DepthSideCurves.empty (curves : DepthSideCurves) : Bool :=
  curves.qOfP.isEmpty

def monotonicPrice (previous current : Decimal) : ExecutionSide → Decimal
  | .buy => Decimal.max previous current
  | .sell => Decimal.min previous current

/-- The points of `BuildDepthSideCurvesImpl` behind the first ones. -/
def addLevels (side : ExecutionSide) (price cumulativeQty cumulativeCost : Decimal) :
    List BookLevel → DepthSideCurves
  | [] => { side }
  | level :: rest =>
      let price := monotonicPrice price level.price side
      let cumulativeQty := Decimal.add cumulativeQty level.qty
      let cumulativeCost := Decimal.add cumulativeCost (Decimal.mul price level.qty)
      let later := addLevels side price cumulativeQty cumulativeCost rest
      { later with
        qOfP := { price, cumulativeQty } :: later.qOfP
        pOfQ := { qty := cumulativeQty, price } :: later.pOfQ
        sOfQ := { qty := cumulativeQty, cumulativeCost } :: later.sOfQ }

def buildDepthSideCurvesImpl (levels : List BookLevel) (side : ExecutionSide) : DepthSideCurves :=
  match levels with
  | [] => { side }
  | first :: _ =>
      let cumulativeQty := Decimal.zeroAt first.qty.scale
      let cumulativeCost := Decimal.zeroAt (max 0 (Decimal.mul first.price first.qty).scale)
      let later := addLevels side first.price cumulativeQty cumulativeCost levels
      { later with
        pOfQ := { qty := cumulativeQty, price := first.price } :: later.pOfQ
        sOfQ := { qty := cumulativeQty, cumulativeCost } :: later.sOfQ }

def buildDepthSideCurves (book : CanonicalOrderBook) (side : ExecutionSide) : DepthSideCurves :=
  match side with
  | .buy => buildDepthSideCurvesImpl book.asks side
  | .sell => buildDepthSideCurvesImpl book.bids side

/-- `Decimal::operator double`. -/
def asDouble (d : Decimal) : Double :=
  (Double.ofRat d.units).mul (Double.ofRat ((10 : ℚ) ^ (-d.scale)))

/-- `ToDecimalWithScale`: a value at the edge of 64 bits that passes both tests is cast to the
smallest number, as is what is not a number. -/
def toDecimalWithScale (value : Double) (scale : Int) : Decimal :=
  match value.mul (Double.ofRat ((10 : ℚ) ^ scale)) with
  | .nan => ⟨int64Min, scale, int64Fits_int64Min⟩
  | .inf negative =>
      if negative then ⟨int64Min, scale, int64Fits_int64Min⟩
      else ⟨int64Max, scale, int64Fits_int64Max⟩
  | .num q =>
      let scaled := Matching.llround q
      if 2 ^ 63 < scaled then ⟨int64Max, scale, int64Fits_int64Max⟩
      else if h : Int64Fits scaled then ⟨scaled, scale, h⟩
      else ⟨int64Min, scale, int64Fits_int64Min⟩

def divideDecimal (numerator denominator : Decimal) (outScale : Int) : Decimal :=
  let outScale := max 0 outScale
  if denominator.units = 0 then Decimal.zeroAt outScale
  else
    let scaleDelta := denominator.scale + outScale - numerator.scale
    let num := if 0 ≤ scaleDelta then i128 (numerator.units * Decimal.pow10I128 scaleDelta)
      else numerator.units
    let den := if 0 ≤ scaleDelta then denominator.units
      else i128 (denominator.units * Decimal.pow10I128 (-scaleDelta))
    if den = 0 then Decimal.zeroAt outScale
    else
      let quotient := ((num.natAbs : Int) + (den.natAbs : Int) / 2) / (den.natAbs : Int)
      let signed := if decide (num < 0) != decide (den < 0) then -quotient else quotient
      ⟨clampInt64 signed, outScale, clampInt64_fits _⟩

def extractQtyGrid (sOfQ : List SOfQPoint) : List Double :=
  sOfQ.map (fun p => asDouble p.qty)

def extractCostValues (sOfQ : List SOfQPoint) : List Double :=
  sOfQ.map (fun p => asDouble p.cumulativeCost)

def withCosts (sOfQ : List SOfQPoint) (costs : List Double) (outScale : Int) : List SOfQPoint :=
  List.zipWith (fun p cost => { p with cumulativeCost := toDecimalWithScale cost outScale }) sOfQ
    costs

/-- The scale of the costs, not below `kConvexCostScale`. -/
def costScale (sOfQ : List SOfQPoint) : Int :=
  sOfQ.foldl (fun s p => max s p.cumulativeCost.scale) 6

/-- The loop of `DetectCostOutputScale`: places are dropped until the greatest cost fits. -/
def dropCostPlaces (maxAbsCost : ℚ) : Nat → Nat
  | 0 => 0
  | scale + 1 =>
      if Double.longDouble (maxAbsCost * 10 ^ (scale + 1)) ≤ 2 ^ 63 - 1 then scale + 1
      else dropCostPlaces maxAbsCost scale

def detectCostOutputScale (sOfQ : List SOfQPoint) : Int :=
  let maxAbsCost := sOfQ.foldl (fun m p => m.max (asDouble p.cumulativeCost).abs) Double.zero
  match maxAbsCost with
  | .num q => if q ≤ 0 then costScale sOfQ else dropCostPlaces q (costScale sOfQ).toNat
  | _ => costScale sOfQ

/-- The loop of `EnforceNonDecreasing` behind a value. -/
def enforceFrom (previous : Double) : List Double → List Double
  | [] => []
  | v :: rest =>
      let v := if v.lt previous then previous else v
      v :: enforceFrom v rest

def enforceNonDecreasing : List Double → List Double
  | [] => []
  | v :: rest => v :: enforceFrom v rest

/-- The first cost stays where it was, the others do not fall. -/
def anchored (costs regularized : List Double) : List Double :=
  enforceNonDecreasing
    (match costs, regularized with
      | y :: _, _ :: rest => y :: rest
      | _, _ => regularized)

def sellSideReferencePrice (curves : DepthSideCurves) : Decimal :=
  match curves.pOfQ, curves.qOfP with
  | p :: _, _ => p.price
  | [], q :: _ => q.price
  | [], [] => Decimal.zero

/-- `NormalizeCostLayerForL2` and `DenormalizeCostLayerFromL2`: the same loop, over the layer
of the curves and over a new one. -/
def mirrorCostLayer (curves : DepthSideCurves) (sOfQ : List SOfQPoint) : List SOfQPoint :=
  match curves.side with
  | .buy => sOfQ
  | .sell =>
      sOfQ.map fun point =>
        { point with
          cumulativeCost := Decimal.sub (Decimal.mul (sellSideReferencePrice curves) point.qty)
            point.cumulativeCost }

/-- The marginal price of a segment, kept monotone behind the one before. -/
def segmentPrice (side : ExecutionSide) (priceScale : Int) (previous : Option Decimal)
    (start finish : SOfQPoint) : Decimal :=
  let price := divideDecimal (Decimal.sub finish.cumulativeCost start.cumulativeCost)
    (Decimal.sub finish.qty start.qty) priceScale
  match previous with
  | none => price
  | some last =>
      match side with
      | .buy => if Decimal.cmp price last < 0 then last else price
      | .sell => if Decimal.cmp price last > 0 then last else price

/-- The points of `p(q)` behind the first one. -/
def marginalPrices (side : ExecutionSide) (priceScale : Int) (previous : Option Decimal)
    (start : SOfQPoint) : List SOfQPoint → List POfQPoint
  | [] => []
  | finish :: rest =>
      let price := segmentPrice side priceScale previous start finish
      { qty := finish.qty, price } :: marginalPrices side priceScale (some price) finish rest

def priceScaleOf (curves : DepthSideCurves) : Int :=
  max (curves.pOfQ.foldl (fun s p => max s p.price.scale) 0) 6

def rebuildCurvesFromCostLayer (curves : DepthSideCurves) (sOfQ : List SOfQPoint) :
    DepthSideCurves :=
  match sOfQ with
  | [] => { side := curves.side }
  | first :: rest =>
      let points := marginalPrices curves.side (priceScaleOf curves) none first rest
      let firstPrice :=
        match points with
        | [] => Decimal.zeroAt (priceScaleOf curves)
        | p :: _ => p.price
      { side := curves.side
        qOfP := points.map fun p => { price := p.price, cumulativeQty := p.qty }
        pOfQ := { qty := first.qty, price := firstPrice } :: points
        sOfQ }

/-- A block of `ConvexifySlopesPav`: how many slopes it pools, and their sums. -/
structure PavBlock where
  count : Nat
  weightSum : Double
  weightedSlopeSum : Double

def PavBlock.mean (b : PavBlock) : Double :=
  b.weightedSlopeSum.div b.weightSum

/-- The inner loop of `ConvexifySlopesPav`: the last block is pooled with the ones before it
while their means fall.  The last block stands first. -/
def pavPush (b : PavBlock) : List PavBlock → List PavBlock
  | [] => [b]
  | before :: blocks =>
      if before.mean.le b.mean then b :: before :: blocks
      else
        pavPush
          { count := before.count + b.count
            weightSum := before.weightSum.add b.weightSum
            weightedSlopeSum := before.weightedSlopeSum.add b.weightedSlopeSum }
          blocks

def convexifySlopesPav (slopes weights : List Double) : List Double :=
  let blocks := (slopes.zip weights).foldl (fun blocks (slope, weight) =>
    pavPush { count := 1, weightSum := weight, weightedSlopeSum := weight.mul slope } blocks) []
  blocks.reverse.flatMap fun b => List.replicate b.count b.mean

def differences : List Double → List Double
  | v :: w :: rest => w.sub v :: differences (w :: rest)
  | _ => []

/-- `ConvexifyCostLayerImpl` over the whole range. -/
def convexifyCostLayer (sOfQ : List SOfQPoint) : List SOfQPoint :=
  if sOfQ.length < 3 then sOfQ
  else
    let x := extractQtyGrid sOfQ
    let y := extractCostValues sOfQ
    let h := differences x
    if h.any (fun v => v.le Double.zero) then sOfQ
    else
      let slopes := List.zipWith Double.div (differences y) h
      let increments := List.zipWith Double.mul (convexifySlopesPav slopes h) h
      withCosts sOfQ (increments.scanl Double.add (y.headD Double.zero)) (costScale sOfQ)

/-- The reference price of `RegularizeCostLayerMoreauL2Impl`. -/
def referencePrice (x y : List Double) : Double :=
  let steep := (List.zip (differences x) (differences y)).foldl (fun best (dq, ds) =>
    if dq.le (Double.ofRat (1 / 10 ^ 12)) then best else best.max (ds.div dq).abs) Double.zero
  if !steep.isFinite || steep.le Double.zero then
    let qtySpan := (Double.ofRat (1 / 10 ^ 9)).max
      ((x.getLastD Double.zero).sub (x.headD Double.zero))
    Double.one.max (((y.getLastD Double.zero).sub (y.headD Double.zero)).abs.div qtySpan)
  else steep

/-- The envelope at a point: the lowest of the parabolas. -/
def moreauEnvelope (effectiveMu xi yi : Double) (points : List (Double × Double)) : Double :=
  points.foldl (fun best (xj, yj) =>
    let dx := xi.sub xj
    let candidate := yj.add ((dx.mul dx).div ((Double.ofRat 2).mul effectiveMu))
    if candidate.lt best then candidate else best) yi

/-- `RegularizeCostLayerMoreauL2Impl` with the smoothing `1e-3`. -/
def regularizeCostLayerMoreauL2 (sOfQ : List SOfQPoint) : List SOfQPoint :=
  if sOfQ.length < 2 then sOfQ
  else
    let x := extractQtyGrid sOfQ
    let y := extractCostValues sOfQ
    let effectiveMu := (Double.ofRat (1 / 10 ^ 12)).max
      ((Double.ofRat (1 / 10 ^ 3)).div (referencePrice x y))
    let points := x.zip y
    let regularized := points.map fun (xi, yi) => moreauEnvelope effectiveMu xi yi points
    withCosts sOfQ (anchored y regularized) (detectCostOutputScale sOfQ)

def dotProduct (lhs rhs : List Double) : Double :=
  (lhs.zip rhs).foldl (fun out (a, b) => out.add (a.mul b)) Double.zero

/-- The rounds of the loop in `ApplySecondDifferenceNormalMatrix` from the place `k` on. -/
def addSecondDifferences (k : Nat) : List Double → List Double → List Double
  | a :: b :: c :: rest, out =>
      let d2 := (a.sub ((Double.ofRat 2).mul b)).add c
      let out := out.modify k (fun v => v.add d2)
      let out := out.modify (k + 1) (fun v => v.sub ((Double.ofRat 2).mul d2))
      let out := out.modify (k + 2) (fun v => v.add d2)
      addSecondDifferences (k + 1) (b :: c :: rest) out
  | _, out => out

def applySecondDifferenceNormalMatrix (z : List Double) : List Double :=
  addSecondDifferences 0 z (List.replicate z.length Double.zero)

def applyTikhonovSystemMatrix (lambda : Double) (z : List Double) : List Double :=
  List.zipWith (fun zi di => zi.add (lambda.mul di)) z (applySecondDifferenceNormalMatrix z)

/-- The state of `SolveTikhonovCg`. -/
structure CgState where
  z : List Double
  r : List Double
  p : List Double
  rr : Double

/-- The iterations of `SolveTikhonovCg`. -/
def cgIterations (lambda tol2 : Double) : Nat → CgState → List Double
  | 0, s => s.z
  | n + 1, s =>
      let ap := applyTikhonovSystemMatrix lambda s.p
      let denom := dotProduct s.p ap
      if denom.abs.le (Double.ofRat (1 / 10 ^ 20)) then s.z
      else
        let alpha := s.rr.div denom
        let z := List.zipWith (fun zi pi => zi.add (alpha.mul pi)) s.z s.p
        let r := List.zipWith (fun ri api => ri.sub (alpha.mul api)) s.r ap
        let rrNew := dotProduct r r
        if rrNew.le tol2 then z
        else
          let beta := rrNew.div s.rr
          cgIterations lambda tol2 n
            { z, r, p := List.zipWith (fun ri pi => ri.add (beta.mul pi)) r s.p, rr := rrNew }

def solveTikhonovCg (y : List Double) (lambda : Double) (maxIterations : Nat)
    (tolerance : Double) : List Double :=
  if y.length < 3 || lambda.le Double.zero then y
  else
    let r := List.zipWith Double.sub y (applyTikhonovSystemMatrix lambda y)
    let rr := dotProduct r r
    let yNorm := Double.one.max (dotProduct y y)
    let tol2 := ((Double.zero.max tolerance).mul (Double.zero.max tolerance)).mul yNorm
    if rr.le tol2 then y
    else cgIterations lambda tol2 (max 1 maxIterations) { z := y, r, p := r, rr }

/-- `RegularizeCostLayerTikhonovL2Impl` with the penalty `1e-6`, 256 iterations and the
tolerance `1e-10`. -/
def regularizeCostLayerTikhonovL2 (sOfQ : List SOfQPoint) : List SOfQPoint :=
  if sOfQ.length < 3 then sOfQ
  else
    let y := extractCostValues sOfQ
    let regularized := solveTikhonovCg y (Double.ofRat (1 / 10 ^ 6)) 256
      (Double.ofRat (1 / 10 ^ 10))
    withCosts sOfQ (anchored y regularized) (detectCostOutputScale sOfQ)

/-- A stage of the second level: the costs are changed and the prices rebuilt. -/
def applyCostStage (stage : List SOfQPoint → List SOfQPoint) (curves : DepthSideCurves) :
    DepthSideCurves :=
  rebuildCurvesFromCostLayer curves
    (mirrorCostLayer curves (stage (mirrorCostLayer curves curves.sOfQ)))

def applyConvexifiedCostLayer : DepthSideCurves → DepthSideCurves :=
  applyCostStage convexifyCostLayer

def applyMoreauRegularizationL2 : DepthSideCurves → DepthSideCurves :=
  applyCostStage regularizeCostLayerMoreauL2

def applyTikhonovRegularizationL2 : DepthSideCurves → DepthSideCurves :=
  applyCostStage regularizeCostLayerTikhonovL2

end Venues
end ContExchange
