import ContExchange.Backtest.DepthText

/-!
# Venues: the canonical order book

`CanonicalizeBookSide` brings the levels of one side to a common scale, rounds them to the
tick and the lot of the market, drops what is left without price or quantity, sorts the
levels and adds up those of one price.

Levels of eight places give one book for all ticks and lots that have the same number of
units there: `canonicalizeBookSide_congr`.
-/

namespace ContExchange
namespace Venues

open Common List Option
open Backtest (BookLevel)

/-- `BookSide`. -/
inductive DepthBookSide where
  | bid
  | ask
deriving DecidableEq

structure DepthCanonicalizationConfig where
  tickSize : Decimal := Decimal.zero
  lotSize : Decimal := Decimal.zero
  minQty : Decimal := Decimal.zero
  maxLevelsPerSide : Nat := 0

structure CanonicalOrderBook where
  bids : List BookLevel
  asks : List BookLevel

def CanonicalOrderBook.isEmpty (book : CanonicalOrderBook) : Bool :=
  book.bids.isEmpty || book.asks.isEmpty

structure NormalizedLevel where
  priceUnits : Int
  qtyUnits : Int
deriving DecidableEq

def pow10I64 (p : Int) : Int :=
  if p < 0 ∨ 18 < p then 0 else 10 ^ p.toNat

def alignToScale (value : Decimal) (targetScale : Int) : Option Int :=
  if targetScale < 0 then none
  else if targetScale = value.scale then some value.units
  else if targetScale < value.scale then
    let div := pow10I64 (value.scale - targetScale)
    if div = 0 then none else some (value.units.tdiv div)
  else
    let mul := pow10I64 (targetScale - value.scale)
    if mul = 0 then none
    else if Int64Fits (value.units * mul) then some (value.units * mul) else none

def floorToStep (valueUnits stepUnits : Int) : Int :=
  if stepUnits ≤ 0 then valueUnits
  else if 0 ≤ valueUnits then valueUnits.tdiv stepUnits * stepUnits
  else wrap64 (-((wrap64 (-valueUnits + stepUnits - 1)).tdiv stepUnits * stepUnits))

def ceilToStep (valueUnits stepUnits : Int) : Int :=
  if stepUnits ≤ 0 then valueUnits
  else if 0 ≤ valueUnits then
    wrap64 ((wrap64 (valueUnits + stepUnits - 1)).tdiv stepUnits * stepUnits)
  else -((-valueUnits).tdiv stepUnits * stepUnits)

def detectPriceScale (levels : List BookLevel) (config : DepthCanonicalizationConfig) : Int :=
  let scale := if 0 < config.tickSize.units then max 0 config.tickSize.scale else 0
  levels.foldl (fun s level => max s level.price.scale) scale

def detectQtyScale (levels : List BookLevel) (config : DepthCanonicalizationConfig) : Int :=
  let scale := if 0 < config.lotSize.units then max 0 config.lotSize.scale else 0
  let scale := if 0 < config.minQty.units then max scale config.minQty.scale else scale
  levels.foldl (fun s level => max s level.qty.scale) scale

def stepUnits (step : Decimal) (scale : Int) : Int :=
  if 0 < step.units then max 0 ((alignToScale step scale).getD 0) else 0

/-- A level at the scales of its side, rounded to tick and lot; nothing when it is dropped. -/
def normalizeLevel (side : DepthBookSide) (priceScale qtyScale tickUnits lotUnits minQtyUnits : Int)
    (level : BookLevel) : Option NormalizedLevel :=
  if level.price.units ≤ 0 ∨ level.qty.units ≤ 0 then none
  else
    match alignToScale level.price priceScale, alignToScale level.qty qtyScale with
    | some priceUnits, some qtyUnits =>
        let priceUnits :=
          match side with
          | .bid => floorToStep priceUnits tickUnits
          | .ask => ceilToStep priceUnits tickUnits
        let qtyUnits := floorToStep qtyUnits lotUnits
        if priceUnits ≤ 0 ∨ qtyUnits ≤ 0 then none
        else if 0 < minQtyUnits ∧ qtyUnits < minQtyUnits then none
        else some { priceUnits, qtyUnits }
    | _, _ => none

/-- The order of the levels of a side: the best price first, larger quantities before smaller. -/
def levelLe (side : DepthBookSide) (a b : NormalizedLevel) : Prop :=
  if a.priceUnits = b.priceUnits then b.qtyUnits ≤ a.qtyUnits
  else
    match side with
    | .bid => b.priceUnits < a.priceUnits
    | .ask => a.priceUnits < b.priceUnits

instance (side : DepthBookSide) : DecidableRel (levelLe side) := fun a b => by
  unfold levelLe
  cases side <;> infer_instance

/-- The quantities of neighbours with one price are added up. -/
def aggregateLevels : List NormalizedLevel → List NormalizedLevel
  | [] => []
  | level :: rest =>
      match aggregateLevels rest with
      | [] => [level]
      | next :: others =>
          if next.priceUnits = level.priceUnits then
            { level with qtyUnits := wrap64 (level.qtyUnits + next.qtyUnits) } :: others
          else level :: next :: others

def canonicalLevel (priceScale qtyScale : Int) (level : NormalizedLevel) : BookLevel where
  price := ⟨wrap64 level.priceUnits, priceScale, wrap64_fits _⟩
  qty := ⟨wrap64 level.qtyUnits, qtyScale, wrap64_fits _⟩

/-- `CanonicalizeBookSide`, from the scales and the units of the steps on. -/
def canonicalizeAt (levels : List BookLevel) (side : DepthBookSide) (maxLevels : Nat)
    (priceScale qtyScale tickUnits lotUnits minQtyUnits : Int) : List BookLevel :=
  let normalized := levels.filterMap
    (normalizeLevel side priceScale qtyScale tickUnits lotUnits minQtyUnits)
  let aggregated := aggregateLevels (normalized.insertionSort (levelLe side))
  let trimmed := if 0 < maxLevels then aggregated.take maxLevels else aggregated
  trimmed.map (canonicalLevel priceScale qtyScale)

def canonicalizeBookSide (levels : List BookLevel) (side : DepthBookSide)
    (config : DepthCanonicalizationConfig) : List BookLevel :=
  let priceScale := detectPriceScale levels config
  let qtyScale := detectQtyScale levels config
  canonicalizeAt levels side config.maxLevelsPerSide priceScale qtyScale
    (stepUnits config.tickSize priceScale) (stepUnits config.lotSize qtyScale)
    (stepUnits config.minQty qtyScale)

def canonicalizeOrderBook (bids asks : List BookLevel) (config : DepthCanonicalizationConfig) :
    CanonicalOrderBook where
  bids := canonicalizeBookSide bids .bid config
  asks := canonicalizeBookSide asks .ask config

section Congruence

variable {levels : List BookLevel} {side : DepthBookSide}
  {config config' : DepthCanonicalizationConfig}

def isPositive (level : BookLevel) : Bool :=
  decide (0 < level.price.units) && decide (0 < level.qty.units)

/-- Two steps are the same for levels of eight places. -/
structure SameStep (step step' : Decimal) : Prop where
  scale : 0 < step.units → step.scale ≤ 8
  scale' : 0 < step'.units → step'.scale ≤ 8
  units : stepUnits step 8 = stepUnits step' 8

theorem normalizeLevel_of_not_positive {level : BookLevel} (h : isPositive level = false)
    (priceScale qtyScale tickUnits lotUnits minQtyUnits : Int) :
    normalizeLevel side priceScale qtyScale tickUnits lotUnits minQtyUnits level = none := by
  have hnot : level.price.units ≤ 0 ∨ level.qty.units ≤ 0 := by
    simp only [isPositive, Bool.and_eq_false_iff, decide_eq_false_iff_not, not_lt] at h
    exact h
  exact if_pos hnot

theorem canonicalizeAt_filter (levels : List BookLevel) (side : DepthBookSide) (maxLevels : Nat)
    (priceScale qtyScale tickUnits lotUnits minQtyUnits : Int) :
    canonicalizeAt (levels.filter isPositive) side maxLevels priceScale qtyScale tickUnits lotUnits
        minQtyUnits =
      canonicalizeAt levels side maxLevels priceScale qtyScale tickUnits lotUnits minQtyUnits := by
  have hnormalize : (fun level => if isPositive level then
      normalizeLevel side priceScale qtyScale tickUnits lotUnits minQtyUnits level else none) =
        normalizeLevel side priceScale qtyScale tickUnits lotUnits minQtyUnits := by
    funext level
    split_ifs with hpositive
    · rfl
    · exact (normalizeLevel_of_not_positive (Bool.eq_false_iff.mpr hpositive) _ _ _ _ _).symm
  unfold canonicalizeAt
  rw [filterMap_filter, hnormalize]

theorem canonicalizeBookSide_of_none (h : levels.filter isPositive = []) :
    canonicalizeBookSide levels side config = [] := by
  unfold canonicalizeBookSide
  rw [← canonicalizeAt_filter, h]
  simp [canonicalizeAt, aggregateLevels]

theorem le_foldl_max (scaleOf : BookLevel → Int) (levels : List BookLevel) (start : Int) :
    start ≤ levels.foldl (fun s level => max s (scaleOf level)) start ∧
      ∀ level ∈ levels,
        scaleOf level ≤ levels.foldl (fun s level => max s (scaleOf level)) start := by
  induction levels generalizing start with
  | nil => exact ⟨le_rfl, fun level h => absurd h not_mem_nil⟩
  | cons level rest ih =>
      obtain ⟨hstart, hrest⟩ := ih (max start (scaleOf level))
      refine ⟨(le_max_left _ _).trans hstart, fun other hother => ?_⟩
      rcases mem_cons.mp hother with rfl | hmem
      · exact (le_max_right _ _).trans hstart
      · exact hrest other hmem

theorem foldl_max_of_eq {scale : Int} {scaleOf : BookLevel → Int}
    (h : ∀ level ∈ levels, scaleOf level = scale)
    (hne : levels ≠ []) {start : Int} (hstart : start ≤ scale) :
    levels.foldl (fun s level => max s (scaleOf level)) start = scale := by
  induction levels generalizing start with
  | nil => exact absurd rfl hne
  | cons level rest ih =>
      obtain ⟨hlevel, hrest⟩ := forall_mem_cons.mp h
      rw [foldl_cons, hlevel, max_eq_right hstart]
      cases rest with
      | nil => rfl
      | cons next others => exact ih hrest (by simp) le_rfl

theorem detectPriceScale_eight (h : ∀ level ∈ levels, level.price.scale = 8) (hne : levels ≠ [])
    (htick : 0 < config.tickSize.units → config.tickSize.scale ≤ 8) :
    detectPriceScale levels config = 8 := by
  refine foldl_max_of_eq h hne ?_
  split_ifs with hpos
  · exact max_le (by norm_num) (htick hpos)
  · norm_num

theorem detectQtyScale_eight (h : ∀ level ∈ levels, level.qty.scale = 8) (hne : levels ≠ [])
    (hlot : 0 < config.lotSize.units → config.lotSize.scale ≤ 8)
    (hmin : config.minQty = .zero) : detectQtyScale levels config = 8 := by
  unfold detectQtyScale
  rw [hmin]
  refine foldl_max_of_eq h hne ?_
  rw [if_neg (by decide)]
  split_ifs with hpos
  · exact max_le (by norm_num) (hlot hpos)
  · norm_num

/-- Levels of eight places give one book for all configurations with the same steps, and
those without price or quantity count for nothing. -/
theorem canonicalizeBookSide_congr (hprice : ∀ level ∈ levels, level.price.scale = 8)
    (hqty : ∀ level ∈ levels, level.qty.scale = 8) (hpositive : levels.filter isPositive ≠ [])
    (htick : SameStep config.tickSize config'.tickSize)
    (hlot : SameStep config.lotSize config'.lotSize) (hmin : config.minQty = .zero)
    (hmin' : config'.minQty = .zero)
    (hmax : config.maxLevelsPerSide = config'.maxLevelsPerSide) :
    canonicalizeBookSide levels side config =
      canonicalizeBookSide (levels.filter isPositive) side config' := by
  have hne : levels ≠ [] := by
    rintro rfl
    exact hpositive rfl
  have hmem : ∀ level ∈ levels.filter isPositive, level ∈ levels :=
    fun level h => (mem_filter.mp h).1
  unfold canonicalizeBookSide
  dsimp only
  rw [detectPriceScale_eight hprice hne htick.scale, detectQtyScale_eight hqty hne hlot.scale hmin,
    detectPriceScale_eight (fun level h => hprice level (hmem level h)) hpositive htick.scale',
    detectQtyScale_eight (fun level h => hqty level (hmem level h)) hpositive hlot.scale' hmin',
    canonicalizeAt_filter, htick.units, hlot.units, hmin, hmin', hmax]

end Congruence

end Venues
end ContExchange
