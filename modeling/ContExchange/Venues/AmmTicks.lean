import ContExchange.Common.Decimal

/-!
# Venues: order book sides of a concentrated-liquidity pool

This module models the two walks over the initialised ticks of a pool:
`BuildSideSegmentsFromTicks` of the direct FOB path and `BuildTickBasedSide` of the
virtual order book.  Both walk downwards for the bids and upwards for the asks, carry
the liquidity in range, cross the ticks on the way and push one segment for each range
that holds base quantity.

The roots of the prices are a parameter `SqrtPrice`, in any ordered field; doubles are
read as exact numbers.  The levels of the virtual book are those before `DecimalFromDouble`
and the final sort.  The liquidity stands for the number its text is parsed to.
-/

namespace ContExchange
namespace Venues

open Common

/-- The square root of the price at each tick. -/
structure SqrtPrice (K : Type*) [Field K] [LinearOrder K] where
  root : Int → K
  pos : ∀ tick, 0 < root tick
  mono : StrictMono root

structure VenuePoolTickLevel where
  tick : Int
  liquidityNet : Decimal

structure VenuePoolState where
  tick : Int
  liquidity : ℚ
  ticks : List VenuePoolTickLevel

inductive ExecutionSide where
  | buy
  | sell
deriving DecidableEq

structure DirectAmmFobConfig where
  maxSegmentsPerSide : ℕ := 20

structure AmmExecutionSegment (K : Type*) where
  price : K
  qty : K

namespace VenuePoolState

/-- The ticks before `std::upper_bound` of the current tick. -/
def upTo (pool : VenuePoolState) : List VenuePoolTickLevel :=
  pool.ticks.takeWhile (fun level => decide (level.tick ≤ pool.tick))

/-- The ticks from `std::lower_bound` of the current tick on. -/
def onwards (pool : VenuePoolState) : List VenuePoolTickLevel :=
  pool.ticks.dropWhile (fun level => decide (level.tick < pool.tick))

end VenuePoolState

section Walks

variable {K : Type*} [Field K] [LinearOrder K]

def priceAtTick (s : SqrtPrice K) (tick : Int) : K :=
  s.root tick ^ 2

/-- `BaseAmountInRange`, between the prices at two ticks. -/
def baseAmountInRange (s : SqrtPrice K) (liquidity : ℚ) (lower upper : Int) : K :=
  if liquidity ≤ 0 ∨ priceAtTick s lower ≤ 0 ∨ priceAtTick s upper ≤ 0 then 0
  else if priceAtTick s upper ≤ priceAtTick s lower then 0
  else if s.root lower ≤ 0 ∨ s.root upper ≤ 0 then 0
  else
    let qty := (liquidity : K) * (1 / s.root lower - 1 / s.root upper)
    if qty ≤ 0 then 0 else qty

/-- The loop of the bid side: `above` is the tick visited before. -/
def directBids (s : SqrtPrice K) (currentTick : Int) (maxSegments : ℕ) :
    ℚ → Int → List (AmmExecutionSegment K) → List VenuePoolTickLevel →
      List (AmmExecutionSegment K)
  | _, _, out, [] => out
  | liquidity, above, out, level :: rest =>
      if out.length < maxSegments then
        let tickUpper := if out.isEmpty then currentTick else above
        -- an empty range is skipped, and its tick is not crossed
        if tickUpper ≤ level.tick then
          directBids s currentTick maxSegments liquidity level.tick out rest
        else
          let qty := baseAmountInRange s liquidity level.tick tickUpper
          let price := priceAtTick s level.tick
          let out' := if 0 < qty ∧ 0 < price then out ++ [{ price, qty }] else out
          directBids s currentTick maxSegments
            (max 0 (liquidity - level.liquidityNet.toRat)) level.tick out' rest
      else out

/-- The loop of the ask side: a tick is crossed before the range above it is taken. -/
def directAsks (s : SqrtPrice K) (maxSegments : ℕ) :
    ℚ → List (AmmExecutionSegment K) → List VenuePoolTickLevel → List (AmmExecutionSegment K)
  | _, out, [] => out
  | liquidity, out, level :: rest =>
      if out.length < maxSegments then
        let crossed := max 0 (liquidity + level.liquidityNet.toRat)
        match rest with
        | [] => out
        | next :: _ =>
            if next.tick ≤ level.tick then directAsks s maxSegments crossed out rest
            else
              let qty := baseAmountInRange s crossed level.tick next.tick
              let price := priceAtTick s next.tick
              let out' := if 0 < qty ∧ 0 < price then out ++ [{ price, qty }] else out
              directAsks s maxSegments crossed out' rest
      else out

def buildSideSegmentsFromTicks
    (s : SqrtPrice K)
    (pool : VenuePoolState)
    (side : ExecutionSide)
    (config : DirectAmmFobConfig) :
    List (AmmExecutionSegment K) :=
  let maxSegments := max 1 config.maxSegmentsPerSide
  if pool.ticks.isEmpty then []
  else if pool.liquidity ≤ 0 then []
  else
    match side with
    | .sell =>
        directBids s pool.tick maxSegments pool.liquidity pool.tick [] pool.upTo.reverse
    | .buy => directAsks s maxSegments pool.liquidity [] pool.onwards

/-- The loop of the bid side: every tick is crossed, but the range starts at the current tick
as long as nothing was pushed. -/
def virtualBids (s : SqrtPrice K) (currentTick : Int) (feeMult : K) (maxLevels : ℕ) :
    ℚ → Int → List (AmmExecutionSegment K) → List VenuePoolTickLevel →
      List (AmmExecutionSegment K)
  | _, _, out, [] => out
  | liq, above, out, level :: rest =>
      if out.length < maxLevels then
        let tickUpper := if out.isEmpty then currentTick else above
        let pLower := priceAtTick s level.tick
        let pUpper := priceAtTick s tickUpper
        let qty := baseAmountInRange s liq level.tick tickUpper
        let price := pLower * feeMult
        let out' :=
          if (0 < liq ∧ 0 < pLower ∧ pLower < pUpper) ∧ 0 < qty ∧ 0 < price then
            out ++ [{ price, qty }]
          else out
        virtualBids s currentTick feeMult maxLevels
          (max 0 (liq - level.liquidityNet.toRat)) level.tick out' rest
      else out

/-- The loop of the ask side. -/
def virtualAsks (s : SqrtPrice K) (feeMult : K) (maxLevels : ℕ) :
    ℚ → List (AmmExecutionSegment K) → List VenuePoolTickLevel → List (AmmExecutionSegment K)
  | _, out, [] => out
  | liq, out, level :: rest =>
      if out.length < maxLevels then
        let crossed := max 0 (liq + level.liquidityNet.toRat)
        match rest with
        | [] => out
        | next :: _ =>
            let pLower := priceAtTick s level.tick
            let pUpper := priceAtTick s next.tick
            let qty := baseAmountInRange s crossed level.tick next.tick
            let price := pUpper * feeMult
            let out' :=
              if (0 < crossed ∧ pLower < pUpper) ∧ 0 < qty ∧ 0 < price then
                out ++ [{ price, qty }]
              else out
            virtualAsks s feeMult maxLevels crossed out' rest
      else out

/-- `BuildTickBasedSide`, before the levels are rounded and sorted. -/
def buildTickBasedSide
    (s : SqrtPrice K)
    (pool : VenuePoolState)
    (midPrice feeRate : ℚ)
    (maxLevels : ℕ)
    (isBid : Bool) :
    List (AmmExecutionSegment K) :=
  if pool.ticks.isEmpty ∨ midPrice ≤ 0 ∨ maxLevels = 0 then []
  else
    let liquidity := if pool.liquidity < 0 then 0 else pool.liquidity
    if isBid then
      virtualBids s pool.tick (((1 - |feeRate| : ℚ)) : K) maxLevels liquidity pool.tick []
        pool.upTo.reverse
    else
      virtualAsks s (((1 + |feeRate| : ℚ)) : K) maxLevels liquidity [] pool.onwards

end Walks

end Venues
end ContExchange
