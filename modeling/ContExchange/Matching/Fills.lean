import ContExchange.Matching.Allocation

/-!
# Matching: what is emitted for a leg

The fills that emission makes of the planned legs.

* The calls of `AddFill` are those of the legs, in order, each external one with some quantity
  that was taken before it (`emitFrom_legs`).
* The calls with the source "internal" are those for the internal quantities of the legs
  (`mem_internalArgs_iff`).
* `llround` moves a number by a half at most (`llround_error`).
-/

namespace ContExchange
namespace Matching

open Common Lib List FillArgs

theorem llround_error (x : ℚ) : |(llround x : ℚ) - x| ≤ 1 / 2 := by
  unfold llround
  split
  · have hle := Int.floor_le (x + 1 / 2)
    have hlt := Int.lt_floor_add_one (x + 1 / 2)
    rw [abs_le]
    constructor <;> linarith
  · have hle := Int.floor_le (-x + 1 / 2)
    have hlt := Int.lt_floor_add_one (-x + 1 / 2)
    push_cast
    rw [abs_le]
    constructor <;> linarith

/-- The calls of `AddFill` for a leg. -/
def legArgs
    (externalLiquidity : ExternalLiquidityBySymbol) (consumed : ℚ) (p : PlannedLegFill) :
    List FillArgs :=
  internalArgs p ++ externalArgs externalLiquidity consumed p

section LegArgs

variable {inp : SolveInput}

theorem emitFrom_legs (externalLiquidity : ExternalLiquidityBySymbol)
    (consumed : String × Side → ℚ) (ps : List PlannedLegFill) :
    ∃ totals : List ℚ, totals.length = ps.length ∧
      emitFrom externalLiquidity consumed ps =
        (totals.zip ps).flatMap (fun t => legArgs externalLiquidity t.1 t.2) := by
  induction ps generalizing consumed with
  | nil => exact ⟨[], rfl, rfl⟩
  | cons p ps ih =>
      obtain ⟨totals, hlength, hemit⟩ := ih (Function.update consumed (p.symbol, p.side)
        (consumed (p.symbol, p.side) + externalTaken externalLiquidity p))
      refine ⟨(consumed (p.symbol, p.side) + externalTaken externalLiquidity p) :: totals, ?_, ?_⟩
      · rw [length_cons, length_cons, hlength]
      · rw [zip_cons_cons, flatMap_cons, ← hemit]
        rfl

end LegArgs

def isInternal (fill : FlowFill) : Bool :=
  decide (fill.liquiditySource = "internal")

section InternalFills

variable {inp : SolveInput} {a : FillArgs}

theorem addFill_of_pos (h : kQtyEps < a.qty) : addFill a = some (fillOf a) := by
  unfold addFill
  rw [if_neg (not_le.mpr h)]

theorem liquiditySourceForVenue_ne_internal (venueId : String) :
    liquiditySourceForVenue venueId ≠ "internal" := by
  unfold liquiditySourceForVenue
  split <;> decide

theorem source_of_mem_internalArgs {p : PlannedLegFill} (h : a ∈ internalArgs p) :
    kQtyEps < p.internalLegQty ∧ a =
      { order := p.order, symbol := p.symbol, side := p.side, qty := p.internalLegQty,
        price := p.clearPrice, liquiditySource := "internal" } := by
  unfold internalArgs at h
  split at h
  · rename_i hpos
    exact ⟨hpos, mem_singleton.mp h⟩
  · cases h

theorem source_of_mem_externalArgs {externalLiquidity : ExternalLiquidityBySymbol} {consumed : ℚ}
    {p : PlannedLegFill} (h : a ∈ externalArgs externalLiquidity consumed p) :
    ∃ venueId, a.liquiditySource = liquiditySourceForVenue venueId := by
  unfold externalArgs at h
  split at h
  · cases h
  · split at h
    · cases h
    · rename_i curve _
      rw [mem_singleton.mp h]
      exact ⟨curve.venueId, rfl⟩

theorem mem_internalArgs_iff :
    a ∈ fillArgs inp ∧ a.liquiditySource = "internal" ↔
      ∃ p ∈ (allocate inp).fills, a ∈ internalArgs p := by
  obtain ⟨totals, hlength, hlegs⟩ :=
    emitFrom_legs inp.externalLiquidity (fun _ => 0) (allocate inp).fills
  unfold fillArgs
  rw [hlegs, mem_flatMap]
  constructor
  · rintro ⟨⟨t, ht, ha⟩, hsource⟩
    refine ⟨t.2, (of_mem_zip ht).2, ?_⟩
    rcases mem_append.mp ha with hin | hout
    · exact hin
    · obtain ⟨venueId, hvenue⟩ := source_of_mem_externalArgs hout
      rw [hvenue] at hsource
      exact absurd hsource (liquiditySourceForVenue_ne_internal venueId)
  · rintro ⟨p, hp, ha⟩
    have hzip : (totals.zip (allocate inp).fills).map Prod.snd = (allocate inp).fills :=
      map_snd_zip hlength.ge
    rw [← hzip] at hp
    obtain ⟨t, ht, rfl⟩ := mem_map.mp hp
    refine ⟨⟨t, ht, mem_append_left _ ha⟩, ?_⟩
    rw [(source_of_mem_internalArgs ha).2]

end InternalFills

end Matching
end ContExchange
