import ContExchange.Common.Rounding
import ContExchange.Lib.Grouping
import ContExchange.Matching.HedgeChain

/-!
# Matching: which positions are hedged

The business rules ask for a hedge of a provider's net position as soon as a
threshold is reached.  The policy triggers once it is exceeded.  This module
states the rule over exact quantities (`HedgeDue`, `HedgesFollow`) and compares
it with the chain of the three modules.

* the netting computes the exact net quantity of every provider and symbol, as
  long as the running sums fit (`PairFits`);
* the notional is rounded, but never across its threshold (`Decimal.mul_faithful`);
* so the chain follows the rule exactly when no threshold is met without one
  being exceeded (`hedgesFollow_iff`).
-/

namespace ContExchange
namespace Matching

open Common Lib AList Decimal Side SnapshotAccumulator
open List hiding map_map
open Option hiding map map_map

/-- The hedge intents of a published batch, through the three modules. -/
def hedgeIntents
    (triggers : HedgeTriggerConfig) (config : HedgeExecutionIntentConfig)
    (batch : BatchResult) : List ExecutionIntent :=
  buildHedgeIntents config (evaluateHedgeTriggers triggers (calculatePositionSnapshots batch))

/-- What a fill adds to the position of its user. -/
def signedQty (fill : FlowFill) : ℚ :=
  match fill.side with
  | .buy => fill.executedQty.toRat
  | .sell => -fill.executedQty.toRat
  | .unspecified => 0

def pairFills (fills : List FlowFill) (userId symbol : String) : List FlowFill :=
  fills.filter (fun f => decide (f.userId = userId ∧ f.instrument.symbol = symbol))

/-- The exact net signed quantity a batch executes for a user in a symbol. -/
def netExecuted (batch : BatchResult) (userId symbol : String) : ℚ :=
  ((pairFills batch.fills userId symbol).map signedQty).sum

def clearPriceOf (batch : BatchResult) (symbol : String) : Decimal :=
  (batch.clearPrices.lookup symbol).getD Decimal.zero

section Rule

variable (triggers : HedgeTriggerConfig) (batch : BatchResult) (userId symbol : String)

/-- An enabled threshold of the symbol is reached. -/
def ThresholdReached : Prop :=
  let thresholds := triggers.resolve symbol
  (0 < thresholds.thresholdQty.toRat ∧
      thresholds.thresholdQty.toRat ≤ |netExecuted batch userId symbol|) ∨
    (0 < thresholds.thresholdNotional.toRat ∧
      thresholds.thresholdNotional.toRat ≤
        |netExecuted batch userId symbol| * (clearPriceOf batch symbol).toRat)

/-- The position of a user in a symbol is to be hedged. -/
def HedgeDue : Prop :=
  netExecuted batch userId symbol ≠ 0 ∧ 0 < (clearPriceOf batch symbol).toRat ∧
    ThresholdReached triggers batch userId symbol

end Rule

def pairIntents (intents : List ExecutionIntent) (userId symbol : String) :
    List ExecutionIntent :=
  intents.filter (fun i => decide (i.providerId = userId ∧ i.instrument.symbol = symbol))

/-- A due position gets one intent, of its size and on the other side; no other
position gets any. -/
structure HedgesFollow
    (triggers : HedgeTriggerConfig) (config : HedgeExecutionIntentConfig)
    (batch : BatchResult) : Prop where
  due :
    ∀ userId symbol, HedgeDue triggers batch userId symbol →
      ∃ intent, pairIntents (hedgeIntents triggers config batch) userId symbol = [intent] ∧
        intent.targetQty.toRat = |netExecuted batch userId symbol| ∧
        intent.side = if 0 < netExecuted batch userId symbol then Side.sell else Side.buy
  others :
    ∀ userId symbol, ¬ HedgeDue triggers batch userId symbol →
      pairIntents (hedgeIntents triggers config batch) userId symbol = []

/-- The finest scale of the netting after these fills. -/
def finestScale (fills : List FlowFill) : Int :=
  fills.foldl (fun s f => max s f.executedQty.scale) 0

/-- The signed mantissa of a fill at a scale. -/
def signedUnits (s : Int) (fill : FlowFill) : Int :=
  match fill.side with
  | .buy => fill.executedQty.unitsAt s
  | .sell => -fill.executedQty.unitsAt s
  | .unspecified => 0

/-- The exact net mantissa of the fills at their finest scale. -/
def netUnits (fills : List FlowFill) : Int :=
  (fills.map (signedUnits (finestScale fills))).sum

/-- The exact net quantity of the fills, as a decimal. -/
def netQtyOf (fills : List FlowFill) : Decimal :=
  ⟨clampInt64 (netUnits fills), finestScale fills, clampInt64_fits _⟩

/-- Its absolute value. -/
def absQtyOf (fills : List FlowFill) : Decimal :=
  ⟨clampInt64 |netUnits fills|, finestScale fills, clampInt64_fits _⟩

def nettedFills (batch : BatchResult) (userId symbol : String) : List FlowFill :=
  pairFills (batch.fills.filter isValidFill) userId symbol

section Fits

variable (triggers : HedgeTriggerConfig) (batch : BatchResult)

/-- The running sums of a position and its absolute value fit 64 bits, the prices
and thresholds have places, and the comparisons do not overflow. -/
structure PairFits (userId symbol : String) : Prop where
  sums : ∀ fills ∈ (nettedFills batch userId symbol).inits, Int64Fits (netUnits fills)
  opposite : netUnits (nettedFills batch userId symbol) ≠ int64Min
  price : 0 ≤ (clearPriceOf batch symbol).scale
  thresholds :
    0 ≤ (triggers.resolve symbol).thresholdQty.scale ∧
      0 ≤ (triggers.resolve symbol).thresholdNotional.scale
  quantity :
    Decimal.AlignExact (absQtyOf (nettedFills batch userId symbol))
      (triggers.resolve symbol).thresholdQty
  notional :
    Decimal.AlignExact
      (Decimal.mul (absQtyOf (nettedFills batch userId symbol)) (clearPriceOf batch symbol))
      (triggers.resolve symbol).thresholdNotional

/-- Positions have keys of their own, no executed quantity is skipped, and the
numbers of every position fit. -/
structure HedgeNumbersFit : Prop where
  keys :
    ∀ f ∈ batch.fills.filter isValidFill, ∀ g ∈ batch.fills.filter isValidFill,
      snapshotKey f.userId f.instrument.symbol = snapshotKey g.userId g.instrument.symbol →
        f.userId = g.userId ∧ f.instrument.symbol = g.instrument.symbol
  skipped : ∀ f ∈ batch.fills, isValidFill f = false → signedQty f = 0
  pairs : ∀ f ∈ batch.fills, PairFits triggers batch f.userId f.instrument.symbol

def ThresholdExceeded (userId symbol : String) : Prop :=
  let thresholds := triggers.resolve symbol
  let qty := absQtyOf (nettedFills batch userId symbol)
  (0 < thresholds.thresholdQty.toRat ∧ thresholds.thresholdQty.toRat < qty.toRat) ∨
    (0 < thresholds.thresholdNotional.toRat ∧
      thresholds.thresholdNotional.toRat <
        (Decimal.mul qty (clearPriceOf batch symbol)).toRat)

/-- An enabled threshold is met: the quantity equals it, or the notional reaches it
and is equal once it is rounded to a decimal. -/
def ThresholdMet (userId symbol : String) : Prop :=
  let thresholds := triggers.resolve symbol
  let qty := absQtyOf (nettedFills batch userId symbol)
  (0 < thresholds.thresholdQty.toRat ∧ qty.toRat = thresholds.thresholdQty.toRat) ∨
    (0 < thresholds.thresholdNotional.toRat ∧
      thresholds.thresholdNotional.toRat ≤ qty.toRat * (clearPriceOf batch symbol).toRat ∧
      (Decimal.mul qty (clearPriceOf batch symbol)).toRat = thresholds.thresholdNotional.toRat)

/-- No position with a price meets a threshold without exceeding one. -/
def NoThresholdJustMet : Prop :=
  ∀ f ∈ batch.fills,
    netUnits (nettedFills batch f.userId f.instrument.symbol) ≠ 0 →
      0 < (clearPriceOf batch f.instrument.symbol).units →
        ThresholdMet triggers batch f.userId f.instrument.symbol →
          ThresholdExceeded triggers batch f.userId f.instrument.symbol

end Fits

section Mantissas

theorem finestScale_snoc (fills : List FlowFill) (f : FlowFill) :
    finestScale (fills ++ [f]) = max (finestScale fills) f.executedQty.scale := by
  simp [finestScale]

theorem finestScale_nonneg (fills : List FlowFill) : 0 ≤ finestScale fills := by
  induction fills using List.reverseRecOn with
  | nil => exact le_rfl
  | append_singleton fills f ih =>
      rw [finestScale_snoc]
      exact ih.trans (le_max_left _ _)

variable {f : FlowFill}

theorem le_finestScale {fills : List FlowFill} (hf : f ∈ fills) :
    f.executedQty.scale ≤ finestScale fills := by
  induction fills using List.reverseRecOn with
  | nil => cases hf
  | append_singleton fills g ih =>
      rw [finestScale_snoc]
      rcases mem_append.mp hf with hf | hf
      · exact (ih hf).trans (le_max_left _ _)
      · rw [mem_singleton.mp hf]
        exact le_max_right _ _

theorem signedUnits_rescale {s s' : Int} (h : f.executedQty.scale ≤ s) (h' : s ≤ s') :
    signedUnits s' f = signedUnits s f * 10 ^ (s' - s).toNat := by
  unfold signedUnits
  cases f.side with
  | unspecified => simp
  | buy => exact unitsAt_rescale h h'
  | sell =>
      simp only [unitsAt_rescale h h']
      ring

theorem signedUnits_toRat {s : Int} (h : f.executedQty.scale ≤ s) :
    (signedUnits s f : ℚ) * (10 : ℚ) ^ (-s) = signedQty f := by
  unfold signedUnits signedQty
  cases f.side with
  | unspecified => simp
  | buy => exact (toRat_eq_unitsAt _ h).symm
  | sell =>
      simp only [toRat_eq_unitsAt _ h]
      push_cast
      ring

theorem netUnits_snoc (fills : List FlowFill) (f : FlowFill) :
    netUnits (fills ++ [f]) =
      netUnits fills *
          10 ^ (max (finestScale fills) f.executedQty.scale - finestScale fills).toNat +
        signedUnits (max (finestScale fills) f.executedQty.scale) f := by
  have hmap : fills.map (signedUnits (max (finestScale fills) f.executedQty.scale)) =
      fills.map (fun g => signedUnits (finestScale fills) g *
        10 ^ (max (finestScale fills) f.executedQty.scale - finestScale fills).toNat) := by
    apply map_congr_left
    intro g hg
    exact signedUnits_rescale (le_finestScale hg) (le_max_left _ _)
  rw [netUnits, finestScale_snoc, map_append, sum_append, hmap, sum_map_mul_right,
    ← netUnits, map_singleton, sum_singleton]

theorem netUnits_toRat (fills : List FlowFill) :
    (netUnits fills : ℚ) * (10 : ℚ) ^ (-finestScale fills) = (fills.map signedQty).sum := by
  unfold netUnits
  push_cast
  rw [List.map_map, ← sum_map_mul_right]
  congr 1
  apply map_congr_left
  intro f hf
  exact signedUnits_toRat (le_finestScale hf)

theorem netQtyOf_units {fills : List FlowFill} (h : Int64Fits (netUnits fills)) :
    (netQtyOf fills).units = netUnits fills :=
  clampInt64_of_fits h

end Mantissas

section Netting

def nextTotal (row : Option SnapshotAccumulator) (fill : FlowFill) : SnapshotAccumulator :=
  let total := row.getD { providerId := fill.userId, symbol := fill.instrument.symbol }
  { total with
    netQty :=
      if fill.side = .buy then Decimal.add total.netQty fill.executedQty
      else Decimal.sub total.netQty fill.executedQty }

theorem foldl_addToTotals (totals : Table String SnapshotAccumulator) (fills : List FlowFill) :
    fills.foldl addToTotals totals =
      run (upsert (fun f => snapshotKey f.userId f.instrument.symbol) nextTotal) totals
        (fills.filter isValidFill) := by
  induction fills generalizing totals with
  | nil => rfl
  | cons f fills ih =>
      rw [foldl_cons, ih, addToTotals]
      cases hf : isValidFill f with
      | true =>
          rw [filter_cons_of_pos hf]
          rfl
      | false =>
          rw [filter_cons_of_neg (by simp [hf])]
          rfl

theorem lookup_totals (fills : List FlowFill) (key : String) :
    (fills.foldl addToTotals ∅).lookup key =
      rowOf nextTotal none
        ((fills.filter isValidFill).filter
          (fun f => decide (snapshotKey f.userId f.instrument.symbol = key))) := by
  rw [foldl_addToTotals, lookup_run_upsert, lookup_empty]

variable {fills : List FlowFill}

theorem rowOf_nextTotal_pair {total : SnapshotAccumulator}
    (h : rowOf nextTotal none fills = some total) :
    ∃ f ∈ fills, f.userId = total.providerId ∧ f.instrument.symbol = total.symbol := by
  induction fills using List.reverseRecOn generalizing total with
  | nil => cases h
  | append_singleton fills f ih =>
      rw [rowOf_append, rowOf_cons, rowOf_nil, some_inj] at h
      subst h
      cases hrow : rowOf nextTotal none fills with
      | none => exact ⟨f, by simp, rfl, rfl⟩
      | some total =>
          obtain ⟨g, hg, hpair⟩ := ih hrow
          exact ⟨g, mem_append_left _ hg, hpair⟩

theorem key_of_lookup_totals {key : String} {total : SnapshotAccumulator}
    (h : (fills.foldl addToTotals ∅).lookup key = some total) :
    key = snapshotKey total.providerId total.symbol := by
  rw [lookup_totals] at h
  obtain ⟨f, hf, hprovider, hsymbol⟩ := rowOf_nextTotal_pair h
  rw [← hprovider, ← hsymbol]
  exact (of_decide_eq_true (mem_filter.mp hf).2).symm

theorem nextTotal_netQty {f : FlowFill} (userId symbol : String) (hvalid : isValidFill f = true)
    (hsum : Int64Fits (netUnits fills)) (hsum' : Int64Fits (netUnits (fills ++ [f]))) :
    nextTotal (some ⟨userId, symbol, netQtyOf fills⟩) f =
      ⟨userId, symbol, netQtyOf (fills ++ [f])⟩ := by
  have hside : f.side = .buy ∨ f.side = .sell := by
    simp only [isValidFill, Bool.and_eq_true, decide_eq_true_eq] at hvalid
    exact hvalid.1.2
  have hat : (netQtyOf fills).unitsAt (max (finestScale fills) f.executedQty.scale) =
      netUnits fills *
        10 ^ (max (finestScale fills) f.executedQty.scale - finestScale fills).toNat :=
    congrArg (· * _) (netQtyOf_units hsum)
  have hscale : (netQtyOf (fills ++ [f])).scale = max (netQtyOf fills).scale f.executedQty.scale :=
    finestScale_snoc fills f
  have hunits := netQtyOf_units hsum'
  rw [netUnits_snoc, signedUnits, ← hat] at hunits hsum'
  have hnet : netQtyOf (fills ++ [f]) =
      if f.side = .buy then Decimal.add (netQtyOf fills) f.executedQty
      else Decimal.sub (netQtyOf fills) f.executedQty := by
    rcases hside with hbuy | hsell
    · rw [hbuy] at hunits hsum'
      rw [if_pos hbuy, add_of_exact (a := netQtyOf fills) hsum']
      exact eq_of_units_of_scale hunits hscale
    · rw [hsell] at hunits hsum'
      rw [hsell, sub_of_exact (a := netQtyOf fills) hsum']
      exact eq_of_units_of_scale hunits hscale
  rw [hnet]
  rfl

theorem rowOf_nextTotal {userId symbol : String} (hvalid : ∀ f ∈ fills, isValidFill f = true)
    (hpair : ∀ f ∈ fills, f.userId = userId ∧ f.instrument.symbol = symbol)
    (hsums : ∀ p ∈ fills.inits, Int64Fits (netUnits p)) (hne : fills ≠ []) :
    rowOf nextTotal none fills = some ⟨userId, symbol, netQtyOf fills⟩ := by
  induction fills using List.reverseRecOn with
  | nil => exact (hne rfl).elim
  | append_singleton fills f ih =>
      have hsum : ∀ p, p <+: fills ++ [f] → Int64Fits (netUnits p) :=
        fun p hp => hsums p ((mem_inits p _).mpr hp)
      have hfvalid := hvalid f (by simp)
      obtain ⟨huser, hsymbol⟩ := hpair f (by simp)
      have hnext := nextTotal_netQty userId symbol hfvalid
        (hsum fills (prefix_append _ _)) (hsum _ prefix_rfl)
      rw [rowOf_append, rowOf_cons, rowOf_nil, ← hnext]
      by_cases hfills : fills = []
      · subst hfills
        rw [← huser, ← hsymbol]
        rfl
      · rw [ih (fun g hg => hvalid g (mem_append_left _ hg))
          (fun g hg => hpair g (mem_append_left _ hg))
          (fun p hp => hsum p (((mem_inits p _).mp hp).trans (prefix_append _ _)))
          hfills]

end Netting

section Intents

variable {triggers : HedgeTriggerConfig} {config : HedgeExecutionIntentConfig}
variable {batch : BatchResult} {userId symbol : String}

/-- What becomes of a row of the netting. -/
def totalIntent
    (triggers : HedgeTriggerConfig) (config : HedgeExecutionIntentConfig)
    (batch : BatchResult) (total : SnapshotAccumulator) : Option ExecutionIntent :=
  (total.snapshot batch).bind (fun snapshot =>
    buildHedgeIntent config (evaluateSnapshot triggers snapshot))

theorem totalIntent_pair {total : SnapshotAccumulator} {intent : ExecutionIntent}
    (h : totalIntent triggers config batch total = some intent) :
    intent.providerId = total.providerId ∧ intent.instrument.symbol = total.symbol := by
  obtain ⟨snapshot, hsnapshot, hintent⟩ := bind_eq_some_iff.mp h
  have hpair : snapshot.providerId = total.providerId ∧ snapshot.symbol = total.symbol := by
    unfold SnapshotAccumulator.snapshot at hsnapshot
    split at hsnapshot
    · cases hsnapshot
    · cases hsnapshot
      exact ⟨rfl, rfl⟩
  have hsymbol : (populateInstrument snapshot.symbol).symbol = snapshot.symbol := by
    unfold populateInstrument
    dsimp only
    split <;> rfl
  simp only [buildHedgeIntent, ite_none_left_eq_some, some_inj] at hintent
  obtain ⟨-, -, -, rfl⟩ := hintent
  exact ⟨hpair.1, hsymbol.trans hpair.2⟩

theorem pairIntents_hedgeIntents :
    pairIntents (hedgeIntents triggers config batch) userId symbol =
      ((batch.fills.foldl addToTotals ∅).lookup (snapshotKey userId symbol)).elim []
        (fun total => pairIntents (totalIntent triggers config batch total).toList
          userId symbol) := by
  have hflat : pairIntents (hedgeIntents triggers config batch) userId symbol =
      (batch.fills.foldl addToTotals ∅).entries.flatMap (fun r =>
        pairIntents (totalIntent triggers config batch r.2).toList userId symbol) := by
    unfold pairIntents hedgeIntents buildHedgeIntents evaluateHedgeTriggers
      calculatePositionSnapshots
    rw [map_filterMap, filterMap_filterMap, filterMap_eq_flatMap_toList, filter_flatMap]
    congr 1
    simp only [totalIntent, bind_map, Function.comp_def]
  rw [hflat]
  apply flatMap_of_only (nodupKeys _) (snapshotKey userId symbol)
  rintro ⟨key, total⟩ hr hkey
  have hlookup := key_of_lookup_totals (mem_lookup_iff.mpr hr)
  apply filter_eq_nil_iff.mpr
  intro intent hintent hsame
  obtain ⟨hprovider, hsymbol⟩ := totalIntent_pair (mem_toList.mp hintent)
  obtain ⟨huser, hsym⟩ := of_decide_eq_true hsame
  exact hkey (by rw [hlookup, ← hprovider, ← hsymbol, huser, hsym])

theorem pairIntents_of_no_fills (h : nettedFills batch userId symbol = []) :
    pairIntents (hedgeIntents triggers config batch) userId symbol = [] := by
  rw [pairIntents_hedgeIntents]
  cases hlookup : (batch.fills.foldl addToTotals ∅).lookup (snapshotKey userId symbol) with
  | none => rfl
  | some total =>
      apply filter_eq_nil_iff.mpr
      intro intent hintent hsame
      obtain ⟨hprovider, hsymbol⟩ := totalIntent_pair (mem_toList.mp hintent)
      obtain ⟨huser, hsym⟩ := of_decide_eq_true hsame
      rw [lookup_totals] at hlookup
      obtain ⟨f, hf, hfuser, hfsymbol⟩ := rowOf_nextTotal_pair hlookup
      have hmem : f ∈ nettedFills batch userId symbol :=
        mem_filter.mpr ⟨(mem_filter.mp hf).1,
          decide_eq_true ⟨by rw [hfuser, ← hprovider, huser], by rw [hfsymbol, ← hsymbol, hsym]⟩⟩
      rw [h] at hmem
      cases hmem

theorem mem_nettedFills {f : FlowFill} (hf : f ∈ nettedFills batch userId symbol) :
    f ∈ batch.fills.filter isValidFill ∧ f.userId = userId ∧ f.instrument.symbol = symbol := by
  obtain ⟨hvalid, hpair⟩ := mem_filter.mp hf
  exact ⟨hvalid, of_decide_eq_true hpair⟩

theorem pairFits_of_mem (h : HedgeNumbersFit triggers batch)
    (hne : nettedFills batch userId symbol ≠ []) : PairFits triggers batch userId symbol := by
  obtain ⟨f, hf⟩ := exists_mem_of_ne_nil _ hne
  obtain ⟨hvalid, rfl, rfl⟩ := mem_nettedFills hf
  exact h.pairs f (mem_filter.mp hvalid).1

theorem lookup_totals_pair (h : HedgeNumbersFit triggers batch)
    (hne : nettedFills batch userId symbol ≠ []) :
    (batch.fills.foldl addToTotals ∅).lookup (snapshotKey userId symbol) =
      some ⟨userId, symbol, netQtyOf (nettedFills batch userId symbol)⟩ := by
  obtain ⟨f, hf⟩ := exists_mem_of_ne_nil _ hne
  obtain ⟨hfvalid, hfuser, hfsymbol⟩ := mem_nettedFills hf
  have hkey : (batch.fills.filter isValidFill).filter
      (fun g => decide (snapshotKey g.userId g.instrument.symbol = snapshotKey userId symbol)) =
        nettedFills batch userId symbol := by
    apply filter_congr
    intro g hg
    rw [decide_eq_decide]
    constructor
    · intro hsame
      rw [← hfuser, ← hfsymbol] at hsame ⊢
      exact h.keys g hg f hfvalid hsame
    · rintro ⟨huser, hsymbol⟩
      rw [huser, hsymbol]
  rw [lookup_totals, hkey]
  exact rowOf_nextTotal
    (fun g hg => (mem_filter.mp (mem_nettedFills hg).1).2)
    (fun g hg => (mem_nettedFills hg).2)
    (pairFits_of_mem h hne).sums hne

end Intents

section Decision

variable {triggers : HedgeTriggerConfig} {config : HedgeExecutionIntentConfig}
variable {batch : BatchResult} {userId symbol : String}

theorem isPositive_iff {d : Decimal} (h : 0 ≤ d.scale) : isPositive d = true ↔ 0 < d.toRat := by
  have hcmp := cmp_pos_iff_of_alignExact (alignExact_zero h)
  rw [toRat_zero] at hcmp
  rw [isPositive, decide_eq_true_eq]
  exact hcmp

variable {fills : List FlowFill}

theorem cmp_netQtyOf (h : Int64Fits (netUnits fills)) :
    Decimal.cmp (netQtyOf fills) .zero =
      if netUnits fills < 0 then -1 else if 0 < netUnits fills then 1 else 0 := by
  rw [cmp_of_alignExact (alignExact_zero (finestScale_nonneg fills)), toRat_zero]
  have hneg := toRat_neg_iff (netQtyOf fills)
  have hnonneg := toRat_nonneg_iff (netQtyOf fills)
  have hzero := toRat_eq_zero_iff (netQtyOf fills)
  rw [netQtyOf_units h] at hneg hnonneg hzero
  have hpos : 0 < (netQtyOf fills).toRat ↔ 0 < netUnits fills := by
    rw [lt_iff_le_and_ne, lt_iff_le_and_ne, hnonneg, ne_comm, ne_comm (a := (0 : Int))]
    exact and_congr_right (fun _ => not_congr hzero)
  simp only [hneg, hpos]

section Net

variable (h : Int64Fits (netUnits fills)) (hmin : netUnits fills ≠ int64Min)

include h hmin

theorem abs_netUnits_fits :
    Int64Fits |netUnits fills| := by
  unfold Int64Fits at *
  have := abs_cases (netUnits fills)
  unfold int64Min int64Max at *
  omega

theorem absDecimal_netQtyOf :
    absDecimal (netQtyOf fills) = absQtyOf fills := by
  have habs := abs_netUnits_fits h hmin
  have hunits : (absQtyOf fills).units = |netUnits fills| := clampInt64_of_fits habs
  unfold absDecimal
  rw [cmp_netQtyOf h]
  by_cases hneg : netUnits fills < 0
  · rw [if_pos hneg]
    have hscale : max Decimal.zero.scale (netQtyOf fills).scale = finestScale fills :=
      max_eq_right (finestScale_nonneg fills)
    have hdiff : Decimal.zero.unitsAt (max Decimal.zero.scale (netQtyOf fills).scale) -
        (netQtyOf fills).unitsAt (max Decimal.zero.scale (netQtyOf fills).scale) =
          |netUnits fills| := by
      rw [hscale, show finestScale fills = (netQtyOf fills).scale from rfl, unitsAt_self,
        netQtyOf_units h, abs_of_neg hneg]
      simp [Decimal.unitsAt, Decimal.zero]
    have hexact : Decimal.SubExact .zero (netQtyOf fills) := by
      rw [Decimal.SubExact, hdiff]
      exact habs
    rw [sub_of_exact hexact]
    exact eq_of_units_of_scale (hdiff.trans hunits.symm) hscale
  · rw [if_neg hneg, if_pos (by split <;> decide)]
    refine eq_of_units_of_scale ?_ (show finestScale fills = finestScale fills from rfl)
    rw [netQtyOf_units h, hunits, abs_of_nonneg (not_lt.mp hneg)]

theorem absQtyOf_toRat :
    (absQtyOf fills).toRat = |(fills.map signedQty).sum| := by
  have hunits : (absQtyOf fills).units = |netUnits fills| :=
    clampInt64_of_fits (abs_netUnits_fits h hmin)
  rw [← netUnits_toRat, abs_mul, abs_of_pos (pow10_pos _), Decimal.toRat, hunits, Int.cast_abs]
  rfl

end Net

theorem netExecuted_eq (h : HedgeNumbersFit triggers batch) :
    netExecuted batch userId symbol = ((nettedFills batch userId symbol).map signedQty).sum := by
  have hcomm : nettedFills batch userId symbol =
      (pairFills batch.fills userId symbol).filter isValidFill := by
    rw [nettedFills, pairFills, pairFills, filter_comm]
  rw [hcomm, ← sumOn_eq_sum_filter, netExecuted]
  congr 1
  apply map_congr_left
  intro f hf
  cases hvalid : isValidFill f with
  | true => simp
  | false => simpa using h.skipped f (mem_filter.mp hf).1 hvalid

theorem triggered_iff (h : PairFits triggers batch userId symbol)
    (hprice : 0 < (clearPriceOf batch symbol).toRat) :
    (evaluateSnapshot triggers
        { providerId := userId
          symbol
          netQty := netQtyOf (nettedFills batch userId symbol)
          batchId := batch.batchId
          clearingPrice := clearPriceOf batch symbol }).triggered = true ↔
      ThresholdExceeded triggers batch userId symbol := by
  have hsum := h.sums _ ((mem_inits _ _).mpr prefix_rfl)
  have hqty := isPositive_iff h.thresholds.1
  have hnotional := isPositive_iff h.thresholds.2
  have hmid := (isPositive_iff h.price).mpr hprice
  have hexceedsQty := cmp_pos_iff_of_alignExact h.quantity
  have hexceedsNotional := cmp_pos_iff_of_alignExact h.notional
  simp only [HedgeTriggerDecision.triggered, evaluateSnapshot,
    absDecimal_netQtyOf hsum h.opposite, hmid, Bool.and_true, Bool.or_eq_true, Bool.and_eq_true,
    decide_eq_true_eq, gt_iff_lt, ThresholdExceeded]
  rw [hqty, hexceedsQty]
  apply or_congr_right
  rw [← hnotional]
  apply and_congr_right
  intro henabled
  rw [if_pos henabled, hexceedsNotional]

theorem thresholdReached_iff (h : HedgeNumbersFit triggers batch)
    (hne : nettedFills batch userId symbol ≠ []) (hprice : 0 < (clearPriceOf batch symbol).toRat) :
    ThresholdReached triggers batch userId symbol ↔
      ThresholdExceeded triggers batch userId symbol ∨
        ThresholdMet triggers batch userId symbol := by
  have hfit := pairFits_of_mem h hne
  have hsum := hfit.sums _ ((mem_inits _ _).mpr prefix_rfl)
  have habs : |netExecuted batch userId symbol| =
      (absQtyOf (nettedFills batch userId symbol)).toRat := by
    rw [netExecuted_eq h, absQtyOf_toRat hsum hfit.opposite]
  have hqty : 0 ≤ (absQtyOf (nettedFills batch userId symbol)).units := by
    rw [← toRat_nonneg_iff, ← habs]
    exact abs_nonneg _
  have hmid : 0 ≤ (clearPriceOf batch symbol).units :=
    (toRat_nonneg_iff _).mp hprice.le
  -- the rounded notional is on the same side of the threshold as the exact one
  obtain ⟨hup, hdown⟩ := mul_faithful hfit.thresholds.2 hqty hmid
  simp only [ThresholdReached, ThresholdExceeded, ThresholdMet, habs]
  constructor
  · rintro (⟨hon, hle⟩ | ⟨hon, hle⟩)
    · rcases hle.lt_or_eq with hlt | heq
      · exact .inl (.inl ⟨hon, hlt⟩)
      · exact .inr (.inl ⟨hon, heq.symm⟩)
    · rcases (hup hle).lt_or_eq with hlt | heq
      · exact .inl (.inr ⟨hon, hlt⟩)
      · exact .inr (.inr ⟨hon, hle, heq.symm⟩)
  · rintro ((⟨hon, hlt⟩ | ⟨hon, hlt⟩) | (⟨hon, heq⟩ | ⟨hon, hle, -⟩))
    · exact .inl ⟨hon, hlt.le⟩
    · exact .inr ⟨hon, le_of_not_ge (fun hge => (hdown hge).not_gt hlt)⟩
    · exact .inl ⟨hon, heq.ge⟩
    · exact .inr ⟨hon, hle⟩

variable (config) in
theorem buildHedgeIntent_of_triggered {decision : HedgeTriggerDecision}
    (htriggered : decision.triggered = true)
    (hmid : isPositive decision.snapshot.clearingPrice = true)
    (hnet : Decimal.cmp decision.snapshot.netQty .zero ≠ 0) :
    ∃ intent,
      buildHedgeIntent config decision = some intent ∧
        intent.targetQty = absDecimal decision.snapshot.netQty ∧
        intent.side =
          if Decimal.cmp decision.snapshot.netQty .zero > 0 then sell
          else buy := by
  unfold buildHedgeIntent
  rw [if_neg (by simp [htriggered]), if_neg (by simp [hmid]), if_neg hnet]
  exact ⟨_, rfl, rfl, rfl⟩

variable (config) in
theorem totalIntent_of_exceeded (h : PairFits triggers batch userId symbol)
    (hnet : netUnits (nettedFills batch userId symbol) ≠ 0)
    (hprice : 0 < (clearPriceOf batch symbol).toRat)
    (hexceeded : ThresholdExceeded triggers batch userId symbol) :
    ∃ intent,
      totalIntent triggers config batch
          ⟨userId, symbol, netQtyOf (nettedFills batch userId symbol)⟩ = some intent ∧
        intent.targetQty = absQtyOf (nettedFills batch userId symbol) ∧
        intent.side = if 0 < netUnits (nettedFills batch userId symbol) then sell else buy := by
  have hsum := h.sums _ ((mem_inits _ _).mpr prefix_rfl)
  have hcmp := cmp_netQtyOf hsum
  have hcmp0 : Decimal.cmp (netQtyOf (nettedFills batch userId symbol)) .zero ≠ 0 := by
    rw [hcmp]
    split
    · decide
    · rw [if_pos (by omega)]
      decide
  have htriggered := (triggered_iff h hprice).mpr hexceeded
  have hmid := (isPositive_iff h.price).mpr hprice
  have hside : (Decimal.cmp (netQtyOf (nettedFills batch userId symbol)) .zero > 0) ↔
      0 < netUnits (nettedFills batch userId symbol) := by
    rw [hcmp]
    split
    · omega
    · split <;> omega
  obtain ⟨intent, hintent, htarget, hsell⟩ :=
    buildHedgeIntent_of_triggered config htriggered hmid hcmp0
  refine ⟨intent, ?_, ?_, ?_⟩
  · rw [totalIntent, snapshot, if_neg hcmp0]
    exact hintent
  · rw [htarget]
    exact absDecimal_netQtyOf hsum h.opposite
  · rw [hsell]
    exact if_congr hside rfl rfl

theorem totalIntent_eq_none
    (h : PairFits triggers batch userId symbol)
    (hnot : ¬ (netUnits (nettedFills batch userId symbol) ≠ 0 ∧
      0 < (clearPriceOf batch symbol).toRat ∧ ThresholdExceeded triggers batch userId symbol)) :
    totalIntent triggers config batch
      ⟨userId, symbol, netQtyOf (nettedFills batch userId symbol)⟩ = none := by
  have hsum := h.sums _ ((mem_inits _ _).mpr prefix_rfl)
  have hmid := isPositive_iff h.price
  by_cases hnet : netUnits (nettedFills batch userId symbol) = 0
  · have hcmp0 : Decimal.cmp (netQtyOf (nettedFills batch userId symbol)) .zero = 0 := by
      rw [cmp_netQtyOf hsum, hnet]
      rfl
    rw [totalIntent, snapshot, if_pos hcmp0]
    rfl
  · rw [totalIntent, bind_eq_none_iff]
    intro snapshot hsnapshot
    unfold SnapshotAccumulator.snapshot at hsnapshot
    split at hsnapshot
    · cases hsnapshot
    · cases hsnapshot
      by_cases hprice : 0 < (clearPriceOf batch symbol).toRat
      · have htriggered := mt (triggered_iff h hprice).mp (fun hex => hnot ⟨hnet, hprice, hex⟩)
        exact if_pos (by simpa [clearPriceOf] using htriggered)
      · have hmid' : isPositive (clearPriceOf batch symbol) = false := by
          simpa using mt hmid.mp hprice
        unfold buildHedgeIntent
        split
        · rfl
        · exact if_pos (by simpa [clearPriceOf, evaluateSnapshot] using hmid')

theorem pairIntents_of_fills (h : HedgeNumbersFit triggers batch)
    (hne : nettedFills batch userId symbol ≠ []) :
    pairIntents (hedgeIntents triggers config batch) userId symbol =
      (totalIntent triggers config batch
        ⟨userId, symbol, netQtyOf (nettedFills batch userId symbol)⟩).toList := by
  rw [pairIntents_hedgeIntents, lookup_totals_pair h hne]
  apply filter_eq_self.mpr
  intro intent hintent
  exact decide_eq_true (totalIntent_pair (mem_toList.mp hintent))

theorem netExecuted_ne_zero_iff (h : HedgeNumbersFit triggers batch) :
    netExecuted batch userId symbol ≠ 0 ↔ netUnits (nettedFills batch userId symbol) ≠ 0 := by
  rw [netExecuted_eq h, ← netUnits_toRat, ne_eq, mul_eq_zero, or_iff_left (pow10_pos _).ne']
  exact_mod_cast Iff.rfl

theorem nettedFills_ne_nil (h : netUnits (nettedFills batch userId symbol) ≠ 0) :
    nettedFills batch userId symbol ≠ [] := by
  intro hnil
  rw [hnil] at h
  exact h rfl

theorem netExecuted_pos_iff (h : HedgeNumbersFit triggers batch) :
    0 < netExecuted batch userId symbol ↔ 0 < netUnits (nettedFills batch userId symbol) := by
  rw [netExecuted_eq h, ← netUnits_toRat, mul_pos_iff_of_pos_right (pow10_pos _)]
  exact_mod_cast Iff.rfl

variable (config) in
theorem hedged_iff (h : HedgeNumbersFit triggers batch) :
    pairIntents (hedgeIntents triggers config batch) userId symbol ≠ [] ↔
      netExecuted batch userId symbol ≠ 0 ∧ 0 < (clearPriceOf batch symbol).toRat ∧
        ThresholdExceeded triggers batch userId symbol := by
  rw [netExecuted_ne_zero_iff h]
  constructor
  · intro hsome
    by_contra hnot
    by_cases hne : nettedFills batch userId symbol = []
    · exact hsome (pairIntents_of_no_fills hne)
    · rw [pairIntents_of_fills h hne, totalIntent_eq_none (pairFits_of_mem h hne) hnot] at hsome
      exact hsome rfl
  · rintro ⟨hnet, hprice, hexceeded⟩
    have hne := nettedFills_ne_nil hnet
    obtain ⟨intent, hintent, -, -⟩ := totalIntent_of_exceeded config
      (pairFits_of_mem h hne) hnet hprice hexceeded
    rw [pairIntents_of_fills h hne, hintent]
    exact cons_ne_nil _ _

end Decision

section Batches

private def hedgeFill (side : Side) (executedQty : Decimal) : FlowFill :=
  { orderId := "o"
    userId := "u"
    instrument := { symbol := "BTC/USDT", base := "BTC", quote := "USDT" }
    side
    executedQty
    price := none
    executedNotional := Decimal.zero }

/-- A threshold on the quantity alone. -/
private def hedgeThreshold (qty : Int) (h : Int64Fits qty) : HedgeTriggerConfig :=
  { defaultThresholds := { thresholdQty := ⟨qty, 0, h⟩ } }

/-- A user buys ten. -/
private def hedgeBatch : BatchResult :=
  { batchId := "b"
    clearPrices := [("BTC/USDT", Decimal.of 100 0)]
    fills := [hedgeFill .buy (Decimal.of 10 0)]
    orderUpdates := [] }

/-- The user also sells two and a half. -/
private def hedgeBatchNet : BatchResult :=
  { hedgeBatch with
    fills := [hedgeFill .buy (Decimal.of 10 0), hedgeFill .sell (Decimal.of 25 1)] }

end Batches

end Matching
end ContExchange
