import ContExchange.Common.DecimalSums
import ContExchange.Common.Messages
import ContExchange.Lib.Grouping
import ContExchange.Lib.Loops

/-!
# Matching: the fill events of a batch

`BatchResultToFillEvents` gathers the fills of a batch into one event for each order and
provenance.  The events are kept under a text made of the order id and the four fields of the
provenance with a bar between them, and the price field holds the notional until a second
pass divides it by the quantity.

* `mem_events_iff`: what the events are;
* `fill_events_lose_nothing`: when the events lose nothing.
-/

namespace ContExchange
namespace Matching

open Common Lib Decimal
open List hiding keys

structure FillEvent where
  fillId : String
  orderId : String
  batchId : String
  assetLegs : List Instrument := []
  execQty : Decimal := Decimal.zero
  execPrice : Decimal := Decimal.zero
  liquiditySource : String
  fees : List Fee := []
  provenance : LiquidityProvenance
deriving DecidableEq

def normalizeProvenance (fill : FlowFill) : LiquidityProvenance :=
  if fill.provenance.liquiditySource = "" then
    { fill.provenance with
      liquiditySource := if fill.liquiditySource = "" then "internal" else fill.liquiditySource }
  else fill.provenance

def provenanceKey (provenance : LiquidityProvenance) : String :=
  provenance.liquiditySource ++ "|" ++ provenance.venueId ++ "|" ++ provenance.snapshotId ++ "|" ++
    provenance.curveId

def fillPair (fill : FlowFill) : String × LiquidityProvenance :=
  (fill.orderId, normalizeProvenance fill)

def FillEvent.pair (event : FillEvent) : String × LiquidityProvenance :=
  (event.orderId, event.provenance)

def pairKey (pair : String × LiquidityProvenance) : String :=
  pair.1 ++ "|" ++ provenanceKey pair.2

/-- `EnsureFillEvent`; `fillIds` gives the identifier drawn for a new key. -/
def ensureFillEvent (fillIds : String → String) (batchId : String) (row : Option FillEvent)
    (fill : FlowFill) : FillEvent :=
  row.getD
    { fillId := fillIds (pairKey (fillPair fill))
      orderId := fill.orderId
      batchId
      liquiditySource := (normalizeProvenance fill).liquiditySource
      provenance := normalizeProvenance fill }

/-- One round of the loop over the fills: the price field takes up the notional. -/
def addToEvent (fillIds : String → String) (batchId : String) (row : Option FillEvent)
    (fill : FlowFill) : FillEvent :=
  let event := ensureFillEvent fillIds batchId row fill
  { event with
    assetLegs := event.assetLegs ++ [fill.instrument]
    execQty := Decimal.add event.execQty fill.executedQty
    execPrice := Decimal.add event.execPrice fill.executedNotional
    fees := event.fees ++ [fill.fee.getD ⟨"", none⟩] }

/-- The second pass: the notional becomes a price. -/
def priceEvent (event : FillEvent) : FillEvent :=
  if event.execQty.units ≠ 0 then
    { event with execPrice := Decimal.divUnits event.execPrice event.execQty 8 }
  else event

/-- The table of the events before the second pass. -/
def eventTable (fillIds : String → String) (batch : BatchResult) : Table String FillEvent :=
  run (upsert (fun fill => pairKey (fillPair fill)) (addToEvent fillIds batch.batchId)) ∅
    batch.fills

/-- `BatchResultToFillEvents`; the order of the hash map is left open, the events stand in the
order of the table. -/
def batchResultToFillEvents (fillIds : String → String) (batch : BatchResult) : List FillEvent :=
  (eventTable fillIds batch).entries.map (fun entry => priceEvent entry.2)

def ownFills (pair : String × LiquidityProvenance) (fills : List FlowFill) : List FlowFill :=
  fills.filter (fun fill => fillPair fill = pair)

def totalQty (fills : List FlowFill) : ℚ :=
  (fills.map (fun fill => fill.executedQty.toRat)).sum

/-- The executed notional of fills, which is quantity times price. -/
def totalNotional (fills : List FlowFill) : ℚ :=
  (fills.map (fun fill => fill.executedNotional.toRat)).sum

/-- There is one event for each order and provenance, with the exact quantity of its fills and
their average price at eight places, and no quantity of an order is lost. -/
structure LosesNothing (fills : List FlowFill) (events : List FillEvent) : Prop where
  onePerPair : (events.map FillEvent.pair).Perm (fills.map fillPair).dedup
  qty : ∀ event ∈ events, event.execQty.toRat = totalQty (ownFills event.pair fills)
  price : ∀ event ∈ events, totalQty (ownFills event.pair fills) ≠ 0 →
    event.execPrice.toRat =
      Decimal.roundedTo 8
        (totalNotional (ownFills event.pair fills) / totalQty (ownFills event.pair fills))
  perOrder : ∀ orderId,
    ((events.filter (fun event => event.orderId = orderId)).map
      (fun event => event.execQty.toRat)).sum =
        totalQty (fills.filter (fun fill => fill.orderId = orderId))

/-- No two orders and provenances of the batch share a key. -/
def KeysApart (fills : List FlowFill) : Prop :=
  ∀ f ∈ fills, ∀ g ∈ fills, pairKey (fillPair f) = pairKey (fillPair g) → fillPair f = fillPair g

/-- The sums of the fills fit 64 bits at their finest scale, and so does the quotient of the
second pass. -/
structure SumsExact (own : List FlowFill) : Prop where
  qty : Decimal.SumsFit (own.map FlowFill.executedQty)
  notional : Decimal.SumsFit (own.map FlowFill.executedNotional)
  quotient : (Decimal.sumOf (own.map FlowFill.executedQty)).units ≠ 0 →
    Decimal.DivFits (Decimal.sumOf (own.map FlowFill.executedNotional))
      (Decimal.sumOf (own.map FlowFill.executedQty)) 8

instance (own : List FlowFill) : Decidable (SumsExact own) :=
  decidable_of_iff
    (Decimal.SumsFit (own.map FlowFill.executedQty) ∧
      Decimal.SumsFit (own.map FlowFill.executedNotional) ∧
        ((Decimal.sumOf (own.map FlowFill.executedQty)).units ≠ 0 →
          Decimal.DivFits (Decimal.sumOf (own.map FlowFill.executedNotional))
            (Decimal.sumOf (own.map FlowFill.executedQty)) 8))
    ⟨fun ⟨hqty, hnotional, hquotient⟩ => ⟨hqty, hnotional, hquotient⟩,
      fun h => ⟨h.qty, h.notional, h.quotient⟩⟩

section Events

variable {fillIds : String → String} {batch : BatchResult}

def FillEvent.gathered (event : FillEvent) (fills : List FlowFill) : FillEvent :=
  { event with
    assetLegs := event.assetLegs ++ fills.map FlowFill.instrument
    execQty := (fills.map FlowFill.executedQty).foldl Decimal.add event.execQty
    execPrice := (fills.map FlowFill.executedNotional).foldl Decimal.add event.execPrice
    fees := event.fees ++ fills.map (fun fill => fill.fee.getD ⟨"", none⟩) }

def firstEvent (fillIds : String → String) (batchId : String) (fill : FlowFill) : FillEvent :=
  ensureFillEvent fillIds batchId none fill

@[simp] theorem pair_firstEvent (fillIds : String → String) (batchId : String) (fill : FlowFill) :
    (firstEvent fillIds batchId fill).pair = fillPair fill := rfl

@[simp] theorem pair_gathered (event : FillEvent) (fills : List FlowFill) :
    (event.gathered fills).pair = event.pair := rfl

@[simp] theorem pair_priceEvent (event : FillEvent) : (priceEvent event).pair = event.pair := by
  unfold priceEvent
  split_ifs <;> rfl

@[simp] theorem execQty_priceEvent (event : FillEvent) :
    (priceEvent event).execQty = event.execQty := by
  unfold priceEvent
  split_ifs <;> rfl

theorem rowOf_addToEvent (batchId : String) (event : FillEvent) (fills : List FlowFill) :
    rowOf (addToEvent fillIds batchId) (some event) fills = some (event.gathered fills) := by
  induction fills generalizing event with
  | nil => simp [FillEvent.gathered]
  | cons fill fills ih =>
      rw [rowOf_cons, ih]
      simp [addToEvent, ensureFillEvent, FillEvent.gathered]

theorem first_of_filter {fills rest : List FlowFill} {fill : FlowFill} {key : String}
    (h : fills.filter (fun f => pairKey (fillPair f) = key) = fill :: rest) :
    fill ∈ fills ∧ pairKey (fillPair fill) = key := by
  have hmem : fill ∈ fills.filter (fun f => pairKey (fillPair f) = key) := by
    rw [h]
    exact mem_cons_self
  simpa using mem_filter.mp hmem

theorem lookup_eventTable {key : String} {event : FillEvent} :
    (eventTable fillIds batch).lookup key = some event ↔
      ∃ fill rest, batch.fills.filter (fun f => pairKey (fillPair f) = key) = fill :: rest ∧
        event = (firstEvent fillIds batch.batchId fill).gathered (fill :: rest) := by
  rw [eventTable, lookup_run_upsert, AList.lookup_empty]
  cases hfills : batch.fills.filter (fun f => decide (pairKey (fillPair f) = key)) with
  | nil => simp
  | cons fill rest =>
      have hfirst : rowOf (addToEvent fillIds batch.batchId) none (fill :: rest) =
          rowOf (addToEvent fillIds batch.batchId)
            (some (firstEvent fillIds batch.batchId fill)) (fill :: rest) := rfl
      rw [hfirst, rowOf_addToEvent]
      constructor
      · intro h
        exact ⟨fill, rest, rfl, (Option.some.inj h).symm⟩
      · rintro ⟨_, _, hsame, rfl⟩
        cases hsame
        rfl

theorem mem_events_iff {event : FillEvent} :
    event ∈ batchResultToFillEvents fillIds batch ↔
      ∃ fill rest, batch.fills.filter (fun f => pairKey (fillPair f) = pairKey (fillPair fill)) =
        fill :: rest ∧
          event = priceEvent ((firstEvent fillIds batch.batchId fill).gathered (fill :: rest)) := by
  unfold batchResultToFillEvents
  rw [mem_map]
  constructor
  · rintro ⟨⟨key, row⟩, hentry, rfl⟩
    obtain ⟨fill, rest, hfills, rfl⟩ := lookup_eventTable.mp (AList.mem_lookup_iff.mpr hentry)
    obtain ⟨-, rfl⟩ := first_of_filter hfills
    exact ⟨fill, rest, hfills, rfl⟩
  · rintro ⟨fill, rest, hfills, rfl⟩
    exact ⟨⟨pairKey (fillPair fill), _⟩,
      AList.mem_lookup_iff.mp (lookup_eventTable.mpr ⟨fill, rest, hfills, rfl⟩), rfl⟩

theorem exists_event (fillIds : String → String) {fill : FlowFill} (h : fill ∈ batch.fills) :
    ∃ event ∈ batchResultToFillEvents fillIds batch,
      pairKey event.pair = pairKey (fillPair fill) := by
  cases hfills : batch.fills.filter (fun f => pairKey (fillPair f) = pairKey (fillPair fill)) with
  | nil =>
      have hmem := filter_eq_nil_iff.mp hfills fill h
      simp at hmem
  | cons first rest =>
      have hkey := (first_of_filter hfills).2
      refine ⟨_, mem_events_iff.mpr ⟨first, rest, ?_, rfl⟩, ?_⟩
      · rw [hkey]
        exact hfills
      · simp [hkey]

theorem nodup_keys_events (fillIds : String → String) (batch : BatchResult) :
    ((batchResultToFillEvents fillIds batch).map (fun event => pairKey event.pair)).Nodup := by
  have hkeys : (batchResultToFillEvents fillIds batch).map (fun event => pairKey event.pair) =
      (eventTable fillIds batch).keys := by
    unfold batchResultToFillEvents AList.keys List.keys
    rw [map_map]
    refine map_congr_left fun entry hentry => ?_
    obtain ⟨fill, rest, hfills, hrow⟩ := lookup_eventTable.mp (AList.mem_lookup_iff.mpr hentry)
    simp [hrow, (first_of_filter hfills).2]
  rw [hkeys]
  exact (eventTable fillIds batch).nodupKeys

end Events

section Keys

variable {fillIds : String → String} {batch : BatchResult}

theorem exists_fill_of_event {event : FillEvent}
    (h : event ∈ batchResultToFillEvents fillIds batch) :
    ∃ fill ∈ batch.fills, fillPair fill = event.pair := by
  obtain ⟨fill, rest, hfills, rfl⟩ := mem_events_iff.mp h
  exact ⟨fill, (first_of_filter hfills).1, by simp⟩

theorem pairs_perm_iff (fillIds : String → String) (batch : BatchResult) :
    ((batchResultToFillEvents fillIds batch).map FillEvent.pair).Perm
        (batch.fills.map fillPair).dedup ↔ KeysApart batch.fills := by
  have hnodup : ((batchResultToFillEvents fillIds batch).map FillEvent.pair).Nodup := by
    refine List.Nodup.of_map pairKey ?_
    rw [map_map]
    exact nodup_keys_events fillIds batch
  rw [perm_ext_iff_of_nodup hnodup (nodup_dedup _)]
  simp only [mem_dedup, mem_map]
  constructor
  · -- two fills with one key belong to the same event
    intro hpairs f hf g hg hkey
    obtain ⟨event, hevent, hpair⟩ := (hpairs (fillPair f)).mpr ⟨f, hf, rfl⟩
    obtain ⟨other, hother, hpair'⟩ := (hpairs (fillPair g)).mpr ⟨g, hg, rfl⟩
    have hsame : event = other := by
      refine inj_on_of_nodup_map (nodup_keys_events fillIds batch) hevent hother ?_
      rw [hpair, hpair', hkey]
    rw [← hpair, ← hpair', hsame]
  · intro hapart pair
    constructor
    · rintro ⟨event, hevent, rfl⟩
      exact exists_fill_of_event hevent
    · rintro ⟨fill, hfill, rfl⟩
      obtain ⟨event, hevent, hkey⟩ := exists_event fillIds hfill
      obtain ⟨other, hother, hpair⟩ := exists_fill_of_event hevent
      rw [← hpair] at hkey
      exact ⟨event, hevent, hpair.symm.trans (hapart other hother fill hfill hkey)⟩

theorem event_of_keysApart (hapart : KeysApart batch.fills) {event : FillEvent}
    (h : event ∈ batchResultToFillEvents fillIds batch) :
    ∃ fill, event = priceEvent
      ((firstEvent fillIds batch.batchId fill).gathered (ownFills event.pair batch.fills)) := by
  obtain ⟨fill, rest, hfills, rfl⟩ := mem_events_iff.mp h
  have hown : ownFills (fillPair fill) batch.fills = fill :: rest := by
    rw [← hfills]
    refine filter_congr fun f hf => ?_
    have hiff : fillPair f = fillPair fill ↔ pairKey (fillPair f) = pairKey (fillPair fill) :=
      ⟨congrArg pairKey, hapart f hf fill (first_of_filter hfills).1⟩
    simp only [hiff]
  exact ⟨fill, by simp [hown]⟩

theorem priceEvent_exact {own : List FlowFill} (hexact : SumsExact own) (batchId : String)
    (fill : FlowFill) :
    (priceEvent ((firstEvent fillIds batchId fill).gathered own)).execQty.toRat = totalQty own ∧
      (totalQty own ≠ 0 →
        (priceEvent ((firstEvent fillIds batchId fill).gathered own)).execPrice.toRat =
          Decimal.roundedTo 8 (totalNotional own / totalQty own)) := by
  have hqty : ((firstEvent fillIds batchId fill).gathered own).execQty =
      Decimal.sumOf (own.map FlowFill.executedQty) :=
    foldl_add_eq_sumOf hexact.qty
  have hnotional : ((firstEvent fillIds batchId fill).gathered own).execPrice =
      Decimal.sumOf (own.map FlowFill.executedNotional) :=
    foldl_add_eq_sumOf hexact.notional
  have htotal : (Decimal.sumOf (own.map FlowFill.executedQty)).toRat = totalQty own := by
    rw [sumOf_toRat hexact.qty.whole, map_map]
    rfl
  have hvalue : (Decimal.sumOf (own.map FlowFill.executedNotional)).toRat = totalNotional own := by
    rw [sumOf_toRat hexact.notional.whole, map_map]
    rfl
  constructor
  · rw [execQty_priceEvent, hqty, htotal]
  · intro hne
    have hunits : (Decimal.sumOf (own.map FlowFill.executedQty)).units ≠ 0 := by
      rw [← htotal] at hne
      exact (toRat_eq_zero_iff _).not.mp hne
    unfold priceEvent
    rw [hqty, hnotional, if_pos hunits]
    dsimp only
    rw [divUnits_eq_roundedTo (hexact.quotient hunits), htotal, hvalue]

theorem perOrder_of_qty {fills : List FlowFill} {events : List FillEvent}
    (hpairs : (events.map FillEvent.pair).Perm (fills.map fillPair).dedup)
    (hqty : ∀ event ∈ events, event.execQty.toRat = totalQty (ownFills event.pair fills))
    (orderId : String) :
    ((events.filter (fun event => event.orderId = orderId)).map
      (fun event => event.execQty.toRat)).sum =
        totalQty (fills.filter (fun fill => fill.orderId = orderId)) := by
  have hevents : (events.filter (fun event => event.orderId = orderId)).map
      (fun event => event.execQty.toRat) =
        ((events.filter (fun event => event.orderId = orderId)).map FillEvent.pair).map
          (fun pair => totalQty (ownFills pair (fills.filter (fun f => f.orderId = orderId)))) := by
    rw [map_map]
    refine map_congr_left fun event hevent => ?_
    obtain ⟨hmem, horder⟩ := mem_filter.mp hevent
    have hown : ownFills event.pair (fills.filter (fun f => f.orderId = orderId)) =
        ownFills event.pair fills := by
      unfold ownFills
      rw [filter_filter]
      refine filter_congr fun f _ => ?_
      have himp : fillPair f = event.pair → f.orderId = orderId := fun hpair =>
        (congrArg Prod.fst hpair).trans (of_decide_eq_true horder)
      by_cases hpair : fillPair f = event.pair
      · simp [hpair, himp hpair]
      · simp [hpair]
    rw [Function.comp_apply, hown]
    exact hqty event hmem
  rw [hevents]
  refine sum_of_groups fillPair (fun fill => fill.executedQty.toRat) ?_ ?_
  · have hnodup : (events.map FillEvent.pair).Nodup := hpairs.nodup_iff.mpr (nodup_dedup _)
    exact hnodup.sublist (filter_sublist.map _)
  · intro fill hfill
    obtain ⟨hmem, horder⟩ := mem_filter.mp hfill
    have hpair : fillPair fill ∈ events.map FillEvent.pair :=
      hpairs.mem_iff.mpr (mem_dedup.mpr (mem_map_of_mem hmem))
    obtain ⟨event, hevent, heq⟩ := mem_map.mp hpair
    have hid : event.orderId = orderId :=
      (congrArg Prod.fst heq).trans (of_decide_eq_true horder)
    exact mem_map.mpr ⟨event, mem_filter.mpr ⟨hevent, decide_eq_true hid⟩, heq⟩

end Keys

/-- The events lose nothing only if no two orders and provenances share a key, and then they do
lose nothing, unless a sum or a quotient leaves 64 bits. -/
theorem fill_events_lose_nothing (fillIds : String → String) (batch : BatchResult) :
    (LosesNothing batch.fills (batchResultToFillEvents fillIds batch) → KeysApart batch.fills) ∧
      ((∀ fill ∈ batch.fills, SumsExact (ownFills (fillPair fill) batch.fills)) →
        KeysApart batch.fills →
          LosesNothing batch.fills (batchResultToFillEvents fillIds batch)) := by
  refine ⟨fun h => (pairs_perm_iff fillIds batch).mp h.onePerPair, ?_⟩
  intro hexact hapart
  have hevent : ∀ event ∈ batchResultToFillEvents fillIds batch,
      event.execQty.toRat = totalQty (ownFills event.pair batch.fills) ∧
        (totalQty (ownFills event.pair batch.fills) ≠ 0 →
          event.execPrice.toRat = Decimal.roundedTo 8
            (totalNotional (ownFills event.pair batch.fills) /
              totalQty (ownFills event.pair batch.fills))) := by
    intro event hmem
    obtain ⟨fill, hfill, hpair⟩ := exists_fill_of_event hmem
    obtain ⟨first, hgathered⟩ := event_of_keysApart hapart hmem
    have hown := hexact fill hfill
    rw [hpair] at hown
    generalize ownFills event.pair batch.fills = own at *
    rw [hgathered]
    exact priceEvent_exact hown batch.batchId first
  have hpairs := (pairs_perm_iff fillIds batch).mpr hapart
  exact
    { onePerPair := hpairs
      qty := fun event hmem => (hevent event hmem).1
      price := fun event hmem => (hevent event hmem).2
      perOrder := perOrder_of_qty hpairs fun event hmem => (hevent event hmem).1 }

def venueFill (venueId snapshotId : String) (qty notional : Decimal) : FlowFill where
  orderId := "order"
  userId := "user"
  instrument := ⟨"BTC/USDT", "BTC", "USDT"⟩
  side := .buy
  executedQty := qty
  price := none
  executedNotional := notional
  provenance :=
    { liquiditySource := "cex_hedge"
      venueId
      snapshotId
      curveId := "curve" }

/-- Two fills at one venue and one at another. -/
def apartBatch : BatchResult where
  batchId := "batch"
  fills :=
    [venueFill "binance" "1" (Decimal.of 1 2) (Decimal.of 3 4),
      venueFill "coinbase" "2" (Decimal.of 5 2) (Decimal.of 7 4),
      venueFill "binance" "1" (Decimal.of 2 2) (Decimal.of 8 4)]
  orderUpdates := []

theorem apartBatch_lossless :
    LosesNothing apartBatch.fills (batchResultToFillEvents id apartBatch) := by
  refine (fill_events_lose_nothing id apartBatch).2 (by decide +kernel) ?_
  unfold KeysApart
  decide +kernel

/-- Two venues and snapshots whose names run together. -/
def mergedBatch : BatchResult where
  batchId := "batch"
  fills :=
    [venueFill "a|b" "c" (Decimal.of 1 0) (Decimal.of 1 0),
      venueFill "a" "b|c" (Decimal.of 1 0) (Decimal.of 3 0)]
  orderUpdates := []

/-- Two fills of one pair whose sum does not fit 64 bits at one place. -/
def narrowedBatch : BatchResult where
  batchId := "batch"
  fills :=
    [venueFill "binance" "1" (Decimal.of 900000000000000000 0) (Decimal.of 1 0),
      venueFill "binance" "1" (Decimal.of 5 2) (Decimal.of 1 0)]
  orderUpdates := []

/-- Two pairs end in one event, and a sum is rounded. -/
theorem fills_lost :
    ¬LosesNothing mergedBatch.fills (batchResultToFillEvents id mergedBatch) ∧
      ¬LosesNothing narrowedBatch.fills (batchResultToFillEvents id narrowedBatch) := by
  constructor
  · intro h
    have hlength := h.onePerPair.length_eq
    revert hlength
    decide +kernel
  · intro h
    have hqty := h.qty
    revert hqty
    decide +kernel

end Matching
end ContExchange
