import ContExchange.MarketData.FlowOrderBook
import ContExchange.Matching.OrderEvents

/-!
# Market data: the quotes of a batch

`MarketDataUseCases` keeps the flow orders of the `orders.normalized` events in a
`FlowOrderBook` and computes a snapshot for every clear price of a batch: best prices
and depth come from the orders of the asset.

* `Session`: the book, with the orders that were created and the ids that were cancelled
  or reported terminal so far;
* `Session.current_step`: an event that meets `EventOk` leaves the book with exactly the
  active orders;
* `snapshots_active`: the snapshots of a run of such events show the active orders.

The book is told about creates and cancels only.  The order updates of a batch are not
read, so an order that is filled, expired or rejected stays in the quotes.
-/

namespace ContExchange
namespace MarketData

open Common Lib AList
open List hiding map_map
open Matching (ProtoFlowOrder)

def normalizeAsset (s : String) : String :=
  String.ofList (s.toList.filter (· ≠ '/'))

structure MarketDataSnapshot where
  asset : String
  batchId : String
  bestBid : Decimal
  bestAsk : Decimal
  spread : Decimal
  clearPrice : Decimal
  executedRate : Decimal := Decimal.zero
  volume24h : Decimal
  bidDepth : List DepthLevel := []
  askDepth : List DepthLevel := []

namespace ComputeMarketData

def extractClearPrice (batch : BatchResult) (asset : String) : Decimal :=
  (batch.clearPrices.lookup asset).getD Decimal.zero

def computeVolume24hFromBatch (batch : BatchResult) (asset : String) : Decimal :=
  batch.fills.foldl
    (fun total fill =>
      if fill.instrument.symbol = asset then Decimal.add total fill.executedQty else total)
    Decimal.zero

/-- `FromBatchResult` without a venue book. -/
def fromBatchResult (batch : BatchResult) (asset : String)
    (fobBestBid fobBestAsk : Option Decimal) : Option MarketDataSnapshot :=
  let clearPrice := extractClearPrice batch asset
  if Decimal.cmp clearPrice Decimal.zero ≤ 0 then none
  else
    let (bestBid, bestAsk) :=
      match fobBestBid, fobBestAsk with
      | some bid, some ask => (bid, ask)
      | _, _ => (clearPrice, clearPrice)
    some
      { asset := asset
        batchId := batch.batchId
        bestBid := bestBid
        bestAsk := bestAsk
        spread := Decimal.sub bestAsk bestBid
        clearPrice := clearPrice
        executedRate := batch.executedRates.head?.elim Decimal.zero Prod.snd
        volume24h := computeVolume24hFromBatch batch asset }

end ComputeMarketData

def entryOf (order : ProtoFlowOrder) : OrderEntry where
  priceLow := order.low
  priceHigh := order.high
  maxSpeed := order.speed
  isBuy := order.side == .buy

def onOrderCreate (book : FlowOrderBook) (order : ProtoFlowOrder) : FlowOrderBook :=
  if order.orderId = "" ∨ order.instrument.symbol = "" then book
  else
    book.addOrder order.orderId (normalizeAsset order.instrument.symbol) (entryOf order)

def onOrderCancel (book : FlowOrderBook) (orderId asset : String) : FlowOrderBook :=
  if asset = "" then book.removeOrderById orderId
  else book.removeOrder orderId (normalizeAsset asset)

/-- The snapshots of `OnBatchResult`. -/
def onBatchResult (depthLevels : Nat) (hash : HashOrder) (book : FlowOrderBook)
    (batch : BatchResult) : List MarketDataSnapshot :=
  batch.clearPrices.filterMap (fun entry =>
    let asset := normalizeAsset entry.1
    (ComputeMarketData.fromBatchResult batch entry.1
        (book.bestBid hash asset) (book.bestAsk hash asset)).map (fun snap =>
      { snap with
        asset := asset
        bidDepth := book.depthLevels hash asset true depthLevels
        askDepth := book.depthLevels hash asset false depthLevels }))

/-- What the consumer hands to the use cases: `orders.normalized` and `batch.outputs`. -/
inductive MarketEvent where
  | create (order : ProtoFlowOrder)
  | cancel (orderId : String)
  | batch (hash : HashOrder) (result : BatchResult)

def MarketEvent.createdId : MarketEvent → Option String
  | .create order => some order.orderId
  | _ => none

/-- An order that was created under an asset. -/
structure CreatedOrder where
  orderId : String
  asset : String
  entry : OrderEntry
deriving DecidableEq

/-- The book, with the orders that were created and the ids that were cancelled or
reported terminal so far. -/
structure Session where
  book : FlowOrderBook := {}
  created : List CreatedOrder := []
  ended : List String := []

/-- The orders that a batch reports filled, cancelled, expired or rejected. -/
def reportedTerminal (batch : BatchResult) : List String :=
  (batch.orderUpdates.filter (fun u => u.status.isTerminal)).map OrderStateUpdate.orderId

namespace Session

def active (s : Session) (asset : String) : List OrderEntry :=
  (s.created.filter (fun o => decide (o.asset = asset ∧ o.orderId ∉ s.ended))).map
    CreatedOrder.entry

/-- The created orders after a create; an order without id or symbol is none. -/
def record (created : List CreatedOrder) (order : ProtoFlowOrder) : List CreatedOrder :=
  if order.orderId = "" ∨ order.instrument.symbol = "" then created
  else
    { orderId := order.orderId
      asset := normalizeAsset order.instrument.symbol
      entry := entryOf order } :: created

def step (s : Session) : MarketEvent → Session
  | .create order =>
      { s with book := onOrderCreate s.book order, created := record s.created order }
  | .cancel orderId =>
      { s with book := onOrderCancel s.book orderId "", ended := orderId :: s.ended }
  | .batch _ result => { s with ended := reportedTerminal result ++ s.ended }

/-- A snapshot shows the active orders: the depth is theirs, and so are the best prices
when there are orders on both sides. -/
def Shows (depthLevels : Nat) (s : Session) (snap : MarketDataSnapshot) : Prop :=
  ∃ es : List OrderEntry, es.Perm (s.active snap.asset) ∧
    snap.bidDepth = MarketData.depthLevels es true depthLevels ∧
      snap.askDepth = MarketData.depthLevels es false depthLevels ∧
        ∀ bid ∈ bestBid es, ∀ ask ∈ bestAsk es, snap.bestBid = bid ∧ snap.bestAsk = ask

/-- The snapshots of an event show the orders that are active with it. -/
def QuotesActive (depthLevels : Nat) (s : Session) (e : MarketEvent) : Prop :=
  match e with
  | .batch hash result =>
      ∀ snap ∈ onBatchResult depthLevels hash s.book result, (s.step e).Shows depthLevels snap
  | _ => True

end Session

/-- The condition on an event: no order is created that has ended before, and a batch
reports no order terminal that is still active. -/
def EventOk (s : Session) : MarketEvent → Prop
  | .create order =>
      order.orderId = "" ∨ order.instrument.symbol = "" ∨ order.orderId ∉ s.ended
  | .cancel _ => True
  | .batch _ result =>
      ∀ o ∈ s.created, o.orderId ∈ reportedTerminal result → o.orderId ∈ s.ended

instance (s : Session) : (e : MarketEvent) → Decidable (EventOk s e)
  | .create _ => inferInstanceAs (Decidable (_ ∨ _ ∨ _))
  | .cancel _ => isTrue trivial
  | .batch _ _ => inferInstanceAs (Decidable (∀ o ∈ _, _))

namespace Session

structure Holds (s : Session) (live : LiveOrders) : Prop where
  tracks : TrackedBook.Tracks ⟨s.book, live⟩
  indexed : TrackedBook.Indexed ⟨s.book, live⟩
  found : ∀ orderId ∈ live, orderId ∈ s.book.orderAssetIndex
  active_iff : ∀ orderId asset entry, live.lookup orderId = some (asset, entry) ↔
    ⟨orderId, asset, entry⟩ ∈ s.created ∧ orderId ∉ s.ended
  distinct : (s.created.map CreatedOrder.orderId).Nodup

/-- The book holds exactly the active orders. -/
def Current (s : Session) : Prop :=
  ∃ live, s.Holds live

variable {s : Session} {live : LiveOrders}

theorem current_empty : Current {} :=
  ⟨∅, {
    tracks := fun _ _ _ => iff_of_false nofun nofun
    indexed := nofun
    found := nofun
    active_iff := fun _ _ _ => iff_of_false nofun nofun
    distinct := nodup_nil }⟩

theorem Holds.not_live (h : s.Holds live) {orderId : String}
    (hnew : orderId ∉ s.created.map CreatedOrder.orderId) : live.lookup orderId = none := by
  cases hlive : live.lookup orderId with
  | none => rfl
  | some v =>
      have hcreated := ((h.active_iff orderId v.1 v.2).mp hlive).1
      exact absurd (mem_map_of_mem hcreated) hnew

theorem Holds.add (h : s.Holds live) {orderId asset : String} (entry : OrderEntry)
    (hnew : orderId ∉ s.created.map CreatedOrder.orderId) (hopen : orderId ∉ s.ended) :
    Holds
      { s with
        book := s.book.addOrder orderId asset entry
        created := { orderId, asset, entry } :: s.created }
      (live.insert orderId (asset, entry)) where
  tracks := by
    refine (TrackedBook.tracks_add_iff h.tracks orderId asset entry).mpr ?_
    intro e he
    rw [h.not_live hnew] at he
    cases he
  indexed := TrackedBook.indexed_step h.indexed (.add orderId asset entry)
  found := by
    intro id hid
    rw [mem_insert] at hid
    exact (mem_insert _).mpr (hid.imp_right (h.found id))
  active_iff := by
    intro id a e
    by_cases hid : id = orderId
    · subst hid
      rw [lookup_insert]
      constructor
      · intro hsame
        cases hsame
        exact ⟨mem_cons_self, hopen⟩
      · rintro ⟨hmem, -⟩
        rcases mem_cons.mp hmem with hsame | hold
        · cases hsame
          rfl
        · exact absurd (mem_map_of_mem (f := CreatedOrder.orderId) hold) hnew
    · rw [lookup_insert_ne hid, h.active_iff id a e]
      refine and_congr_left (fun _ => ?_)
      rw [mem_cons]
      refine (or_iff_right ?_).symm
      intro hsame
      cases hsame
      exact hid rfl
  distinct := nodup_cons.mpr ⟨hnew, h.distinct⟩

theorem Holds.cancel (h : s.Holds live) (orderId : String) :
    Holds { s with book := s.book.removeOrderById orderId, ended := orderId :: s.ended }
      (live.erase orderId) where
  tracks :=
    (TrackedBook.tracks_removeById_iff h.indexed h.tracks orderId).mpr (h.found orderId)
  indexed := TrackedBook.indexed_step h.indexed (.removeById orderId)
  found := by
    intro id hid
    rw [mem_erase] at hid
    change id ∈ (s.book.removeOrderById orderId).orderAssetIndex
    unfold FlowOrderBook.removeOrderById
    cases s.book.orderAssetIndex.lookup orderId with
    | none => exact h.found id hid.2
    | some asset => exact mem_erase.mpr ⟨hid.1, h.found id hid.2⟩
  active_iff := by
    intro id a e
    rw [mem_cons, not_or]
    by_cases hid : id = orderId
    · subst hid
      rw [lookup_erase]
      exact iff_of_false nofun (fun hmem => hmem.2.1 rfl)
    · rw [lookup_erase_ne hid, h.active_iff id a e]
      exact and_congr_right (fun _ => (and_iff_right hid).symm)
  distinct := h.distinct

theorem Holds.batch (h : s.Holds live) {hash : HashOrder} {result : BatchResult}
    (hok : EventOk s (.batch hash result)) :
    Holds { s with ended := reportedTerminal result ++ s.ended } live where
  tracks := h.tracks
  indexed := h.indexed
  found := h.found
  active_iff := by
    intro id a e
    rw [h.active_iff id a e]
    refine and_congr_right (fun hcreated => ?_)
    rw [mem_append, not_or]
    constructor
    · intro hopen
      exact ⟨fun hreported => hopen (hok _ hcreated hreported), hopen⟩
    · exact And.right
  distinct := h.distinct

theorem current_step (h : s.Current) (e : MarketEvent)
    (hnew : ∀ orderId ∈ e.createdId, orderId ∉ s.created.map CreatedOrder.orderId)
    (hok : EventOk s e) : (s.step e).Current := by
  obtain ⟨live, h⟩ := h
  cases e with
  | create order =>
      by_cases hnone : order.orderId = "" ∨ order.instrument.symbol = ""
      · refine ⟨live, ?_⟩
        unfold step onOrderCreate record
        dsimp only
        rw [if_pos hnone, if_pos hnone]
        exact h
      · have hopen : order.orderId ∉ s.ended := by
          rcases hok with hid | hsymbol | hopen
          · exact absurd (.inl hid) hnone
          · exact absurd (.inr hsymbol) hnone
          · exact hopen
        refine ⟨live.insert order.orderId
          (normalizeAsset order.instrument.symbol, entryOf order), ?_⟩
        unfold step onOrderCreate record
        dsimp only
        rw [if_neg hnone, if_neg hnone]
        exact h.add _ (hnew _ rfl) hopen
  | cancel orderId => exact ⟨_, h.cancel orderId⟩
  | batch hash result => exact ⟨live, h.batch hok⟩

theorem Holds.perm_active (h : s.Holds live) (asset : String) :
    (live.under asset).Perm (s.active asset) := by
  let order : (Sigma fun _ : String => String × OrderEntry) → CreatedOrder :=
    fun e => ⟨e.1, e.2.1, e.2.2⟩
  have hlive : ((live.entries.map order).map CreatedOrder.orderId).Nodup := by
    rw [List.map_map]
    exact live.nodupKeys
  have hperm : ((live.entries.filter (fun e => decide (e.2.1 = asset))).map order).Perm
      (s.created.filter (fun o => decide (o.asset = asset ∧ o.orderId ∉ s.ended))) := by
    refine (perm_ext_iff_of_nodup ?_ ?_).mpr ?_
    · exact (List.Nodup.of_map CreatedOrder.orderId hlive).sublist (filter_sublist.map order)
    · exact (List.Nodup.of_map CreatedOrder.orderId h.distinct).filter _
    · rintro ⟨id, a, entry⟩
      have hactive := h.active_iff id a entry
      rw [mem_map, mem_filter, decide_eq_true_eq]
      constructor
      · rintro ⟨⟨id', a', entry'⟩, hmem, hsame⟩
        cases hsame
        obtain ⟨hentry, hasset⟩ := mem_filter.mp hmem
        have hfound := hactive.mp (mem_lookup_iff.mpr hentry)
        exact ⟨hfound.1, of_decide_eq_true hasset, hfound.2⟩
      · rintro ⟨hcreated, hasset, hopen⟩
        have hentry := mem_lookup_iff.mp (hactive.mpr ⟨hcreated, hopen⟩)
        exact ⟨⟨id, a, entry⟩, mem_filter.mpr ⟨hentry, decide_eq_true hasset⟩, rfl⟩
  have hmap := hperm.map CreatedOrder.entry
  rw [List.map_map] at hmap
  exact hmap

theorem quotesActive_of_current (depthLevels : Nat) {e : MarketEvent}
    (hafter : (s.step e).Current) : s.QuotesActive depthLevels e := by
  cases e with
  | create _ => trivial
  | cancel _ => trivial
  | batch hash result =>
      intro snap hsnap
      obtain ⟨live, hlive⟩ := hafter
      obtain ⟨entry, -, hentry⟩ := mem_filterMap.mp hsnap
      obtain ⟨quoted, hquoted, rfl⟩ := Option.map_eq_some_iff.mp hentry
      refine ⟨hash.values (s.book.ordersOf (normalizeAsset entry.1)), ?_, rfl, rfl, ?_⟩
      · refine (hash.perm _).trans ?_
        exact (TrackedBook.perm_under hlive.tracks _).trans (hlive.perm_active _)
      · intro bid hbid ask hask
        unfold ComputeMarketData.fromBatchResult at hquoted
        dsimp only at hquoted
        split at hquoted
        · cases hquoted
        · unfold FlowOrderBook.bestBid FlowOrderBook.bestAsk at hquoted
          rw [Option.mem_def.mp hbid, Option.mem_def.mp hask] at hquoted
          cases hquoted
          exact ⟨rfl, rfl⟩

end Session

namespace Session

theorem createdIds_step (s : Session) (e : MarketEvent) :
    ∀ id ∈ (s.step e).created.map CreatedOrder.orderId,
      id ∈ s.created.map CreatedOrder.orderId ∨ id ∈ e.createdId := by
  intro id hid
  cases e with
  | create order =>
      unfold step record at hid
      dsimp only at hid
      split at hid
      · exact .inl hid
      · rcases mem_cons.mp hid with rfl | hold
        · exact .inr rfl
        · exact .inl hold
  | cancel _ => exact .inl hid
  | batch _ _ => exact .inl hid

theorem quotesActive_from (depthLevels : Nat) (es : List MarketEvent) {s : Session}
    (h : s.Current)
    (hfresh : ∀ id ∈ es.filterMap MarketEvent.createdId, id ∉ s.created.map CreatedOrder.orderId)
    (hdistinct : (es.filterMap MarketEvent.createdId).Nodup) (hok : StepsMeet step EventOk s es) :
    StepsMeet step (QuotesActive depthLevels) s es := by
  induction es generalizing s with
  | nil => trivial
  | cons e es ih =>
      rw [filterMap_cons] at hfresh hdistinct
      have hnext : (s.step e).Current := by
        refine current_step h e (fun id hid => ?_) hok.1
        rw [Option.mem_def] at hid
        rw [hid] at hfresh
        exact hfresh id mem_cons_self
      refine ⟨quotesActive_of_current depthLevels hnext, ih hnext ?_ ?_ hok.2⟩
      · intro id hid hcreated
        rcases createdIds_step s e id hcreated with hold | hnow
        · refine hfresh id ?_ hold
          split
          · exact hid
          · exact mem_cons_of_mem _ hid
        · rw [Option.mem_def.mp hnow] at hdistinct
          exact (nodup_cons.mp hdistinct).1 hid
      · split at hdistinct
        · exact hdistinct
        · exact (nodup_cons.mp hdistinct).2

end Session

/-- When no order is created after it ended and no batch reports an active order
terminal, every snapshot of a run shows the active orders. -/
theorem snapshots_active (depthLevels : Nat) (es : List MarketEvent)
    (hdistinct : (es.filterMap MarketEvent.createdId).Nodup)
    (hok : StepsMeet Session.step EventOk {} es) :
    StepsMeet Session.step (Session.QuotesActive depthLevels) {} es :=
  Session.quotesActive_from depthLevels es Session.current_empty (fun _ _ => List.not_mem_nil)
    hdistinct hok

def btcBid : ProtoFlowOrder where
  orderId := "o1"
  userId := "u1"
  instrument := { symbol := "BTC/USDT", base := "BTC", quote := "USDT" }
  side := .buy
  priceLow := some (Decimal.of 90 0)
  priceHigh := some (Decimal.of 100 0)
  maxSpeed := some (Decimal.of 1 0)

def clearedAt95 (orderId : String) (status : OrderStatus) : BatchResult where
  clearPrices := [("BTC/USDT", Decimal.of 95 0)]
  fills := []
  orderUpdates := [{ orderId, status }]

/-- An order is filled in part, cancelled, and reported cancelled afterwards. -/
theorem snapshots_cancelled :
    StepsMeet Session.step (Session.QuotesActive 10) {}
      [.create btcBid, .batch .ofEntries (clearedAt95 "o1" .partiallyFilled), .cancel "o1",
        .batch .ofEntries (clearedAt95 "o1" .canceled)] :=
  snapshots_active 10 _ (by decide) (by decide)

/-- An order that the batch fills is still in its depth. -/
theorem snapshots_filled :
    ¬ StepsMeet Session.step (Session.QuotesActive 10) {}
      [.create btcBid, .batch .ofEntries (clearedAt95 "o1" .filled)] := by
  intro h
  obtain ⟨es, hperm, hbids, -⟩ := h.2.1 _ List.mem_cons_self
  have hnone : es = [] := hperm.eq_nil
  subst hnone
  have hdepth := congrArg List.length hbids
  exact absurd hdepth (by decide)

end MarketData
end ContExchange
