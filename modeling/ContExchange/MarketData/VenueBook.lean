import ContExchange.Common.Messages
import ContExchange.Lib.Runs

/-!
# Market data: the aggregated book of the venues

`UpdateOrderBookUseCase` keeps the latest snapshot of each venue and symbol, rebuilds one
aggregated book from them after every venue snapshot and publishes the book it keeps.
Raw market data replaces that book and batch results take from it.

* `Shows`: a side of a book has one level at every price of non-zero total, with that
  total as its quantity, and no other level;
* `mergeAll_shows`: the levels merged by the rebuild show the totals of the snapshots;
* `books_aggregate`: along every run whose events meet `SnapshotOk`, the book published
  after a venue snapshot shows the totals of the latest snapshots, whatever order they
  came in.

When nothing can be aggregated for a symbol the rebuild leaves the old book in place, and
it is published again.
-/

namespace ContExchange
namespace MarketData

open Common Lib AList Decimal
open List hiding filter_map

structure PriceLevel where
  price : Decimal
  quantity : Decimal
deriving DecidableEq

def bidCompare (lhs rhs : PriceLevel) : Bool :=
  decide (0 < Decimal.cmp lhs.price rhs.price)

def askCompare (lhs rhs : PriceLevel) : Bool :=
  decide (Decimal.cmp lhs.price rhs.price < 0)

section Set

variable (compare : PriceLevel → PriceLevel → Bool)

/-- Two levels that an ordered set takes for the same. -/
def sameLevel (a b : PriceLevel) : Bool :=
  !compare a b && !compare b a

/-- `find` at a price. -/
def findLevel (price : Decimal) (depth : List PriceLevel) : Option PriceLevel :=
  depth.find? (sameLevel compare { price, quantity := Decimal.zero })

/-- `erase` of what is found at a price. -/
def eraseLevel (price : Decimal) (depth : List PriceLevel) : List PriceLevel :=
  depth.eraseP (sameLevel compare { price, quantity := Decimal.zero })

/-- `insert`: a level that is there already stays as it is. -/
def insertLevel (level : PriceLevel) (depth : List PriceLevel) : List PriceLevel :=
  if depth.any (sameLevel compare level) then depth
  else depth.orderedInsert (fun a b => compare a b = true) level

/-- `merge_bid` and `merge_ask`. -/
def mergeQuantity (price qty : Decimal) (depth : List PriceLevel) : List PriceLevel :=
  if Decimal.cmp qty Decimal.zero ≤ 0 then depth
  else
    match findLevel compare price depth with
    | none => insertLevel compare { price, quantity := qty } depth
    | some it =>
        insertLevel compare { price, quantity := Decimal.add it.quantity qty }
          (eraseLevel compare price depth)

def mergeAll (levels : List (Decimal × Decimal)) : List PriceLevel :=
  levels.foldl (fun depth l => mergeQuantity compare l.1 l.2 depth) []

end Set

structure OrderBook where
  symbol : String
  source : String
  nonce : Nat
  bidDepth : List PriceLevel
  askDepth : List PriceLevel

structure VenueSnapshot where
  venueId : String
  symbol : String
  status : String
  bidPrices : List Decimal
  bidQuantities : List Decimal
  askPrices : List Decimal
  askQuantities : List Decimal
deriving DecidableEq

/-- `OrderBookSnapshot` of raw market data. -/
structure OrderBookSnapshot where
  venue : String := ""
  symbol : String := ""
  nonce : Nat := 0
  bids : List PriceLevel := []
  asks : List PriceLevel := []

def VenueSnapshot.venueSymbolKey (snapshot : VenueSnapshot) : String :=
  snapshot.venueId ++ "|" ++ snapshot.symbol

/-- `IsSnapshotAggregatable`. -/
def VenueSnapshot.isAggregatable (snapshot : VenueSnapshot) : Bool :=
  if snapshot.status = "empty" ∨ snapshot.status = "stale" ∨
      snapshot.status = "disconnected" ∨ snapshot.status = "off" then false
  else
    decide (0 < snapshot.bidPrices.length ∧ 0 < snapshot.askPrices.length ∧
      snapshot.bidQuantities.length = snapshot.bidPrices.length ∧
      snapshot.askQuantities.length = snapshot.askPrices.length)

def VenueSnapshot.levels (bidSide : Bool) (snapshot : VenueSnapshot) :
    List (Decimal × Decimal) :=
  if bidSide then snapshot.bidPrices.zip snapshot.bidQuantities
  else snapshot.askPrices.zip snapshot.askQuantities

/-- An order in which the map of snapshots is gone through. -/
structure SnapshotOrder where
  values : Table String VenueSnapshot → List VenueSnapshot
  perm : ∀ t, (values t).Perm (t.entries.map Sigma.snd)

/-- The order of the model's tables. -/
def SnapshotOrder.ofEntries : SnapshotOrder where
  values t := t.entries.map Sigma.snd
  perm _ := List.Perm.refl _

structure UpdateOrderBookUseCase where
  book : Option OrderBook := none
  venueAggregateNonce : Nat := 0
  latestVenueSnapshots : Table String VenueSnapshot := ∅

structure FillEvent where
  symbol : String
  side : Side
  execQty : Decimal
  execPrice : Decimal

/-- `FromString` of a source. -/
def marketSource (s : String) : String :=
  if s = "internal" then "internal" else if s = "binance" then "binance" else "unknown"

/-- `FromProto` of raw market data. -/
def OrderBook.fromProto (raw : OrderBookSnapshot) : OrderBook where
  symbol := raw.symbol
  source := marketSource raw.venue
  nonce := raw.nonce
  bidDepth := raw.bids.foldl (fun depth l => insertLevel bidCompare l depth) []
  askDepth := raw.asks.foldl (fun depth l => insertLevel askCompare l depth) []

/-- `ExtractFillEvents`: a fee in another currency than the base, or an id that is no UUID,
is an exception. -/
def extractFillEvents (isUuid : String → Bool) (result : BatchResult) :
    Option (List FillEvent) :=
  result.fills.mapM (fun e =>
    if e.fee.elim "" Fee.currency ≠ e.instrument.base then none
    else if isUuid result.batchId && isUuid e.orderId && isUuid e.userId then
      some
        { symbol := e.instrument.symbol
          side := e.side
          execQty := e.executedQty
          execPrice := e.price.getD Decimal.zero }
    else none)

/-- `apply` of `OrderBook::Update`: `none` when more is used than is there. -/
def applyFill (compare : PriceLevel → PriceLevel → Bool) (event : FillEvent)
    (depth : List PriceLevel) : Option (List PriceLevel) :=
  match findLevel compare event.execPrice depth with
  | none => some depth
  | some it =>
      let newQty := Decimal.sub it.quantity event.execQty
      if Decimal.cmp newQty Decimal.zero < 0 then none
      else if 0 < Decimal.cmp newQty Decimal.zero then
        some (insertLevel compare { price := event.execPrice, quantity := newQty }
          (eraseLevel compare event.execPrice depth))
      else some (eraseLevel compare event.execPrice depth)

/-- `OrderBook::Update` for the events in turn, and whether no exception was thrown. -/
def OrderBook.updateAll : List FillEvent → OrderBook → OrderBook × Bool
  | [], book => (book, true)
  | event :: events, book =>
      if event.symbol ≠ book.symbol then updateAll events book
      else
        let book := { book with nonce := book.nonce + 1 }
        if event.side = .buy then
          match applyFill askCompare event book.askDepth with
          | none => (book, false)
          | some depth => updateAll events { book with askDepth := depth }
        else
          match applyFill bidCompare event book.bidDepth with
          | none => (book, false)
          | some depth => updateAll events { book with bidDepth := depth }

namespace UpdateOrderBookUseCase

def aggregated (snapshots : List VenueSnapshot) (symbol : String) : List VenueSnapshot :=
  snapshots.filter (fun s => decide (s.symbol = symbol) && s.isAggregatable)

def rebuildAggregatedVenueBook (order : SnapshotOrder) (uc : UpdateOrderBookUseCase)
    (symbol : String) : UpdateOrderBookUseCase :=
  if symbol = "" then uc
  else
    let uc := { uc with venueAggregateNonce := uc.venueAggregateNonce + 1 }
    let snapshots := aggregated (order.values uc.latestVenueSnapshots) symbol
    let bidDepth := mergeAll bidCompare (snapshots.flatMap (VenueSnapshot.levels true))
    let askDepth := mergeAll askCompare (snapshots.flatMap (VenueSnapshot.levels false))
    if snapshots = [] ∨ bidDepth = [] ∨ askDepth = [] then uc
    else
      { uc with
        book := some
          { symbol := symbol
            source := "unknown"
            nonce := uc.venueAggregateNonce
            bidDepth := bidDepth
            askDepth := askDepth } }

/-- `OnVenueSnapshot`; the book it keeps afterwards is the one it publishes. -/
def onVenueSnapshot (order : SnapshotOrder) (uc : UpdateOrderBookUseCase)
    (snapshot : VenueSnapshot) : UpdateOrderBookUseCase :=
  rebuildAggregatedVenueBook order
    { uc with
      latestVenueSnapshots :=
        uc.latestVenueSnapshots.insert snapshot.venueSymbolKey snapshot }
    snapshot.symbol

def onMarketDataRaw (uc : UpdateOrderBookUseCase) (raw : OrderBookSnapshot) :
    UpdateOrderBookUseCase :=
  { uc with book := some (OrderBook.fromProto raw) }

/-- `OnBatchResult`, and the book it publishes. -/
def onBatchResult (isUuid : String → Bool) (uc : UpdateOrderBookUseCase)
    (result : BatchResult) : UpdateOrderBookUseCase × Option OrderBook :=
  match uc.book, extractFillEvents isUuid result with
  | some book, some events =>
      let (book, ok) := book.updateAll events
      ({ uc with book := some book }, if ok then some book else none)
  | _, _ => (uc, none)

end UpdateOrderBookUseCase

/-- The total quantity of the levels at a price. -/
def totalAt (levels : List (Decimal × Decimal)) (price : ℚ) : ℚ :=
  ((levels.filter (fun l => decide (l.1.toRat = price))).map (fun l => l.2.toRat)).sum

/-- The quantities of the levels of a side at a price. -/
def quantitiesAt (depth : List PriceLevel) (price : ℚ) : List ℚ :=
  (depth.filter (fun l => decide (l.price.toRat = price))).map (fun l => l.quantity.toRat)

/-- A side has one level at every price of non-zero total, and no other level. -/
def Shows (depth : List PriceLevel) (total : ℚ → ℚ) : Prop :=
  ∀ price, quantitiesAt depth price = if total price = 0 then [] else [total price]

/-- The prices can be compared, the quantities are of at most the given places and not
negative, and all of them together can be held. -/
structure Summable (places : Int) (levels : List (Decimal × Decimal)) : Prop where
  price : ∀ l ∈ levels, Decimal.ScaleOk l.1
  quantity : ∀ l ∈ levels, Decimal.OfScale places l.2
  nonneg : ∀ l ∈ levels, 0 ≤ l.2.toRat
  total : (levels.map (fun l => l.2.toRat)).sum ≤ Decimal.limit places

theorem totalAt_append (levels : List (Decimal × Decimal)) (l : Decimal × Decimal) (price : ℚ) :
    totalAt (levels ++ [l]) price =
      totalAt levels price + if l.1.toRat = price then l.2.toRat else 0 := by
  unfold totalAt
  by_cases h : l.1.toRat = price
  · simp [h]
  · simp [h]

theorem totalAt_perm {levels levels' : List (Decimal × Decimal)} (h : levels.Perm levels')
    (price : ℚ) : totalAt levels price = totalAt levels' price :=
  ((h.filter _).map _).sum_eq

theorem Summable.perm {places : Int} {levels levels' : List (Decimal × Decimal)}
    (h : levels.Perm levels') (hsum : Summable places levels) : Summable places levels' where
  price l hl := hsum.price l (h.mem_iff.mpr hl)
  quantity l hl := hsum.quantity l (h.mem_iff.mpr hl)
  nonneg l hl := hsum.nonneg l (h.mem_iff.mpr hl)
  total := (h.map (fun l => l.2.toRat)).sum_eq ▸ hsum.total

theorem Summable.left {places : Int} {levels : List (Decimal × Decimal)} {l : Decimal × Decimal}
    (h : Summable places (levels ++ [l])) : Summable places levels where
  price l' hl := h.price l' (mem_append_left _ hl)
  quantity l' hl := h.quantity l' (mem_append_left _ hl)
  nonneg l' hl := h.nonneg l' (mem_append_left _ hl)
  total := by
    have hall := h.total
    have hlast := h.nonneg l (by simp)
    rw [map_append, sum_append] at hall
    simp only [map_cons, map_nil, sum_cons, sum_nil, add_zero] at hall
    linarith

theorem Summable.totalAt_le {places : Int} {levels : List (Decimal × Decimal)}
    (h : Summable places levels) (price : ℚ) :
    0 ≤ totalAt levels price ∧ totalAt levels price ≤ Decimal.limit places := by
  have hnonneg : ∀ q ∈ levels.map (fun l => l.2.toRat), 0 ≤ q := by
    intro q hq
    obtain ⟨l, hl, rfl⟩ := mem_map.mp hq
    exact h.nonneg l hl
  have hsub : ((levels.filter (fun l => decide (l.1.toRat = price))).map
      (fun l => l.2.toRat)).Sublist (levels.map (fun l => l.2.toRat)) :=
    filter_sublist.map _
  constructor
  · exact sum_nonneg (fun q hq => hnonneg q (hsub.subset hq))
  · exact (hsub.sum_le_sum hnonneg).trans h.total

theorem Shows.perm {depth depth' : List PriceLevel} {total : ℚ → ℚ}
    (h : depth.Perm depth') (hshows : Shows depth total) : Shows depth' total := by
  intro price
  have hperm : (quantitiesAt depth' price).Perm (quantitiesAt depth price) :=
    ((h.filter _).map _).symm
  rw [hshows price] at hperm
  split at hperm
  · rename_i hzero
    rw [if_pos hzero]
    exact hperm.eq_nil
  · rename_i hzero
    rw [if_neg hzero]
    exact perm_singleton.mp hperm

theorem Shows.quantity {depth : List PriceLevel} {total : ℚ → ℚ}
    (h : Shows depth total) {l : PriceLevel} (hl : l ∈ depth) :
    l.quantity.toRat = total l.price.toRat := by
  have hmem : l.quantity.toRat ∈ quantitiesAt depth l.price.toRat :=
    mem_map_of_mem (mem_filter.mpr ⟨hl, decide_eq_true rfl⟩)
  rw [h] at hmem
  split at hmem
  · cases hmem
  · exact mem_singleton.mp hmem

theorem Shows.total_eq_zero {depth : List PriceLevel} {total : ℚ → ℚ}
    (h : Shows depth total) {price : ℚ} (hnone : ∀ l ∈ depth, l.price.toRat ≠ price) :
    total price = 0 := by
  have hempty : quantitiesAt depth price = [] := by
    unfold quantitiesAt
    rw [map_eq_nil_iff, filter_eq_nil_iff]
    exact fun l hl => by simp [hnone l hl]
  have hshows := h price
  rw [hempty] at hshows
  by_contra hne
  rw [if_neg hne] at hshows
  cases hshows

theorem Shows.cons {depth : List PriceLevel} {total total' : ℚ → ℚ} (h : Shows depth total)
    {level : PriceLevel} (hnone : total level.price.toRat = 0)
    (hquantity : level.quantity.toRat ≠ 0)
    (htotal : ∀ price, total' price =
      total price + if level.price.toRat = price then level.quantity.toRat else 0) :
    Shows (level :: depth) total' := by
  intro price
  have hprice := h price
  unfold quantitiesAt at hprice ⊢
  rw [htotal]
  by_cases hsame : level.price.toRat = price
  · subst hsame
    rw [if_pos hnone] at hprice
    rw [filter_cons_of_pos (by simp), map_cons, hprice, if_pos rfl, hnone, zero_add,
      if_neg hquantity]
  · rw [filter_cons_of_neg (by simp [hsame]), if_neg hsame, add_zero]
    exact hprice

theorem Shows.uncons {depth : List PriceLevel} {total total' : ℚ → ℚ} {level : PriceLevel}
    (h : Shows (level :: depth) total)
    (htotal : ∀ price, total' price = if level.price.toRat = price then 0 else total price) :
    Shows depth total' := by
  intro price
  have hprice := h price
  unfold quantitiesAt at hprice ⊢
  rw [htotal]
  by_cases hsame : level.price.toRat = price
  · rw [if_pos hsame]
    rw [filter_cons_of_pos (by simp [hsame])] at hprice
    split at hprice
    · cases hprice
    · exact (List.cons.inj hprice).2
  · rw [if_neg hsame]
    rw [filter_cons_of_neg (by simp [hsame])] at hprice
    exact hprice

section Merge

variable {compare : PriceLevel → PriceLevel → Bool}

/-- The set takes two levels for the same exactly when their prices are equal. -/
def ComparesPrices (compare : PriceLevel → PriceLevel → Bool) : Prop :=
  ∀ a b : PriceLevel, Decimal.ScaleOk a.price → Decimal.ScaleOk b.price →
    (sameLevel compare a b = true ↔ a.price.toRat = b.price.toRat)

theorem bidCompare_prices : ComparesPrices bidCompare := by
  intro a b ha hb
  unfold sameLevel bidCompare
  have hab := cmp_pos_iff ha hb
  have hba := cmp_pos_iff hb ha
  simp only [Bool.and_eq_true, Bool.not_eq_true', decide_eq_false_iff_not]
  rw [hab, hba, not_lt, not_lt]
  exact ⟨fun h => le_antisymm h.1 h.2, fun h => ⟨h.le, h.ge⟩⟩

theorem askCompare_prices : ComparesPrices askCompare := by
  intro a b ha hb
  unfold sameLevel askCompare
  have hab := cmp_neg_iff ha hb
  have hba := cmp_neg_iff hb ha
  simp only [Bool.and_eq_true, Bool.not_eq_true', decide_eq_false_iff_not]
  rw [hab, hba, not_lt, not_lt]
  exact ⟨fun h => le_antisymm h.2 h.1, fun h => ⟨h.ge, h.le⟩⟩

/-- What the merge keeps: the side shows the totals of the levels merged so far. -/
structure Merged (places : Int) (levels : List (Decimal × Decimal)) (depth : List PriceLevel) :
    Prop where
  shows_total : Shows depth (totalAt levels)
  price : ∀ l ∈ depth, Decimal.ScaleOk l.price
  quantity : ∀ l ∈ depth, Decimal.OfScale places l.quantity

variable {places : Int} {levels : List (Decimal × Decimal)} {depth : List PriceLevel}

theorem insertLevel_perm {level : PriceLevel}
    (hnew : ∀ l ∈ depth, sameLevel compare level l = false) :
    (insertLevel compare level depth).Perm (level :: depth) := by
  unfold insertLevel
  rw [if_neg (by simpa using hnew)]
  exact perm_orderedInsert _ level depth

theorem fresh_level (hprices : ComparesPrices compare) {level : PriceLevel}
    (hprice : Decimal.ScaleOk level.price) (hdepth : ∀ l ∈ depth, Decimal.ScaleOk l.price)
    (habsent : ∀ l ∈ depth, l.price.toRat ≠ level.price.toRat) :
    ∀ l ∈ depth, sameLevel compare level l = false := by
  intro l hl
  rw [Bool.eq_false_iff]
  intro hsame
  exact habsent l hl ((hprices level l hprice (hdepth l hl)).mp hsame).symm

theorem find_erase_perm {price : Decimal} {it : PriceLevel}
    (h : findLevel compare price depth = some it) :
    depth.Perm (it :: eraseLevel compare price depth) ∧
      sameLevel compare { price, quantity := .zero } it = true := by
  obtain ⟨hsame, before, after, rfl, hbefore⟩ := find?_eq_some_iff_append.mp h
  have hskip : ∀ l ∈ before, ¬ sameLevel compare { price, quantity := .zero } l = true := by
    intro l hl
    simpa using hbefore l hl
  unfold eraseLevel
  rw [eraseP_append_right _ hskip, eraseP_cons_of_pos hsame]
  exact ⟨perm_middle, hsame⟩

theorem merged_of_perm {level : PriceLevel} {depth' : List PriceLevel}
    (hperm : depth'.Perm (level :: depth))
    (hprice : Decimal.ScaleOk level.price) (hquantity : Decimal.OfScale places level.quantity)
    (hshows : Shows depth' (totalAt levels))
    (hprices : ∀ l ∈ depth, Decimal.ScaleOk l.price)
    (hquantities : ∀ l ∈ depth, Decimal.OfScale places l.quantity) :
    Merged places levels depth' where
  shows_total := hshows
  price l hl := by
    rcases mem_cons.mp (hperm.mem_iff.mp hl) with rfl | hold
    · exact hprice
    · exact hprices l hold
  quantity l hl := by
    rcases mem_cons.mp (hperm.mem_iff.mp hl) with rfl | hold
    · exact hquantity
    · exact hquantities l hold

theorem Merged.step (hprices : ComparesPrices compare) (hplaces : places ≤ 18)
    (h : Merged places levels depth) {price qty : Decimal}
    (hsum : Summable places (levels ++ [(price, qty)])) :
    Merged places (levels ++ [(price, qty)]) (mergeQuantity compare price qty depth) := by
  have hprice : Decimal.ScaleOk price := hsum.price (price, qty) (by simp)
  have hqty : Decimal.OfScale places qty := hsum.quantity (price, qty) (by simp)
  have hnonneg : 0 ≤ qty.toRat := hsum.nonneg (price, qty) (by simp)
  have hcmp := cmp_nonpos_iff (hqty.scaleOk hplaces) scaleOk_zero
  have hzero : Decimal.zero.toRat = 0 := by decide +kernel
  rw [hzero] at hcmp
  unfold mergeQuantity
  split
  · rename_i hdrop
    have hnothing : qty.toRat = 0 := le_antisymm (hcmp.mp hdrop) hnonneg
    refine ⟨fun p => ?_, h.price, h.quantity⟩
    rw [totalAt_append, hnothing, ite_self, add_zero]
    exact h.shows_total p
  · rename_i hkeep
    have hpos : qty.toRat ≠ 0 := fun heq => hkeep (hcmp.mpr heq.le)
    cases hfind : findLevel compare price depth with
    | none =>
        have hnone : ∀ l ∈ depth, sameLevel compare ⟨price, .zero⟩ l = false := by
          intro l hl
          simpa using find?_eq_none.mp hfind l hl
        have habsent : ∀ l ∈ depth, l.price.toRat ≠ price.toRat := by
          intro l hl heq
          have hsame := (hprices ⟨price, .zero⟩ l hprice (h.price l hl)).mpr heq.symm
          rw [hnone l hl] at hsame
          cases hsame
        have hfresh : ∀ l ∈ depth, sameLevel compare ⟨price, qty⟩ l = false :=
          fresh_level hprices hprice h.price habsent
        have hperm := insertLevel_perm hfresh
        have hcons : Shows (⟨price, qty⟩ :: depth) (totalAt (levels ++ [(price, qty)])) :=
          h.shows_total.cons (h.shows_total.total_eq_zero habsent) hpos
            (totalAt_append levels (price, qty))
        exact merged_of_perm hperm hprice hqty (hcons.perm hperm.symm) h.price h.quantity
    | some it =>
        obtain ⟨herase, hsame⟩ := find_erase_perm hfind
        have hitem : it ∈ depth := herase.mem_iff.mpr mem_cons_self
        have hat : price.toRat = it.price.toRat :=
          (hprices ⟨price, .zero⟩ it hprice (h.price it hitem)).mp hsame
        have hall : Shows (it :: eraseLevel compare price depth) (totalAt levels) :=
          h.shows_total.perm herase
        have hrest : Shows (eraseLevel compare price depth)
            (fun p => if it.price.toRat = p then 0 else totalAt levels p) :=
          hall.uncons (fun _ => rfl)
        -- the running quantity is the total at the price, so the addition is exact
        have hold : it.quantity.toRat = totalAt levels price.toRat := by
          rw [hat]
          exact h.shows_total.quantity hitem
        have hnew : it.quantity.toRat + qty.toRat =
            totalAt (levels ++ [(price, qty)]) price.toRat := by
          rw [totalAt_append, if_pos rfl, hold]
        have hbound := hsum.totalAt_le price.toRat
        have hexact : Decimal.AddExact it.quantity qty := by
          refine addExact_of_limit (h.quantity it hitem) hqty ?_
          rw [hnew, abs_of_nonneg hbound.1]
          exact hbound.2
        have hadd := add_toRat hexact
        have hsub : ∀ l ∈ eraseLevel compare price depth, l ∈ depth := fun l hl =>
          herase.mem_iff.mpr (mem_cons_of_mem _ hl)
        have hgone : ∀ l ∈ eraseLevel compare price depth, l.price.toRat ≠ price.toRat := by
          intro l hl heq
          have hone := hall price.toRat
          unfold quantitiesAt at hone
          rw [filter_cons_of_pos (by simp [hat])] at hone
          split at hone
          · cases hone
          · have hempty := (List.cons.inj hone).2
            rw [map_eq_nil_iff, filter_eq_nil_iff] at hempty
            exact hempty l hl (by simp [heq])
        have hfresh : ∀ l ∈ eraseLevel compare price depth,
            sameLevel compare ⟨price, Decimal.add it.quantity qty⟩ l = false :=
          fresh_level hprices hprice (fun l hl => h.price l (hsub l hl)) hgone
        have hperm := insertLevel_perm hfresh
        have hcons : Shows
            (⟨price, Decimal.add it.quantity qty⟩ :: eraseLevel compare price depth)
            (totalAt (levels ++ [(price, qty)])) := by
          have hle := (hsum.left).totalAt_le price.toRat
          refine hrest.cons (if_pos hat.symm) ?_ (fun p => ?_)
          · have hqtypos : 0 < qty.toRat := lt_of_le_of_ne hnonneg (Ne.symm hpos)
            linarith [hle.1]
          · rw [totalAt_append, hadd, hold]
            by_cases hp : price.toRat = p
            · subst hp
              rw [if_pos rfl, if_pos hat.symm, if_pos rfl, zero_add]
            · rw [if_neg hp, if_neg hp, if_neg (fun heq => hp (hat.trans heq))]
        exact merged_of_perm hperm hprice
          (add_ofScale (h.quantity it hitem) hqty hexact)
          (hcons.perm hperm.symm) (fun l hl => h.price l (hsub l hl))
          (fun l hl => h.quantity l (hsub l hl))

theorem mergeAll_shows (hprices : ComparesPrices compare) (hplaces : places ≤ 18)
    (hsum : Summable places levels) : Shows (mergeAll compare levels) (totalAt levels) := by
  suffices hmerged : Merged places levels (mergeAll compare levels) from hmerged.shows_total
  induction levels using List.reverseRecOn with
  | nil =>
      have hnil : mergeAll compare [] = [] := rfl
      rw [hnil]
      refine ⟨fun price => ?_, fun _ hl => absurd hl not_mem_nil, fun _ hl => absurd hl not_mem_nil⟩
      simp [totalAt, quantitiesAt]
  | append_singleton levels l ih =>
      have hlast : mergeAll compare (levels ++ [l]) =
          mergeQuantity compare l.1 l.2 (mergeAll compare levels) := by
        unfold mergeAll
        rw [foldl_append]
        rfl
      rw [hlast]
      exact (ih hsum.left).step hprices hplaces hsum

theorem mergeAll_eq_nil_iff (hprices : ComparesPrices compare) (hplaces : places ≤ 18)
    (hsum : Summable places levels) :
    mergeAll compare levels = [] ↔ ∀ l ∈ levels, ¬ 0 < l.2.toRat := by
  have hshows := mergeAll_shows hprices hplaces hsum
  constructor
  · intro hempty l hl hpos
    rw [hempty] at hshows
    have hzero : totalAt levels l.1.toRat = 0 := hshows.total_eq_zero (fun _ h => nomatch h)
    have hle : l.2.toRat ≤ totalAt levels l.1.toRat := by
      refine single_le_sum (fun q hq => ?_) _ (mem_map_of_mem
        (mem_filter.mpr ⟨hl, decide_eq_true rfl⟩))
      obtain ⟨l', hl', rfl⟩ := mem_map.mp hq
      exact hsum.nonneg l' (mem_of_mem_filter hl')
    exact absurd hpos (not_lt.mpr (hle.trans_eq hzero))
  · intro hnone
    have hzero : ∀ price, totalAt levels price = 0 := by
      intro price
      refine sum_eq_zero (fun q hq => ?_)
      obtain ⟨l, hl, rfl⟩ := mem_map.mp hq
      have hmem := mem_of_mem_filter hl
      exact le_antisymm (not_lt.mp (hnone l hmem)) (hsum.nonneg l hmem)
    rw [eq_nil_iff_forall_not_mem]
    intro l hl
    have hat := hshows l.price.toRat
    unfold quantitiesAt at hat
    rw [if_pos (hzero _), map_eq_nil_iff, filter_eq_nil_iff] at hat
    exact hat l hl (decide_eq_true rfl)

end Merge

/-- What the use case is told. -/
inductive BookUpdate where
  | snapshot (order : SnapshotOrder) (snapshot : VenueSnapshot)
  | raw (raw : OrderBookSnapshot)
  | batch (result : BatchResult)

/-- The use case with the latest snapshot of each venue and symbol, the book the last
event published and the last one published for each symbol. -/
structure VenueBooks where
  useCase : UpdateOrderBookUseCase := {}
  latest : List VenueSnapshot := []
  published : Option OrderBook := none
  shown : Table String OrderBook := ∅

namespace VenueBooks

def arrive (latest : List VenueSnapshot) (snapshot : VenueSnapshot) : List VenueSnapshot :=
  snapshot :: latest.filter
    (fun s => !decide (s.venueId = snapshot.venueId ∧ s.symbol = snapshot.symbol))

def publish (s : VenueBooks) (published : Option OrderBook) : VenueBooks :=
  { s with
    published
    shown := published.elim s.shown (fun book => s.shown.insert book.symbol book) }

/-- One event. -/
def step (isUuid : String → Bool) (s : VenueBooks) : BookUpdate → VenueBooks
  | .snapshot order snapshot =>
      let useCase := s.useCase.onVenueSnapshot order snapshot
      publish { s with useCase, latest := arrive s.latest snapshot } useCase.book
  | .raw raw =>
      let useCase := s.useCase.onMarketDataRaw raw
      publish { s with useCase } useCase.book
  | .batch result =>
      let (useCase, published) := s.useCase.onBatchResult isUuid result
      publish { s with useCase } published

def levels (latest : List VenueSnapshot) (symbol : String) (bidSide : Bool) :
    List (Decimal × Decimal) :=
  (UpdateOrderBookUseCase.aggregated latest symbol).flatMap (VenueSnapshot.levels bidSide)

def Aggregates (latest : List VenueSnapshot) (book : OrderBook) : Prop :=
  Shows book.bidDepth (totalAt (levels latest book.symbol true)) ∧
    Shows book.askDepth (totalAt (levels latest book.symbol false))

/-- Two books have the same quantities at every price. -/
def SameLevels (a b : OrderBook) : Prop :=
  ∀ price, quantitiesAt a.bidDepth price = quantitiesAt b.bidDepth price ∧
    quantitiesAt a.askDepth price = quantitiesAt b.askDepth price

/-- After a venue snapshot, the book that is published and the last one published for its
symbol show the totals of the latest snapshots. -/
def BooksAggregate (isUuid : String → Bool) (s : VenueBooks) (e : BookUpdate) : Prop :=
  match e with
  | .snapshot _ snapshot =>
      let s := s.step isUuid e
      (∀ book ∈ s.published, Aggregates s.latest book) ∧
        ∀ book ∈ s.shown.lookup snapshot.symbol, Aggregates s.latest book
  | _ => True

/-- The places the quantities of a side are given in. -/
def places (ls : List (Decimal × Decimal)) : Int :=
  (ls.map (fun l => l.2.scale)).foldl max 0

/-- There is a positive quantity on both sides. -/
def TwoSided (latest : List VenueSnapshot) (symbol : String) : Prop :=
  (∃ l ∈ levels latest symbol true, 0 < l.2.toRat) ∧
    ∃ l ∈ levels latest symbol false, 0 < l.2.toRat
deriving Decidable

/-- The amounts of a side can be compared and added. -/
def SideOk (ls : List (Decimal × Decimal)) : Prop :=
  places ls ≤ 18 ∧ (∀ l ∈ ls, Decimal.ScaleOk l.1 ∧ Decimal.OfScale (places ls) l.2 ∧
    0 ≤ l.2.toRat) ∧ (ls.map (fun l => l.2.toRat)).sum ≤ Decimal.limit (places ls)
deriving Decidable

/-- The condition on a venue snapshot: its key is that of no other venue and symbol, the
amounts of its symbol can be added, and there is something to aggregate for its symbol on
both sides unless no book is kept yet. -/
structure SnapshotOk (s : VenueBooks) (snapshot : VenueSnapshot) : Prop where
  key : ∀ w ∈ s.latest, w.venueSymbolKey = snapshot.venueSymbolKey →
    w.venueId = snapshot.venueId ∧ w.symbol = snapshot.symbol
  bids : SideOk (levels (arrive s.latest snapshot) snapshot.symbol true)
  asks : SideOk (levels (arrive s.latest snapshot) snapshot.symbol false)
  current : (snapshot.symbol ≠ "" ∧ TwoSided (arrive s.latest snapshot) snapshot.symbol) ∨
    s.useCase.book.isNone

/-- The condition on an event. -/
def UpdateOk (s : VenueBooks) : BookUpdate → Prop
  | .snapshot _ snapshot => SnapshotOk s snapshot
  | .raw _ => True
  | .batch _ => True

instance (s : VenueBooks) (snapshot : VenueSnapshot) : Decidable (SnapshotOk s snapshot) :=
  decidable_of_iff
    ((∀ w ∈ s.latest, w.venueSymbolKey = snapshot.venueSymbolKey →
        w.venueId = snapshot.venueId ∧ w.symbol = snapshot.symbol) ∧
      SideOk (levels (arrive s.latest snapshot) snapshot.symbol true) ∧
      SideOk (levels (arrive s.latest snapshot) snapshot.symbol false) ∧
      ((snapshot.symbol ≠ "" ∧ TwoSided (arrive s.latest snapshot) snapshot.symbol) ∨
        s.useCase.book.isNone))
    ⟨fun h => ⟨h.1, h.2.1, h.2.2.1, h.2.2.2⟩, fun h => ⟨h.key, h.bids, h.asks, h.current⟩⟩

instance (s : VenueBooks) : (e : BookUpdate) → Decidable (UpdateOk s e)
  | .snapshot _ snapshot => inferInstanceAs (Decidable (SnapshotOk s snapshot))
  | .raw _ => isTrue trivial
  | .batch _ => isTrue trivial

theorem SideOk.summable {ls : List (Decimal × Decimal)} (h : SideOk ls) :
    Summable (places ls) ls where
  price l hl := (h.2.1 l hl).1
  quantity l hl := (h.2.1 l hl).2.1
  nonneg l hl := (h.2.1 l hl).2.2
  total := h.2.2

section Rebuild

variable {order : SnapshotOrder} {uc : UpdateOrderBookUseCase} {latest : List VenueSnapshot}
  {symbol : String}

theorem levels_perm {latest' : List VenueSnapshot} (h : latest.Perm latest') (bidSide : Bool) :
    (levels latest symbol bidSide).Perm (levels latest' symbol bidSide) :=
  (h.filter _).flatMap_right _

theorem merged_side
    {compare : PriceLevel → PriceLevel → Bool} (hprices : ComparesPrices compare)
    {ls ls' : List (Decimal × Decimal)} (hperm : ls.Perm ls') (hok : SideOk ls) :
    Shows (mergeAll compare ls') (totalAt ls) ∧
      (mergeAll compare ls' = [] ↔ ∀ l ∈ ls, ¬ 0 < l.2.toRat) := by
  have hsum := hok.summable.perm hperm
  constructor
  · intro price
    rw [totalAt_perm hperm]
    exact mergeAll_shows hprices hok.1 hsum price
  · rw [mergeAll_eq_nil_iff hprices hok.1 hsum]
    exact forall_congr' (fun l => imp_congr_left hperm.symm.mem_iff)

/-- The rebuild makes the book of a symbol that has something to aggregate on both sides,
and keeps the old book otherwise. -/
theorem rebuild_spec
    (hperm : latest.Perm (order.values uc.latestVenueSnapshots))
    (hbids : SideOk (levels latest symbol true)) (hasks : SideOk (levels latest symbol false)) :
    (symbol ≠ "" ∧ TwoSided latest symbol ∧ ∃ book,
      (uc.rebuildAggregatedVenueBook order symbol).book = some book ∧ book.symbol = symbol ∧
        Aggregates latest book) ∨
    (¬ (symbol ≠ "" ∧ TwoSided latest symbol) ∧
      (uc.rebuildAggregatedVenueBook order symbol).book = uc.book) := by
  have hbidPerm : (levels latest symbol true).Perm
      (levels (order.values uc.latestVenueSnapshots) symbol true) := levels_perm hperm true
  have haskPerm : (levels latest symbol false).Perm
      (levels (order.values uc.latestVenueSnapshots) symbol false) := levels_perm hperm false
  obtain ⟨hbidShows, hbidNil⟩ := merged_side bidCompare_prices hbidPerm hbids
  obtain ⟨haskShows, haskNil⟩ := merged_side askCompare_prices haskPerm hasks
  unfold UpdateOrderBookUseCase.rebuildAggregatedVenueBook
  by_cases hsymbol : symbol = ""
  · rw [if_pos hsymbol]
    exact .inr ⟨fun h => h.1 hsymbol, rfl⟩
  rw [if_neg hsymbol]
  dsimp only
  split
  · rename_i hnothing
    refine .inr ⟨fun h => ?_, rfl⟩
    obtain ⟨-, ⟨bid, hbid, hbidPos⟩, ask, hask, haskPos⟩ := h
    rcases hnothing with hnone | hnone | hnone
    · have hempty : levels (order.values uc.latestVenueSnapshots) symbol true = [] := by
        unfold levels
        rw [hnone]
        rfl
      rw [hempty] at hbidPerm
      rw [hbidPerm.eq_nil] at hbid
      cases hbid
    · exact hbidNil.mp hnone bid hbid hbidPos
    · exact haskNil.mp hnone ask hask haskPos
  · rename_i hsome
    rw [not_or, not_or] at hsome
    refine .inl ⟨hsymbol, ⟨?_, ?_⟩, _, rfl, rfl, hbidShows, haskShows⟩
    · by_contra hnone
      exact hsome.2.1 (hbidNil.mpr (fun l hl hpos => hnone ⟨l, hl, hpos⟩))
    · by_contra hnone
      exact hsome.2.2 (haskNil.mpr (fun l hl hpos => hnone ⟨l, hl, hpos⟩))

end Rebuild

/-- The map holds the latest snapshots, and nothing was published before a book is kept. -/
structure Sound (s : VenueBooks) : Prop where
  keys : ∀ e ∈ s.useCase.latestVenueSnapshots.entries, e.1 = e.2.venueSymbolKey
  values : s.useCase.latestVenueSnapshots.entries.map Sigma.snd = s.latest
  shown : s.useCase.book = none → ∀ symbol, s.shown.lookup symbol = none

variable {s : VenueBooks} {isUuid : String → Bool}

theorem kerase_eq_filter {κ ν : Type} [DecidableEq κ] (k : κ) :
    ∀ {es : List (Sigma fun _ : κ => ν)}, es.NodupKeys →
      es.kerase k = es.filter (fun e => !decide (e.1 = k))
  | [], _ => rfl
  | e :: es, h => by
      rw [nodupKeys_cons] at h
      by_cases he : k = e.1
      · rw [kerase_cons_eq he, filter_cons_of_neg (by simp [he])]
        refine (filter_eq_self.mpr (fun e' he' => ?_)).symm
        have hne : e'.1 ≠ k := by
          intro heq
          refine h.1 ?_
          rw [← he, ← heq]
          exact mem_map_of_mem he'
        simp [hne]
      · rw [kerase_cons_ne he, kerase_eq_filter k h.2, filter_cons_of_pos (by simp [Ne.symm he])]

theorem Sound.insert (h : s.Sound) {snapshot : VenueSnapshot}
    (hkey : ∀ w ∈ s.latest, w.venueSymbolKey = snapshot.venueSymbolKey →
      w.venueId = snapshot.venueId ∧ w.symbol = snapshot.symbol) :
    (∀ e ∈ (s.useCase.latestVenueSnapshots.insert snapshot.venueSymbolKey snapshot).entries,
      e.1 = e.2.venueSymbolKey) ∧
    (s.useCase.latestVenueSnapshots.insert snapshot.venueSymbolKey snapshot).entries.map
      Sigma.snd = arrive s.latest snapshot := by
  rw [entries_insert, kerase_eq_filter _ s.useCase.latestVenueSnapshots.nodupKeys]
  constructor
  · intro e he
    rcases mem_cons.mp he with rfl | hold
    · rfl
    · exact h.keys e (mem_of_mem_filter hold)
  · unfold arrive
    rw [map_cons, ← h.values, List.filter_map]
    congr 2
    refine filter_congr (fun e he => ?_)
    have hvalue : e.2 ∈ s.latest := by
      rw [← h.values]
      exact mem_map_of_mem he
    have hsame : e.1 = snapshot.venueSymbolKey ↔
        e.2.venueId = snapshot.venueId ∧ e.2.symbol = snapshot.symbol := by
      rw [h.keys e he]
      constructor
      · exact hkey e.2 hvalue
      · rintro ⟨hvenue, hsymbol⟩
        unfold VenueSnapshot.venueSymbolKey
        rw [hvenue, hsymbol]
    simp [hsame]

theorem latest_rebuild (order : SnapshotOrder) (uc : UpdateOrderBookUseCase) (symbol : String) :
    (uc.rebuildAggregatedVenueBook order symbol).latestVenueSnapshots =
      uc.latestVenueSnapshots := by
  unfold UpdateOrderBookUseCase.rebuildAggregatedVenueBook
  split
  · rfl
  · dsimp only
    split <;> rfl

theorem snapshot_spec (h : s.Sound) (order : SnapshotOrder) {snapshot : VenueSnapshot}
    (hok : SnapshotOk s snapshot) :
    (TwoSided (arrive s.latest snapshot) snapshot.symbol ∧ snapshot.symbol ≠ "" ∧
      ∃ book, (s.useCase.onVenueSnapshot order snapshot).book = some book ∧
        book.symbol = snapshot.symbol ∧ Aggregates (arrive s.latest snapshot) book) ∨
    (¬ (snapshot.symbol ≠ "" ∧ TwoSided (arrive s.latest snapshot) snapshot.symbol) ∧
      (s.useCase.onVenueSnapshot order snapshot).book = none ∧ s.useCase.book = none) := by
  let uc : UpdateOrderBookUseCase :=
    { s.useCase with
      latestVenueSnapshots :=
        s.useCase.latestVenueSnapshots.insert snapshot.venueSymbolKey snapshot }
  have hperm : (arrive s.latest snapshot).Perm (order.values uc.latestVenueSnapshots) := by
    rw [← (h.insert hok.key).2]
    exact (order.perm _).symm
  rcases rebuild_spec hperm hok.bids hok.asks with ⟨hsymbol, htwo, hbook⟩ | ⟨hnone, hkept⟩
  · exact .inl ⟨htwo, hsymbol, hbook⟩
  · have hempty := Option.isNone_iff_eq_none.mp (hok.current.resolve_left hnone)
    exact .inr ⟨hnone, hkept.trans hempty, hempty⟩

theorem onBatchResult_spec (isUuid : String → Bool) (uc : UpdateOrderBookUseCase)
    (result : BatchResult) :
    (uc.onBatchResult isUuid result).1.latestVenueSnapshots = uc.latestVenueSnapshots ∧
      ((uc.onBatchResult isUuid result).1.book = none →
        uc.book = none ∧ (uc.onBatchResult isUuid result).2 = none) := by
  unfold UpdateOrderBookUseCase.onBatchResult
  split
  · exact ⟨rfl, fun hnone => nomatch hnone⟩
  · exact ⟨rfl, fun hnone => ⟨hnone, rfl⟩⟩

theorem sound_step (h : s.Sound) (e : BookUpdate) (hok : UpdateOk s e) :
    (s.step isUuid e).Sound := by
  cases e with
  | snapshot order snapshot =>
      obtain ⟨hkeys, hvalues⟩ := h.insert (SnapshotOk.key hok)
      have hlatest : (s.useCase.onVenueSnapshot order snapshot).latestVenueSnapshots =
          s.useCase.latestVenueSnapshots.insert snapshot.venueSymbolKey snapshot :=
        latest_rebuild order _ snapshot.symbol
      refine ⟨?_, ?_, ?_⟩
      · change ∀ e ∈ (s.useCase.onVenueSnapshot order snapshot).latestVenueSnapshots.entries, _
        rw [hlatest]
        exact hkeys
      · change (s.useCase.onVenueSnapshot order snapshot).latestVenueSnapshots.entries.map
          Sigma.snd = _
        rw [hlatest]
        exact hvalues
      · intro hnone symbol
        change (s.useCase.onVenueSnapshot order snapshot).book = none at hnone
        change ((s.useCase.onVenueSnapshot order snapshot).book.elim s.shown _).lookup symbol = none
        rcases snapshot_spec h order hok with ⟨-, -, book, hbook, -⟩ | ⟨-, -, hempty⟩
        · rw [hbook] at hnone
          cases hnone
        · rw [hnone]
          exact h.shown hempty symbol
  | raw raw => exact ⟨h.keys, h.values, fun hnone => nomatch hnone⟩
  | batch result =>
      obtain ⟨hlatest, hkept⟩ := onBatchResult_spec isUuid s.useCase result
      refine ⟨?_, ?_, ?_⟩
      · change ∀ e ∈ (s.useCase.onBatchResult isUuid result).1.latestVenueSnapshots.entries, _
        rw [hlatest]
        exact h.keys
      · change (s.useCase.onBatchResult isUuid result).1.latestVenueSnapshots.entries.map
          Sigma.snd = _
        rw [hlatest]
        exact h.values
      · intro hnone symbol
        obtain ⟨hempty, hsilent⟩ := hkept hnone
        change ((s.useCase.onBatchResult isUuid result).2.elim s.shown _).lookup symbol = none
        rw [hsilent]
        exact h.shown hempty symbol

theorem shown_snapshot {order : SnapshotOrder} {snapshot : VenueSnapshot} {book : OrderBook}
    (hbook : (s.useCase.onVenueSnapshot order snapshot).book = some book)
    (hsymbol : book.symbol = snapshot.symbol) :
    (s.step isUuid (.snapshot order snapshot)).shown.lookup snapshot.symbol = some book := by
  change ((s.useCase.onVenueSnapshot order snapshot).book.elim s.shown
    (fun book => s.shown.insert book.symbol book)).lookup snapshot.symbol = some book
  rw [hbook, Option.elim_some, ← hsymbol, lookup_insert]

theorem not_shown_snapshot (h : s.Sound) {order : SnapshotOrder} {snapshot : VenueSnapshot}
    (hnone : (s.useCase.onVenueSnapshot order snapshot).book = none)
    (hempty : s.useCase.book = none) :
    (s.step isUuid (.snapshot order snapshot)).shown.lookup snapshot.symbol = none := by
  change ((s.useCase.onVenueSnapshot order snapshot).book.elim s.shown _).lookup
    snapshot.symbol = none
  rw [hnone]
  exact h.shown hempty snapshot.symbol

theorem booksAggregate_step (h : s.Sound) (e : BookUpdate) (hok : UpdateOk s e) :
    BooksAggregate isUuid s e := by
  cases e with
  | raw _ => trivial
  | batch _ => trivial
  | snapshot order snapshot =>
      rcases snapshot_spec h order hok with ⟨-, -, book, hbook, hsymbol, hright⟩ |
        ⟨-, hnone, hempty⟩
      · constructor
        · intro published hpublished
          change published ∈ (s.useCase.onVenueSnapshot order snapshot).book at hpublished
          rw [hbook] at hpublished
          cases hpublished
          exact hright
        · intro shown hshown
          rw [shown_snapshot hbook hsymbol] at hshown
          cases hshown
          exact hright
      · constructor
        · intro published hpublished
          change published ∈ (s.useCase.onVenueSnapshot order snapshot).book at hpublished
          rw [hnone] at hpublished
          cases hpublished
        · intro shown hshown
          rw [not_shown_snapshot h hnone hempty] at hshown
          cases hshown

theorem TwoSided.perm {latest latest' : List VenueSnapshot} {symbol : String}
    (h : latest.Perm latest') (htwo : TwoSided latest symbol) : TwoSided latest' symbol := by
  obtain ⟨⟨bid, hbid, hbidPos⟩, ask, hask, haskPos⟩ := htwo
  exact ⟨⟨bid, (levels_perm h true).mem_iff.mp hbid, hbidPos⟩,
    ask, (levels_perm h false).mem_iff.mp hask, haskPos⟩

theorem Aggregates.sameLevels {latest latest' : List VenueSnapshot} {a b : OrderBook}
    (h : latest.Perm latest') (hsymbol : a.symbol = b.symbol)
    (ha : Aggregates latest a) (hb : Aggregates latest' b) : SameLevels a b := by
  intro price
  rw [ha.1, ha.2, hb.1, hb.2, hsymbol, totalAt_perm (levels_perm h true),
    totalAt_perm (levels_perm h false)]
  exact ⟨rfl, rfl⟩

theorem sameLevels_step (isUuid : String → Bool) {s' : VenueBooks}
    (h : s.Sound) (h' : s'.Sound)
    {order order' : SnapshotOrder} {snapshot snapshot' : VenueSnapshot}
    (hsymbol : snapshot.symbol = snapshot'.symbol)
    (hok : SnapshotOk s snapshot) (hok' : SnapshotOk s' snapshot')
    (hlatest : (arrive s.latest snapshot).Perm (arrive s'.latest snapshot')) :
    ∀ book ∈ (s.step isUuid (.snapshot order snapshot)).shown.lookup snapshot.symbol,
      ∃ book' ∈ (s'.step isUuid (.snapshot order' snapshot')).shown.lookup snapshot'.symbol,
        SameLevels book book' := by
  intro book hbook
  rcases snapshot_spec h order hok with ⟨htwo, hne, shown, hshown, hof, hright⟩ |
    ⟨-, hnone, hempty⟩
  · rw [shown_snapshot hshown hof] at hbook
    cases hbook
    rcases snapshot_spec h' order' hok' with ⟨-, -, shown', hshown', hof', hright'⟩ |
      ⟨hnot, -, -⟩
    · refine ⟨shown', shown_snapshot hshown' hof', hright.sameLevels hlatest ?_ hright'⟩
      rw [hof, hof', hsymbol]
    · refine absurd ?_ hnot
      rw [← hsymbol]
      exact ⟨hne, htwo.perm hlatest⟩
  · rw [not_shown_snapshot h hnone hempty] at hbook
    cases hbook

end VenueBooks

open VenueBooks

section Runs

variable (isUuid : String → Bool)

/-- In every run whose events meet the condition, the book published after a venue
snapshot shows the totals of the latest snapshots; two such runs that end with a snapshot
of one symbol show the same book of it when the same snapshots are the latest. -/
theorem books_aggregate (es : List BookUpdate)
    (hok : StepsMeet (VenueBooks.step isUuid) UpdateOk {} es) :
    StepsMeet (VenueBooks.step isUuid) (BooksAggregate isUuid) {} es ∧
      ∀ fs gs order order' snapshot snapshot',
        es = fs ++ [.snapshot order snapshot] →
        StepsMeet (VenueBooks.step isUuid) UpdateOk {} (gs ++ [.snapshot order' snapshot']) →
        snapshot.symbol = snapshot'.symbol →
        (run (VenueBooks.step isUuid) {} es).latest.Perm
          (run (VenueBooks.step isUuid) {} (gs ++ [.snapshot order' snapshot'])).latest →
        ∀ book ∈ (run (VenueBooks.step isUuid) {} es).shown.lookup snapshot.symbol,
          ∃ book' ∈ (run (VenueBooks.step isUuid) {}
              (gs ++ [.snapshot order' snapshot'])).shown.lookup snapshot'.symbol,
            SameLevels book book' := by
  have hempty : VenueBooks.Sound {} := ⟨nofun, rfl, fun _ _ => rfl⟩
  have hstep : ∀ (s : VenueBooks) e, s.Sound → UpdateOk s e → (s.step isUuid e).Sound :=
    fun _ e h hok => sound_step h e hok
  constructor
  · exact (hok.with_invariant hstep hempty).imp
      (fun _ e h => booksAggregate_step h.1 e h.2)
  · rintro fs gs order order' snapshot snapshot' rfl hok' hsymbol hlatest
    have hfs := run_invariant VenueBooks.Sound hstep hempty hok.prefix
    have hgs := run_invariant VenueBooks.Sound hstep hempty hok'.prefix
    rw [run_append, run_append] at hlatest ⊢
    exact sameLevels_step isUuid hfs hgs hsymbol hok.suffix.1 hok'.suffix.1 hlatest

end Runs

/-- A snapshot of BTC/USDT with one level on each side. -/
def btcSnapshot (venueId status : String) (bid ask : Decimal) : VenueSnapshot where
  venueId := venueId
  symbol := "BTC/USDT"
  status := status
  bidPrices := [bid]
  bidQuantities := [Decimal.of 1 0]
  askPrices := [ask]
  askQuantities := [Decimal.of 1 0]

/-- Two venues, of which the first turns stale, and raw market data in between. -/
theorem books_two_venues :
    StepsMeet (VenueBooks.step (fun _ => true)) (BooksAggregate (fun _ => true)) {}
      [.snapshot .ofEntries (btcSnapshot "v1" "connected" (Decimal.of 99 0) (Decimal.of 101 0)),
        .snapshot .ofEntries
          (btcSnapshot "v2" "connected" (Decimal.of 990 1) (Decimal.of 102 0)),
        .raw {},
        .snapshot .ofEntries
          (btcSnapshot "v1" "stale" (Decimal.of 99 0) (Decimal.of 101 0))] :=
  (books_aggregate (fun _ => true) _ (by decide +kernel)).1

/-- The only venue of a symbol turns stale and its book is published again. -/
theorem books_last_stale :
    ¬ StepsMeet (VenueBooks.step (fun _ => true)) (BooksAggregate (fun _ => true)) {}
      [.snapshot .ofEntries (btcSnapshot "v1" "connected" (Decimal.of 99 0) (Decimal.of 101 0)),
        .snapshot .ofEntries
          (btcSnapshot "v1" "stale" (Decimal.of 99 0) (Decimal.of 101 0))] := by
  intro h
  have hbook := (h.2.1.2 _ rfl).1 99
  exact absurd (congrArg List.length hbook) (by decide +kernel)

end MarketData
end ContExchange
