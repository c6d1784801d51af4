import ContExchange.Common.Messages
import ContExchange.Lib.Runs

/-!
# Market data: the book of flow orders

`FlowOrderBook` keeps the orders of every asset in a map of their own, and for every
order id the asset it was added under, so that a cancel, which does not name the asset,
finds it.  Best prices and depth are computed from the orders of an asset.

* `LiveOrders`: the orders that were added and not removed, each under one asset;
* `Tracks`: the maps hold exactly the live orders;
* `tracks_iff`: along a run the maps hold exactly the live orders and the index finds all
  of them that are removed by id, exactly when every operation meets `BookOk`;
* `answers_live_orders`: the answers are then those of the live orders.

Adding an id again under another asset leaves the old entry where it is, and removing it
from a wrong asset only drops it from the index.
-/

namespace ContExchange
namespace MarketData

open Common Lib AList

structure OrderEntry where
  priceLow : Decimal
  priceHigh : Decimal
  maxSpeed : Decimal
  isBuy : Bool := true
deriving DecidableEq

/-- The loop of `BestBid` and `BestAsk` over the orders of an asset. -/
def bestPrice (counts : OrderEntry → Bool) (price : OrderEntry → Decimal) (better : Int → Bool)
    (es : List OrderEntry) : Option Decimal :=
  es.foldl
    (fun best e =>
      if counts e then
        match best with
        | none => some (price e)
        | some b => if better (Decimal.cmp (price e) b) then some (price e) else best
      else best)
    none

/-- `BestBid` of the orders. -/
def bestBid (es : List OrderEntry) : Option Decimal :=
  bestPrice (fun e => e.isBuy) OrderEntry.priceHigh (fun c => decide (0 < c)) es

/-- `BestAsk` of the orders. -/
def bestAsk (es : List OrderEntry) : Option Decimal :=
  bestPrice (fun e => !e.isBuy) OrderEntry.priceLow (fun c => decide (c < 0)) es

structure DepthLevel where
  price : Decimal
  quantity : Decimal
deriving DecidableEq

/-- An order joins the first level at its price, or is a level of its own. -/
def mergeLevel (price quantity : Decimal) : List DepthLevel → List DepthLevel
  | [] => [{ price, quantity }]
  | l :: ls =>
      if Decimal.cmp l.price price = 0 then
        { l with quantity := Decimal.add l.quantity quantity } :: ls
      else l :: mergeLevel price quantity ls

def OrderEntry.levelPrice (bidSide : Bool) (e : OrderEntry) : Decimal :=
  if bidSide then e.priceHigh else e.priceLow

/-- `DepthLevels` of the orders. -/
def depthLevels (es : List OrderEntry) (bidSide : Bool) (levels : Nat) : List DepthLevel :=
  let agg := (es.filter (fun e => e.isBuy == bidSide)).foldl
    (fun agg e => mergeLevel (e.levelPrice bidSide) e.maxSpeed agg) []
  (agg.insertionSort (fun a b =>
    if bidSide then 0 ≤ Decimal.cmp a.price b.price
    else Decimal.cmp a.price b.price ≤ 0)).take levels

/-- An order in which a hash map is gone through. -/
structure HashOrder where
  values : Table String OrderEntry → List OrderEntry
  perm : ∀ t, (values t).Perm (t.entries.map Sigma.snd)

/-- The order of the model's tables. -/
def HashOrder.ofEntries : HashOrder where
  values t := t.entries.map Sigma.snd
  perm _ := List.Perm.refl _

structure FlowOrderBook where
  orders : Table String (Table String OrderEntry) := ∅
  orderAssetIndex : Table String String := ∅

namespace FlowOrderBook

def ordersOf (book : FlowOrderBook) (asset : String) : Table String OrderEntry :=
  (book.orders.lookup asset).getD ∅

def addOrder (book : FlowOrderBook) (orderId asset : String) (entry : OrderEntry) :
    FlowOrderBook where
  orders := book.orders.insert asset ((book.ordersOf asset).insert orderId entry)
  orderAssetIndex := book.orderAssetIndex.insert orderId asset

def eraseOrder (book : FlowOrderBook) (orderId asset : String) :
    Table String (Table String OrderEntry) :=
  match book.orders.lookup asset with
  | none => book.orders
  | some es => book.orders.insert asset (es.erase orderId)

def removeOrder (book : FlowOrderBook) (orderId asset : String) : FlowOrderBook where
  orders := book.eraseOrder orderId asset
  orderAssetIndex := book.orderAssetIndex.erase orderId

def removeOrderById (book : FlowOrderBook) (orderId : String) : FlowOrderBook :=
  match book.orderAssetIndex.lookup orderId with
  | none => book
  | some asset =>
      { orders := book.eraseOrder orderId asset
        orderAssetIndex := book.orderAssetIndex.erase orderId }

def bestBid (book : FlowOrderBook) (hash : HashOrder) (asset : String) : Option Decimal :=
  MarketData.bestBid (hash.values (book.ordersOf asset))

def bestAsk (book : FlowOrderBook) (hash : HashOrder) (asset : String) : Option Decimal :=
  MarketData.bestAsk (hash.values (book.ordersOf asset))

def depthLevels (book : FlowOrderBook) (hash : HashOrder) (asset : String) (bidSide : Bool)
    (levels : Nat) : List DepthLevel :=
  MarketData.depthLevels (hash.values (book.ordersOf asset)) bidSide levels

@[simp] theorem ordersOf_addOrder (book : FlowOrderBook) (orderId asset : String)
    (entry : OrderEntry) (a : String) :
    (book.addOrder orderId asset entry).ordersOf a =
      if a = asset then (book.ordersOf asset).insert orderId entry else book.ordersOf a := by
  unfold ordersOf addOrder
  by_cases h : a = asset
  · subst h
    rw [if_pos rfl, lookup_insert]
    rfl
  · rw [if_neg h, lookup_insert_ne h]

theorem lookup_eraseOrder
    (book : FlowOrderBook) (orderId asset a id : String) (index : Table String String) :
    (({ orders := book.eraseOrder orderId asset, orderAssetIndex := index } :
        FlowOrderBook).ordersOf a).lookup id =
      if a = asset ∧ id = orderId then none else (book.ordersOf a).lookup id := by
  unfold ordersOf eraseOrder
  dsimp only
  cases hes : book.orders.lookup asset with
  | none =>
      dsimp only
      split
      · rename_i h
        obtain ⟨rfl, -⟩ := h
        rw [hes]
        rfl
      · rfl
  | some es =>
      dsimp only
      by_cases ha : a = asset
      · subst ha
        rw [lookup_insert, hes]
        by_cases hid : id = orderId
        · subst hid
          rw [if_pos ⟨rfl, rfl⟩]
          exact lookup_erase _ _
        · rw [if_neg (fun h => hid h.2)]
          exact lookup_erase_ne hid
      · rw [if_neg (fun h => ha h.1), lookup_insert_ne ha]

end FlowOrderBook

abbrev LiveOrders := Table String (String × OrderEntry)

def LiveOrders.under (live : LiveOrders) (asset : String) : List OrderEntry :=
  (live.entries.filter (fun e => decide (e.2.1 = asset))).map (fun e => e.2.2)

inductive BookEvent where
  | add (orderId asset : String) (entry : OrderEntry)
  | remove (orderId asset : String)
  | removeById (orderId : String)

/-- The book with the orders that are live: an order is added under one asset, a removal
from an asset ends an order that is live under it. -/
structure TrackedBook where
  book : FlowOrderBook := {}
  live : LiveOrders := ∅

def LiveOrders.remove (live : LiveOrders) (orderId asset : String) : LiveOrders :=
  if (live.lookup orderId).any (fun e => decide (e.1 = asset)) then live.erase orderId else live

namespace TrackedBook

/-- One operation. -/
def step (s : TrackedBook) : BookEvent → TrackedBook
  | .add orderId asset entry =>
      { book := s.book.addOrder orderId asset entry
        live := s.live.insert orderId (asset, entry) }
  | .remove orderId asset =>
      { book := s.book.removeOrder orderId asset, live := s.live.remove orderId asset }
  | .removeById orderId =>
      { book := s.book.removeOrderById orderId, live := s.live.erase orderId }

/-- The maps hold exactly the live orders. -/
def Tracks (s : TrackedBook) : Prop :=
  ∀ asset orderId entry, (s.book.ordersOf asset).lookup orderId = some entry ↔
    s.live.lookup orderId = some (asset, entry)

structure Answers (s : TrackedBook) : Prop where
  queries : ∀ (hash : HashOrder) (asset : String),
    ∃ es : List OrderEntry, es.Perm (s.live.under asset) ∧
      s.book.bestBid hash asset = bestBid es ∧
        s.book.bestAsk hash asset = bestAsk es ∧
          ∀ bidSide levels,
            s.book.depthLevels hash asset bidSide levels = depthLevels es bidSide levels
  single : ∀ orderId a b, orderId ∈ s.book.ordersOf a → orderId ∈ s.book.ordersOf b → a = b

end TrackedBook

/-- The condition on an operation: an id that is live is added under its own asset, and
an order that is removed by its id is found in the index. -/
def BookOk (s : TrackedBook) : BookEvent → Prop
  | .add orderId asset _ => ∀ e ∈ s.live.lookup orderId, e.1 = asset
  | .remove _ _ => True
  | .removeById orderId => orderId ∈ s.live → orderId ∈ s.book.orderAssetIndex

instance (s : TrackedBook) : (e : BookEvent) → Decidable (BookOk s e)
  | .add _ _ _ => inferInstanceAs (Decidable (∀ e ∈ _, _))
  | .remove _ _ => isTrue trivial
  | .removeById _ => inferInstanceAs (Decidable (_ → _))

namespace TrackedBook

variable {s : TrackedBook}

/-- The index points to where an order is live. -/
def Indexed (s : TrackedBook) : Prop :=
  ∀ orderId asset, s.book.orderAssetIndex.lookup orderId = some asset →
    ∃ entry, s.live.lookup orderId = some (asset, entry)

theorem lookup_remove (live : LiveOrders) (orderId asset id : String) :
    (live.remove orderId asset).lookup id =
      if id = orderId ∧ (live.lookup orderId).any (fun e => decide (e.1 = asset)) then none
      else live.lookup id := by
  unfold LiveOrders.remove
  by_cases hunder : (live.lookup orderId).any (fun e => decide (e.1 = asset)) = true
  · rw [if_pos hunder]
    by_cases hid : id = orderId
    · subst hid
      rw [if_pos ⟨rfl, hunder⟩, lookup_erase]
    · rw [if_neg (fun h => hid h.1), lookup_erase_ne hid]
  · rw [if_neg hunder, if_neg (fun h => hunder h.2)]

theorem indexed_step (hindexed : s.Indexed) (e : BookEvent) : (s.step e).Indexed := by
  cases e with
  | add orderId asset entry =>
      intro id a hindex
      change (s.book.orderAssetIndex.insert orderId asset).lookup id = some a at hindex
      change ∃ entry', (s.live.insert orderId (asset, entry)).lookup id = some (a, entry')
      by_cases hid : id = orderId
      · subst hid
        rw [lookup_insert] at hindex
        cases hindex
        exact ⟨entry, lookup_insert _⟩
      · rw [lookup_insert_ne hid] at hindex ⊢
        exact hindexed id a hindex
  | remove orderId asset =>
      intro id a hindex
      change (s.book.orderAssetIndex.erase orderId).lookup id = some a at hindex
      change ∃ entry, (s.live.remove orderId asset).lookup id = some (a, entry)
      have hid : id ≠ orderId := by
        rintro rfl
        rw [lookup_erase] at hindex
        cases hindex
      rw [lookup_erase_ne hid] at hindex
      rw [lookup_remove, if_neg (fun h => hid h.1)]
      exact hindexed id a hindex
  | removeById orderId =>
      intro id a hindex
      change (s.book.removeOrderById orderId).orderAssetIndex.lookup id = some a at hindex
      change ∃ entry, (s.live.erase orderId).lookup id = some (a, entry)
      unfold FlowOrderBook.removeOrderById at hindex
      have hid : id ≠ orderId := by
        rintro rfl
        cases hfound : s.book.orderAssetIndex.lookup id with
        | none =>
            rw [hfound] at hindex
            rw [hfound] at hindex
            cases hindex
        | some asset =>
            rw [hfound] at hindex
            rw [lookup_erase] at hindex
            cases hindex
      have hbefore : s.book.orderAssetIndex.lookup id = some a := by
        cases hfound : s.book.orderAssetIndex.lookup orderId with
        | none =>
            rw [hfound] at hindex
            exact hindex
        | some asset =>
            rw [hfound] at hindex
            rw [lookup_erase_ne hid] at hindex
            exact hindex
      rw [lookup_erase_ne hid]
      exact hindexed id a hbefore

theorem tracks_add_iff (htracks : s.Tracks) (orderId asset : String) (entry : OrderEntry) :
    (s.step (.add orderId asset entry)).Tracks ↔ BookOk s (.add orderId asset entry) := by
  have hbook : ∀ a, (s.step (.add orderId asset entry)).book.ordersOf a =
      if a = asset then (s.book.ordersOf asset).insert orderId entry else s.book.ordersOf a :=
    fun a => FlowOrderBook.ordersOf_addOrder s.book orderId asset entry a
  have hlive : (s.step (.add orderId asset entry)).live =
      s.live.insert orderId (asset, entry) := rfl
  constructor
  · rintro hafter ⟨a, old⟩ hold
    by_contra hne
    have hkept : ((s.step (.add orderId asset entry)).book.ordersOf a).lookup orderId =
        some old := by
      rw [hbook, if_neg hne]
      exact (htracks a orderId old).mpr hold
    have hnow := (hafter a orderId old).mp hkept
    rw [hlive, lookup_insert] at hnow
    cases hnow
    exact hne rfl
  · intro hok a id e
    rw [hbook, hlive]
    by_cases hid : id = orderId
    · subst hid
      rw [lookup_insert]
      by_cases ha : a = asset
      · subst ha
        rw [if_pos rfl, lookup_insert]
        simp
      · rw [if_neg ha, htracks a id e]
        constructor
        · intro hold
          exact absurd (hok (a, e) hold) ha
        · intro hnew
          cases hnew
          exact absurd rfl ha
    · rw [lookup_insert_ne hid, ← htracks a id e]
      split
      · rename_i ha
        subst ha
        rw [lookup_insert_ne hid]
      · exact Iff.rfl

theorem tracks_remove (htracks : s.Tracks) (orderId asset : String) :
    (s.step (.remove orderId asset)).Tracks := by
  intro a id e
  change ((s.book.removeOrder orderId asset).ordersOf a).lookup id = some e ↔
    (s.live.remove orderId asset).lookup id = some (a, e)
  rw [lookup_remove]
  unfold FlowOrderBook.removeOrder
  rw [FlowOrderBook.lookup_eraseOrder]
  by_cases hid : id = orderId
  · subst hid
    cases hlive : s.live.lookup id with
    | none =>
        have hnone : (s.book.ordersOf a).lookup id ≠ some e := by
          intro hbook
          rw [htracks, hlive] at hbook
          cases hbook
        simp [hnone]
    | some old =>
        have hbook := htracks a id e
        rw [hlive] at hbook
        by_cases ha : a = asset
        · subst ha
          rw [if_pos ⟨rfl, rfl⟩]
          by_cases hunder : old.1 = a
          · simp [hunder]
          · rw [if_neg (by simp [hunder])]
            refine iff_of_false (by simp) (fun hsame => ?_)
            cases hsame
            exact hunder rfl
        · rw [if_neg (fun h => ha h.1)]
          refine hbook.trans ?_
          by_cases hunder : old.1 = asset
          · rw [if_pos ⟨rfl, by simp [hunder]⟩]
            refine iff_of_false (fun hsame => ?_) (by simp)
            cases hsame
            exact ha hunder
          · rw [if_neg (by simp [hunder])]
  · rw [if_neg (fun h => hid h.2), if_neg (fun h => hid h.1)]
    exact htracks a id e

theorem tracks_removeById_iff (hindexed : s.Indexed) (htracks : s.Tracks) (orderId : String) :
    (s.step (.removeById orderId)).Tracks ↔ BookOk s (.removeById orderId) := by
  have hlive : (s.step (.removeById orderId)).live = s.live.erase orderId := rfl
  have hbook : (s.step (.removeById orderId)).book = s.book.removeOrderById orderId := rfl
  unfold FlowOrderBook.removeOrderById at hbook
  cases hfound : s.book.orderAssetIndex.lookup orderId with
  | none =>
      rw [hfound] at hbook
      dsimp only at hbook
      have hnot : orderId ∉ s.book.orderAssetIndex := lookup_eq_none.mp hfound
      constructor
      · intro hafter hmem
        obtain ⟨⟨a, e⟩, hold⟩ := Option.isSome_iff_exists.mp (lookup_isSome.mpr hmem)
        have hkept := (htracks a orderId e).mpr hold
        rw [← hbook, hafter a orderId e, hlive, lookup_erase] at hkept
        cases hkept
      · intro hok a id e
        rw [hbook, hlive, htracks a id e]
        by_cases hid : id = orderId
        · subst hid
          have hdead : id ∉ s.live := fun hmem => hnot (hok hmem)
          rw [lookup_eq_none.mpr hdead, lookup_erase]
        · rw [lookup_erase_ne hid]
  | some asset =>
      rw [hfound] at hbook
      dsimp only at hbook
      have hmem : orderId ∈ s.book.orderAssetIndex :=
        lookup_isSome.mp (by rw [hfound]; rfl)
      refine iff_of_true (fun a id e => ?_) (fun _ => hmem)
      rw [hbook, FlowOrderBook.lookup_eraseOrder, hlive]
      obtain ⟨entry, hentry⟩ := hindexed orderId asset hfound
      by_cases hid : id = orderId
      · subst hid
        rw [lookup_erase]
        by_cases ha : a = asset
        · rw [if_pos ⟨ha, rfl⟩]
          simp
        · rw [if_neg (fun h => ha h.1), htracks a id e, hentry]
          refine iff_of_false (fun hsame => ?_) (by simp)
          cases hsame
          exact ha rfl
      · rw [if_neg (fun h => hid h.2), lookup_erase_ne hid]
        exact htracks a id e

theorem tracks_step_iff (hindexed : s.Indexed) (htracks : s.Tracks) (e : BookEvent) :
    (s.step e).Tracks ↔ BookOk s e := by
  cases e with
  | add orderId asset entry => exact tracks_add_iff htracks orderId asset entry
  | remove orderId asset => exact iff_of_true (tracks_remove htracks orderId asset) trivial
  | removeById orderId => exact tracks_removeById_iff hindexed htracks orderId

theorem perm_under (htracks : s.Tracks) (asset : String) :
    ((s.book.ordersOf asset).entries.map Sigma.snd).Perm (s.live.under asset) := by
  have hnodup : (s.book.ordersOf asset).entries.Nodup :=
    .of_map Sigma.fst (s.book.ordersOf asset).nodupKeys
  have hlive : (((s.live.entries.filter (fun e => decide (e.2.1 = asset))).map
      (fun e => (⟨e.1, e.2.2⟩ : Sigma fun _ : String => OrderEntry))).map Sigma.fst).Nodup := by
    rw [List.map_map]
    exact s.live.nodupKeys.sublist List.filter_sublist
  have hperm : (s.book.ordersOf asset).entries.Perm
      ((s.live.entries.filter (fun e => decide (e.2.1 = asset))).map
        (fun e => (⟨e.1, e.2.2⟩ : Sigma fun _ : String => OrderEntry))) := by
    refine (List.perm_ext_iff_of_nodup hnodup (.of_map Sigma.fst hlive)).mpr ?_
    rintro ⟨id, entry⟩
    rw [← mem_lookup_iff, Option.mem_def, htracks asset id entry, List.mem_map]
    constructor
    · intro h
      exact ⟨⟨id, asset, entry⟩, List.mem_filter.mpr ⟨mem_lookup_iff.mp h, decide_eq_true rfl⟩, rfl⟩
    · rintro ⟨⟨id', asset', entry'⟩, hmem, heq⟩
      obtain ⟨hentry, hasset⟩ := List.mem_filter.mp hmem
      cases heq
      obtain rfl : asset' = asset := of_decide_eq_true hasset
      exact mem_lookup_iff.mpr hentry
  have hmap := hperm.map Sigma.snd
  rw [List.map_map] at hmap
  exact hmap

theorem Tracks.answers (htracks : s.Tracks) : s.Answers where
  queries hash asset :=
    ⟨hash.values (s.book.ordersOf asset),
      (hash.perm _).trans (perm_under htracks asset), rfl, rfl, fun _ _ => rfl⟩
  single orderId a b ha hb := by
    obtain ⟨e, he⟩ := Option.isSome_iff_exists.mp (lookup_isSome.mpr ha)
    obtain ⟨e', he'⟩ := Option.isSome_iff_exists.mp (lookup_isSome.mpr hb)
    have hfirst := (htracks a orderId e).mp he
    rw [(htracks b orderId e').mp he'] at hfirst
    cases hfirst
    rfl

end TrackedBook

theorem tracks_iff (es : List BookEvent) :
    StepsMeet TrackedBook.step (fun s e => (s.step e).Tracks) {} es ↔
      StepsMeet TrackedBook.step BookOk {} es := by
  have hindexed : TrackedBook.Indexed {} := fun _ _ h => nomatch h
  have htracks : TrackedBook.Tracks {} := fun _ _ _ => iff_of_false nofun nofun
  have hinv : ∀ (s : TrackedBook) e, s.Indexed → (s.step e).Indexed :=
    fun _ e h => TrackedBook.indexed_step h e
  have hstep : ∀ (s : TrackedBook) e, s.Indexed → s.Tracks → ((s.step e).Tracks ↔ BookOk s e) :=
    fun _ e h h' => TrackedBook.tracks_step_iff h h' e
  exact stepsMeet_iff hinv hstep hindexed htracks

/-- In a run whose operations meet the condition, the book answers for the live orders
after every operation. -/
theorem answers_live_orders (es : List BookEvent) (hok : StepsMeet TrackedBook.step BookOk {} es) :
    StepsMeet TrackedBook.step (fun s e => (s.step e).Answers) {} es :=
  ((tracks_iff es).mpr hok).imp (fun _ _ h => h.answers)

def bidEntry : OrderEntry where
  priceLow := Decimal.of 90 0
  priceHigh := Decimal.of 100 0
  maxSpeed := Decimal.of 1 0

/-- An order that is added twice under its asset and cancelled. -/
theorem answers_added_twice :
    StepsMeet TrackedBook.step (fun s e => (s.step e).Answers) {}
      [.add "o1" "BTCUSDT" bidEntry, .add "o1" "BTCUSDT" { bidEntry with isBuy := false },
        .removeById "o1"] :=
  answers_live_orders _ (by decide)

/-- An id that is added again under another asset is live under both, and an order that
was removed from a wrong asset is not found when it is cancelled. -/
theorem answers_ended_orders :
    ¬ StepsMeet TrackedBook.step (fun s e => (s.step e).Answers) {}
        [.add "o1" "BTCUSDT" bidEntry, .add "o1" "ETHUSDT" bidEntry] ∧
      ¬ StepsMeet TrackedBook.step (fun s e => (s.step e).Answers) {}
        [.add "o1" "BTCUSDT" bidEntry, .remove "o1" "ETHUSDT", .removeById "o1"] := by
  constructor
  · intro h
    have hsame := h.2.1.single "o1" "BTCUSDT" "ETHUSDT" (by decide) (by decide)
    exact absurd hsame (by decide)
  · intro h
    obtain ⟨es, hperm, hbid, -⟩ := h.2.2.1.queries .ofEntries "BTCUSDT"
    have hnone : es = [] := hperm.eq_nil
    subst hnone
    exact absurd hbid (by decide)

end MarketData
end ContExchange
