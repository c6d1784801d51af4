import ContExchange.LegacyEngine.CurveDoubles
import ContExchange.Lib.Runs
import ContExchange.Lib.Table

/-!
# Legacy engine: orders, rounds and cancellations

`EngineManager` takes orders and cancellations from two queues, and matches the orders of the
user order book at the clearing price.  An order is in the order storage, in the user order
book and in the curve repository of its side.

* `Engine.step`: one order, one cancellation or one round;
* `liveOrders`: the orders of a history that have been neither filled nor cancelled;
* `BooksDescribe`, `StorageDescribes`: the stores hold the live orders;
* `Sound.step`, `engine_describes_live`: runs in which no order is cancelled twice.

The clearing price of a round is any price.  The curves are kept in doubles.
-/

namespace ContExchange
namespace LegacyEngine

open Common Lib AList
open List hiding filter_filter

def withoutOrder (orders : List ContinuousOrder) (order : ContinuousOrder) :
    List ContinuousOrder :=
  orders.filter (fun o => o.orderId ≠ order.orderId)

/-- `size_t` arithmetic. -/
def sizeT (n : Nat) : Nat :=
  n % 2 ^ 64

/-- A difference of two `size_t`. -/
def sizeSub (a b : Nat) : Nat :=
  sizeT (a + (2 ^ 64 - sizeT b))

structure FillDetails where
  filledBaseSize : Nat := 0
  filledQuoteSize : Nat := 0
  averagePrice : Nat := 0
deriving DecidableEq

/-- `UserOrderBook`: the two treaps of its storage, and what `UserAccountManager` keeps. -/
structure UserOrderBook where
  bidOrders : List ContinuousOrder := []
  askOrders : List ContinuousOrder := []
  filledDetails : Table Nat FillDetails := ∅

namespace UserOrderBook

variable (book : UserOrderBook) (order : ContinuousOrder) (price : Nat)

def addOrder : UserOrderBook :=
  match order.side with
  | .buy => { book with bidOrders := book.bidOrders ++ [order] }
  | .sell => { book with askOrders := book.askOrders ++ [order] }

def removeOrder : UserOrderBook :=
  match order.side with
  | .buy => { book with bidOrders := withoutOrder book.bidOrders order }
  | .sell => { book with askOrders := withoutOrder book.askOrders order }

/-- `GetOrders`: the bids whose high price and the asks whose low price is beyond the price. -/
def getOrders : List ContinuousOrder :=
  book.bidOrders.filter (fun o => sizeT (price + 1) ≤ o.highPrice ∧ price ≤ o.highPrice) ++
    book.askOrders.filter (fun o => o.lowPrice ≤ sizeSub price 1 ∧ o.lowPrice ≤ price)

def getFillDetails : FillDetails :=
  (book.filledDetails.lookup order.orderId).getD {}

def addFilledQuantity (quantity : Nat) : UserOrderBook :=
  let details := book.getFillDetails order
  let base := sizeT (details.filledBaseSize + quantity)
  let quote := sizeT (details.filledQuoteSize + sizeT (price * quantity))
  { book with
    filledDetails := book.filledDetails.insert order.orderId
      { filledBaseSize := base, filledQuoteSize := quote, averagePrice := quote / base } }

variable (delta : Nat)

/-- What an order trades in one round at a price. -/
def need : Nat :=
  sizeT (order.roundedSpeed price * delta)

def remains : Nat :=
  sizeSub order.volume (book.getFillDetails order).filledBaseSize

def Fills : Prop :=
  book.remains order ≤ need order price delta
deriving Decidable

end UserOrderBook

/-- What a round has done so far: the book, and the orders that have been filled. -/
structure MatchedDetails where
  book : UserOrderBook
  filled : List ContinuousOrder := []

/-- One order of a round; `none` when it throws. -/
def matchOrder (delta price : Nat) (matched : MatchedDetails) (order : ContinuousOrder) :
    Option MatchedDetails :=
  let quantity := min (UserOrderBook.need order price delta) (matched.book.remains order)
  if matched.book.Fills order price delta ∧ order.base = "" then none
  else
    let removed :=
      if matched.book.Fills order price delta then matched.book.removeOrder order
      else matched.book
    some
      { book := if quantity ≠ 0 then removed.addFilledQuantity order price quantity else removed
        filled :=
          if matched.book.Fills order price delta then matched.filled ++ [order]
          else matched.filled }

/-- What the engine does and reports: an order is taken, takes part in a round
(`SendFillDetails`), is filled, or is cancelled (`SendCancelled`). -/
inductive EngineEvent where
  | created (order : ContinuousOrder)
  | matched (order : ContinuousOrder) (details : FillDetails)
  | filled (order : ContinuousOrder)
  | cancelled (order : ContinuousOrder)
deriving DecidableEq

/-- `EngineManager` with its queues and stores; `terminated` when an exception has left a
thread. -/
structure Engine where
  orderQueue : List ContinuousOrder
  cancelQueue : List Nat
  orderStorage : Table Nat ContinuousOrder := ∅
  userOrderBook : UserOrderBook := {}
  buyOrderBook : CurveRepository ℕ Double := {}
  sellOrderBook : CurveRepository ℕᵒᵈ Double := {}
  terminated : Bool := false
  history : List EngineEvent := []

/-- One step of one of the two threads. -/
inductive EngineStep where
  | createOrder
  | matchOrders (clearingPrice : Option Nat)
  | cancelOrder
deriving DecidableEq

namespace Engine

variable (st : Engine)

def addCurve (order : ContinuousOrder) : Engine :=
  match order.side with
  | .buy => { st with buyOrderBook := BidCurveRepository.addOrder st.buyOrderBook order }
  | .sell => { st with sellOrderBook := AskCurveRepository.addOrder st.sellOrderBook order }

/-- A curve is taken away on the side of the order. -/
def deleteCurve (order : ContinuousOrder) : Engine :=
  match order.side with
  | .buy => { st with buyOrderBook := BidCurveRepository.deleteOrder st.buyOrderBook order }
  | .sell => { st with sellOrderBook := AskCurveRepository.deleteOrder st.sellOrderBook order }

/-- The body of the loop of `CreateOrdersStep`; `insert` keeps an order that is there. -/
def createOrder (order : ContinuousOrder) : Engine :=
  let added := st.addCurve order
  { added with
    userOrderBook := st.userOrderBook.addOrder order
    orderStorage :=
      if (st.orderStorage.lookup order.orderId).isSome then st.orderStorage
      else st.orderStorage.insert order.orderId order
    history := st.history ++ [.created order] }

/-- The end of `CreateOrdersStep`: `MatchOrders`, and the filled orders go. -/
def matchRound (delta price : Nat) : Engine :=
  let orders := st.userOrderBook.getOrders price
  match orders.foldlM (matchOrder delta price) { book := st.userOrderBook } with
  | none => { st with terminated := true }
  | some matched =>
      let deleted := matched.filled.foldl deleteCurve st
      { deleted with
        userOrderBook := matched.book
        orderStorage :=
          matched.filled.foldl (fun storage o => storage.erase o.orderId) st.orderStorage
        history :=
          st.history ++ orders.map (fun o => .matched o (matched.book.getFillDetails o)) ++
            matched.filled.map .filled }

/-- The body of the loop of `CancelOrdersStep`. -/
def cancelOrder (orderId : Nat) : Engine :=
  match st.orderStorage.lookup orderId with
  | none => st
  | some order =>
      let deleted := st.deleteCurve order
      { deleted with
        userOrderBook := st.userOrderBook.removeOrder order
        history := st.history ++ [.cancelled order] }

/-- A step; nothing happens without a command or a price, or after an exception. -/
def step (delta : Nat) (st : Engine) (s : EngineStep) : Engine :=
  if st.terminated then st
  else
    match s with
    | .createOrder =>
        match st.orderQueue with
        | [] => st
        | order :: rest => ({ st with orderQueue := rest } : Engine).createOrder order
    | .matchOrders none => st
    | .matchOrders (some price) => st.matchRound delta price
    | .cancelOrder =>
        match st.cancelQueue with
        | [] => st
        | orderId :: rest => ({ st with cancelQueue := rest } : Engine).cancelOrder orderId

/-- Two queues and empty stores. -/
def start (orders : List ContinuousOrder) (cancels : List Nat) : Engine :=
  { orderQueue := orders, cancelQueue := cancels }

end Engine

def EngineEvent.apply (live : List ContinuousOrder) : EngineEvent → List ContinuousOrder
  | .created order => live ++ [order]
  | .matched _ _ => live
  | .filled order | .cancelled order => withoutOrder live order

/-- The orders of a history that have been neither filled nor cancelled. -/
def liveOrders (history : List EngineEvent) : List ContinuousOrder :=
  run EngineEvent.apply [] history

def bidsOf (live : List ContinuousOrder) : List ContinuousOrder :=
  live.filter (fun o => o.side = .buy)

def asksOf (live : List ContinuousOrder) : List ContinuousOrder :=
  live.filter (fun o => o.side = .sell)

/-- The event is about the order, after it has been taken. -/
def EngineEvent.Touches (e : EngineEvent) (order : ContinuousOrder) : Prop :=
  (∃ details, e = .matched order details) ∨ e = .filled order ∨ e = .cancelled order

def EngineEvent.Ends (e : EngineEvent) (order : ContinuousOrder) : Prop :=
  e = .filled order ∨ e = .cancelled order

/-- The slope and the constant at a price are those of the sum of some curves. -/
def CurveDescribes {α : Type} [LinearOrder α] (repo : CurveRepository α Double) (point : Nat → α)
    (orders : List ContinuousOrder) : Prop :=
  ∀ price, ∃ koeff constant : ℚ, repo.koeffs.valueAbove (point price) = .num koeff ∧
    repo.constants.valueAbove (point price) = .num constant ∧
      koeff * price + constant = (orders.map fun o => o.curveAt price).sum

/-- The book and the curves hold every live order once and no other, and no order is matched,
filled or cancelled after it has been filled or cancelled. -/
structure BooksDescribe (st : Engine) : Prop where
  book : (st.userOrderBook.bidOrders ++ st.userOrderBook.askOrders).Perm (liveOrders st.history)
  bidCurve : CurveDescribes st.buyOrderBook id (bidsOf (liveOrders st.history))
  askCurve : CurveDescribes st.sellOrderBook OrderDual.toDual (asksOf (liveOrders st.history))
  final : ∀ front e back order, st.history = front ++ e :: back → e.Ends order →
    ∀ e' ∈ back, ¬ e'.Touches order

def StorageDescribes (st : Engine) : Prop :=
  ∀ orderId order, st.orderStorage.lookup orderId = some order ↔
    order ∈ liveOrders st.history ∧ order.orderId = orderId

/-- The curves of some orders are taken away one after the other, and no fracture goes that an
order needs which stays. -/
def DeletesKeep {α : Type} [LinearOrder α] (pieceOf : ContinuousOrder → CurvePiece α ℚ) :
    List ContinuousOrder → List ContinuousOrder → Prop
  | _, [] => True
  | live, order :: rest =>
      KeepsFractures pieceOf order (withoutOrder live order) ∧
        DeletesKeep pieceOf (withoutOrder live order) rest

/-- The curves of some orders can be taken away on both sides. -/
def CurvesKeep (live deleted : List ContinuousOrder) : Prop :=
  DeletesKeep bidPiece (bidsOf live) (bidsOf deleted) ∧
    DeletesKeep askPiece (asksOf live) (asksOf deleted)

def weights (orders : List ContinuousOrder) : ℚ :=
  (orders.map ContinuousOrder.weight).sum

/-- Orders with different numbers, whose coefficients and sums are exact in doubles. -/
structure Granted (k : Nat) (orders : List ContinuousOrder) : Prop where
  place : k ≤ 1000
  ids : (orders.map ContinuousOrder.orderId).Nodup
  digits : ∀ o ∈ orders, FewDigits k o
  weights : 4 * weights orders ≤ limit k

/-- A cancellation is of an order that has not been cancelled, and the orders that go leave the
fractures that the others need. -/
def StepOk (delta : Nat) (st : Engine) : EngineStep → Prop
  | .createOrder => True
  | .matchOrders none => True
  | .matchOrders (some price) =>
      CurvesKeep (liveOrders st.history)
        ((st.userOrderBook.getOrders price).filter
          (fun o => st.userOrderBook.Fills o price delta))
  | .cancelOrder =>
      ∀ order ∈ st.cancelQueue.head?.bind st.orderStorage.lookup,
        .cancelled order ∉ st.history ∧ CurvesKeep (liveOrders st.history) [order]

section Lists

variable {live rest : List ContinuousOrder} {o o' : ContinuousOrder}

def DistinctIds (orders : List ContinuousOrder) : Prop :=
  (orders.map ContinuousOrder.orderId).Nodup

@[simp] theorem mem_withoutOrder :
    o' ∈ withoutOrder live o ↔ o' ∈ live ∧ o'.orderId ≠ o.orderId := by
  simp [withoutOrder]

@[simp] theorem mem_bidsOf : o ∈ bidsOf live ↔ o ∈ live ∧ o.side = .buy := by
  simp [bidsOf]

@[simp] theorem mem_asksOf : o ∈ asksOf live ↔ o ∈ live ∧ o.side = .sell := by
  simp [asksOf]

theorem bidsOf_append (live rest : List ContinuousOrder) :
    bidsOf (live ++ rest) = bidsOf live ++ bidsOf rest :=
  filter_append ..

theorem asksOf_append (live rest : List ContinuousOrder) :
    asksOf (live ++ rest) = asksOf live ++ asksOf rest :=
  filter_append ..

theorem DistinctIds.sublist (h : DistinctIds live) (hsub : rest.Sublist live) : DistinctIds rest :=
  List.Nodup.sublist (hsub.map _) h

theorem DistinctIds.eq_of_orderId (h : DistinctIds live) (ho : o ∈ live) (ho' : o' ∈ live)
    (hid : o.orderId = o'.orderId) : o = o' :=
  inj_on_of_nodup_map h ho ho' hid

theorem withoutOrder_sublist : (withoutOrder live o).Sublist live :=
  filter_sublist

theorem withoutOrder_eq_self (h : ∀ o' ∈ live, o'.orderId ≠ o.orderId) :
    withoutOrder live o = live :=
  filter_eq_self.mpr fun o' ho' => by simpa using h o' ho'

theorem DistinctIds.perm_withoutOrder (h : DistinctIds live) (ho : o ∈ live) :
    live.Perm (o :: withoutOrder live o) := by
  have hnodup : live.Nodup := h.of_map _
  have hsame : withoutOrder live o = live.erase o := by
    rw [hnodup.erase_eq_filter]
    refine filter_congr fun o' ho' => ?_
    have hiff : o'.orderId ≠ o.orderId ↔ o' ≠ o :=
      not_congr ⟨h.eq_of_orderId ho' ho, congrArg _⟩
    rw [Bool.eq_iff_iff, decide_eq_true_iff, bne_iff_ne, hiff]
  rw [hsame]
  exact perm_cons_erase ho

theorem bidsOf_withoutOrder : bidsOf (withoutOrder live o) = withoutOrder (bidsOf live) o := by
  unfold bidsOf withoutOrder
  rw [List.filter_filter, List.filter_filter]
  simp only [Bool.and_comm]

theorem asksOf_withoutOrder : asksOf (withoutOrder live o) = withoutOrder (asksOf live) o := by
  unfold asksOf withoutOrder
  rw [List.filter_filter, List.filter_filter]
  simp only [Bool.and_comm]

theorem DistinctIds.asksOf_of_buy (h : DistinctIds live) (ho : o ∈ live) (hside : o.side = .buy) :
    asksOf (withoutOrder live o) = asksOf live := by
  rw [asksOf_withoutOrder]
  refine withoutOrder_eq_self fun o' ho' hid => ?_
  obtain ⟨hmem, hsell⟩ := mem_asksOf.mp ho'
  obtain rfl := h.eq_of_orderId hmem ho hid
  rw [hside] at hsell
  cases hsell

theorem DistinctIds.bidsOf_of_sell (h : DistinctIds live) (ho : o ∈ live) (hside : o.side = .sell) :
    bidsOf (withoutOrder live o) = bidsOf live := by
  rw [bidsOf_withoutOrder]
  refine withoutOrder_eq_self fun o' ho' hid => ?_
  obtain ⟨hmem, hbuy⟩ := mem_bidsOf.mp ho'
  obtain rfl := h.eq_of_orderId hmem ho hid
  rw [hside] at hbuy
  cases hbuy

theorem DistinctIds.sides_foldl {filled : List ContinuousOrder} (h : DistinctIds live)
    (hfilled : DistinctIds filled) (hsub : ∀ o ∈ filled, o ∈ live) :
    bidsOf (filled.foldl withoutOrder live) = (bidsOf filled).foldl withoutOrder (bidsOf live) ∧
      asksOf (filled.foldl withoutOrder live) =
        (asksOf filled).foldl withoutOrder (asksOf live) := by
  induction filled generalizing live with
  | nil => exact ⟨rfl, rfl⟩
  | cons o rest ih =>
      obtain ⟨ho, hrest⟩ := forall_mem_cons.mp hsub
      obtain ⟨hother, hfilled⟩ := nodup_cons.mp hfilled
      have hsub' : ∀ o' ∈ rest, o' ∈ withoutOrder live o := fun o' ho' =>
        mem_withoutOrder.mpr ⟨hrest o' ho', fun hid => hother (hid ▸ mem_map_of_mem ho')⟩
      obtain ⟨hbids, hasks⟩ := ih (h.sublist withoutOrder_sublist) hfilled hsub'
      rw [foldl_cons, hbids, hasks]
      cases hside : o.side with
      | buy =>
          have hbid : bidsOf (o :: rest) = o :: bidsOf rest := by simp [bidsOf, hside]
          have hask : asksOf (o :: rest) = asksOf rest := by simp [asksOf, hside]
          rw [hbid, hask, bidsOf_withoutOrder, h.asksOf_of_buy ho hside]
          exact ⟨rfl, rfl⟩
      | sell =>
          have hbid : bidsOf (o :: rest) = bidsOf rest := by simp [bidsOf, hside]
          have hask : asksOf (o :: rest) = o :: asksOf rest := by simp [asksOf, hside]
          rw [hbid, hask, asksOf_withoutOrder, h.bidsOf_of_sell ho hside]
          exact ⟨rfl, rfl⟩

theorem bidsOf_append_asksOf_perm (live : List ContinuousOrder) :
    (bidsOf live ++ asksOf live).Perm live := by
  have hasks : asksOf live = live.filter (fun o => !decide (o.side = .buy)) := by
    refine filter_congr fun o _ => ?_
    cases o.side <;> rfl
  rw [hasks]
  exact filter_append_perm _ _

end Lists

section Curves

variable {st : Engine} {k : Nat} {bound : ℚ} {live filled : List ContinuousOrder}
variable {o : ContinuousOrder}

/-- Both repositories hold the curves of some orders. -/
structure HoldsCurves (k : Nat) (bound : ℚ) (st : Engine) (live : List ContinuousOrder) :
    Prop where
  buy : HoldsSums bidPiece k bound st.buyOrderBook (bidsOf live)
  sell : HoldsSums askPiece k bound st.sellOrderBook (asksOf live)

theorem weight_nonneg (o : ContinuousOrder) : 0 ≤ o.weight :=
  add_nonneg (add_nonneg (slope_nonneg o) (mul_nonneg (slope_nonneg o) (Nat.cast_nonneg _)))
    (Nat.cast_nonneg _)

theorem weights_nonneg (orders : List ContinuousOrder) : 0 ≤ weights orders :=
  sum_nonneg (by simp [weight_nonneg])

theorem weights_append (live filled : List ContinuousOrder) :
    weights (live ++ filled) = weights live + weights filled := by
  simp [weights]

theorem DistinctIds.weights_withoutOrder (h : DistinctIds live) (ho : o ∈ live) :
    weights live = o.weight + weights (withoutOrder live o) := by
  unfold weights
  rw [((h.perm_withoutOrder ho).map _).sum_eq, map_cons, sum_cons]

theorem deleteCurve_frame (st : Engine) (o : ContinuousOrder) :
    ∃ buyOrderBook sellOrderBook, st.deleteCurve o =
      { st with buyOrderBook := buyOrderBook, sellOrderBook := sellOrderBook } := by
  unfold Engine.deleteCurve
  cases o.side
  · exact ⟨_, st.sellOrderBook, rfl⟩
  · exact ⟨st.buyOrderBook, _, rfl⟩

theorem HoldsCurves.deleteCurve (hk : k ≤ 1000) (h : HoldsCurves k bound st live)
    (hdistinct : DistinctIds live) (ho : o ∈ live) (hdigits : FewDigits k o)
    (hlimit : 2 * (bound + o.weight) ≤ limit k) (hkeep : CurvesKeep live (o :: filled)) :
    HoldsCurves k (bound + o.weight) (st.deleteCurve o) (withoutOrder live o) ∧
      CurvesKeep (withoutOrder live o) filled := by
  obtain ⟨hbids, hasks⟩ := hkeep
  have hmore : bound ≤ bound + o.weight := le_add_of_nonneg_right (weight_nonneg o)
  unfold Engine.deleteCurve CurvesKeep
  cases hside : o.side with
  | buy =>
      have hother := hdistinct.asksOf_of_buy ho hside
      have hfilled : bidsOf (o :: filled) = o :: bidsOf filled := by simp [bidsOf, hside]
      have hfilled' : asksOf (o :: filled) = asksOf filled := by simp [asksOf, hside]
      rw [hfilled] at hbids
      rw [hfilled'] at hasks
      obtain ⟨hkeeps, hrest⟩ := hbids
      have hperm := (hdistinct.sublist filter_sublist).perm_withoutOrder
        (mem_bidsOf.mpr ⟨ho, hside⟩)
      refine ⟨⟨?_, ?_⟩, ?_, ?_⟩
      · rw [bidsOf_withoutOrder]
        exact h.buy.bidDelete hk hdigits hlimit hperm hkeeps
      · rw [hother]
        exact h.sell.mono hmore
      · rw [bidsOf_withoutOrder]
        exact hrest
      · rw [hother]
        exact hasks
  | sell =>
      have hother := hdistinct.bidsOf_of_sell ho hside
      have hfilled : asksOf (o :: filled) = o :: asksOf filled := by simp [asksOf, hside]
      have hfilled' : bidsOf (o :: filled) = bidsOf filled := by simp [bidsOf, hside]
      rw [hfilled] at hasks
      rw [hfilled'] at hbids
      obtain ⟨hkeeps, hrest⟩ := hasks
      have hperm := (hdistinct.sublist filter_sublist).perm_withoutOrder
        (mem_asksOf.mpr ⟨ho, hside⟩)
      refine ⟨⟨?_, ?_⟩, ?_, ?_⟩
      · rw [hother]
        exact h.buy.mono hmore
      · rw [asksOf_withoutOrder]
        exact h.sell.askDelete hk hdigits hlimit hperm hkeeps
      · rw [hother]
        exact hbids
      · rw [asksOf_withoutOrder]
        exact hrest

/-- The curves of some live orders are taken away; what is left is weighed as before. -/
theorem HoldsCurves.deleteCurves (hk : k ≤ 1000) (h : HoldsCurves k bound st live)
    (hdistinct : DistinctIds live) (hfilled : DistinctIds filled)
    (hsub : ∀ o ∈ filled, o ∈ live) (hdigits : ∀ o ∈ filled, FewDigits k o)
    (hlimit : 2 * (bound + weights live) ≤ limit k) (hkeep : CurvesKeep live filled) :
    HoldsCurves k (bound + weights live - weights (filled.foldl withoutOrder live))
      (filled.foldl Engine.deleteCurve st) (filled.foldl withoutOrder live) := by
  induction filled generalizing st live bound with
  | nil =>
      rw [foldl_nil, foldl_nil, add_sub_cancel_right]
      exact h
  | cons o rest ih =>
      obtain ⟨ho, hrest⟩ := forall_mem_cons.mp hsub
      obtain ⟨hothers, hfilled⟩ := nodup_cons.mp hfilled
      obtain ⟨hdigit, hdigits⟩ := forall_mem_cons.mp hdigits
      have hweights := hdistinct.weights_withoutOrder ho
      have hleft := weights_nonneg (withoutOrder live o)
      obtain ⟨hnext, hkeep⟩ := h.deleteCurve hk hdistinct ho hdigit (by linarith) hkeep
      rw [hweights, ← add_assoc]
      refine ih hnext (hdistinct.sublist withoutOrder_sublist) hfilled (fun o' ho' => ?_) hdigits
        (by linarith) hkeep
      refine mem_withoutOrder.mpr ⟨hrest o' ho', fun hid => hothers ?_⟩
      exact hid ▸ mem_map_of_mem ho'

theorem deleteCurves_frame (st : Engine) (filled : List ContinuousOrder) :
    ∃ buyOrderBook sellOrderBook, filled.foldl Engine.deleteCurve st =
      { st with buyOrderBook := buyOrderBook, sellOrderBook := sellOrderBook } := by
  induction filled generalizing st with
  | nil => exact ⟨st.buyOrderBook, st.sellOrderBook, rfl⟩
  | cons o rest ih =>
      obtain ⟨buy, sell, hfirst⟩ := deleteCurve_frame st o
      rw [foldl_cons, hfirst]
      exact ih _

end Curves

theorem addOrder_orders (book : UserOrderBook) (order : ContinuousOrder) :
    (book.addOrder order).bidOrders = book.bidOrders ++ bidsOf [order] ∧
      (book.addOrder order).askOrders = book.askOrders ++ asksOf [order] := by
  unfold UserOrderBook.addOrder
  cases hside : order.side <;> simp [bidsOf, asksOf, hside]

theorem removeOrder_orders (book : UserOrderBook) (order : ContinuousOrder) :
    (book.removeOrder order).bidOrders = (bidsOf [order]).foldl withoutOrder book.bidOrders ∧
      (book.removeOrder order).askOrders = (asksOf [order]).foldl withoutOrder book.askOrders ∧
      (book.removeOrder order).filledDetails = book.filledDetails := by
  unfold UserOrderBook.removeOrder
  cases hside : order.side <;> simp [bidsOf, asksOf, hside]

section Rounds

variable {delta price : Nat} {matched matched' : MatchedDetails} {o o' : ContinuousOrder}
variable {orders : List ContinuousOrder}

theorem fills_congr {book book' : UserOrderBook}
    (h : book.filledDetails.lookup o.orderId = book'.filledDetails.lookup o.orderId) :
    book.Fills o price delta ↔ book'.Fills o price delta := by
  unfold UserOrderBook.Fills UserOrderBook.remains UserOrderBook.getFillDetails
  rw [h]

theorem matchOrder_spec (h : matchOrder delta price matched o = some matched') :
    (matched'.filled = matched.filled ++ [o].filter (fun o => matched.book.Fills o price delta) ∧
      matched'.book.bidOrders =
        (bidsOf ([o].filter (fun o => matched.book.Fills o price delta))).foldl withoutOrder
          matched.book.bidOrders ∧
      matched'.book.askOrders =
        (asksOf ([o].filter (fun o => matched.book.Fills o price delta))).foldl withoutOrder
          matched.book.askOrders) ∧
    ∀ orderId, orderId ≠ o.orderId →
      matched'.book.filledDetails.lookup orderId = matched.book.filledDetails.lookup orderId := by
  obtain ⟨-, h⟩ := Option.ite_none_left_eq_some.mp h
  obtain rfl := Option.some.inj h
  have hadd : ∀ (book : UserOrderBook) quantity,
      (book.addFilledQuantity o price quantity).bidOrders = book.bidOrders ∧
      (book.addFilledQuantity o price quantity).askOrders = book.askOrders ∧
      ∀ orderId, orderId ≠ o.orderId →
        (book.addFilledQuantity o price quantity).filledDetails.lookup orderId =
          book.filledDetails.lookup orderId :=
    fun book quantity => ⟨rfl, rfl, fun orderId hne => lookup_insert_ne hne⟩
  have hsame : ∀ (book : UserOrderBook) quantity,
      let book' := if quantity ≠ 0 then book.addFilledQuantity o price quantity else book
      book'.bidOrders = book.bidOrders ∧ book'.askOrders = book.askOrders ∧
        ∀ orderId, orderId ≠ o.orderId →
          book'.filledDetails.lookup orderId = book.filledDetails.lookup orderId := by
    intro book quantity
    split_ifs
    · exact hadd book quantity
    · exact ⟨rfl, rfl, fun _ _ => rfl⟩
  by_cases hfills : matched.book.Fills o price delta
  · obtain ⟨hbids, hasks, hdetails⟩ := removeOrder_orders matched.book o
    obtain ⟨hbids', hasks', hdetails'⟩ := hsame (matched.book.removeOrder o)
      (min (UserOrderBook.need o price delta) (matched.book.remains o))
    simp only [hfills, if_true, filter_cons, decide_true, filter_nil]
    exact ⟨⟨trivial, hbids'.trans hbids, hasks'.trans hasks⟩,
      fun orderId hne => (hdetails' orderId hne).trans (by rw [hdetails])⟩
  · obtain ⟨hbids', hasks', hdetails'⟩ := hsame matched.book
      (min (UserOrderBook.need o price delta) (matched.book.remains o))
    simp only [hfills, if_false, filter_cons, decide_false, filter_nil]
    exact ⟨⟨by simp, hbids', hasks'⟩, hdetails'⟩

theorem matchOrders_spec (hdistinct : DistinctIds orders)
    (h : orders.foldlM (matchOrder delta price) matched = some matched') :
    matched'.filled = matched.filled ++ orders.filter (fun o => matched.book.Fills o price delta) ∧
      matched'.book.bidOrders =
        (bidsOf (orders.filter (fun o => matched.book.Fills o price delta))).foldl withoutOrder
          matched.book.bidOrders ∧
      matched'.book.askOrders =
        (asksOf (orders.filter (fun o => matched.book.Fills o price delta))).foldl withoutOrder
          matched.book.askOrders := by
  induction orders generalizing matched with
  | nil =>
      obtain rfl := Option.some.inj h
      simp [bidsOf, asksOf]
  | cons o rest ih =>
      obtain ⟨hother, hdistinct⟩ := nodup_cons.mp hdistinct
      rw [foldlM_cons] at h
      obtain ⟨next, hfirst, hrest⟩ := Option.bind_eq_some_iff.mp h
      obtain ⟨⟨hfilled, hbids, hasks⟩, hdetails⟩ := matchOrder_spec hfirst
      have hsame : rest.filter (fun o => next.book.Fills o price delta) =
          rest.filter (fun o => matched.book.Fills o price delta) := by
        refine filter_congr fun o' ho' => ?_
        have hne : o'.orderId ≠ o.orderId := fun hid => hother (hid ▸ mem_map_of_mem ho')
        simp only [fills_congr (hdetails o'.orderId hne)]
      obtain ⟨hfilled', hbids', hasks'⟩ := ih hdistinct hrest
      rw [hsame] at hfilled' hbids' hasks'
      have hcons : (o :: rest).filter (fun o => matched.book.Fills o price delta) =
          [o].filter (fun o => matched.book.Fills o price delta) ++
            rest.filter (fun o => matched.book.Fills o price delta) := by
        rw [← filter_append]
        rfl
      rw [hcons, bidsOf_append, asksOf_append, foldl_append, foldl_append, hfilled',
        hfilled, hbids', hbids, hasks', hasks, append_assoc]
      exact ⟨rfl, rfl, rfl⟩

end Rounds

section Histories

variable {history events : List EngineEvent} {o : ContinuousOrder}

def createdOrders (history : List EngineEvent) : List ContinuousOrder :=
  history.filterMap fun
    | .created order => some order
    | _ => none

/-- Every order that takes part in a round, is filled or is cancelled is live. -/
def OnlyLive (history : List EngineEvent) : Prop :=
  StepsMeet EngineEvent.apply (fun live e => ∀ order, e.Touches order → order ∈ live) [] history

theorem liveOrders_append :
    liveOrders (history ++ events) = run EngineEvent.apply (liveOrders history) events :=
  run_append ..

theorem liveOrders_sublist (history : List EngineEvent) :
    (liveOrders history).Sublist (createdOrders history) := by
  induction history using List.reverseRecOn with
  | nil => exact List.Sublist.refl _
  | append_singleton history e ih =>
      unfold createdOrders at ih ⊢
      rw [liveOrders_append, filterMap_append]
      cases e with
      | created order => exact ih.append (List.Sublist.refl _)
      | matched order details => exact ih.trans (sublist_append_left _ _)
      | filled order =>
          exact (withoutOrder_sublist.trans ih).trans (sublist_append_left _ _)
      | cancelled order =>
          exact (withoutOrder_sublist.trans ih).trans (sublist_append_left _ _)

theorem OnlyLive.append (h : OnlyLive history)
    (hevents : StepsMeet EngineEvent.apply (fun live e => ∀ order, e.Touches order → order ∈ live)
      (liveOrders history) events) : OnlyLive (history ++ events) :=
  StepsMeet.append h hevents

theorem run_filled (live filled : List ContinuousOrder) :
    run EngineEvent.apply live (filled.map .filled) = filled.foldl withoutOrder live := by
  unfold run
  rw [foldl_map]
  rfl

theorem run_matched (live orders : List ContinuousOrder) (details : ContinuousOrder → FillDetails) :
    run EngineEvent.apply live (orders.map fun o => .matched o (details o)) = live := by
  unfold run
  rw [foldl_map]
  exact foldl_fixed orders

theorem stepsMeet_matched {live orders : List ContinuousOrder}
    (details : ContinuousOrder → FillDetails) (h : ∀ o ∈ orders, o ∈ live) :
    StepsMeet EngineEvent.apply (fun live e => ∀ order, e.Touches order → order ∈ live) live
      (orders.map fun o => .matched o (details o)) := by
  induction orders with
  | nil => trivial
  | cons o rest ih =>
      obtain ⟨ho, hrest⟩ := forall_mem_cons.mp h
      refine ⟨?_, ih hrest⟩
      rintro order (⟨_, heq⟩ | heq | heq) <;> cases heq
      exact ho

theorem stepsMeet_filled {live filled : List ContinuousOrder} (hdistinct : DistinctIds filled)
    (h : ∀ o ∈ filled, o ∈ live) :
    StepsMeet EngineEvent.apply (fun live e => ∀ order, e.Touches order → order ∈ live) live
      (filled.map .filled) := by
  induction filled generalizing live with
  | nil => trivial
  | cons o rest ih =>
      obtain ⟨ho, hrest⟩ := forall_mem_cons.mp h
      obtain ⟨hother, hdistinct⟩ := nodup_cons.mp hdistinct
      refine ⟨?_, ih hdistinct fun o' ho' => ?_⟩
      · rintro order (⟨_, heq⟩ | heq | heq) <;> cases heq
        exact ho
      · refine mem_withoutOrder.mpr ⟨hrest o' ho', fun hid => hother ?_⟩
        exact hid ▸ mem_map_of_mem ho'

theorem mem_foldl_withoutOrder {live filled : List ContinuousOrder} :
    o ∈ filled.foldl withoutOrder live ↔
      o ∈ live ∧ o.orderId ∉ filled.map ContinuousOrder.orderId := by
  induction filled generalizing live with
  | nil => simp
  | cons o' rest ih =>
      rw [foldl_cons, ih, mem_withoutOrder, map_cons, mem_cons, not_or, and_assoc]

theorem notMem_run {live : List ContinuousOrder} {orderId : Nat}
    (hlive : ∀ o ∈ live, o.orderId ≠ orderId)
    (hcreated : ∀ o ∈ createdOrders events, o.orderId ≠ orderId) :
    ∀ o ∈ run EngineEvent.apply live events, o.orderId ≠ orderId := by
  induction events generalizing live with
  | nil => exact hlive
  | cons e rest ih =>
      unfold createdOrders at hcreated
      have hnext : ∀ o ∈ e.apply live, o.orderId ≠ orderId := by
        cases e with
        | created order =>
            intro o ho
            rcases mem_append.mp ho with ho | ho
            · exact hlive o ho
            · rw [mem_singleton.mp ho]
              exact hcreated order mem_cons_self
        | matched order details => exact hlive
        | filled order => exact fun o ho => hlive o (mem_withoutOrder.mp ho).1
        | cancelled order => exact fun o ho => hlive o (mem_withoutOrder.mp ho).1
      refine ih hnext fun o ho => hcreated o ?_
      cases e with
      | created order => exact mem_cons_of_mem _ ho
      | matched order details => exact ho
      | filled order => exact ho
      | cancelled order => exact ho

theorem OnlyLive.final (h : OnlyLive history) (hdistinct : DistinctIds (createdOrders history))
    {front back : List EngineEvent} {e : EngineEvent} (hhistory : history = front ++ e :: back)
    (hends : e.Ends o) : ∀ e' ∈ back, ¬ e'.Touches o := by
  intro e' he' htouches
  obtain ⟨before, after, rfl⟩ := append_of_mem he'
  rw [hhistory] at h hdistinct
  have hend : e.Touches o := .inr hends
  -- the order is live before its end, so it has been taken there
  have hfront : o ∈ liveOrders front := (h.suffix).1 o hend
  have hcreated := (liveOrders_sublist front).subset hfront
  have hafter : ∀ o' ∈ createdOrders before, o'.orderId ≠ o.orderId := by
    intro o' ho' hid
    unfold DistinctIds createdOrders at hdistinct
    rw [filterMap_append, map_append, nodup_append] at hdistinct
    refine hdistinct.2.2 _ (mem_map_of_mem hcreated) _ ?_ hid.symm
    refine mem_map_of_mem (mem_filterMap.mpr ?_)
    obtain ⟨e'', he'', hsome⟩ := mem_filterMap.mp ho'
    exact ⟨e'', mem_cons_of_mem _ (mem_append_left _ he''), hsome⟩
  have hgone : ∀ o' ∈ e.apply (liveOrders front), o'.orderId ≠ o.orderId := by
    rcases hends with rfl | rfl <;> exact fun o' ho' => (mem_withoutOrder.mp ho').2
  have hlive : o ∈ run EngineEvent.apply (e.apply (liveOrders front)) before :=
    ((h.suffix).2.suffix).1 o htouches
  exact notMem_run hgone hafter o hlive rfl

end Histories

section Invariant

/-- The storage holds the live orders and the cancelled ones. -/
def StorageKeeps (st : Engine) : Prop :=
  ∀ orderId order, st.orderStorage.lookup orderId = some order ↔
    order.orderId = orderId ∧ (order ∈ liveOrders st.history ∨ .cancelled order ∈ st.history)

/-- What holds in every state of a run that meets the condition.  An order weighs twice on the
coefficients when it has been taken away. -/
structure Sound (k : Nat) (st : Engine) : Prop where
  granted : Granted k (createdOrders st.history ++ st.orderQueue)
  bids : st.userOrderBook.bidOrders = bidsOf (liveOrders st.history)
  asks : st.userOrderBook.askOrders = asksOf (liveOrders st.history)
  storage : StorageKeeps st
  curves : HoldsCurves k
    (2 * weights (createdOrders st.history) - weights (liveOrders st.history)) st
    (liveOrders st.history)
  onlyLive : OnlyLive st.history

variable {st : Engine} {k delta : Nat}

theorem sound_start {orders : List ContinuousOrder} (horders : Granted k orders)
    (cancels : List Nat) : Sound k (Engine.start orders cancels) where
  granted := horders
  bids := rfl
  asks := rfl
  storage orderId order := by
    simp [Engine.start, liveOrders]
  curves := by
    have hnone : 2 * weights (createdOrders []) - weights (liveOrders []) = 0 := by
      simp [weights, createdOrders, liveOrders, run]
    exact ⟨hnone ▸ holdsSums_nil, hnone ▸ holdsSums_nil⟩
  onlyLive := trivial

theorem Sound.distinct (h : Sound k st) :
    DistinctIds (createdOrders st.history) ∧ DistinctIds (liveOrders st.history) := by
  have hcreated : DistinctIds (createdOrders st.history) :=
    DistinctIds.sublist h.granted.ids (sublist_append_left _ _)
  exact ⟨hcreated, hcreated.sublist (liveOrders_sublist _)⟩

theorem Sound.of_cancelled (h : Sound k st) {o : ContinuousOrder}
    (hcancelled : .cancelled o ∈ st.history) :
    o ∈ createdOrders st.history ∧ o ∉ liveOrders st.history := by
  obtain ⟨front, back, hhistory⟩ := append_of_mem hcancelled
  have honly := h.onlyLive
  have hdistinct := h.distinct.1
  rw [hhistory] at honly hdistinct ⊢
  have hfront : o ∈ liveOrders front := (honly.suffix).1 o (.inr (.inr rfl))
  have hcreated := (liveOrders_sublist front).subset hfront
  have hmem : o ∈ createdOrders (front ++ .cancelled o :: back) := by
    unfold createdOrders at hcreated ⊢
    rw [filterMap_append]
    exact mem_append_left _ hcreated
  refine ⟨hmem, fun hlive => ?_⟩
  rw [liveOrders_append] at hlive
  have hafter : ∀ o' ∈ createdOrders back, o'.orderId ≠ o.orderId := by
    intro o' ho' hid
    unfold DistinctIds createdOrders at hdistinct
    rw [filterMap_append, map_append, nodup_append] at hdistinct
    exact hdistinct.2.2 _ (mem_map_of_mem hcreated) _ (mem_map_of_mem ho') hid.symm
  exact notMem_run (fun o' ho' => (mem_withoutOrder.mp ho').2) hafter o hlive rfl

theorem Sound.created_of_lookup (h : Sound k st) {orderId : Nat} {o : ContinuousOrder}
    (hlookup : st.orderStorage.lookup orderId = some o) :
    o.orderId = orderId ∧ o ∈ createdOrders st.history := by
  obtain ⟨hid, hlive | hcancelled⟩ := (h.storage orderId o).mp hlookup
  · exact ⟨hid, (liveOrders_sublist _).subset hlive⟩
  · exact ⟨hid, (h.of_cancelled hcancelled).1⟩

theorem Sound.digits (h : Sound k st) {o : ContinuousOrder} (ho : o ∈ liveOrders st.history) :
    FewDigits k o :=
  h.granted.digits o (mem_append_left _ ((liveOrders_sublist _).subset ho))

theorem Sound.created_le (h : Sound k st) :
    4 * (weights (createdOrders st.history) + weights st.orderQueue) ≤ limit k :=
  weights_append _ _ ▸ h.granted.weights

theorem HoldsCurves.addCurve {bound : ℚ} {live : List ContinuousOrder} {order : ContinuousOrder}
    (hk : k ≤ 1000) (h : HoldsCurves k bound st live) (hdigits : FewDigits k order)
    (hlimit : 2 * (bound + order.weight) ≤ limit k) :
    HoldsCurves k (bound + order.weight) (st.addCurve order) (live ++ [order]) := by
  have hmore : bound ≤ bound + order.weight := le_add_of_nonneg_right (weight_nonneg order)
  unfold Engine.addCurve
  cases hside : order.side with
  | buy =>
      have hbids : bidsOf [order] = [order] := by simp [bidsOf, hside]
      have hasks : asksOf [order] = [] := by simp [asksOf, hside]
      refine ⟨?_, ?_⟩
      · rw [bidsOf_append, hbids]
        exact h.buy.bidAdd hk hdigits hlimit
      · rw [asksOf_append, hasks, append_nil]
        exact h.sell.mono hmore
  | sell =>
      have hbids : bidsOf [order] = [] := by simp [bidsOf, hside]
      have hasks : asksOf [order] = [order] := by simp [asksOf, hside]
      refine ⟨?_, ?_⟩
      · rw [bidsOf_append, hbids, append_nil]
        exact h.buy.mono hmore
      · rw [asksOf_append, hasks]
        exact h.sell.askAdd hk hdigits hlimit

theorem Sound.createOrder {order : ContinuousOrder} {rest : List ContinuousOrder} (h : Sound k st)
    (hqueue : st.orderQueue = order :: rest) :
    Sound k (({ st with orderQueue := rest } : Engine).createOrder order) := by
  have hgranted := h.granted
  have hcreatedLe := h.created_le
  rw [hqueue] at hgranted hcreatedLe
  have hids := hgranted.ids
  have hlive : liveOrders (st.history ++ [.created order]) = liveOrders st.history ++ [order] :=
    liveOrders_append
  have hcreated : createdOrders (st.history ++ [.created order]) =
      createdOrders st.history ++ [order] :=
    filterMap_append ..
  have hnew : ∀ o ∈ createdOrders st.history, o.orderId ≠ order.orderId := by
    intro o ho hid
    rw [map_append, nodup_append] at hids
    exact hids.2.2 _ (mem_map_of_mem ho) _ (mem_map_of_mem mem_cons_self) hid
  have hnone : st.orderStorage.lookup order.orderId = none := by
    cases hlookup : st.orderStorage.lookup order.orderId with
    | none => rfl
    | some o =>
        obtain ⟨hid, ho⟩ := h.created_of_lookup hlookup
        exact absurd hid (hnew o ho)
  obtain ⟨hbids, hasks⟩ := addOrder_orders st.userOrderBook order
  obtain ⟨buy, sell, hadd⟩ : ∃ buy sell, ({ st with orderQueue := rest } : Engine).addCurve order =
      { st with orderQueue := rest, buyOrderBook := buy, sellOrderBook := sell } := by
    unfold Engine.addCurve
    cases order.side
    · exact ⟨_, st.sellOrderBook, rfl⟩
    · exact ⟨st.buyOrderBook, _, rfl⟩
  have hcurves : HoldsCurves k
      (2 * weights (createdOrders st.history) - weights (liveOrders st.history))
      ({ st with orderQueue := rest } : Engine) (liveOrders st.history) :=
    ⟨h.curves.buy, h.curves.sell⟩
  have hcurves' := hcurves.addCurve h.granted.place
    (hgranted.digits order (mem_append_right _ mem_cons_self)) (by
      have hlivePos := weights_nonneg (liveOrders st.history)
      have hrestPos := weights_nonneg rest
      have horderPos := weight_nonneg order
      have hsplit : weights (order :: rest) = order.weight + weights rest := sum_cons
      linarith)
  unfold Engine.createOrder
  rw [hadd] at hcurves' ⊢
  refine ⟨?_, ?_, ?_, ?_, ?_, ?_⟩
  · rw [hcreated, append_assoc]
    exact hgranted
  · rw [hbids, hlive, bidsOf_append, h.bids]
  · rw [hasks, hlive, asksOf_append, h.asks]
  · intro orderId o
    rw [hnone, hlive]
    simp only [Option.isSome_none, Bool.false_eq_true, if_false, mem_append,
      mem_singleton, reduceCtorEq, or_false]
    by_cases hid : orderId = order.orderId
    · subst hid
      rw [lookup_insert, Option.some.injEq]
      constructor
      · rintro rfl
        exact ⟨rfl, .inl (.inr rfl)⟩
      · rintro ⟨hid, (hmem | rfl) | hcancelled⟩
        · exact absurd hid (hnew o ((liveOrders_sublist _).subset hmem))
        · rfl
        · exact absurd hid (hnew o (h.of_cancelled hcancelled).1)
    · rw [lookup_insert_ne hid, h.storage]
      constructor
      · rintro ⟨hsame, hmem | hcancelled⟩
        · exact ⟨hsame, .inl (.inl hmem)⟩
        · exact ⟨hsame, .inr hcancelled⟩
      · rintro ⟨hsame, (hmem | rfl) | hcancelled⟩
        · exact ⟨hsame, .inl hmem⟩
        · exact absurd hsame.symm hid
        · exact ⟨hsame, .inr hcancelled⟩
  · have hweights : 2 * weights (createdOrders st.history ++ [order]) -
        weights (liveOrders st.history ++ [order]) =
          2 * weights (createdOrders st.history) - weights (liveOrders st.history) +
            order.weight := by
      have hone : weights [order] = order.weight := by simp [weights]
      rw [weights_append, weights_append, hone]
      ring
    rw [hlive, hcreated, hweights]
    exact ⟨hcurves'.buy, hcurves'.sell⟩
  · refine h.onlyLive.append ⟨?_, trivial⟩
    rintro o (⟨_, heq⟩ | heq | heq) <;> cases heq

theorem Sound.getOrders_spec (h : Sound k st) (price : Nat) :
    (∀ o ∈ st.userOrderBook.getOrders price, o ∈ liveOrders st.history) ∧
      DistinctIds (st.userOrderBook.getOrders price) := by
  have hperm : (st.userOrderBook.bidOrders ++ st.userOrderBook.askOrders).Perm
      (liveOrders st.history) := by
    rw [h.bids, h.asks]
    exact bidsOf_append_asksOf_perm _
  have hsub : (st.userOrderBook.getOrders price).Sublist
      (st.userOrderBook.bidOrders ++ st.userOrderBook.askOrders) :=
    filter_sublist.append filter_sublist
  have hdistinct : DistinctIds (st.userOrderBook.bidOrders ++ st.userOrderBook.askOrders) :=
    (hperm.map _).nodup_iff.mpr h.distinct.2
  exact ⟨fun o ho => hperm.subset (hsub.subset ho), hdistinct.sublist hsub⟩

theorem Sound.matchRound (h : Sound k st) (price : Nat)
    (hkeep : CurvesKeep (liveOrders st.history)
      ((st.userOrderBook.getOrders price).filter (fun o => st.userOrderBook.Fills o price delta))) :
    Sound k (st.matchRound delta price) := by
  unfold Engine.matchRound
  dsimp only
  cases hround : (st.userOrderBook.getOrders price).foldlM (matchOrder delta price)
      { book := st.userOrderBook } with
  | none => exact ⟨h.granted, h.bids, h.asks, h.storage, ⟨h.curves.buy, h.curves.sell⟩, h.onlyLive⟩
  | some matched =>
      obtain ⟨hlive, horders⟩ := h.getOrders_spec price
      obtain ⟨hmatched, hbids, hasks⟩ := matchOrders_spec horders hround
      rw [nil_append] at hmatched
      generalize hfilledEq : (st.userOrderBook.getOrders price).filter
        (fun o => st.userOrderBook.Fills o price delta) = filled at hkeep hmatched hbids hasks
      have hsublist : filled.Sublist (st.userOrderBook.getOrders price) :=
        hfilledEq ▸ filter_sublist
      have hfilled : DistinctIds filled := horders.sublist hsublist
      have hsub : ∀ o ∈ filled, o ∈ liveOrders st.history :=
        fun o ho => hlive o (hsublist.subset ho)
      have hcurves := h.curves.deleteCurves h.granted.place h.distinct.2 hfilled hsub
        (fun o ho => h.digits (hsub o ho)) (by
          have hcreatedLe := h.created_le
          have hqueuePos := weights_nonneg st.orderQueue
          linarith) hkeep
      rw [sub_add_cancel] at hcurves
      obtain ⟨hsideBids, hsideAsks⟩ := h.distinct.2.sides_foldl hfilled hsub
      obtain ⟨buy, sell, hframe⟩ := deleteCurves_frame st filled
      have hlive' : liveOrders (st.history ++
          (st.userOrderBook.getOrders price).map
            (fun o => EngineEvent.matched o (matched.book.getFillDetails o)) ++
          filled.map .filled) = filled.foldl withoutOrder (liveOrders st.history) := by
        rw [liveOrders_append, liveOrders_append, run_matched, run_filled]
      have hcreated : createdOrders (st.history ++
          (st.userOrderBook.getOrders price).map
            (fun o => EngineEvent.matched o (matched.book.getFillDetails o)) ++
          filled.map .filled) = createdOrders st.history := by
        unfold createdOrders
        simp [filterMap_append, filterMap_map]
      dsimp only
      rw [hmatched]
      rw [hframe] at hcurves ⊢
      refine ⟨?_, ?_, ?_, ?_, ?_, ?_⟩
      · rw [hcreated]
        exact h.granted
      · rw [hbids, hlive', hsideBids, h.bids]
      · rw [hasks, hlive', hsideAsks, h.asks]
      · intro orderId o
        have herase : (filled.foldl (fun storage o => storage.erase o.orderId)
            st.orderStorage).lookup orderId =
              if orderId ∈ filled.map ContinuousOrder.orderId then none
              else st.orderStorage.lookup orderId := by
          rw [← Table.lookup_foldl_erase, foldl_map]
        rw [herase, hlive', mem_foldl_withoutOrder]
        have hcancelled : EngineEvent.cancelled o ∈ st.history ++
            (st.userOrderBook.getOrders price).map
              (fun o => EngineEvent.matched o (matched.book.getFillDetails o)) ++
            filled.map .filled ↔ .cancelled o ∈ st.history := by
          simp
        rw [hcancelled]
        split_ifs with hid
        · refine iff_of_false (by simp) ?_
          rintro ⟨rfl, ⟨-, hnot⟩ | hgone⟩
          · exact hnot hid
          · obtain ⟨o', ho', hsame⟩ := mem_map.mp hid
            obtain ⟨htaken, hnot⟩ := h.of_cancelled hgone
            have hmem := hsub o' ho'
            obtain rfl := h.distinct.1.eq_of_orderId ((liveOrders_sublist _).subset hmem) htaken hsame
            exact hnot hmem
        · rw [h.storage]
          constructor
          · rintro ⟨rfl, hmem | hgone⟩
            · exact ⟨rfl, .inl ⟨hmem, hid⟩⟩
            · exact ⟨rfl, .inr hgone⟩
          · rintro ⟨rfl, ⟨hmem, -⟩ | hgone⟩
            · exact ⟨rfl, .inl hmem⟩
            · exact ⟨rfl, .inr hgone⟩
      · rw [hlive', hcreated]
        exact ⟨hcurves.buy, hcurves.sell⟩
      · refine (h.onlyLive.append (stepsMeet_matched _ hlive)).append ?_
        rw [liveOrders_append, run_matched]
        exact stepsMeet_filled hfilled hsub

theorem Sound.cancelOrder {orderId : Nat} (h : Sound k st)
    (hok : ∀ order ∈ st.orderStorage.lookup orderId,
      .cancelled order ∉ st.history ∧ CurvesKeep (liveOrders st.history) [order]) :
    Sound k (st.cancelOrder orderId) := by
  unfold Engine.cancelOrder
  cases hlookup : st.orderStorage.lookup orderId with
  | none => exact h
  | some order =>
      obtain ⟨hnot, hkeep⟩ := hok order hlookup
      obtain ⟨hid, hmem⟩ := (h.storage orderId order).mp hlookup
      have hlive := hmem.resolve_right hnot
      have hweights := h.distinct.2.weights_withoutOrder hlive
      have hleft := weights_nonneg (withoutOrder (liveOrders st.history) order)
      obtain ⟨hcurves, -⟩ := h.curves.deleteCurve h.granted.place h.distinct.2 hlive
        (h.digits hlive) (by
          have hcreatedLe := h.created_le
          have hqueuePos := weights_nonneg st.orderQueue
          linarith) hkeep
      rw [hweights, show ∀ x y z : ℚ, x - (y + z) + y = x - z from fun x y z => by ring] at hcurves
      obtain ⟨hbids, hasks, -⟩ := removeOrder_orders st.userOrderBook order
      have hone : DistinctIds [order] := nodup_singleton _
      obtain ⟨hsideBids, hsideAsks⟩ := h.distinct.2.sides_foldl hone
        (fun o ho => mem_singleton.mp ho ▸ hlive)
      obtain ⟨buy, sell, hframe⟩ := deleteCurve_frame st order
      have hlive' : liveOrders (st.history ++ [.cancelled order]) =
          withoutOrder (liveOrders st.history) order :=
        liveOrders_append
      have hcreated : createdOrders (st.history ++ [.cancelled order]) =
          createdOrders st.history := by
        simp [createdOrders]
      dsimp only
      rw [hframe] at hcurves ⊢
      refine ⟨?_, ?_, ?_, ?_, ?_, ?_⟩
      · rw [hcreated]
        exact h.granted
      · rw [hbids, hlive', h.bids]
        exact hsideBids.symm
      · rw [hasks, hlive', h.asks]
        exact hsideAsks.symm
      · intro orderId' o
        rw [h.storage, hlive', mem_withoutOrder, mem_append, mem_singleton,
          EngineEvent.cancelled.injEq]
        constructor
        · rintro ⟨rfl, hmem | hgone⟩
          · by_cases hsame : o.orderId = order.orderId
            · exact ⟨rfl, .inr (.inr (h.distinct.2.eq_of_orderId hmem hlive hsame))⟩
            · exact ⟨rfl, .inl ⟨hmem, hsame⟩⟩
          · exact ⟨rfl, .inr (.inl hgone)⟩
        · rintro ⟨rfl, ⟨hmem, -⟩ | hgone | rfl⟩
          · exact ⟨rfl, .inl hmem⟩
          · exact ⟨rfl, .inr hgone⟩
          · exact ⟨rfl, .inl hlive⟩
      · rw [hlive', hcreated]
        exact ⟨hcurves.buy, hcurves.sell⟩
      · refine h.onlyLive.append ⟨?_, trivial⟩
        rintro o (⟨_, heq⟩ | heq | heq) <;> cases heq
        exact hlive

theorem Sound.step (h : Sound k st) (s : EngineStep) (hok : StepOk delta st s) :
    Sound k (st.step delta s) := by
  unfold Engine.step
  split_ifs
  · exact h
  · cases s with
    | createOrder =>
        cases hqueue : st.orderQueue with
        | nil => exact h
        | cons order rest => exact h.createOrder hqueue
    | matchOrders price =>
        cases price with
        | none => exact h
        | some price => exact h.matchRound price hok
    | cancelOrder =>
        cases hqueue : st.cancelQueue with
        | nil => exact h
        | cons orderId rest =>
            have hsame : Sound k ({ st with cancelQueue := rest } : Engine) :=
              ⟨h.granted, h.bids, h.asks, h.storage, ⟨h.curves.buy, h.curves.sell⟩, h.onlyLive⟩
            unfold StepOk at hok
            rw [hqueue] at hok
            exact hsame.cancelOrder hok

theorem HoldsSums.bidDescribes {repo : CurveRepository ℕ Double} {bound : ℚ}
    {live : List ContinuousOrder} (h : HoldsSums bidPiece k bound repo live)
    (hside : ∀ o ∈ live, o.side = .buy) : CurveDescribes repo id live := by
  obtain ⟨exact, rfl, -, htracks⟩ := h
  exact fun price => ⟨exact.koeffs.valueAbove price, exact.constants.valueAbove price,
    valueAbove_toDouble _ _, valueAbove_toDouble _ _, htracks.bidCurve hside price⟩

theorem HoldsSums.askDescribes {repo : CurveRepository ℕᵒᵈ Double} {bound : ℚ}
    {live : List ContinuousOrder} (h : HoldsSums askPiece k bound repo live)
    (hside : ∀ o ∈ live, o.side = .sell) : CurveDescribes repo OrderDual.toDual live := by
  obtain ⟨exact, rfl, -, htracks⟩ := h
  exact fun price => ⟨exact.koeffs.valueAbove (OrderDual.toDual price),
    exact.constants.valueAbove (OrderDual.toDual price), valueAbove_toDouble _ _,
    valueAbove_toDouble _ _, htracks.askCurve hside price⟩

theorem Sound.booksDescribe (h : Sound k st) : BooksDescribe st where
  book := by
    rw [h.bids, h.asks]
    exact bidsOf_append_asksOf_perm _
  bidCurve := h.curves.buy.bidDescribes fun _ ho => (mem_bidsOf.mp ho).2
  askCurve := h.curves.sell.askDescribes fun _ ho => (mem_asksOf.mp ho).2
  final _ _ _ _ hhistory hends := h.onlyLive.final h.distinct.1 hhistory hends

theorem Sound.storageDescribes_iff (h : Sound k st) :
    StorageDescribes st ↔ ∀ order, .cancelled order ∉ st.history := by
  constructor
  · intro hstorage order hcancelled
    have hlookup := (h.storage order.orderId order).mpr ⟨rfl, .inr hcancelled⟩
    exact (h.of_cancelled hcancelled).2 ((hstorage _ _).mp hlookup).1
  · intro hnone orderId order
    rw [h.storage]
    constructor
    · rintro ⟨hid, hlive | hcancelled⟩
      · exact ⟨hlive, hid⟩
      · exact absurd hcancelled (hnone order)
    · rintro ⟨hlive, hid⟩
      exact ⟨hid, .inl hlive⟩

end Invariant

section Decidability

variable {α : Type} [LinearOrder α] (pieceOf : ContinuousOrder → CurvePiece α ℚ)

instance (order : ContinuousOrder) (remaining : List ContinuousOrder) :
    Decidable (KeepsFractures pieceOf order remaining) :=
  have (k : α) : Decidable (k ∈ keysOf pieceOf remaining) :=
    inferInstanceAs (Decidable (∃ o ∈ remaining, ∃ f ∈ (pieceOf o).fractures, f.2 = k))
  inferInstanceAs (Decidable (∀ f ∈ (pieceOf order).fractures, _ → _ ∨ _))

instance decidableDeletesKeep :
    (live deleted : List ContinuousOrder) → Decidable (DeletesKeep pieceOf live deleted)
  | _, [] => isTrue trivial
  | live, order :: rest =>
      have := decidableDeletesKeep (withoutOrder live order) rest
      inferInstanceAs (Decidable (_ ∧ _))

instance (live deleted : List ContinuousOrder) : Decidable (CurvesKeep live deleted) :=
  inferInstanceAs (Decidable (_ ∧ _))

instance (delta : Nat) (st : Engine) (s : EngineStep) : Decidable (StepOk delta st s) :=
  match s with
  | .createOrder => isTrue trivial
  | .matchOrders none => isTrue trivial
  | .matchOrders (some _) => inferInstanceAs (Decidable (CurvesKeep _ _))
  | .cancelOrder => inferInstanceAs (Decidable (∀ order ∈ _, _ ∧ _))

end Decidability

/-- Along runs of orders whose curves are exact, in which no order is cancelled twice and no
fracture goes that is needed, the book and the curves describe the live orders, and the storage
does as long as nothing has been cancelled. -/
theorem engine_describes_live (delta : Nat) (orders : List ContinuousOrder) (cancels : List Nat)
    (steps : List EngineStep) (hids : (orders.map ContinuousOrder.orderId).Nodup)
    (hdigits : ∃ k ≤ 1000, (∀ o ∈ orders, FewDigits k o) ∧ 4 * weights orders ≤ limit k)
    (hmeet : StepsMeet (Engine.step delta) (StepOk delta) (Engine.start orders cancels) steps) :
    BooksDescribe (run (Engine.step delta) (Engine.start orders cancels) steps) ∧
      (StorageDescribes (run (Engine.step delta) (Engine.start orders cancels) steps) ↔
        ∀ order, .cancelled order ∉
          (run (Engine.step delta) (Engine.start orders cancels) steps).history) := by
  obtain ⟨k, hk, hdigits, hweights⟩ := hdigits
  have hsound := run_invariant (Sound k) (fun _ s h hok => h.step s hok)
    (sound_start ⟨hk, hids, hdigits, hweights⟩ cancels) hmeet
  exact ⟨hsound.booksDescribe, hsound.storageDescribes_iff⟩

/-- A bid of the speed ten between ten and twenty. -/
def wideBid : ContinuousOrder :=
  { orderId := 1, side := .buy, volume := 1000, lowPrice := 10, highPrice := 20, speed := 10
    low_lt_high := by decide }

/-- A bid that ends where the first one begins to bend. -/
def lowBid : ContinuousOrder :=
  { orderId := 2, side := .buy, volume := 1000, lowPrice := 5, highPrice := 10, speed := 5
    low_lt_high := by decide }

/-- A bid that bends where the first one does. -/
def shortBid : ContinuousOrder :=
  { orderId := 3, side := .buy, volume := 1000, lowPrice := 10, highPrice := 15, speed := 5
    low_lt_high := by decide }

/-- An ask that one round fills. -/
def smallAsk : ContinuousOrder :=
  { orderId := 4, side := .sell, volume := 10, lowPrice := 5, highPrice := 12, speed := 7
    low_lt_high := by decide }

/-- A bid is cancelled, an ask is filled, and both are asked to be cancelled again. -/
theorem cancelled_and_filled_describe :
    BooksDescribe (run (Engine.step 7) (Engine.start [wideBid, lowBid, smallAsk] [2, 4, 9])
      [.createOrder, .createOrder, .createOrder, .cancelOrder, .matchOrders (some 11),
        .cancelOrder, .cancelOrder]) := by
  have hdigits : ∀ o ∈ [wideBid, lowBid, smallAsk], FewDigits 0 o := by
    simp only [mem_cons, forall_eq_or_imp, not_mem_nil, false_imp_iff, implies_true, and_true]
    refine ⟨⟨by decide, ⟨1, ?_⟩, ⟨10, ?_⟩, ?_⟩, ⟨by decide, ⟨1, ?_⟩, ⟨5, ?_⟩, ?_⟩,
      ⟨by decide, ⟨1, ?_⟩, ⟨5, ?_⟩, ?_⟩⟩ <;>
      norm_num [ContinuousOrder.weight, ContinuousOrder.slope, wideBid, lowBid, smallAsk, limit]
  refine (engine_describes_live 7 [wideBid, lowBid, smallAsk] [2, 4, 9] _ (by decide)
    ⟨0, by norm_num, hdigits, ?_⟩ (by decide +kernel)).1
  norm_num [weights, ContinuousOrder.weight, ContinuousOrder.slope, wideBid, lowBid, smallAsk,
    limit]

/-- Two bids whose slopes are below one and that begin to bend at the same price. -/
def flatBids : List ContinuousOrder :=
  [{ orderId := 1, side := .buy, volume := 1000, lowPrice := 2, highPrice := 10, speed := 1
     low_lt_high := by decide },
    { orderId := 2, side := .buy, volume := 1000, lowPrice := 2, highPrice := 6, speed := 1
      low_lt_high := by decide }]

/-- Two asks, the second of which has a slope of a third. -/
def crossingAsks : List ContinuousOrder :=
  [{ orderId := 1, side := .sell, volume := 1000, lowPrice := 2, highPrice := 4, speed := 2
     low_lt_high := by decide },
    { orderId := 2, side := .sell, volume := 1000, lowPrice := 3, highPrice := 6, speed := 1
      low_lt_high := by decide }]

/-- An order that is cancelled twice is taken off the curve twice and reported twice; a fracture
that goes with one order takes the curve of another one along; a bend of less than one is not
seen; and a deletion leaves the rounding of the sum behind. -/
theorem curve_taken_twice :
    (let st := run (Engine.step 7) (Engine.start [wideBid, shortBid] [1, 1])
      [.createOrder, .createOrder, .cancelOrder, .cancelOrder]
    liveOrders st.history = [shortBid] ∧ st.buyOrderBook.koeffs.valueAbove 0 = .num 0 ∧
      st.buyOrderBook.constants.valueAbove 0 = .num (-5) ∧
      st.history.count (.cancelled wideBid) = 2) ∧
    (let st := run (Engine.step 7) (Engine.start [wideBid, lowBid, shortBid] [3, 1])
      [.createOrder, .createOrder, .createOrder, .cancelOrder, .cancelOrder]
    liveOrders st.history = [lowBid] ∧ st.buyOrderBook.koeffs.valueAbove 7 = .num 0 ∧
      st.buyOrderBook.constants.valueAbove 7 = .num 0 ∧ lowBid.curveAt 7 = 3) ∧
    (let st := run (Engine.step 7) (Engine.start flatBids [1])
      [.createOrder, .createOrder, .cancelOrder]
    liveOrders st.history = flatBids.tail ∧
      st.buyOrderBook.koeffs.valueAbove 1 = .num (-1 / 4) ∧
      st.buyOrderBook.constants.valueAbove 1 = .num (3 / 2) ∧
      flatBids.tail.map (fun o => o.curveAt 1) = [1]) ∧
    (let st := run (Engine.step 7) (Engine.start crossingAsks [1])
      [.createOrder, .createOrder, .cancelOrder]
    liveOrders st.history = crossingAsks.tail ∧
      st.sellOrderBook.koeffs.valueAbove (OrderDual.toDual 6) =
        .num (1501199875790165 / 4503599627370496) ∧
      st.sellOrderBook.constants.valueAbove (OrderDual.toDual 6) = .num (-1) ∧
      crossingAsks.tail.map (fun o => o.curveAt 6) = [1]) ∧
    ¬ ∀ delta orders cancels steps, (orders.map ContinuousOrder.orderId).Nodup →
      BooksDescribe (run (Engine.step delta) (Engine.start orders cancels) steps) ∧
        StorageDescribes (run (Engine.step delta) (Engine.start orders cancels) steps) := by
  refine ⟨by decide +kernel, by decide +kernel, by decide +kernel, by decide +kernel, fun h => ?_⟩
  obtain ⟨koeff, constant, hkoeff, hconstant, hsum⟩ := (h 7 [wideBid, shortBid] [1, 1]
    [.createOrder, .createOrder, .cancelOrder, .cancelOrder] (by decide)).1.bidCurve 0
  have htwice : ∃ st, run (Engine.step 7) (Engine.start [wideBid, shortBid] [1, 1])
      [.createOrder, .createOrder, .cancelOrder, .cancelOrder] = st ∧
        st.buyOrderBook.koeffs.valueAbove 0 = .num 0 ∧
          st.buyOrderBook.constants.valueAbove 0 = .num (-5) ∧
            ((bidsOf (liveOrders st.history)).map fun o => o.curveAt 0).sum = 5 :=
    ⟨_, rfl, by decide +kernel⟩
  obtain ⟨st, hst, hkoeff', hconstant', hsum'⟩ := htwice
  rw [hst] at hkoeff hconstant hsum
  obtain rfl := Double.num.inj (hkoeff.symm.trans hkoeff')
  obtain rfl := Double.num.inj (hconstant.symm.trans hconstant')
  rw [hsum'] at hsum
  norm_num at hsum

end LegacyEngine
end ContExchange
