import ContExchange.Common.Decimal
import ContExchange.Lib.LastWrite
import ContExchange.Lib.Runs

/-!
# Venues: the local order book of a centralised venue

This module models `CexLocalLobAssembler`, which keeps a copy of a venue's order
book: a REST snapshot initialises it, and the diff events of the WebSocket feed
bring it up to date.  A diff names the range of update ids it covers.

* A diff that ends before the next expected id is ignored.
* A diff that starts after the next expected id leaves a gap: the book is dropped.
* Any other diff is applied, also when it repeats ids that were applied before.
* A book with an empty side or with crossed sides is dropped.

The two price maps are the `std::map` members, the bids with the order reversed.
Update ids are 64-bit unsigned integers; the expected id wraps.
-/

namespace ContExchange
namespace Venues

open Common

/-- An `int64_t` mantissa. -/
abbrev Units : Type := { z : Int // Int64Fits z }

/-- `std::less<int64_t>`, the order of the asks. -/
def ascending : Units → Units → Ordering :=
  compareOn Subtype.val

/-- `std::greater<int64_t>`, the order of the bids. -/
def descending : Units → Units → Ordering :=
  fun a b => ascending b a

instance : Std.TransCmp ascending :=
  inferInstanceAs (Std.TransCmp (compareOn Subtype.val))

instance : Std.TransCmp descending :=
  inferInstanceAs (Std.TransCmp fun a b => ascending b a)

variable {a b : Units}

theorem eq_of_ascending (h : ascending a b = .eq) : a = b :=
  Subtype.ext (Std.LawfulEqOrd.eq_of_compare h)

instance : Std.LawfulEqCmp ascending where
  eq_of_compare h := eq_of_ascending h

instance : Std.LawfulEqCmp descending where
  eq_of_compare h := (eq_of_ascending h).symm

theorem ascending_eq_lt : ascending a b = .lt ↔ a.val < b.val :=
  compare_lt_iff_lt

theorem descending_eq_lt : descending a b = .lt ↔ b.val < a.val :=
  compare_lt_iff_lt

structure VenueBookLevel where
  price : Decimal
  qty : Decimal
deriving DecidableEq

namespace VenueBookLevel

/-- The level with the given mantissas and scales. -/
def ofUnits (priceScale qtyScale : Int) (price qty : Units) : VenueBookLevel :=
  { price := ⟨price.val, priceScale, price.property⟩
    qty := ⟨qty.val, qtyScale, qty.property⟩ }

/-- The two mantissas of a level, as the price maps store them. -/
def entry (level : VenueBookLevel) : Units × Units :=
  (⟨level.price.units, level.price.fits⟩, ⟨level.qty.units, level.qty.fits⟩)

end VenueBookLevel

structure Snapshot where
  lastUpdateId : UInt64
  bids : List VenueBookLevel
  asks : List VenueBookLevel

structure DiffEvent where
  firstUpdateId : UInt64
  finalUpdateId : UInt64
  bidDeltas : List VenueBookLevel
  askDeltas : List VenueBookLevel

inductive ApplyStatus where
  | applied
  | ignoredOld
  | needReinit
  | invalid
deriving DecidableEq

structure CexLocalLobAssembler where
  maxLevels : ℕ
  initialized : Bool
  lastUpdateId : UInt64
  priceScale : Int
  qtyScale : Int
  bidMap : Std.TreeMap Units Units descending
  askMap : Std.TreeMap Units Units ascending
  bids : List VenueBookLevel
  asks : List VenueBookLevel

namespace CexLocalLobAssembler

/-- The constructor. -/
def new (maxLevels : ℕ) : CexLocalLobAssembler :=
  { maxLevels := max 1 maxLevels
    initialized := false
    lastUpdateId := 0
    priceScale := 0
    qtyScale := 0
    bidMap := ∅
    askMap := ∅
    bids := []
    asks := [] }

/-- `Reset`: everything but the number of levels. -/
def reset (s : CexLocalLobAssembler) : CexLocalLobAssembler :=
  { s with
    initialized := false
    lastUpdateId := 0
    priceScale := 0
    qtyScale := 0
    bidMap := ∅
    askMap := ∅
    bids := []
    asks := [] }

section Maps

variable {cmp : Units → Units → Ordering}

/-- One level of a snapshot: levels without a price or a quantity are passed over. -/
def loadLevel
    (t : Std.TreeMap Units Units cmp)
    (level : VenueBookLevel) :
    Std.TreeMap Units Units cmp :=
  if level.price.units ≤ 0 ∨ level.qty.units ≤ 0 then t
  else t.insert level.entry.1 level.entry.2

/-- One level of a diff: a level without a quantity is deleted. -/
def applyLevel
    (t : Std.TreeMap Units Units cmp)
    (level : VenueBookLevel) :
    Std.TreeMap Units Units cmp :=
  if level.price.units ≤ 0 then t
  else if level.qty.units ≤ 0 then t.erase level.entry.1
  else t.insert level.entry.1 level.entry.2

/-- One loop of `RebuildTopLevels`: the first levels of the map, in its order. -/
def topLevels
    (maxLevels : ℕ)
    (priceScale qtyScale : Int)
    (t : Std.TreeMap Units Units cmp) :
    List VenueBookLevel :=
  ((t.toList.take maxLevels).filter (fun e => decide (0 < e.2.val))).map
    (fun e => VenueBookLevel.ofUnits priceScale qtyScale e.1 e.2)

end Maps

/-- `RebuildTopLevels`, with its result. -/
def rebuildTopLevels (s : CexLocalLobAssembler) : CexLocalLobAssembler × Bool :=
  let bids := topLevels s.maxLevels s.priceScale s.qtyScale s.bidMap
  let asks := topLevels s.maxLevels s.priceScale s.qtyScale s.askMap
  ({ s with bids := bids, asks := asks }, !bids.isEmpty && !asks.isEmpty)

/-- `bids_.front().price.units >= asks_.front().price.units`, for sides that are not empty. -/
def crossed (s : CexLocalLobAssembler) : Bool :=
  match s.bids, s.asks with
  | bid :: _, ask :: _ => decide (ask.price.units ≤ bid.price.units)
  | _, _ => false

def configureMaxLevels (s : CexLocalLobAssembler) (maxLevels : ℕ) : CexLocalLobAssembler :=
  let s' := { s with maxLevels := max 1 maxLevels }
  if s'.initialized then s'.rebuildTopLevels.1 else s'

/-- `InitializeFromSnapshot` before the top levels are rebuilt: the scales are those of the
first bid. -/
def loadSnapshot
    (s : CexLocalLobAssembler)
    (bid : VenueBookLevel)
    (snapshot : Snapshot) :
    CexLocalLobAssembler :=
  { s.reset with
    priceScale := bid.price.scale
    qtyScale := bid.qty.scale
    bidMap := snapshot.bids.foldl loadLevel ∅
    askMap := snapshot.asks.foldl loadLevel ∅ }

/-- `InitializeFromSnapshot`, with its result. -/
def initializeFromSnapshot
    (s : CexLocalLobAssembler)
    (snapshot : Snapshot) :
    CexLocalLobAssembler × Bool :=
  match snapshot.bids, snapshot.asks with
  | bid :: _, _ :: _ =>
      let rebuilt := (s.loadSnapshot bid snapshot).rebuildTopLevels
      if !rebuilt.2 then (rebuilt.1.reset, false)
      else if rebuilt.1.crossed then (rebuilt.1.reset, false)
      else
        ({ rebuilt.1 with initialized := true, lastUpdateId := snapshot.lastUpdateId }, true)
  | _, _ => (s, false)

/-- The two loops of `ApplyDiff`. -/
def applyDeltas (s : CexLocalLobAssembler) (diff : DiffEvent) : CexLocalLobAssembler :=
  { s with
    bidMap := diff.bidDeltas.foldl applyLevel s.bidMap
    askMap := diff.askDeltas.foldl applyLevel s.askMap }

/-- `ApplyDiff`, with its result. -/
def applyDiff
    (s : CexLocalLobAssembler)
    (diff : DiffEvent) :
    CexLocalLobAssembler × ApplyStatus :=
  if !s.initialized then (s, .needReinit)
  else if diff.firstUpdateId = 0 ∨ diff.finalUpdateId = 0 then (s, .invalid)
  else if diff.finalUpdateId < diff.firstUpdateId then (s, .invalid)
  else if diff.finalUpdateId < s.lastUpdateId + 1 then (s, .ignoredOld)
  else if s.lastUpdateId + 1 < diff.firstUpdateId then (s.reset, .needReinit)
  else
    let rebuilt := (s.applyDeltas diff).rebuildTopLevels
    if !rebuilt.2 then (rebuilt.1.reset, .needReinit)
    else if rebuilt.1.crossed then (rebuilt.1.reset, .needReinit)
    else ({ rebuilt.1 with lastUpdateId := diff.finalUpdateId }, .applied)

/-- What the owner of an assembler hands to it. -/
inductive Delivery where
  | snapshot (book : Snapshot)
  | diff (event : DiffEvent)
  | configureMaxLevels (maxLevels : ℕ)
  | reset

def step (s : CexLocalLobAssembler) : Delivery → CexLocalLobAssembler
  | .snapshot snapshot => (s.initializeFromSnapshot snapshot).1
  | .diff diff => (s.applyDiff diff).1
  | .configureMaxLevels maxLevels => s.configureMaxLevels maxLevels
  | .reset => s.reset

/-- The deliveries that start the book anew: a reset, and a snapshot with both sides. -/
def Delivery.restarts : Delivery → Bool
  | .snapshot book => !book.bids.isEmpty && !book.asks.isEmpty
  | .diff _ => false
  | .configureMaxLevels _ => false
  | .reset => true

/-- What `ApplyDiff` can do: leave the state, drop the book, or apply a range that reaches the
next expected id and leaves no gap. -/
theorem applyDiff_cases (s : CexLocalLobAssembler) (diff : DiffEvent) :
    (s.applyDiff diff).1 = s
    ∨ (∃ s' : CexLocalLobAssembler, (s.applyDiff diff).1 = s'.reset ∧ s'.maxLevels = s.maxLevels)
    ∨ (s.initialized = true
        ∧ diff.firstUpdateId ≠ 0
        ∧ diff.firstUpdateId ≤ s.lastUpdateId + 1
        ∧ s.lastUpdateId + 1 ≤ diff.finalUpdateId
        ∧ (s.applyDeltas diff).rebuildTopLevels.2 = true
        ∧ (s.applyDeltas diff).rebuildTopLevels.1.crossed = false
        ∧ (s.applyDiff diff).1
            = { (s.applyDeltas diff).rebuildTopLevels.1 with
                lastUpdateId := diff.finalUpdateId }) := by
  unfold applyDiff
  by_cases hinit : s.initialized = true
  · rw [if_neg (by rw [hinit]; exact Bool.false_ne_true)]
    by_cases hzero : diff.firstUpdateId = 0 ∨ diff.finalUpdateId = 0
    · rw [if_pos hzero]
      exact .inl rfl
    rw [if_neg hzero]
    by_cases hinvalid : diff.finalUpdateId < diff.firstUpdateId
    · rw [if_pos hinvalid]
      exact .inl rfl
    rw [if_neg hinvalid]
    by_cases hold : diff.finalUpdateId < s.lastUpdateId + 1
    · rw [if_pos hold]
      exact .inl rfl
    rw [if_neg hold]
    by_cases hgap : s.lastUpdateId + 1 < diff.firstUpdateId
    · rw [if_pos hgap]
      exact .inr (.inl ⟨s, rfl, rfl⟩)
    rw [if_neg hgap]
    cases hok : (s.applyDeltas diff).rebuildTopLevels.2 with
    | false => exact .inr (.inl ⟨(s.applyDeltas diff).rebuildTopLevels.1, by simp [hok], rfl⟩)
    | true =>
        cases hcross : (s.applyDeltas diff).rebuildTopLevels.1.crossed with
        | true =>
            exact .inr (.inl ⟨(s.applyDeltas diff).rebuildTopLevels.1, by simp [hok, hcross], rfl⟩)
        | false =>
            refine .inr (.inr ⟨hinit, fun h => hzero (.inl h), UInt64.not_lt.mp hgap,
              UInt64.not_lt.mp hold, rfl, rfl, ?_⟩)
            simp [hok, hcross]
  · rw [if_pos (by simpa using hinit)]
    exact .inl rfl

/-- What `InitializeFromSnapshot` can do: leave the state when a side is missing, drop the book,
or take the snapshot. -/
theorem initializeFromSnapshot_cases (s : CexLocalLobAssembler) (snapshot : Snapshot) :
    (s.initializeFromSnapshot snapshot).1 = s
    ∨ (∃ s' : CexLocalLobAssembler,
        (s.initializeFromSnapshot snapshot).1 = s'.reset ∧ s'.maxLevels = s.maxLevels)
    ∨ (∃ bid ∈ snapshot.bids,
        (s.loadSnapshot bid snapshot).rebuildTopLevels.2 = true
        ∧ (s.loadSnapshot bid snapshot).rebuildTopLevels.1.crossed = false
        ∧ (s.initializeFromSnapshot snapshot).1
            = { (s.loadSnapshot bid snapshot).rebuildTopLevels.1 with
                initialized := true
                lastUpdateId := snapshot.lastUpdateId }) := by
  unfold initializeFromSnapshot
  rcases hbids : snapshot.bids with _ | ⟨bid, bids⟩
  · exact .inl rfl
  rcases hasks : snapshot.asks with _ | ⟨ask, asks⟩
  · exact .inl rfl
  right
  cases hok : (s.loadSnapshot bid snapshot).rebuildTopLevels.2 with
  | false =>
      exact .inl ⟨(s.loadSnapshot bid snapshot).rebuildTopLevels.1, by simp [hok], rfl⟩
  | true =>
      cases hcross : (s.loadSnapshot bid snapshot).rebuildTopLevels.1.crossed with
      | true =>
          exact .inl ⟨(s.loadSnapshot bid snapshot).rebuildTopLevels.1, by simp [hok, hcross], rfl⟩
      | false =>
          exact .inr ⟨bid, List.mem_cons_self, hok, hcross, by simp [hok, hcross]⟩

end CexLocalLobAssembler

end Venues
end ContExchange
