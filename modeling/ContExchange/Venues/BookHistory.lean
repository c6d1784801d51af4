import ContExchange.Venues.LocalBook

/-!
# Venues: the local book is the venue's book

A venue's history is a list of absolute level updates with consecutive ids, all at
one price scale and one quantity scale.  The venue's book at an id is what the
updates up to it leave: the levels with a positive price and a positive quantity.

A snapshot is derived from the history when it lists the levels of the book at its
id; a diff is derived from it when its deltas end, for every price, with the last
update of the range of ids it names.  The feed may drop, repeat, reorder or overlap
what it delivers.

The invariant `Mirrors` relates an initialised assembler to the history.  A diff is
applied only when it leaves no gap, so that replaying its range on the book at the
last id gives the book at the diff's final id (`Lib.lastWrite_overlap`).
-/

namespace ContExchange
namespace Venues

open Common VenueBookLevel
open List hiding filter_filter
open Lib (lastWrite Records writeTo run)

inductive BookSide where
  | bid
  | ask
deriving DecidableEq

/-- One absolute update: the quantity that now rests at a price. -/
structure LevelUpdate where
  side : BookSide
  price : Units
  qty : Units

/-- The updates of a venue; the first one has the id `base + 1`. -/
structure ExchangeHistory where
  base : ℕ
  updates : List LevelUpdate
  priceScale : Int
  qtyScale : Int
  ids_fit : base + updates.length < 2 ^ 64

def listed (price : Units) : Bool :=
  decide (0 < price.val)

/-- A quantity that rests: positive. -/
def live (qty : Units) : Bool :=
  decide (0 < qty.val)

/-- The writes of one side, as pairs of a price and a quantity. -/
def writesOf (side : BookSide) (updates : List LevelUpdate) : List (Units × Units) :=
  (updates.filter (fun u => decide (u.side = side))).map (fun u => (u.price, u.qty))

theorem writesOf_append (side : BookSide) (us vs : List LevelUpdate) :
    writesOf side (us ++ vs) = writesOf side us ++ writesOf side vs := by
  unfold writesOf
  rw [filter_append, map_append]

namespace ExchangeHistory

def upTo (h : ExchangeHistory) (id : ℕ) : List LevelUpdate :=
  h.updates.take (id - h.base)

/-- The updates of a range of ids, both ends included. -/
def range (h : ExchangeHistory) (first final : ℕ) : List LevelUpdate :=
  (h.upTo final).drop (first - 1 - h.base)

/-- The quantity that rests at a price after the update with the given id. -/
def trueBook (h : ExchangeHistory) (side : BookSide) (id : ℕ) (price : Units) : Option Units :=
  if listed price then (lastWrite price (writesOf side (h.upTo id))).filter live else none

/-- The id of an update of the history, or of the state before the first one. -/
def Known (h : ExchangeHistory) (id : ℕ) : Prop :=
  h.base ≤ id ∧ id ≤ h.base + h.updates.length

def AtScales (h : ExchangeHistory) (levels : List VenueBookLevel) : Prop :=
  ∀ level ∈ levels, level.price.scale = h.priceScale ∧ level.qty.scale = h.qtyScale
deriving Decidable

def Lists (h : ExchangeHistory) (side : BookSide) (id : ℕ) (levels : List VenueBookLevel) : Prop :=
  ∀ price qty,
    ((price, qty) ∈ levels.map VenueBookLevel.entry ∧ listed price = true ∧ live qty = true)
      ↔ h.trueBook side id price = some qty

/-- The levels end, for every price, with the last update of the range. -/
def Covers
    (h : ExchangeHistory)
    (side : BookSide)
    (first final : ℕ)
    (levels : List VenueBookLevel) : Prop :=
  ∀ price, lastWrite price (levels.map VenueBookLevel.entry)
    = lastWrite price (writesOf side (h.range first final))

theorem lists_of_writes {h : ExchangeHistory} {side : BookSide} {id : ℕ}
    {levels : List VenueBookLevel}
    (heq : levels.map entry = writesOf side (h.upTo id))
    (hnodup : ((writesOf side (h.upTo id)).map Prod.fst).Nodup) : h.Lists side id levels := by
  intro price qty
  rw [heq, ← Lib.lastWrite_eq_some_iff_mem hnodup]
  unfold trueBook
  cases hl : listed price with
  | false => simp
  | true => simp [Option.filter_eq_some_iff]

/-- A snapshot of the venue's book. -/
structure IsSnapshot (h : ExchangeHistory) (snapshot : Snapshot) : Prop where
  known : h.Known snapshot.lastUpdateId.toNat
  bid_scales : h.AtScales snapshot.bids
  ask_scales : h.AtScales snapshot.asks
  bids : h.Lists .bid snapshot.lastUpdateId.toNat snapshot.bids
  asks : h.Lists .ask snapshot.lastUpdateId.toNat snapshot.asks

/-- A diff of the venue's feed: a range of updates. -/
structure IsRange (h : ExchangeHistory) (diff : DiffEvent) : Prop where
  first_known : h.base < diff.firstUpdateId.toNat
  ordered : diff.firstUpdateId.toNat ≤ diff.finalUpdateId.toNat
  final_known : diff.finalUpdateId.toNat ≤ h.base + h.updates.length
  bid_scales : h.AtScales diff.bidDeltas
  ask_scales : h.AtScales diff.askDeltas
  bids : h.Covers .bid diff.firstUpdateId.toNat diff.finalUpdateId.toNat diff.bidDeltas
  asks : h.Covers .ask diff.firstUpdateId.toNat diff.finalUpdateId.toNat diff.askDeltas

/-- What the owner hands over comes from the history; the owner may also change the number of
levels or reset the assembler. -/
def Derived (h : ExchangeHistory) : CexLocalLobAssembler.Delivery → Prop
  | .snapshot snapshot => h.IsSnapshot snapshot
  | .diff diff => h.IsRange diff
  | .configureMaxLevels _ => True
  | .reset => True

/-- The visible levels are the best ones of the book, in the order of the side. -/
def ShowsBest
    (h : ExchangeHistory)
    (better : Units → Units → Prop)
    (book : Units → Option Units)
    (maxLevels : ℕ)
    (visible : List VenueBookLevel) : Prop :=
  ∃ full : List (Units × Units),
    full.Pairwise (fun a b => better a.1 b.1)
    ∧ (∀ price qty, (price, qty) ∈ full ↔ book price = some qty)
    ∧ visible = (full.take maxLevels).map
        (fun e => VenueBookLevel.ofUnits h.priceScale h.qtyScale e.1 e.2)

end ExchangeHistory

namespace CexLocalLobAssembler

section Maps

variable {cmp : Units → Units → Ordering}

theorem listed_entry_iff (level : VenueBookLevel) :
    listed level.entry.1 = true ↔ ¬ level.price.units ≤ 0 :=
  decide_eq_true_iff.trans not_le.symm

theorem live_entry_iff (level : VenueBookLevel) :
    live level.entry.2 = true ↔ ¬ level.qty.units ≤ 0 :=
  decide_eq_true_iff.trans not_le.symm

theorem applyLevel_eq_writeTo (t : Std.TreeMap Units Units cmp) (level : VenueBookLevel) :
    applyLevel t level = writeTo listed live t level.entry := by
  unfold applyLevel writeTo
  simp only [listed_entry_iff, live_entry_iff, ite_not]

theorem foldl_applyLevel (t : Std.TreeMap Units Units cmp) (levels : List VenueBookLevel) :
    levels.foldl applyLevel t = (levels.map entry).foldl (writeTo listed live) t := by
  rw [foldl_map]
  congr 1
  funext t level
  exact applyLevel_eq_writeTo t level

/-- The levels a snapshot loads: those with a price and a quantity. -/
def loadable (e : Units × Units) : Bool :=
  listed e.1 && live e.2

theorem foldl_loadLevel (t : Std.TreeMap Units Units cmp) (levels : List VenueBookLevel) :
    levels.foldl loadLevel t
      = ((levels.map entry).filter loadable).foldl (writeTo listed live) t := by
  induction levels generalizing t with
  | nil => rfl
  | cons level levels ih =>
      rw [foldl_cons, ih, map_cons]
      unfold loadLevel
      by_cases hskip : level.price.units ≤ 0 ∨ level.qty.units ≤ 0
      · have hnot : ¬ loadable level.entry = true := by
          rw [loadable, Bool.and_eq_true, listed_entry_iff, live_entry_iff]
          exact fun h => hskip.elim h.1 h.2
        rw [if_pos hskip, filter_cons_of_neg hnot]
      · obtain ⟨hprice, hqty⟩ := not_or.mp hskip
        have hlisted := (listed_entry_iff level).mpr hprice
        have hlive := (live_entry_iff level).mpr hqty
        have hload : loadable level.entry = true := by
          rw [loadable, hlisted, hlive, Bool.and_self]
        rw [if_neg hskip, filter_cons_of_pos hload, foldl_cons]
        unfold writeTo
        rw [if_pos hlisted, if_pos hlive]

end Maps

section Records

variable {cmp : Units → Units → Ordering} [Std.TransCmp cmp] [Std.LawfulEqCmp cmp]
variable {h : ExchangeHistory} {side : BookSide}

def Holds
    (h : ExchangeHistory)
    (side : BookSide)
    (id : ℕ)
    (t : Std.TreeMap Units Units cmp) : Prop :=
  ∀ price, t[price]? = h.trueBook side id price

variable {id : ℕ}

theorem holds_load {levels : List VenueBookLevel} (hlists : h.Lists side id levels) :
    Holds h side id (levels.foldl loadLevel (∅ : Std.TreeMap Units Units cmp)) := by
  intro price
  have hreplay : Records listed live (levels.foldl loadLevel (∅ : Std.TreeMap Units Units cmp))
      ((levels.map VenueBookLevel.entry).filter loadable) := by
    rw [foldl_loadLevel]
    exact Lib.records_empty.replay _
  have hlast : lastWrite price ((levels.map VenueBookLevel.entry).filter loadable)
      = h.trueBook side id price := by
    apply Lib.lastWrite_eq_of_mem_iff
    intro qty
    rw [mem_filter, loadable, Bool.and_eq_true]
    exact hlists price qty
  rw [hreplay price, hlast]
  unfold ExchangeHistory.trueBook
  split
  · rw [Option.filter_filter]
    simp
  · rfl

variable {t : Std.TreeMap Units Units cmp}

theorem holds_apply {last first final : ℕ} {levels : List VenueBookLevel}
    (hholds : Holds h side last t) (hknown : h.Known last) (hfirst : first ≤ last + 1)
    (hfinal : last ≤ final) (hcovers : h.Covers side first final levels) :
    Holds h side final (levels.foldl applyLevel t) := by
  have hbefore : Records listed live t (writesOf side (h.upTo last)) := hholds
  have hafter : Records listed live (levels.foldl applyLevel t)
      (writesOf side (h.upTo last) ++ levels.map VenueBookLevel.entry) := by
    rw [foldl_applyLevel]
    exact hbefore.replay _
  obtain ⟨a, b, c, hlast, hrange, hall⟩ := Lib.take_overlap h.updates
    (i := first - 1 - h.base) (j := last - h.base) (m := final - h.base)
    (by omega) (by omega) (by have := hknown.2; omega)
  refine hafter.congr ?_
  intro price
  have hdeltas := hcovers price
  unfold ExchangeHistory.range at hdeltas
  unfold ExchangeHistory.upTo at hdeltas ⊢
  rw [hrange] at hdeltas
  rw [hlast, hall, Lib.lastWrite_append, hdeltas, ← Lib.lastWrite_append]
  simp only [writesOf_append]
  exact Lib.lastWrite_overlap price _ _ _

theorem Holds.mem_toList_iff (hholds : Holds h side id t) (price qty : Units) :
    (price, qty) ∈ t.toList ↔ h.trueBook side id price = some qty := by
  rw [Std.TreeMap.mem_toList_iff_getElem?_eq_some, hholds price]

theorem Holds.topLevels_eq (hholds : Holds h side id t) (maxLevels : ℕ)
    (priceScale qtyScale : Int) :
    topLevels maxLevels priceScale qtyScale t
      = (t.toList.take maxLevels).map
          (fun e => VenueBookLevel.ofUnits priceScale qtyScale e.1 e.2) := by
  unfold topLevels
  rw [filter_eq_self.mpr]
  intro e he
  have hrow := Std.TreeMap.mem_toList_iff_getElem?_eq_some.mp (mem_of_mem_take he)
  have hrecords : Records listed live t (writesOf side (h.upTo id)) := hholds
  exact hrecords.live_of_getElem? hrow

end Records

/-- An initialised assembler mirrors the venue's book at its last update id. -/
structure Mirrors (h : ExchangeHistory) (s : CexLocalLobAssembler) : Prop where
  known : h.Known s.lastUpdateId.toNat
  price_scale : s.priceScale = h.priceScale
  qty_scale : s.qtyScale = h.qtyScale
  bid_map : Holds h .bid s.lastUpdateId.toNat s.bidMap
  ask_map : Holds h .ask s.lastUpdateId.toNat s.askMap
  bids : s.bids = topLevels s.maxLevels s.priceScale s.qtyScale s.bidMap
  asks : s.asks = topLevels s.maxLevels s.priceScale s.qtyScale s.askMap
  uncrossed : ∀ bid ∈ s.bidMap.toList, ∀ ask ∈ s.askMap.toList, bid.1.val < ask.1.val

/-- What holds of an assembler at any time. -/
structure Sound (h : ExchangeHistory) (s : CexLocalLobAssembler) : Prop where
  levels_pos : 1 ≤ s.maxLevels
  mirrors : s.initialized = true → Mirrors h s

variable {s : CexLocalLobAssembler}

theorem sound_reset {h : ExchangeHistory} (hpos : 1 ≤ s.maxLevels) : Sound h s.reset :=
  ⟨hpos, fun hinit => absurd hinit Bool.false_ne_true⟩

theorem sound_new (h : ExchangeHistory) (maxLevels : ℕ) : Sound h (new maxLevels) :=
  ⟨Nat.le_max_left 1 maxLevels, fun hinit => absurd hinit Bool.false_ne_true⟩

theorem uncrossed_of_rebuild {h : ExchangeHistory} {id : ℕ} (hpos : 1 ≤ s.maxLevels)
    (hbid : Holds h .bid id s.bidMap) (hask : Holds h .ask id s.askMap)
    (hcross : s.rebuildTopLevels.1.crossed = false) :
    ∀ bid ∈ s.bidMap.toList, ∀ ask ∈ s.askMap.toList, bid.1.val < ask.1.val := by
  obtain ⟨n, hn⟩ : ∃ n, s.maxLevels = n + 1 := ⟨s.maxLevels - 1, by omega⟩
  unfold crossed at hcross
  simp only [rebuildTopLevels, hbid.topLevels_eq, hask.topLevels_eq, hn] at hcross
  have hbids := s.bidMap.ordered_keys_toList
  have hasks := s.askMap.ordered_keys_toList
  rcases hbl : s.bidMap.toList with _ | ⟨bid₀, bids⟩
  · simp
  rcases hal : s.askMap.toList with _ | ⟨ask₀, asks⟩
  · simp
  rw [hbl] at hcross hbids
  rw [hal] at hcross hasks
  have hfront : bid₀.1.val < ask₀.1.val := by
    simpa [ofUnits] using hcross
  intro bid hb ask ha
  have hbest : bid.1.val ≤ bid₀.1.val := by
    rcases mem_cons.mp hb with rfl | hb
    · exact le_rfl
    · exact (descending_eq_lt.mp ((pairwise_cons.mp hbids).1 bid hb)).le
  have hleast : ask₀.1.val ≤ ask.1.val := by
    rcases mem_cons.mp ha with rfl | ha
    · exact le_rfl
    · exact (ascending_eq_lt.mp ((pairwise_cons.mp hasks).1 ask ha)).le
  omega

theorem nextId_bounds {last first final : UInt64} (hzero : first ≠ 0) (hfirst : first ≤ last + 1)
    (hfinal : last + 1 ≤ final) : first.toNat ≤ last.toNat + 1 ∧ last.toNat ≤ final.toNat := by
  have hlast := last.toNat_lt
  have hpos : first.toNat ≠ 0 := fun h => hzero (UInt64.toNat_inj.mp h)
  rw [UInt64.le_iff_toNat_le, UInt64.toNat_add, UInt64.toNat_one] at hfirst hfinal
  omega

theorem mirrors_of_rebuild {h : ExchangeHistory} (initialized : Bool) (id : UInt64)
    (hpos : 1 ≤ s.maxLevels) (hknown : h.Known id.toNat) (hprice : s.priceScale = h.priceScale)
    (hqty : s.qtyScale = h.qtyScale) (hbid : Holds h .bid id.toNat s.bidMap)
    (hask : Holds h .ask id.toNat s.askMap) (hcross : s.rebuildTopLevels.1.crossed = false) :
    Mirrors h
      { s.rebuildTopLevels.1 with
        initialized := initialized
        lastUpdateId := id } where
  known := hknown
  price_scale := hprice
  qty_scale := hqty
  bid_map := hbid
  ask_map := hask
  bids := rfl
  asks := rfl
  uncrossed := uncrossed_of_rebuild hpos hbid hask hcross

theorem sound_configureMaxLevels {h : ExchangeHistory} (hs : Sound h s) (maxLevels : ℕ) :
    Sound h (s.configureMaxLevels maxLevels) := by
  have hpos : 1 ≤ max 1 maxLevels := Nat.le_max_left 1 maxLevels
  unfold configureMaxLevels
  by_cases hinit : s.initialized = true
  · rw [if_pos hinit]
    have hold := hs.mirrors hinit
    exact ⟨hpos, fun _ =>
      { known := hold.known
        price_scale := hold.price_scale
        qty_scale := hold.qty_scale
        bid_map := hold.bid_map
        ask_map := hold.ask_map
        bids := rfl
        asks := rfl
        uncrossed := hold.uncrossed }⟩
  · rw [if_neg hinit]
    exact ⟨hpos, fun h' => absurd h' hinit⟩

theorem sound_initializeFromSnapshot {h : ExchangeHistory} {snapshot : Snapshot} (hs : Sound h s)
    (hsnapshot : h.IsSnapshot snapshot) : Sound h (s.initializeFromSnapshot snapshot).1 := by
  rcases s.initializeFromSnapshot_cases snapshot
    with hkept | ⟨s', hdropped, hmax⟩ | ⟨bid, hbid, -, hcross, htaken⟩
  · rw [hkept]
    exact hs
  · rw [hdropped]
    exact sound_reset (hmax ▸ hs.levels_pos)
  · rw [htaken]
    obtain ⟨hprice, hqty⟩ := hsnapshot.bid_scales bid hbid
    exact ⟨hs.levels_pos, fun _ =>
      mirrors_of_rebuild (s := s.loadSnapshot bid snapshot) true snapshot.lastUpdateId
        hs.levels_pos hsnapshot.known hprice hqty
        (holds_load hsnapshot.bids) (holds_load hsnapshot.asks) hcross⟩

theorem sound_applyDiff {h : ExchangeHistory} {diff : DiffEvent} (hs : Sound h s)
    (hdiff : h.IsRange diff) : Sound h (s.applyDiff diff).1 := by
  rcases s.applyDiff_cases diff
    with hkept | ⟨s', hdropped, hmax⟩ | ⟨hinit, hzero, hfirst, hfinal, -, hcross, happlied⟩
  · rw [hkept]
    exact hs
  · rw [hdropped]
    exact sound_reset (hmax ▸ hs.levels_pos)
  · have hold := hs.mirrors hinit
    obtain ⟨hf, hl⟩ := nextId_bounds hzero hfirst hfinal
    rw [happlied]
    exact ⟨hs.levels_pos, fun _ =>
      mirrors_of_rebuild (s := s.applyDeltas diff) s.initialized diff.finalUpdateId
        hs.levels_pos ⟨hold.known.1.trans hl, hdiff.final_known⟩ hold.price_scale hold.qty_scale
        (holds_apply hold.bid_map hold.known hf hl hdiff.bids)
        (holds_apply hold.ask_map hold.known hf hl hdiff.asks) hcross⟩

theorem sound_step {h : ExchangeHistory} (hs : Sound h s) (d : Delivery) (hd : h.Derived d) :
    Sound h (s.step d) := by
  cases d with
  | snapshot book => exact sound_initializeFromSnapshot hs hd
  | diff event => exact sound_applyDiff hs hd
  | configureMaxLevels maxLevels => exact sound_configureMaxLevels hs maxLevels
  | reset => exact sound_reset hs.levels_pos

theorem sound_run {h : ExchangeHistory} {ds : List Delivery} (maxLevels : ℕ)
    (hds : ∀ d ∈ ds, h.Derived d) : Sound h (run step (new maxLevels) ds) :=
  Lib.run_preserves_of_mem (Sound h) (fun _ d hs hd => sound_step hs d hd)
    (sound_new h maxLevels) hds

theorem Mirrors.shows_bids {h : ExchangeHistory} (hm : Mirrors h s) :
    h.ShowsBest (fun a b => b.val < a.val) (h.trueBook .bid s.lastUpdateId.toNat)
      s.maxLevels s.bids := by
  refine ⟨s.bidMap.toList, ?_, hm.bid_map.mem_toList_iff, ?_⟩
  · exact s.bidMap.ordered_keys_toList.imp descending_eq_lt.mp
  · rw [hm.bids, hm.bid_map.topLevels_eq, hm.price_scale, hm.qty_scale]

theorem Mirrors.shows_asks {h : ExchangeHistory} (hm : Mirrors h s) :
    h.ShowsBest (fun a b => a.val < b.val) (h.trueBook .ask s.lastUpdateId.toNat)
      s.maxLevels s.asks := by
  refine ⟨s.askMap.toList, ?_, hm.ask_map.mem_toList_iff, ?_⟩
  · exact s.askMap.ordered_keys_toList.imp ascending_eq_lt.mp
  · rw [hm.asks, hm.ask_map.topLevels_eq, hm.price_scale, hm.qty_scale]

theorem Mirrors.visible_uncrossed {h : ExchangeHistory} (hm : Mirrors h s) :
    ∀ bid ∈ s.bids, ∀ ask ∈ s.asks, bid.price.units < ask.price.units := by
  intro bid hbid ask hask
  rw [hm.bids, hm.bid_map.topLevels_eq] at hbid
  rw [hm.asks, hm.ask_map.topLevels_eq] at hask
  obtain ⟨b, hb, rfl⟩ := mem_map.mp hbid
  obtain ⟨a, ha, rfl⟩ := mem_map.mp hask
  exact hm.uncrossed b (mem_of_mem_take hb) a (mem_of_mem_take ha)

theorem lastUpdateId_le_step {d : Delivery} (hd : d.restarts = false)
    (hinit : (s.step d).initialized = true) :
    s.initialized = true ∧ s.lastUpdateId ≤ (s.step d).lastUpdateId := by
  cases d with
  | snapshot book =>
      have hkept : (s.initializeFromSnapshot book).1 = s := by
        unfold Delivery.restarts at hd
        unfold initializeFromSnapshot
        rcases hb : book.bids with _ | ⟨bid, bids⟩
        · rfl
        rcases ha : book.asks with _ | ⟨ask, asks⟩
        · rfl
        simp [hb, ha] at hd
      have hstep : s.step (.snapshot book) = s := hkept
      rw [hstep] at hinit ⊢
      exact ⟨hinit, UInt64.le_refl _⟩
  | diff event =>
      change (s.applyDiff event).1.initialized = true at hinit
      change s.initialized = true ∧ s.lastUpdateId ≤ (s.applyDiff event).1.lastUpdateId
      rcases s.applyDiff_cases event
        with hkept | ⟨s', hdropped, -⟩ | ⟨hbefore, hzero, hfirst, hfinal, -, -, happlied⟩
      · rw [hkept] at hinit ⊢
        exact ⟨hinit, UInt64.le_refl _⟩
      · rw [hdropped] at hinit
        exact absurd hinit Bool.false_ne_true
      · rw [happlied]
        exact ⟨hbefore, UInt64.le_iff_toNat_le.mpr (nextId_bounds hzero hfirst hfinal).2⟩
  | configureMaxLevels maxLevels =>
      change (s.configureMaxLevels maxLevels).initialized = true at hinit
      change s.initialized = true ∧ s.lastUpdateId ≤ (s.configureMaxLevels maxLevels).lastUpdateId
      unfold configureMaxLevels at hinit ⊢
      by_cases hs : s.initialized = true
      · rw [if_pos hs]
        exact ⟨hs, UInt64.le_refl _⟩
      · rw [if_neg hs] at hinit
        exact absurd hinit hs
  | reset => exact absurd hd (by simp [Delivery.restarts])

theorem lastUpdateId_le_run {es : List Delivery} (hes : ∀ e ∈ es, e.restarts = false)
    (hinit : (run step s es).initialized = true) :
    s.initialized = true ∧ s.lastUpdateId ≤ (run step s es).lastUpdateId := by
  induction es generalizing s with
  | nil => exact ⟨hinit, UInt64.le_refl _⟩
  | cons e es ih =>
      obtain ⟨hnext, hle⟩ := ih (fun e' he' => hes e' (mem_cons_of_mem e he')) hinit
      obtain ⟨hs, hfirst⟩ := lastUpdateId_le_step (hes e mem_cons_self) hnext
      exact ⟨hs, UInt64.le_trans hfirst hle⟩

theorem applyDiff_of_gap {diff : DiffEvent} (hinit : s.initialized = true)
    (hordered : diff.firstUpdateId.toNat ≤ diff.finalUpdateId.toNat)
    (hgap : s.lastUpdateId.toNat + 1 < diff.firstUpdateId.toNat) :
    s.applyDiff diff = (s.reset, .needReinit) := by
  have hfirst := diff.firstUpdateId.toNat_lt
  have hexpected : (s.lastUpdateId + 1).toNat = s.lastUpdateId.toNat + 1 := by
    rw [UInt64.toNat_add, UInt64.toNat_one, Nat.mod_eq_of_lt (by omega)]
  have hzero : ¬ (diff.firstUpdateId = 0 ∨ diff.finalUpdateId = 0) := by
    rw [← UInt64.toNat_inj, ← UInt64.toNat_inj, UInt64.toNat_zero]
    omega
  unfold applyDiff
  rw [if_neg (by rw [hinit]; exact Bool.false_ne_true), if_neg hzero,
    if_neg (by rw [UInt64.lt_iff_toNat_lt]; omega),
    if_neg (by rw [UInt64.lt_iff_toNat_lt, hexpected]; omega),
    if_pos (by rw [UInt64.lt_iff_toNat_lt, hexpected]; omega)]

/-- Whatever is delivered, an initialised assembler holds the venue's book at its last update
id and shows its best levels; the id does not fall while the book is not started anew, and a
gap drops the book. -/
theorem local_book_is_venue_book (h : ExchangeHistory) (maxLevels : ℕ) (ds : List Delivery)
    (hds : ∀ d ∈ ds, h.Derived d) : let s := run step (new maxLevels) ds
    (s.initialized = true →
      (∀ price, s.bidMap[price]? = h.trueBook .bid s.lastUpdateId.toNat price)
      ∧ (∀ price, s.askMap[price]? = h.trueBook .ask s.lastUpdateId.toNat price)
      ∧ h.ShowsBest (fun a b => b.val < a.val) (h.trueBook .bid s.lastUpdateId.toNat)
          s.maxLevels s.bids
      ∧ h.ShowsBest (fun a b => a.val < b.val) (h.trueBook .ask s.lastUpdateId.toNat)
          s.maxLevels s.asks
      ∧ ∀ bid ∈ s.bids, ∀ ask ∈ s.asks, bid.price.units < ask.price.units)
    ∧ (∀ es : List Delivery,
        (∀ e ∈ es, e.restarts = false) →
        (run step s es).initialized = true →
        s.initialized = true ∧ s.lastUpdateId ≤ (run step s es).lastUpdateId)
    ∧ (∀ diff, h.IsRange diff → s.initialized = true →
        s.lastUpdateId.toNat + 1 < diff.firstUpdateId.toNat →
        (s.applyDiff diff).1.initialized = false ∧ (s.applyDiff diff).2 = .needReinit) := by
  intro s
  refine ⟨?_, fun es hes hinit => lastUpdateId_le_run hes hinit, ?_⟩
  · intro hinit
    have hm := (sound_run maxLevels hds).mirrors hinit
    exact ⟨hm.bid_map, hm.ask_map, hm.shows_bids, hm.shows_asks, hm.visible_uncrossed⟩
  · intro diff hdiff hinit hgap
    rw [applyDiff_of_gap hinit hdiff.ordered hgap]
    exact ⟨rfl, rfl⟩

theorem fits_of_decide {z : Int} (h : decide (Int64Fits z) = true) : Int64Fits z :=
  of_decide_eq_true h

/-- A literal number of units. -/
def literal (z : Int) (h : decide (Int64Fits z) = true := by exact Eq.refl true) : Units :=
  ⟨z, fits_of_decide h⟩

/-- Two levels, then a better bid; a snapshot after the two, then a diff that repeats the
second update. -/
def twoLevels : ExchangeHistory where
  base := 0
  updates :=
    [⟨.bid, literal 100, literal 5⟩, ⟨.ask, literal 103, literal 7⟩,
      ⟨.bid, literal 101, literal 2⟩]
  priceScale := 2
  qtyScale := 3
  ids_fit := by decide

/-- The deliveries of the example. -/
def overlappingFeed : List Delivery :=
  [.snapshot
      { lastUpdateId := 2
        bids := [⟨Decimal.of 100 2, Decimal.of 5 3⟩]
        asks := [⟨Decimal.of 103 2, Decimal.of 7 3⟩] },
    .diff
      { firstUpdateId := 2
        finalUpdateId := 3
        bidDeltas := [⟨Decimal.of 101 2, Decimal.of 2 3⟩]
        askDeltas := [⟨Decimal.of 103 2, Decimal.of 7 3⟩] }]

theorem overlappingFeed_derived : ∀ d ∈ overlappingFeed, twoLevels.Derived d := by
  intro d hd
  rcases mem_pair.mp hd with rfl | rfl
  · refine ⟨⟨by decide, by decide⟩, by decide, by decide, ?_, ?_⟩
    · exact ExchangeHistory.lists_of_writes (by decide) (by decide)
    · exact ExchangeHistory.lists_of_writes (by decide) (by decide)
  · exact ⟨by decide, by decide, by decide, by decide, by decide, fun _ => rfl, fun _ => rfl⟩

theorem local_book_is_venue_book_overlap : let s := run step (new 1) overlappingFeed
    s.initialized = true ∧ s.lastUpdateId = 3
      ∧ s.bids = [⟨Decimal.of 101 2, Decimal.of 2 3⟩]
      ∧ ∀ price, s.bidMap[price]? = twoLevels.trueBook .bid s.lastUpdateId.toNat price :=
  ⟨by decide, by decide, by decide,
    ((local_book_is_venue_book twoLevels 1 overlappingFeed overlappingFeed_derived).1
      (by decide)).1⟩

end CexLocalLobAssembler

end Venues
end ContExchange
