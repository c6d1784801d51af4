import ContExchange.Venues.SinglePrice

/-!
# Backtest: the curves of a venue, replayed

`RunReplay` reads the stored order-book snapshots of a market one after the other and builds
the curves of the three levels again.  `LiquidityCurveProducer` built them from the snapshots
themselves, each with its own tick, lot and places and with one more stage at the second and
third level.

* `replayRows_append`: what a replay makes of a snapshot depends on the tick and the lot that
  the ones before it left behind;
* `replayRow_eq`: when the replay finds the book of the producer;
* `replay_rebuilds`: when it finds the curves of the producer.
-/

namespace ContExchange
namespace Backtest

open Common Venues Double
open List hiding isEmpty_iff map_map
open Option hiding map map_map

/-- The part of a `VenueSnapshot` that the curves are made from; it charges no taker fee. -/
structure VenueSnapshot where
  bidPrices : List Decimal
  bidQuantities : List Decimal
  askPrices : List Decimal
  askQuantities : List Decimal
  tickSize : Option Decimal := none
  lotSize : Option Decimal := none

structure SnapshotRow where
  bidDepthJson : List Char
  askDepthJson : List Char
  tickSize : Double
  lotSize : Double

/-- A number of a row, as the database gives it back. -/
def savedNumber (d : Option Decimal) : Double :=
  (stod (depthNumber (d.getD Decimal.zero))).getD Double.zero

def saveVenueSnapshot (snapshot : VenueSnapshot) : SnapshotRow where
  bidDepthJson := decimalArrayToJson snapshot.bidPrices snapshot.bidQuantities
  askDepthJson := decimalArrayToJson snapshot.askPrices snapshot.askQuantities
  tickSize := savedNumber snapshot.tickSize
  lotSize := savedNumber snapshot.lotSize

/-- `CurveBuildLevel`, without the one that builds nothing. -/
inductive CurveLevel where
  | l1
  | l2
  | l3
deriving DecidableEq

/-- The curves of a snapshot, for each level and side. -/
abbrev LevelCurves := CurveLevel → ExecutionSide → DepthSideCurves

def toBookLevels (prices quantities : List Decimal) : List BookLevel :=
  (prices.zip quantities).filterMap fun (price, qty) =>
    if price.units ≤ 0 ∨ qty.units ≤ 0 then none else some { price, qty }

/-- `ApplyFenchelLegendreLayer` only fills the dual layer, which is left out. -/
def applyFenchelLegendreLayer (curves : DepthSideCurves) : DepthSideCurves :=
  curves

/-- `ApplyL2Pipeline` with all its stages. -/
def applyL2Pipeline (curves : DepthSideCurves) : DepthSideCurves :=
  applyFenchelLegendreLayer
    (applyTikhonovRegularizationL2 (applyMoreauRegularizationL2 (applyConvexifiedCostLayer curves)))

/-- `build_level`; the third level is the second one while there is no execution history. -/
def buildLevel (base : DepthSideCurves) : CurveLevel → DepthSideCurves
  | .l1 => applyFenchelLegendreLayer base
  | .l2 | .l3 => applyL2Pipeline base

def producerBook (snapshot : VenueSnapshot) : Option CanonicalOrderBook :=
  let bids := toBookLevels snapshot.bidPrices snapshot.bidQuantities
  let asks := toBookLevels snapshot.askPrices snapshot.askQuantities
  if bids.isEmpty || asks.isEmpty then none
  else
    let book := canonicalizeOrderBook bids asks
      { tickSize := snapshot.tickSize.getD Decimal.zero
        lotSize := snapshot.lotSize.getD Decimal.zero }
    if book.isEmpty then none else some book

/-- The curves that `LiquidityCurveProducer` builds from a snapshot. -/
def publishedCurves (snapshot : VenueSnapshot) : Option LevelCurves :=
  match producerBook snapshot with
  | none => none
  | some book =>
      if (buildDepthSideCurves book .sell).empty || (buildDepthSideCurves book .buy).empty then none
      else some fun level side => buildLevel (buildDepthSideCurves book side) level

def buildL1 (book : CanonicalOrderBook) (side : ExecutionSide) : DepthSideCurves :=
  buildDepthSideCurves book side

def buildL2 (book : CanonicalOrderBook) (side : ExecutionSide) : DepthSideCurves :=
  let curves := buildDepthSideCurves book side
  if curves.empty then curves
  else applyMoreauRegularizationL2 (applyConvexifiedCostLayer curves)

def buildL3 (book : CanonicalOrderBook) (side : ExecutionSide) : DepthSideCurves :=
  let curves := buildL2 book side
  if curves.empty then curves else applyFenchelLegendreLayer curves

def replayedCurves (book : CanonicalOrderBook) : LevelCurves
  | .l1, side => buildL1 book side
  | .l2, side => buildL2 book side
  | .l3, side => buildL3 book side

def sizeAtEight (size : Double) : Decimal :=
  ⟨unitsAtEight size, 8, unitsAtEight_fits size⟩

def updateConfig (config : DepthCanonicalizationConfig) (row : SnapshotRow) :
    DepthCanonicalizationConfig :=
  { config with
    tickSize := if Double.zero.lt row.tickSize then sizeAtEight row.tickSize else config.tickSize
    lotSize := if Double.zero.lt row.lotSize then sizeAtEight row.lotSize else config.lotSize }

/-- One round of the loop of `RunReplay`: the configuration for the next rounds, and the
curves unless the snapshot is passed over.  Nothing when a text cannot be read. -/
def replayRow (config : DepthCanonicalizationConfig) (row : SnapshotRow) :
    Option (DepthCanonicalizationConfig × Option LevelCurves) :=
  match parseDepthJson row.bidDepthJson, parseDepthJson row.askDepthJson with
  | some bidDepth, some askDepth =>
      if bidDepth.isEmpty && askDepth.isEmpty then some (config, none)
      else
        let config := updateConfig config row
        let book := canonicalizeOrderBook (makeBookLevels bidDepth) (makeBookLevels askDepth) config
        some (config, if book.isEmpty then none else some (replayedCurves book))
  | _, _ => none

/-- The loop of `RunReplay`. -/
def replayRows (config : DepthCanonicalizationConfig) :
    List SnapshotRow → Option (List (Option LevelCurves))
  | [] => some []
  | row :: rest =>
      match replayRow config row with
      | none => none
      | some (config, curves) => (replayRows config rest).map (curves :: ·)

/-- `RunReplay`: what it builds for each snapshot. -/
def runReplay (rows : List SnapshotRow) : Option (List (Option LevelCurves)) :=
  replayRows {} rows

def curveValues (curves : DepthSideCurves) : List (ℚ × ℚ) × List (ℚ × ℚ) :=
  (curves.pOfQ.map (fun p => (p.qty.toRat, p.price.toRat)),
    curves.sOfQ.map (fun p => (p.qty.toRat, p.cumulativeCost.toRat)))

/-- The numbers of all curves of a snapshot. -/
def levelValues (curves : LevelCurves) (level : CurveLevel) (side : ExecutionSide) :
    List (ℚ × ℚ) × List (ℚ × ℚ) :=
  curveValues (curves level side)

/-- The levels of a snapshot can be read back exactly. -/
def ExactlyReadable (snapshot : VenueSnapshot) : Prop :=
  ReplaysDepth snapshot.bidPrices snapshot.bidQuantities ∧
    ReplaysDepth snapshot.askPrices snapshot.askQuantities

/-- A replay finds what was published for each snapshot that can be read back exactly, and as
much as it finds for the snapshot alone. -/
def RebuildsPublished (snapshots : List VenueSnapshot) : Prop :=
  ∀ results, runReplay (snapshots.map saveVenueSnapshot) = some results →
    ∀ before snapshot after, snapshots = before ++ snapshot :: after → ExactlyReadable snapshot →
      results[before.length]?.map (Option.map levelValues) =
          some ((publishedCurves snapshot).map levelValues) ∧
        runReplay [saveVenueSnapshot snapshot] = results[before.length]?.map ([·])

def SnapshotRow.HasDepth (row : SnapshotRow) : Prop :=
  ∃ bids asks, parseDepthJson row.bidDepthJson = some bids ∧
    parseDepthJson row.askDepthJson = some asks ∧ (bids ≠ [] ∨ asks ≠ [])

/-- A size has places that the replay keeps, and is read back exactly. -/
def SizeKept (size : Option Decimal) : Prop :=
  ∃ d ∈ size, 0 < d.units ∧ d.scale ≤ 8 ∧
    Double.zero.lt (savedNumber size) ∧ unitsAtEight (savedNumber size) = d.unitsAt 8

/-- A snapshot has its own size, or neither it nor a row before it has one. -/
def SizeFits (size : Option Decimal) (sizeOf : SnapshotRow → Double) (before : List SnapshotRow) :
    Prop :=
  SizeKept size ∨
    (∀ d ∈ size, d.units ≤ 0) ∧ ¬Double.zero.lt (savedNumber size) ∧
      ∀ row ∈ before, row.HasDepth → ¬Double.zero.lt (sizeOf row)

/-- The levels of a snapshot have eight places, as in the replay, and its tick and lot do not
come from an earlier one. -/
structure BookFits (before : List SnapshotRow) (snapshot : VenueSnapshot) : Prop where
  bidPrices : ∀ d ∈ snapshot.bidPrices, d.scale = 8
  bidQuantities : ∀ d ∈ snapshot.bidQuantities, d.scale = 8
  askPrices : ∀ d ∈ snapshot.askPrices, d.scale = 8
  askQuantities : ∀ d ∈ snapshot.askQuantities, d.scale = 8
  tick : SizeFits snapshot.tickSize SnapshotRow.tickSize before
  lot : SizeFits snapshot.lotSize SnapshotRow.lotSize before

def producerConfig (snapshot : VenueSnapshot) : DepthCanonicalizationConfig where
  tickSize := snapshot.tickSize.getD Decimal.zero
  lotSize := snapshot.lotSize.getD Decimal.zero

/-- Each side has one price, and the cost of all bids is nearest to it for their quantity. -/
structure OnePrices (snapshot : VenueSnapshot) : Prop where
  asks : OnePrice .ask (toBookLevels snapshot.askPrices snapshot.askQuantities)
    (producerConfig snapshot)
  bids : OnePrice .bid (toBookLevels snapshot.bidPrices snapshot.bidQuantities)
    (producerConfig snapshot)
  cost : let bids := toBookLevels snapshot.bidPrices snapshot.bidQuantities
    let grid := gridOf bids (producerConfig snapshot)
    ∀ level ∈ bids, grid.Admits .bid level → ∀ p q : Decimal, p.scale = 8 → q.scale = 8 →
      p.toRat = grid.price .bid level → q.toRat = grid.totalAt .bid bids p.toRat → NearCost p q

/-- What rows leave of a configuration. -/
structure CarriedOver (rows : List SnapshotRow) (config config' : DepthCanonicalizationConfig) :
    Prop where
  minQty : config'.minQty = config.minQty
  maxLevels : config'.maxLevelsPerSide = config.maxLevelsPerSide
  tick : (∀ row ∈ rows, row.HasDepth → ¬Double.zero.lt row.tickSize) →
    config'.tickSize = config.tickSize
  lot : (∀ row ∈ rows, row.HasDepth → ¬Double.zero.lt row.lotSize) →
    config'.lotSize = config.lotSize

section Rows

variable {config config' : DepthCanonicalizationConfig} {row : SnapshotRow}
  {before after : List SnapshotRow} {results : List (Option LevelCurves)}

theorem replayRow_config {curves : Option LevelCurves}
    (h : replayRow config row = some (config', curves)) :
    config' = config ∨ row.HasDepth ∧ config' = updateConfig config row := by
  unfold replayRow at h
  split at h
  · rename_i bids asks hbids hasks
    split_ifs at h with hempty
    · exact .inl (Prod.ext_iff.mp (Option.some.inj h)).1.symm
    · refine .inr ⟨⟨bids, asks, hbids, hasks, ?_⟩, (Prod.ext_iff.mp (Option.some.inj h)).1.symm⟩
      simp only [Bool.and_eq_true, List.isEmpty_iff, not_and_or] at hempty
      exact hempty
  · cases h

theorem CarriedOver.cons {config'' : DepthCanonicalizationConfig} {curves : Option LevelCurves}
    (hrow : replayRow config row = some (config', curves))
    (hrest : CarriedOver before config' config'') :
    CarriedOver (row :: before) config config'' := by
  rcases replayRow_config hrow with rfl | ⟨hdepth, rfl⟩
  · exact
      { minQty := hrest.minQty
        maxLevels := hrest.maxLevels
        tick := fun hnone => hrest.tick (forall_mem_cons.mp hnone).2
        lot := fun hnone => hrest.lot (forall_mem_cons.mp hnone).2 }
  · refine
      { minQty := hrest.minQty
        maxLevels := hrest.maxLevels
        tick := fun hnone => ?_
        lot := fun hnone => ?_ }
    · obtain ⟨hfirst, hothers⟩ := forall_mem_cons.mp hnone
      rw [hrest.tick hothers, updateConfig, if_neg (hfirst hdepth)]
    · obtain ⟨hfirst, hothers⟩ := forall_mem_cons.mp hnone
      rw [hrest.lot hothers, updateConfig, if_neg (hfirst hdepth)]

theorem replayRows_append (h : replayRows config (before ++ row :: after) = some results) :
    ∃ left config'' curves, CarriedOver before config left ∧
      replayRow left row = some (config'', curves) ∧ results[before.length]? = some curves := by
  induction before generalizing config results with
  | nil =>
      rw [nil_append, replayRows] at h
      cases hrow : replayRow config row with
      | none => simp [hrow] at h
      | some out =>
          obtain ⟨config'', curves⟩ := out
          rw [hrow] at h
          obtain ⟨rest, -, rfl⟩ := map_eq_some_iff.mp h
          exact ⟨config, config'', curves, ⟨rfl, rfl, fun _ => rfl, fun _ => rfl⟩, hrow, rfl⟩
  | cons first before ih =>
      rw [cons_append, replayRows] at h
      cases hrow : replayRow config first with
      | none => simp [hrow] at h
      | some out =>
          obtain ⟨next, curves⟩ := out
          rw [hrow] at h
          obtain ⟨rest, hrest, rfl⟩ := map_eq_some_iff.mp h
          obtain ⟨left, config'', found, hcarried, hfound, hget⟩ := ih hrest
          exact ⟨left, config'', found, hcarried.cons hrow, hfound, by simpa using hget⟩

end Rows

section Book

variable {before : List SnapshotRow} {snapshot : VenueSnapshot}
  {left : DepthCanonicalizationConfig} {size : Option Decimal}

theorem stepUnits_eight {d : Decimal} (hpos : 0 < d.units) (hle : d.scale ≤ 8)
    (hfits : Int64Fits (d.unitsAt 8)) : stepUnits d 8 = d.unitsAt 8 := by
  have hat : 0 < d.unitsAt 8 := mul_pos hpos (by positivity)
  unfold stepUnits
  rw [if_pos hpos, alignToScale_eq hpos hle (by norm_num), if_pos hfits, getD_some,
    max_eq_right hat.le]

theorem sameStep_kept (h : SizeKept size) :
    SameStep (sizeAtEight (savedNumber size)) (size.getD .zero) := by
  obtain ⟨d, hsome, hpos, hle, hread, hunits⟩ := h
  rw [mem_def] at hsome
  subst hsome
  have hfits := unitsAtEight_fits (savedNumber (some d))
  have hsize : (sizeAtEight (savedNumber (some d))).unitsAt 8 = unitsAtEight (savedNumber (some d)) :=
    Decimal.unitsAt_self _
  have hat : 0 < unitsAtEight (savedNumber (some d)) := by
    rw [hunits]
    exact mul_pos hpos (by positivity)
  exact
    { scale := fun _ => le_rfl
      scale' := fun _ => hle
      units := by
        rw [getD_some, stepUnits_eight hat le_rfl (hsize ▸ hfits),
          stepUnits_eight hpos hle (hunits ▸ hfits), hsize, hunits] }

theorem sameStep_of_fits {sizeOf : SnapshotRow → Double} (h : SizeFits size sizeOf before)
    {carried : Decimal}
    (hcarried : (∀ row ∈ before, row.HasDepth → ¬zero.lt (sizeOf row)) → carried = .zero) :
    SameStep
      (if zero.lt (savedNumber size) then sizeAtEight (savedNumber size) else carried)
      (size.getD .zero) := by
  rcases h with hkept | ⟨hnone, hread, hearlier⟩
  · obtain ⟨d, hsome, hrest⟩ := id hkept
    rw [if_pos hrest.2.2.1]
    exact sameStep_kept hkept
  · rw [if_neg hread, hcarried hearlier]
    have hunits : (size.getD .zero).units ≤ 0 := by
      cases size with
      | none => decide
      | some d => exact hnone d rfl
    have hstep : stepUnits (size.getD .zero) 8 = 0 := if_neg (not_lt.mpr hunits)
    exact
      { scale := fun hpos => absurd hpos (by decide)
        scale' := fun hpos => absurd hpos (not_lt.mpr hunits)
        units := hstep.symm }

theorem eq_of_toRat {a b : Decimal} (hscale : a.scale = b.scale) (h : a.toRat = b.toRat) :
    a = b := by
  have hpow : (10 : ℚ) ^ (-b.scale) ≠ 0 := by positivity
  rw [Decimal.toRat, Decimal.toRat, hscale, mul_left_inj' hpow, Int.cast_inj] at h
  exact Decimal.eq_of_units_of_scale h hscale

theorem makeBookLevels_eq {depth : List (Double × Double)} {levels : List (Decimal × Decimal)}
    (hprice : ∀ level ∈ levels, level.1.scale = 8) (hqty : ∀ level ∈ levels, level.2.scale = 8)
    (h : List.Forall₂
      (fun level written => level.price.toRat = written.1.toRat ∧ level.qty.toRat = written.2.toRat)
      (makeBookLevels depth) levels) :
    makeBookLevels depth = levels.map fun level => { price := level.1, qty := level.2 } := by
  induction levels generalizing depth with
  | nil => exact forall₂_nil_right_iff.mp h
  | cons level rest ih =>
      cases depth with
      | nil => cases h
      | cons pair depth =>
          obtain ⟨⟨hfirst, hsecond⟩, hrest⟩ := forall₂_cons.mp h
          obtain ⟨hscale, hprice⟩ := forall_mem_cons.mp hprice
          obtain ⟨hscale', hqty⟩ := forall_mem_cons.mp hqty
          have hhead := eq_of_toRat hscale.symm hfirst
          have hhead' := eq_of_toRat hscale'.symm hsecond
          rw [map_cons, ← ih hprice hqty hrest, ← hhead, ← hhead']
          rfl

theorem toBookLevels_eq (prices quantities : List Decimal) :
    toBookLevels prices quantities =
      ((prices.zip quantities).map fun level => BookLevel.mk level.1 level.2).filter
        isPositive := by
  rw [← filterMap_eq_filter, filterMap_map]
  refine filterMap_congr fun (price, qty) _ => ?_
  have hiff : isPositive { price, qty } = true ↔ ¬(price.units ≤ 0 ∨ qty.units ≤ 0) := by
    simp [isPositive]
  simp only [Function.comp, Option.guard, hiff, ite_not]

/-- One side of the book: the replay makes of the levels it reads what the producer makes of
those it keeps. -/
theorem side_eq (side : DepthBookSide) (config' : DepthCanonicalizationConfig)
    {config : DepthCanonicalizationConfig} {prices quantities : List Decimal}
    {depth : List (Double × Double)}
    (hparse : parseDepthJson (decimalArrayToJson prices quantities) = some depth)
    (hread : ReplaysDepth prices quantities) (hprices : ∀ d ∈ prices, d.scale = 8)
    (hquantities : ∀ d ∈ quantities, d.scale = 8)
    (htick : SameStep config.tickSize config'.tickSize)
    (hlot : SameStep config.lotSize config'.lotSize)
    (hmin : config.minQty = .zero) (hmin' : config'.minQty = .zero)
    (hmax : config.maxLevelsPerSide = config'.maxLevelsPerSide) :
    canonicalizeBookSide (makeBookLevels depth) side config =
      if (toBookLevels prices quantities).isEmpty then []
      else canonicalizeBookSide (toBookLevels prices quantities) side config' := by
  obtain ⟨depth', hparse', hsame⟩ := hread
  rw [hparse] at hparse'
  cases hparse'
  have hmade := makeBookLevels_eq (fun level h => hprices _ (of_mem_zip h).1)
    (fun level h => hquantities _ (of_mem_zip h).2) hsame
  rw [toBookLevels_eq, ← hmade]
  split_ifs with hempty
  · exact canonicalizeBookSide_of_none (List.isEmpty_iff.mp hempty)
  · refine canonicalizeBookSide_congr ?_ ?_ (List.isEmpty_iff.not.mp hempty) htick hlot hmin hmin'
      hmax
    · intro level h
      obtain ⟨_, -, rfl⟩ := mem_map.mp h
      rfl
    · intro level h
      obtain ⟨_, -, rfl⟩ := mem_map.mp h
      rfl

theorem toBookLevels_of_empty {prices quantities : List Decimal}
    (hparse : parseDepthJson (decimalArrayToJson prices quantities) = some [])
    (hread : ReplaysDepth prices quantities) : toBookLevels prices quantities = [] := by
  obtain ⟨depth, hparse', hsame⟩ := hread
  rw [hparse] at hparse'
  cases hparse'
  have hzip : prices.zip quantities = [] := forall₂_nil_left_iff.mp hsame
  rw [toBookLevels, hzip]
  rfl

theorem replayRow_eq {config' : DepthCanonicalizationConfig} {curves : Option LevelCurves}
    (hfits : BookFits before snapshot) (hexact : ExactlyReadable snapshot)
    (hleft : CarriedOver before {} left)
    (h : replayRow left (saveVenueSnapshot snapshot) = some (config', curves)) :
    curves = (producerBook snapshot).map replayedCurves := by
  unfold replayRow at h
  split at h
  · rename_i bids asks hbids hasks
    have htick : SameStep (updateConfig left (saveVenueSnapshot snapshot)).tickSize
        (producerConfig snapshot).tickSize := sameStep_of_fits hfits.tick hleft.tick
    have hlot : SameStep (updateConfig left (saveVenueSnapshot snapshot)).lotSize
        (producerConfig snapshot).lotSize := sameStep_of_fits hfits.lot hleft.lot
    have hbidSide := side_eq .bid (producerConfig snapshot) hbids hexact.1 hfits.bidPrices
      hfits.bidQuantities htick hlot hleft.minQty rfl hleft.maxLevels
    have haskSide := side_eq .ask (producerConfig snapshot) hasks hexact.2 hfits.askPrices
      hfits.askQuantities htick hlot hleft.minQty rfl hleft.maxLevels
    split_ifs at h with hempty
    · obtain ⟨rfl, rfl⟩ : bids = [] ∧ asks = [] := by simpa using hempty
      have hnone : producerBook snapshot = none := by
        unfold producerBook
        rw [toBookLevels_of_empty hbids hexact.1]
        rfl
      rw [hnone]
      exact (Prod.ext_iff.mp (Option.some.inj h)).2.symm
    · have hcurves := (Prod.ext_iff.mp (Option.some.inj h)).2
      dsimp only at hcurves
      rw [← hcurves]
      unfold canonicalizeOrderBook producerBook
      rw [hbidSide, haskSide]
      by_cases hb : (toBookLevels snapshot.bidPrices snapshot.bidQuantities).isEmpty
      · simp [hb, CanonicalOrderBook.isEmpty]
      by_cases ha : (toBookLevels snapshot.askPrices snapshot.askQuantities).isEmpty
      · simp [ha, CanonicalOrderBook.isEmpty]
      simp only [hb, ha, if_false, Bool.or_self, Bool.false_eq_true]
      unfold canonicalizeOrderBook producerConfig
      split_ifs <;> rfl
  · cases h

end Book

section Curves

variable {book : CanonicalOrderBook} {side : ExecutionSide}

theorem qOfP_addLevels (side : ExecutionSide) (price qty cost : Decimal) (level : BookLevel)
    (rest : List BookLevel) : (addLevels side price qty cost (level :: rest)).qOfP ≠ [] := by
  simp [addLevels]

theorem empty_buildDepthSideCurves (h : book.isEmpty = false) :
    (buildDepthSideCurves book side).empty = false := by
  have hsides : ∀ levels : List BookLevel, levels ≠ [] →
      (buildDepthSideCurvesImpl levels side).empty = false := by
    intro levels hne
    cases levels with
    | nil => exact absurd rfl hne
    | cons level rest =>
        exact isEmpty_eq_false_iff.mpr (qOfP_addLevels side _ _ _ level rest)
  simp only [CanonicalOrderBook.isEmpty, Bool.or_eq_false_iff, isEmpty_eq_false_iff] at h
  cases side with
  | buy => exact hsides _ h.2
  | sell => exact hsides _ h.1

theorem isEmpty_producerBook {snapshot : VenueSnapshot} (h : producerBook snapshot = some book) :
    book.isEmpty = false := by
  unfold producerBook at h
  dsimp only at h
  split_ifs at h with hsides hempty
  cases h
  simpa using hempty

theorem sides_producerBook {snapshot : VenueSnapshot} (h : producerBook snapshot = some book) :
    book.bids = canonicalizeBookSide (toBookLevels snapshot.bidPrices snapshot.bidQuantities) .bid
        (producerConfig snapshot) ∧
      book.asks = canonicalizeBookSide (toBookLevels snapshot.askPrices snapshot.askQuantities) .ask
        (producerConfig snapshot) := by
  unfold producerBook at h
  dsimp only at h
  split_ifs at h
  cases h
  exact ⟨rfl, rfl⟩

theorem publishedCurves_eq (snapshot : VenueSnapshot) :
    publishedCurves snapshot = (producerBook snapshot).map fun book level side =>
      buildLevel (buildDepthSideCurves book side) level := by
  unfold publishedCurves
  cases hbook : producerBook snapshot with
  | none => rfl
  | some book =>
      have hempty := isEmpty_producerBook hbook
      simp [empty_buildDepthSideCurves hempty]

/-- At the first level the replay builds what the producer builds, and at the others where the
stage that it leaves out changes nothing. -/
theorem replayed_eq (h : book.isEmpty = false)
    (hsame : ∀ side, curveValues (applyL2Pipeline (buildDepthSideCurves book side)) =
      curveValues (applyMoreauRegularizationL2
        (applyConvexifiedCostLayer (buildDepthSideCurves book side)))) :
    levelValues (replayedCurves book) =
      levelValues (fun level side => buildLevel (buildDepthSideCurves book side) level) := by
  have hl2 : ∀ side, buildL2 book side = applyMoreauRegularizationL2
      (applyConvexifiedCostLayer (buildDepthSideCurves book side)) := by
    intro side
    unfold buildL2
    simp [empty_buildDepthSideCurves h]
  have hl3 : ∀ side, buildL3 book side = buildL2 book side := by
    intro side
    unfold buildL3 applyFenchelLegendreLayer
    simp
  funext level side
  cases level with
  | l1 => rfl
  | l2 => exact (congrArg curveValues (hl2 side)).trans (hsame side).symm
  | l3 => exact (congrArg curveValues ((hl3 side).trans (hl2 side))).trans (hsame side).symm

theorem curveValues_of_onePriced {p q : Decimal} {curves : DepthSideCurves}
    (h : OnePriced p q curves) : curveValues curves =
      ([(0, p.toRat), (q.toRat, p.toRat)], [(0, 0), (q.toRat, (Decimal.mul p q).toRat)]) := by
  obtain ⟨start, finish, hsOfQ, hstart, hfinish⟩ := h.sOfQ
  unfold curveValues
  simp only [h.pOfQ, hsOfQ, twoPoints, map_cons, map_nil, Decimal.toRat_zeroAt, hstart.value,
    hfinish.value]

theorem sizes_places {size : Option Decimal} {sizeOf : SnapshotRow → Double}
    {before : List SnapshotRow} (h : SizeFits size sizeOf before) :
    0 < (size.getD Decimal.zero).units → (size.getD Decimal.zero).scale ≤ 8 := by
  intro hpos
  rcases h with ⟨d, hsome, -, hle, -⟩ | ⟨hnone, -⟩
  · rw [hsome]
    exact hle
  · cases size with
    | none => exact absurd hpos (by decide)
    | some d => exact absurd hpos (not_lt.mpr (hnone d rfl))

theorem scale_toBookLevels {prices quantities : List Decimal} (hprices : ∀ d ∈ prices, d.scale = 8)
    (hquantities : ∀ d ∈ quantities, d.scale = 8) :
    (∀ level ∈ toBookLevels prices quantities, level.price.scale = 8) ∧
      ∀ level ∈ toBookLevels prices quantities, level.qty.scale = 8 := by
  rw [← forall₂_and]
  intro level hlevel
  obtain ⟨⟨price, qty⟩, hmem, hsome⟩ := mem_filterMap.mp hlevel
  dsimp only at hsome
  split_ifs at hsome
  cases hsome
  exact ⟨hprices _ (of_mem_zip hmem).1, hquantities _ (of_mem_zip hmem).2⟩

/-- The only bid of a book. -/
theorem bid_of_onePrices {snapshot : VenueSnapshot} {before : List SnapshotRow}
    (hfits : BookFits before snapshot) (hone : OnePrices snapshot) {level : BookLevel}
    (hbook : canonicalizeBookSide (toBookLevels snapshot.bidPrices snapshot.bidQuantities) .bid
      (producerConfig snapshot) = [level]) : Bid level.price level.qty := by
  have hnormal := normalForm hone.bids.fits
  rw [hbook] at hnormal
  have hmem : level ∈ [level] := mem_singleton_self level
  obtain ⟨source, hsource, hadmits, hprice⟩ := hnormal.sources level hmem
  obtain ⟨hprices, hquantities⟩ := scale_toBookLevels hfits.bidPrices hfits.bidQuantities
  have hne : toBookLevels snapshot.bidPrices snapshot.bidQuantities ≠ [] := ne_nil_of_mem hsource
  have hscales : level.price.scale = 8 ∧ level.qty.scale = 8 := by
    have hlevel : level ∈ canonicalizeBookSide
        (toBookLevels snapshot.bidPrices snapshot.bidQuantities) .bid (producerConfig snapshot) :=
      hbook ▸ hmem
    obtain ⟨_, -, rfl⟩ := mem_map.mp hlevel
    exact ⟨detectPriceScale_eight hprices hne (sizes_places hfits.tick),
      detectQtyScale_eight hquantities hne (sizes_places hfits.lot) rfl⟩
  exact
    { priceScale := hscales.1
      qtyScale := hscales.2
      price := Decimal.units_pos_of_toRat (hnormal.prices level hmem).1
      qty := Decimal.units_pos_of_toRat (hnormal.quantities level hmem).1
      near := hone.cost source hsource hadmits _ _ hscales.1 hscales.2 hprice.symm
        (hnormal.totals level hmem) }

/-- The stage that the replay leaves out changes nothing where each side has one price. -/
theorem onePrices_same {snapshot : VenueSnapshot} {before : List SnapshotRow}
    (hfits : BookFits before snapshot) (hone : OnePrices snapshot)
    (hbook : producerBook snapshot = some book) (side : ExecutionSide) :
    curveValues (applyL2Pipeline (buildDepthSideCurves book side)) =
      curveValues (applyMoreauRegularizationL2
        (applyConvexifiedCostLayer (buildDepthSideCurves book side))) := by
  have hempty := isEmpty_producerBook hbook
  simp only [CanonicalOrderBook.isEmpty, Bool.or_eq_false_iff, isEmpty_eq_false_iff] at hempty
  obtain ⟨hbids, hasks⟩ := sides_producerBook hbook
  rw [hbids, hasks] at hempty
  unfold applyL2Pipeline applyFenchelLegendreLayer
  cases side with
  | buy =>
      obtain ⟨level, hlevel⟩ := hone.asks.book hempty.2
      have hbuild : buildDepthSideCurves book .buy = buildDepthSideCurvesImpl [level] .buy :=
        congrArg (buildDepthSideCurvesImpl · .buy) (hasks.trans hlevel)
      rw [hbuild]
      have hshort : (buildDepthSideCurvesImpl [level] .buy).sOfQ.length < 3 := by
        simp [buildDepthSideCurvesImpl, addLevels]
      exact congrArg curveValues (buy_unchanged rfl hshort)
  | sell =>
      obtain ⟨level, hlevel⟩ := hone.bids.book hempty.1
      have hbuild : buildDepthSideCurves book .sell = buildDepthSideCurvesImpl [level] .sell :=
        congrArg (buildDepthSideCurvesImpl · .sell) (hbids.trans hlevel)
      rw [hbuild]
      obtain ⟨hmoreau, htikhonov⟩ := sell_onePriced (bid_of_onePrices hfits hone hlevel)
      exact (curveValues_of_onePriced htikhonov).trans (curveValues_of_onePriced hmoreau).symm

end Curves

section Runs

variable {before : List SnapshotRow} {snapshot : VenueSnapshot}

theorem BookFits.alone (h : BookFits before snapshot) : BookFits [] snapshot := by
  have hsize : ∀ {size : Option Decimal} {sizeOf : SnapshotRow → Double},
      SizeFits size sizeOf before → SizeFits size sizeOf [] := by
    rintro size sizeOf (hkept | ⟨hnone, hread, -⟩)
    · exact .inl hkept
    · exact .inr ⟨hnone, hread, fun _ hrow => absurd hrow not_mem_nil⟩
  exact { h with tick := hsize h.tick, lot := hsize h.lot }

theorem replayRow_of_some {config : DepthCanonicalizationConfig} {row : SnapshotRow}
    {out : DepthCanonicalizationConfig × Option LevelCurves} (h : replayRow config row = some out)
    (config' : DepthCanonicalizationConfig) : ∃ out', replayRow config' row = some out' := by
  unfold replayRow at h ⊢
  split at h
  · split_ifs with hempty
    · exact ⟨_, rfl⟩
    · exact ⟨_, rfl⟩
  · cases h

theorem results_of_fits {snapshots after : List VenueSnapshot} {earlier : List VenueSnapshot}
    {results : List (Option LevelCurves)}
    (h : runReplay (snapshots.map saveVenueSnapshot) = some results)
    (hsplit : snapshots = earlier ++ snapshot :: after)
    (hfits : BookFits (earlier.map saveVenueSnapshot) snapshot)
    (hexact : ExactlyReadable snapshot) :
    results[earlier.length]? = some ((producerBook snapshot).map replayedCurves) ∧
      runReplay [saveVenueSnapshot snapshot] =
        some [(producerBook snapshot).map replayedCurves] := by
  rw [hsplit, map_append, map_cons] at h
  obtain ⟨left, next, curves, hcarried, hrow, hget⟩ := replayRows_append h
  have hcurves := replayRow_eq hfits hexact hcarried hrow
  obtain ⟨⟨next', curves'⟩, halone⟩ := replayRow_of_some hrow {}
  have hfresh : CarriedOver [] {} {} := ⟨rfl, rfl, fun _ => rfl, fun _ => rfl⟩
  have hcurves' := replayRow_eq hfits.alone hexact hfresh halone
  rw [length_map] at hget
  refine ⟨hcurves ▸ hget, ?_⟩
  unfold runReplay replayRows
  rw [halone, hcurves']
  rfl

end Runs

/-- A snapshot of one bid and some asks, of one unit each, without a tick or a lot. -/
def oneBid (asks : List Decimal) : VenueSnapshot where
  bidPrices := [Decimal.of 9550000000 8]
  bidQuantities := [Decimal.of 100000000 8]
  askPrices := asks
  askQuantities := asks.map fun _ => Decimal.of 100000000 8

def sizedSnapshot : VenueSnapshot :=
  { oneBid [Decimal.of 10450000000 8] with
    tickSize := some (Decimal.of 5 1)
    lotSize := some (Decimal.of 1 2) }

theorem readable_oneBid :
    ExactlyReadable (oneBid [.of 10450000000 8]) ∧
      ExactlyReadable (oneBid [.of 10000000000 8, .of 20000000000 8]) := by
  refine ⟨⟨⟨[(.num (191 / 2), .num 1)], ?_⟩, ⟨[(.num (209 / 2), .num 1)], ?_⟩⟩,
    ⟨⟨[(.num (191 / 2), .num 1)], ?_⟩, ⟨[(.num 100, .num 1), (.num 200, .num 1)], ?_⟩⟩⟩ <;>
  decide +kernel

theorem sizedSnapshot_fits (before : List SnapshotRow) : BookFits before sizedSnapshot := by
  constructor
  · decide
  · decide
  · decide
  · decide
  · exact .inl ⟨.of 5 1, rfl, by decide +kernel⟩
  · exact .inl ⟨.of 1 2, rfl, by decide +kernel⟩

theorem sizedSnapshot_onePrices : OnePrices sizedSnapshot := by
  refine ⟨⟨⟨by decide +kernel, by decide +kernel⟩, by decide +kernel⟩,
    ⟨⟨by decide +kernel, by decide +kernel⟩, by decide +kernel⟩, ?_⟩
  intro _ _ level hlevel _ p q hp hq hprice hqty
  obtain rfl : level = { price := .of 9550000000 8, qty := .of 100000000 8 } :=
    mem_singleton.mp hlevel
  obtain rfl : p = .of 9550000000 8 := eq_of_toRat hp (hprice.trans (by decide +kernel))
  obtain rfl : q = .of 100000000 8 := eq_of_toRat hq (hqty.trans (by decide +kernel))
  unfold NearCost
  decide +kernel

theorem not_rebuilds {snapshots after : List VenueSnapshot} {snapshot : VenueSnapshot}
    (before : List VenueSnapshot)
    (hsplit : snapshots = before ++ snapshot :: after) (hexact : ExactlyReadable snapshot)
    (level : CurveLevel) (side : ExecutionSide)
    (hsome : (runReplay (snapshots.map saveVenueSnapshot)).isSome)
    (hne : ((runReplay (snapshots.map saveVenueSnapshot)).bind (·[before.length]?)).map
        (Option.map fun curves => levelValues curves level side) ≠
      some ((publishedCurves snapshot).map fun curves => levelValues curves level side)) :
    ¬RebuildsPublished snapshots := by
  intro h
  obtain ⟨results, hresults⟩ := isSome_iff_exists.mp hsome
  have hfound := (h results hresults before snapshot after hsplit hexact).1
  have hcurve := congrArg (Option.map (Option.map fun values => values level side)) hfound
  rw [Option.map_map, map_some, Option.map_map] at hcurve
  have hparts : (Option.map fun curves => levelValues curves level side) =
      (Option.map fun values => values level side) ∘ Option.map levelValues := by
    funext curves
    cases curves <;> rfl
  apply hne
  rw [hresults, bind_some]
  rw [← hparts] at hcurve
  exact hcurve

/-- A bid and an ask with the places that a venue gives. -/
def plainSnapshot : VenueSnapshot where
  bidPrices := [Decimal.of 955 1]
  bidQuantities := [Decimal.of 1 0]
  askPrices := [Decimal.of 10401 2]
  askQuantities := [Decimal.of 1 0]

theorem readable_plainSnapshot : ExactlyReadable plainSnapshot := by
  refine ⟨⟨[(.num (191 / 2), .num 1)], ?_⟩,
    ⟨[(.num (7319053081918833 / 2 ^ 46), .num 1)], ?_⟩⟩ <;>
  decide +kernel

end Backtest
end ContExchange
