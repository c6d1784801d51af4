import ContExchange.Matching.Capping

/-!
# Matching: the filled volume of an order after a batch

An executed batch writes the filled volume of an order in three places: the
active order takes the total that the solver reports, the published batch
carries the fills, and the row of the database grows by the fill delta.

`volumes_agree_iff` says when the three are the same for an order that stays
active: when the solver's result for the order is consistent and fits what
remains of it (`ReportsFills`).  The delta is the plain sum of the fills of all
legs, so a multi-leg order, whose unit volume is the largest of its legs', is
where they part (`two_leg_volumes_differ`).
-/

namespace ContExchange
namespace Matching

open Common Lib Decimal List

/-- The volume in order units that fills of one leg make up. -/
def legUnitVolume (fills : List FlowFill) (leg : FlowOrderLeg) : ℚ :=
  executedTotal (fills.filter (fun f => f.instrument.symbol = leg.instrumentSymbol)) /
    |leg.weight.toRat|

/-- The volume in order units that fills of an order make up, as the solver
counts it: the largest volume of a leg. -/
def unitVolume (o : FlowOrder) (fills : List FlowFill) : ℚ :=
  (o.legs.map (legUnitVolume fills)).foldr max 0

/-- Two statuses that are the same as far as fills go. -/
def SameFillStatus (s t : FlowOrderStatus) : Prop :=
  (s = .filled ↔ t = .filled) ∧ (s = .partiallyFilled ↔ t = .partiallyFilled)
deriving Decidable

/-- The row holds the volumes and the status of the order. -/
structure FlowOrderRow.Stores (row : FlowOrderRow) (o : FlowOrder) : Prop where
  qMax : row.qMax = toPgNumeric o.qMax
  filledCum : row.filledCum = toPgNumeric o.filledCum
  status : SameFillStatus row.status o.status

/-- The filled volume of an order before a batch is `o`, after it `o'`; the
published fills and the row after the batch say the same. -/
structure VolumesAgree
    (o o' : FlowOrder) (published : List FlowFill) (row' : FlowOrderRow) : Prop where
  published :
    o'.filledCum.toRat = o.filledCum.toRat + unitVolume o (fillsOf o.orderId published)
  persisted : o'.filledCum.toRat = row'.filledCum.toRat
  status : SameFillStatus o'.status row'.status

def reportedTotal (o : FlowOrder) (updates : List OrderStateUpdate) : Decimal :=
  (((updatesOf o.orderId updates).filterMap OrderStateUpdate.filledQtyTotal).getLast?).getD
    o.filledCum

/-- The status that the updates of an order leave it in. -/
def reportedStatus (o : FlowOrder) (updates : List OrderStateUpdate) : FlowOrderStatus :=
  ((updatesOf o.orderId updates).map OrderStateUpdate.status).foldl updatedStatus o.status

/-- The solver's result is consistent for an order: its fills fit what remains
of the order, they make up the same volume in order units as in total, the
reported total counts them, and the reported status says whether there are any. -/
structure ReportsFills (o : FlowOrder) (result : BatchResult) : Prop where
  fits :
    executedTotal (fillsOf o.orderId result.fills) ≤ o.qMax.toRat - o.filledCum.toRat
  units :
    unitVolume o (fillsOf o.orderId result.fills) =
      executedTotal (fillsOf o.orderId result.fills)
  total :
    (reportedTotal o result.orderUpdates).toRat =
      o.filledCum.toRat + executedTotal (fillsOf o.orderId result.fills)
  status :
    SameFillStatus (reportedStatus o result.orderUpdates)
      (if 0 < executedTotal (fillsOf o.orderId result.fills) then .partiallyFilled
        else o.status)

section Updates

variable {active : ActiveOrders} {o o' : FlowOrder}

theorem foldl_update (us : List OrderStateUpdate) (o : FlowOrder) :
    us.foldl FlowOrder.update o =
      { o with
        filledCum :=
          ((us.filterMap OrderStateUpdate.filledQtyTotal).getLast?).getD o.filledCum
        status := (us.map OrderStateUpdate.status).foldl updatedStatus o.status } := by
  induction us generalizing o with
  | nil => rfl
  | cons u us ih =>
      rw [foldl_cons, ih]
      cases htotal : u.filledQtyTotal with
      | none => simp [FlowOrder.update, htotal]
      | some total => simp [FlowOrder.update, htotal, getLast?_cons]

theorem lookup_applyOrderUpdates {updates : List OrderStateUpdate}
    (h : active.lookup o.orderId = some o)
    (h' : (applyOrderUpdates updates active).lookup o.orderId = some o') :
    o' = { o with
           filledCum := reportedTotal o updates
           status := reportedStatus o updates } ∧
      hasRemaining o' = true := by
  unfold applyOrderUpdates at h'
  rw [Table.lookup_filter, Option.filter_eq_some_iff] at h'
  refine ⟨?_, h'.2⟩
  rw [lookup_foldl_updates h h'.1, foldl_update]
  rfl

theorem not_hasRemaining_of_eq (hq : Decimal.ScaleOk o.qMax) (hf : Decimal.ScaleOk o.filledCum)
    (h : o.filledCum.toRat = o.qMax.toRat) : hasRemaining o = false := by
  have hexact : Decimal.SubExact o.qMax o.filledCum := by
    have hzero : |o.qMax.toRat - o.filledCum.toRat| ≤ Decimal.limit 18 := by
      rw [h, sub_self, abs_zero]
      exact limit_nonneg 18
    exact subExact_of_limit hq hf hzero
  have hval : (Decimal.sub o.qMax o.filledCum).toRat = 0 := by
    rw [sub_toRat hexact, h, sub_self]
  have hrem : o.remainingQty = Decimal.sub o.qMax o.filledCum := by
    unfold FlowOrder.remainingQty
    apply if_neg
    rw [cmp_zeroAt_neg_iff, hval]
    exact lt_irrefl 0
  have hcmp : ¬ 0 < Decimal.cmp o.remainingQty (.of 1 6) := by
    rw [hrem, cmp_pos_iff (sub_scaleOk hexact hq hf) (by decide), hval]
    decide +kernel
  exact decide_eq_false hcmp

end Updates

section Agreement

variable {o o' : FlowOrder} {result : BatchResult}

theorem unitVolume_backfill
    (externalLiquidity : ExternalLiquidityBySymbol) (o : FlowOrder) (fills : List FlowFill) :
    unitVolume o (fills.map (backfillFillProvenance externalLiquidity)) = unitVolume o fills := by
  have hleg : legUnitVolume (fills.map (backfillFillProvenance externalLiquidity)) =
      legUnitVolume fills := by
    funext leg
    unfold legUnitVolume
    rw [filter_map, executedTotal_backfill]
    rfl
  unfold unitVolume
  rw [hleg]

theorem execute_of_executed
    {solver : List FlowOrder → Option BatchResult} {publish : BatchResult → Bool}
    {batchId : String} {externalLiquidity : ExternalLiquidityBySymbol} {active : ActiveOrders}
    (hsolve : solver (snapshotActiveOrders active) = some result)
    (hexec : (execute solver publish batchId externalLiquidity active).1.status = .executed) :
    let batch := publishedBatch batchId externalLiquidity (snapshotActiveOrders active) result
    (execute solver publish batchId externalLiquidity active).1.batch = batch ∧
      (execute solver publish batchId externalLiquidity active).1.fillDeltas =
        fillDeltas batch.fills ∧
      (execute solver publish batchId externalLiquidity active).2 =
        applyOrderUpdates result.orderUpdates active := by
  unfold execute at hexec ⊢
  dsimp only at hexec ⊢
  split at hexec
  · cases hexec
  · rename_i hempty
    rw [hsolve] at hexec ⊢
    dsimp only at hexec ⊢
    rw [if_neg hempty]
    split at hexec
    · cases hexec
    · rename_i hpublish
      rw [if_neg hpublish]
      exact ⟨rfl, rfl, rfl⟩

section Stored

variable {row row' : FlowOrderRow} {published : List FlowFill}
  (hexact : FillsExact o (fillsOf o.orderId result.fills)) (htotals : Decimal.ScaleOk o'.filledCum)
  (hq : o'.qMax = o.qMax) (hremaining : hasRemaining o' = true)
  (hrowq : row.qMax.toRat = o.qMax.toRat) (hrowf : row.filledCum.toRat = o.filledCum.toRat)
  (hfilled : executedTotal published = 0 ∧ row' = row ∨
    0 < executedTotal published ∧ row.Filled (executedTotal published) row')

include hexact htotals hq hremaining hrowq hrowf hfilled

/-- The fills of an order that stays active and whose volumes agree were not
capped: a capped order would be full in the database. -/
theorem fits_of_persisted
    (hpublished : executedTotal published =
      min (executedTotal (fillsOf o.orderId result.fills)) (o.qMax.toRat - o.filledCum.toRat))
    (hagree : o'.filledCum.toRat = row'.filledCum.toRat) :
    executedTotal (fillsOf o.orderId result.fills) ≤ o.qMax.toRat - o.filledCum.toRat := by
  by_contra hover
  rw [min_eq_right (not_le.mp hover).le] at hpublished
  have hfull : o'.filledCum.toRat = o'.qMax.toRat := by
    rw [hagree, hq]
    rcases hfilled with ⟨hzero, rfl⟩ | ⟨-, hfill⟩
    · rw [hrowf]
      linarith
    · rw [hfill.filledCum, hrowq, hrowf, hpublished]
      simp
  have hscale : Decimal.ScaleOk o'.qMax := by
    rw [hq]
    exact hexact.qMax
  rw [not_hasRemaining_of_eq hscale htotals hfull] at hremaining
  cases hremaining

/-- Fills within the remaining size are stored as they are, and an order that
stays active is not full in the database. -/
theorem stored_of_fits (hstores : row.Stores o)
    (hpublished : executedTotal published = executedTotal (fillsOf o.orderId result.fills))
    (hfits : executedTotal (fillsOf o.orderId result.fills) ≤ o.qMax.toRat - o.filledCum.toRat) :
    row'.filledCum.toRat =
        o.filledCum.toRat + executedTotal (fillsOf o.orderId result.fills) ∧
      (o'.filledCum.toRat = row'.filledCum.toRat →
        SameFillStatus row'.status
          (if 0 < executedTotal (fillsOf o.orderId result.fills) then .partiallyFilled
            else o.status)) := by
  rw [hpublished] at hfilled
  constructor
  · rcases hfilled with ⟨hzero, rfl⟩ | ⟨-, hfill⟩
    · rw [hzero, hrowf, add_zero]
    · rw [hfill.filledCum, hrowf, hrowq, min_eq_left (by linarith)]
  · intro hagree
    rcases hfilled with ⟨hzero, rfl⟩ | ⟨hpos, hfill⟩
    · rw [hzero, if_neg (lt_irrefl 0)]
      exact hstores.status
    · have hnotfull : ¬ row.qMax.toRat ≤ row.filledCum.toRat +
          executedTotal (fillsOf o.orderId result.fills) := by
        intro hfull
        have hval := hfill.filledCum
        rw [min_eq_right hfull, hrowq, ← hagree, ← hq] at hval
        have hscale : Decimal.ScaleOk o'.qMax := by
          rw [hq]
          exact hexact.qMax
        rw [not_hasRemaining_of_eq hscale htotals hval] at hremaining
        cases hremaining
      rw [hfill.status, if_neg hnotfull, if_pos hpos]
      exact ⟨Iff.rfl, Iff.rfl⟩

end Stored

/-- For an order that stays active after an executed batch that rounds none of its sums, the
active order, the published fills and the row of the database agree on the filled volume
exactly when the solver's result for the order is consistent. -/
theorem volumes_agree_iff
    {solver : List FlowOrder → Option BatchResult} {publish : BatchResult → Bool}
    {batchId : String} {externalLiquidity : ExternalLiquidityBySymbol} {active : ActiveOrders}
    {rows rows' : FlowOrderRows} {row row' : FlowOrderRow}
    (hkeyed : KeyedById active)
    (hactive : active.lookup o.orderId = some o)
    (hsolve : solver (snapshotActiveOrders active) = some result)
    (hexec : (execute solver publish batchId externalLiquidity active).1.status = .executed)
    (hstays : (execute solver publish batchId externalLiquidity active).2.lookup o.orderId =
      some o')
    (hrow : rows.lookup o.orderId = some row)
    (hstores : row.Stores o)
    (hupdate : updateFilledVolumes
      (execute solver publish batchId externalLiquidity active).1.fillDeltas rows = some rows')
    (hrow' : rows'.lookup o.orderId = some row')
    (hexact : FillsExact o (fillsOf o.orderId result.fills))
    (htotals : Decimal.ScaleOk (reportedTotal o result.orderUpdates)) :
    VolumesAgree o o'
        (execute solver publish batchId externalLiquidity active).1.batch.fills row' ↔
      ReportsFills o result := by
  obtain ⟨hbatch, hdeltas, hafter⟩ := execute_of_executed hsolve hexec
  rw [hdeltas] at hupdate
  rw [hbatch]
  rw [hafter] at hstays
  obtain ⟨ho', hremaining⟩ := lookup_applyOrderUpdates hactive hstays
  obtain ⟨⟨hok, hpublished, hsums, hstored⟩, hsame⟩ :=
    publishedFills_spec batchId externalLiquidity hkeyed hactive hexact
  generalize publishedBatch batchId externalLiquidity (snapshotActiveOrders active) result =
    batch at *
  -- the row before the batch holds the volumes of the order
  have hrowq : row.qMax.toRat = o.qMax.toRat := by
    rw [hstores.qMax]
    exact toPgNumeric_toRat hexact.qMax
  have hrowf : row.filledCum.toRat = o.filledCum.toRat := by
    rw [hstores.filledCum]
    exact toPgNumeric_toRat hexact.filledCum
  obtain ⟨qMax, hqparse, -, -⟩ := parsePgNumeric_toPgNumeric le_rfl hexact.qMax
  obtain ⟨filledCum, hfparse, -, -⟩ := parsePgNumeric_toPgNumeric le_rfl hexact.filledCum
  obtain ⟨row'', hlookup, hfilled⟩ := persistedRow_spec hupdate hrow
    (by rw [hstores.qMax]; exact hqparse) (by rw [hstores.filledCum]; exact hfparse) hok hsums
    (by rw [hrowf]; exact hstored)
  rw [hrow'] at hlookup
  cases hlookup
  have hq' : o'.qMax = o.qMax := by rw [ho']
  have hf' : o'.filledCum = reportedTotal o result.orderUpdates := by rw [ho']
  have hs' : o'.status = reportedStatus o result.orderUpdates := by rw [ho']
  rw [← hf'] at htotals
  -- without a cap the row grows by the fills, and the order is not full
  have huncapped := fun hfits : executedTotal (fillsOf o.orderId result.fills) ≤
      o.qMax.toRat - o.filledCum.toRat =>
    stored_of_fits hexact htotals hq' hremaining hrowq hrowf hfilled hstores
      (hpublished.trans (min_eq_left hfits)) hfits
  have hunits : executedTotal (fillsOf o.orderId result.fills) ≤
      o.qMax.toRat - o.filledCum.toRat →
      unitVolume o (fillsOf o.orderId batch.fills) =
        unitVolume o (fillsOf o.orderId result.fills) := by
    intro hfits
    rw [hsame hfits, unitVolume_backfill]
  constructor
  · intro hagree
    have hfits := fits_of_persisted hexact htotals hq' hremaining hrowq hrowf hfilled hpublished
      hagree.persisted
    have hunit := hunits hfits
    obtain ⟨hvolume, hstatus⟩ := huncapped hfits
    have hstatus' := hstatus hagree.persisted
    have hpersisted := hagree.persisted
    have hpub := hagree.published
    refine ⟨hfits, ?_, ?_, ?_⟩
    · rw [← hunit]
      linarith
    · rw [← hf']
      linarith
    · rw [← hs']
      exact ⟨hagree.status.1.trans hstatus'.1, hagree.status.2.trans hstatus'.2⟩
  · intro hreports
    have hunit := hunits hreports.fits
    obtain ⟨hvolume, hstatus⟩ := huncapped hreports.fits
    have htotal := hreports.total
    rw [← hf'] at htotal
    have hpersisted : o'.filledCum.toRat = row'.filledCum.toRat := by linarith
    have hstatus' := hstatus hpersisted
    have hsame' := hreports.status
    rw [← hs'] at hsame'
    refine ⟨?_, hpersisted, ?_⟩
    · rw [hunit, hreports.units, htotal]
    · exact ⟨hsame'.1.trans hstatus'.1.symm, hsame'.2.trans hstatus'.2.symm⟩

end Agreement

/-- A batch of the solver over some active orders, at the default interval. -/
def solverBatch (active : ActiveOrders) : RunBatchResult × ActiveOrders :=
  execute (fun orders => some (solve { orders })) (fun _ => true) "b1" ∅ active

def storedRow (o : FlowOrder) : FlowOrderRow :=
  { userId := o.userId
    pLow := toPgNumeric o.pLow
    pHigh := toPgNumeric o.pHigh
    qRate := toPgNumeric o.qRate
    qMax := toPgNumeric o.qMax
    filledCum := toPgNumeric o.filledCum
    timeInForce := o.timeInForce
    status := o.status
    windowStart := 0
    windowEnd := none
    legs := o.legs.map (fun leg => ⟨leg.instrumentSymbol, toPgNumeric leg.weight⟩) }

/-- An order that buys both of its legs, of size ten. -/
def basketOrder : FlowOrder :=
  { orderId := "o1"
    userId := "u1"
    legs := [⟨"BTC/USDT", Decimal.of 1 0⟩, ⟨"ETH/USDT", Decimal.of 1 0⟩]
    pLow := Decimal.of 90 0
    pHigh := Decimal.of 110 0
    qRate := Decimal.of 1 0
    qMax := Decimal.of 10 0
    filledCum := Decimal.zero
    status := .active }

/-- The one active order is the two-leg order. -/
def basketActive : ActiveOrders :=
  AList.insert "o1" basketOrder ∅

/-- The database has the row of the two-leg order. -/
def basketRows : FlowOrderRows :=
  AList.insert "o1" (storedRow basketOrder) ∅

/-- Both legs of the order get one: one order unit in memory and in the published
batch, two in the database. -/
theorem two_leg_volumes_differ :
    (solverBatch basketActive).1.status = .executed ∧
      ((solverBatch basketActive).2.lookup "o1").map (fun o => o.filledCum.toRat) = some 1 ∧
      basketOrder.filledCum.toRat + unitVolume basketOrder
        (fillsOf "o1" (solverBatch basketActive).1.batch.fills) = 1 ∧
      ((updateFilledVolumes (solverBatch basketActive).1.fillDeltas basketRows).bind
        (fun rows => rows.lookup "o1")).map (fun row => row.filledCum.toRat) = some 2 := by
  decide +kernel

/-- A buyer and a seller of ten, at most one in an interval. -/
def pairOrder (side : Side) (orderId : String) : FlowOrder :=
  FlowOrder.ofClient orderId side (Decimal.of 90 0) (Decimal.of 110 0) (Decimal.of 1 0)
    (Decimal.of 10 0)

/-- The buyer and the seller are active. -/
def pairActive : ActiveOrders :=
  AList.insert "o1" (pairOrder .buy "o1") (AList.insert "o2" (pairOrder .sell "o2") ∅)

/-- The database has the rows of both. -/
def pairRows : FlowOrderRows :=
  AList.insert "o1" (storedRow (pairOrder .buy "o1"))
    (AList.insert "o2" (storedRow (pairOrder .sell "o2")) ∅)

/-- The buyer stays active with one unit of ten filled, and the three volumes
agree. -/
theorem pair_volumes_agree :
    ∃ o' rows' row', (solverBatch pairActive).2.lookup "o1" = some o' ∧
      updateFilledVolumes (solverBatch pairActive).1.fillDeltas pairRows = some rows' ∧
      rows'.lookup "o1" = some row' ∧
      VolumesAgree (pairOrder .buy "o1") o' (solverBatch pairActive).1.batch.fills row' := by
  have hstays : ((solverBatch pairActive).2.lookup "o1").isSome := by decide +kernel
  have hrows : ((updateFilledVolumes (solverBatch pairActive).1.fillDeltas pairRows).bind
      (fun rows => rows.lookup "o1")).isSome := by decide +kernel
  obtain ⟨o', ho'⟩ := Option.isSome_iff_exists.mp hstays
  obtain ⟨row', hrow'⟩ := Option.isSome_iff_exists.mp hrows
  obtain ⟨rows', hupdate, hlookup⟩ := Option.bind_eq_some_iff.mp hrow'
  have hreports : ReportsFills (pairOrder .buy "o1")
      (solve { orders := snapshotActiveOrders pairActive }) :=
    ⟨by decide +kernel, by decide +kernel, by decide +kernel, by decide +kernel⟩
  have hqtys : (fillsOf "o1" (solve { orders := snapshotActiveOrders pairActive }).fills).map
      FlowFill.executedQty = [Decimal.of 1000000000000 12] := by decide +kernel
  obtain ⟨f, hfills, hqty⟩ := List.map_eq_singleton_iff.mp hqtys
  have hexact : FillsExact (pairOrder .buy "o1")
      (fillsOf "o1" (solve { orders := snapshotActiveOrders pairActive }).fills) := by
    rw [hfills]
    have hone : f.executedQty.toRat = 1 := by
      rw [hqty]
      decide +kernel
    have htotal : executedTotal [f] = 1 := by simp [hone]
    have hless : executedTotal [f] ≤ (10 : ℚ) - 0 := by
      rw [htotal]
      norm_num
    have hheld : Held 1 := ⟨.of 1 0, by decide, by decide +kernel⟩
    have hsize : (pairOrder .buy "o1").qMax.toRat = 10 := by decide +kernel
    have hfilled : (pairOrder .buy "o1").filledCum.toRat = 0 := by decide +kernel
    refine ⟨by decide, by decide, by rw [hfilled], by rw [hfilled, hsize]; norm_num, ?_, ?_, ?_, ?_⟩
    · intro g hg
      rw [List.mem_singleton.mp hg, hone, hqty]
      exact ⟨by decide, by norm_num⟩
    · rw [hsize, hfilled]
      exact ⟨.of 10 0, by decide, by decide +kernel⟩
    · rw [hsize, hfilled]
      refine ⟨fun part hpart => ?_, fun h => absurd hless h.not_ge, fun h => absurd hless h.not_ge⟩
      rcases prefix_cons_iff.mp hpart with rfl | ⟨part', rfl, hpart'⟩
      · exact held_zero
      · rw [prefix_nil.mp hpart', htotal]
        exact hheld
    · rw [hfilled, htotal, zero_add]
      exact fun _ => hheld
  have hstores : (storedRow (pairOrder .buy "o1")).Stores (pairOrder .buy "o1") :=
    ⟨rfl, rfl, Iff.rfl, Iff.rfl⟩
  refine ⟨o', rows', row', ho', hupdate, hlookup, ?_⟩
  exact (volumes_agree_iff (keyedById_of_entries (by decide)) (by decide) rfl
    (by decide +kernel) ho' (by decide +kernel) hstores hupdate
    hlookup hexact (by decide +kernel)).mpr hreports

end Matching
end ContExchange
