import ContExchange.Common.DecimalOrder
import ContExchange.Matching.FlowOrderRows
import ContExchange.Matching.RunBatch

/-!
# Matching: the fills of one order in a batch

What `Execute` does to the fills of one order, and what becomes of them:

* `lookup_foldl_updates`: an order that stays active has taken its own updates;
* `publishedFills_spec`: the published fills of an active order are the solver's
  fills, as long as these fit what remains of the order, and make up the
  remaining quantity otherwise;
* `fillDeltas_spec`: the delta of the order is the total of its fills;
* `persistedRow_spec`: the row of the order grows by that total.
-/

namespace ContExchange
namespace Matching

open Common Lib AList Decimal List

def fillsOf (orderId : String) (fills : List FlowFill) : List FlowFill :=
  fills.filter (fun f => f.orderId = orderId)

def executedTotal (fills : List FlowFill) : ℚ :=
  (fills.map (fun f => f.executedQty.toRat)).sum

/-- The executed quantities are not negative and have at most 18 places. -/
def QtysOk (fills : List FlowFill) : Prop :=
  ∀ f ∈ fills, ScaleOk f.executedQty ∧ 0 ≤ f.executedQty.toRat
deriving Decidable

@[simp] theorem executedTotal_nil : executedTotal [] = 0 := rfl

@[simp] theorem executedTotal_cons (f : FlowFill) (fs : List FlowFill) :
    executedTotal (f :: fs) = f.executedQty.toRat + executedTotal fs := by
  simp [executedTotal]

theorem executedTotal_append (fs gs : List FlowFill) :
    executedTotal (fs ++ gs) = executedTotal fs + executedTotal gs := by
  simp [executedTotal]

theorem QtysOk.tail {f : FlowFill} {fs : List FlowFill} (h : QtysOk (f :: fs)) : QtysOk fs :=
  fun g hg => h g (mem_cons_of_mem _ hg)

theorem executedTotal_nonneg {fs : List FlowFill} (h : QtysOk fs) : 0 ≤ executedTotal fs := by
  apply sum_nonneg
  intro x hx
  obtain ⟨f, hf, rfl⟩ := mem_map.mp hx
  exact (h f hf).2

section Cap

variable {remaining applied : Decimal}

@[simp] theorem withQty_executedQty (fill : FlowFill) (qty : Decimal) :
    (withQty fill qty).executedQty = qty := rfl

theorem capOne_orderId (remaining applied : Decimal) (fill : FlowFill) :
    (capOne remaining applied fill).2.orderId = fill.orderId := by
  unfold capOne
  dsimp only
  split <;> rfl

/-- The decimal operations on a fill are exact: the sum, its comparison, and the difference
where the fill is cut. -/
structure CapExact (remaining applied : Decimal) (fill : FlowFill) : Prop where
  sum : Decimal.AddExact applied fill.executedQty
  compared : Decimal.Comparable (Decimal.add applied fill.executedQty) remaining
  cut : remaining.toRat < applied.toRat + fill.executedQty.toRat →
    Decimal.SubExact remaining applied

/-- The total and the fill after the cap, where no decimal operation rounds. -/
structure CapValues (remaining applied : Decimal) (fill : FlowFill) : Prop where
  total : (capOne remaining applied fill).1.toRat =
    min (applied.toRat + fill.executedQty.toRat) remaining.toRat
  qty : (capOne remaining applied fill).2.executedQty.toRat =
    min (applied.toRat + fill.executedQty.toRat) remaining.toRat - applied.toRat
  kept : applied.toRat + fill.executedQty.toRat ≤ remaining.toRat →
    capOne remaining applied fill = (Decimal.add applied fill.executedQty, fill)
  capped : remaining.toRat < applied.toRat + fill.executedQty.toRat →
    capOne remaining applied fill = (remaining, withQty fill (Decimal.sub remaining applied))

theorem capOne_values {fill : FlowFill}
    (hsum : (Decimal.add applied fill.executedQty).toRat =
      applied.toRat + fill.executedQty.toRat)
    (hcompared : Decimal.Comparable (Decimal.add applied fill.executedQty) remaining)
    (hcut : remaining.toRat < applied.toRat + fill.executedQty.toRat →
      (Decimal.sub remaining applied).toRat = remaining.toRat - applied.toRat)
    (hle : applied.toRat ≤ remaining.toRat) : CapValues remaining applied fill := by
  have hcmp := hcompared.cmp_nonpos_iff
  rw [hsum] at hcmp
  by_cases hfits : applied.toRat + fill.executedQty.toRat ≤ remaining.toRat
  · have hkept : capOne remaining applied fill = (Decimal.add applied fill.executedQty, fill) :=
      if_pos (hcmp.mpr hfits)
    refine ⟨?_, ?_, fun _ => hkept, fun h => absurd h hfits.not_gt⟩ <;>
      rw [hkept, min_eq_left hfits]
    · exact hsum
    · ring
  · have hsub := hcut (not_le.mp hfits)
    have hallowed : allowedQty remaining applied = Decimal.sub remaining applied := by
      unfold allowedQty
      apply if_neg
      rw [← toRat_neg_iff, hsub]
      linarith
    have hcapped : capOne remaining applied fill =
        (remaining, withQty fill (Decimal.sub remaining applied)) := by
      rw [← hallowed]
      exact if_neg fun h => hfits (hcmp.mp h)
    refine ⟨?_, ?_, fun h => absurd h hfits, fun _ => hcapped⟩ <;>
      rw [hcapped, min_eq_right (not_le.mp hfits).le]
    rw [withQty_executedQty, hsub]

theorem capOne_exact {fill : FlowFill} (hexact : CapExact remaining applied fill)
    (hle : applied.toRat ≤ remaining.toRat) : CapValues remaining applied fill :=
  capOne_values (add_toRat hexact.sum) hexact.compared (fun h => sub_toRat (hexact.cut h)) hle

theorem comparable_of_scaleOk {a b : Decimal} (ha : ScaleOk a) (hb : ScaleOk b) :
    Decimal.Comparable a b := by
  apply comparable_of_scales
  unfold ScaleOk at ha hb
  rw [abs_le]
  omega

theorem capOne_spec {fill : FlowFill} (hr : ScaleOk remaining) (ha : ScaleOk applied)
    (hq : ScaleOk fill.executedQty) (hle : applied.toRat ≤ remaining.toRat)
    (hsum : Held (applied.toRat + fill.executedQty.toRat))
    (hcut : remaining.toRat < applied.toRat + fill.executedQty.toRat →
      Held (remaining.toRat - applied.toRat)) :
    ScaleOk (capOne remaining applied fill).1 ∧
      (capOne remaining applied fill).1.toRat =
        min (applied.toRat + fill.executedQty.toRat) remaining.toRat ∧
      ScaleOk (capOne remaining applied fill).2.executedQty ∧
      (capOne remaining applied fill).2.executedQty.toRat =
        min (applied.toRat + fill.executedQty.toRat) remaining.toRat - applied.toRat ∧
      (applied.toRat + fill.executedQty.toRat ≤ remaining.toRat →
        (capOne remaining applied fill).2 = fill) := by
  obtain ⟨hscale, hadd⟩ := add_of_held ha hq hsum
  obtain ⟨hval, hval', hsame, hcapped⟩ :=
    capOne_values hadd (comparable_of_scaleOk hscale hr)
      (fun h => (sub_of_held hr ha (hcut h)).2) hle
  rcases le_or_gt (applied.toRat + fill.executedQty.toRat) remaining.toRat with hfits | hexceeds
  · refine ⟨?_, hval, ?_, hval', fun h => by rw [hsame h]⟩ <;> rw [hsame hfits]
    · exact hscale
    · exact hq
  · refine ⟨?_, hval, ?_, hval', fun h => by rw [hsame h]⟩ <;> rw [hcapped hexceeds]
    · exact hr
    · exact (sub_of_held hr ha (hcut hexceeds)).1

/-- No sum of the pass over the fills of an order is rounded: each is a number that some decimal
holds. -/
structure SumsHeld (remaining : ℚ) (fills : List FlowFill) : Prop where
  sums : ∀ part, part <+: fills → Held (executedTotal part)
  cut : remaining < executedTotal fills →
    ∀ part, part <+: fills → executedTotal part ≤ remaining → Held (remaining - executedTotal part)
  after : remaining < executedTotal fills → ∀ f ∈ fills, Held (remaining + f.executedQty.toRat)

/-- The loop over the fills of one order keeps a total of at most the remaining
quantity, and all fills when they fit. -/
theorem capOne_forEach_spec {front fs : List FlowFill} (hr : ScaleOk remaining)
    (ha : ScaleOk applied) (hval : applied.toRat = min (executedTotal front) remaining.toRat)
    (hfs : QtysOk fs) (hheld : SumsHeld remaining.toRat (front ++ fs)) :
    QtysOk (forEach (fun _ => true) (capOne remaining) applied fs).2 ∧
      executedTotal (forEach (fun _ => true) (capOne remaining) applied fs).2 =
        min (executedTotal (front ++ fs)) remaining.toRat - applied.toRat ∧
      (executedTotal (front ++ fs) ≤ remaining.toRat →
        (forEach (fun _ => true) (capOne remaining) applied fs).2 = fs) ∧
      ∀ part, part <+: (forEach (fun _ => true) (capOne remaining) applied fs).2 →
        Held (applied.toRat + executedTotal part) := by
  induction fs generalizing applied front with
  | nil =>
      refine ⟨hfs, ?_, fun _ => rfl, ?_⟩
      · rw [append_nil, hval]
        simp
      · intro part hpart
        rw [prefix_nil.mp hpart, executedTotal_nil, add_zero]
        exact ha.held
  | cons f fs ih =>
      obtain ⟨hq, hqnonneg⟩ := hfs f mem_cons_self
      have htail := executedTotal_nonneg hfs.tail
      have hle : applied.toRat ≤ remaining.toRat := hval ▸ min_le_right _ _
      have hmore : executedTotal (front ++ [f]) ≤ executedTotal (front ++ f :: fs) := by
        simp only [executedTotal_append, executedTotal_cons, executedTotal_nil]
        linarith
      have hlast : executedTotal (front ++ [f]) = executedTotal front + f.executedQty.toRat := by
        simp [executedTotal_append]
      have hprefix : front ++ [f] <+: front ++ f :: fs := ⟨fs, by simp⟩
      have hfront : front <+: front ++ f :: fs := prefix_append _ _
      -- what is applied is the sum so far, or all that remains
      have hsum : Held (applied.toRat + f.executedQty.toRat) := by
        rcases le_or_gt (executedTotal front) remaining.toRat with hfits | hover
        · rw [hval, min_eq_left hfits, ← hlast]
          exact hheld.sums _ hprefix
        · rw [hval, min_eq_right hover.le]
          exact hheld.after (by linarith) f (mem_append_right _ mem_cons_self)
      have hcut : remaining.toRat < applied.toRat + f.executedQty.toRat →
          Held (remaining.toRat - applied.toRat) := by
        intro hexceeds
        rcases le_or_gt (executedTotal front) remaining.toRat with hfits | hover
        · rw [hval, min_eq_left hfits] at hexceeds ⊢
          exact hheld.cut (by linarith) _ hfront hfits
        · rw [hval, min_eq_right hover.le, sub_self]
          exact held_zero
      obtain ⟨hscale, hval', hscale', hqty, hsame⟩ := capOne_spec hr ha hq hle hsum hcut
      have hnext : (capOne remaining applied f).1.toRat =
          min (executedTotal (front ++ [f])) remaining.toRat := by
        rw [hval', hval, hlast]
        rcases le_total (executedTotal front) remaining.toRat with h | h
        · rw [min_eq_left h]
        · rw [min_eq_right h, min_eq_right (by linarith), min_eq_right (by linarith)]
      have happend : front ++ [f] ++ fs = front ++ f :: fs := by simp
      obtain ⟨hok, htotal, hrest, hparts⟩ :=
        ih hscale hnext hfs.tail (by rw [happend]; exact hheld)
      rw [happend] at htotal hrest
      rw [forEach_cons_of_sel rfl]
      refine ⟨?_, ?_, ?_, ?_⟩
      · intro g hg
        rcases mem_cons.mp hg with rfl | hg'
        · refine ⟨hscale', ?_⟩
          rw [hqty, sub_nonneg]
          exact le_min (by linarith) hle
        · exact hok g hg'
      · rw [executedTotal_cons, htotal, hqty, hval']
        ring
      · intro hfits
        have hfits' : applied.toRat + f.executedQty.toRat ≤ remaining.toRat := by
          have := min_le_left (executedTotal front) remaining.toRat
          linarith
        rw [hsame hfits', hrest hfits]
      · intro part hpart
        rcases prefix_cons_iff.mp hpart with rfl | ⟨part', rfl, hpart'⟩
        · rw [executedTotal_nil, add_zero]
          exact ha.held
        · have hnew := hparts part' hpart'
          rw [hval'] at hnew
          rw [executedTotal_cons, hqty, ← add_assoc, add_sub_cancel]
          exact hnew

theorem fillsOf_capFills {snapshot : List FlowOrder} {orderId : String}
    (hr : remainingByOrder snapshot orderId = some remaining) (fills : List FlowFill) :
    fillsOf orderId (capFillsAgainstRemaining snapshot fills) =
      (forEach (fun _ => true) (capOne remaining) Decimal.zero (fillsOf orderId fills)).2 := by
  refine forEach_key FlowFill.orderId orderId ?_ ?_ ?_ (fun _ => Decimal.zero) fills
  · rintro s f rfl
    unfold capFill
    rw [hr]
    exact ⟨Function.update_self _ _ _, rfl⟩
  · intro s f hne
    unfold capFill
    split
    · rfl
    · exact Function.update_of_ne (Ne.symm hne) _ _
  · intro s f
    unfold capFill
    split
    · rfl
    · exact capOne_orderId _ _ _

end Cap

section Snapshot

variable {active : ActiveOrders} {o : FlowOrder}

/-- The orders are kept under their ids. -/
def KeyedById (active : ActiveOrders) : Prop :=
  ∀ orderId o, active.lookup orderId = some o → o.orderId = orderId

theorem keyedById_of_entries (h : ∀ r ∈ active.entries, r.2.orderId = r.1) : KeyedById active := by
  intro orderId o hlookup
  exact h ⟨orderId, o⟩ (mem_lookup_iff.mp hlookup)

theorem mem_snapshot {orderId : String} (h : active.lookup orderId = some o) :
    o ∈ snapshotActiveOrders active :=
  mem_map_of_mem (mem_lookup_iff.mp h)

theorem lookup_of_mem_snapshot (hkeyed : KeyedById active) (h : o ∈ snapshotActiveOrders active) :
    active.lookup o.orderId = some o := by
  obtain ⟨r, hr, rfl⟩ := mem_map.mp h
  have hlookup : active.lookup r.1 = some r.2 := mem_lookup_iff.mpr hr
  rw [hkeyed r.1 r.2 hlookup, hlookup]

theorem remainingByOrder_snapshot
    (hkeyed : KeyedById active) (h : active.lookup o.orderId = some o) :
    remainingByOrder (snapshotActiveOrders active) o.orderId = some (capRemaining o) := by
  unfold remainingByOrder
  cases hfind : (snapshotActiveOrders active).find? (fun p => p.orderId = o.orderId) with
  | none =>
      have := find?_eq_none.mp hfind o (mem_snapshot h)
      simp at this
  | some p =>
      have hid : p.orderId = o.orderId := by simpa using find?_some hfind
      have hp := lookup_of_mem_snapshot hkeyed (mem_of_find?_eq_some hfind)
      rw [hid, h] at hp
      cases hp
      rfl

theorem capRemaining_spec (hq : ScaleOk o.qMax) (hf : ScaleOk o.filledCum)
    (hle : o.filledCum.toRat ≤ o.qMax.toRat) (hheld : Held (o.qMax.toRat - o.filledCum.toRat)) :
    ScaleOk (capRemaining o) ∧ (capRemaining o).toRat = o.qMax.toRat - o.filledCum.toRat := by
  obtain ⟨hscale, hval⟩ := sub_of_held hq hf hheld
  have hsame : capRemaining o = Decimal.sub o.qMax o.filledCum := by
    unfold capRemaining
    apply if_neg
    rw [← toRat_neg_iff, hval]
    linarith
  rw [hsame]
  exact ⟨hscale, hval⟩

end Snapshot

def updatesOf (orderId : String) (updates : List OrderStateUpdate) : List OrderStateUpdate :=
  updates.filter (fun u => u.orderId = orderId)

section Updates

variable {active : ActiveOrders} {o o' : FlowOrder}

variable {orderId : String}

theorem lookup_updateActiveOrder_of_ne {u : OrderStateUpdate} (hne : u.orderId ≠ orderId) :
    (updateActiveOrder active u).lookup orderId = active.lookup orderId := by
  unfold updateActiveOrder
  split
  · rfl
  · split
    · exact lookup_erase_ne (Ne.symm hne)
    · exact lookup_insert_ne (Ne.symm hne)

theorem lookup_foldl_updates_none {updates : List OrderStateUpdate}
    (h : active.lookup orderId = none) :
    (updates.foldl updateActiveOrder active).lookup orderId = none := by
  induction updates generalizing active with
  | nil => exact h
  | cons u us ih =>
      apply ih
      by_cases hu : u.orderId = orderId
      · subst hu
        unfold updateActiveOrder
        rw [h]
        exact h
      · rw [lookup_updateActiveOrder_of_ne hu, h]

theorem lookup_foldl_updates {updates : List OrderStateUpdate}
    (h : active.lookup orderId = some o)
    (h' : (updates.foldl updateActiveOrder active).lookup orderId = some o') :
    o' = (updatesOf orderId updates).foldl FlowOrder.update o := by
  induction updates generalizing active o with
  | nil =>
      rw [foldl_nil, h] at h'
      cases h'
      rfl
  | cons u us ih =>
      rw [foldl_cons] at h'
      by_cases hu : u.orderId = orderId
      · subst hu
        have hown : updatesOf u.orderId (u :: us) = u :: updatesOf u.orderId us := by
          simp [updatesOf]
        by_cases hterm : u.status.isTerminal = true
        · have hgone : (updateActiveOrder active u).lookup u.orderId = none := by
            simp [updateActiveOrder, h, hterm]
          rw [lookup_foldl_updates_none hgone] at h'
          cases h'
        · have hstep : (updateActiveOrder active u).lookup u.orderId = some (o.update u) := by
            simp [updateActiveOrder, h, hterm]
          rw [hown, foldl_cons]
          exact ih hstep h'
      · have hother : updatesOf orderId (u :: us) = updatesOf orderId us := by
          simp [updatesOf, hu]
        rw [hother]
        exact ih ((lookup_updateActiveOrder_of_ne hu).trans h) h'

end Updates

section Published

variable {active : ActiveOrders} {o : FlowOrder} {result : BatchResult}

/-- The amounts of an order and of its fills in a result have at most 18 places, and none of the
sums that a batch forms of them is rounded. -/
structure FillsExact (o : FlowOrder) (fills : List FlowFill) : Prop where
  qMax : ScaleOk o.qMax
  filledCum : ScaleOk o.filledCum
  filledCum_nonneg : 0 ≤ o.filledCum.toRat
  filledCum_le : o.filledCum.toRat ≤ o.qMax.toRat
  qtys : QtysOk fills
  remaining : Held (o.qMax.toRat - o.filledCum.toRat)
  capped : SumsHeld (o.qMax.toRat - o.filledCum.toRat) fills
  stored : executedTotal fills ≤ o.qMax.toRat - o.filledCum.toRat →
    Held (o.filledCum.toRat + executedTotal fills)

theorem fillsOf_backfill
    (externalLiquidity : ExternalLiquidityBySymbol) (orderId : String) (fills : List FlowFill) :
    fillsOf orderId (fills.map (backfillFillProvenance externalLiquidity)) =
      (fillsOf orderId fills).map (backfillFillProvenance externalLiquidity) := by
  unfold fillsOf
  rw [filter_map]
  rfl

theorem executedTotal_backfill
    (externalLiquidity : ExternalLiquidityBySymbol) (fills : List FlowFill) :
    executedTotal (fills.map (backfillFillProvenance externalLiquidity)) =
      executedTotal fills := by
  unfold executedTotal
  rw [map_map]
  rfl

/-- What a batch publishes of the fills of an active order. -/
structure PublishedFills (o : FlowOrder) (fills published : List FlowFill) : Prop where
  qtys : QtysOk published
  total : executedTotal published = min (executedTotal fills) (o.qMax.toRat - o.filledCum.toRat)
  sums : ∀ part, part <+: published → Held (executedTotal part)
  stored : Held (o.filledCum.toRat + executedTotal published)

theorem PublishedFills.backfill {fills published : List FlowFill}
    (h : PublishedFills o fills published) (externalLiquidity : ExternalLiquidityBySymbol) :
    PublishedFills o fills (published.map (backfillFillProvenance externalLiquidity)) := by
  refine ⟨?_, ?_, ?_, ?_⟩
  · intro f hf
    obtain ⟨g, hg, rfl⟩ := mem_map.mp hf
    exact h.qtys g hg
  · rw [executedTotal_backfill, h.total]
  · intro part hpart
    obtain ⟨part', hpart', rfl⟩ := prefix_map_iff.mp hpart
    rw [executedTotal_backfill]
    exact h.sums part' hpart'
  · rw [executedTotal_backfill]
    exact h.stored

theorem publishedFills_spec (batchId : String) (externalLiquidity : ExternalLiquidityBySymbol)
    (hkeyed : KeyedById active) (hactive : active.lookup o.orderId = some o)
    (hexact : FillsExact o (fillsOf o.orderId result.fills)) :
    PublishedFills o (fillsOf o.orderId result.fills) (fillsOf o.orderId
        (publishedBatch batchId externalLiquidity (snapshotActiveOrders active) result).fills) ∧
      (executedTotal (fillsOf o.orderId result.fills) ≤ o.qMax.toRat - o.filledCum.toRat →
        fillsOf o.orderId (publishedBatch batchId externalLiquidity
          (snapshotActiveOrders active) result).fills =
            (fillsOf o.orderId result.fills).map (backfillFillProvenance externalLiquidity)) := by
  obtain ⟨hscale, hval⟩ := capRemaining_spec hexact.qMax hexact.filledCum hexact.filledCum_le
    hexact.remaining
  have hpos : 0 ≤ o.qMax.toRat - o.filledCum.toRat := sub_nonneg.mpr hexact.filledCum_le
  obtain ⟨hok, htotal, hsame, hparts⟩ :=
    capOne_forEach_spec hscale scaleOk_zero
      (show Decimal.zero.toRat = min (executedTotal []) _ by
        rw [hval, toRat_zero, executedTotal_nil, min_eq_left hpos]) hexact.qtys
      (by rw [hval]; exact hexact.capped)
  rw [nil_append, toRat_zero, sub_zero, hval] at htotal
  rw [nil_append, hval] at hsame
  simp only [toRat_zero, zero_add] at hparts
  unfold publishedBatch
  rw [fillsOf_backfill, fillsOf_capFills (remainingByOrder_snapshot hkeyed hactive)]
  refine ⟨PublishedFills.backfill ⟨hok, htotal, hparts, ?_⟩ externalLiquidity,
    fun hfits => by rw [hsame hfits]⟩
  rw [htotal]
  rcases le_total (executedTotal (fillsOf o.orderId result.fills))
    (o.qMax.toRat - o.filledCum.toRat) with hfits | hover
  · rw [min_eq_left hfits]
    exact hexact.stored hfits
  · rw [min_eq_right hover, add_sub_cancel]
    exact hexact.qMax.held

end Published

section Deltas

/-- The sum of the executed quantities in the order of the fills; none without
fills. -/
def deltaOf : List FlowFill → Option Decimal
  | [] => none
  | f :: fs => some (fs.foldl (fun qty g => Decimal.add qty g.executedQty) f.executedQty)

theorem lookup_foldl_addToOrder_some (fills : List FlowFill) (deltas : Table String Decimal)
    (orderId : String) (qty : Decimal) (h : deltas.lookup orderId = some qty) :
    (fills.foldl addToOrder deltas).lookup orderId =
      some ((fillsOf orderId fills).foldl (fun qty g => Decimal.add qty g.executedQty) qty) := by
  induction fills generalizing deltas qty with
  | nil => exact h
  | cons f fills ih =>
      rw [foldl_cons]
      by_cases hf : f.orderId = orderId
      · rw [ih _ (Decimal.add qty f.executedQty)]
        · simp [fillsOf, hf]
        · subst hf
          simp [addToOrder, h]
      · rw [ih _ qty]
        · simp [fillsOf, hf]
        · unfold addToOrder
          split <;> rw [lookup_insert_ne (Ne.symm hf), h]

theorem lookup_fillByOrder (fills : List FlowFill) (orderId : String) :
    (fillByOrder fills).lookup orderId = deltaOf (fillsOf orderId fills) := by
  unfold fillByOrder
  have hnone : (∅ : Table String Decimal).lookup orderId = none := lookup_empty _
  generalize (∅ : Table String Decimal) = deltas at hnone
  induction fills generalizing deltas with
  | nil => exact hnone
  | cons f fills ih =>
      rw [foldl_cons]
      by_cases hf : f.orderId = orderId
      · rw [lookup_foldl_addToOrder_some fills _ orderId f.executedQty]
        · simp [fillsOf, hf, deltaOf]
        · subst hf
          simp [addToOrder, hnone]
      · have hskip : fillsOf orderId (f :: fills) = fillsOf orderId fills := by
          simp [fillsOf, hf]
        rw [hskip]
        apply ih
        unfold addToOrder
        split <;> rw [lookup_insert_ne (Ne.symm hf), hnone]

theorem foldl_add_spec {fs : List FlowFill} {qty : Decimal} (hq : ScaleOk qty) (hfs : QtysOk fs)
    (hheld : ∀ part, part <+: fs → Held (qty.toRat + executedTotal part)) :
    ScaleOk (fs.foldl (fun qty g => Decimal.add qty g.executedQty) qty) ∧
      (fs.foldl (fun qty g => Decimal.add qty g.executedQty) qty).toRat =
        qty.toRat + executedTotal fs := by
  induction fs generalizing qty with
  | nil => exact ⟨hq, by simp⟩
  | cons f fs ih =>
      have hfirst := hheld [f] ⟨fs, rfl⟩
      rw [executedTotal_cons, executedTotal_nil, add_zero] at hfirst
      obtain ⟨hscale, hval⟩ := add_of_held hq (hfs f mem_cons_self).1 hfirst
      obtain ⟨hscale', htotal⟩ := ih hscale hfs.tail (by
        intro part hpart
        rw [hval, add_assoc, ← executedTotal_cons]
        exact hheld _ (cons_prefix_cons.mpr ⟨rfl, hpart⟩))
      refine ⟨hscale', ?_⟩
      rw [foldl_cons, htotal, hval, executedTotal_cons, add_assoc]

theorem deltaOf_spec {fs : List FlowFill} {delta : Decimal} (hfs : QtysOk fs)
    (hheld : ∀ part, part <+: fs → Held (executedTotal part)) (h : deltaOf fs = some delta) :
    ScaleOk delta ∧ delta.toRat = executedTotal fs := by
  cases fs with
  | nil => cases h
  | cons f fs =>
      cases h
      rw [executedTotal_cons]
      refine foldl_add_spec (hfs f mem_cons_self).1 hfs.tail fun part hpart => ?_
      rw [← executedTotal_cons]
      exact hheld _ (cons_prefix_cons.mpr ⟨rfl, hpart⟩)

theorem fillDeltas_nodup (fills : List FlowFill) :
    ((fillDeltas fills).map OrderFillDelta.orderId).Nodup := by
  have hkeys := (fillByOrder fills).nodupKeys
  unfold fillDeltas
  rw [map_map]
  exact hkeys

theorem mem_fillDeltas {fills : List FlowFill} {delta : OrderFillDelta} :
    delta ∈ fillDeltas fills ↔
      deltaOf (fillsOf delta.orderId fills) = some delta.executedQtyDelta := by
  rw [← lookup_fillByOrder, ← Option.mem_def, mem_lookup_iff]
  unfold fillDeltas
  rw [mem_map]
  constructor
  · rintro ⟨r, hr, rfl⟩
    exact hr
  · intro h
    exact ⟨_, h, rfl⟩

/-- The row of an order after the fills of a batch: filled by their total, and
unchanged when there is nothing to add. -/
theorem persistedRow_spec {fills : List FlowFill} {rows rows' : FlowOrderRows} {orderId : String}
    {row : FlowOrderRow} {qMax filledCum : Decimal}
    (hupdate : updateFilledVolumes (fillDeltas fills) rows = some rows')
    (hrow : rows.lookup orderId = some row) (hq : parsePgNumeric row.qMax = some qMax)
    (hf : parsePgNumeric row.filledCum = some filledCum)
    (hfs : QtysOk (fillsOf orderId fills))
    (hheld : ∀ part, part <+: fillsOf orderId fills → Held (executedTotal part))
    (hstored : Held (row.filledCum.toRat + executedTotal (fillsOf orderId fills))) :
    ∃ row', rows'.lookup orderId = some row' ∧
      (executedTotal (fillsOf orderId fills) = 0 ∧ row' = row ∨
        0 < executedTotal (fillsOf orderId fills) ∧
          row.Filled (executedTotal (fillsOf orderId fills)) row') := by
  have htotal := executedTotal_nonneg hfs
  cases hdelta : deltaOf (fillsOf orderId fills) with
  | none =>
      have hnil : fillsOf orderId fills = [] := by
        cases hfills : fillsOf orderId fills with
        | nil => rfl
        | cons f fs =>
            rw [hfills] at hdelta
            cases hdelta
      have hne : ∀ delta ∈ fillDeltas fills, delta.orderId ≠ orderId := by
        rintro delta hmem rfl
        rw [mem_fillDeltas, hdelta] at hmem
        cases hmem
      refine ⟨row, ?_, .inl ⟨by rw [hnil]; rfl, rfl⟩⟩
      rw [lookup_updateFilledVolumes_of_ne hupdate hne, hrow]
  | some delta =>
      obtain ⟨hscale, hval⟩ := deltaOf_spec hfs hheld hdelta
      have hmem : (⟨orderId, delta⟩ : OrderFillDelta) ∈ fillDeltas fills :=
        mem_fillDeltas.mpr hdelta
      have hlookup := lookup_updateFilledVolumes hupdate (fillDeltas_nodup fills) hmem hrow
      dsimp only at hlookup
      rw [hval] at hlookup
      rcases htotal.lt_or_eq with hpos | hzero
      · obtain ⟨row', hadd, hfilled⟩ := addFill_spec hq hf hscale (by rw [hval]; exact htotal)
          (by rw [hval]; exact hstored)
        rw [if_neg (not_le.mpr hpos), hadd] at hlookup
        rw [hval] at hfilled
        exact ⟨row', hlookup, .inr ⟨hpos, hfilled⟩⟩
      · rw [if_pos hzero.symm.le] at hlookup
        exact ⟨row, hlookup, .inl ⟨hzero.symm, rfl⟩⟩

end Deltas

end Matching
end ContExchange
