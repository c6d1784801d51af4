import ContExchange.Lib.Runs
import ContExchange.Matching.Capping

/-!
# Matching: the life of an order in memory

`MatchingLoop::on_order_event` creates, amends and cancels active orders, and an
executed batch applies the order updates of the solver to them.  A life of the
active orders is any sequence of these events; beside the active orders it
keeps the terms of the client, as created and amended.

`life_wellFormed`: as long as the events meet `LifeOk`, an active order carries
the limits of its client with the sign of its side and a filled volume between
zero and its size, and it is the order that `from_proto` and the loader of the
repository build from the same terms and fills.  An amend writes the limits of a
SELL order unsigned, and any total (`amend_breaks_order`).
-/

namespace ContExchange
namespace Matching

open Common Lib AList Decimal List FlowOrder FlowOrderLegRow

/-- `fob.orders.v1.AmendFlowOrder`: the new values that are given. -/
structure AmendFlowOrder where
  orderId : String
  newTotalQty : Option Decimal := none
  newPriceLow : Option Decimal := none
  newPriceHigh : Option Decimal := none
  newMaxSpeed : Option Decimal := none
deriving DecidableEq

/-- `fob.orders.v1.OrdersNormalized`. -/
inductive OrderEvent where
  | create (order : ProtoFlowOrder)
  | cancel (orderId : String)
  | amend (a : AmendFlowOrder)
deriving DecidableEq

def FlowOrder.amend (o : FlowOrder) (a : AmendFlowOrder) : FlowOrder :=
  { o with
    qMax := a.newTotalQty.getD o.qMax
    pLow := a.newPriceLow.getD o.pLow
    pHigh := a.newPriceHigh.getD o.pHigh
    qRate := a.newMaxSpeed.getD o.qRate }

/-- `on_order_event`; `now` is the clock reading for missing times. -/
def onOrderEvent (now : Int) (active : ActiveOrders) : OrderEvent → ActiveOrders
  | .create order => active.insert order.orderId (FlowOrder.fromProto now order)
  | .cancel orderId => active.erase orderId
  | .amend a =>
      match active.lookup a.orderId with
      | none => active
      | some o => active.insert a.orderId (o.amend a)

namespace ProtoFlowOrder

/-- The lower limit, zero when it is missing. -/
def low (t : ProtoFlowOrder) : Decimal := t.priceLow.getD Decimal.zero

/-- The upper limit, zero when it is missing. -/
def high (t : ProtoFlowOrder) : Decimal := t.priceHigh.getD Decimal.zero

def speed (t : ProtoFlowOrder) : Decimal := t.maxSpeed.getD Decimal.zero

/-- The size, zero when it is missing. -/
def total (t : ProtoFlowOrder) : Decimal := t.totalQty.getD Decimal.zero

def amend (t : ProtoFlowOrder) (a : AmendFlowOrder) : ProtoFlowOrder :=
  { t with
    totalQty := a.newTotalQty.or t.totalQty
    priceLow := a.newPriceLow.or t.priceLow
    priceHigh := a.newPriceHigh.or t.priceHigh
    maxSpeed := a.newMaxSpeed.or t.maxSpeed }

end ProtoFlowOrder

/-- The terms are in the range of the decimals: usual scales, a size that is not
negative, and limits that can be negated. -/
structure TermsOk (t : ProtoFlowOrder) : Prop where
  low : Decimal.ScaleOk t.low ∧ t.low.units ≠ int64Min
  high : Decimal.ScaleOk t.high ∧ t.high.units ≠ int64Min
  speed : Decimal.ScaleOk t.speed
  total : Decimal.ScaleOk t.total
  total_nonneg : 0 ≤ t.total.toRat
  remaining : Decimal.ScaleOk (t.remainingQty.getD t.total)

/-- Two records of the same order: the same legs, and the same limits, speed,
size and volume. -/
structure SameOrder (o p : FlowOrder) : Prop where
  legs : o.legs = p.legs
  pLow : o.pLow.toRat = p.pLow.toRat
  pHigh : o.pHigh.toRat = p.pHigh.toRat
  qRate : o.qRate.toRat = p.qRate.toRat
  qMax : o.qMax.toRat = p.qMax.toRat
  filledCum : o.filledCum.toRat = p.filledCum.toRat

/-- The row of an order with these terms and this filled volume. -/
def filledRow (now : Int) (t : ProtoFlowOrder) (filledCum : Decimal) : FlowOrderRow :=
  { insertedRow now t with filledCum := toPgNumeric filledCum }

/-- An order that is as its client's terms have it. -/
structure WellFormed (t : ProtoFlowOrder) (o : FlowOrder) : Prop where
  sell : t.side = .sell → o.pLow.toRat = -t.high.toRat ∧ o.pHigh.toRat = -t.low.toRat
  buy : t.side ≠ .sell → o.pLow = t.low ∧ o.pHigh = t.high
  filledCum_nonneg : 0 ≤ o.filledCum.toRat
  filledCum_le : o.filledCum.toRat ≤ o.qMax.toRat
  fromProto :
    ∀ now remaining, Decimal.ScaleOk remaining → Decimal.SubExact t.total remaining →
      t.total.toRat - remaining.toRat = o.filledCum.toRat →
      SameOrder o (FlowOrder.fromProto now { t with remainingQty := some remaining })
  loaded :
    ∀ now p, t.instrument.symbol ≠ "" →
      (filledRow now t o.filledCum).load o.orderId = some p → SameOrder o p

/-- The active orders and the terms of their clients. -/
structure Life where
  active : ActiveOrders
  terms : Table String ProtoFlowOrder

/-- An order event, or the order updates of an executed batch. -/
inductive LifeEvent where
  | order (now : Int) (e : OrderEvent)
  | fills (updates : List OrderStateUpdate)

def termsAfter (terms : Table String ProtoFlowOrder) : OrderEvent → Table String ProtoFlowOrder
  | .create order => terms.insert order.orderId order
  | .cancel _ => terms
  | .amend a =>
      match terms.lookup a.orderId with
      | none => terms
      | some t => terms.insert a.orderId (t.amend a)

def Life.step (s : Life) : LifeEvent → Life
  | .order now e => { active := onOrderEvent now s.active e, terms := termsAfter s.terms e }
  | .fills updates => { s with active := applyOrderUpdates updates s.active }

/-- No orders. -/
def Life.start : Life :=
  { active := ∅, terms := ∅ }

/-- What an event has to meet for an order: a create has terms in range; an amend
of the active order keeps them in range, leaves the limits of a SELL order alone
and does not make the order smaller than its filled volume; the totals of the
updates are not negative. -/
def LifeOk (orderId : String) (s : Life) : LifeEvent → Prop
  | .order _ (.create t) => t.orderId = orderId → TermsOk t
  | .order _ (.cancel _) => True
  | .order _ (.amend a) =>
      a.orderId = orderId → ∀ o t, s.active.lookup orderId = some o →
        s.terms.lookup orderId = some t →
        TermsOk (t.amend a) ∧ o.filledCum.toRat ≤ (t.amend a).total.toRat ∧
          (t.side = .sell → a.newPriceLow = none ∧ a.newPriceHigh = none)
  | .fills updates =>
      ∀ u ∈ updates, u.orderId = orderId → ∀ total, u.filledQtyTotal = some total →
        Decimal.ScaleOk total ∧ 0 ≤ total.toRat

section Decimals

variable {d : Decimal}

theorem negated_toRat (hscale : 0 ≤ d.scale) (hmin : d.units ≠ int64Min) :
    (negated d).toRat = -d.toRat := by
  have hexact : Decimal.SubExact .zero d := by
    have hmax : max Decimal.zero.scale d.scale = d.scale := max_eq_right hscale
    have hd := d.fits
    unfold Decimal.SubExact
    rw [hmax, unitsAt_self]
    simp only [Decimal.unitsAt, Decimal.zero, zero_mul, zero_sub]
    unfold Int64Fits at hd ⊢
    unfold int64Min int64Max at *
    omega
  unfold negated
  rw [sub_toRat hexact, toRat_zero, zero_sub]

theorem normalizeLoop_le (places : Nat) (units : Int) :
    (Decimal.normalizeLoop places units).2 ≤ places := by
  induction places generalizing units with
  | zero => exact le_rfl
  | succ n ih =>
      unfold Decimal.normalizeLoop
      split
      · exact le_rfl
      · exact (ih _).trans (Nat.le_succ n)

theorem sub_scaleOk' {a b : Decimal} (ha : Decimal.ScaleOk a) (hb : Decimal.ScaleOk b) :
    Decimal.ScaleOk (Decimal.sub a b) := by
  have hmax : 0 ≤ max a.scale b.scale ∧ max a.scale b.scale ≤ 18 :=
    ⟨le_max_of_le_left ha.1, max_le ha.2 hb.2⟩
  unfold Decimal.sub
  dsimp only
  unfold Decimal.normalizeI128
  split
  · have hle := normalizeLoop_le (max a.scale b.scale).toNat
      (i128 (Decimal.alignUnitsI128 a (max a.scale b.scale) -
        Decimal.alignUnitsI128 b (max a.scale b.scale)))
    unfold Decimal.ScaleOk
    dsimp only
    omega
  · exact hmax

theorem normalizeLoop_nonpos (places : Nat) {units : Int} (h : units ≤ 0) :
    (Decimal.normalizeLoop places units).1 ≤ 0 := by
  induction places generalizing units with
  | zero => exact h
  | succ n ih =>
      unfold Decimal.normalizeLoop
      split
      · exact h
      · apply ih
        unfold roundDiv10
        split <;> omega

theorem clampInt64_nonpos {z : Int} (h : z ≤ 0) : clampInt64 z ≤ 0 := by
  unfold clampInt64 int64Max int64Min
  split
  · omega
  · split <;> omega

theorem lt_of_sub_pos {a b : Decimal} (ha : Decimal.ScaleOk a) (hb : Decimal.ScaleOk b)
    (h : 0 < (Decimal.sub a b).toRat) : b.toRat < a.toRat := by
  by_contra hle
  have hs : max a.scale b.scale ≤ 18 := max_le ha.2 hb.2
  have hcmp := (cmp_nonpos_iff ha hb).mpr (not_lt.mp hle)
  unfold Decimal.cmp at hcmp
  simp only [alignUnitsI128_of_scaleOk ha hs, alignUnitsI128_of_scaleOk hb hs] at hcmp
  have hbound : ∀ d : Decimal, Decimal.ScaleOk d → |d.unitsAt (max a.scale b.scale)| ≤ 2 ^ 125 := by
    intro d hd
    have hu := abs_units_le d
    have hk : (max a.scale b.scale - d.scale).toNat ≤ 18 := by
      have := hd.1
      omega
    have hpow : (10 : Int) ^ (max a.scale b.scale - d.scale).toNat ≤ 10 ^ 18 :=
      pow_le_pow_right₀ (by norm_num) hk
    have hpos : (0 : Int) < 10 ^ (max a.scale b.scale - d.scale).toNat := by positivity
    unfold Decimal.unitsAt
    rw [abs_mul, abs_of_pos hpos]
    calc |d.units| * 10 ^ (max a.scale b.scale - d.scale).toNat
        ≤ 2 ^ 63 * 10 ^ 18 := mul_le_mul hu hpow hpos.le (by norm_num)
      _ ≤ 2 ^ 125 := by norm_num
  have hdiff : a.unitsAt (max a.scale b.scale) - b.unitsAt (max a.scale b.scale) ≤ 0 := by
    split at hcmp
    · omega
    · split at hcmp
      · omega
      · omega
  have hwrap : i128 (a.unitsAt (max a.scale b.scale) - b.unitsAt (max a.scale b.scale)) =
      a.unitsAt (max a.scale b.scale) - b.unitsAt (max a.scale b.scale) := by
    have h₁ := abs_le.mp (hbound a ha)
    have h₂ := abs_le.mp (hbound b hb)
    exact i128_of_lt (by omega) (by omega)
  have hunits : (Decimal.sub a b).units ≤ 0 := by
    unfold Decimal.sub
    simp only [alignUnitsI128_of_scaleOk ha hs, alignUnitsI128_of_scaleOk hb hs]
    rw [hwrap]
    unfold Decimal.normalizeI128
    split
    · exact clampInt64_nonpos (normalizeLoop_nonpos _ hdiff)
    · exact clampInt64_nonpos hdiff
  rw [lt_iff_le_and_ne, toRat_nonneg_iff, ne_comm, Ne, toRat_eq_zero_iff] at h
  omega

theorem initialFilledCum_spec {qMax remaining : Decimal} (hq : Decimal.ScaleOk qMax)
    (hr : Decimal.ScaleOk remaining) (hnonneg : 0 ≤ qMax.toRat) :
    Decimal.ScaleOk (initialFilledCum qMax remaining) ∧
      0 ≤ (initialFilledCum qMax remaining).toRat ∧
      (initialFilledCum qMax remaining).toRat ≤ qMax.toRat := by
  have hscale := sub_scaleOk' hq hr
  generalize hfilled : Decimal.sub qMax remaining = filled at hscale
  have hzero : Decimal.ScaleOk (zeroAt filled.scale) := hscale
  have hclamp : ∀ z : Decimal, Decimal.ScaleOk z → 0 ≤ z.toRat →
      Decimal.ScaleOk (if Decimal.cmp z qMax > 0 then qMax else z) ∧
        0 ≤ (if Decimal.cmp z qMax > 0 then qMax else z).toRat ∧
        (if Decimal.cmp z qMax > 0 then qMax else z).toRat ≤ qMax.toRat := by
    intro z hz hz₀
    split
    · exact ⟨hq, hnonneg, le_rfl⟩
    · rename_i hcmp
      rw [gt_iff_lt, cmp_pos_iff hz hq, not_lt] at hcmp
      exact ⟨hz, hz₀, hcmp⟩
  unfold initialFilledCum
  rw [hfilled]
  by_cases hneg : Decimal.cmp filled (zeroAt filled.scale) < 0
  · simp only [if_pos hneg]
    exact hclamp _ hzero (by rw [toRat_zeroAt])
  · simp only [if_neg hneg]
    rw [cmp_zeroAt_neg_iff, not_lt] at hneg
    exact hclamp _ hscale hneg

theorem initialFilledCum_toRat {qMax remaining : Decimal} (hq : Decimal.ScaleOk qMax)
    (hr : Decimal.ScaleOk remaining) (hexact : Decimal.SubExact qMax remaining)
    (h₀ : 0 ≤ qMax.toRat - remaining.toRat) (h₁ : qMax.toRat - remaining.toRat ≤ qMax.toRat) :
    (initialFilledCum qMax remaining).toRat = qMax.toRat - remaining.toRat := by
  have hval := sub_toRat hexact
  have hscale := sub_scaleOk hexact hq hr
  have hneg : ¬ Decimal.cmp (Decimal.sub qMax remaining)
      (zeroAt (Decimal.sub qMax remaining).scale) < 0 := by
    rw [cmp_zeroAt_neg_iff, hval]
    exact not_lt.mpr h₀
  have hle : ¬ Decimal.cmp (Decimal.sub qMax remaining) qMax > 0 := by
    rw [gt_iff_lt, cmp_pos_iff hscale hq, hval]
    exact not_lt.mpr h₁
  unfold initialFilledCum
  simp only [if_neg hneg, if_neg hle]
  exact hval

theorem units_ne_of_parse {d' : Decimal} (hmin : d.units ≠ int64Min) (hval : d'.toRat = d.toRat)
    (hle : d'.scale ≤ d.scale) : d'.units ≠ int64Min := by
  intro hunits
  have hexp : ((d.scale - d'.scale).toNat : Int) = d.scale - d'.scale :=
    Int.toNat_of_nonneg (by omega)
  rw [toRat_eq_unitsAt d' hle, toRat_eq_unitsAt d (le_refl d.scale),
    mul_left_inj' (pow10_pos _).ne', unitsAt_self] at hval
  have hsame : d'.unitsAt d.scale = d.units := by exact_mod_cast hval
  have hfits := d.fits
  rw [← hsame] at hfits
  unfold Decimal.unitsAt at hsame hfits
  rw [hunits] at hsame hfits
  have hpow : (0 : Int) < 10 ^ (d.scale - d'.scale).toNat := by positivity
  have hone : (10 : Int) ^ (d.scale - d'.scale).toNat = 1 := by
    unfold Int64Fits int64Min int64Max at hfits
    by_contra hne
    have : (2 : Int) ≤ 10 ^ (d.scale - d'.scale).toNat := by omega
    omega
  rw [hone, mul_one] at hsame
  exact hmin hsame.symm

end Decimals

section Invariant

/-- An order that carries its terms, with a volume that is not negative. -/
structure CarriesTerms (t : ProtoFlowOrder) (o : FlowOrder) : Prop where
  legs : o.legs = (FlowOrder.fromProto 0 t).legs
  limits : (o.pLow, o.pHigh) = signedLimits (decide (t.side = .sell)) t.low t.high
  qRate : o.qRate = t.speed
  qMax : o.qMax = t.total
  scale : Decimal.ScaleOk o.filledCum
  filledCum_nonneg : 0 ≤ o.filledCum.toRat

/-- An order that carries its terms, with a volume between zero and its size. -/
structure Carries (t : ProtoFlowOrder) (o : FlowOrder) : Prop extends CarriesTerms t o where
  filledCum_le : o.filledCum.toRat ≤ o.qMax.toRat

def Life.Inv (orderId : String) (s : Life) : Prop :=
  ∀ o, s.active.lookup orderId = some o →
    o.orderId = orderId ∧ ∃ t, s.terms.lookup orderId = some t ∧ TermsOk t ∧ Carries t o

variable {t : ProtoFlowOrder} {o : FlowOrder}

theorem carries_fromProto (now : Int) (h : TermsOk t) : Carries t (fromProto now t) := by
  obtain ⟨hscale, hnonneg, hle⟩ :=
    initialFilledCum_spec h.total h.remaining h.total_nonneg
  exact ⟨⟨rfl, rfl, rfl, rfl, hscale, hnonneg⟩, hle⟩

theorem getD_or {α : Type*} (a b : Option α) (d : α) : (a.or b).getD d = a.getD (b.getD d) := by
  cases a <;> rfl

theorem Carries.amend {a : AmendFlowOrder} (h : Carries t o)
    (hfilled : o.filledCum.toRat ≤ (t.amend a).total.toRat)
    (hlimits : t.side = .sell → a.newPriceLow = none ∧ a.newPriceHigh = none) :
    Carries (t.amend a) (o.amend a) := by
  have htotal : (o.amend a).qMax = (t.amend a).total := by
    show a.newTotalQty.getD o.qMax = (a.newTotalQty.or t.totalQty).getD .zero
    rw [getD_or, h.qMax]
    rfl
  have hlow : (t.amend a).low = a.newPriceLow.getD t.low := getD_or _ _ _
  have hhigh : (t.amend a).high = a.newPriceHigh.getD t.high := getD_or _ _ _
  refine ⟨⟨h.legs, ?_, ?_, htotal, h.scale, h.filledCum_nonneg⟩, ?_⟩
  · have hold := h.limits
    rw [hlow, hhigh]
    show (a.newPriceLow.getD o.pLow, a.newPriceHigh.getD o.pHigh) =
      signedLimits (decide (t.side = .sell)) _ _
    by_cases hside : t.side = .sell
    · obtain ⟨hnone, hnone'⟩ := hlimits hside
      rw [hnone, hnone']
      exact hold
    · rw [decide_eq_false hside] at hold ⊢
      obtain ⟨h₁, h₂⟩ := Prod.mk.inj hold
      rw [h₁, h₂]
      rfl
  · show a.newMaxSpeed.getD o.qRate = (a.newMaxSpeed.or t.maxSpeed).getD .zero
    rw [getD_or, h.qRate]
    rfl
  · rw [htotal]
    exact hfilled

theorem CarriesTerms.update {u : OrderStateUpdate} (h : CarriesTerms t o)
    (htotal : ∀ total, u.filledQtyTotal = some total → Decimal.ScaleOk total ∧ 0 ≤ total.toRat) :
    CarriesTerms t (o.update u) := by
  have hfilled : Decimal.ScaleOk (o.update u).filledCum ∧ 0 ≤ (o.update u).filledCum.toRat := by
    show Decimal.ScaleOk (u.filledQtyTotal.getD o.filledCum) ∧ _
    cases htot : u.filledQtyTotal with
    | none =>
        simp only [FlowOrder.update, htot]
        exact ⟨h.scale, h.filledCum_nonneg⟩
    | some total =>
        simp only [FlowOrder.update, htot]
        exact htotal total htot
  exact ⟨h.legs, h.limits, h.qRate, h.qMax, hfilled.1, hfilled.2⟩

theorem CarriesTerms.updates
    {us : List OrderStateUpdate} (h : CarriesTerms t o)
    (htotals : ∀ u ∈ us, ∀ total, u.filledQtyTotal = some total →
      Decimal.ScaleOk total ∧ 0 ≤ total.toRat) :
    CarriesTerms t (us.foldl FlowOrder.update o) := by
  induction us generalizing o with
  | nil => exact h
  | cons u us ih =>
      exact ih (h.update (htotals u mem_cons_self)) (fun v hv => htotals v (mem_cons_of_mem _ hv))

theorem filledCum_lt_of_hasRemaining (hq : Decimal.ScaleOk o.qMax)
    (hf : Decimal.ScaleOk o.filledCum) (h : hasRemaining o = true) :
    o.filledCum.toRat < o.qMax.toRat := by
  have hcmp : 0 < Decimal.cmp o.remainingQty (Decimal.of 1 6) := of_decide_eq_true h
  have hscale := sub_scaleOk' hq hf
  have heps : 0 < (Decimal.of 1 6).toRat := by decide +kernel
  have hepsScale : Decimal.ScaleOk (Decimal.of 1 6) := by decide
  have hzero : Decimal.ScaleOk (Decimal.zeroAt (Decimal.sub o.qMax o.filledCum).scale) := hscale
  apply lt_of_sub_pos hq hf
  unfold remainingQty at hcmp
  dsimp only at hcmp
  split at hcmp
  · rw [Decimal.cmp_pos_iff hzero hepsScale, Decimal.toRat_zeroAt] at hcmp
    linarith
  · rw [Decimal.cmp_pos_iff hscale hepsScale] at hcmp
    linarith

theorem orderId_foldl_update (us : List OrderStateUpdate) (o : FlowOrder) :
    (us.foldl update o).orderId = o.orderId := by
  induction us generalizing o with
  | nil => rfl
  | cons u us ih => exact ih (o.update u)

theorem life_step {orderId : String} {s : Life} {e : LifeEvent} (hinv : s.Inv orderId)
    (hok : LifeOk orderId s e) : (s.step e).Inv orderId := by
  intro o ho
  cases e with
  | order now e =>
      cases e with
      | create t =>
          change (s.active.insert t.orderId (fromProto now t)).lookup orderId = some o at ho
          show o.orderId = orderId ∧ ∃ t', (s.terms.insert t.orderId t).lookup orderId = some t' ∧ _
          by_cases hid : t.orderId = orderId
          · subst hid
            rw [lookup_insert] at ho ⊢
            cases ho
            exact ⟨rfl, t, rfl, hok rfl, carries_fromProto now (hok rfl)⟩
          · rw [lookup_insert_ne (Ne.symm hid)] at ho ⊢
            exact hinv o ho
      | cancel id =>
          change (s.active.erase id).lookup orderId = some o at ho
          by_cases hid : orderId = id
          · rw [hid, lookup_erase] at ho
            cases ho
          · rw [lookup_erase_ne hid] at ho
            exact hinv o ho
      | amend a =>
          by_cases hid : a.orderId = orderId
          · subst hid
            cases hactive : s.active.lookup a.orderId with
            | none =>
                simp [Life.step, onOrderEvent, hactive] at ho
            | some old =>
                obtain ⟨hkey, t, hterms, -, hcarries⟩ := hinv old hactive
                obtain ⟨hrange, hfilled, hlimits⟩ := hok rfl old t hactive hterms
                have ho' : o = old.amend a := by
                  simpa [Life.step, onOrderEvent, hactive, eq_comm] using ho
                have hterms' : (s.step (.order now (.amend a))).terms.lookup a.orderId =
                    some (t.amend a) := by
                  simp [Life.step, termsAfter, hterms]
                rw [ho']
                exact ⟨hkey, t.amend a, hterms', hrange, hcarries.amend hfilled hlimits⟩
          · have hactive : (onOrderEvent now s.active (.amend a)).lookup orderId =
                s.active.lookup orderId := by
              unfold onOrderEvent
              dsimp only
              split
              · rfl
              · exact lookup_insert_ne (Ne.symm hid)
            have hterms : (termsAfter s.terms (.amend a)).lookup orderId =
                s.terms.lookup orderId := by
              unfold termsAfter
              dsimp only
              split
              · rfl
              · exact lookup_insert_ne (Ne.symm hid)
            change (onOrderEvent now s.active (.amend a)).lookup orderId = some o at ho
            show o.orderId = orderId ∧
              ∃ t, (termsAfter s.terms (.amend a)).lookup orderId = some t ∧ _
            rw [hactive] at ho
            rw [hterms]
            exact hinv o ho
  | fills updates =>
      change (applyOrderUpdates updates s.active).lookup orderId = some o at ho
      unfold applyOrderUpdates at ho
      rw [Table.lookup_filter, Option.filter_eq_some_iff] at ho
      cases hactive : s.active.lookup orderId with
      | none =>
          rw [lookup_foldl_updates_none hactive] at ho
          cases ho.1
      | some old =>
          obtain ⟨hkey, t, hterms, hrange, hcarries⟩ := hinv old hactive
          have hsame := lookup_foldl_updates hactive ho.1
          have hterms' : CarriesTerms t o := by
            rw [hsame]
            refine hcarries.toCarriesTerms.updates ?_
            intro u hu total htotal
            obtain ⟨hmem, hid⟩ := mem_filter.mp hu
            exact hok u hmem (by simpa using hid) total htotal
          have hnotfull : o.filledCum.toRat < o.qMax.toRat := by
            refine filledCum_lt_of_hasRemaining ?_ hterms'.scale ho.2
            rw [hterms'.qMax]
            exact hrange.total
          have hkey' : o.orderId = orderId := by
            rw [hsame, orderId_foldl_update]
            exact hkey
          exact ⟨hkey', t, hterms, hrange, hterms', hnotfull.le⟩

theorem Carries.sell_limits (h : Carries t o) (hrange : TermsOk t) (hside : t.side = .sell) :
    o.pLow.toRat = -t.high.toRat ∧ o.pHigh.toRat = -t.low.toRat := by
  have hlimits := h.limits
  rw [decide_eq_true hside] at hlimits
  obtain ⟨hlow, hhigh⟩ := Prod.mk.inj hlimits
  rw [hlow, hhigh]
  exact ⟨negated_toRat hrange.high.1.1 hrange.high.2, negated_toRat hrange.low.1.1 hrange.low.2⟩

theorem Carries.buy_limits (h : Carries t o) (hside : t.side ≠ .sell) :
    o.pLow = t.low ∧ o.pHigh = t.high := by
  have hlimits := h.limits
  rw [decide_eq_false hside] at hlimits
  exact Prod.mk.inj hlimits

theorem Carries.same_fromProto
    (h : Carries t o) (hrange : TermsOk t) (now : Int) {remaining : Decimal}
    (hr : Decimal.ScaleOk remaining) (hexact : Decimal.SubExact t.total remaining)
    (hfills : t.total.toRat - remaining.toRat = o.filledCum.toRat) :
    SameOrder o (fromProto now { t with remainingQty := some remaining }) := by
  have hnonneg := h.filledCum_nonneg
  have hle := h.filledCum_le
  rw [h.qMax] at hle
  obtain ⟨hlow, hhigh⟩ := Prod.mk.inj h.limits
  have hvolume : (initialFilledCum t.total remaining).toRat = o.filledCum.toRat := by
    rw [initialFilledCum_toRat hrange.total hr hexact (by linarith) (by linarith), hfills]
  exact ⟨h.legs, congrArg Decimal.toRat hlow, congrArg Decimal.toRat hhigh,
    congrArg Decimal.toRat h.qRate, congrArg Decimal.toRat h.qMax, hvolume.symm⟩

theorem parse_stored
    {d d' : Decimal} (hd : Decimal.ScaleOk d) (h : parsePgNumeric (toPgNumeric d) = some d') :
    d'.toRat = d.toRat ∧ 0 ≤ d'.scale ∧ d'.scale ≤ d.scale := by
  obtain ⟨e, hparse, hval, hscale⟩ :=
    parsePgNumeric_toPgNumeric hd.2 (show Decimal.OfScale d.scale d from ⟨hd.1, le_rfl⟩)
  rw [h] at hparse
  cases hparse
  exact ⟨hval, hscale⟩

theorem parse_sideToLegWeight (side : Side) :
    parsePgNumeric (sideToLegWeight side) =
      some (if decide (side = .sell) then ⟨-1, 0, by decide⟩ else ⟨1, 0, by decide⟩) := by
  cases side <;> decide +kernel

theorem legs_of_insertedRow
    (now : Int) {legs : List FlowOrderLeg} (hsymbol : t.instrument.symbol ≠ "")
    (h : (insertedRow now t).legs.mapM load = some legs) :
    legs = (fromProto 0 t).legs := by
  have hname : instrumentSymbol t.instrument = t.instrument.symbol := by
    unfold instrumentSymbol
    exact if_neg (fun h => hsymbol h.1)
  show legs = [{ instrumentSymbol := instrumentSymbol t.instrument, weight := _ }]
  rw [hname]
  simpa [insertedRow, load, parse_sideToLegWeight, eq_comm] using h

theorem firstLegIsSell_fromProto (now : Int) (t : ProtoFlowOrder) :
    firstLegIsSell (fromProto now t).legs = decide (t.side = .sell) := by
  show decide (Decimal.cmp (if decide (t.side = .sell) then _ else _) .zero < 0) = _
  by_cases hside : t.side = .sell
  · rw [decide_eq_true hside]
    decide
  · rw [decide_eq_false hside]
    decide

theorem Carries.same_loaded (h : Carries t o) (hrange : TermsOk t) (now : Int) {p : FlowOrder}
    {orderId : String} (hsymbol : t.instrument.symbol ≠ "")
    (hload : (filledRow now t o.filledCum).load orderId = some p) : SameOrder o p := by
  have hloads := loads_of_load hload
  obtain ⟨legs, hlegs, hsorted⟩ := hloads.legs
  have hsame : p.legs = (fromProto 0 t).legs := by
    rw [hsorted, legs_of_insertedRow now hsymbol hlegs]
    rfl
  obtain ⟨low, high, hlow, hhigh, hlimits⟩ := hloads.limits
  obtain ⟨hlowval, hlow₀, hlowle⟩ := parse_stored hrange.low.1 hlow
  obtain ⟨hhighval, hhigh₀, hhighle⟩ := parse_stored hrange.high.1 hhigh
  rw [hsame, firstLegIsSell_fromProto] at hlimits
  have hpq : o.pLow.toRat = p.pLow.toRat ∧ o.pHigh.toRat = p.pHigh.toRat := by
    by_cases hside : t.side = .sell
    · obtain ⟨h₁, h₂⟩ := h.sell_limits hrange hside
      rw [decide_eq_true hside] at hlimits
      obtain ⟨h₃, h₄⟩ := Prod.mk.inj hlimits
      rw [h₁, h₂, h₃, h₄,
        negated_toRat hhigh₀ (units_ne_of_parse hrange.high.2 hhighval hhighle),
        negated_toRat hlow₀ (units_ne_of_parse hrange.low.2 hlowval hlowle), hlowval, hhighval]
      exact ⟨rfl, rfl⟩
    · obtain ⟨h₁, h₂⟩ := h.buy_limits hside
      rw [decide_eq_false hside] at hlimits
      obtain ⟨h₃, h₄⟩ := Prod.mk.inj hlimits
      rw [h₁, h₂, h₃, h₄, hlowval, hhighval]
      exact ⟨rfl, rfl⟩
  refine ⟨h.legs.trans hsame.symm, hpq.1, hpq.2, ?_, ?_, ?_⟩
  · rw [h.qRate, (parse_stored hrange.speed hloads.qRate).1]
  · rw [h.qMax, (parse_stored hrange.total hloads.qMax).1]
  · exact ((parse_stored h.scale hloads.filledCum).1).symm

theorem Carries.wellFormed (h : Carries t o) (hrange : TermsOk t) : WellFormed t o :=
  { sell := h.sell_limits hrange
    buy := h.buy_limits
    filledCum_nonneg := h.filledCum_nonneg
    filledCum_le := h.filledCum_le
    fromProto := fun now _ hr hexact hfills => h.same_fromProto hrange now hr hexact hfills
    loaded := fun now _ hsymbol hload => h.same_loaded hrange now hsymbol hload }

end Invariant

section Lives

/-- In every life whose events meet the condition, an active order is as its
client's terms have it. -/
theorem life_wellFormed {orderId : String} {es : List LifeEvent}
    (hmeet : StepsMeet Life.step (LifeOk orderId) Life.start es) :
    ∀ o, (run Life.step Life.start es).active.lookup orderId = some o →
      ∃ t, (run Life.step Life.start es).terms.lookup orderId = some t ∧ WellFormed t o := by
  have hstart : Life.start.Inv orderId := by
    intro o ho
    cases ho
  have hinv := run_invariant (Life.Inv orderId) (fun _ _ => life_step) hstart hmeet
  intro o ho
  obtain ⟨-, t, hterms, hrange, hcarries⟩ := hinv o ho
  exact ⟨t, hterms, hcarries.wellFormed hrange⟩

def sellTerms : ProtoFlowOrder :=
  { orderId := "o1"
    userId := "u1"
    instrument := { symbol := "BTC/USDT", base := "BTC", quote := "USDT" }
    side := .sell
    priceLow := some (Decimal.of 110 0)
    priceHigh := some (Decimal.of 120 0)
    maxSpeed := some (Decimal.of 1 0)
    totalQty := some (Decimal.of 10 0)
    status := .new }

def fiveFilled : LifeEvent :=
  .fills [{ orderId := "o1", status := .partiallyFilled, filledQtyTotal := some (Decimal.of 5 0) }]

def soundLife : List LifeEvent :=
  [.order 0 (.create sellTerms), fiveFilled,
    .order 0 (.amend
      { orderId := "o1"
        newTotalQty := some (Decimal.of 8 0)
        newMaxSpeed := some (Decimal.of 2 0) })]

/-- The order of that life is active and well formed. -/
theorem soundLife_wellFormed :
    (run Life.step Life.start soundLife).active.lookup "o1" ≠ none ∧
      ∀ o, (run Life.step Life.start soundLife).active.lookup "o1" = some o →
        ∃ t, (run Life.step Life.start soundLife).terms.lookup "o1" = some t ∧
          WellFormed t o := by
  have hterms : TermsOk sellTerms :=
    ⟨by decide, by decide, by decide, by decide, by decide +kernel, by decide⟩
  have hfilled : ∀ o ∈ (run Life.step Life.start (soundLife.take 2)).active.lookup "o1",
      o.filledCum.toRat ≤ (Decimal.of 8 0).toRat := by
    decide +kernel
  have hsame : ∀ t ∈ (run Life.step Life.start (soundLife.take 2)).terms.lookup "o1",
      t = sellTerms := by
    decide +kernel
  refine ⟨by decide +kernel, life_wellFormed ⟨fun _ => hterms, ?_, ?_, trivial⟩⟩
  · intro u hu _ total htotal
    cases List.mem_singleton.mp hu
    cases htotal
    exact ⟨by decide, by decide +kernel⟩
  · intro _ o t ho ht
    cases hsame t ht
    refine ⟨⟨by decide, by decide, by decide, by decide, by decide +kernel, by decide⟩,
      hfilled o ho, fun _ => ⟨rfl, rfl⟩⟩

/-- An amend of the lower limit of a SELL order to 100 writes it unsigned where
the upper limit negated belongs, and an amend of the size to three leaves the
order with five filled. -/
theorem amend_breaks_order :
    ((run Life.step Life.start
        [.order 0 (.create sellTerms),
          .order 0 (.amend { orderId := "o1", newPriceLow := some (Decimal.of 100 0) })]).active.lookup
        "o1").map (fun o => (o.pLow.toRat, o.pHigh.toRat)) = some (100, -110) ∧
      ((run Life.step Life.start
        [.order 0 (.create sellTerms), fiveFilled,
          .order 0 (.amend { orderId := "o1", newTotalQty := some (Decimal.of 3 0) })]).active.lookup
        "o1").map (fun o => (o.filledCum.toRat, o.qMax.toRat)) = some (5, 3) := by
  decide +kernel

end Lives

end Matching
end ContExchange
