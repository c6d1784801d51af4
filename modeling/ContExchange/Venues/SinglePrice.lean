import ContExchange.Common.DoubleError
import ContExchange.Venues.CanonicalForm
import ContExchange.Venues.CurveRebuild

/-!
# Venues: the second level of a side with one price

A side with one price has two points on its curves, and the stages of the second level that
look at three leave it alone.

* `rebuild_rebuild`: curves rebuilt twice from one cost layer are those rebuilt once;
* `Bid.divide`: a cost nearest to a price gives it back;
* `OnePriced.keeps`: a stage that keeps a cost of zero keeps the curves of a bid;
* `buy_unchanged`, `sell_onePriced`: the last stage changes nothing on either side.
-/

namespace ContExchange
namespace Venues

open Common Decimal List
open Backtest (BookLevel)

/-- The levels of a side that count have one price, and their sum fits 64 bits. -/
structure OnePrice (side : DepthBookSide) (levels : List BookLevel)
    (config : DepthCanonicalizationConfig) : Prop where
  fits : (gridOf levels config).Fits side levels
  same : ∀ a ∈ levels, ∀ b ∈ levels, (gridOf levels config).Admits side a →
    (gridOf levels config).Admits side b →
      (gridOf levels config).price side a = (gridOf levels config).price side b

theorem OnePrice.book {side : DepthBookSide} {levels : List BookLevel}
    {config : DepthCanonicalizationConfig} (h : OnePrice side levels config)
    (hne : canonicalizeBookSide levels side config ≠ []) :
    ∃ level, canonicalizeBookSide levels side config = [level] := by
  have hnormal := normalForm h.fits
  generalize canonicalizeBookSide levels side config = book at *
  rcases book with _ | ⟨first, _ | ⟨second, rest⟩⟩
  · exact absurd rfl hne
  · exact ⟨first, rfl⟩
  · obtain ⟨a, ha, hadmits, haPrice⟩ := hnormal.sources first (by simp)
    obtain ⟨b, hb, hadmits', hbPrice⟩ := hnormal.sources second (by simp)
    have hahead := (pairwise_cons.mp hnormal.ordered).1 second (by simp)
    rw [← haPrice, ← hbPrice, h.same a ha b hb hadmits hadmits'] at hahead
    cases side <;> exact absurd hahead (lt_irrefl _)

section Rebuilding

variable {curves curves' : DepthSideCurves} {sOfQ : List SOfQPoint}

theorem side_rebuild (curves : DepthSideCurves) (sOfQ : List SOfQPoint) :
    (rebuildCurvesFromCostLayer curves sOfQ).side = curves.side := by
  cases sOfQ <;> rfl

theorem sOfQ_rebuild (curves : DepthSideCurves) (sOfQ : List SOfQPoint) :
    (rebuildCurvesFromCostLayer curves sOfQ).sOfQ = sOfQ := by
  cases sOfQ <;> rfl

theorem rebuild_congr (hside : curves.side = curves'.side)
    (hscale : priceScaleOf curves = priceScaleOf curves') :
    rebuildCurvesFromCostLayer curves sOfQ = rebuildCurvesFromCostLayer curves' sOfQ := by
  unfold rebuildCurvesFromCostLayer
  rw [hside, hscale]

theorem scale_divideDecimal (a b : Decimal) {places : Int} (h : 0 ≤ places) :
    (divideDecimal a b places).scale = places := by
  unfold divideDecimal
  dsimp only
  rw [max_eq_right h]
  split_ifs <;> rfl

theorem priceScaleOf_rebuild (hne : sOfQ ≠ []) (hshort : sOfQ.length < 3) :
    priceScaleOf (rebuildCurvesFromCostLayer curves sOfQ) = priceScaleOf curves := by
  have hplaces : 6 ≤ priceScaleOf curves := le_max_right _ _
  have hnonneg : 0 ≤ priceScaleOf curves := by omega
  rcases sOfQ with _ | ⟨start, _ | ⟨finish, _ | ⟨third, rest⟩⟩⟩
  · exact absurd rfl hne
  · change max (max 0 (priceScaleOf curves)) 6 = priceScaleOf curves
    omega
  · have hprice := scale_divideDecimal (Decimal.sub finish.cumulativeCost start.cumulativeCost)
      (Decimal.sub finish.qty start.qty) hnonneg
    simp only [rebuildCurvesFromCostLayer, marginalPrices, segmentPrice]
    generalize priceScaleOf curves = places at *
    simp only [priceScaleOf, foldl_cons, foldl_nil, hprice]
    omega
  · simp only [length_cons] at hshort
    omega

theorem rebuild_rebuild (hshort : sOfQ.length < 3) :
    rebuildCurvesFromCostLayer (rebuildCurvesFromCostLayer curves sOfQ) sOfQ =
      rebuildCurvesFromCostLayer curves sOfQ := by
  cases sOfQ with
  | nil => rfl
  | cons first rest =>
      exact rebuild_congr (side_rebuild _ _) (priceScaleOf_rebuild (by simp) hshort)

end Rebuilding

section Short

variable {curves : DepthSideCurves} {sOfQ : List SOfQPoint}

theorem convexify_of_short (h : sOfQ.length < 3) : convexifyCostLayer sOfQ = sOfQ :=
  if_pos h

theorem tikhonov_of_short (h : sOfQ.length < 3) : regularizeCostLayerTikhonovL2 sOfQ = sOfQ :=
  if_pos h

theorem length_moreau_le (sOfQ : List SOfQPoint) :
    (regularizeCostLayerMoreauL2 sOfQ).length ≤ sOfQ.length := by
  unfold regularizeCostLayerMoreauL2
  split_ifs
  · exact le_rfl
  · exact (length_zipWith ..).trans_le (min_le_left _ _)

/-- On the side of the asks the costs are not mirrored, so that a stage that leaves a short layer
as it is leaves the rebuilt curves as they are. -/
theorem buy_unchanged (hside : curves.side = .buy) (hshort : curves.sOfQ.length < 3) :
    applyTikhonovRegularizationL2
        (applyMoreauRegularizationL2 (applyConvexifiedCostLayer curves)) =
      applyMoreauRegularizationL2 (applyConvexifiedCostLayer curves) := by
  have hconvex : (applyConvexifiedCostLayer curves).side = .buy :=
    (side_rebuild _ _).trans hside
  have hconvexShort : (applyConvexifiedCostLayer curves).sOfQ.length < 3 := by
    unfold applyConvexifiedCostLayer applyCostStage
    rw [sOfQ_rebuild]
    unfold mirrorCostLayer
    rw [hside]
    dsimp only
    rwa [convexify_of_short hshort]
  generalize applyConvexifiedCostLayer curves = convex at hconvex hconvexShort
  have hmoreau : applyMoreauRegularizationL2 convex =
      rebuildCurvesFromCostLayer convex (regularizeCostLayerMoreauL2 convex.sOfQ) := by
    unfold applyMoreauRegularizationL2 applyCostStage mirrorCostLayer
    rw [hconvex]
  have hlength := (length_moreau_le convex.sOfQ).trans_lt hconvexShort
  rw [hmoreau]
  unfold applyTikhonovRegularizationL2 applyCostStage mirrorCostLayer
  rw [side_rebuild, hconvex, sOfQ_rebuild]
  dsimp only
  rw [tikhonov_of_short hlength]
  exact rebuild_rebuild hlength

end Short

/-- A decimal of at most eighteen places shows a number. -/
structure Shows (v : ℚ) (d : Decimal) : Prop where
  value : d.toRat = v
  scaleOk : ScaleOk d

section Shown

variable {v w : ℚ} {a b p q : Decimal}

theorem shows_zeroAt {s : Int} (hs : 0 ≤ s) (hplaces : s ≤ 18) : Shows 0 (zeroAt s) :=
  ⟨toRat_zeroAt s, hs, hplaces⟩

theorem Shows.held (h : Shows v a) : Decimal.Held v :=
  ⟨a, h.scaleOk, h.value⟩

theorem Shows.sub (ha : Shows v a) (hb : Shows w b) (h : Decimal.Held (v - w)) :
    Shows (v - w) (Decimal.sub a b) := by
  rw [← ha.value, ← hb.value] at h ⊢
  obtain ⟨hscale, hvalue⟩ := sub_of_held ha.scaleOk hb.scaleOk h
  exact ⟨hvalue, hscale⟩

theorem Shows.sub_nothing (ha : Shows v a) (hb : Shows 0 b) : Shows v (Decimal.sub a b) := by
  have hsub := ha.sub hb (by rw [sub_zero]; exact ha.held)
  rwa [sub_zero] at hsub

theorem Shows.sub_same (ha : Shows v a) (hb : Shows v b) : Shows 0 (Decimal.sub a b) := by
  have hsub := ha.sub hb (by rw [sub_self]; exact held_zero)
  rwa [sub_self] at hsub

/-- The cost of a quantity is rounded to one that is, divided by the quantity, nearest to the
price. -/
def NearCost (price qty : Decimal) : Prop :=
  |(Decimal.mul price qty).toRat - price.toRat * qty.toRat| < qty.toRat / (2 * 10 ^ 8)

/-- A bid of eight places. -/
structure Bid (p q : Decimal) : Prop where
  priceScale : p.scale = 8
  qtyScale : q.scale = 8
  price : 0 < p.units
  qty : 0 < q.units
  near : NearCost p q

theorem Bid.cost_shows (h : Bid p q) : Shows (Decimal.mul p q).toRat (Decimal.mul p q) := by
  obtain ⟨hmul, -⟩ := mul_eq p q
  have hscale := normalizeI128_scale (p.units * q.units) (s := p.scale + q.scale) (by
    rw [h.priceScale, h.qtyScale]
    norm_num)
  rw [← hmul, h.priceScale, h.qtyScale] at hscale
  exact ⟨rfl, hscale.1, hscale.2.trans (by norm_num)⟩

theorem Bid.cost_nonneg (h : Bid p q) : 0 ≤ (Decimal.mul p q).toRat := by
  have hzero : Decimal.zero.toRat ≤ p.toRat * q.toRat := by
    rw [toRat_zero]
    exact mul_nonneg ((toRat_nonneg_iff p).mpr h.price.le) ((toRat_nonneg_iff q).mpr h.qty.le)
  have hfaithful := (mul_faithful (t := .zero) le_rfl h.price.le h.qty.le).1 hzero
  rwa [toRat_zero] at hfaithful

theorem Bid.sub_qty (h : Bid p q) : Decimal.sub q (zeroAt 8) = q := by
  have hunits : q.unitsAt (max q.scale (zeroAt 8).scale) -
      (zeroAt 8).unitsAt (max q.scale (zeroAt 8).scale) = q.units := by
    rw [h.qtyScale]
    change q.unitsAt 8 - 0 * _ = _
    rw [zero_mul, sub_zero, ← h.qtyScale, unitsAt_self]
  have hexact : SubExact q (zeroAt 8) := by
    unfold SubExact
    rw [hunits]
    exact q.fits
  rw [sub_of_exact hexact]
  refine eq_of_units_of_scale hunits ?_
  change max q.scale 8 = q.scale
  rw [h.qtyScale, max_self]

theorem Bid.divide (h : Bid p q) (ha : Shows (Decimal.mul p q).toRat a) :
    divideDecimal a q 8 = p := by
  have hunits : 0 ≤ a.units := (toRat_nonneg_iff a).mp (ha.value ▸ h.cost_nonneg)
  have hq : 0 < q.toRat := mul_pos (Int.cast_pos.mpr h.qty) (pow10_pos _)
  have hfits : QuotientFits a q 8 := by
    obtain ⟨hlow, hhigh⟩ := ha.scaleOk
    have hpow : ∀ n ≤ 16, |(10 : Int) ^ n| ≤ 10 ^ 16 := fun n hn => by
      rw [abs_of_nonneg (by positivity)]
      exact pow_le_pow_right₀ (by norm_num) hn
    have hscaled : ∀ d : Decimal, ∀ n ≤ 16, |d.units * (10 : Int) ^ n| ≤ 2 ^ 126 := fun d n hn => by
      rw [abs_mul]
      exact (mul_le_mul d.abs_units_le (hpow n hn) (abs_nonneg _) (by norm_num)).trans (by norm_num)
    have hwhole : ∀ d : Decimal, |d.units| ≤ 2 ^ 126 :=
      fun d => d.abs_units_le.trans (by norm_num)
    unfold QuotientFits divNum divDen
    rw [h.qtyScale]
    split_ifs
    · exact ⟨hscaled a _ (by omega), hwhole q⟩
    · exact ⟨hwhole a, hscaled q _ (by omega)⟩
  rw [divideDecimal_eq hunits h.qty (by norm_num) hfits]
  have hprice : p.toRat * 10 ^ 8 = p.units := by
    rw [Decimal.toRat, h.priceScale, mul_assoc]
    norm_num
  have hfloor : ⌊a.toRat / q.toRat * (10 : ℚ) ^ (8 : Int) + 1 / 2⌋ = p.units := by
    have hnear := h.near
    unfold NearCost at hnear
    rw [← ha.value, abs_lt, lt_div_iff₀ (by norm_num), ← neg_div, div_lt_iff₀ (by norm_num)] at hnear
    obtain ⟨hlow, hhigh⟩ := hnear
    have hsplit : a.toRat / q.toRat * (10 : ℚ) ^ (8 : Int) + 1 / 2 =
        (2 * a.toRat * 10 ^ 8 + q.toRat) / (2 * q.toRat) := by
      field_simp
    rw [Int.floor_eq_iff, hsplit, le_div_iff₀ (by positivity), div_lt_iff₀ (by positivity),
      ← hprice]
    constructor <;> linarith
  refine eq_of_units_of_scale ?_ h.priceScale.symm
  change clampInt64 _ = _
  rw [hfloor, clampInt64_of_fits p.fits]

end Shown

/-- The cost layer of a side with one price. -/
def twoPoints (q start finish : Decimal) : List SOfQPoint :=
  [{ qty := zeroAt 8, cumulativeCost := start }, { qty := q, cumulativeCost := finish }]

/-- The curves of a bid side with one price. -/
structure OnePriced (p q : Decimal) (curves : DepthSideCurves) : Prop where
  side : curves.side = .sell
  pOfQ : curves.pOfQ = [{ qty := zeroAt 8, price := p }, { qty := q, price := p }]
  sOfQ : ∃ start finish, curves.sOfQ = twoPoints q start finish ∧ Shows 0 start ∧
    Shows (Decimal.mul p q).toRat finish

/-- A stage leaves a cost of zero at zero. -/
def KeepsZero (stage : List SOfQPoint → List SOfQPoint) (q : Decimal) : Prop :=
  ∀ start finish, Shows 0 start → Shows 0 finish →
    ∃ start' finish', stage (twoPoints q start finish) = twoPoints q start' finish' ∧
      Shows 0 start' ∧ Shows 0 finish'

section Stages

variable {p q : Decimal} {curves : DepthSideCurves} {stage : List SOfQPoint → List SOfQPoint}

theorem OnePriced.keeps (h : OnePriced p q curves) (hbid : Bid p q)
    (hkeeps : KeepsZero stage q) : OnePriced p q (applyCostStage stage curves) := by
  obtain ⟨start, finish, hsOfQ, hstart, hfinish⟩ := h.sOfQ
  have hmirror : ∀ start finish, mirrorCostLayer curves (twoPoints q start finish) =
      twoPoints q (Decimal.sub (zeroAt 16) start) (Decimal.sub (Decimal.mul p q) finish) := by
    intro start finish
    have hnothing : Decimal.mul p (zeroAt 8) = zeroAt 16 := by
      have hmul := mul_startQty { price := p, qty := q }
      unfold startQty at hmul
      dsimp only at hmul
      rwa [hbid.priceScale, hbid.qtyScale] at hmul
    have hreference : sellSideReferencePrice curves = p := by
      unfold sellSideReferencePrice
      rw [h.pOfQ]
    unfold mirrorCostLayer
    rw [h.side, hreference]
    simp only [twoPoints, map_cons, map_nil, hnothing]
  have hzero : Shows 0 (zeroAt 16) := shows_zeroAt (by norm_num) (by norm_num)
  obtain ⟨start', finish', hstage, hstart', hfinish'⟩ :=
    hkeeps _ _ (hzero.sub_nothing hstart) (hbid.cost_shows.sub_same hfinish)
  have hlayer : mirrorCostLayer curves (stage (mirrorCostLayer curves curves.sOfQ)) =
      twoPoints q (Decimal.sub (zeroAt 16) start')
        (Decimal.sub (Decimal.mul p q) finish') := by
    rw [hsOfQ, hmirror, hstage, hmirror]
  have hstartShown := hzero.sub_nothing hstart'
  have hfinal := hbid.cost_shows.sub_nothing hfinish'
  have hscale : priceScaleOf curves = 8 := by
    unfold priceScaleOf
    rw [h.pOfQ]
    simp [hbid.priceScale]
  have hprice : divideDecimal (Decimal.sub (Decimal.sub (Decimal.mul p q) finish')
      (Decimal.sub (zeroAt 16) start')) (Decimal.sub q (zeroAt 8)) 8 = p := by
    rw [hbid.sub_qty]
    exact hbid.divide (hfinal.sub_nothing hstartShown)
  unfold applyCostStage
  rw [hlayer]
  refine ⟨(side_rebuild _ _).trans h.side, ?_, _, _, sOfQ_rebuild _ _, hstartShown, hfinal⟩
  simp only [rebuildCurvesFromCostLayer, twoPoints, marginalPrices, segmentPrice, hscale, hprice]

theorem onePriced_build (hbid : Bid p q) :
    OnePriced p q (buildDepthSideCurvesImpl [{ price := p, qty := q }] .sell) := by
  have hmin : Decimal.min p p = p := by
    unfold Decimal.min
    split_ifs <;> rfl
  have hcost := hbid.cost_shows
  have hscale : max 0 (Decimal.mul p q).scale = (Decimal.mul p q).scale :=
    max_eq_right hcost.scaleOk.1
  have hqty : Decimal.add (zeroAt q.scale) q = q := (add_zeroAt q).2
  have hsum : Decimal.add (zeroAt (max 0 (Decimal.mul p q).scale)) (Decimal.mul p q) =
      Decimal.mul p q := by
    rw [hscale]
    exact (add_zeroAt _).2
  refine ⟨rfl, ?_, zeroAt (max 0 (Decimal.mul p q).scale), Decimal.mul p q, ?_, ?_, hcost⟩
  · simp only [buildDepthSideCurvesImpl, addLevels, monotonicPrice, hmin, hbid.qtyScale]
    rw [← hbid.qtyScale, hqty]
  · simp only [buildDepthSideCurvesImpl, addLevels, monotonicPrice, hmin, hsum, twoPoints]
    rw [hqty, hbid.qtyScale]
  · rw [hscale]
    exact shows_zeroAt hcost.scaleOk.1 hcost.scaleOk.2

theorem keepsZero_of_short (h : ∀ sOfQ : List SOfQPoint, sOfQ.length < 3 → stage sOfQ = sOfQ) :
    KeepsZero stage q :=
  fun start finish hstart hfinish => ⟨start, finish, h _ (by simp [twoPoints]), hstart, hfinish⟩

end Stages

section Moreau

open Double (lt_num_iff position_le_of_lt ofRat_nonneg le_huge)

variable {d : Decimal}

theorem asDouble_of_zero (h : Shows 0 d) : asDouble d = .num 0 := by
  have hunits : d.units = 0 := (toRat_eq_zero_iff d).mp h.value
  have hpow : (10 : ℚ) ^ (-d.scale) ≤ 1 :=
    zpow_le_one_of_nonpos₀ (by norm_num) (neg_nonpos.mpr h.scaleOk.1)
  obtain ⟨v, hv, -⟩ := ofRat_nonneg (pow10_pos (-d.scale)).le (le_huge (hpow.trans (by norm_num)))
  unfold asDouble
  rw [hunits, hv]
  change Double.ofRat (0 * v) = _
  rw [zero_mul]
  rfl

theorem toDecimalWithScale_zero {s : Int} (hplaces : s ≤ 18) :
    toDecimalWithScale (.num 0) s = zeroAt s := by
  have hpow : (10 : ℚ) ^ s ≤ 2 ^ 200 :=
    (zpow_le_zpow_right₀ (by norm_num) hplaces).trans (by norm_num)
  obtain ⟨v, hv, -⟩ := ofRat_nonneg (zpow_nonneg (by norm_num) s) (le_huge hpow)
  have hproduct : (Double.num 0).mul (Double.ofRat ((10 : ℚ) ^ s)) = .num 0 := by
    rw [hv]
    change Double.ofRat (0 * v) = _
    rw [zero_mul]
    rfl
  have hround : Matching.llround 0 = 0 := by decide +kernel
  have hfits : Int64Fits (Matching.llround 0) := by rw [hround]; exact int64Fits_zero
  unfold toDecimalWithScale
  rw [hproduct]
  dsimp only
  rw [if_neg (by rw [hround]; norm_num), dif_pos hfits]
  exact eq_of_units_of_scale hround rfl

/-- The envelope is nowhere above the cost, so that a cost of zero that may not fall stays. -/
theorem moreauEnvelope_of_zero (mu xi : Double) (points : List (Double × Double)) :
    (if (moreauEnvelope mu xi (.num 0) points).lt (.num 0) then .num 0
      else moreauEnvelope mu xi (.num 0) points) = Double.num 0 := by
  have hbelow : moreauEnvelope mu xi (.num 0) points = .num 0 ∨
      (moreauEnvelope mu xi (.num 0) points).lt (.num 0) = true := by
    refine List.foldlRecOn (motive := fun best : Double => best = .num 0 ∨ best.lt (.num 0) = true)
      points _ (.inl rfl) fun best hbest point _ => ?_
    dsimp only
    split_ifs with hlt
    · rcases hbest with rfl | hless
      · exact .inr hlt
      · exact .inr (lt_num_iff.mpr ((position_le_of_lt hlt).trans_lt (lt_num_iff.mp hless)))
    · exact hbest
  rcases hbelow with heq | hless
  · rw [heq]
    exact ite_self _
  · exact if_pos hless

theorem moreau_keepsZero (q : Decimal) : KeepsZero regularizeCostLayerMoreauL2 q := by
  intro start finish hstart hfinish
  have hcosts : extractCostValues (twoPoints q start finish) = [.num 0, .num 0] := by
    simp only [extractCostValues, twoPoints, map_cons, map_nil, asDouble_of_zero hstart,
      asDouble_of_zero hfinish]
  have hscale : detectCostOutputScale (twoPoints q start finish) =
      max (max 6 start.scale) finish.scale := by
    unfold detectCostOutputScale
    simp only [twoPoints, foldl_cons, foldl_nil, asDouble_of_zero hstart,
      asDouble_of_zero hfinish, Double.abs, abs_zero]
    rfl
  have hlow : (0 : Int) ≤ max (max 6 start.scale) finish.scale := by omega
  have hhigh : max (max 6 start.scale) finish.scale ≤ 18 := by
    have := hstart.scaleOk.2
    have := hfinish.scaleOk.2
    omega
  refine ⟨_, _, ?_, shows_zeroAt hlow hhigh, shows_zeroAt hlow hhigh⟩
  unfold regularizeCostLayerMoreauL2
  rw [if_neg (by simp [twoPoints]), hcosts, hscale]
  have hgrid : extractQtyGrid (twoPoints q start finish) = [asDouble (zeroAt 8), asDouble q] := rfl
  rw [hgrid]
  simp only [zip_cons_cons, zip_nil_right, map_cons, map_nil, anchored, enforceNonDecreasing,
    enforceFrom, moreauEnvelope_of_zero, withCosts, twoPoints, zipWith_cons_cons,
    zipWith_nil_right, toDecimalWithScale_zero hhigh]

end Moreau

/-- The two stages keep the curves of a bid side with one price, and so does the third. -/
theorem sell_onePriced {p q : Decimal} (hbid : Bid p q) :
    let moreau := applyMoreauRegularizationL2
      (applyConvexifiedCostLayer (buildDepthSideCurvesImpl [{ price := p, qty := q }] .sell))
    OnePriced p q moreau ∧ OnePriced p q (applyTikhonovRegularizationL2 moreau) := by
  have hconvex := (onePriced_build hbid).keeps hbid
    (keepsZero_of_short fun _ h => convexify_of_short h)
  have hmoreau := hconvex.keeps hbid (moreau_keepsZero q)
  exact ⟨hmoreau, hmoreau.keeps hbid (keepsZero_of_short fun _ h => tikhonov_of_short h)⟩

end Venues
end ContExchange
