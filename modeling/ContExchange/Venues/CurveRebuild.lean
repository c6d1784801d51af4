import ContExchange.Common.DecimalOrder
import ContExchange.Common.DecimalSums
import ContExchange.Venues.DepthCurveBuilder

/-!
# Venues: rebuilding the curves from their own cost

`RebuildCurvesFromCostLayer` recovers the price from the differences of the cost and derives the
speeds `L(v)` again.  Given the cost of the curves themselves it gives back what
`BuildDepthSideCurvesImpl` made, where the sums, the prices at the rebuilt scale and the
quotients by `tau` are held by their integers.

* `divideDecimal_eq`, `divideDecimal_exact`: the rounded quotient as a floor, and where it is
  exact;
* `ladder_spec`: the built points are the exact sums of the first levels;
* `rebuild_prices`, `speeds_unchanged`, `mirror_twice`: the curves one by one;
* `rebuild_unchanged`: the rebuilt curves are the built ones.

The curves here have the Lagrangian and its interpolation beside `p(q)` and `S(q)`.
-/

namespace ContExchange
namespace Venues

open Common Decimal List Int
open Backtest (BookLevel)

structure LOfVPoint where
  speed : Decimal
  lagrangian : Decimal
deriving DecidableEq

/-- `DepthSideCurves` with the horizon and the speeds. -/
structure SpeedCurves extends DepthSideCurves where
  tauSec : Decimal
  lOfV : List LOfVPoint := []
  lOfVMonotone : List LOfVPoint := []
deriving DecidableEq

/-- The slope of `BuildMonotoneLagrangianInterpolationImpl` at an inner knot. -/
def innerSlope (h0 d0 h1 d1 : Double) : Double :=
  if (d0.mul d1).le Double.zero then Double.zero
  else
    let w1 := ((Double.ofRat 2).mul h1).add h0
    let w2 := h1.add ((Double.ofRat 2).mul h0)
    (w1.add w2).div ((w1.div d0).add (w2.div d1))

/-- The slopes at the inner knots, from the widths and slopes of the segments. -/
def innerSlopes : List (Double × Double) → List Double
  | (h0, d0) :: (h1, d1) :: rest => innerSlope h0 d0 h1 d1 :: innerSlopes ((h1, d1) :: rest)
  | _ => []

def knotSlopes (segments : List (Double × Double)) : List Double :=
  ((segments.head?.map Prod.snd).toList ++ innerSlopes segments) ++
    (segments.getLast?.map Prod.snd).toList

structure Knot where
  x : Double
  y : Double
  m : Double

/-- A point of the cubic between two knots, kept between their values. -/
def hermitePoint (a b : Knot) (t : Double) : Double × Double :=
  let h := b.x.sub a.x
  let t2 := t.mul t
  let t3 := t2.mul t
  let h00 := (((Double.ofRat 2).mul t3).sub ((Double.ofRat 3).mul t2)).add Double.one
  let h10 := (t3.sub ((Double.ofRat 2).mul t2)).add t
  let h01 := ((Double.ofRat (-2)).mul t3).add ((Double.ofRat 3).mul t2)
  let h11 := t3.sub t2
  let y := (((h00.mul a.y).add ((h10.mul h).mul a.m)).add (h01.mul b.y)).add
    ((h11.mul h).mul b.m)
  let low := a.y.min b.y
  let high := a.y.max b.y
  (a.x.add (t.mul h), if y.lt low then low else if high.lt y then high else y)

/-- The points of the segments in order. -/
def hermitePoints (subdivisions : Nat) : List Knot → List (Double × Double)
  | a :: b :: rest =>
      (List.range subdivisions).map (fun s =>
        hermitePoint a b ((Double.ofRat (s + 1 : Nat)).div (Double.ofRat subdivisions))) ++
        hermitePoints subdivisions (b :: rest)
  | _ => []

/-- `push_point` behind a point: the Lagrangian does not fall. -/
def pushPoints (last : Decimal) : List (Double × Double) → List LOfVPoint
  | [] => []
  | (x, y) :: rest =>
      let value := toDecimalWithScale y 6
      let lagrangian := if Decimal.cmp value last < 0 then last else value
      { speed := toDecimalWithScale x 6, lagrangian } :: pushPoints lagrangian rest

def buildMonotoneLagrangianInterpolationImpl (knots : List LOfVPoint)
    (subdivisionsPerSegment : Nat) : List LOfVPoint :=
  let subdivisions := max 1 subdivisionsPerSegment
  let x := knots.map (fun p => asDouble p.speed)
  let y := knots.map (fun p => asDouble p.lagrangian)
  let h := differences x
  match x, y with
  | x0 :: _ :: _, y0 :: _ =>
      if h.any (fun v => v.le Double.zero) then knots
      else
        let slopes := knotSlopes (h.zip (List.zipWith Double.div (differences y) h))
        let points := List.zipWith (fun (x, y) m => Knot.mk x y m) (x.zip y) slopes
        let first := toDecimalWithScale y0 6
        { speed := toDecimalWithScale x0 6, lagrangian := first } ::
          pushPoints first (hermitePoints subdivisions points)
  | _, _ => knots

/-- The horizon, one second where it is not positive. -/
def horizon (tauSec : Decimal) : Decimal :=
  if 0 < tauSec.units then tauSec else Decimal.of 1 0

/-- A point of the cost divided by the horizon. -/
def speedPoint (tau : Decimal) (p : SOfQPoint) : LOfVPoint where
  speed := divideDecimal p.qty tau 6
  lagrangian := divideDecimal p.cumulativeCost tau 6

/-- The speeds that `BuildDepthSideCurvesImpl` makes: behind a point the Lagrangian does not
fall. -/
def builtSpeeds (tau : Decimal) (previous : Option Decimal) : List SOfQPoint → List LOfVPoint
  | [] => []
  | p :: rest =>
      let point := speedPoint tau p
      let lagrangian :=
        match previous with
        | none => point.lagrangian
        | some last => if Decimal.cmp point.lagrangian last < 0 then last else point.lagrangian
      { point with lagrangian } :: builtSpeeds tau (some lagrangian) rest

/-- `BuildDepthSideCurvesImpl`, with the speeds. -/
def buildSpeedCurves (levels : List BookLevel) (side : ExecutionSide) (tauSec : Decimal) :
    SpeedCurves :=
  let curves := buildDepthSideCurvesImpl levels side
  let lOfV := builtSpeeds (horizon tauSec) none curves.sOfQ
  { curves with
    tauSec := horizon tauSec
    lOfV
    lOfVMonotone := buildMonotoneLagrangianInterpolationImpl lOfV 8 }

/-- `RebuildCurvesFromCostLayer`, with the speeds. -/
def rebuildSpeedCurves (curves : SpeedCurves) (sOfQ : List SOfQPoint) : SpeedCurves :=
  let lOfV := sOfQ.map (speedPoint (horizon curves.tauSec))
  { rebuildCurvesFromCostLayer curves.toDepthSideCurves sOfQ with
    tauSec := curves.tauSec
    lOfV
    lOfVMonotone := buildMonotoneLagrangianInterpolationImpl lOfV 8 }

def normalizeCostLayerForL2 (curves : DepthSideCurves) : List SOfQPoint :=
  mirrorCostLayer curves curves.sOfQ

def denormalizeCostLayerFromL2 (curves : DepthSideCurves) (sOfQ : List SOfQPoint) :
    List SOfQPoint :=
  mirrorCostLayer curves sOfQ

/-- The numerator and the denominator of a quotient fit the 128-bit intermediates. -/
def QuotientFits (a b : Decimal) (places : Int) : Prop :=
  |Decimal.divNum a b places| ≤ 2 ^ 126 ∧ |Decimal.divDen a b places| ≤ 2 ^ 126
deriving Decidable

section Quotients

variable {a b : Decimal} {places : Int}

theorem roundedQuotient_eq {num den : Int} (hden : 0 < den) :
    (num + den / 2) / den = ⌊(num : ℚ) / den + 1 / 2⌋ := by
  symm
  rw [floor_eq_iff]
  have hsplit := mul_ediv_add_emod (num + den / 2) den
  have hnonneg := emod_nonneg (num + den / 2) hden.ne'
  have hlt := emod_lt_of_pos (num + den / 2) hden
  have hhalf : 2 * (den / 2) ≤ den ∧ den ≤ 2 * (den / 2) + 1 := by omega
  generalize (num + den / 2) / den = q at *
  have hform : (num : ℚ) / den + 1 / 2 = (2 * num + den) / (2 * den) := by
    field_simp
  rw [hform, le_div_iff₀ (by positivity), div_lt_iff₀ (by positivity)]
  constructor
  · have hlow : q * (2 * den) ≤ 2 * num + den := by nlinarith
    exact_mod_cast hlow
  · have hhigh : 2 * num + den < (q + 1) * (2 * den) := by nlinarith
    exact_mod_cast hhigh

theorem i128_mul_pow10I128 (units k : Int) :
    i128 (units * Decimal.pow10I128 k) = i128 (units * 10 ^ k.toNat) := by
  unfold Decimal.pow10I128 i128
  exact mul_bmod_bmod

theorem divNum_nonneg (ha : 0 ≤ a.units) : 0 ≤ Decimal.divNum a b places := by
  unfold Decimal.divNum
  split
  · positivity
  · exact ha

theorem divDen_pos (hb : 0 < b.units) : 0 < Decimal.divDen a b places := by
  unfold Decimal.divDen
  split
  · exact hb
  · positivity

theorem divideDecimal_eq (ha : 0 ≤ a.units) (hb : 0 < b.units) (hplaces : 0 ≤ places)
    (h : QuotientFits a b places) :
    divideDecimal a b places =
      ⟨clampInt64 ⌊a.toRat / b.toRat * (10 : ℚ) ^ places + 1 / 2⌋, places, clampInt64_fits _⟩ := by
  obtain ⟨hnum, hden⟩ := h
  have hnumNonneg : 0 ≤ Decimal.divNum a b places := divNum_nonneg ha
  have hdenPos : 0 < Decimal.divDen a b places := divDen_pos hb
  have hdelta : b.scale + places - a.scale = places - a.scale + b.scale := by ring
  -- the intermediates are the exact ones
  have hnumEq : (if 0 ≤ b.scale + places - a.scale then
      i128 (a.units * Decimal.pow10I128 (b.scale + places - a.scale)) else a.units) =
        Decimal.divNum a b places := by
    rw [hdelta, Decimal.divNum]
    by_cases hk : 0 ≤ places - a.scale + b.scale
    · rw [Decimal.divNum, if_pos hk] at hnum
      rw [if_pos hk, if_pos hk, i128_mul_pow10I128, i128_of_abs_le hnum]
    · rw [if_neg hk, if_neg hk]
  have hdenEq : (if 0 ≤ b.scale + places - a.scale then b.units else
      i128 (b.units * Decimal.pow10I128 (-(b.scale + places - a.scale)))) =
        Decimal.divDen a b places := by
    rw [hdelta, Decimal.divDen]
    by_cases hk : 0 ≤ places - a.scale + b.scale
    · rw [if_pos hk, if_pos hk]
    · rw [Decimal.divDen, if_neg hk] at hden
      rw [if_neg hk, if_neg hk, i128_mul_pow10I128, i128_of_abs_le hden]
  have hquotient : (Decimal.divNum a b places + Decimal.divDen a b places / 2) /
      Decimal.divDen a b places = ⌊a.toRat / b.toRat * (10 : ℚ) ^ places + 1 / 2⌋ := by
    rw [roundedQuotient_eq hdenPos, divNum_div_divDen hb.ne']
  apply eq_of_units_of_scale
  · unfold divideDecimal
    dsimp only
    rw [max_eq_right hplaces, if_neg hb.ne', hnumEq, hdenEq, if_neg hdenPos.ne']
    have hsign : (decide (Decimal.divNum a b places < 0) !=
        decide (Decimal.divDen a b places < 0)) = false := by
      rw [decide_eq_false (not_lt.mpr hnumNonneg), decide_eq_false hdenPos.not_gt]
      rfl
    rw [hsign, natAbs_of_nonneg hnumNonneg, natAbs_of_nonneg hdenPos.le, ← hquotient]
    rfl
  · unfold divideDecimal
    dsimp only
    rw [max_eq_right hplaces, if_neg hb.ne', hdenEq, if_neg hdenPos.ne']

theorem divideDecimal_exact {u : Decimal} (hu : 0 < u.units) (hb : 0 < b.units)
    (hplaces : 0 ≤ u.scale) (h : a.toRat = u.toRat * b.toRat) : divideDecimal a b u.scale = u := by
  have hbq : 0 < b.toRat := mul_pos (cast_pos.mpr hb) (pow10_pos _)
  have huq : 0 < u.toRat := mul_pos (cast_pos.mpr hu) (pow10_pos _)
  have ha : 0 ≤ a.units := (toRat_nonneg_iff a).mp (h ▸ (mul_pos huq hbq).le)
  have hscaled : a.toRat / b.toRat * (10 : ℚ) ^ u.scale = u.units := by
    rw [h, mul_div_assoc, div_self hbq.ne', mul_one, Decimal.toRat, mul_assoc,
      ← zpow_add₀ (by norm_num), neg_add_cancel, zpow_zero, mul_one]
  have hdenPos : 0 < Decimal.divDen a b u.scale := divDen_pos hb
  -- the numerator is the quotient times the denominator
  have hproduct : Decimal.divNum a b u.scale = u.units * Decimal.divDen a b u.scale := by
    have hratio : (Decimal.divNum a b u.scale : ℚ) / Decimal.divDen a b u.scale =
        a.toRat / b.toRat * (10 : ℚ) ^ u.scale := divNum_div_divDen hb.ne'
    rw [hscaled, div_eq_iff (by exact_mod_cast hdenPos.ne')] at hratio
    exact_mod_cast hratio
  have hfits : QuotientFits a b u.scale := by
    have hunits := u.abs_units_le
    by_cases hk : 0 ≤ u.scale - a.scale + b.scale
    · have hden : Decimal.divDen a b u.scale = b.units := by
        rw [Decimal.divDen, if_pos hk]
      refine ⟨?_, ?_⟩
      · rw [hproduct, hden, abs_mul]
        exact (mul_le_mul hunits b.abs_units_le (abs_nonneg _) (by norm_num)).trans (by norm_num)
      · rw [hden]
        exact b.abs_units_le.trans (by norm_num)
    · have hnum : Decimal.divNum a b u.scale = a.units := by
        rw [Decimal.divNum, if_neg hk]
      have hle := a.abs_units_le
      refine ⟨?_, ?_⟩
      · rw [hnum]
        exact hle.trans (by norm_num)
      · rw [abs_of_pos hdenPos]
        rw [hnum] at hproduct
        rw [abs_of_nonneg ha] at hle
        nlinarith
  rw [divideDecimal_eq ha hb hplaces hfits]
  apply eq_of_units_of_scale
  · rw [hscaled, show (u.units : ℚ) + 1 / 2 = (1 / 2 : ℚ) + (u.units : Int) by ring]
    norm_num
    exact clampInt64_of_fits u.fits
  · rfl

theorem divideDecimal_mono {a' : Decimal} (ha : 0 ≤ a.units) (hb : 0 < b.units)
    (hplaces : 0 ≤ places) (h : QuotientFits a b places) (h' : QuotientFits a' b places)
    (hle : a.toRat ≤ a'.toRat) :
    (divideDecimal a b places).toRat ≤ (divideDecimal a' b places).toRat := by
  have hbq : 0 < b.toRat := mul_pos (cast_pos.mpr hb) (pow10_pos _)
  have ha' : 0 ≤ a'.units :=
    (toRat_nonneg_iff a').mp (((toRat_nonneg_iff a).mpr ha).trans hle)
  have hfloor : ⌊a.toRat / b.toRat * (10 : ℚ) ^ places + 1 / 2⌋ ≤
      ⌊a'.toRat / b.toRat * (10 : ℚ) ^ places + 1 / 2⌋ := by
    gcongr
  have hclamp : ∀ x y : Int, x ≤ y → clampInt64 x ≤ clampInt64 y := by
    intro x y hxy
    unfold clampInt64 int64Max int64Min
    split_ifs <;> omega
  rw [divideDecimal_eq ha hb hplaces h, divideDecimal_eq ha' hb hplaces h']
  unfold Decimal.toRat
  have hunits := hclamp _ _ hfloor
  exact mul_le_mul_of_nonneg_right (by exact_mod_cast hunits) (pow10_pos _).le

end Quotients

/-- A price stands before another one of the side. -/
def Better (side : ExecutionSide) (a b : ℚ) : Prop :=
  match side with
  | .buy => a < b
  | .sell => b < a

def levelCost (l : BookLevel) : Decimal :=
  Decimal.mul l.price l.qty

instance (side : ExecutionSide) (a b : ℚ) : Decidable (Better side a b) :=
  match side with
  | .buy => inferInstanceAs (Decidable (a < b))
  | .sell => inferInstanceAs (Decidable (b < a))

/-- A canonical side: strictly ordered positive prices with positive quantities, whose products
fit 64 bits at a scale of at most 18. -/
structure CanonicalSide (side : ExecutionSide) (levels : List BookLevel) : Prop where
  ordered : levels.Pairwise (fun a b => Better side a.price.toRat b.price.toRat)
  positive : ∀ l ∈ levels, 0 < l.price.units ∧ 0 < l.qty.units
  scales : ∀ l ∈ levels, 0 ≤ l.price.scale ∧ 0 ≤ l.qty.scale ∧ l.price.scale + l.qty.scale ≤ 18
  products : ∀ l ∈ levels, Decimal.MulExact l.price l.qty

def rebuiltScale (levels : List BookLevel) : Int :=
  max (levels.foldl (fun s l => max s l.price.scale) 0) 6

/-- The quantity of the first levels. -/
def qtyOf (part : List BookLevel) : Decimal :=
  Decimal.sumOf (part.map (fun l => l.qty))

def costOf (part : List BookLevel) : Decimal :=
  Decimal.sumOf (part.map levelCost)

/-- The integers hold what the builder and the rebuild compute: the running sums, the prices at
the rebuilt scale, the intermediates of the quotients by the horizon, and for a sale the
mirrored costs. -/
structure Held (side : ExecutionSide) (levels : List BookLevel) (tau : Decimal) : Prop where
  quantities : Decimal.SumsFit (levels.map (fun l => l.qty))
  costs : Decimal.SumsFit (levels.map levelCost)
  prices : ∀ l ∈ levels, Int64Fits (l.price.unitsAt (rebuiltScale levels))
  quotients : ∀ part ∈ levels.inits, part ≠ [] → QuotientFits (costOf part) tau 6
  mirrored : side = .sell → ∀ first ∈ levels.head?, ∀ part ∈ levels.inits, part ≠ [] →
    Decimal.MulExact first.price (qtyOf part) ∧
      Decimal.SubExact (Decimal.mul first.price (qtyOf part)) (costOf part)

/-- Points of equal values. -/
def SamePoint (a b : SOfQPoint) : Prop :=
  a.qty.toRat = b.qty.toRat ∧ a.cumulativeCost.toRat = b.cumulativeCost.toRat
deriving Decidable

/-- Curves of equal values; the speeds are the same decimals. -/
structure SameCurves (a b : SpeedCurves) : Prop where
  pOfQ : List.Forall₂ (fun x y => x.qty.toRat = y.qty.toRat ∧ x.price.toRat = y.price.toRat)
    a.pOfQ b.pOfQ
  qOfP : List.Forall₂
    (fun x y => x.price.toRat = y.price.toRat ∧ x.cumulativeQty.toRat = y.cumulativeQty.toRat)
    a.qOfP b.qOfP
  sOfQ : List.Forall₂ SamePoint a.sOfQ b.sOfQ
  lOfV : a.lOfV = b.lOfV
  lOfVMonotone : a.lOfVMonotone = b.lOfVMonotone

/-- The levels with the points behind them, from a running sum on. -/
def ladder (qty cost : Decimal) : List BookLevel → List (BookLevel × SOfQPoint)
  | [] => []
  | l :: rest =>
      (l, ⟨Decimal.add qty l.qty, Decimal.add cost (levelCost l)⟩) ::
        ladder (Decimal.add qty l.qty) (Decimal.add cost (levelCost l)) rest

def LadderExact (qty cost : Decimal) : List BookLevel → Prop
  | [] => True
  | l :: rest =>
      Decimal.AddExact qty l.qty ∧ Decimal.AddExact cost (levelCost l) ∧
        LadderExact (Decimal.add qty l.qty) (Decimal.add cost (levelCost l)) rest

section Ladders

variable {side : ExecutionSide} {levels : List BookLevel} {qty cost : Decimal}

theorem monotonicPrice_eq {previous current : Decimal}
    (h : previous = current ∨ Better side previous.toRat current.toRat)
    (hprevious : Decimal.ScaleOk previous) (hcurrent : Decimal.ScaleOk current) :
    monotonicPrice previous current side = current := by
  rcases h with rfl | hbetter
  · cases side with
    | buy => exact ite_self previous
    | sell => exact ite_self previous
  · cases side with
    | buy =>
        have hneg : ¬ Decimal.cmp previous current ≥ 0 :=
          not_le.mpr ((cmp_neg_iff hprevious hcurrent).mpr hbetter)
        exact if_neg hneg
    | sell =>
        have hpos : ¬ Decimal.cmp previous current ≤ 0 :=
          not_le.mpr ((cmp_pos_iff hprevious hcurrent).mpr hbetter)
        exact if_neg hpos

theorem CanonicalSide.tail {l : BookLevel} (h : CanonicalSide side (l :: levels)) :
    CanonicalSide side levels where
  ordered := h.ordered.tail
  positive := fun x hx => h.positive x (mem_cons_of_mem _ hx)
  scales := fun x hx => h.scales x (mem_cons_of_mem _ hx)
  products := fun x hx => h.products x (mem_cons_of_mem _ hx)

theorem CanonicalSide.scaleOk {l : BookLevel} (h : CanonicalSide side levels) (hl : l ∈ levels) :
    Decimal.ScaleOk l.price := by
  obtain ⟨hprice, hqty, hsum⟩ := h.scales l hl
  exact ⟨hprice, by omega⟩

theorem addLevels_eq (qty cost : Decimal) {price : Decimal} (h : CanonicalSide side levels)
    (hprice : Decimal.ScaleOk price)
    (hhead : ∀ l ∈ levels.head?, price = l.price ∨ Better side price.toRat l.price.toRat) :
    addLevels side price qty cost levels =
      { side
        qOfP := (ladder qty cost levels).map (fun t => ⟨t.1.price, t.2.qty⟩)
        pOfQ := (ladder qty cost levels).map (fun t => ⟨t.2.qty, t.1.price⟩)
        sOfQ := (ladder qty cost levels).map Prod.snd } := by
  induction levels generalizing price qty cost with
  | nil => rfl
  | cons l rest ih =>
      have hscale := h.scaleOk mem_cons_self
      have hkept : monotonicPrice price l.price side = l.price :=
        monotonicPrice_eq (hhead l rfl) hprice hscale
      have hnext : ∀ l' ∈ rest.head?, l.price = l'.price ∨
          Better side l.price.toRat l'.price.toRat := by
        intro l' hl'
        exact .inr ((pairwise_cons.mp h.ordered).1 l' (mem_of_head? hl'))
      unfold addLevels
      dsimp only
      rw [hkept, ih _ _ h.tail hscale hnext]
      rfl

/-- The zero from which a quantity or a cost runs. -/
def startQty (first : BookLevel) : Decimal := Decimal.zeroAt first.qty.scale

def startCost (first : BookLevel) : Decimal := Decimal.zeroAt (max 0 (levelCost first).scale)

theorem build_eq {first : BookLevel} {rest : List BookLevel}
    (h : CanonicalSide side (first :: rest)) :
    buildDepthSideCurvesImpl (first :: rest) side =
      { side
        qOfP := (ladder (startQty first) (startCost first) (first :: rest)).map
          (fun t => ⟨t.1.price, t.2.qty⟩)
        pOfQ := ⟨startQty first, first.price⟩ ::
          (ladder (startQty first) (startCost first) (first :: rest)).map
            (fun t => ⟨t.2.qty, t.1.price⟩)
        sOfQ := ⟨startQty first, startCost first⟩ ::
          (ladder (startQty first) (startCost first) (first :: rest)).map Prod.snd } := by
  have hadd := addLevels_eq (startQty first) (startCost first) h
    (h.scaleOk mem_cons_self) (fun l hl => .inl (by cases hl; rfl))
  simp only [startQty, startCost, levelCost] at hadd ⊢
  simp only [buildDepthSideCurvesImpl, hadd]

theorem ladder_spec (done levels : List BookLevel)
    (hqty : Decimal.SumsFit ((done ++ levels).map (fun l => l.qty)))
    (hcost : Decimal.SumsFit ((done ++ levels).map levelCost)) :
    LadderExact (qtyOf done) (costOf done) levels ∧
      ∀ t ∈ ladder (qtyOf done) (costOf done) levels,
        ∃ part, part <+: done ++ levels ∧ part ≠ [] ∧ t.2 = ⟨qtyOf part, costOf part⟩ := by
  induction levels generalizing done with
  | nil => exact ⟨trivial, fun t ht => by cases ht⟩
  | cons l rest ih =>
      have hsplit : done ++ l :: rest = (done ++ [l]) ++ rest := by simp
      have hinit : ∀ {f : BookLevel → Decimal}, Decimal.SumsFit ((done ++ l :: rest).map f) →
          Decimal.SumsFit (done.map f ++ [f l]) := by
        intro f hf part hpart
        refine hf part ?_
        rw [mem_inits] at hpart ⊢
        rw [hsplit, map_append, map_append]
        exact hpart.trans (prefix_append _ _)
      have hqtyNext : Decimal.add (qtyOf done) l.qty = qtyOf (done ++ [l]) := by
        rw [qtyOf, (hinit hqty).add_sumOf, qtyOf, map_append]
        rfl
      have hcostNext : Decimal.add (costOf done) (levelCost l) = costOf (done ++ [l]) := by
        rw [costOf, (hinit hcost).add_sumOf, costOf, map_append]
        rfl
      obtain ⟨hexact, hpoints⟩ := ih (done ++ [l]) (hsplit ▸ hqty) (hsplit ▸ hcost)
      constructor
      · refine ⟨(hinit hqty).addExact, (hinit hcost).addExact, ?_⟩
        rw [hqtyNext, hcostNext]
        exact hexact
      · intro t ht
        rw [ladder, hqtyNext, hcostNext] at ht
        rw [hsplit]
        rcases mem_cons.mp ht with rfl | hmem
        · exact ⟨done ++ [l], prefix_append _ _, by simp, rfl⟩
        · exact hpoints t hmem

end Ladders

def priceAt (places : Int) (d : Decimal) : Decimal :=
  ⟨clampInt64 (d.unitsAt places), places, clampInt64_fits _⟩

section Prices

variable {side : ExecutionSide} {levels : List BookLevel} {qty cost : Decimal} {places : Int}

theorem priceAt_toRat {d : Decimal} (hscale : d.scale ≤ places)
    (h : Int64Fits (d.unitsAt places)) : (priceAt places d).toRat = d.toRat := by
  have hunits : (priceAt places d).units = d.unitsAt places := clampInt64_of_fits h
  rw [toRat_eq_unitsAt d hscale, Decimal.toRat, hunits]
  rfl

variable {l : BookLevel}

theorem levelCost_nonneg (hprice : 0 < l.price.units) (hqty : 0 < l.qty.units)
    (h : Decimal.MulExact l.price l.qty) : 0 ≤ (levelCost l).units := by
  rw [levelCost, mul_of_exact h]
  positivity

theorem divideDecimal_level (hplaces : 0 ≤ places) (hprice : 0 < l.price.units)
    (hqty : 0 < l.qty.units) (hproduct : Decimal.MulExact l.price l.qty)
    (hscale : l.price.scale ≤ places) (hfits : Int64Fits (l.price.unitsAt places))
    (hqtyNonneg : 0 ≤ qty.units) (hcostNonneg : 0 ≤ cost.units)
    (haddQty : Decimal.AddExact qty l.qty) (haddCost : Decimal.AddExact cost (levelCost l)) :
    divideDecimal (Decimal.sub (Decimal.add cost (levelCost l)) cost)
      (Decimal.sub (Decimal.add qty l.qty) qty) places = priceAt places l.price := by
  obtain ⟨hds, -⟩ :=
    sub_of_add haddCost hcostNonneg (levelCost_nonneg hprice hqty hproduct)
  obtain ⟨hdq, -⟩ := sub_of_add haddQty hqtyNonneg hqty.le
  have hqtyPos : 0 < l.qty.toRat := mul_pos (cast_pos.mpr hqty) (pow10_pos _)
  have hpricePos : 0 < l.price.toRat := mul_pos (cast_pos.mpr hprice) (pow10_pos _)
  have hvalue := priceAt_toRat hscale hfits
  refine divideDecimal_exact (u := priceAt places l.price) ?_ ?_ hplaces ?_
  · exact units_pos_of_toRat (hvalue ▸ hpricePos)
  · exact units_pos_of_toRat (hdq ▸ hqtyPos)
  · rw [hds, hdq, hvalue, levelCost, mul_toRat hproduct]

theorem segmentPrice_eq {previous : Option Decimal} {start finish : SOfQPoint} {price : Decimal}
    (hprice : divideDecimal (Decimal.sub finish.cumulativeCost start.cumulativeCost)
      (Decimal.sub finish.qty start.qty) places = price)
    (hscale : price.scale = places)
    (hprevious : ∀ last ∈ previous, last.scale = places ∧ Better side last.toRat price.toRat) :
    segmentPrice side places previous start finish = price := by
  unfold segmentPrice
  rw [hprice]
  cases previous with
  | none => rfl
  | some last =>
      obtain ⟨hlast, hbetter⟩ := hprevious last rfl
      have hclose : ∀ a b : Decimal, a.scale = places → b.scale = places →
          Decimal.Comparable a b := by
        intro a b ha hb
        exact comparable_of_scales (by rw [ha, hb]; norm_num)
      cases side with
      | buy =>
          refine if_neg ?_
          rw [(hclose price last hscale hlast).cmp_neg_iff]
          exact not_lt.mpr (le_of_lt hbetter)
      | sell =>
          refine if_neg ?_
          rw [gt_iff_lt, ← not_le, not_not, (hclose price last hscale hlast).cmp_nonpos_iff]
          exact le_of_lt hbetter

theorem marginalPrices_eq (previous : Option Decimal) (h : CanonicalSide side levels)
    (hplaces : 0 ≤ places) (hscales : ∀ l ∈ levels, l.price.scale ≤ places)
    (hfits : ∀ l ∈ levels, Int64Fits (l.price.unitsAt places))
    (hexact : LadderExact qty cost levels) (hqty : 0 ≤ qty.units) (hcost : 0 ≤ cost.units)
    (hprevious : ∀ last ∈ previous, last.scale = places ∧
      ∀ l ∈ levels.head?, Better side last.toRat l.price.toRat) :
    marginalPrices side places previous ⟨qty, cost⟩ ((ladder qty cost levels).map Prod.snd) =
      (ladder qty cost levels).map (fun t => ⟨t.2.qty, priceAt places t.1.price⟩) := by
  induction levels generalizing qty cost previous with
  | nil => rfl
  | cons l rest ih =>
      obtain ⟨haddQty, haddCost, hrest⟩ := hexact
      obtain ⟨hprice, hqtyPos⟩ := h.positive l mem_cons_self
      have hproduct := h.products l mem_cons_self
      have hscale := hscales l mem_cons_self
      have hfit := hfits l mem_cons_self
      have hvalue := priceAt_toRat hscale hfit
      have hsegment : segmentPrice side places previous ⟨qty, cost⟩
          ⟨Decimal.add qty l.qty, Decimal.add cost (levelCost l)⟩ = priceAt places l.price := by
        refine segmentPrice_eq ?_ rfl ?_
        · exact divideDecimal_level hplaces hprice hqtyPos hproduct hscale hfit hqty hcost
            haddQty haddCost
        · intro last hlast
          obtain ⟨hplace, hbetter⟩ := hprevious last hlast
          exact ⟨hplace, hvalue ▸ hbetter l rfl⟩
      have hnext := ih (some (priceAt places l.price)) h.tail
        (fun x hx => hscales x (mem_cons_of_mem _ hx))
        (fun x hx => hfits x (mem_cons_of_mem _ hx)) hrest
        (sub_of_add haddQty hqty hqtyPos.le).2
        (sub_of_add haddCost hcost (levelCost_nonneg hprice hqtyPos hproduct)).2
        (by
          intro last hlast
          cases hlast
          refine ⟨rfl, fun l' hl' => ?_⟩
          rw [hvalue]
          exact (pairwise_cons.mp h.ordered).1 l' (mem_of_head? hl'))
      rw [ladder, map_cons, map_cons, marginalPrices, hsegment, hnext]

theorem ladder_levels (qty cost : Decimal) (levels : List BookLevel) :
    (ladder qty cost levels).map Prod.fst = levels := by
  induction levels generalizing qty cost with
  | nil => rfl
  | cons l rest ih => rw [ladder, map_cons, ih]

theorem mem_of_mem_ladder {t : BookLevel × SOfQPoint} (h : t ∈ ladder qty cost levels) :
    t.1 ∈ levels := by
  have hmem := mem_map_of_mem (f := Prod.fst) h
  rwa [ladder_levels] at hmem

theorem scale_le_rebuiltScale (h : l ∈ levels) : l.price.scale ≤ rebuiltScale levels :=
  ((le_foldl_max (fun l => l.price.scale) levels 0).2 l h).trans (le_max_left _ _)

theorem priceScaleOf_build {first : BookLevel} {rest : List BookLevel}
    (h : CanonicalSide side (first :: rest)) :
    priceScaleOf (buildDepthSideCurvesImpl (first :: rest) side) =
      rebuiltScale (first :: rest) := by
  have hprices := ladder_levels (startQty first) (startCost first) (first :: rest)
  have hfold : ∀ (ts : List (BookLevel × SOfQPoint)) (s : Int),
      (ts.map (fun t => (⟨t.2.qty, t.1.price⟩ : POfQPoint))).foldl
        (fun s p => max s p.price.scale) s =
      (ts.map Prod.fst).foldl (fun s l => max s l.price.scale) s := by
    intro ts s
    rw [foldl_map, foldl_map]
  rw [build_eq h, priceScaleOf, rebuiltScale, foldl_cons, hfold, hprices, foldl_cons,
    foldl_cons, max_assoc, max_self]

end Prices

section Speeds

variable {side : ExecutionSide} {levels : List BookLevel} {qty cost tau : Decimal}

theorem horizon_units_pos (tau : Decimal) : 0 < (horizon tau).units := by
  unfold horizon
  split
  · assumption
  · decide

theorem horizon_horizon (tau : Decimal) : horizon (horizon tau) = horizon tau :=
  if_pos (horizon_units_pos tau)

theorem builtSpeeds_eq {previous : Option Decimal} {points : List SOfQPoint}
    (hprevious : ∀ last ∈ previous, last.scale = 6 ∧
      ∀ p ∈ points, last.toRat ≤ (speedPoint tau p).lagrangian.toRat)
    (hmono : points.Pairwise (fun a b =>
      (speedPoint tau a).lagrangian.toRat ≤ (speedPoint tau b).lagrangian.toRat)) :
    builtSpeeds tau previous points = points.map (speedPoint tau) := by
  have hscale : ∀ p, (speedPoint tau p).lagrangian.scale = 6 := by
    intro p
    unfold speedPoint divideDecimal
    dsimp only
    split_ifs <;> rfl
  induction points generalizing previous with
  | nil => rfl
  | cons p rest ih =>
      obtain ⟨hhead, htail⟩ := pairwise_cons.mp hmono
      have hlater : builtSpeeds tau (some (speedPoint tau p).lagrangian) rest =
          rest.map (speedPoint tau) := by
        refine ih ?_ htail
        intro last hlast
        cases hlast
        exact ⟨hscale p, hhead⟩
      rw [map_cons, ← hlater]
      cases previous with
      | none => rfl
      | some last =>
          obtain ⟨hlast, hle⟩ := hprevious last rfl
          have hkept : ¬ Decimal.cmp (speedPoint tau p).lagrangian last < 0 := by
            rw [Decimal.Comparable.cmp_neg_iff (comparable_of_scales
              (by rw [hlast, hscale]; norm_num))]
            exact not_lt.mpr (hle p mem_cons_self)
          simp only [builtSpeeds, if_neg hkept]

theorem ladder_costs (h : CanonicalSide side levels) (hexact : LadderExact qty cost levels)
    (hqty : 0 ≤ qty.units) (hcost : 0 ≤ cost.units) :
    (∀ t ∈ ladder qty cost levels, cost.toRat ≤ t.2.cumulativeCost.toRat ∧
        0 ≤ t.2.cumulativeCost.units ∧ 0 ≤ t.2.qty.units) ∧
      (ladder qty cost levels).Pairwise
        (fun s t => s.2.cumulativeCost.toRat ≤ t.2.cumulativeCost.toRat) := by
  induction levels generalizing qty cost with
  | nil => exact ⟨fun t ht => absurd ht not_mem_nil, List.Pairwise.nil⟩
  | cons l rest ih =>
      obtain ⟨haddQty, haddCost, hrest⟩ := hexact
      obtain ⟨hprice, hqtyPos⟩ := h.positive l mem_cons_self
      have hlevel := levelCost_nonneg hprice hqtyPos (h.products l mem_cons_self)
      have hqtyNext := (sub_of_add haddQty hqty hqtyPos.le).2
      have hcostNext := (sub_of_add haddCost hcost hlevel).2
      have hstep : cost.toRat ≤ (Decimal.add cost (levelCost l)).toRat := by
        rw [add_toRat haddCost]
        exact le_add_of_nonneg_right ((toRat_nonneg_iff _).mpr hlevel)
      obtain ⟨hbehind, hpairs⟩ := ih h.tail hrest hqtyNext hcostNext
      constructor
      · intro t ht
        rcases mem_cons.mp ht with rfl | hmem
        · exact ⟨hstep, hcostNext, hqtyNext⟩
        · exact ⟨hstep.trans (hbehind t hmem).1, (hbehind t hmem).2⟩
      · exact pairwise_cons.mpr ⟨fun t ht => (hbehind t ht).1, hpairs⟩

theorem ladder_below_reference (ref : ℚ) (h : CanonicalSide .sell levels)
    (hexact : LadderExact qty cost levels) (href : ∀ l ∈ levels, l.price.toRat ≤ ref)
    (hstart : cost.toRat ≤ ref * qty.toRat) :
    ∀ t ∈ ladder qty cost levels, t.2.cumulativeCost.toRat ≤ ref * t.2.qty.toRat := by
  induction levels generalizing qty cost with
  | nil => exact fun t ht => by cases ht
  | cons l rest ih =>
      obtain ⟨haddQty, haddCost, hrest⟩ := hexact
      obtain ⟨-, hqtyPos⟩ := h.positive l mem_cons_self
      have hlevel : (levelCost l).toRat = l.price.toRat * l.qty.toRat :=
        mul_toRat (h.products l mem_cons_self)
      have hqtyNonneg : 0 ≤ l.qty.toRat := (toRat_nonneg_iff _).mpr hqtyPos.le
      have hnext : (Decimal.add cost (levelCost l)).toRat ≤
          ref * (Decimal.add qty l.qty).toRat := by
        rw [add_toRat haddCost, add_toRat haddQty, hlevel, mul_add]
        exact add_le_add hstart (mul_le_mul_of_nonneg_right (href l mem_cons_self) hqtyNonneg)
      intro t ht
      rcases mem_cons.mp ht with rfl | hmem
      · exact hnext
      · exact ih h.tail hrest (fun x hx => href x (mem_cons_of_mem _ hx)) hnext t hmem

end Speeds

section Rebuild

variable {side : ExecutionSide} {first : BookLevel} {rest : List BookLevel} {tau : Decimal}

theorem ladder_start (h : CanonicalSide side (first :: rest))
    (hqty : Decimal.SumsFit ((first :: rest).map (fun l => l.qty)))
    (hcost : Decimal.SumsFit ((first :: rest).map levelCost)) :
    LadderExact (startQty first) (startCost first) (first :: rest) ∧
      ∀ t ∈ ladder (startQty first) (startCost first) (first :: rest),
        ∃ part, part <+: first :: rest ∧ part ≠ [] ∧ t.2 = ⟨qtyOf part, costOf part⟩ := by
  obtain ⟨hpriceScale, hqtyScale, -⟩ := h.scales first mem_cons_self
  have hcostScale : 0 ≤ (levelCost first).scale := by
    rw [levelCost, mul_of_exact (h.products first mem_cons_self)]
    exact add_nonneg hpriceScale hqtyScale
  have hstart : startCost first = zeroAt (levelCost first).scale := by
    rw [startCost, max_eq_right hcostScale]
  have hqtyOne : Decimal.add (startQty first) first.qty = qtyOf [first] :=
    (add_zeroAt first.qty).2.trans (sumOf_singleton hqtyScale).symm
  have hcostOne : Decimal.add (startCost first) (levelCost first) = costOf [first] := by
    rw [hstart, (add_zeroAt (levelCost first)).2]
    exact (sumOf_singleton hcostScale).symm
  obtain ⟨hexact, hpoints⟩ := ladder_spec [first] rest hqty hcost
  constructor
  · refine ⟨(add_zeroAt first.qty).1, ?_, ?_⟩
    · rw [hstart]
      exact (add_zeroAt (levelCost first)).1
    · rw [hqtyOne, hcostOne]
      exact hexact
  · intro t ht
    rw [ladder, hqtyOne, hcostOne] at ht
    rcases mem_cons.mp ht with rfl | hmem
    · exact ⟨[first], prefix_append [first] rest, by simp, rfl⟩
    · exact hpoints t hmem

theorem sOfQ_build (h : CanonicalSide side (first :: rest)) :
    (buildDepthSideCurvesImpl (first :: rest) side).sOfQ = ⟨startQty first, startCost first⟩ ::
      (ladder (startQty first) (startCost first) (first :: rest)).map Prod.snd := by
  rw [build_eq h]

theorem rebuild_prices (h : CanonicalSide side (first :: rest))
    (hheld : Held side (first :: rest) tau) :
    let built := buildDepthSideCurvesImpl (first :: rest) side
    let rebuilt := rebuildCurvesFromCostLayer built built.sOfQ
    List.Forall₂ (fun x y => x.qty.toRat = y.qty.toRat ∧ x.price.toRat = y.price.toRat)
        rebuilt.pOfQ built.pOfQ ∧
      List.Forall₂ (fun x y =>
          x.price.toRat = y.price.toRat ∧ x.cumulativeQty.toRat = y.cumulativeQty.toRat)
        rebuilt.qOfP built.qOfP ∧
      rebuilt.sOfQ = built.sOfQ := by
  dsimp only
  obtain ⟨hexact, -⟩ := ladder_start h hheld.quantities hheld.costs
  have hplaces : 0 ≤ rebuiltScale (first :: rest) := le_trans (by norm_num) (le_max_right _ 6)
  have hpoints := marginalPrices_eq none h hplaces
    (fun l hl => scale_le_rebuiltScale hl) hheld.prices hexact le_rfl le_rfl
    (fun last hlast => by cases hlast)
  have hside : (buildDepthSideCurvesImpl (first :: rest) side).side = side := by
    rw [build_eq h]
  have hvalue : ∀ l ∈ first :: rest,
      (priceAt (rebuiltScale (first :: rest)) l.price).toRat = l.price.toRat :=
    fun l hl => priceAt_toRat (scale_le_rebuiltScale hl) (hheld.prices l hl)
  rw [sOfQ_build h, rebuildCurvesFromCostLayer, hside, priceScaleOf_build h, hpoints, build_eq h]
  refine ⟨List.Forall₂.cons ⟨rfl, hvalue first mem_cons_self⟩ ?_, ?_, rfl⟩
  · rw [forall₂_map_left_iff, forall₂_map_right_iff, forall₂_same]
    exact fun t ht => ⟨rfl, hvalue t.1 (mem_of_mem_ladder ht)⟩
  · rw [map_map, forall₂_map_left_iff, forall₂_map_right_iff, forall₂_same]
    exact fun t ht => ⟨hvalue t.1 (mem_of_mem_ladder ht), rfl⟩

theorem divideDecimal_zero {a b : Decimal} {places : Int} (h : a.units = 0) :
    (divideDecimal a b places).toRat = 0 := by
  have hnum : ∀ k : Int, (if 0 ≤ k then i128 (a.units * Decimal.pow10I128 k) else a.units) = 0 := by
    intro k
    rw [h, zero_mul]
    exact ite_self 0
  have hquotient : ∀ den : Int, (0 + (den.natAbs : Int) / 2) / (den.natAbs : Int) = 0 := by
    intro den
    rcases eq_or_ne den 0 with rfl | hden
    · rfl
    · exact ediv_eq_zero_of_lt (by omega) (by omega)
  rw [toRat_eq_zero_iff]
  unfold divideDecimal
  simp only [hnum, natAbs_zero, Nat.cast_zero, hquotient, neg_zero, ite_self]
  split_ifs <;> rfl

theorem divideDecimal_nonneg {a b : Decimal} {places : Int} (ha : 0 ≤ a.units)
    (hb : 0 < b.units) (hplaces : 0 ≤ places) (h : QuotientFits a b places) :
    0 ≤ (divideDecimal a b places).toRat := by
  have hfloor : 0 ≤ ⌊a.toRat / b.toRat * (10 : ℚ) ^ places + 1 / 2⌋ := by
    have haq := (toRat_nonneg_iff a).mpr ha
    have hbq := (toRat_nonneg_iff b).mpr hb.le
    positivity
  rw [divideDecimal_eq ha hb hplaces h, toRat_nonneg_iff]
  dsimp only
  unfold clampInt64 int64Max int64Min
  split_ifs <;> omega

theorem speeds_unchanged (h : CanonicalSide side (first :: rest))
    (hheld : Held side (first :: rest) (horizon tau)) :
    builtSpeeds (horizon tau) none (buildDepthSideCurvesImpl (first :: rest) side).sOfQ =
      (buildDepthSideCurvesImpl (first :: rest) side).sOfQ.map (speedPoint (horizon tau)) := by
  obtain ⟨hexact, hparts⟩ := ladder_start h hheld.quantities hheld.costs
  obtain ⟨hbehind, hpairs⟩ := ladder_costs h hexact le_rfl le_rfl
  have hquotient : ∀ t ∈ ladder (startQty first) (startCost first) (first :: rest),
      QuotientFits t.2.cumulativeCost (horizon tau) 6 := by
    intro t ht
    obtain ⟨part, hpart, hne, heq⟩ := hparts t ht
    rw [heq]
    exact hheld.quotients part (mem_inits _ _ |>.mpr hpart) hne
  rw [sOfQ_build h]
  refine builtSpeeds_eq (fun last hlast => by cases hlast) (pairwise_cons.mpr ⟨?_, ?_⟩)
  · intro p hp
    obtain ⟨t, ht, rfl⟩ := mem_map.mp hp
    have hzero : (speedPoint (horizon tau) ⟨startQty first, startCost first⟩).lagrangian.toRat
        = 0 := divideDecimal_zero rfl
    rw [hzero]
    exact divideDecimal_nonneg (hbehind t ht).2.1 (horizon_units_pos tau) (by norm_num)
      (hquotient t ht)
  · rw [pairwise_map]
    refine List.Pairwise.imp_of_mem ?_ hpairs
    intro s t hs ht hle
    exact divideDecimal_mono (hbehind s hs).2.1 (horizon_units_pos tau) (by norm_num)
      (hquotient s hs) (hquotient t ht) hle

theorem samePoint_refl (points : List SOfQPoint) : List.Forall₂ SamePoint points points :=
  forall₂_same.mpr fun _ _ => ⟨rfl, rfl⟩

theorem mul_startQty (first : BookLevel) : Decimal.mul first.price (startQty first) =
    zeroAt (first.price.scale + first.qty.scale) := by
  have hmul : Decimal.MulExact first.price (startQty first) := by
    unfold Decimal.MulExact startQty zeroAt
    rw [mul_zero]
    exact int64Fits_zero
  rw [mul_of_exact hmul]
  exact eq_of_units_of_scale (mul_zero _) rfl

theorem mirror_twice (h : CanonicalSide side (first :: rest))
    (hheld : Held side (first :: rest) tau) :
    let built := buildDepthSideCurvesImpl (first :: rest) side
    List.Forall₂ SamePoint (mirrorCostLayer built (mirrorCostLayer built built.sOfQ))
      built.sOfQ := by
  dsimp only
  have hside : (buildDepthSideCurvesImpl (first :: rest) side).side = side := by
    rw [build_eq h]
  have hreference : sellSideReferencePrice (buildDepthSideCurvesImpl (first :: rest) side) =
      first.price := by
    rw [build_eq h, sellSideReferencePrice]
  cases side with
  | buy =>
      unfold mirrorCostLayer
      rw [hside]
      exact samePoint_refl _
  | sell =>
      obtain ⟨hexact, hparts⟩ := ladder_start h hheld.quantities hheld.costs
      obtain ⟨hbehind, -⟩ := ladder_costs h hexact le_rfl le_rfl
      have hbelow := ladder_below_reference first.price.toRat h hexact (by
          intro l hl
          rcases mem_cons.mp hl with rfl | hrest
          · exact le_rfl
          · exact le_of_lt ((pairwise_cons.mp h.ordered).1 l hrest))
        (by
          have hzero : (startCost first).toRat = 0 := toRat_zeroAt _
          have hqtyZero : (startQty first).toRat = 0 := toRat_zeroAt _
          rw [hzero, hqtyZero, mul_zero])
      unfold mirrorCostLayer
      rw [hside, hreference, sOfQ_build h]
      rw [map_map, forall₂_map_left_iff, forall₂_same]
      intro p hp
      refine ⟨rfl, ?_⟩
      dsimp only [Function.comp]
      rcases mem_cons.mp hp with rfl | hmem
      · rw [mul_startQty]
        refine sub_sub_toRat ?_ le_rfl (le_of_eq ?_)
        · unfold Decimal.SubExact Decimal.unitsAt startCost zeroAt
          simp only [zero_mul, sub_self]
          exact int64Fits_zero
        · rw [startCost, toRat_zeroAt, toRat_zeroAt]
      · obtain ⟨t, ht, rfl⟩ := mem_map.mp hmem
        obtain ⟨part, hpart, hne, heq⟩ := hparts t ht
        obtain ⟨hmul, hsub⟩ := hheld.mirrored rfl first rfl part (mem_inits _ _ |>.mpr hpart) hne
        have hle := hbelow t ht
        have hcost := (hbehind t ht).2.1
        rw [heq] at hle hcost ⊢
        refine sub_sub_toRat hsub hcost ?_
        rw [mul_toRat hmul]
        exact hle

end Rebuild

/-- Rebuilding from the same cost changes no curve, and the normalisation of the cost layer is
undone. -/
def Unchanged (levels : List BookLevel) (side : ExecutionSide) (tau : Decimal) : Prop :=
  let built := buildSpeedCurves levels side tau
  SameCurves (rebuildSpeedCurves built built.sOfQ) built ∧
    List.Forall₂ SamePoint
      (denormalizeCostLayerFromL2 built.toDepthSideCurves
        (normalizeCostLayerForL2 built.toDepthSideCurves)) built.sOfQ

/-- Rebuilding changes nothing for every canonical side whose numbers the integers hold. -/
theorem rebuild_unchanged (levels : List BookLevel) (side : ExecutionSide) (tau : Decimal)
    (h : CanonicalSide side levels) (hheld : Held side levels (horizon tau)) :
    Unchanged levels side tau := by
  cases levels with
  | nil =>
      cases side with
      | buy => exact ⟨⟨.nil, .nil, .nil, rfl, rfl⟩, .nil⟩
      | sell => exact ⟨⟨.nil, .nil, .nil, rfl, rfl⟩, .nil⟩
  | cons first rest =>
      obtain ⟨hpOfQ, hqOfP, hsOfQ⟩ := rebuild_prices h hheld
      have hspeeds := speeds_unchanged h hheld
      have hlOfV : (rebuildSpeedCurves (buildSpeedCurves (first :: rest) side tau)
          (buildSpeedCurves (first :: rest) side tau).sOfQ).lOfV =
            (buildSpeedCurves (first :: rest) side tau).lOfV := by
        unfold rebuildSpeedCurves buildSpeedCurves
        dsimp only
        rw [horizon_horizon, hspeeds]
      refine ⟨⟨hpOfQ, hqOfP, ?_, hlOfV, ?_⟩, mirror_twice h hheld⟩
      · exact hsOfQ ▸ samePoint_refl _
      · exact congrArg (fun knots => buildMonotoneLagrangianInterpolationImpl knots 8) hlOfV

def twoLevels (price qty price' qty' : Decimal) : List BookLevel :=
  [{ price, qty }, { price := price', qty := qty' }]

/-- Two offers of other scales over ten seconds. -/
theorem rebuild_unchanged_two :
    Unchanged (twoLevels (Decimal.of 1005 1) (Decimal.of 25 1) (Decimal.of 101 0) (Decimal.of 4 0))
      .buy (Decimal.of 10 0) :=
  rebuild_unchanged _ _ _ ⟨by decide +kernel, by decide, by decide, by decide⟩
    ⟨by decide +kernel, by decide +kernel, by decide +kernel, by decide +kernel, by decide⟩

/-- Sides whose numbers the integers do not hold: a price of more than 64 bits at six places, a
cost of more than 64 bits, quantities of more than 64 bits at their common scale, a quotient by
the horizon of more than 128 bits, and a mirrored cost of more than 64 bits. -/
def wideSides : List (List BookLevel × ExecutionSide × Decimal) :=
  [([{ price := Decimal.of 10000000000000 0, qty := Decimal.of 1 0 }], .buy, Decimal.of 1 0),
    (twoLevels (Decimal.of 1000000000 0) (Decimal.of 9000000000 0) (Decimal.of 1000000001 0)
      (Decimal.of 9000000000 0), .buy, Decimal.of 1 0),
    (twoLevels (Decimal.of 1 18) (Decimal.of 100 0) (Decimal.of 1 0) (Decimal.of 1 18), .buy,
      Decimal.of 1 0),
    (twoLevels (Decimal.of 10000000 0) (Decimal.of 10000000 0) (Decimal.of 10000001 0)
      (Decimal.of 10000000 0), .buy, Decimal.of 1 18),
    (twoLevels (Decimal.of 1000 0) (Decimal.of 1 0) (Decimal.of 1 9) (Decimal.of 100000001 0),
      .sell, Decimal.of 1 0)]

/-- Rebuilding changes the curves of canonical sides with wide numbers. -/
theorem rebuild_of_wide_numbers : wideSides.Forall fun t =>
    CanonicalSide t.2.1 t.1 ∧ 0 < t.2.2.units ∧ ¬ Unchanged t.1 t.2.1 t.2.2 := by
  rw [List.forall_iff_forall_mem]
  intro t ht
  simp only [wideSides, List.mem_cons, List.not_mem_nil, or_false] at ht
  rcases ht with rfl | rfl | rfl | rfl | rfl
  · refine ⟨⟨by decide +kernel, by decide, by decide, by decide⟩, by decide, fun h => ?_⟩
    exact absurd h.1.pOfQ (by decide +kernel)
  · refine ⟨⟨by decide +kernel, by decide, by decide, by decide⟩, by decide, fun h => ?_⟩
    exact absurd h.1.pOfQ (by decide +kernel)
  · refine ⟨⟨by decide +kernel, by decide, by decide, by decide⟩, by decide, fun h => ?_⟩
    exact absurd h.1.pOfQ (by decide +kernel)
  · refine ⟨⟨by decide +kernel, by decide, by decide, by decide⟩, by decide, fun h => ?_⟩
    exact absurd h.1.lOfV (by decide +kernel)
  · refine ⟨⟨by decide +kernel, by decide, by decide, by decide⟩, by decide, fun h => ?_⟩
    exact absurd h.2 (by decide +kernel)

end Venues
end ContExchange
