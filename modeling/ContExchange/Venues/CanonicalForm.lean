import ContExchange.Lib.KeyedSums
import ContExchange.Venues.DepthCanonicalizer

/-!
# Venues: the normal form of a book side

`CanonicalizeBookSide` computes a normal form: the prices on the tick, the best first and each
once, with the sum of the lots of the levels behind each.  A level or a step that does not fit
64 bits at the scales of the side counts for nothing.

* `normalizeLevel_spec`: what is left of one level;
* `aggregateLevels_eq`: merged neighbours have the exact sums where these fit;
* `canonicalizeBookSide_normal`: the result is the normal form of the levels, in whichever
  order they stand, and its own normal form.
-/

namespace ContExchange
namespace Venues

open Common Decimal List Option Lib Int
open Backtest (BookLevel)
open Lib (keySum mergeKeys)

/-- The scales of a side and its steps; zero stands for no step. -/
structure Grid where
  priceScale : Int
  qtyScale : Int
  tick : ℚ
  lot : ℚ
  minQty : ℚ

/-- A step, where it is positive and fits 64 bits at the scale. -/
def appliedStep (step : Decimal) (scale : Int) : ℚ :=
  if 0 < step.units ∧ Int64Fits (step.unitsAt scale) then step.toRat else 0

def gridOf (levels : List BookLevel) (config : DepthCanonicalizationConfig) : Grid where
  priceScale := detectPriceScale levels config
  qtyScale := detectQtyScale levels config
  tick := appliedStep config.tickSize (detectPriceScale levels config)
  lot := appliedStep config.lotSize (detectQtyScale levels config)
  minQty := appliedStep config.minQty (detectQtyScale levels config)

/-- The last multiple of a step up to a number. -/
def floorTo (step q : ℚ) : ℚ :=
  if 0 < step then ⌊q / step⌋ * step else q

/-- The first multiple of a step from a number on. -/
def ceilTo (step q : ℚ) : ℚ :=
  if 0 < step then ⌈q / step⌉ * step else q

/-- A price stands before another one of the side. -/
def Ahead {α : Type*} [LT α] (side : DepthBookSide) (a b : α) : Prop :=
  match side with
  | .bid => b < a
  | .ask => a < b

namespace Grid

variable (g : Grid) (side : DepthBookSide)

def price (level : BookLevel) : ℚ :=
  match side with
  | .bid => floorTo g.tick level.price.toRat
  | .ask => ceilTo g.tick level.price.toRat

/-- The quantity of a level on the grid. -/
def qty (level : BookLevel) : ℚ :=
  floorTo g.lot level.qty.toRat

/-- A level counts: it is positive, fits 64 bits at the scales of the side and keeps a price and
a quantity on the grid, with the least quantity. -/
structure Admits (level : BookLevel) : Prop where
  pricePositive : 0 < level.price.units
  qtyPositive : 0 < level.qty.units
  priceFits : Int64Fits (level.price.unitsAt g.priceScale)
  qtyFits : Int64Fits (level.qty.unitsAt g.qtyScale)
  priceKept : 0 < g.price side level
  qtyKept : 0 < g.qty level
  minQty : g.minQty ≤ g.qty level

instance (level : BookLevel) : Decidable (g.Admits side level) :=
  decidable_of_iff
    (0 < level.price.units ∧ 0 < level.qty.units ∧ Int64Fits (level.price.unitsAt g.priceScale) ∧
      Int64Fits (level.qty.unitsAt g.qtyScale) ∧ 0 < g.price side level ∧ 0 < g.qty level ∧
      g.minQty ≤ g.qty level)
    ⟨fun ⟨h₁, h₂, h₃, h₄, h₅, h₆, h₇⟩ => ⟨h₁, h₂, h₃, h₄, h₅, h₆, h₇⟩,
      fun h => ⟨h.1, h.2, h.3, h.4, h.5, h.6, h.7⟩⟩

/-- The exact sum of the quantities at a price. -/
def totalAt (levels : List BookLevel) (p : ℚ) : ℚ :=
  ((levels.filter (fun l => g.Admits side l ∧ g.price side l = p)).map g.qty).sum

/-- The sums of a side fit 64 bits, and so does the tick above a price that was rounded up. -/
structure Fits (levels : List BookLevel) : Prop where
  roundedUp : side = .ask → ∀ l ∈ levels, g.Admits side l →
    (g.price side l + g.tick) * (10 : ℚ) ^ g.priceScale ≤ 2 ^ 63
  totals : ∀ l ∈ levels, g.Admits side l →
    g.totalAt side levels (g.price side l) * (10 : ℚ) ^ g.qtyScale < 2 ^ 63

structure NormalForm (maxLevels : Nat) (levels book : List BookLevel) : Prop where
  ordered : book.Pairwise (fun a b => Ahead side a.price.toRat b.price.toRat)
  prices : ∀ l ∈ book, 0 < l.price.toRat ∧ (0 < g.tick → ∃ n : Int, l.price.toRat = n * g.tick)
  quantities : ∀ l ∈ book, 0 < l.qty.toRat ∧ (0 < g.lot → ∃ n : Int, l.qty.toRat = n * g.lot)
  totals : ∀ l ∈ book, l.qty.toRat = g.totalAt side levels l.price.toRat
  sources : ∀ l ∈ book, ∃ source ∈ levels,
    g.Admits side source ∧ g.price side source = l.price.toRat
  bounds : ∀ l ∈ book, ∀ source ∈ levels, g.Admits side source →
    g.price side source = l.price.toRat → ¬ Ahead side l.price.toRat source.price.toRat
  complete : ∀ source ∈ levels, g.Admits side source →
    (∃ l ∈ book, l.price.toRat = g.price side source) ∨
      (0 < maxLevels ∧ book.length = maxLevels ∧
        ∀ l ∈ book, Ahead side l.price.toRat (g.price side source))

end Grid

section Units

variable {d : Decimal} {scale : Int}

theorem alignToScale_eq (hd : 0 < d.units) (hle : d.scale ≤ scale) (hscale : 0 ≤ scale) :
    alignToScale d scale =
      if Int64Fits (d.unitsAt scale) then some (d.unitsAt scale) else none := by
  unfold alignToScale
  rw [if_neg (not_lt.mpr hscale)]
  by_cases hsame : scale = d.scale
  · rw [if_pos hsame, hsame, unitsAt_self, if_pos d.fits]
  · rw [if_neg hsame, if_neg (by omega)]
    by_cases hplaces : scale - d.scale ≤ 18
    · have hpow : pow10I64 (scale - d.scale) = 10 ^ (scale - d.scale).toNat := if_neg (by omega)
      have hne : (10 : Int) ^ (scale - d.scale).toNat ≠ 0 := by positivity
      rw [hpow, if_neg hne]
      rfl
    · -- more than eighteen places never fit
      have hpow : pow10I64 (scale - d.scale) = 0 := if_pos (.inr (not_le.mp hplaces))
      have hlarge : (10 : Int) ^ 19 ≤ d.unitsAt scale := by
        have hle19 : (10 : Int) ^ 19 ≤ 10 ^ (scale - d.scale).toNat :=
          pow_le_pow_right₀ (by norm_num) (by omega)
        unfold Decimal.unitsAt
        nlinarith
      have hnot : ¬ Int64Fits (d.unitsAt scale) := by
        intro hfits
        have hmax := hfits.2
        unfold int64Max at hmax
        omega
      rw [if_pos hpow, if_neg hnot]

theorem stepUnits_value {step : Decimal} (hscale : 0 ≤ scale)
    (hle : 0 < step.units → step.scale ≤ scale) :
    (stepUnits step scale : ℚ) * (10 : ℚ) ^ (-scale) = appliedStep step scale ∧
      0 ≤ stepUnits step scale := by
  unfold stepUnits appliedStep
  by_cases hunits : 0 < step.units
  · have hplaces : (0 : Int) ≤ step.unitsAt scale := by
      unfold Decimal.unitsAt
      positivity
    rw [if_pos hunits, alignToScale_eq hunits (hle hunits) hscale]
    by_cases hfits : Int64Fits (step.unitsAt scale)
    · rw [if_pos hfits, if_pos ⟨hunits, hfits⟩, getD_some, max_eq_right hplaces]
      exact ⟨(toRat_eq_unitsAt step (hle hunits)).symm, hplaces⟩
    · rw [if_neg hfits, if_neg (fun h => hfits h.2), getD_none]
      simp
  · rw [if_neg hunits, if_neg (fun h => hunits h.1)]
    simp

theorem floor_div_intCast (v : Int) {t : Int} (ht : 0 < t) : ⌊(v : ℚ) / t⌋ = v / t := by
  obtain ⟨n, rfl⟩ := eq_ofNat_of_zero_le ht.le
  exact_mod_cast Rat.floor_intCast_div_natCast v n

theorem ceil_div_intCast (v : Int) {t : Int} (ht : 0 < t) : ⌈(v : ℚ) / t⌉ = (v + t - 1) / t := by
  have htq : (0 : ℚ) < t := cast_pos.mpr ht
  have hsplit := mul_ediv_add_emod (v + t - 1) t
  have hnonneg := emod_nonneg (v + t - 1) ht.ne'
  have hlt := emod_lt_of_pos (v + t - 1) ht
  generalize (v + t - 1) / t = q at *
  rw [ceil_eq_iff, lt_div_iff₀ htq, div_le_iff₀ htq]
  constructor
  · have hlow : (q - 1) * t < v := by nlinarith
    exact_mod_cast hlow
  · have hhigh : v ≤ q * t := by nlinarith
    exact_mod_cast hhigh

theorem floorToStep_value {v t : Int} {c : ℚ} (hv : 0 ≤ v) (ht : 0 ≤ t) (hc : 0 < c) :
    (floorToStep v t : ℚ) * c = floorTo (t * c) (v * c) ∧ 0 ≤ floorToStep v t ∧
      floorToStep v t ≤ v ∧ (0 < t → t ∣ floorToStep v t) := by
  unfold floorToStep floorTo
  rcases ht.eq_or_lt with rfl | hpos
  · rw [if_pos le_rfl, if_neg (by simp)]
    exact ⟨rfl, hv, le_rfl, fun h => absurd h (lt_irrefl 0)⟩
  · have hcq : 0 < (t : ℚ) * c := mul_pos (cast_pos.mpr hpos) hc
    rw [if_neg (not_le.mpr hpos), if_pos hv, if_pos hcq, mul_div_mul_right _ _ hc.ne',
      floor_div_intCast v hpos, tdiv_eq_ediv_of_nonneg hv]
    refine ⟨by push_cast; ring, mul_nonneg (ediv_nonneg hv hpos.le) hpos.le,
      Int.ediv_mul_le v hpos.ne', fun _ => Dvd.intro_left _ rfl⟩

theorem ceilToStep_value {v t : Int} {c : ℚ} (hv : 0 < v) (hfits : Int64Fits v) (ht : 0 ≤ t)
    (hc : 0 < c) (hup : (ceilTo (t * c) (v * c) + t * c) ≤ 2 ^ 63 * c) :
    (ceilToStep v t : ℚ) * c = ceilTo (t * c) (v * c) ∧ v ≤ ceilToStep v t ∧
      ceilToStep v t + t ≤ 2 ^ 63 ∧ (0 < t → t ∣ ceilToStep v t) := by
  unfold ceilToStep ceilTo at *
  rcases ht.eq_or_lt with rfl | hpos
  · have hmax := hfits.2
    unfold int64Max at hmax
    rw [if_pos le_rfl, if_neg (by simp)]
    exact ⟨rfl, le_rfl, by omega, fun h => absurd h (lt_irrefl 0)⟩
  · have hcq : 0 < (t : ℚ) * c := mul_pos (cast_pos.mpr hpos) hc
    rw [if_pos hcq, mul_div_mul_right _ _ hc.ne', ceil_div_intCast v hpos] at *
    have hbound : (v + t - 1) / t * t + t ≤ 2 ^ 63 := by
      have hscaled : (((v + t - 1) / t * t + t : Int) : ℚ) * c ≤ (2 ^ 63 : Int) * c := by
        push_cast
        linarith
      exact_mod_cast le_of_mul_le_mul_right hscaled hc
    have hreach : v ≤ (v + t - 1) / t * t := by
      have hsplit := mul_ediv_add_emod (v + t - 1) t
      have hlt := emod_lt_of_pos (v + t - 1) hpos
      nlinarith
    have hinner : Int64Fits (v + t - 1) := by
      unfold Int64Fits int64Min int64Max
      omega
    have houter : Int64Fits ((v + t - 1) / t * t) := by
      unfold Int64Fits int64Min int64Max
      omega
    rw [if_neg (not_le.mpr hpos), if_pos hv.le, wrap64_of_fits hinner,
      tdiv_eq_ediv_of_nonneg (by omega), wrap64_of_fits houter]
    exact ⟨by push_cast; ring, hreach, hbound, fun _ => Dvd.intro_left _ rfl⟩

end Units

structure GridUnits (g : Grid) (t l m : Int) : Prop where
  priceScale : 0 ≤ g.priceScale
  qtyScale : 0 ≤ g.qtyScale
  tick : (t : ℚ) * (10 : ℚ) ^ (-g.priceScale) = g.tick
  tickNonneg : 0 ≤ t
  lot : (l : ℚ) * (10 : ℚ) ^ (-g.qtyScale) = g.lot
  lotNonneg : 0 ≤ l
  minQty : (m : ℚ) * (10 : ℚ) ^ (-g.qtyScale) = g.minQty
  minNonneg : 0 ≤ m

/-- A level in units that rounding leaves as it is. -/
structure OnGrid (side : DepthBookSide) (t l m : Int) (x : NormalizedLevel) : Prop where
  price : 0 < x.priceUnits
  priceMax : x.priceUnits ≤ int64Max
  tick : 0 < t → t ∣ x.priceUnits
  above : side = .ask → x.priceUnits + t ≤ 2 ^ 63
  qty : 0 < x.qtyUnits
  qtyMax : x.qtyUnits ≤ int64Max
  lot : 0 < l → l ∣ x.qtyUnits
  minQty : m ≤ x.qtyUnits

theorem OnGrid.merged {side : DepthBookSide} {t l m : Int} {x y : NormalizedLevel}
    (h : OnGrid side t l m y) (hprice : y.priceUnits = x.priceUnits)
    (hqty : y.qtyUnits ≤ x.qtyUnits) (hmax : x.qtyUnits ≤ int64Max)
    (hlot : 0 < l → l ∣ x.qtyUnits) : OnGrid side t l m x := by
  refine ⟨?_, ?_, ?_, ?_, h.qty.trans_le hqty, hmax, hlot, h.minQty.trans hqty⟩
  · exact hprice ▸ h.price
  · exact hprice ▸ h.priceMax
  · exact hprice ▸ h.tick
  · exact hprice ▸ h.above

/-- What is left of a level is the level on the grid. -/
structure Normalizes (g : Grid) (side : DepthBookSide) (t l m : Int) (level : BookLevel)
    (x : NormalizedLevel) : Prop where
  admits : g.Admits side level
  onGrid : OnGrid side t l m x
  price : (x.priceUnits : ℚ) * (10 : ℚ) ^ (-g.priceScale) = g.price side level
  qty : (x.qtyUnits : ℚ) * (10 : ℚ) ^ (-g.qtyScale) = g.qty level

section OneLevel

variable {g : Grid} {side : DepthBookSide} {t l m : Int} {level : BookLevel}

def priceUnitsOn (side : DepthBookSide) (t v : Int) : Int :=
  match side with
  | .bid => floorToStep v t
  | .ask => ceilToStep v t

theorem normalizeLevel_of_aligned {priceScale qtyScale v w : Int} (hp : 0 < level.price.units)
    (hq : 0 < level.qty.units) (hv : alignToScale level.price priceScale = some v)
    (hw : alignToScale level.qty qtyScale = some w) :
    normalizeLevel side priceScale qtyScale t l m level =
      if priceUnitsOn side t v ≤ 0 ∨ floorToStep w l ≤ 0 then none
      else if 0 < m ∧ floorToStep w l < m then none
      else some { priceUnits := priceUnitsOn side t v, qtyUnits := floorToStep w l } := by
  unfold normalizeLevel
  rw [if_neg (by omega), hv, hw]
  rfl

theorem priceUnits_value (hg : GridUnits g t l m) (hle : level.price.scale ≤ g.priceScale)
    (hprice : 0 < level.price.units) (hfits : Int64Fits (level.price.unitsAt g.priceScale))
    (hup : side = .ask → (g.price side level + g.tick) * (10 : ℚ) ^ g.priceScale ≤ 2 ^ 63) :
    let p := priceUnitsOn side t (level.price.unitsAt g.priceScale)
    (p : ℚ) * (10 : ℚ) ^ (-g.priceScale) = g.price side level ∧ p ≤ int64Max ∧
      (0 < t → t ∣ p) ∧ (side = .ask → p + t ≤ 2 ^ 63) := by
  have hc := pow10_pos (-g.priceScale)
  have hv : 0 < level.price.unitsAt g.priceScale := mul_pos hprice (by positivity)
  have hvalue := toRat_eq_unitsAt level.price hle
  cases side with
  | bid =>
      obtain ⟨heq, -, hbelow, hdvd⟩ := floorToStep_value hv.le hg.tickNonneg hc
      refine ⟨?_, hbelow.trans hfits.2, hdvd, fun h => by cases h⟩
      rw [Grid.price, hvalue, ← hg.tick]
      exact heq
  | ask =>
      have hroom : ceilTo (t * (10 : ℚ) ^ (-g.priceScale))
          (level.price.unitsAt g.priceScale * (10 : ℚ) ^ (-g.priceScale)) +
            t * (10 : ℚ) ^ (-g.priceScale) ≤ 2 ^ 63 * (10 : ℚ) ^ (-g.priceScale) := by
        have hscaled := hup rfl
        rw [Grid.price, hvalue, ← hg.tick] at hscaled
        rw [← le_div_iff₀ (pow10_pos g.priceScale)] at hscaled
        rwa [zpow_neg _ g.priceScale, ← div_eq_mul_inv (2 ^ 63 : ℚ), ← zpow_neg]
      obtain ⟨heq, -, habove, hdvd⟩ := ceilToStep_value hv hfits hg.tickNonneg hc hroom
      refine ⟨?_, ?_, hdvd, fun _ => habove⟩
      · rw [Grid.price, hvalue, ← hg.tick]
        exact heq
      · show ceilToStep (level.price.unitsAt g.priceScale) t ≤ int64Max
        rcases hg.tickNonneg.eq_or_lt with hzero | hpos
        · have hsame : ceilToStep (level.price.unitsAt g.priceScale) t =
              level.price.unitsAt g.priceScale := if_pos hzero.ge
          rw [hsame]
          exact hfits.2
        · unfold int64Max
          omega

theorem Grid.ask_price_pos {level : BookLevel} (hp : 0 < level.price.units) :
    0 < g.price .ask level := by
  have hvalue : 0 < level.price.toRat := mul_pos (cast_pos.mpr hp) (pow10_pos _)
  unfold Grid.price ceilTo
  split_ifs with htick
  · exact mul_pos (cast_pos.mpr (ceil_pos.mpr (div_pos hvalue htick))) htick
  · exact hvalue

theorem normalizeLevel_spec (hg : GridUnits g t l m) (hprice : level.price.scale ≤ g.priceScale)
    (hqty : level.qty.scale ≤ g.qtyScale)
    (hup : side = .ask → g.Admits side level →
      (g.price side level + g.tick) * (10 : ℚ) ^ g.priceScale ≤ 2 ^ 63) :
    (normalizeLevel side g.priceScale g.qtyScale t l m level = none ∧ ¬ g.Admits side level) ∨
      ∃ x, normalizeLevel side g.priceScale g.qtyScale t l m level = some x ∧
        Normalizes g side t l m level x := by
  by_cases hpositive : level.price.units ≤ 0 ∨ level.qty.units ≤ 0
  · refine .inl ⟨if_pos hpositive, fun h => ?_⟩
    rcases hpositive with hp | hq
    · exact absurd h.pricePositive (not_lt.mpr hp)
    · exact absurd h.qtyPositive (not_lt.mpr hq)
  obtain ⟨hp, hq⟩ := not_or.mp hpositive
  have hpUnits : 0 < level.price.units := not_le.mp hp
  have hqUnits : 0 < level.qty.units := not_le.mp hq
  have hpAlign := alignToScale_eq hpUnits hprice hg.priceScale
  have hqAlign := alignToScale_eq hqUnits hqty hg.qtyScale
  by_cases hpFits : Int64Fits (level.price.unitsAt g.priceScale)
  swap
  · refine .inl ⟨?_, fun h => hpFits h.priceFits⟩
    unfold normalizeLevel
    rw [if_neg hpositive, hpAlign, if_neg hpFits]
  by_cases hqFits : Int64Fits (level.qty.unitsAt g.qtyScale)
  swap
  · refine .inl ⟨?_, fun h => hqFits h.qtyFits⟩
    unfold normalizeLevel
    rw [if_neg hpositive, hpAlign, hqAlign, if_pos hpFits, if_neg hqFits]
  rw [if_pos hpFits] at hpAlign
  rw [if_pos hqFits] at hqAlign
  rw [normalizeLevel_of_aligned hpUnits hqUnits hpAlign hqAlign]
  -- the quantity is rounded without overflow
  have hc := pow10_pos (-g.qtyScale)
  have hqv : 0 < level.qty.unitsAt g.qtyScale := mul_pos hqUnits (by positivity)
  obtain ⟨hqValue, -, hqBelow, hqDvd⟩ := floorToStep_value hqv.le hg.lotNonneg hc
  rw [hg.lot, ← toRat_eq_unitsAt level.qty hqty] at hqValue
  change _ = g.qty level at hqValue
  generalize hqOn : floorToStep (level.qty.unitsAt g.qtyScale) l = q at *
  have hqPos : 0 < g.qty level ↔ 0 < q := by
    rw [← hqValue, mul_pos_iff_of_pos_right hc, cast_pos]
  have hqMin : g.minQty ≤ g.qty level ↔ m ≤ q := by
    rw [← hqValue, ← hg.minQty, mul_le_mul_iff_of_pos_right hc, cast_le]
  by_cases hqKept : 0 < q ∧ m ≤ q
  swap
  · refine .inl ⟨?_, fun h => hqKept ⟨hqPos.mp h.qtyKept, hqMin.mp h.minQty⟩⟩
    split_ifs with hzero hsmall
    · rfl
    · rfl
    · omega
  obtain ⟨hqKeptPos, hqKeptMin⟩ := hqKept
  have hroom : side = .ask → (g.price side level + g.tick) * (10 : ℚ) ^ g.priceScale ≤ 2 ^ 63 := by
    rintro rfl
    refine hup rfl ⟨hpUnits, hqUnits, hpFits, hqFits, ?_, hqPos.mpr hqKeptPos, hqMin.mpr hqKeptMin⟩
    exact Grid.ask_price_pos hpUnits
  obtain ⟨hpValue, hpMax, hpDvd, hpAbove⟩ := priceUnits_value hg hprice hpUnits hpFits hroom
  generalize priceUnitsOn side t (level.price.unitsAt g.priceScale) = p at *
  have hpPos : 0 < g.price side level ↔ 0 < p := by
    rw [← hpValue, mul_pos_iff_of_pos_right (pow10_pos _), cast_pos]
  by_cases hpKept : 0 < p
  · refine .inr ⟨⟨p, q⟩, ?_, ⟨hpUnits, hqUnits, hpFits, hqFits, hpPos.mpr hpKept,
      hqPos.mpr hqKeptPos, hqMin.mpr hqKeptMin⟩,
      ⟨hpKept, hpMax, hpDvd, hpAbove, hqKeptPos, hqBelow.trans hqFits.2, hqDvd, hqKeptMin⟩,
      hpValue, hqValue⟩
    rw [if_neg (by omega), if_neg (by omega)]
  · exact .inl ⟨if_pos (.inl (not_lt.mp hpKept)), fun h => hpKept (hpPos.mp h.priceKept)⟩

theorem normalizeLevel_canonicalLevel {priceScale qtyScale : Int} {x : NormalizedLevel}
    (ht : 0 ≤ t) (hl : 0 ≤ l) (hps : 0 ≤ priceScale) (hqs : 0 ≤ qtyScale)
    (h : OnGrid side t l m x) :
    normalizeLevel side priceScale qtyScale t l m (canonicalLevel priceScale qtyScale x) =
      some x := by
  obtain ⟨hprice, hpriceMax, htick, habove, hqty, hqtyMax, hlot, hmin⟩ := h
  have hpFits : Int64Fits x.priceUnits := ⟨le_trans (by decide) hprice.le, hpriceMax⟩
  have hqFits : Int64Fits x.qtyUnits := ⟨le_trans (by decide) hqty.le, hqtyMax⟩
  have halign : ∀ (units scale : Int) (hfits : Int64Fits units), 0 ≤ scale →
      alignToScale ⟨units, scale, hfits⟩ scale = some units := by
    intro units scale hfits hscale
    unfold alignToScale
    rw [if_neg (not_lt.mpr hscale), if_pos rfl]
  have hfloor : ∀ v s : Int, 0 < v → 0 ≤ s → (0 < s → s ∣ v) → floorToStep v s = v := by
    intro v s hv hs hdvd
    unfold floorToStep
    rcases hs.eq_or_lt with rfl | hpos
    · exact if_pos le_rfl
    · rw [if_neg (not_le.mpr hpos), if_pos hv.le, Int.tdiv_mul_cancel (hdvd hpos)]
  have hceil : side = .ask → ceilToStep x.priceUnits t = x.priceUnits := by
    intro hside
    have hroom := habove hside
    unfold ceilToStep
    rcases ht.eq_or_lt with rfl | hpos
    · exact if_pos le_rfl
    · have hinner : Int64Fits (x.priceUnits + t - 1) := by
        unfold Int64Fits int64Min int64Max
        omega
      obtain ⟨n, hn⟩ := htick hpos
      have hquotient : (x.priceUnits + t - 1) / t = n := by
        rw [hn, show t * n + t - 1 = t - 1 + t * n by ring, add_mul_ediv_left _ _ hpos.ne',
          ediv_eq_zero_of_lt (by omega) (by omega), zero_add]
      rw [if_neg (not_le.mpr hpos), if_pos hprice.le, wrap64_of_fits hinner,
        tdiv_eq_ediv_of_nonneg (by omega), hquotient, mul_comm, ← hn, wrap64_of_fits hpFits]
  have hlevel : canonicalLevel priceScale qtyScale x =
      ⟨⟨x.priceUnits, priceScale, hpFits⟩, ⟨x.qtyUnits, qtyScale, hqFits⟩⟩ := by
    unfold canonicalLevel
    congr 1
    · exact eq_of_units_of_scale (wrap64_of_fits hpFits) rfl
    · exact eq_of_units_of_scale (wrap64_of_fits hqFits) rfl
  have hrounded : priceUnitsOn side t x.priceUnits = x.priceUnits := by
    cases side with
    | bid => exact hfloor _ _ hprice ht htick
    | ask => exact hceil rfl
  rw [hlevel, normalizeLevel_of_aligned hprice hqty (halign _ _ hpFits hps)
    (halign _ _ hqFits hqs), hrounded, hfloor _ _ hqty hl hlot, if_neg (by omega),
    if_neg (by omega)]

end OneLevel

section Order

variable {α : Type*} [Preorder α] {side : DepthBookSide} {a b c : α}

theorem Ahead.trans (hab : Ahead side a b) (hbc : Ahead side b c) : Ahead side a c := by
  cases side with
  | bid => exact @lt_trans α _ c b a hbc hab
  | ask => exact @lt_trans α _ a b c hab hbc

theorem Ahead.ne (h : Ahead side a b) : a ≠ b := by
  rintro rfl
  cases side with
  | bid => exact lt_irrefl a h
  | ask => exact lt_irrefl a h

end Order

instance (side : DepthBookSide) : Std.Total (levelLe side) where
  total a b := by
    unfold levelLe
    cases side <;> dsimp only <;> split_ifs <;> omega

instance (side : DepthBookSide) : IsTrans NormalizedLevel (levelLe side) where
  trans a b c hab hbc := by
    unfold levelLe at *
    cases side <;> dsimp only at * <;> split_ifs at * <;> omega

instance (side : DepthBookSide) : Std.Antisymm (levelLe side) where
  antisymm a b hab hba := by
    obtain ⟨p, q⟩ := a
    obtain ⟨p', q'⟩ := b
    unfold levelLe at hab hba
    have heq : p = p' ∧ q = q' := by
      cases side <;> dsimp only at hab hba <;> split_ifs at hab hba <;> omega
    rw [heq.1, heq.2]

theorem price_of_levelLe {side : DepthBookSide} {a b : NormalizedLevel} (h : levelLe side a b) :
    a.priceUnits = b.priceUnits ∨ Ahead side a.priceUnits b.priceUnits := by
  unfold levelLe at h
  by_cases heq : a.priceUnits = b.priceUnits
  · exact .inl heq
  · rw [if_neg heq] at h
    cases side with
    | bid => exact .inr h
    | ask => exact .inr h

theorem levelLe_of_ahead {side : DepthBookSide} {a b : NormalizedLevel}
    (h : Ahead side a.priceUnits b.priceUnits) : levelLe side a b := by
  unfold levelLe
  rw [if_neg h.ne]
  cases side with
  | bid => exact h
  | ask => exact h

/-- A level in units as a quantity at its price. -/
def keyed (x : NormalizedLevel) : Int × Int :=
  (x.priceUnits, x.qtyUnits)

theorem keyed_injective : Function.Injective keyed := by
  rintro ⟨p, q⟩ ⟨p', q'⟩ h
  cases h
  rfl

section AllLevels

variable {g : Grid} {side : DepthBookSide} {t l m : Int} {levels : List BookLevel}
  {normalized : List NormalizedLevel}

theorem totalAt_cons (level : BookLevel) (rest : List BookLevel) (p : ℚ) :
    g.totalAt side (level :: rest) p =
      if g.Admits side level ∧ g.price side level = p then g.qty level + g.totalAt side rest p
      else g.totalAt side rest p := by
  unfold Grid.totalAt
  by_cases h : g.Admits side level ∧ g.price side level = p
  · simp [h]
  · simp [h]

theorem total_normalized
    (hspec : ∀ level ∈ levels,
      (normalizeLevel side g.priceScale g.qtyScale t l m level = none ∧ ¬ g.Admits side level) ∨
        ∃ x, normalizeLevel side g.priceScale g.qtyScale t l m level = some x ∧
          Normalizes g side t l m level x) (p : Int) :
    ((keySum p ((levels.filterMap (normalizeLevel side g.priceScale g.qtyScale t l m)).map keyed) :
        Int) : ℚ) * (10 : ℚ) ^ (-g.qtyScale) =
      g.totalAt side levels (p * (10 : ℚ) ^ (-g.priceScale)) := by
  induction levels with
  | nil => simp [Grid.totalAt]
  | cons level rest ih =>
      obtain ⟨hlevel, hrest⟩ := forall_mem_cons.mp hspec
      rw [totalAt_cons, ← ih hrest]
      rcases hlevel with ⟨hnone, hnot⟩ | ⟨x, hsome, hx⟩
      · rw [filterMap_cons_none hnone, if_neg (fun h => hnot h.1)]
      · have hkey : x.priceUnits = p ↔ g.price side level = p * (10 : ℚ) ^ (-g.priceScale) := by
          rw [← hx.price, mul_left_inj' (pow10_pos _).ne', Int.cast_inj]
        rw [filterMap_cons_some hsome, map_cons, Lib.keySum_cons]
        by_cases hp : x.priceUnits = p
        · have hsame : (keyed x).1 = p := hp
          rw [if_pos hsame, if_pos ⟨hx.admits, hkey.mp hp⟩, ← hx.qty]
          push_cast
          exact add_mul _ _ _
        · have hother : ¬ (keyed x).1 = p := hp
          rw [if_neg hother, if_neg (fun h => hp (hkey.mpr h.2))]

theorem aggregateLevels_eq {sorted : List NormalizedLevel}
    (hsorted : sorted.Pairwise (fun a b =>
      a.priceUnits = b.priceUnits ∨ Ahead side a.priceUnits b.priceUnits))
    (hpos : ∀ x ∈ sorted, 0 ≤ x.qtyUnits)
    (hfits : ∀ x ∈ sorted, keySum x.priceUnits (sorted.map keyed) ≤ int64Max) :
    (aggregateLevels sorted).map keyed = mergeKeys (sorted.map keyed) := by
  have hkeyed : ∀ part : List NormalizedLevel, (∀ x ∈ part, 0 ≤ x.qtyUnits) →
      ∀ p ∈ part.map keyed, 0 ≤ p.2 := by
    intro part hpart p hp
    obtain ⟨x, hx, rfl⟩ := mem_map.mp hp
    exact hpart x hx
  induction sorted with
  | nil => rfl
  | cons level rest ih =>
      obtain ⟨hhead, htail⟩ := pairwise_cons.mp hsorted
      obtain ⟨hlevel, hrest⟩ := forall_mem_cons.mp hpos
      have hmerged := ih htail hrest (by
        intro x hx
        refine le_trans ?_ (hfits x (mem_cons_of_mem _ hx))
        rw [map_cons, Lib.keySum_cons]
        split_ifs
        · exact le_add_of_nonneg_left hlevel
        · exact le_rfl)
      have hstrict : (mergeKeys (rest.map keyed)).Pairwise (fun p q => Ahead side p.1 q.1) := by
        refine Lib.mergeKeys_strict Ahead.trans ?_
        rw [pairwise_map]
        exact htail
      rw [map_cons, mergeKeys, aggregateLevels, ← hmerged]
      cases haggregated : aggregateLevels rest with
      | nil => rfl
      | cons next others =>
          rw [map_cons]
          dsimp only
          by_cases hkey : next.priceUnits = level.priceUnits
          · have hsame : (keyed next).1 = (keyed level).1 := hkey
            have hnext : next.qtyUnits = keySum level.priceUnits (rest.map keyed) := by
              have hmem : keyed next ∈ mergeKeys (rest.map keyed) := by
                rw [← hmerged, haggregated]
                exact mem_map_of_mem mem_cons_self
              have hvalue := Lib.eq_keySum_of_mem (hstrict.imp Ahead.ne) hmem
              rw [Lib.keySum_mergeKeys, hsame] at hvalue
              exact hvalue
            have hsum : level.qtyUnits + next.qtyUnits ≤ int64Max := by
              have hbound := hfits level mem_cons_self
              rw [map_cons, Lib.keySum_cons, ← hnext] at hbound
              exact (if_pos rfl).symm.trans_le hbound
            have hnonneg : 0 ≤ next.qtyUnits := by
              rw [hnext]
              exact Lib.keySum_nonneg (hkeyed rest hrest)
            have hfit : Int64Fits (level.qtyUnits + next.qtyUnits) :=
              ⟨le_trans (by decide) (add_nonneg hlevel hnonneg), hsum⟩
            rw [if_pos hkey, if_pos hsame]
            refine congrArg (· :: others.map keyed) (Prod.ext rfl ?_)
            exact wrap64_of_fits hfit
          · have hother : ¬ (keyed next).1 = (keyed level).1 := hkey
            rw [if_neg hkey, if_neg hother]
            rfl

/-- What is made of the levels in units: each price once, the best first, with the sum of its
quantities, and still on the grid. -/
theorem aggregated_spec (hgrid : ∀ y ∈ normalized, OnGrid side t l m y)
    (hfits : ∀ y ∈ normalized, keySum y.priceUnits (normalized.map keyed) ≤ int64Max) :
    let aggregated := aggregateLevels (normalized.insertionSort (levelLe side))
    aggregated.Pairwise (fun a b => Ahead side a.priceUnits b.priceUnits) ∧
      (∀ x ∈ aggregated, OnGrid side t l m x ∧
        x.qtyUnits = keySum x.priceUnits (normalized.map keyed) ∧
        ∃ y ∈ normalized, y.priceUnits = x.priceUnits) ∧
      ∀ y ∈ normalized, ∃ x ∈ aggregated, x.priceUnits = y.priceUnits := by
  have hperm := perm_insertionSort (levelLe side) normalized
  generalize hlist : normalized.insertionSort (levelLe side) = sorted at *
  have hsorted : sorted.Pairwise (fun a b =>
      a.priceUnits = b.priceUnits ∨ Ahead side a.priceUnits b.priceUnits) := by
    rw [← hlist]
    exact (pairwise_insertionSort (levelLe side) normalized).imp price_of_levelLe
  have htotal : ∀ p, keySum p (sorted.map keyed) = keySum p (normalized.map keyed) :=
    fun p => Lib.keySum_perm (hperm.map keyed)
  have hmerged : (aggregateLevels sorted).map keyed = mergeKeys (sorted.map keyed) := by
    refine aggregateLevels_eq hsorted ?_ ?_
    · exact fun x hx => (hgrid x (hperm.mem_iff.mp hx)).qty.le
    · intro x hx
      rw [htotal]
      exact hfits x (hperm.mem_iff.mp hx)
  have hstrict : (mergeKeys (sorted.map keyed)).Pairwise (fun p q => Ahead side p.1 q.1) := by
    refine mergeKeys_strict Ahead.trans ?_
    rw [pairwise_map]
    exact hsorted
  have hnonneg : ∀ p ∈ normalized.map keyed, 0 ≤ p.2 := by
    intro p hp
    obtain ⟨y, hy, rfl⟩ := mem_map.mp hp
    exact (hgrid y hy).qty.le
  refine ⟨?_, ?_, ?_⟩
  · rw [← hmerged, pairwise_map] at hstrict
    exact hstrict
  · intro x hx
    have hmem : keyed x ∈ mergeKeys (sorted.map keyed) :=
      hmerged ▸ mem_map_of_mem hx
    have hvalue : x.qtyUnits = keySum x.priceUnits (normalized.map keyed) := by
      have hsum := eq_keySum_of_mem (hstrict.imp Ahead.ne) hmem
      rw [keySum_mergeKeys] at hsum
      exact hsum.trans (htotal x.priceUnits)
    obtain ⟨v, hv⟩ := exists_mem_mergeKeys.mp ⟨x.qtyUnits, hmem⟩
    obtain ⟨y, hy, heq⟩ := mem_map.mp hv
    have hyMem := hperm.mem_iff.mp hy
    have hprice : y.priceUnits = x.priceUnits := congrArg Prod.fst heq
    have hyGrid := hgrid y hyMem
    have hyQty : y.qtyUnits ≤ x.qtyUnits := by
      rw [hvalue, ← hprice]
      exact le_keySum hnonneg (mem_map_of_mem (f := keyed) hyMem)
    refine ⟨hyGrid.merged hprice hyQty ?_ ?_, hvalue, y, hyMem, hprice⟩
    · rw [hvalue, ← hprice]
      exact hfits y hyMem
    · intro hl
      rw [hvalue]
      refine dvd_sum ?_
      intro q hq
      obtain ⟨p, hp, rfl⟩ := mem_map.mp hq
      obtain ⟨z, hz, rfl⟩ := mem_map.mp (mem_filter.mp hp).1
      exact (hgrid z hz).lot hl
  · intro y hy
    obtain ⟨v, hv⟩ := exists_mem_mergeKeys.mpr
      ⟨y.qtyUnits, mem_map_of_mem (f := keyed) (hperm.mem_iff.mpr hy)⟩
    rw [← hmerged] at hv
    obtain ⟨x, hx, heq⟩ := mem_map.mp hv
    exact ⟨x, hx, congrArg Prod.fst heq⟩

end AllLevels

section Side

variable {side : DepthBookSide} {levels : List BookLevel} {config : DepthCanonicalizationConfig}
  {priceScale qtyScale t l m : Int} {maxLevels : Nat} {units : List NormalizedLevel}

theorem canonicalizeAt_canonical (ht : 0 ≤ t) (hl : 0 ≤ l) (hps : 0 ≤ priceScale)
    (hqs : 0 ≤ qtyScale) (hgrid : ∀ x ∈ units, OnGrid side t l m x)
    (hordered : units.Pairwise (fun a b => Ahead side a.priceUnits b.priceUnits))
    (hmax : 0 < maxLevels → units.length ≤ maxLevels) :
    canonicalizeAt (units.map (canonicalLevel priceScale qtyScale)) side maxLevels priceScale
        qtyScale t l m = units.map (canonicalLevel priceScale qtyScale) := by
  have hnormalized : (units.map (canonicalLevel priceScale qtyScale)).filterMap
      (normalizeLevel side priceScale qtyScale t l m) = units := by
    rw [filterMap_map]
    refine (filterMap_congr fun x hx => ?_).trans (filterMap_some (l := units))
    exact normalizeLevel_canonicalLevel ht hl hps hqs (hgrid x hx)
  have hsorted : units.insertionSort (levelLe side) = units :=
    (hordered.imp levelLe_of_ahead).insertionSort_eq
  have hkeys : (units.map keyed).Pairwise (fun p q => p.1 ≠ q.1) := by
    rw [pairwise_map]
    exact hordered.imp Ahead.ne
  have hmerged : aggregateLevels units = units := by
    apply map_injective_iff.mpr keyed_injective
    rw [aggregateLevels_eq (hordered.imp .inr), Lib.mergeKeys_of_ne hkeys]
    · exact fun x hx => (hgrid x hx).qty.le
    · intro x hx
      have hvalue : x.qtyUnits = keySum x.priceUnits (units.map keyed) :=
        Lib.eq_keySum_of_mem hkeys (mem_map_of_mem (f := keyed) hx)
      rw [← hvalue]
      exact (hgrid x hx).qtyMax
  have htrimmed : (if 0 < maxLevels then units.take maxLevels else units) = units := by
    split_ifs with hpos
    · exact take_of_length_le (hmax hpos)
    · rfl
  unfold canonicalizeAt
  dsimp only
  rw [hnormalized, hsorted, hmerged, htrimmed]

theorem canonicalizeBookSide_perm {levels' : List BookLevel} (h : levels'.Perm levels) :
    canonicalizeBookSide levels' side config = canonicalizeBookSide levels side config := by
  have hscale : ∀ (scaleOf : BookLevel → Int) (start : Int),
      levels'.foldl (fun s level => max s (scaleOf level)) start =
        levels.foldl (fun s level => max s (scaleOf level)) start := by
    intro scaleOf start
    exact h.foldl_eq' (fun x _ y _ z => max_right_comm z (scaleOf x) (scaleOf y)) start
  have hpriceScale : detectPriceScale levels' config = detectPriceScale levels config :=
    hscale _ _
  have hqtyScale : detectQtyScale levels' config = detectQtyScale levels config := hscale _ _
  have hsorted : ∀ f : BookLevel → Option NormalizedLevel,
      (levels'.filterMap f).insertionSort (levelLe side) =
        (levels.filterMap f).insertionSort (levelLe side) := by
    intro f
    refine List.Perm.eq_of_pairwise' (pairwise_insertionSort (levelLe side) _)
      (pairwise_insertionSort (levelLe side) _) ?_
    exact ((perm_insertionSort _ _).trans (h.filterMap f)).trans (perm_insertionSort _ _).symm
  unfold canonicalizeBookSide canonicalizeAt
  dsimp only
  rw [hpriceScale, hqtyScale, hsorted]

theorem start_le_detectPriceScale (levels : List BookLevel) (config : DepthCanonicalizationConfig) :
    0 ≤ detectPriceScale levels config ∧
      (0 < config.tickSize.units → config.tickSize.scale ≤ detectPriceScale levels config) := by
  have hstart := (le_foldl_max (fun level => level.price.scale) levels
    (if 0 < config.tickSize.units then max 0 config.tickSize.scale else 0)).1
  unfold detectPriceScale
  constructor
  · refine le_trans ?_ hstart
    split_ifs
    · exact le_max_left _ _
    · exact le_rfl
  · intro htick
    refine le_trans ?_ hstart
    rw [if_pos htick]
    exact le_max_right _ _

/-- The scale before the levels are seen. -/
def qtyScaleStart (config : DepthCanonicalizationConfig) : Int :=
  let scale := if 0 < config.lotSize.units then max 0 config.lotSize.scale else 0
  if 0 < config.minQty.units then max scale config.minQty.scale else scale

theorem qtyScaleStart_spec (config : DepthCanonicalizationConfig) :
    0 ≤ qtyScaleStart config ∧
      (0 < config.lotSize.units → config.lotSize.scale ≤ qtyScaleStart config) ∧
      (0 < config.minQty.units → config.minQty.scale ≤ qtyScaleStart config) := by
  unfold qtyScaleStart
  dsimp only
  split_ifs <;> refine ⟨?_, ?_, ?_⟩ <;> omega

theorem start_le_detectQtyScale (levels : List BookLevel) (config : DepthCanonicalizationConfig) :
    qtyScaleStart config ≤ detectQtyScale levels config :=
  (le_foldl_max (fun level => level.qty.scale) levels (qtyScaleStart config)).1

theorem gridUnits (levels : List BookLevel) (config : DepthCanonicalizationConfig) :
    GridUnits (gridOf levels config) (stepUnits config.tickSize (detectPriceScale levels config))
      (stepUnits config.lotSize (detectQtyScale levels config))
      (stepUnits config.minQty (detectQtyScale levels config)) := by
  obtain ⟨hprice, htick⟩ := start_le_detectPriceScale levels config
  obtain ⟨hzero, hlot, hmin⟩ := qtyScaleStart_spec config
  have hstart := start_le_detectQtyScale levels config
  have hqty := hzero.trans hstart
  obtain ⟨htickValue, htickNonneg⟩ := stepUnits_value hprice htick
  obtain ⟨hlotValue, hlotNonneg⟩ := stepUnits_value hqty fun h => (hlot h).trans hstart
  obtain ⟨hminValue, hminNonneg⟩ := stepUnits_value hqty fun h => (hmin h).trans hstart
  exact ⟨hprice, hqty, htickValue, htickNonneg, hlotValue, hlotNonneg, hminValue, hminNonneg⟩

/-- The levels of a side in units: what is left of the levels, sorted, merged and cut. -/
def unitsOf (levels : List BookLevel) (side : DepthBookSide)
    (config : DepthCanonicalizationConfig) : List NormalizedLevel :=
  let normalized := levels.filterMap (normalizeLevel side (detectPriceScale levels config)
    (detectQtyScale levels config) (stepUnits config.tickSize (detectPriceScale levels config))
    (stepUnits config.lotSize (detectQtyScale levels config))
    (stepUnits config.minQty (detectQtyScale levels config)))
  let aggregated := aggregateLevels (normalized.insertionSort (levelLe side))
  if 0 < config.maxLevelsPerSide then aggregated.take config.maxLevelsPerSide else aggregated

theorem canonicalizeBookSide_eq (levels : List BookLevel) (side : DepthBookSide)
    (config : DepthCanonicalizationConfig) :
    canonicalizeBookSide levels side config = (unitsOf levels side config).map
      (canonicalLevel (detectPriceScale levels config) (detectQtyScale levels config)) := rfl

theorem canonicalLevel_toRat {x : NormalizedLevel} (h : OnGrid side t l m x) :
    (canonicalLevel priceScale qtyScale x).price.toRat =
        x.priceUnits * (10 : ℚ) ^ (-priceScale) ∧
      (canonicalLevel priceScale qtyScale x).qty.toRat = x.qtyUnits * (10 : ℚ) ^ (-qtyScale) := by
  have hprice : wrap64 x.priceUnits = x.priceUnits :=
    wrap64_of_fits ⟨le_trans (by decide) h.price.le, h.priceMax⟩
  have hqty : wrap64 x.qtyUnits = x.qtyUnits :=
    wrap64_of_fits ⟨le_trans (by decide) h.qty.le, h.qtyMax⟩
  constructor
  · exact congrArg (fun u : Int => (u : ℚ) * (10 : ℚ) ^ (-priceScale)) hprice
  · exact congrArg (fun u : Int => (u : ℚ) * (10 : ℚ) ^ (-qtyScale)) hqty

theorem ahead_mul {a b : Int} {c : ℚ} (hc : 0 < c) :
    Ahead side ((a : ℚ) * c) (b * c) ↔ Ahead side a b := by
  have hlt : ∀ x y : Int, (x : ℚ) * c < y * c ↔ x < y := by
    intro x y
    rw [mul_lt_mul_iff_of_pos_right hc, cast_lt]
  cases side with
  | bid => exact hlt b a
  | ask => exact hlt a b

theorem not_ahead_of_price {g : Grid} {level : BookLevel} :
    ¬ Ahead side (g.price side level) level.price.toRat := by
  have hround : ∀ q : ℚ, floorTo g.tick q ≤ q ∧ q ≤ ceilTo g.tick q := by
    intro q
    unfold floorTo ceilTo
    split_ifs with htick
    · exact ⟨(le_div_iff₀ htick).mp (floor_le _), (div_le_iff₀ htick).mp (le_ceil _)⟩
    · exact ⟨le_rfl, le_rfl⟩
  cases side with
  | bid => exact not_lt.mpr (hround level.price.toRat).1
  | ask => exact not_lt.mpr (hround level.price.toRat).2

end Side

section Normal

variable {levels : List BookLevel} {side : DepthBookSide} {config : DepthCanonicalizationConfig}

/-- A level in units has the price and the exact sum of the levels behind it. -/
structure Stands (g : Grid) (side : DepthBookSide) (t l m : Int) (levels : List BookLevel)
    (x : NormalizedLevel) : Prop where
  onGrid : OnGrid side t l m x
  total : (x.qtyUnits : ℚ) * (10 : ℚ) ^ (-g.qtyScale) =
    g.totalAt side levels (x.priceUnits * (10 : ℚ) ^ (-g.priceScale))
  source : ∃ source ∈ levels, g.Admits side source ∧
    g.price side source = x.priceUnits * (10 : ℚ) ^ (-g.priceScale)

theorem le_int64Max_of_scaled {units places : Int}
    (h : (units : ℚ) * (10 : ℚ) ^ (-places) * (10 : ℚ) ^ places < 2 ^ 63) : units ≤ int64Max := by
  rw [mul_assoc, ← zpow_add₀ (by norm_num), neg_add_cancel, zpow_zero, mul_one] at h
  have hlt : units < 2 ^ 63 := by exact_mod_cast h
  unfold int64Max
  omega

theorem mem_take_or_behind {α : Type} {R : α → α → Prop} {items : List α}
    (hordered : items.Pairwise R) (n : ℕ) {x : α} (hx : x ∈ items) :
    x ∈ items.take n ∨ (items.take n).length = n ∧ ∀ z ∈ items.take n, R z x := by
  have hsplit := take_append_drop n items
  rw [← hsplit, pairwise_append] at hordered
  rw [← hsplit, mem_append] at hx
  rcases hx with htake | hdrop
  · exact .inl htake
  · refine .inr ⟨?_, fun z hz => hordered.2.2 z hz x hdrop⟩
    have hlong := length_pos_of_mem hdrop
    rw [length_drop] at hlong
    rw [length_take]
    omega

theorem unitsOf_spec (h : (gridOf levels config).Fits side levels) :
    (unitsOf levels side config).Pairwise (fun a b => Ahead side a.priceUnits b.priceUnits) ∧
      (∀ x ∈ unitsOf levels side config, Stands (gridOf levels config) side
        (stepUnits config.tickSize (detectPriceScale levels config))
        (stepUnits config.lotSize (detectQtyScale levels config))
        (stepUnits config.minQty (detectQtyScale levels config)) levels x) ∧
      ∀ source ∈ levels, (gridOf levels config).Admits side source →
        ∃ p : Int, (p : ℚ) * (10 : ℚ) ^ (-(gridOf levels config).priceScale) =
            (gridOf levels config).price side source ∧
          ((∃ x ∈ unitsOf levels side config, x.priceUnits = p) ∨
            0 < config.maxLevelsPerSide ∧
              (unitsOf levels side config).length = config.maxLevelsPerSide ∧
              ∀ x ∈ unitsOf levels side config, Ahead side x.priceUnits p) := by
  have hcases : ∀ level ∈ levels, _ ∨ ∃ x, normalizeLevel side _ _ _ _ _ level = some x ∧ _ :=
    fun level hlevel => normalizeLevel_spec (gridUnits levels config)
      ((le_foldl_max (fun level => level.price.scale) levels _).2 level hlevel)
      ((le_foldl_max (fun level => level.qty.scale) levels _).2 level hlevel)
      fun hside hadmits => h.roundedUp hside level hlevel hadmits
  unfold unitsOf
  dsimp only
  generalize stepUnits config.tickSize (detectPriceScale levels config) = t at *
  generalize stepUnits config.lotSize (detectQtyScale levels config) = l at *
  generalize stepUnits config.minQty (detectQtyScale levels config) = m at *
  have htotal := total_normalized hcases
  have hsources : ∀ y ∈ levels.filterMap (normalizeLevel side (detectPriceScale levels config)
      (detectQtyScale levels config) t l m), ∃ source ∈ levels,
        Normalizes (gridOf levels config) side t l m source y := by
    intro y hy
    obtain ⟨source, hsource, hsome⟩ := mem_filterMap.mp hy
    rcases hcases source hsource with ⟨hnone, -⟩ | ⟨x, hx, hnormalizes⟩
    · exact absurd (hnone.symm.trans hsome) (by simp)
    · obtain rfl := Option.some.inj (hx.symm.trans hsome)
      exact ⟨source, hsource, hnormalizes⟩
  change ∀ p : Int, ((keySum p ((levels.filterMap (normalizeLevel side
    (detectPriceScale levels config) (detectQtyScale levels config) t l m)).map keyed) : Int) : ℚ) *
      (10 : ℚ) ^ (-(gridOf levels config).qtyScale) = _ at htotal
  have hmem : ∀ source ∈ levels, (gridOf levels config).Admits side source →
      ∃ y ∈ levels.filterMap (normalizeLevel side (detectPriceScale levels config)
        (detectQtyScale levels config) t l m),
          (y.priceUnits : ℚ) * (10 : ℚ) ^ (-(gridOf levels config).priceScale) =
            (gridOf levels config).price side source := by
    intro source hsource hadmits
    rcases hcases source hsource with ⟨-, hnot⟩ | ⟨y, hy, hnormalizes⟩
    · exact absurd hadmits hnot
    · exact ⟨y, mem_filterMap.mpr ⟨source, hsource, hy⟩, hnormalizes.price⟩
  generalize levels.filterMap (normalizeLevel side (detectPriceScale levels config)
    (detectQtyScale levels config) t l m) = normalized at *
  have hfits : ∀ y ∈ normalized, keySum y.priceUnits (normalized.map keyed) ≤ int64Max := by
    intro y hy
    obtain ⟨source, hsource, hnormalizes⟩ := hsources y hy
    have hbound := h.totals source hsource hnormalizes.admits
    rw [← hnormalizes.price, ← htotal] at hbound
    exact le_int64Max_of_scaled hbound
  obtain ⟨hordered, hstands, hall⟩ := aggregated_spec
    (fun y hy => (hsources y hy).elim fun _ hsource => hsource.2.onGrid) hfits
  generalize aggregateLevels (normalized.insertionSort (levelLe side)) = aggregated at *
  have hfull : ∀ x ∈ aggregated, Stands (gridOf levels config) side t l m levels x := by
    intro x hx
    obtain ⟨hgrid, hsum, y, hy, hprice⟩ := hstands x hx
    obtain ⟨source, hsource, hnormalizes⟩ := hsources y hy
    refine ⟨hgrid, ?_, source, hsource, hnormalizes.admits, ?_⟩
    · rw [hsum, htotal]
    · rw [← hprice, hnormalizes.price]
  have hkept : ∀ source ∈ levels, (gridOf levels config).Admits side source →
      ∃ x ∈ aggregated, (x.priceUnits : ℚ) * (10 : ℚ) ^ (-(gridOf levels config).priceScale) =
        (gridOf levels config).price side source := by
    intro source hsource hadmits
    obtain ⟨y, hy, hvalue⟩ := hmem source hsource hadmits
    obtain ⟨x, hx, hprice⟩ := hall y hy
    exact ⟨x, hx, by rw [hprice, hvalue]⟩
  by_cases hmax : 0 < config.maxLevelsPerSide
  · rw [if_pos hmax]
    refine ⟨hordered.sublist (take_sublist _ _), fun x hx => hfull x (mem_of_mem_take hx), ?_⟩
    intro source hsource hadmits
    obtain ⟨x, hx, hvalue⟩ := hkept source hsource hadmits
    refine ⟨x.priceUnits, hvalue, ?_⟩
    rcases mem_take_or_behind hordered config.maxLevelsPerSide hx with htake | ⟨hlong, hbehind⟩
    · exact .inl ⟨x, htake, rfl⟩
    · exact .inr ⟨hmax, hlong, hbehind⟩
  · rw [if_neg hmax]
    refine ⟨hordered, hfull, ?_⟩
    intro source hsource hadmits
    obtain ⟨x, hx, hvalue⟩ := hkept source hsource hadmits
    exact ⟨x.priceUnits, hvalue, .inl ⟨x, hx, rfl⟩⟩

theorem normalForm (h : (gridOf levels config).Fits side levels) :
    (gridOf levels config).NormalForm side config.maxLevelsPerSide levels
      (canonicalizeBookSide levels side config) := by
  obtain ⟨hordered, hstands, hcomplete⟩ := unitsOf_spec h
  have hunits := gridUnits levels config
  have hpow := pow10_pos (-(gridOf levels config).priceScale)
  have hvalues : ∀ x ∈ unitsOf levels side config,
      (canonicalLevel (detectPriceScale levels config) (detectQtyScale levels config) x).price.toRat
          = x.priceUnits * (10 : ℚ) ^ (-(gridOf levels config).priceScale) ∧
        (canonicalLevel (detectPriceScale levels config)
          (detectQtyScale levels config) x).qty.toRat =
            x.qtyUnits * (10 : ℚ) ^ (-(gridOf levels config).qtyScale) :=
    fun x hx => canonicalLevel_toRat (hstands x hx).onGrid
  have hmultiple : ∀ (u s : Int) (c step : ℚ), 0 < c → (s : ℚ) * c = step → (0 < s → s ∣ u) →
      0 < step → ∃ n : Int, (u : ℚ) * c = n * step := by
    intro u s c step hc hstep hdvd hpos
    rw [← hstep, mul_pos_iff_of_pos_right hc, cast_pos] at hpos
    obtain ⟨n, hn⟩ := hdvd hpos
    exact ⟨n, by rw [← hstep, hn]; push_cast; ring⟩
  rw [canonicalizeBookSide_eq]
  refine ⟨?_, ?_, ?_, ?_, ?_, ?_, ?_⟩
  · rw [pairwise_map]
    refine hordered.imp_of_mem fun {a b} ha hb hab => ?_
    rw [(hvalues a ha).1, (hvalues b hb).1]
    exact (ahead_mul hpow).mpr hab
  · intro level hlevel
    obtain ⟨x, hx, rfl⟩ := mem_map.mp hlevel
    have hgrid := (hstands x hx).onGrid
    rw [(hvalues x hx).1]
    refine ⟨mul_pos (cast_pos.mpr hgrid.price) hpow, ?_⟩
    exact hmultiple _ _ _ _ hpow hunits.tick hgrid.tick
  · intro level hlevel
    obtain ⟨x, hx, rfl⟩ := mem_map.mp hlevel
    have hgrid := (hstands x hx).onGrid
    rw [(hvalues x hx).2]
    refine ⟨mul_pos (cast_pos.mpr hgrid.qty) (pow10_pos _), ?_⟩
    exact hmultiple _ _ _ _ (pow10_pos _) hunits.lot hgrid.lot
  · intro level hlevel
    obtain ⟨x, hx, rfl⟩ := mem_map.mp hlevel
    rw [(hvalues x hx).1, (hvalues x hx).2, (hstands x hx).total]
  · intro level hlevel
    obtain ⟨x, hx, rfl⟩ := mem_map.mp hlevel
    rw [(hvalues x hx).1]
    exact (hstands x hx).source
  · intro level _ source _ _ hprice
    rw [← hprice]
    exact not_ahead_of_price
  · intro source hsource hadmits
    obtain ⟨p, hp, hfound | ⟨hmax, hlength, hahead⟩⟩ := hcomplete source hsource hadmits
    · obtain ⟨x, hx, rfl⟩ := hfound
      exact .inl ⟨_, mem_map_of_mem hx, (hvalues x hx).1.trans hp⟩
    · refine .inr ⟨hmax, by rw [length_map, hlength], ?_⟩
      intro level hlevel
      obtain ⟨x, hx, rfl⟩ := mem_map.mp hlevel
      rw [(hvalues x hx).1, ← hp]
      exact (ahead_mul hpow).mpr (hahead x hx)

theorem canonicalizeBookSide_idem (h : (gridOf levels config).Fits side levels) :
    canonicalizeBookSide (canonicalizeBookSide levels side config) side config =
      canonicalizeBookSide levels side config := by
  obtain ⟨hordered, hstands, -⟩ := unitsOf_spec h
  have hunits := gridUnits levels config
  rw [canonicalizeBookSide_eq levels]
  rcases (unitsOf levels side config).eq_nil_or_concat with hnil | ⟨init, last, hconcat⟩
  · rw [hnil]
    exact canonicalizeBookSide_of_none rfl
  have hne : (unitsOf levels side config).map
      (canonicalLevel (detectPriceScale levels config) (detectQtyScale levels config)) ≠ [] := by
    rw [hconcat]
    simp
  have hpriceScale : detectPriceScale ((unitsOf levels side config).map
      (canonicalLevel (detectPriceScale levels config) (detectQtyScale levels config))) config =
        detectPriceScale levels config := by
    refine foldl_max_of_eq ?_ hne (le_foldl_max (fun level => level.price.scale) levels _).1
    intro level hlevel
    obtain ⟨x, -, rfl⟩ := mem_map.mp hlevel
    rfl
  have hqtyScale : detectQtyScale ((unitsOf levels side config).map
      (canonicalLevel (detectPriceScale levels config) (detectQtyScale levels config))) config =
        detectQtyScale levels config := by
    refine foldl_max_of_eq ?_ hne (le_foldl_max (fun level => level.qty.scale) levels _).1
    intro level hlevel
    obtain ⟨x, -, rfl⟩ := mem_map.mp hlevel
    rfl
  have hlength : 0 < config.maxLevelsPerSide →
      (unitsOf levels side config).length ≤ config.maxLevelsPerSide := by
    intro hmax
    unfold unitsOf
    rw [if_pos hmax]
    exact length_take_le _ _
  rw [canonicalizeBookSide, hpriceScale, hqtyScale]
  exact canonicalizeAt_canonical hunits.tickNonneg hunits.lotNonneg hunits.priceScale
    hunits.qtyScale (fun x hx => (hstands x hx).onGrid) hordered hlength

end Normal

/-- The book of a side does not depend on the order of the levels; it is their normal form and
its own, where the sums of the quantities at one price and the tick above a price rounded up fit
64 bits. -/
theorem canonicalizeBookSide_normal (levels : List BookLevel) (side : DepthBookSide)
    (config : DepthCanonicalizationConfig) : let book := canonicalizeBookSide levels side config
    (∀ levels' : List BookLevel, levels'.Perm levels →
        canonicalizeBookSide levels' side config = book) ∧
      ((gridOf levels config).Fits side levels →
        (gridOf levels config).NormalForm side config.maxLevelsPerSide levels book ∧
          canonicalizeBookSide book side config = book) :=
  ⟨fun _ hperm => canonicalizeBookSide_perm hperm,
    fun h => ⟨normalForm h, canonicalizeBookSide_idem h⟩⟩

/-- Offers of several scales, out of order and with a price twice. -/
def mixedOffers : List BookLevel :=
  [{ price := Decimal.of 10017 2, qty := Decimal.of 25 1 },
    { price := Decimal.of 1001 1, qty := Decimal.of 4 0 },
    { price := Decimal.of 10011 2, qty := Decimal.of 123 2 },
    { price := Decimal.of 1003 1, qty := Decimal.of 5 2 }]

def stepsOf (tick lot : Decimal) : DepthCanonicalizationConfig where
  tickSize := tick
  lotSize := lot

theorem canonicalizeBookSide_normal_offers :
    let book := canonicalizeBookSide mixedOffers .ask (stepsOf (Decimal.of 1 1) (Decimal.of 1 1))
    (gridOf mixedOffers (stepsOf (Decimal.of 1 1) (Decimal.of 1 1))).NormalForm .ask 0 mixedOffers
        book ∧
      canonicalizeBookSide book .ask (stepsOf (Decimal.of 1 1) (Decimal.of 1 1)) = book :=
  (canonicalizeBookSide_normal mixedOffers .ask (stepsOf (Decimal.of 1 1) (Decimal.of 1 1))).2
    ⟨by decide +kernel, by decide +kernel⟩

/-- Where the numbers do not fit 64 bits: a level is dropped from the sum of its price, a price
stands between zero and the tick, a sum turns negative, and a price rounded up is dropped the
second time. -/
theorem canonicalizeBookSide_of_wide_numbers :
    (∃ l ∈ canonicalizeBookSide
        [{ price := Decimal.of 100 0, qty := Decimal.of 1000 0 },
          { price := Decimal.of 100 0, qty := Decimal.of 1 18 }]
        .bid (stepsOf Decimal.zero Decimal.zero),
      l.price = Decimal.of 100 0 ∧
        l.qty.toRat ≠ (Decimal.of 1000 0).toRat + (Decimal.of 1 18).toRat) ∧
    (∃ l ∈ canonicalizeBookSide
        [{ price := Decimal.of 5000000000000000001 18, qty := Decimal.of 1 0 }]
        .bid (stepsOf (Decimal.of 10 0) Decimal.zero),
      0 < l.price.toRat ∧ l.price.toRat < (Decimal.of 10 0).toRat) ∧
    (∃ l ∈ canonicalizeBookSide
        [{ price := Decimal.of 100 0, qty := Decimal.of 5000000000000000000 0 },
          { price := Decimal.of 100 0, qty := Decimal.of 5000000000000000000 0 }]
        .bid (stepsOf Decimal.zero Decimal.zero),
      l.qty.toRat < 0) ∧
    (canonicalizeBookSide
        (canonicalizeBookSide
          [{ price := Decimal.of 9223372036854775795 0, qty := Decimal.of 1 0 }]
          .ask (stepsOf (Decimal.of 10 0) Decimal.zero))
        .ask (stepsOf (Decimal.of 10 0) Decimal.zero)).length ≠
      (canonicalizeBookSide
        [{ price := Decimal.of 9223372036854775795 0, qty := Decimal.of 1 0 }]
        .ask (stepsOf (Decimal.of 10 0) Decimal.zero)).length := by
  refine ⟨?_, ?_, ?_, ?_⟩
  · decide +kernel
  · decide +kernel
  · decide +kernel
  · decide +kernel

end Venues
end ContExchange
