import ContExchange.Common.DecimalSums
import ContExchange.Ledger.PositionAgreement

/-!
# Ledger: realised PnL and cash flow

Prices and PnL are kept in cents: an increase rounds the average entry price, a
flip rounds the price of the new leg, and a reduce rounds what it realises.

The potential of the argument is the realised PnL less the position at its entry
price.  A fill raises it by its cash flow, up to one cent when it reduces and up
to half a cent for each unit of the position when it sets an entry price, and up to
what its products and sums lose to the 64 bits of a mantissa.  A flat position has no
entry value, so between two flat positions the potential is the realised PnL.
-/

namespace ContExchange
namespace Ledger

open Common Lib Decimal Option LedgerUseCases Position

/-- The realised PnL less the position at its entry price. -/
def marked (pos : Position) : ℚ :=
  pos.realisedPnl.toRat - pos.amount.toRat * pos.avgEntryPrice.toRat

/-- The rounding a trade may cause on a position of the given amount: half a cent
for each unit when it sets the entry price, a cent when it reduces. -/
def tradeSlack (amount traded : ℚ) : ℚ :=
  if traded = 0 then 0
  else if 0 ≤ amount * traded then |amount + traded| / 200
  else 1 / 100 + if |amount| < |traded| then |amount + traded| / 200 else 0

section Slack

variable {a v q p avg pnl pnl' loss : ℚ}

theorem slack_increase (buy : Bool) (hdir : if buy then 0 ≤ a else a ≤ 0) (hq : 0 < q)
    (havg : |avg - (|a| * v + q * p) / (|a| + q)| ≤ 1 / 200 + loss / (|a| + q)) :
    |pnl - (a + if buy then q else -q) * avg - (pnl - a * v) -
        (if buy then -(q * p) else q * p)| ≤ tradeSlack a (if buy then q else -q) + loss := by
  have hsum : 0 < |a| + q := by
    have := abs_nonneg a
    linarith
  have hscaled : |(|a| + q) * avg - (|a| * v + q * p)| ≤ (|a| + q) / 200 + loss := by
    have hsplit : (|a| + q) * avg - (|a| * v + q * p) =
        (|a| + q) * (avg - (|a| * v + q * p) / (|a| + q)) := by
      field_simp
    have hbound : (|a| + q) * (1 / 200 + loss / (|a| + q)) = (|a| + q) / 200 + loss := by
      field_simp
    rw [hsplit, abs_mul, abs_of_pos hsum, ← hbound]
    exact mul_le_mul_of_nonneg_left havg hsum.le
  rw [abs_le] at hscaled
  cases buy with
  | true =>
      simp only [if_true] at hdir ⊢
      rw [abs_of_nonneg hdir] at hscaled
      rw [tradeSlack, if_neg hq.ne', if_pos (mul_nonneg hdir hq.le),
        abs_of_pos (by linarith : 0 < a + q), abs_le]
      constructor <;> linarith
  | false =>
      simp only [Bool.false_eq_true, if_false] at hdir ⊢
      rw [abs_of_nonpos hdir] at hscaled
      rw [tradeSlack, if_neg (by linarith), if_pos (mul_nonneg_of_nonpos_of_nonpos hdir (by linarith)),
        abs_of_neg (by linarith : a + -q < 0), abs_le]
      constructor <;> linarith

theorem tradeSlack_of_against {d : ℚ} (hneg : a * d < 0) :
    tradeSlack a d = 1 / 100 + if |a| < |d| then |a + d| / 200 else 0 := by
  have hne : d ≠ 0 := right_ne_zero_of_mul hneg.ne
  rw [tradeSlack, if_neg hne, if_neg (not_le.mpr hneg)]

theorem slack_reduce
    (buy : Bool) (hdir : if buy then a < 0 else 0 < a) (hq : 0 < q) (hle : q ≤ |a|)
    (hpnl : |pnl' - pnl - (if 0 < a then p - v else v - p) * min q (|a|)| ≤ 1 / 100 + loss) :
    |pnl' - (a + if buy then q else -q) * v - (pnl - a * v) -
        (if buy then -(q * p) else q * p)| ≤ tradeSlack a (if buy then q else -q) + loss := by
  rw [min_eq_left hle, abs_le] at hpnl
  cases buy with
  | true =>
      simp only [if_true] at hdir ⊢
      rw [if_neg (by linarith)] at hpnl
      rw [tradeSlack_of_against (mul_neg_of_neg_of_pos hdir hq), abs_of_pos hq,
        if_neg (not_lt.mpr hle), abs_le]
      constructor <;> linarith
  | false =>
      simp only [Bool.false_eq_true, if_false] at hdir ⊢
      rw [if_pos hdir] at hpnl
      rw [tradeSlack_of_against (mul_neg_of_pos_of_neg hdir (by linarith)), abs_neg, abs_of_pos hq,
        if_neg (not_lt.mpr hle), abs_le]
      constructor <;> linarith

theorem slack_flip (buy : Bool) (hdir : if buy then a < 0 else 0 < a) (hlt : |a| < q)
    (hpnl : |pnl' - pnl - (if 0 < a then p - v else v - p) * min q (|a|)| ≤ 1 / 100 + loss)
    (hprice : |avg - p| ≤ 1 / 200) :
    |pnl' - (a + if buy then q else -q) * avg - (pnl - a * v) -
        (if buy then -(q * p) else q * p)| ≤ tradeSlack a (if buy then q else -q) + loss := by
  rw [min_eq_right hlt.le, abs_le] at hpnl
  have hq : 0 < q := (abs_nonneg a).trans_lt hlt
  have hleg : ∀ n : ℚ, |n * (avg - p)| ≤ |n| / 200 := by
    intro n
    rw [abs_mul]
    have := mul_le_mul_of_nonneg_left hprice (abs_nonneg n)
    linarith
  cases buy with
  | true =>
      simp only [if_true] at hdir ⊢
      have hn := abs_le.mp (hleg (a + q))
      rw [if_neg (by linarith), abs_of_neg hdir] at hpnl
      rw [tradeSlack_of_against (mul_neg_of_neg_of_pos hdir hq), abs_of_pos hq, if_pos hlt, abs_le]
      constructor <;> linarith
  | false =>
      simp only [Bool.false_eq_true, if_false] at hdir ⊢
      have hn := abs_le.mp (hleg (a + -q))
      rw [if_pos hdir, abs_of_pos hdir] at hpnl
      rw [tradeSlack_of_against (mul_neg_of_pos_of_neg hdir (by linarith)), abs_neg, abs_of_pos hq,
        if_pos hlt, abs_le]
      constructor <;> linarith

end Slack

theorem int64Fits_halfAway (value : Decimal) {den : Int} (hden : 2 ≤ den) :
    Int64Fits (halfAway value.units den) := by
  have herror := abs_halfAway_sub_le value.units (show den ≠ 0 by omega)
  have hq : (2 : ℚ) ≤ den := by exact_mod_cast hden
  have hunits : |(value.units : ℚ)| ≤ 2 ^ 63 := by exact_mod_cast abs_units_le value
  have hquotient : |(value.units : ℚ) / den| ≤ 2 ^ 62 := by
    rw [abs_div, abs_of_pos (by linarith : (0 : ℚ) < den), div_le_iff₀ (by linarith)]
    linarith
  have hbound : |(halfAway value.units den : ℚ)| ≤ 2 ^ 62 + 1 := by
    rw [abs_le] at herror hquotient ⊢
    constructor <;> linarith
  have hint : |halfAway value.units den| ≤ 2 ^ 62 + 1 := by exact_mod_cast hbound
  rw [abs_le] at hint
  unfold Int64Fits int64Min int64Max
  omega

/-- The places of a number that `rescale` divides without overflow. -/
def PlacesOk (value : Decimal) : Prop :=
  0 ≤ value.scale ∧ value.scale ≤ 38
deriving Decidable

/-- Cents are off by half a cent at most. -/
theorem rescale_cents {value : Decimal} (hplaces : PlacesOk value) :
    |(rescale value 2).toRat - value.toRat| ≤ 1 / 200 := by
  obtain ⟨hlow, hhigh⟩ := hplaces
  have hunits := abs_units_le value
  have hpow : (10 : Int) ^ (2 - value.scale + 0).natAbs ≤ 2 ^ 126 :=
    (pow_le_pow_right₀ (by norm_num) (show _ ≤ 36 by omega)).trans (by norm_num)
  rcases le_or_gt value.scale 2 with hle | hgt
  · -- nothing is dropped, and a number that does not fit in cents keeps its own places
    have hk : 0 ≤ 2 - value.scale + 0 := by omega
    have hnum : divNum value ⟨1, 0, int64Fits_one⟩ 2 = value.unitsAt 2 := by
      rw [divNum, if_pos hk, add_zero, unitsAt]
    have hden : divDen value ⟨1, 0, int64Fits_one⟩ 2 = 1 := if_pos hk
    have hvalue := toRat_eq_unitsAt value hle
    have hexact : (rescale value 2).toRat = value.toRat := by
      rw [rescale]
      split
      · rfl
      · have hwide : |value.unitsAt 2| ≤ 2 ^ 126 := by
          have hten : (10 : Int) ^ (2 - value.scale).toNat ≤ 10 ^ 2 :=
            pow_le_pow_right₀ (by norm_num) (by omega)
          rw [unitsAt, abs_mul, abs_of_pos (show (0 : Int) < 10 ^ _ by positivity)]
          exact (mul_le_mul hunits hten (by positivity) (by norm_num)).trans (by norm_num)
        rw [divUnits_eq_normalize (i128_of_abs_le (by rw [hnum]; exact hwide))
          (i128_of_abs_le (by rw [hden]; norm_num)) hpow, hnum, hden, halfAway_one, hvalue]
        refine (normalizeI128_of_held (by norm_num) (by norm_num) ?_).2
        rw [← hvalue]
        exact ScaleOk.held ⟨hlow, by omega⟩
    rw [hexact, sub_self, abs_zero]
    norm_num
  · have hk : ¬ 0 ≤ 2 - value.scale + 0 := by omega
    have hnum : divNum value ⟨1, 0, int64Fits_one⟩ 2 = value.units := if_neg hk
    have hden : divDen value ⟨1, 0, int64Fits_one⟩ 2 =
        10 ^ (-(2 - value.scale + 0)).toNat := by
      rw [divDen, if_neg hk, one_mul]
    have hfits : RescaleFits value 2 := by
      intro _
      refine ⟨by norm_num, ?_, ?_, hpow, ?_⟩
      · rw [hnum]
        exact hunits.trans (by norm_num)
      · rw [hden, abs_of_pos (by positivity)]
        exact (pow_le_pow_right₀ (by norm_num) (show _ ≤ 36 by omega)).trans (by norm_num)
      · rw [hnum, hden]
        refine int64Fits_halfAway value ?_
        have : (10 : Int) ^ 1 ≤ 10 ^ (-(2 - value.scale + 0)).toNat :=
          pow_le_pow_right₀ (by norm_num) (by omega)
        linarith
    exact (rescale_error hfits).trans (by norm_num)

/-- The products, their sum and the quotient of an increase are within their ranges. -/
def IncreaseFits (pos : Position) (qty price : Decimal) : Prop :=
  |pos.absAmount.toRat * pos.avgEntryPrice.toRat| < int64Max ∧
    |qty.toRat * price.toRat| < int64Max ∧
    Decimal.SumFits (Decimal.mul pos.absAmount pos.avgEntryPrice) (Decimal.mul qty price) ∧
    Decimal.DivFits
      (Decimal.add (Decimal.mul pos.absAmount pos.avgEntryPrice) (Decimal.mul qty price))
      (Decimal.add pos.absAmount qty) kPriceScale
deriving Decidable

/-- The differences, the product and the sum of a reduce, a close or a flip are within their
ranges. -/
def ReduceFits (pos : Position) (qty price : Decimal) : Prop :=
  Decimal.DiffFits price pos.avgEntryPrice ∧ Decimal.DiffFits pos.avgEntryPrice price ∧
    |(pos.priceDiff price).toRat * (Decimal.min qty pos.absAmount).toRat| < int64Max ∧
    PlacesOk (Decimal.mul (pos.priceDiff price) (Decimal.min qty pos.absAmount)) ∧
    Decimal.SumFits pos.realisedPnl (pos.realisedOn qty price) ∧
    PlacesOk (Decimal.add pos.realisedPnl (pos.realisedOn qty price)) ∧ PlacesOk price
deriving Decidable

/-- What the value of an increased position loses to the 64 bits. -/
def increaseLoss (pos : Position) (qty price : Decimal) : ℚ :=
  let oldValue := Decimal.mul pos.absAmount pos.avgEntryPrice
  let newValue := Decimal.mul qty price
  lost (pos.absAmount.scale + pos.avgEntryPrice.scale) oldValue +
    lost (qty.scale + price.scale) newValue +
    lost (max oldValue.scale newValue.scale) (Decimal.add oldValue newValue)

/-- What a realised PnL loses to the 64 bits. -/
def reduceLoss (pos : Position) (qty price : Decimal) : ℚ :=
  let closed := Decimal.min qty pos.absAmount
  let realised := pos.realisedOn qty price
  lost (max price.scale pos.avgEntryPrice.scale) (pos.priceDiff price) * closed.toRat +
    lost ((pos.priceDiff price).scale + closed.scale)
      (Decimal.mul (pos.priceDiff price) closed) +
    lost (max pos.realisedPnl.scale realised.scale) (Decimal.add pos.realisedPnl realised)

def tradeLoss (pos : Position) (buy : Bool) (qty price : Decimal) : ℚ :=
  if pos.Increases buy then increaseLoss pos qty price else reduceLoss pos qty price

/-- The quantity has at most eight decimals. -/
def EightPlaces (qty : Decimal) : Prop :=
  qty.ScaleOk ∧ (10 : Int) ^ (qty.scale - kQtyScale).toNat ∣ qty.units
deriving Decidable

/-- The mantissa of a quantity at eight decimals. -/
def eightUnits (qty : Decimal) : Int :=
  qty.unitsAt kQtyScale / 10 ^ (qty.scale - kQtyScale).toNat

/-- The amount of a position after a fill fits at eight decimals. -/
def NewAmountFits (amount : Decimal) (buy : Bool) (qty : Decimal) : Prop :=
  |eightUnits amount + if buy then eightUnits qty else -eightUnits qty| ≤ int64Max
deriving Decidable

/-- The numbers of a fill fit: the new amount, and those of the transition. -/
def TransitionFits (pos : Position) (buy : Bool) (qty price : Decimal) : Prop :=
  NewAmountFits pos.amount buy qty ∧ pos.amount.units ≠ int64Min ∧
    (pos.Increases buy → IncreaseFits pos qty price) ∧
    (¬ pos.Increases buy → ReduceFits pos qty price)
deriving Decidable

section EightPlaces

theorem kQtyScale_ok : 0 ≤ kQtyScale ∧ kQtyScale ≤ 18 := by decide

variable {qty value : Decimal}

theorem EightPlaces.toRat_eq (h : EightPlaces qty) :
    qty.toRat = eightUnits qty * (10 : ℚ) ^ (-kQtyScale) := by
  obtain ⟨-, k, hk⟩ := h
  unfold eightUnits
  rcases le_total qty.scale kQtyScale with hle | hge
  · have hnone : (qty.scale - kQtyScale).toNat = 0 := by omega
    rw [hnone, pow_zero, Int.ediv_one, toRat_eq_unitsAt qty hle]
  · have hpow : (10 : ℚ) ^ (-kQtyScale) =
        (10 : ℚ) ^ (qty.scale - kQtyScale).toNat * (10 : ℚ) ^ (-qty.scale) := by
      rw [← zpow_natCast, Int.toNat_of_nonneg (sub_nonneg.mpr hge), ← zpow_add₀ (by norm_num)]
      congr 1
      ring
    rw [unitsAt_of_le hge, hk, Int.mul_ediv_cancel_left _ (by positivity), hpow, toRat, hk]
    push_cast
    ring

theorem eightPlaces_of_ofScale (h : value.OfScale kQtyScale) : EightPlaces value := by
  have hnone : (value.scale - kQtyScale).toNat = 0 := by
    have := h.2
    omega
  refine ⟨h.scaleOk (by decide), ?_⟩
  rw [hnone, pow_zero]
  exact one_dvd _

theorem halfAway_mul (n : Int) {den : Int} (hden : den ≠ 0) : halfAway (n * den) den = n := by
  have herror := abs_halfAway_sub_le (n * den) hden
  have hq : (den : ℚ) ≠ 0 := by exact_mod_cast hden
  push_cast at herror
  rw [mul_div_assoc, div_self hq, mul_one] at herror
  have hlt : |halfAway (n * den) den - n| < 1 := by
    have : |(halfAway (n * den) den : ℚ) - n| < 1 := herror.trans_lt (by norm_num)
    exact_mod_cast this
  have := Int.abs_lt_one_iff.mp hlt
  omega

/-- A value that eight decimals hold is rescaled to them without loss. -/
theorem rescale_eight {n : Int} (hscale : value.ScaleOk) (hfits : Int64Fits n)
    (hvalue : value.toRat = n * (10 : ℚ) ^ (-kQtyScale)) :
    (rescale value kQtyScale).toRat = value.toRat ∧
      (rescale value kQtyScale).scale = kQtyScale := by
  obtain ⟨hlow, hhigh⟩ := hscale
  have hunits := abs_units_le value
  have hn := abs_le_of_int64Fits hfits
  have hrescale : RescaleFits value kQtyScale := by
    intro _
    have hpow : (10 : Int) ^ (kQtyScale - value.scale + 0).natAbs ≤ 2 ^ 126 :=
      (pow_le_pow_right₀ (by norm_num) (show _ ≤ 18 by unfold kQtyScale; omega)).trans
        (by norm_num)
    rcases le_total value.scale kQtyScale with hle | hge
    · have hk : 0 ≤ kQtyScale - value.scale + 0 := by omega
      have hnum : divNum value ⟨1, 0, int64Fits_one⟩ kQtyScale = n := by
        rw [toRat_eq_unitsAt value hle, mul_right_cancel_iff_of_pos (pow10_pos _)] at hvalue
        rw [divNum, if_pos hk, add_zero]
        exact_mod_cast hvalue
      have hden : divDen value ⟨1, 0, int64Fits_one⟩ kQtyScale = 1 := if_pos hk
      refine ⟨by norm_num, ?_, ?_, hpow, ?_⟩
      · rw [hnum]
        exact hn.trans (by norm_num)
      · rw [hden]
        norm_num
      · rw [hnum, hden, halfAway_one]
        exact hfits
    · rcases hge.eq_or_lt with heq | hlt
      · exact absurd heq.symm ‹_›
      · have hk : ¬ 0 ≤ kQtyScale - value.scale + 0 := by omega
        have hnat : (-(kQtyScale - value.scale + 0)).toNat = (value.scale - kQtyScale).toNat := by
          congr 1
          ring
        have hnum : divNum value ⟨1, 0, int64Fits_one⟩ kQtyScale =
            n * 10 ^ (value.scale - kQtyScale).toNat := by
          have hpow' : (10 : ℚ) ^ (-kQtyScale) =
              (10 : ℚ) ^ (value.scale - kQtyScale).toNat * (10 : ℚ) ^ (-value.scale) := by
            rw [← zpow_natCast, Int.toNat_of_nonneg (sub_nonneg.mpr hge),
              ← zpow_add₀ (by norm_num)]
            congr 1
            ring
          rw [hpow', toRat, ← mul_assoc, mul_right_cancel_iff_of_pos (pow10_pos _)] at hvalue
          rw [divNum, if_neg hk]
          exact_mod_cast hvalue
        have hden : divDen value ⟨1, 0, int64Fits_one⟩ kQtyScale =
            10 ^ (value.scale - kQtyScale).toNat := by
          rw [divDen, if_neg hk, hnat, one_mul]
        refine ⟨by norm_num, ?_, ?_, hpow, ?_⟩
        · rw [divNum, if_neg hk]
          exact hunits.trans (by norm_num)
        · rw [hden, abs_of_pos (by positivity)]
          exact (pow_le_pow_right₀ (by norm_num) (show _ ≤ 18 by unfold kQtyScale; omega)).trans
            (by norm_num)
        · rw [hnum, hden, halfAway_mul _ (by positivity)]
          exact hfits
  have herror := rescale_error hrescale
  have hplace := rescale_scale hrescale
  refine ⟨?_, hplace⟩
  have hp := pow10_pos (-kQtyScale)
  rw [hvalue, toRat, hplace, ← sub_mul, abs_mul, abs_of_pos hp,
    mul_le_mul_iff_of_pos_right hp] at herror
  have hlt : |(rescale value kQtyScale).units - n| < 1 := by
    have : |((rescale value kQtyScale).units : ℚ) - n| < 1 := herror.trans_lt (by norm_num)
    exact_mod_cast this
  have hsame := Int.abs_lt_one_iff.mp hlt
  rw [hvalue, toRat, hplace, show (rescale value kQtyScale).units = n by omega]

end EightPlaces

section Opposite

variable {amount qty : ℚ} (buy : Bool)

theorem le_abs_of_close (hopp : if buy then amount < 0 else 0 < amount)
    (hzero : amount + (if buy then qty else -qty) = 0) : qty ≤ |amount| := by
  cases buy with
  | true =>
      simp only [if_true] at hopp hzero
      rw [abs_of_neg hopp]
      linarith
  | false =>
      simp only [Bool.false_eq_true, if_false] at hopp hzero
      rw [abs_of_pos hopp]
      linarith

theorem le_abs_of_same_side (hopp : if buy then amount < 0 else 0 < amount)
    (hside : (0 < amount) = (0 < amount + (if buy then qty else -qty))) : qty ≤ |amount| := by
  cases buy with
  | true =>
      simp only [if_true] at hopp hside
      rw [abs_of_neg hopp]
      have hnot : ¬ 0 < amount + qty := by
        rw [← hside]
        exact not_lt.mpr hopp.le
      linarith
  | false =>
      simp only [Bool.false_eq_true, if_false] at hopp hside
      rw [abs_of_pos hopp]
      have hstill : 0 < amount + -qty := by
        rw [← hside]
        exact hopp
      linarith

theorem abs_lt_of_flip (hopp : if buy then amount < 0 else 0 < amount)
    (hne : amount + (if buy then qty else -qty) ≠ 0)
    (hside : ¬ (0 < amount) = (0 < amount + (if buy then qty else -qty))) : |amount| < qty := by
  cases buy with
  | true =>
      simp only [if_true] at hopp hside
      rw [abs_of_neg hopp]
      by_contra hge
      apply hside
      apply propext
      constructor <;> intro hlt <;> linarith
  | false =>
      rw [abs_of_pos hopp]
      by_contra hge
      apply hside
      apply propext
      have hstill : 0 < amount + -qty := lt_of_le_of_ne (by linarith) (Ne.symm hne)
      exact ⟨fun _ => hstill, fun _ => hopp⟩

end Opposite

section Transition

variable {pos : Position} {buy : Bool} {qty price : Decimal}

section OfScale

variable (hamount : pos.amount.OfScale kQtyScale)

include hamount

theorem absAmount_spec (hmin : pos.amount.units ≠ int64Min) :
    pos.absAmount.toRat = |pos.amount.toRat| ∧ pos.absAmount.OfScale kQtyScale := by
  have hcmp := cmp_neg_iff (hamount.scaleOk (by decide)) scaleOk_zero
  rw [toRat_zero] at hcmp
  rw [absAmount]
  by_cases hneg : Decimal.cmp pos.amount .zero < 0
  · rw [if_pos hneg, negUnits_toRat hmin, abs_of_neg (hcmp.mp hneg)]
    refine ⟨rfl, ?_⟩
    rw [Decimal.OfScale, negUnits_scale]
    exact hamount
  · rw [if_neg hneg, abs_of_nonneg (not_lt.mp (fun h => hneg (hcmp.mpr h)))]
    exact ⟨rfl, hamount⟩

theorem increases_iff (buy : Bool) :
    pos.Increases buy ↔
      pos.amount.toRat = 0 ∨ (0 < pos.amount.toRat ∧ buy = true) ∨
        (pos.amount.toRat < 0 ∧ buy = false) := by
  have hok := hamount.scaleOk (by decide : kQtyScale ≤ 18)
  have hpos := cmp_pos_iff hok scaleOk_zero
  have hneg := cmp_neg_iff hok scaleOk_zero
  rw [toRat_zero] at hpos hneg
  have hzero : Decimal.cmp pos.amount .zero = 0 ↔ pos.amount.toRat = 0 := by
    constructor
    · intro h
      rw [h] at hpos hneg
      have hle := not_lt.mp (fun h' => lt_irrefl (0 : Int) (hpos.mpr h'))
      have hge := not_lt.mp (fun h' => lt_irrefl (0 : Int) (hneg.mpr h'))
      exact le_antisymm hle hge
    · intro h
      rw [h] at hpos hneg
      have hle := not_lt.mp (fun h' => lt_irrefl (0 : ℚ) (hpos.mp h'))
      have hge := not_lt.mp (fun h' => lt_irrefl (0 : ℚ) (hneg.mp h'))
      exact le_antisymm hle hge
  rw [Position.Increases, hzero, gt_iff_lt, hpos, hneg, Bool.not_eq_true]

theorem filledAmount_toRat (hqty : EightPlaces qty) (hunits : 0 ≤ qty.units)
    (hfits : NewAmountFits pos.amount buy qty) :
    (pos.filledAmount buy qty).toRat =
        pos.amount.toRat + (if buy then qty.toRat else -qty.toRat) ∧
      (pos.filledAmount buy qty).scale = kQtyScale := by
  have hsigned : (signedFill buy qty).toRat = (if buy then qty.toRat else -qty.toRat) ∧
      (signedFill buy qty).scale = qty.scale := by
    cases buy with
    | true => exact ⟨rfl, rfl⟩
    | false =>
        exact ⟨negUnits_toRat (by simp only [int64Min]; omega), negUnits_scale qty⟩
  have hfits' := abs_le.mp hfits
  have hnew : Int64Fits (eightUnits pos.amount +
      if buy then eightUnits qty else -eightUnits qty) := by
    unfold Int64Fits int64Min
    unfold int64Max at *
    omega
  have hsum : pos.amount.toRat + (signedFill buy qty).toRat =
      ((eightUnits pos.amount + if buy then eightUnits qty else -eightUnits qty : Int) : ℚ) *
        (10 : ℚ) ^ (-kQtyScale) := by
    rw [hsigned.1, (eightPlaces_of_ofScale hamount).toRat_eq, hqty.toRat_eq]
    push_cast
    split <;> ring
  have hscale : (signedFill buy qty).ScaleOk := by
    rw [Decimal.ScaleOk, hsigned.2]
    exact hqty.1
  obtain ⟨hok, hadd⟩ := add_of_held (hamount.scaleOk (by decide)) hscale
    ⟨⟨_, kQtyScale, hnew⟩, kQtyScale_ok, hsum.symm⟩
  obtain ⟨hvalue, hplace⟩ := rescale_eight hok hnew (hadd.trans hsum)
  rw [filledAmount, hvalue, hadd, hsigned.1]
  exact ⟨rfl, hplace⟩

/-- The quantity held after an increase is exact. -/
theorem totalAbs_spec (hmin : pos.amount.units ≠ int64Min) (hqty : EightPlaces qty)
    (hdir : if buy then 0 ≤ pos.amount.toRat else pos.amount.toRat ≤ 0)
    (hfits : NewAmountFits pos.amount buy qty) :
    (Decimal.add pos.absAmount qty).ScaleOk ∧
      (Decimal.add pos.absAmount qty).toRat = |pos.amount.toRat| + qty.toRat := by
  obtain ⟨habsValue, habsScale⟩ := absAmount_spec hamount hmin
  have hfits' := abs_le.mp hfits
  have height := (eightPlaces_of_ofScale hamount).toRat_eq
  have hexact : ∃ n : Int, Int64Fits n ∧
      |pos.amount.toRat| + qty.toRat = n * (10 : ℚ) ^ (-kQtyScale) := by
    cases buy with
    | true =>
        refine ⟨eightUnits pos.amount + eightUnits qty, ?_, ?_⟩
        · simp only [if_true] at hfits'
          unfold Int64Fits int64Min
          unfold int64Max at *
          omega
        · rw [abs_of_nonneg hdir, height, hqty.toRat_eq]
          push_cast
          ring
    | false =>
        refine ⟨-eightUnits pos.amount + eightUnits qty, ?_, ?_⟩
        · simp only [Bool.false_eq_true, if_false] at hfits'
          unfold Int64Fits int64Min
          unfold int64Max at *
          omega
        · rw [abs_of_nonpos hdir, height, hqty.toRat_eq]
          push_cast
          ring
  obtain ⟨n, hn, hvalue⟩ := hexact
  rw [← habsValue] at hvalue ⊢
  exact add_of_held (habsScale.scaleOk (by decide)) hqty.1
    ⟨⟨n, kQtyScale, hn⟩, kQtyScale_ok, hvalue.symm⟩

theorem averagedPrice_error (hmin : pos.amount.units ≠ int64Min) (hpos : 0 < qty.toRat)
    (htotalOk : (Decimal.add pos.absAmount qty).ScaleOk)
    (htotal : (Decimal.add pos.absAmount qty).toRat = |pos.amount.toRat| + qty.toRat)
    (hfits : IncreaseFits pos qty price) :
    |(pos.averagedPrice qty price).toRat -
        (|pos.amount.toRat| * pos.avgEntryPrice.toRat + qty.toRat * price.toRat) /
          (|pos.amount.toRat| + qty.toRat)| ≤
      1 / 200 + increaseLoss pos qty price / (|pos.amount.toRat| + qty.toRat) := by
  obtain ⟨hold, hnew, hsum, hdiv⟩ := hfits
  obtain ⟨habsValue, -⟩ := absAmount_spec hamount hmin
  have hheld : 0 < |pos.amount.toRat| + qty.toRat := by
    have := abs_nonneg pos.amount.toRat
    linarith
  have hcmp : Decimal.cmp (Decimal.add pos.absAmount qty) .zero > 0 := by
    rw [gt_iff_lt, cmp_pos_iff htotalOk scaleOk_zero, toRat_zero, htotal]
    exact hheld
  have herror := divUnits_error hdiv
  have holdLost := abs_le.mp (mul_lost hold)
  have hnewLost := abs_le.mp (mul_lost hnew)
  have hsumLost := abs_le.mp (add_lost hsum)
  have hcent : (1 : ℚ) / 2 * (10 : ℚ) ^ (-kPriceScale) = 1 / 200 := by
    norm_num [kPriceScale]
  rw [habsValue] at holdLost
  rw [htotal, hcent] at herror
  rw [averagedPrice, if_pos hcmp]
  -- the value that is divided is off by the loss
  have hvalue : |(Decimal.add (Decimal.mul pos.absAmount pos.avgEntryPrice)
      (Decimal.mul qty price)).toRat -
      (|pos.amount.toRat| * pos.avgEntryPrice.toRat + qty.toRat * price.toRat)| ≤
        increaseLoss pos qty price := by
    rw [increaseLoss, abs_le]
    constructor <;> linarith
  generalize Decimal.add (Decimal.mul pos.absAmount pos.avgEntryPrice) (Decimal.mul qty price) =
    value at *
  have hquotient : |value.toRat / (|pos.amount.toRat| + qty.toRat) -
      (|pos.amount.toRat| * pos.avgEntryPrice.toRat + qty.toRat * price.toRat) /
        (|pos.amount.toRat| + qty.toRat)| ≤
          increaseLoss pos qty price / (|pos.amount.toRat| + qty.toRat) := by
    rw [← sub_div, abs_div, abs_of_pos hheld]
    exact div_le_div_of_nonneg_right hvalue hheld.le
  exact (abs_sub_le _ _ _).trans (add_le_add herror hquotient)

theorem closed_toRat (hmin : pos.amount.units ≠ int64Min) (hqty : qty.ScaleOk) :
    (Decimal.min qty pos.absAmount).toRat = min qty.toRat |pos.amount.toRat| := by
  obtain ⟨habsValue, habsScale⟩ := absAmount_spec hamount hmin
  rw [min_toRat (le_refl (18 : Int)) hqty (habsScale.scaleOk (by decide)), habsValue]

theorem reducedPnl_error (hmin : pos.amount.units ≠ int64Min) (hqty : qty.ScaleOk)
    (hnonneg : 0 ≤ qty.toRat) (hfits : ReduceFits pos qty price) :
    |(pos.reducedPnl qty price).toRat - pos.realisedPnl.toRat -
        (if 0 < pos.amount.toRat then price.toRat - pos.avgEntryPrice.toRat
          else pos.avgEntryPrice.toRat - price.toRat) *
          min qty.toRat (|pos.amount.toRat|)| ≤ 1 / 100 + reduceLoss pos qty price := by
  obtain ⟨hsub, hsub', hmul, hrealised, hadd, hpnl, -⟩ := hfits
  have hcmp := cmp_pos_iff (hamount.scaleOk (by decide)) scaleOk_zero
  have hclosed := closed_toRat hamount hmin hqty
  have hclosedNonneg : 0 ≤ (Decimal.min qty pos.absAmount).toRat := by
    rw [hclosed]
    exact le_min hnonneg (abs_nonneg _)
  rw [toRat_zero] at hcmp
  have hdiff : |(pos.priceDiff price).toRat -
      (if 0 < pos.amount.toRat then price.toRat - pos.avgEntryPrice.toRat
        else pos.avgEntryPrice.toRat - price.toRat)| ≤
          lost (max price.scale pos.avgEntryPrice.scale) (pos.priceDiff price) := by
    rw [priceDiff]
    by_cases hlong : 0 < Decimal.cmp pos.amount .zero
    · rw [if_pos hlong, if_pos (hcmp.mp hlong)]
      exact sub_lost hsub
    · rw [if_neg hlong, if_neg (fun h => hlong (hcmp.mpr h)), max_comm]
      exact sub_lost hsub'
  have hscaled := mul_le_mul_of_nonneg_right hdiff hclosedNonneg
  have hproduct := abs_le.mp (mul_lost hmul)
  have hsum := abs_le.mp (add_lost hadd)
  have hfirst : |(pos.realisedOn qty price).toRat - _| ≤ 1 / 200 := rescale_cents hrealised
  have hsecond : |(pos.reducedPnl qty price).toRat - _| ≤ 1 / 200 := rescale_cents hpnl
  rw [abs_le] at hfirst hsecond
  rw [← abs_of_nonneg hclosedNonneg, ← abs_mul, abs_of_nonneg hclosedNonneg, sub_mul,
    abs_le] at hscaled
  rw [← hclosed, reduceLoss, abs_le]
  constructor <;> linarith

end OfScale

theorem marked_applySignedFill (hamount : pos.amount.OfScale kQtyScale)
    (hqty : EightPlaces qty) (hunits : 0 < qty.units)
    (hfits : TransitionFits pos buy qty price) :
    |marked (applySignedFill pos buy qty price) - marked pos -
        (if buy then -(qty.toRat * price.toRat) else qty.toRat * price.toRat)| ≤
      tradeSlack pos.amount.toRat (if buy then qty.toRat else -qty.toRat) +
        tradeLoss pos buy qty price := by
  obtain ⟨hamountFits, hmin, hincrease, hreduce⟩ := hfits
  have hq : 0 < qty.toRat := by
    have hne := (toRat_eq_zero_iff qty).not.mpr hunits.ne'
    exact lt_of_le_of_ne ((toRat_nonneg_iff qty).mpr hunits.le) (Ne.symm hne)
  have hcmp : ¬ Decimal.cmp qty .zero ≤ 0 := by
    rw [cmp_zero_nonpos_iff hqty.1, not_le]
    exact hq
  obtain ⟨hnew, hnewScale⟩ := filledAmount_toRat hamount hqty hunits.le hamountFits
  have hnewOk : (pos.filledAmount buy qty).ScaleOk := by
    rw [Decimal.ScaleOk, hnewScale]
    decide
  have hnewPos := cmp_pos_iff hnewOk scaleOk_zero
  have hnewNeg := cmp_neg_iff hnewOk scaleOk_zero
  have hpos := cmp_pos_iff (hamount.scaleOk (by decide)) scaleOk_zero
  rw [toRat_zero] at hnewPos hnewNeg hpos
  have hdir := increases_iff hamount buy
  have hopposite : ¬ pos.Increases buy →
      if buy then pos.amount.toRat < 0 else 0 < pos.amount.toRat := by
    intro hinc
    rw [hdir, not_or, not_or] at hinc
    obtain ⟨hne, hlong, hshort⟩ := hinc
    cases buy with
    | true => exact lt_of_le_of_ne (not_lt.mp (fun h => hlong ⟨h, rfl⟩)) hne
    | false => exact lt_of_le_of_ne (not_lt.mp (fun h => hshort ⟨h, rfl⟩)) (Ne.symm hne)
  rcases applySignedFill_cases pos buy price hcmp with
    ⟨hinc, h⟩ | ⟨hinc, hclose, h⟩ | ⟨hinc, hopen, hside, h⟩ | ⟨hinc, hopen, hside, h⟩
  · have hsame : if buy then 0 ≤ pos.amount.toRat else pos.amount.toRat ≤ 0 := by
      rcases hdir.mp hinc with hflat | ⟨hlong, rfl⟩ | ⟨hshort, rfl⟩
      · rw [hflat]
        cases buy <;> simp
      · exact hlong.le
      · exact hshort.le
    obtain ⟨htotalOk, htotal⟩ := totalAbs_spec hamount hmin hqty hsame hamountFits
    rw [h, marked, hnew, tradeLoss, if_pos hinc]
    exact slack_increase buy hsame hq
      (averagedPrice_error hamount hmin hq htotalOk htotal (hincrease hinc))
  · have hopp := hopposite hinc
    have hpnl := reducedPnl_error hamount hmin hqty.1 hq.le (hreduce hinc)
    have hzero : pos.amount.toRat + (if buy then qty.toRat else -qty.toRat) = 0 := by
      rw [← hnew]
      rw [hclose] at hnewPos hnewNeg
      have hle := not_lt.mp (fun h' => lt_irrefl (0 : Int) (hnewPos.mpr h'))
      have hge := not_lt.mp (fun h' => lt_irrefl (0 : Int) (hnewNeg.mpr h'))
      exact le_antisymm hle hge
    have hle := le_abs_of_close buy hopp hzero
    have hslack := slack_reduce buy hopp hq hle hpnl
    rw [h, marked, toRat_zeroAt, zero_mul, tradeLoss, if_neg hinc]
    rw [hzero, zero_mul] at hslack
    exact hslack
  · have hopp := hopposite hinc
    have hpnl := reducedPnl_error hamount hmin hqty.1 hq.le (hreduce hinc)
    rw [gt_iff_lt, gt_iff_lt, hpos, hnewPos, hnew] at hside
    have hle := le_abs_of_same_side buy hopp hside
    rw [h, marked, hnew, tradeLoss, if_neg hinc]
    exact slack_reduce buy hopp hq hle hpnl
  · have hopp := hopposite hinc
    have hpnl := reducedPnl_error hamount hmin hqty.1 hq.le (hreduce hinc)
    have hne : (pos.filledAmount buy qty).toRat ≠ 0 := by
      intro hzero
      rw [hzero] at hnewPos hnewNeg
      have hle := not_lt.mp (fun h' => lt_irrefl (0 : ℚ) (hnewPos.mp h'))
      have hge := not_lt.mp (fun h' => lt_irrefl (0 : ℚ) (hnewNeg.mp h'))
      exact hopen (le_antisymm hle hge)
    rw [gt_iff_lt, gt_iff_lt, hpos, hnewPos, hnew] at hside
    rw [hnew] at hne
    have hlt := abs_lt_of_flip buy hopp hne hside
    have hprice : |(rescale price kPriceScale).toRat - price.toRat| ≤ 1 / 200 :=
      rescale_cents (hreduce hinc).2.2.2.2.2.2
    rw [h, marked, hnew, tradeLoss, if_neg hinc]
    exact slack_flip buy hopp hlt hpnl hprice

end Transition

/-- A position as `ensure_position_locked` returns it. -/
def Position.reset (pos : Position) : Position :=
  if pos.amount.scale = 0 ∧ pos.amount.units = 0 then {} else pos

/-- The position after `update_position_for_fill`. -/
def Position.traded (pos : Position) (fill : FlowFill) : Position :=
  match fill.side with
  | .buy => applySignedFill pos true fill.executedQty (fill.price.getD Decimal.zero)
  | .sell => applySignedFill pos false fill.executedQty (fill.price.getD Decimal.zero)
  | .unspecified => pos

def quoteFee (fill : FlowFill) : Option Decimal :=
  match charged fill with
  | none => none
  | some (currency, amount) => if currency = fill.instrument.quote then some amount else none

def Position.filled (pos : Position) (fill : FlowFill) : Position :=
  match quoteFee fill with
  | none => pos.reset.traded fill
  | some amount =>
      { (pos.reset.traded fill).reset with
        realisedPnl := Decimal.sub (pos.reset.traded fill).reset.realisedPnl amount }

def OnPosition (user symbol : String) (fill : FlowFill) : Prop :=
  fill.userId = user ∧ fill.instrument.symbol = symbol
deriving Decidable

section Fills

variable {s : LedgerUseCases} {fill : FlowFill}

theorem position_applyFill (s : LedgerUseCases) (fill : FlowFill) (user symbol : String) :
    (applyFill s fill).position user symbol =
      if OnPosition user symbol fill then (s.position user symbol).filled fill
      else s.position user symbol := by
  have hpositions : (applyReceived (applySpent s fill) fill).positions = s.positions := by
    rw [positions_applyReceived, positions_applySpent]
  have htraded : ∀ u i, (updatePositionForFill (applyReceived (applySpent s fill) fill)
      fill).position u i =
        if u = fill.userId ∧ i = fill.instrument.symbol then
          (s.position fill.userId fill.instrument.symbol).reset.traded fill
        else s.position u i := by
    intro u i
    rw [updatePositionForFill, position_modifyPosition, ensurePosition,
      position_congr hpositions, position_congr hpositions]
    rfl
  have hswap : (user = fill.userId ∧ symbol = fill.instrument.symbol) ↔
      OnPosition user symbol fill := by
    rw [OnPosition, eq_comm, eq_comm (a := symbol)]
  rw [applyFill, applyFee]
  cases hcharged : charged fill with
  | none =>
      have hfee : quoteFee fill = none := by
        rw [quoteFee, hcharged]
      rw [htraded]
      by_cases hon : OnPosition user symbol fill
      · obtain ⟨rfl, rfl⟩ := hon
        rw [if_pos ⟨rfl, rfl⟩, if_pos ⟨rfl, rfl⟩, filled, hfee]
      · rw [if_neg (hswap.not.mpr hon), if_neg hon]
  | some m =>
      obtain ⟨currency, amount⟩ := m
      dsimp only
      by_cases hquote : currency = fill.instrument.quote
      · have hfee : quoteFee fill = some amount := by
          rw [quoteFee, hcharged]
          exact if_pos hquote
        rw [if_pos hquote, position_modifyPosition, ensurePosition,
          position_congr (positions_modifyBalance _ _ _ _),
          position_congr (positions_modifyBalance _ _ _ _), htraded, htraded]
        by_cases hon : OnPosition user symbol fill
        · obtain ⟨rfl, rfl⟩ := hon
          have hon : OnPosition fill.userId fill.instrument.symbol fill := ⟨rfl, rfl⟩
          simp only [and_self, if_true]
          rw [if_pos hon, filled, hfee]
          rfl
        · rw [if_neg (hswap.not.mpr hon), if_neg (hswap.not.mpr hon), if_neg hon]
      · have hfee : quoteFee fill = none := by
          rw [quoteFee, hcharged]
          exact if_neg hquote
        rw [if_neg hquote, position_congr (positions_modifyBalance _ _ _ _), htraded]
        by_cases hon : OnPosition user symbol fill
        · obtain ⟨rfl, rfl⟩ := hon
          rw [if_pos ⟨rfl, rfl⟩, if_pos ⟨rfl, rfl⟩, filled, hfee]
        · rw [if_neg (hswap.not.mpr hon), if_neg hon]

/-- What a fill brings in at its price: paid by a buy and received for a sell. -/
def proceeds (fill : FlowFill) : ℚ :=
  -(signedValue fill.side fill.executedQty * (fill.price.getD Decimal.zero).toRat)

/-- What a fill brings in, less a fee in the quote currency. -/
def cashOf (fill : FlowFill) : ℚ :=
  proceeds fill - (quoteFee fill).elim 0 Decimal.toRat

/-- The condition on a fill: a quantity of at most eight decimals that is not
negative, amounts within their ranges, and a reset that forgets no PnL. -/
def FillPnlOk (s : LedgerUseCases) (fill : FlowFill) : Prop :=
  EightPlaces fill.executedQty ∧ 0 ≤ fill.executedQty.units ∧
    (s.position fill.userId fill.instrument.symbol).reset.realisedPnl.toRat =
      (s.position fill.userId fill.instrument.symbol).realisedPnl.toRat ∧
    (0 < fill.executedQty.units →
      ∀ buy ∈ direction fill.side,
        TransitionFits (s.position fill.userId fill.instrument.symbol).reset buy
          fill.executedQty (fill.price.getD Decimal.zero)) ∧
    (∀ amount ∈ quoteFee fill,
      Decimal.DiffFits
        ((s.position fill.userId fill.instrument.symbol).reset.traded fill).realisedPnl amount)
deriving Decidable

/-- What a position loses to the 64 bits when it takes the trade of a fill. -/
def Position.fillLoss (pos : Position) (fill : FlowFill) : ℚ :=
  if 0 < fill.executedQty.units then
    (direction fill.side).elim 0
      (fun buy => tradeLoss pos buy fill.executedQty (fill.price.getD Decimal.zero))
  else 0

/-- What a position loses to the 64 bits when the fee is taken. -/
def Position.feeLoss (pos : Position) (fill : FlowFill) : ℚ :=
  (quoteFee fill).elim 0 (fun amount =>
    lost (max pos.realisedPnl.scale amount.scale) (Decimal.sub pos.realisedPnl amount))

section Potential

variable {s : LedgerUseCases} {fill : FlowFill}

theorem Position.reset_cases (pos : Position) :
    (pos.amount.units = 0 ∧ pos.reset = {}) ∨
      (¬ (pos.amount.scale = 0 ∧ pos.amount.units = 0) ∧ pos.reset = pos) := by
  by_cases h : pos.amount.scale = 0 ∧ pos.amount.units = 0
  · exact Or.inl ⟨h.2, if_pos h⟩
  · exact Or.inr ⟨h, if_neg h⟩

theorem Position.reset_reset (pos : Position) : pos.reset.reset = pos.reset := by
  rcases pos.reset_cases with ⟨-, h⟩ | ⟨hkeep, h⟩
  · rw [h]
    rfl
  · rw [h, h]

variable {pos : Position}

theorem Position.reset_ofScale (h : pos.amount.OfScale kQtyScale) :
    pos.reset.amount.OfScale kQtyScale := by
  rcases pos.reset_cases with ⟨-, hreset⟩ | ⟨-, hreset⟩
  · rw [hreset]
    decide
  · rw [hreset]
    exact h

theorem marked_reset (h : pos.reset.realisedPnl.toRat = pos.realisedPnl.toRat) :
    marked pos.reset = marked pos := by
  rcases pos.reset_cases with ⟨hflat, hreset⟩ | ⟨-, hreset⟩
  · have hzero : pos.amount.toRat = 0 := (toRat_eq_zero_iff _).mpr hflat
    have hempty : pos.reset.amount.toRat = 0 := by
      rw [hreset]
      exact toRat_zero
    rw [marked, marked, h, hzero, hempty, zero_mul, zero_mul]
  · rw [hreset]

theorem amount_traded (hamount : pos.amount.OfScale kQtyScale)
    (hqty : EightPlaces fill.executedQty) (hunits : 0 ≤ fill.executedQty.units)
    (hfits : 0 < fill.executedQty.units →
      ∀ buy ∈ direction fill.side,
        TransitionFits pos buy fill.executedQty (fill.price.getD .zero)) :
    pos.traded fill = pos ∨ (pos.traded fill).amount.scale = kQtyScale := by
  have hside : ∀ buy : Bool, buy ∈ direction fill.side →
      applySignedFill pos buy fill.executedQty (fill.price.getD .zero) = pos ∨
        (applySignedFill pos buy fill.executedQty (fill.price.getD .zero)).amount.scale =
          kQtyScale := by
    intro buy hbuy
    by_cases hcmp : Decimal.cmp fill.executedQty .zero ≤ 0
    · exact .inl (if_pos hcmp)
    · have hpos : 0 < fill.executedQty.units := by
        rw [cmp_zero_nonpos_iff hqty.1] at hcmp
        refine lt_of_le_of_ne hunits (fun hzero => hcmp ?_)
        rw [(toRat_eq_zero_iff _).mpr hzero.symm]
      have hnew := (filledAmount_toRat hamount hqty hunits (hfits hpos buy hbuy).1).2
      refine .inr ?_
      rcases applySignedFill_cases pos buy (fill.price.getD .zero) hcmp with
        ⟨-, h⟩ | ⟨-, -, h⟩ | ⟨-, -, -, h⟩ | ⟨-, -, -, h⟩
      · rw [h]
        exact hnew
      · rw [h]
        rfl
      · rw [h]
        exact hnew
      · rw [h]
        exact hnew
  rw [traded]
  cases hs : fill.side with
  | buy => exact hside true (by rw [hs]; rfl)
  | sell => exact hside false (by rw [hs]; rfl)
  | unspecified => exact .inl rfl

theorem Position.reset_traded (hamount : pos.amount.OfScale kQtyScale)
    (hqty : EightPlaces fill.executedQty) (hunits : 0 ≤ fill.executedQty.units)
    (hfits : 0 < fill.executedQty.units →
      ∀ buy ∈ direction fill.side,
        TransitionFits pos.reset buy fill.executedQty (fill.price.getD .zero)) :
    (pos.reset.traded fill).reset = pos.reset.traded fill := by
  rcases amount_traded (reset_ofScale hamount) hqty hunits hfits with hsame | hscale
  · rw [hsame, reset_reset]
  · rw [reset, if_neg]
    rintro ⟨hzero, -⟩
    rw [hscale] at hzero
    exact absurd hzero (by decide)

theorem marked_traded (hamount : pos.amount.OfScale kQtyScale)
    (hscale : EightPlaces fill.executedQty) (hunits : 0 ≤ fill.executedQty.units)
    (hfits : 0 < fill.executedQty.units →
      ∀ buy ∈ direction fill.side,
        TransitionFits pos buy fill.executedQty (fill.price.getD .zero)) :
    |marked (pos.traded fill) - marked pos - proceeds fill| ≤
      tradeSlack pos.amount.toRat (signedValue fill.side fill.executedQty) +
        pos.fillLoss fill := by
  have hstill : ∀ traded : ℚ, traded = 0 → |marked pos - marked pos - -(traded *
      (fill.price.getD .zero).toRat)| ≤ tradeSlack pos.amount.toRat traded + 0 := by
    rintro traded rfl
    rw [tradeSlack, if_pos rfl, sub_self, zero_mul, neg_zero, sub_zero, abs_zero, add_zero]
  by_cases hpos : 0 < fill.executedQty.units
  · rw [traded, proceeds, Position.fillLoss, if_pos hpos]
    cases hside : fill.side with
    | unspecified => exact hstill 0 rfl
    | buy =>
        have hmove := marked_applySignedFill hamount hscale hpos
          (hfits hpos true (by rw [hside]; rfl))
        exact hmove
    | sell =>
        have hmove := marked_applySignedFill hamount hscale hpos
          (hfits hpos false (by rw [hside]; rfl))
        rw [signedValue, neg_mul, neg_neg]
        exact hmove
  · have hzero : fill.executedQty.toRat = 0 :=
      (toRat_eq_zero_iff _).mpr (le_antisymm (not_lt.mp hpos) hunits)
    have hcmp : Decimal.cmp fill.executedQty .zero ≤ 0 := by
      rw [cmp_zero_nonpos_iff hscale.1, hzero]
    have hsame : pos.traded fill = pos := by
      rw [traded]
      cases fill.side with
      | unspecified => rfl
      | buy => exact if_pos hcmp
      | sell => exact if_pos hcmp
    rw [hsame, Position.fillLoss, if_neg hpos]
    apply hstill
    cases fill.side with
    | unspecified => rfl
    | buy => exact hzero
    | sell =>
        rw [signedValue, hzero, neg_zero]

theorem marked_filled
    (hamount : (s.position fill.userId fill.instrument.symbol).amount.OfScale kQtyScale)
    (hok : FillPnlOk s fill) :
    |marked ((s.position fill.userId fill.instrument.symbol).filled fill) -
        marked (s.position fill.userId fill.instrument.symbol) - cashOf fill| ≤
      tradeSlack (s.position fill.userId fill.instrument.symbol).amount.toRat
          (signedValue fill.side fill.executedQty) +
        (s.position fill.userId fill.instrument.symbol).reset.fillLoss fill +
        ((s.position fill.userId fill.instrument.symbol).reset.traded fill).feeLoss fill := by
  obtain ⟨hscale, hunits, hreset, hfits, hfee⟩ := hok
  have hsame := amount_ensurePosition s fill.userId fill.instrument.symbol
  generalize hpos : s.position fill.userId fill.instrument.symbol = pos at *
  have hensure : s.ensurePosition fill.userId fill.instrument.symbol = pos.reset := by
    rw [ensurePosition, hpos]
    rfl
  have htraded := marked_traded (reset_ofScale hamount) hscale hunits hfits
  rw [marked_reset hreset, ← hensure, hsame, hensure] at htraded
  rw [filled, cashOf, Position.feeLoss]
  cases hquote : quoteFee fill with
  | none =>
      rw [elim_none, elim_none, sub_zero, add_zero]
      exact htraded
  | some amount =>
      have hlost := abs_le.mp (sub_lost (hfee amount hquote))
      have hmoved := abs_le.mp htraded
      dsimp only
      rw [reset_traded hamount hscale hunits hfits, elim_some, elim_some]
      unfold marked at hmoved ⊢
      dsimp only
      rw [abs_le]
      constructor <;> linarith

end Potential

section Runs

variable (user symbol : String)

def potential (s : LedgerUseCases) : ℚ :=
  marked (s.position user symbol)

def cashOn (fill : FlowFill) : ℚ :=
  if OnPosition user symbol fill then cashOf fill else 0

/-- The rounding a fill may cause on one position. -/
def slackOfFill (s : LedgerUseCases) (fill : FlowFill) : ℚ :=
  if OnPosition user symbol fill then
    tradeSlack (s.position user symbol).amount.toRat (signedValue fill.side fill.executedQty) +
      (s.position user symbol).reset.fillLoss fill +
      ((s.position user symbol).reset.traded fill).feeLoss fill
  else 0

/-- What a call brings in to one position. -/
def cashOfCall : Call → ℚ
  | .applyBatchResult batch false => (batch.fills.map (cashOn user symbol)).sum
  | _ => 0

/-- The rounding a call may cause on one position. -/
def slackOfCall (s : LedgerUseCases) : Call → ℚ
  | .applyBatchResult batch false =>
      sumAlong applyFill (slackOfFill user symbol) s batch.fills
  | _ => 0

def CallPnlOk (s : LedgerUseCases) : Call → Prop
  | .applyBatchResult batch false => StepsMeet applyFill FillPnlOk s batch.fills
  | _ => True

instance (s : LedgerUseCases) (call : Call) : Decidable (CallPnlOk s call) :=
  match call with
  | .reserveFunds _ => inferInstanceAs (Decidable True)
  | .releaseFunds _ => inferInstanceAs (Decidable True)
  | .applyBatchResult _ true => inferInstanceAs (Decidable True)
  | .applyBatchResult _ false => inferInstanceAs (Decidable (StepsMeet _ _ _ _))

variable {user symbol} {s : LedgerUseCases}

theorem potential_applyFill
    (s : LedgerUseCases) (fill : FlowFill) (hok : PositionsScaled s ∧ FillPnlOk s fill) :
    |potential user symbol (applyFill s fill) - potential user symbol s -
        cashOn user symbol fill| ≤ slackOfFill user symbol s fill := by
  obtain ⟨hscaled, hok⟩ := hok
  rw [potential, potential, position_applyFill, cashOn, slackOfFill]
  by_cases hon : OnPosition user symbol fill
  · rw [if_pos hon, if_pos hon, if_pos hon]
    obtain ⟨rfl, rfl⟩ := hon
    exact marked_filled (hscaled _ _) hok
  · rw [if_neg hon, if_neg hon, if_neg hon, sub_self, sub_zero, abs_zero]

theorem positions_sweepReservations (s : LedgerUseCases) (updates : List OrderStateUpdate) :
    (sweepReservations (run applyOrderUpdate s updates)).positions = s.positions :=
  run_preserves (fun t => t.positions = s.positions)
    (fun t upd ht => (positions_applyOrderUpdate t upd).trans ht) rfl updates

theorem positionsScaled_applyFill (s : LedgerUseCases) (fill : FlowFill)
    (hscaled : PositionsScaled s) (hok : FillPnlOk s fill) :
    PositionsScaled (applyFill s fill) := by
  intro u i
  rw [position_applyFill]
  by_cases hon : OnPosition u i fill
  · obtain ⟨rfl, rfl⟩ := hon
    obtain ⟨hqty, hunits, -, hfits, -⟩ := hok
    have hamount := hscaled fill.userId fill.instrument.symbol
    have htraded : ((s.position fill.userId fill.instrument.symbol).reset.traded
        fill).amount.OfScale kQtyScale := by
      rcases amount_traded (reset_ofScale hamount) hqty hunits hfits with hsame | hscale
      · rw [hsame]
        exact reset_ofScale hamount
      · rw [Decimal.OfScale, hscale]
        decide
    rw [if_pos ⟨rfl, rfl⟩, filled]
    cases quoteFee fill with
    | none => exact htraded
    | some amount => exact reset_ofScale htraded
  · rw [if_neg hon]
    exact hscaled u i

theorem positionsScaled_step (s : LedgerUseCases) (call : Call) (hscaled : PositionsScaled s)
    (hok : CallPnlOk s call) : PositionsScaled (step s call) := by
  cases call with
  | reserveFunds req => exact hscaled.congr (positions_reserveFunds s req)
  | releaseFunds reservationId => exact hscaled.congr (positions_releaseFunds s reservationId)
  | applyBatchResult batch alreadyProcessed =>
      cases alreadyProcessed with
      | true => exact hscaled
      | false =>
          have hfills : StepsMeet applyFill FillPnlOk s batch.fills := hok
          have hrun := run_invariant PositionsScaled positionsScaled_applyFill hscaled hfills
          exact hrun.congr (positions_sweepReservations _ batch.orderUpdates)

theorem potential_step
    (s : LedgerUseCases) (call : Call) (hok : PositionsScaled s ∧ CallPnlOk s call) :
    |potential user symbol (step s call) - potential user symbol s -
        cashOfCall user symbol call| ≤ slackOfCall user symbol s call := by
  obtain ⟨hscaled, hok⟩ := hok
  have hcongr : ∀ t t' : LedgerUseCases, t'.positions = t.positions →
      potential user symbol t' = potential user symbol t := by
    intro t t' ht
    rw [potential, potential, position_congr ht]
  have hsame : ∀ t : LedgerUseCases, t.positions = s.positions →
      |potential user symbol t - potential user symbol s - 0| ≤ 0 := by
    intro t ht
    rw [hcongr s t ht, sub_self, sub_zero, abs_zero]
  cases call with
  | reserveFunds req => exact hsame _ (positions_reserveFunds s req)
  | releaseFunds reservationId => exact hsame _ (positions_releaseFunds s reservationId)
  | applyBatchResult batch alreadyProcessed =>
      cases alreadyProcessed with
      | true => exact hsame s rfl
      | false =>
          have hfills : StepsMeet applyFill FillPnlOk s batch.fills := hok
          have hstep : step s (.applyBatchResult batch false) =
              sweepReservations (run applyOrderUpdate (run applyFill s batch.fills)
                batch.orderUpdates) := rfl
          rw [hstep, hcongr _ _ (positions_sweepReservations _ batch.orderUpdates)]
          have hscaledFills := hfills.with_invariant positionsScaled_applyFill hscaled
          exact run_potential (potential user symbol) (cashOn user symbol)
            (slackOfFill user symbol) potential_applyFill hscaledFills

/-- Between two flat positions the realised PnL changes by the cash of the fills:
each reducing fill may add a cent, each fill that sets an entry price half a cent
for each unit it then holds, and each fill what its numbers lose to 64 bits. -/
theorem realisedPnl_follows_cash (hscaled : PositionsScaled s) {calls : List Call}
    (hmeet : StepsMeet step CallPnlOk s calls)
    (hstart : (s.position user symbol).amount.units = 0)
    (hend : ((run step s calls).position user symbol).amount.units = 0) :
    |((run step s calls).position user symbol).realisedPnl.toRat -
          (s.position user symbol).realisedPnl.toRat -
        (calls.map (cashOfCall user symbol)).sum| ≤
      sumAlong step (slackOfCall user symbol) s calls := by
  have hflat : ∀ pos : Position, pos.amount.units = 0 → marked pos = pos.realisedPnl.toRat := by
    intro pos hzero
    rw [marked, (Decimal.toRat_eq_zero_iff _).mpr hzero, zero_mul, sub_zero]
  rw [← hflat _ hstart, ← hflat _ hend]
  exact run_potential (potential user symbol) (cashOfCall user symbol)
    (slackOfCall user symbol) potential_step (hmeet.with_invariant positionsScaled_step hscaled)

end Runs

section Notionals

variable (user symbol : String)

/-- The cash of a fill as its notional states it. -/
def notionalOn (fill : FlowFill) : ℚ :=
  if OnPosition user symbol fill then
    -signedValue fill.side fill.executedNotional - (quoteFee fill).elim 0 Decimal.toRat
  else 0

/-- One cent for a fill that reduces the position. -/
def centOfFill (s : LedgerUseCases) (fill : FlowFill) : ℚ :=
  if OnPosition user symbol fill ∧
      (s.position user symbol).amount.toRat * signedValue fill.side fill.executedQty < 0 then
    1 / 100
  else 0

/-- Between two flat positions the realised PnL changes by the notionals and fees
of the fills, within a cent for each fill that reduces. -/
def PnlWithinCents (s : LedgerUseCases) (fills : List FlowFill) : Prop :=
  (s.position user symbol).amount.units = 0 →
    ((run applyFill s fills).position user symbol).amount.units = 0 →
    |((run applyFill s fills).position user symbol).realisedPnl.toRat -
          (s.position user symbol).realisedPnl.toRat -
        (fills.map (notionalOn user symbol)).sum| ≤
      sumAlong applyFill (centOfFill user symbol) s fills
deriving Decidable

end Notionals

end Fills

/-- A fill of user `u` in BTC/USDT with its notional and fee. -/
def pnlFill (side : Side) (qty price notional fee : Decimal) : FlowFill where
  orderId := "o1"
  userId := "u"
  instrument := { symbol := "BTC/USDT", base := "BTC", quote := "USDT" }
  side := side
  executedQty := qty
  price := some price
  executedNotional := notional
  fee := some { currency := "", amount := some fee }

/-- The ways PnL and cash part: the entry price is kept in cents, the notional is
not the quantity at the price, the reset forgets the fee of a fill of zero
quantity, a quantity does not fit at eight decimals, or it is negative, a product
saturates, the 128-bit alignment of a sum overflows, an average price does not fit
in cents, and a product narrowed to 64 bits. -/
theorem pnl_not_within_cents :
    ¬ PnlWithinCents "u" "BTC/USDT" {}
        [pnlFill .buy (Decimal.of 1000 0) (Decimal.of 100 2) (Decimal.of 1000 0) Decimal.zero,
          pnlFill .buy (Decimal.of 1000 0) (Decimal.of 101 2) (Decimal.of 1010 0) Decimal.zero,
          pnlFill .sell (Decimal.of 2000 0) (Decimal.of 101 2) (Decimal.of 2020 0) Decimal.zero] ∧
      ¬ PnlWithinCents "u" "BTC/USDT" {}
          [pnlFill .buy (Decimal.of 1 0) (Decimal.of 100 0) (Decimal.of 100 0) Decimal.zero,
            pnlFill .sell (Decimal.of 1 0) (Decimal.of 100 0) (Decimal.of 90 0) Decimal.zero] ∧
      ¬ PnlWithinCents "u" "BTC/USDT" {}
          [pnlFill .buy Decimal.zero (Decimal.of 100 0) Decimal.zero (Decimal.of 1 0),
            pnlFill .buy Decimal.zero (Decimal.of 100 0) Decimal.zero (Decimal.of 1 0)] ∧
      ¬ PnlWithinCents "u" "BTC/USDT" {}
          [pnlFill .buy (Decimal.of 100000000000 0) (Decimal.of 1 0)
              (Decimal.of 100000000000 0) Decimal.zero,
            pnlFill .buy (Decimal.of 1 8) (Decimal.of 100000000 0) (Decimal.of 1 0) Decimal.zero,
            pnlFill .sell (Decimal.of 100000000000 0) (Decimal.of 1 0)
              (Decimal.of 100000000000 0) Decimal.zero] ∧
      ¬ PnlWithinCents "u" "BTC/USDT" {}
          [pnlFill .buy (Decimal.of (-1) 0) (Decimal.of 1 0) (Decimal.of (-1) 0)
            Decimal.zero] ∧
      ¬ PnlWithinCents "u" "BTC/USDT" {}
          [pnlFill .buy (Decimal.of 10000000000 0) (Decimal.of 10000000000 0) (Decimal.of 1 0)
              Decimal.zero,
            pnlFill .sell (Decimal.of 10000000000 0) (Decimal.of 10000000000 0) (Decimal.of 1 0)
              Decimal.zero] ∧
      ¬ PnlWithinCents "u" "BTC/USDT" {}
          [pnlFill .buy (Decimal.of 1000 0) (Decimal.of 1 0) (Decimal.of 1000 0) Decimal.zero,
            pnlFill .buy (Decimal.of 10000000000 18) (Decimal.of 100000000 18) (Decimal.of 0 0)
              Decimal.zero,
            pnlFill .sell (Decimal.of 100000000001 8) (Decimal.of 1 0)
              (Decimal.of 1000 0) Decimal.zero] ∧
      ¬ PnlWithinCents "u" "BTC/USDT" {}
          [pnlFill .buy (Decimal.of 1 0) (Decimal.of 1000000000000000001 1) (Decimal.of 1 1)
              Decimal.zero,
            pnlFill .buy (Decimal.of 1 0) (Decimal.of 1000000000000000000 1) Decimal.zero
              Decimal.zero,
            pnlFill .sell (Decimal.of 2 0) (Decimal.of 1000000000000000000 1) Decimal.zero
              Decimal.zero] ∧
      ¬ PnlWithinCents "u" "BTC/USDT" {}
          [pnlFill .buy (Decimal.of 15 1) (Decimal.of 9000000000000000003 2) (Decimal.of 1 0)
              Decimal.zero,
            pnlFill .sell (Decimal.of 15 1) (Decimal.of 9000000000000000003 2) (Decimal.of 1 0)
              Decimal.zero] := by
  decide +kernel

/-- A long position is built with a fee, reduced, flipped and closed. -/
def pnlRun : List Call :=
  [.applyBatchResult
    { fills :=
        [pnlFill .buy (Decimal.of 150000000 8) (Decimal.of 10000 2) (Decimal.of 15000 2)
            (Decimal.of 5 2),
          pnlFill .sell (Decimal.of 50000000 8) (Decimal.of 10100 2) (Decimal.of 5050 2)
            Decimal.zero,
          pnlFill .sell (Decimal.of 2 0) (Decimal.of 10200 2) (Decimal.of 20400 2)
            Decimal.zero]
      orderUpdates := [] } false,
    .applyBatchResult
      { fills :=
          [pnlFill .buy (Decimal.of 10 1) (Decimal.of 10050 2) (Decimal.of 10050 2)
            Decimal.zero]
        orderUpdates := [] } false]

/-- The run of `pnlRun` starts and ends flat. -/
theorem pnlRun_follows_cash :
    |((run step {} pnlRun).position "u" "BTC/USDT").realisedPnl.toRat -
          (({} : LedgerUseCases).position "u" "BTC/USDT").realisedPnl.toRat -
        (pnlRun.map (cashOfCall "u" "BTC/USDT")).sum| ≤
      sumAlong step (slackOfCall "u" "BTC/USDT") {} pnlRun :=
  realisedPnl_follows_cash positionsScaled_empty (by decide +kernel) (by decide +kernel)
    (by decide +kernel)

end Ledger
end ContExchange
