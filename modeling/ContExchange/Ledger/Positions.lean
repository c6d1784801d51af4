import ContExchange.Common.Rounding
import ContExchange.Ledger.Books

/-!
# Ledger: the signed position

`apply_signed_fill` increases, reduces, closes or flips a position that is kept
at eight decimals, with prices and PnL at two.  `applySignedFill_cases` says once
what a fill can do; the amount follows the signed quantity up to half a unit of
the eighth decimal.
-/

namespace ContExchange
namespace Ledger

open Common Lib Decimal

/-- `rescale` does not overflow. -/
def RescaleFits (value : Decimal) (targetScale : Int) : Prop :=
  value.scale ≠ targetScale → Decimal.DivFits value ⟨1, 0, Decimal.int64Fits_one⟩ targetScale
deriving Decidable

section Rescale

variable {value : Decimal} {targetScale : Int}

theorem rescale_scale (h : RescaleFits value targetScale) :
    (rescale value targetScale).scale = targetScale := by
  rw [rescale]
  by_cases hscale : value.scale = targetScale
  · rw [if_pos hscale, hscale]
  · rw [if_neg hscale, divUnits_scale (h hscale)]

theorem rescale_error (h : RescaleFits value targetScale) :
    |(rescale value targetScale).toRat - value.toRat| ≤ 1 / 2 * (10 : ℚ) ^ (-targetScale) := by
  have hp := pow10_pos (-targetScale)
  rw [rescale]
  by_cases hscale : value.scale = targetScale
  · rw [if_pos hscale, sub_self, abs_zero]
    positivity
  · have hone : (⟨1, 0, by decide⟩ : Decimal).toRat = 1 := by
      simp [Decimal.toRat]
    have herror := divUnits_error (h hscale)
    rw [hone, div_one] at herror
    rw [if_neg hscale]
    exact herror

theorem rescale_exact (h : RescaleFits value targetScale) (hle : value.scale ≤ targetScale) :
    (rescale value targetScale).toRat = value.toRat := by
  rw [rescale]
  by_cases hscale : value.scale = targetScale
  · rw [if_pos hscale]
  · rw [if_neg hscale, divUnits_one (h hscale) hle]

end Rescale

/-- `fill_dir` as `apply_signed_fill` is called with it. -/
def direction : Side → Option Bool
  | .buy => some true
  | .sell => some false
  | .unspecified => none

/-- The quantity of a fill with its sign, as the source writes it. -/
def signedFill (buy : Bool) (qty : Decimal) : Decimal :=
  if buy then qty else qty.negUnits

namespace Position

/-- The absolute amount, as `apply_signed_fill` computes it. -/
def absAmount (pos : Position) : Decimal :=
  if Decimal.cmp pos.amount Decimal.zero < 0 then pos.amount.negUnits else pos.amount

def filledAmount (pos : Position) (buy : Bool) (qty : Decimal) : Decimal :=
  rescale (Decimal.add pos.amount (signedFill buy qty)) kQtyScale

/-- The average entry price after an increase. -/
def averagedPrice (pos : Position) (qty price : Decimal) : Decimal :=
  if Decimal.cmp (Decimal.add pos.absAmount qty) Decimal.zero > 0 then
    Decimal.divUnits
      (Decimal.add (Decimal.mul pos.absAmount pos.avgEntryPrice) (Decimal.mul qty price))
      (Decimal.add pos.absAmount qty) kPriceScale
  else Decimal.zeroAt kPriceScale

/-- The gain of one unit that is closed at a price. -/
def priceDiff (pos : Position) (price : Decimal) : Decimal :=
  if Decimal.cmp pos.amount Decimal.zero > 0 then Decimal.sub price pos.avgEntryPrice
  else Decimal.sub pos.avgEntryPrice price

/-- What a reduce, a close or a flip realises. -/
def realisedOn (pos : Position) (qty price : Decimal) : Decimal :=
  rescale (Decimal.mul (pos.priceDiff price) (Decimal.min qty pos.absAmount)) kPnlScale

/-- The realised PnL after a reduce, a close or a flip. -/
def reducedPnl (pos : Position) (qty price : Decimal) : Decimal :=
  rescale (Decimal.add pos.realisedPnl (pos.realisedOn qty price)) kPnlScale

/-- The fill goes in the direction of the position, or the position is flat. -/
def Increases (pos : Position) (buy : Bool) : Prop :=
  Decimal.cmp pos.amount Decimal.zero = 0 ∨
    (Decimal.cmp pos.amount Decimal.zero > 0 ∧ buy) ∨
    (Decimal.cmp pos.amount Decimal.zero < 0 ∧ ¬ buy)
deriving Decidable

end Position

theorem applySignedFill_cases (pos : Position) (buy : Bool) {qty : Decimal} (price : Decimal)
    (hpos : ¬ Decimal.cmp qty .zero ≤ 0) :
    (pos.Increases buy ∧
      applySignedFill pos buy qty price =
        { pos with
          amount := pos.filledAmount buy qty
          avgEntryPrice := pos.averagedPrice qty price }) ∨
    (¬ pos.Increases buy ∧ Decimal.cmp (pos.filledAmount buy qty) .zero = 0 ∧
      applySignedFill pos buy qty price =
        { amount := zeroAt kQtyScale
          avgEntryPrice := zeroAt kPriceScale
          realisedPnl := pos.reducedPnl qty price }) ∨
    (¬ pos.Increases buy ∧ Decimal.cmp (pos.filledAmount buy qty) .zero ≠ 0 ∧
      (Decimal.cmp pos.amount .zero > 0) = (Decimal.cmp (pos.filledAmount buy qty) .zero > 0) ∧
      applySignedFill pos buy qty price =
        { pos with
          amount := pos.filledAmount buy qty
          realisedPnl := pos.reducedPnl qty price }) ∨
    (¬ pos.Increases buy ∧ Decimal.cmp (pos.filledAmount buy qty) .zero ≠ 0 ∧
      (Decimal.cmp pos.amount .zero > 0) ≠ (Decimal.cmp (pos.filledAmount buy qty) .zero > 0) ∧
      applySignedFill pos buy qty price =
        { amount := pos.filledAmount buy qty
          avgEntryPrice := rescale price kPriceScale
          realisedPnl := pos.reducedPnl qty price }) := by
  have hfill : applySignedFill pos buy qty price =
      if pos.Increases buy then
        { pos with
          amount := pos.filledAmount buy qty
          avgEntryPrice := pos.averagedPrice qty price }
      else if Decimal.cmp (pos.filledAmount buy qty) .zero = 0 then
        { amount := zeroAt kQtyScale
          avgEntryPrice := zeroAt kPriceScale
          realisedPnl := pos.reducedPnl qty price }
      else if (Decimal.cmp pos.amount .zero > 0) =
          (Decimal.cmp (pos.filledAmount buy qty) .zero > 0) then
        { pos with
          amount := pos.filledAmount buy qty
          realisedPnl := pos.reducedPnl qty price }
      else
        { amount := pos.filledAmount buy qty
          avgEntryPrice := rescale price kPriceScale
          realisedPnl := pos.reducedPnl qty price } := by
    rw [applySignedFill, if_neg hpos]
    rfl
  rw [hfill]
  by_cases hinc : pos.Increases buy
  · exact Or.inl ⟨hinc, if_pos hinc⟩
  · rw [if_neg hinc]
    refine Or.inr ?_
    by_cases hzero : Decimal.cmp (pos.filledAmount buy qty) .zero = 0
    · exact Or.inl ⟨hinc, hzero, if_pos hzero⟩
    · rw [if_neg hzero]
      refine Or.inr ?_
      by_cases hside : (Decimal.cmp pos.amount .zero > 0) =
          (Decimal.cmp (pos.filledAmount buy qty) .zero > 0)
      · exact Or.inl ⟨hinc, hzero, hside, if_pos hside⟩
      · exact Or.inr ⟨hinc, hzero, hside, if_neg hside⟩

def signedValue (side : Side) (qty : Decimal) : ℚ :=
  match side with
  | .buy => qty.toRat
  | .sell => -qty.toRat
  | .unspecified => 0

/-- What a position may lose to its eight decimals in one trade. -/
def rounding (qty : Decimal) : ℚ :=
  if qty.scale ≤ kQtyScale then 0 else 1 / 2 * (10 : ℚ) ^ (-kQtyScale)

theorem rounding_nonneg (qty : Decimal) : 0 ≤ rounding qty := by
  have hp := pow10_pos (-kQtyScale)
  rw [rounding]
  split
  · exact le_rfl
  · positivity

/-- The new amount of a position fits, as a sum and at eight decimals. -/
def AmountFits (amount : Decimal) (delta : Decimal) : Prop :=
  Decimal.AddExact amount delta ∧ RescaleFits (Decimal.add amount delta) kQtyScale
deriving Decidable

/-- A quantity as the services write it that is not negative. -/
def QtyOk (qty : Decimal) : Prop :=
  qty.ScaleOk ∧ 0 ≤ qty.units
deriving Decidable

section SignedFill

variable {pos : Position} {buy : Bool} {qty price : Decimal}

theorem cmp_zero_nonpos_iff (h : qty.ScaleOk) :
    Decimal.cmp qty .zero ≤ 0 ↔ qty.toRat ≤ 0 := by
  rw [cmp_nonpos_iff h scaleOk_zero, toRat_zero]

theorem amount_applySignedFill (price : Decimal) (hpos : ¬ Decimal.cmp qty .zero ≤ 0)
    (hfits : RescaleFits (Decimal.add pos.amount (signedFill buy qty)) kQtyScale) :
    (applySignedFill pos buy qty price).amount.toRat = (pos.filledAmount buy qty).toRat ∧
      (applySignedFill pos buy qty price).amount.scale = kQtyScale := by
  have hscale : (pos.filledAmount buy qty).scale = kQtyScale := rescale_scale hfits
  have hok : (pos.filledAmount buy qty).ScaleOk := by
    rw [Decimal.ScaleOk, hscale]
    decide
  rcases applySignedFill_cases pos buy price hpos with
    ⟨-, h⟩ | ⟨-, hclose, h⟩ | ⟨-, -, -, h⟩ | ⟨-, -, -, h⟩
  · rw [h]
    exact ⟨rfl, hscale⟩
  · have hzero : (pos.filledAmount buy qty).toRat = 0 := by
      have hle := (cmp_nonpos_iff hok scaleOk_zero).mp hclose.le
      have hge := (cmp_nonneg_iff hok scaleOk_zero).mp hclose.ge
      rw [toRat_zero] at hle hge
      exact le_antisymm hle hge
    rw [h, hzero]
    exact ⟨toRat_zeroAt _, rfl⟩
  · rw [h]
    exact ⟨rfl, hscale⟩
  · rw [h]
    exact ⟨rfl, hscale⟩

theorem amount_applySignedFill_sub (hqty : QtyOk qty) (hamount : pos.amount.OfScale kQtyScale)
    (hfits : 0 < qty.units → AmountFits pos.amount (signedFill buy qty)) :
    |(applySignedFill pos buy qty price).amount.toRat - pos.amount.toRat -
        (if buy then qty.toRat else -qty.toRat)| ≤ rounding qty ∧
      (applySignedFill pos buy qty price).amount.OfScale kQtyScale := by
  have hround := rounding_nonneg qty
  by_cases hpos : 0 < qty.units
  · have hcmp : ¬ Decimal.cmp qty .zero ≤ 0 := by
      rw [cmp_zero_nonpos_iff hqty.1, not_le]
      have hne := (toRat_eq_zero_iff qty).not.mpr hpos.ne'
      exact lt_of_le_of_ne ((toRat_nonneg_iff qty).mpr hpos.le) (Ne.symm hne)
    obtain ⟨hadd, hrescale⟩ := hfits hpos
    obtain ⟨hvalue, hscale⟩ := amount_applySignedFill price hcmp hrescale
    have hsigned : (signedFill buy qty).toRat = if buy then qty.toRat else -qty.toRat := by
      rw [signedFill]
      split
      · rfl
      · exact negUnits_toRat (by simp only [int64Min]; omega)
    have hsignedScale : (signedFill buy qty).scale = qty.scale := by
      rw [signedFill]
      split
      · rfl
      · exact negUnits_scale qty
    have hsum : (Decimal.add pos.amount (signedFill buy qty)).toRat =
        pos.amount.toRat + if buy then qty.toRat else -qty.toRat := by
      rw [add_toRat hadd, hsigned]
    refine ⟨?_, ?_⟩
    · rw [hvalue, Position.filledAmount, sub_sub, ← hsum, rounding]
      split
      · rename_i hle
        have hsumScale : (Decimal.add pos.amount (signedFill buy qty)).scale ≤ kQtyScale := by
          rw [add_of_exact hadd]
          exact max_le hamount.2 (hsignedScale ▸ hle)
        rw [rescale_exact hrescale hsumScale, sub_self, abs_zero]
      · exact rescale_error hrescale
    · rw [Decimal.OfScale, hscale]
      decide
  · have hzero : qty.units = 0 := le_antisymm (not_lt.mp hpos) hqty.2
    have hvalue : qty.toRat = 0 := (toRat_eq_zero_iff qty).mpr hzero
    have hcmp : Decimal.cmp qty .zero ≤ 0 := by
      rw [cmp_zero_nonpos_iff hqty.1, hvalue]
    rw [applySignedFill, if_pos hcmp, hvalue]
    refine ⟨?_, hamount⟩
    simpa using hround

end SignedFill

end Ledger
end ContExchange
