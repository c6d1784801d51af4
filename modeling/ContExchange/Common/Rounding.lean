import ContExchange.Common.Decimal

/-!
# Common: the rounding of quotients and products

`Decimal::div` rounds half away from zero at the scale it is asked for.  When
no intermediate overflows, the error is at most half a unit of the last place,
and a divisor of one at a scale that is large enough loses nothing.

`Decimal::mul`, `add` and `sub` drop places, one after the other, until the mantissa
fits.  A result within the range is off by nothing when no place was dropped, and else
by at most five ninths of a unit of its last place (`lost`).  No product passes a
decimal: it stays on the same side of every one.
-/

namespace ContExchange
namespace Common

/-- The nearest integer of a quotient, half away from zero. -/
def halfAway (num den : Int) : Int :=
  let quotient := (num.natAbs : Int) / (den.natAbs : Int)
  let remainder := (num.natAbs : Int) % (den.natAbs : Int)
  let rounded := if (den.natAbs : Int) ≤ 2 * remainder then quotient + 1 else quotient
  if decide (num < 0) != decide (den < 0) then -rounded else rounded

theorem div_eq_sign_mul_natAbs {num den : Int} :
    (num : ℚ) / den =
      (if decide (num < 0) != decide (den < 0) then -1 else 1) *
        ((num.natAbs : Int) / (den.natAbs : Int) : ℚ) := by
  have hsign : ∀ z : Int, (z : ℚ) = (if z < 0 then -1 else 1) * ((z.natAbs : Int) : ℚ) := by
    intro z
    by_cases hz : z < 0
    · rw [if_pos hz, Int.ofNat_natAbs_of_nonpos hz.le]
      push_cast
      ring
    · rw [if_neg hz, Int.natAbs_of_nonneg (not_lt.mp hz), one_mul]
  rw [hsign num, hsign den]
  by_cases hn : num < 0 <;> by_cases hd : den < 0 <;> simp [hn, hd, neg_div, div_neg]

theorem abs_roundUp_sub_le (num : Int) {den : Int} (hpos : 0 < den) :
    |((if den ≤ 2 * (num % den) then num / den + 1 else num / den : Int) : ℚ) - num / den| ≤
      1 / 2 := by
  have hposq : (0 : ℚ) < (den : ℚ) := by exact_mod_cast hpos
  have hdiv := Int.ediv_mul_add_emod num den
  have hlt := Int.emod_lt_of_pos num hpos
  have hnn := Int.emod_nonneg num hpos.ne'
  have hsplit : (num : ℚ) = (num / den : Int) * den + (num % den : Int) := by
    exact_mod_cast hdiv.symm
  have hratio : (num : ℚ) / den = (num / den : Int) + ((num % den : Int) : ℚ) / den := by
    rw [div_eq_iff hposq.ne', add_mul, div_mul_cancel₀ _ hposq.ne']
    exact hsplit
  rw [hratio]
  generalize num / den = q at *
  generalize num % den = r at *
  have hr0 : (0 : ℚ) ≤ r / den := div_nonneg (by exact_mod_cast hnn) hposq.le
  have hr1 : (r : ℚ) / den < 1 := by
    rw [div_lt_one hposq]
    exact_mod_cast hlt
  by_cases hhalf : den ≤ 2 * r
  · have hge : (1 : ℚ) / 2 ≤ r / den := by
      rw [div_le_div_iff₀ (by norm_num) hposq]
      have : (den : ℚ) ≤ 2 * r := by exact_mod_cast hhalf
      linarith
    rw [if_pos hhalf, abs_le]
    push_cast
    constructor <;> linarith
  · have hle : (r : ℚ) / den ≤ 1 / 2 := by
      rw [div_le_div_iff₀ hposq (by norm_num)]
      have : 2 * (r : ℚ) < den := by exact_mod_cast not_le.mp hhalf
      linarith
    rw [if_neg hhalf, abs_le]
    constructor <;> linarith

theorem abs_halfAway_sub_le (num : Int) {den : Int} (hden : den ≠ 0) :
    |(halfAway num den : ℚ) - num / den| ≤ 1 / 2 := by
  have hpos : (0 : Int) < (den.natAbs : Int) := by omega
  have hrounded := abs_roundUp_sub_le (num.natAbs : Int) hpos
  rw [div_eq_sign_mul_natAbs]
  simp only [halfAway]
  split
  · rw [abs_sub_comm] at hrounded
    convert hrounded using 2
    rw [Int.cast_neg]
    ring
  · rw [one_mul]
    exact hrounded

theorem halfAway_one (num : Int) : halfAway num 1 = num := by
  have hone : decide ((1 : Int) < 0) = false := rfl
  have hkeep : ¬ (1 : Int) ≤ 0 := by norm_num
  simp only [halfAway, hone, Int.natAbs_one, Nat.cast_one, Int.ediv_one, Int.emod_one, mul_zero,
    Bool.bne_false, decide_eq_true_eq, if_neg hkeep]
  split <;> omega

namespace Decimal

section Division

variable (a b : Decimal) (resultScale : Int)

/-- The numerator of `Decimal::div` before rounding, without overflow. -/
def divNum : Int :=
  if 0 ≤ resultScale - a.scale + b.scale then
    a.units * 10 ^ (resultScale - a.scale + b.scale).toNat
  else a.units

/-- The denominator of `Decimal::div` before rounding, without overflow. -/
def divDen : Int :=
  if 0 ≤ resultScale - a.scale + b.scale then b.units
  else b.units * 10 ^ (-(resultScale - a.scale + b.scale)).toNat

/-- The divisor is not zero, the intermediates stay below `2^126` and the rounded
quotient fits 64 bits. -/
def DivFits : Prop :=
  b.units ≠ 0 ∧ |divNum a b resultScale| ≤ 2 ^ 126 ∧ |divDen a b resultScale| ≤ 2 ^ 126 ∧
    10 ^ (resultScale - a.scale + b.scale).natAbs ≤ (2 : Int) ^ 126 ∧
    Int64Fits (halfAway (divNum a b resultScale) (divDen a b resultScale))
deriving Decidable

variable {a b : Decimal} {resultScale : Int}

section Quotient

variable (hnum : i128 (divNum a b resultScale) = divNum a b resultScale)
  (hden : i128 (divDen a b resultScale) = divDen a b resultScale)
  (hpow : 10 ^ (resultScale - a.scale + b.scale).natAbs ≤ (2 : Int) ^ 126)

include hnum hden hpow

theorem divUnits_eq_normalize :
    divUnits a b resultScale =
      normalizeI128 (halfAway (divNum a b resultScale) (divDen a b resultScale)) resultScale := by
  have hp : ∀ k : Int, 0 ≤ k → k.natAbs = (resultScale - a.scale + b.scale).natAbs →
      pow10I128 k = 10 ^ k.toNat := by
    intro k hk habs
    have hnat : k.toNat = (resultScale - a.scale + b.scale).natAbs := by omega
    rw [pow10I128]
    apply i128_of_abs_le
    rw [abs_of_pos (by positivity), hnat]
    exact hpow
  by_cases hk : 0 ≤ resultScale - a.scale + b.scale
  · rw [divNum, if_pos hk] at hnum ⊢
    rw [divDen, if_pos hk] at hden ⊢
    simp only [divUnits, if_pos hk, hp _ hk rfl, hnum]
    rfl
  · rw [divNum, if_neg hk] at hnum ⊢
    rw [divDen, if_neg hk] at hden ⊢
    simp only [divUnits, if_neg hk, hp (-(resultScale - a.scale + b.scale)) (by omega) (by omega),
      hden]
    rfl

theorem divUnits_of_i128
    (hfits : Int64Fits (halfAway (divNum a b resultScale) (divDen a b resultScale))) :
    divUnits a b resultScale = ⟨_, resultScale, hfits⟩ := by
  rw [← normalizeI128_of_fits hfits]
  exact divUnits_eq_normalize hnum hden hpow

end Quotient

theorem divUnits_of_fits (h : DivFits a b resultScale) :
    divUnits a b resultScale = ⟨_, resultScale, h.2.2.2.2⟩ :=
  divUnits_of_i128 (i128_of_abs_le h.2.1) (i128_of_abs_le h.2.2.1) h.2.2.2.1 h.2.2.2.2

theorem divUnits_scale (h : DivFits a b resultScale) :
    (divUnits a b resultScale).scale = resultScale := by
  rw [divUnits_of_fits h]

theorem divNum_div_divDen (hb : b.units ≠ 0) :
    (divNum a b resultScale : ℚ) / divDen a b resultScale =
      a.toRat / b.toRat * (10 : ℚ) ^ resultScale := by
  have hbq : (b.units : ℚ) ≠ 0 := by exact_mod_cast hb
  have hten : (10 : ℚ) ≠ 0 := by norm_num
  have hratio : a.toRat / b.toRat * (10 : ℚ) ^ resultScale =
      (a.units : ℚ) / b.units * (10 : ℚ) ^ (resultScale - a.scale + b.scale) := by
    rw [toRat, toRat, zpow_add₀ hten, zpow_sub₀ hten, zpow_neg, zpow_neg]
    field_simp
  rw [hratio, divNum, divDen]
  by_cases hk : 0 ≤ resultScale - a.scale + b.scale
  · rw [if_pos hk, if_pos hk]
    have hpow : ((10 : ℚ) ^ (resultScale - a.scale + b.scale).toNat) =
        (10 : ℚ) ^ (resultScale - a.scale + b.scale) := by
      rw [← zpow_natCast, Int.toNat_of_nonneg hk]
    push_cast
    rw [hpow]
    ring
  · rw [if_neg hk, if_neg hk]
    have hpow : ((10 : ℚ) ^ (-(resultScale - a.scale + b.scale)).toNat) =
        ((10 : ℚ) ^ (resultScale - a.scale + b.scale))⁻¹ := by
      rw [← zpow_natCast, Int.toNat_of_nonneg (by omega), zpow_neg]
    push_cast
    rw [hpow]
    field_simp

theorem divUnits_error (h : DivFits a b resultScale) :
    |(divUnits a b resultScale).toRat - a.toRat / b.toRat| ≤ 1 / 2 * (10 : ℚ) ^ (-resultScale) := by
  have hb := h.1
  have hden : divDen a b resultScale ≠ 0 := by
    rw [divDen]
    split
    · exact hb
    · exact mul_ne_zero hb (by positivity)
  have herror := abs_halfAway_sub_le (divNum a b resultScale) hden
  rw [divNum_div_divDen hb] at herror
  have hp := pow10_pos (-resultScale)
  have hcancel : (10 : ℚ) ^ resultScale * (10 : ℚ) ^ (-resultScale) = 1 := by
    rw [← zpow_add₀ (by norm_num), add_neg_cancel, zpow_zero]
  have hscaled : (divUnits a b resultScale).toRat - a.toRat / b.toRat =
      ((halfAway (divNum a b resultScale) (divDen a b resultScale) : ℚ) -
        a.toRat / b.toRat * (10 : ℚ) ^ resultScale) * (10 : ℚ) ^ (-resultScale) := by
    rw [divUnits_of_fits h, toRat, sub_mul, mul_assoc, hcancel, mul_one]
  rw [hscaled, abs_mul, abs_of_pos hp]
  exact mul_le_mul_of_nonneg_right herror hp.le

theorem divUnits_one (h : DivFits a ⟨1, 0, by decide⟩ resultScale)
    (hscale : a.scale ≤ resultScale) :
    (divUnits a ⟨1, 0, by decide⟩ resultScale).toRat = a.toRat := by
  have hk : 0 ≤ resultScale - a.scale + 0 := by omega
  have hnum : divNum a ⟨1, 0, by decide⟩ resultScale = a.unitsAt resultScale := by
    rw [divNum, if_pos hk, unitsAt, add_zero]
  have hden : divDen a ⟨1, 0, by decide⟩ resultScale = 1 := by
    rw [divDen, if_pos hk]
  rw [divUnits_of_fits h, toRat_eq_unitsAt a hscale, toRat]
  simp only [hnum, hden, halfAway_one]

end Division

section Products

theorem abs_roundDiv10_sub_le (u : Int) : |roundDiv10 u * 10 - u| ≤ 5 := by
  unfold roundDiv10
  rw [abs_le]
  split
  · constructor <;> omega
  · constructor <;> omega

theorem normalizeLoop_error (n : Nat) (u : Int) :
    (normalizeLoop n u).2 ≤ n ∧
      9 * |(normalizeLoop n u).1 * 10 ^ (n - (normalizeLoop n u).2) - u| ≤
        5 * (10 ^ (n - (normalizeLoop n u).2) - 1) ∧
      (Int64Fits (normalizeLoop n u).1 ∨ (normalizeLoop n u).2 = 0) := by
  induction n generalizing u with
  | zero => simp [normalizeLoop]
  | succ n ih =>
      unfold normalizeLoop
      by_cases hfits : Int64Fits u
      · rw [if_pos hfits]
        simp [hfits]
      · rw [if_neg hfits]
        obtain ⟨hle, herror, hdone⟩ := ih (roundDiv10 u)
        refine ⟨by omega, ?_, hdone⟩
        have hstep := abs_roundDiv10_sub_le u
        rw [Nat.succ_sub hle, pow_succ]
        generalize (normalizeLoop n (roundDiv10 u)).1 = v at herror
        generalize (10 : Int) ^ (n - (normalizeLoop n (roundDiv10 u)).2) = p at herror
        have hsplit : v * (p * 10) - u =
            (v * p - roundDiv10 u) * 10 + (roundDiv10 u * 10 - u) := by ring
        have htriangle := abs_add_le ((v * p - roundDiv10 u) * 10) (roundDiv10 u * 10 - u)
        rw [← hsplit, abs_mul] at htriangle
        norm_num at htriangle
        omega

theorem normalizeI128_scale (u : Int) {s : Int} (hs : 0 ≤ s) :
    0 ≤ (normalizeI128 u s).scale ∧ (normalizeI128 u s).scale ≤ s := by
  unfold normalizeI128
  split
  · have hle := (normalizeLoop_error s.toNat u).1
    dsimp only
    omega
  · exact ⟨hs, le_rfl⟩

variable {u s : Int}

/-- A mantissa within the range of a decimal is normalised with an error of at most five
ninths of a unit of the last place that is kept. -/
theorem normalizeI128_error (hrange : |(u : ℚ) * (10 : ℚ) ^ (-s)| < int64Max) :
    |(normalizeI128 u s).toRat - u * (10 : ℚ) ^ (-s)| ≤
      5 / 9 * (10 : ℚ) ^ (-(normalizeI128 u s).scale) := by
  have hten : (10 : ℚ) ≠ 0 := by norm_num
  unfold normalizeI128
  by_cases hs : 0 < s
  · simp only [if_pos hs]
    obtain ⟨hle, herror, hdone⟩ := normalizeLoop_error s.toNat u
    unfold toRat
    dsimp only
    generalize normalizeLoop s.toNat u = r at hle herror hdone ⊢
    have hpow : (10 : ℚ) ^ (-s) * (10 : ℚ) ^ (s.toNat - r.2) = (10 : ℚ) ^ (-(r.2 : Int)) := by
      rw [← zpow_natCast, ← zpow_add₀ hten]
      congr 1
      push_cast [Nat.cast_sub hle]
      omega
    have hq : (9 : ℚ) * |(r.1 : ℚ) * 10 ^ (s.toNat - r.2) - u| ≤
        5 * (10 ^ (s.toNat - r.2) - 1) := by
      exact_mod_cast herror
    have hpos : (0 : ℚ) < (10 : ℚ) ^ (-s) := pow10_pos (-s)
    have hoff : |(r.1 : ℚ) * (10 : ℚ) ^ (-(r.2 : Int)) - u * (10 : ℚ) ^ (-s)| ≤
        5 / 9 * (10 : ℚ) ^ (-(r.2 : Int)) := by
      have hfactor : (r.1 : ℚ) * (10 : ℚ) ^ (-(r.2 : Int)) - u * (10 : ℚ) ^ (-s) =
          (10 : ℚ) ^ (-s) * ((r.1 : ℚ) * 10 ^ (s.toNat - r.2) - u) := by
        rw [← hpow]
        ring
      rw [hfactor, abs_mul, abs_of_pos hpos, ← hpow]
      nlinarith
    have hfits : Int64Fits r.1 := by
      rcases hdone with hfits | hzero
      · exact hfits
      · rw [hzero] at hoff
        simp only [Nat.cast_zero, neg_zero, zpow_zero, mul_one] at hoff
        obtain ⟨hlow, hhigh⟩ := abs_le.mp hoff
        obtain ⟨hneg, hlt⟩ := abs_lt.mp hrange
        have hup : (r.1 : ℚ) < (int64Max : ℚ) + 1 := by linarith
        have hdown : -((int64Max : ℚ) + 1) < (r.1 : ℚ) := by linarith
        have hup' : r.1 < int64Max + 1 := by exact_mod_cast hup
        have hdown' : -(int64Max + 1) < r.1 := by exact_mod_cast hdown
        unfold Int64Fits int64Min
        unfold int64Max at *
        omega
    rw [clampInt64_of_fits hfits]
    exact hoff
  · simp only [if_neg hs]
    have hfits : Int64Fits u := by
      have hge : (1 : ℚ) ≤ (10 : ℚ) ^ (-s) := one_le_zpow₀ (by norm_num) (by omega)
      rw [abs_mul, abs_of_pos (pow10_pos (-s))] at hrange
      have hu : |(u : ℚ)| < int64Max := by
        nlinarith [abs_nonneg (u : ℚ)]
      have hu' : |u| < int64Max := by exact_mod_cast hu
      obtain ⟨hlow, hhigh⟩ := abs_lt.mp hu'
      unfold Int64Fits int64Min
      unfold int64Max at *
      omega
    unfold toRat
    dsimp only
    rw [clampInt64_of_fits hfits, sub_self, abs_zero]
    positivity

theorem normalizeI128_of_scale (hrange : |(u : ℚ) * (10 : ℚ) ^ (-s)| < int64Max)
    (hscale : (normalizeI128 u s).scale = s) : (normalizeI128 u s).toRat = u * (10 : ℚ) ^ (-s) := by
  have hpos := pow10_pos (-s)
  have herror := normalizeI128_error hrange
  rw [hscale] at herror
  have hunits : (normalizeI128 u s).toRat = (normalizeI128 u s).units * (10 : ℚ) ^ (-s) := by
    unfold toRat
    rw [hscale]
  rw [hunits, ← sub_mul, abs_mul, abs_of_pos hpos] at herror
  have hclose : |((normalizeI128 u s).units : ℚ) - u| < 1 := by nlinarith
  have hsame : (normalizeI128 u s).units = u := by
    have hint : |(normalizeI128 u s).units - u| < 1 := by exact_mod_cast hclose
    have hzero := Int.abs_lt_one_iff.mp hint
    omega
  rw [hunits, hsame]

/-- The most that a result of so many places can have lost to the 64 bits. -/
def lost (places : Int) (d : Decimal) : ℚ :=
  if d.scale = places then 0 else 5 / 9 * (10 : ℚ) ^ (-d.scale)

theorem lost_nonneg (places : Int) (d : Decimal) : 0 ≤ lost places d := by
  have hp := pow10_pos (-d.scale)
  unfold lost
  split
  · exact le_rfl
  · positivity

theorem normalizeI128_lost (hrange : |(u : ℚ) * (10 : ℚ) ^ (-s)| < int64Max) :
    |(normalizeI128 u s).toRat - u * (10 : ℚ) ^ (-s)| ≤ lost s (normalizeI128 u s) := by
  unfold lost
  split
  · rename_i hscale
    rw [normalizeI128_of_scale hrange hscale, sub_self, abs_zero]
  · exact normalizeI128_error hrange

theorem normalizeLoop_overflow (n : Nat) {u : Int} (h : int64Max * 10 ^ n ≤ u) :
    int64Max * 10 ^ (normalizeLoop n u).2 ≤ (normalizeLoop n u).1 := by
  induction n generalizing u with
  | zero => simpa [normalizeLoop] using h
  | succ n ih =>
      unfold normalizeLoop
      by_cases hfits : Int64Fits u
      · rw [if_pos hfits]
        exact h
      · rw [if_neg hfits]
        apply ih
        have hpos : 0 < int64Max * (10 : Int) ^ n := by
          have : (0 : Int) < int64Max := by decide
          positivity
        rw [pow_succ, ← mul_assoc] at h
        unfold roundDiv10
        rw [if_neg (by omega)]
        omega

theorem normalizeI128_overflow (h : (int64Max : ℚ) ≤ u * (10 : ℚ) ^ (-s)) :
    (int64Max : ℚ) ≤ (normalizeI128 u s).toRat := by
  have hclamp : ∀ z : Int, int64Max ≤ z → clampInt64 z = int64Max := by
    intro z hz
    unfold clampInt64 int64Min
    unfold int64Max at *
    omega
  unfold normalizeI128
  by_cases hs : 0 < s
  · simp only [if_pos hs]
    have hten : (10 : ℚ) ^ (-s) * 10 ^ s.toNat = 1 := by
      rw [← zpow_natCast, ← zpow_add₀ (by norm_num), Int.toNat_of_nonneg hs.le, neg_add_cancel,
        zpow_zero]
    have hbig : int64Max * 10 ^ s.toNat ≤ u := by
      have hscaled := mul_le_mul_of_nonneg_right h (show (0 : ℚ) ≤ 10 ^ s.toNat by positivity)
      rw [mul_assoc, hten, mul_one] at hscaled
      exact_mod_cast hscaled
    have hloop := normalizeLoop_overflow s.toNat hbig
    obtain ⟨-, -, hdone⟩ := normalizeLoop_error s.toNat u
    unfold toRat
    dsimp only
    generalize normalizeLoop s.toNat u = r at hloop hdone ⊢
    have hkept : int64Max * 10 ^ r.2 ≤ clampInt64 r.1 := by
      rcases hdone with hfits | hzero
      · rw [clampInt64_of_fits hfits]
        exact hloop
      · rw [hzero, pow_zero, mul_one] at hloop ⊢
        rw [hclamp _ hloop]
    have hkept' : (int64Max : ℚ) * 10 ^ r.2 ≤ clampInt64 r.1 := by exact_mod_cast hkept
    rw [zpow_neg, zpow_natCast, ← div_eq_mul_inv, le_div_iff₀ (by positivity)]
    exact hkept'
  · simp only [if_neg hs]
    have hone : (1 : ℚ) ≤ (10 : ℚ) ^ (-s) := one_le_zpow₀ (by norm_num) (by omega)
    have hmax : (0 : ℚ) < (int64Max : ℚ) := by norm_num [int64Max]
    unfold toRat
    dsimp only
    by_cases hfits : Int64Fits u
    · rw [clampInt64_of_fits hfits]
      exact h
    · have hu : (0 : ℚ) < u := by
        by_contra hneg
        have := mul_nonpos_of_nonpos_of_nonneg (not_lt.mp hneg) (pow10_pos (-s)).le
        linarith
      have hu' : 0 < u := by exact_mod_cast hu
      have hbig : int64Max ≤ u := by
        unfold Int64Fits int64Min at hfits
        unfold int64Max at *
        omega
      rw [hclamp u hbig]
      nlinarith

theorem mul_eq (a b : Decimal) :
    mul a b = normalizeI128 (a.units * b.units) (a.scale + b.scale) ∧
      a.toRat * b.toRat = ((a.units * b.units : Int) : ℚ) * (10 : ℚ) ^ (-(a.scale + b.scale)) := by
  have hi128 : i128 (a.units * b.units) = a.units * b.units := by
    apply i128_of_abs_le
    rw [abs_mul]
    have ha := abs_units_le a
    have hb := abs_units_le b
    nlinarith [abs_nonneg a.units, abs_nonneg b.units]
  constructor
  · unfold mul
    rw [hi128]
  · unfold toRat
    rw [neg_add, zpow_add₀ (by norm_num)]
    push_cast
    ring

variable {a b : Decimal}

theorem mul_error (hrange : |a.toRat * b.toRat| < int64Max) :
    |(mul a b).toRat - a.toRat * b.toRat| ≤ 5 / 9 * (10 : ℚ) ^ (-(mul a b).scale) := by
  obtain ⟨hmul, hvalue⟩ := mul_eq a b
  rw [hvalue] at hrange ⊢
  rw [hmul]
  exact normalizeI128_error hrange

theorem mul_lost (hrange : |a.toRat * b.toRat| < int64Max) :
    |(mul a b).toRat - a.toRat * b.toRat| ≤ lost (a.scale + b.scale) (mul a b) := by
  obtain ⟨hmul, hvalue⟩ := mul_eq a b
  rw [hvalue] at hrange ⊢
  rw [hmul]
  exact normalizeI128_lost hrange

/-- A sum of two decimals that are aligned without overflow. -/
def SumFits (a b : Decimal) : Prop :=
  AlignExact a b ∧ |a.toRat + b.toRat| < int64Max
deriving Decidable

/-- A difference of two decimals that are aligned without overflow. -/
def DiffFits (a b : Decimal) : Prop :=
  AlignExact a b ∧ |a.toRat - b.toRat| < int64Max
deriving Decidable

/-- One of two aligned mantissas is not shifted. -/
theorem abs_aligned_add_le (h : AlignExact a b) :
    |a.unitsAt (max a.scale b.scale)| + |b.unitsAt (max a.scale b.scale)| ≤ 2 ^ 126 + 2 ^ 63 := by
  obtain ⟨ha, hb⟩ := h
  have hua := abs_units_le a
  have hub := abs_units_le b
  rcases le_total a.scale b.scale with hs | hs
  · rw [max_eq_right hs, unitsAt_self] at *
    omega
  · rw [max_eq_left hs, unitsAt_self] at *
    omega

theorem add_lost (h : SumFits a b) :
    |(add a b).toRat - (a.toRat + b.toRat)| ≤ lost (max a.scale b.scale) (add a b) := by
  obtain ⟨halign, hrange⟩ := h
  have hsum := abs_le.mp ((abs_add_le _ _).trans (abs_aligned_add_le halign))
  obtain ⟨ha, hb⟩ := halign
  have hi128 := i128_of_lt (z := a.unitsAt (max a.scale b.scale) + b.unitsAt (max a.scale b.scale))
    (by omega) (by omega)
  rw [toRat_eq_unitsAt a (le_max_left a.scale b.scale),
    toRat_eq_unitsAt b (le_max_right a.scale b.scale), ← add_mul, ← Int.cast_add] at hrange ⊢
  unfold add
  simp only [alignUnitsI128_eq a ha, alignUnitsI128_eq b hb, hi128]
  exact normalizeI128_lost hrange

theorem sub_lost (h : DiffFits a b) :
    |(sub a b).toRat - (a.toRat - b.toRat)| ≤ lost (max a.scale b.scale) (sub a b) := by
  obtain ⟨halign, hrange⟩ := h
  have hsum := abs_le.mp ((abs_sub _ _).trans (abs_aligned_add_le halign))
  obtain ⟨ha, hb⟩ := halign
  have hi128 := i128_of_lt (z := a.unitsAt (max a.scale b.scale) - b.unitsAt (max a.scale b.scale))
    (by omega) (by omega)
  rw [toRat_eq_unitsAt a (le_max_left a.scale b.scale),
    toRat_eq_unitsAt b (le_max_right a.scale b.scale), ← sub_mul, ← Int.cast_sub] at hrange ⊢
  unfold sub
  simp only [alignUnitsI128_eq a ha, alignUnitsI128_eq b hb, hi128]
  exact normalizeI128_lost hrange

theorem ScaleOk.sub (ha : ScaleOk a) (hb : ScaleOk b) : ScaleOk (Decimal.sub a b) := by
  obtain ⟨h₀, h₁⟩ := normalizeI128_scale (i128 (alignUnitsI128 a (max a.scale b.scale) -
    alignUnitsI128 b (max a.scale b.scale))) (ha.1.trans (le_max_left a.scale b.scale))
  exact ⟨h₀, h₁.trans (max_le ha.2 hb.2)⟩

/-- The sum is not rounded. -/
def AddKept (a b : Decimal) : Prop :=
  (add a b).toRat = a.toRat + b.toRat
deriving Decidable

/-- The difference is not rounded. -/
def SubKept (a b : Decimal) : Prop :=
  (sub a b).toRat = a.toRat - b.toRat
deriving Decidable

/-- The product is not rounded. -/
def MulKept (a b : Decimal) : Prop :=
  (mul a b).toRat = a.toRat * b.toRat
deriving Decidable

theorem mul_overflow (h : (int64Max : ℚ) ≤ a.toRat * b.toRat) :
    (int64Max : ℚ) ≤ (mul a b).toRat := by
  obtain ⟨hmul, hvalue⟩ := mul_eq a b
  rw [hvalue] at h
  rw [hmul]
  exact normalizeI128_overflow h

end Products

section Faithful

theorem le_roundDiv10 {m u : Int} (h : m * 10 ≤ u) : m ≤ roundDiv10 u := by
  unfold roundDiv10
  split <;> omega

theorem roundDiv10_le {m u : Int} (h : u ≤ m * 10) : roundDiv10 u ≤ m := by
  unfold roundDiv10
  split <;> omega

variable {u : Int}

theorem int64Max_lt_roundDiv10 (hu : 0 ≤ u) (h : ¬ Int64Fits u) : int64Max < roundDiv10 u * 10 := by
  unfold Int64Fits int64Min at h
  unfold roundDiv10
  rw [if_neg (by omega)]
  unfold int64Max at *
  omega

theorem roundDiv10_nonneg (hu : 0 ≤ u) : 0 ≤ roundDiv10 u :=
  le_roundDiv10 (by simpa using hu)

theorem le_normalizeLoop (n : Nat) {u m : Int} {j : Nat} (hm : m ≤ int64Max) (hu : 0 ≤ u)
    (h : m * 10 ^ n ≤ u * 10 ^ j) :
    m * 10 ^ (normalizeLoop n u).2 ≤ clampInt64 (normalizeLoop n u).1 * 10 ^ j := by
  induction n generalizing u with
  | zero =>
      have hpos : (1 : Int) ≤ 10 ^ j := one_le_pow₀ (by norm_num)
      simp only [normalizeLoop, pow_zero, mul_one] at h ⊢
      by_cases hfits : Int64Fits u
      · rw [clampInt64_of_fits hfits]
        exact h
      · have hclamp : clampInt64 u = int64Max := by
          unfold Int64Fits int64Min at hfits
          unfold clampInt64
          rw [if_pos (by unfold int64Max at *; omega)]
        have hmax : (0 : Int) ≤ int64Max := by decide
        rw [hclamp]
        exact hm.trans (le_mul_of_one_le_right hmax hpos)
  | succ n ih =>
      unfold normalizeLoop
      by_cases hfits : Int64Fits u
      · rw [if_pos hfits, clampInt64_of_fits hfits]
        exact h
      · rw [if_neg hfits]
        apply ih (roundDiv10_nonneg hu)
        rcases Nat.lt_or_ge n j with hj | hj
        · -- the decimal has a place that is dropped, so its mantissa is the smaller one
          obtain ⟨i, rfl⟩ : ∃ i, j = n + 1 + i := ⟨j - (n + 1), by omega⟩
          have hbig := int64Max_lt_roundDiv10 hu hfits
          have hone : (1 : Int) ≤ 10 ^ i := one_le_pow₀ (by norm_num)
          have hstep : m ≤ roundDiv10 u * 10 * 10 ^ i :=
            (hm.trans hbig.le).trans
              (le_mul_of_one_le_right (by have := roundDiv10_nonneg hu; omega) hone)
          calc m * 10 ^ n
              ≤ roundDiv10 u * 10 * 10 ^ i * 10 ^ n :=
                mul_le_mul_of_nonneg_right hstep (by positivity)
            _ = roundDiv10 u * 10 ^ (n + 1 + i) := by ring
        · obtain ⟨i, rfl⟩ : ∃ i, n = j + i := ⟨n - j, by omega⟩
          have hpos : (0 : Int) < 10 ^ j := by positivity
          have hten : m * 10 ^ i * 10 ≤ u := by
            apply le_of_mul_le_mul_right _ hpos
            calc m * 10 ^ i * 10 * 10 ^ j
                = m * 10 ^ (j + i + 1) := by ring
              _ ≤ u * 10 ^ j := h
          calc m * 10 ^ (j + i)
              = m * 10 ^ i * 10 ^ j := by ring
            _ ≤ roundDiv10 u * 10 ^ j :=
                mul_le_mul_of_nonneg_right (le_roundDiv10 hten) hpos.le

theorem normalizeLoop_le (n : Nat) {u m : Int} {j : Nat} (hm : m ≤ int64Max) (hu : 0 ≤ u)
    (h : u * 10 ^ j ≤ m * 10 ^ n) :
    clampInt64 (normalizeLoop n u).1 * 10 ^ j ≤ m * 10 ^ (normalizeLoop n u).2 := by
  induction n generalizing u with
  | zero =>
      have hclamp : clampInt64 u ≤ u := by
        unfold clampInt64 int64Min int64Max
        split
        · omega
        · split <;> omega
      simp only [normalizeLoop, pow_zero, mul_one] at h ⊢
      exact (mul_le_mul_of_nonneg_right hclamp (by positivity)).trans h
  | succ n ih =>
      unfold normalizeLoop
      by_cases hfits : Int64Fits u
      · rw [if_pos hfits, clampInt64_of_fits hfits]
        exact h
      · rw [if_neg hfits]
        have hbig : int64Max < u := by
          unfold Int64Fits int64Min at hfits
          unfold int64Max at *
          omega
        apply ih (roundDiv10_nonneg hu)
        rcases Nat.lt_or_ge n j with hj | hj
        · exfalso
          obtain ⟨i, rfl⟩ : ∃ i, j = n + 1 + i := ⟨j - (n + 1), by omega⟩
          have hone : (1 : Int) ≤ 10 ^ i := one_le_pow₀ (by norm_num)
          have hscaled : u * 10 ^ i ≤ m := by
            apply le_of_mul_le_mul_right _ (show (0 : Int) < 10 ^ (n + 1) by positivity)
            calc u * 10 ^ i * 10 ^ (n + 1)
                = u * 10 ^ (n + 1 + i) := by ring
              _ ≤ m * 10 ^ (n + 1) := h
          have := le_mul_of_one_le_right hu hone
          omega
        · obtain ⟨i, rfl⟩ : ∃ i, n = j + i := ⟨n - j, by omega⟩
          have hpos : (0 : Int) < 10 ^ j := by positivity
          have hten : u ≤ m * 10 ^ i * 10 := by
            apply le_of_mul_le_mul_right _ hpos
            calc u * 10 ^ j
                ≤ m * 10 ^ (j + i + 1) := h
              _ = m * 10 ^ i * 10 * 10 ^ j := by ring
          calc roundDiv10 u * 10 ^ j
              ≤ m * 10 ^ i * 10 ^ j := mul_le_mul_of_nonneg_right (roundDiv10_le hten) hpos.le
            _ = m * 10 ^ (j + i) := by ring

theorem clampInt64_of_nonneg (hu : 0 ≤ u) : clampInt64 u = min u int64Max := by
  unfold clampInt64 int64Min int64Max
  split
  · omega
  · split <;> omega

theorem mul_pow_le_iff {x y : Int} {i j : Nat} :
    (x : ℚ) * (10 : ℚ) ^ (-(i : Int)) ≤ y * (10 : ℚ) ^ (-(j : Int)) ↔
      x * 10 ^ j ≤ y * 10 ^ i := by
  rw [zpow_neg, zpow_neg, zpow_natCast, zpow_natCast, ← div_eq_mul_inv, ← div_eq_mul_inv,
    div_le_div_iff₀ (by positivity) (by positivity)]
  exact_mod_cast Iff.rfl

/-- The normalisation of a mantissa that is not negative never passes a decimal: every
decimal with places is on the same side of it as before. -/
theorem normalizeI128_faithful {t : Decimal} (ht : 0 ≤ t.scale) {u s : Int} (hu : 0 ≤ u) :
    (t.toRat ≤ u * (10 : ℚ) ^ (-s) → t.toRat ≤ (normalizeI128 u s).toRat) ∧
      (u * (10 : ℚ) ^ (-s) ≤ t.toRat → (normalizeI128 u s).toRat ≤ t.toRat) := by
  have hm : t.units ≤ int64Max := t.fits.2
  obtain ⟨j, hj⟩ := Int.eq_ofNat_of_zero_le ht
  unfold normalizeI128 toRat
  rw [hj]
  by_cases hs : 0 < s
  · obtain ⟨n, rfl⟩ := Int.eq_ofNat_of_zero_le hs.le
    simp only [if_pos hs, Int.toNat_natCast, mul_pow_le_iff]
    exact ⟨le_normalizeLoop n hm hu, normalizeLoop_le n hm hu⟩
  · obtain ⟨n, hn⟩ := Int.eq_ofNat_of_zero_le (show 0 ≤ -s by omega)
    have hmax : (t.units : ℚ) * (10 : ℚ) ^ (-(j : Int)) ≤ int64Max * (10 : ℚ) ^ (-s) := by
      have hm' : (t.units : ℚ) ≤ int64Max := by exact_mod_cast hm
      have hpos : (0 : ℚ) ≤ (int64Max : ℚ) := by norm_num [int64Max]
      have hj1 : (10 : ℚ) ^ (-(j : Int)) ≤ 1 := zpow_le_one_of_nonpos₀ (by norm_num) (by omega)
      have hs1 : (1 : ℚ) ≤ (10 : ℚ) ^ (-s) := one_le_zpow₀ (by norm_num) (by omega)
      have hjpos := pow10_pos (-(j : Int))
      calc (t.units : ℚ) * (10 : ℚ) ^ (-(j : Int))
          ≤ int64Max * (10 : ℚ) ^ (-(j : Int)) := mul_le_mul_of_nonneg_right hm' hjpos.le
        _ ≤ int64Max * (10 : ℚ) ^ (-s) := mul_le_mul_of_nonneg_left (hj1.trans hs1) hpos
    have hcut : (clampInt64 u : ℚ) = min (u : ℚ) int64Max := by
      rw [clampInt64_of_nonneg hu]
      push_cast
      rfl
    simp only [if_neg hs, hcut, min_mul_of_nonneg _ _ (pow10_pos (-s)).le]
    exact ⟨fun h => le_min h hmax, fun h => (min_le_left _ _).trans h⟩

theorem mul_faithful {a b t : Decimal} (ht : 0 ≤ t.scale) (ha : 0 ≤ a.units) (hb : 0 ≤ b.units) :
    (t.toRat ≤ a.toRat * b.toRat → t.toRat ≤ (mul a b).toRat) ∧
      (a.toRat * b.toRat ≤ t.toRat → (mul a b).toRat ≤ t.toRat) := by
  obtain ⟨hmul, hvalue⟩ := mul_eq a b
  rw [hvalue, hmul]
  exact normalizeI128_faithful ht (mul_nonneg ha hb)

end Faithful

end Decimal
end Common
end ContExchange
