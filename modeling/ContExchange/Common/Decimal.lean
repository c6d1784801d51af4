import Mathlib.Tactic

/-!
# Common: the fixed-point decimal

This module models `cex::common::Decimal`, the only money type of the services.
A decimal is a 64-bit mantissa `units` and a number `scale` of decimal places;
its value is `units * 10^(-scale)`.

The operations work on 128-bit intermediates.  `normalizeI128` then drops
decimal places, rounding half away from zero, until the mantissa fits 64 bits,
and saturates when no place is left.  Signed overflow of an intermediate is
undefined in the source language; the model wraps, as compiled code does.

The lemmas of this module say when an operation is exact: `add` and `sub` are
exact as soon as the result fits 64 bits at the common scale, and `cmp` orders
two decimals by their values when both scales lie between 0 and 18.
-/

namespace ContExchange
namespace Common

/-- `std::numeric_limits<int64_t>::min()`. -/
def int64Min : Int := -9223372036854775808

/-- `std::numeric_limits<int64_t>::max()`. -/
def int64Max : Int := 9223372036854775807

/-- The integer is representable as an `int64_t`. -/
def Int64Fits (z : Int) : Prop :=
  int64Min ≤ z ∧ z ≤ int64Max
deriving Decidable

theorem int64Fits_int64Min : Int64Fits int64Min := by decide

theorem int64Fits_int64Max : Int64Fits int64Max := by decide

/-- Saturation to the 64-bit range. -/
def clampInt64 (z : Int) : Int :=
  if int64Max < z then int64Max
  else if z < int64Min then int64Min
  else z

theorem clampInt64_fits (z : Int) : Int64Fits (clampInt64 z) := by
  unfold clampInt64 Int64Fits int64Min int64Max
  split
  · omega
  · split <;> omega

variable {z : Int}

theorem clampInt64_of_fits (h : Int64Fits z) : clampInt64 z = z := by
  unfold Int64Fits at h
  unfold clampInt64
  rw [if_neg (by omega), if_neg (by omega)]

/-- A 128-bit intermediate, wrapping on overflow. -/
def i128 (z : Int) : Int :=
  Int.bmod z (2 ^ 128)

theorem i128_of_lt (hlo : -(2 ^ 127) ≤ z) (hhi : z < 2 ^ 127) : i128 z = z := by
  unfold i128
  exact Int.bmod_eq_of_le (by norm_num; omega) (by norm_num; omega)

theorem i128_of_abs_le (h : |z| ≤ 2 ^ 126) : i128 z = z := by
  obtain ⟨h₁, h₂⟩ := abs_le.mp h
  exact i128_of_lt (by omega) (by omega)

/-- A fixed-point decimal: `units * 10^(-scale)`. -/
structure Decimal where
  units : Int
  scale : Int
  fits : Int64Fits units := by decide
deriving DecidableEq

namespace Decimal

theorem int64Fits_zero : Int64Fits 0 := by decide

theorem int64Fits_one : Int64Fits 1 := by decide

variable {a b : Decimal}

theorem eq_of_units_of_scale (hunits : a.units = b.units) (hscale : a.scale = b.scale) : a = b := by
  cases a
  cases b
  cases hunits
  cases hscale
  rfl

/-- The canonical zero `Decimal{0, 0}`. -/
def zero : Decimal := ⟨0, 0, int64Fits_zero⟩

/-- The decimal of a literal mantissa. -/
def of
    (units scale : Int)
    (h : decide (Int64Fits units) = true := by exact Eq.refl true) : Decimal :=
  ⟨units, scale, of_decide_eq_true h⟩

instance : Inhabited Decimal := ⟨zero⟩

/-- The value as a rational: the source's cast to `double`, read exactly. -/
def toRat (d : Decimal) : ℚ :=
  (d.units : ℚ) * (10 : ℚ) ^ (-d.scale)

/-- `pow10_i128`; a negative exponent leaves the loop at once. -/
def pow10I128 (p : Int) : Int :=
  i128 (10 ^ p.toNat)

/-- `round_div10`: division by ten, half away from zero. -/
def roundDiv10 (value : Int) : Int :=
  if value < 0 then -((-value + 5) / 10)
  else (value + 5) / 10

/-- The loop of `normalize_i128`: at most `places` decimal places are dropped.
The second component is the number of places left. -/
def normalizeLoop : (places : Nat) → Int → Int × Nat
  | 0, units => (units, 0)
  | n + 1, units =>
      if Int64Fits units then (units, n + 1)
      else normalizeLoop n (roundDiv10 units)

def normalizeI128 (units scale : Int) : Decimal :=
  if 0 < scale then
    let r := normalizeLoop scale.toNat units
    ⟨clampInt64 r.1, r.2, clampInt64_fits _⟩
  else
    ⟨clampInt64 units, scale, clampInt64_fits _⟩

def alignUnitsI128 (value : Decimal) (targetScale : Int) : Int :=
  if targetScale ≤ value.scale then value.units
  else i128 (value.units * pow10I128 (targetScale - value.scale))

def mul (a b : Decimal) : Decimal :=
  normalizeI128 (i128 (a.units * b.units)) (a.scale + b.scale)

def add (a b : Decimal) : Decimal :=
  let scale := max a.scale b.scale
  normalizeI128 (i128 (alignUnitsI128 a scale + alignUnitsI128 b scale)) scale

def sub (a b : Decimal) : Decimal :=
  let scale := max a.scale b.scale
  normalizeI128 (i128 (alignUnitsI128 a scale - alignUnitsI128 b scale)) scale

/-- `Decimal::cmp`: -1, 0 or 1. -/
def cmp (a b : Decimal) : Int :=
  let scale := max a.scale b.scale
  let lhs := alignUnitsI128 a scale
  let rhs := alignUnitsI128 b scale
  if lhs < rhs then -1
  else if rhs < lhs then 1
  else 0

/-- The quotient `Decimal::div` computes once the divisor is known to be
non-zero: half away from zero at `resultScale`. -/
def divUnits (a b : Decimal) (resultScale : Int) : Decimal :=
  let k := resultScale - a.scale + b.scale
  let num := if 0 ≤ k then i128 (a.units * pow10I128 k) else a.units
  let den := if 0 ≤ k then b.units else i128 (b.units * pow10I128 (-k))
  let quotient := (num.natAbs : Int) / (den.natAbs : Int)
  let remainder := (num.natAbs : Int) % (den.natAbs : Int)
  let rounded := if (den.natAbs : Int) ≤ 2 * remainder then quotient + 1 else quotient
  let negative := decide (num < 0) != decide (den < 0)
  normalizeI128 (if negative then -rounded else rounded) resultScale

/-- `Decimal::div`; `none` is the `std::invalid_argument` of a zero divisor. -/
def div (a b : Decimal) (resultScale : Int) : Option Decimal :=
  if b.units = 0 then none
  else some (divUnits a b resultScale)

protected def min (a b : Decimal) : Decimal :=
  if cmp a b ≤ 0 then a else b

protected def max (a b : Decimal) : Decimal :=
  if cmp a b ≥ 0 then a else b

/-- The aggregate `Decimal{-d.units, d.scale}`; the negation of the smallest
mantissa overflows back to itself. -/
def negUnits (d : Decimal) : Decimal :=
  if h : Int64Fits (-d.units) then ⟨-d.units, d.scale, h⟩ else d

/-- The zero `Decimal{0, scale}` written in the scale of another decimal. -/
def zeroAt (scale : Int) : Decimal := ⟨0, scale, int64Fits_zero⟩

/-- The mantissa of the decimal at a scale not below its own, without overflow. -/
def unitsAt (d : Decimal) (s : Int) : Int :=
  d.units * 10 ^ (s - d.scale).toNat

/-- `add` is exact: the sum fits 64 bits at the common scale. -/
def AddExact (a b : Decimal) : Prop :=
  Int64Fits (a.unitsAt (max a.scale b.scale) + b.unitsAt (max a.scale b.scale))
deriving Decidable

/-- `sub` is exact: the difference fits 64 bits at the common scale. -/
def SubExact (a b : Decimal) : Prop :=
  Int64Fits (a.unitsAt (max a.scale b.scale) - b.unitsAt (max a.scale b.scale))
deriving Decidable

/-- `mul` is exact: the product fits 64 bits. -/
def MulExact (a b : Decimal) : Prop :=
  Int64Fits (a.units * b.units)
deriving Decidable

/-- The scales the services use: the header asks for `scale >= 0`, and the
database columns keep 18 places. -/
def ScaleOk (d : Decimal) : Prop :=
  0 ≤ d.scale ∧ d.scale ≤ 18
deriving Decidable

@[simp] theorem toRat_zero : zero.toRat = 0 := by
  simp [toRat, zero]

@[simp] theorem toRat_zeroAt (s : Int) : (zeroAt s).toRat = 0 := by
  simp [toRat, zeroAt]

theorem scaleOk_zero : ScaleOk zero := by
  decide

theorem pow10_pos (s : Int) : (0 : ℚ) < (10 : ℚ) ^ s :=
  zpow_pos (by norm_num) s

variable {s : Int}

theorem toRat_eq_unitsAt (d : Decimal) (h : d.scale ≤ s) :
    d.toRat = (d.unitsAt s : ℚ) * (10 : ℚ) ^ (-s) := by
  have hk : ((s - d.scale).toNat : Int) = s - d.scale :=
    Int.toNat_of_nonneg (by omega)
  have hpow : ((10 : ℚ) ^ (s - d.scale).toNat) = (10 : ℚ) ^ (s - d.scale) := by
    rw [← zpow_natCast, hk]
  unfold toRat unitsAt
  push_cast
  rw [hpow, mul_assoc, ← zpow_add₀ (by norm_num)]
  congr 2
  omega

theorem toRat_nonneg_iff (d : Decimal) : 0 ≤ d.toRat ↔ 0 ≤ d.units := by
  unfold toRat
  rw [mul_nonneg_iff_of_pos_right (pow10_pos _)]
  exact_mod_cast Iff.rfl

theorem toRat_neg_iff (d : Decimal) : d.toRat < 0 ↔ d.units < 0 := by
  rw [← not_le, toRat_nonneg_iff, not_le]

theorem toRat_eq_zero_iff (d : Decimal) : d.toRat = 0 ↔ d.units = 0 := by
  unfold toRat
  rw [mul_eq_zero, or_iff_left (pow10_pos _).ne']
  exact_mod_cast Iff.rfl

variable {d : Decimal}

theorem negUnits_toRat (h : d.units ≠ int64Min) : d.negUnits.toRat = -d.toRat := by
  have hfits : Int64Fits (-d.units) := by
    have hd := d.fits
    simp only [Int64Fits, int64Min, int64Max] at h hd ⊢
    omega
  rw [negUnits, dif_pos hfits, toRat, toRat]
  push_cast
  ring

theorem negUnits_scale (d : Decimal) : d.negUnits.scale = d.scale := by
  rw [negUnits]
  split <;> rfl

theorem unitsAt_self (d : Decimal) : d.unitsAt d.scale = d.units := by
  simp [unitsAt]

theorem unitsAt_of_le (h : s ≤ d.scale) : d.unitsAt s = d.units := by
  have : (s - d.scale).toNat = 0 := by omega
  simp [unitsAt, this]

theorem unitsAt_rescale {s s' : Int} (h : d.scale ≤ s) (h' : s ≤ s') :
    d.unitsAt s' = d.unitsAt s * 10 ^ (s' - s).toNat := by
  have hk : (s' - d.scale).toNat = (s - d.scale).toNat + (s' - s).toNat := by omega
  rw [unitsAt, unitsAt, hk, pow_add, mul_assoc]

theorem abs_units_le (d : Decimal) : |d.units| ≤ 2 ^ 63 := by
  have h := d.fits
  unfold Int64Fits int64Min int64Max at h
  rw [abs_le]
  constructor <;> omega

theorem alignUnitsI128_eq (d : Decimal) (hbound : |d.unitsAt s| ≤ 2 ^ 126) :
    alignUnitsI128 d s = d.unitsAt s := by
  unfold alignUnitsI128
  split
  · rename_i h
    rw [unitsAt_of_le h]
  · by_cases hu : d.units = 0
    · simp [unitsAt, hu, i128]
    · have hone : (1 : Int) ≤ |d.units| := Int.one_le_abs hu
      have hpow : (0 : Int) < 10 ^ (s - d.scale).toNat := by positivity
      have hle : (10 : Int) ^ (s - d.scale).toNat ≤ |d.unitsAt s| := by
        unfold unitsAt
        rw [abs_mul, abs_of_pos hpow]
        nlinarith
      have hp : pow10I128 (s - d.scale) = 10 ^ (s - d.scale).toNat := by
        unfold pow10I128
        exact i128_of_abs_le (by rw [abs_of_pos hpow]; exact hle.trans hbound)
      rw [hp]
      exact i128_of_abs_le hbound

theorem abs_unitsAt_max_le
    (h : |a.unitsAt (max a.scale b.scale)| ≤ 2 ^ 63 + |b.unitsAt (max a.scale b.scale)|)
    (h' : |b.unitsAt (max a.scale b.scale)| ≤ 2 ^ 63 + |a.unitsAt (max a.scale b.scale)|) :
    |a.unitsAt (max a.scale b.scale)| ≤ 2 ^ 126 ∧
      |b.unitsAt (max a.scale b.scale)| ≤ 2 ^ 126 := by
  have ha := abs_units_le a
  have hb := abs_units_le b
  rcases le_total a.scale b.scale with hs | hs
  · rw [max_eq_right hs, unitsAt_self] at h h' ⊢
    omega
  · rw [max_eq_left hs, unitsAt_self] at h h' ⊢
    omega

theorem abs_le_add_abs_of_sub {x y B : Int} (h : |x - y| ≤ B) : |x| ≤ B + |y| := by
  have := abs_sub_abs_le_abs_sub x y
  omega

theorem abs_le_add_abs_of_add {x y B : Int} (h : |x + y| ≤ B) : |x| ≤ B + |y| := by
  have := abs_le_add_abs_of_sub (x := x) (y := -y) (B := B) (by simpa using h)
  simpa using this

theorem abs_le_of_int64Fits {z : Int} (h : Int64Fits z) : |z| ≤ 2 ^ 63 := by
  unfold Int64Fits int64Min int64Max at h
  rw [abs_le]
  constructor <;> omega

theorem normalizeI128_of_fits {units scale : Int} (h : Int64Fits units) :
    normalizeI128 units scale = ⟨units, scale, h⟩ := by
  unfold normalizeI128
  split
  · rename_i hs
    obtain ⟨n, hn⟩ : ∃ n, scale.toNat = n + 1 := ⟨scale.toNat - 1, by omega⟩
    simp only [hn, normalizeLoop, if_pos h, clampInt64_of_fits h]
    congr 1
    omega
  · simp only [clampInt64_of_fits h]

theorem add_of_exact (h : AddExact a b) : add a b = ⟨_, max a.scale b.scale, h⟩ := by
  have hz := abs_le_of_int64Fits h
  obtain ⟨ha, hb⟩ := abs_unitsAt_max_le (a := a) (b := b)
    (abs_le_add_abs_of_add hz)
    (abs_le_add_abs_of_add (by rwa [add_comm]))
  unfold add
  simp only [alignUnitsI128_eq a ha, alignUnitsI128_eq b hb]
  rw [i128_of_abs_le (hz.trans (by norm_num))]
  exact normalizeI128_of_fits h

theorem sub_of_exact (h : SubExact a b) : sub a b = ⟨_, max a.scale b.scale, h⟩ := by
  have hz := abs_le_of_int64Fits h
  obtain ⟨ha, hb⟩ := abs_unitsAt_max_le (a := a) (b := b)
    (abs_le_add_abs_of_sub hz)
    (abs_le_add_abs_of_sub (by rwa [abs_sub_comm]))
  unfold sub
  simp only [alignUnitsI128_eq a ha, alignUnitsI128_eq b hb]
  rw [i128_of_abs_le (hz.trans (by norm_num))]
  exact normalizeI128_of_fits h

theorem mul_of_exact (h : MulExact a b) : mul a b = ⟨a.units * b.units, a.scale + b.scale, h⟩ := by
  have hz := abs_le_of_int64Fits h
  rw [mul, i128_of_abs_le (hz.trans (by norm_num))]
  exact normalizeI128_of_fits h

theorem mul_toRat (h : MulExact a b) : (mul a b).toRat = a.toRat * b.toRat := by
  rw [mul_of_exact h, toRat, toRat, toRat, neg_add, zpow_add₀ (by norm_num)]
  push_cast
  ring

theorem add_toRat (h : AddExact a b) : (add a b).toRat = a.toRat + b.toRat := by
  rw [add_of_exact h,
    toRat_eq_unitsAt a (le_max_left a.scale b.scale),
    toRat_eq_unitsAt b (le_max_right a.scale b.scale)]
  simp only [toRat]
  push_cast
  ring

theorem sub_toRat (h : SubExact a b) : (sub a b).toRat = a.toRat - b.toRat := by
  rw [sub_of_exact h,
    toRat_eq_unitsAt a (le_max_left a.scale b.scale),
    toRat_eq_unitsAt b (le_max_right a.scale b.scale)]
  simp only [toRat]
  push_cast
  ring

theorem sub_scaleOk (h : SubExact a b) (ha : ScaleOk a) (hb : ScaleOk b) : ScaleOk (sub a b) := by
  rw [sub_of_exact h]
  unfold ScaleOk at *
  simp only
  omega

theorem int64Fits_of_mul_pow {z : Int} {k : Nat} (h : |z * 10 ^ k| ≤ int64Max) : Int64Fits z := by
  have hone : (1 : Int) ≤ 10 ^ k := one_le_pow₀ (by norm_num)
  have hz : |z| ≤ int64Max := by
    rw [abs_mul, abs_of_pos (by omega : (0 : Int) < 10 ^ k)] at h
    exact (le_mul_of_one_le_right (abs_nonneg z) hone).trans h
  obtain ⟨hlow, hhigh⟩ := abs_le.mp hz
  unfold Int64Fits int64Min
  unfold int64Max at *
  omega

theorem addExact_of_finer (ha : a.scale ≤ s) (hb : b.scale ≤ s)
    (h : |a.unitsAt s + b.unitsAt s| ≤ int64Max) : AddExact a b := by
  have hs : max a.scale b.scale ≤ s := max_le ha hb
  rw [unitsAt_rescale (le_max_left _ _) hs, unitsAt_rescale (le_max_right _ _) hs, ← add_mul] at h
  exact int64Fits_of_mul_pow h

theorem subExact_of_finer (ha : a.scale ≤ s) (hb : b.scale ≤ s)
    (h : |a.unitsAt s - b.unitsAt s| ≤ int64Max) : SubExact a b := by
  have hs : max a.scale b.scale ≤ s := max_le ha hb
  rw [unitsAt_rescale (le_max_left _ _) hs, unitsAt_rescale (le_max_right _ _) hs, ← sub_mul] at h
  exact int64Fits_of_mul_pow h

theorem unitsAt_sub (h : SubExact a b) (ha : a.scale ≤ s) (hb : b.scale ≤ s) :
    (sub a b).unitsAt s = a.unitsAt s - b.unitsAt s := by
  have hs : max a.scale b.scale ≤ s := max_le ha hb
  rw [unitsAt_rescale (le_max_left _ _) hs, unitsAt_rescale (le_max_right _ _) hs, ← sub_mul,
    sub_of_exact h, unitsAt]

/-- `cmp` is exact: both mantissas are aligned without overflow. -/
def AlignExact (a b : Decimal) : Prop :=
  |a.unitsAt (max a.scale b.scale)| ≤ 2 ^ 126 ∧ |b.unitsAt (max a.scale b.scale)| ≤ 2 ^ 126
deriving Decidable

theorem cmp_of_alignExact (h : AlignExact a b) :
    cmp a b =
      if a.toRat < b.toRat then -1
      else if b.toRat < a.toRat then 1
      else 0 := by
  have hp := pow10_pos (-(max a.scale b.scale))
  unfold cmp
  simp only [alignUnitsI128_eq a h.1, alignUnitsI128_eq b h.2]
  rw [toRat_eq_unitsAt a (le_max_left a.scale b.scale),
    toRat_eq_unitsAt b (le_max_right a.scale b.scale)]
  simp only [mul_lt_mul_iff_left₀ hp, Int.cast_lt]

theorem cmp_pos_iff_of_alignExact (h : AlignExact a b) : 0 < cmp a b ↔ b.toRat < a.toRat := by
  rw [cmp_of_alignExact h]
  split
  · rename_i h
    simp [h.le]
  · split <;> simp_all

theorem alignExact_zero (h : 0 ≤ d.scale) : AlignExact d zero := by
  have hmax : max d.scale zero.scale = d.scale := max_eq_left h
  unfold AlignExact
  rw [hmax, unitsAt_self]
  refine ⟨(abs_units_le d).trans (by norm_num), ?_⟩
  simp [unitsAt, zero]

theorem abs_unitsAt_le (hd : ScaleOk d) (hs : s ≤ 18) : |d.unitsAt s| ≤ 2 ^ 63 * 10 ^ 18 := by
  have hu := abs_units_le d
  have hk : (s - d.scale).toNat ≤ 18 := by
    unfold ScaleOk at hd
    omega
  have hpow : (10 : Int) ^ (s - d.scale).toNat ≤ 10 ^ 18 :=
    pow_le_pow_right₀ (by norm_num) hk
  have hpos : (0 : Int) < 10 ^ (s - d.scale).toNat := by positivity
  unfold unitsAt
  rw [abs_mul, abs_of_pos hpos]
  exact mul_le_mul hu hpow hpos.le (by norm_num)

theorem abs_unitsAt_of_scaleOk (hd : ScaleOk d) (hs : s ≤ 18) : |d.unitsAt s| ≤ 2 ^ 126 :=
  (abs_unitsAt_le hd hs).trans (by norm_num)

theorem alignUnitsI128_of_scaleOk (hd : ScaleOk d) (hs : s ≤ 18) :
    alignUnitsI128 d s = d.unitsAt s :=
  alignUnitsI128_eq d (abs_unitsAt_of_scaleOk hd hs)

theorem alignExact_of_scaleOk (ha : ScaleOk a) (hb : ScaleOk b) : AlignExact a b :=
  have hs : max a.scale b.scale ≤ 18 := max_le ha.2 hb.2
  ⟨abs_unitsAt_of_scaleOk ha hs, abs_unitsAt_of_scaleOk hb hs⟩

theorem cmp_of_scaleOk (ha : ScaleOk a) (hb : ScaleOk b) :
    cmp a b =
      if a.toRat < b.toRat then -1
      else if b.toRat < a.toRat then 1
      else 0 :=
  cmp_of_alignExact (alignExact_of_scaleOk ha hb)

theorem cmp_neg_iff (ha : ScaleOk a) (hb : ScaleOk b) : cmp a b < 0 ↔ a.toRat < b.toRat := by
  rw [cmp_of_scaleOk ha hb]
  split
  · simp [*]
  · split <;> simp_all

theorem cmp_pos_iff (ha : ScaleOk a) (hb : ScaleOk b) : 0 < cmp a b ↔ b.toRat < a.toRat :=
  cmp_pos_iff_of_alignExact (alignExact_of_scaleOk ha hb)

theorem cmp_nonpos_iff (ha : ScaleOk a) (hb : ScaleOk b) : cmp a b ≤ 0 ↔ a.toRat ≤ b.toRat := by
  rw [← not_lt, cmp_pos_iff ha hb, not_lt]

theorem cmp_nonneg_iff (ha : ScaleOk a) (hb : ScaleOk b) : 0 ≤ cmp a b ↔ b.toRat ≤ a.toRat := by
  rw [← not_lt, cmp_neg_iff ha hb, not_lt]

theorem cmp_zeroAt (d : Decimal) :
    cmp d (zeroAt d.scale) = if d.units < 0 then -1 else if 0 < d.units then 1 else 0 := by
  simp [cmp, zeroAt, alignUnitsI128]

theorem cmp_zeroAt_neg_iff (d : Decimal) : cmp d (zeroAt d.scale) < 0 ↔ d.toRat < 0 := by
  rw [cmp_zeroAt, toRat_neg_iff]
  split
  · simp [*]
  · split <;> simp_all

theorem cmp_zeroAt_nonpos_iff (d : Decimal) : cmp d (zeroAt d.scale) ≤ 0 ↔ d.toRat ≤ 0 := by
  have hpos : 0 < d.toRat ↔ 0 < d.units := by
    rw [lt_iff_le_and_ne, toRat_nonneg_iff, ne_comm, Ne, toRat_eq_zero_iff]
    omega
  rw [← not_lt (a := (0 : ℚ)), hpos, cmp_zeroAt]
  split
  · rename_i h
    simp [h.le]
  · split <;> simp_all

/-- The largest value a mantissa holds at the given number of places. -/
def limit (places : Int) : ℚ :=
  (int64Max : ℚ) * (10 : ℚ) ^ (-places)

/-- The decimal has at most `places` decimal places. -/
def OfScale (places : Int) (d : Decimal) : Prop :=
  0 ≤ d.scale ∧ d.scale ≤ places
deriving Decidable

theorem OfScale.scaleOk {places : Int} (hp : places ≤ 18) (h : OfScale places d) : ScaleOk d :=
  ⟨h.1, h.2.trans hp⟩

theorem limit_nonneg (places : Int) : 0 ≤ limit places := by
  have := pow10_pos (-places)
  unfold limit int64Max
  positivity

theorem int64Fits_of_abs_le_limit {places m z : Int} (hm : m ≤ places)
    (h : |(z : ℚ) * (10 : ℚ) ^ (-m)| ≤ limit places) : Int64Fits z := by
  have hp := pow10_pos (-m)
  have hpow : (10 : ℚ) ^ (-places) ≤ (10 : ℚ) ^ (-m) :=
    zpow_le_zpow_right₀ (by norm_num) (by omega)
  have hle : |(z : ℚ)| * (10 : ℚ) ^ (-m) ≤ (int64Max : ℚ) * (10 : ℚ) ^ (-m) := by
    rw [abs_mul, abs_of_pos hp] at h
    refine h.trans ?_
    exact mul_le_mul_of_nonneg_left hpow (by norm_num [int64Max])
  have habs : |(z : ℚ)| ≤ (int64Max : ℚ) := le_of_mul_le_mul_right hle hp
  have hz : |z| ≤ int64Max := by exact_mod_cast habs
  rw [abs_le] at hz
  unfold Int64Fits int64Min
  unfold int64Max at *
  omega

section Amounts

variable {places : Int} {a b : Decimal}

theorem addExact_of_limit (ha : OfScale places a) (hb : OfScale places b)
    (h : |a.toRat + b.toRat| ≤ limit places) : AddExact a b := by
  apply int64Fits_of_abs_le_limit (max_le ha.2 hb.2)
  rw [toRat_eq_unitsAt a (le_max_left a.scale b.scale),
    toRat_eq_unitsAt b (le_max_right a.scale b.scale), ← add_mul] at h
  exact_mod_cast h

theorem subExact_of_limit (ha : OfScale places a) (hb : OfScale places b)
    (h : |a.toRat - b.toRat| ≤ limit places) : SubExact a b := by
  apply int64Fits_of_abs_le_limit (max_le ha.2 hb.2)
  rw [toRat_eq_unitsAt a (le_max_left a.scale b.scale),
    toRat_eq_unitsAt b (le_max_right a.scale b.scale), ← sub_mul] at h
  exact_mod_cast h

theorem add_ofScale (ha : OfScale places a) (hb : OfScale places b) (h : AddExact a b) :
    OfScale places (add a b) := by
  rw [add_of_exact h]
  exact ⟨le_max_of_le_left ha.1, max_le ha.2 hb.2⟩

theorem sub_ofScale (ha : OfScale places a) (hb : OfScale places b) (h : SubExact a b) :
    OfScale places (sub a b) := by
  rw [sub_of_exact h]
  exact ⟨le_max_of_le_left ha.1, max_le ha.2 hb.2⟩

theorem min_ofScale (ha : OfScale places a) (hb : OfScale places b) :
    OfScale places (Decimal.min a b) := by
  unfold Decimal.min
  split
  · exact ha
  · exact hb

theorem min_toRat (hp : places ≤ 18) (ha : OfScale places a) (hb : OfScale places b) :
    (Decimal.min a b).toRat = min a.toRat b.toRat := by
  have hcmp := cmp_nonpos_iff (ha.scaleOk hp) (hb.scaleOk hp)
  unfold Decimal.min
  split
  · rename_i h
    rw [min_eq_left (hcmp.mp h)]
  · rename_i h
    rw [min_eq_right (not_le.mp (fun hle => h (hcmp.mpr hle))).le]

end Amounts

end Decimal
end Common
end ContExchange
