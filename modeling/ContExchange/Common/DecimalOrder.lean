import ContExchange.Common.Decimal

/-!
# Common: the order of decimals

`Decimal::cmp` aligns both mantissas to the finer scale and compares them.

* `alignUnitsI128_eq_i128`: an aligned mantissa is the exact one, cut to 128 bits;
* `Comparable`: the aligned mantissas fit 128 bits, or what is left of the one that does
  not is still on its side of the other;
* `cmp_is_order_iff`: the comparison is that of the values exactly for such decimals, and on
  a set of them it is a total preorder with its minimum and maximum.

Nothing bounds the difference of two scales, and the scales of products add up.
-/

namespace ContExchange
namespace Common
namespace Decimal

open SignType

/-- The integer is representable in 128 bits. -/
def Int128Fits (z : Int) : Prop :=
  -(2 ^ 127) ≤ z ∧ z < 2 ^ 127
deriving Decidable

/-- The mantissa fits, or its low 128 bits are on its side of the other mantissa. -/
def KeepsSide (units other : Int) : Prop :=
  Int128Fits units ∨ 0 < units ∧ other < i128 units ∨ units < 0 ∧ i128 units < other
deriving Decidable

/-- The mantissas at the finer scale keep their sides. -/
def Comparable (a b : Decimal) : Prop :=
  KeepsSide (a.unitsAt (max a.scale b.scale)) (b.unitsAt (max a.scale b.scale)) ∧
    KeepsSide (b.unitsAt (max a.scale b.scale)) (a.unitsAt (max a.scale b.scale))
deriving Decidable

section Order

variable {a b c : Decimal}

theorem alignUnitsI128_eq_i128 (d : Decimal) (s : Int) :
    alignUnitsI128 d s = i128 (d.unitsAt s) := by
  unfold alignUnitsI128
  split
  · rename_i h
    rw [unitsAt_of_le h, i128_of_abs_le (d.abs_units_le.trans (by norm_num))]
  · unfold pow10I128 unitsAt i128
    exact Int.mul_bmod_bmod

theorem i128_of_small {z : Int} (h : |z| ≤ 2 ^ 63) : Int128Fits z ∧ i128 z = z := by
  obtain ⟨hlow, hhigh⟩ := abs_le.mp h
  exact ⟨⟨by omega, by omega⟩, i128_of_lt (by omega) (by omega)⟩

theorem order_iff_keepsSide {x y : Int} (hy : |y| ≤ 2 ^ 63) :
    ((i128 x < i128 y ↔ x < y) ∧ (i128 y < i128 x ↔ y < x)) ↔ KeepsSide x y ∧ KeepsSide y x := by
  obtain ⟨hfits, hsame⟩ := i128_of_small hy
  obtain ⟨hlow, hhigh⟩ := abs_le.mp hy
  have hother : KeepsSide y x := .inl hfits
  rw [hsame, and_iff_left hother]
  by_cases hx : Int128Fits x
  · rw [i128_of_lt hx.1 hx.2]
    exact iff_of_true ⟨Iff.rfl, Iff.rfl⟩ (.inl hx)
  · unfold KeepsSide
    rw [or_iff_right hx]
    unfold Int128Fits at hx
    generalize i128 x = cut
    constructor
    · rintro ⟨hless, hmore⟩
      omega
    · intro hside
      omega

theorem cmp_eq_sign_iff_order :
    cmp a b = ((sign (a.toRat - b.toRat) : SignType) : ℤ) ↔
      (i128 (a.unitsAt (max a.scale b.scale)) < i128 (b.unitsAt (max a.scale b.scale)) ↔
          a.unitsAt (max a.scale b.scale) < b.unitsAt (max a.scale b.scale)) ∧
        (i128 (b.unitsAt (max a.scale b.scale)) < i128 (a.unitsAt (max a.scale b.scale)) ↔
          b.unitsAt (max a.scale b.scale) < a.unitsAt (max a.scale b.scale)) := by
  have hvalue : a.toRat - b.toRat =
      ((a.unitsAt (max a.scale b.scale) - b.unitsAt (max a.scale b.scale) : Int) : ℚ) *
        (10 : ℚ) ^ (-max a.scale b.scale) := by
    rw [toRat_eq_unitsAt a (le_max_left _ _), toRat_eq_unitsAt b (le_max_right _ _)]
    push_cast
    ring
  have hsign : sign (a.toRat - b.toRat) =
      sign (a.unitsAt (max a.scale b.scale) - b.unitsAt (max a.scale b.scale)) := by
    rw [hvalue, sign_mul, sign_pos (pow10_pos _), mul_one, sign_intCast]
  rw [hsign]
  unfold cmp
  dsimp only
  rw [alignUnitsI128_eq_i128, alignUnitsI128_eq_i128]
  generalize a.unitsAt (max a.scale b.scale) = x
  generalize b.unitsAt (max a.scale b.scale) = y
  rcases lt_trichotomy x y with hlt | rfl | hgt
  · rw [sign_neg (by omega), coe_neg_one]
    have hnot : ¬ y < x := by omega
    split_ifs with hless hmore
    · simp [hless, hlt, hnot, hless.le]
    · simp [hless, hlt]
    · simp [hless, hlt]
  · simp
  · rw [sign_pos (by omega), coe_one]
    have hnot : ¬ x < y := by omega
    split_ifs with hless hmore
    · simp [hless, hnot]
    · simp [hless, hmore, hgt, hnot]
    · simp [hmore, hgt]

theorem cmp_eq_sign_iff :
    cmp a b = ((sign (a.toRat - b.toRat) : SignType) : ℤ) ↔ Comparable a b := by
  rw [cmp_eq_sign_iff_order]
  rcases le_total a.scale b.scale with hle | hle
  · refine order_iff_keepsSide ?_
    rw [max_eq_right hle, unitsAt_self]
    exact abs_units_le b
  · rw [and_comm, Comparable, and_comm (a := KeepsSide _ _)]
    refine order_iff_keepsSide ?_
    rw [max_eq_left hle, unitsAt_self]
    exact abs_units_le a

theorem Comparable.cmp_nonpos_iff (h : Comparable a b) : cmp a b ≤ 0 ↔ a.toRat ≤ b.toRat := by
  have hcast : ∀ sign : SignType, (sign : Int) ≤ 0 ↔ sign ≤ 0 := by decide
  rw [cmp_eq_sign_iff.mpr h, hcast, sign_nonpos_iff, sub_nonpos]

theorem Comparable.cmp_nonneg_iff (h : Comparable a b) : cmp a b ≥ 0 ↔ b.toRat ≤ a.toRat := by
  have hcast : ∀ sign : SignType, (sign : Int) ≥ 0 ↔ 0 ≤ sign := by decide
  rw [cmp_eq_sign_iff.mpr h, hcast, sign_nonneg_iff, sub_nonneg]

theorem Comparable.cmp_neg_iff (h : Comparable a b) : cmp a b < 0 ↔ a.toRat < b.toRat := by
  rw [← not_le, ← not_le (a := b.toRat), ← h.cmp_nonneg_iff]

theorem Comparable.cmp_eq_zero_iff (h : Comparable a b) : cmp a b = 0 ↔ a.toRat = b.toRat := by
  have hge : 0 ≤ cmp a b ↔ b.toRat ≤ a.toRat := h.cmp_nonneg_iff
  rw [le_antisymm_iff, h.cmp_nonpos_iff, hge, le_antisymm_iff]

theorem comparable_of_scales (h : |a.scale - b.scale| ≤ 19) : Comparable a b := by
  obtain ⟨hlow, hhigh⟩ := abs_le.mp h
  have hfits : ∀ d : Decimal, max a.scale b.scale - d.scale ≤ 19 →
      Int128Fits (d.unitsAt (max a.scale b.scale)) := by
    intro d hd
    have hpow : (10 : Int) ^ (max a.scale b.scale - d.scale).toNat ≤ 10 ^ 19 :=
      pow_le_pow_right₀ (by norm_num) (by omega)
    have hbound : |d.unitsAt (max a.scale b.scale)| ≤ 2 ^ 63 * 10 ^ 19 := by
      unfold unitsAt
      rw [abs_mul, abs_of_pos (show (0 : Int) < 10 ^ _ by positivity)]
      exact mul_le_mul d.abs_units_le hpow (by positivity) (by positivity)
    obtain ⟨hmin, hmax⟩ := abs_le.mp hbound
    exact ⟨by omega, by omega⟩
  exact ⟨.inl (hfits a (by omega)), .inl (hfits b (by omega))⟩

/-- `Decimal::cmp` is the sign of the difference exactly for comparable decimals, and where
all decimals are comparable it is a total preorder with its minimum and maximum. -/
theorem cmp_is_order_iff (a b : Decimal) :
    (cmp a b = ((SignType.sign (a.toRat - b.toRat) : SignType) : ℤ) ↔ Comparable a b) ∧
    ∀ S : Set Decimal, (∀ a ∈ S, ∀ b ∈ S, Comparable a b) →
      (∀ a ∈ S, ∀ b ∈ S, cmp a b ≤ 0 ∨ cmp b a ≤ 0) ∧
      (∀ a ∈ S, ∀ b ∈ S, ∀ c ∈ S, cmp a b ≤ 0 → cmp b c ≤ 0 → cmp a c ≤ 0) ∧
      ∀ a ∈ S, ∀ b ∈ S, (Decimal.min a b).toRat = min a.toRat b.toRat ∧
        (Decimal.max a b).toRat = max a.toRat b.toRat := by
  refine ⟨cmp_eq_sign_iff, fun S hS => ⟨fun a ha b hb => ?_,
    fun a ha b hb c hc hab hbc => ?_, fun a ha b hb => ⟨?_, ?_⟩⟩⟩
  · rw [(hS a ha b hb).cmp_nonpos_iff, (hS b hb a ha).cmp_nonpos_iff]
    exact le_total _ _
  · rw [(hS a ha b hb).cmp_nonpos_iff] at hab
    rw [(hS b hb c hc).cmp_nonpos_iff] at hbc
    rw [(hS a ha c hc).cmp_nonpos_iff]
    exact hab.trans hbc
  · have hiff := (hS a ha b hb).cmp_nonpos_iff
    unfold Decimal.min
    split_ifs with hcmp
    · exact (min_eq_left (hiff.mp hcmp)).symm
    · exact (min_eq_right (not_le.mp (hcmp ∘ hiff.mpr)).le).symm
  · have hiff := (hS a ha b hb).cmp_nonneg_iff
    unfold Decimal.max
    split_ifs with hcmp
    · exact (max_eq_left (hiff.mp hcmp)).symm
    · exact (max_eq_right (not_le.mp (hcmp ∘ hiff.mpr)).le).symm

/-- A price and a size at different scales. -/
theorem cmp_of_two_scales :
    cmp (of 15 1) (of 2 0) = ((SignType.sign ((of 15 1).toRat - (of 2 0).toRat) : SignType) : ℤ) :=
  (cmp_is_order_iff (of 15 1) (of 2 0)).1.mpr (by decide +kernel)

/-- The product of three times `10^(-13)` is compared above one. -/
theorem product_above_one :
    (mul (mul (of 1 13) (of 1 13)) (of 1 13)).scale = 39 ∧
    ¬ ∀ a b : Decimal, 0 ≤ a.scale → 0 ≤ b.scale →
      cmp a b = ((SignType.sign (a.toRat - b.toRat) : SignType) : ℤ) := by
  refine ⟨by decide +kernel, fun h => ?_⟩
  have hcmp := h (of 1 0) (mul (mul (of 1 13) (of 1 13)) (of 1 13)) (by decide) (by decide +kernel)
  have hwrong : cmp (of 1 0) (mul (mul (of 1 13) (of 1 13)) (of 1 13)) = -1 := by decide +kernel
  have hvalue : 0 < (of 1 0).toRat - (mul (mul (of 1 13) (of 1 13)) (of 1 13)).toRat := by
    decide +kernel
  rw [hwrong, sign_pos hvalue] at hcmp
  exact absurd hcmp (by decide)

end Order

end Decimal
end Common
end ContExchange
