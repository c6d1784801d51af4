import ContExchange.Common.Double
import Mathlib.Algebra.Order.Field.Power
import Mathlib.Tactic.Positivity

/-!
# Common: what rounding to a double changes

* `Double.binaryExponent_spec`: the leading binary digit of a positive number;
* `Double.roundHalfEven_eq`: the integer that is nearer than a half;
* `Double.ofRat_spec`: half of the last of 53 binary digits is the most that is lost;
* `Double.ofRat_int`: integers of 53 binary digits are kept, shifted or not.
-/

namespace ContExchange
namespace Common
namespace Double

open Int

section Exponent

variable {q : ℚ}

theorem num_div_den_of_pos (hq : 0 < q) : q = (q.num.natAbs : ℚ) / q.den := by
  have hnum : (q.num.natAbs : Int) = q.num := natAbs_of_nonneg (Rat.num_nonneg.mpr hq.le)
  have hcast : (q.num.natAbs : ℚ) = q.num := by
    rw [← cast_natCast, hnum]
  rw [hcast, Rat.num_div_den]

theorem binaryExponent_spec (hq : 0 < q) :
    (2 : ℚ) ^ binaryExponent q ≤ q ∧ q < (2 : ℚ) ^ (binaryExponent q + 1) := by
  have hnum : q.num.natAbs ≠ 0 := natAbs_ne_zero.mpr (Rat.num_ne_zero.mpr hq.ne')
  have hden : q.den ≠ 0 := q.den_nz
  set a := q.num.natAbs.log2 with ha
  set b := q.den.log2 with hb
  have hnumLow : ((2 : ℚ) ^ a) ≤ q.num.natAbs := by
    exact_mod_cast Nat.log2_self_le hnum
  have hnumHigh : (q.num.natAbs : ℚ) < (2 : ℚ) ^ (a + 1) := by
    exact_mod_cast Nat.lt_log2_self
  have hdenLow : ((2 : ℚ) ^ b) ≤ q.den := by
    exact_mod_cast Nat.log2_self_le hden
  have hdenHigh : (q.den : ℚ) < (2 : ℚ) ^ (b + 1) := by
    exact_mod_cast Nat.lt_log2_self
  have hdenPos : (0 : ℚ) < q.den := by exact_mod_cast Nat.pos_of_ne_zero hden
  have hform := num_div_den_of_pos hq
  have hlow : (2 : ℚ) ^ ((a : Int) - b - 1) ≤ q := by
    have hsplit : (2 : ℚ) ^ ((a : Int) - b - 1) = 2 ^ a / 2 ^ (b + 1) := by
      rw [show (a : Int) - b - 1 = (a : Int) - ((b + 1 : Nat) : Int) by push_cast; ring,
        zpow_sub₀ two_ne_zero, zpow_natCast, zpow_natCast]
    rw [hsplit, hform]
    exact div_le_div₀ (by positivity) hnumLow hdenPos hdenHigh.le
  have hhigh : q < (2 : ℚ) ^ ((a : Int) - b + 1) := by
    have hsplit : (2 : ℚ) ^ ((a : Int) - b + 1) = 2 ^ (a + 1) / 2 ^ b := by
      rw [show (a : Int) - b + 1 = ((a + 1 : Nat) : Int) - b by push_cast; ring,
        zpow_sub₀ two_ne_zero, zpow_natCast, zpow_natCast]
    rw [hsplit, hform]
    exact div_lt_div₀ hnumHigh hdenLow (by positivity) (by positivity)
  unfold binaryExponent
  dsimp only
  rw [← ha, ← hb]
  split_ifs with hle
  · exact ⟨hle, hhigh⟩
  · exact ⟨hlow, by rw [sub_add_cancel]; exact not_le.mp hle⟩

end Exponent

section NearestInteger

variable {q : ℚ} {n : Int}

theorem abs_roundHalfEven_sub_le (q : ℚ) : |(roundHalfEven q : ℚ) - q| ≤ 1 / 2 := by
  have hlow := floor_le q
  have hhigh := lt_floor_add_one q
  unfold roundHalfEven
  dsimp only
  rw [abs_le]
  split_ifs with hless hmore heven
  · constructor <;> linarith
  · push_cast
    constructor <;> linarith
  · constructor <;> linarith
  · push_cast
    constructor <;> linarith

theorem roundHalfEven_eq (h : |q - n| < 1 / 2) : roundHalfEven q = n := by
  have hround := abs_roundHalfEven_sub_le q
  rw [abs_lt] at h
  rw [abs_le] at hround
  have hlow : ((n - 1 : Int) : ℚ) < roundHalfEven q := by
    push_cast
    linarith
  have hhigh : ((roundHalfEven q : Int) : ℚ) < (n + 1 : Int) := by
    push_cast
    linarith
  have := cast_lt.mp hlow
  have := cast_lt.mp hhigh
  omega

@[simp] theorem roundHalfEven_intCast (n : Int) : roundHalfEven n = n :=
  roundHalfEven_eq (by simp)

end NearestInteger

section Nearest

variable {q : ℚ}

theorem ofRat_eq (hq : q ≠ 0) {lastPlace : Int}
    (hplace : lastPlace = max (binaryExponent |q| - 52) (-1074)) {v : ℚ}
    (hv : v = (roundHalfEven (|q| / (2 : ℚ) ^ lastPlace) : ℚ) * (2 : ℚ) ^ lastPlace)
    (hfits : v < (2 : ℚ) ^ (1024 : Int)) : ofRat q = .num (if q < 0 then -v else v) := by
  subst hplace hv
  unfold ofRat
  rw [if_neg hq]
  dsimp only
  rw [if_neg (not_le.mpr hfits)]

theorem ofRat_spec (hlow : (2 : ℚ) ^ (-1022 : Int) ≤ |q|) (hhigh : |q| < (2 : ℚ) ^ (1023 : Int)) :
    ∃ v, ofRat q = .num v ∧ |v - q| ≤ |q| * (2 : ℚ) ^ (-53 : Int) := by
  have htwo : (1 : ℚ) < 2 := one_lt_two
  have hpos : 0 < |q| := lt_of_lt_of_le (by positivity) hlow
  have hq : q ≠ 0 := abs_pos.mp hpos
  obtain ⟨hexpLow, hexpHigh⟩ := binaryExponent_spec hpos
  have hplace : binaryExponent |q| - 52 = max (binaryExponent |q| - 52) (-1074) := by
    have : (-1022 : Int) < binaryExponent |q| + 1 :=
      (zpow_lt_zpow_iff_right₀ htwo).mp (hlow.trans_lt hexpHigh)
    omega
  set place := (2 : ℚ) ^ (binaryExponent |q| - 52) with hplaceEq
  have hplacePos : 0 < place := by positivity
  set v := (roundHalfEven (|q| / place) : ℚ) * place with hv
  have hhalf : abs (v - |q|) ≤ place / 2 := by
    have hround := abs_roundHalfEven_sub_le (|q| / place)
    have hform : v - |q| = ((roundHalfEven (|q| / place) : ℚ) - |q| / place) * place := by
      rw [sub_mul, div_mul_cancel₀ _ hplacePos.ne']
    rw [hform, abs_mul, abs_of_pos hplacePos]
    calc _ ≤ 1 / 2 * place := mul_le_mul_of_nonneg_right hround hplacePos.le
      _ = place / 2 := by ring
  have hplaceLe : place / 2 ≤ |q| * (2 : ℚ) ^ (-53 : Int) := by
    have hsplit : place / 2 = (2 : ℚ) ^ binaryExponent |q| * (2 : ℚ) ^ (-53 : Int) := by
      rw [hplaceEq, zpow_sub₀ two_ne_zero]
      norm_num
      ring
    rw [hsplit]
    exact mul_le_mul_of_nonneg_right hexpLow (by positivity)
  have hbound : abs (v - |q|) ≤ |q| * (2 : ℚ) ^ (-53 : Int) := hhalf.trans hplaceLe
  have hfits : v < (2 : ℚ) ^ (1024 : Int) := by
    have hle := (abs_le.mp hbound).2
    have htop : (2 : ℚ) ^ (1024 : Int) = 2 ^ (1023 : Int) * 2 := by
      rw [← zpow_add_one₀ two_ne_zero]
      norm_num
    have hone : (2 : ℚ) ^ (-53 : Int) ≤ 1 := zpow_le_one_of_nonpos₀ htwo.le (by norm_num)
    rw [htop]
    nlinarith
  refine ⟨_, ofRat_eq hq hplace hv hfits, ?_⟩
  split_ifs with hneg
  · rw [abs_of_neg hneg] at hbound ⊢
    rwa [← abs_neg, neg_sub, sub_neg_eq_add, add_comm, ← sub_neg_eq_add]
  · rwa [abs_of_nonneg (not_lt.mp hneg)] at hbound ⊢

/-- A number with at most 53 binary digits is kept. -/
theorem ofRat_zpow {n j : Int} (hn : n.natAbs ≤ 2 ^ 53) (hlow : -1000 ≤ j) (hhigh : j ≤ 900) :
    ofRat (n * 2 ^ j) = .num (n * 2 ^ j) := by
  have htwo : (1 : ℚ) < 2 := one_lt_two
  rcases eq_or_ne n 0 with rfl | hne
  · simp [ofRat]
  have hpow : (0 : ℚ) < 2 ^ j := by positivity
  have hq : (n : ℚ) * 2 ^ j ≠ 0 := mul_ne_zero (by exact_mod_cast hne) hpow.ne'
  have habs : |(n : ℚ) * 2 ^ j| = n.natAbs * 2 ^ j := by
    rw [abs_mul, abs_of_pos hpow, ← cast_abs, abs_eq_natAbs, cast_natCast]
  have hnat : (n.natAbs : ℚ) ≤ 2 ^ 53 := by exact_mod_cast hn
  obtain ⟨hexpLow, -⟩ := binaryExponent_spec (abs_pos.mpr hq)
  set exponent := binaryExponent |(n : ℚ) * 2 ^ j| with hexponent
  have hexp : exponent ≤ 53 + j := by
    have : (2 : ℚ) ^ exponent ≤ 2 ^ ((53 : Int) + j) := by
      rw [zpow_add₀ two_ne_zero]
      refine hexpLow.trans ?_
      rw [habs]
      exact mul_le_mul_of_nonneg_right (by exact_mod_cast hnat) hpow.le
    exact (zpow_le_zpow_iff_right₀ htwo).mp this
  set lastPlace := max (exponent - 52) (-1074) with hplace
  -- the last place that is kept divides the number
  obtain ⟨i, hi⟩ : ∃ i : Int, |(n : ℚ) * 2 ^ j| = i * (2 : ℚ) ^ lastPlace := by
    rcases lt_or_eq_of_le hexp with hlt | heq
    · obtain ⟨k, hk⟩ := eq_ofNat_of_zero_le (show 0 ≤ j - lastPlace by omega)
      refine ⟨(n.natAbs : Int) * 2 ^ k, ?_⟩
      rw [habs, cast_mul, cast_natCast, cast_pow, cast_ofNat, mul_assoc,
        ← zpow_natCast (2 : ℚ) k, ← hk, ← zpow_add₀ two_ne_zero, sub_add_cancel]
    · have hlast : lastPlace = j + 1 := by omega
      have hfull : (n.natAbs : ℚ) = 2 ^ 53 := by
        refine le_antisymm hnat ?_
        rw [heq, habs, zpow_add₀ two_ne_zero] at hexpLow
        exact_mod_cast le_of_mul_le_mul_right hexpLow hpow
      refine ⟨2 ^ 52, ?_⟩
      rw [habs, hfull, hlast, zpow_add₀ two_ne_zero]
      norm_num
      ring
  have hpos : (0 : ℚ) < (2 : ℚ) ^ lastPlace := by positivity
  have hround : |(n : ℚ) * 2 ^ j| =
      (roundHalfEven (|(n : ℚ) * 2 ^ j| / (2 : ℚ) ^ lastPlace) : ℚ) * (2 : ℚ) ^ lastPlace := by
    rw [hi, mul_div_cancel_right₀ _ hpos.ne', roundHalfEven_intCast]
  have hfits : |(n : ℚ) * 2 ^ j| < (2 : ℚ) ^ (1024 : Int) := by
    rw [habs]
    calc (n.natAbs : ℚ) * 2 ^ j ≤ 2 ^ 53 * 2 ^ j := mul_le_mul_of_nonneg_right hnat hpow.le
      _ = (2 : ℚ) ^ ((53 : Int) + j) := by
          rw [zpow_add₀ two_ne_zero]
          norm_num
      _ < (2 : ℚ) ^ (1024 : Int) := zpow_lt_zpow_right₀ htwo (by omega)
  rw [ofRat_eq hq hplace hround hfits]
  split_ifs with hneg
  · rw [abs_of_neg hneg, neg_neg]
  · rw [abs_of_nonneg (not_lt.mp hneg)]

theorem ofRat_shifted {n : Int} {j : Nat} (hn : n.natAbs ≤ 2 ^ 53) (hj : j ≤ 900) :
    ofRat (n * 2 ^ j) = .num (n * 2 ^ j) := by
  simpa using ofRat_zpow (j := j) hn (by omega) (by omega)

theorem ofRat_int {n : Int} (hn : n.natAbs ≤ 2 ^ 53) : ofRat n = .num n := by
  simpa using ofRat_shifted (j := 0) hn (by norm_num)

end Nearest

end Double
end Common
end ContExchange
