import ContExchange.Matching.FlowOrderRows

/-!
# Matching: what a NUMERIC column keeps

Which decimals come back from a NUMERIC column with the value that was written
(`column_exact_iff`), and which do so after they were negated (`column_negates_iff`).
-/

namespace ContExchange
namespace Matching

open Common Decimal

/-- The column keeps the value: the text is exact, and has no digit after the eighteenth
place. -/
def ColumnExact (d : Decimal) : Prop :=
  TextExact d ∧ (10 : Int) ^ (d.scale - 18).toNat ∣ d.units
deriving Decidable

section Columns

variable {d : Decimal}

theorem printedValue_of_textExact (h : TextExact d) : printedValue d = d.toRat := by
  rcases h with hzero | ⟨hpos, -, hle | hlt⟩
  · simp [printedValue, Decimal.toRat, hzero]
  · exact printedValue_of_scale ⟨hpos, hle⟩
  · rw [Int.abs_eq_natAbs, Int.abs_eq_natAbs, Nat.cast_lt] at hlt
    unfold printedValue Decimal.toRat
    rw [Nat.div_eq_of_lt hlt, Nat.mod_eq_of_lt hlt, max_eq_left hpos, units_eq_sign]
    simp only [ne_eq, not_true_eq_false, and_false, or_false, Nat.cast_zero, zero_add]
    split_ifs
    · rw [neg_mul]
    · rfl

theorem exists_ofScale_of_columnExact (h : ColumnExact d) :
    ∃ d₀ j, Decimal.OfScale 18 d₀ ∧ d.units = d₀.units * 10 ^ j ∧
      printedValue d₀ = printedValue d ∧ d₀.toRat = d.toRat := by
  obtain ⟨htext, hdvd⟩ := h
  have hprinted := printedValue_of_textExact htext
  rcases htext with hzero | ⟨hscale, -⟩
  · have hnone : Decimal.zero.toRat = d.toRat := by simp [Decimal.toRat, Decimal.zero, hzero]
    refine ⟨.zero, 0, by decide, by simp [hzero, Decimal.zero], ?_, hnone⟩
    rw [hprinted, printedValue_of_scale (by decide), hnone]
  · by_cases hle : d.scale ≤ 18
    · exact ⟨d, 0, ⟨hscale, hle⟩, by simp, rfl, rfl⟩
    · obtain ⟨q, hq⟩ := hdvd
      have hpow : (0 : Int) < 10 ^ (d.scale - 18).toNat := by positivity
      have hfits : Int64Fits q := by
        have hd := d.fits
        unfold Int64Fits int64Min int64Max at hd ⊢
        rw [hq] at hd
        constructor <;> nlinarith
      have hval : ((⟨q, 18, hfits⟩ : Decimal)).toRat = d.toRat := by
        have hsplit : (10 : ℚ) ^ (-(18 : Int)) =
            10 ^ (d.scale - 18).toNat * (10 : ℚ) ^ (-d.scale) := by
          rw [← zpow_natCast, ← zpow_add₀ (by norm_num)]
          congr 1
          omega
        unfold Decimal.toRat
        rw [hsplit, hq]
        push_cast
        ring
      refine ⟨⟨q, 18, hfits⟩, (d.scale - 18).toNat, ⟨by simp, le_rfl⟩, ?_, ?_, hval⟩
      · rw [hq, mul_comm]
      · rw [printedValue_of_scale ⟨by simp, le_rfl⟩, hprinted, hval]

theorem toPgNumeric_congr {d d₀ : Decimal} (h : printedValue d₀ = printedValue d) :
    toPgNumeric d₀ = toPgNumeric d := by
  unfold toPgNumeric
  rw [h]

theorem toRat_eq_units (z : PgNumeric) : z.toRat = z.units * (10 : ℚ) ^ (-(18 : Int)) := by
  unfold PgNumeric.toRat
  rw [zpow_neg, div_eq_mul_inv]
  norm_num

theorem stored_of_neg_scale (h : d.scale < 0) : (toPgNumeric d).toRat = d.units := by
  have hone : pow10I d.scale = 1 := by
    rw [pow10I_of_le (by omega), Int.toNat_of_nonpos h.le, pow_zero]
  have hprinted : printedValue d = d.units := by
    unfold printedValue
    rw [hone, units_eq_sign, Int.natAbs_one, Nat.div_one, Nat.mod_one]
    simp
  unfold PgNumeric.toRat toPgNumeric
  dsimp only
  rw [hprinted, show (d.units : ℚ) * 10 ^ 18 = ((d.units * 10 ^ 18 : Int) : ℚ) by push_cast; rfl,
    llround_intCast]
  push_cast
  exact mul_div_cancel_right₀ _ (by norm_num)

/-- A power of ten that has overflowed leaves a whole part in front of the point. -/
theorem one_le_stored (h : d.units.natAbs / (pow10I d.scale).natAbs ≠ 0) :
    1 ≤ |(toPgNumeric d).toRat| := by
  have hprinted : 1 ≤ |printedValue d| := by
    have hwhole : (1 : ℚ) ≤ (d.units.natAbs / (pow10I d.scale).natAbs : Nat) := by
      exact_mod_cast Nat.one_le_iff_ne_zero.mpr h
    have hfraction : (0 : ℚ) ≤ (d.units.natAbs % (pow10I d.scale).natAbs : Nat) *
        (10 : ℚ) ^ (-max d.scale 0) := by positivity
    unfold printedValue
    dsimp only
    split_ifs
    · rw [abs_neg]
      exact (le_add_of_le_of_nonneg hwhole hfraction).trans (le_abs_self _)
    · exact (le_add_of_le_of_nonneg hwhole hfraction).trans (le_abs_self _)
  unfold PgNumeric.toRat toPgNumeric
  rw [abs_div, abs_of_pos (by norm_num : (0 : ℚ) < 10 ^ 18), one_le_div (by norm_num)]
  rcases le_abs'.mp hprinted with hneg | hpos
  · have hle : llround (printedValue d * 10 ^ 18) ≤ -10 ^ 18 := llround_le (by push_cast; linarith)
    have hcast : ((llround (printedValue d * 10 ^ 18) : Int) : ℚ) ≤ -10 ^ 18 := by
      exact_mod_cast hle
    exact le_abs'.mpr (.inl hcast)
  · have hle : 10 ^ 18 ≤ llround (printedValue d * 10 ^ 18) := le_llround (by push_cast; linarith)
    exact le_abs'.mpr (.inr (by exact_mod_cast hle))

theorem ten_le_pow {n : Int} (h : 0 < n) : (10 : ℚ) ≤ 10 ^ n := by
  calc (10 : ℚ) = 10 ^ (1 : Int) := by norm_num
    _ ≤ 10 ^ n := zpow_le_zpow_right₀ (by norm_num) (by omega)

theorem columnExact_of_toRat (hprints : Prints d) (h : (toPgNumeric d).toRat = d.toRat) :
    ColumnExact d := by
  by_cases hzero : d.units = 0
  · exact ⟨.inl hzero, hzero ▸ dvd_zero _⟩
  · by_cases hscale : 0 ≤ d.scale
    · refine ⟨.inr ⟨hscale, hprints.2.1, ?_⟩, ?_⟩
      · by_contra hwrapped
        obtain ⟨hlarge, hpower⟩ := not_or.mp hwrapped
        rw [Int.abs_eq_natAbs, Int.abs_eq_natAbs, Nat.cast_lt] at hpower
        have hone := one_le_stored (d := d) (Nat.div_ne_zero_iff.mpr
          ⟨Int.natAbs_ne_zero.mpr hprints.1, not_lt.mp hpower⟩)
        rw [h] at hone
        exact absurd (abs_toRat_lt_one (not_le.mp hlarge)) (not_lt.mpr hone)
      by_cases hle : d.scale ≤ 18
      · have hnone : (d.scale - 18).toNat = 0 := by omega
        rw [hnone, pow_zero]
        exact one_dvd _
      · refine ⟨(toPgNumeric d).units, ?_⟩
        have hsplit : (10 : ℚ) ^ (d.scale - 18).toNat * (10 : ℚ) ^ (-d.scale) =
            (10 : ℚ) ^ (-(18 : Int)) := by
          rw [← zpow_natCast, ← zpow_add₀ (by norm_num)]
          congr 1
          omega
        have hcast : (d.units : ℚ) * (10 : ℚ) ^ (-d.scale) =
            10 ^ (d.scale - 18).toNat * (toPgNumeric d).units * (10 : ℚ) ^ (-d.scale) := by
          calc (d.units : ℚ) * (10 : ℚ) ^ (-d.scale) = (toPgNumeric d).toRat := h.symm
            _ = (toPgNumeric d).units * (10 : ℚ) ^ (-(18 : Int)) := toRat_eq_units _
            _ = _ := by rw [← hsplit]; ring
        have hunits := mul_right_cancel₀ (pow10_pos (-d.scale)).ne' hcast
        exact_mod_cast hunits
    · exfalso
      rw [stored_of_neg_scale (not_le.mp hscale)] at h
      have hten := ten_le_pow (show 0 < -d.scale by omega)
      have hne : (d.units : ℚ) ≠ 0 := by exact_mod_cast hzero
      have hone : (10 : ℚ) ^ (-d.scale) = 1 := mul_left_cancel₀ hne (by rw [mul_one]; exact h.symm)
      linarith

theorem column_exact_iff (hprints : Prints d) :
    (∃ d', parsePgNumeric (toPgNumeric d) = some d' ∧ d'.toRat = d.toRat) ↔ ColumnExact d := by
  constructor
  · rintro ⟨d', hparse, hval⟩
    apply columnExact_of_toRat hprints
    rw [← hval, toRat_of_parse hparse]
  · intro h
    obtain ⟨d₀, j, hscale, -, hprinted, hval⟩ := exists_ofScale_of_columnExact h
    obtain ⟨d', hparse, hval', -⟩ := parsePgNumeric_toPgNumeric le_rfl hscale
    rw [toPgNumeric_congr hprinted] at hparse
    exact ⟨d', hparse, hval'.trans hval⟩

variable {m : Decimal}

theorem exists_pow_of_parse (h : ColumnExact d) (hparse : parsePgNumeric (toPgNumeric d) = some m) :
    ∃ k : Nat, d.units = m.units * 10 ^ k := by
  obtain ⟨d₀, j, hscale, hunits, hprinted, -⟩ := exists_ofScale_of_columnExact h
  have hself : Decimal.OfScale d₀.scale d₀ := ⟨hscale.1, le_rfl⟩
  obtain ⟨m', hparse', hval, hle⟩ := parsePgNumeric_toPgNumeric hscale.2 hself
  rw [toPgNumeric_congr hprinted, hparse] at hparse'
  cases hparse'
  have hsame := toRat_eq_unitsAt m hle.2
  rw [hval, toRat_eq_unitsAt d₀ le_rfl] at hsame
  have hcast := mul_right_cancel₀ (pow10_pos (-d₀.scale)).ne' hsame
  rw [unitsAt_self] at hcast
  have hread : d₀.units = m.unitsAt d₀.scale := by exact_mod_cast hcast
  refine ⟨(d₀.scale - m.scale).toNat + j, ?_⟩
  rw [hunits, hread, Decimal.unitsAt, mul_assoc, ← pow_add]

theorem units_ne_of_exact (h : ColumnExact d) (hmin : d.units ≠ int64Min)
    (hparse : parsePgNumeric (toPgNumeric d) = some m) : m.units ≠ int64Min := by
  obtain ⟨k, hk⟩ := exists_pow_of_parse h hparse
  have hfits := d.fits
  have hpow : (1 : Int) ≤ 10 ^ k := one_le_pow₀ (by norm_num)
  intro hm
  rw [hm] at hk
  unfold Int64Fits at hfits
  unfold int64Min at *
  omega

theorem sub_zero_toRat (hm : Decimal.OfScale 18 m) (h : m.units ≠ int64Min) :
    (Decimal.sub .zero m).toRat = -m.toRat := by
  have hexact : Decimal.SubExact .zero m := by
    have hfits := m.fits
    have hmax : max Decimal.zero.scale m.scale = m.scale := max_eq_right hm.1
    have hzero : Decimal.zero.unitsAt m.scale = 0 := zero_mul _
    unfold Decimal.SubExact
    rw [hmax, unitsAt_self, hzero]
    unfold Int64Fits int64Min int64Max at *
    omega
  rw [sub_toRat hexact, toRat_zero, zero_sub]

theorem sub_zero_int64Min_succ {n : Nat} (hn : n < 18) :
    Decimal.sub .zero ⟨int64Min, (n : Int) + 1, by decide⟩ =
      ⟨922337203685477581, n, by decide⟩ := by
  interval_cases n <;> decide

theorem sub_zero_int64Min (hm : Decimal.OfScale 18 m) (h : m.units = int64Min) :
    Decimal.OfScale 18 (Decimal.sub .zero m) ∧
      (Decimal.sub .zero m).units ≠ int64Min ∧
      (Decimal.sub .zero m).toRat ≠ -m.toRat ∧
      (Decimal.sub .zero m).toRat < 10 * -m.toRat ∧ 1 ≤ (Decimal.sub .zero m).toRat := by
  obtain ⟨units, scale, fits⟩ := m
  obtain ⟨hlo, hhi⟩ := hm
  dsimp only at hlo hhi h
  subst h
  obtain ⟨s, rfl⟩ := Int.eq_ofNat_of_zero_le hlo
  cases s with
  | zero =>
      have hsub : Decimal.sub .zero ⟨int64Min, ((0 : Nat) : Int), by decide⟩ =
          ⟨int64Max, 0, by decide⟩ := by decide
      rw [hsub]
      refine ⟨by decide, by decide, ?_, ?_, ?_⟩ <;> norm_num [Decimal.toRat, int64Max, int64Min]
  | succ n =>
      have hn : n < 18 := by omega
      have hsub := sub_zero_int64Min_succ hn
      have hp := pow10_pos (-(n : Int))
      have hsplit : (10 : ℚ) ^ (-((n : Int) + 1)) = 10 ^ (-(n : Int)) / 10 := by
        rw [neg_add, zpow_add₀ (by norm_num)]
        norm_num [div_eq_mul_inv]
      push_cast at hhi ⊢
      rw [hsub]
      have hne : (922337203685477581 : Int) ≠ int64Min := by decide
      have hone : (1 : ℚ) ≤ 922337203685477581 * 10 ^ (-(n : Int)) := by
        have hle : (10 : ℚ) ^ (-(17 : Int)) ≤ 10 ^ (-(n : Int)) :=
          zpow_le_zpow_right₀ (by norm_num) (by omega)
        calc (1 : ℚ) ≤ 922337203685477581 * 10 ^ (-(17 : Int)) := by norm_num
          _ ≤ _ := mul_le_mul_of_nonneg_left hle (by norm_num)
      refine ⟨⟨by simp, by simpa using hn.le⟩, hne, ?_, ?_, by simpa [Decimal.toRat] using hone⟩
      · intro heq
        simp only [Decimal.toRat, int64Min, hsplit] at heq
        push_cast at heq
        linarith
      · simp only [Decimal.toRat, int64Min, hsplit]
        push_cast
        linarith

theorem column_negates_iff (hprints : Prints d)
    (hparse : parsePgNumeric (toPgNumeric d) = some m) :
    (Decimal.sub .zero m).toRat = -d.toRat ↔ ColumnExact d := by
  have hm := ofScale_of_parse hparse
  have hread := toRat_of_parse hparse
  constructor
  · intro h
    by_cases hmin : m.units = int64Min
    · exfalso
      obtain ⟨hscale, hunits, hoff, hsmall, hone⟩ := sub_zero_int64Min hm hmin
      rcases lt_or_ge d.scale 0 with hneg | hpos
      · have hten := ten_le_pow (show 0 < -d.scale by omega)
        have hvalue : d.toRat = m.toRat * 10 ^ (-d.scale) := by
          rw [hread, stored_of_neg_scale hneg]
          rfl
        have hlt : m.toRat < 0 := (toRat_neg_iff m).mpr (by rw [hmin]; decide)
        rw [h, hvalue] at hsmall
        nlinarith
      rcases le_or_gt d.scale 18 with hle | hlarge
      · apply hoff
        rw [h, hread]
        set negated := (Decimal.sub .zero m).negUnits with hnegated
        have hval : negated.toRat = d.toRat := by
          rw [hnegated, negUnits_toRat hunits, h, neg_neg]
        have hscale' : Decimal.OfScale 18 negated := by
          unfold Decimal.OfScale
          rw [hnegated, negUnits_scale]
          exact hscale
        have hprinted : printedValue negated = printedValue d := by
          rw [printedValue_of_scale hscale', printedValue_of_scale ⟨hpos, hle⟩, hval]
        rw [← toPgNumeric_congr hprinted, toPgNumeric_toRat hscale', hval]
      · have hless := abs_toRat_lt_one hlarge
        rw [← abs_neg, ← h] at hless
        exact absurd (le_abs_self _) (not_le.mpr (hless.trans_le hone))
    · rw [sub_zero_toRat hm hmin, neg_inj] at h
      exact (column_exact_iff hprints).mp ⟨m, hparse, h⟩
  · intro hexact
    obtain ⟨m', hparse', hval⟩ := (column_exact_iff hprints).mpr hexact
    rw [hparse] at hparse'
    cases hparse'
    rw [sub_zero_toRat hm (units_ne_of_exact hexact hprints.2.1 hparse), hval]

end Columns

end Matching
end ContExchange
