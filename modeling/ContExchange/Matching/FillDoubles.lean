import ContExchange.Common.DoubleError
import ContExchange.Matching.Fills

/-!
# Matching: fills in doubles

`AddFill` gets a quantity and a price in doubles.  Both, and their product, become decimals of
twelve places by a product that is rounded to a double and by `llround`.

* `addFillOfDoubles`: the fill that is appended;
* `le_of_toDecimalOfDouble`, `toDecimalOfDouble_le`: half of the last place and a relative
  error are the most that a decimal differs from its double;
* `notional_le_of_doubles`: what the notional of a fill is at most, by its quantity and price.
-/

namespace ContExchange
namespace Matching

open Common

/-- `ToDecimal`: what does not fit 64 bits, or is not a number, is what `llround` returns there,
the smallest mantissa. -/
def toDecimalOfDouble (dbl : Double) : Decimal :=
  match dbl.mul (.num (10 ^ 12)) with
  | .num q =>
      if h : Int64Fits (llround q) then ⟨llround q, 12, h⟩
      else ⟨int64Min, 12, int64Fits_int64Min⟩
  | .nan | .inf _ => ⟨int64Min, 12, int64Fits_int64Min⟩

/-- `AddFill` with a quantity and a price: nothing for a dust quantity. -/
def addFillOfDoubles (a : FillArgs) (qty price : Double) : Option FlowFill :=
  if qty.le (.ofRat kQtyEps) then none
  else
    some
      { fillOf a with
        executedQty := toDecimalOfDouble qty
        price := some (toDecimalOfDouble price)
        executedNotional := toDecimalOfDouble (qty.mul price) }

/-- The relative error of a rounding, for numbers that are not tiny. -/
def relError : ℚ :=
  3 / 2 ^ 54

section Rounding

variable {x v : ℚ}

theorem ofRat_pos_error (hx : 0 < x) (hv : Double.ofRat x = .num v) :
    0 ≤ v ∧ |v - x| ≤ x / 2 ^ 53 + Double.halfTiny := by
  rw [← Double.magnitude_of_ofRat hx hv]
  exact ⟨Double.magnitude_nonneg hx, Double.magnitude_error hx⟩

theorem ofRat_relError (hx : 1 / 10 ^ 30 ≤ x) (hv : Double.ofRat x = .num v) :
    0 ≤ v ∧ |v - x| ≤ x * relError := by
  have hpos : 0 < x := lt_of_lt_of_le (by norm_num) hx
  obtain ⟨hnonneg, herror⟩ := ofRat_pos_error hpos hv
  have htiny : Double.halfTiny ≤ x / 2 ^ 54 := by
    refine Double.halfTiny_le.trans ?_
    rw [le_div_iff₀ (by positivity)]
    exact le_trans (by norm_num) hx
  refine ⟨hnonneg, herror.trans ?_⟩
  unfold relError
  linarith

theorem llround_eq_zero (hnonneg : 0 ≤ v) (hv : v < 1 / 2) : llround v = 0 := by
  unfold llround
  rw [if_pos hnonneg, Int.floor_eq_zero_iff]
  constructor <;> linarith

theorem llround_nonpos (hv : v ≤ 0) : llround v ≤ 0 := by
  unfold llround
  split
  · rename_i hnonneg
    obtain rfl := le_antisymm hv hnonneg
    norm_num
  · have hfloor : 0 ≤ ⌊-v + 1 / 2⌋ := Int.floor_nonneg.mpr (by linarith)
    omega

/-- Rounding to a double first adds a relative error. -/
theorem llround_ofRat_error (hx : 0 ≤ x) (hv : Double.ofRat x = .num v) :
    |(llround v : ℚ) - x| ≤ 1 / 2 + x * relError := by
  have hrel : 0 < relError := by norm_num [relError]
  rcases lt_or_ge x (1 / 4) with hsmall | hlarge
  · have hzero : llround v = 0 := by
      rcases hx.eq_or_lt with rfl | hpos
      · cases hv
        decide +kernel
      · obtain ⟨hnonneg, herror⟩ := ofRat_pos_error hpos hv
        have htiny := Double.halfTiny_le
        have hv' := (abs_le.mp herror).2
        refine llround_eq_zero hnonneg ?_
        linarith
    have hprod := mul_nonneg hx hrel.le
    rw [hzero, Int.cast_zero, zero_sub, abs_neg, abs_of_nonneg hx]
    linarith
  · obtain ⟨-, herror⟩ := ofRat_relError (le_trans (by norm_num) hlarge) hv
    have hround := llround_error v
    calc |(llround v : ℚ) - x| = |((llround v : ℚ) - v) + (v - x)| := by ring_nf
      _ ≤ |(llround v : ℚ) - v| + |v - x| := abs_add_le _ _
      _ ≤ 1 / 2 + x * relError := add_le_add hround herror

end Rounding

section Decimals

variable {dbl : Double} {x bound : ℚ}

theorem toDecimalOfDouble_cases (dbl : Double) :
    (toDecimalOfDouble dbl).toRat = int64Min / 10 ^ 12 ∨
      ∃ x v, dbl = .num x ∧ Double.ofRat (x * 10 ^ 12) = .num v ∧
        (toDecimalOfDouble dbl).toRat = llround v / 10 ^ 12 := by
  have htwelve : ∀ {units : Int} (h : Int64Fits units),
      (⟨units, 12, h⟩ : Decimal).toRat = units / 10 ^ 12 := by
    intro units h
    unfold Decimal.toRat
    rw [zpow_neg, div_eq_mul_inv]
    norm_num
  unfold toDecimalOfDouble
  split
  · rename_i v hv
    split
    · right
      obtain ⟨x, rfl⟩ : ∃ x, dbl = .num x := by
        cases dbl with
        | num x => exact ⟨x, rfl⟩
        | nan => cases hv
        | inf negative =>
            change (if (10 : ℚ) ^ 12 = 0 then Double.nan else _) = _ at hv
            rw [if_neg (by norm_num)] at hv
            cases hv
      exact ⟨x, v, rfl, hv, htwelve _⟩
    · exact .inl (htwelve _)
  · exact .inl (htwelve _)
  · exact .inl (htwelve _)

/-- A decimal that is not negative is a number, and not much below it. -/
theorem le_of_toDecimalOfDouble (h : 0 ≤ (toDecimalOfDouble dbl).toRat) :
    ∃ x, dbl = .num x ∧
      x * (1 - relError) ≤ (toDecimalOfDouble dbl).toRat + 1 / 2 * kQtyEps := by
  rcases toDecimalOfDouble_cases dbl with hmin | ⟨x, v, rfl, hv, hvalue⟩
  · rw [hmin] at h
    exact absurd h (by norm_num [int64Min])
  · refine ⟨x, rfl, ?_⟩
    rcases lt_or_ge x 0 with hneg | hnonneg
    · have hrel : relError < 1 := by norm_num [relError]
      have hprod := mul_nonpos_of_nonpos_of_nonneg hneg.le (sub_nonneg.mpr hrel.le)
      have heps := kQtyEps_pos
      linarith
    · have herror := (abs_le.mp (llround_ofRat_error (mul_nonneg hnonneg (by norm_num)) hv)).1
      rw [hvalue, kQtyEps]
      have hround : x * 10 ^ 12 * (1 - relError) ≤ llround v + 1 / 2 := by linarith
      rw [mul_one_div, ← add_div, le_div_iff₀ (by norm_num)]
      linarith

/-- A decimal is not much above its number. -/
theorem toDecimalOfDouble_le (hbound : 0 ≤ bound) (h : ∀ x, dbl = .num x → x ≤ bound) :
    (toDecimalOfDouble dbl).toRat ≤ bound * (1 + relError) + 1 / 2 * kQtyEps := by
  have heps := kQtyEps_pos
  have hrel : 0 < relError := by norm_num [relError]
  have hpos : 0 ≤ bound * (1 + relError) := mul_nonneg hbound (by linarith)
  rcases toDecimalOfDouble_cases dbl with hmin | ⟨x, v, rfl, hv, hvalue⟩
  · rw [hmin]
    exact le_trans (by norm_num [int64Min]) (add_nonneg hpos (by linarith))
  · have hle := h x rfl
    rcases lt_or_ge x 0 with hneg | hnonneg
    · have hround : llround v ≤ 0 := by
        have hopposite := Double.ofRat_neg hv
        have hx := ofRat_pos_error (by linarith) hopposite
        exact llround_nonpos (by linarith [hx.1])
      have hround' : (llround v : ℚ) ≤ 0 := by exact_mod_cast hround
      rw [hvalue]
      exact (div_nonpos_of_nonpos_of_nonneg hround' (by norm_num)).trans
        (add_nonneg hpos (by linarith))
    · have herror := (abs_le.mp (llround_ofRat_error (mul_nonneg hnonneg (by norm_num)) hv)).2
      have hmono := mul_le_mul_of_nonneg_right hle (show 0 ≤ 1 + relError by linarith)
      have hround : (llround v : ℚ) ≤ (x * (1 + relError) + 1 / 2 * kQtyEps) * 10 ^ 12 := by
        rw [kQtyEps]
        linarith
      rw [hvalue, div_le_iff₀ (by norm_num)]
      exact hround.trans (mul_le_mul_of_nonneg_right (by linarith) (by norm_num))

theorem toDecimalOfDouble_nonpos (hx : 0 ≤ x) (hsmall : x ≤ 1 / 10 ^ 14) :
    (toDecimalOfDouble (.num x)).toRat ≤ 0 := by
  rcases toDecimalOfDouble_cases (.num x) with hmin | ⟨x', v, hx', hv, hvalue⟩
  · rw [hmin]
    norm_num [int64Min]
  · cases hx'
    have herror := (abs_le.mp (llround_ofRat_error (mul_nonneg hx (by norm_num)) hv)).2
    have hone : (llround v : ℚ) < 1 := by
      have hrel : relError ≤ 1 := by norm_num [relError]
      have hten : x * 10 ^ 12 ≤ 1 / 100 := by linarith
      have hprod := mul_le_mul hten hrel (by norm_num [relError]) (by norm_num)
      linarith
    have hzero : llround v ≤ 0 := by
      have : llround v < 1 := by exact_mod_cast hone
      omega
    have hzero' : (llround v : ℚ) ≤ 0 := by exact_mod_cast hzero
    rw [hvalue]
    exact div_nonpos_of_nonpos_of_nonneg hzero' (by norm_num)

/-- Nothing is left of a number far below the last place. -/
theorem toDecimalOfDouble_ofRat_le (hx : x < 1 / 10 ^ 15) :
    (toDecimalOfDouble (.ofRat x)).toRat ≤ 1 / 2 * kQtyEps := by
  have heps := kQtyEps_pos
  rcases le_or_gt x 0 with hneg | hpos
  · have hbelow : ∀ y, Double.ofRat x = .num y → y ≤ 0 := by
      intro y hy
      rcases hneg.eq_or_lt with rfl | hneg
      · cases hy
        exact le_rfl
      · have hnonneg := (ofRat_pos_error (neg_pos.mpr hneg) (Double.ofRat_neg hy)).1
        linarith
    have hle := toDecimalOfDouble_le le_rfl hbelow
    linarith
  · obtain ⟨v, hv, hnonneg, herror⟩ := Double.ofRat_nonneg hpos.le
      (le_trans (show x ≤ 2 ^ 200 by linarith) (Double.le_huge le_rfl))
    have hupper := (abs_le.mp herror).2
    have htiny := Double.halfTiny_le
    rw [hv]
    exact (toDecimalOfDouble_nonpos hnonneg (by linarith)).trans (by linarith)

end Decimals

section Notional

variable {a : FillArgs} {qty price : Double} {fill : FlowFill} {high : ℚ} {priceOfFill : Decimal}

theorem addFillOfDoubles_eq (h : addFillOfDoubles a qty price = some fill) :
    fill.executedQty = toDecimalOfDouble qty ∧ fill.price = some (toDecimalOfDouble price) ∧
      fill.executedNotional = toDecimalOfDouble (qty.mul price) := by
  unfold addFillOfDoubles at h
  split_ifs at h
  cases h
  exact ⟨rfl, rfl, rfl⟩

/-- Dust is not filled. -/
theorem pos_of_addFillOfDoubles {q : ℚ} (h : addFillOfDoubles a (.num q) price = some fill) :
    0 < q := by
  obtain ⟨e, he, hnonneg, -⟩ := Double.ofRat_nonneg kQtyEps_pos.le
    (le_trans (show kQtyEps ≤ 2 ^ 200 by norm_num [kQtyEps]) (Double.le_huge le_rfl))
  unfold addFillOfDoubles at h
  rw [he] at h
  split_ifs at h with hdust
  rw [Double.le_num, not_le] at hdust
  exact hnonneg.trans_lt hdust

/-- The notional of a fill is not much above what its quantity costs at the highest price. -/
theorem notional_le_of_doubles (h : addFillOfDoubles a qty price = some fill)
    (hqty : 0 ≤ fill.executedQty.toRat) (hprice : fill.price = some priceOfFill)
    (hnonneg : 0 ≤ priceOfFill.toRat) (hlimit : priceOfFill.toRat ≤ high) :
    fill.executedNotional.toRat ≤
      (fill.executedQty.toRat + 1 / 2 * kQtyEps) * (high + 1 / 2 * kQtyEps) *
        (1 + 1 / 2 ^ 50) + 1 / 2 * kQtyEps := by
  obtain ⟨hqtyEq, hpriceEq, hnotional⟩ := addFillOfDoubles_eq h
  obtain rfl := Option.some.inj (hprice.symm.trans hpriceEq)
  rw [hqtyEq] at hqty ⊢
  obtain ⟨q, rfl, hq⟩ := le_of_toDecimalOfDouble hqty
  obtain ⟨p, rfl, hp⟩ := le_of_toDecimalOfDouble hnonneg
  have heps := kQtyEps_pos
  have hqPos := pos_of_addFillOfDoubles h
  have hpos : 0 < 1 - relError := by norm_num [relError]
  set A := (toDecimalOfDouble (.num q)).toRat + 1 / 2 * kQtyEps with hA
  set B := high + 1 / 2 * kQtyEps with hB
  have hANonneg : 0 ≤ A := by linarith
  have hBNonneg : 0 ≤ B := by linarith
  have hAB := mul_nonneg hANonneg hBNonneg
  have hproduct : q * p * (1 - relError) ^ 2 ≤ A * B := by
    rcases le_or_gt p 0 with hneg | hpPos
    · have hle := mul_nonpos_of_nonneg_of_nonpos hqPos.le hneg
      exact (mul_nonpos_of_nonpos_of_nonneg hle (sq_nonneg _)).trans hAB
    · calc q * p * (1 - relError) ^ 2 = q * (1 - relError) * (p * (1 - relError)) := by ring
        _ ≤ A * B := mul_le_mul hq (by linarith) (mul_nonneg hpPos.le hpos.le) hANonneg
  have hfactor : (1 + relError) * (1 + relError) ≤ (1 - relError) ^ 2 * (1 + 1 / 2 ^ 50) := by
    norm_num [relError]
  rw [hnotional]
  change (toDecimalOfDouble (.ofRat (q * p))).toRat ≤ _
  rcases lt_or_ge (q * p) (1 / 10 ^ 15) with hsmall | hlarge
  · have hnonpos := toDecimalOfDouble_ofRat_le hsmall
    have hrest := mul_nonneg hAB (show (0 : ℚ) ≤ 1 + 1 / 2 ^ 50 by norm_num)
    linarith
  · have hbound : 0 ≤ A * B * (1 + relError) / (1 - relError) ^ 2 :=
      div_nonneg (mul_nonneg hAB (by norm_num [relError])) (sq_nonneg _)
    refine (toDecimalOfDouble_le hbound fun y hy => ?_).trans ?_
    · have hupper := (abs_le.mp (ofRat_relError (le_trans (by norm_num) hlarge) hy).2).2
      rw [le_div_iff₀ (by positivity)]
      calc y * (1 - relError) ^ 2 ≤ q * p * (1 + relError) * (1 - relError) ^ 2 :=
            mul_le_mul_of_nonneg_right (by linarith) (sq_nonneg _)
        _ = q * p * (1 - relError) ^ 2 * (1 + relError) := by ring
        _ ≤ A * B * (1 + relError) :=
            mul_le_mul_of_nonneg_right hproduct (by norm_num [relError])
    · rw [div_mul_eq_mul_div]
      refine add_le_add_left ((div_le_iff₀ (by positivity)).mpr ?_) _
      calc A * B * (1 + relError) * (1 + relError) = A * B * ((1 + relError) * (1 + relError)) := by
            ring
        _ ≤ A * B * ((1 - relError) ^ 2 * (1 + 1 / 2 ^ 50)) :=
            mul_le_mul_of_nonneg_left hfactor hAB
        _ = A * B * (1 + 1 / 2 ^ 50) * (1 - relError) ^ 2 := by ring

end Notional

end Matching
end ContExchange
