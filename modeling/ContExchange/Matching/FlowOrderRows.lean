import ContExchange.Common.DecimalSums
import ContExchange.Matching.FlowOrderRepository

/-!
# Matching: what the database keeps of an order

Facts about the rows of `flow_orders` for the modules that follow an order
through the database:

* a NUMERIC column gives back the decimal that was written (`parsePgNumeric_toPgNumeric`),
  and a decimal that was read is written as it was (`toPgNumeric_of_parse`);
* `loads_of_load`: what the loader makes of a row;
* `addFill_spec`: the update of a row adds the delta, up to `q_max`;
* `lookup_updateFilledVolumes`: the update of the rows changes the row of an
  order by the delta of that order alone.
-/

namespace ContExchange
namespace Matching

open Common Lib AList Decimal List Option

section Numeric

theorem stripZeros_value (n : Nat) (z : Int) :
    (stripZeros n z).2 ≤ n ∧ (stripZeros n z).1 * 10 ^ (n - (stripZeros n z).2) = z := by
  induction n generalizing z with
  | zero => simp [stripZeros]
  | succ n ih =>
      by_cases hz : z % 10 = 0
      · obtain ⟨hle, hval⟩ := ih (z / 10)
        have hstep : stripZeros (n + 1) z = stripZeros n (z / 10) := by
          simp [stripZeros, hz]
        rw [hstep]
        refine ⟨by omega, ?_⟩
        rw [Nat.succ_sub hle, pow_succ, ← mul_assoc, hval]
        omega
      · have hstep : stripZeros (n + 1) z = (z, n + 1) := by
          simp [stripZeros, hz]
        rw [hstep]
        simp

theorem stripZeros_mul_pow (n k : Nat) (u : Int) :
    stripZeros (n + k) (u * 10 ^ k) = stripZeros n u := by
  induction k with
  | zero => simp
  | succ k ih =>
      have hsplit : u * 10 ^ (k + 1) = u * 10 ^ k * 10 := by ring
      have hmod : u * 10 ^ (k + 1) % 10 = 0 := by omega
      have hdiv : u * 10 ^ (k + 1) / 10 = u * 10 ^ k := by omega
      rw [← Nat.add_assoc, stripZeros, if_pos hmod, hdiv, ih]

theorem llround_intCast (z : Int) : llround (z : ℚ) = z := by
  unfold llround
  split
  · rw [Int.floor_eq_iff]
    constructor <;> linarith
  · have hfloor : ⌊-(z : ℚ) + 1 / 2⌋ = -z := by
      rw [Int.floor_eq_iff]
      push_cast
      constructor <;> linarith
    omega

theorem llround_le {x : ℚ} {z : Int} (h : x ≤ z) : llround x ≤ z := by
  unfold llround
  split
  · rw [← Int.lt_add_one_iff, Int.floor_lt]
    push_cast
    linarith
  · rw [neg_le, Int.le_floor]
    push_cast
    linarith

theorem le_llround {x : ℚ} {z : Int} (h : z ≤ x) : z ≤ llround x := by
  unfold llround
  split
  · rw [Int.le_floor]
    linarith
  · rw [le_neg, ← Int.lt_add_one_iff, Int.floor_lt]
    push_cast
    linarith

variable {d : Decimal}

theorem units_eq_sign (d : Decimal) :
    (d.units : ℚ) = if d.units < 0 then -(d.units.natAbs : ℚ) else d.units.natAbs := by
  rw [Nat.cast_natAbs]
  split_ifs with hneg
  · rw [abs_of_neg hneg, Int.cast_neg, neg_neg]
  · rw [abs_of_nonneg (not_lt.mp hneg)]

theorem printedValue_of_scale (h : Decimal.OfScale 18 d) : printedValue d = d.toRat := by
  obtain ⟨hpos, hle⟩ := h
  have hpower : pow10I d.scale = 10 ^ d.scale.toNat := pow10I_of_le hle
  have hten : (10 : ℚ) ^ (-d.scale) = ((10 : ℚ) ^ d.scale.toNat)⁻¹ := by
    rw [zpow_neg, ← zpow_natCast, Int.toNat_of_nonneg hpos]
  have hplaces : (0 : Int) < 10 ^ d.scale.toNat := by positivity
  have hvalue : ((d.units.natAbs / 10 ^ d.scale.toNat : Nat) : ℚ) +
      (d.units.natAbs % 10 ^ d.scale.toNat : Nat) * ((10 : ℚ) ^ d.scale.toNat)⁻¹ =
        d.units.natAbs * ((10 : ℚ) ^ d.scale.toNat)⁻¹ := by
    conv_rhs => rw [← Nat.div_add_mod d.units.natAbs (10 ^ d.scale.toNat)]
    push_cast
    field_simp
  unfold printedValue Decimal.toRat
  rw [hpower, Int.natAbs_pow, units_eq_sign, max_eq_left hpos, hten]
  simp only [not_lt.mpr hplaces.le, false_and, or_false]
  rw [show (10 : Int).natAbs = 10 from rfl, hvalue]
  split_ifs
  · rw [neg_mul]
  · rfl

theorem toPgNumeric_units (h : Decimal.OfScale 18 d) : (toPgNumeric d).units = d.unitsAt 18 := by
  have hval : printedValue d * 10 ^ 18 = ((d.unitsAt 18 : Int) : ℚ) := by
    rw [printedValue_of_scale h, toRat_eq_unitsAt d h.2, mul_assoc]
    norm_num
  unfold toPgNumeric
  rw [hval, llround_intCast]

theorem toPgNumeric_toRat (h : Decimal.OfScale 18 d) : (toPgNumeric d).toRat = d.toRat := by
  unfold PgNumeric.toRat
  rw [toPgNumeric_units h, toRat_eq_unitsAt d h.2, div_eq_mul_inv]
  norm_num

variable {z : PgNumeric}

theorem parsePgNumeric_eq_some (h : parsePgNumeric z = some d) :
    d.units = (stripZeros 18 z.units).1 ∧ d.scale = (stripZeros 18 z.units).2 := by
  unfold parsePgNumeric at h
  dsimp only at h
  split at h
  · cases h
    exact ⟨rfl, rfl⟩
  · cases h

theorem ofScale_of_parse (h : parsePgNumeric z = some d) : Decimal.OfScale 18 d := by
  obtain ⟨-, hscale⟩ := parsePgNumeric_eq_some h
  have hle := (stripZeros_value 18 z.units).1
  unfold Decimal.OfScale
  omega

theorem toPgNumeric_of_parse (h : parsePgNumeric z = some d) : toPgNumeric d = z := by
  obtain ⟨hunits, hscale⟩ := parsePgNumeric_eq_some h
  obtain ⟨hle, hval⟩ := stripZeros_value 18 z.units
  have hnat : ((18 : Int) - d.scale).toNat = 18 - (stripZeros 18 z.units).2 := by omega
  have hsame : (toPgNumeric d).units = z.units := by
    rw [toPgNumeric_units (ofScale_of_parse h)]
    unfold Decimal.unitsAt
    rw [hnat, hunits, hval]
  exact congrArg PgNumeric.mk hsame

theorem toRat_of_parse (h : parsePgNumeric z = some d) : d.toRat = z.toRat := by
  rw [← toPgNumeric_toRat (ofScale_of_parse h), toPgNumeric_of_parse h]

theorem parsePgNumeric_toPgNumeric
    {places : Int} (hp : places ≤ 18) (h : Decimal.OfScale places d) :
    ∃ d', parsePgNumeric (toPgNumeric d) = some d' ∧
      d'.toRat = d.toRat ∧ Decimal.OfScale places d' := by
  have h18 : Decimal.OfScale 18 d := ⟨h.1, h.2.trans hp⟩
  have hnat : d.scale.toNat + (18 - d.scale).toNat = 18 := by
    obtain ⟨h₀, h₁⟩ := h18
    omega
  have hstrip : stripZeros 18 (toPgNumeric d).units = stripZeros d.scale.toNat d.units := by
    rw [toPgNumeric_units h18]
    unfold Decimal.unitsAt
    rw [← stripZeros_mul_pow d.scale.toNat (18 - d.scale).toNat d.units, hnat]
  obtain ⟨hle, hval⟩ := stripZeros_value d.scale.toNat d.units
  have hfits : Int64Fits (stripZeros 18 (toPgNumeric d).units).1 := by
    rw [hstrip]
    have hd := d.fits
    have hpow : (0 : Int) < 10 ^ (d.scale.toNat - (stripZeros d.scale.toNat d.units).2) := by
      positivity
    unfold Int64Fits int64Min int64Max at hd ⊢
    constructor
    · by_contra hlt
      nlinarith
    · by_contra hlt
      nlinarith
  have hparse : parsePgNumeric (toPgNumeric d) =
      some ⟨_, (stripZeros 18 (toPgNumeric d).units).2, hfits⟩ := by
    unfold parsePgNumeric
    exact dif_pos hfits
  refine ⟨_, hparse, ?_, ?_⟩
  · rw [toRat_of_parse hparse, toPgNumeric_toRat h18]
  · have hsecond := congrArg Prod.snd hstrip
    obtain ⟨h₀, h₁⟩ := h
    unfold Decimal.OfScale
    dsimp only
    omega

end Numeric

/-- The order that the loader makes of a row. -/
structure FlowOrderRow.Loads (row : FlowOrderRow) (orderId : String) (o : FlowOrder) : Prop where
  orderId_eq : o.orderId = orderId
  legs :
    ∃ legs, row.legs.mapM FlowOrderLegRow.load = some legs ∧
      o.legs = legs.insertionSort (fun a b => a.instrumentSymbol ≤ b.instrumentSymbol)
  limits :
    ∃ low high, parsePgNumeric row.pLow = some low ∧ parsePgNumeric row.pHigh = some high ∧
      (o.pLow, o.pHigh) = signedLimits (firstLegIsSell o.legs) low high
  qRate : parsePgNumeric row.qRate = some o.qRate
  qMax : parsePgNumeric row.qMax = some o.qMax
  filledCum : parsePgNumeric row.filledCum = some o.filledCum
  status : o.status = row.status
  valid : o.hasValidLegs = true ∧ o.hasValidFillState = true

theorem loads_of_load {row : FlowOrderRow} {orderId : String} {o : FlowOrder}
    (h : row.load orderId = some o) : row.Loads orderId o := by
  unfold FlowOrderRow.load at h
  simp only [bind_eq_bind, bind_eq_some_iff] at h
  obtain ⟨low, hlow, high, hhigh, qRate, hqRate, qMax, hqMax, filledCum, hfilled, legs, hlegs, h⟩ :=
    h
  split at h
  · rename_i hvalid
    cases h
    rw [Bool.and_eq_true] at hvalid
    exact ⟨rfl, ⟨legs, hlegs, rfl⟩, ⟨low, high, hlow, hhigh, rfl⟩, hqRate, hqMax, hfilled, rfl,
      hvalid⟩
  · cases h

section Fills

theorem computeFilledVolumeUpdate_spec {qMax filledCum delta : Decimal}
    (hq : ScaleOk qMax) (hf : ScaleOk filledCum) (hd : ScaleOk delta) (hnonneg : 0 ≤ delta.toRat)
    (hheld : Held (filledCum.toRat + delta.toRat)) :
    ∃ u, computeFilledVolumeUpdate qMax filledCum delta = some u ∧ ScaleOk u.newFilledCum ∧
      u.newFilledCum.toRat = min (filledCum.toRat + delta.toRat) qMax.toRat ∧
      u.newStatus =
        if qMax.toRat ≤ filledCum.toRat + delta.toRat then .filled else .partiallyFilled := by
  obtain ⟨hsum, hadd⟩ := add_of_held hf hd hheld
  have hmin : ScaleOk (Decimal.min (Decimal.add filledCum delta) qMax) :=
    min_ofScale (show OfScale 18 _ from hsum) hq
  have hval : (Decimal.min (Decimal.add filledCum delta) qMax).toRat =
      min (filledCum.toRat + delta.toRat) qMax.toRat := by
    rw [min_toRat le_rfl hsum hq, hadd]
  have hsign : ¬ Decimal.cmp delta (zeroAt delta.scale) < 0 := by
    rw [cmp_zeroAt_neg_iff]
    exact not_lt.mpr hnonneg
  unfold computeFilledVolumeUpdate
  rw [if_neg hsign]
  refine ⟨_, rfl, hmin, hval, ?_⟩
  have hfilled : Decimal.cmp (Decimal.min (Decimal.add filledCum delta) qMax) qMax ≥ 0 ↔
      qMax.toRat ≤ filledCum.toRat + delta.toRat := by
    rw [ge_iff_le, cmp_nonneg_iff hmin hq, hval]
    simp
  simp only [hfilled]

/-- A row after a fill: the volume grows by the delta, up to `q_max`. -/
structure FlowOrderRow.Filled (row : FlowOrderRow) (delta : ℚ) (row' : FlowOrderRow) : Prop where
  same : { row' with filledCum := row.filledCum, status := row.status } = row
  reads : ∃ d, parsePgNumeric row'.filledCum = some d
  filledCum : row'.filledCum.toRat = min (row.filledCum.toRat + delta) row.qMax.toRat
  status :
    row'.status =
      if row.qMax.toRat ≤ row.filledCum.toRat + delta then .filled else .partiallyFilled

theorem addFill_spec {row : FlowOrderRow} {qMax filledCum delta : Decimal}
    (hq : parsePgNumeric row.qMax = some qMax)
    (hf : parsePgNumeric row.filledCum = some filledCum) (hd : ScaleOk delta)
    (hnonneg : 0 ≤ delta.toRat) (hheld : Held (row.filledCum.toRat + delta.toRat)) :
    ∃ row', row.addFill delta = some row' ∧ row.Filled delta.toRat row' := by
  have hqval := toRat_of_parse hq
  have hfval := toRat_of_parse hf
  rw [← hfval] at hheld
  obtain ⟨u, hu, huscale, huval, hustatus⟩ :=
    computeFilledVolumeUpdate_spec (ofScale_of_parse hq) (ofScale_of_parse hf) hd hnonneg hheld
  have hrow : row.addFill delta =
      some { row with filledCum := toPgNumeric u.newFilledCum, status := u.newStatus } := by
    simp [FlowOrderRow.addFill, hq, hf, hu]
  obtain ⟨d, hd', -, -⟩ := parsePgNumeric_toPgNumeric le_rfl huscale
  refine ⟨_, hrow, rfl, ⟨d, hd'⟩, ?_, ?_⟩
  · rw [← hqval, ← hfval, ← huval]
    exact toPgNumeric_toRat huscale
  · rw [← hqval, ← hfval]
    exact hustatus

variable {rows rows' : FlowOrderRows}

theorem applyFillDelta_cases {delta : OrderFillDelta} (h : applyFillDelta rows delta = some rows') :
    delta.executedQtyDelta.toRat ≤ 0 ∧ rows' = rows ∨
      0 < delta.executedQtyDelta.toRat ∧
        ∃ row row', rows.lookup delta.orderId = some row ∧
          row.addFill delta.executedQtyDelta = some row' ∧
          rows' = rows.insert delta.orderId row' := by
  unfold applyFillDelta at h
  split at h
  · cases h
  · split at h
    · rename_i hsign
      rw [cmp_zeroAt_nonpos_iff] at hsign
      cases h
      exact .inl ⟨hsign, rfl⟩
    · rename_i hsign
      rw [cmp_zeroAt_nonpos_iff, not_le] at hsign
      cases hrow : rows.lookup delta.orderId with
      | none =>
          rw [hrow] at h
          cases h
      | some row =>
          rw [hrow] at h
          obtain ⟨row', hfill, rfl⟩ := map_eq_some_iff.mp h
          exact .inr ⟨hsign, row, row', rfl, hfill, rfl⟩

theorem lookup_updateFilledVolumes_of_ne {deltas : List OrderFillDelta} {orderId : String}
    (h : updateFilledVolumes deltas rows = some rows')
    (hne : ∀ delta ∈ deltas, delta.orderId ≠ orderId) :
    rows'.lookup orderId = rows.lookup orderId := by
  induction deltas generalizing rows with
  | nil =>
      cases h
      rfl
  | cons delta deltas ih =>
      obtain ⟨mid, hstep, hrest⟩ := bind_eq_some_iff.mp h
      rw [ih hrest (fun d hd => hne d (mem_cons_of_mem _ hd))]
      rcases applyFillDelta_cases hstep with ⟨-, rfl⟩ | ⟨-, row, row', -, -, rfl⟩
      · rfl
      · exact lookup_insert_ne (hne delta mem_cons_self).symm

theorem lookup_updateFilledVolumes {deltas : List OrderFillDelta}
    (h : updateFilledVolumes deltas rows = some rows')
    (hnodup : (deltas.map OrderFillDelta.orderId).Nodup) {delta : OrderFillDelta}
    (hmem : delta ∈ deltas) {row : FlowOrderRow} (hrow : rows.lookup delta.orderId = some row) :
    rows'.lookup delta.orderId =
      if delta.executedQtyDelta.toRat ≤ 0 then some row
      else row.addFill delta.executedQtyDelta := by
  induction deltas generalizing rows with
  | nil => cases hmem
  | cons d deltas ih =>
      obtain ⟨mid, hstep, hrest⟩ := bind_eq_some_iff.mp h
      obtain ⟨hnot, hnodup'⟩ := nodup_cons.mp hnodup
      rcases mem_cons.mp hmem with rfl | hmem'
      · have hne : ∀ d ∈ deltas, d.orderId ≠ delta.orderId := by
          intro d hd heq
          exact hnot (heq ▸ mem_map_of_mem hd)
        rw [lookup_updateFilledVolumes_of_ne hrest hne]
        rcases applyFillDelta_cases hstep with ⟨hsign, rfl⟩ | ⟨hsign, old, new, hold, hfill, rfl⟩
        · rw [if_pos hsign, hrow]
        · rw [hrow] at hold
          cases hold
          rw [if_neg (not_le.mpr hsign), lookup_insert, hfill]
      · have hne : delta.orderId ≠ d.orderId := by
          intro heq
          exact hnot (heq ▸ mem_map_of_mem hmem')
        refine ih hrest hnodup' hmem' ?_
        rcases applyFillDelta_cases hstep with ⟨-, rfl⟩ | ⟨-, old, new, -, -, rfl⟩
        · exact hrow
        · rw [lookup_insert_ne hne, hrow]

end Fills

end Matching
end ContExchange
