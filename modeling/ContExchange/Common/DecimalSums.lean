import ContExchange.Common.Rounding

/-!
# Common: sums in a loop and rounded quotients

A loop that adds decimals one by one computes their exact sum, at the finest scale seen,
while every partial sum fits 64 bits at the finest scale seen so far.  A sum that some decimal
of at most 18 places holds is not rounded, whatever its scale (`add_of_held`).

The rounding of `Decimal::div` is that of the quotient as a rational number, half away from
zero at the scale asked for.
-/

namespace ContExchange
namespace Common
namespace Decimal

open List

/-- The finest scale of the decimals, not below that of zero. -/
def finestScale (ds : List Decimal) : Int :=
  ds.foldl (fun s d => max s d.scale) 0

/-- The exact mantissa of the sum at the finest scale. -/
def sumUnits (ds : List Decimal) : Int :=
  (ds.map (fun d => d.unitsAt (finestScale ds))).sum

def sumOf (ds : List Decimal) : Decimal :=
  ⟨clampInt64 (sumUnits ds), finestScale ds, clampInt64_fits _⟩

/-- Every partial sum fits 64 bits at the finest scale seen so far. -/
def SumsFit (ds : List Decimal) : Prop :=
  ∀ part ∈ ds.inits, Int64Fits (sumUnits part)
deriving Decidable

section Sums

variable {ds : List Decimal}

theorem finestScale_concat (ds : List Decimal) (d : Decimal) :
    finestScale (ds ++ [d]) = max (finestScale ds) d.scale := by
  simp [finestScale]

variable {d : Decimal}

theorem scale_le_finestScale (h : d ∈ ds) : d.scale ≤ finestScale ds := by
  induction ds using List.reverseRecOn with
  | nil => cases h
  | append_singleton ds e ih =>
      rw [finestScale_concat]
      rcases mem_append.mp h with hmem | hlast
      · exact (ih hmem).trans (le_max_left _ _)
      · rw [mem_singleton.mp hlast]
        exact le_max_right _ _

theorem sumUnits_concat (ds : List Decimal) (d : Decimal) :
    sumUnits (ds ++ [d]) =
      sumUnits ds * 10 ^ (max (finestScale ds) d.scale - finestScale ds).toNat +
        d.unitsAt (max (finestScale ds) d.scale) := by
  have hmap : ds.map (fun e => e.unitsAt (max (finestScale ds) d.scale)) =
      ds.map (fun e => e.unitsAt (finestScale ds) *
        10 ^ (max (finestScale ds) d.scale - finestScale ds).toNat) := by
    apply map_congr_left
    intro e he
    exact unitsAt_rescale (scale_le_finestScale he) (le_max_left _ _)
  rw [sumUnits, finestScale_concat, map_append, sum_append, hmap, sum_map_mul_right,
    ← sumUnits, map_singleton, sum_singleton]

theorem SumsFit.of_concat (h : SumsFit (ds ++ [d])) : SumsFit ds := by
  intro part hpart
  rw [mem_inits] at hpart
  exact h part (mem_inits _ _ |>.mpr (hpart.trans (prefix_append ds [d])))

theorem SumsFit.whole (h : SumsFit ds) : Int64Fits (sumUnits ds) :=
  h ds (mem_inits _ _ |>.mpr prefix_rfl)

theorem add_units_eq (h : Int64Fits (sumUnits ds)) (d : Decimal) :
    (sumOf ds).unitsAt (max (finestScale ds) d.scale) +
      d.unitsAt (max (finestScale ds) d.scale) = sumUnits (ds ++ [d]) := by
  have hunits : (sumOf ds).units = sumUnits ds := clampInt64_of_fits h
  rw [sumUnits_concat, unitsAt, hunits]
  rfl

theorem SumsFit.addExact (h : SumsFit (ds ++ [d])) : AddExact (sumOf ds) d := by
  unfold AddExact
  exact (congrArg Int64Fits (add_units_eq h.of_concat.whole d)).mpr h.whole

theorem SumsFit.add_sumOf (h : SumsFit (ds ++ [d])) : add (sumOf ds) d = sumOf (ds ++ [d]) := by
  rw [add_of_exact h.addExact]
  refine eq_of_units_of_scale ?_ (finestScale_concat ds d).symm
  exact (add_units_eq h.of_concat.whole d).trans (clampInt64_of_fits h.whole).symm

theorem foldl_add_eq_sumOf (h : SumsFit ds) : ds.foldl add zero = sumOf ds := by
  induction ds using List.reverseRecOn with
  | nil => rfl
  | append_singleton ds d ih =>
      rw [foldl_append, ih h.of_concat, foldl_cons, foldl_nil]
      exact h.add_sumOf

theorem sumOf_toRat (h : Int64Fits (sumUnits ds)) : (sumOf ds).toRat = (ds.map toRat).sum := by
  have hunits : (sumOf ds).units = sumUnits ds := clampInt64_of_fits h
  have hterms : ds.map toRat =
      ds.map (fun d => (d.unitsAt (finestScale ds) : ℚ) * (10 : ℚ) ^ (-finestScale ds)) :=
    map_congr_left fun d hd => toRat_eq_unitsAt d (scale_le_finestScale hd)
  rw [hterms, sum_map_mul_right, toRat, hunits, sumUnits]
  push_cast
  rw [map_map]
  rfl

end Sums

section Differences

theorem units_pos_of_toRat {d : Decimal} (h : 0 < d.toRat) : 0 < d.units := by
  by_contra hle
  exact absurd h (not_lt.mpr ((mul_nonpos_iff.mpr
    (.inr ⟨by exact_mod_cast not_lt.mp hle, (pow10_pos _).le⟩))))

theorem sub_of_add {s x : Decimal} (h : AddExact s x) (hs : 0 ≤ s.units) (hx : 0 ≤ x.units) :
    (sub (add s x) s).toRat = x.toRat ∧ 0 ≤ (add s x).units := by
  have hsum := add_of_exact h
  have hsNonneg : 0 ≤ s.unitsAt (max s.scale x.scale) := by
    unfold unitsAt
    positivity
  have hxNonneg : 0 ≤ x.unitsAt (max s.scale x.scale) := by
    unfold unitsAt
    positivity
  have hmax : max (max s.scale x.scale) s.scale = max s.scale x.scale :=
    max_eq_left (le_max_left _ _)
  have hexact : SubExact (add s x) s := by
    have hfits := h
    unfold AddExact Int64Fits at hfits
    unfold SubExact
    rw [hsum, hmax]
    unfold unitsAt at *
    simp only [sub_self, Int.toNat_zero, pow_zero, mul_one, add_sub_cancel_left]
    unfold Int64Fits int64Min int64Max at *
    omega
  constructor
  · rw [sub_toRat hexact, add_toRat h]
    ring
  · rw [hsum]
    exact add_nonneg hsNonneg hxNonneg

theorem sub_sub_toRat {l c : Decimal} (h : SubExact l c) (hc : 0 ≤ c.units)
    (hle : c.toRat ≤ l.toRat) : (sub l (sub l c)).toRat = c.toRat := by
  have hsub := sub_of_exact h
  have hmax : max l.scale (max l.scale c.scale) = max l.scale c.scale :=
    max_eq_right (le_max_left _ _)
  have hnonneg : 0 ≤ c.unitsAt (max l.scale c.scale) := by
    unfold unitsAt
    positivity
  have hbound : c.unitsAt (max l.scale c.scale) ≤ int64Max := by
    rcases le_total l.scale c.scale with hcoarse | hfine
    · rw [max_eq_right hcoarse, unitsAt_self]
      exact c.fits.2
    · rw [max_eq_left hfine]
      refine le_trans ?_ l.fits.2
      rw [toRat_eq_unitsAt c hfine, toRat, mul_le_mul_iff_of_pos_right (pow10_pos _)] at hle
      exact_mod_cast hle
  have hexact : SubExact l (sub l c) := by
    unfold SubExact
    rw [hsub, hmax, unitsAt_self ⟨_, max l.scale c.scale, h⟩, sub_sub_cancel]
    exact ⟨le_trans (by decide) hnonneg, hbound⟩
  rw [sub_toRat hexact, sub_toRat h]
  ring

theorem add_zeroAt (d : Decimal) : AddExact (zeroAt d.scale) d ∧ add (zeroAt d.scale) d = d := by
  have hmax : max (zeroAt d.scale).scale d.scale = d.scale := max_self _
  have hunits : (zeroAt d.scale).unitsAt d.scale + d.unitsAt d.scale = d.units := by
    rw [unitsAt_self, unitsAt, zeroAt]
    simp
  have hexact : AddExact (zeroAt d.scale) d := by
    unfold AddExact
    rw [hmax, hunits]
    exact d.fits
  refine ⟨hexact, ?_⟩
  rw [add_of_exact hexact]
  refine eq_of_units_of_scale ?_ hmax
  dsimp only
  rw [hmax, hunits]

theorem sumOf_singleton {d : Decimal} (h : 0 ≤ d.scale) : sumOf [d] = d := by
  have hscale : finestScale [d] = d.scale := max_eq_right h
  have hunits : sumUnits [d] = d.units := by
    rw [sumUnits, hscale, map_singleton, sum_singleton, unitsAt_self]
  refine eq_of_units_of_scale ?_ hscale
  exact (congrArg clampInt64 hunits).trans (clampInt64_of_fits d.fits)

end Differences

section Held

/-- Some decimal of at most 18 places has this value. -/
def Held (q : ℚ) : Prop :=
  ∃ d : Decimal, ScaleOk d ∧ d.toRat = q

variable {a b : Decimal}

theorem ScaleOk.held (h : ScaleOk a) : Held a.toRat := ⟨a, h, rfl⟩

theorem held_zero : Held 0 := ⟨zero, by decide, toRat_zero⟩

/-- A mantissa that fits once its last zeros are gone loses nothing else. -/
theorem normalizeLoop_mul_pow {m : Int} (hm : Int64Fits m) (n k : Nat) (hk : k ≤ n) :
    ∃ j ≤ k, Int64Fits (m * 10 ^ j) ∧ normalizeLoop n (m * 10 ^ k) = (m * 10 ^ j, n - (k - j)) := by
  induction k generalizing n with
  | zero =>
      refine ⟨0, le_rfl, by simpa using hm, ?_⟩
      cases n with
      | zero => rfl
      | succ n => simp [normalizeLoop, hm]
  | succ k ih =>
      obtain ⟨n, rfl⟩ : ∃ n', n = n' + 1 := ⟨n - 1, by omega⟩
      by_cases hfits : Int64Fits (m * 10 ^ (k + 1))
      · exact ⟨k + 1, le_rfl, hfits, by simp [normalizeLoop, hfits]⟩
      · have hround : roundDiv10 (m * 10 ^ (k + 1)) = m * 10 ^ k := by
          rw [pow_succ, ← mul_assoc]
          unfold roundDiv10
          split <;> omega
        obtain ⟨j, hj, hfits', hloop⟩ := ih n (by omega)
        refine ⟨j, by omega, hfits', ?_⟩
        rw [normalizeLoop, if_neg hfits, hround, hloop]
        congr 1
        omega

/-- A number that some decimal holds is not rounded. -/
theorem normalizeI128_of_held {units scale : Int} (h₀ : 0 ≤ scale) (h₁ : scale ≤ 18)
    (h : Held (units * (10 : ℚ) ^ (-scale))) :
    ScaleOk (normalizeI128 units scale) ∧
      (normalizeI128 units scale).toRat = units * (10 : ℚ) ^ (-scale) := by
  obtain ⟨d, hd, hvalue⟩ := h
  rcases le_total d.scale scale with hle | hge
  · obtain ⟨k, hk⟩ := Int.eq_ofNat_of_zero_le (sub_nonneg.mpr hle)
    have hunits : units = d.units * 10 ^ k := by
      rw [toRat_eq_unitsAt d hle, mul_right_cancel_iff_of_pos (pow10_pos _)] at hvalue
      have hnat : (scale - d.scale).toNat = k := by omega
      rw [unitsAt, hnat] at hvalue
      exact_mod_cast hvalue.symm
    rcases h₀.lt_or_eq with hpos | rfl
    · obtain ⟨j, hj, hfits, hloop⟩ :=
        normalizeLoop_mul_pow d.fits scale.toNat k (by unfold ScaleOk at hd; omega)
      have hresult : normalizeI128 units scale =
          ⟨d.units * 10 ^ j, (scale.toNat - (k - j) : Nat), hfits⟩ := by
        unfold normalizeI128
        rw [if_pos hpos]
        refine eq_of_units_of_scale ?_ ?_
        · dsimp only
          rw [hunits, hloop]
          exact clampInt64_of_fits hfits
        · dsimp only
          rw [hunits, hloop]
      have hscale : ((scale.toNat - (k - j) : Nat) : Int) = d.scale + j := by
        unfold ScaleOk at hd
        omega
      rw [hresult]
      refine ⟨⟨by simp, by dsimp only; omega⟩, ?_⟩
      rw [← hvalue, toRat, toRat]
      dsimp only
      rw [hscale, neg_add, zpow_add₀ (by norm_num), zpow_neg, zpow_neg, zpow_natCast]
      push_cast
      field_simp
    · have hzero : k = 0 := by
        unfold ScaleOk at hd
        omega
      rw [normalizeI128_of_fits (by rw [hunits, hzero, pow_zero, mul_one]; exact d.fits)]
      exact ⟨⟨le_rfl, by norm_num⟩, rfl⟩
  · have hunits : d.units = units * 10 ^ (d.scale - scale).toNat := by
      rw [toRat, ← sub_eq_zero] at hvalue
      have hten : (10 : ℚ) ^ (-scale) =
          (10 : ℚ) ^ (d.scale - scale).toNat * (10 : ℚ) ^ (-d.scale) := by
        rw [← zpow_natCast, Int.toNat_of_nonneg (sub_nonneg.mpr hge), ← zpow_add₀ (by norm_num)]
        congr 1
        ring
      rw [hten, ← mul_assoc, ← sub_mul, mul_eq_zero, or_iff_left (pow10_pos _).ne',
        sub_eq_zero] at hvalue
      exact_mod_cast hvalue
    have hfits : Int64Fits units := by
      have hone : (1 : Int) ≤ 10 ^ (d.scale - scale).toNat := one_le_pow₀ (by norm_num)
      have hd' := d.fits
      rw [hunits] at hd'
      unfold Int64Fits int64Min int64Max at hd' ⊢
      constructor <;> nlinarith
    rw [normalizeI128_of_fits hfits]
    exact ⟨⟨h₀, h₁⟩, rfl⟩

theorem max_scale_ok (ha : ScaleOk a) (hb : ScaleOk b) :
    0 ≤ max a.scale b.scale ∧ max a.scale b.scale ≤ 18 :=
  ⟨ha.1.trans (le_max_left _ _), max_le ha.2 hb.2⟩

theorem add_of_held (ha : ScaleOk a) (hb : ScaleOk b) (h : Held (a.toRat + b.toRat)) :
    ScaleOk (add a b) ∧ (add a b).toRat = a.toRat + b.toRat := by
  obtain ⟨h₀, h₁⟩ := max_scale_ok ha hb
  have hua := abs_unitsAt_le ha h₁
  have hub := abs_unitsAt_le hb h₁
  rw [toRat_eq_unitsAt a (le_max_left a.scale b.scale),
    toRat_eq_unitsAt b (le_max_right a.scale b.scale), ← add_mul, ← Int.cast_add] at h ⊢
  unfold add
  simp only [alignUnitsI128_of_scaleOk ha h₁, alignUnitsI128_of_scaleOk hb h₁]
  rw [i128_of_abs_le ((abs_add_le _ _).trans ((add_le_add hua hub).trans (by norm_num)))]
  exact normalizeI128_of_held h₀ h₁ h

theorem sub_of_held (ha : ScaleOk a) (hb : ScaleOk b) (h : Held (a.toRat - b.toRat)) :
    ScaleOk (sub a b) ∧ (sub a b).toRat = a.toRat - b.toRat := by
  obtain ⟨h₀, h₁⟩ := max_scale_ok ha hb
  have hua := abs_unitsAt_le ha h₁
  have hub := abs_unitsAt_le hb h₁
  rw [toRat_eq_unitsAt a (le_max_left a.scale b.scale),
    toRat_eq_unitsAt b (le_max_right a.scale b.scale), ← sub_mul, ← Int.cast_sub] at h ⊢
  unfold sub
  simp only [alignUnitsI128_of_scaleOk ha h₁, alignUnitsI128_of_scaleOk hb h₁]
  rw [i128_of_abs_le ((abs_sub _ _).trans ((add_le_add hua hub).trans (by norm_num)))]
  exact normalizeI128_of_held h₀ h₁ h

end Held

/-- The nearest integer of a rational number, half away from zero. -/
def roundAway (q : ℚ) : Int :=
  if q < 0 then -⌊-q + 1 / 2⌋ else ⌊q + 1 / 2⌋

/-- A number rounded to so many places. -/
def roundedTo (places : Int) (q : ℚ) : ℚ :=
  roundAway (q * (10 : ℚ) ^ places) * (10 : ℚ) ^ (-places)

section Quotients

theorem roundUp_eq_floor {num den : Int} (hpos : 0 < den) :
    (if den ≤ 2 * (num % den) then num / den + 1 else num / den : Int) =
      ⌊(num : ℚ) / den + 1 / 2⌋ := by
  have hposq : (0 : ℚ) < den := by exact_mod_cast hpos
  have hdiv := Int.mul_ediv_add_emod num den
  have hlt := Int.emod_lt_of_pos num hpos
  have hnn := Int.emod_nonneg num hpos.ne'
  symm
  rw [Int.floor_eq_iff]
  have hsplit : (num : ℚ) / den + 1 / 2 = (2 * num + den : ℚ) / (2 * den) := by
    field_simp
  rw [hsplit, le_div_iff₀ (by positivity), div_lt_iff₀ (by positivity)]
  generalize num / den = q at *
  generalize num % den = r at *
  constructor <;> norm_cast <;> split <;> nlinarith

theorem abs_roundAway_sub_le (q : ℚ) :
    |(roundAway q : ℚ) - q| ≤ 1 / 2 ∧ (|(roundAway q : ℚ) - q| = 1 / 2 → |q| < |(roundAway q : ℚ)|) := by
  have hfloor : ∀ r : ℚ, 0 ≤ r → |(⌊r + 1 / 2⌋ : ℚ) - r| ≤ 1 / 2 ∧
      (|(⌊r + 1 / 2⌋ : ℚ) - r| = 1 / 2 → |r| < |(⌊r + 1 / 2⌋ : ℚ)|) := by
    intro r hr
    have hlow := Int.floor_le (r + 1 / 2)
    have hhigh := Int.lt_floor_add_one (r + 1 / 2)
    refine ⟨abs_le.mpr ⟨by linarith, by linarith⟩, fun htie => ?_⟩
    have hup : (⌊r + 1 / 2⌋ : ℚ) - r = 1 / 2 := by
      rcases (abs_eq (by norm_num)).mp htie with h | h
      · exact h
      · linarith
    rw [abs_of_nonneg hr, abs_of_nonneg (by linarith)]
    linarith
  unfold roundAway
  split_ifs with hneg
  · have hopposite := hfloor (-q) (by linarith)
    have hsame : ((-⌊-q + 1 / 2⌋ : Int) : ℚ) - q = -((⌊-q + 1 / 2⌋ : ℚ) - -q) := by
      push_cast
      ring
    rw [hsame, abs_neg, Int.cast_neg, abs_neg]
    rwa [abs_neg] at hopposite
  · exact hfloor q (not_lt.mp hneg)

theorem halfAway_eq_roundAway {num den : Int} (hden : den ≠ 0) :
    halfAway num den = roundAway ((num : ℚ) / den) := by
  have hpos : (0 : Int) < (den.natAbs : Int) := by omega
  have hfloor := @roundUp_eq_floor (num.natAbs : Int) (den.natAbs : Int) hpos
  have hnn : (0 : ℚ) ≤ ((num.natAbs : Int) : ℚ) / ((den.natAbs : Int) : ℚ) := by positivity
  rw [div_eq_sign_mul_natAbs]
  unfold halfAway roundAway
  simp only [hfloor]
  split_ifs with hsign hneg hneg
  · simp
  · have hzero : ((num.natAbs : Int) : ℚ) / ((den.natAbs : Int) : ℚ) = 0 := by linarith
    rw [hzero]
    norm_num
  · linarith
  · simp

theorem divUnits_eq_roundedTo {a b : Decimal} {places : Int} (h : DivFits a b places) :
    (divUnits a b places).toRat = roundedTo places (a.toRat / b.toRat) := by
  have hb := h.1
  have hden : divDen a b places ≠ 0 := by
    rw [divDen]
    split
    · exact hb
    · exact mul_ne_zero hb (by positivity)
  rw [divUnits_of_fits h, toRat, roundedTo, ← divNum_div_divDen hb, ← halfAway_eq_roundAway hden]

theorem divUnits_of_rounding {a b : Decimal} {places : Int} (ha : a.ScaleOk) (hb : b.ScaleOk)
    (hlow : 0 ≤ places) (hhigh : places ≤ 18) (hzero : b.units ≠ 0)
    (hfits : Int64Fits (halfAway (divNum a b places) (divDen a b places))) :
    divUnits a b places = ⟨_, places, hfits⟩ := by
  obtain ⟨ha₀, ha₁⟩ := ha
  obtain ⟨hb₀, hb₁⟩ := hb
  have haUnits := abs_le_of_int64Fits a.fits
  have hbUnits := abs_le_of_int64Fits b.fits
  have hpow : ∀ n ≤ 36, (10 : Int) ^ n ≤ 10 ^ 36 := fun n hn =>
    pow_le_pow_right₀ (by norm_num) hn
  refine divUnits_of_i128 ?_ ?_ ((hpow _ (by omega)).trans (by norm_num)) hfits
  · by_cases hk : 0 ≤ places - a.scale + b.scale
    · have hden : divDen a b places = b.units := by rw [divDen, if_pos hk]
      rw [hden] at hfits
      have hround := abs_halfAway_sub_le (divNum a b places) hzero
      generalize divNum a b places = num at hround hfits
      generalize halfAway num b.units = quotient at hround hfits
      have hquotient : |(quotient : ℚ)| ≤ 2 ^ 63 := by
        exact_mod_cast abs_le_of_int64Fits hfits
      have hdivisor : |(b.units : ℚ)| ≤ 2 ^ 63 := by exact_mod_cast hbUnits
      have hratio : |(num : ℚ) / b.units| ≤ 2 ^ 63 + 1 / 2 := by
        rw [abs_sub_comm] at hround
        linarith [abs_sub_abs_le_abs_sub ((num : ℚ) / b.units) quotient]
      have hnum : |(num : ℚ)| < 2 ^ 127 := by
        rw [abs_div, div_le_iff₀ (abs_pos.mpr (by exact_mod_cast hzero))] at hratio
        nlinarith
      have hnum' : |num| < 2 ^ 127 := by exact_mod_cast hnum
      obtain ⟨hnegative, hpositive⟩ := abs_lt.mp hnum'
      exact i128_of_lt hnegative.le hpositive
    · rw [divNum, if_neg hk]
      exact i128_of_abs_le (haUnits.trans (by norm_num))
  · rw [divDen]
    split_ifs with hk
    · exact i128_of_abs_le (hbUnits.trans (by norm_num))
    · refine i128_of_abs_le ?_
      have hten : (10 : Int) ^ (-(places - a.scale + b.scale)).toNat ≤ 10 ^ 18 :=
        pow_le_pow_right₀ (by norm_num) (by omega)
      rw [abs_mul, abs_of_pos (show (0 : Int) < 10 ^ _ by positivity)]
      calc |b.units| * 10 ^ (-(places - a.scale + b.scale)).toNat
          ≤ 2 ^ 63 * 10 ^ 18 := mul_le_mul hbUnits hten (by positivity) (by norm_num)
        _ ≤ 2 ^ 126 := by norm_num

/-- `Decimal::div` throws for a divisor of zero alone, and a quotient that fits is the nearest
one, away from zero when two are equally near. -/
theorem div_rounded {a b : Decimal} {places : Int} (ha : a.ScaleOk) (hb : b.ScaleOk)
    (hlow : 0 ≤ places) (hhigh : places ≤ 18) :
    (div a b places = none ↔ b.toRat = 0) ∧
      (b.toRat ≠ 0 → Int64Fits (roundAway (a.toRat / b.toRat * (10 : ℚ) ^ places)) →
        ∃ d, div a b places = some d ∧ d.scale = places ∧
          d.toRat = roundedTo places (a.toRat / b.toRat) ∧
          |d.toRat - a.toRat / b.toRat| ≤ 1 / 2 * (10 : ℚ) ^ (-places) ∧
          (|d.toRat - a.toRat / b.toRat| = 1 / 2 * (10 : ℚ) ^ (-places) →
            |a.toRat / b.toRat| < |d.toRat|)) := by
  rw [Ne, toRat_eq_zero_iff]
  refine ⟨by simp [div], fun hzero hfits => ?_⟩
  have hden : divDen a b places ≠ 0 := by
    rw [divDen]
    split
    · exact hzero
    · exact mul_ne_zero hzero (by positivity)
  have hrounded := @halfAway_eq_roundAway (divNum a b places) _ hden
  rw [divNum_div_divDen hzero] at hrounded
  have hunits := divUnits_of_rounding ha hb hlow hhigh hzero (hrounded ▸ hfits)
  have hvalue : (divUnits a b places).toRat = roundedTo places (a.toRat / b.toRat) := by
    rw [hunits, roundedTo]
    exact congrArg (fun n : Int => (n : ℚ) * (10 : ℚ) ^ (-places)) hrounded
  have hpos := pow10_pos (-places)
  have hscale : ∀ q : ℚ, |q * (10 : ℚ) ^ (-places)| = |q| * (10 : ℚ) ^ (-places) := fun q => by
    rw [abs_mul, abs_of_pos hpos]
  have hcancel : (10 : ℚ) ^ places * (10 : ℚ) ^ (-places) = 1 := by
    rw [← zpow_add₀ (by norm_num), add_neg_cancel, zpow_zero]
  obtain ⟨hnear, htie⟩ := abs_roundAway_sub_le (a.toRat / b.toRat * (10 : ℚ) ^ places)
  have herror : |(divUnits a b places).toRat - a.toRat / b.toRat| =
      |(roundAway (a.toRat / b.toRat * (10 : ℚ) ^ places) : ℚ) -
        a.toRat / b.toRat * (10 : ℚ) ^ places| * (10 : ℚ) ^ (-places) := by
    rw [hvalue, roundedTo, ← hscale, sub_mul, mul_assoc _ _ ((10 : ℚ) ^ (-places)), hcancel,
      mul_one]
  refine ⟨divUnits a b places, by rw [div, if_neg hzero], by rw [hunits], hvalue, ?_, ?_⟩
  · rw [herror]
    exact mul_le_mul_of_nonneg_right hnear hpos.le
  · intro hhalf
    rw [herror] at hhalf
    have haway := mul_lt_mul_of_pos_right (htie (mul_right_cancel₀ hpos.ne' hhalf)) hpos
    rwa [← hscale, ← hscale, mul_assoc, hcancel, mul_one, ← roundedTo, ← hvalue] at haway

/-- A tie goes away from zero. -/
theorem eighth_rounded : ∃ d, div (of (-1) 0) (of 8 0) 2 = some d ∧ d.scale = 2 ∧
    d.toRat = roundedTo 2 ((of (-1) 0).toRat / (of 8 0).toRat) :=
  let ⟨d, hd, hscale, hvalue, _⟩ := (@div_rounded (of (-1) 0) (of 8 0) 2 (by decide)
    (by decide) (by decide) (by decide)).2 (by decide +kernel) (by decide +kernel)
  ⟨d, hd, hscale, hvalue⟩

end Quotients

end Decimal
end Common
end ContExchange
