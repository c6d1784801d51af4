import ContExchange.Common.Rounding

/-!
# Common: rounding once

`normalize_i128` drops decimal places one after the other and rounds each time.

* `abs_dropPlaces`: after `i` places the mantissa is the one that rounding at once would
  give, or one more;
* `RoundsAlike`: the dropped digits are not among those, 45 to 49 for two places, that are
  rounded up place by place and down at once;
* `rounded_once_iff`: a sum, a difference or a product is the exact value, rounded once to
  the largest scale at which it fits, exactly when this holds of the digits that are dropped,
  and when a value with an integer part that fits can be kept.
-/

namespace ContExchange
namespace Common
namespace Decimal

/-- The value of a mantissa at a scale, as an exact result has it. -/
def exactValue (units : Int) (scale : Nat) : ℚ :=
  units * (10 : ℚ) ^ (-(scale : Int))

/-- The mantissa without its last `i` places, rounded at once. -/
def roundedAt (units : Int) (i : Nat) : Int :=
  halfAway units (10 ^ i)

/-- `i` is the least number of places to be dropped so that the rounded mantissa fits. -/
def FirstFit (units : Int) (i : Nat) : Prop :=
  Int64Fits (roundedAt units i) ∧ ∀ j < i, ¬ Int64Fits (roundedAt units j)

instance (units : Int) (i : Nat) : Decidable (FirstFit units i) :=
  inferInstanceAs (Decidable (_ ∧ _))

/-- The result is the exact value where a scale can hold it, and is otherwise the value
rounded once to the largest scale at which it fits; it is not saturated while the integer
part fits. -/
structure RoundedOnce (units : Int) (scale : Nat) (result : Decimal) : Prop where
  exact : ∀ t ≤ scale, ∀ m, Int64Fits m → exactValue units scale = exactValue m t →
    result.toRat = exactValue units scale
  rounded : ∀ i ≤ scale, FirstFit units i →
    result.toRat = exactValue (roundedAt units i) (scale - i)
  kept : Int64Fits (units.tdiv (10 ^ scale)) → Int64Fits (normalizeLoop scale units).1

/-- The number with `i` fives. -/
def fives (i : Nat) : Nat :=
  5 * ((10 ^ i - 1) / 9)

/-- The last `i` digits are rounded in the same direction place by place and at once. -/
def RoundsAlike (units : Int) (i : Nat) : Prop :=
  10 ^ i ≤ units.natAbs % 10 ^ i + fives i → 10 ^ i ≤ 2 * (units.natAbs % 10 ^ i)
deriving Decidable

/-- The digits that have to be dropped are rounded alike, and a value whose integer part fits
can be kept at some scale. -/
def RoundsOnce (units : Int) (scale : Nat) : Prop :=
  (∀ i ≤ scale, FirstFit units i → RoundsAlike units i) ∧
    (Int64Fits (units.tdiv (10 ^ scale)) → ∃ i ≤ scale, Int64Fits (roundedAt units i))

instance (units : Int) (scale : Nat) : Decidable (RoundsOnce units scale) :=
  haveI : Decidable (∃ i ≤ scale, Int64Fits (roundedAt units i)) :=
    decidable_of_iff (∃ i : Fin (scale + 1), Int64Fits (roundedAt units i))
      ⟨fun ⟨i, hi⟩ => ⟨i, Nat.lt_succ_iff.mp i.isLt, hi⟩,
        fun ⟨i, hle, hi⟩ => ⟨⟨i, Nat.lt_succ_iff.mpr hle⟩, hi⟩⟩
  inferInstanceAs (Decidable (_ ∧ _))

section Places

variable {units : Int} {i : Nat}

theorem fives_succ (i : Nat) : fives (i + 1) = fives i + 5 * 10 ^ i := by
  unfold fives
  have hdvd : ∀ k : Nat, 9 ∣ 10 ^ k - 1 := fun k => by
    simpa using Nat.sub_dvd_pow_sub_pow 10 1 k
  obtain ⟨m, hm⟩ := hdvd i
  have hpos : 0 < 10 ^ i := by positivity
  rw [pow_succ, hm, show 10 ^ i * 10 - 1 = 9 * (m + 10 ^ i) by omega]
  omega

theorem fives_lt (i : Nat) : fives i < 10 ^ i := by
  induction i with
  | zero => decide
  | succ i ih =>
      rw [fives_succ, pow_succ]
      omega

theorem half_le_fives (hi : 0 < i) : 10 ^ i ≤ 2 * fives i := by
  induction i with
  | zero => cases hi
  | succ i ih =>
      rw [fives_succ, pow_succ]
      omega

/-- The places that are dropped one after the other. -/
def dropPlaces (units : Int) (i : Nat) : Int :=
  roundDiv10^[i] units

theorem natAbs_roundDiv10 (u : Int) : (roundDiv10 u).natAbs = (u.natAbs + 5) / 10 := by
  unfold roundDiv10
  split <;> omega

theorem dropPlaces_succ (units : Int) (i : Nat) :
    dropPlaces units (i + 1) = roundDiv10 (dropPlaces units i) :=
  Function.iterate_succ_apply' _ _ _

theorem natAbs_dropPlaces (units : Int) (i : Nat) :
    (dropPlaces units i).natAbs = (units.natAbs + fives i) / 10 ^ i := by
  induction i with
  | zero => simp [dropPlaces, fives]
  | succ i ih =>
      rw [dropPlaces_succ, natAbs_roundDiv10, ih, fives_succ, pow_succ, ← Nat.div_div_eq_div_mul]
      congr 1
      rw [← Nat.add_assoc, Nat.add_mul_div_right _ _ (by positivity)]

theorem dropPlaces_sign (units : Int) (i : Nat) :
    (0 ≤ units → 0 ≤ dropPlaces units i) ∧ (units ≤ 0 → dropPlaces units i ≤ 0) := by
  induction i with
  | zero => exact ⟨id, id⟩
  | succ i ih =>
      rw [dropPlaces_succ]
      exact ⟨fun h => le_roundDiv10 (by simpa using ih.1 h),
        fun h => roundDiv10_le (by simpa using ih.2 h)⟩

theorem roundedAt_eq (units : Int) (i : Nat) :
    roundedAt units i = (if units < 0 then -1 else 1) *
      ((units.natAbs / 10 ^ i +
        if 10 ^ i ≤ 2 * (units.natAbs % 10 ^ i) then 1 else 0 : Nat) : Int) := by
  have hden : ((10 : Int) ^ i).natAbs = 10 ^ i := by simp [Int.natAbs_pow]
  have hpos : ¬ (10 : Int) ^ i < 0 := not_lt.mpr (by positivity)
  unfold roundedAt halfAway
  dsimp only
  rw [hden, decide_eq_false hpos, Bool.bne_false]
  have hhalf : ((10 ^ i : Nat) : Int) ≤ 2 * ((units.natAbs : Int) % (10 ^ i : Nat)) ↔
      10 ^ i ≤ 2 * (units.natAbs % 10 ^ i) := by
    exact_mod_cast Iff.rfl
  simp only [hhalf, decide_eq_true_eq]
  split_ifs <;> push_cast <;> ring

theorem natAbs_roundedAt (units : Int) (i : Nat) :
    (roundedAt units i).natAbs =
      units.natAbs / 10 ^ i + if 10 ^ i ≤ 2 * (units.natAbs % 10 ^ i) then 1 else 0 := by
  rw [roundedAt_eq, Int.natAbs_mul, Int.natAbs_natCast]
  split_ifs <;> simp

theorem roundedAt_sign (units : Int) (i : Nat) :
    (0 ≤ units → 0 ≤ roundedAt units i) ∧ (units ≤ 0 → roundedAt units i ≤ 0) := by
  have habs := natAbs_roundedAt units i
  rw [roundedAt_eq] at habs ⊢
  constructor
  · intro h
    rw [if_neg (not_lt.mpr h), one_mul]
    exact Int.natCast_nonneg _
  · intro h
    rcases h.lt_or_eq with hneg | rfl
    · rw [if_pos hneg]
      have := Int.natCast_nonneg (units.natAbs / 10 ^ i +
        if 10 ^ i ≤ 2 * (units.natAbs % 10 ^ i) then 1 else 0)
      omega
    · have hzero : ¬ 10 ^ i ≤ 2 * (Int.natAbs 0 % 10 ^ i) := by
        have hpos : 0 < 10 ^ i := by positivity
        simp
      rw [if_neg hzero]
      simp

theorem natAbs_dropPlaces_eq (units : Int) (i : Nat) :
    (dropPlaces units i).natAbs =
      units.natAbs / 10 ^ i + if 10 ^ i ≤ units.natAbs % 10 ^ i + fives i then 1 else 0 := by
  have hpos : 0 < 10 ^ i := by positivity
  have hfives := fives_lt i
  have hmod := Nat.mod_lt units.natAbs hpos
  rw [natAbs_dropPlaces, Nat.add_div hpos, Nat.div_eq_of_lt hfives, Nat.mod_eq_of_lt hfives,
    add_zero]

theorem carries_of_half
    (h : 10 ^ i ≤ 2 * (units.natAbs % 10 ^ i)) : 10 ^ i ≤ units.natAbs % 10 ^ i + fives i := by
  rcases Nat.eq_zero_or_pos i with rfl | hi
  · simp [Nat.mod_one] at h
  · have := half_le_fives hi
    omega

theorem dropPlaces_eq_roundedAt (h : RoundsAlike units i) :
    dropPlaces units i = roundedAt units i := by
  have hiff : 10 ^ i ≤ units.natAbs % 10 ^ i + fives i ↔ 10 ^ i ≤ 2 * (units.natAbs % 10 ^ i) :=
    ⟨h, carries_of_half⟩
  have habs : (dropPlaces units i).natAbs = (roundedAt units i).natAbs := by
    rw [natAbs_dropPlaces_eq, natAbs_roundedAt]
    simp only [hiff]
  have hdrop := dropPlaces_sign units i
  have hround := roundedAt_sign units i
  omega

theorem natAbs_dropPlaces_of_not (h : ¬ RoundsAlike units i) :
    (dropPlaces units i).natAbs = (roundedAt units i).natAbs + 1 := by
  obtain ⟨hcarries, hhalf⟩ := Classical.not_imp.mp h
  rw [natAbs_dropPlaces_eq, natAbs_roundedAt, if_pos hcarries, if_neg hhalf]

theorem fits_of_natAbs_le
    {x y : Int} (hpos : 0 ≤ units → 0 ≤ x ∧ 0 ≤ y) (hneg : units ≤ 0 → x ≤ 0 ∧ y ≤ 0)
    (hle : x.natAbs ≤ y.natAbs) (hy : Int64Fits y) : Int64Fits x := by
  unfold Int64Fits int64Min int64Max at hy ⊢
  omega

theorem fits_roundedAt (h : Int64Fits (dropPlaces units i)) : Int64Fits (roundedAt units i) := by
  have hdrop := dropPlaces_sign units i
  have hround := roundedAt_sign units i
  refine fits_of_natAbs_le (fun hu => ⟨hround.1 hu, hdrop.1 hu⟩)
    (fun hu => ⟨hround.2 hu, hdrop.2 hu⟩) ?_ h
  by_cases halike : RoundsAlike units i
  · rw [dropPlaces_eq_roundedAt halike]
  · rw [natAbs_dropPlaces_of_not halike]
    omega

theorem fits_integerPart {scale : Nat} (hi : i ≤ scale) (h : Int64Fits (roundedAt units i)) :
    Int64Fits (units.tdiv (10 ^ scale)) := by
  have hround := roundedAt_sign units i
  have hpos : (0 : Int) < 10 ^ scale := by positivity
  have hneg : units ≤ 0 → units.tdiv (10 ^ scale) ≤ 0 := by
    intro hu
    have hflip := Int.tdiv_nonneg (neg_nonneg.mpr hu) hpos.le
    rw [Int.neg_tdiv] at hflip
    omega
  refine fits_of_natAbs_le (fun hu => ⟨Int.tdiv_nonneg hu hpos.le, hround.1 hu⟩)
    (fun hu => ⟨hneg hu, hround.2 hu⟩) ?_ h
  rw [Int.natAbs_tdiv, natAbs_roundedAt, Int.natAbs_pow]
  have hpow : 10 ^ i ≤ 10 ^ scale := Nat.pow_le_pow_right (by norm_num) hi
  exact (Nat.div_le_div_left hpow (by positivity)).trans (Nat.le_add_right _ _)

end Places

section Loop

variable {units : Int} {i : Nat}

theorem normalizeLoop_of_first (n : Nat) (hi : i ≤ n) (hfits : Int64Fits (dropPlaces units i))
    (hbefore : ∀ j < i, ¬ Int64Fits (dropPlaces units j)) :
    normalizeLoop n units = (dropPlaces units i, n - i) := by
  induction n generalizing units i with
  | zero =>
      obtain rfl : i = 0 := by omega
      rfl
  | succ n ih =>
      unfold normalizeLoop
      cases i with
      | zero => exact if_pos hfits
      | succ k =>
          have hfirst : ¬ Int64Fits units := hbefore 0 (Nat.succ_pos k)
          rw [if_neg hfirst]
          have hstep : ∀ j, dropPlaces units (j + 1) = dropPlaces (roundDiv10 units) j :=
            fun j => Function.iterate_succ_apply _ _ _
          rw [hstep] at hfits ⊢
          rw [ih (by omega) hfits (fun j hj => hstep j ▸ hbefore (j + 1) (by omega))]
          congr 1
          omega

theorem normalizeLoop_cases (n : Nat) (units : Int) :
    (∃ i ≤ n, Int64Fits (dropPlaces units i) ∧ (∀ j < i, ¬ Int64Fits (dropPlaces units j)) ∧
      normalizeLoop n units = (dropPlaces units i, n - i)) ∨
      (∀ i ≤ n, ¬ Int64Fits (dropPlaces units i)) ∧ ¬ Int64Fits (normalizeLoop n units).1 := by
  by_cases hex : ∃ i ≤ n, Int64Fits (dropPlaces units i)
  · classical
    obtain ⟨hle, hfits⟩ := Nat.find_spec hex
    have hbefore : ∀ j < Nat.find hex, ¬ Int64Fits (dropPlaces units j) :=
      fun j hj hfit => Nat.find_min hex hj ⟨hj.le.trans hle, hfit⟩
    exact .inl ⟨_, hle, hfits, hbefore, normalizeLoop_of_first n hle hfits hbefore⟩
  · have hnone : ∀ i ≤ n, ¬ Int64Fits (dropPlaces units i) := fun i hi hfit => hex ⟨i, hi, hfit⟩
    refine .inr ⟨hnone, ?_⟩
    clear hex
    induction n generalizing units with
    | zero => exact hnone 0 le_rfl
    | succ n ih =>
        unfold normalizeLoop
        have hfirst : ¬ Int64Fits units := hnone 0 (Nat.zero_le _)
        rw [if_neg hfirst]
        exact ih (roundDiv10 units) (fun i hi => hnone (i + 1) (by omega))

theorem normalizeI128_eq_loop (units : Int) (scale : Nat) :
    normalizeI128 units scale =
      ⟨clampInt64 (normalizeLoop scale units).1, (normalizeLoop scale units).2,
        clampInt64_fits _⟩ := by
  unfold normalizeI128
  cases scale with
  | zero => rfl
  | succ n => rw [if_pos (by omega)]; rfl

theorem exactValue_eq_iff {x y : Int} {i j : Nat} :
    exactValue x i = exactValue y j ↔ x * 10 ^ j = y * 10 ^ i := by
  unfold exactValue
  rw [le_antisymm_iff, mul_pow_le_iff, mul_pow_le_iff, ← le_antisymm_iff]

theorem roundedAt_mul (m : Int) (i : Nat) : roundedAt (m * 10 ^ i) i = m := by
  have habs := natAbs_roundedAt (m * 10 ^ i) i
  have hpos : 0 < 10 ^ i := by positivity
  have hten : (0 : Int) < 10 ^ i := by positivity
  rw [Int.natAbs_mul, Int.natAbs_pow, show (10 : Int).natAbs = 10 from rfl, Nat.mul_mod_left,
    Nat.mul_div_cancel _ hpos, if_neg (by omega), add_zero] at habs
  obtain ⟨hnonneg, hnonpos⟩ := roundedAt_sign (m * 10 ^ i) i
  rcases le_total 0 m with hm | hm
  · have := hnonneg (mul_nonneg hm hten.le)
    omega
  · have := hnonpos (mul_nonpos_of_nonpos_of_nonneg hm hten.le)
    omega

theorem exact_of_firstFit {scale t : Nat} {m : Int} (ht : t ≤ scale) (hm : Int64Fits m)
    (hvalue : exactValue units scale = exactValue m t) (hfirst : FirstFit units i) :
    exactValue (roundedAt units i) (scale - i) = exactValue units scale := by
  rw [exactValue_eq_iff] at hvalue
  obtain ⟨k, rfl⟩ := Nat.exists_eq_add_of_le ht
  have hunits : units = m * 10 ^ k := by
    have hpos : (10 : Int) ^ t ≠ 0 := by positivity
    apply mul_right_cancel₀ hpos
    rw [hvalue, pow_add]
    ring
  have hle : i ≤ k := by
    by_contra hlt
    refine hfirst.2 k (not_le.mp hlt) ?_
    rw [hunits, roundedAt_mul]
    exact hm
  obtain ⟨j, rfl⟩ := Nat.exists_eq_add_of_le hle
  have hround : roundedAt units i = m * 10 ^ j := by
    rw [hunits, pow_add, mul_comm ((10 : Int) ^ i), ← mul_assoc, roundedAt_mul]
  rw [hround, exactValue_eq_iff, hunits, show t + (i + j) - i = t + j by omega]
  ring

theorem FirstFit.unique {i j : Nat} (hi : FirstFit units i) (hj : FirstFit units j) : i = j := by
  by_contra hne
  rcases Nat.lt_or_gt_of_ne hne with hlt | hlt
  · exact hj.2 i hlt hi.1
  · exact hi.2 j hlt hj.1

theorem not_dvd_of_edge {x y : Int} (hnext : y.natAbs = x.natAbs + 1) (hx : Int64Fits x)
    (hy : ¬ Int64Fits y) : ¬ (10 : Int) ∣ x := by
  unfold Int64Fits int64Min int64Max at hx hy
  omega

theorem roundsAlike_of_rounded {scale : Nat}
    (h : RoundedOnce units scale (normalizeI128 units scale)) (hi : i ≤ scale)
    (hfirst : FirstFit units i) : RoundsAlike units i := by
  by_contra hnot
  have hbefore : ∀ j < i, ¬ Int64Fits (dropPlaces units j) :=
    fun j hj hfit => hfirst.2 j hj (fits_roundedAt hfit)
  have hnext := natAbs_dropPlaces_of_not hnot
  have hround := roundedAt_sign units i
  have hdrop := dropPlaces_sign units i
  have hvalue := h.rounded i hi hfirst
  rw [normalizeI128_eq_loop] at hvalue
  rcases normalizeLoop_cases scale units with ⟨k, hk, hfits, hfirstDrop, hloop⟩ | ⟨-, hlast⟩
  · have hik : i ≤ k := by
      by_contra hlt
      exact hbefore k (not_le.mp hlt) hfits
    have hsame : exactValue (dropPlaces units k) (scale - k) =
        exactValue (roundedAt units i) (scale - i) := by
      rw [← hvalue, hloop]
      unfold toRat exactValue
      dsimp only
      rw [clampInt64_of_fits hfits]
    rw [exactValue_eq_iff, show scale - i = (scale - k) + (k - i) by omega, pow_add,
      mul_comm ((10 : Int) ^ (scale - k)), ← mul_assoc] at hsame
    have hscaled : dropPlaces units k * 10 ^ (k - i) = roundedAt units i :=
      mul_right_cancel₀ (by positivity) hsame
    rcases hik.lt_or_eq with hlt | rfl
    · have hdvd : (10 : Int) ∣ roundedAt units i := by
        rw [← hscaled]
        exact Dvd.dvd.mul_left (dvd_pow_self 10 (by omega)) _
      refine not_dvd_of_edge hnext hfirst.1 ?_ hdvd
      exact hfirstDrop i hlt
    · rw [Nat.sub_self, pow_zero, mul_one] at hscaled
      rw [hscaled] at hnext
      omega
  · exact hlast (h.kept (fits_integerPart hi hfirst.1))

theorem normalizeI128_rounded_once_iff (units : Int) (scale : Nat) :
    RoundedOnce units scale (normalizeI128 units scale) ↔ RoundsOnce units scale := by
  constructor
  · intro h
    refine ⟨fun i hi hfirst => roundsAlike_of_rounded h hi hfirst, fun hpart => ?_⟩
    rcases normalizeLoop_cases scale units with ⟨k, hk, hfits, -, -⟩ | ⟨-, hlast⟩
    · exact ⟨k, hk, fits_roundedAt hfits⟩
    · exact absurd (h.kept hpart) hlast
  · rintro ⟨halike, hpart⟩
    by_cases hex : ∃ i ≤ scale, Int64Fits (roundedAt units i)
    · classical
      obtain ⟨hi, hfits⟩ := Nat.find_spec hex
      have hfirst : FirstFit units (Nat.find hex) :=
        ⟨hfits, fun j hj hfit => Nat.find_min hex hj ⟨hj.le.trans hi, hfit⟩⟩
      generalize Nat.find hex = i at hi hfits hfirst
      have hsame := dropPlaces_eq_roundedAt (halike i hi hfirst)
      have hbefore : ∀ j < i, ¬ Int64Fits (dropPlaces units j) :=
        fun j hj hfit => hfirst.2 j hj (fits_roundedAt hfit)
      have hloop := normalizeLoop_of_first scale hi (hsame ▸ hfits) hbefore
      have hvalue : (normalizeI128 units scale).toRat =
          exactValue (roundedAt units i) (scale - i) := by
        rw [normalizeI128_eq_loop, hloop, hsame]
        unfold toRat exactValue
        dsimp only
        rw [clampInt64_of_fits hfits]
      refine ⟨fun t ht m hm heq => ?_, fun j _ hj => ?_, fun _ => ?_⟩
      · rw [hvalue]
        exact exact_of_firstFit ht hm heq hfirst
      · rw [hvalue, hfirst.unique hj]
      · rw [hloop, hsame]
        exact hfits
    · refine ⟨fun t ht m hm heq => ?_, fun j hj hfirst => absurd ⟨j, hj, hfirst.1⟩ hex,
        fun hfits => absurd (hpart hfits) hex⟩
      refine absurd ⟨scale - t, Nat.sub_le _ _, ?_⟩ hex
      obtain ⟨k, rfl⟩ := Nat.exists_eq_add_of_le ht
      have hunits : units = m * 10 ^ k := by
        rw [exactValue_eq_iff] at heq
        apply mul_right_cancel₀ (show (10 : Int) ^ t ≠ 0 by positivity)
        rw [heq, pow_add]
        ring
      rw [hunits, Nat.add_sub_cancel_left, roundedAt_mul]
      exact hm

end Loop

/-- The operations that narrow their result. -/
inductive NarrowedOp where
  | add
  | sub
  | mul
deriving DecidableEq

namespace NarrowedOp

/-- What the operation computes. -/
def apply : NarrowedOp → Decimal → Decimal → Decimal
  | .add => Decimal.add
  | .sub => Decimal.sub
  | .mul => Decimal.mul

/-- What the operation computes on numbers. -/
def onRat : NarrowedOp → ℚ → ℚ → ℚ
  | .add => (· + ·)
  | .sub => (· - ·)
  | .mul => (· * ·)

def naturalScale : NarrowedOp → Decimal → Decimal → Int
  | .add, a, b => max a.scale b.scale
  | .sub, a, b => max a.scale b.scale
  | .mul, a, b => a.scale + b.scale

/-- The mantissa of the result at the natural scale. -/
def exactUnits : NarrowedOp → Decimal → Decimal → Int
  | .add, a, b => a.unitsAt (max a.scale b.scale) + b.unitsAt (max a.scale b.scale)
  | .sub, a, b => a.unitsAt (max a.scale b.scale) - b.unitsAt (max a.scale b.scale)
  | .mul, a, b => a.units * b.units

section Operations

variable {a b : Decimal}

theorem naturalScale_nonneg (op : NarrowedOp) (ha : ScaleOk a) (hb : ScaleOk b) :
    0 ≤ op.naturalScale a b := by
  obtain ⟨hapos, -⟩ := ha
  obtain ⟨hbpos, -⟩ := hb
  cases op <;> dsimp only [naturalScale] <;> omega

theorem exactUnits_value (op : NarrowedOp) (ha : ScaleOk a) (hb : ScaleOk b) :
    exactValue (op.exactUnits a b) (op.naturalScale a b).toNat = op.onRat a.toRat b.toRat := by
  have hscale := Int.toNat_of_nonneg (op.naturalScale_nonneg ha hb)
  unfold exactValue
  rw [hscale]
  cases op with
  | add =>
      dsimp only [exactUnits, naturalScale, onRat]
      rw [toRat_eq_unitsAt a (le_max_left a.scale b.scale),
        toRat_eq_unitsAt b (le_max_right a.scale b.scale)]
      push_cast
      ring
  | sub =>
      dsimp only [exactUnits, naturalScale, onRat]
      rw [toRat_eq_unitsAt a (le_max_left a.scale b.scale),
        toRat_eq_unitsAt b (le_max_right a.scale b.scale)]
      push_cast
      ring
  | mul =>
      dsimp only [exactUnits, naturalScale, onRat]
      unfold toRat
      rw [neg_add, zpow_add₀ (by norm_num)]
      push_cast
      ring

theorem apply_eq (op : NarrowedOp) (ha : ScaleOk a) (hb : ScaleOk b) :
    op.apply a b = normalizeI128 (op.exactUnits a b) (op.naturalScale a b) := by
  have hmax : max a.scale b.scale ≤ 18 := max_le ha.2 hb.2
  have hleft := abs_unitsAt_le ha hmax
  have hright := abs_unitsAt_le hb hmax
  cases op with
  | add =>
      dsimp only [apply, exactUnits, naturalScale]
      unfold Decimal.add
      dsimp only
      rw [alignUnitsI128_of_scaleOk ha hmax, alignUnitsI128_of_scaleOk hb hmax,
        i128_of_abs_le ((abs_add_le _ _).trans (by omega))]
  | sub =>
      dsimp only [apply, exactUnits, naturalScale]
      unfold Decimal.sub
      dsimp only
      rw [alignUnitsI128_of_scaleOk ha hmax, alignUnitsI128_of_scaleOk hb hmax,
        i128_of_abs_le ((abs_sub _ _).trans (by omega))]
  | mul =>
      have hprod : |a.units * b.units| ≤ 2 ^ 63 * 2 ^ 63 := by
        rw [abs_mul]
        exact mul_le_mul a.abs_units_le b.abs_units_le (abs_nonneg _) (by norm_num)
      dsimp only [apply, exactUnits, naturalScale]
      unfold Decimal.mul
      rw [i128_of_abs_le (hprod.trans (by norm_num))]

end Operations

/-- For decimals of at most 18 places, the exact result has the natural scale, and a sum, a
difference or a product is exact or rounded once exactly under the condition. -/
theorem rounded_once_iff (op : NarrowedOp) (a b : Decimal) (ha : ScaleOk a) (hb : ScaleOk b) :
    exactValue (op.exactUnits a b) (op.naturalScale a b).toNat = op.onRat a.toRat b.toRat ∧
    (RoundedOnce (op.exactUnits a b) (op.naturalScale a b).toNat (op.apply a b) ↔
      RoundsOnce (op.exactUnits a b) (op.naturalScale a b).toNat) := by
  refine ⟨op.exactUnits_value ha hb, ?_⟩
  have hscale := Int.toNat_of_nonneg (op.naturalScale_nonneg ha hb)
  have hresult : op.apply a b =
      normalizeI128 (op.exactUnits a b) ((op.naturalScale a b).toNat : Int) := by
    rw [hscale, op.apply_eq ha hb]
  rw [hresult]
  exact normalizeI128_rounded_once_iff _ _

/-- A product of two large mantissas that loses three places. -/
theorem large_product_rounded_once :
    RoundedOnce (9000000000000000000 * 123) 4
      (NarrowedOp.mul.apply (of 9000000000000000000 2) (of 123 2)) :=
  (NarrowedOp.mul.rounded_once_iff (of 9000000000000000000 2) (of 123 2)
    (by decide) (by decide)).2.mpr (by decide +kernel)

/-- `0.45` added to `9 * 10^18` is rounded up to one, place by place. -/
theorem sum_rounded_twice :
    (Decimal.add (of 9000000000000000000 0) (of 45 2)).units = 9000000000000000001 ∧
    ¬ ∀ (op : NarrowedOp) (a b : Decimal), ScaleOk a → ScaleOk b →
      RoundedOnce (op.exactUnits a b) (op.naturalScale a b).toNat (op.apply a b) := by
  refine ⟨by decide +kernel, fun h => ?_⟩
  have hsum := h .add (of 9000000000000000000 0) (of 45 2) (by decide) (by decide)
  have hrounded := hsum.rounded 2 (by decide) (by decide +kernel)
  exact absurd hrounded (by decide +kernel)

/-- Half a unit above the largest mantissa is saturated. -/
example : ¬ RoundsOnce (NarrowedOp.add.exactUnits (of int64Max 0) (of 5 1)) 1 := by
  decide +kernel

end NarrowedOp

end Decimal
end Common
end ContExchange
