import Mathlib.Algebra.BigOperators.Group.List.Basic
import Mathlib.Algebra.Order.BigOperators.Group.List
import Mathlib.Tactic

/-!
# Venues: the calibration of the impact model

`LiquidityCurveProducer` fits the observed impact of its executions by a multiple of the
quantity, or by a quantity and a square, and sets a coefficient below zero to zero.

* `squaredError_sub`: the error against that of a solution of the normal equations;
* `calibrate_best_iff`: when the fit is the best one without a coefficient below zero.

The numbers are exact, and the square root is a parameter.
-/

namespace ContExchange
namespace Venues

open List

inductive L3ImpactModel where
  | linear
  | quadratic
  | sqrt
deriving DecidableEq

structure L3ImpactCalibrationConfig where
  model : L3ImpactModel := .linear
  maxRelativeImpact : ℚ := 1 / 2

structure ImpactSample where
  qty : ℚ
  relativeImpact : ℚ

structure ImpactModelParams where
  a : ℚ := 0
  b : ℚ := 0
  sampleCount : Nat := 0
  fitRmse : ℚ := 1

section Calibration

variable (sqrt : ℚ → ℚ) (config : L3ImpactCalibrationConfig) (history : List ImpactSample)

def sumOver (f : ImpactSample → ℚ) : ℚ :=
  (history.map f).sum

def fitOneParameter (x : ℚ → ℚ) : ℚ :=
  let sxy := sumOver history fun sample => x sample.qty * sample.relativeImpact
  let sxx := sumOver history fun sample => x sample.qty * x sample.qty
  if sxx ≤ 1 / 10 ^ 12 then 0 else sxy / sxx

/-- The case of the quadratic model, before the coefficients are clamped. -/
def fitQuadratic : ℚ × ℚ :=
  let q (sample : ImpactSample) : ℚ := max 0 sample.qty
  let q2 (sample : ImpactSample) : ℚ := q sample * q sample
  let s11 := sumOver history fun sample => q sample * q sample
  let s12 := sumOver history fun sample => q sample * q2 sample
  let s22 := sumOver history fun sample => q2 sample * q2 sample
  let t1 := sumOver history fun sample => q sample * sample.relativeImpact
  let t2 := sumOver history fun sample => q2 sample * sample.relativeImpact
  let det := s11 * s22 - s12 * s12
  if 1 / 10 ^ 18 < |det| then ((t1 * s22 - t2 * s12) / det, (s11 * t2 - s12 * t1) / det)
  else (fitOneParameter history id, 0)

def evaluateImpact (params : ImpactModelParams) (qty : ℚ) : L3ImpactModel → ℚ
  | .linear => params.a * max 0 qty
  | .quadratic => params.a * max 0 qty + params.b * max 0 qty * max 0 qty
  | .sqrt => params.a * sqrt (max 0 qty)

def calibrateImpactModel : ImpactModelParams :=
  if history = [] then {}
  else
    let fit := match config.model with
      | .linear => (fitOneParameter history id, 0)
      | .sqrt => (fitOneParameter history fun q => sqrt (max 0 q), 0)
      | .quadratic => fitQuadratic history
    let params : ImpactModelParams :=
      { a := max 0 fit.1, b := max 0 fit.2, sampleCount := history.length }
    let diff (sample : ImpactSample) : ℚ :=
      max 0 (min (evaluateImpact sqrt params sample.qty config.model) config.maxRelativeImpact) -
        sample.relativeImpact
    { params with
      fitRmse := sqrt (sumOver history (fun sample => diff sample * diff sample) /
        history.length) }

/-- The sum of the squares of the differences to the observed impact. -/
def squaredError (a b : ℚ) : ℚ :=
  sumOver history fun sample =>
    (a * sample.qty + b * sample.qty ^ 2 - sample.relativeImpact) ^ 2

def moment (n : Nat) : ℚ :=
  sumOver history fun sample => sample.qty ^ n

def impactMoment (n : Nat) : ℚ :=
  sumOver history fun sample => sample.qty ^ n * sample.relativeImpact

/-- The normal equations of the model are not taken for singular. -/
def Regular : L3ImpactModel → Prop
  | .linear => 1 / 10 ^ 12 < moment history 2
  | .quadratic => 1 / 10 ^ 18 < |moment history 2 * moment history 4 - moment history 3 ^ 2|
  | .sqrt => False

/-- No coefficients that are not below zero fit better. -/
def BestFit (params : ImpactModelParams) : Prop :=
  ∀ a b, 0 ≤ a → 0 ≤ b → (config.model = .linear → b = 0) →
    squaredError history params.a params.b ≤ squaredError history a b

/-- Both coefficients of the free solution of the normal equations are at least zero. -/
def FreeFitAdmissible : Prop :=
  moment history 3 * impactMoment history 2 ≤ moment history 4 * impactMoment history 1 ∧
    moment history 3 * impactMoment history 1 ≤ moment history 2 * impactMoment history 2
deriving Decidable

variable {history}

theorem sumOver_perm {history' : List ImpactSample} (h : history'.Perm history) :
    sumOver history' = sumOver history :=
  funext fun f => (h.map f).sum_eq

theorem squaredError_eq (a b : ℚ) : squaredError history a b =
    moment history 2 * a ^ 2 + 2 * moment history 3 * a * b + moment history 4 * b ^ 2 -
      2 * impactMoment history 1 * a - 2 * impactMoment history 2 * b +
      sumOver history fun sample => sample.relativeImpact ^ 2 := by
  simp only [squaredError, moment, impactMoment, sumOver]
  induction history with
  | nil => simp
  | cons sample rest ih =>
      simp only [map_cons, sum_cons, ih]
      ring

theorem form_nonneg (a b : ℚ) :
    0 ≤ moment history 2 * a ^ 2 + 2 * moment history 3 * a * b + moment history 4 * b ^ 2 := by
  have hsum : 0 ≤ sumOver history fun sample => (a * sample.qty + b * sample.qty ^ 2) ^ 2 :=
    sum_nonneg fun _ h => by
      obtain ⟨sample, -, rfl⟩ := mem_map.mp h
      positivity
  refine hsum.trans_eq ?_
  simp only [moment, sumOver]
  induction history with
  | nil => simp
  | cons sample rest ih =>
      simp only [map_cons, sum_cons] at ih ⊢
      rw [ih (sum_nonneg fun _ h => by
        obtain ⟨sample, -, rfl⟩ := mem_map.mp h
        positivity)]
      ring

/-- A solution of the normal equations fits best. -/
theorem squaredError_le {A B : ℚ} (h1 : moment history 2 * A + moment history 3 * B =
    impactMoment history 1) (h2 : moment history 3 * A + moment history 4 * B =
    impactMoment history 2) (a b : ℚ) : squaredError history A B ≤ squaredError history a b := by
  have hform := @form_nonneg history (a - A) (b - B)
  rw [squaredError_eq, squaredError_eq, ← h1, ← h2]
  linarith

/-- The best multiple of one power. -/
theorem eq_of_least {m t x : ℚ} (hm : 0 < m)
    (h : m * x ^ 2 - 2 * t * x ≤ m * (t / m) ^ 2 - 2 * t * (t / m)) : m * x = t := by
  have ht : m * (t / m) = t := mul_div_cancel₀ t hm.ne'
  generalize t / m = y at h ht
  subst ht
  have hsq : m * (x - y) ^ 2 ≤ 0 := by linarith
  have hzero : (x - y) ^ 2 ≤ 0 := nonpos_of_mul_nonpos_right hsq hm
  rw [sub_eq_zero.mp (pow_eq_zero_iff two_ne_zero |>.mp (le_antisymm hzero (sq_nonneg _)))]

section Positive

variable (hne : history ≠ []) (hqty : ∀ sample ∈ history, 0 < sample.qty)
  (himpact : ∀ sample ∈ history, 0 ≤ sample.relativeImpact)

include hne hqty

theorem moment_pos (n : Nat) : 0 < moment history n := by
  refine sum_pos _ (fun _ h => ?_) (by simpa using hne)
  obtain ⟨sample, hsample, rfl⟩ := mem_map.mp h
  exact pow_pos (hqty sample hsample) n

omit hne

include himpact in
theorem impactMoment_nonneg (n : Nat) : 0 ≤ impactMoment history n := by
  refine sum_nonneg fun _ h => ?_
  obtain ⟨sample, hsample, rfl⟩ := mem_map.mp h
  exact mul_nonneg (pow_nonneg (hqty sample hsample).le n) (himpact sample hsample)

theorem sumOver_congr {f g : ImpactSample → ℚ}
    (h : ∀ sample, 0 < sample.qty → f sample = g sample) :
    sumOver history f = sumOver history g :=
  congrArg List.sum (map_congr_left fun sample hsample => h sample (hqty sample hsample))

theorem fitOneParameter_eq : fitOneParameter history id =
    if moment history 2 ≤ 1 / 10 ^ 12 then 0 else impactMoment history 1 / moment history 2 := by
  have hxx : (sumOver history fun sample => id sample.qty * id sample.qty) = moment history 2 :=
    sumOver_congr hqty fun sample _ => by simp [sq]
  have hxy : (sumOver history fun sample => id sample.qty * sample.relativeImpact) =
      impactMoment history 1 := sumOver_congr hqty fun sample _ => by simp
  rw [fitOneParameter, hxx, hxy]

theorem fitQuadratic_eq (h : Regular history .quadratic) : fitQuadratic history =
    ((impactMoment history 1 * moment history 4 - impactMoment history 2 * moment history 3) /
        (moment history 2 * moment history 4 - moment history 3 ^ 2),
      (moment history 2 * impactMoment history 2 - moment history 3 * impactMoment history 1) /
        (moment history 2 * moment history 4 - moment history 3 ^ 2)) := by
  have h11 : (sumOver history fun s => max 0 s.qty * max 0 s.qty) = moment history 2 :=
    sumOver_congr hqty fun s hs => by rw [max_eq_right hs.le, sq]
  have h12 : (sumOver history fun s => max 0 s.qty * (max 0 s.qty * max 0 s.qty)) =
      moment history 3 := sumOver_congr hqty fun s hs => by rw [max_eq_right hs.le]; ring
  have h22 : (sumOver history fun s => max 0 s.qty * max 0 s.qty * (max 0 s.qty * max 0 s.qty)) =
      moment history 4 := sumOver_congr hqty fun s hs => by rw [max_eq_right hs.le]; ring
  have h1 : (sumOver history fun s => max 0 s.qty * s.relativeImpact) = impactMoment history 1 :=
    sumOver_congr hqty fun s hs => by rw [max_eq_right hs.le, pow_one]
  have h2 : (sumOver history fun s => max 0 s.qty * max 0 s.qty * s.relativeImpact) =
      impactMoment history 2 := sumOver_congr hqty fun s hs => by rw [max_eq_right hs.le, sq]
  rw [Regular, sq] at h
  simp only [fitQuadratic, h11, h12, h22, h1, h2, sq]
  rw [if_pos h]

include hne himpact in
theorem bestFit_linear (hmodel : config.model = .linear) (hregular : Regular history .linear) :
    BestFit config history (calibrateImpactModel sqrt config history) := by
  have hm := moment_pos hne hqty 2
  intro a b _ _ hb
  obtain rfl := hb hmodel
  simp only [calibrateImpactModel, if_neg hne, hmodel, fitOneParameter_eq hqty,
    if_neg (not_le.mpr hregular), max_self]
  rw [max_eq_right (div_nonneg (impactMoment_nonneg hqty himpact 1) hm.le), squaredError_eq,
    squaredError_eq]
  have ht : moment history 2 * (impactMoment history 1 / moment history 2) =
      impactMoment history 1 := mul_div_cancel₀ _ hm.ne'
  generalize impactMoment history 1 / moment history 2 = x at ht
  rw [← ht]
  linarith [mul_nonneg hm.le (sq_nonneg (a - x))]

include hne himpact in
theorem bestFit_quadratic_iff (hmodel : config.model = .quadratic)
    (hregular : Regular history .quadratic) :
    BestFit config history (calibrateImpactModel sqrt config history) ↔
      FreeFitAdmissible history := by
  have h2 := moment_pos hne hqty 2
  have h3 := moment_pos hne hqty 3
  have h4 := moment_pos hne hqty 4
  have ht1 := impactMoment_nonneg hqty himpact 1
  have ht2 := impactMoment_nonneg hqty himpact 2
  have hfit := fitQuadratic_eq hqty hregular
  have hform := @form_nonneg history (moment history 3) (-moment history 2)
  rw [BestFit, FreeFitAdmissible]
  simp only [calibrateImpactModel, if_neg hne, hmodel, hfit]
  rw [Regular] at hregular
  have hdet : 0 < moment history 2 * moment history 4 - moment history 3 ^ 2 := by
    have hnonneg : 0 ≤ moment history 2 * moment history 4 - moment history 3 ^ 2 := by
      by_contra hneg
      nlinarith [mul_neg_of_pos_of_neg h2 (not_le.mp hneg)]
    rw [abs_of_nonneg hnonneg] at hregular
    exact lt_trans (by norm_num) hregular
  generalize hA : (impactMoment history 1 * moment history 4 - impactMoment history 2 *
    moment history 3) / (moment history 2 * moment history 4 - moment history 3 ^ 2) = A
  generalize hB : (moment history 2 * impactMoment history 2 - moment history 3 *
    impactMoment history 1) / (moment history 2 * moment history 4 - moment history 3 ^ 2) = B
  rw [div_eq_iff hdet.ne'] at hA hB
  have hnormal1 : moment history 2 * A + moment history 3 * B = impactMoment history 1 :=
    mul_right_cancel₀ hdet.ne' (by linear_combination -moment history 2 * hA - moment history 3 * hB)
  have hnormal2 : moment history 3 * A + moment history 4 * B = impactMoment history 2 :=
    mul_right_cancel₀ hdet.ne' (by linear_combination -moment history 3 * hA - moment history 4 * hB)
  have hA0 : moment history 3 * impactMoment history 2 ≤ moment history 4 * impactMoment history 1 ↔
      0 ≤ A := by
    rw [← mul_nonneg_iff_of_pos_right hdet, ← hA, sub_nonneg, mul_comm (impactMoment history 2),
      mul_comm (impactMoment history 1)]
  have hB0 : moment history 3 * impactMoment history 1 ≤ moment history 2 * impactMoment history 2 ↔
      0 ≤ B := by rw [← mul_nonneg_iff_of_pos_right hdet, ← hB, sub_nonneg]
  rw [hA0, hB0]
  constructor
  · intro hbest
    by_contra hneg
    rw [not_and_or, not_le, not_le] at hneg
    rcases hneg with hneg | hneg
    · -- the square alone fits better with another coefficient
      have hpos : 0 < B := pos_of_mul_pos_right (by nlinarith) h3.le
      have hleast := hbest 0 _ le_rfl (div_nonneg ht2 h4.le) nofun
      rw [max_eq_left hneg.le, max_eq_right hpos.le, squaredError_eq, squaredError_eq] at hleast
      have heq := eq_of_least h4 (x := B) (t := impactMoment history 2) (by linarith)
      nlinarith
    · have hpos : 0 < A := pos_of_mul_pos_right (by nlinarith) h3.le
      have hleast := hbest _ 0 (div_nonneg ht1 h2.le) le_rfl nofun
      rw [max_eq_left hneg.le, max_eq_right hpos.le, squaredError_eq, squaredError_eq] at hleast
      have heq := eq_of_least h2 (x := A) (t := impactMoment history 1) (by linarith)
      nlinarith
  · rintro ⟨hA', hB'⟩ a b _ _ _
    rw [max_eq_right hA', max_eq_right hB']
    exact squaredError_le hnormal1 hnormal2 a b

end Positive

/-- The fit of the linear model is the best one, that of the quadratic model exactly when the
free solution has no coefficient below zero, and neither depends on the order of the samples. -/
theorem calibrate_best_iff (hne : history ≠ []) (hqty : ∀ sample ∈ history, 0 < sample.qty)
    (himpact : ∀ sample ∈ history,
      0 ≤ sample.relativeImpact ∧ sample.relativeImpact ≤ config.maxRelativeImpact)
    (hregular : Regular history config.model) :
    (BestFit config history (calibrateImpactModel sqrt config history) ↔
      (config.model = .quadratic → FreeFitAdmissible history)) ∧
      ∀ history', history'.Perm history →
        calibrateImpactModel sqrt config history' = calibrateImpactModel sqrt config history := by
  have himpact : ∀ sample ∈ history, 0 ≤ sample.relativeImpact := fun s hs => (himpact s hs).1
  refine ⟨?_, fun history' h => ?_⟩
  · cases hmodel : config.model with
    | linear =>
        rw [hmodel] at hregular
        exact iff_of_true (bestFit_linear sqrt config hne hqty himpact hmodel hregular) nofun
    | quadratic =>
        rw [hmodel] at hregular
        rw [bestFit_quadratic_iff sqrt config hne hqty himpact hmodel hregular]
        exact ⟨fun h _ => h, fun h => h rfl⟩
    | sqrt => simp [Regular, hmodel] at hregular
  · have hnil : history' = [] ↔ history = [] := by
      rw [← List.length_eq_zero_iff, ← List.length_eq_zero_iff, h.length_eq]
    simp only [calibrateImpactModel, fitQuadratic, fitOneParameter, sumOver_perm h, h.length_eq, hnil]

/-- Three samples of a concave impact: the free fit falls with the square. -/
def concaveHistory : List ImpactSample :=
  [{ qty := 1, relativeImpact := 1 / 10 }, { qty := 2, relativeImpact := 3 / 20 },
    { qty := 3, relativeImpact := 3 / 20 }]

/-- Three samples on a line. -/
theorem calibrate_best_three : BestFit { model := .quadratic } (concaveHistory.map fun sample =>
      { sample with relativeImpact := sample.qty / 10 })
    (calibrateImpactModel id { model := .quadratic } (concaveHistory.map fun sample =>
      { sample with relativeImpact := sample.qty / 10 })) :=
  (@calibrate_best_iff id { model := .quadratic } _ (by decide) (by decide +kernel)
    (by decide +kernel) (by
      rw [Regular]
      decide +kernel)).1.mpr fun _ => by decide +kernel

/-- Another multiple of the quantity fits a concave impact better. -/
theorem calibrate_of_concave :
    (∀ sample ∈ concaveHistory, 0 < sample.qty ∧ 0 ≤ sample.relativeImpact ∧
      sample.relativeImpact ≤ 1 / 2) ∧ Regular concaveHistory .quadratic ∧
    ¬ BestFit { model := .quadratic } concaveHistory
      (calibrateImpactModel id { model := .quadratic } concaveHistory) := by
  refine ⟨by decide +kernel, by rw [Regular]; decide +kernel, fun h => ?_⟩
  exact absurd (h (impactMoment concaveHistory 1 / moment concaveHistory 2) 0 (by decide +kernel)
    le_rfl nofun) (by decide +kernel)

end Calibration

end Venues
end ContExchange
