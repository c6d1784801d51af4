import ContExchange.Venues.VenueSimulator

/-!
# Venues: the walk of the simulator

The sums of the walk carry the errors of their roundings.

* `d2Dec_error`: the error of eight decimals;
* `walk_spec`: the quantity does not exceed the target nor the liquidity, and the notional stays
  between two prices of that quantity, but for rounding.
-/

namespace ContExchange
namespace Venues
namespace Simulator

open Common Decimal Double List

section Conversions

open Double (halfTiny halfTiny_pos halfTiny_le le_huge product_error)

variable {d : Decimal} {x : ℚ}

theorem asDouble_spec (hscale : 0 ≤ d.scale) :
    ∃ v, asDouble d = .num v ∧ |v - d.toRat| ≤ |d.toRat| / 2 ^ 51 + 2 ^ 65 * halfTiny := by
  have hpow : (10 : ℚ) ^ (-d.scale) ≤ 1 := zpow_le_one_of_nonpos₀ (by norm_num) (by omega)
  have hpowPos := pow10_pos (-d.scale)
  have hunits : |(d.units : ℚ)| ≤ 2 ^ 63 := by exact_mod_cast d.abs_units_le
  have hhalf := halfTiny_le
  obtain ⟨a, ha, haError⟩ := ofRat_error (le_huge (hunits.trans (by norm_num)))
  obtain ⟨b, hb, hbNonneg, hbError⟩ :=
    ofRat_nonneg hpowPos.le (le_huge (hpow.trans (by norm_num)))
  have haTop : |a| ≤ 2 ^ 65 := by
    have := abs_sub_abs_le_abs_sub a d.units
    linarith
  have hbTop : |b| ≤ 2 := by
    rw [abs_of_nonneg hbNonneg]
    have := (abs_le.mp hbError).2
    linarith
  have hproduct : |a * b| ≤ 2 ^ 200 := by
    rw [abs_mul]
    exact (mul_le_mul haTop hbTop (abs_nonneg b) (by norm_num)).trans (by norm_num)
  obtain ⟨v, hv, hvError⟩ := ofRat_error (le_huge hproduct)
  refine ⟨v, ?_, ?_⟩
  · unfold asDouble
    rw [ha, hb]
    exact hv
  · exact product_error hpowPos.le hpow hbNonneg halfTiny_pos.le
      (hhalf.trans (by norm_num)) hunits haError hbError hvError

theorem rounded_asDouble (d : Decimal) : Double.Rounded (asDouble d) :=
  rounded_mul _ _

theorem mul_ten_error {s e t h : ℚ} (k : ℕ) (hk : k ≤ 7) (hx : 0 ≤ x) (hh : 0 ≤ h)
    (hs : |s - 10 ^ k * x| ≤ 10 ^ k * x * (2 * k / 2 ^ 53) + (k + 1) * 10 ^ (k + 1) * h)
    (ht : |t - s * 10| ≤ s * 10 / 2 ^ 53 + h) (he : e = 10 ^ (k + 1) * x) :
    |t - e| ≤ e * (2 * (k + 1) / 2 ^ 53) + (k + 1 + 1) * 10 ^ (k + 1 + 1) * h := by
  have hten : (1 : ℚ) ≤ 10 ^ k := one_le_pow₀ (by norm_num)
  have hkq : (k : ℚ) ≤ 7 := by exact_mod_cast hk
  have hknn : (0 : ℚ) ≤ k := Nat.cast_nonneg k
  have hpow : (10 : ℚ) ^ (k + 1) = 10 * 10 ^ k := pow_succ' 10 k
  have hpow' : (10 : ℚ) ^ (k + 1 + 1) = 100 * 10 ^ k := by rw [pow_succ', hpow]; ring
  have htriangle : |t - e| ≤ |t - s * 10| + |s * 10 - e| := abs_sub_le _ _ _
  have hscaled : |s * 10 - e| = 10 * |s - 10 ^ k * x| := by
    rw [he, hpow, show s * 10 - 10 * 10 ^ k * x = 10 * (s - 10 ^ k * x) by ring, abs_mul]
    norm_num
  have hsTop : s ≤ 10 ^ k * x + |s - 10 ^ k * x| := by
    have := le_abs_self (s - 10 ^ k * x)
    linarith
  have hbase : 0 ≤ (10 : ℚ) ^ k * x := by positivity
  have hbaseTiny : h ≤ 10 ^ k * h := le_mul_of_one_le_left hh hten
  have hky : (k : ℚ) * (10 ^ k * x) ≤ 7 * (10 ^ k * x) := mul_le_mul_of_nonneg_right hkq hbase
  have hkz : (k : ℚ) * (10 ^ k * h) ≤ 7 * (10 ^ k * h) :=
    mul_le_mul_of_nonneg_right hkq (by positivity)
  have hkyNonneg : 0 ≤ (k : ℚ) * (10 ^ k * x) := mul_nonneg hknn hbase
  rw [hpow] at hs
  rw [he] at hscaled htriangle ⊢
  rw [hpow] at hscaled htriangle
  rw [hpow', hpow]
  linarith

theorem scaleUp_spec (hx : 0 ≤ x) (hx' : x ≤ 2 ^ 100) (k : ℕ) (hk : k ≤ 8) :
    ∃ s, scaleUp k (.num x) = .num s ∧ 0 ≤ s ∧
      |s - 10 ^ k * x| ≤ 10 ^ k * x * (2 * k / 2 ^ 53) + (k + 1) * 10 ^ (k + 1) * halfTiny := by
  induction k with
  | zero =>
      refine ⟨x, rfl, hx, ?_⟩
      rw [pow_zero, one_mul, sub_self, abs_zero]
      have := halfTiny_pos
      positivity
  | succ k ih =>
      obtain ⟨s, hs, hsNonneg, hsError⟩ := ih (by omega)
      have hkq : (k : ℚ) ≤ 7 := by exact_mod_cast (by omega : k ≤ 7)
      have hpow : (10 : ℚ) ^ k ≤ 10 ^ 7 := pow_le_pow_right₀ (by norm_num) (by omega)
      have hpow' : (10 : ℚ) ^ (k + 1) ≤ 10 ^ 8 := pow_le_pow_right₀ (by norm_num) (by omega)
      have hbase : 10 ^ k * x ≤ 10 ^ 7 * 2 ^ 100 :=
        mul_le_mul hpow hx' hx (by norm_num)
      have hrelative : 10 ^ k * x * (2 * k / 2 ^ 53) ≤ 10 ^ 7 * 2 ^ 100 * 1 := by
        refine mul_le_mul hbase ?_ (by positivity) (by positivity)
        rw [div_le_one (by norm_num)]
        linarith
      have htiny : ((k : ℚ) + 1) * 10 ^ (k + 1) * halfTiny ≤ 8 * 10 ^ 8 * 1 := by
        refine mul_le_mul (mul_le_mul ?_ hpow' ?_ ?_) ?_ halfTiny_pos.le ?_
        · linarith
        · positivity
        · norm_num
        · exact halfTiny_le.trans (by norm_num)
        · norm_num
      have hsTop : s * 10 ≤ 2 ^ 200 := by
        have := (abs_le.mp hsError).2
        linarith
      obtain ⟨t, ht, htNonneg, htError⟩ :=
        ofRat_nonneg (mul_nonneg hsNonneg (by norm_num)) (le_huge hsTop)
      refine ⟨t, ?_, htNonneg, ?_⟩
      · rw [scaleUp, hs]
        exact ht
      · have hstep := mul_ten_error k (by omega) hx halfTiny_pos.le hsError htError rfl
        push_cast
        exact hstep

theorem llroundDouble_num (q : ℚ) : llroundDouble (.num q) =
    if Int64Fits (Decimal.roundAway q) then Decimal.roundAway q else int64Min := rfl

theorem d2Dec_error (hx : 0 ≤ x) (hx' : x ≤ 2 ^ 100) (h : (d2Dec (.num x)).units ≠ int64Min) :
    |(d2Dec (.num x)).toRat - x| ≤ 1 / (2 * 10 ^ 8) + x / 2 ^ 49 + 2 ^ 10 * halfTiny := by
  obtain ⟨s, hs, hsNonneg, hsError⟩ := scaleUp_spec hx hx' 8 le_rfl
  have hunits : (d2Dec (.num x)).units = llroundDouble (.num s) := by
    rw [← hs]
    rfl
  have hrounded : (d2Dec (.num x)).units = Decimal.roundAway s := by
    rw [hunits, llroundDouble_num] at h ⊢
    split_ifs at h ⊢ with hfits
    · rfl
    · exact absurd rfl h
  have hround := (abs_roundAway_sub_le s).1
  have hvalue : (d2Dec (.num x)).toRat = (Decimal.roundAway s : ℚ) / 10 ^ 8 := by
    rw [Decimal.toRat, hrounded, show (d2Dec (.num x)).scale = 8 from rfl, zpow_neg, div_eq_mul_inv]
    norm_num
  have hsplit : (Decimal.roundAway s : ℚ) / 10 ^ 8 - x =
      ((Decimal.roundAway s - s) + (s - 10 ^ 8 * x)) / 10 ^ 8 := by ring
  have hsum : |((Decimal.roundAway s : ℚ) - s) + (s - 10 ^ 8 * x)| ≤
      1 / 2 + (10 ^ 8 * x * (2 * (8 : ℕ) / 2 ^ 53) + ((8 : ℕ) + 1) * 10 ^ (8 + 1) * halfTiny) :=
    (abs_add_le _ _).trans (add_le_add hround hsError)
  rw [hvalue, hsplit, abs_div, abs_of_pos (show (0 : ℚ) < 10 ^ 8 by norm_num),
    div_le_iff₀ (by norm_num)]
  refine hsum.trans ?_
  have hpos := halfTiny_pos
  push_cast
  linarith

theorem d2Dec_units_ne (hx : 0 ≤ x) (hx' : x ≤ 91 * 10 ^ 9) :
    (d2Dec (.num x)).units ≠ int64Min := by
  obtain ⟨s, hs, hsNonneg, hsError⟩ := scaleUp_spec hx (hx'.trans (by norm_num)) 8 le_rfl
  have hunits : (d2Dec (.num x)).units = llroundDouble (.num s) := by
    rw [← hs]
    rfl
  have hround := (abs_roundAway_sub_le s).1
  have hlow : -1 < (Decimal.roundAway s : ℚ) := by
    have := (abs_le.mp hround).1
    linarith
  have hhigh : (Decimal.roundAway s : ℚ) < 2 ^ 63 := by
    have hupper := (abs_le.mp hround).2
    have herror := (abs_le.mp hsError).2
    have htiny : halfTiny ≤ 1 / 10 ^ 20 := halfTiny_le.trans (by norm_num)
    push_cast at herror
    linarith
  have hlowInt : -1 < Decimal.roundAway s := by exact_mod_cast hlow
  have hhighInt : Decimal.roundAway s < 2 ^ 63 := by exact_mod_cast hhigh
  have hfits : Int64Fits (Decimal.roundAway s) := by
    unfold Int64Fits int64Min int64Max
    omega
  rw [hunits, llroundDouble_num, if_pos hfits]
  unfold int64Min
  omega

end Conversions

section Steps

variable {P Q f t p m w f' m' h R K : ℚ}

theorem upper_step (hP : 0 ≤ P) (hP' : P ≤ 2 ^ 65) (hp : p ≤ P) (ht : 0 ≤ t) (hf : 0 ≤ f)
    (hh : 0 ≤ h) (hR : 1 ≤ R) (hR' : R ≤ 2) (hK : K ≤ 2 ^ 40 * (2 ^ 70 * h))
    (hfilled : |f' - (f + t)| ≤ (f + t) / 2 ^ 53 + h) (hf' : 0 ≤ f')
    (hproduct : |w - t * p| ≤ t * p / 2 ^ 53 + h)
    (hnotional : |m' - (m + w)| ≤ (m + w) / 2 ^ 53 + h) (hm : m ≤ P * f * R + K) :
    m' ≤ P * f' * (R + 1 / 2 ^ 49) + (K + 2 ^ 70 * h) := by
  have htp : t * p ≤ P * t := by
    rw [mul_comm]
    exact mul_le_mul_of_nonneg_right hp ht
  have hwTop : w ≤ P * t * (1 + 1 / 2 ^ 53) + h := by
    have := (abs_le.mp hproduct).2
    linarith
  have hmTop : m' ≤ (m + w) * (1 + 1 / 2 ^ 53) + h := by
    have := (abs_le.mp hnotional).2
    linarith
  have hsum : f + t ≤ (f' + h) * (1 + 2 / 2 ^ 53) := by
    have := (abs_le.mp hfilled).1
    linarith
  have hPt : 0 ≤ P * t := mul_nonneg hP ht
  have hPf : 0 ≤ P * f := mul_nonneg hP hf
  have hPf' : 0 ≤ P * f' := mul_nonneg hP hf'
  have hscaled : P * (f + t) ≤ P * ((f' + h) * (1 + 2 / 2 ^ 53)) :=
    mul_le_mul_of_nonneg_left hsum hP
  have hPh : P * h ≤ 2 ^ 65 * h := mul_le_mul_of_nonneg_right hP' hh
  have hPhNonneg : 0 ≤ P * h := mul_nonneg hP hh
  have htR : P * t ≤ P * t * R := le_mul_of_one_le_right hPt hR
  have hfR : P * f ≤ P * f * R := le_mul_of_one_le_right hPf hR
  have hall : P * (f + t) * R ≤ P * ((f' + h) * (1 + 2 / 2 ^ 53)) * R :=
    mul_le_mul_of_nonneg_right hscaled (by linarith)
  have hAR : P * f' * R ≤ P * f' * 2 := mul_le_mul_of_nonneg_left hR' hPf'
  have hBR : P * h * R ≤ P * h * 2 := mul_le_mul_of_nonneg_left hR' hPhNonneg
  linarith

theorem lower_step (hQ : 0 ≤ Q) (hQ' : Q ≤ 2 ^ 65) (hp : Q ≤ p) (ht : 0 ≤ t) (hf : 0 ≤ f)
    (hh : 0 ≤ h) (hR : 0 ≤ R) (hR' : R ≤ 1) (hK : 0 ≤ K)
    (hfilled : |f' - (f + t)| ≤ (f + t) / 2 ^ 53 + h) (hf' : 0 ≤ f')
    (hproduct : |w - t * p| ≤ t * p / 2 ^ 53 + h)
    (hnotional : |m' - (m + w)| ≤ (m + w) / 2 ^ 53 + h) (hm : Q * f * R - K ≤ m) :
    Q * f' * (R - 1 / 2 ^ 49) - (K + 2 ^ 70 * h) ≤ m' := by
  have htp : Q * t ≤ t * p := by
    rw [mul_comm t p]
    exact mul_le_mul_of_nonneg_right hp ht
  have hwLow : Q * t * (1 - 1 / 2 ^ 53) - h ≤ w := by
    have := (abs_le.mp hproduct).1
    linarith
  have hmLow : (m + w) * (1 - 1 / 2 ^ 53) - h ≤ m' := by
    have := (abs_le.mp hnotional).1
    linarith
  have hsum : (f' - h) * (1 - 1 / 2 ^ 53) ≤ f + t := by
    have := (abs_le.mp hfilled).2
    linarith
  have hQt : 0 ≤ Q * t := mul_nonneg hQ ht
  have hQf : 0 ≤ Q * f := mul_nonneg hQ hf
  have hQf' : 0 ≤ Q * f' := mul_nonneg hQ hf'
  have hscaled : Q * ((f' - h) * (1 - 1 / 2 ^ 53)) ≤ Q * (f + t) :=
    mul_le_mul_of_nonneg_left hsum hQ
  have hQh : Q * h ≤ 2 ^ 65 * h := mul_le_mul_of_nonneg_right hQ' hh
  have hQhNonneg : 0 ≤ Q * h := mul_nonneg hQ hh
  have htR : Q * t * R ≤ Q * t := mul_le_of_le_one_right hQt hR'
  have hfR : Q * f * R ≤ Q * f := mul_le_of_le_one_right hQf hR'
  have hfRNonneg : 0 ≤ Q * f * R := mul_nonneg hQf hR
  have htRNonneg : 0 ≤ Q * t * R := mul_nonneg hQt hR
  have hall : Q * ((f' - h) * (1 - 1 / 2 ^ 53)) * R ≤ Q * (f + t) * R :=
    mul_le_mul_of_nonneg_right hscaled hR
  have hAR : Q * f' * R ≤ Q * f' := mul_le_of_le_one_right hQf' hR'
  have hBR : Q * h * R ≤ Q * h := mul_le_of_le_one_right hQhNonneg hR'
  linarith

end Steps

section Walk

open Double (halfTiny halfTiny_pos halfTiny_le le_huge lt_num le_num)

/-- A level of two numbers. -/
def FiniteLevel (lvl : Level) : Prop :=
  ∃ p q : ℚ, lvl.price = .num p ∧ lvl.qty = .num q ∧ p ≤ 2 ^ 64 ∧ q ≤ 2 ^ 64

/-- The floating-point sum of the quantities of the levels that are not passed over. -/
def liquidityFrom (isBuy : Bool) (limit : Option Double) (start : Double) (levels : List Level) :
    Double :=
  (levels.filter (fun lvl => passedOver isBuy limit lvl = false)).foldl
    (fun sum lvl => sum.add lvl.qty) start

/-- The prices of the levels that are not passed over lie between two bounds. -/
def PricesWithin (isBuy : Bool) (limit : Option Double) (Q P : ℚ) (levels : List Level) : Prop :=
  ∀ lvl ∈ levels, passedOver isBuy limit lvl = false →
    ∀ p, lvl.price = .num p → Q ≤ p ∧ p ≤ P

/-- The sums of the walk behind so many levels: the quantity does not exceed the target but for
rounding, nor the liquidity, and the notional stays between two prices but for rounding. -/
structure Sums (T Q P : ℚ) (k : ℕ) (liquidity : Double) (f m : ℚ) : Prop where
  filledNonneg : 0 ≤ f
  filledRounded : Double.ofRat f = .num f
  filledTop : f ≤ T + (T / 2 ^ 52 + 2 * halfTiny)
  notionalNonneg : 0 ≤ m
  upper : m ≤ P * f * (1 + k / 2 ^ 49) + k * (2 ^ 70 * halfTiny)
  lower : Q * f * (1 - k / 2 ^ 49) - k * (2 ^ 70 * halfTiny) ≤ m
  liquid : (Double.num f).position ≤ liquidity.position

variable {isBuy : Bool} {limit : Option Double} {T Q P f m : ℚ} {k : ℕ} {liquidity : Double}

theorem Sums.mono (h : Sums T Q P k liquidity f m) (hQ : 0 ≤ Q) (hP : 0 ≤ P) {k' : ℕ}
    (hk : k ≤ k') {liquidity' : Double} (hliquid : liquidity.position ≤ liquidity'.position) :
    Sums T Q P k' liquidity' f m := by
  have hkq : (k : ℚ) ≤ k' := by exact_mod_cast hk
  have hshare : (k : ℚ) / 2 ^ 49 ≤ k' / 2 ^ 49 := by gcongr
  have hroom : (k : ℚ) * (2 ^ 70 * halfTiny) ≤ k' * (2 ^ 70 * halfTiny) := by
    have := halfTiny_pos
    gcongr
  have hPf := mul_nonneg hP h.filledNonneg
  have hQf := mul_nonneg hQ h.filledNonneg
  refine ⟨h.filledNonneg, h.filledRounded, h.filledTop, h.notionalNonneg, ?_, ?_,
    h.liquid.trans hliquid⟩
  · exact h.upper.trans (add_le_add
      (mul_le_mul_of_nonneg_left (add_le_add le_rfl hshare) hPf) hroom)
  · refine le_trans (sub_le_sub ?_ hroom) h.lower
    exact mul_le_mul_of_nonneg_left (sub_le_sub le_rfl hshare) hQf

theorem filled_step {t d f' : ℚ} (hT : ofRat T = .num T) (hT' : T ≤ 2 ^ 64) (hf : 0 ≤ f)
    (hlt : f < T) (hdouble : ofRat (T - f) = .num d)
    (hd : |d - (T - f)| ≤ (T - f) / 2 ^ 53 + halfTiny) (hd0 : 0 ≤ d)
    (hf' : ofRat (f + t) = .num f') (htd : t ≤ d) :
    f' ≤ T + (T / 2 ^ 52 + 2 * halfTiny) := by
  have hT0 : 0 < T := hf.trans_lt hlt
  have herror : |d - (T - f)| ≤ T / 2 ^ 53 + halfTiny := by
    refine hd.trans (add_le_add ?_ le_rfl)
    gcongr
    linarith
  have hpos : 0 < f + d := by
    rcases hf.eq_or_lt with rfl | hfPos
    · rw [sub_zero, hT] at hdouble
      cases hdouble
      linarith
    · linarith
  have hsmall : halfTiny ≤ 1 := halfTiny_le.trans (by norm_num)
  have htop : f + d ≤ 2 ^ 200 := by
    have := (abs_le.mp herror).2
    linarith
  -- nothing is nearer to the sum than what it is rounded to, the target neither
  obtain ⟨v, hv, -, -⟩ := ofRat_nonneg hpos.le (le_huge htop)
  have hnear := nearest hpos hv hT0 hT
  have hdistance : |T - (f + d)| = |d - (T - f)| := by
    rw [← abs_neg]
    congr 1
    ring
  have hv' : v ≤ f + d + |d - (T - f)| := by
    have := (abs_le.mp (hnear.trans hdistance.le)).2
    linarith
  have hmono : f' ≤ v := by
    have hposition : (ofRat (f + t)).position ≤ (ofRat (f + d)).position :=
      position_ofRat_mono (by linarith)
    rwa [hf', hv, position_num_le_iff] at hposition
  have habove := (abs_le.mp herror).2
  linarith

variable {lvl : Level} {start : Double}

theorem liquidityFrom_cons_of_passed {rest : List Level} (h : passedOver isBuy limit lvl = true) :
    liquidityFrom isBuy limit start (lvl :: rest) = liquidityFrom isBuy limit start rest := by
  simp [liquidityFrom, h]

theorem liquidityFrom_cons_of_kept {rest : List Level} (h : passedOver isBuy limit lvl = false) :
    liquidityFrom isBuy limit start (lvl :: rest) =
      liquidityFrom isBuy limit (start.add lvl.qty) rest := by
  simp [liquidityFrom, h]

theorem pos_of_kept {p q : ℚ} (hprice : lvl.price = .num p) (hqty : lvl.qty = .num q)
    (h : passedOver isBuy limit lvl = false) : 0 < p ∧ 0 < q := by
  unfold passedOver at h
  rw [hprice, hqty] at h
  simp only [Bool.or_eq_false_iff] at h
  obtain ⟨⟨hq, hp⟩, -⟩ := h
  have hnot : ∀ r : ℚ, (num r).le .zero = false → 0 < r := by
    intro r hr
    by_contra hle
    rw [show (num r).le .zero = true from le_num.mpr (not_lt.mp hle)] at hr
    cases hr
  exact ⟨hnot p hp, hnot q hq⟩

theorem position_le_liquidityFrom {levels : List Level} (hfinite : ∀ lvl ∈ levels, FiniteLevel lvl)
    (hstart : Double.Rounded start) :
    start.position ≤ (liquidityFrom isBuy limit start levels).position := by
  induction levels generalizing start with
  | nil => exact le_rfl
  | cons lvl rest ih =>
      obtain ⟨hlvl, hrest⟩ := forall_mem_cons.mp hfinite
      cases hpassed : passedOver isBuy limit lvl with
      | true =>
          rw [liquidityFrom_cons_of_passed hpassed]
          exact ih hrest hstart
      | false =>
          obtain ⟨p, q, hp, hq, -, -⟩ := hlvl
          rw [liquidityFrom_cons_of_kept hpassed, hq]
          exact (position_le_add hstart (pos_of_kept hp hq hpassed).2.le).trans
            (ih hrest (rounded_add _ _))

theorem taken_spec {q d : ℚ} (hqty : lvl.qty = .num q) (hq0 : 0 < q)
    (hd : ofRat (T - f) = .num d) (hd0 : 0 ≤ d) :
    ∃ t : ℚ, lvl.qty.min ((num T).sub (.num f)) = .num t ∧ t ≤ d ∧ t ≤ q ∧ 0 ≤ t := by
  have hmin : lvl.qty.min ((num T).sub (.num f)) =
      if (num d).lt (.num q) then .num d else .num q := by
    rw [hqty, show (num T).sub (.num f) = .num d from hd]
    rfl
  by_cases hless : d < q
  · exact ⟨d, by rw [hmin, if_pos (lt_num.mpr hless)], le_rfl, hless.le, hd0⟩
  · refine ⟨q, ?_, not_lt.mp hless, le_rfl, hq0.le⟩
    rw [hmin, if_neg (fun h => hless (lt_num.mp h))]

theorem notional_le {r K : ℚ} (hP : 0 ≤ P) (hP' : P ≤ 2 ^ 65) (hf : 0 ≤ f) (hf' : f ≤ 2 ^ 65)
    (hr : r ≤ 1 / 2) (hK : K ≤ 2 ^ 40 * (2 ^ 70 * halfTiny)) (h : m ≤ P * f * (1 + r) + K) :
    m ≤ 2 ^ 140 := by
  have htiny : halfTiny ≤ 1 / 2 ^ 200 := halfTiny_le
  have hPf : P * f ≤ 2 ^ 65 * 2 ^ 65 := mul_le_mul hP' hf' hf (by norm_num)
  have hshared : P * f * (1 + r) ≤ P * f * 2 :=
    mul_le_mul_of_nonneg_left (by linarith) (mul_nonneg hP hf)
  linarith

theorem take_step {p q : ℚ} (hT : ofRat T = .num T) (hT' : T ≤ 2 ^ 64) (hQ : 0 ≤ Q)
    (hP' : P ≤ 2 ^ 65) (hk : k < 2 ^ 32) (h : Sums T Q P k liquidity f m) (hlt : f < T)
    (hprice : lvl.price = .num p) (hqty : lvl.qty = .num q) (hp0 : 0 < p) (hq0 : 0 < q)
    (hpTop : p ≤ 2 ^ 64) (hbounds : Q ≤ p ∧ p ≤ P) :
    ∃ f' m', ((num f).add (lvl.qty.min ((num T).sub (.num f))),
        (num m).add ((lvl.qty.min ((num T).sub (.num f))).mul lvl.price)) = (num f', num m') ∧
      Sums T Q P (k + 1) (liquidity.add lvl.qty) f' m' := by
  obtain ⟨hf, hfRound, hfTop, hm, hupper, hlower, hliquid⟩ := h
  have hP : 0 ≤ P := hp0.le.trans hbounds.2
  have hQ' : Q ≤ 2 ^ 65 := hbounds.1.trans (hbounds.2.trans hP')
  have htiny := halfTiny_pos
  have htinyTop : halfTiny ≤ 1 / 2 ^ 200 := halfTiny_le
  have hkq : (k : ℚ) ≤ 2 ^ 32 := by exact_mod_cast hk.le
  have hknn : (0 : ℚ) ≤ k := Nat.cast_nonneg k
  -- what is missing
  obtain ⟨d, hd, hd0, hdError⟩ := ofRat_nonneg (sub_nonneg.mpr hlt.le)
    (le_huge (by linarith : T - f ≤ 2 ^ 200))
  obtain ⟨t, ht, htd, htq, ht0⟩ := taken_spec hqty hq0 hd hd0
  rw [ht, hprice]
  have hdTop : d ≤ 2 ^ 66 := by
    have := (abs_le.mp hdError).2
    linarith
  -- the sums of the next level
  obtain ⟨f', hf', hf'0, hf'Error⟩ := ofRat_nonneg (add_nonneg hf ht0)
    (le_huge (by linarith : f + t ≤ 2 ^ 200))
  have htp0 : 0 ≤ t * p := mul_nonneg ht0 hp0.le
  have htpTop : t * p ≤ 2 ^ 66 * 2 ^ 64 :=
    mul_le_mul (htd.trans hdTop) hpTop hp0.le (by norm_num)
  obtain ⟨w, hw, hw0, hwError⟩ := ofRat_nonneg htp0 (le_huge (htpTop.trans (by norm_num)))
  have hwTop : w ≤ 2 ^ 132 := by
    have := (abs_le.mp hwError).2
    linarith
  have hshare : (k : ℚ) / 2 ^ 49 ≤ 1 / 2 := by
    rw [div_le_iff₀ (by norm_num)]
    linarith
  have hshareNonneg : (0 : ℚ) ≤ k / 2 ^ 49 := by positivity
  have hroom : (k : ℚ) * (2 ^ 70 * halfTiny) ≤ 2 ^ 40 * (2 ^ 70 * halfTiny) := by
    refine mul_le_mul_of_nonneg_right ?_ (by positivity)
    linarith
  have hmTop : m ≤ 2 ^ 140 := notional_le hP hP' hf (by linarith) (by linarith) hroom hupper
  obtain ⟨m', hm', hm'0, hm'Error⟩ := ofRat_nonneg (add_nonneg hm hw0)
    (le_huge (by linarith : m + w ≤ 2 ^ 200))
  refine ⟨f', m', ?_, hf'0, ofRat_idem hf', ?_, hm'0, ?_, ?_, ?_⟩
  · have hfirst : (num f).add (.num t) = .num f' := hf'
    have hsecond : (num t).mul (.num p) = .num w := hw
    have hthird : (num m).add (.num w) = .num m' := hm'
    rw [hfirst, hsecond, hthird]
  · exact filled_step hT hT' hf hlt hd hdError hd0 hf' htd
  · have hstep := upper_step hP hP' hbounds.2 ht0 hf htiny.le
      (by linarith : 1 ≤ 1 + (k : ℚ) / 2 ^ 49) (by linarith) hroom hf'Error hf'0 hwError hm'Error
      hupper
    push_cast
    refine hstep.trans (le_of_eq ?_)
    ring
  · have hstep := lower_step hQ hQ' hbounds.1 ht0 hf htiny.le
      (by linarith : 0 ≤ 1 - (k : ℚ) / 2 ^ 49) (by linarith) (by positivity) hf'Error hf'0 hwError
      hm'Error hlower
    push_cast
    refine le_trans (le_of_eq ?_) hstep
    ring
  · have hadd : (num f).add (.num t) = .num f' := hf'
    rw [← hadd, hqty]
    exact position_add_mono hliquid (position_num_le_iff.mpr htq)

theorem walk_spec (hT : ofRat T = .num T) (hT' : T ≤ 2 ^ 64) (hQ : 0 ≤ Q) (hP : 0 ≤ P)
    (hP' : P ≤ 2 ^ 65) {levels : List Level} (hfinite : ∀ lvl ∈ levels, FiniteLevel lvl)
    (hprices : PricesWithin isBuy limit Q P levels) (hk : k + levels.length ≤ 2 ^ 32)
    (hliquid : Double.Rounded liquidity) (h : Sums T Q P k liquidity f m) :
    ∃ f' m', walk isBuy limit (.num T) levels (.num f, .num m) = (.num f', .num m') ∧
      Sums T Q P (k + levels.length) (liquidityFrom isBuy limit liquidity levels) f' m' := by
  induction levels generalizing k liquidity f m with
  | nil => exact ⟨f, m, rfl, h⟩
  | cons lvl rest ih =>
      obtain ⟨hlvl, hrest⟩ := forall_mem_cons.mp hfinite
      have hpricesRest : PricesWithin isBuy limit Q P rest :=
        fun other hother => hprices other (mem_cons_of_mem _ hother)
      rw [length_cons] at hk ⊢
      by_cases hdone : T ≤ f
      · refine ⟨f, m, ?_, ?_⟩
        · rw [walk, if_pos (le_num.mpr hdone)]
        · exact h.mono hQ hP (Nat.le_add_right _ _) (position_le_liquidityFrom hfinite hliquid)
      have hopen : ¬ (num T).le (.num f) = true := fun hle => hdone (le_num.mp hle)
      cases hpassed : passedOver isBuy limit lvl with
      | true =>
          rw [walk, if_neg hopen, hpassed, if_pos rfl, liquidityFrom_cons_of_passed hpassed]
          obtain ⟨f', m', hwalk, hsums⟩ := ih hrest hpricesRest (by omega) hliquid h
          exact ⟨f', m', hwalk, hsums.mono hQ hP (by omega) le_rfl⟩
      | false =>
          obtain ⟨p, q, hp, hq, hpTop, -⟩ := hlvl
          obtain ⟨hp0, hq0⟩ := pos_of_kept hp hq hpassed
          obtain ⟨f₁, m₁, hstep, hsums⟩ := take_step hT hT' hQ hP' (by omega) h (not_le.mp hdone)
            hp hq hp0 hq0 hpTop (hprices lvl mem_cons_self hpassed p hp)
          obtain ⟨f', m', hwalk, hfinal⟩ := ih hrest hpricesRest (by omega) (rounded_add _ _) hsums
          refine ⟨f', m', ?_, ?_⟩
          · rw [walk, if_neg hopen, hpassed, if_neg (by simp)]
            dsimp only
            rw [hstep, hwalk]
          · rw [liquidityFrom_cons_of_kept hpassed, show k + (rest.length + 1) =
              k + 1 + rest.length by ring]
            exact hfinal

end Walk

end Simulator
end Venues
end ContExchange
