import ContExchange.Venues.SimulatorWalk

/-!
# Venues: the fills of the simulator

* `simulate_cases`: a result is a rejection without a fill, or a fill;
* `fill_limited`: the average price of the walk is within the limit but for rounding;
* `simulate_obeys`: what a fill keeps of the order;
* `simulate_disobeys`: what it does not keep.
-/

namespace ContExchange
namespace Venues
namespace Simulator

open Common List
open Double hiding div mul zero
open Ledger (ExecutionReportStatus)
open Matching (ExecutionStrategy)

section Filled

variable {ρ : Type} {std : LevelSorts} {libm : Libm} {rng : Randomness ρ}
    {request : SimulateRequest}
  {models : SimModels} {snapshot : VenueSnapshot} {result : SimulateResult}

/-- The sums of the walk of an order. -/
def walkOf (std : LevelSorts) (request : SimulateRequest) (snapshot : VenueSnapshot) :
    Double × Double :=
  walk (decide (request.side = .buy)) request.limit (asDouble request.targetQty)
    (extractLevels std snapshot request.side) (Double.zero, Double.zero)

/-- The reported average price before it is rounded. -/
def averageOf (libm : Libm) (request : SimulateRequest) (models : SimModels)
    (filled vwap : Double) : Double :=
  averageWithImpact (decide (request.side = .buy)) vwap (impactDelta libm models.impact filled)

structure IsFill (std : LevelSorts) (libm : Libm) (request : SimulateRequest) (models : SimModels)
    (snapshot : VenueSnapshot) (result : SimulateResult) : Prop where
  positive : (walkOf std request snapshot).1.le Double.zero = false
  filledQty : result.filledQty = d2Dec (walkOf std request snapshot).1
  remainingQty : result.remainingQty =
    d2Dec (Double.zero.max ((asDouble request.targetQty).sub (walkOf std request snapshot).1))
  avgPrice : result.avgPrice = d2Dec (averageOf libm request models (walkOf std request snapshot).1
    ((walkOf std request snapshot).2.div (walkOf std request snapshot).1))
  fee : result.fee = d2Dec (feeOf models.fee request.orderType (walkOf std request snapshot).1
    (averageOf libm request models (walkOf std request snapshot).1
      ((walkOf std request snapshot).2.div (walkOf std request snapshot).1)))
  status : result.status = statusOf request.partialFillMode (walkOf std request snapshot).1
    (asDouble request.targetQty)

theorem simulateWalk_cases {out : SimulateResult} (hout : out.filledQty = .zero)
    (state : ρ) :
    (simulateWalk std libm rng request models snapshot out state).filledQty = .zero ∨
      IsFill std libm request models snapshot
        (simulateWalk std libm rng request models snapshot out state) := by
  unfold simulateWalk
  dsimp only
  split_ifs with hconstraint hnone hthin hrandom htimeout hfee
  · exact .inl hout
  · exact .inl hout
  · exact .inl hout
  · exact .inl hout
  · exact .inl rfl
  · exact .inr ⟨Bool.eq_false_iff.mpr hnone, rfl, rfl, rfl, rfl, rfl⟩
  · exact .inr ⟨Bool.eq_false_iff.mpr hnone, rfl, rfl, rfl, rfl, rfl⟩

theorem simulate_cases (std : LevelSorts) (libm : Libm) (rng : Randomness ρ)
    (request : SimulateRequest)
    (models : SimModels) :
    (simulate std libm rng request models).filledQty = .zero ∨
      ∃ snapshot, request.snapshot = some snapshot ∧
        IsFill std libm request models snapshot (simulate std libm rng request models) := by
  unfold simulate
  by_cases hstale : request.staleThresholdMs < request.lobAgeMs
  · rw [if_pos hstale]
    exact .inl rfl
  rw [if_neg hstale]
  cases hsnapshot : request.snapshot with
  | none => exact .inl rfl
  | some snapshot =>
      dsimp only
      split_ifs with hlimited
      · exact .inl rfl
      · generalize hout : SimulateResult.mk _ _ _ _ _ _ _ _ _ _ _ = out
        have hnone : out.filledQty = .zero := by
          rw [← hout]
        rcases simulateWalk_cases hnone _ with hrejected | hfill
        · exact .inl hrejected
        · exact .inr ⟨snapshot, rfl, hfill⟩

end Filled

/-- Scales that are not negative, and lists whose sizes are of type `int`. -/
structure WellFormed (request : SimulateRequest) (snapshot : VenueSnapshot) : Prop where
  target : 0 ≤ request.targetQty.scale
  limit : 0 ≤ request.limitPrice.scale
  askPrices : ∀ d ∈ snapshot.askPrices, 0 ≤ d.scale
  askQuantities : ∀ d ∈ snapshot.askQuantities, 0 ≤ d.scale
  bidPrices : ∀ d ∈ snapshot.bidPrices, 0 ≤ d.scale
  bidQuantities : ∀ d ∈ snapshot.bidQuantities, 0 ≤ d.scale
  askSize : snapshot.askPrices.length < 2 ^ 31
  bidSize : snapshot.bidPrices.length < 2 ^ 31

/-- An average price within a limit, but for the rounding of so many levels. -/
def WithinLimit (side : Side) (limit vwap : ℚ) (levels : ℕ) : Prop :=
  if side = .buy then
    vwap ≤ limit * (1 + (levels + 2) / 2 ^ 49) + (levels + 2) * (2 : ℚ) ^ (-975 : Int)
  else limit * (1 - (levels + 2) / 2 ^ 49) - (levels + 2) * (2 : ℚ) ^ (-975 : Int) ≤ vwap

/-- What a fill of a quantity at an average price before the impact keeps of the order. -/
structure ObeysOrder (std : LevelSorts) (libm : Libm) (request : SimulateRequest)
    (models : SimModels)
    (snapshot : VenueSnapshot) (result : SimulateResult) (filled vwap : ℚ) : Prop where
  filledQty : result.filledQty = d2Dec (.num filled)
  within : result.filledQty.toRat ≤
    request.targetQty.toRat * (1 + 1 / 2 ^ 48) + 1 / (2 * 10 ^ 8)
  conserved : request.targetQty.toRat ≤ 9 * 10 ^ 10 →
    |result.filledQty.toRat + result.remainingQty.toRat - request.targetQty.toRat| ≤
      1 / 10 ^ 8 + request.targetQty.toRat / 2 ^ 48
  liquid : (Double.num filled).le (liquidityFrom (decide (request.side = .buy)) request.limit
    Double.zero (extractLevels std snapshot request.side)) = true
  avgPrice : result.avgPrice =
    d2Dec (averageOf libm request models (.num filled) (.num vwap))
  vwapNonneg : 0 ≤ vwap
  limited : request.limit.isSome = true → WithinLimit request.side request.limitPrice.toRat vwap
    (extractLevels std snapshot request.side).length
  fee : (Double.zero.lt (asDouble models.fee.minFee) = true ∨
      (0 ≤ feeBps models.fee request.orderType ∧
        Double.zero.le (averageOf libm request models (.num filled) (.num vwap)) = true)) →
    0 ≤ result.fee.units ∨ result.fee.units = int64Min
  status : result.status = .filled ∨
    result.status = if request.partialFillMode = .none then .underfilled else .partiallyFilled
  whole : result.status = .filled → result.remainingQty.units = 0
  unfinished : result.status ≠ .filled →
    filled + 9 / 10 ^ 10 < request.targetQty.toRat * (1 + 1 / 2 ^ 50)

section Orders

open Double (halfTiny halfTiny_pos halfTiny_le le_huge lt_num le_num ofRat_ne_nan)

variable {ρ : Type} {std : LevelSorts} {libm : Libm} {rng : Randomness ρ}
    {request : SimulateRequest}
  {models : SimModels} {snapshot : VenueSnapshot} {isBuy : Bool} {limit : Option Double}
  {d : Decimal} {x q : ℚ}

theorem units_pos_of_asDouble (h : asDouble d = .num x) (hx : 0 < x) : 0 < d.units := by
  obtain ⟨a, b, ha, hb, hproduct⟩ := mul_eq_num h
  by_contra hnot
  have hunits : (ofRat d.units).position ≤ (num 0).position := by
    have hle : ((d.units : Int) : ℚ) ≤ 0 := by exact_mod_cast not_lt.mp hnot
    exact position_ofRat_mono hle
  have hpow : (num 0).position ≤ (ofRat ((10 : ℚ) ^ (-d.scale))).position :=
    position_ofRat_mono (Decimal.pow10_pos (-d.scale)).le
  rw [ha, position_num_le_iff] at hunits
  rw [hb, position_num_le_iff] at hpow
  have hle : (ofRat (a * b)).position ≤ (num 0).position :=
    position_ofRat_mono (mul_nonpos_of_nonpos_of_nonneg hunits hpow)
  rw [hproduct, position_num_le_iff] at hle
  exact absurd hx (not_lt.mpr hle)

theorem asDouble_pos (hscale : 0 ≤ d.scale) (h : asDouble d = .num x) (hx : 0 < x) :
    0 < d.toRat ∧ d.toRat ≤ 2 ^ 63 ∧ |x - d.toRat| ≤ d.toRat / 2 ^ 51 + 2 ^ 65 * halfTiny := by
  have hunits : (0 : ℚ) < d.units := by exact_mod_cast units_pos_of_asDouble h hx
  have hpow : (10 : ℚ) ^ (-d.scale) ≤ 1 := zpow_le_one_of_nonpos₀ (by norm_num) (by omega)
  have hpos : 0 < d.toRat := mul_pos hunits (Decimal.pow10_pos _)
  have htop : d.toRat ≤ 2 ^ 63 := by
    have habs : |(d.units : ℚ)| ≤ 2 ^ 63 := by exact_mod_cast d.abs_units_le
    exact (mul_le_of_le_one_right hunits.le hpow).trans ((le_abs_self _).trans habs)
  obtain ⟨v, hv, herror⟩ := asDouble_spec hscale
  rw [h] at hv
  cases hv
  rw [abs_of_pos hpos] at herror
  exact ⟨hpos, htop, herror⟩

theorem asDouble_le (hscale : 0 ≤ d.scale) : ∃ x, asDouble d = .num x ∧ x ≤ 2 ^ 64 := by
  obtain ⟨x, hx, -⟩ := asDouble_spec hscale
  refine ⟨x, hx, ?_⟩
  rcases le_or_gt x 0 with hneg | hpos
  · exact hneg.trans (by norm_num)
  · obtain ⟨hvalue, htop, herror⟩ := asDouble_pos hscale hx hpos
    have hupper := (abs_le.mp herror).2
    have htiny : halfTiny ≤ 1 / 2 ^ 200 := halfTiny_le
    linarith

variable {lvl : Level}

theorem finiteLevel_of_mem_zipWith {prices quantities : List Decimal}
    (hprices : ∀ d ∈ prices, 0 ≤ d.scale) (hquantities : ∀ d ∈ quantities, 0 ≤ d.scale)
    (h : lvl ∈ List.zipWith
      (fun p q => ({ price := asDouble p, qty := asDouble q } : Level)) prices quantities) :
    FiniteLevel lvl := by
  obtain ⟨i, hi, rfl⟩ := getElem_of_mem h
  rw [length_zipWith, lt_inf_iff] at hi
  rw [getElem_zipWith]
  obtain ⟨p, hp, hpTop⟩ := asDouble_le (hprices _ (getElem_mem hi.1))
  obtain ⟨q, hq, hqTop⟩ := asDouble_le (hquantities _ (getElem_mem hi.2))
  exact ⟨p, q, hp, hq, hpTop, hqTop⟩

theorem finiteLevel_of_mem_extractLevels (std : LevelSorts) (hformed : WellFormed request snapshot)
    (side : Side) :
    ∀ lvl ∈ extractLevels std snapshot side, FiniteLevel lvl := by
  intro lvl hlvl
  unfold extractLevels at hlvl
  split_ifs at hlvl
  · rw [(std.asks.perm _).mem_iff] at hlvl
    exact finiteLevel_of_mem_zipWith hformed.askPrices hformed.askQuantities hlvl
  · rw [(std.bids.perm _).mem_iff] at hlvl
    exact finiteLevel_of_mem_zipWith hformed.bidPrices hformed.bidQuantities hlvl

theorem length_extractLevels_lt (std : LevelSorts) (hformed : WellFormed request snapshot)
    (side : Side) :
    (extractLevels std snapshot side).length < 2 ^ 31 := by
  unfold extractLevels
  split_ifs
  · rw [(std.asks.perm _).length_eq, length_zipWith]
    exact (min_le_left _ _).trans_lt hformed.askSize
  · rw [(std.bids.perm _).length_eq, length_zipWith]
    exact (min_le_left _ _).trans_lt hformed.bidSize

theorem upper_quotient {L P f m v r K h : ℚ} (hL : 0 ≤ L) (hf : 1 / 2 ^ 28 ≤ f) (hh : 0 ≤ h)
    (hr : 0 ≤ r) (hr' : r ≤ 1 / 2 ^ 17) (hK : 0 ≤ K) (hP : P ≤ L * (1 + 1 / 2 ^ 51) + 2 ^ 65 * h)
    (hm : m ≤ P * f * (1 + r) + K) (hv : |v - m / f| ≤ m / f / 2 ^ 53 + h) :
    v ≤ L * (1 + (r + 2 / 2 ^ 49)) + (2 ^ 29 * K + 2 ^ 70 * h) := by
  have hfPos : 0 < f := lt_of_lt_of_le (by norm_num) hf
  have hquotient : m / f ≤ P * (1 + r) + 2 ^ 28 * K := by
    rw [div_le_iff₀ hfPos]
    have hKf : K ≤ K * f * 2 ^ 28 := by
      have := mul_le_mul_of_nonneg_left hf hK
      linarith
    linarith
  have hvTop : v ≤ m / f * (1 + 1 / 2 ^ 53) + h := by
    have := (abs_le.mp hv).2
    linarith
  have hPr : P * r ≤ (L * (1 + 1 / 2 ^ 51) + 2 ^ 65 * h) * r := mul_le_mul_of_nonneg_right hP hr
  have hLr : L * r ≤ L * (1 / 2 ^ 17) := mul_le_mul_of_nonneg_left hr' hL
  have hhr : h * r ≤ h * (1 / 2 ^ 17) := mul_le_mul_of_nonneg_left hr' hh
  linarith

theorem lower_quotient {L Q f m v r K h : ℚ} (hL : 0 ≤ L) (hf : 1 / 2 ^ 28 ≤ f) (hh : 0 ≤ h)
    (hr : 0 ≤ r) (hr' : r ≤ 1 / 2 ^ 17) (hK : 0 ≤ K) (hQ : L * (1 - 1 / 2 ^ 51) - 2 ^ 65 * h ≤ Q)
    (hm : Q * f * (1 - r) - K ≤ m) (hv : |v - m / f| ≤ m / f / 2 ^ 53 + h) :
    L * (1 - (r + 2 / 2 ^ 49)) - (2 ^ 29 * K + 2 ^ 70 * h) ≤ v := by
  have hfPos : 0 < f := lt_of_lt_of_le (by norm_num) hf
  have hquotient : Q * (1 - r) - 2 ^ 28 * K ≤ m / f := by
    rw [le_div_iff₀ hfPos]
    have hKf : K ≤ K * f * 2 ^ 28 := by
      have := mul_le_mul_of_nonneg_left hf hK
      linarith
    linarith
  have hvLow : m / f * (1 - 1 / 2 ^ 53) - h ≤ v := by
    have := (abs_le.mp hv).1
    linarith
  have hQr : (L * (1 - 1 / 2 ^ 51) - 2 ^ 65 * h) * (1 - r) ≤ Q * (1 - r) :=
    mul_le_mul_of_nonneg_right hQ (by linarith)
  have hLr0 : 0 ≤ L * r := mul_nonneg hL hr
  have hhr0 : 0 ≤ h * r := mul_nonneg hh hr
  linarith

theorem room_eq (k : ℕ) :
    2 ^ 29 * ((k : ℚ) * (2 ^ 70 * halfTiny)) + 2 ^ 70 * halfTiny ≤
      (k + 2) * (2 : ℚ) ^ (-975 : Int) := by
  have hpow : (2 : ℚ) ^ (-975 : Int) = 2 ^ 100 * halfTiny := by
    rw [halfTiny, show (-975 : Int) = (100 : ℕ) + -1075 from rfl, zpow_add₀ two_ne_zero,
      zpow_natCast]
  have hpos := halfTiny_pos
  have hk : 0 ≤ (k : ℚ) * halfTiny := mul_nonneg (Nat.cast_nonneg k) hpos.le
  rw [hpow]
  linarith

theorem kept_of_liquid {levels : List Level} {liquidity : Double}
    (h : liquidity.position < (liquidityFrom isBuy limit liquidity levels).position) :
    ∃ lvl ∈ levels, passedOver isBuy limit lvl = false := by
  by_contra hnone
  push Not at hnone
  have hempty : levels.filter (fun lvl => passedOver isBuy limit lvl = false) = [] := by
    rw [filter_eq_nil_iff]
    intro lvl hlvl
    rw [decide_eq_true_eq]
    exact hnone lvl hlvl
  rw [liquidityFrom, hempty] at h
  exact lt_irrefl _ h

theorem liquidityFrom_ne_nan {levels : List Level} (hfinite : ∀ lvl ∈ levels, FiniteLevel lvl)
    {start : Double} (hstart : start ≠ .nan) : liquidityFrom isBuy limit start levels ≠ .nan := by
  induction levels generalizing start with
  | nil => exact hstart
  | cons lvl rest ih =>
      obtain ⟨⟨p, q, hp, hq, -, -⟩, hrest⟩ := forall_mem_cons.mp hfinite
      cases hpassed : passedOver isBuy limit lvl with
      | true =>
          rw [liquidityFrom_cons_of_passed hpassed]
          exact ih hrest hstart
      | false =>
          rw [liquidityFrom_cons_of_kept hpassed, hq]
          refine ih hrest ?_
          cases start with
          | nan => exact absurd rfl hstart
          | inf negative => exact fun h => by cases h
          | num x => exact ofRat_ne_nan _

theorem le_limit_of_kept {p bound : ℚ} (hprice : lvl.price = .num p)
    (h : passedOver true (some (.num bound)) lvl = false) : p ≤ bound := by
  unfold passedOver at h
  rw [Bool.or_eq_false_iff, hprice] at h
  refine not_lt.mp fun hlt => ?_
  have habove : (num bound).lt (.num p) = false := h.2
  rw [lt_num.mpr hlt] at habove
  cases habove

theorem limit_le_of_kept {p bound : ℚ} (hprice : lvl.price = .num p)
    (h : passedOver false (some (.num bound)) lvl = false) : bound ≤ p := by
  unfold passedOver at h
  rw [Bool.or_eq_false_iff, hprice] at h
  refine not_lt.mp fun hlt => ?_
  have hbelow : (num p).lt (.num bound) = false := h.2
  rw [lt_num.mpr hlt] at hbelow
  cases hbelow

variable {T Q P f m t : ℚ}

theorem pricesWithin_extractLevels (std : LevelSorts) (hformed : WellFormed request snapshot) :
    PricesWithin isBuy limit 0 (2 ^ 64) (extractLevels std snapshot request.side) := by
  intro lvl hlvl hkept p hp
  obtain ⟨p', q, hp', hq, hpTop, -⟩ :=
    finiteLevel_of_mem_extractLevels std hformed request.side lvl hlvl
  rw [hp] at hp'
  cases hp'
  exact ⟨(pos_of_kept hp hq hkept).1.le, hpTop⟩

theorem asDouble_target_le (hformed : WellFormed request snapshot)
    (htarget : asDouble request.targetQty = .num T) : T ≤ 2 ^ 64 := by
  obtain ⟨T', hT', hTop⟩ := asDouble_le hformed.target
  rw [htarget] at hT'
  cases hT'
  exact hTop

theorem walkOf_spec (hformed : WellFormed request snapshot)
    (htarget : asDouble request.targetQty = .num T) (hT : 0 < T) (hQ : 0 ≤ Q) (hP : 0 ≤ P)
    (hP' : P ≤ 2 ^ 65)
    (hprices : PricesWithin (decide (request.side = .buy)) request.limit Q P
      (extractLevels std snapshot request.side)) :
    ∃ f m, walkOf std request snapshot = (.num f, .num m) ∧
      Sums T Q P (extractLevels std snapshot request.side).length
        (liquidityFrom (decide (request.side = .buy)) request.limit .zero
          (extractLevels std snapshot request.side)) f m := by
  have htiny := halfTiny_pos
  have hstart : Sums T Q P 0 .zero 0 0 := by
    refine ⟨le_rfl, rfl, ?_, le_rfl, ?_, ?_, le_rfl⟩
    · linarith
    · rw [mul_zero, zero_mul, Nat.cast_zero, zero_mul, add_zero]
    · rw [mul_zero, zero_mul, Nat.cast_zero, zero_mul, sub_zero]
  have hlength := length_extractLevels_lt std hformed request.side
  obtain ⟨f, m, hwalk, hsums⟩ := walk_spec (rounded_asDouble request.targetQty T htarget)
    (asDouble_target_le hformed htarget) hQ hP hP'
    (finiteLevel_of_mem_extractLevels std hformed request.side) hprices (by omega)
    rounded_zero hstart
  rw [Nat.zero_add] at hsums
  refine ⟨f, m, ?_, hsums⟩
  unfold walkOf
  rw [htarget]
  exact hwalk

theorem walkOf_of_nonpos (htarget : asDouble request.targetQty = .num T) (hT : T ≤ 0) :
    walkOf std request snapshot = (.zero, .zero) := by
  unfold walkOf
  rw [htarget]
  cases extractLevels std snapshot request.side with
  | nil => rfl
  | cons lvl rest =>
      have hdone : (num T).le .zero = true := le_num.mpr hT
      rw [walk, if_pos hdone]

theorem fill_walk (hformed : WellFormed request snapshot)
    (hpositive : (walkOf std request snapshot).1.le .zero = false) :
    ∃ T f m, asDouble request.targetQty = .num T ∧ 0 < T ∧
      walkOf std request snapshot = (.num f, .num m) ∧
      Sums T 0 (2 ^ 64) (extractLevels std snapshot request.side).length
        (liquidityFrom (decide (request.side = .buy)) request.limit .zero
          (extractLevels std snapshot request.side)) f m := by
  obtain ⟨T, htarget, -⟩ := asDouble_le hformed.target
  have hT : 0 < T := by
    by_contra hnot
    rw [walkOf_of_nonpos htarget (not_lt.mp hnot)] at hpositive
    cases hpositive
  obtain ⟨f, m, hwalk, hsums⟩ := walkOf_spec hformed htarget hT le_rfl (by norm_num)
    (by norm_num) (pricesWithin_extractLevels std hformed)
  exact ⟨T, f, m, htarget, hT, hwalk, hsums⟩

theorem fill_sums (hformed : WellFormed request snapshot)
    (htarget : asDouble request.targetQty = .num T) (hT : 0 < T)
    (hwalk : walkOf std request snapshot = (.num f, .num m)) (hQ : 0 ≤ Q) (hP : 0 ≤ P)
    (hP' : P ≤ 2 ^ 65)
    (hprices : PricesWithin (decide (request.side = .buy)) request.limit Q P
      (extractLevels std snapshot request.side)) :
    Sums T Q P (extractLevels std snapshot request.side).length
      (liquidityFrom (decide (request.side = .buy)) request.limit .zero
        (extractLevels std snapshot request.side)) f m := by
  obtain ⟨f', m', hwalk', hsums⟩ := walkOf_spec hformed htarget hT hQ hP hP' hprices
  rw [hwalk] at hwalk'
  cases hwalk'
  exact hsums

theorem le_of_shown (hf : 0 ≤ f) (hf' : f ≤ 2 ^ 66) (hshown : 0 < (d2Dec (.num f)).units) :
    1 / 2 ^ 28 ≤ f ∧
      |(d2Dec (.num f)).toRat - f| ≤ 1 / (2 * 10 ^ 8) + f / 2 ^ 49 + 2 ^ 10 * halfTiny := by
  have hfits : (d2Dec (.num f)).units ≠ int64Min := by
    unfold int64Min
    omega
  have herror := d2Dec_error hf (hf'.trans (by norm_num)) hfits
  refine ⟨?_, herror⟩
  have hvalue : (1 : ℚ) / 10 ^ 8 ≤ (d2Dec (.num f)).toRat := by
    have hone : (1 : ℚ) ≤ (d2Dec (.num f)).units := by exact_mod_cast hshown
    rw [Decimal.toRat, show (d2Dec (.num f)).scale = 8 from rfl, div_eq_mul_inv]
    refine mul_le_mul hone (le_of_eq ?_) (by norm_num) (by linarith)
    norm_num
  have hupper := (abs_le.mp herror).2
  have htiny : halfTiny ≤ 1 / 2 ^ 200 := halfTiny_le
  linarith

theorem fill_vwap {k : ℕ} {liquidity : Double} (hk : k < 2 ^ 31)
    (hsums : Sums T 0 (2 ^ 64) k liquidity f m) (hfLow : 1 / 2 ^ 28 ≤ f) :
    ∃ v, (num m).div (.num f) = .num v ∧ 0 ≤ v ∧
      |v - m / f| ≤ m / f / 2 ^ 53 + halfTiny := by
  have hfPos : 0 < f := lt_of_lt_of_le (by norm_num) hfLow
  have hkq : (k : ℚ) ≤ 2 ^ 31 := by exact_mod_cast hk.le
  have hroom : (k : ℚ) * (2 ^ 70 * halfTiny) ≤ 2 ^ 31 * (2 ^ 70 * (1 / 2 ^ 200)) :=
    mul_le_mul hkq (mul_le_mul_of_nonneg_left halfTiny_le (by norm_num))
      (mul_nonneg (by norm_num) halfTiny_pos.le) (by norm_num)
  have hquotient : m / f ≤ 2 ^ 66 := by
    rw [div_le_iff₀ hfPos]
    have hupper := hsums.upper
    have hshared : 2 ^ 64 * f * (1 + (k : ℚ) / 2 ^ 49) ≤ 2 ^ 64 * f * 2 :=
      mul_le_mul_of_nonneg_left (by linarith) (by positivity)
    linarith
  obtain ⟨v, hv, hv0, herror⟩ := ofRat_nonneg
    (div_nonneg hsums.notionalNonneg hfPos.le) (le_huge (hquotient.trans (by norm_num)))
  refine ⟨v, ?_, hv0, herror⟩
  rw [← hv]
  exact if_pos hfPos.ne'

theorem limit_eq (h : request.limit.isSome = true) :
    request.limit = some (asDouble request.limitPrice) := by
  unfold SimulateRequest.limit at h ⊢
  split_ifs at h ⊢
  · rfl
  · cases h

theorem levels_share (std : LevelSorts) (hformed : WellFormed request snapshot) :
    0 ≤ ((extractLevels std snapshot request.side).length : ℚ) / 2 ^ 49 ∧
      ((extractLevels std snapshot request.side).length : ℚ) / 2 ^ 49 ≤ 1 / 2 ^ 17 ∧
      0 ≤ ((extractLevels std snapshot request.side).length : ℚ) * (2 ^ 70 * halfTiny) := by
  have hk : ((extractLevels std snapshot request.side).length : ℚ) ≤ 2 ^ 31 := by
    exact_mod_cast (length_extractLevels_lt std hformed request.side).le
  refine ⟨by positivity, ?_, ?_⟩
  · linarith
  · exact mul_nonneg (Nat.cast_nonneg _) (mul_nonneg (by norm_num) halfTiny_pos.le)

theorem bound_pos_of_taken {bound : ℚ} (hformed : WellFormed request snapshot)
    (htarget : asDouble request.targetQty = .num T) (hT : 0 < T)
    (hwalk : walkOf std request snapshot = (.num f, .num m)) (hf : 0 < f)
    (hbuy : request.side = .buy)
    (hlimit : request.limit = some (.num bound)) : 0 < bound := by
  have hwide := fill_sums hformed htarget hT hwalk le_rfl (by norm_num) (by norm_num)
    (pricesWithin_extractLevels std hformed)
  have hliquid : Double.zero.position < (liquidityFrom (decide (request.side = .buy))
      request.limit .zero (extractLevels std snapshot request.side)).position :=
    lt_of_lt_of_le (lt_of_not_ge fun hle =>
      absurd (position_num_le_iff.mp hle) (not_le.mpr hf)) hwide.liquid
  obtain ⟨lvl, hlvl, hkept⟩ := kept_of_liquid hliquid
  obtain ⟨p, q, hp, hq, -, -⟩ := finiteLevel_of_mem_extractLevels std hformed request.side lvl hlvl
  rw [hlimit, decide_eq_true hbuy] at hkept
  exact (pos_of_kept hp hq hkept).1.trans_le (le_limit_of_kept hp hkept)

variable {V : ℚ}

section Limited

variable (hformed : WellFormed request snapshot) (htarget : asDouble request.targetQty = .num T)
  (hT : 0 < T) (hwalk : walkOf std request snapshot = (.num f, .num m)) (hfLow : 1 / 2 ^ 28 ≤ f)
  (hV : |V - m / f| ≤ m / f / 2 ^ 53 + halfTiny)

include hformed htarget hT hwalk hfLow hV

theorem fill_limited_buy (hlimit : request.limit = some (asDouble request.limitPrice))
    (hbuy : request.side = .buy) :
    V ≤ request.limitPrice.toRat *
        (1 + ((extractLevels std snapshot request.side).length + 2) / 2 ^ 49) +
      ((extractLevels std snapshot request.side).length + 2) * (2 : ℚ) ^ (-975 : Int) := by
  have hfPos : 0 < f := lt_of_lt_of_le (by norm_num) hfLow
  obtain ⟨hshareNonneg, hshare, hKNonneg⟩ := levels_share std hformed
  obtain ⟨bound, hbound, hboundTop⟩ := asDouble_le hformed.limit
  rw [hbound] at hlimit
  have hboundPos := bound_pos_of_taken hformed htarget hT hwalk hfPos hbuy hlimit
  obtain ⟨hL, -, hLError⟩ := asDouble_pos hformed.limit hbound hboundPos
  have hkeptBounds : PricesWithin (decide (request.side = .buy)) request.limit 0 bound
      (extractLevels std snapshot request.side) := by
    intro other hother hkept p hp
    obtain ⟨hlow, -⟩ := pricesWithin_extractLevels std hformed other hother hkept p hp
    rw [hlimit, decide_eq_true hbuy] at hkept
    exact ⟨hlow, le_limit_of_kept hp hkept⟩
  have hsums := fill_sums hformed htarget hT hwalk le_rfl hboundPos.le
    (hboundTop.trans (by norm_num)) hkeptBounds
  have hupper := (abs_le.mp hLError).2
  have habove := upper_quotient hL.le hfLow halfTiny_pos.le hshareNonneg hshare hKNonneg
    (by linarith) hsums.upper hV
  have hroom := room_eq (extractLevels std snapshot request.side).length
  linarith

theorem fill_limited_sell (hV0 : 0 ≤ V)
    (hlimit : request.limit = some (asDouble request.limitPrice)) (hsell : request.side ≠ .buy) :
    request.limitPrice.toRat *
        (1 - ((extractLevels std snapshot request.side).length + 2) / 2 ^ 49) -
      ((extractLevels std snapshot request.side).length + 2) * (2 : ℚ) ^ (-975 : Int) ≤ V := by
  obtain ⟨hshareNonneg, hshare, hKNonneg⟩ := levels_share std hformed
  obtain ⟨bound, hbound, herror⟩ := asDouble_spec hformed.limit
  rw [hbound] at hlimit
  have hkeptBounds : PricesWithin (decide (request.side = .buy)) request.limit (max bound 0)
      (2 ^ 64) (extractLevels std snapshot request.side) := by
    intro other hother hkept p hp
    obtain ⟨hlow, hhigh⟩ := pricesWithin_extractLevels std hformed other hother hkept p hp
    rw [hlimit, decide_eq_false hsell] at hkept
    exact ⟨max_le (limit_le_of_kept hp hkept) hlow, hhigh⟩
  have hsums := fill_sums hformed htarget hT hwalk (le_max_right _ _) (by norm_num)
    (by norm_num) hkeptBounds
  have hroom := room_eq (extractLevels std snapshot request.side).length
  rcases le_or_gt request.limitPrice.toRat 0 with hneg | hL
  · have hfactor : 0 ≤ 1 - (((extractLevels std snapshot request.side).length : ℚ) / 2 ^ 49 +
        2 / 2 ^ 49) := by linarith
    have hproduct := mul_nonpos_of_nonpos_of_nonneg hneg hfactor
    have htiny := halfTiny_pos
    linarith
  · rw [abs_of_pos hL] at herror
    have hlower := (abs_le.mp herror).1
    have hmax : bound ≤ max bound 0 := le_max_left _ _
    have hbelow := lower_quotient hL.le hfLow halfTiny_pos.le hshareNonneg hshare hKNonneg
      (by linarith) hsums.lower hV
    linarith

theorem fill_limited (hV0 : 0 ≤ V) (hlimit : request.limit.isSome = true) :
    WithinLimit request.side request.limitPrice.toRat V
      (extractLevels std snapshot request.side).length := by
  unfold WithinLimit
  split_ifs with hbuy
  · exact fill_limited_buy hformed htarget hT hwalk hfLow hV (limit_eq hlimit) hbuy
  · exact fill_limited_sell hformed htarget hT hwalk hfLow hV hV0 (limit_eq hlimit) hbuy

end Limited

theorem shown_le {F h : ℚ} (hh : h ≤ 1 / 2 ^ 200) (ht : 1 / 2 ^ 29 ≤ t)
    (hT : |T - t| ≤ t / 2 ^ 51 + 2 ^ 65 * h) (hf : f ≤ T + (T / 2 ^ 52 + 2 * h))
    (hF : |F - f| ≤ 1 / (2 * 10 ^ 8) + f / 2 ^ 49 + 2 ^ 10 * h) :
    F ≤ t * (1 + 1 / 2 ^ 48) + 1 / (2 * 10 ^ 8) := by
  have hTTop := (abs_le.mp hT).2
  have hFTop := (abs_le.mp hF).2
  linarith

theorem shown_conserved {F r R h : ℚ} (hh : h ≤ 1 / 2 ^ 200) (ht : 1 / 2 ^ 29 ≤ t)
    (hT : |T - t| ≤ t / 2 ^ 51 + 2 ^ 65 * h)
    (hF : |F - f| ≤ 1 / (2 * 10 ^ 8) + f / 2 ^ 49 + 2 ^ 10 * h)
    (hr : |r - (T - f)| ≤ T / 2 ^ 52 + 2 * h)
    (hR : |R - r| ≤ 1 / (2 * 10 ^ 8) + r / 2 ^ 49 + 2 ^ 10 * h) :
    |F + R - t| ≤ 1 / 10 ^ 8 + t / 2 ^ 48 := by
  have hTBounds := abs_le.mp hT
  have hFBounds := abs_le.mp hF
  have hrBounds := abs_le.mp hr
  have hRBounds := abs_le.mp hR
  rw [abs_le]
  constructor <;> linarith

theorem remaining_spec (hT : 0 < T) (hT' : T ≤ 2 ^ 64) (hf0 : 0 ≤ f)
    (hf : f ≤ T + (T / 2 ^ 52 + 2 * halfTiny)) :
    ∃ r, Double.zero.max ((num T).sub (.num f)) = .num r ∧ 0 ≤ r ∧
      |r - (T - f)| ≤ T / 2 ^ 52 + 2 * halfTiny ∧
      ∀ c, 0 ≤ c → T - f ≤ c → r ≤ c * (1 + 1 / 2 ^ 53) + halfTiny := by
  have htiny := halfTiny_pos
  rcases le_total f T with hle | hle
  · obtain ⟨r, hr, hr0, herror⟩ := ofRat_nonneg (sub_nonneg.mpr hle)
      (le_huge (by linarith : T - f ≤ 2 ^ 200))
    refine ⟨r, ?_, hr0, ?_, fun c hc hle => ?_⟩
    · rw [show (num T).sub (.num f) = .num r from hr]
      unfold Double.max
      split_ifs with hlt
      · rfl
      · have hnot : ¬0 < r := fun hpos => hlt (lt_num.mpr hpos)
        rw [le_antisymm (not_lt.mp hnot) hr0]
        rfl
    · linarith
    · have habove := (abs_le.mp herror).2
      linarith
  · have hposition : (ofRat (T - f)).position ≤ (num 0).position :=
      position_ofRat_mono (sub_nonpos.mpr hle)
    have hmax : Double.zero.max ((num T).sub (.num f)) = .num 0 := by
      refine if_neg fun hlt => ?_
      cases hvalue : ofRat (T - f) with
      | nan => exact ofRat_ne_nan _ hvalue
      | inf negative =>
          rw [hvalue] at hposition
          rw [show (num T).sub (.num f) = ofRat (T - f) from rfl, hvalue] at hlt
          cases negative with
          | false =>
              exact absurd (top_le_iff.mp (WithBot.coe_le_coe.mp hposition)) WithTop.coe_ne_top
          | true => cases hlt
      | num v =>
          rw [hvalue, position_num_le_iff] at hposition
          rw [show (num T).sub (.num f) = ofRat (T - f) from rfl, hvalue] at hlt
          exact absurd (lt_num.mp hlt) (not_lt.mpr hposition)
    refine ⟨0, hmax, le_rfl, ?_, fun c hc _ => ?_⟩
    · rw [zero_sub, neg_sub, abs_of_nonneg (sub_nonneg.mpr hle)]
      linarith
    · linarith

theorem eps_spec : ∃ e, eps = .num e ∧ 9 / 10 ^ 10 ≤ e ∧ e ≤ 11 / 10 ^ 10 := by
  obtain ⟨e, he, -, herror⟩ := ofRat_nonneg (q := 1 / 10 ^ 9) (by norm_num) (le_huge (by norm_num))
  have hbounds := abs_le.mp herror
  have htiny : halfTiny ≤ 1 / 2 ^ 200 := halfTiny_le
  refine ⟨e, he, ?_, ?_⟩ <;> linarith

theorem add_eps_spec (hT : 0 < T) (hT' : ofRat T = .num T) (hf : 0 < f) (hf' : f ≤ 2 ^ 66)
    (hdouble : ofRat f = .num f) :
    ∃ g, (num f).add eps = .num g ∧ g ≤ f + 22 / 10 ^ 10 ∧ (g < T → f + 9 / 10 ^ 10 < T) := by
  obtain ⟨e, he, heLow, heTop⟩ := eps_spec
  have hsum : 0 < f + e := by linarith
  obtain ⟨g, hg, -, -⟩ := ofRat_nonneg hsum.le (le_huge (by linarith : f + e ≤ 2 ^ 200))
  have hnearFilled := nearest hsum hg hf hdouble
  have hnearTarget := nearest hsum hg hT hT'
  refine ⟨g, ?_, ?_, fun hlt => ?_⟩
  · rw [he]
    exact hg
  · have hdistance : |f - (f + e)| = e := by
      rw [abs_sub_comm, add_sub_cancel_left, abs_of_nonneg (by linarith)]
    have habove := (abs_le.mp (hnearFilled.trans hdistance.le)).2
    linarith
  · by_contra hnot
    have hle : T ≤ f + e := by linarith
    rw [abs_sub_comm T, abs_of_nonneg (sub_nonneg.mpr hle)] at hnearTarget
    have hbelow := (abs_le.mp hnearTarget).1
    linarith

theorem units_eq_zero_of_small {r : ℚ} (hr : 0 ≤ r) (hr' : r ≤ 3 / 10 ^ 9) :
    (d2Dec (.num r)).units = 0 := by
  have htiny : halfTiny ≤ 1 / 2 ^ 200 := halfTiny_le
  have herror := d2Dec_error hr (hr'.trans (by norm_num))
    (d2Dec_units_ne hr (hr'.trans (by norm_num)))
  rw [Decimal.toRat, show (d2Dec (.num r)).scale = 8 from rfl] at herror
  have hbounds := abs_le.mp herror
  have hpow : (10 : ℚ) ^ (-(8 : Int)) = 1 / 10 ^ 8 := by norm_num
  have hlow : (-1 : ℚ) < (d2Dec (.num r)).units := by linarith
  have hhigh : ((d2Dec (.num r)).units : ℚ) < 1 := by linarith
  have hlowInt : -1 < (d2Dec (.num r)).units := by exact_mod_cast hlow
  have hhighInt : (d2Dec (.num r)).units < 1 := by exact_mod_cast hhigh
  omega

def NotBelowZero (v : Double) : Prop :=
  Double.zero.position ≤ v.position

variable {a b : Double}

theorem NotBelowZero.mul (ha : NotBelowZero a) (hb : NotBelowZero b) : NotBelowZero (a.mul b) := by
  rcases a with _ | (_ | _) | x
  · exact Double.position_le_top _
  · rcases b with _ | (_ | _) | y
    · exact Double.position_le_top _
    · exact Double.position_le_top _
    · exact absurd (le_bot_iff.mp hb) (by simp [Double.zero, Double.position])
    · have hy : 0 ≤ y := Double.position_num_le_iff.mp hb
      simp only [Double.mul]
      split_ifs
      · exact Double.position_le_top _
      · rw [decide_eq_false hy.not_gt]
        exact Double.position_le_top _
  · exact absurd (le_bot_iff.mp ha) (by simp [Double.zero, Double.position])
  · have hx : 0 ≤ x := Double.position_num_le_iff.mp ha
    rcases b with _ | (_ | _) | y
    · exact Double.position_le_top _
    · simp only [Double.mul]
      split_ifs
      · exact Double.position_le_top _
      · rw [decide_eq_false hx.not_gt]
        exact Double.position_le_top _
    · exact absurd (le_bot_iff.mp hb) (by simp [Double.zero, Double.position])
    · exact Double.position_ofRat_mono (mul_nonneg hx (Double.position_num_le_iff.mp hb))

theorem NotBelowZero.add (ha : NotBelowZero a) (hb : NotBelowZero b) : NotBelowZero (a.add b) := by
  have hzero : Double.zero.add .zero = .zero := by
    rw [show Double.zero.add .zero = ofRat (0 + 0) from rfl, add_zero]
    rfl
  have hsum := position_add_mono ha hb
  rwa [hzero] at hsum

theorem notBelowZero_of_lt {a : Double} (h : Double.zero.lt a = true) : NotBelowZero a :=
  position_le_of_lt h

theorem notBelowZero_of_le {a : Double} (h : Double.zero.le a = true) : NotBelowZero a := by
  rcases a with _ | (_ | _) | x
  · cases h
  · exact position_le_top _
  · cases h
  · exact position_num_le_iff.mpr (le_num.mp h)

theorem notBelowZero_of_not_lt (hb : Double.zero.lt b = true)
    (h : a.lt b = false) : NotBelowZero a := by
  rcases a with _ | (_ | _) | x
  · exact position_le_top _
  · exact position_le_top _
  · rcases b with _ | (_ | _) | y
    · cases hb
    · cases h
    · cases hb
    · cases h
  · rcases b with _ | (_ | _) | y
    · cases hb
    · cases h
    · cases hb
    · have hy : 0 < y := lt_num.mp hb
      refine position_num_le_iff.mpr (not_lt.mp fun hx => ?_)
      rw [show (num x).lt (.num y) = true from lt_num.mpr (hx.trans hy)] at h
      cases h

theorem d2Dec_of_notBelowZero {v : Double} (h : NotBelowZero v) :
    0 ≤ (d2Dec v).units ∨ (d2Dec v).units = int64Min := by
  have hscaled : ∀ (places : ℕ) (w : Double), NotBelowZero w → NotBelowZero (scaleUp places w) := by
    intro places w hw
    induction places with
    | zero => exact hw
    | succ places ih =>
        exact ih.mul (position_num_le_iff.mpr (by norm_num))
  unfold d2Dec
  split_ifs
  · dsimp only
    have hwhole := hscaled 8 v h
    cases hvalue : scaleUp 8 v with
    | nan => exact .inr rfl
    | inf negative => exact .inr rfl
    | num s =>
        rw [hvalue] at hwhole
        have hs : 0 ≤ s := position_num_le_iff.mp hwhole
        rw [llroundDouble_num]
        split_ifs
        · left
          rw [Decimal.roundAway, if_neg hs.not_gt]
          exact Int.floor_nonneg.mpr (by linarith)
        · exact .inr rfl
  · exact .inl le_rfl

theorem feeOf_notBelowZero {orderType : ExecutionStrategy} {m : FeeModel} {avg : Double}
    (hf : 0 ≤ f) (h : Double.zero.lt (asDouble m.minFee) = true ∨
      (0 ≤ feeBps m orderType ∧ Double.zero.le avg = true)) :
    NotBelowZero (feeOf m orderType (.num f) avg) := by
  have hgas : ∀ v : Double, NotBelowZero v → NotBelowZero
      (if Double.zero.lt (asDouble m.gasFlat) then v.add (asDouble m.gasFlat) else v) := by
    intro v hv
    split_ifs with hpos
    · exact hv.add (notBelowZero_of_lt hpos)
    · exact hv
  unfold feeOf
  refine hgas _ ?_
  split_ifs with hmin
  · rw [Bool.and_eq_true] at hmin
    exact notBelowZero_of_lt hmin.1
  · rcases h with hminFee | ⟨hrate, havg⟩
    · refine notBelowZero_of_not_lt hminFee ?_
      rw [hminFee] at hmin
      exact Bool.eq_false_iff.mpr hmin
    · refine NotBelowZero.mul (NotBelowZero.mul (position_num_le_iff.mpr hf)
        (notBelowZero_of_le havg)) ?_
      have hbps : (num 0).position ≤ (ofRat (feeBps m orderType : ℚ)).position :=
        position_ofRat_mono (show (0 : ℚ) ≤ feeBps m orderType by exact_mod_cast hrate)
      have hdiv := position_div_mono (by norm_num : (0 : ℚ) < 10000) hbps
      have hzero : (num 0).div (.num 10000) = .zero := by
        simp only [Double.div, zero_div, ne_eq, OfNat.ofNat_ne_zero, not_false_eq_true, if_true]
        rfl
      rw [hzero] at hdiv
      exact hdiv

theorem statusOf_spec (mode : PartialFillMode) {r : ℚ} (hT : 0 < T)
    (hT' : ofRat T = .num T) (hf : 0 < f) (hf' : f ≤ 2 ^ 66)
    (hdouble : ofRat f = .num f) (hr : 0 ≤ r)
    (hrTop : ∀ c, 0 ≤ c → T - f ≤ c → r ≤ c * (1 + 1 / 2 ^ 53) + halfTiny) :
    (statusOf mode (.num f) (.num T) = .filled → (d2Dec (.num r)).units = 0) ∧
      (statusOf mode (.num f) (.num T) ≠ .filled → f + 9 / 10 ^ 10 < T) := by
  obtain ⟨g, hg, hgTop, hgLow⟩ := add_eps_spec hT hT' hf hf' hdouble
  unfold statusOf
  rw [hg]
  by_cases hdone : T ≤ g
  · rw [if_pos (le_num.mpr hdone)]
    refine ⟨fun _ => ?_, fun hne => absurd rfl hne⟩
    have htiny : halfTiny ≤ 1 / 2 ^ 200 := halfTiny_le
    have hsmall := hrTop (22 / 10 ^ 10) (by norm_num) (by linarith)
    exact units_eq_zero_of_small hr (by linarith)
  · rw [if_neg fun hle => hdone (le_num.mp hle)]
    refine ⟨fun hfilled => ?_, fun _ => hgLow (not_le.mp hdone)⟩
    split_ifs at hfilled

theorem statusOf_cases (mode : PartialFillMode) (filled target : Double) :
    statusOf mode filled target = .filled ∨
      statusOf mode filled target = if mode = .none then .underfilled else .partiallyFilled := by
  by_cases hdone : target.le (filled.add eps) = true
  · exact .inl (if_pos hdone)
  · exact .inr (if_neg hdone)

theorem fill_obeys {result : SimulateResult} (hformed : WellFormed request snapshot)
    (hfill : IsFill std libm request models snapshot result) (hshown : 0 < result.filledQty.units) :
    ∃ filled vwap, ObeysOrder std libm request models snapshot result filled vwap := by
  obtain ⟨T, f, m, htarget, hT, hwalk, hsums⟩ := fill_walk hformed hfill.positive
  obtain ⟨-, hfilledQty, hremainingQty, havgPrice, hfee, hstatus⟩ := hfill
  rw [hwalk] at hfilledQty hremainingQty havgPrice hfee hstatus
  rw [htarget] at hremainingQty hstatus
  rw [hfilledQty] at hshown
  have htinyTop : halfTiny ≤ 1 / 2 ^ 200 := halfTiny_le
  have hTTop := asDouble_target_le hformed htarget
  obtain ⟨htPos, -, hTError⟩ := asDouble_pos hformed.target htarget hT
  have hfTop : f ≤ 2 ^ 66 := by
    have := hsums.filledTop
    linarith
  obtain ⟨hfLow, hFError⟩ := le_of_shown hsums.filledNonneg hfTop hshown
  have hfPos : 0 < f := lt_of_lt_of_le (by norm_num) hfLow
  have htLow : 1 / 2 ^ 29 ≤ request.targetQty.toRat := by
    have habove := (abs_le.mp hTError).2
    have hTf := hsums.filledTop
    linarith
  have hTDouble := rounded_asDouble request.targetQty T htarget
  obtain ⟨V, hV, hV0, hVError⟩ :=
    fill_vwap (length_extractLevels_lt std hformed request.side) hsums hfLow
  obtain ⟨r, hr, hr0, hrError, hrTop⟩ :=
    remaining_spec hT hTTop hsums.filledNonneg hsums.filledTop
  have hstatusSpec := statusOf_spec request.partialFillMode hT hTDouble hfPos hfTop
    hsums.filledRounded hr0 hrTop
  rw [hV] at havgPrice hfee
  rw [hr] at hremainingQty
  refine ⟨f, V, hfilledQty, ?_, fun htTop => ?_, ?_, havgPrice, hV0, ?_, fun hguard => ?_, ?_, ?_,
    ?_⟩
  · rw [hfilledQty]
    exact shown_le htinyTop htLow hTError hsums.filledTop hFError
  · have hTHigh := (abs_le.mp hTError).2
    have hrHigh := hrTop T hT.le (sub_le_self _ hsums.filledNonneg)
    have hrFits : r ≤ 91 * 10 ^ 9 := by linarith
    have hRError := d2Dec_error hr0 (hrFits.trans (by norm_num)) (d2Dec_units_ne hr0 hrFits)
    rw [hfilledQty, hremainingQty]
    exact shown_conserved htinyTop htLow hTError hFError hrError hRError
  · have hliquid := hsums.liquid
    have hnan : liquidityFrom (decide (request.side = .buy)) request.limit .zero
        (extractLevels std snapshot request.side) ≠ .nan :=
      liquidityFrom_ne_nan (finiteLevel_of_mem_extractLevels std hformed request.side)
        (fun h => by cases h)
    revert hliquid hnan
    generalize liquidityFrom (decide (request.side = .buy)) request.limit .zero
      (extractLevels std snapshot request.side) = liquidity
    intro hliquid hnan
    rcases liquidity with _ | (_ | _) | x
    · exact absurd rfl hnan
    · rfl
    · exact absurd (le_bot_iff.mp hliquid) (by simp [position])
    · exact le_num.mpr (position_num_le_iff.mp hliquid)
  · exact fill_limited hformed htarget hT hwalk hfLow hVError hV0
  · rw [hfee]
    exact d2Dec_of_notBelowZero (feeOf_notBelowZero hsums.filledNonneg hguard)
  · rw [hstatus]
    exact statusOf_cases _ _ _
  · intro hfilled
    rw [hstatus] at hfilled
    rw [hremainingQty]
    exact hstatusSpec.1 hfilled
  · intro hopen
    rw [hstatus] at hopen
    have hbelow := hstatusSpec.2 hopen
    have hTHigh := (abs_le.mp hTError).2
    linarith

end Orders

/-- A result with a filled quantity obeys the order: the filled and the remaining quantity make up
the target but for rounding, the quantity is liquid within the limit, the average price before the
impact is within the limit, and the status says whether a billionth is missing. -/
theorem simulate_obeys {ρ : Type} (std : LevelSorts) (libm : Libm) (rng : Randomness ρ)
    (request : SimulateRequest)
    (models : SimModels) (hformed : ∀ snapshot ∈ request.snapshot, WellFormed request snapshot)
    (hshown : 0 < (simulate std libm rng request models).filledQty.units) :
    ∃ snapshot ∈ request.snapshot, ∃ filled vwap,
      ObeysOrder std libm request models snapshot (simulate std libm rng request models) filled vwap := by
  rcases simulate_cases std libm rng request models with hnone | ⟨snapshot, hsnapshot, hfill⟩
  · rw [hnone] at hshown
    exact absurd hshown (lt_irrefl 0)
  · have hmem : snapshot ∈ request.snapshot := hsnapshot
    exact ⟨snapshot, hmem, fill_obeys (hformed snapshot hmem) hfill hshown⟩

/-- The sorts that leave levels of one price in their order. -/
def stableSorts : LevelSorts where
  asks := .stable _
  bids := .stable _

/-- A generator that is never asked. -/
def fixedDraws : Randomness Unit where
  seed _ := ()
  unit _ := (Double.zero, ())
  lognormal _ _ _ := (Double.zero, ())

/-- Functions that are never asked. -/
def idleLibm : Libm := ⟨id, fun x _ => x, id⟩

def limitBuy (target limit : Decimal) (asks : List (Decimal × Decimal))
    (mode : PartialFillMode) : SimulateRequest where
  orderType := .limit
  targetQty := target
  hasLimitPrice := true
  limitPrice := limit
  snapshot := some
    { askPrices := asks.map Prod.fst
      askQuantities := asks.map Prod.snd }
  partialFillMode := mode

def fixedModels (impactCoeff : Double) (makerBps : Int) : SimModels where
  latency := { distribution := .fixed, p50Ms := 5 }
  impact := { modelType := .linear, impactCoeff := impactCoeff }
  fee := { makerBps := makerBps }

/-- A limit order of three halves against two levels. -/
def twoLevels : SimulateRequest :=
  limitBuy (Decimal.of 15 1) (Decimal.of 101 0)
    [(Decimal.of 101 0, Decimal.of 1 0), (Decimal.of 100 0, Decimal.of 1 0)]
    .levelByLevel

theorem twoLevels_wellFormed : ∀ snapshot ∈ twoLevels.snapshot, WellFormed twoLevels snapshot := by
  intro snapshot hsnapshot
  cases hsnapshot
  constructor <;> decide

theorem twoLevels_obeys :
    ∃ snapshot ∈ twoLevels.snapshot, ∃ filled vwap,
      ObeysOrder stableSorts idleLibm twoLevels (fixedModels Double.zero 10) snapshot
        (simulate stableSorts idleLibm fixedDraws twoLevels (fixedModels Double.zero 10)) filled vwap :=
  simulate_obeys stableSorts idleLibm fixedDraws twoLevels (fixedModels Double.zero 10)
    twoLevels_wellFormed (by decide +kernel)

/-- An order against one ask. -/
def oneAsk (target limit price quantity : Decimal) (mode : PartialFillMode)
    (impactCoeff : Double) (makerBps : Int) : SimulateResult :=
  simulate stableSorts idleLibm fixedDraws (limitBuy target limit [(price, quantity)] mode)
    (fixedModels impactCoeff makerBps)

/-- Half of the last place is there for a target of one. -/
def halfPlace : SimulateResult :=
  oneAsk (Decimal.of 1 8) (Decimal.of 100 0) (Decimal.of 100 0) (Decimal.of 5 9)
    .levelByLevel Double.zero 0

/-- A linear impact of one for each unit, with a limit price of 100. -/
def impacted : SimulateResult :=
  oneAsk (Decimal.of 10 0) (Decimal.of 100 0) (Decimal.of 100 0) (Decimal.of 10 0)
    .levelByLevel Double.one 0

/-- Half of a target of two is there, and no partial fills are asked for. -/
def underfilled : SimulateResult :=
  oneAsk (Decimal.of 2 0) (Decimal.of 100 0) (Decimal.of 100 0) (Decimal.of 1 0)
    .none Double.zero 0

/-- The maker is paid a basis point. -/
def rebated : SimulateResult :=
  oneAsk (Decimal.of 1 0) (Decimal.of 100 0) (Decimal.of 100 0) (Decimal.of 1 0)
    .levelByLevel Double.zero (-1)

/-- A price of a billionth. -/
def cheap : SimulateResult :=
  oneAsk (Decimal.of 1 0) (Decimal.of 1 0) (Decimal.of 1 9) (Decimal.of 1 0)
    .levelByLevel Double.zero 0

/-- Three billionths of the target are not there. -/
def nearlyFilled : SimulateResult :=
  oneAsk (Decimal.of 1000000003 9) (Decimal.of 100 0) (Decimal.of 100 0) (Decimal.of 1 0)
    .levelByLevel Double.zero 0

/-- Filled orders whose quantities do not make up the target, whose price is beyond the limit or
nothing, whose fee is negative, that are filled in part though no partial fills are asked for, or
that are open with nothing left. -/
theorem simulate_disobeys :
    (0 < halfPlace.filledQty.units ∧
      halfPlace.filledQty.toRat + halfPlace.remainingQty.toRat ≠ 1 / 10 ^ 8) ∧
    (0 < impacted.filledQty.units ∧ 100 < impacted.avgPrice.toRat) ∧
    (0 < underfilled.filledQty.units ∧ underfilled.filledQty.toRat < 2) ∧
    (0 < rebated.filledQty.units ∧ rebated.fee.units < 0) ∧
    (0 < cheap.filledQty.units ∧ cheap.avgPrice.units = 0) ∧
    (0 < nearlyFilled.filledQty.units ∧ nearlyFilled.remainingQty.units = 0 ∧
      nearlyFilled.status ≠ .filled) := by
  decide +kernel

end Simulator
end Venues
end ContExchange
