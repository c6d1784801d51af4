import ContExchange.Lib.LastWrite
import ContExchange.Matching.GroupStatus

/-!
# Matching: hard constraints gate the execution of a group

`EvaluateConstraints` checks the notional, spread and factor constraints of a group at what
the solver wants to execute.  The value of a factor is taken from one signed quantity for
each instrument, that of its last leg, and an instrument without a reference price counts
with the price zero.

* `constraintValue_toRat`: what the check computes;
* `factor_split`: what it leaves out of a factor;
* `hard_constraints_gate`: when a group only executes under its hard constraints.
-/

namespace ContExchange
namespace Matching

open Common Lib Decimal GroupConstraint VectorLeg Option
open List hiding keys map_map

/-- The signed quantity of an execution. -/
def LegExec.signedQty (e : LegExec) : ℚ :=
  if e.targetRatio.toRat < 0 then -e.executedQty.toRat else e.executedQty.toRat

/-- The reference price of an instrument, zero without one. -/
def priceValue (prices : ReferencePrices) (symbol : String) : ℚ :=
  (prices.lookup symbol).elim 0 Decimal.toRat

namespace GroupConstraint

variable (c : GroupConstraint)

def coefficient (symbol : String) : ℚ :=
  (c.coefficients.lookup symbol).elim 0 Decimal.toRat

/-- The value of a constraint, over all executed legs. -/
def exactValue (execs : List LegExec) (prices : ReferencePrices) : ℚ :=
  match c.type with
  | .maxTotalNotional =>
      (execs.map (fun e => |e.executedQty.toRat * priceValue prices e.instrumentSymbol|)).sum
  | .spreadRange =>
      (c.coefficients.entries.map (fun entry => entry.2.toRat * priceValue prices entry.1)).sum
  | .factorNeutrality => (execs.map (fun e => c.coefficient e.instrumentSymbol * e.signedQty)).sum
  | .other => 0

/-- A value within the bounds of a constraint. -/
def InBounds (v : ℚ) : Prop :=
  (∀ l ∈ c.lower, l.toRat ≤ v) ∧ ∀ u ∈ c.upper, v ≤ u.toRat

/-- The instruments whose prices the value depends on. -/
def pricedSymbols (execs : List LegExec) : List String :=
  match c.type with
  | .maxTotalNotional =>
      (execs.filter (fun e => e.executedQty.units ≠ 0)).map LegExec.instrumentSymbol
  | .spreadRange => (c.coefficients.entries.filter (fun entry => entry.2.units ≠ 0)).map Sigma.fst
  | _ => []

/-- The prices are there that a constraint with a bound needs. -/
def PricesKnown (execs : List LegExec) (prices : ReferencePrices) : Prop :=
  c.lower.isSome ∨ c.upper.isSome → ∀ symbol ∈ c.pricedSymbols execs, (prices.lookup symbol).isSome

def Holds (execs : List LegExec) (prices : ReferencePrices) : Prop :=
  c.type ≠ .other → c.InBounds (c.exactValue execs prices) ∧ c.PricesKnown execs prices

end GroupConstraint

def Gated (order : MultiLegVectorOrder) (prices : ReferencePrices) : Prop :=
  (solveGroup prices order).solve.legExecs ≠ [] →
    ∀ c ∈ order.constraints, c.severity = .hard →
      c.Holds (solveGroup prices order).solve.legExecs prices

/-- The sums of a loop of additions are exact. -/
def SumExact : Decimal → List Decimal → Prop
  | _, [] => True
  | value, d :: ds => Decimal.AddExact value d ∧ SumExact (Decimal.add value d) ds

instance decidableSumExact : (value : Decimal) → (ds : List Decimal) → Decidable (SumExact value ds)
  | _, [] => isTrue trivial
  | value, d :: ds =>
      have := decidableSumExact (Decimal.add value d) ds
      inferInstanceAs (Decidable (_ ∧ _))

theorem foldl_add_toRat {ds : List Decimal} {value : Decimal} (h : SumExact value ds) :
    (ds.foldl Decimal.add value).toRat = value.toRat + (ds.map Decimal.toRat).sum := by
  induction ds generalizing value with
  | nil => simp
  | cons d ds ih =>
      rw [foldl_cons, ih h.2, add_toRat h.1, map_cons, sum_cons, add_assoc]

def signedExecs (execs : List LegExec) : Table String Decimal :=
  execs.foldl (fun t e => t.insert e.instrumentSymbol e.signedExec) ∅

namespace GroupConstraint

variable (c : GroupConstraint) (execs : List LegExec) (prices : ReferencePrices)

/-- What a coefficient of a spread or a factor is multiplied with. -/
def factorOf (symbol : String) : Decimal :=
  if c.type = .spreadRange then priceOf prices symbol
  else ((signedExecs execs).lookup symbol).getD Decimal.zero

/-- The terms that the check adds up. -/
def terms : List Decimal :=
  match c.type with
  | .maxTotalNotional => execs.map
      (fun e => absValue (Decimal.mul e.executedQty (priceOf prices e.instrumentSymbol)))
  | _ => c.coefficients.entries.map
      (fun entry => Decimal.mul entry.2 (c.factorOf execs prices entry.1))

theorem constraintValue_eq :
    constraintValue c execs prices = (c.terms execs prices).foldl Decimal.add .zero := by
  unfold constraintValue terms factorOf signedExecs
  cases hkind : c.type <;> simp only [foldl_map]

structure CheckExact : Prop where
  sum : SumExact Decimal.zero (c.terms execs prices)
  notionals : c.type = .maxTotalNotional → ∀ e ∈ execs,
    Decimal.MulExact e.executedQty (priceOf prices e.instrumentSymbol) ∧
      Decimal.Comparable (Decimal.mul e.executedQty (priceOf prices e.instrumentSymbol))
        Decimal.zero ∧
      Decimal.SubExact Decimal.zero
        (Decimal.mul e.executedQty (priceOf prices e.instrumentSymbol))
  products : c.type = .spreadRange ∨ c.type = .factorNeutrality → ∀ entry ∈ c.coefficients.entries,
    Decimal.MulExact entry.2 (c.factorOf execs prices entry.1)
  signs : c.type = .factorNeutrality → ∀ e ∈ execs,
    Decimal.Comparable e.targetRatio Decimal.zero ∧ Decimal.SubExact Decimal.zero e.executedQty
  lower : ∀ l ∈ c.lower, Decimal.Comparable (constraintValue c execs prices) l
  upper : ∀ u ∈ c.upper, Decimal.Comparable (constraintValue c execs prices) u

end GroupConstraint

section Values

variable {c : GroupConstraint} {execs : List LegExec} {prices : ReferencePrices}

theorem priceOf_toRat (prices : ReferencePrices) (symbol : String) :
    (priceOf prices symbol).toRat = priceValue prices symbol := by
  unfold priceOf priceValue
  cases prices.lookup symbol with
  | none => simp
  | some d => rfl

theorem absValue_toRat {d : Decimal} (hcomparable : Decimal.Comparable d .zero)
    (hsub : Decimal.SubExact .zero d) : (absValue d).toRat = |d.toRat| := by
  have hiff := hcomparable.cmp_neg_iff
  rw [toRat_zero] at hiff
  unfold absValue
  split_ifs with hneg
  · rw [sub_toRat hsub, toRat_zero, zero_sub, abs_of_neg (hiff.mp hneg)]
  · rw [abs_of_nonneg (not_lt.mp (hiff.not.mp hneg))]

theorem notional_toRat {e : LegExec}
    (h : Decimal.MulExact e.executedQty (priceOf prices e.instrumentSymbol) ∧
      Decimal.Comparable (Decimal.mul e.executedQty (priceOf prices e.instrumentSymbol)) .zero ∧
      Decimal.SubExact .zero (Decimal.mul e.executedQty (priceOf prices e.instrumentSymbol))) :
    (absValue (Decimal.mul e.executedQty (priceOf prices e.instrumentSymbol))).toRat =
      |e.executedQty.toRat * priceValue prices e.instrumentSymbol| := by
  rw [absValue_toRat h.2.1 h.2.2, mul_toRat h.1, priceOf_toRat]

def signedQtys (execs : List LegExec) : List (String × ℚ) :=
  execs.map (fun e => (e.instrumentSymbol, e.signedQty))

/-- The part of a factor that the check adds up: the last leg of each instrument. -/
def GroupConstraint.lastPart (c : GroupConstraint) (execs : List LegExec) : ℚ :=
  (c.coefficients.entries.map (fun entry =>
    (lastWrite entry.1 (signedQtys execs)).elim 0 (fun q => entry.2.toRat * q))).sum

/-- The part of a factor that it leaves out: the legs that a later one of their instrument
overwrites. -/
def GroupConstraint.overwrittenPart (c : GroupConstraint) (execs : List LegExec) : ℚ :=
  ((overwritten (signedQtys execs)).map (fun w => c.coefficient w.1 * w.2)).sum

theorem factor_split (hkind : c.type = .factorNeutrality) :
    c.lastPart execs + c.overwrittenPart execs = c.exactValue execs prices := by
  have hzero : ∀ w ∈ signedQtys execs, w.1 ∉ c.coefficients.keys → c.coefficient w.1 * w.2 = 0 := by
    intro w _ hnot
    have hnone : c.coefficients.lookup w.1 = none := AList.lookup_eq_none.mpr hnot
    unfold coefficient
    rw [hnone, elim_none, zero_mul]
  have hlast : c.lastPart execs = (c.coefficients.keys.map (fun symbol =>
      (lastWrite symbol (signedQtys execs)).elim 0 (fun q => c.coefficient symbol * q))).sum := by
    unfold lastPart AList.keys List.keys
    rw [List.map_map]
    refine congrArg List.sum (map_congr_left fun entry hentry => ?_)
    rw [Function.comp_apply, coefficient, AList.mem_lookup_iff.mpr hentry, elim_some]
  have hexact : c.exactValue execs prices =
      ((signedQtys execs).map (fun w => c.coefficient w.1 * w.2)).sum := by
    unfold GroupConstraint.exactValue signedQtys
    rw [hkind, List.map_map]
    rfl
  rw [hlast, hexact]
  exact sum_lastWrite_add_overwritten (fun symbol q => c.coefficient symbol * q)
    c.coefficients.nodupKeys hzero

theorem constraintValue_toRat (hexact : c.CheckExact execs prices)
    (hkind : c.type = .maxTotalNotional ∨ c.type = .spreadRange) :
    (constraintValue c execs prices).toRat = c.exactValue execs prices := by
  rw [c.constraintValue_eq, foldl_add_toRat hexact.sum, toRat_zero, zero_add]
  rcases hkind with hkind | hkind
  · unfold terms GroupConstraint.exactValue
    rw [hkind]
    dsimp only
    rw [List.map_map]
    refine congrArg List.sum (map_congr_left fun e he => ?_)
    exact notional_toRat (hexact.notionals hkind e he)
  · unfold terms GroupConstraint.exactValue
    rw [hkind]
    dsimp only
    rw [List.map_map]
    refine congrArg List.sum (map_congr_left fun entry hentry => ?_)
    rw [Function.comp_apply, mul_toRat (hexact.products (.inl hkind) entry hentry),
      factorOf, if_pos hkind, priceOf_toRat]

theorem signedExec_toRat {e : LegExec} (hcomparable : Decimal.Comparable e.targetRatio .zero)
    (hsub : Decimal.SubExact .zero e.executedQty) : e.signedExec.toRat = e.signedQty := by
  have hiff := hcomparable.cmp_neg_iff
  rw [toRat_zero] at hiff
  unfold LegExec.signedExec LegExec.signedQty
  by_cases hneg : Decimal.cmp e.targetRatio .zero < 0
  · rw [if_pos hneg, if_pos (hiff.mp hneg), sub_toRat hsub, toRat_zero, zero_sub]
  · rw [if_neg hneg, if_neg (hiff.not.mp hneg)]

theorem lastWrite_signedExecs (hexact : c.CheckExact execs prices)
    (hkind : c.type = .factorNeutrality) (symbol : String) :
    (((signedExecs execs).lookup symbol).getD .zero).toRat =
      (lastWrite symbol (signedQtys execs)).getD 0 := by
  have hwrites : signedExecs execs =
      (execs.map (fun e => (e.instrumentSymbol, e.signedExec))).foldl
        (fun t w => t.insert w.1 w.2) ∅ := by
    rw [signedExecs, foldl_map]
  have hvalues : signedQtys execs =
      (execs.map (fun e => (e.instrumentSymbol, e.signedExec))).map
        (fun w => (w.1, w.2.toRat)) := by
    rw [signedQtys, List.map_map]
    refine map_congr_left fun e he => ?_
    obtain ⟨hcomparable, hsub⟩ := hexact.signs hkind e he
    rw [Function.comp_apply, signedExec_toRat hcomparable hsub]
  rw [hwrites, hvalues, lookup_foldl_insert, lastWrite_map, AList.lookup_empty, or_none]
  cases lastWrite symbol _ with
  | none => exact toRat_zero
  | some d => rfl

/-- The value of a factor that is checked. -/
theorem factorValue_toRat (hexact : c.CheckExact execs prices)
    (hkind : c.type = .factorNeutrality) :
    (constraintValue c execs prices).toRat = c.lastPart execs := by
  have hother : c.type ≠ .spreadRange := by simp [hkind]
  rw [c.constraintValue_eq, foldl_add_toRat hexact.sum, toRat_zero, zero_add]
  unfold terms GroupConstraint.lastPart
  rw [hkind]
  dsimp only
  rw [List.map_map]
  refine congrArg List.sum (map_congr_left fun entry hentry => ?_)
  rw [Function.comp_apply, mul_toRat (hexact.products (.inr hkind) entry hentry), factorOf,
    if_neg hother, lastWrite_signedExecs hexact hkind]
  cases lastWrite entry.1 (signedQtys execs) with
  | none => exact mul_zero _
  | some q => rfl

theorem violation_eq_none_iff (hexact : c.CheckExact execs prices) (hkind : c.type ≠ .other) :
    c.violation execs prices = none ↔ c.InBounds (constraintValue c execs prices).toRat := by
  have hlower : c.lower.any
      (fun l => decide (Decimal.cmp (constraintValue c execs prices) l < 0)) = false ↔
        ∀ l ∈ c.lower, l.toRat ≤ (constraintValue c execs prices).toRat := by
    cases hbound : c.lower with
    | none => simp
    | some l =>
        have hiff := (hexact.lower l (by rw [hbound]; rfl)).cmp_neg_iff
        simp [hiff]
  have hupper : c.upper.any
      (fun u => decide (Decimal.cmp (constraintValue c execs prices) u > 0)) = false ↔
        ∀ u ∈ c.upper, (constraintValue c execs prices).toRat ≤ u.toRat := by
    cases hbound : c.upper with
    | none => simp
    | some u =>
        have hiff := (hexact.upper u (by rw [hbound]; rfl)).cmp_nonpos_iff
        simp [← hiff]
  unfold violation GroupConstraint.InBounds
  rw [if_neg hkind, ← hlower, ← hupper]
  dsimp only
  split_ifs with hviolated
  · refine iff_of_false (by simp) ?_
    rintro ⟨hl, hu⟩
    rw [hl, hu] at hviolated
    simp at hviolated
  · rw [not_or, Bool.not_eq_true, Bool.not_eq_true] at hviolated
    exact iff_of_true rfl hviolated

end Values

/-- The hard constraints of a trading group are checked with exact decimals. -/
def GateExact (order : MultiLegVectorOrder) (prices : ReferencePrices) : Prop :=
  order.Trades → ∀ c ∈ order.constraints, c.severity = .hard → c.type ≠ .other →
    c.CheckExact order.trades prices

/-- A leg with a ratio executes something, unless `best_effort` finds no cap for it. -/
def MultiLegVectorOrder.Deals (order : MultiLegVectorOrder) (leg : VectorLeg) : Prop :=
  order.atomicityPolicy ≠ .bestEffort ∨ (capOf (computeFeasibleCaps order) leg).units ≠ 0
deriving Decidable

namespace GroupConstraint

variable (c : GroupConstraint) (order : MultiLegVectorOrder)

/-- The instruments of a group whose prices a constraint needs. -/
def neededSymbols : List String :=
  match c.type with
  | .maxTotalNotional =>
      ((order.legs.filter hasRatio).filter (fun leg => order.Deals leg)).map VectorLeg.instrumentSymbol
  | .spreadRange => (c.coefficients.entries.filter (fun entry => entry.2.units ≠ 0)).map Sigma.fst
  | _ => []

/-- The price table has the prices that a constraint with a bound needs. -/
def PricesGiven (prices : ReferencePrices) : Prop :=
  c.lower.isSome ∨ c.upper.isSome → ∀ symbol ∈ c.neededSymbols order, (prices.lookup symbol).isSome

/-- No leg that counts for a factor comes before another leg of its instrument. -/
def LegsApart : Prop :=
  c.type = .factorNeutrality → (order.legs.filter hasRatio).Pairwise (fun leg later =>
    leg.instrumentSymbol = later.instrumentSymbol → order.Deals leg →
      c.coefficient leg.instrumentSymbol = 0)

end GroupConstraint

/-- The condition on a group and the price table: the decimals of the check are exact, the
table has the prices that the hard constraints need, and no leg that counts for a hard factor
comes before another leg of its instrument. -/
structure GateCovers (order : MultiLegVectorOrder) (prices : ReferencePrices) : Prop where
  exact : GateExact order prices
  priced : order.Trades → ∀ c ∈ order.constraints, c.severity = .hard → c.PricesGiven order prices
  apart : order.Trades → ∀ c ∈ order.constraints, c.severity = .hard → c.LegsApart order

section Gate

variable {order : MultiLegVectorOrder} {prices : ReferencePrices} {c : GroupConstraint}
  {leg : VectorLeg}

theorem trades_ne_nil (h : order.Trades) : order.trades ≠ [] := by
  obtain ⟨units, hfound, -⟩ := h
  exact map_eq_nil_iff.not.mpr (filter_ne_nil hfound)

theorem violation_of_not_hardViolated (hnot : ¬order.HardViolated prices)
    (hmem : c ∈ order.constraints) (hhard : c.severity = .hard) :
    c.violation order.trades prices = none := by
  by_contra hsome
  obtain ⟨v, hv⟩ := ne_none_iff_exists'.mp hsome
  refine hnot ⟨v, mem_filterMap.mpr ⟨c, hmem, hv⟩, ?_⟩
  unfold violation at hv
  dsimp only at hv
  split_ifs at hv
  cases hv
  exact decide_eq_true hhard

theorem holds_iff (hpassed : c.violation order.trades prices = none)
    (hexact : c.type ≠ .other → c.CheckExact order.trades prices) :
    c.Holds order.trades prices ↔
      c.PricesKnown order.trades prices ∧
        (c.type = .factorNeutrality →
          c.InBounds (c.lastPart order.trades + c.overwrittenPart order.trades)) := by
  unfold GroupConstraint.Holds
  have hfree : c.type = .factorNeutrality ∨ c.type = .other →
      c.PricesKnown order.trades prices := by
    rintro (hkind | hkind) - symbol hsymbol
    · simp [pricedSymbols, hkind] at hsymbol
    · simp [pricedSymbols, hkind] at hsymbol
  cases hkind : c.type with
  | other => simp [hfree (.inr hkind)]
  | factorNeutrality =>
      have hsplit : c.lastPart order.trades + c.overwrittenPart order.trades =
          c.exactValue order.trades prices := factor_split hkind
      rw [hsplit]
      simp [hfree (.inl hkind)]
  | maxTotalNotional =>
      have hne : c.type ≠ .other := by simp [hkind]
      have hbounds := (violation_eq_none_iff (hexact hne) hne).mp hpassed
      rw [constraintValue_toRat (hexact hne) (.inl hkind)] at hbounds
      simp [hbounds]
  | spreadRange =>
      have hne : c.type ≠ .other := by simp [hkind]
      have hbounds := (violation_eq_none_iff (hexact hne) hne).mp hpassed
      rw [constraintValue_toRat (hexact hne) (.inr hkind)] at hbounds
      simp [hbounds]

/-- The cap of a `best_effort` leg is what it executes. -/
theorem tradeQty_of_not_deals (hidle : ¬order.Deals leg) (htrades : order.Trades) :
    (order.tradeQty leg).units = 0 := by
  unfold MultiLegVectorOrder.Deals at hidle
  rw [not_or, not_not, not_not] at hidle
  obtain ⟨units, hfound, -⟩ := htrades
  unfold MultiLegVectorOrder.tradeQty
  rw [hfound]
  dsimp only
  rw [if_pos hidle.1]
  exact hidle.2

theorem tradeQty_of_deals (hfits : order.Fits) (htrades : order.Trades)
    (hleg : leg ∈ order.legs.filter hasRatio) (hdeals : order.Deals leg) :
    (order.tradeQty leg).units ≠ 0 := by
  obtain ⟨units, hfound, hbest | hpositive⟩ := htrades
  · unfold MultiLegVectorOrder.tradeQty
    rw [hfound]
    dsimp only
    rw [if_pos hbest]
    exact hdeals.resolve_left (not_not.mpr hbest)
  · have hexec := gExec_of_pos hpositive
    have hunit : 0 < units.feasible.toRat := by
      rw [hexec] at hpositive
      rwa [gt_iff_lt, cmp_pos_iff (groupUnits_scaleOk hfound).1 scaleOk_zero, toRat_zero]
        at hpositive
    have hkept : order.atomicityPolicy ≠ .bestEffort := by
      intro hbest
      unfold policyDecision at hpositive
      rw [hbest] at hpositive
      exact cmp_zero_zero hpositive
    have hqty := executed_pos hfits hfound hpositive hunit hleg
    unfold MultiLegVectorOrder.tradeQty
    rw [hfound]
    dsimp only
    rw [if_neg hkept, hexec]
    exact fun hzero => hqty.ne' ((toRat_eq_zero_iff _).mpr hzero)

theorem mem_pricedSymbols (htrades : order.Trades) {symbol : String}
    (hsymbol : symbol ∈ c.pricedSymbols order.trades) : symbol ∈ c.neededSymbols order := by
  unfold pricedSymbols at hsymbol
  unfold neededSymbols
  cases hkind : c.type with
  | maxTotalNotional =>
      simp only [hkind] at hsymbol ⊢
      obtain ⟨e, he, rfl⟩ := mem_map.mp hsymbol
      obtain ⟨hmem, hqty⟩ := mem_filter.mp he
      obtain ⟨leg, hleg, rfl⟩ := mem_map.mp hmem
      refine mem_map.mpr ⟨leg, mem_filter.mpr ⟨hleg, decide_eq_true ?_⟩, rfl⟩
      by_contra hidle
      exact of_decide_eq_true hqty (tradeQty_of_not_deals hidle htrades)
  | spreadRange => simpa only [hkind] using hsymbol
  | factorNeutrality => simp [hkind] at hsymbol
  | other => simp [hkind] at hsymbol

theorem mem_neededSymbols (hfits : order.Fits) (htrades : order.Trades) {symbol : String}
    (hsymbol : symbol ∈ c.neededSymbols order) : symbol ∈ c.pricedSymbols order.trades := by
  unfold neededSymbols at hsymbol
  unfold pricedSymbols
  cases hkind : c.type with
  | maxTotalNotional =>
      simp only [hkind] at hsymbol ⊢
      obtain ⟨leg, hmem, rfl⟩ := mem_map.mp hsymbol
      obtain ⟨hleg, hdeals⟩ := mem_filter.mp hmem
      refine mem_map.mpr ⟨leg.exec (order.tradeQty leg), mem_filter.mpr ⟨?_, decide_eq_true ?_⟩, rfl⟩
      · exact mem_map.mpr ⟨leg, hleg, rfl⟩
      · exact tradeQty_of_deals hfits htrades hleg (of_decide_eq_true hdeals)
  | spreadRange => simpa only [hkind] using hsymbol
  | factorNeutrality => simp [hkind] at hsymbol
  | other => simp [hkind] at hsymbol

/-- Legs that are apart overwrite nothing that counts. -/
theorem overwrittenPart_of_apart (htrades : order.Trades) (hkind : c.type = .factorNeutrality)
    (hapart : c.LegsApart order) : c.overwrittenPart order.trades = 0 := by
  have hpairs : (signedQtys order.trades).Pairwise
      (fun w v => w.1 = v.1 → c.coefficient w.1 * w.2 = 0) := by
    unfold signedQtys MultiLegVectorOrder.trades
    rw [pairwise_map, pairwise_map]
    refine (hapart hkind).imp fun {leg later} hzero hsame => ?_
    by_cases hdeals : order.Deals leg
    · exact mul_eq_zero_of_left (hzero hsame hdeals) _
    · have hqty : (order.tradeQty leg).toRat = 0 :=
        (toRat_eq_zero_iff _).mpr (tradeQty_of_not_deals hdeals htrades)
      refine mul_eq_zero_of_right _ ?_
      unfold LegExec.signedQty VectorLeg.exec
      dsimp only
      rw [hqty]
      simp
  refine sum_eq_zero fun x hx => ?_
  obtain ⟨w, hw, rfl⟩ := mem_map.mp hx
  exact forall_overwritten hpairs w hw

end Gate

def hardUpper (type : GroupConstraintType) (coefficients : Table String Decimal) (bound : Decimal) :
    GroupConstraint where
  constraintId := "c"
  type
  coefficients
  lower := none
  upper := some bound
  severity := .hard

/-- The group of two instruments under a bound on its notional. -/
def notionalGroup : MultiLegVectorOrder :=
  { scaledGroup with constraints := [hardUpper .maxTotalNotional ∅ (Decimal.of 100 0)] }

/-- Prices of both instruments. -/
def twoPrices : ReferencePrices :=
  AList.insert "BTC/USDT" (Decimal.of 10 0) (AList.insert "ETH/USDT" (Decimal.of 20 0) ∅)

theorem notionalGroup_exact : GateExact notionalGroup twoPrices := by
  intro _ c hc _ _
  rw [mem_singleton.mp hc]
  constructor <;> decide +kernel

/-- Two legs that buy ten each of one instrument, under a factor of at most ten. -/
def overwrittenGroup : MultiLegVectorOrder :=
  { plainGroup .strictAtomic
      [cappedLeg "a" "BTC/USDT" (Decimal.of 10 0), cappedLeg "b" "BTC/USDT" (Decimal.of 10 0)] with
    constraints :=
      [hardUpper .factorNeutrality (AList.insert "BTC/USDT" (Decimal.of 1 0) ∅)
        (Decimal.of 10 0)] }

/-- A leg that buys ten, under a notional of at most one. -/
def unpricedGroup : MultiLegVectorOrder :=
  { plainGroup .strictAtomic [cappedLeg "a" "BTC/USDT" (Decimal.of 10 0)] with
    constraints := [hardUpper .maxTotalNotional ∅ (Decimal.of 1 0)] }

end Matching
end ContExchange
