import ContExchange.Matching.ActiveGroups

/-!
# Matching: what a batch executes is not negative

The quantities of the published groups are caps of their legs, or products of a positive
group unit and a ratio, cut to the caps.  The caps of legs that were loaded from rows with a
positive rate are not negative, and so is everything that is published.
-/

namespace ContExchange
namespace Matching

open Common Lib Decimal List Option MultiLegVectorOrder VectorLeg
open OrderFlow (ComboTables ComboOrderRow ComboLegRow)

section Quantities

variable {leg : VectorLeg} {caps : List FeasibleCap}

theorem remainingQty_nonneg (leg : VectorLeg) : 0 ≤ leg.remainingQty.toRat := by
  unfold remainingQty
  dsimp only
  split_ifs with hneg
  · exact (toRat_zeroAt _).ge
  · rw [cmp_zeroAt_neg_iff] at hneg
    exact not_lt.mp hneg

theorem sub_zeroAt_nonneg {d : Decimal} (h : d.toRat < 0) :
    0 ≤ (Decimal.sub (zeroAt d.scale) d).toRat := by
  have hunits : d.units < 0 := (toRat_neg_iff d).mp h
  have hfits := d.fits
  have hdiff : i128 (0 - d.units) = 0 - d.units := by
    apply i128_of_abs_le
    unfold Int64Fits int64Min int64Max at hfits
    rw [abs_le]
    omega
  have hvalue : Decimal.sub (zeroAt d.scale) d = Decimal.normalizeI128 (0 - d.units) d.scale := by
    unfold Decimal.sub Decimal.alignUnitsI128 zeroAt
    simp only [max_self, le_refl, if_true, hdiff]
  rw [hvalue, ← toRat_zero]
  refine (normalizeI128_faithful le_rfl (by omega)).1 ?_
  rw [toRat_zero]
  have hcast : (0 : ℚ) ≤ ((0 - d.units : Int) : ℚ) := by exact_mod_cast (by omega : 0 ≤ 0 - d.units)
  exact mul_nonneg hcast (pow10_pos _).le

theorem absRatio_nonneg (leg : VectorLeg) : 0 ≤ leg.absRatio.toRat := by
  unfold absRatio
  dsimp only
  split_ifs with hneg
  · rw [cmp_zeroAt_neg_iff] at hneg
    exact sub_zeroAt_nonneg hneg
  · rw [cmp_zeroAt_neg_iff] at hneg
    exact not_lt.mp hneg

theorem mul_toRat_nonneg {a b : Decimal} (ha : 0 ≤ a.toRat) (hb : 0 ≤ b.toRat) :
    0 ≤ (Decimal.mul a b).toRat := by
  rw [← toRat_zero]
  refine (mul_faithful le_rfl ((toRat_nonneg_iff a).mp ha) ((toRat_nonneg_iff b).mp hb)).1 ?_
  rw [toRat_zero]
  exact mul_nonneg ha hb

/-- A leg without limits of liquidity, risk and venue, as it is loaded. -/
structure PlainLeg (leg : VectorLeg) : Prop where
  qLiq : leg.qLiq = none
  qRisk : leg.qRisk = none
  qVenue : leg.qVenue = none
  qRate : 0 ≤ leg.qRate.toRat

theorem PlainLeg.cap_nonneg (h : PlainLeg leg) : 0 ≤ leg.feasibleCap.cap.toRat := by
  unfold feasibleCap
  simp only [h.qLiq, h.qRisk, h.qVenue, considerOptional, considerCap]
  split_ifs
  · exact h.qRate
  · exact remainingQty_nonneg leg

theorem capOf_nonneg (hcaps : ∀ fc ∈ caps, 0 ≤ fc.cap.toRat) (leg : VectorLeg) :
    0 ≤ (capOf caps leg).toRat := by
  unfold capOf capBySym
  cases hfound : (caps.foldl (fun t fc => t.insert fc.instrumentSymbol fc.cap)
      (∅ : Table String Decimal)).lookup leg.instrumentSymbol with
  | none => exact remainingQty_nonneg leg
  | some cap =>
      have hrows : (caps.map (fun fc => (fc.instrumentSymbol, fc.cap))).foldl
          (fun t e => t.insert e.1 e.2) (∅ : Table String Decimal) =
            caps.foldl (fun t fc => t.insert fc.instrumentSymbol fc.cap) ∅ :=
        foldl_map
      rw [← hrows] at hfound
      rcases Table.mem_of_lookup_foldl_insert hfound with hmem | hnone
      · obtain ⟨fc, hfc, hpair⟩ := mem_map.mp hmem
        obtain ⟨-, hcap⟩ := Prod.mk.inj hpair
        rw [← hcap]
        exact hcaps fc hfc
      · cases hnone

theorem divUnits_scale_nonneg (a b : Decimal) : 0 ≤ (Decimal.divUnits a b 12).scale := by
  unfold Decimal.divUnits Decimal.normalizeI128
  dsimp only
  rw [if_pos (by norm_num)]
  exact Int.natCast_nonneg _

theorem feasible_scale_nonneg {legs : List VectorLeg} {units : GroupUnits}
    (h : groupUnits caps legs = some units) : 0 ≤ units.feasible.scale := by
  have hstep : ∀ (units : Option GroupUnits) (leg : VectorLeg),
      (∀ u ∈ units, 0 ≤ u.feasible.scale) →
        ∀ u ∈ groupUnitsStep caps units leg, 0 ≤ u.feasible.scale := by
    intro units leg hunits u hu
    unfold groupUnitsStep at hu
    split_ifs at hu with hratio
    · cases units with
      | none =>
          cases hu
          exact divUnits_scale_nonneg _ _
      | some old =>
          cases hu
          dsimp only
          split_ifs
          · exact divUnits_scale_nonneg _ _
          · exact hunits old rfl
    · exact hunits u hu
  have hinit : ∀ u ∈ (none : Option GroupUnits), 0 ≤ u.feasible.scale := by
    intro u hu
    cases hu
  exact run_preserves (fun units : Option GroupUnits => ∀ u ∈ units, 0 ≤ u.feasible.scale)
    hstep hinit legs units h

theorem nonneg_of_cmp_pos {d : Decimal} (hscale : 0 ≤ d.scale)
    (h : 0 < Decimal.cmp d .zero) : 0 ≤ d.toRat := by
  have hexact := alignExact_zero hscale
  rw [cmp_pos_iff_of_alignExact hexact, toRat_zero] at h
  exact h.le

end Quantities

section Published

variable {order : MultiLegVectorOrder}

theorem gExec_cases (order : MultiLegVectorOrder) (units : GroupUnits) :
    (policyDecision order units).gExec = .zero ∨
      (policyDecision order units).gExec = units.feasible := by
  unfold policyDecision
  cases order.atomicityPolicy with
  | strictAtomic =>
      dsimp only
      split_ifs
      · exact .inl rfl
      · exact .inr rfl
  | scalableAtomic =>
      dsimp only
      split
      · exact .inl rfl
      · exact .inr rfl
  | bestEffort => exact .inl rfl
  | sequentialFallback => exact .inl rfl
  | externalCompensating => exact .inl rfl

theorem tradeQty_nonneg (h : ∀ leg ∈ order.legs, PlainLeg leg) (htrades : order.Trades)
    (leg : VectorLeg) : 0 ≤ (order.tradeQty leg).toRat := by
  have hcaps : ∀ fc ∈ computeFeasibleCaps order, 0 ≤ fc.cap.toRat := by
    intro fc hfc
    obtain ⟨leg', hleg', rfl⟩ := mem_map.mp hfc
    exact (h leg' hleg').cap_nonneg
  have hcap := capOf_nonneg hcaps leg
  obtain ⟨units, hunits, hpolicy⟩ := htrades
  unfold tradeQty
  rw [hunits]
  dsimp only
  split_ifs with hbest
  · exact hcap
  · have hpositive := hpolicy.resolve_left hbest
    have hscale : 0 ≤ (policyDecision order units).gExec.scale := by
      rcases gExec_cases order units with hzero | hfeasible
      · rw [hzero]
        exact le_rfl
      · rw [hfeasible]
        exact feasible_scale_nonneg hunits
    have hproduct := mul_toRat_nonneg (nonneg_of_cmp_pos hscale hpositive) (absRatio_nonneg leg)
    unfold ratioQty Decimal.min
    split_ifs
    · exact hproduct
    · exact hcap

variable {prices : ReferencePrices}

theorem execQty_nonneg_of_solve (h : ∀ leg ∈ order.legs, PlainLeg leg) {lr : GroupLegResult}
    (hlr : lr ∈ (solveGroup prices order).solve.legExecs.map (LegExec.result prices)) :
    0 ≤ lr.execQty.toRat := by
  rcases solveGroup_legExecs order prices with ⟨htrades, -, hexecs⟩ | ⟨-, hexecs⟩
  · rw [hexecs] at hlr
    obtain ⟨e, he, rfl⟩ := mem_map.mp hlr
    obtain ⟨leg, -, rfl⟩ := mem_map.mp he
    exact tradeQty_nonneg h htrades leg
  · rw [hexecs] at hlr
    cases hlr

theorem plainLeg_of_load {ratioBasis legId : String} {row : ComboLegRow} {leg : VectorLeg}
    (hrate : 0 ≤ row.qRate.units) (h : loadLeg ratioBasis legId row = some leg) : PlainLeg leg := by
  simp only [loadLeg, bind_eq_bind, bind_eq_some_iff] at h
  obtain ⟨magnitude, -, pLow, -, pHigh, -, qRate, hqRate, qMax, -, filledCum, -, hleg⟩ := h
  cases hleg
  refine ⟨rfl, rfl, rfl, ?_⟩
  change 0 ≤ qRate.toRat
  rw [toRat_of_parse hqRate]
  unfold PgNumeric.toRat
  positivity

variable {groups : List MultiLegVectorOrder} {groupIds : String → String}
  {eg : ExecutionGroupEvent} {tables : ComboTables} {batchId : String}

theorem execQty_nonneg_of_published
    (hrates : ∀ legId row, tables.legs.lookup legId = some row → 0 ≤ row.qRate.units)
    (hload : loadActiveGroups tables = some groups)
    (heg : eg ∈ publishedGroups groupIds batchId groups prices)
    {lr : GroupLegResult} (hlr : lr ∈ eg.legResults) :
    0 ≤ lr.execQty.toRat := by
  obtain ⟨g, hg, -, order, -, -, -, rfl⟩ := mem_publishedGroups.mp heg
  obtain ⟨⟨g', hg', rfl⟩, -⟩ := mem_internalGroups.mp hg
  refine execQty_nonneg_of_solve (fun leg hleg => ?_) hlr
  have hmem : leg ∈ g'.legs := (mem_filter.mp hleg).1
  obtain ⟨ratioBasis, row, hrow, -, hleg'⟩ := row_of_mem_legs hload hg' hmem
  exact plainLeg_of_load (hrates leg.legId row hrow) hleg'

theorem loads_of_published
    (hload : loadActiveGroups tables = some groups)
    (heg : eg ∈ publishedGroups groupIds batchId groups prices) :
    ∃ combo, tables.comboOrders.lookup eg.parentOrderId = some combo ∧ groupLoads combo = true := by
  obtain ⟨g, -, -, order, horder, -, -, rfl⟩ := mem_publishedGroups.mp heg
  obtain ⟨⟨g', hg', rfl⟩, -⟩ := mem_internalGroups.mp horder
  obtain ⟨row, hrow, hactive, -⟩ := row_of_mem_loadActiveGroups hload hg'
  exact ⟨row, hrow, hactive⟩

theorem parent_of_publishResult {r : GroupBatchResult}
    (h : publishResult groupIds batchId groups prices r = some eg) :
    eg.parentOrderId = r.parentOrderId := by
  unfold publishResult at h
  cases hfound : findGroup groups r.parentOrderId with
  | none =>
      rw [hfound] at h
      cases h
  | some order =>
      rw [hfound] at h
      dsimp only at h
      split_ifs at h
      cases h
      have hmem := mem_of_getLast? hfound
      exact of_decide_eq_true (mem_filter.mp hmem).2

theorem nodup_published_parents (hload : loadActiveGroups tables = some groups)
    (groupIds : String → String) (batchId : String) (prices : ReferencePrices) :
    ((publishedGroups groupIds batchId groups prices).map
      ExecutionGroupEvent.parentOrderId).Nodup := by
  have hgroups : groups.Pairwise (fun g g' => g.parentOrderId ≠ g'.parentOrderId) :=
    pairwise_map.mp (nodup_parents_of_load hload)
  have hinternal : (internalGroups groups).Pairwise
      (fun g g' => g.parentOrderId ≠ g'.parentOrderId) :=
    (hgroups.map internalPart (fun _ _ => id)).filter _
  have hsolved : (executeGroups (internalGroups groups) prices).Pairwise
      (fun r r' => r.parentOrderId ≠ r'.parentOrderId) :=
    hinternal.map _ (fun _ _ => id)
  refine pairwise_map.mpr (hsolved.filterMap _ (fun r r' hne eg heg eg' heg' => ?_))
  rw [parent_of_publishResult heg, parent_of_publishResult heg']
  exact hne

end Published

end Matching
end ContExchange
