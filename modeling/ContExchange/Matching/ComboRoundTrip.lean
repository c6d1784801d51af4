import ContExchange.Matching.ComboTexts
import ContExchange.OrderFlow.ComboStorage

/-!
# Matching: a combo on its way through the database

What `LoadActiveGroups` makes of the rows that `InsertComboOrder` wrote, for a combo in
`multileg_vector_solver` mode.  `Survives` says that the load succeeds and gives the combo
back, `TripOk` is the condition on the combo and on the tables before, and
`combo_survives_iff` is their equivalence.

The reader asks for the basis "quantity", the writer stores "quantity_ratio"; a missing
basis is stored as NULL, which the reader cannot take; a row whose id is stored already is
not written; names and keys are put into the texts without escapes.
-/

namespace ContExchange
namespace Matching

open Common Lib Decimal Table List
open Option hiding map mem_map
open OrderFlow

/-- The amount of a leg on the basis of its combo. -/
def amountOf (basis : RatioBasis) (leg : Leg) : Option Decimal :=
  match basis with
  | .quantityRatio => leg.ratio
  | .notionalWeight => leg.weight
  | .unspecified => none

structure LegSurvives (basis : RatioBasis) (leg : Leg) (loaded : VectorLeg) : Prop where
  legId : loaded.legId = leg.legId
  instrumentSymbol : loaded.instrumentSymbol = leg.instrumentSymbol
  targetRatio : ∃ amount, amountOf basis leg = some amount ∧
    loaded.targetRatio.toRat = if leg.side = .sell then -amount.toRat else amount.toRat
  pLow : loaded.pLow.toRat = leg.pLow.toRat
  pHigh : loaded.pHigh.toRat = leg.pHigh.toRat
  qRate : loaded.qRate.toRat = leg.qRate.toRat
  qMax : loaded.qMax.toRat = leg.qMax.toRat
  venuePreferences : loaded.venuePreferences = leg.venuePreferences

/-- What a leg has to be for that.  On the quantity basis the loader takes the weight,
which is missing. -/
structure LegTrips (basis : RatioBasis) (leg : Leg) : Prop where
  amount :
    basis = .notionalWeight ∧ (∃ weight, leg.weight = some weight ∧ ColumnExact weight) ∨
      basis = .quantityRatio ∧ ∃ ratio, leg.ratio = some ratio ∧ ratio.units = 0
  pLow : ColumnExact leg.pLow
  pHigh : ColumnExact leg.pHigh
  qRate : ColumnExact leg.qRate
  qMax : ColumnExact leg.qMax
  venuePreferences : ∀ s ∈ leg.venuePreferences, PlainVenue s

section Legs

variable {p basisText : String} {basis : RatioBasis} {leg : Leg} {row : ComboLegRow}

theorem comboLegRow_spec (h : comboLegRow p leg = some row) :
    row.instrumentSymbol = leg.instrumentSymbol ∧ (row.side = "sell" ↔ leg.side = .sell) ∧
      row.weight = leg.weight.map toPgNumeric ∧ row.pLow = toPgNumeric leg.pLow ∧
      row.pHigh = toPgNumeric leg.pHigh ∧ row.qRate = toPgNumeric leg.qRate ∧
      row.qMax = toPgNumeric leg.qMax ∧ row.filledCum = toPgNumeric leg.filledCum ∧
      arrayElements (venuePrefsArray leg.venuePreferences) = some row.venuePreferences ∧
      row.status = "active" ∧ ∀ d ∈ leg.numbers, Prints d := by
  simp only [comboLegRow, bind_eq_bind, bind_eq_some_iff] at h
  obtain ⟨side, hside, prefs, hprefs, hrow⟩ := h
  obtain ⟨hprints, hrow⟩ := ite_none_right_eq_some.mp hrow
  cases hrow
  refine ⟨rfl, ?_, rfl, rfl, rfl, rfl, rfl, rfl, hprefs, rfl, hprints⟩
  dsimp only
  revert hside
  cases leg.side <;> rintro ⟨⟩ <;> decide

theorem basisText_ne_quantity (h : nullIfEmpty (ratioBasisDb basis) = some basisText) :
    basisText ≠ "quantity" := by
  revert h
  cases basis <;> rintro ⟨⟩ <;> decide

theorem amount_survives_iff (hbasis : nullIfEmpty (ratioBasisDb basis) = some basisText)
    (hxor : leg.ratio.isSome ≠ leg.weight.isSome) (hprints : ∀ d ∈ leg.weight, Prints d) :
    (∃ magnitude, numOrZero (leg.weight.map toPgNumeric) = some magnitude ∧
      ∃ amount, amountOf basis leg = some amount ∧
        (if leg.side = .sell then Decimal.sub .zero magnitude else magnitude).toRat =
          if leg.side = .sell then -amount.toRat else amount.toRat) ↔
    (basis = .notionalWeight ∧ (∃ weight, leg.weight = some weight ∧ ColumnExact weight) ∨
      basis = .quantityRatio ∧ ∃ ratio, leg.ratio = some ratio ∧ ratio.units = 0) := by
  cases basis with
  | unspecified => cases hbasis
  | notionalWeight =>
      have hother : ¬ (RatioBasis.notionalWeight = .quantityRatio ∧
          ∃ ratio, leg.ratio = some ratio ∧ ratio.units = 0) := fun h => nomatch h.1
      rw [or_iff_left hother]
      simp only [amountOf, true_and]
      cases hw : leg.weight with
      | none => simp
      | some w =>
          have hw' : Prints w := hprints w (by rw [hw]; rfl)
          simp only [map_some, numOrZero, some_inj, exists_eq_left']
          by_cases hsell : leg.side = .sell
          · simp only [hsell, if_true]
            constructor
            · rintro ⟨m, hparse, hval⟩
              exact (column_negates_iff hw' hparse).mp hval
            · intro hok
              obtain ⟨m, hparse, -⟩ := (column_exact_iff hw').mpr hok
              exact ⟨m, hparse, (column_negates_iff hw' hparse).mpr hok⟩
          · simp only [hsell, if_false]
            exact column_exact_iff hw'
  | quantityRatio =>
      have hother : ¬ (RatioBasis.quantityRatio = .notionalWeight ∧
          ∃ weight, leg.weight = some weight ∧ ColumnExact weight) := fun h => nomatch h.1
      rw [or_iff_right hother]
      simp only [amountOf, true_and]
      cases hr : leg.ratio with
      | none => simp
      | some r =>
          have hnone : leg.weight = none := by
            rw [hr] at hxor
            cases hw : leg.weight with
            | none => rfl
            | some w =>
                rw [hw] at hxor
                exact absurd rfl hxor
          have hsub : (Decimal.sub .zero .zero).toRat = 0 := by
            exact toRat_zero
          simp only [hnone, map_none, numOrZero, some_inj, exists_eq_left']
          rw [← toRat_eq_zero_iff]
          split
          · constructor <;> intro h <;> linarith
          · rw [toRat_zero]
            exact eq_comm

theorem leg_survives_iff (hrow : comboLegRow p leg = some row)
    (hbasis : nullIfEmpty (ratioBasisDb basis) = some basisText)
    (hxor : leg.ratio.isSome ≠ leg.weight.isSome) (hfilled : leg.filledCum = .zero) :
    (∃ loaded, loadLeg basisText leg.legId row = some loaded ∧ LegSurvives basis leg loaded) ↔
      LegTrips basis leg := by
  obtain ⟨hsymbol, hside, hweight, hlow, hhigh, hrate, hmax, hcum, hprefs, -, hprints⟩ :=
    comboLegRow_spec hrow
  have hvenues := venues_exact_iff hprefs
  have hamount := amount_survives_iff hbasis hxor
    fun d hd => hprints d (mem_append_left _ (mem_append_right _ (mem_toList.mpr hd)))
  have hfixed : ∀ d ∈ [leg.pLow, leg.pHigh, leg.qRate, leg.qMax, leg.filledCum], Prints d :=
    fun d hd => hprints d (mem_append_right _ hd)
  have hexact : ∀ d ∈ [leg.pLow, leg.pHigh, leg.qRate, leg.qMax, leg.filledCum],
      (∃ d', parsePgNumeric (toPgNumeric d) = some d' ∧ d'.toRat = d.toRat) ↔ ColumnExact d :=
    fun d hd => column_exact_iff (hfixed d hd)
  have hsign : ∀ m : Decimal,
      (if row.side = "sell" then Decimal.sub .zero m else m) =
        if leg.side = .sell then Decimal.sub .zero m else m := by
    intro m
    simp only [hside]
  constructor
  · rintro ⟨loaded, hload, hsurvives⟩
    simp only [loadLeg, if_neg (basisText_ne_quantity hbasis), bind_eq_bind,
      bind_eq_some_iff] at hload
    obtain ⟨m, hm, low, hlow', high, hhigh', rate, hrate', max, hmax', cum, -, hleg⟩ := hload
    cases hleg
    obtain ⟨-, -, ⟨amount, hgiven, htarget⟩, hl, hh, hr, hx, hv⟩ := hsurvives
    rw [hweight] at hm
    rw [hlow] at hlow'
    rw [hhigh] at hhigh'
    rw [hrate] at hrate'
    rw [hmax] at hmax'
    rw [hsign] at htarget
    exact
      { amount := hamount.mp ⟨m, hm, amount, hgiven, htarget⟩
        pLow := (hexact _ (by simp)).mp ⟨low, hlow', hl⟩
        pHigh := (hexact _ (by simp)).mp ⟨high, hhigh', hh⟩
        qRate := (hexact _ (by simp)).mp ⟨rate, hrate', hr⟩
        qMax := (hexact _ (by simp)).mp ⟨max, hmax', hx⟩
        venuePreferences := hvenues.mp hv }
  · intro hok
    obtain ⟨m, hm, amount, hgiven, htarget⟩ := hamount.mpr hok.amount
    obtain ⟨low, hlow', hl⟩ := (hexact _ (by simp)).mpr hok.pLow
    obtain ⟨high, hhigh', hh⟩ := (hexact _ (by simp)).mpr hok.pHigh
    obtain ⟨rate, hrate', hr⟩ := (hexact _ (by simp)).mpr hok.qRate
    obtain ⟨max, hmax', hx⟩ := (hexact _ (by simp)).mpr hok.qMax
    obtain ⟨cum, hcum', -⟩ := (hexact leg.filledCum (by simp)).mpr (by rw [hfilled]; decide)
    rw [← hweight] at hm
    rw [← hlow] at hlow'
    rw [← hhigh] at hhigh'
    rw [← hrate] at hrate'
    rw [← hmax] at hmax'
    rw [← hcum] at hcum'
    rw [← hsign] at htarget
    have hload : loadLeg basisText leg.legId row =
        some
          { legId := leg.legId
            instrumentSymbol := row.instrumentSymbol
            targetRatio := if row.side = "sell" then Decimal.sub .zero m else m
            pLow := low
            pHigh := high
            qRate := rate
            qMax := max
            filledCum := cum
            venuePreferences := venuePreferencesOf row } := by
      simp only [loadLeg, if_neg (basisText_ne_quantity hbasis), bind_eq_bind,
        hm, hlow', hhigh', hrate', hmax', hcum', bind_some]
    exact ⟨_, hload,
      { legId := rfl
        instrumentSymbol := hsymbol
        targetRatio := ⟨amount, hgiven, htarget⟩
        pLow := hl
        pHigh := hh
        qRate := hr
        qMax := hx
        venuePreferences := hvenues.mpr hok.venuePreferences }⟩

end Legs

/-- The type that the solver knows a constraint by; it evaluates three of them. -/
def groupConstraintType : ConstraintType → GroupConstraintType
  | .spreadRange => .spreadRange
  | .factorNeutrality => .factorNeutrality
  | .maxTotalNotional => .maxTotalNotional
  | .maxWeightDeviation | .maxLeverage | .maxMargin | .riskLimit | .ratioEquality => .other

/-- The severity that the solver knows a constraint by. -/
def groupSeverity : ConstraintSeverity → GroupConstraintSeverity
  | .hard => .hard
  | .soft => .soft

/-- The loaded constraint is the constraint of the combo. -/
structure ConstraintSurvives (c : MultiLegConstraint) (loaded : GroupConstraint) : Prop where
  constraintId : loaded.constraintId = c.constraintId
  type : loaded.type = groupConstraintType c.type
  lower : loaded.lower.map Decimal.toRat = c.lower.map Decimal.toRat
  upper : loaded.upper.map Decimal.toRat = c.upper.map Decimal.toRat
  severity : loaded.severity = groupSeverity c.severity
  coefficients : ∀ s,
    (loaded.coefficients.lookup s).map Decimal.toRat =
      (c.coefficients.lookup s).map Decimal.toRat

structure ConstraintTrips (c : MultiLegConstraint) : Prop where
  lower : ∀ d, c.lower = some d → ColumnExact d
  upper : ∀ d, c.upper = some d → ColumnExact d
  coefficients : ∀ k d, c.coefficients.lookup k = some d →
    PlainText k.toList ∧ TextExact d

section Constraints

variable {p : String} {c : MultiLegConstraint} {row : ComboConstraintRow}

theorem bound_survives_iff (bound : Option Decimal) (hprints : ∀ d ∈ bound, Prints d) :
    (∃ loaded, optionalNumeric (bound.map toPgNumeric) = some loaded ∧
        loaded.map Decimal.toRat = bound.map Decimal.toRat) ↔
      ∀ d, bound = some d → ColumnExact d := by
  cases bound with
  | none => simp [optionalNumeric]
  | some d =>
      simp only [map_some, optionalNumeric, some_inj, forall_eq']
      rw [← column_exact_iff (hprints d rfl)]
      constructor
      · rintro ⟨loaded, hload, hval⟩
        obtain ⟨d', hparse, rfl⟩ := map_eq_some_iff.mp hload
        exact ⟨d', hparse, some_inj.mp hval⟩
      · rintro ⟨d', hparse, hval⟩
        exact ⟨some d', by rw [hparse]; rfl, congrArg some hval⟩

theorem constraint_survives_iff (hrow : comboConstraintRow p c = some row) :
    (∃ loaded, loadConstraint c.constraintId row = some loaded ∧ ConstraintSurvives c loaded) ↔
      ConstraintTrips c := by
  simp only [comboConstraintRow, bind_eq_bind, bind_eq_some_iff] at hrow
  obtain ⟨members, hmembers, hrow⟩ := hrow
  obtain ⟨⟨hbounds, hmade⟩, hrow⟩ := ite_none_right_eq_some.mp hrow
  cases hrow
  have hcoefficients := coefficients_survive_iff hmembers fun k d hd =>
    hmade ⟨k, d⟩ (AList.mem_lookup_iff.mp hd)
  have hlower := bound_survives_iff c.lower fun d hd =>
    hbounds d (mem_append_left _ (mem_append_left _ (mem_toList.mpr hd)))
  have hupper := bound_survives_iff c.upper fun d hd =>
    hbounds d (mem_append_left _ (mem_append_right _ (mem_toList.mpr hd)))
  constructor
  · rintro ⟨loaded, hload, hsurvives⟩
    simp only [loadConstraint, bind_eq_bind, bind_eq_some_iff] at hload
    obtain ⟨lower, hlower', upper, hupper', m, hm, hc⟩ := hload
    cases hc
    obtain ⟨-, -, hl, hu, -, hsame⟩ := hsurvives
    exact
      { lower := hlower.mp ⟨lower, hlower', hl⟩
        upper := hupper.mp ⟨upper, hupper', hu⟩
        coefficients := hcoefficients.mp ⟨m, hm, hsame⟩ }
  · rintro ⟨hl, hu, hc⟩
    obtain ⟨lower, hlower, hl⟩ := hlower.mpr hl
    obtain ⟨upper, hupper, hu⟩ := hupper.mpr hu
    obtain ⟨m, hm, hsame⟩ := hcoefficients.mpr hc
    have htype : constraintTypeFromDb (constraintTypeDb c.type) = groupConstraintType c.type := by
      cases c.type <;> decide
    have hseverity : (if severityDb c.severity = "soft" then GroupConstraintSeverity.soft
        else .hard) = groupSeverity c.severity := by
      cases c.severity <;> decide
    have hload : loadConstraint c.constraintId
          { parentOrderId := p
            constraintType := constraintTypeDb c.type
            coefficients := members
            lowerBound := c.lower.map toPgNumeric
            upperBound := c.upper.map toPgNumeric
            value := c.value.map toPgNumeric
            valueBps := c.valueBps
            severity := severityDb c.severity } =
        some
          { constraintId := c.constraintId
            type := groupConstraintType c.type
            coefficients := m
            lower
            upper
            severity := groupSeverity c.severity } := by
      simp only [loadConstraint, hlower, hupper, hm, bind_eq_bind, bind_some, htype, hseverity]
    exact ⟨_, hload, ⟨rfl, rfl, hl, hu, rfl, hsame⟩⟩

end Constraints

/-- The columns of a leg that the loader reads fit. -/
structure LegReads (basisText : String) (row : ComboLegRow) : Prop where
  magnitude : (numOrZero (if basisText = "quantity" then row.ratio else row.weight)).isSome
  pLow : (parsePgNumeric row.pLow).isSome
  pHigh : (parsePgNumeric row.pHigh).isSome
  qRate : (parsePgNumeric row.qRate).isSome
  qMax : (parsePgNumeric row.qMax).isSome
  filledCum : (parsePgNumeric row.filledCum).isSome

/-- The bounds of a constraint fit, and the texts of its coefficients are decimals. -/
structure ConstraintReads (row : ComboConstraintRow) : Prop where
  lowerBound : (optionalNumeric row.lowerBound).isSome
  upperBound : (optionalNumeric row.upperBound).isSome
  coefficients : ∀ k text, row.coefficients.lookup k = some text →
    (parsePgNumericText text).isSome

/-- The row of a group has a basis and can be read with its open legs and constraints. -/
structure GroupReads (tables : ComboTables) (comboOrderId : String) (row : ComboOrderRow) :
    Prop where
  ratioBasis : row.ratioBasis.isSome
  minExecutionScale : (numOrZero row.minExecutionScale).isSome
  legs : ∀ basisText k leg, row.ratioBasis = some basisText → tables.legs.lookup k = some leg →
    legLoads comboOrderId leg = true → LegReads basisText leg
  constraints : ∀ k c, tables.constraints.lookup k = some c → c.parentOrderId = comboOrderId →
    ConstraintReads c

def Readable (tables : ComboTables) : Prop :=
  ∀ k row, tables.comboOrders.lookup k = some row → groupLoads row = true →
    GroupReads tables k row

section Reading

variable {tables : ComboTables}

theorem isSome_loadLeg {basisText legId : String} {row : ComboLegRow} :
    (loadLeg basisText legId row).isSome ↔ LegReads basisText row := by
  simp only [isSome_iff_exists, loadLeg, bind_eq_bind, bind_eq_some_iff]
  constructor
  · rintro ⟨leg, m, hm, low, hlow, high, hhigh, rate, hrate, max, hmax, cum, hcum, -⟩
    constructor <;> rw [isSome_iff_exists]
    exacts [⟨m, hm⟩, ⟨low, hlow⟩, ⟨high, hhigh⟩, ⟨rate, hrate⟩, ⟨max, hmax⟩, ⟨cum, hcum⟩]
  · rintro ⟨hm, hlow, hhigh, hrate, hmax, hcum⟩
    rw [isSome_iff_exists] at hm hlow hhigh hrate hmax hcum
    obtain ⟨m, hm⟩ := hm
    obtain ⟨low, hlow⟩ := hlow
    obtain ⟨high, hhigh⟩ := hhigh
    obtain ⟨rate, hrate⟩ := hrate
    obtain ⟨max, hmax⟩ := hmax
    obtain ⟨cum, hcum⟩ := hcum
    exact ⟨_, m, hm, low, hlow, high, hhigh, rate, hrate, max, hmax, cum, hcum, rfl⟩

theorem isSome_loadConstraint {constraintId : String} {row : ComboConstraintRow} :
    (loadConstraint constraintId row).isSome ↔ ConstraintReads row := by
  simp only [isSome_iff_exists, loadConstraint, bind_eq_bind, bind_eq_some_iff]
  constructor
  · rintro ⟨c, lower, hlower, upper, hupper, m, hm, -⟩
    constructor
    · exact isSome_iff_exists.mpr ⟨lower, hlower⟩
    · exact isSome_iff_exists.mpr ⟨upper, hupper⟩
    · exact isSome_loadCoefficients.mp (isSome_iff_exists.mpr ⟨m, hm⟩)
  · rintro ⟨hlower, hupper, hm⟩
    obtain ⟨lower, hlower⟩ := isSome_iff_exists.mp hlower
    obtain ⟨upper, hupper⟩ := isSome_iff_exists.mp hupper
    obtain ⟨m, hm⟩ := isSome_iff_exists.mp (isSome_loadCoefficients.mpr hm)
    exact ⟨_, lower, hlower, upper, hupper, m, hm, rfl⟩

theorem isSome_loadGroup {comboOrderId : String} {row : ComboOrderRow} :
    (loadGroup tables comboOrderId row).isSome ↔ GroupReads tables comboOrderId row := by
  rw [isSome_iff_exists]
  simp only [loadGroup, bind_eq_bind, bind_eq_some_iff]
  constructor
  · rintro ⟨g, scale, hscale, basis, hbasis, legs, hlegs, constraints, hconstraints, -⟩
    constructor
    · exact isSome_iff_exists.mpr ⟨basis, hbasis⟩
    · exact isSome_iff_exists.mpr ⟨scale, hscale⟩
    · intro basisText k leg hbasis' hleg hloads
      rw [hbasis] at hbasis'
      cases hbasis'
      exact isSome_loadLeg.mp
        (isSome_mapM_iff.mp (isSome_iff_exists.mpr ⟨legs, hlegs⟩) ⟨k, leg⟩
          (mem_legRows.mpr ⟨hleg, hloads⟩))
    · intro k c hc hparent
      exact isSome_loadConstraint.mp
        (isSome_mapM_iff.mp (isSome_iff_exists.mpr ⟨constraints, hconstraints⟩) ⟨k, c⟩
          (mem_constraintRows.mpr ⟨hc, hparent⟩))
  · rintro ⟨hbasis, hscale, hlegs, hconstraints⟩
    obtain ⟨basis, hbasis⟩ := isSome_iff_exists.mp hbasis
    obtain ⟨scale, hscale⟩ := isSome_iff_exists.mp hscale
    have hlegRows : ((legRows tables comboOrderId).mapM (fun e => loadLeg basis e.1 e.2)).isSome := by
      rw [isSome_mapM_iff]
      intro e he
      obtain ⟨hleg, hloads⟩ := mem_legRows.mp he
      exact isSome_loadLeg.mpr (hlegs basis e.1 e.2 hbasis hleg hloads)
    have hconstraintRows :
        ((constraintRows tables comboOrderId).mapM (fun e => loadConstraint e.1 e.2)).isSome := by
      rw [isSome_mapM_iff]
      intro e he
      obtain ⟨hc, hparent⟩ := mem_constraintRows.mp he
      exact isSome_loadConstraint.mpr (hconstraints e.1 e.2 hc hparent)
    obtain ⟨legs, hlegs⟩ := isSome_iff_exists.mp hlegRows
    obtain ⟨constraints, hconstraints⟩ := isSome_iff_exists.mp hconstraintRows
    exact ⟨_, scale, hscale, basis, hbasis, legs, hlegs, constraints, hconstraints, rfl⟩

theorem isSome_loadActiveGroups : (loadActiveGroups tables).isSome ↔ Readable tables := by
  unfold loadActiveGroups Readable
  rw [isSome_mapM_iff]
  constructor
  · intro h k row hrow hloads
    exact isSome_loadGroup.mp (h ⟨k, row⟩ (mem_groupRows.mpr ⟨hrow, hloads⟩))
  · intro h e he
    obtain ⟨hrow, hloads⟩ := mem_groupRows.mp he
    exact isSome_loadGroup.mpr (h e.1 e.2 hrow hloads)

end Reading

/-- The policy that the solver knows a combo by. -/
def groupAtomicityPolicy : AtomicityPolicy → Option GroupAtomicityPolicy
  | .unspecified => none
  | .strictAtomic => some .strictAtomic
  | .scalableAtomic => some .scalableAtomic
  | .bestEffort => some .bestEffort
  | .sequentialFallback => some .sequentialFallback
  | .externalCompensating => some .externalCompensating

/-- The fallback that the solver knows a combo by. -/
def groupFallbackPolicy : FallbackPolicy → Option GroupFallbackPolicy
  | .unspecified => none
  | .scaleDown => some .scaleDown
  | .waitNextBatch => some .waitNextBatch
  | .cancel => some .cancel
  | .degrade => some .degrade
  | .compensate => some .compensate

structure GroupSurvives (combo : ComboOrder) (g : MultiLegVectorOrder) : Prop where
  parentOrderId : g.parentOrderId = combo.comboOrderId
  atomicityPolicy : groupAtomicityPolicy combo.atomicityPolicy = some g.atomicityPolicy
  fallbackPolicy : groupFallbackPolicy combo.fallbackPolicy = some g.fallbackPolicy
  minExecutionScale :
    g.minExecutionScale.toRat = (combo.minExecutionScale.getD Decimal.zero).toRat
  legIds : (g.legs.map VectorLeg.legId).Perm (combo.legs.map Leg.legId)
  legs : ∀ leg ∈ combo.legs, ∃ loaded ∈ g.legs, LegSurvives combo.ratioBasis leg loaded
  constraintIds :
    (g.constraints.map GroupConstraint.constraintId).Perm
      (combo.constraints.map MultiLegConstraint.constraintId)
  constraints : ∀ c ∈ combo.constraints, ∃ loaded ∈ g.constraints, ConstraintSurvives c loaded

def Survives (combo : ComboOrder) (tables : ComboTables) : Prop :=
  ∃ groups, loadActiveGroups tables = some groups ∧ ∃ g ∈ groups, GroupSurvives combo g

/-- When it does, in terms of the combo and of the tables before the insert. -/
structure TripOk (combo : ComboOrder) (tables : ComboTables) : Prop where
  readable : Readable tables
  ratioBasis : combo.ratioBasis ≠ .unspecified
  minExecutionScale : ∀ d, combo.minExecutionScale = some d → ColumnExact d
  legIds : (combo.legs.map Leg.legId).Nodup
  legsNew : ∀ leg ∈ combo.legs, tables.legs.lookup leg.legId = none
  legs : ∀ leg ∈ combo.legs, LegTrips combo.ratioBasis leg
  constraintIds : (combo.constraints.map MultiLegConstraint.constraintId).Nodup
  constraintsNew : ∀ c ∈ combo.constraints, tables.constraints.lookup c.constraintId = none
  constraints : ∀ c ∈ combo.constraints, ConstraintTrips c

/-- What holds of a valid combo in `multileg_vector_solver` mode that was built of a
request. -/
structure Built (combo : ComboOrder) : Prop where
  executionMode : combo.executionMode = .multilegVectorSolver
  atomicityPolicy : combo.atomicityPolicy ≠ .unspecified
  fallbackPolicy : combo.fallbackPolicy ≠ .unspecified
  amounts : ∀ leg ∈ combo.legs, leg.ratio.isSome ≠ leg.weight.isSome
  filledCum : ∀ leg ∈ combo.legs, leg.filledCum = Decimal.zero

section Combo

theorem legAmounts_of_validate {leg : Leg} (h : leg.validate = none) :
    leg.ratio.isSome ≠ leg.weight.isSome := by
  unfold Leg.validate at h
  intro hsame
  rw [if_pos hsame] at h
  split at h
  · cases h
  · split at h <;> cases h

theorem mapFallback_ne_unspecified (f : String) : mapFallback f ≠ .unspecified := by
  unfold mapFallback
  repeat' split
  all_goals exact fun h => nomatch h

theorem built_of_validate {ids : Uuids} {req : CreateComboOrderRequest}
    (hmode : req.executionMode = .multilegVectorSolver)
    (h : (buildDomain ids req).validate = none) : Built (buildDomain ids req) := by
  unfold ComboOrder.validate at h
  split at h
  · cases h
  · split at h
    · cases h
    · split at h
      · cases h
      · simp only [or_eq_none_iff, findSome?_eq_none_iff] at h
        obtain ⟨hlegs, -, -, hgroup⟩ := h
        refine ⟨hmode, ?_, mapFallback_ne_unspecified _, fun leg hleg =>
          legAmounts_of_validate (hlegs leg hleg), fun leg hleg => ?_⟩
        · intro hpolicy
          unfold ComboOrder.validateGroup at hgroup
          rw [if_pos ⟨hmode, hpolicy⟩] at hgroup
          cases hgroup
        · obtain ⟨i, hi, rfl⟩ := mem_mapIdx.mp hleg
          rfl

variable {combo : ComboOrder} {row : ComboOrderRow} {stored : StoredTables} {t' : ComboTables}

theorem comboOrderRow_spec (h : comboOrderRow combo = some row)
    (hmode : combo.executionMode = .multilegVectorSolver) :
    groupLoads row = true ∧ row.ratioBasis = nullIfEmpty (ratioBasisDb combo.ratioBasis) ∧
      row.atomicityPolicy = atomicityPolicyDb combo.atomicityPolicy ∧
      row.fallbackPolicy = fallbackPolicyDb combo.fallbackPolicy ∧
      row.minExecutionScale = combo.minExecutionScale.map toPgNumeric ∧
      ∀ d ∈ combo.minExecutionScale, Prints d := by
  simp only [comboOrderRow, hmode, execModeDb, bind_eq_bind, bind_some, bind_eq_some_iff] at h
  obtain ⟨comboType, -, hrow⟩ := h
  obtain ⟨hprints, hrow⟩ := ite_none_right_eq_some.mp hrow
  cases hrow
  exact ⟨groupLoads_iff.mpr ⟨rfl, Or.inl rfl⟩, rfl, rfl, rfl, rfl, hprints⟩

variable {k : String}

section Own

variable (hfresh : stored.tables.comboOrders.lookup combo.comboOrderId = none)
  (hins : Inserted combo row stored.tables t')

include hfresh hins

theorem own_leg {leg : ComboLegRow} (hrow : t'.legs.lookup k = some leg)
    (hparent : leg.parentOrderId = combo.comboOrderId) :
    stored.tables.legs.lookup k = none ∧
      ∃ l ∈ combo.legs, l.legId = k ∧ comboLegRow combo.comboOrderId l = some leg := by
  rcases hins.legs.lookup_cases hrow with hold | hnew
  · have hstored := stored.references.legs k leg hold
    rw [hparent, hfresh] at hstored
    cases hstored
  · exact hnew

theorem own_constraint {c : ComboConstraintRow} (hrow : t'.constraints.lookup k = some c)
    (hparent : c.parentOrderId = combo.comboOrderId) :
    stored.tables.constraints.lookup k = none ∧
      ∃ l ∈ combo.constraints, l.constraintId = k ∧
        comboConstraintRow combo.comboOrderId l = some c := by
  rcases hins.constraints.lookup_cases hrow with hold | hnew
  · have hstored := stored.references.constraints k c hold
    rw [hparent, hfresh] at hstored
    cases hstored
  · exact hnew

end Own

theorem groupReads_iff_of_ne
    (hins : Inserted combo row stored.tables t') (hk : k ≠ combo.comboOrderId) {r : ComboOrderRow} :
    GroupReads t' k r ↔ GroupReads stored.tables k r := by
  have hlegs : ∀ j leg, leg.parentOrderId = k →
      (t'.legs.lookup j = some leg ↔ stored.tables.legs.lookup j = some leg) := by
    intro j leg hparent
    refine ⟨fun h => ?_, hins.legs.lookup_old⟩
    rcases hins.legs.lookup_cases h with hold | ⟨-, l, -, -, hrow⟩
    · exact hold
    · exact absurd (hparent.symm.trans (comboLegRow_parent hrow)) hk
  have hconstraints : ∀ j c, c.parentOrderId = k →
      (t'.constraints.lookup j = some c ↔ stored.tables.constraints.lookup j = some c) := by
    intro j c hparent
    refine ⟨fun h => ?_, hins.constraints.lookup_old⟩
    rcases hins.constraints.lookup_cases h with hold | ⟨-, l, -, -, hrow⟩
    · exact hold
    · exact absurd (hparent.symm.trans (comboConstraintRow_parent hrow)) hk
  constructor
  · rintro ⟨hbasis, hscale, hl, hc⟩
    refine ⟨hbasis, hscale, fun b j leg hb hleg hloads => ?_, fun j c hrow hparent => ?_⟩
    · exact hl b j leg hb ((hlegs j leg (legLoads_iff.mp hloads).1).mpr hleg) hloads
    · exact hc j c ((hconstraints j c hparent).mpr hrow) hparent
  · rintro ⟨hbasis, hscale, hl, hc⟩
    refine ⟨hbasis, hscale, fun b j leg hb hleg hloads => ?_, fun j c hrow hparent => ?_⟩
    · exact hl b j leg hb ((hlegs j leg (legLoads_iff.mp hloads).1).mp hleg) hloads
    · exact hc j c ((hconstraints j c hparent).mp hrow) hparent

theorem readable_iff (hfresh : stored.tables.comboOrders.lookup combo.comboOrderId = none)
    (hins : Inserted combo row stored.tables t') (hloads : groupLoads row = true) :
    Readable t' ↔ Readable stored.tables ∧ GroupReads t' combo.comboOrderId row := by
  have hlookup : ∀ k, t'.comboOrders.lookup k =
      (stored.tables.comboOrders.lookup k).or
        (if combo.comboOrderId = k then some row else none) := by
    intro k
    rw [hins.comboOrders, lookup_insertNew]
  constructor
  · intro h
    refine ⟨fun k r hr hactive => ?_, h _ row ?_ hloads⟩
    · have hk : k ≠ combo.comboOrderId := by
        rintro rfl
        rw [hfresh] at hr
        cases hr
      refine (groupReads_iff_of_ne hins hk).mp (h k r ?_ hactive)
      rw [hlookup, hr]
      rfl
    · rw [hlookup, hfresh, if_pos rfl]
      rfl
  · rintro ⟨hold, hnew⟩ k r hr hactive
    by_cases hk : k = combo.comboOrderId
    · subst hk
      rw [hlookup, hfresh, if_pos rfl] at hr
      cases hr
      exact hnew
    · rw [hlookup, if_neg (Ne.symm hk), or_none] at hr
      exact (groupReads_iff_of_ne hins hk).mpr (hold k r hr hactive)

/-- A list that is loaded from the rows of a table is the list that was inserted when the
ids were different and new and every member can be given back. -/
theorem loaded_iff_inserted
    {α ν L : Type} {key : α → String} {rowOf : α → Option ν} {as : List α}
    {old new : Table String ν} (own : ν → Prop) (load : String → ν → Option L)
    (Same : α → L → Prop) (Ok : α → Prop) (hins : RowsInserted key rowOf as old new)
    {rows : List (Sigma fun _ : String => ν)}
    (hrows : ∀ e, e ∈ rows ↔ new.lookup e.1 = some e.2 ∧ own e.2)
    (hnodup : (rows.map Sigma.fst).Nodup)
    (hown : ∀ k v, new.lookup k = some v → own v →
      old.lookup k = none ∧ ∃ a ∈ as, key a = k ∧ rowOf a = some v)
    (hmine : ∀ a ∈ as, ∀ v, rowOf a = some v → own v)
    {idOf : L → String} (hid : ∀ k v l, load k v = some l → idOf l = k)
    (hsame : ∀ a l, Same a l → idOf l = key a)
    (hok : ∀ a ∈ as, ∀ v, rowOf a = some v → ((∃ l, load (key a) v = some l ∧ Same a l) ↔ Ok a))
    {ls : List L} (hload : List.Forall₂ (fun e l => load e.1 e.2 = some l) rows ls) :
    ((ls.map idOf).Perm (as.map key) ∧ ∀ a ∈ as, ∃ l ∈ ls, Same a l) ↔
      (as.map key).Nodup ∧ (∀ a ∈ as, old.lookup (key a) = none) ∧ ∀ a ∈ as, Ok a := by
  have hids : ls.map idOf = rows.map Sigma.fst :=
    map_eq_of_forall₂ (fun e l hl => hid e.1 e.2 l hl) hload
  constructor
  · rintro ⟨hperm, hall⟩
    have hkeys : (as.map key).Nodup := hperm.nodup_iff.mp (hids ▸ hnodup)
    have hmember : ∀ a ∈ as, old.lookup (key a) = none ∧ Ok a := by
      intro a ha
      obtain ⟨l, hl, hla⟩ := hall a ha
      obtain ⟨e, he, hel⟩ := exists_of_mem_forall₂ hload hl
      have hkey : e.1 = key a := (hid e.1 e.2 l hel).symm.trans (hsame a l hla)
      obtain ⟨hrow, hmineRow⟩ := (hrows e).mp he
      obtain ⟨hnew, b, hb, hbkey, hbrow⟩ := hown e.1 e.2 hrow hmineRow
      have hba : b = a := inj_on_of_nodup_map hkeys hb ha (hbkey.trans hkey)
      rw [hkey] at hnew hel
      exact ⟨hnew, (hok a ha e.2 (hba ▸ hbrow)).mp ⟨l, hel, hla⟩⟩
    exact ⟨hkeys, fun a ha => (hmember a ha).1, fun a ha => (hmember a ha).2⟩
  · rintro ⟨hkeys, hnew, hall⟩
    have hstored : ∀ a ∈ as, ∃ v, rowOf a = some v ∧ (⟨key a, v⟩ : Sigma fun _ => ν) ∈ rows := by
      intro a ha
      obtain ⟨v, hv⟩ := isSome_iff_exists.mp (hins.rows a ha)
      refine ⟨v, hv, (hrows _).mpr ⟨?_, hmine a ha v hv⟩⟩
      rw [hins.lookup_mem hkeys ha (hnew a ha), hv]
    refine ⟨?_, fun a ha => ?_⟩
    · rw [hids, perm_ext_iff_of_nodup hnodup hkeys]
      intro k
      rw [mem_map, mem_map]
      constructor
      · rintro ⟨e, he, rfl⟩
        obtain ⟨hrow, hmineRow⟩ := (hrows e).mp he
        obtain ⟨-, a, ha, hka, -⟩ := hown e.1 e.2 hrow hmineRow
        exact ⟨a, ha, hka⟩
      · rintro ⟨a, ha, rfl⟩
        obtain ⟨v, -, hmem⟩ := hstored a ha
        exact ⟨_, hmem, rfl⟩
    · obtain ⟨v, hv, hmem⟩ := hstored a ha
      obtain ⟨l, hl, hload⟩ := exists_of_mem_forall₂ hload.flip hmem
      obtain ⟨l', hload', hla⟩ := (hok a ha v hv).mpr (hall a ha)
      rw [hload] at hload'
      cases hload'
      exact ⟨l, hl, hla⟩

theorem loadGroup_parts {tables : ComboTables} {comboOrderId : String} {row : ComboOrderRow}
    {g : MultiLegVectorOrder} (h : loadGroup tables comboOrderId row = some g) :
    g.parentOrderId = comboOrderId ∧ g.atomicityPolicy = policyFromDb row.atomicityPolicy ∧
      g.fallbackPolicy = fallbackFromDb row.fallbackPolicy ∧
      numOrZero row.minExecutionScale = some g.minExecutionScale ∧
      (∃ basisText, row.ratioBasis = some basisText ∧
        List.Forall₂ (fun (e : Sigma fun _ : String => ComboLegRow) leg =>
          loadLeg basisText e.1 e.2 = some leg) (legRows tables comboOrderId) g.legs) ∧
      List.Forall₂ (fun (e : Sigma fun _ : String => ComboConstraintRow) c =>
        loadConstraint e.1 e.2 = some c) (constraintRows tables comboOrderId) g.constraints := by
  simp only [loadGroup, bind_eq_bind, bind_eq_some_iff] at h
  obtain ⟨scale, hscale, basis, hbasis, legs, hlegs, constraints, hconstraints, hg⟩ := h
  cases hg
  exact ⟨rfl, rfl, rfl, hscale, ⟨basis, hbasis, mapM_eq_some_iff.mp hlegs⟩,
    mapM_eq_some_iff.mp hconstraints⟩

theorem loadConstraint_id {constraintId : String} {row : ComboConstraintRow} {c : GroupConstraint}
    (h : loadConstraint constraintId row = some c) : c.constraintId = constraintId := by
  simp only [loadConstraint, bind_eq_bind, bind_eq_some_iff] at h
  obtain ⟨lower, -, upper, -, m, -, hc⟩ := h
  cases hc
  rfl

theorem minExecutionScale_survives_iff
    {bound : Option Decimal} (hprints : ∀ d ∈ bound, Prints d) :
    (∃ loaded, numOrZero (bound.map toPgNumeric) = some loaded ∧
        loaded.toRat = (bound.getD .zero).toRat) ↔
      ∀ d, bound = some d → ColumnExact d := by
  cases bound with
  | none => simp [numOrZero]
  | some d =>
      simp only [map_some, numOrZero, getD_some, some_inj, forall_eq']
      exact column_exact_iff (hprints d rfl)

theorem policy_survives {policy : AtomicityPolicy} (h : policy ≠ .unspecified) :
    groupAtomicityPolicy policy = some (policyFromDb (atomicityPolicyDb policy)) := by
  revert h
  cases policy <;> decide

theorem fallback_survives {fallback : FallbackPolicy} (h : fallback ≠ .unspecified) :
    groupFallbackPolicy fallback = some (fallbackFromDb (fallbackPolicyDb fallback)) := by
  revert h
  cases fallback <;> decide

theorem own_of_comboLegRow {p : String} {leg : Leg} {row : ComboLegRow}
    (h : comboLegRow p leg = some row) : legLoads p row = true := by
  obtain ⟨-, -, -, -, -, -, -, -, -, hstatus, -⟩ := comboLegRow_spec h
  refine legLoads_iff.mpr ⟨comboLegRow_parent h, ?_⟩
  rw [hstatus]
  decide

section Survival

variable (hbuilt : Built combo)
  (hfresh : stored.tables.comboOrders.lookup combo.comboOrderId = none)
  (hins : Inserted combo row stored.tables t')

include hbuilt hfresh hins

theorem group_survives_iff {g : MultiLegVectorOrder}
    (hload : loadGroup t' combo.comboOrderId row = some g) :
    GroupSurvives combo g ↔
      (∀ d, combo.minExecutionScale = some d → ColumnExact d) ∧
      ((combo.legs.map Leg.legId).Nodup ∧
        (∀ leg ∈ combo.legs, stored.tables.legs.lookup leg.legId = none) ∧
        ∀ leg ∈ combo.legs, LegTrips combo.ratioBasis leg) ∧
      ((combo.constraints.map MultiLegConstraint.constraintId).Nodup ∧
        (∀ c ∈ combo.constraints, stored.tables.constraints.lookup c.constraintId = none) ∧
        ∀ c ∈ combo.constraints, ConstraintTrips c) := by
  obtain ⟨-, hbasisRow, hpolicyRow, hfallbackRow, hscaleRow, hprints⟩ :=
    comboOrderRow_spec hins.stored hbuilt.executionMode
  obtain ⟨hid, hpolicy, hfallback, hscale, ⟨basisText, hbasis, hlegs⟩, hconstraints⟩ :=
    loadGroup_parts hload
  rw [hbasisRow] at hbasis
  have hlegsIff := loaded_iff_inserted
    (fun leg : ComboLegRow => legLoads combo.comboOrderId leg = true) (loadLeg basisText)
    (LegSurvives combo.ratioBasis) (LegTrips combo.ratioBasis) hins.legs
    (fun e => mem_legRows) (nodup_keys_sorted _ _)
    (fun k v hk hv => own_leg hfresh hins hk (legLoads_iff.mp hv).1)
    (fun leg hleg v hv => own_of_comboLegRow hv)
    (fun k v l hl => (loadLeg_spec hl).1) (fun leg l h => h.legId)
    (fun leg hleg v hv => leg_survives_iff hv hbasis (hbuilt.amounts leg hleg)
      (hbuilt.filledCum leg hleg))
    hlegs
  have hconstraintsIff := loaded_iff_inserted
    (fun c : ComboConstraintRow => c.parentOrderId = combo.comboOrderId) loadConstraint
    ConstraintSurvives ConstraintTrips hins.constraints
    (fun e => mem_constraintRows) (nodup_keys_sorted _ _)
    (fun k v hk hv => own_constraint hfresh hins hk hv)
    (fun c hc v hv => comboConstraintRow_parent hv)
    (fun k v l hl => loadConstraint_id hl) (fun c l h => h.constraintId)
    (fun c hc v hv => constraint_survives_iff hv)
    hconstraints
  rw [hscaleRow] at hscale
  have hscaleIff := minExecutionScale_survives_iff hprints
  constructor
  · rintro ⟨-, -, -, hval, hlegIds, hlegsAll, hconstraintIds, hconstraintsAll⟩
    exact ⟨hscaleIff.mp ⟨_, hscale, hval⟩, hlegsIff.mp ⟨hlegIds, hlegsAll⟩,
      hconstraintsIff.mp ⟨hconstraintIds, hconstraintsAll⟩⟩
  · rintro ⟨hscaleOk, hlegsOk, hconstraintsOk⟩
    obtain ⟨hlegIds, hlegsAll⟩ := hlegsIff.mpr hlegsOk
    obtain ⟨hconstraintIds, hconstraintsAll⟩ := hconstraintsIff.mpr hconstraintsOk
    obtain ⟨loaded, hloaded, hval⟩ := hscaleIff.mpr hscaleOk
    rw [hscale] at hloaded
    cases hloaded
    refine ⟨hid, ?_, ?_, hval, hlegIds, hlegsAll, hconstraintIds, hconstraintsAll⟩
    · rw [hpolicy, hpolicyRow]
      exact policy_survives hbuilt.atomicityPolicy
    · rw [hfallback, hfallbackRow]
      exact fallback_survives hbuilt.fallbackPolicy

theorem groupReads_of_ok (hok : TripOk combo stored.tables) :
    GroupReads t' combo.comboOrderId row := by
  obtain ⟨-, hbasisRow, -, -, hscaleRow, hprints⟩ :=
    comboOrderRow_spec hins.stored hbuilt.executionMode
  refine ⟨?_, ?_, fun basisText k leg hbasis hrow hloads => ?_, fun k c hrow hparent => ?_⟩
  · rw [hbasisRow]
    revert hok
    intro hok
    have hbasis := hok.ratioBasis
    revert hbasis
    cases combo.ratioBasis <;> decide
  · rw [hscaleRow]
    obtain ⟨loaded, hloaded, -⟩ :=
      (minExecutionScale_survives_iff hprints).mpr hok.minExecutionScale
    rw [hloaded]
    rfl
  · rw [hbasisRow] at hbasis
    obtain ⟨-, l, hl, hkey, hlegRow⟩ := own_leg hfresh hins hrow (legLoads_iff.mp hloads).1
    obtain ⟨loaded, hload, -⟩ := (leg_survives_iff hlegRow hbasis (hbuilt.amounts l hl)
      (hbuilt.filledCum l hl)).mpr (hok.legs l hl)
    exact isSome_loadLeg.mp (isSome_iff_exists.mpr ⟨loaded, hload⟩)
  · obtain ⟨-, l, hl, hkey, hconstraintRow⟩ := own_constraint hfresh hins hrow hparent
    obtain ⟨loaded, hload, -⟩ :=
      (constraint_survives_iff hconstraintRow).mpr (hok.constraints l hl)
    exact isSome_loadConstraint.mp (isSome_iff_exists.mpr ⟨loaded, hload⟩)

end Survival

end Combo

section RoundTrip

variable {ids : Uuids} {req : CreateComboOrderRequest} {t' : ComboTables}
variable (stored : StoredTables)

theorem lookup_inserted {combo : ComboOrder} {row : ComboOrderRow}
    (hfresh : stored.tables.comboOrders.lookup combo.comboOrderId = none)
    (hins : Inserted combo row stored.tables t') :
    t'.comboOrders.lookup combo.comboOrderId = some row := by
  rw [hins.comboOrders, lookup_insertNew, if_pos rfl, hfresh, none_or]

theorem tripOk_of_survives (hmode : req.executionMode = .multilegVectorSolver)
    (hfresh : stored.tables.comboOrders.lookup (buildDomain ids req).comboOrderId = none)
    (h : insertComboOrder (buildDomain ids req) stored.tables = some t')
    (hsurvives : Survives (buildDomain ids req) t') :
    TripOk (buildDomain ids req) stored.tables := by
  obtain ⟨row, hins⟩ := inserted_of_insert h
  have hbuilt := built_of_validate hmode hins.valid
  obtain ⟨hloads, hbasisRow, -⟩ := comboOrderRow_spec hins.stored hbuilt.executionMode
  obtain ⟨groups, hgroups, g, hg, hsame⟩ := hsurvives
  obtain ⟨r, hr, -, hload⟩ := row_of_mem_loadActiveGroups hgroups hg
  rw [hsame.parentOrderId] at hr hload
  rw [lookup_inserted stored hfresh hins] at hr
  cases hr
  obtain ⟨hold, hnew⟩ := (readable_iff hfresh hins hloads).mp
    (isSome_loadActiveGroups.mp (isSome_iff_exists.mpr ⟨groups, hgroups⟩))
  obtain ⟨hscale, ⟨hlegIds, hlegsNew, hlegs⟩, hconstraintIds, hconstraintsNew, hconstraints⟩ :=
    (group_survives_iff hbuilt hfresh hins hload).mp hsame
  refine ⟨hold, ?_, hscale, hlegIds, hlegsNew, hlegs, hconstraintIds, hconstraintsNew, hconstraints⟩
  intro hunspecified
  have hbasis := hnew.ratioBasis
  rw [hbasisRow, hunspecified] at hbasis
  cases hbasis

theorem survives_of_tripOk (hmode : req.executionMode = .multilegVectorSolver)
    (hfresh : stored.tables.comboOrders.lookup (buildDomain ids req).comboOrderId = none)
    (h : insertComboOrder (buildDomain ids req) stored.tables = some t')
    (hok : TripOk (buildDomain ids req) stored.tables) : Survives (buildDomain ids req) t' := by
  obtain ⟨row, hins⟩ := inserted_of_insert h
  have hbuilt := built_of_validate hmode hins.valid
  obtain ⟨hloads, -⟩ := comboOrderRow_spec hins.stored hbuilt.executionMode
  have hnew := groupReads_of_ok hbuilt hfresh hins hok
  obtain ⟨groups, hgroups⟩ := isSome_iff_exists.mp
    (isSome_loadActiveGroups.mpr ((readable_iff hfresh hins hloads).mpr ⟨hok.readable, hnew⟩))
  have hrow : (⟨(buildDomain ids req).comboOrderId, row⟩ :
      Sigma fun _ : String => ComboOrderRow) ∈ groupRows t' :=
    mem_groupRows.mpr ⟨lookup_inserted stored hfresh hins, hloads⟩
  obtain ⟨g, hg, hload⟩ := exists_of_mem_forall₂ (mapM_eq_some_iff.mp hgroups).flip hrow
  exact ⟨groups, hgroups, g, hg, (group_survives_iff hbuilt hfresh hins hload).mpr
    ⟨hok.minExecutionScale, ⟨hok.legIds, hok.legsNew, hok.legs⟩,
      hok.constraintIds, hok.constraintsNew, hok.constraints⟩⟩

/-- A combo that the use case inserts comes back from the database exactly when its basis
is the notional weight with every leg given by weight (or the quantity ratio with ratios of
zero), its ids are new and different, its decimals fit the columns, its names and keys are
plain, and the groups that were stored before can be read. -/
theorem combo_survives_iff (ids : Uuids) (req : CreateComboOrderRequest) (t' : ComboTables)
    (hmode : req.executionMode = .multilegVectorSolver)
    (hfresh : stored.tables.comboOrders.lookup (buildDomain ids req).comboOrderId = none)
    (h : insertComboOrder (buildDomain ids req) stored.tables = some t') :
    Survives (buildDomain ids req) t' ↔ TripOk (buildDomain ids req) stored.tables :=
  ⟨tripOk_of_survives stored hmode hfresh h, survives_of_tripOk stored hmode hfresh h⟩

def pairIds : Uuids where
  combo := "c0000000-0000-4000-8000-000000000000"
  leg := fun i =>
    if i = 0 then "10000000-0000-4000-8000-000000000000"
    else "20000000-0000-4000-8000-000000000000"
  constraint := fun _ => "30000000-0000-4000-8000-000000000000"
  link := fun _ => "40000000-0000-4000-8000-000000000000"

/-- One side of a pair, with limits 90 to 100. -/
def pairLeg (symbol : String) (side : Side) (ratio weight : Option Decimal) : ProtoLeg where
  instrument := { symbol, base := "", quote := "" }
  side
  ratio
  weight
  priceLow := some (Decimal.of 90 0)
  priceHigh := some (Decimal.of 100 0)
  maxRate := some (Decimal.of 1 0)
  maxQty := some (Decimal.of 10 0)

/-- A pair whose legs are given by ratio (quantity basis) or by weight. -/
def pairRequest (basis : RatioBasis) (ratio weight : Option Decimal) :
    CreateComboOrderRequest where
  userId := "u"
  comboType := .pair
  executionMode := .multilegVectorSolver
  atomicityPolicy := .scalableAtomic
  ratioBasis := basis
  legs := [pairLeg "BTC/USDT" .buy ratio weight, pairLeg "ETH/USDT" .sell ratio weight]

/-- A database without combos. -/
def noCombos : StoredTables where
  tables := {}
  references := ⟨fun _ _ h => (nomatch h), fun _ _ h => (nomatch h)⟩

theorem tripOk_weighted :
    TripOk (buildDomain pairIds (pairRequest .notionalWeight none (some (.of 1 0))))
      noCombos.tables := by
  have hleg : ∀ leg ∈ (buildDomain pairIds
      (pairRequest .notionalWeight none (some (.of 1 0)))).legs,
      LegTrips .notionalWeight leg := by
    intro leg hleg
    obtain ⟨i, hi, rfl⟩ := mem_mapIdx.mp hleg
    have hcases : i = 0 ∨ i = 1 := by
      have hlen : i < 2 := hi
      omega
    have hlow : ColumnExact (.of 90 0) := by decide
    have hhigh : ColumnExact (.of 100 0) := by decide
    have hrate : ColumnExact (.of 1 0) := by decide
    have hmax : ColumnExact (.of 10 0) := by decide
    rcases hcases with rfl | rfl <;>
      exact ⟨Or.inl ⟨rfl, _, rfl, hrate⟩, hlow, hhigh, hrate, hmax,
        fun s hs => (nomatch hs)⟩
  exact
    { readable := fun _ _ h => (nomatch h)
      ratioBasis := by decide
      minExecutionScale := fun _ h => (nomatch h)
      legIds := by decide
      legsNew := fun _ _ => rfl
      legs := hleg
      constraintIds := by decide
      constraintsNew := fun _ _ => rfl
      constraints := fun _ h => (nomatch h) }

theorem weighted_pair_survives :
    ∃ t', insertComboOrder (buildDomain pairIds
        (pairRequest .notionalWeight none (some (Decimal.of 1 0)))) noCombos.tables = some t' ∧
      Survives (buildDomain pairIds
        (pairRequest .notionalWeight none (some (Decimal.of 1 0)))) t' := by
  have hsome : (insertComboOrder (buildDomain pairIds (pairRequest .notionalWeight none
      (some (Decimal.of 1 0)))) noCombos.tables).isSome = true := by
    decide +kernel
  obtain ⟨t', ht'⟩ := Option.isSome_iff_exists.mp hsome
  exact ⟨t', ht', (combo_survives_iff noCombos _ _ t' rfl rfl ht').mpr tripOk_weighted⟩

/-- The ratios of a pair on the quantity basis are lost. -/
theorem ratio_pair_lost :
    ∃ t', insertComboOrder (buildDomain pairIds
        (pairRequest .quantityRatio (some (Decimal.of 1 0)) none)) noCombos.tables = some t' ∧
      ¬ Survives (buildDomain pairIds
        (pairRequest .quantityRatio (some (Decimal.of 1 0)) none)) t' := by
  have hsome : (insertComboOrder (buildDomain pairIds (pairRequest .quantityRatio
      (some (Decimal.of 1 0)) none)) noCombos.tables).isSome = true := by
    decide +kernel
  obtain ⟨t', ht'⟩ := Option.isSome_iff_exists.mp hsome
  refine ⟨t', ht', fun hsurvives => ?_⟩
  have hok := tripOk_of_survives noCombos rfl rfl ht' hsurvives
  have hamount := (hok.legs _ (List.mem_mapIdx.mpr ⟨0, by decide, rfl⟩)).amount
  rcases hamount with ⟨hbasis, -⟩ | ⟨-, ratio, hratio, hzero⟩
  · exact absurd hbasis (by decide)
  · cases hratio
    exact absurd hzero (by decide)

end RoundTrip

end Matching
end ContExchange
