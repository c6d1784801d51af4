import ContExchange.Matching.ExecutionGroups
import ContExchange.OrderFlow.ComboRows

/-!
# Matching: the active groups in the database

`PostgresActiveGroupsLoader::LoadActiveGroups`: the combo orders in
`multileg_vector_solver` mode that are active, with their open legs and their
constraints, read from the tables that order flow writes.  One column that cannot be
read fails the whole load (`none`).

`ActiveGroups.ofLoad`: the groups and the legs of a load have different ids, as the
keys of their tables.
-/

namespace ContExchange
namespace Matching

open Common Lib Option Table
open OrderFlow (ComboTables ComboOrderRow ComboLegRow ComboConstraintRow)

def policyFromDb (s : String) : GroupAtomicityPolicy :=
  if s = "strict_atomic" then .strictAtomic
  else if s = "scalable_atomic" then .scalableAtomic
  else if s = "sequential_fallback" then .sequentialFallback
  else if s = "external_compensating" then .externalCompensating
  else .bestEffort

def fallbackFromDb (s : String) : GroupFallbackPolicy :=
  if s = "wait_next_batch" ∨ s = "skip_batch" then .waitNextBatch
  else if s = "cancel" ∨ s = "cancel_group" then .cancel
  else if s = "degrade" then .degrade
  else if s = "compensate" then .compensate
  else .scaleDown

def constraintTypeFromDb (s : String) : GroupConstraintType :=
  if s = "spread_range" then .spreadRange
  else if s = "factor_neutrality" then .factorNeutrality
  else if s = "max_total_notional" then .maxTotalNotional
  else .other

/-- `NumOrZero`: zero for NULL; `none` when the value does not fit. -/
def numOrZero (z : Option PgNumeric) : Option Decimal :=
  match z with
  | none => some Decimal.zero
  | some z => parsePgNumeric z

/-- A nullable bound. -/
def optionalNumeric (z : Option PgNumeric) : Option (Option Decimal) :=
  match z with
  | none => some none
  | some z => (parsePgNumeric z).map some

/-- `array_to_string(venue_preferences, ',')`. -/
def arrayToString (elems : List (Option (List Char))) : List Char :=
  [','].intercalate (elems.filterMap id)

/-- The loop over the comma-separated fields; empty fields are skipped. -/
def splitCsv (csv : List Char) : List (List Char) :=
  (csv.splitOn ',').filter (fun field => decide (field ≠ []))

/-- The venue preferences of a leg as the loader reads them. -/
def venuePreferencesOf (row : ComboLegRow) : List String :=
  (splitCsv (arrayToString row.venuePreferences)).map String.ofList

/-- The statuses in which a leg is not loaded. -/
def closedLegStatuses : List String :=
  ["cancelled", "waiting_for_trigger", "failed_external", "filled"]

/-- The conditions of the query of the legs. -/
def legLoads (parentOrderId : String) (row : ComboLegRow) : Bool :=
  decide (row.parentOrderId = parentOrderId ∧ row.status ∉ closedLegStatuses)

def loadLeg (ratioBasis legId : String) (row : ComboLegRow) : Option VectorLeg := do
  let magnitude ← numOrZero (if ratioBasis = "quantity" then row.ratio else row.weight)
  let pLow ← parsePgNumeric row.pLow
  let pHigh ← parsePgNumeric row.pHigh
  let qRate ← parsePgNumeric row.qRate
  let qMax ← parsePgNumeric row.qMax
  let filledCum ← parsePgNumeric row.filledCum
  some
    { legId
      instrumentSymbol := row.instrumentSymbol
      targetRatio :=
        if row.side = "sell" then Decimal.sub Decimal.zero magnitude else magnitude
      pLow
      pHigh
      qRate
      qMax
      filledCum
      venuePreferences := venuePreferencesOf row }

/-- The coefficients of a row: the members of the object, their texts as decimals. -/
def loadCoefficients (t : Table (List Char) (List Char)) : Option (Table String Decimal) :=
  (t.entries.mapM (fun e => (parsePgNumericText e.2).map (fun d => (String.ofList e.1, d)))).map
    (fun entries => entries.foldl (fun m e => m.insert e.1 e.2) ∅)

def loadConstraint (constraintId : String) (row : ComboConstraintRow) :
    Option GroupConstraint := do
  let lower ← optionalNumeric row.lowerBound
  let upper ← optionalNumeric row.upperBound
  let coefficients ← loadCoefficients row.coefficients
  some
    { constraintId
      type := constraintTypeFromDb row.constraintType
      coefficients
      lower
      upper
      severity := if row.severity = "soft" then .soft else .hard }

/-- The conditions of the query of the groups. -/
def groupLoads (row : ComboOrderRow) : Bool :=
  decide (row.executionMode = "multileg_vector_solver" ∧
    (row.status = "active" ∨ row.status = "partially_filled"))

abbrev IdOrder (a b : String) : Prop := a ≤ b

def legRows (tables : ComboTables) (parentOrderId : String) :
    List (Sigma fun _ : String => ComboLegRow) :=
  (tables.legs.filter (fun _ row => legLoads parentOrderId row)).sorted IdOrder

def constraintRows (tables : ComboTables) (parentOrderId : String) :
    List (Sigma fun _ : String => ComboConstraintRow) :=
  (tables.constraints.filter (fun _ row => decide (row.parentOrderId = parentOrderId))).sorted
    IdOrder

/-- The group of a row; a missing `ratio_basis` throws. -/
def loadGroup (tables : ComboTables) (comboOrderId : String) (row : ComboOrderRow) :
    Option MultiLegVectorOrder := do
  let minExecutionScale ← numOrZero row.minExecutionScale
  let ratioBasis ← row.ratioBasis
  let legs ← (legRows tables comboOrderId).mapM (fun e => loadLeg ratioBasis e.1 e.2)
  let constraints ← (constraintRows tables comboOrderId).mapM (fun e => loadConstraint e.1 e.2)
  some
    { parentOrderId := comboOrderId
      userId := row.userId.getD ""
      legs
      atomicityPolicy := policyFromDb row.atomicityPolicy
      fallbackPolicy := fallbackFromDb row.fallbackPolicy
      minExecutionScale
      maxRatioDeviationBps := row.maxRatioDeviationBps.getD 0
      constraints }

def groupRows (tables : ComboTables) : List (Sigma fun _ : String => ComboOrderRow) :=
  (tables.comboOrders.filter (fun _ row => groupLoads row)).sorted IdOrder

def loadActiveGroups (tables : ComboTables) : Option (List MultiLegVectorOrder) :=
  (groupRows tables).mapM (fun e => loadGroup tables e.1 e.2)

section Loading

variable {tables : ComboTables}

variable {parentOrderId : String}

theorem legLoads_iff {row : ComboLegRow} :
    legLoads parentOrderId row = true ↔
      row.parentOrderId = parentOrderId ∧ row.status ∉ closedLegStatuses :=
  decide_eq_true_iff

theorem groupLoads_iff {row : ComboOrderRow} :
    groupLoads row = true ↔
      row.executionMode = "multileg_vector_solver" ∧
        (row.status = "active" ∨ row.status = "partially_filled") :=
  decide_eq_true_iff

theorem mem_legRows {e : Sigma fun _ : String => ComboLegRow} :
    e ∈ legRows tables parentOrderId ↔
      tables.legs.lookup e.1 = some e.2 ∧ legLoads parentOrderId e.2 = true := by
  unfold legRows
  rw [mem_sorted, lookup_filter, filter_eq_some_iff]

theorem mem_constraintRows {e : Sigma fun _ : String => ComboConstraintRow} :
    e ∈ constraintRows tables parentOrderId ↔
      tables.constraints.lookup e.1 = some e.2 ∧ e.2.parentOrderId = parentOrderId := by
  unfold constraintRows
  rw [mem_sorted, lookup_filter, filter_eq_some_iff, decide_eq_true_eq]

theorem mem_groupRows {e : Sigma fun _ : String => ComboOrderRow} :
    e ∈ groupRows tables ↔
      tables.comboOrders.lookup e.1 = some e.2 ∧ groupLoads e.2 = true := by
  unfold groupRows
  rw [mem_sorted, lookup_filter, filter_eq_some_iff]

theorem loadLeg_spec {ratioBasis legId : String} {row : ComboLegRow} {leg : VectorLeg}
    (h : loadLeg ratioBasis legId row = some leg) :
    leg.legId = legId ∧ leg.instrumentSymbol = row.instrumentSymbol ∧
      leg.venuePreferences = venuePreferencesOf row ∧ parsePgNumeric row.qRate = some leg.qRate ∧
      parsePgNumeric row.qMax = some leg.qMax ∧
      parsePgNumeric row.filledCum = some leg.filledCum := by
  simp only [loadLeg, bind_eq_bind, bind_eq_some_iff] at h
  obtain ⟨magnitude, -, pLow, -, pHigh, -, qRate, hrate, qMax, hmax, filledCum, hfilled, hleg⟩ := h
  cases hleg
  exact ⟨rfl, rfl, rfl, hrate, hmax, hfilled⟩

variable {g : MultiLegVectorOrder}

theorem loadGroup_spec {comboOrderId : String} {row : ComboOrderRow}
    (h : loadGroup tables comboOrderId row = some g) :
    ∃ ratioBasis, row.ratioBasis = some ratioBasis ∧ g.parentOrderId = comboOrderId ∧
      List.Forall₂ (fun (e : Sigma fun _ : String => ComboLegRow) leg =>
        loadLeg ratioBasis e.1 e.2 = some leg) (legRows tables comboOrderId) g.legs := by
  simp only [loadGroup, bind_eq_bind, bind_eq_some_iff] at h
  obtain ⟨scale, -, ratioBasis, hbasis, legs, hlegs, constraints, -, hg⟩ := h
  cases hg
  exact ⟨ratioBasis, hbasis, rfl, mapM_eq_some_iff.mp hlegs⟩

variable {groups : List MultiLegVectorOrder}

theorem row_of_mem_loadActiveGroups (h : loadActiveGroups tables = some groups) (hg : g ∈ groups) :
    ∃ row, tables.comboOrders.lookup g.parentOrderId = some row ∧ groupLoads row = true ∧
      loadGroup tables g.parentOrderId row = some g := by
  obtain ⟨e, he, hload⟩ := exists_of_mem_forall₂ (mapM_eq_some_iff.mp h) hg
  obtain ⟨hrow, hactive⟩ := mem_groupRows.mp he
  obtain ⟨-, -, hid, -⟩ := loadGroup_spec hload
  rw [hid]
  exact ⟨e.2, hrow, hactive, hload⟩

theorem row_of_mem_legs {leg : VectorLeg} (h : loadActiveGroups tables = some groups)
    (hg : g ∈ groups) (hleg : leg ∈ g.legs) :
    ∃ ratioBasis row, tables.legs.lookup leg.legId = some row ∧
      legLoads g.parentOrderId row = true ∧ loadLeg ratioBasis leg.legId row = some leg := by
  obtain ⟨combo, -, -, hload⟩ := row_of_mem_loadActiveGroups h hg
  obtain ⟨ratioBasis, -, -, hlegs⟩ := loadGroup_spec hload
  obtain ⟨e, he, hleg'⟩ := exists_of_mem_forall₂ hlegs hleg
  obtain ⟨hrow, hloads⟩ := mem_legRows.mp he
  obtain ⟨hid, -⟩ := loadLeg_spec hleg'
  rw [hid]
  exact ⟨ratioBasis, e.2, hrow, hloads, hleg'⟩

theorem nodup_parents_of_load (h : loadActiveGroups tables = some groups) :
    (groups.map MultiLegVectorOrder.parentOrderId).Nodup := by
  have hkeys : groups.map MultiLegVectorOrder.parentOrderId = (groupRows tables).map Sigma.fst := by
    refine map_eq_of_forall₂ (fun e g hload => ?_) (mapM_eq_some_iff.mp h)
    obtain ⟨-, -, hid, -⟩ := loadGroup_spec hload
    exact hid
  rw [hkeys]
  exact nodup_keys_sorted _ _

theorem nodup_legs_of_load (h : loadActiveGroups tables = some groups) (hg : g ∈ groups) :
    (g.legs.map VectorLeg.legId).Nodup := by
  obtain ⟨combo, -, -, hload⟩ := row_of_mem_loadActiveGroups h hg
  obtain ⟨ratioBasis, -, -, hlegs⟩ := loadGroup_spec hload
  have hkeys : g.legs.map VectorLeg.legId = (legRows tables g.parentOrderId).map Sigma.fst := by
    refine map_eq_of_forall₂ (fun e leg hleg => ?_) hlegs
    exact (loadLeg_spec hleg).1
  rw [hkeys]
  exact nodup_keys_sorted _ _

def ActiveGroups.ofLoad
    {groups : List MultiLegVectorOrder}
    (h : loadActiveGroups tables = some groups) : ActiveGroups where
  groups
  parents_nodup := nodup_parents_of_load h
  legs_nodup := fun _ hg => nodup_legs_of_load h hg

end Loading

end Matching
end ContExchange
