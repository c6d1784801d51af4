import ContExchange.Matching.ExternalLegs

/-!
# Matching: the chunks of external legs

`filled_cum` of an external leg stands for what the venues have reported of its chunks.

* `LegsExact`: `filled_cum` is the sum of the quantities that the chunks reported last
  and at most `q_max`, one chunk of a leg is out at a time, and a leg has one compensation;
* `Guarded`: a leg with a chunk out is in flight;
* `legs_exact_iff`: along every run both hold exactly when every report meets `ReportOk`.

A batch keeps both.  A report adds its quantity without knowing what the chunk reported
before, and it frees the leg whichever chunk is out.
-/

namespace ContExchange
namespace Matching

open Common Lib AList Decimal List Option Table
open OrderFlow (ComboTables ComboOrderRow ComboLegRow insertNew)
open Ledger (ExecutionReport ExecutionReportStatus isTerminalStatus)

/-- The leg allows venues, and not the internal market. -/
def isExternalRow (row : ComboLegRow) : Bool :=
  decide (venuePreferencesOf row ≠ [] ∧ "internal" ∉ venuePreferencesOf row)

namespace SentChunk

def legId (chunk : SentChunk) : String :=
  chunk.intent.internalOrderId

/-- No terminal report has come. -/
def Outstanding (chunk : SentChunk) : Prop :=
  chunk.reported = none

/-- The quantity that was reported last. -/
def reportedQty (chunk : SentChunk) : ℚ :=
  (chunk.reported.getD Decimal.zero).toRat

end SentChunk

namespace ComboLoop

def reportedOf (s : ComboLoop) (legId : String) : ℚ :=
  s.sent.sum (fun _ chunk => if chunk.legId = legId then chunk.reportedQty else 0)

structure LegsExact (s : ComboLoop) : Prop where
  filled : ∀ legId row, s.tables.legs.lookup legId = some row → isExternalRow row = true →
    row.filledCum.toRat = s.reportedOf legId
  within : ∀ legId row, s.tables.legs.lookup legId = some row → isExternalRow row = true →
    row.filledCum.toRat ≤ row.qMax.toRat
  single : ∀ m n a b, s.sent.lookup m = some a → s.sent.lookup n = some b →
    a.legId = b.legId → a.Outstanding → b.Outstanding → m = n
  compensated : ∀ k k', k ∈ s.compensations → k' ∈ s.compensations → k.2.1 = k'.2.1 → k = k'

def Guarded (s : ComboLoop) : Prop :=
  ∀ n chunk, s.sent.lookup n = some chunk → chunk.Outstanding → chunk.legId ∈ s.inFlight

end ComboLoop

/-- The units that `filled_cum` holds after a report. -/
def filledUnits (row : ComboLegRow) (qty : Decimal) : Int :=
  llround (leastFilled row qty * 10 ^ 18)

/-- The report raises `filled_cum`: it is FILLED, the database answers, the leg is open, the
quantity is printed as a number, and the sum is not negative. -/
def Counts (db : ReportDatabase) (report : ExecutionReport) (row : ComboLegRow) : Prop :=
  report.status = .filled ∧ db.finds = true ∧ db.marks = true ∧ isOpenLeg row = true ∧
    Prints report.filledQty ∧ 0 ≤ filledUnits row report.filledQty

/-- The report records a compensation: it is not FILLED, the database answers, the leg can
fail, and the internal legs of its combo have filled something. -/
def Compensates (db : ReportDatabase) (report : ExecutionReport) (legId : String)
    (row : ComboLegRow) (t : ComboTables) : Prop :=
  report.status ≠ .filled ∧
    (db.finds = true ∧ db.marks = true ∧ db.sums = true ∧ db.records = true) ∧
      row.status ∉ failedLegStatuses ∧
        ∃ qty, sumInternalFilledQty row.parentOrderId legId t = some qty ∧ 0 < qty.toRat

/-- A terminal report of a chunk keeps the legs exact: no other chunk of the leg is out,
`filled_cum` changes by what the chunk reports beyond its last report, and the
compensation that is recorded is the only one of the leg. -/
structure ReportExact (s : ComboLoop) (n : Nat) (chunk : SentChunk) (report : ExecutionReport)
    (db : ReportDatabase) (row : ComboLegRow) : Prop where
  alone : db.finds = true → ∀ m other, s.sent.lookup m = some other →
    other.legId = chunk.legId → other.Outstanding → m = n
  counted : Counts db report row →
    (filledUnits row report.filledQty : ℚ) / 10 ^ 18 =
      row.filledCum.toRat + (report.filledQty.toRat - chunk.reportedQty)
  uncounted : ¬ Counts db report row → report.filledQty.toRat = chunk.reportedQty
  compensatedOnce : Compensates db report chunk.legId row s.tables →
    ∀ k, k ∈ s.compensations → k.2.1 = chunk.legId →
      k = (row.parentOrderId, chunk.legId, report.reportId)

/-- The condition on a step: batches are free. -/
def ReportOk (s : ComboLoop) : ComboEvent → Prop
  | .batch _ => True
  | .report n report db =>
      ∀ chunk row, s.sent.lookup n = some chunk → isTerminalStatus report.status = true →
        s.tables.legs.lookup chunk.legId = some row → ReportExact s n chunk report db row

/-- Rows that pass their CHECKs under ids without `#`, chunks of external legs only. -/
structure ComboLoop.WellFormed (s : ComboLoop) : Prop where
  checked : ∀ legId row, s.tables.legs.lookup legId = some row → row.checked = true
  ids : ∀ legId row, s.tables.legs.lookup legId = some row → legId ≠ "" ∧ '#' ∉ legId.toList
  numbered : ∀ n, s.sentCount ≤ n → s.sent.lookup n = none
  chunks : ∀ n chunk, s.sent.lookup n = some chunk →
    legIdOf chunk.intent.clientOrderId = chunk.legId ∧
      ∃ row, s.tables.legs.lookup chunk.legId = some row ∧ isExternalRow row = true

/-- The tables before the first chunk is sent. -/
structure FreshTables where
  tables : ComboTables
  checked : ∀ legId row, tables.legs.lookup legId = some row → row.checked = true
  ids : ∀ legId row, tables.legs.lookup legId = some row → legId ≠ "" ∧ '#' ∉ legId.toList
  fresh : ∀ legId row, tables.legs.lookup legId = some row → isExternalRow row = true →
    row.filledCum = PgNumeric.zero

def FreshTables.loop (start : FreshTables) : ComboLoop where
  tables := start.tables

/-- What a statement of a batch keeps of a row. -/
structure RowKept (row row' : ComboLegRow) : Prop where
  venues : row'.venuePreferences = row.venuePreferences
  filled : isExternalRow row = true → row'.filledCum = row.filledCum
  checked : row.checked = true → row'.checked = true

/-- What the statements of a batch keep of the legs. -/
def LegsKept (t t' : ComboTables) : Prop :=
  ∀ legId, Option.Rel RowKept (t.legs.lookup legId) (t'.legs.lookup legId)

section Kept

variable {t t' t'' : ComboTables} {row row' row'' : ComboLegRow}

theorem isExternalRow_of_venues (h : row'.venuePreferences = row.venuePreferences) :
    isExternalRow row' = isExternalRow row := by
  unfold isExternalRow venuePreferencesOf
  rw [h]

theorem RowKept.refl (row : ComboLegRow) : RowKept row row :=
  ⟨rfl, fun _ => rfl, id⟩

theorem RowKept.trans (h : RowKept row row') (h' : RowKept row' row'') : RowKept row row'' where
  venues := h'.venues.trans h.venues
  filled hext :=
    (h'.filled ((isExternalRow_of_venues h.venues).trans hext)).trans (h.filled hext)
  checked := h'.checked ∘ h.checked

theorem LegsKept.refl (t : ComboTables) : LegsKept t t := by
  intro legId
  cases t.legs.lookup legId with
  | none => exact .none
  | some row => exact .some (.refl row)

theorem LegsKept.trans (h : LegsKept t t') (h' : LegsKept t' t'') : LegsKept t t'' := by
  intro legId
  have hfirst := h legId
  have hsecond := h' legId
  revert hfirst hsecond
  cases t.legs.lookup legId <;> cases t'.legs.lookup legId <;> cases t''.legs.lookup legId <;>
    intro hfirst hsecond <;> cases hfirst <;> cases hsecond
  · exact .none
  · exact .some (RowKept.trans ‹_› ‹_›)

variable {legId : String}

theorem LegsKept.row_after (h : LegsKept t t') (hrow : t.legs.lookup legId = some row) :
    ∃ row', t'.legs.lookup legId = some row' ∧ RowKept row row' := by
  have hrel := h legId
  rw [hrow] at hrel
  cases hrow' : t'.legs.lookup legId with
  | none =>
      rw [hrow'] at hrel
      cases hrel
  | some row' =>
      rw [hrow'] at hrel
      cases hrel with
      | some hkept => exact ⟨row', rfl, hkept⟩

theorem LegsKept.row_before (h : LegsKept t t') (hrow : t'.legs.lookup legId = some row') :
    ∃ row, t.legs.lookup legId = some row ∧ RowKept row row' := by
  have hrel := h legId
  rw [hrow] at hrel
  cases hrow' : t.legs.lookup legId with
  | none =>
      rw [hrow'] at hrel
      cases hrel
  | some row =>
      rw [hrow'] at hrel
      cases hrel with
      | some hkept => exact ⟨row, rfl, hkept⟩

theorem updateLeg_cases {condition : ComboLegRow → Bool} {set : ComboLegRow → ComboLegRow}
    {r : ComboTables × Bool} (h : updateLeg legId condition set t = some r) :
    (r = (t, false) ∧ ∀ row, t.legs.lookup legId = some row → condition row = false) ∨
      ∃ row, t.legs.lookup legId = some row ∧ condition row = true ∧
        (set row).checked = true ∧ r = ({ t with legs := t.legs.insert legId (set row) }, true) := by
  unfold updateLeg at h
  cases hrow : t.legs.lookup legId with
  | none =>
      rw [hrow] at h
      cases h
      refine .inl ⟨rfl, fun row hnone => ?_⟩
      cases hnone
  | some row =>
      rw [hrow] at h
      dsimp only at h
      by_cases hcondition : condition row = true
      · rw [if_pos hcondition] at h
        by_cases hchecked : (set row).checked = true
        · rw [if_pos hchecked] at h
          cases h
          exact .inr ⟨row, rfl, hcondition, hchecked, rfl⟩
        · rw [if_neg hchecked] at h
          cases h
      · rw [if_neg hcondition] at h
        cases h
        refine .inl ⟨rfl, fun row' hrow' => ?_⟩
        cases hrow'
        exact Bool.eq_false_iff.mpr hcondition

theorem legsKept_insert (hrow : t.legs.lookup legId = some row) (h : RowKept row row') :
    LegsKept t { t with legs := t.legs.insert legId row' } := by
  intro other
  by_cases hsame : other = legId
  · subst hsame
    rw [hrow, lookup_insert]
    exact .some h
  · rw [lookup_insert_ne hsame]
    exact LegsKept.refl t other

theorem legsKept_updateLeg {condition : ComboLegRow → Bool} {set : ComboLegRow → ComboLegRow}
    (h : (updateLeg legId condition set t).map Prod.fst = some t')
    (hset : ∀ row, t.legs.lookup legId = some row →
      (set row).venuePreferences = row.venuePreferences ∧
        (isExternalRow row = true → (set row).filledCum = row.filledCum)) :
    LegsKept t t' := by
  obtain ⟨r, hr, rfl⟩ := map_eq_some_iff.mp h
  rcases updateLeg_cases hr with ⟨rfl, -⟩ | ⟨row, hrow, -, hchecked, rfl⟩
  · exact .refl t
  · obtain ⟨hvenues, hfilled⟩ := hset row hrow
    exact legsKept_insert hrow ⟨hvenues, hfilled, fun _ => hchecked⟩

theorem legsKept_persistTransition {transition : GraphTransition}
    (h : persistTransition t transition = some t') : LegsKept t t' := by
  cases transition with
  | ocoCancel target => exact legsKept_updateLeg h (fun _ _ => ⟨rfl, fun _ => rfl⟩)
  | bracketResize target qMax => exact legsKept_updateLeg h (fun _ _ => ⟨rfl, fun _ => rfl⟩)
  | conditionalActivate target => exact legsKept_updateLeg h (fun _ _ => ⟨rfl, fun _ => rfl⟩)

theorem legsKept_persistChildGraph {transitions : List GraphTransition}
    (h : persistChildGraphTransitions transitions t = some t') : LegsKept t t' :=
  foldlM_invariant (fun _ _ _ _ hs hstep => hs.trans (legsKept_persistTransition hstep))
    (LegsKept.refl t) h

theorem legsKept_closeFilledCombo (parentOrderId : String) (t : ComboTables) :
    LegsKept t (closeFilledCombo parentOrderId t) := by
  unfold closeFilledCombo
  split
  · exact .refl t
  · split
    · intro legId
      rw [lookup_mapRows]
      cases t.legs.lookup legId with
      | none => exact .none
      | some row =>
          refine .some ?_
          dsimp only
          split
          · exact ⟨rfl, fun _ => rfl, id⟩
          · exact .refl row
    · exact .refl t

theorem legs_persistComboStatus (parentOrderId : String) (t : ComboTables) :
    (persistComboStatus parentOrderId t).legs = t.legs := by
  unfold persistComboStatus
  split
  · rfl
  · split
    · rfl
    · rfl

theorem legsKept_persistExecutionGroup {eg : ExecutionGroupEvent}
    (hinternal : ∀ lr ∈ eg.legResults, ∀ row, t.legs.lookup lr.legId = some row →
      isExternalRow row = false)
    (h : persistExecutionGroup eg t = some t') :
    LegsKept t t' := by
  obtain ⟨filled, hfilled, rfl⟩ := map_eq_some_iff.mp h
  have hkept : LegsKept t filled := by
    refine foldlM_invariant (fun lr hlr s s' hs hstep => hs.trans ?_) (LegsKept.refl t) hfilled
    refine legsKept_updateLeg (ite_none_right_eq_some.mp hstep).2 (fun row hrow => ⟨rfl, fun hext => ?_⟩)
    obtain ⟨before, hbefore, hsame⟩ := hs.row_before hrow
    rw [isExternalRow_of_venues hsame.venues, hinternal lr hlr before hbefore] at hext
    cases hext
  have hstatus : LegsKept filled (persistComboStatus eg.parentOrderId filled) := by
    intro legId
    rw [legs_persistComboStatus]
    exact LegsKept.refl filled legId
  exact (hkept.trans hstatus).trans (legsKept_closeFilledCombo _ _)

theorem legsKept_persistGroup {batch : GroupedBatch} {eg : ExecutionGroupEvent}
    (hinternal : ∀ lr ∈ eg.legResults, ∀ row, t.legs.lookup lr.legId = some row →
      isExternalRow row = false) :
    LegsKept t (persistGroup batch t eg) := by
  have hgetD : ∀ (r : Option ComboTables) (t₀ : ComboTables),
      (∀ t₁, r = some t₁ → LegsKept t₀ t₁) → LegsKept t₀ (r.getD t₀) := by
    intro r t₀ hr
    cases r with
    | none => exact .refl t₀
    | some t₁ => exact hr t₁ rfl
  have hgroup : LegsKept t
      (if batch.persisted eg.parentOrderId = true then (persistExecutionGroup eg t).getD t
        else t) := by
    split
    · exact hgetD _ _ (fun _ h => legsKept_persistExecutionGroup hinternal h)
    · exact .refl t
  exact hgroup.trans (hgetD _ _ (fun _ h => legsKept_persistChildGraph h))

end Kept

/-- Both properties. -/
def ComboLoop.Safe (s : ComboLoop) : Prop :=
  s.LegsExact ∧ s.Guarded

section Batches

variable {s : ComboLoop}

theorem within_of_checked {row : ComboLegRow} (h : row.checked = true) :
    row.filledCum.toRat ≤ row.qMax.toRat := by
  obtain ⟨-, -, -, -, -, hle, -⟩ := of_decide_eq_true h
  unfold PgNumeric.toRat
  have hcast : (row.filledCum.units : ℚ) ≤ row.qMax.units := Int.cast_le.mpr hle
  linarith

variable {t : ComboTables}

theorem ComboLoop.WellFormed.of_legsKept (h : s.WellFormed) (hkept : LegsKept s.tables t) :
    { s with tables := t }.WellFormed where
  checked legId row hrow := by
    obtain ⟨before, hbefore, hsame⟩ := hkept.row_before hrow
    exact hsame.checked (h.checked legId before hbefore)
  ids legId row hrow := by
    obtain ⟨before, hbefore, -⟩ := hkept.row_before hrow
    exact h.ids legId before hbefore
  numbered := h.numbered
  chunks n chunk hchunk := by
    obtain ⟨hid, row, hrow, hext⟩ := h.chunks n chunk hchunk
    obtain ⟨row', hrow', hsame⟩ := hkept.row_after hrow
    exact ⟨hid, row', hrow', (isExternalRow_of_venues hsame.venues).trans hext⟩

theorem ComboLoop.Safe.of_legsKept (hwell : s.WellFormed) (h : s.Safe)
    (hkept : LegsKept s.tables t) : { s with tables := t }.Safe := by
  obtain ⟨hexact, hguarded⟩ := h
  refine ⟨⟨?_, ?_, hexact.single, hexact.compensated⟩, hguarded⟩
  · intro legId row hrow hext
    obtain ⟨before, hbefore, hsame⟩ := hkept.row_before hrow
    rw [isExternalRow_of_venues hsame.venues] at hext
    rw [hsame.filled hext]
    exact hexact.filled legId before hbefore hext
  · intro legId row hrow _
    exact within_of_checked ((hwell.of_legsKept hkept).checked legId row hrow)

theorem legIdOf_append {legId : String} (h : '#' ∉ legId.toList) (rest : String) :
    legIdOf (legId ++ "#" ++ rest) = legId := by
  have hall : ∀ c ∈ legId.toList, decide (c ≠ '#') = true := by
    intro c hc
    refine decide_eq_true ?_
    rintro rfl
    exact h hc
  unfold legIdOf
  rw [String.toList_append, String.toList_append, append_assoc, takeWhile_append_of_pos hall]
  change String.ofList (legId.toList ++ []) = legId
  rw [append_nil, String.ofList_toList]

theorem reportedOf_send {chunk : SentChunk} {n : Nat} {inFlight : Finset String} {count : Nat}
    (hnew : s.sent.lookup n = none) (hout : chunk.Outstanding) (legId : String) :
    { s with inFlight, sent := s.sent.insert n chunk, sentCount := count }.reportedOf legId =
      s.reportedOf legId := by
  have hzero : chunk.reportedQty = 0 := by
    unfold SentChunk.reportedQty
    rw [hout]
    exact toRat_zero
  unfold ComboLoop.reportedOf
  rw [sum_insert_of_none _ hnew, hzero, ite_self, zero_add]

theorem sendChunk_keeps (batch : GroupedBatch) (parentOrderId : String) {leg : VectorLeg}
    (hwell : s.WellFormed)
    (hleg : ∃ row, s.tables.legs.lookup leg.legId = some row ∧ isExternalRow row = true) :
    (sendChunk batch parentOrderId s leg).tables = s.tables ∧
      (sendChunk batch parentOrderId s leg).WellFormed ∧
        (s.Safe → (sendChunk batch parentOrderId s leg).Safe) := by
  unfold sendChunk
  split
  · exact ⟨rfl, hwell, id⟩
  · rename_i hfree
    split
    · have hnew := hwell.numbered s.sentCount le_rfl
      have hout : ∀ intent : ExecutionIntent, SentChunk.Outstanding { intent } := fun _ => rfl
      obtain ⟨row, hrow, hext⟩ := hleg
      refine ⟨rfl, ⟨hwell.checked, hwell.ids, ?_, ?_⟩, ?_⟩
      · intro n hn
        change s.sentCount + 1 ≤ n at hn
        rw [lookup_insert_ne (by omega)]
        exact hwell.numbered n (by omega)
      · intro n chunk hchunk
        by_cases hn : n = s.sentCount
        · subst hn
          rw [lookup_insert] at hchunk
          cases hchunk
          exact ⟨legIdOf_append (hwell.ids _ row hrow).2 _, row, hrow, hext⟩
        · rw [lookup_insert_ne hn] at hchunk
          exact hwell.chunks n chunk hchunk
      · rintro ⟨hexact, hguarded⟩
        refine ⟨⟨?_, hexact.within, ?_, hexact.compensated⟩, ?_⟩
        · intro legId row' hrow' hext'
          rw [reportedOf_send hnew (hout _)]
          exact hexact.filled legId row' hrow' hext'
        · -- the leg is not in flight, so no chunk of it is out
          intro m n a b ha hb hsame houta houtb
          by_cases hm : m = s.sentCount <;> by_cases hn : n = s.sentCount
          · rw [hm, hn]
          · subst hm
            rw [lookup_insert] at ha
            rw [lookup_insert_ne hn] at hb
            cases ha
            have hleg : leg.legId = b.legId := hsame
            rw [hleg] at hfree
            exact absurd (hguarded n b hb houtb) hfree
          · subst hn
            rw [lookup_insert_ne hm] at ha
            rw [lookup_insert] at hb
            cases hb
            have hleg : a.legId = leg.legId := hsame
            rw [← hleg] at hfree
            exact absurd (hguarded m a ha houta) hfree
          · rw [lookup_insert_ne hm] at ha
            rw [lookup_insert_ne hn] at hb
            exact hexact.single m n a b ha hb hsame houta houtb
        · intro n chunk hchunk hout
          by_cases hn : n = s.sentCount
          · subst hn
            rw [lookup_insert] at hchunk
            cases hchunk
            exact Finset.mem_insert_self _ _
          · rw [lookup_insert_ne hn] at hchunk
            exact Finset.mem_insert_of_mem (hguarded n chunk hchunk hout)
    · exact ⟨rfl, hwell, id⟩

variable {groups : List MultiLegVectorOrder}

theorem sendChunks_keeps (batch : GroupedBatch) (hwell : s.WellFormed)
    (hload : loadActiveGroups s.tables = some groups) :
    (sendChunks batch groups s).tables = s.tables ∧ (sendChunks batch groups s).WellFormed ∧
      (s.Safe → (sendChunks batch groups s).Safe) := by
  refine List.foldlRecOn groups _ (motive := fun r : ComboLoop =>
    r.tables = s.tables ∧ r.WellFormed ∧ (s.Safe → r.Safe)) ⟨rfl, hwell, id⟩ ?_
  intro r hr g hg
  refine List.foldlRecOn g.externalLegs _ (motive := fun r : ComboLoop =>
    r.tables = s.tables ∧ r.WellFormed ∧ (s.Safe → r.Safe)) hr ?_
  rintro r ⟨htables, hwell, hsafe⟩ leg hleg
  obtain ⟨hmem, hexternal⟩ := mem_filter.mp hleg
  obtain ⟨ratioBasis, row, hrow, -, hloaded⟩ := row_of_mem_legs hload hg hmem
  obtain ⟨-, -, hvenues, -⟩ := loadLeg_spec hloaded
  have hext : isExternalRow row = true := by
    unfold isExternalRow
    rw [← hvenues]
    exact hexternal
  obtain ⟨htables', hwell', hsafe'⟩ :=
    sendChunk_keeps batch g.parentOrderId hwell ⟨row, by rw [htables, hrow], hext⟩
  exact ⟨htables'.trans htables, hwell', hsafe' ∘ hsafe⟩

theorem internal_of_published {groupIds : String → String} {batchId : String}
    {prices : ReferencePrices} {eg : ExecutionGroupEvent} {lr : GroupLegResult}
    (heg : eg ∈ publishedGroups groupIds batchId groups prices) (hlr : lr ∈ eg.legResults) :
    ∃ g ∈ groups, ∃ leg ∈ g.legs, leg.isExternal = false ∧ leg.legId = lr.legId := by
  obtain ⟨g, hg, hexecs, order, -, -, -, rfl⟩ := mem_publishedGroups.mp heg
  obtain ⟨⟨g', hg', rfl⟩, -⟩ := mem_internalGroups.mp hg
  obtain ⟨e, he, rfl⟩ := mem_map.mp hlr
  rcases solveGroup_legExecs g'.internalPart prices with ⟨-, -, htrades⟩ | ⟨-, hnone⟩
  · rw [htrades] at he
    obtain ⟨leg, hleg, rfl⟩ := mem_map.mp he
    obtain ⟨hmem, hinternal⟩ := mem_filter.mp (mem_filter.mp hleg).1
    exact ⟨g', hg', leg, hmem, by simpa using hinternal, rfl⟩
  · exact absurd hnone hexecs

theorem legsKept_published (batch : GroupedBatch) (hload : loadActiveGroups t = some groups) :
    LegsKept t
      ((publishedGroups batch.groupIds batch.batchId groups batch.prices).foldl
        (persistGroup batch) t) := by
  refine List.foldlRecOn _ _ (motive := LegsKept t) (LegsKept.refl t) ?_
  intro r hr eg heg
  refine hr.trans (legsKept_persistGroup (fun lr hlr row hrow => ?_))
  obtain ⟨g, hg, leg, hleg, hinternal, hid⟩ := internal_of_published heg hlr
  obtain ⟨ratioBasis, loaded, hloadedRow, -, hloaded⟩ := row_of_mem_legs hload hg hleg
  obtain ⟨before, hbefore, hsame⟩ := hr.row_before hrow
  rw [hid, hbefore] at hloadedRow
  cases hloadedRow
  obtain ⟨-, -, hvenues, -⟩ := loadLeg_spec hloaded
  rw [isExternalRow_of_venues hsame.venues]
  unfold isExternalRow
  rw [← hvenues]
  exact hinternal

theorem runGroupedBatch_keeps (batch : GroupedBatch) (hwell : s.WellFormed) :
    (runGroupedBatch batch s).WellFormed ∧ (s.Safe → (runGroupedBatch batch s).Safe) := by
  unfold runGroupedBatch
  cases hload : (if batch.groupsRead = true then loadActiveGroups s.tables else none) with
  | none => exact ⟨hwell, id⟩
  | some groups =>
      have hgroups : loadActiveGroups s.tables = some groups := by
        split at hload
        · exact hload
        · cases hload
      obtain ⟨htables, hrouted, hsafe⟩ := sendChunks_keeps batch hwell hgroups
      have hkept := legsKept_published batch hgroups
      rw [← htables] at hkept
      exact ⟨hrouted.of_legsKept hkept, fun h => ComboLoop.Safe.of_legsKept hrouted (hsafe h) hkept⟩

end Batches

/-- What a terminal report leaves: the row of the leg, the legs in flight and the
compensations. -/
structure AfterReport (s s' : ComboLoop) (legId : String) (report : ExecutionReport)
    (db : ReportDatabase) (row row' : ComboLegRow) : Prop where
  inFlight : s'.inFlight = if db.finds = true then s.inFlight.erase legId else s.inFlight
  sent : s'.sent = s.sent
  sentCount : s'.sentCount = s.sentCount
  legs : ∀ other, s'.tables.legs.lookup other =
    if other = legId then some row' else s.tables.legs.lookup other
  venues : row'.venuePreferences = row.venuePreferences
  checked : row'.checked = true
  counted : Counts db report row → row'.filledCum = ⟨filledUnits row report.filledQty⟩
  uncounted : ¬ Counts db report row → row'.filledCum = row.filledCum
  recorded : Compensates db report legId row s.tables →
    ∃ c, s'.compensations =
      insertNew s.compensations (row.parentOrderId, legId, report.reportId) c
  unrecorded : ¬ Compensates db report legId row s.tables → s'.compensations = s.compensations

section Reports

variable {s : ComboLoop} {legId : String} {report : ExecutionReport} {db : ReportDatabase}
  {row : ComboLegRow}

theorem lookup_insert_ite (t : Table String ComboLegRow) (row' : ComboLegRow) (other : String) :
    (t.insert legId row').lookup other = if other = legId then some row' else t.lookup other := by
  split
  · rename_i hsame
    rw [hsame, lookup_insert]
  · rename_i hne
    rw [lookup_insert_ne hne]

theorem lookup_self_ite {t : Table String ComboLegRow} (hrow : t.lookup legId = some row)
    (other : String) : t.lookup other = if other = legId then some row else t.lookup other := by
  split
  · rename_i hsame
    rw [hsame, hrow]
  · rfl

theorem checked_addFilledCum_iff (hchecked : row.checked = true) (qty : Decimal) (status : String) :
    ({ addFilledCum qty row with status } : ComboLegRow).checked = true ↔
      0 ≤ filledUnits row qty := by
  obtain ⟨hlow, hhigh, hrate, hmax, -, -, hratio⟩ := of_decide_eq_true hchecked
  have hle : filledUnits row qty ≤ row.qMax.units := by
    refine llround_le ?_
    have hmin : leastFilled row qty ≤ row.qMax.toRat := min_le_right _ _
    unfold PgNumeric.toRat at hmin
    linarith
  refine decide_eq_true_iff.trans ⟨fun h => h.2.2.2.2.1, fun h => ?_⟩
  exact ⟨hlow, hhigh, hrate, hmax, h, hle, hratio⟩

theorem sumInternalFilledQty_of_update (parentOrderId : String) (t : ComboTables)
    (hrow : t.legs.lookup legId = some row) (row' : ComboLegRow) :
    sumInternalFilledQty parentOrderId legId { t with legs := t.legs.insert legId row' } =
      sumInternalFilledQty parentOrderId legId t := by
  have hfalse : ∀ r, internalFilled parentOrderId legId legId r = false := by
    intro r
    refine decide_eq_false ?_
    rintro ⟨-, hne, -⟩
    exact hne rfl
  unfold sumInternalFilledQty internalFilledUnits
  rw [sum_filter, sum_filter, sum_insert_of_lookup _ hrow, hfalse, hfalse]
  simp

theorem failLeg_spec (hrow : s.tables.legs.lookup legId = some row)
    (hchecked : row.checked = true) (hfinds : db.finds = true) (hstatus : report.status ≠ .filled) :
    ∃ row', AfterReport s
      (failLeg db row.parentOrderId legId report
        { s with inFlight := s.inFlight.erase legId }) legId report db row row' := by
  have hcounts : ¬ Counts db report row := fun h => hstatus h.1
  have herase : s.inFlight.erase legId =
      if db.finds = true then s.inFlight.erase legId else s.inFlight := (if_pos hfinds).symm
  have hkeep : ∀ s' : ComboLoop, s' = { s with inFlight := s.inFlight.erase legId } →
      ¬ Compensates db report legId row s.tables →
        AfterReport s s' legId report db row row := by
    rintro s' rfl hnone
    exact ⟨herase, rfl, rfl, lookup_self_ite hrow, rfl, hchecked, fun h => absurd h hcounts,
      fun _ => rfl, fun h => absurd h hnone, fun _ => rfl⟩
  unfold failLeg
  by_cases hmarks : db.marks = true
  · rw [if_pos hmarks]
    unfold markExternalLegFailed updateLeg
    rw [hrow]
    dsimp only
    by_cases hcan : row.status ∉ failedLegStatuses
    · rw [if_pos (decide_eq_true hcan)]
      have hfailed : ({ row with status := "failed_external" } : ComboLegRow).checked = true :=
        hchecked
      rw [if_pos hfailed]
      dsimp only
      have hafter : ∀ s' : ComboLoop,
          s'.inFlight = s.inFlight.erase legId → s'.sent = s.sent → s'.sentCount = s.sentCount →
          s'.tables =
            { s.tables with
              legs := s.tables.legs.insert legId { row with status := "failed_external" } } →
          (Compensates db report legId row s.tables → ∃ c, s'.compensations =
            insertNew s.compensations (row.parentOrderId, legId, report.reportId) c) →
          (¬ Compensates db report legId row s.tables → s'.compensations = s.compensations) →
          AfterReport s s' legId report db row { row with status := "failed_external" } := by
        intro s' hinFlight hsent hcount htables hrecorded hunrecorded
        refine ⟨hinFlight.trans herase, hsent, hcount, fun other => ?_, rfl, hchecked,
          fun h => absurd h hcounts, fun _ => rfl, hrecorded, hunrecorded⟩
        rw [htables]
        exact lookup_insert_ite _ _ other
      refine ⟨{ row with status := "failed_external" }, ?_⟩
      rw [sumInternalFilledQty_of_update _ _ hrow]
      cases hqty : (if db.sums = true then sumInternalFilledQty row.parentOrderId legId s.tables
          else none) with
      | none =>
          refine hafter _ rfl rfl rfl rfl (fun h => ?_) (fun _ => rfl)
          obtain ⟨-, ⟨-, -, hsums, -⟩, -, qty, hsum, -⟩ := h
          rw [if_pos hsums, hsum] at hqty
          cases hqty
      | some qty =>
          have hsums : db.sums = true := by
            by_contra hno
            rw [if_neg hno] at hqty
            cases hqty
          rw [if_pos hsums] at hqty
          have hsign : Decimal.cmp qty .zero ≤ 0 ↔ qty.toRat ≤ 0 := by
            rw [← toRat_zero]
            exact cmp_nonpos_iff ((ofScale_of_parse hqty).scaleOk le_rfl) scaleOk_zero
          dsimp only
          by_cases hskip : Decimal.cmp qty .zero ≤ 0 ∨ (!db.records) = true
          · rw [if_pos hskip]
            refine hafter _ rfl rfl rfl rfl (fun h => ?_) (fun _ => rfl)
            obtain ⟨-, ⟨-, -, -, hrecords⟩, -, qty', hsum, hpositive⟩ := h
            rw [hqty] at hsum
            cases hsum
            rcases hskip with hle | hdown
            · exact absurd hpositive (not_lt.mpr (hsign.mp hle))
            · rw [hrecords] at hdown
              cases hdown
          · rw [if_neg hskip]
            rw [not_or] at hskip
            refine hafter _ rfl rfl rfl rfl (fun _ => ⟨_, rfl⟩) (fun h => ?_)
            exact absurd ⟨hstatus, ⟨hfinds, hmarks, hsums, by simpa using hskip.2⟩, hcan, qty, hqty,
              not_le.mp (hsign.not.mp hskip.1)⟩ h
    · rw [if_neg (by simpa using hcan)]
      exact ⟨row, hkeep _ rfl (fun h => hcan h.2.2.1)⟩
  · rw [if_neg hmarks]
    exact ⟨row, hkeep _ rfl (fun h => hmarks h.2.1.2.1)⟩

theorem fillLeg_spec (hrow : s.tables.legs.lookup legId = some row)
    (hchecked : row.checked = true) (hfinds : db.finds = true) (hstatus : report.status = .filled) :
    ∃ row', AfterReport s
      { s with
        inFlight := s.inFlight.erase legId
        tables :=
          ((if db.marks = true then markExternalLegFilled legId report.filledQty s.tables
            else none).map Prod.fst).getD s.tables } legId report db row row' := by
  have herase : s.inFlight.erase legId =
      if db.finds = true then s.inFlight.erase legId else s.inFlight := (if_pos hfinds).symm
  have hnone : ¬ Compensates db report legId row s.tables := fun h => h.1 hstatus
  have hkeep : ¬ Counts db report row →
      AfterReport s { s with inFlight := s.inFlight.erase legId } legId report db row row :=
    fun hcounts => ⟨herase, rfl, rfl, lookup_self_ite hrow, rfl, hchecked,
      fun h => absurd h hcounts, fun _ => rfl, fun h => absurd h hnone, fun _ => rfl⟩
  by_cases hmarks : db.marks = true
  · rw [if_pos hmarks]
    unfold markExternalLegFilled updateLeg
    by_cases hprints : Prints report.filledQty
    swap
    · rw [if_neg hprints]
      exact ⟨row, hkeep (fun h => hprints h.2.2.2.2.1)⟩
    rw [if_pos hprints, hrow]
    dsimp only
    by_cases hopen : isOpenLeg row = true
    · rw [if_pos hopen]
      by_cases hunits : 0 ≤ filledUnits row report.filledQty
      · have hset := (checked_addFilledCum_iff hchecked report.filledQty
          (if row.qMax.toRat ≤ leastFilled row report.filledQty then "filled"
            else "partially_filled")).mpr hunits
        rw [if_pos hset]
        refine ⟨_, herase, rfl, rfl, fun other => lookup_insert_ite _ _ other, rfl, hset,
          fun _ => rfl, fun h => ?_, fun h => absurd h hnone, fun _ => rfl⟩
        exact absurd ⟨hstatus, hfinds, hmarks, hopen, hprints, hunits⟩ h
      · have hset := (checked_addFilledCum_iff hchecked report.filledQty
          (if row.qMax.toRat ≤ leastFilled row report.filledQty then "filled"
            else "partially_filled")).not.mpr hunits
        rw [if_neg hset]
        exact ⟨row, hkeep (fun h => hunits h.2.2.2.2.2)⟩
    · rw [if_neg hopen]
      exact ⟨row, hkeep (fun h => hopen h.2.2.2.1)⟩
  · rw [if_neg hmarks]
    exact ⟨row, hkeep (fun h => hmarks h.2.2.1)⟩

theorem onExternalExecutionReport_spec (db : ReportDatabase)
    (hid : legIdOf report.clientOrderId = legId) (hne : legId ≠ "")
    (hrow : s.tables.legs.lookup legId = some row) (hchecked : row.checked = true)
    (hterminal : isTerminalStatus report.status = true) :
    ∃ row', AfterReport s (onExternalExecutionReport db report s) legId report db row row' := by
  unfold onExternalExecutionReport
  rw [hid]
  by_cases hfinds : db.finds = true
  · have hgo : ¬ (legId = "" ∨ (!isTerminalStatus report.status) = true ∨ (!db.finds) = true) := by
      simp [hne, hterminal, hfinds]
    rw [if_neg hgo, hrow]
    dsimp only
    by_cases hstatus : report.status = .filled
    · rw [if_pos hstatus]
      exact fillLeg_spec hrow hchecked hfinds hstatus
    · rw [if_neg hstatus]
      exact failLeg_spec hrow hchecked hfinds hstatus
  · have hstop : legId = "" ∨ (!isTerminalStatus report.status) = true ∨ (!db.finds) = true := by
      simp [hfinds]
    rw [if_pos hstop]
    exact ⟨row, (if_neg hfinds).symm, rfl, rfl, lookup_self_ite hrow, rfl, hchecked,
      fun h => absurd h.2.1 hfinds, fun _ => rfl, fun h => absurd h.2.1.1 hfinds, fun _ => rfl⟩

variable {s' : ComboLoop} {chunk : SentChunk} {n : Nat}

theorem wellFormed_afterReport {row' : ComboLegRow} (hwell : s.WellFormed)
    (hchunk : s.sent.lookup n = some chunk) (hrow : s.tables.legs.lookup legId = some row)
    (hafter : AfterReport s s' legId report db row row') :
    { s' with
      sent := s'.sent.insert n { chunk with reported := some report.filledQty } }.WellFormed := by
  have hbefore : ∀ other r, s'.tables.legs.lookup other = some r →
      ∃ r₀, s.tables.legs.lookup other = some r₀ := by
    intro other r hr
    rw [hafter.legs] at hr
    split at hr
    · rename_i hsame
      exact ⟨row, hsame ▸ hrow⟩
    · exact ⟨r, hr⟩
  constructor
  · intro other r hr
    rw [hafter.legs] at hr
    split at hr
    · cases hr
      exact hafter.checked
    · exact hwell.checked other r hr
  · intro other r hr
    obtain ⟨r₀, hr₀⟩ := hbefore other r hr
    exact hwell.ids other r₀ hr₀
  · intro m hm
    rw [hafter.sentCount] at hm
    have hne : m ≠ n := by
      rintro rfl
      rw [hwell.numbered m hm] at hchunk
      cases hchunk
    rw [lookup_insert_ne hne, hafter.sent]
    exact hwell.numbered m hm
  · intro m other hother
    have hold : ∃ old, s.sent.lookup m = some old ∧ old.intent = other.intent := by
      by_cases hm : m = n
      · subst hm
        rw [lookup_insert] at hother
        cases hother
        exact ⟨chunk, hchunk, rfl⟩
      · rw [lookup_insert_ne hm, hafter.sent] at hother
        exact ⟨other, hother, rfl⟩
    obtain ⟨old, hlookup, hintent⟩ := hold
    obtain ⟨hid, r, hr, hext⟩ := hwell.chunks m old hlookup
    unfold SentChunk.legId at *
    rw [hintent] at hid hr
    refine ⟨hid, ?_⟩
    rw [hafter.legs]
    split
    · rename_i hsame
      rw [hsame, hrow] at hr
      cases hr
      exact ⟨row', rfl, (isExternalRow_of_venues hafter.venues).trans hext⟩
    · exact ⟨r, hr, hext⟩

theorem reportedOf_note (qty : Decimal) (hsent : s'.sent = s.sent)
    (hchunk : s.sent.lookup n = some chunk) (other : String) :
    { s' with sent := s'.sent.insert n { chunk with reported := some qty } }.reportedOf other =
      s.reportedOf other + if other = chunk.legId then qty.toRat - chunk.reportedQty else 0 := by
  unfold ComboLoop.reportedOf
  rw [hsent, sum_insert_of_lookup _ hchunk]
  change _ + ((if chunk.legId = other then qty.toRat else 0) -
    (if chunk.legId = other then chunk.reportedQty else 0)) = _
  by_cases hsame : other = chunk.legId
  · rw [if_pos hsame, if_pos hsame.symm, if_pos hsame.symm]
  · rw [if_neg hsame, if_neg (Ne.symm hsame), if_neg (Ne.symm hsame), sub_zero]

theorem lookup_note {m n : Nat} {chunk other : SentChunk} {qty : Decimal}
    (hsent : s'.sent = s.sent) (hout : other.Outstanding)
    (h : lookup m (s'.sent.insert n { chunk with reported := some qty }) = some other) :
    m ≠ n ∧ s.sent.lookup m = some other := by
  by_cases hm : m = n
  · subst hm
    rw [lookup_insert] at h
    cases h
    cases hout
  · rw [lookup_insert_ne hm, hsent] at h
    exact ⟨hm, h⟩

theorem mem_insertNew {κ ν : Type} [DecidableEq κ] {t : Table κ ν} {k k' : κ} {v : ν} :
    k' ∈ insertNew t k v ↔ k' = k ∨ k' ∈ t := by
  unfold insertNew
  split
  · rename_i hsome
    have hmem : k ∈ t := lookup_isSome.mp hsome
    constructor
    · exact .inr
    · rintro (rfl | h)
      · exact hmem
      · exact h
  · exact mem_insert t

theorem safe_afterReport_iff {row' : ComboLegRow} (hwell : s.WellFormed) (hsafe : s.Safe)
    (hchunk : s.sent.lookup n = some chunk) (hrow : s.tables.legs.lookup chunk.legId = some row)
    (hafter : AfterReport s s' chunk.legId report db row row') :
    { s' with sent := s'.sent.insert n { chunk with reported := some report.filledQty } }.Safe ↔
      ReportExact s n chunk report db row := by
  obtain ⟨hexact, hguarded⟩ := hsafe
  obtain ⟨-, ext, hext, hisExt⟩ := hwell.chunks n chunk hchunk
  rw [hrow] at hext
  cases hext
  have hrow' : s'.tables.legs.lookup chunk.legId = some row' := by
    rw [hafter.legs, if_pos rfl]
  have hisExt' : isExternalRow row' = true :=
    (isExternalRow_of_venues hafter.venues).trans hisExt
  have hfilled := hexact.filled chunk.legId row hrow hisExt
  have hreported := reportedOf_note report.filledQty hafter.sent hchunk
  constructor
  · rintro ⟨hexact', hguarded'⟩
    have hfilled' := hexact'.filled chunk.legId row' hrow' hisExt'
    rw [hreported, if_pos rfl, ← hfilled] at hfilled'
    refine ⟨?_, ?_, ?_, ?_⟩
    · intro hfinds m other hother hsame hout
      by_contra hne
      have hstill : lookup m (s'.sent.insert n
          { chunk with reported := some report.filledQty }) = some other := by
        rw [lookup_insert_ne hne, hafter.sent, hother]
      have hflight : other.legId ∈ s'.inFlight := hguarded' m other hstill hout
      rw [hafter.inFlight, if_pos hfinds, hsame] at hflight
      exact Finset.notMem_erase _ _ hflight
    · intro hcounts
      rw [hafter.counted hcounts] at hfilled'
      exact hfilled'
    · intro hcounts
      rw [hafter.uncounted hcounts] at hfilled'
      linarith
    · intro hcompensates k hk hleg
      obtain ⟨c, hnew⟩ := hafter.recorded hcompensates
      refine hexact'.compensated k _ ?_ ?_ hleg
      · rw [hnew]
        exact mem_insertNew.mpr (.inr hk)
      · rw [hnew]
        exact mem_insertNew.mpr (.inl rfl)
  · rintro ⟨halone, hcounted, huncounted, honce⟩
    refine ⟨⟨?_, ?_, ?_, ?_⟩, ?_⟩
    · intro other r hr hr'
      rw [hreported]
      by_cases hsame : other = chunk.legId
      · subst hsame
        rw [hrow'] at hr
        cases hr
        rw [if_pos rfl, ← hfilled]
        by_cases hcounts : Counts db report row
        · rw [hafter.counted hcounts]
          exact hcounted hcounts
        · rw [hafter.uncounted hcounts, huncounted hcounts, sub_self, add_zero]
      · rw [hafter.legs, if_neg hsame] at hr
        rw [if_neg hsame, add_zero]
        exact hexact.filled other r hr hr'
    · intro other r hr _
      exact within_of_checked ((wellFormed_afterReport hwell hchunk hrow hafter).checked other r hr)
    · intro m m' a b ha hb hsame houta houtb
      obtain ⟨-, ha⟩ := lookup_note hafter.sent houta ha
      obtain ⟨-, hb⟩ := lookup_note hafter.sent houtb hb
      exact hexact.single m m' a b ha hb hsame houta houtb
    · intro k k' hk hk' hleg
      by_cases hcompensates : Compensates db report chunk.legId row s.tables
      · obtain ⟨c, hnew⟩ := hafter.recorded hcompensates
        rw [hnew] at hk hk'
        rcases mem_insertNew.mp hk with rfl | hold
        · rcases mem_insertNew.mp hk' with rfl | hold'
          · rfl
          · exact (honce hcompensates k' hold' hleg.symm).symm
        · rcases mem_insertNew.mp hk' with rfl | hold'
          · exact honce hcompensates k hold hleg
          · exact hexact.compensated k k' hold hold' hleg
      · rw [hafter.unrecorded hcompensates] at hk hk'
        exact hexact.compensated k k' hk hk' hleg
    · intro m other hother hout
      obtain ⟨hne, hother⟩ := lookup_note hafter.sent hout hother
      have hflight := hguarded m other hother hout
      rw [hafter.inFlight]
      split
      · rename_i hfinds
        refine Finset.mem_erase.mpr ⟨fun hsame => ?_, hflight⟩
        exact hne (halone hfinds m other hother hsame hout)
      · exact hflight

theorem onExternalExecutionReport_of_not_terminal (h : isTerminalStatus report.status = false) :
    onExternalExecutionReport db report s = s := by
  unfold onExternalExecutionReport
  rw [if_pos (.inr (.inl (by simp [h])))]

/-- A step keeps the state well formed, and it keeps the legs exact and guarded exactly
when it meets the condition. -/
theorem step_spec (hwell : s.WellFormed) (e : ComboEvent) :
    (s.step e).WellFormed ∧ (s.Safe → ((s.step e).Safe ↔ ReportOk s e)) := by
  cases e with
  | batch batch =>
      obtain ⟨hwell', hsafe'⟩ := runGroupedBatch_keeps batch hwell
      exact ⟨hwell', fun hsafe => ⟨fun _ => trivial, fun _ => hsafe' hsafe⟩⟩
  | report n report db =>
      simp only [ComboLoop.step, ReportOk]
      cases hchunk : s.sent.lookup n with
      | none =>
          refine ⟨hwell, fun hsafe => ⟨fun _ chunk row h => ?_, fun _ => hsafe⟩⟩
          cases h
      | some chunk =>
          dsimp only
          unfold ComboLoop.noteReport
          cases hterminal : isTerminalStatus report.status with
          | false =>
              have hquiet : isTerminalStatus (chunk.echo report).status = false := hterminal
              rw [onExternalExecutionReport_of_not_terminal hquiet]
              refine ⟨hwell, fun hsafe => ⟨fun _ chunk' row _ h => ?_, fun _ => hsafe⟩⟩
              cases h
          | true =>
              have hterminal' : isTerminalStatus (chunk.echo report).status = true := hterminal
              obtain ⟨hid, row, hrow, -⟩ := hwell.chunks n chunk hchunk
              have hid' : legIdOf (chunk.echo report).clientOrderId = chunk.legId := hid
              obtain ⟨row', hafter⟩ := onExternalExecutionReport_spec db hid'
                (hwell.ids _ row hrow).1 hrow (hwell.checked _ row hrow) hterminal'
              have hsame : ReportExact s n chunk (chunk.echo report) db row ↔
                  ReportExact s n chunk report db row :=
                ⟨fun h => ⟨h.alone, h.counted, h.uncounted, h.compensatedOnce⟩,
                  fun h => ⟨h.alone, h.counted, h.uncounted, h.compensatedOnce⟩⟩
              have hwell' := wellFormed_afterReport hwell hchunk hrow hafter
              refine ⟨hwell', fun hsafe => ?_⟩
              have hiff := safe_afterReport_iff hwell hsafe hchunk hrow hafter
              refine (hiff.trans hsame).trans ?_
              constructor
              · intro h chunk' r hchunk' _ hr
                cases hchunk'
                rw [hrow] at hr
                cases hr
                exact h
              · intro h
                exact h chunk row rfl rfl hrow

end Reports

theorem FreshTables.wellFormed (start : FreshTables) : start.loop.WellFormed where
  checked := start.checked
  ids := start.ids
  numbered _ _ := rfl
  chunks _ _ h := nomatch h

theorem FreshTables.safe (start : FreshTables) : start.loop.Safe := by
  refine ⟨⟨?_, ?_, ?_, ?_⟩, ?_⟩
  · intro legId row hrow hext
    rw [start.fresh legId row hrow hext]
    simp [PgNumeric.toRat, PgNumeric.zero, ComboLoop.reportedOf, FreshTables.loop]
  · intro legId row hrow _
    exact within_of_checked (start.checked legId row hrow)
  · intro m n a b ha
    cases ha
  · intro k k' hk
    cases hk
  · intro n chunk hchunk
    cases hchunk

/-- From fresh tables, the legs are exact and guarded after every step of a run exactly
when all its reports are exact. -/
theorem legs_exact_iff (start : FreshTables) (es : List ComboEvent) :
    StepsMeet ComboLoop.step (fun s e => (s.step e).LegsExact ∧ (s.step e).Guarded) start.loop es ↔
      StepsMeet ComboLoop.step ReportOk start.loop es :=
  stepsMeet_iff (fun _ e hwell => (step_spec hwell e).1)
    (fun _ e hwell hsafe => (step_spec hwell e).2 hsafe) start.wellFormed start.safe

def routedCombo : ComboOrderRow where
  comboType := "basket"
  executionMode := "multileg_vector_solver"
  status := "active"
  ratioBasis := some "notional_weight"
  atomicityPolicy := "external_compensating"
  atomicityScope := "external_compensating"
  fallbackPolicy := "compensate"
  minExecutionScale := none
  maxRatioDeviationBps := none
  userId := some "demo-user"
  accountId := none

/-- An external leg of 10 BTC/USDT, one in a batch, with an amount filled. -/
def routedLeg (filled : Int) (status : String) : ComboLegRow where
  parentOrderId := "c1"
  instrumentSymbol := "BTC/USDT"
  side := "buy"
  ratio := none
  weight := some ⟨10 ^ 18⟩
  ratioBasis := none
  pLow := ⟨90 * 10 ^ 18⟩
  pHigh := ⟨100 * 10 ^ 18⟩
  qRate := ⟨10 ^ 18⟩
  qMax := ⟨10 * 10 ^ 18⟩
  filledCum := ⟨filled * 10 ^ 18⟩
  venuePreferences := [some "binance".toList]
  status

def routedLegs : Table String ComboLegRow :=
  (∅ : Table String ComboLegRow).insert "l1" (routedLeg 0 "active")

theorem lookup_routed {legId : String} {row : ComboLegRow}
    (h : routedLegs.lookup legId = some row) : legId = "l1" ∧ row = routedLeg 0 "active" := by
  unfold routedLegs at h
  by_cases hl : legId = "l1"
  · subst hl
    cases h
    exact ⟨rfl, rfl⟩
  · rw [lookup_insert_ne hl] at h
    cases h

def routedTables : FreshTables where
  tables :=
    { comboOrders := (∅ : Table String ComboOrderRow).insert "c1" routedCombo
      legs := routedLegs }
  checked legId row h := by
    obtain ⟨rfl, rfl⟩ := lookup_routed h
    decide
  ids legId row h := by
    obtain ⟨rfl, rfl⟩ := lookup_routed h
    decide
  fresh legId row h _ := by
    obtain ⟨rfl, rfl⟩ := lookup_routed h
    rfl

def chunkReport (reportId : String) (status : ExecutionReportStatus) : ExecutionReport where
  reportId
  intentId := "l1"
  instrument := { symbol := "BTC/USDT", base := "", quote := "" }
  status
  filledQty := Decimal.of 1 0
  averagePrice := Decimal.of 95 0

def chunkRun (statuses : List ExecutionReportStatus) : List ComboEvent :=
  .batch { batchId := "b1" } ::
    statuses.map (fun status => .report 0 (chunkReport "r1" status) {})

/-- Two reports of one chunk, with a batch before and after the second. -/
def crossedRun : List ComboEvent :=
  chunkRun [.filled] ++ [.batch { batchId := "b2" }, .report 0 (chunkReport "r1" .filled) {},
    .batch { batchId := "b3" }]

/-- A report that comes twice is counted twice, what a cancelled chunk has filled is not
counted, and a report that comes late lets a second chunk out. -/
theorem chunk_miscounted :
    ¬ (run ComboLoop.step routedTables.loop (chunkRun [.filled, .filled])).LegsExact ∧
      ¬ (run ComboLoop.step routedTables.loop (chunkRun [.cancelled])).LegsExact ∧
        ¬ (run ComboLoop.step routedTables.loop crossedRun).LegsExact := by
  refine ⟨?_, ?_, ?_⟩
  · intro h
    have hfilled := h.filled "l1" (routedLeg 2 "partially_filled") (by decide +kernel)
      (by decide +kernel)
    revert hfilled
    decide +kernel
  · intro h
    have hfilled := h.filled "l1" (routedLeg 0 "failed_external") (by decide +kernel)
      (by decide +kernel)
    revert hfilled
    decide +kernel
  · intro h
    have hchunks : ∀ n ∈ [1, 2],
        ((run ComboLoop.step routedTables.loop crossedRun).sent.lookup n).map
          (fun chunk => (chunk.legId, chunk.reported)) = some ("l1", none) := by
      decide +kernel
    obtain ⟨a, ha, hleg⟩ := Option.map_eq_some_iff.mp (hchunks 1 (by simp))
    obtain ⟨b, hb, hleg'⟩ := Option.map_eq_some_iff.mp (hchunks 2 (by simp))
    obtain ⟨hida, houta⟩ := Prod.mk.inj hleg
    obtain ⟨hidb, houtb⟩ := Prod.mk.inj hleg'
    have hsame := h.single 1 2 a b ha hb (hida.trans hidb.symm) houta houtb
    cases hsame

end Matching
end ContExchange
