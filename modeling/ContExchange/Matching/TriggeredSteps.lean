import ContExchange.Matching.TriggeredLegs
import ContExchange.OrderFlow.ComboStorage

/-!
# Matching: steps of runs with triggered legs

* `Sound`: a leg is active or cancelled while its combo is open, and filled or cancelled
  once it is filled; only legs of the vector solver execute; links are between legs of
  their combo;
* `triggered_persisted`, `triggered_grown`, `triggered_created`: a group that is persisted, a
  child graph that is applied and a combo that is created keep `Triggered` under their
  conditions.
-/

namespace ContExchange
namespace Matching

open Common Lib AList
open Option hiding map mem_map or or_assoc
open OrderFlow (ComboTables ComboOrderRow ComboLegRow ComboOrder ComboEnv Leg ConditionalLink
  CreateComboOrderRequest buildDomain comboLegRow comboOrderRow insertComboOrder insertNew
  insertLeg_spec inserted_of_insert comboLegRow_parent lookup_insertNew)

/-- A leg after transitions: what it has filled stays, and its status and size stay unless it
was cancelled or resized. -/
structure ChildAfter (resized : String → Prop) (legId : String) (leg leg' : ComboLegRow) :
    Prop where
  parent : leg'.parentOrderId = leg.parentOrderId
  filledCum : leg'.filledCum = leg.filledCum
  checked : leg.checked = true → leg'.checked = true
  status : leg.status ≠ "waiting_for_trigger" →
    leg'.status = leg.status ∧ leg'.qMax = leg.qMax ∨ leg'.status = "cancelled" ∨
      resized legId ∧ leg'.status = "active"

section Children

variable {resized : String → Prop} {t t' : ComboTables}

theorem ChildAfter.refl (resized : String → Prop) (legId : String) (leg : ComboLegRow) :
    ChildAfter resized legId leg leg :=
  ⟨rfl, rfl, id, fun _ => .inl ⟨rfl, rfl⟩⟩

theorem ChildAfter.trans {legId : String} {a b c : ComboLegRow}
    (hfirst : ChildAfter resized legId a b) (hsecond : ChildAfter resized legId b c) :
    ChildAfter resized legId a c := by
  refine ⟨hsecond.parent.trans hfirst.parent, hsecond.filledCum.trans hfirst.filledCum,
    hsecond.checked ∘ hfirst.checked, fun hwaits => ?_⟩
  have hcancelled : ("cancelled" : String) ≠ "waiting_for_trigger" := by decide
  have hactive : ("active" : String) ≠ "waiting_for_trigger" := by decide
  rcases hfirst.status hwaits with ⟨hstatus, hmax⟩ | hstatus | ⟨hresized, hstatus⟩
  · rcases hsecond.status (hstatus ▸ hwaits) with ⟨hstatus', hmax'⟩ | hsecond
    · exact .inl ⟨hstatus'.trans hstatus, hmax'.trans hmax⟩
    · exact .inr hsecond
  · rcases hsecond.status (hstatus ▸ hcancelled) with ⟨hstatus', -⟩ | hsecond
    · exact .inr (.inl (hstatus'.trans hstatus))
    · exact .inr hsecond
  · rcases hsecond.status (hstatus ▸ hactive) with ⟨hstatus', -⟩ | hsecond
    · exact .inr (.inr ⟨hresized, hstatus'.trans hstatus⟩)
    · exact .inr hsecond

theorem related_updateLeg
    {R : String → ComboLegRow → ComboLegRow → Prop} (hrefl : ∀ legId leg, R legId leg leg)
    {target : String} {condition : ComboLegRow → Bool} {set : ComboLegRow → ComboLegRow}
    (hset : ∀ leg, condition leg = true → (set leg).checked = true → R target leg (set leg))
    (h : (updateLeg target condition set t).map Prod.fst = some t') :
    t'.comboOrders = t.comboOrders ∧ Table.Related R t.legs t'.legs := by
  obtain ⟨r, hr, rfl⟩ := map_eq_some_iff.mp h
  rcases updateLeg_cases hr with ⟨rfl, -⟩ | ⟨row, hrow, hcondition, hchecked, rfl⟩
  · exact ⟨rfl, Table.Related.refl hrefl _⟩
  · exact ⟨rfl, Table.Related.insert hrefl hrow (hset row hcondition hchecked)⟩

theorem childAfter_transition {transition : GraphTransition}
    (hresized : ∀ target qMax, transition = .bracketResize target qMax → resized target)
    (h : persistTransition t transition = some t') :
    t'.comboOrders = t.comboOrders ∧ Table.Related (ChildAfter resized) t.legs t'.legs := by
  cases transition with
  | ocoCancel target =>
      refine related_updateLeg (ChildAfter.refl resized) (fun leg _ hchecked => ?_) h
      exact ⟨rfl, rfl, fun _ => hchecked, fun _ => .inr (.inl rfl)⟩
  | bracketResize target qMax =>
      refine related_updateLeg (ChildAfter.refl resized) (fun leg _ hchecked => ?_) h
      exact ⟨rfl, rfl, fun _ => hchecked, fun _ => .inr (.inr ⟨hresized target qMax rfl, rfl⟩)⟩
  | conditionalActivate target =>
      refine related_updateLeg (ChildAfter.refl resized) (fun leg hcondition hchecked => ?_) h
      exact ⟨rfl, rfl, fun _ => hchecked,
        fun hwaits => absurd (of_decide_eq_true hcondition) hwaits⟩

theorem childAfter_of_step {jsonb : Jsonb} {prices : ReferencePrices} {parentOrderId : String}
    {s s' : GraphStore} (h : childGraphStep jsonb prices parentOrderId s = some s') :
    ∃ group, loadComboGroupState jsonb s parentOrderId = some group ∧ s'.links = s.links ∧
      s'.tables.comboOrders = s.tables.comboOrders ∧
        Table.Related (ChildAfter group.Resized) s.tables.legs s'.tables.legs := by
  obtain ⟨group, hgroup, hwritten⟩ := bind_eq_some_iff.mp h
  obtain ⟨tables, htables, rfl⟩ := map_eq_some_iff.mp hwritten
  have hinv : tables.comboOrders = s.tables.comboOrders ∧
      Table.Related (ChildAfter group.Resized) s.tables.legs tables.legs := by
    refine foldlM_invariant
      (P := fun t => t.comboOrders = s.tables.comboOrders ∧
        Table.Related (ChildAfter group.Resized) s.tables.legs t.legs)
      (fun transition hmem t t' ht hstep => ?_)
      ⟨rfl, Table.Related.refl (ChildAfter.refl _) _⟩ htables
    obtain ⟨hcombos, hlegs⟩ := childAfter_transition
      (fun target qMax heq => resized_of_transition (heq ▸ hmem)) hstep
    exact ⟨hcombos.trans ht.1, ht.2.trans (fun _ _ _ _ => ChildAfter.trans) hlegs⟩
  exact ⟨group, hgroup, rfl, hinv⟩

end Children

def openComboStatuses : List String :=
  ["active", "partially_filled"]

/-- What a leg is before its combo is filled. -/
def openLegStatuses : List String :=
  ["active", "cancelled"]

structure Fits (combo : ComboOrderRow) (leg : ComboLegRow) : Prop where
  solver : 0 < leg.filledCum.units → combo.executionMode = "multileg_vector_solver"
  status : combo.status ∈ openComboStatuses ∧ leg.status ∈ openLegStatuses ∨
    combo.status = "filled" ∧ leg.status ∈ closedStatuses

/-- The rows of legs and links are as creates, groups and child graphs leave them. -/
structure Sound (s : GraphStore) : Prop where
  checked : ∀ legId leg, s.tables.legs.lookup legId = some leg → leg.checked = true
  fits : ∀ legId leg, s.tables.legs.lookup legId = some leg →
    ∃ combo, s.tables.comboOrders.lookup leg.parentOrderId = some combo ∧ Fits combo leg
  linked : ∀ linkId link, s.links.lookup linkId = some link →
    ∀ legId, legId = link.fromLegId ∨ legId = link.toLegId →
      ∃ leg, s.tables.legs.lookup legId = some leg ∧ leg.parentOrderId = link.parentOrderId

section Fitting

variable {combo : ComboOrderRow} {leg : ComboLegRow} {s : GraphStore}

variable {status : String}

theorem mem_openComboStatuses :
    status ∈ openComboStatuses ↔ status = "active" ∨ status = "partially_filled" := by
  simp [openComboStatuses]

theorem mem_openLegStatuses :
    status ∈ openLegStatuses ↔ status = "active" ∨ status = "cancelled" := by
  simp [openLegStatuses]

theorem not_mem_closed_of_open (h : status ∈ openComboStatuses) : status ∉ closedStatuses := by
  rcases mem_openComboStatuses.mp h with rfl | rfl <;> decide

theorem open_of_groupLoads (h : groupLoads combo = true) : combo.status ∈ openComboStatuses :=
  mem_openComboStatuses.mpr (groupLoads_iff.mp h).2

theorem Fits.of_open (h : Fits combo leg) (hopen : combo.status ∈ openComboStatuses) :
    leg.status ∈ openLegStatuses := by
  rcases h.status with ⟨-, hleg⟩ | ⟨hfilled, -⟩
  · exact hleg
  · rw [hfilled] at hopen
    exact absurd hopen (by decide)

theorem Fits.not_waiting (h : Fits combo leg) : leg.status ≠ "waiting_for_trigger" := by
  intro hwaits
  rcases h.status with ⟨-, hleg⟩ | ⟨-, hleg⟩
  · rw [hwaits] at hleg
    exact absurd hleg (by decide)
  · rw [hwaits] at hleg
    exact absurd hleg (by decide)

theorem filled_of_checked (h : leg.checked = true) :
    0 ≤ leg.filledCum.units ∧ leg.filledCum.units ≤ leg.qMax.units := by
  obtain ⟨-, -, -, -, hnonneg, hle, -⟩ := of_decide_eq_true h
  exact ⟨hnonneg, hle⟩

theorem Sound.same_parent (hsound : Sound s) {type : String} {link : ConditionalLinkRow}
    {source target : ComboLegRow} (hlink : LinkBetween s type link source target) :
    source.parentOrderId = link.parentOrderId ∧ target.parentOrderId = link.parentOrderId := by
  obtain ⟨linkId, hstored⟩ := hlink.stored
  obtain ⟨leg, hleg, hparent⟩ := hsound.linked linkId link hstored _ (.inl rfl)
  obtain ⟨leg', hleg', hparent'⟩ := hsound.linked linkId link hstored _ (.inr rfl)
  rw [hlink.source] at hleg
  rw [hlink.target] at hleg'
  cases hleg
  cases hleg'
  exact ⟨hparent, hparent'⟩

theorem loadable_of_open (hleg : leg.status ∈ openLegStatuses)
    (hcombo : s.tables.comboOrders.lookup leg.parentOrderId = some combo)
    (hloads : groupLoads combo = true) : Loadable s leg ∨ leg.status = "cancelled" := by
  rcases mem_openLegStatuses.mp hleg with hactive | hcancelled
  · refine .inl ⟨legLoads_iff.mpr ⟨rfl, ?_⟩, combo, hcombo, hloads⟩
    rw [hactive]
    decide
  · exact .inr hcancelled

end Fitting

section Persisted

variable {eg : ExecutionGroupEvent} {t : ComboTables} {legId : String} {leg : ComboLegRow}

theorem legAfter_of_other (hother : leg.parentOrderId ≠ eg.parentOrderId) :
    legAfter eg t legId leg = leg :=
  if_pos hother

theorem legAfter_of_same (hsame : leg.parentOrderId = eg.parentOrderId) :
    legAfter eg t legId leg =
      if Fills eg t ∧ leg.status = "active" then
        { bookedLeg eg.legResults legId leg with status := "filled" }
      else bookedLeg eg.legResults legId leg :=
  if_neg (not_not.mpr hsame)

@[simp] theorem legAfter_parent (eg : ExecutionGroupEvent) (t : ComboTables) (legId : String)
    (leg : ComboLegRow) : (legAfter eg t legId leg).parentOrderId = leg.parentOrderId := by
  unfold legAfter
  split_ifs
  · rfl
  · exact bookedLeg_parent _ _ _
  · exact bookedLeg_parent _ _ _

@[simp] theorem legAfter_qMax (eg : ExecutionGroupEvent) (t : ComboTables) (legId : String)
    (leg : ComboLegRow) : (legAfter eg t legId leg).qMax = leg.qMax := by
  unfold legAfter
  split_ifs
  · rfl
  · exact bookedLeg_qMax _ _ _
  · exact bookedLeg_qMax _ _ _

theorem legAfter_filledCum (hsame : leg.parentOrderId = eg.parentOrderId) :
    (legAfter eg t legId leg).filledCum = (bookedLeg eg.legResults legId leg).filledCum := by
  rw [legAfter_of_same hsame]
  split_ifs <;> rfl

theorem legAfter_status (eg : ExecutionGroupEvent) (t : ComboTables) (legId : String)
    (leg : ComboLegRow) :
    (legAfter eg t legId leg).status =
      if leg.parentOrderId = eg.parentOrderId ∧ Fills eg t ∧ leg.status = "active" then "filled"
      else leg.status := by
  by_cases hsame : leg.parentOrderId = eg.parentOrderId
  · rw [legAfter_of_same hsame]
    by_cases hcloses : Fills eg t ∧ leg.status = "active"
    · rw [if_pos hcloses, if_pos ⟨hsame, hcloses⟩]
    · rw [if_neg hcloses, if_neg (fun h => hcloses h.2), bookedLeg_status]
  · rw [legAfter_of_other hsame, if_neg (fun h => hsame h.1)]

theorem legAfter_grows (t : ComboTables) (legId : String)
    (hqty : ∀ lr ∈ eg.legResults, 0 ≤ lr.execQty.toRat)
    (hshown : ∀ lr ∈ eg.legResults, TextExact lr.execQty) (hchecked : leg.checked = true) :
    leg.filledCum.units ≤ (legAfter eg t legId leg).filledCum.units ∧
      (leg.filledCum.units < (legAfter eg t legId leg).filledCum.units →
        (legAfter eg t legId leg).filledCum.units ≤ leg.qMax.units ∧
          ∃ lr ∈ eg.legResults, lr.legId = legId ∧ 0 < lr.execQty.units) := by
  obtain ⟨-, hle⟩ := filled_of_checked hchecked
  by_cases hsame : leg.parentOrderId = eg.parentOrderId
  · rw [legAfter_filledCum hsame]
    obtain ⟨hgrows, hwithin⟩ := filled_bookedLeg legId hqty hshown hle
    exact ⟨hgrows, fun hlt => ⟨hwithin, executes_of_booked hqty hle hlt⟩⟩
  · rw [legAfter_of_other hsame]
    exact ⟨le_rfl, fun hlt => absurd hlt (lt_irrefl _)⟩

end Persisted

/-- The statements of a group of an open combo are carried out. -/
structure Persisted (eg : ExecutionGroupEvent) (combo : ComboOrderRow) (s s' : GraphStore) :
    Prop where
  row : s.tables.comboOrders.lookup eg.parentOrderId = some combo
  loads : groupLoads combo = true
  nonneg : ∀ lr ∈ eg.legResults, 0 ≤ lr.execQty.toRat
  written : persistExecutionGroup eg s.tables = some s'.tables
  links : s'.links = s.links

namespace Persisted

variable {eg : ExecutionGroupEvent} {combo : ComboOrderRow} {s s' : GraphStore}

section Persist

variable (h : Persisted eg combo s s')

include h

theorem rows :
    s'.tables.comboOrders = s.tables.comboOrders.insert eg.parentOrderId
        { combo with status := if Fills eg s.tables then "filled" else "partially_filled" } ∧
      ∀ legId, s'.tables.legs.lookup legId =
        (s.tables.legs.lookup legId).map (legAfter eg s.tables legId) :=
  rows_of_persist h.row (not_mem_closed_of_open (open_of_groupLoads h.loads)) h.written

variable {legId : String}

theorem leg_before {leg' : ComboLegRow} (hleg' : s'.tables.legs.lookup legId = some leg') :
    ∃ leg, s.tables.legs.lookup legId = some leg ∧ leg' = legAfter eg s.tables legId leg := by
  rw [h.rows.2, map_eq_some_iff] at hleg'
  obtain ⟨leg, hleg, rfl⟩ := hleg'
  exact ⟨leg, hleg, rfl⟩

theorem combo_after :
    s'.tables.comboOrders.lookup eg.parentOrderId =
      some { combo with status := if Fills eg s.tables then "filled" else "partially_filled" } := by
  rw [h.rows.1, lookup_insert]

theorem combo_other {comboId : String} (hother : comboId ≠ eg.parentOrderId) :
    s'.tables.comboOrders.lookup comboId = s.tables.comboOrders.lookup comboId := by
  rw [h.rows.1, lookup_insert_ne hother]

theorem link_before {type : String} {link : ConditionalLinkRow} {source' target' : ComboLegRow}
    (hlink : LinkBetween s' type link source' target') :
    ∃ source target, LinkBetween s type link source target ∧
      source' = legAfter eg s.tables link.fromLegId source ∧
        target' = legAfter eg s.tables link.toLegId target := by
  obtain ⟨source, hsource, hafter⟩ := h.leg_before hlink.source
  obtain ⟨target, htarget, hafter'⟩ := h.leg_before hlink.target
  exact ⟨source, target, ⟨h.links ▸ hlink.stored, hlink.type, hsource, htarget⟩, hafter, hafter'⟩

theorem fits_same {leg : ComboLegRow} (hsame : leg.parentOrderId = eg.parentOrderId)
    (hfits : Fits combo leg) :
    Fits { combo with status := if Fills eg s.tables then "filled" else "partially_filled" }
      (legAfter eg s.tables legId leg) := by
  refine ⟨fun _ => (groupLoads_iff.mp h.loads).1, ?_⟩
  have hopen := mem_openLegStatuses.mp (hfits.of_open (open_of_groupLoads h.loads))
  rw [legAfter_status]
  by_cases hfills : Fills eg s.tables
  · refine .inr ⟨if_pos hfills, ?_⟩
    rcases hopen with hactive | hcancelled
    · rw [if_pos ⟨hsame, hfills, hactive⟩]
      decide
    · rw [if_neg (by rw [hcancelled]; exact fun h => absurd h.2.2 (by decide)), hcancelled]
      decide
  · refine .inl ⟨?_, ?_⟩
    · dsimp only
      rw [if_neg hfills]
      decide
    · rw [if_neg (fun h => hfills h.2.1)]
      exact mem_openLegStatuses.mpr hopen

theorem sound (hsound : Sound s) : Sound s' := by
  refine ⟨checked_of_persist hsound.checked h.written, fun legId leg' hleg' => ?_,
    fun linkId link hlink legId hend => ?_⟩
  · obtain ⟨leg, hleg, rfl⟩ := h.leg_before hleg'
    obtain ⟨combo', hcombo', hfits⟩ := hsound.fits legId leg hleg
    rw [legAfter_parent]
    by_cases hsame : leg.parentOrderId = eg.parentOrderId
    · rw [hsame, h.row] at hcombo'
      cases hcombo'
      exact ⟨_, hsame ▸ h.combo_after, h.fits_same hsame hfits⟩
    · rw [legAfter_of_other hsame]
      exact ⟨combo', (h.combo_other hsame).trans hcombo', hfits⟩
  · rw [h.links] at hlink
    obtain ⟨leg, hleg, hparent⟩ := hsound.linked linkId link hlink legId hend
    refine ⟨legAfter eg s.tables legId leg, ?_, (legAfter_parent _ _ _ _).trans hparent⟩
    rw [h.rows.2, hleg, map_some]

theorem closed_after {leg : ComboLegRow} (hleg : s.tables.legs.lookup legId = some leg)
    (hclosed : leg.status ∈ closedStatuses) :
    ∃ leg', s'.tables.legs.lookup legId = some leg' ∧ leg'.status ∈ closedStatuses := by
  refine ⟨legAfter eg s.tables legId leg, by rw [h.rows.2, hleg, map_some], ?_⟩
  rw [legAfter_status]
  split_ifs
  · decide
  · exact hclosed

end Persist

end Persisted

section PersistedRuns

variable {jsonb : Jsonb} {eg : ExecutionGroupEvent} {combo : ComboOrderRow} {s s' : TriggerRun}

theorem mem_linkRows {store : GraphStore} {link : ConditionalLinkRow} :
    link ∈ linkRows store ↔ ∃ linkId, store.links.lookup linkId = some link := by
  unfold linkRows
  rw [List.mem_map]
  constructor
  · rintro ⟨⟨linkId, link⟩, hmem, rfl⟩
    exact ⟨linkId, mem_lookup_iff.mpr hmem⟩
  · rintro ⟨linkId, hlookup⟩
    exact ⟨⟨linkId, link⟩, mem_lookup_iff.mp hlookup, rfl⟩

/-- An exit of an executed entry after the group: the combo stays open, or it is closed and
the exit is done. -/
theorem loadable_persisted (hsound : Sound s.store) (hok : GroupOk jsonb s eg)
    (h : Persisted eg combo s.store s'.store) (htriggered : Triggered jsonb s)
    {link : ConditionalLinkRow} {entry exit : ComboLegRow}
    (hlink : LinkBetween s.store "bracket" link entry exit)
    (hfilled : 0 < (legAfter eg s.store.tables link.fromLegId entry).filledCum.units) :
    Loadable s'.store (legAfter eg s.store.tables link.toLegId exit) ∨
      (legAfter eg s.store.tables link.toLegId exit).status = "cancelled" ∨
        Full (legAfter eg s.store.tables link.toLegId exit) := by
  obtain ⟨hentry, hexit⟩ := hsound.same_parent hlink
  by_cases hsame : link.parentOrderId = eg.parentOrderId
  · by_cases hfills : Fills eg s.store.tables
    · rw [legAfter_filledCum (hentry.trans hsame)] at hfilled
      refine .inr ?_
      rcases hok.closes hfills link (mem_linkRows.mpr hlink.stored) hsame hlink.type entry
        hlink.source hfilled exit hlink.target with hcancelled | hfull
      · refine .inl ?_
        rw [legAfter_status, hcancelled]
        exact if_neg (fun hcloses => absurd hcloses.2.2 (by decide))
      · refine .inr ?_
        unfold Full at hfull ⊢
        rw [legAfter_filledCum (hexit.trans hsame), legAfter_qMax]
        rwa [bookedLeg_qMax] at hfull
    · obtain ⟨combo', hcombo', hfits⟩ := hsound.fits _ _ hlink.target
      rw [hexit.trans hsame, h.row] at hcombo'
      cases hcombo'
      have hopen : (legAfter eg s.store.tables link.toLegId exit).status ∈ openLegStatuses := by
        rw [legAfter_status, if_neg (fun hcloses => hfills hcloses.2.1)]
        exact hfits.of_open (open_of_groupLoads h.loads)
      have hcombo := h.combo_after
      rw [if_neg hfills] at hcombo
      have hgroup : groupLoads { combo with status := "partially_filled" } = true :=
        groupLoads_iff.mpr ⟨(groupLoads_iff.mp h.loads).1, .inr rfl⟩
      rw [← hsame, ← hexit, ← legAfter_parent eg s.store.tables link.toLegId exit] at hcombo
      rw [← or_assoc]
      exact .inl (loadable_of_open hopen hcombo hgroup)
  · have hother : exit.parentOrderId ≠ eg.parentOrderId := fun heq => hsame (hexit.symm.trans heq)
    rw [legAfter_of_other (fun heq => hsame (hentry.symm.trans heq))] at hfilled
    rw [legAfter_of_other hother]
    rcases htriggered.loadable link entry exit hlink hfilled with ⟨hloads, row, hrow, hgroup⟩ | hdone
    · exact .inl ⟨hloads, row, (h.combo_other hother).trans hrow, hgroup⟩
    · exact .inr hdone

theorem triggered_persisted (hsound : Sound s.store) (hok : GroupOk jsonb s eg)
    (h : Persisted eg combo s.store s'.store) (hprices : s'.prices = s.prices)
    (htriggered : Triggered jsonb s) : Triggered jsonb s' := by
  refine ⟨fun link entry' exit' hlink' => ?_, fun link source' target' hlink' hfilled => ?_,
    fun link entry' exit' hlink' hfilled => ?_⟩
  · obtain ⟨entry, exit, hlink, rfl, rfl⟩ := h.link_before hlink'
    have hgrows := (legAfter_grows s.store.tables link.fromLegId h.nonneg hok.shown
      (hsound.checked _ _ hlink.source)).1
    obtain ⟨hgrows', hexecutes⟩ := legAfter_grows s.store.tables link.toLegId
      h.nonneg hok.shown (hsound.checked _ _ hlink.target)
    rcases hgrows'.lt_or_eq with hlt | heq
    · obtain ⟨hwithin, lr, hlr, hid, hpos⟩ := hexecutes hlt
      have hmax := (hok.triggered lr hlr hpos link (mem_linkRows.mpr hlink.stored) hid.symm).1
        hlink.type exit (hid ▸ hlink.target) entry hlink.source
      exact (hwithin.trans hmax).trans hgrows
    · rw [← heq]
      exact (htriggered.bracket link entry exit hlink).trans hgrows
  · obtain ⟨source, target, hlink, -, rfl⟩ := h.link_before hlink'
    rw [hprices]
    obtain ⟨hgrows, hexecutes⟩ := legAfter_grows s.store.tables link.toLegId
      h.nonneg hok.shown (hsound.checked _ _ hlink.target)
    rcases hgrows.lt_or_eq with hlt | heq
    · obtain ⟨-, lr, hlr, hid, hpos⟩ := hexecutes hlt
      exact (hok.triggered lr hlr hpos link (mem_linkRows.mpr hlink.stored) hid.symm).2 hlink.type
    · rw [← heq] at hfilled
      exact htriggered.conditional link source target hlink hfilled
  · obtain ⟨entry, exit, hlink, rfl, rfl⟩ := h.link_before hlink'
    exact loadable_persisted hsound hok h htriggered hlink hfilled

end PersistedRuns

/-- The transitions of a combo are carried out, and no resize reopens a leg. -/
structure Grown (resized : String → Prop) (s s' : GraphStore) : Prop where
  links : s'.links = s.links
  combos : s'.tables.comboOrders = s.tables.comboOrders
  legs : Table.Related (ChildAfter resized) s.tables.legs s'.tables.legs
  leaves : ∀ legId leg, resized legId → s.tables.legs.lookup legId = some leg →
    leg.status ∉ closedStatuses

namespace Grown

variable {resized : String → Prop} {s s' : GraphStore}

variable {legId : String}

section Growth

variable (h : Grown resized s s') (hsound : Sound s)

include h hsound

theorem closed_leg {leg leg' : ComboLegRow} (hleg : s.tables.legs.lookup legId = some leg)
    (hafter : ChildAfter resized legId leg leg') (hclosed : leg.status ∈ closedStatuses) :
    leg'.status = leg.status ∧ leg'.qMax = leg.qMax ∨ leg'.status = "cancelled" := by
  obtain ⟨combo, -, hfits⟩ := hsound.fits legId leg hleg
  rcases hafter.status hfits.not_waiting with hsame | hcancelled | ⟨hresized, -⟩
  · exact .inl hsame
  · exact .inr hcancelled
  · exact absurd hclosed (h.leaves legId leg hresized hleg)

theorem fits_after {combo : ComboOrderRow} {leg leg' : ComboLegRow}
    (hleg : s.tables.legs.lookup legId = some leg) (hafter : ChildAfter resized legId leg leg')
    (hfits : Fits combo leg) : Fits combo leg' := by
  refine ⟨fun hpos => hfits.solver (hafter.filledCum ▸ hpos), ?_⟩
  rcases hfits.status with ⟨hopen, hstatus⟩ | ⟨hfilled, hstatus⟩
  · refine .inl ⟨hopen, ?_⟩
    rcases hafter.status hfits.not_waiting with ⟨hsame, -⟩ | hcancelled | ⟨-, hactive⟩
    · rw [hsame]
      exact hstatus
    · exact mem_openLegStatuses.mpr (.inr hcancelled)
    · exact mem_openLegStatuses.mpr (.inl hactive)
  · refine .inr ⟨hfilled, ?_⟩
    rcases h.closed_leg hsound hleg hafter hstatus with ⟨hsame, -⟩ | hcancelled
    · rw [hsame]
      exact hstatus
    · rw [hcancelled]
      decide

theorem sound : Sound s' := by
  refine ⟨fun legId leg' hleg' => ?_, fun legId leg' hleg' => ?_,
    fun linkId link hlink legId hend => ?_⟩
  · obtain ⟨leg, hleg, hafter⟩ := h.legs.row_before hleg'
    exact hafter.checked (hsound.checked legId leg hleg)
  · obtain ⟨leg, hleg, hafter⟩ := h.legs.row_before hleg'
    obtain ⟨combo, hcombo, hfits⟩ := hsound.fits legId leg hleg
    refine ⟨combo, ?_, h.fits_after hsound hleg hafter hfits⟩
    rw [h.combos, hafter.parent]
    exact hcombo
  · rw [h.links] at hlink
    obtain ⟨leg, hleg, hparent⟩ := hsound.linked linkId link hlink legId hend
    obtain ⟨leg', hleg', hafter⟩ := h.legs.row_after hleg
    exact ⟨leg', hleg', hafter.parent.trans hparent⟩

theorem closed_after {leg : ComboLegRow} (hleg : s.tables.legs.lookup legId = some leg)
    (hclosed : leg.status ∈ closedStatuses) :
    ∃ leg', s'.tables.legs.lookup legId = some leg' ∧ leg'.status ∈ closedStatuses := by
  obtain ⟨leg', hleg', hafter⟩ := h.legs.row_after hleg
  refine ⟨leg', hleg', ?_⟩
  rcases h.closed_leg hsound hleg hafter hclosed with ⟨hsame, -⟩ | hcancelled
  · rw [hsame]
    exact hclosed
  · rw [hcancelled]
    decide

end Growth

theorem link_before (h : Grown resized s s') {type : String} {link : ConditionalLinkRow}
    {source' target' : ComboLegRow} (hlink : LinkBetween s' type link source' target') :
    ∃ source target, LinkBetween s type link source target ∧
      ChildAfter resized link.fromLegId source source' ∧
        ChildAfter resized link.toLegId target target' := by
  obtain ⟨source, hsource, hafter⟩ := h.legs.row_before hlink.source
  obtain ⟨target, htarget, hafter'⟩ := h.legs.row_before hlink.target
  exact ⟨source, target, ⟨h.links ▸ hlink.stored, hlink.type, hsource, htarget⟩, hafter, hafter'⟩

end Grown

theorem triggered_grown {jsonb : Jsonb} {resized : String → Prop} {s s' : TriggerRun}
    (hsound : Sound s.store) (h : Grown resized s.store s'.store) (hprices : s'.prices = s.prices)
    (htriggered : Triggered jsonb s) : Triggered jsonb s' := by
  refine ⟨fun link entry' exit' hlink' => ?_, fun link source' target' hlink' hfilled => ?_,
    fun link entry' exit' hlink' hfilled => ?_⟩
  · obtain ⟨entry, exit, hlink, hentry, hexit⟩ := h.link_before hlink'
    rw [hentry.filledCum, hexit.filledCum]
    exact htriggered.bracket link entry exit hlink
  · obtain ⟨source, target, hlink, -, htarget⟩ := h.link_before hlink'
    rw [htarget.filledCum] at hfilled
    rw [hprices]
    exact htriggered.conditional link source target hlink hfilled
  · obtain ⟨entry, exit, hlink, hentry, hexit⟩ := h.link_before hlink'
    rw [hentry.filledCum] at hfilled
    obtain ⟨entryParent, exitParent⟩ := hsound.same_parent hlink
    obtain ⟨combo, hcombo, hfits⟩ := hsound.fits _ _ hlink.target
    obtain ⟨combo', hcombo', hfits'⟩ := hsound.fits _ _ hlink.source
    have hsame : combo' = combo := by
      rw [entryParent, ← exitParent, hcombo] at hcombo'
      exact (Option.some.inj hcombo').symm
    subst hsame
    have hlookup : s'.store.tables.comboOrders.lookup exit'.parentOrderId = some combo' := by
      rw [h.combos, hexit.parent]
      exact hcombo
    rcases hfits.status with ⟨hopen, -⟩ | ⟨hclosed, hstatus⟩
    · have hgroup : groupLoads combo' = true :=
        groupLoads_iff.mpr ⟨hfits'.solver hfilled, mem_openComboStatuses.mp hopen⟩
      have hopen' := (h.fits_after hsound hlink.target hexit hfits).of_open hopen
      rw [← or_assoc]
      exact .inl (loadable_of_open hopen' hlookup hgroup)
    · -- the combo is filled, and its legs were done before
      rcases h.closed_leg hsound hlink.target hexit hstatus with ⟨hsameStatus, hmax⟩ | hcancelled
      · rcases htriggered.loadable link entry exit hlink hfilled with hloads | hcancelled | hfull
        · obtain ⟨row, hrow, hgroup⟩ := hloads.2
          rw [hcombo] at hrow
          cases hrow
          have hopen := open_of_groupLoads hgroup
          rw [hclosed] at hopen
          exact absurd hopen (by decide)
        · exact .inr (.inl (hsameStatus.trans hcancelled))
        · refine .inr (.inr ?_)
          unfold Full at hfull ⊢
          rw [hmax, hexit.filledCum]
          exact hfull
      · exact .inr (.inl hcancelled)

/-- The rows of a combo are stored: new legs are active and empty, and new links are between
them. -/
structure Created (s s' : GraphStore) : Prop where
  combos : ∀ comboId combo, s.tables.comboOrders.lookup comboId = some combo →
    s'.tables.comboOrders.lookup comboId = some combo
  kept : ∀ legId leg, s.tables.legs.lookup legId = some leg →
    s'.tables.legs.lookup legId = some leg
  legs : ∀ legId leg, s'.tables.legs.lookup legId = some leg →
    s.tables.legs.lookup legId = some leg ∨
      s.tables.legs.lookup legId = none ∧ leg.checked = true ∧ leg.status = "active" ∧
        leg.filledCum.units = 0 ∧ ∃ combo,
          s'.tables.comboOrders.lookup leg.parentOrderId = some combo ∧ combo.status = "active"
  links : ∀ linkId link, s'.links.lookup linkId = some link →
    s.links.lookup linkId = some link ∨
      ∀ legId, legId = link.fromLegId ∨ legId = link.toLegId →
        s.tables.legs.lookup legId = none ∧
          ∃ leg, s'.tables.legs.lookup legId = some leg ∧ leg.parentOrderId = link.parentOrderId

namespace Created

variable {s s' : GraphStore}

theorem sound (h : Created s s') (hsound : Sound s) : Sound s' := by
  refine ⟨fun legId leg hleg => ?_, fun legId leg hleg => ?_, fun linkId link hlink legId hend => ?_⟩
  · rcases h.legs legId leg hleg with hold | ⟨-, hchecked, -⟩
    · exact hsound.checked legId leg hold
    · exact hchecked
  · rcases h.legs legId leg hleg with hold | ⟨-, -, hactive, hempty, combo, hcombo, hstatus⟩
    · obtain ⟨combo, hcombo, hfits⟩ := hsound.fits legId leg hold
      exact ⟨combo, h.combos _ _ hcombo, hfits⟩
    · refine ⟨combo, hcombo, fun hpos => ?_, .inl ⟨?_, ?_⟩⟩
      · rw [hempty] at hpos
        exact absurd hpos (lt_irrefl _)
      · exact mem_openComboStatuses.mpr (.inl hstatus)
      · exact mem_openLegStatuses.mpr (.inl hactive)
  · rcases h.links linkId link hlink with hold | hnew
    · obtain ⟨leg, hleg, hparent⟩ := hsound.linked linkId link hold legId hend
      exact ⟨leg, h.kept legId leg hleg, hparent⟩
    · exact (hnew legId hend).2

theorem link_before
    (h : Created s s') (hsound : Sound s) {type : String} {link : ConditionalLinkRow}
    {source target : ComboLegRow} (hlink : LinkBetween s' type link source target) :
    LinkBetween s type link source target ∨
      source.filledCum.units = 0 ∧ target.filledCum.units = 0 := by
  obtain ⟨linkId, hstored⟩ := hlink.stored
  rcases h.links linkId link hstored with hold | hnew
  · refine .inl ⟨⟨linkId, hold⟩, hlink.type, ?_, ?_⟩
    · obtain ⟨leg, hleg, -⟩ := hsound.linked linkId link hold _ (.inl rfl)
      rw [← hlink.source, h.kept _ _ hleg, hleg]
    · obtain ⟨leg, hleg, -⟩ := hsound.linked linkId link hold _ (.inr rfl)
      rw [← hlink.target, h.kept _ _ hleg, hleg]
  · have hempty : ∀ legId leg, legId = link.fromLegId ∨ legId = link.toLegId →
        s'.tables.legs.lookup legId = some leg → leg.filledCum.units = 0 := by
      intro legId leg hend hleg
      rcases h.legs legId leg hleg with hold | ⟨-, -, -, hempty, -⟩
      · rw [(hnew legId hend).1] at hold
        cases hold
      · exact hempty
    exact .inr ⟨hempty _ _ (.inl rfl) hlink.source, hempty _ _ (.inr rfl) hlink.target⟩

end Created

theorem triggered_created {jsonb : Jsonb} {s s' : TriggerRun} (hsound : Sound s.store)
    (h : Created s.store s'.store) (hprices : s'.prices = s.prices)
    (htriggered : Triggered jsonb s) : Triggered jsonb s' := by
  refine ⟨fun link entry exit hlink' => ?_, fun link source target hlink' hfilled => ?_,
    fun link entry exit hlink' hfilled => ?_⟩
  · rcases h.link_before hsound hlink' with hlink | ⟨hentry, hexit⟩
    · exact htriggered.bracket link entry exit hlink
    · rw [hentry, hexit]
  · rcases h.link_before hsound hlink' with hlink | ⟨-, htarget⟩
    · rw [hprices]
      exact htriggered.conditional link source target hlink hfilled
    · rw [htarget] at hfilled
      exact absurd hfilled (lt_irrefl _)
  · rcases h.link_before hsound hlink' with hlink | ⟨hentry, -⟩
    · rcases htriggered.loadable link entry exit hlink hfilled with ⟨hloads, row, hrow, hgroup⟩ | hdone
      · exact .inl ⟨hloads, row, h.combos _ _ hrow, hgroup⟩
      · exact .inr hdone
    · rw [hentry] at hfilled
      exact absurd hfilled (lt_irrefl _)

section Inserting

variable {combo : ComboOrder} {t t' : ComboTables} {s s' : GraphStore}

theorem checked_of_insert (h : insertComboOrder combo t = some t') {legId : String}
    {leg : ComboLegRow} (hleg : t'.legs.lookup legId = some leg) :
    t.legs.lookup legId = some leg ∨ leg.checked = true := by
  unfold insertComboOrder at h
  split_ifs at h
  rw [bind_eq_bind, bind_eq_some_iff] at h
  obtain ⟨row, -, h⟩ := h
  split_ifs at h
  rw [bind_eq_bind, bind_eq_some_iff] at h
  obtain ⟨t₁, hlegs, hconstraints⟩ := h
  have hsame : t'.legs = t₁.legs := by
    refine foldlM_invariant (P := fun s => s.legs = t₁.legs)
      (fun c _ s s' hs hstep => ?_) rfl hconstraints
    obtain ⟨row, -, rfl⟩ := OrderFlow.insertConstraint_spec hstep
    exact hs
  have hall : ∀ legId leg, t₁.legs.lookup legId = some leg →
      t.legs.lookup legId = some leg ∨ leg.checked = true := by
    refine foldlM_invariant
      (P := fun s => ∀ legId leg, s.legs.lookup legId = some leg →
        t.legs.lookup legId = some leg ∨ leg.checked = true)
      (fun l _ s s' hs hstep legId leg hleg => ?_) (fun _ _ => .inl) hlegs
    unfold OrderFlow.insertLeg at hstep
    rw [bind_eq_bind, bind_eq_some_iff] at hstep
    obtain ⟨row, -, hstep⟩ := hstep
    split_ifs at hstep with hchecked
    cases hstep
    rw [lookup_insertNew, or_eq_some_iff] at hleg
    rcases hleg with hold | ⟨-, hnew⟩
    · exact hs legId leg hold
    · split_ifs at hnew
      cases hnew
      exact .inr hchecked
  rw [hsame] at hleg
  exact hall legId leg hleg

theorem comboLegRow_fresh {parentOrderId : String} {l : Leg} {row : ComboLegRow}
    (h : comboLegRow parentOrderId l = some row) :
    row.status = "active" ∧ row.filledCum = toPgNumeric l.filledCum := by
  simp only [comboLegRow, bind_eq_bind, bind_eq_some_iff] at h
  obtain ⟨side, -, prefs, -, hrow⟩ := h
  obtain ⟨-, hrow⟩ := ite_none_right_eq_some.mp hrow
  cases hrow
  exact ⟨rfl, rfl⟩

theorem comboOrderRow_fresh
    {row : ComboOrderRow} (h : comboOrderRow combo = some row) : row.status = "active" := by
  simp only [comboOrderRow, bind_eq_bind, bind_eq_some_iff] at h
  obtain ⟨comboType, -, mode, -, hrow⟩ := h
  obtain ⟨-, hrow⟩ := ite_none_right_eq_some.mp hrow
  cases hrow
  rfl

theorem links_of_insert {jsonb : Jsonb} {parentOrderId : String} {links : List ConditionalLink}
    (h : links.foldlM (insertLink jsonb parentOrderId) s = some s') :
    s'.tables = s.tables ∧ ∀ linkId link, s'.links.lookup linkId = some link →
      s.links.lookup linkId = some link ∨
        ∃ l ∈ links, link.parentOrderId = parentOrderId ∧ link.fromLegId = l.fromLegId ∧
          link.toLegId = l.toLegId := by
  refine foldlM_invariant
    (P := fun r => r.tables = s.tables ∧ ∀ linkId link, r.links.lookup linkId = some link →
      s.links.lookup linkId = some link ∨
        ∃ l ∈ links, link.parentOrderId = parentOrderId ∧ link.fromLegId = l.fromLegId ∧
          link.toLegId = l.toLegId)
    (fun l hl r r' hr hstep => ?_) ⟨rfl, fun _ _ => .inl⟩ h
  unfold insertLink at hstep
  split_ifs at hstep
  · cases hstep
    exact hr
  all_goals
    cases hstep
    refine ⟨hr.1, fun linkId link hlink => ?_⟩
    by_cases hid : linkId = l.linkId
    · subst hid
      rw [lookup_insert] at hlink
      cases hlink
      exact .inr ⟨l, hl, rfl, rfl, rfl⟩
    · rw [lookup_insert_ne hid] at hlink
      exact hr.2 linkId link hlink

theorem created_of_insert {jsonb : Jsonb} (hok : CreateOk s combo)
    (hempty : ∀ l ∈ combo.legs, l.filledCum = .zero)
    (h : insertComboGraph jsonb combo s = some s') : Created s s' := by
  obtain ⟨tables, htables, hlinks⟩ := bind_eq_some_iff.mp h
  obtain ⟨row, hins⟩ := inserted_of_insert htables
  obtain ⟨hsame, hlinkRows⟩ := links_of_insert hlinks
  have hcombo : tables.comboOrders.lookup combo.comboOrderId = some row := by
    rw [hins.comboOrders, lookup_insertNew, hok.fresh, if_pos rfl]
    rfl
  refine ⟨fun comboId old hold => ?_, fun legId leg hleg => ?_, fun legId leg hleg => ?_,
    fun linkId link hlink => ?_⟩
  · rw [hsame, hins.comboOrders, lookup_insertNew, hold]
    rfl
  · rw [hsame]
    exact hins.legs.lookup_old hleg
  · rw [hsame] at hleg ⊢
    rcases hins.legs.lookup_cases hleg with hold | ⟨hnew, l, hl, -, hrow⟩
    · exact .inl hold
    · obtain ⟨hactive, hfilled⟩ := comboLegRow_fresh hrow
      refine .inr ⟨hnew, ?_, hactive, ?_, row, ?_, comboOrderRow_fresh hins.stored⟩
      · rcases checked_of_insert htables hleg with hold | hchecked
        · rw [hnew] at hold
          cases hold
        · exact hchecked
      · rw [hfilled, hempty l hl]
        decide +kernel
      · rw [comboLegRow_parent hrow]
        exact hcombo
  · rcases hlinkRows linkId link hlink with hold | ⟨l, hl, hparent, hfrom, hto⟩
    · exact .inl hold
    · refine .inr (fun legId hend => ?_)
      have hmem : legId ∈ [l.fromLegId, l.toLegId] := by
        rw [hfrom, hto] at hend
        simpa using hend
      obtain ⟨hleg, hnew⟩ := hok.inside l hl legId hmem
      refine ⟨hnew, ?_⟩
      obtain ⟨leg, hmemLeg, hid⟩ := List.mem_map.mp hleg
      have hsome : (tables.legs.lookup legId).isSome := by
        rw [hins.legs.lookup legId, hnew]
        have hfind : (combo.legs.find? (fun a => a.legId = legId)).isSome := by
          rw [List.find?_isSome]
          exact ⟨leg, hmemLeg, decide_eq_true hid⟩
        obtain ⟨found, hfound⟩ := isSome_iff_exists.mp hfind
        rw [hfound]
        exact hins.legs.rows found (List.mem_of_find?_eq_some hfound)
      obtain ⟨legRow, hlegRow⟩ := isSome_iff_exists.mp hsome
      refine ⟨legRow, hsame ▸ hlegRow, ?_⟩
      rcases hins.legs.lookup_cases hlegRow with hold | ⟨-, other, -, -, hrow⟩
      · rw [hnew] at hold
        cases hold
      · rw [comboLegRow_parent hrow, hparent]

end Inserting

end Matching
end ContExchange
