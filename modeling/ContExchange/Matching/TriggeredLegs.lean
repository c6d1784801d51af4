import ContExchange.Matching.ChildGraph
import ContExchange.Matching.TradedQuantities

/-!
# Matching: triggered legs

Combos with bracket and conditional edges are created while grouped batches run.  A batch
loads the active groups, and then persists each execution group and applies the child graph
of its combo, one transaction after the other.

* `TriggerRun`: the tables, the price tables of the batches so far, and the transactions
  that the running batch has still to make;
* `Triggered`: an exit has executed at most what its entry has, the target of a conditional
  edge only after its condition held, and an exit whose entry has executed can be loaded
  until it is full or cancelled;
* `StepOk`: the condition on a step;
* `rows_of_persist`, `childAfter_of_step`: what the two transactions do to the rows.

Every leg is created active, so nothing keeps an exit from executing first; a combo is
closed when any leg is full; and a resize makes its target active whatever it was.
-/

namespace ContExchange
namespace Matching

open Common Lib AList Decimal List
open Option hiding any any_eq_true map map_map
open OrderFlow (ComboTables ComboOrderRow ComboLegRow ComboOrder ComboEnv
  CreateComboOrderRequest buildDomain)

/-- A transaction of a batch that is still to be made. -/
inductive GroupWork where
  | persist (eg : ExecutionGroupEvent)
  | children (parentOrderId : String)

/-- The combos, with the ids of the requests of clients, the price tables of the batches,
the last first, and the transactions of the running batch. -/
structure TriggerRun where
  store : GraphStore
  idempotency : Table String String := ∅
  prices : List ReferencePrices := []
  pending : List GroupWork := []

/-- What happens: a combo is created, a batch begins and the groups are read or not, the
next transaction of the batch is made or fails. -/
inductive TriggerEvent where
  | create (env : ComboEnv) (req : CreateComboOrderRequest)
  | batch (batchId : String) (groupIds : String → String) (prices : ReferencePrices)
      (groupsRead : Bool)
  | transaction (answers : Bool)

/-- `CreateComboOrderUseCase::Execute`, as far as it writes. -/
def createCombo (jsonb : Jsonb) (env : ComboEnv) (req : CreateComboOrderRequest)
    (s : TriggerRun) : TriggerRun :=
  let combo := buildDomain env.ids req
  if req.clientComboId ≠ "" ∧ (s.idempotency.lookup req.clientComboId).isSome then s
  else if combo.validate.isSome ∨ (env.policy.checkCreate combo).isSome ∨
      (env.riskReject combo).isSome then s
  else
    match (if env.databaseUp then insertComboGraph jsonb combo s.store else none) with
    | none => s
    | some store =>
        { s with
          store
          idempotency :=
            if req.clientComboId = "" then s.idempotency
            else s.idempotency.insert req.clientComboId combo.comboOrderId }

/-- The transactions of a batch: each published group is persisted, and the child graph of
its combo is applied. -/
def batchWork (groupIds : String → String) (batchId : String)
    (groups : List MultiLegVectorOrder) (prices : ReferencePrices) : List GroupWork :=
  (publishedGroups groupIds batchId groups prices).flatMap (fun eg =>
    [.persist eg, .children eg.parentOrderId])

/-- A transaction that is carried out. -/
def GroupWork.carryOut (jsonb : Jsonb) (prices : ReferencePrices) (s : GraphStore) :
    GroupWork → GraphStore
  | .persist eg => { s with toGroupStore := s.toGroupStore.persist eg }
  | .children parentOrderId => (childGraphStep jsonb prices parentOrderId s).getD s

/-- One step; the next batch begins when the transactions of the last are made. -/
def TriggerRun.step (jsonb : Jsonb) (s : TriggerRun) : TriggerEvent → TriggerRun
  | .create env req => createCombo jsonb env req s
  | .batch batchId groupIds prices groupsRead =>
      if s.pending ≠ [] then s
      else
        { s with
          prices := prices :: s.prices
          pending :=
            match (if groupsRead then loadActiveGroups s.store.tables else none) with
            | none => []
            | some groups => batchWork groupIds batchId groups prices }
  | .transaction answers =>
      match s.pending with
      | [] => s
      | work :: pending =>
          { s with
            store :=
              if answers then work.carryOut jsonb (s.prices.headD ∅) s.store else s.store
            pending }

structure LinkBetween (s : GraphStore) (type : String) (link : ConditionalLinkRow)
    (sourceRow targetRow : ComboLegRow) : Prop where
  stored : ∃ linkId, s.links.lookup linkId = some link
  type : link.linkType = type
  source : s.tables.legs.lookup link.fromLegId = some sourceRow
  target : s.tables.legs.lookup link.toLegId = some targetRow

def Held (jsonb : Jsonb) (link : ConditionalLinkRow) (prices : List ReferencePrices) : Prop :=
  ∃ table ∈ prices, ∃ condition ∈ loadCondition jsonb link, evaluateTrigger condition table = true
deriving Decidable

/-- The leg has reached its `q_max`. -/
def Full (leg : ComboLegRow) : Prop :=
  leg.qMax.units ≤ leg.filledCum.units
deriving Decidable

def Loadable (s : GraphStore) (leg : ComboLegRow) : Prop :=
  legLoads leg.parentOrderId leg = true ∧
    ∃ combo, s.tables.comboOrders.lookup leg.parentOrderId = some combo ∧ groupLoads combo = true

/-- Legs execute only after their trigger, and stay loadable then. -/
structure Triggered (jsonb : Jsonb) (s : TriggerRun) : Prop where
  bracket : ∀ link entry exit, LinkBetween s.store "bracket" link entry exit →
    exit.filledCum.units ≤ entry.filledCum.units
  conditional : ∀ link source target, LinkBetween s.store "conditional" link source target →
    0 < target.filledCum.units → Held jsonb link s.prices
  loadable : ∀ link entry exit, LinkBetween s.store "bracket" link entry exit →
    0 < entry.filledCum.units → Loadable s.store exit ∨ exit.status = "cancelled" ∨ Full exit

/-- What is filled or cancelled stays so. -/
def ClosedKept (s s' : TriggerRun) : Prop :=
  ∀ legId leg, s.store.tables.legs.lookup legId = some leg → leg.status ∈ closedStatuses →
    ∃ leg', s'.store.tables.legs.lookup legId = some leg' ∧ leg'.status ∈ closedStatuses

def bookedLeg (results : List GroupLegResult) (legId : String) (leg : ComboLegRow) : ComboLegRow :=
  results.foldl
    (fun leg lr => if lr.legId = legId then addFilledCum lr.execQty leg else leg) leg

def linkRows (s : GraphStore) : List ConditionalLinkRow :=
  s.links.entries.map Sigma.snd

/-- A leg has been triggered: as an exit it was resized to what its entry has filled, as the
target of a conditional edge its condition has held. -/
def LegTriggered (jsonb : Jsonb) (s : TriggerRun) (legId : String) : Prop :=
  ∀ link ∈ linkRows s.store, link.toLegId = legId →
    (link.linkType = "bracket" →
      ∀ exit ∈ s.store.tables.legs.lookup legId,
        ∀ entry ∈ s.store.tables.legs.lookup link.fromLegId,
          exit.qMax.units ≤ entry.filledCum.units) ∧
      (link.linkType = "conditional" → Held jsonb link s.prices)
deriving Decidable

/-- The group takes a leg of its combo to `q_max`. -/
def Fills (eg : ExecutionGroupEvent) (t : ComboTables) : Prop :=
  ∃ e ∈ legsOf eg.parentOrderId t, Full (bookedLeg eg.legResults e.1 e.2)
deriving Decidable

/-- No exit of the combo is open whose entry has executed with the group. -/
def ExitsDone (eg : ExecutionGroupEvent) (s : GraphStore) : Prop :=
  ∀ link ∈ linkRows s, link.parentOrderId = eg.parentOrderId →
    link.linkType = "bracket" →
      ∀ entry ∈ s.tables.legs.lookup link.fromLegId,
        0 < (bookedLeg eg.legResults link.fromLegId entry).filledCum.units →
          ∀ exit ∈ s.tables.legs.lookup link.toLegId,
            exit.status = "cancelled" ∨ Full (bookedLeg eg.legResults link.toLegId exit)
deriving Decidable

/-- A group may be persisted: its quantities are printed as they are, the legs of the combo that
execute have been triggered, and if a leg reaches `q_max`, no exit is open whose entry has
executed. -/
structure GroupOk (jsonb : Jsonb) (s : TriggerRun) (eg : ExecutionGroupEvent) : Prop where
  shown : ∀ lr ∈ eg.legResults, TextExact lr.execQty
  triggered : ∀ lr ∈ eg.legResults, 0 < lr.execQty.units → LegTriggered jsonb s lr.legId
  closes : Fills eg s.store.tables → ExitsDone eg s.store

instance (jsonb : Jsonb) (s : TriggerRun) (eg : ExecutionGroupEvent) :
    Decidable (GroupOk jsonb s eg) :=
  decidable_of_iff (_ ∧ _ ∧ _)
    ⟨fun ⟨h₁, h₂, h₃⟩ => ⟨h₁, h₂, h₃⟩, fun ⟨h₁, h₂, h₃⟩ => ⟨h₁, h₂, h₃⟩⟩

/-- The exits that are to be resized are neither filled nor cancelled. -/
def ChildrenOk (jsonb : Jsonb) (s : TriggerRun) (parentOrderId : String) : Prop :=
  ∀ group ∈ loadComboGroupState jsonb s.store parentOrderId, ∀ edge ∈ group.edges,
    (bracketRule group edge).isSome → ∀ leg ∈ s.store.tables.legs.lookup edge.targetLegId,
      leg.status ∉ closedStatuses
deriving Decidable

/-- A combo has an id that is not there yet, and its links are between its own legs, which
are not there yet either. -/
structure CreateOk (s : GraphStore) (combo : ComboOrder) : Prop where
  fresh : s.tables.comboOrders.lookup combo.comboOrderId = none
  inside : ∀ link ∈ combo.conditionalLinks, ∀ legId ∈ [link.fromLegId, link.toLegId],
    legId ∈ combo.legs.map OrderFlow.Leg.legId ∧ s.tables.legs.lookup legId = none

instance (s : GraphStore) (combo : ComboOrder) : Decidable (CreateOk s combo) :=
  decidable_of_iff (_ ∧ _) ⟨fun ⟨h₁, h₂⟩ => ⟨h₁, h₂⟩, fun ⟨h₁, h₂⟩ => ⟨h₁, h₂⟩⟩

/-- The condition on a transaction. -/
def GroupWork.Ok (jsonb : Jsonb) (s : TriggerRun) : GroupWork → Prop
  | .persist eg => GroupOk jsonb s eg
  | .children parentOrderId => ChildrenOk jsonb s parentOrderId

instance (jsonb : Jsonb) (s : TriggerRun) : (work : GroupWork) → Decidable (work.Ok jsonb s)
  | .persist eg => inferInstanceAs (Decidable (GroupOk jsonb s eg))
  | .children parentOrderId => inferInstanceAs (Decidable (ChildrenOk jsonb s parentOrderId))

/-- The condition on a step: batches may begin at any time, and a transaction that fails
needs none. -/
def TriggerRun.StepOk (jsonb : Jsonb) (s : TriggerRun) : TriggerEvent → Prop
  | .create env req => CreateOk s.store (buildDomain env.ids req)
  | .batch _ _ _ _ => True
  | .transaction answers => answers = true → ∀ work ∈ s.pending.head?, work.Ok jsonb s

instance (jsonb : Jsonb) (s : TriggerRun) : (e : TriggerEvent) → Decidable (s.StepOk jsonb e)
  | .create _ _ => inferInstanceAs (Decidable (CreateOk _ _))
  | .batch _ _ _ _ => isTrue trivial
  | .transaction _ => inferInstanceAs (Decidable (_ → ∀ work ∈ s.pending.head?, _))

section Booking

variable {qty : Decimal} {leg : ComboLegRow} {results : List GroupLegResult} {legId : String}

theorem addFilledCum_le_qMax (qty : Decimal) (leg : ComboLegRow) :
    (addFilledCum qty leg).filledCum.units ≤ leg.qMax.units := by
  apply llround_le
  have hle : leastFilled leg qty ≤ leg.qMax.toRat := min_le_right _ _
  calc (leastFilled leg qty * 10 ^ 18 : ℚ) ≤ leg.qMax.toRat * 10 ^ 18 := by gcongr
    _ = (leg.qMax.units : ℚ) := div_mul_cancel₀ _ (by norm_num)

theorem le_addFilledCum (hqty : 0 ≤ qty.toRat) (hshown : TextExact qty)
    (hle : leg.filledCum.units ≤ leg.qMax.units) :
    leg.filledCum.units ≤ (addFilledCum qty leg).filledCum.units := by
  apply le_llround
  have hprinted : 0 ≤ printedValue qty := by
    rw [printedValue_of_textExact hshown]
    exact hqty
  have hmax : leg.filledCum.toRat ≤ leg.qMax.toRat :=
    div_le_div_of_nonneg_right (Int.cast_le.mpr hle) (by norm_num)
  have hleast : leg.filledCum.toRat ≤ leastFilled leg qty :=
    le_min (le_add_of_nonneg_right hprinted) hmax
  calc (leg.filledCum.units : ℚ) = leg.filledCum.toRat * 10 ^ 18 :=
        (div_mul_cancel₀ _ (by norm_num)).symm
    _ ≤ leastFilled leg qty * 10 ^ 18 := by gcongr

theorem addFilledCum_zero (hqty : qty.units = 0) (hle : leg.filledCum.units ≤ leg.qMax.units) :
    (addFilledCum qty leg).filledCum.units = leg.filledCum.units := by
  have hmax : leg.filledCum.toRat ≤ leg.qMax.toRat :=
    div_le_div_of_nonneg_right (Int.cast_le.mpr hle) (by norm_num)
  have hleast : leastFilled leg qty * 10 ^ 18 = leg.filledCum.units := by
    unfold leastFilled
    rw [printedValue_of_textExact (.inl hqty), (toRat_eq_zero_iff qty).mpr hqty, add_zero,
      min_eq_left hmax]
    exact div_mul_cancel₀ _ (by norm_num)
  change llround (leastFilled leg qty * 10 ^ 18) = _
  rw [hleast, llround_intCast]

theorem bookedLeg_cons (lr : GroupLegResult) (results : List GroupLegResult) (legId : String)
    (leg : ComboLegRow) :
    bookedLeg (lr :: results) legId leg =
      bookedLeg results legId (if lr.legId = legId then addFilledCum lr.execQty leg else leg) := rfl

theorem bookedLeg_eq (results : List GroupLegResult) (legId : String) (leg : ComboLegRow) :
    bookedLeg results legId leg =
      { leg with filledCum := (bookedLeg results legId leg).filledCum } := by
  induction results generalizing leg with
  | nil => rfl
  | cons lr results ih =>
      rw [bookedLeg_cons]
      split
      · rw [ih (addFilledCum lr.execQty leg)]
        rfl
      · exact ih leg

@[simp] theorem bookedLeg_parent (results : List GroupLegResult) (legId : String)
    (leg : ComboLegRow) : (bookedLeg results legId leg).parentOrderId = leg.parentOrderId := by
  rw [bookedLeg_eq]

@[simp] theorem bookedLeg_qMax (results : List GroupLegResult) (legId : String)
    (leg : ComboLegRow) : (bookedLeg results legId leg).qMax = leg.qMax := by
  rw [bookedLeg_eq]

@[simp] theorem bookedLeg_status (results : List GroupLegResult) (legId : String)
    (leg : ComboLegRow) : (bookedLeg results legId leg).status = leg.status := by
  rw [bookedLeg_eq]

theorem filled_bookedLeg (legId : String) (hqty : ∀ lr ∈ results, 0 ≤ lr.execQty.toRat)
    (hshown : ∀ lr ∈ results, TextExact lr.execQty)
    (hle : leg.filledCum.units ≤ leg.qMax.units) :
    leg.filledCum.units ≤ (bookedLeg results legId leg).filledCum.units ∧
      (bookedLeg results legId leg).filledCum.units ≤ leg.qMax.units := by
  induction results generalizing leg with
  | nil => exact ⟨le_rfl, hle⟩
  | cons lr results ih =>
      obtain ⟨hqty, hrest⟩ := forall_mem_cons.mp hqty
      obtain ⟨hshown, hshownRest⟩ := forall_mem_cons.mp hshown
      rw [bookedLeg_cons]
      split
      · have hfirst := le_addFilledCum hqty hshown hle
        obtain ⟨hgrows, hwithin⟩ := ih hrest hshownRest (addFilledCum_le_qMax lr.execQty leg)
        exact ⟨hfirst.trans hgrows, hwithin⟩
      · exact ih hrest hshownRest hle

theorem executes_of_booked (hqty : ∀ lr ∈ results, 0 ≤ lr.execQty.toRat)
    (hle : leg.filledCum.units ≤ leg.qMax.units)
    (h : leg.filledCum.units < (bookedLeg results legId leg).filledCum.units) :
    ∃ lr ∈ results, lr.legId = legId ∧ 0 < lr.execQty.units := by
  by_contra hexists
  have hnone : ∀ lr ∈ results, lr.legId = legId → lr.execQty.units ≤ 0 :=
    fun lr hlr hid => not_lt.mp (fun hpos => hexists ⟨lr, hlr, hid, hpos⟩)
  clear hexists
  have hsame : (bookedLeg results legId leg).filledCum.units = leg.filledCum.units := by
    clear h
    induction results generalizing leg with
    | nil => rfl
    | cons lr results ih =>
        have hrest := fun leg => @ih leg (fun lr hlr => hqty lr (mem_cons_of_mem _ hlr))
        specialize hrest (if lr.legId = legId then addFilledCum lr.execQty leg else leg)
        rw [bookedLeg_cons]
        split at hrest
        · rename_i hid
          have hzero : lr.execQty.units = 0 :=
            le_antisymm (hnone lr mem_cons_self hid)
              ((toRat_nonneg_iff _).mp (hqty lr mem_cons_self))
          rw [if_pos hid, hrest (addFilledCum_le_qMax lr.execQty leg)
            (fun lr hlr => hnone lr (mem_cons_of_mem _ hlr)), addFilledCum_zero hzero hle]
        · rename_i hid
          rw [if_neg hid]
          exact hrest hle (fun lr hlr => hnone lr (mem_cons_of_mem _ hlr))
  omega

end Booking

def legAfter (eg : ExecutionGroupEvent) (t : ComboTables) (legId : String) (leg : ComboLegRow) :
    ComboLegRow :=
  if leg.parentOrderId ≠ eg.parentOrderId then leg
  else if Fills eg t ∧ leg.status = "active" then
    { bookedLeg eg.legResults legId leg with status := "filled" }
  else bookedLeg eg.legResults legId leg

section Persisting

variable {parentOrderId : String} {t t' : ComboTables}

theorem rows_of_legResult {lr : GroupLegResult}
    (h : persistLegResult parentOrderId t lr = some t') :
    t'.comboOrders = t.comboOrders ∧ ∀ legId, t'.legs.lookup legId =
      (t.legs.lookup legId).map (fun leg =>
        if leg.parentOrderId = parentOrderId then bookedLeg [lr] legId leg else leg) := by
  obtain ⟨r, hr, rfl⟩ := map_eq_some_iff.mp (ite_none_right_eq_some.mp h).2
  rcases updateLeg_cases hr with ⟨rfl, hnone⟩ | ⟨row, hrow, hparent, -, rfl⟩
  · refine ⟨rfl, fun legId => ?_⟩
    cases hleg : t.legs.lookup legId with
    | none => rfl
    | some leg =>
        refine congrArg some (Eq.symm ?_)
        dsimp only
        split
        · rename_i hparent
          have hid : lr.legId ≠ legId := by
            rintro rfl
            exact of_decide_eq_false (hnone leg hleg) hparent
          exact if_neg hid
        · rfl
  · have hparent : row.parentOrderId = parentOrderId := of_decide_eq_true hparent
    refine ⟨rfl, fun legId => ?_⟩
    by_cases hid : legId = lr.legId
    · subst hid
      rw [hrow]
      refine (lookup_insert _).trans (congrArg some (Eq.symm ?_))
      dsimp only
      rw [if_pos hparent]
      exact if_pos rfl
    · refine (lookup_insert_ne hid).trans ?_
      cases hleg : t.legs.lookup legId with
      | none => rfl
      | some leg =>
          refine congrArg some (Eq.symm ?_)
          dsimp only
          split
          · exact if_neg (Ne.symm hid)
          · rfl

theorem rows_of_legResults {results : List GroupLegResult}
    (h : results.foldlM (persistLegResult parentOrderId) t = some t') :
    t'.comboOrders = t.comboOrders ∧ ∀ legId, t'.legs.lookup legId =
      (t.legs.lookup legId).map (fun leg =>
        if leg.parentOrderId = parentOrderId then bookedLeg results legId leg else leg) := by
  induction results generalizing t with
  | nil =>
      cases h
      refine ⟨rfl, fun legId => ?_⟩
      cases t'.legs.lookup legId with
      | none => rfl
      | some leg => exact congrArg some (ite_self _).symm
  | cons lr results ih =>
      rw [foldlM_cons, bind_eq_bind, bind_eq_some_iff] at h
      obtain ⟨t₁, hfirst, hrest⟩ := h
      obtain ⟨hcombos, hlegs⟩ := rows_of_legResult hfirst
      obtain ⟨hcombos', hlegs'⟩ := ih hrest
      refine ⟨hcombos'.trans hcombos, fun legId => ?_⟩
      rw [hlegs', hlegs, Option.map_map]
      refine congrArg (fun f => Option.map f _) (funext (fun leg => ?_))
      dsimp only [Function.comp_apply]
      by_cases hparent : leg.parentOrderId = parentOrderId
      · have hparent' : (bookedLeg [lr] legId leg).parentOrderId = parentOrderId :=
          (bookedLeg_parent _ _ _).trans hparent
        rw [if_pos hparent, if_pos hparent', if_pos hparent]
        rfl
      · rw [if_neg hparent, if_neg hparent, if_neg hparent]

variable {eg : ExecutionGroupEvent}

theorem checked_of_persist
    (hchecked : ∀ legId leg, t.legs.lookup legId = some leg → leg.checked = true)
    (h : persistExecutionGroup eg t = some t') :
    ∀ legId leg, t'.legs.lookup legId = some leg → leg.checked = true := by
  obtain ⟨booked, hbooked, rfl⟩ := map_eq_some_iff.mp h
  have hrows : ∀ legId leg, booked.legs.lookup legId = some leg → leg.checked = true := by
    refine foldlM_invariant
      (P := fun s => ∀ legId leg, s.legs.lookup legId = some leg → leg.checked = true)
      (fun lr _ s s' hs hstep => ?_) hchecked hbooked
    obtain ⟨r, hr, rfl⟩ := map_eq_some_iff.mp (ite_none_right_eq_some.mp hstep).2
    rcases updateLeg_cases hr with ⟨rfl, -⟩ | ⟨row, -, -, hset, rfl⟩
    · exact hs
    · intro legId leg hleg
      by_cases hid : legId = lr.legId
      · subst hid
        rw [lookup_insert] at hleg
        cases hleg
        exact hset
      · exact hs legId leg ((lookup_insert_ne hid).symm.trans hleg)
  intro legId leg hleg
  obtain ⟨before, hbefore, hcases⟩ := leg_of_closeFilledCombo hleg
  rw [legs_persistComboStatus] at hbefore
  rcases hcases with ⟨rfl, -⟩ | ⟨rfl, -⟩
  · exact hrows legId leg hbefore
  · exact hrows legId before hbefore

theorem someLegFilled_iff_fills
    (hlegs : ∀ legId, t'.legs.lookup legId = (t.legs.lookup legId).map (fun leg =>
      if leg.parentOrderId = eg.parentOrderId then bookedLeg eg.legResults legId leg else leg)) :
    someLegFilled eg.parentOrderId t' = true ↔ Fills eg t := by
  unfold someLegFilled Fills
  rw [any_eq_true]
  constructor
  · rintro ⟨⟨legId, leg'⟩, hmem, hfull⟩
    obtain ⟨hparent, hunits⟩ := of_decide_eq_true hfull
    have hleg' : t'.legs.lookup legId = some leg' := mem_lookup_iff.mpr hmem
    rw [hlegs, map_eq_some_iff] at hleg'
    obtain ⟨leg, hleg, rfl⟩ := hleg'
    by_cases hof : leg.parentOrderId = eg.parentOrderId
    · rw [if_pos hof] at hunits
      exact ⟨⟨legId, leg⟩, mem_legsOf.mpr ⟨hleg, hof⟩, hunits⟩
    · rw [if_neg hof] at hparent
      exact absurd hparent hof
  · rintro ⟨⟨legId, leg⟩, hmem, hfull⟩
    obtain ⟨hleg, hof⟩ := mem_legsOf.mp hmem
    have hleg' := hlegs legId
    rw [hleg, map_some, if_pos hof] at hleg'
    exact ⟨⟨legId, _⟩, mem_lookup_iff.mp hleg',
      decide_eq_true ⟨(bookedLeg_parent _ _ _).trans hof, hfull⟩⟩

theorem persistComboStatus_of_open {combo : ComboOrderRow}
    (hcombo : t.comboOrders.lookup parentOrderId = some combo)
    (hopen : combo.status ∉ closedStatuses) :
    persistComboStatus parentOrderId t =
      { t with
        comboOrders := t.comboOrders.insert parentOrderId
          { combo with
            status :=
              if someLegFilled parentOrderId t then "filled" else "partially_filled" } } := by
  unfold persistComboStatus
  rw [hcombo]
  exact if_neg (fun h => hopen (mem_closedStatuses.mpr h))

theorem rows_of_persist {combo : ComboOrderRow}
    (hcombo : t.comboOrders.lookup eg.parentOrderId = some combo)
    (hopen : combo.status ∉ closedStatuses) (h : persistExecutionGroup eg t = some t') :
    t'.comboOrders = t.comboOrders.insert eg.parentOrderId
        { combo with status := if Fills eg t then "filled" else "partially_filled" } ∧
      ∀ legId, t'.legs.lookup legId = (t.legs.lookup legId).map (legAfter eg t legId) := by
  obtain ⟨booked, hbooked, rfl⟩ := map_eq_some_iff.mp h
  obtain ⟨hcombos, hlegs⟩ := rows_of_legResults hbooked
  have hstatus := persistComboStatus_of_open ((congrArg _ hcombos).trans hcombo) hopen
  have hiff := someLegFilled_iff_fills hlegs
  by_cases hfills : Fills eg t
  · rw [if_pos (hiff.mpr hfills), hcombos] at hstatus
    rw [if_pos hfills, combos_closeFilledCombo, hstatus]
    refine ⟨rfl, fun legId => ?_⟩
    unfold closeFilledCombo
    dsimp only
    rw [lookup_insert]
    dsimp only
    rw [if_pos rfl, Table.lookup_mapRows, hlegs, Option.map_map]
    refine congrArg (fun f => Option.map f _) (funext (fun leg => ?_))
    dsimp only [Function.comp_apply]
    unfold legAfter
    by_cases hof : leg.parentOrderId = eg.parentOrderId
    · rw [if_pos hof, if_neg (not_not.mpr hof)]
      simp only [bookedLeg_parent, bookedLeg_status, hof, hfills, true_and]
    · rw [if_neg hof, if_pos hof]
      exact if_neg (fun hcloses => hof hcloses.1)
  · rw [if_neg (fun hsome => hfills (hiff.mp hsome)), hcombos] at hstatus
    rw [if_neg hfills, combos_closeFilledCombo, hstatus]
    refine ⟨rfl, fun legId => ?_⟩
    unfold closeFilledCombo
    dsimp only
    rw [lookup_insert]
    dsimp only
    rw [if_neg (by decide), hlegs]
    refine congrArg (fun f => Option.map f _) (funext (fun leg => ?_))
    unfold legAfter
    by_cases hof : leg.parentOrderId = eg.parentOrderId
    · rw [if_pos hof, if_neg (not_not.mpr hof), if_neg (fun hcloses => hfills hcloses.1)]
    · rw [if_neg hof, if_pos hof]

end Persisting

end Matching
end ContExchange
