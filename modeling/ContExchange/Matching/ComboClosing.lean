import ContExchange.Matching.LegChunks
import ContExchange.Matching.NumericColumns

/-!
# Matching: when a combo closes

Execution groups of a combo are persisted one after the other, some of them twice, while
the combo may be cancelled at any time.

* `PersistExecutionGroup` as a whole: a group that is there changes nothing, a statement
  that fails undoes the transaction;
* `CancelComboAndLegs`;
* `ClosedWhenDone`: `filled_cum` is what the groups have executed and at most `q_max`, a
  leg is filled at `q_max` or under a policy that locks the ratio, and without such a
  policy a combo is filled when all its legs have come to an end;
* `closedWhenDone_run`: this holds in every state of a run whose groups meet `PersistOk`.

The combo is closed when any leg has reached `q_max`, whatever the policy, the statements
do not look whether it was cancelled, and what exceeds `q_max` is dropped.
-/

namespace ContExchange
namespace Matching

open Common Lib AList List Option Table
open OrderFlow (ComboTables ComboOrderRow ComboLegRow)

/-- The combo tables with the rows of `execution_groups`. -/
structure GroupStore where
  tables : ComboTables
  groups : Table String ExecutionGroupEvent := ∅

/-- The reference to the combo, and the CHECK on the scale, which is printed. -/
def ExecutionGroupEvent.checked (eg : ExecutionGroupEvent) (t : ComboTables) : Bool :=
  (t.comboOrders.lookup eg.parentOrderId).isSome &&
    decide (Prints eg.executionScale ∧ 0 ≤ (toPgNumeric eg.executionScale).units ∧
      (toPgNumeric eg.executionScale).units ≤ 10 ^ 18)

/-- The statements on the combo and its legs; a group without results makes none. -/
def applyLegResults (eg : ExecutionGroupEvent) (t : ComboTables) : Option ComboTables :=
  if eg.legResults = [] then some t else persistExecutionGroup eg t

/-- `PersistExecutionGroup`. -/
def GroupStore.persist (eg : ExecutionGroupEvent) (s : GroupStore) : GroupStore :=
  if (s.groups.lookup eg.executionGroupId).isSome ∨ eg.checked s.tables = false then s
  else
    match applyLegResults eg s.tables with
    | none => s
    | some tables => { tables, groups := s.groups.insert eg.executionGroupId eg }

/-- The statuses that a cancel leaves alone. -/
def closedStatuses : List String :=
  ["filled", "cancelled"]

def cancelComboAndLegs (comboOrderId : String) (t : ComboTables) : ComboTables :=
  { t with
    comboOrders := t.comboOrders.mapRows (fun id row =>
      if id = comboOrderId ∧ row.status ∉ closedStatuses then { row with status := "cancelled" }
      else row)
    legs := t.legs.mapRows (fun _ leg =>
      if leg.parentOrderId = comboOrderId ∧ leg.status ∉ closedStatuses then
        { leg with status := "cancelled" }
      else leg) }

/-- What happens to the combos, and whether the database answers. -/
inductive ClosingEvent where
  | persist (eg : ExecutionGroupEvent) (answers : Bool)
  | cancel (comboOrderId : String) (answers : Bool)

def GroupStore.step (s : GroupStore) : ClosingEvent → GroupStore
  | .persist eg answers => if answers then s.persist eg else s
  | .cancel comboOrderId answers =>
      if answers then { s with tables := cancelComboAndLegs comboOrderId s.tables } else s

/-- The policy executes all legs in their ratio. -/
def LocksRatio (combo : ComboOrderRow) : Prop :=
  combo.atomicityPolicy = "strict_atomic" ∨ combo.atomicityPolicy = "scalable_atomic"
deriving Decidable

/-- The statuses in which a leg has come to an end. -/
def terminalLegStatuses : List String :=
  ["filled", "cancelled", "failed_external", "compensated"]

def executedQty (legId : String) (results : List GroupLegResult) : ℚ :=
  sumOn (fun lr => decide (lr.legId = legId)) (fun lr => lr.execQty.toRat) results

namespace GroupStore

/-- What the persisted groups of the combo execute of the leg. -/
def executedOf (s : GroupStore) (parentOrderId legId : String) : ℚ :=
  s.groups.sum (fun _ eg =>
    if eg.parentOrderId = parentOrderId then executedQty legId eg.legResults else 0)

structure ClosedWhenDone (s : GroupStore) : Prop where
  booked : ∀ legId leg, s.tables.legs.lookup legId = some leg →
    leg.filledCum.toRat = s.executedOf leg.parentOrderId legId
  within : ∀ legId leg, s.tables.legs.lookup legId = some leg →
    leg.filledCum.toRat ≤ leg.qMax.toRat
  legFilled : ∀ legId leg combo, s.tables.legs.lookup legId = some leg →
    s.tables.comboOrders.lookup leg.parentOrderId = some combo → ¬ LocksRatio combo →
      leg.status = "filled" → leg.filledCum.toRat = leg.qMax.toRat
  comboFilled : ∀ legId leg combo, s.tables.legs.lookup legId = some leg →
    s.tables.comboOrders.lookup leg.parentOrderId = some combo → ¬ LocksRatio combo →
      combo.status = "filled" → leg.status ∈ terminalLegStatuses

def CancelledKept (s s' : GroupStore) : Prop :=
  ∀ legId leg leg' combo, s.tables.legs.lookup legId = some leg →
    s.tables.comboOrders.lookup leg.parentOrderId = some combo → combo.status = "cancelled" →
      s'.tables.legs.lookup legId = some leg' → leg'.filledCum.toRat = leg.filledCum.toRat

end GroupStore

/-- The leg has reached its `q_max` with the results. -/
def Reaches (results : List GroupLegResult) (legId : String) (leg : ComboLegRow) : Prop :=
  leg.qMax.toRat ≤ leg.filledCum.toRat + executedQty legId results
deriving Decidable

def legsOf (parentOrderId : String) (t : ComboTables) :
    List (Sigma fun _ : String => ComboLegRow) :=
  t.legs.entries.filter (fun e => decide (e.2.parentOrderId = parentOrderId))

/-- A group that closes its combo only when it is done: its quantities are kept by the
column and none takes a leg above `q_max`; it executes nothing of a cancelled combo;
without a policy that locks the ratio it takes nothing back from filled legs, and when a
leg reaches `q_max`, every leg of the combo has come to an end or is active and reaches
its own. -/
structure PersistOk (t : ComboTables) (eg : ExecutionGroupEvent) : Prop where
  exact : ∀ lr ∈ eg.legResults, ColumnExact lr.execQty
  within : ∀ e ∈ legsOf eg.parentOrderId t, ∀ first ∈ eg.legResults.inits,
    e.2.filledCum.toRat + executedQty e.1 first ≤ e.2.qMax.toRat
  cancelled : ∀ combo ∈ t.comboOrders.lookup eg.parentOrderId, combo.status = "cancelled" →
    ∀ e ∈ legsOf eg.parentOrderId t, executedQty e.1 eg.legResults = 0
  kept : ∀ combo ∈ t.comboOrders.lookup eg.parentOrderId, ¬ LocksRatio combo →
    ∀ e ∈ legsOf eg.parentOrderId t, e.2.status = "filled" →
      0 ≤ executedQty e.1 eg.legResults
  done : ∀ combo ∈ t.comboOrders.lookup eg.parentOrderId, ¬ LocksRatio combo →
    combo.status ∉ closedStatuses →
      (∃ e ∈ legsOf eg.parentOrderId t, Reaches eg.legResults e.1 e.2) →
        ∀ e ∈ legsOf eg.parentOrderId t, e.2.status ∈ terminalLegStatuses ∨
          e.2.status = "active" ∧ Reaches eg.legResults e.1 e.2

instance (t : ComboTables) (eg : ExecutionGroupEvent) : Decidable (PersistOk t eg) :=
  decidable_of_iff (_ ∧ _ ∧ _ ∧ _ ∧ _)
    ⟨fun ⟨h₁, h₂, h₃, h₄, h₅⟩ => ⟨h₁, h₂, h₃, h₄, h₅⟩, fun ⟨h₁, h₂, h₃, h₄, h₅⟩ => ⟨h₁, h₂, h₃, h₄, h₅⟩⟩

/-- The condition on a step: cancels are free, and so are duplicates. -/
def StepOk (s : GroupStore) : ClosingEvent → Prop
  | .persist eg answers =>
      answers = true → (s.groups.lookup eg.executionGroupId).isSome = false →
        eg.checked s.tables = true → eg.legResults ≠ [] → PersistOk s.tables eg
  | .cancel _ _ => True

instance (s : GroupStore) : (e : ClosingEvent) → Decidable (StepOk s e)
  | .persist _ _ => inferInstanceAs (Decidable (_ → _))
  | .cancel _ _ => isTrue trivial

/-- The results are booked: rows of legs of the combo grow by what is executed of them,
and nothing else changes. -/
structure Booked (parentOrderId : String) (results : List GroupLegResult)
    (t t' : ComboTables) : Prop where
  combos : t'.comboOrders = t.comboOrders
  absent : ∀ legId, t.legs.lookup legId = none → t'.legs.lookup legId = none
  present : ∀ legId leg, t.legs.lookup legId = some leg →
    ∃ filledCum : PgNumeric, t'.legs.lookup legId = some { leg with filledCum } ∧
      filledCum.toRat = leg.filledCum.toRat +
        if leg.parentOrderId = parentOrderId then executedQty legId results else 0

section Booking

variable {parentOrderId : String} {t t' : ComboTables}

@[simp] theorem executedQty_nil (legId : String) : executedQty legId [] = 0 := rfl

theorem executedQty_cons (legId : String) (lr : GroupLegResult) (results : List GroupLegResult) :
    executedQty legId (lr :: results) =
      (if lr.legId = legId then lr.execQty.toRat else 0) + executedQty legId results := by
  unfold executedQty
  rw [sumOn_cons]
  by_cases h : lr.legId = legId
  · simp [h]
  · simp [h]

theorem mem_legsOf {legId : String} {leg : ComboLegRow} :
    (⟨legId, leg⟩ : Sigma fun _ : String => ComboLegRow) ∈ legsOf parentOrderId t ↔
      t.legs.lookup legId = some leg ∧ leg.parentOrderId = parentOrderId := by
  unfold legsOf
  rw [mem_filter, ← mem_lookup_iff, mem_def, decide_eq_true_eq]

theorem toRat_addFilledCum {qty : Decimal} {leg : ComboLegRow} (hqty : ColumnExact qty)
    (hle : leg.filledCum.toRat + qty.toRat ≤ leg.qMax.toRat) :
    (addFilledCum qty leg).filledCum.toRat = leg.filledCum.toRat + qty.toRat := by
  obtain ⟨d, -, hscale, -, hprinted, hval⟩ := exists_ofScale_of_columnExact hqty
  have hvalue : printedValue qty = qty.toRat := by
    rw [← hprinted, printedValue_of_scale hscale, hval]
  have hunits : qty.toRat * 10 ^ 18 = ((d.unitsAt 18 : Int) : ℚ) := by
    rw [← hval, Decimal.toRat_eq_unitsAt d hscale.2, mul_assoc]
    norm_num
  have hleast : leastFilled leg qty = leg.filledCum.toRat + qty.toRat := by
    unfold leastFilled
    rw [hvalue]
    exact min_eq_left hle
  have hfilled : leg.filledCum.toRat * 10 ^ 18 = (leg.filledCum.units : ℚ) := by
    exact div_mul_cancel₀ _ (by norm_num)
  have hsum : leastFilled leg qty * 10 ^ 18 = ((leg.filledCum.units + d.unitsAt 18 : Int) : ℚ) := by
    rw [hleast, add_mul, hfilled, hunits]
    push_cast
    rfl
  change ((llround (leastFilled leg qty * 10 ^ 18) : Int) : ℚ) / 10 ^ 18 = _
  rw [hsum, llround_intCast]
  push_cast
  rw [add_div, ← hunits, mul_div_cancel_right₀ _ (by norm_num)]
  rfl

theorem booked_persistLegResult
    {lr : GroupLegResult}
    (hexact : ColumnExact lr.execQty)
    (hwithin : ∀ leg, t.legs.lookup lr.legId = some leg → leg.parentOrderId = parentOrderId →
      leg.filledCum.toRat + lr.execQty.toRat ≤ leg.qMax.toRat)
    (h : persistLegResult parentOrderId t lr = some t') :
    Booked parentOrderId [lr] t t' := by
  obtain ⟨r, hr, rfl⟩ := map_eq_some_iff.mp (ite_none_right_eq_some.mp h).2
  have hone : ∀ legId, executedQty legId [lr] =
      if lr.legId = legId then lr.execQty.toRat else 0 := by
    intro legId
    rw [executedQty_cons, executedQty_nil, add_zero]
  rcases updateLeg_cases hr with ⟨rfl, hnone⟩ | ⟨row, hrow, hparent, -, rfl⟩
  · refine ⟨rfl, fun _ => id, fun legId leg hleg => ⟨leg.filledCum, hleg, ?_⟩⟩
    rw [hone]
    by_cases hid : lr.legId = legId
    · subst hid
      rw [if_neg (of_decide_eq_false (hnone leg hleg)), add_zero]
    · rw [if_neg hid, ite_self, add_zero]
  · have hparent : row.parentOrderId = parentOrderId := of_decide_eq_true hparent
    refine ⟨rfl, fun legId hleg => ?_, fun legId leg hleg => ?_⟩
    · have hne : legId ≠ lr.legId := by
        rintro rfl
        rw [hrow] at hleg
        cases hleg
      exact (lookup_insert_ne hne).trans hleg
    · rw [hone]
      by_cases hid : legId = lr.legId
      · subst hid
        rw [hrow] at hleg
        cases hleg
        refine ⟨(addFilledCum lr.execQty row).filledCum, lookup_insert _, ?_⟩
        rw [if_pos hparent, if_pos rfl]
        exact toRat_addFilledCum hexact (hwithin row hrow hparent)
      · refine ⟨leg.filledCum, (lookup_insert_ne hid).trans hleg, ?_⟩
        rw [if_neg (Ne.symm hid), ite_self, add_zero]

theorem booked_persistLegResults
    {results : List GroupLegResult}
    (hexact : ∀ lr ∈ results, ColumnExact lr.execQty)
    (hwithin : ∀ legId leg, t.legs.lookup legId = some leg → leg.parentOrderId = parentOrderId →
      ∀ first ∈ results.inits, leg.filledCum.toRat + executedQty legId first ≤ leg.qMax.toRat)
    (h : results.foldlM (persistLegResult parentOrderId) t = some t') :
    Booked parentOrderId results t t' := by
  induction results generalizing t with
  | nil =>
      cases h
      refine ⟨rfl, fun _ => id, fun legId leg hleg => ⟨leg.filledCum, hleg, ?_⟩⟩
      rw [executedQty_nil, ite_self, add_zero]
  | cons lr results ih =>
      rw [foldlM_cons, bind_eq_bind, bind_eq_some_iff] at h
      obtain ⟨t₁, hfirst, hrest⟩ := h
      have hbooked : Booked parentOrderId [lr] t t₁ := by
        refine booked_persistLegResult (hexact lr mem_cons_self) (fun leg hleg hparent => ?_) hfirst
        have hle := hwithin lr.legId leg hleg hparent [lr] (mem_inits _ _ |>.mpr ⟨results, rfl⟩)
        rwa [executedQty_cons, if_pos rfl, executedQty_nil, add_zero] at hle
      have hthen : Booked parentOrderId results t₁ t' := by
        refine ih (fun lr' hlr' => hexact lr' (mem_cons_of_mem _ hlr')) ?_ hrest
        intro legId leg₁ hleg₁ hparent first hinit
        cases hleg : t.legs.lookup legId with
        | none =>
            rw [hbooked.absent legId hleg] at hleg₁
            cases hleg₁
        | some leg =>
            obtain ⟨filledCum, hafter, hval⟩ := hbooked.present legId leg hleg
            rw [hafter] at hleg₁
            cases hleg₁
            have hle := hwithin legId leg hleg hparent (lr :: first)
              ((mem_inits _ _).mpr (cons_prefix_cons.mpr ⟨rfl, (mem_inits _ _).mp hinit⟩))
            rw [if_pos hparent, executedQty_cons, executedQty_nil] at hval
            rw [executedQty_cons] at hle
            linarith
      refine ⟨hthen.combos.trans hbooked.combos, fun legId hleg => hthen.absent legId
        (hbooked.absent legId hleg), fun legId leg hleg => ?_⟩
      obtain ⟨middle, hmiddle, hval⟩ := hbooked.present legId leg hleg
      obtain ⟨filledCum, hafter, hval'⟩ := hthen.present legId _ hmiddle
      refine ⟨filledCum, hafter, ?_⟩
      rw [hval', hval, add_assoc]
      by_cases hparent : leg.parentOrderId = parentOrderId
      · rw [if_pos hparent, if_pos hparent, if_pos hparent, executedQty_cons, executedQty_cons,
          executedQty_nil, add_zero]
      · rw [if_neg hparent, if_neg hparent, if_neg hparent, add_zero]

end Booking

/-- What a leg is after the statements of a group: the combo, `q_max` and the status are
those of before, unless the leg was active and its combo is filled. -/
structure LegAfter (eg : ExecutionGroupEvent) (t' : ComboTables) (legId : String)
    (leg leg' : ComboLegRow) : Prop where
  parent : leg'.parentOrderId = leg.parentOrderId
  qMax : leg'.qMax = leg.qMax
  filledCum : leg'.filledCum.toRat = leg.filledCum.toRat +
    if leg.parentOrderId = eg.parentOrderId then executedQty legId eg.legResults else 0
  status : leg'.status = leg.status ∨
    leg'.status = "filled" ∧ leg.status = "active" ∧ leg.parentOrderId = eg.parentOrderId
  closed : leg.status = "active" → leg.parentOrderId = eg.parentOrderId →
    ∀ combo ∈ t'.comboOrders.lookup eg.parentOrderId, combo.status = "filled" →
      leg'.status = "filled"
  ofFilled : leg'.status = leg.status ∨
    ∃ combo ∈ t'.comboOrders.lookup eg.parentOrderId, combo.status = "filled"

/-- What a combo is after the statements of a group: the policy stays, and it becomes
filled when one of its legs has reached `q_max`. -/
structure ComboAfter (eg : ExecutionGroupEvent) (t : ComboTables) (comboId : String)
    (combo combo' : ComboOrderRow) : Prop where
  policy : combo'.atomicityPolicy = combo.atomicityPolicy
  status : combo'.status = "filled" → combo.status = "filled" ∨
    comboId = eg.parentOrderId ∧ combo.status ∉ closedStatuses ∧
      ∃ e ∈ legsOf eg.parentOrderId t, Reaches eg.legResults e.1 e.2

/-- What the statements of a group leave. -/
structure AfterGroup (eg : ExecutionGroupEvent) (t t' : ComboTables) : Prop where
  leg : ∀ legId leg', t'.legs.lookup legId = some leg' →
    ∃ leg, t.legs.lookup legId = some leg ∧ LegAfter eg t' legId leg leg'
  combo : ∀ comboId combo', t'.comboOrders.lookup comboId = some combo' →
    ∃ combo, t.comboOrders.lookup comboId = some combo ∧ ComboAfter eg t comboId combo combo'

section Closing

variable {parentOrderId : String} {t t' : ComboTables}

theorem mem_closedStatuses {status : String} :
    status ∈ closedStatuses ↔ status = "filled" ∨ status = "cancelled" := by
  simp [closedStatuses]

theorem combo_of_persistComboStatus {comboId : String} {combo' : ComboOrderRow}
    (h : (persistComboStatus parentOrderId t).comboOrders.lookup comboId = some combo') :
    ∃ combo, t.comboOrders.lookup comboId = some combo ∧
      combo'.atomicityPolicy = combo.atomicityPolicy ∧
        (combo'.status = "filled" → combo.status = "filled" ∨
          comboId = parentOrderId ∧ combo.status ∉ closedStatuses ∧
            someLegFilled parentOrderId t = true) := by
  unfold persistComboStatus at h
  cases hparent : t.comboOrders.lookup parentOrderId with
  | none =>
      rw [hparent] at h
      exact ⟨combo', h, rfl, .inl⟩
  | some row =>
      rw [hparent] at h
      dsimp only at h
      by_cases hclosed : row.status = "filled" ∨ row.status = "cancelled"
      · rw [if_pos hclosed] at h
        exact ⟨combo', h, rfl, .inl⟩
      · rw [if_neg hclosed] at h
        by_cases hid : comboId = parentOrderId
        · subst hid
          rw [lookup_insert] at h
          cases h
          refine ⟨row, hparent, rfl, fun hfilled => .inr ⟨rfl, ?_, ?_⟩⟩
          · rwa [mem_closedStatuses]
          · by_contra hnone
            rw [if_neg hnone] at hfilled
            have hpartial : ("partially_filled" : String) ≠ "filled" := by decide
            exact hpartial hfilled
        · rw [lookup_insert_ne hid] at h
          exact ⟨combo', h, rfl, .inl⟩

theorem reaches_of_someLegFilled {results : List GroupLegResult}
    (hbooked : Booked parentOrderId results t t') (h : someLegFilled parentOrderId t' = true) :
    ∃ e ∈ legsOf parentOrderId t, Reaches results e.1 e.2 := by
  obtain ⟨⟨legId, leg'⟩, hmem, hfull⟩ := any_eq_true.mp h
  obtain ⟨hparent, hunits⟩ := of_decide_eq_true hfull
  have hleg' : t'.legs.lookup legId = some leg' := mem_lookup_iff.mpr hmem
  cases hleg : t.legs.lookup legId with
  | none =>
      rw [hbooked.absent legId hleg] at hleg'
      cases hleg'
  | some leg =>
      obtain ⟨filledCum, hafter, hval⟩ := hbooked.present legId leg hleg
      rw [hafter] at hleg'
      cases hleg'
      refine ⟨⟨legId, leg⟩, mem_legsOf.mpr ⟨hleg, hparent⟩, ?_⟩
      rw [if_pos hparent] at hval
      unfold Reaches
      rw [← hval]
      exact div_le_div_of_nonneg_right (Int.cast_le.mpr hunits) (by norm_num)

theorem combos_closeFilledCombo (parentOrderId : String) (t : ComboTables) :
    (closeFilledCombo parentOrderId t).comboOrders = t.comboOrders := by
  unfold closeFilledCombo
  split
  · rfl
  · split
    · rfl
    · rfl

theorem leg_of_closeFilledCombo {legId : String} {leg' : ComboLegRow}
    (h : (closeFilledCombo parentOrderId t).legs.lookup legId = some leg') :
    ∃ leg, t.legs.lookup legId = some leg ∧
      (leg' = leg ∧ (leg.status = "active" → leg.parentOrderId = parentOrderId →
          ∀ combo ∈ t.comboOrders.lookup parentOrderId, combo.status ≠ "filled") ∨
        leg' = { leg with status := "filled" } ∧ leg.status = "active" ∧
          leg.parentOrderId = parentOrderId ∧
            ∃ combo ∈ t.comboOrders.lookup parentOrderId, combo.status = "filled") := by
  unfold closeFilledCombo at h
  cases hparent : t.comboOrders.lookup parentOrderId with
  | none =>
      rw [hparent] at h
      exact ⟨leg', h, .inl ⟨rfl, fun _ _ combo hnone => nomatch hnone⟩⟩
  | some row =>
      rw [hparent] at h
      dsimp only at h
      by_cases hfilled : row.status = "filled"
      · rw [if_pos hfilled, lookup_mapRows] at h
        obtain ⟨leg, hleg, rfl⟩ := map_eq_some_iff.mp h
        refine ⟨leg, hleg, ?_⟩
        by_cases hcloses : leg.parentOrderId = parentOrderId ∧ leg.status = "active"
        · rw [if_pos hcloses]
          exact .inr ⟨rfl, hcloses.2, hcloses.1, row, rfl, hfilled⟩
        · rw [if_neg hcloses]
          exact .inl ⟨rfl, fun hactive hof => absurd ⟨hof, hactive⟩ hcloses⟩
      · rw [if_neg hfilled] at h
        refine ⟨leg', h, .inl ⟨rfl, fun _ _ combo hcombo => ?_⟩⟩
        cases hcombo
        exact hfilled

theorem afterGroup_of_persist {eg : ExecutionGroupEvent} (hok : PersistOk t eg)
    (h : persistExecutionGroup eg t = some t') : AfterGroup eg t t' := by
  obtain ⟨filled, hfilled, rfl⟩ := map_eq_some_iff.mp h
  have hbooked : Booked eg.parentOrderId eg.legResults t filled :=
    booked_persistLegResults hok.exact
      (fun legId leg hleg hparent => hok.within ⟨legId, leg⟩ (mem_legsOf.mpr ⟨hleg, hparent⟩))
      hfilled
  constructor
  · intro legId leg' hleg'
    obtain ⟨closing, hclosing, hcases⟩ := leg_of_closeFilledCombo hleg'
    rw [legs_persistComboStatus] at hclosing
    cases hleg : t.legs.lookup legId with
    | none =>
        rw [hbooked.absent legId hleg] at hclosing
        cases hclosing
    | some leg =>
        obtain ⟨filledCum, hafter, hval⟩ := hbooked.present legId leg hleg
        rw [hafter] at hclosing
        cases hclosing
        refine ⟨leg, rfl, ?_⟩
        rcases hcases with ⟨rfl, hopen⟩ | ⟨rfl, hactive, hparent, hcombo⟩
        · refine ⟨rfl, rfl, hval, .inl rfl, fun hactive hparent combo hcombo hstatus => ?_, .inl rfl⟩
          rw [combos_closeFilledCombo] at hcombo
          exact absurd hstatus (hopen hactive hparent combo hcombo)
        · refine ⟨rfl, rfl, hval, .inr ⟨rfl, hactive, hparent⟩, fun _ _ _ _ _ => rfl, .inr ?_⟩
          rw [combos_closeFilledCombo]
          exact hcombo
  · intro comboId combo' hcombo'
    rw [combos_closeFilledCombo] at hcombo'
    obtain ⟨combo, hcombo, hpolicy, hstatus⟩ := combo_of_persistComboStatus hcombo'
    rw [hbooked.combos] at hcombo
    refine ⟨combo, hcombo, hpolicy, fun hfilled => ?_⟩
    rcases hstatus hfilled with hbefore | ⟨hid, hopen, hsome⟩
    · exact .inl hbefore
    · exact .inr ⟨hid, hopen, reaches_of_someLegFilled hbooked hsome⟩

end Closing

structure OpenCombos where
  tables : ComboTables
  checked : ∀ legId leg, tables.legs.lookup legId = some leg → leg.checked = true
  unfilled : ∀ legId leg, tables.legs.lookup legId = some leg →
    leg.filledCum = PgNumeric.zero ∧ leg.status ≠ "filled"
  opened : ∀ comboId combo, tables.comboOrders.lookup comboId = some combo →
    combo.status ≠ "filled"

def OpenCombos.store (start : OpenCombos) : GroupStore where
  tables := start.tables

section Runs

variable {s : GroupStore} {t' : ComboTables}

theorem LocksRatio.of_policy
    {combo combo' : ComboOrderRow} (h : combo'.atomicityPolicy = combo.atomicityPolicy) :
    LocksRatio combo' ↔ LocksRatio combo := by
  unfold LocksRatio
  rw [h]

theorem closedWhenDone_store (start : OpenCombos) : start.store.ClosedWhenDone where
  booked legId leg hleg := by
    rw [(start.unfilled legId leg hleg).1]
    exact zero_div _
  within legId leg hleg := within_of_checked (start.checked legId leg hleg)
  legFilled legId leg _ hleg _ _ hstatus := absurd hstatus (start.unfilled legId leg hleg).2
  comboFilled _ leg combo _ hcombo _ hstatus :=
    absurd hstatus (start.opened leg.parentOrderId combo hcombo)

variable {eg : ExecutionGroupEvent}

theorem executedOf_insert (hnew : s.groups.lookup eg.executionGroupId = none)
    (tables : ComboTables) (parentOrderId legId : String) :
    ({ tables, groups := s.groups.insert eg.executionGroupId eg } : GroupStore).executedOf
        parentOrderId legId =
      s.executedOf parentOrderId legId +
        if parentOrderId = eg.parentOrderId then executedQty legId eg.legResults else 0 := by
  unfold GroupStore.executedOf
  rw [sum_insert_of_none _ hnew, add_comm]
  simp only [eq_comm]

theorem closedWhenDone_group (hsafe : s.ClosedWhenDone)
    (hnew : s.groups.lookup eg.executionGroupId = none) (hok : PersistOk s.tables eg)
    (hafter : AfterGroup eg s.tables t') :
    ({ tables := t', groups := s.groups.insert eg.executionGroupId eg } :
      GroupStore).ClosedWhenDone := by
  have hwithin : ∀ legId leg, s.tables.legs.lookup legId = some leg →
      leg.parentOrderId = eg.parentOrderId →
        leg.filledCum.toRat + executedQty legId eg.legResults ≤ leg.qMax.toRat :=
    fun legId leg hleg hparent => hok.within ⟨legId, leg⟩ (mem_legsOf.mpr ⟨hleg, hparent⟩) _
      ((mem_inits _ _).mpr (prefix_refl _))
  refine ⟨fun legId leg' hleg' => ?_, fun legId leg' hleg' => ?_,
    fun legId leg' combo' hleg' hcombo' hfree hstatus => ?_,
    fun legId leg' combo' hleg' hcombo' hfree hstatus => ?_⟩
  · obtain ⟨leg, hleg, hthen⟩ := hafter.leg legId leg' hleg'
    rw [executedOf_insert hnew, hthen.parent, hthen.filledCum, hsafe.booked legId leg hleg]
  · obtain ⟨leg, hleg, hthen⟩ := hafter.leg legId leg' hleg'
    rw [hthen.qMax, hthen.filledCum]
    split
    · rename_i hparent
      exact hwithin legId leg hleg hparent
    · rw [add_zero]
      exact hsafe.within legId leg hleg
  · obtain ⟨leg, hleg, hthen⟩ := hafter.leg legId leg' hleg'
    rw [hthen.parent] at hcombo'
    obtain ⟨combo, hcombo, hcomboAfter⟩ := hafter.combo _ combo' hcombo'
    rw [LocksRatio.of_policy hcomboAfter.policy] at hfree
    rw [hthen.qMax, hthen.filledCum]
    rcases hthen.status with hsame | ⟨-, hactive, hparent⟩
    · -- the leg was filled, and nothing is taken back
      have hfilled := hsafe.legFilled legId leg combo hleg hcombo hfree (hsame.symm.trans hstatus)
      split
      · rename_i hparent
        have hle := hwithin legId leg hleg hparent
        rw [hparent] at hcombo
        have hge := hok.kept combo hcombo hfree ⟨legId, leg⟩ (mem_legsOf.mpr ⟨hleg, hparent⟩)
          (hsame.symm.trans hstatus)
        linarith
      · rw [add_zero]
        exact hfilled
    · -- the leg was closed with its combo
      rw [if_pos hparent]
      have hle := hwithin legId leg hleg hparent
      rw [hparent] at hcombo hcombo'
      have hclosed : combo'.status = "filled" := by
        rcases hthen.ofFilled with hsame | ⟨other, hother, hfilled⟩
        · rw [hsame, hactive] at hstatus
          have hne : ("active" : String) ≠ "filled" := by decide
          exact absurd hstatus hne
        · rw [hcombo'] at hother
          cases hother
          exact hfilled
      rcases hcomboAfter.status hclosed with hbefore | ⟨-, hopen, hreaches⟩
      · have hterminal := hsafe.comboFilled legId leg combo hleg (hparent ▸ hcombo) hfree hbefore
        rw [hactive] at hterminal
        exact absurd hterminal (by decide)
      · rcases hok.done combo hcombo hfree hopen hreaches ⟨legId, leg⟩
          (mem_legsOf.mpr ⟨hleg, hparent⟩) with hterminal | ⟨-, hreach⟩
        · rw [hactive] at hterminal
          exact absurd hterminal (by decide)
        · exact le_antisymm hle hreach
  · obtain ⟨leg, hleg, hthen⟩ := hafter.leg legId leg' hleg'
    rw [hthen.parent] at hcombo'
    obtain ⟨combo, hcombo, hcomboAfter⟩ := hafter.combo _ combo' hcombo'
    rw [LocksRatio.of_policy hcomboAfter.policy] at hfree
    rcases hthen.status with hsame | ⟨hfilled, -, -⟩
    · rcases hcomboAfter.status hstatus with hbefore | ⟨hparent, hopen, hreaches⟩
      · rw [hsame]
        exact hsafe.comboFilled legId leg combo hleg hcombo hfree hbefore
      · rw [hparent] at hcombo hcombo'
        rcases hok.done combo hcombo hfree hopen hreaches ⟨legId, leg⟩
          (mem_legsOf.mpr ⟨hleg, hparent⟩) with hterminal | ⟨hactive, -⟩
        · rw [hsame]
          exact hterminal
        · rw [hthen.closed hactive hparent combo' hcombo' hstatus]
          decide
    · rw [hfilled]
      decide

theorem cancelledKept_group {groups : Table String ExecutionGroupEvent}
    (hok : PersistOk s.tables eg) (hafter : AfterGroup eg s.tables t') :
    s.CancelledKept { tables := t', groups } := by
  intro legId leg leg' combo hleg hcombo hstatus hleg'
  obtain ⟨before, hbefore, hthen⟩ := hafter.leg legId leg' hleg'
  rw [hleg] at hbefore
  cases hbefore
  rw [hthen.filledCum]
  split
  · rename_i hparent
    rw [hparent] at hcombo
    have hnone := hok.cancelled combo hcombo hstatus ⟨legId, leg⟩ (mem_legsOf.mpr ⟨hleg, hparent⟩)
    rw [hnone, add_zero]
  · exact add_zero _

theorem closedWhenDone_record (hsafe : s.ClosedWhenDone)
    (hnew : s.groups.lookup eg.executionGroupId = none) (hnone : eg.legResults = []) :
    ({ s with groups := s.groups.insert eg.executionGroupId eg } :
      GroupStore).ClosedWhenDone := by
  refine ⟨fun legId leg hleg => ?_, hsafe.within, hsafe.legFilled, hsafe.comboFilled⟩
  rw [executedOf_insert hnew, hnone, executedQty_nil, ite_self, add_zero]
  exact hsafe.booked legId leg hleg

theorem GroupStore.CancelledKept.refl (s : GroupStore) : s.CancelledKept s := by
  intro legId leg leg' combo hleg _ _ hleg'
  rw [hleg] at hleg'
  cases hleg'
  rfl

theorem closedWhenDone_persist
    (hsafe : s.ClosedWhenDone)
    (hok : (s.groups.lookup eg.executionGroupId).isSome = false →
      eg.checked s.tables = true → eg.legResults ≠ [] → PersistOk s.tables eg) :
    (s.persist eg).ClosedWhenDone ∧ s.CancelledKept (s.persist eg) := by
  unfold GroupStore.persist
  split
  · exact ⟨hsafe, .refl s⟩
  · rename_i hfresh
    obtain ⟨hnew, hchecked⟩ := not_or.mp hfresh
    have hlookup : s.groups.lookup eg.executionGroupId = none := by simpa using hnew
    unfold applyLegResults
    by_cases hnone : eg.legResults = []
    · rw [if_pos hnone]
      refine ⟨closedWhenDone_record hsafe hlookup hnone, ?_⟩
      exact GroupStore.CancelledKept.refl s
    · rw [if_neg hnone]
      cases hpersist : persistExecutionGroup eg s.tables with
      | none => exact ⟨hsafe, .refl s⟩
      | some t' =>
          have hcondition := hok (by simpa using hnew) (by simpa using hchecked) hnone
          have hafter := afterGroup_of_persist hcondition hpersist
          exact ⟨closedWhenDone_group hsafe hlookup hcondition hafter,
            cancelledKept_group hcondition hafter⟩

theorem leg_of_cancel {comboOrderId legId : String} {t : ComboTables} {leg' : ComboLegRow}
    (h : (cancelComboAndLegs comboOrderId t).legs.lookup legId = some leg') :
    ∃ leg, t.legs.lookup legId = some leg ∧
      (leg' = leg ∨ leg' = { leg with status := "cancelled" }) := by
  unfold cancelComboAndLegs at h
  rw [lookup_mapRows] at h
  obtain ⟨leg, hleg, rfl⟩ := map_eq_some_iff.mp h
  refine ⟨leg, hleg, ?_⟩
  split
  · exact .inr rfl
  · exact .inl rfl

theorem combo_of_cancel {comboOrderId comboId : String} {t : ComboTables} {combo' : ComboOrderRow}
    (h : (cancelComboAndLegs comboOrderId t).comboOrders.lookup comboId = some combo') :
    ∃ combo, t.comboOrders.lookup comboId = some combo ∧
      (combo' = combo ∨ combo' = { combo with status := "cancelled" }) := by
  unfold cancelComboAndLegs at h
  rw [lookup_mapRows] at h
  obtain ⟨combo, hcombo, rfl⟩ := map_eq_some_iff.mp h
  refine ⟨combo, hcombo, ?_⟩
  split
  · exact .inr rfl
  · exact .inl rfl

theorem closedWhenDone_cancel (hsafe : s.ClosedWhenDone) (comboOrderId : String) :
    ({ s with tables := cancelComboAndLegs comboOrderId s.tables } : GroupStore).ClosedWhenDone ∧
      s.CancelledKept { s with tables := cancelComboAndLegs comboOrderId s.tables } := by
  have hcancelled : ("cancelled" : String) ≠ "filled" := by decide
  refine ⟨⟨fun legId leg' hleg' => ?_, fun legId leg' hleg' => ?_,
    fun legId leg' combo' hleg' hcombo' hfree hstatus => ?_,
    fun legId leg' combo' hleg' hcombo' hfree hstatus => ?_⟩,
    fun legId leg leg' combo hleg _ _ hleg' => ?_⟩
  · obtain ⟨leg, hleg, rfl | rfl⟩ := leg_of_cancel hleg'
    · exact hsafe.booked legId leg' hleg
    · exact hsafe.booked legId leg hleg
  · obtain ⟨leg, hleg, rfl | rfl⟩ := leg_of_cancel hleg'
    · exact hsafe.within legId leg' hleg
    · exact hsafe.within legId leg hleg
  · obtain ⟨leg, hleg, rfl | rfl⟩ := leg_of_cancel hleg'
    · obtain ⟨combo, hcombo, rfl | rfl⟩ := combo_of_cancel hcombo'
      · exact hsafe.legFilled legId leg' combo' hleg hcombo hfree hstatus
      · exact hsafe.legFilled legId leg' combo hleg hcombo hfree hstatus
    · exact absurd hstatus hcancelled
  · obtain ⟨combo, hcombo, rfl | rfl⟩ := combo_of_cancel hcombo'
    · obtain ⟨leg, hleg, rfl | rfl⟩ := leg_of_cancel hleg'
      · exact hsafe.comboFilled legId leg' combo' hleg hcombo hfree hstatus
      · change "cancelled" ∈ terminalLegStatuses
        decide
    · exact absurd hstatus hcancelled
  · obtain ⟨before, hbefore, hcases⟩ := leg_of_cancel hleg'
    rw [hleg] at hbefore
    cases hbefore
    rcases hcases with rfl | rfl
    · rfl
    · rfl

theorem closedWhenDone_step (e : ClosingEvent) (hsafe : s.ClosedWhenDone) (hok : StepOk s e) :
    (s.step e).ClosedWhenDone ∧ s.CancelledKept (s.step e) := by
  cases e with
  | persist eg answers =>
      cases answers with
      | true => exact closedWhenDone_persist hsafe (hok rfl)
      | false => exact ⟨hsafe, .refl s⟩
  | cancel comboOrderId answers =>
      cases answers with
      | true => exact closedWhenDone_cancel hsafe comboOrderId
      | false => exact ⟨hsafe, .refl s⟩

/-- Combos close only when they are done, in every state of a run whose groups meet the
condition, and no step books a fill on a leg of a cancelled combo. -/
theorem closedWhenDone_run (start : OpenCombos) (es : List ClosingEvent)
    (hok : StepsMeet GroupStore.step StepOk start.store es) :
    start.store.ClosedWhenDone ∧
      StepsMeet GroupStore.step
        (fun s e => (s.step e).ClosedWhenDone ∧ s.CancelledKept (s.step e)) start.store es := by
  have hstart := closedWhenDone_store start
  refine ⟨hstart, ?_⟩
  have hall : StepsMeet GroupStore.step (fun s e => s.ClosedWhenDone ∧ StepOk s e)
      start.store es :=
    hok.with_invariant
      (fun s e hsafe hcondition => (closedWhenDone_step e hsafe hcondition).1) hstart
  exact hall.imp (fun s e h => closedWhenDone_step e h.1 h.2)

end Runs

/-- An internal leg of the symbol, one in a batch. -/
def closingLeg (symbol : String) (qMax : Int) : ComboLegRow where
  parentOrderId := "c1"
  instrumentSymbol := symbol
  side := "buy"
  ratio := none
  weight := some ⟨10 ^ 18⟩
  ratioBasis := none
  pLow := ⟨90 * 10 ^ 18⟩
  pHigh := ⟨110 * 10 ^ 18⟩
  qRate := ⟨10 ^ 18⟩
  qMax := ⟨qMax * 10 ^ 18⟩
  filledCum := PgNumeric.zero
  venuePreferences := []
  status := "active"

/-- A combo under best effort of 1 BTC/USDT and an amount of ETH/USDT. -/
def closingTables (qMax : Int) : ComboTables where
  comboOrders :=
    (∅ : Table String ComboOrderRow).insert "c1"
      { routedCombo with atomicityPolicy := "best_effort" }
  legs :=
    ((∅ : Table String ComboLegRow).insert "l1" (closingLeg "BTC/USDT" 1)).insert "l2"
      (closingLeg "ETH/USDT" qMax)

theorem lookup_closing {qMax : Int} {legId : String} {leg : ComboLegRow}
    (h : (closingTables qMax).legs.lookup legId = some leg) :
    leg = closingLeg "BTC/USDT" 1 ∨ leg = closingLeg "ETH/USDT" qMax := by
  unfold closingTables at h
  rw [lookup_insert_ite, lookup_insert_ite] at h
  split at h
  · cases h
    exact .inr rfl
  · split at h
    · cases h
      exact .inl rfl
    · cases h

def closingCombos (qMax : Int) (hpositive : 0 < qMax) : OpenCombos where
  tables := closingTables qMax
  checked legId leg hleg := by
    rcases lookup_closing hleg with rfl | rfl
    · decide
    · have hunits : 0 < qMax * 10 ^ 18 := by positivity
      exact decide_eq_true ⟨by simp [closingLeg], by simp [closingLeg], by simp [closingLeg], hunits,
        le_rfl, hunits.le, by simp [closingLeg]⟩
  unfilled legId leg hleg := by
    rcases lookup_closing hleg with rfl | rfl
    · exact ⟨rfl, by decide⟩
    · exact ⟨rfl, by change ("active" : String) ≠ "filled"; decide⟩
  opened comboId combo hcombo := by
    change ((∅ : Table String ComboOrderRow).insert "c1" _).lookup comboId = some combo at hcombo
    by_cases hid : comboId = "c1"
    · subst hid
      rw [AList.lookup_insert] at hcombo
      cases hcombo
      decide
    · rw [AList.lookup_insert_ne hid] at hcombo
      cases hcombo

/-- A leg of the group that executes one of each. -/
def closingResult (legId symbol : String) : GroupLegResult where
  legId
  instrumentSymbol := symbol
  side := .buy
  execQty := Decimal.of 1 0
  execPrice := Decimal.of 100 0
  execNotional := Decimal.of 100 0
  liquiditySource := "internal"

/-- The group that the first batch publishes for the combo. -/
def closingGroup : ExecutionGroupEvent where
  executionGroupId := "c1"
  batchId := "b1"
  parentOrderId := "c1"
  userId := "demo-user"
  atomicityPolicy := .bestEffort
  groupStatus := .filled
  executionScale := Decimal.of 1000000 6
  legResults := [closingResult "l1" "BTC/USDT", closingResult "l2" "ETH/USDT"]
  violatedConstraints := []
  fallbackAction := none
  bindingLegIds := ["BTC/USDT"]

/-- Both legs at 100. -/
def closingPrices : ReferencePrices :=
  ((∅ : ReferencePrices).insert "BTC/USDT" (Decimal.of 100 0)).insert "ETH/USDT"
    (Decimal.of 100 0)

/-- A group that takes both legs to `q_max` fills the combo; it comes twice, and the
cancel comes last. -/
theorem closedWhenDone_full :
    (closingCombos 1 (by decide)).store.ClosedWhenDone ∧
      StepsMeet GroupStore.step
        (fun s e => (s.step e).ClosedWhenDone ∧ s.CancelledKept (s.step e))
        (closingCombos 1 (by decide)).store
        [.persist closingGroup true, .persist closingGroup true, .cancel "c1" true] :=
  closedWhenDone_run _ _ (by decide +kernel)

/-- The first batch fills one leg, and the other is closed with a tenth of its `q_max`;
after a cancel, the same group is still booked. -/
theorem closed_before_done :
    (∃ groups, loadActiveGroups (closingTables 10) = some groups ∧
      closingGroup ∈ publishedGroups id "b1" groups closingPrices) ∧
    ¬ (run GroupStore.step (closingCombos 10 (by decide)).store
        [.persist closingGroup true]).ClosedWhenDone ∧
    ¬ StepsMeet GroupStore.step (fun s e => s.CancelledKept (s.step e))
        (closingCombos 10 (by decide)).store
        [.cancel "c1" true, .persist closingGroup true] := by
  refine ⟨⟨_, rfl, by decide⟩, fun h => ?_, fun h => ?_⟩
  · have hfull := h.legFilled "l2"
      { closingLeg "ETH/USDT" 10 with filledCum := ⟨10 ^ 18⟩, status := "filled" }
      { routedCombo with atomicityPolicy := "best_effort", status := "filled" }
      (by decide +kernel) (by decide +kernel) (by decide) rfl
    exact absurd hfull (by decide +kernel)
  · have hkept := h.2.1 "l2"
      { closingLeg "ETH/USDT" 10 with status := "cancelled" }
      { closingLeg "ETH/USDT" 10 with filledCum := ⟨10 ^ 18⟩, status := "cancelled" }
      { routedCombo with atomicityPolicy := "best_effort", status := "cancelled" }
      (by decide +kernel) (by decide +kernel) rfl (by decide +kernel)
    exact absurd hkept (by decide +kernel)

end Matching
end ContExchange
