import ContExchange.Matching.FilledVolume
import ContExchange.Matching.HedgeChain

/-!
# Matching: a batch is all or nothing and announces its removals

A batch that is not executed changes nothing and hands nothing on.  An executed
one removes orders in two places: by a terminal update, which is published, and
by the cleanup of orders with almost nothing remaining, which is not.  So every
removal is announced exactly when the updates of the solver leave no order to
the cleanup (`batch_outcome_iff`).
-/

namespace ContExchange
namespace Matching

open Common Lib List

/-- The hedge policies of `RunBatchUseCase`. -/
structure HedgeConfig where
  triggers : HedgeTriggerConfig := {}
  intents : HedgeExecutionIntentConfig := {}

/-- `RunBatchResult` with the fields of the hedge chain. -/
structure HedgedBatchResult extends RunBatchResult where
  positionSnapshots : List PositionSnapshot := []
  hedgeTriggerDecisions : List HedgeTriggerDecision := []
  hedgeExecutionIntents : List ExecutionIntent := []

/-- `RunBatchUseCase::Execute`: the hedge chain runs on the batch once it is
published, and nothing after it fails. -/
def executeHedged
    (hedging : HedgeConfig)
    (solver : List FlowOrder → Option BatchResult) (publish : BatchResult → Bool)
    (batchId : String) (externalLiquidity : ExternalLiquidityBySymbol)
    (active : ActiveOrders) : HedgedBatchResult × ActiveOrders :=
  let r := execute solver publish batchId externalLiquidity active
  match r.1.status with
  | .executed =>
      let positionSnapshots := calculatePositionSnapshots r.1.batch
      let hedgeTriggerDecisions := evaluateHedgeTriggers hedging.triggers positionSnapshots
      ({ r.1 with
         positionSnapshots
         hedgeTriggerDecisions
         hedgeExecutionIntents := buildHedgeIntents hedging.intents hedgeTriggerDecisions },
        r.2)
  | .skippedEmpty | .failedSolver | .failedPublish => ({ toRunBatchResult := r.1 }, r.2)

def Announced (batch : BatchResult) (orderId : String) : Prop :=
  ∃ u ∈ batch.orderUpdates, u.orderId = orderId ∧ u.status.isTerminal = true
deriving Decidable

/-- A batch over the active orders changes nothing unless it is executed; if it
is, every order that is gone was announced and every order that is left has more
than a millionth remaining. -/
structure AllOrNothing (active : ActiveOrders) (r : HedgedBatchResult × ActiveOrders) : Prop where
  unchanged :
    r.1.status ≠ .executed →
      r.2 = active ∧ r.1.fillDeltas = [] ∧ r.1.hedgeExecutionIntents = []
  announced :
    r.1.status = .executed →
      ∀ orderId ∈ active, orderId ∉ r.2 → Announced r.1.batch orderId
  remaining :
    r.1.status = .executed →
      ∀ orderId order, r.2.lookup orderId = some order →
        0 < Decimal.cmp order.remainingQty (Decimal.of 1 6)

/-- The solver ends every order that its totals leave with at most a millionth
remaining, in a batch that is published. -/
def EndsAllDone
    (solver : List FlowOrder → Option BatchResult) (publish : BatchResult → Bool)
    (batchId : String) (externalLiquidity : ExternalLiquidityBySymbol)
    (active : ActiveOrders) : Prop :=
  ∀ result, solver (snapshotActiveOrders active) = some result →
    publish (publishedBatch batchId externalLiquidity (snapshotActiveOrders active) result) = true →
      ∀ orderId order, active.lookup orderId = some order →
        hasRemaining ((updatesOf orderId result.orderUpdates).foldl FlowOrder.update order) = false →
          Announced result orderId

section Removal

variable {active : ActiveOrders} {o : FlowOrder} {orderId : String}
  {updates : List OrderStateUpdate}

theorem lookup_foldl_updates_of_open (h : active.lookup orderId = some o)
    (hopen : ∀ u ∈ updates, u.orderId = orderId → u.status.isTerminal = false) :
    (updates.foldl updateActiveOrder active).lookup orderId =
      some ((updatesOf orderId updates).foldl FlowOrder.update o) := by
  induction updates generalizing active o with
  | nil => exact h
  | cons u us ih =>
      have hrest : ∀ v ∈ us, v.orderId = orderId → v.status.isTerminal = false :=
        fun v hv => hopen v (mem_cons_of_mem u hv)
      rw [foldl_cons]
      by_cases hu : u.orderId = orderId
      · subst hu
        have hterm := hopen u mem_cons_self rfl
        have hstep : (updateActiveOrder active u).lookup u.orderId = some (o.update u) := by
          simp [updateActiveOrder, h, hterm]
        rw [ih hstep hrest]
        simp [updatesOf]
      · rw [ih ((lookup_updateActiveOrder_of_ne hu).trans h) hrest]
        simp [updatesOf, hu]

theorem lookup_applyOrderUpdates_of_open (h : active.lookup orderId = some o)
    (hopen : ∀ u ∈ updates, u.orderId = orderId → u.status.isTerminal = false) :
    (applyOrderUpdates updates active).lookup orderId =
      (some ((updatesOf orderId updates).foldl FlowOrder.update o)).filter hasRemaining := by
  rw [applyOrderUpdates, Table.lookup_filter, lookup_foldl_updates_of_open h hopen]

theorem not_announced_iff {batch : BatchResult} :
    ¬ Announced batch orderId ↔
      ∀ u ∈ batch.orderUpdates, u.orderId = orderId → u.status.isTerminal = false := by
  simp [Announced]

end Removal

section Outcome

variable
  (hedging : HedgeConfig)
  (solver : List FlowOrder → Option BatchResult) (publish : BatchResult → Bool)
  (batchId : String) (externalLiquidity : ExternalLiquidityBySymbol) (active : ActiveOrders)

theorem executeHedged_cases :
    (∃ r : RunBatchResult, r.status ≠ .executed ∧ r.fillDeltas = [] ∧
        executeHedged hedging solver publish batchId externalLiquidity active =
          ({ toRunBatchResult := r }, active) ∧
        ∀ result, solver (snapshotActiveOrders active) = some result →
          publish (publishedBatch batchId externalLiquidity
            (snapshotActiveOrders active) result) = true → active.entries = []) ∨
      ∃ result, solver (snapshotActiveOrders active) = some result ∧
        publish (publishedBatch batchId externalLiquidity
          (snapshotActiveOrders active) result) = true ∧
        (executeHedged hedging solver publish batchId externalLiquidity active).1.status =
          .executed ∧
        (executeHedged hedging solver publish batchId externalLiquidity active).1.batch =
          publishedBatch batchId externalLiquidity (snapshotActiveOrders active) result ∧
        (executeHedged hedging solver publish batchId externalLiquidity active).2 =
          applyOrderUpdates result.orderUpdates active := by
  rw [executeHedged, execute]
  dsimp only
  by_cases hempty : active.entries.isEmpty = true
  · rw [if_pos hempty]
    exact .inl ⟨_, by simp, rfl, rfl, fun _ _ _ => isEmpty_iff.mp hempty⟩
  · rw [if_neg hempty]
    cases hsolve : solver (snapshotActiveOrders active) with
    | none => exact .inl ⟨_, by simp, rfl, rfl, fun _ h _ => by cases h⟩
    | some result =>
        dsimp only
        cases hpublish : publish (publishedBatch batchId externalLiquidity
            (snapshotActiveOrders active) result) with
        | false =>
            refine .inl ⟨_, ?_, ?_, rfl, ?_⟩
            · simp
            · rfl
            · intro result' hresult' hpublish'
              cases hresult'
              rw [hpublish] at hpublish'
              cases hpublish'
        | true =>
            exact .inr ⟨result, rfl, hpublish, rfl, rfl, rfl⟩

/-- A batch is all or nothing and announces every removal exactly when the
solver ends the orders that the cleanup would remove. -/
theorem batch_outcome_iff :
    AllOrNothing active
        (executeHedged hedging solver publish batchId externalLiquidity active) ↔
      EndsAllDone solver publish batchId externalLiquidity active := by
  rcases executeHedged_cases hedging solver publish batchId externalLiquidity active with
    ⟨r, hstatus, hdeltas, hexecute, hnone⟩ | ⟨result, hsolve, hpublish, hstatus, hbatch, hafter⟩
  · rw [hexecute]
    constructor
    · intro _ result hsolve hpublish orderId order horder
      have hempty := hnone result hsolve hpublish
      rw [← Option.mem_def, AList.mem_lookup_iff, hempty] at horder
      cases horder
    · intro _
      exact ⟨fun _ => ⟨rfl, hdeltas, rfl⟩, fun h => absurd h hstatus, fun h => absurd h hstatus⟩
  · constructor
    · intro hall result' hsolve' hpublish' orderId order horder hdone
      rw [hsolve] at hsolve'
      cases hsolve'
      by_contra hnot
      have hgone : orderId ∉
          (executeHedged hedging solver publish batchId externalLiquidity active).2 := by
        rw [hafter, ← AList.lookup_eq_none,
          lookup_applyOrderUpdates_of_open horder (not_announced_iff.mp hnot)]
        simp [hdone]
      have hmem : orderId ∈ active := AList.lookup_isSome.mp (by rw [horder]; rfl)
      have hannounced := hall.announced hstatus orderId hmem hgone
      rw [hbatch] at hannounced
      exact hnot hannounced
    · intro hends
      refine ⟨fun h => absurd hstatus h, ?_, ?_⟩
      · intro _ orderId hmem hgone
        rw [hbatch]
        change Announced result orderId
        by_contra hnot
        obtain ⟨order, horder⟩ := Option.isSome_iff_exists.mp (AList.lookup_isSome.mpr hmem)
        rw [hafter, ← AList.lookup_eq_none,
          lookup_applyOrderUpdates_of_open horder (not_announced_iff.mp hnot)] at hgone
        refine hnot (hends result hsolve hpublish orderId order horder ?_)
        simpa using hgone
      · intro _ orderId order horder
        rw [hafter, applyOrderUpdates, Table.lookup_filter, Option.filter_eq_some_iff] at horder
        exact of_decide_eq_true horder.2

/-- A buyer of a little more than the seller has to sell. -/
def almostMatched : ActiveOrders :=
  AList.insert "o1"
    (FlowOrder.ofClient "o1" .buy (.of 90 0) (.of 110 0) (.of 2 0) (.of 10000001 7))
    (AList.insert "o2"
      (FlowOrder.ofClient "o2" .sell (.of 90 0) (.of 110 0) (.of 2 0) (.of 1 0)) ∅)

/-- The buyer is left with a tenth of a millionth: the batch calls it partially
filled, and the cleanup removes it. -/
theorem removal_not_announced :
    ¬ AllOrNothing almostMatched
      (executeHedged {} (fun orders => some (solve { orders })) (fun _ => true) "b1" ∅
        almostMatched) := by
  intro h
  have hannounced := h.announced (by decide +kernel) "o1" (by decide +kernel) (by decide +kernel)
  exact absurd hannounced (by decide +kernel)

end Outcome

end Matching
end ContExchange
