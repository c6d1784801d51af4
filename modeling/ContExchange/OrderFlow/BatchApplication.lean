import ContExchange.OrderFlow.FlowOrders

/-!
# Order flow: applying batch results

`ApplyBatchResult` lowers the remaining quantities by the fills of a batch, at most
once for each batch and order (`applied_fills_`), and then applies the order updates
of the batch as they stand, except to an order that was cancelled.

`batches_applied` says what holds of every run:

* `RedeliveryKept`: a batch that was applied while an order was stored changes that
  order again only by an order update for it;
* `RemainingFollows`: a cancelled order keeps its remaining quantity; otherwise an
  update of the batch has the last word, and without one the first fill is
  subtracted, down to zero;
* `TerminalStays`: a cancelled order stays cancelled until its id is created again;
  the other terminal orders stay as they are until a create, a cancel or an order
  update names them.
-/

namespace ContExchange
namespace OrderFlow

open Common Lib AList Decimal List OrderFlow OrderFlowUseCases
open Matching (ProtoFlowOrder)
open Ledger (LedgerUseCases)

/-- The key of a fill in `applied_fills_`. -/
def idemKey (batchId orderId : String) : String :=
  batchId ++ "|" ++ orderId

/-- The statuses in which a fill only leaves its mark. -/
def ignoresFills (status : OrderStatus) : Bool :=
  decide (status = .canceled ∨ status = .expired ∨ status = .rejected)

/-- The remaining quantity after a fill, not below zero. -/
def flooredSub (remaining executed : Decimal) : Decimal :=
  let newRemaining := Decimal.sub remaining executed
  if newRemaining.units < 0 then Decimal.zeroAt newRemaining.scale else newRemaining

/-- The remaining quantity of a stored order, zero when it is missing. -/
def remainingOf (o : ProtoFlowOrder) : Decimal :=
  o.remainingQty.getD Decimal.zero

def filledOrder (now : Int) (o : ProtoFlowOrder) (executed : Decimal) : ProtoFlowOrder :=
  let newRemaining := flooredSub (remainingOf o) executed
  { o with
    remainingQty := some newRemaining
    status := if newRemaining.units = 0 then .filled else .partiallyFilled
    updatedAt := some now }

/-- One round of the loop over the fills. -/
def applyBatchFill (now : Int) (batchId : String) (s : OrderFlowUseCases) (fill : FlowFill) :
    OrderFlowUseCases :=
  let key := idemKey batchId fill.orderId
  if (s.appliedFills.lookup key).isSome then s
  else
    match s.orders.lookup fill.orderId with
    | none => s
    | some o =>
        let marked := { s with appliedFills := s.appliedFills.insert key true }
        if ignoresFills o.status then marked
        else
          { marked with
            orders := s.orders.insert fill.orderId (filledOrder now o fill.executedQty) }

def updatedOrder (now : Int) (o : ProtoFlowOrder) (u : OrderStateUpdate) : ProtoFlowOrder :=
  { o with
    remainingQty := u.remainingQty.or o.remainingQty
    status := if u.status = .unspecified then o.status else u.status
    updatedAt := some now }

/-- One round of the loop over the order updates. -/
def applyBatchUpdate (now : Int) (s : OrderFlowUseCases) (u : OrderStateUpdate) :
    OrderFlowUseCases :=
  match s.orders.lookup u.orderId with
  | none => s
  | some o =>
      if o.status = .canceled then s
      else { s with orders := s.orders.insert u.orderId (updatedOrder now o u) }

def applyBatchResult (now : Int) (batch : BatchResult) (s : OrderFlowUseCases) :
    OrderFlowUseCases :=
  run (applyBatchUpdate now) (run (applyBatchFill now batch.batchId) s batch.fills)
    batch.orderUpdates

/-- A call of one of the three operations. -/
inductive OrderFlowCall where
  | create (env : CreateEnv) (order : ProtoFlowOrder)
  | cancel (releaseArrives : Bool) (now : Int) (req : CancelFlowOrderRequest)
  | applyBatchResult (now : Int) (batch : BatchResult)

def OrderFlowUseCases.step (s : OrderFlowUseCases) : OrderFlowCall → OrderFlowUseCases
  | .create env o => (createFlowOrder env s o).state
  | .cancel releaseArrives now req => (cancelFlowOrder releaseArrives now s req).state
  | .applyBatchResult now batch => OrderFlow.applyBatchResult now batch s

def OrderFlowCall.Creates (id : String) : OrderFlowCall → Prop
  | .create _ o => o.orderId = id
  | _ => False

def OrderFlowCall.Cancels (id : String) : OrderFlowCall → Prop
  | .cancel _ _ req => req.orderId = id
  | _ => False

def OrderFlowCall.Updates (id : String) : OrderFlowCall → Prop
  | .applyBatchResult _ batch => ∃ u ∈ batch.orderUpdates, u.orderId = id
  | _ => False

/-- The fills that the call carries for the order have usual decimals and are not
negative. -/
def OrderFlowCall.FillsOk (id : String) : OrderFlowCall → Prop
  | .applyBatchResult _ batch =>
      ∀ f ∈ batch.fills, f.orderId = id → Decimal.ScaleOk f.executedQty ∧ 0 ≤ f.executedQty.toRat
  | _ => True

def OrderFlowCall.HasFill (key : String) : OrderFlowCall → Prop
  | .applyBatchResult _ batch => ∃ f ∈ batch.fills, idemKey batch.batchId f.orderId = key
  | _ => False

/-- A batch that was applied while the order was stored, and has no order update for
it, leaves it alone when it is delivered again. -/
def RedeliveryKept (start : OrderFlowUseCases) (es : List OrderFlowCall) : Prop :=
  ∀ es₁ es₂ now batch id, es = es₁ ++ .applyBatchResult now batch :: es₂ →
    ((run OrderFlowUseCases.step start es₁).orders.lookup id).isSome →
    (∀ u ∈ batch.orderUpdates, u.orderId ≠ id) →
    ∀ now', (applyBatchResult now' batch (run OrderFlowUseCases.step start es)).orders.lookup id =
      (run OrderFlowUseCases.step start es).orders.lookup id

/-- The remaining quantity of a stored order after a batch. -/
structure RemainingAfter (batch : BatchResult) (id : String) (o o' : ProtoFlowOrder) : Prop where
  canceled : o.status = .canceled → o'.remainingQty = o.remainingQty
  update : o.status ≠ .canceled → ∀ u r, u.remainingQty = some r →
    batch.orderUpdates.filter (fun u => u.orderId = id) = [u] → o'.remainingQty = some r
  ignored : ignoresFills o.status = true →
    (∀ u ∈ batch.orderUpdates, u.orderId ≠ id) → o'.remainingQty = o.remainingQty
  unfilled : (∀ f ∈ batch.fills, f.orderId ≠ id) →
    (∀ u ∈ batch.orderUpdates, u.orderId ≠ id) → o'.remainingQty = o.remainingQty
  filled : ignoresFills o.status = false → ∀ f,
    batch.fills.filter (fun f => f.orderId = id) = [f] →
    (∀ u ∈ batch.orderUpdates, u.orderId ≠ id) →
      o'.remainingQty = some (flooredSub (remainingOf o) f.executedQty) ∧
        (Decimal.SubExact (remainingOf o) f.executedQty →
          (remainingOf o').toRat = max 0 ((remainingOf o).toRat - f.executedQty.toRat))

/-- A batch whose fill of the order was not delivered before moves the remaining
quantity as `RemainingAfter` says. -/
def RemainingFollows (start : OrderFlowUseCases) (es : List OrderFlowCall) : Prop :=
  ∀ now batch id o, (run OrderFlowUseCases.step start es).orders.lookup id = some o →
    (∀ e ∈ es, ¬ e.HasFill (idemKey batch.batchId id)) →
    ∃ o', (applyBatchResult now batch (run OrderFlowUseCases.step start es)).orders.lookup id =
        some o' ∧ RemainingAfter batch id o o'

/-- What a terminal order is after further calls. -/
structure TerminalStays (start : OrderFlowUseCases) (es : List OrderFlowCall) : Prop where
  canceled : ∀ es' id o, (run OrderFlowUseCases.step start es).orders.lookup id = some o →
    o.status = .canceled → (∀ e ∈ es', ¬ e.Creates id) →
    ∃ o', (run OrderFlowUseCases.step start (es ++ es')).orders.lookup id = some o' ∧
      o'.status = .canceled ∧ o'.remainingQty = o.remainingQty
  ended : ∀ es' id o, (run OrderFlowUseCases.step start es).orders.lookup id = some o →
    o.status = .expired ∨ o.status = .rejected →
    (∀ e ∈ es', ¬ e.Creates id ∧ ¬ e.Cancels id ∧ ¬ e.Updates id) →
    (run OrderFlowUseCases.step start (es ++ es')).orders.lookup id = some o
  filled : ∀ es' id o, (run OrderFlowUseCases.step start es).orders.lookup id = some o →
    o.status = .filled → (remainingOf o).units = 0 → Decimal.ScaleOk (remainingOf o) →
    (∀ e ∈ es', ¬ e.Creates id ∧ ¬ e.Cancels id ∧ ¬ e.Updates id ∧ e.FillsOk id) →
    ∃ o', (run OrderFlowUseCases.step start (es ++ es')).orders.lookup id = some o' ∧
      o'.status = .filled ∧ (remainingOf o').units = 0

/-- What holds of a run. -/
structure BatchesApplied (start : OrderFlowUseCases) (es : List OrderFlowCall) : Prop where
  redelivery : RedeliveryKept start es
  remaining : RemainingFollows start es
  terminal : TerminalStays start es

/-- The key is in `applied_fills_`. -/
def Marked (s : OrderFlowUseCases) (key : String) : Prop :=
  (s.appliedFills.lookup key).isSome = true

section Batch

variable {now : Int} {batchId id key : String} {s : OrderFlowUseCases}

/-- What a fill does: nothing, a mark, or a mark and a smaller remaining quantity. -/
inductive FillOutcome (now : Int) (batchId : String) (s : OrderFlowUseCases) (fill : FlowFill) :
    OrderFlowUseCases → Prop where
  | skipped
      (h : Marked s (idemKey batchId fill.orderId) ∨ s.orders.lookup fill.orderId = none) :
      FillOutcome now batchId s fill s
  | ignored {o : ProtoFlowOrder}
      (hnew : ¬ Marked s (idemKey batchId fill.orderId))
      (ho : s.orders.lookup fill.orderId = some o) (hstatus : ignoresFills o.status = true) :
      FillOutcome now batchId s fill
        { s with appliedFills := s.appliedFills.insert (idemKey batchId fill.orderId) true }
  | applied {o : ProtoFlowOrder}
      (hnew : ¬ Marked s (idemKey batchId fill.orderId))
      (ho : s.orders.lookup fill.orderId = some o) (hstatus : ignoresFills o.status = false) :
      FillOutcome now batchId s fill
        { s with
          appliedFills := s.appliedFills.insert (idemKey batchId fill.orderId) true
          orders := s.orders.insert fill.orderId (filledOrder now o fill.executedQty) }

theorem applyBatchFill_outcome (now : Int) (batchId : String) (s : OrderFlowUseCases)
    (fill : FlowFill) : FillOutcome now batchId s fill (applyBatchFill now batchId s fill) := by
  unfold applyBatchFill
  by_cases hmarked : (s.appliedFills.lookup (idemKey batchId fill.orderId)).isSome = true
  · rw [if_pos hmarked]
    exact .skipped (.inl hmarked)
  · rw [if_neg hmarked]
    cases ho : s.orders.lookup fill.orderId with
    | none => exact .skipped (.inr ho)
    | some o =>
        dsimp only
        cases hstatus : ignoresFills o.status with
        | true => exact .ignored hmarked ho hstatus
        | false => exact .applied hmarked ho hstatus

theorem Marked.insert (h : Marked s key) (other : String) :
    ((s.appliedFills.insert other true).lookup key).isSome = true := by
  by_cases hkey : key = other
  · rw [hkey, lookup_insert]
    rfl
  · rw [lookup_insert_ne hkey]
    exact h

theorem Marked.applyBatchFill (h : Marked s key) (fill : FlowFill) :
    Marked (applyBatchFill now batchId s fill) key := by
  have houtcome := applyBatchFill_outcome now batchId s fill
  generalize OrderFlow.applyBatchFill now batchId s fill = s' at houtcome
  cases houtcome with
  | skipped _ => exact h
  | ignored _ _ _ => exact h.insert _
  | applied _ _ _ => exact h.insert _

variable {fill : FlowFill}

theorem lookup_applyBatchFill_ne (hne : fill.orderId ≠ id) :
    (applyBatchFill now batchId s fill).orders.lookup id = s.orders.lookup id := by
  have houtcome := applyBatchFill_outcome now batchId s fill
  generalize applyBatchFill now batchId s fill = s' at houtcome
  cases houtcome with
  | skipped _ => rfl
  | ignored _ _ _ => rfl
  | applied _ _ _ => exact lookup_insert_ne hne.symm

theorem applyBatchFill_of_marked (h : Marked s (idemKey batchId fill.orderId)) :
    applyBatchFill now batchId s fill = s := by
  exact if_pos h

theorem stored_applyBatchFill (fill : FlowFill) (h : (s.orders.lookup id).isSome = true) :
    ((applyBatchFill now batchId s fill).orders.lookup id).isSome = true := by
  have houtcome := applyBatchFill_outcome now batchId s fill
  generalize applyBatchFill now batchId s fill = s' at houtcome
  cases houtcome with
  | skipped _ => exact h
  | ignored _ _ _ => exact h
  | applied _ _ _ =>
      by_cases hid : id = fill.orderId
      · rw [hid, lookup_insert]
        rfl
      · rw [lookup_insert_ne hid]
        exact h

theorem marked_applyBatchFill (fill : FlowFill) (h : (s.orders.lookup fill.orderId).isSome = true) :
    Marked (applyBatchFill now batchId s fill) (idemKey batchId fill.orderId) := by
  have houtcome := applyBatchFill_outcome now batchId s fill
  generalize applyBatchFill now batchId s fill = s' at houtcome
  cases houtcome with
  | skipped hskip =>
      rcases hskip with hmarked | hnone
      · exact hmarked
      · rw [hnone] at h
        cases h
  | ignored _ _ _ =>
      unfold Marked
      rw [lookup_insert]
      rfl
  | applied _ _ _ =>
      unfold Marked
      rw [lookup_insert]
      rfl

variable {fills : List FlowFill}

theorem lookup_fills (h : Marked s (idemKey batchId id) ∨ ∀ f ∈ fills, f.orderId ≠ id) :
    (run (applyBatchFill now batchId) s fills).orders.lookup id = s.orders.lookup id := by
  induction fills generalizing s with
  | nil => rfl
  | cons f fills ih =>
      rw [run_cons]
      by_cases hid : f.orderId = id
      · rcases h with hmarked | hnone
        · subst hid
          rw [applyBatchFill_of_marked hmarked]
          exact ih (.inl hmarked)
        · exact absurd hid (hnone f mem_cons_self)
      · rw [ih, lookup_applyBatchFill_ne hid]
        exact h.imp (fun hmarked => hmarked.applyBatchFill f)
          (fun hnone f hf => hnone f (mem_cons_of_mem _ hf))

theorem marked_fills (hstored : (s.orders.lookup id).isSome = true)
    (hfill : ∃ f ∈ fills, f.orderId = id) :
    Marked (run (applyBatchFill now batchId) s fills) (idemKey batchId id) := by
  induction fills generalizing s with
  | nil =>
      obtain ⟨f, hf, -⟩ := hfill
      cases hf
  | cons f fills ih =>
      by_cases hid : f.orderId = id
      · subst hid
        exact run_preserves (fun t => Marked t (idemKey batchId f.orderId))
          (fun t g ht => ht.applyBatchFill g) (marked_applyBatchFill f hstored) fills
      · refine ih (stored_applyBatchFill f hstored) ?_
        obtain ⟨g, hg, hgid⟩ := hfill
        rcases mem_cons.mp hg with rfl | hg
        · exact absurd hgid hid
        · exact ⟨g, hg, hgid⟩

theorem marked_of_applyBatchFill (h : Marked (applyBatchFill now batchId s fill) key) :
    Marked s key ∨ idemKey batchId fill.orderId = key := by
  have houtcome := applyBatchFill_outcome now batchId s fill
  generalize applyBatchFill now batchId s fill = s' at houtcome h
  by_cases hkey : idemKey batchId fill.orderId = key
  · exact .inr hkey
  · left
    cases houtcome with
    | skipped _ => exact h
    | ignored _ _ _ =>
        unfold Marked at h
        rw [lookup_insert_ne (Ne.symm hkey)] at h
        exact h
    | applied _ _ _ =>
        unfold Marked at h
        rw [lookup_insert_ne (Ne.symm hkey)] at h
        exact h

theorem marked_of_fills (h : Marked (run (applyBatchFill now batchId) s fills) key) :
    Marked s key ∨ ∃ f ∈ fills, idemKey batchId f.orderId = key := by
  induction fills generalizing s with
  | nil => exact .inl h
  | cons f fills ih =>
      rcases ih h with hmarked | ⟨g, hg, hkey⟩
      · rcases marked_of_applyBatchFill hmarked with hmarked | hkey
        · exact .inl hmarked
        · exact .inr ⟨f, mem_cons_self, hkey⟩
      · exact .inr ⟨g, mem_cons_of_mem _ hg, hkey⟩

theorem appliedFills_updates (us : List OrderStateUpdate) :
    (run (applyBatchUpdate now) s us).appliedFills = s.appliedFills := by
  refine run_preserves (fun t : OrderFlowUseCases => t.appliedFills = s.appliedFills) ?_ rfl us
  intro t u ht
  unfold applyBatchUpdate
  cases t.orders.lookup u.orderId with
  | none => exact ht
  | some o =>
      dsimp only
      split
      · exact ht
      · exact ht

theorem lookup_applyBatchUpdate_ne {u : OrderStateUpdate} (hne : u.orderId ≠ id) :
    (applyBatchUpdate now s u).orders.lookup id = s.orders.lookup id := by
  unfold applyBatchUpdate
  cases s.orders.lookup u.orderId with
  | none => rfl
  | some o =>
      dsimp only
      split
      · rfl
      · exact lookup_insert_ne hne.symm

theorem lookup_updates {us : List OrderStateUpdate} (h : ∀ u ∈ us, u.orderId ≠ id) :
    (run (applyBatchUpdate now) s us).orders.lookup id = s.orders.lookup id := by
  induction us generalizing s with
  | nil => rfl
  | cons u us ih =>
      rw [run_cons, ih (fun v hv => h v (mem_cons_of_mem _ hv)),
        lookup_applyBatchUpdate_ne (h u mem_cons_self)]

theorem stored_applyBatchUpdate (u : OrderStateUpdate) (h : (s.orders.lookup id).isSome = true) :
    ((applyBatchUpdate now s u).orders.lookup id).isSome = true := by
  by_cases hid : u.orderId = id
  · subst hid
    obtain ⟨o, ho⟩ := Option.isSome_iff_exists.mp h
    unfold applyBatchUpdate
    rw [ho]
    dsimp only
    split
    · exact h
    · rw [lookup_insert]
      rfl
  · rw [lookup_applyBatchUpdate_ne hid]
    exact h

end Batch

section Redelivery

variable {id key : String} {s : OrderFlowUseCases}

theorem appliedFills_create (env : CreateEnv) (o : ProtoFlowOrder) :
    (createFlowOrder env s o).state.appliedFills = s.appliedFills := by
  have houtcome := createFlowOrder_outcome env s o
  generalize createFlowOrder env s o = a at houtcome
  cases houtcome with
  | stopped _ _ => rfl
  | unpersisted _ _ => rfl
  | accepted _ _ _ => rfl

theorem appliedFills_cancel (releaseArrives : Bool) (now : Int) (req : CancelFlowOrderRequest) :
    (cancelFlowOrder releaseArrives now s req).state.appliedFills = s.appliedFills := by
  unfold cancelFlowOrder
  cases s.orders.lookup req.orderId with
  | none => rfl
  | some o => rfl

theorem Marked.step (h : Marked s key) (e : OrderFlowCall) : Marked (s.step e) key := by
  cases e with
  | create env o =>
      unfold Marked OrderFlowUseCases.step
      rw [appliedFills_create]
      exact h
  | cancel releaseArrives now req =>
      unfold Marked OrderFlowUseCases.step
      rw [appliedFills_cancel]
      exact h
  | applyBatchResult now batch =>
      unfold Marked OrderFlowUseCases.step OrderFlow.applyBatchResult
      rw [appliedFills_updates]
      exact run_preserves (fun t => Marked t key) (fun t f ht => ht.applyBatchFill f) h batch.fills

theorem hasFill_of_marked_step (e : OrderFlowCall) (hnew : ¬ Marked s key)
    (h : Marked (s.step e) key) : e.HasFill key := by
  cases e with
  | create env o =>
      unfold Marked step at h
      rw [appliedFills_create] at h
      exact absurd h hnew
  | cancel releaseArrives now req =>
      unfold Marked step at h
      rw [appliedFills_cancel] at h
      exact absurd h hnew
  | applyBatchResult now batch =>
      unfold Marked step applyBatchResult at h
      rw [appliedFills_updates] at h
      exact (marked_of_fills h).resolve_left hnew

theorem hasFill_of_marked {start : OrderFlowUseCases} (hstart : start.appliedFills = ∅)
    {es : List OrderFlowCall} (h : Marked (run step start es) key) :
    ∃ e ∈ es, e.HasFill key := by
  induction es using List.reverseRecOn with
  | nil =>
      unfold Marked at h
      rw [run_nil, hstart] at h
      cases h
  | append_singleton es e ih =>
      rw [run_append, run_cons] at h
      by_cases hmarked : Marked (run step start es) key
      · obtain ⟨e', he', hfill⟩ := ih hmarked
        exact ⟨e', mem_append_left _ he', hfill⟩
      · exact ⟨e, mem_append_right _ mem_cons_self, hasFill_of_marked_step e hmarked h⟩

theorem redeliveryKept (start : OrderFlowUseCases) (es : List OrderFlowCall) :
    RedeliveryKept start es := by
  rintro es₁ es₂ now batch id rfl hstored hupdates now'
  unfold applyBatchResult
  rw [lookup_updates hupdates]
  refine lookup_fills ?_
  by_cases hfill : ∃ f ∈ batch.fills, f.orderId = id
  · left
    have hmarked : Marked ((run step start es₁).step
        (.applyBatchResult now batch)) (idemKey batch.batchId id) := by
      unfold Marked step applyBatchResult
      rw [appliedFills_updates]
      exact marked_fills hstored hfill
    rw [run_append]
    exact run_preserves (fun t => Marked t (idemKey batch.batchId id))
      (fun t e ht => ht.step e) hmarked es₂
  · right
    intro f hf hid
    exact hfill ⟨f, hf, hid⟩

end Redelivery

section Remaining

variable {now : Int} {batchId id : String} {s : OrderFlowUseCases} {o : ProtoFlowOrder}

theorem flooredSub_toRat {remaining executed : Decimal}
    (hexact : Decimal.SubExact remaining executed) :
    (flooredSub remaining executed).toRat = max 0 (remaining.toRat - executed.toRat) := by
  have hval := sub_toRat hexact
  have hsign := toRat_nonneg_iff (Decimal.sub remaining executed)
  unfold flooredSub
  dsimp only
  split
  · rw [toRat_zeroAt, max_eq_left]
    rw [← hval]
    by_contra hpos
    have := hsign.mp (not_le.mp hpos).le
    omega
  · rw [hval, max_eq_right]
    rw [← hval, hsign]
    omega

variable {fills : List FlowFill}

section Known

variable (ho : s.orders.lookup id = some o)

include ho

theorem lookup_fills_ignored (hstatus : ignoresFills o.status = true) :
    (run (applyBatchFill now batchId) s fills).orders.lookup id = some o := by
  refine run_preserves (fun t : OrderFlowUseCases => t.orders.lookup id = some o) ?_ ho fills
  intro t f ht
  have houtcome := applyBatchFill_outcome now batchId t f
  generalize applyBatchFill now batchId t f = t' at houtcome
  cases houtcome with
  | skipped _ => exact ht
  | ignored _ _ _ => exact ht
  | applied _ ho' hstatus' =>
      by_cases hid : id = f.orderId
      · rw [← hid, ht] at ho'
        cases ho'
        rw [hstatus] at hstatus'
        cases hstatus'
      · exact (lookup_insert_ne hid).trans ht

theorem lookup_fills_single {f : FlowFill} (hstatus : ignoresFills o.status = false)
    (hnew : ¬ Marked s (idemKey batchId id))
    (hfills : fills.filter (fun f => f.orderId = id) = [f]) :
    (run (applyBatchFill now batchId) s fills).orders.lookup id =
      some (filledOrder now o f.executedQty) := by
  induction fills generalizing s with
  | nil => cases hfills
  | cons g fills ih =>
      rw [run_cons]
      by_cases hid : g.orderId = id
      · rw [filter_cons_of_pos (by simpa using hid)] at hfills
        obtain ⟨rfl, hrest⟩ := List.cons.inj hfills
        subst hid
        have hnone : ∀ f ∈ fills, f.orderId ≠ g.orderId := by
          simpa [filter_eq_nil_iff] using hrest
        rw [lookup_fills (.inr hnone)]
        have houtcome := applyBatchFill_outcome now batchId s g
        generalize applyBatchFill now batchId s g = s' at houtcome
        cases houtcome with
        | skipped hskip =>
            rcases hskip with hmarked | hmissing
            · exact absurd hmarked hnew
            · rw [ho] at hmissing
              cases hmissing
        | ignored _ ho' hstatus' =>
            rw [ho] at ho'
            cases ho'
            rw [hstatus] at hstatus'
            cases hstatus'
        | applied _ ho' _ =>
            rw [ho] at ho'
            cases ho'
            exact lookup_insert _
      · rw [filter_cons_of_neg (by simpa using hid)] at hfills
        refine ih ?_ ?_ hfills
        · rw [lookup_applyBatchFill_ne hid, ho]
        · intro hmarked
          rcases marked_of_applyBatchFill hmarked with hmarked | hkey
          · exact hnew hmarked
          · refine hid ?_
            unfold idemKey at hkey
            simpa using hkey

theorem lookup_fills_open (hopen : o.status ≠ .canceled) :
    ∃ o', (run (applyBatchFill now batchId) s fills).orders.lookup id = some o' ∧
      o'.status ≠ .canceled := by
  refine run_preserves
    (fun t : OrderFlowUseCases => ∃ o', t.orders.lookup id = some o' ∧ o'.status ≠ .canceled)
    ?_ ⟨o, ho, hopen⟩ fills
  rintro t f ⟨o', ho', hopen'⟩
  have houtcome := applyBatchFill_outcome now batchId t f
  generalize applyBatchFill now batchId t f = t' at houtcome
  cases houtcome with
  | skipped _ => exact ⟨o', ho', hopen'⟩
  | ignored _ _ _ => exact ⟨o', ho', hopen'⟩
  | applied _ _ _ =>
      by_cases hid : id = f.orderId
      · subst hid
        refine ⟨_, lookup_insert _, ?_⟩
        unfold filledOrder
        dsimp only
        split
        · exact OrderStatus.noConfusion
        · exact OrderStatus.noConfusion
      · exact ⟨o', (lookup_insert_ne hid).trans ho', hopen'⟩

theorem lookup_updates_canceled {us : List OrderStateUpdate} (hstatus : o.status = .canceled) :
    (run (applyBatchUpdate now) s us).orders.lookup id = some o := by
  refine run_preserves (fun t : OrderFlowUseCases => t.orders.lookup id = some o) ?_ ho us
  intro t u ht
  unfold applyBatchUpdate
  by_cases hid : u.orderId = id
  · rw [hid, ht]
    dsimp only
    rw [if_pos hstatus]
    exact ht
  · cases t.orders.lookup u.orderId with
    | none => exact ht
    | some p =>
        dsimp only
        split
        · exact ht
        · exact (lookup_insert_ne (Ne.symm hid)).trans ht

theorem lookup_updates_single {us : List OrderStateUpdate} {u : OrderStateUpdate}
    (hopen : o.status ≠ .canceled) (hus : us.filter (fun u => u.orderId = id) = [u]) :
    (run (applyBatchUpdate now) s us).orders.lookup id = some (updatedOrder now o u) := by
  induction us generalizing s with
  | nil => cases hus
  | cons v us ih =>
      rw [run_cons]
      by_cases hid : v.orderId = id
      · rw [filter_cons_of_pos (by simpa using hid)] at hus
        obtain ⟨rfl, hrest⟩ := List.cons.inj hus
        subst hid
        have hnone : ∀ u ∈ us, u.orderId ≠ v.orderId := by
          simpa [filter_eq_nil_iff] using hrest
        rw [lookup_updates hnone]
        unfold applyBatchUpdate
        rw [ho]
        dsimp only
        rw [if_neg hopen]
        exact lookup_insert _
      · rw [filter_cons_of_neg (by simpa using hid)] at hus
        exact ih ((lookup_applyBatchUpdate_ne hid).trans ho) hus

theorem remainingAfter_applyBatchResult {batch : BatchResult}
    (hnew : ¬ Marked s (idemKey batch.batchId id)) :
    ∃ o', (applyBatchResult now batch s).orders.lookup id = some o' ∧
      RemainingAfter batch id o o' := by
  have hstored : ((applyBatchResult now batch s).orders.lookup id).isSome = true := by
    refine run_preserves (fun t : OrderFlowUseCases => (t.orders.lookup id).isSome = true)
      (fun t u ht => stored_applyBatchUpdate u ht) ?_ batch.orderUpdates
    refine run_preserves (fun t : OrderFlowUseCases => (t.orders.lookup id).isSome = true)
      (fun t f ht => stored_applyBatchFill f ht) ?_ batch.fills
    rw [ho]
    rfl
  obtain ⟨o', ho'⟩ := Option.isSome_iff_exists.mp hstored
  have hquiet : (∀ u ∈ batch.orderUpdates, u.orderId ≠ id) →
      (run (applyBatchFill now batch.batchId) s batch.fills).orders.lookup id = some o' := by
    intro hnone
    rw [← ho']
    exact (lookup_updates hnone).symm
  refine ⟨o', ho', ?_, ?_, ?_, ?_, ?_⟩
  · intro hcanceled
    have hignored : ignoresFills o.status = true := by
      rw [hcanceled]
      rfl
    have hsame : (applyBatchResult now batch s).orders.lookup id = some o :=
      lookup_updates_canceled (lookup_fills_ignored ho hignored) hcanceled
    rw [ho'] at hsame
    rw [Option.some.inj hsame]
  · intro hopen u r hr hus
    obtain ⟨p, hp, hpopen⟩ := lookup_fills_open ho hopen
    have hlast : (applyBatchResult now batch s).orders.lookup id = some (updatedOrder now p u) :=
      lookup_updates_single hp hpopen hus
    rw [ho'] at hlast
    rw [Option.some.inj hlast]
    simp [updatedOrder, hr]
  · intro hignored hnone
    have hsame := hquiet hnone
    rw [lookup_fills_ignored ho hignored] at hsame
    rw [Option.some.inj hsame]
  · intro hunfilled hnone
    have hsame := hquiet hnone
    rw [lookup_fills (.inr hunfilled), ho] at hsame
    rw [Option.some.inj hsame]
  · intro hopen f hfills hnone
    have hfirst := hquiet hnone
    rw [lookup_fills_single ho hopen hnew hfills] at hfirst
    rw [← Option.some.inj hfirst]
    exact ⟨rfl, fun hexact => flooredSub_toRat hexact⟩

end Known

end Remaining

theorem remainingFollows {start : OrderFlowUseCases} (hstart : start.appliedFills = ∅)
    (es : List OrderFlowCall) : RemainingFollows start es := by
  intro now batch id o ho hfresh
  refine remainingAfter_applyBatchResult ho (fun hmarked => ?_)
  obtain ⟨e, he, hfill⟩ := hasFill_of_marked hstart hmarked
  exact hfresh e he hfill

section Terminal

variable {id : String} {s : OrderFlowUseCases} {o : ProtoFlowOrder}

theorem lookup_create_ne {env : CreateEnv} {p : ProtoFlowOrder} (hne : p.orderId ≠ id) :
    (createFlowOrder env s p).state.orders.lookup id = s.orders.lookup id := by
  have houtcome := createFlowOrder_outcome env s p
  generalize createFlowOrder env s p = a at houtcome
  cases houtcome with
  | stopped _ _ => rfl
  | unpersisted _ _ =>
      dsimp only [refuse]
      rw [lookup_erase_ne hne.symm, lookup_insert_ne hne.symm]
  | accepted _ _ _ => exact lookup_insert_ne hne.symm

variable {now : Int}

theorem lookup_cancel_ne {releaseArrives : Bool} {req : CancelFlowOrderRequest}
    (hne : req.orderId ≠ id) :
    (cancelFlowOrder releaseArrives now s req).state.orders.lookup id = s.orders.lookup id := by
  unfold cancelFlowOrder
  cases s.orders.lookup req.orderId with
  | none => rfl
  | some p => exact lookup_insert_ne hne.symm

theorem lookup_cancel_self {releaseArrives : Bool} {req : CancelFlowOrderRequest}
    (ho : s.orders.lookup req.orderId = some o) :
    (cancelFlowOrder releaseArrives now s req).state.orders.lookup req.orderId =
      some { o with status := .canceled, updatedAt := some now } := by
  unfold cancelFlowOrder
  rw [ho]
  exact lookup_insert _

variable {e : OrderFlowCall}

theorem canceled_step (ho : s.orders.lookup id = some o) (hstatus : o.status = .canceled)
    (hcreate : ¬ e.Creates id) :
    ∃ o', (s.step e).orders.lookup id = some o' ∧
      o'.status = .canceled ∧ o'.remainingQty = o.remainingQty := by
  cases e with
  | create env p => exact ⟨o, (lookup_create_ne hcreate).trans ho, hstatus, rfl⟩
  | cancel releaseArrives now req =>
      by_cases hid : req.orderId = id
      · subst hid
        exact ⟨_, lookup_cancel_self ho, rfl, rfl⟩
      · exact ⟨o, (lookup_cancel_ne hid).trans ho, hstatus, rfl⟩
  | applyBatchResult now batch =>
      have hignored : ignoresFills o.status = true := by
        rw [hstatus]
        rfl
      exact ⟨o, lookup_updates_canceled (lookup_fills_ignored ho hignored) hstatus, hstatus, rfl⟩

theorem ended_step
    (ho : s.orders.lookup id = some o) (hstatus : o.status = .expired ∨ o.status = .rejected)
    (hcall : ¬ e.Creates id ∧ ¬ e.Cancels id ∧ ¬ e.Updates id) :
    (s.step e).orders.lookup id = some o := by
  obtain ⟨hcreate, hcancel, hupdate⟩ := hcall
  cases e with
  | create env p => exact (lookup_create_ne hcreate).trans ho
  | cancel releaseArrives now req => exact (lookup_cancel_ne hcancel).trans ho
  | applyBatchResult now batch =>
      have hignored : ignoresFills o.status = true := by
        rcases hstatus with h | h
        · rw [h]
          rfl
        · rw [h]
          rfl
      have hnone : ∀ u ∈ batch.orderUpdates, u.orderId ≠ id :=
        fun u hu hid => hupdate ⟨u, hu, hid⟩
      exact (lookup_updates hnone).trans (lookup_fills_ignored ho hignored)

def Filled (o : ProtoFlowOrder) : Prop :=
  o.status = .filled ∧ (remainingOf o).units = 0 ∧ Decimal.ScaleOk (remainingOf o)

theorem Filled.filledOrder {executed : Decimal} (h : Filled o) (hscale : Decimal.ScaleOk executed)
    (hnonneg : 0 ≤ executed.toRat) : Filled (filledOrder now o executed) := by
  obtain ⟨-, hzero, hrem⟩ := h
  have hsub := Matching.sub_scaleOk' hrem hscale
  have hunits : (Decimal.sub (remainingOf o) executed).units ≤ 0 := by
    by_contra hpos
    have hlt := Matching.lt_of_sub_pos hrem hscale (by
      rw [lt_iff_le_and_ne, toRat_nonneg_iff, ne_comm, Ne, toRat_eq_zero_iff]
      omega)
    rw [(toRat_eq_zero_iff (remainingOf o)).mpr hzero] at hlt
    exact absurd hnonneg (not_le.mpr hlt)
  have hfloor : (flooredSub (remainingOf o) executed).units = 0 ∧
      Decimal.ScaleOk (flooredSub (remainingOf o) executed) := by
    unfold flooredSub
    dsimp only
    split
    · exact ⟨rfl, hsub⟩
    · exact ⟨by omega, hsub⟩
  refine ⟨?_, hfloor.1, hfloor.2⟩
  unfold OrderFlow.filledOrder
  dsimp only
  rw [if_pos hfloor.1]

theorem filled_applyBatchFill {batchId : String} {f : FlowFill}
    (ho : ∃ o, s.orders.lookup id = some o ∧ Filled o)
    (hfill : f.orderId = id → Decimal.ScaleOk f.executedQty ∧ 0 ≤ f.executedQty.toRat) :
    ∃ o', (applyBatchFill now batchId s f).orders.lookup id = some o' ∧ Filled o' := by
  obtain ⟨o, ho, hfilled⟩ := ho
  by_cases hid : f.orderId = id
  · obtain ⟨hscale, hnonneg⟩ := hfill hid
    subst hid
    have houtcome := applyBatchFill_outcome now batchId s f
    generalize applyBatchFill now batchId s f = s' at houtcome
    cases houtcome with
    | skipped _ => exact ⟨o, ho, hfilled⟩
    | ignored _ _ _ => exact ⟨o, ho, hfilled⟩
    | applied _ ho' _ =>
        rw [ho] at ho'
        cases ho'
        exact ⟨_, lookup_insert _, hfilled.filledOrder hscale hnonneg⟩
  · exact ⟨o, (lookup_applyBatchFill_ne hid).trans ho, hfilled⟩

theorem filled_step (ho : ∃ o, s.orders.lookup id = some o ∧ Filled o)
    (hcall : ¬ e.Creates id ∧ ¬ e.Cancels id ∧ ¬ e.Updates id ∧ e.FillsOk id) :
    ∃ o', (s.step e).orders.lookup id = some o' ∧ Filled o' := by
  obtain ⟨hcreate, hcancel, hupdate, hfills⟩ := hcall
  cases e with
  | create env p =>
      obtain ⟨o, ho, hfilled⟩ := ho
      exact ⟨o, (lookup_create_ne hcreate).trans ho, hfilled⟩
  | cancel releaseArrives now req =>
      obtain ⟨o, ho, hfilled⟩ := ho
      exact ⟨o, (lookup_cancel_ne hcancel).trans ho, hfilled⟩
  | applyBatchResult now batch =>
      have hnone : ∀ u ∈ batch.orderUpdates, u.orderId ≠ id :=
        fun u hu hid => hupdate ⟨u, hu, hid⟩
      unfold step applyBatchResult
      rw [lookup_updates hnone]
      have hfills' : ∀ f ∈ batch.fills, f.orderId = id →
          Decimal.ScaleOk f.executedQty ∧ 0 ≤ f.executedQty.toRat := hfills
      generalize batch.fills = fills at hfills' ⊢
      induction fills generalizing s with
      | nil => exact ho
      | cons f fills ih =>
          exact ih (filled_applyBatchFill ho (hfills' f mem_cons_self))
            (fun g hg => hfills' g (mem_cons_of_mem _ hg))

end Terminal

theorem terminalStays (start : OrderFlowUseCases) (es : List OrderFlowCall) :
    TerminalStays start es := by
  refine ⟨?_, ?_, ?_⟩
  · intro es' id o ho hstatus hcalls
    rw [run_append]
    generalize run step start es = s at ho
    induction es' generalizing s o with
    | nil => exact ⟨o, ho, hstatus, rfl⟩
    | cons e es' ih =>
        obtain ⟨p, hp, hpstatus, hprem⟩ :=
          canceled_step ho hstatus (hcalls e mem_cons_self)
        obtain ⟨o', ho', hstatus', hrem⟩ :=
          ih p hpstatus (fun e he => hcalls e (mem_cons_of_mem _ he)) _ hp
        exact ⟨o', ho', hstatus', hrem.trans hprem⟩
  · intro es' id o ho hstatus hcalls
    rw [run_append]
    generalize run step start es = s at ho
    induction es' generalizing s with
    | nil => exact ho
    | cons e es' ih =>
        exact ih (fun e he => hcalls e (mem_cons_of_mem _ he)) _
          (ended_step ho hstatus (hcalls e mem_cons_self))
  · intro es' id o ho hstatus hzero hscale hcalls
    rw [run_append]
    have hfilled : ∃ o, (run step start es).orders.lookup id = some o ∧ Filled o :=
      ⟨o, ho, hstatus, hzero, hscale⟩
    generalize run step start es = s at hfilled
    induction es' generalizing s with
    | nil =>
        obtain ⟨o', ho', hstatus', hzero', -⟩ := hfilled
        exact ⟨o', ho', hstatus', hzero'⟩
    | cons e es' ih =>
        exact ih (fun e he => hcalls e (mem_cons_of_mem _ he)) _
          (filled_step hfilled (hcalls e mem_cons_self))

def demoHalf (batchId : String) (orderUpdates : List OrderStateUpdate) : BatchResult where
  batchId
  fills :=
    [{ orderId := demoCreate.orderId
       userId := demoCreate.userId
       instrument := demoCreate.instrument
       side := .buy
       executedQty := Decimal.of 5 1
       price := some (Decimal.of 100 0)
       executedNotional := Decimal.of 50 0 }]
  orderUpdates

/-- The update that goes with the first half. -/
def demoHalfUpdate : OrderStateUpdate where
  orderId := demoCreate.orderId
  status := .partiallyFilled
  remainingQty := some (Decimal.of 5 1)

/-- The status and the remaining quantity of the demo order after some calls. -/
def demoAfter (es : List OrderFlowCall) : Option (OrderStatus × Decimal) :=
  ((run OrderFlowUseCases.step demoStart es).orders.lookup demoCreate.orderId).map
    (fun o => (o.status, remainingOf o))

/-- A fill of a cancelled order is not subtracted; a batch with an update reopens the
order when it is delivered again; a cancel takes a filled order out of its status. -/
theorem stated_rules_fail :
    demoAfter [.create {} demoCreate, .cancel true 0 { orderId := demoCreate.orderId },
        .applyBatchResult 0 (demoHalf "b1" [])] = some (.canceled, Decimal.of 1 0) ∧
      demoAfter [.create {} demoCreate, .applyBatchResult 0 (demoHalf "b1" [demoHalfUpdate]),
        .applyBatchResult 0 (demoHalf "b2" [])] = some (.filled, Decimal.of 0 1) ∧
      demoAfter [.create {} demoCreate, .applyBatchResult 0 (demoHalf "b1" [demoHalfUpdate]),
        .applyBatchResult 0 (demoHalf "b2" []),
        .applyBatchResult 0 (demoHalf "b1" [demoHalfUpdate])] =
          some (.partiallyFilled, Decimal.of 5 1) ∧
      demoAfter [.create {} demoCreate, .applyBatchResult 0 (demoHalf "b1" []),
        .applyBatchResult 0 (demoHalf "b2" []),
        .cancel true 0 { orderId := demoCreate.orderId }] = some (.canceled, Decimal.of 0 1) := by
  refine ⟨by decide, by decide, by decide, by decide⟩

/-- What holds of every run of the service, over any ledger and any rows. -/
theorem batches_applied
    (ledger : LedgerUseCases) (repo : Option Matching.FlowOrderRows) (es : List OrderFlowCall) :
    BatchesApplied { ledger, flowOrderRepo := repo } es where
  redelivery := redeliveryKept _ es
  remaining := remainingFollows rfl es
  terminal := terminalStays _ es

end OrderFlow
end ContExchange
