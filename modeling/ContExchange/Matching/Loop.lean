import ContExchange.Matching.Fills
import ContExchange.Matching.OrderEvents

/-!
# Matching: the matching loop over single-leg orders

`MatchingLoop` handles order events and, at every tick, runs a batch
(`run_one_batch` without the grouped part).  Without a repository the batch works
on the active orders in memory; with one it works on the rows that are loaded,
and the deltas of a published batch go back to the rows in a second step that
can fail on its own.  Order flow inserts the rows.

A batch comes with everything the loop does not decide: the clock, the answer of
the numeric backend, the external liquidity and which of the calls to the
repository and to the broker succeed.
-/

namespace ContExchange
namespace Matching

open Common Lib AList List Option

/-- What the solver meets in a batch: its configuration and prices, the answer of
the backend, and the order in which the hash map hands over the orders. -/
structure SolverRun where
  batchIntervalMs : ℕ := 1000
  referencePrices : Table String Decimal := ∅
  answer : List FlowOrder → Option SolverAnswer := fun _ => none
  throws : Bool := false
  arrange : List FlowOrder → List FlowOrder := id
  arrange_perm : ∀ orders, (arrange orders).Perm orders := by exact fun _ => .rfl

/-- `solver_.Solve` on the snapshot of a batch. -/
def SolverRun.solve
    (r : SolverRun) (externalLiquidity : ExternalLiquidityBySymbol) (orders : List FlowOrder) :
    Option BatchResult :=
  if r.throws then none
  else
    some (Matching.solve
      { batchIntervalMs := r.batchIntervalMs
        orders := r.arrange orders
        referencePrices := r.referencePrices
        externalLiquidity
        answer := r.answer (r.arrange orders) })

/-- A tick of the batch timer, at an instant in seconds. -/
structure BatchRun where
  batchId : String
  batchTime : Int
  solver : SolverRun
  externalLiquidity : ExternalLiquidityBySymbol := ∅
  loads : Bool := true
  publishes : Bool := true
  persists : Bool := true

/-- An event of the loop; `insertRow` is the write of order flow. -/
inductive LoopEvent where
  | order (now : Int) (e : OrderEvent)
  | insertRow (now : Int) (order : ProtoFlowOrder)
  | batch (b : BatchRun)

/-- The loop: the active orders in memory, the rows of the database and the
batches that are published so far. -/
structure Loop where
  active : ActiveOrders
  rows : FlowOrderRows
  batches : List BatchResult

def mapRepoOrders (orders : List FlowOrder) : ActiveOrders :=
  orders.foldl (fun m order => m.insert order.orderId order) ∅

namespace Loop

variable (repo : Bool)

/-- The orders of a batch; `none` when the load throws. -/
def source (s : Loop) (b : BatchRun) : Option ActiveOrders :=
  if repo then
    if b.loads then (loadActiveFlowOrders b.batchTime s.rows).map mapRepoOrders else none
  else some s.active

/-- The orders that a batch passes to the solver. -/
def solverOrders (s : Loop) (b : BatchRun) : List FlowOrder :=
  match s.source repo b with
  | none => []
  | some orders => snapshotActiveOrders orders

/-- `run_batch_uc_.Execute` on the orders of a batch. -/
def runBatch (b : BatchRun) (orders : ActiveOrders) : RunBatchResult × ActiveOrders :=
  execute (b.solver.solve b.externalLiquidity) (fun _ => b.publishes) b.batchId
    b.externalLiquidity orders

/-- The rows after an executed batch: unchanged when nothing is to be added or
the update throws. -/
def persist (s : Loop) (b : BatchRun) (deltas : List OrderFillDelta) : FlowOrderRows :=
  if deltas.isEmpty || !b.persists then s.rows
  else (updateFilledVolumes deltas s.rows).getD s.rows

/-- The end of `run_one_batch`. -/
def finishBatch (s : Loop) (b : BatchRun) (r : RunBatchResult × ActiveOrders) : Loop :=
  { active := if repo then s.active else r.2
    rows := if repo ∧ r.1.status = .executed then s.persist b r.1.fillDeltas else s.rows
    batches := if r.1.status = .executed then s.batches ++ [r.1.batch] else s.batches }

def step (s : Loop) : LoopEvent → Loop
  | .order now e => { s with active := onOrderEvent now s.active e }
  | .insertRow now order =>
      { s with rows := (insertFlowOrder now order s.rows).getD s.rows }
  | .batch b =>
      match s.source repo b with
      | none => s
      | some orders => s.finishBatch repo b (runBatch b orders)

def start : Loop :=
  { active := ∅, rows := ∅, batches := [] }

end Loop

section Solver

theorem order_of_mem_fillArgs {inp : SolveInput} {a : FillArgs} (h : a ∈ fillArgs inp) :
    a.order ∈ inp.orders := by
  obtain ⟨totals, hlength, hlegs⟩ :=
    emitFrom_legs inp.externalLiquidity (fun _ => 0) (allocate inp).fills
  rw [fillArgs, hlegs] at h
  obtain ⟨⟨consumed, p⟩, hzip, ha⟩ := mem_flatMap.mp h
  have hp : p ∈ (allocate inp).fills := (of_mem_zip hzip).2
  have horder : a.order = p.order := by
    rcases mem_append.mp ha with hin | hout
    · rw [(source_of_mem_internalArgs hin).2]
    · simp only [externalArgs] at hout
      split at hout
      · cases hout
      · split at hout
        · cases hout
        · rw [mem_singleton.mp hout]
  obtain ⟨p₀, hp₀, -, hplan⟩ := allocated_of_mem hp
  rw [horder, order_of_plan hplan]
  exact mem_of_getElem? hp₀.order

theorem order_of_mem_fills {inp : SolveInput} {f : FlowFill} (h : f ∈ (solve inp).fills) :
    ∃ o ∈ inp.orders, o.orderId = f.orderId := by
  obtain ⟨a, ha, hadd⟩ := mem_filterMap.mp h
  refine ⟨a.order, order_of_mem_fillArgs ha, ?_⟩
  rw [addFill] at hadd
  split at hadd
  · cases hadd
  · cases hadd
    rfl

variable {r : SolverRun} {externalLiquidity : ExternalLiquidityBySymbol}
  {orders : List FlowOrder} {result : BatchResult}

theorem solve_of_run (h : r.solve externalLiquidity orders = some result) :
    ∃ inp : SolveInput, inp.orders.Perm orders ∧ inp.externalLiquidity = externalLiquidity ∧
      result = Matching.solve inp := by
  rw [SolverRun.solve] at h
  split at h
  · cases h
  · exact ⟨_, r.arrange_perm orders, rfl, (Option.some.inj h).symm⟩

theorem order_of_mem_run (h : r.solve externalLiquidity orders = some result) {f : FlowFill}
    (hf : f ∈ result.fills) : ∃ o ∈ orders, o.orderId = f.orderId := by
  obtain ⟨inp, hperm, -, rfl⟩ := solve_of_run h
  obtain ⟨o, ho, hid⟩ := order_of_mem_fills hf
  exact ⟨o, hperm.mem_iff.mp ho, hid⟩

end Solver

section Source

theorem mem_of_mapM {α β : Type} {f : α → Option β} {xs : List α} {ys : List β}
    (h : xs.mapM f = some ys) {y : β} (hy : y ∈ ys) : ∃ x ∈ xs, f x = some y := by
  induction xs generalizing ys with
  | nil =>
      rw [mapM_nil] at h
      cases h
      cases hy
  | cons x xs ih =>
      simp only [mapM_cons, bind_eq_bind, bind_eq_some_iff] at h
      obtain ⟨z, hz, zs, hzs, hys⟩ := h
      cases hys
      rcases mem_cons.mp hy with rfl | hy'
      · exact ⟨x, mem_cons_self, hz⟩
      · obtain ⟨x', hx', hf⟩ := ih hzs hy'
        exact ⟨x', mem_cons_of_mem _ hx', hf⟩

theorem row_of_mem_loaded {asOf : Int} {rows : FlowOrderRows} {orders : List FlowOrder}
    (h : loadActiveFlowOrders asOf rows = some orders) {o : FlowOrder} (ho : o ∈ orders) :
    ∃ row, rows.lookup o.orderId = some row ∧ row.loadable asOf = true ∧ row.Loads o.orderId o := by
  obtain ⟨r, hr, hload⟩ := mem_of_mapM h ho
  obtain ⟨hmem, hloadable⟩ := mem_filter.mp hr
  have hloads := loads_of_load hload
  have hid : o.orderId = r.1 := hloads.orderId_eq
  rw [hid]
  exact ⟨r.2, mem_lookup_iff.mpr hmem, hloadable, hloads⟩

theorem lookup_mapRepoOrders {orders : List FlowOrder} {orderId : String} {o : FlowOrder}
    (h : (mapRepoOrders orders).lookup orderId = some o) : o ∈ orders ∧ o.orderId = orderId := by
  have hfold : ∀ (orders : List FlowOrder) (m : ActiveOrders),
      (orders.foldl (fun m order => m.insert order.orderId order) m).lookup orderId = some o →
        (o ∈ orders ∧ o.orderId = orderId) ∨ m.lookup orderId = some o := by
    intro orders
    induction orders with
    | nil => exact fun m h => .inr h
    | cons p ps ih =>
        intro m hm
        rcases ih _ hm with ⟨hmem, hid⟩ | hlookup
        · exact .inl ⟨mem_cons_of_mem _ hmem, hid⟩
        · dsimp only at hlookup
          by_cases hp : p.orderId = orderId
          · rw [hp, lookup_insert] at hlookup
            cases hlookup
            exact .inl ⟨mem_cons_self, hp⟩
          · rw [lookup_insert_ne (Ne.symm hp)] at hlookup
            exact .inr hlookup
  rcases hfold orders ∅ h with hmem | hnone
  · exact hmem
  · rw [lookup_empty] at hnone
    cases hnone

theorem keyedById_mapRepoOrders (orders : List FlowOrder) : KeyedById (mapRepoOrders orders) :=
  fun _ _ h => (lookup_mapRepoOrders h).2

end Source

section Keyed

variable {active : ActiveOrders}

theorem KeyedById.insert {o : FlowOrder} (h : KeyedById active) {orderId : String}
    (ho : o.orderId = orderId) : KeyedById (active.insert orderId o) := by
  intro k p hp
  by_cases hk : k = orderId
  · rw [hk, lookup_insert] at hp
    cases hp
    rw [ho, hk]
  · rw [lookup_insert_ne hk] at hp
    exact h k p hp

theorem KeyedById.erase
    (h : KeyedById active) (orderId : String) : KeyedById (active.erase orderId) := by
  intro k p hp
  by_cases hk : k = orderId
  · rw [hk, lookup_erase] at hp
    cases hp
  · rw [lookup_erase_ne hk] at hp
    exact h k p hp

theorem KeyedById.onOrderEvent (h : KeyedById active) (now : Int) (e : OrderEvent) :
    KeyedById (onOrderEvent now active e) := by
  cases e with
  | create order => exact h.insert rfl
  | cancel orderId => exact h.erase orderId
  | amend a =>
      rw [Matching.onOrderEvent]
      cases hlookup : active.lookup a.orderId with
      | none => exact h
      | some o => exact h.insert (h a.orderId o hlookup)

theorem KeyedById.applyOrderUpdates (h : KeyedById active) (updates : List OrderStateUpdate) :
    KeyedById (applyOrderUpdates updates active) := by
  have hfold : KeyedById (updates.foldl updateActiveOrder active) := by
    induction updates generalizing active with
    | nil => exact h
    | cons u us ih =>
        refine ih ?_
        rw [updateActiveOrder]
        cases hlookup : active.lookup u.orderId with
        | none => exact h
        | some o =>
            dsimp only
            split
            · exact h.erase u.orderId
            · exact h.insert (h u.orderId o hlookup)
  intro k p hp
  rw [Matching.applyOrderUpdates, Table.lookup_filter, filter_eq_some_iff] at hp
  exact hfold k p hp.1

end Keyed

section Batch

variable {repo : Bool} {s : Loop} {b : BatchRun} {orders : ActiveOrders}

theorem runBatch_cases (b : BatchRun) (orders : ActiveOrders) :
    (Loop.runBatch b orders).1.status ≠ .executed ∧ (Loop.runBatch b orders).2 = orders ∨
      ∃ result, b.solver.solve b.externalLiquidity (snapshotActiveOrders orders) = some result ∧
        (Loop.runBatch b orders).1.status = .executed ∧
        (Loop.runBatch b orders).1.batch =
          publishedBatch b.batchId b.externalLiquidity (snapshotActiveOrders orders) result ∧
        (Loop.runBatch b orders).1.fillDeltas = fillDeltas (Loop.runBatch b orders).1.batch.fills ∧
        (Loop.runBatch b orders).2 = applyOrderUpdates result.orderUpdates orders := by
  rw [Loop.runBatch, execute]
  dsimp only
  split
  · exact .inl ⟨by simp, rfl⟩
  · split
    · exact .inl ⟨by simp, rfl⟩
    · rename_i result hsolve
      split
      · exact .inl ⟨by simp, rfl⟩
      · exact .inr ⟨result, hsolve, rfl, rfl, rfl, rfl⟩

theorem order_of_mem_published {batchId : String} {externalLiquidity : ExternalLiquidityBySymbol}
    {snapshot : List FlowOrder} {result : BatchResult} {f : FlowFill}
    (hf : f ∈ (publishedBatch batchId externalLiquidity snapshot result).fills) :
    ∃ g ∈ result.fills, g.orderId = f.orderId := by
  obtain ⟨g, hg, rfl⟩ := mem_map.mp hf
  have hrel : List.Forall₂ (fun p q : FlowFill => q.orderId = p.orderId) result.fills
      (capFillsAgainstRemaining snapshot result.fills) := by
    refine (forEach_rel (fun _ => True) (fun p q : FlowFill => q.orderId = p.orderId) ?_
      (fun _ _ => rfl) trivial _).2
    intro applied p _ _
    refine ⟨trivial, ?_⟩
    rw [capFill]
    split
    · rfl
    · exact capOne_orderId _ _ _
  obtain ⟨p, hp, hid⟩ := exists_of_mem_forall₂ hrel hg
  exact ⟨p, hp, hid.symm⟩

end Batch

end Matching
end ContExchange
