import ContExchange.Matching.Loop

/-!
# Matching: an order after its cancel

The cancel of an order reaches matching as an event that removes the order from
memory, and order flow releases its reservation right after.  This module
follows the order from there on.

`cancel_final`: no later batch passes the order to the solver or publishes a fill
of it, as long as no create of it is delivered again in memory mode, and as long
as its row was already closed at the cancel in repository mode.  Nothing closes
the row of a cancelled order, and a create that is delivered again brings the
order back (`cancelled_order_is_solved`).
-/

namespace ContExchange
namespace Matching

open Common Lib AList FlowOrderRow Loop

/-- The loader never takes the row again: IOC orders are excluded, and so are
orders without a remaining volume. -/
def FlowOrderRow.Closed (row : FlowOrderRow) : Prop :=
  row.timeInForce = .ioc ∨ row.qMax.units ≤ row.filledCum.units

def RowClosed (orderId : String) (rows : FlowOrderRows) : Prop :=
  ∃ row, rows.lookup orderId = some row ∧ row.Closed

/-- What an event after the cancel has to meet in memory mode: it is no create of
the order. -/
def NoRecreate (repo : Bool) (orderId : String) (_ : Loop) : LoopEvent → Prop
  | .order _ (.create order) => repo = false → order.orderId ≠ orderId
  | _ => True

section Cancel

variable {repo : Bool} {orderId : String} {s : Loop}

/-- An order that no batch can take: it is not in memory, or its row is closed. -/
def Gone (repo : Bool) (orderId : String) (s : Loop) : Prop :=
  if repo then RowClosed orderId s.rows
  else KeyedById s.active ∧ s.active.lookup orderId = none

theorem not_loadable_of_closed
    {row : FlowOrderRow} (h : row.Closed) (asOf : Int) : row.loadable asOf = false := by
  rcases h with hioc | hfull
  · simp [loadable, hioc]
  · have hnot : ¬ row.filledCum.units < row.qMax.units := not_lt.mpr hfull
    simp [loadable, hnot]

theorem lookup_source_of_gone {b : BatchRun} {orders : ActiveOrders} (hgone : Gone repo orderId s)
    (h : s.source repo b = some orders) : KeyedById orders ∧ orders.lookup orderId = none := by
  cases repo with
  | false =>
      cases h
      exact hgone
  | true =>
      obtain ⟨row, hrow, hclosed⟩ := hgone
      simp only [source, if_true] at h
      split at h
      · obtain ⟨loaded, hload, rfl⟩ := Option.map_eq_some_iff.mp h
        refine ⟨keyedById_mapRepoOrders loaded, ?_⟩
        cases hlookup : (mapRepoOrders loaded).lookup orderId with
        | none => rfl
        | some o =>
            obtain ⟨hmem, rfl⟩ := lookup_mapRepoOrders hlookup
            obtain ⟨row', hrow', hloadable, -⟩ := row_of_mem_loaded hload hmem
            rw [hrow] at hrow'
            cases hrow'
            rw [not_loadable_of_closed hclosed] at hloadable
            cases hloadable
      · cases h

theorem batch_of_gone {b : BatchRun} (hgone : Gone repo orderId s) :
    (∀ o ∈ s.solverOrders repo b, o.orderId ≠ orderId) ∧
      ∀ orders, s.source repo b = some orders →
        (runBatch b orders).1.status = .executed →
          ∀ f ∈ (runBatch b orders).1.batch.fills, f.orderId ≠ orderId := by
  constructor
  · intro o ho hid
    rw [solverOrders] at ho
    split at ho
    · cases ho
    · rename_i orders hsource
      obtain ⟨hkeyed, hnone⟩ := lookup_source_of_gone hgone hsource
      have := lookup_of_mem_snapshot hkeyed ho
      rw [hid, hnone] at this
      cases this
  · intro orders hsource hexec f hf hid
    obtain ⟨hkeyed, hnone⟩ := lookup_source_of_gone hgone hsource
    rcases runBatch_cases b orders with ⟨hnot, -⟩ | ⟨result, hsolve, -, hbatch, -, -⟩
    · exact hnot hexec
    · rw [hbatch] at hf
      obtain ⟨g, hg, hgid⟩ := order_of_mem_published hf
      obtain ⟨o, ho, hoid⟩ := order_of_mem_run hsolve hg
      have := lookup_of_mem_snapshot hkeyed ho
      rw [hoid, hgid, hid, hnone] at this
      cases this

theorem rowClosed_insert {now : Int} {order : ProtoFlowOrder} {rows : FlowOrderRows}
    (h : RowClosed orderId rows) :
    RowClosed orderId ((insertFlowOrder now order rows).getD rows) := by
  obtain ⟨row, hrow, hclosed⟩ := h
  have hleg : ∀ (old : FlowOrderRow) (leg : FlowOrderLegRow), old.Closed →
      (old.insertLeg leg).Closed := by
    intro old leg hold
    rw [insertLeg]
    split
    · exact hold
    · exact hold
  simp only [insertFlowOrder]
  split
  · exact ⟨row, hrow, hclosed⟩
  · split
    · exact ⟨row, hrow, hclosed⟩
    · by_cases hid : orderId = order.orderId
      · subst hid
        rw [hrow]
        refine ⟨_, lookup_insert _, ?_⟩
        exact hleg row _ hclosed
      · split
        · exact ⟨row, (lookup_insert_ne hid).trans hrow, hclosed⟩
        · exact ⟨row, (lookup_insert_ne hid).trans hrow, hclosed⟩

theorem exists_fill_of_delta {fills : List FlowFill} {delta : OrderFillDelta}
    (h : delta ∈ fillDeltas fills) : ∃ f ∈ fills, f.orderId = delta.orderId := by
  rw [mem_fillDeltas] at h
  cases hfills : fillsOf delta.orderId fills with
  | nil =>
      rw [hfills] at h
      cases h
  | cons f fs =>
      have hf : f ∈ fillsOf delta.orderId fills := by
        rw [hfills]
        exact List.mem_cons_self
      obtain ⟨hmem, hid⟩ := List.mem_filter.mp hf
      exact ⟨f, hmem, by simpa using hid⟩

theorem gone_step {e : LoopEvent} (hgone : Gone repo orderId s)
    (hok : NoRecreate repo orderId s e) : Gone repo orderId (s.step repo e) := by
  cases e with
  | order now e =>
      cases repo with
      | true => exact hgone
      | false =>
          obtain ⟨hkeyed, hnone⟩ := hgone
          refine ⟨hkeyed.onOrderEvent now e, ?_⟩
          cases e with
          | create order =>
              exact (lookup_insert_ne (hok rfl).symm).trans hnone
          | cancel id =>
              show (s.active.erase id).lookup orderId = none
              by_cases hid : orderId = id
              · rw [hid, lookup_erase]
              · rw [lookup_erase_ne hid, hnone]
          | amend a =>
              show (onOrderEvent now s.active (.amend a)).lookup orderId = none
              rw [onOrderEvent]
              cases hlookup : s.active.lookup a.orderId with
              | none => exact hnone
              | some o =>
                  have hne : orderId ≠ a.orderId := by
                    rintro rfl
                    rw [hnone] at hlookup
                    cases hlookup
                  exact (lookup_insert_ne hne).trans hnone
  | insertRow now order =>
      cases repo with
      | true => exact rowClosed_insert hgone
      | false => exact hgone
  | batch b =>
      rw [step]
      cases hsource : s.source repo b with
      | none => exact hgone
      | some orders =>
          obtain ⟨hkeyed, hnone⟩ := lookup_source_of_gone hgone hsource
          have hfills := (batch_of_gone (b := b) hgone).2 orders hsource
          cases repo with
          | true =>
              obtain ⟨row, hrow, hclosed⟩ := hgone
              refine ⟨row, ?_, hclosed⟩
              simp only [finishBatch, true_and]
              rcases runBatch_cases b orders with ⟨hnot, -⟩ | ⟨result, -, hexec, -, hdeltas, -⟩
              · rw [if_neg hnot, hrow]
              · have hne : ∀ delta ∈ (runBatch b orders).1.fillDeltas, delta.orderId ≠ orderId := by
                  intro delta hdelta hid
                  rw [hdeltas] at hdelta
                  obtain ⟨f, hf, hfid⟩ := exists_fill_of_delta hdelta
                  exact hfills hexec f hf (hfid.trans hid)
                rw [if_pos hexec, persist]
                split
                · exact hrow
                · cases hupdate : updateFilledVolumes (runBatch b orders).1.fillDeltas s.rows with
                  | none => exact hrow
                  | some rows' =>
                      exact (lookup_updateFilledVolumes_of_ne hupdate hne).trans hrow
          | false =>
              have hactive : s.active = orders := Option.some.inj hsource
              refine ⟨?_, ?_⟩
              · show KeyedById (runBatch b orders).2
                rcases runBatch_cases b orders with ⟨-, hsame⟩ | ⟨result, -, -, -, -, hafter⟩
                · rw [hsame]
                  exact hkeyed
                · rw [hafter]
                  exact hkeyed.applyOrderUpdates _
              · show (runBatch b orders).2.lookup orderId = none
                rcases runBatch_cases b orders with ⟨-, hsame⟩ | ⟨result, -, -, -, -, hafter⟩
                · rw [hsame, hnone]
                · rw [hafter, applyOrderUpdates, Table.lookup_filter,
                    lookup_foldl_updates_none hnone]
                  rfl

theorem keyedById_run (es : List LoopEvent) :
    KeyedById (run (step repo) start es).active := by
  refine run_preserves (fun s : Loop => KeyedById s.active) ?_ ?_ es
  · intro s e hkeyed
    cases e with
    | order now e => exact hkeyed.onOrderEvent now e
    | insertRow now order => exact hkeyed
    | batch b =>
        rw [step]
        cases hsource : s.source repo b with
        | none => exact hkeyed
        | some orders =>
            cases repo with
            | true => exact hkeyed
            | false =>
                have hactive : s.active = orders := Option.some.inj hsource
                subst hactive
                show KeyedById (runBatch b s.active).2
                rcases runBatch_cases b s.active with ⟨-, hsame⟩ | ⟨result, -, -, -, -, hafter⟩
                · rw [hsame]
                  exact hkeyed
                · rw [hafter]
                  exact hkeyed.applyOrderUpdates _
  · intro k o h
    cases h

/-- After the cancel of an order no batch passes it to the solver, and no batch
that is executed has a fill of it: in memory mode when no create of it is
handled after the cancel, in repository mode when its row was closed. -/
theorem cancel_final
    {es fs : List LoopEvent} {now : Int}
    (hclosed : repo = true → RowClosed orderId (run (Loop.step repo) Loop.start es).rows)
    (hmeet : StepsMeet (Loop.step repo) (NoRecreate repo orderId)
      (run (Loop.step repo) Loop.start (es ++ [.order now (.cancel orderId)])) fs)
    (b : BatchRun) :
    (∀ o ∈ (run (Loop.step repo) Loop.start
        (es ++ .order now (.cancel orderId) :: fs)).solverOrders repo b, o.orderId ≠ orderId) ∧
      ∀ orders, (run (Loop.step repo) Loop.start
          (es ++ .order now (.cancel orderId) :: fs)).source repo b = some orders →
        (Loop.runBatch b orders).1.status = .executed →
          ∀ f ∈ (Loop.runBatch b orders).1.batch.fills, f.orderId ≠ orderId := by
  have hcancel : Gone repo orderId
      (run (Loop.step repo) Loop.start (es ++ [.order now (.cancel orderId)])) := by
    rw [run_append, run_cons, run_nil]
    cases repo with
    | true => exact hclosed rfl
    | false => exact ⟨(keyedById_run es).erase orderId, AList.lookup_erase _ _⟩
  have hgone := run_invariant (Gone repo orderId) (fun _ _ => gone_step) hcancel hmeet
  rw [← run_append, List.append_assoc, List.singleton_append] at hgone
  exact batch_of_gone hgone

end Cancel

def clientTerms (orderId : String) (side : Side) (tif : TimeInForce) : ProtoFlowOrder :=
  { orderId
    userId := orderId
    instrument := { symbol := "BTC/USDT", base := "BTC", quote := "USDT" }
    side
    priceLow := some (Decimal.of 90 0)
    priceHigh := some (Decimal.of 110 0)
    maxSpeed := some (Decimal.of 1 0)
    totalQty := some (Decimal.of 10 0)
    tif
    status := .new }

/-- A batch one second later in which every call succeeds. -/
def tick : BatchRun :=
  { batchId := "b1", batchTime := 1, solver := {} }

def accept (t : ProtoFlowOrder) : List LoopEvent :=
  [.insertRow 0 t, .order 0 (.create t)]

/-- The fills of a batch after some events, by order. -/
def filledIds (repo : Bool) (es : List LoopEvent) : Option (List String) :=
  ((run (Loop.step repo) Loop.start es).source repo tick).map (fun orders =>
    (Loop.runBatch tick orders).1.batch.fills.map FlowFill.orderId)

/-- An order that is filled at once or not at all is not taken by a batch after
its cancel, whatever is delivered again. -/
theorem ioc_cancel_final :
    (∀ o ∈ (run (Loop.step true) Loop.start
        (accept (clientTerms "o1" .buy .ioc) ++ .order 0 (.cancel "o1") ::
          [.order 0 (.create (clientTerms "o1" .buy .ioc)), .batch tick])).solverOrders true tick,
      o.orderId ≠ "o1") ∧
      ∀ orders, (run (Loop.step true) Loop.start
          (accept (clientTerms "o1" .buy .ioc) ++ .order 0 (.cancel "o1") ::
            [.order 0 (.create (clientTerms "o1" .buy .ioc)), .batch tick])).source true tick =
          some orders →
        (Loop.runBatch tick orders).1.status = .executed →
          ∀ f ∈ (Loop.runBatch tick orders).1.batch.fills, f.orderId ≠ "o1" := by
  have hclosed : RowClosed "o1"
      (run (Loop.step true) Loop.start (accept (clientTerms "o1" .buy .ioc))).rows :=
    ⟨insertedRow 0 (clientTerms "o1" .buy .ioc), by decide +kernel, .inl rfl⟩
  refine cancel_final (fun _ => hclosed) ?_ tick
  refine ⟨?_, trivial, trivial⟩
  intro h
  cases h

/-- A cancelled order is filled: in repository mode its row is still active, and
in memory mode the create is delivered again. -/
theorem cancelled_order_is_solved :
    filledIds true (accept (clientTerms "o1" .buy .gtc) ++ accept (clientTerms "o2" .sell .gtc) ++
        [.order 0 (.cancel "o1")]) = some ["o1", "o2"] ∧
      filledIds false (accept (clientTerms "o1" .buy .gtc) ++
        accept (clientTerms "o2" .sell .gtc) ++
          [.order 0 (.cancel "o1"), .order 0 (.create (clientTerms "o1" .buy .gtc))]) =
        some ["o1", "o2"] := by
  decide +kernel

end Matching
end ContExchange
