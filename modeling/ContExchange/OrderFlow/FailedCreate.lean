import ContExchange.OrderFlow.FlowOrders

/-!
# Order flow: failed and repeated creates

A reservation carries the id of its order, and the ledger answers a second reserve
under an id with success.  So a create with the id of an existing order passes the
ledger, replaces the order, and a failing insert then undoes what belongs to the
first request.

* `Harmless`: a create that is not accepted leaves the orders, the reservations and
  the rows that were there, and a create with the id of an existing order leaves its
  remaining quantity, its status and its reservation and announces nothing;
* `createFlowOrder_harmless_iff`: it is harmless exactly when it is stopped before
  the order is stored, or its id belongs to no order and the reserve is its own, kept,
  or not given back.
-/

namespace ContExchange
namespace OrderFlow

open Common Lib AList
open Matching (ProtoFlowOrder FlowOrderRows OrderEvent)
open Ledger (LedgerUseCases LedgerError Reservation releaseFunds)

/-- Every order and every reservation is still there, and the rows are the same. -/
structure KeepsExisting (s s' : OrderFlowUseCases) : Prop where
  orders : ∀ id o, s.orders.lookup id = some o → s'.orders.lookup id = some o
  reservations : ∀ id r, s.ledger.reservations.lookup id = some r →
    s'.ledger.reservations.lookup id = some r
  rows : s'.flowOrderRepo = s.flowOrderRepo

/-- An existing order keeps its remaining quantity, its status and its reservation,
and no create event goes out for it. -/
structure KeepsOrder (s : OrderFlowUseCases) (id : String)
    (a : Answer CreateFlowOrderResponse) : Prop where
  order : ∀ old, s.orders.lookup id = some old →
    ∃ new, a.state.orders.lookup id = some new ∧
      new.remainingQty = old.remainingQty ∧ new.status = old.status
  reservation : ∀ r, s.ledger.reservations.lookup id = some r →
    a.state.ledger.reservations.lookup id = some r
  published : ∀ stored, OrderEvent.create stored ∈ a.published → stored.orderId ≠ id

/-- A create does no harm: a failed one leaves everything, a repeated one leaves the
order. -/
structure Harmless (s : OrderFlowUseCases) (o : ProtoFlowOrder)
    (a : Answer CreateFlowOrderResponse) : Prop where
  refused : a.response.accepted = false → KeepsExisting s a.state
  repeated : (s.orders.lookup o.orderId).isSome → KeepsOrder s o.orderId a

section Effects

variable {env : CreateEnv} {s : OrderFlowUseCases} {o : ProtoFlowOrder}

theorem harmless_refuse {led : LedgerUseCases} {error : Option LedgerError}
    (hled : led = s.ledger ∨ led = reservedLedger s.ledger o) :
    Harmless s o (refuse { s with ledger := led } error) := by
  have hkeeps : ∀ id r, s.ledger.reservations.lookup id = some r →
      led.reservations.lookup id = some r := by
    intro id r hr
    rcases hled with rfl | rfl
    · exact hr
    · exact lookup_reservedLedger_of_some hr
  constructor
  · intro _
    exact ⟨fun _ _ h => h, hkeeps, rfl⟩
  · intro _
    refine ⟨fun old hold => ⟨old, hold, rfl, rfl⟩, hkeeps o.orderId, ?_⟩
    intro stored hmem
    cases hmem

theorem lookup_releaseFunds (led : LedgerUseCases) (released id : String) :
    (releaseFunds led released).reservations.lookup id =
      if id = released then none else led.reservations.lookup id := by
  unfold releaseFunds
  by_cases hid : id = released
  · subst hid
    rw [if_pos rfl]
    cases hr : led.reservations.lookup id with
    | none => exact hr
    | some r => exact lookup_erase id _
  · rw [if_neg hid]
    cases led.reservations.lookup released with
    | none => rfl
    | some r => exact lookup_erase_ne hid

theorem keeps_release_iff :
    (∀ id r, s.ledger.reservations.lookup id = some r →
        (ledgerRelease env.releaseArrives (reservedLedger s.ledger o)
          o.orderId).reservations.lookup id = some r) ↔
      s.ledger.reservations.lookup o.orderId = none ∨ env.releaseArrives = false := by
  unfold ledgerRelease
  cases env.releaseArrives with
  | false =>
      refine iff_of_true (fun id r hr => lookup_reservedLedger_of_some hr) (.inr rfl)
  | true =>
      simp only [if_true, lookup_releaseFunds, Bool.true_eq_false, or_false]
      constructor
      · intro h
        cases hr : s.ledger.reservations.lookup o.orderId with
        | none => rfl
        | some r =>
            have hgone := h o.orderId r hr
            rw [if_pos rfl] at hgone
            cases hgone
      · intro hnone id r hr
        have hne : o.orderId ≠ id := by
          rintro rfl
          rw [hnone] at hr
          cases hr
        rw [if_neg hne.symm]
        exact lookup_reservedLedger_of_some hr

/-- A failed or repeated create harms nothing exactly when it is stopped before the
order is stored, or its id belongs to no order and a failing insert gives no earlier
reservation back. -/
theorem createFlowOrder_harmless_iff
    (env : CreateEnv) (s : OrderFlowUseCases) (o : ProtoFlowOrder) :
    Harmless s o (createFlowOrder env s o) ↔
      ¬ PassesGates env s o ∨
        s.orders.lookup o.orderId = none ∧
          (Persists env s o ∨ s.ledger.reservations.lookup o.orderId = none ∨
            env.releaseArrives = false) := by
  have houtcome := createFlowOrder_outcome env s o
  generalize createFlowOrder env s o = a at houtcome
  cases houtcome with
  | stopped hgates hled => exact iff_of_true (harmless_refuse hled) (.inl hgates)
  | accepted hgates hrow hrepo =>
      simp only [not_not.mpr hgates, false_or, hrow, true_or, and_true]
      constructor
      · intro h
        by_contra hsome
        have hkeeps := h.repeated (Option.isSome_iff_ne_none.mpr hsome)
        exact hkeeps.published _ List.mem_cons_self rfl
      · intro hnone
        refine ⟨fun h => Bool.noConfusion h, fun hsome => ?_⟩
        rw [hnone] at hsome
        cases hsome
  | unpersisted hgates hrow =>
      simp only [not_not.mpr hgates, false_or, hrow]
      rw [← keeps_release_iff]
      constructor
      · intro h
        have hkeeps := h.refused rfl
        refine ⟨?_, hkeeps.reservations⟩
        cases hold : s.orders.lookup o.orderId with
        | none => rfl
        | some old =>
            have hgone := hkeeps.orders o.orderId old hold
            dsimp only [refuse] at hgone
            rw [AList.lookup_erase] at hgone
            cases hgone
      · rintro ⟨hnone, hreservations⟩
        refine ⟨fun _ => ⟨?_, hreservations, rfl⟩, fun hsome => ?_⟩
        · intro id old hold
          have hne : id ≠ o.orderId := by
            rintro rfl
            rw [hnone] at hold
            cases hold
          dsimp only [refuse]
          rw [AList.lookup_erase_ne hne, AList.lookup_insert_ne hne, hold]
        · rw [hnone] at hsome
          cases hsome

end Effects

/-- The same create a second time announces the order again. -/
theorem repeated_create_announced :
    (createFlowOrder {} demoStart demoCreate).response.accepted = true ∧
      ¬ Harmless (createFlowOrder {} demoStart demoCreate).state demoCreate
        (createFlowOrder {} (createFlowOrder {} demoStart demoCreate).state demoCreate) := by
  refine ⟨by decide, fun h => ?_⟩
  have hkeeps := h.repeated (by decide)
  exact hkeeps.published (storedOrder 0 demoCreate) (by decide) rfl

end OrderFlow
end ContExchange
