import ContExchange.OrderFlow.Funding

/-!
# Order flow: the orders of other users

Ids are chosen by the client and are keys in the orders of order flow, in the
reservations of the ledger, in the rows of `flow_orders` and in the active orders of
matching.  No service compares the user of a request with the owner of what an id
already stands for.

`isolated_iff`: a request leaves the orders, active orders, rows, reservations and
balances of the other users as they are exactly when it meets `TouchesOwn`: what its ids
stand for, where the request gets that far, belongs to the user that it names.
-/

namespace ContExchange
namespace OrderFlow

open Common Lib AList List Option Table
open Matching (ProtoFlowOrder FlowOrderRows FlowOrderRow OrderEvent ActiveOrders onOrderEvent
  insertedRow insertFlowOrder)
open Ledger (LedgerUseCases Reservation reserveFunds releaseFunds)

/-- Order flow with its combos and the active orders of matching. -/
structure Platform where
  entry : OrderEntry := {}
  active : ActiveOrders := ∅

/-- A request and the events that it publishes. -/
def Platform.handle (now : Int) (s : Platform) (call : EntryCall) : Platform where
  entry := s.entry.step call
  active := run (onOrderEvent now) s.active (s.entry.published call)

/-- The user that a request names. -/
def EntryCall.user : EntryCall → String
  | .create _ o => o.userId
  | .cancel _ _ req => req.userId
  | .createCombo _ req => req.userId

/-- The rows of `flow_orders`, none without a database. -/
def OrderFlowUseCases.rows (s : OrderFlowUseCases) : FlowOrderRows :=
  s.flowOrderRepo.getD ∅

structure KeepsCombos (t t' : ComboTables) : Prop where
  comboOrders : ∀ id row, t.comboOrders.lookup id = some row →
    t'.comboOrders.lookup id = some row
  legs : ∀ id row, t.legs.lookup id = some row → t'.legs.lookup id = some row
  constraints : ∀ id row, t.constraints.lookup id = some row →
    t'.constraints.lookup id = some row

/-- Everything that belongs to users other than `u` is the same. -/
structure Isolated (u : String) (s s' : Platform) : Prop where
  orders : Table.SameForOthers ProtoFlowOrder.userId u s.entry.flow.orders s'.entry.flow.orders
  active : Table.SameForOthers Matching.FlowOrder.userId u s.active s'.active
  rows : Table.SameForOthers FlowOrderRow.userId u s.entry.flow.rows s'.entry.flow.rows
  reservations : Table.SameForOthers Reservation.userId u s.entry.flow.ledger.reservations
    s'.entry.flow.ledger.reservations
  balances : ∀ v currency, v ≠ u →
    s'.entry.flow.ledger.balance v currency = s.entry.flow.ledger.balance v currency
  combos : KeepsCombos s.entry.combos.tables s'.entry.combos.tables

/-- The row of the order is written without a change to the row of another user. -/
def OwnRow (s : OrderFlowUseCases) (o : ProtoFlowOrder) : Prop :=
  ∀ row, s.rows.lookup o.orderId = some row → row.userId = o.userId ∨
    ∃ leg ∈ row.legs, leg.instrumentSymbol = o.instrument.symbol

/-- The ids of a request stand for what its user owns, as far as the request gets. -/
def TouchesOwn (s : Platform) : EntryCall → Prop
  | .create env o =>
      PassesGates env s.entry.flow o →
        Table.OwnedBy ProtoFlowOrder.userId o.userId s.entry.flow.orders o.orderId ∧
          (Persists env s.entry.flow o →
            Table.OwnedBy Matching.FlowOrder.userId o.userId s.active o.orderId ∧
              OwnRow s.entry.flow o) ∧
          (¬ Persists env s.entry.flow o → env.releaseArrives = true →
            Table.OwnedBy Reservation.userId o.userId
              s.entry.flow.ledger.reservations o.orderId)
  | .cancel releaseArrives now req =>
      ∀ o, s.entry.flow.orders.lookup req.orderId = some o →
        (o.userId = req.userId ∨ o.status = .canceled ∧ o.updatedAt = some now) ∧
          Table.OwnedBy Matching.FlowOrder.userId req.userId s.active req.orderId ∧
          (releaseArrives = true →
            Table.OwnedBy Reservation.userId req.userId
              s.entry.flow.ledger.reservations req.orderId)
  | .createCombo env req =>
      req.executionMode = .orchestrationOnly → PlacesCombo env s.entry.combos req →
        ∀ leg ∈ (buildDomain env.ids req).legs,
          Table.OwnedBy Matching.FlowOrder.userId req.userId s.active leg.legId

section Books

variable {ledger : LedgerUseCases} {o : ProtoFlowOrder} {u : String}

theorem balance_reservedLedger {v currency : String} (hv : v ≠ o.userId) :
    (reservedLedger ledger o).balance v currency = ledger.balance v currency := by
  unfold reservedLedger
  cases hreq : reserveRequest o with
  | none => rfl
  | some req =>
      obtain ⟨-, huser, -⟩ := reserveRequest_ids hreq
      have hne : ¬ (v = req.userId ∧ currency = req.currency) := by
        rw [huser]
        exact fun h => hv h.1
      dsimp only
      rcases Ledger.reserveFunds_cases ledger req with
        ⟨r, -, hbooks, -⟩ | ⟨-, hbooks, -⟩ | ⟨-, -, hbooks, -⟩
      · rw [hbooks]
      · rw [hbooks, LedgerUseCases.balance_modifyBalance, if_neg hne]
      · rw [hbooks]
        have hbalance := LedgerUseCases.balance_modifyBalance ledger req.userId req.currency
          (·.reserve req.amount) v currency
        rw [if_neg hne] at hbalance
        exact hbalance

theorem reservations_reservedLedger :
    Table.SameForOthers Reservation.userId o.userId ledger.reservations
      (reservedLedger ledger o).reservations := by
  unfold reservedLedger
  cases hreq : reserveRequest o with
  | none => exact .refl _ _ _
  | some req =>
      obtain ⟨-, huser, -⟩ := reserveRequest_ids hreq
      dsimp only
      rcases Ledger.reserveFunds_cases ledger req with
        ⟨r, -, hbooks, -⟩ | ⟨-, hbooks, -⟩ | ⟨hnone, -, hbooks, -⟩
      · rw [hbooks]
        exact .refl _ _ _
      · rw [hbooks]
        exact .refl _ _ _
      · rw [hbooks]
        have howned : Table.OwnedBy Reservation.userId o.userId ledger.reservations
            req.reservationId := by
          intro r hr
          rw [hnone] at hr
          cases hr
        exact (sameForOthers_insert_iff (by exact huser)).mpr howned

theorem release_isolated_iff {id : String} :
    (Table.SameForOthers Reservation.userId u ledger.reservations
        (releaseFunds ledger id).reservations ∧
      ∀ v currency, v ≠ u →
        (releaseFunds ledger id).balance v currency = ledger.balance v currency) ↔
      Table.OwnedBy Reservation.userId u ledger.reservations id := by
  have herase : ∀ k, (releaseFunds ledger id).reservations.lookup k =
      (ledger.reservations.erase id).lookup k := by
    intro k
    rw [lookup_releaseFunds]
    by_cases hk : k = id
    · rw [if_pos hk, hk, lookup_erase]
    · rw [if_neg hk, lookup_erase_ne hk]
  constructor
  · rintro ⟨h, -⟩
    have hdrop : Table.SameForOthers Reservation.userId u ledger.reservations
        (ledger.reservations.erase id) := by
      intro k r hr
      rw [← herase k]
      exact h k r hr
    exact sameForOthers_erase_iff.mp hdrop
  · intro h
    refine ⟨(sameForOthers_erase_iff.mpr h).trans (.of_lookup herase), ?_⟩
    intro v currency hv
    unfold releaseFunds
    cases hr : ledger.reservations.lookup id with
    | none => rfl
    | some r =>
        have hbalance := LedgerUseCases.balance_modifyBalance ledger r.userId r.currency
          (·.release r.amount) v currency
        rw [if_neg (fun heq => hv (heq.1.trans (h r hr)))] at hbalance
        exact hbalance

end Books

section Rows

variable {env : CreateEnv} {s : OrderFlowUseCases} {o : ProtoFlowOrder}

theorem insertLeg_eq_self_iff {row : FlowOrderRow} {leg : Matching.FlowOrderLegRow} :
    row.insertLeg leg = row ↔ ∃ l ∈ row.legs, l.instrumentSymbol = leg.instrumentSymbol := by
  unfold FlowOrderRow.insertLeg
  split
  · rename_i hany
    simpa using hany
  · rename_i hany
    refine iff_of_false (fun heq => ?_) (by simpa using hany)
    have hlength := congrArg (fun r : FlowOrderRow => r.legs.length) heq
    simp at hlength

theorem rows_persisted {repo : Option FlowOrderRows}
    (hrepo : persistOrder env s.flowOrderRepo (storedOrder env.now o) = some repo) :
    repo = none ∧ s.flowOrderRepo = none ∨
      ∃ row, repo = some (s.rows.insert o.orderId row) ∧
        ((s.rows.lookup o.orderId = none ∧ row.userId = o.userId) ∨
          ∃ old leg, s.rows.lookup o.orderId = some old ∧ row = old.insertLeg leg ∧
            leg.instrumentSymbol = o.instrument.symbol) := by
  unfold persistOrder at hrepo
  cases hbase : s.flowOrderRepo with
  | none =>
      rw [hbase] at hrepo
      cases hrepo
      exact .inl ⟨rfl, rfl⟩
  | some rows =>
      right
      have hrows : s.rows = rows := by
        unfold OrderFlowUseCases.rows
        rw [hbase]
        rfl
      rw [hbase] at hrepo
      dsimp only at hrepo
      split at hrepo
      · obtain ⟨rows', hinsert, rfl⟩ := map_eq_some_iff.mp hrepo
        rw [hrows]
        unfold insertFlowOrder at hinsert
        dsimp only at hinsert
        split at hinsert
        · cases hinsert
        · split at hinsert
          · cases hinsert
          · cases hold : rows.lookup o.orderId with
            | none =>
                have hold' : rows.lookup (storedOrder env.now o).orderId = none := hold
                rw [hold'] at hinsert
                cases hinsert
                exact ⟨_, rfl, .inl ⟨rfl, rfl⟩⟩
            | some old =>
                have hold' : rows.lookup (storedOrder env.now o).orderId = some old := hold
                rw [hold'] at hinsert
                cases hinsert
                exact ⟨_, rfl, .inr ⟨old, _, rfl, rfl, rfl⟩⟩
      · cases hrepo

theorem rows_isolated_iff {repo : Option FlowOrderRows}
    (hrepo : persistOrder env s.flowOrderRepo (storedOrder env.now o) = some repo) :
    Table.SameForOthers FlowOrderRow.userId o.userId s.rows (repo.getD ∅) ↔ OwnRow s o := by
  rcases rows_persisted hrepo with ⟨rfl, hbase⟩ | ⟨row, rfl, ⟨hnone, howner⟩ | hold⟩
  · have hrows : s.rows = ∅ := by
      unfold OrderFlowUseCases.rows
      rw [hbase]
      rfl
    unfold OwnRow
    rw [hrows]
    refine iff_of_true (.refl _ _ _) (fun row hrow => ?_)
    cases hrow
  · rw [getD_some, sameForOthers_insert_iff howner]
    unfold Table.OwnedBy OwnRow
    simp [hnone]
  · obtain ⟨old, leg, hold, rfl, hsymbol⟩ := hold
    rw [getD_some]
    have hown : OwnRow s o ↔ old.userId = o.userId ∨ old.insertLeg leg = old := by
      unfold OwnRow
      rw [hold, insertLeg_eq_self_iff, hsymbol]
      simp
    have hsameUser : (old.insertLeg leg).userId = old.userId := by
      unfold FlowOrderRow.insertLeg
      split
      · rfl
      · rfl
    rw [hown]
    by_cases huser : old.userId = o.userId
    · rw [sameForOthers_insert_iff (hsameUser.trans huser)]
      refine iff_of_true (fun v hv => ?_) (.inl huser)
      rw [hold] at hv
      cases hv
      exact huser
    · simp only [huser, false_or]
      constructor
      · intro h
        have hkept := (h o.orderId old huser).mpr hold
        rw [lookup_insert] at hkept
        exact Option.some.inj hkept
      · intro hsame
        rw [hsame]
        refine .of_lookup (fun k => ?_)
        by_cases hk : k = o.orderId
        · rw [hk, lookup_insert, hold]
        · rw [lookup_insert_ne hk]

end Rows

section Requests

theorem KeepsCombos.refl (t : ComboTables) : KeepsCombos t t :=
  ⟨fun _ _ h => h, fun _ _ h => h, fun _ _ h => h⟩

theorem create_isolated_iff (now : Int) (env : CreateEnv) (s : Platform) (o : ProtoFlowOrder) :
    Isolated o.userId s (s.handle now (.create env o)) ↔ TouchesOwn s (.create env o) := by
  have houtcome := createFlowOrder_outcome env s.entry.flow o
  have hreserved : Table.SameForOthers Reservation.userId o.userId
      s.entry.flow.ledger.reservations (reservedLedger s.entry.flow.ledger o).reservations :=
    reservations_reservedLedger
  unfold Platform.handle OrderEntry.step OrderEntry.published TouchesOwn
  dsimp only
  generalize createFlowOrder env s.entry.flow o = a at houtcome
  cases houtcome with
  | stopped hgates hled =>
      refine iff_of_true ⟨.refl _ _ _, .refl _ _ _, .refl _ _ _, ?_, ?_, .refl _⟩
        (fun h => absurd h hgates)
      · rcases hled with rfl | rfl
        · exact .refl _ _ _
        · exact hreserved
      · intro v currency hv
        rcases hled with rfl | rfl
        · rfl
        · exact balance_reservedLedger hv
  | unpersisted hgates hrow =>
      simp only [hgates, hrow, forall_const, IsEmpty.forall_iff, true_and, not_false_eq_true]
      cases harrives : env.releaseArrives with
      | false =>
          simp only [Bool.false_eq_true, IsEmpty.forall_iff, and_true]
          constructor
          · intro h
            exact (sameForOthers_insert_erase_iff _).mp h.orders
          · intro h
            exact ⟨(sameForOthers_insert_erase_iff _).mpr h, .refl _ _ _, .refl _ _ _,
              hreserved, fun v currency hv => balance_reservedLedger hv, .refl _⟩
      | true =>
          simp only [forall_const]
          rw [← hreserved.ownedBy_iff, ← release_isolated_iff]
          constructor
          · intro h
            refine ⟨(sameForOthers_insert_erase_iff _).mp h.orders, ?_, ?_⟩
            · exact hreserved.symm.trans h.reservations
            · intro v currency hv
              rw [balance_reservedLedger hv]
              exact h.balances v currency hv
          · rintro ⟨horders, hreservations, hbalances⟩
            refine ⟨(sameForOthers_insert_erase_iff _).mpr horders, .refl _ _ _, .refl _ _ _,
              hreserved.trans hreservations, ?_, .refl _⟩
            intro v currency hv
            exact (hbalances v currency hv).trans (balance_reservedLedger hv)
  | accepted hgates hrow hrepo =>
      simp only [hgates, hrow, forall_const, not_true_eq_false, IsEmpty.forall_iff, and_true]
      rw [← rows_isolated_iff hrepo]
      constructor
      · intro h
        exact ⟨(sameForOthers_insert_iff (by rfl)).mp h.orders,
          (sameForOthers_insert_iff (by rfl)).mp h.active, h.rows⟩
      · rintro ⟨horders, hactive, hrows⟩
        exact ⟨(sameForOthers_insert_iff (by rfl)).mpr horders,
          (sameForOthers_insert_iff (by rfl)).mpr hactive, hrows, hreserved,
          fun v currency hv => balance_reservedLedger hv, .refl _⟩

variable {now : Int}

theorem markCanceled_isolated_iff {orders : Table String ProtoFlowOrder} {id u : String}
    {o : ProtoFlowOrder} (ho : orders.lookup id = some o) :
    Table.SameForOthers ProtoFlowOrder.userId u orders
        (orders.insert id { o with status := .canceled, updatedAt := some now }) ↔
      o.userId = u ∨ o.status = .canceled ∧ o.updatedAt = some now := by
  by_cases huser : o.userId = u
  · rw [sameForOthers_insert_iff (by exact huser)]
    refine iff_of_true (fun v hv => ?_) (.inl huser)
    rw [ho] at hv
    cases hv
    exact huser
  · simp only [huser, false_or]
    constructor
    · intro h
      have hkept := (h id o huser).mpr ho
      rw [lookup_insert] at hkept
      have hsame := Option.some.inj hkept
      exact ⟨by rw [← hsame], by rw [← hsame]⟩
    · rintro ⟨hstatus, hupdated⟩
      refine .of_lookup (fun k => ?_)
      by_cases hk : k = id
      · rw [hk, lookup_insert, ho, ← hstatus, ← hupdated]
      · rw [lookup_insert_ne hk]

theorem cancel_isolated_iff
    (now clock : Int) (releaseArrives : Bool) (s : Platform) (req : CancelFlowOrderRequest) :
    Isolated req.userId s (s.handle clock (.cancel releaseArrives now req)) ↔
      TouchesOwn s (.cancel releaseArrives now req) := by
  unfold Platform.handle OrderEntry.step OrderEntry.published TouchesOwn cancelFlowOrder
  dsimp only
  cases ho : s.entry.flow.orders.lookup req.orderId with
  | none =>
      refine iff_of_true ⟨.refl _ _ _, .refl _ _ _, .refl _ _ _, .refl _ _ _,
        fun _ _ _ => rfl, .refl _⟩ (fun o h => ?_)
      cases h
  | some o =>
      simp only [Option.some.injEq, forall_eq']
      rw [← markCanceled_isolated_iff ho]
      unfold ledgerRelease
      cases releaseArrives with
      | false =>
          simp only [Bool.false_eq_true, IsEmpty.forall_iff, and_true, if_false]
          constructor
          · intro h
            exact ⟨h.orders, sameForOthers_erase_iff.mp h.active⟩
          · rintro ⟨horders, hactive⟩
            exact ⟨horders, sameForOthers_erase_iff.mpr hactive, .refl _ _ _, .refl _ _ _,
              fun _ _ _ => rfl, .refl _⟩
      | true =>
          simp only [forall_const, if_true]
          rw [← release_isolated_iff]
          constructor
          · intro h
            exact ⟨h.orders, sameForOthers_erase_iff.mp h.active, h.reservations, h.balances⟩
          · rintro ⟨horders, hactive, hreservations, hbalances⟩
            exact ⟨horders, sameForOthers_erase_iff.mpr hactive, .refl _ _ _,
              hreservations, hbalances, .refl _⟩

theorem lookup_insertNew_of_some {κ ν : Type} [DecidableEq κ] {t : Table κ ν} {k k' : κ} {v w : ν}
    (h : t.lookup k = some v) : (insertNew t k' w).lookup k = some v := by
  unfold insertNew
  split
  · exact h
  · rename_i hnew
    have hne : k ≠ k' := by
      rintro rfl
      rw [h] at hnew
      exact hnew rfl
    rw [lookup_insert_ne hne, h]

theorem KeepsCombos.trans {t t' t'' : ComboTables}
    (h : KeepsCombos t t') (h' : KeepsCombos t' t'') : KeepsCombos t t'' :=
  ⟨fun id row hrow => h'.comboOrders id row (h.comboOrders id row hrow),
    fun id row hrow => h'.legs id row (h.legs id row hrow),
    fun id row hrow => h'.constraints id row (h.constraints id row hrow)⟩

theorem keepsCombos_foldlM {α : Type} {f : ComboTables → α → Option ComboTables}
    (hf : ∀ t a t', f t a = some t' → KeepsCombos t t') {l : List α} {t t' : ComboTables}
    (h : l.foldlM f t = some t') : KeepsCombos t t' := by
  induction l generalizing t with
  | nil =>
      cases h
      exact .refl _
  | cons a l ih =>
      obtain ⟨mid, hmid, hrest⟩ := bind_eq_some_iff.mp h
      exact (hf t a mid hmid).trans (ih hrest)

theorem keepsCombos_insertComboOrder {combo : ComboOrder} {t t' : ComboTables}
    (h : insertComboOrder combo t = some t') : KeepsCombos t t' := by
  unfold insertComboOrder at h
  split at h
  · cases h
  · obtain ⟨row, -, h⟩ := bind_eq_some_iff.mp h
    split at h
    · obtain ⟨withLegs, hlegs, hconstraints⟩ := bind_eq_some_iff.mp h
      have hparent : KeepsCombos t
          { t with comboOrders := insertNew t.comboOrders combo.comboOrderId row } :=
        ⟨fun _ _ hrow => lookup_insertNew_of_some hrow, fun _ _ h => h, fun _ _ h => h⟩
      refine (hparent.trans (keepsCombos_foldlM ?_ hlegs)).trans
        (keepsCombos_foldlM ?_ hconstraints)
      · intro t leg t' hleg
        obtain ⟨legRow, -, hleg⟩ := bind_eq_some_iff.mp hleg
        split at hleg
        · cases hleg
          exact ⟨fun _ _ h => h, fun _ _ hrow => lookup_insertNew_of_some hrow, fun _ _ h => h⟩
        · cases hleg
      · intro t c t' hc
        obtain ⟨constraintRow, -, hc⟩ := bind_eq_some_iff.mp hc
        cases hc
        exact ⟨fun _ _ h => h, fun _ _ h => h, fun _ _ hrow => lookup_insertNew_of_some hrow⟩
    · cases h

theorem keepsCombos_executeCombo
    (env : ComboEnv) (s : ComboService) (req : CreateComboOrderRequest) :
    KeepsCombos s.tables (executeCombo env s req).state.tables := by
  unfold executeCombo
  split
  · exact .refl _
  · dsimp only
    split
    · exact .refl _
    · split
      · exact .refl _
      · split
        · exact .refl _
        · unfold placeCombo
          split
          · exact .refl _
          · rename_i tables hrows
            split at hrows
            · exact keepsCombos_insertComboOrder hrows
            · cases hrows

theorem active_of_announced {u : String} {active : ActiveOrders} (orders : List ProtoFlowOrder)
    (hu : ∀ o ∈ orders, o.userId = u) :
    ∀ o ∈ orders, ∃ p,
      (run (onOrderEvent now) active (orders.map .create)).lookup o.orderId = some p ∧
        p.userId = u := by
  induction orders using List.reverseRecOn with
  | nil =>
      intro o ho
      cases ho
  | append_singleton orders last ih =>
      intro o ho
      rw [map_append, run_append]
      change ∃ p, (insert last.orderId (Matching.FlowOrder.fromProto now last)
        (run (onOrderEvent now) active (orders.map .create))).lookup o.orderId = some p ∧ _
      by_cases hid : o.orderId = last.orderId
      · rw [hid]
        exact ⟨_, lookup_insert _, hu last (by simp)⟩
      · rw [lookup_insert_ne hid]
        refine ih (fun p hp => hu p (mem_append_left _ hp)) o ?_
        rcases mem_append.mp ho with ho | ho
        · exact ho
        · exact absurd (congrArg ProtoFlowOrder.orderId (mem_singleton.mp ho)) hid

/-- Announced orders of one user leave the active orders of the others alone exactly when
the orders that they replace are the user's own. -/
theorem active_isolated_iff {u : String} {active : ActiveOrders} (orders : List ProtoFlowOrder)
    (hu : ∀ o ∈ orders, o.userId = u) :
    Table.SameForOthers Matching.FlowOrder.userId u active
        (run (onOrderEvent now) active (orders.map .create)) ↔
      ∀ o ∈ orders, Table.OwnedBy Matching.FlowOrder.userId u active o.orderId := by
  constructor
  · intro h o ho v hv
    by_contra hne
    obtain ⟨p, hp, hpu⟩ := active_of_announced orders hu o ho
    rw [(h o.orderId v hne).mpr hv] at hp
    cases hp
    exact hne hpu
  · intro howned
    induction orders generalizing active with
    | nil => exact .refl _ _ _
    | cons o orders ih =>
        have hfirst : Table.SameForOthers Matching.FlowOrder.userId u active
            (active.insert o.orderId (Matching.FlowOrder.fromProto now o)) :=
          (sameForOthers_insert_iff (by exact hu o mem_cons_self)).mpr (howned o mem_cons_self)
        refine hfirst.trans (ih (fun p hp => hu p (mem_cons_of_mem _ hp)) ?_)
        intro p hp
        exact hfirst.ownedBy_iff.mpr (howned p (mem_cons_of_mem _ hp))

theorem createCombo_isolated_iff
    (now : Int) (env : ComboEnv) (s : Platform) (req : CreateComboOrderRequest) :
    Isolated req.userId s (s.handle now (.createCombo env req)) ↔
      TouchesOwn s (.createCombo env req) := by
  have hcombos := keepsCombos_executeCombo env s.entry.combos req
  unfold Platform.handle OrderEntry.step OrderEntry.published TouchesOwn
  dsimp only
  by_cases hplaces : PlacesCombo env s.entry.combos req ∧ req.executionMode = .orchestrationOnly
  · obtain ⟨hplaced, hmode⟩ := hplaces
    rw [published_of_places hplaced hmode]
    have howner : ∀ o ∈ (buildDomain env.ids req).legs.map (legOrder req.userId),
        o.userId = req.userId := by
      intro o ho
      obtain ⟨leg, -, rfl⟩ := mem_map.mp ho
      rfl
    have hlegs := map_map (f := legOrder req.userId) (g := OrderEvent.create)
      (l := (buildDomain env.ids req).legs)
    rw [Function.comp_def] at hlegs
    simp only [hplaced, hmode, forall_const]
    constructor
    · intro h leg hleg
      have hactive := h.active
      dsimp only at hactive
      rw [← hlegs, active_isolated_iff _ howner] at hactive
      exact hactive _ (mem_map_of_mem hleg)
    · intro h
      refine ⟨.refl _ _ _, ?_, .refl _ _ _, .refl _ _ _, fun _ _ _ => rfl, hcombos⟩
      dsimp only
      rw [← hlegs, active_isolated_iff _ howner]
      intro o ho
      obtain ⟨leg, hleg, rfl⟩ := mem_map.mp ho
      exact h leg hleg
  · rw [published_of_not_places hplaces]
    refine iff_of_true ⟨.refl _ _ _, .refl _ _ _, .refl _ _ _, .refl _ _ _, fun _ _ _ => rfl,
      hcombos⟩ (fun hmode hplaced => ?_)
    exact absurd ⟨hplaced, hmode⟩ hplaces

/-- A request leaves everything of the other users alone exactly when what its ids stand
for belongs to the user that it names. -/
theorem isolated_iff (now : Int) (s : Platform) (call : EntryCall) :
    Isolated call.user s (s.handle now call) ↔ TouchesOwn s call := by
  cases call with
  | create env o => exact create_isolated_iff now env s o
  | cancel releaseArrives clock req => exact cancel_isolated_iff clock now releaseArrives s req
  | createCombo env req => exact createCombo_isolated_iff now env s req

end Requests

/-- The demo order is placed. -/
def demoPlatform : Platform :=
  Platform.handle 0 { entry := { flow := demoStart } } (.create {} demoCreate)

/-- Another user cancels the demo order: the order is marked, matching drops it and the
funds are released. -/
theorem cancel_by_other_user :
    ¬ Isolated "other-user" demoPlatform
      (demoPlatform.handle 0
        (.cancel true 0 { orderId := demoCreate.orderId, userId := "other-user" })) := by
  intro h
  have hactive := (h.active demoCreate.orderId (Matching.FlowOrder.fromProto 0
    (storedOrder 0 demoCreate)) (by decide)).mpr (by decide +kernel)
  revert hactive
  decide +kernel

end OrderFlow
end ContExchange
