import ContExchange.OrderFlow.ComboRows
import ContExchange.OrderFlow.FailedCreate

/-!
# Order flow: the funds behind a published order

Two publishers announce new orders: `CreateFlowOrder`, after a reserve, and
`CreateComboOrderUseCase`, which announces the legs of an `orchestration_only` combo
and asks the ledger for nothing.

* `Funded`: the ledger holds a reservation under the id of the order, of its user, in
  the currency that it pays with, that covers it at its upper limit;
* `published_funded_iff`: along a run every announced order is funded exactly when
  every call meets `FundsOk`: a create finds a reservation that covers the order, or none
  and the product with the upper limit is not rounded down, and the legs of a combo are
  announced only with reservations that are there already.
-/

namespace ContExchange
namespace OrderFlow

open Common Lib Option
open Matching (ProtoFlowOrder OrderEvent)
open Ledger (LedgerUseCases Reservation reserveFunds)

/-- The reservation pays for the order at its upper limit, in the quote currency of its instrument
or, for a sale, in the base.  The order of a combo leg names neither (`legOrder`), so only a
reservation in the currency with the empty name covers it. -/
def Covers (r : Reservation) (o : ProtoFlowOrder) : Prop :=
  r.userId = o.userId ∧
    match o.side with
    | .buy => r.currency = o.instrument.quote ∧ o.total.toRat * o.high.toRat ≤ r.amount.toRat
    | .sell => r.currency = o.instrument.base ∧ o.total.toRat ≤ r.amount.toRat
    | .unspecified => False

def Funded (ledger : LedgerUseCases) (o : ProtoFlowOrder) : Prop :=
  ∃ r, ledger.reservations.lookup o.orderId = some r ∧ Covers r o

structure OrderEntry where
  flow : OrderFlowUseCases := {}
  combos : ComboService := {}

/-- A call of one of the three operations. -/
inductive EntryCall where
  | create (env : CreateEnv) (order : ProtoFlowOrder)
  | cancel (releaseArrives : Bool) (now : Int) (req : CancelFlowOrderRequest)
  | createCombo (env : ComboEnv) (req : CreateComboOrderRequest)

def OrderEntry.step (s : OrderEntry) : EntryCall → OrderEntry
  | .create env o => { s with flow := (createFlowOrder env s.flow o).state }
  | .cancel releaseArrives now req =>
      { s with flow := (cancelFlowOrder releaseArrives now s.flow req).state }
  | .createCombo env req => { s with combos := (executeCombo env s.combos req).state }

def OrderEntry.published (s : OrderEntry) : EntryCall → List OrderEvent
  | .create env o => (createFlowOrder env s.flow o).published
  | .cancel releaseArrives now req => (cancelFlowOrder releaseArrives now s.flow req).published
  | .createCombo env req => (executeCombo env s.combos req).published

/-- Every create event of the call is about an order that is funded when it goes out. -/
def PublishesFunded (s : OrderEntry) (call : EntryCall) : Prop :=
  ∀ o, OrderEvent.create o ∈ s.published call → Funded (s.step call).flow.ledger o

/-- The request is carried out: it is new, valid, allowed, not rejected by the risk
check, and its rows can be written. -/
structure PlacesCombo (env : ComboEnv) (s : ComboService) (req : CreateComboOrderRequest) :
    Prop where
  new : req.clientComboId = "" ∨ s.idempotency.lookup req.clientComboId = none
  valid : (buildDomain env.ids req).validate = none
  allowed : env.policy.checkCreate (buildDomain env.ids req) = none
  risk : env.riskReject (buildDomain env.ids req) = none
  rows : env.databaseUp = true ∧ insertComboOrder (buildDomain env.ids req) s.tables ≠ none

/-- The product of size and upper limit is not rounded down. -/
def ReserveExact (o : ProtoFlowOrder) : Prop :=
  o.side = .buy → o.total.toRat * o.high.toRat ≤ (Decimal.mul o.total o.high).toRat

/-- What a call has to meet for the orders that it announces to be funded. -/
def FundsOk (s : OrderEntry) : EntryCall → Prop
  | .create env o =>
      PassesGates env s.flow o → Persists env s.flow o →
        Funded s.flow.ledger o ∨
          s.flow.ledger.reservations.lookup o.orderId = none ∧ ReserveExact o
  | .cancel _ _ _ => True
  | .createCombo env req =>
      req.executionMode = .orchestrationOnly → PlacesCombo env s.combos req →
        ∀ leg ∈ (buildDomain env.ids req).legs,
          Funded s.flow.ledger (legOrder req.userId leg)

section Creates

variable {env : CreateEnv} {s : OrderFlowUseCases} {o : ProtoFlowOrder}

theorem funded_storedOrder {ledger : LedgerUseCases} (now : Int) :
    Funded ledger (storedOrder now o) ↔ Funded ledger o :=
  Iff.rfl

/-- After the reserve an order is funded if its reservation covered it before, or if it
is its own and the product was not rounded down. -/
theorem funded_reservedLedger_iff (hgates : PassesGates env s o) :
    Funded (reservedLedger s.ledger o) o ↔
      Funded s.ledger o ∨ s.ledger.reservations.lookup o.orderId = none ∧ ReserveExact o := by
  cases hres : s.ledger.reservations.lookup o.orderId with
  | some r =>
      have hafter : (reservedLedger s.ledger o).reservations.lookup o.orderId = some r :=
        lookup_reservedLedger_of_some hres
      unfold Funded
      simp [hres, hafter]
  | none =>
      have hbefore : ¬ Funded s.ledger o := by
        rintro ⟨r, hr, -⟩
        rw [hres] at hr
        cases hr
      simp only [hbefore, false_or, true_and]
      cases hreq : reserveRequest o with
      | none => exact absurd (reserveRequest_eq_none_iff.mp hreq) hgates.side
      | some req =>
          obtain ⟨hid, huser, -⟩ := reserveRequest_ids hreq
          have hnew : (reservedLedger s.ledger o).reservations.lookup o.orderId =
              some { userId := req.userId, orderId := req.orderId,
                     currency := req.currency, amount := req.amount } := by
            unfold reservedLedger
            rw [hreq]
            dsimp only
            rcases Ledger.reserveFunds_cases s.ledger req with
              ⟨r, hr, -⟩ | ⟨hrefused, -⟩ | ⟨-, -, hbooks, -⟩
            · rw [hid, hres] at hr
              cases hr
            · exact absurd hrefused (hgates.funded req hreq)
            · rw [hbooks, ← hid]
              exact AList.lookup_insert _
          unfold Funded Covers ReserveExact
          rw [hnew]
          simp only [Option.some.injEq, exists_eq_left', huser, true_and]
          unfold reserveRequest at hreq
          cases hside : o.side with
          | buy =>
              rw [hside] at hreq
              cases hreq
              simp
          | sell =>
              rw [hside] at hreq
              cases hreq
              simp
          | unspecified => exact absurd hside hgates.side

theorem create_publishesFunded_iff (env : CreateEnv) (s : OrderEntry) (o : ProtoFlowOrder) :
    PublishesFunded s (.create env o) ↔ FundsOk s (.create env o) := by
  unfold PublishesFunded FundsOk OrderEntry.published OrderEntry.step
  dsimp only
  have houtcome := createFlowOrder_outcome env s.flow o
  generalize createFlowOrder env s.flow o = a at houtcome
  cases houtcome with
  | stopped hgates _ =>
      refine iff_of_true (fun p hp => ?_) (fun h => absurd h hgates)
      cases hp
  | unpersisted hgates hrow =>
      refine iff_of_true (fun p hp => ?_) (fun _ h => absurd h hrow)
      cases hp
  | accepted hgates hrow _ =>
      simp only [List.mem_singleton, OrderEvent.create.injEq, forall_eq, hgates, hrow, forall_const]
      rw [funded_storedOrder, funded_reservedLedger_iff hgates]

end Creates

section Combos

variable {env : ComboEnv} {s : ComboService} {req : CreateComboOrderRequest}

theorem executeCombo_of_places (h : PlacesCombo env s req) :
    executeCombo env s req = placeCombo env s req (buildDomain env.ids req) := by
  have hnew : (if req.clientComboId = "" then none
      else s.idempotency.lookup req.clientComboId) = none := by
    split
    · rfl
    · rename_i hid
      exact h.new.resolve_left hid
  unfold executeCombo
  rw [hnew]
  dsimp only
  rw [h.valid]
  dsimp only
  rw [h.allowed]
  dsimp only
  rw [h.risk]

theorem published_of_places
    (h : PlacesCombo env s req) (hmode : req.executionMode = .orchestrationOnly) :
    (executeCombo env s req).published =
      (buildDomain env.ids req).legs.map (fun leg => .create (legOrder req.userId leg)) := by
  obtain ⟨hup, hrows⟩ := h.rows
  obtain ⟨tables, htables⟩ := ne_none_iff_exists'.mp hrows
  rw [executeCombo_of_places h]
  unfold placeCombo
  rw [if_pos hup, htables]
  have hdomain : (buildDomain env.ids req).executionMode = .orchestrationOnly := hmode
  dsimp only
  rw [if_pos hdomain]
  unfold publishOrchestration
  rw [if_neg, getD_some]
  rw [h.valid, hdomain]
  simp

theorem published_of_not_places
    (h : ¬ (PlacesCombo env s req ∧ req.executionMode = .orchestrationOnly)) :
    (executeCombo env s req).published = [] := by
  by_contra hne
  refine h ?_
  have hmatch : (if req.clientComboId = "" then none
      else s.idempotency.lookup req.clientComboId) = none := by
    cases hlook : (if req.clientComboId = "" then none
        else s.idempotency.lookup req.clientComboId) with
    | none => rfl
    | some comboId => simp [executeCombo, hlook] at hne
  have hvalid : (buildDomain env.ids req).validate = none := by
    cases herr : (buildDomain env.ids req).validate with
    | none => rfl
    | some err => simp [executeCombo, hmatch, herr, refuseCombo] at hne
  have hallowed : env.policy.checkCreate (buildDomain env.ids req) = none := by
    cases herr : env.policy.checkCreate (buildDomain env.ids req) with
    | none => rfl
    | some err => simp [executeCombo, hmatch, hvalid, herr, refuseCombo] at hne
  have hrisk : env.riskReject (buildDomain env.ids req) = none := by
    cases herr : env.riskReject (buildDomain env.ids req) with
    | none => rfl
    | some err => simp [executeCombo, hmatch, hvalid, hallowed, herr, refuseCombo] at hne
  simp only [executeCombo, hmatch, hvalid, hallowed, hrisk, placeCombo] at hne
  have hnew : req.clientComboId = "" ∨ s.idempotency.lookup req.clientComboId = none := by
    split at hmatch
    · rename_i hid
      exact .inl hid
    · exact .inr hmatch
  have hrows : env.databaseUp = true ∧
      insertComboOrder (buildDomain env.ids req) s.tables ≠ none := by
    cases hup : env.databaseUp with
    | false => simp [hup] at hne
    | true =>
        refine ⟨rfl, fun hnone => ?_⟩
        simp [hup, hnone] at hne
  refine ⟨⟨hnew, hvalid, hallowed, hrisk, hrows⟩, ?_⟩
  by_contra hmode
  have hdomain : (buildDomain env.ids req).executionMode ≠ .orchestrationOnly := hmode
  obtain ⟨tables, htables⟩ := ne_none_iff_exists'.mp hrows.2
  simp [hrows.1, htables, hdomain] at hne

theorem createCombo_publishesFunded_iff
    (env : ComboEnv) (s : OrderEntry) (req : CreateComboOrderRequest) :
    PublishesFunded s (.createCombo env req) ↔ FundsOk s (.createCombo env req) := by
  unfold PublishesFunded FundsOk OrderEntry.published OrderEntry.step
  dsimp only
  by_cases hplaces : PlacesCombo env s.combos req ∧ req.executionMode = .orchestrationOnly
  · obtain ⟨hplaced, hmode⟩ := hplaces
    rw [published_of_places hplaced hmode]
    simp only [hplaced, hmode, forall_const, List.mem_map, forall_exists_index, and_imp,
      OrderEvent.create.injEq]
    constructor
    · intro h leg hleg
      exact h _ leg hleg rfl
    · rintro h o leg hleg rfl
      exact h leg hleg
  · rw [published_of_not_places hplaces]
    refine iff_of_true (fun o ho => by cases ho) (fun hmode hplaced => ?_)
    exact absurd ⟨hplaced, hmode⟩ hplaces

end Combos

theorem publishesFunded_iff (s : OrderEntry) (call : EntryCall) :
    PublishesFunded s call ↔ FundsOk s call := by
  cases call with
  | create env o => exact create_publishesFunded_iff env s o
  | cancel releaseArrives now req =>
      refine iff_of_true (fun o ho => ?_) trivial
      unfold OrderEntry.published cancelFlowOrder at ho
      dsimp only at ho
      cases hlook : s.flow.orders.lookup req.orderId with
      | none =>
          rw [hlook] at ho
          cases ho
      | some p =>
          rw [hlook] at ho
          simp at ho
  | createCombo env req => exact createCombo_publishesFunded_iff env s req

/-- Along a run every announced order is funded exactly when every call meets the
condition. -/
theorem published_funded_iff (s : OrderEntry) (calls : List EntryCall) :
    StepsMeet OrderEntry.step PublishesFunded s calls ↔
      StepsMeet OrderEntry.step FundsOk s calls :=
  ⟨StepsMeet.imp (fun s call => (publishesFunded_iff s call).mp),
    StepsMeet.imp (fun s call => (publishesFunded_iff s call).mpr)⟩

def demoUuids : Uuids where
  combo := "22222222-2222-4222-8222-222222222222"
  leg := fun i =>
    if i = 0 then "33333333-3333-4333-8333-333333333330"
    else "33333333-3333-4333-8333-333333333331"
  constraint := fun _ => ""
  link := fun _ => ""

def demoLeg (side : Side) : ProtoLeg where
  instrument := { symbol := "BTC/USDT", base := "BTC", quote := "USDT" }
  side
  ratio := some (Decimal.of 1 0)
  priceLow := some (Decimal.of 90 0)
  priceHigh := some (Decimal.of 100 0)
  maxRate := some (Decimal.of 1 0)
  maxQty := some (Decimal.of 1 0)

def demoCombo (mode : ExecutionMode) : CreateComboOrderRequest where
  userId := "demo-user"
  comboType := .pair
  executionMode := mode
  atomicityPolicy := .bestEffort
  ratioBasis := .quantityRatio
  legs := [demoLeg .buy, demoLeg .sell]

/-- The legs of an orchestrated combo are announced without any reservation. -/
theorem combo_leg_not_funded :
    ¬ PublishesFunded { flow := demoStart }
      (.createCombo { ids := demoUuids } (demoCombo .orchestrationOnly)) := by
  intro h
  have hmem : OrderEvent.create (legOrder "demo-user"
      (buildLeg .quantityRatio "33333333-3333-4333-8333-333333333330" (demoLeg .buy))) ∈
        OrderEntry.published { flow := demoStart }
          (.createCombo { ids := demoUuids } (demoCombo .orchestrationOnly)) := by
    decide +kernel
  obtain ⟨r, hr, -⟩ := h _ hmem
  cases hr

end OrderFlow
end ContExchange
