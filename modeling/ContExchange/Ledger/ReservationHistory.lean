import ContExchange.Ledger.Journal
import ContExchange.Ledger.Safety

/-!
# Ledger: the history of a reservation id

`ReserveFunds` recognises a repeated request by the reservation stored under its
id.  `ReleaseFunds`, a terminal order update and the sweep all drop that row, and
with it the memory of the request.

* `historyStep` runs the ledger and remembers the first request of an id that was
  answered with success;
* `HonouredOnce`: what is moved under the id stays within the amount of that
  request, and every success answer is about a reservation on its terms;
* `honoured_once_of_retries_ok`: so it is as long as a request of a known id is
  refused, or repeats the first one while its reservation is still there.
-/

namespace ContExchange
namespace Ledger

open Common Lib AList Option LedgerUseCases

def honours (id : String) (s : LedgerUseCases) : Call → Option ReserveFundsRequest
  | .reserveFunds req =>
      if req.reservationId = id ∧ (reserveFunds s req).2.success then some req else none
  | _ => none

/-- What a call adds to `reserved` under the reservation id. -/
def movedUnder (id : String) (s : LedgerUseCases) : Call → ℚ
  | .reserveFunds req =>
      if req.reservationId = id then
        ((reserveFunds s req).1.balance req.userId req.currency).reserved.toRat -
          (s.balance req.userId req.currency).reserved.toRat
      else 0
  | _ => 0

/-- The books, and the first request of an id that was answered with success. -/
structure ReservationHistory where
  books : LedgerUseCases
  first : Option ReserveFundsRequest := none

/-- A call, with the first honoured request remembered. -/
def historyStep (id : String) (h : ReservationHistory) (call : Call) : ReservationHistory where
  books := step h.books call
  first := h.first.or (honours id h.books call)

/-- Two requests ask for the same amount from the same balance. -/
structure SameTerms (req req' : ReserveFundsRequest) : Prop where
  userId : req.userId = req'.userId
  currency : req.currency = req'.currency
  amount : req.amount.toRat = req'.amount.toRat

/-- A success answer is about a reservation of the same user, currency and amount:
the first honoured request asked for it, and it is in the table. -/
def AnswerRefers (id : String) (h : ReservationHistory) (call : Call) : Prop :=
  ∀ req ∈ honours id h.books call,
    (∃ first ∈ (historyStep id h call).first, SameTerms first req) ∧
    ∃ r ∈ (step h.books call).reservations.lookup id,
      r.userId = req.userId ∧ r.currency = req.currency

/-- The amount of the first honoured request. -/
def ReservationHistory.amount (h : ReservationHistory) : ℚ :=
  h.first.elim 0 (fun req => req.amount.toRat)

def HonouredOnce (id : String) (s : LedgerUseCases) (calls : List Call) : Prop :=
  StepsMeet (historyStep id) (AnswerRefers id) { books := s } calls ∧
    ∀ n, sumAlong (historyStep id) (fun h => movedUnder id h.books) { books := s }
        (calls.take n) ≤
      (run (historyStep id) { books := s } (calls.take n)).amount

def Refused (s : LedgerUseCases) (req : ReserveFundsRequest) : Prop :=
  s.reservations.lookup req.reservationId = none ∧
    Decimal.cmp (s.balance req.userId req.currency).available req.amount < 0
deriving Decidable

/-- The condition on a call: the sums of a request of the id fit, and once the id has
been honoured, a request of it is refused, or it repeats the first one and the
reservation is still there or nothing is locked. -/
def RetryOk (id : String) (h : ReservationHistory) : Call → Prop
  | .reserveFunds req =>
      req.reservationId = id →
        CallExact h.books (.reserveFunds req) ∧
          ∀ first ∈ h.first,
            Refused h.books req ∨
              (SameTerms first req ∧
                (h.books.reservations.lookup id ≠ none ∨ req.amount.toRat ≤ 0))
  | _ => True

instance (req req' : ReserveFundsRequest) : Decidable (SameTerms req req') :=
  decidable_of_iff
    (req.userId = req'.userId ∧ req.currency = req'.currency ∧
      req.amount.toRat = req'.amount.toRat)
    ⟨fun h => ⟨h.1, h.2.1, h.2.2⟩, fun h => ⟨h.userId, h.currency, h.amount⟩⟩

instance (id : String) (h : ReservationHistory) (call : Call) : Decidable (RetryOk id h call) :=
  match call with
  | .reserveFunds _ => inferInstanceAs (Decidable (_ → _ ∧ ∀ _ ∈ _, _))
  | .releaseFunds _ => isTrue trivial
  | .applyBatchResult _ _ => isTrue trivial

/-- From one state to the next, the row of an id may go and its amount may change, but
no row appears and its user and currency stay. -/
def KeepsOwner (id : String) (s t : LedgerUseCases) : Prop :=
  ∀ r ∈ t.reservations.lookup id, ∃ r₀ ∈ s.reservations.lookup id,
    r₀.userId = r.userId ∧ r₀.currency = r.currency

section Owner

variable {id : String} {s t u : LedgerUseCases}

theorem KeepsOwner.of_lookup
    (h : ∀ r, t.reservations.lookup id = some r → s.reservations.lookup id = some r) :
    KeepsOwner id s t :=
  fun r hr => ⟨r, h r hr, rfl, rfl⟩

theorem KeepsOwner.refl (id : String) (s : LedgerUseCases) : KeepsOwner id s s :=
  .of_lookup (fun _ hr => hr)

theorem KeepsOwner.trans (h : KeepsOwner id s t) (h' : KeepsOwner id t u) : KeepsOwner id s u := by
  intro r hr
  obtain ⟨r₁, hr₁, huser₁, hcurrency₁⟩ := h' r hr
  obtain ⟨r₀, hr₀, huser₀, hcurrency₀⟩ := h r₁ hr₁
  exact ⟨r₀, hr₀, huser₀.trans huser₁, hcurrency₀.trans hcurrency₁⟩

theorem keepsOwner_run {ε : Type*} {f : LedgerUseCases → ε → LedgerUseCases}
    (hstep : ∀ s e, KeepsOwner id s (f s e)) (es : List ε) : KeepsOwner id s (run f s es) :=
  run_preserves (KeepsOwner id s) (fun t e ht => ht.trans (hstep t e)) (.refl id s) es

theorem keepsOwner_eraseReservation (reservationId : String) :
    KeepsOwner id s (s.eraseReservation reservationId) :=
  .of_lookup (fun _ hr => lookup_eraseReservation hr)

theorem keepsOwner_consumeReservation (orderId : String) (amount : Decimal) :
    KeepsOwner id s (consumeReservation s orderId amount) := by
  rw [consumeReservation]
  cases hres : s.reservations.lookup orderId with
  | none => exact .refl id s
  | some r₀ =>
      intro r hr
      simp only at hr
      by_cases hid : id = orderId
      · subst hid
        rw [lookup_insert] at hr
        obtain rfl := Option.some.inj hr
        exact ⟨r₀, hres, rfl, rfl⟩
      · rw [lookup_insert_ne hid] at hr
        exact ⟨r, hr, rfl, rfl⟩

theorem keepsOwner_applyFill (fill : FlowFill) : KeepsOwner id s (applyFill s fill) := by
  intro r hr
  rw [reservations_applyFill, applySpent] at hr
  cases hspent : spent fill with
  | none =>
      rw [hspent] at hr
      exact ⟨r, hr, rfl, rfl⟩
  | some moved =>
      obtain ⟨currency, amount⟩ := moved
      rw [hspent] at hr
      let t := s.modifyBalance fill.userId currency (·.spend amount)
      have howner : KeepsOwner id t (consumeReservation t fill.orderId amount) :=
        keepsOwner_consumeReservation fill.orderId amount
      exact howner r hr

theorem keepsOwner_releaseFunds (reservationId : String) :
    KeepsOwner id s (releaseFunds s reservationId) := by
  rw [releaseFunds]
  cases s.reservations.lookup reservationId with
  | none => exact .refl id s
  | some r => exact keepsOwner_eraseReservation reservationId

theorem keepsOwner_applyOrderUpdate (upd : OrderStateUpdate) :
    KeepsOwner id s (applyOrderUpdate s upd) := by
  rw [applyOrderUpdate]
  split
  · cases s.reservations.lookup upd.orderId with
    | none => exact .refl id s
    | some r =>
        dsimp only
        split
        · exact keepsOwner_eraseReservation upd.orderId
        · exact keepsOwner_eraseReservation upd.orderId
  · exact .refl id s

theorem keepsOwner_sweepReservations : KeepsOwner id s (sweepReservations s) := by
  refine .of_lookup ?_
  intro r hr
  rw [sweepReservations, Table.lookup_filter, filter_eq_some_iff] at hr
  exact hr.1

theorem keepsOwner_applyBatchLocked (batch : BatchResult) :
    KeepsOwner id s (applyBatchLocked s batch) := by
  have hfills : KeepsOwner id s (run applyFill s batch.fills) :=
    keepsOwner_run (fun _ => keepsOwner_applyFill) batch.fills
  have hupdates : KeepsOwner id (run applyFill s batch.fills)
      (run applyOrderUpdate (run applyFill s batch.fills) batch.orderUpdates) :=
    keepsOwner_run (fun _ => keepsOwner_applyOrderUpdate) batch.orderUpdates
  exact (hfills.trans hupdates).trans keepsOwner_sweepReservations

end Owner

section Effects

variable {id : String} {s : LedgerUseCases}

theorem lookup_reserveFunds_ne {req : ReserveFundsRequest} (hid : req.reservationId ≠ id) :
    (reserveFunds s req).1.reservations.lookup id = s.reservations.lookup id := by
  rw [reserveFunds]
  cases s.reservations.lookup req.reservationId with
  | some existing => rfl
  | none =>
      dsimp only
      split
      · rfl
      · exact lookup_insert_ne (Ne.symm hid)

/-- The three answers to a request: its reservation is there already, the funds are
missing, or the amount is locked. -/
theorem reserveFunds_cases (s : LedgerUseCases) (req : ReserveFundsRequest) :
    (∃ r, s.reservations.lookup req.reservationId = some r ∧
      (reserveFunds s req).1 = s ∧ (reserveFunds s req).2.success = true) ∨
    (Refused s req ∧
      (reserveFunds s req).1 = s.modifyBalance req.userId req.currency (fun b => b) ∧
      (reserveFunds s req).2.success = false) ∨
    (s.reservations.lookup req.reservationId = none ∧ ¬ Refused s req ∧
      (reserveFunds s req).1 =
        { s.modifyBalance req.userId req.currency (·.reserve req.amount) with
          reservations := s.reservations.insert req.reservationId
            { userId := req.userId
              orderId := req.orderId
              currency := req.currency
              amount := req.amount } } ∧
      (reserveFunds s req).2.success = true) := by
  rw [reserveFunds]
  cases hres : s.reservations.lookup req.reservationId with
  | some r => exact .inl ⟨r, rfl, rfl, rfl⟩
  | none =>
      by_cases hcmp : Decimal.cmp (s.balance req.userId req.currency).available req.amount < 0
      · refine .inr (.inl ⟨⟨hres, hcmp⟩, ?_⟩)
        rw [if_pos hcmp]
        exact ⟨rfl, rfl⟩
      · refine .inr (.inr ⟨rfl, fun h => hcmp h.2, ?_⟩)
        rw [if_neg hcmp]
        exact ⟨rfl, rfl⟩

theorem reserved_of_locked {req : ReserveFundsRequest} (hexact : CallExact s (.reserveFunds req))
    (hres : s.reservations.lookup req.reservationId = none) (hfunds : ¬ Refused s req) :
    ((s.modifyBalance req.userId req.currency (·.reserve req.amount)).balance
        req.userId req.currency).reserved.toRat -
      (s.balance req.userId req.currency).reserved.toRat = req.amount.toRat := by
  have hcmp : 0 ≤ Decimal.cmp (s.balance req.userId req.currency).available req.amount :=
    not_lt.mp (fun h => hfunds ⟨hres, h⟩)
  rw [balance_modifyBalance, if_pos ⟨rfl, rfl⟩, Balance.reserve]
  rw [Decimal.add_toRat (hexact hres hcmp).2, add_sub_cancel_left]

end Effects

/-- What a history knows: before the id is honoured it has no row and nothing was
moved; afterwards the total stays within the first amount, and a row belongs to the
first request. -/
structure HistoryInv (id : String) (h : ReservationHistory) (total : ℚ) : Prop where
  fresh : h.first = none → h.books.reservations.lookup id = none ∧ total = 0
  honoured : ∀ first ∈ h.first, total ≤ first.amount.toRat ∧
    ∀ r ∈ h.books.reservations.lookup id,
      r.userId = first.userId ∧ r.currency = first.currency

/-- What a call does under the id, given what its history knows. -/
structure CallEffect
    (id : String) (h : ReservationHistory) (total : ℚ) (call : Call) : Prop where
  inv : HistoryInv id (historyStep id h call) (total + movedUnder id h.books call)
  refers : AnswerRefers id h call

section Histories

variable {id : String} {h : ReservationHistory} {total : ℚ}

theorem HistoryInv.quiet (hinv : HistoryInv id h total) {call : Call}
    (hhonours : honours id h.books call = none) (hmoved : movedUnder id h.books call = 0)
    (howner : KeepsOwner id h.books (step h.books call)) : CallEffect id h total call := by
  have hfirst : (historyStep id h call).first = h.first := by
    rw [historyStep, hhonours, or_none]
  refine ⟨⟨?_, ?_⟩, ?_⟩
  · intro hnone
    rw [hfirst] at hnone
    obtain ⟨hlookup, htotal⟩ := hinv.fresh hnone
    refine ⟨?_, by rw [hmoved, add_zero, htotal]⟩
    rw [eq_none_iff_forall_not_mem]
    intro r hr
    obtain ⟨r₀, hr₀, -⟩ := howner r hr
    rw [hlookup] at hr₀
    cases hr₀
  · intro first hmem
    rw [hfirst] at hmem
    obtain ⟨hle, hrow⟩ := hinv.honoured first hmem
    refine ⟨by rwa [hmoved, add_zero], ?_⟩
    intro r hr
    obtain ⟨r₀, hr₀, huser, hcurrency⟩ := howner r hr
    rw [← huser, ← hcurrency]
    exact hrow r₀ hr₀
  · intro req hreq
    rw [hhonours] at hreq
    cases hreq

theorem HistoryInv.known (hinv : HistoryInv id h total) {req : ReserveFundsRequest}
    {r : Reservation} (hid : req.reservationId = id) (hok : RetryOk id h (.reserveFunds req))
    (hres : h.books.reservations.lookup req.reservationId = some r)
    (hbooks : (reserveFunds h.books req).1 = h.books) :
    CallEffect id h total (.reserveFunds req) := by
  have hrow := hres
  rw [hid] at hrow
  cases hfirst : h.first with
  | none =>
      rw [(hinv.fresh hfirst).1] at hrow
      cases hrow
  | some first =>
      have hkept : (historyStep id h (.reserveFunds req)).first = some first := by
        rw [historyStep, hfirst, some_or]
      have hmoved : movedUnder id h.books (.reserveFunds req) = 0 := by
        rw [movedUnder, if_pos hid, hbooks, sub_self]
      have hsame : step h.books (.reserveFunds req) = h.books := hbooks
      refine ⟨⟨?_, ?_⟩, ?_⟩
      · intro hnone
        rw [hkept] at hnone
        cases hnone
      · intro first' hmem
        rw [hkept] at hmem
        obtain rfl := Option.some.inj hmem
        rw [hmoved, add_zero]
        obtain ⟨hle, howner⟩ := hinv.honoured first hfirst
        refine ⟨hle, ?_⟩
        intro r' hr'
        rw [historyStep, hsame] at hr'
        exact howner r' hr'
      · intro req' hreq'
        have hreq : req' = req := by
          simp only [honours, mem_def, ite_none_right_eq_some] at hreq'
          exact (Option.some.inj hreq'.2).symm
        subst hreq
        rcases (hok hid).2 first hfirst with hrefused | ⟨hterms, -⟩
        · rw [hrefused.1] at hres
          cases hres
        · obtain ⟨-, howner⟩ := hinv.honoured first hfirst
          obtain ⟨huser, hcurrency⟩ := howner r hrow
          refine ⟨⟨first, hkept, hterms⟩, r, ?_, ?_, ?_⟩
          · rw [hsame]
            exact hrow
          · rw [huser, hterms.userId]
          · rw [hcurrency, hterms.currency]

theorem HistoryInv.locked
    (hinv : HistoryInv id h total) {req : ReserveFundsRequest}
    (hid : req.reservationId = id)
    (hok : RetryOk id h (.reserveFunds req))
    (hres : h.books.reservations.lookup req.reservationId = none)
    (hfunds : ¬ Refused h.books req)
    (hbooks : (reserveFunds h.books req).1 =
      { h.books.modifyBalance req.userId req.currency (·.reserve req.amount) with
        reservations := h.books.reservations.insert req.reservationId
          { userId := req.userId
            orderId := req.orderId
            currency := req.currency
            amount := req.amount } })
    (hsuccess : (reserveFunds h.books req).2.success = true) :
    CallEffect id h total (.reserveFunds req) := by
  obtain ⟨hexact, hretry⟩ := hok hid
  have hmoved : movedUnder id h.books (.reserveFunds req) = req.amount.toRat := by
    rw [movedUnder, if_pos hid, hbooks]
    exact reserved_of_locked hexact hres hfunds
  have hhonours : honours id h.books (.reserveFunds req) = some req := by
    rw [honours, if_pos ⟨hid, hsuccess⟩]
  have hrow : (step h.books (.reserveFunds req)).reservations.lookup id =
      some { userId := req.userId
             orderId := req.orderId
             currency := req.currency
             amount := req.amount } := by
    rw [step, hbooks, hid]
    exact lookup_insert _
  -- the first honoured request after the call, and what it leaves to be moved
  obtain ⟨first, hfirst, hterms, hle⟩ :
      ∃ first, (historyStep id h (.reserveFunds req)).first = some first ∧
        SameTerms first req ∧ total + req.amount.toRat ≤ first.amount.toRat := by
    cases hfirst : h.first with
    | none =>
        refine ⟨req, ?_, ⟨rfl, rfl, rfl⟩, ?_⟩
        · rw [historyStep, hfirst, hhonours, none_or]
        · rw [(hinv.fresh hfirst).2, zero_add]
    | some first =>
        refine ⟨first, by rw [historyStep, hfirst, some_or], ?_⟩
        rcases hretry first hfirst with hrefused | ⟨hterms, hpresent | hnonpos⟩
        · exact absurd hrefused hfunds
        · rw [← hid] at hpresent
          exact absurd hres hpresent
        · refine ⟨hterms, ?_⟩
          have htotal := (hinv.honoured first hfirst).1
          linarith
  refine ⟨⟨?_, ?_⟩, ?_⟩
  · intro hnone
    rw [hfirst] at hnone
    cases hnone
  · intro first' hmem
    rw [hfirst] at hmem
    obtain rfl := Option.some.inj hmem
    rw [hmoved]
    refine ⟨hle, ?_⟩
    intro r hr
    rw [historyStep, hrow] at hr
    obtain rfl := Option.some.inj hr
    exact ⟨hterms.userId.symm, hterms.currency.symm⟩
  · intro req' hreq'
    rw [hhonours] at hreq'
    obtain rfl := Option.some.inj hreq'
    exact ⟨⟨first, hfirst, hterms⟩, _, hrow, rfl, rfl⟩

theorem HistoryInv.step (hinv : HistoryInv id h total) {call : Call} (hok : RetryOk id h call) :
    CallEffect id h total call := by
  cases call with
  | reserveFunds req =>
      by_cases hid : req.reservationId = id
      · rcases reserveFunds_cases h.books req with
          ⟨r, hres, hbooks, -⟩ | ⟨hrefused, hbooks, hsuccess⟩ | ⟨hres, hfunds, hbooks, hsuccess⟩
        · exact hinv.known hid hok hres hbooks
        · refine hinv.quiet ?_ ?_ ?_
          · rw [honours, if_neg (by simp [hsuccess])]
          · rw [movedUnder, if_pos hid, hbooks, balance_modifyBalance, if_pos ⟨rfl, rfl⟩, sub_self]
          · rw [Ledger.step, hbooks]
            exact .refl id h.books
        · exact hinv.locked hid hok hres hfunds hbooks hsuccess
      · refine hinv.quiet ?_ ?_ ?_
        · rw [honours, if_neg (fun h => hid h.1)]
        · rw [movedUnder, if_neg hid]
        · refine .of_lookup ?_
          intro r hr
          rwa [Ledger.step, lookup_reserveFunds_ne hid] at hr
  | releaseFunds reservationId =>
      exact hinv.quiet rfl rfl (keepsOwner_releaseFunds reservationId)
  | applyBatchResult batch alreadyProcessed =>
      refine hinv.quiet rfl rfl ?_
      cases alreadyProcessed with
      | true => exact .refl id h.books
      | false => exact keepsOwner_applyBatchLocked batch

theorem HistoryInv.total_le (hinv : HistoryInv id h total) : total ≤ h.amount := by
  rw [ReservationHistory.amount]
  cases hfirst : h.first with
  | none => exact (hinv.fresh hfirst).2.le
  | some first => exact (hinv.honoured first hfirst).1

end Histories

section Runs

variable {id : String} {s : LedgerUseCases}

/-- A reservation id without a reservation is honoured once along every run in which
each request of an honoured id is refused, or repeats the first one while its
reservation is still there or locks nothing. -/
theorem honoured_once_of_retries_ok (hopening : s.reservations.lookup id = none)
    {calls : List Call} (hmeet : StepsMeet (historyStep id) (RetryOk id) { books := s } calls) :
    HonouredOnce id s calls := by
  have hinit : HistoryInv id { books := s } 0 :=
    ⟨fun _ => ⟨hopening, rfl⟩, fun _ hmem => nomatch hmem⟩
  constructor
  · have hknown : ∀ h call, (∃ total, HistoryInv id h total) → RetryOk id h call →
        ∃ total, HistoryInv id (historyStep id h call) total := by
      rintro h call ⟨total, hinv⟩ hok
      exact ⟨_, (hinv.step hok).inv⟩
    refine (hmeet.with_invariant hknown ⟨0, hinit⟩).imp ?_
    rintro h call ⟨⟨total, hinv⟩, hok⟩
    exact (hinv.step hok).refers
  · intro n
    rw [← List.take_append_drop n calls] at hmeet
    have hrun := run_invariant_sum (HistoryInv id) (fun h => movedUnder id h.books)
      (fun _ _ _ hinv hok => (hinv.step hok).inv) hinit hmeet.prefix
    rw [zero_add] at hrun
    exact hrun.total_le

end Runs

/-- A request of 9000 USDT under the id `o1`, retried while it is reserved; after the
release another order takes the funds, and a late retry is refused. -/
def refusedRetry : List Call :=
  let first : ReserveFundsRequest := { demoReserve with amount := Decimal.of 9000 0 }
  [.reserveFunds first, .reserveFunds first, .releaseFunds "o1",
    .reserveFunds { first with reservationId := "o2", orderId := "o2" }, .reserveFunds first]

/-- The id `o1` is honoured once in `refusedRetry`. -/
theorem refusedRetry_honoured_once : HonouredOnce "o1" LedgerUseCases.demoSeed refusedRetry :=
  honoured_once_of_retries_ok rfl (by decide +kernel)

/-- A retry after the release locks the funds again; a request of another user and
amount under a known id is answered with success. -/
theorem reservation_honoured_again :
    ¬ HonouredOnce "o1" LedgerUseCases.demoSeed
        [.reserveFunds demoReserve, .releaseFunds "o1", .reserveFunds demoReserve] ∧
      ¬ HonouredOnce "o1" LedgerUseCases.demoSeed
          [.reserveFunds demoReserve,
            .reserveFunds { demoReserve with userId := "u2", amount := Decimal.of 1 0 }] := by
  constructor
  · rintro ⟨-, htotal⟩
    have hthree := htotal 3
    revert hthree
    decide +kernel
  · rintro ⟨⟨-, hanswer, -⟩, -⟩
    obtain ⟨⟨first, hfirst, hterms⟩, -⟩ := hanswer _ rfl
    obtain rfl := Option.some.inj hfirst
    have huser := hterms.userId
    revert huser
    decide

end Ledger
end ContExchange
