import ContExchange.Ledger.Operations
import ContExchange.Lib.Postings

/-!
# Ledger: the journal of the books

Every operation of the ledger moves money between `available` and `reserved` of
the same account, or adds a signed amount to one of them.  This module writes
the moves of each operation down as postings to the accounts
`(user, currency)`, with a pair of amounts for `available` and `reserved`.

Addition and subtraction of decimals are exact as long as the result fits a
64-bit mantissa at the common scale.  Under this condition the books after an
operation are the books before it plus the postings.
-/

namespace ContExchange
namespace Ledger

open Common Lib Decimal Balance LedgerUseCases
open Posts hiding insert

/-- A posting to the balance of a user in a currency. -/
abbrev BalancePosting := Posting (String × String) (ℚ × ℚ)

namespace Balance

/-- The two amounts of a balance. -/
def value (b : Balance) : ℚ × ℚ :=
  (b.available.toRat, b.reserved.toRat)

/-- The sums of `reserve` fit. -/
def ReserveExact (b : Balance) (want : Decimal) : Prop :=
  Decimal.SubExact b.available want ∧ Decimal.AddExact b.reserved want
deriving Decidable

/-- The sums of `release` fit. -/
def ReleaseExact (b : Balance) (amount : Decimal) : Prop :=
  Decimal.SubExact b.reserved amount ∧ Decimal.AddExact b.available amount
deriving Decidable

section Values

variable {b : Balance} {amount : Decimal}

theorem value_reserve (h : b.ReserveExact amount) :
    (b.reserve amount).value = b.value + (-amount.toRat, amount.toRat) := by
  have hsub := sub_toRat h.1
  have hadd := add_toRat h.2
  simp only [value, reserve, hsub, hadd, Prod.mk_add_mk, sub_eq_add_neg]

theorem value_release (h : b.ReleaseExact amount) :
    (b.release amount).value = b.value + (amount.toRat, -amount.toRat) := by
  have hsub := sub_toRat h.1
  have hadd := add_toRat h.2
  simp only [value, release, hsub, hadd, Prod.mk_add_mk, sub_eq_add_neg]

theorem value_spend (h : Decimal.SubExact b.reserved amount) :
    (b.spend amount).value = b.value + (0, -amount.toRat) := by
  have hsub := sub_toRat h
  simp only [value, spend, hsub, Prod.mk_add_mk, add_zero, sub_eq_add_neg]

theorem value_credit (h : Decimal.AddExact b.available amount) :
    (b.credit amount).value = b.value + (amount.toRat, 0) := by
  have hadd := add_toRat h
  simp only [value, credit, hadd, Prod.mk_add_mk, add_zero]

theorem value_charge (h : Decimal.SubExact b.available amount) :
    (b.charge amount).value = b.value + (-amount.toRat, 0) := by
  have hsub := sub_toRat h
  simp only [value, charge, hsub, Prod.mk_add_mk, add_zero, sub_eq_add_neg]

end Values

end Balance

theorem valueAt_balances (s : LedgerUseCases) (user currency : String) :
    valueAt value s.balances (user, currency) = (s.balance user currency).value := by
  rw [balance, valueAt]
  cases s.balances.lookup (user, currency) with
  | none => simp [value, Prod.ext_iff]
  | some b => rfl

theorem posts_modifyBalance (s : LedgerUseCases) (user currency : String) (f : Balance → Balance)
    {amount : ℚ × ℚ}
    (h : (f (s.balance user currency)).value = (s.balance user currency).value + amount) :
    Posts value s.balances [⟨(user, currency), amount⟩]
      (s.modifyBalance user currency f).balances := by
  apply Posts.insert
  rw [h, valueAt_balances]

/-- The move of `ReserveFunds`, unless the id is known or the funds are missing. -/
def reservePostings (s : LedgerUseCases) (req : ReserveFundsRequest) : List BalancePosting :=
  match s.reservations.lookup req.reservationId with
  | some _ => []
  | none =>
      if Decimal.cmp (s.balance req.userId req.currency).available req.amount < 0 then []
      else [⟨(req.userId, req.currency), (-req.amount.toRat, req.amount.toRat)⟩]

/-- The move back of a reservation. -/
def releasePosting (r : Reservation) : BalancePosting :=
  ⟨(r.userId, r.currency), (r.amount.toRat, -r.amount.toRat)⟩

/-- The move of `ReleaseFunds`. -/
def releasePostings (s : LedgerUseCases) (reservationId : String) : List BalancePosting :=
  (s.reservations.lookup reservationId).toList.map releasePosting

/-- The leftover a terminal order update gives back. -/
def updatePostings (s : LedgerUseCases) (upd : OrderStateUpdate) : List BalancePosting :=
  if upd.status.isTerminal then
    match s.reservations.lookup upd.orderId with
    | none => []
    | some r => if 0 < Decimal.cmp r.amount Decimal.zero then [releasePosting r] else []
  else []

/-- What a fill takes from `reserved`. -/
def spentPostings (fill : FlowFill) : List BalancePosting :=
  (spent fill).toList.map (fun m => ⟨(fill.userId, m.1), (0, -m.2.toRat)⟩)

/-- What a fill adds to `available`. -/
def receivedPostings (fill : FlowFill) : List BalancePosting :=
  (received fill).toList.map (fun m => ⟨(fill.userId, m.1), (m.2.toRat, 0)⟩)

def feePostings (fill : FlowFill) : List BalancePosting :=
  (charged fill).toList.map (fun m => ⟨(fill.userId, m.1), (-m.2.toRat, 0)⟩)

def fillPostings (fill : FlowFill) : List BalancePosting :=
  spentPostings fill ++ receivedPostings fill ++ feePostings fill

/-- The moves of the locked section of `ApplyBatchResult`. -/
def batchPostings (s : LedgerUseCases) (batch : BatchResult) : List BalancePosting :=
  batch.fills.flatMap fillPostings ++
    journal applyOrderUpdate updatePostings (run applyFill s batch.fills) batch.orderUpdates

def callPostings (s : LedgerUseCases) : Call → List BalancePosting
  | .reserveFunds req => reservePostings s req
  | .releaseFunds reservationId => releasePostings s reservationId
  | .applyBatchResult batch alreadyProcessed =>
      if alreadyProcessed then [] else batchPostings s batch

/-- The sums a fill makes fit a 64-bit mantissa. -/
def FillExact (s : LedgerUseCases) (fill : FlowFill) : Prop :=
  (∀ m ∈ spent fill, Decimal.SubExact (s.balance fill.userId m.1).reserved m.2) ∧
    (∀ m ∈ received fill,
      Decimal.AddExact ((applySpent s fill).balance fill.userId m.1).available m.2) ∧
    (∀ m ∈ charged fill,
      Decimal.SubExact
        ((applyReceived (applySpent s fill) fill).balance fill.userId m.1).available m.2)
deriving Decidable

/-- The sums a terminal order update makes fit. -/
def UpdateExact (s : LedgerUseCases) (upd : OrderStateUpdate) : Prop :=
  upd.status.isTerminal = true →
    ∀ r ∈ s.reservations.lookup upd.orderId,
      0 < Decimal.cmp r.amount Decimal.zero →
        (s.balance r.userId r.currency).ReleaseExact r.amount
deriving Decidable

/-- The sums a call makes fit a 64-bit mantissa at their common scale. -/
def CallExact (s : LedgerUseCases) : Call → Prop
  | .reserveFunds req =>
      s.reservations.lookup req.reservationId = none →
        0 ≤ Decimal.cmp (s.balance req.userId req.currency).available req.amount →
          (s.balance req.userId req.currency).ReserveExact req.amount
  | .releaseFunds reservationId =>
      ∀ r ∈ s.reservations.lookup reservationId,
        (s.balance r.userId r.currency).ReleaseExact r.amount
  | .applyBatchResult batch alreadyProcessed =>
      alreadyProcessed = false →
        StepsMeet applyFill FillExact s batch.fills ∧
          StepsMeet applyOrderUpdate UpdateExact (run applyFill s batch.fills)
            batch.orderUpdates

instance (s : LedgerUseCases) (call : Call) : Decidable (CallExact s call) :=
  match call with
  | .reserveFunds _ => inferInstanceAs (Decidable (_ → _))
  | .releaseFunds _ => inferInstanceAs (Decidable (∀ _ ∈ _, _))
  | .applyBatchResult _ _ => inferInstanceAs (Decidable (_ → _))

section Books

variable (s : LedgerUseCases)

theorem posts_reserveFunds (req : ReserveFundsRequest) (hexact : CallExact s (.reserveFunds req)) :
    Posts value s.balances (reservePostings s req) (reserveFunds s req).1.balances := by
  rw [reservePostings, reserveFunds]
  cases hres : s.reservations.lookup req.reservationId with
  | some existing => exact refl _
  | none =>
      by_cases hcmp : Decimal.cmp (s.balance req.userId req.currency).available req.amount < 0
      · simp only [if_pos hcmp]
        apply insert_same
        rw [valueAt_balances]
        rfl
      · simp only [if_neg hcmp]
        exact posts_modifyBalance s req.userId req.currency (·.reserve req.amount)
          (value_reserve (hexact hres (not_lt.mp hcmp)))

theorem posts_releaseFunds (reservationId : String)
    (hexact : CallExact s (.releaseFunds reservationId)) :
    Posts value s.balances (releasePostings s reservationId)
      (releaseFunds s reservationId).balances := by
  rw [releasePostings, releaseFunds]
  cases hres : s.reservations.lookup reservationId with
  | none => exact refl _
  | some r =>
      exact posts_modifyBalance s r.userId r.currency (·.release r.amount)
        (value_release (hexact r hres))

theorem balances_consumeReservation (orderId : String) (amount : Decimal) :
    (consumeReservation s orderId amount).balances = s.balances := by
  rw [consumeReservation]
  split <;> rfl

theorem posts_applySpent (fill : FlowFill)
    (hexact : ∀ m ∈ spent fill, Decimal.SubExact (s.balance fill.userId m.1).reserved m.2) :
    Posts value s.balances (spentPostings fill) (applySpent s fill).balances := by
  rw [spentPostings, applySpent]
  cases hspent : spent fill with
  | none => exact refl _
  | some m =>
      obtain ⟨currency, amount⟩ := m
      simp only [balances_consumeReservation]
      exact posts_modifyBalance s fill.userId currency (·.spend amount)
        (value_spend (hexact (currency, amount) hspent))

theorem posts_applyReceived (fill : FlowFill)
    (hexact : ∀ m ∈ received fill, Decimal.AddExact (s.balance fill.userId m.1).available m.2) :
    Posts value s.balances (receivedPostings fill) (applyReceived s fill).balances := by
  rw [receivedPostings, applyReceived]
  cases hreceived : received fill with
  | none => exact refl _
  | some m =>
      exact posts_modifyBalance s fill.userId m.1 (·.credit m.2) (value_credit (hexact m hreceived))

theorem posts_applyFee (fill : FlowFill)
    (hexact : ∀ m ∈ charged fill, Decimal.SubExact (s.balance fill.userId m.1).available m.2) :
    Posts value s.balances (feePostings fill) (applyFee s fill).balances := by
  rw [feePostings, applyFee]
  cases hcharged : charged fill with
  | none => exact refl _
  | some m =>
      obtain ⟨currency, amount⟩ := m
      have hpaid := posts_modifyBalance s fill.userId currency (·.charge amount)
        (value_charge (hexact (currency, amount) hcharged))
      by_cases hquote : currency = fill.instrument.quote
      · simp only [if_pos hquote]
        exact hpaid
      · simp only [if_neg hquote]
        exact hpaid

theorem posts_applyFill (fill : FlowFill) (hexact : FillExact s fill) :
    Posts value s.balances (fillPostings fill) (applyFill s fill).balances := by
  have hspent := posts_applySpent s fill hexact.1
  have hreceived := posts_applyReceived (applySpent s fill) fill hexact.2.1
  have hfee := posts_applyFee
    (updatePositionForFill (applyReceived (applySpent s fill) fill) fill) fill hexact.2.2
  exact (hspent.trans hreceived).trans hfee

theorem posts_applyOrderUpdate (upd : OrderStateUpdate) (hexact : UpdateExact s upd) :
    Posts value s.balances (updatePostings s upd) (applyOrderUpdate s upd).balances := by
  rw [updatePostings, applyOrderUpdate]
  by_cases hterm : upd.status.isTerminal = true
  · simp only [if_pos hterm]
    cases hres : s.reservations.lookup upd.orderId with
    | none => exact refl _
    | some r =>
        by_cases hpos : 0 < Decimal.cmp r.amount .zero
        · simp only [if_pos hpos]
          exact posts_modifyBalance s r.userId r.currency (·.release r.amount)
            (value_release (hexact hterm r hres hpos))
        · simp only [if_neg hpos]
          exact refl _
  · simp only [if_neg hterm]
    exact refl _

theorem posts_applyBatchLocked
    (batch : BatchResult)
    (hfills : StepsMeet applyFill FillExact s batch.fills)
    (hupdates : StepsMeet applyOrderUpdate UpdateExact (run applyFill s batch.fills)
      batch.orderUpdates) :
    Posts value s.balances (batchPostings s batch) (applyBatchLocked s batch).balances := by
  have hfilled := run balances posts_applyFill hfills
  have hupdated := run balances posts_applyOrderUpdate hupdates
  rw [journal_eq_flatMap] at hfilled
  exact hfilled.trans hupdated

theorem posts_step (call : Call) (hexact : CallExact s call) :
    Posts value s.balances (callPostings s call) (step s call).balances := by
  cases call with
  | reserveFunds req => exact posts_reserveFunds s req hexact
  | releaseFunds reservationId => exact posts_releaseFunds s reservationId hexact
  | applyBatchResult batch alreadyProcessed =>
      cases alreadyProcessed with
      | true => exact refl _
      | false =>
          obtain ⟨hfills, hupdates⟩ := hexact rfl
          exact posts_applyBatchLocked s batch hfills hupdates

theorem posts_run (calls : List Call) (hexact : StepsMeet step CallExact s calls) :
    Posts value s.balances (journal step callPostings s calls) (run step s calls).balances :=
  run balances posts_step hexact

end Books

end Ledger
end ContExchange
