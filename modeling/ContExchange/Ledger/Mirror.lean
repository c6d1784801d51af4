import ContExchange.Ledger.Delivery
import ContExchange.Ledger.Journal

/-!
# Ledger: the accounts mirror

`ReserveFunds` and `ReleaseFunds` repeat their move on the `accounts` table
through `ReserveTx` and `ReleaseTx`; `ApplyBatchResult` sends the deltas of
every fill through `ApplyFillTx`.  All port calls are taken to succeed.

The fees of a batch and the leftovers its terminal order updates give back reach
no port.  `mirror_lag` says by how much the mirror is behind the books, and
`mirror_agrees` that it is not behind as long as there is neither.
-/

namespace ContExchange
namespace Ledger
namespace Mirror

open Common Lib Delivery Decimal List

inductive AccountCall where
  | reserveTx (userId asset : String) (amount : Decimal) (reservationId : String)
  | releaseTx (userId asset : String) (amount : Decimal) (reservationId : String)
  | applyFillTx (accountDeltas : List AccountRow)
deriving DecidableEq

def rowPosting (row : AccountRow) : BalancePosting :=
  ⟨(row.userId, row.asset), (row.freeBalance.toRat, row.reservedBalance.toRat)⟩

/-- The deltas a port call asks for: `free -= amount, reserved += amount`, the
inverse, or the rows as they are. -/
def AccountCall.postings : AccountCall → List BalancePosting
  | .reserveTx userId asset amount _ => [⟨(userId, asset), (-amount.toRat, amount.toRat)⟩]
  | .releaseTx userId asset amount _ => [⟨(userId, asset), (amount.toRat, -amount.toRat)⟩]
  | .applyFillTx accountDeltas => accountDeltas.map rowPosting

def accountCalls (s : LedgerUseCases) : Call → List AccountCall
  | .reserveFunds req =>
      match s.reservations.lookup req.reservationId with
      | some _ => []
      | none =>
          if Decimal.cmp (s.balance req.userId req.currency).available req.amount < 0 then []
          else [.reserveTx req.userId req.currency req.amount req.reservationId]
  | .releaseFunds reservationId =>
      match s.reservations.lookup reservationId with
      | none => []
      | some r => [.releaseTx r.userId r.currency r.amount reservationId]
  | .applyBatchResult batch alreadyProcessed =>
      if alreadyProcessed then []
      else batch.fills.map (fun fill => .applyFillTx (accountDeltas fill))

/-- The deltas a ledger call sends to the account ports. -/
def portPostings (s : LedgerUseCases) (call : Call) : List BalancePosting :=
  (accountCalls s call).flatMap AccountCall.postings

/-- The moves of the books that reach no port: fees and terminal leftovers. -/
def unmirrored (s : LedgerUseCases) : Call → List BalancePosting
  | .applyBatchResult batch false =>
      batch.fills.flatMap feePostings ++
        journal applyOrderUpdate updatePostings (run applyFill s batch.fills) batch.orderUpdates
  | _ => []

/-- For every user and currency, the deltas sent to the ports during the run are
the change of the balance. -/
def Agrees (s : LedgerUseCases) (calls : List Call) : Prop :=
  ∀ user currency,
    net (user, currency) (journal step portPostings s calls) =
      ((run step s calls).balance user currency).value - (s.balance user currency).value

/-- The negation of every amount spent is representable. -/
def NegationsExact : Call → Prop
  | .applyBatchResult batch false =>
      ∀ fill ∈ batch.fills, ∀ m ∈ spent fill, m.2.units ≠ int64Min
  | _ => True

/-- A terminal order update that finds no leftover to give back. -/
def NoLeftover (s : LedgerUseCases) (upd : OrderStateUpdate) : Prop :=
  upd.status.isTerminal = true →
    ∀ r ∈ s.reservations.lookup upd.orderId, Decimal.cmp r.amount Decimal.zero ≤ 0

/-- A batch whose fees cancel out on every balance and whose terminal updates
find no leftover. -/
def NothingUnmirrored (s : LedgerUseCases) : Call → Prop
  | .applyBatchResult batch false =>
      (∀ account, net account (batch.fills.flatMap feePostings) = 0) ∧
        StepsMeet applyOrderUpdate NoLeftover (run applyFill s batch.fills) batch.orderUpdates
  | _ => True

/-- The condition on a call: its sums fit 64 bits, and it moves nothing that the
ports are not told. -/
def CallMirrored (s : LedgerUseCases) (call : Call) : Prop :=
  CallExact s call ∧ NegationsExact call ∧ NothingUnmirrored s call

section Calls

variable (s : LedgerUseCases)

theorem net_accountDeltas (fill : FlowFill) (hneg : ∀ m ∈ spent fill, m.2.units ≠ int64Min)
    (account : String × String) :
    net account ((accountDeltas fill).map rowPosting) =
      net account (spentPostings fill ++ receivedPostings fill) := by
  rw [accountDeltas, spentPostings, receivedPostings]
  rcases hside : fill.side with _ | _ | _
  · simp [spent, received, hside]
  · have hunits := hneg (fill.instrument.quote, fill.executedNotional) (by simp [spent, hside])
    simp [spent, received, hside, rowPosting, negUnits_toRat hunits]
  · have hunits := hneg (fill.instrument.base, fill.executedQty) (by simp [spent, hside])
    simp [spent, received, hside, rowPosting, negUnits_toRat hunits]

theorem net_fills {fills : List FlowFill}
    (hneg : ∀ fill ∈ fills, ∀ m ∈ spent fill, m.2.units ≠ int64Min) (account : String × String) :
    net account (fills.flatMap fillPostings) =
      net account
          ((fills.map (fun fill => AccountCall.applyFillTx (accountDeltas fill))).flatMap
            AccountCall.postings) +
        net account (fills.flatMap feePostings) := by
  induction fills with
  | nil => simp
  | cons fill fills ih =>
      have hfill := net_accountDeltas fill (hneg fill (by simp)) account
      have hfills := ih (fun f hf => hneg f (mem_cons_of_mem _ hf))
      simp only [map_cons, flatMap_cons, net_append, AccountCall.postings,
        fillPostings, hfills, hfill]
      abel

theorem net_callPostings (call : Call) (hneg : NegationsExact call) (account : String × String) :
    net account (callPostings s call) =
      net account (portPostings s call) + net account (unmirrored s call) := by
  cases call with
  | reserveFunds req =>
      simp only [callPostings, reservePostings, portPostings, accountCalls, unmirrored]
      cases s.reservations.lookup req.reservationId with
      | some existing => simp
      | none =>
          dsimp only
          split <;> simp [AccountCall.postings]
  | releaseFunds reservationId =>
      simp only [callPostings, releasePostings, portPostings, accountCalls, unmirrored]
      cases s.reservations.lookup reservationId with
      | none => simp
      | some r => simp [AccountCall.postings, releasePosting]
  | applyBatchResult batch alreadyProcessed =>
      cases alreadyProcessed with
      | true => simp [callPostings, portPostings, accountCalls, unmirrored]
      | false =>
          have hfills := net_fills hneg account
          simp only [callPostings, batchPostings, portPostings, accountCalls, unmirrored,
            net_append, Bool.false_eq_true, if_false, hfills]
          abel

theorem updatePostings_of_noLeftover {upd : OrderStateUpdate} (h : NoLeftover s upd) :
    updatePostings s upd = [] := by
  rw [updatePostings]
  by_cases hterm : upd.status.isTerminal = true
  · rw [if_pos hterm]
    cases hres : s.reservations.lookup upd.orderId with
    | none => rfl
    | some r => exact if_neg (not_lt.mpr (h hterm r hres))
  · rw [if_neg hterm]

theorem journal_of_noLeftover {s : LedgerUseCases} {updates : List OrderStateUpdate}
    (h : StepsMeet applyOrderUpdate NoLeftover s updates) :
    journal applyOrderUpdate updatePostings s updates = [] := by
  induction updates generalizing s with
  | nil => rfl
  | cons upd updates ih =>
      rw [journal_cons, updatePostings_of_noLeftover s h.1, ih h.2]
      rfl

theorem net_unmirrored {call : Call} (h : NothingUnmirrored s call) (account : String × String) :
    net account (unmirrored s call) = 0 := by
  cases call with
  | reserveFunds req => rfl
  | releaseFunds reservationId => rfl
  | applyBatchResult batch alreadyProcessed =>
      cases alreadyProcessed with
      | true => rfl
      | false =>
          rw [unmirrored, net_append, h.1 account, journal_of_noLeftover h.2]
          simp

end Calls

section Runs

variable {s : LedgerUseCases} {calls : List Call}

theorem net_journal (hneg : ∀ call ∈ calls, NegationsExact call) (account : String × String) :
    net account (journal step callPostings s calls) =
      net account (journal step portPostings s calls) +
        net account (journal step unmirrored s calls) := by
  induction calls generalizing s with
  | nil => simp
  | cons call calls ih =>
      have hcall := net_callPostings s call (hneg call (by simp)) account
      have hcalls := ih (s := step s call) (fun c hc => hneg c (mem_cons_of_mem _ hc))
      simp only [journal_cons, net_append, hcall, hcalls]
      abel

theorem mirror_lag (hexact : StepsMeet step CallExact s calls)
    (hneg : ∀ call ∈ calls, NegationsExact call) (user currency : String) :
    ((run step s calls).balance user currency).value =
      (s.balance user currency).value +
        (net (user, currency) (journal step portPostings s calls) +
          net (user, currency) (journal step unmirrored s calls)) := by
  have hposts := posts_run s calls hexact (user, currency)
  rw [valueAt_balances, valueAt_balances, net_journal hneg] at hposts
  exact hposts

theorem agrees_iff_unmirrored_cancels (hexact : StepsMeet step CallExact s calls)
    (hneg : ∀ call ∈ calls, NegationsExact call) :
    Agrees s calls ↔ ∀ account, net account (journal step unmirrored s calls) = 0 := by
  constructor
  · intro h account
    have hlag := mirror_lag hexact hneg account.1 account.2
    rw [h account.1 account.2, ← add_assoc, add_sub_cancel] at hlag
    exact left_eq_add.mp hlag
  · intro h user currency
    rw [mirror_lag hexact hneg user currency, h (user, currency)]
    simp

theorem journal_unmirrored (h : StepsMeet step CallMirrored s calls) (account : String × String) :
    net account (journal step unmirrored s calls) = 0 := by
  induction calls generalizing s with
  | nil => rfl
  | cons call calls ih =>
      rw [journal_cons, net_append, net_unmirrored s h.1.2.2, ih h.2, add_zero]

/-- The accounts mirror follows the books through every run whose calls charge no
fee and leave no leftover. -/
theorem mirror_agrees (h : StepsMeet step CallMirrored s calls) (n : Nat) :
    Agrees s (calls.take n) := by
  rw [← List.take_append_drop n calls] at h
  have hexact := h.prefix.imp (fun _ _ hcall => hcall.1)
  have hneg := h.prefix.forall_mem (fun _ _ hcall => hcall.2.1)
  exact (agrees_iff_unmirrored_cancels hexact hneg).mpr (journal_unmirrored h.prefix)

end Runs

/-- A reservation of exactly what the order of `demoBatch` spends. -/
def exactReserve : ReserveFundsRequest :=
  { demoReserve with amount := Decimal.of 500000 2 }

/-- The fill of `demoBatch` with a fee of 1 USDT. -/
def feeBatch : BatchResult :=
  { demoBatch with
    fills := [{ demoFill with fee := some { currency := "USDT", amount := some (Decimal.of 100 2) } }] }

/-- A leftover given back, or a fee, leaves the mirror behind. -/
theorem mirror_left_behind :
    ¬ Agrees LedgerUseCases.demoSeed reserveThenFill ∧
      ¬ Agrees LedgerUseCases.demoSeed
          [.reserveFunds exactReserve, .applyBatchResult feeBatch false] := by
  constructor
  · intro h
    have husdt := h "demo-user" "USDT"
    revert husdt
    decide +kernel
  · intro h
    have husdt := h "demo-user" "USDT"
    revert husdt
    decide +kernel

/-- A reservation, its full fill and the terminal update are mirrored. -/
theorem exactReserve_mirrored :
    Agrees LedgerUseCases.demoSeed
      ([Call.reserveFunds exactReserve, .applyBatchResult demoBatch false].take 2) := by
  refine mirror_agrees ?_ 2
  refine ⟨⟨by decide +kernel, trivial, trivial⟩, ⟨by decide +kernel, ?_, ?_, ?_⟩, trivial⟩
  · intro fill hfill
    obtain rfl := List.mem_singleton.mp hfill
    decide
  · intro account
    rfl
  · refine ⟨?_, trivial⟩
    intro _
    decide +kernel

end Mirror
end Ledger
end ContExchange
