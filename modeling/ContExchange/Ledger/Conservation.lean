import ContExchange.Ledger.ExecutionGroup
import ContExchange.Ledger.Safety

/-!
# Ledger: conservation of money

The holdings in a currency are the sum of `available + reserved` over all users.
Trades move money in and out of a currency and fees take it out; reserving,
releasing, the terminal release and the sweep leave the holdings alone.

The postings of every call are brought to this form, and the total over the
accounts of a currency follows from the journal of the run.
-/

namespace ContExchange
namespace Ledger

open Common Lib LegResult Option Trade
open List hiding map_map

/-- `available + reserved` of a pair of amounts. -/
def gross (amounts : ℚ × ℚ) : ℚ :=
  amounts.1 + amounts.2

@[simp] theorem gross_zero : gross 0 = 0 := by
  simp [gross]

@[simp] theorem gross_add (x y : ℚ × ℚ) : gross (x + y) = gross x + gross y := by
  simp only [gross, Prod.fst_add, Prod.snd_add]
  ring

/-- The sum of `available + reserved` of all users in a currency. -/
def holdings (s : LedgerUseCases) (currency : String) : ℚ :=
  gross (total Balance.value (fun account => account.2 = currency) s.balances)

theorem sum_map_sub {α : Type} (f g : α → ℚ) (xs : List α) :
    (xs.map (fun x => f x - g x)).sum = (xs.map f).sum - (xs.map g).sum := by
  induction xs with
  | nil => simp
  | cons x xs ih =>
      simp only [map_cons, sum_cons, ih]
      ring

/-- What a trade adds to the accounts that satisfy `P`: `+qty` in the base and
`-notional` in the quote of a buy, the opposite for a sell. -/
def Trade.flowOn
    (P : String × String → Prop) [DecidablePred P] (t : Trade) : ℚ :=
  match t.market with
  | none => 0
  | some (base, quote) =>
      match t.side with
      | .buy =>
          (if P (t.userId, base) then t.qty.toRat else 0) -
            (if P (t.userId, quote) then t.notional.toRat else 0)
      | .sell =>
          (if P (t.userId, quote) then t.notional.toRat else 0) -
            (if P (t.userId, base) then t.qty.toRat else 0)
      | .unspecified => 0

/-- The fee of a trade on the accounts that satisfy `P`. -/
def Trade.feeOn
    (P : String × String → Prop) [DecidablePred P] (t : Trade) : ℚ :=
  match t.fee with
  | none => 0
  | some (c, amount) => if P (t.userId, c) then amount.toRat else 0

/-- What a trade adds to the holdings in a currency. -/
def Trade.flow (t : Trade) (currency : String) : ℚ :=
  t.flowOn (fun account => account.2 = currency)

def Trade.feeIn (t : Trade) (currency : String) : ℚ :=
  t.feeOn (fun account => account.2 = currency)

/-- The change of the accounts that satisfy `P` by the postings of a list. -/
def grossOn
    (P : String × String → Prop) [DecidablePred P] (ps : List BalancePosting) : ℚ :=
  gross (netOn P ps)

section Postings

variable (P : String × String → Prop) [DecidablePred P]

@[simp] theorem grossOn_nil : grossOn P [] = 0 :=
  gross_zero

@[simp] theorem grossOn_append (ps qs : List BalancePosting) :
    grossOn P (ps ++ qs) = grossOn P ps + grossOn P qs := by
  simp only [grossOn, netOn_append, gross_add]

theorem grossOn_singleton (p : BalancePosting) :
    grossOn P [p] = if P p.account then gross p.amount else 0 := by
  simp only [grossOn, netOn_cons, netOn_nil, add_zero]
  split
  · rfl
  · exact gross_zero

theorem grossOn_flatMap {α : Type} (f : α → List BalancePosting) (xs : List α) :
    grossOn P (xs.flatMap f) = (xs.map (fun x => grossOn P (f x))).sum := by
  induction xs with
  | nil => simp
  | cons x xs ih => simp [ih]

theorem grossOn_releasePosting (r : Reservation) : grossOn P [releasePosting r] = 0 := by
  rw [grossOn_singleton]
  simp [releasePosting, gross]

theorem grossOn_reservePostings (s : LedgerUseCases) (req : ReserveFundsRequest) :
    grossOn P (reservePostings s req) = 0 := by
  rw [reservePostings]
  cases s.reservations.lookup req.reservationId with
  | some existing => simp
  | none =>
      dsimp only
      split
      · simp
      · rw [grossOn_singleton]
        simp [gross]

theorem grossOn_releasePostings (s : LedgerUseCases) (reservationId : String) :
    grossOn P (releasePostings s reservationId) = 0 := by
  rw [releasePostings]
  cases s.reservations.lookup reservationId with
  | none => simp
  | some r => exact grossOn_releasePosting P r

theorem grossOn_updatePostings (s : LedgerUseCases) (upd : OrderStateUpdate) :
    grossOn P (updatePostings s upd) = 0 := by
  rw [updatePostings]
  split
  · cases s.reservations.lookup upd.orderId with
    | none => simp
    | some r =>
        dsimp only
        split
        · exact grossOn_releasePosting P r
        · simp
  · simp

theorem grossOn_journal_updates (s : LedgerUseCases) (updates : List OrderStateUpdate) :
    grossOn P (journal applyOrderUpdate updatePostings s updates) = 0 := by
  induction updates generalizing s with
  | nil => simp
  | cons upd updates ih => simp [grossOn_updatePostings, ih]

theorem grossOn_fillPostings (fill : FlowFill) :
    grossOn P (fillPostings fill) = (tradeOfFill fill).flowOn P - (tradeOfFill fill).feeOn P := by
  have hfee : grossOn P (feePostings fill) = -(tradeOfFill fill).feeOn P := by
    rw [feePostings]
    cases hcharged : charged fill with
    | none => simp [feeOn, tradeOfFill, hcharged]
    | some m =>
        simp only [toList_some, map_cons, map_nil, grossOn_singleton]
        simp only [feeOn, tradeOfFill, hcharged, gross, add_zero]
        split <;> simp
  rw [fillPostings, grossOn_append, grossOn_append, hfee, ← sub_eq_add_neg]
  congr 1
  rw [spentPostings, receivedPostings]
  cases hside : fill.side with
  | unspecified => simp [spent, received, hside, flowOn, tradeOfFill]
  | buy =>
      simp only [spent, received, hside, toList_some, map_cons, map_nil,
        grossOn_singleton, gross, flowOn, tradeOfFill, zero_add, add_zero]
      split <;> split <;> ring
  | sell =>
      simp only [spent, received, hside, toList_some, map_cons, map_nil,
        grossOn_singleton, gross, flowOn, tradeOfFill, zero_add, add_zero]
      split <;> split <;> ring

theorem grossOn_legPostings (userId : String) (leg : LegResult) :
    grossOn P (legPostings userId leg) =
      (tradeOfLeg userId leg).flowOn P - (tradeOfLeg userId leg).feeOn P := by
  rw [legPostings, grossOn_append, paidPostings, gainedPostings]
  cases hmarket : splitSymbol leg.instrumentSymbol with
  | none =>
      simp [paid, gained, hmarket, flowOn, feeOn, tradeOfLeg]
  | some market =>
      cases hside : leg.side with
      | unspecified =>
          simp [paid, gained, hmarket, hside, flowOn, feeOn, tradeOfLeg]
      | buy =>
          simp only [paid, gained, hmarket, hside, toList_some,
            map_cons, map_nil, grossOn_singleton, gross, flowOn, feeOn,
            tradeOfLeg, add_zero]
          split <;> split <;> ring
      | sell =>
          simp only [paid, gained, hmarket, hside, toList_some,
            map_cons, map_nil, grossOn_singleton, gross, flowOn, feeOn,
            tradeOfLeg, add_zero]
          split <;> split <;> ring

theorem grossOn_moneyPostings (s : GroupBooks) (call : MoneyCall) :
    grossOn P (moneyPostings s call) =
      ((appliedTrades s call).map (fun t => t.flowOn P - t.feeOn P)).sum := by
  cases call with
  | applyExecutionGroup eg =>
      rw [moneyPostings, appliedTrades]
      split
      · rw [grossOn_flatMap, List.map_map]
        simp only [grossOn_legPostings, Function.comp_def]
      · simp
  | ledger call =>
      cases call with
      | reserveFunds req => exact grossOn_reservePostings P s.books req
      | releaseFunds reservationId => exact grossOn_releasePostings P s.books reservationId
      | applyBatchResult batch alreadyProcessed =>
          cases alreadyProcessed with
          | true => exact grossOn_nil P
          | false =>
              simp only [moneyPostings, callPostings, batchPostings, appliedTrades,
                Bool.false_eq_true, if_false, grossOn_append, grossOn_journal_updates, add_zero]
              rw [grossOn_flatMap, List.map_map]
              simp only [grossOn_fillPostings, Function.comp_def]

theorem grossOn_journal (s : GroupBooks) (calls : List MoneyCall) :
    grossOn P (journal moneyStep moneyPostings s calls) =
      ((journal moneyStep appliedTrades s calls).map (fun t => t.flowOn P)).sum -
        ((journal moneyStep appliedTrades s calls).map (fun t => t.feeOn P)).sum := by
  rw [← sum_map_sub]
  induction calls generalizing s with
  | nil => simp
  | cons call calls ih => simp [grossOn_moneyPostings, ih]

end Postings

/-- Conservation: over a run whose sums fit, the holdings in a currency change by
the flows of the applied trades less the fees charged in it. -/
theorem holdings_conserved {s : GroupBooks} {calls : List MoneyCall}
    (hexact : StepsMeet moneyStep MoneyExact s calls) (currency : String) :
    holdings (run moneyStep s calls).books currency =
      holdings s.books currency +
        ((journal moneyStep appliedTrades s calls).map (fun t => t.flow currency)).sum -
        ((journal moneyStep appliedTrades s calls).map (fun t => t.feeIn currency)).sum := by
  have htotal := (posts_moneyRun hexact).total (fun account => account.2 = currency)
  rw [holdings, htotal, gross_add, ← holdings, add_sub_assoc]
  congr 1
  exact grossOn_journal (fun account => account.2 = currency) s calls

def demoGroup : ExecutionGroup where
  executionGroupId := "g1"
  userId := "demo-user"
  legResults :=
    [{ instrumentSymbol := "BTC/USDT"
       side := .sell
       execQty := Decimal.of 100000000 8
       execPrice := Decimal.of 5000000 2
       execNotional := Decimal.of 5000000 2 },
     { instrumentSymbol := "ETH/USDT"
       side := .buy
       execQty := Decimal.of 200000000 8
       execPrice := Decimal.of 250000 2
       execNotional := Decimal.zero }]

/-- An order is reserved and filled, then a group is delivered twice. -/
def demoMoneyCalls : List MoneyCall :=
  reserveThenFill.map .ledger ++ [.applyExecutionGroup demoGroup, .applyExecutionGroup demoGroup]

/-- The run of `demoMoneyCalls` conserves the holdings in USDT. -/
theorem demo_holdings_conserved :
    holdings (run moneyStep { books := LedgerUseCases.demoSeed } demoMoneyCalls).books "USDT" =
      holdings LedgerUseCases.demoSeed "USDT" +
        ((journal moneyStep appliedTrades { books := LedgerUseCases.demoSeed }
          demoMoneyCalls).map (fun t => t.flow "USDT")).sum -
        ((journal moneyStep appliedTrades { books := LedgerUseCases.demoSeed }
          demoMoneyCalls).map (fun t => t.feeIn "USDT")).sum :=
  holdings_conserved (by decide +kernel) "USDT"

end Ledger
end ContExchange
