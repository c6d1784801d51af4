import ContExchange.Ledger.Journal

/-!
# Ledger: execution groups

`ApplyExecutionGroup` posts the legs of a combo order.  A combo reserves nothing,
so each leg settles from `available`; the symbol of the leg names the two
currencies.  A group id is applied once.

The module also names the trades a run applies, the fills of its batches and the
legs of its groups, and shows that the books follow their postings.
-/

namespace ContExchange
namespace Ledger

open Common Lib Balance LedgerUseCases Posts

structure LegResult where
  instrumentSymbol : String
  side : Side
  execQty : Decimal
  execPrice : Decimal
  execNotional : Decimal
deriving DecidableEq

structure ExecutionGroup where
  executionGroupId : String
  userId : String
  legResults : List LegResult
deriving DecidableEq

/-- The base and quote of a symbol, split at the first slash; `none` when there
is no slash or one of the two is empty. -/
def splitSymbol (symbol : String) : Option (String × String) :=
  let base := symbol.toList.takeWhile (· ≠ '/')
  let quote := (symbol.toList.dropWhile (· ≠ '/')).tail
  if base = [] ∨ quote = [] then none
  else some (String.ofList base, String.ofList quote)

/-- The notional of a leg: the one it carries, or quantity times price. -/
def LegResult.notional (leg : LegResult) : Decimal :=
  if Decimal.cmp leg.execNotional (Decimal.zeroAt leg.execNotional.scale) ≤ 0 then
    Decimal.mul leg.execQty leg.execPrice
  else leg.execNotional

/-- The fill a leg is posted to the position as. -/
def LegResult.fill (userId : String) (leg : LegResult) : FlowFill where
  orderId := ""
  userId := userId
  instrument := { symbol := leg.instrumentSymbol, base := "", quote := "" }
  side := leg.side
  executedQty := leg.execQty
  price := some leg.execPrice
  executedNotional := Decimal.zero

/-- The currency and amount a leg takes from `available`. -/
def LegResult.paid (leg : LegResult) : Option (String × Decimal) :=
  match splitSymbol leg.instrumentSymbol, leg.side with
  | some (_, quote), .buy => some (quote, leg.notional)
  | some (base, _), .sell => some (base, leg.execQty)
  | _, _ => none

/-- The currency and amount a leg adds to `available`. -/
def LegResult.gained (leg : LegResult) : Option (String × Decimal) :=
  match splitSymbol leg.instrumentSymbol, leg.side with
  | some (base, _), .buy => some (base, leg.execQty)
  | some (_, quote), .sell => some (quote, leg.notional)
  | _, _ => none

/-- The part of a leg that takes from `available`. -/
def applyPaid (userId : String) (s : LedgerUseCases) (leg : LegResult) : LedgerUseCases :=
  match leg.paid with
  | none => s
  | some (currency, amount) => s.modifyBalance userId currency (·.charge amount)

/-- The part of a leg that adds to `available`. -/
def applyGained (userId : String) (s : LedgerUseCases) (leg : LegResult) : LedgerUseCases :=
  match leg.gained with
  | none => s
  | some (currency, amount) => s.modifyBalance userId currency (·.credit amount)

/-- One round of the loop over the legs. -/
def applyLeg (userId : String) (s : LedgerUseCases) (leg : LegResult) : LedgerUseCases :=
  applyGained userId (applyPaid userId (updatePositionForFill s (leg.fill userId)) leg) leg

/-- The books with the set `seen_execution_group_ids_`. -/
structure GroupBooks where
  books : LedgerUseCases
  seenExecutionGroupIds : List String := []

def GroupBooks.Applies (s : GroupBooks) (eg : ExecutionGroup) : Prop :=
  eg.legResults ≠ [] ∧ eg.executionGroupId ∉ s.seenExecutionGroupIds
deriving Decidable

def applyExecutionGroup (s : GroupBooks) (eg : ExecutionGroup) : GroupBooks :=
  if s.Applies eg then
    { books := run (applyLeg eg.userId) s.books eg.legResults
      seenExecutionGroupIds := eg.executionGroupId :: s.seenExecutionGroupIds }
  else s

/-- A call that moves money: one of the calls of `Call` or an execution group. -/
inductive MoneyCall where
  | ledger (call : Call)
  | applyExecutionGroup (eg : ExecutionGroup)
deriving DecidableEq

def moneyStep (s : GroupBooks) : MoneyCall → GroupBooks
  | .ledger call => { s with books := step s.books call }
  | .applyExecutionGroup eg => applyExecutionGroup s eg

/-- A fill or a leg: the market is the base and quote currency its money moves
in, if it has one. -/
structure Trade where
  userId : String
  symbol : String
  market : Option (String × String)
  side : Side
  qty : Decimal
  notional : Decimal
  fee : Option (String × Decimal)
deriving DecidableEq

def tradeOfFill (fill : FlowFill) : Trade where
  userId := fill.userId
  symbol := fill.instrument.symbol
  market := some (fill.instrument.base, fill.instrument.quote)
  side := fill.side
  qty := fill.executedQty
  notional := fill.executedNotional
  fee := charged fill

def tradeOfLeg (userId : String) (leg : LegResult) : Trade where
  userId := userId
  symbol := leg.instrumentSymbol
  market := splitSymbol leg.instrumentSymbol
  side := leg.side
  qty := leg.execQty
  notional := leg.notional
  fee := none

def appliedTrades (s : GroupBooks) : MoneyCall → List Trade
  | .ledger (.applyBatchResult batch false) => batch.fills.map tradeOfFill
  | .applyExecutionGroup eg =>
      if s.Applies eg then eg.legResults.map (tradeOfLeg eg.userId) else []
  | _ => []

/-- What a leg takes from `available`. -/
def paidPostings (userId : String) (leg : LegResult) : List BalancePosting :=
  leg.paid.toList.map (fun m => ⟨(userId, m.1), (-m.2.toRat, 0)⟩)

/-- What a leg adds to `available`. -/
def gainedPostings (userId : String) (leg : LegResult) : List BalancePosting :=
  leg.gained.toList.map (fun m => ⟨(userId, m.1), (m.2.toRat, 0)⟩)

def legPostings (userId : String) (leg : LegResult) : List BalancePosting :=
  paidPostings userId leg ++ gainedPostings userId leg

def moneyPostings (s : GroupBooks) : MoneyCall → List BalancePosting
  | .ledger call => callPostings s.books call
  | .applyExecutionGroup eg =>
      if s.Applies eg then eg.legResults.flatMap (legPostings eg.userId) else []

/-- The sums a leg makes fit a 64-bit mantissa. -/
def LegExact (userId : String) (s : LedgerUseCases) (leg : LegResult) : Prop :=
  (∀ m ∈ leg.paid, Decimal.SubExact (s.balance userId m.1).available m.2) ∧
    (∀ m ∈ leg.gained,
      Decimal.AddExact ((applyPaid userId s leg).balance userId m.1).available m.2)
deriving Decidable

/-- The sums a call makes fit a 64-bit mantissa at their common scale. -/
def MoneyExact (s : GroupBooks) : MoneyCall → Prop
  | .ledger call => CallExact s.books call
  | .applyExecutionGroup eg =>
      s.Applies eg → StepsMeet (applyLeg eg.userId) (LegExact eg.userId) s.books eg.legResults

instance (s : GroupBooks) (call : MoneyCall) : Decidable (MoneyExact s call) :=
  match call with
  | .ledger call => inferInstanceAs (Decidable (CallExact s.books call))
  | .applyExecutionGroup _ => inferInstanceAs (Decidable (_ → _))

section Books

theorem posts_applyPaid (userId : String) (s : LedgerUseCases) (leg : LegResult)
    (hexact : ∀ m ∈ leg.paid, Decimal.SubExact (s.balance userId m.1).available m.2) :
    Posts value s.balances (paidPostings userId leg) (applyPaid userId s leg).balances := by
  rw [paidPostings, applyPaid]
  cases hpaid : leg.paid with
  | none => exact refl _
  | some m =>
      exact posts_modifyBalance s userId m.1 (·.charge m.2) (value_charge (hexact m hpaid))

theorem posts_applyGained (userId : String) (s : LedgerUseCases) (leg : LegResult)
    (hexact : ∀ m ∈ leg.gained, Decimal.AddExact (s.balance userId m.1).available m.2) :
    Posts value s.balances (gainedPostings userId leg) (applyGained userId s leg).balances := by
  rw [gainedPostings, applyGained]
  cases hgained : leg.gained with
  | none => exact refl _
  | some m =>
      exact posts_modifyBalance s userId m.1 (·.credit m.2) (value_credit (hexact m hgained))

theorem posts_applyLeg (userId : String) (s : LedgerUseCases) (leg : LegResult)
    (hexact : LegExact userId s leg) :
    Posts value s.balances (legPostings userId leg) (applyLeg userId s leg).balances := by
  have hpaid := posts_applyPaid userId (updatePositionForFill s (leg.fill userId)) leg hexact.1
  have hgained := posts_applyGained userId
    (applyPaid userId (updatePositionForFill s (leg.fill userId)) leg) leg
  refine hpaid.trans (hgained ?_)
  intro m hm
  have hadd := hexact.2 m hm
  have hbalance : (applyPaid userId (updatePositionForFill s (leg.fill userId)) leg).balances =
      (applyPaid userId s leg).balances := by
    rw [applyPaid, applyPaid]
    cases leg.paid <;> rfl
  rw [balance, hbalance]
  exact hadd

theorem posts_moneyStep (s : GroupBooks) (call : MoneyCall) (hexact : MoneyExact s call) :
    Posts value s.books.balances (moneyPostings s call) (moneyStep s call).books.balances := by
  cases call with
  | ledger call => exact posts_step s.books call hexact
  | applyExecutionGroup eg =>
      rw [moneyPostings, moneyStep, applyExecutionGroup]
      by_cases happlies : s.Applies eg
      · rw [if_pos happlies, if_pos happlies]
        have hlegs := run balances (posts_applyLeg eg.userId) (hexact happlies)
        rw [journal_eq_flatMap] at hlegs
        exact hlegs
      · rw [if_neg happlies, if_neg happlies]
        exact refl _

theorem posts_moneyRun {s : GroupBooks} {calls : List MoneyCall}
    (hexact : StepsMeet moneyStep MoneyExact s calls) :
    Posts value s.books.balances (journal moneyStep moneyPostings s calls)
      (run moneyStep s calls).books.balances :=
  run (fun s => s.books.balances) posts_moneyStep hexact

end Books

end Ledger
end ContExchange
