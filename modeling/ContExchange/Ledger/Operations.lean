import ContExchange.Ledger.Books

/-!
# Ledger: reservations and batch results

`ReserveFunds`, `ReleaseFunds` and the locked section of `ApplyBatchResult`.
The fill path spends from `reserved` and decrements the reservation stored under
the order id.  A terminal order update gives the rest of the reservation back;
the sweep at the end drops the reservations that are used up.
-/

namespace ContExchange
namespace Ledger

open Common Lib

structure ReserveFundsRequest where
  reservationId : String
  userId : String
  orderId : String
  currency : String
  amount : Decimal
deriving DecidableEq

/-- `fob.common.v1.Error`. -/
structure LedgerError where
  code : String
  message : String
deriving DecidableEq

structure ReserveFundsResponse where
  success : Bool
  reservedAmount : Option Decimal := none
  error : Option LedgerError := none
deriving DecidableEq

namespace Balance

/-- `available -= want; reserved += want`. -/
def reserve (b : Balance) (want : Decimal) : Balance where
  available := Decimal.sub b.available want
  reserved := Decimal.add b.reserved want

/-- `reserved -= amount; available += amount`. -/
def release (b : Balance) (amount : Decimal) : Balance where
  reserved := Decimal.sub b.reserved amount
  available := Decimal.add b.available amount

/-- `reserved -= amount`. -/
def spend (b : Balance) (amount : Decimal) : Balance :=
  { b with reserved := Decimal.sub b.reserved amount }

/-- `available += amount`. -/
def credit (b : Balance) (amount : Decimal) : Balance :=
  { b with available := Decimal.add b.available amount }

/-- `available -= amount`. -/
def charge (b : Balance) (amount : Decimal) : Balance :=
  { b with available := Decimal.sub b.available amount }

end Balance

def reserveFunds
    (s : LedgerUseCases) (req : ReserveFundsRequest) :
    LedgerUseCases × ReserveFundsResponse :=
  match s.reservations.lookup req.reservationId with
  | some existing => (s, { success := true, reservedAmount := some existing.amount })
  | none =>
      if Decimal.cmp (s.balance req.userId req.currency).available req.amount < 0 then
        (s.modifyBalance req.userId req.currency id,
          { success := false
            error := some
              { code := "INSUFFICIENT_FUNDS"
                message := "Not enough available balance to reserve." } })
      else
        let reserved :=
          s.modifyBalance req.userId req.currency (·.reserve req.amount)
        ({ reserved with
            reservations := reserved.reservations.insert req.reservationId
              { userId := req.userId
                orderId := req.orderId
                currency := req.currency
                amount := req.amount } },
          { success := true, reservedAmount := some req.amount })

/-- `reservations_.erase`. -/
def LedgerUseCases.eraseReservation
    (s : LedgerUseCases) (reservationId : String) : LedgerUseCases :=
  { s with reservations := s.reservations.erase reservationId }

def releaseFunds (s : LedgerUseCases) (reservationId : String) : LedgerUseCases :=
  match s.reservations.lookup reservationId with
  | none => s
  | some r =>
      (s.modifyBalance r.userId r.currency (·.release r.amount)).eraseReservation
        reservationId

/-- The decrement of the order's reservation, if it is still there. -/
def consumeReservation
    (s : LedgerUseCases) (orderId : String) (amount : Decimal) : LedgerUseCases :=
  match s.reservations.lookup orderId with
  | none => s
  | some r =>
      { s with
        reservations := s.reservations.insert orderId
          { r with amount := Decimal.sub r.amount amount } }

/-- The currency and amount a fill spends from `reserved`. -/
def spent (fill : FlowFill) : Option (String × Decimal) :=
  match fill.side with
  | .buy => some (fill.instrument.quote, fill.executedNotional)
  | .sell => some (fill.instrument.base, fill.executedQty)
  | .unspecified => none

/-- The currency and amount a fill adds to `available`. -/
def received (fill : FlowFill) : Option (String × Decimal) :=
  match fill.side with
  | .buy => some (fill.instrument.base, fill.executedQty)
  | .sell => some (fill.instrument.quote, fill.executedNotional)
  | .unspecified => none

def charged (fill : FlowFill) : Option (String × Decimal) :=
  match fill.fee with
  | some ⟨currency, some amount⟩ =>
      some (if currency = "" then fill.instrument.quote else currency, amount)
  | _ => none

/-- The part of a fill that spends: the balance, then the reservation. -/
def applySpent (s : LedgerUseCases) (fill : FlowFill) : LedgerUseCases :=
  match spent fill with
  | none => s
  | some (currency, amount) =>
      consumeReservation (s.modifyBalance fill.userId currency (·.spend amount))
        fill.orderId amount

def applyReceived (s : LedgerUseCases) (fill : FlowFill) : LedgerUseCases :=
  match received fill with
  | none => s
  | some (currency, amount) =>
      s.modifyBalance fill.userId currency (·.credit amount)

/-- The fee of a fill; a fee in the quote currency also lowers the realised PnL. -/
def applyFee (s : LedgerUseCases) (fill : FlowFill) : LedgerUseCases :=
  match charged fill with
  | none => s
  | some (currency, amount) =>
      let paid := s.modifyBalance fill.userId currency (·.charge amount)
      if currency = fill.instrument.quote then
        paid.modifyPosition fill.userId fill.instrument.symbol (fun pos =>
          { pos with realisedPnl := Decimal.sub pos.realisedPnl amount })
      else paid

/-- One round of the loop over the fills. -/
def applyFill (s : LedgerUseCases) (fill : FlowFill) : LedgerUseCases :=
  applyFee (updatePositionForFill (applyReceived (applySpent s fill) fill) fill) fill

/-- One round of the loop over the order updates. -/
def applyOrderUpdate (s : LedgerUseCases) (upd : OrderStateUpdate) : LedgerUseCases :=
  if upd.status.isTerminal then
    match s.reservations.lookup upd.orderId with
    | none => s
    | some r =>
        let returned :=
          if 0 < Decimal.cmp r.amount Decimal.zero then
            s.modifyBalance r.userId r.currency (·.release r.amount)
          else s
        returned.eraseReservation upd.orderId
  else s

/-- The sweep keeps a reservation whose amount is still positive. -/
def keepsReservation (_ : String) (r : Reservation) : Bool :=
  decide (0 < Decimal.cmp r.amount (Decimal.zeroAt r.amount.scale))

/-- The last loop of the locked section. -/
def sweepReservations (s : LedgerUseCases) : LedgerUseCases :=
  { s with reservations := s.reservations.filter keepsReservation }

/-- The locked section of `LedgerUseCases::ApplyBatchResult`. -/
def applyBatchLocked (s : LedgerUseCases) (batch : BatchResult) : LedgerUseCases :=
  sweepReservations
    (run applyOrderUpdate (run applyFill s batch.fills) batch.orderUpdates)

/-- A call of one of the three operations.  `alreadyProcessed` is the answer of
`IsBatchProcessed` for the batch. -/
inductive Call where
  | reserveFunds (req : ReserveFundsRequest)
  | releaseFunds (reservationId : String)
  | applyBatchResult (batch : BatchResult) (alreadyProcessed : Bool)
deriving DecidableEq

/-- The effect of a call on the books. -/
def step (s : LedgerUseCases) : Call → LedgerUseCases
  | .reserveFunds req => (reserveFunds s req).1
  | .releaseFunds reservationId => releaseFunds s reservationId
  | .applyBatchResult batch alreadyProcessed =>
      if alreadyProcessed then s else applyBatchLocked s batch

end Ledger
end ContExchange
