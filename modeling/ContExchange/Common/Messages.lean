import ContExchange.Common.Decimal
import ContExchange.Lib.Table

/-!
# Common: the messages shared by the services

The protobuf contracts `fob.common.v1`, `fob.matching.v1` and `fob.orders.v1`,
as far as the modelled functions read or write them.  A message field whose
presence the code asks for is an `Option`; an absent decimal reads as
`Decimal{0, 0}`.
-/

namespace ContExchange
namespace Common

inductive Side where
  | unspecified
  | buy
  | sell
deriving DecidableEq

inductive OrderStatus where
  | unspecified
  | new
  | partiallyFilled
  | filled
  | canceled
  | rejected
  | expired
deriving DecidableEq

inductive TimeInForce where
  | unspecified
  | gtc
  | ioc
  | fok
deriving DecidableEq

/-- The terminal statuses: `FILLED`, `CANCELED`, `REJECTED` and `EXPIRED`. -/
def OrderStatus.isTerminal : OrderStatus → Bool
  | .filled | .canceled | .rejected | .expired => true
  | _ => false

structure Instrument where
  symbol : String
  base : String
  quote : String
deriving DecidableEq

/-- `fob.common.v1.Fee`: the cost, with its currency and amount. -/
structure Fee where
  currency : String
  amount : Option Decimal
deriving DecidableEq

structure LiquidityProvenance where
  liquiditySource : String := ""
  venueId : String := ""
  snapshotId : String := ""
  curveId : String := ""
deriving DecidableEq

structure FlowFill where
  orderId : String
  userId : String
  instrument : Instrument
  side : Side
  executedQty : Decimal
  price : Option Decimal
  executedNotional : Decimal
  fee : Option Fee := none
  liquiditySource : String := ""
  provenance : LiquidityProvenance := {}
deriving DecidableEq

structure OrderStateUpdate where
  orderId : String
  status : OrderStatus
  remainingQty : Option Decimal := none
  filledQtyTotal : Option Decimal := none
deriving DecidableEq

structure BatchResult where
  batchId : String := ""
  clearPrices : List (String × Decimal) := []
  executedRates : List (String × Decimal) := []
  fills : List FlowFill
  orderUpdates : List OrderStateUpdate
deriving DecidableEq

end Common
end ContExchange
