import ContExchange.Common.Messages

/-!
# Matching: flow orders

The record `FlowOrder` that the matching service keeps for an order, and the
construction of it from the message of an order event (`FlowOrder::from_proto`).

The limits are signed by side: a BUY order carries the client's limits, a SELL
order carries them negated and exchanged, so `p_high` is always the limit that
the clearing price of the leg must not pass.
-/

namespace ContExchange
namespace Matching

open Common

inductive FlowOrderTimeInForce where
  | gtc
  | gtd
  | ioc
deriving DecidableEq

inductive FlowOrderStatus where
  | new
  | active
  | partiallyFilled
  | filled
  | cancelled
  | expired
  | liquidated
deriving DecidableEq

structure FlowOrderLeg where
  instrumentSymbol : String
  weight : Decimal
deriving DecidableEq

/-- `FlowOrder`; instants are nanoseconds. -/
structure FlowOrder where
  orderId : String
  userId : String
  legs : List FlowOrderLeg
  pLow : Decimal
  pHigh : Decimal
  qRate : Decimal
  qMax : Decimal
  filledCum : Decimal
  timeInForce : FlowOrderTimeInForce := .gtc
  windowStart : Int := 0
  windowEnd : Option Int := none
  status : FlowOrderStatus := .new
  createdAt : Int := 0
  updatedAt : Int := 0
deriving DecidableEq

/-- `fob.orders.v1.FlowOrder`. -/
structure ProtoFlowOrder where
  orderId : String
  userId : String
  instrument : Instrument
  side : Side
  priceLow : Option Decimal := none
  priceHigh : Option Decimal := none
  maxSpeed : Option Decimal := none
  totalQty : Option Decimal := none
  remainingQty : Option Decimal := none
  tif : TimeInForce := .unspecified
  status : OrderStatus := .unspecified
  createdAt : Option Int := none
  updatedAt : Option Int := none
deriving DecidableEq

def mapStatus : OrderStatus → FlowOrderStatus
  | .partiallyFilled => .partiallyFilled
  | .filled => .filled
  | .canceled => .cancelled
  | .expired => .expired
  | .rejected => .liquidated
  | .new => .new
  | .unspecified => .active

def mapTif : TimeInForce → FlowOrderTimeInForce
  | .ioc | .fok => .ioc
  | .gtc | .unspecified => .gtc

def instrumentSymbol (inst : Instrument) : String :=
  if inst.symbol = "" ∧ inst.base ≠ "" ∧ inst.quote ≠ "" then
    inst.base ++ "/" ++ inst.quote
  else inst.symbol

/-- The exact negation `sub({0, 0}, d)` of the source. -/
def negated (d : Decimal) : Decimal :=
  Decimal.sub Decimal.zero d

/-- The limits as the matching domain keeps them: negated and exchanged for SELL. -/
def signedLimits (isSell : Bool) (priceLow priceHigh : Decimal) : Decimal × Decimal :=
  if isSell then (negated priceHigh, negated priceLow) else (priceLow, priceHigh)

/-- `filled_cum` of a new record: total minus remaining, between zero and the total. -/
def initialFilledCum (qMax remaining : Decimal) : Decimal :=
  let filled := Decimal.sub qMax remaining
  let zero := Decimal.zeroAt filled.scale
  let atLeastZero := if Decimal.cmp filled zero < 0 then zero else filled
  if Decimal.cmp atLeastZero qMax > 0 then qMax else atLeastZero

namespace FlowOrder

/-- `FlowOrder::from_proto`; `now` is the clock reading for missing times. -/
def fromProto (now : Int) (o : ProtoFlowOrder) : FlowOrder :=
  let isSell := decide (o.side = .sell)
  let limits := signedLimits isSell
    (o.priceLow.getD Decimal.zero) (o.priceHigh.getD Decimal.zero)
  let qMax := o.totalQty.getD Decimal.zero
  let createdAt := o.createdAt.getD now
  { orderId := o.orderId
    userId := o.userId
    legs :=
      [{ instrumentSymbol := instrumentSymbol o.instrument
         weight := if isSell then ⟨-1, 0, by decide⟩ else ⟨1, 0, Decimal.int64Fits_one⟩ }]
    pLow := limits.1
    pHigh := limits.2
    qRate := o.maxSpeed.getD Decimal.zero
    qMax
    filledCum := initialFilledCum qMax (o.remainingQty.getD qMax)
    timeInForce := mapTif o.tif
    windowStart := createdAt
    windowEnd := none
    status := mapStatus o.status
    createdAt
    updatedAt := o.updatedAt.getD createdAt }

def ofClient
    (orderId : String) (side : Side) (priceLow priceHigh maxSpeed totalQty : Decimal) :
    FlowOrder :=
  fromProto 0
    { orderId
      userId := orderId
      instrument := { symbol := "BTC/USDT", base := "BTC", quote := "USDT" }
      side
      priceLow := some priceLow
      priceHigh := some priceHigh
      maxSpeed := some maxSpeed
      totalQty := some totalQty
      tif := .gtc
      status := .new }

def findLeg (o : FlowOrder) (symbol : String) : Option FlowOrderLeg :=
  o.legs.find? (fun leg => leg.instrumentSymbol = symbol)

def remainingQty (o : FlowOrder) : Decimal :=
  let remaining := Decimal.sub o.qMax o.filledCum
  if Decimal.cmp remaining (Decimal.zeroAt remaining.scale) < 0 then
    Decimal.zeroAt remaining.scale
  else remaining

def hasValidFillState (o : FlowOrder) : Bool :=
  decide (Decimal.cmp o.filledCum o.qMax ≤ 0)

end FlowOrder

end Matching
end ContExchange
