import ContExchange.Common.PgDecimals
import ContExchange.Matching.Curve

/-!
# Matching: flow orders in the database

The table `flow_orders` with its legs, and what the services do with it: order
flow inserts a row for an accepted order (`InsertFlowOrder`), matching loads the
rows that are active (`LoadActiveFlowOrders`) and adds the fills of a batch to
them (`UpdateFilledVolumes`).  A function that throws returns `none`; its
transaction is rolled back.

A NUMERIC(38, 18) column holds a whole number of units of the eighteenth place.
Instants are seconds here, as the queries use them.
-/

namespace ContExchange
namespace Matching

open Common Lib

/-- The value of a NUMERIC(38, 18) column. -/
structure PgNumeric where
  units : Int
deriving DecidableEq

namespace PgNumeric

/-- The rational value. -/
def toRat (z : PgNumeric) : ℚ :=
  z.units / 10 ^ 18

def zero : PgNumeric := ⟨0⟩

end PgNumeric

/-- The mantissa without trailing zeros, and the places that are left. -/
def stripZeros : (places : Nat) → Int → Int × Nat
  | 0, units => (units, 0)
  | n + 1, units => if units % 10 = 0 then stripZeros n (units / 10) else (units, n + 1)

/-- `ParsePgNumeric`; `none` is the `std::overflow_error`. -/
def parsePgNumeric (z : PgNumeric) : Option Decimal :=
  let r := stripZeros 18 z.units
  if h : Int64Fits r.1 then some ⟨r.1, r.2, h⟩ else none

/-- `Decimal::to_string` prints a number: the power of ten is not zero, the smallest mantissa
has no `llabs`, and a power of ten that has overflowed below zero puts no second sign. -/
def Prints (d : Decimal) : Prop :=
  pow10I d.scale ≠ 0 ∧ d.units ≠ int64Min ∧
    ¬ (d.units < 0 ∧ pow10I d.scale < 0 ∧ d.units.natAbs / (pow10I d.scale).natAbs ≠ 0)
deriving Decidable

/-- The value that `Decimal::to_string` prints: the whole part and the places of the mantissa
over a power of ten of 64 bits.  A negative scale is not applied. -/
def printedValue (d : Decimal) : ℚ :=
  let whole := d.units.natAbs / (pow10I d.scale).natAbs
  let fraction := d.units.natAbs % (pow10I d.scale).natAbs
  let value := (whole : ℚ) + fraction * (10 : ℚ) ^ (-max d.scale 0)
  if d.units < 0 ∨ pow10I d.scale < 0 ∧ whole ≠ 0 then -value else value

/-- `ToPgNumeric`, stored in the column: half away from zero at 18 places. -/
def toPgNumeric (d : Decimal) : PgNumeric :=
  ⟨llround (printedValue d * 10 ^ 18)⟩

structure OrderFillDelta where
  orderId : String
  executedQtyDelta : Decimal
deriving DecidableEq

structure FilledVolumeUpdate where
  newFilledCum : Decimal
  newStatus : FlowOrderStatus
deriving DecidableEq

/-- `ComputeFilledVolumeUpdate`; `none` is the `std::invalid_argument` of a
negative delta. -/
def computeFilledVolumeUpdate (qMax filledCum delta : Decimal) : Option FilledVolumeUpdate :=
  if Decimal.cmp delta (Decimal.zeroAt delta.scale) < 0 then none
  else
    let newFilledCum := Decimal.min (Decimal.add filledCum delta) qMax
    some
      { newFilledCum
        newStatus :=
          if Decimal.cmp newFilledCum qMax ≥ 0 then .filled else .partiallyFilled }

/-- A row of `flow_order_legs`. -/
structure FlowOrderLegRow where
  instrumentSymbol : String
  weight : PgNumeric
deriving DecidableEq

/-- A row of `flow_orders` with its legs. -/
structure FlowOrderRow where
  userId : String
  pLow : PgNumeric
  pHigh : PgNumeric
  qRate : PgNumeric
  qMax : PgNumeric
  filledCum : PgNumeric
  timeInForce : FlowOrderTimeInForce
  status : FlowOrderStatus
  windowStart : Int
  windowEnd : Option Int
  legs : List FlowOrderLegRow
deriving DecidableEq

/-- The table, by `order_id`. -/
abbrev FlowOrderRows := Table String FlowOrderRow

/-- The CHECK constraints of the table that an inserted row meets. -/
def FlowOrderRow.checked (row : FlowOrderRow) : Bool :=
  decide (0 < row.qMax.units ∧ 0 < row.qRate.units ∧ 0 < row.pLow.units ∧
    row.pLow.units ≤ row.pHigh.units ∧ 0 ≤ row.filledCum.units ∧
      row.filledCum.units ≤ row.qMax.units)

def timeInForceToDb : TimeInForce → FlowOrderTimeInForce
  | .ioc => .ioc
  | .gtc | .fok | .unspecified => .gtc

def sideToLegWeight : Side → PgNumeric
  | .sell => ⟨-10 ^ 18⟩
  | .buy | .unspecified => ⟨10 ^ 18⟩

def insertedRow (now : Int) (o : ProtoFlowOrder) : FlowOrderRow :=
  { userId := o.userId
    pLow := toPgNumeric (o.priceLow.getD Decimal.zero)
    pHigh := toPgNumeric (o.priceHigh.getD Decimal.zero)
    qRate := toPgNumeric (o.maxSpeed.getD Decimal.zero)
    qMax := toPgNumeric (o.totalQty.getD Decimal.zero)
    filledCum := .zero
    timeInForce := timeInForceToDb o.tif
    status := .active
    windowStart := now
    windowEnd := none
    legs :=
      [{ instrumentSymbol := o.instrument.symbol
         weight := sideToLegWeight o.side }] }

def FlowOrderRow.insertLeg (row : FlowOrderRow) (leg : FlowOrderLegRow) : FlowOrderRow :=
  if row.legs.any (fun l => l.instrumentSymbol = leg.instrumentSymbol) then row
  else { row with legs := row.legs ++ [leg] }

/-- `InsertFlowOrder`: ON CONFLICT DO NOTHING for the row and for the leg. -/
def insertFlowOrder (now : Int) (o : ProtoFlowOrder) (rows : FlowOrderRows) :
    Option FlowOrderRows :=
  let row := insertedRow now o
  if o.orderId = "" ∨ o.userId = "" ∨ o.instrument.symbol = "" then none
  else if !row.checked then none
  else
    match rows.lookup o.orderId with
    | none => some (rows.insert o.orderId row)
    | some old =>
        some (rows.insert o.orderId (row.legs.foldl FlowOrderRow.insertLeg old))

/-- The WHERE clause of the query. -/
def FlowOrderRow.loadable (asOf : Int) (row : FlowOrderRow) : Bool :=
  decide (row.status = .active ∨ row.status = .partiallyFilled) &&
    decide (row.filledCum.units < row.qMax.units) &&
    decide (row.windowStart ≤ asOf) &&
    (match row.windowEnd with
      | none => true
      | some windowEnd => decide (asOf < windowEnd)) &&
    decide (row.timeInForce ≠ .ioc)

def FlowOrderLegRow.load (leg : FlowOrderLegRow) : Option FlowOrderLeg :=
  (parsePgNumeric leg.weight).map (fun weight =>
    { instrumentSymbol := leg.instrumentSymbol, weight })

def FlowOrderLeg.hasNonZeroWeight (leg : FlowOrderLeg) : Bool :=
  decide (Decimal.cmp leg.weight (Decimal.zeroAt leg.weight.scale) ≠ 0)

/-- `has_valid_legs`: some legs, with symbols in strictly increasing order and
weights that are not zero. -/
def FlowOrder.hasValidLegs (o : FlowOrder) : Bool :=
  !o.legs.isEmpty &&
    o.legs.all (fun leg => decide (leg.instrumentSymbol ≠ "") && leg.hasNonZeroWeight) &&
    decide (o.legs.IsChain (fun a b => a.instrumentSymbol < b.instrumentSymbol))

/-- The sale of the first leg, which gives the order its side. -/
def firstLegIsSell : List FlowOrderLeg → Bool
  | [] => false
  | leg :: _ => decide (Decimal.cmp leg.weight Decimal.zero < 0)

/-- A row as a flow order: the legs in the order of their symbols, and the limits
negated and exchanged when the first leg is sold.  `none` when a column does not
fit a decimal or the order is not valid. -/
def FlowOrderRow.load (orderId : String) (row : FlowOrderRow) : Option FlowOrder := do
  let pLow ← parsePgNumeric row.pLow
  let pHigh ← parsePgNumeric row.pHigh
  let qRate ← parsePgNumeric row.qRate
  let qMax ← parsePgNumeric row.qMax
  let filledCum ← parsePgNumeric row.filledCum
  let legs ← row.legs.mapM FlowOrderLegRow.load
  let sorted := legs.insertionSort (fun a b => a.instrumentSymbol ≤ b.instrumentSymbol)
  let limits := signedLimits (firstLegIsSell sorted) pLow pHigh
  let order : FlowOrder :=
    { orderId
      userId := row.userId
      legs := sorted
      pLow := limits.1
      pHigh := limits.2
      qRate
      qMax
      filledCum
      timeInForce := row.timeInForce
      windowStart := row.windowStart * 10 ^ 9
      windowEnd := row.windowEnd.map (· * 10 ^ 9)
      status := row.status }
  if order.hasValidLegs && order.hasValidFillState then some order else none

/-- `LoadActiveFlowOrders` without its optional filters; the callers do not
depend on the order of the rows. -/
def loadActiveFlowOrders (asOf : Int) (rows : FlowOrderRows) : Option (List FlowOrder) :=
  (rows.entries.filter (fun r => r.2.loadable asOf)).mapM (fun r => r.2.load r.1)

/-- The update of one row by a positive delta. -/
def FlowOrderRow.addFill (row : FlowOrderRow) (delta : Decimal) : Option FlowOrderRow := do
  let qMax ← parsePgNumeric row.qMax
  let filledCum ← parsePgNumeric row.filledCum
  let update ← computeFilledVolumeUpdate qMax filledCum delta
  some
    { row with
      filledCum := toPgNumeric update.newFilledCum
      status := update.newStatus }

/-- One delta: nothing when it is not positive; a missing row throws. -/
def applyFillDelta (rows : FlowOrderRows) (delta : OrderFillDelta) : Option FlowOrderRows :=
  if delta.orderId = "" then none
  else if Decimal.cmp delta.executedQtyDelta (Decimal.zeroAt delta.executedQtyDelta.scale) ≤ 0
  then some rows
  else
    match rows.lookup delta.orderId with
    | none => none
    | some row =>
        (row.addFill delta.executedQtyDelta).map (fun row' => rows.insert delta.orderId row')

/-- `UpdateFilledVolumes`: all deltas in one transaction. -/
def updateFilledVolumes (deltas : List OrderFillDelta) (rows : FlowOrderRows) :
    Option FlowOrderRows :=
  deltas.foldlM applyFillDelta rows

end Matching
end ContExchange
