import ContExchange.Common.Messages
import ContExchange.Lib.Runs

/-!
# Ledger: the in-memory books

The state of `LedgerUseCases` that fills and reservations move: the balances per
user and currency, the positions per user and instrument, and the reservations
per reservation id.  Missing rows are created on first use, as `operator[]` on
the source's maps does.
-/

namespace ContExchange
namespace Ledger

open Common Lib

structure Balance where
  available : Decimal := Decimal.zero
  reserved : Decimal := Decimal.zero
deriving DecidableEq

structure Position where
  amount : Decimal := Decimal.zero
  avgEntryPrice : Decimal := Decimal.zero
  realisedPnl : Decimal := Decimal.zero
deriving DecidableEq

structure Reservation where
  userId : String
  orderId : String
  currency : String
  amount : Decimal
deriving DecidableEq

/-- The maps `balances_`, `positions_` and `reservations_`. -/
structure LedgerUseCases where
  balances : Table (String × String) Balance := ∅
  positions : Table (String × String) Position := ∅
  reservations : Table String Reservation := ∅

namespace LedgerUseCases

/-- The balance of a user in a currency; a missing entry reads as zero. -/
def balance (s : LedgerUseCases) (user currency : String) : Balance :=
  (s.balances.lookup (user, currency)).getD {}

/-- The position of a user in an instrument; a missing entry reads as flat. -/
def position (s : LedgerUseCases) (user instrument : String) : Position :=
  (s.positions.lookup (user, instrument)).getD {}

/-- An update through the reference `ensure_balance_locked` returns. -/
def modifyBalance
    (s : LedgerUseCases) (user currency : String)
    (f : Balance → Balance) : LedgerUseCases :=
  { s with balances := s.balances.insert (user, currency) (f (s.balance user currency)) }

/-- `ensure_position_locked`: an entry whose amount is the literal `Decimal{0, 0}`
counts as just created and is reset. -/
def ensurePosition (s : LedgerUseCases) (user instrument : String) : Position :=
  let pos := s.position user instrument
  if pos.amount.scale = 0 ∧ pos.amount.units = 0 then {} else pos

/-- An update through the reference `ensure_position_locked` returns. -/
def modifyPosition
    (s : LedgerUseCases) (user instrument : String)
    (f : Position → Position) : LedgerUseCases :=
  { s with positions := s.positions.insert (user, instrument) (f (s.ensurePosition user instrument)) }

/-- The state of the constructor with `seed_demo_state`. -/
def demoSeed : LedgerUseCases where
  balances :=
    ((∅ : Table (String × String) Balance).insert ("demo-user", "USDT")
        { available := Decimal.of 1000000 2, reserved := Decimal.of 0 2 }).insert
      ("demo-user", "BTC")
        { available := Decimal.of 250000000 8, reserved := Decimal.of 0 8 }
  positions :=
    (∅ : Table (String × String) Position).insert ("demo-user", "BTC/USDT")
      { amount := Decimal.of 100000000 8
        avgEntryPrice := Decimal.of 500000 2
        realisedPnl := Decimal.of 0 2 }

def seedBalance
    (s : LedgerUseCases) (user currency : String)
    (available reserved : Decimal) : LedgerUseCases :=
  s.modifyBalance user currency (fun _ => { available, reserved })

section Access

variable (s : LedgerUseCases) (user currency : String)

theorem balance_modifyBalance (f : Balance → Balance) (u c : String) :
    (s.modifyBalance user currency f).balance u c =
      if u = user ∧ c = currency then f (s.balance user currency)
      else s.balance u c := by
  unfold modifyBalance balance
  by_cases h : (u, c) = (user, currency)
  · obtain ⟨rfl, rfl⟩ := Prod.mk.inj h
    simp
  · rw [AList.lookup_insert_ne h]
    rw [if_neg (by simpa using h)]

@[simp] theorem reservations_modifyBalance (f : Balance → Balance) :
    (s.modifyBalance user currency f).reservations = s.reservations := rfl

@[simp] theorem positions_modifyBalance (f : Balance → Balance) :
    (s.modifyBalance user currency f).positions = s.positions := rfl

end Access

end LedgerUseCases

def kPriceScale : Int := 2

def kPnlScale : Int := 2

def kQtyScale : Int := 8

/-- `rescale`: division by one at the target scale. -/
def rescale (value : Decimal) (targetScale : Int) : Decimal :=
  if value.scale = targetScale then value
  else Decimal.divUnits value ⟨1, 0, Decimal.int64Fits_one⟩ targetScale

/-- `LedgerUseCases::apply_signed_fill`; `buy` is `fill_dir >= 0`. -/
def applySignedFill
    (pos : Position) (buy : Bool) (fillQty fillPrice : Decimal) : Position :=
  if Decimal.cmp fillQty Decimal.zero ≤ 0 then pos
  else
    let signedFill := if buy then fillQty else fillQty.negUnits
    let posSign := Decimal.cmp pos.amount Decimal.zero
    if posSign = 0 ∨ (posSign > 0 ∧ buy) ∨ (posSign < 0 ∧ ¬ buy) then
      -- increase: weighted average of the old and the new value
      let absOld := if posSign < 0 then pos.amount.negUnits else pos.amount
      let totalValue := Decimal.add (Decimal.mul absOld pos.avgEntryPrice)
        (Decimal.mul fillQty fillPrice)
      let totalAbs := Decimal.add absOld fillQty
      { pos with
        avgEntryPrice :=
          if Decimal.cmp totalAbs Decimal.zero > 0 then
            Decimal.divUnits totalValue totalAbs kPriceScale
          else Decimal.zeroAt kPriceScale
        amount := rescale (Decimal.add pos.amount signedFill) kQtyScale }
    else
      let absPos := if posSign < 0 then pos.amount.negUnits else pos.amount
      let closed := Decimal.min fillQty absPos
      let priceDiff :=
        if posSign > 0 then Decimal.sub fillPrice pos.avgEntryPrice
        else Decimal.sub pos.avgEntryPrice fillPrice
      let realised := rescale (Decimal.mul priceDiff closed) kPnlScale
      let realisedPnl := rescale (Decimal.add pos.realisedPnl realised) kPnlScale
      let newAmount := rescale (Decimal.add pos.amount signedFill) kQtyScale
      let newSign := Decimal.cmp newAmount Decimal.zero
      if newSign = 0 then
        -- full close
        { amount := Decimal.zeroAt kQtyScale
          avgEntryPrice := Decimal.zeroAt kPriceScale
          realisedPnl }
      else if (posSign > 0) = (newSign > 0) then
        -- partial reduce
        { pos with amount := newAmount, realisedPnl }
      else
        -- flip through zero
        { amount := newAmount
          avgEntryPrice := rescale fillPrice kPriceScale
          realisedPnl }

def updatePositionForFill (s : LedgerUseCases) (fill : FlowFill) : LedgerUseCases :=
  let price := fill.price.getD Decimal.zero
  s.modifyPosition fill.userId fill.instrument.symbol (fun pos =>
    match fill.side with
    | .buy => applySignedFill pos true fill.executedQty price
    | .sell => applySignedFill pos false fill.executedQty price
    | .unspecified => pos)

@[simp] theorem balance_updatePositionForFill (s : LedgerUseCases) (fill : FlowFill)
    (u c : String) : (updatePositionForFill s fill).balance u c = s.balance u c := rfl

@[simp] theorem reservations_updatePositionForFill (s : LedgerUseCases) (fill : FlowFill) :
    (updatePositionForFill s fill).reservations = s.reservations := rfl

end Ledger
end ContExchange
