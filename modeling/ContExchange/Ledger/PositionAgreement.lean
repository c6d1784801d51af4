import ContExchange.Ledger.Conservation
import ContExchange.Ledger.Positions

/-!
# Ledger: positions against balances

A balance takes every quantity as it is, a position rounds it to eight decimals.
The amount of a position changes by the signed quantities of the trades of its
symbol, up to half a unit of the eighth decimal for each trade that is finer.
Summed over the symbols of a base currency this is the change of the balance,
up to the fees and to the trades in which the currency is the quote.
-/

namespace ContExchange
namespace Ledger

open Common Lib Decimal LedgerUseCases List Trade
open PostsRounded hiding valueAt

/-- A posting to the position of a user in a symbol. -/
abbrev PositionPosting := RoundedPosting (String × String)

def amountValue (pos : Position) : ℚ :=
  pos.amount.toRat

def Trade.positionPosting (t : Trade) : PositionPosting :=
  ⟨⟨(t.userId, t.symbol), signedValue t.side t.qty⟩, rounding t.qty⟩

def positionPostings (s : GroupBooks) (call : MoneyCall) : List PositionPosting :=
  (appliedTrades s call).map Trade.positionPosting

/-- Every position is kept at zero to eight decimals. -/
def PositionsScaled (s : LedgerUseCases) : Prop :=
  ∀ user symbol, (s.position user symbol).amount.OfScale kQtyScale

/-- The quantity of a fill is not negative, and the new amount of its position
fits. -/
def FillPositionOk (s : LedgerUseCases) (fill : FlowFill) : Prop :=
  QtyOk fill.executedQty ∧
    (0 < fill.executedQty.units →
      ∀ buy ∈ direction fill.side,
        AmountFits (s.ensurePosition fill.userId fill.instrument.symbol).amount
          (signedFill buy fill.executedQty))
deriving Decidable

/-- `FillPositionOk` for a leg. -/
def LegPositionOk (userId : String) (s : LedgerUseCases) (leg : LegResult) : Prop :=
  FillPositionOk s (leg.fill userId)
deriving Decidable

/-- The condition on the trades of a call for the positions. -/
def CallPositionOk (s : GroupBooks) : MoneyCall → Prop
  | .ledger (.applyBatchResult batch false) =>
      StepsMeet applyFill FillPositionOk s.books batch.fills
  | .applyExecutionGroup eg =>
      s.Applies eg →
        StepsMeet (applyLeg eg.userId) (LegPositionOk eg.userId) s.books eg.legResults
  | _ => True

instance (s : GroupBooks) (call : MoneyCall) : Decidable (CallPositionOk s call) :=
  match call with
  | .ledger (.reserveFunds _) => inferInstanceAs (Decidable True)
  | .ledger (.releaseFunds _) => inferInstanceAs (Decidable True)
  | .ledger (.applyBatchResult _ true) => inferInstanceAs (Decidable True)
  | .ledger (.applyBatchResult _ false) => inferInstanceAs (Decidable (StepsMeet _ _ _ _))
  | .applyExecutionGroup _ => inferInstanceAs (Decidable (_ → _))

section Positions

variable {s : LedgerUseCases}

theorem valueAt_positions (s : LedgerUseCases) (user symbol : String) :
    valueAt amountValue s.positions (user, symbol) = (s.position user symbol).amount.toRat := by
  rw [position, valueAt]
  cases s.positions.lookup (user, symbol) with
  | none => simp
  | some pos => rfl

theorem PositionsScaled.ensure (h : PositionsScaled s) (user symbol : String) :
    (s.ensurePosition user symbol).amount.OfScale kQtyScale := by
  simp only [ensurePosition]
  split
  · decide
  · exact h user symbol

theorem amount_ensurePosition (s : LedgerUseCases) (user symbol : String) :
    (s.ensurePosition user symbol).amount.toRat = (s.position user symbol).amount.toRat := by
  simp only [ensurePosition]
  split
  · rename_i hzero
    rw [(toRat_eq_zero_iff _).mpr hzero.2]
    exact toRat_zero
  · rfl

theorem position_modifyPosition
    (s : LedgerUseCases) (user symbol : String) (f : Position → Position) (u i : String) :
    (s.modifyPosition user symbol f).position u i =
      if u = user ∧ i = symbol then f (s.ensurePosition user symbol)
      else s.position u i := by
  simp only [modifyPosition, position]
  by_cases h : (u, i) = (user, symbol)
  · obtain ⟨rfl, rfl⟩ := Prod.mk.inj h
    simp
  · rw [AList.lookup_insert_ne h, if_neg (by simpa using h)]

theorem positionsScaled_modifyPosition (h : PositionsScaled s) {user symbol : String}
    {f : Position → Position} (hf : (f (s.ensurePosition user symbol)).amount.OfScale kQtyScale) :
    PositionsScaled (s.modifyPosition user symbol f) := by
  intro u i
  rw [position_modifyPosition]
  split
  · exact hf
  · exact h u i

variable {fill : FlowFill}

theorem rounded_updatePositionForFill (hscaled : PositionsScaled s) (hok : FillPositionOk s fill) :
    PostsRounded amountValue s.positions
        [⟨⟨(fill.userId, fill.instrument.symbol), signedValue fill.side fill.executedQty⟩,
          rounding fill.executedQty⟩]
        (updatePositionForFill s fill).positions ∧
      PositionsScaled (updatePositionForFill s fill) := by
  obtain ⟨hqty, hfits⟩ := hok
  have hensure := hscaled.ensure fill.userId fill.instrument.symbol
  have hamount := amount_ensurePosition s fill.userId fill.instrument.symbol
  have hmove : ∀ f : Position → Position,
      |(f (s.ensurePosition fill.userId fill.instrument.symbol)).amount.toRat -
          (s.ensurePosition fill.userId fill.instrument.symbol).amount.toRat -
          signedValue fill.side fill.executedQty| ≤ rounding fill.executedQty ∧
        (f (s.ensurePosition fill.userId fill.instrument.symbol)).amount.OfScale kQtyScale →
      PostsRounded amountValue s.positions
          [⟨⟨(fill.userId, fill.instrument.symbol), signedValue fill.side fill.executedQty⟩,
            rounding fill.executedQty⟩]
          (s.modifyPosition fill.userId fill.instrument.symbol f).positions ∧
        PositionsScaled (s.modifyPosition fill.userId fill.instrument.symbol f) := by
    rintro f ⟨herror, hscale⟩
    refine ⟨insert ?_, positionsScaled_modifyPosition hscaled hscale⟩
    rw [valueAt_positions, ← hamount]
    exact herror
  rw [updatePositionForFill]
  apply hmove
  cases hside : fill.side with
  | unspecified =>
      refine ⟨?_, hensure⟩
      have hround := rounding_nonneg fill.executedQty
      simpa [signedValue] using hround
  | buy =>
      exact amount_applySignedFill_sub hqty hensure
        (fun hpos => hfits hpos true (by rw [hside]; rfl))
  | sell =>
      exact amount_applySignedFill_sub hqty hensure
        (fun hpos => hfits hpos false (by rw [hside]; rfl))

theorem positions_applySpent (s : LedgerUseCases) (fill : FlowFill) :
    (applySpent s fill).positions = s.positions := by
  rw [applySpent]
  split
  · rfl
  · rw [consumeReservation]
    split <;> rfl

theorem positions_applyReceived (s : LedgerUseCases) (fill : FlowFill) :
    (applyReceived s fill).positions = s.positions := by
  rw [applyReceived]
  split <;> rfl

variable {s t : LedgerUseCases}

theorem position_congr (h : t.positions = s.positions) (user symbol : String) :
    t.position user symbol = s.position user symbol := by
  rw [position, position, h]

theorem PositionsScaled.congr (h : t.positions = s.positions) (hs : PositionsScaled s) :
    PositionsScaled t := by
  intro user symbol
  rw [position_congr h]
  exact hs user symbol

theorem FillPositionOk.congr (h : t.positions = s.positions) (hs : FillPositionOk s fill) :
    FillPositionOk t fill := by
  refine ⟨hs.1, ?_⟩
  rw [ensurePosition, position_congr h]
  exact hs.2

theorem rounded_applyFee (hscaled : PositionsScaled s) (fill : FlowFill) :
    PostsRounded amountValue s.positions [] (applyFee s fill).positions ∧
      PositionsScaled (applyFee s fill) := by
  rw [applyFee]
  cases charged fill with
  | none => exact ⟨refl _, hscaled⟩
  | some m =>
      obtain ⟨currency, amount⟩ := m
      dsimp only
      split
      · refine ⟨⟨[], List.Forall₂.nil, Posts.insert_same ?_⟩, ?_⟩
        · rw [valueAt_positions]
          exact amount_ensurePosition s fill.userId fill.instrument.symbol
        · refine positionsScaled_modifyPosition ?_ ?_
          · exact hscaled.congr rfl
          · exact hscaled.ensure fill.userId fill.instrument.symbol
      · exact ⟨refl _, hscaled⟩

theorem rounded_applyFill (hscaled : PositionsScaled s) (hok : FillPositionOk s fill) :
    PostsRounded amountValue s.positions [(tradeOfFill fill).positionPosting]
        (applyFill s fill).positions ∧
      PositionsScaled (applyFill s fill) := by
  have hpositions : (applyReceived (applySpent s fill) fill).positions = s.positions := by
    rw [positions_applyReceived, positions_applySpent]
  obtain ⟨hfilled, hscaled'⟩ := rounded_updatePositionForFill (hscaled.congr hpositions)
    (hok.congr hpositions)
  obtain ⟨hfee, hscaled''⟩ := rounded_applyFee hscaled' fill
  rw [hpositions] at hfilled
  exact ⟨hfilled.trans hfee, hscaled''⟩

theorem rounded_applyLeg {userId : String} {leg : LegResult} (hscaled : PositionsScaled s)
    (hok : LegPositionOk userId s leg) :
    PostsRounded amountValue s.positions [(tradeOfLeg userId leg).positionPosting]
        (applyLeg userId s leg).positions ∧
      PositionsScaled (applyLeg userId s leg) := by
  obtain ⟨hfilled, hscaled'⟩ := rounded_updatePositionForFill hscaled hok
  have hpositions : (applyLeg userId s leg).positions =
      (updatePositionForFill s (leg.fill userId)).positions := by
    rw [applyLeg, applyGained, applyPaid]
    cases leg.paid <;> cases leg.gained <;> rfl
  rw [hpositions]
  exact ⟨hfilled, hscaled'.congr hpositions⟩

theorem positions_reserveFunds (s : LedgerUseCases) (req : ReserveFundsRequest) :
    (reserveFunds s req).1.positions = s.positions := by
  rw [reserveFunds]
  split
  · rfl
  · split <;> rfl

theorem positions_releaseFunds (s : LedgerUseCases) (reservationId : String) :
    (releaseFunds s reservationId).positions = s.positions := by
  rw [releaseFunds]
  split <;> rfl

theorem positions_applyOrderUpdate (s : LedgerUseCases) (upd : OrderStateUpdate) :
    (applyOrderUpdate s upd).positions = s.positions := by
  rw [applyOrderUpdate]
  split
  · split
    · rfl
    · simp only [eraseReservation]
      split <;> rfl
  · rfl

theorem rounded_run
    {ε : Type} {step : LedgerUseCases → ε → LedgerUseCases} {trade : ε → Trade}
    {Ok : LedgerUseCases → ε → Prop}
    (hstep : ∀ s e, PositionsScaled s → Ok s e →
      PostsRounded amountValue s.positions [(trade e).positionPosting] (step s e).positions ∧
        PositionsScaled (step s e))
    (hscaled : PositionsScaled s) {es : List ε} (hmeet : StepsMeet step Ok s es) :
    PostsRounded amountValue s.positions ((es.map trade).map positionPosting)
        (run step s es).positions ∧
      PositionsScaled (run step s es) := by
  induction es generalizing s with
  | nil => exact ⟨refl _, hscaled⟩
  | cons e es ih =>
      obtain ⟨hposts, hscaled'⟩ := hstep s e hscaled hmeet.1
      obtain ⟨hrest, hscaled''⟩ := ih hscaled' hmeet.2
      exact ⟨hposts.trans hrest, hscaled''⟩

theorem rounded_moneyStep {s : GroupBooks} (hscaled : PositionsScaled s.books) {call : MoneyCall}
    (hok : CallPositionOk s call) :
    PostsRounded amountValue s.books.positions (positionPostings s call)
        (moneyStep s call).books.positions ∧
      PositionsScaled (moneyStep s call).books := by
  have hsame : ∀ {t : LedgerUseCases}, t.positions = s.books.positions →
      PostsRounded amountValue s.books.positions [] t.positions ∧ PositionsScaled t := by
    intro t ht
    rw [ht]
    exact ⟨refl _, hscaled.congr ht⟩
  cases call with
  | applyExecutionGroup eg =>
      simp only [positionPostings, appliedTrades, moneyStep, applyExecutionGroup]
      by_cases happlies : s.Applies eg
      · rw [if_pos happlies, if_pos happlies]
        have hlegs : StepsMeet (applyLeg eg.userId) (LegPositionOk eg.userId) s.books
            eg.legResults := hok happlies
        exact rounded_run (fun _ _ ht hleg => rounded_applyLeg ht hleg) hscaled hlegs
      · rw [if_neg happlies, if_neg happlies]
        exact hsame rfl
  | ledger call =>
      cases call with
      | reserveFunds req => exact hsame (positions_reserveFunds s.books req)
      | releaseFunds reservationId => exact hsame (positions_releaseFunds s.books reservationId)
      | applyBatchResult batch alreadyProcessed =>
          cases alreadyProcessed with
          | true => exact hsame rfl
          | false =>
              have hfills : StepsMeet applyFill FillPositionOk s.books batch.fills := hok
              obtain ⟨hposts, hscaled'⟩ :=
                rounded_run (fun _ _ ht hfill => rounded_applyFill ht hfill) hscaled hfills
              have hupdates : (applyBatchLocked s.books batch).positions =
                  (run applyFill s.books batch.fills).positions :=
                run_preserves
                  (fun t => t.positions = (run applyFill s.books batch.fills).positions)
                  (fun t upd ht => (positions_applyOrderUpdate t upd).trans ht) rfl
                  batch.orderUpdates
              show PostsRounded amountValue s.books.positions _
                (applyBatchLocked s.books batch).positions ∧
                PositionsScaled (applyBatchLocked s.books batch)
              rw [hupdates]
              exact ⟨hposts, hscaled'.congr hupdates⟩

theorem rounded_moneyRun {s : GroupBooks} (hscaled : PositionsScaled s.books)
    {calls : List MoneyCall} (hok : StepsMeet moneyStep CallPositionOk s calls) :
    PostsRounded amountValue s.books.positions
      ((journal moneyStep appliedTrades s calls).map positionPosting)
      (run moneyStep s calls).books.positions := by
  induction calls generalizing s with
  | nil => exact refl _
  | cons call calls ih =>
      obtain ⟨hposts, hscaled'⟩ := rounded_moneyStep hscaled hok.1
      rw [journal_cons, map_append]
      exact hposts.trans (ih hscaled' hok.2)

end Positions

def baseOf (symbol : String) : Option String :=
  (splitSymbol symbol).map Prod.fst

/-- The amounts of a user's positions in the symbols of a base currency. -/
def positionsIn (s : LedgerUseCases) (user base : String) : ℚ :=
  total amountValue (fun key => key.1 = user ∧ baseOf key.2 = some base) s.positions

/-- The signed quantities of the trades on the positions that satisfy `P`. -/
def tradedOn (P : String × String → Prop) [DecidablePred P] (trades : List Trade) : ℚ :=
  (trades.map (fun t => if P (t.userId, t.symbol) then signedValue t.side t.qty else 0)).sum

/-- The roundings of the trades on the positions that satisfy `P`. -/
def roundingOn (P : String × String → Prop) [DecidablePred P] (trades : List Trade) : ℚ :=
  (trades.map (fun t => if P (t.userId, t.symbol) then rounding t.qty else 0)).sum

/-- What a trade moves as a quote currency on the accounts that satisfy `P`. -/
def Trade.quotedOn (P : String × String → Prop) [DecidablePred P] (t : Trade) : ℚ :=
  match t.market with
  | none => 0
  | some (_, quote) =>
      match t.side with
      | .buy => if P (t.userId, quote) then -t.notional.toRat else 0
      | .sell => if P (t.userId, quote) then t.notional.toRat else 0
      | .unspecified => 0

/-- The positions follow the trades of a run to the last digit, and agree with the
balances of their base currency up to fees. -/
def PositionsAgree (s : GroupBooks) (calls : List MoneyCall) : Prop :=
  (∀ user symbol,
    ((run moneyStep s calls).books.position user symbol).amount.toRat -
        (s.books.position user symbol).amount.toRat =
      tradedOn (fun key => key = (user, symbol)) (journal moneyStep appliedTrades s calls)) ∧
  (∀ user base,
    positionsIn (run moneyStep s calls).books user base - positionsIn s.books user base =
      gross ((run moneyStep s calls).books.balance user base).value -
        gross (s.books.balance user base).value +
        ((journal moneyStep appliedTrades s calls).map
          (fun t => t.feeOn (fun account => account = (user, base)))).sum)

/-- The market of a trade is the one its symbol spells. -/
def Trade.Named (t : Trade) : Prop :=
  t.market = splitSymbol t.symbol

instance (t : Trade) : Decidable t.Named :=
  inferInstanceAs (Decidable (_ = _))

/-- The condition on a call: its sums fit, the quantities of its trades are not
negative, and the fields of its instruments spell the symbol. -/
def CallAgreesOk (s : GroupBooks) (call : MoneyCall) : Prop :=
  MoneyExact s call ∧ CallPositionOk s call ∧ ∀ t ∈ appliedTrades s call, t.Named
deriving Decidable

section Agreement

variable (P : String × String → Prop) [DecidablePred P]

theorem netOn_positionPostings (trades : List Trade) :
    netOn P ((trades.map positionPosting).map RoundedPosting.posting) =
      tradedOn P trades := by
  simp only [netOn, tradedOn, map_map]
  rfl

theorem slackOn_positionPostings (trades : List Trade) :
    slackOn P (trades.map positionPosting) = roundingOn P trades := by
  simp only [slackOn, roundingOn, map_map]
  rfl

theorem Trade.Named.flowOn_account {t : Trade} (h : t.Named) (user base : String) :
    t.flowOn (fun account => account = (user, base)) =
      (if t.userId = user ∧ baseOf t.symbol = some base then signedValue t.side t.qty else 0) +
        t.quotedOn (fun account => account = (user, base)) := by
  rw [flowOn, quotedOn, baseOf, ← h]
  cases t.market with
  | none => simp
  | some market =>
      obtain ⟨b, q⟩ := market
      cases t.side with
      | unspecified => simp [signedValue]
      | buy =>
          simp only [signedValue, Prod.mk.injEq, Option.map_some, Option.some.injEq]
          split <;> split <;> ring
      | sell =>
          simp only [signedValue, Prod.mk.injEq, Option.map_some, Option.some.injEq]
          split <;> split <;> ring

theorem sum_flowOn_account {trades : List Trade} (h : ∀ t ∈ trades, t.Named) (user base : String) :
    (trades.map (fun t => t.flowOn (fun account => account = (user, base)))).sum =
      tradedOn (fun key => key.1 = user ∧ baseOf key.2 = some base) trades +
        (trades.map (fun t => t.quotedOn (fun account => account = (user, base)))).sum := by
  induction trades with
  | nil => simp [tradedOn]
  | cons t trades ih =>
      have ht := (h t (by simp)).flowOn_account user base
      have hrest := ih (fun t' ht' => h t' (mem_cons_of_mem _ ht'))
      simp only [tradedOn, map_cons, sum_cons] at hrest ⊢
      rw [ht, hrest]
      ring

/-- The positions follow the trades of a run: each amount changes by the signed
quantities of its trades, and the positions of a base currency change as the
balance does, up to fees, trades quoted in it and the rounding to eight
decimals. -/
theorem positions_follow_trades {s : GroupBooks} {calls : List MoneyCall}
    (hscaled : PositionsScaled s.books) (hmeet : StepsMeet moneyStep CallAgreesOk s calls) :
    (∀ user symbol,
      |((run moneyStep s calls).books.position user symbol).amount.toRat -
            (s.books.position user symbol).amount.toRat -
          tradedOn (fun key => key = (user, symbol)) (journal moneyStep appliedTrades s calls)| ≤
        roundingOn (fun key => key = (user, symbol)) (journal moneyStep appliedTrades s calls)) ∧
    (∀ user base,
      |positionsIn (run moneyStep s calls).books user base - positionsIn s.books user base -
          (gross ((run moneyStep s calls).books.balance user base).value -
            gross (s.books.balance user base).value +
            ((journal moneyStep appliedTrades s calls).map
              (fun t => t.feeOn (fun account => account = (user, base)))).sum -
            ((journal moneyStep appliedTrades s calls).map
              (fun t => t.quotedOn (fun account => account = (user, base)))).sum)| ≤
        roundingOn (fun key => key.1 = user ∧ baseOf key.2 = some base)
          (journal moneyStep appliedTrades s calls)) := by
  have hpositions := rounded_moneyRun hscaled (hmeet.imp (fun _ _ h => h.2.1))
  have hmoney := posts_moneyRun (hmeet.imp (fun _ _ h => h.1))
  have hnamed := forall_mem_journal (fun _ _ h => h.2.2) hmeet
  constructor
  · intro user symbol
    have hvalue := hpositions.valueAt (user, symbol)
    rw [valueAt_positions, valueAt_positions, slackOn_positionPostings, net,
      netOn_positionPostings] at hvalue
    exact hvalue
  · intro user base
    have htotal := hpositions.total (fun key => key.1 = user ∧ baseOf key.2 = some base)
    rw [slackOn_positionPostings, netOn_positionPostings] at htotal
    have hbalance := congrArg gross (hmoney (user, base))
    rw [valueAt_balances, valueAt_balances, gross_add] at hbalance
    have hjournal := grossOn_journal (fun account => account = (user, base)) s calls
    rw [sum_flowOn_account hnamed] at hjournal
    rw [hbalance, net, ← grossOn, hjournal]
    convert htotal using 2
    rw [positionsIn, positionsIn]
    ring

end Agreement

def buyBatch (symbol base quote : String) (qty notional : Decimal) : MoneyCall :=
  .ledger (.applyBatchResult
    { fills :=
        [{ orderId := "o1"
           userId := "u"
           instrument := { symbol, base, quote }
           side := .buy
           executedQty := qty
           price := some (Decimal.of 1 0)
           executedNotional := notional }]
      orderUpdates := [] } false)

/-- The ways positions and balances part: a ninth decimal, a base currency that is
also a quote, an instrument whose fields do not spell the symbol, a position that
does not fit at eight decimals, and a negative quantity. -/
theorem positions_disagree :
    ¬ PositionsAgree { books := {} }
        [buyBatch "BTC/USDT" "BTC" "USDT" (Decimal.of 1 9) (Decimal.of 1 9)] ∧
      ¬ PositionsAgree { books := {} }
          [buyBatch "BTC/USDT" "BTC" "USDT" (Decimal.of 1 0) (Decimal.of 1 0),
            buyBatch "ETH/BTC" "ETH" "BTC" (Decimal.of 1 0) (Decimal.of 1 0)] ∧
      ¬ PositionsAgree { books := {} }
          [buyBatch "BTC/USDT" "" "" (Decimal.of 1 0) (Decimal.of 1 0)] ∧
      ¬ PositionsAgree { books := {} }
          [buyBatch "SHIB/USDT" "SHIB" "USDT" (Decimal.of 100000000000 0) (Decimal.of 1 0),
            buyBatch "SHIB/USDT" "SHIB" "USDT" (Decimal.of 1 8) (Decimal.of 1 0)] ∧
      ¬ PositionsAgree { books := {} }
          [buyBatch "BTC/USDT" "BTC" "USDT" (Decimal.of (-1) 0) (Decimal.of (-1) 0)] := by
  refine ⟨?_, ?_, ?_, ?_, ?_⟩
  · intro h
    have hbtc := h.1 "u" "BTC/USDT"
    revert hbtc
    decide +kernel
  · intro h
    have hbtc := h.2 "u" "BTC"
    revert hbtc
    decide +kernel
  · intro h
    have hbtc := h.2 "u" "BTC"
    revert hbtc
    decide +kernel
  · intro h
    have hshib := h.1 "u" "SHIB/USDT"
    revert hshib
    decide +kernel
  · intro h
    have hbtc := h.1 "u" "BTC/USDT"
    revert hbtc
    decide +kernel

theorem positionsScaled_empty : PositionsScaled {} := by
  intro user symbol
  show Decimal.OfScale kQtyScale .zero
  decide

/-- The run of `demoMoneyCalls` meets the condition, from books that hold no
position yet. -/
theorem demo_positions_follow :
    |((run moneyStep { books := {} } demoMoneyCalls).books.position "demo-user"
            "BTC/USDT").amount.toRat -
          (({} : LedgerUseCases).position "demo-user" "BTC/USDT").amount.toRat -
        tradedOn (fun key => key = ("demo-user", "BTC/USDT"))
          (journal moneyStep appliedTrades { books := {} } demoMoneyCalls)| ≤
      roundingOn (fun key => key = ("demo-user", "BTC/USDT"))
        (journal moneyStep appliedTrades { books := {} } demoMoneyCalls) :=
  (positions_follow_trades positionsScaled_empty (by decide +kernel)).1 "demo-user" "BTC/USDT"

end Ledger
end ContExchange
