import ContExchange.Ledger.VenueCash

/-!
# Ledger: the simulated book and the live ledger

`SimBookApplier` turns each report of a simulated session into deltas of its own, while the
live ledger turns the cumulative quantities of an order into deltas under a state machine.

* `simBookApply`, `SimBook`: the applier, and the book that its deltas add up to;
* `StepAgrees`: a report is booked on both sides or on neither, and is the first of its order
  to state a fill;
* `signedQty_agrees_iff`: otherwise the quantities differ by what was filled before;
* `simBook_follows_ledger`: in a run of such reports, positions and balances are the same.
-/

namespace ContExchange
namespace Ledger

open Common Lib AList Decimal Option

/-- A simulated report with the fields that only the applier reads, and the session of its
annotation. -/
structure SimReportPair where
  report : ExecutionReport
  providerId : String
  side : Side
  referenceMid : Option Decimal := none
  simSessionId : String
deriving DecidableEq

structure SimPositionDelta where
  simSessionId : String
  providerId : String
  instrumentSymbol : String
  signedQtyDelta : Decimal
  execPrice : Decimal
deriving DecidableEq

structure SimHedgePnlDelta where
  simSessionId : String
  venueId : String
  instrumentSymbol : String
  hedgePnlDelta : Decimal := Decimal.zero
  feeDelta : Decimal := Decimal.zero
  filledQtyDelta : Decimal
  tradeCountDelta : Int
deriving DecidableEq

inductive SkipReason where
  | duplicate
  | noSessionId
  | nonTerminal
  | zeroFill
  | noProvider
deriving DecidableEq

def isTerminalFill (status : ExecutionReportStatus) : Bool :=
  status = .filled || status = .partiallyFilled

def canonicalSymbol (instrument : Instrument) : String :=
  if instrument.symbol ≠ "" then instrument.symbol
  else if instrument.base ≠ "" ∧ instrument.quote ≠ "" then
    instrument.base ++ "/" ++ instrument.quote
  else ""

/-- A quantity with the sign of its side: only a sell is turned. -/
def sideSigned (side : Side) (qty : Decimal) : Decimal :=
  if side = .sell then qty.negUnits else qty

/-- `HedgePnl`. -/
def simHedgePnl (side : Side) (execPrice referenceMid qty : Decimal) : Decimal :=
  sideSigned side (Decimal.mul (Decimal.sub referenceMid execPrice) qty)

namespace SimReportPair

variable (input : SimReportPair)

def positionDelta : SimPositionDelta where
  simSessionId := input.simSessionId
  providerId := input.providerId
  instrumentSymbol := canonicalSymbol input.report.instrument
  signedQtyDelta := sideSigned input.side input.report.filledQty
  execPrice := input.report.averagePrice

def hedgePnlDelta : SimHedgePnlDelta where
  simSessionId := input.simSessionId
  venueId := input.report.venue
  instrumentSymbol := canonicalSymbol input.report.instrument
  hedgePnlDelta :=
    match input.referenceMid with
    | none => Decimal.zero
    | some reference =>
        if reference.units ≠ 0 then
          simHedgePnl input.side input.report.averagePrice reference input.report.filledQty
        else Decimal.zero
  feeDelta := input.report.feeAmount
  filledQtyDelta := input.report.filledQty
  tradeCountDelta := 1

/-- Why a report is skipped, whatever was seen before. -/
def gate : Option SkipReason :=
  if input.report.reportId = "" then some .duplicate
  else if input.simSessionId = "" then some .noSessionId
  else if ¬ isTerminalFill input.report.status then some .nonTerminal
  else if input.report.filledQty.units = 0 then some .zeroFill
  else if input.providerId = "" then some .noProvider
  else none

end SimReportPair

/-- `SimBookApplier::Apply`: the ids seen so far, and the deltas or why there are none. -/
def simBookApply (seen : List String) (input : SimReportPair) :
    List String × Except SkipReason (SimPositionDelta × SimHedgePnlDelta) :=
  match input.gate with
  | some reason => (seen, .error reason)
  | none =>
      if input.report.reportId ∈ seen then (seen, .error .duplicate)
      else (input.report.reportId :: seen, .ok (input.positionDelta, input.hedgePnlDelta))

/-- A delta that was emitted, with the instrument and the fee currency that its report
names. -/
structure SimEntry where
  instrument : Instrument
  feeCurrency : String
  position : SimPositionDelta
  hedgePnl : SimHedgePnlDelta
deriving DecidableEq

/-- The ids seen so far and the deltas emitted so far; the rows of `sim_positions` and
`sim_hedge_pnl` are their sums. -/
structure SimBook where
  seenReportIds : List String := []
  entries : List SimEntry := []
deriving DecidableEq

def SimReportPair.entry (input : SimReportPair) : SimEntry where
  instrument := input.report.instrument
  feeCurrency := input.report.feeCurrency (extractBaseQuote input.report.instrument).2
  position := input.positionDelta
  hedgePnl := input.hedgePnlDelta

def SimBook.apply (book : SimBook) (input : SimReportPair) : SimBook :=
  let result := simBookApply book.seenReportIds input
  { seenReportIds := result.1
    entries :=
      match result.2 with
      | .ok _ => book.entries ++ [input.entry]
      | .error _ => book.entries }

/-- What an entry is worth on an account of a venue: the quantity in the base, its price and
the fee in the currency that they are paid in. -/
def SimEntry.value (entry : SimEntry) (account : String × String) : ℚ :=
  let names := extractBaseQuote entry.instrument
  onAccount entry.hedgePnl.venueId names.1 account entry.position.signedQtyDelta.toRat -
    onAccount entry.hedgePnl.venueId names.2 account
      (entry.position.signedQtyDelta.toRat * entry.position.execPrice.toRat) -
    onAccount entry.hedgePnl.venueId entry.feeCurrency account entry.hedgePnl.feeDelta.toRat

def SimEntry.quantity (entry : SimEntry) (venue symbol : String) : ℚ :=
  if entry.hedgePnl.venueId = venue ∧ entry.position.instrumentSymbol = symbol then
    entry.position.signedQtyDelta.toRat
  else 0

/-- The balance of an account in the simulated book. -/
def SimBook.balance (book : SimBook) (account : String × String) : ℚ :=
  (book.entries.map (fun entry => entry.value account)).sum

/-- The position in an instrument of a venue, over all sessions and providers. -/
def SimBook.position (book : SimBook) (venue symbol : String) : ℚ :=
  (book.entries.map (fun entry => entry.quantity venue symbol)).sum

/-- The position that a hedge record adds to an instrument. -/
def HedgePnlRecord.quantity (record : HedgePnlRecord) (symbol : String) : ℚ :=
  if record.instrumentSymbol = symbol then signedValue record.side record.executedQty else 0

/-- The position of the live ledger in an instrument of a venue. -/
def ExecutionBooks.position (s : ExecutionBooks) (venue symbol : String) : ℚ :=
  ((s.records venue).map (fun record => record.quantity symbol)).sum

structure LedgerPair where
  live : ExecutionBooks
  sim : SimBook

def LedgerPair.deliver (pair : LedgerPair) (event : Int × SimReportPair) : LedgerPair where
  live := applyExecutionReport event.1 pair.live event.2.report
  sim := pair.sim.apply event.2

/-- The intents are known, and nothing was reported. -/
def LedgerPair.start (intents : List ExecutionIntent) : LedgerPair where
  live := run (rememberExecutionIntent 0) {} intents
  sim := {}

structure LedgerPair.Matches (pair : LedgerPair) : Prop where
  balances : ∀ account,
    valueAt VenueBalanceEntry.value pair.live.venueBalances account = pair.sim.balance account
  positions : ∀ venue symbol, pair.live.position venue symbol = pair.sim.position venue symbol

def ExecutionBooks.Books (s : ExecutionBooks) (report : ExecutionReport) : Prop :=
  executionReportKey report ∉ s.seenExecutionReportKeys ∧ ¬ s.Waits report ∧
    (s.booked report).isSome
deriving Decidable

def SimBook.Books (book : SimBook) (input : SimReportPair) : Prop :=
  input.gate = none ∧ input.report.reportId ∉ book.seenReportIds
deriving Decidable

def NamesIntent (intent : ExecutionIntent) (input : SimReportPair) : Prop :=
  (input.side = .sell ↔ intent.side = .sell) ∧ intent.side ≠ .unspecified ∧
    intent.instrument.symbol = canonicalSymbol input.report.instrument ∧
    market intent input.report = extractBaseQuote input.report.instrument
deriving Decidable

/-- Nothing was filled before, and the fee that is stated is a fee that has grown. -/
def FirstFill (state : ExecutionLedgerState) (report : ExecutionReport) : Prop :=
  state.filledQty.toRat = 0 ∧
    max (report.feeAmount.toRat - state.feeTotal.toRat) 0 = report.feeAmount.toRat
deriving Decidable

/-- A report that is delivered is booked by both or by neither; one that is booked fits, names
its intent and is the first of its order to state a fill. -/
def StepAgrees (pair : LedgerPair) (event : Int × SimReportPair) : Prop :=
  (pair.live.Books event.2.report ↔ pair.sim.Books event.2) ∧
    (pair.live.Books event.2.report →
      ReportFits pair.live event.2.report ∧
      ∀ intent ∈ pair.live.booked event.2.report,
        NamesIntent intent event.2 ∧
          FirstFill (pair.live.stateOf event.2.report) event.2.report)
deriving Decidable

section Decidability

end Decidability

section Sim

variable {book : SimBook} {input : SimReportPair}

theorem apply_of_books (h : book.Books input) :
    book.apply input =
      ⟨input.report.reportId :: book.seenReportIds, book.entries ++ [input.entry]⟩ := by
  obtain ⟨hgate, hnew⟩ := h
  unfold SimBook.apply simBookApply
  simp only [hgate, if_neg hnew]

theorem entries_of_not_books (h : ¬ book.Books input) :
    (book.apply input).entries = book.entries := by
  unfold SimBook.apply simBookApply
  cases hgate : input.gate with
  | some reason => rfl
  | none =>
      by_cases hseen : input.report.reportId ∈ book.seenReportIds
      · simp only [if_pos hseen]
      · exact absurd ⟨hgate, hseen⟩ h

theorem balance_of_books (h : book.Books input) (account : String × String) :
    (book.apply input).balance account = book.balance account + input.entry.value account := by
  rw [apply_of_books h]
  simp [SimBook.balance]

theorem position_of_books (h : book.Books input) (venue symbol : String) :
    (book.apply input).position venue symbol =
      book.position venue symbol + input.entry.quantity venue symbol := by
  rw [apply_of_books h]
  simp [SimBook.position]

end Sim

section Live

variable {s : ExecutionBooks} {report : ExecutionReport} {intent : ExecutionIntent}

theorem applyExecutionReport_of_known (now : Int)
    (hseen : executionReportKey report ∉ s.seenExecutionReportKeys) (hwaits : ¬ s.Waits report) :
    applyExecutionReport now s report =
      applyReport now (act s (.see (executionReportKey report))) report := by
  unfold applyExecutionReport
  dsimp only
  rw [if_neg hseen]
  exact if_neg hwaits

theorem live_of_not_books (now : Int) (h : ¬ s.Books report) :
    (applyExecutionReport now s report).venueBalances = s.venueBalances ∧
      (applyExecutionReport now s report).hedgePnlRecords = s.hedgePnlRecords := by
  by_cases hseen : executionReportKey report ∈ s.seenExecutionReportKeys
  · unfold applyExecutionReport
    dsimp only
    rw [if_pos hseen]
    exact ⟨rfl, rfl⟩
  · by_cases hwaits : s.Waits report
    · have hqueued : applyExecutionReport now s report = act
          (act s (.see (executionReportKey report))) (.queue report) := by
        unfold applyExecutionReport
        dsimp only
        rw [if_neg hseen]
        exact if_pos hwaits
      rw [hqueued]
      exact ⟨rfl, rfl⟩
    · have hnone : (act s (.see (executionReportKey report))).booked report = none := by
        by_contra hsome
        exact h ⟨hseen, hwaits, isSome_iff_ne_none.mpr hsome⟩
      obtain ⟨hbalances, hrecords, -⟩ :=
        books_applyReport now (act s (.see (executionReportKey report))) report
      rw [ExecutionBooks.moves, hnone] at hbalances
      rw [ExecutionBooks.newRecords, hnone] at hrecords
      rw [applyExecutionReport_of_known now hseen hwaits]
      exact ⟨hbalances, hrecords⟩

theorem live_of_books (now : Int) (h : s.Books report) (hintent : s.booked report = some intent) :
    (applyExecutionReport now s report).venueBalances =
        run applyMove s.venueBalances (s.moves report) ∧
      (applyExecutionReport now s report).hedgePnlRecords =
        (storeRecord s (hedgeRecord now intent report (s.stateOf report))).hedgePnlRecords := by
  obtain ⟨hseen, hwaits, -⟩ := h
  rw [applyExecutionReport_of_known now hseen hwaits]
  have hbooked : (act s (.see (executionReportKey report))).booked report = some intent := hintent
  have hrecords := (books_applyReport now (act s (.see (executionReportKey report))) report).2.1
  rw [ExecutionBooks.newRecords, hbooked] at hrecords
  exact ⟨(books_applyReport now _ report).1, hrecords⟩

theorem livePosition_congr {t : ExecutionBooks} (h : t.hedgePnlRecords = s.hedgePnlRecords)
    (venue symbol : String) : t.position venue symbol = s.position venue symbol := by
  unfold ExecutionBooks.position ExecutionBooks.records
  rw [h]

theorem position_storeRecord (record : HedgePnlRecord) (venue symbol : String) :
    (storeRecord s record).position venue symbol =
      s.position venue symbol + if record.venue = venue then record.quantity symbol else 0 := by
  unfold ExecutionBooks.position storeRecord ExecutionBooks.records
  by_cases hvenue : record.venue = venue
  · subst hvenue
    simp [lookup_insert]
  · have hother : venue ≠ record.venue := fun heq => hvenue heq.symm
    simp [lookup_insert_ne hother, hvenue]

end Live

section Step

variable {s : ExecutionBooks} {input : SimReportPair} {intent : ExecutionIntent}

theorem sideSigned_value (hnames : NamesIntent intent input) {qty : Decimal}
    (hpos : 0 < qty.toRat) : (sideSigned input.side qty).toRat = signedValue intent.side qty := by
  obtain ⟨hside, hnamed, -, -⟩ := hnames
  unfold sideSigned
  by_cases hsell : input.side = .sell
  · have hmin : qty.units ≠ int64Min := by
      intro heq
      have hnonneg := (toRat_nonneg_iff qty).mp hpos.le
      rw [heq] at hnonneg
      exact absurd hnonneg (by decide)
    rw [if_pos hsell, hside.mp hsell, negUnits_toRat hmin]
    rfl
  · rw [if_neg hsell]
    cases hcase : intent.side with
    | unspecified => exact absurd hcase hnamed
    | buy => rfl
    | sell => exact absurd (hside.mpr hcase) hsell

section Agreement

variable (hintent : s.booked input.report = some intent) (hnames : NamesIntent intent input)

include hintent hnames

theorem signedQty_agrees_iff (hfits : QtyFits (s.stateOf input.report) input.report)
    (hpos : 0 < input.report.filledQty.toRat) :
    (sideSigned input.side input.report.filledQty).toRat =
        signedValue intent.side ((s.stateOf input.report).deltaQty input.report) ↔
      (s.stateOf input.report).filledQty.toRat = 0 := by
  obtain ⟨-, hdelta, -⟩ := deltaQty_of_accepted (booked_eq_some.mp hintent).1 hfits
  rw [sideSigned_value hnames hpos, signedValue_sub intent.side hdelta]
  obtain ⟨-, hnamed, -, -⟩ := hnames
  cases hside : intent.side with
  | unspecified => exact absurd hside hnamed
  | buy =>
      simp only [signedValue]
      constructor <;> intro h <;> linarith
  | sell =>
      simp only [signedValue]
      constructor <;> intro h <;> linarith

theorem net_firstFill (hfits : ReportFits s input.report)
    (hfirst : FirstFill (s.stateOf input.report) input.report) (account : String × String) :
    net account (reportPostings s input.report) = input.entry.value account := by
  obtain ⟨haccepted, hbooked⟩ := booked_eq_some.mp hintent
  obtain ⟨hqty, ⟨hnewFee, holdFee, hsubFee⟩, hmul, -⟩ := hfits (by rw [haccepted]; rfl)
  obtain ⟨hzero, hfee⟩ := hfirst
  obtain ⟨-, hdelta, hgrows⟩ := deltaQty_of_accepted haccepted hqty
  have hpos : 0 < input.report.filledQty.toRat := hzero ▸ hgrows.mp hbooked
  have hsigned := (signedQty_agrees_iff hintent hnames hqty hpos).mpr hzero
  have hquoted : signedValue intent.side ((s.stateOf input.report).quoteDelta input.report) =
      signedValue intent.side ((s.stateOf input.report).deltaQty input.report) *
        input.report.averagePrice.toRat :=
    signedValue_mul intent.side hmul
  have hmarket := hnames.2.2.2
  rw [reportPostings, ExecutionBooks.moves, hintent]
  dsimp only
  rw [executionMoves, hmarket]
  rw [List.map_append, List.map_append, net_append, net_append, net_namedMove, net_namedMove,
    net_feeGrowth _ hnewFee holdFee hsubFee, hfee, baseChange_value, quoteChange_value, hquoted,
    ← hsigned, onAccount_neg]
  unfold SimEntry.value SimReportPair.entry SimReportPair.positionDelta SimReportPair.hedgePnlDelta
  ring

theorem quantity_firstFill (hfits : ReportFits s input.report)
    (hfirst : FirstFill (s.stateOf input.report) input.report) (now : Int) (venue symbol : String) :
    (if (hedgeRecord now intent input.report (s.stateOf input.report)).venue = venue then
        (hedgeRecord now intent input.report (s.stateOf input.report)).quantity symbol else 0) =
      input.entry.quantity venue symbol := by
  obtain ⟨haccepted, hbooked⟩ := booked_eq_some.mp hintent
  obtain ⟨hqty, -⟩ := hfits (by rw [haccepted]; rfl)
  obtain ⟨-, -, hgrows⟩ := deltaQty_of_accepted haccepted hqty
  have hpos : 0 < input.report.filledQty.toRat := hfirst.1 ▸ hgrows.mp hbooked
  have hsigned := (signedQty_agrees_iff hintent hnames hqty hpos).mpr hfirst.1
  have hsymbol := hnames.2.2.1
  unfold HedgePnlRecord.quantity hedgeRecord SimEntry.quantity SimReportPair.entry
    SimReportPair.positionDelta SimReportPair.hedgePnlDelta
  rw [hsymbol, hsigned]
  by_cases hvenue : input.report.venue = venue
  · rw [if_pos hvenue]
    simp only [hvenue, true_and]
  · rw [if_neg hvenue, if_neg (fun h => hvenue h.1)]

end Agreement

theorem Matches.deliver {pair : LedgerPair} {event : Int × SimReportPair} (h : pair.Matches)
    (hok : StepAgrees pair event) : (pair.deliver event).Matches := by
  obtain ⟨now, input⟩ := event
  obtain ⟨hboth, hterms⟩ := hok
  by_cases hbooks : pair.live.Books input.report
  · obtain ⟨intent, hintent⟩ := isSome_iff_exists.mp hbooks.2.2
    obtain ⟨hfits, hnamed⟩ := hterms hbooks
    obtain ⟨hnames, hfirst⟩ := hnamed intent hintent
    obtain ⟨hbalances, hrecords⟩ := live_of_books now hbooks hintent
    have hsim := hboth.mp hbooks
    refine ⟨fun account => ?_, fun venue symbol => ?_⟩
    · have hposts := posts_moves hfits.movesExact account
      rw [← hbalances] at hposts
      refine hposts.trans ?_
      refine Eq.trans ?_ (balance_of_books hsim account).symm
      rw [h.balances]
      congr 1
      exact net_firstFill hintent hnames hfits hfirst account
    · refine (livePosition_congr hrecords venue symbol).trans ?_
      rw [position_storeRecord, h.positions, quantity_firstFill hintent hnames hfits hfirst]
      exact (position_of_books hsim venue symbol).symm
  · obtain ⟨hbalances, hrecords⟩ := live_of_not_books now hbooks
    have hentries := entries_of_not_books (fun hsim => hbooks (hboth.mpr hsim))
    have hbalance : ∀ account, (pair.sim.apply input).balance account = pair.sim.balance account :=
      fun account => by rw [SimBook.balance, hentries, SimBook.balance]
    have hposition : ∀ venue symbol,
        (pair.sim.apply input).position venue symbol = pair.sim.position venue symbol :=
      fun venue symbol => by rw [SimBook.position, hentries, SimBook.position]
    refine ⟨fun account => ?_, fun venue symbol => ?_⟩
    · refine Eq.trans ?_ ((h.balances account).trans (hbalance account).symm)
      unfold valueAt LedgerPair.deliver
      rw [hbalances]
    · exact (livePosition_congr hrecords venue symbol).trans
        ((h.positions venue symbol).trans (hposition venue symbol).symm)

end Step

section Streams

theorem start_matches (intents : List ExecutionIntent) : (LedgerPair.start intents).Matches := by
  have hempty : ∀ s : ExecutionBooks, (∀ id, s.pending id = []) → s.venueBalances = ∅ →
      s.hedgePnlRecords = ∅ →
        (run (rememberExecutionIntent 0) s intents).venueBalances = ∅ ∧
          (run (rememberExecutionIntent 0) s intents).hedgePnlRecords = ∅ := by
    induction intents with
    | nil => exact fun s _ hbalances hrecords => ⟨hbalances, hrecords⟩
    | cons intent intents ih =>
        intro s hpending hbalances hrecords
        rw [run_cons]
        unfold rememberExecutionIntent
        split
        · exact ih s hpending hbalances hrecords
        · rw [hpending]
          refine ih _ (fun id => ?_) hbalances hrecords
          have hid := hpending id
          unfold ExecutionBooks.pending at hid ⊢
          by_cases hsame : id = intent.intentId
          · rw [hsame]
            simp
          · simpa [lookup_erase_ne hsame] using hid
  obtain ⟨hbalances, hrecords⟩ := hempty {} (fun _ => rfl) rfl rfl
  refine ⟨fun account => ?_, fun venue symbol => ?_⟩
  · unfold LedgerPair.start valueAt
    rw [hbalances]
    rfl
  · unfold LedgerPair.start ExecutionBooks.position ExecutionBooks.records
    rw [hrecords]
    rfl

/-- In a stream whose reports all agree, the simulated book has the balances and positions of
the live ledger after every report; and of a report that both book the quantities are the same
exactly when nothing was filled before. -/
theorem simBook_follows_ledger
    (intents : List ExecutionIntent) (events : List (Int × SimReportPair))
    (hmeet : StepsMeet LedgerPair.deliver StepAgrees (LedgerPair.start intents) events) :
    (∀ initial, initial <+: events →
      (run LedgerPair.deliver (LedgerPair.start intents) initial).Matches) ∧
    ∀ (s : ExecutionBooks) (input : SimReportPair), ∀ intent ∈ s.booked input.report,
      QtyFits (s.stateOf input.report) input.report → NamesIntent intent input →
      0 < input.report.filledQty.toRat →
        ((sideSigned input.side input.report.filledQty).toRat =
            signedValue intent.side ((s.stateOf input.report).deltaQty input.report) ↔
          (s.stateOf input.report).filledQty.toRat = 0) := by
  refine ⟨?_, fun s input intent hintent hfits hnames hpos =>
    signedQty_agrees_iff hintent hnames hfits hpos⟩
  rintro initial ⟨rest, rfl⟩
  exact run_invariant LedgerPair.Matches (fun _ _ h hok => Matches.deliver h hok)
    (start_matches intents) hmeet.prefix

/-- A report of the sample intent in a session. -/
def sampleSimReport (report : ExecutionReport) : SimReportPair where
  report := report
  providerId := "prov-1"
  side := .buy
  simSessionId := "sess-1"

/-- One fill that is delivered twice. -/
theorem single_fill_matches :
    (run LedgerPair.deliver (LedgerPair.start [sampleIntent (Decimal.of 1 0)])
      [(0, sampleSimReport (sampleReport "r1" "v1" .filled (Decimal.of 1 0) (Decimal.of 100 0)
          (some (Decimal.of 1 1)))),
        (1, sampleSimReport (sampleReport "r1" "v1" .filled (Decimal.of 1 0) (Decimal.of 100 0)
          (some (Decimal.of 1 1))))]).Matches :=
  (simBook_follows_ledger _ _ (by decide +kernel)).1 _ (List.prefix_refl _)

/-- A partial fill of `0.4` and the fill of the whole intent: the ledger books one, the
simulated book `1.4`. -/
theorem partial_fill_counted_twice :
    ¬ ∀ (intents : List ExecutionIntent) (events : List (Int × SimReportPair)),
      (run LedgerPair.deliver (LedgerPair.start intents) events).Matches := by
  intro h
  have hposition := (h [sampleIntent (Decimal.of 1 0)]
    [(0, sampleSimReport (sampleReport "r1" "v1" .partiallyFilled (Decimal.of 4 1)
        (Decimal.of 100 0) none)),
      (1, sampleSimReport (sampleReport "r2" "v1" .filled (Decimal.of 1 0)
        (Decimal.of 100 0) none))]).positions "binance" "BTC/USDT"
  revert hposition
  decide +kernel

end Streams

end Ledger
end ContExchange
