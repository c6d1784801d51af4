import ContExchange.Ledger.ExecutionRuns
import ContExchange.Ledger.Positions

/-!
# Ledger: the cash of a venue order

The cumulative amounts of an execution state stand for a position on the venue:
the filled quantity in the base, its value at the average price in the quote, and
the fee.  A report is booked as the difference of quantities at the new price.
The differences add up to the position of the last state as long as the price
stays the same and the fee only grows together with the quantity.
-/

namespace ContExchange
namespace Ledger

open Common Lib Decimal List

/-- What the reports of one venue order agree on. -/
structure OrderTerms where
  side : Side
  venue : String
  base : String
  quote : String
  feeCurrency : String
deriving DecidableEq

/-- An amount on the account of a currency on a venue; a currency without a name has
no account. -/
def onAccount (venue currency : String) (account : String × String) (amount : ℚ) : ℚ :=
  if currency ≠ "" ∧ (venue, currency) = account then amount else 0

/-- What the cumulative amounts of a state stand for, account by account. -/
def OrderTerms.book
    (terms : OrderTerms) (state : ExecutionLedgerState) (account : String × String) : ℚ :=
  onAccount terms.venue terms.base account (signedValue terms.side state.filledQty) -
    onAccount terms.venue terms.quote account
      (signedValue terms.side state.filledQty * state.averagePrice.toRat) -
    onAccount terms.venue terms.feeCurrency account state.feeTotal.toRat

/-- No sum, difference or product of an accepted report is rounded. -/
def ReportFits (s : ExecutionBooks) (report : ExecutionReport) : Prop :=
  (s.accepted report).isSome →
    QtyFits (s.stateOf report) report ∧
    (report.feeAmount.ScaleOk ∧ (s.stateOf report).feeTotal.ScaleOk ∧
      Decimal.SubKept report.feeAmount (s.stateOf report).feeTotal) ∧
    Decimal.MulKept ((s.stateOf report).deltaQty report) report.averagePrice ∧
    MovesExact s report
deriving Decidable

def OrderTerms.Names
    (terms : OrderTerms) (intent : ExecutionIntent) (report : ExecutionReport) : Prop :=
  intent.side = terms.side ∧ report.venue = terms.venue ∧
    market intent report = (terms.base, terms.quote) ∧
    (report.feeTotal.isSome → report.feeCurrency terms.quote = terms.feeCurrency)
deriving Decidable

/-- A report keeps the price of the quantity filled so far, and changes the fee only
upwards and together with the quantity. -/
def KeepsPriceAndFee (state : ExecutionLedgerState) (report : ExecutionReport) : Prop :=
  (state.filledQty.toRat = 0 ∨ report.averagePrice.toRat = state.averagePrice.toRat) ∧
    (report.feeTotal.isSome →
      report.feeAmount.toRat = state.feeTotal.toRat ∨
        (state.filledQty.toRat < report.filledQty.toRat ∧
          state.feeTotal.toRat ≤ report.feeAmount.toRat))
deriving Decidable

/-- The condition on an accepted report of an order. -/
def Telescopes (terms : OrderTerms) (s : ExecutionBooks) (report : ExecutionReport) : Prop :=
  ∀ intent ∈ s.accepted report,
    terms.Names intent report ∧ KeepsPriceAndFee (s.stateOf report) report
deriving Decidable

section Report

theorem signedValue_sub (side : Side) {a b d : Decimal} (h : d.toRat = a.toRat - b.toRat) :
    signedValue side d = signedValue side a - signedValue side b := by
  cases side with
  | unspecified => exact (sub_zero (0 : ℚ)).symm
  | buy => exact h
  | sell =>
      rw [signedValue, signedValue, signedValue, h]
      ring

theorem signedValue_mul (side : Side) {a d : Decimal} {p : ℚ} (h : d.toRat = a.toRat * p) :
    signedValue side d = signedValue side a * p := by
  cases side with
  | unspecified => exact (zero_mul p).symm
  | buy => exact h
  | sell =>
      rw [signedValue, signedValue, h]
      ring

theorem signedValue_congr (side : Side) {a b : Decimal} (h : a.toRat = b.toRat) :
    signedValue side a = signedValue side b := by
  cases side with
  | unspecified => rfl
  | buy => exact h
  | sell => rw [signedValue, signedValue, h]

theorem baseChange_value (side : Side) (delta : Decimal) :
    (baseChange side delta).value = signedValue side delta := by
  cases side <;> rfl

theorem quoteChange_value (side : Side) (delta : Decimal) :
    (quoteChange side delta).value = -signedValue side delta := by
  cases side with
  | unspecified => exact neg_zero.symm
  | buy => rfl
  | sell => exact (neg_neg _).symm

variable {s : ExecutionBooks} {report : ExecutionReport} {intent : ExecutionIntent}

theorem onAccount_sub (venue currency : String) (account : String × String) (x y : ℚ) :
    onAccount venue currency account (x - y) =
      onAccount venue currency account x - onAccount venue currency account y := by
  rw [onAccount, onAccount, onAccount]
  split
  · rfl
  · exact (sub_zero 0).symm

theorem net_namedMove (venue currency : String) (change : VenueChange) (account : String × String) :
    net account ((if currency ≠ "" then [(⟨venue, currency, change⟩ : VenueMove)] else []).map
        VenueMove.posting) =
      onAccount venue currency account change.value := by
  rw [onAccount]
  by_cases hnamed : currency ≠ ""
  · rw [if_pos hnamed]
    simp only [map_cons, map_nil, net_cons, net_nil, add_zero, hnamed, ne_eq,
      not_false_eq_true, true_and]
    rfl
  · rw [if_neg hnamed, if_neg (fun h => hnamed h.1)]
    rfl

theorem onAccount_neg (venue currency : String) (account : String × String) (x : ℚ) :
    onAccount venue currency account (-x) = -onAccount venue currency account x := by
  rw [onAccount, onAccount, neg_ite, neg_zero]

/-- The fee that is taken is what the fee total has grown by. -/
theorem net_feeGrowth {state : ExecutionLedgerState} (quote : String)
    (hnew : report.feeAmount.ScaleOk) (hold : state.feeTotal.ScaleOk)
    (hsub : Decimal.SubKept report.feeAmount state.feeTotal) (account : String × String) :
    net account ((if report.feeCurrency quote ≠ "" ∧
        Decimal.cmp (state.feeDelta report) .zero > 0 then
          [(⟨report.venue, report.feeCurrency quote, .sub (state.feeDelta report)⟩ : VenueMove)]
        else []).map VenueMove.posting) =
      -onAccount report.venue (report.feeCurrency quote) account
        (max (report.feeAmount.toRat - state.feeTotal.toRat) 0) := by
  have hcmp := cmp_pos_iff hnew hold
  by_cases hgrows : state.feeTotal.toRat < report.feeAmount.toRat
  · have hdelta : state.feeDelta report = Decimal.sub report.feeAmount state.feeTotal :=
      if_pos (hcmp.mpr hgrows)
    have hvalue : (state.feeDelta report).toRat = report.feeAmount.toRat - state.feeTotal.toRat := by
      rw [hdelta, hsub]
    have hscale : (state.feeDelta report).ScaleOk := by
      rw [hdelta]
      exact hnew.sub hold
    have hbooked : Decimal.cmp (state.feeDelta report) .zero > 0 := by
      rw [gt_iff_lt, cmp_pos_iff hscale scaleOk_zero, toRat_zero, hvalue, sub_pos]
      exact hgrows
    have hguard : (report.feeCurrency quote ≠ "" ∧
        Decimal.cmp (state.feeDelta report) .zero > 0) = (report.feeCurrency quote ≠ "") :=
      propext ⟨fun h => h.1, fun h => ⟨h, hbooked⟩⟩
    simp only [hguard]
    rw [net_namedMove, VenueChange.value, hvalue, onAccount_neg, max_eq_left (sub_pos.mpr hgrows).le]
  · have hnot : ¬ (report.feeCurrency quote ≠ "" ∧
        Decimal.cmp (state.feeDelta report) .zero > 0) := by
      rw [show state.feeDelta report = .zero from if_neg (fun h => hgrows (hcmp.mp h))]
      rintro ⟨-, h⟩
      exact absurd h (by decide)
    rw [if_neg hnot, max_eq_right (sub_nonpos.mpr (not_lt.mp hgrows)), onAccount, ite_self, neg_zero]
    rfl

theorem net_feeMove {state : ExecutionLedgerState} {quote feeCurrency : String}
    (hnew : report.feeAmount.ScaleOk) (hold : state.feeTotal.ScaleOk)
    (hsub : Decimal.SubKept report.feeAmount state.feeTotal)
    (hcurrency : report.feeTotal.isSome → report.feeCurrency quote = feeCurrency)
    (hgrows : report.feeTotal.isSome → state.feeTotal.toRat ≤ report.feeAmount.toRat)
    (account : String × String) :
    net account ((if report.feeCurrency quote ≠ "" ∧
        Decimal.cmp (state.feeDelta report) .zero > 0 then
          [(⟨report.venue, report.feeCurrency quote, .sub (state.feeDelta report)⟩ : VenueMove)]
        else []).map VenueMove.posting) =
      onAccount report.venue feeCurrency account
        (state.feeTotal.toRat - (state.saved report).feeTotal.toRat) := by
  cases hfee : report.feeTotal with
  | none =>
      have hnone : report.feeCurrency quote = "" := by
        rw [ExecutionReport.feeCurrency, hfee]
      have hsaved : (state.saved report).feeTotal = state.feeTotal := by
        simp only [ExecutionLedgerState.saved, hfee]
      rw [if_neg (fun h => h.1 hnone), hsaved, sub_self, onAccount, ite_self]
      rfl
  | some fee =>
      have hsome : report.feeTotal.isSome := by
        rw [hfee]
        rfl
      have hsaved : (state.saved report).feeTotal = report.feeAmount := by
        simp only [ExecutionLedgerState.saved, ExecutionReport.feeAmount, hfee]
      rw [net_feeGrowth quote hnew hold hsub, max_eq_left (sub_nonneg.mpr (hgrows hsome)),
        ← onAccount_neg, neg_sub, hsaved, hcurrency hsome]

theorem net_moves {terms : OrderTerms} (haccepted : s.accepted report = some intent)
    (hfits : ReportFits s report) (hterms : Telescopes terms s report) (account : String × String) :
    net account ((s.moves report).map VenueMove.posting) =
      terms.book ((s.stateOf report).saved report) account -
        terms.book (s.stateOf report) account := by
  obtain ⟨⟨hside, hvenue, hmarket, hcurrency⟩, hprice, hfee⟩ :=
    hterms intent haccepted
  obtain ⟨hqty, ⟨hnewFee, holdFee, hsubFee⟩, hmul, -⟩ := hfits (by rw [haccepted]; rfl)
  obtain ⟨hle, hdelta, hpos⟩ := deltaQty_of_accepted haccepted hqty
  generalize hstate : s.stateOf report = state at *
  have hfilled : (state.saved report).filledQty = report.filledQty := rfl
  have haverage : (state.saved report).averagePrice = report.averagePrice := rfl
  have hkept : signedValue terms.side state.filledQty * report.averagePrice.toRat =
      signedValue terms.side state.filledQty * state.averagePrice.toRat := by
    rcases hprice with hzero | hsame
    · have hnone : signedValue terms.side state.filledQty = 0 :=
        (signedValue_congr terms.side (hzero.trans toRat_zero.symm)).trans (by
          cases terms.side <;> simp [signedValue])
      rw [hnone, zero_mul, zero_mul]
    · rw [hsame]
  by_cases hlt : state.filledQty.toRat < report.filledQty.toRat
  · have hbooked : s.booked report = some intent :=
      booked_eq_some.mpr ⟨haccepted, by rw [hstate]; exact hpos.mpr hlt⟩
    have hgrows : report.feeTotal.isSome → state.feeTotal.toRat ≤ report.feeAmount.toRat := by
      intro hsome
      rcases hfee hsome with hequal | ⟨-, hge⟩
      · exact hequal.ge
      · exact hge
    have hquoted : signedValue terms.side (state.quoteDelta report) =
        signedValue terms.side (state.deltaQty report) * report.averagePrice.toRat :=
      signedValue_mul terms.side hmul
    have hpaid : -((signedValue terms.side report.filledQty -
          signedValue terms.side state.filledQty) * report.averagePrice.toRat) =
        signedValue terms.side state.filledQty * state.averagePrice.toRat -
          signedValue terms.side report.filledQty * report.averagePrice.toRat := by
      rw [← hkept]
      ring
    rw [ExecutionBooks.moves, hbooked]
    dsimp only
    rw [hstate, executionMoves, hmarket]
    dsimp only
    rw [map_append, map_append, net_append, net_append, net_namedMove, net_namedMove,
      net_feeMove hnewFee holdFee hsubFee hcurrency hgrows, baseChange_value, quoteChange_value,
      hside, hvenue, hquoted, signedValue_sub terms.side hdelta, hpaid, OrderTerms.book,
      OrderTerms.book, hfilled, haverage, onAccount_sub, onAccount_sub, onAccount_sub]
    ring
  · have hequal : report.filledQty.toRat = state.filledQty.toRat :=
      le_antisymm (not_lt.mp hlt) hle
    have hnone : s.booked report = none := by
      cases hb : s.booked report with
      | none => rfl
      | some other =>
          have := (booked_eq_some.mp hb).2
          rw [hstate] at this
          exact absurd (hpos.mp this) hlt
    have hfeeSame : (state.saved report).feeTotal.toRat = state.feeTotal.toRat := by
      cases hsome : report.feeTotal with
      | none => simp only [ExecutionLedgerState.saved, hsome]
      | some fee =>
          have hsaved : (state.saved report).feeTotal = report.feeAmount := by
            simp only [ExecutionLedgerState.saved, ExecutionReport.feeAmount, hsome]
          rw [hsaved]
          rcases hfee (by rw [hsome]; rfl) with h | ⟨h, -⟩
          · exact h
          · exact absurd h hlt
    rw [ExecutionBooks.moves, hnone, OrderTerms.book, OrderTerms.book, hfilled, haverage, hfeeSame,
      signedValue_congr terms.side hequal, hkept, sub_self]
    rfl

end Report

def orderPostings (key : String) (s : ExecutionBooks) (report : ExecutionReport) :
    List (Posting (String × String) ℚ) :=
  if executionStateKey report = key then reportPostings s report else []

/-- The postings of a report under another key. -/
def otherPostings (key : String) (s : ExecutionBooks) (report : ExecutionReport) :
    List (Posting (String × String) ℚ) :=
  if executionStateKey report = key then [] else reportPostings s report

/-- The venue balances change by what the state of the key stands for, and by the
reports under other keys. -/
def VenueCashFollows
    (terms : OrderTerms) (key : String) (s : ExecutionBooks) (as : List ReportAction) : Prop :=
  ∀ account,
    valueAt VenueBalanceEntry.value (run act s as).venueBalances account =
      valueAt VenueBalanceEntry.value s.venueBalances account +
        terms.book ((run act s as).executionState key) account +
        net account (journal act (onReport (otherPostings key)) s as)

/-- The condition on an applied report: its numbers fit, and if it is one of the
order it names the terms and keeps price and fee. -/
def OrderReportOk
    (terms : OrderTerms) (key : String) (s : ExecutionBooks) (report : ExecutionReport) : Prop :=
  ReportFits s report ∧ (executionStateKey report = key → Telescopes terms s report)
deriving Decidable

section Runs

variable {terms : OrderTerms} {key : String}

variable {s : ExecutionBooks}

theorem ReportFits.movesExact {report : ExecutionReport} (h : ReportFits s report) :
    MovesExact s report := by
  cases haccepted : s.accepted report with
  | none =>
      have hmoves : s.moves report = [] := by
        rw [ExecutionBooks.moves, ExecutionBooks.booked, haccepted]
        rfl
      rw [MovesExact, hmoves]
      trivial
  | some intent => exact (h (by rw [haccepted]; rfl)).2.2.2

theorem net_orderPostings_step (s : ExecutionBooks) (a : ReportAction)
    (hok : OnApply (OrderReportOk terms key) s a) (account : String × String) :
    net account (onReport (orderPostings key) s a) =
      terms.book ((act s a).executionState key) account -
        terms.book (s.executionState key) account := by
  rcases act_cases s a with ⟨now, report, rfl⟩ | ⟨hother, hsame⟩
  · obtain ⟨hfits, hterms⟩ := hok
    rw [act, executionState_applyReport, onReport, orderPostings]
    by_cases hkey : executionStateKey report = key
    · subst hkey
      rw [if_pos rfl]
      cases haccepted : s.accepted report with
      | none =>
          have hmoves : s.moves report = [] := by
            rw [ExecutionBooks.moves, ExecutionBooks.booked, haccepted]
            rfl
          rw [if_neg (by simp), reportPostings, hmoves, sub_self]
          rfl
      | some intent =>
          rw [if_pos ⟨rfl, rfl⟩]
          exact net_moves haccepted hfits (hterms rfl) account
    · rw [if_neg hkey, if_neg (fun h => hkey h.1.symm), sub_self]
      rfl
  · rw [hsame.states, sub_self, onReport_of_other _ s hother]
    rfl

variable {as : List ReportAction}

theorem net_orderPostings (hmeet : StepsMeet act (OnApply (OrderReportOk terms key)) s as)
    (account : String × String) :
    net account (journal act (onReport (orderPostings key)) s as) =
      terms.book ((run act s as).executionState key) account -
        terms.book (s.executionState key) account := by
  induction as generalizing s with
  | nil => exact (sub_self _).symm
  | cons a as ih =>
      rw [journal_cons, net_append, net_orderPostings_step s a hmeet.1, ih hmeet.2, run_cons]
      ring

theorem net_reportPostings
    (key : String) (s : ExecutionBooks) (as : List ReportAction) (account : String × String) :
    net account (journal act (onReport reportPostings) s as) =
      net account (journal act (onReport (orderPostings key)) s as) +
        net account (journal act (onReport (otherPostings key)) s as) := by
  induction as generalizing s with
  | nil => exact (add_zero 0).symm
  | cons a as ih =>
      have hsplit : net account (onReport reportPostings s a) =
          net account (onReport (orderPostings key) s a) +
            net account (onReport (otherPostings key) s a) := by
        rcases act_cases s a with ⟨now, report, rfl⟩ | ⟨hother, -⟩
        · rw [onReport, onReport, onReport, orderPostings, otherPostings]
          split
          · exact (add_zero _).symm
          · exact (zero_add _).symm
        · rw [onReport_of_other _ s hother, onReport_of_other _ s hother,
            onReport_of_other _ s hother]
          exact (add_zero 0).symm
      rw [journal_cons, journal_cons, journal_cons, net_append, net_append, net_append, hsplit, ih]
      ring

theorem posts_executionRun (hmeet : StepsMeet act (OnApply ReportFits) s as) :
    Posts VenueBalanceEntry.value s.venueBalances (journal act (onReport reportPostings) s as)
      (run act s as).venueBalances :=
  Posts.run ExecutionBooks.venueBalances posts_act
    (hmeet.imp (OnApply.imp (fun _ _ h => h.movesExact)))

theorem venueCash_follows_run (hnew : s.executionState key = {})
    (hmeet : StepsMeet act (OnApply (OrderReportOk terms key)) s as) :
    VenueCashFollows terms key s as := by
  intro account
  have hposts := posts_executionRun (hmeet.imp (OnApply.imp (fun _ _ h => h.1))) account
  have horder := net_orderPostings hmeet account
  have hempty : terms.book {} account = 0 := by
    have hzero : signedValue terms.side .zero = 0 := by
      cases terms.side <;> simp [signedValue]
    simp [OrderTerms.book, onAccount, hzero]
  rw [net_reportPostings key, horder, hnew, hempty, sub_zero, ← add_assoc] at hposts
  exact hposts

/-- Venue cash telescopes: for an order whose key is new, after every report of every
run the venue balances are those before, plus what the last accepted amounts stand
for, plus the reports of other orders. -/
theorem venueCash_telescopes {s : ExecutionBooks} {calls : List ExecutionCall}
    (hnew : s.executionState key = {})
    (hmeet : StepsMeet act (OnApply (OrderReportOk terms key)) s (executionActions s calls))
    {as : List ReportAction} (hinitial : as <+: executionActions s calls) :
    VenueCashFollows terms key s as := by
  obtain ⟨rest, hrest⟩ := hinitial
  rw [← hrest] at hmeet
  exact venueCash_follows_run hnew hmeet.prefix

end Runs

def sampleTerms : OrderTerms where
  side := .buy
  venue := "binance"
  base := "BTC"
  quote := "USDT"
  feeCurrency := "USDT"

/-- A partial fill and the rest at the same price, with a growing fee. -/
def steadyReports : List ExecutionReport :=
  [sampleReport "r1" "v1" .partiallyFilled (Decimal.of 1 0) (Decimal.of 100 0)
      (some (Decimal.of 1 1)),
    sampleReport "r2" "v1" .filled (Decimal.of 25 1) (Decimal.of 1000 1) (some (Decimal.of 2 1))]

/-- The reports of `steadyReports` telescope. -/
theorem steadyReports_telescope :
    VenueCashFollows sampleTerms "i1|v1" {}
      (executionActions {} (sampleCalls (Decimal.of 3 0) steadyReports)) :=
  venueCash_telescopes (by decide +kernel) (by decide +kernel) (List.prefix_refl _)

/-- What breaks the sum: a price that moves between two fills, a fee that is charged
after the last fill, and a rebate. -/
theorem venueCash_drifts :
    ¬ VenueCashFollows sampleTerms "i1|v1" {}
        (executionActions {} (sampleCalls (Decimal.of 2 0)
          [sampleReport "r1" "v1" .partiallyFilled (Decimal.of 1 0) (Decimal.of 100 0) none,
            sampleReport "r2" "v1" .filled (Decimal.of 2 0) (Decimal.of 110 0) none])) ∧
      ¬ VenueCashFollows sampleTerms "i1|v1" {}
          (executionActions {} (sampleCalls (Decimal.of 2 0)
            [sampleReport "r1" "v1" .partiallyFilled (Decimal.of 1 0) (Decimal.of 100 0) none,
              sampleReport "r2" "v1" .partiallyFilled (Decimal.of 1 0) (Decimal.of 100 0)
                (some (Decimal.of 1 1))])) ∧
      ¬ VenueCashFollows sampleTerms "i1|v1" {}
          (executionActions {} (sampleCalls (Decimal.of 2 0)
            [sampleReport "r1" "v1" .partiallyFilled (Decimal.of 1 0) (Decimal.of 100 0)
                (some (Decimal.of 2 1)),
              sampleReport "r2" "v1" .filled (Decimal.of 2 0) (Decimal.of 100 0)
                (some (Decimal.of 1 1))])) := by
  refine ⟨?_, ?_, ?_⟩
  · intro h
    have husdt := h ("binance", "USDT")
    revert husdt
    decide +kernel
  · intro h
    have husdt := h ("binance", "USDT")
    revert husdt
    decide +kernel
  · intro h
    have husdt := h ("binance", "USDT")
    revert husdt
    decide +kernel

end Ledger
end ContExchange
