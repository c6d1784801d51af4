import ContExchange.Common.Rounding
import ContExchange.Ledger.ExecutionReports
import ContExchange.Lib.Postings

/-!
# Ledger: runs of execution reports

A call is a run of actions: an intent is stored, a report is marked as seen,
queued or applied.  A queue that is flushed is a run of such actions as well, so
what holds of every list of actions holds of every run of calls.

What `apply_execution_report_locked` does is said once, by `accepted` and what
follows from it: the moves on the venue, the hedge records, and the new state of
the key.
-/

namespace ContExchange
namespace Ledger

open Common Lib AList Decimal Option

/-- The checks on the state of the key. -/
def FollowsState (state : ExecutionLedgerState) (report : ExecutionReport) : Prop :=
  ¬ Decimal.cmp report.filledQty state.filledQty < 0 ∧
    isAllowedStatusTransition state.status (normalizeExecutionStatus report)
deriving Decidable

namespace ExecutionBooks

variable (s : ExecutionBooks) (report : ExecutionReport)

/-- The intent of a report that passes every check. -/
def accepted : Option ExecutionIntent :=
  (s.executionIntents.lookup report.intentId).filter
    (fun intent => MatchesPlan intent report ∧ FollowsState (s.stateOf report) report)

def booked : Option ExecutionIntent :=
  (s.accepted report).filter
    (fun _ => Decimal.cmp ((s.stateOf report).deltaQty report) Decimal.zero > 0)

/-- The changes a report makes to the balances on the venue. -/
def moves : List VenueMove :=
  match s.booked report with
  | none => []
  | some intent => executionMoves intent report (s.stateOf report)

def newRecords (now : Int) : List HedgePnlRecord :=
  match s.booked report with
  | none => []
  | some intent => [hedgeRecord now intent report (s.stateOf report)]

end ExecutionBooks

/-- `apply_execution_report_locked` as an update of the books. -/
def applyReport (now : Int) (s : ExecutionBooks) (report : ExecutionReport) : ExecutionBooks :=
  (applyExecutionReportLocked now s report).1

theorem status_of_terminal {prev next : ExecutionReportStatus} (hterminal : isTerminalStatus prev)
    (hallowed : isAllowedStatusTransition prev next) : next = prev := by
  rw [isAllowedStatusTransition] at hallowed
  split at hallowed
  · rename_i hunspecified
    rw [hunspecified] at hterminal
    exact absurd hterminal (by decide)
  · split at hallowed
    · rename_i hsame
      exact hsame.symm
    · cases hallowed

theorem executionState_setState
    (s : ExecutionBooks) (key : String) (state : ExecutionLedgerState) (k : String) :
    (s.setState key state).executionState k = if k = key then state else s.executionState k := by
  rw [ExecutionBooks.executionState, ExecutionBooks.executionState, ExecutionBooks.setState]
  by_cases h : k = key
  · rw [if_pos h, h, lookup_insert]
    rfl
  · rw [if_neg h, lookup_insert_ne h]

/-- The quantities of a report and of the state have usual scales, and their
difference is not rounded. -/
def QtyFits (state : ExecutionLedgerState) (report : ExecutionReport) : Prop :=
  report.filledQty.ScaleOk ∧ state.filledQty.ScaleOk ∧
    Decimal.SubKept report.filledQty state.filledQty
deriving Decidable

/-- The two books hold the same states, balances and records. -/
structure SameBooks (s t : ExecutionBooks) : Prop where
  states : ∀ key, t.executionState key = s.executionState key
  balances : t.venueBalances = s.venueBalances
  records : t.hedgePnlRecords = s.hedgePnlRecords
  summary : t.hedgePnlSummary = s.hedgePnlSummary

namespace SameBooks

variable {s t : ExecutionBooks}

theorem refl (s : ExecutionBooks) : SameBooks s s :=
  ⟨fun _ => rfl, rfl, rfl, rfl⟩

theorem touch (s : ExecutionBooks) (report : ExecutionReport) :
    SameBooks s (s.setState (executionStateKey report) (s.stateOf report)) := by
  refine ⟨?_, rfl, rfl, rfl⟩
  intro key
  rw [executionState_setState]
  split
  · rename_i hkey
    rw [hkey]
    rfl
  · rfl

end SameBooks

section ApplyReport

variable {now : Int} {s : ExecutionBooks} {report : ExecutionReport}

variable {intent : ExecutionIntent}

theorem accepted_eq_some :
    s.accepted report = some intent ↔
      s.executionIntents.lookup report.intentId = some intent ∧ MatchesPlan intent report ∧
        FollowsState (s.stateOf report) report := by
  simp [ExecutionBooks.accepted, filter_eq_some_iff]

theorem booked_eq_some :
    s.booked report = some intent ↔
      s.accepted report = some intent ∧
        Decimal.cmp ((s.stateOf report).deltaQty report) .zero > 0 := by
  simp [ExecutionBooks.booked, filter_eq_some_iff]

theorem deltaQty_of_accepted (haccepted : s.accepted report = some intent)
    (hfits : QtyFits (s.stateOf report) report) :
    (s.stateOf report).filledQty.toRat ≤ report.filledQty.toRat ∧
      ((s.stateOf report).deltaQty report).toRat =
        report.filledQty.toRat - (s.stateOf report).filledQty.toRat ∧
      (Decimal.cmp ((s.stateOf report).deltaQty report) .zero > 0 ↔
        (s.stateOf report).filledQty.toRat < report.filledQty.toRat) := by
  obtain ⟨hnew, hold, hsub⟩ := hfits
  obtain ⟨-, -, hqty, -⟩ := accepted_eq_some.mp haccepted
  have hdelta : ((s.stateOf report).deltaQty report).toRat =
      report.filledQty.toRat - (s.stateOf report).filledQty.toRat := hsub
  have hscale : ((s.stateOf report).deltaQty report).ScaleOk :=
    hnew.sub hold
  refine ⟨?_, hdelta, ?_⟩
  · rw [cmp_neg_iff hnew hold, not_lt] at hqty
    exact hqty
  · rw [gt_iff_lt, cmp_pos_iff hscale scaleOk_zero, toRat_zero, hdelta, sub_pos]

theorem sameBooks_of_rejected (h : s.accepted report = none) :
    SameBooks s (applyReport now s report) := by
  rw [applyReport, applyExecutionReportLocked]
  cases hintent : s.executionIntents.lookup report.intentId with
  | none => exact SameBooks.refl s
  | some intent =>
      dsimp only
      by_cases hplan : MatchesPlan intent report
      · rw [if_neg (not_not.mpr hplan)]
        by_cases hqty : Decimal.cmp report.filledQty (s.stateOf report).filledQty < 0
        · rw [if_pos hqty]
          exact ⟨(SameBooks.touch s report).states, rfl, rfl, rfl⟩
        · rw [if_neg hqty]
          by_cases hstatus : isAllowedStatusTransition (s.stateOf report).status
              (normalizeExecutionStatus report)
          · have haccepted : s.accepted report = some intent :=
              accepted_eq_some.mpr ⟨hintent, hplan, hqty, hstatus⟩
            rw [h] at haccepted
            cases haccepted
          · rw [if_pos hstatus]
            exact ⟨(SameBooks.touch s report).states, rfl, rfl, rfl⟩
      · rw [if_pos hplan]
        exact ⟨fun _ => rfl, rfl, rfl, rfl⟩

theorem applyReport_of_accepted (h : s.accepted report = some intent) :
    applyReport now s report =
      (if Decimal.cmp ((s.stateOf report).deltaQty report) .zero > 0 then
        bookExecution now (s.setState (executionStateKey report) (s.stateOf report)) intent report
          (s.stateOf report)
      else s.setState (executionStateKey report) (s.stateOf report)).setState
        (executionStateKey report) ((s.stateOf report).saved report) := by
  obtain ⟨hintent, hplan, hqty, hstatus⟩ := accepted_eq_some.mp h
  rw [applyReport, applyExecutionReportLocked, hintent]
  dsimp only
  rw [if_neg (not_not.mpr hplan), if_neg hqty, if_neg (not_not.mpr hstatus)]

theorem executionState_applyReport (now : Int) (s : ExecutionBooks) (report : ExecutionReport)
    (key : String) :
    (applyReport now s report).executionState key =
      if key = executionStateKey report ∧ (s.accepted report).isSome then
        (s.stateOf report).saved report
      else s.executionState key := by
  cases haccepted : s.accepted report with
  | none =>
      rw [if_neg (by simp)]
      exact (sameBooks_of_rejected haccepted).states key
  | some intent =>
      rw [applyReport_of_accepted haccepted, executionState_setState]
      by_cases hkey : key = executionStateKey report
      · rw [if_pos hkey, if_pos ⟨hkey, rfl⟩]
      · have hnot : ¬ (key = executionStateKey report ∧ (some intent).isSome) :=
          fun hand => hkey hand.1
        rw [if_neg hkey, if_neg hnot]
        split
        · exact (SameBooks.touch s report).states key
        · exact (SameBooks.touch s report).states key

theorem books_applyReport (now : Int) (s : ExecutionBooks) (report : ExecutionReport) :
    (applyReport now s report).venueBalances = run applyMove s.venueBalances (s.moves report) ∧
      (applyReport now s report).hedgePnlRecords =
        (run storeRecord s (s.newRecords report now)).hedgePnlRecords ∧
      (applyReport now s report).hedgePnlSummary =
        (run storeRecord s (s.newRecords report now)).hedgePnlSummary := by
  rw [ExecutionBooks.moves, ExecutionBooks.newRecords, ExecutionBooks.booked]
  cases haccepted : s.accepted report with
  | none =>
      have hsame : SameBooks s (applyReport now s report) := sameBooks_of_rejected haccepted
      exact ⟨hsame.balances, hsame.records, hsame.summary⟩
  | some intent =>
      rw [applyReport_of_accepted haccepted, filter_some]
      by_cases hdelta : Decimal.cmp ((s.stateOf report).deltaQty report) .zero > 0
      · rw [if_pos hdelta, if_pos (decide_eq_true hdelta)]
        exact ⟨rfl, rfl, rfl⟩
      · rw [if_neg hdelta, if_neg (by simpa using hdelta)]
        exact ⟨rfl, rfl, rfl⟩

theorem queue_applyReport (now : Int) (s : ExecutionBooks) (report : ExecutionReport) :
    (applyReport now s report).executionIntents = s.executionIntents ∧
      (applyReport now s report).pendingExecutionReports = s.pendingExecutionReports ∧
      (applyReport now s report).seenExecutionReportKeys = s.seenExecutionReportKeys := by
  rw [applyReport, applyExecutionReportLocked]
  cases s.executionIntents.lookup report.intentId with
  | none => exact ⟨rfl, rfl, rfl⟩
  | some intent =>
      dsimp only
      split
      · exact ⟨rfl, rfl, rfl⟩
      · split
        · exact ⟨rfl, rfl, rfl⟩
        · split
          · exact ⟨rfl, rfl, rfl⟩
          · split
            · exact ⟨rfl, rfl, rfl⟩
            · exact ⟨rfl, rfl, rfl⟩

end ApplyReport

/-- A call of one of the two entry points, with the reading of the clock. -/
inductive ExecutionCall where
  | rememberExecutionIntent (now : Int) (intent : ExecutionIntent)
  | applyExecutionReport (now : Int) (report : ExecutionReport)
deriving DecidableEq

def executionStep (s : ExecutionBooks) : ExecutionCall → ExecutionBooks
  | .rememberExecutionIntent now intent => rememberExecutionIntent now s intent
  | .applyExecutionReport now report => applyExecutionReport now s report

/-- What a call does under the lock, one after the other. -/
inductive ReportAction where
  | store (intent : ExecutionIntent)
  | see (key : String)
  | countDuplicate
  | queue (report : ExecutionReport)
  | countReplayed
  | apply (now : Int) (report : ExecutionReport)
deriving DecidableEq

def act (s : ExecutionBooks) : ReportAction → ExecutionBooks
  | .store intent =>
      { s with
        executionIntents := s.executionIntents.insert intent.intentId intent
        pendingExecutionReports := s.pendingExecutionReports.erase intent.intentId }
  | .see key => { s with seenExecutionReportKeys := key :: s.seenExecutionReportKeys }
  | .countDuplicate =>
      s.count (fun stats => { stats with duplicateReports := stats.duplicateReports + 1 })
  | .queue report =>
      { s with
        pendingExecutionReports := s.pendingExecutionReports.insert report.intentId
          (s.pending report.intentId ++ [report])
        execReconStats := { s.execReconStats with
          missingPlanReports := s.execReconStats.missingPlanReports + 1
          queuedReports := s.execReconStats.queuedReports + 1 } }
  | .countReplayed =>
      s.count (fun stats => { stats with replayedReports := stats.replayedReports + 1 })
  | .apply now report => applyReport now s report

def actions (s : ExecutionBooks) : ExecutionCall → List ReportAction
  | .rememberExecutionIntent now intent =>
      if intent.intentId = "" then []
      else
        .store intent ::
          (s.pending intent.intentId).flatMap (fun report => [.countReplayed, .apply now report])
  | .applyExecutionReport now report =>
      if executionReportKey report ∈ s.seenExecutionReportKeys then [.countDuplicate]
      else if s.Waits report then [.see (executionReportKey report), .queue report]
      else [.see (executionReportKey report), .apply now report]

def executionActions (s : ExecutionBooks) (calls : List ExecutionCall) : List ReportAction :=
  journal executionStep actions s calls

theorem run_actions (s : ExecutionBooks) (call : ExecutionCall) :
    run act s (actions s call) = executionStep s call := by
  cases call with
  | rememberExecutionIntent now intent =>
      rw [actions, executionStep, rememberExecutionIntent]
      by_cases hid : intent.intentId = ""
      · rw [if_pos hid, if_pos hid]
        rfl
      · rw [if_neg hid, if_neg hid, run_cons, act]
        generalize s.pending intent.intentId = reports
        generalize ({ s with
          executionIntents := s.executionIntents.insert intent.intentId intent
          pendingExecutionReports :=
            s.pendingExecutionReports.erase intent.intentId } : ExecutionBooks) = t
        induction reports generalizing t with
        | nil => rfl
        | cons report reports ih =>
            rw [List.flatMap_cons, run_append, run_cons]
            exact ih (replayReport now t report)
  | applyExecutionReport now report =>
      rw [actions, executionStep, applyExecutionReport]
      dsimp only
      by_cases hseen : executionReportKey report ∈ s.seenExecutionReportKeys
      · rw [if_pos hseen, if_pos hseen]
        rfl
      · rw [if_neg hseen, if_neg hseen]
        by_cases hwaits : s.Waits report
        · rw [if_pos hwaits]
          exact (if_pos hwaits).symm
        · rw [if_neg hwaits]
          exact (if_neg hwaits).symm

theorem run_executionActions (s : ExecutionBooks) (calls : List ExecutionCall) :
    run act s (executionActions s calls) = run executionStep s calls :=
  run_journal run_actions s calls

/-- A condition on the reports that are applied. -/
def OnApply (Ok : ExecutionBooks → ExecutionReport → Prop) (s : ExecutionBooks) :
    ReportAction → Prop
  | .apply _ report => Ok s report
  | _ => True

instance (Ok : ExecutionBooks → ExecutionReport → Prop) [∀ s r, Decidable (Ok s r)]
    (s : ExecutionBooks) (a : ReportAction) : Decidable (OnApply Ok s a) :=
  match a with
  | .apply _ report => inferInstanceAs (Decidable (Ok s report))
  | .store _ => inferInstanceAs (Decidable True)
  | .see _ => inferInstanceAs (Decidable True)
  | .countDuplicate => inferInstanceAs (Decidable True)
  | .queue _ => inferInstanceAs (Decidable True)
  | .countReplayed => inferInstanceAs (Decidable True)

theorem OnApply.imp {Ok Ok' : ExecutionBooks → ExecutionReport → Prop}
    (himp : ∀ s report, Ok s report → Ok' s report) (s : ExecutionBooks) (a : ReportAction)
    (h : OnApply Ok s a) : OnApply Ok' s a := by
  cases a with
  | apply now report => exact himp s report h
  | store intent => trivial
  | see key => trivial
  | countDuplicate => trivial
  | queue report => trivial
  | countReplayed => trivial

/-- What is written down for the reports that are applied. -/
def onReport {β : Type} (f : ExecutionBooks → ExecutionReport → List β) (s : ExecutionBooks) :
    ReportAction → List β
  | .apply _ report => f s report
  | _ => []

theorem onReport_of_other {β : Type} (f : ExecutionBooks → ExecutionReport → List β)
    (s : ExecutionBooks) {a : ReportAction} (hother : ∀ now report, a ≠ .apply now report) :
    onReport f s a = [] := by
  cases a with
  | apply now report => exact absurd rfl (hother now report)
  | store intent => rfl
  | see key => rfl
  | countDuplicate => rfl
  | queue report => rfl
  | countReplayed => rfl

theorem act_cases (s : ExecutionBooks) (a : ReportAction) :
    (∃ now report, a = .apply now report) ∨ ((∀ now report, a ≠ .apply now report) ∧
      SameBooks s (act s a)) := by
  have hsame : ∀ t, t.executionStates = s.executionStates → t.venueBalances = s.venueBalances →
      t.hedgePnlRecords = s.hedgePnlRecords → t.hedgePnlSummary = s.hedgePnlSummary →
      SameBooks s t := by
    intro t hstates hbalances hrecords hsummary
    refine ⟨?_, hbalances, hrecords, hsummary⟩
    intro key
    rw [ExecutionBooks.executionState, ExecutionBooks.executionState, hstates]
  cases a with
  | apply now report => exact Or.inl ⟨now, report, rfl⟩
  | store intent => exact Or.inr ⟨by simp, hsame _ rfl rfl rfl rfl⟩
  | see key => exact Or.inr ⟨by simp, hsame _ rfl rfl rfl rfl⟩
  | countDuplicate => exact Or.inr ⟨by simp, hsame _ rfl rfl rfl rfl⟩
  | queue report => exact Or.inr ⟨by simp, hsame _ rfl rfl rfl rfl⟩
  | countReplayed => exact Or.inr ⟨by simp, hsame _ rfl rfl rfl rfl⟩

def VenueChange.value : VenueChange → ℚ
  | .add amount => amount.toRat
  | .sub amount => -amount.toRat
  | .keep => 0

def VenueMove.posting (m : VenueMove) : Posting (String × String) ℚ :=
  ⟨(m.venue, m.currency), m.change.value⟩

def VenueBalanceEntry.value (entry : VenueBalanceEntry) : ℚ :=
  entry.total.toRat

def MoveExact (balances : VenueBalances) (m : VenueMove) : Prop :=
  match m.change with
  | .add amount => Decimal.AddKept (ensureVenueBalance balances m.venue m.currency).total amount
  | .sub amount => Decimal.SubKept (ensureVenueBalance balances m.venue m.currency).total amount
  | .keep => True

instance (balances : VenueBalances) (m : VenueMove) : Decidable (MoveExact balances m) := by
  rw [MoveExact]
  cases m.change <;> infer_instance

def reportPostings (s : ExecutionBooks) (report : ExecutionReport) :
    List (Posting (String × String) ℚ) :=
  (s.moves report).map VenueMove.posting

section Postings

theorem total_ensureVenueBalance (balances : VenueBalances) (venue currency : String) :
    (ensureVenueBalance balances venue currency).total.toRat =
      valueAt VenueBalanceEntry.value balances (venue, currency) := by
  have hvalue : valueAt VenueBalanceEntry.value balances (venue, currency) =
      (venueBalance balances venue currency).total.toRat := by
    rw [valueAt, venueBalance]
    cases balances.lookup (venue, currency) with
    | none => exact toRat_zero.symm
    | some entry => rfl
  rw [hvalue]
  simp only [ensureVenueBalance]
  split
  · rename_i hzero
    rw [(toRat_eq_zero_iff _).mpr hzero.2]
    exact toRat_zero
  · rfl

theorem posts_applyMove {balances : VenueBalances} {m : VenueMove} (hexact : MoveExact balances m) :
    Posts VenueBalanceEntry.value balances [m.posting] (applyMove balances m) := by
  apply Posts.insert
  rw [← total_ensureVenueBalance]
  simp only [VenueBalanceEntry.value, VenueBalanceEntry.change]
  rw [MoveExact] at hexact
  cases hchange : m.change with
  | add amount =>
      rw [hchange] at hexact
      exact hexact
  | sub amount =>
      rw [hchange] at hexact
      rw [VenueChange.value, ← sub_eq_add_neg]
      exact hexact
  | keep =>
      rw [VenueChange.value, add_zero]

theorem posts_moves {balances : VenueBalances} {moves : List VenueMove}
    (hexact : StepsMeet applyMove MoveExact balances moves) :
    Posts VenueBalanceEntry.value balances (moves.map VenueMove.posting)
      (run applyMove balances moves) := by
  induction moves generalizing balances with
  | nil => exact Posts.refl _
  | cons m moves ih => exact (posts_applyMove hexact.1).trans (ih hexact.2)

/-- The totals that the moves of a report make are not rounded. -/
def MovesExact (s : ExecutionBooks) (report : ExecutionReport) : Prop :=
  StepsMeet applyMove MoveExact s.venueBalances (s.moves report)
deriving Decidable

theorem posts_act (s : ExecutionBooks) (a : ReportAction) (hexact : OnApply MovesExact s a) :
    Posts VenueBalanceEntry.value s.venueBalances (onReport reportPostings s a)
      (act s a).venueBalances := by
  rcases act_cases s a with ⟨now, report, rfl⟩ | ⟨hother, hsame⟩
  · rw [act, (books_applyReport now s report).1]
    exact posts_moves hexact
  · rw [hsame.balances, onReport_of_other _ s hother]
    exact Posts.refl _

end Postings

def btcUsdt : Instrument where
  symbol := "BTC/USDT"
  base := "BTC"
  quote := "USDT"

def sampleIntent (targetQty : Decimal) : ExecutionIntent where
  intentId := "i1"
  venue := "binance"
  instrument := btcUsdt
  side := .buy
  targetQty := targetQty
  clientOrderId := "clid-1"

def sampleReport
    (reportId venueOrderId : String) (status : ExecutionReportStatus)
    (filledQty averagePrice : Decimal) (fee : Option Decimal) : ExecutionReport where
  reportId := reportId
  intentId := "i1"
  venue := "binance"
  instrument := btcUsdt
  venueOrderId := venueOrderId
  clientOrderId := "clid-1"
  status := status
  filledQty := filledQty
  averagePrice := averagePrice
  feeTotal := fee.map (fun amount => { currency := "USDT", amount := some amount })

/-- The sample intent and reports in the order given. -/
def sampleCalls (targetQty : Decimal) (reports : List ExecutionReport) : List ExecutionCall :=
  .rememberExecutionIntent 0 (sampleIntent targetQty) :: reports.map (.applyExecutionReport 0)

end Ledger
end ContExchange
