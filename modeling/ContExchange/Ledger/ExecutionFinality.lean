import ContExchange.Ledger.ExecutionRuns

/-!
# Ledger: terminal executions

A terminal state has no transition out of it, but the transition table lets a
status follow itself.  A second report with the same terminal status is accepted
when its quantity does not fall.  A terminal state is final exactly for the
reports that are rejected or restate it.
-/

namespace ContExchange
namespace Ledger

open Common Lib Decimal ExecutionBooks ExecutionLedgerState

/-- A report for a terminal state that passes the plan, has the status of the state
and no smaller quantity says what the state says already. -/
def Restates (s : ExecutionBooks) (report : ExecutionReport) : Prop :=
  isTerminalStatus (s.stateOf report).status →
    ∀ intent ∈ s.executionIntents.lookup report.intentId,
      MatchesPlan intent report →
        normalizeExecutionStatus report = (s.stateOf report).status →
          ¬ Decimal.cmp report.filledQty (s.stateOf report).filledQty < 0 →
            (s.stateOf report).saved report = s.stateOf report
deriving Decidable

/-- The condition on an applied report: it restates a terminal state, and the
quantities have usual scales. -/
def FinalOk (s : ExecutionBooks) (report : ExecutionReport) : Prop :=
  Restates s report ∧ report.filledQty.ScaleOk ∧ (s.stateOf report).filledQty.ScaleOk
deriving Decidable

/-- A report whose key is terminal changes no state, balance or record. -/
def FinalReport (s : ExecutionBooks) (report : ExecutionReport) : Prop :=
  isTerminalStatus (s.stateOf report).status → ∀ now, SameBooks s (applyReport now s report)

/-- From one point of a run to a later one, terminal states stay and filled
quantities do not fall. -/
def LaterStates (s t : ExecutionBooks) : Prop :=
  ∀ key,
    (isTerminalStatus (s.executionState key).status →
      t.executionState key = s.executionState key) ∧
    (s.executionState key).filledQty.toRat ≤ (t.executionState key).filledQty.toRat

def TerminalFinal (s : ExecutionBooks) (as : List ReportAction) : Prop :=
  StepsMeet act (OnApply FinalReport) s as ∧
    ∀ earlier later,
      LaterStates (run act s (as.take earlier)) (run act s (as.take (earlier + later)))

section Finality

variable {s t u : ExecutionBooks} {report : ExecutionReport}

theorem LaterStates.refl (s : ExecutionBooks) : LaterStates s s :=
  fun _ => ⟨fun _ => rfl, le_rfl⟩

theorem LaterStates.trans (h : LaterStates s t) (h' : LaterStates t u) : LaterStates s u := by
  intro key
  obtain ⟨hstay, hle⟩ := h key
  obtain ⟨hstay', hle'⟩ := h' key
  refine ⟨?_, hle.trans hle'⟩
  intro hterminal
  have hfirst := hstay hterminal
  have hsecond := hstay' (by rw [hfirst]; exact hterminal)
  rw [hsecond, hfirst]

theorem cmp_sub_self {a : Decimal} (h : a.ScaleOk) :
    ¬ Decimal.cmp (Decimal.sub a a) .zero > 0 := by
  have hexact : Decimal.SubExact a a := by
    rw [Decimal.SubExact, sub_self]
    decide
  rw [gt_iff_lt, cmp_pos_iff (sub_scaleOk hexact h h) scaleOk_zero,
    toRat_zero, sub_toRat hexact, sub_self]
  exact lt_irrefl 0

theorem sameBooks_of_restated (now : Int) (hscale : (s.stateOf report).filledQty.ScaleOk)
    (hsaved : (s.stateOf report).saved report = s.stateOf report) :
    SameBooks s (applyReport now s report) := by
  have hfilled : report.filledQty = (s.stateOf report).filledQty :=
    congrArg filledQty hsaved
  have hnone : s.booked report = none := by
    cases hbooked : s.booked report with
    | none => rfl
    | some intent =>
        have hpos := (booked_eq_some.mp hbooked).2
        rw [deltaQty, hfilled] at hpos
        exact absurd hpos (cmp_sub_self hscale)
  obtain ⟨hbalances, hrecords, hsummary⟩ := books_applyReport now s report
  rw [newRecords, hnone] at hrecords hsummary
  refine ⟨?_, ?_, hrecords, hsummary⟩
  · intro key
    rw [executionState_applyReport, hsaved]
    split
    · rename_i hkey
      rw [hkey.1]
      rfl
    · rfl
  · rw [hbalances, moves, hnone]
    rfl

theorem finalReport_iff (hscale : (s.stateOf report).filledQty.ScaleOk) :
    FinalReport s report ↔ Restates s report := by
  constructor
  · intro hfinal hterminal intent hintent hplan hstatus hqty
    have hallowed : isAllowedStatusTransition (s.stateOf report).status
        (normalizeExecutionStatus report) := by
      rw [hstatus, isAllowedStatusTransition]
      split
      · rfl
      · rw [if_pos rfl]
    have haccepted : s.accepted report = some intent :=
      accepted_eq_some.mpr ⟨hintent, hplan, hqty, hallowed⟩
    have hstates := (hfinal hterminal 0).states (executionStateKey report)
    rw [executionState_applyReport, if_pos ⟨rfl, by rw [haccepted]; rfl⟩] at hstates
    exact hstates
  · intro hrestates hterminal now
    cases haccepted : s.accepted report with
    | none => exact sameBooks_of_rejected haccepted
    | some intent =>
        obtain ⟨hintent, hplan, hqty, hallowed⟩ := accepted_eq_some.mp haccepted
        have hstatus := status_of_terminal hterminal hallowed
        exact sameBooks_of_restated now hscale
          (hrestates hterminal intent hintent hplan hstatus hqty)

theorem SameBooks.laterStates (h : SameBooks s t) : LaterStates s t := by
  intro key
  rw [h.states]
  exact ⟨fun _ => rfl, le_rfl⟩

theorem laterStates_act (s : ExecutionBooks) (a : ReportAction) (hok : OnApply FinalOk s a) :
    LaterStates s (act s a) := by
  rcases act_cases s a with ⟨now, report, rfl⟩ | ⟨-, hsame⟩
  · obtain ⟨hrestates, hnew, hold⟩ := hok
    cases haccepted : s.accepted report with
    | none => exact (sameBooks_of_rejected haccepted).laterStates
    | some intent =>
        by_cases hterminal : isTerminalStatus (s.stateOf report).status
        · exact (((finalReport_iff hold).mpr hrestates) hterminal now).laterStates
        · intro key
          rw [act, executionState_applyReport]
          by_cases hkey : key = executionStateKey report
          · subst hkey
            obtain ⟨-, -, hqty, -⟩ := accepted_eq_some.mp haccepted
            rw [cmp_neg_iff hnew hold, not_lt] at hqty
            rw [if_pos ⟨rfl, by rw [haccepted]; rfl⟩]
            exact ⟨fun h => absurd h hterminal, hqty⟩
          · rw [if_neg (fun h => hkey h.1)]
            exact ⟨fun _ => rfl, le_rfl⟩
  · exact hsame.laterStates

theorem laterStates_run {as : List ReportAction} (hmeet : StepsMeet act (OnApply FinalOk) s as) :
    LaterStates s (run act s as) := by
  induction as generalizing s with
  | nil => exact LaterStates.refl s
  | cons a as ih => exact (laterStates_act s a hmeet.1).trans (ih hmeet.2)

/-- A terminal execution is final: along every run whose reports restate the terminal
states they are accepted in, terminal states, the balances and the records stay,
and filled quantities do not fall. -/
theorem terminal_final {calls : List ExecutionCall}
    (hmeet : StepsMeet act (OnApply FinalOk) s (executionActions s calls)) :
    TerminalFinal s (executionActions s calls) := by
  refine ⟨hmeet.imp (OnApply.imp (fun _ _ h => (finalReport_iff h.2.2).mpr h.1)), ?_⟩
  intro earlier later
  have hsplit := (executionActions s calls).take_append_drop earlier
  have hrest := ((executionActions s calls).drop earlier).take_append_drop later
  rw [← hsplit, ← hrest] at hmeet
  rw [List.take_add, run_append]
  exact laterStates_run hmeet.suffix.prefix

end Finality

/-- A filled order, then a late partial report and a repetition with a new id. -/
def lateReports : List ExecutionCall :=
  sampleCalls (Decimal.of 2 0)
    [sampleReport "r1" "v1" .partiallyFilled (Decimal.of 1 0) (Decimal.of 100 0) none,
      sampleReport "r2" "v1" .filled (Decimal.of 2 0) (Decimal.of 100 0) none,
      sampleReport "r3" "v1" .partiallyFilled (Decimal.of 2 0) (Decimal.of 101 0) none,
      sampleReport "r4" "v1" .filled (Decimal.of 2 0) (Decimal.of 100 0) none]

/-- The filled state of `lateReports` is final. -/
theorem lateReports_final : TerminalFinal {} (executionActions {} lateReports) :=
  terminal_final (by decide +kernel)

/-- A second `FILLED` report with a larger quantity, or with a fee, changes the
terminal state. -/
theorem terminal_changes :
    ¬ TerminalFinal {} (executionActions {} (sampleCalls (Decimal.of 2 0)
        [sampleReport "r1" "v1" .filled (Decimal.of 1 0) (Decimal.of 100 0) none,
          sampleReport "r2" "v1" .filled (Decimal.of 2 0) (Decimal.of 100 0) none])) ∧
      ¬ TerminalFinal {} (executionActions {} (sampleCalls (Decimal.of 2 0)
          [sampleReport "r1" "v1" .filled (Decimal.of 1 0) (Decimal.of 100 0) none,
            sampleReport "r2" "v1" .filled (Decimal.of 1 0) (Decimal.of 100 0)
              (some (Decimal.of 1 1))])) := by
  constructor
  · intro h
    have hlater := (h.2 3 2 "i1|v1").1
    revert hlater
    decide +kernel
  · intro h
    have hlater := (h.2 3 2 "i1|v1").1
    revert hlater
    decide +kernel

end Ledger
end ContExchange
