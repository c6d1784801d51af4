import ContExchange.Ledger.ExecutionRuns

/-!
# Ledger: executions counted by venue order

The ledger books the quantities of an intent under state keys, and a key is made
of identifiers that a report may or may not carry.  Beside the books, this module
tracks the last accepted cumulative quantity of every venue order of an intent.
The deltas that are booked add up to these quantities as long as every report
finds, under its key, the state of its own order.
-/

namespace ContExchange
namespace Ledger

open Common Lib List Option

/-- The quantity a report adds to the balances and the hedge records, if it is one
of the intent. -/
def bookedDelta (intentId : String) (s : ExecutionBooks) (report : ExecutionReport) : List ℚ :=
  if report.intentId = intentId ∧ (s.booked report).isSome then
    [((s.stateOf report).deltaQty report).toRat]
  else []

section Track

variable {O : Type} [DecidableEq O] (orderOf : ExecutionReport → O) (intentId : String)

/-- The books beside the last accepted cumulative quantity of every venue order. -/
def track (p : ExecutionBooks × Table O Decimal) (a : ReportAction) :
    ExecutionBooks × Table O Decimal :=
  (act p.1 a,
    match a with
    | .apply _ report =>
        if report.intentId = intentId ∧ (p.1.accepted report).isSome then
          p.2.insert (orderOf report) report.filledQty
        else p.2
    | _ => p.2)

/-- The last accepted cumulative quantities after a run. -/
def lastFilled (s : ExecutionBooks) (as : List ReportAction) : Table O Decimal :=
  (run (track orderOf intentId) (s, ∅) as).2

def filledOver (orders : Table O Decimal) : ℚ :=
  total Decimal.toRat (fun _ => True) orders

/-- The deltas of an intent are at most its target and add up to the last cumulative
quantities of its venue orders. -/
def CountedOnce (target : ℚ) (s : ExecutionBooks) (as : List ReportAction) : Prop :=
  (journal act (onReport (bookedDelta intentId)) s as).sum =
      filledOver (lastFilled orderOf intentId s as) ∧
    (journal act (onReport (bookedDelta intentId)) s as).sum ≤ target
deriving Decidable

/-- The condition on an accepted report of the intent: it finds under its key the
last quantity of its own venue order, and with the quantities of the other orders
it stays within the target. -/
def FindsItsOrder (target : ℚ) (p : ExecutionBooks × Table O Decimal) : ReportAction → Prop
  | .apply _ report =>
      report.intentId = intentId →
        ∀ intent ∈ p.1.accepted report,
          QtyFits (p.1.stateOf report) report ∧
          (p.1.stateOf report).filledQty.toRat = valueAt Decimal.toRat p.2 (orderOf report) ∧
          intent.targetQty.toRat = target ∧
          filledOver p.2 - valueAt Decimal.toRat p.2 (orderOf report) +
            report.filledQty.toRat ≤ target
  | _ => True

instance (target : ℚ) (p : ExecutionBooks × Table O Decimal) (a : ReportAction) :
    Decidable (FindsItsOrder orderOf intentId target p a) :=
  match a with
  | .apply _ _ => inferInstanceAs (Decidable (_ → ∀ intent ∈ p.1.accepted _, _ ∧ _ ∧ _ ∧ _))
  | .store _ => inferInstanceAs (Decidable True)
  | .see _ => inferInstanceAs (Decidable True)
  | .countDuplicate => inferInstanceAs (Decidable True)
  | .queue _ => inferInstanceAs (Decidable True)
  | .countReplayed => inferInstanceAs (Decidable True)

variable {orderOf intentId} {target : ℚ}

theorem filledOver_insert (orders : Table O Decimal) (o : O) (qty : Decimal) :
    filledOver (orders.insert o qty) =
      filledOver orders - valueAt Decimal.toRat orders o + qty.toRat := by
  have hposts : Posts Decimal.toRat orders [⟨o, qty.toRat - valueAt Decimal.toRat orders o⟩]
      (orders.insert o qty) :=
    Posts.insert (add_sub_cancel _ _).symm
  have htotal := hposts.total (fun _ => True)
  rw [netOn_cons, netOn_nil, if_pos trivial] at htotal
  rw [filledOver, filledOver, htotal]
  ring

theorem sum_bookedDelta {s : ExecutionBooks} {report : ExecutionReport} {intent : ExecutionIntent}
    (hintent : report.intentId = intentId) (haccepted : s.accepted report = some intent)
    (hfits : QtyFits (s.stateOf report) report) :
    (bookedDelta intentId s report).sum =
      report.filledQty.toRat - (s.stateOf report).filledQty.toRat := by
  obtain ⟨hle, hdelta, hpos⟩ := deltaQty_of_accepted haccepted hfits
  rw [bookedDelta]
  by_cases hlt : (s.stateOf report).filledQty.toRat < report.filledQty.toRat
  · have hbooked : s.booked report = some intent :=
      booked_eq_some.mpr ⟨haccepted, hpos.mpr hlt⟩
    rw [if_pos ⟨hintent, by rw [hbooked]; rfl⟩, sum_singleton, hdelta]
  · have hnone : ¬ (report.intentId = intentId ∧ (s.booked report).isSome) := by
      rintro ⟨-, hsome⟩
      obtain ⟨other, hother⟩ := isSome_iff_exists.mp hsome
      exact hlt (hpos.mp (booked_eq_some.mp hother).2)
    rw [if_neg hnone, sum_nil, le_antisymm (not_lt.mp hlt) hle, sub_self]

theorem track_step {p : ExecutionBooks × Table O Decimal} {a : ReportAction}
    (hok : FindsItsOrder orderOf intentId target p a) (htarget : filledOver p.2 ≤ target) :
    (onReport (bookedDelta intentId) p.1 a).sum =
        filledOver (track orderOf intentId p a).2 - filledOver p.2 ∧
      filledOver (track orderOf intentId p a).2 ≤ target := by
  have hkeep : ∀ deltas : List ℚ, deltas = [] →
      deltas.sum = filledOver p.2 - filledOver p.2 ∧ filledOver p.2 ≤ target := by
    rintro deltas rfl
    rw [sub_self]
    exact ⟨rfl, htarget⟩
  cases a with
  | store intent => exact hkeep _ rfl
  | see key => exact hkeep _ rfl
  | countDuplicate => exact hkeep _ rfl
  | queue report => exact hkeep _ rfl
  | countReplayed => exact hkeep _ rfl
  | apply now report =>
      rw [track, onReport]
      dsimp only
      by_cases happlies : report.intentId = intentId ∧ (p.1.accepted report).isSome
      · obtain ⟨hintent, hsome⟩ := happlies
        obtain ⟨intent, haccepted⟩ := isSome_iff_exists.mp hsome
        obtain ⟨hfits, hown, -, hwithin⟩ := hok hintent intent haccepted
        rw [if_pos ⟨hintent, hsome⟩, filledOver_insert, sum_bookedDelta hintent haccepted hfits,
          hown]
        exact ⟨by ring, hwithin⟩
      · rw [if_neg happlies]
        apply hkeep
        rw [bookedDelta, if_neg]
        rintro ⟨hintent, hbooked⟩
        obtain ⟨intent, hintent'⟩ := isSome_iff_exists.mp hbooked
        refine happlies ⟨hintent, ?_⟩
        rw [(booked_eq_some.mp hintent').1]
        rfl

theorem track_run {p : ExecutionBooks × Table O Decimal} {as : List ReportAction}
    (hmeet : StepsMeet (track orderOf intentId) (FindsItsOrder orderOf intentId target) p as)
    (htarget : filledOver p.2 ≤ target) :
    (journal act (onReport (bookedDelta intentId)) p.1 as).sum =
        filledOver (run (track orderOf intentId) p as).2 - filledOver p.2 ∧
      filledOver (run (track orderOf intentId) p as).2 ≤ target := by
  induction as generalizing p with
  | nil => exact ⟨(sub_self _).symm, htarget⟩
  | cons a as ih =>
      obtain ⟨hstep, hwithin⟩ := track_step hmeet.1 htarget
      obtain ⟨hrest, hwithin'⟩ := ih hmeet.2 hwithin
      refine ⟨?_, hwithin'⟩
      have hfirst : (track orderOf intentId p a).1 = act p.1 a := rfl
      rw [hfirst] at hrest
      rw [journal_cons, sum_append, hstep, hrest, run_cons]
      ring

/-- Each venue execution is counted once: after every report of every run whose
reports find their own order, the deltas of the intent are the last cumulative
quantities of its venue orders and stay within the target. -/
theorem executions_counted_once
    {s : ExecutionBooks} {calls : List ExecutionCall} (htarget : 0 ≤ target)
    (hmeet : StepsMeet (track orderOf intentId) (FindsItsOrder orderOf intentId target) (s, ∅)
      (executionActions s calls))
    {as : List ReportAction} (hinitial : as <+: executionActions s calls) :
    CountedOnce orderOf intentId target s as := by
  obtain ⟨rest, hrest⟩ := hinitial
  rw [← hrest] at hmeet
  have hempty : filledOver (∅ : Table O Decimal) = 0 := rfl
  obtain ⟨hsum, hwithin⟩ := track_run hmeet.prefix (hempty.trans_le htarget)
  rw [hempty, sub_zero] at hsum
  exact ⟨hsum, hsum.trans_le hwithin⟩

end Track

/-- Two venue orders that share the target, one of them filled in two steps. -/
def sharedTarget : List ExecutionCall :=
  sampleCalls (Decimal.of 2 0)
    [sampleReport "r1" "v1" .partiallyFilled (Decimal.of 5 1) (Decimal.of 100 0) none,
      sampleReport "r2" "v2" .filled (Decimal.of 10 1) (Decimal.of 100 0) none,
      sampleReport "r3" "v1" .filled (Decimal.of 1 0) (Decimal.of 101 0) none]

/-- The reports of `sharedTarget` are counted once. -/
theorem sharedTarget_counted_once :
    CountedOnce ExecutionReport.venueOrderId "i1" 2 {} (executionActions {} sharedTarget) :=
  executions_counted_once (by norm_num) (by decide +kernel) (List.prefix_refl _)

/-- One venue order that is named by its client order id first is counted twice, and
two venue orders may each fill the whole target. -/
theorem executions_counted_twice :
    ¬ CountedOnce (fun _ => "v1") "i1" 2 {}
        (executionActions {} (sampleCalls (Decimal.of 2 0)
          [sampleReport "r1" "" .partiallyFilled (Decimal.of 1 0) (Decimal.of 100 0) none,
            sampleReport "r2" "v1" .filled (Decimal.of 2 0) (Decimal.of 100 0) none])) ∧
      ¬ CountedOnce ExecutionReport.venueOrderId "i1" 2 {}
          (executionActions {} (sampleCalls (Decimal.of 2 0)
            [sampleReport "r1" "v1" .filled (Decimal.of 2 0) (Decimal.of 100 0) none,
              sampleReport "r2" "v2" .filled (Decimal.of 2 0) (Decimal.of 100 0) none])) := by
  decide +kernel

end Ledger
end ContExchange
