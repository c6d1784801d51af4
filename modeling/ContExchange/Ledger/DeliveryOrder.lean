import ContExchange.Ledger.VenueCash

/-!
# Ledger: the order of deliveries

The reports of one venue order may be delivered in any order, more than once, and
before or after their intent.  The report that closes the order decides: it is
accepted in whatever state it finds, and nothing after it is.  What the reports
before it have booked telescopes, so the outcome is the one of the closing report
alone.

`Delivers` says what a delivery is, `OneOrder` what the reports have to agree on.
The invariant `OrderInv` holds through the actions of a delivery, `Landed` from
call to call.
-/

namespace ContExchange
namespace Ledger

open Common Lib AList Decimal List Option ExecutionBooks ExecutionLedgerState VenueBalanceEntry

/-- The reports `reports` of one venue order, which `last` closes. -/
structure OneOrder
    (intent : ExecutionIntent) (terms : OrderTerms) (reports : List ExecutionReport)
    (last : ExecutionReport) : Prop where
  named : intent.intentId ≠ ""
  mem : last ∈ reports
  intentIds : ∀ r ∈ reports, r.intentId = intent.intentId
  stateKeys : ∀ r ∈ reports, executionStateKey r = executionStateKey last
  reportKeys : ∀ r ∈ reports, executionReportKey r = executionReportKey last → r = last
  plan : MatchesPlan intent last
  terminal : isTerminalStatus (normalizeExecutionStatus last)
  others : ∀ r ∈ reports, r ≠ last →
    ¬ isTerminalStatus (normalizeExecutionStatus r) ∧
      isAllowedStatusTransition (normalizeExecutionStatus r) (normalizeExecutionStatus last)
  scales : ∀ r ∈ reports, r.filledQty.ScaleOk
  nonneg : 0 ≤ last.filledQty.toRat
  largest : ∀ r ∈ reports, r.filledQty.toRat ≤ last.filledQty.toRat
  terms : ∀ r ∈ reports, terms.Names intent r
  price : ∀ r ∈ reports,
    r.filledQty.toRat = 0 ∨ r.averagePrice.toRat = last.averagePrice.toRat
  feeGiven : ∀ r ∈ reports, r.feeTotal.isSome = last.feeTotal.isSome
  feeNonneg : ∀ r ∈ reports, 0 ≤ r.feeAmount.toRat
  feeZero : ∀ r ∈ reports, r.filledQty.toRat = 0 → r.feeAmount.toRat = 0
  feeGrows : ∀ r ∈ reports, ∀ r' ∈ reports,
    r.filledQty.toRat ≤ r'.filledQty.toRat → r.feeAmount.toRat ≤ r'.feeAmount.toRat

/-- The ledger knows nothing of the intent and its reports. -/
structure Unseen
    (s : ExecutionBooks) (intent : ExecutionIntent) (last : ExecutionReport) : Prop where
  intents : s.executionIntents.lookup intent.intentId = none
  queue : s.pending intent.intentId = []
  state : s.executionState (executionStateKey last) = {}
  seen : executionReportKey last ∉ s.seenExecutionReportKeys

/-- A call of a delivery: the intent, or one of the reports. -/
def CallOf
    (intent : ExecutionIntent) (reports : List ExecutionReport) : ExecutionCall → Prop
  | .rememberExecutionIntent _ i => i = intent
  | .applyExecutionReport _ r => r ∈ reports

/-- The calls deliver the intent and every report, in some order and at least once. -/
def Delivers
    (intent : ExecutionIntent) (reports : List ExecutionReport) (calls : List ExecutionCall) :
    Prop :=
  (∀ call ∈ calls, CallOf intent reports call) ∧
    (∃ now, .rememberExecutionIntent now intent ∈ calls) ∧
    ∀ r ∈ reports, ∃ now, .applyExecutionReport now r ∈ calls

/-- The two books agree on the state of the key and on the venue balances. -/
def SameOutcome (key : String) (s t : ExecutionBooks) : Prop :=
  s.executionState key = t.executionState key ∧
    ∀ account,
      valueAt VenueBalanceEntry.value s.venueBalances account =
        valueAt VenueBalanceEntry.value t.venueBalances account

def ActionOf
    (intent : ExecutionIntent) (reports : List ExecutionReport) : ReportAction → Prop
  | .store i => i = intent
  | .queue r => r ∈ reports
  | .apply _ r => r ∈ reports
  | _ => True

section Delivery

variable {intent : ExecutionIntent} {terms : OrderTerms} {reports : List ExecutionReport}
variable {last : ExecutionReport}

/-- The state is new, or the one a report of the order leaves in a new key. -/
def StateOf (reports : List ExecutionReport) (state : ExecutionLedgerState) : Prop :=
  state = {} ∨
    ∃ r ∈ reports, state = ({} : ExecutionLedgerState).saved r ∧ 0 ≤ r.filledQty.toRat

/-- What holds between the actions of a delivery. -/
structure OrderInv
    (intent : ExecutionIntent) (reports : List ExecutionReport) (key : String)
    (s : ExecutionBooks) : Prop where
  intents : s.executionIntents.lookup intent.intentId = none ∨
    s.executionIntents.lookup intent.intentId = some intent
  queue : ∀ r ∈ s.pending intent.intentId, r ∈ reports
  state : StateOf reports (s.executionState key)

/-- The closing report that was delivered waits for the intent, or has closed the
state. -/
def Landed
    (intent : ExecutionIntent) (last : ExecutionReport) (s : ExecutionBooks) : Prop :=
  executionReportKey last ∈ s.seenExecutionReportKeys →
    (s.executionIntents.lookup intent.intentId = none ∧ last ∈ s.pending intent.intentId) ∨
      s.executionState (executionStateKey last) = ({} : ExecutionLedgerState).saved last

namespace OneOrder

variable (h : OneOrder intent terms reports last)

include h

variable {state : ExecutionLedgerState} {r : ExecutionReport}

theorem saved_eq (hstate : StateOf reports state) (hr : r ∈ reports) :
    state.saved r = ({} : ExecutionLedgerState).saved r := by
  rcases hstate with rfl | ⟨r₀, hr₀, rfl, -⟩
  · rfl
  · have hgiven := (h.feeGiven r hr).trans (h.feeGiven r₀ hr₀).symm
    cases hfee : r.feeTotal with
    | some fee => simp only [saved, hfee]
    | none =>
        rw [hfee] at hgiven
        have hnone : r₀.feeTotal = none := isNone_iff_eq_none.mp (by
          rw [← not_isSome, ← hgiven]
          rfl)
        simp only [saved, hfee, hnone]

theorem last_follows (hstate : StateOf reports state) : FollowsState state last := by
  have hlast := h.scales last h.mem
  rcases hstate with rfl | ⟨r, hr, rfl, -⟩
  · refine ⟨?_, rfl⟩
    rw [cmp_neg_iff hlast scaleOk_zero, toRat_zero, not_lt]
    exact h.nonneg
  · refine ⟨?_, ?_⟩
    · show ¬ Decimal.cmp last.filledQty r.filledQty < 0
      rw [cmp_neg_iff hlast (h.scales r hr), not_lt]
      exact h.largest r hr
    · show isAllowedStatusTransition (normalizeExecutionStatus r) (normalizeExecutionStatus last)
      by_cases hsame : r = last
      · rw [hsame, isAllowedStatusTransition]
        split
        · rfl
        · rw [if_pos rfl]
      · exact (h.others r hr hsame).2

theorem not_follows_last (hr : r ∈ reports) (hne : r ≠ last) :
    ¬ FollowsState (({} : ExecutionLedgerState).saved last) r := by
  rintro ⟨-, hallowed⟩
  have hstatus := status_of_terminal h.terminal hallowed
  have hopen := (h.others r hr hne).1
  rw [hstatus] at hopen
  exact hopen h.terminal

theorem keepsPriceAndFee (hstate : StateOf reports state) (hr : r ∈ reports)
    (hle : state.filledQty.toRat ≤ r.filledQty.toRat) : KeepsPriceAndFee state r := by
  rcases hstate with rfl | ⟨r₀, hr₀, rfl, hpos⟩
  · have hzero : ({} : ExecutionLedgerState).filledQty.toRat = 0 := toRat_zero
    have hnoFee : ({} : ExecutionLedgerState).feeTotal.toRat = 0 := toRat_zero
    refine ⟨Or.inl hzero, fun _ => ?_⟩
    rcases hle.eq_or_lt with hempty | hfilled
    · exact Or.inl ((h.feeZero r hr (hempty.symm.trans hzero)).trans hnoFee.symm)
    · exact Or.inr ⟨hfilled, hnoFee.trans_le (h.feeNonneg r hr)⟩
  · have hfilled : (({} : ExecutionLedgerState).saved r₀).filledQty = r₀.filledQty := rfl
    have haverage : (({} : ExecutionLedgerState).saved r₀).averagePrice = r₀.averagePrice := rfl
    constructor
    · rcases h.price r₀ hr₀ with hzero | hprice
      · exact Or.inl hzero
      · rcases h.price r hr with hzero | hprice'
        · exact Or.inl (le_antisymm (hle.trans hzero.le) hpos)
        · exact Or.inr (hprice'.trans hprice.symm)
    · intro hsome
      have hsome₀ : r₀.feeTotal.isSome := by
        rw [h.feeGiven r₀ hr₀, ← h.feeGiven r hr]
        exact hsome
      obtain ⟨fee, hfee⟩ := isSome_iff_exists.mp hsome₀
      have hsaved : (({} : ExecutionLedgerState).saved r₀).feeTotal = r₀.feeAmount := by
        simp only [saved, ExecutionReport.feeAmount, hfee]
      rcases hle.eq_or_lt with hequal | hlt
      · exact Or.inl (le_antisymm (h.feeGrows r hr r₀ hr₀ hequal.ge) (h.feeGrows r₀ hr₀ r hr hle))
      · exact Or.inr ⟨hlt, h.feeGrows r₀ hr₀ r hr hle⟩

end OneOrder

theorem lookup_act {s : ExecutionBooks} {a : ReportAction} (ha : ActionOf intent reports a)
    (hknown : s.executionIntents.lookup intent.intentId = some intent) :
    (act s a).executionIntents.lookup intent.intentId = some intent := by
  cases a with
  | store i =>
      obtain rfl : i = intent := ha
      exact lookup_insert _
  | apply now r =>
      rw [act, (queue_applyReport now s r).1]
      exact hknown
  | see key => exact hknown
  | countDuplicate => exact hknown
  | queue r => exact hknown
  | countReplayed => exact hknown

theorem seen_replayReport (now : Int) (s : ExecutionBooks) (report : ExecutionReport) :
    (replayReport now s report).seenExecutionReportKeys = s.seenExecutionReportKeys :=
  (queue_applyReport now _ report).2.2

theorem seen_act {s : ExecutionBooks} {key : String} (a : ReportAction)
    (hseen : key ∈ s.seenExecutionReportKeys) : key ∈ (act s a).seenExecutionReportKeys := by
  cases a with
  | see k => exact mem_cons_of_mem _ hseen
  | apply now r =>
      rw [act, (queue_applyReport now s r).2.2]
      exact hseen
  | store i => exact hseen
  | countDuplicate => exact hseen
  | queue r => exact hseen
  | countReplayed => exact hseen

theorem seen_applyExecutionReport (s : ExecutionBooks) (now : Int) (r : ExecutionReport) :
    executionReportKey r ∈
      (executionStep s (.applyExecutionReport now r)).seenExecutionReportKeys := by
  rw [← run_actions, actions]
  split
  · assumption
  · have hsee : executionReportKey r ∈
        (act s (.see (executionReportKey r))).seenExecutionReportKeys := mem_cons_self
    split
    · exact seen_act (.queue r) hsee
    · exact seen_act (.apply now r) hsee

namespace OneOrder

variable (h : OneOrder intent terms reports last) {s : ExecutionBooks}

include h

variable {r : ExecutionReport}

theorem intent_of_accepted (hinv : OrderInv intent reports (executionStateKey last) s)
    (hr : r ∈ reports) {i : ExecutionIntent} (haccepted : s.accepted r = some i) : i = intent := by
  obtain ⟨hlookup, -⟩ := accepted_eq_some.mp haccepted
  rw [h.intentIds r hr] at hlookup
  rcases hinv.intents with hnone | hsome
  · rw [hnone] at hlookup
    cases hlookup
  · rw [hsome] at hlookup
    exact (Option.some.inj hlookup).symm

theorem stateOf_eq (hr : r ∈ reports) :
    s.stateOf r = s.executionState (executionStateKey last) := by
  rw [stateOf, h.stateKeys r hr]

theorem telescopes (hinv : OrderInv intent reports (executionStateKey last) s) (hr : r ∈ reports)
    (hfits : ReportFits s r) : Telescopes terms s r := by
  intro i haccepted
  obtain rfl := h.intent_of_accepted hinv hr haccepted
  have hqty := (hfits (by rw [mem_def.mp haccepted]; rfl)).1
  have hle := (deltaQty_of_accepted haccepted hqty).1
  rw [h.stateOf_eq hr] at hle ⊢
  exact ⟨h.terms r hr, h.keepsPriceAndFee hinv.state hr hle⟩

theorem orderInv_act (hinv : OrderInv intent reports (executionStateKey last) s)
    {a : ReportAction} (ha : ActionOf intent reports a) (hfits : OnApply ReportFits s a) :
    OrderInv intent reports (executionStateKey last) (act s a) := by
  cases a with
  | see key => exact ⟨hinv.intents, hinv.queue, hinv.state⟩
  | countDuplicate => exact ⟨hinv.intents, hinv.queue, hinv.state⟩
  | countReplayed => exact ⟨hinv.intents, hinv.queue, hinv.state⟩
  | store i =>
      obtain rfl : i = intent := ha
      refine ⟨Or.inr (lookup_insert _), ?_, hinv.state⟩
      intro r hr
      simp only [act, pending, lookup_erase, getD_none, not_mem_nil] at hr
  | queue r =>
      have hr : r ∈ reports := ha
      refine ⟨hinv.intents, ?_, hinv.state⟩
      intro r' hr'
      simp only [act, pending, h.intentIds r hr, lookup_insert, getD_some] at hr'
      rcases mem_append.mp hr' with hold | hnew
      · rw [h.intentIds r hr] at hold
        exact hinv.queue r' hold
      · rw [mem_singleton.mp hnew]
        exact hr
  | apply now r =>
      have hr : r ∈ reports := ha
      obtain ⟨hintents, hqueue, -⟩ := queue_applyReport now s r
      refine ⟨?_, ?_, ?_⟩
      · rw [act, hintents]
        exact hinv.intents
      · rw [act, pending, hqueue]
        exact hinv.queue
      · rw [act, executionState_applyReport]
        split
        · rename_i happlied
          obtain ⟨i, haccepted⟩ := isSome_iff_exists.mp happlied.2
          have hqty := (hfits happlied.2).1
          have hle := (deltaQty_of_accepted haccepted hqty).1
          rw [h.stateOf_eq hr] at hle ⊢
          refine Or.inr ⟨r, hr, h.saved_eq hinv.state hr, ?_⟩
          rcases hinv.state with hnew | ⟨r₀, -, hsaved, hpos⟩
          · rw [hnew] at hle
            exact toRat_zero.symm.trans_le hle
          · rw [hsaved] at hle
            exact hpos.trans hle
        · exact hinv.state

theorem apply_last (now : Int) (hinv : OrderInv intent reports (executionStateKey last) s)
    (hknown : s.executionIntents.lookup intent.intentId = some intent) :
    (applyReport now s last).executionState (executionStateKey last) =
      ({} : ExecutionLedgerState).saved last := by
  have hfollows : FollowsState (s.stateOf last) last := by
    exact h.last_follows hinv.state
  have haccepted : s.accepted last = some intent := by
    rw [accepted_eq_some, h.intentIds last h.mem]
    exact ⟨hknown, h.plan, hfollows⟩
  rw [executionState_applyReport, if_pos ⟨rfl, by rw [haccepted]; rfl⟩]
  exact h.saved_eq hinv.state h.mem

theorem closed_act {a : ReportAction} (ha : ActionOf intent reports a)
    (hclosed : s.executionState (executionStateKey last) = ({} : ExecutionLedgerState).saved last) :
    (act s a).executionState (executionStateKey last) = ({} : ExecutionLedgerState).saved last := by
  rcases act_cases s a with ⟨now, r, rfl⟩ | ⟨-, hsame⟩
  · have hr : r ∈ reports := ha
    rw [act, executionState_applyReport]
    split
    · rename_i happlied
      obtain ⟨i, haccepted⟩ := isSome_iff_exists.mp happlied.2
      obtain ⟨-, -, hfollows⟩ := accepted_eq_some.mp haccepted
      rw [h.stateOf_eq hr, hclosed] at hfollows ⊢
      by_cases hsame : r = last
      · rw [hsame]
        exact h.saved_eq (Or.inr ⟨last, h.mem, rfl, h.nonneg⟩) h.mem
      · exact absurd hfollows (h.not_follows_last hr hsame)
    · exact hclosed
  · rw [hsame.states]
    exact hclosed

theorem closed_run
    {as : List ReportAction}
    (hmeet : StepsMeet act (fun s a => ActionOf intent reports a ∧ OnApply ReportFits s a) s as)
    (hinv : OrderInv intent reports (executionStateKey last) s)
    (hknown : s.executionIntents.lookup intent.intentId = some intent)
    (hcloses : (∃ now, .apply now last ∈ as) ∨
      s.executionState (executionStateKey last) = ({} : ExecutionLedgerState).saved last) :
    (run act s as).executionState (executionStateKey last) =
      ({} : ExecutionLedgerState).saved last := by
  induction as generalizing s with
  | nil =>
      rcases hcloses with ⟨now, hmem⟩ | hclosed
      · cases hmem
      · exact hclosed
  | cons a as ih =>
      obtain ⟨⟨ha, hfits⟩, hrest⟩ := hmeet
      have hinv' := h.orderInv_act hinv ha hfits
      have hknown' := lookup_act ha hknown
      rcases hcloses with ⟨now, hmem⟩ | hclosed
      · rcases mem_cons.mp hmem with hhead | htail
        · rw [← hhead] at hinv' hknown' hrest ⊢
          exact ih hrest hinv' hknown' (Or.inr (h.apply_last now hinv hknown))
        · exact ih hrest hinv' hknown' (Or.inl ⟨now, htail⟩)
      · exact ih hrest hinv' hknown' (Or.inr (h.closed_act ha hclosed))

theorem actionOf_actions (hqueue : ∀ r ∈ s.pending intent.intentId, r ∈ reports)
    {call : ExecutionCall} (hcall : CallOf intent reports call) :
    ∀ a ∈ actions s call, ActionOf intent reports a := by
  cases call with
  | rememberExecutionIntent now i =>
      obtain rfl : i = intent := hcall
      intro a ha
      rw [actions, if_neg h.named] at ha
      rcases mem_cons.mp ha with rfl | hreplay
      · rfl
      · obtain ⟨r, hr, hmem⟩ := mem_flatMap.mp hreplay
        rcases mem_cons.mp hmem with rfl | happly
        · trivial
        · rw [mem_singleton.mp happly]
          exact hqueue r hr
  | applyExecutionReport now r =>
      have hr : r ∈ reports := hcall
      intro a ha
      rw [actions] at ha
      split at ha
      · rw [mem_singleton.mp ha]
        trivial
      · split at ha
        · rcases mem_cons.mp ha with rfl | hqueued
          · trivial
          · rw [mem_singleton.mp hqueued]
            exact hr
        · rcases mem_cons.mp ha with rfl | happly
          · trivial
          · rw [mem_singleton.mp happly]
            exact hr

section Landing

variable (hinv : OrderInv intent reports (executionStateKey last) s)

include hinv

theorem call_meets {call : ExecutionCall} (hcall : CallOf intent reports call)
    (hfits : StepsMeet act (OnApply ReportFits) s (actions s call)) :
    StepsMeet act (fun s a => ActionOf intent reports a ∧ OnApply ReportFits s a) s
        (actions s call) ∧
      OrderInv intent reports (executionStateKey last) (executionStep s call) := by
  have hactions := h.actionOf_actions hinv.queue hcall
  have hmeet : StepsMeet act (fun s a => ActionOf intent reports a ∧ OnApply ReportFits s a) s
      (actions s call) := by
    generalize actions s call = as at hfits hactions
    clear hinv
    induction as generalizing s with
    | nil => trivial
    | cons a as ih =>
        exact ⟨⟨hactions a (by simp), hfits.1⟩,
          ih hfits.2 (fun b hb => hactions b (mem_cons_of_mem _ hb))⟩
  refine ⟨hmeet, ?_⟩
  rw [← run_actions]
  exact run_invariant (OrderInv intent reports (executionStateKey last))
    (fun _ _ ht hok => h.orderInv_act ht hok.1 hok.2) hinv hmeet

theorem landed_remember (now : Int)
    (hmeet : StepsMeet act (fun s a => ActionOf intent reports a ∧ OnApply ReportFits s a) s
      (actions s (.rememberExecutionIntent now intent)))
    (hlanded : Landed intent last s) :
    Landed intent last (executionStep s (.rememberExecutionIntent now intent)) := by
  have hseen : (executionStep s (.rememberExecutionIntent now intent)).seenExecutionReportKeys =
      s.seenExecutionReportKeys := by
    rw [executionStep, rememberExecutionIntent, if_neg h.named]
    refine run_preserves
      (fun t : ExecutionBooks => t.seenExecutionReportKeys = s.seenExecutionReportKeys)
      (fun t r ht => (seen_replayReport now t r).trans ht) ?_ (s.pending intent.intentId)
    rfl
  rw [actions, if_neg h.named] at hmeet
  have hinv' := h.orderInv_act hinv hmeet.1.1 hmeet.1.2
  intro hlast
  rw [hseen] at hlast
  refine Or.inr ?_
  rw [← run_actions, actions, if_neg h.named, run_cons]
  refine h.closed_run hmeet.2 hinv' (lookup_insert _) ?_
  rcases hlanded hlast with ⟨-, hwaits⟩ | hclosed
  · exact Or.inl ⟨now, mem_flatMap.mpr ⟨last, hwaits, by simp⟩⟩
  · exact Or.inr hclosed

theorem landed_report (now : Int) (hr : r ∈ reports)
    (hmeet : StepsMeet act (fun s a => ActionOf intent reports a ∧ OnApply ReportFits s a) s
      (actions s (.applyExecutionReport now r)))
    (hlanded : Landed intent last s) :
    Landed intent last (executionStep s (.applyExecutionReport now r)) := by
  rw [← run_actions]
  rw [actions] at hmeet ⊢
  by_cases hdup : executionReportKey r ∈ s.seenExecutionReportKeys
  · rw [if_pos hdup]
    exact hlanded
  · rw [if_neg hdup] at hmeet ⊢
    by_cases hwaits : s.Waits r
    · rw [if_pos hwaits]
      have hnone : s.executionIntents.lookup intent.intentId = none := by
        rcases hwaits with hempty | hnone
        · rw [h.intentIds r hr] at hempty
          exact absurd hempty h.named
        · rw [h.intentIds r hr] at hnone
          exact hnone
      have hqueued : (run act s [.see (executionReportKey r), .queue r]).pending
          intent.intentId = s.pending intent.intentId ++ [r] := by
        simp only [run_cons, run_nil, act, pending]
        rw [h.intentIds r hr, lookup_insert]
        rfl
      intro hlast
      rcases mem_cons.mp hlast with hkey | hold
      · have hsame := h.reportKeys r hr hkey.symm
        refine Or.inl ⟨hnone, ?_⟩
        rw [hqueued, hsame]
        simp
      · rcases hlanded hold with ⟨-, hqueue⟩ | hclosed
        · refine Or.inl ⟨hnone, ?_⟩
          rw [hqueued]
          exact mem_append_left _ hqueue
        · exact Or.inr hclosed
    · rw [if_neg hwaits] at hmeet ⊢
      have hsome : s.executionIntents.lookup intent.intentId ≠ none := by
        intro hnone
        refine hwaits (Or.inr ?_)
        rw [h.intentIds r hr]
        exact hnone
      have hknown := hinv.intents.resolve_left hsome
      have hinv' := h.orderInv_act hinv hmeet.1.1 hmeet.1.2
      have hseen := (queue_applyReport now (act s (.see (executionReportKey r))) r).2.2
      intro hlast
      refine Or.inr ?_
      have hmem : executionReportKey last ∈ executionReportKey r :: s.seenExecutionReportKeys := by
        rw [← show (run act s [.see (executionReportKey r), .apply now r]).seenExecutionReportKeys =
          executionReportKey r :: s.seenExecutionReportKeys from hseen]
        exact hlast
      rw [run_cons]
      refine h.closed_run hmeet.2 hinv' hknown ?_
      rcases mem_cons.mp hmem with hkey | hold
      · rw [h.reportKeys r hr hkey.symm]
        exact Or.inl ⟨now, by simp⟩
      · rcases hlanded hold with ⟨hnone, -⟩ | hclosed
        · exact absurd hnone hsome
        · exact Or.inr hclosed

end Landing

theorem delivery_run
    (hinv : OrderInv intent reports (executionStateKey last) s) (hlanded : Landed intent last s)
    {calls : List ExecutionCall} (hcalls : ∀ call ∈ calls, CallOf intent reports call)
    (hfits : StepsMeet act (OnApply ReportFits) s (executionActions s calls)) :
    StepsMeet act
        (fun s a => (OrderInv intent reports (executionStateKey last) s ∧
          ActionOf intent reports a) ∧ OnApply ReportFits s a) s (executionActions s calls) ∧
      Landed intent last (run executionStep s calls) := by
  induction calls generalizing s with
  | nil => exact ⟨trivial, hlanded⟩
  | cons call calls ih =>
      have hcall := hcalls call (by simp)
      obtain ⟨hmeet, hinv'⟩ := h.call_meets hinv hcall hfits.prefix
      have hlanded' : Landed intent last (executionStep s call) := by
        cases call with
        | rememberExecutionIntent now i =>
            obtain rfl : i = intent := hcall
            exact h.landed_remember hinv now hmeet hlanded
        | applyExecutionReport now r => exact h.landed_report hinv now hcall hmeet hlanded
      have hsuffix := hfits.suffix
      rw [run_actions] at hsuffix
      obtain ⟨hrest, hlast⟩ := ih hinv' hlanded'
        (fun c hc => hcalls c (mem_cons_of_mem _ hc)) hsuffix
      refine ⟨StepsMeet.append ?_ (by rw [run_actions]; exact hrest), hlast⟩
      have hkept : ∀ t a, OrderInv intent reports (executionStateKey last) t →
          ActionOf intent reports a ∧ OnApply ReportFits t a →
          OrderInv intent reports (executionStateKey last) (act t a) :=
        fun t a ht hok => h.orderInv_act ht hok.1 hok.2
      exact (hmeet.with_invariant hkept hinv).imp (fun t a hok => ⟨⟨hok.1, hok.2.1⟩, hok.2.2⟩)

end OneOrder

variable {s : ExecutionBooks}

theorem OneOrder.orderInv_of_unseen (hunseen : Unseen s intent last) :
    OrderInv intent reports (executionStateKey last) s := by
  refine ⟨Or.inl hunseen.intents, ?_, Or.inl hunseen.state⟩
  rw [hunseen.queue]
  simp

theorem intents_remember
    (now : Int) (s : ExecutionBooks) {i : ExecutionIntent} (hnamed : i.intentId ≠ "") :
    (executionStep s (.rememberExecutionIntent now i)).executionIntents =
      s.executionIntents.insert i.intentId i := by
  rw [executionStep, rememberExecutionIntent, if_neg hnamed]
  refine run_preserves
    (fun t : ExecutionBooks => t.executionIntents = s.executionIntents.insert i.intentId i)
    (fun t r ht => ?_) ?_ (s.pending i.intentId)
  · exact (queue_applyReport now _ r).1.trans ht
  · rfl

theorem intents_report (now : Int) (s : ExecutionBooks) (r : ExecutionReport) :
    (executionStep s (.applyExecutionReport now r)).executionIntents = s.executionIntents := by
  rw [← run_actions, actions]
  split
  · rfl
  · split
    · rfl
    · exact (queue_applyReport now (act s (.see (executionReportKey r))) r).1

variable {calls : List ExecutionCall}

theorem known_run (hnamed : intent.intentId ≠ "")
    (hcalls : ∀ call ∈ calls, CallOf intent reports call)
    (hknown : s.executionIntents.lookup intent.intentId = some intent ∨
      ∃ now, .rememberExecutionIntent now intent ∈ calls) :
    (run executionStep s calls).executionIntents.lookup intent.intentId = some intent := by
  induction calls generalizing s with
  | nil =>
      rcases hknown with hknown | ⟨now, hmem⟩
      · exact hknown
      · cases hmem
  | cons call calls ih =>
      refine ih (fun c hc => hcalls c (mem_cons_of_mem _ hc)) ?_
      have hcall := hcalls call (by simp)
      cases call with
      | rememberExecutionIntent now i =>
          obtain rfl : i = intent := hcall
          refine Or.inl ?_
          rw [intents_remember now s hnamed]
          exact lookup_insert _
      | applyExecutionReport now r =>
          rw [intents_report]
          rcases hknown with hknown | ⟨now', hmem⟩
          · exact Or.inl hknown
          · rcases mem_cons.mp hmem with hhead | htail
            · cases hhead
            · exact Or.inr ⟨now', htail⟩

theorem seen_run {r : ExecutionReport}
    (hseen : executionReportKey r ∈ s.seenExecutionReportKeys ∨
      ∃ now, .applyExecutionReport now r ∈ calls) :
    executionReportKey r ∈ (run executionStep s calls).seenExecutionReportKeys := by
  induction calls generalizing s with
  | nil =>
      rcases hseen with hseen | ⟨now, hmem⟩
      · exact hseen
      · cases hmem
  | cons call calls ih =>
      apply ih
      rcases hseen with hseen | ⟨now, hmem⟩
      · rw [← run_actions]
        exact Or.inl (run_preserves 
          (fun t : ExecutionBooks => executionReportKey r ∈ t.seenExecutionReportKeys)
          (fun _ a ht => seen_act a ht) hseen (actions s call))
      · rcases mem_cons.mp hmem with rfl | htail
        · exact Or.inl (seen_applyExecutionReport s now r)
        · exact Or.inr ⟨now, htail⟩

theorem delivery_outcome (h : OneOrder intent terms reports last) (hunseen : Unseen s intent last)
    (hdelivers : Delivers intent reports calls)
    (hfits : StepsMeet act (OnApply ReportFits) s (executionActions s calls)) :
    (run executionStep s calls).executionState (executionStateKey last) =
        ({} : ExecutionLedgerState).saved last ∧
      ∀ account,
        valueAt value (run executionStep s calls).venueBalances account =
          valueAt value s.venueBalances account +
            terms.book (({} : ExecutionLedgerState).saved last) account := by
  obtain ⟨hcalls, hremembers, hreports⟩ := hdelivers
  have hlanded : Landed intent last s := fun hseen => absurd hseen hunseen.seen
  obtain ⟨hmeet, hlast⟩ := h.delivery_run (OneOrder.orderInv_of_unseen hunseen) hlanded hcalls hfits
  have hknown := known_run h.named hcalls (s := s) (Or.inr hremembers)
  have hseen := seen_run (s := s) (Or.inr (hreports last h.mem))
  have hstate : (run executionStep s calls).executionState (executionStateKey last) =
      ({} : ExecutionLedgerState).saved last := by
    rcases hlast hseen with ⟨hnone, -⟩ | hclosed
    · rw [hknown] at hnone
      cases hnone
    · exact hclosed
  refine ⟨hstate, ?_⟩
  have horder : StepsMeet act (OnApply (OrderReportOk terms (executionStateKey last))) s
      (executionActions s calls) := by
    refine hmeet.imp ?_
    rintro t a ⟨⟨hinv, ha⟩, hok⟩
    cases a with
    | apply now r => exact ⟨hok, fun _ => h.telescopes hinv ha hok⟩
    | store i => trivial
    | see key => trivial
    | countDuplicate => trivial
    | queue r => trivial
    | countReplayed => trivial
  have hothers : journal act (onReport (otherPostings (executionStateKey last))) s
      (executionActions s calls) = [] := by
    apply eq_nil_iff_forall_not_mem.mpr
    intro p hp
    refine forall_mem_journal (Q := fun _ => False) ?_ hmeet p hp
    rintro t a ⟨⟨-, ha⟩, -⟩ q hq
    rcases act_cases t a with ⟨now, r, rfl⟩ | ⟨hother, -⟩
    · rw [onReport, otherPostings, if_pos (h.stateKeys r ha)] at hq
      cases hq
    · rw [onReport_of_other _ t hother] at hq
      cases hq
  intro account
  have hcash := venueCash_follows_run hunseen.state horder account
  rw [hothers, net_nil, add_zero, run_executionActions, hstate] at hcash
  exact hcash

/-- Two deliveries of one venue order that round no amount lead to the same execution
state and the same venue balances: the order of the reports, repetitions, and the
places where the intent is remembered do not matter. -/
theorem delivery_order_irrelevant {s : ExecutionBooks} (h : OneOrder intent terms reports last)
    (hunseen : Unseen s intent last) {calls calls' : List ExecutionCall}
    (hdelivers : Delivers intent reports calls) (hdelivers' : Delivers intent reports calls')
    (hfits : StepsMeet act (OnApply ReportFits) s (executionActions s calls))
    (hfits' : StepsMeet act (OnApply ReportFits) s (executionActions s calls')) :
    SameOutcome (executionStateKey last) (run executionStep s calls)
      (run executionStep s calls') := by
  obtain ⟨hstate, hbalances⟩ := delivery_outcome h hunseen hdelivers hfits
  obtain ⟨hstate', hbalances'⟩ := delivery_outcome h hunseen hdelivers' hfits'
  refine ⟨hstate.trans hstate'.symm, ?_⟩
  intro account
  rw [hbalances, hbalances']

end Delivery

/-- The reports of `steadyReports` before their intent, the closing one first, one of
them twice, and the intent twice. -/
def shuffledCalls : List ExecutionCall :=
  (steadyReports.reverse ++ steadyReports).map (.applyExecutionReport 0) ++
    [.rememberExecutionIntent 0 (sampleIntent (Decimal.of 3 0)),
      .rememberExecutionIntent 0 (sampleIntent (Decimal.of 3 0))]

theorem steadyReports_oneOrder :
    OneOrder (sampleIntent (.of 3 0)) sampleTerms steadyReports
      (sampleReport "r2" "v1" .filled (.of 25 1) (.of 1000 1) (some (.of 2 1))) := by
  constructor <;> decide +kernel

/-- The two deliveries of `steadyReports` have the same outcome. -/
theorem steadyReports_shuffled :
    SameOutcome "i1|v1" (run executionStep {} (sampleCalls (Decimal.of 3 0) steadyReports))
      (run executionStep {} shuffledCalls) :=
  delivery_order_irrelevant steadyReports_oneOrder
    ⟨by decide +kernel, by decide +kernel, by decide +kernel, by decide +kernel⟩
    ⟨by simp [sampleCalls, steadyReports, CallOf], ⟨0, by simp [sampleCalls]⟩,
      fun r hr => ⟨0, by simp [sampleCalls, hr]⟩⟩
    ⟨by simp [shuffledCalls, steadyReports, CallOf], ⟨0, by simp [shuffledCalls]⟩,
      fun r hr => ⟨0, by simp [shuffledCalls, hr]⟩⟩
    (by decide +kernel) (by decide +kernel)

/-- The books after the sample intent for two units and the reports. -/
def delivered (reports : List ExecutionReport) : ExecutionBooks :=
  run executionStep {} (sampleCalls (Decimal.of 2 0) reports)

/-- The reports in the order given and in the reverse order have the same outcome. -/
def ReversesAlike (reports : List ExecutionReport) : Prop :=
  SameOutcome "i1|v1" (delivered reports) (delivered reports.reverse)

/-- What makes the order matter: a closing status the table does not allow after the
other, a closing report that is not the largest, one that fails the plan, two state
keys, a report without a venue, fees that are missing, change with the currency,
fall, are negative, or change without a new quantity, and a product or a total that is
rounded. -/
theorem delivery_order_matters :
    ¬ ReversesAlike
        [sampleReport "r1" "v1" .partiallyFilled (Decimal.of 1 0) (Decimal.of 100 0) none,
          sampleReport "r2" "v1" .expired (Decimal.of 1 0) (Decimal.of 100 0) none] ∧
      ¬ ReversesAlike
          [sampleReport "r1" "v1" .cancelled (Decimal.of 1 0) (Decimal.of 100 0) none,
            sampleReport "r2" "v1" .partiallyFilled (Decimal.of 2 0) (Decimal.of 100 0) none] ∧
      ¬ ReversesAlike
          [sampleReport "r1" "v1" .partiallyFilled (Decimal.of 1 0) (Decimal.of 100 0) none,
            sampleReport "r2" "v1" .underfilled (Decimal.of 2 0) (Decimal.of 100 0) none,
            sampleReport "r3" "v1" .filled (Decimal.of 3 0) (Decimal.of 100 0) none] ∧
      ¬ ReversesAlike
          [sampleReport "r1" "" .partiallyFilled (Decimal.of 1 0) (Decimal.of 100 0) none,
            sampleReport "r2" "" .underfilled (Decimal.of 2 0) (Decimal.of 100 0) none,
            sampleReport "r3" "v1" .filled (Decimal.of 2 0) (Decimal.of 100 0) none] ∧
      ¬ ReversesAlike
          [{ sampleReport "r1" "v1" .partiallyFilled (Decimal.of 1 0) (Decimal.of 100 0) none with
              venue := "" },
            sampleReport "r2" "v1" .filled (Decimal.of 2 0) (Decimal.of 100 0) none] ∧
      ¬ ReversesAlike
          [sampleReport "r1" "v1" .partiallyFilled (Decimal.of 1 0) (Decimal.of 100 0)
              (some (Decimal.of 1 1)),
            sampleReport "r2" "v1" .filled (Decimal.of 2 0) (Decimal.of 100 0) none] ∧
      ¬ ReversesAlike
          [sampleReport "r1" "v1" .partiallyFilled (Decimal.of 1 0) (Decimal.of 100 0)
              (some (Decimal.of 1 1)),
            { sampleReport "r2" "v1" .filled (Decimal.of 2 0) (Decimal.of 100 0) none with
              feeTotal := some { currency := "BNB", amount := some (Decimal.of 2 1) } }] ∧
      ¬ ReversesAlike
          [sampleReport "r1" "v1" .partiallyFilled (Decimal.of 1 0) (Decimal.of 100 0)
              (some (Decimal.of 2 1)),
            sampleReport "r2" "v1" .filled (Decimal.of 2 0) (Decimal.of 100 0)
              (some (Decimal.of 1 1))] ∧
      ¬ ReversesAlike
          [sampleReport "r1" "v1" .partiallyFilled (Decimal.of 1 0) (Decimal.of 100 0)
              (some (Decimal.of (-1) 1)),
            sampleReport "r2" "v1" .filled (Decimal.of 2 0) (Decimal.of 100 0)
              (some (Decimal.of 1 1))] ∧
      ¬ ReversesAlike
          [sampleReport "r1" "v1" .partiallyFilled (Decimal.of 1 0) (Decimal.of 100 0)
              (some (Decimal.of 1 1)),
            sampleReport "r2" "v1" .filled (Decimal.of 1 0) (Decimal.of 100 0)
              (some (Decimal.of 2 1))] ∧
      ¬ ReversesAlike
          [sampleReport "r1" "v1" .new (Decimal.of 0 0) (Decimal.of 100 0)
              (some (Decimal.of 1 1)),
            sampleReport "r2" "v1" .filled (Decimal.of 1 0) (Decimal.of 100 0)
              (some (Decimal.of 1 1))] ∧
      ¬ ReversesAlike
          [sampleReport "r1" "v1" .partiallyFilled (Decimal.of 25195241 8)
              (Decimal.of 420410398235 8) none,
            sampleReport "r2" "v1" .filled (Decimal.of 2 0) (Decimal.of 420410398235 8) none] ∧
      ¬ ReversesAlike
          [sampleReport "r1" "v1" .partiallyFilled (Decimal.of 1 0) (Decimal.of 100 0)
              (some (Decimal.of 60 18)),
            sampleReport "r2" "v1" .filled (Decimal.of 2 0) (Decimal.of 100 0)
              (some (Decimal.of 120 18))] := by
  have hstate : ∀ reports, (delivered reports).executionState "i1|v1" ≠
      (delivered reports.reverse).executionState "i1|v1" → ¬ ReversesAlike reports :=
    fun _ hne h => hne h.1
  have hcash : ∀ account reports,
      valueAt VenueBalanceEntry.value (delivered reports).venueBalances account ≠
        valueAt VenueBalanceEntry.value (delivered reports.reverse).venueBalances account →
      ¬ ReversesAlike reports :=
    fun account _ hne h => hne (h.2 account)
  refine ⟨hstate _ ?_, hstate _ ?_, hstate _ ?_, hcash ("binance", "BTC") _ ?_,
    hcash ("binance", "BTC") _ ?_, hstate _ ?_, hcash ("binance", "BNB") _ ?_,
    hcash ("binance", "USDT") _ ?_, hcash ("binance", "USDT") _ ?_,
    hcash ("binance", "USDT") _ ?_, hcash ("binance", "USDT") _ ?_,
    hcash ("binance", "USDT") _ ?_, hcash ("binance", "USDT") _ ?_⟩ <;> decide +kernel

end Ledger
end ContExchange
