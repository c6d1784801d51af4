import ContExchange.Common.Double
import ContExchange.Lib.Table

/-!
# Backtest: the journal of a replay

A replay runs historical batches one after the other.  `ReplayStepJournal` keeps a step for
each of them, in the order in which they were first seen, and `BuildSummary` adds the steps
up.  Each step is also written as a row of the agent log.

* `ReplayStepJournal`: `Upsert`, `TruncateFromBatch`, `OrderedEntries`, `BuildSummary`;
* `agentLog`: the row that `RunReplaySession` writes for a step;
* `Same`: two journals with the same steps in the same order.

The counters of 32 bits are natural numbers, and the square root of `std::sqrt` is a
parameter.
-/

namespace ContExchange
namespace Backtest

open Common Lib AList List Option

inductive FailureComponent where
  | unknown
  | solver
  | marketData
  | risk
  | history
  | ledger
  | config
  | shadow
  | pipeline
deriving DecidableEq

inductive BatchOutcome where
  | ok
  | softFailure
  | hardFailure
deriving DecidableEq

structure BatchExecutionResult where
  outcome : BatchOutcome := .ok
  pnl : Double := .zero
  isValue : Double := .zero
  fillRate : Double := .zero
  fillsApplied : Nat := 0
  solveTimeMs : Nat := 0
  errorDetails : String := ""
  errorCode : String := ""
  failureComponent : FailureComponent := .unknown
  residualNorm : Double := .zero
  vwap : Double := .zero
  executedQty : Double := .zero
  requestedQty : Double := .zero
  executedNotional : Double := .zero
  isWeightedSum : Double := .zero
  isWeight : Double := .zero
  stateJson : String := ""
  actionJson : String := ""
  fillsJson : String := ""
  batchResultJson : String := ""
  metricsJson : String := ""
  riskStatus : String := ""
deriving DecidableEq

structure AgentLogEntry where
  logId : String := ""
  sessionId : String := ""
  batchSeq : Nat := 0
  originalBatchId : String := ""
  eventTimeMs : Int := 0
  pnl : Double := .zero
  isValue : Double := .zero
  fillRate : Double := .zero
  fillsApplied : Nat := 0
  solveTimeMs : Nat := 0
  residualNorm : Double := .zero
  reward : Double := .zero
  solverErrorFlag : Bool := false
  riskStatus : String := ""
  errorCode : String := ""
  errorDetails : String := ""
  failureComponent : FailureComponent := .unknown
  stateJson : String := ""
  actionJson : String := ""
  fillsJson : String := ""
  batchResultJson : String := ""
  metricsJson : String := ""
  sessionConfigSnapshotVersion : Nat := 1
deriving DecidableEq

inductive RewardMode where
  | incrementalPnl
  | negativeIs
deriving DecidableEq

def computeReward (exec : BatchExecutionResult) (mode : RewardMode) : Double :=
  if exec.outcome ≠ .ok then .zero
  else
    match mode with
    | .negativeIs => Double.zero.sub exec.isValue
    | .incrementalPnl => exec.pnl

/-- The row that `RunReplaySession` writes for a batch. -/
def agentLog (sessionId : String) (mode : RewardMode) (batchSeq : Nat) (batchId : String)
    (eventTimeMs : Int) (exec : BatchExecutionResult) : AgentLogEntry where
  logId := sessionId ++ ":" ++ toString batchSeq
  sessionId := sessionId
  batchSeq := batchSeq
  originalBatchId := batchId
  eventTimeMs := eventTimeMs
  pnl := exec.pnl
  isValue := exec.isValue
  fillRate := exec.fillRate
  fillsApplied := exec.fillsApplied
  solveTimeMs := exec.solveTimeMs
  reward := computeReward exec mode
  residualNorm := exec.residualNorm
  solverErrorFlag := exec.outcome ≠ .ok
  riskStatus :=
    if exec.riskStatus ≠ "" then exec.riskStatus
    else
      match exec.outcome with
      | .ok => "ok"
      | .softFailure => "soft"
      | .hardFailure => "hard"
  errorCode := exec.errorCode
  errorDetails := exec.errorDetails
  failureComponent := exec.failureComponent
  stateJson := exec.stateJson
  actionJson := exec.actionJson
  fillsJson := exec.fillsJson
  batchResultJson := exec.batchResultJson
  metricsJson := exec.metricsJson

structure ReplayStepJournalEntry where
  batchId : String
  agentLog : AgentLogEntry
  execution : BatchExecutionResult
deriving DecidableEq

structure ReplayStepJournal where
  order : List String := []
  entries : Table String ReplayStepJournalEntry := ∅

/-- `ReplaySummary`, as `BuildSummary` fills it in. -/
structure ReplaySummary where
  sessionId : String
  totalBatches : Nat
  processedBatches : Nat := 0
  failedBatches : Nat := 0
  totalPnl : Double := .zero
  avgPnl : Double := .zero
  avgIs : Double := .zero
  stdPnl : Double := .zero
  sharpe : Double := .zero
  avgFillRate : Double := .zero
  avgSolveTimeMs : Double := .zero
  maxDrawdown : Double := .zero
  totalFillEvents : Nat := 0
  avgVwap : Double := .zero
  avgisRule : String
  decisionPriceSource : String
  noRequestedVolume : Bool := false
deriving DecidableEq

/-- The sums that `BuildSummary` keeps. -/
structure SummaryTotals where
  processedBatches : Nat := 0
  failedBatches : Nat := 0
  sumPnl : Double := .zero
  sumIs : Double := .zero
  sumSolveTime : Double := .zero
  solveTimeCount : Nat := 0
  totalFillEvents : Nat := 0
  sumExecutedQty : Double := .zero
  sumRequestedQty : Double := .zero
  sumExecutedNotional : Double := .zero
  sumIsWeighted : Double := .zero
  sumIsWeight : Double := .zero
  cumulativePnl : Double := .zero
  peakPnl : Double := .zero
  maxDrawdown : Double := .zero
  pnlValues : List Double := []

namespace ReplayStepJournal

def contains (j : ReplayStepJournal) (batchId : String) : Bool :=
  (j.entries.lookup batchId).isSome

def nextBatchSeq (j : ReplayStepJournal) : Nat :=
  j.order.length

def upsert (j : ReplayStepJournal) (entry : ReplayStepJournalEntry) : ReplayStepJournal :=
  if entry.batchId = "" then j
  else
    { order :=
        if j.contains entry.batchId then j.order else j.order ++ [entry.batchId]
      entries := j.entries.insert entry.batchId entry }

def truncateFromBatch (j : ReplayStepJournal) (batchId : String) : ReplayStepJournal :=
  let kept := j.order.takeWhile (fun id => id ≠ batchId)
  { order := kept
    entries := (j.order.drop kept.length).foldl (fun entries id => entries.erase id) j.entries }

def orderedEntries (j : ReplayStepJournal) : List ReplayStepJournalEntry :=
  j.order.filterMap j.entries.lookup

def SummaryTotals.add (t : SummaryTotals) (exec : BatchExecutionResult) : SummaryTotals :=
  let cumulativePnl := t.cumulativePnl.add exec.pnl
  let peakPnl := t.peakPnl.max cumulativePnl
  { processedBatches := if exec.outcome = .ok then t.processedBatches + 1 else t.processedBatches
    failedBatches := if exec.outcome = .ok then t.failedBatches else t.failedBatches + 1
    sumPnl := t.sumPnl.add exec.pnl
    sumIs := t.sumIs.add exec.isValue
    sumSolveTime :=
      if exec.outcome = .ok then t.sumSolveTime.add (.num exec.solveTimeMs) else t.sumSolveTime
    solveTimeCount := if exec.outcome = .ok then t.solveTimeCount + 1 else t.solveTimeCount
    totalFillEvents := t.totalFillEvents + exec.fillsApplied
    sumExecutedQty := t.sumExecutedQty.add exec.executedQty
    sumRequestedQty := t.sumRequestedQty.add exec.requestedQty
    sumExecutedNotional := t.sumExecutedNotional.add exec.executedNotional
    sumIsWeighted := t.sumIsWeighted.add exec.isWeightedSum
    sumIsWeight := t.sumIsWeight.add exec.isWeight
    cumulativePnl
    peakPnl
    maxDrawdown := t.maxDrawdown.max (peakPnl.sub cumulativePnl)
    pnlValues := t.pnlValues ++ [exec.pnl] }

def buildSummary (sqrt : Double → Double) (j : ReplayStepJournal) (sessionId : String)
    (totalBatches : Nat) (avgisRule decisionPriceSource : String) : ReplaySummary :=
  let rule := if avgisRule = "" then "volume_weighted" else avgisRule
  let t := j.orderedEntries.foldl (fun t entry => SummaryTotals.add t entry.execution) {}
  let n := Double.num t.pnlValues.length
  let steps := t.pnlValues ≠ []
  let avgPnl := if steps then t.sumPnl.div n else .zero
  let variance :=
    (t.pnlValues.foldl (fun variance pnl =>
      variance.add ((pnl.sub avgPnl).mul (pnl.sub avgPnl))) Double.zero).div n
  let stdPnl := if steps then sqrt variance else .zero
  { sessionId
    totalBatches
    processedBatches := t.processedBatches
    failedBatches := t.failedBatches
    totalPnl := if steps then t.sumPnl else .zero
    avgPnl
    avgIs :=
      if steps then
        if rule = "simple_mean" then t.sumIs.div n
        else if Double.zero.lt t.sumIsWeight then t.sumIsWeighted.div t.sumIsWeight
        else t.sumIs.div n
      else .zero
    stdPnl
    sharpe := if steps ∧ Double.zero.lt stdPnl then avgPnl.div stdPnl else .zero
    avgFillRate :=
      if steps ∧ Double.zero.lt t.sumRequestedQty then
        (t.sumExecutedQty.div t.sumRequestedQty).mul (.num 100)
      else .zero
    avgSolveTimeMs :=
      if 0 < t.solveTimeCount then t.sumSolveTime.div (.num t.solveTimeCount) else .zero
    maxDrawdown := t.maxDrawdown
    totalFillEvents := t.totalFillEvents
    avgVwap :=
      if Double.zero.lt t.sumExecutedQty then t.sumExecutedNotional.div t.sumExecutedQty
      else .zero
    avgisRule := rule
    decisionPriceSource :=
      if decisionPriceSource = "" then "marketdata_mid_with_clearprice_fallback"
      else decisionPriceSource
    noRequestedVolume := decide steps && t.sumRequestedQty.le .zero }

/-- Two journals hold the same steps in the same order. -/
def Same (j j' : ReplayStepJournal) : Prop :=
  j.order = j'.order ∧ ∀ batchId, j.entries.lookup batchId = j'.entries.lookup batchId

variable {j j' : ReplayStepJournal}

theorem Same.symm (h : Same j j') : Same j' j :=
  ⟨h.1.symm, fun batchId => (h.2 batchId).symm⟩

theorem Same.trans {j'' : ReplayStepJournal} (h : Same j j') (h' : Same j' j'') : Same j j'' :=
  ⟨h.1.trans h'.1, fun batchId => (h.2 batchId).trans (h'.2 batchId)⟩

theorem Same.contains (h : Same j j') (batchId : String) :
    j.contains batchId = j'.contains batchId := by
  unfold ReplayStepJournal.contains
  rw [h.2]

theorem Same.upsert (h : Same j j') (entry : ReplayStepJournalEntry) :
    Same (j.upsert entry) (j'.upsert entry) := by
  unfold ReplayStepJournal.upsert
  split
  · exact h
  · refine ⟨?_, ?_⟩
    · dsimp only
      rw [h.contains, h.1]
    · intro batchId
      dsimp only
      by_cases hid : batchId = entry.batchId
      · rw [hid, lookup_insert, lookup_insert]
      · rw [lookup_insert_ne hid, lookup_insert_ne hid, h.2]

theorem Same.foldl_upsert (h : Same j j') (entries : List ReplayStepJournalEntry) :
    Same (entries.foldl ReplayStepJournal.upsert j) (entries.foldl ReplayStepJournal.upsert j') := by
  induction entries generalizing j j' with
  | nil => exact h
  | cons entry entries ih => exact ih (h.upsert entry)

theorem Same.orderedEntries (h : Same j j') : j.orderedEntries = j'.orderedEntries := by
  unfold ReplayStepJournal.orderedEntries
  rw [h.1]
  exact filterMap_congr (fun batchId _ => h.2 batchId)

theorem Same.buildSummary (h : Same j j') (sqrt : Double → Double) (sessionId : String)
    (totalBatches : Nat) (avgisRule decisionPriceSource : String) :
    j.buildSummary sqrt sessionId totalBatches avgisRule decisionPriceSource =
      j'.buildSummary sqrt sessionId totalBatches avgisRule decisionPriceSource := by
  unfold ReplayStepJournal.buildSummary
  rw [h.orderedEntries]

def ofEntries (entries : List ReplayStepJournalEntry) : ReplayStepJournal :=
  entries.foldl ReplayStepJournal.upsert {}

section Filling

variable {entries : List ReplayStepJournalEntry}

theorem find?_of_mem (hnodup : (entries.map ReplayStepJournalEntry.batchId).Nodup)
    {entry : ReplayStepJournalEntry} (h : entry ∈ entries) :
    entries.find? (fun e => e.batchId = entry.batchId) = some entry := by
  induction entries with
  | nil => cases h
  | cons e entries ih =>
      rw [map_cons, nodup_cons] at hnodup
      rcases mem_cons.mp h with rfl | hrest
      · rw [find?_cons_of_pos (by simp)]
      · have hne : e.batchId ≠ entry.batchId := by
          intro heq
          exact hnodup.1 (heq ▸ mem_map_of_mem hrest)
        rw [find?_cons_of_neg (by simpa using hne)]
        exact ih hnodup.2 hrest

theorem find?_eq_none_of_notMem {batchId : String}
    (h : batchId ∉ entries.map ReplayStepJournalEntry.batchId) :
    entries.find? (fun e => e.batchId = batchId) = none := by
  rw [find?_eq_none]
  intro e he heq
  exact h (of_decide_eq_true heq ▸ mem_map_of_mem he)

section Entries

variable (hne : ∀ e ∈ entries, e.batchId ≠ "")
  (hnodup : (entries.map ReplayStepJournalEntry.batchId).Nodup)

include hne hnodup

theorem foldl_upsert_of_fresh {j : ReplayStepJournal}
    (hfresh : ∀ e ∈ entries, j.contains e.batchId = false) :
    (entries.foldl ReplayStepJournal.upsert j).order =
        j.order ++ entries.map ReplayStepJournalEntry.batchId ∧
      ∀ batchId, (entries.foldl ReplayStepJournal.upsert j).entries.lookup batchId =
        (entries.find? (fun e => e.batchId = batchId)).or (j.entries.lookup batchId) := by
  induction entries generalizing j with
  | nil => exact ⟨(append_nil _).symm, fun _ => rfl⟩
  | cons e entries ih =>
      rw [map_cons, nodup_cons] at hnodup
      have hupsert : j.upsert e =
          { order := j.order ++ [e.batchId], entries := j.entries.insert e.batchId e } := by
        unfold ReplayStepJournal.upsert
        rw [if_neg (hne e mem_cons_self), hfresh e mem_cons_self, if_neg (by decide)]
      have hrest : ∀ e' ∈ entries, (j.upsert e).contains e'.batchId = false := by
        intro e' he'
        have hother : e'.batchId ≠ e.batchId := by
          intro heq
          exact hnodup.1 (heq ▸ mem_map_of_mem he')
        rw [hupsert, ReplayStepJournal.contains]
        dsimp only
        rw [lookup_insert_ne hother]
        exact hfresh e' (mem_cons_of_mem e he')
      obtain ⟨horder, hlookup⟩ :=
        ih (fun e' he' => hne e' (mem_cons_of_mem e he')) hnodup.2 hrest
      rw [foldl_cons]
      constructor
      · rw [horder, hupsert, append_assoc]
        rfl
      · intro batchId
        rw [hlookup, hupsert]
        dsimp only
        by_cases hid : e.batchId = batchId
        · subst hid
          rw [find?_eq_none_of_notMem hnodup.1, find?_cons_of_pos (by simp), lookup_insert]
          rfl
        · rw [find?_cons_of_neg (by simpa using hid), lookup_insert_ne (Ne.symm hid)]

theorem order_ofEntries :
    (ofEntries entries).order = entries.map ReplayStepJournalEntry.batchId := by
  have horder := (foldl_upsert_of_fresh hne hnodup (fun _ _ => rfl) (j := {})).1
  rwa [nil_append] at horder

theorem lookup_ofEntries (batchId : String) :
    (ofEntries entries).entries.lookup batchId = entries.find? (fun e => e.batchId = batchId) := by
  have hlookup := (foldl_upsert_of_fresh hne hnodup (j := {}) (fun _ _ => rfl)).2 batchId
  rwa [lookup_empty, or_none] at hlookup

theorem orderedEntries_ofEntries :
    (ofEntries entries).orderedEntries = entries := by
  unfold orderedEntries
  rw [order_ofEntries hne hnodup, filterMap_map]
  have hfind : ∀ e ∈ entries,
      ((ofEntries entries).entries.lookup ∘ ReplayStepJournalEntry.batchId) e = some e := by
    intro e he
    rw [Function.comp_apply, lookup_ofEntries hne hnodup]
    exact find?_of_mem hnodup he
  rw [filterMap_congr hfind, filterMap_some]

theorem same_ofEntries_iff {entries' : List ReplayStepJournalEntry}
    (hne' : ∀ e ∈ entries', e.batchId ≠ "")
    (hnodup' : (entries'.map ReplayStepJournalEntry.batchId).Nodup) :
    Same (ofEntries entries) (ofEntries entries') ↔ entries = entries' := by
  constructor
  · intro h
    have hordered := h.orderedEntries
    rwa [orderedEntries_ofEntries hne hnodup, orderedEntries_ofEntries hne' hnodup'] at hordered
  · rintro rfl
    exact ⟨rfl, fun _ => rfl⟩

theorem same_truncateFromBatch (batchId : String) :
    Same ((ofEntries entries).truncateFromBatch batchId)
      (ofEntries (entries.takeWhile (fun e => e.batchId ≠ batchId))) := by
  have hsplit := takeWhile_append_dropWhile
    (p := fun e : ReplayStepJournalEntry => decide (e.batchId ≠ batchId)) (l := entries)
  have hkept : (entries.map ReplayStepJournalEntry.batchId).takeWhile (fun id => id ≠ batchId) =
      (entries.takeWhile (fun e => e.batchId ≠ batchId)).map ReplayStepJournalEntry.batchId :=
    takeWhile_map ..
  generalize htake : entries.takeWhile (fun e => decide (e.batchId ≠ batchId)) = kept at *
  generalize entries.dropWhile (fun e => decide (e.batchId ≠ batchId)) = dropped at *
  have hnodup' := hnodup
  rw [← hsplit, map_append, nodup_append] at hnodup'
  have hneKept : ∀ e ∈ kept, e.batchId ≠ "" := fun e he =>
    hne e (hsplit ▸ mem_append_left dropped he)
  unfold truncateFromBatch Same
  dsimp only
  rw [order_ofEntries hne hnodup, hkept, order_ofEntries hneKept hnodup'.1]
  refine ⟨rfl, fun id => ?_⟩
  rw [Table.lookup_foldl_erase, lookup_ofEntries hne hnodup, lookup_ofEntries hneKept hnodup'.1,
    ← hsplit, map_append, drop_left, find?_append]
  split
  · rename_i hdropped
    have hkeptId : id ∉ kept.map ReplayStepJournalEntry.batchId := fun hin =>
      hnodup'.2.2 id hin id hdropped rfl
    rw [find?_eq_none_of_notMem hkeptId]
  · rename_i hdropped
    rw [find?_eq_none_of_notMem hdropped, or_none]

end Entries

end Filling

end ReplayStepJournal

end Backtest
end ContExchange
