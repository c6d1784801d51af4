import ContExchange.Backtest.ReplayJournal
import ContExchange.Lib.Selection
import Mathlib.Data.List.Induction

/-!
# Backtest: warm and cold restore

A replay can go back to the state before a batch.  `RunWarm` rolls the shadow ledger back and
truncates the journal of the running process; `RunCold` rolls the ledger back and fills an
empty journal from the rows of the agent log.

* `ReplayRun`: the steps of a session, the journal and the rows that they leave;
* `Agree`: both restores end alike, and when replay goes on, with the same summary;
* `Rehydratable`: the agent log keeps everything about a step;
* `agree_iff`: when the two restores agree.

The agent log has no column for the quantities of a step, and of its outcome it keeps a flag
that is set for soft and hard failures alike.  The shadow ledger is behind its port; of a
namespace the balances and positions are kept.
-/

namespace ContExchange
namespace Backtest

open Common Lib

/-- A batch that was run: its id and time, and how it went. -/
structure ReplayStep where
  batchId : String
  eventTimeMs : Int := 0
  execution : BatchExecutionResult

/-- A session that was run through, batch by batch.  Batches are counted in 32 bits. -/
structure ReplayRun where
  sessionId : String
  rewardMode : RewardMode := .incrementalPnl
  steps : List ReplayStep
  nodup : (steps.map ReplayStep.batchId).Nodup
  ids_ne : ∀ st ∈ steps, st.batchId ≠ ""
  length_le : steps.length ≤ 4294967295

/-- The journal and the stored rows while a session runs. -/
structure ReplayWorld where
  journal : ReplayStepJournal := {}
  logs : List AgentLogEntry := []

/-- `WriteAgentLog`: the row of a batch is replaced. -/
def writeAgentLog (logs : List AgentLogEntry) (log : AgentLogEntry) : List AgentLogEntry :=
  logs.filter (fun old => old.originalBatchId ≠ log.originalBatchId) ++ [log]

/-- What `RunReplaySession` keeps of a batch. -/
def recordStep (sessionId : String) (mode : RewardMode) (w : ReplayWorld) (st : ReplayStep) :
    ReplayWorld :=
  let log := agentLog sessionId mode w.journal.nextBatchSeq st.batchId st.eventTimeMs st.execution
  { journal :=
      w.journal.upsert { batchId := st.batchId, agentLog := log, execution := st.execution }
    logs := writeAgentLog w.logs log }

def ReplayRun.world (r : ReplayRun) : ReplayWorld :=
  r.steps.foldl (recordStep r.sessionId r.rewardMode) {}

/-- `ReadLogsUpTo`: the rows below a number, in their order; zero asks for all. -/
def readLogsUpTo (logs : List AgentLogEntry) (upToBatchSeq : Nat) : List AgentLogEntry :=
  sortBy AgentLogEntry.batchSeq
    (if upToBatchSeq ≠ 0 then logs.filter (fun log => log.batchSeq < upToBatchSeq) else logs)

/-- `ShadowLedgerNamespaceState`, as far as a restore reads it. -/
structure ShadowLedgerNamespaceState where
  balances : Table String String := ∅
  positions : Table String String := ∅
deriving DecidableEq

/-- `IShadowLedger`, as far as a restore uses it. -/
structure ShadowLedger (Λ : Type) where
  getNamespace : Λ → String → Option ShadowLedgerNamespaceState
  hasCheckpoint : Λ → String → String → Bool
  restoreBeforeBatch : Λ → String → String → Bool × Λ

/-- A namespace of `InMemoryShadowLedger`; a checkpoint is the state before its batch. -/
structure NamespaceEntry where
  state : ShadowLedgerNamespaceState := {}
  appliedBatchOrder : List String := []
  checkpoints : Table String ShadowLedgerNamespaceState := ∅

def inMemoryShadowLedger : ShadowLedger (Table String NamespaceEntry) where
  getNamespace namespaces ns := (namespaces.lookup ns).map NamespaceEntry.state
  hasCheckpoint namespaces ns batchId :=
    (namespaces.lookup ns).any (fun entry => (entry.checkpoints.lookup batchId).isSome)
  restoreBeforeBatch namespaces ns batchId :=
    match namespaces.lookup ns with
    | none => (false, namespaces)
    | some entry =>
        match entry.checkpoints.lookup batchId with
        | none => (false, namespaces)
        | some before =>
            if batchId ∈ entry.appliedBatchOrder then
              let kept := entry.appliedBatchOrder.takeWhile (fun id => id ≠ batchId)
              (true, namespaces.insert ns
                { state := before
                  appliedBatchOrder := kept
                  checkpoints := (entry.appliedBatchOrder.drop kept.length).foldl
                    (fun checkpoints id => checkpoints.erase id) entry.checkpoints })
            else (false, namespaces)

/-- `RestoreState::Status`, as the restores return it. -/
inductive RestoreStatus where
  | ok
  | checkpointMissing
  | shadowRestoreFailed
  | invalidArgument
deriving DecidableEq

structure RollingAgentMetrics where
  processedBatches : Nat := 0
  failedBatches : Nat := 0
  sumPnl : Double := .zero
  sumIs : Double := .zero
  sumFillRate : Double := .zero
  sumSolveTimeMs : Double := .zero
  cumPnl : Double := .zero
  peakCumPnl : Double := .zero
  maxDrawdown : Double := .zero
deriving DecidableEq

structure RestoredAgentState where
  balances : Table String String := ∅
  positions : Table String String := ∅
  rolling : RollingAgentMetrics := {}
  riskAlertsCount : Nat := 0
  lastAction : Option AgentLogEntry := none

/-- `RestoreState::Result`. -/
structure RestoreResult where
  status : RestoreStatus := .ok
  state : RestoredAgentState := {}
  usedColdPath : Bool
  restoredSteps : Nat := 0
  errorDetails : String := ""

structure Restored (Λ : Type) where
  ledger : Λ
  journal : ReplayStepJournal
  result : RestoreResult

/-- One row of `RollUp`. -/
def rollUpLog (m : RollingAgentMetrics) (log : AgentLogEntry) : RollingAgentMetrics :=
  if log.solverErrorFlag = false ∧ log.riskStatus = "ok" then
    let cumPnl := m.cumPnl.add log.pnl
    let peakCumPnl := m.peakCumPnl.max cumPnl
    { m with
      processedBatches := m.processedBatches + 1
      sumPnl := m.sumPnl.add log.pnl
      sumIs := m.sumIs.add log.isValue
      sumFillRate := m.sumFillRate.add log.fillRate
      sumSolveTimeMs := m.sumSolveTimeMs.add (.num log.solveTimeMs)
      cumPnl
      peakCumPnl
      maxDrawdown := m.maxDrawdown.max (peakCumPnl.sub cumPnl) }
  else { m with failedBatches := m.failedBatches + 1 }

def rollUp (logs : List AgentLogEntry) : RollingAgentMetrics :=
  logs.foldl rollUpLog {}

section Restoring

variable {Λ : Type} (port : ShadowLedger Λ)

/-- The end of both restores: the state from the surviving rows and, by
`ApplyShadowLedgerState`, from the ledger. -/
def restoredState (ledger : Λ) (ns : String) (surviving : List AgentLogEntry) :
    RestoredAgentState :=
  let state := (port.getNamespace ledger ns).getD {}
  { balances := state.balances
    positions := state.positions
    rolling := rollUp surviving
    riskAlertsCount := surviving.countP (fun log => log.riskStatus ≠ "ok")
    lastAction := surviving.getLast? }

def refused (ledger : Λ) (journal : ReplayStepJournal) (usedColdPath : Bool)
    (status : RestoreStatus) (errorDetails : String) : Restored Λ where
  ledger := ledger
  journal := journal
  result := { status, usedColdPath, errorDetails }

def runWarm (ledger : Λ) (journal : ReplayStepJournal) (ns targetBatchId : String) : Restored Λ :=
  if journal.contains targetBatchId = false then
    refused ledger journal false .invalidArgument
      ("journal does not contain target batch_id=" ++ targetBatchId)
  else if port.hasCheckpoint ledger ns targetBatchId = false then
    refused ledger journal false .checkpointMissing
      ("no shadow checkpoint for batch_id=" ++ targetBatchId)
  else
    let restored := port.restoreBeforeBatch ledger ns targetBatchId
    if restored.1 = false then
      refused restored.2 journal false .shadowRestoreFailed
        ("shadow ledger failed to roll back to batch_id=" ++ targetBatchId)
    else
      let journal := journal.truncateFromBatch targetBatchId
      let surviving := journal.orderedEntries.map ReplayStepJournalEntry.agentLog
      { ledger := restored.2
        journal
        result :=
          { state := restoredState port restored.2 ns surviving
            usedColdPath := false
            restoredSteps := surviving.length } }

/-- The rows before the target batch and below its number. -/
def trimLogs (targetBatchId : String) (targetBatchSeq : Option Nat) :
    List AgentLogEntry → List AgentLogEntry
  | [] => []
  | log :: logs =>
      if log.originalBatchId = targetBatchId then []
      else if targetBatchSeq.any (fun seq => seq ≤ log.batchSeq) then
        trimLogs targetBatchId targetBatchSeq logs
      else log :: trimLogs targetBatchId targetBatchSeq logs

/-- The journal entry that `RunCold` makes of a row. -/
def rehydrate (log : AgentLogEntry) : ReplayStepJournalEntry where
  batchId := log.originalBatchId
  agentLog := log
  execution :=
    { outcome :=
        if log.solverErrorFlag ∨ log.riskStatus = "hard" then .hardFailure
        else if log.riskStatus = "soft" then .softFailure
        else .ok
      pnl := log.pnl
      isValue := log.isValue
      fillRate := log.fillRate
      fillsApplied := log.fillsApplied
      solveTimeMs := log.solveTimeMs
      errorCode := log.errorCode
      errorDetails := log.errorDetails
      failureComponent := log.failureComponent }

/-- `RunCold`, with the rows that the reader answers. -/
def runCold (ledger : Λ) (journal : ReplayStepJournal) (read : Nat → List AgentLogEntry)
    (ns targetBatchId : String) (targetBatchSeq : Option Nat) : Restored Λ :=
  if port.hasCheckpoint ledger ns targetBatchId = false then
    refused ledger journal true .checkpointMissing
      ("no shadow checkpoint for batch_id=" ++ targetBatchId)
  else
    let restored := port.restoreBeforeBatch ledger ns targetBatchId
    if restored.1 = false then
      refused restored.2 journal true .shadowRestoreFailed
        ("shadow ledger failed to roll back to batch_id=" ++ targetBatchId)
    else
      let logs := read (targetBatchSeq.getD 4294967295)
      let ordered := sortBy AgentLogEntry.batchSeq (trimLogs targetBatchId targetBatchSeq logs)
      { ledger := restored.2
        journal := (ordered.map rehydrate).foldl ReplayStepJournal.upsert journal
        result :=
          { state := restoredState port restored.2 ns ordered
            usedColdPath := true
            restoredSteps := ordered.length } }

/-- Both restores end with one status and one ledger, and after a success with one state, the
same steps, and the same summary however replay goes on. -/
structure Agree (sqrt : Double → Double) (w c : Restored Λ) : Prop where
  status : w.result.status = c.result.status
  ledger : w.ledger = c.ledger
  state : w.result.status = .ok → w.result.state = c.result.state
  journal : w.result.status = .ok → ReplayStepJournal.Same w.journal c.journal
  summary : w.result.status = .ok →
    ∀ (later : List ReplayStepJournalEntry) (sessionId : String) (totalBatches : Nat)
      (avgisRule decisionPriceSource : String),
      (later.foldl ReplayStepJournal.upsert w.journal).buildSummary sqrt sessionId totalBatches
          avgisRule decisionPriceSource =
        (later.foldl ReplayStepJournal.upsert c.journal).buildSummary sqrt sessionId totalBatches
          avgisRule decisionPriceSource

/-- The ledger goes back to before the batch. -/
def CanRestore (ledger : Λ) (ns batchId : String) : Prop :=
  port.hasCheckpoint ledger ns batchId = true ∧
    (port.restoreBeforeBatch ledger ns batchId).1 = true

end Restoring

/-- The agent log keeps all that is known of a step: it did not fail softly, and has none of
the data without a column. -/
structure BatchExecutionResult.Rehydratable (exec : BatchExecutionResult) : Prop where
  outcome : exec.outcome ≠ .softFailure
  residualNorm : exec.residualNorm = .zero
  vwap : exec.vwap = .zero
  executedQty : exec.executedQty = .zero
  requestedQty : exec.requestedQty = .zero
  executedNotional : exec.executedNotional = .zero
  isWeightedSum : exec.isWeightedSum = .zero
  isWeight : exec.isWeight = .zero
  stateJson : exec.stateJson = ""
  actionJson : exec.actionJson = ""
  fillsJson : exec.fillsJson = ""
  batchResultJson : exec.batchResultJson = ""
  metricsJson : exec.metricsJson = ""
  riskStatus : exec.riskStatus = ""

def ReplayRun.before (r : ReplayRun) (batchId : String) : List ReplayStep :=
  r.steps.takeWhile (fun st => st.batchId ≠ batchId)

section Sessions

variable {sessionId : String} {mode : RewardMode}

/-- The journal entry of the step with a number. -/
def entryOf (sessionId : String) (mode : RewardMode) (batchSeq : Nat) (st : ReplayStep) :
    ReplayStepJournalEntry where
  batchId := st.batchId
  agentLog := agentLog sessionId mode batchSeq st.batchId st.eventTimeMs st.execution
  execution := st.execution

def entriesFrom (sessionId : String) (mode : RewardMode) :
    Nat → List ReplayStep → List ReplayStepJournalEntry
  | _, [] => []
  | batchSeq, st :: steps =>
      entryOf sessionId mode batchSeq st :: entriesFrom sessionId mode (batchSeq + 1) steps

theorem entriesFrom_append (batchSeq : Nat) (steps : List ReplayStep) (st : ReplayStep) :
    entriesFrom sessionId mode batchSeq (steps ++ [st]) =
      entriesFrom sessionId mode batchSeq steps ++
        [entryOf sessionId mode (batchSeq + steps.length) st] := by
  induction steps generalizing batchSeq with
  | nil => rfl
  | cons st' steps ih =>
      rw [List.cons_append, entriesFrom, ih, entriesFrom, List.cons_append, List.length_cons,
        Nat.add_right_comm, Nat.add_assoc]

theorem ids_entriesFrom (batchSeq : Nat) (steps : List ReplayStep) :
    (entriesFrom sessionId mode batchSeq steps).map ReplayStepJournalEntry.batchId =
      steps.map ReplayStep.batchId := by
  induction steps generalizing batchSeq with
  | nil => rfl
  | cons st steps ih =>
      rw [entriesFrom, List.map_cons, ih]
      rfl

theorem length_entriesFrom (batchSeq : Nat) (steps : List ReplayStep) :
    (entriesFrom sessionId mode batchSeq steps).length = steps.length := by
  have hids : ((entriesFrom sessionId mode batchSeq steps).map
      ReplayStepJournalEntry.batchId).length = (steps.map ReplayStep.batchId).length := by
    rw [ids_entriesFrom]
  rwa [List.length_map, List.length_map] at hids

theorem takeWhile_entriesFrom (batchId : String) (batchSeq : Nat) (steps : List ReplayStep) :
    (entriesFrom sessionId mode batchSeq steps).takeWhile (fun e => e.batchId ≠ batchId) =
      entriesFrom sessionId mode batchSeq (steps.takeWhile (fun st => st.batchId ≠ batchId)) := by
  induction steps generalizing batchSeq with
  | nil => rfl
  | cons st steps ih =>
      by_cases hid : st.batchId = batchId
      · rw [entriesFrom, List.takeWhile_cons_of_neg (by simp [entryOf, hid]),
          List.takeWhile_cons_of_neg (by simpa using hid)]
        rfl
      · rw [entriesFrom, List.takeWhile_cons_of_pos (by simp [entryOf, hid]),
          List.takeWhile_cons_of_pos (by simpa using hid), ih, entriesFrom]

variable {steps : List ReplayStep}

theorem mem_entriesFrom {batchSeq : Nat} {e : ReplayStepJournalEntry}
    (h : e ∈ entriesFrom sessionId mode batchSeq steps) :
    ∃ seq, batchSeq ≤ seq ∧ ∃ st ∈ steps, e = entryOf sessionId mode seq st := by
  induction steps generalizing batchSeq with
  | nil => cases h
  | cons st steps ih =>
      rcases List.mem_cons.mp h with rfl | hrest
      · exact ⟨batchSeq, le_refl _, st, List.mem_cons_self, rfl⟩
      · obtain ⟨seq, hle, st', hst', rfl⟩ := ih hrest
        exact ⟨seq, Nat.le_of_succ_le hle, st', List.mem_cons_of_mem st hst', rfl⟩

theorem exists_mem_entriesFrom {st : ReplayStep} (h : st ∈ steps) (batchSeq : Nat) :
    ∃ seq, entryOf sessionId mode seq st ∈ entriesFrom sessionId mode batchSeq steps := by
  induction steps generalizing batchSeq with
  | nil => cases h
  | cons st' steps ih =>
      rcases List.mem_cons.mp h with rfl | hrest
      · exact ⟨batchSeq, List.mem_cons_self⟩
      · obtain ⟨seq, hseq⟩ := ih hrest (batchSeq + 1)
        exact ⟨seq, List.mem_cons_of_mem _ hseq⟩

theorem pairwise_batchSeq (batchSeq : Nat) (steps : List ReplayStep) :
    ((entriesFrom sessionId mode batchSeq steps).map
      ReplayStepJournalEntry.agentLog).Pairwise (fun a b => a.batchSeq < b.batchSeq) := by
  induction steps generalizing batchSeq with
  | nil => exact List.Pairwise.nil
  | cons st steps ih =>
      rw [entriesFrom, List.map_cons, List.pairwise_cons]
      refine ⟨?_, ih (batchSeq + 1)⟩
      intro log hlog
      obtain ⟨e, he, rfl⟩ := List.mem_map.mp hlog
      obtain ⟨seq, hle, st', _, rfl⟩ := mem_entriesFrom he
      exact hle

theorem filter_batchSeq (upTo batchSeq : Nat) (steps : List ReplayStep) :
    ((entriesFrom sessionId mode batchSeq steps).map ReplayStepJournalEntry.agentLog).filter
        (fun log => log.batchSeq < upTo) =
      ((entriesFrom sessionId mode batchSeq steps).map ReplayStepJournalEntry.agentLog).take
        (upTo - batchSeq) := by
  induction steps generalizing batchSeq with
  | nil => simp [entriesFrom]
  | cons st steps ih =>
      rw [entriesFrom, List.map_cons]
      by_cases hlt : batchSeq < upTo
      · obtain ⟨n, hn⟩ : ∃ n, upTo - batchSeq = n + 1 := ⟨upTo - batchSeq - 1, by omega⟩
        have hrest : upTo - (batchSeq + 1) = n := by omega
        rw [List.filter_cons_of_pos (by simpa [entryOf, agentLog] using hlt), ih, hrest, hn,
          List.take_succ_cons]
      · have hzero : upTo - batchSeq = 0 := by omega
        have hzero' : upTo - (batchSeq + 1) = 0 := by omega
        rw [List.filter_cons_of_neg (by simpa [entryOf, agentLog] using hlt), ih, hzero, hzero']
        rfl

theorem takeWhile_logs (batchId : String) (batchSeq : Nat) (steps : List ReplayStep) :
    ((entriesFrom sessionId mode batchSeq steps).map ReplayStepJournalEntry.agentLog).takeWhile
        (fun log => log.originalBatchId ≠ batchId) =
      (entriesFrom sessionId mode batchSeq
        (steps.takeWhile (fun st => st.batchId ≠ batchId))).map
          ReplayStepJournalEntry.agentLog := by
  induction steps generalizing batchSeq with
  | nil => rfl
  | cons st steps ih =>
      rw [entriesFrom, List.map_cons]
      by_cases hid : st.batchId = batchId
      · rw [List.takeWhile_cons_of_neg (by simp [entryOf, agentLog, hid]),
          List.takeWhile_cons_of_neg (by simp [hid])]
        rfl
      · rw [List.takeWhile_cons_of_pos (by simp [entryOf, agentLog, hid]),
          List.takeWhile_cons_of_pos (by simp [hid]), ih, entriesFrom, List.map_cons]

/-- A session leaves the entries of its steps, and a row for each of them. -/
theorem foldl_recordStep
    (hne : ∀ st ∈ steps, st.batchId ≠ "") (hnodup : (steps.map ReplayStep.batchId).Nodup) :
    steps.foldl (recordStep sessionId mode) {} =
      { journal := ReplayStepJournal.ofEntries (entriesFrom sessionId mode 0 steps)
        logs :=
          (entriesFrom sessionId mode 0 steps).map ReplayStepJournalEntry.agentLog } := by
  induction steps using List.reverseRecOn with
  | nil => rfl
  | append_singleton steps st ih =>
      have hne' : ∀ st' ∈ steps, st'.batchId ≠ "" := fun st' h' =>
        hne st' (List.mem_append_left _ h')
      rw [List.map_append, List.nodup_append] at hnodup
      have hids : ((entriesFrom sessionId mode 0 steps).map
          ReplayStepJournalEntry.batchId).Nodup := by
        rw [ids_entriesFrom]
        exact hnodup.1
      have hneEntries : ∀ e ∈ entriesFrom sessionId mode 0 steps, e.batchId ≠ "" := by
        intro e he
        obtain ⟨_, _, st', hst', rfl⟩ := mem_entriesFrom he
        exact hne' st' hst'
      have hseq : (ReplayStepJournal.ofEntries
          (entriesFrom sessionId mode 0 steps)).nextBatchSeq = 0 + steps.length := by
        unfold ReplayStepJournal.nextBatchSeq
        rw [ReplayStepJournal.order_ofEntries hneEntries hids, List.length_map,
          length_entriesFrom, Nat.zero_add]
      have hold : ((entriesFrom sessionId mode 0 steps).map
          ReplayStepJournalEntry.agentLog).filter (fun old => old.originalBatchId ≠ st.batchId) =
          (entriesFrom sessionId mode 0 steps).map ReplayStepJournalEntry.agentLog := by
        rw [List.filter_eq_self]
        intro log hlog
        obtain ⟨e, he, rfl⟩ := List.mem_map.mp hlog
        obtain ⟨_, _, st', hst', rfl⟩ := mem_entriesFrom he
        have hother := hnodup.2.2 st'.batchId (List.mem_map_of_mem hst') st.batchId
          (List.mem_map_of_mem List.mem_cons_self)
        exact decide_eq_true hother
      rw [List.foldl_append, ih hne' hnodup.1, List.foldl_cons, entriesFrom_append]
      unfold recordStep
      rw [hseq]
      refine congrArg₂ ReplayWorld.mk ?_ ?_
      · unfold ReplayStepJournal.ofEntries
        rw [List.foldl_append]
        rfl
      · rw [List.map_append]
        exact congrArg (· ++ _) hold

end Sessions

namespace ReplayRun

def entries (r : ReplayRun) : List ReplayStepJournalEntry :=
  entriesFrom r.sessionId r.rewardMode 0 r.steps

def entriesBefore (r : ReplayRun) (batchId : String) : List ReplayStepJournalEntry :=
  entriesFrom r.sessionId r.rewardMode 0 (r.before batchId)

variable (r : ReplayRun) (batchId : String)

theorem world_eq :
    r.world =
      { journal := ReplayStepJournal.ofEntries r.entries
        logs := r.entries.map ReplayStepJournalEntry.agentLog } :=
  foldl_recordStep r.ids_ne r.nodup

theorem ids_nodup : (r.entries.map ReplayStepJournalEntry.batchId).Nodup := by
  unfold entries
  rw [ids_entriesFrom]
  exact r.nodup

theorem entries_ne : ∀ e ∈ r.entries, e.batchId ≠ "" := by
  intro e he
  obtain ⟨_, _, st, hst, rfl⟩ := mem_entriesFrom he
  exact r.ids_ne st hst

theorem entriesBefore_eq :
    r.entries.takeWhile (fun e => e.batchId ≠ batchId) = r.entriesBefore batchId :=
  takeWhile_entriesFrom batchId 0 r.steps

theorem entriesBefore_sublist : (r.entriesBefore batchId).Sublist r.entries := by
  rw [← entriesBefore_eq]
  exact List.takeWhile_sublist _

theorem idsBefore_nodup : ((r.entriesBefore batchId).map ReplayStepJournalEntry.batchId).Nodup :=
  r.ids_nodup.sublist ((r.entriesBefore_sublist batchId).map _)

theorem entriesBefore_ne : ∀ e ∈ r.entriesBefore batchId, e.batchId ≠ "" := fun e he =>
  r.entries_ne e ((r.entriesBefore_sublist batchId).subset he)

theorem contains_iff : r.world.journal.contains batchId = true ↔
    batchId ∈ r.steps.map ReplayStep.batchId := by
  rw [world_eq, ReplayStepJournal.contains,
    ReplayStepJournal.lookup_ofEntries r.entries_ne r.ids_nodup, List.find?_isSome]
  have hids : r.entries.map ReplayStepJournalEntry.batchId = r.steps.map ReplayStep.batchId :=
    ids_entriesFrom 0 r.steps
  rw [← hids, List.mem_map]
  simp only [decide_eq_true_eq]

theorem same_truncated :
    (r.world.journal.truncateFromBatch batchId).Same
      (ReplayStepJournal.ofEntries (r.entriesBefore batchId)) := by
  rw [world_eq, ← entriesBefore_eq]
  exact ReplayStepJournal.same_truncateFromBatch r.entries_ne r.ids_nodup batchId

theorem orderedEntries_truncated :
    (r.world.journal.truncateFromBatch batchId).orderedEntries = r.entriesBefore batchId := by
  rw [(r.same_truncated batchId).orderedEntries]
  exact ReplayStepJournal.orderedEntries_ofEntries (r.entriesBefore_ne batchId)
    (r.idsBefore_nodup batchId)

end ReplayRun

theorem sortBy_of_pairwise {logs : List AgentLogEntry}
    (h : logs.Pairwise (fun a b => a.batchSeq < b.batchSeq)) :
    sortBy AgentLogEntry.batchSeq logs = logs := by
  have hnodup : (logs.map AgentLogEntry.batchSeq).Nodup :=
    List.pairwise_map.mpr (h.imp (fun hlt => hlt.ne))
  exact eq_of_pairwise_lt (pairwise_sortBy AgentLogEntry.batchSeq hnodup) h
    (fun _ => mem_sortBy AgentLogEntry.batchSeq)

theorem trimLogs_zero (batchId : String) (logs : List AgentLogEntry) :
    trimLogs batchId (some 0) logs = [] := by
  induction logs with
  | nil => rfl
  | cons log logs ih =>
      unfold trimLogs
      split
      · rfl
      · rw [if_pos (by simp), ih]

theorem trimLogs_eq_takeWhile {batchId : String} {seq : Option Nat} {logs : List AgentLogEntry}
    (h : ∀ log ∈ logs, ∀ q ∈ seq, log.batchSeq < q) :
    trimLogs batchId seq logs = logs.takeWhile (fun log => log.originalBatchId ≠ batchId) := by
  induction logs with
  | nil => rfl
  | cons log logs ih =>
      have hbelow : seq.any (fun q => q ≤ log.batchSeq) = false := by
        cases seq with
        | none => rfl
        | some q => simpa using h log List.mem_cons_self q rfl
      unfold trimLogs
      by_cases hid : log.originalBatchId = batchId
      · rw [if_pos hid, List.takeWhile_cons_of_neg (by simpa using hid)]
      · rw [if_neg hid, hbelow, if_neg (by decide), List.takeWhile_cons_of_pos (by simpa using hid),
          ih (fun log' hlog' => h log' (List.mem_cons_of_mem log hlog'))]

namespace ReplayRun

variable (r : ReplayRun) (batchId : String)

/-- The rows that the cold restore works with: those of the steps before the batch, as many
as it asks for. -/
theorem ordered_eq (seq : Option Nat) :
    sortBy AgentLogEntry.batchSeq
        (trimLogs batchId seq (readLogsUpTo r.world.logs (seq.getD 4294967295))) =
      ((r.entriesBefore batchId).take (seq.getD 4294967295)).map
        ReplayStepJournalEntry.agentLog := by
  have hlogs : r.world.logs = r.entries.map ReplayStepJournalEntry.agentLog := by
    rw [world_eq]
  have hsorted : ∀ n, ((r.entries.map ReplayStepJournalEntry.agentLog).take n).Pairwise
      (fun a b => a.batchSeq < b.batchSeq) := fun n =>
    (pairwise_batchSeq 0 r.steps).sublist (List.take_sublist n _)
  by_cases hzero : seq.getD 4294967295 = 0
  · have hseq : seq = some 0 := by
      cases seq with
      | none => cases hzero
      | some q => exact congrArg some hzero
    rw [hseq, trimLogs_zero]
    rfl
  · have hfilter : (r.entries.map ReplayStepJournalEntry.agentLog).filter
          (fun log => log.batchSeq < seq.getD 4294967295) =
        (r.entries.map ReplayStepJournalEntry.agentLog).take (seq.getD 4294967295) :=
      filter_batchSeq (seq.getD 4294967295) 0 r.steps
    have hread : readLogsUpTo r.world.logs (seq.getD 4294967295) =
        (r.entries.map ReplayStepJournalEntry.agentLog).take (seq.getD 4294967295) := by
      unfold readLogsUpTo
      rw [if_pos hzero, hlogs, hfilter, sortBy_of_pairwise (hsorted _)]
    have hbelow : ∀ log ∈
        (r.entries.map ReplayStepJournalEntry.agentLog).take (seq.getD 4294967295),
        ∀ q ∈ seq, log.batchSeq < q := by
      intro log hlog q hq
      rw [← hfilter] at hlog
      have hlt := of_decide_eq_true (List.mem_filter.mp hlog).2
      rwa [Option.mem_def.mp hq] at hlt
    have htake : ((r.entries.map ReplayStepJournalEntry.agentLog).take
          (seq.getD 4294967295)).takeWhile (fun log => log.originalBatchId ≠ batchId) =
        ((r.entriesBefore batchId).take (seq.getD 4294967295)).map
          ReplayStepJournalEntry.agentLog := by
      rw [← List.take_takeWhile, List.map_take]
      exact congrArg (List.take _) (takeWhile_logs batchId 0 r.steps)
    rw [hread, trimLogs_eq_takeWhile hbelow, sortBy_of_pairwise]
    rw [← htake]
    exact (hsorted _).sublist (List.takeWhile_sublist _)

end ReplayRun

theorem rehydrate_entryOf_iff (sessionId : String) (mode : RewardMode) (batchSeq : Nat)
    (st : ReplayStep) :
    rehydrate (entryOf sessionId mode batchSeq st).agentLog = entryOf sessionId mode batchSeq st ↔
      st.execution.Rehydratable := by
  obtain ⟨batchId, eventTimeMs, exec⟩ := st
  constructor
  · intro h
    have hexec : (rehydrate (entryOf sessionId mode batchSeq
        ⟨batchId, eventTimeMs, exec⟩).agentLog).execution = exec :=
      congrArg ReplayStepJournalEntry.execution h
    refine ⟨?_, (congrArg BatchExecutionResult.residualNorm hexec).symm,
      (congrArg BatchExecutionResult.vwap hexec).symm,
      (congrArg BatchExecutionResult.executedQty hexec).symm,
      (congrArg BatchExecutionResult.requestedQty hexec).symm,
      (congrArg BatchExecutionResult.executedNotional hexec).symm,
      (congrArg BatchExecutionResult.isWeightedSum hexec).symm,
      (congrArg BatchExecutionResult.isWeight hexec).symm,
      (congrArg BatchExecutionResult.stateJson hexec).symm,
      (congrArg BatchExecutionResult.actionJson hexec).symm,
      (congrArg BatchExecutionResult.fillsJson hexec).symm,
      (congrArg BatchExecutionResult.batchResultJson hexec).symm,
      (congrArg BatchExecutionResult.metricsJson hexec).symm,
      (congrArg BatchExecutionResult.riskStatus hexec).symm⟩
    -- a soft failure sets the flag, and comes back as a hard one
    intro hsoft
    change exec.outcome = .softFailure at hsoft
    have houtcome := congrArg BatchExecutionResult.outcome hexec
    simp [rehydrate, entryOf, agentLog, hsoft] at houtcome
  · intro h
    obtain ⟨outcome, pnl, isValue, fillRate, fillsApplied, solveTimeMs, errorDetails, errorCode,
      failureComponent, residualNorm, vwap, executedQty, requestedQty, executedNotional,
      isWeightedSum, isWeight, stateJson, actionJson, fillsJson, batchResultJson, metricsJson,
      riskStatus⟩ := exec
    obtain ⟨houtcome, rfl, rfl, rfl, rfl, rfl, rfl, rfl, rfl, rfl, rfl, rfl, rfl, rfl⟩ := h
    cases outcome with
    | ok => simp [rehydrate, entryOf, agentLog]
    | softFailure => exact absurd rfl houtcome
    | hardFailure => simp [rehydrate, entryOf, agentLog]

/-- The first entries, each made again from its row, are all the entries exactly when there
are no more of them, and each is kept by its row. -/
theorem ReplayRun.entriesBefore_eq_rehydrated_iff (r : ReplayRun) (batchId : String) (upTo : Nat) :
    r.entriesBefore batchId =
        (((r.entriesBefore batchId).take upTo).map ReplayStepJournalEntry.agentLog).map rehydrate ↔
      (r.before batchId).length ≤ upTo ∧ ∀ st ∈ r.before batchId, st.execution.Rehydratable := by
  have hlength : (r.entriesBefore batchId).length = (r.before batchId).length :=
    length_entriesFrom 0 (r.before batchId)
  rw [List.map_map]
  constructor
  · intro h
    have hle : (r.before batchId).length ≤ upTo := by
      have hlen := congrArg List.length h
      rw [List.length_map, List.length_take] at hlen
      omega
    refine ⟨hle, ?_⟩
    intro st hst
    rw [List.take_of_length_le (hlength.trans_le hle)] at h
    obtain ⟨seq, hseq⟩ : ∃ seq, entryOf r.sessionId r.rewardMode seq st ∈
        r.entriesBefore batchId := exists_mem_entriesFrom hst 0
    have hmap := List.map_eq_map_iff.mp ((List.map_id _).trans h)
    exact (rehydrate_entryOf_iff r.sessionId r.rewardMode seq st).mp (hmap _ hseq).symm
  · rintro ⟨hle, hkept⟩
    rw [List.take_of_length_le (hlength.trans_le hle)]
    refine (List.map_id _).symm.trans (List.map_congr_left (fun e he => ?_))
    obtain ⟨seq, _, st, hst, rfl⟩ := mem_entriesFrom he
    exact ((rehydrate_entryOf_iff r.sessionId r.rewardMode seq st).mpr (hkept st hst)).symm

section Agreement

variable {Λ : Type} (port : ShadowLedger Λ) (ledger : Λ) (ns : String) (r : ReplayRun)
  (batchId : String) (seq : Option Nat)

theorem runWarm_of_notMem (h : batchId ∉ r.steps.map ReplayStep.batchId) :
    runWarm port ledger r.world.journal ns batchId =
      refused ledger r.world.journal false .invalidArgument
        ("journal does not contain target batch_id=" ++ batchId) := by
  have hcontains : r.world.journal.contains batchId = false := by
    rw [← Bool.not_eq_true, r.contains_iff]
    exact h
  unfold runWarm
  rw [if_pos hcontains]

theorem runWarm_of_canRestore (h : batchId ∈ r.steps.map ReplayStep.batchId)
    (hcan : CanRestore port ledger ns batchId) :
    runWarm port ledger r.world.journal ns batchId =
      { ledger := (port.restoreBeforeBatch ledger ns batchId).2
        journal := r.world.journal.truncateFromBatch batchId
        result :=
          { state := restoredState port (port.restoreBeforeBatch ledger ns batchId).2 ns
              ((r.entriesBefore batchId).map ReplayStepJournalEntry.agentLog)
            usedColdPath := false
            restoredSteps := (r.entriesBefore batchId).length } } := by
  have hcontains : r.world.journal.contains batchId = true := (r.contains_iff batchId).mpr h
  unfold runWarm
  rw [if_neg (by rw [hcontains]; decide), if_neg (by rw [hcan.1]; decide)]
  dsimp only
  rw [if_neg (by rw [hcan.2]; decide), r.orderedEntries_truncated, List.length_map]

theorem runCold_of_canRestore (hcan : CanRestore port ledger ns batchId) :
    runCold port ledger {} (readLogsUpTo r.world.logs) ns batchId seq =
      { ledger := (port.restoreBeforeBatch ledger ns batchId).2
        journal := ReplayStepJournal.ofEntries
          ((((r.entriesBefore batchId).take (seq.getD 4294967295)).map
            ReplayStepJournalEntry.agentLog).map rehydrate)
        result :=
          { state := restoredState port (port.restoreBeforeBatch ledger ns batchId).2 ns
              (((r.entriesBefore batchId).take (seq.getD 4294967295)).map
                ReplayStepJournalEntry.agentLog)
            usedColdPath := true
            restoredSteps := ((r.entriesBefore batchId).take (seq.getD 4294967295)).length } } := by
  unfold runCold
  rw [if_neg (by rw [hcan.1]; decide)]
  dsimp only
  rw [if_neg (by rw [hcan.2]; decide), r.ordered_eq, List.length_map]
  rfl

theorem runCold_status_ne (read : Nat → List AgentLogEntry) :
    (runCold port ledger {} read ns batchId seq).result.status ≠ .invalidArgument := by
  unfold runCold
  split
  · rintro ⟨⟩
  · dsimp only
    split
    · rintro ⟨⟩
    · rintro ⟨⟩

theorem agree_of_not_canRestore (sqrt : Double → Double)
    (h : batchId ∈ r.steps.map ReplayStep.batchId) (hcannot : ¬ CanRestore port ledger ns batchId) :
    Agree sqrt (runWarm port ledger r.world.journal ns batchId)
      (runCold port ledger {} (readLogsUpTo r.world.logs) ns batchId seq) := by
  have hcontains : r.world.journal.contains batchId = true := (r.contains_iff batchId).mpr h
  have hended : ∃ (ledger' : Λ) (status : RestoreStatus) (details : String), status ≠ .ok ∧
      runWarm port ledger r.world.journal ns batchId =
        refused ledger' r.world.journal false status details ∧
      runCold port ledger {} (readLogsUpTo r.world.logs) ns batchId seq =
        refused ledger' {} true status details := by
    unfold runWarm runCold
    rw [if_neg (by rw [hcontains]; decide)]
    cases hcheckpoint : port.hasCheckpoint ledger ns batchId with
    | false => exact ⟨_, _, _, by decide, if_pos rfl, if_pos rfl⟩
    | true =>
        have hrestore : (port.restoreBeforeBatch ledger ns batchId).1 = false := by
          cases hrestore : (port.restoreBeforeBatch ledger ns batchId).1 with
          | false => rfl
          | true => exact absurd ⟨hcheckpoint, hrestore⟩ hcannot
        refine ⟨_, _, _, by decide, (if_neg (by decide)).trans (if_pos hrestore),
          (if_neg (by decide)).trans (if_pos hrestore)⟩
  obtain ⟨ledger', status, details, hstatus, hwarm, hcold⟩ := hended
  rw [hwarm, hcold]
  exact ⟨rfl, rfl, fun hok => absurd hok hstatus, fun hok => absurd hok hstatus,
    fun hok => absurd hok hstatus⟩

theorem ids_rehydrated (upTo : Nat) :
    ((((r.entriesBefore batchId).take upTo).map
        ReplayStepJournalEntry.agentLog).map rehydrate).map ReplayStepJournalEntry.batchId =
      ((r.entriesBefore batchId).take upTo).map ReplayStepJournalEntry.batchId := by
  rw [List.map_map, List.map_map]
  refine List.map_congr_left (fun e he => ?_)
  obtain ⟨_, _, _, _, rfl⟩ := mem_entriesFrom (List.mem_of_mem_take he)
  rfl

/-- Where the ledger goes back, the restores agree exactly when the cold one asks for all
steps before the batch and the agent log keeps each of them. -/
theorem agree_iff_of_canRestore (sqrt : Double → Double)
    (h : batchId ∈ r.steps.map ReplayStep.batchId) (hcan : CanRestore port ledger ns batchId) :
    Agree sqrt (runWarm port ledger r.world.journal ns batchId)
        (runCold port ledger {} (readLogsUpTo r.world.logs) ns batchId seq) ↔
      (r.before batchId).length ≤ seq.getD 4294967295 ∧
        ∀ st ∈ r.before batchId, st.execution.Rehydratable := by
  rw [runWarm_of_canRestore port ledger ns r batchId h hcan,
    runCold_of_canRestore port ledger ns r batchId seq hcan,
    ← r.entriesBefore_eq_rehydrated_iff]
  have hwarm := r.same_truncated batchId
  constructor
  · intro hagree
    have hids := ids_rehydrated r batchId (seq.getD 4294967295)
    have hsub : ((r.entriesBefore batchId).take (seq.getD 4294967295)).Sublist
        (r.entriesBefore batchId) := List.take_sublist _ _
    have hnodup := (r.idsBefore_nodup batchId).sublist (hsub.map ReplayStepJournalEntry.batchId)
    rw [← hids] at hnodup
    refine (ReplayStepJournal.same_ofEntries_iff (r.entriesBefore_ne batchId)
      (r.idsBefore_nodup batchId) ?_ hnodup).mp (hwarm.symm.trans (hagree.journal rfl))
    intro e he
    have hid : e.batchId ∈ ((r.entriesBefore batchId).take (seq.getD 4294967295)).map
        ReplayStepJournalEntry.batchId := hids ▸ List.mem_map_of_mem he
    obtain ⟨e', he', hsame⟩ := List.mem_map.mp hid
    rw [← hsame]
    exact r.entriesBefore_ne batchId e' (List.mem_of_mem_take he')
  · intro hkept
    have hlogs : (r.entriesBefore batchId).map ReplayStepJournalEntry.agentLog =
        ((r.entriesBefore batchId).take (seq.getD 4294967295)).map
          ReplayStepJournalEntry.agentLog := by
      have hmap := congrArg (List.map ReplayStepJournalEntry.agentLog) hkept
      rwa [List.map_map (g := ReplayStepJournalEntry.agentLog) (f := rehydrate),
        show ReplayStepJournalEntry.agentLog ∘ rehydrate = id from rfl, List.map_id] at hmap
    rw [hkept] at hwarm
    exact ⟨rfl, rfl, fun _ => congrArg (restoredState port _ ns) hlogs, fun _ => hwarm,
      fun _ later sessionId totalBatches avgisRule decisionPriceSource =>
        (hwarm.foldl_upsert later).buildSummary sqrt sessionId totalBatches avgisRule
          decisionPriceSource⟩

/-- Warm and cold restore agree exactly when the batch was run and either the ledger does not
go back, or the cold restore asks for all steps before it and the agent log keeps them. -/
theorem agree_iff (sqrt : Double → Double) :
    Agree sqrt (runWarm port ledger r.world.journal ns batchId)
        (runCold port ledger {} (readLogsUpTo r.world.logs) ns batchId seq) ↔
      batchId ∈ r.steps.map ReplayStep.batchId ∧
        (CanRestore port ledger ns batchId →
          (r.before batchId).length ≤ seq.getD 4294967295 ∧
            ∀ st ∈ r.before batchId, st.execution.Rehydratable) := by
  by_cases h : batchId ∈ r.steps.map ReplayStep.batchId
  · rw [and_iff_right h]
    by_cases hcan : CanRestore port ledger ns batchId
    · rw [agree_iff_of_canRestore port ledger ns r batchId seq sqrt h hcan]
      exact ⟨fun hkept _ => hkept, fun hkept => hkept hcan⟩
    · exact iff_of_true (agree_of_not_canRestore port ledger ns r batchId seq sqrt h hcan)
        (fun hcan' => absurd hcan' hcan)
  · refine iff_of_false (fun hagree => ?_) (fun hboth => h hboth.1)
    have hstatus := hagree.status
    rw [runWarm_of_notMem port ledger ns r batchId h] at hstatus
    exact runCold_status_ne port ledger ns batchId seq _ hstatus.symm

end Agreement

/-- A session of a step that filled half of what it asked for, a step that failed softly, and
the batch to go back to. -/
def threeBatches : ReplayRun where
  sessionId := "s"
  steps :=
    [{ batchId := "b1",
       execution := { executedQty := .num 1, requestedQty := .num 2, fillsApplied := 1 } },
      { batchId := "b2", execution := { outcome := .softFailure, errorCode := "no_md" } },
      { batchId := "b3", execution := {} }]
  nodup := by decide
  ids_ne := by decide
  length_le := by decide

/-- A ledger that can go back to before the third batch. -/
def threeCheckpoints : Table String NamespaceEntry :=
  (∅ : Table String NamespaceEntry).insert "ns"
    { appliedBatchOrder := ["b1", "b2", "b3"]
      checkpoints := (∅ : Table String ShadowLedgerNamespaceState).insert "b3" {} }

/-- The cold restore loses the quantities of the first step and turns the soft failure into a
hard one. -/
theorem cold_restore_differs :
    ¬ Agree (fun x => x)
        (runWarm inMemoryShadowLedger threeCheckpoints threeBatches.world.journal "ns" "b3")
        (runCold inMemoryShadowLedger threeCheckpoints {}
          (readLogsUpTo threeBatches.world.logs) "ns" "b3" (some 2)) ∧
      ((runWarm inMemoryShadowLedger threeCheckpoints threeBatches.world.journal "ns"
        "b3").journal.orderedEntries.map (fun e => (e.execution.outcome, e.execution.requestedQty)) =
          [(.ok, .num 2), (.softFailure, .num 0)]) ∧
      ((runCold inMemoryShadowLedger threeCheckpoints {} (readLogsUpTo threeBatches.world.logs)
        "ns" "b3" (some 2)).journal.orderedEntries.map
          (fun e => (e.execution.outcome, e.execution.requestedQty)) =
            [(.ok, .num 0), (.hardFailure, .num 0)]) := by
  refine ⟨?_, by decide +kernel, by decide +kernel⟩
  intro h
  have hordered := (h.journal (by decide +kernel)).orderedEntries
  exact absurd hordered (by decide +kernel)

end Backtest
end ContExchange
