import ContExchange.Backtest.ReplayJournal
import ContExchange.Lib.Runs

/-!
# Backtest: replay sessions

`RunReplaySession` runs the batches of a session one after the other and
`CancelReplaySession` stops a session.  Both work on the same row of the repository, on the
same set of cancelled sessions and on the same publisher, and several calls can be under way
at once.

* `ReplayShared`: the row of one session, its token, its summary and its events;
* `RunReplaySession.step`: one step of `RunReplaySession::Run`, from one read or write to the
  next;
* `CancelReplaySession.step`: one step of `CancelReplaySession::Run`;
* `ReplaySystem.step`: one call takes a step.

What a call waits for behind other ports comes in with the step.  The counters of 32 bits are
natural numbers, and times and metrics are left out.
-/

namespace ContExchange
namespace Backtest

open Common Lib

inductive ReplaySessionStatus where
  | pending
  | running
  | completed
  | failed
  | cancelled
deriving DecidableEq

/-- `StatusToString`. -/
def ReplaySessionStatus.text : ReplaySessionStatus → String
  | .pending => "pending"
  | .running => "running"
  | .completed => "completed"
  | .failed => "failed"
  | .cancelled => "cancelled"

def ReplaySessionStatus.terminal : ReplaySessionStatus → Bool
  | .pending | .running => false
  | .completed | .failed | .cancelled => true

/-- `ReplaySession`, as far as the two calls use it. -/
structure ReplaySession where
  userId : String := ""
  strategyJson : String := ""
  status : ReplaySessionStatus := .pending
  totalBatches : Option Int := none
  progressBatches : Int := 0
  errorDetails : Option String := none
deriving DecidableEq

structure ReplaySessionStatePatch where
  status : Option ReplaySessionStatus := none
  totalBatches : Option Int := none
  progressBatches : Option Int := none
  errorDetails : Option String := none
deriving DecidableEq

/-- The row after `UpdateState`. -/
def ReplaySession.updated (session : ReplaySession) (patch : ReplaySessionStatePatch) :
    ReplaySession :=
  { session with
    status := patch.status.getD session.status
    totalBatches := patch.totalBatches.or session.totalBatches
    progressBatches := patch.progressBatches.getD session.progressBatches
    errorDetails := patch.errorDetails.or session.errorDetails }

def ReplaySession.storedTotalBatches (session : ReplaySession) (fallback : Nat) : Nat :=
  match session.totalBatches with
  | some total => if 0 < total then total.toNat else fallback
  | none => fallback

def ReplaySession.storedProgressBatches (session : ReplaySession) : Nat :=
  if 0 < session.progressBatches then session.progressBatches.toNat else 0

/-- `ReplaySummary`, as it is saved and published. -/
structure SavedSummary extends ReplaySummary where
  isPartial : Bool
deriving DecidableEq

/-- A summary without steps, for a session that did not run. -/
def emptySummary (sessionId : String) (totalBatches processedBatches : Nat) (isPartial : Bool) :
    SavedSummary where
  sessionId := sessionId
  totalBatches := totalBatches
  processedBatches := processedBatches
  avgisRule := "volume_weighted"
  decisionPriceSource := "marketdata_mid_with_clearprice_fallback"
  isPartial := isPartial

inductive ReplayLifecycleStatus where
  | running
  | completed
  | failed
  | cancelled
deriving DecidableEq

def ReplaySessionStatus.toLifecycle : ReplaySessionStatus → ReplayLifecycleStatus
  | .completed => .completed
  | .failed => .failed
  | .cancelled => .cancelled
  | .pending | .running => .running

/-- `ReplayProgressEvent` and `ReplayLifecycleEvent`. -/
inductive ReplayEvent where
  | progress (batchSeq totalBatches : Nat)
  | lifecycle (status : ReplayLifecycleStatus) (summary : Option SavedSummary)
      (errorDetails errorCode : Option String)
deriving DecidableEq

/-- The event says that the session is over. -/
def ReplayEvent.terminal : ReplayEvent → Bool
  | .progress _ _ => false
  | .lifecycle status _ _ _ => status ≠ .running

/-- What calls on one session share: its row, whether its id is in `cancelled_session_ids_`,
its summary and the events that were published. -/
structure ReplayShared where
  session : Option ReplaySession := none
  cancelled : Bool := false
  summary : Option SavedSummary := none
  events : List ReplayEvent := []
deriving DecidableEq

/-- One write of a call. -/
inductive ReplayAction where
  | updateState (patch : ReplaySessionStatePatch)
  | saveSummary (summary : SavedSummary)
  | publish (event : ReplayEvent)
deriving DecidableEq

/-- What a write does. -/
def ReplayAction.apply (sh : ReplayShared) : ReplayAction → ReplayShared
  | .updateState patch => { sh with session := sh.session.map (·.updated patch) }
  | .saveSummary summary => { sh with summary := some summary }
  | .publish event => { sh with events := sh.events ++ [event] }

/-- `HistoricalBatch`, as far as `RunReplaySession` reads it. -/
structure HistoricalBatch where
  batchId : String
  eventTimeMs : Int := 0
  fillsCount : Nat := 0
  fills : Nat := 0
deriving DecidableEq

/-- What stands behind the restore of a repeated batch. -/
inductive ReplayRestore where
  | restoreState
  | shadowLedger
  | missing
deriving DecidableEq

/-- A call of `RunReplaySession::Run`: its session, what it is set up with, the first error of
its checks up to the shadow namespace, and the history that it loads. -/
structure ReplayRequest where
  sessionId : String
  restore : ReplayRestore := .shadowLedger
  initError : Option (String × String) := none
  history : List HistoricalBatch
  rewardMode : RewardMode := .incrementalPnl
  avgisRule : String := "volume_weighted"
  decisionPriceSource : String := "marketdata_mid_with_clearprice_fallback"
  sqrt : Double → Double

/-- What comes back from the ports while a batch is run: from `RestoreState`, from
`GetCheckpoint` and `RestoreBeforeBatch`, from `ExecuteBatch` and from `WriteAgentLog`. -/
structure BatchAnswers where
  restoreError : Option String := none
  hasCheckpoint : Bool := true
  restored : Bool := true
  execution : BatchExecutionResult := {}
  logError : Option String := none
deriving DecidableEq

/-- `RunReplaySession::Result`. -/
structure ReplayResult where
  finalStatus : ReplaySessionStatus
  summary : SavedSummary
  errorDetails : String := ""
  errorCode : String := ""
deriving DecidableEq

/-- Where `RunReplaySession::Run` returns. -/
inductive RunEnd where
  | skipped
  | failedFromInit
  | cancelledBeforeRunning
  | replayed (journal : ReplayStepJournal)

/-- How far a call of `RunReplaySession::Run` has come. -/
inductive RunPc where
  | load
  | checkStart (session : ReplaySession)
  | recheck
  | checkLoaded
  | loop (rest : List HistoricalBatch) (journal : ReplayStepJournal)
  | doing (action : ReplayAction) (next : RunPc)
  | finished (runEnd : RunEnd) (result : ReplayResult)

/-- Some writes, then the rest of the call. -/
def RunPc.after (actions : List ReplayAction) (next : RunPc) : RunPc :=
  actions.foldr RunPc.doing next

namespace RunReplaySession

def composeError (errorCode errorDetails : String) : String :=
  if errorCode = "" then errorDetails
  else if errorDetails = "" then errorCode
  else errorCode ++ ": " ++ errorDetails

def validateBatchInputs (batch : HistoricalBatch) : Option BatchExecutionResult :=
  if batch.batchId = "" then
    some
      { outcome := .hardFailure
        errorCode := "history_corrupt"
        errorDetails := composeError "history_corrupt" "historical batch_id is empty"
        failureComponent := .history }
  else if 0 < batch.fillsCount ∧ batch.fills < batch.fillsCount then
    some
      { outcome := .softFailure
        errorCode := "history_incomplete"
        errorDetails :=
          composeError "history_incomplete"
            ("historical fills missing for batch_id=" ++ batch.batchId)
        failureComponent := .history }
  else none

def batchIds (req : ReplayRequest) : List String :=
  req.history.map HistoricalBatch.batchId

/-- `CountUniqueBatchIds`. -/
def totalBatches (req : ReplayRequest) : Nat :=
  (batchIds req).eraseDups.length

def failFromInit (req : ReplayRequest) (errorCode error : String) : RunPc :=
  let details := composeError errorCode error
  let summary := emptySummary req.sessionId 0 0 true
  .after
    [.updateState { status := some .failed, errorDetails := some details },
      .saveSummary summary,
      .publish
        (.lifecycle .failed (some summary) (some details)
          (if errorCode ≠ "" then some errorCode else none))]
    (.finished .failedFromInit
      { finalStatus := .failed, summary, errorDetails := details })

def terminalSkip (req : ReplayRequest) (session : ReplaySession) (totalFallback : Nat) : RunPc :=
  .finished .skipped
    { finalStatus := session.status
      summary :=
        emptySummary req.sessionId (session.storedTotalBatches totalFallback)
          session.storedProgressBatches (session.status ≠ .completed)
      errorDetails := session.errorDetails.getD "Replay session is already in terminal status" }

def cancelBeforeRunning (req : ReplayRequest) (totalBatches processedBatches : Nat)
    (details : String) : RunPc :=
  let summary := emptySummary req.sessionId totalBatches processedBatches true
  let details :=
    if details = "" then "Replay session was cancelled before running" else details
  .after
    [.updateState
        { status := some .cancelled
          progressBatches := some processedBatches
          errorDetails := some details },
      .saveSummary summary,
      .publish (.lifecycle .cancelled (some summary) (some details) (some "cancelled"))]
    (.finished .cancelledBeforeRunning
      { finalStatus := .cancelled, summary, errorDetails := details, errorCode := "cancelled" })

/-- The end of `Run`: the summary of the journal, the last status and its event. -/
def finish (req : ReplayRequest) (journal : ReplayStepJournal) (finalStatus : ReplaySessionStatus)
    (errorCode errorDetails : String) : RunPc :=
  let summary :=
    journal.buildSummary req.sqrt req.sessionId (totalBatches req) req.avgisRule
      req.decisionPriceSource
  let short := decide (journal.order.length < totalBatches req)
  let saved : SavedSummary :=
    { summary with
      isPartial :=
        match finalStatus with
        | .failed => true
        | .cancelled => short
        | _ => decide (0 < summary.failedBatches) || short }
  .after
    [.saveSummary saved,
      .updateState
        { status := some finalStatus
          progressBatches := some journal.order.length
          errorDetails := if errorDetails ≠ "" then some errorDetails else none },
      .publish
        (.lifecycle finalStatus.toLifecycle (some saved)
          (if errorDetails ≠ "" then some errorDetails else none)
          (if errorCode ≠ "" then some errorCode else none))]
    (.finished (.replayed journal)
      { finalStatus, summary := saved, errorDetails, errorCode })

/-- A repeated batch: the journal to go on with, or why the session fails. -/
def restartBatch (req : ReplayRequest) (ans : BatchAnswers) (journal : ReplayStepJournal)
    (batchId : String) : Except (String × String) ReplayStepJournal :=
  if journal.contains batchId then
    match req.restore with
    | .restoreState =>
        match ans.restoreError with
        | some details =>
            .error ("restore_state_failed",
              "RestoreState failed for batch_id=" ++ batchId ++ ": " ++ details)
        | none => .ok journal
    | .missing =>
        .error ("shadow_ledger_missing",
          "Replay restart requires shadow_ledger dependency for duplicate batch_id=" ++ batchId)
    | .shadowLedger =>
        if ans.hasCheckpoint && !ans.restored then
          .error ("shadow_namespace_restore_failed",
            "Failed to restore shadow namespace before batch_id=" ++ batchId)
        else .ok (journal.truncateFromBatch batchId)
  else .ok journal

def batchExecution (ans : BatchAnswers) (batch : HistoricalBatch) : BatchExecutionResult :=
  (validateBatchInputs batch).getD ans.execution

/-- The step that the journal keeps of a batch. -/
def journalEntry (req : ReplayRequest) (ans : BatchAnswers) (journal : ReplayStepJournal)
    (batch : HistoricalBatch) : ReplayStepJournalEntry where
  batchId := batch.batchId
  agentLog :=
    agentLog req.sessionId req.rewardMode journal.nextBatchSeq batch.batchId batch.eventTimeMs
      (batchExecution ans batch)
  execution := batchExecution ans batch

/-- The body of the loop, for a batch and those after it. -/
def runBatch (req : ReplayRequest) (ans : BatchAnswers) (batch : HistoricalBatch)
    (rest : List HistoricalBatch) (journal : ReplayStepJournal) : RunPc :=
  match restartBatch req ans journal batch.batchId with
  | .error (errorCode, details) => finish req journal .failed errorCode details
  | .ok journal =>
      match ans.logError with
      | some what =>
          finish req journal .failed "agentlog_write_failed"
            (composeError "agentlog_write_failed" ("AgentLog write failure: " ++ what))
      | none =>
          let exec := batchExecution ans batch
          let journal' := journal.upsert (journalEntry req ans journal batch)
          match exec.outcome with
          | .hardFailure =>
              finish req journal' .failed exec.errorCode
                (composeError exec.errorCode
                  (if exec.errorDetails = "" then "Hard failure on batch" else exec.errorDetails))
          | .softFailure | .ok =>
              .after
                [.publish (.progress journal'.order.length (totalBatches req)),
                  .updateState { progressBatches := some journal'.order.length }]
                (.loop rest journal')

/-- `Run` after its first read of the session. -/
def loaded (req : ReplayRequest) : Option ReplaySession → RunPc
  | none => failFromInit req "session_not_found" "Session not found"
  | some session =>
      if session.status.terminal then terminalSkip req session 0 else .checkStart session

/-- `Run` after the first look at the token: the checks and the history. -/
def started (req : ReplayRequest) : RunPc :=
  match req.initError with
  | some (errorCode, error) => failFromInit req errorCode error
  | none =>
      if totalBatches req = 0 then
        failFromInit req "no_data" "No historical batches loaded for requested range"
      else .recheck

/-- `Run` after its second read of the session. -/
def rechecked (req : ReplayRequest) : Option ReplaySession → RunPc
  | none => .checkLoaded
  | some session =>
      if session.status = .cancelled then
        cancelBeforeRunning req (session.storedTotalBatches (totalBatches req))
          session.storedProgressBatches
          (session.errorDetails.getD "Replay session was cancelled before running")
      else if session.status.terminal then terminalSkip req session (totalBatches req)
      else .checkLoaded

/-- `Run` from the transition to running to its loop. -/
def enterLoop (req : ReplayRequest) : RunPc :=
  .after
    [.updateState
        { status := some .running
          totalBatches := some (totalBatches req)
          progressBatches := some 0 },
      .publish (.lifecycle .running none none none)]
    (.loop req.history {})

/-- One step of `RunReplaySession::Run`. -/
def step (req : ReplayRequest) (ans : BatchAnswers) (sh : ReplayShared) :
    RunPc → RunPc × ReplayShared
  | .load => (loaded req sh.session, sh)
  | .checkStart session =>
      if sh.cancelled then
        (cancelBeforeRunning req (session.storedTotalBatches 0) session.storedProgressBatches
          (session.errorDetails.getD "Replay session was cancelled before start"), sh)
      else (started req, sh)
  | .recheck => (rechecked req sh.session, sh)
  | .checkLoaded =>
      if sh.cancelled then
        (cancelBeforeRunning req (totalBatches req) 0
          "Replay session was cancelled before running", sh)
      else (enterLoop req, sh)
  | .loop [] journal => (finish req journal .completed "" "", sh)
  | .loop (batch :: rest) journal =>
      if sh.cancelled then (finish req journal .cancelled "" "", sh)
      else (runBatch req ans batch rest journal, sh)
  | .doing action next => (next, action.apply sh)
  | .finished runEnd result => (.finished runEnd result, sh)

end RunReplaySession

/-- `CancelReplaySession::Request`, without the session. -/
structure CancelRequest where
  requestedBy : Option String := none
  reason : Option String := none
deriving DecidableEq

/-- `CancelReplaySession::Result`. -/
structure CancelResult where
  ok : Bool
  session : ReplaySession := {}
  cancellationDispatched : Bool := false
  errorCode : String := ""
  errorMessage : String := ""
deriving DecidableEq

/-- How far a call of `CancelReplaySession::Run` has come. -/
inductive CancelPc where
  | load (request : CancelRequest)
  | signal (request : CancelRequest) (session : ReplaySession)
  | doing (action : ReplayAction) (next : CancelPc)
  | finished (result : CancelResult)
deriving DecidableEq

/-- Some writes, then the rest of the call. -/
def CancelPc.after (actions : List ReplayAction) (next : CancelPc) : CancelPc :=
  actions.foldr CancelPc.doing next

namespace CancelReplaySession

def buildErrorDetails (request : CancelRequest) : String :=
  let detail := "cancelled"
  let detail :=
    match request.requestedBy with
    | some user => if user ≠ "" then detail ++ " by user: " ++ user else detail
    | none => detail
  match request.reason with
  | some reason => if reason ≠ "" then detail ++ ": " ++ reason else detail
  | none => detail

/-- `CancelReplaySession::Run` after its read of the session. -/
def loaded (request : CancelRequest) : Option ReplaySession → CancelPc
  | none =>
      .finished { ok := false, errorCode := "not_found", errorMessage := "Replay session not found" }
  | some session =>
      match session.status with
      | .cancelled => .finished { ok := true, session }
      | .pending | .running => .signal request session
      | .completed | .failed =>
          .finished
            { ok := false
              errorCode := "invalid_status"
              errorMessage := "Cannot cancel session in status: " ++ session.status.text }

/-- `CancelReplaySession::Run` after it has set the token. -/
def signalled (sessionId : String) (request : CancelRequest) (session : ReplaySession) : CancelPc :=
  if session.status = .pending then
    let details := buildErrorDetails request
    let cancelled := { session with status := .cancelled, errorDetails := some details }
    let summary := emptySummary sessionId (session.storedTotalBatches 0) 0 true
    .after
      [.updateState { status := some .cancelled, errorDetails := some details },
        .saveSummary summary,
        .publish (.lifecycle .cancelled (some summary) (some details) (some "cancelled"))]
      (.finished { ok := true, session := cancelled })
  else .finished { ok := true, session, cancellationDispatched := true }

/-- One step of `CancelReplaySession::Run`. -/
def step (sessionId : String) (sh : ReplayShared) : CancelPc → CancelPc × ReplayShared
  | .load request => (loaded request sh.session, sh)
  | .signal request session => (signalled sessionId request session, { sh with cancelled := true })
  | .doing action next => (next, action.apply sh)
  | .finished result => (.finished result, sh)

end CancelReplaySession

/-- A call that runs a session, calls that cancel it, and what they share. -/
structure ReplaySystem where
  shared : ReplayShared
  run : RunPc
  cancels : List CancelPc

/-- Who takes the next step. -/
inductive ReplayTurn where
  | run (ans : BatchAnswers)
  | cancel (i : Nat)
deriving DecidableEq

namespace ReplaySystem

/-- The calls have just been made. -/
def start (session : Option ReplaySession) (requests : List CancelRequest) : ReplaySystem where
  shared := { session }
  run := .load
  cancels := requests.map CancelPc.load

/-- One call takes a step. -/
def step (req : ReplayRequest) (s : ReplaySystem) : ReplayTurn → ReplaySystem
  | .run ans =>
      let next := RunReplaySession.step req ans s.shared s.run
      { s with run := next.1, shared := next.2 }
  | .cancel i =>
      match s.cancels[i]? with
      | none => s
      | some pc =>
          let next := CancelReplaySession.step req.sessionId s.shared pc
          { s with cancels := s.cancels.set i next.1, shared := next.2 }

end ReplaySystem

end Backtest
end ContExchange
