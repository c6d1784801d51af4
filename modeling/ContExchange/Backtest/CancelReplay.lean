import ContExchange.Backtest.ReplaySession
import ContExchange.Lib.Loops

/-!
# Backtest: cancelling while a session runs

A session is over when its status is terminal, and the parties that read the events of a
session expect to hear of that once.  A run and any number of cancels share the row of the
session without a lock: each of them reads it, decides, and writes later.

* `ReplaySystem.isOver`: the status is terminal;
* `Orderly`: no cancel finds a pending session while another call is about to write it, and
  none signals a run that will not look at its token again;
* `Settled`: the invariant of orderly steps;
* `cancel_safe`: when all steps are orderly, a terminal status stays, at most one terminal
  event is published, and a session whose cancel was accepted does not complete;
* `cancel_overtaken`: a run that is not orderly.
-/

namespace ContExchange
namespace Backtest

open Common Lib
open CancelReplaySession hiding loaded step
open RunReplaySession hiding loaded step
open List hiding getElem?_eq_some_iff map_id map_map
open Option hiding map map_id map_map

def ReplayAction.status : ReplayAction → Option ReplaySessionStatus
  | .updateState patch => patch.status
  | .saveSummary _ | .publish _ => none

def ReplayAction.owed : ReplayAction → Nat
  | .publish event => if event.terminal then 1 else 0
  | .updateState _ | .saveSummary _ => 0

namespace RunPc

/-- The terminal events that a run will publish. -/
def owed : RunPc → Nat
  | .load | .finished _ _ => 0
  | .checkStart _ | .recheck | .checkLoaded | .loop _ _ => 1
  | .doing action next => action.owed + next.owed

/-- The run has a status to write that it has decided on, or will decide on without a fresh
start. -/
def writes : RunPc → Bool
  | .load | .finished _ _ => false
  | .checkStart _ | .recheck | .checkLoaded | .loop _ _ => true
  | .doing action next => action.status.isSome || next.writes

/-- The run looks at its token again before it completes, or does not complete. -/
def looksAgain : RunPc → Bool
  | .load | .checkStart _ | .recheck | .checkLoaded | .loop (_ :: _) _ => true
  | .loop [] _ => false
  | .doing action next => action.status ≠ some .completed && next.looksAgain
  | .finished _ result => result.finalStatus ≠ .completed

/-- The run has not read the session yet. -/
def atLoad : RunPc → Bool
  | .load => true
  | _ => false

/-- After a terminal status a run writes no other, and it publishes its event after that. -/
def Sound : RunPc → Prop
  | .doing action next =>
      (∀ status ∈ action.status,
          next.writes = !status.terminal ∧ (status = .completed → next.looksAgain = false)) ∧
        (action.owed ≠ 0 → next.writes = false) ∧ next.atLoad = false ∧ next.Sound
  | _ => True

end RunPc

namespace CancelPc

/-- The terminal events that a cancel will publish. -/
def owed : CancelPc → Nat
  | .load _ | .finished _ => 0
  | .signal _ session => if session.status = .pending then 1 else 0
  | .doing action next => action.owed + next.owed

/-- The cancel has found the session pending and has not written it yet. -/
def writes : CancelPc → Bool
  | .load _ | .finished _ => false
  | .signal _ session => session.status = .pending
  | .doing action next => action.status.isSome || next.writes

def accepted : CancelPc → Bool
  | .load _ | .signal _ _ => false
  | .doing _ next => next.accepted
  | .finished result => result.ok

/-- The cancel is about to set the token. -/
def signals : CancelPc → Bool
  | .signal _ _ => true
  | _ => false

/-- A cancel writes one status, and publishes its event after that. -/
def Sound : CancelPc → Prop
  | .doing action next =>
      (∀ status ∈ action.status,
          status = .cancelled ∧ next.writes = false ∧ next.owed ≠ 0) ∧
        (action.owed ≠ 0 → next.writes = false) ∧ next.signals = false ∧ next.Sound
  | _ => True

end CancelPc

namespace ReplaySystem

def status (s : ReplaySystem) : Option ReplaySessionStatus :=
  s.shared.session.map ReplaySession.status

def isOver (s : ReplaySystem) : Bool :=
  s.status.any ReplaySessionStatus.terminal

def terminalEvents (s : ReplaySystem) : Nat :=
  s.shared.events.countP ReplayEvent.terminal

def accepted (s : ReplaySystem) : Bool :=
  s.cancels.any CancelPc.accepted

/-- No cancel has found the session pending without having written it. -/
def Undisturbed (s : ReplaySystem) : Prop :=
  ∀ c ∈ s.cancels, c.writes = false

instance (s : ReplaySystem) : Decidable s.Undisturbed :=
  inferInstanceAs (Decidable (∀ c ∈ s.cancels, c.writes = false))

end ReplaySystem

open ReplaySystem

/-- A cancel finds the session pending only while no other call has a status to write, and
signals a run only as long as that looks at its token again before it completes. -/
def CancelPc.Orderly (s : ReplaySystem) : CancelPc → Prop
  | .load _ => s.status = some .pending → s.run.atLoad = true ∧ s.Undisturbed
  | .signal _ session => session.status ≠ .pending → s.run.looksAgain = true
  | .doing _ _ | .finished _ => True

instance (s : ReplaySystem) : DecidablePred (CancelPc.Orderly s)
  | .load _ => inferInstanceAs (Decidable (_ → _))
  | .signal _ _ => inferInstanceAs (Decidable (_ → _))
  | .doing _ _ | .finished _ => isTrue trivial

/-- The same, and a run reads the session for the first time only while no cancel has a status
to write. -/
def Orderly (s : ReplaySystem) : ReplayTurn → Prop
  | .run _ => s.run.atLoad = true → s.Undisturbed
  | .cancel i => ∀ c ∈ s.cancels[i]?, c.Orderly s

instance (s : ReplaySystem) : DecidablePred (Orderly s)
  | .run _ => inferInstanceAs (Decidable (_ → _))
  | .cancel i => inferInstanceAs (Decidable (∀ c ∈ s.cancels[i]?, c.Orderly s))

section Writes

variable {sh : ReplayShared} {action : ReplayAction}

theorem ReplayAction.status_apply (sh : ReplayShared) (action : ReplayAction) :
    (action.apply sh).session.map ReplaySession.status =
      (sh.session.map ReplaySession.status).map action.status.getD := by
  cases action with
  | updateState patch =>
      unfold ReplayAction.apply ReplayAction.status
      rw [Option.map_map, Option.map_map]
      rfl
  | saveSummary summary =>
      change _ = Option.map id _
      rw [Option.map_id]
      rfl
  | publish event =>
      change _ = Option.map id _
      rw [Option.map_id]
      rfl

theorem ReplayAction.events_apply (sh : ReplayShared) (action : ReplayAction) :
    (action.apply sh).events.countP ReplayEvent.terminal =
      sh.events.countP ReplayEvent.terminal + action.owed := by
  cases action with
  | updateState patch => rfl
  | saveSummary summary => rfl
  | publish event =>
      unfold ReplayAction.apply ReplayAction.owed
      rw [countP_append, countP_singleton]

theorem ReplayAction.cancelled_apply (sh : ReplayShared) (action : ReplayAction) :
    (action.apply sh).cancelled = sh.cancelled := by
  cases action <;> rfl

theorem ReplayAction.status_eq_none (h : action.owed ≠ 0) : action.status = none := by
  cases action with
  | updateState patch => exact absurd rfl h
  | saveSummary summary => rfl
  | publish event => rfl

end Writes

namespace RunPc

/-- The run has a status to write and then one terminal event to publish. -/
structure Busy (pc : RunPc) : Prop where
  owed : pc.owed = 1
  writes : pc.writes = true
  atLoad : pc.atLoad = false
  sound : pc.Sound

theorem owed_of_atLoad {pc : RunPc} (h : pc.atLoad = true) : pc.owed = 0 ∧ pc.writes = false ∧
    pc.looksAgain = true := by
  cases pc with
  | load => exact ⟨rfl, rfl, rfl⟩
  | checkStart session => cases h
  | recheck => cases h
  | checkLoaded => cases h
  | loop rest journal => cases h
  | doing action next => cases h
  | finished runEnd result => cases h

end RunPc

namespace RunReplaySession

open RunPc

variable (req : ReplayRequest)

theorem busy_failFromInit (errorCode error : String) :
    (failFromInit req errorCode error).Busy ∧
      (failFromInit req errorCode error).looksAgain = true := by
  unfold failFromInit RunPc.after
  refine ⟨⟨rfl, rfl, rfl, ?_⟩, rfl⟩
  simp [Sound, RunPc.writes, RunPc.atLoad, ReplayAction.status, ReplayAction.owed,
    ReplaySessionStatus.terminal]

theorem busy_cancelBeforeRunning (totalBatches processedBatches : Nat) (details : String) :
    (cancelBeforeRunning req totalBatches processedBatches details).Busy ∧
      (cancelBeforeRunning req totalBatches processedBatches details).looksAgain = true := by
  unfold cancelBeforeRunning RunPc.after
  refine ⟨⟨rfl, rfl, rfl, ?_⟩, rfl⟩
  simp [Sound, RunPc.writes, RunPc.atLoad, ReplayAction.status, ReplayAction.owed,
    ReplaySessionStatus.terminal]

theorem busy_finish (journal : ReplayStepJournal) {finalStatus : ReplaySessionStatus}
    (h : finalStatus.terminal = true) (errorCode errorDetails : String) :
    (finish req journal finalStatus errorCode errorDetails).Busy ∧
      (finish req journal finalStatus errorCode errorDetails).looksAgain =
        decide (finalStatus ≠ .completed) := by
  unfold finish RunPc.after
  cases finalStatus with
  | pending => cases h
  | running => cases h
  | completed =>
      refine ⟨⟨rfl, rfl, rfl, ?_⟩, rfl⟩
      simp [Sound, RunPc.writes, RunPc.atLoad, RunPc.looksAgain, ReplayAction.status,
        ReplayAction.owed, ReplaySessionStatus.terminal]
  | failed =>
      refine ⟨⟨rfl, rfl, rfl, ?_⟩, rfl⟩
      simp [Sound, RunPc.writes, RunPc.atLoad, ReplayAction.status, ReplayAction.owed,
        ReplaySessionStatus.terminal]
  | cancelled =>
      refine ⟨⟨rfl, rfl, rfl, ?_⟩, rfl⟩
      simp [Sound, RunPc.writes, RunPc.atLoad, ReplayAction.status, ReplayAction.owed,
        ReplaySessionStatus.terminal]

theorem busy_enterLoop : (enterLoop req).Busy := by
  unfold enterLoop RunPc.after
  refine ⟨rfl, rfl, rfl, ?_⟩
  simp [Sound, RunPc.writes, RunPc.atLoad, ReplayAction.status, ReplayAction.owed,
    ReplayEvent.terminal, ReplaySessionStatus.terminal]

theorem busy_runBatch (ans : BatchAnswers) (batch : HistoricalBatch) (rest : List HistoricalBatch)
    (journal : ReplayStepJournal) : (runBatch req ans batch rest journal).Busy := by
  have hfailed := fun journal errorCode errorDetails =>
    (busy_finish req journal (show ReplaySessionStatus.failed.terminal = true from rfl) errorCode
      errorDetails).1
  unfold runBatch
  split
  · exact hfailed _ _ _
  · split
    · exact hfailed _ _ _
    · dsimp only
      split
      · exact hfailed _ _ _
      all_goals
        refine ⟨rfl, rfl, rfl, ?_⟩
        simp [RunPc.after, Sound, RunPc.atLoad, ReplayAction.status, ReplayAction.owed,
          ReplayEvent.terminal]

theorem busy_started : (started req).Busy ∧ (started req).looksAgain = true := by
  unfold started
  split
  · exact busy_failFromInit req _ _
  · split
    · exact busy_failFromInit req _ _
    · exact ⟨⟨rfl, rfl, rfl, trivial⟩, rfl⟩

theorem busy_loaded {session : Option ReplaySession}
    (h : (session.map ReplaySession.status).any ReplaySessionStatus.terminal = false) :
    (loaded req session).Busy ∧ (loaded req session).looksAgain = true := by
  cases session with
  | none => exact busy_failFromInit req _ _
  | some session =>
      change session.status.terminal = false at h
      unfold loaded
      dsimp only
      rw [h]
      exact ⟨⟨rfl, rfl, rfl, trivial⟩, rfl⟩

theorem busy_rechecked {session : Option ReplaySession}
    (h : (session.map ReplaySession.status).any ReplaySessionStatus.terminal = false) :
    (rechecked req session).Busy ∧ (rechecked req session).looksAgain = true := by
  cases session with
  | none => exact ⟨⟨rfl, rfl, rfl, trivial⟩, rfl⟩
  | some session =>
      change session.status.terminal = false at h
      have hne : session.status ≠ .cancelled := by
        intro heq
        rw [heq] at h
        cases h
      unfold rechecked
      dsimp only
      rw [if_neg hne, h]
      exact ⟨⟨rfl, rfl, rfl, trivial⟩, rfl⟩

theorem loaded_of_terminal {session : ReplaySession} (h : session.status.terminal = true) :
    ∃ result : ReplayResult, loaded req (some session) = .finished .skipped result ∧
      result.finalStatus = session.status := by
  unfold loaded
  dsimp only
  rw [if_pos h]
  exact ⟨_, rfl, rfl⟩

end RunReplaySession

namespace CancelPc

theorem owed_of_writes {pc : CancelPc} (hsound : pc.Sound) (h : pc.writes = true) :
    pc.owed ≠ 0 := by
  induction pc with
  | load request => cases h
  | signal request session =>
      have hpending : session.status = .pending := of_decide_eq_true h
      unfold owed
      rw [if_pos hpending]
      exact one_ne_zero
  | doing action next ih =>
      have hnext : next.owed ≠ 0 := by
        cases hstatus : action.status with
        | none =>
            unfold writes at h
            rw [hstatus] at h
            exact ih hsound.2.2.2 h
        | some status => exact (hsound.1 status hstatus).2.2
      unfold owed
      omega
  | finished result => cases h

end CancelPc

namespace CancelReplaySession

open CancelPc

theorem signalled_of_pending (sessionId : String) (request : CancelRequest)
    {session : ReplaySession} (h : session.status = .pending) :
    (signalled sessionId request session).owed = 1 ∧
      (signalled sessionId request session).writes = true ∧
      (signalled sessionId request session).signals = false ∧
      (signalled sessionId request session).Sound := by
  unfold signalled
  rw [if_pos h]
  unfold CancelPc.after
  simp [Sound, CancelPc.writes, CancelPc.owed, CancelPc.signals, ReplayAction.status,
    ReplayAction.owed, ReplayEvent.terminal]

theorem signalled_of_not_pending (sessionId : String) (request : CancelRequest)
    {session : ReplaySession} (h : session.status ≠ .pending) :
    ∃ result : CancelResult, signalled sessionId request session = .finished result ∧
      result.ok = true := by
  unfold signalled
  rw [if_neg h]
  exact ⟨_, rfl, rfl⟩

end CancelReplaySession

/-- What holds after orderly steps. -/
structure Settled (s : ReplaySystem) : Prop where
  owed_le : s.terminalEvents + s.run.owed + (s.cancels.map CancelPc.owed).sum ≤ 1
  run_sound : s.run.Sound
  cancel_sound : ∀ c ∈ s.cancels, c.Sound
  run_writes : s.run.writes = true → s.isOver = false
  cancel_writes : ∀ c ∈ s.cancels, c.writes = true → s.isOver = false ∧ s.run.atLoad = true
  quiet : s.isOver = false → s.status ≠ none →
    s.terminalEvents = 0 ∧ (s.run.owed ≠ 0 → s.run.writes = true) ∧
      ∀ c ∈ s.cancels, c.owed ≠ 0 → c.writes = true
  missing : s.status = none →
    (s.run.atLoad = true → s.terminalEvents = 0) ∧ ∀ c ∈ s.cancels, c.owed = 0
  completed : s.status = some .completed →
    s.run.looksAgain = false ∨ ∀ c ∈ s.cancels, c.signals = false
  token : s.shared.cancelled = true → s.status ≠ some .completed ∧ s.run.looksAgain = true
  accepted : s.accepted = true → s.shared.cancelled = true ∨ s.status = some .cancelled

section Settled

variable {s : ReplaySystem}

theorem settled_start (session : Option ReplaySession) (requests : List CancelRequest) :
    Settled (ReplaySystem.start session requests) := by
  have hload : ∀ c ∈ (ReplaySystem.start session requests).cancels, ∃ request, c = .load request := by
    intro c hc
    obtain ⟨request, -, rfl⟩ := mem_map.mp hc
    exact ⟨request, rfl⟩
  have howed : ∀ c ∈ (ReplaySystem.start session requests).cancels, c.owed = 0 := by
    intro c hc
    obtain ⟨request, rfl⟩ := hload c hc
    rfl
  constructor
  · have hsum : ((ReplaySystem.start session requests).cancels.map CancelPc.owed).sum = 0 := by
      refine sum_eq_zero ?_
      intro n hn
      obtain ⟨c, hc, rfl⟩ := mem_map.mp hn
      exact howed c hc
    rw [hsum]
    exact Nat.zero_le 1
  · trivial
  · intro c hc
    obtain ⟨request, rfl⟩ := hload c hc
    trivial
  · intro h
    cases h
  · intro c hc h
    obtain ⟨request, rfl⟩ := hload c hc
    cases h
  · intro _ _
    refine ⟨rfl, fun h => absurd rfl h, fun c hc h => absurd (howed c hc) h⟩
  · intro _
    exact ⟨fun _ => rfl, howed⟩
  · intro _
    right
    intro c hc
    obtain ⟨request, rfl⟩ := hload c hc
    rfl
  · intro h
    cases h
  · intro h
    obtain ⟨c, hc, haccepted⟩ := any_eq_true.mp h
    obtain ⟨request, rfl⟩ := hload c hc
    cases haccepted

theorem Settled.free (h : Settled s) (hload : s.run.atLoad = true) (hquiet : s.Undisturbed)
    (hopen : s.isOver = false) : s.terminalEvents = 0 ∧ ∀ c ∈ s.cancels, c.owed = 0 := by
  by_cases hnone : s.status = none
  · exact ⟨(h.missing hnone).1 hload, (h.missing hnone).2⟩
  · obtain ⟨hevents, -, hcancels⟩ := h.quiet hopen hnone
    refine ⟨hevents, fun c hc => ?_⟩
    by_contra howed
    have hwrites := hcancels c hc howed
    rw [hquiet c hc] at hwrites
    cases hwrites

theorem Settled.free_of_owed (h : Settled s) (howed : s.run.owed = 1) :
    s.terminalEvents = 0 ∧ ∀ c ∈ s.cancels, c.owed = 0 := by
  have hle := h.owed_le
  have hsum : (s.cancels.map CancelPc.owed).sum = 0 := by omega
  refine ⟨by omega, fun c hc => ?_⟩
  exact sum_eq_zero_iff.mp hsum _ (mem_map_of_mem hc)

theorem Settled.busy (h : Settled s) {pc : RunPc} (hpc : pc.Busy)
    (hlook : s.shared.cancelled = true → pc.looksAgain = true) (hopen : s.isOver = false)
    (hfree : s.terminalEvents = 0 ∧ ∀ c ∈ s.cancels, c.owed = 0) :
    Settled { s with run := pc } := by
  have hundisturbed : ∀ c ∈ s.cancels, c.writes = true → False := by
    intro c hc hwrites
    exact CancelPc.owed_of_writes (h.cancel_sound c hc) hwrites (hfree.2 c hc)
  have hsum : (s.cancels.map CancelPc.owed).sum = 0 := by
    refine sum_eq_zero ?_
    intro n hn
    obtain ⟨c, hc, rfl⟩ := mem_map.mp hn
    exact hfree.2 c hc
  constructor
  · have hevents : s.terminalEvents = 0 := hfree.1
    change s.terminalEvents + pc.owed + (s.cancels.map CancelPc.owed).sum ≤ 1
    rw [hevents, hpc.owed, hsum]
  · exact hpc.sound
  · exact h.cancel_sound
  · exact fun _ => hopen
  · intro c hc hwrites
    exact (hundisturbed c hc hwrites).elim
  · intro _ _
    refine ⟨hfree.1, fun _ => hpc.writes, fun c hc howed => absurd (hfree.2 c hc) howed⟩
  · intro hnone
    refine ⟨fun hload => ?_, hfree.2⟩
    rw [hpc.atLoad] at hload
    cases hload
  · intro hstatus
    have hover : s.isOver = true := by
      unfold ReplaySystem.isOver
      rw [show s.status = some .completed from hstatus]
      rfl
    rw [hopen] at hover
    cases hover
  · exact fun hcancelled => ⟨(h.token hcancelled).1, hlook hcancelled⟩
  · exact h.accepted

theorem Settled.skip (h : Settled s) (hload : s.run.atLoad = true) (hquiet : s.Undisturbed)
    (hover : s.isOver = true) {runEnd : RunEnd} {result : ReplayResult}
    (hresult : s.status = some result.finalStatus) :
    Settled { s with run := .finished runEnd result } := by
  obtain ⟨howed, -, hlook⟩ := RunPc.owed_of_atLoad hload
  constructor
  · have hle := h.owed_le
    rw [howed] at hle
    exact hle
  · trivial
  · exact h.cancel_sound
  · intro hwrites
    cases hwrites
  · intro c hc hwrites
    rw [hquiet c hc] at hwrites
    cases hwrites
  · intro hopen
    rw [show s.isOver = false from hopen] at hover
    cases hover
  · intro hnone
    rw [show s.status = none from hnone] at hresult
    cases hresult
  · intro hcompleted
    right
    rcases h.completed hcompleted with hnot | hsignals
    · rw [hlook] at hnot
      cases hnot
    · exact hsignals
  · intro hcancelled
    obtain ⟨hne, -⟩ := h.token hcancelled
    refine ⟨hne, decide_eq_true ?_⟩
    rintro heq
    exact hne (hresult.trans (congrArg some heq))
  · exact h.accepted

section Doing

variable {action : ReplayAction}

theorem over_of_status {t : ReplaySystem} (h : t.status = s.status) : t.isOver = s.isOver := by
  unfold ReplaySystem.isOver
  rw [h]

theorem map_getD_none (status : Option ReplaySessionStatus) :
    status.map (none : Option ReplaySessionStatus).getD = status := by
  cases status <;> rfl

theorem Settled.run_doing_of_none (h : Settled s) {next : RunPc} (hrun : s.run = .doing action next)
    (hnone : action.status = none) :
    Settled { s with run := next, shared := action.apply s.shared } := by
  have hsound := h.run_sound
  have hwrites : s.run.writes = next.writes := by
    rw [hrun, RunPc.writes, hnone]
    rfl
  have howed : s.run.owed = action.owed + next.owed := by
    rw [hrun, RunPc.owed]
  have hlook : s.run.looksAgain = next.looksAgain := by
    rw [hrun, RunPc.looksAgain, hnone]
    rfl
  have hload : s.run.atLoad = false := by
    rw [hrun]
    rfl
  rw [hrun] at hsound
  obtain ⟨-, hafter, hnext, hsound⟩ := hsound
  have hstatus : ReplaySystem.status { s with run := next, shared := action.apply s.shared } =
      s.status := by
    refine (ReplayAction.status_apply s.shared action).trans ?_
    rw [hnone]
    exact map_getD_none _
  have hover := over_of_status hstatus
  have hevents : ReplaySystem.terminalEvents
      { s with run := next, shared := action.apply s.shared } = s.terminalEvents + action.owed :=
    ReplayAction.events_apply s.shared action
  constructor
  · have hle := h.owed_le
    dsimp only
    omega
  · exact hsound
  · exact h.cancel_sound
  · intro hw
    rw [hover]
    exact h.run_writes (hwrites.trans hw)
  · intro c hc hw
    have hbad := (h.cancel_writes c hc hw).2
    rw [hload] at hbad
    cases hbad
  · intro hopen hsome
    rw [hover] at hopen
    rw [hstatus] at hsome
    obtain ⟨hzero, hrunWrites, hcancels⟩ := h.quiet hopen hsome
    have haction : action.owed = 0 := by
      by_contra hne
      have hw := hrunWrites (by omega)
      rw [hwrites, hafter hne] at hw
      cases hw
    refine ⟨by omega, fun hne => ?_, hcancels⟩
    rw [← hwrites]
    exact hrunWrites (by dsimp only at hne; omega)
  · intro hstatusNone
    rw [hstatus] at hstatusNone
    refine ⟨fun hbad => ?_, (h.missing hstatusNone).2⟩
    rw [show next.atLoad = true from hbad] at hnext
    cases hnext
  · intro hcompleted
    rw [hstatus] at hcompleted
    rw [← hlook]
    exact h.completed hcompleted
  · intro hcancelled
    rw [hstatus, ← hlook]
    exact h.token ((ReplayAction.cancelled_apply s.shared action) ▸ hcancelled)
  · intro haccepted
    rw [hstatus]
    rw [ReplayAction.cancelled_apply]
    exact h.accepted haccepted

theorem Settled.run_doing_of_some (h : Settled s) {next : RunPc} (hrun : s.run = .doing action next)
    {status : ReplaySessionStatus} (hsome : action.status = some status) :
    Settled { s with run := next, shared := action.apply s.shared } := by
  have hsound := h.run_sound
  have hopen : s.isOver = false := by
    refine h.run_writes ?_
    rw [hrun, RunPc.writes, hsome]
    rfl
  have hactionOwed : action.owed = 0 := by
    by_contra hne
    rw [ReplayAction.status_eq_none hne] at hsome
    cases hsome
  have howed : s.run.owed = next.owed := by
    rw [hrun, RunPc.owed, hactionOwed, Nat.zero_add]
  have hload : s.run.atLoad = false := by
    rw [hrun]
    rfl
  rw [hrun] at hsound
  obtain ⟨hwritten, -, hnext, hsound⟩ := hsound
  obtain ⟨hnextWrites, hnextLook⟩ := hwritten status hsome
  have hstatus : ReplaySystem.status { s with run := next, shared := action.apply s.shared } =
      s.status.map fun _ => status := by
    refine (ReplayAction.status_apply s.shared action).trans ?_
    rw [hsome]
    rfl
  have hevents : ReplaySystem.terminalEvents
      { s with run := next, shared := action.apply s.shared } = s.terminalEvents :=
    (ReplayAction.events_apply s.shared action).trans (by rw [hactionOwed]; rfl)
  have hover : s.status ≠ none → ReplaySystem.isOver
      { s with run := next, shared := action.apply s.shared } = status.terminal := by
    intro hne
    obtain ⟨old, hold⟩ := ne_none_iff_exists'.mp hne
    unfold ReplaySystem.isOver
    rw [hstatus, hold]
    rfl
  constructor
  · have hle := h.owed_le
    dsimp only
    omega
  · exact hsound
  · exact h.cancel_sound
  · intro hw
    by_cases hnone : s.status = none
    · unfold ReplaySystem.isOver
      rw [hstatus, hnone]
      rfl
    · rw [hover hnone]
      rw [show next.writes = true from hw] at hnextWrites
      exact by simpa using hnextWrites.symm
  · intro c hc hw
    have hbad := (h.cancel_writes c hc hw).2
    rw [hload] at hbad
    cases hbad
  · intro hopen' hne
    have hne' : s.status ≠ none := by
      intro hnone
      rw [hstatus, hnone] at hne
      exact hne rfl
    rw [hover hne'] at hopen'
    obtain ⟨hzero, -, hcancels⟩ := h.quiet hopen hne'
    rw [hopen'] at hnextWrites
    exact ⟨hevents.trans hzero, fun _ => hnextWrites, hcancels⟩
  · intro hnone
    rw [hstatus] at hnone
    refine ⟨fun hbad => ?_, (h.missing (map_eq_none_iff.mp hnone)).2⟩
    rw [show next.atLoad = true from hbad] at hnext
    cases hnext
  · intro hcompleted
    left
    rw [hstatus] at hcompleted
    obtain ⟨-, -, heq⟩ := map_eq_some_iff.mp hcompleted
    exact hnextLook heq
  · intro hcancelled
    obtain ⟨-, hlook⟩ := h.token ((ReplayAction.cancelled_apply s.shared action) ▸ hcancelled)
    rw [hrun, RunPc.looksAgain, hsome, Bool.and_eq_true] at hlook
    refine ⟨fun hcompleted => ?_, hlook.2⟩
    rw [hstatus] at hcompleted
    obtain ⟨-, -, heq⟩ := map_eq_some_iff.mp hcompleted
    exact of_decide_eq_true hlook.1 (congrArg some heq)
  · intro haccepted
    rw [ReplayAction.cancelled_apply]
    rcases h.accepted haccepted with hcancelled | hcancelled
    · exact Or.inl hcancelled
    · unfold ReplaySystem.isOver at hopen
      rw [hcancelled] at hopen
      cases hopen

end Doing

theorem Settled.run_step (h : Settled s) (req : ReplayRequest) (ans : BatchAnswers)
    (hok : Orderly s (.run ans)) : Settled (ReplaySystem.step req s (.run ans)) := by
  -- a run that has read the session has an event to publish until it is over
  have hbusy : s.run.owed = 1 → s.run.writes = true → ∀ {pc : RunPc}, pc.Busy →
      (s.shared.cancelled = true → pc.looksAgain = true) → Settled { s with run := pc } := by
    intro howed hwrites pc hpc hlook
    exact h.busy hpc hlook (h.run_writes hwrites) (h.free_of_owed howed)
  unfold ReplaySystem.step
  dsimp only
  cases hrun : s.run with
  | load =>
      have hload : s.run.atLoad = true := by
        rw [hrun]
        rfl
      cases hover : s.isOver with
      | false =>
          obtain ⟨hpc, hlook⟩ := busy_loaded req hover
          exact h.busy hpc (fun _ => hlook) hover (h.free hload (hok hload) hover)
      | true =>
          obtain ⟨session, hsession⟩ : ∃ session, s.shared.session = some session := by
            rw [← ne_none_iff_exists']
            intro hnone
            unfold ReplaySystem.isOver ReplaySystem.status at hover
            rw [hnone] at hover
            cases hover
          have hterminal : session.status.terminal = true := by
            unfold ReplaySystem.isOver ReplaySystem.status at hover
            rw [hsession] at hover
            exact hover
          obtain ⟨result, hloaded, hfinal⟩ :=
            loaded_of_terminal req hterminal
          have hstatus : s.status = some result.finalStatus := by
            unfold ReplaySystem.status
            rw [hsession, hfinal]
            rfl
          unfold RunReplaySession.step
          rw [hsession, hloaded]
          exact h.skip hload (hok hload) hover hstatus
  | checkStart session =>
      rw [hrun] at hbusy
      unfold RunReplaySession.step
      dsimp only
      split
      · obtain ⟨hpc, hlook⟩ := busy_cancelBeforeRunning req
          (session.storedTotalBatches 0) session.storedProgressBatches
          (session.errorDetails.getD "Replay session was cancelled before start")
        exact hbusy rfl rfl hpc (fun _ => hlook)
      · obtain ⟨hpc, hlook⟩ := busy_started req
        exact hbusy rfl rfl hpc (fun _ => hlook)
  | recheck =>
      have hopen : s.isOver = false := h.run_writes (by rw [hrun]; rfl)
      rw [hrun] at hbusy
      obtain ⟨hpc, hlook⟩ := busy_rechecked req hopen
      exact hbusy rfl rfl hpc (fun _ => hlook)
  | checkLoaded =>
      rw [hrun] at hbusy
      unfold RunReplaySession.step
      dsimp only
      split
      · obtain ⟨hpc, hlook⟩ := busy_cancelBeforeRunning req
          (totalBatches req) 0 "Replay session was cancelled before running"
        exact hbusy rfl rfl hpc (fun _ => hlook)
      · rename_i hnot
        exact hbusy rfl rfl (busy_enterLoop req) (fun htrue => absurd htrue hnot)
  | loop rest journal =>
      cases rest with
      | nil =>
          have hnot : ¬ s.shared.cancelled = true := by
            intro htrue
            have hlook := (h.token htrue).2
            rw [hrun] at hlook
            cases hlook
          rw [hrun] at hbusy
          exact hbusy rfl rfl
            (busy_finish req journal
              (show ReplaySessionStatus.completed.terminal = true from rfl) "" "").1
            (fun htrue => absurd htrue hnot)
      | cons batch rest =>
          rw [hrun] at hbusy
          unfold RunReplaySession.step
          dsimp only
          split
          · obtain ⟨hpc, hlook⟩ := busy_finish req journal
              (show ReplaySessionStatus.cancelled.terminal = true from rfl) "" ""
            exact hbusy rfl rfl hpc (fun _ => hlook)
          · rename_i hnot
            exact hbusy rfl rfl (busy_runBatch req ans batch rest journal)
              (fun htrue => absurd htrue hnot)
  | doing action next =>
      cases hstatus : action.status with
      | none => exact h.run_doing_of_none hrun hstatus
      | some status => exact h.run_doing_of_some hrun hstatus
  | finished runEnd result =>
      unfold RunReplaySession.step
      have hself : { s with run := RunPc.finished runEnd result, shared := s.shared } = s := by
        rw [← hrun]
      rw [hself]
      exact h

section Cancels

variable {i : Nat} {c : CancelPc}

theorem Settled.replace (h : Settled s) {c' : CancelPc} (sh : ReplayShared)
    (hstatus : sh.session.map ReplaySession.status = s.status)
    (howed : sh.events.countP ReplayEvent.terminal + s.run.owed +
      ((s.cancels.set i c').map CancelPc.owed).sum ≤ 1)
    (hsound : c'.Sound)
    (hwrites : c'.writes = true → s.isOver = false ∧ s.run.atLoad = true)
    (hquiet : s.isOver = false → s.status ≠ none →
      sh.events.countP ReplayEvent.terminal = s.terminalEvents ∧ (c'.owed ≠ 0 → c'.writes = true))
    (hmissing : s.status = none →
      sh.events.countP ReplayEvent.terminal = s.terminalEvents ∧ c'.owed = 0)
    (hsignals : s.status = some .completed → c'.signals = false)
    (htoken : sh.cancelled = true → s.status ≠ some .completed ∧ s.run.looksAgain = true)
    (hkept : s.shared.cancelled = true → sh.cancelled = true)
    (haccepted : c'.accepted = true → sh.cancelled = true ∨ s.status = some .cancelled) :
    Settled { s with cancels := s.cancels.set i c', shared := sh } := by
  have hstatus' : ReplaySystem.status { s with cancels := s.cancels.set i c', shared := sh } =
      s.status := hstatus
  have hover := over_of_status hstatus'
  constructor
  · exact howed
  · exact h.run_sound
  · intro d hd
    rcases mem_or_eq_of_mem_set hd with hd | rfl
    · exact h.cancel_sound d hd
    · exact hsound
  · intro hw
    rw [hover]
    exact h.run_writes hw
  · intro d hd hw
    rw [hover]
    rcases mem_or_eq_of_mem_set hd with hd | rfl
    · exact h.cancel_writes d hd hw
    · exact hwrites hw
  · intro hopen hne
    rw [hover] at hopen
    rw [hstatus'] at hne
    obtain ⟨hzero, hrun, hcancels⟩ := h.quiet hopen hne
    refine ⟨(hquiet hopen hne).1.trans hzero, hrun, fun d hd hd' => ?_⟩
    rcases mem_or_eq_of_mem_set hd with hd | rfl
    · exact hcancels d hd hd'
    · exact (hquiet hopen hne).2 hd'
  · intro hnone
    rw [hstatus'] at hnone
    obtain ⟨hrun, hcancels⟩ := h.missing hnone
    refine ⟨fun hload => (hmissing hnone).1.trans (hrun hload), fun d hd => ?_⟩
    rcases mem_or_eq_of_mem_set hd with hd | rfl
    · exact hcancels d hd
    · exact (hmissing hnone).2
  · intro hcompleted
    rw [hstatus'] at hcompleted
    rcases h.completed hcompleted with hlook | hcancels
    · exact Or.inl hlook
    · right
      intro d hd
      rcases mem_or_eq_of_mem_set hd with hd | rfl
      · exact hcancels d hd
      · exact hsignals hcompleted
  · intro hcancelled
    rw [hstatus']
    exact htoken hcancelled
  · intro hany
    rw [hstatus']
    obtain ⟨d, hd, hd'⟩ := any_eq_true.mp hany
    rcases mem_or_eq_of_mem_set hd with hd | rfl
    · rcases h.accepted (any_eq_true.mpr ⟨d, hd, hd'⟩) with hcancelled | hcancelled
      · exact Or.inl (hkept hcancelled)
      · exact Or.inr hcancelled
    · exact haccepted hd'

theorem Settled.answer (h : Settled s) (hi : s.cancels[i]? = some c) (hc : c.owed = 0)
    {result : CancelResult} (hok : result.ok = true → s.status = some .cancelled) :
    Settled { s with cancels := s.cancels.set i (.finished result) } := by
  have hsum := sum_map_set hi CancelPc.owed (.finished result)
  have hle := h.owed_le
  refine h.replace s.shared rfl ?_ trivial ?_ ?_ ?_ ?_ h.token id ?_
  · change s.terminalEvents + _ + _ ≤ 1
    rw [show (CancelPc.finished result).owed = 0 from rfl] at hsum
    omega
  · intro hw
    cases hw
  · exact fun _ _ => ⟨rfl, fun hne => absurd rfl hne⟩
  · exact fun _ => ⟨rfl, rfl⟩
  · exact fun _ => rfl
  · exact fun haccepted => Or.inr (hok haccepted)

theorem Settled.cancel_load (h : Settled s) {request : CancelRequest}
    (hi : s.cancels[i]? = some (.load request)) (hok : (CancelPc.load request).Orderly s) :
    Settled { s with
      cancels := s.cancels.set i (CancelReplaySession.loaded request s.shared.session) } := by
  cases hsession : s.shared.session with
  | none => exact h.answer hi rfl (fun hfalse => by cases hfalse)
  | some session =>
      have hstatus : s.status = some session.status := by
        unfold ReplaySystem.status
        rw [hsession]
        rfl
      have hsum := sum_map_set hi CancelPc.owed (.signal request session)
      have hle := h.owed_le
      unfold CancelReplaySession.loaded
      dsimp only
      cases hcase : session.status with
      | cancelled => exact h.answer hi rfl (fun _ => hstatus.trans (congrArg some hcase))
      | completed => exact h.answer hi rfl (fun hfalse => by cases hfalse)
      | failed => exact h.answer hi rfl (fun hfalse => by cases hfalse)
      | pending =>
          have hpending : s.status = some .pending := hstatus.trans (congrArg some hcase)
          have hopen : s.isOver = false := by
            unfold ReplaySystem.isOver
            rw [hpending]
            rfl
          obtain ⟨hload, hquiet⟩ := hok hpending
          obtain ⟨hevents, hcancels⟩ := h.free hload hquiet hopen
          have howed : (CancelPc.signal request session).owed = 1 := by
            unfold CancelPc.owed
            rw [if_pos hcase]
          have hzero : (s.cancels.map CancelPc.owed).sum = 0 := by
            refine sum_eq_zero ?_
            intro n hn
            obtain ⟨d, hd, rfl⟩ := mem_map.mp hn
            exact hcancels d hd
          refine h.replace s.shared rfl ?_ trivial ?_ ?_ ?_ ?_ h.token id ?_
          · change s.terminalEvents + s.run.owed +
              ((s.cancels.set i (.signal request session)).map CancelPc.owed).sum ≤ 1
            rw [(RunPc.owed_of_atLoad hload).1]
            omega
          · exact fun _ => ⟨hopen, hload⟩
          · exact fun _ _ => ⟨rfl, fun _ => decide_eq_true hcase⟩
          · intro hnone
            rw [hpending] at hnone
            cases hnone
          · intro hcompleted
            rw [hpending] at hcompleted
            cases hcompleted
          · intro haccepted
            cases haccepted
      | running =>
          have hrunning : s.status = some .running := hstatus.trans (congrArg some hcase)
          have hne : session.status ≠ .pending := by
            rw [hcase]
            decide
          have howed : (CancelPc.signal request session).owed = 0 := by
            unfold CancelPc.owed
            rw [if_neg hne]
          refine h.replace s.shared rfl ?_ trivial ?_ ?_ ?_ ?_ h.token id ?_
          · change s.terminalEvents + s.run.owed +
              ((s.cancels.set i (.signal request session)).map CancelPc.owed).sum ≤ 1
            omega
          · intro hw
            exact absurd (of_decide_eq_true hw) hne
          · exact fun _ _ => ⟨rfl, fun hbad => absurd howed hbad⟩
          · intro hnone
            rw [hrunning] at hnone
            cases hnone
          · intro hcompleted
            rw [hrunning] at hcompleted
            cases hcompleted
          · intro haccepted
            cases haccepted

theorem Settled.cancel_signal (h : Settled s) {request : CancelRequest} {session : ReplaySession}
    (hi : s.cancels[i]? = some (.signal request session))
    (hok : (CancelPc.signal request session).Orderly s) (sessionId : String) :
    Settled { s with
      cancels := s.cancels.set i (signalled sessionId request session)
      shared := { s.shared with cancelled := true } } := by
  have hmem : CancelPc.signal request session ∈ s.cancels := mem_of_getElem? hi
  have hsum := sum_map_set hi CancelPc.owed (signalled sessionId request session)
  have hle := h.owed_le
  by_cases hpending : session.status = .pending
  · obtain ⟨howed, -, hsignals, hsound⟩ :=
      signalled_of_pending sessionId request hpending
    have hwrites : (CancelPc.signal request session).writes = true := decide_eq_true hpending
    have howed' : (CancelPc.signal request session).owed = 1 := by
      unfold CancelPc.owed
      rw [if_pos hpending]
    obtain ⟨hopen, hload⟩ := h.cancel_writes _ hmem hwrites
    have hne : s.status ≠ some .completed := by
      intro hcompleted
      unfold ReplaySystem.isOver at hopen
      rw [hcompleted] at hopen
      cases hopen
    refine h.replace { s.shared with cancelled := true } rfl ?_ hsound (fun _ => ⟨hopen, hload⟩)
      ?_ ?_ (fun _ => hsignals) ?_
      (fun _ => rfl) (fun _ => Or.inl rfl)
    · change s.terminalEvents + _ + _ ≤ 1
      omega
    · exact fun _ _ => ⟨rfl, fun _ =>
        (signalled_of_pending sessionId request hpending).2.1⟩
    · intro hnone
      rw [(h.missing hnone).2 _ hmem] at howed'
      cases howed'
    · exact fun _ => ⟨hne, (RunPc.owed_of_atLoad hload).2.2⟩
  · obtain ⟨result, hresult, -⟩ :=
      signalled_of_not_pending sessionId request hpending
    have howed' : (CancelPc.signal request session).owed = 0 := by
      unfold CancelPc.owed
      rw [if_neg hpending]
    have hlook := hok hpending
    rw [hresult] at hsum ⊢
    rw [show (CancelPc.finished result).owed = 0 from rfl] at hsum
    refine h.replace { s.shared with cancelled := true } rfl ?_ trivial (fun hw => by cases hw)
      ?_ ?_ (fun _ => rfl) ?_
      (fun _ => rfl) (fun _ => Or.inl rfl)
    · change s.terminalEvents + _ + _ ≤ 1
      omega
    · exact fun _ _ => ⟨rfl, fun hbad => absurd rfl hbad⟩
    · exact fun _ => ⟨rfl, rfl⟩
    · refine fun _ => ⟨fun hcompleted => ?_, hlook⟩
      rcases h.completed hcompleted with hnot | hnone
      · rw [hlook] at hnot
        cases hnot
      · have hbad := hnone _ hmem
        cases hbad

theorem Settled.cancel_doing_of_none (h : Settled s) {action : ReplayAction} {next : CancelPc}
    (hi : s.cancels[i]? = some (.doing action next)) (hnone : action.status = none) :
    Settled { s with cancels := s.cancels.set i next, shared := action.apply s.shared } := by
  have hmem : CancelPc.doing action next ∈ s.cancels := mem_of_getElem? hi
  obtain ⟨-, hafter, hsignals, hsound⟩ := h.cancel_sound _ hmem
  have hwrites : (CancelPc.doing action next).writes = next.writes := by
    rw [CancelPc.writes, hnone]
    rfl
  have howed : (CancelPc.doing action next).owed = action.owed + next.owed := rfl
  have hevents := ReplayAction.events_apply s.shared action
  have hsum := sum_map_set hi CancelPc.owed next
  have hle := h.owed_le
  have hT : s.terminalEvents = s.shared.events.countP ReplayEvent.terminal := rfl
  refine h.replace (action.apply s.shared) ?_ ?_ hsound ?_ ?_ ?_ (fun _ => hsignals) ?_ ?_ ?_
  · refine (ReplayAction.status_apply s.shared action).trans ?_
    rw [hnone]
    exact map_getD_none _
  · omega
  · intro hw
    exact h.cancel_writes _ hmem (hwrites.trans hw)
  · intro hopen hne
    have hcancel := (h.quiet hopen hne).2.2 _ hmem
    have haction : action.owed = 0 := by
      by_contra hbad
      have hw := hcancel (by omega)
      rw [hwrites, hafter hbad] at hw
      cases hw
    refine ⟨by rw [hevents, haction]; rfl, fun hbad => ?_⟩
    rw [← hwrites]
    exact hcancel (by omega)
  · intro hstatus
    have hzero := (h.missing hstatus).2 _ hmem
    refine ⟨?_, by omega⟩
    rw [hevents, show action.owed = 0 by omega]
    rfl
  · intro hcancelled
    rw [ReplayAction.cancelled_apply] at hcancelled
    exact h.token hcancelled
  · intro hcancelled
    rw [ReplayAction.cancelled_apply]
    exact hcancelled
  · intro haccepted
    rw [ReplayAction.cancelled_apply]
    exact h.accepted (any_eq_true.mpr ⟨_, hmem, haccepted⟩)

theorem Settled.cancel_doing_of_some (h : Settled s) {action : ReplayAction} {next : CancelPc}
    (hi : s.cancels[i]? = some (.doing action next)) {status : ReplaySessionStatus}
    (hsome : action.status = some status) :
    Settled { s with cancels := s.cancels.set i next, shared := action.apply s.shared } := by
  have hmem : CancelPc.doing action next ∈ s.cancels := mem_of_getElem? hi
  obtain ⟨hwritten, -, hsignals, hsound⟩ := h.cancel_sound _ hmem
  obtain ⟨rfl, hnextWrites, hnextOwed⟩ := hwritten status hsome
  have hwrites : (CancelPc.doing action next).writes = true := by
    rw [CancelPc.writes, hsome]
    rfl
  obtain ⟨hopen, hload⟩ := h.cancel_writes _ hmem hwrites
  have haction : action.owed = 0 := by
    by_contra hne
    rw [ReplayAction.status_eq_none hne] at hsome
    cases hsome
  have howed : (CancelPc.doing action next).owed = next.owed := by
    rw [CancelPc.owed, haction, Nat.zero_add]
  have hexists : s.status ≠ none := by
    intro hnone
    have hzero := (h.missing hnone).2 _ hmem
    rw [howed] at hzero
    exact hnextOwed hzero
  have hstatus : ReplaySystem.status
      { s with cancels := s.cancels.set i next, shared := action.apply s.shared } =
        some .cancelled := by
    refine (ReplayAction.status_apply s.shared action).trans ?_
    obtain ⟨old, hold⟩ := ne_none_iff_exists'.mp hexists
    rw [show s.shared.session.map ReplaySession.status = some old from hold, hsome]
    rfl
  have hover : ReplaySystem.isOver
      { s with cancels := s.cancels.set i next, shared := action.apply s.shared } = true := by
    unfold ReplaySystem.isOver
    rw [hstatus]
    rfl
  have hevents := ReplayAction.events_apply s.shared action
  have hsum := sum_map_set hi CancelPc.owed next
  have hle := h.owed_le
  have hT : s.terminalEvents = s.shared.events.countP ReplayEvent.terminal := rfl
  -- no other cancel has anything to publish
  have halone : ∀ d ∈ s.cancels.set i next, d.owed ≠ 0 → d = next := by
    intro d hd hne
    have hi' : (s.cancels.set i next)[i]? = some next := by
      rw [getElem?_set_self (List.getElem?_eq_some_iff.mp hi).1]
    exact eq_of_sum_map_le_one (by omega) hi' hnextOwed hd hne
  have hsounds : ∀ d ∈ s.cancels.set i next, d.Sound := by
    intro d hd
    rcases mem_or_eq_of_mem_set hd with hd | rfl
    · exact h.cancel_sound d hd
    · exact hsound
  constructor
  · change (action.apply s.shared).events.countP ReplayEvent.terminal + _ + _ ≤ 1
    dsimp only
    omega
  · exact h.run_sound
  · exact hsounds
  · intro hw
    have hbad := (RunPc.owed_of_atLoad hload).2.1
    rw [show s.run.writes = true from hw] at hbad
    cases hbad
  · intro d hd hw
    have hd' := halone d hd (CancelPc.owed_of_writes (hsounds d hd) hw)
    rw [hd', hnextWrites] at hw
    cases hw
  · intro hopen'
    rw [hover] at hopen'
    cases hopen'
  · intro hnone
    rw [hstatus] at hnone
    cases hnone
  · intro hcompleted
    rw [hstatus] at hcompleted
    cases hcompleted
  · intro hcancelled
    rw [hstatus]
    refine ⟨by decide, ?_⟩
    exact (h.token ((ReplayAction.cancelled_apply s.shared action) ▸ hcancelled)).2
  · exact fun _ => Or.inr hstatus

theorem Settled.cancel_step (h : Settled s) (req : ReplayRequest)
    (hok : Orderly s (.cancel i)) : Settled (ReplaySystem.step req s (.cancel i)) := by
  unfold ReplaySystem.step
  dsimp only
  cases hi : s.cancels[i]? with
  | none => exact h
  | some c =>
      have hc := hok c hi
      cases c with
      | load request => exact h.cancel_load hi hc
      | signal request session => exact h.cancel_signal hi hc req.sessionId
      | doing action next =>
          cases hstatus : action.status with
          | none => exact h.cancel_doing_of_none hi hstatus
          | some status => exact h.cancel_doing_of_some hi hstatus
      | finished result =>
          have hself : s.cancels.set i (.finished result) = s.cancels := by
            obtain ⟨hlt, hget⟩ := List.getElem?_eq_some_iff.mp hi
            rw [← hget, set_getElem_self]
          unfold CancelReplaySession.step
          dsimp only
          rw [hself]
          exact h

end Cancels

theorem Settled.step (h : Settled s) (req : ReplayRequest) {turn : ReplayTurn}
    (hok : Orderly s turn) : Settled (ReplaySystem.step req s turn) := by
  cases turn with
  | run ans => exact h.run_step req ans hok
  | cancel i => exact h.cancel_step req hok

theorem Settled.status_step (h : Settled s) (req : ReplayRequest) (turn : ReplayTurn)
    (hover : s.isOver = true) : (ReplaySystem.step req s turn).status = s.status := by
  have hkeep : ∀ action : ReplayAction, action.status = none →
      (action.apply s.shared).session.map ReplaySession.status = s.status := by
    intro action hnone
    refine (ReplayAction.status_apply s.shared action).trans ?_
    rw [hnone]
    exact map_getD_none _
  unfold ReplaySystem.step
  cases turn with
  | run ans =>
      cases hrun : s.run with
      | load => rfl
      | checkStart session =>
          unfold RunReplaySession.step
          dsimp only
          split <;> rfl
      | recheck => rfl
      | checkLoaded =>
          unfold RunReplaySession.step
          dsimp only
          split <;> rfl
      | loop rest journal =>
          cases rest with
          | nil => rfl
          | cons batch rest =>
              unfold RunReplaySession.step
              dsimp only
              split <;> rfl
      | doing action next =>
          refine hkeep action ?_
          by_contra hsome
          have hopen := h.run_writes (by
            rw [hrun, RunPc.writes, isSome_iff_ne_none.mpr hsome]
            rfl)
          rw [hover] at hopen
          cases hopen
      | finished runEnd result => rfl
  | cancel i =>
      dsimp only
      cases hi : s.cancels[i]? with
      | none => rfl
      | some c =>
          cases c with
          | load request => rfl
          | signal request session => rfl
          | doing action next =>
              refine hkeep action ?_
              by_contra hsome
              have hopen := (h.cancel_writes _ (mem_of_getElem? hi) (by
                rw [CancelPc.writes, isSome_iff_ne_none.mpr hsome]
                rfl)).1
              rw [hover] at hopen
              cases hopen
          | finished result => rfl

end Settled

section Orders

variable (req : ReplayRequest) (session : Option ReplaySession) (requests : List CancelRequest)

/-- A session is safe when from where it is over its status stays, when it was said to be over
at most once, and when it has not completed after a cancel was accepted. -/
def SafeAlong (turns later : List ReplayTurn) : Prop :=
  let s := run (ReplaySystem.step req) (ReplaySystem.start session requests) turns
  let t := run (ReplaySystem.step req) (ReplaySystem.start session requests) (turns ++ later)
  (s.isOver = true → t.status = s.status) ∧ t.terminalEvents ≤ 1 ∧
    (t.accepted = true → t.status ≠ some .completed)

variable {req session requests} {turns later : List ReplayTurn}

theorem settled_run (h : StepsMeet (ReplaySystem.step req) Orderly
    (ReplaySystem.start session requests) turns) :
    Settled (run (ReplaySystem.step req) (ReplaySystem.start session requests) turns) :=
  run_invariant Settled (fun _ _ hs hok => hs.step req hok) (settled_start session requests) h

theorem status_run {s : ReplaySystem} (h : Settled s) (hover : s.isOver = true)
    (hmeet : StepsMeet (ReplaySystem.step req) Orderly s later) :
    (run (ReplaySystem.step req) s later).status = s.status := by
  have hstep : ∀ (t : ReplaySystem) (turn : ReplayTurn), Settled t ∧ t.status = s.status →
      Orderly t turn → Settled (ReplaySystem.step req t turn) ∧
        (ReplaySystem.step req t turn).status = s.status := by
    intro t turn ht hok
    have hover' : t.isOver = true := (over_of_status ht.2).trans hover
    exact ⟨ht.1.step req hok, (ht.1.status_step req turn hover').trans ht.2⟩
  exact (run_invariant (fun t => Settled t ∧ t.status = s.status) hstep ⟨h, rfl⟩ hmeet).2

end Orders

/-- When all steps are orderly, a terminal status stays, at most one terminal event is
published, and a session whose cancel was accepted does not complete. -/
theorem cancel_safe (req : ReplayRequest) (session : Option ReplaySession)
    (requests : List CancelRequest) (turns later : List ReplayTurn)
    (h : StepsMeet (ReplaySystem.step req) Orderly (ReplaySystem.start session requests)
      (turns ++ later)) :
    SafeAlong req session requests turns later := by
  have hfirst := settled_run ( StepsMeet.prefix h)
  have hlast := settled_run h
  refine ⟨fun hover => ?_, ?_, fun haccepted hcompleted => ?_⟩
  · rw [run_append]
    exact status_run hfirst hover (StepsMeet.suffix h)
  · have hle := hlast.owed_le
    omega
  · rcases hlast.accepted haccepted with hcancelled | hcancelled
    · exact (hlast.token hcancelled).1 hcompleted
    · rw [hcancelled] at hcompleted
      cases hcompleted

/-- A session with one batch that is still pending. -/
def pendingSession : ReplaySession := {}

/-- A call that runs it. -/
def oneBatchRequest : ReplayRequest where
  sessionId := "s"
  history := [{ batchId := "b" }]
  sqrt := id

/-- A cancel that comes while the batch is run is accepted, and the session ends cancelled. -/
theorem cancel_while_running :
    SafeAlong { oneBatchRequest with history := [{ batchId := "a" }, { batchId := "b" }] }
      (some pendingSession) [{}]
      (List.replicate 7 (.run {}) ++ [.cancel 0, .cancel 0]) (List.replicate 6 (.run {})) :=
  cancel_safe _ _ _ _ _ (by decide +kernel)

/-- A cancel reads a session before it runs and writes it while it runs: the status goes from
cancelled to completed, two terminal events are published, and the cancel was accepted. -/
theorem cancel_overtaken :
    let turns : List ReplayTurn :=
      List.replicate 3 (.run {}) ++ [.cancel 0] ++ List.replicate 6 (.run {}) ++
        List.replicate 5 (.cancel 0)
    let later : List ReplayTurn := List.replicate 4 (.run {})
    let s := run (ReplaySystem.step oneBatchRequest) (.start (some pendingSession) [{}]) turns
    let t := run (ReplaySystem.step oneBatchRequest) (.start (some pendingSession) [{}])
      (turns ++ later)
    s.status = some .cancelled ∧ t.status = some .completed ∧ t.terminalEvents = 2 ∧
      t.accepted = true ∧
      ¬ ∀ req session requests turns later, SafeAlong req session requests turns later := by
  refine ⟨by decide +kernel, by decide +kernel, by decide +kernel, by decide +kernel, ?_⟩
  intro h
  have hsafe := h oneBatchRequest (some pendingSession) [{}]
    (List.replicate 3 (.run {}) ++ [.cancel 0] ++ List.replicate 6 (.run {}) ++
      List.replicate 5 (.cancel 0)) (List.replicate 4 (.run {}))
  have hstay := hsafe.1 (by decide +kernel)
  revert hstay
  decide +kernel

end Backtest
end ContExchange
