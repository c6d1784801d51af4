import ContExchange.Ledger.Safety

/-!
# Ledger: two deliveries of one batch

`ApplyBatchResult` as a sequence of atomic steps: the answer of
`IsBatchProcessed`, the locked section, one step for each port call, and the
marking of the batch.  Two deliveries of the same batch interleave these steps
over the same books.

* `step` is the interleaving semantics; a schedule says who moves and how the
  port call of the move ends.
* `batch_applied_once`: if no delivery is told "not processed" after the other
  one was, the books end as after one application.
* `redelivery_applies_twice`: a lost mark, or a race of the two checks, applies
  the batch twice.
-/

namespace ContExchange
namespace Ledger
namespace Delivery

open Common Lib

structure PositionRow where
  userId : String
  symbol : String
  side : String
  quantity : Decimal
  avgEntryPrice : Decimal
  unrealizedPnl : Decimal
  realizedPnl : Decimal
deriving DecidableEq

/-- `AccountRow`, used as a change of the two balances. -/
structure AccountRow where
  userId : String
  asset : String
  freeBalance : Decimal
  reservedBalance : Decimal
deriving DecidableEq

/-- The optional ports that are attached besides the idempotency repository. -/
structure Ports where
  positionsRepo : Bool
  entriesRepo : Bool
  positionAccountTx : Bool
  positionsUpdatePublisher : Bool
deriving DecidableEq

/-- How a port call ends.  `unavailable` is a failure the adapter logs and
hides: `IsBatchProcessed` then answers `false`. -/
inductive PortOutcome where
  | ok
  | throws
  | unavailable
deriving DecidableEq

/-- The steps of `ApplyBatchResult` after its first check. -/
inductive Action where
  | applyLocked
  | applyFill (fill : FlowFill)
  | createEntriesForFill (fill : FlowFill)
  | snapshotPosition (fill : FlowFill)
  | applyFillTx (row : PositionRow) (deltas : List AccountRow)
  | markBatchProcessed
  | publish (userId : String)
deriving DecidableEq

/-- The position row of a fill, taken from the books under the lock. -/
def positionRow (s : LedgerUseCases) (fill : FlowFill) : PositionRow :=
  let pos := s.ensurePosition fill.userId fill.instrument.symbol
  let sign := Decimal.cmp pos.amount Decimal.zero
  { userId := fill.userId
    symbol := fill.instrument.symbol
    side := if sign > 0 then "long" else if sign < 0 then "short" else "flat"
    quantity := if sign < 0 then pos.amount.negUnits else pos.amount
    avgEntryPrice := pos.avgEntryPrice
    unrealizedPnl := Decimal.zero
    realizedPnl := pos.realisedPnl }

def accountDeltas (fill : FlowFill) : List AccountRow :=
  match spent fill, received fill with
  | some (spentAsset, spentAmount), some (receivedAsset, receivedAmount) =>
      [{ userId := fill.userId
         asset := spentAsset
         freeBalance := Decimal.zero
         reservedBalance := spentAmount.negUnits },
       { userId := fill.userId
         asset := receivedAsset
         freeBalance := receivedAmount
         reservedBalance := Decimal.zero }]
  | _, _ => []

/-- The users of the batch that get a `positions.update`, each once. -/
def updatedUsers : (seen : List String) → List FlowFill → List String
  | _, [] => []
  | seen, fill :: fills =>
      if fill.userId = "" ∨ fill.userId ∈ seen then updatedUsers seen fills
      else fill.userId :: updatedUsers (fill.userId :: seen) fills

def fillActions (ports : Ports) (fill : FlowFill) : List Action :=
  (if ports.positionsRepo then [.applyFill fill] else []) ++
    (if ports.entriesRepo then [.createEntriesForFill fill] else []) ++
    (if ports.positionAccountTx then [.snapshotPosition fill] else [])

/-- The steps of a delivery that was told the batch is not processed. -/
def program (ports : Ports) (batch : BatchResult) : List Action :=
  .applyLocked :: batch.fills.flatMap (fillActions ports) ++
    .markBatchProcessed ::
      (if ports.positionsUpdatePublisher then
        (updatedUsers [] batch.fills).map .publish
      else [])

/-- Where a delivery stands. -/
inductive Phase where
  | start
  | running (rest : List Action)
  | skipped
  | failed
deriving DecidableEq

/-- The two deliveries. -/
inductive Caller where
  | first
  | second
deriving DecidableEq

/-- The other delivery. -/
def Caller.other : Caller → Caller
  | .first => .second
  | .second => .first

/-- The books, the processed batch ids and the two deliveries. -/
structure World where
  books : LedgerUseCases
  processed : List String
  first : Phase
  second : Phase

def World.phase (w : World) : Caller → Phase
  | .first => w.first
  | .second => w.second

/-- The world with a new phase of one delivery. -/
def World.setPhase (w : World) (caller : Caller) (phase : Phase) : World :=
  match caller with
  | .first => { w with first := phase }
  | .second => { w with second := phase }

/-- `IsBatchProcessed` answers `false`. -/
def answersNo (batch : BatchResult) (w : World) : PortOutcome → Prop
  | .ok => batch.batchId ∉ w.processed
  | .throws => False
  | .unavailable => True

/-- The first step: the answer of `IsBatchProcessed`.  Its exception leaves
`ApplyBatchResult`, before anything is changed. -/
def check (ports : Ports) (batch : BatchResult) (w : World) : PortOutcome → Phase
  | .ok => if batch.batchId ∈ w.processed then .skipped else .running (program ports batch)
  | .throws => .failed
  | .unavailable => .running (program ports batch)

/-- The effect of a step on the books.  Exceptions of the ports are caught, and
the ports do not touch the books. -/
def actionBooks (batch : BatchResult) (s : LedgerUseCases) : Action → LedgerUseCases
  | .applyLocked => applyBatchLocked s batch
  | .snapshotPosition fill => s.modifyPosition fill.userId fill.instrument.symbol id
  | _ => s

/-- The steps that are left after a step: the row of a snapshot goes to
`ApplyFillTx`. -/
def afterAction (s : LedgerUseCases) (action : Action) (rest : List Action) : List Action :=
  match action with
  | .snapshotPosition fill => .applyFillTx (positionRow s fill) (accountDeltas fill) :: rest
  | _ => rest

/-- The effect of a step on the processed batch ids. -/
def actionProcessed
    (batch : BatchResult) (processed : List String) : Action → PortOutcome → List String
  | .markBatchProcessed, .ok => batch.batchId :: processed
  | _, _ => processed

def step
    (ports : Ports) (batch : BatchResult) (w : World)
    (move : Caller × PortOutcome) : World :=
  match w.phase move.1 with
  | .start => w.setPhase move.1 (check ports batch w move.2)
  | .running (action :: rest) =>
      { w with
        books := actionBooks batch w.books action
        processed := actionProcessed batch w.processed action move.2 }.setPhase
        move.1 (.running (afterAction w.books action rest))
  | _ => w

/-- The books after one delivery alone, from its first step to its last. -/
def appliedOnce (ports : Ports) (batch : BatchResult) (s : LedgerUseCases) : LedgerUseCases :=
  run (actionBooks batch) s (program ports batch)

/-- A delivery has returned. -/
def Phase.finished : Phase → Prop
  | .running [] | .skipped | .failed => True
  | _ => False

/-- Neither delivery has started and the batch is new. -/
structure Fresh (batch : BatchResult) (w : World) : Prop where
  first : w.first = .start
  second : w.second = .start
  unprocessed : batch.batchId ∉ w.processed

/-- The condition on a step: a delivery is told "not processed" only when the
other one was not told so before. -/
def CheckOk (batch : BatchResult) (w : World) (move : Caller × PortOutcome) : Prop :=
  w.phase move.1 = .start → answersNo batch w move.2 →
    ∀ rest, w.phase move.1.other ≠ .running rest

section Access

variable (w : World) (caller : Caller) (phase : Phase)

@[simp] theorem phase_setPhase : (w.setPhase caller phase).phase caller = phase := by
  cases caller <;> rfl

@[simp] theorem phase_setPhase_other :
    (w.setPhase caller phase).phase caller.other = w.phase caller.other := by
  cases caller <;> rfl

@[simp] theorem books_setPhase : (w.setPhase caller phase).books = w.books := by
  cases caller <;> rfl

@[simp] theorem processed_setPhase : (w.setPhase caller phase).processed = w.processed := by
  cases caller <;> rfl

@[simp] theorem other_other : caller.other.other = caller := by
  cases caller <;> rfl

end Access

/-- The invariant: either nothing has happened, or one delivery is applying the
batch and its remaining steps lead to the books after one application. -/
inductive Progress
    (ports : Ports) (batch : BatchResult) (s : LedgerUseCases) (w : World) : Prop where
  | untouched
      (books : w.books = s)
      (unprocessed : batch.batchId ∉ w.processed)
      (phase : ∀ caller, w.phase caller = .start ∨ w.phase caller = .failed)
  | applying
      (caller : Caller) (rest : List Action)
      (phase : w.phase caller = .running rest)
      (books : run (actionBooks batch) w.books rest = appliedOnce ports batch s)
      (other : ∀ rest', w.phase caller.other ≠ .running rest')

section ExactlyOnce

variable
  {ports : Ports}
  {batch : BatchResult}
  {s : LedgerUseCases}
  {w : World}

theorem run_afterAction (action : Action) (rest : List Action) :
    run (actionBooks batch) (actionBooks batch s action) (afterAction s action rest) =
      run (actionBooks batch) s (action :: rest) := by
  cases action <;> rfl

theorem caller_eq_or (c d : Caller) : d = c ∨ d = c.other := by
  cases c <;> cases d <;> simp [Caller.other]

theorem answersNo_iff_check (outcome : PortOutcome) :
    answersNo batch w outcome ↔
      check ports batch w outcome = .running (program ports batch) := by
  cases outcome with
  | ok =>
      by_cases h : batch.batchId ∈ w.processed <;> simp [answersNo, check, h]
  | throws => simp [answersNo, check]
  | unavailable => simp [answersNo, check]

theorem check_cases (ports : Ports) (batch : BatchResult) (w : World) (outcome : PortOutcome) :
    check ports batch w outcome = .running (program ports batch) ∨
      check ports batch w outcome = .failed ∨
      (check ports batch w outcome = .skipped ∧ batch.batchId ∈ w.processed) := by
  cases outcome with
  | ok =>
      by_cases h : batch.batchId ∈ w.processed <;> simp [check, h]
  | throws => simp [check]
  | unavailable => simp [check]

theorem Progress.step (move : Caller × PortOutcome) (h : Progress ports batch s w)
    (hok : CheckOk batch w move) : Progress ports batch s (step ports batch w move) := by
  obtain ⟨mover, outcome⟩ := move
  unfold Delivery.step
  cases hphase : w.phase mover with
  | skipped => exact h
  | failed => exact h
  | start =>
      dsimp only
      rcases check_cases ports batch w outcome with hrun | hended
      · -- told "not processed": the other delivery was not
        have hother := hok hphase ((answersNo_iff_check outcome).mpr hrun)
        have hbooks : w.books = s := by
          cases h with
          | untouched books _ _ => exact books
          | applying caller rest phase _ _ =>
              rcases caller_eq_or mover caller with rfl | rfl
              · rw [hphase] at phase
                cases phase
              · exact absurd phase (hother rest)
        refine .applying mover (program ports batch) (by simp [hrun]) ?_ ?_
        · rw [books_setPhase, hbooks]
          rfl
        · intro rest'
          rw [phase_setPhase_other]
          exact hother rest'
      · cases h with
        | untouched books unprocessed phase =>
            rw [hended.resolve_right fun hskipped => unprocessed hskipped.2]
            refine .untouched (by simpa using books) (by simpa using unprocessed) ?_
            intro caller
            rcases caller_eq_or mover caller with rfl | rfl
            · simp
            · simpa using phase mover.other
        | applying caller rest phase books other =>
            rcases caller_eq_or mover caller with rfl | rfl
            · rw [hphase] at phase
              cases phase
            · refine .applying mover.other rest (by simpa using phase) (by simpa using books) ?_
              intro rest'
              rcases hended with hfailed | ⟨hskipped, -⟩
              · simp [hfailed]
              · simp [hskipped]
  | running actions =>
      cases actions with
      | nil => exact h
      | cons action rest =>
          dsimp only
          cases h with
          | untouched _ _ phase =>
              rcases phase mover with hstart | hfailed
              · rw [hphase] at hstart
                cases hstart
              · rw [hphase] at hfailed
                cases hfailed
          | applying caller rest' phase books other =>
              rcases caller_eq_or mover caller with rfl | rfl
              · rw [hphase] at phase
                obtain rfl := Phase.running.inj phase
                refine .applying caller (afterAction w.books action rest) (by simp) ?_ ?_
                · rw [books_setPhase, run_afterAction]
                  exact books
                · intro rest''
                  rw [phase_setPhase_other]
                  exact other rest''
              · rw [other_other] at other
                exact absurd hphase (other (action :: rest))

theorem second_ne_failed {schedule : List (Caller × PortOutcome)}
    (hsecond : ∀ move ∈ schedule, move.1 = .second → move.2 = .ok) (hstart : w.second ≠ .failed) :
    (run (step ports batch) w schedule).second ≠ .failed := by
  induction schedule generalizing w with
  | nil => exact hstart
  | cons move schedule ih =>
      apply ih (fun m hm => hsecond m (List.mem_cons_of_mem _ hm))
      obtain ⟨mover, outcome⟩ := move
      unfold step
      cases mover with
      | first =>
          split <;> exact hstart
      | second =>
          have hout : outcome = .ok := hsecond (.second, outcome) (by simp) rfl
          subst hout
          split
          · simp only [World.setPhase, check]
            split <;> simp
          · simp [World.setPhase]
          · exact hstart

/-- Exactly once: in every interleaving of two deliveries in which no delivery is
told "not processed" after the other one was, whatever port calls of the first
delivery fail, the books end as after one application. -/
theorem batch_applied_once (schedule : List (Caller × PortOutcome)) (hfresh : Fresh batch w)
    (hsecond : ∀ move ∈ schedule, move.1 = .second → move.2 = .ok)
    (hmeet : StepsMeet (step ports batch) (CheckOk batch) w schedule)
    (hfinished : ∀ caller, ((run (step ports batch) w schedule).phase caller).finished) :
    (run (step ports batch) w schedule).books = appliedOnce ports batch w.books := by
  have hinit : Progress ports batch w.books w := by
    refine .untouched rfl hfresh.unprocessed ?_
    intro caller
    cases caller with
    | first => exact .inl hfresh.first
    | second => exact .inl hfresh.second
  have hrun := run_invariant (Progress ports batch w.books)
    (fun _ move hw hok => hw.step move hok) hinit hmeet
  cases hrun with
  | untouched _ _ phase =>
      have hnot : (run (step ports batch) w schedule).second ≠ .failed :=
        second_ne_failed hsecond (by rw [hfresh.second]; simp)
      have hdone := hfinished .second
      rcases phase .second with hstart | hfailed
      · rw [hstart] at hdone
        cases hdone
      · exact absurd hfailed hnot
  | applying caller rest phase books _ =>
      have hdone := hfinished caller
      rw [phase] at hdone
      cases rest with
      | nil => exact books
      | cons action rest => cases hdone

end ExactlyOnce

/-- Only the idempotency repository is attached. -/
def idempotencyOnly : Ports where
  positionsRepo := false
  entriesRepo := false
  positionAccountTx := false
  positionsUpdatePublisher := false

/-- The order `o1` is reserved and its batch is about to be delivered. -/
def demoWorld : World where
  books := (reserveFunds LedgerUseCases.demoSeed demoReserve).1
  processed := []
  first := .start
  second := .start

/-- The first delivery runs alone and its `MarkBatchProcessed` throws; then the
batch is delivered again. -/
def lostMark : List (Caller × PortOutcome) :=
  [(.first, .ok), (.first, .ok), (.first, .throws),
    (.second, .ok), (.second, .ok), (.second, .ok)]

/-- Both deliveries check before either of them marks the batch. -/
def checkRace : List (Caller × PortOutcome) :=
  [(.first, .ok), (.second, .ok), (.first, .ok), (.second, .ok),
    (.first, .ok), (.second, .ok)]

/-- The first delivery runs alone; the second one finds the batch marked. -/
def serialDelivery : List (Caller × PortOutcome) :=
  [(.first, .ok), (.first, .ok), (.first, .ok), (.second, .ok)]

theorem fresh_demoWorld : Fresh demoBatch demoWorld :=
  ⟨rfl, rfl, by simp [demoWorld]⟩

/-- Both deliveries of the batch end, every port call of the second one succeeds, and
the books are not those of one application. -/
def AppliesTwice (schedule : List (Caller × PortOutcome)) : Prop :=
  Fresh demoBatch demoWorld ∧
    (∀ move ∈ schedule, move.1 = .second → move.2 = .ok) ∧
    (∀ caller, ((run (step idempotencyOnly demoBatch) demoWorld schedule).phase
      caller).finished) ∧
    (run (step idempotencyOnly demoBatch) demoWorld schedule).books ≠
      appliedOnce idempotencyOnly demoBatch demoWorld.books

/-- A lost mark, and a race of the two checks without any failure, leave other
books than one application. -/
theorem redelivery_applies_twice : AppliesTwice lostMark ∧ AppliesTwice checkRace := by
  have hdiffer : ∀ schedule ∈ [lostMark, checkRace],
      ((run (step idempotencyOnly demoBatch) demoWorld schedule).books.balance
        "demo-user" "USDT").reserved.units ≠
      ((appliedOnce idempotencyOnly demoBatch demoWorld.books).balance
        "demo-user" "USDT").reserved.units := by
    decide +kernel
  have hsecond : ∀ schedule ∈ [lostMark, checkRace],
      ∀ move ∈ schedule, move.1 = .second → move.2 = .ok := by
    decide
  have htwice : ∀ schedule ∈ [lostMark, checkRace], AppliesTwice schedule := by
    intro schedule hschedule
    refine ⟨fresh_demoWorld, hsecond schedule hschedule, ?_, ?_⟩
    · intro caller
      rcases List.mem_pair.mp hschedule with rfl | rfl
      · cases caller <;> trivial
      · cases caller <;> trivial
    · intro heq
      apply hdiffer schedule hschedule
      rw [heq]
  exact ⟨htwice lostMark (by simp), htwice checkRace (by simp)⟩

/-- A serial redelivery leaves the books after one application. -/
theorem serialDelivery_applied_once :
    (run (step idempotencyOnly demoBatch) demoWorld serialDelivery).books =
      appliedOnce idempotencyOnly demoBatch demoWorld.books := by
  refine batch_applied_once serialDelivery fresh_demoWorld (by decide) ?_ ?_
  · refine ⟨?_, ?_, ?_, ?_, trivial⟩
    · intro _ _ rest
      exact Phase.noConfusion
    · intro hstart
      cases hstart
    · intro hstart
      cases hstart
    · intro _ hno
      exact absurd (List.mem_cons_self) hno
  · intro caller
    cases caller <;> trivial

end Delivery
end Ledger
end ContExchange
