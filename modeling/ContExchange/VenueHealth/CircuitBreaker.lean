import ContExchange.Common.Double
import ContExchange.Lib.Runs
import Mathlib.Data.Finset.Card

/-!
# Venue health: the circuit breaker

Every raw health report drives the circuit breaker of its venue and the score and routing
recommendation of the venue.  The breaker keeps the timestamps of error reports in a set,
drops those that are older than the window by the clock, and opens when the rest reach
the threshold.

* `Monitor`: the state of a venue, with the timestamps of all error reports and the
  reading at which the breaker last went from another state to `Open`;
* `Follows`: what one report may do: `Closed` opens exactly when the error reports in the
  window reach the threshold, `Open` turns `HalfOpen` only after the cooldown, `HalfOpen`
  closes only on an OK report, and score and routing are not better than without the
  breaker;
* `follows_run`: along every run whose reports meet `ReportOk` each report follows this.

Two error reports with one timestamp count once, an error report that is older than the
window counts when it arrives, and `HalfOpen` raises a score below `0.1`.
-/

namespace ContExchange
namespace VenueHealth

open Common Lib List

inductive VenueHealthStatus where
  | unspecified
  | ok
  | stale
  | disconnected
  | rateLimit
  | degraded
deriving DecidableEq

def VenueHealthStatus.isError : VenueHealthStatus → Bool
  | .ok | .rateLimit => false
  | _ => true

/-- `RawReport`; times and durations are in nanoseconds. -/
structure RawReport where
  venue : String := ""
  timestamp : Int
  venueStatus : VenueHealthStatus
  latency : Int := 0
  stale : Int := 0
  errorRate : Double := .num 0
  errorCount : Nat := 0
  snapshotsPerSec : Double := .num 0
  lastSnapshotAge : Double := .num 0
  reason : String := ""
deriving DecidableEq

structure Config where
  circuitBreakerWindow : Int
  circuitBreakerCooldown : Int
  circuitBreakerErrorThreshold : Nat
  staleThreshold : Int

inductive CircuitBreakerState where
  | closed
  | halfOpen
  | opened
deriving DecidableEq

structure CircuitBreaker where
  state : CircuitBreakerState := .closed
  errorTimestamps : Finset Int := ∅
  cooldownEnd : Int := 0

/-- What the clock shows when the border of the window is computed, and when the cooldown
is set or checked. -/
structure Readings where
  border : Int
  cooldown : Int

/-- The timestamps the breaker keeps with a report. -/
def CircuitBreaker.keptTimestamps (config : Config) (clock : Readings) (b : CircuitBreaker)
    (report : RawReport) : Finset Int :=
  let border := clock.border - config.circuitBreakerWindow
  let kept := b.errorTimestamps.filter (fun t => border ≤ t)
  if report.venueStatus.isError then insert report.timestamp kept else kept

def CircuitBreaker.onRawReport (config : Config) (clock : Readings) (b : CircuitBreaker)
    (report : RawReport) : CircuitBreaker :=
  let b := { b with errorTimestamps := b.keptTimestamps config clock report }
  if config.circuitBreakerErrorThreshold ≤ b.errorTimestamps.card then
    { b with
      cooldownEnd := clock.cooldown + config.circuitBreakerCooldown
      state := .opened }
  else
    match b.state with
    | .opened => if b.cooldownEnd ≤ clock.cooldown then { b with state := .halfOpen } else b
    | .halfOpen =>
        if report.venueStatus = .ok then { b with state := .closed }
        else
          { b with
            cooldownEnd := clock.cooldown + config.circuitBreakerCooldown
            state := .opened }
    | .closed => b

/-- `RoutingRecommendation`, from the worst to the best. -/
inductive RoutingRecommendation where
  | block
  | avoid
  | caution
  | allow
deriving DecidableEq

/-- The place of a recommendation in the enumeration. -/
def RoutingRecommendation.rank : RoutingRecommendation → Nat
  | .block => 0
  | .avoid => 1
  | .caution => 2
  | .allow => 3

protected def RoutingRecommendation.min (a b : RoutingRecommendation) : RoutingRecommendation :=
  if b.rank < a.rank then b else a

structure VenueState where
  score : Double := .num 1
  routing : RoutingRecommendation := .allow
  updatedAt : Int := 0
  status : VenueHealthStatus := .unspecified
  latency : Int := 0
  stale : Int := 0
  errorRate : Double := .num 0
  errorCount : Nat := 0
  snapshotsPerSec : Double := .num 0
  lastSnapshotAge : Double := .num 0
  reason : String := ""
  breaker : CircuitBreaker := {}

/-- The score and the recommendation of a report before the breaker is asked. -/
def assess (config : Config) (score : Double) (report : RawReport) :
    Double × RoutingRecommendation :=
  let score := (((Double.num 1).sub report.errorRate).add score).div (.num 2)
  let routing := RoutingRecommendation.allow
  let (score, routing) :=
    if report.venueStatus = .stale ∨ config.staleThreshold < report.stale then
      (Double.min score (Double.ofRat (2 / 10)), RoutingRecommendation.min routing .avoid)
    else (score, routing)
  let (score, routing) :=
    if 500000000 < report.latency ∨ report.snapshotsPerSec.lt (.num 2) then
      (Double.min score (Double.ofRat (5 / 10)), RoutingRecommendation.min routing .caution)
    else (score, routing)
  if report.venueStatus = .rateLimit then
    (Double.min score (Double.ofRat (8 / 10)), RoutingRecommendation.min routing .caution)
  else (score, routing)

/-- The score of a venue whose breaker is half open. -/
def halfOpenScore : Double := Double.ofRat (1 / 10)

/-- What the breaker leaves of a score and a recommendation. -/
def overruled (state : CircuitBreakerState) (base : Double × RoutingRecommendation) :
    Double × RoutingRecommendation :=
  match state with
  | .opened => (.num 0, .block)
  | .halfOpen => (halfOpenScore, .avoid)
  | .closed => base

def VenueState.onRawReport (config : Config) (clock : Readings) (v : VenueState)
    (report : RawReport) : VenueState :=
  let breaker := v.breaker.onRawReport config clock report
  let (score, routing) := overruled breaker.state (assess config v.score report)
  { score := score
    routing := routing
    updatedAt := report.timestamp
    status := report.venueStatus
    latency := report.latency
    stale := report.stale
    errorRate := report.errorRate
    errorCount := report.errorCount
    snapshotsPerSec := report.snapshotsPerSec
    lastSnapshotAge := report.lastSnapshotAge
    reason := report.reason
    breaker := breaker }

/-- A report and what the clock shows while it is handled. -/
structure Arrival where
  report : RawReport
  clock : Readings

/-- The state of a venue, with the timestamps of all its error reports, the last reading
of the clock and the reading at which the breaker last opened. -/
structure Monitor where
  venue : VenueState := {}
  errors : List Int := []
  lastReading : Option Int := none
  openedAt : Int := 0

namespace Monitor

variable (config : Config)

def errorsWith (s : Monitor) (e : Arrival) : List Int :=
  if e.report.venueStatus.isError then e.report.timestamp :: s.errors else s.errors

def step (s : Monitor) (e : Arrival) : Monitor :=
  let venue := s.venue.onRawReport config e.clock e.report
  { venue := venue
    errors := s.errorsWith e
    lastReading := some e.clock.cooldown
    openedAt :=
      if venue.breaker.state = .opened ∧ s.venue.breaker.state ≠ .opened then e.clock.cooldown
      else s.openedAt }

/-- The number of error reports that are not older than the window, the new one included. -/
def errorsInWindow (s : Monitor) (e : Arrival) : Nat :=
  (s.errorsWith e).countP (fun t => decide (e.clock.border - config.circuitBreakerWindow ≤ t))

/-- What the specification allows a report to do. -/
structure Follows (s : Monitor) (e : Arrival) : Prop where
  opens : s.venue.breaker.state = .closed →
    ((s.step config e).venue.breaker.state = .opened ↔
      config.circuitBreakerErrorThreshold ≤ s.errorsInWindow config e)
  atThreshold : config.circuitBreakerErrorThreshold ≤ s.errorsInWindow config e →
    (s.step config e).venue.breaker.state = .opened
  stays : s.venue.breaker.state = .closed →
    (s.step config e).venue.breaker.state ≠ .halfOpen
  trial : s.venue.breaker.state = .opened →
    (s.step config e).venue.breaker.state = .opened ∨
      (s.step config e).venue.breaker.state = .halfOpen ∧
        s.openedAt + config.circuitBreakerCooldown ≤ e.clock.cooldown
  closes : s.venue.breaker.state = .halfOpen →
    (s.step config e).venue.breaker.state = .opened ∨
      (s.step config e).venue.breaker.state = .closed ∧ e.report.venueStatus = .ok
  score : (s.step config e).venue.breaker.state ≠ .closed →
    (assess config s.venue.score e.report).1.lt (s.step config e).venue.score = false
  routing : (s.step config e).venue.breaker.state ≠ .closed →
    (s.step config e).venue.routing.rank ≤ (assess config s.venue.score e.report).2.rank

/-- The report makes the breaker half open. -/
def Tried (s : Monitor) (e : Arrival) : Prop :=
  s.errorsInWindow config e < config.circuitBreakerErrorThreshold ∧
    s.venue.breaker.state = .opened ∧ s.venue.breaker.cooldownEnd ≤ e.clock.cooldown
deriving Decidable

def Passed (s : Monitor) (e : Arrival) : Prop :=
  s.errorsInWindow config e < config.circuitBreakerErrorThreshold ∧
    (s.venue.breaker.state = .closed ∨
      s.venue.breaker.state = .halfOpen ∧ e.report.venueStatus = .ok)
deriving Decidable

/-- The condition on a report: the clock does not run back, an error report is not older
than the window and has a timestamp of its own, and a score that the breaker overrules is
not below the one it writes. -/
structure ReportOk (s : Monitor) (e : Arrival) : Prop where
  clock : (∀ t ∈ s.lastReading, t ≤ e.clock.border) ∧ e.clock.border ≤ e.clock.cooldown
  fresh : e.report.venueStatus.isError →
    e.clock.border - config.circuitBreakerWindow ≤ e.report.timestamp ∧
      e.report.timestamp ∉ s.errors
  tried : s.Tried config e →
    (assess config s.venue.score e.report).1.lt halfOpenScore = false
  blocked : ¬ s.Tried config e → ¬ s.Passed config e →
    (assess config s.venue.score e.report).1.lt (.num 0) = false

instance (s : Monitor) (e : Arrival) : Decidable (s.ReportOk config e) :=
  decidable_of_iff
    (((∀ t ∈ s.lastReading, t ≤ e.clock.border) ∧ e.clock.border ≤ e.clock.cooldown) ∧
      (e.report.venueStatus.isError →
        e.clock.border - config.circuitBreakerWindow ≤ e.report.timestamp ∧
          e.report.timestamp ∉ s.errors) ∧
      (s.Tried config e →
        (assess config s.venue.score e.report).1.lt halfOpenScore = false) ∧
      (¬ s.Tried config e → ¬ s.Passed config e →
        (assess config s.venue.score e.report).1.lt (.num 0) = false))
    ⟨fun h => ⟨h.1, h.2.1, h.2.2.1, h.2.2.2⟩, fun h => ⟨h.clock, h.fresh, h.tried, h.blocked⟩⟩

/-- What the breaker knows of the past: from any border that is not before the last one,
the set holds the error reports, each of them once; while it is open, the cooldown ends no
earlier than it should. -/
structure Knows (s : Monitor) : Prop where
  kept : ∀ border, (∀ t ∈ s.lastReading, t - config.circuitBreakerWindow ≤ border) →
    s.venue.breaker.errorTimestamps.filter (fun t => border ≤ t) =
        (s.errors.filter (fun t => decide (border ≤ t))).toFinset ∧
      (s.errors.filter (fun t => decide (border ≤ t))).Nodup
  opened : s.venue.breaker.state = .opened →
    s.openedAt + config.circuitBreakerCooldown ≤ s.venue.breaker.cooldownEnd ∧
      ∃ t ∈ s.lastReading, s.openedAt ≤ t

theorem knows_start : Knows config {} where
  kept _ _ := ⟨rfl, nodup_nil⟩
  opened h := nomatch h

variable {config} {s : Monitor} {e : Arrival}

/-- From any border that is not before that of the report, the set with the report holds
the error reports, each of them once. -/
theorem Knows.kept_with (h : s.Knows config) (hok : s.ReportOk config e) {border : Int}
    (hborder : e.clock.border - config.circuitBreakerWindow ≤ border) :
    (s.venue.breaker.keptTimestamps config e.clock e.report).filter (fun t => border ≤ t) =
        ((s.errorsWith e).filter (fun t => decide (border ≤ t))).toFinset ∧
      ((s.errorsWith e).filter (fun t => decide (border ≤ t))).Nodup := by
  have hlast : ∀ t ∈ s.lastReading, t - config.circuitBreakerWindow ≤ border := by
    intro t ht
    have hclock := hok.clock.1 t ht
    omega
  obtain ⟨hset, hnodup⟩ := h.kept border hlast
  have hpruned : (s.venue.breaker.errorTimestamps.filter
      (fun t => e.clock.border - config.circuitBreakerWindow ≤ t)).filter (fun t => border ≤ t) =
      (s.errors.filter (fun t => decide (border ≤ t))).toFinset := by
    rw [Finset.filter_filter, ← hset]
    refine Finset.filter_congr (fun t _ => ?_)
    exact and_iff_right_of_imp (fun hle => hborder.trans hle)
  unfold CircuitBreaker.keptTimestamps errorsWith
  dsimp only
  by_cases herror : e.report.venueStatus.isError = true
  · rw [if_pos herror, if_pos herror]
    by_cases hin : border ≤ e.report.timestamp
    · rw [Finset.filter_insert, if_pos hin, filter_cons_of_pos (by simpa using hin),
        hpruned, toFinset_cons, nodup_cons]
      refine ⟨rfl, fun hmem => ?_, hnodup⟩
      exact (hok.fresh herror).2 (mem_of_mem_filter hmem)
    · rw [Finset.filter_insert, if_neg hin, filter_cons_of_neg (by simpa using hin)]
      exact ⟨hpruned, hnodup⟩
  · rw [if_neg herror, if_neg herror]
    exact ⟨hpruned, hnodup⟩

theorem Knows.card_eq (h : s.Knows config) (hok : s.ReportOk config e) :
    (s.venue.breaker.keptTimestamps config e.clock e.report).card =
      s.errorsInWindow config e := by
  obtain ⟨hset, hnodup⟩ := h.kept_with hok le_rfl
  have hall : (s.venue.breaker.keptTimestamps config e.clock e.report).filter
      (fun t => e.clock.border - config.circuitBreakerWindow ≤ t) =
      s.venue.breaker.keptTimestamps config e.clock e.report := by
    refine Finset.filter_true_of_mem (fun t ht => ?_)
    unfold CircuitBreaker.keptTimestamps at ht
    dsimp only at ht
    split at ht
    · rename_i herror
      rcases Finset.mem_insert.mp ht with rfl | hold
      · exact (hok.fresh herror).1
      · exact (Finset.mem_filter.mp hold).2
    · exact (Finset.mem_filter.mp ht).2
  rw [← hall, hset, toFinset_card_of_nodup hnodup]
  exact countP_eq_length_filter.symm

/-- What a report does to the breaker, by the number of error reports in the window. -/
inductive Moved (config : Config) (e : Arrival) (count : Nat) (b b' : CircuitBreaker) : Prop where
  | tripped (hcount : config.circuitBreakerErrorThreshold ≤ count)
      (hstate : b'.state = .opened)
      (hend : b'.cooldownEnd = e.clock.cooldown + config.circuitBreakerCooldown)
  | waits (hcount : count < config.circuitBreakerErrorThreshold)
      (hbefore : b.state = .opened) (htime : e.clock.cooldown < b.cooldownEnd)
      (hstate : b'.state = .opened) (hend : b'.cooldownEnd = b.cooldownEnd)
  | tried (hcount : count < config.circuitBreakerErrorThreshold)
      (hbefore : b.state = .opened) (htime : b.cooldownEnd ≤ e.clock.cooldown)
      (hstate : b'.state = .halfOpen)
  | closed (hcount : count < config.circuitBreakerErrorThreshold)
      (hbefore : b.state = .halfOpen) (hok : e.report.venueStatus = .ok)
      (hstate : b'.state = .closed)
  | reopened (hcount : count < config.circuitBreakerErrorThreshold)
      (hbefore : b.state = .halfOpen) (hok : e.report.venueStatus ≠ .ok)
      (hstate : b'.state = .opened)
      (hend : b'.cooldownEnd = e.clock.cooldown + config.circuitBreakerCooldown)
  | stayed (hcount : count < config.circuitBreakerErrorThreshold)
      (hbefore : b.state = .closed) (hstate : b'.state = .closed)

theorem moved_onRawReport (config : Config) (e : Arrival) (b : CircuitBreaker) :
    Moved config e (b.keptTimestamps config e.clock e.report).card b
      (b.onRawReport config e.clock e.report) := by
  unfold CircuitBreaker.onRawReport
  dsimp only
  split
  · rename_i hcount
    exact .tripped hcount rfl rfl
  · rename_i hcount
    rw [not_le] at hcount
    split
    · rename_i hbefore
      split
      · rename_i htime
        exact .tried hcount hbefore htime rfl
      · rename_i htime
        exact .waits hcount hbefore (not_le.mp htime) hbefore rfl
    · rename_i hbefore
      split
      · rename_i hok
        exact .closed hcount hbefore hok rfl
      · rename_i hok
        exact .reopened hcount hbefore hok rfl rfl
    · rename_i hbefore
      exact .stayed hcount hbefore hbefore

theorem breaker_step (s : Monitor) (e : Arrival) :
    (s.step config e).venue.breaker = s.venue.breaker.onRawReport config e.clock e.report := rfl

theorem Knows.moved (h : s.Knows config) (hok : s.ReportOk config e) :
    Moved config e (s.errorsInWindow config e) s.venue.breaker (s.step config e).venue.breaker := by
  rw [← h.card_eq hok]
  exact moved_onRawReport config e s.venue.breaker

theorem errorTimestamps_onRawReport (config : Config) (clock : Readings) (b : CircuitBreaker)
    (report : RawReport) :
    (b.onRawReport config clock report).errorTimestamps =
      b.keptTimestamps config clock report := by
  unfold CircuitBreaker.onRawReport
  dsimp only
  split
  · rfl
  · split
    · split <;> rfl
    · split <;> rfl
    · rfl

theorem knows_step (h : s.Knows config) (hok : s.ReportOk config e) :
    (s.step config e).Knows config where
  kept := by
    intro border hborder
    have hlast : e.clock.cooldown - config.circuitBreakerWindow ≤ border := hborder _ rfl
    have hclock := hok.clock.2
    have hafter : e.clock.border - config.circuitBreakerWindow ≤ border := by omega
    rw [breaker_step, errorTimestamps_onRawReport]
    exact h.kept_with hok hafter
  opened := by
    intro hopened
    have hat : (s.step config e).openedAt =
        if s.venue.breaker.state ≠ .opened then e.clock.cooldown else s.openedAt := by
      exact if_congr (and_iff_right hopened) rfl rfl
    have hlast : (s.step config e).lastReading = some e.clock.cooldown := rfl
    rw [hat, hlast]
    -- an open breaker opened no later than the clock shows now
    have hbefore : s.venue.breaker.state = .opened →
        s.openedAt + config.circuitBreakerCooldown ≤ s.venue.breaker.cooldownEnd ∧
          s.openedAt ≤ e.clock.cooldown := by
      intro hstate
      obtain ⟨hend, t, ht, hle⟩ := h.opened hstate
      have hclock := hok.clock.1 t ht
      have hclock' := hok.clock.2
      exact ⟨hend, by omega⟩
    by_cases hstate : s.venue.breaker.state = .opened
    · rw [if_neg (not_not.mpr hstate)]
      obtain ⟨hend, hle⟩ := hbefore hstate
      refine ⟨?_, _, rfl, hle⟩
      cases h.moved hok with
      | tripped _ _ hend' => omega
      | waits _ _ _ _ hend' => omega
      | tried _ _ _ hafter =>
          rw [hopened] at hafter
          cases hafter
      | closed _ hhalf _ _ =>
          rw [hstate] at hhalf
          cases hhalf
      | reopened _ hhalf _ _ _ =>
          rw [hstate] at hhalf
          cases hhalf
      | stayed _ hclosed _ =>
          rw [hstate] at hclosed
          cases hclosed
    · rw [if_pos hstate]
      refine ⟨?_, _, rfl, le_rfl⟩
      cases h.moved hok with
      | tripped _ _ hend' => exact hend'.ge
      | waits _ hbefore' _ _ _ => exact absurd hbefore' hstate
      | tried _ hbefore' _ _ => exact absurd hbefore' hstate
      | closed _ _ _ hafter =>
          rw [hopened] at hafter
          cases hafter
      | reopened _ _ _ _ hend' => exact hend'.ge
      | stayed _ _ hafter =>
          rw [hopened] at hafter
          cases hafter

theorem one_le_rank_assess (config : Config) (score : Double) (report : RawReport) :
    1 ≤ (assess config score report).2.rank := by
  unfold assess
  dsimp only
  split <;> split <;> split <;> exact Nat.le_of_ble_eq_true rfl

theorem rank_overruled_le (config : Config) (score : Double) (report : RawReport)
    (state : CircuitBreakerState) :
    (overruled state (assess config score report)).2.rank ≤
      (assess config score report).2.rank := by
  cases state with
  | closed => exact le_rfl
  | halfOpen => exact one_le_rank_assess config score report
  | opened => exact Nat.zero_le _

theorem score_step (s : Monitor) (e : Arrival) :
    (s.step config e).venue.score = (overruled (s.step config e).venue.breaker.state
      (assess config s.venue.score e.report)).1 := rfl

theorem routing_step (s : Monitor) (e : Arrival) :
    (s.step config e).venue.routing = (overruled (s.step config e).venue.breaker.state
      (assess config s.venue.score e.report)).2 := rfl

theorem score_not_better (h : s.Knows config) (hok : s.ReportOk config e)
    (hnot : (s.step config e).venue.breaker.state ≠ .closed) :
    (assess config s.venue.score e.report).1.lt (s.step config e).venue.score = false := by
  rw [score_step]
  cases h.moved hok with
  | tripped hcount hstate _ =>
      rw [hstate]
      exact hok.blocked (fun htried => htried.1.not_ge hcount)
        (fun hpassed => hpassed.1.not_ge hcount)
  | waits _ hbefore htime hstate _ =>
      rw [hstate]
      refine hok.blocked (fun htried => htried.2.2.not_gt htime) ?_
      rintro ⟨-, hclosed | ⟨hhalf, -⟩⟩
      · rw [hbefore] at hclosed
        cases hclosed
      · rw [hbefore] at hhalf
        cases hhalf
  | tried hcount hbefore htime hstate =>
      rw [hstate]
      exact hok.tried ⟨hcount, hbefore, htime⟩
  | closed _ _ _ hstate => exact absurd hstate hnot
  | reopened _ hbefore hno hstate _ =>
      rw [hstate]
      refine hok.blocked ?_ ?_
      · rintro ⟨-, hopened, -⟩
        rw [hbefore] at hopened
        cases hopened
      · rintro ⟨-, hclosed | ⟨-, hyes⟩⟩
        · rw [hbefore] at hclosed
          cases hclosed
        · exact hno hyes
  | stayed _ _ hstate => exact absurd hstate hnot

theorem follows_step (h : s.Knows config) (hok : s.ReportOk config e) : s.Follows config e where
  opens := by
    intro hbefore
    cases h.moved hok with
    | tripped hcount hstate _ => exact iff_of_true hstate hcount
    | waits _ hbefore' _ _ _ | tried _ hbefore' _ _ =>
        rw [hbefore] at hbefore'
        cases hbefore'
    | closed _ hbefore' _ _ | reopened _ hbefore' _ _ _ =>
        rw [hbefore] at hbefore'
        cases hbefore'
    | stayed hcount _ hstate =>
        rw [hstate]
        exact iff_of_false nofun hcount.not_ge
  atThreshold := by
    intro hcount
    cases h.moved hok with
    | tripped _ hstate _ => exact hstate
    | waits hcount' _ _ _ _ | tried hcount' _ _ _ => exact absurd hcount hcount'.not_ge
    | closed hcount' _ _ _ | reopened hcount' _ _ _ _ => exact absurd hcount hcount'.not_ge
    | stayed hcount' _ _ => exact absurd hcount hcount'.not_ge
  stays := by
    intro hbefore
    cases h.moved hok with
    | tripped _ hstate _ | waits _ _ _ hstate _ | reopened _ _ _ hstate _ =>
        rw [hstate]
        nofun
    | tried _ hbefore' _ _ =>
        rw [hbefore] at hbefore'
        cases hbefore'
    | closed _ _ _ hstate | stayed _ _ hstate =>
        rw [hstate]
        nofun
  trial := by
    intro hbefore
    cases h.moved hok with
    | tripped _ hstate _ | waits _ _ _ hstate _ | reopened _ _ _ hstate _ => exact .inl hstate
    | tried _ _ htime hstate => exact .inr ⟨hstate, (h.opened hbefore).1.trans htime⟩
    | closed _ hbefore' _ _ | stayed _ hbefore' _ =>
        rw [hbefore] at hbefore'
        cases hbefore'
  closes := by
    intro hbefore
    cases h.moved hok with
    | tripped _ hstate _ | waits _ _ _ hstate _ | reopened _ _ _ hstate _ => exact .inl hstate
    | closed _ _ hyes hstate => exact .inr ⟨hstate, hyes⟩
    | tried _ hbefore' _ _ | stayed _ hbefore' _ =>
        rw [hbefore] at hbefore'
        cases hbefore'
  score := score_not_better h hok
  routing _ := by
    rw [routing_step]
    exact rank_overruled_le config s.venue.score e.report _

end Monitor

/-- Along every run whose reports meet the condition, each report follows the
specification. -/
theorem follows_run (config : Config) (es : List Arrival)
    (hok : StepsMeet (Monitor.step config) (Monitor.ReportOk config) {} es) :
    StepsMeet (Monitor.step config) (Monitor.Follows config) {} es := by
  have hstep : ∀ (s : Monitor) e, s.Knows config → s.ReportOk config e →
      (s.step config e).Knows config := fun _ _ h hok => Monitor.knows_step h hok
  exact (hok.with_invariant hstep (Monitor.knows_start config)).imp
    (fun _ _ h => Monitor.follows_step h.1 h.2)

/-- A window and a cooldown of ten seconds, and a threshold of two. -/
def twoErrors : Config where
  circuitBreakerWindow := 10000000000
  circuitBreakerCooldown := 10000000000
  circuitBreakerErrorThreshold := 2
  staleThreshold := 1000000000

/-- A report that is handled when it is sent. -/
def arrivalAt (now : Int) (timestamp : Int) (venueStatus : VenueHealthStatus) : Arrival where
  report := { timestamp, venueStatus, snapshotsPerSec := .num 10 }
  clock := { border := now, cooldown := now }

/-- Two errors open the breaker, the cooldown passes, and an OK report closes it. -/
theorem follows_tripped :
    StepsMeet (Monitor.step twoErrors) (Monitor.Follows twoErrors) {}
      [arrivalAt 1000000000 1000000000 .disconnected,
        arrivalAt 2000000000 2000000001 .degraded,
        arrivalAt 30000000000 30000000000 .ok,
        arrivalAt 31000000000 31000000000 .ok] :=
  follows_run twoErrors _ (by decide +kernel)

/-- Two errors with one timestamp do not open it. -/
theorem equal_timestamps_merged :
    ¬ StepsMeet (Monitor.step twoErrors) (Monitor.Follows twoErrors) {}
      [arrivalAt 1000000000 1000000000 .disconnected,
        arrivalAt 2000000000 1000000000 .disconnected] := by
  intro h
  exact absurd (h.2.1.atThreshold (by decide +kernel)) (by decide +kernel)

end VenueHealth
end ContExchange
