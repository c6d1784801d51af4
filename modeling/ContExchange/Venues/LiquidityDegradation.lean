import ContExchange.Common.Double
import ContExchange.Ledger.ExecutionReports

/-!
# Venues: degradation of the liquidity curves

`LiquidityCurveProducer::Publish` turns a snapshot of a venue into a curve and publishes
it.  Failed publications and failed executions are counted for each venue and symbol; the
counters lower the level at which the next curve is built, down to `OFF`, where nothing is
built.

* `publish`, `observeExecution`: the two operations that move the counters;
* `callLevel`: the level the counters leave to a call;
* `publish_off`: at `OFF` a call publishes nothing and changes nothing;
* `recovers_iff`: after any history, calls that find nothing else wrong reach the publisher
  again exactly when one of them is not at `OFF` from the start.

The counter of failed publications goes back to zero only where a curve is published, and
`OFF` returns before that point.  What the curve builder and the quality measures find in a
call comes with the call, and so do the answers of the publisher and of the repository.
-/

namespace ContExchange
namespace Venues

open Common Lib
open Ledger (ExecutionIntent ExecutionReport ExecutionReportStatus hasNonEmptyError)

/-- `CurveBuildLevel`, from the worst to the best. -/
inductive CurveBuildLevel where
  | off
  | l1
  | l2
  | l3
deriving DecidableEq

def CurveBuildLevel.rank : CurveBuildLevel → Int
  | .off => 0
  | .l1 => 1
  | .l2 => 2
  | .l3 => 3

/-- The level of a number.  A number past the last level is compared as the last one. -/
def CurveBuildLevel.ofRank (rank : Int) : CurveBuildLevel :=
  if rank ≤ 0 then .off else if rank = 1 then .l1 else if rank = 2 then .l2 else .l3

def normalizeText (level : String) : String :=
  String.ofList (level.toList.map Char.toUpper)

def parseLevel (rawLevel : String) : CurveBuildLevel :=
  let level := normalizeText rawLevel
  if level = "OFF" then .off
  else if level = "L1" then .l1
  else if level = "L3" then .l3
  else .l2

def levelToString : CurveBuildLevel → String
  | .l1 => "L1"
  | .l2 => "L2"
  | .l3 => "L3"
  | .off => "OFF"

def minLevel (lhs rhs : CurveBuildLevel) : CurveBuildLevel :=
  if lhs.rank < rhs.rank then lhs else rhs

/-- `DowngradeBySteps`; the steps are cast to a signed number. -/
def downgradeBySteps (level : CurveBuildLevel) (steps : UInt32) : CurveBuildLevel :=
  .ofRank (max 0 (level.rank - steps.toInt32.toInt))

def isStaleStatus (status : String) : Bool :=
  normalizeText status = "STALE"

def isOffStatus (status : String) : Bool :=
  let normalized := normalizeText status
  normalized = "DISCONNECTED" || normalized = "EMPTY"

theorem ofRank_eq_off_iff {rank : Int} : CurveBuildLevel.ofRank rank = .off ↔ rank ≤ 0 := by
  unfold CurveBuildLevel.ofRank
  split
  · simp [*]
  · split
    · simp [*]
    · split <;> simp [*]

theorem downgradeBySteps_eq_off_iff {level : CurveBuildLevel} {steps : UInt32} :
    downgradeBySteps level steps = .off ↔ level.rank ≤ steps.toInt32.toInt := by
  rw [downgradeBySteps, ofRank_eq_off_iff]
  omega

theorem rank_minLevel_le (lhs rhs : CurveBuildLevel) : (minLevel lhs rhs).rank ≤ lhs.rank := by
  unfold minLevel
  split <;> omega

theorem rank_nonpos_iff {level : CurveBuildLevel} :
    level.rank ≤ CurveBuildLevel.off.rank ↔ level = .off := by
  cases level <;> decide

structure CurveQualityThresholds where
  epsilon1Degrade : Double := .ofRat (1 / 100)
  epsilon1Disable : Double := .ofRat (5 / 100)
  epsilon2Degrade : Double := .ofRat (1 / 100)
  epsilon2Disable : Double := .ofRat (5 / 100)
  epsilon3Degrade : Double := .ofRat (75 / 100)
  epsilon3Disable : Double := .ofRat (95 / 100)

structure CurveDegradationConfig where
  enabled : Bool := true
  epsilon1GreenBps : Double := .num 25
  epsilon2GreenBps : Double := .num 5
  epsilon3GreenBps : Double := .num 25
  minL3Confidence : Double := .ofRat (35 / 100)
  minL2Confidence : Double := .ofRat (10 / 100)
  minL1Confidence : Double := .ofRat (1 / 100)
  staleConfidenceMultiplier : Double := .ofRat (35 / 100)
  l3NoExecutionConfidenceMultiplier : Double := .ofRat (85 / 100)
  errorConfidencePenalty : Double := .ofRat (10 / 100)
  maxConsecutiveErrorsOff : UInt32 := 3
  publishStaleL1Fallback : Bool := false

/-- `LiquidityCurveProducerConfig`, and whether there is a publisher. -/
structure LiquidityCurveProducerConfig where
  publisher : Bool := true
  level : String := "L3"
  l3ImpactEnabled : Bool := false
  degradation : CurveDegradationConfig := {}
  syntheticEnabled : Bool := false
  enableQualityGating : Bool := false
  qualityThresholds : CurveQualityThresholds := {}

structure LegacyQualityMetrics where
  epsilon1 : Double
  epsilon2 : Double
  epsilon3 : Double

/-- What the builder and the measures give for one level: which curves are empty, the
errors against the base curves, and on which sides executions were sampled. -/
structure Candidate where
  bidEmpty : Bool := false
  askEmpty : Bool := false
  epsilon1 : Double
  epsilon2 : Double
  calibrationError : Double
  sellSamples : Bool := false
  buySamples : Bool := false
  legacy : LegacyQualityMetrics

/-- `candidate_bid.empty() || candidate_ask.empty()`. -/
def Candidate.empty (c : Candidate) : Bool :=
  c.bidEmpty || c.askEmpty

/-- A call of `Publish`: the snapshot, the options, what the builder finds for the base
curves and for each level, whether the publisher takes the curve, and for each synthetic
order whether it is published and stored. -/
structure PublishCall where
  venueId : String
  symbol : String
  status : String
  partitionKey : String := ""
  requestedLevel : Option String := none
  syntheticEnabled : Option Bool := none
  bidBaseEmpty : Bool := false
  askBaseEmpty : Bool := false
  candidates : CurveBuildLevel → Candidate
  published : Bool
  synthetics : List (Bool × Bool) := []

def symbolKey (venueId symbol : String) : String :=
  venueId ++ "|" ++ symbol

def PublishCall.key (call : PublishCall) : String :=
  symbolKey call.venueId call.symbol

/-- The level a call asks for, by its options or by the settings. -/
def requestedLevel (config : LiquidityCurveProducerConfig) (call : PublishCall) :
    CurveBuildLevel :=
  match call.requestedLevel with
  | some level => if level ≠ "" then parseLevel level else parseLevel config.level
  | none => parseLevel config.level

structure DegradationState where
  consecutivePublishErrors : UInt32 := 0
  consecutiveExecutionErrors : UInt32 := 0
deriving DecidableEq

/-- `degradation_state_by_symbol_`. -/
abbrev DegradationStates := Table String DegradationState

/-- The counters of a key; those of a key without a row are zero. -/
def countersOf (states : DegradationStates) (key : String) : DegradationState :=
  (states.lookup key).getD {}

/-- The sum of the two counters. -/
def DegradationState.operationalErrors (state : DegradationState) : UInt32 :=
  state.consecutivePublishErrors + state.consecutiveExecutionErrors

def clampFinite (value lo hi : Double) : Double :=
  if !value.isFinite then lo
  else if value.lt lo then lo
  else if hi.lt value then hi
  else value

def clamp01 (value : Double) : Double :=
  clampFinite value Double.zero Double.one

def safePositiveScale (value fallback : Double) : Double :=
  if !value.isFinite || value.le Double.zero then fallback else value

/-- The highest level of a call, what its confidences are multiplied with, and the reason. -/
structure LevelDecision where
  maxLevel : CurveBuildLevel
  signalMultiplier : Double := Double.one
  degradeReason : String := "ok"

/-- The level before the counters are looked at: without the impact calibration there is no
`L3`, and a stale snapshot gives at most `L1`. -/
def uncountedLevel (config : LiquidityCurveProducerConfig) (requested : CurveBuildLevel)
    (status : String) : LevelDecision :=
  let decision : LevelDecision :=
    if requested = .l3 ∧ config.l3ImpactEnabled = false then
      { maxLevel := .l2
        degradeReason := "l3_disabled" }
    else { maxLevel := requested }
  if config.degradation.enabled = true ∧ isStaleStatus status = true then
    { maxLevel := minLevel decision.maxLevel .l1
      signalMultiplier :=
        decision.signalMultiplier.mul
          (clampFinite config.degradation.staleConfidenceMultiplier Double.zero Double.one)
      degradeReason := "stale" }
  else decision

/-- The level the counters leave. -/
def decideLevel (config : LiquidityCurveProducerConfig) (requested : CurveBuildLevel)
    (status : String) (state : DegradationState) : LevelDecision :=
  let decision := uncountedLevel config requested status
  let operationalErrors := state.operationalErrors
  if config.degradation.enabled = false then decision
  else if config.degradation.maxConsecutiveErrorsOff ≤ operationalErrors then
    { decision with
      maxLevel := .off
      degradeReason := "too_many_errors" }
  else if 0 < operationalErrors then
    let errorPenalty :=
      clampFinite config.degradation.errorConfidencePenalty Double.zero Double.one
    { maxLevel := downgradeBySteps decision.maxLevel operationalErrors
      signalMultiplier :=
        decision.signalMultiplier.mul
          (Double.max Double.zero
            (Double.one.sub (errorPenalty.mul (.num operationalErrors.toNat))))
      degradeReason := "errors" }
  else decision

structure CurveQuality where
  epsilon1 : Double := Double.zero
  epsilon2 : Double := Double.zero
  epsilon3 : Double := Double.zero
  confidence : Double := Double.zero

inductive CurveQualityAction where
  | accept
  | degrade
  | disable
deriving DecidableEq

def qualityActionToString (action : CurveQualityAction) (gatingEnabled : Bool) : String :=
  if gatingEnabled = false then "none"
  else
    match action with
    | .accept => "accept"
    | .degrade => "degrade"
    | .disable => "disable"

def decideQualityAction (metrics : LegacyQualityMetrics) (thresholds : CurveQualityThresholds)
    (gatingEnabled : Bool) : CurveQualityAction :=
  if gatingEnabled = false then .accept
  else if thresholds.epsilon1Disable.le metrics.epsilon1 ||
      thresholds.epsilon2Disable.le metrics.epsilon2 ||
      thresholds.epsilon3Disable.le metrics.epsilon3 then .disable
  else if thresholds.epsilon1Degrade.le metrics.epsilon1 ||
      thresholds.epsilon2Degrade.le metrics.epsilon2 ||
      thresholds.epsilon3Degrade.le metrics.epsilon3 then .degrade
  else .accept

def minConfidenceForLevel (level : CurveBuildLevel) (config : CurveDegradationConfig) : Double :=
  match level with
  | .l3 => clampFinite config.minL3Confidence Double.zero Double.one
  | .l2 => clampFinite config.minL2Confidence Double.zero Double.one
  | .l1 => clampFinite config.minL1Confidence Double.zero Double.one
  | .off => Double.one

def evaluateQuality (config : LiquidityCurveProducerConfig) (signalMultiplier : Double)
    (level : CurveBuildLevel) (candidate : Candidate) : CurveQuality :=
  let impact := level = .l3 ∧ config.l3ImpactEnabled = true
  let epsilon3 := if impact then candidate.calibrationError else Double.zero
  let scale1 := safePositiveScale config.degradation.epsilon1GreenBps Double.one
  let scale2 := safePositiveScale config.degradation.epsilon2GreenBps (.num (1 / 2))
  let scale3 := safePositiveScale config.degradation.epsilon3GreenBps (.num 2)
  let epsilonPressure :=
    ((candidate.epsilon1.div scale1).add (candidate.epsilon2.div scale2)).add
      (epsilon3.div scale3)
  let confidence := clamp01 (Double.one.div (Double.one.add epsilonPressure))
  let covered :=
    if impact then
      let samples (b : Bool) : Double := if b then Double.one else Double.zero
      let coverage :=
        (Double.num (1 / 2)).mul
          ((samples candidate.sellSamples).add (samples candidate.buySamples))
      let noHistoryMultiplier :=
        clampFinite config.degradation.l3NoExecutionConfidenceMultiplier Double.zero Double.one
      confidence.mul
        (coverage.add ((Double.one.sub coverage).mul noHistoryMultiplier))
    else confidence
  { epsilon1 := candidate.epsilon1
    epsilon2 := candidate.epsilon2
    epsilon3 := epsilon3
    confidence := clamp01 (covered.mul signalMultiplier) }

/-- What the search over the levels has found. -/
structure Selection where
  effectiveLevel : CurveBuildLevel := .off
  quality : CurveQuality := {}
  action : CurveQualityAction := .accept
  hardDisabled : Bool := false
  degradeReason : String

/-- The search over the candidate levels: the first level that is accepted ends it. -/
def searchLevels (config : LiquidityCurveProducerConfig) (call : PublishCall)
    (decision : LevelDecision) : List CurveBuildLevel → Selection → Selection
  | [], found => found
  | level :: levels, found =>
      let candidate := call.candidates level
      if decision.maxLevel.rank < level.rank then
        searchLevels config call decision levels found
      else if candidate.empty then
        searchLevels config call decision levels { found with degradeReason := "empty_curve" }
      else
        let quality := evaluateQuality config decision.signalMultiplier level candidate
        let legacyAction :=
          decideQualityAction candidate.legacy config.qualityThresholds
            config.enableQualityGating
        if legacyAction = .disable then
          searchLevels config call decision levels
            { found with
              hardDisabled := true
              degradeReason := "quality_gating_disable" }
        else if legacyAction = .degrade ∧ CurveBuildLevel.l1.rank < level.rank then
          searchLevels config call decision levels
            { found with degradeReason := "quality_gating" }
        else if config.degradation.enabled = false ∨
            (minConfidenceForLevel level config.degradation).le quality.confidence = true then
          { found with
            effectiveLevel := level
            quality := quality
            action := legacyAction }
        else
          searchLevels config call decision levels
            { found with degradeReason := "curve_quality" }

/-- Where no level is accepted and none is disabled, `L1` is taken as it is. -/
def forceL1Fallback (config : LiquidityCurveProducerConfig) (call : PublishCall)
    (decision : LevelDecision) (found : Selection) : Selection :=
  if found.effectiveLevel = .off ∧ found.hardDisabled = false ∧
      CurveBuildLevel.l1.rank ≤ decision.maxLevel.rank ∧
      (call.candidates .l1).empty = false then
    { found with
      effectiveLevel := .l1
      quality := evaluateQuality config decision.signalMultiplier .l1 (call.candidates .l1)
      action := .degrade
      degradeReason := "forced_l1_fallback" }
  else found

/-- The level at which a curve is built, and its quality. -/
def selectLevel (config : LiquidityCurveProducerConfig) (call : PublishCall)
    (decision : LevelDecision) : Selection :=
  forceL1Fallback config call decision
    (searchLevels config call decision [.l3, .l2, .l1]
      { degradeReason := decision.degradeReason })

/-- `fob.venue.v1.VenueLiquidityCurve` as it is published, with the tags of the decision. -/
structure VenueLiquidityCurve where
  key : String
  venueId : String
  symbol : String
  level : String
  quality : CurveQuality
  requestedLevel : String
  degradationReason : String
  qualityAction : String

def liquidityCurve (config : LiquidityCurveProducerConfig) (call : PublishCall)
    (selection : Selection) : VenueLiquidityCurve where
  key := if call.partitionKey = "" then call.key else call.partitionKey
  venueId := call.venueId
  symbol := call.symbol
  level := levelToString selection.effectiveLevel
  quality := selection.quality
  requestedLevel := levelToString (requestedLevel config call)
  degradationReason := selection.degradeReason
  qualityAction := qualityActionToString selection.action config.enableQualityGating

/-- `PublishSyntheticFlowOrders`: whether all orders are published and stored. -/
def publishSyntheticFlowOrders (enabled : Bool) (synthetics : List (Bool × Bool)) : Bool :=
  if enabled = false then true
  else if synthetics = [] then false
  else synthetics.all (fun answer => answer.1 && answer.2)

/-- What a call of `Publish` leaves: its result, the curve it hands to the publisher, and
the counters. -/
structure PublishOutcome where
  result : Bool
  curve : Option VenueLiquidityCurve
  states : DegradationStates

/-- The call returns `false` before the publisher is asked. -/
def notBuilt (states : DegradationStates) : PublishOutcome where
  result := false
  curve := none
  states := states

/-- The counters after the publisher has answered. -/
def countPublication (states : DegradationStates) (key : String) (ok : Bool) :
    DegradationStates :=
  let state := countersOf states key
  states.insert key
    { state with
      consecutivePublishErrors := if ok then 0 else state.consecutivePublishErrors + 1 }

/-- `Publish` from the call of `PublishLiquidityFob` on. -/
def publishCurve (config : LiquidityCurveProducerConfig) (states : DegradationStates)
    (call : PublishCall) (curve : VenueLiquidityCurve) : PublishOutcome :=
  let counted := countPublication states call.key call.published
  let enabled := call.syntheticEnabled.getD config.syntheticEnabled
  let outcome (result : Bool) (states : DegradationStates) : PublishOutcome :=
    { result := result
      curve := some curve
      states := states }
  if call.published = false then outcome false counted
  else if enabled = true ∧ isStaleStatus call.status = true then outcome true counted
  else if publishSyntheticFlowOrders enabled call.synthetics = false then
    outcome false (countPublication counted call.key false)
  else outcome true counted

def publish (config : LiquidityCurveProducerConfig) (states : DegradationStates)
    (call : PublishCall) : PublishOutcome :=
  if config.publisher = false then notBuilt states
  else if call.venueId = "" ∨ call.symbol = "" then notBuilt states
  else if requestedLevel config call = .off then notBuilt states
  else if isOffStatus call.status then notBuilt states
  else if isStaleStatus call.status = true ∧
      config.degradation.publishStaleL1Fallback = false then notBuilt states
  else
    let decision :=
      decideLevel config (requestedLevel config call) call.status (countersOf states call.key)
    if decision.maxLevel = .off then notBuilt states
    else if call.bidBaseEmpty || call.askBaseEmpty then notBuilt states
    else
      let selection := selectLevel config call decision
      if selection.effectiveLevel = .off then notBuilt states
      else publishCurve config states call (liquidityCurve config call selection)

def isExecutionFailure (report : ExecutionReport) : Bool :=
  report.status = .rejected || report.status = .expired || hasNonEmptyError report

/-- The venue and the symbol an execution is counted for. -/
def observedVenue (intent : ExecutionIntent) (report : ExecutionReport) : String :=
  if report.venue = "" then intent.venue else report.venue

@[inherit_doc observedVenue]
def observedSymbol (intent : ExecutionIntent) (report : ExecutionReport) : String :=
  if report.instrument.symbol ≠ "" then report.instrument.symbol else intent.instrument.symbol

/-- `ObserveExecution`, as far as it counts. -/
def observeExecution (states : DegradationStates) (intent : ExecutionIntent)
    (report : ExecutionReport) : DegradationStates :=
  let venue := observedVenue intent report
  let symbol := observedSymbol intent report
  if venue = "" ∨ symbol = "" then states
  else
    let key := symbolKey venue symbol
    let state := countersOf states key
    states.insert key
      (if isExecutionFailure report then
        { state with consecutiveExecutionErrors := state.consecutiveExecutionErrors + 1 }
      else if report.status = .filled ∨ report.status = .partiallyFilled then
        { state with consecutiveExecutionErrors := 0 }
      else state)

section Calls

variable {config : LiquidityCurveProducerConfig}
variable {states : DegradationStates}
variable {call : PublishCall}

/-- The highest level of a call under the counters. -/
def callLevel (config : LiquidityCurveProducerConfig) (states : DegradationStates)
    (call : PublishCall) : CurveBuildLevel :=
  (decideLevel config (requestedLevel config call) call.status
    (countersOf states call.key)).maxLevel

theorem publish_cases (config : LiquidityCurveProducerConfig) (states : DegradationStates)
    (call : PublishCall) :
    publish config states call = notBuilt states ∨
      ∃ curve, publish config states call = publishCurve config states call curve := by
  unfold publish
  dsimp only
  split_ifs
  all_goals first
    | exact Or.inl rfl
    | exact Or.inr ⟨_, rfl⟩

theorem publish_off (h : callLevel config states call = .off) :
    publish config states call = notBuilt states := by
  have hoff :
      (decideLevel config (requestedLevel config call) call.status
        (countersOf states call.key)).maxLevel = .off := h
  simp only [publish, hoff, if_true]
  split_ifs <;> rfl

theorem rank_uncountedLevel_le (config : LiquidityCurveProducerConfig)
    (requested : CurveBuildLevel) {status : String} (hfresh : isStaleStatus status = false)
    (status' : String) :
    (uncountedLevel config requested status').maxLevel.rank ≤
      (uncountedLevel config requested status).maxLevel.rank := by
  simp only [uncountedLevel, hfresh, Bool.false_eq_true, and_false, if_false]
  by_cases hstale : config.degradation.enabled = true ∧ isStaleStatus status' = true
  · rw [if_pos hstale]
    exact rank_minLevel_le _ _
  · rw [if_neg hstale]

theorem decideLevel_off_of_fresh {requested : CurveBuildLevel} {state : DegradationState}
    {status : String} (hfresh : isStaleStatus status = false)
    (h : (decideLevel config requested status state).maxLevel = .off) (status' : String) :
    (decideLevel config requested status' state).maxLevel = .off := by
  have hle := rank_uncountedLevel_le config requested hfresh status'
  unfold decideLevel at h ⊢
  dsimp only at h ⊢
  by_cases henabled : config.degradation.enabled = false
  · rw [if_pos henabled] at h ⊢
    exact rank_nonpos_iff.mp (h ▸ hle)
  · rw [if_neg henabled] at h ⊢
    by_cases hmany : config.degradation.maxConsecutiveErrorsOff ≤ state.operationalErrors
    · rw [if_pos hmany]
    · rw [if_neg hmany] at h ⊢
      by_cases hsome : 0 < state.operationalErrors
      · rw [if_pos hsome] at h ⊢
        rw [downgradeBySteps_eq_off_iff] at h ⊢
        exact hle.trans h
      · rw [if_neg hsome] at h ⊢
        exact rank_nonpos_iff.mp (h ▸ hle)

/-- A call that finds nothing wrong but the counters: the snapshot is fresh and not empty,
the base curves and the curves of `L1` are there, no level is disabled for its quality, and
the publisher works. -/
structure GoodCall (config : LiquidityCurveProducerConfig) (call : PublishCall) : Prop where
  venue : call.venueId ≠ ""
  symbol : call.symbol ≠ ""
  requested : requestedLevel config call ≠ .off
  connected : isOffStatus call.status = false
  fresh : isStaleStatus call.status = false
  base : (call.bidBaseEmpty || call.askBaseEmpty) = false
  curves : (call.candidates .l1).empty = false
  quality : ∀ level,
    decideQualityAction (call.candidates level).legacy config.qualityThresholds
      config.enableQualityGating ≠ .disable
  published : call.published = true

theorem GoodCall.hardDisabled_searchLevels (good : GoodCall config call)
    (decision : LevelDecision) (levels : List CurveBuildLevel) (found : Selection) :
    (searchLevels config call decision levels found).hardDisabled = found.hardDisabled := by
  induction levels generalizing found with
  | nil => rfl
  | cons level levels ih =>
      have hquality := good.quality level
      unfold searchLevels
      dsimp only
      split_ifs
      all_goals first
        | exact ih _
        | contradiction
        | rfl

theorem GoodCall.selectLevel_ne_off (good : GoodCall config call) {decision : LevelDecision}
    (h : decision.maxLevel ≠ .off) : (selectLevel config call decision).effectiveLevel ≠ .off := by
  have hdisabled :=
    good.hardDisabled_searchLevels decision [.l3, .l2, .l1]
      { degradeReason := decision.degradeReason }
  have hrank : CurveBuildLevel.l1.rank ≤ decision.maxLevel.rank := by
    have hpos := mt rank_nonpos_iff.mp h
    simp only [CurveBuildLevel.rank] at hpos ⊢
    omega
  unfold selectLevel forceL1Fallback
  split_ifs with hfallback
  · simp
  · intro hoff
    exact hfallback ⟨hoff, hdisabled, hrank, good.curves⟩

theorem GoodCall.reaches_iff (hpublisher : config.publisher = true) (good : GoodCall config call) :
    (publish config states call).curve.isSome = true ↔ callLevel config states call ≠ .off := by
  constructor
  · intro hsome hoff
    rw [publish_off hoff] at hsome
    simp [notBuilt] at hsome
  · intro hlevel
    have hlevel' :
        (decideLevel config (requestedLevel config call) call.status
          (countersOf states call.key)).maxLevel ≠ .off := hlevel
    have hselected := good.selectLevel_ne_off hlevel'
    unfold publish
    simp only [hpublisher, good.venue, good.symbol, good.requested, good.connected, good.fresh,
      good.base, hlevel', hselected, false_and, or_self, if_false, Bool.true_eq_false,
      Bool.false_eq_true]
    unfold publishCurve
    dsimp only
    split_ifs <;> rfl

end Calls

/-- What happens to a producer. -/
inductive CurveEvent where
  | publish (call : PublishCall)
  | observe (intent : ExecutionIntent) (report : ExecutionReport)

/-- The key whose counters an event may change. -/
def CurveEvent.key : CurveEvent → String
  | .publish call => call.key
  | .observe intent report =>
      symbolKey (observedVenue intent report) (observedSymbol intent report)

/-- The counters after an event. -/
def curveStep (config : LiquidityCurveProducerConfig) (states : DegradationStates) :
    CurveEvent → DegradationStates
  | .publish call => (publish config states call).states
  | .observe intent report => observeExecution states intent report

section Histories

variable {config : LiquidityCurveProducerConfig}
variable {states : DegradationStates}

theorem countersOf_insert_of_ne {key other : String} (h : other ≠ key) (state : DegradationState) :
    countersOf (states.insert other state) key = countersOf states key := by
  rw [countersOf, countersOf, AList.lookup_insert_ne h.symm]

variable {key : String}

theorem countersOf_curveStep_of_ne {e : CurveEvent} (h : e.key ≠ key) :
    countersOf (curveStep config states e) key = countersOf states key := by
  cases e with
  | publish call =>
      have hkey : call.key ≠ key := h
      have hcount : ∀ (t : DegradationStates) (ok : Bool),
          countersOf (countPublication t call.key ok) key = countersOf t key :=
        fun t ok => countersOf_insert_of_ne hkey _
      change countersOf (publish config states call).states key = _
      rcases publish_cases config states call with hnone | ⟨curve, hcurve⟩
      · rw [hnone]
        rfl
      · rw [hcurve]
        unfold publishCurve
        dsimp only
        split_ifs <;> simp only [hcount]
  | observe intent report =>
      have hkey : symbolKey (observedVenue intent report) (observedSymbol intent report) ≠ key := h
      change countersOf (observeExecution states intent report) key = _
      unfold observeExecution
      dsimp only
      split_ifs
      all_goals first
        | rfl
        | exact countersOf_insert_of_ne hkey _

def ReachesPublisher (config : LiquidityCurveProducerConfig) (key : String)
    (states : DegradationStates) (e : CurveEvent) : Prop :=
  ∃ call, e = .publish call ∧ call.key = key ∧
    (publish config states call).curve.isSome = true

/-- The event is a call for the key that the counters do not put at `OFF`. -/
def AboveOff (config : LiquidityCurveProducerConfig) (key : String)
    (states : DegradationStates) (e : CurveEvent) : Prop :=
  ∃ call, e = .publish call ∧ call.key = key ∧ callLevel config states call ≠ .off

/-- Whatever happens to other keys, the key gets calls of `Publish` only. -/
def CallsOnly (key : String) (later : ℕ → CurveEvent) : Prop :=
  ∀ n, (later n).key = key → ∃ call, later n = .publish call

/-- Whatever happens to other keys, the key gets good calls only. -/
def GoodCallsOnly (config : LiquidityCurveProducerConfig) (key : String)
    (later : ℕ → CurveEvent) : Prop :=
  ∀ n, (later n).key = key → ∃ call, later n = .publish call ∧ GoodCall config call

variable {later : ℕ → CurveEvent}

theorem GoodCallsOnly.callsOnly (h : GoodCallsOnly config key later) : CallsOnly key later := by
  intro n hn
  obtain ⟨call, hcall, -⟩ := h n hn
  exact ⟨call, hcall⟩

theorem ReachesPublisher.aboveOff {e : CurveEvent} (h : ReachesPublisher config key states e) :
    AboveOff config key states e := by
  obtain ⟨call, rfl, hkey, hsome⟩ := h
  refine ⟨call, rfl, hkey, ?_⟩
  intro hoff
  rw [publish_off hoff] at hsome
  simp [notBuilt] at hsome

theorem GoodCallsOnly.reaches_iff (hpublisher : config.publisher = true)
    (h : GoodCallsOnly config key later) (n : ℕ) :
    ReachesPublisher config key states (later n) ↔ AboveOff config key states (later n) := by
  constructor
  · exact ReachesPublisher.aboveOff
  · rintro ⟨call, hcall, hkey, hlevel⟩
    obtain ⟨call', hcall', good⟩ := h n (by rw [hcall]; exact hkey)
    obtain rfl : call' = call := by
      rw [hcall'] at hcall
      cases hcall
      rfl
    exact ⟨call', hcall', hkey, (good.reaches_iff hpublisher).mpr hlevel⟩

theorem aboveOff_along_iff
    (config : LiquidityCurveProducerConfig) (states : DegradationStates)
    (hlater : CallsOnly key later) :
    (∃ n, AboveOff config key (along (curveStep config) states later n) (later n)) ↔
      ∃ n, AboveOff config key states (later n) := by
  refine exists_along_iff (fun t => countersOf t key = countersOf states key)
    (AboveOff config key) rfl ?_ ?_
  · intro t e hsame
    constructor
    · rintro ⟨call, rfl, rfl, hlevel⟩
      exact ⟨call, rfl, rfl, by rwa [callLevel, ← hsame]⟩
    · rintro ⟨call, rfl, rfl, hlevel⟩
      exact ⟨call, rfl, rfl, by rwa [callLevel, hsame]⟩
  · intro t n hsame hnot
    by_cases hkey : (later n).key = key
    · obtain ⟨call, hcall⟩ := hlater n hkey
      rw [hcall] at hkey hnot ⊢
      have hoff : callLevel config t call = .off := by
        by_contra hlevel
        exact hnot ⟨call, rfl, hkey, hlevel⟩
      change countersOf (publish config t call).states key = _
      rw [publish_off hoff]
      exact hsame
    · rw [countersOf_curveStep_of_ne hkey, hsame]

theorem off_absorbing (hlater : CallsOnly key later)
    {status : String} (hfresh : isStaleStatus status = false)
    (hoff : ∀ n call, later n = .publish call → call.key = key →
      (decideLevel config (requestedLevel config call) status
        (countersOf states key)).maxLevel = .off) (n : ℕ) :
    ¬ ReachesPublisher config key (along (curveStep config) states later n) (later n) := by
  intro hreaches
  obtain ⟨m, call, hcall, rfl, hlevel⟩ :=
    (aboveOff_along_iff config states hlater).mp ⟨n, hreaches.aboveOff⟩
  exact hlevel (decideLevel_off_of_fresh hfresh (hoff m call hcall rfl) call.status)

/-- After any history, good calls reach the publisher again, and leave `OFF`, exactly when
the counters at the end of the history leave one of them above `OFF`. -/
theorem recovers_iff (config : LiquidityCurveProducerConfig)
    (hpublisher : config.publisher = true) (history : List CurveEvent) (key : String)
    (later : ℕ → CurveEvent) (hlater : GoodCallsOnly config key later) :
    let reached := run (curveStep config) ∅ history
    let before := along (curveStep config) reached later
    ((∃ n, ReachesPublisher config key (before n) (later n)) ↔
        ∃ n, AboveOff config key reached (later n)) ∧
      ((∃ n, AboveOff config key (before n) (later n)) ↔
        ∃ n, AboveOff config key reached (later n)) := by
  intro reached before
  have habove := aboveOff_along_iff config reached hlater.callsOnly
  refine ⟨?_, habove⟩
  rw [← habove]
  exact exists_congr (fun n => hlater.reaches_iff hpublisher n)

end Histories

/-- Curves without any error. -/
def exactCandidate : Candidate where
  epsilon1 := Double.zero
  epsilon2 := Double.zero
  calibrationError := Double.zero
  legacy :=
    { epsilon1 := Double.zero
      epsilon2 := Double.zero
      epsilon3 := Double.zero }

/-- A call for a book of which every curve is exact. -/
def exactCall (published : Bool) : PublishCall where
  venueId := "binance"
  symbol := "BTC/USDT"
  status := "ok"
  candidates _ := exactCandidate
  published := published

theorem goodCall_exactCall : GoodCall {} (exactCall true) where
  venue := by decide
  symbol := by decide
  requested := by decide
  connected := by decide
  fresh := by decide
  base := by decide
  curves := by decide
  quality := by intro level; cases level <;> decide
  published := rfl

/-- With the default settings two failed publications put the venue at `OFF`, and no good
call reaches the publisher after that. -/
theorem two_failures_never_recover :
    GoodCallsOnly {} "binance|BTC/USDT" (fun _ => .publish (exactCall true)) ∧
      ¬ ∃ n, ReachesPublisher {} "binance|BTC/USDT"
        (along (curveStep {})
          (run (curveStep {}) ∅ [.publish (exactCall false), .publish (exactCall false)])
          (fun _ => .publish (exactCall true)) n)
        (.publish (exactCall true)) := by
  have hgood : GoodCallsOnly {} "binance|BTC/USDT" (fun _ => .publish (exactCall true)) :=
    fun _ _ => ⟨_, rfl, goodCall_exactCall⟩
  refine ⟨hgood, ?_⟩
  rintro ⟨n, hreaches⟩
  have hfresh : isStaleStatus "ok" = false := by decide
  refine off_absorbing hgood.callsOnly hfresh ?_ n hreaches
  rintro _ call ⟨rfl⟩ _
  decide +kernel

/-- After one failed publication the next good call reaches the publisher. -/
theorem one_failure_recovers :
    ∃ n, ReachesPublisher {} "binance|BTC/USDT"
      (along (curveStep {}) (run (curveStep {}) ∅ [.publish (exactCall false)])
        (fun _ => .publish (exactCall true)) n)
      (.publish (exactCall true)) :=
  (recovers_iff {} rfl [.publish (exactCall false)] "binance|BTC/USDT"
    (fun _ => .publish (exactCall true)) (fun _ _ => ⟨_, rfl, goodCall_exactCall⟩)).1.mpr
    ⟨0, exactCall true, rfl, by decide, by decide +kernel⟩

end Venues
end ContExchange
