import ContExchange.Venues.ExecutionLoop

/-!
# Venues: an intent is executed once

Kafka delivers the execution intents at least once.  However often an intent arrives, one
order should be placed for it, and what the reports say was filled should not exceed its
target quantity.

* `ExecutedOnce`: at most one accepted order for an intent, and on every topic a sum of
  filled quantities within the target;
* `executed_once`: both, over the simulated adapter, in every run whose steps meet `OnceOk`.

Neither the loop nor the adapter remembers an intent, so the condition has to keep an intent
from coming back after it was filled.
-/

namespace ContExchange
namespace Venues

open Common Lib Message SimulatedVenue
open List hiding map_map

def SentOrder.accepted (o : SentOrder) : Bool :=
  match o.result with
  | .ok result => result.accepted
  | .error _ => false

/-- The quantity that a message says was filled for an intent. -/
def Message.fill (intentId : String) (m : Message) : ℚ :=
  match m.payload with
  | .report report => if report.intentId = intentId then report.filledQty.toRat else 0
  | _ => 0

/-- The quantity that the messages on a topic say was filled for an intent. -/
def filledOn (messages : List Message) (topic intentId : String) : ℚ :=
  ((messages.filter (fun m => m.topic = topic)).map (Message.fill intentId)).sum

def LoopStep.consumed {σ : Type} : LoopStep σ → Option ExecutionIntent
  | .consume intent _ => some intent
  | _ => none

namespace LoopWorld

variable {σ : Type}

/-- How many orders were accepted for an intent. -/
def placed (s : LoopWorld σ) (intentId : String) : Nat :=
  s.sent.countP (fun o => o.1.order.intentId = intentId && o.1.accepted)

/-- At most one order was accepted for an intent, and the fills reported on a topic are
within its target. -/
def ExecutedOnce (s : LoopWorld σ) (intent : ExecutionIntent) : Prop :=
  s.placed intent.intentId ≤ 1 ∧
    ∀ topic, filledOn s.published topic intent.intentId ≤ intent.targetQty.toRat

/-- No order was accepted for an intent so far, and no fill reported. -/
def Unexecuted (s : LoopWorld σ) (intentId : String) : Prop :=
  s.placed intentId = 0 ∧ ∀ m ∈ s.published, m.fill intentId ≤ 0
deriving Decidable

/-- The condition on a step: an intent that is consumed has a target that is not negative
and was not executed before, and the simulator, where it is asked, fills no more than the
target. -/
def OnceOk (s : LoopWorld σ) : LoopStep σ → Prop
  | .consume intent env =>
      0 ≤ intent.targetQty.toRat ∧ s.Unexecuted intent.intentId ∧
        ((s.decision intent).mode = .simOnly →
          env.result.filledQty.toRat ≤ intent.targetQty.toRat)
  | .send env =>
      match s.phase with
      | .chosen intent decision _ =>
          decision.mode = .shadow → env.result.filledQty.toRat ≤ intent.targetQty.toRat
      | _ => True
  | _ => True

instance (s : LoopWorld σ) : (e : LoopStep σ) → Decidable (s.OnceOk e)
  | .consume _ _ => inferInstanceAs (Decidable (_ ∧ _ ∧ (_ → _)))
  | .send _ =>
      match h : s.phase with
      | .chosen _ _ _ => decidable_of_iff (_ = _ → _ ≤ _) (by unfold OnceOk; rw [h])
      | .idle => isTrue (by unfold OnceOk; rw [h]; trivial)
      | .decided _ _ => isTrue (by unfold OnceOk; rw [h]; trivial)
  | .config _ => isTrue trivial
  | .venueConfig _ => isTrue trivial
  | .adapter _ _ => isTrue trivial
  | .choose => isTrue trivial

end LoopWorld

theorem filledOn_append (messages messages' : List Message) (topic intentId : String) :
    filledOn (messages ++ messages') topic intentId =
      filledOn messages topic intentId + filledOn messages' topic intentId := by
  unfold filledOn
  rw [filter_append, map_append, sum_append]

theorem filledOn_nonpos {messages : List Message} {intentId : String}
    (h : ∀ m ∈ messages, m.fill intentId ≤ 0) (topic : String) :
    filledOn messages topic intentId ≤ 0 := by
  have hle := sum_le_card_nsmul
    ((messages.filter (fun m => m.topic = topic)).map (fill intentId)) 0 (by
      intro q hq
      obtain ⟨m, hm, rfl⟩ := mem_map.mp hq
      exact h m (mem_filter.mp hm).1)
  rwa [smul_zero] at hle

theorem filledOn_le_of_nodup {messages : List Message} {intentId : String} {bound : ℚ}
    (hbound : 0 ≤ bound) (hnodup : (messages.map topic).Nodup)
    (h : ∀ m ∈ messages, m.fill intentId ≤ bound) (topic : String) :
    filledOn messages topic intentId ≤ bound := by
  induction messages with
  | nil => exact hbound
  | cons m messages ih =>
      rw [map_cons, nodup_cons] at hnodup
      unfold filledOn
      by_cases htopic : m.topic = topic
      · have hrest : messages.filter (fun m => m.topic = topic) = [] := by
          rw [filter_eq_nil_iff]
          intro m' hm' hsame
          apply hnodup.1
          rw [htopic, ← of_decide_eq_true hsame]
          exact mem_map_of_mem hm'
        rw [filter_cons_of_pos (by simpa using htopic), hrest, map_singleton, sum_singleton]
        exact h m mem_cons_self
      · rw [filter_cons_of_neg (by simpa using htopic)]
        exact ih hnodup.2 (fun m' hm' => h m' (mem_cons_of_mem m hm'))

section Messages

variable {cfg : LoopConfig}

theorem topics_publishReport (cfg : LoopConfig) (report : ExecutionReport) :
    (publishReport cfg report).map topic =
      if cfg.backtestSession.sessionId ≠ "" then ["backtest.execution.venue"]
      else ["execution.venue", "execution.reports"] := by
  unfold publishReport
  dsimp only
  rw [List.map_map]
  by_cases hbacktest : cfg.backtestSession.sessionId = ""
  · simp [hbacktest, loopTopics]
  · simp [hbacktest, loopTopics]

theorem fill_of_mem_publishReport {report : ExecutionReport} {m : Message}
    (hm : m ∈ publishReport cfg report) (intentId : String) :
    m.fill intentId = if report.intentId = intentId then report.filledQty.toRat else 0 := by
  obtain ⟨topic, _, rfl⟩ := mem_map.mp hm
  unfold fill
  dsimp only
  by_cases hbacktest : cfg.backtestSession.sessionId = ""
  · rw [if_neg (not_not_intro hbacktest)]
    rfl
  · rw [if_pos hbacktest]
    rfl

theorem topics_publishSimExecution (reportId : String) (intent : ExecutionIntent)
    (decision : RouteDecision) (result : SimulateResult) :
    (publishSimExecution reportId intent decision result).map topic =
        ["sim.execution.venue", "sim.execution.annotations"] ∨
      (publishSimExecution reportId intent decision result).map topic =
        ["sim.execution.venue", "sim.execution.annotations", "sim.alerts"] := by
  unfold publishSimExecution
  simp only [map_cons]
  split
  · exact Or.inr rfl
  · exact Or.inl rfl

theorem fill_of_mem_publishSimExecution {reportId : String} {intent : ExecutionIntent}
    {decision : RouteDecision} {result : SimulateResult} {m : Message}
    (hm : m ∈ publishSimExecution reportId intent decision result) (intentId : String) :
    m.fill intentId = 0 ∨
      intent.intentId = intentId ∧ m.fill intentId = result.filledQty.toRat := by
  unfold publishSimExecution at hm
  dsimp only at hm
  rcases mem_cons.mp hm with rfl | hm
  · by_cases hid : intent.intentId = intentId
    · exact Or.inr ⟨hid, if_pos hid⟩
    · exact Or.inl (if_neg hid)
  · rcases mem_cons.mp hm with rfl | hm
    · exact Or.inl rfl
    · split at hm
      · obtain rfl := mem_singleton.mp hm
        exact Or.inl rfl
      · cases hm

theorem nodup_topics_executionMessages (env : LoopEnv) (intent : ExecutionIntent)
    (decision : RouteDecision) (report : Except String ExecutionReport) :
    ((LoopWorld.executionMessages cfg env intent decision report).map topic).Nodup := by
  unfold LoopWorld.executionMessages
  rw [map_append, topics_publishReport]
  by_cases hbacktest : cfg.backtestSession.sessionId = "" <;>
    by_cases hshadow : decision.mode = .shadow
  · rw [if_neg (not_not_intro hbacktest), if_pos hshadow]
    rcases topics_publishSimExecution env.simReportId intent decision env.result with h | h <;>
    · rw [h]
      decide
  · rw [if_neg (not_not_intro hbacktest), if_neg hshadow]
    decide
  · rw [if_pos hbacktest, if_pos hshadow]
    rcases topics_publishSimExecution env.simReportId intent decision env.result with h | h <;>
    · rw [h]
      decide
  · rw [if_pos hbacktest, if_neg hshadow]
    decide

theorem loopReport_simulated (cfg : LoopConfig) (reportId : String) (intent : ExecutionIntent)
    (adapter : Option (LoopAdapter SimulatedVenue)) (htarget : 0 ≤ intent.targetQty.toRat) :
    (loopReport reportId intent
        (executeOnVenue simulatedVenueAdapter cfg reportId intent adapter).report).intentId =
        intent.intentId ∧
      (loopReport reportId intent
        (executeOnVenue simulatedVenueAdapter cfg reportId intent adapter).report).filledQty.toRat ≤
        intent.targetQty.toRat := by
  have hzero : Decimal.zero.toRat ≤ intent.targetQty.toRat := by
    rw [(Decimal.toRat_eq_zero_iff .zero).mpr rfl]
    exact htarget
  rcases executeOnVenue_cases simulatedVenueAdapter cfg reportId intent adapter with
    ⟨_, _, _, hreport, _⟩ | ⟨a, _, child, rfl, _, hreport, _⟩
  · rw [hreport]
    exact ⟨rfl, hzero⟩
  · rw [hreport]
    refine ⟨rfl, ?_⟩
    change (sendOrder _ _).1.filledQty.toRat ≤ _
    unfold sendOrder
    dsimp only
    split
    · exact hzero
    · exact le_refl _

end Messages

namespace LoopWorld

variable {cfg : LoopConfig} {s : LoopWorld SimulatedVenue} {target : String → ℚ}

/-- What holds of every state: no intent has two accepted orders or too much filled, and the
intent in flight was not executed. -/
structure Once (target : String → ℚ) (s : LoopWorld SimulatedVenue) : Prop where
  placed : ∀ intentId, s.placed intentId ≤ 1
  filled : ∀ intentId topic, filledOn s.published topic intentId ≤ max 0 (target intentId)
  phase : ∀ intent decision, (s.phase = .decided intent decision ∨
      ∃ idx, s.phase = .chosen intent decision idx) →
    intent.targetQty.toRat = target intent.intentId ∧ 0 ≤ intent.targetQty.toRat ∧
      s.Unexecuted intent.intentId

variable {intent : ExecutionIntent}

theorem filled_publish {env : LoopEnv} {messages : List Message}
    (h : ∀ intentId topic, filledOn s.published topic intentId ≤ max 0 (target intentId))
    (htarget : intent.targetQty.toRat = target intent.intentId)
    (hnonneg : 0 ≤ intent.targetQty.toRat)
    (hnone : ∀ m ∈ s.published, m.fill intent.intentId ≤ 0)
    (hnodup : (messages.map topic).Nodup)
    (hfill : ∀ m ∈ messages, ∀ intentId, m.fill intentId = 0 ∨
      intent.intentId = intentId ∧ m.fill intentId ≤ intent.targetQty.toRat)
    (intentId topic : String) :
    filledOn (s.publish env messages).published topic intentId ≤ max 0 (target intentId) := by
  change filledOn (s.published ++ messages.filter (fun m => env.takes m.topic)) topic intentId ≤ _
  rw [filledOn_append]
  by_cases hid : intent.intentId = intentId
  · subst hid
    have hold := filledOn_nonpos hnone topic
    have hsub : ((messages.filter (fun m => env.takes m.topic)).map Message.topic).Nodup :=
      hnodup.sublist (filter_sublist.map Message.topic)
    have hle : ∀ m ∈ messages.filter (fun m => env.takes m.topic),
        m.fill intent.intentId ≤ intent.targetQty.toRat := by
      intro m hm
      rcases hfill m (mem_filter.mp hm).1 intent.intentId with hzero | ⟨_, hle⟩
      · rw [hzero]
        exact hnonneg
      · exact hle
    have hnew := filledOn_le_of_nodup hnonneg hsub hle topic
    rw [← htarget, max_eq_right hnonneg]
    linarith
  · have hnone' : ∀ m ∈ messages.filter (fun m => env.takes m.topic), m.fill intentId ≤ 0 := by
      intro m hm
      rcases hfill m (mem_filter.mp hm).1 intentId with hzero | ⟨hsame, _⟩
      · exact hzero.le
      · exact absurd hsame hid
    have hnew := filledOn_nonpos hnone' topic
    have hold := h intentId topic
    linarith

theorem fill_publishSimExecution {reportId : String} {decision : RouteDecision}
    {result : SimulateResult} (hresult : result.filledQty.toRat ≤ intent.targetQty.toRat) :
    ∀ m ∈ publishSimExecution reportId intent decision result, ∀ intentId,
      m.fill intentId = 0 ∨
        intent.intentId = intentId ∧ m.fill intentId ≤ intent.targetQty.toRat := by
  intro m hm intentId
  rcases fill_of_mem_publishSimExecution hm intentId with hzero | ⟨hid, hfill⟩
  · exact Or.inl hzero
  · exact Or.inr ⟨hid, hfill ▸ hresult⟩

theorem fill_executionMessages {env : LoopEnv} {decision : RouteDecision}
    (adapter : Option (LoopAdapter SimulatedVenue)) (hnonneg : 0 ≤ intent.targetQty.toRat)
    (hresult : decision.mode = .shadow → env.result.filledQty.toRat ≤ intent.targetQty.toRat) :
    ∀ m ∈ executionMessages cfg env intent decision
        (executeOnVenue simulatedVenueAdapter cfg env.reportId intent adapter).report,
      ∀ intentId, m.fill intentId = 0 ∨
        intent.intentId = intentId ∧ m.fill intentId ≤ intent.targetQty.toRat := by
  intro m hm intentId
  unfold executionMessages at hm
  rcases mem_append.mp hm with hreport | hshadow
  · obtain ⟨hid, hle⟩ := loopReport_simulated cfg env.reportId intent adapter hnonneg
    rw [fill_of_mem_publishReport hreport, hid]
    by_cases hsame : intent.intentId = intentId
    · rw [if_pos hsame]
      exact Or.inr ⟨hsame, hle⟩
    · exact Or.inl (if_neg hsame)
  · split at hshadow
    · rename_i hmode
      exact fill_publishSimExecution (hresult hmode) m hshadow intentId
    · cases hshadow

theorem placed_executed {reportId : String}
    (h : ∀ intentId, s.placed intentId ≤ 1) (hnone : s.placed intent.intentId = 0)
    (idx : Option Nat) (adapter : Option (LoopAdapter SimulatedVenue)) (intentId : String) :
    (s.executed intent idx
      (executeOnVenue simulatedVenueAdapter cfg reportId intent adapter)).placed intentId ≤ 1 := by
  unfold placed executed
  dsimp only
  rw [countP_append]
  change s.placed intentId + _ ≤ 1
  rcases executeOnVenue_cases simulatedVenueAdapter cfg reportId intent adapter with
    ⟨_, _, _, _, hsent⟩ | ⟨a, _, child, rfl, _, _, hsent⟩
  · rw [hsent, Option.toList_none, map_nil, countP_nil]
    exact h intentId
  · rw [hsent, Option.toList_some, map_singleton, countP_singleton]
    by_cases hid : intent.intentId = intentId
    · subst hid
      rw [hnone, Nat.zero_add]
      split <;> omega
    · rw [if_neg (by
        intro hboth
        rw [Bool.and_eq_true] at hboth
        exact hid (of_decide_eq_true hboth.1))]
      exact h intentId

theorem once_step (h : s.Once target) (e : LoopStep SimulatedVenue)
    (htarget : ∀ intent ∈ e.consumed, intent.targetQty.toRat = target intent.intentId)
    (hok : s.OnceOk e) : (s.step simulatedVenueAdapter cfg e).Once target := by
  cases e with
  | config evt => exact ⟨h.placed, h.filled, h.phase⟩
  | venueConfig record => exact ⟨h.placed, h.filled, h.phase⟩
  | adapter i state => exact ⟨h.placed, h.filled, h.phase⟩
  | consume intent env =>
      obtain ⟨hnonneg, hnone, hresult⟩ := hok
      have hintent := htarget intent rfl
      cases hphase : s.phase with
      | decided intent' decision => simpa only [step, hphase] using h
      | chosen intent' decision idx => simpa only [step, hphase] using h
      | idle =>
          simp only [step, hphase]
          split
          · rename_i hmode
            have hnodup : ((publishSimExecution env.simReportId intent (s.decision intent)
                env.result).map topic).Nodup := by
              rcases topics_publishSimExecution env.simReportId intent (s.decision intent)
                env.result with htopics | htopics <;>
              · rw [htopics]
                decide
            refine ⟨h.placed, filled_publish h.filled hintent hnonneg hnone.2 hnodup
              (fill_publishSimExecution (hresult hmode)), ?_⟩
            intro intent' decision hflight
            change (s.phase = _ ∨ ∃ idx, s.phase = _) at hflight
            rw [hphase] at hflight
            rcases hflight with hflight | ⟨idx, hflight⟩ <;> cases hflight
          · refine ⟨h.placed, h.filled, ?_⟩
            rintro intent' decision (hflight | ⟨idx, hflight⟩)
            · cases hflight
              exact ⟨hintent, hnonneg, hnone⟩
            · cases hflight
  | choose =>
      cases hphase : s.phase with
      | idle => simpa only [step, hphase] using h
      | chosen intent decision idx => simpa only [step, hphase] using h
      | decided intent decision =>
          simp only [step, hphase]
          refine ⟨h.placed, h.filled, ?_⟩
          rintro intent' decision' (hflight | ⟨idx, hflight⟩)
          · cases hflight
          · cases hflight
            exact h.phase intent decision (Or.inl hphase)
  | send env =>
      cases hphase : s.phase with
      | idle => simpa only [step, hphase] using h
      | decided intent decision => simpa only [step, hphase] using h
      | chosen intent decision idx =>
          obtain ⟨hintent, hnonneg, hnone⟩ := h.phase intent decision (Or.inr ⟨idx, hphase⟩)
          simp only [OnceOk, hphase] at hok
          simp only [step, hphase]
          refine ⟨placed_executed h.placed hnone.1 idx (s.adapterAt idx),
            filled_publish h.filled hintent hnonneg hnone.2
              (nodup_topics_executionMessages env intent decision _)
              (fill_executionMessages (s.adapterAt idx) hnonneg hok), ?_⟩
          rintro intent' decision' (hflight | ⟨idx', hflight⟩) <;> cases hflight

end LoopWorld

/-- The target of the first message with an id. -/
def streamTarget {σ : Type} (es : List (LoopStep σ)) (intentId : String) : ℚ :=
  ((es.filterMap LoopStep.consumed).find? (fun intent => intent.intentId = intentId)).elim 0
    (fun intent => intent.targetQty.toRat)

theorem targetQty_eq_streamTarget {σ : Type} {es : List (LoopStep σ)}
    (hsame : ∀ e ∈ es, ∀ e' ∈ es, ∀ intent ∈ e.consumed, ∀ intent' ∈ e'.consumed,
      intent.intentId = intent'.intentId → intent = intent') :
    ∀ e ∈ es, ∀ intent ∈ e.consumed, intent.targetQty.toRat = streamTarget es intent.intentId := by
  intro e he intent hintent
  have hmem : intent ∈ es.filterMap LoopStep.consumed := mem_filterMap.mpr ⟨e, he, hintent⟩
  unfold streamTarget
  cases hfind : (es.filterMap LoopStep.consumed).find?
      (fun intent' => intent'.intentId = intent.intentId) with
  | none =>
      have hnone := find?_eq_none.mp hfind intent hmem
      exact absurd (decide_eq_true rfl) hnone
  | some first =>
      obtain ⟨e', he', hfirst⟩ := mem_filterMap.mp (mem_of_find?_eq_some hfind)
      have hid : first.intentId = intent.intentId := by
        simpa using find?_some hfind
      rw [hsame e he e' he' intent hintent first hfirst hid.symm]
      rfl

/-- In every run whose steps meet the condition, each consumed intent has at most one accepted
order, and the fills reported for it are within its target. -/
theorem executed_once
    (cfg : LoopConfig) (adapters : List (LoopAdapter SimulatedVenue))
    (venueConfigs : Table String VenueConfigRecord)
    (es : List (LoopStep SimulatedVenue))
    (hsame : ∀ e ∈ es, ∀ e' ∈ es, ∀ intent ∈ e.consumed, ∀ intent' ∈ e'.consumed,
      intent.intentId = intent'.intentId → intent = intent')
    (hok : StepsMeet (LoopWorld.step simulatedVenueAdapter cfg) LoopWorld.OnceOk
      { adapters, venueConfigs } es) :
    ∀ e ∈ es, ∀ intent ∈ e.consumed,
      (run (LoopWorld.step simulatedVenueAdapter cfg) { adapters, venueConfigs } es).ExecutedOnce
        intent := by
  have htarget := targetQty_eq_streamTarget hsame
  have hinit : LoopWorld.Once (streamTarget es) { adapters, venueConfigs } :=
    ⟨fun _ => Nat.zero_le 1, fun intentId topic => le_max_left 0 _, by
      rintro intent decision (hflight | ⟨idx, hflight⟩) <;> cases hflight⟩
  have hmeet := hok.and_mem htarget
  have honce : LoopWorld.Once (streamTarget es)
      (run (LoopWorld.step simulatedVenueAdapter cfg) { adapters, venueConfigs } es) :=
    run_invariant (LoopWorld.Once (streamTarget es))
      (fun s e h hmeets => LoopWorld.once_step h e hmeets.2 hmeets.1) hinit hmeet
  have hnonneg : ∀ e ∈ es, ∀ intent ∈ e.consumed, 0 ≤ intent.targetQty.toRat := by
    refine hok.forall_mem ?_
    rintro s e hmeets intent hintent
    cases e <;> cases hintent
    exact hmeets.1
  intro e he intent hintent
  refine ⟨honce.placed intent.intentId, fun topic => ?_⟩
  have hfilled := honce.filled intent.intentId topic
  rwa [← htarget e he intent hintent, max_eq_right (hnonneg e he intent hintent)] at hfilled

def oneVenue : LoopWorld SimulatedVenue where
  adapters := [{ venueId := "binance", state := { connected := true } }]

def fiveUnits : ExecutionIntent :=
  { intentId := "i1", venue := "binance",
    instrument := { symbol := "BTC/USDT", base := "BTC", quote := "USDT" },
    side := .buy, targetQty := Decimal.of 5 0 }

/-- The intent arrives while the venue is switched off, and again when it is on. -/
def rejectedThenFilled : List (LoopStep SimulatedVenue) :=
  [.venueConfig { venueId := "binance", isActive := false }, .consume fiveUnits {}, .choose,
    .send {}, .venueConfig { venueId := "binance" }, .consume fiveUnits {}, .choose, .send {}]

theorem executed_rejectedThenFilled :
    (run (LoopWorld.step simulatedVenueAdapter {}) oneVenue rejectedThenFilled).ExecutedOnce
        fiveUnits ∧
      (run (LoopWorld.step simulatedVenueAdapter {}) oneVenue rejectedThenFilled).placed "i1" = 1 :=
  ⟨executed_once {} oneVenue.adapters ∅ rejectedThenFilled (by decide +kernel)
    (by decide +kernel) (.consume fiveUnits {}) (by simp [rejectedThenFilled]) fiveUnits rfl,
    by decide +kernel⟩

/-- An intent that is delivered twice is filled twice. -/
theorem redelivered_intent_filled_twice :
    ¬ (run (LoopWorld.step simulatedVenueAdapter {}) oneVenue
      [.consume fiveUnits {}, .choose, .send {}, .consume fiveUnits {}, .choose,
        .send {}]).ExecutedOnce fiveUnits ∧
      filledOn (run (LoopWorld.step simulatedVenueAdapter {}) oneVenue
        [.consume fiveUnits {}, .choose, .send {}, .consume fiveUnits {}, .choose,
          .send {}]).published "execution.venue" "i1" = 10 := by
  constructor
  · intro h
    exact absurd h.1 (by decide)
  · decide +kernel

end Venues
end ContExchange
