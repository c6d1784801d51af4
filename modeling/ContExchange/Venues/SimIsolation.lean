import ContExchange.Venues.ExecutionLoop

/-!
# Venues: no live execution on a simulated venue

An order should not reach the adapter of a venue that a `SIM_ONLY` session governs, and the
report of a simulated execution should not appear on the topics of the live reports.

* `Isolated`: both, of the orders sent and the messages published so far;
* `Unsimulated`: the intent in flight is not bound for a venue in the mode `SIM_ONLY`;
* `isolated_run`: the loop is isolated in every run whose steps meet `StepOk`.

The router decides about the venue that the intent names.  An intent that names none is sent
to the adapter that `find_adapter` chooses afterwards, whose venue nobody asked about; and
between the decision and the order the sessions may change.
-/

namespace ContExchange
namespace Venues

open Common Lib SimSessionRegistry
open List hiding map_eq_map
open Option hiding map map_eq_map

/-- A session, if there is one, routes to the simulator alone. -/
def simOnly (session : Option SimSession) : Bool :=
  session.any (fun s => s.routingMode = .simOnly)

def liveTopics : List String :=
  [loopTopics.venue, loopTopics.legacy]

/-- The report of a simulated execution, by its source. -/
def Message.simulated (m : Message) : Bool :=
  match m.payload with
  | .report report => report.source = "venue-simulator"
  | _ => false

namespace LoopWorld

variable {σ : Type}

/-- No order went to a venue that was in the mode `SIM_ONLY`, and no simulated report to a
live topic. -/
structure Isolated (s : LoopWorld σ) : Prop where
  sent : ∀ o ∈ s.sent, simOnly o.2 = false
  published : ∀ m ∈ s.published, m.simulated = true → m.topic ∉ liveTopics

/-- The intent in flight is not bound for a venue in the mode `SIM_ONLY`. -/
def Unsimulated (s : LoopWorld σ) : Prop :=
  match s.phase with
  | .idle => True
  | .decided intent _ =>
      intent.venue ≠ "" →
        simOnly (SimSessionRegistry.resolve s.registry intent.venue
          (routingSymbol intent.instrument)) = false
  | .chosen intent _ idx =>
      ∀ a ∈ s.adapterAt idx,
        simOnly (SimSessionRegistry.resolve s.registry a.venueId
          (routingSymbol intent.instrument)) = false

/-- The condition on a step: a change of the sessions does not set the venue of the intent
in flight to `SIM_ONLY`, and the adapter chosen for an intent without a venue is not of a
venue in this mode. -/
def StepOk (impl : VenueAdapter σ) (s : LoopWorld σ) : LoopStep σ → Prop
  | .config evt => Unsimulated { s with registry := applySimConfigEvent evt s.registry }
  | .choose =>
      match s.phase with
      | .decided intent _ =>
          intent.venue = "" →
            ∀ a ∈ s.adapterAt (s.lookup impl intent.venue).1,
              simOnly (SimSessionRegistry.resolve s.registry a.venueId
                (routingSymbol intent.instrument)) = false
      | _ => True
  | _ => True

instance (s : LoopWorld σ) : Decidable s.Unsimulated :=
  match h : s.phase with
  | .idle => isTrue (by unfold Unsimulated; rw [h]; trivial)
  | .decided _ _ => decidable_of_iff (_ ≠ _ → _ = _) (by unfold Unsimulated; rw [h])
  | .chosen _ _ _ => decidable_of_iff (∀ a ∈ _, _ = _) (by unfold Unsimulated; rw [h])

instance (impl : VenueAdapter σ) (s : LoopWorld σ) :
    (e : LoopStep σ) → Decidable (StepOk impl s e)
  | .config evt =>
      inferInstanceAs (Decidable
        (Unsimulated { s with registry := applySimConfigEvent evt s.registry }))
  | .choose =>
      match h : s.phase with
      | .decided _ _ => decidable_of_iff (_ = _ → ∀ a ∈ _, _ = _) (by unfold StepOk; rw [h])
      | .idle => isTrue (by unfold StepOk; rw [h]; trivial)
      | .chosen _ _ _ => isTrue (by unfold StepOk; rw [h]; trivial)
  | .venueConfig _ => isTrue trivial
  | .adapter _ _ => isTrue trivial
  | .consume _ _ => isTrue trivial
  | .send _ => isTrue trivial

end LoopWorld

section Lemmas

variable {σ : Type} {impl : VenueAdapter σ} {cfg : LoopConfig}

theorem mode_decideRoute (registry : SimSessions) (venueId symbol : String) :
    (decideRoute registry venueId symbol).mode = .simOnly ↔
      simOnly (resolve registry venueId symbol) = true := by
  unfold decideRoute simOnly
  cases hsession : resolve registry venueId symbol with
  | none => simp
  | some session =>
      simp only [any_some, decide_eq_true_eq]
      split
      · rename_i hunset
        simp [hunset]
      · exact Iff.rfl

theorem venueId_of_findAdapter
    {adapters : List (LoopAdapter σ)} {venueConfigs : Table String VenueConfigRecord}
    {next : Nat} {venueId : String} {a : LoopAdapter σ} (hvenue : venueId ≠ "")
    (ha : a ∈ (findAdapter impl adapters venueConfigs next venueId).1.bind
      (fun idx => adapters[idx]?)) :
    a.venueId = venueId := by
  unfold findAdapter at ha
  rw [if_pos hvenue] at ha
  cases hidx : adapters.findIdx? (fun a => a.venueId = venueId) with
  | none =>
      rw [hidx] at ha
      cases ha
  | some idx =>
      rw [hidx] at ha
      dsimp only at ha
      split at ha
      · rw [bind_some, mem_def] at ha
        obtain ⟨hlt, hat, _⟩ := findIdx?_eq_some_iff_getElem.mp hidx
        rw [getElem?_eq_getElem hlt, some_inj] at ha
        rw [← ha]
        exact of_decide_eq_true hat
      · cases ha

variable {intent : ExecutionIntent} {reportId : String}

theorem venueId_of_sent {adapter : Option (LoopAdapter σ)} {o : SentOrder}
    (ho : o ∈ (executeOnVenue impl cfg reportId intent adapter).sent) :
    ∃ a ∈ adapter, o.venueId = a.venueId := by
  rcases executeOnVenue_cases impl cfg reportId intent adapter with
    ⟨_, _, _, _, hsent⟩ | ⟨a, ha, _, _, _, _, hsent⟩
  · rw [hsent] at ho
    cases ho
  · rw [hsent] at ho
    cases ho
    exact ⟨a, ha, rfl⟩

theorem source_loopReport (impl : VenueAdapter σ) (cfg : LoopConfig) (reportId : String)
    (intent : ExecutionIntent) (adapter : Option (LoopAdapter σ)) :
    (loopReport reportId intent
      (executeOnVenue impl cfg reportId intent adapter).report).source = "venues" := by
  rcases executeOnVenue_cases impl cfg reportId intent adapter with
    ⟨_, _, _, hreport, _⟩ | ⟨a, _, child, _, _, hreport, _⟩
  · rw [hreport]
    rfl
  · rw [hreport]
    cases (impl.sendOrder (ensureConnected impl a.state).2 child).1 with
    | error what => rfl
    | ok result => rfl

variable {m : Message}

theorem simulated_of_mem_publishReport {report : ExecutionReport}
    (hm : m ∈ publishReport cfg report) :
    m.simulated = decide (report.source = "venue-simulator") := by
  obtain ⟨topic, _, rfl⟩ := mem_map.mp hm
  unfold Message.simulated
  dsimp only
  split <;> rfl

variable {decision : RouteDecision}

theorem topic_of_mem_publishSimExecution {result : SimulateResult}
    (hm : m ∈ publishSimExecution reportId intent decision result) :
    m.topic ∈ ["sim.execution.venue", "sim.execution.annotations", "sim.alerts"] := by
  unfold publishSimExecution at hm
  dsimp only at hm
  rcases mem_cons.mp hm with rfl | hm
  · simp
  · rcases mem_cons.mp hm with rfl | hm
    · simp
    · split at hm
      · obtain rfl := mem_singleton.mp hm
        simp
      · cases hm

theorem notLive_of_mem_publishSimExecution {result : SimulateResult}
    (hm : m ∈ publishSimExecution reportId intent decision result) : m.topic ∉ liveTopics := by
  have htopic := topic_of_mem_publishSimExecution hm
  intro hlive
  simp only [mem_cons, not_mem_nil, or_false] at htopic
  rcases htopic with htopic | htopic | htopic <;>
  · rw [htopic] at hlive
    exact absurd hlive (by decide)

theorem notLive_of_mem_executionMessages {env : LoopEnv} {adapter : Option (LoopAdapter σ)}
    (hm : m ∈ LoopWorld.executionMessages cfg env intent decision
      (executeOnVenue impl cfg env.reportId intent adapter).report)
    (hsim : m.simulated = true) :
    m.topic ∉ liveTopics := by
  unfold LoopWorld.executionMessages at hm
  rcases mem_append.mp hm with hreport | hshadow
  · rw [simulated_of_mem_publishReport hreport, source_loopReport] at hsim
    exact absurd hsim (by decide)
  · split at hshadow
    · exact notLive_of_mem_publishSimExecution hshadow
    · cases hshadow

end Lemmas

namespace LoopWorld

variable {σ : Type} {impl : VenueAdapter σ} {cfg : LoopConfig} {s : LoopWorld σ}

theorem published_publish {env : LoopEnv} {messages : List Message}
    (h : ∀ m ∈ s.published, m.simulated = true → m.topic ∉ liveTopics)
    (hnew : ∀ m ∈ messages, m.simulated = true → m.topic ∉ liveTopics) :
    ∀ m ∈ (s.publish env messages).published, m.simulated = true → m.topic ∉ liveTopics := by
  intro m hm
  rcases mem_append.mp hm with hold | hadded
  · exact h m hold
  · exact hnew m (mem_filter.mp hadded).1

theorem venueId_adapterAt_modify {i : Nat} {state : σ} {idx : Option Nat} {a : LoopAdapter σ}
    (ha : a ∈ adapterAt
      { s with adapters := s.adapters.modify i (fun a => { a with state }) } idx) :
    ∃ b ∈ s.adapterAt idx, b.venueId = a.venueId := by
  cases idx with
  | none => cases ha
  | some idx =>
      unfold adapterAt at ha ⊢
      rw [bind_some, getElem?_modify, mem_def, Option.map_eq_map, map_eq_some_iff] at ha
      obtain ⟨b, hb, rfl⟩ := ha
      refine ⟨b, hb, ?_⟩
      split <;> rfl

theorem unsimulated_step (h : s.Unsimulated) (e : LoopStep σ) (hok : s.StepOk impl e) :
    (s.step impl cfg e).Unsimulated := by
  cases e with
  | config evt => exact hok
  | venueConfig record => exact h
  | adapter i state =>
      unfold Unsimulated at h ⊢
      cases hphase : s.phase with
      | idle => simp only [step, hphase]
      | decided intent decision =>
          rw [hphase] at h
          simpa only [step, hphase] using h
      | chosen intent decision idx =>
          rw [hphase] at h
          simp only [step, hphase]
          intro a ha
          obtain ⟨b, hb, hvenue⟩ := venueId_adapterAt_modify ha
          rw [← hvenue]
          exact h b hb
  | consume intent env =>
      cases hphase : s.phase with
      | idle =>
          simp only [step, hphase]
          split
          · unfold Unsimulated publish
            simp only [hphase]
          · rename_i hmode
            unfold decision at hmode
            rw [mode_decideRoute, Bool.not_eq_true] at hmode
            exact fun _ => hmode
      | decided intent' decision => simpa only [step, hphase] using h
      | chosen intent' decision idx => simpa only [step, hphase] using h
  | choose =>
      cases hphase : s.phase with
      | idle => simpa only [step, hphase] using h
      | chosen intent decision idx => simpa only [step, hphase] using h
      | decided intent decision =>
          simp only [StepOk, hphase] at hok
          simp only [Unsimulated, hphase] at h
          simp only [step, hphase, Unsimulated]
          intro a ha
          by_cases hvenue : intent.venue = ""
          · exact hok hvenue a ha
          · have hid : a.venueId = intent.venue := venueId_of_findAdapter hvenue ha
            rw [hid]
            exact h hvenue
  | send env =>
      cases hphase : s.phase with
      | idle => simpa only [step, hphase] using h
      | decided intent decision => simpa only [step, hphase] using h
      | chosen intent decision idx => simp only [step, hphase, Unsimulated, publish, executed]

theorem isolated_step (h : s.Isolated) (hphase : s.Unsimulated) (e : LoopStep σ) :
    (s.step impl cfg e).Isolated := by
  cases e with
  | config evt => exact ⟨h.sent, h.published⟩
  | venueConfig record => exact ⟨h.sent, h.published⟩
  | adapter i state => exact ⟨h.sent, h.published⟩
  | consume intent env =>
      simp only [step]
      split
      · split
        · exact ⟨h.sent, published_publish h.published
            (fun m hm _ => notLive_of_mem_publishSimExecution hm)⟩
        · exact ⟨h.sent, h.published⟩
      · exact h
  | choose =>
      simp only [step]
      split
      · exact ⟨h.sent, h.published⟩
      · exact h
  | send env =>
      cases hs : s.phase with
      | idle => simpa only [step, hs] using h
      | decided intent decision => simpa only [step, hs] using h
      | chosen intent decision idx =>
          simp only [Unsimulated, hs] at hphase
          simp only [step, hs]
          refine ⟨?_, published_publish h.published
            (fun m hm hsim => notLive_of_mem_executionMessages hm hsim)⟩
          intro o ho
          rcases mem_append.mp ho with hold | hnew
          · exact h.sent o hold
          · obtain ⟨order, horder, rfl⟩ := mem_map.mp hnew
            obtain ⟨a, ha, hvenue⟩ := venueId_of_sent (mem_toList.mp horder)
            dsimp only
            rw [hvenue]
            exact hphase a ha

end LoopWorld

/-- In every run whose steps meet the condition, no order goes to a venue that is in the mode
`SIM_ONLY` at that moment, and no simulated report to a live topic. -/
theorem isolated_run
    {σ : Type} (impl : VenueAdapter σ) (cfg : LoopConfig)
    (adapters : List (LoopAdapter σ)) (venueConfigs : Table String VenueConfigRecord)
    (es : List (LoopStep σ))
    (hok : StepsMeet (LoopWorld.step impl cfg) (LoopWorld.StepOk impl)
      { adapters, venueConfigs } es) :
    (run (LoopWorld.step impl cfg) { adapters, venueConfigs } es).Isolated := by
  have hinit : ({ adapters, venueConfigs } : LoopWorld σ).Isolated ∧
      ({ adapters, venueConfigs } : LoopWorld σ).Unsimulated :=
    ⟨⟨by simp, by simp⟩, trivial⟩
  refine (run_invariant (fun s => LoopWorld.Isolated s ∧ LoopWorld.Unsimulated s) ?_ hinit hok).1
  rintro s e ⟨hisolated, hphase⟩ hmeets
  exact ⟨LoopWorld.isolated_step hisolated hphase e, LoopWorld.unsimulated_step hphase e hmeets⟩

/-- A session that simulates the orders of one venue. -/
def binanceSimulated : LoopStep SimulatedVenue :=
  .config
    { eventType := .upsert
      session :=
        { simSessionId := "s1", routingMode := .simOnly, scopeVenues := ["binance"],
          status := .active } }

def intentFor (intentId venue : String) : ExecutionIntent :=
  { intentId, venue, instrument := { symbol := "BTC/USDT", base := "BTC", quote := "USDT" },
    side := .buy, targetQty := Decimal.of 5 0 }

def twoVenues : LoopWorld SimulatedVenue where
  adapters := [{ venueId := "binance", state := { connected := true } },
    { venueId := "coinbase", state := { connected := true } }]

def namedVenues : List (LoopStep SimulatedVenue) :=
  [binanceSimulated, .consume (intentFor "i1" "binance") {},
    .consume (intentFor "i2" "coinbase") {}, .choose, .send {}]

theorem isolated_namedVenues :
    (run (LoopWorld.step simulatedVenueAdapter {}) twoVenues namedVenues).Isolated ∧
      ((run (LoopWorld.step simulatedVenueAdapter {}) twoVenues namedVenues).sent.map
        (fun o => o.1.venueId)) = ["coinbase"] ∧
      ((run (LoopWorld.step simulatedVenueAdapter {}) twoVenues namedVenues).published.map
        Message.topic) =
          ["sim.execution.venue", "sim.execution.annotations", "execution.venue",
            "execution.reports"] :=
  ⟨isolated_run simulatedVenueAdapter {} twoVenues.adapters ∅ namedVenues (by decide), by decide,
    by decide⟩

/-- An intent without a venue is sent to the simulated one, and so is an intent for it that
was routed before the session came. -/
theorem unnamed_venue_sent_live :
    ¬ (run (LoopWorld.step simulatedVenueAdapter {}) twoVenues
        [binanceSimulated, .consume (intentFor "i1" "") {}, .choose, .send {}]).Isolated ∧
      ¬ (run (LoopWorld.step simulatedVenueAdapter {}) twoVenues
        [.consume (intentFor "i1" "binance") {}, binanceSimulated, .choose, .send {}]).Isolated := by
  constructor
  · intro h
    exact absurd h.sent (by decide)
  · intro h
    exact absurd h.sent (by decide)

end Venues
end ContExchange
