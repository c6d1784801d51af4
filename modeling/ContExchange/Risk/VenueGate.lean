import ContExchange.Common.DoubleOrder
import ContExchange.Matching.VenueFilter
import ContExchange.OrderFlow.FlowOrders

/-!
# Risk: the venue gate of the pre-trade check

`EvaluateVenueHealthGateLocked` counts the venues that are allowed, in caution and blocked,
and averages their scores.  `CheckNewOrder` answers from it before it looks at the order.

* `evaluateVenueHealthGateLocked_eq`: the decision of the gate from its table;
* `Worsened`: two tables that differ only in that some venues are worse;
* `gateSound_iff`: when the answer of a worse table is at least as restrictive and the gate
  does not answer for the checks of the order.
-/

namespace ContExchange
namespace Risk

open Common Lib Double List
open Matching (ProtoFlowOrder)
open Matching.Planner (CircuitBreakerState VenueHealthStatus RoutingRecommendation)
open OrderFlow (VenueHealthDecision RiskDecision PreTradeCheckResponse)

structure VenueHealthGateState where
  status : VenueHealthStatus := .unspecified
  routing : RoutingRecommendation := .allow
  breaker : CircuitBreakerState := .unspecified
  healthScore : Double := .zero
deriving DecidableEq

inductive VenueClass where
  | allow
  | caution
  | blocked
deriving DecidableEq

def VenueClass.rank : VenueClass → Nat
  | .allow => 0
  | .caution => 1
  | .blocked => 2

/-- `hard_block` and the soft warning of the loop. -/
def VenueHealthGateState.venueClass (state : VenueHealthGateState) : VenueClass :=
  if state.breaker = .open ∨ state.routing = .block ∨ state.status = .disconnected ∨
      state.status = .stale ∨ state.status = .rateLimit then .blocked
  else if state.routing = .caution ∨ state.routing = .avoid ∨ state.status = .degraded then
    .caution
  else .allow

/-- The counters of the loop. -/
structure GateCounts where
  allowCount : Nat := 0
  cautionCount : Nat := 0
  blockedCount : Nat := 0
  healthScoreSum : Double := .zero

/-- One round of the loop. -/
def GateCounts.count (c : GateCounts) (state : VenueHealthGateState) : GateCounts :=
  let c := { c with healthScoreSum := c.healthScoreSum.add state.healthScore }
  match state.venueClass with
  | .blocked => { c with blockedCount := c.blockedCount + 1 }
  | .caution => { c with cautionCount := c.cautionCount + 1 }
  | .allow => { c with allowCount := c.allowCount + 1 }

abbrev VenueHealthGate := Table String VenueHealthGateState

/-- The states of the venues, in the order of the table. -/
def VenueHealthGate.states (gate : VenueHealthGate) : List VenueHealthGateState :=
  gate.entries.map Sigma.snd

/-- The counters after the loop. -/
def VenueHealthGate.counts (gate : VenueHealthGate) : GateCounts :=
  gate.states.foldl GateCounts.count {}

def VenueHealthGate.avgHealthScore (gate : VenueHealthGate) : Double :=
  gate.counts.healthScoreSum.div (.num gate.states.length)

def evaluateVenueHealthGateLocked (gate : VenueHealthGate) : VenueHealthDecision :=
  let c := gate.counts
  if gate.states = [] then .accept
  else if c.allowCount = 0 ∧ c.cautionCount = 0 ∧ 0 < c.blockedCount then .reject
  else if c.allowCount = 0 ∨ 0 < c.cautionCount ∨
      gate.avgHealthScore.lt (Double.ofRat (65 / 100)) then .resize
  else .accept

/-- `RiskUseCases`, as far as the pre-trade check reads it. -/
structure RiskUseCases where
  globalHalt : Bool := false
  instrumentHalt : Table String Bool := ∅
  venueHealthGate : VenueHealthGate := ∅

def RiskUseCases.isHaltedLocked (s : RiskUseCases) (symbol : String) : Bool :=
  s.globalHalt || (s.instrumentHalt.lookup symbol).getD false

def RiskUseCases.checkNewOrder (s : RiskUseCases) (o : ProtoFlowOrder) : PreTradeCheckResponse :=
  OrderFlow.checkNewOrder
    { halted := s.isHaltedLocked o.instrument.symbol
      venueGate := evaluateVenueHealthGateLocked s.venueHealthGate } o

section Decision

variable {gate gate' : VenueHealthGate}

def AllBlocked (gate : VenueHealthGate) : Prop :=
  gate.states ≠ [] ∧ ∀ state ∈ gate.states, state.venueClass = .blocked
deriving Decidable

def SomeVenue (gate : VenueHealthGate) (c : VenueClass) : Prop :=
  ∃ state ∈ gate.states, state.venueClass = c
deriving Decidable

/-- The average score is below the limit. -/
def LowScore (gate : VenueHealthGate) : Prop :=
  gate.avgHealthScore.lt (Double.ofRat (65 / 100)) = true
deriving Decidable

def Throttles (gate : VenueHealthGate) : Prop :=
  SomeVenue gate .caution ∨ SomeVenue gate .allow ∧ LowScore gate
deriving Decidable

theorem counts_foldl (states : List VenueHealthGateState) (c : GateCounts) :
    (states.foldl GateCounts.count c).allowCount =
        c.allowCount + states.countP (fun s => s.venueClass = .allow) ∧
      (states.foldl GateCounts.count c).cautionCount =
        c.cautionCount + states.countP (fun s => s.venueClass = .caution) ∧
      (states.foldl GateCounts.count c).blockedCount =
        c.blockedCount + states.countP (fun s => s.venueClass = .blocked) ∧
      (states.foldl GateCounts.count c).healthScoreSum =
        states.foldl (fun sum s => sum.add s.healthScore) c.healthScoreSum := by
  induction states generalizing c with
  | nil => exact ⟨rfl, rfl, rfl, rfl⟩
  | cons state states ih =>
      obtain ⟨hallow, hcaution, hblocked, hsum⟩ := ih (c.count state)
      rw [foldl_cons, hallow, hcaution, hblocked, hsum]
      simp only [countP_cons, foldl_cons]
      cases hclass : state.venueClass <;> simp [GateCounts.count, hclass] <;> omega

theorem countP_pos_iff (gate : VenueHealthGate) (c : VenueClass) :
    0 < gate.states.countP (fun s => s.venueClass = c) ↔ SomeVenue gate c := by
  rw [List.countP_pos_iff]
  simp only [decide_eq_true_eq]
  exact Iff.rfl

theorem not_someVenue_of_allBlocked (h : AllBlocked gate) {c : VenueClass} (hc : c ≠ .blocked) :
    ¬SomeVenue gate c := by
  rintro ⟨state, hstate, hclass⟩
  exact hc (hclass ▸ h.2 state hstate)

theorem evaluateVenueHealthGateLocked_eq (gate : VenueHealthGate) :
    evaluateVenueHealthGateLocked gate =
      if AllBlocked gate then .reject else if Throttles gate then .resize else .accept := by
  obtain ⟨hallow, hcaution, hblocked, -⟩ := counts_foldl gate.states {}
  simp only [zero_add] at hallow hcaution hblocked
  have hallow' := countP_pos_iff gate .allow
  have hcaution' := countP_pos_iff gate .caution
  have hblocked' := countP_pos_iff gate .blocked
  rw [← hallow] at hallow'
  rw [← hcaution] at hcaution'
  rw [← hblocked] at hblocked'
  unfold evaluateVenueHealthGateLocked VenueHealthGate.counts
  dsimp only
  by_cases hempty : gate.states = []
  · have hnone : ∀ c, ¬SomeVenue gate c := by
      rintro c ⟨state, hstate, -⟩
      rw [hempty] at hstate
      cases hstate
    rw [if_pos hempty, if_neg (fun h => h.1 hempty), if_neg]
    rintro (h | h)
    · exact hnone _ h
    · exact hnone _ h.1
  · rw [if_neg hempty]
    by_cases hall : AllBlocked gate
    · have hsome : SomeVenue gate .blocked := by
        obtain ⟨state, hstate⟩ := exists_mem_of_ne_nil _ hempty
        exact ⟨state, hstate, hall.2 state hstate⟩
      have hno := not_someVenue_of_allBlocked hall (c := .allow) (by decide)
      have hno' := not_someVenue_of_allBlocked hall (c := .caution) (by decide)
      rw [if_pos hall, if_pos]
      exact ⟨Nat.eq_zero_of_not_pos (mt hallow'.mp hno),
        Nat.eq_zero_of_not_pos (mt hcaution'.mp hno'), hblocked'.mpr hsome⟩
    · have hother : SomeVenue gate .allow ∨ SomeVenue gate .caution := by
        by_contra hnot
        rw [not_or] at hnot
        refine hall ⟨hempty, fun state hstate => ?_⟩
        cases hclass : state.venueClass with
        | allow => exact absurd ⟨state, hstate, hclass⟩ hnot.1
        | caution => exact absurd ⟨state, hstate, hclass⟩ hnot.2
        | blocked => rfl
      rw [if_neg hall, if_neg]
      · have hiff : ((gate.states.foldl GateCounts.count {}).allowCount = 0 ∨
              0 < (gate.states.foldl GateCounts.count {}).cautionCount ∨
              gate.avgHealthScore.lt (ofRat (65 / 100)) = true) ↔ Throttles gate := by
          unfold Throttles LowScore
          rw [← hallow', ← hcaution'] at *
          constructor
          · rintro (h | h | h)
            · exact Or.inl (by omega)
            · exact Or.inl h
            · rcases hother with ha | hc
              · exact Or.inr ⟨ha, h⟩
              · exact Or.inl hc
          · rintro (h | ⟨-, h⟩)
            · exact Or.inr (Or.inl h)
            · exact Or.inr (Or.inr h)
        exact if_congr hiff rfl rfl
      · rintro ⟨ha, hc, -⟩
        rcases hother with h | h
        · exact absurd (hallow'.mpr h) (by omega)
        · exact absurd (hcaution'.mpr h) (by omega)

end Decision

/-- A venue is not better: its class is as bad or worse and its score as high or lower. -/
structure Worse (state state' : VenueHealthGateState) : Prop where
  venueClass : state.venueClass.rank ≤ state'.venueClass.rank
  healthScore : state'.healthScore = state.healthScore ∨
    state'.healthScore.lt state.healthScore = true

/-- The tables have the same venues, and none is better in the second. -/
def Worsened (gate gate' : VenueHealthGate) : Prop :=
  List.Forall₂ (fun e e' => e.1 = e'.1 ∧ Worse e.2 e'.2) gate.entries gate'.entries

section Worsening

variable {gate gate' : VenueHealthGate}

theorem Worsened.states (h : Worsened gate gate') :
    List.Forall₂ Worse gate.states gate'.states := by
  unfold VenueHealthGate.states
  rw [forall₂_map_left_iff, forall₂_map_right_iff]
  exact h.imp (fun _ _ hrow => hrow.2)

theorem position_sum_le {states states' : List VenueHealthGateState} {a b : Double}
    (h : List.Forall₂ Worse states states') (hle : b.position ≤ a.position) :
    (states'.foldl (fun sum s => sum.add s.healthScore) b).position ≤
      (states.foldl (fun sum s => sum.add s.healthScore) a).position := by
  induction h generalizing a b with
  | nil => exact hle
  | cons hrow _ ih =>
      refine ih (position_add_mono hle ?_)
      rcases hrow.healthScore with heq | hlt
      · rw [heq]
      · exact position_le_of_lt hlt

theorem lowScore_of_worsened (h : Worsened gate gate') (hlow : LowScore gate) : LowScore gate' := by
  have hstates := h.states
  have hlength : gate'.states.length = gate.states.length := hstates.length_eq.symm
  unfold LowScore at hlow ⊢
  have hlimit : ∃ q, ofRat (65 / 100) = .num q := by
    refine ⟨magnitude (65 / 100), ?_⟩
    rw [ofRat_of_pos (by norm_num), if_neg]
    decide +kernel
  obtain ⟨q, hq⟩ := hlimit
  rw [hq] at hlow ⊢
  refine lt_of_position_le ?_ hlow
  unfold VenueHealthGate.avgHealthScore
  rw [hlength]
  have hsum : gate'.counts.healthScoreSum.position ≤ gate.counts.healthScoreSum.position := by
    unfold VenueHealthGate.counts
    rw [(counts_foldl _ _).2.2.2, (counts_foldl _ _).2.2.2]
    exact position_sum_le hstates le_rfl
  rcases Nat.eq_zero_or_pos gate.states.length with hzero | hpos
  · have hnil : gate.states = [] := length_eq_zero_iff.mp hzero
    have hnil' : gate'.states = [] := length_eq_zero_iff.mp (hlength.trans hzero)
    unfold VenueHealthGate.counts
    rw [hnil, hnil']
  · exact position_div_mono (by exact_mod_cast hpos) hsum

theorem exists_before {states states' : List VenueHealthGateState} {state' : VenueHealthGateState}
    (h : List.Forall₂ Worse states states') (hmem : state' ∈ states') :
    ∃ state ∈ states, Worse state state' := by
  induction h with
  | nil => cases hmem
  | cons hrow _ ih =>
      rcases mem_cons.mp hmem with rfl | hrest
      · exact ⟨_, mem_cons_self, hrow⟩
      · obtain ⟨state, hstate, hworse⟩ := ih hrest
        exact ⟨state, mem_cons_of_mem _ hstate, hworse⟩

theorem someAllow_of_worsened (h : Worsened gate gate') (hallow : SomeVenue gate' .allow) :
    SomeVenue gate .allow := by
  obtain ⟨state', hstate', hclass⟩ := hallow
  obtain ⟨state, hstate, hworse⟩ := exists_before h.states hstate'
  have hrank := hworse.venueClass
  rw [hclass] at hrank
  refine ⟨state, hstate, ?_⟩
  cases hc : state.venueClass <;> simp_all [VenueClass.rank]

theorem allBlocked_of_worsened (h : Worsened gate gate') (hall : AllBlocked gate) :
    AllBlocked gate' := by
  have hlength := h.states.length_eq
  refine ⟨?_, ?_⟩
  · intro hnil
    rw [hnil, length_nil] at hlength
    exact hall.1 (length_eq_zero_iff.mp hlength)
  · intro state' hstate'
    obtain ⟨state, hstate, hworse⟩ := exists_before h.states hstate'
    have hrank := hworse.venueClass
    rw [hall.2 state hstate] at hrank
    cases hc : state'.venueClass <;> simp_all [VenueClass.rank]

end Worsening

def restriction : RiskDecision → Nat
  | .accept => 0
  | .resize => 1
  | .reject => 2
  | .halt => 3

/-- An order without a positive quantity, or with its price range the wrong way round. -/
def Invalid (o : ProtoFlowOrder) : Prop :=
  o.total.toRat ≤ 0 ∨ o.high.toRat < o.low.toRat

/-- The checks that `CheckNewOrder` makes itself. -/
def PassesChecks (o : ProtoFlowOrder) : Prop :=
  0 < o.total.units ∧ Decimal.cmp o.low o.high ≤ 0
deriving Decidable

def RiskUseCases.answerWith (s : RiskUseCases) (gate : VenueHealthGate) (o : ProtoFlowOrder) :
    RiskDecision :=
  (RiskUseCases.checkNewOrder { s with venueHealthGate := gate } o).decision

/-- The worse table answers as restrictively, no table lets an invalid order through, and a
halted symbol is answered so. -/
structure GateSound (s : RiskUseCases) (gate gate' : VenueHealthGate) (o : ProtoFlowOrder) :
    Prop where
  monotone : restriction (s.answerWith gate o) ≤ restriction (s.answerWith gate' o)
  checked : Invalid o → ∀ g ∈ [gate, gate'],
    s.answerWith g o ≠ .accept ∧ s.answerWith g o ≠ .resize
  halted : s.isHaltedLocked o.instrument.symbol = true → ∀ g ∈ [gate, gate'],
    s.answerWith g o = .halt

/-- Every venue in caution is blocked in the second table, where a venue is still allowed and
the scores are not low. -/
def Relaxes (gate gate' : VenueHealthGate) : Prop :=
  SomeVenue gate .caution ∧ SomeVenue gate' .allow ∧ ¬Throttles gate'

/-- An invalid order is refused: by the gate, or by the checks where the gate lets it pass. -/
def Refused (gate : VenueHealthGate) (o : ProtoFlowOrder) : Prop :=
  AllBlocked gate ∨ ¬Throttles gate ∧ ¬PassesChecks o

/-- When the gate keeps what `GateSound` says. -/
def GateKeeps (s : RiskUseCases) (gate gate' : VenueHealthGate) (o : ProtoFlowOrder) : Prop :=
  s.isHaltedLocked o.instrument.symbol = true ∨
    (Invalid o → Refused gate o ∧ Refused gate' o) ∧
      (PassesChecks o → ¬Relaxes gate gate') ∧
      (¬PassesChecks o → Throttles gate' → Throttles gate)

section Answers

variable {s : RiskUseCases} {gate gate' : VenueHealthGate} {o : ProtoFlowOrder}

theorem answerWith_eq (s : RiskUseCases) (gate : VenueHealthGate) (o : ProtoFlowOrder) :
    s.answerWith gate o =
      if s.isHaltedLocked o.instrument.symbol = true then .halt
      else if AllBlocked gate then .reject
      else if Throttles gate then .resize
      else if PassesChecks o then .accept
      else .reject := by
  change (OrderFlow.checkNewOrder
    { halted := s.isHaltedLocked o.instrument.symbol
      venueGate := evaluateVenueHealthGateLocked gate } o).decision = _
  rw [evaluateVenueHealthGateLocked_eq]
  unfold OrderFlow.checkNewOrder
  dsimp only
  cases s.isHaltedLocked o.instrument.symbol with
  | true => rfl
  | false =>
      simp only [Bool.false_eq_true, if_false]
      by_cases hall : AllBlocked gate
      · rw [if_pos hall, if_pos hall]
      · rw [if_neg hall, if_neg hall]
        by_cases hthrottle : Throttles gate
        · rw [if_pos hthrottle, if_pos hthrottle]
        · rw [if_neg hthrottle, if_neg hthrottle]
          by_cases hpass : PassesChecks o
          · rw [if_pos hpass, if_neg (not_le.mpr hpass.1), if_neg (not_lt.mpr hpass.2)]
          · rw [if_neg hpass]
            split_ifs with hqty hprice
            · rfl
            · rfl
            · exact absurd ⟨not_le.mp hqty, not_lt.mp hprice⟩ hpass

theorem refused_iff (gate : VenueHealthGate)
    (hhalt : s.isHaltedLocked o.instrument.symbol = false) :
    (s.answerWith gate o ≠ .accept ∧ s.answerWith gate o ≠ .resize) ↔ Refused gate o := by
  rw [answerWith_eq, hhalt, if_neg (by decide)]
  unfold Refused
  by_cases hall : AllBlocked gate <;> by_cases hthrottle : Throttles gate <;>
    by_cases hpass : PassesChecks o <;> simp [hall, hthrottle, hpass]

/-- Where the second table only throttles after the first, or lets an order through that the
first does not. -/
theorem monotone_iff (h : Worsened gate gate')
    (hhalt : s.isHaltedLocked o.instrument.symbol = false) :
    restriction (s.answerWith gate o) ≤ restriction (s.answerWith gate' o) ↔
      (PassesChecks o → ¬Relaxes gate gate') ∧
        (¬PassesChecks o → Throttles gate' → Throttles gate) := by
  have hblocked := allBlocked_of_worsened h
  have hallow := someAllow_of_worsened h
  have hlow := lowScore_of_worsened h
  have hfree : AllBlocked gate' → ¬Throttles gate' := by
    rintro hall (hc | ⟨ha, -⟩)
    · exact not_someVenue_of_allBlocked hall (by decide) hc
    · exact not_someVenue_of_allBlocked hall (by decide) ha
  -- an accept of the second table needs a venue that is allowed, or an empty table
  have hsome : ¬AllBlocked gate' → ¬Throttles gate' → gate'.states ≠ [] →
      SomeVenue gate' .allow := by
    intro hall hthrottle hne
    by_contra hno
    refine hall ⟨hne, fun state hstate => ?_⟩
    cases hclass : state.venueClass with
    | allow => exact absurd ⟨state, hstate, hclass⟩ hno
    | caution => exact absurd (Or.inl ⟨state, hstate, hclass⟩) hthrottle
    | blocked => rfl
  have hempty : gate'.states = [] → ¬Throttles gate := by
    intro hnil
    have hnil' : gate.states = [] := by
      have := h.states.length_eq
      rw [hnil, length_nil] at this
      exact length_eq_zero_iff.mp this
    rintro (⟨state, hstate, -⟩ | ⟨⟨state, hstate, -⟩, -⟩) <;>
      · rw [hnil'] at hstate
        cases hstate
  have hrelax : ¬AllBlocked gate' → Throttles gate → ¬Throttles gate' → Relaxes gate gate' := by
    intro hall hthrottle hthrottle'
    have hne : gate'.states ≠ [] := fun hnil => hempty hnil hthrottle
    have ha := hsome hall hthrottle' hne
    refine ⟨?_, ha, hthrottle'⟩
    rcases hthrottle with hc | ⟨-, hl⟩
    · exact hc
    · exact absurd (Or.inr ⟨ha, hlow hl⟩) hthrottle'
  have hrelaxed : Relaxes gate gate' → ¬AllBlocked gate' ∧ ¬AllBlocked gate ∧ Throttles gate := by
    rintro ⟨hc, ha, -⟩
    exact ⟨fun hall => not_someVenue_of_allBlocked hall (by decide) ha,
      fun hall => not_someVenue_of_allBlocked hall (by decide) hc, Or.inl hc⟩
  rw [answerWith_eq, answerWith_eq, hhalt]
  simp only [Bool.false_eq_true, if_false]
  by_cases hpass : PassesChecks o
  · simp only [hpass, not_true_eq_false, true_implies, false_implies, and_true, if_true]
    by_cases hall' : AllBlocked gate'
    · have hno : ¬Relaxes gate gate' := fun hr => (hrelaxed hr).1 hall'
      simp only [hall', hno, if_true, not_false_eq_true, iff_true]
      split_ifs <;> decide
    · have hall : ¬AllBlocked gate := fun hall => hall' (hblocked hall)
      simp only [hall, hall', if_false]
      by_cases ht : Throttles gate <;> by_cases ht' : Throttles gate'
      · have hno : ¬Relaxes gate gate' := fun hr => hr.2.2 ht'
        simp [ht, ht', hno]
      · have hyes := hrelax hall' ht ht'
        simp [ht, ht', hyes, restriction]
      · have hno : ¬Relaxes gate gate' := fun hr => hr.2.2 ht'
        simp [ht, ht', hno, restriction]
      · have hno : ¬Relaxes gate gate' := fun hr => ht (hrelaxed hr).2.2
        simp [ht, ht', hno]
  · simp only [hpass, not_false_eq_true, true_implies, false_implies, true_and, if_false]
    by_cases hall' : AllBlocked gate'
    · have hno := hfree hall'
      simp only [hall', hno, if_true, false_implies, iff_true]
      split_ifs <;> decide
    · have hall : ¬AllBlocked gate := fun hall => hall' (hblocked hall)
      simp only [hall, hall', if_false]
      by_cases ht : Throttles gate <;> by_cases ht' : Throttles gate' <;>
        simp [ht, ht', restriction]

/-- When a worse table is answered as restrictively and no invalid order gets through. -/
theorem gateSound_iff (s : RiskUseCases) (gate gate' : VenueHealthGate) (o : ProtoFlowOrder)
    (h : Worsened gate gate') : GateSound s gate gate' o ↔ GateKeeps s gate gate' o := by
  cases hhalt : s.isHaltedLocked o.instrument.symbol with
  | true =>
      have hanswer : ∀ g, s.answerWith g o = .halt := fun g => by
        rw [answerWith_eq, hhalt, if_pos rfl]
      refine ⟨fun _ => Or.inl hhalt, fun _ => ⟨?_, ?_, ?_⟩⟩
      · rw [hanswer, hanswer]
      · intro _ g _
        rw [hanswer]
        decide
      · exact fun _ g _ => hanswer g
  | false =>
      have hmonotone := monotone_iff (s := s) (o := o) h hhalt
      have hfirst := refused_iff gate hhalt
      have hsecond := refused_iff gate' hhalt
      constructor
      · intro hsound
        refine Or.inr ⟨fun hinvalid => ?_, hmonotone.mp hsound.monotone⟩
        have hchecked := hsound.checked hinvalid
        exact ⟨hfirst.mp (hchecked gate (by simp)), hsecond.mp (hchecked gate' (by simp))⟩
      · rintro (hyes | ⟨hrefused, hrest⟩)
        · rw [hhalt] at hyes
          cases hyes
        · refine ⟨hmonotone.mpr hrest, fun hinvalid g hg => ?_, fun hyes => ?_⟩
          · rcases List.mem_pair.mp hg with rfl | rfl
            · exact hfirst.mpr (hrefused hinvalid).1
            · exact hsecond.mpr (hrefused hinvalid).2
          · rw [hhalt] at hyes
            cases hyes

end Answers

def allowedVenue : VenueHealthGateState :=
  { status := .ok, routing := .allow, breaker := .closed, healthScore := .one }

/-- A table with an allowed venue and another one. -/
def twoVenueGate (state : VenueHealthGateState) : VenueHealthGate :=
  ((∅ : VenueHealthGate).insert "binance" state).insert "okx" allowedVenue

def cautionGate : VenueHealthGate :=
  twoVenueGate { allowedVenue with routing := .caution }

def blockedGate : VenueHealthGate :=
  twoVenueGate { allowedVenue with routing := .block }

theorem cautionGate_worsened : Worsened cautionGate blockedGate := by
  refine List.Forall₂.cons ⟨rfl, by decide, Or.inl rfl⟩ ?_
  exact List.Forall₂.cons ⟨rfl, by decide, Or.inl rfl⟩ List.Forall₂.nil

def pricedOrder (units : Int) (h : decide (Int64Fits units) = true := by exact Eq.refl true) :
    ProtoFlowOrder :=
  { orderId := "o1"
    userId := "u1"
    instrument := { symbol := "BTC-USDT", base := "BTC", quote := "USDT" }
    side := .buy
    priceLow := some (Decimal.of 1 0)
    priceHigh := some (Decimal.of 2 0)
    totalQty := some (Decimal.of units 0 h) }

theorem gateSound_iff_blocked :
    Worsened cautionGate blockedGate ∧
      (GateSound {} cautionGate blockedGate (pricedOrder 1) ↔
        GateKeeps {} cautionGate blockedGate (pricedOrder 1)) :=
  ⟨cautionGate_worsened, gateSound_iff _ _ _ _ cautionGate_worsened⟩

/-- A venue that goes from caution to blocked turns a resize into an accept, and in caution an
order without a quantity is resized. -/
theorem gate_unsound :
    Worsened cautionGate blockedGate ∧
      ¬GateSound {} cautionGate blockedGate (pricedOrder 1) ∧
      RiskUseCases.answerWith {} cautionGate (pricedOrder 1) = .resize ∧
      RiskUseCases.answerWith {} blockedGate (pricedOrder 1) = .accept ∧
      Invalid (pricedOrder 0) ∧
      RiskUseCases.answerWith {} cautionGate (pricedOrder 0) = .resize := by
  have hresize : RiskUseCases.answerWith {} cautionGate (pricedOrder 1) = .resize := by
    decide +kernel
  have haccept : RiskUseCases.answerWith {} blockedGate (pricedOrder 1) = .accept := by
    decide +kernel
  refine ⟨cautionGate_worsened, ?_, hresize, haccept, Or.inl ?_, by decide +kernel⟩
  · intro hsound
    have hmonotone := hsound.monotone
    rw [hresize, haccept] at hmonotone
    exact absurd hmonotone (by decide)
  · norm_num [pricedOrder, ProtoFlowOrder.total, Decimal.toRat, Decimal.of]

end Risk
end ContExchange
