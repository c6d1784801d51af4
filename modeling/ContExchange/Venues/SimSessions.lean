import ContExchange.Ledger.ExecutionReports
import ContExchange.Lib.Selection
import Mathlib.Data.String.Basic

/-!
# Venues: simulation sessions

The session manager keeps the sessions in a repository and publishes every change to
`sim.config`; the consumer applies the events to an in-memory registry, from which the
router resolves the session that governs a venue and an instrument.

* `SimWorld`: repository, published events and registry; an event may be delivered at any
  time and again and again, and its version is its place among the published ones;
* `TerminalKept`, `RegistryCurrent`: a terminal session does not change, and the registry
  holds the sessions that are not terminal at the highest version that was applied;
* `sessions_run`: both hold along every run whose steps meet `StepOk`, and registries with
  the same sessions resolve alike.

The manager changes terminal sessions like any other, and the registry takes a late event
for the newest.
-/

namespace ContExchange
namespace Venues

open Common Lib AList Table
open Option hiding map mem_map
open Ledger (Timestamp)

inductive RoutingMode where
  | unspecified
  | simOnly
  | liveOnly
  | shadow
deriving DecidableEq

inductive SimSessionStatus where
  | unspecified
  | active
  | paused
  | completed
  | cancelled
deriving DecidableEq

def SimSessionStatus.isTerminal : SimSessionStatus → Bool
  | .completed | .cancelled => true
  | _ => false

inductive PartialFillMode where
  | unspecified
  | proportional
  | levelByLevel
  | none
deriving DecidableEq

/-- `fob.sim.v1.SimSession`; the behaviour models are kept as their texts. -/
structure SimSession where
  simSessionId : String := ""
  name : String := ""
  routingMode : RoutingMode := .unspecified
  scopeVenues : List String := []
  scopeInstruments : List String := []
  latencyModel : Option String := none
  impactModel : Option String := none
  feeModel : Option String := none
  rejectionModel : Option String := none
  staleLobThresholdMs : Nat := 0
  partialFillMode : PartialFillMode := .unspecified
  status : SimSessionStatus := .unspecified
  createdAt : Option Timestamp := none
  activatedAt : Option Timestamp := none
  completedAt : Option Timestamp := none
  createdBy : String := ""
deriving DecidableEq

inductive SimConfigEventType where
  | unspecified
  | upsert
  | delete
deriving DecidableEq

structure SimConfigEvent where
  eventType : SimConfigEventType
  session : SimSession
deriving DecidableEq

structure UpdateSimSessionRequest where
  simSessionId : String
  routingMode : RoutingMode := .unspecified
  latencyModel : Option String := none
  impactModel : Option String := none
  feeModel : Option String := none
  rejectionModel : Option String := none
  staleLobThresholdMs : Nat := 0
  partialFillMode : PartialFillMode := .unspecified
  status : SimSessionStatus := .unspecified

structure SimSessionResult where
  ok : Bool
  errorCode : String := ""
  errorMessage : String := ""
  session : SimSession := {}

/-- What a call of the manager finds outside: the time, a fresh UUID, and how the
repository answers an upsert. -/
structure ManagerEnv where
  now : Timestamp
  uuid : String := "uuid"
  uuid_ne : uuid ≠ "" := by decide
  upserts : Bool := true
  upsertError : String := ""

/-- The sessions of the repository, by id. -/
abbrev SimSessions := Table String SimSession

/-- The event type that a session is published with. -/
def configType (status : SimSessionStatus) : SimConfigEventType :=
  if status.isTerminal then .delete else .upsert

/-- The end of every call: the session is stored and published. -/
def storeAndPublish (env : ManagerEnv) (repo : SimSessions) (type : SimConfigEventType)
    (s : SimSession) : SimSessions × Option SimConfigEvent × SimSessionResult :=
  if env.upserts then
    (repo.insert s.simSessionId s, some { eventType := type, session := s },
      { ok := true, session := s })
  else
    (repo, none,
      { ok := false
        errorCode := "INTERNAL"
        errorMessage :=
          if env.upsertError = "" then "repository upsert failed" else env.upsertError })

def sessionNotFound (id : String) : SimSessionResult where
  ok := false
  errorCode := "NOT_FOUND"
  errorMessage := "sim session not found: " ++ id

/-- The session that `Create` stores. -/
def createdSession (env : ManagerEnv) (session : SimSession) : SimSession :=
  let status := if session.status = .unspecified then .active else session.status
  { session with
    simSessionId := if session.simSessionId = "" then env.uuid else session.simSessionId
    createdAt := some env.now
    status := status
    activatedAt :=
      if status = .active then session.activatedAt.or (some env.now) else session.activatedAt }

def create (env : ManagerEnv) (repo : SimSessions) (session : SimSession) :
    SimSessions × Option SimConfigEvent × SimSessionResult :=
  if session.routingMode = .unspecified then
    (repo, none,
      { ok := false
        errorCode := "INVALID_ARGUMENT"
        errorMessage := "routing_mode is required" })
  else
    let s := createdSession env session
    storeAndPublish env repo (configType s.status) s

/-- The session that `Update` stores. -/
def updatedSession (env : ManagerEnv) (req : UpdateSimSessionRequest) (s : SimSession) :
    SimSession :=
  { s with
    routingMode := if req.routingMode = .unspecified then s.routingMode else req.routingMode
    latencyModel := req.latencyModel.or s.latencyModel
    impactModel := req.impactModel.or s.impactModel
    feeModel := req.feeModel.or s.feeModel
    rejectionModel := req.rejectionModel.or s.rejectionModel
    staleLobThresholdMs :=
      if req.staleLobThresholdMs = 0 then s.staleLobThresholdMs else req.staleLobThresholdMs
    partialFillMode :=
      if req.partialFillMode = .unspecified then s.partialFillMode else req.partialFillMode
    status := if req.status = .unspecified then s.status else req.status
    activatedAt :=
      if req.status = .active then s.activatedAt.or (some env.now) else s.activatedAt
    completedAt :=
      if req.status.isTerminal then s.completedAt.or (some env.now) else s.completedAt }

def update (env : ManagerEnv) (repo : SimSessions) (req : UpdateSimSessionRequest) :
    SimSessions × Option SimConfigEvent × SimSessionResult :=
  match repo.lookup req.simSessionId with
  | none => (repo, none, sessionNotFound req.simSessionId)
  | some existing =>
      let s := updatedSession env req existing
      storeAndPublish env repo (configType s.status) s

def complete (env : ManagerEnv) (repo : SimSessions) (simSessionId : String) :
    SimSessions × Option SimConfigEvent × SimSessionResult :=
  match repo.lookup simSessionId with
  | none => (repo, none, sessionNotFound simSessionId)
  | some existing =>
      storeAndPublish env repo .delete
        { existing with status := .completed, completedAt := some env.now }

namespace SimSessionRegistry

def upsert (sessions : SimSessions) (session : SimSession) : SimSessions :=
  if session.simSessionId = "" then sessions
  else if session.status.isTerminal then sessions.erase session.simSessionId
  else sessions.insert session.simSessionId session

def remove (sessions : SimSessions) (simSessionId : String) : SimSessions :=
  sessions.erase simSessionId

def inScope (scope : List String) (value : String) : Bool :=
  scope.isEmpty || scope.contains value

def moreRecent (a b : SimSession) : Bool :=
  let ta := a.activatedAt.getD { seconds := 0 }
  let tb := b.activatedAt.getD { seconds := 0 }
  if ta.seconds ≠ tb.seconds then decide (tb.seconds < ta.seconds)
  else if ta.nanos ≠ tb.nanos then decide (tb.nanos < ta.nanos)
  else decide (b.simSessionId < a.simSessionId)

def governs (venueId symbol : String) (s : SimSession) : Bool :=
  decide (s.status = .active) && inScope s.scopeVenues venueId &&
    inScope s.scopeInstruments symbol

/-- `Resolve`: the map is gone through by id. -/
def resolve (sessions : SimSessions) (venueId symbol : String) : Option SimSession :=
  maxElement (fun best s => moreRecent s best)
    (((sessions.sorted (· ≤ ·)).map Sigma.snd).filter (governs venueId symbol))

end SimSessionRegistry

def applySimConfigEvent (evt : SimConfigEvent) (registry : SimSessions) : SimSessions :=
  if evt.session.simSessionId = "" then registry
  else
    match evt.eventType with
    | .upsert => SimSessionRegistry.upsert registry evt.session
    | .delete => SimSessionRegistry.remove registry evt.session.simSessionId
    | .unspecified => registry

/-- The repository, the events published so far, the registry, and the highest version of
each session that was applied to it. -/
structure SimWorld where
  repo : SimSessions := ∅
  published : List SimConfigEvent := []
  registry : SimSessions := ∅
  applied : Table String Nat := ∅

/-- A call of the manager, or the delivery of a published event. -/
inductive SimStep where
  | create (env : ManagerEnv) (session : SimSession)
  | update (env : ManagerEnv) (req : UpdateSimSessionRequest)
  | complete (env : ManagerEnv) (simSessionId : String)
  | deliver (version : Nat)

namespace SimWorld

/-- A call of the manager leaves its repository and what it publishes. -/
def called (s : SimWorld) (r : SimSessions × Option SimConfigEvent × SimSessionResult) :
    SimWorld :=
  { s with repo := r.1, published := s.published ++ r.2.1.toList }

/-- The highest version of a session with one more that was applied. -/
def note (applied : Table String Nat) (id : String) (version : Nat) : Table String Nat :=
  applied.insert id ((applied.lookup id).elim version (max version))

def step (s : SimWorld) : SimStep → SimWorld
  | .create env session => s.called (create env s.repo session)
  | .update env req => s.called (update env s.repo req)
  | .complete env simSessionId => s.called (complete env s.repo simSessionId)
  | .deliver version =>
      match s.published[version]? with
      | none => s
      | some evt =>
          { s with
            registry := applySimConfigEvent evt s.registry
            applied := note s.applied evt.session.simSessionId version }

/-- The session of an event, unless it is terminal. -/
def live (evt : SimConfigEvent) : Option SimSession :=
  if evt.session.status.isTerminal then none else some evt.session

/-- No terminal session changes. -/
def TerminalKept (s s' : SimWorld) : Prop :=
  ∀ id row, s.repo.lookup id = some row → row.status.isTerminal → s'.repo.lookup id = some row

/-- The registry holds exactly the sessions that are not terminal, at their highest applied
version. -/
def RegistryCurrent (s : SimWorld) : Prop :=
  ∀ id, s.registry.lookup id =
    ((s.applied.lookup id).bind (fun version => s.published[version]?)).bind live

/-- The repository has no terminal session under an id. -/
def NotTerminal (s : SimWorld) (id : String) : Prop :=
  ∀ row ∈ s.repo.lookup id, row.status.isTerminal = false
deriving Decidable

/-- The condition on a step: the manager stores no session over a terminal one, and an
event is not older than the newest one applied of its session. -/
def StepOk (s : SimWorld) : SimStep → Prop
  | .create env session =>
      session.routingMode = .unspecified ∨ env.upserts = false ∨
        s.NotTerminal (createdSession env session).simSessionId
  | .update env req => env.upserts = false ∨ s.NotTerminal req.simSessionId
  | .complete env simSessionId => env.upserts = false ∨ s.NotTerminal simSessionId
  | .deliver version =>
      ∀ evt ∈ s.published[version]?, ∀ newest ∈ s.applied.lookup evt.session.simSessionId,
        newest ≤ version

instance (s : SimWorld) : (e : SimStep) → Decidable (s.StepOk e)
  | .create _ _ => inferInstanceAs (Decidable (_ ∨ _ ∨ _))
  | .update _ _ => inferInstanceAs (Decidable (_ ∨ _))
  | .complete _ _ => inferInstanceAs (Decidable (_ ∨ _))
  | .deliver version =>
      inferInstanceAs (Decidable (∀ evt ∈ _, ∀ newest ∈ _, newest ≤ version))

variable {s : SimWorld}

/-- What a call of the manager does to a well-formed world: nothing, or it stores a session
under its id and publishes it. -/
inductive Stores (s : SimWorld) (id : String) (upserts : Bool)
    (r : SimSessions × Option SimConfigEvent × SimSessionResult) : Prop where
  | nothing (hrepo : r.1 = s.repo) (hevent : r.2.1 = none)
  | stored (row : SimSession) (hupserts : upserts = true) (hid : row.simSessionId = id)
      (hrepo : r.1 = s.repo.insert id row)
      (hevent : r.2.1 = some { eventType := configType row.status, session := row })

/-- What holds of every world: sessions are stored under their ids, every event is of the
type of its session, and an applied version is one of the session. -/
structure WellFormed (s : SimWorld) : Prop where
  repo : ∀ id row, s.repo.lookup id = some row → row.simSessionId = id ∧ id ≠ ""
  published : ∀ evt ∈ s.published, evt.session.simSessionId ≠ "" ∧
    evt.eventType = configType evt.session.status
  applied : ∀ id version, s.applied.lookup id = some version →
    ∃ evt, s.published[version]? = some evt ∧ evt.session.simSessionId = id
  registry : ∀ id session, s.registry.lookup id = some session → session.simSessionId = id

theorem stores_storeAndPublish (s : SimWorld) (env : ManagerEnv) (row : SimSession) :
    Stores s row.simSessionId env.upserts
      (storeAndPublish env s.repo (configType row.status) row) := by
  unfold storeAndPublish
  split
  · rename_i hupserts
    exact .stored row hupserts rfl rfl rfl
  · exact .nothing rfl rfl

theorem stores_create (s : SimWorld) (env : ManagerEnv) (session : SimSession)
    (hmode : session.routingMode ≠ .unspecified) :
    Stores s (createdSession env session).simSessionId env.upserts (create env s.repo session) := by
  unfold create
  rw [if_neg hmode]
  exact stores_storeAndPublish s env (createdSession env session)

theorem stores_update (h : s.WellFormed) (env : ManagerEnv) (req : UpdateSimSessionRequest) :
    Stores s req.simSessionId env.upserts (update env s.repo req) := by
  unfold update
  cases hrow : s.repo.lookup req.simSessionId with
  | none => exact .nothing rfl rfl
  | some existing =>
      have hid : (updatedSession env req existing).simSessionId = req.simSessionId :=
        (h.repo _ existing hrow).1
      rw [← hid]
      exact stores_storeAndPublish s env (updatedSession env req existing)

theorem stores_complete (h : s.WellFormed) (env : ManagerEnv) (id : String) :
    Stores s id env.upserts (complete env s.repo id) := by
  unfold complete
  cases hrow : s.repo.lookup id with
  | none => exact .nothing rfl rfl
  | some existing =>
      have hid : existing.simSessionId = id := (h.repo id existing hrow).1
      have hstores := stores_storeAndPublish s env
        { existing with status := .completed, completedAt := some env.now }
      rw [← hid]
      exact hstores

theorem createdId_ne (env : ManagerEnv) (session : SimSession) :
    (createdSession env session).simSessionId ≠ "" := by
  change (if session.simSessionId = "" then env.uuid else session.simSessionId) ≠ ""
  split
  · exact env.uuid_ne
  · rename_i hid
    exact hid

theorem wellFormed_called (h : s.WellFormed) {id : String} (hne : id ≠ "") {upserts : Bool}
    {r : SimSessions × Option SimConfigEvent × SimSessionResult} (hr : Stores s id upserts r) :
    (s.called r).WellFormed := by
  unfold called
  cases hr with
  | nothing hrepo hevent =>
      rw [hrepo, hevent, toList_none, List.append_nil]
      exact ⟨h.repo, h.published, h.applied, h.registry⟩
  | stored row _ hid hrepo hevent =>
      rw [hrepo, hevent]
      refine ⟨?_, ?_, ?_, h.registry⟩
      · intro id' row' hrow
        by_cases hsame : id' = id
        · subst hsame
          rw [lookup_insert] at hrow
          cases hrow
          exact ⟨hid, hne⟩
        · rw [lookup_insert_ne hsame] at hrow
          exact h.repo id' row' hrow
      · intro evt hevt
        rcases List.mem_append.mp hevt with hold | hnew
        · exact h.published evt hold
        · obtain rfl := List.mem_singleton.mp hnew
          exact ⟨by rw [hid]; exact hne, rfl⟩
      · intro id' version happlied
        obtain ⟨evt, hevt, hevtId⟩ := h.applied id' version happlied
        refine ⟨evt, ?_, hevtId⟩
        have hlt := (List.getElem?_eq_some_iff.mp hevt).1
        dsimp only
        rw [List.getElem?_append_left hlt]
        exact hevt

theorem lookup_applySimConfigEvent {evt : SimConfigEvent} (hid : evt.session.simSessionId ≠ "")
    (htype : evt.eventType = configType evt.session.status) (registry : SimSessions) (id : String) :
    (applySimConfigEvent evt registry).lookup id =
      if id = evt.session.simSessionId then live evt else registry.lookup id := by
  unfold applySimConfigEvent live
  rw [if_neg hid, htype]
  unfold configType
  cases hterminal : evt.session.status.isTerminal with
  | true =>
      simp only [if_true, SimSessionRegistry.remove]
      split
      · rename_i hsame
        rw [hsame, lookup_erase]
      · rename_i hother
        rw [lookup_erase_ne hother]
  | false =>
      simp only [Bool.false_eq_true, if_false, SimSessionRegistry.upsert, hid, hterminal]
      split
      · rename_i hsame
        rw [hsame, lookup_insert]
      · rename_i hother
        rw [lookup_insert_ne hother]

theorem lookup_note (applied : Table String Nat) (id id' : String) (version : Nat) :
    (note applied id version).lookup id' =
      if id' = id then some ((applied.lookup id).elim version (max version))
      else applied.lookup id' := by
  unfold note
  split
  · rename_i hsame
    rw [hsame, lookup_insert]
  · rename_i hother
    rw [lookup_insert_ne hother]

theorem noted_mem (old : Option Nat) (version : Nat) :
    old.elim version (max version) = version ∨ some (old.elim version (max version)) = old := by
  cases old with
  | none => exact Or.inl rfl
  | some newest =>
      rcases max_choice version newest with hmax | hmax
      · exact Or.inl hmax
      · exact Or.inr (congrArg some hmax)

theorem wellFormed_deliver (h : s.WellFormed) (version : Nat) :
    (s.step (.deliver version)).WellFormed := by
  simp only [step]
  cases hevt : s.published[version]? with
  | none => exact h
  | some evt =>
      have hmem : evt ∈ s.published := List.mem_of_getElem? hevt
      obtain ⟨hid, htype⟩ := h.published evt hmem
      refine ⟨h.repo, h.published, ?_, ?_⟩
      · intro id version' happlied
        rw [lookup_note] at happlied
        split at happlied
        · rename_i hsame
          have hversion := some_inj.mp happlied
          rcases noted_mem (s.applied.lookup evt.session.simSessionId) version with hnew | hold
          · rw [hnew] at hversion
            subst hversion
            exact ⟨evt, hevt, hsame.symm⟩
          · rw [hversion, ← hsame] at hold
            exact h.applied id version' hold.symm
        · exact h.applied id version' happlied
      · intro id session hlookup
        rw [lookup_applySimConfigEvent hid htype] at hlookup
        split at hlookup
        · rename_i hsame
          unfold live at hlookup
          split at hlookup
          · cases hlookup
          · cases hlookup
            exact hsame.symm
        · exact h.registry id session hlookup

theorem wellFormed_step (s : SimWorld) (e : SimStep) (h : s.WellFormed) :
    (s.step e).WellFormed := by
  cases e with
  | create env session =>
      by_cases hmode : session.routingMode = .unspecified
      · have hnothing : Stores s env.uuid env.upserts (create env s.repo session) := by
          unfold create
          rw [if_pos hmode]
          exact .nothing rfl rfl
        exact wellFormed_called h env.uuid_ne hnothing
      · exact wellFormed_called h (createdId_ne env session) (stores_create s env session hmode)
  | update env req =>
      have hstores := stores_update h env req
      cases hrow : s.repo.lookup req.simSessionId with
      | none =>
          have hnothing : Stores s env.uuid env.upserts (update env s.repo req) := by
            unfold update
            rw [hrow]
            exact .nothing rfl rfl
          exact wellFormed_called h env.uuid_ne hnothing
      | some existing => exact wellFormed_called h (h.repo _ existing hrow).2 hstores
  | complete env id =>
      have hstores := stores_complete h env id
      cases hrow : s.repo.lookup id with
      | none =>
          have hnothing : Stores s env.uuid env.upserts (complete env s.repo id) := by
            unfold complete
            rw [hrow]
            exact .nothing rfl rfl
          exact wellFormed_called h env.uuid_ne hnothing
      | some existing => exact wellFormed_called h (h.repo _ existing hrow).2 hstores
  | deliver version => exact wellFormed_deliver h version

theorem wellFormed_empty : WellFormed {} where
  repo := by simp
  published := by simp
  applied := by simp
  registry := by simp

theorem terminalKept_called {id : String} {upserts : Bool}
    {r : SimSessions × Option SimConfigEvent × SimSessionResult} (hr : Stores s id upserts r)
    (hok : upserts = false ∨ s.NotTerminal id) : TerminalKept s (s.called r) := by
  intro id' row hrow hterminal
  unfold called
  cases hr with
  | nothing hrepo _ =>
      rw [hrepo]
      exact hrow
  | stored _ hupserts _ hrepo _ =>
      rw [hrepo]
      have hother : id' ≠ id := by
        rintro rfl
        rcases hok with hfails | hlive
        · rw [hfails] at hupserts
          cases hupserts
        · have hfalse := hlive row hrow
          rw [hterminal] at hfalse
          cases hfalse
      dsimp only
      rw [lookup_insert_ne hother]
      exact hrow

theorem terminalKept_step (h : s.WellFormed) (e : SimStep) (hok : s.StepOk e) :
    TerminalKept s (s.step e) := by
  cases e with
  | create env session =>
      by_cases hmode : session.routingMode = .unspecified
      · intro id row hrow _
        simp only [step, create, called, if_pos hmode]
        exact hrow
      · exact terminalKept_called (stores_create s env session hmode) (hok.resolve_left hmode)
  | update env req => exact terminalKept_called (stores_update h env req) hok
  | complete env id => exact terminalKept_called (stores_complete h env id) hok
  | deliver version =>
      intro id row hrow _
      simp only [step]
      cases s.published[version]? with
      | none => exact hrow
      | some evt => exact hrow

theorem registryCurrent_called (h : s.WellFormed) (hcurrent : s.RegistryCurrent)
    (r : SimSessions × Option SimConfigEvent × SimSessionResult) :
    (s.called r).RegistryCurrent := by
  intro id
  unfold called
  dsimp only
  rw [hcurrent id]
  cases happlied : s.applied.lookup id with
  | none => rfl
  | some version =>
      obtain ⟨evt, hevt, _⟩ := h.applied id version happlied
      have hlt := (List.getElem?_eq_some_iff.mp hevt).1
      simp only [bind_some]
      rw [List.getElem?_append_left hlt]

/-- The delivery of an event that is not older than the newest one applied of its session
is the newest one. -/
theorem registryCurrent_deliver (h : s.WellFormed) (hcurrent : s.RegistryCurrent) {version : Nat}
    (hok : s.StepOk (.deliver version)) : (s.step (.deliver version)).RegistryCurrent := by
  simp only [step]
  cases hevt : s.published[version]? with
  | none => exact hcurrent
  | some evt =>
      have hmem : evt ∈ s.published := List.mem_of_getElem? hevt
      obtain ⟨hid, htype⟩ := h.published evt hmem
      intro id
      dsimp only
      rw [lookup_applySimConfigEvent hid htype, lookup_note]
      split
      · have hnewest :
            (s.applied.lookup evt.session.simSessionId).elim version (max version) = version := by
          cases happlied : s.applied.lookup evt.session.simSessionId with
          | none => rfl
          | some newest => exact max_eq_left (hok evt hevt newest happlied)
        rw [hnewest, bind_some, hevt, bind_some]
      · exact hcurrent id

theorem registryCurrent_step (h : s.WellFormed) (hcurrent : s.RegistryCurrent) (e : SimStep)
    (hok : s.StepOk e) : (s.step e).RegistryCurrent := by
  cases e with
  | create env session => exact registryCurrent_called h hcurrent _
  | update env req => exact registryCurrent_called h hcurrent _
  | complete env id => exact registryCurrent_called h hcurrent _
  | deliver version => exact registryCurrent_deliver h hcurrent hok

end SimWorld

namespace SimSessionRegistry

def recency (s : SimSession) : Int ×ₗ Int ×ₗ String :=
  let activatedAt := s.activatedAt.getD { seconds := 0 }
  toLex (activatedAt.seconds, toLex (activatedAt.nanos, s.simSessionId))

theorem moreRecent_iff (a b : SimSession) : moreRecent b a = true ↔ recency a < recency b := by
  unfold moreRecent recency
  rw [Prod.Lex.toLex_lt_toLex, Prod.Lex.toLex_lt_toLex]
  dsimp only
  split
  · rename_i hseconds
    rw [decide_eq_true_iff]
    constructor
    · exact Or.inl
    · rintro (hlt | ⟨heq, _⟩)
      · exact hlt
      · exact absurd heq.symm hseconds
  · rename_i hseconds
    rw [not_not] at hseconds
    split
    · rename_i hnanos
      rw [decide_eq_true_iff]
      constructor
      · intro hlt
        exact Or.inr ⟨hseconds.symm, Or.inl hlt⟩
      · rintro (hlt | ⟨_, hlt | ⟨heq, _⟩⟩)
        · exact absurd hlt (by rw [hseconds]; exact lt_irrefl _)
        · exact hlt
        · exact absurd heq.symm hnanos
    · rename_i hnanos
      rw [not_not] at hnanos
      rw [decide_eq_true_iff]
      constructor
      · intro hlt
        exact Or.inr ⟨hseconds.symm, Or.inr ⟨hnanos.symm, hlt⟩⟩
      · rintro (hlt | ⟨_, hlt | ⟨_, hlt⟩⟩)
        · exact absurd hlt (by rw [hseconds]; exact lt_irrefl _)
        · exact absurd hlt (by rw [hnanos]; exact lt_irrefl _)
        · exact hlt

theorem mem_governing_iff {sessions : SimSessions} {venueId symbol : String} {row : SimSession} :
    row ∈ ((sessions.sorted (· ≤ ·)).map Sigma.snd).filter (governs venueId symbol) ↔
      (∃ id, sessions.lookup id = some row) ∧ governs venueId symbol row = true := by
  rw [List.mem_filter, List.mem_map]
  refine and_congr ⟨?_, ?_⟩ Iff.rfl
  · rintro ⟨entry, hentry, rfl⟩
    exact ⟨entry.1, (mem_sorted _).mp hentry⟩
  · rintro ⟨id, hlookup⟩
    exact ⟨⟨id, row⟩, (mem_sorted _).mpr hlookup, rfl⟩

theorem resolve_eq_of_lookup_eq {sessions sessions' : SimSessions}
    (hids : ∀ id row, sessions.lookup id = some row → row.simSessionId = id)
    (hsame : ∀ id, sessions.lookup id = sessions'.lookup id) (venueId symbol : String) :
    resolve sessions venueId symbol = resolve sessions' venueId symbol := by
  unfold resolve
  refine maxElement_eq_of_mem_iff moreRecent_iff ?_ ?_
  · intro row
    rw [mem_governing_iff, mem_governing_iff]
    simp only [hsame]
  · intro a ha b hb hkey
    obtain ⟨⟨ida, hlookupA⟩, _⟩ := mem_governing_iff.mp ha
    obtain ⟨⟨idb, hlookupB⟩, _⟩ := mem_governing_iff.mp hb
    have hid : a.simSessionId = b.simSessionId := congrArg (fun k => (ofLex (ofLex k).2).2) hkey
    rw [← hids ida a hlookupA, hid, hids idb b hlookupB] at hlookupA
    rw [hlookupA] at hlookupB
    exact some_inj.mp hlookupB

end SimSessionRegistry

open SimWorld

/-- Along every run whose steps meet the condition no terminal session changes and the
registry is current; and two runs that leave the same sessions in the registry leave the
same governing sessions. -/
theorem sessions_run (es : List SimStep) (hok : StepsMeet SimWorld.step SimWorld.StepOk {} es) :
    StepsMeet SimWorld.step
        (fun s e => SimWorld.TerminalKept s (s.step e) ∧ (s.step e).RegistryCurrent) {} es ∧
      ∀ es' : List SimStep,
        (∀ id, (run SimWorld.step {} es).registry.lookup id =
          (run SimWorld.step {} es').registry.lookup id) →
        ∀ venueId symbol,
          SimSessionRegistry.resolve (run SimWorld.step {} es).registry venueId symbol =
            SimSessionRegistry.resolve (run SimWorld.step {} es').registry venueId symbol := by
  constructor
  · have hinit : SimWorld.WellFormed {} ∧ SimWorld.RegistryCurrent {} :=
      ⟨wellFormed_empty, fun id => by simp⟩
    have hstep : ∀ (s : SimWorld) (e : SimStep), s.WellFormed ∧ s.RegistryCurrent →
        s.StepOk e → (s.step e).WellFormed ∧ (s.step e).RegistryCurrent :=
      fun s e h hmeets => ⟨wellFormed_step s e h.1, registryCurrent_step h.1 h.2 e hmeets⟩
    refine (hok.with_invariant hstep hinit).imp ?_
    rintro s e ⟨⟨hwf, hcurrent⟩, hmeets⟩
    exact ⟨terminalKept_step hwf e hmeets, registryCurrent_step hwf hcurrent e hmeets⟩
  · intro es' hsame venueId symbol
    have hwf : (run SimWorld.step {} es).WellFormed :=
      run_preserves SimWorld.WellFormed wellFormed_step wellFormed_empty es
    exact SimSessionRegistry.resolve_eq_of_lookup_eq hwf.registry hsame venueId symbol

/-- A session that is created, activated in the registry and completed. -/
def completedSteps : List SimStep :=
  [.create { now := { seconds := 10 } } { simSessionId := "s1", routingMode := .simOnly },
    .deliver 0, .complete { now := { seconds := 20 } } "s1", .deliver 1]

theorem sessions_completed :
    (run SimWorld.step {} completedSteps).registry.lookup "s1" = none ∧
      StepsMeet SimWorld.step
        (fun s e => SimWorld.TerminalKept s (s.step e) ∧ (s.step e).RegistryCurrent) {}
        completedSteps ∧
      SimSessionRegistry.resolve (run SimWorld.step {} completedSteps).registry "binance" "BTC" =
        SimSessionRegistry.resolve (run SimWorld.step {} []).registry "binance" "BTC" := by
  have hrun := sessions_run completedSteps (by decide)
  refine ⟨by decide, hrun.1, hrun.2 [] ?_ "binance" "BTC"⟩
  intro id
  have hempty : (run SimWorld.step {} completedSteps).registry = ∅ := AList.ext rfl
  rw [hempty]
  rfl

/-- A completed session is activated again, and its first event, delivered late, puts it back
into the registry. -/
theorem completed_session_returns :
    ¬ StepsMeet SimWorld.step (fun s e => SimWorld.TerminalKept s (s.step e)) {}
        (completedSteps ++
          [.update { now := { seconds := 30 } } { simSessionId := "s1", status := .active }]) ∧
      ¬ (run SimWorld.step {} (completedSteps ++ [.deliver 0])).RegistryCurrent ∧
      (SimSessionRegistry.resolve
        (run SimWorld.step {} (completedSteps ++ [.deliver 0])).registry "binance" "BTC").isSome := by
  refine ⟨?_, ?_, by decide⟩
  · intro h
    have hlast := h.suffix.1 "s1" _ rfl (by decide)
    exact absurd hlast (by decide)
  · intro h
    exact absurd (h "s1") (by decide)

end Venues
end ContExchange
