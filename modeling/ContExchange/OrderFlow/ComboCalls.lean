import ContExchange.OrderFlow.ComboRows

/-!
# Order flow: combo creates that run at the same time

`CreateComboOrderUseCase::Execute` serves several calls at once.  A call takes four steps
that others may come between: the locked lookup of its client id, the insert of the rows,
the publication of the legs, and the locked record of its client id.  The checks between
the lookup and the insert read nothing that the calls share.

* A call that runs without others between its steps is `executeCombo`
  (`run_alone`).
* `OnePerClientId` says that a user's client id stands for one combo.
* It holds in every state of a run exactly when every step of it meets `StepOk`
  (`onePerClientId_iff`): a lookup finds a combo of the same user, and no call of the same
  user and client id has inserted a combo when another one inserts.  The code ensures
  neither: the key is the client's text alone, and the record comes long after the lookup.
* What the calls leave in the tables and publish is the same as one after the other
  (`run_serial`).
-/

namespace ContExchange
namespace OrderFlow

open Common Lib AList List CreateComboOrderResponse Function
open Matching (OrderEvent)
open Ledger (LedgerError)

/-- How far a call of `Execute` has come. -/
inductive CallPhase where
  | ready
  | missed
  | inserted (combo : ComboOrder)
  | published (combo : ComboOrder)
  | answered (response : Option CreateComboOrderResponse)

/-- The calls of a service: their requests, and what each depends on beside the shared state.
The combo ids that `uuid_v4` draws are all different. -/
structure ComboCalls (ι : Type) where
  env : ι → ComboEnv
  req : ι → CreateComboOrderRequest
  ids_distinct : Function.Injective (fun i => (env i).ids.combo)

/-- The shared state, the phases of the calls, and a log of the calls that inserted a combo and
of those that published its legs. -/
structure CallsState (ι : Type) where
  service : ComboService
  phase : ι → CallPhase
  inserted : List ι := []
  published : List (ι × List OrderEvent) := []

/-- The first check that rejects a combo: its own, the policy's, the group risk's. -/
def refusal (env : ComboEnv) (combo : ComboOrder) : Option LedgerError :=
  match combo.validate with
  | some err => some { code := err.code, message := err.message }
  | none =>
      match env.policy.checkCreate combo with
      | some err => some { code := err.code, message := err.message }
      | none =>
          match env.riskReject combo with
          | some reason =>
              some
                { code := "RISK_REJECTED"
                  message := if reason = "" then "grouped pre-trade risk rejected" else reason }
          | none => none

namespace ComboCalls

variable {ι : Type}

section Step

variable (c : ComboCalls ι)

def combo (i : ι) : ComboOrder :=
  buildDomain (c.env i).ids (c.req i)

/-- The locked lookup, which is left out without a client id. -/
def lookup (s : CallsState ι) (i : ι) : Option String :=
  if (c.req i).clientComboId = "" then none
  else s.service.idempotency.lookup (c.req i).clientComboId

/-- `InsertComboOrder`; `none` when it throws. -/
def insert (s : CallsState ι) (i : ι) : Option ComboTables :=
  if (c.env i).databaseUp then insertComboOrder (c.combo i) s.service.tables else none

def acceptance (i : ι) (comboId : String) (legOrderIds : List String) :
    CreateComboOrderResponse :=
  CreateComboOrderResponse.setGuarantees { accepted := true, comboId, legOrderIds } (c.req i)

variable [DecidableEq ι]

def step (s : CallsState ι) (i : ι) : CallsState ι :=
  match s.phase i with
  | .ready =>
      match c.lookup s i with
      | some comboId =>
          { s with
            phase := Function.update s.phase i (.answered (some (c.acceptance i comboId []))) }
      | none => { s with phase := Function.update s.phase i .missed }
  | .missed =>
      match refusal (c.env i) (c.combo i) with
      | some err =>
          { s with
            phase := Function.update s.phase i
              (.answered (some { accepted := false, rejected := true, error := some err })) }
      | none =>
          match c.insert s i with
          | none => { s with phase := Function.update s.phase i (.answered none) }
          | some tables =>
              { s with
                service := { s.service with tables := tables }
                phase := Function.update s.phase i (.inserted (c.combo i))
                inserted := s.inserted ++ [i] }
  | .inserted combo =>
      { s with
        phase := Function.update s.phase i (.published combo)
        published :=
          if combo.executionMode = .orchestrationOnly then
            s.published ++ [(i, (publishOrchestration combo (c.req i).userId).getD [])]
          else s.published }
  | .published combo =>
      { s with
        service :=
          { s.service with
            idempotency :=
              if (c.req i).clientComboId = "" then s.service.idempotency
              else s.service.idempotency.insert (c.req i).clientComboId combo.comboOrderId }
        phase := Function.update s.phase i
          (.answered (some
            (c.acceptance i combo.comboOrderId (combo.legs.map Leg.legId)))) }
  | .answered _ => s

/-- The state when the service starts: no client id is recorded. -/
def start (tables : ComboTables) : CallsState ι where
  service := { tables }
  phase := fun _ => .ready

end Step

section Cases

variable [DecidableEq ι] {c : ComboCalls ι} {s : CallsState ι} {i : ι}

/-- The ways a call goes on, with the state it goes on to. -/
inductive Advances (c : ComboCalls ι) (s : CallsState ι) (i : ι) : CallsState ι → Prop where
  | hit (comboId : String) (hphase : s.phase i = .ready)
      (hclient : (c.req i).clientComboId ≠ "")
      (hlookup : s.service.idempotency.lookup (c.req i).clientComboId = some comboId) :
      Advances c s i
        { s with
          phase := Function.update s.phase i (.answered (some (c.acceptance i comboId []))) }
  | miss (hphase : s.phase i = .ready)
      (hlookup : (c.req i).clientComboId ≠ "" →
        s.service.idempotency.lookup (c.req i).clientComboId = none) :
      Advances c s i { s with phase := Function.update s.phase i .missed }
  | refuse (response : Option CreateComboOrderResponse) (hphase : s.phase i = .missed)
      (hresponse : ∀ r, response = some r → r.accepted = false)
      (hplaces : refusal (c.env i) (c.combo i) = none → c.insert s i = none) :
      Advances c s i { s with phase := Function.update s.phase i (.answered response) }
  | insert (tables : ComboTables) (hphase : s.phase i = .missed)
      (hpasses : refusal (c.env i) (c.combo i) = none)
      (hrows : c.insert s i = some tables) :
      Advances c s i
        { s with
          service := { s.service with tables := tables }
          phase := Function.update s.phase i (.inserted (c.combo i))
          inserted := s.inserted ++ [i] }
  | publish (combo : ComboOrder) (events : List (ι × List OrderEvent))
      (hphase : s.phase i = .inserted combo)
      (hevents : events = [] ∨ ∃ es, events = [(i, es)]) :
      Advances c s i
        { s with
          phase := Function.update s.phase i (.published combo)
          published := s.published ++ events }
  | record (combo : ComboOrder) (idempotency : Table String String)
      (hphase : s.phase i = .published combo)
      (hidempotency : ∀ clientId comboId, idempotency.lookup clientId = some comboId →
        s.service.idempotency.lookup clientId = some comboId
          ∨ clientId = (c.req i).clientComboId ∧ comboId = combo.comboOrderId) :
      Advances c s i
        { s with
          service := { s.service with idempotency := idempotency }
          phase := Function.update s.phase i
            (.answered (some
              (c.acceptance i combo.comboOrderId (combo.legs.map Leg.legId)))) }
  | stay (response : Option CreateComboOrderResponse) (hphase : s.phase i = .answered response) :
      Advances c s i s

theorem advances_step (c : ComboCalls ι) (s : CallsState ι) (i : ι) :
    Advances c s i (c.step s i) := by
  unfold step
  cases hphase : s.phase i with
  | ready =>
      dsimp only
      cases hlookup : c.lookup s i with
      | none =>
          unfold lookup at hlookup
          refine .miss hphase (fun hclient => ?_)
          rwa [if_neg hclient] at hlookup
      | some comboId =>
          unfold lookup at hlookup
          split at hlookup
          · cases hlookup
          · rename_i hclient
            exact .hit comboId hphase hclient hlookup
  | missed =>
      dsimp only
      cases hrefusal : refusal (c.env i) (c.combo i) with
      | some err =>
          refine .refuse _ hphase ?_ (fun h => absurd (hrefusal.symm.trans h) (by simp))
          intro r hr
          cases hr
          rfl
      | none =>
          dsimp only
          cases hrows : c.insert s i with
          | none => exact .refuse none hphase (fun r hr => nomatch hr) (fun _ => hrows)
          | some tables => exact .insert tables hphase hrefusal hrows
  | inserted combo =>
      dsimp only
      by_cases hmode : combo.executionMode = .orchestrationOnly
      · rw [if_pos hmode]
        exact .publish combo _ hphase (.inr ⟨_, rfl⟩)
      · rw [if_neg hmode]
        have h := Advances.publish (c := c) combo [] hphase (.inl rfl)
        rw [append_nil] at h
        exact h
  | published combo =>
      refine .record combo _ hphase ?_
      intro clientId comboId hlookup
      by_cases hclient : (c.req i).clientComboId = ""
      · rw [if_pos hclient] at hlookup
        exact .inl hlookup
      · rw [if_neg hclient] at hlookup
        by_cases hkey : clientId = (c.req i).clientComboId
        · rw [hkey, lookup_insert] at hlookup
          exact .inr ⟨hkey, (Option.some.inj hlookup).symm⟩
        · rw [lookup_insert_ne hkey] at hlookup
          exact .inl hlookup
  | answered response => exact .stay response hphase

end Cases

section Property

variable (c : ComboCalls ι)

def comboId (i : ι) : String :=
  (c.env i).ids.combo

/-- The call is one of the user with the client id. -/
def ofPair (user clientId : String) (i : ι) : Bool :=
  decide ((c.req i).userId = user ∧ (c.req i).clientComboId = clientId)

/-- Two calls of one user with one client id. -/
def SamePair (i j : ι) : Prop :=
  (c.req j).userId = (c.req i).userId ∧ (c.req j).clientComboId = (c.req i).clientComboId
deriving Decidable

structure OnePerClientId (s : CallsState ι) : Prop where
  inserted_once : ∀ user clientId, clientId ≠ "" →
    s.inserted.countP (c.ofPair user clientId) ≤ 1
  published_once : ∀ user clientId, clientId ≠ "" →
    (s.published.map Prod.fst).countP (c.ofPair user clientId) ≤ 1
  answers : ∀ i response, s.phase i = .answered (some response) → response.accepted = true →
    ∃ j ∈ s.inserted, response.comboId = c.comboId j ∧ c.SamePair i j
  own : ∀ i response, s.phase i = .answered (some response) → response.accepted = true →
    ∀ j ∈ s.inserted, c.comboId j = response.comboId → (c.req j).userId = (c.req i).userId

/-- What a step has to meet: a lookup finds a combo that a call of the same user inserted; when a
call inserts its combo, no other call of the same user and client id has done so. -/
def StepOk (s : CallsState ι) (i : ι) : Prop :=
  (c.req i).clientComboId ≠ "" →
    match s.phase i with
    | .ready =>
        ∀ comboId, s.service.idempotency.lookup (c.req i).clientComboId = some comboId →
          ∃ j ∈ s.inserted, c.comboId j = comboId ∧ (c.req j).userId = (c.req i).userId
    | .missed =>
        refusal (c.env i) (c.combo i) = none → c.insert s i ≠ none →
          ∀ j ∈ s.inserted, ¬ c.SamePair i j
    | _ => True

/-- What the phase of a call says about the logs. -/
def PhaseFits (inserted published : List ι) (i : ι) : CallPhase → Prop
  | .ready => i ∉ inserted
  | .missed => i ∉ inserted
  | .inserted combo => i ∈ inserted ∧ combo.comboOrderId = c.comboId i ∧ i ∉ published
  | .published combo => i ∈ inserted ∧ combo.comboOrderId = c.comboId i
  | .answered _ => True

/-- What holds of the calls in every run. -/
structure Consistent (s : CallsState ι) : Prop where
  inserted_nodup : s.inserted.Nodup
  published_nodup : (s.published.map Prod.fst).Nodup
  published_sub : s.published.map Prod.fst ⊆ s.inserted
  phases : ∀ i, c.PhaseFits s.inserted (s.published.map Prod.fst) i (s.phase i)
  recorded : ∀ clientId comboId, s.service.idempotency.lookup clientId = some comboId →
    ∃ j ∈ s.inserted, c.comboId j = comboId ∧ (c.req j).clientComboId = clientId

end Property

section Invariant

variable {c : ComboCalls ι}

theorem consistent_start (c : ComboCalls ι) (tables : ComboTables) :
    c.Consistent (start tables) where
  inserted_nodup := nodup_nil
  published_nodup := nodup_nil
  published_sub := List.Subset.refl []
  phases := fun _ => not_mem_nil
  recorded := fun _ _ h => nomatch h

variable {p : CallPhase}

theorem PhaseFits.of_others {inserted inserted' published published' : List ι} {j : ι}
    (h : c.PhaseFits inserted published j p) (hinserted : j ∈ inserted' ↔ j ∈ inserted)
    (hpublished : j ∈ published' ↔ j ∈ published) : c.PhaseFits inserted' published' j p := by
  cases p with
  | ready => exact fun hj => h (hinserted.mp hj)
  | missed => exact fun hj => h (hinserted.mp hj)
  | inserted combo =>
      exact ⟨hinserted.mpr h.1, h.2.1, fun hj => h.2.2 (hpublished.mp hj)⟩
  | published combo => exact ⟨hinserted.mpr h.1, h.2⟩
  | answered response => trivial

@[simp] theorem acceptance_accepted (c : ComboCalls ι) (i : ι) (id : String) (legs : List String) :
    (c.acceptance i id legs).accepted = true := by
  unfold acceptance setGuarantees
  split_ifs <;> rfl

@[simp] theorem acceptance_comboId (c : ComboCalls ι) (i : ι) (id : String) (legs : List String) :
    (c.acceptance i id legs).comboId = id := by
  unfold acceptance setGuarantees
  split_ifs <;> rfl

/-- An accepted answer is about an inserted combo of the same user and client id. -/
def Answers (c : ComboCalls ι) (inserted : List ι) (i : ι) (p : CallPhase) : Prop :=
  ∀ response, p = .answered (some response) → response.accepted = true →
    ∃ j ∈ inserted, response.comboId = c.comboId j ∧ c.SamePair i j

theorem Consistent.onePerClientId {s : CallsState ι} (h : c.Consistent s)
    (hinserted : ∀ user clientId, clientId ≠ "" → s.inserted.countP (c.ofPair user clientId) ≤ 1)
    (hanswers : ∀ i, c.Answers s.inserted i (s.phase i)) :
    c.OnePerClientId s where
  inserted_once := hinserted
  published_once := by
    intro user clientId hclient
    have hsubperm : (s.published.map Prod.fst).Subperm s.inserted :=
      subperm_of_subset h.published_nodup h.published_sub
    exact (hsubperm.countP_le _).trans (hinserted user clientId hclient)
  answers := hanswers
  own := by
    intro i response hphase haccepted j hj hid
    obtain ⟨k, hk, hcombo, huser, -⟩ := hanswers i response hphase haccepted
    have hjk : j = k := c.ids_distinct (hid.trans hcombo)
    rw [hjk]
    exact huser

variable {i : ι}

theorem countP_append_le_one {inserted : List ι}
    (h : ∀ user clientId, clientId ≠ "" → inserted.countP (c.ofPair user clientId) ≤ 1)
    (hnew : (c.req i).clientComboId ≠ "" → ∀ j ∈ inserted, ¬ c.SamePair i j) :
    ∀ user clientId, clientId ≠ "" → (inserted ++ [i]).countP (c.ofPair user clientId) ≤ 1 := by
  intro user clientId hclient
  rw [countP_append, countP_singleton]
  by_cases hpair : c.ofPair user clientId i = true
  · obtain ⟨rfl, rfl⟩ := of_decide_eq_true hpair
    have hnone : inserted.countP (c.ofPair (c.req i).userId (c.req i).clientComboId) = 0 := by
      rw [countP_eq_zero]
      exact fun j hj hsame => hnew hclient j hj (of_decide_eq_true hsame)
    rw [hnone, if_pos hpair]
  · rw [if_neg hpair, Nat.add_zero]
    exact h user clientId hclient

theorem not_samePair_of_count {inserted : List ι} {i j : ι}
    (h : (inserted ++ [i]).countP (c.ofPair (c.req i).userId (c.req i).clientComboId) ≤ 1)
    (hj : j ∈ inserted) : ¬ c.SamePair i j := by
  intro hsame
  have hi : c.ofPair (c.req i).userId (c.req i).clientComboId i = true := by
    simp [ofPair]
  have hone : 0 < inserted.countP (c.ofPair (c.req i).userId (c.req i).clientComboId) :=
    countP_pos_iff.mpr ⟨j, hj, decide_eq_true hsame⟩
  rw [countP_append, countP_singleton, if_pos hi] at h
  omega

theorem onePerClientId_start (c : ComboCalls ι) (tables : ComboTables) :
    c.OnePerClientId (start tables) :=
  (consistent_start c tables).onePerClientId (fun _ _ _ => Nat.zero_le 1) (fun _ _ h => nomatch h)

variable [DecidableEq ι]

theorem phases_update {phase : ι → CallPhase} {inserted inserted' published published' : List ι}
    (h : ∀ j, c.PhaseFits inserted published j (phase j))
    (hi : c.PhaseFits inserted' published' i p)
    (hinserted : ∀ j, j ≠ i → (j ∈ inserted' ↔ j ∈ inserted))
    (hpublished : ∀ j, j ≠ i → (j ∈ published' ↔ j ∈ published)) :
    ∀ j, c.PhaseFits inserted' published' j (Function.update phase i p j) := by
  intro j
  by_cases hj : j = i
  · subst hj
    rw [update_self]
    exact hi
  · rw [update_of_ne hj]
    exact (h j).of_others (hinserted j hj) (hpublished j hj)

theorem Consistent.advance {s s' : CallsState ι} (h : c.Consistent s)
    (hadvances : Advances c s i s') : c.Consistent s' := by
  have hi := h.phases i
  have henter : ∀ p : CallPhase,
      c.PhaseFits s.inserted (s.published.map Prod.fst) i p →
      c.Consistent { s with phase := Function.update s.phase i p } := by
    intro p hp
    exact { h with phases := phases_update h.phases hp (fun _ _ => Iff.rfl) (fun _ _ => Iff.rfl) }
  cases hadvances with
  | hit comboId hphase hclient hlookup => exact henter _ trivial
  | miss hphase hlookup =>
      rw [hphase] at hi
      exact henter _ hi
  | refuse response hphase hresponse hplaces => exact henter _ trivial
  | insert tables hphase hpasses hrows =>
      rw [hphase] at hi
      have hnew : i ∉ s.published.map Prod.fst := fun hmem => hi (h.published_sub hmem)
      have hsub : s.inserted ⊆ s.inserted ++ [i] := subset_append_left _ _
      exact
        { inserted_nodup := by
            rw [nodup_append_comm]
            exact nodup_cons.mpr ⟨hi, h.inserted_nodup⟩
          published_nodup := h.published_nodup
          published_sub := fun j hj => hsub (h.published_sub hj)
          phases := by
            refine phases_update h.phases ⟨by simp, rfl, hnew⟩ ?_ (fun _ _ => Iff.rfl)
            intro j hj
            simp [hj]
          recorded := by
            intro clientId comboId hlookup
            obtain ⟨j, hj, hrest⟩ := h.recorded clientId comboId hlookup
            exact ⟨j, hsub hj, hrest⟩ }
  | publish combo events hphase hevents =>
      rw [hphase] at hi
      obtain ⟨hmem, hid, hnew⟩ := hi
      refine
        { inserted_nodup := h.inserted_nodup
          published_nodup := ?_
          published_sub := ?_
          phases := ?_
          recorded := h.recorded }
      · rw [map_append]
        rcases hevents with rfl | ⟨es, rfl⟩
        · rw [map_nil, append_nil]
          exact h.published_nodup
        · rw [nodup_append_comm]
          exact nodup_cons.mpr ⟨hnew, h.published_nodup⟩
      · rw [map_append]
        refine append_subset.mpr ⟨h.published_sub, ?_⟩
        rcases hevents with rfl | ⟨es, rfl⟩
        · exact nil_subset _
        · exact cons_subset.mpr ⟨hmem, nil_subset _⟩
      · refine phases_update h.phases ⟨hmem, hid⟩ (fun _ _ => Iff.rfl) ?_
        intro j hj
        rcases hevents with rfl | ⟨es, rfl⟩
        · simp
        · simp [hj]
  | record combo idempotency hphase hidempotency =>
      rw [hphase] at hi
      obtain ⟨hmem, hid⟩ := hi
      exact
        { h with
          phases := phases_update h.phases trivial (fun _ _ => Iff.rfl) (fun _ _ => Iff.rfl)
          recorded := by
            intro clientId comboId hlookup
            rcases hidempotency clientId comboId hlookup with hold | ⟨rfl, rfl⟩
            · exact h.recorded clientId comboId hold
            · exact ⟨i, hmem, hid.symm, rfl⟩ }
  | stay response hphase => exact h

theorem answers_update {phase : ι → CallPhase} {inserted inserted' : List ι}
    (h : ∀ j, c.Answers inserted j (phase j)) (hi : c.Answers inserted' i p)
    (hsub : inserted ⊆ inserted') : ∀ j, c.Answers inserted' j (Function.update phase i p j) := by
  intro j
  by_cases hj : j = i
  · subst hj
    rw [update_self]
    exact hi
  · rw [update_of_ne hj]
    intro response hresponse haccepted
    obtain ⟨k, hk, hrest⟩ := h j response hresponse haccepted
    exact ⟨k, hsub hk, hrest⟩

theorem onePerClientId_advance_iff {s s' : CallsState ι} (hc : c.Consistent s)
    (hs : c.OnePerClientId s) (hadvances : Advances c s i s') :
    c.OnePerClientId s' ↔ c.StepOk s i := by
  have hc' : c.Consistent s' := hc.advance hadvances
  have hrest : ∀ p : CallPhase, c.Answers s.inserted i p →
      ∀ j, c.Answers s.inserted j (Function.update s.phase i p j) :=
    fun p hp => answers_update hs.answers hp (List.Subset.refl _)
  unfold StepOk
  cases hadvances with
  | hit comboId hphase hclient hlookup =>
      rw [hphase]
      constructor
      · intro h _ id hid
        obtain rfl : comboId = id := Option.some.inj (hlookup.symm.trans hid)
        obtain ⟨j, hj, hcombo, huser, -⟩ := h.answers i (c.acceptance i comboId [])
          (update_self _ _ _) (acceptance_accepted c i comboId [])
        rw [acceptance_comboId] at hcombo
        exact ⟨j, hj, hcombo.symm, huser⟩
      · intro hok
        obtain ⟨j, hj, hid, huser⟩ := hok hclient comboId hlookup
        obtain ⟨k, hk, hid', hclient'⟩ := hc.recorded _ comboId hlookup
        have hjk : j = k := c.ids_distinct (hid.trans hid'.symm)
        subst hjk
        refine hc'.onePerClientId hs.inserted_once (hrest _ ?_)
        intro response hresponse _
        cases hresponse
        exact ⟨j, hj, by rw [acceptance_comboId, hid], huser, hclient'⟩
  | miss hphase hlookup =>
      rw [hphase]
      constructor
      · intro _ hclient comboId hid
        exact absurd ((hlookup hclient).symm.trans hid) (by simp)
      · intro _
        exact hc'.onePerClientId hs.inserted_once (hrest _ (fun _ h => nomatch h))
  | refuse response hphase hresponse hplaces =>
      rw [hphase]
      constructor
      · intro _ _ hpasses hrows
        exact absurd (hplaces hpasses) hrows
      · intro _
        refine hc'.onePerClientId hs.inserted_once (hrest _ ?_)
        intro r hr haccepted
        cases hr
        exact absurd ((hresponse r rfl).symm.trans haccepted) (by simp)
  | insert tables hphase hpasses hrows =>
      rw [hphase]
      constructor
      · intro h hclient _ _ j hj
        exact not_samePair_of_count (h.inserted_once _ _ hclient) hj
      · intro hok
        have hnew := fun hclient => hok hclient hpasses (by rw [hrows]; exact Option.some_ne_none _)
        refine hc'.onePerClientId (countP_append_le_one hs.inserted_once hnew) ?_
        exact answers_update hs.answers (fun _ h => nomatch h) (subset_append_left _ _)
  | publish combo events hphase hevents =>
      rw [hphase]
      refine iff_of_true ?_ (fun _ => trivial)
      exact hc'.onePerClientId hs.inserted_once (hrest _ (fun _ h => nomatch h))
  | record combo idempotency hphase hidempotency =>
      have hi := hc.phases i
      rw [hphase] at hi ⊢
      refine iff_of_true ?_ (fun _ => trivial)
      refine hc'.onePerClientId hs.inserted_once (hrest _ ?_)
      intro response hresponse _
      cases hresponse
      exact ⟨i, hi.1, by rw [acceptance_comboId, hi.2], rfl, rfl⟩
  | stay response hphase =>
      rw [hphase]
      exact iff_of_true hs (fun _ => trivial)

/-- A user's client id stands for one combo in every state of a run exactly when every lookup
finds a combo of the same user, and no call of the same user and client id has inserted a combo
when another one does. -/
theorem onePerClientId_iff (c : ComboCalls ι) (tables : ComboTables) (calls : List ι) :
    StepsMeet c.step (fun s i => c.OnePerClientId (c.step s i)) (start tables) calls
      ↔ StepsMeet c.step c.StepOk (start tables) calls := by
  refine stepsMeet_iff ?_ ?_ (consistent_start c tables) (onePerClientId_start c tables)
  · intro s i h
    exact h.advance (advances_step c s i)
  · intro s i hc hs
    exact onePerClientId_advance_iff hc hs (advances_step c s i)

end Invariant

section Serial

variable [DecidableEq ι] (c : ComboCalls ι)

/-- How often a call is in the log of the inserts, and what it has published. -/
def Left (s : CallsState ι) (i : ι) (inserts : Nat) (events : List (List OrderEvent)) : Prop :=
  s.inserted.count i = inserts ∧ (s.published.filter (·.1 = i)).map Prod.snd = events

/-- The events of a call's legs, which only the orchestration mode publishes. -/
def legEvents (i : ι) : List (List OrderEvent) :=
  if (c.combo i).executionMode = .orchestrationOnly then
    [(publishOrchestration (c.combo i) (c.req i).userId).getD []]
  else []

/-- What a call has left in the logs, and the combo that an accepted answer names: its own, or
one that a call with the same client id has inserted. -/
def Leaves (s : CallsState ι) (i : ι) : CallPhase → Prop
  | .ready | .missed | .answered none => Left s i 0 []
  | .inserted combo => combo = c.combo i ∧ Left s i 1 []
  | .published combo => combo = c.combo i ∧ Left s i 1 (c.legEvents i)
  | .answered (some response) =>
      if response.accepted then
        Left s i 1 (c.legEvents i) ∧ response.comboId = c.comboId i ∨
          Left s i 0 [] ∧ ∃ j ∈ s.inserted, response.comboId = c.comboId j ∧
            (c.req j).clientComboId = (c.req i).clientComboId
      else Left s i 0 [] ∧ response.error = refusal (c.env i) (c.combo i)

/-- The rows are those of the calls that inserted, one after the other. -/
structure Serial (tables : ComboTables) (s : CallsState ι) : Prop where
  rows : s.inserted.foldlM (fun tables i => insertComboOrder (c.combo i) tables) tables =
    some s.service.tables
  calls : ∀ i, c.Leaves s i (s.phase i)
  recorded : ∀ clientId comboId, s.service.idempotency.lookup clientId = some comboId →
    ∃ j ∈ s.inserted, c.comboId j = comboId ∧ (c.req j).clientComboId = clientId

variable {c} {tables : ComboTables} {s s' : CallsState ι} {i : ι}

/-- The steps of others take nothing back. -/
theorem Leaves.of_others {p : CallPhase} (h : c.Leaves s i p) (hsub : s.inserted ⊆ s'.inserted)
    (hleft : ∀ {inserts events}, Left s i inserts events → Left s' i inserts events) :
    c.Leaves s' i p := by
  match p, h with
  | .ready, h | .missed, h | .answered none, h => exact hleft h
  | .inserted _, ⟨hcombo, h⟩ | .published _, ⟨hcombo, h⟩ => exact ⟨hcombo, hleft h⟩
  | .answered (some response), h =>
      rw [Leaves] at h ⊢
      split_ifs at h ⊢
      · refine h.imp (And.imp_left hleft) fun ⟨h, j, hj, hanswer⟩ => ?_
        exact ⟨hleft h, j, hsub hj, hanswer⟩
      · exact ⟨hleft h.1, h.2⟩

/-- A call's own step, which adds to the logs under its own name only. -/
theorem leaves_update {p : CallPhase} (inserted : List ι) (events : List (List OrderEvent))
    (h : ∀ j, c.Leaves s j (s.phase j)) (hinserted : ∀ j ∈ inserted, j = i)
    (hservice : s'.phase = Function.update s.phase i p)
    (hlog : s'.inserted = s.inserted ++ inserted)
    (hevents : s'.published = s.published ++ events.map (i, ·)) (hi : c.Leaves s' i p) :
    ∀ j, c.Leaves s' j (s'.phase j) := by
  intro j
  rw [hservice]
  by_cases hj : j = i
  · subst hj
    rwa [update_self]
  · rw [update_of_ne hj]
    refine (h j).of_others (hlog ▸ List.subset_append_left _ _) fun hleft => ?_
    have hcount : inserted.count j = 0 :=
      List.count_eq_zero.mpr fun hmem => hj (hinserted j hmem)
    have hnone : (events.map ((i, ·) : _ → ι × List OrderEvent)).filter (·.1 = j) = [] := by
      rw [List.filter_eq_nil_iff]
      intro e he
      obtain ⟨es, -, rfl⟩ := List.mem_map.mp he
      simpa using Ne.symm hj
    rw [Left, hlog, hevents, List.count_append, hcount, List.filter_append, hnone, List.append_nil]
    exact hleft

theorem Serial.step (h : c.Serial tables s) (i : ι) : c.Serial tables (c.step s i) := by
  have hi := h.calls i
  -- a step that leaves the logs alone
  have hmove : ∀ p, c.Leaves s i p →
      c.Serial tables { s with phase := Function.update s.phase i p } := fun p hp =>
    ⟨h.rows, leaves_update [] [] h.calls nofun rfl
      (List.append_nil _).symm (List.append_nil _).symm hp, h.recorded⟩
  unfold ComboCalls.step
  cases hphase : s.phase i with
  | ready =>
      rw [hphase] at hi
      dsimp only
      cases hlookup : c.lookup s i with
      | none => exact hmove _ hi
      | some comboId =>
          refine hmove _ ?_
          unfold lookup at hlookup
          split at hlookup
          · cases hlookup
          · obtain ⟨j, hj, hid, hclient⟩ := h.recorded _ _ hlookup
            rw [Leaves, acceptance_accepted, if_pos rfl, acceptance_comboId]
            exact .inr ⟨hi, j, hj, hid.symm, hclient⟩
  | missed =>
      rw [hphase] at hi
      dsimp only
      cases hrefusal : refusal (c.env i) (c.combo i) with
      | some err => exact hmove _ ⟨hi, hrefusal.symm⟩
      | none =>
          dsimp only
          cases hrows : c.insert s i with
          | none => exact hmove _ hi
          | some tables' =>
              have hinsert : insertComboOrder (c.combo i) s.service.tables = some tables' := by
                unfold insert at hrows
                split at hrows
                · exact hrows
                · cases hrows
              refine ⟨?_, leaves_update [i] [] h.calls
                (fun j hj => List.mem_singleton.mp hj) rfl rfl (List.append_nil _).symm
                ⟨rfl, ?_, hi.2⟩, fun clientId comboId hlookup => ?_⟩
              · rw [List.foldlM_append, h.rows]
                simpa using hinsert
              · rw [List.count_append, hi.1, List.count_singleton_self]
              · obtain ⟨j, hj, hrest⟩ := h.recorded clientId comboId hlookup
                exact ⟨j, List.mem_append_left _ hj, hrest⟩
  | inserted combo =>
      rw [hphase] at hi
      obtain ⟨rfl, hcount, hnone⟩ := hi
      refine ⟨h.rows, leaves_update [] (c.legEvents i) h.calls nofun rfl
        (List.append_nil _).symm ?_ ⟨rfl, hcount, ?_⟩, h.recorded⟩
      all_goals unfold legEvents; dsimp only; split_ifs
      · rfl
      · exact (List.append_nil _).symm
      · rw [List.filter_append, List.map_append, hnone]
        simp
      · exact hnone
  | published combo =>
      rw [hphase] at hi
      obtain ⟨rfl, hleft⟩ := hi
      have hmem : i ∈ s.inserted := List.count_pos_iff.mp (hleft.1.symm ▸ Nat.one_pos)
      refine ⟨h.rows, leaves_update [] [] h.calls nofun rfl
        (List.append_nil _).symm (List.append_nil _).symm ?_, fun clientId comboId hlookup => ?_⟩
      · rw [Leaves, acceptance_accepted, if_pos rfl, acceptance_comboId]
        exact .inl ⟨hleft, rfl⟩
      · dsimp only at hlookup
        split_ifs at hlookup with hclient
        · exact h.recorded clientId comboId hlookup
        · by_cases hkey : clientId = (c.req i).clientComboId
          · rw [hkey, AList.lookup_insert] at hlookup
            exact ⟨i, hmem, Option.some.inj hlookup, hkey.symm⟩
          · rw [AList.lookup_insert_ne hkey] at hlookup
            exact h.recorded clientId comboId hlookup
  | answered response => exact h

/-- In every order of the steps a call inserts its rows and publishes its legs once or not at all,
and the rows are those of the calls one after the other. -/
theorem run_serial (c : ComboCalls ι) (tables : ComboTables) (calls : List ι) :
    c.Serial tables (run c.step (start tables) calls) := by
  refine run_preserves (c.Serial tables) (fun s i h => h.step i) ?_ calls
  exact ⟨rfl, fun _ => ⟨rfl, rfl⟩, fun _ _ hlookup => nomatch hlookup⟩

end Serial

section Alone

variable [DecidableEq ι]

theorem executeCombo_of_miss
    {env : ComboEnv} {s : ComboService} {req : CreateComboOrderRequest}
    (hmiss : (if req.clientComboId = "" then none
      else s.idempotency.lookup req.clientComboId) = none) :
    executeCombo env s req =
      match refusal env (buildDomain env.ids req) with
      | some err => refuseCombo s err.code err.message
      | none => placeCombo env s req (buildDomain env.ids req) := by
  unfold executeCombo refusal
  rw [hmiss]
  dsimp only
  cases hvalid : (buildDomain env.ids req).validate with
  | some err => rfl
  | none =>
      dsimp only
      cases hpolicy : env.policy.checkCreate (buildDomain env.ids req) with
      | some err => rfl
      | none =>
          dsimp only
          cases hrisk : env.riskReject (buildDomain env.ids req) with
          | some reason => rfl
          | none => rfl

theorem run_alone (c : ComboCalls ι) (s : CallsState ι) (i : ι) (hready : s.phase i = .ready) :
    let answer := executeCombo (c.env i) s.service (c.req i)
    let s' := run c.step s [i, i, i, i]
    s'.service = answer.state ∧ s'.phase i = .answered answer.response
      ∧ (s'.published.map Prod.snd).flatten
          = (s.published.map Prod.snd).flatten ++ answer.published := by
  intro answer s'
  have hlook : c.lookup s i
      = if (c.req i).clientComboId = "" then none
        else s.service.idempotency.lookup (c.req i).clientComboId := rfl
  simp only [answer, s', run_cons, run_nil]
  cases hlookup : c.lookup s i with
  | some comboId =>
      unfold executeCombo
      rw [← hlook]
      simp only [step, hready, hlookup, update_self]
      exact ⟨trivial, rfl, (append_nil _).symm⟩
  | none =>
      rw [executeCombo_of_miss (hlook.symm.trans hlookup)]
      cases hrefusal : refusal (c.env i) (c.combo i) with
      | some err =>
          have hrefusal' := hrefusal
          unfold combo at hrefusal'
          simp only [step, hready, hlookup, hrefusal, hrefusal', update_self]
          exact ⟨rfl, rfl, (append_nil _).symm⟩
      | none =>
          have hrefusal' := hrefusal
          unfold combo at hrefusal'
          have hinsert : c.insert s i
              = if (c.env i).databaseUp then
                  insertComboOrder (buildDomain (c.env i).ids (c.req i)) s.service.tables
                else none := rfl
          rw [hrefusal']
          unfold placeCombo
          cases hrows : c.insert s i with
          | none =>
              rw [← hinsert, hrows]
              have hrows' : ∀ phase, c.insert { s with phase := phase } i = none := fun _ => hrows
              simp only [step, hready, hlookup, hrefusal, hrows', update_self]
              exact ⟨trivial, trivial, (append_nil _).symm⟩
          | some tables =>
              rw [← hinsert, hrows]
              have hrows' : ∀ phase, c.insert { s with phase := phase } i = some tables :=
                fun _ => hrows
              simp only [step, hready, hlookup, hrefusal, hrows', update_self]
              refine ⟨rfl, rfl, ?_⟩
              by_cases hmode : (c.combo i).executionMode = .orchestrationOnly
              · have hmode' : (buildDomain (c.env i).ids (c.req i)).executionMode
                    = .orchestrationOnly := hmode
                rw [if_pos hmode, if_pos hmode', map_append, flatten_append]
                simp [combo]
              · have hmode' : (buildDomain (c.env i).ids (c.req i)).executionMode
                    ≠ .orchestrationOnly := hmode
                rw [if_neg hmode, if_neg hmode', append_nil]

end Alone

def quotedLeg (symbol : String) (side : Common.Side) : ProtoLeg where
  instrument := { symbol := symbol, base := "", quote := "" }
  side := side
  weight := some (Decimal.of 1 0)
  priceLow := some (Decimal.of 90 0)
  priceHigh := some (Decimal.of 100 0)
  maxRate := some (Decimal.of 1 0)
  maxQty := some (Decimal.of 10 0)

/-- A pair under the client id `order-1`. -/
def quotedPair (user : String) : CreateComboOrderRequest where
  clientComboId := "order-1"
  userId := user
  comboType := .pair
  executionMode := .multilegVectorSolver
  atomicityPolicy := .scalableAtomic
  ratioBasis := .notionalWeight
  legs := [quotedLeg "BTC/USDT" .buy, quotedLeg "ETH/USDT" .sell]

def drawnIds : Bool → Uuids
  | false => { combo := "combo-a", leg := fun i => if i = 0 then "leg-a0" else "leg-a1"
               constraint := fun _ => "constraint-a", link := fun _ => "link-a" }
  | true => { combo := "combo-b", leg := fun i => if i = 0 then "leg-b0" else "leg-b1"
              constraint := fun _ => "constraint-b", link := fun _ => "link-b" }

def acceptedId : CallPhase → Option String
  | .answered (some response) => if response.accepted then some response.comboId else none
  | _ => none

theorem answered_of_acceptedId {p : CallPhase} {id : String} (h : acceptedId p = some id) :
    ∃ response, p = .answered (some response) ∧ response.accepted = true
      ∧ response.comboId = id := by
  unfold acceptedId at h
  split at h
  · rename_i response
    split at h
    · rename_i haccepted
      exact ⟨response, rfl, haccepted, Option.some.inj h⟩
    · cases h
  · cases h

def twoCalls (user : Bool → String) : ComboCalls Bool where
  env := fun i => { ids := drawnIds i }
  req := fun i => quotedPair (user i)
  ids_distinct := by decide

/-- A retry that comes before the first call has recorded its combo inserts a second one; a
second user with the same client id is answered with the first user's combo. -/
theorem client_id_shared :
    ¬ (twoCalls (fun _ => "alice")).OnePerClientId
        (run (twoCalls (fun _ => "alice")).step (start {}) [false, true, false, true])
      ∧ ¬ (twoCalls (fun i => if i then "bob" else "alice")).OnePerClientId
        (run (twoCalls (fun i => if i then "bob" else "alice")).step (start {})
          [false, false, false, false, true]) := by
  constructor
  · intro h
    exact absurd (h.inserted_once "alice" "order-1" (by decide)) (by decide +kernel)
  · intro h
    have hid : acceptedId ((run (twoCalls (fun i => if i then "bob" else "alice")).step (start {})
        [false, false, false, false, true]).phase true) = some "combo-a" := by
      decide +kernel
    obtain ⟨response, hphase, haccepted, hcombo⟩ := answered_of_acceptedId hid
    have huser := h.own true response hphase haccepted false (by decide +kernel) hcombo.symm
    exact absurd huser (by decide)

end ComboCalls

end OrderFlow
end ContExchange
