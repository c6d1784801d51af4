import ContExchange.Common.DecimalSums
import ContExchange.Lib.SlidingWindow
import ContExchange.OrderFlow.ReversedOnce

/-!
# Order flow: resolving compensations automatically

`AutoResolveLoop::RunOnce` asks matching for the pending compensations and reverses those that
`EvaluateAutoResolve` lets through.  A sliding window of the applied reversals limits their number
and their estimated notional.

Only an applied resolve is charged to the window.  A resolve that created its reversing orders and
was then not applied is not, and the compensation is reversed again in the next pass.

* `ResolveEnv.resolve_applied`: when a resolve that submits orders is applied;
* `turn_keeps`, `runOnce_keeps`: what one compensation and one pass keep;
* `within_limits`: over every run of passes whose submitted reversals are applied and whose sums
  are exact, every window of `window_ms` stays within the limits.

The other clients of the services may do anything between two remote calls of a pass, so every
call meets a state of its own.
-/

namespace ContExchange
namespace OrderFlow

open Common Lib Decimal List

structure AutoResolveConfig where
  enabled : Bool := false
  maxNotional : Decimal := Decimal.zero
  windowNotional : Decimal := Decimal.zero
  maxPerWindow : Int := 0
  minAgeMs : Int := 0

structure AutoResolveCandidate where
  compensationId : String
  reason : String
  ageMs : Int := 0
  reversalNotional : Decimal := Decimal.zero

structure AutoResolveWindow where
  spentNotional : Decimal := Decimal.zero
  count : Int := 0

inductive AutoDecision where
  | autoReverse
  | escalate
deriving DecidableEq

structure AutoResolveResult where
  decision : AutoDecision
  reasonCode : String
deriving DecidableEq

def escalate (code : String) : AutoResolveResult :=
  { decision := .escalate, reasonCode := code }

def isTerminalReason (r : String) : Bool :=
  decide (r = "rejected" ∨ r = "timeout" ∨ r = "cancelled")

def evaluateAutoResolve (c : AutoResolveCandidate) (cfg : AutoResolveConfig)
    (window : AutoResolveWindow) : AutoResolveResult :=
  if cfg.enabled = false then escalate "disabled"
  else if isTerminalReason c.reason = false then escalate "non_terminal_reason"
  else if c.ageMs < cfg.minAgeMs then escalate "too_young"
  else if Decimal.cmp c.reversalNotional Decimal.zero ≤ 0 then escalate "nothing_to_reverse"
  else if Decimal.cmp c.reversalNotional cfg.maxNotional > 0 then escalate "notional_over_cap"
  else if window.count + 1 > cfg.maxPerWindow then escalate "window_count_exceeded"
  else if Decimal.cmp (Decimal.add window.spentNotional c.reversalNotional)
      cfg.windowNotional > 0 then
    escalate "window_notional_exceeded"
  else { decision := .autoReverse, reasonCode := "auto_reverse" }

/-- The checks before the one of the spent notional let the candidate through. -/
structure Considered (c : AutoResolveCandidate) (cfg : AutoResolveConfig)
    (window : AutoResolveWindow) : Prop where
  enabled : cfg.enabled = true
  terminal : isTerminalReason c.reason = true
  old : cfg.minAgeMs ≤ c.ageMs
  something : 0 < Decimal.cmp c.reversalNotional Decimal.zero
  underCap : Decimal.cmp c.reversalNotional cfg.maxNotional ≤ 0
  fewer : window.count + 1 ≤ cfg.maxPerWindow

theorem evaluateAutoResolve_iff (c : AutoResolveCandidate) (cfg : AutoResolveConfig)
    (window : AutoResolveWindow) :
    (evaluateAutoResolve c cfg window).decision = .autoReverse ↔
      Considered c cfg window ∧
        Decimal.cmp (Decimal.add window.spentNotional c.reversalNotional)
          cfg.windowNotional ≤ 0 := by
  constructor
  · intro h
    unfold evaluateAutoResolve at h
    split at h
    · cases h
    · rename_i henabled
      split at h
      · cases h
      · rename_i hterminal
        split at h
        · cases h
        · rename_i hage
          split at h
          · cases h
          · rename_i hsome
            split at h
            · cases h
            · rename_i hcap
              split at h
              · cases h
              · rename_i hcount
                split at h
                · cases h
                · rename_i hspent
                  exact ⟨⟨by simpa using henabled, by simpa using hterminal, not_lt.mp hage,
                    not_le.mp hsome, not_lt.mp hcap, not_lt.mp hcount⟩, not_lt.mp hspent⟩
  · rintro ⟨h, hspent⟩
    unfold evaluateAutoResolve
    rw [if_neg (by simp [h.enabled]), if_neg (by simp [h.terminal]), if_neg (not_lt.mpr h.old),
      if_neg (not_le.mpr h.something), if_neg (not_lt.mpr h.underCap),
      if_neg (not_lt.mpr h.fewer), if_neg (not_lt.mpr hspent)]

/-- `EstimateNotional`: the fills at the middle of the limits of their legs. -/
def estimateNotional (ctx : ComboReversalContext) : Decimal :=
  ctx.legs.foldl (fun total leg =>
    -- the divisor is not zero, so the division does not throw
    let mid := Decimal.divUnits (Decimal.add leg.pLow leg.pHigh) (Decimal.of 2 0) 8
    Decimal.add total (Decimal.mul leg.filledCum mid)) Decimal.zero

theorem normalizeI128_scale_nonneg {scale : Int} (units : Int) (h : 0 ≤ scale) :
    0 ≤ (Decimal.normalizeI128 units scale).scale := by
  unfold Decimal.normalizeI128
  split
  · exact Int.natCast_nonneg _
  · exact h

theorem estimateNotional_scale_nonneg (ctx : ComboReversalContext) :
    0 ≤ (estimateNotional ctx).scale := by
  rw [estimateNotional]
  generalize ctx.legs = legs
  induction legs using List.reverseRecOn with
  | nil => decide
  | append_singleton legs leg ih =>
      rw [foldl_append]
      exact normalizeI128_scale_nonneg _ (le_max_of_le_left ih)

theorem cmp_zero_pos_iff {d : Decimal} (h : 0 ≤ d.scale) :
    0 < Decimal.cmp d .zero ↔ 0 < d.units := by
  have hmax : max d.scale Decimal.zero.scale = d.scale := max_eq_left h
  have hself : Decimal.alignUnitsI128 d d.scale = d.units := if_pos le_rfl
  have hzero : Decimal.alignUnitsI128 .zero d.scale = 0 := by
    unfold Decimal.alignUnitsI128
    split
    · rfl
    · simp [Decimal.zero, i128]
  unfold Decimal.cmp
  rw [hmax]
  dsimp only
  rw [hself, hzero]
  split
  · omega
  · split <;> omega

/-- What the remote calls of a `Resolve` meet: the states at the first part, at every create and
at the end, with the answers. -/
structure ResolveEnv where
  start : StartEnv := {}
  atStart : Resolver
  creates : Nat → CreateEnv × Resolver
  resolvePending : RpcOutcome := .answered
  rpcMessage : String := ""
  atFinish : Resolver

/-- Rounds of the loop over the legs. -/
def ResolveEnv.reverse (env : ResolveEnv) : (rounds : Nat) → ReverseCall → ReverseCall
  | 0, call => call
  | n + 1, call =>
      let meets := env.creates call.made.length
      env.reverse n (reverseNext meets.1 meets.2 call).2

/-- `ResolveCompensationUseCase::Resolve`; `none` when loading the legs throws. -/
def ResolveEnv.resolve (env : ResolveEnv) (req : ResolveCompensationRequest) :
    Option ResolveCompensationResponse :=
  match startResolve env.start env.atStart req with
  | .answered response => some response
  | .thrown => none
  | .reversing call =>
      some (finishResolve env.resolvePending env.rpcMessage env.atFinish
        (env.reverse call.legs.length call)).2

def ResolveEnv.AcceptsAt (env : ResolveEnv) (call : ReverseCall) (k : Nat) : Prop :=
  ∃ leg rev, call.legs[k]? = some (leg, rev) ∧
    PassesGates (env.creates k).1 (env.creates k).2.flow
      (reversingOrder call.req.compensationId call.userId leg rev) ∧
    Persists (env.creates k).1 (env.creates k).2.flow
      (reversingOrder call.req.compensationId call.userId leg rev)

/-- The call comes to the loop over the legs and a create of it is accepted. -/
def ResolveEnv.Submits (env : ResolveEnv) (req : ResolveCompensationRequest) : Prop :=
  ∃ call, startResolve env.start env.atStart req = .reversing call ∧
    ∃ k, env.AcceptsAt call k

/-- Matching finds the compensation still pending at the end, and its answer arrives. -/
def ResolveEnv.Settles (env : ResolveEnv) (compensationId : String) : Prop :=
  env.resolvePending = .answered ∧
    ∃ row, env.atFinish.compensations.lookup compensationId = some row ∧ row.status = .pending

/-- What a call in the loop keeps: its creates are those of the legs in order, and a create with
an id was accepted. -/
structure ResolveEnv.Progress (env : ResolveEnv) (first call : ReverseCall) : Prop where
  req : call.req = first.req
  user : call.userId = first.userId
  legs : call.legs = first.legs.drop call.made.length
  made : ∀ k m, call.made[k]? = some m → m.2.orderId ≠ "" → env.AcceptsAt first k

section Resolve

variable {env : ResolveEnv} {first call : ReverseCall}

theorem accepted_of_orderId {create : CreateEnv} {flow : OrderFlowUseCases}
    {o : Matching.ProtoFlowOrder} (h : (createFlowOrder create flow o).response.orderId ≠ "") :
    PassesGates create flow o ∧ Persists create flow o := by
  have houtcome := createFlowOrder_outcome create flow o
  generalize createFlowOrder create flow o = a at houtcome h
  cases houtcome with
  | stopped hgates hled => exact absurd rfl h
  | unpersisted hgates hrow => exact absurd rfl h
  | accepted hgates hrow hrepo => exact ⟨hgates, hrow⟩

theorem ResolveEnv.Progress.next (h : env.Progress first call) :
    env.Progress first
      (reverseNext (env.creates call.made.length).1 (env.creates call.made.length).2 call).2 := by
  unfold reverseNext
  cases hlegs : call.legs with
  | nil => exact h
  | cons leg rest =>
      obtain ⟨leg, rev⟩ := leg
      have hdrop : first.legs.drop call.made.length = (leg, rev) :: rest := h.legs.symm.trans hlegs
      refine ⟨h.req, h.user, ?_, ?_⟩
      · dsimp only
        rw [length_append, length_singleton, ← drop_drop, hdrop]
        rfl
      · intro k m hm hid
        dsimp only at hm
        rcases Nat.lt_trichotomy k call.made.length with hlt | rfl | hgt
        · rw [getElem?_append_left hlt] at hm
          exact h.made k m hm hid
        · rw [getElem?_concat_length] at hm
          cases hm
          refine ⟨leg, rev, ?_, ?_⟩
          · rw [← head?_drop, hdrop]
            rfl
          · rw [← h.req, ← h.user]
            exact accepted_of_orderId hid
        · rw [getElem?_eq_none (by simpa using hgt)] at hm
          cases hm

theorem ResolveEnv.Progress.reverse (n : Nat) (h : env.Progress first call) :
    env.Progress first (env.reverse n call) := by
  induction n generalizing call with
  | zero => exact h
  | succ n ih => exact ih h.next

variable {req : ResolveCompensationRequest} {s : Resolver}

theorem startResolve_reversing {start : StartEnv} (h : startResolve start s req = .reversing call) :
    call.req = req ∧ call.made = [] ∧ req.check = none := by
  unfold startResolve at h
  split at h
  · cases h
  · rename_i hcheck
    split at h
    · cases h
    · split at h
      · cases h
      · split at h
        · split at h
          · dsimp only at h
            split at h
            · cases h
            · cases h
              exact ⟨rfl, rfl, hcheck⟩
          · cases h
        · cases h
          exact ⟨rfl, rfl, hcheck⟩

theorem startResolve_answered {start : StartEnv} {response : ResolveCompensationResponse}
    (h : startResolve start s req = .answered response) : response.reversingOrderIds = [] := by
  unfold startResolve at h
  split at h
  · cases h
    rfl
  · split at h
    · cases h
      rfl
    · split at h
      · cases h
        rfl
      · split at h
        · split at h
          · dsimp only at h
            split at h
            · cases h
              rfl
            · cases h
          · cases h
        · cases h

theorem finishResolve_reversingOrderIds (rpc : RpcOutcome) (rpcMessage : String) (s : Resolver)
    (call : ReverseCall) :
    (finishResolve rpc rpcMessage s call).2.reversingOrderIds = call.reversingOrderIds := by
  cases rpc with
  | answered => rfl
  | notSent => rfl
  | replyLost => rfl

theorem finishResolve_applied {rpcMessage : String} {row : CompensationRow}
    (hcheck : call.req.check = none)
    (hrow : s.compensations.lookup call.req.compensationId = some row)
    (hpending : row.status = .pending) :
    (finishResolve .answered rpcMessage s call).2.applied = true := by
  have hfind : (s.compensations.lookup call.req.compensationId).filter
      (fun row => decide (row.status = .pending)) = some row := by
    rw [hrow, Option.filter_some, hpending]
    rfl
  unfold finishResolve resolvePending
  dsimp only
  rw [hcheck]
  dsimp only
  rw [resolvePendingRow, hfind]

/-- A resolve that answers with reversing orders submitted them, and it is applied when the
compensation is settled. -/
theorem ResolveEnv.resolve_applied {response : ResolveCompensationResponse}
    (h : env.resolve req = some response) (hids : response.reversingOrderIds ≠ []) :
    env.Submits req ∧ (env.Settles req.compensationId → response.applied = true) := by
  unfold ResolveEnv.resolve at h
  cases hstart : startResolve env.start env.atStart req with
  | answered answer =>
      rw [hstart] at h
      cases h
      exact absurd (startResolve_answered hstart) hids
  | thrown =>
      rw [hstart] at h
      cases h
  | reversing first =>
      rw [hstart] at h
      cases h
      obtain ⟨hreq, hmade, hcheck⟩ := startResolve_reversing hstart
      have hprogress : env.Progress first (env.reverse first.legs.length first) := by
        apply ResolveEnv.Progress.reverse
        refine ⟨rfl, rfl, by rw [hmade]; rfl, ?_⟩
        intro k m hm
        rw [hmade, getElem?_nil] at hm
        cases hm
      rw [finishResolve_reversingOrderIds] at hids
      constructor
      · obtain ⟨id, hid⟩ := exists_mem_of_ne_nil _ hids
        obtain ⟨hmap, hne⟩ := mem_filter.mp hid
        obtain ⟨m, hm, rfl⟩ := mem_map.mp hmap
        obtain ⟨k, hk⟩ := getElem?_of_mem hm
        exact ⟨first, hstart, k, hprogress.made k m hk (of_decide_eq_true hne)⟩
      · rintro ⟨hrpc, row, hrow, hpending⟩
        have hsame := hprogress.req.trans hreq
        rw [hrpc]
        exact finishResolve_applied (hsame ▸ hcheck) (hsame ▸ hrow) hpending

end Resolve

/-- `fob.matching.v1.PendingCompensation`, as far as the loop reads it. -/
structure PendingCompensation where
  compensationId : String
  parentOrderId : String
  reason : String
  createdAtMs : Int

/-- A listed compensation and what its calls meet; `tables` is `none` when loading the legs
throws. -/
structure Turn where
  pending : PendingCompensation
  tables : Option ComboTables
  resolve : ResolveEnv

/-- A call of `RunOnce`: the clock and the answer of `ListPending`, empty when it fails. -/
structure Pass where
  nowMs : Int
  turns : List Turn

/-- A reversal that was submitted. -/
structure Submission where
  timeMs : Int
  compensationId : String
  notional : Decimal
deriving DecidableEq

/-- `AutoResolveLoop`: `window_`, and the history of the submitted reversals. -/
structure AutoResolveLoop where
  window : List (Int × Decimal) := []
  submitted : List Submission := []

def AutoResolveLoop.pruneWindow (s : AutoResolveLoop) (windowMs nowMs : Int) : AutoResolveLoop :=
  { s with window := s.window.dropWhile (fun e => decide (e.1 < nowMs - windowMs)) }

def AutoResolveLoop.windowSnapshot (s : AutoResolveLoop) : AutoResolveWindow where
  spentNotional := (s.window.map (fun e => e.2)).foldl Decimal.add Decimal.zero
  count := s.window.length

/-- The candidate that the loop makes of a pending compensation. -/
def PendingCompensation.candidate (p : PendingCompensation) (nowMs : Int) (tables : ComboTables) :
    AutoResolveCandidate where
  compensationId := p.compensationId
  reason := p.reason
  ageMs := if 0 < p.createdAtMs then nowMs - p.createdAtMs else 0
  reversalNotional := estimateNotional (loadInternalFilledLegs tables p.parentOrderId)

def autoRequest (compensationId : String) : ResolveCompensationRequest where
  compensationId
  action := "reverse_internal"
  operatorId := "auto:reverse_internal"

/-- The state inside a pass; an exception ends the pass. -/
structure PassState where
  loop : AutoResolveLoop
  applied : Nat := 0
  thrown : Bool := false

/-- The history with the submission of a response, if it created orders. -/
def AutoResolveLoop.submit (s : AutoResolveLoop) (response : ResolveCompensationResponse)
    (e : Submission) : AutoResolveLoop :=
  if response.reversingOrderIds = [] then s else { s with submitted := s.submitted ++ [e] }

/-- The body of the loop over the pending compensations. -/
def turn (cfg : AutoResolveConfig) (nowMs : Int) (s : PassState) (t : Turn) : PassState :=
  if s.thrown then s
  else
    match t.tables with
    | none => { s with thrown := true }
    | some tables =>
        let cand := t.pending.candidate nowMs tables
        match (evaluateAutoResolve cand cfg s.loop.windowSnapshot).decision with
        | .escalate => s
        | .autoReverse =>
            match t.resolve.resolve (autoRequest cand.compensationId) with
            | none => { s with thrown := true }
            | some response =>
                let loop := s.loop.submit response
                  ⟨nowMs, cand.compensationId, cand.reversalNotional⟩
                if response.applied then
                  { s with
                    loop :=
                      { loop with window := loop.window ++ [(nowMs, cand.reversalNotional)] }
                    applied := s.applied + 1 }
                else { s with loop }

/-- The loop of a pass over the pending compensations, and what it returns. -/
def runPass (cfg : AutoResolveConfig) (windowMs : Int) (s : AutoResolveLoop) (p : Pass) :
    PassState :=
  if cfg.enabled then
    run (turn cfg p.nowMs) { loop := s.pruneWindow windowMs p.nowMs } p.turns
  else { loop := s }

/-- `AutoResolveLoop::RunOnce`: the loop afterwards. -/
def AutoResolveLoop.runOnce (cfg : AutoResolveConfig) (windowMs : Int) (s : AutoResolveLoop)
    (p : Pass) : AutoResolveLoop :=
  (runPass cfg windowMs s p).loop

def AutoResolveLoop.submittedIn (s : AutoResolveLoop) (windowMs start : Int) : List Submission :=
  windowOf Submission.timeMs windowMs start s.submitted

/-- Submissions within the limits; no limit is asked of none, so that a negative one is no
exception. -/
def WithinLimits (cfg : AutoResolveConfig) (es : List Submission) : Prop :=
  es ≠ [] →
    ((es.map (fun e => e.compensationId)).dedup.length : Int) ≤ cfg.maxPerWindow ∧
      (es.map (fun e => e.notional.toRat)).sum ≤ cfg.windowNotional.toRat

/-- The sum of the notionals in the window with a new one is exact, and its order to the limit
too. -/
structure SpentExact (cfg : AutoResolveConfig) (window : List (Int × Decimal))
    (notional : Decimal) : Prop where
  fits : Decimal.SumsFit (window.map (fun e => e.2) ++ [notional])
  ordered : Decimal.Comparable
    (Decimal.sumOf (window.map (fun e => e.2) ++ [notional])) cfg.windowNotional

/-- The condition on a compensation in the state before it: where the checks before the one of
the spent notional let it through, the sums are exact, and when its reversal is submitted
matching settles it. -/
def TurnOk (cfg : AutoResolveConfig) (nowMs : Int) (s : PassState) (t : Turn) : Prop :=
  ∀ tables, t.tables = some tables →
    Considered (t.pending.candidate nowMs tables) cfg s.loop.windowSnapshot →
      SpentExact cfg s.loop.window (t.pending.candidate nowMs tables).reversalNotional ∧
        (t.resolve.Submits (autoRequest t.pending.compensationId) →
          t.resolve.Settles t.pending.compensationId)

/-- Every compensation of a pass meets the condition. -/
def PassOk (cfg : AutoResolveConfig) (windowMs : Int) (s : AutoResolveLoop) (p : Pass) : Prop :=
  cfg.enabled = true →
    StepsMeet (turn cfg p.nowMs) (TurnOk cfg p.nowMs)
      { loop := s.pruneWindow windowMs p.nowMs } p.turns

/-- Not more than the limits in a form that a part of a list within them is within too. -/
structure Limited (cfg : AutoResolveConfig) (es : List Submission) : Prop where
  nonneg : ∀ e ∈ es, 0 ≤ e.notional.toRat
  limits : es ≠ [] →
    (es.length : Int) ≤ cfg.maxPerWindow ∧
      (es.map (fun e => e.notional.toRat)).sum ≤ cfg.windowNotional.toRat

def Submission.charge (e : Submission) : Int × Decimal := (e.timeMs, e.notional)

/-- What a pass at a time relies on: the recent submissions are charged. -/
structure LoopInv (cfg : AutoResolveConfig) (windowMs nowMs : Int) (s : AutoResolveLoop) :
    Prop where
  past : ∀ e ∈ s.submitted, e.timeMs ≤ nowMs
  charged : ((recentOf Submission.timeMs windowMs nowMs s.submitted).map
    Submission.charge).Sublist s.window
  nonneg : ∀ e ∈ s.window, 0 ≤ e.2.toRat
  limited : ∀ start, Limited cfg (s.submittedIn windowMs start)

section Limits

variable {cfg : AutoResolveConfig} {windowMs nowMs : Int}

theorem Limited.part {part whole : List Submission} (hpart : part.Sublist whole)
    (h : Limited cfg whole) : Limited cfg part := by
  refine ⟨fun e he => h.nonneg e (hpart.subset he), fun hne => ?_⟩
  have hwhole : whole ≠ [] := by
    rintro rfl
    exact hne (sublist_nil.mp hpart)
  obtain ⟨hcount, hsum⟩ := h.limits hwhole
  constructor
  · have hlength := hpart.length_le
    omega
  · have hle : (part.map (fun e => e.notional.toRat)).sum ≤
        (whole.map (fun e => e.notional.toRat)).sum := by
      apply (hpart.map _).sum_le_sum
      intro q hq
      obtain ⟨e, he, rfl⟩ := mem_map.mp hq
      exact h.nonneg e he
    exact hle.trans hsum

theorem Limited.withinLimits {es : List Submission} (h : Limited cfg es) : WithinLimits cfg es := by
  intro hne
  obtain ⟨hcount, hsum⟩ := h.limits hne
  refine ⟨?_, hsum⟩
  have hdedup := (dedup_sublist (es.map (fun e => e.compensationId))).length_le
  rw [length_map] at hdedup
  omega

variable {s : AutoResolveLoop}

theorem LoopInv.later {later : Int} (hle : nowMs ≤ later)
    (h : LoopInv cfg windowMs nowMs s) : LoopInv cfg windowMs later s where
  past := fun e he => (h.past e he).trans hle
  charged := ((recentOf_later hle).map _).trans h.charged
  nonneg := h.nonneg
  limited := h.limited

theorem LoopInv.prune (h : LoopInv cfg windowMs nowMs s) :
    LoopInv cfg windowMs nowMs (s.pruneWindow windowMs nowMs) where
  past := h.past
  charged := by
    apply sublist_dropWhile h.charged
    intro c hc
    obtain ⟨e, he, rfl⟩ := mem_map.mp hc
    have hrecent : nowMs - windowMs ≤ e.timeMs := mem_recentOf he
    exact decide_eq_false (not_lt.mpr hrecent)
  nonneg := fun e he => h.nonneg e ((dropWhile_sublist _).subset he)
  limited := h.limited

theorem LoopInv.chargeOnly {d : Decimal} (hd : 0 ≤ d.toRat) (h : LoopInv cfg windowMs nowMs s) :
    LoopInv cfg windowMs nowMs { s with window := s.window ++ [(nowMs, d)] } where
  past := h.past
  charged := h.charged.trans (sublist_append_left _ _)
  nonneg := by
    intro e he
    rcases mem_append.mp he with hmem | hlast
    · exact h.nonneg e hmem
    · rw [mem_singleton.mp hlast]
      exact hd
  limited := h.limited

theorem LoopInv.submitted {c : AutoResolveCandidate}
    (hwidth : 0 ≤ windowMs)
    (h : LoopInv cfg windowMs nowMs s)
    (hconsidered : Considered c cfg s.windowSnapshot)
    (hd : 0 ≤ c.reversalNotional.toRat)
    (hexact : SpentExact cfg s.window c.reversalNotional)
    (hspent : Decimal.cmp (Decimal.add s.windowSnapshot.spentNotional c.reversalNotional)
      cfg.windowNotional ≤ 0) :
    LoopInv cfg windowMs nowMs
      { window := s.window ++ [(nowMs, c.reversalNotional)]
        submitted := s.submitted ++ [⟨nowMs, c.compensationId, c.reversalNotional⟩] } := by
  set e : Submission := ⟨nowMs, c.compensationId, c.reversalNotional⟩ with he
  have hrecent : recentOf Submission.timeMs windowMs nowMs (s.submitted ++ [e]) =
      recentOf Submission.timeMs windowMs nowMs s.submitted ++ [e] :=
    recentOf_concat e (by rw [he]; dsimp only; omega)
  have hcharged : ((recentOf Submission.timeMs windowMs nowMs s.submitted ++ [e]).map
      Submission.charge).Sublist (s.window ++ [(nowMs, c.reversalNotional)]) := by
    rw [map_append]
    exact h.charged.append (List.Sublist.refl _)
  have hnonneg : ∀ x ∈ s.window ++ [(nowMs, c.reversalNotional)], 0 ≤ x.2.toRat :=
    (h.chargeOnly hd).nonneg
  -- the computed sum is the exact one, so the exact one is within the limit
  have htotal : ((s.window ++ [(nowMs, c.reversalNotional)]).map (fun x => x.2.toRat)).sum ≤
      cfg.windowNotional.toRat := by
    have hsum : Decimal.add s.windowSnapshot.spentNotional c.reversalNotional =
        Decimal.sumOf (s.window.map (fun x => x.2) ++ [c.reversalNotional]) := by
      rw [← foldl_add_eq_sumOf hexact.fits, foldl_append]
      rfl
    rw [hsum, hexact.ordered.cmp_nonpos_iff, sumOf_toRat hexact.fits.whole] at hspent
    rw [map_append, map_singleton] at hspent ⊢
    rwa [map_map] at hspent
  have hnew : Limited cfg (recentOf Submission.timeMs windowMs nowMs s.submitted ++ [e]) := by
    constructor
    · intro x hx
      exact hnonneg x.charge (hcharged.subset (mem_map_of_mem hx))
    · intro _
      constructor
      · have hfewer : (s.window.length : Int) + 1 ≤ cfg.maxPerWindow := hconsidered.fewer
        have hwindow : (s.window ++ [(nowMs, c.reversalNotional)]).length = s.window.length + 1 :=
          length_append
        have hlength := hcharged.length_le
        rw [length_map, hwindow] at hlength
        omega
      · have hle := ((hcharged.map (fun x => x.2.toRat)).sum_le_sum fun q hq => by
          obtain ⟨x, hx, rfl⟩ := mem_map.mp hq
          exact hnonneg x hx)
        rw [map_map] at hle
        exact hle.trans htotal
  refine ⟨?_, ?_, hnonneg, ?_⟩
  · intro x hx
    rcases mem_append.mp hx with hmem | hlast
    · exact h.past x hmem
    · rw [mem_singleton.mp hlast]
  · rw [hrecent]
    exact hcharged
  · exact limited_concat (fun part whole hpart hwhole => hwhole.part hpart) e h.limited hnew

theorem Considered.notional_nonneg {p : PendingCompensation} {tables : ComboTables}
    {window : AutoResolveWindow} (h : Considered (p.candidate nowMs tables) cfg window) :
    0 ≤ (p.candidate nowMs tables).reversalNotional.toRat := by
  have hscale : 0 ≤ (p.candidate nowMs tables).reversalNotional.scale :=
    estimateNotional_scale_nonneg _
  exact (toRat_nonneg_iff _).mpr ((cmp_zero_pos_iff hscale).mp h.something).le

theorem turn_keeps {s : PassState} {t : Turn} (hwidth : 0 ≤ windowMs)
    (h : LoopInv cfg windowMs nowMs s.loop) (hok : TurnOk cfg nowMs s t) :
    LoopInv cfg windowMs nowMs (turn cfg nowMs s t).loop := by
  unfold turn
  split
  · exact h
  · split
    · exact h
    · rename_i tables htables
      dsimp only
      split
      · exact h
      · rename_i hdecision
        obtain ⟨hconsidered, hspent⟩ := (evaluateAutoResolve_iff _ _ _).mp hdecision
        obtain ⟨hexact, hsettles⟩ := hok tables htables hconsidered
        have hnonneg := hconsidered.notional_nonneg
        split
        · exact h
        · rename_i response hresolve
          unfold AutoResolveLoop.submit
          by_cases hids : response.reversingOrderIds = []
          · rw [if_pos hids]
            split
            · exact h.chargeOnly hnonneg
            · exact h
          · obtain ⟨hsubmits, happlied⟩ := ResolveEnv.resolve_applied hresolve hids
            rw [if_neg hids, if_pos (happlied (hsettles hsubmits))]
            exact h.submitted hwidth hconsidered hnonneg hexact hspent

theorem runOnce_keeps {p : Pass} (hwidth : 0 ≤ windowMs) (h : LoopInv cfg windowMs nowMs s)
    (hlater : nowMs ≤ p.nowMs) (hok : PassOk cfg windowMs s p) :
    LoopInv cfg windowMs p.nowMs (s.runOnce cfg windowMs p) := by
  unfold AutoResolveLoop.runOnce runPass
  by_cases henabled : cfg.enabled = true
  · rw [if_pos henabled]
    exact run_invariant (fun st : PassState => LoopInv cfg windowMs p.nowMs st.loop)
      (fun st t hst ht => turn_keeps hwidth hst ht) (h.later hlater).prune (hok henabled)
  · rw [if_neg henabled]
    exact h.later hlater

theorem passes_keep {ps : List Pass} (hwidth : 0 ≤ windowMs) (h : LoopInv cfg windowMs nowMs s)
    (htimes : (nowMs :: ps.map Pass.nowMs).Pairwise (· ≤ ·))
    (hok : StepsMeet (AutoResolveLoop.runOnce cfg windowMs) (PassOk cfg windowMs) s ps) :
    ∃ last, LoopInv cfg windowMs last (run (AutoResolveLoop.runOnce cfg windowMs) s ps) := by
  induction ps generalizing s nowMs with
  | nil => exact ⟨nowMs, h⟩
  | cons p ps ih =>
      rw [map_cons, pairwise_cons] at htimes
      have hlater := htimes.1 p.nowMs mem_cons_self
      exact ih (runOnce_keeps hwidth h hlater hok.1) htimes.2 hok.2

theorem loopInv_start : LoopInv cfg windowMs nowMs {} where
  past := fun e he => by cases he
  charged := List.Sublist.refl _
  nonneg := fun e he => by cases he
  limited := fun start =>
    { nonneg := fun e he => by cases he
      limits := fun hne => absurd rfl hne }

/-- In every run of passes at times that do not decrease, in which every compensation meets the
condition, the submitted reversals of every window of `window_ms` stay within the limits. -/
theorem within_limits (cfg : AutoResolveConfig) (windowMs : Int) (ps : List Pass)
    (htimes : (ps.map Pass.nowMs).Pairwise (· ≤ ·))
    (hok : StepsMeet (AutoResolveLoop.runOnce cfg windowMs) (PassOk cfg windowMs) {} ps)
    (start : Int) :
    WithinLimits cfg
      ((run (AutoResolveLoop.runOnce cfg windowMs) {} ps).submittedIn windowMs start) := by
  by_cases hwidth : 0 ≤ windowMs
  · cases ps with
    | nil => exact fun hne => absurd rfl hne
    | cons p ps =>
        have htimes' : (p.nowMs :: (p :: ps).map Pass.nowMs).Pairwise (· ≤ ·) := by
          rw [List.map_cons] at htimes ⊢
          refine List.pairwise_cons.mpr ⟨?_, htimes⟩
          intro t ht
          rcases List.mem_cons.mp ht with rfl | hmem
          · exact le_rfl
          · exact (List.pairwise_cons.mp htimes).1 t hmem
        obtain ⟨last, hlast⟩ := passes_keep hwidth loopInv_start htimes' hok
        exact (hlast.limited start).withinLimits
  · -- a window of a negative width is empty
    intro hne
    obtain ⟨e, he⟩ := List.exists_mem_of_ne_nil _ hne
    have hbounds : start ≤ e.timeMs ∧ e.timeMs ≤ start + windowMs :=
      of_decide_eq_true (List.mem_filter.mp he).2
    omega

end Limits

def twoPending : Resolver where
  flow := demoStart
  tables :=
    { comboOrders := ((∅ : Table String ComboOrderRow).insert "c1" compensatedCombo).insert "c2"
        compensatedCombo
      legs := ((∅ : Table String ComboLegRow).insert "l1" filledLeg).insert "l2"
        { filledLeg with parentOrderId := "c2" } }
  compensations := ((∅ : Compensations).insert "k1" { parentOrderId := "c1" }).insert "k2"
    { parentOrderId := "c2" }

/-- The services after the first resolve, whose last call does not arrive. -/
def oneReversed : Resolver :=
  run Resolver.step twoPending
    [.start 0 {} (autoRequest "k1"), .create 0 {}, .finish 0 .notSent ""]

/-- A compensation whose calls meet one state of the services. -/
def demoTurn (s : Resolver) (rpc : RpcOutcome) (compensationId parentOrderId : String) : Turn where
  pending := { compensationId, parentOrderId, reason := "rejected", createdAtMs := 1000 }
  tables := some s.tables
  resolve := { atStart := s, creates := fun _ => ({}, s), resolvePending := rpc, atFinish := s }

/-- One reversal and a notional of 150 in a window. -/
def demoLimits : AutoResolveConfig where
  enabled := true
  maxNotional := Decimal.of 1000 0
  windowNotional := Decimal.of 150 0
  maxPerWindow := 1
  minAgeMs := 30000

/-- A pass in which matching answers neither resolve. -/
def lostPass : Pass where
  nowMs := 60000
  turns := [demoTurn twoPending .notSent "k1" "c1", demoTurn oneReversed .notSent "k2" "c2"]

/-- A pass in which matching answers the resolve. -/
def answeredPass : Pass where
  nowMs := 60000
  turns := [demoTurn twoPending .answered "k1" "c1"]

/-- Both reversals of the pass are submitted, and none of them is charged. -/
theorem lost_reversals_uncounted :
    ¬ WithinLimits demoLimits
        ((run (AutoResolveLoop.runOnce demoLimits 3600000) {} [lostPass]).submittedIn
          3600000 0) := by
  have hboth : (run (AutoResolveLoop.runOnce demoLimits 3600000) {} [lostPass]).submittedIn
      3600000 0 =
        [⟨60000, "k1", Decimal.of 9500000000 8⟩, ⟨60000, "k2", Decimal.of 9500000000 8⟩] := by
    decide +kernel
  rw [hboth]
  intro h
  have hcount := (h (List.cons_ne_nil _ _)).1
  exact absurd hcount (by decide)

/-- A reversal that is applied stays within the limits. -/
theorem answered_reversal_within_limits :
    WithinLimits demoLimits
      ((run (AutoResolveLoop.runOnce demoLimits 3600000) {} [answeredPass]).submittedIn
        3600000 0) := by
  refine within_limits demoLimits 3600000 [answeredPass] (List.pairwise_singleton _ _) ?_ 0
  refine ⟨fun _ => ⟨?_, trivial⟩, trivial⟩
  intro tables htables hconsidered
  cases htables
  have hnotional : ((demoTurn twoPending .answered "k1" "c1").pending.candidate 60000
      twoPending.tables).reversalNotional = Decimal.of 9500000000 8 := by
    decide
  refine ⟨?_, fun _ => ⟨rfl, { parentOrderId := "c1" }, by decide, rfl⟩⟩
  rw [show answeredPass.nowMs = 60000 from rfl, hnotional]
  exact ⟨by decide, Decimal.comparable_of_scales (by decide)⟩

end OrderFlow
end ContExchange
