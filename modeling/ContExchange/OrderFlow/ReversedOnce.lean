import ContExchange.OrderFlow.Compensation

/-!
# Order flow: a compensation reverses once

A compensation counts as resolved when the call to matching arrives, whatever became of
the creates before it, and a retry creates every order again.

* `ReversedOnce`: a resolved compensation has a reversing order for every filled
  internal leg of its combo, and the reversing orders of a leg, once there is one,
  add up to its filled quantity, on the other side;
* `reversed_once_iff`: along a run of steps of any number of calls it holds after
  every step exactly when every step meets `ResolveOk`: a create is accepted for no leg
  that has a reversing order already, and matching hears of a resolution only from a
  call none of whose creates was refused, about a combo without a filled leg that has
  `internal` next to another venue.
-/

namespace ContExchange
namespace OrderFlow

open Common Lib AList Table Resolver
open List hiding mem_map
open Option hiding map mem_map
open Matching (PgNumeric ProtoFlowOrder OrderEvent stripZeros stripZeros_value)

/-- Matching fills the leg itself: not all of its venues are external. -/
def ComboLegRow.IsInternal (row : ComboLegRow) : Prop :=
  row.venuePreferences = [] ∨ internalVenue ∈ row.venuePreferences

structure FilledInternal (tables : ComboTables) (parentOrderId legId : String)
    (row : ComboLegRow) : Prop where
  combo : (tables.comboOrders.lookup parentOrderId).isSome
  leg : tables.legs.lookup legId = some row
  parent : row.parentOrderId = parentOrderId
  internal : row.IsInternal
  filled : 0 < row.filledCum.units

/-- The reversing orders of a leg that were activated. -/
def Resolver.reversalsOf (s : Resolver) (legId : String) : List ProtoFlowOrder :=
  (s.reversals.filter (fun r => decide (r.legId = legId))).map Reversal.order

/-- The orders give back what the leg filled. -/
structure Reverses (orders : List ProtoFlowOrder) (row : ComboLegRow) : Prop where
  side : ∀ o ∈ orders, o.side = if row.side = "buy" then .sell else .buy
  quantity : (orders.map (fun o => o.total.toRat)).sum = row.filledCum.toRat

structure ReversedOnce (s : Resolver) : Prop where
  resolved : ∀ id row, s.compensations.lookup id = some row → row.status = .resolved →
    ∀ legId leg, FilledInternal s.tables row.parentOrderId legId leg → s.reversalsOf legId ≠ []
  reversed : ∀ parentOrderId legId leg, FilledInternal s.tables parentOrderId legId leg →
    s.reversalsOf legId = [] ∨ Reverses (s.reversalsOf legId) leg

def FitsDecimal (z : PgNumeric) : Prop :=
  Int64Fits (stripZeros 18 z.units).1

/-- What a step has to meet. -/
def ResolveOk (s : Resolver) : ResolveEvent → Prop
  | .start _ _ _ => True
  | .create callId env =>
      ∀ call leg rev rest, s.calls.lookup callId = some call → call.legs = (leg, rev) :: rest →
        PassesGates env s.flow (reversingOrder call.req.compensationId call.userId leg rev) →
        Persists env s.flow (reversingOrder call.req.compensationId call.userId leg rev) →
        s.reversalsOf leg.legId = [] ∧
          ∀ row, s.tables.legs.lookup leg.legId = some row → FitsDecimal row.filledCum
  | .finish callId rpc _ =>
      ∀ call row, s.calls.lookup callId = some call → call.legs = [] →
        call.req.action ≠ "accept" → rpc ≠ .notSent →
        s.compensations.lookup call.req.compensationId = some row → row.status = .pending →
        (∀ m ∈ call.made, m.2.accepted = true ∨ s.reversalsOf m.1.legId ≠ []) ∧
          ∀ legId leg, FilledInternal s.tables row.parentOrderId legId leg →
            leg.venuePreferences = [] ∨ leg.venuePreferences = [internalVenue]
  | .orderFlow _ => True

/-- The row is one that the query finds. -/
def Loaded (tables : ComboTables) (legId : String) (row : ComboLegRow) : Prop :=
  tables.legs.lookup legId = some row ∧ (tables.comboOrders.lookup row.parentOrderId).isSome ∧
    row.loadsForReversal row.parentOrderId = true

def MadeOf (tables : ComboTables) (leg : ReversalLegRow) (rev : ReversalOrder) : Prop :=
  ∃ row, Loaded tables leg.legId row ∧ leg = row.toReversalLeg leg.legId ∧
    rev = ⟨leg.instrumentSymbol, !leg.isBuy, leg.filledCum⟩

/-- A call in progress: its compensation exists, its legs were made of rows, all legs
of the combo are done or still to do, and the accepted creates are activated. -/
structure CallKnows (s : Resolver) (call : ReverseCall) : Prop where
  checked : call.req.check = none
  legs : ∃ row, s.compensations.lookup call.req.compensationId = some row ∧
    (call.req.action ≠ "accept" →
      call.made.map Prod.fst ++ call.legs.map Prod.fst =
        (loadInternalFilledLegs s.tables row.parentOrderId).legs)
  madeOf : ∀ p ∈ call.legs, MadeOf s.tables p.1 p.2
  accepted : ∀ m ∈ call.made, m.2.accepted = true → s.reversalsOf m.1.legId ≠ []

/-- All calls in progress are known, and every reversal is about a row that the query
finds. -/
structure ResolverInv (s : Resolver) : Prop where
  calls : ∀ callId call, s.calls.lookup callId = some call → CallKnows s call
  reversals : ∀ r ∈ s.reversals, ∃ row, Loaded s.tables r.legId row

section Legs

variable {tables : ComboTables} {parentOrderId legId : String} {row : ComboLegRow}

theorem parseNum_toRat_iff (z : PgNumeric) : (parseNum z).toRat = z.toRat ↔ FitsDecimal z := by
  obtain ⟨hle, hval⟩ := stripZeros_value 18 z.units
  have hz : z.toRat =
      ((stripZeros 18 z.units).1 : ℚ) * (10 : ℚ) ^ (-((stripZeros 18 z.units).2 : Int)) := by
    have hcast : (z.units : ℚ) =
        (stripZeros 18 z.units).1 * 10 ^ (18 - (stripZeros 18 z.units).2) := by
      exact_mod_cast hval.symm
    unfold PgNumeric.toRat
    rw [hcast, mul_div_assoc, ← zpow_natCast, ← zpow_natCast, ← zpow_sub₀ (by norm_num),
      Nat.cast_sub hle, sub_sub_cancel_left]
  unfold Decimal.toRat parseNum FitsDecimal
  rw [hz, mul_left_inj' (by positivity), Int.cast_inj]
  unfold wrapInt64 Int64Fits int64Min int64Max
  dsimp only
  omega

theorem loadsForReversal_iff :
    row.loadsForReversal parentOrderId = true ↔
      row.parentOrderId = parentOrderId ∧ 0 < row.filledCum.units ∧
        (row.venuePreferences = [] ∨ row.venuePreferences = [internalVenue]) := by
  exact decide_eq_true_iff

theorem Loaded.filledInternal (h : Loaded tables legId row) :
    FilledInternal tables row.parentOrderId legId row := by
  obtain ⟨hleg, hcombo, hloads⟩ := h
  obtain ⟨-, hfilled, hvenues⟩ := loadsForReversal_iff.mp hloads
  refine ⟨hcombo, hleg, rfl, ?_, hfilled⟩
  rcases hvenues with hnone | hone
  · exact .inl hnone
  · exact .inr (hone ▸ mem_singleton_self _)

theorem FilledInternal.loaded_iff (h : FilledInternal tables parentOrderId legId row) :
    Loaded tables legId row ↔
      row.venuePreferences = [] ∨ row.venuePreferences = [internalVenue] := by
  constructor
  · rintro ⟨-, -, hloads⟩
    exact (loadsForReversal_iff.mp hloads).2.2
  · intro hvenues
    refine ⟨h.leg, ?_, loadsForReversal_iff.mpr ⟨rfl, h.filled, hvenues⟩⟩
    rw [h.parent]
    exact h.combo

theorem mem_loadInternalFilledLegs {leg : ReversalLegRow} :
    leg ∈ (loadInternalFilledLegs tables parentOrderId).legs ↔
      ∃ legId row, Loaded tables legId row ∧ row.parentOrderId = parentOrderId ∧
        leg = row.toReversalLeg legId := by
  unfold loadInternalFilledLegs
  cases hcombo : tables.comboOrders.lookup parentOrderId with
  | none =>
      refine iff_of_false not_mem_nil ?_
      rintro ⟨legId, row, ⟨-, hsome, -⟩, rfl, -⟩
      rw [hcombo] at hsome
      cases hsome
  | some combo =>
      simp only [mem_insertionSort, List.mem_map]
      constructor
      · rintro ⟨⟨legId, row⟩, hmem, rfl⟩
        have hlookup := mem_lookup_iff.mpr hmem
        rw [mem_def, lookup_filter, filter_eq_some_iff] at hlookup
        obtain ⟨hleg, hloads⟩ := hlookup
        obtain ⟨hparent, -⟩ := loadsForReversal_iff.mp hloads
        exact ⟨legId, row, ⟨hleg, by rw [hparent, hcombo]; rfl, hparent ▸ hloads⟩, hparent, rfl⟩
      · rintro ⟨legId, row, ⟨hleg, -, hloads⟩, hparent, rfl⟩
        refine ⟨⟨legId, row⟩, mem_lookup_iff.mp ?_, rfl⟩
        rw [mem_def, lookup_filter, filter_eq_some_iff]
        exact ⟨hleg, hparent ▸ hloads⟩

theorem madeOf_of_mem_zip
    {p : ReversalLegRow × ReversalOrder}
    {legs : List ReversalLegRow}
    (hlength : (computeReversals legs).length = legs.length)
    (hloaded : ∀ leg ∈ legs, ∃ row, Loaded tables leg.legId row ∧ leg = row.toReversalLeg leg.legId)
    (hp : p ∈ legs.zip (computeReversals legs)) :
    MadeOf tables p.1 p.2 := by
  induction legs with
  | nil => cases hp
  | cons leg rest ih =>
      have hshort : (computeReversals rest).length ≤ rest.length := length_filterMap_le _ _
      unfold computeReversals at hlength hp hshort
      rw [filterMap_cons] at hlength hp
      by_cases hskip : Decimal.cmp leg.filledCum .zero ≤ 0
      · rw [if_pos hskip] at hlength
        simp only [length_cons] at hlength
        omega
      · rw [if_neg hskip] at hlength hp
        simp only [length_cons, Nat.add_right_cancel_iff] at hlength
        rcases mem_cons.mp hp with rfl | hrest
        · obtain ⟨row, hrow, hleg⟩ := hloaded leg mem_cons_self
          exact ⟨row, hrow, hleg, rfl⟩
        · exact ih hlength (fun l hl => hloaded l (mem_cons_of_mem _ hl)) hrest

end Legs

section Steps

variable {s : Resolver}

variable {call : ReverseCall} {s' : Resolver}

theorem CallKnows.mono
    (h : CallKnows s call)
    (htables : s'.tables = s.tables)
    (hcompensations : ∀ id row, s.compensations.lookup id = some row →
      ∃ row', s'.compensations.lookup id = some row' ∧ row'.parentOrderId = row.parentOrderId)
    (hreversals : ∀ legId, s.reversalsOf legId ≠ [] → s'.reversalsOf legId ≠ []) :
    CallKnows s' call := by
  obtain ⟨row, hrow, hlegs⟩ := h.legs
  obtain ⟨row', hrow', hparent⟩ := hcompensations _ _ hrow
  refine ⟨h.checked, ⟨row', hrow', ?_⟩, ?_, fun m hm hok => hreversals _ (h.accepted m hm hok)⟩
  · rw [htables, hparent]
    exact hlegs
  · rw [htables]
    exact h.madeOf

theorem reversalsOf_append (s : Resolver) (flow : OrderFlowUseCases)
    (calls : Table Nat ReverseCall) (r : Reversal) (legId : String) :
    reversalsOf { s with flow, calls, reversals := s.reversals ++ [r] } legId =
      if r.legId = legId then s.reversalsOf legId ++ [r.order] else s.reversalsOf legId := by
  unfold reversalsOf
  by_cases h : r.legId = legId
  · simp [filter_append, h]
  · simp [filter_append, h]

theorem reversalsOf_ne_nil_iff (s : Resolver) (legId : String) :
    s.reversalsOf legId ≠ [] ↔ ∃ r ∈ s.reversals, r.legId = legId := by
  unfold reversalsOf
  simp

variable {req : ResolveCompensationRequest}

theorem callKnows_startResolve {env : StartEnv} (h : startResolve env s req = .reversing call) :
    CallKnows s call := by
  unfold startResolve at h
  cases hcheck : req.check with
  | some error =>
      rw [hcheck] at h
      cases h
  | none =>
      rw [hcheck] at h
      by_cases henv : env.getPending = .answered
      · rw [if_pos henv] at h
        cases hpending : getPending s.compensations req.compensationId with
        | none =>
            rw [hpending] at h
            cases h
        | some row =>
            rw [hpending] at h
            dsimp only at h
            have hrow : s.compensations.lookup req.compensationId = some row := by
              unfold getPending at hpending
              split at hpending
              · cases hpending
              · exact (filter_eq_some_iff.mp hpending).1
            by_cases hretry : req.action = "retry_external"
            · rw [if_pos hretry] at h
              cases h
            · rw [if_neg hretry] at h
              by_cases hreverse : req.action = "reverse_internal"
              · rw [if_pos hreverse] at h
                split at h
                · split at h
                  · cases h
                  · rename_i hlength
                    cases h
                    have hlength := not_not.mp hlength
                    refine ⟨hcheck, ⟨row, hrow, fun _ => ?_⟩, ?_, ?_⟩
                    · exact map_fst_zip (le_of_eq hlength.symm)
                    · intro p hp
                      refine madeOf_of_mem_zip hlength (fun leg hleg => ?_) hp
                      obtain ⟨legId, r, hloaded, -, rfl⟩ := mem_loadInternalFilledLegs.mp hleg
                      exact ⟨r, hloaded, rfl⟩
                    · intro m hm
                      cases hm
                · cases h
              · rw [if_neg hreverse] at h
                cases h
                have haccept : req.action = "accept" := by
                  by_contra hother
                  unfold ResolveCompensationRequest.check at hcheck
                  rw [if_pos ⟨hreverse, hretry, hother⟩] at hcheck
                  cases hcheck
                refine ⟨hcheck, ⟨row, hrow, fun h => absurd haccept h⟩, ?_, ?_⟩
                · intro p hp
                  cases hp
                · intro m hm
                  cases hm
      · rw [if_neg henv] at h
        cases h

theorem createFlowOrder_published (env : CreateEnv) (flow : OrderFlowUseCases)
    (o : ProtoFlowOrder) :
    (¬ (PassesGates env flow o ∧ Persists env flow o) ∧
        (createFlowOrder env flow o).response.accepted = false ∧
        (createFlowOrder env flow o).published = []) ∨
      (PassesGates env flow o ∧ Persists env flow o) ∧
        (createFlowOrder env flow o).response.accepted = true ∧
        (createFlowOrder env flow o).published = [.create (storedOrder env.now o)] := by
  have houtcome := createFlowOrder_outcome env flow o
  generalize createFlowOrder env flow o = a at houtcome
  cases houtcome with
  | stopped hgates hled => exact .inl ⟨fun h => hgates h.1, rfl, rfl⟩
  | unpersisted hgates hrow => exact .inl ⟨fun h => hrow h.2, rfl, rfl⟩
  | accepted hgates hrow hrepo => exact .inr ⟨⟨hgates, hrow⟩, rfl, rfl⟩

variable {leg : ReversalLegRow} {rev : ReversalOrder}

theorem reverseNext_cases (env : CreateEnv) {rest : List (ReversalLegRow × ReversalOrder)}
    {order : ProtoFlowOrder} (hlegs : call.legs = (leg, rev) :: rest)
    (horder : reversingOrder call.req.compensationId call.userId leg rev = order) :
    ∃ flow resp,
      (reverseNext env s call).2 =
          { call with legs := rest, made := call.made ++ [(leg, resp)] } ∧
        ((¬ (PassesGates env s.flow order ∧ Persists env s.flow order) ∧
            resp.accepted = false ∧ (reverseNext env s call).1 = { s with flow }) ∨
          (PassesGates env s.flow order ∧ Persists env s.flow order) ∧
            resp.accepted = true ∧
            (reverseNext env s call).1 =
              { s with
                flow
                reversals := s.reversals ++ [⟨leg.legId, storedOrder env.now order⟩] }) := by
  unfold reverseNext
  rw [hlegs]
  dsimp only
  rw [horder]
  refine ⟨(createFlowOrder env s.flow order).state, (createFlowOrder env s.flow order).response,
    rfl, ?_⟩
  rcases createFlowOrder_published env s.flow order with
    ⟨hgates, haccepted, hpublished⟩ | ⟨hgates, haccepted, hpublished⟩
  · refine .inl ⟨hgates, haccepted, ?_⟩
    rw [hpublished, activated, filterMap_nil, append_nil]
  · refine .inr ⟨hgates, haccepted, ?_⟩
    rw [hpublished]
    rfl

/-- An accepted create reverses a leg once exactly when the leg was not reversed before
and its fill fits a decimal. -/
theorem reversedOnce_append_iff {env : CreateEnv} {compensationId userId : String}
    {flow : OrderFlowUseCases} {calls : Table Nat ReverseCall} (hsafe : ReversedOnce s)
    (hmade : MadeOf s.tables leg rev)
    (hvalid : validateOrder (reversingOrder compensationId userId leg rev) = none) :
    ReversedOnce
        { s with
          flow
          calls
          reversals := s.reversals ++
            [⟨leg.legId, storedOrder env.now (reversingOrder compensationId userId leg rev)⟩] } ↔
      s.reversalsOf leg.legId = [] ∧
        ∀ row, s.tables.legs.lookup leg.legId = some row → FitsDecimal row.filledCum := by
  obtain ⟨row, hloaded, hleg, rfl⟩ := hmade
  have hfilled : FilledInternal s.tables row.parentOrderId leg.legId row :=
    hloaded.filledInternal
  have hqty : leg.filledCum = parseNum row.filledCum := by
    rw [hleg]
    rfl
  have hbuy : leg.isBuy = decide (row.side = "buy") := by
    rw [hleg]
    rfl
  set order := storedOrder env.now
    (reversingOrder compensationId userId leg ⟨leg.instrumentSymbol, !leg.isBuy, leg.filledCum⟩)
    with horder
  have htotal : order.total.toRat = (parseNum row.filledCum).toRat := by
    rw [← hqty]
    rfl
  have hpositive : 0 < order.total.toRat := by
    have hunits : ¬ leg.filledCum.units ≤ 0 := by
      intro hle
      have hstop : (reversingOrder compensationId userId leg
          ⟨leg.instrumentSymbol, !leg.isBuy, leg.filledCum⟩).total.units ≤ 0 := hle
      unfold validateOrder at hvalid
      rw [if_pos hstop] at hvalid
      cases hvalid
    exact mul_pos (Int.cast_pos.mpr (not_le.mp hunits)) (Decimal.pow10_pos _)
  constructor
  · intro h
    have hafter := h.reversed _ _ row hfilled
    rw [reversalsOf_append, if_pos rfl] at hafter
    rcases hafter with hempty | hreverses
    · exact absurd hempty (by simp)
    · have hquantity := hreverses.quantity
      rw [map_append, sum_append, map_singleton, sum_singleton] at hquantity
      have hnone : s.reversalsOf leg.legId = [] := by
        rcases hsafe.reversed _ _ row hfilled with hnone | hbefore
        · exact hnone
        · rw [hbefore.quantity] at hquantity
          linarith
      refine ⟨hnone, fun row' hrow' => ?_⟩
      rw [hloaded.1] at hrow'
      cases hrow'
      rw [hnone, map_nil, sum_nil, zero_add, htotal] at hquantity
      exact (parseNum_toRat_iff _).mp hquantity
  · rintro ⟨hnone, hfits⟩
    constructor
    · intro id comp hcomp hstatus legId leg' hleg'
      rw [reversalsOf_append]
      split
      · simp
      · exact hsafe.resolved id comp hcomp hstatus legId leg' hleg'
    · intro parentOrderId legId leg' hleg'
      rw [reversalsOf_append]
      by_cases hsame : leg.legId = legId
      · subst hsame
        have hrow : leg' = row := some_inj.mp (hleg'.leg.symm.trans hloaded.1)
        subst hrow
        rw [if_pos rfl, hnone]
        refine .inr ⟨?_, ?_⟩
        · intro o ho
          rw [nil_append, mem_singleton] at ho
          rw [ho, horder]
          unfold storedOrder reversingOrder
          rw [hbuy]
          by_cases hside : leg'.side = "buy"
          · simp [hside]
          · simp [hside]
        · rw [nil_append, map_singleton, sum_singleton, htotal]
          exact (parseNum_toRat_iff _).mpr (hfits leg' hloaded.1)
      · rw [if_neg hsame]
        exact hsafe.reversed parentOrderId legId leg' hleg'

theorem CallKnows.next {rest : List (ReversalLegRow × ReversalOrder)}
    {resp : CreateFlowOrderResponse} (h : CallKnows s' call)
    (hlegs : call.legs = (leg, rev) :: rest)
    (hresp : resp.accepted = true → s'.reversalsOf leg.legId ≠ []) :
    CallKnows s' { call with legs := rest, made := call.made ++ [(leg, resp)] } := by
  obtain ⟨row, hrow, hall⟩ := h.legs
  refine ⟨h.checked, ⟨row, hrow, fun haction => ?_⟩, ?_, ?_⟩
  · rw [← hall haction, hlegs]
    simp
  · intro p hp
    exact h.madeOf p (hlegs ▸ mem_cons_of_mem _ hp)
  · intro m hm hok
    rcases mem_append.mp hm with hold | hnew
    · exact h.accepted m hold hok
    · rw [mem_singleton] at hnew
      subst hnew
      exact hresp hok

theorem finishResolve_state (rpc : RpcOutcome) (rpcMessage : String) (call : ReverseCall) :
    (finishResolve rpc rpcMessage s call).1 =
      { s with
        compensations :=
          if rpc = .notSent then s.compensations
          else (resolvePending s.compensations call.req
            (",".intercalate call.reversingOrderIds)).1 } := by
  cases rpc with
  | answered => rfl
  | notSent => rfl
  | replyLost => rfl

variable {row : CompensationRow}

theorem resolvePending_state {compensations : Compensations} (resolvingRef : String)
    (hcheck : req.check = none) (hrow : compensations.lookup req.compensationId = some row) :
    (resolvePending compensations req resolvingRef).1 =
      if row.status = .pending then
        compensations.insert req.compensationId
          { row with
            status := if req.action = "accept" then .cancelled else .resolved
            resolutionAction := some req.action
            operatorId := some req.operatorId
            resolvingRef := some resolvingRef }
      else compensations := by
  unfold resolvePending resolvePendingRow
  rw [hcheck, hrow]
  by_cases hpending : row.status = .pending
  · simp [Option.filter, hpending]
  · simp [Option.filter, hpending]

theorem parent_resolvePending {compensations : Compensations} {resolvingRef : String}
    (hcheck : req.check = none) (hrow : compensations.lookup req.compensationId = some row) :
    ∀ id r, compensations.lookup id = some r →
      ∃ r', (resolvePending compensations req resolvingRef).1.lookup id = some r' ∧
        r'.parentOrderId = r.parentOrderId := by
  intro id r hr
  rw [resolvePending_state resolvingRef hcheck hrow]
  split
  · by_cases hid : id = req.compensationId
    · subst hid
      rw [hrow] at hr
      cases hr
      exact ⟨_, lookup_insert _, rfl⟩
    · rw [lookup_insert_ne hid]
      exact ⟨r, hr, rfl⟩
  · exact ⟨r, hr, rfl⟩

variable {callId : Nat}

/-- A step that puts a call into the table and keeps the compensations and the reversals
that are there keeps the invariant, when that call knows its legs. -/
theorem ResolverInv.insert_call (h : ResolverInv s)
    (hcalls : s'.calls = s.calls.insert callId call) (htables : s'.tables = s.tables)
    (hcompensations : s'.compensations = s.compensations)
    (hkept : ∀ legId, s.reversalsOf legId ≠ [] → s'.reversalsOf legId ≠ [])
    (hreversals : ∀ r ∈ s'.reversals, ∃ row, Loaded s.tables r.legId row)
    (hcall : CallKnows s' call) : ResolverInv s' := by
  refine ⟨fun id c hc => ?_, fun r hr => htables ▸ hreversals r hr⟩
  rw [hcalls] at hc
  by_cases hid : id = callId
  · subst hid
    rw [lookup_insert] at hc
    cases hc
    exact hcall
  · rw [lookup_insert_ne hid] at hc
    refine (h.calls id c hc).mono htables (fun id row hrow => ?_) hkept
    exact ⟨row, hcompensations ▸ hrow, rfl⟩

theorem CallKnows.same (h : CallKnows s call) (htables : s'.tables = s.tables)
    (hcompensations : s'.compensations = s.compensations)
    (hkept : ∀ legId, s.reversalsOf legId ≠ [] → s'.reversalsOf legId ≠ []) : CallKnows s' call :=
  h.mono htables (fun _ row hrow => ⟨row, hcompensations ▸ hrow, rfl⟩) hkept

theorem resolverInv_reverseNext (env : CreateEnv) (h : ResolverInv s)
    (hcall : s.calls.lookup callId = some call) :
    ResolverInv
      { (reverseNext env s call).1 with
        calls := s.calls.insert callId (reverseNext env s call).2 } := by
  have hknows := h.calls callId call hcall
  cases hlegs : call.legs with
  | nil =>
      have hnext : reverseNext env s call = (s, call) := by
        unfold reverseNext
        rw [hlegs]
      rw [hnext]
      exact h.insert_call rfl rfl rfl (fun _ hne => hne) h.reversals
        (hknows.same rfl rfl (fun _ hne => hne))
  | cons p rest =>
      obtain ⟨leg, rev⟩ := p
      obtain ⟨row, hloaded, -, -⟩ := hknows.madeOf (leg, rev) (hlegs ▸ mem_cons_self)
      obtain ⟨flow, resp, hcall', hcases⟩ := reverseNext_cases (s := s) env hlegs rfl
      rw [hcall']
      rcases hcases with ⟨-, hresp, hstate⟩ | ⟨-, hresp, hstate⟩
      · rw [hstate]
        refine h.insert_call rfl rfl rfl (fun _ hne => hne) h.reversals ?_
        apply CallKnows.next ?_ hlegs
        · intro hok
          rw [hresp] at hok
          cases hok
        · exact hknows.same rfl rfl (fun _ hne => hne)
      · rw [hstate]
        have hkept : ∀ (calls : Table Nat ReverseCall) order legId, s.reversalsOf legId ≠ [] →
            reversalsOf
              { s with flow, calls, reversals := s.reversals ++ [⟨leg.legId, order⟩] } legId ≠
                [] := by
          intro calls order legId hne
          rw [reversalsOf_append]
          split
          · simp
          · exact hne
        refine h.insert_call rfl rfl rfl (hkept _ _) (fun r hr => ?_) ?_
        · rcases mem_append.mp hr with hold | hnew
          · exact h.reversals r hold
          · rw [mem_singleton] at hnew
            subst hnew
            exact ⟨row, hloaded⟩
        · apply CallKnows.next ?_ hlegs
          · dsimp only
            rw [reversalsOf_append]
            simp
          · exact hknows.same rfl rfl (hkept _ _)

theorem resolverInv_finishResolve (rpc : RpcOutcome) (rpcMessage : String) (h : ResolverInv s)
    (hcall : s.calls.lookup callId = some call) :
    ResolverInv { (finishResolve rpc rpcMessage s call).1 with calls := s.calls.erase callId } := by
  have hknows := h.calls callId call hcall
  obtain ⟨row, hrow, -⟩ := hknows.legs
  rw [finishResolve_state]
  refine ⟨fun id c hc => ?_, h.reversals⟩
  have hne : id ≠ callId := by
    rintro rfl
    rw [lookup_erase] at hc
    cases hc
  rw [lookup_erase_ne hne] at hc
  refine (h.calls id c hc).mono rfl ?_ (fun _ hne => hne)
  split
  · exact fun _ r hr => ⟨r, hr, rfl⟩
  · exact parent_resolvePending hknows.checked hrow

theorem resolverInv_step (e : ResolveEvent) (h : ResolverInv s) : ResolverInv (s.step e) := by
  cases e with
  | orderFlow call =>
      exact ⟨fun id c hc => (h.calls id c hc).same rfl rfl (fun _ hne => hne), h.reversals⟩
  | start callId env req =>
      simp only [step]
      cases hlookup : s.calls.lookup callId with
      | some call => exact h
      | none =>
          cases hstart : startResolve env s req with
          | answered response => exact h
          | thrown => exact h
          | reversing call =>
              exact h.insert_call rfl rfl rfl (fun _ hne => hne) h.reversals
                ((callKnows_startResolve hstart).same rfl rfl (fun _ hne => hne))
  | finish callId rpc rpcMessage =>
      simp only [step, onCall]
      cases hcall : s.calls.lookup callId with
      | none => exact h
      | some call =>
          dsimp only
          split
          · exact resolverInv_finishResolve rpc rpcMessage h hcall
          · exact h
  | create callId env =>
      simp only [step, onCall]
      cases hcall : s.calls.lookup callId with
      | none => exact h
      | some call => exact resolverInv_reverseNext env h hcall

theorem reversedOnce_reverseNext_iff (env : CreateEnv) (hinv : ResolverInv s)
    (hsafe : ReversedOnce s) (hcall : s.calls.lookup callId = some call) :
    ReversedOnce
        { (reverseNext env s call).1 with
          calls := s.calls.insert callId (reverseNext env s call).2 } ↔
      ResolveOk s (.create callId env) := by
  have hok : ResolveOk s (.create callId env) ↔
      ∀ leg rev rest, call.legs = (leg, rev) :: rest →
        PassesGates env s.flow (reversingOrder call.req.compensationId call.userId leg rev) →
        Persists env s.flow (reversingOrder call.req.compensationId call.userId leg rev) →
        s.reversalsOf leg.legId = [] ∧
          ∀ row, s.tables.legs.lookup leg.legId = some row → FitsDecimal row.filledCum := by
    constructor
    · intro h leg rev rest
      exact h call leg rev rest hcall
    · intro h c leg rev rest hc
      rw [hcall] at hc
      cases hc
      exact h leg rev rest
  rw [hok]
  cases hlegs : call.legs with
  | nil =>
      have hnext : reverseNext env s call = (s, call) := by
        unfold reverseNext
        rw [hlegs]
      rw [hnext]
      refine iff_of_true ⟨hsafe.resolved, hsafe.reversed⟩ (fun leg rev rest h => ?_)
      cases h
  | cons p rest =>
      obtain ⟨leg, rev⟩ := p
      have hmade := (hinv.calls callId call hcall).madeOf (leg, rev) (hlegs ▸ mem_cons_self)
      obtain ⟨flow, resp, hcall', hcases⟩ := reverseNext_cases (s := s) env hlegs rfl
      simp only [List.cons.injEq, Prod.mk.injEq]
      rcases hcases with ⟨hrefused, -, hstate⟩ | ⟨⟨hgates, hrow⟩, -, hstate⟩
      · rw [hstate]
        refine iff_of_true ⟨hsafe.resolved, hsafe.reversed⟩ ?_
        rintro _ _ _ ⟨⟨rfl, rfl⟩, -⟩ hgates hrow
        exact absurd ⟨hgates, hrow⟩ hrefused
      · rw [hstate]
        rw [reversedOnce_append_iff hsafe hmade hgates.valid]
        constructor
        · rintro h _ _ _ ⟨⟨rfl, rfl⟩, -⟩ - -
          exact h
        · intro h
          exact h leg rev rest ⟨⟨rfl, rfl⟩, rfl⟩ hgates hrow

/-- All filled internal legs of a finished call are reversed exactly when no create that
it made leaves its leg without a reversing order and the query missed no leg. -/
theorem reversed_all_iff (hinv : ResolverInv s) (hcall : s.calls.lookup callId = some call)
    (hlegs : call.legs = []) (haction : call.req.action ≠ "accept")
    (hrow : s.compensations.lookup call.req.compensationId = some row) :
    (∀ legId leg, FilledInternal s.tables row.parentOrderId legId leg →
        s.reversalsOf legId ≠ []) ↔
      (∀ m ∈ call.made, m.2.accepted = true ∨ s.reversalsOf m.1.legId ≠ []) ∧
        ∀ legId leg, FilledInternal s.tables row.parentOrderId legId leg →
          leg.venuePreferences = [] ∨ leg.venuePreferences = [internalVenue] := by
  have hknows := hinv.calls callId call hcall
  obtain ⟨row', hrow', hall⟩ := hknows.legs
  obtain rfl : row' = row := some_inj.mp (hrow'.symm.trans hrow)
  have hmade := hall haction
  rw [hlegs, map_nil, append_nil] at hmade
  constructor
  · intro h
    constructor
    · intro m hm
      have hmem : m.1 ∈ (loadInternalFilledLegs s.tables row'.parentOrderId).legs :=
        hmade ▸ mem_map_of_mem hm
      obtain ⟨legId, leg, hloaded, hparent, hleg⟩ := mem_loadInternalFilledLegs.mp hmem
      rw [hleg]
      exact .inr (h legId leg (hparent ▸ hloaded.filledInternal))
    · intro legId leg hleg
      obtain ⟨r, hr, hrleg⟩ := (reversalsOf_ne_nil_iff s legId).mp (h legId leg hleg)
      obtain ⟨leg', hloaded⟩ := hinv.reversals r hr
      rw [hrleg] at hloaded
      obtain rfl : leg' = leg := some_inj.mp (hloaded.1.symm.trans hleg.leg)
      exact hleg.loaded_iff.mp hloaded
  · rintro ⟨haccepted, hvenues⟩ legId leg hleg
    have hloaded := hleg.loaded_iff.mpr (hvenues legId leg hleg)
    have hmem : leg.toReversalLeg legId ∈ call.made.map Prod.fst := by
      rw [hmade]
      exact mem_loadInternalFilledLegs.mpr ⟨legId, leg, hloaded, hleg.parent, rfl⟩
    obtain ⟨m, hm, hmleg⟩ := List.mem_map.mp hmem
    have hid : m.1.legId = legId := by
      rw [hmleg]
      rfl
    rw [← hid]
    rcases haccepted m hm with hok | hdone
    · exact hknows.accepted m hm hok
    · exact hdone

theorem reversedOnce_finishResolve_iff (rpc : RpcOutcome) (rpcMessage : String)
    (hinv : ResolverInv s) (hsafe : ReversedOnce s) (hcall : s.calls.lookup callId = some call)
    (hlegs : call.legs = []) :
    ReversedOnce
        { (finishResolve rpc rpcMessage s call).1 with calls := s.calls.erase callId } ↔
      ResolveOk s (.finish callId rpc rpcMessage) := by
  have hknows := hinv.calls callId call hcall
  obtain ⟨row, hrow, -⟩ := hknows.legs
  have hok : ResolveOk s (.finish callId rpc rpcMessage) ↔
      (call.req.action ≠ "accept" → rpc ≠ .notSent → row.status = .pending →
        ∀ legId leg, FilledInternal s.tables row.parentOrderId legId leg →
          s.reversalsOf legId ≠ []) := by
    constructor
    · intro h haction hsent hpending
      rw [reversed_all_iff hinv hcall hlegs haction hrow]
      exact h call row hcall hlegs haction hsent hrow hpending
    · intro h c r hc _ haction hsent hr hpending
      rw [hcall] at hc
      cases hc
      rw [hrow] at hr
      cases hr
      exact (reversed_all_iff hinv hcall hlegs haction hrow).mp (h haction hsent hpending)
  rw [hok, finishResolve_state]
  by_cases hsent : rpc = .notSent
  · subst hsent
    refine iff_of_true ⟨hsafe.resolved, hsafe.reversed⟩ ?_
    intro _ hsent
    exact absurd rfl hsent
  · rw [if_neg hsent, resolvePending_state _ hknows.checked hrow]
    by_cases hpending : row.status = .pending
    · rw [if_pos hpending]
      constructor
      · intro h haction _ _ legId leg hleg
        refine h.resolved call.req.compensationId _ (lookup_insert _) ?_ legId leg hleg
        exact if_neg haction
      · intro h
        refine ⟨fun id r hr hstatus legId leg hleg => ?_, hsafe.reversed⟩
        by_cases hid : id = call.req.compensationId
        · subst hid
          rw [lookup_insert] at hr
          cases hr
          by_cases haction : call.req.action = "accept"
          · rw [if_pos haction] at hstatus
            cases hstatus
          · exact h haction hsent hpending legId leg hleg
        · rw [lookup_insert_ne hid] at hr
          exact hsafe.resolved id r hr hstatus legId leg hleg
    · rw [if_neg hpending]
      refine iff_of_true ⟨hsafe.resolved, hsafe.reversed⟩ ?_
      intro _ _ h
      exact absurd h hpending

theorem reversedOnce_step_iff (e : ResolveEvent) (hinv : ResolverInv s) (hsafe : ReversedOnce s) :
    ReversedOnce (s.step e) ↔ ResolveOk s e := by
  cases e with
  | orderFlow call => exact iff_of_true ⟨hsafe.resolved, hsafe.reversed⟩ trivial
  | start callId env req =>
      refine iff_of_true ?_ trivial
      simp only [step]
      cases s.calls.lookup callId with
      | some call => exact hsafe
      | none =>
          cases startResolve env s req with
          | answered response => exact hsafe
          | thrown => exact hsafe
          | reversing call => exact ⟨hsafe.resolved, hsafe.reversed⟩
  | create callId env =>
      simp only [step, onCall]
      cases hcall : s.calls.lookup callId with
      | none =>
          refine iff_of_true hsafe (fun call leg rev rest h => ?_)
          rw [hcall] at h
          cases h
      | some call => exact reversedOnce_reverseNext_iff env hinv hsafe hcall
  | finish callId rpc rpcMessage =>
      simp only [step, onCall]
      cases hcall : s.calls.lookup callId with
      | none =>
          refine iff_of_true hsafe (fun call row h => ?_)
          rw [hcall] at h
          cases h
      | some call =>
          dsimp only
          by_cases hlegs : call.legs = []
          · rw [if_pos hlegs]
            exact reversedOnce_finishResolve_iff rpc rpcMessage hinv hsafe hcall hlegs
          · rw [if_neg hlegs]
            refine iff_of_true hsafe (fun c row h hdone => ?_)
            rw [hcall] at h
            cases h
            exact absurd hdone hlegs

end Steps

/-- The services before the first call: every compensation is pending. -/
structure PendingResolver where
  flow : OrderFlowUseCases := {}
  tables : ComboTables := {}
  compensations : Compensations
  pending : ∀ id row, compensations.lookup id = some row → row.status = .pending

/-- The state from which the calls start. -/
def PendingResolver.start (p : PendingResolver) : Resolver where
  flow := p.flow
  tables := p.tables
  compensations := p.compensations

/-- In every run of calls, in whatever order their steps come and whatever fails, the
compensations are reversed once after every step exactly when every step meets the
condition. -/
theorem reversed_once_iff (p : PendingResolver) (es : List ResolveEvent) :
    StepsMeet Resolver.step (fun s e => ReversedOnce (s.step e)) p.start es ↔
      StepsMeet Resolver.step ResolveOk p.start es := by
  have hinv : ResolverInv p.start := by
    constructor
    · intro callId call hcall
      cases hcall
    · intro r hr
      cases hr
  have hsafe : ReversedOnce p.start := by
    constructor
    · intro id row hrow hstatus
      rw [p.pending id row hrow] at hstatus
      cases hstatus
    · intro parentOrderId legId leg _
      exact .inl rfl
  exact stepsMeet_iff (fun _ e h => resolverInv_step e h)
    (fun _ e hinv hsafe => reversedOnce_step_iff e hinv hsafe) hinv hsafe

def filledLeg : ComboLegRow where
  parentOrderId := "c1"
  instrumentSymbol := "BTC/USDT"
  side := "buy"
  ratio := some ⟨10 ^ 18⟩
  weight := none
  ratioBasis := some "quantity_ratio"
  pLow := ⟨90 * 10 ^ 18⟩
  pHigh := ⟨100 * 10 ^ 18⟩
  qRate := ⟨10 ^ 18⟩
  qMax := ⟨10 ^ 18⟩
  filledCum := ⟨10 ^ 18⟩
  venuePreferences := []
  status := "filled"

def compensatedCombo : ComboOrderRow where
  comboType := "pair"
  executionMode := "multileg_vector_solver"
  status := "active"
  ratioBasis := some "quantity_ratio"
  atomicityPolicy := "external_compensating"
  atomicityScope := "external_compensating"
  fallbackPolicy := "compensate"
  minExecutionScale := none
  maxRatioDeviationBps := none
  userId := some "demo-user"
  accountId := none

def demoPending : PendingResolver where
  flow := demoStart
  tables :=
    { comboOrders := (∅ : Table String ComboOrderRow).insert "c1" compensatedCombo
      legs := (∅ : Table String ComboLegRow).insert "l1" filledLeg }
  compensations := (∅ : Compensations).insert "k1" { parentOrderId := "c1" }
  pending := by
    intro id row hrow
    by_cases hid : id = "k1"
    · subst hid
      rw [AList.lookup_insert] at hrow
      cases hrow
      rfl
    · rw [AList.lookup_insert_ne hid] at hrow
      cases hrow

/-- The operator asks for the reversal. -/
def reverseRequest : ResolveCompensationRequest where
  compensationId := "k1"
  action := "reverse_internal"
  operatorId := "operator-1"

def refusedRun : List ResolveEvent :=
  [.start 0 {} reverseRequest, .create 0 { riskReachable := false }, .finish 0 .answered ""]

/-- A call whose resolution is lost, and the next round of the auto loop. -/
def retriedRun : List ResolveEvent :=
  [.start 0 {} reverseRequest, .create 0 {}, .finish 0 .notSent "",
    .start 1 {} { reverseRequest with operatorId := "auto:reverse_internal" }, .create 1 {}]

/-- The refused create is resolved without a reversing order, the retry reverses twice. -/
theorem refused_and_retried :
    ¬ ReversedOnce (run Resolver.step demoPending.start refusedRun) ∧
      ¬ ReversedOnce (run Resolver.step demoPending.start retriedRun) := by
  have hleg : FilledInternal demoPending.tables "c1" "l1" filledLeg :=
    ⟨by decide, by decide, rfl, .inl rfl, by decide⟩
  constructor
  · intro h
    have hresolved : (run Resolver.step demoPending.start refusedRun).compensations.lookup "k1" =
        some
          { parentOrderId := "c1"
            status := .resolved
            resolutionAction := some "reverse_internal"
            operatorId := some "operator-1"
            resolvingRef := some "" } := by
      decide
    have hnone : (run Resolver.step demoPending.start refusedRun).reversalsOf "l1" = [] := by
      decide
    exact h.resolved "k1" _ hresolved rfl "l1" filledLeg hleg hnone
  · intro h
    have htwice : ((run Resolver.step demoPending.start retriedRun).reversalsOf "l1").map
        (fun o => o.total) = [Decimal.of 1 0, Decimal.of 1 0] := by
      decide
    rcases h.reversed "c1" "l1" filledLeg hleg with hnone | htotal
    · rw [hnone] at htwice
      cases htwice
    · have hquantity := htotal.quantity
      have hmap := congrArg (List.map Decimal.toRat) htwice
      rw [List.map_map] at hmap
      change (List.map (Decimal.toRat ∘ _) _).sum = _ at hquantity
      rw [hmap] at hquantity
      norm_num [Decimal.toRat, Decimal.of, PgNumeric.toRat, filledLeg] at hquantity

end OrderFlow
end ContExchange
