import ContExchange.Matching.Emit

/-!
# Matching: what the allocation does

The facts about the three allocation phases that the properties of the solver
rest on.

* `SameOn`: what is allocated to a symbol depends only on its own planned legs
  (`allocate_sameOn`), so one symbol can be looked at alone.
* `LegOk`: no step takes a leg beyond its maximal quantity (`LegOk.steps`).
* `Allocated`: every leg is filled by steps of the phases or by the shortcut
  (`allocated_of_mem`).
-/

namespace ContExchange
namespace Matching

open Common Lib List

namespace PlannedLegFill

/-- The planned part of a leg, without what has been allocated to it. -/
def plan (p : PlannedLegFill) : PlannedLegFill :=
  { p with actualLegQty := 0, internalLegQty := 0, externalLegQty := 0 }

end PlannedLegFill

theorem onSymbol_iff {symbol : String} {p : PlannedLegFill} :
    onSymbol symbol p = true ↔ p.symbol = symbol := by
  unfold onSymbol
  exact decide_eq_true_iff

theorem onSide_iff {symbol : String} {side : Side} {p : PlannedLegFill} :
    onSide symbol side p = true ↔ p.symbol = symbol ∧ p.side = side := by
  unfold onSide
  exact decide_eq_true_iff

section SamePlan

variable {p q : PlannedLegFill}

theorem symbol_of_plan (h : p.plan = q.plan) : p.symbol = q.symbol := by
  have := congrArg PlannedLegFill.symbol h
  exact this

theorem side_of_plan (h : p.plan = q.plan) : p.side = q.side := by
  have := congrArg PlannedLegFill.side h
  exact this

theorem order_of_plan (h : p.plan = q.plan) : p.order = q.order := by
  have := congrArg PlannedLegFill.order h
  exact this

theorem clearPrice_of_plan (h : p.plan = q.plan) : p.clearPrice = q.clearPrice := by
  have := congrArg PlannedLegFill.clearPrice h
  exact this

theorem onSymbol_of_plan (h : p.plan = q.plan) (symbol : String) :
    onSymbol symbol p = onSymbol symbol q := by
  unfold onSymbol
  rw [symbol_of_plan h]

theorem onSide_of_plan (h : p.plan = q.plan) (symbol : String) (side : Side) :
    onSide symbol side p = onSide symbol side q := by
  unfold onSide
  rw [symbol_of_plan h, side_of_plan h]

theorem onSymbol_of_onSide {symbol : String} {side : Side} (h : onSide symbol side p = true) :
    onSymbol symbol p = true := by
  unfold onSide at h
  unfold onSymbol
  simp only [decide_eq_true_eq] at h ⊢
  exact h.1

theorem onSide_ne_of_symbol_ne {s t : String} {side : Side} (hne : t ≠ s)
    (h : onSide t side p = true) : onSymbol s p = false := by
  unfold onSide at h
  unfold onSymbol
  simp only [decide_eq_true_eq, decide_eq_false_iff_not] at h ⊢
  rw [h.1]
  exact hne

end SamePlan

theorem plan_internalStep (ratio : ℚ) (qtys : ℕ → ℚ) (p : PlannedLegFill) :
    (internalStep ratio qtys p).2.plan = p.plan := by
  unfold internalStep
  dsimp only
  split <;> rfl

theorem plan_externalStep (call : ExternalCall) (s : ExternalPass) (p : PlannedLegFill) :
    (call.step s p).2.plan = p.plan := by
  unfold ExternalCall.step
  split
  · rfl
  · split
    · rfl
    · split <;> rfl

theorem plan_shortcutStep (qtys : ℕ → ℚ) (p : PlannedLegFill) :
    (shortcutStep qtys p).2.plan = p.plan := rfl

/-- A loop over one side whose body keeps the plan of a leg depends only on the
legs of the symbol and on what the body reads of the accumulator. -/
theorem forEach_sameOn {σ : Type*} {body : σ → PlannedLegFill → σ × PlannedLegFill}
    (E : σ → σ → Prop) (hplan : ∀ s p, (body s p).2.plan = p.plan)
    (hbody : ∀ s t p, E s t → E (body s p).1 (body t p).1 ∧ (body s p).2 = (body t p).2)
    {symbol : String} (side : Side) {s t : σ} {ps qs : List PlannedLegFill} (hst : E s t)
    (h : ps.filter (onSymbol symbol) = qs.filter (onSymbol symbol)) :
    (forEach (onSide symbol side) body s ps).2.filter (onSymbol symbol) =
      (forEach (onSide symbol side) body t qs).2.filter (onSymbol symbol) := by
  have hkeep : ∀ p, onSide symbol side p = true → onSymbol symbol p = true :=
    fun p hp => onSymbol_of_onSide hp
  have hkept : ∀ s p, onSide symbol side p = true → onSymbol symbol (body s p).2 = true := by
    intro s p hp
    rw [onSymbol_of_plan (hplan s p)]
    exact hkeep p hp
  rw [(forEach_filter (onSymbol symbol) hkeep hkept s ps).2,
    (forEach_filter (onSymbol symbol) hkeep hkept t qs).2, h,
    (forEach_sim E hbody hst _).2]

theorem forEach_other {σ : Type*} {body : σ → PlannedLegFill → σ × PlannedLegFill}
    (hplan : ∀ s p, (body s p).2.plan = p.plan) {symbol other : String} (hne : other ≠ symbol)
    (side : Side) (s : σ) (ps : List PlannedLegFill) :
    (forEach (onSide other side) body s ps).2.filter (onSymbol symbol) =
      ps.filter (onSymbol symbol) := by
  apply forEach_filter_of_disjoint
  · intro p hp
    exact onSide_ne_of_symbol_ne hne hp
  · intro s p hp
    rw [onSymbol_of_plan (hplan s p)]
    exact onSide_ne_of_symbol_ne hne hp

/-- Two allocations agree on the legs of a symbol. -/
def SameOn (symbol : String) (a b : Allocation) : Prop :=
  a.fills.filter (onSymbol symbol) = b.fills.filter (onSymbol symbol)

section SameOn

variable {symbol : String} {a b : Allocation}

theorem SameOn.sumOn (h : SameOn symbol a b) (side : Side) (f : PlannedLegFill → ℚ) :
    sumOn (onSide symbol side) f a.fills = sumOn (onSide symbol side) f b.fills := by
  have hkeep : ∀ p, onSide symbol side p = true → onSymbol symbol p = true :=
    fun p hp => onSymbol_of_onSide hp
  rw [← sumOn_filter (onSymbol symbol) hkeep, ← sumOn_filter (onSymbol symbol) hkeep b.fills]
  exact congrArg _ h

theorem SameOn.allocateInternalSide (h : SameOn symbol a b) (side : Side) (targetTotal : ℚ) :
    SameOn symbol (allocateInternalSide symbol side targetTotal a)
      (allocateInternalSide symbol side targetTotal b) := by
  have hsum : requestedRemaining symbol side a.fills =
      requestedRemaining symbol side b.fills := h.sumOn side _
  unfold Matching.allocateInternalSide
  dsimp only
  rw [hsum]
  split
  · exact h
  · refine forEach_sameOn (fun _ _ => True) (plan_internalStep _) ?_ side trivial h
    intro s t p _
    refine ⟨trivial, ?_⟩
    unfold internalStep
    dsimp only
    split <;> rfl

theorem SameOn.allocateExternalSide
    (inp : SolveInput) (h : SameOn symbol a b) (side : Side) (improve : Bool) :
    SameOn symbol (allocateExternalSide inp symbol side improve a)
      (allocateExternalSide inp symbol side improve b) := by
  have htarget : capacityRemaining symbol side a.fills =
      capacityRemaining symbol side b.fills := h.sumOn side _
  have hconsumed := h.sumOn side PlannedLegFill.externalLegQty
  unfold Matching.allocateExternalSide
  dsimp only
  rw [htarget, hconsumed]
  cases inp.externalLiquidity.lookup symbol with
  | none => exact h
  | some curve =>
      dsimp only
      split
      · exact h
      · refine forEach_sameOn
          (fun s t => s.allocated = t.allocated ∧ s.consumed = t.consumed)
          (plan_externalStep _) ?_ side ⟨rfl, rfl⟩ h
        intro s t p hst
        obtain ⟨hallocated, hconsumed⟩ := hst
        unfold ExternalCall.step ExternalCall.quantity ExternalCall.remainingCapacity
        rw [hallocated, hconsumed]
        split
        · exact ⟨⟨hallocated, hconsumed⟩, rfl⟩
        · split
          · exact ⟨⟨hallocated, hconsumed⟩, rfl⟩
          · split
            · exact ⟨⟨hallocated, hconsumed⟩, rfl⟩
            · exact ⟨⟨rfl, rfl⟩, rfl⟩

theorem SameOn.shortcutSide (h : SameOn symbol a b) (side : Side) :
    SameOn symbol (shortcutSide symbol side a) (shortcutSide symbol side b) :=
  forEach_sameOn (fun _ _ => True) plan_shortcutStep (fun _ _ _ _ => ⟨trivial, rfl⟩) side trivial h

theorem SameOn.externalImprove (inp : SolveInput) (h : SameOn symbol a b) :
    SameOn symbol (externalImprove inp symbol a) (externalImprove inp symbol b) :=
  (h.allocateExternalSide inp .buy true).allocateExternalSide inp .sell true

theorem SameOn.internalCross (h : SameOn symbol a b) :
    SameOn symbol (internalCross symbol a) (internalCross symbol b) := by
  have htotal : internalTotal symbol a.fills = internalTotal symbol b.fills := by
    unfold internalTotal requestedRemaining
    rw [h.sumOn .buy, h.sumOn .sell]
  unfold Matching.internalCross
  rw [htotal]
  exact (h.allocateInternalSide .buy _).allocateInternalSide .sell _

theorem SameOn.externalResidual (inp : SolveInput) (h : SameOn symbol a b) :
    SameOn symbol (externalResidual inp symbol a) (externalResidual inp symbol b) := by
  have hbuy : requestedRemaining symbol .buy a.fills =
      requestedRemaining symbol .buy b.fills := h.sumOn .buy _
  have hsell : requestedRemaining symbol .sell a.fills =
      requestedRemaining symbol .sell b.fills := h.sumOn .sell _
  unfold Matching.externalResidual
  dsimp only
  rw [hbuy, hsell]
  split
  · exact h.allocateExternalSide inp .buy false
  · split
    · exact h.allocateExternalSide inp .sell false
    · exact h

theorem SameOn.allSingleLeg (h : SameOn symbol a b) :
    Matching.allSingleLeg symbol a.fills = Matching.allSingleLeg symbol b.fills := by
  have hfilter : ∀ ps : List PlannedLegFill, Matching.allSingleLeg symbol ps =
      (ps.filter (onSymbol symbol)).all (fun p => decide (p.order.legs.length = 1)) := by
    intro ps
    unfold Matching.allSingleLeg
    rw [all_filter]
  rw [hfilter, hfilter, h]

theorem SameOn.allocateSymbol (inp : SolveInput) (h : SameOn symbol a b) :
    SameOn symbol (allocateSymbol inp a symbol) (allocateSymbol inp b symbol) := by
  unfold Matching.allocateSymbol
  rw [h.allSingleLeg]
  split
  · exact ((h.externalImprove inp).internalCross).externalResidual inp
  · exact (h.shortcutSide .buy).shortcutSide .sell

end SameOn

section OtherSymbols

variable {symbol other : String} (a : Allocation)

theorem sameOn_allocateInternalSide_other (hne : other ≠ symbol) (side : Side) (targetTotal : ℚ) :
    SameOn symbol (allocateInternalSide other side targetTotal a) a := by
  unfold allocateInternalSide
  dsimp only
  split
  · rfl
  · exact forEach_other (plan_internalStep _) hne side _ _

theorem sameOn_allocateExternalSide_other (inp : SolveInput) (hne : other ≠ symbol) (side : Side)
    (improve : Bool) : SameOn symbol (allocateExternalSide inp other side improve a) a := by
  unfold allocateExternalSide
  dsimp only
  cases inp.externalLiquidity.lookup other with
  | none => rfl
  | some curve =>
      dsimp only
      split
      · rfl
      · exact forEach_other (plan_externalStep _) hne side _ _

theorem sameOn_shortcutSide_other (hne : other ≠ symbol) (side : Side) :
    SameOn symbol (shortcutSide other side a) a :=
  forEach_other plan_shortcutStep hne side _ _

theorem sameOn_allocateSymbol_other (inp : SolveInput) (hne : other ≠ symbol) :
    SameOn symbol (allocateSymbol inp a other) a := by
  unfold allocateSymbol
  split
  · have himprove : SameOn symbol (externalImprove inp other a) a :=
      (sameOn_allocateExternalSide_other _ inp hne .sell true).trans
        (sameOn_allocateExternalSide_other a inp hne .buy true)
    have hcross : SameOn symbol (internalCross other (externalImprove inp other a))
        (externalImprove inp other a) :=
      (sameOn_allocateInternalSide_other _ hne .sell _).trans
        (sameOn_allocateInternalSide_other _ hne .buy _)
    refine Eq.trans ?_ (hcross.trans himprove)
    unfold externalResidual
    dsimp only
    split
    · exact sameOn_allocateExternalSide_other _ inp hne .buy false
    · split
      · exact sameOn_allocateExternalSide_other _ inp hne .sell false
      · rfl
  · exact (sameOn_shortcutSide_other _ hne .sell).trans (sameOn_shortcutSide_other a hne .buy)

end OtherSymbols

def planned (inp : SolveInput) : Allocation :=
  { fills := plannedFills inp, actualOrderQty := fun _ => 0 }

theorem allocate_sameOn (inp : SolveInput) {symbol : String}
    (h : symbol ∈ planSymbols (plannedFills inp)) :
    SameOn symbol (allocate inp) (allocateSymbol inp (planned inp) symbol) := by
  have hfold : ∀ (symbols : List String) (a : Allocation), symbols.Nodup →
      (symbol ∉ symbols → SameOn symbol (symbols.foldl (allocateSymbol inp) a) a) ∧
        (symbol ∈ symbols →
          SameOn symbol (symbols.foldl (allocateSymbol inp) a) (allocateSymbol inp a symbol)) := by
    intro symbols
    induction symbols with
    | nil =>
        intro a _
        exact ⟨fun _ => rfl, fun hmem => absurd hmem (by simp)⟩
    | cons t ts ih =>
        intro a hnodup
        obtain ⟨hnot, hnodup'⟩ := nodup_cons.mp hnodup
        obtain ⟨ihOut, ihIn⟩ := ih (allocateSymbol inp a t) hnodup'
        refine ⟨?_, ?_⟩
        · intro hout
          rw [mem_cons, not_or] at hout
          obtain ⟨hne, hout'⟩ := hout
          exact (ihOut hout').trans (sameOn_allocateSymbol_other a inp (fun heq => hne heq.symm))
        · intro hin
          rcases mem_cons.mp hin with rfl | hin'
          · exact ihOut hnot
          · have hne : t ≠ symbol := by
              rintro rfl
              exact hnot hin'
            exact (ihIn hin').trans ((sameOn_allocateSymbol_other a inp hne).allocateSymbol inp)
  exact (hfold _ _ (nodup_dedup _)).2 h

theorem mem_iff_of_sameOn {symbol : String} {a b : Allocation} (h : SameOn symbol a b)
    {q : PlannedLegFill} (hq : q.symbol = symbol) : q ∈ a.fills ↔ q ∈ b.fills := by
  have hfilter : ∀ c : Allocation, q ∈ c.fills ↔ q ∈ c.fills.filter (onSymbol symbol) := by
    intro c
    rw [mem_filter]
    exact ⟨fun hc => ⟨hc, onSymbol_iff.mpr hq⟩, fun hc => hc.1⟩
  rw [hfilter a, hfilter b, h]

/-- What the allocation of a symbol with single-leg orders may do to a leg: add
internal quantity within its request, or external quantity within its maximum. -/
inductive LegStep : PlannedLegFill → PlannedLegFill → Prop
  | same (p : PlannedLegFill) : LegStep p p
  | internal (p : PlannedLegFill) (qty : ℚ)
      (pos : kQtyEps < qty) (le : qty ≤ p.shortfall) :
      LegStep p (p.addInternal qty)
  | external (p : PlannedLegFill) (qty : ℚ)
      (pos : kQtyEps < qty) (le : qty ≤ p.headroom) :
      LegStep p (p.addExternal qty)

theorem kQtyEps_pos : 0 < kQtyEps := by
  norm_num [kQtyEps]

theorem clampFromZero_le (v hi : ℚ) : clampFromZero v hi ≤ hi :=
  min_le_right _ _

theorem shortfall_nonneg (p : PlannedLegFill) : 0 ≤ p.shortfall :=
  le_max_left _ _

theorem legStep_internalStep {ratio : ℚ} (hratio : ratio ≤ 1) (qtys : ℕ → ℚ) (p : PlannedLegFill) :
    LegStep p (internalStep ratio qtys p).2 := by
  unfold internalStep
  dsimp only
  split
  · exact .same p
  · refine .internal p _ (by linarith) ?_
    exact mul_le_of_le_one_right (shortfall_nonneg p) hratio

theorem remainingCapacity_le_headroom (call : ExternalCall) (s : ExternalPass)
    (p : PlannedLegFill) : call.remainingCapacity s p ≤ p.headroom := by
  unfold ExternalCall.remainingCapacity PlannedLegFill.headroom
  dsimp only
  apply max_le_max le_rfl
  apply sub_le_sub_right
  split
  · exact le_rfl
  · exact min_le_left _ _

/-- The inversion lemma of the external loop: nothing happens, or the leg gets a
quantity that respects the target, its headroom and the depth of the curve. -/
theorem externalStep_cases (call : ExternalCall) (s : ExternalPass) (p : PlannedLegFill) :
    call.step s p = (s, p) ∨
      ∃ qty, kQtyEps < qty ∧
        qty ≤ call.targetTotal - s.allocated ∧
        qty ≤ p.headroom ∧
        s.consumed + qty ≤ call.maxTradable p ∧
        call.step s p =
          ({ allocated := s.allocated + qty
             consumed := s.consumed + qty
             actualOrderQty := updateActualOrderQty s.actualOrderQty (p.addExternal qty) },
            p.addExternal qty) := by
  unfold ExternalCall.step
  split
  · exact .inl rfl
  · split
    · exact .inl rfl
    · split
      · exact .inl rfl
      · rename_i htarget hcapacity hqty
        rw [not_le] at hqty
        have hle : call.quantity s p ≤ max 0 (call.maxTradable p - s.consumed) :=
          (min_le_right _ _).trans (min_le_right _ _)
        refine .inr ⟨call.quantity s p, hqty, min_le_left _ _, ?_, ?_, rfl⟩
        · exact ((min_le_right _ _).trans (min_le_left _ _)).trans
            (remainingCapacity_le_headroom call s p)
        · rcases le_max_iff.mp hle with h | h
          · exact absurd h (not_le.mpr (kQtyEps_pos.trans hqty))
          · linarith

theorem legStep_externalStep (call : ExternalCall) (s : ExternalPass) (p : PlannedLegFill) :
    LegStep p (call.step s p).2 := by
  rcases externalStep_cases call s p with h | ⟨qty, hpos, -, hle, -, h⟩
  · rw [h]
    exact .same p
  · rw [h]
    exact .external p qty hpos hle

/-- The legs of an allocation that steps one by one from another. -/
def LegSteps (ps qs : List PlannedLegFill) : Prop :=
  List.Forall₂ (Relation.ReflTransGen LegStep) ps qs

theorem LegSteps.refl (ps : List PlannedLegFill) : LegSteps ps ps :=
  forall₂_refl ps

theorem LegSteps.trans {ps qs rs : List PlannedLegFill} (h : LegSteps ps qs) (h' : LegSteps qs rs) :
    LegSteps ps rs :=
  forall₂_comp (fun _ _ _ hpq hqr => hpq.trans hqr) h h'

theorem legSteps_forEach {σ : Type*} {sel : PlannedLegFill → Bool}
    {body : σ → PlannedLegFill → σ × PlannedLegFill} (hbody : ∀ s p, LegStep p (body s p).2)
    (s : σ) (ps : List PlannedLegFill) : LegSteps ps (forEach sel body s ps).2 :=
  (forEach_rel (fun _ => True) (Relation.ReflTransGen LegStep)
    (fun s p _ _ => ⟨trivial, .single (hbody s p)⟩) (fun _ _ => .refl) trivial ps).2

section Legs

variable (inp : SolveInput) (symbol : String) (a : Allocation)

theorem legSteps_allocateInternalSide (side : Side) (targetTotal : ℚ) :
    LegSteps a.fills (allocateInternalSide symbol side targetTotal a).fills := by
  unfold allocateInternalSide
  dsimp only
  split
  · exact .refl _
  · exact legSteps_forEach (legStep_internalStep (clampFromZero_le _ _)) _ _

theorem legSteps_allocateExternalSide (side : Side) (improve : Bool) :
    LegSteps a.fills (allocateExternalSide inp symbol side improve a).fills := by
  unfold allocateExternalSide
  dsimp only
  cases inp.externalLiquidity.lookup symbol with
  | none => exact .refl _
  | some curve =>
      dsimp only
      split
      · exact .refl _
      · exact legSteps_forEach (legStep_externalStep _) _ _

theorem legSteps_externalImprove : LegSteps a.fills (externalImprove inp symbol a).fills :=
  (legSteps_allocateExternalSide inp symbol a .buy true).trans
    (legSteps_allocateExternalSide inp symbol _ .sell true)

theorem legSteps_internalCross : LegSteps a.fills (internalCross symbol a).fills :=
  (legSteps_allocateInternalSide symbol a .buy _).trans
    (legSteps_allocateInternalSide symbol _ .sell _)

theorem legSteps_externalResidual : LegSteps a.fills (externalResidual inp symbol a).fills := by
  unfold externalResidual
  dsimp only
  split
  · exact legSteps_allocateExternalSide inp symbol a .buy false
  · split
    · exact legSteps_allocateExternalSide inp symbol a .sell false
    · exact .refl _

end Legs

/-- A leg with what has been allocated to it, within its maximum. -/
structure LegOk (p : PlannedLegFill) : Prop where
  internal_nonneg : 0 ≤ p.internalLegQty
  external_nonneg : 0 ≤ p.externalLegQty
  actual_eq : p.actualLegQty = p.internalLegQty + p.externalLegQty
  requested_le : p.requestedLegQty ≤ p.maxLegQty
  actual_le : p.actualLegQty ≤ p.maxLegQty

variable {p q : PlannedLegFill}

theorem plan_of_legSteps (h : Relation.ReflTransGen LegStep p q) : q.plan = p.plan := by
  induction h with
  | refl => rfl
  | tail _ hstep ih =>
      rw [← ih]
      cases hstep <;> rfl

theorem LegOk.step (h : LegOk p) (hstep : LegStep p q) : LegOk q := by
  have hi := h.internal_nonneg
  have he := h.external_nonneg
  have ha := h.actual_eq
  have hr := h.requested_le
  have heps := kQtyEps_pos
  cases hstep with
  | same => exact h
  | internal qty pos le =>
      have hle : p.actualLegQty + qty ≤ p.requestedLegQty := by
        rcases le_max_iff.mp le with h₀ | h₁
        · linarith
        · linarith
      exact
        { internal_nonneg := by simp only [PlannedLegFill.addInternal]; linarith
          external_nonneg := he
          actual_eq := by simp only [PlannedLegFill.addInternal]; linarith
          requested_le := hr
          actual_le := by simp only [PlannedLegFill.addInternal]; linarith }
  | external qty pos le =>
      have hle : p.actualLegQty + qty ≤ p.maxLegQty := by
        rcases le_max_iff.mp le with h₀ | h₁
        · linarith
        · linarith
      exact
        { internal_nonneg := hi
          external_nonneg := by simp only [PlannedLegFill.addExternal]; linarith
          actual_eq := by simp only [PlannedLegFill.addExternal]; linarith
          requested_le := hr
          actual_le := hle }

theorem LegOk.steps (h : LegOk p) (hsteps : Relation.ReflTransGen LegStep p q) : LegOk q := by
  induction hsteps with
  | refl => exact h
  | tail _ hstep ih => exact ih.step hstep

structure PlanOk (inp : SolveInput) (p : PlannedLegFill) : Prop where
  fresh : p.actualLegQty = 0 ∧ p.internalLegQty = 0 ∧ p.externalLegQty = 0
  order : inp.orders[p.orderIndex]? = some p.order
  leg : ∃ leg ∈ p.order.legs,
    leg.instrumentSymbol = p.symbol ∧ p.weightAbs = |leg.weight.toRat| ∧
      p.side = if 0 < leg.weight.units then .buy else .sell
  requested_pos : kQtyEps < p.requestedLegQty
  requested_eq : p.requestedLegQty = p.orderQty * p.weightAbs
  orderQty_eq : p.orderQty =
    inp.executedRate p.orderIndex p.order * intervalSeconds inp.batchIntervalMs
  max_eq : p.maxLegQty =
    qH inp.batchIntervalMs p.order * intervalSeconds inp.batchIntervalMs * p.weightAbs
  clearPrice_eq : p.clearPrice = inp.pi p.symbol

section Planning

variable {inp : SolveInput} {p : PlannedLegFill}

theorem intervalSeconds_nonneg (batchIntervalMs : ℕ) : 0 ≤ intervalSeconds batchIntervalMs := by
  unfold intervalSeconds
  positivity

theorem executedRate_le (inp : SolveInput) (i : ℕ) (order : FlowOrder) :
    inp.executedRate i order ≤ qH inp.batchIntervalMs order := by
  unfold SolveInput.executedRate
  dsimp only
  split
  · exact clampFromZero_le _ _
  · exact clampFromZero_le _ _

theorem PlanOk.weight_nonneg (h : PlanOk inp p) : 0 ≤ p.weightAbs := by
  obtain ⟨leg, -, -, hw, -⟩ := h.leg
  rw [hw]
  exact abs_nonneg _

theorem PlanOk.side_eq (h : PlanOk inp p) : p.side = .buy ∨ p.side = .sell := by
  obtain ⟨leg, -, -, -, hside⟩ := h.leg
  rw [hside]
  split
  · exact .inl rfl
  · exact .inr rfl

theorem PlanOk.orderQty_le (h : PlanOk inp p) :
    p.orderQty ≤ qH inp.batchIntervalMs p.order * intervalSeconds inp.batchIntervalMs := by
  rw [h.orderQty_eq]
  exact mul_le_mul_of_nonneg_right (executedRate_le _ _ _) (intervalSeconds_nonneg _)

theorem PlanOk.legOk (h : PlanOk inp p) : LegOk p := by
  obtain ⟨hactual, hinternal, hexternal⟩ := h.fresh
  have hle : p.requestedLegQty ≤ p.maxLegQty := by
    rw [h.requested_eq, h.max_eq]
    exact mul_le_mul_of_nonneg_right h.orderQty_le h.weight_nonneg
  have hpos := h.requested_pos
  have heps := kQtyEps_pos
  exact
    { internal_nonneg := hinternal.ge
      external_nonneg := hexternal.ge
      actual_eq := by rw [hactual, hinternal, hexternal, add_zero]
      requested_le := hle
      actual_le := by rw [hactual]; linarith }

theorem planOk_of_planLeg {i : ℕ} {order : FlowOrder} {leg : FlowOrderLeg}
    (horder : inp.orders[i]? = some order) (hleg : leg ∈ order.legs)
    (h : planLeg inp i order leg = some p) : PlanOk inp p := by
  unfold planLeg at h
  dsimp only at h
  split at h
  · cases h
  · rename_i hpos
    rw [not_le] at hpos
    obtain rfl := Option.some.inj h
    exact
      { fresh := ⟨rfl, rfl, rfl⟩
        order := horder
        leg := ⟨leg, hleg, rfl, rfl, rfl⟩
        requested_pos := hpos
        requested_eq := rfl
        orderQty_eq := rfl
        max_eq := rfl
        clearPrice_eq := rfl }

theorem planOk_of_mem_planFrom {i : ℕ} {orders : List FlowOrder}
    (horders : ∀ j, inp.orders[i + j]? = orders[j]?) (h : p ∈ planFrom inp i orders) :
    PlanOk inp p := by
  induction orders generalizing i with
  | nil => exact absurd h (by simp [planFrom])
  | cons order orders ih =>
      rcases mem_append.mp h with hhead | htail
      · obtain ⟨leg, hleg, hplan⟩ := mem_filterMap.mp hhead
        have horder : inp.orders[i]? = some order := by
          simpa using horders 0
        exact planOk_of_planLeg horder hleg hplan
      · refine ih ?_ htail
        intro j
        have := horders (j + 1)
        rw [getElem?_cons_succ] at this
        rw [← this]
        congr 1
        omega

theorem planOk_of_mem (h : p ∈ plannedFills inp) : PlanOk inp p :=
  planOk_of_mem_planFrom (fun j => by rw [Nat.zero_add]) h

end Planning

/-- A leg of a planned leg's symbol after the allocation of that symbol. -/
inductive Allocated (p q : PlannedLegFill) : Prop
  | steps (h : Relation.ReflTransGen LegStep p q)
  | shortcut (h : q = p.takeRequested)

section Allocated

variable {inp : SolveInput} {p q : PlannedLegFill}

theorem forall₂_shortcutSide (symbol : String) (side : Side) (a : Allocation) :
    List.Forall₂ (fun p q => q = if onSide symbol side p then p.takeRequested else p)
      a.fills (shortcutSide symbol side a).fills :=
  (forEach_rel (fun _ => True) _
    (fun s p _ hp => ⟨trivial, by rw [if_pos hp]; rfl⟩)
    (fun p hp => by simp [hp]) trivial a.fills).2

theorem forall₂_shortcut (symbol : String) (a : Allocation)
    (hside : ∀ p ∈ a.fills, p.side = .buy ∨ p.side = .sell) :
    List.Forall₂ (fun p q => q = if onSymbol symbol p then p.takeRequested else p)
      a.fills (shortcutSide symbol .sell (shortcutSide symbol .buy a)).fills := by
  have hboth := forall₂_comp
    (T := fun p q => q = if onSide symbol .sell p ∨ onSide symbol .buy p then
      p.takeRequested else p)
    (fun p q r hpq hqr => by
      rw [hpq] at hqr
      rw [hqr]
      by_cases hbuy : onSide symbol .buy p = true
      · have hsell : onSide symbol .sell p.takeRequested = false := by
          unfold onSide at hbuy ⊢
          simp only [decide_eq_true_eq, decide_eq_false_iff_not] at hbuy ⊢
          rintro ⟨-, h⟩
          have : p.side = .sell := h
          rw [hbuy.2] at this
          cases this
        simp [hbuy, hsell]
      · simp [hbuy])
    (forall₂_shortcutSide symbol .buy a) (forall₂_shortcutSide symbol .sell _)
  refine ((forall₂_and_left _ _).mpr ⟨hside, hboth⟩).imp ?_
  intro p q hpq
  obtain ⟨hp, hq⟩ := hpq
  rw [hq]
  unfold onSide onSymbol
  rcases hp with hp | hp
  · simp [hp]
  · simp [hp]

def SamePlan (p q : PlannedLegFill) : Prop :=
  q.plan = p.plan

def SamePlans (ps qs : List PlannedLegFill) : Prop :=
  List.Forall₂ SamePlan ps qs

theorem SamePlans.refl (ps : List PlannedLegFill) : SamePlans ps ps :=
  forall₂_same.mpr (fun _ _ => rfl)

theorem SamePlans.trans {ps qs rs : List PlannedLegFill} (h : SamePlans ps qs)
    (h' : SamePlans qs rs) : SamePlans ps rs := by
  have hcomp : ∀ p q r, SamePlan p q → SamePlan q r → SamePlan p r :=
    fun _ _ _ hpq hqr => Eq.trans hqr hpq
  exact forall₂_comp hcomp h h'

theorem LegSteps.samePlans {ps qs : List PlannedLegFill} (h : LegSteps ps qs) : SamePlans ps qs :=
  h.imp (fun _ _ hpq => plan_of_legSteps hpq)

theorem samePlans_shortcutSide (symbol : String) (side : Side) (a : Allocation) :
    SamePlans a.fills (shortcutSide symbol side a).fills := by
  refine (forall₂_shortcutSide symbol side a).imp ?_
  intro p q hpq
  unfold SamePlan
  rw [hpq]
  split <;> rfl

theorem legSteps_phases (inp : SolveInput) (symbol : String) (a : Allocation) :
    LegSteps a.fills
      (externalResidual inp symbol (internalCross symbol (externalImprove inp symbol a))).fills :=
  ((legSteps_externalImprove inp symbol a).trans (legSteps_internalCross symbol _)).trans
    (legSteps_externalResidual inp symbol _)

theorem samePlans_allocateSymbol (inp : SolveInput) (symbol : String) (a : Allocation) :
    SamePlans a.fills (allocateSymbol inp a symbol).fills := by
  unfold allocateSymbol
  split
  · exact (legSteps_phases inp symbol a).samePlans
  · exact (samePlans_shortcutSide symbol .buy a).trans (samePlans_shortcutSide symbol .sell _)

theorem samePlans_allocate (inp : SolveInput) :
    SamePlans (plannedFills inp) (allocate inp).fills := by
  have hfold : ∀ (symbols : List String) (a : Allocation),
      SamePlans a.fills (symbols.foldl (allocateSymbol inp) a).fills := by
    intro symbols
    induction symbols with
    | nil => intro a; exact .refl _
    | cons t ts ih => intro a; exact (samePlans_allocateSymbol inp t a).trans (ih _)
  exact hfold _ (planned inp)

theorem allocated_allocateSymbol (inp : SolveInput) (symbol : String) :
    List.Forall₂ (fun p q => onSymbol symbol p = true → Allocated p q)
      (plannedFills inp) (allocateSymbol inp (planned inp) symbol).fills := by
  unfold allocateSymbol
  split
  · exact (legSteps_phases inp symbol (planned inp)).imp (fun p q h _ => .steps h)
  · refine (forall₂_shortcut symbol (planned inp) ?_).imp ?_
    · intro p hp
      exact (planOk_of_mem hp).side_eq
    · intro p q hpq hp
      rw [if_pos hp] at hpq
      exact .shortcut hpq

theorem symbol_mem_planSymbols
    (h : q ∈ (allocate inp).fills) : q.symbol ∈ planSymbols (plannedFills inp) := by
  obtain ⟨p, hp, hplan⟩ := exists_of_mem_forall₂ (samePlans_allocate inp) h
  rw [symbol_of_plan hplan]
  exact mem_dedup.mpr (mem_map_of_mem hp)

theorem mem_allocateSymbol (h : q ∈ (allocate inp).fills) :
    q ∈ (allocateSymbol inp (planned inp) q.symbol).fills := by
  have hfilter : q ∈ (allocate inp).fills.filter (onSymbol q.symbol) :=
    mem_filter.mpr ⟨h, by simp [onSymbol]⟩
  rw [allocate_sameOn inp (symbol_mem_planSymbols h)] at hfilter
  exact (mem_filter.mp hfilter).1

theorem allocated_of_mem (h : q ∈ (allocate inp).fills) :
    ∃ p, PlanOk inp p ∧ Allocated p q ∧ q.plan = p.plan := by
  have hboth := List.Forall₂.mp (fun p q hplan halloc => And.intro hplan halloc)
    (samePlans_allocateSymbol inp q.symbol (planned inp))
    (allocated_allocateSymbol inp q.symbol)
  obtain ⟨p, hp, hplan, halloc⟩ := exists_of_mem_forall₂ hboth (mem_allocateSymbol h)
  refine ⟨p, planOk_of_mem hp, halloc ?_, hplan⟩
  rw [← onSymbol_of_plan hplan]
  simp [onSymbol]

end Allocated

end Matching
end ContExchange
