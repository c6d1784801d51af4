import ContExchange.Matching.ChildGraph

/-!
# Matching: the passes over the child graph

Each pass goes over the edges once and changes the legs as it goes, so that a later edge
sees what an earlier one has done.

* `applyEdges_settles`: when a pass leaves nothing to do for its own rule;
* `transitions_again_iff`: when the passes do nothing the second time and keep the bounds
  of the legs;
* `oco_cancels_losers_iff`: when the first pass cancels only legs that have not executed.
-/

namespace ContExchange
namespace Matching

open Common Lib GroupLeg Option
open List hiding map_map

section Pass

variable {rule : ComboGroupState → GroupEdge → Option (GroupLeg → GroupLeg)}
  {group : ComboGroupState} {edges : List GroupEdge}

theorem applyEdges_concat (rule : ComboGroupState → GroupEdge → Option (GroupLeg → GroupLeg))
    (group : ComboGroupState) (edges : List GroupEdge) (edge : GroupEdge) :
    applyEdges rule group (edges ++ [edge]) =
      match rule (applyEdges rule group edges).1 edge with
      | none => applyEdges rule group edges
      | some change =>
          ((applyEdges rule group edges).1.changeLeg edge.targetLegId change,
            (applyEdges rule group edges).2 ++ [edge.targetLegId]) := by
  unfold applyEdges
  rw [foldl_append]
  rfl

theorem applyEdges_idle (h : ∀ edge ∈ edges, rule group edge = none) :
    applyEdges rule group edges = (group, []) := by
  induction edges using List.reverseRecOn with
  | nil => rfl
  | append_singleton edges edge ih =>
      have hfront := ih fun e he => h e (mem_append_left _ he)
      rw [applyEdges_concat, hfront, h edge (by simp)]

theorem applyEdges_idle_iff :
    (applyEdges rule group edges).2 = [] ↔ ∀ edge ∈ edges, rule group edge = none := by
  constructor
  · intro hnone
    induction edges using List.reverseRecOn with
    | nil => exact fun _ h => absurd h not_mem_nil
    | append_singleton edges edge ih =>
        rw [applyEdges_concat] at hnone
        cases hrule : rule (applyEdges rule group edges).1 edge with
        | some change => simp [hrule] at hnone
        | none =>
            rw [hrule] at hnone
            have hfront := ih hnone
            rw [applyEdges_idle hfront] at hrule
            intro e he
            rcases mem_append.mp he with he | he
            · exact hfront e he
            · rwa [mem_singleton.mp he]
  · intro h
    rw [applyEdges_idle h]

theorem applyEdges_settles {I : ComboGroupState → Prop}
    (hkeeps : ∀ g, I g → ∀ edge ∈ edges, ∀ change, rule g edge = some change →
      I (g.changeLeg edge.targetLegId change))
    (hself : ∀ g, I g → ∀ edge ∈ edges, ∀ change, rule g edge = some change →
      rule (g.changeLeg edge.targetLegId change) edge = none)
    (hothers : ∀ g, I g → ∀ edge ∈ edges, ∀ change, rule g edge = some change →
      ∀ other ∈ edges, rule g other = none →
        rule (g.changeLeg edge.targetLegId change) other = none)
    (hinit : I group) :
    ∀ edge ∈ edges, rule (applyEdges rule group edges).1 edge = none := by
  have hall : ∀ front back, edges = front ++ back →
      I (applyEdges rule group front).1 ∧
        ∀ edge ∈ front, rule (applyEdges rule group front).1 edge = none := by
    intro front
    induction front using List.reverseRecOn with
    | nil => exact fun _ _ => ⟨hinit, fun _ h => absurd h not_mem_nil⟩
    | append_singleton front edge ih =>
        intro back hform
        obtain ⟨hI, hsettled⟩ := ih (edge :: back) (by rw [hform]; simp)
        have hedge : edge ∈ edges := by rw [hform]; simp
        have hfront : ∀ e ∈ front, e ∈ edges := fun e he => by rw [hform]; simp [he]
        rw [applyEdges_concat]
        cases hrule : rule (applyEdges rule group front).1 edge with
        | none =>
            refine ⟨hI, fun e he => ?_⟩
            rcases mem_append.mp he with he | he
            · exact hsettled e he
            · rwa [mem_singleton.mp he]
        | some change =>
            refine ⟨hkeeps _ hI edge hedge change hrule, fun e he => ?_⟩
            rcases mem_append.mp he with he | he
            · exact hothers _ hI edge hedge change hrule e (hfront e he) (hsettled e he)
            · rw [mem_singleton.mp he]
              exact hself _ hI edge hedge change hrule
  exact (hall edges [] (by simp)).2

theorem exists_of_changeLeg {change : GroupLeg → GroupLeg} {target legId : String} {leg : GroupLeg}
    (hid : ∀ leg, (change leg).legId = leg.legId)
    (h : (group.changeLeg target change).findLeg legId = some leg) :
    ∃ old, group.findLeg legId = some old ∧
      (legId ≠ target ∧ leg = old ∨ legId = target ∧ leg = change old) := by
  rw [findLeg_changeLeg hid] at h
  split_ifs at h with hsame
  · obtain ⟨old, hold, rfl⟩ := map_eq_some_iff.mp h
    exact ⟨old, hsame ▸ hold, .inr ⟨hsame, rfl⟩⟩
  · exact ⟨leg, h, .inl ⟨hsame, rfl⟩⟩

end Pass

section Rules

variable {group : ComboGroupState} {edge : GroupEdge} {prices : ReferencePrices}
  {change : GroupLeg → GroupLeg} {target : String}

theorem ocoRule_eq_none_iff :
    ocoRule group edge = none ↔ (edge.type = .ocoSibling →
      ∀ source, group.findLeg edge.sourceLegId = some source →
        ∀ leg, group.findLeg edge.targetLegId = some leg →
          source.isFilled = true → leg.status = .cancelled) := by
  unfold ocoRule
  by_cases htype : edge.type = .ocoSibling
  · cases group.findLeg edge.sourceLegId <;> cases group.findLeg edge.targetLegId <;>
      simp [htype, or_iff_not_imp_left]
  · simp [htype]

theorem bracketRule_eq_none_iff :
    bracketRule group edge = none ↔ (edge.type = .bracketEntry →
      ∀ entry, group.findLeg edge.sourceLegId = some entry →
        ∀ exit, group.findLeg edge.targetLegId = some exit →
          0 < Decimal.cmp entry.filledCum .zero → Decimal.cmp exit.qMax entry.filledCum = 0) := by
  unfold bracketRule
  by_cases htype : edge.type = .bracketEntry
  · cases group.findLeg edge.sourceLegId <;> cases group.findLeg edge.targetLegId <;>
      simp [htype, or_iff_not_imp_left]
  · simp [htype]

theorem conditionalRule_eq_none_iff :
    conditionalRule prices group edge = none ↔ (edge.type = .conditional →
      ∀ leg, group.findLeg edge.targetLegId = some leg →
        leg.status = .waitingForTrigger → evaluateTrigger edge.condition prices = false) := by
  unfold conditionalRule
  by_cases htype : edge.type = .conditional
  · cases group.findLeg edge.targetLegId <;> simp [htype, or_iff_not_imp_left]
  · simp [htype]

theorem change_of_conditionalRule (h : conditionalRule prices group edge = some change) :
    change = (fun leg => { leg with status := .active }) ∧
      ∃ leg, group.findLeg edge.targetLegId = some leg ∧ leg.status = .waitingForTrigger := by
  unfold conditionalRule at h
  split_ifs at h
  split at h
  · rename_i leg hleg
    split_ifs at h with hidle
    rw [not_or, not_not] at hidle
    exact ⟨(Option.some.inj h).symm, leg, hleg, hidle.1⟩
  · cases h

theorem ocoRule_none_changeLeg (hid : ∀ leg, (change leg).legId = leg.legId)
    (hfilled : ∀ leg, (change leg).filledCum = leg.filledCum)
    (hstatus : ∀ leg, group.findLeg target = some leg →
      ((change leg).status = .filled → leg.status = .filled) ∧
        (leg.status = .cancelled → (change leg).status = .cancelled))
    (h : ocoRule group edge = none) : ocoRule (group.changeLeg target change) edge = none := by
  rw [ocoRule_eq_none_iff] at h ⊢
  intro htype source hsource leg hleg hexecuted
  obtain ⟨source₀, hsource₀, hsourceForm⟩ := exists_of_changeLeg hid hsource
  obtain ⟨leg₀, hleg₀, hlegForm⟩ := exists_of_changeLeg hid hleg
  have hexecuted₀ : source₀.isFilled = true := by
    rcases hsourceForm with ⟨-, rfl⟩ | ⟨hsame, rfl⟩
    · exact hexecuted
    · unfold isFilled at hexecuted ⊢
      rw [decide_eq_true_eq, hfilled] at hexecuted
      rw [decide_eq_true_eq]
      exact hexecuted.imp_left (hstatus source₀ (hsame ▸ hsource₀)).1
  have hcancelled := h htype source₀ hsource₀ leg₀ hleg₀ hexecuted₀
  rcases hlegForm with ⟨-, rfl⟩ | ⟨hsame, rfl⟩
  · exact hcancelled
  · exact (hstatus leg₀ (hsame ▸ hleg₀)).2 hcancelled

end Rules

/-- The three passes over the edges, and the targets of what they change. -/
def runTransitions (prices : ReferencePrices) (group : ComboGroupState) :
    ComboGroupState × List String :=
  let oco := applyEdges ocoRule group group.edges
  let bracket := applyEdges bracketRule oco.1 oco.1.edges
  let conditional := applyEdges (conditionalRule prices) bracket.1 bracket.1.edges
  (conditional.1, oco.2 ++ bracket.2 ++ conditional.2)

/-- A bracket edge of a group whose entry has filled something. -/
structure ComboGroupState.Resizes (group : ComboGroupState) (edge : GroupEdge)
    (entry exit : GroupLeg) : Prop where
  mem : edge ∈ group.edges
  type : edge.type = .bracketEntry
  source : group.findLeg edge.sourceLegId = some entry
  target : group.findLeg edge.targetLegId = some exit
  filled : 0 < Decimal.cmp entry.filledCum Decimal.zero

/-- The entries of an exit have filled the same, and no less than the exit itself. -/
structure ComboGroupState.BracketsAgree (group : ComboGroupState) : Prop where
  same : ∀ edge entry exit other entry' exit',
    group.Resizes edge entry exit → group.Resizes other entry' exit' →
      edge.targetLegId = other.targetLegId → entry.filledCum.toRat = entry'.filledCum.toRat
  covers : ∀ edge entry exit, group.Resizes edge entry exit →
    exit.filledCum.toRat ≤ exit.qMax.toRat → exit.filledCum.toRat ≤ entry.filledCum.toRat

/-- The quantities of a group are compared as numbers. -/
def ComboGroupState.Comparable (group : ComboGroupState) : Prop :=
  ∀ leg ∈ group.legs, ∀ other ∈ group.legs,
    Decimal.Comparable leg.qMax other.filledCum ∧ Decimal.Comparable leg.filledCum other.filledCum

/-- The second run changes nothing, and every leg keeps what it has filled and its bound. -/
structure RunsOnce (prices : ReferencePrices) (group : ComboGroupState) : Prop where
  again : runTransitions prices (runTransitions prices group).1 =
    ((runTransitions prices group).1, [])
  bounds : List.Forall₂ (fun before after => after.legId = before.legId ∧
    after.filledCum = before.filledCum ∧ (before.filledCum.toRat ≤ before.qMax.toRat →
      after.filledCum.toRat ≤ after.qMax.toRat)) group.legs (runTransitions prices group).1.legs

section Passes

variable {group : ComboGroupState} {prices : ReferencePrices}

theorem runTransitions_eq (prices : ReferencePrices) (group : ComboGroupState) :
    runTransitions prices group =
      ((applyEdges (conditionalRule prices)
          (applyEdges bracketRule (applyEdges ocoRule group group.edges).1 group.edges).1
          group.edges).1,
        (applyEdges ocoRule group group.edges).2 ++
          (applyEdges bracketRule (applyEdges ocoRule group group.edges).1 group.edges).2 ++
          (applyEdges (conditionalRule prices)
            (applyEdges bracketRule (applyEdges ocoRule group group.edges).1 group.edges).1
            group.edges).2) := by
  unfold runTransitions
  dsimp only
  rw [edges_applyEdges, edges_applyEdges, edges_applyEdges]

variable {rule : ComboGroupState → GroupEdge → Option (GroupLeg → GroupLeg)} {g : ComboGroupState}
  {change : GroupLeg → GroupLeg} {edge : GroupEdge}

theorem filledCum_changes
    (h : rule = ocoRule ∨ rule = bracketRule ∨ rule = conditionalRule prices)
    (hrule : rule g edge = some change) (leg : GroupLeg) :
    (change leg).legId = leg.legId ∧ (change leg).filledCum = leg.filledCum := by
  rcases h with rfl | rfl | rfl
  · rw [change_of_ocoRule hrule]
    exact ⟨rfl, rfl⟩
  · obtain ⟨-, entry, exit, -, -, -, rfl⟩ := bracketRule_eq_some_iff.mp hrule
    exact ⟨rfl, rfl⟩
  · rw [(change_of_conditionalRule hrule).1]
    exact ⟨rfl, rfl⟩

theorem oco_settles (group : ComboGroupState) (edges : List GroupEdge) :
    ∀ edge ∈ edges, ocoRule (applyEdges ocoRule group edges).1 edge = none := by
  refine applyEdges_settles (I := fun _ => True) (fun _ _ _ _ _ _ => trivial)
    (fun g _ edge _ change hrule => ?_) (fun g _ edge _ change hrule other _ hother => ?_) trivial
  · have hchange := change_of_ocoRule hrule
    rw [ocoRule_eq_none_iff]
    rintro - source - leg hleg -
    obtain ⟨old, -, (⟨hne, -⟩ | ⟨-, rfl⟩)⟩ := exists_of_changeLeg
      (by rw [hchange]; exact fun _ => rfl) hleg
    · exact absurd rfl hne
    · rw [hchange]
  · rw [change_of_ocoRule hrule]
    exact ocoRule_none_changeLeg (fun _ => rfl) (fun _ => rfl)
      (fun leg _ => ⟨fun h => (by cases h), fun _ => rfl⟩) hother

theorem oco_none_applyEdges (prices : ReferencePrices)
    (h : rule = bracketRule ∨ rule = conditionalRule prices) {edges edges' : List GroupEdge}
    (hnone : ∀ edge ∈ edges, ocoRule group edge = none) :
    ∀ edge ∈ edges, ocoRule (applyEdges rule group edges').1 edge = none := by
  refine applyEdges_invariant (P := fun r => ∀ edge ∈ edges, ocoRule r.1 edge = none)
    (fun r hr edge _ change hrule other hother => ?_) hnone
  have hkept := filledCum_changes (.inr h) hrule
  refine ocoRule_none_changeLeg (fun leg => (hkept leg).1) (fun leg => (hkept leg).2)
    (fun leg hleg => ?_) (hr other hother)
  rcases h with rfl | rfl
  · obtain ⟨-, entry, exit, -, -, -, rfl⟩ := bracketRule_eq_some_iff.mp hrule
    exact ⟨id, id⟩
  · obtain ⟨hchange, waiting, hwaiting, hstatus⟩ := change_of_conditionalRule hrule
    rw [hleg] at hwaiting
    cases hwaiting
    rw [hchange, hstatus]
    refine ⟨fun h => ?_, fun h => ?_⟩
    · cases h
    · cases h

theorem conditional_settles (prices : ReferencePrices) (group : ComboGroupState)
    (edges : List GroupEdge) :
    ∀ edge ∈ edges,
      conditionalRule prices (applyEdges (conditionalRule prices) group edges).1 edge = none := by
  refine applyEdges_settles (I := fun _ => True) (fun _ _ _ _ _ _ => trivial)
    (fun g _ edge _ change hrule => ?_) (fun g _ edge _ change hrule other _ hother => ?_) trivial
  · have hchange := (change_of_conditionalRule hrule).1
    rw [conditionalRule_eq_none_iff]
    rintro - leg hleg hwaiting
    obtain ⟨old, -, (⟨hne, -⟩ | ⟨-, rfl⟩)⟩ := exists_of_changeLeg
      (by rw [hchange]; exact fun _ => rfl) hleg
    · exact absurd rfl hne
    · rw [hchange] at hwaiting
      cases hwaiting
  · have hchange := (change_of_conditionalRule hrule).1
    rw [conditionalRule_eq_none_iff] at hother ⊢
    intro htype leg hleg hwaiting
    obtain ⟨old, hold, (⟨-, rfl⟩ | ⟨-, rfl⟩)⟩ := exists_of_changeLeg
      (by rw [hchange]; exact fun _ => rfl) hleg
    · exact hother htype leg hold hwaiting
    · rw [hchange] at hwaiting
      cases hwaiting

theorem again_iff (prices : ReferencePrices) (group : ComboGroupState) :
    runTransitions prices (runTransitions prices group).1 =
        ((runTransitions prices group).1, []) ↔
      ∀ edge ∈ group.edges, bracketRule (runTransitions prices group).1 edge = none := by
  have hoco : ∀ edge ∈ group.edges, ocoRule (runTransitions prices group).1 edge = none := by
    exact oco_none_applyEdges prices (.inr rfl) (oco_none_applyEdges prices (.inl rfl)
      (oco_settles group group.edges))
  have hconditional : ∀ edge ∈ group.edges,
      conditionalRule prices (runTransitions prices group).1 edge = none := by
    rw [runTransitions_eq]
    exact conditional_settles prices _ group.edges
  have hedges : (runTransitions prices group).1.edges = group.edges := by
    rw [runTransitions_eq]
    simp only [edges_applyEdges]
  rw [runTransitions_eq prices (runTransitions prices group).1, hedges, applyEdges_idle hoco]
  constructor
  · intro h
    have hnone := congrArg Prod.snd h
    rw [append_eq_nil_iff] at hnone
    exact applyEdges_idle_iff.mp hnone.1
  · intro h
    rw [applyEdges_idle h, applyEdges_idle hconditional]
    rfl

theorem findLeg_rel {R : GroupLeg → GroupLeg → Prop}
    (hid : ∀ before after, R before after → after.legId = before.legId)
    (h : List.Forall₂ R group.legs g.legs) (legId : String) :
    Option.Rel R (group.findLeg legId) (g.findLeg legId) :=
  forall₂_find? GroupLeg.legId GroupLeg.legId (fun before after hR => (hid before after hR).symm) h
    legId

theorem exists_of_rel_some {α β : Type*} {R : α → β → Prop} {x : Option α} {b : β}
    (h : Option.Rel R x (some b)) : ∃ a, x = some a ∧ R a b := by
  cases h with
  | some hab => exact ⟨_, rfl, hab⟩

theorem exists_of_some_rel {α β : Type*} {R : α → β → Prop} {a : α} {y : Option β}
    (h : Option.Rel R (some a) y) : ∃ b, y = some b ∧ R a b := by
  cases h with
  | some hab => exact ⟨_, rfl, hab⟩

theorem legs_changeLeg {R : GroupLeg → GroupLeg → Prop} {target : String}
    (hid : ∀ before after, R before after → after.legId = before.legId)
    (h : List.Forall₂ R group.legs g.legs)
    (hchange : ∀ before after, R before after → group.findLeg target = some before →
      g.findLeg target = some after → R before (change after)) :
    List.Forall₂ R group.legs (g.changeLeg target change).legs :=
  forall₂_modify_findIdx (fun before after hR => (hid before after hR).symm) h hchange

def Alike (before after : GroupLeg) : Prop :=
  after.legId = before.legId ∧ after.filledCum = before.filledCum

/-- The leg has filled the same and kept its bound. -/
def Bounded (before after : GroupLeg) : Prop :=
  after.legId = before.legId ∧ after.filledCum = before.filledCum ∧
    (before.filledCum.toRat ≤ before.qMax.toRat → after.filledCum.toRat ≤ after.qMax.toRat)

/-- The leg has filled the same, and its size is compared as a number. -/
def Sized (group : ComboGroupState) (before after : GroupLeg) : Prop :=
  Alike before after ∧ ∀ other ∈ group.legs, Decimal.Comparable after.qMax other.filledCum

theorem findLeg_mem {legId : String} {leg : GroupLeg} (h : group.findLeg legId = some leg) :
    leg ∈ group.legs :=
  mem_of_find?_eq_some h

theorem bounded_applyEdges (prices : ReferencePrices)
    (hrule : rule = ocoRule ∨ rule = conditionalRule prices) (edges : List GroupEdge)
    (h : List.Forall₂ Bounded group.legs g.legs) :
    List.Forall₂ Bounded group.legs (applyEdges rule g edges).1.legs := by
  refine applyEdges_invariant (P := fun r => List.Forall₂ Bounded group.legs r.1.legs)
    (fun r hr edge _ change hchange => ?_) h
  refine legs_changeLeg (fun _ _ hR => hR.1) hr fun before after hR _ _ => ?_
  rcases hrule with rfl | rfl
  · rw [change_of_ocoRule hchange]
    exact hR
  · rw [(change_of_conditionalRule hchange).1]
    exact hR

theorem resizes_of_bracketRule (hmem : edge ∈ group.edges)
    (halike : List.Forall₂ Alike group.legs g.legs) (hrule : bracketRule g edge = some change) :
    ∃ entry exit, group.Resizes edge entry exit ∧
      change = fun leg => { leg with qMax := entry.filledCum } := by
  obtain ⟨htype, entry', exit', hentry', hexit', hidle, rfl⟩ := bracketRule_eq_some_iff.mp hrule
  have hsource := findLeg_rel (fun _ _ hR => hR.1) halike edge.sourceLegId
  have htarget := findLeg_rel (fun _ _ hR => hR.1) halike edge.targetLegId
  rw [hentry'] at hsource
  rw [hexit'] at htarget
  obtain ⟨entry, hentry, -, hfilled⟩ := exists_of_rel_some hsource
  obtain ⟨exit, hexit, -, -⟩ := exists_of_rel_some htarget
  rw [not_or, not_le, hfilled] at hidle
  exact ⟨entry, exit, ⟨hmem, htype, hentry, hexit, hidle.1⟩, by rw [hfilled]⟩

theorem sized_applyEdges (prices : ReferencePrices) (hcomparable : group.Comparable)
    (hrule : rule = ocoRule ∨ rule = bracketRule ∨ rule = conditionalRule prices)
    (h : List.Forall₂ (Sized group) group.legs g.legs) :
    List.Forall₂ (Sized group) group.legs (applyEdges rule g group.edges).1.legs := by
  refine applyEdges_invariant (P := fun r => List.Forall₂ (Sized group) group.legs r.1.legs)
    (fun r hr edge hedge change hchange => ?_) h
  refine legs_changeLeg (fun _ _ hR => hR.1.1) hr fun before after hR _ _ => ?_
  rcases hrule with rfl | rfl | rfl
  · rw [change_of_ocoRule hchange]
    exact hR
  · obtain ⟨entry, exit, hresizes, rfl⟩ :=
      resizes_of_bracketRule hedge (hr.imp fun _ _ h => h.1) hchange
    exact ⟨hR.1, fun other hother =>
      (hcomparable entry (findLeg_mem hresizes.source) other hother).2⟩
  · rw [(change_of_conditionalRule hchange).1]
    exact hR

theorem bounded_bracket (hagree : group.BracketsAgree)
    (h : List.Forall₂ Bounded group.legs g.legs) :
    List.Forall₂ Bounded group.legs (applyEdges bracketRule g group.edges).1.legs := by
  refine applyEdges_invariant (P := fun r => List.Forall₂ Bounded group.legs r.1.legs)
    (fun r hr edge hedge change hchange => ?_) h
  have halike : List.Forall₂ Alike group.legs r.1.legs := hr.imp fun _ _ hR => ⟨hR.1, hR.2.1⟩
  obtain ⟨entry, exit, hresizes, rfl⟩ := resizes_of_bracketRule hedge halike hchange
  refine legs_changeLeg (fun _ _ hR => hR.1) hr fun before after hR hbefore _ => ?_
  refine ⟨hR.1, hR.2.1, fun hbound => ?_⟩
  rw [hresizes.target] at hbefore
  cases hbefore
  rw [hR.2.1]
  exact hagree.covers edge entry exit hresizes hbound

theorem alike_bracket_change (halike : List.Forall₂ Alike group.legs g.legs)
    (hrule : bracketRule g edge = some change) :
    List.Forall₂ Alike group.legs (g.changeLeg edge.targetLegId change).legs := by
  refine legs_changeLeg (fun _ _ hR => hR.1) halike fun before after hR _ _ => ?_
  obtain ⟨-, entry, exit, -, -, -, rfl⟩ := bracketRule_eq_some_iff.mp hrule
  exact hR

theorem bracketRule_none_changeLeg (hagree : group.BracketsAgree) (hcomparable : group.Comparable)
    (halike : List.Forall₂ Alike group.legs g.legs) {edge other : GroupEdge}
    (hedge : edge ∈ group.edges) (hother : other ∈ group.edges)
    (hrule : bracketRule g edge = some change)
    (h : other.targetLegId = edge.targetLegId ∨ bracketRule g other = none) :
    bracketRule (g.changeLeg edge.targetLegId change) other = none := by
  have hlater := alike_bracket_change halike hrule
  obtain ⟨entry, exit, hresizes, rfl⟩ := resizes_of_bracketRule hedge halike hrule
  rw [bracketRule_eq_none_iff]
  intro htype entry₂ hentry₂ exit₂ hexit₂ hpositive
  have hsource := findLeg_rel (fun _ _ hR => hR.1) hlater other.sourceLegId
  have htarget := findLeg_rel (fun _ _ hR => hR.1) hlater other.targetLegId
  rw [hentry₂] at hsource
  rw [hexit₂] at htarget
  obtain ⟨entry₀, hentry₀, -, hfilled⟩ := exists_of_rel_some hsource
  obtain ⟨exit₀, hexit₀, -, -⟩ := exists_of_rel_some htarget
  rw [hfilled] at hpositive ⊢
  obtain ⟨old, hold, hform⟩ := exists_of_changeLeg (by exact fun _ => rfl) hexit₂
  by_cases hsame : other.targetLegId = edge.targetLegId
  · obtain ⟨hne, -⟩ | ⟨-, rfl⟩ := hform
    · exact absurd hsame hne
    · have hboth := hcomparable entry (findLeg_mem hresizes.source) entry₀ (findLeg_mem hentry₀)
      exact hboth.2.cmp_eq_zero_iff.mpr (hagree.same edge entry exit other entry₀ exit₀ hresizes
        ⟨hother, htype, hentry₀, hexit₀, hpositive⟩ hsame.symm)
  · obtain ⟨-, rfl⟩ | ⟨heq, -⟩ := hform
    · -- neither the exit nor what the entry has filled is changed
      obtain ⟨entry₁, hentry₁, hentryForm⟩ := exists_of_changeLeg (by exact fun _ => rfl) hentry₂
      have hkept : entry₂.filledCum = entry₁.filledCum := by
        obtain ⟨-, rfl⟩ | ⟨-, rfl⟩ := hentryForm <;> rfl
      have hnone := bracketRule_eq_none_iff.mp (h.resolve_left hsame) htype entry₁ hentry₁ exit₂ hold
      rw [← hkept, hfilled] at hnone
      exact hnone hpositive
    · exact absurd heq hsame

theorem bracket_settles (hagree : group.BracketsAgree) (hcomparable : group.Comparable)
    (halike : List.Forall₂ Alike group.legs g.legs) :
    ∀ edge ∈ group.edges, bracketRule (applyEdges bracketRule g group.edges).1 edge = none :=
  applyEdges_settles (I := fun g => List.Forall₂ Alike group.legs g.legs)
    (fun _ hg _ _ _ hrule => alike_bracket_change hg hrule)
    (fun _ hg _ hedge _ hrule =>
      bracketRule_none_changeLeg hagree hcomparable hg hedge hedge hrule (.inl rfl))
    (fun _ hg _ hedge _ hrule _ hother hnone =>
      bracketRule_none_changeLeg hagree hcomparable hg hedge hother hrule (.inr hnone)) halike

theorem bracket_none_conditional {edges : List GroupEdge}
    (hnone : ∀ edge ∈ edges, bracketRule group edge = none) :
    ∀ edge ∈ edges,
      bracketRule (applyEdges (conditionalRule prices) group edges).1 edge = none := by
  intro edge hedge
  have hquantities : ∀ legId,
      ((applyEdges (conditionalRule prices) group edges).1.findLeg legId).map quantities =
        (group.findLeg legId).map quantities := by
    refine map_findLeg_applyEdges (fun g e change hchange leg => ?_) group edges
    rw [(change_of_conditionalRule hchange).1]
    exact ⟨rfl, rfl⟩
  by_contra hsome
  obtain ⟨change, hchange⟩ := ne_none_iff_exists'.mp hsome
  have hfilled := congrArg (Option.map Prod.snd) (hquantities edge.sourceLegId)
  have hmax := congrArg (Option.map Prod.fst) (hquantities edge.targetLegId)
  rw [map_map, map_map] at hfilled hmax
  have hresized := bracketRule_isSome_congr hfilled hmax (by rw [hchange]; rfl)
  rw [hnone edge hedge] at hresized
  cases hresized

theorem bounded_refl (group : ComboGroupState) : List.Forall₂ Bounded group.legs group.legs :=
  forall₂_same.mpr fun _ _ => ⟨rfl, rfl, id⟩

end Passes

/-- The passes do nothing the second time and keep the bounds of the legs exactly when the
entries of each exit have filled the same, and no less than the exit. -/
theorem transitions_again_iff (prices : ReferencePrices) (group : ComboGroupState)
    (hcomparable : group.Comparable) : RunsOnce prices group ↔ group.BracketsAgree := by
  have hsized : List.Forall₂ (Sized group) group.legs group.legs :=
    List.forall₂_same.mpr fun leg hleg =>
      ⟨⟨rfl, rfl⟩, fun other hother => (hcomparable leg hleg other hother).1⟩
  have hoco := sized_applyEdges prices hcomparable (.inl rfl) hsized
  have hbracket := sized_applyEdges prices hcomparable (.inr (.inl rfl)) hoco
  have hlast := sized_applyEdges prices hcomparable (.inr (.inr rfl)) hbracket
  constructor
  · intro h
    have hidle := (again_iff prices group).mp h.again
    -- after the passes every exit has the size of its entries
    have hsize : ∀ edge entry exit, group.Resizes edge entry exit →
        ∃ after, (runTransitions prices group).1.findLeg edge.targetLegId = some after ∧
          Bounded exit after ∧ after.qMax.toRat = entry.filledCum.toRat := by
      intro edge entry exit hresizes
      have hsource := findLeg_rel (fun _ _ hR => hR.1) h.bounds edge.sourceLegId
      have htarget := findLeg_rel (fun _ _ hR => hR.1) h.bounds edge.targetLegId
      rw [hresizes.source] at hsource
      rw [hresizes.target] at htarget
      obtain ⟨source, hfound, -, hfilled, -⟩ := exists_of_some_rel hsource
      obtain ⟨after, hafter, hbounded⟩ := exists_of_some_rel htarget
      refine ⟨after, hafter, hbounded, ?_⟩
      have hequal := bracketRule_eq_none_iff.mp (hidle edge hresizes.mem) hresizes.type source
        hfound after hafter (hfilled ▸ hresizes.filled)
      rw [hfilled] at hequal
      rw [runTransitions_eq] at hafter
      have hsizedAfter := findLeg_rel (fun _ _ hR => hR.1.1) hlast edge.targetLegId
      rw [hafter] at hsizedAfter
      obtain ⟨-, -, -, hcompare⟩ := exists_of_rel_some hsizedAfter
      exact (hcompare entry (findLeg_mem hresizes.source)).cmp_eq_zero_iff.mp hequal
    constructor
    · intro edge entry exit other entry' exit' hedge hother hsame
      obtain ⟨after, hafter, -, heq⟩ := hsize edge entry exit hedge
      obtain ⟨after', hafter', -, heq'⟩ := hsize other entry' exit' hother
      rw [hsame, hafter'] at hafter
      cases hafter
      rw [← heq, ← heq']
    · intro edge entry exit hedge hbound
      obtain ⟨after, -, hbounded, heq⟩ := hsize edge entry exit hedge
      rw [← heq, ← hbounded.2.1]
      exact hbounded.2.2 hbound
  · intro hagree
    constructor
    · rw [again_iff, runTransitions_eq]
      exact bracket_none_conditional
        (bracket_settles hagree hcomparable (hoco.imp fun _ _ hR => hR.1))
    · rw [runTransitions_eq]
      exact bounded_applyEdges prices (.inr rfl) group.edges
        (bounded_bracket hagree (bounded_applyEdges prices (.inl rfl) group.edges
          (bounded_refl group)))

/-- A leg with a size and what it has filled. -/
def graphLeg (legId : String) (qMax filledCum : Decimal) : GroupLeg where
  legId
  status := .active
  qMax
  filledCum

def bracketEdge (entry exit : String) : GroupEdge where
  type := .bracketEntry
  sourceLegId := entry
  targetLegId := exit

/-- An entry that has filled six, and two exits. -/
def bracketGroup : ComboGroupState where
  parentOrderId := "g"
  legs := [graphLeg "E" (Decimal.of 10 0) (Decimal.of 6 0), graphLeg "TP" (Decimal.of 10 0)
    Decimal.zero, graphLeg "SL" (Decimal.of 10 0) Decimal.zero]
  edges := [bracketEdge "E" "TP", bracketEdge "E" "SL"]

theorem bracketGroup_agrees : RunsOnce ∅ bracketGroup ∧ bracketGroup.BracketsAgree := by
  have hcomparable : bracketGroup.Comparable := by
    unfold ComboGroupState.Comparable
    decide +kernel
  have hruns : RunsOnce ∅ bracketGroup := ⟨by decide +kernel, by decide +kernel⟩
  exact ⟨hruns, (transitions_again_iff ∅ bracketGroup hcomparable).mp hruns⟩

/-- Two entries resize one exit back and forth, and an exit is resized below what it has
filled. -/
theorem transitions_run_again :
    ¬RunsOnce ∅
        { parentOrderId := "g"
          legs := [graphLeg "E" (Decimal.of 10 0) (Decimal.of 6 0),
            graphLeg "F" (Decimal.of 10 0) (Decimal.of 4 0),
            graphLeg "TP" (Decimal.of 10 0) Decimal.zero]
          edges := [bracketEdge "E" "TP", bracketEdge "F" "TP"] } ∧
      ¬RunsOnce ∅
        { parentOrderId := "g"
          legs := [graphLeg "E" (Decimal.of 10 0) (Decimal.of 3 0),
            graphLeg "TP" (Decimal.of 10 0) (Decimal.of 5 0)]
          edges := [bracketEdge "E" "TP"] } := by
  constructor
  · intro h
    have hagain := h.again
    revert hagain
    decide +kernel
  · intro h
    have hbounds := h.bounds
    revert hbounds
    decide +kernel

/-- The pass over the siblings cancels no leg that has executed, and every sibling of an executed
leg that has not. -/
structure CancelsLosers (group : ComboGroupState) : Prop where
  winners : List.Forall₂ (fun before after => after.legId = before.legId ∧
    (before.isFilled = true → after.status = .cancelled → before.status = .cancelled))
    group.legs (applyEdges ocoRule group group.edges).1.legs
  losers : ∀ edge ∈ group.edges, edge.type = .ocoSibling →
    ∀ source, group.findLeg edge.sourceLegId = some source → source.isFilled = true →
      ∀ leg, group.findLeg edge.targetLegId = some leg → leg.isFilled = false →
        ∃ after, (applyEdges ocoRule group group.edges).1.findLeg edge.targetLegId = some after ∧
          after.status = .cancelled

/-- No leg that has executed, and is not cancelled, has a sibling that has executed. -/
def ComboGroupState.SingleWinner (group : ComboGroupState) : Prop :=
  ∀ edge ∈ group.edges, edge.type = .ocoSibling →
    ∀ source, group.findLeg edge.sourceLegId = some source → source.isFilled = true →
      ∀ leg, group.findLeg edge.targetLegId = some leg → leg.isFilled = true →
        leg.status = .cancelled

section Losers

variable {group : ComboGroupState}

/-- A leg after some siblings are cancelled: it stays what it was, or is cancelled. -/
def MaybeCancelled (before after : GroupLeg) : Prop :=
  after = before ∨ after = { before with status := .cancelled }

variable {before after : GroupLeg}

theorem MaybeCancelled.legId (h : MaybeCancelled before after) : after.legId = before.legId := by
  rcases h with rfl | rfl <;> rfl

theorem MaybeCancelled.isFilled (h : MaybeCancelled before after)
    (hfilled : after.isFilled = true) : before.isFilled = true := by
  rcases h with rfl | rfl
  · exact hfilled
  · unfold isFilled at hfilled ⊢
    rw [decide_eq_true_eq] at hfilled ⊢
    exact .inr (hfilled.resolve_left (by simp))

theorem maybeCancelled_change (h : MaybeCancelled before after) :
    MaybeCancelled before { after with status := .cancelled } := by
  rcases h with rfl | rfl
  · exact .inr rfl
  · exact .inr rfl

theorem maybeCancelled_applyEdges (group : ComboGroupState) (edges : List GroupEdge) :
    List.Forall₂ MaybeCancelled group.legs (applyEdges ocoRule group edges).1.legs := by
  refine applyEdges_invariant (P := fun r => List.Forall₂ MaybeCancelled group.legs r.1.legs)
    (fun r hr edge _ change hchange => ?_) (forall₂_same.mpr fun _ _ => .inl rfl)
  rw [change_of_ocoRule hchange]
  exact legs_changeLeg (fun _ _ hR => hR.legId) hr fun _ _ hR _ _ => maybeCancelled_change hR

theorem ocoRule_eq_some {edge : GroupEdge} {change : GroupLeg → GroupLeg}
    (h : ocoRule group edge = some change) :
    edge.type = .ocoSibling ∧ ∃ source leg, group.findLeg edge.sourceLegId = some source ∧
      group.findLeg edge.targetLegId = some leg ∧ source.isFilled = true ∧
        leg.status ≠ .cancelled := by
  unfold ocoRule at h
  split_ifs at h with htype
  split at h
  · rename_i source leg hsource hleg
    split_ifs at h with hidle
    rw [not_or, Bool.not_eq_false] at hidle
    exact ⟨not_not.mp htype, source, leg, hsource, hleg, hidle.1, hidle.2⟩
  · cases h

theorem winners_kept (h : group.SingleWinner) :
    List.Forall₂ (fun before after => MaybeCancelled before after ∧
      (before.isFilled = true → after = before)) group.legs
      (applyEdges ocoRule group group.edges).1.legs := by
  refine applyEdges_invariant (P := fun r => List.Forall₂ (fun before after =>
      MaybeCancelled before after ∧ (before.isFilled = true → after = before)) group.legs r.1.legs)
    (fun r hr edge hedge change hchange => ?_)
    (forall₂_same.mpr fun _ _ => ⟨.inl rfl, fun _ => rfl⟩)
  obtain ⟨htype, source, leg, hsource, hleg, hfilled, hopen⟩ := ocoRule_eq_some hchange
  have hrel := findLeg_rel (fun _ _ hR => hR.1.legId) hr edge.sourceLegId
  rw [hsource] at hrel
  obtain ⟨source₀, hsource₀, hmaybe, -⟩ := exists_of_rel_some hrel
  rw [change_of_ocoRule hchange]
  refine legs_changeLeg (fun _ _ hR => hR.1.legId) hr fun before after hR hbefore hafter => ?_
  refine ⟨maybeCancelled_change hR.1, fun hwon => ?_⟩
  have hcancelled := h edge hedge htype source₀ hsource₀ (hmaybe.isFilled hfilled) before hbefore hwon
  rw [hleg] at hafter
  cases hafter
  rw [hR.2 hwon] at hopen
  exact absurd hcancelled hopen

end Losers

/-- The pass over the siblings cancels exactly the legs that have not executed next to one
that has, if and only if no two siblings have executed. -/
theorem oco_cancels_losers_iff (group : ComboGroupState) :
    CancelsLosers group ↔ group.SingleWinner := by
  have hsettled := oco_settles group group.edges
  constructor
  · rintro ⟨hwinners, -⟩ edge hedge htype source hsource hfilled leg hleg hwon
    have hmaybe := findLeg_rel (fun _ _ hR => hR.legId)
      (maybeCancelled_applyEdges group group.edges) edge.sourceLegId
    have hsourceRel := findLeg_rel (fun _ _ hR => hR.1) hwinners edge.sourceLegId
    have hlegRel := findLeg_rel (fun _ _ hR => hR.1) hwinners edge.targetLegId
    rw [hsource] at hmaybe hsourceRel
    rw [hleg] at hlegRel
    obtain ⟨source', hsource', hform⟩ := exists_of_some_rel hmaybe
    obtain ⟨leg', hleg', -, hkept⟩ := exists_of_some_rel hlegRel
    rw [hsource'] at hsourceRel
    obtain ⟨_, heq, -, hsourceKept⟩ := exists_of_some_rel hsourceRel
    cases heq
    -- the source is still one that has executed
    have hstill : source'.isFilled = true := by
      rcases hform with rfl | rfl
      · exact hfilled
      · have hstatus : source.status = .cancelled := hsourceKept hfilled rfl
        rw [← hfilled, ← hstatus]
    exact hkept hwon (ocoRule_eq_none_iff.mp (hsettled edge hedge) htype source' hsource' leg' hleg'
      hstill)
  · intro h
    have hkept := winners_kept h
    constructor
    · refine hkept.imp fun before after hR => ⟨hR.1.legId, fun hwon hcancelled => ?_⟩
      rwa [hR.2 hwon] at hcancelled
    · intro edge hedge htype source hsource hfilled leg hleg _
      have hsourceRel := findLeg_rel (fun _ _ hR => hR.1.legId) hkept edge.sourceLegId
      have hlegRel := findLeg_rel (fun _ _ hR => hR.1.legId) hkept edge.targetLegId
      rw [hsource] at hsourceRel
      rw [hleg] at hlegRel
      obtain ⟨source', hsource', -, hsame⟩ := exists_of_some_rel hsourceRel
      obtain ⟨leg', hleg', -⟩ := exists_of_some_rel hlegRel
      rw [hsame hfilled] at hsource'
      exact ⟨leg', hleg', ocoRule_eq_none_iff.mp (hsettled edge hedge) htype source hsource' leg'
        hleg' hfilled⟩

/-- Both siblings fill in one batch and cancel each other. -/
theorem both_winners_cancelled :
    ¬CancelsLosers
      { parentOrderId := "g"
        legs := [graphLeg "A" (Decimal.of 10 0) (Decimal.of 5 0),
          graphLeg "B" (Decimal.of 10 0) (Decimal.of 10 0)]
        edges := [{ type := .ocoSibling, sourceLegId := "A", targetLegId := "B" },
          { type := .ocoSibling, sourceLegId := "B", targetLegId := "A" }] } := by
  intro h
  have hwinners := h.winners
  revert hwinners
  decide +kernel

end Matching
end ContExchange
