import ContExchange.Matching.ComboClosing

/-!
# Matching: the child graph of a combo

Edges between the legs of a combo say what the execution of one leg does to another: a
sibling is cancelled, an exit is resized to what its entry has filled, a waiting leg is
activated when its condition holds.

* `insertComboGraph`: `InsertComboOrder` with the rows of `conditional_links`;
* `loadComboGroupState`: the legs and edges of a combo as the database has them;
* `childGraphTransitions`: the three loops over the edges, one after the other.

PostgreSQL reads the condition of a link as JSON; which texts it accepts and what it finds
under a name is a parameter.
-/

namespace ContExchange
namespace Matching

open Common Lib
open List hiding map_map
open OrderFlow (ComboTables ComboOrderRow ComboLegRow ComboOrder ConditionalLink
  ConditionalLinkType insertNew insertComboOrder)

/-- `jsonb` of PostgreSQL: the texts that are JSON, and `->>` on the value of a text. -/
structure Jsonb where
  accepts : String → Bool
  field : String → String → Option String

/-- A row of `conditional_links`. -/
structure ConditionalLinkRow where
  parentOrderId : String
  fromLegId : String
  toLegId : String
  linkType : String
  condition : Option String
deriving DecidableEq

def linkTypeDb : ConditionalLinkType → String
  | .oco => "oco"
  | .bracket => "bracket"
  | .conditional => "conditional"

/-- The combo tables with the persisted groups and the links. -/
structure GraphStore extends GroupStore where
  links : Table String ConditionalLinkRow := ∅

/-- The INSERT of a link: its text is cast, a row that is there stays, and the legs of a new
row have to be there. -/
def insertLink (jsonb : Jsonb) (parentOrderId : String) (s : GraphStore)
    (link : ConditionalLink) : Option GraphStore :=
  if link.conditionJson ≠ "" ∧ jsonb.accepts link.conditionJson = false then none
  else if (s.links.lookup link.linkId).isSome then some s
  else if (s.tables.legs.lookup link.fromLegId).isSome ∧
      (s.tables.legs.lookup link.toLegId).isSome then
    some
      { s with
        links := s.links.insert link.linkId
          { parentOrderId
            fromLegId := link.fromLegId
            toLegId := link.toLegId
            linkType := linkTypeDb link.type
            condition := if link.conditionJson = "" then none else some link.conditionJson } }
  else none

/-- `InsertComboOrder`, with the links. -/
def insertComboGraph (jsonb : Jsonb) (combo : ComboOrder) (s : GraphStore) : Option GraphStore :=
  (insertComboOrder combo s.tables).bind (fun tables =>
    combo.conditionalLinks.foldlM (insertLink jsonb combo.comboOrderId) { s with tables })

inductive TriggerOp where
  | gte
  | lte
  | gt
  | lt
deriving DecidableEq

def triggerOpFromString (op : String) : TriggerOp :=
  if op = "lte" then .lte
  else if op = "gt" then .gt
  else if op = "lt" then .lt
  else .gte

/-- `TriggerCondition` that is present. -/
structure TriggerCondition where
  symbol : String
  op : TriggerOp
  threshold : Decimal
deriving DecidableEq

/-- `EvaluateTrigger`; a link without a condition is not held back. -/
def evaluateTrigger (condition : Option TriggerCondition) (prices : ReferencePrices) : Bool :=
  match condition with
  | none => true
  | some cond =>
      match prices.lookup cond.symbol with
      | none => false
      | some price =>
          let c := Decimal.cmp price cond.threshold
          match cond.op with
          | .gte => decide (0 ≤ c)
          | .lte => decide (c ≤ 0)
          | .gt => decide (0 < c)
          | .lt => decide (c < 0)

/-- The condition of a link, if all of its parts are there; `none` when the price cannot be
read. -/
def loadCondition (jsonb : Jsonb) (link : ConditionalLinkRow) :
    Option (Option TriggerCondition) :=
  match link.condition with
  | none => some none
  | some text =>
      match jsonb.field text "op", jsonb.field text "symbol", jsonb.field text "price" with
      | some op, some symbol, some price =>
          (parsePgNumericText price.toList).map (fun threshold =>
            some { symbol, op := triggerOpFromString op, threshold })
      | _, _, _ => some none

inductive GroupLegStatus where
  | active
  | waitingForTrigger
  | partiallyFilled
  | filled
  | cancelled
deriving DecidableEq

def legStatusFromDb (s : String) : GroupLegStatus :=
  if s = "waiting_for_trigger" then .waitingForTrigger
  else if s = "partially_filled" then .partiallyFilled
  else if s = "filled" then .filled
  else if s = "cancelled" then .cancelled
  else .active

inductive GroupEdgeType where
  | ocoSibling
  | bracketEntry
  | conditional
deriving DecidableEq

def edgeTypeFromDb (s : String) : GroupEdgeType :=
  if s = "oco" then .ocoSibling
  else if s = "bracket" then .bracketEntry
  else .conditional

structure GroupLeg where
  legId : String
  status : GroupLegStatus
  qMax : Decimal
  filledCum : Decimal
deriving DecidableEq

structure GroupEdge where
  type : GroupEdgeType
  sourceLegId : String
  targetLegId : String
  condition : Option TriggerCondition := none
deriving DecidableEq

structure ComboGroupState where
  parentOrderId : String
  legs : List GroupLeg := []
  edges : List GroupEdge := []
deriving DecidableEq

def loadGroupLeg (legId : String) (row : ComboLegRow) : Option GroupLeg := do
  let qMax ← parsePgNumeric row.qMax
  let filledCum ← parsePgNumeric row.filledCum
  some { legId, status := legStatusFromDb row.status, qMax, filledCum }

def loadEdge (jsonb : Jsonb) (link : ConditionalLinkRow) : Option GroupEdge := do
  let condition ← loadCondition jsonb link
  some
    { type := edgeTypeFromDb link.linkType
      sourceLegId := link.fromLegId
      targetLegId := link.toLegId
      condition }

def graphLegRows (s : GraphStore) (parentOrderId : String) :
    List (Sigma fun _ : String => ComboLegRow) :=
  (s.tables.legs.filter (fun _ row => decide (row.parentOrderId = parentOrderId))).sorted IdOrder

/-- The rows of the links of a combo, in the order of their ids. -/
def graphLinkRows (s : GraphStore) (parentOrderId : String) :
    List (Sigma fun _ : String => ConditionalLinkRow) :=
  (s.links.filter (fun _ link => decide (link.parentOrderId = parentOrderId))).sorted IdOrder

def loadComboGroupState (jsonb : Jsonb) (s : GraphStore) (parentOrderId : String) :
    Option ComboGroupState :=
  if parentOrderId = "" then some { parentOrderId }
  else do
    let legs ← (graphLegRows s parentOrderId).mapM (fun e => loadGroupLeg e.1 e.2)
    let edges ← (graphLinkRows s parentOrderId).mapM (fun e => loadEdge jsonb e.2)
    some { parentOrderId, legs, edges }

namespace ComboGroupState

def findLeg (group : ComboGroupState) (legId : String) : Option GroupLeg :=
  group.legs.find? (fun leg => decide (leg.legId = legId))

/-- A change of the leg that `FindLeg` finds. -/
def changeLeg (group : ComboGroupState) (legId : String) (change : GroupLeg → GroupLeg) :
    ComboGroupState :=
  { group with
    legs := group.legs.modify (group.legs.findIdx (fun leg => decide (leg.legId = legId)))
      change }

end ComboGroupState

/-- What a transition does to its target. -/
inductive GraphAction where
  | ocoCancel
  | bracketResize
  | conditionalActivate
deriving DecidableEq

/-- A loop over the edges: an edge for which the rule finds a change makes it, and the
transition is noted with its target. -/
def applyEdges (rule : ComboGroupState → GroupEdge → Option (GroupLeg → GroupLeg))
    (group : ComboGroupState) (edges : List GroupEdge) : ComboGroupState × List String :=
  edges.foldl
    (fun r edge =>
      match rule r.1 edge with
      | none => r
      | some change => (r.1.changeLeg edge.targetLegId change, r.2 ++ [edge.targetLegId]))
    (group, [])

def GroupLeg.isFilled (leg : GroupLeg) : Bool :=
  decide (leg.status = .filled ∨ 0 < Decimal.cmp leg.filledCum Decimal.zero)

/-- The rule of `ApplyOCOTransitions`. -/
def ocoRule (group : ComboGroupState) (edge : GroupEdge) : Option (GroupLeg → GroupLeg) :=
  if edge.type ≠ .ocoSibling then none
  else
    match group.findLeg edge.sourceLegId, group.findLeg edge.targetLegId with
    | some source, some target =>
        if source.isFilled = false ∨ target.status = .cancelled then none
        else some (fun leg => { leg with status := .cancelled })
    | _, _ => none

/-- The rule of `ResizeBracketExits`. -/
def bracketRule (group : ComboGroupState) (edge : GroupEdge) : Option (GroupLeg → GroupLeg) :=
  if edge.type ≠ .bracketEntry then none
  else
    match group.findLeg edge.sourceLegId, group.findLeg edge.targetLegId with
    | some entry, some exit =>
        if Decimal.cmp entry.filledCum Decimal.zero ≤ 0 ∨
            Decimal.cmp exit.qMax entry.filledCum = 0 then none
        else some (fun leg => { leg with qMax := entry.filledCum })
    | _, _ => none

/-- The rule of `ApplyConditionalActivations`. -/
def conditionalRule (prices : ReferencePrices) (group : ComboGroupState) (edge : GroupEdge) :
    Option (GroupLeg → GroupLeg) :=
  if edge.type ≠ .conditional then none
  else
    match group.findLeg edge.targetLegId with
    | some target =>
        if target.status ≠ .waitingForTrigger ∨
            evaluateTrigger edge.condition prices = false then none
        else some (fun leg => { leg with status := .active })
    | none => none

/-- What `PersistChildGraphTransitions` writes for a transition: a resized leg gets the
`q_max` it has in the end. -/
def writtenTransition (group : ComboGroupState) (action : GraphAction) (target : String) :
    Option GraphTransition :=
  match action with
  | .ocoCancel => some (.ocoCancel target)
  | .bracketResize => (group.findLeg target).map (fun leg => .bracketResize target leg.qMax)
  | .conditionalActivate => some (.conditionalActivate target)

def childGraphTransitions (prices : ReferencePrices) (group : ComboGroupState) :
    List GraphTransition :=
  let oco := applyEdges ocoRule group group.edges
  let bracket := applyEdges bracketRule oco.1 oco.1.edges
  let conditional := applyEdges (conditionalRule prices) bracket.1 bracket.1.edges
  oco.2.filterMap (writtenTransition conditional.1 .ocoCancel) ++
    bracket.2.filterMap (writtenTransition conditional.1 .bracketResize) ++
    conditional.2.filterMap (writtenTransition conditional.1 .conditionalActivate)

/-- The step of a batch after a group: the transitions are computed from the rows and
written; `none` when something throws. -/
def childGraphStep (jsonb : Jsonb) (prices : ReferencePrices) (parentOrderId : String)
    (s : GraphStore) : Option GraphStore :=
  (loadComboGroupState jsonb s parentOrderId).bind (fun group =>
    (persistChildGraphTransitions (childGraphTransitions prices group) s.tables).map
      (fun tables => { s with tables }))

section Resizing

variable {group : ComboGroupState}

variable {change : GroupLeg → GroupLeg}

theorem findLeg_changeLeg (hid : ∀ leg, (change leg).legId = leg.legId)
    (group : ComboGroupState) (target legId : String) :
    (group.changeLeg target change).findLeg legId =
      if legId = target then (group.findLeg target).map change else group.findLeg legId :=
  find?_modify_findIdx GroupLeg.legId hid target legId group.legs

theorem applyEdges_invariant
    {rule : ComboGroupState → GroupEdge → Option (GroupLeg → GroupLeg)}
    {P : ComboGroupState × List String → Prop} {edges : List GroupEdge}
    (hchange : ∀ r, P r → ∀ edge ∈ edges, ∀ change, rule r.1 edge = some change →
      P (r.1.changeLeg edge.targetLegId change, r.2 ++ [edge.targetLegId]))
    (hinit : P (group, [])) :
    P (applyEdges rule group edges) := by
  refine List.foldlRecOn edges _ hinit (fun r hr edge hedge => ?_)
  cases hrule : rule r.1 edge with
  | none => exact hr
  | some change => exact hchange r hr edge hedge change hrule

theorem edges_applyEdges (rule : ComboGroupState → GroupEdge → Option (GroupLeg → GroupLeg))
    (group : ComboGroupState) (edges : List GroupEdge) :
    (applyEdges rule group edges).1.edges = group.edges :=
  applyEdges_invariant (P := fun r => r.1.edges = group.edges) (fun _ hr _ _ _ _ => hr) rfl

def GroupLeg.quantities (leg : GroupLeg) : Decimal × Decimal :=
  (leg.qMax, leg.filledCum)

def ComboGroupState.Resized (group : ComboGroupState) (legId : String) : Prop :=
  ∃ edge ∈ group.edges, (bracketRule group edge).isSome ∧ edge.targetLegId = legId

variable {edge : GroupEdge}

theorem change_of_ocoRule (h : ocoRule group edge = some change) :
    change = fun leg => { leg with status := .cancelled } := by
  unfold ocoRule at h
  split_ifs at h
  split at h
  · split_ifs at h
    exact (Option.some.inj h).symm
  · cases h

theorem bracketRule_eq_some_iff :
    bracketRule group edge = some change ↔
      edge.type = .bracketEntry ∧ ∃ entry exit, group.findLeg edge.sourceLegId = some entry ∧
        group.findLeg edge.targetLegId = some exit ∧
          ¬ (Decimal.cmp entry.filledCum .zero ≤ 0 ∨
            Decimal.cmp exit.qMax entry.filledCum = 0) ∧
            change = fun leg => { leg with qMax := entry.filledCum } := by
  unfold bracketRule
  constructor
  · intro h
    split_ifs at h with htype
    split at h
    · rename_i entry exit hentry hexit
      split_ifs at h with hidle
      exact ⟨not_not.mp htype, entry, exit, hentry, hexit, hidle, (Option.some.inj h).symm⟩
    · cases h
  · rintro ⟨htype, entry, exit, hentry, hexit, hidle, rfl⟩
    rw [if_neg (not_not.mpr htype), hentry, hexit]
    exact if_neg hidle

theorem map_findLeg_applyEdges
    {β : Type*} {rule : ComboGroupState → GroupEdge → Option (GroupLeg → GroupLeg)}
    {f : GroupLeg → β}
    (hrule : ∀ g edge change, rule g edge = some change →
      ∀ leg, (change leg).legId = leg.legId ∧ f (change leg) = f leg)
    (group : ComboGroupState) (edges : List GroupEdge) (legId : String) :
    ((applyEdges rule group edges).1.findLeg legId).map f = (group.findLeg legId).map f := by
  refine applyEdges_invariant
    (P := fun r => (r.1.findLeg legId).map f = (group.findLeg legId).map f)
    (fun r hr edge _ change hchange => ?_) rfl
  have hkeeps := hrule r.1 edge change hchange
  dsimp only
  rw [findLeg_changeLeg fun leg => (hkeeps leg).1]
  split
  · rename_i hid
    rw [← hid, ← hr, Option.map_map]
    exact congrArg (fun g => Option.map g _) (funext fun leg => (hkeeps leg).2)
  · exact hr

theorem quantities_oco (group : ComboGroupState) (edges : List GroupEdge) (legId : String) :
    ((applyEdges ocoRule group edges).1.findLeg legId).map GroupLeg.quantities =
      (group.findLeg legId).map GroupLeg.quantities := by
  refine map_findLeg_applyEdges (fun g edge change hchange leg => ?_) group edges legId
  rw [change_of_ocoRule hchange]
  exact ⟨rfl, rfl⟩

theorem bracketRule_isSome_congr
    {group group' : ComboGroupState}
    (hsource : ((group'.findLeg edge.sourceLegId).map GroupLeg.filledCum) =
      (group.findLeg edge.sourceLegId).map GroupLeg.filledCum)
    (htarget : ((group'.findLeg edge.targetLegId).map GroupLeg.qMax) =
      (group.findLeg edge.targetLegId).map GroupLeg.qMax)
    (h : (bracketRule group' edge).isSome) :
    (bracketRule group edge).isSome := by
  obtain ⟨change, hchange⟩ := Option.isSome_iff_exists.mp h
  obtain ⟨htype, entry', exit', hentry', hexit', hidle, -⟩ := bracketRule_eq_some_iff.mp hchange
  rw [hentry'] at hsource
  rw [hexit'] at htarget
  obtain ⟨entry, hentry, hfilled⟩ := Option.map_eq_some_iff.mp hsource.symm
  obtain ⟨exit, hexit, hmax⟩ := Option.map_eq_some_iff.mp htarget.symm
  rw [← hfilled, ← hmax] at hidle
  exact Option.isSome_iff_exists.mpr
    ⟨_, bracketRule_eq_some_iff.mpr ⟨htype, entry, exit, hentry, hexit, hidle, rfl⟩⟩

/-- A leg whose transition is noted has an edge along which it is to be resized in the group
as it was loaded. -/
theorem resized_of_bracket {target : String}
    (h : target ∈ (applyEdges bracketRule (applyEdges ocoRule group group.edges).1 group.edges).2) :
    group.Resized target := by
  set oco := (applyEdges ocoRule group group.edges).1 with hoco
  -- legs that are not to be resized keep their size, and every leg what it has filled
  have hinv : ∀ r, r = applyEdges bracketRule oco group.edges →
      (∀ legId ∈ r.2, group.Resized legId) ∧
        (∀ legId, ¬ group.Resized legId →
          (r.1.findLeg legId).map GroupLeg.qMax = (group.findLeg legId).map GroupLeg.qMax) ∧
        ∀ legId, (r.1.findLeg legId).map GroupLeg.filledCum =
          (group.findLeg legId).map GroupLeg.filledCum := by
    rintro r rfl
    refine applyEdges_invariant
      (P := fun r => (∀ legId ∈ r.2, group.Resized legId) ∧
        (∀ legId, ¬ group.Resized legId →
          (r.1.findLeg legId).map GroupLeg.qMax = (group.findLeg legId).map GroupLeg.qMax) ∧
        ∀ legId, (r.1.findLeg legId).map GroupLeg.filledCum =
          (group.findLeg legId).map GroupLeg.filledCum)
      (fun r hr edge hedge change hrule => ?_) ?_
    · obtain ⟨hnoted, hmax, hfilled⟩ := hr
      have hresized : group.Resized edge.targetLegId := by
        by_contra hnot
        refine hnot ⟨edge, hedge, ?_, rfl⟩
        refine bracketRule_isSome_congr (hfilled _) (hmax _ hnot) ?_
        rw [hrule]
        rfl
      have hchange : ∀ leg, (change leg).legId = leg.legId ∧
          (change leg).filledCum = leg.filledCum := by
        obtain ⟨-, entry, exit, -, -, -, rfl⟩ := bracketRule_eq_some_iff.mp hrule
        exact fun leg => ⟨rfl, rfl⟩
      refine ⟨fun legId hmem => ?_, fun legId hnot => ?_, fun legId => ?_⟩
      · rcases mem_append.mp hmem with hold | hnew
        · exact hnoted legId hold
        · rw [mem_singleton.mp hnew]
          exact hresized
      · have hne : legId ≠ edge.targetLegId := by
          rintro rfl
          exact hnot hresized
        rw [findLeg_changeLeg (fun leg => (hchange leg).1), if_neg hne]
        exact hmax legId hnot
      · rw [findLeg_changeLeg (fun leg => (hchange leg).1)]
        split
        · rename_i hid
          rw [hid, ← hfilled, Option.map_map]
          exact congrArg (fun f => Option.map f _) (funext (fun leg => (hchange leg).2))
        · exact hfilled legId
    · have hoco := quantities_oco group group.edges
      refine ⟨fun legId hmem => absurd hmem not_mem_nil, fun legId _ => ?_, fun legId => ?_⟩
      · have hmap := congrArg (Option.map Prod.fst) (hoco legId)
        rwa [Option.map_map, Option.map_map] at hmap
      · have hmap := congrArg (Option.map Prod.snd) (hoco legId)
        rwa [Option.map_map, Option.map_map] at hmap
  exact (hinv _ rfl).1 target h

theorem resized_of_transition {prices : ReferencePrices} {target : String} {qMax : Decimal}
    (h : GraphTransition.bracketResize target qMax ∈ childGraphTransitions prices group) :
    group.Resized target := by
  unfold childGraphTransitions at h
  dsimp only at h
  rw [edges_applyEdges] at h
  rcases mem_append.mp h with h | h
  · rcases mem_append.mp h with h | h
    · obtain ⟨other, -, hwritten⟩ := mem_filterMap.mp h
      cases hwritten
    · obtain ⟨other, hmem, hwritten⟩ := mem_filterMap.mp h
      obtain ⟨leg, -, hleg⟩ := Option.map_eq_some_iff.mp hwritten
      cases hleg
      exact resized_of_bracket hmem
  · obtain ⟨other, -, hwritten⟩ := mem_filterMap.mp h
    cases hwritten

end Resizing

end Matching
end ContExchange
