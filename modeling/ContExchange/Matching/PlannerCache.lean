import ContExchange.Lib.LastWrite
import ContExchange.Lib.Runs
import ContExchange.Lib.Selection
import ContExchange.Matching.VenueFilter
import Mathlib.Data.String.Basic

/-!
# Matching: the planner's cache of venue curves

`PlannerInputsCache` keeps the last curve of every symbol, venue and level, the
last health of every venue, and with every curve whether it may be used.  The
snapshots choose one curve for every venue; the legacy projection chooses one
venue for every symbol.

The cache iterates over a hash map.  A snapshot is therefore taken along an
arbitrary arrangement of the keys (`Iteration`), and the results do not depend
on it.
-/

namespace ContExchange
namespace Matching
namespace Planner

open Common Lib AList Table

structure PlannerVenueInput where
  venueId : String
  symbol : String
  curve : VenueLiquidityCurve
  health : Option VenueHealth := none
  usable : Bool := false
  rejectReason : String := ""
deriving DecidableEq

structure HealthUpsertResult where
  stored : Bool := false
  venueUsable : Bool := true
  venue : String
  venueRejectReason : String := ""
  ignoredReason : String := ""
  affectedInputs : List PlannerVenueInput := []

structure CurveKey where
  symbol : String
  venueId : String
  level : String
deriving DecidableEq

structure CurveEntry where
  curve : VenueLiquidityCurve
  usable : Bool := false
  rejectReason : String := ""

structure PlannerInputsCache where
  curves : Table CurveKey CurveEntry := ∅
  venueHealth : Table String VenueHealth := ∅
  thresholds : VenueThresholds

abbrev PlannerInputsBySymbol := Table String (List PlannerVenueInput)

def VenueLiquidityCurve.key (curve : VenueLiquidityCurve) : CurveKey :=
  ⟨curve.symbol, curve.venueId, curve.level⟩

namespace PlannerInputsCache

def refreshCurveEntry (cache : PlannerInputsCache) (key : CurveKey) (entry : CurveEntry) :
    CurveEntry :=
  match shouldUseVenueCurveForMatching entry.curve (cache.venueHealth.lookup key.venueId)
      cache.thresholds with
  | .ok () => { entry with usable := true, rejectReason := "" }
  | .error reason => { entry with usable := false, rejectReason := reason }

def buildPlannerVenueInput (cache : PlannerInputsCache) (key : CurveKey) (entry : CurveEntry) :
    PlannerVenueInput :=
  { symbol := key.symbol
    venueId := key.venueId
    curve := entry.curve
    usable := entry.usable
    rejectReason := entry.rejectReason
    health := cache.venueHealth.lookup key.venueId }

def upsertCurve (cache : PlannerInputsCache) (curve : VenueLiquidityCurve) :
    PlannerInputsCache × PlannerVenueInput :=
  if curve.symbol = "" ∨ curve.venueId = "" then
    (cache,
      { curve
        symbol := curve.symbol
        venueId := curve.venueId
        usable := false
        rejectReason := "missing_curve_identity" })
  else
    let entry := cache.refreshCurveEntry curve.key { curve }
    ({ cache with curves := cache.curves.insert curve.key entry },
      cache.buildPlannerVenueInput curve.key entry)

/-- `UpsertHealth`; the affected inputs of one symbol are in the order of the table. -/
def upsertHealth (cache : PlannerInputsCache) (health : VenueHealth) :
    PlannerInputsCache × HealthUpsertResult :=
  if health.venue = "" then
    (cache, { venue := health.venue, ignoredReason := "missing_venue" })
  else if (cache.venueHealth.lookup health.venue).any
      (fun existing => decide (existing.eventType = .aggregated)) &&
        decide (health.eventType = .raw) then
    (cache, { venue := health.venue, ignoredReason := "aggregated_health_preferred" })
  else
    let stored :=
      { cache with venueHealth := cache.venueHealth.insert health.venue health }
    let refreshed :=
      { stored with
        curves := stored.curves.mapRows (fun key entry =>
          if key.venueId = health.venue then stored.refreshCurveEntry key entry else entry) }
    let affected := (refreshed.curves.entries.filter
      (fun r => decide (r.1.venueId = health.venue))).map
        (fun r => refreshed.buildPlannerVenueInput r.1 r.2)
    let allows := venueAllowsMatching health cache.thresholds
    (refreshed,
      { stored := true
        venue := health.venue
        venueUsable := allows.isOk
        venueRejectReason := match allows with
          | .ok () => ""
          | .error reason => reason
        affectedInputs := sortBy (fun input => input.symbol) affected })

/-- The levels, from the most to the least elaborate. -/
def levels : List String := ["L3", "L2", "L1"]

/-- `SelectBestCurveForVenueFallback`: the best usable curve, or else the simplest
curve there is. -/
def selectBestCurveForVenueFallback (cache : PlannerInputsCache) (symbol venueId : String) :
    Option CurveEntry :=
  (levels.findSome? (fun level =>
      (cache.curves.lookup ⟨symbol, venueId, level⟩).filter (fun entry => entry.usable))).or
    (levels.reverse.findSome? (fun level => cache.curves.lookup ⟨symbol, venueId, level⟩))

/-- An order in which the hash map may be iterated. -/
def Iteration (cache : PlannerInputsCache) : Type :=
  { keys : List CurveKey // keys.Perm cache.curves.keys }

/-- One key of the loop of `GetPlannerInputsSnapshot`. -/
def snapshotStep
    (cache : PlannerInputsCache) (snapshot : PlannerInputsBySymbol) (key : CurveKey) :
    PlannerInputsBySymbol :=
  match cache.selectBestCurveForVenueFallback key.symbol key.venueId with
  | none => snapshot
  | some best =>
      let inputs := (snapshot.lookup key.symbol).getD []
      snapshot.insert key.symbol
        (if inputs.any (fun input => decide (input.venueId = key.venueId)) then inputs
        else inputs ++ [cache.buildPlannerVenueInput key best])

def getPlannerInputsSnapshot (cache : PlannerInputsCache) (iteration : cache.Iteration) :
    PlannerInputsBySymbol :=
  (iteration.1.foldl cache.snapshotStep ∅).mapRows
    (fun _ inputs => sortBy (fun input => input.venueId) inputs)

/-- One key of the loop of `GetPlannerInputsSnapshotForSymbol`: the inputs and the
venues that have been seen. -/
def symbolStep
    (cache : PlannerInputsCache) (symbol : String)
    (s : List PlannerVenueInput × List String) (key : CurveKey) :
    List PlannerVenueInput × List String :=
  if key.symbol ≠ symbol then s
  else if key.venueId ∈ s.2 then s
  else
    match cache.selectBestCurveForVenueFallback symbol key.venueId with
    | none => s
    | some best => (s.1 ++ [cache.buildPlannerVenueInput key best], key.venueId :: s.2)

def getPlannerInputsSnapshotForSymbol
    (cache : PlannerInputsCache) (iteration : cache.Iteration) (symbol : String) :
    List PlannerVenueInput :=
  sortBy (fun input => input.venueId) (iteration.1.foldl (cache.symbolStep symbol) ([], [])).1

def healthScoreOrZero (input : PlannerVenueInput) : Double :=
  (input.health.map (fun health => health.healthScore)).getD Double.zero

/-- `IsWorseLegacyCandidate`: confidence, then health, then the smaller venue id. -/
def isWorseLegacyCandidate (lhs rhs : PlannerVenueInput) : Bool :=
  if lhs.curve.confidence.ne rhs.curve.confidence then
    lhs.curve.confidence.lt rhs.curve.confidence
  else if (healthScoreOrZero lhs).ne (healthScoreOrZero rhs) then
    (healthScoreOrZero lhs).lt (healthScoreOrZero rhs)
  else decide (rhs.venueId < lhs.venueId)

def legacyBestProjection (cache : PlannerInputsCache) (iteration : cache.Iteration) :
    Table String VenueLiquidityCurve :=
  let best := (cache.getPlannerInputsSnapshot iteration).entries.filterMap (fun r =>
    (maxElement isWorseLegacyCandidate (r.2.filter (fun input => input.usable))).map
      (fun input => (r.1, input.curve)))
  best.foldl (fun projection e => projection.insert e.1 e.2) ∅

end PlannerInputsCache

/-- A call of `UpsertCurve` or `UpsertHealth`. -/
inductive PlannerEvent where
  | curve (curve : VenueLiquidityCurve)
  | health (health : VenueHealth)

/-- The cache after a call. -/
def PlannerInputsCache.handle (cache : PlannerInputsCache) : PlannerEvent → PlannerInputsCache
  | .curve curve => (cache.upsertCurve curve).1
  | .health health => (cache.upsertHealth health).1

def cacheAfter (thresholds : VenueThresholds) (events : List PlannerEvent) : PlannerInputsCache :=
  run PlannerInputsCache.handle { thresholds } events

/-- The curves of a history, each under its symbol, venue and level. -/
def curveWrites (events : List PlannerEvent) : List (CurveKey × VenueLiquidityCurve) :=
  events.filterMap (fun e =>
    match e with
    | .curve curve => some (curve.key, curve)
    | .health _ => none)

/-- The last curve of a symbol, venue and level. -/
def lastCurve (events : List PlannerEvent) (key : CurveKey) : Option VenueLiquidityCurve :=
  lastWrite key (curveWrites events)

def venueHealths (events : List PlannerEvent) (venue : String) : List VenueHealth :=
  events.filterMap (fun e =>
    match e with
    | .health health => if health.venue = venue then some health else none
    | .curve _ => none)

/-- A raw health does not replace an aggregated one. -/
def keepAggregated (stored : Option VenueHealth) (health : VenueHealth) : Option VenueHealth :=
  if (∃ old ∈ stored, old.eventType = .aggregated) ∧ health.eventType = .raw then stored
  else some health

def lastHealth (events : List PlannerEvent) (venue : String) : Option VenueHealth :=
  (venueHealths events venue).foldl keepAggregated none

namespace PlannerInputsCache

theorem refresh_curve (cache : PlannerInputsCache) (key : CurveKey) (entry : CurveEntry) :
    (cache.refreshCurveEntry key entry).curve = entry.curve := by
  unfold refreshCurveEntry
  split <;> rfl

theorem refresh_usable_iff (cache : PlannerInputsCache) (key : CurveKey) (entry : CurveEntry) :
    (cache.refreshCurveEntry key entry).usable = true ↔
      shouldUseVenueCurveForMatching entry.curve (cache.venueHealth.lookup key.venueId)
        cache.thresholds = .ok () := by
  unfold refreshCurveEntry
  split
  · rename_i h
    simp [h]
  · rename_i h
    simp [h]

theorem refresh_congr {cache cache' : PlannerInputsCache} {key : CurveKey}
    {entry entry' : CurveEntry} (hcurve : entry.curve = entry'.curve)
    (hhealth : cache.venueHealth.lookup key.venueId = cache'.venueHealth.lookup key.venueId)
    (hthresholds : cache.thresholds = cache'.thresholds) :
    cache.refreshCurveEntry key entry = cache'.refreshCurveEntry key entry' := by
  unfold refreshCurveEntry
  rw [hcurve, hhealth, hthresholds]

end PlannerInputsCache

section Invariant

variable {thresholds : VenueThresholds} {events : List PlannerEvent}
variable {cache : PlannerInputsCache}

/-- The cache holds the last curve of every key with an identity and the last health
of every venue, and its entries are up to date. -/
structure RecordsHistory
    (thresholds : VenueThresholds) (events : List PlannerEvent) (cache : PlannerInputsCache) :
    Prop where
  thresholds : cache.thresholds = thresholds
  curves :
    ∀ key, (cache.curves.lookup key).map (fun entry => entry.curve) =
      if key.symbol = "" ∨ key.venueId = "" then none else lastCurve events key
  health : ∀ venue, venue ≠ "" → cache.venueHealth.lookup venue = lastHealth events venue
  fresh :
    ∀ key entry, cache.curves.lookup key = some entry →
      entry = cache.refreshCurveEntry key entry

theorem recordsHistory_nil : RecordsHistory thresholds [] { thresholds } where
  thresholds := rfl
  curves := by
    intro key
    rw [lookup_empty, Option.map_none]
    split <;> rfl
  health := by
    intro venue _
    rfl
  fresh := by
    intro key entry h
    cases h

theorem lastCurve_snoc_curve (curve : VenueLiquidityCurve) (key : CurveKey) :
    lastCurve (events ++ [.curve curve]) key =
      if curve.key = key then some curve else lastCurve events key := by
  unfold lastCurve curveWrites
  rw [List.filterMap_append, lastWrite_append]
  show (lastWrite key [(curve.key, curve)]).or _ = _
  rw [lastWrite_singleton]
  split
  · rfl
  · rfl

theorem lastCurve_snoc_health (health : VenueHealth) (key : CurveKey) :
    lastCurve (events ++ [.health health]) key = lastCurve events key := by
  unfold lastCurve curveWrites
  rw [List.filterMap_append]
  exact congrArg (lastWrite key) (List.append_nil _)

theorem lastHealth_snoc_curve (curve : VenueLiquidityCurve) (venue : String) :
    lastHealth (events ++ [.curve curve]) venue = lastHealth events venue := by
  unfold lastHealth venueHealths
  rw [List.filterMap_append]
  exact congrArg (List.foldl keepAggregated none) (List.append_nil _)

theorem lastHealth_snoc_health (health : VenueHealth) (venue : String) :
    lastHealth (events ++ [.health health]) venue =
      if health.venue = venue then keepAggregated (lastHealth events venue) health
      else lastHealth events venue := by
  unfold lastHealth venueHealths
  rw [List.filterMap_append]
  by_cases hv : health.venue = venue
  · simp [hv]
  · simp [hv]

theorem RecordsHistory.upsertCurve
    (h : RecordsHistory thresholds events cache) (curve : VenueLiquidityCurve) :
    RecordsHistory thresholds (events ++ [.curve curve]) (cache.upsertCurve curve).1 := by
  unfold PlannerInputsCache.upsertCurve
  by_cases hid : curve.symbol = "" ∨ curve.venueId = ""
  · rw [if_pos hid]
    refine ⟨h.thresholds, ?_, ?_, h.fresh⟩
    · intro key
      rw [h.curves key, lastCurve_snoc_curve]
      by_cases hkey : key.symbol = "" ∨ key.venueId = ""
      · rw [if_pos hkey, if_pos hkey]
      · have hne : curve.key ≠ key := by
          rintro rfl
          exact hkey hid
        rw [if_neg hkey, if_neg hkey, if_neg hne]
    · intro venue hvenue
      rw [lastHealth_snoc_curve]
      exact h.health venue hvenue
  · rw [if_neg hid]
    refine ⟨h.thresholds, ?_, ?_, ?_⟩
    · intro key
      rw [lastCurve_snoc_curve]
      by_cases hkey : curve.key = key
      · subst hkey
        rw [lookup_insert, Option.map_some, PlannerInputsCache.refresh_curve, if_pos rfl]
        exact (if_neg hid).symm
      · rw [lookup_insert_ne (Ne.symm hkey), h.curves key, if_neg hkey]
    · intro venue hvenue
      rw [lastHealth_snoc_curve]
      exact h.health venue hvenue
    · intro key entry hlookup
      by_cases hkey : curve.key = key
      · subst hkey
        rw [lookup_insert, Option.some_inj] at hlookup
        rw [← hlookup]
        exact PlannerInputsCache.refresh_congr (PlannerInputsCache.refresh_curve _ _ _).symm rfl rfl
      · rw [lookup_insert_ne (Ne.symm hkey)] at hlookup
        exact h.fresh key entry hlookup

theorem RecordsHistory.upsertHealth
    (h : RecordsHistory thresholds events cache) (health : VenueHealth) :
    RecordsHistory thresholds (events ++ [.health health]) (cache.upsertHealth health).1 := by
  have hcurves : ∀ key, (cache.curves.lookup key).map (fun entry => entry.curve) =
      if key.symbol = "" ∨ key.venueId = "" then none
      else lastCurve (events ++ [.health health]) key := by
    intro key
    rw [lastCurve_snoc_health]
    exact h.curves key
  unfold PlannerInputsCache.upsertHealth
  by_cases hid : health.venue = ""
  · rw [if_pos hid]
    refine ⟨h.thresholds, hcurves, ?_, h.fresh⟩
    intro venue hvenue
    have hne : health.venue ≠ venue := by
      rintro rfl
      exact hvenue hid
    rw [lastHealth_snoc_health, if_neg hne]
    exact h.health venue hvenue
  rw [if_neg hid]
  have hkeep : ((cache.venueHealth.lookup health.venue).any
      (fun existing => decide (existing.eventType = .aggregated)) &&
        decide (health.eventType = .raw)) = true ↔
      (∃ old ∈ lastHealth events health.venue, old.eventType = .aggregated) ∧
        health.eventType = .raw := by
    rw [h.health _ hid, Bool.and_eq_true, Option.any_eq_true]
    simp
  by_cases hpreferred : (∃ old ∈ lastHealth events health.venue, old.eventType = .aggregated) ∧
      health.eventType = .raw
  · rw [if_pos (hkeep.mpr hpreferred)]
    refine ⟨h.thresholds, hcurves, ?_, h.fresh⟩
    intro venue hvenue
    rw [lastHealth_snoc_health]
    split
    · rename_i heq
      subst heq
      rw [keepAggregated, if_pos hpreferred]
      exact h.health _ hvenue
    · exact h.health venue hvenue
  · rw [if_neg (mt hkeep.mp hpreferred)]
    refine ⟨h.thresholds, ?_, ?_, ?_⟩
    · intro key
      rw [lookup_mapRows, Option.map_map, ← hcurves key]
      congr 1
      funext entry
      rw [Function.comp_apply]
      split
      · exact PlannerInputsCache.refresh_curve _ _ _
      · rfl
    · intro venue hvenue
      rw [lastHealth_snoc_health]
      by_cases hv : health.venue = venue
      · subst hv
        rw [if_pos rfl, keepAggregated, if_neg hpreferred, lookup_insert]
      · rw [if_neg hv, lookup_insert_ne (Ne.symm hv)]
        exact h.health venue hvenue
    · intro key entry hlookup
      rw [lookup_mapRows, Option.map_eq_some_iff] at hlookup
      obtain ⟨old, hold, rfl⟩ := hlookup
      by_cases hv : key.venueId = health.venue
      · rw [if_pos hv]
        exact PlannerInputsCache.refresh_congr (PlannerInputsCache.refresh_curve _ _ _).symm rfl rfl
      · -- the health of another venue is what it was
        rw [if_neg hv]
        refine (h.fresh key old hold).trans (PlannerInputsCache.refresh_congr rfl ?_ rfl)
        exact (lookup_insert_ne hv).symm

theorem recordsHistory_cacheAfter (thresholds : VenueThresholds) (events : List PlannerEvent) :
    RecordsHistory thresholds events (cacheAfter thresholds events) := by
  induction events using List.reverseRecOn with
  | nil => exact recordsHistory_nil
  | append_singleton events e ih =>
      rw [cacheAfter, run_append]
      cases e with
      | curve curve => exact ih.upsertCurve curve
      | health health => exact ih.upsertHealth health

end Invariant

end Planner
end Matching
end ContExchange
