import ContExchange.Matching.PlannerCache

/-!
# Matching: the planner cache never routes to a disallowed venue

Both snapshots go through the keys of the cache and keep, for every venue of a
symbol, the input of the curve chosen for it.  The choice does not depend on the
key at hand, so the two loops collect the same inputs (`mem_collect`,
`nodup_collect`), in whatever order they go, and sorting by venue makes them
equal.  A usable input carries the last curve of its key and the last health of
its venue, because the cache records its history.  Together this is
`planner_routes_allowed`.
-/

namespace ContExchange
namespace Matching
namespace Planner

open Common Lib AList Table PlannerInputsCache
open List hiding any_eq_true
open Option hiding any any_eq_true

section Histories

variable (thresholds : VenueThresholds) (events : List PlannerEvent)

/-- The curve is the last one of its symbol, venue and level, and may be used with
the last health of its venue. -/
def MayRoute (curve : VenueLiquidityCurve) : Prop :=
  lastCurve events curve.key = some curve ∧
    shouldUseVenueCurveForMatching curve (lastHealth events curve.venueId) thresholds = .ok ()

/-- The inputs of a symbol: usable ones carry a curve of the symbol and the venue that
may be routed to, and the venues increase. -/
structure SoundInputs (symbol : String) (inputs : List PlannerVenueInput) : Prop where
  usable :
    ∀ input ∈ inputs, input.usable = true →
      MayRoute thresholds events input.curve ∧
        input.curve.symbol = symbol ∧ input.curve.venueId = input.venueId
  symbols : ∀ input ∈ inputs, input.symbol = symbol
  venues : inputs.Pairwise (fun a b => a.venueId < b.venueId)

/-- Whatever the order in which the two snapshots go through the cache, they hold
sound inputs, agree on every symbol and lead to a sound and complete projection. -/
structure RoutesAllowed
    (i j : (cacheAfter thresholds events).Iteration) : Prop where
  snapshot :
    ∀ symbol inputs,
      ((cacheAfter thresholds events).getPlannerInputsSnapshot i).lookup symbol = some inputs →
        SoundInputs thresholds events symbol inputs
  forSymbol :
    ∀ symbol, SoundInputs thresholds events symbol
      ((cacheAfter thresholds events).getPlannerInputsSnapshotForSymbol j symbol)
  restricted :
    ∀ symbol,
      (cacheAfter thresholds events).getPlannerInputsSnapshotForSymbol j symbol =
        (((cacheAfter thresholds events).getPlannerInputsSnapshot i).lookup symbol).getD []
  projected :
    ∀ symbol curve,
      ((cacheAfter thresholds events).legacyBestProjection i).lookup symbol = some curve →
        MayRoute thresholds events curve ∧ curve.symbol = symbol
  complete :
    ∀ curve, MayRoute thresholds events curve → curve.level ∈ PlannerInputsCache.levels →
      ∃ best, ((cacheAfter thresholds events).legacyBestProjection i).lookup curve.symbol =
        some best

end Histories

namespace PlannerInputsCache

variable (cache : PlannerInputsCache)

def inputOf (symbol venueId : String) : Option PlannerVenueInput :=
  (cache.selectBestCurveForVenueFallback symbol venueId).map
    (cache.buildPlannerVenueInput ⟨symbol, venueId, ""⟩)

variable {cache}

theorem exists_level_of_select {symbol venueId : String} {best : CurveEntry}
    (h : cache.selectBestCurveForVenueFallback symbol venueId = some best) :
    ∃ level ∈ levels, cache.curves.lookup ⟨symbol, venueId, level⟩ = some best := by
  unfold selectBestCurveForVenueFallback at h
  rcases or_eq_some_iff.mp h with husable | ⟨-, hany⟩
  · obtain ⟨level, hlevel, hfound⟩ := exists_of_findSome?_eq_some husable
    exact ⟨level, hlevel, (filter_eq_some_iff.mp hfound).1⟩
  · obtain ⟨level, hlevel, hfound⟩ := exists_of_findSome?_eq_some hany
    exact ⟨level, mem_reverse.mp hlevel, hfound⟩

theorem select_of_usable {symbol venueId level : String} {entry : CurveEntry}
    (hlevel : level ∈ levels) (hentry : cache.curves.lookup ⟨symbol, venueId, level⟩ = some entry)
    (husable : entry.usable = true) :
    ∃ best, cache.selectBestCurveForVenueFallback symbol venueId = some best ∧
      best.usable = true := by
  unfold selectBestCurveForVenueFallback
  cases hfirst : levels.findSome? (fun level =>
      (cache.curves.lookup ⟨symbol, venueId, level⟩).filter (fun entry => entry.usable)) with
  | none =>
      have hnone := findSome?_eq_none_iff.mp hfirst level hlevel
      rw [hentry, filter_some, if_pos husable] at hnone
      cases hnone
  | some best =>
      obtain ⟨level', -, hfound⟩ := exists_of_findSome?_eq_some hfirst
      exact ⟨best, rfl, (filter_eq_some_iff.mp hfound).2⟩

theorem inputOf_pair {symbol venueId : String} {input : PlannerVenueInput}
    (h : cache.inputOf symbol venueId = some input) :
    input.symbol = symbol ∧ input.venueId = venueId := by
  obtain ⟨best, -, rfl⟩ := map_eq_some_iff.mp h
  exact ⟨rfl, rfl⟩

end PlannerInputsCache

section Choice

variable {thresholds : VenueThresholds} {events : List PlannerEvent}
variable {cache : PlannerInputsCache}

theorem key_of_lastCurve {key : CurveKey} {curve : VenueLiquidityCurve}
    (h : lastCurve events key = some curve) : curve.key = key := by
  obtain ⟨e, -, he⟩ := mem_filterMap.mp (mem_of_lastWrite h)
  cases e with
  | curve c =>
      obtain ⟨hkey, rfl⟩ := Prod.mk.inj (some_inj.mp he)
      exact hkey
  | health h => cases he

theorem entry_spec (h : RecordsHistory thresholds events cache) {key : CurveKey}
    {entry : CurveEntry} (hentry : cache.curves.lookup key = some entry) :
    entry.curve.key = key ∧ (entry.usable = true ↔ MayRoute thresholds events entry.curve) := by
  have hcurve := h.curves key
  rw [hentry, map_some] at hcurve
  by_cases hid : key.symbol = "" ∨ key.venueId = ""
  · rw [if_pos hid] at hcurve
    cases hcurve
  rw [if_neg hid] at hcurve
  have hkey := key_of_lastCurve hcurve.symm
  have hvenue : entry.curve.venueId = key.venueId := congrArg CurveKey.venueId hkey
  refine ⟨hkey, ?_⟩
  rw [h.fresh key entry hentry, refresh_usable_iff,
    refresh_curve, h.thresholds, h.health _ (not_or.mp hid).2, MayRoute, hkey,
    hvenue, ← hcurve]
  exact (and_iff_right rfl).symm

theorem inputOf_spec (h : RecordsHistory thresholds events cache) {symbol venueId : String}
    {input : PlannerVenueInput} (hinput : cache.inputOf symbol venueId = some input) :
    input.curve.symbol = symbol ∧ input.curve.venueId = venueId ∧
      (input.usable = true ↔ MayRoute thresholds events input.curve) := by
  obtain ⟨best, hbest, rfl⟩ := map_eq_some_iff.mp hinput
  obtain ⟨level, -, hentry⟩ := exists_level_of_select hbest
  obtain ⟨hkey, husable⟩ := entry_spec h hentry
  exact ⟨congrArg CurveKey.symbol hkey, congrArg CurveKey.venueId hkey, husable⟩

theorem exists_usable_input (h : RecordsHistory thresholds events cache)
    {curve : VenueLiquidityCurve} (hroute : MayRoute thresholds events curve)
    (hlevel : curve.level ∈ levels) :
    curve.key ∈ cache.curves.keys ∧
      ∃ input, cache.inputOf curve.symbol curve.venueId = some input ∧ input.usable = true := by
  obtain ⟨hvenue, hsymbol⟩ := identity_of_shouldUse hroute.2
  have hcurve := (h.curves curve.key).trans (if_neg (not_or.mpr ⟨hsymbol, hvenue⟩))
  rw [hroute.1, map_eq_some_iff] at hcurve
  obtain ⟨entry, hentry, rfl⟩ := hcurve
  have husable := (entry_spec h hentry).2.mpr hroute
  obtain ⟨best, hbest, hbestUsable⟩ :=
    select_of_usable hlevel hentry husable
  refine ⟨?_, _, map_eq_some_iff.mpr ⟨best, hbest, rfl⟩, hbestUsable⟩
  have hmem : entry.curve.key ∈ cache.curves := lookup_isSome.mp (by rw [hentry]; rfl)
  exact mem_keys.mp hmem

end Choice

namespace PlannerInputsCache

variable (cache : PlannerInputsCache)

def collect (inputs : List PlannerVenueInput) (key : CurveKey) : List PlannerVenueInput :=
  match cache.inputOf key.symbol key.venueId with
  | none => inputs
  | some input =>
      if inputs.any (fun input => decide (input.venueId = key.venueId)) then inputs
      else inputs ++ [input]

variable {cache}

theorem lookup_foldl_snapshotStep
    (keys : List CurveKey) (snapshot : PlannerInputsBySymbol) (symbol : String) :
    ((keys.foldl cache.snapshotStep snapshot).lookup symbol).getD [] =
      (keys.filter (fun key => decide (key.symbol = symbol))).foldl cache.collect
        ((snapshot.lookup symbol).getD []) := by
  induction keys generalizing snapshot with
  | nil => rfl
  | cons key keys ih =>
      rw [foldl_cons, ih]
      by_cases hkey : key.symbol = symbol
      · rw [filter_cons_of_pos (by simpa using hkey), foldl_cons]
        congr 1
        subst hkey
        unfold snapshotStep collect inputOf
        cases hbest : cache.selectBestCurveForVenueFallback key.symbol key.venueId with
        | none => rfl
        | some best =>
            dsimp only [map_some]
            rw [lookup_insert]
            rfl
      · rw [filter_cons_of_neg (by simpa using hkey)]
        congr 1
        unfold snapshotStep
        cases cache.selectBestCurveForVenueFallback key.symbol key.venueId with
        | none => rfl
        | some best =>
            dsimp only
            rw [lookup_insert_ne (Ne.symm hkey)]

theorem foldl_symbolStep (symbol : String) (keys : List CurveKey)
    {inputs : List PlannerVenueInput} {seen : List String}
    (hseen : ∀ venueId, venueId ∈ seen ↔ ∃ input ∈ inputs, input.venueId = venueId) :
    (keys.foldl (cache.symbolStep symbol) (inputs, seen)).1 =
      (keys.filter (fun key => decide (key.symbol = symbol))).foldl cache.collect inputs := by
  induction keys generalizing inputs seen with
  | nil => rfl
  | cons key keys ih =>
      rw [foldl_cons]
      by_cases hkey : key.symbol = symbol
      · rw [filter_cons_of_pos (by simpa using hkey), foldl_cons]
        subst hkey
        have hany : inputs.any (fun input => decide (input.venueId = key.venueId)) = true ↔
            key.venueId ∈ seen := by
          rw [hseen, List.any_eq_true]
          simp
        by_cases hmem : key.venueId ∈ seen
        · have hstep : cache.symbolStep key.symbol (inputs, seen) key = (inputs, seen) := by
            rw [symbolStep, if_neg (not_not.mpr rfl), if_pos hmem]
          have hcollect : cache.collect inputs key = inputs := by
            unfold collect
            split
            · rfl
            · rw [if_pos (hany.mpr hmem)]
          rw [hstep, hcollect, ih hseen]
        · cases hbest : cache.selectBestCurveForVenueFallback key.symbol key.venueId with
          | none =>
              have hstep : cache.symbolStep key.symbol (inputs, seen) key = (inputs, seen) := by
                rw [symbolStep, if_neg (not_not.mpr rfl), if_neg hmem, hbest]
              have hcollect : cache.collect inputs key = inputs := by
                rw [collect, inputOf, hbest]
                rfl
              rw [hstep, hcollect, ih hseen]
          | some best =>
              have hstep : cache.symbolStep key.symbol (inputs, seen) key =
                  (inputs ++ [cache.buildPlannerVenueInput key best], key.venueId :: seen) := by
                rw [symbolStep, if_neg (not_not.mpr rfl), if_neg hmem, hbest]
              have hcollect : cache.collect inputs key =
                  inputs ++ [cache.buildPlannerVenueInput key best] := by
                rw [collect, inputOf, hbest]
                exact if_neg (mt hany.mp hmem)
              rw [hstep, hcollect]
              apply ih
              intro venueId
              rw [mem_cons, hseen]
              constructor
              · rintro (rfl | ⟨input, hinput, hvenue⟩)
                · exact ⟨_, mem_append_right _ mem_cons_self, rfl⟩
                · exact ⟨input, mem_append_left _ hinput, hvenue⟩
              · rintro ⟨input, hinput, hvenue⟩
                rcases mem_append.mp hinput with hold | hnew
                · exact .inr ⟨input, hold, hvenue⟩
                · rw [mem_singleton.mp hnew] at hvenue
                  exact .inl hvenue.symm
      · have hstep : cache.symbolStep symbol (inputs, seen) key = (inputs, seen) := by
          rw [symbolStep, if_pos hkey]
        rw [filter_cons_of_neg (by simpa using hkey), hstep, ih hseen]

theorem mem_collect {symbol : String} {keys : List CurveKey}
    (hsymbol : ∀ key ∈ keys, key.symbol = symbol) {input : PlannerVenueInput} :
    input ∈ keys.foldl cache.collect [] ↔
      ∃ key ∈ keys, cache.inputOf symbol key.venueId = some input := by
  induction keys using List.reverseRecOn generalizing input with
  | nil => simp
  | append_singleton keys key ih =>
      have hkey := hsymbol key (by simp)
      have ih' := fun {input} => @ih (fun k hk => hsymbol k (mem_append_left _ hk)) input
      have hsplit : (∃ k ∈ keys ++ [key], cache.inputOf symbol k.venueId = some input) ↔
          (∃ k ∈ keys, cache.inputOf symbol k.venueId = some input) ∨
            cache.inputOf symbol key.venueId = some input := by
        simp [or_and_right, exists_or]
      rw [foldl_append, foldl_cons, foldl_nil, hsplit, ← ih', collect, hkey]
      cases hinput : cache.inputOf symbol key.venueId with
      | none => simp
      | some i =>
          dsimp only
          split
          · -- the venue is there already, with the same input
            rename_i hany
            obtain ⟨i', hi', hvenue⟩ := List.any_eq_true.mp hany
            obtain ⟨k, -, hk⟩ := ih'.mp hi'
            have hsame : k.venueId = key.venueId :=
              (inputOf_pair hk).2.symm.trans (of_decide_eq_true hvenue)
            rw [hsame, hinput, some_inj] at hk
            subst hk
            constructor
            · exact .inl
            · rintro (hold | heq)
              · exact hold
              · obtain rfl := some_inj.mp heq
                exact hi'
          · rw [mem_append, mem_singleton, some_inj, eq_comm (a := input)]

theorem nodup_collect (keys : List CurveKey) :
    ((keys.foldl cache.collect []).map (fun input => input.venueId)).Nodup := by
  induction keys using List.reverseRecOn with
  | nil => exact nodup_nil
  | append_singleton keys key ih =>
      rw [foldl_append, foldl_cons, foldl_nil, collect]
      split
      · exact ih
      · rename_i input hinput
        split
        · exact ih
        · rename_i hany
          rw [map_append, map_singleton, nodup_append]
          refine ⟨ih, nodup_singleton _, ?_⟩
          intro venueId hold venueId' hnew heq
          obtain ⟨old, hmem, rfl⟩ := mem_map.mp hold
          rw [mem_singleton.mp hnew, (inputOf_pair hinput).2] at heq
          exact hany (List.any_eq_true.mpr ⟨old, hmem, decide_eq_true heq⟩)

end PlannerInputsCache

section Routing

variable {thresholds : VenueThresholds} {events : List PlannerEvent}
variable {cache : PlannerInputsCache}

def symbolKeys (i : cache.Iteration) (symbol : String) : List CurveKey :=
  i.1.filter (fun key => decide (key.symbol = symbol))

variable {symbol : String}

theorem symbol_of_mem_symbolKeys {i : cache.Iteration} :
    ∀ key ∈ symbolKeys i symbol, key.symbol = symbol := by
  intro key hkey
  exact of_decide_eq_true (mem_filter.mp hkey).2

theorem mem_symbolKeys_iff (i : cache.Iteration) {key : CurveKey} :
    key ∈ symbolKeys i symbol ↔ key ∈ cache.curves.keys ∧ key.symbol = symbol := by
  rw [symbolKeys, mem_filter, i.2.mem_iff, decide_eq_true_eq]

def symbolInputs (i : cache.Iteration) (symbol : String) : List PlannerVenueInput :=
  sortBy (fun input => input.venueId) ((symbolKeys i symbol).foldl cache.collect [])

theorem mem_symbolInputs (i : cache.Iteration) {input : PlannerVenueInput} :
    input ∈ symbolInputs i symbol ↔
      ∃ key ∈ cache.curves.keys, key.symbol = symbol ∧
        cache.inputOf symbol key.venueId = some input := by
  rw [symbolInputs, mem_sortBy, mem_collect symbol_of_mem_symbolKeys]
  simp only [mem_symbolKeys_iff, and_assoc]

theorem pairwise_symbolInputs (i : cache.Iteration) (symbol : String) :
    (symbolInputs i symbol).Pairwise (fun a b => a.venueId < b.venueId) :=
  pairwise_sortBy _ (nodup_collect _)

theorem symbolInputs_eq (i j : cache.Iteration) (symbol : String) :
    symbolInputs i symbol = symbolInputs j symbol := by
  apply eq_of_pairwise_lt (pairwise_symbolInputs i symbol) (pairwise_symbolInputs j symbol)
  intro input
  rw [mem_symbolInputs, mem_symbolInputs]

theorem snapshot_eq (i : cache.Iteration) (symbol : String) :
    ((cache.getPlannerInputsSnapshot i).lookup symbol).getD [] = symbolInputs i symbol := by
  have hcollect : ((i.1.foldl cache.snapshotStep ∅).lookup symbol).getD [] =
      (i.1.filter (fun key => decide (key.symbol = symbol))).foldl cache.collect
        (((∅ : PlannerInputsBySymbol).lookup symbol).getD []) :=
    lookup_foldl_snapshotStep i.1 ∅ symbol
  rw [lookup_empty, getD_none] at hcollect
  rw [symbolInputs, symbolKeys, ← hcollect, getPlannerInputsSnapshot, lookup_mapRows]
  cases (i.1.foldl cache.snapshotStep ∅).lookup symbol with
  | none => rfl
  | some inputs => rfl

theorem snapshotForSymbol_eq (i : cache.Iteration) (symbol : String) :
    cache.getPlannerInputsSnapshotForSymbol i symbol = symbolInputs i symbol := by
  rw [getPlannerInputsSnapshotForSymbol, foldl_symbolStep symbol i.1 (by simp)]
  rfl

theorem soundInputs_symbolInputs
    (h : RecordsHistory thresholds events cache) (i : cache.Iteration) (symbol : String) :
    SoundInputs thresholds events symbol (symbolInputs i symbol) where
  usable := by
    intro input hinput husable
    obtain ⟨key, -, -, hof⟩ := (mem_symbolInputs i).mp hinput
    obtain ⟨hsymbol, hvenue, hiff⟩ := inputOf_spec h hof
    exact ⟨hiff.mp husable, hsymbol, hvenue.trans (inputOf_pair hof).2.symm⟩
  symbols := by
    intro input hinput
    obtain ⟨key, -, -, hof⟩ := (mem_symbolInputs i).mp hinput
    exact (inputOf_pair hof).1
  venues := pairwise_symbolInputs i symbol

theorem lookup_legacyBestProjection (i : cache.Iteration) (symbol : String) :
    (cache.legacyBestProjection i).lookup symbol =
      (maxElement isWorseLegacyCandidate
        ((symbolInputs i symbol).filter (fun input => input.usable))).map
          (fun input => input.curve) := by
  have hnodup : (((cache.getPlannerInputsSnapshot i).entries.filterMap (fun r =>
      (maxElement isWorseLegacyCandidate
        (r.2.filter (fun input => input.usable))).map
          (fun input => (r.1, input.curve)))).map Prod.fst).Nodup := by
    rw [List.Nodup, pairwise_map, pairwise_filterMap]
    refine (pairwise_map.mp (cache.getPlannerInputsSnapshot i).nodupKeys).imp ?_
    rintro a b hab x hx y hy
    obtain ⟨_, -, rfl⟩ := map_eq_some_iff.mp hx
    obtain ⟨_, -, rfl⟩ := map_eq_some_iff.mp hy
    exact hab
  apply Option.ext
  intro curve
  rw [← snapshot_eq i symbol]
  constructor
  · intro hlookup
    rcases mem_of_lookup_foldl_insert hlookup with hmem | hempty
    · obtain ⟨r, hr, hbest⟩ := mem_filterMap.mp hmem
      obtain ⟨input, hinput, heq⟩ := map_eq_some_iff.mp hbest
      obtain ⟨rfl, rfl⟩ := Prod.mk.inj heq
      have hrow : (cache.getPlannerInputsSnapshot i).lookup r.1 = some r.2 :=
        mem_lookup_iff.mpr hr
      rw [hrow, getD_some, hinput]
      rfl
    · cases hempty
  · intro hbest
    obtain ⟨input, hinput, rfl⟩ := map_eq_some_iff.mp hbest
    cases hrow : (cache.getPlannerInputsSnapshot i).lookup symbol with
    | none =>
        rw [hrow] at hinput
        cases hinput
    | some inputs =>
        rw [hrow, getD_some] at hinput
        apply lookup_foldl_insert_of_mem hnodup
        exact mem_filterMap.mpr ⟨⟨symbol, inputs⟩, mem_lookup_iff.mp hrow, by rw [hinput]; rfl⟩

end Routing

/-- After every sequence of updates the snapshots agree and only offer the last curves of
venues that are allowed, and the projection has one for every symbol that has any. -/
theorem planner_routes_allowed (thresholds : VenueThresholds) (events : List PlannerEvent)
    (i j : (cacheAfter thresholds events).Iteration) : RoutesAllowed thresholds events i j := by
  have h := recordsHistory_cacheAfter thresholds events
  refine ⟨?_, ?_, ?_, ?_, ?_⟩
  · intro symbol inputs hlookup
    have hinputs := snapshot_eq i symbol
    rw [hlookup, Option.getD_some] at hinputs
    rw [hinputs]
    exact soundInputs_symbolInputs h i symbol
  · intro symbol
    rw [snapshotForSymbol_eq]
    exact soundInputs_symbolInputs h j symbol
  · intro symbol
    rw [snapshotForSymbol_eq, snapshot_eq]
    exact symbolInputs_eq j i symbol
  · intro symbol curve hlookup
    rw [lookup_legacyBestProjection] at hlookup
    obtain ⟨input, hbest, rfl⟩ := Option.map_eq_some_iff.mp hlookup
    obtain ⟨hinput, husable⟩ := List.mem_filter.mp (mem_of_maxElement hbest)
    have hsound := (soundInputs_symbolInputs h i symbol).usable input hinput husable
    exact ⟨hsound.1, hsound.2.1⟩
  · intro curve hroute hlevel
    obtain ⟨hkey, input, hof, husable⟩ := exists_usable_input h hroute hlevel
    have hinput : input ∈ (symbolInputs i curve.symbol).filter (fun input => input.usable) :=
      List.mem_filter.mpr ⟨(mem_symbolInputs i).mpr ⟨curve.key, hkey, rfl, hof⟩, husable⟩
    obtain ⟨best, hbest⟩ := exists_maxElement hinput
    exact ⟨best.curve, by rw [lookup_legacyBestProjection, hbest]; rfl⟩

end Planner
end Matching
end ContExchange
