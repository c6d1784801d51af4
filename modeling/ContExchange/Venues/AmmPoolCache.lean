import ContExchange.Common.Double
import ContExchange.Lib.Table
import ContExchange.Venues.AmmTicks

/-!
# Venues: the cache of pool states

`AmmPoolExtractor::ApplyToCache` keeps the last state of each pool.  It refuses a state of an
older block and a repetition of the cached one, and gives a number to what it stores.

* `applyToCache_cases`: what a call can do;
* `updatesInOrder_iff`: when the stored updates of a pool stand in the order of their blocks
  and numbers, over every run of deliveries to all pools.
-/

namespace ContExchange
namespace Venues

open Common Lib AList List Option

/-- `VenuePoolState` with the fields that only the extractor reads. -/
structure ExtractedPoolState extends VenuePoolState where
  poolAddress : String
  sqrtPriceX96 : String
  blockNumber : UInt64 := 0
  finalized : Bool := false

structure AmmPoolExtractResult where
  valid : Bool := false
  poolState : ExtractedPoolState
  reserveBase : Decimal := Decimal.zero
  reserveQuote : Decimal := Decimal.zero
  midPrice : Double := .zero
  sequence : UInt64 := 0
  error : String := ""

/-- `cache_`. -/
abbrev PoolCache := Table String AmmPoolExtractResult

/-- The stale update: both blocks are known and the new one is the older. -/
def AmmPoolExtractResult.isStale (result cached : AmmPoolExtractResult) : Bool :=
  decide (0 < result.poolState.blockNumber) && decide (0 < cached.poolState.blockNumber) &&
    decide (result.poolState.blockNumber < cached.poolState.blockNumber)

/-- The exact duplicate of a block. -/
def AmmPoolExtractResult.isRepeated (result cached : AmmPoolExtractResult) : Bool :=
  decide (0 < result.poolState.blockNumber) &&
    result.poolState.blockNumber == cached.poolState.blockNumber &&
    result.poolState.sqrtPriceX96 == cached.poolState.sqrtPriceX96

def applyToCache (cache : PoolCache) (poolKey : String) (result : AmmPoolExtractResult) :
    PoolCache × Bool :=
  if !result.valid then (cache, false)
  else
    match cache.lookup poolKey with
    | none => (cache.insert poolKey result, true)
    | some it =>
        if result.isStale it then (cache, false)
        else if result.isRepeated it then (cache, false)
        else
          let written := cache.insert poolKey result
          -- the iterator found the entry before it was overwritten, so it reads the new one
          let found := (written.lookup poolKey).getD it
          let cached := (written.lookup poolKey).getD result
          if cached.sequence ≤ found.sequence then
            (written.insert poolKey { cached with sequence := found.sequence + 1 }, true)
          else (written, true)

section Step

variable {cache : PoolCache} {poolKey : String} {result : AmmPoolExtractResult}

/-- What is stored of an accepted result: behind an entry its number is one higher. -/
def storedResult (found : Option AmmPoolExtractResult) (result : AmmPoolExtractResult) :
    AmmPoolExtractResult :=
  match found with
  | none => result
  | some _ => { result with sequence := result.sequence + 1 }

/-- Whether a result is refused behind an entry. -/
def Refuses (found : Option AmmPoolExtractResult) (result : AmmPoolExtractResult) : Prop :=
  result.valid = false ∨
    ∃ it, found = some it ∧ (result.isStale it = true ∨ result.isRepeated it = true)

theorem applyToCache_cases (cache : PoolCache) (poolKey : String) (result : AmmPoolExtractResult) :
    Refuses (cache.lookup poolKey) result ∧ applyToCache cache poolKey result = (cache, false) ∨
      ¬Refuses (cache.lookup poolKey) result ∧
        (applyToCache cache poolKey result).2 = true ∧
        ∀ k, (applyToCache cache poolKey result).1.lookup k =
          if k = poolKey then some (storedResult (cache.lookup poolKey) result)
          else cache.lookup k := by
  unfold applyToCache Refuses
  cases hvalid : result.valid with
  | false => exact Or.inl ⟨Or.inl rfl, rfl⟩
  | true =>
      cases hfound : cache.lookup poolKey with
      | none =>
          refine Or.inr ⟨?_, rfl, fun k => ?_⟩
          · rintro (h | ⟨it, h, -⟩) <;> cases h
          · by_cases hk : k = poolKey
            · subst hk
              simp [storedResult]
            · simp [hk, lookup_insert_ne hk]
      | some it =>
          by_cases hstale : result.isStale it = true
          · refine Or.inl ⟨Or.inr ⟨it, rfl, Or.inl hstale⟩, ?_⟩
            simp [hstale]
          · by_cases hrepeated : result.isRepeated it = true
            · refine Or.inl ⟨Or.inr ⟨it, rfl, Or.inr hrepeated⟩, ?_⟩
              simp [hstale, hrepeated]
            · refine Or.inr ⟨?_, ?_, fun k => ?_⟩
              · rintro (h | ⟨it', h, h'⟩)
                · cases h
                · obtain rfl := Option.some.inj h
                  exact h'.elim hstale hrepeated
              · simp [hstale, hrepeated]
              · by_cases hk : k = poolKey
                · subst hk
                  simp [hstale, hrepeated, storedResult]
                · simp [hstale, hrepeated, hk, lookup_insert_ne hk]

end Step

structure PoolDelivery where
  poolKey : String
  result : AmmPoolExtractResult

def cacheAfter (cache : PoolCache) (deliveries : List PoolDelivery) : PoolCache :=
  deliveries.foldl (fun cache d => (applyToCache cache d.poolKey d.result).1) cache

/-- What was stored for a pool, in the order of its acceptance. -/
def acceptedUpdates (poolKey : String) :
    PoolCache → List PoolDelivery → List AmmPoolExtractResult
  | _, [] => []
  | cache, d :: rest =>
      let (cache', accepted) := applyToCache cache d.poolKey d.result
      let later := acceptedUpdates poolKey cache' rest
      if accepted && d.poolKey == poolKey then (cache'.lookup poolKey).toList ++ later else later

/-- An update is before another: its block is not newer, and in the same block its number is
smaller. -/
def UpdateBefore (a b : AmmPoolExtractResult) : Prop :=
  a.poolState.blockNumber ≤ b.poolState.blockNumber ∧
    (a.poolState.blockNumber = b.poolState.blockNumber → a.sequence < b.sequence)
deriving Decidable

/-- The stored updates of a pool stand in their order, and the cache holds the last one. -/
structure UpdatesInOrder (poolKey : String) (deliveries : List PoolDelivery) : Prop where
  ordered : (acceptedUpdates poolKey ∅ deliveries).Pairwise UpdateBefore
  newest : (cacheAfter ∅ deliveries).lookup poolKey =
    (acceptedUpdates poolKey ∅ deliveries).getLast?

/-- A valid result has no unknown block behind a known one, and in the block of the entry it
repeats the price or has a number that is not below the one of the entry. -/
def KeepsOrder (found : Option AmmPoolExtractResult) (result : AmmPoolExtractResult) : Prop :=
  result.valid = true → ∀ it, found = some it →
    (result.poolState.blockNumber < it.poolState.blockNumber →
      result.poolState.blockNumber ≠ 0) ∧
    (result.poolState.blockNumber = it.poolState.blockNumber →
      result.isRepeated it = true ∨ it.sequence < result.sequence + 1)

def RunKeepsOrder (poolKey : String) : PoolCache → List PoolDelivery → Prop
  | _, [] => True
  | cache, d :: rest =>
      (d.poolKey = poolKey → KeepsOrder (cache.lookup poolKey) d.result) ∧
        RunKeepsOrder poolKey (applyToCache cache d.poolKey d.result).1 rest

section Runs

variable {cache : PoolCache} {poolKey : String} {a b c it result : AmmPoolExtractResult}

theorem UpdateBefore.trans (h : UpdateBefore a b) (h' : UpdateBefore b c) : UpdateBefore a c := by
  refine ⟨UInt64.le_trans h.1 h'.1, fun heq => ?_⟩
  have hab : a.poolState.blockNumber = b.poolState.blockNumber :=
    UInt64.le_antisymm h.1 (heq ▸ h'.1)
  exact UInt64.lt_trans (h.2 hab) (h'.2 (hab.symm.trans heq))

instance : Trans UpdateBefore UpdateBefore UpdateBefore := ⟨UpdateBefore.trans⟩

theorem updateBefore_stored_iff (haccept : ¬Refuses (some it) result) :
    UpdateBefore it (storedResult (some it) result) ↔ KeepsOrder (some it) result := by
  have hvalid : result.valid = true := by
    by_contra hnot
    exact haccept (Or.inl (Bool.eq_false_iff.mpr hnot))
  have hstale : result.isStale it = false := by
    by_contra hnot
    exact haccept (Or.inr ⟨it, rfl, Or.inl (by simpa using hnot)⟩)
  have hrepeated : result.isRepeated it = false := by
    by_contra hnot
    exact haccept (Or.inr ⟨it, rfl, Or.inr (by simpa using hnot)⟩)
  constructor
  · rintro ⟨hblock, hsequence⟩ - it' hit
    obtain rfl := Option.some.inj hit
    refine ⟨fun hlt => absurd hblock (UInt64.not_le.mpr hlt), fun heq => Or.inr ?_⟩
    exact hsequence heq.symm
  · intro hkeeps
    obtain ⟨hknown, hsame⟩ := hkeeps hvalid it rfl
    refine ⟨UInt64.not_lt.mp fun hlt => ?_, fun heq => ?_⟩
    · have hpos := UInt64.pos_iff_ne_zero.mpr (hknown hlt)
      have hpos' : 0 < it.poolState.blockNumber := UInt64.lt_trans hpos hlt
      have hyes : result.isStale it = true := by
        unfold AmmPoolExtractResult.isStale
        rw [decide_eq_true hpos, decide_eq_true hpos']
        exact decide_eq_true hlt
      rw [hyes] at hstale
      cases hstale
    · rcases hsame heq.symm with hrep | hlt
      · rw [hrep] at hrepeated
        cases hrepeated
      · exact hlt

theorem keepsOrder_of_refuses (found : Option AmmPoolExtractResult)
    (h : Refuses found result) : KeepsOrder found result := by
  rintro hvalid it rfl
  rcases h with h | ⟨it', hit, h | h⟩
  · rw [hvalid] at h
    cases h
  · obtain rfl := Option.some.inj hit
    unfold AmmPoolExtractResult.isStale at h
    simp only [Bool.and_eq_true, decide_eq_true_eq] at h
    obtain ⟨⟨hpos, -⟩, hlt⟩ := h
    refine ⟨fun _ => UInt64.pos_iff_ne_zero.mp hpos, fun heq => ?_⟩
    exact absurd (heq ▸ hlt) (UInt64.lt_irrefl _)
  · obtain rfl := Option.some.inj hit
    refine ⟨fun hlt => ?_, fun _ => Or.inl h⟩
    unfold AmmPoolExtractResult.isRepeated at h
    simp only [Bool.and_eq_true, decide_eq_true_eq, beq_iff_eq] at h
    exact UInt64.pos_iff_ne_zero.mp h.1.1

theorem acceptedUpdates_cons (poolKey : String) (cache : PoolCache) (d : PoolDelivery)
    (rest : List PoolDelivery) :
    acceptedUpdates poolKey cache (d :: rest) =
      if (applyToCache cache d.poolKey d.result).2 && d.poolKey == poolKey then
        ((applyToCache cache d.poolKey d.result).1.lookup poolKey).toList ++
          acceptedUpdates poolKey (applyToCache cache d.poolKey d.result).1 rest
      else acceptedUpdates poolKey (applyToCache cache d.poolKey d.result).1 rest := rfl

theorem ordered_iff (poolKey : String) (deliveries : List PoolDelivery) (cache : PoolCache) :
    ((cache.lookup poolKey).toList ++ acceptedUpdates poolKey cache deliveries).IsChain
        UpdateBefore ↔
      RunKeepsOrder poolKey cache deliveries := by
  induction deliveries generalizing cache with
  | nil => cases cache.lookup poolKey <;> simp [acceptedUpdates, RunKeepsOrder]
  | cons d rest ih =>
      unfold RunKeepsOrder
      rw [← ih, acceptedUpdates_cons]
      rcases applyToCache_cases cache d.poolKey d.result with ⟨hrefuse, heq⟩ | ⟨hno, hok, hrow⟩
      · have hkeeps : d.poolKey = poolKey → KeepsOrder (cache.lookup poolKey) d.result := by
          rintro rfl
          exact keepsOrder_of_refuses _ hrefuse
        simp only [heq, Bool.false_and, Bool.false_eq_true, if_false]
        exact ⟨fun h => ⟨hkeeps, h⟩, fun h => h.2⟩
      · have hlookup := hrow poolKey
        by_cases hkey : d.poolKey = poolKey
        · subst hkey
          rw [if_pos rfl] at hlookup
          simp only [hok, Bool.true_and, beq_self_eq_true, if_true, hlookup, toList_some]
          cases hfound : cache.lookup d.poolKey with
          | none =>
              simp only [toList_none, nil_append]
              refine ⟨fun h => ⟨?_, h⟩, fun h => h.2⟩
              rintro - - it hit
              cases hit
          | some it =>
              rw [hfound] at hno
              simp only [toList_some, cons_append, nil_append,
                isChain_cons_cons, updateBefore_stored_iff hno, true_implies]
        · rw [if_neg (Ne.symm hkey)] at hlookup
          simp only [hok, hlookup, beq_iff_eq, hkey, Bool.and_eq_true, and_false, if_false,
            false_implies, true_and]

theorem lookup_cacheAfter (poolKey : String) (deliveries : List PoolDelivery) (cache : PoolCache) :
    (cacheAfter cache deliveries).lookup poolKey =
      ((cache.lookup poolKey).toList ++ acceptedUpdates poolKey cache deliveries).getLast? := by
  induction deliveries generalizing cache with
  | nil => cases h : cache.lookup poolKey <;> simp [cacheAfter, acceptedUpdates, h]
  | cons d rest ih =>
      have hstep : cacheAfter cache (d :: rest) =
          cacheAfter (applyToCache cache d.poolKey d.result).1 rest := rfl
      rw [hstep, ih, acceptedUpdates_cons]
      rcases applyToCache_cases cache d.poolKey d.result with ⟨-, heq⟩ | ⟨-, hok, hrow⟩
      · simp only [heq, Bool.false_and, Bool.false_eq_true, if_false]
      · have hlookup := hrow poolKey
        by_cases hkey : d.poolKey = poolKey
        · subst hkey
          rw [if_pos rfl] at hlookup
          simp only [hok, Bool.true_and, beq_self_eq_true, if_true, hlookup, toList_some]
          exact (getLast?_append_of_ne_nil _ (cons_ne_nil _ _)).symm
        · rw [if_neg (Ne.symm hkey)] at hlookup
          simp only [hok, hlookup, beq_iff_eq, hkey, Bool.and_eq_true, and_false, if_false]

end Runs

/-- When the accepted updates of a pool stand in their order. -/
theorem updatesInOrder_iff (poolKey : String) (deliveries : List PoolDelivery) :
    UpdatesInOrder poolKey deliveries ↔ RunKeepsOrder poolKey ∅ deliveries := by
  have hchain := ordered_iff poolKey deliveries ∅
  have hlast := lookup_cacheAfter poolKey deliveries ∅
  simp only [AList.lookup_empty, Option.toList_none, List.nil_append] at hchain hlast
  rw [← hchain, List.isChain_iff_pairwise]
  exact ⟨fun h => h.ordered, fun h => ⟨h, hlast⟩⟩

def poolAtBlock100 (sqrtPriceX96 : String) : PoolDelivery :=
  { poolKey := "pool"
    result :=
      { valid := true
        poolState :=
          { tick := 0, liquidity := 0, ticks := [], poolAddress := "0xpool", sqrtPriceX96
            blockNumber := 100, finalized := true }
        midPrice := .num 1
        sequence := 100 } }

/-- Three prices of one block: the second and the third get the same number. -/
theorem block_out_of_order : ¬UpdatesInOrder "pool"
    [poolAtBlock100 "79228162514264337593543950336",
      poolAtBlock100 "79228162514264337593543950337",
      poolAtBlock100 "79228162514264337593543950338"] := by
  rintro ⟨hordered, -⟩
  revert hordered
  decide

end Venues
end ContExchange
