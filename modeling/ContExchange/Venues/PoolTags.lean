import ContExchange.Common.IntegerText
import ContExchange.Venues.AmmTicks
import ContExchange.Venues.ExecutionLoop

/-!
# Venues: the pool state in the tags of a snapshot

`NormalizeSnapshot` writes the state of a pool into the tags of the snapshot, the
ticks as one text of rows and columns.  `TryExtractAmmPoolState` reads it back.
The reader sorts the ticks, takes a negative scale for none, and gives no pool
without ticks or without liquidity.

* `parseI64_intText`: every number of 64 bits is read as it was written;
* `parseRow_rowText`, `ammRows_encode`: the columns of a row, the rows of a text;
* `pool_recovered`: what is read back of any pool.
-/

namespace ContExchange
namespace Venues
namespace PoolTags

open Common Lib AList Decimal List Option

/-- `ToString` of a venue type. -/
def venueTypeText : VenueType → List Char
  | .cex => "cex".toList
  | .dex => "dex".toList
  | .amm => "amm".toList

/-- `VenuePoolState`, with the texts it carries. -/
structure VenuePoolState where
  poolAddress : List Char
  sqrtPriceX96 : List Char
  tick : Int
  liquidity : List Char
  ticks : List VenuePoolTickLevel
  blockNumber : Nat
  finalized : Bool

/-- `std::to_string` of an unsigned number of 64 bits. -/
def unsignedText (n : Nat) : List Char :=
  if n < 10 ^ 19 then digitsText n else digitsText (n / 10) ++ [Nat.digitChar (n % 10)]

def rowText (level : VenuePoolTickLevel) : List Char :=
  intText level.tick ++ ',' ::
    (intText level.liquidityNet.units ++ ',' :: intText level.liquidityNet.scale)

def encodePoolTicks (ticks : List VenuePoolTickLevel) : List Char :=
  [';'].intercalate (ticks.map rowText)

/-- The tags of `NormalizeSnapshot`. -/
def normalizeSnapshot (venueType : VenueType) (poolState : Option VenuePoolState) :
    Table String (List Char) :=
  let tags : Table String (List Char) :=
    AList.insert "venue_type" (venueTypeText venueType) ∅
  match poolState with
  | some pool =>
      ((((((((tags.insert "amm.pool_state.present" "true".toList)
        |>.insert "amm.pool_address" pool.poolAddress)
        |>.insert "amm.sqrt_price_x96" pool.sqrtPriceX96)
        |>.insert "amm.tick" (intText pool.tick))
        |>.insert "amm.liquidity" pool.liquidity)
        |>.insert "amm.block_number" (unsignedText pool.blockNumber))
        |>.insert "amm.finalized" (if pool.finalized then "true".toList else "false".toList))
        |>.insert "amm.ticks" (encodePoolTicks pool.ticks))
  | none => tags.insert "amm.pool_state.present" "false".toList

def tagOrEmpty (tags : Table String (List Char)) (key : String) : List Char :=
  (tags.lookup key).getD []

def parseI64 (text : List Char) : Int :=
  match numberFront text with
  | some (neg, n, []) => clampInt64 (if neg then -n else n)
  | _ => 0

theorem parseI64_fits (text : List Char) : Int64Fits (parseI64 text) := by
  unfold parseI64
  split
  · exact clampInt64_fits _
  · exact int64Fits_zero

def parseU64 (text : List Char) : Nat :=
  match numberFront text with
  | some (neg, n, []) =>
      if 2 ^ 64 ≤ n then 2 ^ 64 - 1 else if neg then (2 ^ 64 - n) % 2 ^ 64 else n
  | _ => 0

def parseBool (text : List Char) (fallback : Bool) : Bool :=
  let normalized := text.map Char.toLower
  if normalized = ['1'] ∨ normalized = "true".toList ∨ normalized = "yes".toList then true
  else if normalized = ['0'] ∨ normalized = "false".toList ∨ normalized = "no".toList then false
  else fallback

/-- `std::getline` with a delimiter; `none` at the end of the stream. -/
def getline (delim : Char) (text : List Char) : Option (List Char × List Char) :=
  if text = [] then none
  else some (text.takeWhile (· ≠ delim), (text.dropWhile (· ≠ delim)).tail)

/-- The rows between the semicolons; an empty row is skipped. -/
def ammRows (text : List Char) : List (List Char) :=
  (text.splitOn ';').filter (fun row => decide (row ≠ []))

/-- The columns of a row; a row that lacks one is skipped. -/
def parseRow (row : List Char) : Option VenuePoolTickLevel := do
  let (tickText, cols) ← getline ',' row
  let (unitsText, cols) ← getline ',' cols
  let (scaleText, _) ← getline ',' cols
  some
    { tick := parseI64 tickText
      liquidityNet :=
        ⟨parseI64 unitsText, (max 0 (parseI64 scaleText)).bmod (2 ^ 32), parseI64_fits unitsText⟩ }

/-- `std::sort` of the ticks. -/
abbrev TickSort := SortOf VenuePoolTickLevel.tick

def parseAmmTicks (std : TickSort) (encodedTicks : List Char) : List VenuePoolTickLevel :=
  std.sort ((ammRows encodedTicks).filterMap parseRow)

def isAmmLikeVenueSnapshot (tags : Table String (List Char)) : Bool :=
  let venueType := (tagOrEmpty tags "venue_type").map Char.toLower
  venueType = "amm".toList || venueType = "dex".toList

def tryExtractAmmPoolState (std : TickSort) (tags : Table String (List Char)) :
    Option VenuePoolState :=
  if isAmmLikeVenueSnapshot tags = false then none
  else if parseBool (tagOrEmpty tags "amm.pool_state.present") false = false then none
  else
    let pool : VenuePoolState :=
      { poolAddress := tagOrEmpty tags "amm.pool_address"
        sqrtPriceX96 := tagOrEmpty tags "amm.sqrt_price_x96"
        tick := parseI64 (tagOrEmpty tags "amm.tick")
        liquidity := tagOrEmpty tags "amm.liquidity"
        blockNumber := parseU64 (tagOrEmpty tags "amm.block_number")
        finalized := parseBool (tagOrEmpty tags "amm.finalized") true
        ticks := parseAmmTicks std (tagOrEmpty tags "amm.ticks") }
    if pool.ticks = [] ∨ pool.liquidity = [] then none else some pool

section Numbers

theorem parseI64_intText {n : Int} (h : Int64Fits n) : parseI64 (intText n) = n := by
  unfold parseI64
  rw [numberFront_intText h]
  dsimp only
  rw [signed_natAbs, clampInt64_of_fits h]

theorem parseU64_unsignedText {n : Nat} (h : n < 2 ^ 64) : parseU64 (unsignedText n) = n := by
  have hform : AllDigits (unsignedText n) ∧ unsignedText n ≠ [] ∧ number (unsignedText n) = n := by
    unfold unsignedText
    split_ifs with hsmall
    · exact ⟨allDigits_digitsText n, digitsText_ne_nil n, number_digitsText hsmall⟩
    · have hmod : n % 10 < 10 := Nat.mod_lt n (by norm_num)
      refine ⟨allDigits_append.mpr ⟨allDigits_digitsText _, ?_⟩, by simp, ?_⟩
      · intro c hc
        rw [mem_singleton.mp hc]
        exact digitChar_isDigit hmod
      · rw [number_append, number_digitsText (by omega)]
        have hlast : number [Nat.digitChar (n % 10)] = n % 10 := by
          have := digitChar_value hmod
          simpa [number] using this
        rw [hlast, length_singleton, pow_one, Nat.div_add_mod']
  obtain ⟨hdigits, hne, hvalue⟩ := hform
  have hfront := numberFront_signed false hdigits hne
  rw [if_neg Bool.false_ne_true, nil_append, hvalue] at hfront
  unfold parseU64
  rw [hfront]
  dsimp only
  rw [if_neg (not_le.mpr h), if_neg Bool.false_ne_true]

end Numbers

section Rows

variable {delim : Char} {front : List Char} {level : VenuePoolTickLevel}

theorem getline_append (h : delim ∉ front) (rest : List Char) :
    getline delim (front ++ delim :: rest) = some (front, rest) := by
  have hfront : ∀ x ∈ front, decide (x ≠ delim) = true :=
    fun x hx => decide_eq_true fun heq => h (heq ▸ hx)
  unfold getline
  rw [if_neg (by simp), takeWhile_append_of_pos hfront, dropWhile_append_of_pos hfront]
  simp

theorem getline_last (h : delim ∉ front) (hne : front ≠ []) :
    getline delim front = some (front, []) := by
  have hfront : ∀ x ∈ front, decide (x ≠ delim) = true :=
    fun x hx => decide_eq_true fun heq => h (heq ▸ hx)
  unfold getline
  rw [if_neg hne, takeWhile_eq_self_iff.mpr hfront, dropWhile_eq_nil_iff.mpr hfront]
  rfl

theorem semicolon_notMem_rowText (level : VenuePoolTickLevel) : ';' ∉ rowText level := by
  have hint : ∀ n, ';' ∉ intText n := fun n => notMem_intText n (by decide) (by decide)
  simp [rowText, hint]

theorem rowText_ne_nil (level : VenuePoolTickLevel) : rowText level ≠ [] := by
  simp [rowText]

theorem ammRows_encode (ticks : List VenuePoolTickLevel) :
    ammRows (encodePoolTicks ticks) = ticks.map rowText := by
  unfold ammRows encodePoolTicks
  cases ticks with
  | nil => rfl
  | cons first rest =>
      rw [splitOn_intercalate ';' ?_ (by simp), filter_eq_self]
      · intro row hrow
        obtain ⟨level, -, rfl⟩ := mem_map.mp hrow
        exact decide_eq_true (rowText_ne_nil level)
      · intro row hrow
        obtain ⟨level, -, rfl⟩ := mem_map.mp hrow
        exact semicolon_notMem_rowText level

/-- The numbers of a tick fit the types of its fields. -/
structure LevelFits (level : VenuePoolTickLevel) : Prop where
  tick : Int64Fits level.tick
  scaleLow : -2 ^ 31 ≤ level.liquidityNet.scale
  scaleHigh : level.liquidityNet.scale < 2 ^ 31

/-- A tick as it is read back: a negative scale is read as none. -/
def readBack (level : VenuePoolTickLevel) : VenuePoolTickLevel :=
  { tick := level.tick
    liquidityNet :=
      ⟨level.liquidityNet.units, max 0 level.liquidityNet.scale, level.liquidityNet.fits⟩ }

theorem readBack_of_nonneg (h : 0 ≤ level.liquidityNet.scale) : readBack level = level := by
  unfold readBack
  rw [VenuePoolTickLevel.mk.injEq]
  exact ⟨rfl, eq_of_units_of_scale rfl (max_eq_right h)⟩

theorem map_readBack {ticks : List VenuePoolTickLevel}
    (h : ∀ level ∈ ticks, 0 ≤ level.liquidityNet.scale) : ticks.map readBack = ticks :=
  (map_congr_left fun level hlevel => readBack_of_nonneg (h level hlevel)).trans (map_id ticks)

theorem parseRow_rowText (h : LevelFits level) :
    parseRow (rowText level) = some (readBack level) := by
  have hcomma : ∀ n, ',' ∉ intText n := fun n => notMem_intText n (by decide) (by decide)
  have hscale : Int64Fits level.liquidityNet.scale := by
    obtain ⟨-, hlow, hhigh⟩ := h
    constructor
    · unfold int64Min
      omega
    · unfold int64Max
      omega
  have hcast : (max 0 level.liquidityNet.scale).bmod (2 ^ 32) = max 0 level.liquidityNet.scale := by
    have hhigh := h.scaleHigh
    exact Int.bmod_eq_of_le (by omega) (by omega)
  unfold parseRow rowText
  rw [getline_append (hcomma _), bind_eq_bind, bind_some]
  dsimp only
  rw [getline_append (hcomma _), bind_some]
  dsimp only
  rw [getline_last (hcomma _) (intText_ne_nil _), bind_some]
  simp only [parseI64_intText h.tick, parseI64_intText level.liquidityNet.fits,
    parseI64_intText hscale, hcast]
  rfl

theorem parseAmmTicks_encode (std : TickSort) {ticks : List VenuePoolTickLevel}
    (h : ∀ level ∈ ticks, LevelFits level) :
    parseAmmTicks std (encodePoolTicks ticks) = std.sort (ticks.map readBack) := by
  unfold parseAmmTicks
  rw [ammRows_encode]
  congr 1
  induction ticks with
  | nil => rfl
  | cons level rest ih =>
      obtain ⟨hlevel, hrest⟩ := forall_mem_cons.mp h
      rw [map_cons, filterMap_cons, parseRow_rowText hlevel, ih hrest]
      rfl

end Rows

section Pool

variable {pool : VenuePoolState} {venueType : VenueType}

/-- The numbers of a pool fit the types of its fields. -/
structure VenuePoolState.Fits (pool : VenuePoolState) : Prop where
  tick : Int64Fits pool.tick
  ticks : ∀ level ∈ pool.ticks, LevelFits level
  blockNumber : pool.blockNumber < 2 ^ 64

theorem parseBool_finalized (finalized : Bool) :
    parseBool (if finalized then "true".toList else "false".toList) true = finalized := by
  cases finalized <;> decide

theorem tryExtract_normalize (std : TickSort) (htype : venueType ≠ .cex) (hfits : pool.Fits) :
    tryExtractAmmPoolState std (normalizeSnapshot venueType (some pool)) =
      if pool.ticks = [] ∨ pool.liquidity = [] then none
      else some { pool with ticks := std.sort (pool.ticks.map readBack) } := by
  have hamm : isAmmLikeVenueSnapshot (normalizeSnapshot venueType (some pool)) = true := by
    have htag : tagOrEmpty (normalizeSnapshot venueType (some pool)) "venue_type" =
        venueTypeText venueType := by
      simp only [normalizeSnapshot, tagOrEmpty, lookup_insert_ne, lookup_insert, ne_eq,
        String.reduceEq, not_false_eq_true, getD_some]
    unfold isAmmLikeVenueSnapshot
    rw [htag]
    cases venueType with
    | cex => exact absurd rfl htype
    | dex => decide
    | amm => decide
  have hempty : std.sort (pool.ticks.map readBack) = [] ↔ pool.ticks = [] := by
    have hlength := (std.perm (pool.ticks.map readBack)).length_eq
    rw [← length_eq_zero_iff, hlength, length_map, length_eq_zero_iff]
  unfold tryExtractAmmPoolState
  rw [hamm, if_neg (by simp)]
  simp only [normalizeSnapshot, tagOrEmpty, lookup_insert_ne, lookup_insert, ne_eq,
    String.reduceEq, not_false_eq_true, getD_some]
  rw [if_neg (by decide), parseI64_intText hfits.tick, parseU64_unsignedText hfits.blockNumber,
    parseBool_finalized, parseAmmTicks_encode std hfits.ticks]
  simp only [hempty]

/-- The state that is read back of a pool: the same numbers and texts, and the same ticks in
ascending order; where they were so before, and no scale is negative, the same state. -/
structure Recovered (pool out : VenuePoolState) : Prop where
  fields : out = { pool with ticks := out.ticks }
  ticks : out.ticks.Perm (pool.ticks.map readBack)
  sorted : out.ticks.Pairwise (fun a b => a.tick ≤ b.tick)
  same : pool.ticks.Pairwise (fun a b => a.tick < b.tick) →
    (∀ level ∈ pool.ticks, 0 ≤ level.liquidityNet.scale) → out = pool

/-- Every pool of an AMM or a DEX with ticks and with liquidity is recovered. -/
theorem pool_recovered (std : TickSort) (htype : venueType ≠ .cex) (hfits : pool.Fits) :
    (tryExtractAmmPoolState std (normalizeSnapshot venueType (some pool)) = none ↔
      pool.ticks = [] ∨ pool.liquidity = []) ∧
    ∀ out, tryExtractAmmPoolState std (normalizeSnapshot venueType (some pool)) = some out →
      Recovered pool out := by
  rw [tryExtract_normalize std htype hfits]
  split_ifs with hnone
  · exact ⟨iff_of_true rfl hnone, fun out hout => absurd hout (by simp)⟩
  · refine ⟨iff_of_false (by simp) hnone, ?_⟩
    intro out hout
    obtain rfl := Option.some.inj hout
    have hperm := std.perm (pool.ticks.map readBack)
    have hsorted := std.sorted (pool.ticks.map readBack)
    refine ⟨rfl, hperm, hsorted, ?_⟩
    intro hascending hscales
    rw [map_readBack hscales] at hperm hsorted ⊢
    have hnodup : (pool.ticks.map VenuePoolTickLevel.tick).Nodup :=
      List.pairwise_map.mpr (hascending.imp fun h => ne_of_lt h)
    have hne : (std.sort pool.ticks).Pairwise (fun a b => a.tick ≠ b.tick) :=
      List.pairwise_map.mp ((hperm.map VenuePoolTickLevel.tick).nodup_iff.mpr hnodup)
    have hless := (hsorted.and hne).imp fun h => lt_of_le_of_ne h.1 h.2
    rw [eq_of_pairwise_lt hless hascending fun a => hperm.mem_iff]

/-- A pool with a negative tick, the least tick there is, and large liquidity. -/
def widePool : VenuePoolState where
  poolAddress := "0xpool".toList
  sqrtPriceX96 := "79228162514264337593543950336".toList
  tick := -9223372036854775808
  liquidity := "340282366920938463463374607431768211455".toList
  ticks := [⟨-9223372036854775808, .of 9223372036854775807 18⟩, ⟨-60, .of (-5) 0⟩]
  blockNumber := 18446744073709551615
  finalized := false

theorem widePool_fits : widePool.Fits where
  tick := by decide
  ticks := forall_mem_cons.mpr
    ⟨⟨by decide, by decide, by decide⟩, forall_mem_singleton.mpr ⟨by decide, by decide, by decide⟩⟩
  blockNumber := by decide

/-- The wide pool is recovered. -/
theorem widePool_recovered :
    (tryExtractAmmPoolState (.stable _) (normalizeSnapshot .dex (some widePool)) = none ↔
      widePool.ticks = [] ∨ widePool.liquidity = []) ∧
    ∀ out, tryExtractAmmPoolState (.stable _) (normalizeSnapshot .dex (some widePool)) =
      some out → Recovered widePool out :=
  pool_recovered (.stable _) (by decide) widePool_fits

def descendingPool : VenuePoolState :=
  { widePool with ticks := [⟨60, .of 7 0⟩, ⟨-60, .of (-5) 0⟩] }

/-- Ticks in descending order do not come back as they were. -/
theorem descending_ticks_sorted :
    descendingPool.Fits ∧ ∀ std : TickSort,
      (tryExtractAmmPoolState std (normalizeSnapshot .amm (some descendingPool))).map
        VenuePoolState.ticks ≠ some descendingPool.ticks := by
  have hfits : descendingPool.Fits :=
    { tick := widePool_fits.tick
      ticks := List.forall_mem_cons.mpr
        ⟨⟨by decide, by decide, by decide⟩, List.forall_mem_singleton.mpr
          ⟨by decide, by decide, by decide⟩⟩
      blockNumber := widePool_fits.blockNumber }
  refine ⟨hfits, ?_⟩
  intro std hsame
  rw [tryExtract_normalize std (by decide) hfits, if_neg (by decide), Option.map_some,
    Option.some.injEq] at hsame
  change std.sort (descendingPool.ticks.map readBack) = descendingPool.ticks at hsame
  have hsorted := std.sorted (descendingPool.ticks.map readBack)
  rw [hsame] at hsorted
  exact absurd hsorted (by decide)

end Pool

end PoolTags
end Venues
end ContExchange
