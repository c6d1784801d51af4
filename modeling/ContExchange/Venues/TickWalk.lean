import ContExchange.Venues.AmmTicks

/-!
# Venues: the tick walks and the liquidity of the pool

The reference is the constant-liquidity walk of the pool.  It starts at the current
tick with the liquidity in range, takes the range up to the next initialised tick, and
crosses each initialised tick once: downwards the ticks up to the current one, upwards
those above it.

Both builders cross the first tick of the ask side before they take a range, so the
range from the current tick to it is missing.  The direct builder does not cross a
current tick that is initialised when it walks down.  `tickWalkExact_iff` says for
which pools neither matters.
-/

namespace ContExchange
namespace Venues

open Common List AmmExecutionSegment VenuePoolState

/-- A range of prices between two ticks, with the liquidity in it. -/
structure PriceRange where
  near : Int
  far : Int
  liquidity : ℚ

/-- The ranges of a walk from a tick, `delta` being what crossing a tick adds. -/
def walk (delta : VenuePoolTickLevel → ℚ) : ℚ → Int → List VenuePoolTickLevel → List PriceRange
  | _, _, [] => []
  | liquidity, near, level :: rest =>
      { near, far := level.tick, liquidity } ::
        walk delta (liquidity + delta level) level.tick rest

/-- The liquidity of a walk never falls below zero. -/
def StaysNonneg (delta : VenuePoolTickLevel → ℚ) : ℚ → List VenuePoolTickLevel → Prop
  | liquidity, [] => 0 ≤ liquidity
  | liquidity, level :: rest =>
      0 ≤ liquidity ∧ StaysNonneg delta (liquidity + delta level) rest

instance decidableStaysNonneg (delta : VenuePoolTickLevel → ℚ) :
    (liquidity : ℚ) → (ts : List VenuePoolTickLevel) → Decidable (StaysNonneg delta liquidity ts)
  | liquidity, [] => inferInstanceAs (Decidable (0 ≤ liquidity))
  | liquidity, level :: rest =>
      have := decidableStaysNonneg delta (liquidity + delta level) rest
      inferInstanceAs (Decidable (_ ∧ _))

theorem StaysNonneg.head {delta : VenuePoolTickLevel → ℚ} {liquidity : ℚ}
    {ts : List VenuePoolTickLevel} (h : StaysNonneg delta liquidity ts) : 0 ≤ liquidity := by
  cases ts with
  | nil => exact h
  | cons level rest => exact h.1

def upwards (level : VenuePoolTickLevel) : ℚ :=
  level.liquidityNet.toRat

def downwards (level : VenuePoolTickLevel) : ℚ :=
  -level.liquidityNet.toRat

namespace VenuePoolState

/-- The initialised ticks up to the current one, from above. -/
def below (pool : VenuePoolState) : List VenuePoolTickLevel :=
  (pool.ticks.filter (fun level => decide (level.tick ≤ pool.tick))).reverse

/-- The initialised ticks above the current one, from below. -/
def above (pool : VenuePoolState) : List VenuePoolTickLevel :=
  pool.ticks.filter (fun level => decide (pool.tick < level.tick))

end VenuePoolState

/-- A pool with sorted ticks and liquidity in range, whose net liquidities keep the liquidity
from falling below zero on both sides. -/
structure TickPool where
  pool : VenuePoolState
  sorted : pool.ticks.Pairwise (fun a b => a.tick < b.tick)
  liquidity_pos : 0 < pool.liquidity
  below_nonneg : StaysNonneg downwards pool.liquidity pool.below
  above_nonneg : StaysNonneg upwards pool.liquidity pool.above

section Reference

variable {K : Type*} [Field K] [LinearOrder K]

/-- The base quantity of a range. -/
def PriceRange.amount (s : SqrtPrice K) (r : PriceRange) : K :=
  (r.liquidity : K) * |1 / s.root r.near - 1 / s.root r.far|

def PriceRange.segment (s : SqrtPrice K) (r : PriceRange) : AmmExecutionSegment K where
  price := priceAtTick s r.far
  qty := r.amount s

/-- The segments of the ranges that hold base quantity. -/
def segments (s : SqrtPrice K) (rs : List PriceRange) : List (AmmExecutionSegment K) :=
  (rs.map (PriceRange.segment s)).filter (fun seg => decide (0 < seg.qty))

def TickPool.ranges (p : TickPool) : ExecutionSide → List PriceRange
  | .sell => walk downwards p.pool.liquidity p.pool.tick p.pool.below
  | .buy => walk upwards p.pool.liquidity p.pool.tick p.pool.above

/-- The base quantities of one side of a pool. -/
def TickPool.quantities (p : TickPool) (s : SqrtPrice K) (side : ExecutionSide) : List K :=
  ((p.ranges side).map (PriceRange.amount s)).filter (fun qty => decide (0 < qty))

/-- Both builders give the base quantities of the reference walk, as many as asked for, and the
same segments without a fee. -/
structure TickWalkExact (K : Type*) [Field K] [LinearOrder K] (p : TickPool) : Prop where
  direct : ∀ (s : SqrtPrice K) side config,
    (buildSideSegmentsFromTicks s p.pool side config).map AmmExecutionSegment.qty
      = (p.quantities s side).take (max 1 config.maxSegmentsPerSide)
  virtual : ∀ (s : SqrtPrice K) midPrice feeRate maxLevels (side : ExecutionSide),
    0 < midPrice → |feeRate| < 1 →
    (buildTickBasedSide s p.pool midPrice feeRate maxLevels (decide (side = .sell))).map
        AmmExecutionSegment.qty
      = (p.quantities s side).take maxLevels
  same : ∀ (s : SqrtPrice K) midPrice (side : ExecutionSide) config,
    0 < midPrice → 0 < config.maxSegmentsPerSide →
    buildTickBasedSide s p.pool midPrice 0 config.maxSegmentsPerSide (decide (side = .sell))
      = buildSideSegmentsFromTicks s p.pool side config

/-- No range is missed: the current tick is initialised and changes nothing, or there is no tick
above it and it is not the upper end of a range. -/
def NoneMissed (p : TickPool) : Prop :=
  (∃ level ∈ p.pool.ticks, level.tick = p.pool.tick ∧ level.liquidityNet.toRat = 0)
    ∨ (∀ level ∈ p.pool.ticks, level.tick ≤ p.pool.tick)
      ∧ ((∀ level ∈ p.pool.ticks, level.tick ≠ p.pool.tick)
        ∨ ∀ level ∈ p.pool.ticks, p.pool.tick ≤ level.tick)
deriving Decidable

theorem quantities_eq (p : TickPool) (s : SqrtPrice K) (side : ExecutionSide) :
    p.quantities s side = (segments s (p.ranges side)).map qty := by
  unfold TickPool.quantities segments
  rw [filter_map, filter_map, map_map]
  rfl

theorem segments_cons_of_pos {s : SqrtPrice K} {r : PriceRange} {rs : List PriceRange}
    (h : 0 < r.amount s) : segments s (r :: rs) = r.segment s :: segments s rs :=
  filter_cons_of_pos (p := fun seg : AmmExecutionSegment K => decide (0 < seg.qty))
    (decide_eq_true h)

theorem segments_cons_of_not_pos {s : SqrtPrice K} {r : PriceRange} {rs : List PriceRange}
    (h : ¬ 0 < r.amount s) : segments s (r :: rs) = segments s rs :=
  filter_cons_of_neg (p := fun seg : AmmExecutionSegment K => decide (0 < seg.qty))
    (fun h' => h (of_decide_eq_true h'))

end Reference

section Ranges

variable {K : Type*} [Field K] [LinearOrder K] [IsStrictOrderedRing K] {s : SqrtPrice K}

theorem priceAtTick_pos (s : SqrtPrice K) (tick : Int) : 0 < priceAtTick s tick :=
  pow_pos (s.pos tick) 2

theorem priceAtTick_lt_iff (s : SqrtPrice K) (a b : Int) :
    priceAtTick s a < priceAtTick s b ↔ a < b := by
  unfold priceAtTick
  rw [pow_lt_pow_iff_left₀ (s.pos a).le (s.pos b).le (by norm_num), s.mono.lt_iff_lt]

theorem inv_root_lt (s : SqrtPrice K) {a b : Int} (h : a < b) : 1 / s.root b < 1 / s.root a :=
  one_div_lt_one_div_of_lt (s.pos a) (s.mono h)

variable {liquidity : ℚ}

theorem baseAmountInRange_eq (s : SqrtPrice K) {lower upper : Int} (hliq : 0 ≤ liquidity)
    (h : lower < upper) :
    baseAmountInRange s liquidity lower upper
      = (liquidity : K) * (1 / s.root lower - 1 / s.root upper) := by
  have hdiff : 0 < 1 / s.root lower - 1 / s.root upper := sub_pos.mpr (inv_root_lt s h)
  unfold baseAmountInRange
  rcases hliq.eq_or_lt with rfl | hpos
  · rw [if_pos (.inl le_rfl), Rat.cast_zero, zero_mul]
  · have hqty : 0 < (liquidity : K) * (1 / s.root lower - 1 / s.root upper) :=
      mul_pos (Rat.cast_pos.mpr hpos) hdiff
    rw [if_neg, if_neg, if_neg]
    · exact if_neg hqty.not_ge
    · exact fun h => h.elim (s.pos lower).not_ge (s.pos upper).not_ge
    · exact ((priceAtTick_lt_iff s lower upper).mpr h).not_ge
    · exact fun h => h.elim hpos.not_ge
        (fun h => h.elim (priceAtTick_pos s lower).not_ge (priceAtTick_pos s upper).not_ge)

theorem amount_down (s : SqrtPrice K) {near far : Int} (hliq : 0 ≤ liquidity) (h : far < near) :
    baseAmountInRange s liquidity far near = PriceRange.amount s ⟨near, far, liquidity⟩ := by
  rw [baseAmountInRange_eq s hliq h, PriceRange.amount, abs_sub_comm,
    abs_of_pos (sub_pos.mpr (inv_root_lt s h))]

theorem amount_up (s : SqrtPrice K) {near far : Int} (hliq : 0 ≤ liquidity) (h : near < far) :
    baseAmountInRange s liquidity near far = PriceRange.amount s ⟨near, far, liquidity⟩ := by
  rw [baseAmountInRange_eq s hliq h, PriceRange.amount, abs_of_pos (sub_pos.mpr (inv_root_lt s h))]

theorem amount_pos_iff (s : SqrtPrice K) {r : PriceRange} (hne : r.near ≠ r.far) :
    0 < r.amount s ↔ 0 < r.liquidity := by
  have hdiff : 0 < |1 / s.root r.near - 1 / s.root r.far| := by
    rw [abs_pos, sub_ne_zero]
    rcases lt_or_gt_of_ne hne with h | h
    · exact (inv_root_lt s h).ne'
    · exact (inv_root_lt s h).ne
  unfold PriceRange.amount
  rw [mul_pos_iff_of_pos_right hdiff, Rat.cast_pos]

theorem amount_self (s : SqrtPrice K) (tick : Int) (liquidity : ℚ) :
    PriceRange.amount s ⟨tick, tick, liquidity⟩ = 0 := by
  simp [PriceRange.amount]

end Ranges

section Loops

variable {K : Type*} [Field K] [LinearOrder K] [IsStrictOrderedRing K] {s : SqrtPrice K}

theorem append_take_cons
    {α : Type*} {out rest : List α} {x : α} {n : ℕ}
    (h : out.length < n) :
    (out ++ [x]) ++ rest.take (n - (out ++ [x]).length) = out ++ (x :: rest).take (n - out.length) := by
  obtain ⟨k, hk⟩ : ∃ k, n - out.length = k + 1 := ⟨n - out.length - 1, by omega⟩
  have hk' : n - (out ++ [x]).length = k := by
    rw [length_append, length_singleton]
    omega
  rw [hk, hk', take_succ_cons, append_assoc, singleton_append]

variable {out : List (AmmExecutionSegment K)} {ts : List VenuePoolTickLevel}

/-- The direct bids are the downward walk once a range is pushed, and from a start where the first
range will be. -/
theorem directBids_eq {currentTick : Int} {maxSegments : ℕ} {liquidity : ℚ} {above : Int}
    (hroom : out.length ≤ maxSegments) (hbelow : ∀ level ∈ ts, level.tick < above)
    (hsorted : ts.Pairwise (fun a b => b.tick < a.tick))
    (hliq : StaysNonneg downwards liquidity ts)
    (hstart : out ≠ [] ∨ above = currentTick ∧ 0 < liquidity) :
    directBids s currentTick maxSegments liquidity above out ts
      = out ++ (segments s (walk downwards liquidity above ts)).take
          (maxSegments - out.length) := by
  induction ts generalizing liquidity above out with
  | nil => simp [directBids, walk, segments]
  | cons level rest ih =>
      have hlt : level.tick < above := hbelow level mem_cons_self
      obtain ⟨hfirst, hrest⟩ := pairwise_cons.mp hsorted
      have hupper : (if out.isEmpty then currentTick else above) = above := by
        rcases hstart with hne | ⟨rfl, -⟩
        · rw [if_neg (by simpa using hne)]
        · exact ite_self _
      have hnext : max 0 (liquidity - level.liquidityNet.toRat) = liquidity + downwards level := by
        rw [sub_eq_add_neg]
        exact max_eq_right hliq.2.head
      by_cases hlen : out.length < maxSegments
      · rw [directBids, if_pos hlen]
        simp only [hupper, if_neg hlt.not_ge, hnext, amount_down s hliq.1 hlt, priceAtTick_pos,
          and_true]
        by_cases hqty : 0 < PriceRange.amount s ⟨above, level.tick, liquidity⟩
        · rw [if_pos hqty, ih (by simp; omega) hfirst hrest hliq.2 (.inl (by simp)), walk,
            segments_cons_of_pos hqty]
          exact append_take_cons hlen
        · have hne : out ≠ [] := by
            rcases hstart with hne | ⟨-, hpos⟩
            · exact hne
            · exact absurd ((amount_pos_iff s (by exact hlt.ne')).mpr hpos) hqty
          rw [if_neg hqty, ih hroom hfirst hrest hliq.2 (.inl hne), walk,
            segments_cons_of_not_pos hqty]
      · have hfull : maxSegments - out.length = 0 := by omega
        rw [directBids, if_neg hlen, hfull, take_zero, append_nil]

def withFee (feeMult : K) (seg : AmmExecutionSegment K) : AmmExecutionSegment K :=
  { seg with price := seg.price * feeMult }

theorem virtualBids_eq {currentTick : Int} {feeMult : K} {maxLevels : ℕ} {liq : ℚ} {above : Int}
    (hfee : 0 < feeMult) (hroom : out.length ≤ maxLevels)
    (hbelow : ∀ level ∈ ts, level.tick < above)
    (hsorted : ts.Pairwise (fun a b => b.tick < a.tick)) (hliq : StaysNonneg downwards liq ts)
    (hstart : out ≠ [] ∨ above = currentTick ∧ 0 < liq) :
    virtualBids s currentTick feeMult maxLevels liq above out ts
      = out ++ ((segments s (walk downwards liq above ts)).map (withFee feeMult)).take
          (maxLevels - out.length) := by
  induction ts generalizing liq above out with
  | nil => simp [virtualBids, walk, segments]
  | cons level rest ih =>
      have hlt : level.tick < above := hbelow level mem_cons_self
      obtain ⟨hfirst, hrest⟩ := pairwise_cons.mp hsorted
      have hupper : (if out.isEmpty then currentTick else above) = above := by
        rcases hstart with hne | ⟨rfl, -⟩
        · rw [if_neg (by simpa using hne)]
        · exact ite_self _
      have hnext : max 0 (liq - level.liquidityNet.toRat) = liq + downwards level := by
        rw [sub_eq_add_neg]
        exact max_eq_right hliq.2.head
      have hqtyIff := amount_pos_iff s (r := ⟨above, level.tick, liq⟩) hlt.ne'
      have hprice : 0 < priceAtTick s level.tick * feeMult :=
        mul_pos (priceAtTick_pos s level.tick) hfee
      by_cases hlen : out.length < maxLevels
      · rw [virtualBids, if_pos hlen]
        simp only [hupper, hnext, amount_down s hliq.1 hlt, priceAtTick_pos,
          (priceAtTick_lt_iff s _ _).mpr hlt, hprice, and_true]
        by_cases hqty : 0 < PriceRange.amount s ⟨above, level.tick, liq⟩
        · rw [if_pos ⟨hqtyIff.mp hqty, hqty⟩, ih (by simp; omega) hfirst hrest hliq.2
            (.inl (by simp)), walk, segments_cons_of_pos hqty]
          exact append_take_cons hlen
        · have hne : out ≠ [] := by
            rcases hstart with hne | ⟨-, hpos⟩
            · exact hne
            · exact absurd (hqtyIff.mpr hpos) hqty
          rw [if_neg (fun h => hqty h.2), ih hroom hfirst hrest hliq.2 (.inl hne), walk,
            segments_cons_of_not_pos hqty]
      · have hfull : maxLevels - out.length = 0 := by omega
        rw [virtualBids, if_neg hlen, hfull, take_zero, append_nil]

/-- The direct asks are the upward walk that starts at the first tick of the list, which has been
crossed. -/
theorem directAsks_eq {maxSegments : ℕ} {liquidity : ℚ} {level : VenuePoolTickLevel}
    (hroom : out.length ≤ maxSegments)
    (hsorted : (level :: ts).Pairwise (fun a b => a.tick < b.tick))
    (hliq : StaysNonneg upwards (liquidity + upwards level) ts) :
    directAsks s maxSegments liquidity out (level :: ts)
      = out ++ (segments s (walk upwards (liquidity + upwards level) level.tick ts)).take
          (maxSegments - out.length) := by
  induction ts generalizing liquidity out level with
  | nil => simp [directAsks, walk, segments]
  | cons next rest ih =>
      obtain ⟨hfirst, hrest⟩ := pairwise_cons.mp hsorted
      have hlt : level.tick < next.tick := hfirst next mem_cons_self
      have hnext : max 0 (liquidity + level.liquidityNet.toRat) = liquidity + upwards level :=
        max_eq_right hliq.1
      by_cases hlen : out.length < maxSegments
      · rw [directAsks, if_pos hlen]
        simp only [if_neg hlt.not_ge, hnext, amount_up s hliq.1 hlt, priceAtTick_pos, and_true]
        by_cases hqty : 0 < PriceRange.amount s ⟨level.tick, next.tick, liquidity + upwards level⟩
        · rw [if_pos hqty, ih (by simp; omega) hrest hliq.2, walk, segments_cons_of_pos hqty]
          exact append_take_cons hlen
        · rw [if_neg hqty, ih hroom hrest hliq.2, walk, segments_cons_of_not_pos hqty]
      · have hfull : maxSegments - out.length = 0 := by omega
        rw [directAsks, if_neg hlen, hfull, take_zero, append_nil]

theorem virtualAsks_eq {feeMult : K} {maxLevels : ℕ} {liq : ℚ} (hfee : 0 < feeMult)
    (hsorted : ts.Pairwise (fun a b => a.tick < b.tick)) :
    virtualAsks s feeMult maxLevels liq (out.map (withFee feeMult)) ts
      = (directAsks s maxLevels liq out ts).map (withFee feeMult) := by
  induction ts generalizing liq out with
  | nil => rfl
  | cons level rest ih =>
      obtain ⟨hfirst, hrest⟩ := pairwise_cons.mp hsorted
      rw [virtualAsks, directAsks, length_map]
      by_cases hlen : out.length < maxLevels
      · rw [if_pos hlen, if_pos hlen]
        cases rest with
        | nil => rfl
        | cons next rest =>
            have hlt : level.tick < next.tick := hfirst next mem_cons_self
            have hnonneg : 0 ≤ max 0 (liq + level.liquidityNet.toRat) := le_max_left _ _
            have hprice : 0 < priceAtTick s next.tick * feeMult :=
              mul_pos (priceAtTick_pos s next.tick) hfee
            have hqtyIff := amount_pos_iff s
              (r := ⟨level.tick, next.tick, max 0 (liq + level.liquidityNet.toRat)⟩) hlt.ne
            simp only [if_neg hlt.not_ge, amount_up s hnonneg hlt, hprice, priceAtTick_pos,
              (priceAtTick_lt_iff s _ _).mpr hlt, and_true]
            by_cases hqty : 0 < PriceRange.amount s
                ⟨level.tick, next.tick, max 0 (liq + level.liquidityNet.toRat)⟩
            · rw [if_pos ⟨hqtyIff.mp hqty, hqty⟩, if_pos hqty, ← ih hrest, map_append]
              rfl
            · rw [if_neg (fun h => hqty h.2), if_neg hqty, ← ih hrest]
      · rw [if_neg hlen, if_neg hlen]

end Loops

section Ticks

theorem takeWhile_dropWhile_eq_filter {α : Type*} {r : α → α → Prop} {keep : α → Bool}
    {as : List α} (hsorted : as.Pairwise r) (hkeep : ∀ a b, r a b → keep b = true → keep a = true) :
    as.takeWhile keep = as.filter keep ∧ as.dropWhile keep = as.filter (fun a => !keep a) := by
  induction as with
  | nil => exact ⟨rfl, rfl⟩
  | cons a as ih =>
      obtain ⟨hfirst, hrest⟩ := pairwise_cons.mp hsorted
      cases ha : keep a with
      | true => simpa [ha] using ih hrest
      | false =>
          have hnone : ∀ b ∈ as, keep b = false := by
            intro b hb
            by_contra hkb
            rw [hkeep a b (hfirst b hb) (by simpa using hkb)] at ha
            cases ha
          have hall : as.filter (fun a => !keep a) = as :=
            filter_eq_self.mpr fun b hb => by simp [hnone b hb]
          simpa [ha, hall] using hnone

variable (p : TickPool)

theorem upTo_reverse : p.pool.upTo.reverse = p.pool.below := by
  unfold VenuePoolState.upTo VenuePoolState.below
  rw [(takeWhile_dropWhile_eq_filter p.sorted ?_).1]
  intro a b hab hb
  exact decide_eq_true (hab.le.trans (of_decide_eq_true hb))

theorem below_sorted : p.pool.below.Pairwise (fun a b => b.tick < a.tick) :=
  pairwise_reverse.mpr (p.sorted.filter _)

theorem onwards_sorted : p.pool.onwards.Pairwise (fun a b => a.tick < b.tick) :=
  p.sorted.sublist (dropWhile_sublist _)

variable {p}

theorem ticks_of_not_initialised (h : ∀ level ∈ p.pool.ticks, level.tick ≠ p.pool.tick) :
    (∀ level ∈ p.pool.below, level.tick < p.pool.tick) ∧ p.pool.onwards = p.pool.above := by
  constructor
  · intro level hlevel
    obtain ⟨hmem, hle⟩ := mem_filter.mp (mem_reverse.mp hlevel)
    exact lt_of_le_of_ne (of_decide_eq_true hle) (h level hmem)
  · unfold VenuePoolState.onwards VenuePoolState.above
    rw [(takeWhile_dropWhile_eq_filter p.sorted ?_).2]
    · refine filter_congr (fun level hlevel => ?_)
      rw [← decide_not, decide_eq_decide, not_lt]
      exact ⟨fun hle => lt_of_le_of_ne hle (h level hlevel).symm, fun hlt => hlt.le⟩
    · intro a b hab hb
      exact decide_eq_true (hab.trans (of_decide_eq_true hb))

theorem ticks_of_initialised {current : VenuePoolTickLevel} (hmem : current ∈ p.pool.ticks)
    (htick : current.tick = p.pool.tick) :
    ∃ rest, p.pool.below = current :: rest ∧ (∀ level ∈ rest, level.tick < p.pool.tick)
      ∧ p.pool.onwards = current :: p.pool.above := by
  obtain ⟨lo, hi, hsplit⟩ := append_of_mem hmem
  have hsorted := p.sorted
  rw [hsplit, pairwise_append, pairwise_cons] at hsorted
  obtain ⟨-, ⟨hhi, -⟩, hlo⟩ := hsorted
  have hlow : ∀ level ∈ lo, level.tick < p.pool.tick := by
    intro level hlevel
    rw [← htick]
    exact hlo level hlevel current mem_cons_self
  have hhigh : ∀ level ∈ hi, p.pool.tick < level.tick := by
    intro level hlevel
    rw [← htick]
    exact hhi level hlevel
  have habove : p.pool.above = hi := by
    unfold above
    rw [hsplit, filter_append, filter_eq_nil_iff.mpr, nil_append,
      filter_cons_of_neg, filter_eq_self.mpr]
    · exact fun level hlevel => decide_eq_true (hhigh level hlevel)
    · simp [htick]
    · intro level hlevel
      simpa using (hlow level hlevel).le
  refine ⟨lo.reverse, ?_, fun level hlevel => hlow level (mem_reverse.mp hlevel), ?_⟩
  · unfold below
    rw [hsplit, filter_append, filter_eq_self.mpr, filter_cons_of_pos,
      filter_eq_nil_iff.mpr, reverse_append, reverse_singleton,
      singleton_append]
    · intro level hlevel
      simpa using hhigh level hlevel
    · simp [htick]
    · exact fun level hlevel => decide_eq_true (hlow level hlevel).le
  · unfold onwards
    rw [hsplit, habove, dropWhile_append_of_pos]
    · simp [htick]
    · exact fun level hlevel => decide_eq_true (hlow level hlevel)

end Ticks

section Exact

variable {K : Type*} [Field K] [LinearOrder K] [IsStrictOrderedRing K]
variable {s : SqrtPrice K} {p : TickPool}

omit [IsStrictOrderedRing K] in
theorem build_direct_eq (s : SqrtPrice K) (p : TickPool) (side : ExecutionSide)
    (config : DirectAmmFobConfig) :
    buildSideSegmentsFromTicks s p.pool side config =
      match side with
      | .sell =>
          directBids s p.pool.tick (max 1 config.maxSegmentsPerSide) p.pool.liquidity
            p.pool.tick [] p.pool.below
      | .buy =>
          directAsks s (max 1 config.maxSegmentsPerSide) p.pool.liquidity [] p.pool.onwards := by
  unfold buildSideSegmentsFromTicks
  dsimp only
  rw [if_neg p.liquidity_pos.not_ge, ← upTo_reverse]
  by_cases hempty : p.pool.ticks.isEmpty = true
  · rw [if_pos hempty]
    unfold VenuePoolState.upTo VenuePoolState.onwards
    rw [isEmpty_iff.mp hempty]
    cases side <;> rfl
  · refine (if_neg hempty).trans ?_
    cases side <;> rfl

omit [IsStrictOrderedRing K] in
theorem build_virtual_eq (s : SqrtPrice K) (p : TickPool) (side : ExecutionSide) {midPrice : ℚ}
    (feeRate : ℚ) {maxLevels : ℕ} (hmid : 0 < midPrice) (hlevels : maxLevels ≠ 0) :
    buildTickBasedSide s p.pool midPrice feeRate maxLevels (decide (side = .sell)) =
      match side with
      | .sell =>
          virtualBids s p.pool.tick (((1 - |feeRate| : ℚ)) : K) maxLevels p.pool.liquidity
            p.pool.tick [] p.pool.below
      | .buy =>
          virtualAsks s (((1 + |feeRate| : ℚ)) : K) maxLevels p.pool.liquidity []
            p.pool.onwards := by
  unfold buildTickBasedSide
  dsimp only
  rw [if_neg p.liquidity_pos.not_gt, ← upTo_reverse]
  by_cases hempty : p.pool.ticks.isEmpty = true
  · rw [if_pos (.inl hempty)]
    unfold VenuePoolState.upTo VenuePoolState.onwards
    rw [isEmpty_iff.mp hempty]
    cases side <;> rfl
  · refine (if_neg ?_).trans ?_
    · rintro (h | h | h)
      · exact hempty h
      · exact hmid.not_ge h
      · exact hlevels h
    · cases side <;> rfl

def feeFactor (feeRate : ℚ) : ExecutionSide → ℚ
  | .sell => 1 - |feeRate|
  | .buy => 1 + |feeRate|

theorem feeFactor_pos {feeRate : ℚ} (h : |feeRate| < 1) (side : ExecutionSide) :
    0 < feeFactor feeRate side := by
  have hnonneg : 0 ≤ |feeRate| := abs_nonneg feeRate
  cases side with
  | sell => exact sub_pos.mpr h
  | buy => exact add_pos_of_pos_of_nonneg one_pos hnonneg

/-- One side comes out of both builders as the reference walk. -/
structure SideExact (K : Type*) [Field K] [LinearOrder K] (p : TickPool) (side : ExecutionSide) :
    Prop where
  direct : ∀ (s : SqrtPrice K) config,
    buildSideSegmentsFromTicks s p.pool side config
      = (segments s (p.ranges side)).take (max 1 config.maxSegmentsPerSide)
  virtual : ∀ (s : SqrtPrice K) midPrice feeRate maxLevels,
    0 < midPrice → |feeRate| < 1 → maxLevels ≠ 0 →
    buildTickBasedSide s p.pool midPrice feeRate maxLevels (decide (side = .sell))
      = ((segments s (p.ranges side)).map (withFee ((feeFactor feeRate side : ℚ) : K))).take
          maxLevels

variable {current : VenuePoolTickLevel}

theorem sideExact_buy_of_current (hmem : current ∈ p.pool.ticks)
    (htick : current.tick = p.pool.tick) (hnet : current.liquidityNet.toRat = 0) :
    SideExact K p .buy := by
  obtain ⟨rest, -, -, honwards⟩ := ticks_of_initialised hmem htick
  have hsorted := onwards_sorted p
  have hsame : p.pool.liquidity + upwards current = p.pool.liquidity := by
    rw [upwards, hnet, add_zero]
  have hdirect : ∀ (s : SqrtPrice K) n,
      directAsks s n p.pool.liquidity [] p.pool.onwards = (segments s (p.ranges .buy)).take n := by
    intro s n
    rw [honwards, directAsks_eq (Nat.zero_le n) (honwards ▸ hsorted)
      (by rw [hsame]; exact p.above_nonneg), hsame, htick]
    rfl
  refine ⟨fun s config => ?_, fun s midPrice feeRate maxLevels hmid hfee hlevels => ?_⟩
  · rw [build_direct_eq]
    exact hdirect s _
  · rw [build_virtual_eq s p .buy feeRate hmid hlevels]
    have hpos : (0 : K) < ((1 + |feeRate| : ℚ) : K) :=
      Rat.cast_pos.mpr (feeFactor_pos hfee .buy)
    have hvirtual : virtualAsks s ((1 + |feeRate| : ℚ) : K) maxLevels p.pool.liquidity
          (([] : List (AmmExecutionSegment K)).map (withFee ((1 + |feeRate| : ℚ) : K)))
          p.pool.onwards
        = (directAsks s maxLevels p.pool.liquidity [] p.pool.onwards).map
            (withFee ((1 + |feeRate| : ℚ) : K)) :=
      virtualAsks_eq hpos hsorted
    rw [hdirect, map_take] at hvirtual
    exact hvirtual

theorem sideExact_buy_of_none (h : ∀ level ∈ p.pool.ticks, level.tick ≤ p.pool.tick) :
    SideExact K p .buy := by
  have habove : p.pool.above = [] := by
    unfold VenuePoolState.above
    rw [filter_eq_nil_iff]
    intro level hlevel
    simpa using h level hlevel
  have honwards : p.pool.onwards = [] ∨ ∃ current, p.pool.onwards = [current] := by
    by_cases hinit : ∃ level ∈ p.pool.ticks, level.tick = p.pool.tick
    · obtain ⟨current, hmem, htick⟩ := hinit
      obtain ⟨rest, -, -, hcurrent⟩ := ticks_of_initialised hmem htick
      exact .inr ⟨current, by rw [hcurrent, habove]⟩
    · have hnot : ∀ level ∈ p.pool.ticks, level.tick ≠ p.pool.tick :=
        fun level hlevel heq => hinit ⟨level, hlevel, heq⟩
      exact .inl ((ticks_of_not_initialised hnot).2.trans habove)
  have hranges : ∀ s : SqrtPrice K, segments s (p.ranges .buy) = [] := by
    intro s
    unfold TickPool.ranges
    rw [habove]
    rfl
  refine ⟨fun s config => ?_, fun s midPrice feeRate maxLevels hmid hfee hlevels => ?_⟩
  · rw [build_direct_eq, hranges, take_nil]
    rcases honwards with hnil | ⟨current, hone⟩
    · rw [hnil]
      rfl
    · simp [hone, directAsks]
  · rw [build_virtual_eq s p .buy feeRate hmid hlevels, hranges, map_nil, take_nil]
    rcases honwards with hnil | ⟨current, hone⟩
    · rw [hnil]
      rfl
    · simp [hone, virtualAsks]

theorem sideExact_sell_of_not_initialised (h : ∀ level ∈ p.pool.ticks, level.tick ≠ p.pool.tick) :
    SideExact K p .sell := by
  obtain ⟨hbelow, -⟩ := ticks_of_not_initialised h
  refine ⟨fun s config => ?_, fun s midPrice feeRate maxLevels hmid hfee hlevels => ?_⟩
  · rw [build_direct_eq]
    exact directBids_eq (Nat.zero_le _) hbelow (below_sorted p) p.below_nonneg
      (.inr ⟨rfl, p.liquidity_pos⟩)
  · rw [build_virtual_eq s p .sell feeRate hmid hlevels]
    exact virtualBids_eq (Rat.cast_pos.mpr (feeFactor_pos hfee .sell)) (Nat.zero_le _) hbelow
      (below_sorted p) p.below_nonneg (.inr ⟨rfl, p.liquidity_pos⟩)

theorem segments_sell_of_initialised {rest : List VenuePoolTickLevel}
    (htick : current.tick = p.pool.tick) (hbelow : p.pool.below = current :: rest) :
    segments s (p.ranges .sell)
      = segments s (walk downwards (p.pool.liquidity + downwards current) p.pool.tick rest) := by
  unfold TickPool.ranges
  rw [hbelow, walk, segments_cons_of_not_pos, htick]
  rw [htick, amount_self]
  exact lt_irrefl 0

/-- The virtual builder crosses a current tick that is initialised; its bids are exact as long as
liquidity is left below it. -/
theorem virtual_sell_of_left (hmem : current ∈ p.pool.ticks) (htick : current.tick = p.pool.tick)
    (hleft : 0 < p.pool.liquidity + downwards current) (s : SqrtPrice K) {midPrice feeRate : ℚ}
    {maxLevels : ℕ} (hmid : 0 < midPrice) (hfee : |feeRate| < 1) (hlevels : maxLevels ≠ 0) :
    buildTickBasedSide s p.pool midPrice feeRate maxLevels
        (decide (ExecutionSide.sell = ExecutionSide.sell))
      = ((segments s (p.ranges .sell)).map
          (withFee ((feeFactor feeRate .sell : ℚ) : K))).take maxLevels := by
  obtain ⟨rest, hbelow, hlower, -⟩ := ticks_of_initialised hmem htick
  have hsorted := below_sorted p
  have hliq := p.below_nonneg
  rw [hbelow] at hsorted hliq
  have hafter : max 0 (p.pool.liquidity - current.liquidityNet.toRat)
      = p.pool.liquidity + downwards current := by
    rw [sub_eq_add_neg]
    exact max_eq_right hleft.le
  have hroom : ([] : List (AmmExecutionSegment K)).length < maxLevels :=
    Nat.pos_of_ne_zero hlevels
  rw [build_virtual_eq s p .sell feeRate hmid hlevels, segments_sell_of_initialised htick hbelow,
    hbelow]
  simp only [virtualBids, hroom, isEmpty_nil, if_true, htick, lt_irrefl, and_false,
    false_and, if_false, hafter]
  exact virtualBids_eq (Rat.cast_pos.mpr (feeFactor_pos hfee .sell)) (Nat.zero_le _) hlower
    (pairwise_cons.mp hsorted).2 hliq.2 (.inr ⟨rfl, hleft⟩)

theorem sideExact_sell_of_current (hmem : current ∈ p.pool.ticks)
    (htick : current.tick = p.pool.tick) (hnet : current.liquidityNet.toRat = 0) :
    SideExact K p .sell := by
  obtain ⟨rest, hbelow, hlower, -⟩ := ticks_of_initialised hmem htick
  have hsorted := below_sorted p
  have hliq := p.below_nonneg
  rw [hbelow] at hsorted hliq
  have hsame : p.pool.liquidity + downwards current = p.pool.liquidity := by
    rw [downwards, hnet, neg_zero, add_zero]
  have hnonneg : StaysNonneg downwards p.pool.liquidity rest := hsame ▸ hliq.2
  have hrest := (pairwise_cons.mp hsorted).2
  refine ⟨fun s config => ?_, fun s midPrice feeRate maxLevels hmid hfee hlevels => ?_⟩
  · rw [build_direct_eq, segments_sell_of_initialised htick hbelow, hsame, hbelow]
    have hroom : ([] : List (AmmExecutionSegment K)).length < max 1 config.maxSegmentsPerSide :=
      Nat.lt_of_lt_of_le Nat.one_pos (Nat.le_max_left _ _)
    simp only [directBids, hroom, isEmpty_nil, if_true, htick, le_refl]
    exact directBids_eq (Nat.zero_le _) hlower hrest hnonneg (.inr ⟨rfl, p.liquidity_pos⟩)
  · exact virtual_sell_of_left hmem htick (by rw [hsame]; exact p.liquidity_pos) s hmid hfee hlevels

theorem sideExact_sell_of_none (h : ∀ level ∈ p.pool.ticks, p.pool.tick ≤ level.tick) :
    SideExact K p .sell := by
  by_cases hinit : ∃ level ∈ p.pool.ticks, level.tick = p.pool.tick
  swap
  · exact sideExact_sell_of_not_initialised (fun level hlevel heq => hinit ⟨level, hlevel, heq⟩)
  obtain ⟨current, hmem, htick⟩ := hinit
  obtain ⟨rest, hbelow, hlower, -⟩ := ticks_of_initialised hmem htick
  have hrest : rest = [] := by
    rw [eq_nil_iff_forall_not_mem]
    intro level hlevel
    have hin : level ∈ p.pool.below := hbelow ▸ mem_cons_of_mem current hlevel
    have hticks := (mem_filter.mp (mem_reverse.mp hin)).1
    exact (hlower level hlevel).not_ge (h level hticks)
  rw [hrest] at hbelow
  refine ⟨fun s config => ?_, fun s midPrice feeRate maxLevels hmid hfee hlevels => ?_⟩
  · rw [build_direct_eq, segments_sell_of_initialised htick hbelow, hbelow]
    simp [directBids, htick, walk, segments]
  · rw [build_virtual_eq s p .sell feeRate hmid hlevels,
      segments_sell_of_initialised htick hbelow, hbelow]
    simp [virtualBids, htick, walk, segments]

theorem sideExact_of_noneMissed (h : NoneMissed p) (side : ExecutionSide) : SideExact K p side := by
  rcases h with ⟨current, hmem, htick, hnet⟩ | ⟨habove, hbids⟩
  · cases side with
    | sell => exact sideExact_sell_of_current hmem htick hnet
    | buy => exact sideExact_buy_of_current hmem htick hnet
  · cases side with
    | sell => exact hbids.elim sideExact_sell_of_not_initialised sideExact_sell_of_none
    | buy => exact sideExact_buy_of_none habove

omit [IsStrictOrderedRing K] in
theorem tickWalkExact_of_sides (h : ∀ side, SideExact K p side) : TickWalkExact K p where
  direct := by
    intro s side config
    rw [(h side).direct, quantities_eq, map_take]
  virtual := by
    intro s midPrice feeRate maxLevels side hmid hfee
    by_cases hlevels : maxLevels = 0
    · unfold buildTickBasedSide
      rw [if_pos (.inr (.inr hlevels)), hlevels, take_zero, map_nil]
    · rw [(h side).virtual s midPrice feeRate maxLevels hmid hfee hlevels, quantities_eq,
        map_take, map_map]
      rfl
  same := by
    intro s midPrice side config hmid hlevels
    have hone : (withFee (((feeFactor 0 side : ℚ)) : K) : AmmExecutionSegment K → _) = id := by
      funext seg
      cases side <;> simp [withFee, feeFactor]
    rw [(h side).virtual s midPrice 0 _ hmid (by norm_num) hlevels.ne', (h side).direct, hone,
      map_id, Nat.max_eq_right hlevels]

end Exact

section Missed

variable {K : Type*} [Field K] [LinearOrder K] [IsStrictOrderedRing K]

def SqrtPrice.powers (K : Type*) [Field K] [LinearOrder K] [IsStrictOrderedRing K] :
    SqrtPrice K where
  root := fun tick => 2 ^ tick
  pos := fun tick => zpow_pos two_pos tick
  mono := zpow_right_strictMono₀ one_lt_two

/-- The same roots above a tick, and half of them up to it. -/
def SqrtPrice.lowered (s : SqrtPrice K) (current : Int) : SqrtPrice K where
  root := fun tick => if tick ≤ current then s.root tick / 2 else s.root tick
  pos := fun tick => by
    split
    · exact half_pos (s.pos tick)
    · exact s.pos tick
  mono := by
    intro a b hab
    have hroot := s.mono hab
    have hhalf := half_lt_self (s.pos a)
    dsimp only
    split_ifs with ha hb
    · exact div_lt_div_of_pos_right hroot two_pos
    · exact hhalf.trans hroot
    · omega
    · exact hroot

/-- The same roots below a tick, and twice as much from it on. -/
def SqrtPrice.raised (s : SqrtPrice K) (current : Int) : SqrtPrice K where
  root := fun tick => if tick < current then s.root tick else 2 * s.root tick
  pos := fun tick => by
    split
    · exact s.pos tick
    · exact mul_pos two_pos (s.pos tick)
  mono := by
    intro a b hab
    have hroot := s.mono hab
    have htwice : s.root b < 2 * s.root b := lt_mul_of_one_lt_left (s.pos b) one_lt_two
    dsimp only
    split_ifs with ha hb
    · exact hroot
    · exact hroot.trans htwice
    · omega
    · exact mul_lt_mul_of_pos_left hroot two_pos

omit [IsStrictOrderedRing K] in
theorem directAsks_congr {s s' : SqrtPrice K} {ts : List VenuePoolTickLevel}
    (h : ∀ level ∈ ts, s.root level.tick = s'.root level.tick) (maxSegments : ℕ) (liquidity : ℚ)
    (out : List (AmmExecutionSegment K)) :
    directAsks s maxSegments liquidity out ts = directAsks s' maxSegments liquidity out ts := by
  induction ts generalizing liquidity out with
  | nil => rfl
  | cons level rest ih =>
      have hrest := fun level' hlevel => h level' (mem_cons_of_mem level hlevel)
      rw [directAsks, directAsks]
      cases rest with
      | nil => rfl
      | cons next rest =>
          have hlevel := h level mem_cons_self
          have hnext := h next (mem_cons_of_mem level mem_cons_self)
          simp only [baseAmountInRange, priceAtTick, hlevel, hnext, ih hrest]

omit [IsStrictOrderedRing K] in
theorem amounts_congr {s s' : SqrtPrice K} {delta : VenuePoolTickLevel → ℚ} {liquidity : ℚ}
    {near : Int} {ts : List VenuePoolTickLevel} (hnear : s.root near = s'.root near)
    (h : ∀ level ∈ ts, s.root level.tick = s'.root level.tick) :
    (walk delta liquidity near ts).map (PriceRange.amount s)
      = (walk delta liquidity near ts).map (PriceRange.amount s') := by
  induction ts generalizing liquidity near with
  | nil => rfl
  | cons level rest ih =>
      have hlevel := h level mem_cons_self
      have hrest : (walk delta (liquidity + delta level) level.tick rest).map (PriceRange.amount s)
          = (walk delta (liquidity + delta level) level.tick rest).map (PriceRange.amount s') :=
        ih hlevel (fun level' hlevel' => h level' (mem_cons_of_mem level hlevel'))
      rw [walk, map_cons, map_cons, hrest, PriceRange.amount, PriceRange.amount, hnear, hlevel]

variable {p : TickPool}

omit [IsStrictOrderedRing K] in
theorem quantities_take_one {s : SqrtPrice K} {side : ExecutionSide} {r : PriceRange}
    {rs : List PriceRange} (hranges : p.ranges side = r :: rs) (hpos : 0 < r.amount s) :
    (p.quantities s side).take 1 = [r.amount s] := by
  unfold TickPool.quantities
  rw [hranges, map_cons,
    filter_cons_of_pos (p := fun qty : K => decide (0 < qty)) (decide_eq_true hpos)]
  rfl

omit [IsStrictOrderedRing K] in
theorem direct_one (h : TickWalkExact K p) (s : SqrtPrice K) (side : ExecutionSide) :
    (match side with
      | .sell => directBids s p.pool.tick 1 p.pool.liquidity p.pool.tick [] p.pool.below
      | .buy => directAsks s 1 p.pool.liquidity [] p.pool.onwards).map qty
      = (p.quantities s side).take 1 := by
  rw [← Nat.max_self 1, ← h.direct s side { maxSegmentsPerSide := 1 }, build_direct_eq]

theorem current_matters_above
    {u : VenuePoolTickLevel} {us : List VenuePoolTickLevel}
    (h : TickWalkExact K p)
    (habove : p.pool.above = u :: us)
    (hcode : ∀ s s' : SqrtPrice K, (∀ tick, p.pool.tick < tick → s.root tick = s'.root tick) →
      directAsks s 1 p.pool.liquidity [] p.pool.onwards
        = directAsks s' 1 p.pool.liquidity [] p.pool.onwards) :
    False := by
  have hu : p.pool.tick < u.tick := by
    have hmem : u ∈ p.pool.above := habove ▸ mem_cons_self
    exact of_decide_eq_true (mem_filter.mp hmem).2
  let s := SqrtPrice.powers K
  have hagree : ∀ tick, p.pool.tick < tick → s.root tick = (s.lowered p.pool.tick).root tick :=
    fun tick htick => (if_neg htick.not_ge).symm
  have hranges : p.ranges .buy = ⟨p.pool.tick, u.tick, p.pool.liquidity⟩ ::
      walk upwards (p.pool.liquidity + upwards u) u.tick us := by
    unfold TickPool.ranges
    rw [habove, walk]
  have hquantity : ∀ s : SqrtPrice K,
      (directAsks s 1 p.pool.liquidity [] p.pool.onwards).map AmmExecutionSegment.qty
        = [(p.pool.liquidity : K) * (1 / s.root p.pool.tick - 1 / s.root u.tick)] := by
    intro s
    have hpos := (amount_pos_iff s (r := ⟨p.pool.tick, u.tick, p.pool.liquidity⟩) hu.ne).mpr
      p.liquidity_pos
    rw [direct_one h s .buy, quantities_take_one hranges hpos,
      ← amount_up s p.liquidity_pos.le hu, baseAmountInRange_eq s p.liquidity_pos.le hu]
  have hsame := hquantity s
  rw [hcode s (s.lowered p.pool.tick) hagree, hquantity, singleton_inj,
    mul_right_inj' (Rat.cast_pos.mpr p.liquidity_pos).ne', ← hagree u.tick hu] at hsame
  have hroot : (s.lowered p.pool.tick).root p.pool.tick = s.root p.pool.tick / 2 :=
    if_pos le_rfl
  have hpos := s.pos p.pool.tick
  rw [hroot, sub_left_inj, one_div_div] at hsame
  have htwo : (2 : K) = 1 := (div_left_inj' hpos.ne').mp hsame
  exact absurd htwo (by norm_num)

theorem noneMissed_above (h : TickWalkExact K p)
    (hcurrent : ∀ level ∈ p.pool.ticks, level.tick = p.pool.tick → level.liquidityNet.toRat ≠ 0) :
    ∀ level ∈ p.pool.ticks, level.tick ≤ p.pool.tick := by
  intro level hlevel
  by_contra hgt
  have hmem : level ∈ p.pool.above := mem_filter.mpr ⟨hlevel, by simpa using hgt⟩
  obtain ⟨u, us, habove⟩ := exists_cons_of_ne_nil (ne_nil_of_mem hmem)
  have hhigher : ∀ level ∈ p.pool.above, p.pool.tick < level.tick :=
    fun level hlevel => of_decide_eq_true (mem_filter.mp hlevel).2
  by_cases hinit : ∃ level ∈ p.pool.ticks, level.tick = p.pool.tick
  swap
  · have honwards := (ticks_of_not_initialised (p := p)
      (fun level hlevel heq => hinit ⟨level, hlevel, heq⟩)).2
    refine current_matters_above h habove (fun s s' hagree => ?_)
    rw [honwards]
    exact directAsks_congr (fun level hlevel => hagree level.tick (hhigher level hlevel)) 1 _ []
  obtain ⟨current, hcmem, htick⟩ := hinit
  obtain ⟨-, -, -, honwards⟩ := ticks_of_initialised hcmem htick
  have hu : p.pool.tick < u.tick := hhigher u (habove ▸ mem_cons_self)
  -- the current tick is crossed before the first range is taken
  have hstep : ∀ s : SqrtPrice K, directAsks s 1 p.pool.liquidity [] p.pool.onwards
      = (if 0 < baseAmountInRange s (max 0 (p.pool.liquidity + current.liquidityNet.toRat))
            p.pool.tick u.tick
        then [⟨priceAtTick s u.tick, baseAmountInRange s
          (max 0 (p.pool.liquidity + current.liquidityNet.toRat)) p.pool.tick u.tick⟩]
        else directAsks s 1 (max 0 (p.pool.liquidity + current.liquidityNet.toRat)) []
          (u :: us)) := by
    intro s
    rw [honwards, habove, directAsks, if_pos (by simp)]
    simp only [htick, if_neg hu.not_ge, priceAtTick_pos, and_true]
    split_ifs
    · rw [nil_append, directAsks, if_neg (by simp)]
    · rfl
  have hnonneg : 0 ≤ max 0 (p.pool.liquidity + current.liquidityNet.toRat) := le_max_left _ _
  rcases hnonneg.eq_or_lt with hzero | hpos
  · refine current_matters_above h habove (fun s s' hagree => ?_)
    have hempty : ∀ s : SqrtPrice K, baseAmountInRange s 0 p.pool.tick u.tick = 0 := by
      intro s
      rw [baseAmountInRange_eq s le_rfl hu, Rat.cast_zero, zero_mul]
    rw [hstep, hstep, ← hzero, hempty, hempty, if_neg (lt_irrefl 0), if_neg (lt_irrefl 0)]
    exact directAsks_congr
      (fun level hlevel => hagree level.tick (hhigher level (habove ▸ hlevel))) 1 0 []
  · let s := SqrtPrice.powers K
    have hdiff : 0 < 1 / s.root p.pool.tick - 1 / s.root u.tick :=
      sub_pos.mpr (inv_root_lt s hu)
    have hranges : p.ranges .buy = ⟨p.pool.tick, u.tick, p.pool.liquidity⟩ ::
        walk upwards (p.pool.liquidity + upwards u) u.tick us := by
      unfold TickPool.ranges
      rw [habove, walk]
    have hfirst := direct_one h s .buy
    rw [quantities_take_one hranges ((amount_pos_iff s hu.ne).mpr p.liquidity_pos),
      ← amount_up s p.liquidity_pos.le hu] at hfirst
    rw [hstep, baseAmountInRange_eq s hpos.le hu, baseAmountInRange_eq s p.liquidity_pos.le hu,
      if_pos (mul_pos (Rat.cast_pos.mpr hpos) hdiff), map_singleton, singleton_inj,
      mul_left_inj' hdiff.ne', Rat.cast_inj] at hfirst
    have hmax : max 0 (p.pool.liquidity + current.liquidityNet.toRat)
        = p.pool.liquidity + current.liquidityNet.toRat := by
      refine max_eq_right ?_
      by_contra hneg
      rw [max_eq_left (not_le.mp hneg).le] at hpos
      exact lt_irrefl 0 hpos
    rw [hmax, add_eq_left] at hfirst
    exact hcurrent current hcmem htick hfirst

omit [IsStrictOrderedRing K] in
theorem directBids_full {s : SqrtPrice K} {currentTick : Int} {maxSegments : ℕ} {liquidity : ℚ}
    {above : Int} {out : List (AmmExecutionSegment K)} {ts : List VenuePoolTickLevel}
    (h : ¬ out.length < maxSegments) :
    directBids s currentTick maxSegments liquidity above out ts = out := by
  cases ts with
  | nil => rw [directBids]
  | cons level rest => rw [directBids, if_neg h]

theorem noneMissed_below {current : VenuePoolTickLevel} (h : TickWalkExact K p)
    (hcmem : current ∈ p.pool.ticks) (htick : current.tick = p.pool.tick)
    (hnet : current.liquidityNet.toRat ≠ 0) : ∀ level ∈ p.pool.ticks, p.pool.tick ≤ level.tick := by
  intro level hlevel
  by_contra hlt
  obtain ⟨rest, hbelow, hlower, -⟩ := ticks_of_initialised hcmem htick
  have hmem : level ∈ rest := by
    have hin : level ∈ p.pool.below :=
      mem_reverse.mpr (mem_filter.mpr ⟨hlevel, decide_eq_true (not_le.mp hlt).le⟩)
    rw [hbelow] at hin
    rcases mem_cons.mp hin with rfl | hin
    · exact absurd htick.ge hlt
    · exact hin
  obtain ⟨d, ds, hrest⟩ := exists_cons_of_ne_nil (ne_nil_of_mem hmem)
  rw [hrest] at hbelow hlower
  have hd : d.tick < p.pool.tick := hlower d mem_cons_self
  have hsorted := below_sorted p
  have hds : ∀ level ∈ ds, level.tick < p.pool.tick :=
    fun level hlevel => hlower level (mem_cons_of_mem d hlevel)
  have hliq := p.below_nonneg
  rw [hbelow] at hliq
  have hcrossed : 0 ≤ p.pool.liquidity + downwards current := hliq.2.1
  have hcode : ∀ s : SqrtPrice K,
      (directBids s p.pool.tick 1 p.pool.liquidity p.pool.tick [] p.pool.below).map
          AmmExecutionSegment.qty
        = [(p.pool.liquidity : K) * (1 / s.root d.tick - 1 / s.root p.pool.tick)] := by
    intro s
    have hqty := baseAmountInRange_eq s p.liquidity_pos.le hd
    have hpos : 0 < (p.pool.liquidity : K) * (1 / s.root d.tick - 1 / s.root p.pool.tick) :=
      mul_pos (Rat.cast_pos.mpr p.liquidity_pos) (sub_pos.mpr (inv_root_lt s hd))
    have hskip : directBids s p.pool.tick 1 p.pool.liquidity p.pool.tick [] (current :: d :: ds)
        = directBids s p.pool.tick 1 p.pool.liquidity p.pool.tick [] (d :: ds) := by
      rw [directBids, if_pos (by simp)]
      simp only [isEmpty_nil, if_true, htick, le_refl]
    rw [hbelow, hskip, directBids, if_pos (by simp)]
    simp only [isEmpty_nil, if_true, if_neg hd.not_ge, hqty, hpos, priceAtTick_pos, and_self,
      nil_append]
    rw [directBids_full (by simp), map_singleton]
  -- the reference crosses the current tick over an empty range
  have hquantities : ∀ s : SqrtPrice K, p.quantities s .sell
      = ((walk downwards (p.pool.liquidity + downwards current) p.pool.tick (d :: ds)).map
          (PriceRange.amount s)).filter (fun qty => decide (0 < qty)) := by
    intro s
    unfold TickPool.quantities TickPool.ranges
    rw [hbelow, walk, map_cons, htick, amount_self, filter_cons_of_neg (by simp)]
  rcases hcrossed.eq_or_lt with hzero | hpos
  · let s := SqrtPrice.powers K
    have hagree : ∀ tick, tick < p.pool.tick → s.root tick = (s.raised p.pool.tick).root tick :=
      fun tick htick => (if_pos htick).symm
    have hdrop : ∀ s : SqrtPrice K, p.quantities s .sell
        = ((walk downwards (0 + downwards d) d.tick ds).map (PriceRange.amount s)).filter
            (fun qty => decide (0 < qty)) := by
      intro s
      have hnone : PriceRange.amount s ⟨p.pool.tick, d.tick, 0⟩ = 0 := by
        simp [PriceRange.amount]
      rw [hquantities, ← hzero, walk, map_cons, hnone, filter_cons_of_neg (by simp)]
    have hfirst := direct_one h s .sell
    have hsecond := direct_one h (s.raised p.pool.tick) .sell
    rw [hdrop, amounts_congr (hagree d.tick hd)
      (fun level hlevel => hagree level.tick (hds level hlevel)), ← hdrop, ← hsecond] at hfirst
    have hraised : (s.raised p.pool.tick).root p.pool.tick = 2 * s.root p.pool.tick :=
      if_neg (lt_irrefl _)
    rw [hcode, hcode, singleton_inj, mul_right_inj' (Rat.cast_pos.mpr p.liquidity_pos).ne',
      ← hagree d.tick hd, sub_right_inj, one_div, one_div, inv_inj] at hfirst
    have hpos := s.pos p.pool.tick
    linarith
  · let s := SqrtPrice.powers K
    have hfirst := direct_one h s .sell
    have hamount := (amount_pos_iff s
      (r := ⟨p.pool.tick, d.tick, p.pool.liquidity + downwards current⟩) hd.ne').mpr hpos
    rw [hcode, hquantities, walk, map_cons,
      filter_cons_of_pos (p := fun qty : K => decide (0 < qty)) (decide_eq_true hamount),
      take_succ_cons, take_zero, singleton_inj, ← amount_down s hcrossed hd,
      baseAmountInRange_eq s hcrossed hd,
      mul_left_inj' (sub_pos.mpr (inv_root_lt s hd)).ne', Rat.cast_inj] at hfirst
    have hzero : downwards current = 0 := by linarith
    exact hnet (neg_eq_zero.mp hzero)

theorem noneMissed_of_exact (h : TickWalkExact K p) : NoneMissed p := by
  by_cases hcurrent : ∃ level ∈ p.pool.ticks,
      level.tick = p.pool.tick ∧ level.liquidityNet.toRat = 0
  · exact .inl hcurrent
  have hchanges : ∀ level ∈ p.pool.ticks, level.tick = p.pool.tick → level.liquidityNet.toRat ≠ 0 :=
    fun level hlevel htick hnet => hcurrent ⟨level, hlevel, htick, hnet⟩
  refine .inr ⟨noneMissed_above h hchanges, ?_⟩
  by_cases hinit : ∃ level ∈ p.pool.ticks, level.tick = p.pool.tick
  · obtain ⟨current, hcmem, htick⟩ := hinit
    exact .inr (noneMissed_below h hcmem htick (hchanges current hcmem htick))
  · exact .inl (fun level hlevel heq => hinit ⟨level, hlevel, heq⟩)

end Missed

/-- Both builders follow the liquidity of the pool exactly when the current tick is initialised
and changes nothing, or no initialised tick lies above it and it is not itself one that has
another below. -/
theorem tickWalkExact_iff (p : TickPool) : TickWalkExact ℝ p ↔ NoneMissed p :=
  ⟨noneMissed_of_exact, fun h => tickWalkExact_of_sides (sideExact_of_noneMissed h)⟩

def onePosition : TickPool where
  pool :=
    { tick := 0
      liquidity := 100
      ticks := [⟨-10, Decimal.of 100 0⟩, ⟨10, Decimal.of (-100) 0⟩] }
  sorted := by decide
  liquidity_pos := by decide
  below_nonneg := by decide +kernel
  above_nonneg := by decide +kernel

/-- The asks of a single position are missing. -/
theorem onePosition_missed : ¬ TickWalkExact ℝ onePosition := by
  intro h
  exact absurd (noneMissed_of_exact h) (by decide +kernel)

end Venues
end ContExchange
