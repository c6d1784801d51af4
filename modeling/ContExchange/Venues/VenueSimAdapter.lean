import ContExchange.Common.Double
import ContExchange.Common.DecimalSums
import ContExchange.Common.PgDecimals
import ContExchange.Venues.ExecutionLoop
import ContExchange.Venues.LocalBook

/-!
# Venues: the sim adapter that walks a book

`VenueSimAdapter::BuildResult` answers an order of a backtest from a policy.  In the mode
`walk_book` it takes the levels of the last snapshot until the quantity is filled, and reports
their average price with the slippage of the policy on top.

The limit price is compared with the average before the slippage, the slippage is a signed delta
for both sides, and the fee keeps the places of price and quantity.

* `walkLevels_eq`: the loop takes the consumed levels and sums them up;
* `vwap_between`: the truncated average lies between two prices that bound the levels;
* `buildResult_obeys`: what a result in this mode satisfies by design.
-/

namespace ContExchange
namespace Venues

open Common Decimal List
open Ledger (ExecutionReportStatus)

structure OrderPolicy where
  fillRatio : Double := Double.one
  slippageUnits : Int := 0
  forcedStatus : ExecutionReportStatus := .unspecified
  rejectCode : String := ""
  rejectMessage : String := ""
  walkBook : Bool := false
  takerFeeBps : Int := 0
  feeCurrency : String := ""
  latencyMs : Nat := 0
  referenceMidUnits : Int := 0
  enforceLimitPrice : Bool := true

/-- The snapshot that the adapter keeps, as far as it reads it. -/
structure HistoricalSnapshot where
  bids : List VenueBookLevel
  asks : List VenueBookLevel
  midPrice : Decimal := Decimal.zero

/-- `VenueOrderResult`, with the fields of the simulator. -/
structure SimOrderResult where
  accepted : Bool := false
  venueOrderId : String := ""
  status : ExecutionReportStatus := .unspecified
  filledQty : Decimal := Decimal.zero
  remainingQty : Decimal := Decimal.zero
  averagePrice : Decimal := Decimal.zero
  errorCode : String := ""
  errorMessage : String := ""
  fee : Decimal := Decimal.zero
  feeCurrency : String := ""
  feeRate : Decimal := Decimal.zero
  slippageBps : Int := 0
  latencyMs : Nat := 0
deriving DecidableEq

/-- `dec_from_units`; the callers hand over a sum or a cast, which wraps. -/
def decFromUnits (units scale : Int) : Decimal :=
  ⟨wrap64 units, max 0 scale, wrap64_fits units⟩

/-- `clamp01` of the sim adapter. -/
def clampRatio (v : Double) : Double :=
  match v with
  | .nan => Double.one
  | v => if v.lt Double.zero then Double.zero else if Double.one.lt v then Double.one else v

/-- `std::llround`; what does not fit becomes the smallest number. -/
def llroundDouble : Double → Int
  | .num q =>
      if Int64Fits (Decimal.roundAway q) then Decimal.roundAway q else int64Min
  | .nan | .inf _ => int64Min

/-- Unary minus. -/
def negateDouble : Double → Double
  | .num q => .num (-q)
  | .inf negative => .inf !negative
  | .nan => .nan

/-- `compute_slippage_bps`; the cast to 32 bits wraps. -/
def computeSlippageBps (avgPriceUnits referenceUnits : Int) (side : Side) : Int :=
  if referenceUnits = 0 ∨ avgPriceUnits = 0 then 0
  else
    let avg := Double.ofRat avgPriceUnits
    let ref := Double.ofRat referenceUnits
    let slip := (avg.sub ref).div ref
    let slip := if side = .sell then negateDouble slip else slip
    Int.bmod (llroundDouble (slip.mul (.num 10000))) (2 ^ 32)

structure BookWalkResult where
  filledUnits : Int := 0
  remainingUnits : Int := 0
  vwapPriceUnits : Int := 0
  priceScale : Int := 0
  qtyScale : Int := 0
  filledNotionalX : Int := 0
  sideEmpty : Bool := false

/-- What the loop of `walk_book` counts.  The notional stays below `2^126`, so its 128 bits do
not overflow. -/
structure WalkState where
  remaining : Int
  notionalX : Int := 0
  filled : Int := 0

/-- The loop of `walk_book` over the levels. -/
def walkLevels (targetQtyScale : Int) : List VenueBookLevel → WalkState → WalkState
  | [], w => w
  | level :: levels, w =>
      if w.remaining ≤ 0 then w
      else if level.qty.units ≤ 0 ∨ level.qty.scale ≠ targetQtyScale then
        walkLevels targetQtyScale levels w
      else
        let take := min level.qty.units w.remaining
        walkLevels targetQtyScale levels
          { remaining := w.remaining - take
            notionalX := w.notionalX + take * level.price.units
            filled := w.filled + take }

def walkBook (levels : List VenueBookLevel) (targetQtyUnits targetQtyScale : Int) :
    BookWalkResult :=
  match levels with
  | [] => { qtyScale := targetQtyScale, sideEmpty := true, remainingUnits := targetQtyUnits }
  | front :: _ =>
      let w := walkLevels targetQtyScale levels { remaining := targetQtyUnits }
      { qtyScale := targetQtyScale
        priceScale := front.price.scale
        filledUnits := w.filled
        remainingUnits := max 0 (targetQtyUnits - w.filled)
        filledNotionalX := w.notionalX
        vwapPriceUnits := if 0 < w.filled then w.notionalX.tdiv w.filled else 0 }

/-- `VenueSimAdapter`, as far as an order reads it. -/
structure VenueSimAdapter where
  inner : SimulatedVenue := {}
  lastSnapshot : Option HistoricalSnapshot := none

/-- The limit price of an intent, if it is present and not zero. -/
def limitPriceOf (intent : ExecutionIntent) : Option Decimal :=
  intent.limitPrice.filter (fun price => decide (price.units ≠ 0))

/-- The reference of the slippage: the policy, the limit price, or a last resort. -/
def referenceUnits (intent : ExecutionIntent) (policy : OrderPolicy) (last : Int) : Int :=
  if policy.referenceMidUnits ≠ 0 then policy.referenceMidUnits
  else
    match limitPriceOf intent with
    | some limit => limit.units
    | none => last

/-- The result before the policy is looked at. -/
def blankResult (intent : ExecutionIntent) (policy : OrderPolicy) : SimOrderResult where
  venueOrderId :=
    "VSIM-" ++ if intent.intentId = "" then intent.clientOrderId else intent.intentId
  latencyMs := policy.latencyMs

/-- The fee and its rate; the product wraps at 128 bits. -/
def SimOrderResult.withFee (r : SimOrderResult) (policy : OrderPolicy)
    (filledUnits qtyScale : Int) :
    SimOrderResult :=
  let feeX := (i128 (filledUnits * r.averagePrice.units * policy.takerFeeBps)).tdiv 10000
  { r with
    fee := decFromUnits feeX (r.averagePrice.scale + qtyScale)
    feeRate := decFromUnits policy.takerFeeBps 4 }

def feeCurrencyOf (intent : ExecutionIntent) (policy : OrderPolicy) : String :=
  if policy.feeCurrency = "" then intent.instrument.quote else policy.feeCurrency

/-- The end of both paths: the forced status or the derived one. -/
def SimOrderResult.withStatus (r : SimOrderResult) (policy : OrderPolicy)
    (derived : ExecutionReportStatus) : SimOrderResult :=
  let status := if policy.forcedStatus = .unspecified then derived else policy.forcedStatus
  { r with status, accepted := decide (status ≠ .rejected ∧ status ≠ .cancelled) }

/-- The side of the snapshot that an order takes from. -/
def HistoricalSnapshot.levels (snapshot : HistoricalSnapshot) (side : Side) :
    List VenueBookLevel :=
  if side ≠ .sell then snapshot.asks else snapshot.bids

/-- The price before the slippage breaches the limit, in mantissas. -/
def breaches (side : Side) (vwapPriceUnits limitUnits : Int) : Bool :=
  if side ≠ .sell then decide (limitUnits < vwapPriceUnits)
  else decide (vwapPriceUnits < limitUnits)

/-- `BuildResult` when the book has a fill. -/
def filledResult (snapshot : HistoricalSnapshot) (intent : ExecutionIntent) (policy : OrderPolicy)
    (walk : BookWalkResult) : SimOrderResult :=
  let qtyScale := intent.targetQty.scale
  let averagePrice := decFromUnits (walk.vwapPriceUnits + policy.slippageUnits) walk.priceScale
  let r : SimOrderResult :=
    { blankResult intent policy with
      filledQty := decFromUnits walk.filledUnits qtyScale
      remainingQty := decFromUnits walk.remainingUnits qtyScale
      averagePrice
      slippageBps := computeSlippageBps averagePrice.units
        (referenceUnits intent policy snapshot.midPrice.units) intent.side }
  let r := if policy.takerFeeBps ≠ 0 then r.withFee policy walk.filledUnits qtyScale else r
  { r with feeCurrency := feeCurrencyOf intent policy }.withStatus policy
    (if walk.remainingUnits = 0 then .filled else .partiallyFilled)

/-- `BuildResult` with a book. -/
def walkedResult (snapshot : HistoricalSnapshot) (intent : ExecutionIntent)
    (policy : OrderPolicy) : SimOrderResult :=
  let qtyScale := intent.targetQty.scale
  let walk := walkBook (snapshot.levels intent.side) intent.targetQty.units qtyScale
  let unfilled : SimOrderResult :=
    { blankResult intent policy with
      remainingQty := decFromUnits intent.targetQty.units qtyScale }
  if walk.sideEmpty ∨ walk.filledUnits = 0 then
    { unfilled with
      status := .rejected
      errorCode := "INSUFFICIENT_LIQUIDITY"
      errorMessage := "VenueSim book side has no fillable liquidity" }
  else
    match (if policy.enforceLimitPrice then limitPriceOf intent else none) with
    | none => filledResult snapshot intent policy walk
    | some limit =>
        if breaches intent.side walk.vwapPriceUnits limit.units then
          { unfilled with
            status := .cancelled
            errorCode := "PRICE_LIMIT_EXCEEDED"
            errorMessage := "VenueSim VWAP breached intent limit_price" }
        else filledResult snapshot intent policy walk

/-- The price of the path without a book: the limit price, or that of the inner adapter. -/
def ratioPrice (inner : SimulatedVenue) (intent : ExecutionIntent) :
    Except VenueOrderResult Decimal :=
  match limitPriceOf intent with
  | some limit => .ok limit
  | none =>
      let answer := (inner.sendOrder intent).1
      if answer.accepted then .ok answer.averagePrice else .error answer

/-- `BuildResult` without a book: a share of the quantity is filled. -/
def ratioResult (inner : SimulatedVenue) (intent : ExecutionIntent) (policy : OrderPolicy) :
    SimOrderResult :=
  let target := intent.targetQty
  let filledUnits := llroundDouble ((Double.ofRat target.units).mul (clampRatio policy.fillRatio))
  let remainingUnits := max 0 (wrap64 (target.units - filledUnits))
  let r : SimOrderResult :=
    { blankResult intent policy with
      filledQty := decFromUnits filledUnits target.scale
      remainingQty := decFromUnits remainingUnits target.scale }
  match ratioPrice inner intent with
  | .error answer =>
      { r with
        status := .rejected
        errorCode :=
          if answer.errorCode = "" then "VENUE_SIM_DISCONNECTED" else answer.errorCode
        errorMessage := answer.errorMessage }
  | .ok price =>
      let averagePrice := decFromUnits (price.units + policy.slippageUnits) price.scale
      let r : SimOrderResult :=
        { r with
          averagePrice
          slippageBps := computeSlippageBps averagePrice.units (referenceUnits intent policy 0)
            intent.side }
      let r :=
        if 0 < filledUnits ∧ policy.takerFeeBps ≠ 0 then r.withFee policy filledUnits target.scale
        else r
      { r with feeCurrency := feeCurrencyOf intent policy }.withStatus policy
        (if filledUnits = 0 then .cancelled
        else if remainingUnits = 0 then .filled
        else .partiallyFilled)

def OrderPolicy.Rejects (policy : OrderPolicy) : Prop :=
  policy.rejectCode ≠ "" ∨ policy.rejectMessage ≠ ""

instance (policy : OrderPolicy) : Decidable policy.Rejects :=
  inferInstanceAs (Decidable (_ ∨ _))

def VenueSimAdapter.buildResult (s : VenueSimAdapter) (intent : ExecutionIntent)
    (policy : OrderPolicy) : SimOrderResult :=
  if policy.Rejects then
    { blankResult intent policy with
      status := .rejected
      errorCode := if policy.rejectCode = "" then "VENUE_SIM_REJECTED" else policy.rejectCode
      errorMessage := policy.rejectMessage }
  else if policy.walkBook then
    match s.lastSnapshot with
    | none =>
        { blankResult intent policy with
          status := .rejected
          errorCode := "VENUE_SIM_NO_SNAPSHOT"
          errorMessage := "walk_book requested but no historical snapshot has been injected" }
    | some snapshot => walkedResult snapshot intent policy
  else ratioResult s.inner intent policy

/-- A price is no worse for the side than another one. -/
def NoWorse (side : Side) (a b : ℚ) : Prop :=
  if side ≠ .sell then a ≤ b else b ≤ a

instance (side : Side) (a b : ℚ) : Decidable (NoWorse side a b) := by
  unfold NoWorse
  infer_instance

/-- The levels that a quantity consumes, with the units taken from each. -/
def consumed (targetQtyScale : Int) : List VenueBookLevel → Int → List (VenueBookLevel × Int)
  | [], _ => []
  | level :: levels, remaining =>
      if remaining ≤ 0 then []
      else if level.qty.units ≤ 0 ∨ level.qty.scale ≠ targetQtyScale then
        consumed targetQtyScale levels remaining
      else
        (level, min level.qty.units remaining) ::
          consumed targetQtyScale levels (remaining - min level.qty.units remaining)

def takenUnits (taken : List (VenueBookLevel × Int)) : Int :=
  (taken.map Prod.snd).sum

def takenNotional (taken : List (VenueBookLevel × Int)) : Int :=
  (taken.map (fun t => t.1.price.units * t.2)).sum

@[simp] theorem takenUnits_nil : takenUnits [] = 0 := rfl

@[simp] theorem takenNotional_nil : takenNotional [] = 0 := rfl

@[simp] theorem takenUnits_cons (t : VenueBookLevel × Int) (taken : List (VenueBookLevel × Int)) :
    takenUnits (t :: taken) = t.2 + takenUnits taken := by
  simp [takenUnits]

@[simp] theorem takenNotional_cons (t : VenueBookLevel × Int)
    (taken : List (VenueBookLevel × Int)) :
    takenNotional (t :: taken) = t.1.price.units * t.2 + takenNotional taken := by
  simp [takenNotional]

def HistoricalSnapshot.consumedBy (snapshot : HistoricalSnapshot) (intent : ExecutionIntent) :
    List (VenueBookLevel × Int) :=
  consumed intent.targetQty.scale (snapshot.levels intent.side) intent.targetQty.units

/-- The average of the prices, weighted by the units taken. -/
def averageOf (taken : List (VenueBookLevel × Int)) : ℚ :=
  (taken.map (fun t => t.1.price.toRat * (t.2 : ℚ))).sum / (taken.map (fun t => (t.2 : ℚ))).sum

def BetweenConsumed (side : Side) (taken : List (VenueBookLevel × Int)) (v : ℚ) : Prop :=
  ∃ best worst, taken.head? = some best ∧ taken.getLast? = some worst ∧
    NoWorse side best.1.price.toRat v ∧ NoWorse side v worst.1.price.toRat

/-- The prices of the side, from the best one on. -/
def SortedSide (side : Side) (levels : List VenueBookLevel) : Prop :=
  levels.Pairwise (fun a b => NoWorse side a.price.toRat b.price.toRat)

def enforcedLimit (intent : ExecutionIntent) (policy : OrderPolicy) : Option Decimal :=
  if policy.enforceLimitPrice then limitPriceOf intent else none

/-- The result is what the order asks for: the quantity is accounted for, and where something is
filled the average lies between the consumed prices, the slippage worsens it, the limit holds
with the slippage, and the fee is the taker rate of the notional. -/
structure ObeysOrder (snapshot : HistoricalSnapshot) (intent : ExecutionIntent)
    (policy : OrderPolicy) (r : SimOrderResult) : Prop where
  total : r.filledQty.toRat + r.remainingQty.toRat = intent.targetQty.toRat
  average : r.filledQty.units ≠ 0 →
    let slippage := policy.slippageUnits * (10 : ℚ) ^ (-r.averagePrice.scale)
    ∃ v, BetweenConsumed intent.side (snapshot.consumedBy intent) v ∧
      r.averagePrice.toRat = if intent.side ≠ .sell then v + slippage else v - slippage
  limit : r.filledQty.units ≠ 0 → ∀ limit, enforcedLimit intent policy = some limit →
    NoWorse intent.side r.averagePrice.toRat limit.toRat
  fee : r.filledQty.units ≠ 0 →
    r.fee.toRat = policy.takerFeeBps / 10000 * (r.filledQty.toRat * r.averagePrice.toRat)

def integerPart (q : ℚ) : Int :=
  if q < 0 then -⌊-q⌋ else ⌊q⌋

/-- A number cut to so many places. -/
def truncatedTo (places : Int) (q : ℚ) : ℚ :=
  integerPart (q * (10 : ℚ) ^ places) * (10 : ℚ) ^ (-places)

/-- What a walked result satisfies by design.  The average and its limit are those before the
slippage, which is added as it is; the fee is cut to the places of price and quantity.  A price
is only spoken of where the levels have one price scale, a limit where it has this scale too, and
a sum or a fee where it fits a decimal. -/
structure ObeysPolicy (snapshot : HistoricalSnapshot) (intent : ExecutionIntent)
    (policy : OrderPolicy) (r : SimOrderResult) : Prop where
  total : r.filledQty.toRat + r.remainingQty.toRat = intent.targetQty.toRat
  average : r.filledQty.units ≠ 0 →
    ∀ scale, 0 ≤ scale → (∀ level ∈ snapshot.levels intent.side, level.price.scale = scale) →
      ∃ v : Decimal, v.scale = scale ∧
        v.toRat = truncatedTo scale (averageOf (snapshot.consumedBy intent)) ∧
        BetweenConsumed intent.side (snapshot.consumedBy intent) v.toRat ∧
        (∀ limit, enforcedLimit intent policy = some limit → limit.scale = scale →
          NoWorse intent.side v.toRat limit.toRat) ∧
        (Int64Fits (v.units + policy.slippageUnits) →
          r.averagePrice.toRat = v.toRat + policy.slippageUnits * (10 : ℚ) ^ (-scale))
  fee : r.filledQty.units ≠ 0 →
    let places := r.averagePrice.scale + r.filledQty.scale
    let fee := policy.takerFeeBps / 10000 * (r.filledQty.toRat * r.averagePrice.toRat)
    Int64Fits (integerPart (fee * (10 : ℚ) ^ places)) → r.fee.toRat = truncatedTo places fee

section Walk

variable {qtyScale : Int}

theorem walkLevels_eq (levels : List VenueBookLevel) (w : WalkState) :
    walkLevels qtyScale levels w =
      { remaining := w.remaining - takenUnits (consumed qtyScale levels w.remaining)
        notionalX := w.notionalX + takenNotional (consumed qtyScale levels w.remaining)
        filled := w.filled + takenUnits (consumed qtyScale levels w.remaining) } := by
  induction levels generalizing w with
  | nil => simp [walkLevels, consumed]
  | cons level levels ih =>
      rw [walkLevels, consumed]
      by_cases hdone : w.remaining ≤ 0
      · rw [if_pos hdone, if_pos hdone]
        simp
      · rw [if_neg hdone, if_neg hdone]
        by_cases hskip : level.qty.units ≤ 0 ∨ level.qty.scale ≠ qtyScale
        · rw [if_pos hskip, if_pos hskip]
          exact ih w
        · rw [if_neg hskip, if_neg hskip, ih]
          simp only [takenUnits_cons, takenNotional_cons]
          congr 1
          · ring
          · ring
          · ring

theorem mem_consumed {levels : List VenueBookLevel} {remaining : Int} {t : VenueBookLevel × Int}
    (h : t ∈ consumed qtyScale levels remaining) : t.1 ∈ levels ∧ 0 < t.2 := by
  induction levels generalizing remaining with
  | nil => cases h
  | cons level levels ih =>
      rw [consumed] at h
      split at h
      · cases h
      · split at h
        · obtain ⟨hmem, hpos⟩ := ih h
          exact ⟨mem_cons_of_mem _ hmem, hpos⟩
        · rcases mem_cons.mp h with rfl | htail
          · refine ⟨mem_cons_self, ?_⟩
            omega
          · obtain ⟨hmem, hpos⟩ := ih htail
            exact ⟨mem_cons_of_mem _ hmem, hpos⟩

theorem takenUnits_le (levels : List VenueBookLevel) {remaining : Int} (h : 0 ≤ remaining) :
    takenUnits (consumed qtyScale levels remaining) ≤ remaining := by
  induction levels generalizing remaining with
  | nil => exact h
  | cons level levels ih =>
      rw [consumed]
      split
      · exact h
      · split
        · exact ih h
        · rw [takenUnits_cons]
          have hleft : 0 ≤ remaining - min level.qty.units remaining := by omega
          have hrest := ih hleft
          omega

theorem takenUnits_nonneg (qtyScale : Int) (levels : List VenueBookLevel) (remaining : Int) :
    0 ≤ takenUnits (consumed qtyScale levels remaining) := by
  apply sum_nonneg
  intro n hn
  obtain ⟨t, ht, rfl⟩ := mem_map.mp hn
  exact (mem_consumed ht).2.le

theorem consumed_sublist (qtyScale : Int) (levels : List VenueBookLevel) (remaining : Int) :
    ((consumed qtyScale levels remaining).map Prod.fst).Sublist levels := by
  induction levels generalizing remaining with
  | nil => exact List.Sublist.refl _
  | cons level levels ih =>
      rw [consumed]
      split
      · exact nil_sublist _
      · split
        · exact (ih remaining).cons level
        · exact (ih _).cons_cons level

end Walk

section Average

theorem floor_div_eq {n d : Int} (hd : 0 < d) : ⌊(n : ℚ) / d⌋ = n / d := by
  lift d to ℕ using hd.le
  exact Rat.floor_intCast_div_natCast n d

theorem tdiv_eq_integerPart {n d : Int} (hd : 0 < d) : n.tdiv d = integerPart ((n : ℚ) / d) := by
  have hdq : (0 : ℚ) < d := Int.cast_pos.mpr hd
  unfold integerPart
  by_cases hn : 0 ≤ n
  · have hquotient : ¬ (n : ℚ) / d < 0 :=
      not_lt.mpr (div_nonneg (by exact_mod_cast hn) hdq.le)
    rw [if_neg hquotient, floor_div_eq hd, Int.tdiv_eq_ediv_of_nonneg hn]
  · have hneg : n < 0 := not_le.mp hn
    have hquotient : (n : ℚ) / d < 0 := div_neg_of_neg_of_pos (Int.cast_lt_zero.mpr hneg) hdq
    have hcast : -((n : ℚ) / d) = ((-n : Int) : ℚ) / d := by
      push_cast
      ring
    rw [if_pos hquotient, hcast, floor_div_eq hd, ← Int.tdiv_eq_ediv_of_nonneg (by omega),
      Int.neg_tdiv, neg_neg]

theorem le_tdiv {lo n d : Int} (hd : 0 < d) (h : lo * d ≤ n) : lo ≤ n.tdiv d := by
  by_cases hn : 0 ≤ n
  · rw [Int.tdiv_eq_ediv_of_nonneg hn]
    exact (Int.le_ediv_iff_mul_le hd).mpr h
  · have hnonpos : 0 ≤ -n := by omega
    have hle : -n / d ≤ -lo := Int.ediv_le_of_le_mul hd (by linarith)
    rw [← neg_neg n, Int.neg_tdiv, Int.tdiv_eq_ediv_of_nonneg hnonpos]
    omega

theorem tdiv_le {hi n d : Int} (hd : 0 < d) (h : n ≤ hi * d) : n.tdiv d ≤ hi := by
  have hneg : -hi * d ≤ -n := by linarith
  have hle := le_tdiv hd hneg
  rw [Int.neg_tdiv] at hle
  omega

variable {taken : List (VenueBookLevel × Int)} {scale : Int}

theorem weighted_sum_between {lo hi : Int} (hpos : ∀ t ∈ taken, 0 < t.2)
    (hbounds : ∀ t ∈ taken, lo ≤ t.1.price.units ∧ t.1.price.units ≤ hi) :
    lo * takenUnits taken ≤ takenNotional taken ∧ takenNotional taken ≤ hi * takenUnits taken := by
  induction taken with
  | nil => simp
  | cons t taken ih =>
      obtain ⟨hlow, hhigh⟩ := ih (fun t ht => hpos t (mem_cons_of_mem _ ht))
        (fun t ht => hbounds t (mem_cons_of_mem _ ht))
      have htake := hpos t mem_cons_self
      obtain ⟨hlo, hhi⟩ := hbounds t mem_cons_self
      rw [takenUnits_cons, takenNotional_cons]
      constructor <;> nlinarith

theorem averageOf_eq (hscale : ∀ t ∈ taken, t.1.price.scale = scale) :
    averageOf taken = (takenNotional taken : ℚ) / takenUnits taken * (10 : ℚ) ^ (-scale) := by
  have hprices : taken.map (fun t => t.1.price.toRat * (t.2 : ℚ)) =
      taken.map (fun t => ((t.1.price.units * t.2 : Int) : ℚ) * (10 : ℚ) ^ (-scale)) := by
    apply map_congr_left
    intro t ht
    rw [Decimal.toRat, hscale t ht]
    push_cast
    ring
  have hunits : (taken.map (fun t => (t.2 : ℚ))).sum = takenUnits taken := by
    rw [takenUnits, Int.cast_list_sum, map_map]
    rfl
  have hnotional : (taken.map (fun t => ((t.1.price.units * t.2 : Int) : ℚ))).sum =
      takenNotional taken := by
    rw [takenNotional, Int.cast_list_sum, map_map]
    rfl
  rw [averageOf, hprices, sum_map_mul_right, hunits, hnotional]
  ring

theorem toRat_noWorse_iff {a b : Decimal} (side : Side) (ha : a.scale = scale)
    (hb : b.scale = scale) :
    NoWorse side a.toRat b.toRat ↔
      if side ≠ .sell then a.units ≤ b.units else b.units ≤ a.units := by
  have hpow := pow10_pos (-scale)
  unfold NoWorse Decimal.toRat
  rw [ha, hb]
  split
  · rw [mul_le_mul_iff_of_pos_right hpow, Int.cast_le]
  · rw [mul_le_mul_iff_of_pos_right hpow, Int.cast_le]

theorem bounds_of_sorted {side : Side} {levels : List VenueBookLevel} {qtyScale remaining : Int}
    (hsorted : SortedSide side levels) (hne : consumed qtyScale levels remaining ≠ []) :
    ∃ best worst, (consumed qtyScale levels remaining).head? = some best ∧
      (consumed qtyScale levels remaining).getLast? = some worst ∧
      ∀ t ∈ consumed qtyScale levels remaining,
        NoWorse side best.1.price.toRat t.1.price.toRat ∧
          NoWorse side t.1.price.toRat worst.1.price.toRat := by
  have hpairs : (consumed qtyScale levels remaining).Pairwise
      (fun a b => NoWorse side a.1.price.toRat b.1.price.toRat) := by
    have hprices := hsorted.sublist (consumed_sublist qtyScale levels remaining)
    rwa [pairwise_map] at hprices
  have hrefl : ∀ q : ℚ, NoWorse side q q := by
    intro q
    unfold NoWorse
    split <;> exact le_rfl
  generalize consumed qtyScale levels remaining = taken at hne hpairs
  have hlast : ∃ worst, taken.getLast? = some worst ∧
      ∀ t ∈ taken, NoWorse side t.1.price.toRat worst.1.price.toRat := by
    refine ⟨taken.getLast hne, getLast?_eq_getLast_of_ne_nil hne, ?_⟩
    intro t ht
    rw [← dropLast_append_getLast hne] at hpairs ht
    rcases mem_append.mp ht with hmem | hend
    · exact (pairwise_append.mp hpairs).2.2 t hmem _ mem_cons_self
    · rw [mem_singleton.mp hend]
      exact hrefl _
  obtain ⟨worst, hworst, hbelow⟩ := hlast
  cases taken with
  | nil => exact absurd rfl hne
  | cons best rest =>
      refine ⟨best, worst, rfl, hworst, fun t ht => ⟨?_, hbelow t ht⟩⟩
      rcases mem_cons.mp ht with rfl | hmem
      · exact hrefl _
      · exact (pairwise_cons.mp hpairs).1 t hmem

theorem vwap_between {side : Side} {levels : List VenueBookLevel} {qtyScale remaining : Int}
    {v : Decimal}
    (hsorted : SortedSide side levels)
    (hscale : ∀ level ∈ levels, level.price.scale = scale)
    (hne : consumed qtyScale levels remaining ≠ [])
    (hv : v.scale = scale)
    (hfilled : 0 < takenUnits (consumed qtyScale levels remaining))
    (hunits : v.units =
      (takenNotional (consumed qtyScale levels remaining)).tdiv
        (takenUnits (consumed qtyScale levels remaining))) :
    BetweenConsumed side (consumed qtyScale levels remaining) v.toRat := by
  obtain ⟨best, worst, hbest, hworst, hbounds⟩ := bounds_of_sorted hsorted hne
  have hscales : ∀ t ∈ consumed qtyScale levels remaining, t.1.price.scale = scale :=
    fun t ht => hscale t.1 (mem_consumed ht).1
  have hbestScale := hscales best (mem_of_head? hbest)
  have hworstScale := hscales worst (mem_of_getLast? hworst)
  have hpos : ∀ t ∈ consumed qtyScale levels remaining, 0 < t.2 := fun t ht => (mem_consumed ht).2
  refine ⟨best, worst, hbest, hworst, ?_⟩
  rw [toRat_noWorse_iff side hbestScale hv, toRat_noWorse_iff side hv hworstScale, hunits]
  have hunitBounds : ∀ t ∈ consumed qtyScale levels remaining,
      (if side ≠ .sell then best.1.price.units ≤ t.1.price.units
        else t.1.price.units ≤ best.1.price.units) ∧
      (if side ≠ .sell then t.1.price.units ≤ worst.1.price.units
        else worst.1.price.units ≤ t.1.price.units) := by
    intro t ht
    obtain ⟨hlow, hhigh⟩ := hbounds t ht
    exact ⟨(toRat_noWorse_iff side hbestScale (hscales t ht)).mp hlow,
      (toRat_noWorse_iff side (hscales t ht) hworstScale).mp hhigh⟩
  by_cases hside : side ≠ .sell
  · simp only [if_pos hside] at hunitBounds ⊢
    obtain ⟨hlow, hhigh⟩ := weighted_sum_between hpos hunitBounds
    exact ⟨le_tdiv hfilled hlow, tdiv_le hfilled hhigh⟩
  · simp only [if_neg hside] at hunitBounds ⊢
    obtain ⟨hlow, hhigh⟩ := weighted_sum_between hpos (fun t ht => (hunitBounds t ht).symm)
    exact ⟨tdiv_le hfilled hhigh, le_tdiv hfilled hlow⟩

end Average

section Result

variable {snapshot : HistoricalSnapshot} {intent : ExecutionIntent} {policy : OrderPolicy}

theorem decFromUnits_eq {units scale : Int} (hfits : Int64Fits units) (hscale : 0 ≤ scale) :
    decFromUnits units scale = ⟨units, scale, hfits⟩ :=
  eq_of_units_of_scale (wrap64_of_fits hfits) (max_eq_right hscale)

theorem walkBook_eq (front : VenueBookLevel) (rest : List VenueBookLevel) (units qtyScale : Int) :
    (walkBook (front :: rest) units qtyScale).filledUnits =
        takenUnits (consumed qtyScale (front :: rest) units) ∧
      (walkBook (front :: rest) units qtyScale).remainingUnits =
        max 0 (units - takenUnits (consumed qtyScale (front :: rest) units)) ∧
      (0 < takenUnits (consumed qtyScale (front :: rest) units) →
        (walkBook (front :: rest) units qtyScale).vwapPriceUnits =
          (takenNotional (consumed qtyScale (front :: rest) units)).tdiv
            (takenUnits (consumed qtyScale (front :: rest) units))) := by
  unfold walkBook
  rw [walkLevels_eq]
  rw [zero_add, zero_add]
  exact ⟨rfl, rfl, fun h => if_pos h⟩

theorem filledResult_fields (snapshot : HistoricalSnapshot) (intent : ExecutionIntent)
    (policy : OrderPolicy) (walk : BookWalkResult) :
    (filledResult snapshot intent policy walk).filledQty =
        decFromUnits walk.filledUnits intent.targetQty.scale ∧
      (filledResult snapshot intent policy walk).remainingQty =
        decFromUnits walk.remainingUnits intent.targetQty.scale ∧
      (filledResult snapshot intent policy walk).averagePrice =
        decFromUnits (walk.vwapPriceUnits + policy.slippageUnits) walk.priceScale ∧
      (filledResult snapshot intent policy walk).fee =
        if policy.takerFeeBps ≠ 0 then
          decFromUnits
            ((i128 (walk.filledUnits *
              (filledResult snapshot intent policy walk).averagePrice.units *
                policy.takerFeeBps)).tdiv 10000)
            ((filledResult snapshot intent policy walk).averagePrice.scale + intent.targetQty.scale)
        else .zero := by
  unfold filledResult SimOrderResult.withStatus
  dsimp only
  by_cases hfee : policy.takerFeeBps ≠ 0
  · rw [if_pos hfee, if_pos hfee]
    exact ⟨rfl, rfl, rfl, rfl⟩
  · rw [if_neg hfee, if_neg hfee]
    exact ⟨rfl, rfl, rfl, rfl⟩

/-- A walk ends without a fill and with the whole quantity left, or with the fill of the levels
that it consumed, whose average does not breach the limit. -/
theorem walkedResult_cases (snapshot : HistoricalSnapshot) (policy : OrderPolicy)
    (hscale : 0 ≤ intent.targetQty.scale) :
    (walkedResult snapshot intent policy).filledQty = .zero ∧
        (walkedResult snapshot intent policy).remainingQty = intent.targetQty ∨
      ∃ front rest, snapshot.levels intent.side = front :: rest ∧
        0 < takenUnits (snapshot.consumedBy intent) ∧
        walkedResult snapshot intent policy =
          filledResult snapshot intent policy
            (walkBook (front :: rest) intent.targetQty.units intent.targetQty.scale) ∧
        ∀ limit, enforcedLimit intent policy = some limit →
          breaches intent.side
            (walkBook (front :: rest) intent.targetQty.units
              intent.targetQty.scale).vwapPriceUnits limit.units = false := by
  have hwhole : decFromUnits intent.targetQty.units intent.targetQty.scale = intent.targetQty :=
    decFromUnits_eq intent.targetQty.fits hscale
  unfold walkedResult HistoricalSnapshot.consumedBy
  dsimp only
  cases hlevels : snapshot.levels intent.side with
  | nil =>
      left
      exact ⟨rfl, hwhole⟩
  | cons front rest =>
      obtain ⟨hfilled, -, -⟩ := walkBook_eq front rest intent.targetQty.units intent.targetQty.scale
      split
      · left
        exact ⟨rfl, hwhole⟩
      · rename_i hsome
        have hnonneg := takenUnits_nonneg intent.targetQty.scale (front :: rest)
          intent.targetQty.units
        have hpos : 0 < takenUnits (consumed intent.targetQty.scale (front :: rest)
            intent.targetQty.units) := by
          omega
        split
        · rename_i hlimit
          right
          refine ⟨front, rest, rfl, hpos, rfl, fun limit h => ?_⟩
          rw [enforcedLimit, hlimit] at h
          cases h
        · rename_i limit hlimit
          split
          · left
            exact ⟨rfl, hwhole⟩
          · rename_i hbreach
            right
            refine ⟨front, rest, rfl, hpos, rfl, fun limit' h => ?_⟩
            rw [enforcedLimit, hlimit] at h
            cases h
            exact Bool.eq_false_of_not_eq_true hbreach

theorem filledResult_total {front : VenueBookLevel} {rest : List VenueBookLevel}
    (hscale : 0 ≤ intent.targetQty.scale) (hlevels : snapshot.levels intent.side = front :: rest)
    (hpos : 0 < takenUnits (snapshot.consumedBy intent)) :
    (decFromUnits
        (walkBook (front :: rest) intent.targetQty.units intent.targetQty.scale).filledUnits
        intent.targetQty.scale).units = takenUnits (snapshot.consumedBy intent) ∧
      (decFromUnits
          (walkBook (front :: rest) intent.targetQty.units intent.targetQty.scale).filledUnits
          intent.targetQty.scale).toRat +
        (decFromUnits
          (walkBook (front :: rest) intent.targetQty.units intent.targetQty.scale).remainingUnits
          intent.targetQty.scale).toRat = intent.targetQty.toRat := by
  obtain ⟨hfilled, hremaining, -⟩ :=
    walkBook_eq front rest intent.targetQty.units intent.targetQty.scale
  rw [HistoricalSnapshot.consumedBy, hlevels] at hpos ⊢
  rw [hfilled, hremaining]
  generalize htaken : consumed intent.targetQty.scale (front :: rest) intent.targetQty.units =
    taken at hpos ⊢
  have htarget : 0 ≤ intent.targetQty.units := by
    by_contra hneg
    rw [consumed, if_pos (by omega)] at htaken
    subst htaken
    exact absurd hpos (lt_irrefl 0)
  have hle : takenUnits taken ≤ intent.targetQty.units := by
    rw [← htaken]
    exact takenUnits_le _ htarget
  have hfits := intent.targetQty.fits
  have hfilledFits : Int64Fits (takenUnits taken) := by
    simp only [Int64Fits, int64Min, int64Max] at hfits ⊢
    omega
  have hremainingFits : Int64Fits (max 0 (intent.targetQty.units - takenUnits taken)) := by
    simp only [Int64Fits, int64Min, int64Max] at hfits ⊢
    omega
  rw [decFromUnits_eq hfilledFits hscale, decFromUnits_eq hremainingFits hscale]
  refine ⟨rfl, ?_⟩
  have hmax : max 0 (intent.targetQty.units - takenUnits taken) =
      intent.targetQty.units - takenUnits taken := max_eq_right (by omega)
  simp only [Decimal.toRat, hmax]
  push_cast
  ring

theorem i128_of_tdiv_fits {n : Int} (h : Int64Fits (n.tdiv 10000)) : i128 n = n := by
  have hlow : (int64Min - 1) * 10000 < n := by
    by_contra hle
    have hquotient : n.tdiv 10000 ≤ int64Min - 1 := tdiv_le (by norm_num) (not_lt.mp hle)
    have hmin := h.1
    omega
  have hhigh : n < (int64Max + 1) * 10000 := by
    by_contra hge
    have hquotient : int64Max + 1 ≤ n.tdiv 10000 := le_tdiv (by norm_num) (not_lt.mp hge)
    have hmax := h.2
    omega
  unfold int64Min at hlow
  unfold int64Max at hhigh
  exact i128_of_lt (by omega) (by omega)

theorem fee_eq_truncatedTo {filled average : Decimal} {bps : Int}
    (hscale : 0 ≤ average.scale + filled.scale)
    (hfits : Int64Fits (integerPart (bps / 10000 * (filled.toRat * average.toRat) *
      (10 : ℚ) ^ (average.scale + filled.scale)))) :
    (decFromUnits ((i128 (filled.units * average.units * bps)).tdiv 10000)
        (average.scale + filled.scale)).toRat =
      truncatedTo (average.scale + filled.scale)
        (bps / 10000 * (filled.toRat * average.toRat)) := by
  have hpow : (10 : ℚ) ^ (-filled.scale) * (10 : ℚ) ^ (-average.scale) *
      (10 : ℚ) ^ (average.scale + filled.scale) = 1 := by
    rw [← zpow_add₀ (by norm_num), ← zpow_add₀ (by norm_num)]
    simp
  have hquotient : bps / 10000 * (filled.toRat * average.toRat) *
      (10 : ℚ) ^ (average.scale + filled.scale) =
        ((filled.units * average.units * bps : Int) : ℚ) / (10000 : Int) := by
    calc bps / 10000 * (filled.toRat * average.toRat) *
          (10 : ℚ) ^ (average.scale + filled.scale)
        = (filled.units * average.units * bps / 10000) *
            ((10 : ℚ) ^ (-filled.scale) * (10 : ℚ) ^ (-average.scale) *
              (10 : ℚ) ^ (average.scale + filled.scale)) := by
          unfold Decimal.toRat
          ring
      _ = _ := by
          rw [hpow]
          push_cast
          ring
  rw [hquotient, ← tdiv_eq_integerPart (by norm_num)] at hfits
  rw [i128_of_tdiv_fits hfits, decFromUnits_eq hfits hscale, truncatedTo, hquotient,
    ← tdiv_eq_integerPart (by norm_num)]
  rfl

theorem truncatedTo_zero (places : Int) : truncatedTo places 0 = 0 := by
  simp [truncatedTo, integerPart]

theorem vwap_fits {taken : List (VenueBookLevel × Int)} (hpos : ∀ t ∈ taken, 0 < t.2)
    (hfilled : 0 < takenUnits taken) :
    Int64Fits ((takenNotional taken).tdiv (takenUnits taken)) := by
  obtain ⟨hlow, hhigh⟩ := weighted_sum_between hpos (fun t _ => t.1.price.fits)
  exact ⟨le_tdiv hfilled hlow, tdiv_le hfilled hhigh⟩

theorem average_obeys {scale vwap : Int} {average : Decimal}
    (hsorted : SortedSide intent.side (snapshot.levels intent.side))
    (hscales : ∀ level ∈ snapshot.levels intent.side, level.price.scale = scale)
    (hpos : 0 < takenUnits (snapshot.consumedBy intent))
    (hnonneg : 0 ≤ scale)
    (hvwap : vwap =
      (takenNotional (snapshot.consumedBy intent)).tdiv (takenUnits (snapshot.consumedBy intent)))
    (hlimit : ∀ limit, enforcedLimit intent policy = some limit →
      breaches intent.side vwap limit.units = false)
    (haverage : average = decFromUnits (vwap + policy.slippageUnits) scale) :
    ∃ v : Decimal, v.scale = scale ∧
      v.toRat = truncatedTo scale (averageOf (snapshot.consumedBy intent)) ∧
      BetweenConsumed intent.side (snapshot.consumedBy intent) v.toRat ∧
      (∀ limit, enforcedLimit intent policy = some limit → limit.scale = scale →
        NoWorse intent.side v.toRat limit.toRat) ∧
      (Int64Fits (v.units + policy.slippageUnits) →
        average.toRat = v.toRat + policy.slippageUnits * (10 : ℚ) ^ (-scale)) := by
  have hne : snapshot.consumedBy intent ≠ [] := by
    intro hempty
    rw [hempty] at hpos
    exact absurd hpos (lt_irrefl 0)
  have hconsumed : ∀ t ∈ snapshot.consumedBy intent, t.1.price.scale = scale :=
    fun t ht => hscales t.1 (mem_consumed ht).1
  have hfits : Int64Fits vwap := hvwap ▸ vwap_fits (fun t ht => (mem_consumed ht).2) hpos
  refine ⟨⟨vwap, scale, hfits⟩, rfl, ?_, ?_, ?_, ?_⟩
  · have hcancel : (10 : ℚ) ^ (-scale) * (10 : ℚ) ^ scale = 1 := by
      rw [← zpow_add₀ (by norm_num)]
      simp
    rw [truncatedTo, averageOf_eq hconsumed, mul_assoc, hcancel, mul_one,
      ← tdiv_eq_integerPart hpos, ← hvwap]
    rfl
  · exact vwap_between hsorted hscales hne rfl hpos hvwap
  · intro limit h hscale
    rw [toRat_noWorse_iff intent.side rfl hscale]
    have hkept := hlimit limit h
    unfold breaches at hkept
    split at hkept
    · rw [if_pos ‹_›]
      exact not_lt.mp (of_decide_eq_false hkept)
    · rw [if_neg ‹_›]
      exact not_lt.mp (of_decide_eq_false hkept)
  · intro hsum
    rw [haverage, decFromUnits_eq hsum hnonneg]
    unfold Decimal.toRat
    push_cast
    ring

theorem walkedResult_obeys (hscale : 0 ≤ intent.targetQty.scale)
    (hsorted : SortedSide intent.side (snapshot.levels intent.side)) :
    ObeysPolicy snapshot intent policy (walkedResult snapshot intent policy) := by
  rcases walkedResult_cases snapshot policy hscale with
    ⟨hnone, hwhole⟩ | ⟨front, rest, hlevels, hpos, hresult, hlimit⟩
  · have hunits : (walkedResult snapshot intent policy).filledQty.units = 0 := by
      rw [hnone]
      rfl
    refine ⟨?_, fun h => absurd hunits h, fun h => absurd hunits h⟩
    rw [hnone, hwhole, toRat_zero, zero_add]
  · obtain ⟨hfilled, hremaining, haverage, hfee⟩ := filledResult_fields snapshot intent policy
      (walkBook (front :: rest) intent.targetQty.units intent.targetQty.scale)
    rw [← hresult] at hfilled hremaining haverage hfee
    obtain ⟨hunits, htotal⟩ := filledResult_total hscale hlevels hpos
    refine ⟨?_, ?_, ?_⟩
    · rw [hfilled, hremaining]
      exact htotal
    · intro _ scale hnonneg hscales
      obtain ⟨-, -, hvwap⟩ := walkBook_eq front rest intent.targetQty.units intent.targetQty.scale
      have hpriceScale : (walkBook (front :: rest) intent.targetQty.units
          intent.targetQty.scale).priceScale = scale :=
        hscales front (hlevels ▸ mem_cons_self)
      rw [hpriceScale] at haverage
      generalize walkBook (front :: rest) intent.targetQty.units intent.targetQty.scale = walk
        at hvwap hlimit haverage
      have hunitsEq : walk.vwapPriceUnits =
          (takenNotional (snapshot.consumedBy intent)).tdiv
            (takenUnits (snapshot.consumedBy intent)) := by
        rw [HistoricalSnapshot.consumedBy, hlevels]
        rw [HistoricalSnapshot.consumedBy, hlevels] at hpos
        exact hvwap hpos
      exact average_obeys hsorted hscales hpos hnonneg hunitsEq hlimit haverage
    · intro _ places fee hfits
      have hfilledScale : (walkedResult snapshot intent policy).filledQty.scale =
          intent.targetQty.scale := by
        rw [hfilled]
        exact max_eq_right hscale
      have haverageScale : 0 ≤ (walkedResult snapshot intent policy).averagePrice.scale := by
        rw [haverage]
        exact le_max_left _ _
      have hfilledUnits : (walkedResult snapshot intent policy).filledQty.units =
          (walkBook (front :: rest) intent.targetQty.units intent.targetQty.scale).filledUnits := by
        rw [hfilled, hunits, (walkBook_eq front rest _ _).1, HistoricalSnapshot.consumedBy, hlevels]
      rw [hfee, ← hfilledUnits, ← hfilledScale]
      by_cases hbps : policy.takerFeeBps ≠ 0
      · rw [if_pos hbps]
        exact fee_eq_truncatedTo (add_nonneg haverageScale (hfilledScale ▸ hscale)) hfits
      · have hzero : fee = 0 := by
          change (policy.takerFeeBps : ℚ) / 10000 * _ = 0
          rw [not_not.mp hbps]
          simp
        rw [if_neg hbps, hzero, truncatedTo_zero, toRat_zero]

/-- In the mode `walk_book`, whatever the policy and the snapshot: a walked result satisfies what
the policy asks of it, and without a walk the order is rejected without a fill. -/
theorem buildResult_obeys (s : VenueSimAdapter) (intent : ExecutionIntent) (policy : OrderPolicy)
    (hwalk : policy.walkBook = true) (hscale : 0 ≤ intent.targetQty.scale) :
    (∀ snapshot, s.lastSnapshot = some snapshot → ¬ policy.Rejects →
        SortedSide intent.side (snapshot.levels intent.side) →
        ObeysPolicy snapshot intent policy (s.buildResult intent policy)) ∧
      (policy.Rejects ∨ s.lastSnapshot = none →
        (s.buildResult intent policy).status = .rejected ∧
          (s.buildResult intent policy).filledQty = Decimal.zero) := by
  unfold VenueSimAdapter.buildResult
  constructor
  · intro snapshot hsnapshot hrejects hsorted
    rw [if_neg hrejects, if_pos hwalk, hsnapshot]
    exact walkedResult_obeys hscale hsorted
  · intro h
    by_cases hrejects : policy.Rejects
    · rw [if_pos hrejects]
      exact ⟨rfl, rfl⟩
    · rw [if_neg hrejects, if_pos hwalk, h.resolve_left hrejects]
      exact ⟨rfl, rfl⟩

end Result

/-- An order of one unit, or of the given quantity. -/
def demoIntent (side : Side) (limitPrice : Option Decimal)
    (targetQty : Decimal := Decimal.of 1 0) : ExecutionIntent where
  intentId := "i1"
  instrument := ⟨"BTC/USDT", "BTC", "USDT"⟩
  side
  targetQty
  limitPrice

/-- A snapshot with the same levels on both sides. -/
def demoSnapshot (levels : List VenueBookLevel) : HistoricalSnapshot where
  bids := levels
  asks := levels

/-- One level of one unit, or of the given quantity. -/
def demoLevel (price : Decimal) (qty : Decimal := Decimal.of 1 0) : VenueBookLevel :=
  { price, qty }

def demoWalk (slippageUnits takerFeeBps : Int) : OrderPolicy where
  slippageUnits
  takerFeeBps
  walkBook := true

/-- The order is answered from these levels as it asks for. -/
def Obeyed (levels : List VenueBookLevel) (intent : ExecutionIntent) (policy : OrderPolicy) :
    Prop :=
  ObeysOrder (demoSnapshot levels) intent policy
    (VenueSimAdapter.buildResult { lastSnapshot := some (demoSnapshot levels) } intent policy)

theorem BetweenConsumed.single {side : Side} {taken : List (VenueBookLevel × Int)}
    {t : VenueBookLevel × Int} {v : ℚ} (h : BetweenConsumed side taken v) (ht : taken = [t]) :
    v = t.1.price.toRat := by
  subst ht
  obtain ⟨best, worst, hbest, hworst, hlow, hhigh⟩ := h
  cases hbest
  cases hworst
  unfold NoWorse at hlow hhigh
  split at hlow
  · rw [if_pos ‹_›] at hhigh
    exact le_antisymm hhigh hlow
  · rw [if_neg ‹_›] at hhigh
    exact le_antisymm hlow hhigh

/-- Orders that get something else: the slippage goes past the limit, and betters a sale; a limit
of another scale lets a worse price through; the fee loses its last places, or its first; levels
of several price scales are averaged by their mantissas; the slippage overflows; and nothing is
left of an order that the policy rejects, or of one at a negative scale. -/
theorem walked_orders_disobeyed :
    ¬ Obeyed [demoLevel (Decimal.of 100 0)] (demoIntent .buy (some (Decimal.of 101 0)))
        (demoWalk 5 0) ∧
      ¬ Obeyed [demoLevel (Decimal.of 100 0)] (demoIntent .sell none) (demoWalk 5 0) ∧
      ¬ Obeyed [demoLevel (Decimal.of 6801000 2)]
        (demoIntent .buy (some (Decimal.of 680050000 4))) (demoWalk 0 0) ∧
      ¬ Obeyed [demoLevel (Decimal.of 3 0)] (demoIntent .buy none) (demoWalk 0 10) ∧
      ¬ Obeyed [demoLevel (Decimal.of 5000000000000 8) (Decimal.of 100000000000 8)]
        (demoIntent .buy none (Decimal.of 100000000000 8)) (demoWalk 0 10) ∧
      ¬ Obeyed [demoLevel (Decimal.of 100 0), demoLevel (Decimal.of 10100 2)]
        (demoIntent .buy none (Decimal.of 2 0)) (demoWalk 0 0) ∧
      ¬ Obeyed [demoLevel (Decimal.of 100 0)] (demoIntent .buy none) (demoWalk int64Max 0) ∧
      ¬ Obeyed [demoLevel (Decimal.of 100 0)] (demoIntent .buy none)
        { demoWalk 0 0 with rejectCode := "MAINTENANCE" } ∧
      ¬ Obeyed [demoLevel (Decimal.of 100 0) (Decimal.of 1 (-1))]
        (demoIntent .buy none (Decimal.of 1 (-1))) (demoWalk 0 0) := by
  refine ⟨fun h => ?_, fun h => ?_, fun h => ?_, fun h => ?_, fun h => ?_, fun h => ?_,
    fun h => ?_, fun h => ?_, fun h => ?_⟩
  · have hlimit := h.limit (by decide) (Decimal.of 101 0) rfl
    exact absurd hlimit (by decide +kernel)
  · obtain ⟨v, hbetween, hsum⟩ := h.average (by decide)
    rw [hbetween.single (t := (demoLevel (Decimal.of 100 0), 1)) (by decide)] at hsum
    exact absurd hsum (by decide +kernel)
  · have hlimit := h.limit (by decide) (Decimal.of 680050000 4) rfl
    exact absurd hlimit (by decide +kernel)
  · exact absurd (h.fee (by decide)) (by decide +kernel)
  · exact absurd (h.fee (by decide)) (by decide +kernel)
  · obtain ⟨v, ⟨best, worst, hbest, hworst, hlow, hhigh⟩, hsum⟩ := h.average (by decide)
    have htaken : worst = (demoLevel (Decimal.of 10100 2), 1) := by
      have hlast : some worst = some (demoLevel (Decimal.of 10100 2), 1) := by
        rw [← hworst]
        decide
      exact Option.some.inj hlast
    rw [htaken] at hhigh
    have hv : v = 5100 := by
      have haverage : (VenueSimAdapter.buildResult
          { lastSnapshot := some (demoSnapshot [demoLevel (Decimal.of 100 0),
            demoLevel (Decimal.of 10100 2)]) } (demoIntent .buy none (Decimal.of 2 0))
          (demoWalk 0 0)).averagePrice.toRat = 5100 := by
        decide +kernel
      rw [haverage] at hsum
      simpa [demoIntent, demoWalk] using hsum.symm
    rw [hv] at hhigh
    exact absurd hhigh (by decide +kernel)
  · obtain ⟨v, hbetween, hsum⟩ := h.average (by decide)
    rw [hbetween.single (t := (demoLevel (Decimal.of 100 0), 1)) (by decide)] at hsum
    exact absurd hsum (by decide +kernel)
  · exact absurd h.total (by decide +kernel)
  · exact absurd h.total (by decide +kernel)

/-- A fill of two levels within the limit, with its slippage and its fee. -/
theorem walked_order_obeys :
    ObeysPolicy
      (demoSnapshot [demoLevel (Decimal.of 10000 2), demoLevel (Decimal.of 10100 2)])
      (demoIntent .buy (some (Decimal.of 10100 2)) (Decimal.of 2 0)) (demoWalk 5 10)
      (VenueSimAdapter.buildResult
        { lastSnapshot :=
            some (demoSnapshot [demoLevel (Decimal.of 10000 2), demoLevel (Decimal.of 10100 2)]) }
        (demoIntent .buy (some (Decimal.of 10100 2)) (Decimal.of 2 0)) (demoWalk 5 10)) := by
  refine (buildResult_obeys _ _ _ rfl (by decide)).1 _ rfl (by decide) ?_
  exact List.pairwise_pair.mpr (by decide +kernel)

end Venues
end ContExchange
