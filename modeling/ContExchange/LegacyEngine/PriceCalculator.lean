import Mathlib.Tactic

/-!
# Legacy engine: the clearing price

`SegmentTreapPriceCalculator` searches the crossing of the two curves over all 64-bit prices.

* `binarySearch`: the search, with sums that wrap;
* `calculatePrice`: the two searches and the midpoint;
* `binarySearch_found`, `binarySearch_never`: the search ends at the first price exactly when
  the predicate holds in the middle of all prices;
* `rightPrice_iff`: when the price is the one between the bracket.

A search is given a number of rounds; one that ends does so for some number, and for all
larger ones.
-/

namespace ContExchange
namespace LegacyEngine

section Search

/-- A `size_t` sum. -/
def wrap (n : ℕ) : ℕ :=
  n % 2 ^ 64

/-- `kInfPrice`, the largest price. -/
def kInfPrice : ℕ :=
  2 ^ 64 - 1

/-- `BinarySearch`, for some rounds of its loop. -/
def binarySearch (predicate : ℕ → Bool) : ℕ → ℕ → ℕ → Option ℕ
  | 0, _, _ => none
  | rounds + 1, left, right =>
      if left < right then
        let mid := wrap (left + right) / 2
        if predicate mid then binarySearch predicate rounds left mid
        else binarySearch predicate rounds (wrap (mid + 1)) right
      else some left

variable {predicate : ℕ → Bool} {left right rounds rounds' result : ℕ}

theorem binarySearch_mono (h : binarySearch predicate rounds left right = some result)
    (hle : rounds ≤ rounds') : binarySearch predicate rounds' left right = some result := by
  induction rounds generalizing left right rounds' with
  | zero => cases h
  | succ rounds ih =>
      obtain ⟨more, rfl⟩ : ∃ more, rounds' = more + 1 := ⟨rounds' - 1, by omega⟩
      have hmore : rounds ≤ more := by omega
      rw [binarySearch] at h ⊢
      dsimp only at h ⊢
      split_ifs at h ⊢
      · exact ih h hmore
      · exact ih h hmore
      · exact h

theorem binarySearch_first (hmono : ∀ p q, p ≤ q → q ≤ right → predicate p → predicate q)
    (hright : predicate right) (hbound : right < 2 ^ 63) (hle : left ≤ right)
    (hbelow : ∀ p < left, predicate p = false) :
    ∃ first, IsLeast {p | predicate p} first ∧ left ≤ first ∧ first ≤ right ∧
      ∃ rounds, binarySearch predicate rounds left right = some first := by
  induction hwidth : right - left using Nat.strong_induction_on generalizing left right with
  | _ width ih =>
      rcases hle.eq_or_lt with rfl | hlt
      · refine ⟨left, ⟨hright, fun p hp => ?_⟩, le_rfl, le_rfl, 1, ?_⟩
        · by_contra hp'
          rw [Set.mem_ofPred_eq, hbelow p (not_le.mp hp')] at hp
          cases hp
        · rw [binarySearch, if_neg (lt_irrefl left)]
      · have hmid : wrap (left + right) / 2 = (left + right) / 2 := by
          unfold wrap
          omega
        by_cases hpred : predicate ((left + right) / 2)
        · obtain ⟨first, hfirst, hge, hle', rounds, hrounds⟩ :=
            ih ((left + right) / 2 - left) (by omega)
              (fun p q hpq hq => hmono p q hpq (by omega)) hpred (by omega) (by omega) hbelow rfl
          refine ⟨first, hfirst, hge, by omega, rounds + 1, ?_⟩
          rw [binarySearch, if_pos hlt]
          dsimp only
          rw [hmid, if_pos hpred, hrounds]
        · have hnext : wrap ((left + right) / 2 + 1) = (left + right) / 2 + 1 := by
            unfold wrap
            omega
          have hbelow' : ∀ p < (left + right) / 2 + 1, predicate p = false := by
            intro p hp
            by_contra hp'
            exact hpred (hmono p _ (by omega) (by omega) (by simpa using hp'))
          obtain ⟨first, hfirst, hge, hle', rounds, hrounds⟩ :=
            ih (right - ((left + right) / 2 + 1)) (by omega) hmono hright hbound (by omega)
              hbelow' rfl
          refine ⟨first, hfirst, by omega, hle', rounds + 1, ?_⟩
          rw [binarySearch, if_pos hlt]
          dsimp only
          rw [hmid, if_neg hpred, hnext, hrounds]

theorem binarySearch_found (predicate : ℕ → Bool)
    (hmono : ∀ p q, p ≤ q → q ≤ 2 ^ 63 - 1 → predicate p → predicate q)
    (hmiddle : predicate (2 ^ 63 - 1)) :
    ∃ first, IsLeast {p | predicate p} first ∧
      ∃ rounds, binarySearch predicate rounds 0 kInfPrice = some first := by
  obtain ⟨first, hfirst, -, -, rounds, hrounds⟩ :=
    binarySearch_first hmono hmiddle (by norm_num) (Nat.zero_le _) fun p hp => absurd hp (by omega)
  refine ⟨first, hfirst, rounds + 1, ?_⟩
  have hmid : wrap (0 + kInfPrice) / 2 = 2 ^ 63 - 1 := by
    unfold wrap kInfPrice
    norm_num
  rw [binarySearch, if_pos (by unfold kInfPrice; norm_num)]
  dsimp only
  rw [hmid, if_pos hmiddle, hrounds]

theorem binarySearch_loops (hfalse : ∀ p < 2 ^ 63, predicate p = false) (hleft : 1 ≤ left)
    (hle : left ≤ 2 ^ 63) (rounds : ℕ) : binarySearch predicate rounds left kInfPrice = none := by
  induction rounds generalizing left with
  | zero => rfl
  | succ rounds ih =>
      have hlt : left < kInfPrice := by
        unfold kInfPrice
        omega
      have hmid : wrap (left + kInfPrice) / 2 = (left - 1) / 2 := by
        unfold wrap kInfPrice
        omega
      have hnext : wrap ((left - 1) / 2 + 1) = (left - 1) / 2 + 1 := by
        unfold wrap
        omega
      rw [binarySearch, if_pos hlt]
      dsimp only
      rw [hmid, hfalse _ (by omega), if_neg Bool.false_ne_true, hnext]
      exact ih (by omega) (by omega)

theorem binarySearch_never (hfalse : ∀ p < 2 ^ 63, predicate p = false) (rounds : ℕ) :
    binarySearch predicate rounds 0 kInfPrice = none := by
  cases rounds with
  | zero => rfl
  | succ rounds =>
      have hmid : wrap (0 + kInfPrice) / 2 = 2 ^ 63 - 1 := by
        unfold wrap kInfPrice
        norm_num
      have hnext : wrap (2 ^ 63 - 1 + 1) = 2 ^ 63 := by
        unfold wrap
        norm_num
      rw [binarySearch, if_pos (by unfold kInfPrice; norm_num)]
      dsimp only
      rw [hmid, hfalse _ (by norm_num), if_neg Bool.false_ne_true, hnext]
      exact binarySearch_loops hfalse (by norm_num) le_rfl rounds

end Search

section Price

/-- The quantities of the two curves at 64-bit prices. -/
structure PriceCurves where
  bid : ℕ → ℕ
  ask : ℕ → ℕ
  bid_antitone : ∀ p q, p ≤ q → q ≤ kInfPrice → bid q ≤ bid p
  ask_monotone : ∀ p q, p ≤ q → q ≤ kInfPrice → ask p ≤ ask q

/-- The price for the two ends that were found, with the imbalance after it. -/
def priceBetween (first second : ℕ) (imbalance : ℤ) : Option ℕ × ℤ :=
  -- the remainder is taken before the difference
  if wrap (second + (2 ^ 64 - first % 2)) = 1 then
    if 0 < imbalance then (some (wrap (second + first) / 2), imbalance - 1)
    else (some (wrap (second + first + 1) / 2), imbalance + 1)
  else (some (wrap (second + first) / 2), imbalance)

namespace PriceCurves

variable (curves : PriceCurves)

/-- `ask_greater_bid_predicate`. -/
def askGreaterBid (price : ℕ) : Bool :=
  curves.bid price < curves.ask price

/-- `ask_less_bid_predicate`. -/
def askLessBid (price : ℕ) : Bool :=
  curves.ask price < curves.bid price

/-- `CalculatePrice` with the imbalance before and after it, for some rounds of its loops. -/
def calculatePrice (imbalance : ℤ) (rounds : ℕ) : Option (Option ℕ × ℤ) :=
  if !curves.askLessBid 0 || !curves.askGreaterBid kInfPrice then some (none, imbalance)
  else
    match binarySearch curves.askGreaterBid rounds 0 kInfPrice,
        binarySearch (fun price => !curves.askLessBid price) rounds 0 kInfPrice with
    | some second, some notLess =>
        some (priceBetween (wrap (notLess + (2 ^ 64 - 1))) second imbalance)
    | _, _ => none

/-- The calculation ends, with a price or none and an imbalance. -/
def Returns (imbalance : ℤ) (result : Option ℕ × ℤ) : Prop :=
  ∃ rounds, curves.calculatePrice imbalance rounds = some result

/-- The asks are below the bids at the lowest price, and above them at the largest. -/
def Crosses : Prop :=
  curves.ask 0 < curves.bid 0 ∧ curves.bid kInfPrice < curves.ask kInfPrice

/-- The largest price with less asks than bids, and the smallest with more. -/
structure Bracket (lo hi : ℕ) : Prop where
  lo_greatest : IsGreatest {p | p ≤ kInfPrice ∧ curves.ask p < curves.bid p} lo
  hi_least : IsLeast {p | p ≤ kInfPrice ∧ curves.bid p < curves.ask p} hi

end PriceCurves

/-- The middle of a bracket; between two prices the imbalance decides and is evened out. -/
def midpoint (lo hi : ℕ) (imbalance : ℤ) : ℕ × ℤ :=
  if (hi - lo) % 2 = 0 then ((lo + hi) / 2, imbalance)
  else if 0 < imbalance then ((lo + hi) / 2, imbalance - 1)
  else ((lo + hi) / 2 + 1, imbalance + 1)

/-- The calculation ends without a price unless the curves cross, and else with the middle of
the bracket. -/
structure RightPrice (curves : PriceCurves) (imbalance : ℤ) : Prop where
  no_price : ¬ curves.Crosses → curves.Returns imbalance (none, imbalance)
  price : curves.Crosses → ∀ lo hi, curves.Bracket lo hi →
    curves.Returns imbalance (some (midpoint lo hi imbalance).1, (midpoint lo hi imbalance).2)

variable {curves : PriceCurves} {imbalance : ℤ} {lo hi rounds rounds' : ℕ}
  {result result' : Option ℕ × ℤ}

theorem calculatePrice_mono (h : curves.calculatePrice imbalance rounds = some result)
    (hle : rounds ≤ rounds') : curves.calculatePrice imbalance rounds' = some result := by
  unfold PriceCurves.calculatePrice at h ⊢
  split_ifs at h ⊢
  · exact h
  · split at h
    · rename_i second notLess hsecond hnotLess
      rw [binarySearch_mono hsecond hle, binarySearch_mono hnotLess hle]
      exact h
    · cases h

theorem PriceCurves.Returns.unique (h : curves.Returns imbalance result)
    (h' : curves.Returns imbalance result') : result = result' := by
  obtain ⟨rounds, h⟩ := h
  obtain ⟨rounds', h'⟩ := h'
  have hmax := calculatePrice_mono h (le_max_left rounds rounds')
  have hmax' := calculatePrice_mono h' (le_max_right rounds rounds')
  exact Option.some.inj (hmax.symm.trans hmax')

theorem crosses_iff :
    curves.Crosses ↔
      (!curves.askLessBid 0 || !curves.askGreaterBid kInfPrice) = false := by
  unfold PriceCurves.Crosses PriceCurves.askLessBid PriceCurves.askGreaterBid
  simp

theorem calculatePrice_of_not_crosses (h : ¬ curves.Crosses) (rounds : ℕ) :
    curves.calculatePrice imbalance rounds = some (none, imbalance) := by
  rw [crosses_iff, Bool.not_eq_false] at h
  unfold PriceCurves.calculatePrice
  rw [if_pos h]

theorem calculatePrice_never (hcross : curves.Crosses)
    (hmiddle : ¬ curves.bid (2 ^ 63 - 1) < curves.ask (2 ^ 63 - 1)) (rounds : ℕ) :
    curves.calculatePrice imbalance rounds = none := by
  have hfalse : ∀ p < 2 ^ 63, curves.askGreaterBid p = false := by
    intro p hp
    have hle : p ≤ 2 ^ 63 - 1 := by omega
    have hbid := curves.bid_antitone p _ hle (by unfold kInfPrice; norm_num)
    have hask := curves.ask_monotone p _ hle (by unfold kInfPrice; norm_num)
    exact decide_eq_false (by omega)
  unfold PriceCurves.calculatePrice
  rw [if_neg (by rw [crosses_iff.mp hcross]; exact Bool.false_ne_true), binarySearch_never hfalse]

theorem wrap_of_lt {n : ℕ} (h : n < 2 ^ 64) : wrap n = n :=
  Nat.mod_eq_of_lt h

theorem priceBetween_eq (hlt : lo < hi) (hhi : hi < 2 ^ 63) (imbalance : ℤ) :
    priceBetween lo hi imbalance =
      if hi - lo = 1 ∧ hi ≤ 2 then
        (some (midpoint lo hi imbalance).1, (midpoint lo hi imbalance).2)
      else (some ((lo + hi) / 2), imbalance) := by
  have htest : wrap (hi + (2 ^ 64 - lo % 2)) = 1 ↔ hi - lo = 1 ∧ hi ≤ 2 := by
    unfold wrap
    omega
  unfold priceBetween
  rw [wrap_of_lt (n := hi + lo) (by omega), wrap_of_lt (n := hi + lo + 1) (by omega),
    add_comm hi lo]
  simp only [htest]
  split_ifs with hpair hpos
  · rw [midpoint, if_neg (by omega), if_pos hpos]
  · rw [midpoint, if_neg (by omega), if_neg hpos]
    have hhalf : (lo + hi + 1) / 2 = (lo + hi) / 2 + 1 := by omega
    rw [hhalf]
  · rfl

theorem askGreaterBid_iff {price : ℕ} :
    curves.askGreaterBid price = true ↔ curves.bid price < curves.ask price :=
  decide_eq_true_iff

theorem not_askLessBid_iff {price : ℕ} :
    (!curves.askLessBid price) = true ↔ curves.bid price ≤ curves.ask price := by
  unfold PriceCurves.askLessBid
  rw [Bool.not_eq_true', decide_eq_false_iff_not, not_lt]

theorem calculatePrice_of_middle (hcross : curves.Crosses)
    (hmiddle : curves.bid (2 ^ 63 - 1) < curves.ask (2 ^ 63 - 1)) :
    ∃ lo hi, curves.Bracket lo hi ∧ lo < hi ∧ hi < 2 ^ 63 ∧
      ∀ imbalance, curves.Returns imbalance (priceBetween lo hi imbalance) := by
  have htop : (2 : ℕ) ^ 63 - 1 ≤ kInfPrice := by
    unfold kInfPrice
    norm_num
  obtain ⟨hi, hhi, rounds, hrounds⟩ := binarySearch_found curves.askGreaterBid
    (fun p q hpq hq hp => askGreaterBid_iff.mpr
      ((curves.bid_antitone p q hpq (hq.trans htop)).trans_lt
        ((askGreaterBid_iff.mp hp).trans_le (curves.ask_monotone p q hpq (hq.trans htop)))))
    (askGreaterBid_iff.mpr hmiddle)
  obtain ⟨notLess, hnotLess, rounds', hrounds'⟩ :=
    binarySearch_found (fun price => !curves.askLessBid price)
      (fun p q hpq hq hp => not_askLessBid_iff.mpr
        ((curves.bid_antitone p q hpq (hq.trans htop)).trans
          ((not_askLessBid_iff.mp hp).trans (curves.ask_monotone p q hpq (hq.trans htop)))))
      (not_askLessBid_iff.mpr hmiddle.le)
  have hhi' : curves.bid hi < curves.ask hi := askGreaterBid_iff.mp hhi.1
  have hhalf : hi ≤ 2 ^ 63 - 1 := hhi.2 (askGreaterBid_iff.mpr hmiddle)
  have hle : notLess ≤ hi := hnotLess.2 (not_askLessBid_iff.mpr hhi'.le)
  have hnotLess' : curves.bid notLess ≤ curves.ask notLess := not_askLessBid_iff.mp hnotLess.1
  have hpos : 0 < notLess := by
    rcases Nat.eq_zero_or_pos notLess with rfl | hpos
    · exact absurd hnotLess' (not_le.mpr hcross.1)
    · exact hpos
  have hfirst : wrap (notLess + (2 ^ 64 - 1)) = notLess - 1 := by
    unfold wrap
    omega
  refine ⟨notLess - 1, hi, ⟨⟨⟨by omega, ?_⟩, ?_⟩, ⟨⟨by omega, hhi'⟩, ?_⟩⟩, by omega, by omega,
    fun imbalance => ⟨max rounds rounds', ?_⟩⟩
  · by_contra hge
    have := hnotLess.2 (not_askLessBid_iff.mpr (not_lt.mp hge))
    omega
  · rintro p ⟨hp, hless⟩
    by_contra hlt
    have hbid := curves.bid_antitone notLess p (by omega) hp
    have hask := curves.ask_monotone notLess p (by omega) hp
    omega
  · rintro p ⟨-, hp⟩
    exact hhi.2 (askGreaterBid_iff.mpr hp)
  · unfold PriceCurves.calculatePrice
    rw [if_neg (by rw [crosses_iff.mp hcross]; exact Bool.false_ne_true),
      binarySearch_mono hrounds (le_max_left rounds rounds'),
      binarySearch_mono hrounds' (le_max_right rounds rounds')]
    dsimp only
    rw [hfirst]

theorem PriceCurves.Bracket.unique {lo' hi' : ℕ} (h : curves.Bracket lo hi)
    (h' : curves.Bracket lo' hi') :
    lo = lo' ∧ hi = hi' :=
  ⟨h.lo_greatest.unique h'.lo_greatest, h.hi_least.unique h'.hi_least⟩

theorem PriceCurves.Crosses.exists_bracket (h : curves.Crosses) :
    ∃ lo hi, curves.Bracket lo hi := by
  have hhi : ∃ p, p ≤ kInfPrice ∧ curves.bid p < curves.ask p := ⟨kInfPrice, le_rfl, h.2⟩
  refine ⟨Nat.findGreatest (fun p => curves.ask p < curves.bid p) kInfPrice, Nat.find hhi,
    ⟨⟨Nat.findGreatest_le _, ?_⟩, ?_⟩, ⟨Nat.find_spec hhi, fun p hp => Nat.find_min' hhi hp⟩⟩
  · exact Nat.findGreatest_spec (P := fun p => curves.ask p < curves.bid p) (Nat.zero_le _) h.1
  · rintro p ⟨hp, hless⟩
    exact Nat.le_findGreatest hp hless

/-- The price is the one between the bracket exactly when the curves do not cross, or the asks
are above the bids in the middle of all prices and the bracket is even or at the very bottom. -/
theorem rightPrice_iff (curves : PriceCurves) (imbalance : ℤ) :
    RightPrice curves imbalance ↔
      (curves.Crosses → curves.bid (2 ^ 63 - 1) < curves.ask (2 ^ 63 - 1) ∧
        ∀ lo hi, curves.Bracket lo hi → (hi - lo) % 2 = 0 ∨ hi ≤ 2) := by
  by_cases hcross : curves.Crosses
  · by_cases hmiddle : curves.bid (2 ^ 63 - 1) < curves.ask (2 ^ 63 - 1)
    · obtain ⟨lo, hi, hbracket, hlt, hhi, hreturns⟩ := calculatePrice_of_middle hcross hmiddle
      have hprice := hreturns imbalance
      rw [priceBetween_eq hlt hhi] at hprice
      constructor
      · intro h
        refine fun _ => ⟨hmiddle, fun lo' hi' hbracket' => ?_⟩
        obtain ⟨rfl, rfl⟩ := hbracket.unique hbracket'
        have hsame := PriceCurves.Returns.unique hprice (h.price hcross lo hi hbracket)
        by_contra hodd
        -- an odd bracket above the bottom leaves the imbalance as it is
        rw [if_neg (by omega), midpoint, if_neg (by omega)] at hsame
        have himbalance := congrArg Prod.snd hsame
        dsimp only at himbalance
        split_ifs at himbalance <;> omega
      · intro h
        refine ⟨fun hnot => absurd hcross hnot, fun _ lo' hi' hbracket' => ?_⟩
        obtain ⟨rfl, rfl⟩ := hbracket.unique hbracket'
        by_cases hpair : hi - lo = 1 ∧ hi ≤ 2
        · rwa [if_pos hpair] at hprice
        · have heven : (hi - lo) % 2 = 0 := by
            rcases (h hcross).2 lo hi hbracket with heven | hle
            · exact heven
            · omega
          rw [if_neg hpair] at hprice
          rwa [midpoint, if_pos heven]
    · refine iff_of_false (fun h => ?_) fun h => hmiddle (h hcross).1
      obtain ⟨lo, hi, hbracket⟩ := PriceCurves.Crosses.exists_bracket hcross
      obtain ⟨rounds, hrounds⟩ := h.price hcross lo hi hbracket
      rw [calculatePrice_never hcross hmiddle] at hrounds
      cases hrounds
  · refine iff_of_true ⟨fun _ => ⟨0, calculatePrice_of_not_crosses hcross 0⟩, fun h => ?_⟩
      fun h => absurd h hcross
    exact absurd h hcross

end Price

section Examples

def oddCurves : PriceCurves where
  bid price := if price ≤ 2 then 1 else 0
  ask price := if 5 ≤ price then 1 else 0
  bid_antitone p q hpq _ := by
    split_ifs <;> omega
  ask_monotone p q hpq _ := by
    split_ifs <;> omega

theorem oddCurves_bracket : oddCurves.Bracket 2 5 := by
  refine ⟨⟨⟨?_, ?_⟩, ?_⟩, ⟨⟨?_, ?_⟩, ?_⟩⟩
  · decide +kernel
  · decide
  · rintro p ⟨-, hp⟩
    by_contra hlt
    have hbid : oddCurves.bid p = 0 := if_neg (by omega)
    rw [hbid] at hp
    exact absurd hp (Nat.not_lt_zero _)
  · decide +kernel
  · decide
  · rintro p ⟨-, hp⟩
    by_contra hlt
    have hask : oddCurves.ask p = 0 := if_neg (by omega)
    rw [hask] at hp
    exact absurd hp (Nat.not_lt_zero _)

/-- The lower middle is returned, and the imbalance of zero stays. -/
theorem not_rightPrice : ¬ ∀ curves imbalance, RightPrice curves imbalance := by
  intro h
  have hprice := (h oddCurves 0).price (by unfold PriceCurves.Crosses; decide +kernel) 2 5
    oddCurves_bracket
  have hreturns : oddCurves.Returns 0 (some 3, 0) := ⟨70, by decide +kernel⟩
  have hsame := PriceCurves.Returns.unique hprice hreturns
  revert hsame
  decide

end Examples

end LegacyEngine
end ContExchange
