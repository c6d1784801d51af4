import ContExchange.Common.DoubleText
import ContExchange.Matching.Curve

/-!
# Backtest: the depth of a market, stored as a text

The venue service writes every level of a snapshot as a pair of doubles on a plain
stream.  The replay looks for brackets and commas in the text, reads the numbers
between them and rounds them to eight places.

A plain stream writes six significant digits.  What has more of them comes back
as another number:

* `decimalArrayToJson`, `parseDepthJson`, `makeBookLevels`: writer and reader;
* `depthLevels_depthItems`: every level is found again, in order;
* `readBack_iff`: the number of a level survives when six digits are enough;
* `depth_replays_iff`: the stored depth replays exactly when all its numbers do.
-/

namespace ContExchange
namespace Backtest

open Common Double List
open Int hiding cast_mul cast_pow cast_zero floor_eq_iff

def decimalToDouble (d : Decimal) : Double :=
  (Double.ofRat d.units).div (Double.ofRat ((10 : ℚ) ^ d.scale))

/-- A decimal on a stream of the default precision. -/
def depthNumber (d : Decimal) : List Char :=
  (decimalToDouble d).generalText 6

/-- The levels behind the first bracket. -/
def depthItems (first : Bool) : List (Decimal × Decimal) → List Char
  | [] => [']']
  | (price, qty) :: rest =>
      (if first then [] else [',']) ++
        '[' :: (depthNumber price ++ ',' :: (depthNumber qty ++ ']' :: depthItems false rest))

def decimalArrayToJson (prices quantities : List Decimal) : List Char :=
  '[' :: depthItems true (prices.zip quantities)

/-- The text before the next character of a kind, and the text behind it. -/
def cut (c : Char) (text : List Char) : Option (List Char × List Char) :=
  match text.dropWhile (· ≠ c) with
  | [] => none
  | _ :: rest => some (text.takeWhile (· ≠ c), rest)

theorem length_lt_of_cut {c : Char} {text before rest : List Char}
    (h : cut c text = some (before, rest)) : rest.length < text.length := by
  unfold cut at h
  split at h
  · cases h
  · rename_i x tail htail
    cases h
    have hsplit := congrArg List.length (takeWhile_append_dropWhile (p := (· ≠ c)) (l := text))
    rw [htail, length_append, length_cons] at hsplit
    omega

/-- The loop of `ParseDepthJson`; nothing when a number cannot be read.  Without a
bracket behind its comma the second number goes on to the end of the text. -/
def depthLevels (text : List Char) : Option (List (Double × Double)) :=
  match _hopen : cut '[' text with
  | none => some []
  | some (_, body) =>
      match cut ',' body, hclose : cut ']' body with
      | some (priceText, afterComma), some (inner, rest) => do
          let qtyText :=
            if priceText.length < inner.length then inner.drop (priceText.length + 1)
            else afterComma
          let price ← stod priceText
          let qty ← stod qtyText
          let levels ← depthLevels rest
          some ((price, qty) :: levels)
      | _, _ => some []
termination_by text.length
decreasing_by
  have hbody := length_lt_of_cut _hopen
  have hrest := length_lt_of_cut hclose
  omega

/-- `ParseDepthJson`: the outer bracket is passed over. -/
def parseDepthJson : List Char → Option (List (Double × Double))
  | '[' :: rest => depthLevels rest
  | json => depthLevels json

/-- `static_cast<int64_t>(std::round(value * 1e8))`. -/
def unitsAtEight (value : Double) : Int :=
  match value.mul (Double.ofRat (10 ^ 8)) with
  | .num q => if Int64Fits (Matching.llround q) then Matching.llround q else int64Min
  | .nan | .inf _ => int64Min

theorem unitsAtEight_fits (value : Double) : Int64Fits (unitsAtEight value) := by
  unfold unitsAtEight
  split
  · split_ifs with h
    · exact h
    · decide
  · decide
  · decide

structure BookLevel where
  price : Decimal
  qty : Decimal

def makeBookLevels (depth : List (Double × Double)) : List BookLevel :=
  depth.map fun level =>
    { price := ⟨unitsAtEight level.1, 8, unitsAtEight_fits level.1⟩
      qty := ⟨unitsAtEight level.2, 8, unitsAtEight_fits level.2⟩ }

section Levels

variable {text front rest : List Char} {c : Char} {d : Decimal}

theorem cut_append (h : c ∉ front) (rest : List Char) :
    cut c (front ++ c :: rest) = some (front, rest) := by
  have hfront : ∀ x ∈ front, (decide (x ≠ c)) = true := by
    intro x hx
    rw [decide_eq_true_eq]
    rintro rfl
    exact h hx
  unfold cut
  rw [dropWhile_append_of_pos hfront, takeWhile_append_of_pos hfront]
  simp

theorem depthLevels_of_no_bracket (h : cut '[' text = none) : depthLevels text = some [] := by
  rw [depthLevels]
  split
  · rfl
  · rename_i hopen
    rw [h] at hopen
    cases hopen

theorem depthLevels_pair {before priceText qtyText : List Char} {price qty : Double}
    (hbefore : '[' ∉ before) (hprice : ',' ∉ priceText) (hinner : ']' ∉ priceText ++ ',' :: qtyText)
    (hreadPrice : stod priceText = some price) (hreadQty : stod qtyText = some qty)
    (rest : List Char) :
    depthLevels (before ++ '[' :: (priceText ++ ',' :: (qtyText ++ ']' :: rest))) =
      (depthLevels rest).map ((price, qty) :: ·) := by
  have hopen := cut_append hbefore (priceText ++ ',' :: (qtyText ++ ']' :: rest))
  have hcomma := cut_append hprice (qtyText ++ ']' :: rest)
  have hclose := cut_append hinner rest
  have hform : priceText ++ ',' :: qtyText ++ ']' :: rest =
      priceText ++ ',' :: (qtyText ++ ']' :: rest) := by simp
  rw [hform] at hclose
  have hlength : priceText.length < (priceText ++ ',' :: qtyText).length := by simp
  have hdrop : (priceText ++ ',' :: qtyText).drop (priceText.length + 1) = qtyText := by simp
  rw [depthLevels]
  split
  · rename_i hnone
    rw [hopen] at hnone
    cases hnone
  · rename_i x body hsome
    rw [hopen] at hsome
    cases hsome
    split
    · rename_i priceText' afterComma inner rest' hcomma' hclose'
      rw [hcomma] at hcomma'
      rw [hclose] at hclose'
      cases hcomma'
      cases hclose'
      dsimp only
      rw [if_pos hlength, hdrop, hreadPrice, hreadQty]
      cases depthLevels rest <;> rfl
    · rename_i hneither
      exact absurd hclose (hneither _ _ _ _ hcomma)

theorem mem_depthNumber {q : ℚ} (hd : decimalToDouble d = .num q) (h : c ∈ depthNumber d) :
    c.isDigit = true ∨ c ∈ ['.', 'e', '+', '-'] := by
  unfold depthNumber at h
  rw [hd] at h
  simp only [generalText] at h
  split_ifs at h with hzero hneg
  · exact .inl (by rw [mem_singleton.mp h]; decide)
  · rcases mem_append.mp h with h | h
    · exact .inr (by rw [mem_singleton.mp h]; decide)
    · exact mem_generalMagnitude h
  · exact mem_generalMagnitude h

/-- A decimal whose text is read, and as what. -/
def ReadAs (d : Decimal) (v : Double) : Prop :=
  (∃ q, decimalToDouble d = .num q) ∧ stod (depthNumber d) = some v

theorem ReadAs.notMem {v : Double} (h : ReadAs d v) (hdigit : c.isDigit = false)
    (hother : c ∉ ['.', 'e', '+', '-']) : c ∉ depthNumber d := by
  intro hmem
  obtain ⟨⟨q, hq⟩, -⟩ := h
  rcases mem_depthNumber hq hmem with hc | hc
  · rw [hdigit] at hc
    cases hc
  · exact hother hc

theorem depthLevels_depthItems {levels : List (Decimal × Decimal)} {read : Decimal → Double}
    (h : ∀ level ∈ levels, ReadAs level.1 (read level.1) ∧ ReadAs level.2 (read level.2))
    (first : Bool) :
    depthLevels (depthItems first levels) =
      some (levels.map fun level => (read level.1, read level.2)) := by
  induction levels generalizing first with
  | nil =>
      have hnone : cut '[' [']'] = none := by decide
      exact depthLevels_of_no_bracket hnone
  | cons level rest ih =>
      obtain ⟨⟨hprice, hqty⟩, hrest⟩ := forall_mem_cons.mp h
      have hbefore : '[' ∉ (if first then [] else [',']) := by cases first <;> decide
      have hinner : ']' ∉ depthNumber level.1 ++ ',' :: depthNumber level.2 := by
        rw [mem_append, mem_cons]
        rintro (hmem | hmem | hmem)
        · exact hprice.notMem (by decide) (by decide) hmem
        · exact absurd hmem (by decide)
        · exact hqty.notMem (by decide) (by decide) hmem
      have hpair := depthLevels_pair hbefore (hprice.notMem (by decide) (by decide)) hinner
        hprice.2 hqty.2 (depthItems false rest)
      obtain ⟨price, qty⟩ := level
      rw [depthItems, hpair, ih hrest false]
      rfl

end Levels

/-- A number whose digits, up to the zeros at their end, are six or fewer. -/
def SixDigits (n : Int) : Prop :=
  ∃ m k : Nat, m < 10 ^ 6 ∧ n.natAbs = m * 10 ^ k

/-- A decimal of at most eight places, and of at most `2 ^ 53` units there. -/
def Storable (d : Decimal) : Prop :=
  0 ≤ d.scale ∧ d.scale ≤ 8 ∧ (d.unitsAt 8).natAbs ≤ 2 ^ 53
deriving Decidable

section Numbers

variable {d : Decimal} {n : Int} {v : ℚ}

theorem sixDigits_mul_pow (n : Int) (k : Nat) : SixDigits (n * 10 ^ k) ↔ SixDigits n := by
  have habs : (n * 10 ^ k).natAbs = n.natAbs * 10 ^ k := by
    rw [natAbs_mul, natAbs_pow]
    rfl
  constructor
  · rintro ⟨m, j, hm, hform⟩
    rw [habs] at hform
    rcases le_or_gt k j with hle | hlt
    · refine ⟨m, j - k, hm, ?_⟩
      rw [← Nat.sub_add_cancel hle, pow_add, ← mul_assoc] at hform
      exact Nat.eq_of_mul_eq_mul_right (by positivity) hform
    · refine ⟨n.natAbs, 0, ?_, by simp⟩
      rw [← Nat.sub_add_cancel hlt.le, pow_add, ← mul_assoc] at hform
      have hm' := Nat.eq_of_mul_eq_mul_right (by positivity) hform
      exact lt_of_le_of_lt (Nat.le_mul_of_pos_right _ (by positivity)) (hm'.trans_lt hm)
  · rintro ⟨m, j, hm, hform⟩
    refine ⟨m, j + k, hm, ?_⟩
    rw [habs, hform, pow_add, mul_assoc]

theorem llround_eq {q : ℚ} (h : |q - n| < 1 / 2) : Matching.llround q = n := by
  obtain ⟨hlow, hhigh⟩ := abs_lt.mp h
  unfold Matching.llround
  split_ifs
  · rw [Int.floor_eq_iff]
    constructor <;> linarith
  · have hfloor : ⌊-q + 1 / 2⌋ = -n := by
      rw [Int.floor_eq_iff]
      push_cast
      constructor <;> linarith
    omega

theorem unitsAtEight_eq {w : ℚ} (hw : ofRat (v * 10 ^ 8) = .num w)
    (hnear : |w - n| < 1 / 2) (hfits : Int64Fits n) : unitsAtEight (.num v) = n := by
  have hfactor : ofRat (10 ^ 8) = .num (10 ^ 8) := by
    have := ofRat_int (n := 10 ^ 8) (by norm_num)
    push_cast at this
    exact this
  unfold unitsAtEight mul
  rw [hfactor]
  dsimp only
  rw [hw]
  dsimp only
  rw [llround_eq hnear, if_pos hfits]

theorem unitsAtEight_of_small (hne : n ≠ 0) (hsmall : n.natAbs ≤ 10 ^ 13)
    (hv : |v - n / 10 ^ 8| ≤ |(n : ℚ) / 10 ^ 8| * (2 : ℚ) ^ (-53 : Int)) :
    unitsAtEight (.num v) = n := by
  have htwo : (1 : ℚ) < 2 := one_lt_two
  have habs : |(n : ℚ)| ≤ 10 ^ 13 := by
    rw [← cast_abs, abs_eq_natAbs]
    exact_mod_cast hsmall
  have hone : 1 ≤ |(n : ℚ)| := by
    rw [← cast_abs]
    exact_mod_cast one_le_abs hne
  have htiny : (2 : ℚ) ^ (-53 : Int) = 1 / 2 ^ 53 := by norm_num
  have height : (0 : ℚ) < 10 ^ 8 := by norm_num
  obtain ⟨y, hy⟩ : ∃ y : ℚ, y = v * 10 ^ 8 := ⟨_, rfl⟩
  have hfirst : |y - n| ≤ |(n : ℚ)| / 2 ^ 53 := by
    have hform : y - n = (v - n / 10 ^ 8) * 10 ^ 8 := by
      rw [hy, sub_mul, div_mul_cancel₀ _ height.ne']
    rw [hform, abs_mul, abs_of_pos height]
    rw [abs_div, abs_of_pos height, htiny] at hv
    calc _ ≤ |(n : ℚ)| / 10 ^ 8 * (1 / 2 ^ 53) * 10 ^ 8 :=
          mul_le_mul_of_nonneg_right hv height.le
      _ = |(n : ℚ)| / 2 ^ 53 := by ring
  have hloss : |(n : ℚ)| / 2 ^ 53 ≤ 1 / 100 := by
    rw [div_le_iff₀ (by positivity)]
    exact habs.trans (by norm_num)
  have hback := abs_sub_abs_le_abs_sub (n : ℚ) y
  have hforth := abs_sub_abs_le_abs_sub y (n : ℚ)
  rw [abs_sub_comm] at hback
  have hlow : 1 / 2 ≤ |y| := by linarith only [hback, hfirst, hloss, hone]
  have hhigh : |y| ≤ 10 ^ 14 := by
    have : |y| ≤ 10 ^ 13 + 1 / 100 := by linarith only [hforth, hfirst, hloss, habs]
    exact this.trans (by norm_num)
  obtain ⟨w, hw, hsecond⟩ := ofRat_spec
    (le_trans (zpow_le_zpow_right₀ htwo.le (show (-1022 : Int) ≤ -1 by norm_num))
      (by simpa using hlow))
    (lt_of_le_of_lt (hhigh.trans (by norm_num : (10 : ℚ) ^ 14 ≤ 2 ^ (60 : Int)))
      (zpow_lt_zpow_right₀ htwo (by norm_num)))
  have hlast : |w - y| ≤ 1 / 10 := by
    rw [htiny] at hsecond
    refine hsecond.trans ?_
    calc |y| * (1 / 2 ^ 53) ≤ 10 ^ 14 * (1 / 2 ^ 53) :=
          mul_le_mul_of_nonneg_right hhigh (by norm_num)
      _ ≤ 1 / 10 := by norm_num
  rw [hy] at hw
  refine unitsAtEight_eq hw ?_ ?_
  · have htri := abs_sub_le w y n
    linarith only [htri, hlast, hfirst, hloss]
  · unfold Int64Fits int64Min int64Max
    omega

theorem unitsAtEight_ofRat {m k : Nat} (hm : m < 10 ^ 6) (hform : n.natAbs = m * 10 ^ k)
    (hbound : n.natAbs ≤ 10 ^ 17) (hv : ofRat (n / 10 ^ 8) = .num v) :
    unitsAtEight (.num v) = n := by
  have htwo : (1 : ℚ) < 2 := one_lt_two
  rcases eq_or_ne n 0 with rfl | hne
  · have hzero : v = 0 := by
      rw [Int.cast_zero, zero_div] at hv
      exact (num.inj hv).symm
    rw [hzero]
    decide +kernel
  rcases le_or_gt 8 k with hk | hk
  · -- at least eight zeros: both doubles are integers, and exact
    obtain ⟨i, rfl⟩ : ((10 : Int) ^ 8) ∣ n := by
      rw [← natAbs_dvd_natAbs, hform]
      exact (pow_dvd_pow 10 hk).mul_left m
    have hi : i.natAbs ≤ 10 ^ 9 := by
      omega
    have hcast : ((10 ^ 8 * i : Int) : ℚ) = i * 10 ^ 8 := by
      rw [Int.cast_mul, Int.cast_pow, cast_ofNat, mul_comm]
    have hquotient : ((10 ^ 8 * i : Int) : ℚ) / 10 ^ 8 = i := by
      rw [hcast, mul_div_cancel_right₀ _ (by norm_num)]
    rw [hquotient, ofRat_int (by omega)] at hv
    cases hv
    have hproduct : (i : ℚ) * 10 ^ 8 = ((5 ^ 8 * i : Int) : ℚ) * 2 ^ 8 := by
      push_cast
      norm_num
      ring
    have hexact : ofRat ((i : ℚ) * 10 ^ 8) = .num ((10 ^ 8 * i : Int) : ℚ) := by
      rw [hproduct, ofRat_shifted (by omega) (by norm_num), ← hproduct, hcast]
    refine unitsAtEight_eq hexact (by simp) ?_
    unfold Int64Fits int64Min int64Max
    omega
  · have hsmall : n.natAbs ≤ 10 ^ 13 := by
      rw [hform]
      calc m * 10 ^ k ≤ 10 ^ 6 * 10 ^ 7 :=
            Nat.mul_le_mul hm.le (Nat.pow_le_pow_right (by norm_num) (by omega))
        _ = 10 ^ 13 := by norm_num
    have habs : |(n : ℚ)| ≤ 10 ^ 13 := by
      rw [← cast_abs, abs_eq_natAbs]
      exact_mod_cast hsmall
    have hone : 1 ≤ |(n : ℚ)| := by
      rw [← cast_abs]
      exact_mod_cast one_le_abs hne
    have hsize : |(n : ℚ) / 10 ^ 8| = |(n : ℚ)| / 10 ^ 8 := by
      rw [abs_div, abs_of_pos (show (0 : ℚ) < 10 ^ 8 by norm_num)]
    obtain ⟨v', hv', hnear⟩ := ofRat_spec (q := (n : ℚ) / 10 ^ 8)
      (le_trans (zpow_le_zpow_right₀ htwo.le (show (-1022 : Int) ≤ -40 by norm_num))
        (by rw [hsize, le_div_iff₀ (by norm_num)]; exact le_trans (by norm_num) hone))
      (lt_of_le_of_lt (b := (2 : ℚ) ^ (60 : Int))
        (by rw [hsize, div_le_iff₀ (by norm_num)]; exact habs.trans (by norm_num))
        (zpow_lt_zpow_right₀ htwo (by norm_num)))
    rw [hv] at hv'
    cases hv'
    exact unitsAtEight_of_small hne hsmall hnear

theorem decimalToDouble_eq (h : Storable d) :
    decimalToDouble d = ofRat (d.unitsAt 8 / 10 ^ 8) := by
  obtain ⟨hpos, hle, hunits⟩ := h
  obtain ⟨s, hs⟩ := eq_ofNat_of_zero_le hpos
  have hs8 : s ≤ 8 := by omega
  have hplaces : (8 - d.scale).toNat = 8 - s := by omega
  have hpow : (0 : Nat) < 10 ^ (8 - s) := by positivity
  unfold Decimal.unitsAt at hunits ⊢
  rw [hplaces] at hunits ⊢
  have hsmall : d.units.natAbs ≤ 2 ^ 53 := by
    rw [natAbs_mul, natAbs_pow] at hunits
    exact (Nat.le_mul_of_pos_right _ hpow).trans hunits
  have hten : (10 ^ s : Int).natAbs ≤ 2 ^ 53 := by
    rw [natAbs_pow]
    exact (Nat.pow_le_pow_right (by norm_num) hs8).trans (by norm_num)
  have hdivisor : ofRat ((10 : ℚ) ^ d.scale) = .num (10 ^ s) := by
    have := ofRat_int hten
    rw [Int.cast_pow, cast_ofNat] at this
    rw [hs, zpow_natCast, this]
  unfold decimalToDouble
  rw [ofRat_int hsmall, hdivisor]
  unfold div
  dsimp only
  rw [if_pos (by positivity)]
  congr 1
  have hsplit : (10 : ℚ) ^ 8 = 10 ^ (8 - s) * 10 ^ s := by
    rw [← pow_add, Nat.sub_add_cancel hs8]
  rw [Int.cast_mul, Int.cast_pow, cast_ofNat, hsplit, mul_comm (d.units : ℚ),
    mul_div_mul_left _ _ (by positivity)]

theorem SixDigits.full (h : SixDigits n) (hne : n ≠ 0) :
    ∃ m : Nat, ∃ j : Int, 10 ^ 5 ≤ m ∧ m < 10 ^ 6 ∧ |(n : ℚ)| = m * 10 ^ j := by
  obtain ⟨m, k, hm, hform⟩ := h
  have hpos : 0 < m := by
    rcases Nat.eq_zero_or_pos m with rfl | hpos
    · rw [zero_mul, natAbs_eq_zero] at hform
      exact absurd hform hne
    · exact hpos
  obtain ⟨i, hlow, hhigh⟩ := exists_fullDigits hpos hm
  refine ⟨m * 10 ^ i, k - i, hlow, hhigh, ?_⟩
  have habs : |(n : ℚ)| = (m * 10 ^ k : Nat) := by
    rw [← hform, ← cast_abs, abs_eq_natAbs, cast_natCast]
  rw [habs, zpow_sub₀ (by norm_num), zpow_natCast, zpow_natCast]
  push_cast
  field_simp

/-- What is known of the double that a stored number other than zero becomes. -/
structure NearStored (n : Int) (v : ℚ) : Prop where
  ofRat : Double.ofRat (n / 10 ^ 8) = .num v
  near : abs (|v| - |(n : ℚ)| / 10 ^ 8) ≤ |(n : ℚ)| / 10 ^ 8 * (2 : ℚ) ^ (-53 : Int)
  sign : signOf v = signOf n
  low : (10 : ℚ) ^ (-9 : Int) ≤ |v|
  high : |v| < (10 : ℚ) ^ (8 : Int)

theorem exists_nearStored (hne : n ≠ 0) (hbound : n.natAbs ≤ 2 ^ 53) : ∃ v, NearStored n v := by
  have htwo : (1 : ℚ) < 2 := one_lt_two
  have height : (0 : ℚ) < 10 ^ 8 := by norm_num
  have hone : 1 ≤ |(n : ℚ)| := by
    rw [← cast_abs]
    exact_mod_cast one_le_abs hne
  have habs : |(n : ℚ)| ≤ 2 ^ 53 := by
    rw [← cast_abs, abs_eq_natAbs]
    exact_mod_cast hbound
  have hsize : |(n : ℚ) / 10 ^ 8| = |(n : ℚ)| / 10 ^ 8 := by
    rw [abs_div, abs_of_pos height]
  have hlow : (1 : ℚ) / 10 ^ 8 ≤ |(n : ℚ)| / 10 ^ 8 := div_le_div_of_nonneg_right hone height.le
  have hhigh : |(n : ℚ)| / 10 ^ 8 ≤ 2 ^ 53 / 10 ^ 8 := div_le_div_of_nonneg_right habs height.le
  obtain ⟨v, hv, hnear⟩ := ofRat_spec (q := (n : ℚ) / 10 ^ 8)
    (le_trans (zpow_le_zpow_right₀ htwo.le (show (-1022 : Int) ≤ -40 by norm_num))
      (by rw [hsize]; exact le_trans (by norm_num) hlow))
    (lt_of_le_of_lt (b := (2 : ℚ) ^ (60 : Int))
      (by rw [hsize]; exact hhigh.trans (by norm_num)) (zpow_lt_zpow_right₀ htwo (by norm_num)))
  rw [hsize] at hnear
  have htiny : |(n : ℚ)| / 10 ^ 8 * (2 : ℚ) ^ (-53 : Int) ≤ |(n : ℚ)| / 10 ^ 8 / 100 := by
    rw [div_eq_mul_inv _ (100 : ℚ)]
    exact mul_le_mul_of_nonneg_left (by norm_num) (by positivity)
  have hclose := hnear.trans htiny
  obtain ⟨hless, hmore⟩ := abs_le.mp hclose
  have hmagnitude : abs (|v| - |(n : ℚ)| / 10 ^ 8) ≤ |v - n / 10 ^ 8| := by
    rw [← hsize]
    exact abs_abs_sub_abs_le_abs_sub v (n / 10 ^ 8)
  obtain ⟨hdown, hup⟩ := abs_le.mp (hmagnitude.trans hclose)
  refine ⟨v, hv, hmagnitude.trans hnear, ?_, ?_, ?_⟩
  · unfold signOf
    rcases lt_or_gt_of_ne hne with hneg | hpos
    · have hn : (n : ℚ) < 0 := by exact_mod_cast hneg
      rw [abs_of_neg hn] at hmore hlow
      have hform : (n : ℚ) / 10 ^ 8 = -(-(n : ℚ) / 10 ^ 8) := by ring
      rw [hform] at hmore
      rw [if_pos hn, if_pos (by linarith only [hmore, hlow])]
    · have hn : 0 < (n : ℚ) := by exact_mod_cast hpos
      rw [abs_of_pos hn] at hless hlow
      rw [if_neg hn.not_gt, if_neg (by linarith only [hless, hlow])]
  · have : (99 : ℚ) / 100 * (1 / 10 ^ 8) ≤ |v| := by linarith only [hdown, hlow]
    exact le_trans (by norm_num) this
  · have : |v| ≤ 101 / 100 * (2 ^ 53 / 10 ^ 8) := by linarith only [hup, hhigh]
    exact lt_of_le_of_lt this (by norm_num)

theorem NearStored.stod_eq {v : ℚ} (h : NearStored n v) :
    ∃ w, Double.ofRat ((signOf n).onRat (roundedValue 6 |v|)) = .num w ∧
      stod ((Double.num v).generalText 6) = some (.num w) := by
  have hpos : 0 < |v| := lt_of_lt_of_le (by positivity) h.low
  obtain ⟨hdigits, hlogLow, hlogHigh⟩ := roundedDigits_bounds 6 hpos
  have hlow : -9 ≤ Int.log 10 |v| := by
    refine (zpow_le_iff_le_log (by norm_num) hpos).mp ?_
    exact_mod_cast h.low
  have hhigh : Int.log 10 |v| < 8 := by
    refine (lt_zpow_iff_log_lt (by norm_num) hpos).mp ?_
    exact_mod_cast h.high
  have hfront := frontNumber?_generalMagnitude (q := |v|) (signOf v)
    (show 0 < 6 by norm_num) (by omega)
  rw [← generalText_num (abs_pos.mp hpos), h.sign] at hfront
  have hless := roundedDigits_lt (show 0 < 6 by norm_num) |v|
  have hvalueLow : (10 : ℚ) ^ (-9 : Int) ≤ roundedValue 6 |v| := by
    unfold roundedValue
    calc (10 : ℚ) ^ (-9 : Int) = 10 ^ 5 * 10 ^ (-14 : Int) := by norm_num
      _ ≤ _ := mul_le_mul (by exact_mod_cast hdigits)
          (zpow_le_zpow_right₀ (by norm_num) (by omega)) (by positivity) (by positivity)
  have hvalueHigh : roundedValue 6 |v| ≤ 10 ^ (9 : Int) := by
    unfold roundedValue
    calc _ ≤ (10 : ℚ) ^ 6 * 10 ^ (3 : Int) := mul_le_mul (by exact_mod_cast hless.le)
          (zpow_le_zpow_right₀ (by norm_num) (by omega)) (by positivity) (by positivity)
      _ = 10 ^ (9 : Int) := by norm_num
  have hvalue : |(signOf n).onRat (roundedValue 6 |v|)| = roundedValue 6 |v| := by
    rw [abs_onRat, abs_of_pos (lt_of_lt_of_le (by positivity) hvalueLow)]
  have htwo : (1 : ℚ) < 2 := one_lt_two
  refine stod_of_front hfront ?_ ?_
  · rw [hvalue]
    exact ((zpow_le_zpow_right₀ htwo.le (show (-1000 : Int) ≤ -40 by norm_num)).trans
      (by norm_num)).trans hvalueLow
  · rw [hvalue]
    exact (hvalueHigh.trans (by norm_num : (10 : ℚ) ^ (9 : Int) ≤ 2 ^ (60 : Int))).trans_lt
      (zpow_lt_zpow_right₀ htwo (by norm_num))

theorem NearStored.roundedValue_eq {v : ℚ} (h : NearStored n v) (hne : n ≠ 0)
    (hsix : SixDigits n) : (signOf n).onRat (roundedValue 6 |v|) = n / 10 ^ 8 := by
  obtain ⟨m, j, hlow, hhigh, hform⟩ := hsix.full hne
  have hx : |(n : ℚ)| / 10 ^ 8 = m * 10 ^ (j - 8) := by
    rw [hform, zpow_sub₀ (by norm_num), mul_div_assoc]
    norm_num
  have hnear := h.near
  rw [hx] at hnear
  have hdigits := roundedDigits_eq (show 0 < 6 by norm_num) (by norm_num) hlow hhigh hnear
  have hvalue : roundedValue 6 |v| = |(n : ℚ) / 10 ^ 8| := by
    unfold roundedValue
    rw [hdigits, abs_div, abs_of_pos (show (0 : ℚ) < 10 ^ 8 by norm_num), hx]
    dsimp only
    rw [add_sub_cancel_right]
  have hsign : signOf (n : ℚ) = signOf ((n : ℚ) / 10 ^ 8) := by
    unfold signOf
    have hiff : (n : ℚ) / 10 ^ 8 < 0 ↔ (n : ℚ) < 0 := by
      rw [div_lt_iff₀ (by norm_num), zero_mul]
    simp only [hiff]
  rw [hvalue, hsign, onRat_signOf]

/-- The number that was read has the units that were written exactly when six digits are
enough for these. -/
theorem NearStored.survives_iff {v w : ℚ} (h : NearStored n v) (hne : n ≠ 0)
    (hbound : n.natAbs ≤ 2 ^ 53)
    (hw : Double.ofRat ((signOf n).onRat (roundedValue 6 |v|)) = .num w) :
    unitsAtEight (.num w) = n ↔ SixDigits n := by
  constructor
  · intro hback
    have hpos : 0 < |v| := lt_of_lt_of_le (by positivity) h.low
    obtain ⟨-, hlogLow, hlogHigh⟩ := roundedDigits_bounds 6 hpos
    have hless := roundedDigits_lt (show 0 < 6 by norm_num) |v|
    have hhigh : Int.log 10 |v| < 8 := by
      refine (lt_zpow_iff_log_lt (by norm_num) hpos).mp ?_
      exact_mod_cast h.high
    set m := (roundedDigits 6 |v|).1 with hm
    set e := (roundedDigits 6 |v|).2 with he
    rcases lt_or_ge e (-3) with hsmall | hlarge
    · -- the first digit stands in the last six places
      have htop : |v| < (10 : ℚ) ^ (e + 1) := by
        have hlog : Int.log 10 |v| < e + 1 := lt_add_one_iff.mpr hlogLow
        exact_mod_cast (lt_zpow_iff_log_lt (by norm_num) hpos).mpr hlog
      have hthousandth : |v| < 1 / 1000 := by
        refine htop.trans_le ((zpow_le_zpow_right₀ (by norm_num) (show e + 1 ≤ -3 by omega)).trans ?_)
        norm_num
      have hnear := (abs_le.mp h.near).1
      have htiny : |(n : ℚ)| / 10 ^ 8 * (2 : ℚ) ^ (-53 : Int) ≤ |(n : ℚ)| / 10 ^ 8 / 2 := by
        rw [div_eq_mul_inv _ (2 : ℚ)]
        exact mul_le_mul_of_nonneg_left (by norm_num) (by positivity)
      have hless : |(n : ℚ)| / 10 ^ 8 < 2 / 1000 := by linarith only [hnear, htiny, hthousandth]
      rw [div_lt_iff₀ (by norm_num)] at hless
      refine ⟨n.natAbs, 0, ?_, by simp⟩
      have : ((n.natAbs : Nat) : ℚ) < 10 ^ 6 := by
        rw [← cast_natCast, ← abs_eq_natAbs, cast_abs]
        exact hless.trans_le (by norm_num)
      exact_mod_cast this
    · obtain ⟨k, hk⟩ := eq_ofNat_of_zero_le (show 0 ≤ e + 3 by omega)
      have hform : (signOf n).onRat (roundedValue 6 |v|) =
          (((signOf (n : ℚ)).onInt (m * 10 ^ k) : Int) : ℚ) / 10 ^ 8 := by
        have hvalue : roundedValue 6 |v| = ((m * 10 ^ k : Nat) : ℚ) / 10 ^ 8 := by
          unfold roundedValue
          rw [← hm, ← he, show e - ((6 - 1 : Nat) : Int) = (k : Int) - 8 by omega,
            zpow_sub₀ (by norm_num), zpow_natCast]
          push_cast
          rw [mul_div_assoc]
          norm_num
        rw [hvalue]
        unfold signOf
        split_ifs <;> simp [NumeralSign.onRat, NumeralSign.onInt, neg_div]
      have habs : ((signOf (n : ℚ)).onInt (m * 10 ^ k)).natAbs = m * 10 ^ k := by
        cases signOf (n : ℚ) <;> simp [NumeralSign.onInt, natAbs_mul, natAbs_pow]
      have hk11 : k ≤ 11 := by omega
      have hsize : m * 10 ^ k ≤ 10 ^ 17 := by
        calc m * 10 ^ k ≤ 10 ^ 6 * 10 ^ 11 :=
              Nat.mul_le_mul hless.le (Nat.pow_le_pow_right (by norm_num) hk11)
          _ = 10 ^ 17 := by norm_num
      rw [hform] at hw
      have hunits := unitsAtEight_ofRat hless habs (by rw [habs]; exact hsize) hw
      rw [← hback, hunits]
      exact ⟨m, k, hless, habs⟩
  · intro hsix
    rw [h.roundedValue_eq hne hsix, h.ofRat] at hw
    cases hw
    obtain ⟨m, k, hm, hform⟩ := hsix
    exact unitsAtEight_ofRat hm hform (hbound.trans (by norm_num)) h.ofRat

theorem readBack_iff (h : Storable d) :
    ∃ w, ReadAs d w ∧ (unitsAtEight w = d.unitsAt 8 ↔ SixDigits (d.unitsAt 8)) := by
  have hvalue := decimalToDouble_eq h
  have hbound := h.2.2
  set n := d.unitsAt 8
  rcases eq_or_ne n 0 with hzero | hne
  · have hnum : decimalToDouble d = .num 0 := by
      rw [hvalue, hzero, Int.cast_zero, zero_div]
      rfl
    have hread : stod ['0'] = some (.num 0) := by decide +kernel
    refine ⟨.num 0, ⟨⟨0, hnum⟩, ?_⟩, ?_⟩
    · unfold depthNumber
      rw [hnum]
      exact hread
    · rw [hzero]
      exact iff_of_true (by decide +kernel) ⟨0, 0, by norm_num, rfl⟩
  · obtain ⟨v, hv⟩ := exists_nearStored hne hbound
    obtain ⟨w, hw, hread⟩ := hv.stod_eq
    rw [hv.ofRat] at hvalue
    refine ⟨.num w, ⟨⟨v, hvalue⟩, ?_⟩, hv.survives_iff hne hbound hw⟩
    unfold depthNumber
    rw [hvalue]
    exact hread

theorem toRat_atEight_iff {w : Double} (h : Storable d) :
    (⟨unitsAtEight w, 8, unitsAtEight_fits w⟩ : Decimal).toRat = d.toRat ↔
      unitsAtEight w = d.unitsAt 8 := by
  have hpow : (10 : ℚ) ^ (-8 : Int) ≠ 0 := by positivity
  rw [Decimal.toRat_eq_unitsAt d h.2.1, Decimal.toRat, mul_left_inj' hpow, Int.cast_inj]

theorem sixDigits_unitsAt_iff : SixDigits (d.unitsAt 8) ↔ SixDigits d.units :=
  sixDigits_mul_pow d.units _

end Numbers

section Depth

variable {prices quantities : List Decimal}

/-- The levels that are read are the ones that were written: as many, in the same order, and
the same numbers. -/
def ReplaysDepth (prices quantities : List Decimal) : Prop :=
  ∃ depth, parseDepthJson (decimalArrayToJson prices quantities) = some depth ∧
    List.Forall₂
      (fun level written => level.price.toRat = written.1.toRat ∧ level.qty.toRat = written.2.toRat)
      (makeBookLevels depth) (prices.zip quantities)

theorem exists_read :
    ∃ read : Decimal → Double, ∀ d, Storable d →
      ReadAs d (read d) ∧ (unitsAtEight (read d) = d.unitsAt 8 ↔ SixDigits (d.unitsAt 8)) := by
  classical
  refine ⟨fun d => if h : Storable d then (readBack_iff h).choose else .nan, fun d h => ?_⟩
  dsimp only
  rw [dif_pos h]
  exact (readBack_iff h).choose_spec

theorem replaysDepth_iff_units {read : Decimal → Double}
    (hstorable : ∀ level ∈ prices.zip quantities, Storable level.1 ∧ Storable level.2)
    (hread : ∀ d, Storable d → ReadAs d (read d)) :
    ReplaysDepth prices quantities ↔
      ∀ level ∈ prices.zip quantities, unitsAtEight (read level.1) = level.1.unitsAt 8 ∧
        unitsAtEight (read level.2) = level.2.unitsAt 8 := by
  have hparse : parseDepthJson (decimalArrayToJson prices quantities) =
      some ((prices.zip quantities).map fun level => (read level.1, read level.2)) :=
    depthLevels_depthItems
      (fun level hmem => ⟨hread _ (hstorable level hmem).1, hread _ (hstorable level hmem).2⟩) true
  unfold ReplaysDepth
  rw [hparse]
  simp only [Option.some.injEq, exists_eq_left', makeBookLevels, forall₂_map_left_iff, forall₂_same]
  refine forall₂_congr fun level hmem => ?_
  obtain ⟨hprice, hqty⟩ := hstorable level hmem
  exact and_congr (toRat_atEight_iff hprice) (toRat_atEight_iff hqty)

/-- A stored depth replays exactly when six digits are enough for each of its numbers. -/
theorem depth_replays_iff (prices quantities : List Decimal)
    (hprices : ∀ d ∈ prices, Storable d) (hquantities : ∀ d ∈ quantities, Storable d) :
    ReplaysDepth prices quantities ↔
      ∀ level ∈ prices.zip quantities, SixDigits level.1.units ∧ SixDigits level.2.units := by
  obtain ⟨read, hread⟩ := exists_read
  have hstorable : ∀ level ∈ prices.zip quantities, Storable level.1 ∧ Storable level.2 :=
    fun level hmem => ⟨hprices _ (List.of_mem_zip hmem).1, hquantities _ (List.of_mem_zip hmem).2⟩
  rw [replaysDepth_iff_units hstorable fun d h => (hread d h).1]
  refine forall₂_congr fun level hmem => ?_
  obtain ⟨hprice, hqty⟩ := hstorable level hmem
  rw [(hread _ hprice).2, (hread _ hqty).2, sixDigits_unitsAt_iff, sixDigits_unitsAt_iff]

theorem two_levels_replay :
    ReplaysDepth [Decimal.of 10050 2, Decimal.of 10040 2] [Decimal.of 3 0, Decimal.of 25 1] := by
  refine (depth_replays_iff _ _ (by decide) (by decide)).mpr ?_
  have hfew : ∀ level ∈ ([Decimal.of 10050 2, Decimal.of 10040 2].zip
      [Decimal.of 3 0, Decimal.of 25 1]), level.1.units.natAbs < 10 ^ 6 ∧
        level.2.units.natAbs < 10 ^ 6 := by decide
  exact fun level hmem => ⟨⟨_, 0, (hfew level hmem).1, by simp⟩, ⟨_, 0, (hfew level hmem).2, by simp⟩⟩

theorem not_sixDigits : ¬SixDigits 6543217 := by
  rintro ⟨m, k, hm, hform⟩
  cases k with
  | zero =>
      rw [pow_zero, mul_one] at hform
      omega
  | succ k =>
      rw [pow_succ, ← mul_assoc] at hform
      omega

/-- A price of 65432.17 comes back as 65432.2. -/
theorem seventh_digit_lost :
    (∀ d ∈ [Decimal.of 6543217 2], Storable d) ∧ (∀ d ∈ [Decimal.of 1 0], Storable d) ∧
      ¬ReplaysDepth [Decimal.of 6543217 2] [Decimal.of 1 0] := by
  have hprice : Storable (Decimal.of 6543217 2) := by decide
  have hqty : Storable (Decimal.of 1 0) := by decide
  refine ⟨by simpa using hprice, by simpa using hqty, ?_⟩
  obtain ⟨read, hread⟩ := exists_read
  rw [replaysDepth_iff_units (by simpa using ⟨hprice, hqty⟩) fun d h => (hread d h).1]
  intro hunits
  have hback := (hunits (Decimal.of 6543217 2, Decimal.of 1 0) (by simp)).1
  exact not_sixDigits (sixDigits_unitsAt_iff.mp ((hread _ hprice).2.mp hback))

end Depth

end Backtest
end ContExchange
