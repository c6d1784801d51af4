import ContExchange.Common.DoubleOrder

/-!
# Common: the error of rounding to a double

* `abs_magnitude_sub_le`: half of the last place is the most that is lost;
* `nearest`: no other double is nearer;
* `gap`: how far two doubles are apart;
* `ofRat_idem`: what was rounded is not rounded again;
* `ofRat_nonneg`, `ofRat_error`: the relative error, with the one of the smallest numbers beside
  it.
-/

namespace ContExchange
namespace Common
namespace Double

open Int

section Error

variable {p q x : ℚ}

/-- Half of the smallest double. -/
def halfTiny : ℚ := (2 : ℚ) ^ (-1075 : Int)

theorem halfTiny_pos : 0 < halfTiny := zpow_pos (by norm_num) _

theorem le_huge {q : ℚ} (h : q ≤ 2 ^ 200) : q ≤ (2 : ℚ) ^ (1000 : Int) := by
  refine h.trans ?_
  rw [← zpow_natCast]
  exact zpow_le_zpow_right₀ (by norm_num) (by norm_num)

theorem halfTiny_le : halfTiny ≤ 1 / 2 ^ 200 := by
  have hpow : (1 : ℚ) / 2 ^ 200 = (2 : ℚ) ^ (-200 : Int) := by
    rw [zpow_neg, one_div]
    norm_cast
  rw [hpow]
  exact zpow_le_zpow_right₀ (by norm_num) (by norm_num)

theorem abs_magnitude_sub_le (p : ℚ) : |magnitude p - p| ≤ (2 : ℚ) ^ lastPlace p / 2 := by
  have hpos : (0 : ℚ) < (2 : ℚ) ^ lastPlace p := zpow_pos (by norm_num) _
  have hround := abs_roundHalfEven_sub_le (p / (2 : ℚ) ^ lastPlace p)
  have hform : magnitude p - p =
      ((roundHalfEven (p / (2 : ℚ) ^ lastPlace p) : ℚ) - p / (2 : ℚ) ^ lastPlace p) *
        (2 : ℚ) ^ lastPlace p := by
    rw [magnitude, sub_mul, div_mul_cancel₀ _ hpos.ne']
  rw [hform, abs_mul, abs_of_pos hpos]
  calc _ ≤ 1 / 2 * (2 : ℚ) ^ lastPlace p := mul_le_mul_of_nonneg_right hround hpos.le
    _ = (2 : ℚ) ^ lastPlace p / 2 := by ring

theorem magnitude_error (hp : 0 < p) : |magnitude p - p| ≤ p / 2 ^ 53 + halfTiny := by
  refine (abs_magnitude_sub_le p).trans ?_
  have hhalf : ∀ k : Int, (2 : ℚ) ^ k / 2 = (2 : ℚ) ^ (k - 1) := by
    intro k
    rw [zpow_sub_one₀ two_ne_zero, div_eq_mul_inv]
  have hrel : (0 : ℚ) ≤ p / 2 ^ 53 := by positivity
  rw [hhalf]
  rcases le_total (binaryExponent p - 52) (-1074) with hsmall | hlarge
  · rw [lastPlace, max_eq_right hsmall]
    exact le_add_of_nonneg_left hrel
  · rw [lastPlace, max_eq_left hlarge]
    have hsplit : (2 : ℚ) ^ (binaryExponent p - 52 - 1) = (2 : ℚ) ^ binaryExponent p / 2 ^ 53 := by
      rw [← zpow_natCast, ← zpow_sub₀ two_ne_zero]
      congr 1
      push_cast
      ring
    rw [hsplit]
    exact (div_le_div_of_nonneg_right (binaryExponent_spec hp).1 (by positivity)).trans
      (le_add_of_nonneg_right halfTiny_pos.le)

theorem abs_roundHalfEven_sub_le_of_int (q : ℚ) (n : Int) :
    |(roundHalfEven q : ℚ) - q| ≤ |(n : ℚ) - q| := by
  by_contra hlt
  have hhalf := abs_roundHalfEven_sub_le q
  have hnear : |q - n| < 1 / 2 := by
    rw [abs_sub_comm]
    exact (not_le.mp hlt).trans_le hhalf
  rw [roundHalfEven_eq hnear] at hlt
  exact hlt le_rfl

theorem roundHalfEven_le_of_lastPlace (hp : 0 < p) :
    (roundHalfEven (p / (2 : ℚ) ^ lastPlace p) : ℚ) ≤ (2 : ℚ) ^ (53 : Int) := by
  have hpos : (0 : ℚ) < (2 : ℚ) ^ lastPlace p := zpow_pos (by norm_num) _
  have hbound : p / (2 : ℚ) ^ lastPlace p ≤ ((2 ^ 53 : Int) : ℚ) := by
    rw [div_le_iff₀ hpos, cast_pow, ← zpow_natCast, cast_ofNat, ← zpow_add₀ two_ne_zero]
    refine (binaryExponent_spec hp).2.le.trans (zpow_le_zpow_right₀ (by norm_num) ?_)
    unfold lastPlace
    push_cast
    omega
  have hround := roundHalfEven_mono hbound
  rw [roundHalfEven_intCast] at hround
  exact_mod_cast hround

theorem exists_multiple (h : lastPlace x ≤ lastPlace p) :
    ∃ n : Int, magnitude p = n * (2 : ℚ) ^ lastPlace x := by
  obtain ⟨j, hj⟩ := eq_ofNat_of_zero_le (sub_nonneg.mpr h)
  have hplace : (2 : ℚ) ^ lastPlace p = ((2 ^ j : Int) : ℚ) * (2 : ℚ) ^ lastPlace x := by
    rw [cast_pow, cast_ofNat, ← zpow_natCast, ← hj, ← zpow_add₀ two_ne_zero, sub_add_cancel]
  refine ⟨roundHalfEven (p / (2 : ℚ) ^ lastPlace p) * 2 ^ j, ?_⟩
  rw [magnitude, cast_mul, mul_assoc, ← hplace]

theorem power_eq (h : lastPlace p < lastPlace x) :
    (2 : ℚ) ^ binaryExponent x = ((2 ^ 52 : Int) : ℚ) * (2 : ℚ) ^ lastPlace x := by
  have hexponent : lastPlace x = binaryExponent x - 52 := by
    unfold lastPlace at *
    omega
  rw [hexponent, cast_pow, ← zpow_natCast, cast_ofNat, ← zpow_add₀ two_ne_zero]
  congr 1
  push_cast
  ring

theorem magnitude_le (hp : 0 < p) : magnitude p ≤ (2 : ℚ) ^ (lastPlace p + 53) := by
  refine (mul_le_mul_of_nonneg_right (roundHalfEven_le_of_lastPlace hp)
    (zpow_pos two_pos _).le).trans_eq ?_
  rw [← zpow_add₀ two_ne_zero, add_comm]

theorem magnitude_le_power (hp : 0 < p) (h : lastPlace p < lastPlace x) :
    magnitude p ≤ (2 : ℚ) ^ binaryExponent x := by
  refine (magnitude_le hp).trans (zpow_le_zpow_right₀ (by norm_num) ?_)
  unfold lastPlace at *
  omega

theorem magnitude_nearest (hx : 0 < x) (hp : 0 < p) : |magnitude x - x| ≤ |magnitude p - x| := by
  have hpos : ∀ k : Int, (0 : ℚ) < (2 : ℚ) ^ k := fun k => zpow_pos (by norm_num) k
  -- a multiple of the last place is not nearer
  have hmultiple : ∀ n : Int,
      |magnitude x - x| ≤ |(n : ℚ) * (2 : ℚ) ^ lastPlace x - x| := by
    intro n
    have hround := abs_roundHalfEven_sub_le_of_int (x / (2 : ℚ) ^ lastPlace x) n
    have hform : ∀ m : Int, (m : ℚ) * (2 : ℚ) ^ lastPlace x - x =
        ((m : ℚ) - x / (2 : ℚ) ^ lastPlace x) * (2 : ℚ) ^ lastPlace x := by
      intro m
      rw [sub_mul, div_mul_cancel₀ _ (hpos _).ne']
    rw [magnitude, hform, hform, abs_mul, abs_mul]
    exact mul_le_mul_of_nonneg_right hround (abs_nonneg _)
  rcases le_or_gt (lastPlace x) (lastPlace p) with hcoarse | hfine
  · obtain ⟨n, hn⟩ := exists_multiple hcoarse
    rw [hn]
    exact hmultiple n
  · have hbelow := magnitude_le_power hp hfine
    have hreach := (binaryExponent_spec hx).1
    refine (hmultiple (2 ^ 52)).trans ?_
    rw [← power_eq hfine, abs_sub_comm, abs_sub_comm (magnitude p), abs_of_nonneg (by linarith),
      abs_of_nonneg (by linarith)]
    linarith

theorem le_abs_sub_of_ne {m n : Int} {s : ℚ} (hs : 0 < s) (hne : (m : ℚ) * s ≠ n * s) :
    s ≤ |m * s - n * s| := by
  have hmn : m - n ≠ 0 := fun h => hne (by rw [sub_eq_zero.mp h])
  have hone : (1 : ℚ) ≤ |(m : ℚ) - n| := by exact_mod_cast one_le_abs hmn
  rw [← sub_mul, abs_mul, abs_of_pos hs]
  exact le_mul_of_one_le_left hs.le hone

theorem gap (hx : 0 < x) (hp : 0 < p) (hdouble : magnitude p = p) (hne : magnitude x ≠ p) :
    p / 2 ^ 53 ≤ |magnitude x - p| := by
  have hpos : ∀ k : Int, (0 : ℚ) < (2 : ℚ) ^ k := fun k => zpow_pos two_pos k
  obtain ⟨n, hn⟩ := exists_multiple (le_refl (lastPlace p))
  rw [hdouble] at hn
  have hplace : p / 2 ^ 53 ≤ (2 : ℚ) ^ lastPlace p := by
    have hle := magnitude_le hp
    rw [hdouble, zpow_add₀ two_ne_zero] at hle
    rw [div_le_iff₀ (by norm_num)]
    exact_mod_cast hle
  -- another multiple of the last place is apart by one of them
  have hmultiple : ∀ m : Int, (m : ℚ) * (2 : ℚ) ^ lastPlace p ≠ p →
      p / 2 ^ 53 ≤ |m * (2 : ℚ) ^ lastPlace p - p| := by
    intro m hm
    have hapart := le_abs_sub_of_ne (n := n) (hpos (lastPlace p)) fun h => hm (h.trans hn.symm)
    rw [← hn] at hapart
    exact hplace.trans hapart
  rcases le_or_gt (lastPlace p) (lastPlace x) with hcoarse | hfine
  · obtain ⟨m, hm⟩ := exists_multiple hcoarse
    rw [hm] at hne ⊢
    exact hmultiple m hne
  have hbelow := magnitude_le_power hx hfine
  have hreach := (binaryExponent_spec hp).1
  rcases hbelow.eq_or_lt with heq | hless
  · rw [heq, power_eq hfine] at hne ⊢
    exact hmultiple _ hne
  -- below the power of two the place is at least one finer
  have hstep : magnitude x ≤ (2 : ℚ) ^ binaryExponent p - 2 ^ (binaryExponent p - 53) := by
    have hexponent : lastPlace p = binaryExponent p - 52 := by
      unfold lastPlace at *
      omega
    rcases (show lastPlace x ≤ binaryExponent p - 53 by omega).eq_or_lt with hnext | hfar
    · obtain ⟨m, hm⟩ := exists_multiple (le_refl (lastPlace x))
      have hpower : (2 : ℚ) ^ binaryExponent p = ((2 ^ 53 : Int) : ℚ) * (2 : ℚ) ^ lastPlace x := by
        rw [hnext, cast_pow, ← zpow_natCast, cast_ofNat, ← zpow_add₀ two_ne_zero]
        congr 1
        push_cast
        ring
      rw [hm, hpower] at hless
      have hapart := le_abs_sub_of_ne (hpos (lastPlace x)) hless.ne
      rw [abs_of_neg (sub_neg.mpr hless)] at hapart
      rw [hm, hpower, ← hnext]
      linarith
    · have hle := (magnitude_le hx).trans
        (zpow_le_zpow_right₀ one_le_two (show lastPlace x + 53 ≤ binaryExponent p - 1 by omega))
      have hhalf : (2 : ℚ) ^ binaryExponent p = 2 ^ (binaryExponent p - 1) * 2 := by
        rw [← zpow_add_one₀ two_ne_zero, sub_add_cancel]
      have hsmall : (2 : ℚ) ^ (binaryExponent p - 53) ≤ 2 ^ (binaryExponent p - 1) :=
        zpow_le_zpow_right₀ one_le_two (by omega)
      linarith
  have hsplit : (2 : ℚ) ^ (binaryExponent p - 53) = 2 ^ binaryExponent p / 2 ^ 53 := by
    rw [zpow_sub₀ two_ne_zero]
    rfl
  rw [abs_sub_comm, abs_of_nonneg (by linarith [hpos (binaryExponent p - 53)])]
  rw [hsplit] at hstep
  linarith

theorem ofRat_nonneg (hq : 0 ≤ q) (hhigh : q ≤ (2 : ℚ) ^ (1000 : Int)) :
    ∃ v, ofRat q = .num v ∧ 0 ≤ v ∧
      |v - q| ≤ q / 2 ^ 53 + halfTiny := by
  rcases hq.eq_or_lt with rfl | hpos
  · refine ⟨0, rfl, le_rfl, ?_⟩
    rw [sub_zero, abs_zero, zero_div, zero_add]
    exact halfTiny_pos.le
  · have herror := magnitude_error hpos
    refine ⟨magnitude q, ?_, magnitude_nonneg hpos, herror⟩
    have hfits : magnitude q < (2 : ℚ) ^ (1024 : Int) := by
      have hupper := (abs_le.mp herror).2
      have htiny : halfTiny ≤ (2 : ℚ) ^ (1000 : Int) :=
        zpow_le_zpow_right₀ (by norm_num) (by norm_num)
      have htop : (2 : ℚ) ^ (1024 : Int) = 2 ^ (1000 : Int) * 2 ^ 24 := by
        rw [← zpow_natCast, ← zpow_add₀ two_ne_zero]
        norm_num
      rw [htop]
      clear htop
      generalize (2 : ℚ) ^ (1000 : Int) = big at *
      linarith
    rw [ofRat_of_pos hpos, if_neg (not_le.mpr hfits)]

variable {v : ℚ}

theorem ofRat_neg (h : ofRat q = .num v) : ofRat (-q) = .num (-v) := by
  rcases lt_trichotomy q 0 with hq | rfl | hq
  · rw [ofRat_of_neg hq] at h
    rw [ofRat_of_pos (neg_pos.mpr hq)]
    split_ifs at h ⊢
    cases h
    rw [neg_neg]
  · cases h
    rfl
  · rw [ofRat_of_pos hq] at h
    rw [ofRat_of_neg (neg_neg_of_pos hq), neg_neg]
    split_ifs at h ⊢
    cases h
    rfl

theorem ofRat_error (hhigh : |q| ≤ (2 : ℚ) ^ (1000 : Int)) :
    ∃ v, ofRat q = .num v ∧
      |v - q| ≤ |q| / 2 ^ 53 + halfTiny := by
  obtain ⟨v, hv, -, herror⟩ := ofRat_nonneg (abs_nonneg q) hhigh
  rcases abs_cases q with ⟨habs, -⟩ | ⟨habs, -⟩
  · rw [habs] at hv herror ⊢
    exact ⟨v, hv, herror⟩
  · rw [habs] at hv herror ⊢
    refine ⟨-v, by simpa using ofRat_neg hv, ?_⟩
    rw [← abs_neg, neg_sub, sub_neg_eq_add, add_comm, ← sub_neg_eq_add]
    exact herror

theorem magnitude_of_ofRat (hq : 0 < q) (h : ofRat q = .num v) : magnitude q = v := by
  rw [ofRat_of_pos hq] at h
  split_ifs at h
  cases h
  rfl

theorem ofRat_idem (h : ofRat q = .num v) : ofRat v = .num v := by
  -- a positive number that was rounded is its own nearest double
  have hkept : ∀ {p w : ℚ}, 0 < p → ofRat p = .num w → ofRat w = .num w := by
    intro p w hp hw
    have hvalue := magnitude_of_ofRat hp hw
    rcases (hvalue ▸ magnitude_nonneg hp : 0 ≤ w).eq_or_lt with rfl | hpos
    · rfl
    · have hnear := magnitude_nearest hpos hp
      rw [hvalue, sub_self, abs_zero] at hnear
      have hsame : magnitude w = w := sub_eq_zero.mp (abs_nonpos_iff.mp hnear)
      rw [ofRat_of_pos hp, hvalue] at hw
      rw [ofRat_of_pos hpos, hsame]
      split_ifs at hw ⊢
      rfl
  rcases lt_trichotomy q 0 with hq | rfl | hq
  · have hopposite := hkept (neg_pos.mpr hq) (ofRat_neg h)
    simpa using ofRat_neg hopposite
  · cases h
    rfl
  · exact hkept hq h

theorem nearest {v d : ℚ} (hx : 0 < x) (hv : ofRat x = .num v) (hd : 0 < d)
    (hdouble : ofRat d = .num d) : |v - x| ≤ |d - x| := by
  have hnear := magnitude_nearest hx hd
  rwa [magnitude_of_ofRat hx hv, magnitude_of_ofRat hd hdouble] at hnear

theorem product_error {a b u w v h : ℚ} (hw : 0 ≤ w) (hw1 : w ≤ 1) (hb : 0 ≤ b) (hh : 0 ≤ h)
    (hh1 : h ≤ 1) (hu : |u| ≤ 2 ^ 63) (ha : |a - u| ≤ |u| / 2 ^ 53 + h)
    (hbw : |b - w| ≤ w / 2 ^ 53 + h) (hv : |v - a * b| ≤ |a * b| / 2 ^ 53 + h) :
    |v - u * w| ≤ |u * w| / 2 ^ 51 + 2 ^ 65 * h := by
  have huw : |u * w| = |u| * w := by rw [abs_mul, abs_of_nonneg hw]
  have hbTop : b ≤ w * (1 + 1 / 2 ^ 53) + h := by
    have := (abs_le.mp hbw).2
    linarith
  have hfirst : |(a - u) * b| ≤ (|u| / 2 ^ 53 + h) * (w * (1 + 1 / 2 ^ 53) + h) := by
    rw [abs_mul, abs_of_nonneg hb]
    exact mul_le_mul ha hbTop hb ((abs_nonneg _).trans ha)
  have hsecond : |u * (b - w)| ≤ |u| * (w / 2 ^ 53 + h) := by
    rw [abs_mul]
    exact mul_le_mul_of_nonneg_left hbw (abs_nonneg u)
  have hsplit : a * b - u * w = (a - u) * b + u * (b - w) := by ring
  have hdiff : |a * b - u * w| ≤
      (|u| / 2 ^ 53 + h) * (w * (1 + 1 / 2 ^ 53) + h) + |u| * (w / 2 ^ 53 + h) := by
    rw [hsplit]
    exact (abs_add_le _ _).trans (add_le_add hfirst hsecond)
  have hbound : (|u| / 2 ^ 53 + h) * (w * (1 + 1 / 2 ^ 53) + h) + |u| * (w / 2 ^ 53 + h) ≤
      |u| * w * (2 / 2 ^ 53 + 1 / 2 ^ 106) + (2 ^ 63 + 2 ^ 12) * h := by
    have hsmall : |u| * h ≤ 2 ^ 63 * h := mul_le_mul_of_nonneg_right hu hh
    have hwh : w * h ≤ h := mul_le_of_le_one_left hh hw1
    have hhh : h * h ≤ h := mul_le_of_le_one_left hh hh1
    nlinarith
  have htriangle : |v - u * w| ≤ |v - a * b| + |a * b - u * w| := abs_sub_le _ _ _
  have hproduct : |a * b| ≤ |u * w| + |a * b - u * w| := by
    have := abs_sub_abs_le_abs_sub (a * b) (u * w)
    linarith
  have huwNonneg : 0 ≤ |u| * w := mul_nonneg (abs_nonneg u) hw
  rw [huw] at hproduct ⊢
  linarith

end Error

theorem lt_num {a b : ℚ} : (num a).lt (num b) = true ↔ a < b := by
  simp [lt]

theorem le_num {a b : ℚ} : (num a).le (num b) = true ↔ a ≤ b := by
  simp [le, lt]

theorem ofRat_ne_nan (q : ℚ) : ofRat q ≠ nan := by
  unfold ofRat
  dsimp only
  split_ifs <;> exact fun h => by cases h

theorem mul_eq_num {a b : Double} {x : ℚ} (h : a.mul b = .num x) :
    ∃ p q, a = .num p ∧ b = .num q ∧ ofRat (p * q) = .num x := by
  cases a with
  | nan => cases b <;> cases h
  | inf negative =>
      cases b with
      | nan => cases h
      | inf negative' => cases h
      | num q =>
          simp only [mul] at h
          split_ifs at h
  | num p =>
      cases b with
      | nan => cases h
      | inf negative =>
          simp only [mul] at h
          split_ifs at h
      | num q => exact ⟨p, q, rfl, rfl, h⟩

theorem add_eq_num {a b : Double} {x : ℚ} (h : a.add b = .num x) :
    ∃ p q, a = .num p ∧ b = .num q ∧ ofRat (p + q) = .num x := by
  cases a with
  | nan => cases b <;> cases h
  | inf negative =>
      cases b with
      | nan => cases h
      | inf negative' =>
          simp only [add] at h
          split_ifs at h
      | num q => cases h
  | num p =>
      cases b with
      | nan => cases h
      | inf negative => cases h
      | num q => exact ⟨p, q, rfl, rfl, h⟩

section Sums

variable {s : Double} {q : ℚ}

/-- A double that is a number is not rounded again. -/
def Rounded (s : Double) : Prop :=
  ∀ x, s = .num x → ofRat x = .num x

theorem rounded_zero : Rounded zero := by
  rintro x hx
  cases hx
  rfl

theorem rounded_add (a b : Double) : Rounded (a.add b) := by
  intro x hx
  obtain ⟨p, q, -, -, hsum⟩ := add_eq_num hx
  exact ofRat_idem hsum

theorem rounded_mul (a b : Double) : Rounded (a.mul b) := by
  intro x hx
  obtain ⟨p, q, -, -, hproduct⟩ := mul_eq_num hx
  exact ofRat_idem hproduct

theorem position_le_add (hs : Rounded s) (hq : 0 ≤ q) : s.position ≤ (s.add (.num q)).position := by
  rcases s with _ | (_ | _) | x
  · exact le_rfl
  · exact le_rfl
  · exact bot_le
  · have hmono : (ofRat x).position ≤ (ofRat (x + q)).position :=
      position_ofRat_mono (le_add_of_nonneg_right hq)
    rwa [hs x rfl] at hmono

end Sums

end Double
end Common
end ContExchange
