import ContExchange.Common.DoubleRounding

/-!
# Common: the order of doubles

Rounding to a double is monotone, and so are sums and quotients.  `position` is the place of a
double among the numbers; what is not a number stands above all of them, so that it is never
below a bound.
-/

namespace ContExchange
namespace Common
namespace Double

section Monotone

variable {p q : ℚ}

theorem roundHalfEven_mono (h : p ≤ q) : roundHalfEven p ≤ roundHalfEven q := by
  have hfloor : ⌊p⌋ ≤ ⌊q⌋ := Int.floor_mono h
  have hbelow : roundHalfEven p ≤ ⌊p⌋ + 1 := by
    unfold roundHalfEven
    dsimp only
    split_ifs <;> omega
  have habove : ⌊q⌋ ≤ roundHalfEven q := by
    unfold roundHalfEven
    dsimp only
    split_ifs <;> omega
  rcases hfloor.lt_or_eq with hlt | heq
  · omega
  · unfold roundHalfEven
    dsimp only
    rw [heq]
    have hrest : p - ⌊q⌋ ≤ q - ⌊q⌋ := by linarith
    split_ifs <;> first | omega | (exfalso; linarith)

theorem binaryExponent_mono (hp : 0 < p) (h : p ≤ q) : binaryExponent p ≤ binaryExponent q := by
  have hlow := (binaryExponent_spec hp).1
  have hhigh := (binaryExponent_spec (hp.trans_le h)).2
  have hlt := (zpow_lt_zpow_iff_right₀ (by norm_num : (1 : ℚ) < 2)).mp
    (hlow.trans_lt (h.trans_lt hhigh))
  omega

/-- The place of the last digit that is kept of a positive number. -/
def lastPlace (q : ℚ) : Int :=
  max (binaryExponent q - 52) (-1074)

/-- What a positive number is rounded to, without a largest number. -/
def magnitude (q : ℚ) : ℚ :=
  (roundHalfEven (q / (2 : ℚ) ^ lastPlace q) : ℚ) * (2 : ℚ) ^ lastPlace q

theorem magnitude_mono (hp : 0 < p) (h : p ≤ q) : magnitude p ≤ magnitude q := by
  have hexp := binaryExponent_mono hp h
  have hplace : lastPlace p ≤ lastPlace q := by
    unfold lastPlace
    omega
  have hpos : ∀ k : Int, (0 : ℚ) < (2 : ℚ) ^ k := fun k => zpow_pos (by norm_num) k
  rcases hplace.lt_or_eq with hlt | heq
  · have hq : lastPlace q = binaryExponent q - 52 := by
      unfold lastPlace at *
      omega
    have hstep : lastPlace p + 53 ≤ binaryExponent q := by omega
    have hpexp : binaryExponent p + 1 ≤ lastPlace p + 53 := by
      unfold lastPlace
      omega
    have hsmall : p / (2 : ℚ) ^ lastPlace p ≤ ((2 ^ 53 : Int) : ℚ) := by
      rw [div_le_iff₀ (hpos _), Int.cast_pow, ← zpow_natCast, Int.cast_ofNat,
        ← zpow_add₀ two_ne_zero]
      refine (binaryExponent_spec hp).2.le.trans (zpow_le_zpow_right₀ (by norm_num) ?_)
      push_cast
      omega
    have hlarge : ((2 ^ 52 : Int) : ℚ) ≤ q / (2 : ℚ) ^ lastPlace q := by
      rw [le_div_iff₀ (hpos _), Int.cast_pow, ← zpow_natCast, Int.cast_ofNat,
        ← zpow_add₀ two_ne_zero]
      refine (zpow_le_zpow_right₀ (by norm_num) ?_).trans (binaryExponent_spec (hp.trans_le h)).1
      push_cast
      omega
    have hbelow : (roundHalfEven (p / (2 : ℚ) ^ lastPlace p) : ℚ) ≤ (2 : ℚ) ^ (53 : Int) := by
      have := roundHalfEven_mono hsmall
      rw [roundHalfEven_intCast] at this
      exact_mod_cast this
    have habove : (2 : ℚ) ^ (52 : Int) ≤ (roundHalfEven (q / (2 : ℚ) ^ lastPlace q) : ℚ) := by
      have := roundHalfEven_mono hlarge
      rw [roundHalfEven_intCast] at this
      exact_mod_cast this
    calc magnitude p ≤ (2 : ℚ) ^ (53 : Int) * (2 : ℚ) ^ lastPlace p :=
          mul_le_mul_of_nonneg_right hbelow (hpos _).le
      _ ≤ (2 : ℚ) ^ (52 : Int) * (2 : ℚ) ^ lastPlace q := by
          rw [← zpow_add₀ two_ne_zero, ← zpow_add₀ two_ne_zero]
          exact zpow_le_zpow_right₀ (by norm_num) (by omega)
      _ ≤ magnitude q := mul_le_mul_of_nonneg_right habove (hpos _).le
  · unfold magnitude
    rw [heq]
    refine mul_le_mul_of_nonneg_right ?_ (hpos _).le
    exact_mod_cast roundHalfEven_mono (div_le_div_of_nonneg_right h (hpos _).le)

theorem magnitude_nonneg (hp : 0 < p) : 0 ≤ magnitude p := by
  have hpos : (0 : ℚ) < (2 : ℚ) ^ lastPlace p := zpow_pos (by norm_num) _
  have hround := roundHalfEven_mono (div_pos hp hpos).le
  rw [show roundHalfEven 0 = 0 from roundHalfEven_intCast 0] at hround
  exact mul_nonneg (by exact_mod_cast hround) hpos.le

theorem ofRat_of_pos (hp : 0 < p) :
    ofRat p = if (2 : ℚ) ^ (1024 : Int) ≤ magnitude p then .inf false else .num (magnitude p) := by
  unfold ofRat
  rw [if_neg hp.ne', abs_of_pos hp]
  dsimp only
  rw [if_neg hp.not_gt, decide_eq_false hp.not_gt]
  rfl

theorem ofRat_of_neg (hp : p < 0) :
    ofRat p =
      if (2 : ℚ) ^ (1024 : Int) ≤ magnitude (-p) then .inf true else .num (-magnitude (-p)) := by
  unfold ofRat
  rw [if_neg hp.ne, abs_of_neg hp]
  dsimp only
  rw [if_pos hp, decide_eq_true hp]
  rfl

end Monotone

/-- The place of a double among the numbers: below all of them, at one or above all.  What is
not a number stands above all. -/
def position : Double → WithBot (WithTop ℚ)
  | .nan | .inf false => ((⊤ : WithTop ℚ) : WithBot (WithTop ℚ))
  | .inf true => ⊥
  | .num q => ((q : WithTop ℚ) : WithBot (WithTop ℚ))

section Position

variable {a b c d : Double} {p q : ℚ}

theorem position_num_le_iff : (num p).position ≤ (num q).position ↔ p ≤ q := by
  simp [position]

theorem position_le_top (a : Double) : a.position ≤ nan.position := by
  rcases a with _ | (_ | _) | _ <;> simp [position]

theorem position_ofRat_mono (h : p ≤ q) : (ofRat p).position ≤ (ofRat q).position := by
  have hzero : ofRat 0 = .num 0 := rfl
  rcases lt_trichotomy p 0 with hp | rfl | hp
  · have hbelow : (ofRat p).position ≤ (num 0).position := by
      rw [ofRat_of_neg hp]
      split_ifs
      · exact bot_le
      · rw [position_num_le_iff]
        linarith [magnitude_nonneg (neg_pos.mpr hp)]
    rcases lt_trichotomy q 0 with hq | rfl | hq
    · have hmono := magnitude_mono (neg_pos.mpr hq) (neg_le_neg h)
      rw [ofRat_of_neg hp, ofRat_of_neg hq]
      split_ifs with hlarge hlarge' hlarge'
      · exact le_rfl
      · exact bot_le
      · exact absurd (hlarge'.trans hmono) hlarge
      · rw [position_num_le_iff]
        linarith
    · rw [hzero]
      exact hbelow
    · refine hbelow.trans ?_
      rw [ofRat_of_pos hq]
      split_ifs
      · exact position_le_top _
      · rw [position_num_le_iff]
        exact magnitude_nonneg hq
  · rcases h.lt_or_eq with hq | rfl
    · rw [hzero, ofRat_of_pos hq]
      split_ifs
      · exact position_le_top _
      · rw [position_num_le_iff]
        exact magnitude_nonneg hq
    · exact le_rfl
  · have hq := hp.trans_le h
    have hmono := magnitude_mono hp h
    rw [ofRat_of_pos hp, ofRat_of_pos hq]
    split_ifs with hlarge hlarge' hlarge'
    · exact le_rfl
    · exact absurd (hlarge.trans hmono) hlarge'
    · exact position_le_top _
    · rw [position_num_le_iff]
      exact hmono

theorem position_add_of_top (h : a.position = nan.position ∨ b.position = nan.position) :
    (a.add b).position = nan.position := by
  rcases a with _ | (_ | _) | x <;> rcases b with _ | (_ | _) | y <;>
    simp_all [add, position]

theorem position_add_mono (hfirst : a.position ≤ b.position) (hsecond : c.position ≤ d.position) :
    (a.add c).position ≤ (b.add d).position := by
  by_cases htop : b.position = nan.position ∨ d.position = nan.position
  · rw [position_add_of_top htop]
    exact position_le_top _
  · rcases b with _ | (_ | _) | y
    · exact absurd (Or.inl rfl) htop
    · exact absurd (Or.inl rfl) htop
    · rcases a with _ | (_ | _) | x <;> rcases c with _ | (_ | _) | z <;>
        rcases d with _ | (_ | _) | w <;> simp_all [add, position]
    · rcases d with _ | (_ | _) | w
      · exact absurd (Or.inr rfl) htop
      · exact absurd (Or.inr rfl) htop
      · rcases a with _ | (_ | _) | x <;> rcases c with _ | (_ | _) | z <;> simp_all [add, position]
      · rcases a with _ | (_ | _) | x
        · simp [position] at hfirst
        · simp [position] at hfirst
        · rcases c with _ | (_ | _) | z <;> simp_all [add, position]
        · rcases c with _ | (_ | _) | z
          · simp [position] at hsecond
          · simp [position] at hsecond
          · exact bot_le
          · rw [position_num_le_iff] at hfirst hsecond
            exact position_ofRat_mono (add_le_add hfirst hsecond)

theorem position_div_mono (hq : 0 < q) (h : a.position ≤ b.position) :
    (a.div (.num q)).position ≤ (b.div (.num q)).position := by
  have hne : q ≠ 0 := hq.ne'
  have hnot : ¬q < 0 := hq.not_gt
  rcases b with _ | (_ | _) | y
  · exact position_le_top _
  · refine (position_le_top _).trans ?_
    simp [div, position, hnot]
  · rcases a with _ | (_ | _) | x <;> simp_all [div, position]
  · rcases a with _ | (_ | _) | x
    · simp [position] at h
    · simp [position] at h
    · simp [div, position, hnot]
    · rw [position_num_le_iff] at h
      unfold div
      dsimp only
      rw [if_pos hne, if_pos hne]
      exact position_ofRat_mono (div_le_div_of_nonneg_right h hq.le)

theorem lt_num_iff : a.lt (.num q) = true ↔ a.position < (num q).position := by
  rcases a with _ | (_ | _) | x <;> simp [lt, position]

theorem lt_of_position_le (h : a.position ≤ b.position) (hlt : b.lt (.num q) = true) :
    a.lt (.num q) = true := by
  rw [lt_num_iff] at hlt ⊢
  exact h.trans_lt hlt

theorem position_le_of_lt (h : a.lt b = true) : a.position ≤ b.position := by
  rcases a with _ | (_ | _) | x <;> rcases b with _ | (_ | _) | y <;> simp_all [lt, position]
  exact h.le

end Position

end Double
end Common
end ContExchange
