import ContExchange.Common.DoubleError
import ContExchange.Common.Json

/-!
# Common: doubles written on a stream and read back

A stream that nobody has set writes six significant digits.

* `roundedDigits`: a number rounded to some significant digits;
* `Double.generalText`: `<<` of a double at a precision;
* `stod`: `std::stod`;
* `roundedDigits_eq`: what has no further digits is not changed by a small error before;
* `stod_generalText`: seventeen digits give every double back that is not too small to be read.
-/

namespace ContExchange
namespace Common

open Double List Option
open NumeralSign hiding none

/-- A positive number at some significant digits, and the exponent of the first one. -/
def roundedDigits (precision : Nat) (q : ℚ) : Nat × Int :=
  let exponent := Int.log 10 q
  let digits := (Double.roundHalfEven (q / 10 ^ (exponent - (precision - 1 : Nat)))).toNat
  if digits < 10 ^ precision then (digits, exponent) else (10 ^ (precision - 1), exponent + 1)

def roundedValue (precision : Nat) (q : ℚ) : ℚ :=
  (roundedDigits precision q).1 * 10 ^ ((roundedDigits precision q).2 - (precision - 1 : Nat))

/-- A positive number as a stream of a precision writes it. -/
def generalMagnitude (precision : Nat) (q : ℚ) : List Char :=
  let exponent := (roundedDigits precision q).2
  let digits := paddedDigits precision (roundedDigits precision q).1
  if -4 ≤ exponent ∧ exponent < precision then
    if 0 ≤ exponent then
      digits.take (exponent.toNat + 1) ++ pointText (digits.drop (exponent.toNat + 1))
    else '0' :: pointText (List.replicate (exponent.natAbs - 1) '0' ++ digits)
  else
    digits.take 1 ++ pointText (digits.drop 1) ++ 'e' :: (if exponent < 0 then '-' else '+') ::
      setw 2 (digitsText exponent.natAbs)

/-- `out << value` at a precision. -/
def Double.generalText (precision : Nat) : Double → List Char
  | .nan => "nan".toList
  | .inf negative => (if negative then ['-'] else []) ++ "inf".toList
  | .num q =>
      if q = 0 then ['0'] else (if q < 0 then ['-'] else []) ++ generalMagnitude precision |q|

def fractionPart : List Char → List Char × List Char
  | '.' :: rest => (rest.takeWhile Char.isDigit, rest.dropWhile Char.isDigit)
  | text => ([], text)

/-- The number behind an `e`. -/
def exponentPart : List Char → Int
  | [] => 0
  | c :: rest =>
      if c = 'e' ∨ c = 'E' then
        let signed := splitSign rest
        let digits := signed.2.takeWhile Char.isDigit
        if signed.1 then -(number digits : Int) else number digits
      else 0

/-- The decimal number at the front of a text. -/
def frontNumber? (text : List Char) : Option ℚ :=
  let signed := splitSign (text.dropWhile isAsciiSpace)
  let whole := signed.2.takeWhile Char.isDigit
  let fraction := fractionPart (signed.2.dropWhile Char.isDigit)
  if whole ++ fraction.1 = [] then none
  else
    some ((if signed.1 then -1 else 1) * number (whole ++ fraction.1) / 10 ^ fraction.1.length *
      10 ^ exponentPart fraction.2)

/-- `std::stod`; nothing when it throws. -/
def stod (text : List Char) : Option Double :=
  (frontNumber? text).bind fun q =>
    match Double.ofRat q with
    | .num v => if |v| < 2 ^ (-1022 : Int) ∧ v ≠ q then none else some (.num v)
    | _ => none

section Front

variable {digits rest : List Char}

theorem takeWhile_digits (h : AllDigits digits) (hrest : ∀ c ∈ rest.head?, c.isDigit = false) :
    (digits ++ rest).takeWhile Char.isDigit = digits ∧
      (digits ++ rest).dropWhile Char.isDigit = rest := by
  induction digits with
  | nil =>
      cases rest with
      | nil => exact ⟨rfl, rfl⟩
      | cons c rest =>
          have hc : c.isDigit = false := hrest c rfl
          simp [hc]
  | cons c digits ih =>
      obtain ⟨hc, hdigits⟩ := forall_mem_cons.mp h
      obtain ⟨htake, hdrop⟩ := ih hdigits
      simp [hc, htake, hdrop]

/-- How a power of ten is written: not at all, or with a sign. -/
inductive PowerText : Int → List Char → Prop
  | none : PowerText 0 []
  | plus (digits : List Char) (h : AllDigits digits) :
      PowerText (number digits) ('e' :: '+' :: digits)
  | minus (digits : List Char) (h : AllDigits digits) :
      PowerText (-number digits) ('e' :: '-' :: digits)

variable {e : Int} {power : List Char}

theorem PowerText.head (h : PowerText e power) : ∀ c ∈ power.head?, c.isDigit = false := by
  cases h with
  | none => simp
  | plus digits hdigits => simp
  | minus digits hdigits => simp

theorem exponentPart_of_powerText (h : PowerText e power) : exponentPart power = e := by
  cases h with
  | none => rfl
  | plus digits hdigits =>
      have htake : (digits ++ []).takeWhile Char.isDigit = digits :=
        (takeWhile_digits hdigits (by simp)).1
      rw [append_nil] at htake
      simp [exponentPart, splitSign, htake]
  | minus digits hdigits =>
      have htake : (digits ++ []).takeWhile Char.isDigit = digits :=
        (takeWhile_digits hdigits (by simp)).1
      rw [append_nil] at htake
      simp [exponentPart, splitSign, htake]

variable {whole fraction tail : List Char}

theorem fractionPart_of_tail (htail : FractionTail fraction tail) (hfraction : AllDigits fraction)
    (hpower : PowerText e power) : fractionPart (tail ++ power) = (fraction, power) := by
  rcases htail with ⟨rfl, rfl⟩ | rfl
  · cases hpower with
    | none => rfl
    | plus digits hdigits => rfl
    | minus digits hdigits => rfl
  · obtain ⟨htake, hdrop⟩ := takeWhile_digits hfraction hpower.head
    simp [fractionPart, htake, hdrop]

theorem frontNumber?_numeral (sign : NumeralSign)
    (hwhole : AllDigits whole) (hne : whole ≠ []) (hfraction : AllDigits fraction)
    (htail : FractionTail fraction tail) (hpower : PowerText e power) :
    frontNumber? (sign.text ++ (whole ++ (tail ++ power))) =
      some ((sign.onInt (number (whole ++ fraction)) : ℚ) / 10 ^ fraction.length * 10 ^ e) := by
  obtain ⟨c, rest, rfl⟩ := exists_cons_of_ne_nil hne
  have hc : c.isDigit = true := hwhole c mem_cons_self
  obtain ⟨hminus, hplus⟩ := ne_sign_of_isDigit hc
  have hspace : (sign.text ++ (c :: rest ++ (tail ++ power))).dropWhile isAsciiSpace =
      sign.text ++ c :: (rest ++ (tail ++ power)) := by
    cases sign with
    | minus => rfl
    | plus => rfl
    | none =>
        have := isAsciiSpace_eq_false (c := c) (.inr (.inr hc))
        simp [text, this]
  have hhead : ∀ x ∈ (tail ++ power).head?, x.isDigit = false := by
    rcases htail with ⟨rfl, -⟩ | rfl
    · exact hpower.head
    · simp
  obtain ⟨htake, hdrop⟩ := takeWhile_digits hwhole hhead
  rw [cons_append] at htake hdrop
  have hfrac := fractionPart_of_tail htail hfraction hpower
  unfold frontNumber?
  rw [hspace, splitSign_append sign _ hminus hplus]
  dsimp only
  rw [htake, hdrop, hfrac, if_neg (by simp), exponentPart_of_powerText hpower]
  cases sign <;> simp [onInt]

end Front

/-- A sign applied to a number. -/
def NumeralSign.onRat : NumeralSign → ℚ → ℚ
  | .minus, q => -q
  | .none, q | .plus, q => q

section Numerals

variable {precision : Nat} {q : ℚ}

theorem roundedDigits_lt (hprecision : 0 < precision) (q : ℚ) :
    (roundedDigits precision q).1 < 10 ^ precision := by
  unfold roundedDigits
  dsimp only
  split_ifs with h
  · exact h
  · exact Nat.pow_lt_pow_right (by norm_num) (by omega)

theorem pointText_spec (places : List Char) :
    ∃ fraction, FractionTail fraction (pointText places) ∧
      (AllDigits places → AllDigits fraction) ∧
      ∀ whole, (number (whole ++ fraction) : ℚ) / 10 ^ fraction.length =
        number (whole ++ places) / 10 ^ places.length := by
  refine ⟨places.rdropWhile (· = '0'), ?_, ?_, fun whole => ?_⟩
  · unfold pointText
    dsimp only
    split_ifs with h
    · exact .inl ⟨rfl, h⟩
    · exact .inr rfl
  · exact fun h c hc => h c ((List.rdropWhile_prefix (p := (· = '0')) (l := places)).subset hc)
  · set kept := places.rdropWhile (· = '0')
    set zeros := places.rtakeWhile (· = '0')
    have hsplit : places = kept ++ zeros := rdropWhile_append_rtakeWhile.symm
    have hzeros : AllZeros zeros := fun c hc => by simpa using mem_rtakeWhile_imp hc
    have hpow : (10 : ℚ) ^ zeros.length ≠ 0 := by positivity
    rw [hsplit, ← append_assoc, number_append (whole ++ kept), hzeros.number_eq,
      length_append, pow_add]
    push_cast
    rw [add_zero, mul_div_mul_right _ _ hpow]

theorem frontNumber?_point (sign : NumeralSign) {whole places power : List Char} {e : Int}
    (hwhole : AllDigits whole) (hne : whole ≠ []) (hplaces : AllDigits places)
    (hpower : PowerText e power) :
    frontNumber? (sign.text ++ (whole ++ (pointText places ++ power))) =
      some ((sign.onInt (number (whole ++ places)) : ℚ) / 10 ^ places.length * 10 ^ e) := by
  obtain ⟨fraction, htail, hdigits, hvalue⟩ := pointText_spec places
  rw [frontNumber?_numeral sign hwhole hne (hdigits hplaces) htail hpower]
  have hback := hvalue whole
  cases sign with
  | minus => simp only [onInt, Int.cast_neg, Int.cast_natCast, neg_div, hback]
  | none => simp only [onInt, Int.cast_natCast, hback]
  | plus => simp only [onInt, Int.cast_natCast, hback]

theorem number_setw (n : Nat) (width : Nat) (h : n < 10 ^ 19) :
    AllDigits (setw width (digitsText n)) ∧ number (setw width (digitsText n)) = n := by
  have hzeros : AllZeros (List.replicate (width - (digitsText n).length) '0') :=
    fun c hc => (mem_replicate.mp hc).2
  unfold setw
  refine ⟨allDigits_append.mpr ⟨hzeros.allDigits, allDigits_digitsText n⟩, ?_⟩
  rw [number_append, hzeros.number_eq, number_digitsText h, zero_mul, zero_add]

theorem powerText_setw {e : Int} (h : e.natAbs < 10 ^ 19) :
    PowerText e ('e' :: (if e < 0 then '-' else '+') :: setw 2 (digitsText e.natAbs)) := by
  obtain ⟨hdigits, hnumber⟩ := number_setw e.natAbs 2 h
  split_ifs with hneg
  · have hminus := PowerText.minus _ hdigits
    rwa [hnumber, show -(e.natAbs : Int) = e by omega] at hminus
  · have hplus := PowerText.plus _ hdigits
    rwa [hnumber, show (e.natAbs : Int) = e by omega] at hplus

theorem frontNumber?_generalMagnitude (sign : NumeralSign) (hprecision : 0 < precision)
    (hexponent : (roundedDigits precision q).2.natAbs < 10 ^ 19) :
    frontNumber? (sign.text ++ generalMagnitude precision q) =
      some (sign.onRat (roundedValue precision q)) := by
  set n := (roundedDigits precision q).1 with hn
  set e := (roundedDigits precision q).2 with he
  set digits := paddedDigits precision n with hdigitsEq
  have hlength : digits.length = precision := length_paddedDigits _ _
  have hdigits : AllDigits digits := allDigits_paddedDigits _ _
  have hnumber : number digits = n := by
    rw [hdigitsEq, number_paddedDigits, Nat.mod_eq_of_lt (roundedDigits_lt hprecision q)]
  have hvalue : ∀ {power places : Int}, places = precision - 1 - e + power →
      ((sign.onInt n : Int) : ℚ) * 10 ^ (-places) * 10 ^ power =
        sign.onRat (roundedValue precision q) := by
    rintro power places rfl
    have hadd : (10 : ℚ) ^ (-((precision : Int) - 1 - e + power)) * 10 ^ power =
        10 ^ (e - (precision - 1 : Nat)) := by
      rw [← zpow_add₀ (by norm_num)]
      congr 1
      omega
    unfold roundedValue
    rw [mul_assoc, hadd, ← hn, ← he]
    cases sign <;> simp [onInt, onRat]
  have hshape : ∀ {whole places : List Char} {power : Int} {text : List Char},
      AllDigits whole → whole ≠ [] → AllDigits places → number (whole ++ places) = n →
      (places.length : Int) = precision - 1 - e + power → PowerText power text →
      frontNumber? (sign.text ++ (whole ++ (pointText places ++ text))) =
        some (sign.onRat (roundedValue precision q)) := by
    intro whole places power text hwhole hne hplaces hall hplacesLength htext
    rw [frontNumber?_point sign hwhole hne hplaces htext, hall, ← hvalue hplacesLength, zpow_neg,
      zpow_natCast, div_eq_mul_inv]
  have hsplit : ∀ k, number (digits.take k ++ digits.drop k) = n := fun k => by
    rw [take_append_drop, hnumber]
  have htake : ∀ {k}, 0 < k → digits.take k ≠ [] := fun {k} hk hnil => by
    rw [take_eq_nil_iff] at hnil
    rcases hnil with hnil | hnil
    · omega
    · rw [hnil] at hlength
      simp at hlength
      omega
  have hpart : ∀ {part : List Char}, part ⊆ digits → AllDigits part :=
    fun hsub c hc => hdigits c (hsub hc)
  have hrest : ((digits.drop 1).length : Int) = precision - 1 - e + e := by
    rw [length_drop, hlength]
    omega
  have hpower := powerText_setw hexponent
  unfold generalMagnitude
  dsimp only
  rw [← hn, ← he, ← hdigitsEq]
  split_ifs with hfixed hnonneg hneg
  · rw [← append_nil (pointText _)]
    refine hshape (hpart (take_subset _ _)) (htake (by omega))
      (hpart (drop_subset _ _)) (hsplit _) ?_ .none
    rw [length_drop, hlength]
    omega
  · have hzeros : AllZeros (List.replicate (e.natAbs - 1) '0') :=
      fun c hc => (mem_replicate.mp hc).2
    have hform : sign.text ++
        '0' :: pointText (List.replicate (e.natAbs - 1) '0' ++ digits) =
        sign.text ++ (['0'] ++ (pointText (List.replicate (e.natAbs - 1) '0' ++ digits) ++ [])) := by
      simp
    rw [hform]
    refine hshape (fun c hc => by simp_all) (by simp)
      (allDigits_append.mpr ⟨hzeros.allDigits, hdigits⟩) ?_ ?_ .none
    · rw [← append_assoc, number_append, number_append, hzeros.number_eq, hnumber]
      simp [number]
    · rw [length_append, length_replicate, hlength]
      omega
  · rw [append_assoc]
    rw [if_pos hneg] at hpower
    exact hshape (hpart (take_subset _ _)) (htake one_pos)
      (hpart (drop_subset _ _)) (hsplit _) hrest hpower
  · rw [append_assoc]
    rw [if_neg hneg] at hpower
    exact hshape (hpart (take_subset _ _)) (htake one_pos)
      (hpart (drop_subset _ _)) (hsplit _) hrest hpower

end Numerals

section Near

variable {precision m : Nat} {j : Int} {v : ℚ}

theorem log_eq_of_between {e : Int} (hlow : (10 : ℚ) ^ e ≤ v) (hhigh : v < (10 : ℚ) ^ (e + 1)) :
    Int.log 10 v = e := by
  have hpos : 0 < v := lt_of_lt_of_le (by positivity) hlow
  have hle : e ≤ Int.log 10 v :=
    (Int.zpow_le_iff_le_log (by norm_num) hpos).mp (by exact_mod_cast hlow)
  have hlt : Int.log 10 v < e + 1 :=
    (Int.lt_zpow_iff_log_lt (by norm_num) hpos).mp (by exact_mod_cast hhigh)
  omega

theorem roundedDigits_bounds (precision : Nat) (hv : 0 < v) :
    10 ^ (precision - 1) ≤ (roundedDigits precision v).1 ∧
      Int.log 10 v ≤ (roundedDigits precision v).2 ∧
      (roundedDigits precision v).2 ≤ Int.log 10 v + 1 := by
  have hpow : (0 : ℚ) < 10 ^ (Int.log 10 v - (precision - 1 : Nat)) := by positivity
  have hlow : (10 : ℚ) ^ (precision - 1) ≤ v / 10 ^ (Int.log 10 v - (precision - 1 : Nat)) := by
    rw [le_div_iff₀ hpow, ← zpow_natCast, ← zpow_add₀ (by norm_num), add_sub_cancel]
    exact_mod_cast Int.zpow_log_le_self (by norm_num) hv
  have hround : 10 ^ (precision - 1) ≤
      (roundHalfEven (v / 10 ^ (Int.log 10 v - (precision - 1 : Nat)))).toNat := by
    have hnear := abs_le.mp (abs_roundHalfEven_sub_le
      (v / 10 ^ (Int.log 10 v - (precision - 1 : Nat))))
    have hless : ((10 ^ (precision - 1) - 1 : Int) : ℚ) <
        roundHalfEven (v / 10 ^ (Int.log 10 v - (precision - 1 : Nat))) := by
      push_cast
      linarith
    have hint := Int.cast_lt.mp hless
    have hnat : ((10 ^ (precision - 1) : Nat) : Int) = 10 ^ (precision - 1) := by push_cast; rfl
    omega
  unfold roundedDigits
  dsimp only
  split_ifs
  · exact ⟨hround, le_rfl, by dsimp only; omega⟩
  · exact ⟨le_rfl, by dsimp only; omega, le_rfl⟩

theorem exists_fullDigits (hm : 0 < m) (hless : m < 10 ^ precision) :
    ∃ i, 10 ^ (precision - 1) ≤ m * 10 ^ i ∧ m * 10 ^ i < 10 ^ precision := by
  have hlog : Nat.log 10 m < precision := Nat.log_lt_of_lt_pow hm.ne' hless
  have hlow := Nat.pow_log_le_self 10 hm.ne'
  have hhigh : m < 10 ^ (Nat.log 10 m + 1) := Nat.lt_pow_succ_log_self (by norm_num) m
  refine ⟨precision - 1 - Nat.log 10 m, ?_, ?_⟩
  · calc 10 ^ (precision - 1) = 10 ^ Nat.log 10 m * 10 ^ (precision - 1 - Nat.log 10 m) := by
          rw [← pow_add]
          congr 1
          omega
      _ ≤ m * 10 ^ (precision - 1 - Nat.log 10 m) := Nat.mul_le_mul_right _ hlow
  · calc m * 10 ^ (precision - 1 - Nat.log 10 m) <
          10 ^ (Nat.log 10 m + 1) * 10 ^ (precision - 1 - Nat.log 10 m) :=
          Nat.mul_lt_mul_of_pos_right hhigh (by positivity)
      _ = 10 ^ precision := by
          rw [← pow_add]
          congr 1
          omega

theorem roundedDigits_eq (hprecision : 0 < precision) (hfew : 10 ^ precision ≤ 2 ^ 50)
    (hlow : 10 ^ (precision - 1) ≤ m) (hhigh : m < 10 ^ precision)
    (hv : |v - m * 10 ^ j| ≤ m * 10 ^ j * (2 : ℚ) ^ (-53 : Int)) :
    roundedDigits precision v = (m, j + (precision - 1 : Nat)) := by
  have hpow : (0 : ℚ) < 10 ^ j := by positivity
  have hlowQ : (10 : ℚ) ^ (precision - 1) ≤ m := by exact_mod_cast hlow
  have hhighQ : (m : ℚ) ≤ 10 ^ precision - 1 := by
    have : m + 1 ≤ 10 ^ precision := hhigh
    have : ((m + 1 : Nat) : ℚ) ≤ ((10 ^ precision : Nat) : ℚ) := by exact_mod_cast this
    push_cast at this
    linarith
  have hfewQ : (10 : ℚ) ^ precision ≤ 2 ^ 50 := by exact_mod_cast hfew
  have htiny : (2 : ℚ) ^ (-53 : Int) = 1 / 2 ^ 53 := by norm_num
  have hten : (10 : ℚ) ^ precision = 10 * 10 ^ (precision - 1) := by
    rw [← pow_succ']
    congr 1
    omega
  -- the number counted in its last digit
  obtain ⟨w, rfl⟩ : ∃ w : ℚ, v = w * 10 ^ j := ⟨v / 10 ^ j, (div_mul_cancel₀ _ hpow.ne').symm⟩
  have hw : |w - m| ≤ m / 2 ^ 53 := by
    rw [← sub_mul, abs_mul, abs_of_pos hpow, htiny] at hv
    have : |w - m| * 10 ^ j ≤ m / 2 ^ 53 * 10 ^ j := by linarith
    exact le_of_mul_le_mul_right this hpow
  obtain ⟨hwLow, hwHigh⟩ := abs_le.mp hw
  have hexponent : (10 : ℚ) ^ (j + (precision - 1 : Nat)) = 10 ^ (precision - 1) * 10 ^ j := by
    rw [zpow_add₀ (by norm_num), zpow_natCast, mul_comm]
  have hnext : (10 : ℚ) ^ (j + (precision - 1 : Nat) + 1) = 10 ^ precision * 10 ^ j := by
    rw [zpow_add_one₀ (by norm_num), hexponent, hten]
    ring
  have htop : w * 10 ^ j < 10 ^ (j + (precision - 1 : Nat) + 1) := by
    rw [hnext]
    refine mul_lt_mul_of_pos_right ?_ hpow
    have : (m : ℚ) / 2 ^ 53 < 1 := by
      rw [div_lt_one (by positivity)]
      linarith
    linarith
  have hhalf : (m : ℚ) / 2 ^ 53 < 1 / 2 := by
    rw [div_lt_iff₀ (by positivity)]
    linarith
  unfold roundedDigits
  dsimp only
  by_cases hfirst : (10 : ℚ) ^ (precision - 1) ≤ w
  · have hlog : Int.log 10 (w * 10 ^ j) = j + (precision - 1 : Nat) := by
      refine log_eq_of_between ?_ htop
      rw [hexponent]
      exact mul_le_mul_of_nonneg_right hfirst hpow.le
    have hround : roundHalfEven (w * 10 ^ j / 10 ^ j) = m := by
      rw [mul_div_cancel_right₀ _ hpow.ne']
      exact roundHalfEven_eq (by push_cast; linarith)
    rw [hlog, add_sub_cancel_right, hround, Int.toNat_natCast, if_pos hhigh]
  · -- just below a power of ten: one digit more is looked at, and rounds up
    have hpower : m = 10 ^ (precision - 1) := by
      refine le_antisymm ?_ hlow
      by_contra hmore
      have hstep : ((10 ^ (precision - 1) + 1 : Nat) : ℚ) ≤ m := by
        exact_mod_cast Nat.lt_of_not_le hmore
      push_cast at hstep
      have : (10 : ℚ) ^ (precision - 1) ≤ w := by linarith
      exact hfirst this
    have hmQ : (m : ℚ) = 10 ^ (precision - 1) := by exact_mod_cast hpower
    have hprev : (10 : ℚ) ^ (j - 1) * 10 = 10 ^ j := by
      rw [← zpow_add_one₀ (by norm_num), sub_add_cancel]
    have hlog : Int.log 10 (w * 10 ^ j) = j + (precision - 1 : Nat) - 1 := by
      refine log_eq_of_between ?_ ?_
      · rw [zpow_sub_one₀ (by norm_num), hexponent]
        have hmpos : (0 : ℚ) ≤ m := by positivity
        have : (m : ℚ) / 10 ≤ w := by linarith
        calc (10 : ℚ) ^ (precision - 1) * 10 ^ j * 10⁻¹ = m / 10 * 10 ^ j := by rw [hmQ]; ring
          _ ≤ w * 10 ^ j := mul_le_mul_of_nonneg_right this hpow.le
      · rw [sub_add_cancel, hexponent]
        exact mul_lt_mul_of_pos_right (not_le.mp hfirst) hpow
    have hround : roundHalfEven (w * 10 ^ j / 10 ^ (j - 1)) = (10 ^ precision : Nat) := by
      have hform : w * 10 ^ j / 10 ^ (j - 1) = 10 * w := by
        rw [← hprev]
        field_simp
      rw [hform]
      refine roundHalfEven_eq ?_
      push_cast
      rw [hten, ← hmQ, ← mul_sub, abs_mul, abs_of_pos (by norm_num : (0 : ℚ) < 10)]
      have : 10 * |w - m| ≤ 10 * (m / 2 ^ 53) := by linarith
      have hlast : 10 * ((m : ℚ) / 2 ^ 53) < 1 / 2 := by
        rw [hten, ← hmQ] at hfewQ
        rw [← mul_div_assoc, div_lt_iff₀ (by positivity)]
        linarith
      linarith
    have hplace : j + ((precision - 1 : Nat) : Int) - 1 - (precision - 1 : Nat) = j - 1 := by ring
    rw [hlog, hplace, hround, Int.toNat_natCast, if_neg (lt_irrefl _), sub_add_cancel, hpower]

end Near

section ReadBack

variable {text : List Char} {precision : Nat} {q v : ℚ} {c : Char}

def signOf (q : ℚ) : NumeralSign :=
  if q < 0 then .minus else .none

@[simp] theorem onRat_signOf (q : ℚ) : (signOf q).onRat |q| = q := by
  unfold signOf
  split_ifs with h
  · rw [onRat, abs_of_neg h, neg_neg]
  · rw [onRat, abs_of_nonneg (not_lt.mp h)]

@[simp] theorem abs_onRat (sign : NumeralSign) (q : ℚ) : |sign.onRat q| = |q| := by
  cases sign <;> simp [onRat]

theorem generalText_num (hq : q ≠ 0) :
    (num q).generalText precision = (signOf q).text ++ generalMagnitude precision |q| := by
  unfold generalText signOf
  dsimp only
  rw [if_neg hq]
  split_ifs <;> rfl

theorem stod_of_front (hfront : frontNumber? text = some q)
    (hlow : (2 : ℚ) ^ (-1000 : Int) ≤ |q|) (hhigh : |q| < (2 : ℚ) ^ (1000 : Int)) :
    ∃ v, ofRat q = .num v ∧ stod text = some (.num v) := by
  have htwo : (1 : ℚ) < 2 := one_lt_two
  obtain ⟨v, hv, hnear⟩ := ofRat_spec
    ((zpow_le_zpow_right₀ htwo.le (by norm_num)).trans hlow)
    (hhigh.trans (zpow_lt_zpow_right₀ htwo (by norm_num)))
  have hhalf : |q| * (2 : ℚ) ^ (-53 : Int) ≤ |q| / 2 := by
    have htiny : (2 : ℚ) ^ (-53 : Int) ≤ 1 / 2 := by norm_num
    calc _ ≤ |q| * (1 / 2) := mul_le_mul_of_nonneg_left htiny (abs_nonneg q)
      _ = |q| / 2 := by ring
  have hnormal : ¬|v| < (2 : ℚ) ^ (-1022 : Int) := by
    have htri : |q| - |v| ≤ |v - q| := by
      rw [abs_sub_comm]
      exact abs_sub_abs_le_abs_sub q v
    have hless : (2 : ℚ) ^ (-1022 : Int) ≤ (2 : ℚ) ^ (-1001 : Int) :=
      zpow_le_zpow_right₀ htwo.le (by norm_num)
    have hsplit : (2 : ℚ) ^ (-1000 : Int) = 2 ^ (-1001 : Int) * 2 := by
      rw [← zpow_add_one₀ two_ne_zero]
      norm_num
    have hclose : |v - q| ≤ |q| / 2 := hnear.trans hhalf
    have hkept : |q| / 2 ≤ |v| := by linarith only [htri, hclose]
    have hstep : (2 : ℚ) ^ (-1001 : Int) ≤ |q| / 2 := by
      rw [le_div_iff₀ two_pos, ← hsplit]
      exact hlow
    exact not_lt.mpr (hless.trans (hstep.trans hkept))
  refine ⟨v, hv, ?_⟩
  unfold stod
  rw [hfront, bind_some, hv]
  dsimp only
  rw [if_neg (fun h => hnormal h.1)]

theorem mem_pointText {places : List Char} (h : c ∈ pointText places) : c = '.' ∨ c ∈ places := by
  unfold pointText at h
  dsimp only at h
  split_ifs at h with hnil
  · cases h
  · rcases mem_cons.mp h with rfl | h
    · exact .inl rfl
    · exact .inr ((List.rdropWhile_prefix (p := (· = '0')) (l := places)).subset h)

theorem mem_generalMagnitude (h : c ∈ generalMagnitude precision q) :
    c.isDigit = true ∨ c ∈ ['.', 'e', '+', '-'] := by
  have hdigits : ∀ {part : List Char}, AllDigits part → c ∈ part →
      c.isDigit = true ∨ c ∈ ['.', 'e', '+', '-'] := fun hpart hc => .inl (hpart c hc)
  have hplaces : ∀ {places : List Char}, AllDigits places → c ∈ pointText places →
      c.isDigit = true ∨ c ∈ ['.', 'e', '+', '-'] := by
    intro places hpart hc
    rcases mem_pointText hc with rfl | hc
    · exact .inr (by simp)
    · exact .inl (hpart c hc)
  have hpadded := allDigits_paddedDigits precision (roundedDigits precision q).1
  have hzeros : ∀ k, AllDigits (List.replicate k '0') :=
    fun k => AllZeros.allDigits fun x hx => (mem_replicate.mp hx).2
  unfold generalMagnitude at h
  dsimp only at h
  split_ifs at h with hfixed hnonneg hneg
  · rcases mem_append.mp h with h | h
    · exact hdigits hpadded (mem_of_mem_take h)
    · exact hplaces (fun x hx => hpadded x (mem_of_mem_drop hx)) h
  · rcases mem_cons.mp h with rfl | h
    · exact .inl (by decide)
    · exact hplaces (allDigits_append.mpr ⟨hzeros _, hpadded⟩) h
  all_goals
    rcases mem_append.mp h with h | h
    · rcases mem_append.mp h with h | h
      · exact hdigits hpadded (mem_of_mem_take h)
      · exact hplaces (fun x hx => hpadded x (mem_of_mem_drop hx)) h
    · rcases mem_cons.mp h with rfl | h
      · exact .inr (by simp)
      rcases mem_cons.mp h with rfl | h
      · exact .inr (by simp)
      exact hdigits (allDigits_append.mpr ⟨hzeros _, allDigits_digitsText _⟩) h

end ReadBack

section Seventeen

open Double

variable {precision : Nat} {q t : ℚ}

theorem roundedValue_eq (hprecision : 0 < precision) (hq : 0 < q) :
    roundedValue precision q =
      (roundHalfEven (q / 10 ^ (Int.log 10 q - (precision - 1 : Nat))) : ℚ) *
        10 ^ (Int.log 10 q - (precision - 1 : Nat)) := by
  set place := Int.log 10 q - (precision - 1 : Nat) with hplace
  have hpow : (0 : ℚ) < 10 ^ place := by positivity
  have htop : (((10 ^ precision : Nat) : Int) : ℚ) * 10 ^ place = 10 ^ (Int.log 10 q + 1) := by
    rw [Int.cast_natCast, Nat.cast_pow, ← zpow_natCast, Nat.cast_ofNat,
      ← zpow_add₀ (by norm_num), hplace]
    congr 1
    omega
  have hle : roundHalfEven (q / 10 ^ place) ≤ ((10 ^ precision : Nat) : Int) := by
    rw [← roundHalfEven_intCast ((10 ^ precision : Nat) : Int)]
    refine roundHalfEven_mono ((div_le_iff₀ hpow).mpr ?_)
    rw [htop]
    exact_mod_cast (Int.lt_zpow_succ_log_self (b := 10) (by norm_num) q).le
  have hnonneg : 0 ≤ roundHalfEven (q / 10 ^ place) := by
    have hmono := roundHalfEven_mono (div_pos hq hpow).le
    rwa [show roundHalfEven 0 = 0 from roundHalfEven_intCast 0] at hmono
  unfold roundedValue roundedDigits
  dsimp only
  rw [← hplace]
  split_ifs with hless
  · dsimp only
    rw [← hplace, ← Int.cast_natCast, Int.toNat_of_nonneg hnonneg]
  · have hfull : roundHalfEven (q / 10 ^ place) = ((10 ^ precision : Nat) : Int) := by omega
    dsimp only
    rw [hfull, htop, Nat.cast_pow, ← zpow_natCast, Nat.cast_ofNat, ← zpow_add₀ (by norm_num)]
    congr 1
    ring

theorem roundedValue_pos (precision : Nat) (hq : 0 < q) : 0 < roundedValue precision q := by
  have hdigits : 0 < (roundedDigits precision q).1 :=
    (Nat.pow_pos (by norm_num)).trans_le (roundedDigits_bounds precision hq).1
  unfold roundedValue
  positivity

theorem ofRat_roundedValue (hprecision : 17 ≤ precision) (hq : 0 < q)
    (hdouble : ofRat q = .num q) : ofRat (roundedValue precision q) = .num q := by
  have hmagnitude := magnitude_of_ofRat hq hdouble
  set place := Int.log 10 q - (precision - 1 : Nat) with hplace
  have hpow : (0 : ℚ) < 10 ^ place := by positivity
  have hreach : (10 : ℚ) ^ place * 10 ^ 16 ≤ q := by
    have hlog : (10 : ℚ) ^ Int.log 10 q ≤ q := by
      exact_mod_cast Int.zpow_log_le_self (b := 10) (by norm_num) hq
    refine le_trans ?_ hlog
    rw [← zpow_natCast, ← zpow_add₀ (by norm_num)]
    exact zpow_le_zpow_right₀ (by norm_num) (by omega)
  have hnear : |roundedValue precision q - q| ≤ 10 ^ place / 2 := by
    have hround := abs_roundHalfEven_sub_le (q / 10 ^ place)
    rw [roundedValue_eq (by omega) hq, ← hplace]
    calc _ = |(roundHalfEven (q / 10 ^ place) : ℚ) - q / 10 ^ place| * 10 ^ place := by
          rw [← abs_of_pos hpow, ← abs_mul, abs_of_pos hpow, sub_mul, div_mul_cancel₀ _ hpow.ne']
      _ ≤ 1 / 2 * 10 ^ place := mul_le_mul_of_nonneg_right hround hpow.le
      _ = 10 ^ place / 2 := by ring
  have hpos := roundedValue_pos precision hq
  have hsame : magnitude (roundedValue precision q) = q := by
    by_contra hne
    have hgap := gap hpos hq hmagnitude hne
    have hnearest := magnitude_nearest hpos hq
    rw [hmagnitude, abs_sub_comm q] at hnearest
    have hclose := abs_sub_le (magnitude (roundedValue precision q)) (roundedValue precision q) q
    have hless : q / 10 ^ 16 < q / 2 ^ 53 := div_lt_div_of_pos_left hq (by norm_num) (by norm_num)
    have hplaceLe : (10 : ℚ) ^ place ≤ q / 10 ^ 16 := (le_div_iff₀ (by norm_num)).mpr hreach
    have hhalves : 10 ^ place / 2 + 10 ^ place / 2 = (10 : ℚ) ^ place := add_halves _
    have hfar := (hgap.trans hclose).trans (add_le_add (hnearest.trans hnear) hnear)
    rw [hhalves] at hfar
    exact absurd (hfar.trans hplaceLe) (not_le.mpr hless)
  have hfits := hdouble
  rw [ofRat_of_pos hq, hmagnitude] at hfits
  rw [ofRat_of_pos hpos, hsame]
  exact hfits

theorem natAbs_roundedDigits_lt (precision : Nat) (hq : 0 < q) (hdouble : ofRat q = .num q) :
    (roundedDigits precision q).2.natAbs < 10 ^ 19 := by
  have hmagnitude := magnitude_of_ofRat hq hdouble
  have hhigh : q < (2 : ℚ) ^ (1024 : Int) := by
    by_contra hge
    rw [ofRat_of_pos hq, hmagnitude, if_pos (not_lt.mp hge)] at hdouble
    cases hdouble
  have hlow : (2 : ℚ) ^ (-1074 : Int) ≤ q := by
    obtain ⟨n, hn⟩ := exists_multiple (le_refl (lastPlace q))
    have hplace : (0 : ℚ) < 2 ^ lastPlace q := by positivity
    rw [hmagnitude] at hn
    have hone : (1 : ℚ) ≤ n := by
      have hn : (0 : ℚ) < n := (mul_pos_iff_of_pos_right hplace).mp (hq.trans_eq hn)
      exact_mod_cast Int.add_one_le_of_lt (by exact_mod_cast hn : (0 : Int) < n)
    calc (2 : ℚ) ^ (-1074 : Int) ≤ 2 ^ lastPlace q :=
          zpow_le_zpow_right₀ one_le_two (le_max_right _ _)
      _ ≤ n * 2 ^ lastPlace q := le_mul_of_one_le_left hplace.le hone
      _ = q := hn.symm
  have hlogLow : -1074 ≤ Int.log 10 q := by
    refine (Int.zpow_le_iff_le_log (by norm_num) hq).mp (le_trans ?_ hlow)
    rw [Nat.cast_ofNat, zpow_neg, zpow_neg]
    exact inv_anti₀ (by positivity) (zpow_le_zpow_left₀ (by norm_num) (by norm_num) (by norm_num))
  have hlogHigh : Int.log 10 q < 1024 := by
    refine (Int.lt_zpow_iff_log_lt (by norm_num) hq).mp (hhigh.trans_le ?_)
    rw [Nat.cast_ofNat]
    exact zpow_le_zpow_left₀ (by norm_num) (by norm_num) (by norm_num)
  obtain ⟨-, hdown, hup⟩ := roundedDigits_bounds precision hq
  omega

theorem ofRat_onRat_iff {r : ℚ} : ofRat ((signOf t).onRat r) = .num t ↔ ofRat r = .num |t| := by
  unfold signOf
  split_ifs with hneg
  · rw [abs_of_neg hneg]
    refine ⟨fun h => ?_, fun h => ?_⟩
    · simpa [onRat] using ofRat_neg h
    · simpa [onRat] using ofRat_neg h
  · rw [abs_of_nonneg (not_lt.mp hneg)]
    rfl

theorem stod_generalText_eq (hprecision : 0 < precision) (hdouble : ofRat t = .num t)
    (hne : t ≠ 0) : stod ((num t).generalText precision) =
      match ofRat ((signOf t).onRat (roundedValue precision |t|)) with
      | .num v =>
          if |v| < (2 : ℚ) ^ (-1022 : Int) ∧ v ≠ (signOf t).onRat (roundedValue precision |t|) then
            none
          else some (.num v)
      | _ => none := by
  have hpos : 0 < |t| := abs_pos.mpr hne
  have habs : ofRat |t| = .num |t| := by
    rcases abs_choice t with h | h <;> rw [h]
    · exact hdouble
    · exact ofRat_neg hdouble
  rw [generalText_num hne, stod, frontNumber?_generalMagnitude _ hprecision
    (natAbs_roundedDigits_lt precision hpos habs), bind_some]

theorem ne_onRat_iff (hne : t ≠ 0) : t ≠ (signOf t).onRat (roundedValue precision |t|) ↔
    roundedValue precision |t| ≠ |t| := by
  refine not_congr ⟨fun h => ?_, fun h => by rw [h, onRat_signOf]⟩
  have hvalue := congrArg abs h
  rwa [abs_onRat, abs_of_pos (roundedValue_pos precision (abs_pos.mpr hne)), eq_comm] at hvalue

theorem stod_generalText (hprecision : 17 ≤ precision) (hdouble : ofRat t = .num t) :
    stod ((num t).generalText precision) =
      if t ≠ 0 ∧ |t| < (2 : ℚ) ^ (-1022 : Int) ∧ roundedValue precision |t| ≠ |t| then none
      else some (.num t) := by
  rcases eq_or_ne t 0 with rfl | hne
  · have hzero : (num 0).generalText precision = ['0'] := by
      unfold generalText
      exact if_pos rfl
    rw [if_neg fun h => h.1 rfl, hzero]
    decide +kernel
  have habs : ofRat |t| = .num |t| := by
    rcases abs_choice t with h | h <;> rw [h]
    · exact hdouble
    · exact ofRat_neg hdouble
  rw [stod_generalText_eq (by omega) hdouble hne,
    ofRat_onRat_iff.mpr (ofRat_roundedValue hprecision (abs_pos.mpr hne) habs)]
  dsimp only
  simp only [hne, ne_onRat_iff hne, ne_eq, not_false_eq_true, true_and]

end Seventeen

end Common
end ContExchange
