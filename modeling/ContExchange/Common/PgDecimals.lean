import ContExchange.Common.NumericText

/-!
# Common: decimals and the database

`ToPgNumeric` writes with `Decimal::to_string`, whose arithmetic has 64 bits.

* `Decimal.toStringText`: the text as it is computed, with what overflows;
* `toStringText_eq`: the whole part and the places, and the sign of a power of ten that has
  overflowed;
* `roundTrips_iff`: which decimals are read back as they were;
* `ledgerParsePgNumeric`: the reader of the ledger, and `readers_agree_iff`.
-/

namespace ContExchange
namespace Common

open Decimal List Option Int Nat

/-- A 64-bit result, wrapping on overflow. -/
def wrap64 (z : Int) : Int :=
  Int.bmod z (2 ^ 64)

theorem wrap64_fits (z : Int) : Int64Fits (wrap64 z) := by
  have hlo := le_bmod (x := z) (m := 2 ^ 64) (by norm_num)
  have hhi := bmod_lt (x := z) (m := 2 ^ 64) (by norm_num)
  unfold Int64Fits int64Min int64Max wrap64
  norm_num at hlo hhi ⊢
  omega

theorem wrap64_of_fits {z : Int} (h : Int64Fits z) : wrap64 z = z := by
  unfold Int64Fits int64Min int64Max at h
  unfold wrap64
  exact bmod_eq_of_le (by norm_num; omega) (by norm_num; omega)

def pow10I (p : Int) : Int :=
  wrap64 (10 ^ p.toNat)

/-- `std::llabs`; the smallest number overflows back to itself. -/
def llabs (z : Int) : Int :=
  if z < 0 then wrap64 (-z) else z

/-- A 64-bit number as a stream writes it. -/
def intText (z : Int) : List Char :=
  (if z < 0 then ['-'] else []) ++ digitsText z.natAbs

/-- `std::setw` with `std::setfill('0')`. -/
def setw (width : Nat) (text : List Char) : List Char :=
  List.replicate (width - text.length) '0' ++ text

/-- `Decimal::to_string` in 64-bit arithmetic, where the power of ten is not zero. -/
def Decimal.toStringText (d : Decimal) : List Char :=
  let absUnits := llabs d.units
  let intPart := absUnits.tdiv (pow10I d.scale)
  let fracPart := absUnits.tmod (pow10I d.scale)
  (if d.units < 0 then ['-'] else []) ++ intText intPart ++
    (if 0 < d.scale then '.' :: setw d.scale.toNat (intText fracPart) else [])

def toPgNumeric (d : Decimal) : List Char :=
  d.toStringText

/-- What is written is read as the same number. -/
def RoundTrips (d : Decimal) : Prop :=
  ∃ d', parsePgNumericText (toPgNumeric d) = some d' ∧ d'.toRat = d.toRat

/-- Neither the mantissa nor the power of ten overflows, or nothing is left of the mantissa
before the point. -/
def WritesExactly (d : Decimal) : Prop :=
  d.units ≠ int64Min ∧ (d.scale ≤ 18 ∨ |d.units| < |pow10I d.scale|)
deriving Decidable

/-- The loop over the characters of `parse_pg_numeric`: the number, the places and whether a
point was seen. -/
def ledgerDigits : List Char → Int → Nat → Bool → Int × Nat
  | [], units, scale, _ => (units, scale)
  | c :: rest, units, scale, seenDot =>
      if c = '.' then ledgerDigits rest units scale true
      else if c.isDigit then
        ledgerDigits rest (i128 (units * 10 + (c.toNat - '0'.toNat : Nat)))
          (if seenDot then scale + 1 else scale) seenDot
      else (units, scale)

/-- The loop that drops digits until the number fits. -/
def dropDigits : (places : Nat) → Int → Int × Nat
  | 0, units => (units, 0)
  | n + 1, units => if Int64Fits units then (units, n + 1) else dropDigits n (units.tdiv 10)

/-- The number and the places that are kept of a text. -/
def ledgerKept (text : List Char) : Int × Nat :=
  let signed := splitSign text
  let read := ledgerDigits signed.2 0 0 false
  dropDigits read.2 (if signed.1 then i128 (-read.1) else read.1)

/-- The ledger's `parse_pg_numeric`. -/
def ledgerParsePgNumeric (text : List Char) : Decimal :=
  if text = [] then Decimal.zero
  else ⟨wrap64 (ledgerKept text).1, (ledgerKept text).2, wrap64_fits _⟩

/-- A text of a `NUMERIC(38, 18)` column: at most twenty digits, and eighteen places. -/
structure PgColumnText where
  sign : NumeralSign
  whole : List Char
  fraction : List Char
  whole_digits : AllDigits whole
  whole_ne : whole ≠ []
  whole_length : whole.length ≤ 20
  fraction_digits : AllDigits fraction
  fraction_length : fraction.length = 18

def PgColumnText.text (t : PgColumnText) : List Char :=
  t.sign.text ++ t.whole ++ '.' :: t.fraction

/-- The significant digits: without the zeros at the end of the fraction. -/
def PgColumnText.significant (t : PgColumnText) : Int :=
  t.sign.onInt (number (t.whole ++ t.fraction.rdropWhile (· = '0')))

section Digits

variable {text front back : List Char}

theorem number_cons (c : Char) (text : List Char) :
    number (c :: text) = (c.toNat - '0'.toNat) * 10 ^ text.length + number text := by
  have happend := number_append [c] text
  rw [singleton_append] at happend
  rw [happend]
  simp [number]

theorem digit_lt {c : Char} (h : c.isDigit = true) : c.toNat - '0'.toNat < 10 := by
  simp only [Char.isDigit, Bool.and_eq_true, decide_eq_true_eq] at h
  have hle : c.toNat ≤ 57 := h.2
  have hzero : '0'.toNat = 48 := rfl
  omega

theorem digit_eq {c c' : Char} (h : c.isDigit = true) (h' : c'.isDigit = true)
    (heq : c.toNat - '0'.toNat = c'.toNat - '0'.toNat) : c = c' := by
  simp only [Char.isDigit, Bool.and_eq_true, decide_eq_true_eq] at h h'
  have hle : 48 ≤ c.toNat := h.1
  have hle' : 48 ≤ c'.toNat := h'.1
  have hzero : '0'.toNat = 48 := rfl
  exact Char.toNat_inj.mp (by omega)

theorem AllDigits.number_lt (h : AllDigits text) : number text < 10 ^ text.length := by
  induction text with
  | nil => exact one_pos
  | cons c rest ih =>
      obtain ⟨hc, hrest⟩ := forall_mem_cons.mp h
      have hdigit := digit_lt hc
      have hlt := ih hrest
      rw [number_cons, length_cons, pow_succ]
      nlinarith

theorem eq_of_number_eq (hfront : AllDigits front) (hback : AllDigits back)
    (hlength : front.length = back.length) (hnumber : number front = number back) :
    front = back := by
  induction front generalizing back with
  | nil => exact (length_eq_zero_iff.mp hlength.symm).symm
  | cons c rest ih =>
      obtain ⟨c', rest', rfl⟩ := exists_cons_of_length_eq_add_one hlength.symm
      obtain ⟨hc, hrest⟩ := forall_mem_cons.mp hfront
      obtain ⟨hc', hrest'⟩ := forall_mem_cons.mp hback
      have hlen : rest.length = rest'.length := by simpa using hlength
      have hlt := AllDigits.number_lt hrest
      have hlt' := AllDigits.number_lt hrest'
      rw [number_cons, number_cons, ← hlen] at hnumber
      rw [← hlen] at hlt'
      have hpos : 0 < 10 ^ rest.length := by positivity
      have hdigit := congrArg (· / 10 ^ rest.length) hnumber
      simp only [mul_comm _ (10 ^ rest.length), mul_add_div hpos, div_eq_of_lt hlt,
        div_eq_of_lt hlt', add_zero] at hdigit
      obtain rfl := digit_eq hc hc' hdigit
      rw [ih hrest hrest' hlen (by omega)]

theorem allDigits_digitsText (n : Nat) : AllDigits (digitsText n) :=
  fun _ hc => isDigit_of_mem_digitsText hc

theorem allDigits_paddedDigits (k n : Nat) : AllDigits (paddedDigits k n) :=
  fun _ hc => isDigit_of_mem_paddedDigits hc

theorem length_paddedDigits (k n : Nat) : (paddedDigits k n).length = k := by
  induction k generalizing n with
  | zero => rfl
  | succ k ih => rw [paddedDigits, length_append, ih, length_singleton]

theorem number_paddedDigits (k n : Nat) : number (paddedDigits k n) = n % 10 ^ k := by
  have hread := foldlM_paddedDigits k n {}
  rw [foldlM_digits (allDigits_paddedDigits k n)] at hread
  have hacc := congrArg DigitLoop.acc (Option.some.inj hread)
  simpa using hacc

theorem number_digitsText {n : Nat} (h : n < 10 ^ 19) : number (digitsText n) = n := by
  have hread := foldlM_digitsText h
  rw [foldlM_digits (allDigits_digitsText n)] at hread
  have hacc := congrArg DigitLoop.acc (Option.some.inj hread)
  simpa using hacc

theorem pow_le_number_dropWhile {c : Char} {rest : List Char} (h : AllDigits text)
    (hform : text.dropWhile (· = '0') = c :: rest) : 10 ^ rest.length ≤ number (c :: rest) := by
  have hc : c ≠ '0' := by
    have hstop := head?_dropWhile_not (· = '0') text
    rw [hform] at hstop
    simpa using hstop
  have hdigit : c.isDigit = true := by
    refine h c ((dropWhile_sublist (· = '0')).subset ?_)
    rw [hform]
    exact mem_cons_self
  have hone : 1 ≤ c.toNat - '0'.toNat := by
    by_contra hzero
    exact hc (digit_eq hdigit (by decide) (lt_one_iff.mp (not_le.mp hzero)))
  rw [number_cons]
  exact (Nat.le_mul_of_pos_left _ hone).trans (Nat.le_add_right _ _)

theorem length_digitsText_le {n k : Nat} (h : n < 10 ^ 19) (hk : n < 10 ^ k) (hpos : 0 < k) :
    (digitsText n).length ≤ k := by
  have hnumber := number_digitsText h
  have hdigits := allDigits_paddedDigits 19 n
  clear h
  revert hnumber
  unfold digitsText
  generalize paddedDigits 19 n = padded at hdigits
  split
  · intro _
    exact hpos
  · rename_i hne
    intro hnumber
    obtain ⟨c, rest, hform⟩ := exists_cons_of_ne_nil hne
    have hle := pow_le_number_dropWhile hdigits hform
    rw [hform] at hnumber ⊢
    rw [hnumber] at hle
    rw [length_cons]
    exact (Nat.pow_lt_pow_iff_right (by norm_num)).mp (lt_of_le_of_lt hle hk)

theorem setw_digitsText {n k : Nat} (h : n < 10 ^ 19) (hk : n < 10 ^ k) (hpos : 0 < k) :
    setw k (digitsText n) = paddedDigits k n := by
  have hzeros : AllZeros (List.replicate (k - (digitsText n).length) '0') :=
    fun c hc => (mem_replicate.mp hc).2
  have hlength := length_digitsText_le h hk hpos
  unfold setw
  refine eq_of_number_eq (allDigits_append.mpr ⟨hzeros.allDigits, allDigits_digitsText n⟩)
    (allDigits_paddedDigits k n) ?_ ?_
  · rw [length_append, length_replicate, length_paddedDigits]
    omega
  · rw [number_append, hzeros.number_eq, zero_mul, zero_add, number_digitsText h,
      number_paddedDigits, mod_eq_of_lt hk]

end Digits

section Written

variable {d : Decimal}

theorem natAbs_lt_of_fits {z : Int} (h : Int64Fits z) : z.natAbs < 10 ^ 19 := by
  unfold Int64Fits int64Min int64Max at h
  omega

variable {s : Int}

theorem pow10I_of_le (h : s ≤ 18) : pow10I s = 10 ^ s.toNat := by
  have hle : (10 : Int) ^ s.toNat ≤ 10 ^ 18 := pow_le_pow_right₀ (by norm_num) (by omega)
  have hpos : (0 : Int) < 10 ^ s.toNat := by positivity
  exact wrap64_of_fits ⟨le_trans (by decide) hpos.le, hle.trans (by decide)⟩

theorem pow10I_ne_zero (hpos : 0 ≤ s) (hle : s ≤ 38) : pow10I s ≠ 0 := by
  lift s to ℕ using hpos
  have hbound : s ≤ 38 := by omega
  interval_cases s <;> decide

theorem mod_pow10I_lt (hne : pow10I s ≠ 0) (n : Nat) :
    n % (pow10I s).natAbs < 10 ^ 19 ∧ n % (pow10I s).natAbs < 10 ^ s.toNat := by
  have hfits := natAbs_lt_of_fits (wrap64_fits (10 ^ s.toNat))
  have hlt := mod_lt n (natAbs_pos.mpr hne)
  refine ⟨hlt.trans hfits, ?_⟩
  rcases le_or_gt s 18 with hsmall | hlarge
  · rw [pow10I_of_le hsmall, Int.natAbs_pow] at hlt ⊢
    exact hlt
  · refine hlt.trans (hfits.trans_le (Nat.pow_le_pow_right (by norm_num) ?_))
    omega

theorem llabs_eq {z : Int} (hfits : Int64Fits z) (hmin : z ≠ int64Min) : llabs z = z.natAbs := by
  unfold Int64Fits int64Min int64Max at hfits
  unfold int64Min at hmin
  unfold llabs
  split_ifs with hneg
  · rw [wrap64_of_fits (by unfold Int64Fits int64Min int64Max; omega)]
    omega
  · omega

theorem tdiv_pow10I (n : Nat) (p : Int) :
    intText ((n : Int).tdiv p) =
      (if decide (p < 0) && decide (n / p.natAbs ≠ 0) then ['-'] else []) ++
        digitsText (n / p.natAbs) ∧
    (n : Int).tmod p = (n % p.natAbs : Nat) := by
  rcases lt_or_ge p 0 with hneg | hpos
  · obtain ⟨m, rfl⟩ : ∃ m : Nat, p = -(m : Int) := ⟨p.natAbs, by omega⟩
    rw [Int.natAbs_neg, Int.natAbs_natCast, Int.tdiv_neg, Int.tmod_neg, ← Int.ofNat_tdiv,
      ← Int.ofNat_tmod]
    refine ⟨?_, rfl⟩
    generalize n / m = whole
    have hsign : -(whole : Int) < 0 ↔
        (decide (-(m : Int) < 0) && decide (whole ≠ 0)) = true := by
      rw [decide_eq_true hneg, Bool.true_and, decide_eq_true_eq]
      omega
    unfold intText
    simp only [hsign, natAbs_neg, natAbs_natCast]
  · obtain ⟨m, rfl⟩ : ∃ m : Nat, p = m := ⟨p.natAbs, by omega⟩
    rw [natAbs_natCast, ← ofNat_tdiv, ← ofNat_tmod,
      decide_eq_false (not_lt.mpr hpos), Bool.false_and]
    refine ⟨?_, rfl⟩
    unfold intText
    rw [if_neg (not_lt.mpr (natCast_nonneg _)), natAbs_natCast]
    rfl

theorem toStringText_eq (hne : pow10I d.scale ≠ 0) (hmin : d.units ≠ int64Min) :
    d.toStringText =
      (if d.units < 0 then ['-'] else []) ++
        signedText
          (decide (pow10I d.scale < 0) && decide (d.units.natAbs / (pow10I d.scale).natAbs ≠ 0))
          (d.units.natAbs / (pow10I d.scale).natAbs) d.scale.toNat
          (d.units.natAbs % (pow10I d.scale).natAbs) := by
  obtain ⟨hwhole, hfraction⟩ := tdiv_pow10I d.units.natAbs (pow10I d.scale)
  obtain ⟨hshort, hplaces⟩ := mod_pow10I_lt hne d.units.natAbs
  generalize d.units.natAbs / (pow10I d.scale).natAbs = whole at hwhole
  generalize d.units.natAbs % (pow10I d.scale).natAbs = fraction at hfraction hshort hplaces
  have htail : (if 0 < d.scale then '.' :: setw d.scale.toNat (intText fraction) else []) =
      if 0 < d.scale.toNat then '.' :: paddedDigits d.scale.toNat fraction else [] := by
    rcases le_or_gt d.scale 0 with hnone | hscale
    · rw [if_neg (by omega), if_neg (by omega)]
    · have hplace : 0 < d.scale.toNat := by omega
      rw [if_pos hscale, if_pos hplace]
      unfold intText
      rw [if_neg (not_lt.mpr (natCast_nonneg _)), nil_append, natAbs_natCast,
        setw_digitsText hshort hplaces hplace]
  unfold Decimal.toStringText signedText
  dsimp only
  rw [llabs_eq d.fits hmin, hwhole, hfraction, htail]
  simp only [append_assoc]

theorem sign_signedText (neg : Prop) [Decidable neg] (whole places fraction : Nat) :
    (if neg then ['-'] else []) ++ signedText false whole places fraction =
      signedText (decide neg) whole places fraction := by
  unfold signedText
  generalize digitsText whole = front
  by_cases h : neg
  · rw [if_pos h, decide_eq_true h]
    rfl
  · rw [if_neg h, decide_eq_false h]
    rfl

theorem toStringText_of_writesExactly (hne : pow10I d.scale ≠ 0)
    (h : WritesExactly d) :
    d.toStringText = signedText (decide (d.units < 0)) (d.units.natAbs / 10 ^ d.scale.toNat)
      d.scale.toNat (d.units.natAbs % 10 ^ d.scale.toNat) := by
  obtain ⟨hmin, hpower⟩ := h
  rw [toStringText_eq hne hmin]
  have hsame : (decide (pow10I d.scale < 0) &&
        decide (d.units.natAbs / (pow10I d.scale).natAbs ≠ 0)) = false ∧
      d.units.natAbs / (pow10I d.scale).natAbs = d.units.natAbs / 10 ^ d.scale.toNat ∧
      d.units.natAbs % (pow10I d.scale).natAbs = d.units.natAbs % 10 ^ d.scale.toNat := by
    rcases le_or_gt d.scale 18 with hsmall | hlarge
    · have hten : (0 : Int) < 10 ^ d.scale.toNat := by positivity
      rw [pow10I_of_le hsmall, natAbs_pow, decide_eq_false (not_lt.mpr hten.le)]
      exact ⟨rfl, rfl, rfl⟩
    · have hbelow : d.units.natAbs < (pow10I d.scale).natAbs := by
        have habs := hpower.resolve_left (not_le.mpr hlarge)
        rw [abs_eq_natAbs, abs_eq_natAbs] at habs
        exact_mod_cast habs
      have hten : d.units.natAbs < 10 ^ d.scale.toNat :=
        (natAbs_lt_of_fits d.fits).trans_le (Nat.pow_le_pow_right (by norm_num) (by omega))
      rw [Nat.div_eq_of_lt hbelow, Nat.mod_eq_of_lt hbelow, Nat.div_eq_of_lt hten,
        mod_eq_of_lt hten]
      simp
  rw [hsame.1, hsame.2.1, hsame.2.2, sign_signedText]

theorem read_signedText {neg : Bool} {whole places fraction : Nat} {d' : Decimal}
    (hwhole : whole < 10 ^ 19) (hfraction : fraction < 10 ^ places)
    (h : parsePgNumericText (signedText neg whole places fraction) = some d') :
    d'.toRat = (if neg then -1 else 1) * ((whole : ℚ) + fraction / 10 ^ places) := by
  obtain ⟨j, hj, ⟨k, rfl⟩, hstrip⟩ := stripFraction_signedText neg whole places fraction
  have hpos : 0 < 10 ^ j := by positivity
  rw [Nat.mul_div_cancel_left _ hpos] at hstrip
  have hrest : k < 10 ^ (places - j) := by
    refine lt_of_mul_lt_mul_left ?_ hpos.le
    rwa [← pow_add, Nat.add_sub_cancel' hj]
  have htrim : trimAsciiSpace (signedText neg whole places (10 ^ j * k)) =
      signedText neg whole places (10 ^ j * k) :=
    trim_eq_self (fun _ hc => isAsciiSpace_eq_false (mem_signedText hc))
  unfold parsePgNumericText at h
  dsimp only at h
  rw [← trimAsciiSpace, htrim, hstrip, splitSign_signedText] at h
  dsimp only at h
  rw [foldlM_signedText hwhole hrest] at h
  obtain ⟨-, h⟩ := ite_none_right_eq_some.mp h
  obtain ⟨hfits, h⟩ := dite_none_right_eq_some.mp h
  obtain rfl := Option.some.inj h
  have hsplit : (10 : ℚ) ^ places = 10 ^ (places - j) * 10 ^ j := by
    rw [← pow_add, Nat.sub_add_cancel hj]
  rw [toRat_eq_div rfl rfl, hsplit]
  have hten : (10 : ℚ) ^ (places - j) ≠ 0 := by positivity
  have hten' : (10 : ℚ) ^ j ≠ 0 := by positivity
  cases neg
  · simp only [Bool.false_eq_true, if_false]
    push_cast
    field_simp
  · simp only [if_true]
    push_cast
    field_simp

theorem count_minus_le {text : List Char} (hspace : ∀ c ∈ text, isAsciiSpace c = false)
    (h : parsePgNumericText text = some d) : text.count '-' ≤ 1 := by
  obtain ⟨sign, whole, fraction, tail, hstrip, hwhole, hfraction, htail, -, -, -⟩ :=
    parsePgNumericText_spec h
  have hzero : ∀ {digits : List Char}, AllDigits digits → digits.count '-' = 0 :=
    fun hdigits => count_eq_zero.mpr (fun hmem => absurd (hdigits _ hmem) (by decide))
  have htailCount : tail.count '-' = 0 := by
    rcases htail with ⟨rfl, -⟩ | rfl
    · rfl
    · rw [count_cons_of_ne (by decide), hzero hfraction]
  have hsign : sign.text.count '-' ≤ 1 := by cases sign <;> decide
  have htrim : trimAsciiSpace text = text := trim_eq_self hspace
  rw [htrim] at hstrip
  have hkept : text.count '-' = (stripFraction text).count '-' := by
    rcases stripFraction_cases text with
      ⟨-, hsame⟩ | ⟨front, last, zeros, -, htext, hlast, -, -, hzeros⟩ | ⟨zeros, htext, hzeros⟩
    · rw [hsame]
    · rw [hlast]
      conv_lhs => rw [htext]
      rw [count_append, hzero hzeros.allDigits, add_zero]
    · conv_lhs => rw [htext]
      rw [count_append, count_cons_of_ne (by decide), hzero hzeros.allDigits, add_zero]
  rw [hkept, hstrip, count_append, count_append, hzero hwhole, htailCount]
  omega

end Written

section RoundTrip

variable {d : Decimal}

theorem roundTrips_of_writesExactly
    (hpos : 0 ≤ d.scale) (hne : pow10I d.scale ≠ 0) (h : WritesExactly d) : RoundTrips d := by
  obtain ⟨d', hread, hvalue⟩ := parsePgNumericText_signedText d
  refine ⟨d', ?_, ?_⟩
  · unfold toPgNumeric
    rw [toStringText_of_writesExactly hne h]
    exact hread
  · rw [hvalue, max_eq_left hpos]
    rfl

theorem mem_intText {z : Int} {c : Char} (h : c ∈ intText z) :
    c = '-' ∨ c = '.' ∨ c.isDigit = true := by
  unfold intText at h
  rcases mem_append.mp h with h | h
  · split at h
    · exact .inl (mem_singleton.mp h)
    · cases h
  · exact .inr (.inr (isDigit_of_mem_digitsText h))

theorem isAsciiSpace_of_mem_intText {z : Int} {c : Char} (h : c ∈ intText z) :
    isAsciiSpace c = false :=
  isAsciiSpace_eq_false (mem_intText h)

theorem mem_toStringText {c : Char} (h : c ∈ d.toStringText) :
    c = '-' ∨ c = '.' ∨ c.isDigit = true := by
  unfold Decimal.toStringText at h
  dsimp only at h
  rcases mem_append.mp h with h | h
  · rcases mem_append.mp h with h | h
    · split at h
      · exact .inl (mem_singleton.mp h)
      · cases h
    · exact mem_intText h
  · split at h
    · rcases mem_cons.mp h with h | h
      · exact .inr (.inl h)
      · unfold setw at h
        rcases mem_append.mp h with h | h
        · rw [(mem_replicate.mp h).2]
          exact .inr (.inr rfl)
        · exact mem_intText h
    · cases h

theorem abs_toRat_lt_one (h : 18 < d.scale) : |d.toRat| < 1 := by
  have hunits : |d.units| < 10 ^ 19 := by
    have hlt := natAbs_lt_of_fits d.fits
    rw [abs_eq_natAbs]
    exact_mod_cast hlt
  have hpow : (10 : ℚ) ^ (19 : Int) ≤ 10 ^ d.scale := zpow_le_zpow_right₀ (by norm_num) (by omega)
  have hlt : |(d.units : ℚ)| < 10 ^ (19 : Int) := by exact_mod_cast hunits
  unfold Decimal.toRat
  rw [zpow_neg, ← div_eq_mul_inv, abs_div, abs_of_pos (pow10_pos d.scale),
    div_lt_one (pow10_pos d.scale)]
  exact hlt.trans_le hpow

theorem whole_eq_zero_of_roundTrips
    (hscale : 18 < d.scale) (hne : pow10I d.scale ≠ 0) (hmin : d.units ≠ int64Min)
    (h : RoundTrips d) : d.units.natAbs / (pow10I d.scale).natAbs = 0 := by
  by_contra hwhole
  obtain ⟨d', hread, hvalue⟩ := h
  unfold toPgNumeric at hread
  have hpos : 0 ≤ d.scale := by omega
  have htext := toStringText_eq hne hmin
  obtain ⟨hshort, hplaces⟩ := mod_pow10I_lt hne d.units.natAbs
  have hlt : d.units.natAbs / (pow10I d.scale).natAbs < 10 ^ 19 :=
    (div_le_self _ _).trans_lt (natAbs_lt_of_fits d.fits)
  have hone := abs_toRat_lt_one hscale
  have hsign := toRat_nonneg_iff d
  have hcount := count_minus_le (fun _ hc => isAsciiSpace_eq_false (mem_toStringText hc)) hread
  rw [decide_eq_true hwhole, Bool.and_true] at htext
  generalize d.units.natAbs / (pow10I d.scale).natAbs = whole at hwhole hlt htext
  generalize d.units.natAbs % (pow10I d.scale).natAbs = fraction at hshort hplaces htext
  have hge : (1 : ℚ) ≤ (whole : ℚ) + fraction / 10 ^ d.scale.toNat := by
    have hw : (1 : ℚ) ≤ whole := by exact_mod_cast one_le_iff_ne_zero.mpr hwhole
    have hf : (0 : ℚ) ≤ fraction / 10 ^ d.scale.toNat := by positivity
    linarith only [hw, hf]
  rcases lt_or_ge (pow10I d.scale) 0 with hneg | hnonneg
  · rw [decide_eq_true hneg] at htext
    by_cases hunits : d.units < 0
    · -- two signs are refused
      have hfirst := sign_signedText True whole d.scale.toNat fraction
      rw [if_pos trivial, decide_eq_true trivial] at hfirst
      rw [if_pos hunits, ← hfirst, singleton_append, singleton_append] at htext
      rw [htext, count_cons_self, count_cons_self] at hcount
      exact not_succ_le_zero _ (le_of_succ_le_succ hcount)
    · rw [if_neg hunits, nil_append] at htext
      rw [htext] at hread
      have hread' := read_signedText hlt hplaces hread
      rw [if_pos rfl] at hread'
      have hnonnegValue := hsign.mpr (not_lt.mp hunits)
      rw [← hvalue, hread'] at hnonnegValue
      linarith only [hnonnegValue, hge]
  · rw [decide_eq_false (not_lt.mpr hnonneg)] at htext
    rw [htext, sign_signedText] at hread
    have hread' := read_signedText hlt hplaces hread
    rw [← hvalue, hread', abs_mul, abs_of_nonneg (zero_le_one.trans hge)] at hone
    split_ifs at hone
    · rw [abs_neg, abs_one, one_mul] at hone
      exact not_lt.mpr hge hone
    · rw [abs_one, one_mul] at hone
      exact not_lt.mpr hge hone

theorem two_signs_of_min :
    ∀ scale : Fin 63,
      1 < (Decimal.toStringText ⟨int64Min, (scale : Nat), by decide⟩).count '-' := by
  decide +kernel

theorem scale_lt_of_pow10I (hne : pow10I s ≠ 0) : s < 64 := by
  by_contra hle
  have hdvd : ((2 ^ 64 : Nat) : Int) ∣ 10 ^ s.toNat := by
    rw [Nat.cast_pow]
    exact (pow_dvd_pow_of_dvd (by norm_num) 64).trans (pow_dvd_pow 10 (by omega))
  unfold pow10I wrap64 at hne
  rw [Int.bmod_eq_zero_of_dvd hdvd] at hne
  exact hne rfl

theorem not_roundTrips_min (hpos : 0 ≤ d.scale) (hne : pow10I d.scale ≠ 0)
    (hmin : d.units = int64Min) : ¬ RoundTrips d := by
  rintro ⟨d', hread, hvalue⟩
  have hlt := scale_lt_of_pow10I hne
  have hsame : d = ⟨int64Min, (d.scale.toNat : Nat), by decide⟩ :=
    eq_of_units_of_scale hmin (toNat_of_nonneg hpos).symm
  rcases (show d.scale.toNat ≤ 63 by omega).eq_or_lt with hlast | hless
  · -- the power is the smallest number too, and one is left
    have htext : parsePgNumericText (Decimal.toStringText ⟨int64Min, (63 : Nat), by decide⟩) =
        some (Decimal.of (-1) 0) := by
      decide +kernel
    have hsmall := abs_toRat_lt_one (d := d) (by omega)
    rw [hlast] at hsame
    unfold toPgNumeric at hread
    rw [hsame, htext, Option.some.injEq] at hread
    rw [← hvalue, ← hread] at hsmall
    exact absurd hsmall (by norm_num [Decimal.toRat, Decimal.of])
  · have hcount := count_minus_le (fun _ hc => isAsciiSpace_eq_false (mem_toStringText hc)) hread
    have hsigns := two_signs_of_min ⟨d.scale.toNat, hless⟩
    rw [← hsame] at hsigns
    omega

theorem roundTrips_iff (hpos : 0 ≤ d.scale) (hne : pow10I d.scale ≠ 0) :
    RoundTrips d ↔ WritesExactly d := by
  constructor
  · intro h
    have hmin : d.units ≠ int64Min := fun hmin => not_roundTrips_min hpos hne hmin h
    refine ⟨hmin, ?_⟩
    rcases le_or_gt d.scale 18 with hsmall | hlarge
    · exact .inl hsmall
    · have hwhole := whole_eq_zero_of_roundTrips hlarge hne hmin h
      have hpower := natAbs_pos.mpr hne
      rw [div_eq_zero_iff_lt hpower] at hwhole
      rw [abs_eq_natAbs, abs_eq_natAbs]
      exact .inr (by exact_mod_cast hwhole)
  · exact roundTrips_of_writesExactly hpos hne

theorem roundTrips_of_neg_scale (hneg : d.scale < 0) : RoundTrips d ↔ d.units = 0 := by
  -- nothing is divided, and the text is that of the mantissa
  obtain ⟨whole, hwhole⟩ : ∃ whole : Decimal, whole = ⟨d.units, 0, d.fits⟩ := ⟨_, rfl⟩
  have hplaces : d.scale.toNat = 0 := by omega
  have htext : toPgNumeric whole = toPgNumeric d := by
    subst hwhole
    unfold toPgNumeric Decimal.toStringText pow10I
    dsimp only
    rw [if_neg (lt_irrefl _), if_neg (not_lt.mpr hneg.le), hplaces]
    rfl
  have hpower : pow10I whole.scale ≠ 0 := by
    rw [hwhole]
    exact pow10I_ne_zero le_rfl (by norm_num)
  have hscale : 0 ≤ whole.scale := by rw [hwhole]
  have hvalue : whole.toRat = d.units := by simp [hwhole, Decimal.toRat]
  have hten : (1 : ℚ) < 10 ^ (-d.scale) := one_lt_zpow₀ (by norm_num) (by omega)
  constructor
  · rintro ⟨d', hread, hsame⟩
    by_contra hzero
    have hmin : d.units ≠ int64Min := by
      intro hmin
      have hcount := count_minus_le (fun _ hc => isAsciiSpace_eq_false (mem_toStringText hc))
        (show parsePgNumericText (toPgNumeric whole) = some d' from htext ▸ hread)
      have hsigns := two_signs_of_min 0
      have hsmallest : whole = ⟨int64Min, ((0 : Fin 63) : Nat), by decide⟩ :=
        eq_of_units_of_scale (by rw [hwhole]; exact hmin) (by rw [hwhole]; rfl)
      rw [← hsmallest] at hsigns
      omega
    obtain ⟨d'', hread', hsame'⟩ := roundTrips_of_writesExactly hscale hpower
      ⟨by rw [hwhole]; exact hmin, .inl (by rw [hwhole]; norm_num)⟩
    rw [htext, hread, Option.some.injEq] at hread'
    rw [← hread', hsame, hvalue, Decimal.toRat] at hsame'
    have hunits : (d.units : ℚ) ≠ 0 := by exact_mod_cast hzero
    exact hten.ne' (mul_left_cancel₀ hunits (hsame'.trans (mul_one _).symm))
  · intro hzero
    obtain ⟨d', hread, hsame⟩ := roundTrips_of_writesExactly hscale hpower
      ⟨by rw [hwhole]; dsimp only; rw [hzero]; decide, .inl (by rw [hwhole]; norm_num)⟩
    refine ⟨d', htext ▸ hread, ?_⟩
    rw [hsame, hvalue, Decimal.toRat, hzero]
    simp

/-- The text shows the decimal: nothing is dropped and nothing overflows. -/
def TextExact (d : Decimal) : Prop :=
  d.units = 0 ∨ 0 ≤ d.scale ∧ WritesExactly d
deriving Decidable

theorem roundTrips_iff_textExact (hne : pow10I d.scale ≠ 0) : RoundTrips d ↔ TextExact d := by
  unfold TextExact
  rcases lt_or_ge d.scale 0 with hneg | hpos
  · rw [roundTrips_of_neg_scale hneg]
    exact (or_iff_left fun h => absurd h.1 (not_le.mpr hneg)).symm
  · rw [roundTrips_iff hpos hne]
    refine ⟨fun h => .inr ⟨hpos, h⟩, ?_⟩
    rintro (hzero | ⟨-, h⟩)
    · refine ⟨by rw [hzero]; decide, .inr ?_⟩
      rw [hzero, abs_zero]
      exact abs_pos.mpr hne
    · exact h

end RoundTrip

section Readers

theorem ledgerDigits_append {digits : List Char} (hdigits : AllDigits digits) (rest : List Char)
    (n scale : Nat) (seenDot : Bool) (hbound : n * 10 ^ digits.length + number digits < 2 ^ 127) :
    ledgerDigits (digits ++ rest) n scale seenDot =
      ledgerDigits rest (n * 10 ^ digits.length + number digits : Nat)
        (if seenDot then scale + digits.length else scale) seenDot := by
  induction digits generalizing n scale with
  | nil => simp [number]
  | cons c more ih =>
      obtain ⟨hc, hmore⟩ := forall_mem_cons.mp hdigits
      have hpoint : c ≠ '.' := by
        rintro rfl
        exact absurd hc (by decide)
      have hnext : (n * 10 + (c.toNat - '0'.toNat)) * 10 ^ more.length + number more =
          n * 10 ^ (c :: more).length + number (c :: more) := by
        rw [number_cons, length_cons, pow_succ]
        ring
      refine ((if_neg hpoint).trans (if_pos hc)).trans ?_
      rw [← hnext] at hbound ⊢
      generalize c.toNat - '0'.toNat = digit at hbound ⊢
      have hstep : n * 10 + digit < 2 ^ 127 :=
        ((Nat.le_mul_of_pos_right _ (by positivity)).trans (Nat.le_add_right _ _)).trans_lt hbound
      have hkept : i128 ((n : Int) * 10 + digit) = (n * 10 + digit : Nat) := by
        push_cast
        exact i128_of_lt (by omega) (by omega)
      rw [hkept]
      have hscale : (if seenDot then (if seenDot then scale + 1 else scale) + more.length
          else if seenDot then scale + 1 else scale) =
            if seenDot then scale + (c :: more).length else scale := by
        cases seenDot with
        | false => rfl
        | true => simp only [if_true, length_cons, add_assoc, add_comm 1]
      rw [← hscale]
      exact ih hmore _ _ hbound

theorem dropDigits_of_fits {m : Int} (hm : Int64Fits m) (k n : Nat) (hk : k ≤ n) :
    ∃ j ≤ k, Int64Fits (m * 10 ^ j) ∧ dropDigits n (m * 10 ^ k) = (m * 10 ^ j, n - (k - j)) := by
  induction n generalizing k with
  | zero =>
      obtain rfl : k = 0 := by omega
      exact ⟨0, le_rfl, by simpa using hm, rfl⟩
  | succ n ih =>
      unfold dropDigits
      by_cases hfits : Int64Fits (m * 10 ^ k)
      · rw [if_pos hfits]
        exact ⟨k, le_rfl, hfits, by rw [Nat.sub_self, Nat.sub_zero]⟩
      · rw [if_neg hfits]
        cases k with
        | zero => exact absurd (by simpa using hm) hfits
        | succ k =>
            have hdiv : (m * 10 ^ (k + 1)).tdiv 10 = m * 10 ^ k := by
              rw [pow_succ, ← mul_assoc]
              exact mul_tdiv_cancel _ (by norm_num)
            obtain ⟨j, hj, hkept, hdrop⟩ := ih k (by omega)
            refine ⟨j, by omega, hkept, ?_⟩
            rw [hdiv, hdrop]
            congr 1
            omega

theorem onInt_mul (sign : NumeralSign) (n k : Nat) :
    sign.onInt (n * 10 ^ k) = sign.onInt n * 10 ^ k := by
  cases sign <;> simp [NumeralSign.onInt]

namespace PgColumnText

variable (t : PgColumnText)

theorem fraction_split :
    ∃ zeros, AllZeros zeros ∧ t.fraction = t.fraction.rdropWhile (· = '0') ++ zeros := by
  refine ⟨(t.fraction.reverse.takeWhile (· = '0')).reverse, fun c hc => ?_, ?_⟩
  · simpa using mem_takeWhile_imp (mem_reverse.mp hc)
  · rw [List.rdropWhile, ← reverse_append, takeWhile_append_dropWhile, reverse_reverse]

theorem not_space {c : Char} (h : c ∈ t.text) : isAsciiSpace c = false := by
  unfold text at h
  rcases mem_append.mp h with h | h
  · rcases mem_append.mp h with h | h
    · revert h
      cases t.sign <;> simp [NumeralSign.text] <;> rintro rfl <;> decide
    · exact isAsciiSpace_eq_false (.inr (.inr (t.whole_digits c h)))
  · rcases mem_cons.mp h with rfl | h
    · decide
    · exact isAsciiSpace_eq_false (.inr (.inr (t.fraction_digits c h)))

theorem parsePgNumericText_text :
    parsePgNumericText t.text =
      if h : Int64Fits t.significant then
        some ⟨t.significant, (t.fraction.rdropWhile (· = '0')).length, h⟩
      else none := by
  obtain ⟨zeros, hzeros, hsplit⟩ := t.fraction_split
  have hdigits := t.fraction_digits
  have htrim : trimAsciiSpace t.text = t.text := trim_eq_self (fun _ => t.not_space)
  have hne : ∀ fraction : List Char, t.whole ++ fraction ≠ [] := fun fraction hnil =>
    t.whole_ne (append_eq_nil_iff.mp hnil).1
  have hstrip : ∃ tail, FractionTail (t.fraction.rdropWhile (· = '0')) tail ∧
      stripFraction (trimAsciiSpace t.text) = t.sign.text ++ t.whole ++ tail := by
    rw [htrim]
    unfold text
    rcases eq_nil_or_concat (t.fraction.rdropWhile (· = '0')) with hnil | ⟨front, last, hform⟩
    · rw [hnil, nil_append] at hsplit
      refine ⟨[], .inl ⟨rfl, hnil⟩, ?_⟩
      rw [hsplit, append_nil]
      exact stripFraction_point _ hzeros
    · rw [concat_eq_append] at hform
      have hzero : last ≠ '0' := by
        have hstop := rdropWhile_last_not (· = '0') t.fraction (by simp [hform])
        simpa [hform] using hstop
      have hdot : last ≠ '.' := by
        rintro rfl
        refine hdigits.point_notMem ?_
        rw [hsplit, hform]
        simp
      refine ⟨_, .inr rfl, ?_⟩
      have hpoint : '.' ∈ t.sign.text ++ t.whole ++ '.' :: front :=
        mem_append_right _ mem_cons_self
      have hstripped := stripFraction_zeros hpoint hzero hdot hzeros
      rw [hform] at hsplit ⊢
      rw [hsplit]
      simpa using hstripped
  obtain ⟨tail, htail, hstripped⟩ := hstrip
  rw [hsplit] at hdigits
  exact parsePgNumericText_of_stripped hstripped t.whole_digits (allDigits_append.mp hdigits).1
    htail (hne _)

theorem ledgerParsePgNumeric_text (h : Int64Fits t.significant) :
    (ledgerParsePgNumeric t.text).toRat =
      t.significant / 10 ^ (t.fraction.rdropWhile (· = '0')).length := by
  obtain ⟨zeros, hzeros, hsplit⟩ := t.fraction_split
  have hlength : (t.fraction.rdropWhile (· = '0')).length + zeros.length = 18 := by
    rw [← length_append, ← hsplit, t.fraction_length]
  have hnumber : number (t.whole ++ t.fraction) =
      number (t.whole ++ t.fraction.rdropWhile (· = '0')) * 10 ^ zeros.length := by
    conv_lhs => rw [hsplit]
    rw [← append_assoc, number_append, hzeros.number_eq, add_zero]
  have hbound : number (t.whole ++ t.fraction) < 10 ^ 38 := by
    refine (allDigits_append.mpr ⟨t.whole_digits, t.fraction_digits⟩).number_lt.trans_le
      (Nat.pow_le_pow_right (by norm_num) ?_)
    rw [length_append, t.fraction_length]
    have := t.whole_length
    omega
  have hread : ledgerDigits (t.whole ++ '.' :: t.fraction) 0 0 false =
      (((number (t.whole ++ t.fraction) : Nat) : Int), 18) := by
    have htotal := number_append t.whole t.fraction
    have hwhole : number t.whole < 2 ^ 127 := by
      refine lt_of_le_of_lt ?_ (hbound.trans (by norm_num))
      rw [htotal]
      exact (Nat.le_mul_of_pos_right _ (by positivity)).trans (Nat.le_add_right _ _)
    have hfirst := ledgerDigits_append t.whole_digits ('.' :: t.fraction) 0 0 false
      (by simpa using hwhole)
    have hsecond := ledgerDigits_append t.fraction_digits [] (number t.whole) 0 true
      (by rw [← htotal]; exact hbound.trans (by norm_num))
    rw [append_nil, ← htotal, t.fraction_length] at hsecond
    rw [zero_mul, zero_add] at hfirst
    refine hfirst.trans ?_
    rw [ledgerDigits, if_pos rfl]
    exact hsecond
  obtain ⟨c, more, hcons⟩ := exists_cons_of_ne_nil t.whole_ne
  have hsplitSign : splitSign t.text =
      (decide (t.sign = .minus), t.whole ++ '.' :: t.fraction) := by
    obtain ⟨hminus, hplus⟩ := ne_sign_of_isDigit
      (t.whole_digits c (by rw [hcons]; exact mem_cons_self))
    unfold text
    rw [append_assoc, hcons]
    exact splitSign_append t.sign _ hminus hplus
  have hne : t.text ≠ [] := by
    unfold text
    simp
  have hunits : (if decide (t.sign = .minus) = true then
        i128 (-(number (t.whole ++ t.fraction) : Int)) else number (t.whole ++ t.fraction)) =
      t.significant * 10 ^ zeros.length := by
    unfold significant
    rw [← onInt_mul, ← hnumber, ← onInt_eq]
    split
    · exact i128_of_lt (by omega) (by omega)
    · rfl
  obtain ⟨j, hj, hfits, hdrop⟩ := dropDigits_of_fits h zeros.length 18 (by omega)
  have hkept : ledgerKept t.text = (t.significant * 10 ^ j, 18 - (zeros.length - j)) := by
    unfold ledgerKept
    rw [hsplitSign]
    dsimp only
    rw [hread]
    dsimp only
    rw [hunits, hdrop]
  have hvalue : (ledgerParsePgNumeric t.text).toRat =
      ((t.significant * 10 ^ j : Int) : ℚ) / 10 ^ (18 - (zeros.length - j)) := by
    unfold ledgerParsePgNumeric
    rw [if_neg hne]
    simp only [hkept]
    exact toRat_eq_div (wrap64_of_fits hfits) rfl
  have hscale : 18 - (zeros.length - j) = (t.fraction.rdropWhile (· = '0')).length + j := by omega
  rw [hvalue, hscale, pow_add]
  push_cast
  exact mul_div_mul_right _ _ (by positivity)

theorem readers_agree_iff :
    (∃ d, parsePgNumericText t.text = some d ∧
      (ledgerParsePgNumeric t.text).toRat = d.toRat) ↔ Int64Fits t.significant := by
  rw [t.parsePgNumericText_text]
  constructor
  · rintro ⟨d, hread, -⟩
    obtain ⟨hfits, -⟩ := dite_none_right_eq_some.mp hread
    exact hfits
  · intro hfits
    refine ⟨_, dif_pos hfits, ?_⟩
    rw [t.ledgerParsePgNumeric_text hfits, toRat_eq_div rfl rfl]

end PgColumnText

end Readers

/-- Decimals are read back as they were exactly when their text is exact, a text is read
exactly or refused unless it is malformed, and the two readers agree on the texts of a column
exactly when the significant digits fit. -/
theorem pg_numeric_iff (d : Decimal) (text : List Char) (t : PgColumnText) :
    (0 ≤ d.scale → d.scale ≤ 38 → (RoundTrips d ↔ WritesExactly d)) ∧
    (ReadsOrThrows text ↔ ¬ Malformed (trimAsciiSpace text)) ∧
    ((∃ d, parsePgNumericText t.text = some d ∧
      (ledgerParsePgNumeric t.text).toRat = d.toRat) ↔ Int64Fits t.significant) :=
  ⟨fun hpos hle => roundTrips_iff hpos (pow10I_ne_zero hpos hle), readsOrThrows_iff text,
    t.readers_agree_iff⟩

def oneColumnText : PgColumnText where
  sign := .none
  whole := ['1']
  fraction := List.replicate 18 '0'
  whole_digits := by
    intro c hc
    rw [List.mem_singleton.mp hc]
    rfl
  whole_ne := List.cons_ne_nil _ _
  whole_length := by decide
  fraction_digits := by
    intro c hc
    rw [List.eq_of_mem_replicate hc]
    rfl
  fraction_length := List.length_replicate

/-- A price of two places is read back. -/
theorem price_round_trips : RoundTrips (Decimal.of 6000050 2) :=
  ((pg_numeric_iff (Decimal.of 6000050 2) [] oneColumnText).1 (by decide) (by decide)).mpr
    (by decide +kernel)

/-- The smallest mantissa and `0.9` with nineteen places are not read back, nothing is left of
`.0`, and `1.5.0` is read. -/
theorem lost_in_the_database :
    (∃ d : Decimal, 0 ≤ d.scale ∧ d.scale ≤ 38 ∧ d.units = int64Min ∧
      parsePgNumericText (toPgNumeric d) = none) ∧
    toPgNumeric (Decimal.of 9000000000000000000 19) = "-1.0553255926290448384".toList ∧
    ReadsOutside ".0".toList ∧
    parsePgNumericText "1.5.0".toList = some (Decimal.of 15 1) ∧
    ¬ ((∀ d : Decimal, 0 ≤ d.scale → d.scale ≤ 38 → RoundTrips d) ∧
      ∀ text, ReadsOrThrows text) := by
  refine ⟨⟨Decimal.of int64Min 0, by decide, by decide, rfl, by decide +kernel⟩,
    by decide +kernel, ⟨by decide +kernel, by decide +kernel⟩, by decide +kernel, ?_⟩
  rintro ⟨-, h⟩
  exact (h ".0".toList).1 ⟨by decide +kernel, by decide +kernel⟩

end Common
end ContExchange
