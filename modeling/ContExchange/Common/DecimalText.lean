import ContExchange.Common.Decimal
import Mathlib.Data.List.DropRight

/-!
# Common: decimals as text

`ParsePgNumeric`, which reads a decimal text.  `parsePgNumericText_signedText`: the
digits of a decimal are read with its value.
-/

namespace ContExchange
namespace Common

open List hiding pure_def
open Option hiding pure_def

/-- The lowest `places` digits of a number, with leading zeros. -/
def paddedDigits : (places : Nat) → Nat → List Char
  | 0, _ => []
  | k + 1, n => paddedDigits k (n / 10) ++ [Nat.digitChar (n % 10)]

/-- The digits of a number of at most nineteen digits. -/
def digitsText (n : Nat) : List Char :=
  match (paddedDigits 19 n).dropWhile (· = '0') with
  | [] => ['0']
  | text => text

/-- Space for `std::isspace`. -/
def isAsciiSpace (c : Char) : Bool :=
  c = ' ' || c = '\t' || c = '\n' || c = '\r' || c = '\x0b' || c = '\x0c'

/-- The loop over the digits: the number so far, the places, and what was seen. -/
structure DigitLoop where
  acc : Nat := 0
  scale : Nat := 0
  hasDot : Bool := false
  hasDigit : Bool := false

/-- One character; `none` is the `std::invalid_argument`. -/
def DigitLoop.step (st : DigitLoop) (c : Char) : Option DigitLoop :=
  if c = '.' then if st.hasDot then none else some { st with hasDot := true }
  else if c.isDigit then
    some
      { st with
        acc := st.acc * 10 + (c.toNat - '0'.toNat)
        scale := if st.hasDot then st.scale + 1 else st.scale
        hasDigit := true }
  else none

/-- The text without the zeros after the last digit of a fraction. -/
def stripFraction (text : List Char) : List Char :=
  if '.' ∈ text then
    let stripped := text.rdropWhile (· = '0')
    if stripped.getLast? = some '.' then stripped.dropLast else stripped
  else text

def splitSign : List Char → Bool × List Char
  | '-' :: rest => (true, rest)
  | '+' :: rest => (false, rest)
  | text => (false, text)

/-- `ParsePgNumeric`; `none` when it throws. -/
def parsePgNumericText (text : List Char) : Option Decimal :=
  let trimmed := (text.dropWhile isAsciiSpace).rdropWhile isAsciiSpace
  let signed := splitSign (stripFraction trimmed)
  match signed.2.foldlM DigitLoop.step {} with
  | none => none
  | some st =>
      let units : Int := if signed.1 then -st.acc else st.acc
      if st.hasDigit then
        if h : Int64Fits units then some ⟨units, st.scale, h⟩ else none
      else none

section Digits

variable {n : Nat}

theorem digitChar_isDigit (h : n < 10) : (Nat.digitChar n).isDigit = true := by
  interval_cases n <;> decide

theorem digitChar_value (h : n < 10) : (Nat.digitChar n).toNat - '0'.toNat = n := by
  interval_cases n <;> decide

variable {c : Char}

theorem isDigit_of_mem_paddedDigits {places n : Nat} (h : c ∈ paddedDigits places n) :
    c.isDigit = true := by
  induction places generalizing n with
  | zero => cases h
  | succ k ih =>
      rcases mem_append.mp h with h | h
      · exact ih h
      · rw [mem_singleton.mp h]
        exact digitChar_isDigit (Nat.mod_lt n (by norm_num))

theorem isDigit_of_mem_digitsText (h : c ∈ digitsText n) : c.isDigit = true := by
  unfold digitsText at h
  split at h
  · rw [mem_singleton.mp h]
    decide
  · rename_i text _
    exact isDigit_of_mem_paddedDigits ((dropWhile_sublist _).subset h)

theorem digitsText_ne_nil (n : Nat) : digitsText n ≠ [] := by
  unfold digitsText
  split
  · simp
  · rename_i htext
    exact htext

/-- The sign, the whole part and `places` places of the fraction. -/
def signedText (neg : Bool) (whole places fraction : Nat) : List Char :=
  (if neg then ['-'] else []) ++ digitsText whole ++
    (if 0 < places then '.' :: paddedDigits places fraction else [])

theorem mem_signedText {neg : Bool} {whole places fraction : Nat}
    (h : c ∈ signedText neg whole places fraction) : c = '-' ∨ c = '.' ∨ c.isDigit = true := by
  unfold signedText at h
  rcases mem_append.mp h with h | h
  · rcases mem_append.mp h with h | h
    · split at h
      · exact Or.inl (mem_singleton.mp h)
      · cases h
    · exact Or.inr (Or.inr (isDigit_of_mem_digitsText h))
  · split at h
    · rcases mem_cons.mp h with h | h
      · exact Or.inr (Or.inl h)
      · exact Or.inr (Or.inr (isDigit_of_mem_paddedDigits h))
    · cases h

end Digits

section RoundTrip

theorem step_of_isDigit (st : DigitLoop) {c : Char} (h : c.isDigit = true) :
    st.step c =
      some
        { acc := st.acc * 10 + (c.toNat - '0'.toNat)
          scale := if st.hasDot then st.scale + 1 else st.scale
          hasDot := st.hasDot
          hasDigit := true } := by
  have hdot : c ≠ '.' := by
    rintro rfl
    revert h
    decide
  unfold DigitLoop.step
  rw [if_neg hdot, if_pos h]

/-- The places that the digits of a text add. -/
def DigitLoop.scaleAfter (st : DigitLoop) (k : Nat) : Nat :=
  if st.hasDot then st.scale + k else st.scale

theorem foldlM_paddedDigits (k n : Nat) (st : DigitLoop) :
    (paddedDigits k n).foldlM DigitLoop.step st =
      some
        { acc := st.acc * 10 ^ k + n % 10 ^ k
          scale := st.scaleAfter k
          hasDot := st.hasDot
          hasDigit := st.hasDigit || decide (0 < k) } := by
  induction k generalizing n with
  | zero =>
      cases st
      simp [paddedDigits, DigitLoop.scaleAfter, Nat.mod_one]
  | succ k ih =>
      have hlt : n % 10 < 10 := Nat.mod_lt n (by norm_num)
      have hmod : n % 10 ^ (k + 1) = n / 10 % 10 ^ k * 10 + n % 10 := by
        rw [pow_succ', Nat.mod_mul, add_comm, mul_comm]
      have hacc : (st.acc * 10 ^ k + n / 10 % 10 ^ k) * 10 + n % 10 =
          st.acc * 10 ^ (k + 1) + n % 10 ^ (k + 1) := by
        rw [hmod, pow_succ]
        ring
      rw [paddedDigits, foldlM_append, ih (n / 10)]
      simp only [bind_eq_bind, bind_some, foldlM_cons, foldlM_nil]
      rw [step_of_isDigit _ (digitChar_isDigit hlt), digitChar_value hlt]
      simp only [bind_some, Option.pure_def, hacc]
      congr 2
      · unfold DigitLoop.scaleAfter
        split <;> simp_all [Nat.add_assoc]
      · simp

theorem foldlM_dropWhile_zeros {text : List Char} (hdigits : ∀ c ∈ text, c.isDigit = true)
    (hrest : text.dropWhile (· = '0') ≠ []) (seen seen' : Bool) :
    (text.dropWhile (· = '0')).foldlM DigitLoop.step { hasDigit := seen } =
      text.foldlM DigitLoop.step { hasDigit := seen' } := by
  induction text generalizing seen' with
  | nil => exact absurd rfl hrest
  | cons c rest ih =>
      have hc := hdigits c mem_cons_self
      by_cases hzero : c = '0'
      · have hdrop : (c :: rest).dropWhile (· = '0') = rest.dropWhile (· = '0') := by
          simp [hzero]
        rw [hdrop] at hrest ⊢
        rw [ih (fun x hx => hdigits x (mem_cons_of_mem c hx)) hrest true,
          foldlM_cons, step_of_isDigit _ hc]
        simp [hzero]
      · have hdrop : (c :: rest).dropWhile (· = '0') = c :: rest := by
          simp [hzero]
        rw [hdrop, foldlM_cons, foldlM_cons, step_of_isDigit _ hc, step_of_isDigit _ hc]

theorem mod_eq_zero_of_zeros {k n : Nat} (h : (paddedDigits k n).dropWhile (· = '0') = []) :
    n % 10 ^ k = 0 := by
  induction k generalizing n with
  | zero => exact Nat.mod_one n
  | succ k ih =>
      rw [dropWhile_eq_nil_iff] at h
      have hhigh : n / 10 % 10 ^ k = 0 := by
        refine ih (dropWhile_eq_nil_iff.mpr (fun c hc => h c ?_))
        exact mem_append_left _ hc
      have hlow : n % 10 = 0 := by
        have hchar := h (Nat.digitChar (n % 10)) (mem_append_right _ (mem_singleton_self _))
        have hlt : n % 10 < 10 := Nat.mod_lt n (by norm_num)
        revert hchar
        generalize n % 10 = m at hlt ⊢
        interval_cases m <;> decide
      rw [pow_succ', Nat.mod_mul, hhigh, hlow]

theorem foldlM_digitsText {n : Nat} (h : n < 10 ^ 19) :
    (digitsText n).foldlM DigitLoop.step {} = some { acc := n, hasDigit := true } := by
  unfold digitsText
  split
  · rename_i hzeros
    have hmod := mod_eq_zero_of_zeros hzeros
    rw [Nat.mod_eq_of_lt h] at hmod
    rw [hmod]
    rfl
  · rename_i hrest
    rw [foldlM_dropWhile_zeros (fun c hc => isDigit_of_mem_paddedDigits hc) hrest false false,
      foldlM_paddedDigits 19 n {}]
    simpa [DigitLoop.scaleAfter] using h

theorem rdropWhile_paddedDigits (k n : Nat) :
    ∃ j ≤ k, 10 ^ j ∣ n ∧
      (paddedDigits k n).rdropWhile (· = '0') = paddedDigits (k - j) (n / 10 ^ j) := by
  induction k generalizing n with
  | zero => exact ⟨0, le_rfl, one_dvd n, by simp [paddedDigits]⟩
  | succ k ih =>
      rw [paddedDigits, rdropWhile_concat]
      by_cases hzero : Nat.digitChar (n % 10) = '0'
      · obtain ⟨j, hj, hdvd, hrest⟩ := ih (n / 10)
        have hlow : n % 10 = 0 := by
          have hlt : n % 10 < 10 := Nat.mod_lt n (by norm_num)
          revert hzero
          generalize n % 10 = m at hlt ⊢
          interval_cases m <;> decide
        have hten : n = 10 * (n / 10) := (Nat.mul_div_cancel' (Nat.dvd_of_mod_eq_zero hlow)).symm
        refine ⟨j + 1, by omega, ?_, ?_⟩
        · rw [pow_succ', hten]
          exact Nat.mul_dvd_mul_left 10 hdvd
        · rw [if_pos (by simpa using hzero), hrest, pow_succ', Nat.div_div_eq_div_mul]
          congr 1
          omega
      · refine ⟨0, Nat.zero_le _, one_dvd n, ?_⟩
        rw [if_neg (by simpa using hzero)]
        simp [paddedDigits]

theorem rdropWhile_append_cons
    {α : Type*} {p : α → Bool} {x : α} (hx : p x = false) (front back : List α) :
    (front ++ x :: back).rdropWhile p = front ++ x :: back.rdropWhile p := by
  induction back using List.reverseRecOn with
  | nil => rw [rdropWhile_concat_neg p front x (by simp [hx]), rdropWhile_nil]
  | append_singleton back y ih =>
      rw [← cons_append, ← append_assoc, rdropWhile_concat, rdropWhile_concat, ih]
      split <;> simp

theorem stripFraction_signedText (neg : Bool) (whole places fraction : Nat) :
    ∃ j ≤ places, 10 ^ j ∣ fraction ∧
      stripFraction (signedText neg whole places fraction) =
        signedText neg whole (places - j) (fraction / 10 ^ j) := by
  have hfront : '.' ∉ (if neg then ['-'] else []) ++ digitsText whole := by
    intro h
    rcases mem_append.mp h with h | h
    · cases neg <;> simp at h
    · exact absurd (isDigit_of_mem_digitsText h) (by decide)
  unfold signedText
  generalize (if neg then ['-'] else []) ++ digitsText whole = front at hfront
  rcases Nat.eq_zero_or_pos places with hzero | hpos
  · refine ⟨0, Nat.zero_le _, one_dvd _, ?_⟩
    subst hzero
    rw [if_neg (lt_irrefl 0), if_neg (lt_irrefl 0), append_nil]
    unfold stripFraction
    rw [if_neg hfront]
  · obtain ⟨j, hj, hdvd, hrest⟩ := rdropWhile_paddedDigits places fraction
    refine ⟨j, hj, hdvd, ?_⟩
    rw [if_pos hpos]
    unfold stripFraction
    rw [if_pos (mem_append_right _ mem_cons_self), rdropWhile_append_cons (by decide), hrest]
    dsimp only
    rcases Nat.eq_zero_or_pos (places - j) with hnone | hsome
    · rw [hnone, if_neg (lt_irrefl 0)]
      simp [paddedDigits]
    · rw [if_pos hsome, if_neg]
      intro hlast
      have hne : paddedDigits (places - j) (fraction / 10 ^ j) ≠ [] := by
        obtain ⟨k, hk⟩ := Nat.exists_eq_succ_of_ne_zero hsome.ne'
        rw [hk, paddedDigits]
        simp
      rw [getLast?_append_cons, getLast?_cons_of_ne_nil hne] at hlast
      exact absurd (isDigit_of_mem_paddedDigits (mem_of_getLast? hlast)) (by decide)

theorem foldlM_signedText
    {whole places fraction : Nat} (hwhole : whole < 10 ^ 19) (hfraction : fraction < 10 ^ places) :
    (digitsText whole ++ (if 0 < places then '.' :: paddedDigits places fraction else [])).foldlM
        DigitLoop.step {} =
      some
        { acc := whole * 10 ^ places + fraction
          scale := places
          hasDot := decide (0 < places)
          hasDigit := true } := by
  have hdigits := foldlM_digitsText hwhole
  clear hwhole
  rw [foldlM_append, hdigits]
  cases places with
  | zero =>
      have hf : fraction = 0 := by simpa using hfraction
      simp [hf]
  | succ k =>
      have hpos : 0 < k + 1 := Nat.succ_pos k
      rw [if_pos hpos]
      simp only [bind_eq_bind, bind_some, foldlM_cons]
      have hdot : DigitLoop.step { acc := whole, hasDigit := true } '.' =
          some { acc := whole, hasDot := true, hasDigit := true } := rfl
      rw [hdot, bind_some, foldlM_paddedDigits]
      simp [DigitLoop.scaleAfter, Nat.mod_eq_of_lt hfraction, hpos]

theorem splitSign_signedText (neg : Bool) (whole places fraction : Nat) :
    splitSign (signedText neg whole places fraction) =
      (neg, digitsText whole ++
        (if 0 < places then '.' :: paddedDigits places fraction else [])) := by
  unfold signedText
  cases neg with
  | true => simp only [if_true, cons_append, nil_append, splitSign]
  | false =>
      obtain ⟨c, rest, htext⟩ := exists_cons_of_ne_nil (digitsText_ne_nil whole)
      have hc : c.isDigit = true := by
        apply isDigit_of_mem_digitsText (n := whole)
        rw [htext]
        exact mem_cons_self
      rw [htext]
      simp only [Bool.false_eq_true, if_false, nil_append, cons_append]
      unfold splitSign
      split
      · rename_i heq
        cases heq
        exact absurd hc (by decide)
      · rename_i heq
        cases heq
        exact absurd hc (by decide)
      · rfl

theorem isAsciiSpace_eq_false {c : Char} (h : c = '-' ∨ c = '.' ∨ c.isDigit = true) :
    isAsciiSpace c = false := by
  rcases h with rfl | rfl | hdigit
  · decide
  · decide
  · by_contra hspace
    rw [Bool.not_eq_false] at hspace
    simp only [isAsciiSpace, Bool.or_eq_true, decide_eq_true_eq] at hspace
    rcases hspace with ((((rfl | rfl) | rfl) | rfl) | rfl) | rfl <;> revert hdigit <;> decide

theorem trim_eq_self {text : List Char} (h : ∀ c ∈ text, isAsciiSpace c = false) :
    (text.dropWhile isAsciiSpace).rdropWhile isAsciiSpace = text := by
  have hfront : text.dropWhile isAsciiSpace = text := by
    rw [dropWhile_eq_self_iff]
    intro hlen
    rw [h _ (getElem_mem hlen)]
    decide
  rw [hfront, rdropWhile_eq_self_iff]
  intro hne
  rw [h _ (getLast_mem hne)]
  decide

theorem read_stripped {n : Nat} (hn : n < 10 ^ 19) (neg : Bool) (places : Nat) :
    ∃ j acc rest st, j ≤ places ∧ acc * 10 ^ j = n ∧
      splitSign (stripFraction (signedText neg (n / 10 ^ places) places (n % 10 ^ places))) =
        (neg, rest) ∧
      rest.foldlM DigitLoop.step {} = some st ∧
        st.acc = acc ∧ st.scale = places - j ∧ st.hasDigit = true := by
  obtain ⟨j, hj, hdvd, hstrip⟩ :=
    stripFraction_signedText neg (n / 10 ^ places) places (n % 10 ^ places)
  have hwhole : n / 10 ^ places < 10 ^ 19 := lt_of_le_of_lt (Nat.div_le_self _ _) hn
  have hfraction : n % 10 ^ places / 10 ^ j < 10 ^ (places - j) := by
    rw [Nat.div_lt_iff_lt_mul (by positivity), ← pow_add, Nat.sub_add_cancel hj]
    exact Nat.mod_lt _ (by positivity)
  have hsplit := splitSign_signedText neg (n / 10 ^ places) (places - j) (n % 10 ^ places / 10 ^ j)
  rw [← hstrip] at hsplit
  refine ⟨j, _, _, _, hj, ?_, hsplit, foldlM_signedText hwhole hfraction, rfl, rfl, rfl⟩
  rw [add_mul, mul_assoc, ← pow_add, Nat.sub_add_cancel hj, Nat.div_mul_cancel hdvd, mul_comm]
  exact Nat.div_add_mod n _

theorem parsePgNumericText_signedText (d : Decimal) :
    ∃ d', parsePgNumericText (signedText (decide (d.units < 0))
        (d.units.natAbs / 10 ^ d.scale.toNat) d.scale.toNat
        (d.units.natAbs % 10 ^ d.scale.toNat)) = some d' ∧
      d'.toRat = d.units * (10 : ℚ) ^ (-max d.scale 0) := by
  have hd := d.fits
  unfold Int64Fits int64Min int64Max at hd
  obtain ⟨j, acc, rest, st, hj, hmul, hsplit, hread, hacc, hplaces, hseen⟩ :=
    read_stripped (show d.units.natAbs < 10 ^ 19 by omega) (decide (d.units < 0)) d.scale.toNat
  have hle : acc ≤ d.units.natAbs := by
    rw [← hmul]
    exact Nat.le_mul_of_pos_right acc (by positivity)
  obtain ⟨units, hunits⟩ :
      ∃ units : Int, units = if decide (d.units < 0) = true then -(st.acc : Int) else st.acc :=
    ⟨_, rfl⟩
  have hfits : Int64Fits units := by
    clear hmul hread hsplit
    unfold Int64Fits int64Min int64Max
    split at hunits <;> simp only [decide_eq_true_eq] at * <;> omega
  have hvalue : d.units = units * 10 ^ j := by
    have hcast : (st.acc : Int) * 10 ^ j = d.units.natAbs := by
      rw [hacc]
      exact_mod_cast hmul
    split at hunits <;> simp only [decide_eq_true_eq] at *
    · rw [hunits, neg_mul, hcast]
      omega
    · rw [hunits, hcast]
      omega
  have hparse : parsePgNumericText (signedText (decide (d.units < 0))
      (d.units.natAbs / 10 ^ d.scale.toNat) d.scale.toNat
      (d.units.natAbs % 10 ^ d.scale.toNat)) = some ⟨units, st.scale, hfits⟩ := by
    unfold parsePgNumericText
    dsimp only
    rw [trim_eq_self (fun _ hc => isAsciiSpace_eq_false (mem_signedText hc)), hsplit]
    dsimp only
    rw [hread]
    dsimp only
    rw [if_pos hseen, dif_pos (hunits ▸ hfits)]
    simp only [hunits]
  have hpow : (10 : ℚ) ^ (-(st.scale : Int)) = 10 ^ j * 10 ^ (-max d.scale 0) := by
    rw [← zpow_natCast, ← zpow_add₀ (by norm_num)]
    congr 1
    omega
  refine ⟨_, hparse, ?_⟩
  rw [hvalue, Decimal.toRat, hpow]
  push_cast
  ring

end RoundTrip

end Common
end ContExchange
