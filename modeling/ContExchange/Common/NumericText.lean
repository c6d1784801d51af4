import ContExchange.Common.DecimalText

/-!
# Common: which texts are read as a decimal

`ParsePgNumeric` strips the zeros and the point at the end of a text before it looks at it.

* `Numeral`: the grammar, a sign, digits, and a point with digits behind it, with the value;
* `parsePgNumericText_spec`: what was left when a text has been read;
* `Malformed`: the texts that are read although they are not of the grammar, and those that
  leave nothing to look at;
* `readsOrThrows_iff`: every other text is read exactly or refused.
-/

namespace ContExchange
namespace Common

open DigitLoop

open List hiding pure_def
open Option hiding pure_def

section Digits

def AllDigits (text : List Char) : Prop :=
  ∀ c ∈ text, c.isDigit = true

def AllZeros (text : List Char) : Prop :=
  ∀ c ∈ text, c = '0'

/-- The number that digits are read as. -/
def number (text : List Char) : Nat :=
  text.foldl (fun n c => n * 10 + (c.toNat - '0'.toNat)) 0

variable {text front back : List Char}

theorem AllZeros.allDigits (h : AllZeros text) : AllDigits text :=
  fun c hc => by rw [h c hc]; decide

theorem allDigits_append : AllDigits (front ++ back) ↔ AllDigits front ∧ AllDigits back :=
  forall_mem_append

theorem AllDigits.point_notMem (h : AllDigits text) : '.' ∉ text :=
  fun hmem => absurd (h _ hmem) (by decide)

theorem foldl_number (acc : Nat) (text : List Char) :
    text.foldl (fun n c => n * 10 + (c.toNat - '0'.toNat)) acc =
      acc * 10 ^ text.length + number text := by
  unfold number
  induction text using List.reverseRecOn with
  | nil => simp
  | append_singleton text c ih =>
      rw [foldl_append, foldl_append, ih, length_append]
      simp only [foldl_cons, foldl_nil, length_singleton]
      ring

theorem number_append (front back : List Char) :
    number (front ++ back) = number front * 10 ^ back.length + number back := by
  rw [number, foldl_append, foldl_number]
  rfl

theorem AllZeros.number_eq (h : AllZeros text) : number text = 0 := by
  induction text using List.reverseRecOn with
  | nil => rfl
  | append_singleton text c ih =>
      have hc : c = '0' := h c (mem_append_right _ mem_cons_self)
      rw [number_append, ih (fun x hx => h x (mem_append_left _ hx)), hc]
      decide

theorem foldlM_digits (h : AllDigits text) (st : DigitLoop) :
    text.foldlM step st =
      some
        { acc := st.acc * 10 ^ text.length + number text
          scale := st.scaleAfter text.length
          hasDot := st.hasDot
          hasDigit := st.hasDigit || !text.isEmpty } := by
  induction text using List.reverseRecOn with
  | nil =>
      cases st
      simp [number, scaleAfter]
  | append_singleton text c ih =>
      obtain ⟨htext, hc⟩ := allDigits_append.mp h
      have hdigit : c.isDigit = true := hc c mem_cons_self
      rw [foldlM_append, ih htext]
      simp only [bind_eq_bind, bind_some, foldlM_cons, foldlM_nil]
      rw [step_of_isDigit _ hdigit, number_append, length_append]
      simp only [bind_some, Option.pure_def, length_singleton]
      congr 2
      · simp only [number, foldl_cons, foldl_nil]
        ring
      · unfold scaleAfter
        split <;> simp_all [Nat.add_assoc]
      · simp

theorem digits_of_foldlM {st st' : DigitLoop} (h : text.foldlM step st = some st') :
    AllDigits text ∨ st.hasDot = false ∧ ∃ whole fraction,
      text = whole ++ '.' :: fraction ∧ AllDigits whole ∧ AllDigits fraction := by
  induction text generalizing st with
  | nil => exact .inl (fun c hc => by cases hc)
  | cons c rest ih =>
      rw [foldlM_cons] at h
      obtain ⟨next, hstep, hrest⟩ := bind_eq_some_iff.mp h
      by_cases hpoint : c = '.'
      · unfold step at hstep
        rw [if_pos hpoint] at hstep
        split_ifs at hstep with hdot
        obtain rfl := Option.some.inj hstep
        rcases ih hrest with hdigits | ⟨hnone, -⟩
        · have hnil : AllDigits [] := forall_mem_nil _
          exact .inr ⟨Bool.not_eq_true _ ▸ hdot, [], rest, by rw [hpoint]; rfl, hnil, hdigits⟩
        · cases hnone
      · have hdigit : c.isDigit = true := by
          unfold step at hstep
          rw [if_neg hpoint] at hstep
          by_contra hno
          rw [if_neg hno] at hstep
          cases hstep
        rw [step_of_isDigit st hdigit] at hstep
        obtain rfl := Option.some.inj hstep
        have hcons : ∀ {xs : List Char}, AllDigits xs → AllDigits (c :: xs) :=
          fun hxs => forall_mem_cons.mpr ⟨hdigit, hxs⟩
        rcases ih hrest with hdigits | ⟨hnone, whole, fraction, rfl, hwhole, hfraction⟩
        · exact .inl (hcons hdigits)
        · exact .inr ⟨hnone, c :: whole, fraction, rfl, hcons hwhole, hfraction⟩

end Digits

/-- The sign of a number, with a plus that may be written. -/
inductive NumeralSign where
  | none
  | plus
  | minus
deriving DecidableEq

def NumeralSign.text : NumeralSign → List Char
  | .none => []
  | .plus => ['+']
  | .minus => ['-']

def NumeralSign.onInt : NumeralSign → Nat → Int
  | .minus, n => -n
  | _, n => n

/-- A sign, digits, and a point with digits behind it: the text and its value. -/
inductive Numeral : List Char → ℚ → Prop where
  | integer (sign : NumeralSign) (whole : List Char)
      (hwhole : AllDigits whole) (hne : whole ≠ []) :
      Numeral (sign.text ++ whole) (sign.onInt (number whole))
  | fraction (sign : NumeralSign) (whole fraction : List Char)
      (hwhole : AllDigits whole) (hne : whole ≠ [])
      (hfraction : AllDigits fraction) (hplaces : fraction ≠ []) :
      Numeral (sign.text ++ whole ++ '.' :: fraction)
        (sign.onInt (number (whole ++ fraction)) / 10 ^ fraction.length)

/-- A text without the spaces around it, `trim_ascii_space`. -/
def trimAsciiSpace (text : List Char) : List Char :=
  (text.dropWhile isAsciiSpace).rdropWhile isAsciiSpace

/-- `front()` is read although nothing is left of the text. -/
def ReadsOutside (text : List Char) : Prop :=
  trimAsciiSpace text ≠ [] ∧ stripFraction (trimAsciiSpace text) = []

/-- A text of the grammar is read exactly, every other one is refused. -/
def ReadsOrThrows (text : List Char) : Prop :=
  ¬ ReadsOutside text ∧
    ∀ d, parsePgNumericText text = some d → Numeral (trimAsciiSpace text) d.toRat

/-- The texts that go wrong: a point with nothing but zeros, no digits after or before the
point, and a second point with nothing but zeros after it. -/
inductive Malformed : List Char → Prop where
  | pointOnly (zeros : List Char) (hzeros : AllZeros zeros) : Malformed ('.' :: zeros)
  | trailingPoint (sign : NumeralSign) (whole : List Char)
      (hwhole : AllDigits whole) (hne : whole ≠ [])
      (hfits : Int64Fits (sign.onInt (number whole))) :
      Malformed (sign.text ++ whole ++ ['.'])
  | leadingPoint (sign : NumeralSign) (fraction : List Char) (last : Char) (zeros : List Char)
      (hfraction : AllDigits (fraction ++ [last])) (hlast : last ≠ '0') (hzeros : AllZeros zeros)
      (hfits : Int64Fits (sign.onInt (number (fraction ++ [last])))) :
      Malformed (sign.text ++ '.' :: (fraction ++ [last] ++ zeros))
  | secondPoint (sign : NumeralSign) (whole fraction zeros : List Char)
      (hwhole : AllDigits whole) (hfraction : AllDigits fraction)
      (hne : whole ++ fraction ≠ []) (hzeros : AllZeros zeros)
      (hfits : Int64Fits (sign.onInt (number (whole ++ fraction)))) :
      Malformed (sign.text ++ whole ++ '.' :: fraction ++ '.' :: zeros)

section Signs

theorem splitSign_cases (text : List Char) :
    ∃ sign : NumeralSign, text = sign.text ++ (splitSign text).2 ∧
      (splitSign text).1 = decide (sign = .minus) := by
  unfold splitSign
  split
  · exact ⟨.minus, rfl, rfl⟩
  · exact ⟨.plus, rfl, rfl⟩
  · exact ⟨.none, rfl, rfl⟩

theorem splitSign_append
    (sign : NumeralSign) {c : Char} (rest : List Char) (hminus : c ≠ '-') (hplus : c ≠ '+') :
    splitSign (sign.text ++ c :: rest) = (decide (sign = .minus), c :: rest) := by
  cases sign with
  | minus => rfl
  | plus => rfl
  | none =>
      simp only [NumeralSign.text, nil_append]
      unfold splitSign
      split
      · rename_i heq
        exact absurd (List.cons.inj heq).1 hminus
      · rename_i heq
        exact absurd (List.cons.inj heq).1 hplus
      · rfl

theorem point_notMem_sign (sign : NumeralSign) : '.' ∉ sign.text := by
  cases sign <;> decide

theorem ne_sign_of_isDigit {c : Char} (h : c.isDigit = true) : c ≠ '-' ∧ c ≠ '+' := by
  constructor <;> rintro rfl <;> revert h <;> decide

end Signs

section Stripped

variable {text front zeros : List Char}

theorem rdropWhile_zeros_append (h : AllZeros zeros) (front : List Char) :
    (front ++ zeros).rdropWhile (· = '0') = front.rdropWhile (· = '0') := by
  induction zeros using List.reverseRecOn with
  | nil => rw [append_nil]
  | append_singleton zeros c ih =>
      have hc : c = '0' := h c (mem_append_right _ mem_cons_self)
      rw [← append_assoc, rdropWhile_concat, if_pos (by simpa using hc)]
      exact ih (fun x hx => h x (mem_append_left _ hx))

theorem stripFraction_point (front : List Char) (h : AllZeros zeros) :
    stripFraction (front ++ '.' :: zeros) = front := by
  have hdrop : (front ++ '.' :: zeros).rdropWhile (· = '0') = front ++ ['.'] := by
    rw [append_cons, rdropWhile_zeros_append h]
    exact rdropWhile_concat_neg _ _ _ (by decide)
  unfold stripFraction
  rw [if_pos (mem_append_right _ mem_cons_self), hdrop]
  simp

theorem stripFraction_zeros (hpoint : '.' ∈ front) {last : Char} (hzero : last ≠ '0')
    (hdot : last ≠ '.') (h : AllZeros zeros) :
    stripFraction (front ++ [last] ++ zeros) = front ++ [last] := by
  have hdrop : (front ++ [last] ++ zeros).rdropWhile (· = '0') = front ++ [last] := by
    rw [rdropWhile_zeros_append h]
    exact rdropWhile_concat_neg _ _ _ (by simpa using hzero)
  unfold stripFraction
  rw [if_pos (mem_append_left _ (mem_append_left _ hpoint)), hdrop]
  simp [hdot]

theorem stripFraction_cases (text : List Char) :
    '.' ∉ text ∧ stripFraction text = text ∨
    (∃ front last zeros, '.' ∈ text ∧ text = front ++ [last] ++ zeros ∧
      stripFraction text = front ++ [last] ∧ last ≠ '0' ∧ last ≠ '.' ∧ AllZeros zeros) ∨
    ∃ zeros, text = stripFraction text ++ '.' :: zeros ∧ AllZeros zeros := by
  by_cases hpoint : '.' ∈ text
  · obtain ⟨zeros, hzeros, htext⟩ :
        ∃ zeros, AllZeros zeros ∧ text = text.rdropWhile (· = '0') ++ zeros := by
      refine ⟨(text.reverse.takeWhile (· = '0')).reverse, fun c hc => ?_, ?_⟩
      · simpa using mem_takeWhile_imp (mem_reverse.mp hc)
      · rw [List.rdropWhile, ← reverse_append, takeWhile_append_dropWhile, reverse_reverse]
    rcases eq_nil_or_concat (text.rdropWhile (· = '0')) with hnil | ⟨front, last, hlast⟩
    · rw [hnil, nil_append] at htext
      exact absurd (hzeros '.' (htext ▸ hpoint)) (by decide)
    · rw [concat_eq_append] at hlast
      have hne : last ≠ '0' := by
        have hstop := rdropWhile_last_not (· = '0') text (by simp [hlast])
        simpa [hlast] using hstop
      by_cases hdot : last = '.'
      · refine .inr (.inr ⟨zeros, ?_, hzeros⟩)
        have hform : text = front ++ '.' :: zeros := by
          rw [htext, hlast, hdot, append_assoc, singleton_append]
        rw [hform, stripFraction_point front hzeros]
      · refine .inr (.inl ⟨front, last, zeros, hpoint, ?_, ?_, hne, hdot, hzeros⟩)
        · rw [htext, hlast]
        · unfold stripFraction
          rw [if_pos hpoint, hlast]
          simp [hdot]
  · exact .inl ⟨hpoint, by unfold stripFraction; rw [if_neg hpoint]⟩

end Stripped

section Reading

variable {text whole fraction tail : List Char} {sign : NumeralSign} {d : Decimal}

/-- How the digits after the point are written: not at all, or behind a point. -/
def FractionTail (fraction tail : List Char) : Prop :=
  tail = [] ∧ fraction = [] ∨ tail = '.' :: fraction

theorem foldlM_body (hwhole : AllDigits whole) (hfraction : AllDigits fraction)
    (htail : FractionTail fraction tail) :
    ∃ dot, (whole ++ tail).foldlM step {} =
      some
        { acc := number (whole ++ fraction)
          scale := fraction.length
          hasDot := dot
          hasDigit := !(whole ++ fraction).isEmpty } := by
  rw [foldlM_append, foldlM_digits hwhole]
  rcases htail with ⟨rfl, rfl⟩ | rfl
  · refine ⟨false, ?_⟩
    simp [scaleAfter]
  · refine ⟨true, ?_⟩
    have hpoint : ∀ acc seen, step { acc := acc, hasDigit := seen } '.' =
        some { acc := acc, hasDot := true, hasDigit := seen } := fun _ _ => rfl
    simp only [bind_eq_bind, bind_some, foldlM_cons, scaleAfter]
    rw [if_neg (by decide), hpoint, bind_some, foldlM_digits hfraction, number_append]
    have hseen : (!whole.isEmpty || !fraction.isEmpty) = !(whole ++ fraction).isEmpty := by
      cases whole <;> simp
    simp [scaleAfter, hseen]

theorem splitSign_body
    (hwhole : AllDigits whole) (htail : FractionTail fraction tail) (hne : whole ++ fraction ≠ []) :
    splitSign (sign.text ++ whole ++ tail) = (decide (sign = .minus), whole ++ tail) := by
  rw [append_assoc]
  cases whole with
  | nil =>
      rcases htail with ⟨-, rfl⟩ | rfl
      · exact absurd rfl hne
      · exact splitSign_append sign _ (by decide) (by decide)
  | cons c rest =>
      obtain ⟨hminus, hplus⟩ := ne_sign_of_isDigit (hwhole c mem_cons_self)
      exact splitSign_append sign _ hminus hplus

theorem onInt_eq (sign : NumeralSign) (n : Nat) :
    (if decide (sign = .minus) = true then -(n : Int) else n) = sign.onInt n := by
  cases sign <;> rfl

theorem parsePgNumericText_spec (h : parsePgNumericText text = some d) :
    ∃ (sign : NumeralSign) (whole fraction tail : List Char),
      stripFraction (trimAsciiSpace text) = sign.text ++ whole ++ tail ∧
      AllDigits whole ∧ AllDigits fraction ∧ FractionTail fraction tail ∧
      whole ++ fraction ≠ [] ∧
      d.units = sign.onInt (number (whole ++ fraction)) ∧ d.scale = fraction.length := by
  unfold parsePgNumericText at h
  dsimp only at h
  rw [← trimAsciiSpace] at h
  obtain ⟨sign, htext, hsign⟩ := splitSign_cases (stripFraction (trimAsciiSpace text))
  split at h
  · cases h
  · rename_i st hread
    have hform : ∃ whole fraction tail,
        (splitSign (stripFraction (trimAsciiSpace text))).2 = whole ++ tail ∧
        AllDigits whole ∧ AllDigits fraction ∧ FractionTail fraction tail := by
      rcases digits_of_foldlM hread with hdigits | ⟨-, whole, fraction, hbody, hwhole, hfraction⟩
      · exact ⟨_, [], [], (append_nil _).symm, hdigits, forall_mem_nil _, .inl ⟨rfl, rfl⟩⟩
      · exact ⟨whole, fraction, _, hbody, hwhole, hfraction, .inr rfl⟩
    obtain ⟨whole, fraction, tail, hbody, hwhole, hfraction, htail⟩ := hform
    obtain ⟨dot, hloop⟩ := foldlM_body hwhole hfraction htail
    rw [hbody, hloop] at hread
    obtain rfl := Option.some.inj hread
    simp only [hsign, onInt_eq] at h
    obtain ⟨hdigit, h⟩ := ite_none_right_eq_some.mp h
    obtain ⟨hfits, h⟩ := dite_none_right_eq_some.mp h
    obtain rfl := Option.some.inj h
    refine ⟨sign, whole, fraction, tail, ?_, hwhole, hfraction, htail, ?_, rfl, rfl⟩
    · rw [append_assoc, ← hbody]
      exact htext
    · simpa using hdigit

theorem parsePgNumericText_of_stripped
    (hstrip : stripFraction (trimAsciiSpace text) = sign.text ++ whole ++ tail)
    (hwhole : AllDigits whole) (hfraction : AllDigits fraction)
    (htail : FractionTail fraction tail) (hne : whole ++ fraction ≠ []) :
    parsePgNumericText text =
      if h : Int64Fits (sign.onInt (number (whole ++ fraction))) then
        some ⟨sign.onInt (number (whole ++ fraction)), fraction.length, h⟩
      else none := by
  obtain ⟨dot, hloop⟩ := foldlM_body hwhole hfraction htail
  have hdigit : (!(whole ++ fraction).isEmpty) = true := by simpa using hne
  unfold parsePgNumericText
  dsimp only
  rw [← trimAsciiSpace, hstrip, splitSign_body hwhole htail hne]
  dsimp only
  rw [hloop]
  dsimp only
  rw [if_pos hdigit]
  simp only [onInt_eq]

end Reading

section Grammar

variable {text : List Char} {value : ℚ}

theorem Numeral.count_point_le (h : Numeral text value) : text.count '.' ≤ 1 := by
  cases h with
  | integer sign whole hwhole hne =>
      rw [count_append, count_eq_zero.mpr (point_notMem_sign sign),
        count_eq_zero.mpr hwhole.point_notMem]
      decide
  | fraction sign whole fraction hwhole hne hfraction hplaces =>
      rw [count_append, count_append, count_cons_self,
        count_eq_zero.mpr (point_notMem_sign sign),
        count_eq_zero.mpr hwhole.point_notMem,
        count_eq_zero.mpr hfraction.point_notMem]

theorem Numeral.getLast?_ne (h : Numeral text value) : text.getLast? ≠ some '.' := by
  have hlast : ∀ {front digits : List Char}, digits ≠ [] → AllDigits digits →
      (front ++ digits).getLast? ≠ some '.' := by
    intro front digits hne hdigits hpoint
    rw [getLast?_append_of_ne_nil _ hne] at hpoint
    exact hdigits.point_notMem (mem_of_getLast? hpoint)
  cases h with
  | integer sign whole hwhole hne => exact hlast hne hwhole
  | fraction sign whole fraction hwhole hne hfraction hplaces =>
      rw [append_cons]
      exact hlast hplaces hfraction

theorem Numeral.splitSign_ne (h : Numeral text value) (rest : List Char) :
    (splitSign text).2 ≠ '.' :: rest := by
  have hhead : ∀ (sign : NumeralSign) {whole tail : List Char}, whole ≠ [] → AllDigits whole →
      (splitSign (sign.text ++ (whole ++ tail))).2 ≠ '.' :: rest := by
    intro sign whole tail hne hwhole
    obtain ⟨c, more, rfl⟩ := exists_cons_of_ne_nil hne
    have hdigit := hwhole c mem_cons_self
    obtain ⟨hminus, hplus⟩ := ne_sign_of_isDigit hdigit
    rw [cons_append, splitSign_append sign _ hminus hplus]
    intro heq
    rw [(List.cons.inj heq).1] at hdigit
    exact absurd hdigit (by decide)
  cases h with
  | integer sign whole hwhole hne =>
      rw [← append_nil whole]
      exact hhead sign hne hwhole
  | fraction sign whole fraction hwhole hne hfraction hplaces =>
      rw [append_assoc]
      exact hhead sign hne hwhole

theorem onInt_zeros (sign : NumeralSign) (digits : List Char) {zeros : List Char}
    (hzeros : AllZeros zeros) (k : Nat) :
    (sign.onInt (number (digits ++ zeros)) : ℚ) / 10 ^ (k + zeros.length) =
      sign.onInt (number digits) / 10 ^ k := by
  have hscale : sign.onInt (number (digits ++ zeros)) =
      sign.onInt (number digits) * 10 ^ zeros.length := by
    rw [number_append, hzeros.number_eq, add_zero]
    cases sign <;> simp [NumeralSign.onInt]
  rw [hscale, pow_add]
  push_cast
  exact mul_div_mul_right _ _ (by positivity)

theorem toRat_eq_div {d : Decimal} {units : Int} {places : Nat} (hunits : d.units = units)
    (hscale : d.scale = places) : d.toRat = units / 10 ^ places := by
  unfold Decimal.toRat
  rw [hunits, hscale, zpow_neg, zpow_natCast, div_eq_mul_inv]

end Grammar

section Condition

variable {text : List Char}

theorem malformed_of_readsOutside (h : ReadsOutside text) : Malformed (trimAsciiSpace text) := by
  obtain ⟨hne, hnil⟩ := h
  rcases stripFraction_cases (trimAsciiSpace text) with
    ⟨-, hsame⟩ | ⟨front, last, zeros, -, -, hstrip, -⟩ | ⟨zeros, htext, hzeros⟩
  · exact absurd (hsame.symm.trans hnil) hne
  · rw [hnil] at hstrip
    simp at hstrip
  · rw [hnil, nil_append] at htext
    rw [htext]
    exact .pointOnly zeros hzeros

theorem numeral_or_malformed {d : Decimal} (h : parsePgNumericText text = some d) :
    Numeral (trimAsciiSpace text) d.toRat ∨ Malformed (trimAsciiSpace text) := by
  obtain ⟨sign, whole, fraction, tail, hstrip, hwhole, hfraction, htail, hne, hunits, hscale⟩ :=
    parsePgNumericText_spec h
  have hvalue := toRat_eq_div hunits hscale
  have hfits := hunits ▸ d.fits
  rcases stripFraction_cases (trimAsciiSpace text) with
    ⟨hpoint, hsame⟩ | ⟨front, last, zeros, hpoint, htext, hlast, hzero, hdot, hzeros⟩ |
      ⟨zeros, htext, hzeros⟩
  · -- there is no point
    rw [← hsame, hstrip] at hpoint
    rcases htail with ⟨rfl, rfl⟩ | rfl
    · rw [append_nil] at hne hstrip
      rw [append_nil, length_nil, pow_zero, div_one] at hvalue
      left
      rw [← hsame, hstrip, hvalue]
      exact .integer sign whole hwhole hne
    · exact absurd (mem_append_right _ mem_cons_self) hpoint
  · -- zeros behind the last digit
    rw [hlast] at hstrip
    rcases htail with ⟨rfl, rfl⟩ | rfl
    · rw [append_nil] at hstrip
      rw [htext, hstrip] at hpoint
      rcases mem_append.mp hpoint with hmem | hmem
      · rcases mem_append.mp hmem with hmem | hmem
        · exact absurd hmem (point_notMem_sign sign)
        · exact absurd hmem hwhole.point_notMem
      · exact absurd hmem hzeros.allDigits.point_notMem
    · rcases eq_nil_or_concat fraction with rfl | ⟨digits, final, rfl⟩
      · have := congrArg List.getLast? hstrip
        simp [hdot] at this
      · rw [concat_eq_append] at *
        have hfinal : last = final := by
          have hends := congrArg List.getLast? hstrip
          rw [← cons_append, ← append_assoc, getLast?_concat, getLast?_concat] at hends
          exact Option.some.inj hends
        subst hfinal
        have hform : trimAsciiSpace text =
            sign.text ++ whole ++ '.' :: (digits ++ [last] ++ zeros) := by
          rw [htext, hstrip]
          simp
        rcases eq_or_ne whole [] with rfl | hwholeNe
        · right
          rw [hform, append_nil]
          exact .leadingPoint sign digits last zeros hfraction hzero hzeros hfits
        · left
          have hnum := Numeral.fraction sign whole (digits ++ [last] ++ zeros) hwhole hwholeNe
            (allDigits_append.mpr ⟨hfraction, hzeros.allDigits⟩) (by simp)
          rw [← append_assoc whole, length_append, onInt_zeros sign _ hzeros,
            ← hvalue, ← hform] at hnum
          exact hnum
  · -- a point before the zeros
    rw [hstrip] at htext
    rcases htail with ⟨rfl, rfl⟩ | rfl
    · rw [append_nil] at hne htext
      rcases eq_or_ne zeros [] with rfl | hzerosNe
      · right
        rw [htext]
        rw [append_nil] at hfits
        exact .trailingPoint sign whole hwhole hne hfits
      · left
        have hnum := Numeral.fraction sign whole zeros hwhole hne hzeros.allDigits hzerosNe
        have hshift := onInt_zeros sign whole hzeros 0
        rw [Nat.zero_add] at hshift
        rw [hshift] at hnum
        rw [htext, hvalue, append_nil]
        exact hnum
    · right
      rw [htext]
      exact .secondPoint sign whole fraction zeros hwhole hfraction hne hzeros hfits

theorem not_readsOrThrows_of_malformed (h : Malformed (trimAsciiSpace text)) :
    ¬ ReadsOrThrows text := by
  rintro ⟨hinside, hread⟩
  generalize htrim : trimAsciiSpace text = trimmed at h
  cases h with
  | pointOnly zeros hzeros =>
      refine hinside ⟨by rw [htrim]; exact cons_ne_nil _ _, ?_⟩
      rw [htrim]
      exact stripFraction_point [] hzeros
  | trailingPoint sign whole hwhole hne hfits =>
      have hnil : AllZeros [] := forall_mem_nil _
      have hstrip := stripFraction_point (sign.text ++ whole) hnil
      rw [← htrim, ← append_nil (sign.text ++ whole)] at hstrip
      rw [← append_nil whole] at hne hfits
      have hnum := hread _ ((parsePgNumericText_of_stripped hstrip hwhole
        (forall_mem_nil _) (.inl ⟨rfl, rfl⟩) hne).trans (dif_pos hfits))
      rw [htrim] at hnum
      exact hnum.getLast?_ne (by simp)
  | leadingPoint sign fraction last zeros hfraction hlast hzeros hfits =>
      have hdot : last ≠ '.' := by
        rintro rfl
        exact hfraction.point_notMem (mem_append_right _ mem_cons_self)
      have hpoint : '.' ∈ sign.text ++ '.' :: fraction :=
        mem_append_right _ mem_cons_self
      have hstrip := stripFraction_zeros hpoint hlast hdot hzeros
      have hform : sign.text ++ '.' :: (fraction ++ [last] ++ zeros) =
          sign.text ++ '.' :: fraction ++ [last] ++ zeros := by simp
      rw [← hform, ← htrim] at hstrip
      have hbody : sign.text ++ '.' :: fraction ++ [last] =
          sign.text ++ [] ++ '.' :: (fraction ++ [last]) := by simp
      rw [hbody] at hstrip
      have hnum := hread _ ((parsePgNumericText_of_stripped hstrip (forall_mem_nil _)
        hfraction (.inr rfl) (by simp)).trans (dif_pos hfits))
      rw [htrim] at hnum
      refine hnum.splitSign_ne (fraction ++ [last] ++ zeros) ?_
      rw [splitSign_append sign _ (by decide) (by decide)]
  | secondPoint sign whole fraction zeros hwhole hfraction hne hzeros hfits =>
      have hstrip := stripFraction_point (sign.text ++ whole ++ '.' :: fraction) hzeros
      rw [← htrim] at hstrip
      have hnum := hread _ ((parsePgNumericText_of_stripped hstrip hwhole hfraction (.inr rfl)
        hne).trans (dif_pos hfits))
      rw [htrim] at hnum
      have hcount := hnum.count_point_le
      rw [count_append, count_append, count_cons_self, count_cons_self] at hcount
      omega

theorem readsOrThrows_iff (text : List Char) :
    ReadsOrThrows text ↔ ¬ Malformed (trimAsciiSpace text) := by
  constructor
  · intro h hbad
    exact not_readsOrThrows_of_malformed hbad h
  · intro hgood
    refine ⟨fun houtside => hgood (malformed_of_readsOutside houtside), fun d hread => ?_⟩
    exact (numeral_or_malformed hread).resolve_right hgood

end Condition

end Common
end ContExchange
