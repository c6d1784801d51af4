import ContExchange.Common.Double
import ContExchange.Common.PgDecimals
import Mathlib.Data.Int.Log

/-!
# Common: numbers in the answers of a venue

The adapters take a number out of a JSON answer as a text.

* `Json`: a parsed answer, with what the parser promises about its numbers;
* `Json.text`: `JsonToString`;
* `quantity?`: the number a text states, with or without an exponent;
* `Json.stated`: the number an answer states;
* `truncated`: a number without the places behind a scale.
-/

namespace ContExchange
namespace Common

open List Option NumeralSign

/-- Places behind a point, without the zeros at their end. -/
def pointText (places : List Char) : List Char :=
  let kept := places.rdropWhile (· = '0')
  if kept = [] then [] else '.' :: kept

/-- Sixteen significant digits of a positive number, and the exponent of the first one. -/
def significantDigits (q : ℚ) : Nat × Int :=
  let exponent := Int.log 10 q
  let digits := (Double.roundHalfEven (q / 10 ^ (exponent - 15))).toNat
  if digits < 10 ^ 16 then (digits, exponent) else (10 ^ 15, exponent + 1)

/-- A positive number as a stream of precision 16 writes it. -/
def magnitudeText (q : ℚ) : List Char :=
  let exponent := (significantDigits q).2
  let digits := paddedDigits 16 (significantDigits q).1
  if -4 ≤ exponent ∧ exponent < 16 then
    if 0 ≤ exponent then
      digits.take (exponent.toNat + 1) ++ pointText (digits.drop (exponent.toNat + 1))
    else '0' :: pointText (List.replicate (exponent.natAbs - 1) '0' ++ digits)
  else
    digits.take 1 ++ pointText (digits.drop 1) ++ 'e' :: (if exponent < 0 then '-' else '+') ::
      setw 2 (digitsText exponent.natAbs)

/-- `oss.precision(16)` and `oss << value`. -/
def Double.streamText : Double → List Char
  | .nan => "nan".toList
  | .inf negative => (if negative then ['-'] else []) ++ "inf".toList
  | .num q =>
      if q = 0 then ['0'] else (if q < 0 then ['-'] else []) ++ magnitudeText |q|

theorem bind_eq_ok {ε α β : Type} {x : Except ε α} {f : α → Except ε β} {b : β}
    (h : x >>= f = .ok b) : ∃ a, x = .ok a ∧ f a = .ok b := by
  cases x with
  | error e => cases h
  | ok a => exact ⟨a, rfl, h⟩

/-- A number the parser keeps as an integer: 64 bits, with or without a sign. -/
structure JsonInteger where
  value : Int
  fits : -2 ^ 63 ≤ value ∧ value < 2 ^ 64

/-- A number the parser keeps as a double; it refuses the ones that are too large. -/
structure JsonFloat where
  value : ℚ
  finite : (Double.ofRat value).isFinite = true

/-- `nlohmann::json`; the members of an object have different names. -/
inductive Json where
  | null
  | bool (value : Bool)
  | integer (number : JsonInteger)
  | float (number : JsonFloat)
  | string (text : List Char)
  | array (items : List Json)
  | object (members : List (String × Json))

namespace Json

def typeName : Json → String
  | null => "null"
  | bool _ => "boolean"
  | integer _ | float _ => "number"
  | string _ => "string"
  | array _ => "array"
  | object _ => "object"

/-- The member of a name; only objects have members. -/
def member (json : Json) (key : String) : Option Json :=
  match json with
  | object members => members.lookup key
  | _ => none

/-- `value`, which throws when it is not an object. -/
def value (json : Json) (key : String) (default : Json) : Except String Json :=
  match json with
  | object members => .ok ((members.lookup key).getD default)
  | other => .error ("[json.exception.type_error.306] cannot use value() with " ++ other.typeName)

/-- `value` with a default that is a `bool`. -/
def boolValue (json : Json) (key : String) (default : Bool) : Except String Bool := do
  match ← json.value key (bool default) with
  | bool b => .ok b
  | other =>
      .error ("[json.exception.type_error.302] type must be boolean, but is " ++ other.typeName)

theorem value_eq_ok {json v : Json} {key : String} {default : Json}
    (h : json.value key default = .ok v) : v = (json.member key).getD default := by
  cases json with
  | object members => exact (Except.ok.inj h).symm
  | null => cases h
  | bool b => cases h
  | integer n => cases h
  | float q => cases h
  | string text => cases h
  | array items => cases h

theorem boolValue_eq_ok {json : Json} {key : String} {default b : Bool}
    (h : json.boolValue key default = .ok b) : (json.member key).getD (bool default) = bool b := by
  obtain ⟨v, hvalue, hbool⟩ := bind_eq_ok h
  rw [← value_eq_ok hvalue]
  cases v with
  | bool b' => exact congrArg bool (Except.ok.inj hbool)
  | null => cases hbool
  | object members => cases hbool
  | integer n => cases hbool
  | float q => cases hbool
  | string text => cases hbool
  | array items => cases hbool

/-- `JsonToString`, where `boolText` is what an adapter makes of a `bool`. -/
def text (boolText : Bool → List Char) : Json → List Char
  | string text => text
  | integer number => intText (wrap64 number.value)
  | float number => (Double.ofRat number.value).streamText
  | bool b => boolText b
  | null | array _ | object _ => []

end Json

/-- Digits, with or without a point between them. -/
def unsignedDecimal? (text : List Char) : Option ℚ :=
  match text.splitOnP (· = '.') with
  | [whole] =>
      if !whole.isEmpty && whole.all Char.isDigit then some (number whole) else none
  | [whole, fraction] =>
      if !(whole ++ fraction).isEmpty && (whole ++ fraction).all Char.isDigit then
        some (number (whole ++ fraction) / 10 ^ fraction.length)
      else none
  | _ => none

def decimal? (text : List Char) : Option ℚ :=
  (unsignedDecimal? (splitSign text).2).map (fun q => if (splitSign text).1 then -q else q)

/-- An exponent: digits with a sign in front of them. -/
def exponent? (text : List Char) : Option Int :=
  let signed := splitSign text
  if !signed.2.isEmpty && signed.2.all Char.isDigit then
    some (if signed.1 then -(number signed.2 : Int) else number signed.2)
  else none

/-- A decimal, with or without an exponent; spaces are not looked at. -/
def quantity? (text : List Char) : Option ℚ :=
  match (text.filter (!isAsciiSpace ·)).splitOnP (fun c => c = 'e' || c = 'E') with
  | [mantissa] => decimal? mantissa
  | [mantissa, exponent] => do
      let m ← decimal? mantissa
      let e ← exponent? exponent
      some (m * 10 ^ e)
  | _ => none

/-- The number that a member of an answer states; nothing when it is missing or no number. -/
def Json.stated : Option Json → ℚ
  | some (.integer number) => number.value
  | some (.float number) => number.value
  | some (.string text) => (quantity? text).getD 0
  | _ => 0

/-- A number without its fraction. -/
def truncate (q : ℚ) : Int :=
  if q < 0 then -⌊-q⌋ else ⌊q⌋

/-- A number without its places behind a scale. -/
def truncated (scale : Int) (q : ℚ) : ℚ :=
  truncate (q * 10 ^ scale) * 10 ^ (-scale)

section Truncation

@[simp] theorem truncate_intCast (n : Int) : truncate n = n := by
  unfold truncate
  rw [← Int.cast_neg, Int.floor_intCast, Int.floor_intCast, neg_neg, ite_self]

theorem truncate_neg (q : ℚ) : truncate (-q) = -truncate q := by
  unfold truncate
  rcases lt_trichotomy q 0 with hneg | rfl | hpos
  · rw [if_neg (by linarith), if_pos hneg, neg_neg]
  · simp
  · rw [if_pos (by linarith), if_neg (by linarith), neg_neg]

theorem truncate_div (n d : Nat) : truncate ((n : ℚ) / d) = (n / d : Nat) := by
  unfold truncate
  rw [if_neg (not_lt.mpr (by positivity))]
  exact_mod_cast Rat.floor_natCast_div_natCast n d

theorem truncated_intCast (n : Int) (scale : Nat) : truncated scale n = n := by
  have hpow : (10 : ℚ) ^ (scale : Int) ≠ 0 := by positivity
  have hint : (n : ℚ) * 10 ^ (scale : Int) = (n * 10 ^ scale : Int) := by
    push_cast
    rw [zpow_natCast]
  unfold truncated
  rw [hint, truncate_intCast, ← hint, zpow_neg, mul_assoc, mul_inv_cancel₀ hpow, mul_one]

theorem truncated_onInt_div (sign : NumeralSign) (n places scale : Nat) :
    truncated scale (sign.onInt n / 10 ^ places) =
      (sign.onInt (n * 10 ^ scale / 10 ^ places) : ℚ) * 10 ^ (-(scale : Int)) := by
  have hpos : truncate ((n : ℚ) / 10 ^ places * 10 ^ (scale : Int)) =
      (n * 10 ^ scale / 10 ^ places : Nat) := by
    rw [← truncate_div]
    push_cast
    rw [zpow_natCast, div_mul_eq_mul_div]
  unfold truncated
  cases sign with
  | minus =>
      simp only [onInt, Int.cast_neg, Int.cast_natCast, neg_div, neg_mul, truncate_neg, hpos]
  | none => simp only [onInt, Int.cast_natCast, hpos]
  | plus => simp only [onInt, Int.cast_natCast, hpos]

end Truncation

section Plain

variable {whole fraction tail : List Char}

theorem all_isDigit_iff {text : List Char} : text.all Char.isDigit = true ↔ AllDigits text :=
  all_eq_true

theorem unsignedDecimal?_eq (hwhole : AllDigits whole) (hfraction : AllDigits fraction)
    (htail : FractionTail fraction tail) :
    (unsignedDecimal? (whole ++ tail)).getD 0 =
      number (whole ++ fraction) / 10 ^ fraction.length := by
  have hpoint : ∀ {text : List Char}, AllDigits text → ∀ c ∈ text, decide (c = '.') = false := by
    intro text htext c hc
    rw [decide_eq_false_iff_not]
    rintro rfl
    exact htext.point_notMem hc
  have hdigits : (whole ++ fraction).all Char.isDigit = true :=
    all_isDigit_iff.mpr (allDigits_append.mpr ⟨hwhole, hfraction⟩)
  unfold unsignedDecimal?
  rcases htail with ⟨rfl, rfl⟩ | rfl
  · rw [append_nil] at hdigits ⊢
    rw [splitOnP_eq_singleton (hpoint hwhole)]
    cases whole with
    | nil => simp [number]
    | cons c rest => simp [hdigits]
  · rw [splitOnP_append_cons_of_forall_mem (hpoint hwhole) _ (by simp),
      splitOnP_eq_singleton (hpoint hfraction)]
    dsimp only
    rw [hdigits, Bool.and_true]
    rcases eq_nil_or_concat (whole ++ fraction) with hnil | ⟨front, last, hform⟩
    · simp [hnil, number]
    · simp [hform]

theorem quantity?_of_plain {text : List Char}
    (hrest : (splitSign (text.filter (!isAsciiSpace ·))).2 = whole ++ tail)
    (hwhole : AllDigits whole) (hfraction : AllDigits fraction)
    (htail : FractionTail fraction tail) :
    ∃ sign : NumeralSign,
      (splitSign (text.filter (!isAsciiSpace ·))).1 = decide (sign = .minus) ∧
      (quantity? text).getD 0 = sign.onInt (number (whole ++ fraction)) / 10 ^ fraction.length := by
  obtain ⟨sign, hform, hsign⟩ := splitSign_cases (text.filter (!isAsciiSpace ·))
  refine ⟨sign, hsign, ?_⟩
  have hnone : ∀ c ∈ text.filter (!isAsciiSpace ·),
      (decide (c = 'e') || decide (c = 'E')) = false := by
    have hdigits : ∀ {digits : List Char}, AllDigits digits →
        ∀ c ∈ digits, (decide (c = 'e') || decide (c = 'E')) = false := by
      intro digits hdigits c hc
      have hdigit := hdigits c hc
      rw [Bool.or_eq_false_iff, decide_eq_false_iff_not, decide_eq_false_iff_not]
      constructor <;> rintro rfl <;> revert hdigit <;> decide
    intro c hc
    rw [hform, hrest] at hc
    rcases mem_append.mp hc with hc | hc
    · revert hc
      cases sign <;> simp [NumeralSign.text] <;> rintro rfl <;> decide
    · rcases mem_append.mp hc with hc | hc
      · exact hdigits hwhole c hc
      · rcases htail with ⟨rfl, -⟩ | rfl
        · cases hc
        · rcases mem_cons.mp hc with rfl | hc
          · decide
          · exact hdigits hfraction c hc
  have hvalue := unsignedDecimal?_eq hwhole hfraction htail
  unfold quantity?
  rw [splitOnP_eq_singleton hnone]
  dsimp only
  unfold decimal?
  rw [hrest, hsign]
  cases hread : unsignedDecimal? (whole ++ tail) with
  | none =>
      rw [hread] at hvalue
      have hzero : number (whole ++ fraction) = 0 := by
        have hpos : (10 : ℚ) ^ fraction.length ≠ 0 := by positivity
        rw [getD_none, eq_comm, div_eq_zero_iff, or_iff_left hpos] at hvalue
        exact_mod_cast hvalue
      cases sign <;> simp [hzero, NumeralSign.onInt]
  | some q =>
      rw [hread, getD_some] at hvalue
      cases sign <;> simp [hvalue, NumeralSign.onInt, neg_div]

end Plain

section Integers

variable {n : Int}

theorem splitSign_intText (n : Int) :
    splitSign (intText n) = (decide (n < 0), digitsText n.natAbs) := by
  obtain ⟨c, rest, hcons⟩ := exists_cons_of_ne_nil (digitsText_ne_nil n.natAbs)
  have hdigit : c.isDigit = true :=
    isDigit_of_mem_digitsText (by rw [hcons]; exact mem_cons_self)
  obtain ⟨hminus, hplus⟩ := ne_sign_of_isDigit hdigit
  unfold intText
  rw [hcons]
  by_cases hneg : n < 0
  · rw [if_pos hneg, decide_eq_true hneg]
    exact splitSign_append .minus rest hminus hplus
  · rw [if_neg hneg, decide_eq_false hneg]
    exact splitSign_append .none rest hminus hplus

theorem filter_intText (n : Int) : (intText n).filter (!isAsciiSpace ·) = intText n :=
  filter_eq_self.mpr fun _ hc => by rw [isAsciiSpace_of_mem_intText hc]; rfl

theorem quantity?_intText (h : Int64Fits n) : (quantity? (intText n)).getD 0 = n := by
  have hrest : (splitSign ((intText n).filter (!isAsciiSpace ·))).2 = digitsText n.natAbs ++ [] := by
    rw [filter_intText, splitSign_intText, append_nil]
  have hnil : AllDigits [] := forall_mem_nil _
  obtain ⟨sign, hsign, hvalue⟩ :=
    quantity?_of_plain hrest (allDigits_digitsText _) hnil (.inl ⟨rfl, rfl⟩)
  rw [filter_intText, splitSign_intText] at hsign
  have hback : (if decide (n < 0) = true then -(n.natAbs : Int) else n.natAbs) = n := by
    simp only [decide_eq_true_eq]
    split_ifs <;> omega
  rw [hvalue, append_nil, number_digitsText (natAbs_lt_of_fits h), length_nil, pow_zero,
    div_one, ← onInt_eq, ← hsign, hback]

end Integers

end Common
end ContExchange
