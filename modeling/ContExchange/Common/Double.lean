import Mathlib.Data.Rat.Floor

/-!
# Common: floating-point values

A `double` is a number, an infinity or not a number at all.  Numbers are kept
exactly, as rationals, and every operation rounds its exact result to the nearest
number of the binary64 format, ties to even.  The sign of a zero is not kept.

A comparison with something that is not a number is false, and `!=` is true.
-/

namespace ContExchange
namespace Common

/-- A `double`. -/
inductive Double where
  | nan
  | inf (negative : Bool)
  | num (value : ℚ)
deriving DecidableEq

namespace Double

def isFinite : Double → Bool
  | .num _ => true
  | .nan | .inf _ => false

/-- `<`. -/
def lt : Double → Double → Bool
  | .nan, _ | _, .nan => false
  | .num a, .num b => decide (a < b)
  | .inf negative, .inf negative' => negative && !negative'
  | .inf negative, .num _ => negative
  | .num _, .inf negative => !negative

/-- `<=`. -/
def le : Double → Double → Bool
  | .nan, _ | _, .nan => false
  | a, b => !lt b a

/-- `!=`. -/
def ne : Double → Double → Bool
  | .nan, _ | _, .nan => true
  | a, b => decide (a ≠ b)

protected def max (a b : Double) : Double :=
  if a.lt b then b else a

protected def min (a b : Double) : Double :=
  if b.lt a then b else a

/-- The literal `0.0`. -/
def zero : Double := .num 0

/-- The literal `1.0`. -/
def one : Double := .num 1

/-- The exponent of the leading binary digit of a positive number. -/
def binaryExponent (q : ℚ) : Int :=
  let k := (q.num.natAbs.log2 : Int) - q.den.log2
  if (2 : ℚ) ^ k ≤ q then k else k - 1

/-- The nearest integer, ties to even. -/
def roundHalfEven (q : ℚ) : Int :=
  let r := q - ⌊q⌋
  if r < 1 / 2 then ⌊q⌋
  else if 1 / 2 < r then ⌊q⌋ + 1
  else if ⌊q⌋ % 2 = 0 then ⌊q⌋ else ⌊q⌋ + 1

/-- The nearest double: 53 binary digits, down to `2^(-1074)`. -/
def ofRat (q : ℚ) : Double :=
  if q = 0 then .num 0
  else
    let lastPlace := max (binaryExponent |q| - 52) (-1074)
    let v := (roundHalfEven (|q| / (2 : ℚ) ^ lastPlace) : ℚ) * (2 : ℚ) ^ lastPlace
    if (2 : ℚ) ^ (1024 : Int) ≤ v then .inf (decide (q < 0))
    else .num (if q < 0 then -v else v)

/-- `+`. -/
def add : Double → Double → Double
  | .nan, _ | _, .nan => .nan
  | .num a, .num b => ofRat (a + b)
  | .inf negative, .inf negative' => if negative = negative' then .inf negative else .nan
  | .inf negative, .num _ | .num _, .inf negative => .inf negative

/-- `-`. -/
def sub : Double → Double → Double
  | .nan, _ | _, .nan => .nan
  | .num a, .num b => ofRat (a - b)
  | .inf negative, .inf negative' => if negative = negative' then .nan else .inf negative
  | .inf negative, .num _ => .inf negative
  | .num _, .inf negative => .inf !negative

/-- `*`. -/
def mul : Double → Double → Double
  | .nan, _ | _, .nan => .nan
  | .num a, .num b => ofRat (a * b)
  | .inf negative, .inf negative' => .inf (negative != negative')
  | .inf negative, .num a | .num a, .inf negative =>
      if a = 0 then .nan else .inf (negative != decide (a < 0))

/-- `/`. -/
def div : Double → Double → Double
  | .nan, _ | _, .nan => .nan
  | .num a, .num b =>
      if b ≠ 0 then ofRat (a / b) else if a = 0 then .nan else .inf (decide (a < 0))
  | .inf _, .inf _ => .nan
  | .inf negative, .num a => .inf (negative != decide (a < 0))
  | .num _, .inf _ => .num 0

end Double

end Common
end ContExchange
