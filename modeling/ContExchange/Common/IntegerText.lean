import ContExchange.Common.DoubleText

/-!
# Common: integers in texts

The integer readers of the standard library take a number from the front of a text, after
spaces and a sign.

* `numberFront`: what they find;
* `stoll`: `std::stoll`;
* `numberFront_intText`, `stoll_intText`, `stod_intText`: a written number is found again.
-/

namespace ContExchange
namespace Common

open List

/-- The sign, the digits and what follows them, as `std::strtoll` finds them in a text up to
its end mark; `none` without digits. -/
def numberFront (text : List Char) : Option (Bool × Nat × List Char) :=
  let (neg, body) := splitSign ((text.takeWhile (· ≠ '\x00')).dropWhile isAsciiSpace)
  let digits := body.takeWhile Char.isDigit
  if digits = [] then none else some (neg, number digits, body.dropWhile Char.isDigit)

/-- `std::stoll`; nothing when it throws. -/
def stoll (text : List Char) : Option Int :=
  (numberFront text).bind fun (neg, n, _) =>
    let value : Int := if neg then -n else n
    if Int64Fits value then some value else none

section IntegerText

variable {digits : List Char} {c : Char} {n : Int}

theorem numberFront_signed (neg : Bool) (h : AllDigits digits) (hne : digits ≠ []) :
    numberFront ((if neg then ['-'] else []) ++ digits) = some (neg, number digits, []) := by
  obtain ⟨c, rest, rfl⟩ := exists_cons_of_ne_nil hne
  have hc : c.isDigit = true := h c mem_cons_self
  obtain ⟨hminus, hplus⟩ := ne_sign_of_isDigit hc
  have hchars : ∀ x ∈ (if neg then ['-'] else []) ++ c :: rest, x = '-' ∨ x.isDigit = true := by
    intro x hx
    rcases mem_append.mp hx with hx | hx
    · cases neg
      · exact absurd hx not_mem_nil
      · exact .inl (mem_singleton.mp hx)
    · exact .inr (h x hx)
  have hend : ∀ x ∈ (if neg then ['-'] else []) ++ c :: rest, decide (x ≠ '\x00') = true := by
    intro x hx
    rcases hchars x hx with rfl | hx
    · rfl
    · exact decide_eq_true fun heq => by rw [heq] at hx; exact absurd hx (by decide)
  have hspace : ((if neg then ['-'] else []) ++ c :: rest).dropWhile isAsciiSpace =
      (if neg then ['-'] else []) ++ c :: rest := by
    rw [dropWhile_eq_self_iff]
    intro hlen
    rw [isAsciiSpace_eq_false ((hchars _ (getElem_mem hlen)).imp id Or.inr)]
    exact Bool.false_ne_true
  have hsign : splitSign ((if neg then ['-'] else []) ++ c :: rest) = (neg, c :: rest) := by
    cases neg
    · exact splitSign_append .none rest hminus hplus
    · rfl
  obtain ⟨htake, hdrop⟩ := @takeWhile_digits _ [] h (fun _ hx => absurd hx (by simp))
  rw [append_nil] at htake hdrop
  unfold numberFront
  rw [takeWhile_eq_self_iff.mpr hend, hspace, hsign]
  dsimp only
  rw [htake, hdrop, if_neg hne]

theorem numberFront_intText (h : Int64Fits n) :
    numberFront (intText n) = some (decide (n < 0), n.natAbs, []) := by
  have hfront := numberFront_signed (decide (n < 0)) (allDigits_digitsText n.natAbs)
    (digitsText_ne_nil n.natAbs)
  rw [number_digitsText (natAbs_lt_of_fits h)] at hfront
  unfold intText
  simpa only [decide_eq_true_eq] using hfront

theorem signed_natAbs (n : Int) : (if decide (n < 0) then -(n.natAbs : Int) else n.natAbs) = n := by
  split_ifs with hneg
  · have := of_decide_eq_true hneg
    omega
  · have := of_decide_eq_false (Bool.eq_false_of_not_eq_true hneg)
    omega

theorem stoll_intText (h : Int64Fits n) : stoll (intText n) = some n := by
  unfold stoll
  rw [numberFront_intText h, Option.bind_some]
  dsimp only
  rw [signed_natAbs, if_pos h]

theorem notMem_intText (n : Int) (hminus : c ≠ '-') (hdigit : c.isDigit = false) :
    c ∉ intText n := by
  unfold intText
  intro hc
  rcases mem_append.mp hc with hc | hc
  · split at hc
    · exact hminus (mem_singleton.mp hc)
    · exact absurd hc not_mem_nil
  · rw [allDigits_digitsText _ c hc] at hdigit
    exact Bool.noConfusion hdigit

theorem intText_ne_nil (n : Int) : intText n ≠ [] :=
  fun h => digitsText_ne_nil _ (append_eq_nil_iff.mp h).2

theorem stod_intText (h : Int64Fits n) : stod (intText n) = some (Double.ofRat n) := by
  have hsmall := natAbs_lt_of_fits h
  have hfront : frontNumber? (intText n) = some (n : ℚ) := by
    have hplain := fun sign => @frontNumber?_point sign _ [] _ _
      (allDigits_digitsText n.natAbs) (digitsText_ne_nil n.natAbs)
      (fun c hc => absurd hc not_mem_nil) .none
    simp only [pointText, rdropWhile_nil, if_true, append_nil, length_nil, pow_zero,
      div_one, zpow_zero, mul_one, number_digitsText hsmall] at hplain
    unfold intText
    split_ifs with hneg
    · have hminus := hplain .minus
      rwa [show NumeralSign.minus.onInt n.natAbs = n by change -(n.natAbs : Int) = n; omega]
        at hminus
    · have hnone := hplain .none
      rwa [show NumeralSign.none.onInt n.natAbs = n by change (n.natAbs : Int) = n; omega] at hnone
  rcases eq_or_ne n 0 with rfl | hne
  · decide +kernel
  have habs : |(n : ℚ)| = (n.natAbs : ℚ) := by rw [Nat.cast_natAbs, Int.cast_abs]
  obtain ⟨v, hv, hread⟩ := stod_of_front hfront (by
      have hone : (1 : ℚ) ≤ n.natAbs := by exact_mod_cast Int.natAbs_pos.mpr hne
      rw [habs]
      exact (zpow_le_one_of_nonpos₀ one_le_two (by norm_num)).trans hone)
    (by
      have hless : (n.natAbs : ℚ) < 10 ^ 19 := by exact_mod_cast hsmall
      rw [habs]
      refine hless.trans_le (le_trans ?_ (zpow_le_zpow_right₀ one_le_two
        (show (64 : Int) ≤ 1000 by norm_num)))
      norm_num)
  rw [hread, hv]

end IntegerText

end Common
end ContExchange
