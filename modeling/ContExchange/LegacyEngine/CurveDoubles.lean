import ContExchange.Common.DoubleRounding
import ContExchange.LegacyEngine.CurveRepository

/-!
# Legacy engine: the curves in doubles

The repositories keep their coefficients as doubles.  Nothing is rounded as long as the
coefficients of the orders are multiples of one binary place and their sum is not too large
for it: then the doubles are the exact sums.

* `Within`: multiples of a binary place, up to a bound;
* `CurveRepository.toDouble`: exact coefficients as doubles;
* `Small.add_toDouble`, `Small.subtract_toDouble`, `Small.removeAgreed_toDouble`: a call on the
  doubles is the call on the exact coefficients;
* `FewDigits`: the orders whose curves are exact;
* `HoldsSums`: the doubles are the sums of some orders.

A node of a treap sums up what waits in it before it adds that to its value; sums that are exact
do not depend on this order.
-/

namespace ContExchange
namespace LegacyEngine

open Common Lib Breaks List

section Arithmetic

instance : Zero Double := ⟨.zero⟩
instance : Add Double := ⟨.add⟩
instance : Sub Double := ⟨.sub⟩
instance : Mul Double := ⟨.mul⟩
instance : Div Double := ⟨.div⟩
instance : NatCast Double := ⟨fun n => .ofRat n⟩

instance : Neg Double where
  neg
    | .num q => .num (-q)
    | .inf negative => .inf !negative
    | .nan => .nan

/-- What is not a number does not fit an `int` either. -/
instance : IntAbs Double where
  absInt
    | .num q => IntAbs.absInt q
    | .nan | .inf _ => -2 ^ 31

end Arithmetic

section Within

variable {k : Nat} {bound bound' x y : ℚ}

/-- A multiple of a binary place that is not above a bound. -/
structure Within (k : Nat) (bound x : ℚ) : Prop where
  multiple : ∃ n : ℤ, x = n * (2 : ℚ) ^ (-k : ℤ)
  abs_le : |x| ≤ bound

/-- The largest number whose binary digits all fit, down to a place. -/
def limit (k : Nat) : ℚ :=
  2 ^ 53 / 2 ^ k

theorem Within.mono (h : Within k bound x) (hle : bound ≤ bound') : Within k bound' x :=
  ⟨h.multiple, h.abs_le.trans hle⟩

theorem within_zero (hbound : 0 ≤ bound) : Within k bound 0 :=
  ⟨⟨0, by simp⟩, by simpa using hbound⟩

theorem Within.neg (h : Within k bound x) : Within k bound (-x) := by
  obtain ⟨⟨n, hn⟩, hle⟩ := h
  exact ⟨⟨-n, by rw [hn]; push_cast; ring⟩, by rwa [abs_neg]⟩

theorem Within.add (hx : Within k bound x) (hy : Within k bound' y) :
    Within k (bound + bound') (x + y) := by
  obtain ⟨⟨m, hm⟩, hx⟩ := hx
  obtain ⟨⟨n, hn⟩, hy⟩ := hy
  exact ⟨⟨m + n, by rw [hm, hn]; push_cast; ring⟩, (abs_add_le x y).trans (add_le_add hx hy)⟩

theorem Within.sub (hx : Within k bound x) (hy : Within k bound' y) :
    Within k (bound + bound') (x - y) :=
  sub_eq_add_neg x y ▸ hx.add hy.neg

/-- Such a number is a double. -/
theorem Within.ofRat (hk : k ≤ 1000) (h : Within k bound x) (hbound : bound ≤ limit k) :
    Double.ofRat x = .num x := by
  obtain ⟨⟨n, rfl⟩, hle⟩ := h
  have hpos : (0 : ℚ) < (2 : ℚ) ^ (-k : ℤ) := by positivity
  have hlimit : limit k = 2 ^ 53 * (2 : ℚ) ^ (-k : ℤ) := by
    rw [limit, zpow_neg, zpow_natCast, div_eq_mul_inv]
  have hn : |(n : ℚ)| ≤ 2 ^ 53 := by
    have hmul := hle.trans hbound
    rw [abs_mul, abs_of_pos hpos, hlimit] at hmul
    exact le_of_mul_le_mul_right hmul hpos
  refine Double.ofRat_zpow ?_ (by omega) (by omega)
  rw [← Int.cast_abs, Int.abs_eq_natAbs] at hn
  exact_mod_cast hn

end Within

section Lists

variable {α : Type} [LinearOrder α] {k : Nat} {bound bound' a : ℚ} {t : Breaks α ℚ} {p key : α}

/-- Exact values as doubles. -/
def toDouble (t : Breaks α ℚ) : Breaks α Double :=
  t.map fun e => (e.1, .num e.2)

def AllWithin (k : Nat) (bound : ℚ) (t : Breaks α ℚ) : Prop :=
  ∀ e ∈ t, Within k bound e.2

theorem keyAbove_toDouble (t : Breaks α ℚ) (p : α) : (toDouble t).keyAbove p = t.keyAbove p := by
  induction t with
  | nil => rfl
  | cons e rest ih =>
      unfold toDouble keyAbove at ih ⊢
      rw [map_cons, above_cons, above_cons]
      split_ifs
      · rfl
      · exact ih

theorem valueAbove_toDouble (t : Breaks α ℚ) (p : α) :
    (toDouble t).valueAbove p = .num (t.valueAbove p) := by
  induction t with
  | nil => rfl
  | cons e rest ih =>
      unfold toDouble at ih ⊢
      rw [map_cons, valueAbove_cons, valueAbove_cons, ih]
      split_ifs <;> rfl

theorem insertBreak_toDouble (t : Breaks α ℚ) (key : α) :
    (toDouble t).insertBreak key 0 = toDouble (t.insertBreak key 0) := by
  induction t with
  | nil => rfl
  | cons e rest ih =>
      unfold toDouble at ih ⊢
      rw [map_cons, insertBreak_cons, insertBreak_cons, ih]
      split_ifs <;> rfl

theorem removeBreak_toDouble (t : Breaks α ℚ) (key : α) :
    (toDouble t).removeBreak key = toDouble (t.removeBreak key) := by
  induction t with
  | nil => rfl
  | cons e rest ih =>
      unfold toDouble at ih ⊢
      rw [map_cons, removeBreak_cons, removeBreak_cons, ih]
      split_ifs <;> rfl

theorem AllWithin.valueAbove (h : AllWithin k bound t) (hbound : 0 ≤ bound) (p : α) :
    Within k bound (t.valueAbove p) := by
  unfold Breaks.valueAbove
  cases habove : t.above p with
  | none => exact within_zero hbound
  | some e => exact h e (mem_of_above habove).1

theorem AllWithin.removeBreak (h : AllWithin k bound t) : AllWithin k bound (t.removeBreak key) :=
  fun e he => h e (eraseP_subset he)

theorem mem_insertBreak {v : ℚ} {e : α × ℚ} (he : e ∈ t.insertBreak key v) :
    e = (key, v) ∨ e ∈ t := by
  unfold insertBreak at he
  rcases mem_append.mp he with he | he
  · exact .inr ((takeWhile_sublist _).subset he)
  · rcases mem_cons.mp he with rfl | he
    · exact .inl rfl
    · exact .inr ((dropWhile_sublist _).subset he)

theorem AllWithin.insertBreak {v : ℚ} (h : AllWithin k bound t) (hv : Within k bound v) :
    AllWithin k bound (t.insertBreak key v) := by
  intro e he
  rcases mem_insertBreak he with rfl | he
  · exact hv
  · exact h e he

/-- An addition is exact where both numbers have few digits. -/
theorem AllWithin.addBetween (h : AllWithin k bound t) (hk : k ≤ 1000) (ha : Within k bound' a)
    (hlimit : bound + bound' ≤ limit k) (l : WithBot α) (r : α) :
    (toDouble t).addBetween l r (.num a) = toDouble (t.addBetween l r a) ∧
      AllWithin k (bound + bound') (t.addBetween l r a) := by
  have hbound' : 0 ≤ bound' := (abs_nonneg a).trans ha.abs_le
  constructor
  · unfold toDouble Breaks.addBetween
    rw [map_map, map_map]
    refine map_congr_left fun e he => ?_
    dsimp only [Function.comp_apply]
    split_ifs
    · exact congrArg _ (((h e he).add ha).ofRat hk hlimit)
    · rfl
  · intro e he
    obtain ⟨e', he', rfl⟩ := mem_map.mp he
    split_ifs
    · exact (h e' he').add ha
    · exact (h e' he').mono (le_add_of_nonneg_right hbound')

variable {f : α × α}

theorem ensureFracture_toDouble (ht : t.Ascending) (h : AllWithin k bound t) (hk : k ≤ 1000)
    (hbound : 0 ≤ bound) (hlimit : bound + bound ≤ limit k) (hbefore : ∀ x, f.1 < x ↔ f.2 ≤ x) :
    ensureFracture (toDouble t) f = toDouble (ensureFracture t f) ∧
      AllWithin k bound (ensureFracture t f) := by
  unfold ensureFracture
  rw [keyAbove_toDouble, valueAbove_toDouble, insertBreak_toDouble]
  split_ifs with hkey
  · exact ⟨rfl, h⟩
  · have hvalue := h.valueAbove hbound f.2
    have hinserted : AllWithin k bound (t.insertBreak f.2 0) := h.insertBreak (within_zero hbound)
    refine ⟨(hinserted.addBetween hk hvalue hlimit f.1 f.2).1, ?_⟩
    have hout : f.2 ∉ t.keys := fun hmem => hkey (keyAbove_eq ht hmem hbefore)
    rw [addBetween_insertBreak hbefore hout]
    exact h.insertBreak hvalue

theorem ascending_ensureFractures (ht : t.Ascending) (fractures : List (α × α))
    (hbefore : ∀ f ∈ fractures, ∀ x, f.1 < x ↔ f.2 ≤ x) :
    (fractures.foldl ensureFracture t).Ascending :=
  (Represents.ensureFractures (K := ∅) ⟨ht, fun _ hmem => absurd hmem (Set.notMem_empty _),
    fun _ => rfl⟩ fractures hbefore).ascending

theorem ensureFractures_toDouble (ht : t.Ascending) (h : AllWithin k bound t) (hk : k ≤ 1000)
    (hbound : 0 ≤ bound) (hlimit : bound + bound ≤ limit k) (fractures : List (α × α))
    (hbefore : ∀ f ∈ fractures, ∀ x, f.1 < x ↔ f.2 ≤ x) :
    fractures.foldl ensureFracture (toDouble t) = toDouble (fractures.foldl ensureFracture t) ∧
      AllWithin k bound (fractures.foldl ensureFracture t) := by
  induction fractures generalizing t with
  | nil => exact ⟨rfl, h⟩
  | cons f rest ih =>
      obtain ⟨hf, hrest⟩ := forall_mem_cons.mp hbefore
      obtain ⟨hsame, hwithin⟩ := ensureFracture_toDouble ht h hk hbound hlimit hf
      rw [foldl_cons, foldl_cons, hsame]
      exact ih (ascending_ensureFractures ht [f] (by simpa using hf)) hwithin hrest

end Lists

section Repositories

variable {α : Type} [LinearOrder α]

def CurvePiece.toDouble (piece : CurvePiece α ℚ) : CurvePiece α Double :=
  { piece with
    koeff := .num piece.koeff, lineShift := .num piece.lineShift, constant := .num piece.constant }

/-- The coefficients of a piece have few digits and are together not above a weight. -/
structure CurvePiece.Weighs (piece : CurvePiece α ℚ) (k : Nat) (weight : ℚ) : Prop where
  koeff : Within k |piece.koeff| piece.koeff
  lineShift : Within k |piece.lineShift| piece.lineShift
  constant : Within k |piece.constant| piece.constant
  le : |piece.koeff| + |piece.lineShift| + |piece.constant| ≤ weight

namespace CurveRepository

variable {exact : CurveRepository α ℚ} {piece : CurvePiece α ℚ} {k : Nat} {bound weight : ℚ}

/-- The repository of doubles with the same coefficients. -/
def toDouble (exact : CurveRepository α ℚ) : CurveRepository α Double where
  constants := LegacyEngine.toDouble exact.constants
  koeffs := LegacyEngine.toDouble exact.koeffs

/-- The keys ascend, and the values have few digits. -/
structure Small (exact : CurveRepository α ℚ) (k : Nat) (bound : ℚ) : Prop where
  constantsAscend : exact.constants.Ascending
  koeffsAscend : exact.koeffs.Ascending
  constants : AllWithin k bound exact.constants
  koeffs : AllWithin k bound exact.koeffs
  nonneg : 0 ≤ bound

theorem Small.removeFracture (h : exact.Small k bound) (key : α) :
    (exact.removeFracture key).Small k bound :=
  ⟨h.constantsAscend.removeBreak, h.koeffsAscend.removeBreak, h.constants.removeBreak,
    h.koeffs.removeBreak, h.nonneg⟩

theorem removeFracture_toDouble (exact : CurveRepository α ℚ) (key : α) :
    exact.toDouble.removeFracture key = (exact.removeFracture key).toDouble :=
  congrArg₂ CurveRepository.mk (removeBreak_toDouble _ _) (removeBreak_toDouble _ _)

/-- Three additions to the two lists of a repository. -/
theorem Small.addBetween (h : exact.Small k bound) (hk : k ≤ 1000)
    (hlimit : bound + weight ≤ limit k) {shift constant koeff : ℚ}
    (hshift : Within k |shift| shift) (hconstant : Within k |constant| constant)
    (hkoeff : Within k |koeff| koeff) (hle : |koeff| + |shift| + |constant| ≤ weight)
    (left right top : α) (bottom : WithBot α) :
    CurveRepository.mk (((LegacyEngine.toDouble exact.constants).addBetween left right
        (.num shift)).addBetween bottom top (.num constant))
      ((LegacyEngine.toDouble exact.koeffs).addBetween left right (.num koeff)) =
        (CurveRepository.mk ((exact.constants.addBetween left right shift).addBetween bottom top
          constant) (exact.koeffs.addBetween left right koeff)).toDouble ∧
      (CurveRepository.mk ((exact.constants.addBetween left right shift).addBetween bottom top
          constant) (exact.koeffs.addBetween left right koeff)).Small k (bound + weight) := by
  have hkoeffNonneg := abs_nonneg koeff
  have hshiftNonneg := abs_nonneg shift
  have hconstantNonneg := abs_nonneg constant
  have hnonneg := h.nonneg
  obtain ⟨hsame, hwithin⟩ := h.constants.addBetween hk hshift (by linarith) left right
  obtain ⟨hsame', hwithin'⟩ := hwithin.addBetween hk hconstant (by linarith) bottom top
  obtain ⟨hsame'', hwithin''⟩ := h.koeffs.addBetween hk hkoeff (by linarith) left right
  refine ⟨?_, h.constantsAscend.addBetween.addBetween, h.koeffsAscend.addBetween, ?_, ?_, ?_⟩
  · exact congrArg₂ CurveRepository.mk (by rw [hsame, hsame']) hsame''
  · exact fun e he => (hwithin' e he).mono (by linarith)
  · exact fun e he => (hwithin'' e he).mono (by linarith)
  · linarith

section Pieces

variable (h : exact.Small k bound) (hk : k ≤ 1000) (hpiece : piece.Weighs k weight)
  (hlimit : 2 * (bound + weight) ≤ limit k)

include h hk hpiece hlimit

theorem Small.add_toDouble :
    exact.toDouble.add piece.toDouble = (exact.add piece).toDouble ∧
      (exact.add piece).Small k (bound + weight) := by
  have hbound := h.nonneg
  have hweight : 0 ≤ weight :=
    le_trans (add_nonneg (add_nonneg (abs_nonneg _) (abs_nonneg _)) (abs_nonneg _)) hpiece.le
  have htwice : bound + bound ≤ limit k := by linarith
  obtain ⟨hconstants, hconstantsWithin⟩ := ensureFractures_toDouble h.constantsAscend h.constants
    hk hbound htwice piece.fractures piece.before_lt
  obtain ⟨hkoeffs, hkoeffsWithin⟩ := ensureFractures_toDouble h.koeffsAscend h.koeffs
    hk hbound htwice piece.fractures piece.before_lt
  have hsmall : (CurveRepository.mk (piece.fractures.foldl ensureFracture exact.constants)
      (piece.fractures.foldl ensureFracture exact.koeffs)).Small k bound :=
    ⟨ascending_ensureFractures h.constantsAscend _ piece.before_lt,
      ascending_ensureFractures h.koeffsAscend _ piece.before_lt, hconstantsWithin,
      hkoeffsWithin, hbound⟩
  have hadd := hsmall.addBetween hk (show bound + weight ≤ limit k by linarith)
    hpiece.lineShift hpiece.constant hpiece.koeff hpiece.le piece.left piece.right piece.top
    piece.bottom
  dsimp only at hadd
  rw [← hconstants, ← hkoeffs] at hadd
  exact hadd

theorem Small.subtract_toDouble :
    exact.toDouble.subtract piece.toDouble = (exact.subtract piece).toDouble ∧
      (exact.subtract piece).Small k (bound + weight) := by
  have hbound := h.nonneg
  have hweight : 0 ≤ weight :=
    le_trans (add_nonneg (add_nonneg (abs_nonneg _) (abs_nonneg _)) (abs_nonneg _)) hpiece.le
  refine h.addBetween hk (show bound + weight ≤ limit k by linarith) ?_ ?_ ?_ ?_ piece.left
    piece.right piece.top piece.bottom
  · rw [abs_neg]
    exact hpiece.lineShift.neg
  · rw [abs_neg]
    exact hpiece.constant.neg
  · rw [abs_neg]
    exact hpiece.koeff.neg
  · rw [abs_neg, abs_neg, abs_neg]
    exact hpiece.le

end Pieces

/-- The differences at a fracture are exact too. -/
theorem agrees_toDouble (h : exact.Small k bound) (hk : k ≤ 1000) (hlimit : 2 * bound ≤ limit k)
    (f : α × α) : exact.toDouble.Agrees f ↔ exact.Agrees f := by
  have hsub : ∀ {t : Breaks α ℚ}, AllWithin k bound t →
      (LegacyEngine.toDouble t).valueAbove f.1 - (LegacyEngine.toDouble t).valueAbove f.2 =
        .num (t.valueAbove f.1 - t.valueAbove f.2) := by
    intro t ht
    rw [valueAbove_toDouble, valueAbove_toDouble]
    exact ((ht.valueAbove h.nonneg f.1).sub (ht.valueAbove h.nonneg f.2)).ofRat hk (by linarith)
  unfold Agrees
  change (IntAbs.absInt ((LegacyEngine.toDouble exact.constants).valueAbove f.1 -
      (LegacyEngine.toDouble exact.constants).valueAbove f.2) : ℚ) < kConstantEps ∧
    (IntAbs.absInt ((LegacyEngine.toDouble exact.koeffs).valueAbove f.1 -
      (LegacyEngine.toDouble exact.koeffs).valueAbove f.2) : ℚ) < kKoeffEps ↔ _
  rw [hsub h.constants, hsub h.koeffs]
  exact Iff.rfl

theorem Small.removeAgreed_toDouble (h : exact.Small k bound) (hk : k ≤ 1000)
    (hlimit : 2 * bound ≤ limit k) (fractures : List (α × α)) :
    fractures.foldl (fun repo f => if repo.Agrees f then repo.removeFracture f.2 else repo)
        exact.toDouble =
      (fractures.foldl (fun repo f => if repo.Agrees f then repo.removeFracture f.2 else repo)
        exact).toDouble ∧
      (fractures.foldl (fun repo f => if repo.Agrees f then repo.removeFracture f.2 else repo)
        exact).Small k bound := by
  induction fractures generalizing exact with
  | nil => exact ⟨rfl, h⟩
  | cons f rest ih =>
      rw [foldl_cons, foldl_cons]
      simp only [agrees_toDouble h hk hlimit f]
      split_ifs
      · rw [removeFracture_toDouble]
        exact ih (h.removeFracture f.2)
      · exact ih h

theorem Small.removeFractures_toDouble (h : exact.Small k bound) (fractures : List (α × α)) :
    fractures.foldl (fun repo f => repo.removeFracture f.2) exact.toDouble =
        (fractures.foldl (fun repo f => repo.removeFracture f.2) exact).toDouble ∧
      (fractures.foldl (fun repo f => repo.removeFracture f.2) exact).Small k bound := by
  induction fractures generalizing exact with
  | nil => exact ⟨rfl, h⟩
  | cons f rest ih =>
      rw [foldl_cons, foldl_cons, removeFracture_toDouble]
      exact ih (h.removeFracture f.2)

end CurveRepository

end Repositories

section Orders

variable {k : Nat} {o : ContinuousOrder}

/-- The slope of an order, up to its sign. -/
def ContinuousOrder.slope (o : ContinuousOrder) : ℚ :=
  o.speed / ((o.highPrice : ℚ) - o.lowPrice)

/-- The largest value that the coefficients of an order have together. -/
def ContinuousOrder.weight (o : ContinuousOrder) : ℚ :=
  o.slope + o.slope * o.lowPrice + o.speed

/-- The prices of an order are doubles, and so are its coefficients, down to a place. -/
structure FewDigits (k : Nat) (o : ContinuousOrder) : Prop where
  price : o.highPrice ≤ 2 ^ 53
  slope : ∃ n : ℤ, o.slope = n * (2 : ℚ) ^ (-k : ℤ)
  shift : ∃ n : ℤ, o.slope * o.lowPrice = n * (2 : ℚ) ^ (-k : ℤ)
  weight : o.weight ≤ limit k

theorem slope_nonneg (o : ContinuousOrder) : 0 ≤ o.slope :=
  div_nonneg (Nat.cast_nonneg _) (high_sub_low_pos o).le

theorem limit_le (k : Nat) : limit k ≤ 2 ^ 53 :=
  div_le_self (by norm_num) (one_le_pow₀ (by norm_num))

/-- The coefficients of an order, each with its own size. -/
theorem FewDigits.within (h : FewDigits k o) :
    Within k (o.slope) (o.slope) ∧ Within k (o.slope * o.lowPrice) (o.slope * o.lowPrice) ∧
      Within k o.speed o.speed := by
  have hslope := slope_nonneg o
  have hshift : 0 ≤ o.slope * o.lowPrice := mul_nonneg hslope (Nat.cast_nonneg _)
  refine ⟨⟨h.slope, (abs_of_nonneg hslope).le⟩, ⟨h.shift, (abs_of_nonneg hshift).le⟩,
    ⟨⟨o.speed * 2 ^ k, ?_⟩, (abs_of_nonneg (Nat.cast_nonneg _)).le⟩⟩
  rw [zpow_neg, zpow_natCast]
  push_cast
  rw [mul_assoc, mul_inv_cancel₀ (by positivity), mul_one]

theorem natCast_double {n : Nat} (hn : n ≤ 2 ^ 53) : (n : Double) = .num n :=
  Double.ofRat_int (n := n) (by simpa using hn)

theorem num_div {a b q : ℚ} (hb : b ≠ 0) (hq : a / b = q) (hdouble : Double.ofRat q = .num q) :
    (Double.num a / Double.num b : Double) = .num q := by
  change (if b ≠ 0 then Double.ofRat (a / b)
    else if a = 0 then Double.nan else .inf (decide (a < 0))) = _
  rw [if_pos hb, hq, hdouble]

theorem num_mul {a b q : ℚ} (hq : a * b = q) (hdouble : Double.ofRat q = .num q) :
    (Double.num a * Double.num b : Double) = .num q := by
  change Double.ofRat (a * b) = _
  rw [hq, hdouble]

theorem natCast_sub_double {m n : Nat} (hm : m ≤ 2 ^ 53) (hn : n ≤ 2 ^ 53) :
    ((m : Double) - n : Double) = .num ((m : ℚ) - n) := by
  rw [natCast_double hm, natCast_double hn]
  change Double.ofRat ((m : ℚ) - n) = _
  have hint := Double.ofRat_int (n := (m : ℤ) - n) (by omega)
  push_cast at hint
  exact hint

/-- The coefficients of such an order are computed exactly. -/
theorem FewDigits.coefficients (hk : k ≤ 1000) (h : FewDigits k o) :
    (o.speed : Double) = .num o.speed ∧
      ((o.speed : Double) / (o.highPrice - o.lowPrice) : Double) = .num (o.slope) ∧
      ((o.speed : Double) / (o.lowPrice - o.highPrice) : Double) = .num (-o.slope) ∧
      (Double.num (o.slope) * o.lowPrice : Double) = .num (o.slope * o.lowPrice) ∧
      (Double.num (-o.slope) * o.lowPrice : Double) = .num (-(o.slope * o.lowPrice)) := by
  obtain ⟨hslope, hshift, hspeed⟩ := h.within
  have hpos := high_sub_low_pos o
  have hslopeNonneg := slope_nonneg o
  have hshiftNonneg : 0 ≤ o.slope * o.lowPrice := mul_nonneg hslopeNonneg (Nat.cast_nonneg _)
  have hspeedNonneg : (0 : ℚ) ≤ o.speed := Nat.cast_nonneg _
  have hweight : o.slope + o.slope * o.lowPrice + o.speed ≤ limit k := h.weight
  have hlow : o.lowPrice ≤ 2 ^ 53 := o.low_lt_high.le.trans h.price
  have hspeedLe : o.speed ≤ 2 ^ 53 := by
    have hle : (o.speed : ℚ) ≤ 2 ^ 53 := le_trans (by linarith) (limit_le k)
    exact_mod_cast hle
  have hslope' : Within k (o.slope) (-o.slope) := hslope.neg
  have hshift' : Within k (o.slope * o.lowPrice) (-(o.slope * o.lowPrice)) := hshift.neg
  rw [natCast_sub_double h.price hlow, natCast_sub_double hlow h.price, natCast_double hspeedLe,
    natCast_double hlow]
  refine ⟨rfl, num_div hpos.ne' rfl (hslope.ofRat hk (by linarith)),
    num_div (by linarith) ?_ (hslope'.ofRat hk (by linarith)),
    num_mul rfl (hshift.ofRat hk (by linarith)), num_mul (neg_mul _ _)
      (hshift'.ofRat hk (by linarith))⟩
  unfold ContinuousOrder.slope
  rw [← div_neg, neg_sub]

theorem FewDigits.weighs {α : Type} [LinearOrder α] {piece : CurvePiece α ℚ}
    (h : FewDigits k o) (hkoeff : piece.koeff = o.slope ∨ piece.koeff = -o.slope)
    (hlineShift : piece.lineShift = o.slope * o.lowPrice ∨
      piece.lineShift = -(o.slope * o.lowPrice))
    (hconstant : piece.constant = o.speed) : piece.Weighs k o.weight := by
  obtain ⟨hslope, hshift, hspeed⟩ := h.within
  have hsize : ∀ {x y : ℚ}, 0 ≤ y → Within k y y → x = y ∨ x = -y → |x| = y ∧ Within k y x := by
    rintro x y hy hwithin (rfl | rfl)
    · exact ⟨abs_of_nonneg hy, hwithin⟩
    · exact ⟨(abs_neg y).trans (abs_of_nonneg hy), hwithin.neg⟩
  obtain ⟨hkoeffSize, hkoeffWithin⟩ := hsize (slope_nonneg o) hslope hkoeff
  obtain ⟨hshiftSize, hshiftWithin⟩ :=
    hsize (mul_nonneg (slope_nonneg o) (Nat.cast_nonneg _)) hshift hlineShift
  obtain ⟨hconstantSize, hconstantWithin⟩ := hsize (Nat.cast_nonneg _) hspeed (.inl hconstant)
  rw [← hkoeffSize] at hkoeffWithin
  rw [← hshiftSize] at hshiftWithin
  rw [← hconstantSize] at hconstantWithin
  refine ⟨hkoeffWithin, hshiftWithin, hconstantWithin, ?_⟩
  rw [hkoeffSize, hshiftSize, hconstantSize]
  exact le_rfl

/-- The two pieces of an order in doubles are the exact ones. -/
theorem FewDigits.bidPiece_eq (hk : k ≤ 1000) (h : FewDigits k o) :
    bidPiece o = (bidPiece o).toDouble ∧ (bidPiece o).Weighs k o.weight := by
  obtain ⟨hspeed, -, hslope, hshift, -⟩ := h.coefficients hk
  have hkoeff : (bidPiece o).koeff = -o.slope := by
    change (o.speed : ℚ) / (o.lowPrice - o.highPrice) = -(o.speed / (o.highPrice - o.lowPrice))
    rw [← div_neg, neg_sub]
  have hlineShift : (bidPiece o).lineShift = o.slope * o.lowPrice := by
    change -(bidPiece (F := ℚ) o).koeff * o.lowPrice = _
    rw [hkoeff, neg_neg]
  refine ⟨CurvePiece.ext ?_ ?_ hspeed rfl rfl rfl rfl rfl,
    h.weighs (.inr hkoeff) (.inl hlineShift) rfl⟩
  · exact hslope.trans (congrArg Double.num hkoeff.symm)
  · change (-(o.speed / (o.lowPrice - o.highPrice)) * o.lowPrice : Double) =
      .num (bidPiece o).lineShift
    rw [hslope, hlineShift, ← hshift]
    change (Double.num (- -o.slope) * _ : Double) = _
    rw [neg_neg]

theorem FewDigits.askPiece_eq (hk : k ≤ 1000) (h : FewDigits k o) :
    askPiece o = (askPiece o).toDouble ∧ (askPiece o).Weighs k o.weight := by
  obtain ⟨hspeed, hslope, -, -, hshift⟩ := h.coefficients hk
  have hlineShift : (askPiece o).lineShift = -(o.slope * o.lowPrice) := neg_mul _ _
  refine ⟨CurvePiece.ext hslope ?_ hspeed rfl rfl rfl rfl rfl,
    h.weighs (.inl rfl) (.inr hlineShift) rfl⟩
  change (-(o.speed / (o.highPrice - o.lowPrice)) * o.lowPrice : Double) =
    .num (askPiece o).lineShift
  rw [hslope, hlineShift, ← hshift]
  rfl

end Orders

section Sides

variable {α : Type} [LinearOrder α] {pieceOf : ContinuousOrder → CurvePiece α ℚ} {k : Nat}
variable {bound : ℚ} {live remaining : List ContinuousOrder} {o : ContinuousOrder}

/-- The doubles of a repository are the exact sums of some orders, of few digits. -/
def HoldsSums (pieceOf : ContinuousOrder → CurvePiece α ℚ) (k : Nat) (bound : ℚ)
    (repo : CurveRepository α Double) (live : List ContinuousOrder) : Prop :=
  ∃ exact : CurveRepository α ℚ,
    repo = exact.toDouble ∧ exact.Small k bound ∧ Tracks pieceOf exact live

theorem holdsSums_nil : HoldsSums pieceOf k 0 {} [] :=
  ⟨{}, rfl, ⟨Pairwise.nil, Pairwise.nil, by simp [AllWithin], by simp [AllWithin], le_rfl⟩,
    tracks_nil⟩

theorem HoldsSums.mono {repo : CurveRepository α Double} {bound' : ℚ}
    (h : HoldsSums pieceOf k bound repo live) (hle : bound ≤ bound') :
    HoldsSums pieceOf k bound' repo live := by
  obtain ⟨exact, rfl, hsmall, htracks⟩ := h
  exact ⟨exact, rfl, ⟨hsmall.constantsAscend, hsmall.koeffsAscend,
    fun e he => (hsmall.constants e he).mono hle, fun e he => (hsmall.koeffs e he).mono hle,
    hsmall.nonneg.trans hle⟩, htracks⟩

theorem HoldsSums.add {repo : CurveRepository α Double} {piece : CurvePiece α Double}
    (h : HoldsSums pieceOf k bound repo live) (hk : k ≤ 1000)
    (hpiece : piece = (pieceOf o).toDouble ∧ (pieceOf o).Weighs k o.weight)
    (hlimit : 2 * (bound + o.weight) ≤ limit k) :
    HoldsSums pieceOf k (bound + o.weight) (repo.add piece) (live ++ [o]) := by
  obtain ⟨exact, rfl, hsmall, htracks⟩ := h
  obtain ⟨rfl, hweighs⟩ := hpiece
  obtain ⟨hadd, hsmall'⟩ := hsmall.add_toDouble hk hweighs hlimit
  exact ⟨_, hadd, hsmall', htracks.add⟩

section Orders

variable (hk : k ≤ 1000) (ho : FewDigits k o) (hlimit : 2 * (bound + o.weight) ≤ limit k)

include hk ho hlimit

theorem HoldsSums.bidAdd {repo : CurveRepository ℕ Double}
    (h : HoldsSums bidPiece k bound repo live) :
    HoldsSums bidPiece k (bound + o.weight) (BidCurveRepository.addOrder repo o)
      (live ++ [o]) :=
  h.add hk (ho.bidPiece_eq hk) hlimit

theorem HoldsSums.askAdd {repo : CurveRepository ℕᵒᵈ Double}
    (h : HoldsSums askPiece k bound repo live) :
    HoldsSums askPiece k (bound + o.weight) (AskCurveRepository.addOrder repo o)
      (live ++ [o]) :=
  h.add hk (ho.askPiece_eq hk) hlimit

theorem HoldsSums.bidDelete {repo : CurveRepository ℕ Double}
    (h : HoldsSums bidPiece k bound repo live) (hperm : live.Perm (o :: remaining))
    (hkeeps : KeepsFractures bidPiece o remaining) :
    HoldsSums bidPiece k (bound + o.weight) (BidCurveRepository.deleteOrder repo o)
      remaining := by
  obtain ⟨exact, rfl, hsmall, htracks⟩ := h
  obtain ⟨hpiece, hweighs⟩ := ho.bidPiece_eq hk
  obtain ⟨hsubtract, hsmall'⟩ := hsmall.subtract_toDouble hk hweighs hlimit
  obtain ⟨hremoved, hsmall''⟩ :=
    hsmall'.removeAgreed_toDouble hk hlimit (bidPiece (F := ℚ) o).fractures
  refine ⟨_, ?_, hsmall'', htracks.bidDelete hperm hkeeps⟩
  unfold BidCurveRepository.deleteOrder
  rw [hpiece, hsubtract]
  exact hremoved

theorem HoldsSums.askDelete {repo : CurveRepository ℕᵒᵈ Double}
    (h : HoldsSums askPiece k bound repo live) (hperm : live.Perm (o :: remaining))
    (hkeeps : KeepsFractures askPiece o remaining) :
    HoldsSums askPiece k (bound + o.weight) (AskCurveRepository.deleteOrder repo o)
      remaining := by
  obtain ⟨exact, rfl, hsmall, htracks⟩ := h
  obtain ⟨hpiece, hweighs⟩ := ho.askPiece_eq hk
  obtain ⟨hsubtract, hsmall'⟩ := hsmall.subtract_toDouble hk hweighs hlimit
  obtain ⟨hremoved, hsmall''⟩ := hsmall'.removeFractures_toDouble
    ((askPiece (F := ℚ) o).fractures.filter (fun f => (exact.subtract (askPiece o)).Agrees f))
  refine ⟨_, ?_, hsmall'', htracks.askDelete hperm hkeeps⟩
  unfold AskCurveRepository.deleteOrder
  rw [hpiece, hsubtract]
  dsimp only
  rw [← hremoved]
  congr 1
  exact filter_congr fun f _ => by
    simp only [CurveRepository.agrees_toDouble hsmall' hk hlimit f]

end Orders

end Sides

end LegacyEngine
end ContExchange
