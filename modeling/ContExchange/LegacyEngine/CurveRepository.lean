import ContExchange.Common.Double
import ContExchange.Lib.StepFunction
import Mathlib.Tactic

/-!
# Legacy engine: the curve repositories

The bid and the ask curve are sums of the curves of the orders.  `BidCurveRepository` and
`AskCurveRepository` keep them in two treaps, of the slopes and of the constants, whose keys
are the prices at which an order bends.

* `CurvePiece`: what an order adds to a curve;
* `CurveRepository.add`, `BidCurveRepository.deleteOrder`, `AskCurveRepository.deleteOrder`;
* `Tracks`: the treaps hold the sums of some orders;
* `Tracks.add`, `Tracks.bidDelete`, `Tracks.askDelete`.

A treap is the list of its keys and values in the order of the keys.  The repositories are for
any type of coefficients; what they track is about exact ones, the rationals.
-/

namespace ContExchange
namespace LegacyEngine

open Common Lib Breaks List

inductive OrderSide where
  | buy
  | sell
deriving DecidableEq

/-- `ContinuousOrder`, with the base coin of its pair. -/
structure ContinuousOrder where
  orderId : Nat
  base : String := "ETH"
  side : OrderSide
  volume : Nat
  lowPrice : Nat
  highPrice : Nat
  speed : Nat
  low_lt_high : lowPrice < highPrice
deriving DecidableEq

/-- A `double` as a `size_t`, towards zero. -/
def floorSize : Double → Nat
  | .num q => ⌊q⌋₊
  | .nan | .inf _ => 0

namespace ContinuousOrder

variable (o : ContinuousOrder)

/-- `GetRoundedSpeed`. -/
def roundedSpeed (price : Nat) : Nat :=
  let part (distance : Nat) : Nat :=
    floorSize (((Double.ofRat distance).div (Double.ofRat (o.highPrice - o.lowPrice : Nat))).mul
      (Double.ofRat o.speed))
  match o.side with
  | .buy =>
      if price ≤ o.lowPrice then o.speed
      else if o.highPrice ≤ price then 0
      else part (o.highPrice - price)
  | .sell =>
      if o.highPrice ≤ price then o.speed
      else if price ≤ o.lowPrice then 0
      else part (price - o.lowPrice)

/-- The speed at a price before it is rounded: the curve of the order. -/
def curveAt (price : Nat) : ℚ :=
  match o.side with
  | .buy =>
      if price ≤ o.lowPrice then o.speed
      else if o.highPrice ≤ price then 0
      else (o.highPrice - price) / (o.highPrice - o.lowPrice) * o.speed
  | .sell =>
      if o.highPrice ≤ price then o.speed
      else if price ≤ o.lowPrice then 0
      else (price - o.lowPrice) / (o.highPrice - o.lowPrice) * o.speed

end ContinuousOrder

section Pieces

variable {α : Type} [LinearOrder α]

/-- What an order adds to a curve: a slope with a shift between two keys, and a constant up to
a third one.  A fracture is a key with the point before it. -/
@[ext] structure CurvePiece (α F : Type) [LinearOrder α] where
  koeff : F
  lineShift : F
  constant : F
  left : α
  right : α
  top : α
  bottom : WithBot α
  fractures : List (α × α)
  bottom_le : ∀ x : α, bottom ≤ x
  before_lt : ∀ f ∈ fractures, ∀ x, f.1 < x ↔ f.2 ≤ x
  left_mem : (∃ f ∈ fractures, f.2 = left) ∨ ∀ x, left ≤ x
  right_mem : ∃ f ∈ fractures, f.2 = right
  top_mem : ∃ f ∈ fractures, f.2 = top

/-- The slope at a point. -/
def CurvePiece.koeffAt (piece : CurvePiece α ℚ) (p : α) : ℚ :=
  if piece.left ≤ p ∧ p < piece.right then piece.koeff else 0

def CurvePiece.constantAt (piece : CurvePiece α ℚ) (p : α) : ℚ :=
  (if piece.left ≤ p ∧ p < piece.right then piece.lineShift else 0) +
    if p < piece.top then piece.constant else 0

/-- The two treaps. -/
structure CurveRepository (α F : Type) where
  constants : Breaks α F := []
  koeffs : Breaks α F := []

def kKoeffEps : ℚ := 1 / 10 ^ 8

def kConstantEps : ℚ := 1 / 10 ^ 8

/-- `abs` without a namespace, which is the one of `int`. -/
class IntAbs (F : Type) where
  absInt : F → Int

/-- A number as an `int`, towards zero; one that does not fit is `INT_MIN`, whose `abs` is
`INT_MIN` again. -/
instance : IntAbs ℚ where
  absInt x := if |x| < 2 ^ 31 then ⌊|x|⌋ else -2 ^ 31

variable {F : Type} [Zero F] [Add F] [Sub F] [Neg F] [IntAbs F]

/-- A key is made unless it is there, with the value of the key above it. -/
def ensureFracture (t : Breaks α F) (f : α × α) : Breaks α F :=
  if t.keyAbove f.1 = some f.2 then t
  else
    let upper := t.valueAbove f.2
    (t.insertBreak f.2 0).addBetween f.1 f.2 upper

namespace CurveRepository

variable (repo : CurveRepository α F)

/-- `AddOrder`: the fractures, and the three additions. -/
def add (piece : CurvePiece α F) : CurveRepository α F where
  constants :=
    ((piece.fractures.foldl ensureFracture repo.constants).addBetween piece.left piece.right
      piece.lineShift).addBetween piece.bottom piece.top piece.constant
  koeffs :=
    (piece.fractures.foldl ensureFracture repo.koeffs).addBetween piece.left piece.right piece.koeff

/-- The first part of `DeleteOrder`: the three additions, the other way. -/
def subtract (piece : CurvePiece α F) : CurveRepository α F where
  constants :=
    (repo.constants.addBetween piece.left piece.right (-piece.lineShift)).addBetween piece.bottom
      piece.top (-piece.constant)
  koeffs := repo.koeffs.addBetween piece.left piece.right (-piece.koeff)

/-- The values on both sides of a fracture agree. -/
def Agrees (f : α × α) : Prop :=
  (IntAbs.absInt (repo.constants.valueAbove f.1 - repo.constants.valueAbove f.2) : ℚ) <
      kConstantEps ∧
    (IntAbs.absInt (repo.koeffs.valueAbove f.1 - repo.koeffs.valueAbove f.2) : ℚ) < kKoeffEps
deriving Decidable

def removeFracture (key : α) : CurveRepository α F where
  constants := repo.constants.removeBreak key
  koeffs := repo.koeffs.removeBreak key

end CurveRepository

end Pieces

section Sides

variable {F : Type} [Zero F] [Add F] [Sub F] [Neg F] [Mul F] [Div F] [NatCast F] [IntAbs F]

/-- The bid curve of an order: its speed below the low price, and down to zero at the high
one. -/
def bidPiece (o : ContinuousOrder) : CurvePiece ℕ F where
  koeff := o.speed / (o.lowPrice - o.highPrice)
  lineShift := -(o.speed / (o.lowPrice - o.highPrice)) * o.lowPrice
  constant := o.speed
  left := o.lowPrice
  right := o.highPrice
  top := o.highPrice
  bottom := (0 : ℕ)
  fractures :=
    (if 0 < o.lowPrice then [(o.lowPrice - 1, o.lowPrice)] else []) ++
      [(o.highPrice - 1, o.highPrice)]
  bottom_le x := WithBot.coe_le_coe.mpr (Nat.zero_le x)
  before_lt f hf x := by
    have hlt := o.low_lt_high
    rcases List.mem_append.mp hf with hf | hf
    · split_ifs at hf with hpos
      · rw [List.mem_singleton.mp hf]
        dsimp only
        omega
      · cases hf
    · rw [List.mem_singleton.mp hf]
      dsimp only
      omega
  left_mem := by
    rcases Nat.eq_zero_or_pos o.lowPrice with hzero | hpos
    · exact .inr fun x => by omega
    · exact .inl ⟨_, List.mem_append_left _ (by rw [if_pos hpos]; exact List.mem_cons_self), rfl⟩
  right_mem := ⟨_, List.mem_append_right _ List.mem_cons_self, rfl⟩
  top_mem := ⟨_, List.mem_append_right _ List.mem_cons_self, rfl⟩

/-- The ask curve of an order: its speed above the high price, and down to zero at the low
one.  The keys are in the order of `std::greater`, and `kInf` is above all prices. -/
def askPiece (o : ContinuousOrder) : CurvePiece ℕᵒᵈ F where
  koeff := o.speed / (o.highPrice - o.lowPrice)
  lineShift := -(o.speed / (o.highPrice - o.lowPrice)) * o.lowPrice
  constant := o.speed
  left := OrderDual.toDual o.highPrice
  right := OrderDual.toDual o.lowPrice
  top := OrderDual.toDual o.highPrice
  bottom := ⊥
  fractures :=
    [(OrderDual.toDual (o.lowPrice + 1), OrderDual.toDual o.lowPrice),
      (OrderDual.toDual (o.highPrice + 1), OrderDual.toDual o.highPrice)]
  bottom_le _ := bot_le
  before_lt f hf x := by
    rcases List.mem_cons.mp hf with rfl | hf
    · exact Nat.lt_succ_iff
    · rw [List.mem_singleton.mp hf]
      exact Nat.lt_succ_iff
  left_mem := .inl ⟨_, List.mem_cons_of_mem _ List.mem_cons_self, rfl⟩
  right_mem := ⟨_, List.mem_cons_self, rfl⟩
  top_mem := ⟨_, List.mem_cons_of_mem _ List.mem_cons_self, rfl⟩

namespace BidCurveRepository

variable (repo : CurveRepository ℕ F) (order : ContinuousOrder)

def addOrder : CurveRepository ℕ F :=
  repo.add (bidPiece order)

/-- `BidCurveRepository::DeleteOrder`: a fracture is looked at after the one before it. -/
def deleteOrder : CurveRepository ℕ F :=
  (bidPiece (F := F) order).fractures.foldl
    (fun repo f => if repo.Agrees f then repo.removeFracture f.2 else repo)
    (repo.subtract (bidPiece order))

/-- The sum that `GetQuantity` rounds. -/
def curveAt (repo : CurveRepository ℕ ℚ) (price : Nat) : ℚ :=
  repo.koeffs.valueAbove price * price + repo.constants.valueAbove price

end BidCurveRepository

namespace AskCurveRepository

variable (repo : CurveRepository ℕᵒᵈ F) (order : ContinuousOrder)

def addOrder : CurveRepository ℕᵒᵈ F :=
  repo.add (askPiece order)

/-- `AskCurveRepository::DeleteOrder`: both fractures are looked at before one is removed. -/
def deleteOrder : CurveRepository ℕᵒᵈ F :=
  let subtracted := repo.subtract (askPiece order)
  ((askPiece (F := F) order).fractures.filter (fun f => subtracted.Agrees f)).foldl
    (fun repo f => repo.removeFracture f.2) subtracted

/-- The sum that `GetQuantity` rounds. -/
def curveAt (repo : CurveRepository ℕᵒᵈ ℚ) (price : Nat) : ℚ :=
  repo.koeffs.valueAbove (OrderDual.toDual price) * price +
    repo.constants.valueAbove (OrderDual.toDual price)

end AskCurveRepository

end Sides

section Tracks

variable {α : Type} [LinearOrder α] (pieceOf : ContinuousOrder → CurvePiece α ℚ)

def keysOf (live : List ContinuousOrder) : Set α :=
  {k | ∃ o ∈ live, ∃ f ∈ (pieceOf o).fractures, f.2 = k}

def constantSum (live : List ContinuousOrder) (p : α) : ℚ :=
  (live.map fun o => (pieceOf o).constantAt p).sum

/-- The slopes of some orders. -/
def koeffSum (live : List ContinuousOrder) (p : α) : ℚ :=
  (live.map fun o => (pieceOf o).koeffAt p).sum

/-- The treaps hold the sums of some orders, and their keys. -/
structure Tracks (repo : CurveRepository α ℚ) (live : List ContinuousOrder) : Prop where
  constants : repo.constants.Represents (keysOf pieceOf live) (constantSum pieceOf live)
  koeffs : repo.koeffs.Represents (keysOf pieceOf live) (koeffSum pieceOf live)

/-- A difference that `abs` sees. -/
def Visible (difference : ℚ) : Prop :=
  1 ≤ |difference| ∧ |difference| < 2 ^ 31
deriving Decidable

/-- Where an order that goes shares a fracture with one that stays, the curve of the orders
that stay bends visibly. -/
def KeepsFractures (order : ContinuousOrder) (remaining : List ContinuousOrder) : Prop :=
  ∀ f ∈ (pieceOf order).fractures, f.2 ∈ keysOf pieceOf remaining →
    Visible (constantSum pieceOf remaining f.1 - constantSum pieceOf remaining f.2) ∨
      Visible (koeffSum pieceOf remaining f.1 - koeffSum pieceOf remaining f.2)

theorem Visible.one_le_absInt {x : ℚ} (h : Visible x) : (1 : ℚ) ≤ IntAbs.absInt x := by
  change (1 : ℚ) ≤ ((if |x| < 2 ^ 31 then ⌊|x|⌋ else -2 ^ 31 : Int) : ℚ)
  rw [if_pos h.2]
  exact_mod_cast Int.le_floor.mpr (by exact_mod_cast h.1)

variable {pieceOf}

section Fractures

variable {t : Breaks α ℚ} {K : Set α} {g : α → ℚ}

theorem Represents.ensureFracture (h : t.Represents K g) {f : α × α}
    (hbefore : ∀ x, f.1 < x ↔ f.2 ≤ x) :
    (LegacyEngine.ensureFracture t f).Represents (insert f.2 K) g := by
  unfold LegacyEngine.ensureFracture
  split_ifs with hkey
  · refine ⟨h.ascending, fun k hk => ?_, h.value⟩
    rcases hk with rfl | hk
    · exact (keyAbove_eq_some hkey).1
    · exact h.keys k hk
  · refine h.insertBreak hbefore fun hk => hkey ?_
    exact keyAbove_eq h.ascending hk hbefore

theorem Represents.ensureFractures (h : t.Represents K g) (fractures : List (α × α))
    (hbefore : ∀ f ∈ fractures, ∀ x, f.1 < x ↔ f.2 ≤ x) :
    (fractures.foldl LegacyEngine.ensureFracture t).Represents
      (K ∪ {k | ∃ f ∈ fractures, f.2 = k}) g := by
  induction fractures generalizing t K with
  | nil => exact h.mono (by rintro k (hk | ⟨f, hf, -⟩); exacts [hk, absurd hf not_mem_nil])
  | cons f rest ih =>
      obtain ⟨hf, hrest⟩ := forall_mem_cons.mp hbefore
      refine (ih (Represents.ensureFracture h hf) hrest).mono ?_
      rintro k (hk | ⟨f', hf', rfl⟩)
      · exact .inl (.inr hk)
      · rcases mem_cons.mp hf' with rfl | hf'
        · exact .inl (.inl rfl)
        · exact .inr ⟨f', hf', rfl⟩

end Fractures

section Sums

variable {live remaining : List ContinuousOrder} {o : ContinuousOrder} {p : α}

theorem keysOf_append :
    keysOf pieceOf (live ++ [o]) =
      keysOf pieceOf live ∪ {k | ∃ f ∈ (pieceOf o).fractures, f.2 = k} := by
  ext k
  simp [keysOf, or_and_right, exists_or]

theorem keysOf_subset_of_perm (h : live.Perm (o :: remaining)) :
    keysOf pieceOf remaining ⊆ keysOf pieceOf live := by
  rintro k ⟨o', ho', hf⟩
  exact ⟨o', h.mem_iff.mpr (mem_cons_of_mem o ho'), hf⟩

theorem constantSum_append :
    constantSum pieceOf (live ++ [o]) p = constantSum pieceOf live p + (pieceOf o).constantAt p := by
  simp [constantSum]

theorem koeffSum_append :
    koeffSum pieceOf (live ++ [o]) p = koeffSum pieceOf live p + (pieceOf o).koeffAt p := by
  simp [koeffSum]

theorem constantSum_of_perm (h : live.Perm (o :: remaining)) :
    constantSum pieceOf live p = (pieceOf o).constantAt p + constantSum pieceOf remaining p := by
  unfold constantSum
  rw [(h.map _).sum_eq, map_cons, sum_cons]

theorem koeffSum_of_perm (h : live.Perm (o :: remaining)) :
    koeffSum pieceOf live p = (pieceOf o).koeffAt p + koeffSum pieceOf remaining p := by
  unfold koeffSum
  rw [(h.map _).sum_eq, map_cons, sum_cons]

theorem CurvePiece.inside_iff (piece : CurvePiece α ℚ) {f : α × α}
    (hbefore : ∀ x, f.1 < x ↔ f.2 ≤ x) (hf : ∀ f' ∈ piece.fractures, f'.2 ≠ f.2) :
    ((piece.left ≤ f.1 ∧ f.1 < piece.right) ↔ (piece.left ≤ f.2 ∧ f.2 < piece.right)) ∧
      (f.1 < piece.top ↔ f.2 < piece.top) := by
  have hlt : ∀ {x}, (∃ f' ∈ piece.fractures, f'.2 = x) → (f.1 < x ↔ f.2 < x) := by
    rintro x ⟨f', hf', rfl⟩
    rw [hbefore]
    exact ⟨fun hle => lt_of_le_of_ne hle (hf f' hf').symm, le_of_lt⟩
  have hleft : piece.left ≤ f.1 ↔ piece.left ≤ f.2 := by
    rcases piece.left_mem with hmem | hbot
    · exact (not_lt.symm.trans (not_congr (hlt hmem))).trans not_lt
    · exact iff_of_true (hbot _) (hbot _)
  exact ⟨and_congr hleft (hlt piece.right_mem), hlt piece.top_mem⟩

theorem sums_eq_of_notMem {f : α × α} (hbefore : ∀ x, f.1 < x ↔ f.2 ≤ x)
    (hf : f.2 ∉ keysOf pieceOf live) :
    constantSum pieceOf live f.1 = constantSum pieceOf live f.2 ∧
      koeffSum pieceOf live f.1 = koeffSum pieceOf live f.2 := by
  have hinside : ∀ o ∈ live, ∀ f' ∈ (pieceOf o).fractures, f'.2 ≠ f.2 :=
    fun o ho f' hf' hsame => hf ⟨o, ho, f', hf', hsame⟩
  unfold constantSum koeffSum
  constructor
  · congr 1
    refine map_congr_left fun o ho => ?_
    obtain ⟨hslope, htop⟩ := (pieceOf o).inside_iff hbefore (hinside o ho)
    unfold CurvePiece.constantAt
    simp only [hslope, htop]
  · congr 1
    refine map_congr_left fun o ho => ?_
    obtain ⟨hslope, -⟩ := (pieceOf o).inside_iff hbefore (hinside o ho)
    unfold CurvePiece.koeffAt
    simp only [hslope]

end Sums

section Operations

variable {repo : CurveRepository α ℚ} {live remaining : List ContinuousOrder} {o : ContinuousOrder}

theorem tracks_nil : Tracks pieceOf {} [] := by
  have hkeys : keysOf pieceOf [] ⊆ ∅ := by
    rintro k ⟨o, ho, -⟩
    exact absurd ho not_mem_nil
  exact ⟨represents_nil.mono hkeys, represents_nil.mono hkeys⟩

theorem CurvePiece.ends_mem (piece : CurvePiece α ℚ) {K : Set α}
    (hK : {k | ∃ f ∈ piece.fractures, f.2 = k} ⊆ K) :
    ((∃ k ∈ K, (piece.left : WithBot α) = k) ∨ ∀ x : α, (piece.left : WithBot α) ≤ x) ∧
      piece.right ∈ K ∧ piece.top ∈ K := by
  refine ⟨?_, hK piece.right_mem, hK piece.top_mem⟩
  rcases piece.left_mem with hmem | hbot
  · exact .inl ⟨piece.left, hK hmem, rfl⟩
  · exact .inr fun x => WithBot.coe_le_coe.mpr (hbot x)

theorem Tracks.add (h : Tracks pieceOf repo live) :
    Tracks pieceOf (repo.add (pieceOf o)) (live ++ [o]) := by
  obtain ⟨hleft, hright, htop⟩ := (pieceOf o).ends_mem
    (K := keysOf pieceOf live ∪ {k | ∃ f ∈ (pieceOf o).fractures, f.2 = k}) Set.subset_union_right
  have hbefore := (pieceOf o).before_lt
  have hconstants := ((Represents.ensureFractures h.constants _ hbefore).addBetween
    (a := (pieceOf o).lineShift) hleft hright).addBetween (a := (pieceOf o).constant)
      (.inr (pieceOf o).bottom_le) htop
  have hkoeffs := (Represents.ensureFractures h.koeffs _ hbefore).addBetween
    (a := (pieceOf o).koeff) hleft hright
  rw [← keysOf_append] at hconstants hkoeffs
  refine ⟨⟨hconstants.ascending, hconstants.keys, fun p => ?_⟩,
    ⟨hkoeffs.ascending, hkoeffs.keys, fun p => ?_⟩⟩
  · rw [constantSum_append, CurvePiece.constantAt, ← add_assoc]
    refine (hconstants.value p).trans ?_
    simp only [WithBot.coe_le_coe, (pieceOf o).bottom_le, true_and]
  · rw [koeffSum_append, CurvePiece.koeffAt]
    refine (hkoeffs.value p).trans ?_
    simp only [WithBot.coe_le_coe]

theorem Tracks.subtract (h : Tracks pieceOf repo live) (hperm : live.Perm (o :: remaining)) :
    Tracks pieceOf (repo.subtract (pieceOf o)) remaining := by
  have ho : o ∈ live := hperm.mem_iff.mpr mem_cons_self
  obtain ⟨hleft, hright, htop⟩ := (pieceOf o).ends_mem (K := keysOf pieceOf live)
    (fun k ⟨f, hf, hk⟩ => ⟨o, ho, f, hf, hk⟩)
  have hconstants := (h.constants.addBetween (a := -(pieceOf o).lineShift) hleft hright).addBetween
    (a := -(pieceOf o).constant) (.inr (pieceOf o).bottom_le) htop
  have hkoeffs := h.koeffs.addBetween (a := -(pieceOf o).koeff) hleft hright
  have hsub : keysOf pieceOf remaining ⊆ keysOf pieceOf live := keysOf_subset_of_perm hperm
  refine ⟨⟨hconstants.ascending, fun k hk => hconstants.keys k (hsub hk), fun p => ?_⟩,
    ⟨hkoeffs.ascending, fun k hk => hkoeffs.keys k (hsub hk), fun p => ?_⟩⟩
  · refine (hconstants.value p).trans ?_
    rw [constantSum_of_perm hperm, CurvePiece.constantAt]
    simp only [WithBot.coe_le_coe, (pieceOf o).bottom_le, true_and]
    split_ifs <;> ring
  · refine (hkoeffs.value p).trans ?_
    rw [koeffSum_of_perm hperm, CurvePiece.koeffAt]
    simp only [WithBot.coe_le_coe]
    split_ifs <;> ring

theorem Tracks.notMem_of_agrees (h : Tracks pieceOf repo remaining)
    (hkeeps : KeepsFractures pieceOf o remaining) {f : α × α} (hf : f ∈ (pieceOf o).fractures)
    (hagrees : repo.Agrees f) : f.2 ∉ keysOf pieceOf remaining := by
  intro hmem
  obtain ⟨hconstants, hkoeffs⟩ := hagrees
  rw [h.constants.value, h.constants.value] at hconstants
  rw [h.koeffs.value, h.koeffs.value] at hkoeffs
  have hone : ∀ {x : ℚ}, Visible x → ¬ (IntAbs.absInt x : ℚ) < 1 / 10 ^ 8 := fun hbend =>
    not_lt.mpr (le_trans (by norm_num) hbend.one_le_absInt)
  rcases hkeeps f hf hmem with hbend | hbend
  · exact hone hbend hconstants
  · exact hone hbend hkoeffs

theorem Tracks.removeFracture (h : Tracks pieceOf repo remaining) {f : α × α}
    (hbefore : ∀ x, f.1 < x ↔ f.2 ≤ x) (hf : f.2 ∉ keysOf pieceOf remaining) :
    Tracks pieceOf (repo.removeFracture f.2) remaining := by
  obtain ⟨hconstants, hkoeffs⟩ := sums_eq_of_notMem hbefore hf
  have hsub : keysOf pieceOf remaining ⊆ keysOf pieceOf remaining \ {f.2} :=
    fun k hk => ⟨hk, fun hsame => hf (hsame ▸ hk)⟩
  exact ⟨(h.constants.removeBreak hbefore hconstants).mono hsub,
    (h.koeffs.removeBreak hbefore hkoeffs).mono hsub⟩

theorem Tracks.removeAgreed (hkeeps : KeepsFractures pieceOf o remaining)
    (h : Tracks pieceOf repo remaining) (fractures : List (α × α))
    (hall : ∀ f ∈ fractures, f ∈ (pieceOf o).fractures) :
    Tracks pieceOf (fractures.foldl
      (fun repo f => if repo.Agrees f then repo.removeFracture f.2 else repo) repo) remaining := by
  induction fractures generalizing repo with
  | nil => exact h
  | cons f rest ih =>
      obtain ⟨hf, hrest⟩ := forall_mem_cons.mp hall
      refine ih ?_ hrest
      dsimp only
      split_ifs with hagrees
      · exact h.removeFracture ((pieceOf o).before_lt f hf) (h.notMem_of_agrees hkeeps hf hagrees)
      · exact h

theorem Tracks.removeFractures (h : Tracks pieceOf repo remaining) (fractures : List (α × α))
    (hall : ∀ f ∈ fractures, (∀ x, f.1 < x ↔ f.2 ≤ x) ∧ f.2 ∉ keysOf pieceOf remaining) :
    Tracks pieceOf (fractures.foldl (fun repo f => repo.removeFracture f.2) repo) remaining := by
  induction fractures generalizing repo with
  | nil => exact h
  | cons f rest ih =>
      obtain ⟨⟨hbefore, hf⟩, hrest⟩ := forall_mem_cons.mp hall
      exact ih (h.removeFracture hbefore hf) hrest

end Operations

theorem Tracks.bidDelete {repo : CurveRepository ℕ ℚ} {live remaining : List ContinuousOrder}
    {o : ContinuousOrder} (h : Tracks bidPiece repo live) (hperm : live.Perm (o :: remaining))
    (hkeeps : KeepsFractures bidPiece o remaining) :
    Tracks bidPiece (BidCurveRepository.deleteOrder repo o) remaining :=
  (h.subtract hperm).removeAgreed hkeeps _ fun _ hf => hf

theorem Tracks.askDelete {repo : CurveRepository ℕᵒᵈ ℚ} {live remaining : List ContinuousOrder}
    {o : ContinuousOrder} (h : Tracks askPiece repo live) (hperm : live.Perm (o :: remaining))
    (hkeeps : KeepsFractures askPiece o remaining) :
    Tracks askPiece (AskCurveRepository.deleteOrder repo o) remaining := by
  have hsubtracted := h.subtract hperm
  refine hsubtracted.removeFractures _ fun f hf => ?_
  obtain ⟨hmem, hagrees⟩ := mem_filter.mp hf
  exact ⟨(askPiece o).before_lt f hmem,
    hsubtracted.notMem_of_agrees hkeeps hmem (by simpa using hagrees)⟩

end Tracks

section Curves

variable {live : List ContinuousOrder} {o : ContinuousOrder}

theorem sum_mul_add (live : List ContinuousOrder) (f g : ContinuousOrder → ℚ) (x : ℚ) :
    (live.map f).sum * x + (live.map g).sum = (live.map fun o => f o * x + g o).sum := by
  induction live with
  | nil => simp
  | cons o rest ih =>
      simp only [map_cons, sum_cons]
      rw [← ih]
      ring

theorem high_sub_low_pos (o : ContinuousOrder) : (0 : ℚ) < o.highPrice - o.lowPrice :=
  sub_pos.mpr (by exact_mod_cast o.low_lt_high)

theorem bidPiece_curve (hside : o.side = .buy) (price : Nat) :
    (bidPiece o).koeffAt price * price + (bidPiece o).constantAt price = o.curveAt price := by
  have hlt := o.low_lt_high
  have hpos := high_sub_low_pos o
  have hneg : (o.lowPrice : ℚ) - o.highPrice ≠ 0 := by linarith
  unfold CurvePiece.koeffAt CurvePiece.constantAt ContinuousOrder.curveAt bidPiece
  rw [hside]
  dsimp only
  rcases lt_or_ge price o.lowPrice with hlow | hlow
  · rw [if_neg (by omega), if_neg (by omega), if_pos (by omega), if_pos hlow.le]
    ring
  · rcases lt_or_ge price o.highPrice with hhigh | hhigh
    · rw [if_pos ⟨hlow, hhigh⟩, if_pos ⟨hlow, hhigh⟩, if_pos hhigh]
      rcases hlow.eq_or_lt with heq | hlow
      · rw [if_pos heq.ge, heq]
        ring
      · rw [if_neg (by omega), if_neg (by omega)]
        have hne := hpos.ne'
        field_simp
        ring
    · rw [if_neg (by omega), if_neg (by omega), if_neg (by omega), if_neg (by omega), if_pos hhigh]
      ring

theorem askPiece_curve (hside : o.side = .sell) (price : Nat) :
    (askPiece o).koeffAt (OrderDual.toDual price) * price +
      (askPiece o).constantAt (OrderDual.toDual price) = o.curveAt price := by
  have hlt := o.low_lt_high
  have hpos := high_sub_low_pos o
  unfold CurvePiece.koeffAt CurvePiece.constantAt ContinuousOrder.curveAt askPiece
  rw [hside]
  simp only [OrderDual.toDual_le_toDual, OrderDual.toDual_lt_toDual]
  rcases le_or_gt price o.lowPrice with hlow | hlow
  · rw [if_neg (by omega), if_neg (by omega), if_neg (by omega), if_neg (by omega), if_pos hlow]
    ring
  · rcases le_or_gt price o.highPrice with hhigh | hhigh
    · rw [if_pos ⟨hhigh, hlow⟩, if_pos ⟨hhigh, hlow⟩, if_neg (by omega)]
      have hne := hpos.ne'
      rcases hhigh.eq_or_lt with heq | hhigh
      · rw [if_pos heq.ge, heq]
        field_simp
        ring
      · rw [if_neg (by omega), if_neg (by omega)]
        ring
    · rw [if_neg (by omega), if_neg (by omega), if_pos hhigh, if_pos hhigh.le]
      ring

theorem Tracks.bidCurve {repo : CurveRepository ℕ ℚ} (h : Tracks bidPiece repo live)
    (hside : ∀ o ∈ live, o.side = .buy) (price : Nat) :
    BidCurveRepository.curveAt repo price = (live.map fun o => o.curveAt price).sum := by
  unfold BidCurveRepository.curveAt
  rw [h.constants.value, h.koeffs.value, koeffSum, constantSum, sum_mul_add]
  congr 1
  exact map_congr_left fun o ho => bidPiece_curve (hside o ho) price

theorem Tracks.askCurve {repo : CurveRepository ℕᵒᵈ ℚ} (h : Tracks askPiece repo live)
    (hside : ∀ o ∈ live, o.side = .sell) (price : Nat) :
    AskCurveRepository.curveAt repo price = (live.map fun o => o.curveAt price).sum := by
  unfold AskCurveRepository.curveAt
  rw [h.constants.value, h.koeffs.value, koeffSum, constantSum, sum_mul_add]
  congr 1
  exact map_congr_left fun o ho => askPiece_curve (hside o ho) price

end Curves

end LegacyEngine
end ContExchange
