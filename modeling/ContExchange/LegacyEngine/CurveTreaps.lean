import ContExchange.LegacyEngine.CurveRepository
import ContExchange.LegacyEngine.SegmentTreap

/-!
# Legacy engine: the curves in their treaps

`BidCurveRepository` and `AskCurveRepository` over segment treaps with any priorities.

* `CurveTreaps`: the two treaps, read as a `CurveRepository` by `view`;
* `OrderBookRepo`: what the two repositories have in common;
* `view_addOrder`, `view_deleteOrder`: every call is a call on the lists of keys; a deletion
  looks a key up before it removes the key, so nothing waits in the node that goes;
* `quantities_of_run`: the quantities after a run.
-/

namespace ContExchange
namespace LegacyEngine

open Common Lib SegmentTreap Breaks List OrderDual

section Model

variable {α : Type} [LinearOrder α]

structure CurveTreaps (α : Type) where
  constants : Node α ℚ := .null
  koeffs : Node α ℚ := .null

/-- A key is made unless it is there, with the value of the key above it. -/
def treapFracture (draw : α → Nat) (root : Node α ℚ) (f : α × α) : Node α ℚ :=
  let found := getUpperKey root f.1
  if found.2 = some f.2 then found.1
  else
    let upper := getUpperValue found.1 f.2
    addOnHalfInterval (SegmentTreap.insert upper.1 f.2 (draw f.2)) f.1 f.2 upper.2

namespace CurveTreaps

variable (repo : CurveTreaps α)

/-- The lists of keys and values. -/
def view : CurveRepository α ℚ where
  constants := repo.constants.entries
  koeffs := repo.koeffs.entries

/-- `AddOrder`, from the lowest key on, with the priorities that each treap draws. -/
def add (piece : CurvePiece α ℚ) (lowest : α) (constantDraw koeffDraw : α → Nat) :
    CurveTreaps α where
  constants :=
    addOnHalfInterval
      (addOnHalfInterval (piece.fractures.foldl (treapFracture constantDraw) repo.constants)
        piece.left piece.right piece.lineShift)
      lowest piece.top piece.constant
  koeffs :=
    addOnHalfInterval (piece.fractures.foldl (treapFracture koeffDraw) repo.koeffs)
      piece.left piece.right piece.koeff

/-- The first part of `DeleteOrder`. -/
def subtract (piece : CurvePiece α ℚ) (lowest : α) : CurveTreaps α where
  constants :=
    addOnHalfInterval
      (addOnHalfInterval repo.constants piece.left piece.right (-piece.lineShift))
      lowest piece.top (-piece.constant)
  koeffs := addOnHalfInterval repo.koeffs piece.left piece.right (-piece.koeff)

/-- `GetUpperValue` in both treaps. -/
def upperValues (key : α) : CurveTreaps α × ℚ × ℚ :=
  let constant := getUpperValue repo.constants key
  let koeff := getUpperValue repo.koeffs key
  (⟨constant.1, koeff.1⟩, constant.2, koeff.2)

/-- The values before and at a fracture are the same up to the tolerances. -/
def Close (before next : ℚ × ℚ) : Prop :=
  (IntAbs.absInt (before.1 - next.1) : ℚ) < kConstantEps ∧
    (IntAbs.absInt (before.2 - next.2) : ℚ) < kKoeffEps
deriving Decidable

/-- `Delete` in both treaps. -/
def removeKey (key : α) : CurveTreaps α where
  constants := delete key repo.constants
  koeffs := delete key repo.koeffs

end CurveTreaps

/-- `IOrderBookRepo`: a call that changes the curve, and one that reads it. -/
structure OrderBookRepo (α : Type) where
  addOrder : CurveTreaps α → ContinuousOrder → (Nat → Nat) → (Nat → Nat) → CurveTreaps α
  deleteOrder : CurveTreaps α → ContinuousOrder → CurveTreaps α
  getQuantity : CurveTreaps α → Nat → CurveTreaps α × Nat

end Model

namespace BidCurveRepository

variable (repo : CurveTreaps ℕ) (order : ContinuousOrder)

/-- `BidCurveRepository::AddOrder`. -/
def addToTreaps (constantDraw koeffDraw : Nat → Nat) : CurveTreaps ℕ :=
  repo.add (bidPiece order) 0 constantDraw koeffDraw

/-- A fracture is looked at from both sides, and removed from both treaps. -/
def checkFracture (repo : CurveTreaps ℕ) (f : ℕ × ℕ) : CurveTreaps ℕ :=
  let before := repo.upperValues f.1
  let next := before.1.upperValues f.2
  if CurveTreaps.Close before.2 next.2 then next.1.removeKey f.2 else next.1

/-- `BidCurveRepository::DeleteOrder`. -/
def deleteFromTreaps : CurveTreaps ℕ :=
  (bidPiece (F := ℚ) order).fractures.foldl checkFracture (repo.subtract (bidPiece order) 0)

def getQuantity (price : Nat) : CurveTreaps ℕ × Nat :=
  let found := repo.upperValues price
  (found.1, ⌊found.2.2 * price + found.2.1⌋₊)

end BidCurveRepository

namespace AskCurveRepository

variable (repo : CurveTreaps ℕᵒᵈ) (order : ContinuousOrder)

/-- `Constants::kInf` as a `size_t`: the largest price. -/
def kInf : ℕ :=
  2 ^ 64 - 1

/-- `AskCurveRepository::AddOrder`. -/
def addToTreaps (constantDraw koeffDraw : Nat → Nat) : CurveTreaps ℕᵒᵈ :=
  repo.add (askPiece order) (OrderDual.toDual kInf) (constantDraw ∘ OrderDual.ofDual)
    (koeffDraw ∘ OrderDual.ofDual)

/-- `AskCurveRepository::DeleteOrder`: the fractures are looked at before one is removed. -/
def deleteFromTreaps : CurveTreaps ℕᵒᵈ :=
  let low := OrderDual.toDual order.lowPrice
  let high := OrderDual.toDual order.highPrice
  let repo := repo.subtract (askPiece order) (OrderDual.toDual kInf)
  let firstUpper := repo.upperValues (OrderDual.toDual (order.lowPrice + 1))
  let secondUpper := firstUpper.1.upperValues (OrderDual.toDual (order.highPrice + 1))
  let firstNext := secondUpper.1.upperValues low
  let secondNext := firstNext.1.upperValues high
  let repo := if CurveTreaps.Close firstUpper.2 firstNext.2 then secondNext.1.removeKey low
    else secondNext.1
  if CurveTreaps.Close secondUpper.2 secondNext.2 then repo.removeKey high else repo

def getQuantity (price : Nat) : CurveTreaps ℕᵒᵈ × Nat :=
  let found := repo.upperValues (OrderDual.toDual price)
  (found.1, ⌊found.2.2 * price + found.2.1⌋₊)

end AskCurveRepository

def bidRepo : OrderBookRepo ℕ where
  addOrder := BidCurveRepository.addToTreaps
  deleteOrder := BidCurveRepository.deleteFromTreaps
  getQuantity := BidCurveRepository.getQuantity

def askRepo : OrderBookRepo ℕᵒᵈ where
  addOrder := AskCurveRepository.addToTreaps
  deleteOrder := AskCurveRepository.deleteFromTreaps
  getQuantity := AskCurveRepository.getQuantity

section Refinement

variable {α : Type} [LinearOrder α] {root : Node α ℚ} {repo : CurveTreaps α} {f : α × α}

theorem treapFracture_spec (draw : α → Nat) (ht : Ordered root) (hbefore : ∀ x, f.1 < x ↔ f.2 ≤ x) :
    Ordered (treapFracture draw root f) ∧
      (treapFracture draw root f).entries = ensureFracture root.entries f := by
  obtain ⟨hkept, hfound⟩ := entries_getUpperKey (k := f.1) ht
  have hasc := ordered_iff.mp ht
  unfold treapFracture ensureFracture
  dsimp only
  rw [hfound]
  split_ifs with hkey
  · exact ⟨ordered_iff.mpr (hkept ▸ hasc), hkept⟩
  · have hout : f.2 ∉ root.entries.keys := fun hmem =>
      hkey (keyAbove_eq hasc hmem hbefore)
    have hordered : Ordered (getUpperKey root f.1).1 := ordered_iff.mpr (hkept ▸ hasc)
    obtain ⟨hkept', hvalue⟩ := entries_getUpperValue (k := f.2) hordered
    rw [hkept] at hkept' hvalue
    have hordered' := ordered_iff.mpr (hkept' ▸ hasc)
    have hinsert := entries_insert (k := f.2) hordered' (draw f.2)
    rw [hkept'] at hinsert
    have hordered'' := ordered_iff.mpr (hinsert ▸ hasc.insertBreak hout)
    have hadd := entries_addOnHalfInterval hordered'' f.1 f.2
      (getUpperValue (getUpperKey root f.1).1 f.2).2
    rw [hinsert, hvalue] at hadd
    rw [hvalue]
    refine ⟨ordered_iff.mpr ?_, hadd⟩
    rw [hadd]
    exact (hasc.insertBreak hout).addBetween

theorem treapFractures_spec (draw : α → Nat) (ht : Ordered root) (fractures : List (α × α))
    (hbefore : ∀ f ∈ fractures, ∀ x, f.1 < x ↔ f.2 ≤ x) :
    Ordered (fractures.foldl (treapFracture draw) root) ∧
      (fractures.foldl (treapFracture draw) root).entries =
        fractures.foldl ensureFracture root.entries := by
  induction fractures generalizing root with
  | nil => exact ⟨ht, rfl⟩
  | cons f rest ih =>
      obtain ⟨hf, hrest⟩ := forall_mem_cons.mp hbefore
      obtain ⟨hordered, hentries⟩ := treapFracture_spec draw ht hf
      rw [foldl_cons, foldl_cons, ← hentries]
      exact ih hordered hrest

theorem mem_keys_ensureFractures {t : Breaks α ℚ} {x : α} (fractures : List (α × α))
    (hx : x ∈ (fractures.foldl ensureFracture t).keys) : x ∈ t.keys ∨ ∃ f ∈ fractures, f.2 = x := by
  induction fractures generalizing t with
  | nil => exact .inl hx
  | cons f rest ih =>
      rcases ih hx with hmem | ⟨f', hf', rfl⟩
      · unfold ensureFracture at hmem
        split_ifs at hmem
        · exact .inl hmem
        · rw [keys_addBetween, mem_keys_insertBreak] at hmem
          rcases hmem with rfl | hmem
          · exact .inr ⟨f, mem_cons_self, rfl⟩
          · exact .inl hmem
      · exact .inr ⟨f', mem_cons_of_mem _ hf', rfl⟩

namespace CurveTreaps

/-- The keys of both treaps ascend. -/
structure Sorted (repo : CurveTreaps α) : Prop where
  constants : Ordered repo.constants
  koeffs : Ordered repo.koeffs

def FromBelow (bottom : WithBot α) (lowest : α) (repo : CurveTreaps α) : Prop :=
  ∀ x ∈ repo.view.constants.keys, bottom < x ↔ (lowest : WithBot α) < x

/-- A repository whose treaps are in order holds some lists. -/
structure Shows (repo : CurveTreaps α) (lists : CurveRepository α ℚ) : Prop where
  sorted : repo.Sorted
  view : repo.view = lists

variable {piece : CurvePiece α ℚ} {bottom : WithBot α} {lowest key left right : α}
  {lists : CurveRepository α ℚ}

theorem addOn_spec (ht : Ordered root) {t : Breaks α ℚ} (hentries : root.entries = t)
    (left right : α) (addition : ℚ) :
    Ordered (addOnHalfInterval root left right addition) ∧
      (addOnHalfInterval root left right addition).entries =
        t.addBetween left right addition := by
  have hadd := entries_addOnHalfInterval ht left right addition
  rw [hentries] at hadd
  refine ⟨ordered_iff.mpr ?_, hadd⟩
  rw [hadd, ← hentries]
  exact (ordered_iff.mp ht).addBetween

theorem shows_add (piece : CurvePiece α ℚ) (hs : repo.Sorted) (constantDraw koeffDraw : α → Nat)
    (hbelow : repo.FromBelow piece.bottom lowest)
    (hnew : ∀ f ∈ piece.fractures, piece.bottom < f.2 ↔ (lowest : WithBot α) < f.2) :
    (repo.add piece lowest constantDraw koeffDraw).Shows (repo.view.add piece) ∧
      (repo.add piece lowest constantDraw koeffDraw).FromBelow piece.bottom lowest := by
  obtain ⟨hconstant, hconstants⟩ :=
    treapFractures_spec constantDraw hs.constants piece.fractures piece.before_lt
  obtain ⟨hkoeff, hkoeffs⟩ :=
    treapFractures_spec koeffDraw hs.koeffs piece.fractures piece.before_lt
  obtain ⟨hslope, hslopes⟩ :=
    addOn_spec hkoeff hkoeffs piece.left piece.right piece.koeff
  obtain ⟨hshift, hshifts⟩ :=
    addOn_spec hconstant hconstants piece.left piece.right piece.lineShift
  obtain ⟨hflat, hflats⟩ :=
    addOn_spec hshift hshifts lowest piece.top piece.constant
  have hkeys : ∀ x ∈ ((piece.fractures.foldl ensureFracture repo.view.constants).addBetween
      piece.left piece.right piece.lineShift).keys,
        piece.bottom < x ↔ (lowest : WithBot α) < x := by
    intro x hx
    rw [keys_addBetween] at hx
    rcases mem_keys_ensureFractures _ hx with hx | ⟨f, hf, rfl⟩
    · exact hbelow x hx
    · exact hnew f hf
  have hview : (repo.add piece lowest constantDraw koeffDraw).view = repo.view.add piece := by
    refine congrArg₂ CurveRepository.mk ?_ hslopes
    exact hflats.trans (addBetween_congr_left hkeys).symm
  refine ⟨⟨⟨hflat, hslope⟩, hview⟩, fun x hx => hkeys x ?_⟩
  rwa [hview, CurveRepository.add, keys_addBetween] at hx

theorem shows_subtract (piece : CurvePiece α ℚ) (hs : repo.Sorted)
    (hbelow : repo.FromBelow piece.bottom lowest) :
    (repo.subtract piece lowest).Shows (repo.view.subtract piece) ∧
      (repo.subtract piece lowest).FromBelow piece.bottom lowest := by
  obtain ⟨hslope, hslopes⟩ :=
    addOn_spec hs.koeffs rfl piece.left piece.right (-piece.koeff)
  obtain ⟨hshift, hshifts⟩ :=
    addOn_spec hs.constants rfl piece.left piece.right (-piece.lineShift)
  obtain ⟨hflat, hflats⟩ :=
    addOn_spec hshift hshifts lowest piece.top (-piece.constant)
  have hkeys : ∀ x ∈ (repo.view.constants.addBetween piece.left piece.right
      (-piece.lineShift)).keys, piece.bottom < x ↔ (lowest : WithBot α) < x := by
    intro x hx
    rw [keys_addBetween] at hx
    exact hbelow x hx
  have hview : (repo.subtract piece lowest).view = repo.view.subtract piece := by
    refine congrArg₂ CurveRepository.mk ?_ hslopes
    exact hflats.trans (addBetween_congr_left hkeys).symm
  refine ⟨⟨⟨hflat, hslope⟩, hview⟩, fun x hx => hkeys x ?_⟩
  rwa [hview, CurveRepository.subtract, keys_addBetween] at hx

/-- Nothing waits on the way to a key, in either treap. -/
def SettledAt (key : α) (repo : CurveTreaps α) : Prop :=
  Settled key repo.constants ∧ Settled key repo.koeffs

theorem upperValues_spec (h : repo.Shows lists) (key : α) :
    (repo.upperValues key).1.Shows lists ∧
      (repo.upperValues key).2 = (lists.constants.valueAbove key, lists.koeffs.valueAbove key) ∧
        (repo.upperValues key).1.SettledAt key ∧
          ∀ key', repo.SettledAt key' → (repo.upperValues key).1.SettledAt key' := by
  obtain ⟨hs, rfl⟩ := h
  obtain ⟨hconstants, hconstant⟩ := entries_getUpperValue (k := key) hs.constants
  obtain ⟨hkoeffs, hkoeff⟩ := entries_getUpperValue (k := key) hs.koeffs
  obtain ⟨hfirst, hkept⟩ := settled_getUpperValue hs.constants key
  obtain ⟨hfirst', hkept'⟩ := settled_getUpperValue hs.koeffs key
  refine ⟨⟨⟨?_, ?_⟩, congrArg₂ CurveRepository.mk hconstants hkoeffs⟩,
    Prod.ext hconstant hkoeff, ⟨hfirst, hfirst'⟩, fun key' h => ⟨hkept key' h.1, hkept' key' h.2⟩⟩
  · exact ordered_iff.mpr (hconstants ▸ ordered_iff.mp hs.constants)
  · exact ordered_iff.mpr (hkoeffs ▸ ordered_iff.mp hs.koeffs)

theorem removeKey_spec (h : repo.Shows lists) (hsettled : repo.SettledAt key) :
    (repo.removeKey key).Shows (lists.removeFracture key) ∧
      ∀ key', repo.SettledAt key' → (repo.removeKey key).SettledAt key' := by
  obtain ⟨hs, rfl⟩ := h
  have hconstants := entries_delete hs.constants hsettled.1
  have hkoeffs := entries_delete hs.koeffs hsettled.2
  refine ⟨⟨⟨?_, ?_⟩, congrArg₂ CurveRepository.mk hconstants hkoeffs⟩,
    fun key' h => ⟨h.1.delete key, h.2.delete key⟩⟩
  · exact ordered_iff.mpr (hconstants ▸ (ordered_iff.mp hs.constants).removeBreak)
  · exact ordered_iff.mpr (hkoeffs ▸ (ordered_iff.mp hs.koeffs).removeBreak)

theorem keys_removeFracture_subset {x : α} (hx : x ∈ (lists.removeFracture key).constants.keys) :
    x ∈ lists.constants.keys :=
  ((eraseP_sublist).map _).subset hx

theorem close_iff_agrees (lists : CurveRepository α ℚ) (before key : α) :
    Close (lists.constants.valueAbove before, lists.koeffs.valueAbove before)
      (lists.constants.valueAbove key, lists.koeffs.valueAbove key) ↔ lists.Agrees (before, key) :=
  Iff.rfl

/-- The treaps are in order and hold the sums of some orders. -/
structure Sound (pieceOf : ContinuousOrder → CurvePiece α ℚ) (bottom : WithBot α) (lowest : α)
    (repo : CurveTreaps α) (live : List ContinuousOrder) : Prop where
  sorted : repo.Sorted
  tracks : Tracks pieceOf repo.view live
  fromBelow : repo.FromBelow bottom lowest

theorem Shows.sound {pieceOf : ContinuousOrder → CurvePiece α ℚ} {live : List ContinuousOrder}
    (h : repo.Shows lists) (htracks : Tracks pieceOf lists live)
    (hbelow : repo.FromBelow bottom lowest) : Sound pieceOf bottom lowest repo live :=
  ⟨h.sorted, h.view.symm ▸ htracks, hbelow⟩

theorem Sound.upperValues {pieceOf : ContinuousOrder → CurvePiece α ℚ}
    {live : List ContinuousOrder} (h : Sound pieceOf bottom lowest repo live) (key : α) :
    Sound pieceOf bottom lowest (repo.upperValues key).1 live := by
  obtain ⟨hshows, -⟩ := upperValues_spec ⟨h.sorted, rfl⟩ key
  refine hshows.sound h.tracks ?_
  unfold FromBelow
  rw [hshows.view]
  exact h.fromBelow

end CurveTreaps

end Refinement

section Sides

open CurveTreaps

variable {live remaining : List ContinuousOrder} {o : ContinuousOrder}

variable {repo : CurveTreaps ℕ}

theorem checkFracture_spec {lists : CurveRepository ℕ ℚ} (h : repo.Shows lists) (f : ℕ × ℕ) :
    (BidCurveRepository.checkFracture repo f).Shows
      (if lists.Agrees f then lists.removeFracture f.2 else lists) := by
  obtain ⟨hbefore, hvalues, -, -⟩ := upperValues_spec h f.1
  obtain ⟨hnext, hvalues', hsettled, -⟩ := upperValues_spec hbefore f.2
  unfold BidCurveRepository.checkFracture
  dsimp only
  rw [hvalues, hvalues']
  split_ifs with hclose hagrees hagrees
  · exact (removeKey_spec hnext hsettled).1
  · exact absurd hclose hagrees
  · exact absurd hagrees hclose
  · exact hnext

theorem checkFractures_spec {lists : CurveRepository ℕ ℚ}
    (h : repo.Shows lists) (fractures : List (ℕ × ℕ)) :
    (fractures.foldl BidCurveRepository.checkFracture repo).Shows
      (fractures.foldl (fun lists f => if lists.Agrees f then lists.removeFracture f.2 else lists)
        lists) := by
  induction fractures generalizing repo lists with
  | nil => exact h
  | cons f rest ih => exact ih (checkFracture_spec h f)

theorem shows_bidDelete (hs : repo.Sorted) (o : ContinuousOrder) :
    (BidCurveRepository.deleteFromTreaps repo o).Shows
      (BidCurveRepository.deleteOrder repo.view o) :=
  checkFractures_spec (shows_subtract (bidPiece o) hs fun _ _ => Iff.rfl).1 _

theorem askDeleteOrder_eq (lists : CurveRepository ℕᵒᵈ ℚ) (o : ContinuousOrder) :
    AskCurveRepository.deleteOrder lists o =
      let low := toDual o.lowPrice
      let high := toDual o.highPrice
      let subtracted := lists.subtract (askPiece o)
      let first := if subtracted.Agrees (toDual (o.lowPrice + 1), low) then
        subtracted.removeFracture low else subtracted
      if subtracted.Agrees (toDual (o.highPrice + 1), high) then
        first.removeFracture high else first := by
  unfold AskCurveRepository.deleteOrder
  dsimp only
  rw [askPiece, filter_cons, filter_cons, filter_nil]
  simp only [decide_eq_true_eq]
  split_ifs <;> rfl

variable {repo : CurveTreaps ℕᵒᵈ}

theorem shows_askDelete (hs : repo.Sorted) (o : ContinuousOrder)
    (hbelow : repo.FromBelow ⊥ (toDual AskCurveRepository.kInf)) :
    (AskCurveRepository.deleteFromTreaps repo o).Shows
        (AskCurveRepository.deleteOrder repo.view o) ∧
      (AskCurveRepository.deleteFromTreaps repo o).FromBelow ⊥
        (toDual AskCurveRepository.kInf) := by
  obtain ⟨hsub, hfrom⟩ := shows_subtract (askPiece o) hs hbelow
  obtain ⟨h1, hv1, -, -⟩ := upperValues_spec hsub (toDual (o.lowPrice + 1))
  obtain ⟨h2, hv2, -, -⟩ := upperValues_spec h1 (toDual (o.highPrice + 1))
  obtain ⟨h3, hv3, hs3, -⟩ := upperValues_spec h2 (toDual o.lowPrice)
  obtain ⟨h4, hv4, hs4, hkept4⟩ := upperValues_spec h3 (toDual o.highPrice)
  have hlow := hkept4 _ hs3
  obtain ⟨hremoved, hkept⟩ := removeKey_spec h4 hlow
  have hshows : (AskCurveRepository.deleteFromTreaps repo o).Shows
      (AskCurveRepository.deleteOrder repo.view o) := by
    rw [askDeleteOrder_eq]
    unfold AskCurveRepository.deleteFromTreaps
    dsimp only
    rw [hv1, hv2, hv3, hv4]
    simp only [close_iff_agrees]
    split_ifs
    · exact (removeKey_spec hremoved (hkept _ hs4)).1
    · exact (removeKey_spec h4 hs4).1
    · exact hremoved
    · exact h4
  refine ⟨hshows, fun x hx => hfrom x ?_⟩
  rw [hshows.view, askDeleteOrder_eq] at hx
  rw [hsub.view]
  dsimp only at hx
  split_ifs at hx
  · exact keys_removeFracture_subset (keys_removeFracture_subset hx)
  · exact keys_removeFracture_subset hx
  · exact keys_removeFracture_subset hx
  · exact hx

abbrev BidSound : CurveTreaps ℕ → List ContinuousOrder → Prop :=
  Sound bidPiece (0 : ℕ) 0

abbrev AskSound : CurveTreaps ℕᵒᵈ → List ContinuousOrder → Prop :=
  Sound askPiece ⊥ (OrderDual.toDual AskCurveRepository.kInf)

theorem BidSound.add (h : BidSound repo live) (constantDraw koeffDraw : Nat → Nat) :
    BidSound (bidRepo.addOrder repo o constantDraw koeffDraw) (live ++ [o]) := by
  obtain ⟨hshows, hfrom⟩ := shows_add (bidPiece o) h.sorted constantDraw koeffDraw
    h.fromBelow fun _ _ => Iff.rfl
  exact hshows.sound h.tracks.add hfrom

theorem AskSound.add (h : AskSound repo live)
    (hprice : o.highPrice < 2 ^ 63) (constantDraw koeffDraw : Nat → Nat) :
    AskSound (askRepo.addOrder repo o constantDraw koeffDraw) (live ++ [o]) := by
  have hlow := o.low_lt_high
  have hbelow : ∀ price : ℕ, price ≤ o.highPrice →
      ((⊥ : WithBot ℕᵒᵈ) < toDual price ↔
        ((toDual AskCurveRepository.kInf : ℕᵒᵈ) : WithBot ℕᵒᵈ) < toDual price) := by
    intro price hle
    refine iff_of_true (WithBot.bot_lt_coe _) (WithBot.coe_lt_coe.mpr ?_)
    rw [toDual_lt_toDual]
    unfold AskCurveRepository.kInf
    omega
  obtain ⟨hshows, hfrom⟩ := shows_add (askPiece o) h.sorted
    (constantDraw ∘ ofDual) (koeffDraw ∘ ofDual) h.fromBelow (by
      intro f hf
      rcases mem_cons.mp hf with rfl | hf
      · exact hbelow _ hlow.le
      · rw [mem_singleton.mp hf]
        exact hbelow _ le_rfl)
  exact hshows.sound h.tracks.add hfrom

theorem BidSound.delete (h : BidSound repo live)
    (hperm : live.Perm (o :: remaining)) (hkeeps : KeepsFractures bidPiece o remaining) :
    BidSound (bidRepo.deleteOrder repo o) remaining :=
  (shows_bidDelete h.sorted o).sound (h.tracks.bidDelete hperm hkeeps) fun _ _ => Iff.rfl

theorem AskSound.delete (h : AskSound repo live)
    (hperm : live.Perm (o :: remaining)) (hkeeps : KeepsFractures askPiece o remaining) :
    AskSound (askRepo.deleteOrder repo o) remaining := by
  obtain ⟨hshows, hfrom⟩ := shows_askDelete h.sorted o h.fromBelow
  exact hshows.sound (h.tracks.askDelete hperm hkeeps) hfrom

end Sides

section Runs

open CurveTreaps

variable {α : Type} [LinearOrder α]

/-- A call of a repository; an addition with the priorities of the keys in both treaps. -/
inductive CurveCall where
  | addOrder (order : ContinuousOrder) (constantDraw koeffDraw : Nat → Nat)
  | deleteOrder (order : ContinuousOrder)
  | getQuantity (price : Nat)

/-- A repository with the orders that are in it. -/
structure CurveRun (α : Type) where
  treaps : CurveTreaps α := {}
  live : List ContinuousOrder := []

/-- A call, and the orders that are there after it. -/
def stepCurve (repo : OrderBookRepo α) (s : CurveRun α) : CurveCall → CurveRun α
  | .addOrder order constantDraw koeffDraw =>
      ⟨repo.addOrder s.treaps order constantDraw koeffDraw, s.live ++ [order]⟩
  | .deleteOrder order => ⟨repo.deleteOrder s.treaps order, s.live.erase order⟩
  | .getQuantity price => ⟨(repo.getQuantity s.treaps price).1, s.live⟩

/-- Orders of the side are added, with prices below `2 ^ 63`, and orders that are there are
deleted. -/
def Allowed (side : OrderSide) (s : CurveRun α) : CurveCall → Prop
  | .addOrder order _ _ => order.side = side ∧ order.highPrice < 2 ^ 63
  | .deleteOrder order => order ∈ s.live
  | .getQuantity _ => True

/-- A deletion keeps the fractures of the orders that stay. -/
def KeepsBends (pieceOf : ContinuousOrder → CurvePiece α ℚ) (s : CurveRun α) : CurveCall → Prop
  | .deleteOrder order => KeepsFractures pieceOf order (s.live.erase order)
  | _ => True

/-- The share of its speed that an order has at a distance from its far price. -/
def clamp (x : ℚ) : ℚ :=
  max 0 (min 1 x)

def bidSum (orders : List ContinuousOrder) (price : Nat) : ℚ :=
  (orders.map fun o =>
    o.speed * clamp (((o.highPrice : ℚ) - price) / (o.highPrice - o.lowPrice))).sum

def askSum (orders : List ContinuousOrder) (price : Nat) : ℚ :=
  (orders.map fun o =>
    o.speed * clamp (((price : ℚ) - o.lowPrice) / (o.highPrice - o.lowPrice))).sum

theorem ramp_eq {whole : ℚ} (hpos : 0 < whole) (part speed : ℚ) :
    (if whole ≤ part then speed else if part ≤ 0 then 0 else part / whole * speed) =
      speed * clamp (part / whole) := by
  unfold clamp
  split_ifs with hfull hnone
  · rw [min_eq_left ((one_le_div hpos).mpr hfull), max_eq_right zero_le_one, mul_one]
  · rw [max_eq_left ((min_le_right _ _).trans (div_nonpos_of_nonpos_of_nonneg hnone hpos.le)),
      mul_zero]
  · rw [min_eq_right ((div_le_one hpos).mpr (not_le.mp hfull).le),
      max_eq_right (div_nonneg (not_le.mp hnone).le hpos.le), mul_comm]

theorem curveAt_buy {o : ContinuousOrder} (hside : o.side = .buy) (price : Nat) :
    o.curveAt price =
      o.speed * clamp (((o.highPrice : ℚ) - price) / (o.highPrice - o.lowPrice)) := by
  rw [← ramp_eq (high_sub_low_pos o), ContinuousOrder.curveAt, hside]
  simp only [sub_le_sub_iff_left, sub_nonpos, Nat.cast_le]

theorem curveAt_sell {o : ContinuousOrder} (hside : o.side = .sell) (price : Nat) :
    o.curveAt price =
      o.speed * clamp (((price : ℚ) - o.lowPrice) / (o.highPrice - o.lowPrice)) := by
  rw [← ramp_eq (high_sub_low_pos o), ContinuousOrder.curveAt, hside]
  simp only [sub_le_sub_iff_right, sub_nonpos, Nat.cast_le]

structure RunSound (Holds : CurveTreaps α → List ContinuousOrder → Prop) (side : OrderSide)
    (s : CurveRun α) : Prop where
  treaps : Holds s.treaps s.live
  sides : ∀ o ∈ s.live, o.side = side

theorem RunSound.step {Holds : CurveTreaps α → List ContinuousOrder → Prop} {side : OrderSide}
    {repo : OrderBookRepo α} {pieceOf : ContinuousOrder → CurvePiece α ℚ}
    (hadd : ∀ {treaps live order}, Holds treaps live → order.highPrice < 2 ^ 63 →
      ∀ constantDraw koeffDraw,
        Holds (repo.addOrder treaps order constantDraw koeffDraw) (live ++ [order]))
    (hdelete : ∀ {treaps live order rest}, Holds treaps live → live.Perm (order :: rest) →
      KeepsFractures pieceOf order rest → Holds (repo.deleteOrder treaps order) rest)
    (hquantity : ∀ {treaps live}, Holds treaps live → ∀ price,
      Holds (repo.getQuantity treaps price).1 live)
    (s : CurveRun α) (c : CurveCall) (h : RunSound Holds side s)
    (hc : Allowed side s c ∧ KeepsBends pieceOf s c) :
    RunSound Holds side (stepCurve repo s c) := by
  obtain ⟨hallowed, hkeeps⟩ := hc
  cases c with
  | addOrder order constantDraw koeffDraw =>
      refine ⟨hadd h.treaps hallowed.2 constantDraw koeffDraw, fun o ho => ?_⟩
      rcases mem_append.mp ho with ho | ho
      · exact h.sides o ho
      · exact mem_singleton.mp ho ▸ hallowed.1
  | deleteOrder order =>
      exact ⟨hdelete h.treaps (perm_cons_erase hallowed) hkeeps,
        fun o ho => h.sides o (mem_of_mem_erase ho)⟩
  | getQuantity price => exact ⟨hquantity h.treaps price, h.sides⟩

theorem BidSound.quantity {repo : CurveTreaps ℕ} {live : List ContinuousOrder}
    (h : BidSound repo live) (hside : ∀ o ∈ live, o.side = .buy) (price : Nat) :
    (bidRepo.getQuantity repo price).2 = ⌊bidSum live price⌋₊ := by
  obtain ⟨-, hvalues, -⟩ := upperValues_spec ⟨h.sorted, rfl⟩ price
  have hcurve := h.tracks.bidCurve hside price
  unfold BidCurveRepository.curveAt at hcurve
  change ⌊(repo.upperValues price).2.2 * price + (repo.upperValues price).2.1⌋₊ = _
  rw [hvalues]
  dsimp only
  rw [hcurve, bidSum, map_congr_left fun o ho => curveAt_buy (hside o ho) price]

theorem AskSound.quantity {repo : CurveTreaps ℕᵒᵈ} {live : List ContinuousOrder}
    (h : AskSound repo live) (hside : ∀ o ∈ live, o.side = .sell) (price : Nat) :
    (askRepo.getQuantity repo price).2 = ⌊askSum live price⌋₊ := by
  obtain ⟨-, hvalues, -⟩ := upperValues_spec ⟨h.sorted, rfl⟩ (toDual price)
  have hcurve := h.tracks.askCurve hside price
  unfold AskCurveRepository.curveAt at hcurve
  change ⌊(repo.upperValues (toDual price)).2.2 * price +
    (repo.upperValues (toDual price)).2.1⌋₊ = _
  rw [hvalues]
  dsimp only
  rw [hcurve, askSum, map_congr_left fun o ho => curveAt_sell (hside o ho) price]

theorem sound_nil {pieceOf : ContinuousOrder → CurvePiece α ℚ} {bottom : WithBot α} {lowest : α} :
    Sound pieceOf bottom lowest ({} : CurveTreaps α) [] :=
  ⟨⟨List.Pairwise.nil, List.Pairwise.nil⟩, tracks_nil, fun _ hx => absurd hx not_mem_nil⟩

/-- After runs whose deletions keep the fractures of the orders that stay, the quantities are
the rounded sums of the orders that are there, in any order. -/
theorem quantities_of_run (bids asks : List CurveCall)
    (hbids : StepsMeet (stepCurve bidRepo) (fun s c => Allowed .buy s c ∧ KeepsBends bidPiece s c)
      {} bids)
    (hasks : StepsMeet (stepCurve askRepo) (fun s c => Allowed .sell s c ∧ KeepsBends askPiece s c)
      {} asks) :
    (∀ present, present.Perm (run (stepCurve bidRepo) {} bids).live → ∀ price,
      (bidRepo.getQuantity (run (stepCurve bidRepo) {} bids).treaps price).2 =
        ⌊bidSum present price⌋₊) ∧
      ∀ present, present.Perm (run (stepCurve askRepo) {} asks).live → ∀ price,
        (askRepo.getQuantity (run (stepCurve askRepo) {} asks).treaps price).2 =
          ⌊askSum present price⌋₊ := by
  have hbid := run_invariant (RunSound BidSound .buy)
    (RunSound.step (fun h _ => h.add) BidSound.delete fun h => h.upperValues)
    ⟨sound_nil, fun _ ho => absurd ho List.not_mem_nil⟩ hbids
  have hask := run_invariant (RunSound AskSound .sell)
    (RunSound.step (fun h hhigh => h.add hhigh) AskSound.delete
      fun h price => h.upperValues (OrderDual.toDual price))
    ⟨sound_nil, fun _ ho => absurd ho List.not_mem_nil⟩ hasks
  constructor
  · intro present hperm price
    rw [BidSound.quantity hbid.treaps hbid.sides, bidSum, bidSum, (hperm.map _).sum_eq]
  · intro present hperm price
    rw [AskSound.quantity hask.treaps hask.sides, askSum, askSum, (hperm.map _).sum_eq]

end Runs

section Examples

/-- An order whose curve falls or rises over some prices. -/
def orderBetween (side : OrderSide) (lowPrice width speed : Nat) : ContinuousOrder where
  orderId := lowPrice
  side := side
  volume := 10
  lowPrice := lowPrice
  highPrice := lowPrice + width + 1
  speed := speed
  low_lt_high := Nat.lt_succ_of_le (Nat.le_add_right lowPrice width)

/-- The first order ends where the second begins to fall, with the same slope: the sum is
straight there when the third order goes. -/
def straightCalls : List CurveCall :=
  let first := orderBetween .buy 2 1 2
  let second := orderBetween .buy 4 1 2
  let third := orderBetween .buy 4 0 1
  [.addOrder first id id, .addOrder second id id, .addOrder third id id, .deleteOrder third,
    .deleteOrder first]

instance (side : OrderSide) (s : CurveRun ℕ) : (c : CurveCall) → Decidable (Allowed side s c)
  | .addOrder _ _ _ => inferInstanceAs (Decidable (_ ∧ _))
  | .deleteOrder order => inferInstanceAs (Decidable (order ∈ s.live))
  | .getQuantity _ => isTrue trivial

/-- The break point of the second order is gone, and with it the first order stays. -/
theorem not_quantities_of_run :
    ¬ ∀ calls : List CurveCall, StepsMeet (stepCurve bidRepo) (Allowed .buy) {} calls →
      ∀ price, (bidRepo.getQuantity (run (stepCurve bidRepo) {} calls).treaps price).2 =
        ⌊bidSum (run (stepCurve bidRepo) {} calls).live price⌋₊ := by
  intro h
  have hquantity := h straightCalls (by decide +kernel) 3
  revert hquantity
  decide +kernel

/-- Two orders without a common break point, the first of which goes. -/
def apartCalls (side : OrderSide) : List CurveCall :=
  let first := orderBetween side 2 1 2
  let second := orderBetween side 3 2 1
  [.addOrder first id id, .addOrder second id id, .deleteOrder first]

/-- The second order is left on both sides. -/
theorem quantities_of_apartCalls :
    (∀ present, present.Perm (run (stepCurve bidRepo) {} (apartCalls .buy)).live → ∀ price,
      (bidRepo.getQuantity (run (stepCurve bidRepo) {} (apartCalls .buy)).treaps price).2 =
        ⌊bidSum present price⌋₊) ∧
      ∀ present, present.Perm (run (stepCurve askRepo) {} (apartCalls .sell)).live → ∀ price,
        (askRepo.getQuantity (run (stepCurve askRepo) {} (apartCalls .sell)).treaps price).2 =
          ⌊askSum present price⌋₊ := by
  have hapart : ∀ {α : Type} [LinearOrder α] (pieceOf : ContinuousOrder → CurvePiece α ℚ)
      (gone stays : ContinuousOrder),
      (∀ f ∈ (pieceOf gone).fractures, ∀ f' ∈ (pieceOf stays).fractures, f'.2 ≠ f.2) →
        KeepsFractures pieceOf gone [stays] := by
    rintro α _ pieceOf gone stays hne f hf ⟨o, ho, f', hf', hsame⟩
    rw [List.mem_singleton.mp ho] at hf'
    exact absurd hsame (hne f hf f' hf')
  refine quantities_of_run _ _ ⟨⟨⟨rfl, ?_⟩, trivial⟩, ⟨⟨rfl, ?_⟩, trivial⟩, ⟨?_, ?_⟩, trivial⟩
    ⟨⟨⟨rfl, ?_⟩, trivial⟩, ⟨⟨rfl, ?_⟩, trivial⟩, ⟨?_, ?_⟩, trivial⟩
  · decide
  · decide
  · exact List.mem_cons_self
  · exact hapart bidPiece _ (orderBetween .buy 3 2 1) (by decide)
  · decide
  · decide
  · exact List.mem_cons_self
  · exact hapart askPiece _ (orderBetween .sell 3 2 1) (by decide)

end Examples

end LegacyEngine
end ContExchange
