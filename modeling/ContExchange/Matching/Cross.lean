import ContExchange.Matching.Fills

/-!
# Matching: the internal cross

What every leg gets from the internal cross, in closed form.  After the first
external phase each leg of a symbol gets its pro rata share of the quantity that
both sides can cross (`crossShare`), unless the share is dust
(`internalLegQty_eq`).
-/

namespace ContExchange
namespace Matching

open Common Lib List

/-- The pro rata share of a leg in the quantity that both sides can cross. -/
def crossShare (symbol : String) (fills : List PlannedLegFill) (p : PlannedLegFill) : ℚ :=
  p.shortfall * (internalTotal symbol fills / requestedRemaining symbol p.side fills)

/-- A quantity, unless it is dust. -/
def aboveDust (qty : ℚ) : ℚ :=
  if kQtyEps < qty then qty else 0

def takeShare (share : ℚ) (p : PlannedLegFill) : PlannedLegFill :=
  if kQtyEps < share then p.addInternal share else p

@[simp] theorem plan_takeShare (share : ℚ) (p : PlannedLegFill) :
    (takeShare share p).plan = p.plan := by
  unfold takeShare
  split <;> rfl

section Shares

variable {symbol : String} {fills : List PlannedLegFill}

theorem requestedRemaining_nonneg (side : Side) : 0 ≤ requestedRemaining symbol side fills :=
  sumOn_nonneg (fun p _ _ => shortfall_nonneg p)

theorem internalTotal_nonneg : 0 ≤ internalTotal symbol fills :=
  le_min (requestedRemaining_nonneg .buy) (requestedRemaining_nonneg .sell)

variable {side : Side}

theorem internalTotal_le (hside : side = .buy ∨ side = .sell) :
    internalTotal symbol fills ≤ requestedRemaining symbol side fills := by
  rcases hside with rfl | rfl
  · exact min_le_left _ _
  · exact min_le_right _ _

theorem crossRatio_le_one (hside : side = .buy ∨ side = .sell) :
    internalTotal symbol fills / requestedRemaining symbol side fills ≤ 1 :=
  div_le_one_of_le₀ (internalTotal_le hside) (requestedRemaining_nonneg side)

theorem crossRatio_nonneg (side : Side) :
    0 ≤ internalTotal symbol fills / requestedRemaining symbol side fills :=
  div_nonneg internalTotal_nonneg (requestedRemaining_nonneg side)

variable {p : PlannedLegFill}

theorem crossShare_le_shortfall (hside : p.side = .buy ∨ p.side = .sell) :
    crossShare symbol fills p ≤ p.shortfall :=
  mul_le_of_le_one_right (shortfall_nonneg p) (crossRatio_le_one hside)

theorem shortfall_le_requestedRemaining (hp : p ∈ fills) (hsym : p.symbol = symbol) :
    p.shortfall ≤ requestedRemaining symbol p.side fills :=
  le_sumOn (fun q _ _ => shortfall_nonneg q) hp (onSide_iff.mpr ⟨hsym, rfl⟩)

theorem crossShare_le_internalTotal (hp : p ∈ fills) (hsym : p.symbol = symbol) :
    crossShare symbol fills p ≤ internalTotal symbol fills := by
  have hle := shortfall_le_requestedRemaining hp hsym
  unfold crossShare
  rw [mul_div_assoc']
  rcases (requestedRemaining_nonneg p.side).eq_or_lt with hzero | hpos
  · rw [← hzero, div_zero]
    exact internalTotal_nonneg
  · rw [div_le_iff₀ hpos, mul_comm]
    exact mul_le_mul_of_nonneg_left hle internalTotal_nonneg

end Shares

section CrossSide

variable {symbol : String}

theorem allocateInternalSide_fills {side : Side} (hside : side = .buy ∨ side = .sell)
    {fills : List PlannedLegFill} {a : Allocation}
    (hremaining : requestedRemaining symbol side a.fills = requestedRemaining symbol side fills)
    (hmem : ∀ p ∈ a.fills, onSide symbol side p = true → p ∈ fills) :
    (allocateInternalSide symbol side (internalTotal symbol fills) a).fills = a.fills.map (fun p =>
        if onSide symbol side p then takeShare (crossShare symbol fills p) p else p) := by
  unfold allocateInternalSide
  dsimp only
  rw [hremaining]
  split
  · rename_i hdust
    -- the guards only skip sides whose shares are dust
    have hshare : ∀ p ∈ a.fills, onSide symbol side p = true →
        crossShare symbol fills p ≤ kQtyEps := by
      intro p hp hon
      obtain ⟨hsym, hpside⟩ := onSide_iff.mp hon
      have hp' := hmem p hp hon
      rcases hdust with hremaining | htotal
      · have hle := shortfall_le_requestedRemaining hp' hsym
        rw [hpside] at hle
        exact ((crossShare_le_shortfall (by rw [hpside]; exact hside)).trans hle).trans hremaining
      · exact (crossShare_le_internalTotal hp' hsym).trans htotal
    refine (map_id _).symm.trans (map_congr_left ?_)
    intro p hp
    cases hon : onSide symbol side p with
    | true =>
        unfold takeShare
        rw [if_pos rfl, if_neg (not_lt.mpr (hshare p hp hon)), id]
    | false => rfl
  · have hratio : clampFromZero
        (internalTotal symbol fills / requestedRemaining symbol side fills) 1 =
          internalTotal symbol fills / requestedRemaining symbol side fills := by
      unfold clampFromZero
      rw [max_eq_left (crossRatio_nonneg side), min_eq_left (crossRatio_le_one hside)]
    dsimp only
    rw [hratio, forEach_map (f := fun p => takeShare (p.shortfall *
      (internalTotal symbol fills / requestedRemaining symbol side fills)) p)]
    · apply map_congr_left
      intro p _
      cases hon : onSide symbol side p with
      | true =>
          unfold crossShare
          rw [(onSide_iff.mp hon).2]
      | false => rfl
    · intro s p
      unfold internalStep takeShare
      dsimp only
      by_cases h : kQtyEps < p.shortfall *
          (internalTotal symbol fills / requestedRemaining symbol side fills)
      · rw [if_neg (not_le.mpr h), if_pos h]
      · rw [if_pos (not_lt.mp h), if_neg h]

end CrossSide

theorem internalCross_fills (symbol : String) (a : Allocation)
    (hside : ∀ p ∈ a.fills, p.side = .buy ∨ p.side = .sell) :
    (internalCross symbol a).fills = a.fills.map (fun p =>
        if onSymbol symbol p then takeShare (crossShare symbol a.fills p) p else p) := by
  have hbuy : (allocateInternalSide symbol .buy (internalTotal symbol a.fills) a).fills =
      a.fills.map (fun p =>
        if onSide symbol .buy p then takeShare (crossShare symbol a.fills p) p else p) :=
    allocateInternalSide_fills (.inl rfl) rfl (fun p hp _ => hp)
  -- the BUY side leaves the legs of the SELL side alone
  have hsell : ∀ p, onSide symbol .sell
      (if onSide symbol .buy p then takeShare (crossShare symbol a.fills p) p else p) =
        onSide symbol .sell p := by
    intro p
    apply onSide_of_plan
    split
    · exact plan_takeShare _ p
    · rfl
  have hnotBuy : ∀ p, onSide symbol .sell p = true → onSide symbol .buy p = false := by
    intro p hon
    unfold onSide at hon ⊢
    simp only [decide_eq_true_eq, decide_eq_false_iff_not] at hon ⊢
    rw [hon.2]
    rintro ⟨-, h⟩
    cases h
  have hremaining : requestedRemaining symbol .sell
      (allocateInternalSide symbol .buy (internalTotal symbol a.fills) a).fills =
        requestedRemaining symbol .sell a.fills := by
    rw [hbuy]
    apply sumOn_congr
    apply forall₂_map_left_iff.mpr
    apply forall₂_same.mpr
    intro p _
    rw [hsell]
    cases hon : onSide symbol .sell p with
    | true => rw [hnotBuy p hon]; rfl
    | false => rfl
  have hmem : ∀ p ∈ (allocateInternalSide symbol .buy (internalTotal symbol a.fills) a).fills,
      onSide symbol .sell p = true → p ∈ a.fills := by
    intro p hp hon
    rw [hbuy] at hp
    obtain ⟨p₀, hp₀, rfl⟩ := mem_map.mp hp
    rw [hsell] at hon
    rw [hnotBuy p₀ hon]
    exact hp₀
  unfold internalCross
  rw [allocateInternalSide_fills (.inr rfl) hremaining hmem, hbuy, map_map]
  apply map_congr_left
  intro p hp
  rw [Function.comp_apply, hsell]
  unfold onSide onSymbol
  rcases hside p hp with h | h
  · by_cases hsym : p.symbol = symbol
    · simp [h, hsym]
    · simp [hsym]
  · by_cases hsym : p.symbol = symbol
    · simp [h, hsym]
    · simp [hsym]

/-- The second leg has the plan and the internal quantity of the first. -/
def SameInternal (p q : PlannedLegFill) : Prop :=
  q.plan = p.plan ∧ q.internalLegQty = p.internalLegQty

theorem SameInternal.trans {p q r : PlannedLegFill} (h : SameInternal p q) (h' : SameInternal q r) :
    SameInternal p r :=
  ⟨h'.1.trans h.1, h'.2.trans h.2⟩

section External

variable (inp : SolveInput) (symbol : String)

theorem sameInternal_refl (ps : List PlannedLegFill) : List.Forall₂ SameInternal ps ps :=
  forall₂_same.mpr (fun _ _ => ⟨rfl, rfl⟩)

theorem sameInternal_allocateExternalSide (side : Side) (improve : Bool) (a : Allocation) :
    List.Forall₂ SameInternal a.fills (allocateExternalSide inp symbol side improve a).fills := by
  unfold allocateExternalSide
  dsimp only
  cases inp.externalLiquidity.lookup symbol with
  | none => exact sameInternal_refl _
  | some curve =>
      dsimp only
      split
      · exact sameInternal_refl _
      · refine (forEach_rel (fun _ => True) SameInternal ?_ (fun _ _ => ⟨rfl, rfl⟩)
          trivial a.fills).2
        intro s p _ _
        refine ⟨trivial, ?_⟩
        rcases externalStep_cases _ s p with h | ⟨qty, -, -, -, -, h⟩
        · rw [h]
          exact ⟨rfl, rfl⟩
        · rw [h]
          exact ⟨rfl, rfl⟩

theorem sameInternal_externalImprove (a : Allocation) :
    List.Forall₂ SameInternal a.fills (externalImprove inp symbol a).fills :=
  forall₂_comp (fun _ _ _ h h' => h.trans h')
    (sameInternal_allocateExternalSide inp symbol .buy true a)
    (sameInternal_allocateExternalSide inp symbol .sell true _)

theorem sameInternal_externalResidual (a : Allocation) :
    List.Forall₂ SameInternal a.fills (externalResidual inp symbol a).fills := by
  unfold externalResidual
  dsimp only
  split
  · exact sameInternal_allocateExternalSide inp symbol .buy false a
  · split
    · exact sameInternal_allocateExternalSide inp symbol .sell false a
    · exact sameInternal_refl _

end External

/-- The legs when the internal cross of a symbol starts. -/
def beforeCross (inp : SolveInput) (symbol : String) : List PlannedLegFill :=
  (externalImprove inp symbol (planned inp)).fills

section InternalQty

variable {inp : SolveInput} {symbol : String}

theorem beforeCross_plan : List.Forall₂ SameInternal (plannedFills inp) (beforeCross inp symbol) :=
  sameInternal_externalImprove inp symbol (planned inp)

theorem planned_of_mem_beforeCross {p : PlannedLegFill} (hp : p ∈ beforeCross inp symbol) :
    ∃ p₀ ∈ plannedFills inp, p.plan = p₀.plan ∧ p.internalLegQty = 0 := by
  obtain ⟨p₀, hp₀, hplan, hinternal⟩ := exists_of_mem_forall₂ beforeCross_plan hp
  exact ⟨p₀, hp₀, hplan, hinternal.trans (planOk_of_mem hp₀).fresh.2.1⟩

theorem side_of_mem_beforeCross {p : PlannedLegFill} (hp : p ∈ beforeCross inp symbol) :
    p.side = .buy ∨ p.side = .sell := by
  obtain ⟨p₀, hp₀, hplan, -⟩ := planned_of_mem_beforeCross hp
  rw [side_of_plan hplan]
  exact (planOk_of_mem hp₀).side_eq

/-- The leg before the cross and the leg after the allocation: the same plan, and
the share, unless it is dust, as the internal quantity. -/
def GetsShare (symbol : String) (fills : List PlannedLegFill) (p q : PlannedLegFill) : Prop :=
  q.plan = p.plan ∧
    (p.symbol = symbol → q.internalLegQty = aboveDust (crossShare symbol fills p))

theorem internalLegQty_eq (hsingle : allSingleLeg symbol (plannedFills inp) = true) :
    List.Forall₂ (GetsShare symbol (beforeCross inp symbol)) (beforeCross inp symbol)
      (allocateSymbol inp (planned inp) symbol).fills := by
  have hcross := internalCross_fills symbol (externalImprove inp symbol (planned inp))
    (fun p hp => side_of_mem_beforeCross hp)
  have hresidual := sameInternal_externalResidual inp symbol
    (internalCross symbol (externalImprove inp symbol (planned inp)))
  unfold allocateSymbol
  rw [if_pos (show allSingleLeg symbol (planned inp).fills = true from hsingle)]
  rw [hcross, ← beforeCross, forall₂_map_left_iff] at hresidual
  refine ((forall₂_and_left _ _).mpr ⟨fun p hp => planned_of_mem_beforeCross hp, hresidual⟩).imp ?_
  rintro p q ⟨⟨-, -, -, hzero⟩, hplan, hinternal⟩
  refine ⟨?_, ?_⟩
  · rw [hplan]
    split
    · exact plan_takeShare _ p
    · rfl
  · intro hsym
    rw [hinternal, if_pos (onSymbol_iff.mpr hsym)]
    unfold takeShare aboveDust
    split
    · exact (congrArg (· + _) hzero).trans (zero_add _)
    · exact hzero

end InternalQty

end Matching
end ContExchange
