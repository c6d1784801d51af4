import Mathlib.Algebra.Order.BigOperators.Group.List

/-!
# Library: merging the neighbours of one key

A list of keys with values stands for the sum of the values at each key.  Merging neighbours of
one key leaves these sums as they are, and where equal keys stand together it leaves each key
once.

* `keySum_mergeKeys`: the sums are kept;
* `exists_mem_mergeKeys`: so are the keys;
* `mergeKeys_strict`: the keys of a sorted list are strictly sorted behind it;
* `eq_keySum_of_mem`: where keys occur once, a value is the sum at its key;
* `le_keySum`: no value that is not negative is above that sum.
-/

namespace ContExchange
namespace Lib

open List

universe u v

section KeyedSums

variable {κ : Type u} {ν : Type v} [DecidableEq κ] [AddCommMonoid ν]

def keySum (k : κ) (items : List (κ × ν)) : ν :=
  ((items.filter (fun p => p.1 = k)).map Prod.snd).sum

/-- Neighbours of one key become one. -/
def mergeKeys : List (κ × ν) → List (κ × ν)
  | [] => []
  | p :: rest =>
      match mergeKeys rest with
      | [] => [p]
      | q :: others => if q.1 = p.1 then (p.1, p.2 + q.2) :: others else p :: q :: others

variable {k : κ} {items : List (κ × ν)}

@[simp] theorem keySum_nil (k : κ) : keySum k ([] : List (κ × ν)) = 0 := rfl

theorem keySum_cons (k : κ) (p : κ × ν) (items : List (κ × ν)) :
    keySum k (p :: items) = if p.1 = k then p.2 + keySum k items else keySum k items := by
  by_cases h : p.1 = k
  · simp [keySum, h]
  · simp [keySum, h]

theorem keySum_perm {items' : List (κ × ν)} (h : items.Perm items') :
    keySum k items = keySum k items' :=
  ((h.filter _).map _).sum_eq

/-- Merging keeps the sums. -/
theorem keySum_mergeKeys (k : κ) (items : List (κ × ν)) :
    keySum k (mergeKeys items) = keySum k items := by
  induction items with
  | nil => rfl
  | cons p rest ih =>
      rw [keySum_cons, ← ih, mergeKeys]
      cases hrest : mergeKeys rest with
      | nil => exact keySum_cons k p []
      | cons q others =>
          dsimp only
          by_cases hkey : q.1 = p.1
          · rw [if_pos hkey, keySum_cons, keySum_cons, hkey]
            by_cases hp : p.1 = k
            · rw [if_pos hp, if_pos hp, if_pos hp, add_assoc]
            · rw [if_neg hp, if_neg hp, if_neg hp]
          · rw [if_neg hkey, keySum_cons]

/-- Merging keeps the keys. -/
theorem exists_mem_mergeKeys : (∃ v, (k, v) ∈ mergeKeys items) ↔ ∃ v, (k, v) ∈ items := by
  have hcons : ∀ (p : κ × ν) (l : List (κ × ν)),
      (∃ v, (k, v) ∈ p :: l) ↔ p.1 = k ∨ ∃ v, (k, v) ∈ l := by
    rintro ⟨key, value⟩ l
    constructor
    · rintro ⟨v, hv⟩
      rcases mem_cons.mp hv with heq | hmem
      · exact .inl (congrArg Prod.fst heq).symm
      · exact .inr ⟨v, hmem⟩
    · rintro (rfl | ⟨v, hv⟩)
      · exact ⟨value, mem_cons_self⟩
      · exact ⟨v, mem_cons_of_mem _ hv⟩
  induction items with
  | nil => rfl
  | cons p rest ih =>
      refine Iff.trans ?_ ((or_congr_right ih).trans (hcons p rest).symm)
      rw [mergeKeys]
      cases hrest : mergeKeys rest with
      | nil => exact hcons p []
      | cons q others =>
          dsimp only
          by_cases hkey : q.1 = p.1
          · rw [if_pos hkey, hcons, hcons, hkey, ← or_assoc, or_self]
          · rw [if_neg hkey, hcons]

/-- The merged keys of a sorted list are strictly sorted. -/
theorem mergeKeys_strict {r : κ → κ → Prop} (htrans : ∀ {a b c}, r a b → r b c → r a c)
    (h : items.Pairwise (fun p q => p.1 = q.1 ∨ r p.1 q.1)) :
    (mergeKeys items).Pairwise (fun p q => r p.1 q.1) := by
  induction items with
  | nil => exact List.Pairwise.nil
  | cons p rest ih =>
      obtain ⟨hhead, htail⟩ := pairwise_cons.mp h
      have hstrict := ih htail
      have hkeys : ∀ q ∈ mergeKeys rest, p.1 = q.1 ∨ r p.1 q.1 := by
        intro q hq
        obtain ⟨v, hv⟩ := exists_mem_mergeKeys.mp ⟨q.2, hq⟩
        exact hhead (q.1, v) hv
      rw [mergeKeys]
      cases hrest : mergeKeys rest with
      | nil => exact pairwise_singleton _ p
      | cons q others =>
          rw [hrest] at hstrict hkeys
          obtain ⟨hq, hothers⟩ := pairwise_cons.mp hstrict
          dsimp only
          by_cases hkey : q.1 = p.1
          · rw [if_pos hkey]
            exact pairwise_cons.mpr ⟨fun s hs => hkey ▸ hq s hs, hothers⟩
          · rw [if_neg hkey]
            have hpq : r p.1 q.1 :=
              (hkeys q mem_cons_self).resolve_left (fun heq => hkey heq.symm)
            refine pairwise_cons.mpr ⟨fun s hs => ?_, hstrict⟩
            rcases mem_cons.mp hs with rfl | hmem
            · exact hpq
            · exact htrans hpq (hq s hmem)

/-- Keys that occur once are left alone. -/
theorem mergeKeys_of_ne (h : items.Pairwise (fun p q => p.1 ≠ q.1)) : mergeKeys items = items := by
  induction items with
  | nil => rfl
  | cons p rest ih =>
      obtain ⟨hhead, htail⟩ := pairwise_cons.mp h
      rw [mergeKeys, ih htail]
      cases rest with
      | nil => rfl
      | cons q others => exact if_neg (hhead q mem_cons_self).symm

/-- Where keys occur once, a value is the sum at its key. -/
theorem eq_keySum_of_mem {p : κ × ν} (h : items.Pairwise (fun p q => p.1 ≠ q.1))
    (hp : p ∈ items) : p.2 = keySum p.1 items := by
  induction items with
  | nil => cases hp
  | cons q rest ih =>
      obtain ⟨hhead, htail⟩ := pairwise_cons.mp h
      rw [keySum_cons]
      rcases mem_cons.mp hp with rfl | hmem
      · have hnone : keySum p.1 rest = 0 := by
          have hfilter : rest.filter (fun q => q.1 = p.1) = [] := by
            rw [filter_eq_nil_iff]
            intro q hq heq
            exact hhead q hq (of_decide_eq_true heq).symm
          rw [keySum, hfilter]
          rfl
        rw [if_pos rfl, hnone, add_zero]
      · rw [if_neg (hhead p hmem)]
        exact ih htail hmem

section Ordered

variable [PartialOrder ν] [IsOrderedAddMonoid ν]

theorem keySum_nonneg (h : ∀ p ∈ items, 0 ≤ p.2) : 0 ≤ keySum k items := by
  refine sum_nonneg ?_
  intro v hv
  obtain ⟨p, hp, rfl⟩ := mem_map.mp hv
  exact h p (mem_filter.mp hp).1

/-- A value that is not negative is not above the sum at its key. -/
theorem le_keySum {p : κ × ν} (h : ∀ q ∈ items, 0 ≤ q.2) (hp : p ∈ items) :
    p.2 ≤ keySum p.1 items := by
  refine single_le_sum ?_ _ (mem_map_of_mem (mem_filter.mpr ⟨hp, by simp⟩))
  intro v hv
  obtain ⟨q, hq, rfl⟩ := mem_map.mp hv
  exact h q (mem_filter.mp hq).1

end Ordered

end KeyedSums

end Lib
end ContExchange
