import Mathlib.Tactic

/-!
# Library: loops that update the selected elements of a list

A loop goes through a list once.  At an element that passes a test it updates
the element and an accumulator; the other elements stay as they are.  This
module gives the loop, `forEach`, and the facts about it that do not depend on
what its body does:

* `forEach_rel`: the updated list is related to the old one position by position;
* `forEach_sum`: what the body adds to the elements is what it adds to the
  accumulator;
* `forEach_filter`: a loop only depends on the elements a coarser test keeps;
* `forEach_sim`: accumulators the body cannot tell apart lead to the same list.

`sumOn` is the sum of a quantity over the selected elements.
-/

namespace ContExchange
namespace Lib

open List hiding filter_filter
open Option hiding filter filter_filter

section ForEach

variable {α σ : Type*}

/-- A loop over the elements that pass the test. -/
def forEach (sel : α → Bool) (body : σ → α → σ × α) : σ → List α → σ × List α
  | s, [] => (s, [])
  | s, p :: ps =>
      if sel p then
        let r := body s p
        let rs := forEach sel body r.1 ps
        (rs.1, r.2 :: rs.2)
      else
        let rs := forEach sel body s ps
        (rs.1, p :: rs.2)

variable {sel : α → Bool} {body : σ → α → σ × α}

@[simp] theorem forEach_nil (s : σ) : forEach sel body s [] = (s, []) := rfl

theorem forEach_cons_of_sel
    {s : σ} {p : α} {ps : List α} (h : sel p = true) :
    forEach sel body s (p :: ps) =
      ((forEach sel body (body s p).1 ps).1,
        (body s p).2 :: (forEach sel body (body s p).1 ps).2) := by
  simp [forEach, h]

theorem forEach_cons_of_not_sel
    {s : σ} {p : α} {ps : List α} (h : sel p = false) :
    forEach sel body s (p :: ps) = ((forEach sel body s ps).1, p :: (forEach sel body s ps).2) := by
  simp [forEach, h]

/-- The loop relates the old and the new list position by position, and keeps
what the body keeps of the accumulator. -/
theorem forEach_rel
    (J : σ → Prop) (R : α → α → Prop)
    (hbody : ∀ s p, J s → sel p = true → J (body s p).1 ∧ R p (body s p).2)
    (hrefl : ∀ p, sel p = false → R p p)
    {s : σ} (hs : J s) (ps : List α) :
    J (forEach sel body s ps).1 ∧ List.Forall₂ R ps (forEach sel body s ps).2 := by
  induction ps generalizing s with
  | nil => exact ⟨hs, .nil⟩
  | cons p ps ih =>
      cases h : sel p with
      | true =>
          obtain ⟨hJ, hR⟩ := hbody s p hs h
          obtain ⟨hJ', hR'⟩ := ih hJ
          rw [forEach_cons_of_sel h]
          exact ⟨hJ', .cons hR hR'⟩
      | false =>
          obtain ⟨hJ', hR'⟩ := ih hs
          rw [forEach_cons_of_not_sel h]
          exact ⟨hJ', .cons (hrefl p h) hR'⟩

/-- A loop whose rounds change nothing. -/
theorem forEach_of_idle
    {s : σ} {ps : List α} (h : ∀ p ∈ ps, sel p = true → body s p = (s, p)) :
    forEach sel body s ps = (s, ps) := by
  induction ps with
  | nil => rfl
  | cons p ps ih =>
      have ih := ih (fun q hq => h q (mem_cons_of_mem _ hq))
      cases hsel : sel p with
      | true => rw [forEach_cons_of_sel hsel, h p mem_cons_self hsel, ih]
      | false => rw [forEach_cons_of_not_sel hsel, ih]

/-- A loop over two lists goes on with the second where the first has led. -/
theorem forEach_append (s : σ) (ps qs : List α) :
    forEach sel body s (ps ++ qs) =
      ((forEach sel body (forEach sel body s ps).1 qs).1,
        (forEach sel body s ps).2 ++ (forEach sel body (forEach sel body s ps).1 qs).2) := by
  induction ps generalizing s with
  | nil => rfl
  | cons p ps ih =>
      cases h : sel p with
      | true =>
          rw [cons_append, forEach_cons_of_sel h, forEach_cons_of_sel h, ih]
          rfl
      | false =>
          rw [cons_append, forEach_cons_of_not_sel h, forEach_cons_of_not_sel h, ih]
          rfl

/-- A body that ignores the accumulator updates the elements one by one. -/
theorem forEach_map
    {f : α → α} (hbody : ∀ s p, (body s p).2 = f p) (s : σ) (ps : List α) :
    (forEach sel body s ps).2 = ps.map (fun p => if sel p then f p else p) := by
  induction ps generalizing s with
  | nil => rfl
  | cons p ps ih =>
      cases h : sel p with
      | true => rw [forEach_cons_of_sel h, map_cons, if_pos h, hbody, ih]
      | false =>
          rw [forEach_cons_of_not_sel h, map_cons, ih, h]
          simp

/-- A loop over a list depends only on the elements that a coarser test keeps. -/
theorem forEach_filter
    (keep : α → Bool)
    (hkeep : ∀ p, sel p = true → keep p = true)
    (hbody : ∀ s p, sel p = true → keep (body s p).2 = true)
    (s : σ) (ps : List α) :
    (forEach sel body s ps).1 = (forEach sel body s (ps.filter keep)).1 ∧
      (forEach sel body s ps).2.filter keep = (forEach sel body s (ps.filter keep)).2 := by
  induction ps generalizing s with
  | nil => exact ⟨rfl, rfl⟩
  | cons p ps ih =>
      cases h : sel p with
      | true =>
          have hp := hkeep p h
          have hp' := hbody s p h
          obtain ⟨ih₁, ih₂⟩ := ih (body s p).1
          rw [forEach_cons_of_sel h, filter_cons_of_pos hp, forEach_cons_of_sel h]
          refine ⟨ih₁, ?_⟩
          rw [filter_cons_of_pos hp', ih₂]
      | false =>
          obtain ⟨ih₁, ih₂⟩ := ih s
          rw [forEach_cons_of_not_sel h]
          cases hp : keep p with
          | true =>
              rw [filter_cons_of_pos hp, forEach_cons_of_not_sel h]
              refine ⟨ih₁, ?_⟩
              rw [filter_cons_of_pos hp, ih₂]
          | false =>
              have hp' : ¬ keep p = true := by simp [hp]
              rw [filter_cons_of_neg hp']
              refine ⟨ih₁, ?_⟩
              rw [filter_cons_of_neg hp', ih₂]

/-- A loop leaves alone the elements outside the test. -/
theorem forEach_filter_of_disjoint
    (keep : α → Bool)
    (hkeep : ∀ p, sel p = true → keep p = false)
    (hbody : ∀ s p, sel p = true → keep (body s p).2 = false)
    (s : σ) (ps : List α) :
    (forEach sel body s ps).2.filter keep = ps.filter keep := by
  induction ps generalizing s with
  | nil => rfl
  | cons p ps ih =>
      cases h : sel p with
      | true =>
          have hp : ¬ keep p = true := by simp [hkeep p h]
          have hp' : ¬ keep (body s p).2 = true := by simp [hbody s p h]
          rw [forEach_cons_of_sel h, filter_cons_of_neg hp, filter_cons_of_neg hp', ih]
      | false =>
          rw [forEach_cons_of_not_sel h]
          cases hp : keep p with
          | true => rw [filter_cons_of_pos hp, filter_cons_of_pos hp, ih]
          | false =>
              have hp' : ¬ keep p = true := by simp [hp]
              rw [filter_cons_of_neg hp', filter_cons_of_neg hp', ih]

/-- Accumulators that the body cannot tell apart lead to the same list. -/
theorem forEach_sim
    (E : σ → σ → Prop)
    (hbody : ∀ s t p, E s t → E (body s p).1 (body t p).1 ∧ (body s p).2 = (body t p).2)
    {s t : σ} (h : E s t) (ps : List α) :
    E (forEach sel body s ps).1 (forEach sel body t ps).1 ∧
      (forEach sel body s ps).2 = (forEach sel body t ps).2 := by
  induction ps generalizing s t with
  | nil => exact ⟨h, rfl⟩
  | cons p ps ih =>
      cases hp : sel p with
      | true =>
          obtain ⟨hE, hsame⟩ := hbody s t p h
          obtain ⟨ih₁, ih₂⟩ := ih hE
          rw [forEach_cons_of_sel hp, forEach_cons_of_sel hp]
          exact ⟨ih₁, by rw [hsame, ih₂]⟩
      | false =>
          obtain ⟨ih₁, ih₂⟩ := ih h
          rw [forEach_cons_of_not_sel hp, forEach_cons_of_not_sel hp]
          exact ⟨ih₁, by rw [ih₂]⟩

theorem forEach_key
    {κ : Type*} [DecidableEq κ] (key : α → κ) (k : κ)
    {body : (κ → σ) → α → (κ → σ) × α} {own : σ → α → σ × α}
    (hown : ∀ s p, key p = k → (body s p).1 k = (own (s k) p).1 ∧ (body s p).2 = (own (s k) p).2)
    (hother : ∀ s p, key p ≠ k → (body s p).1 k = s k)
    (hkey : ∀ s p, key (body s p).2 = key p)
    (s : κ → σ) (ps : List α) :
    (forEach (fun _ => true) body s ps).2.filter (fun p => key p = k) =
      (forEach (fun _ => true) own (s k) (ps.filter (fun p => key p = k))).2 := by
  induction ps generalizing s with
  | nil => rfl
  | cons p ps ih =>
      rw [forEach_cons_of_sel rfl]
      by_cases hp : key p = k
      · obtain ⟨hacc, hval⟩ := hown s p hp
        have hp' : key (body s p).2 = k := (hkey s p).trans hp
        rw [filter_cons_of_pos (by simpa using hp'),
          filter_cons_of_pos (by simpa using hp), forEach_cons_of_sel rfl, ih, hacc, hval]
      · have hp' : key (body s p).2 ≠ k := by
          rw [hkey]
          exact hp
        rw [filter_cons_of_neg (by simpa using hp'),
          filter_cons_of_neg (by simpa using hp), ih, hother s p hp]

end ForEach

section Related

variable {α β γ : Type*}

/-- An element of the second of two related lists is related to one of the first. -/
theorem exists_of_mem_forall₂
    {R : α → β → Prop} {ps : List α} {qs : List β}
    (h : List.Forall₂ R ps qs) {q : β} (hq : q ∈ qs) :
    ∃ p ∈ ps, R p q := by
  induction h with
  | nil => cases hq
  | cons hpq _ ih =>
      rcases mem_cons.mp hq with rfl | hq'
      · exact ⟨_, mem_cons_self, hpq⟩
      · obtain ⟨p, hp, hR⟩ := ih hq'
        exact ⟨p, mem_cons_of_mem _ hp, hR⟩

/-- Lists related one after the other are related by the composition. -/
theorem forall₂_comp
    {R : α → β → Prop} {S : β → γ → Prop} {T : α → γ → Prop}
    (hT : ∀ p q r, R p q → S q r → T p r)
    {ps : List α} {qs : List β} {rs : List γ}
    (h : List.Forall₂ R ps qs) (h' : List.Forall₂ S qs rs) :
    List.Forall₂ T ps rs := by
  induction h generalizing rs with
  | nil =>
      cases h' with
      | nil => exact .nil
  | cons hpq _ ih =>
      cases h' with
      | cons hqr hrest => exact .cons (hT _ _ _ hpq hqr) (ih hrest)

/-- Lists whose elements agree in a key have the same keys. -/
theorem map_eq_of_forall₂
    {R : α → β → Prop} {key : α → γ} {key' : β → γ}
    (hkey : ∀ p q, R p q → key' q = key p)
    {ps : List α} {qs : List β}
    (h : List.Forall₂ R ps qs) :
    qs.map key' = ps.map key := by
  induction h with
  | nil => rfl
  | cons hpq _ ih => rw [map_cons, map_cons, hkey _ _ hpq, ih]

/-- A function that can fail succeeds on a list when it does on every element. -/
theorem mapM_eq_some_iff {f : α → Option β} {ps : List α} {qs : List β} :
    ps.mapM f = some qs ↔ List.Forall₂ (fun p q => f p = some q) ps qs := by
  induction ps generalizing qs with
  | nil =>
      rw [mapM_nil, forall₂_nil_left_iff]
      exact ⟨fun h => (some_inj.mp h).symm, fun h => h ▸ rfl⟩
  | cons p ps ih =>
      simp only [mapM_cons, bind_eq_bind, bind_eq_some_iff]
      constructor
      · rintro ⟨q, hq, rest, hrest, hqs⟩
        cases hqs
        exact .cons hq (ih.mp hrest)
      · intro h
        cases h with
        | cons hq hrest => exact ⟨_, hq, _, ih.mpr hrest, rfl⟩

theorem isSome_mapM_iff {f : α → Option β} {ps : List α} :
    (ps.mapM f).isSome ↔ ∀ p ∈ ps, (f p).isSome := by
  constructor
  · intro h p hp
    obtain ⟨qs, hqs⟩ := isSome_iff_exists.mp h
    obtain ⟨q, -, hq⟩ := exists_of_mem_forall₂ (mapM_eq_some_iff.mp hqs).flip hp
    exact isSome_iff_exists.mpr ⟨q, hq⟩
  · intro h
    induction ps with
    | nil => rfl
    | cons p ps ih =>
        obtain ⟨q, hq⟩ := isSome_iff_exists.mp (h p mem_cons_self)
        obtain ⟨qs, hqs⟩ :=
          isSome_iff_exists.mp (ih (fun p' hp' => h p' (mem_cons_of_mem p hp')))
        rw [mapM_cons, hq, hqs]
        rfl

/-- What every round of a loop that can fail keeps holds after it. -/
theorem foldlM_invariant
    {P : β → Prop} {f : β → α → Option β} {ps : List α}
    (hf : ∀ p ∈ ps, ∀ s s', P s → f s p = some s' → P s')
    {s s' : β}
    (hs : P s)
    (h : ps.foldlM f s = some s') :
    P s' := by
  induction ps generalizing s with
  | nil =>
      cases h
      exact hs
  | cons p ps ih =>
      rw [foldlM_cons, bind_eq_bind, bind_eq_some_iff] at h
      obtain ⟨t, ht, hrest⟩ := h
      exact ih (fun q hq => hf q (mem_cons_of_mem _ hq)) (hf p mem_cons_self s t hs ht) hrest

end Related

section Changing

variable {α κ : Type*} [DecidableEq κ]

/-- The first element of a key is changed: the search for it finds the changed element, and
a search for another key what it found before. -/
theorem find?_modify_findIdx
    (key : α → κ) {change : α → α}
    (hkey : ∀ a, key (change a) = key a) (k j : κ) (l : List α) :
    (l.modify (l.findIdx (fun a => decide (key a = k))) change).find?
        (fun a => decide (key a = j)) =
      if j = k then (l.find? (fun a => decide (key a = k))).map change
      else l.find? (fun a => decide (key a = j)) := by
  induction l with
  | nil =>
      rw [modify_nil]
      exact (ite_self _).symm
  | cons a l ih =>
      rw [findIdx_cons]
      by_cases hk : key a = k
      · rw [decide_eq_true hk, cond_true, modify_zero_cons, find?_cons, hkey, hk]
        by_cases hj : j = k
        · subst hj
          simp [hk]
        · simp [hj, Ne.symm hj, hk]
      · rw [decide_eq_false hk, cond_false, modify_succ_cons, find?_cons,
          find?_cons, find?_cons, decide_eq_false hk, ih]
        by_cases hj : j = k
        · subst hj
          simp [hk]
        · simp [hj]

/-- A change of the first element of a key keeps two lists related element by element. -/
theorem forall₂_modify_findIdx
    {β : Type*} {R : β → α → Prop} {key : α → κ} {key' : β → κ} {change : α → α} {k : κ}
    {xs : List β} {l : List α}
    (hkey : ∀ x a, R x a → key' x = key a) (h : List.Forall₂ R xs l)
    (hchange : ∀ x a, R x a → xs.find? (fun x => decide (key' x = k)) = some x →
      l.find? (fun a => decide (key a = k)) = some a → R x (change a)) :
    List.Forall₂ R xs (l.modify (l.findIdx (fun a => decide (key a = k))) change) := by
  induction h with
  | nil =>
      rw [modify_nil]
      exact .nil
  | @cons x a xs l hxa hrest ih =>
      have hsame := hkey x a hxa
      rw [findIdx_cons]
      by_cases hk : key a = k
      · rw [decide_eq_true hk, cond_true, modify_zero_cons]
        exact .cons (hchange x a hxa (by simp [hsame, hk]) (by simp [hk])) hrest
      · rw [decide_eq_false hk, cond_false, modify_succ_cons]
        refine .cons hxa (ih fun y b hyb hy hb => hchange y b hyb ?_ ?_)
        · rw [find?_cons, hsame, decide_eq_false hk]
          exact hy
        · rw [find?_cons, decide_eq_false hk]
          exact hb

/-- The elements that are found in related lists are related. -/
theorem forall₂_find?
    {β : Type*} {R : β → α → Prop} (key : α → κ) (key' : β → κ) {xs : List β} {l : List α}
    (hkey : ∀ x a, R x a → key' x = key a) (h : List.Forall₂ R xs l) (k : κ) :
    Option.Rel R (xs.find? (fun x => decide (key' x = k)))
      (l.find? (fun a => decide (key a = k))) := by
  induction h with
  | nil => exact .none
  | @cons x a xs l hxa _ ih =>
      rw [find?_cons, find?_cons, hkey x a hxa]
      split
      · exact .some hxa
      · exact ih

end Changing

section SumOn

variable {α σ : Type*}

/-- The sum of a quantity over the selected elements. -/
def sumOn (sel : α → Bool) (f : α → ℚ) (ps : List α) : ℚ :=
  (ps.map (fun p => if sel p then f p else 0)).sum

variable {sel : α → Bool} {f g : α → ℚ}

@[simp] theorem sumOn_nil : sumOn sel f [] = 0 := rfl

theorem sumOn_cons (p : α) (ps : List α) :
    sumOn sel f (p :: ps) = (if sel p then f p else 0) + sumOn sel f ps := by
  simp [sumOn]

theorem sumOn_append (ps qs : List α) :
    sumOn sel f (ps ++ qs) = sumOn sel f ps + sumOn sel f qs := by
  simp [sumOn]

theorem sumOn_nonneg {ps : List α} (h : ∀ p ∈ ps, sel p = true → 0 ≤ f p) :
    0 ≤ sumOn sel f ps := by
  apply sum_nonneg
  intro x hx
  obtain ⟨p, hp, rfl⟩ := mem_map.mp hx
  split
  · exact h p hp (by assumption)
  · exact le_rfl

theorem sumOn_filter (keep : α → Bool) (hkeep : ∀ p, sel p = true → keep p = true)
    (ps : List α) :
    sumOn sel f (ps.filter keep) = sumOn sel f ps := by
  induction ps with
  | nil => rfl
  | cons p ps ih =>
      cases hp : keep p with
      | true => rw [filter_cons_of_pos hp, sumOn_cons, sumOn_cons, ih]
      | false =>
          have hsel : sel p = false := by
            cases h : sel p with
            | true =>
                rw [hkeep p h] at hp
                cases hp
            | false => rfl
          rw [filter_cons_of_neg (by simp [hp]), sumOn_cons, ih, hsel]
          simp

theorem sumOn_eq_sum_filter (ps : List α) :
    sumOn sel f ps = ((ps.filter sel).map f).sum := by
  induction ps with
  | nil => rfl
  | cons p ps ih =>
      rw [sumOn_cons, ih]
      cases hp : sel p with
      | true => rw [filter_cons_of_pos hp, map_cons, sum_cons, if_pos rfl]
      | false =>
          rw [filter_cons_of_neg (by simp [hp])]
          simp

/-- One term of a sum of nonnegative quantities. -/
theorem le_sumOn
    {ps : List α} (h : ∀ p ∈ ps, sel p = true → 0 ≤ f p)
    {p : α} (hp : p ∈ ps) (hsel : sel p = true) :
    f p ≤ sumOn sel f ps := by
  induction ps with
  | nil => cases hp
  | cons q qs ih =>
      have hqs : ∀ r ∈ qs, sel r = true → 0 ≤ f r :=
        fun r hr => h r (mem_cons_of_mem _ hr)
      rw [sumOn_cons]
      rcases mem_cons.mp hp with rfl | hp'
      · rw [if_pos hsel]
        have := sumOn_nonneg hqs
        linarith
      · have htail := ih hqs hp'
        have hhead : 0 ≤ (if sel q then f q else 0) := by
          split
          · exact h q mem_cons_self (by assumption)
          · exact le_rfl
        linarith

theorem sumOn_le_of_forall₂
    {ps qs : List α}
    (h : List.Forall₂ (fun p q =>
      (if sel q then g q else 0) ≤ (if sel p then f p else 0)) ps qs) :
    sumOn sel g qs ≤ sumOn sel f ps := by
  induction h with
  | nil => exact le_rfl
  | cons hhead _ ih =>
      rw [sumOn_cons, sumOn_cons]
      exact add_le_add hhead ih

theorem sumOn_congr
    {ps qs : List α}
    (h : List.Forall₂ (fun p q =>
      (if sel p then f p else 0) = (if sel q then g q else 0)) ps qs) :
    sumOn sel f ps = sumOn sel g qs := by
  induction h with
  | nil => rfl
  | cons hpq _ ih => rw [sumOn_cons, sumOn_cons, hpq, ih]

end SumOn

section Replaced

variable {α : Type*} {l : List α} {i : ℕ} {a : α}

/-- A total over a list in which one element is replaced. -/
theorem sum_map_set (h : l[i]? = some a) (w : α → ℕ) (b : α) :
    ((l.set i b).map w).sum + w a = (l.map w).sum + w b := by
  induction l generalizing i with
  | nil => cases h
  | cons c l ih =>
      cases i with
      | zero =>
          have hca : c = a := by simpa using h
          subst hca
          simp only [set_cons_zero, map_cons, sum_cons]
          omega
      | succ i =>
          have hrest := ih (by simpa using h)
          simp only [set_cons_succ, map_cons, sum_cons]
          omega

/-- When a total is at most one, only one element counts. -/
theorem eq_of_sum_map_le_one {w : α → ℕ} (hsum : (l.map w).sum ≤ 1) (h : l[i]? = some a)
    (ha : w a ≠ 0) {b : α} (hb : b ∈ l) (hwb : w b ≠ 0) : b = a := by
  induction l generalizing i with
  | nil => cases h
  | cons c l ih =>
      rw [map_cons, sum_cons] at hsum
      have hzero : ∀ d ∈ l, w c ≠ 0 → w d = 0 := by
        intro d hd hc
        have hrest : (l.map w).sum = 0 := by omega
        exact sum_eq_zero_iff.mp hrest _ (mem_map_of_mem hd)
      cases i with
      | zero =>
          have hca : c = a := by simpa using h
          subst hca
          rcases mem_cons.mp hb with rfl | hb
          · rfl
          · exact absurd (hzero b hb ha) hwb
      | succ i =>
          have hrest : l[i]? = some a := by simpa using h
          rcases mem_cons.mp hb with rfl | hb
          · exact absurd (hzero a (mem_of_getElem? hrest) hwb) ha
          · exact ih (by omega) hrest hb

end Replaced

end Lib
end ContExchange
