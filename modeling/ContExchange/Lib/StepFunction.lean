import Mathlib.Algebra.Group.Defs
import Mathlib.Data.List.Nodup
import Mathlib.Data.Set.Insert
import Mathlib.Order.WithBot

/-!
# Library: step functions by their break points

A list of keys with values, in the order of the keys, stands for the function that takes at a
point the value of the first key above it, and zero above all keys.

* `insertBreak`: a new break with the value that is there already changes nothing;
* `addBetween`: an addition on a half-open interval between two breaks;
* `removeBreak`: a break with the same value on both sides may go;
* `between`: the breaks on a half-open interval.
-/

namespace ContExchange
namespace Lib

open List hiding map map_id'

universe u v

/-- The breaks of a step function. -/
abbrev Breaks (α : Type u) (F : Type v) := List (α × F)

namespace Breaks

section Breaks

variable {α : Type u} {F : Type v} [LinearOrder α]

def above (t : Breaks α F) (p : α) : Option (α × F) :=
  t.find? (fun e => p < e.1)

def keyAbove (t : Breaks α F) (p : α) : Option α :=
  (t.above p).map Prod.fst

def valueAbove [Zero F] (t : Breaks α F) (p : α) : F :=
  ((t.above p).map Prod.snd).getD 0

def keys (t : Breaks α F) : List α :=
  t.map Prod.fst

def Ascending (t : Breaks α F) : Prop :=
  t.Pairwise (fun e e' => e.1 < e'.1)

/-- A new key, behind the smaller ones. -/
def insertBreak (t : Breaks α F) (k : α) (v : F) : Breaks α F :=
  t.takeWhile (fun e => e.1 ≤ k) ++ (k, v) :: t.dropWhile (fun e => e.1 ≤ k)

/-- An addition at the keys above `l`, up to `r`; without an `l`, at all keys up to `r`. -/
def addBetween [Add F] (t : Breaks α F) (l : WithBot α) (r : α) (a : F) : Breaks α F :=
  t.map (fun e => if l < e.1 ∧ e.1 ≤ r then (e.1, e.2 + a) else e)

/-- Without a key. -/
def removeBreak (t : Breaks α F) (k : α) : Breaks α F :=
  t.eraseP (fun e => e.1 = k)

section Lookup

variable {t : Breaks α F} {p k : α} {e : α × F}

theorem above_cons (e : α × F) (t : Breaks α F) (p : α) :
    above (e :: t) p = if p < e.1 then some e else t.above p := by
  unfold above
  by_cases h : p < e.1 <;> simp [h]

theorem valueAbove_cons [Zero F] (e : α × F) (t : Breaks α F) (p : α) :
    valueAbove (e :: t) p = if p < e.1 then e.2 else t.valueAbove p := by
  unfold valueAbove
  rw [above_cons]
  split <;> rfl

theorem mem_of_above (h : t.above p = some e) : e ∈ t ∧ p < e.1 := by
  refine ⟨mem_of_find?_eq_some h, ?_⟩
  simpa using find?_some h

/-- The break that is found is the lowest above the point. -/
theorem above_le (ht : t.Ascending) (h : t.above p = some e) (hk : k ∈ t.keys) (hpk : p < k) :
    e.1 ≤ k := by
  induction t with
  | nil => cases hk
  | cons head rest ih =>
      obtain ⟨hfirst, hrest⟩ := pairwise_cons.mp ht
      rw [above_cons] at h
      split_ifs at h with hlt
      · obtain rfl := Option.some.inj h
        rcases mem_cons.mp hk with rfl | hk
        · exact le_rfl
        · obtain ⟨e', he', rfl⟩ := mem_map.mp hk
          exact (hfirst e' he').le
      · rcases mem_cons.mp hk with rfl | hk
        · exact absurd hpk hlt
        · exact ih hrest h hk

theorem above_eq_none (h : t.above p = none) (hk : k ∈ t.keys) : k ≤ p := by
  obtain ⟨e, he, rfl⟩ := mem_map.mp hk
  have hnot := find?_eq_none.mp h e he
  simpa using hnot

theorem keyAbove_eq_some (h : t.keyAbove p = some k) : k ∈ t.keys ∧ p < k := by
  obtain ⟨e, he, rfl⟩ := Option.map_eq_some_iff.mp h
  obtain ⟨hmem, hlt⟩ := mem_of_above he
  exact ⟨mem_map_of_mem hmem, hlt⟩

/-- The first key above the point before a key that is there is that key. -/
theorem keyAbove_eq (ht : t.Ascending) (hk : k ∈ t.keys) (hp : ∀ x, p < x ↔ k ≤ x) :
    t.keyAbove p = some k := by
  have hpk : p < k := (hp k).mpr le_rfl
  unfold keyAbove
  cases h : t.above p with
  | none => exact absurd (above_eq_none h hk) (not_le.mpr hpk)
  | some e =>
      obtain ⟨-, hlt⟩ := mem_of_above h
      rw [Option.map_some, le_antisymm (above_le ht h hk hpk) ((hp e.1).mp hlt)]

end Lookup

section Insert

variable {t : Breaks α F} {p k : α} {v : F}

theorem insertBreak_cons (e : α × F) (t : Breaks α F) (k : α) (v : F) :
    insertBreak (e :: t) k v = if e.1 ≤ k then e :: t.insertBreak k v else (k, v) :: e :: t := by
  unfold insertBreak
  rw [takeWhile_cons, dropWhile_cons]
  split_ifs <;> simp_all

theorem mem_keys_insertBreak {x : α} : x ∈ (t.insertBreak k v).keys ↔ x = k ∨ x ∈ t.keys := by
  induction t with
  | nil => simp [insertBreak, keys]
  | cons e rest ih =>
      rw [insertBreak_cons]
      split_ifs
      · rw [keys, map_cons, mem_cons, ← keys, ih, keys, keys, map_cons, mem_cons]
        tauto
      · simp [keys]

theorem Ascending.insertBreak (ht : t.Ascending) (hk : k ∉ t.keys) :
    (t.insertBreak k v).Ascending := by
  induction t with
  | nil => exact pairwise_singleton _ _
  | cons e rest ih =>
      obtain ⟨hfirst, hrest⟩ := pairwise_cons.mp ht
      rw [keys, map_cons, mem_cons, not_or] at hk
      rw [insertBreak_cons]
      split_ifs with hle
      · refine pairwise_cons.mpr ⟨fun e' he' => ?_, ih hrest hk.2⟩
        have hkey := mem_keys_insertBreak.mp (mem_map_of_mem he')
        rcases hkey with hkey | hkey
        · rw [hkey]
          exact lt_of_le_of_ne hle (Ne.symm hk.1)
        · obtain ⟨e'', he'', hsame⟩ := mem_map.mp hkey
          rw [← hsame]
          exact hfirst e'' he''
      · have hlt := not_le.mp hle
        refine pairwise_cons.mpr ⟨fun e' he' => ?_, ht⟩
        rcases mem_cons.mp he' with rfl | he'
        · exact hlt
        · exact hlt.trans (hfirst e' he')

/-- A new break with the value that is there already. -/
theorem valueAbove_insertBreak [Zero F] (t : Breaks α F) (k p : α) :
    (t.insertBreak k (t.valueAbove k)).valueAbove p = t.valueAbove p := by
  induction t with
  | nil =>
      rw [insertBreak, takeWhile_nil, dropWhile_nil, nil_append, valueAbove_cons]
      exact ite_self _
  | cons e rest ih =>
      rw [insertBreak_cons, valueAbove_cons e rest k]
      split_ifs with hle hlt hlt
      · exact absurd hlt (not_lt.mpr hle)
      · rw [valueAbove_cons, valueAbove_cons, ih]
      · rw [valueAbove_cons, valueAbove_cons]
        split_ifs with hp hpe hpe
        · rfl
        · exact absurd (hp.trans hlt) hpe
        · rfl
        · rfl
      · exact absurd (not_le.mp hle) hlt

end Insert

section Add

variable {t : Breaks α F} {p r : α} {l : WithBot α} {a : F}

@[simp] theorem keys_addBetween [Add F] (t : Breaks α F) (l : WithBot α) (r : α) (a : F) :
    (t.addBetween l r a).keys = t.keys := by
  unfold keys addBetween
  rw [map_map]
  refine map_congr_left fun e _ => ?_
  dsimp only [Function.comp_apply]
  split_ifs <;> rfl

theorem ascending_iff_keys : t.Ascending ↔ t.keys.Pairwise (· < ·) :=
  pairwise_map.symm

theorem Ascending.addBetween [Add F] (ht : t.Ascending) : (t.addBetween l r a).Ascending := by
  rw [ascending_iff_keys, keys_addBetween]
  exact ascending_iff_keys.mp ht

theorem above_addBetween [Add F] (t : Breaks α F) (l : WithBot α) (r p : α) (a : F) :
    (t.addBetween l r a).above p =
      (t.above p).map (fun e => if l < e.1 ∧ e.1 ≤ r then (e.1, e.2 + a) else e) := by
  unfold above addBetween
  rw [find?_map]
  congr 2
  funext e
  dsimp only [Function.comp_apply]
  split_ifs <;> rfl

/-- An addition between two breaks changes the function there and nowhere else. -/
theorem valueAbove_addBetween [AddZeroClass F] (ht : t.Ascending)
    (hl : (∃ k ∈ t.keys, l = k) ∨ ∀ x : α, l ≤ x) (hr : r ∈ t.keys) :
    (t.addBetween l r a).valueAbove p = t.valueAbove p + if l ≤ p ∧ p < r then a else 0 := by
  unfold valueAbove
  rw [above_addBetween]
  cases h : t.above p with
  | none =>
      have hle := above_eq_none h hr
      rw [if_neg (fun hp => absurd hp.2 (not_lt.mpr hle))]
      exact (add_zero _).symm
  | some e =>
      obtain ⟨-, hlt⟩ := mem_of_above h
      have hiff : (l < e.1 ∧ e.1 ≤ r) ↔ (l ≤ p ∧ p < r) := by
        constructor
        · rintro ⟨hle, her⟩
          refine ⟨?_, hlt.trans_le her⟩
          rcases hl with ⟨k, hk, rfl⟩ | hl
          · rw [WithBot.coe_lt_coe] at hle
            rw [WithBot.coe_le_coe]
            by_contra hp
            exact absurd (above_le ht h hk (not_le.mp hp)) (not_le.mpr hle)
          · exact hl p
        · rintro ⟨hlp, hpr⟩
          exact ⟨hlp.trans_lt (WithBot.coe_lt_coe.mpr hlt), above_le ht h hr hpr⟩
      simp only [Option.map_some, Option.getD_some, hiff]
      split_ifs
      · rfl
      · exact (add_zero _).symm

/-- An addition up to a new break, from the point before it, gives the break its value. -/
theorem addBetween_insertBreak [AddZeroClass F] {before k : α} {v : F}
    (hbefore : ∀ x, before < x ↔ k ≤ x) (hk : k ∉ t.keys) :
    (t.insertBreak k 0).addBetween before k v = t.insertBreak k v := by
  have hother : ∀ e ∈ t, ¬ ((before : WithBot α) < e.1 ∧ e.1 ≤ k) := by
    rintro e he ⟨hlt, hle⟩
    rw [WithBot.coe_lt_coe, hbefore] at hlt
    exact hk (le_antisymm hle hlt ▸ mem_map_of_mem he)
  have hkept : ∀ t' : Breaks α F, t' ⊆ t →
      t'.map (fun e => if (before : WithBot α) < e.1 ∧ e.1 ≤ k then (e.1, e.2 + v) else e) =
        t' := by
    intro t' ht'
    rw [map_congr_left fun e he => if_neg (hother e (ht' he)), List.map_id']
  have hnew : (before : WithBot α) < k ∧ k ≤ k :=
    ⟨WithBot.coe_lt_coe.mpr ((hbefore k).mpr le_rfl), le_rfl⟩
  unfold Breaks.addBetween Breaks.insertBreak
  rw [map_append, map_cons, hkept _ (takeWhile_sublist _).subset,
    hkept _ (dropWhile_sublist _).subset, if_pos hnew, zero_add]

end Add

section Remove

variable {t : Breaks α F} {p k before : α}

theorem removeBreak_cons (e : α × F) (t : Breaks α F) (k : α) :
    removeBreak (e :: t) k = if e.1 = k then t else e :: t.removeBreak k := by
  unfold removeBreak
  rw [eraseP_cons]
  split <;> simp_all

theorem removeBreak_of_notMem (hk : k ∉ t.keys) : t.removeBreak k = t := by
  refine eraseP_of_forall_not fun e he => ?_
  rw [decide_eq_true_eq]
  rintro rfl
  exact hk (mem_map_of_mem he)

theorem mem_keys_removeBreak_of_ne {x : α} (hx : x ≠ k) :
    x ∈ (t.removeBreak k).keys ↔ x ∈ t.keys := by
  induction t with
  | nil => rfl
  | cons e rest ih =>
      rw [removeBreak_cons]
      split_ifs with he
      · rw [keys, keys, map_cons, mem_cons, he, or_iff_right hx]
      · rw [keys, map_cons, mem_cons, ← keys, ih, keys, keys, map_cons, mem_cons]

theorem Ascending.removeBreak (ht : t.Ascending) : (t.removeBreak k).Ascending :=
  ht.sublist eraseP_sublist

/-- A break with the same value on both sides may go. -/
theorem valueAbove_removeBreak [Zero F] (ht : t.Ascending) (hbefore : ∀ x, before < x ↔ k ≤ x)
    (hsame : t.valueAbove before = t.valueAbove k) :
    (t.removeBreak k).valueAbove p = t.valueAbove p := by
  induction t with
  | nil => rfl
  | cons e rest ih =>
      obtain ⟨hfirst, hrest⟩ := pairwise_cons.mp ht
      rw [valueAbove_cons, valueAbove_cons] at hsame
      rw [removeBreak_cons, valueAbove_cons]
      rcases lt_trichotomy e.1 k with hlt | heq | hgt
      · rw [if_neg (fun hb => absurd ((hbefore _).mp hb) (not_le.mpr hlt)),
          if_neg hlt.not_gt] at hsame
        rw [if_neg hlt.ne, valueAbove_cons, ih hrest hsame]
      · rw [if_pos ((hbefore _).mpr heq.ge), if_neg heq.not_gt] at hsame
        rw [if_pos heq]
        split_ifs with hp
        · -- both points are below every key that is left
          have hall : ∀ {q : α}, q ≤ e.1 → above rest q = rest.head? := by
            intro q hq
            cases rest with
            | nil => rfl
            | cons e' rest' =>
                rw [above_cons, if_pos (hq.trans_lt (hfirst e' mem_cons_self))]
                rfl
          rw [hsame]
          unfold valueAbove
          rw [hall hp.le, hall heq.ge]
        · rfl
      · have hk : k ∉ keys rest := by
          rintro hk
          obtain ⟨e', he', rfl⟩ := mem_map.mp hk
          exact absurd (hfirst e' he') hgt.not_gt
        rw [if_neg hgt.ne', removeBreak_of_notMem hk, valueAbove_cons]

end Remove

section Parts

variable {t lower upper : Breaks α F} {p k r : α} {l : WithBot α} {v : F}

/-- The breaks above `l`, up to `r`. -/
def between (t : Breaks α F) (l : WithBot α) (r : α) : Breaks α F :=
  t.filter (fun e => l < e.1 ∧ e.1 ≤ r)

omit [LinearOrder α] in
theorem keys_append (lower upper : Breaks α F) : keys (lower ++ upper) = keys lower ++ keys upper :=
  map_append

theorem above_append (hlower : ∀ x ∈ lower.keys, x ≤ p) (hupper : ∀ x ∈ upper.keys, p < x) :
    above (lower ++ upper) p = upper.head? := by
  induction lower with
  | nil =>
      cases upper with
      | nil => rfl
      | cons e rest =>
          rw [nil_append, above_cons, if_pos (hupper e.1 mem_cons_self)]
          rfl
  | cons e rest ih =>
      rw [cons_append, above_cons, if_neg (not_lt.mpr (hlower e.1 mem_cons_self))]
      exact ih fun x hx => hlower x (mem_cons_of_mem _ hx)

theorem insertBreak_append (hlower : ∀ x ∈ lower.keys, x ≤ p) (hupper : ∀ x ∈ upper.keys, p < x) :
    insertBreak (lower ++ upper) p v = lower ++ (p, v) :: upper := by
  induction lower with
  | nil =>
      cases upper with
      | nil => rfl
      | cons e rest =>
          rw [nil_append, insertBreak_cons,
            if_neg (not_le.mpr (hupper e.1 mem_cons_self)), nil_append]
  | cons e rest ih =>
      rw [cons_append, insertBreak_cons, if_pos (hlower e.1 mem_cons_self),
        ih fun x hx => hlower x (mem_cons_of_mem _ hx), cons_append]

theorem removeBreak_append_left (hk : k ∉ upper.keys) :
    removeBreak (lower ++ upper) k = lower.removeBreak k ++ upper := by
  induction lower with
  | nil => exact removeBreak_of_notMem hk
  | cons e rest ih =>
      rw [cons_append, removeBreak_cons, removeBreak_cons, ih]
      split_ifs <;> rfl

theorem removeBreak_append_right (hk : k ∉ lower.keys) :
    removeBreak (lower ++ upper) k = lower ++ upper.removeBreak k := by
  induction lower with
  | nil => rfl
  | cons e rest ih =>
      have hne : e.1 ≠ k := fun heq => hk (mem_cons.mpr (.inl heq.symm))
      rw [cons_append, removeBreak_cons, if_neg hne,
        ih fun hmem => hk (mem_cons_of_mem _ hmem), cons_append]

theorem addBetween_append [Add F] (lower upper : Breaks α F) (l : WithBot α) (r : α) (a : F) :
    addBetween (lower ++ upper) l r a = lower.addBetween l r a ++ upper.addBetween l r a :=
  map_append

variable {a : F}

theorem addBetween_of_outside [Add F] (h : ∀ x ∈ t.keys, ¬ (l < x ∧ x ≤ r)) :
    t.addBetween l r a = t := by
  unfold addBetween
  rw [map_congr_left fun e he => if_neg (h e.1 (mem_map_of_mem he)), List.map_id']

theorem addBetween_of_inside [Add F] (h : ∀ x ∈ t.keys, l < x ∧ x ≤ r) :
    t.addBetween l r a = t.map (fun e => (e.1, e.2 + a)) :=
  map_congr_left fun e he => if_pos (h e.1 (mem_map_of_mem he))

theorem addBetween_congr_left [Add F] {l' : WithBot α}
    (h : ∀ x ∈ t.keys, l < x ↔ l' < x) : t.addBetween l r a = t.addBetween l' r a :=
  map_congr_left fun e he =>
    if_congr (and_congr_left fun _ => h e.1 (mem_map_of_mem he)) rfl rfl

theorem between_append (lower upper : Breaks α F) (l : WithBot α) (r : α) :
    between (lower ++ upper) l r = lower.between l r ++ upper.between l r :=
  filter_append lower upper

theorem between_of_outside (h : ∀ x ∈ t.keys, ¬ (l < x ∧ x ≤ r)) : t.between l r = [] := by
  refine filter_eq_nil_iff.mpr fun e he => ?_
  rw [decide_eq_true_eq]
  exact h e.1 (mem_map_of_mem he)

theorem between_of_inside (h : ∀ x ∈ t.keys, l < x ∧ x ≤ r) : t.between l r = t := by
  refine filter_eq_self.mpr fun e he => ?_
  rw [decide_eq_true_eq]
  exact h e.1 (mem_map_of_mem he)

/-- The value at a point is that of the first key above it. -/
theorem valueAbove_eq [Zero F] (ht : t.Ascending) (hkey : t.keyAbove p = some k)
    (hmem : (k, v) ∈ t) : t.valueAbove p = v := by
  obtain ⟨e, habove, rfl⟩ := Option.map_eq_some_iff.mp hkey
  obtain ⟨he, -⟩ := mem_of_above habove
  have hkeys : (t.map Prod.fst).Nodup := (ascending_iff_keys.mp ht).imp ne_of_lt
  have hsame : e = (e.1, v) := inj_on_of_nodup_map hkeys he hmem rfl
  unfold valueAbove
  rw [habove, Option.map_some, Option.getD_some, hsame]

end Parts

section Represents

variable {t : Breaks α F} {K : Set α} {f : α → F} {k before r : α} {l : WithBot α}

/-- The breaks stand for a function and have some keys at least. -/
structure Represents [Zero F] (t : Breaks α F) (K : Set α) (f : α → F) : Prop where
  ascending : t.Ascending
  keys : ∀ k ∈ K, k ∈ t.keys
  value : ∀ p, t.valueAbove p = f p

/-- Without breaks it is zero. -/
theorem represents_nil [Zero F] : Represents ([] : Breaks α F) ∅ (fun _ => 0) :=
  ⟨List.Pairwise.nil, fun _ hk => absurd hk (Set.notMem_empty _), fun _ => rfl⟩

theorem Represents.mono [Zero F] {K' : Set α} (h : Represents t K f) (hsub : K' ⊆ K) :
    Represents t K' f :=
  ⟨h.ascending, fun k hk => h.keys k (hsub hk), h.value⟩

/-- A new key that is given the value of the key above it. -/
theorem Represents.insertBreak [AddZeroClass F] (h : Represents t K f)
    (hbefore : ∀ x, before < x ↔ k ≤ x) (hk : k ∉ t.keys) :
    Represents ((t.insertBreak k 0).addBetween before k (t.valueAbove k)) (insert k K) f := by
  rw [addBetween_insertBreak hbefore hk]
  refine ⟨h.ascending.insertBreak hk, fun x hx => ?_, fun p => ?_⟩
  · rw [mem_keys_insertBreak]
    rcases hx with rfl | hx
    · exact .inl rfl
    · exact .inr (h.keys x hx)
  · rw [valueAbove_insertBreak, h.value]

/-- An addition between two keys. -/
theorem Represents.addBetween [AddZeroClass F] {a : F} (h : Represents t K f)
    (hl : (∃ k ∈ K, l = (k : WithBot α)) ∨ ∀ x : α, l ≤ x) (hr : r ∈ K) :
    Represents (t.addBetween l r a) K (fun p => f p + if l ≤ p ∧ p < r then a else 0) := by
  have hl' : (∃ k ∈ t.keys, l = (k : WithBot α)) ∨ ∀ x : α, l ≤ x :=
    hl.imp_left fun ⟨k, hk, hlk⟩ => ⟨k, h.keys k hk, hlk⟩
  refine ⟨h.ascending.addBetween, fun x hx => ?_, fun p => ?_⟩
  · rw [keys_addBetween]
    exact h.keys x hx
  · rw [valueAbove_addBetween h.ascending hl' (h.keys r hr), h.value]

/-- A key at which the function does not change is given up. -/
theorem Represents.removeBreak [Zero F] (h : Represents t K f) (hbefore : ∀ x, before < x ↔ k ≤ x)
    (hsame : f before = f k) : Represents (t.removeBreak k) (K \ {k}) f := by
  refine ⟨h.ascending.removeBreak, fun x hx => ?_, fun p => ?_⟩
  · exact (mem_keys_removeBreak_of_ne hx.2).mpr (h.keys x hx.1)
  · rw [valueAbove_removeBreak h.ascending hbefore (by rw [h.value, h.value, hsame]), h.value]

end Represents

end Breaks

end Breaks
end Lib
end ContExchange
