import Mathlib.Data.List.Sort

/-!
# Library: sorting by a key and picking a largest element

A list is sorted by a key of its elements.  When no key comes twice, the result
does not depend on the order of the list: it is the only list with these elements
whose keys increase.  A sort that promises the order of the keys alone (`SortOf`) gives
the same list for every order of the elements exactly when different elements have
different keys.

`maxElement` scans a list for an element that is not worse than the ones after
it.  The comparison is any Boolean function; with a comparison that is not an
order the scan still returns an element of the list.  When elements are compared by
a key that no two of them share, the result depends on the set of elements alone.
-/

namespace ContExchange
namespace Lib

open List hiding filter_filter

section SortBy

variable {α κ : Type*} [LinearOrder κ] (key : α → κ)

def sortBy (l : List α) : List α :=
  l.insertionSort (fun a b => key a ≤ key b)

@[simp] theorem mem_sortBy {l : List α} {a : α} : a ∈ sortBy key l ↔ a ∈ l :=
  mem_insertionSort _

/-- Distinct keys increase. -/
theorem pairwise_sortBy {l : List α} (h : (l.map key).Nodup) :
    (sortBy key l).Pairwise (fun a b => key a < key b) := by
  have htotal : Std.Total (fun a b : α => key a ≤ key b) := ⟨fun a b => le_total _ _⟩
  have htrans : IsTrans α (fun a b => key a ≤ key b) := ⟨fun a b c => le_trans⟩
  have hle : (sortBy key l).Pairwise (fun a b => key a ≤ key b) :=
    pairwise_insertionSort _ l
  have hnodup : ((sortBy key l).map key).Nodup :=
    ((perm_insertionSort _ l).map key).nodup_iff.mpr h
  have hne : (sortBy key l).Pairwise (fun a b => key a ≠ key b) := pairwise_map.mp hnodup
  exact hle.imp₂ (fun _ _ hab hne => lt_of_le_of_ne hab hne) hne

variable {key}

/-- A list whose keys increase is determined by its elements. -/
theorem eq_of_pairwise_lt {l l' : List α} (h : l.Pairwise (fun a b => key a < key b))
    (h' : l'.Pairwise (fun a b => key a < key b)) (hmem : ∀ a, a ∈ l ↔ a ∈ l') : l = l' := by
  have hnodup : l.Nodup := h.imp (fun hab heq => (heq ▸ hab).false)
  have hnodup' : l'.Nodup := h'.imp (fun hab heq => (heq ▸ hab).false)
  have hperm : l.Perm l' := (perm_ext_iff_of_nodup hnodup hnodup').mpr hmem
  exact hperm.eq_of_pairwise (fun a b _ _ hab hba => absurd hba hab.not_gt) h h'

end SortBy

section SortOf

variable {α κ : Type*} [LinearOrder κ] {key : α → κ}

/-- What `std::sort` by a key promises. -/
structure SortOf (key : α → κ) where
  sort : List α → List α
  perm (l : List α) : (sort l).Perm l
  sorted (l : List α) : (sort l).Pairwise (fun a b => key a ≤ key b)

namespace SortOf

/-- The sort that leaves elements with one key in their order. -/
def stable (key : α → κ) : SortOf key where
  sort := sortBy key
  perm l := List.perm_insertionSort _ l
  sorted l :=
    have : Std.Total (fun a b : α => key a ≤ key b) := ⟨fun _ _ => le_total _ _⟩
    have : IsTrans α (fun a b => key a ≤ key b) := ⟨fun _ _ _ => le_trans⟩
    List.pairwise_insertionSort _ l

/-- Where equal keys belong to equal elements, the sorted list does not depend on the order. -/
theorem filter_sort_eq (std : SortOf key) {p : α → Bool} {l l' : List α} (hperm : l.Perm l')
    (hties : ∀ a ∈ l, ∀ b ∈ l, p a = true → p b = true → key a = key b → a = b) :
    (std.sort l).filter p = (std.sort l').filter p := by
  have hsame := ((std.perm l).trans (hperm.trans (std.perm l').symm)).filter p
  refine hsame.eq_of_pairwise ?_ ((std.sorted l).filter p) ((std.sorted l').filter p)
  intro a b ha hb hab hba
  obtain ⟨ha, hpa⟩ := mem_filter.mp ha
  obtain ⟨hb, hpb⟩ := mem_filter.mp hb
  exact hties a ((std.perm l).mem_iff.mp ha) b (hperm.mem_iff.mpr ((std.perm l').mem_iff.mp hb))
    hpa hpb (le_antisymm hab hba)

/-- The stable sort leaves the elements of a key as they were. -/
theorem filter_stable (k : κ) (l : List α) :
    ((stable key).sort l).filter (fun a => decide (key a = k)) =
      l.filter (fun a => decide (key a = k)) := by
  have hsame : (l.filter (fun a => decide (key a = k))).Pairwise (fun a b => key a ≤ key b) := by
    refine pairwise_of_forall_mem_list fun a ha b hb => ?_
    rw [of_decide_eq_true (mem_filter.mp ha).2, of_decide_eq_true (mem_filter.mp hb).2]
  have hsub := (sublist_insertionSort hsame filter_sublist).filter (fun a => decide (key a = k))
  rw [List.filter_filter] at hsub
  simp only [Bool.and_self] at hsub
  exact (hsub.eq_of_length (((stable key).perm l).filter _).length_eq.symm).symm

/-- If the stable sort does not depend on the order, equal keys belong to equal elements. -/
theorem eq_of_stable {p : α → Bool} {l : List α}
    (h : ∀ l', l.Perm l' → ((stable key).sort l').filter p = ((stable key).sort l).filter p)
    {a b : α} (ha : a ∈ l) (hb : b ∈ l) (hpa : p a = true) (hpb : p b = true)
    (hkey : key a = key b) : a = b := by
  have hfirst : ∀ x ∈ l, p x = true → key x = key a →
      ∃ rest, (((stable key).sort l).filter p).filter (fun y => decide (key y = key a)) =
        x :: rest := by
    intro x hx hpx hkeyx
    obtain ⟨front, back, rfl⟩ := append_of_mem hx
    refine ⟨((front ++ back).filter (fun y => decide (key y = key a))).filter p, ?_⟩
    rw [← h _ perm_middle, filter_comm, filter_stable,
      filter_cons_of_pos (by simpa using hkeyx), filter_cons_of_pos hpx]
  obtain ⟨rest, hrest⟩ := hfirst a ha hpa rfl
  obtain ⟨rest', hrest'⟩ := hfirst b hb hpb hkey.symm
  exact (List.cons.inj (hrest.symm.trans hrest')).1

end SortOf

end SortOf

section MaxElement

variable {α : Type*} (worse : α → α → Bool)

/-- `std::max_element`: the first element that no later one beats. -/
def maxElement : List α → Option α
  | [] => none
  | a :: l => some (l.foldl (fun best b => if worse best b then b else best) a)

variable {worse}

theorem mem_of_maxElement {l : List α} {a : α} (h : maxElement worse l = some a) : a ∈ l := by
  cases l with
  | nil => cases h
  | cons b l =>
      obtain rfl := Option.some_inj.mp h
      clear h
      induction l generalizing b with
      | nil => exact mem_cons_self
      | cons c l ih =>
          rw [foldl_cons]
          split
          · exact mem_cons_of_mem b (ih c)
          · rcases mem_cons.mp (ih b) with hb | hl
            · rw [hb]
              exact mem_cons_self
            · exact mem_cons_of_mem b (mem_cons_of_mem c hl)

/-- A list with an element has a largest one. -/
theorem exists_maxElement {l : List α} {a : α} (h : a ∈ l) : ∃ b, maxElement worse l = some b := by
  cases l with
  | nil => cases h
  | cons c l => exact ⟨_, rfl⟩

section Keys

variable {κ : Type*} [LinearOrder κ] {key : α → κ}

/-- By a key, the largest element is not below any other. -/
theorem le_of_maxElement (hworse : ∀ a b, worse a b = true ↔ key a < key b) {l : List α} {a : α}
    (h : maxElement worse l = some a) : ∀ b ∈ l, key b ≤ key a := by
  cases l with
  | nil => cases h
  | cons c l =>
      obtain rfl := Option.some_inj.mp h
      clear h
      induction l generalizing c with
      | nil => simp
      | cons d l ih =>
          intro b hb
          rw [foldl_cons]
          have hhead := ih (if worse c d = true then d else c) _ mem_cons_self
          by_cases hcd : worse c d = true
          · rw [if_pos hcd] at hhead ⊢
            rcases mem_cons.mp hb with rfl | hb
            · exact ((hworse b d).mp hcd).le.trans hhead
            · exact ih d b hb
          · rw [if_neg hcd] at hhead ⊢
            have hle : key d ≤ key c := not_lt.mp (fun hlt => hcd ((hworse c d).mpr hlt))
            rcases mem_cons.mp hb with rfl | hb
            · exact hhead
            · rcases mem_cons.mp hb with rfl | hb
              · exact hle.trans hhead
              · exact ih c b (mem_cons_of_mem c hb)

theorem maxElement_eq_of_mem_iff (hworse : ∀ a b, worse a b = true ↔ key a < key b)
    {l l' : List α} (hmem : ∀ a, a ∈ l ↔ a ∈ l') (hinj : ∀ a ∈ l, ∀ b ∈ l, key a = key b → a = b) :
    maxElement worse l = maxElement worse l' := by
  cases hmax : maxElement worse l with
  | none =>
      cases hmax' : maxElement worse l' with
      | none => rfl
      | some b =>
          have hb := (hmem b).mpr (mem_of_maxElement hmax')
          obtain ⟨c, hc⟩ : ∃ c, maxElement worse l = some c := exists_maxElement hb
          rw [hmax] at hc
          cases hc
  | some a =>
      have ha := mem_of_maxElement hmax
      obtain ⟨b, hmax'⟩ : ∃ b, maxElement worse l' = some b :=
        exists_maxElement ((hmem a).mp ha)
      have hb := mem_of_maxElement hmax'
      have hle := le_of_maxElement hworse hmax b ((hmem b).mpr hb)
      have hge := le_of_maxElement hworse hmax' a ((hmem a).mp ha)
      rw [hmax', hinj a ha b ((hmem b).mpr hb) (le_antisymm hge hle)]

end Keys

end MaxElement

end Lib
end ContExchange
