import Mathlib.Data.List.AList
import Mathlib.Data.List.Sort
import Mathlib.Algebra.Order.BigOperators.Group.List

/-!
# Library: finite tables and the sums over their rows

A table is an association list without repeated keys (`AList` of Mathlib with
one value type).  This module adds the sum of a function over the rows and how
it changes under insertion, removal and filtering of rows, and what a write does to
the rows of other owners.
-/

namespace ContExchange
namespace Lib

open AList List Option

universe u v w

/-- A finite table from keys to values. -/
abbrev Table (κ : Type u) (ν : Type v) := AList (fun _ : κ => ν)

namespace Table

section TableSums

variable {κ : Type u} {ν : Type v} {M : Type w}

/-- The rows that satisfy `keep`. -/
def filter (keep : κ → ν → Bool) (t : Table κ ν) : Table κ ν :=
  ⟨t.entries.filter (fun r => keep r.1 r.2),
    t.nodupKeys.sublist List.filter_sublist⟩

/-- The sum of `f` over the rows. -/
def sum [AddCommMonoid M] (f : κ → ν → M) (t : Table κ ν) : M :=
  (t.entries.map (fun r => f r.1 r.2)).sum

@[simp] theorem sum_empty [AddCommMonoid M] (f : κ → ν → M) : sum f (∅ : Table κ ν) = 0 := rfl

variable [DecidableEq κ]

@[simp] theorem lookup_filter (keep : κ → ν → Bool) (t : Table κ ν) (k : κ) :
    (t.filter keep).lookup k = (t.lookup k).filter (keep k) := by
  apply Option.ext
  intro v
  rw [filter_eq_some_iff, ← mem_def, ← mem_def, mem_lookup_iff, mem_lookup_iff]
  simp [filter]

section Sums

variable [AddCommMonoid M] (f : κ → ν → M)

variable {t : Table κ ν} {k : κ}

/-- Removing a row that is there takes its term out of the sum. -/
theorem sum_erase_of_lookup {v : ν} (h : t.lookup k = some v) :
    f k v + sum f (t.erase k) = sum f t := by
  have hk : k ∈ t.entries.keys := by
    have : k ∈ t := lookup_isSome.mp (by simp [h])
    exact this
  obtain ⟨v', l₁, l₂, hl₁, hl, he⟩ := exists_of_kerase hk
  have hv : v' = v := by
    have hmem : (⟨k, v'⟩ : Sigma fun _ : κ => ν) ∈ t.entries := by
      rw [hl]
      simp
    have := mem_lookup_iff.mpr hmem
    rw [h] at this
    exact (Option.some.inj this).symm
  subst hv
  have herase : (t.erase k).entries = l₁ ++ l₂ := he
  unfold sum
  rw [herase, hl]
  simp only [map_append, map_cons, sum_append, sum_cons]
  exact add_left_comm _ _ _

/-- Removing a row that is not there changes no sum. -/
theorem sum_erase_of_none (h : t.lookup k = none) : sum f (t.erase k) = sum f t := by
  have hk : k ∉ t.entries.keys := lookup_eq_none.mp h
  have herase : (t.erase k).entries = t.entries :=
    kerase_of_notMem_keys hk
  unfold sum
  rw [herase]

/-- A new row adds its term. -/
theorem sum_insert (t : Table κ ν) (k : κ) (v : ν) :
    sum f (t.insert k v) = f k v + sum f (t.erase k) := by
  unfold sum
  rw [entries_insert]
  rfl

theorem sum_insert_of_none (h : t.lookup k = none) (v : ν) :
    sum f (t.insert k v) = f k v + sum f t := by
  rw [sum_insert, sum_erase_of_none f h]

/-- Dropping rows whose terms are zero changes no sum. -/
theorem sum_filter_of_zero {keep : κ → ν → Bool}
    (h : ∀ k v, t.lookup k = some v → keep k v = false → f k v = 0) :
    sum f (t.filter keep) = sum f t := by
  have hentries : ∀ r ∈ t.entries, keep r.1 r.2 = false → f r.1 r.2 = 0 := by
    intro r hr hkeep
    exact h r.1 r.2 (mem_lookup_iff.mpr hr) hkeep
  show ((t.entries.filter _).map _).sum = (t.entries.map _).sum
  generalize t.entries = l at hentries
  induction l with
  | nil => rfl
  | cons r l ih =>
      have ih' := ih (fun r hr => hentries r (mem_cons_of_mem _ hr))
      cases hkeep : keep r.1 r.2 with
      | true => simp [hkeep, ih']
      | false =>
          have hzero := hentries r (by simp) hkeep
          simp [hkeep, ih', hzero]

/-- A sum over the rows that satisfy a test. -/
theorem sum_filter (keep : κ → ν → Bool) (t : Table κ ν) :
    sum f (t.filter keep) = sum (fun k v => if keep k v then f k v else 0) t := by
  have hzero : ∀ k v, t.lookup k = some v → keep k v = false →
      (if keep k v then f k v else 0) = 0 := by
    intro k v _ hkeep
    rw [hkeep]
    rfl
  rw [← sum_filter_of_zero _ hzero]
  unfold sum filter
  refine congrArg List.sum (map_congr_left (fun r hr => ?_))
  exact (if_pos (mem_filter.mp hr).2).symm

/-- A row of the sum that is replaced. -/
theorem sum_insert_of_lookup {M : Type w} [AddCommGroup M] (f : κ → ν → M) {v : ν}
    (h : t.lookup k = some v) (v' : ν) : sum f (t.insert k v') = sum f t + (f k v' - f k v) := by
  rw [sum_insert, ← sum_erase_of_lookup f h, add_comm (f k v), add_assoc, add_sub_cancel, add_comm]

end Sums

/-- A sum of non-negative terms is non-negative. -/
theorem sum_nonneg [AddCommMonoid M] [PartialOrder M] [IsOrderedAddMonoid M] (f : κ → ν → M)
    {t : Table κ ν} (h : ∀ k v, t.lookup k = some v → 0 ≤ f k v) : 0 ≤ sum f t := by
  apply List.sum_nonneg
  intro x hx
  obtain ⟨r, hr, rfl⟩ := List.mem_map.mp hx
  exact h r.1 r.2 (AList.mem_lookup_iff.mpr hr)

section Sorting

variable (r : κ → κ → Prop) [DecidableRel r]

/-- The rows in the order of their keys. -/
def sorted (t : Table κ ν) : List (Sigma fun _ : κ => ν) :=
  t.entries.insertionSort (fun a b => r a.1 b.1)

omit [DecidableEq κ] in
theorem perm_sorted (t : Table κ ν) : (t.sorted r).Perm t.entries :=
  perm_insertionSort _ _

/-- The sorted rows are the rows of the table. -/
theorem mem_sorted {t : Table κ ν} {e : Sigma fun _ : κ => ν} :
    e ∈ t.sorted r ↔ t.lookup e.1 = some e.2 := by
  rw [(perm_sorted r t).mem_iff, ← mem_def, mem_lookup_iff]

omit [DecidableEq κ] in
theorem nodup_keys_sorted (t : Table κ ν) : ((t.sorted r).map Sigma.fst).Nodup :=
  ((perm_sorted r t).map Sigma.fst).nodup_iff.mpr t.nodupKeys

end Sorting

end TableSums

section Mapping

variable {κ : Type u} {ν : Type v}

/-- Every row changed by a function of its key and value. -/
def mapRows (f : κ → ν → ν) (t : Table κ ν) : Table κ ν :=
  ⟨t.entries.map (fun e => ⟨e.1, f e.1 e.2⟩), by
    rw [List.NodupKeys, List.keys, List.map_map]
    exact t.nodupKeys⟩

@[simp] theorem lookup_mapRows [DecidableEq κ] (f : κ → ν → ν) (t : Table κ ν) (k : κ) :
    (t.mapRows f).lookup k = (t.lookup k).map (f k) :=
  dlookup_map₂ k

end Mapping

section Filling

variable {κ : Type u} {ν : Type v} [DecidableEq κ]

variable {rows : List (κ × ν)} {t : Table κ ν} {k : κ}

/-- A row of a table that was filled comes from the list or was there before. -/
theorem mem_of_lookup_foldl_insert {v : ν}
    (h : (rows.foldl (fun t e => t.insert e.1 e.2) t).lookup k = some v) :
    (k, v) ∈ rows ∨ t.lookup k = some v := by
  induction rows generalizing t with
  | nil => exact Or.inr h
  | cons e rows ih =>
      rcases ih h with hmem | hold
      · exact Or.inl (mem_cons_of_mem e hmem)
      · by_cases hk : k = e.1
        · subst hk
          rw [lookup_insert] at hold
          cases hold
          exact Or.inl mem_cons_self
        · rw [lookup_insert_ne hk] at hold
          exact Or.inr hold

/-- Keys that differ from all keys of the list keep their rows. -/
theorem lookup_foldl_insert_of_notMem (h : k ∉ rows.map Prod.fst) :
    (rows.foldl (fun t e => t.insert e.1 e.2) t).lookup k = t.lookup k := by
  induction rows generalizing t with
  | nil => rfl
  | cons e rows ih =>
      rw [map_cons, mem_cons, not_or] at h
      rw [foldl_cons, ih h.2, lookup_insert_ne h.1]

/-- With different keys every row of the list is in the table. -/
theorem lookup_foldl_insert_of_mem {v : ν} (hnodup : (rows.map Prod.fst).Nodup)
    (h : (k, v) ∈ rows) : (rows.foldl (fun t e => t.insert e.1 e.2) t).lookup k = some v := by
  induction rows generalizing t with
  | nil => cases h
  | cons e rows ih =>
      rw [map_cons, nodup_cons] at hnodup
      rcases mem_cons.mp h with rfl | hmem
      · rw [foldl_cons, lookup_foldl_insert_of_notMem hnodup.1, lookup_insert]
      · exact ih hnodup.2 hmem

/-- Erasing some keys leaves the other rows. -/
theorem lookup_foldl_erase (keys : List κ) (t : Table κ ν) (k : κ) :
    (keys.foldl (fun t k => t.erase k) t).lookup k = if k ∈ keys then none else t.lookup k := by
  induction keys generalizing t with
  | nil => rfl
  | cons key keys ih =>
      rw [foldl_cons, ih]
      by_cases hk : k = key
      · subst hk
        rw [lookup_erase, if_pos mem_cons_self]
        split <;> rfl
      · rw [lookup_erase_ne hk]
        simp only [mem_cons, hk, false_or]

end Filling

section Relations

variable {κ : Type u} {ν : Type v} [DecidableEq κ]

/-- The tables have the same keys, and the two rows of a key are related. -/
def Related (R : κ → ν → ν → Prop) (t t' : Table κ ν) : Prop :=
  ∀ k, Option.Rel (R k) (t.lookup k) (t'.lookup k)

variable {R : κ → ν → ν → Prop} {t t' t'' : Table κ ν}

theorem Related.refl (h : ∀ k v, R k v v) (t : Table κ ν) : Related R t t := by
  intro k
  cases t.lookup k with
  | none => exact .none
  | some v => exact .some (h k v)

theorem Related.trans (h : ∀ k a b c, R k a b → R k b c → R k a c) (hfirst : Related R t t')
    (hsecond : Related R t' t'') : Related R t t'' := by
  intro k
  have h₁ := hfirst k
  have h₂ := hsecond k
  revert h₁ h₂
  cases t.lookup k <;> cases t'.lookup k <;> cases t''.lookup k <;> intro h₁ h₂ <;>
    cases h₁ <;> cases h₂
  · exact .none
  · exact .some (h k _ _ _ ‹_› ‹_›)

variable {k : κ}

/-- A row of the first table has a related one in the second. -/
theorem Related.row_after {v : ν} (h : Related R t t') (hrow : t.lookup k = some v) :
    ∃ v', t'.lookup k = some v' ∧ R k v v' := by
  have hk := h k
  rw [hrow] at hk
  cases hrow' : t'.lookup k with
  | none =>
      rw [hrow'] at hk
      cases hk
  | some v' =>
      rw [hrow'] at hk
      cases hk with
      | some hrel => exact ⟨v', rfl, hrel⟩

/-- A row of the second table has a related one in the first. -/
theorem Related.row_before {v' : ν} (h : Related R t t') (hrow : t'.lookup k = some v') :
    ∃ v, t.lookup k = some v ∧ R k v v' := by
  have hk := h k
  rw [hrow] at hk
  cases hrow' : t.lookup k with
  | none =>
      rw [hrow'] at hk
      cases hk
  | some v =>
      rw [hrow'] at hk
      cases hk with
      | some hrel => exact ⟨v, rfl, hrel⟩

/-- One row is replaced by a related one. -/
theorem Related.insert (hrefl : ∀ k v, R k v v) {v v' : ν} (hrow : t.lookup k = some v)
    (hrel : R k v v') : Related R t (t.insert k v') := by
  intro j
  by_cases hj : j = k
  · subst hj
    rw [hrow, lookup_insert]
    exact .some hrel
  · rw [lookup_insert_ne hj]
    exact Related.refl hrefl t j

end Relations

section Owners

variable {κ : Type u} {ν : Type v} {ω : Type w} [DecidableEq κ]

/-- The rows of every owner but one are the same. -/
def SameForOthers (owner : ν → ω) (a : ω) (t t' : Table κ ν) : Prop :=
  ∀ k v, owner v ≠ a → (t'.lookup k = some v ↔ t.lookup k = some v)

/-- The row of a key, if there is one, belongs to the owner. -/
def OwnedBy (owner : ν → ω) (a : ω) (t : Table κ ν) (k : κ) : Prop :=
  ∀ v, t.lookup k = some v → owner v = a

variable {owner : ν → ω} {a : ω} {t t' t'' : Table κ ν} {k : κ}

theorem SameForOthers.refl (owner : ν → ω) (a : ω) (t : Table κ ν) : SameForOthers owner a t t :=
  fun _ _ _ => Iff.rfl

theorem SameForOthers.trans (h : SameForOthers owner a t t') (h' : SameForOthers owner a t' t'') :
    SameForOthers owner a t t'' :=
  fun k v hv => (h' k v hv).trans (h k v hv)

theorem SameForOthers.symm (h : SameForOthers owner a t t') : SameForOthers owner a t' t :=
  fun k v hv => (h k v hv).symm

/-- Who owns a row does not depend on one's own rows. -/
theorem SameForOthers.ownedBy_iff (h : SameForOthers owner a t t') :
    OwnedBy owner a t' k ↔ OwnedBy owner a t k := by
  constructor
  · intro howned v hv
    by_contra hne
    exact hne (howned v ((h k v hne).mpr hv))
  · intro howned v hv
    by_contra hne
    exact hne (howned v ((h k v hne).mp hv))

/-- Tables with the same rows are the same for everybody. -/
theorem SameForOthers.of_lookup (h : ∀ k, t'.lookup k = t.lookup k) :
    SameForOthers owner a t t' := by
  intro k v _
  rw [h k]

/-- Dropping a row leaves the others alone exactly when the row was one's own. -/
theorem sameForOthers_erase_iff : SameForOthers owner a t (t.erase k) ↔ OwnedBy owner a t k := by
  constructor
  · intro h v hv
    by_contra hne
    have := (h k v hne).mpr hv
    rw [lookup_erase] at this
    cases this
  · intro h k' v hne
    by_cases hk : k' = k
    · subst hk
      rw [lookup_erase]
      exact iff_of_false (by simp) (fun hv => hne (h v hv))
    · rw [lookup_erase_ne hk]

/-- Writing one's own row leaves the others alone exactly when the row that it
replaces was one's own. -/
theorem sameForOthers_insert_iff {v : ν} (hv : owner v = a) :
    SameForOthers owner a t (t.insert k v) ↔ OwnedBy owner a t k := by
  constructor
  · intro h old hold
    by_contra hne
    have := (h k old hne).mpr hold
    rw [lookup_insert] at this
    cases this
    exact hne hv
  · intro h k' w hne
    by_cases hk : k' = k
    · subst hk
      rw [lookup_insert]
      refine iff_of_false (fun heq => ?_) (fun hw => hne (h w hw))
      cases heq
      exact hne hv
    · rw [lookup_insert_ne hk]

/-- Writing a row and dropping it again is dropping it. -/
theorem sameForOthers_insert_erase_iff (v : ν) :
    SameForOthers owner a t ((t.insert k v).erase k) ↔ OwnedBy owner a t k := by
  have hsame : SameForOthers owner a (t.erase k) ((t.insert k v).erase k) := by
    refine .of_lookup (fun k' => ?_)
    by_cases hk : k' = k
    · rw [hk, lookup_erase, lookup_erase]
    · rw [lookup_erase_ne hk, lookup_erase_ne hk, lookup_insert_ne hk]
  rw [← sameForOthers_erase_iff]
  exact ⟨fun h => h.trans hsame.symm, fun h => h.trans hsame⟩

end Owners

end Table
end Lib
end ContExchange
