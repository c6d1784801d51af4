import ContExchange.Lib.Runs
import ContExchange.Lib.Table

/-!
# Library: grouping into a table

Items are written into a table one after the other, each into the row of its key,
with a value made of the row's value so far and the item.

* `lookup_run_upsert`: a row is the result of the items of its key, in order;
* `Table.sum_of_only`: a sum over the rows in which one key counts is the term of
  its row;
* `flatMap_of_only`: so is a concatenation over the rows;
* `sum_of_groups`: the sums over the items of each key make up the sum over all items.
-/

namespace ContExchange
namespace Lib

open AList List Option Table

universe u v w

section Grouping

variable {κ : Type u} {ν : Type v} {ε : Type w} [DecidableEq κ]

/-- An item is written into the row of its key. -/
def upsert (key : ε → κ) (f : Option ν → ε → ν) (t : Table κ ν) (e : ε) : Table κ ν :=
  t.insert (key e) (f (t.lookup (key e)) e)

/-- What the items of one key make of its row. -/
def rowOf (f : Option ν → ε → ν) (row : Option ν) (es : List ε) : Option ν :=
  run (fun row e => some (f row e)) row es

variable {key : ε → κ} {f : Option ν → ε → ν}

@[simp] theorem rowOf_nil (row : Option ν) : rowOf f row [] = row := rfl

@[simp] theorem rowOf_cons (row : Option ν) (e : ε) (es : List ε) :
    rowOf f row (e :: es) = rowOf f (some (f row e)) es := rfl

@[simp] theorem rowOf_append (row : Option ν) (es fs : List ε) :
    rowOf f row (es ++ fs) = rowOf f (rowOf f row es) fs := by
  simp [rowOf]

/-- A row is there once an item of its key was written. -/
theorem rowOf_none_iff {row : Option ν} {es : List ε} :
    rowOf f row es = none ↔ row = none ∧ es = [] := by
  induction es generalizing row with
  | nil => simp
  | cons e es ih => simp [ih]

/-- A row is made of the items of its key. -/
theorem lookup_run_upsert (t : Table κ ν) (es : List ε) (k : κ) :
    (run (upsert key f) t es).lookup k = rowOf f (t.lookup k) (es.filter (fun e => key e = k)) := by
  induction es generalizing t with
  | nil => rfl
  | cons e es ih =>
      rw [run_cons, ih, upsert]
      by_cases hk : key e = k
      · rw [filter_cons_of_pos (by simpa using hk), rowOf_cons, hk, lookup_insert]
      · rw [filter_cons_of_neg (by simpa using hk), lookup_insert_ne (Ne.symm hk)]

/-- When one key counts, a sum over the rows is the term of its row. -/
theorem Table.sum_of_only {M : Type*} [AddCommMonoid M] {g : κ → ν → M} {t : Table κ ν} (k : κ)
    (h : ∀ k' v, t.lookup k' = some v → k' ≠ k → g k' v = 0) :
    sum g t = (t.lookup k).elim 0 (g k) := by
  have hrest : sum g (t.erase k) = 0 := by
    apply sum_eq_zero
    intro x hx
    obtain ⟨r, hr, rfl⟩ := mem_map.mp hx
    have hlookup := mem_lookup_iff.mpr hr
    rw [mem_def] at hlookup
    by_cases hk : r.1 = k
    · rw [hk, lookup_erase] at hlookup
      cases hlookup
    · rw [lookup_erase_ne hk] at hlookup
      exact h r.1 r.2 hlookup hk
  cases hlookup : t.lookup k with
  | none => rw [← sum_erase_of_none g hlookup, hrest, elim_none]
  | some v =>
      rw [← sum_erase_of_lookup g hlookup, hrest, add_zero, elim_some]

/-- When one key counts, a concatenation over the rows is the part of its row. -/
theorem flatMap_of_only {β : Type*} {g : (Sigma fun _ : κ => ν) → List β}
    {rows : List (Sigma fun _ : κ => ν)} (hrows : rows.NodupKeys) (k : κ)
    (h : ∀ r ∈ rows, r.1 ≠ k → g r = []) :
    rows.flatMap g = (rows.dlookup k).elim [] (fun v => g ⟨k, v⟩) := by
  induction rows with
  | nil => rfl
  | cons r rows ih =>
      obtain ⟨k', v⟩ := r
      obtain ⟨hhead, htail⟩ := nodupKeys_cons.mp hrows
      have hrest := ih htail (fun r hr => h r (mem_cons_of_mem _ hr))
      rw [flatMap_cons, hrest]
      by_cases hk : k' = k
      · subst hk
        rw [dlookup_cons_eq, dlookup_eq_none.mpr hhead]
        exact append_nil _
      · rw [dlookup_cons_ne rows ⟨k', v⟩ (Ne.symm hk), h ⟨k', v⟩ (by simp) hk]
        rfl

/-- The sums over the items of each key make up the sum over all items. -/
theorem sum_of_groups {M : Type*} [AddCommMonoid M] (key : ε → κ) (f : ε → M) {keys : List κ}
    (hkeys : keys.Nodup) {es : List ε} (hmem : ∀ e ∈ es, key e ∈ keys) :
    (keys.map (fun k => ((es.filter (fun e => key e = k)).map f).sum)).sum = (es.map f).sum := by
  induction es with
  | nil => simp
  | cons e es ih =>
      have hrest := ih (fun e he => hmem e (mem_cons_of_mem _ he))
      have hterm : ∀ k ∈ keys,
          (((e :: es).filter (fun e => key e = k)).map f).sum =
            (if key e = k then f e else 0) + ((es.filter (fun e => key e = k)).map f).sum := by
        intro k _
        by_cases hk : key e = k
        · simp [hk]
        · simp [hk]
      have hone : (keys.map (fun k => if key e = k then f e else 0)).sum = f e := by
        rw [sum_map_eq_nsmul_single (key e) _ (fun k hk _ => if_neg (Ne.symm hk)), if_pos rfl,
          count_eq_one_of_mem hkeys (hmem e mem_cons_self), one_nsmul]
      rw [map_congr_left hterm, sum_map_add, hrest, hone, map_cons, sum_cons]

end Grouping

end Lib
end ContExchange
