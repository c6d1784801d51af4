import Mathlib.Tactic
import ContExchange.Lib.Table

/-!
# Library: a map as the record of its last writes

A log of writes says for every key which value was written last.  A map that
replays the log holds, for every listed key, that value as long as it is live: a
write with a value that is not live deletes the key.

* `lastWrite k ws`: the value of the last write to `k` in the log;
* `lastWrite_overlap`: replaying a range that overlaps what was replayed before
  changes nothing, as long as the range leaves no gap;
* `sum_lastWrite_add_overwritten`: what the last writes and the overwritten ones add up to;
* `Records`: a sorted map holds what a log says;
* `Records.replay`: it still does after more writes.
-/

namespace ContExchange
namespace Lib

open List Option

section LastWrite

variable {κ ν : Type*} [DecidableEq κ]

def lastWrite (k : κ) (ws : List (κ × ν)) : Option ν :=
  (ws.reverse.find? (fun w => decide (w.1 = k))).map Prod.snd

@[simp] theorem lastWrite_nil (k : κ) : lastWrite k ([] : List (κ × ν)) = none := rfl

theorem lastWrite_append (k : κ) (ws vs : List (κ × ν)) :
    lastWrite k (ws ++ vs) = (lastWrite k vs).or (lastWrite k ws) := by
  unfold lastWrite
  rw [reverse_append, find?_append, map_or]

theorem lastWrite_singleton (k : κ) (w : κ × ν) :
    lastWrite k [w] = if w.1 = k then some w.2 else none := by
  by_cases h : w.1 = k <;> simp [lastWrite, h]

theorem lastWrite_cons (k : κ) (w : κ × ν) (ws : List (κ × ν)) :
    lastWrite k (w :: ws) = (lastWrite k ws).or (if w.1 = k then some w.2 else none) := by
  rw [← singleton_append, lastWrite_append, lastWrite_singleton]

theorem lastWrite_map {μ : Type*} (f : ν → μ) (k : κ) (ws : List (κ × ν)) :
    lastWrite k (ws.map (fun w => (w.1, f w.2))) = (lastWrite k ws).map f := by
  induction ws with
  | nil => rfl
  | cons w ws ih =>
      rw [map_cons, lastWrite_cons, lastWrite_cons, ih]
      split_ifs <;> cases lastWrite k ws <;> rfl

variable {ws : List (κ × ν)} {k : κ} {v : ν}

theorem mem_of_lastWrite (h : lastWrite k ws = some v) : (k, v) ∈ ws := by
  obtain ⟨w, hfind, rfl⟩ := map_eq_some_iff.mp h
  have hkey : w.1 = k := by simpa using find?_some hfind
  have hmem : w ∈ ws := mem_reverse.mp (mem_of_find?_eq_some hfind)
  subst hkey
  exact hmem

theorem isSome_lastWrite_of_mem (h : (k, v) ∈ ws) : ∃ v', lastWrite k ws = some v' := by
  induction ws with
  | nil => exact absurd h not_mem_nil
  | cons w ws ih =>
      rw [lastWrite_cons]
      rcases mem_cons.mp h with rfl | hrest
      · cases hlast : lastWrite k ws with
        | none => exact ⟨v, by simp⟩
        | some v' => exact ⟨v', rfl⟩
      · obtain ⟨v', hv'⟩ := ih hrest
        exact ⟨v', by rw [hv', some_or]⟩

/-- A log that writes exactly one value to the key. -/
theorem lastWrite_eq_of_mem_iff {o : Option ν} (h : ∀ v, (k, v) ∈ ws ↔ o = some v) :
    lastWrite k ws = o := by
  cases hlast : lastWrite k ws with
  | some v => exact ((h v).mp (mem_of_lastWrite hlast)).symm
  | none =>
      cases o with
      | none => rfl
      | some v =>
          obtain ⟨v', hv'⟩ := isSome_lastWrite_of_mem ((h v).mpr rfl)
          exact absurd (hlast.symm.trans hv') (by simp)

/-- A log that writes every key at most once. -/
theorem lastWrite_eq_some_iff_mem (hnodup : (ws.map Prod.fst).Nodup) :
    lastWrite k ws = some v ↔ (k, v) ∈ ws := by
  constructor
  · exact mem_of_lastWrite
  · intro hmem
    obtain ⟨v', hv'⟩ := isSome_lastWrite_of_mem hmem
    have hsame : (k, v) = (k, v') :=
      inj_on_of_nodup_map hnodup hmem (mem_of_lastWrite hv') rfl
    rw [hv', (Prod.mk.inj hsame).2]

/-- Replaying `b` and going on with `c` after `a` and `b`: nothing is lost and the
replayed writes change nothing. -/
theorem lastWrite_overlap (k : κ) (a b c : List (κ × ν)) :
    lastWrite k ((a ++ b) ++ (b ++ c)) = lastWrite k (a ++ b ++ c) := by
  rw [lastWrite_append, lastWrite_append k b c, lastWrite_append k (a ++ b) c,
    lastWrite_append k a b]
  cases lastWrite k c with
  | some v => rfl
  | none => cases lastWrite k b <;> rfl

/-- The writes that a later one overwrites. -/
def overwritten : List (κ × ν) → List (κ × ν)
  | [] => []
  | w :: ws =>
      if w.1 ∈ ws.map Prod.fst then w :: overwritten ws else overwritten ws

/-- What holds of every write that a later one to its key follows holds of the overwritten ones. -/
theorem forall_overwritten {p : κ × ν → Prop} (h : ws.Pairwise (fun w v => w.1 = v.1 → p w)) :
    ∀ w ∈ overwritten ws, p w := by
  induction ws with
  | nil => simp [overwritten]
  | cons w ws ih =>
      obtain ⟨hfirst, hrest⟩ := pairwise_cons.mp h
      rw [overwritten]
      split_ifs with hlater
      · obtain ⟨v, hv, hkey⟩ := mem_map.mp hlater
        rw [forall_mem_cons]
        exact ⟨hfirst v hv hkey.symm, ih hrest⟩
      · exact ih hrest

theorem lastWrite_eq_none (h : k ∉ ws.map Prod.fst) : lastWrite k ws = none := by
  rw [eq_none_iff_forall_ne_some]
  exact fun v hv => h (mem_map_of_mem (f := Prod.fst) (mem_of_lastWrite hv))

/-- A table that a log is written into holds its last writes. -/
theorem lookup_foldl_insert (ws : List (κ × ν)) (t : Table κ ν) (k : κ) :
    (ws.foldl (fun t w => t.insert w.1 w.2) t).lookup k = (lastWrite k ws).or (t.lookup k) := by
  induction ws generalizing t with
  | nil => rfl
  | cons w ws ih =>
      rw [foldl_cons, ih, lastWrite_cons, Option.or_assoc]
      split_ifs with hkey
      · rw [← hkey, AList.lookup_insert, some_or]
      · rw [AList.lookup_insert_ne (Ne.symm hkey), none_or]

/-- The last writes to the keys and the overwritten writes make up the log. -/
theorem sum_lastWrite_add_overwritten {M : Type*} [AddCommMonoid M] (f : κ → ν → M)
    {keys : List κ} (hkeys : keys.Nodup) (hzero : ∀ w ∈ ws, w.1 ∉ keys → f w.1 w.2 = 0) :
    (keys.map (fun k => (lastWrite k ws).elim 0 (f k))).sum +
        ((overwritten ws).map (fun w => f w.1 w.2)).sum =
      (ws.map (fun w => f w.1 w.2)).sum := by
  induction ws with
  | nil => simp [overwritten]
  | cons w ws ih =>
      have ih := ih fun v hv => hzero v (mem_cons_of_mem _ hv)
      rw [map_cons, sum_cons, ← ih, overwritten]
      split_ifs with hlater
      · have hsame : ∀ k, lastWrite k (w :: ws) = lastWrite k ws := by
          intro k
          rw [lastWrite_cons]
          split_ifs with hkey
          · obtain ⟨v, hv, hfst⟩ := mem_map.mp hlater
            obtain ⟨v', hv'⟩ := isSome_lastWrite_of_mem (k := k) (v := v.2)
              (by rw [← hkey, ← hfst]; exact hv)
            rw [hv', some_or]
          · rw [or_none]
        simp only [hsame, map_cons, sum_cons]
        rw [add_left_comm]
      · have hnew : ∀ k, (lastWrite k (w :: ws)).elim 0 (f k) =
            (lastWrite k ws).elim 0 (f k) + if w.1 = k then f w.1 w.2 else 0 := by
          intro k
          rw [lastWrite_cons]
          split_ifs with hkey
          · subst hkey
            rw [lastWrite_eq_none hlater, none_or, elim_none, elim_some, zero_add]
          · rw [or_none, add_zero]
        have hone : (keys.map (fun k => if w.1 = k then f w.1 w.2 else 0)).sum = f w.1 w.2 := by
          by_cases hmem : w.1 ∈ keys
          · rw [sum_map_eq_nsmul_single w.1 _ fun k hne _ => if_neg (Ne.symm hne), hkeys.count,
              if_pos hmem, one_nsmul, if_pos rfl]
          · rw [hzero w mem_cons_self hmem]
            simp
        simp only [hnew, sum_map_add, hone]
        rw [add_comm (List.sum _) (f w.1 w.2), add_assoc]

end LastWrite

/-- Two ranges of a list that leave no gap: the first `j` elements, and the elements from
`i` up to `m`. -/
theorem take_overlap {α : Type*} (us : List α) {i j m : ℕ} (hij : i ≤ j) (hjm : j ≤ m)
    (hlen : j ≤ us.length) :
    ∃ a b c, us.take j = a ++ b ∧ (us.take m).drop i = b ++ c ∧ us.take m = a ++ b ++ c := by
  have hj : us.take j = us.take i ++ (us.take j).drop i := by
    conv_lhs => rw [← take_append_drop i (us.take j)]
    rw [take_take, Nat.min_eq_left hij]
  have hm : us.take m = us.take j ++ (us.take m).drop j := by
    conv_lhs => rw [← take_append_drop j (us.take m)]
    rw [take_take, Nat.min_eq_left hjm]
  refine ⟨us.take i, (us.take j).drop i, (us.take m).drop j, hj, ?_, ?_⟩
  · conv_lhs => rw [hm]
    apply drop_append_of_le_length
    rw [length_take, Nat.min_eq_left hlen]
    exact hij
  · rw [← hj]
    exact hm

section Records

variable {κ ν : Type*} [DecidableEq κ] {cmp : κ → κ → Ordering}
variable (listed : κ → Bool) (live : ν → Bool)

/-- One write to a sorted map: keys that are not listed are passed over, a value that is
not live deletes the key. -/
def writeTo (t : Std.TreeMap κ ν cmp) (w : κ × ν) : Std.TreeMap κ ν cmp :=
  if listed w.1 then
    if live w.2 then t.insert w.1 w.2 else t.erase w.1
  else t

/-- The map holds the live values of the last writes to the listed keys. -/
def Records (t : Std.TreeMap κ ν cmp) (ws : List (κ × ν)) : Prop :=
  ∀ k, t[k]? = if listed k then (lastWrite k ws).filter live else none

variable {listed live}

theorem records_empty [Std.TransCmp cmp] : Records listed live (∅ : Std.TreeMap κ ν cmp) [] := by
  intro k
  simp

variable {t : Std.TreeMap κ ν cmp}

/-- A log with the same last writes is recorded by the same map. -/
theorem Records.congr {ws vs : List (κ × ν)} (h : Records listed live t ws)
    (hlast : ∀ k, lastWrite k ws = lastWrite k vs) : Records listed live t vs := by
  intro k
  rw [h k, hlast k]

variable {ws : List (κ × ν)}

/-- What a map that records a log holds is listed and live. -/
theorem Records.live_of_getElem? (h : Records listed live t ws) {k : κ} {v : ν}
    (hk : t[k]? = some v) : live v = true := by
  rw [h k] at hk
  split at hk
  · exact (filter_eq_some_iff.mp hk).2
  · exact absurd hk (by simp)

variable [Std.TransCmp cmp] [Std.LawfulEqCmp cmp]

theorem Records.write (h : Records listed live t ws) (w : κ × ν) :
    Records listed live (writeTo listed live t w) (ws ++ [w]) := by
  intro k
  have hk := h k
  rw [lastWrite_append, lastWrite_singleton]
  unfold writeTo
  by_cases hkey : w.1 = k
  · subst hkey
    cases hlisted : listed w.1 with
    | false => simpa [hlisted] using hk
    | true =>
        cases hlive : live w.2 with
        | false => simp [Option.filter, hlive]
        | true => simp [Option.filter, hlive]
  · have hcmp : cmp w.1 k ≠ .eq := fun heq => hkey (Std.LawfulEqCmp.eq_of_compare heq)
    rw [if_neg hkey, none_or, ← hk]
    split
    · split
      · rw [Std.TreeMap.getElem?_insert, if_neg hcmp]
      · rw [Std.TreeMap.getElem?_erase, if_neg hcmp]
    · rfl

/-- A map that holds what a log says still does after replaying more writes. -/
theorem Records.replay (h : Records listed live t ws) (vs : List (κ × ν)) :
    Records listed live (vs.foldl (writeTo listed live) t) (ws ++ vs) := by
  induction vs generalizing t ws with
  | nil => rwa [append_nil]
  | cons w vs ih =>
      rw [foldl_cons, ← singleton_append, ← append_assoc]
      exact ih (h.write w)

end Records

end Lib
end ContExchange
