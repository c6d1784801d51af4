import ContExchange.LegacyEngine.EngineManager
import Mathlib.Data.Prod.Lex

/-!
# Legacy engine: the treaps of the orders

`OrdersRepository` keeps the bids and the asks in two treaps, the best price first.  `Find`, by
which `Insert` looks for the key, goes the other way than `Split` and `Delete`.

* `elems_split`, `elems_insert`, `elems_delete`: the treap as a sorted list;
* `find_iff`: a key is found at the root alone;
* `holds_step_iff`: what a call does to a treap that is the set of its keys;
* `order_treap_iff`: the runs of a treap and of the repository.

The order and the equality of the keys are those of a rank; the priorities that are drawn are
arguments.
-/

namespace ContExchange
namespace LegacyEngine

open Common Lib List

/-- `Treap<T>::Node`; its size, which nothing reads, is left out. -/
inductive TreapNode (α : Type*) where
  | null
  | node (left : TreapNode α) (key : α) (priority : Nat) (right : TreapNode α)

namespace TreapNode

variable {α : Type*} (order same : α → α → Bool)

/-- `GetTreeElems`. -/
def elems : TreapNode α → List α
  | null => []
  | node left key _ right => left.elems ++ key :: right.elems

def rootKey : TreapNode α → Option α
  | null => none
  | node _ key _ _ => some key

def getMin : TreapNode α → Option α
  | null => none
  | node null key _ _ => some key
  | node (node left' key' priority' right') _ _ _ => getMin (node left' key' priority' right')

/-- `Find`, which looks to the left for a key behind the node. -/
def find (key : α) : TreapNode α → Bool
  | null => false
  | node left k _ right =>
      if same k key then true else if order k key then find key left else find key right

def split (pivot : α) : TreapNode α → TreapNode α × TreapNode α
  | null => (null, null)
  | node left key priority right =>
      if order key pivot ∨ same key pivot then
        (node left key priority (split pivot right).1, (split pivot right).2)
      else ((split pivot left).1, node (split pivot left).2 key priority right)

/-- `Merge` of a node with a tree; `rest` merges its right child. -/
def mergeNode (left : TreapNode α) (key : α) (priority : Nat) (right : TreapNode α)
    (rest : TreapNode α → TreapNode α) : TreapNode α → TreapNode α
  | null => node left key priority right
  | node left2 key2 priority2 right2 =>
      if priority2 < priority then
        node left key priority (rest (node left2 key2 priority2 right2))
      else node (mergeNode left key priority right rest left2) key2 priority2 right2

def merge : TreapNode α → TreapNode α → TreapNode α
  | null => id
  | node left key priority right => mergeNode left key priority right (merge right)

/-- `Insert`, with the priority that is drawn. -/
def insert (key : α) (priority : Nat) (t : TreapNode α) : TreapNode α :=
  if find order same key t then t
  else merge (merge (split order same key t).1 (node null key priority null))
    (split order same key t).2

/-- `Delete`: the child that is the key is replaced on the side that a second comparison
names. -/
def delete (key : α) : TreapNode α → TreapNode α
  | null => null
  | node left k priority right =>
      if same k key then merge left right
      else
        match if order key k then left else right with
        | null => node left k priority right
        | node left' k' _ right' =>
            if same k' key then
              if order k key then node left k priority (merge left' right')
              else node (merge left' right') k priority right
            else if order key k then node (delete key left) k priority right
            else node left k priority (delete key right)

/-- `GetUpper`: the first element after the key, and the tree that is merged again. -/
def getUpper (key : α) (t : TreapNode α) : Option α × TreapNode α :=
  let split := split order same key t
  (split.2.getMin, merge split.1 split.2)

/-- `GetTail`: the elements up to the pivot, and the tree that is merged again. -/
def getTail (pivot : α) (t : TreapNode α) : List α × TreapNode α :=
  let tail := split order same pivot t
  (tail.1.elems, merge tail.1 tail.2)

variable {order same} {t left right : TreapNode α} {key pivot k : α} {priority : Nat}

theorem elems_mergeNode {rest : TreapNode α → TreapNode α}
    (hrest : ∀ t, (rest t).elems = right.elems ++ t.elems) (t : TreapNode α) :
    (mergeNode left key priority right rest t).elems =
      (node left key priority right).elems ++ t.elems := by
  induction t with
  | null => rw [mergeNode, elems, append_nil]
  | node left2 key2 priority2 right2 ih =>
      rw [mergeNode]
      split_ifs
      · simp only [elems, hrest, append_assoc, cons_append]
      · rw [elems, ih, elems, elems, append_assoc]

theorem elems_merge (t1 t2 : TreapNode α) : (merge t1 t2).elems = t1.elems ++ t2.elems := by
  induction t1 generalizing t2 with
  | null => rfl
  | node left key priority right _ ih => exact elems_mergeNode ih t2

theorem elems_split (pivot : α) (t : TreapNode α) :
    (split order same pivot t).1.elems ++ (split order same pivot t).2.elems = t.elems := by
  induction t with
  | null => rfl
  | node left key priority right ihl ihr =>
      rw [split]
      split_ifs
      · rw [elems, append_assoc, cons_append, ihr, elems]
      · rw [elems, ← append_assoc, ihl, elems]

theorem elems_getTail (pivot : α) (t : TreapNode α) :
    (getTail order same pivot t).2.elems = t.elems :=
  (elems_merge _ _).trans (elems_split pivot t)

theorem elems_getUpper (key : α) (t : TreapNode α) :
    (getUpper order same key t).2.elems = t.elems :=
  elems_getTail key t

theorem getMin_eq (t : TreapNode α) : t.getMin = t.elems.head? := by
  induction t with
  | null => rfl
  | node left key priority right ih =>
      cases left with
      | null => rfl
      | node left' key' priority' right' => simp [getMin, ih, elems]

theorem find_of_absent (h : ∀ a ∈ t.elems, same a key = false) : find order same key t = false := by
  induction t with
  | null => rfl
  | node left k priority right ihl ihr =>
      simp only [elems, forall_mem_append, forall_mem_cons] at h
      simp [find, h.2.1, ihl h.1, ihr h.2.2]

section Ranks

variable {β : Type*} [LinearOrder β] (order same) (rank : α → β)

/-- Two keys are compared as their ranks are. -/
def Agrees (a b : α) : Prop :=
  (order a b ↔ rank a < rank b) ∧ (order b a ↔ rank b < rank a) ∧ (same a b ↔ rank a = rank b)

variable {order same rank}

/-- A key is at the root when it is found. -/
theorem find_iff (hsorted : (node left k priority right).elems.Pairwise fun a b => rank a < rank b)
    (h : ∀ a ∈ (node left k priority right).elems, Agrees order same rank a key) :
    find order same key (node left k priority right) ↔ rank k = rank key := by
  simp only [elems, forall_mem_append, forall_mem_cons] at h
  rw [elems, pairwise_append, pairwise_cons] at hsorted
  obtain ⟨-, ⟨hright, -⟩, hacross⟩ := hsorted
  obtain ⟨hleft, ⟨hlt, -, hsame⟩, hafter⟩ := h
  have absent : ∀ {a}, Agrees order same rank a key → rank a ≠ rank key → same a key = false :=
    fun ha hne => Bool.eq_false_iff.mpr fun h => hne (ha.2.2.mp h)
  rw [find]
  split_ifs with hk hbefore
  · exact ⟨fun _ => hsame.mp hk, fun _ => rfl⟩
  · have hnone := @find_of_absent _ order same left key fun a ha => absent (hleft a ha)
      ((hacross a ha k mem_cons_self).trans (hlt.mp hbefore)).ne
    simp [hnone, ← hsame, hk]
  · have hbehind : rank key < rank k := lt_of_le_of_ne (not_lt.mp fun h => hbefore (hlt.mpr h))
      fun h => hk (hsame.mpr h.symm)
    have hnone := @find_of_absent _ order same right key fun a ha => absent (hafter a ha)
      (hbehind.trans (hright a ha)).ne'
    simp [hnone, ← hsame, hk]

theorem elems_split_eq (hsorted : t.elems.Pairwise fun a b => rank a < rank b)
    (h : ∀ a ∈ t.elems, Agrees order same rank a pivot) :
    (split order same pivot t).1.elems = t.elems.filter (fun a => rank a ≤ rank pivot) ∧
      (split order same pivot t).2.elems = t.elems.filter (fun a => rank pivot < rank a) := by
  induction t with
  | null => exact ⟨rfl, rfl⟩
  | node left key priority right ihl ihr =>
      rw [elems, pairwise_append, pairwise_cons] at hsorted
      obtain ⟨hleft, ⟨hright, hsorted⟩, hacross⟩ := hsorted
      simp only [elems, forall_mem_append, forall_mem_cons] at h
      obtain ⟨hbefore, ⟨hlt, -, hsame⟩, hafter⟩ := h
      rw [split]
      split_ifs with hpivot
      · rw [hlt, hsame, ← le_iff_lt_or_eq] at hpivot
        have hall : ∀ a ∈ left.elems, rank a ≤ rank pivot := fun a ha =>
          (hacross a ha key mem_cons_self).le.trans hpivot
        have hkept : left.elems.filter (fun a => rank a ≤ rank pivot) = left.elems :=
          filter_eq_self.mpr (by simpa using hall)
        have hnone : left.elems.filter (fun a => rank pivot < rank a) = [] :=
          filter_eq_nil_iff.mpr (by simpa using hall)
        simp [elems, ihr hsorted hafter, hkept, hnone, hpivot, not_lt.mpr hpivot]
      · rw [hlt, hsame, ← le_iff_lt_or_eq, not_le] at hpivot
        have hall : ∀ a ∈ right.elems, rank pivot < rank a := fun a ha =>
          hpivot.trans (hright a ha)
        have hkept : right.elems.filter (fun a => rank pivot < rank a) = right.elems :=
          filter_eq_self.mpr (by simpa using hall)
        have hnone : right.elems.filter (fun a => rank a ≤ rank pivot) = [] :=
          filter_eq_nil_iff.mpr (by simpa using hall)
        simp [elems, ihl hleft hbefore, hkept, hnone, hpivot, not_le.mpr hpivot]

/-- A key that is not found is put between the elements up to it and those after it. -/
theorem elems_insert (hsorted : t.elems.Pairwise fun a b => rank a < rank b)
    (h : ∀ a ∈ t.elems, Agrees order same rank a key) (hfind : find order same key t = false) :
    (insert order same key priority t).elems =
      t.elems.filter (fun a => rank a ≤ rank key) ++
        key :: t.elems.filter (fun a => rank key < rank a) := by
  obtain ⟨htail, hhead⟩ := elems_split_eq hsorted h
  rw [insert, hfind, if_neg (by simp), elems_merge, elems_merge, htail, hhead]
  simp [elems]

theorem delete_node (h : Agrees order same rank k key) :
    delete order same key (node left k priority right) =
      if same k key then merge left right
      else if order key k then node (delete order same key left) k priority right
      else node left k priority (delete order same key right) := by
  rw [delete]
  cases hsame : same k key with
  | true => rfl
  | false =>
      have hne : rank k ≠ rank key := fun he => by simp [h.2.2.mpr he] at hsame
      cases hkey : order key k with
      | true =>
          have hback : ¬ order k key := fun hlt =>
            lt_asymm (h.2.1.mp hkey) (h.1.mp hlt)
          cases left with
          | null => simp [delete]
          | node left' k' _ right' => cases hchild : same k' key <;> simp [delete, hchild, hback]
      | false =>
          have hback : order k key := h.1.mpr (lt_of_le_of_ne
            (not_lt.mp fun hlt => by simp [h.2.1.mpr hlt] at hkey) hne)
          cases right with
          | null => simp [delete]
          | node left' k' _ right' => cases hchild : same k' key <;> simp [delete, hchild, hback]

/-- The key is taken out, and the others stay. -/
theorem elems_delete (hsorted : t.elems.Pairwise fun a b => rank a < rank b)
    (h : ∀ a ∈ t.elems, Agrees order same rank a key) :
    (delete order same key t).elems = t.elems.filter fun a => rank a ≠ rank key := by
  induction t with
  | null => rfl
  | node left k priority right ihl ihr =>
      rw [elems, pairwise_append, pairwise_cons] at hsorted
      obtain ⟨hleft, ⟨hright, hsorted⟩, hacross⟩ := hsorted
      simp only [elems, forall_mem_append, forall_mem_cons] at h
      obtain ⟨hbefore, hk, hafter⟩ := h
      have hl : rank k ≤ rank key → left.elems.filter (fun a => rank a ≠ rank key) = left.elems :=
        fun hle => filter_eq_self.mpr fun a ha => by
          simpa using ((hacross a ha k mem_cons_self).trans_le hle).ne
      have hr : rank key ≤ rank k → right.elems.filter (fun a => rank a ≠ rank key) = right.elems :=
        fun hle => filter_eq_self.mpr fun a ha => by
          simpa using (hle.trans_lt (hright a ha)).ne'
      rw [delete_node hk, elems, filter_append, filter_cons]
      rcases lt_trichotomy (rank k) (rank key) with hlt | heq | hgt
      · rw [if_neg (fun hs => hlt.ne (hk.2.2.mp hs)),
          if_neg (fun hs => lt_asymm hlt (hk.2.1.mp hs)), elems, ihr hsorted hafter, hl hlt.le,
          if_pos (by simpa using hlt.ne)]
      · rw [if_pos (hk.2.2.mpr heq), elems_merge, hl heq.le, hr heq.ge, if_neg (by simpa using heq)]
      · rw [if_neg (fun hs => hgt.ne' (hk.2.2.mp hs)), if_pos (hk.2.1.mpr hgt), elems,
          ihl hleft hbefore, hr hgt.le, if_pos (by simpa using hgt.ne')]

end Ranks

end TreapNode

inductive TreapCall (α : Type*) where
  | insert (key : α) (priority : Nat)
  | delete (key : α)
  | getUpper (key : α)
  | getTail (pivot : α)

namespace TreapCall

variable {α : Type*} (order same : α → α → Bool)

def onTreap (t : TreapNode α) : TreapCall α → TreapNode α
  | insert key priority => t.insert order same key priority
  | delete key => t.delete order same key
  | getUpper key => (t.getUpper order same key).2
  | getTail pivot => (t.getTail order same pivot).2

def onKeys (keys : List α) : TreapCall α → List α
  | insert key _ => if keys.any (same · key) then keys else key :: keys
  | delete key => keys.filter (!same · key)
  | getUpper _ | getTail _ => keys

/-- The key that a call puts in or takes out. -/
def stored : TreapCall α → Option α
  | insert key _ | delete key => some key
  | getUpper _ | getTail _ => none

def step (st : TreapNode α × List α) (call : TreapCall α) : TreapNode α × List α :=
  (call.onTreap order same st.1, call.onKeys same st.2)

def atRoot (t : TreapNode α) : TreapCall α → Bool
  | insert key _ => !t.elems.any (same · key) || t.rootKey.any (same · key)
  | _ => true

/-- The treap is the set of the keys. -/
structure Holds (st : TreapNode α × List α) : Prop where
  sorted : st.1.elems.Pairwise fun a b => order a b
  perm : st.1.elems.Perm st.2
  tail : ∀ p, (st.1.getTail order same p).1 = st.1.elems.filter (!order p ·)
  upper : ∀ p k, (st.1.getUpper order same p).1 = some k ↔
    k ∈ st.2 ∧ order p k ∧ ∀ a ∈ st.2, order p a → same k a ∨ order k a

end TreapCall

section Sets

open TreapNode TreapCall

variable {α β : Type*} [LinearOrder β] {order same : α → α → Bool} {rank : α → β}
  {t : TreapNode α} {key : α} {priority : Nat} {keys : List α}

section Insert

variable (hsorted : t.elems.Pairwise fun a b => rank a < rank b)
  (h : ∀ a ∈ t.elems, Agrees order same rank a key)

include hsorted h

theorem find_of_root :
    t.find order same key = t.rootKey.any (same · key) := by
  cases t with
  | null => rfl
  | node left k priority right =>
      have hk : Agrees order same rank k key := h k (by simp [elems])
      rw [Bool.eq_iff_iff, find_iff hsorted h, rootKey, Option.any_some, hk.2.2]

/-- A key that is not found is inserted. -/
theorem insert_perm (hfind : t.find order same key = false) :
    (t.insert order same key priority).elems.Perm (key :: t.elems) := by
  rw [elems_insert hsorted h hfind]
  refine perm_middle.trans (List.Perm.cons key ?_)
  have hrest : t.elems.filter (fun a => rank key < rank a) =
      t.elems.filter (fun a => !decide (rank a ≤ rank key)) :=
    filter_congr fun a _ => by rw [← decide_not, decide_eq_decide, not_le]
  rw [hrest]
  exact filter_append_perm _ _

theorem insert_spec (hroot : atRoot same t (.insert key priority)) :
    ((t.insert order same key priority).elems.Pairwise fun a b => rank a < rank b) ∧
      (t.insert order same key priority).elems.Perm
        (onKeys same t.elems (.insert key priority)) := by
  rw [atRoot, Bool.or_eq_true, Bool.not_eq_true', ← find_of_root hsorted h] at hroot
  rw [onKeys]
  rcases hroot with habsent | hfind
  · rw [if_neg (by simp [habsent])]
    rw [any_eq_false] at habsent
    have hfind := @find_of_absent _ order same t key fun a ha => by simpa using habsent a ha
    refine ⟨?_, insert_perm hsorted h hfind⟩
    rw [elems_insert hsorted h hfind, pairwise_append, pairwise_cons]
    refine ⟨hsorted.filter _, ⟨fun a ha => by simpa using (mem_filter.mp ha).2,
      hsorted.filter _⟩, fun a ha b hb => ?_⟩
    obtain ⟨ha, hle⟩ := mem_filter.mp ha
    have hne : rank a ≠ rank key := fun he => habsent a ha ((h a ha).2.2.mpr he)
    have hlt : rank a < rank key := lt_of_le_of_ne (by simpa using hle) hne
    rcases mem_cons.mp hb with rfl | hb
    · exact hlt
    · exact hlt.trans (by simpa using (mem_filter.mp hb).2)
  · have hpresent : t.elems.any (same · key) = true := by
      by_contra habsent
      rw [Bool.not_eq_true, any_eq_false] at habsent
      rw [find_of_absent fun a ha => by simpa using habsent a ha] at hfind
      cases hfind
    rw [TreapNode.insert, if_pos hfind, if_pos hpresent]
    exact ⟨hsorted, List.Perm.refl _⟩

end Insert

/-- What a call does to the elements. -/
theorem onTreap_spec {call : TreapCall α} (hsorted : t.elems.Pairwise fun a b => rank a < rank b)
    (h : ∀ key, call.stored = some key → ∀ a ∈ t.elems, Agrees order same rank a key)
    (hroot : call.atRoot same t) :
    ((call.onTreap order same t).elems.Pairwise fun a b => rank a < rank b) ∧
      (call.onTreap order same t).elems.Perm (call.onKeys same t.elems) := by
  cases call with
  | insert key priority => exact insert_spec hsorted (h key rfl) hroot
  | delete key =>
      have hfilter : t.elems.filter (fun a => rank a ≠ rank key) = t.elems.filter (!same · key) :=
        filter_congr fun a ha => by
          rw [Bool.eq_iff_iff, decide_eq_true_iff, Bool.not_eq_true', ← Bool.not_eq_true,
            (h key rfl a ha).2.2]
      rw [onTreap, onKeys, elems_delete hsorted (h key rfl), hfilter]
      exact ⟨hsorted.filter _, List.Perm.refl _⟩
  | getUpper key =>
      rw [onTreap, onKeys, elems_getUpper]
      exact ⟨hsorted, List.Perm.refl _⟩
  | getTail pivot =>
      rw [onTreap, onKeys, elems_getTail]
      exact ⟨hsorted, List.Perm.refl _⟩

theorem any_perm {keys' : List α} (h : keys.Perm keys') :
    keys.any (same · key) = keys'.any (same · key) := by
  rw [Bool.eq_iff_iff, any_eq_true, any_eq_true]
  exact exists_congr fun a => and_congr_left fun _ => h.mem_iff

theorem onKeys_perm {keys' : List α} (h : keys.Perm keys') (call : TreapCall α) :
    (onKeys same keys call).Perm (onKeys same keys' call) := by
  cases call with
  | insert key priority =>
      rw [onKeys, onKeys, any_perm h]
      split_ifs
      · exact h
      · exact h.cons key
  | delete key => exact h.filter _
  | getUpper key => exact h
  | getTail pivot => exact h

variable (hagrees : ∀ a b, Agrees order same rank a b)

include hagrees

theorem holds_of_sorted (hsorted : t.elems.Pairwise fun a b => rank a < rank b)
    (hperm : t.elems.Perm keys) : Holds order same (t, keys) := by
  have hsplit := fun p => elems_split_eq hsorted fun a _ => hagrees a p
  refine ⟨hsorted.imp fun h => (hagrees _ _).1.mpr h, hperm, fun p => ?_, fun p k => ?_⟩
  · refine (hsplit p).1.trans (filter_congr fun a _ => ?_)
    rw [Bool.eq_iff_iff, decide_eq_true_iff, Bool.not_eq_true', ← Bool.not_eq_true,
      (hagrees p a).1, not_lt]
  · have hlater := hsorted.filter (fun a => decide (rank p < rank a))
    have hmem : ∀ a, a ∈ t.elems.filter (fun a => rank p < rank a) ↔ a ∈ keys ∧ rank p < rank a :=
      fun a => by rw [mem_filter, decide_eq_true_iff, hperm.mem_iff]
    change (t.split order same p).2.getMin = some k ↔ _
    simp only [getMin_eq, (hsplit p).2, (hagrees _ _).1, (hagrees _ _).2.2, ← le_iff_eq_or_lt]
    revert hlater hmem
    generalize t.elems.filter (fun a => rank p < rank a) = later
    intro hlater hmem
    constructor
    · intro hhead
      obtain ⟨rest, rfl⟩ := head?_eq_some_iff.mp hhead
      obtain ⟨hk, hp⟩ := (hmem k).mp mem_cons_self
      refine ⟨hk, hp, fun a ha hpa => ?_⟩
      rcases mem_cons.mp ((hmem a).mpr ⟨ha, hpa⟩) with rfl | ha
      · exact le_rfl
      · exact ((pairwise_cons.mp hlater).1 a ha).le
    · rintro ⟨hk, hp, hleast⟩
      have hin := (hmem k).mpr ⟨hk, hp⟩
      cases later with
      | nil => cases hin
      | cons first rest =>
          rcases mem_cons.mp hin with rfl | hrest
          · rfl
          · obtain ⟨hfirst, hpfirst⟩ := (hmem first).mp mem_cons_self
            exact absurd ((pairwise_cons.mp hlater).1 k hrest)
              (not_lt.mpr (hleast first hfirst hpfirst))

/-- A call keeps a treap the set of its keys exactly when the key of an insertion is new or at
the root. -/
theorem holds_step_iff {st : TreapNode α × List α} (call : TreapCall α)
    (h : Holds order same st) :
    Holds order same (step order same st call) ↔ atRoot same st.1 call := by
  obtain ⟨t, keys⟩ := st
  have hsorted : t.elems.Pairwise fun a b => rank a < rank b :=
    h.sorted.imp fun h => (hagrees _ _).1.mp h
  have hperm : t.elems.Perm keys := h.perm
  by_cases hroot : call.atRoot same t
  · obtain ⟨hnext, hkeys⟩ := onTreap_spec hsorted (fun key _ a _ => hagrees a key) hroot
    exact iff_of_true (holds_of_sorted hagrees hnext (hkeys.trans (onKeys_perm hperm call))) hroot
  · refine iff_of_false (fun hnext => ?_) hroot
    cases call with
    | insert key priority =>
        have hkey : ∀ a ∈ t.elems, Agrees order same rank a key := fun a _ => hagrees a key
        rw [atRoot, Bool.or_eq_true, not_or, Bool.not_eq_true', Bool.not_eq_false,
          ← find_of_root hsorted hkey, Bool.not_eq_true] at hroot
        -- one more element, and the same keys
        have hlength := hnext.perm.length_eq
        dsimp only [step, onTreap, onKeys] at hlength
        rw [← any_perm hperm, if_pos hroot.1, (insert_perm hsorted hkey hroot.2).length_eq,
          length_cons, hperm.length_eq] at hlength
        omega
    | delete key => exact hroot rfl
    | getUpper key => exact hroot rfl
    | getTail pivot => exact hroot rfl

end Sets

/-- What the repository reads of a `ContinuousOrder`; a pivot has no low price below the high
one. -/
structure BookOrder where
  orderId : Nat
  side : OrderSide
  lowPrice : Nat
  highPrice : Nat
deriving DecidableEq

structure OrdersRepository where
  bidOrders : TreapNode BookOrder := .null
  askOrders : TreapNode BookOrder := .null

namespace OrdersRepository

/-- The comparator of the treap of a side. -/
def isBefore (lhs rhs : BookOrder) : OrderSide → Bool
  | .buy =>
      if lhs.highPrice = rhs.highPrice then lhs.orderId < rhs.orderId
      else rhs.highPrice < lhs.highPrice
  | .sell =>
      if lhs.lowPrice = rhs.lowPrice then lhs.orderId < rhs.orderId
      else lhs.lowPrice < rhs.lowPrice

def sameId (lhs rhs : BookOrder) : Bool :=
  lhs.orderId == rhs.orderId

def kInfId : Nat :=
  2 ^ 64 - 1

variable (repo : OrdersRepository) (order : BookOrder)

def addOrder (priority : Nat) : OrdersRepository :=
  match order.side with
  | .buy =>
      { repo with bidOrders := repo.bidOrders.insert (isBefore · · .buy) sameId order priority }
  | .sell =>
      { repo with askOrders := repo.askOrders.insert (isBefore · · .sell) sameId order priority }

def removeOrder : OrdersRepository :=
  match order.side with
  | .buy => { repo with bidOrders := repo.bidOrders.delete (isBefore · · .buy) sameId order }
  | .sell => { repo with askOrders := repo.askOrders.delete (isBefore · · .sell) sameId order }

/-- The order behind those that a price reaches. -/
def pivot (price : Nat) : OrderSide → BookOrder
  | .buy => { orderId := kInfId, side := .buy, lowPrice := 0, highPrice := sizeT (price + 1) }
  | .sell => { orderId := kInfId, side := .sell, lowPrice := sizeSub price 1, highPrice := 0 }

def emplace (orders : List BookOrder) : List BookOrder :=
  if orders.any (sameId · order) then orders else orders ++ [order]

/-- `GetOrders`: the set of the orders that a price reaches. -/
def getOrders (price : Nat) : List BookOrder × OrdersRepository :=
  let bids := repo.bidOrders.getTail (isBefore · · .buy) sameId (pivot price .buy)
  let asks := repo.askOrders.getTail (isBefore · · .sell) sameId (pivot price .sell)
  ((bids.1.filter (price ≤ ·.highPrice) ++ asks.1.filter (·.lowPrice ≤ price)).foldl
    (fun orders order => emplace order orders) [], { bidOrders := bids.2, askOrders := asks.2 })

def treap : OrderSide → TreapNode BookOrder
  | .buy => repo.bidOrders
  | .sell => repo.askOrders

end OrdersRepository

inductive RepositoryCall where
  | addOrder (order : BookOrder) (priority : Nat)
  | removeOrder (order : BookOrder)
  | getOrders (price : Nat)

namespace RepositoryCall

def step (repo : OrdersRepository) : RepositoryCall → OrdersRepository
  | addOrder order priority => repo.addOrder order priority
  | removeOrder order => repo.removeOrder order
  | getOrders price => (repo.getOrders price).2

def orders : RepositoryCall → List BookOrder
  | addOrder order _ | removeOrder order => [order]
  | getOrders _ => []

def onSide (side : OrderSide) : RepositoryCall → Option (TreapCall BookOrder)
  | addOrder order priority => if order.side = side then some (.insert order priority) else none
  | removeOrder order => if order.side = side then some (.delete order) else none
  | getOrders price => some (.getTail (OrdersRepository.pivot price side))

/-- An order that is added is new in the treap of its side, or it is at the root. -/
def atRoot (repo : OrdersRepository) (call : RepositoryCall) : Prop :=
  ∀ side, ∀ c, call.onSide side = some c → c.atRoot OrdersRepository.sameId (repo.treap side)

end RepositoryCall

def OneOrderPerId (orders : List BookOrder) : Prop :=
  ∀ a ∈ orders, ∀ b ∈ orders, a.orderId = b.orderId → a = b

section Repository

open OrdersRepository TreapNode

/-- The rank of an order in the treap of a side. -/
def bookRank (side : OrderSide) (order : BookOrder) : ℤ ×ₗ ℕ :=
  toLex (match side with
    | .buy => -order.highPrice
    | .sell => order.lowPrice, order.orderId)

variable {orders : List BookOrder} {repo : OrdersRepository} {order a b : BookOrder}
  {side : OrderSide} {call : RepositoryCall}

theorem isBefore_iff : isBefore a b side ↔ bookRank side a < bookRank side b := by
  cases side <;> simp only [isBefore, bookRank, Prod.Lex.toLex_lt_toLex] <;> split_ifs with h <;>
    simp [h]

theorem agrees_of_one (hone : OneOrderPerId orders) (ha : a ∈ orders) (hb : b ∈ orders) :
    Agrees (isBefore · · side) sameId (bookRank side) a b := by
  refine ⟨isBefore_iff, isBefore_iff, ?_⟩
  rw [sameId, beq_iff_eq]
  refine ⟨fun h => by rw [hone a ha b hb h], fun h => ?_⟩
  exact (Prod.mk.inj (toLex.injective h)).2

structure Kept (orders : List BookOrder) (repo : OrdersRepository) : Prop where
  sorted : ∀ side, (repo.treap side).elems.Pairwise fun a b => bookRank side a < bookRank side b
  known : ∀ side, ∀ a ∈ (repo.treap side).elems, a ∈ orders ∧ a.side = side

theorem treap_step (side : OrderSide) : (call.step repo).treap side =
    (call.onSide side).elim (repo.treap side)
      (·.onTreap (isBefore · · side) sameId (repo.treap side)) := by
  cases call with
  | addOrder order priority =>
      rw [RepositoryCall.step, addOrder, RepositoryCall.onSide]
      cases side <;> cases h : order.side <;> rfl
  | removeOrder order =>
      rw [RepositoryCall.step, removeOrder, RepositoryCall.onSide]
      cases side <;> cases h : order.side <;> rfl
  | getOrders price => cases side <;> rfl

theorem stored_mem {c : TreapCall BookOrder} (h : call.onSide side = some c)
    (ha : c.stored = some a) : a ∈ call.orders ∧ a.side = side := by
  cases call with
  | getOrders price =>
      cases h
      cases ha
  | _ order =>
      rw [RepositoryCall.onSide] at h
      split_ifs at h with hside
      cases h
      cases ha
      exact ⟨mem_cons_self, hside⟩

/-- A call keeps the treaps sorted, puts in no order but the one it adds, and takes out the one
it removes. -/
theorem Kept.step (h : Kept orders repo) (hone : OneOrderPerId orders)
    (hcall : ∀ a ∈ call.orders, a ∈ orders) (hroot : call.atRoot repo) :
    Kept orders (call.step repo) ∧ ∀ side, ∀ a ∈ ((call.step repo).treap side).elems,
      (a ∈ (repo.treap side).elems ∧ call ≠ .removeOrder a) ∨
        ∃ priority, call = .addOrder a priority := by
  have hstep : ∀ side, (((call.step repo).treap side).elems.Pairwise fun a b =>
      bookRank side a < bookRank side b) ∧ ∀ a ∈ ((call.step repo).treap side).elems,
        (a ∈ (repo.treap side).elems ∧ call ≠ .removeOrder a) ∨
          a.side = side ∧ ∃ priority, call = .addOrder a priority := by
    intro side
    rw [treap_step]
    cases hside : call.onSide side with
    | none =>
        refine ⟨h.sorted side, fun a ha => .inl ⟨ha, ?_⟩⟩
        rintro rfl
        simp [RepositoryCall.onSide, (h.known side a ha).2] at hside
    | some c =>
        obtain ⟨hsorted, hperm⟩ := onTreap_spec (h.sorted side) (fun key hkey a ha =>
          agrees_of_one hone (h.known side a ha).1 (hcall key (stored_mem hside hkey).1))
          (hroot side c hside)
        refine ⟨hsorted, fun a ha => ?_⟩
        replace ha := hperm.mem_iff.mp ha
        cases call with
        | addOrder order priority =>
            rw [RepositoryCall.onSide] at hside
            split_ifs at hside with hmine
            cases hside
            rw [TreapCall.onKeys] at ha
            split_ifs at ha
            · exact .inl ⟨ha, nofun⟩
            · rcases mem_cons.mp ha with rfl | ha
              · exact .inr ⟨hmine, priority, rfl⟩
              · exact .inl ⟨ha, nofun⟩
        | removeOrder order =>
            rw [RepositoryCall.onSide] at hside
            split_ifs at hside
            cases hside
            obtain ⟨ha, hother⟩ := mem_filter.mp ha
            refine .inl ⟨ha, ?_⟩
            rintro ⟨⟩
            simp [sameId] at hother
        | getOrders price =>
            cases hside
            exact .inl ⟨ha, nofun⟩
  refine ⟨⟨fun side => (hstep side).1, fun side a ha => ?_⟩, fun side a ha =>
    ((hstep side).2 a ha).imp id fun h => h.2⟩
  rcases (hstep side).2 a ha with ⟨ha, -⟩ | ⟨hside, priority, rfl⟩
  · exact h.known side a ha
  · exact ⟨hcall a mem_cons_self, hside⟩

theorem mem_emplace (l : List BookOrder) :
    a ∈ l.foldl (fun orders order => emplace order orders) orders → a ∈ orders ∨ a ∈ l := by
  induction l generalizing orders with
  | nil => exact .inl
  | cons order l ih =>
      intro ha
      rcases ih ha with ha | ha
      · dsimp only [emplace] at ha
        split_ifs at ha
        · exact .inl ha
        · rw [mem_append, mem_singleton] at ha
          refine ha.imp id fun h => ?_
          rw [h]
          exact mem_cons_self
      · exact .inr (mem_cons_of_mem order ha)

theorem mem_treap_of_getOrders {price : Nat} (ha : a ∈ (repo.getOrders price).1) :
    ∃ side, a ∈ (repo.treap side).elems := by
  have htail : ∀ side, a ∈ ((repo.treap side).getTail (isBefore · · side) sameId
      (pivot price side)).1 → a ∈ (repo.treap side).elems := fun side h => by
    rw [← @elems_split _ (isBefore · · side) sameId (pivot price side)]
    exact mem_append_left _ h
  rcases (mem_append.mp ((mem_emplace _ ha).resolve_left (not_mem_nil))) with ha | ha
  · exact ⟨.buy, htail .buy (mem_filter.mp ha).1⟩
  · exact ⟨.sell, htail .sell (mem_filter.mp ha).1⟩

/-- After a run in which every order that is added is new or at the root, an order that has been
removed is not returned. -/
theorem removed_not_returned {done rest : List RepositoryCall} {price : Nat}
    (hone : OneOrderPerId ((done ++ .removeOrder order :: rest).flatMap RepositoryCall.orders))
    (hroots : StepsMeet RepositoryCall.step (fun repo call => call.atRoot repo) {}
      (done ++ .removeOrder order :: rest))
    (hrest : ∀ priority, .addOrder order priority ∉ rest)
    (ha : a ∈ ((run RepositoryCall.step {} (done ++ .removeOrder order :: rest)).getOrders price).1) :
    a.orderId ≠ order.orderId := by
  generalize hall : (done ++ .removeOrder order :: rest).flatMap RepositoryCall.orders = known at hone
  have hcalls : ∀ call ∈ done ++ .removeOrder order :: rest, ∀ a ∈ call.orders, a ∈ known :=
    fun call hc a ha => hall ▸ mem_flatMap.mpr ⟨call, hc, ha⟩
  have horder : order ∈ known :=
    hcalls (.removeOrder order) (mem_append_right _ mem_cons_self) order mem_cons_self
  have hempty : Kept known {} :=
    ⟨fun side => by cases side <;> exact List.Pairwise.nil,
      fun side a ha => by cases side <;> cases ha⟩
  have hdone : Kept known (run RepositoryCall.step {} done) :=
    run_invariant (Kept known) (fun repo call h hcall => (h.step hone hcall.2 hcall.1).1) hempty
      (StepsMeet.and_mem hroots.prefix fun call hc => hcalls call (mem_append_left _ hc))
  obtain ⟨hroot, hroots⟩ := hroots.suffix
  have hremoved := hdone.step hone
    (hcalls (.removeOrder order) (mem_append_right _ mem_cons_self)) hroot
  have hmeet := hroots.and_mem (Q := fun call => (∀ a ∈ call.orders, a ∈ known) ∧
    ∀ priority, call ≠ .addOrder order priority) fun call hc =>
      ⟨hcalls call (mem_append_right _ (mem_cons_of_mem _ hc)),
        fun priority he => hrest priority (he ▸ hc)⟩
  -- nothing but an addition of the order brings its id back
  have hlast := run_invariant
    (fun repo => Kept known repo ∧ ∀ side, ∀ a ∈ (repo.treap side).elems, a.orderId ≠ order.orderId)
    (fun repo call h hcall => by
      obtain ⟨hroot, hknown, hnew⟩ := hcall
      obtain ⟨hkept, hmem⟩ := h.1.step hone hknown hroot
      refine ⟨hkept, fun side a ha => ?_⟩
      rcases hmem side a ha with ⟨ha, -⟩ | ⟨priority, rfl⟩
      · exact h.2 side a ha
      · intro hid
        obtain rfl := hone a (hknown a mem_cons_self) order horder hid
        exact hnew priority rfl)
    ⟨hremoved.1, fun side a ha hid => by
      rcases hremoved.2 side a ha with ⟨ha, hother⟩ | ⟨priority, h⟩
      · rw [hone a (hdone.known side a ha).1 order horder hid] at hother
        exact hother rfl
      · cases h⟩ hmeet
  rw [run_append, run_cons] at ha
  obtain ⟨side, ha⟩ := mem_treap_of_getOrders ha
  exact hlast.2 side a ha

end Repository

/-- A treap is the set of its keys along a run exactly when every key that is inserted is new or
at the root; then the repository does not return an order that has been removed. -/
theorem order_treap_iff {α β : Type*} [LinearOrder β] {order same : α → α → Bool} {rank : α → β}
    (hagrees : ∀ a b, TreapNode.Agrees order same rank a b) (calls : List (TreapCall α)) :
    (StepsMeet (TreapCall.step order same)
        (fun st call => TreapCall.Holds order same (TreapCall.step order same st call))
        (.null, []) calls ↔
      StepsMeet (TreapCall.step order same) (fun st call => call.atRoot same st.1)
        (.null, []) calls) ∧
    ∀ (done rest : List RepositoryCall) (removed : BookOrder),
      OneOrderPerId ((done ++ .removeOrder removed :: rest).flatMap RepositoryCall.orders) →
      StepsMeet RepositoryCall.step (fun repo call => call.atRoot repo) {}
        (done ++ .removeOrder removed :: rest) →
      (∀ priority, .addOrder removed priority ∉ rest) →
      ∀ price, ∀ a ∈ ((run RepositoryCall.step {}
        (done ++ .removeOrder removed :: rest)).getOrders price).1,
        a.orderId ≠ removed.orderId := by
  refine ⟨?_, fun done rest removed hone hroots hrest price a ha =>
    removed_not_returned hone hroots hrest ha⟩
  exact @stepsMeet_iff _ _ _ _ _ _ (fun _ => True) _ (fun _ _ _ => trivial)
    (fun st call _ h => holds_step_iff hagrees call h) trivial
    (holds_of_sorted hagrees List.Pairwise.nil (List.Perm.refl _))

/-- The key of the root is inserted again, and taken out. -/
theorem order_treap_three :
    StepsMeet (TreapCall.step (fun a b : ℕ => a < b) (· == ·))
      (fun st call => TreapCall.Holds (· < ·) (· == ·)
        (TreapCall.step (· < ·) (· == ·) st call)) (.null, [])
      [.insert 1 9, .insert 2 5, .insert 1 7, .delete 1] :=
  (@order_treap_iff ℕ ℕ _ (fun a b => a < b) (· == ·) id
    (fun a b => ⟨decide_eq_true_iff, decide_eq_true_iff, beq_iff_eq⟩)
    [.insert 1 9, .insert 2 5, .insert 1 7, .delete 1]).1.mpr (by decide)

/-- Two bids, of which the second is worse. -/
def betterBid : BookOrder := { orderId := 1, side := .buy, lowPrice := 1, highPrice := 20 }

def worseBid : BookOrder := { orderId := 2, side := .buy, lowPrice := 1, highPrice := 10 }

/-- A key below the root is inserted twice, and an order that has been added twice is returned
after it has been removed. -/
theorem order_treap_of_two : ¬ StepsMeet (TreapCall.step (fun a b : ℕ => a < b) (· == ·))
      (fun st call => TreapCall.Holds (· < ·) (· == ·)
        (TreapCall.step (· < ·) (· == ·) st call)) (.null, [])
      [.insert 1 9, .insert 2 5, .insert 2 3] ∧
    worseBid ∈ ((run RepositoryCall.step {} [.addOrder betterBid 9, .addOrder worseBid 5,
      .addOrder worseBid 3, .removeOrder worseBid]).getOrders 5).1 := by
  refine ⟨fun h => ?_, by decide⟩
  exact absurd h.2.2.1.perm.length_eq (by decide)

end LegacyEngine
end ContExchange
