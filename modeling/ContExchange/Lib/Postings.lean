import ContExchange.Lib.Runs
import ContExchange.Lib.Table
import Mathlib.Algebra.BigOperators.Group.Finset.Piecewise

/-!
# Library: postings to a table of accounts

A posting adds an amount to one account.  The accounts are the rows of a table;
`val` reads the value of a row and a missing row reads as zero.

* `Posts val t ps t'`: the postings `ps` lead from the accounts `t` to `t'`,
  account by account;
* `Posts.total`: over any set of accounts, the total changes by the postings to
  those accounts;
* `PostsRounded`: the same with a tolerance for each posting;
* `journal step entries s es`: what a run writes down, event by event, and
  `Posts.run`: when every step is given by its entries, the run is given by its
  journal.
-/

namespace ContExchange
namespace Lib

open AList List

universe u v w

structure Posting (κ : Type u) (M : Type w) where
  account : κ
  amount : M
deriving DecidableEq

section Net

variable {κ : Type u} {M : Type w} [AddCommMonoid M]

/-- The sum of the postings to the accounts that satisfy `P`. -/
def netOn (P : κ → Prop) [DecidablePred P] (ps : List (Posting κ M)) : M :=
  (ps.map (fun p => if P p.account then p.amount else 0)).sum

variable (P : κ → Prop) [DecidablePred P]

@[simp] theorem netOn_nil : netOn P ([] : List (Posting κ M)) = 0 := rfl

@[simp] theorem netOn_cons (p : Posting κ M) (ps : List (Posting κ M)) :
    netOn P (p :: ps) = (if P p.account then p.amount else 0) + netOn P ps := by
  simp [netOn]

@[simp] theorem netOn_append (ps qs : List (Posting κ M)) :
    netOn P (ps ++ qs) = netOn P ps + netOn P qs := by
  simp [netOn]

variable [DecidableEq κ]

/-- The sum of the postings to one account. -/
def net (k : κ) (ps : List (Posting κ M)) : M :=
  netOn (fun a => a = k) ps

@[simp] theorem net_nil (k : κ) : net k ([] : List (Posting κ M)) = 0 := rfl

@[simp] theorem net_cons (k : κ) (p : Posting κ M) (ps : List (Posting κ M)) :
    net k (p :: ps) = (if p.account = k then p.amount else 0) + net k ps :=
  netOn_cons _ p ps

@[simp] theorem net_append (k : κ) (ps qs : List (Posting κ M)) :
    net k (ps ++ qs) = net k ps + net k qs :=
  netOn_append _ ps qs

/-- The postings to a finite set of accounts, account by account. -/
theorem sum_net (S : Finset κ) (ps : List (Posting κ M)) :
    ∑ k ∈ S, net k ps = netOn (fun a => a ∈ S) ps := by
  induction ps with
  | nil => simp
  | cons p ps ih =>
      simp only [net_cons, netOn_cons, Finset.sum_add_distrib, ih]
      congr 1
      exact Finset.sum_ite_eq S p.account (fun _ => p.amount)

end Net

section Accounts

variable {κ : Type u} {ν : Type v} {M : Type w}
variable [DecidableEq κ] [AddCommMonoid M]

/-- The value of an account; a missing row reads as zero. -/
def valueAt (val : ν → M) (t : Table κ ν) (k : κ) : M :=
  (t.lookup k).elim 0 val

/-- The total of the accounts that satisfy `P`. -/
def total (val : ν → M) (P : κ → Prop) [DecidablePred P] (t : Table κ ν) : M :=
  Table.sum (fun k v => if P k then val v else 0) t

/-- The postings lead from the accounts `t` to the accounts `t'`. -/
def Posts (val : ν → M) (t : Table κ ν) (ps : List (Posting κ M)) (t' : Table κ ν) : Prop :=
  ∀ k, valueAt val t' k = valueAt val t k + net k ps

variable {val : ν → M} {t t' t'' : Table κ ν} {ps qs : List (Posting κ M)}

theorem valueAt_of_lookup {k : κ} {v : ν} (h : t.lookup k = some v) : valueAt val t k = val v := by
  simp [valueAt, h]

theorem valueAt_of_none {k : κ} (h : t.lookup k = none) : valueAt val t k = 0 := by
  simp [valueAt, h]

theorem valueAt_insert (k k' : κ) (v : ν) :
    valueAt val (t.insert k v) k' = if k = k' then val v else valueAt val t k' := by
  by_cases h : k = k'
  · subst h
    simp [valueAt]
  · rw [if_neg h]
    simp only [valueAt]
    rw [lookup_insert_ne (Ne.symm h)]

namespace Posts

theorem refl (t : Table κ ν) : Posts val t [] t := by
  intro k
  simp

theorem trans (h : Posts val t ps t') (h' : Posts val t' qs t'') : Posts val t (ps ++ qs) t'' := by
  intro k
  rw [h' k, h k, net_append, add_assoc]

/-- Writing one row is a posting to it. -/
theorem insert {k : κ} {v : ν} {amount : M} (h : val v = valueAt val t k + amount) :
    Posts val t [⟨k, amount⟩] (t.insert k v) := by
  intro k'
  rw [valueAt_insert]
  by_cases hk : k = k'
  · subst hk
    simp [h]
  · simp [hk]

/-- Writing a row with its old value posts nothing. -/
theorem insert_same {k : κ} {v : ν} (h : val v = valueAt val t k) :
    Posts val t [] (t.insert k v) := by
  intro k'
  rw [valueAt_insert]
  by_cases hk : k = k'
  · subst hk
    simp [h]
  · simp [hk]

end Posts

/-- A total is a sum over any set of accounts that has all rows. -/
theorem total_eq_sum (P : κ → Prop) [DecidablePred P]
    {S : Finset κ} (hS : ∀ k v, t.lookup k = some v → k ∈ S) :
    total val P t = ∑ k ∈ S with P k, valueAt val t k := by
  have hnodup : t.keys.Nodup := t.keys_nodup
  have hrow : ∀ r ∈ t.entries, t.lookup r.1 = some r.2 :=
    fun r hr => mem_lookup_iff.mpr hr
  have hkeys :
      total val P t = (t.keys.map (fun k => if P k then valueAt val t k else 0)).sum := by
    show (t.entries.map _).sum = ((t.entries.map _).map _).sum
    rw [map_map]
    congr 1
    apply map_congr_left
    intro r hr
    simp only [Function.comp_apply]
    rw [valueAt_of_lookup (hrow r hr)]
  rw [hkeys, ← sum_toFinset _ hnodup, Finset.sum_filter]
  apply Finset.sum_subset
  · intro k hk
    obtain ⟨v, hv⟩ := Option.isSome_iff_exists.mp (lookup_isSome.mpr (mem_toFinset.mp hk))
    exact hS k v hv
  · intro k _ hk
    have hnone : t.lookup k = none :=
      lookup_eq_none.mpr (fun h => hk (mem_toFinset.mpr h))
    simp [valueAt_of_none hnone]

/-- Over any set of accounts, the total changes by the postings to the set. -/
theorem Posts.total (h : Posts val t ps t') (P : κ → Prop) [DecidablePred P] :
    Lib.total val P t' = Lib.total val P t + netOn P ps := by
  let S : Finset κ :=
    t.keys.toFinset ∪ t'.keys.toFinset ∪ (ps.map Posting.account).toFinset
  have hmem : ∀ {u : Table κ ν} {k : κ} {v : ν}, u.lookup k = some v → k ∈ u.keys.toFinset := by
    intro u k v hk
    exact mem_toFinset.mpr (lookup_isSome.mp (by simp [hk]))
  have hS : ∀ k v, t.lookup k = some v → k ∈ S := by
    intro k v hk
    exact Finset.mem_union_left _ (Finset.mem_union_left _ (hmem hk))
  have hS' : ∀ k v, t'.lookup k = some v → k ∈ S := by
    intro k v hk
    exact Finset.mem_union_left _ (Finset.mem_union_right _ (hmem hk))
  rw [total_eq_sum P hS, total_eq_sum P hS']
  simp only [h _, Finset.sum_add_distrib]
  congr 1
  rw [sum_net]
  simp only [netOn]
  congr 1
  apply map_congr_left
  intro p hp
  have hpS : p.account ∈ S := by
    apply Finset.mem_union_right
    exact mem_toFinset.mpr (mem_map_of_mem hp)
  simp [Finset.mem_filter, hpS]

end Accounts

section Journal

variable {σ ε β : Type*}

/-- What a run writes down: the entries of every event, in order. -/
def journal (step : σ → ε → σ) (entries : σ → ε → List β) : σ → List ε → List β
  | _, [] => []
  | s, e :: es => entries s e ++ journal step entries (step s e) es

variable {step : σ → ε → σ} {entries : σ → ε → List β}

@[simp] theorem journal_nil (s : σ) : journal step entries s [] = [] := rfl

@[simp] theorem journal_cons (s : σ) (e : ε) (es : List ε) :
    journal step entries s (e :: es) = entries s e ++ journal step entries (step s e) es := rfl

/-- Entries that do not depend on the state. -/
theorem journal_eq_flatMap (f : ε → List β) (s : σ) (es : List ε) :
    journal step (fun _ e => f e) s es = es.flatMap f := by
  induction es generalizing s with
  | nil => rfl
  | cons e es ih => simp [ih]

/-- When every step runs the actions it writes down, a run runs its journal. -/
theorem run_journal {act : σ → β → σ} (hstep : ∀ s e, run act s (entries s e) = step s e) (s : σ)
    (es : List ε) : run act s (journal step entries s es) = run step s es := by
  induction es generalizing s with
  | nil => rfl
  | cons e es ih =>
      rw [journal_cons, run_append, hstep, run_cons]
      exact ih (step s e)

/-- What holds of the entries of every step holds of the journal. -/
theorem forall_mem_journal {Q : β → Prop} {Ok : σ → ε → Prop}
    (hentries : ∀ s e, Ok s e → ∀ b ∈ entries s e, Q b) {s : σ} {es : List ε}
    (hmeet : StepsMeet step Ok s es) : ∀ b ∈ journal step entries s es, Q b := by
  induction es generalizing s with
  | nil => simp
  | cons e es ih =>
      intro b hb
      rcases mem_append.mp hb with hb | hb
      · exact hentries s e hmeet.1 b hb
      · exact ih hmeet.2 b hb

theorem Posts.run {κ : Type u} {ν : Type v} {M : Type w} [DecidableEq κ] [AddCommMonoid M]
    {val : ν → M} (accounts : σ → Table κ ν) {entries : σ → ε → List (Posting κ M)}
    {Ok : σ → ε → Prop}
    (hstep : ∀ s e, Ok s e → Posts val (accounts s) (entries s e) (accounts (step s e))) {s : σ}
    {es : List ε} (hmeet : StepsMeet step Ok s es) :
    Posts val (accounts s) (journal step entries s es) (accounts (Lib.run step s es)) := by
  induction es generalizing s with
  | nil => exact Posts.refl _
  | cons e es ih => exact (hstep s e hmeet.1).trans (ih hmeet.2)

end Journal

section Rounded

variable {κ : Type u} {ν : Type v}

/-- An intended posting and the rounding it may suffer. -/
structure RoundedPosting (κ : Type u) where
  posting : Posting κ ℚ
  tolerance : ℚ

/-- The posting made is the intended one up to its tolerance. -/
def RoundedPosting.Admits (r : RoundedPosting κ) (p : Posting κ ℚ) : Prop :=
  p.account = r.posting.account ∧ |p.amount - r.posting.amount| ≤ r.tolerance

/-- The tolerances of the postings to the accounts that satisfy `P`. -/
def slackOn (P : κ → Prop) [DecidablePred P] (rs : List (RoundedPosting κ)) : ℚ :=
  (rs.map (fun r => if P r.posting.account then r.tolerance else 0)).sum

theorem abs_netOn_sub_le (P : κ → Prop) [DecidablePred P] {rs : List (RoundedPosting κ)}
    {ps : List (Posting κ ℚ)} (h : List.Forall₂ RoundedPosting.Admits rs ps) :
    |netOn P ps - netOn P (rs.map RoundedPosting.posting)| ≤ slackOn P rs := by
  induction h with
  | nil => simp [slackOn]
  | @cons r p rs ps hp hps ih =>
      obtain ⟨haccount, hamount⟩ := hp
      have hslack : slackOn P (r :: rs) =
          (if P r.posting.account then r.tolerance else 0) + slackOn P rs := by
        simp [slackOn]
      rw [hslack, map_cons, netOn_cons, netOn_cons, haccount]
      split
      · have htri := abs_add_le (p.amount - r.posting.amount)
          (netOn P ps - netOn P (rs.map RoundedPosting.posting))
        rw [add_sub_add_comm]
        linarith
      · simpa using ih

variable [DecidableEq κ]

/-- The intended postings lead from the accounts `t` to `t'`, up to rounding. -/
def PostsRounded
    (val : ν → ℚ) (t : Table κ ν) (rs : List (RoundedPosting κ)) (t' : Table κ ν) : Prop :=
  ∃ ps, List.Forall₂ RoundedPosting.Admits rs ps ∧ Posts val t ps t'

variable {val : ν → ℚ} {t t' t'' : Table κ ν} {rs qs : List (RoundedPosting κ)}

namespace PostsRounded

theorem refl (t : Table κ ν) : PostsRounded val t [] t :=
  ⟨[], List.Forall₂.nil, Posts.refl t⟩

theorem trans (h : PostsRounded val t rs t') (h' : PostsRounded val t' qs t'') :
    PostsRounded val t (rs ++ qs) t'' := by
  obtain ⟨ps, hps, hposts⟩ := h
  obtain ⟨ps', hps', hposts'⟩ := h'
  exact ⟨ps ++ ps', rel_append hps hps', hposts.trans hposts'⟩

/-- Writing one row is a posting to it, up to the error of the write. -/
theorem insert {k : κ} {v : ν} {amount tolerance : ℚ}
    (h : |val v - valueAt val t k - amount| ≤ tolerance) :
    PostsRounded val t [⟨⟨k, amount⟩, tolerance⟩] (t.insert k v) := by
  refine ⟨[⟨k, val v - valueAt val t k⟩], ?_, Posts.insert (add_sub_cancel _ _).symm⟩
  exact List.Forall₂.cons ⟨rfl, h⟩ List.Forall₂.nil

/-- Over any set of accounts, the total changes by the intended postings up to
their tolerances. -/
theorem total (h : PostsRounded val t rs t') (P : κ → Prop) [DecidablePred P] :
    |Lib.total val P t' - Lib.total val P t - netOn P (rs.map RoundedPosting.posting)| ≤
      slackOn P rs := by
  obtain ⟨ps, hps, hposts⟩ := h
  rw [hposts.total P, add_sub_cancel_left]
  exact abs_netOn_sub_le P hps

/-- The value of one account changes by its intended postings up to their
tolerances. -/
theorem valueAt (h : PostsRounded val t rs t') (k : κ) :
    |Lib.valueAt val t' k - Lib.valueAt val t k - net k (rs.map RoundedPosting.posting)| ≤
      slackOn (fun a => a = k) rs := by
  obtain ⟨ps, hps, hposts⟩ := h
  rw [hposts k, add_sub_cancel_left]
  exact abs_netOn_sub_le (fun a => a = k) hps

end PostsRounded

end Rounded

end Lib
end ContExchange
