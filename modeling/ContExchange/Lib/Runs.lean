import Mathlib.Algebra.BigOperators.Group.List.Basic
import Mathlib.Tactic.Linarith

/-!
# Library: runs of a deterministic step function

A system is a state type, an event type and a step function.  A run handles a
list of events from left to right.  This module fixes the words used for
properties of runs and packages the induction once:

* `StepsMeet step Ok s es`: every event of the run meets the condition `Ok` in
  the state in which it is handled;
* `run_invariant`: what every step that meets the condition preserves holds in
  the state a run of such steps ends in;
* `stepsMeet_iff`: the same with a condition that is also necessary;
* `stepsMeet_congr`: two conditions that agree while an invariant holds;
* `exists_along_iff`: what some event of an endless sequence finds, when nothing changes
  before it does;
* `run_invariant_total`: the same for an invariant that also knows what the
  events have cost so far;
* `run_potential`: a potential that every step raises by the gain of its event,
  up to a slack, rises over the run by the gains, up to the slacks.

Every prefix of a run is a run, so a statement about the last state of all runs
is a statement about every state that is reached.
-/

namespace ContExchange
namespace Lib

open List

section Runs

variable {σ ε : Type*}

/-- The state after handling the events from left to right. -/
def run (step : σ → ε → σ) (s : σ) (es : List ε) : σ :=
  es.foldl step s

/-- Every event of the run meets `Ok` in the state before it. -/
def StepsMeet (step : σ → ε → σ) (Ok : σ → ε → Prop) : σ → List ε → Prop
  | _, [] => True
  | s, e :: es => Ok s e ∧ StepsMeet step Ok (step s e) es

variable {step : σ → ε → σ} {Ok : σ → ε → Prop}

instance decidableStepsMeet [∀ s e, Decidable (Ok s e)] :
    (s : σ) → (es : List ε) → Decidable (StepsMeet step Ok s es)
  | _, [] => isTrue trivial
  | s, e :: es =>
      have := decidableStepsMeet (step s e) es
      inferInstanceAs (Decidable (_ ∧ _))

@[simp] theorem run_nil (s : σ) : run step s [] = s := rfl

@[simp] theorem run_cons (s : σ) (e : ε) (es : List ε) :
    run step s (e :: es) = run step (step s e) es := rfl

@[simp] theorem run_append (s : σ) (es fs : List ε) :
    run step s (es ++ fs) = run step (run step s es) fs := by
  simp [run]

variable {s : σ} {es fs : List ε}

/-- The condition holds along every prefix of a run along which it holds. -/
theorem StepsMeet.prefix (h : StepsMeet step Ok s (es ++ fs)) : StepsMeet step Ok s es := by
  induction es generalizing s with
  | nil => trivial
  | cons e es ih => exact ⟨h.1, ih h.2⟩

/-- The second part of a run meets the condition from where the first ends. -/
theorem StepsMeet.suffix (h : StepsMeet step Ok s (es ++ fs)) :
    StepsMeet step Ok (run step s es) fs := by
  induction es generalizing s with
  | nil => exact h
  | cons e es ih => exact ih h.2

/-- Two runs that meet the condition meet it one after the other. -/
theorem StepsMeet.append (h : StepsMeet step Ok s es) (h' : StepsMeet step Ok (run step s es) fs) :
    StepsMeet step Ok s (es ++ fs) := by
  induction es generalizing s with
  | nil => exact h'
  | cons e es ih => exact ⟨h.1, ih h.2 h'⟩

variable {es : List ε}

theorem StepsMeet.imp {Ok' : σ → ε → Prop} (himp : ∀ s e, Ok s e → Ok' s e)
    (h : StepsMeet step Ok s es) : StepsMeet step Ok' s es := by
  induction es generalizing s with
  | nil => trivial
  | cons e es ih => exact ⟨himp s e h.1, ih h.2⟩

variable {Q : ε → Prop}

/-- A condition that does not look at the state holds of every event. -/
theorem StepsMeet.forall_mem (himp : ∀ s e, Ok s e → Q e) (h : StepsMeet step Ok s es) :
    ∀ e ∈ es, Q e := by
  induction es generalizing s with
  | nil => simp
  | cons e es ih =>
      intro e' he'
      rcases mem_cons.mp he' with rfl | he'
      · exact himp s e' h.1
      · exact ih h.2 e' he'

/-- A run of events with a property meets the condition together with it. -/
theorem StepsMeet.and_mem (h : StepsMeet step Ok s es) (hes : ∀ e ∈ es, Q e) :
    StepsMeet step (fun s e => Ok s e ∧ Q e) s es := by
  induction es generalizing s with
  | nil => trivial
  | cons e es ih =>
      have hrest : ∀ e' ∈ es, Q e' := fun e' he' => hes e' (mem_cons_of_mem e he')
      exact ⟨⟨h.1, hes e mem_cons_self⟩, ih h.2 hrest⟩

/-- An invariant holds in every state in which a step is taken. -/
theorem StepsMeet.with_invariant {Inv : σ → Prop} (hstep : ∀ s e, Inv s → Ok s e → Inv (step s e))
    (hinit : Inv s) (h : StepsMeet step Ok s es) :
    StepsMeet step (fun s e => Inv s ∧ Ok s e) s es := by
  induction es generalizing s with
  | nil => trivial
  | cons e es ih => exact ⟨⟨hinit, h.1⟩, ih (hstep s e hinit h.1) h.2⟩

/-- What every step that meets the condition preserves holds after the run. -/
theorem run_invariant (Inv : σ → Prop) (hstep : ∀ s e, Inv s → Ok s e → Inv (step s e))
    (hinit : Inv s) (hmeet : StepsMeet step Ok s es) : Inv (run step s es) := by
  induction es generalizing s with
  | nil => exact hinit
  | cons e es ih => exact ih (hstep s e hinit hmeet.1) hmeet.2

/-- What every step preserves holds after the run. -/
theorem run_preserves (Inv : σ → Prop) (hstep : ∀ s e, Inv s → Inv (step s e)) (hinit : Inv s)
    (es : List ε) : Inv (run step s es) := by
  induction es generalizing s with
  | nil => exact hinit
  | cons e es ih => exact ih (hstep s e hinit)

/-- What the steps of events with a property preserve holds after a run of such events. -/
theorem run_preserves_of_mem (Inv : σ → Prop) (hstep : ∀ s e, Inv s → Q e → Inv (step s e))
    (hinit : Inv s) (hes : ∀ e ∈ es, Q e) : Inv (run step s es) := by
  induction es generalizing s with
  | nil => exact hinit
  | cons e es ih =>
      have hnext := hstep s e hinit (hes e mem_cons_self)
      exact ih hnext (fun e' he' => hes e' (mem_cons_of_mem e he'))

/-- A property that a step keeps exactly when it meets the condition holds after every
step of a run exactly when all steps meet it. -/
theorem stepsMeet_iff {Inv Safe : σ → Prop} (hinv : ∀ s e, Inv s → Inv (step s e))
    (hstep : ∀ s e, Inv s → Safe s → (Safe (step s e) ↔ Ok s e)) (hinit : Inv s) (hsafe : Safe s) :
    StepsMeet step (fun s e => Safe (step s e)) s es ↔ StepsMeet step Ok s es := by
  induction es generalizing s with
  | nil => exact Iff.rfl
  | cons e es ih =>
      constructor
      · rintro ⟨hfirst, hrest⟩
        exact ⟨(hstep s e hinit hsafe).mp hfirst, (ih (hinv s e hinit) hfirst).mp hrest⟩
      · rintro ⟨hfirst, hrest⟩
        have hnext := (hstep s e hinit hsafe).mpr hfirst
        exact ⟨hnext, (ih (hinv s e hinit) hnext).mpr hrest⟩

/-- Two conditions that agree while an invariant holds, and keep it, agree on a run of
events that are allowed. -/
theorem stepsMeet_congr (Inv : σ → Prop) {P Q Allowed : σ → ε → Prop}
    (hiff : ∀ s e, Inv s → (P s e ↔ Q s e))
    (hinv : ∀ s e, Inv s → Allowed s e → P s e → Inv (step s e)) (hinit : Inv s)
    (hallowed : StepsMeet step Allowed s es) : StepsMeet step P s es ↔ StepsMeet step Q s es := by
  induction es generalizing s with
  | nil => exact Iff.rfl
  | cons e es ih =>
      constructor
      · rintro ⟨hfirst, hrest⟩
        have hnext := hinv s e hinit hallowed.1 hfirst
        exact ⟨(hiff s e hinit).mp hfirst, (ih hnext hallowed.2).mp hrest⟩
      · rintro ⟨hfirst, hrest⟩
        have hp := (hiff s e hinit).mpr hfirst
        have hnext := hinv s e hinit hallowed.1 hp
        exact ⟨hp, (ih hnext hallowed.2).mpr hrest⟩

/-- The state before the `n`-th event of an endless sequence of events. -/
def along (step : σ → ε → σ) (s : σ) (es : ℕ → ε) : ℕ → σ
  | 0 => s
  | n + 1 => step (along step s es n) (es n)

/-- When nothing that matters changes before an event finds the property, some event of an
endless sequence finds it in the state before it exactly when some event would find it in
the first state. -/
theorem exists_along_iff (Same : σ → Prop) (P : σ → ε → Prop) {es : ℕ → ε} (hinit : Same s)
    (hsame : ∀ t e, Same t → (P t e ↔ P s e))
    (hstep : ∀ t n, Same t → ¬ P t (es n) → Same (step t (es n))) :
    (∃ n, P (along step s es n) (es n)) ↔ ∃ n, P s (es n) := by
  have hbefore : ∀ n, (∀ m < n, ¬ P s (es m)) → Same (along step s es n) := by
    intro n
    induction n with
    | zero => exact fun _ => hinit
    | succ n ih =>
        intro hnone
        have hn := ih (fun m hm => hnone m (Nat.lt_succ_of_lt hm))
        have hnot : ¬ P (along step s es n) (es n) :=
          fun h => hnone n (Nat.lt_succ_self n) ((hsame _ _ hn).mp h)
        exact hstep _ n hn hnot
  constructor
  · rintro ⟨n, hn⟩
    by_contra hnone
    have hs := hbefore n (fun m _ hm => hnone ⟨m, hm⟩)
    exact hnone ⟨n, (hsame _ _ hs).mp hn⟩
  · intro hex
    classical
    have hs := hbefore (Nat.find hex) (fun m hm => Nat.find_min hex hm)
    exact ⟨Nat.find hex, (hsame _ _ hs).mpr (Nat.find_spec hex)⟩

/-- The sum of a quantity over the steps of a run. -/
def sumAlong {M : Type*} [AddMonoid M] (step : σ → ε → σ) (f : σ → ε → M) : σ → List ε → M
  | _, [] => 0
  | s, e :: es => f s e + sumAlong step f (step s e) es

/-- The same with a running total: each step adds its cost, and the invariant
relates the state to the total so far. -/
theorem run_invariant_sum {M : Type*} [AddMonoid M] (Inv : σ → M → Prop) (cost : σ → ε → M)
    (hstep : ∀ s m e, Inv s m → Ok s e → Inv (step s e) (m + cost s e)) {m : M} (hinit : Inv s m)
    (hmeet : StepsMeet step Ok s es) : Inv (run step s es) (m + sumAlong step cost s es) := by
  induction es generalizing s m with
  | nil => simpa [sumAlong] using hinit
  | cons e es ih =>
      have h := ih (hstep s m e hinit hmeet.1) hmeet.2
      rw [add_assoc] at h
      exact h

theorem sumAlong_of_events {M : Type*} [AddMonoid M] (cost : ε → M) (s : σ) (es : List ε) :
    sumAlong step (fun _ e => cost e) s es = (es.map cost).sum := by
  induction es generalizing s with
  | nil => rfl
  | cons e es ih => rw [sumAlong, ih, map_cons, sum_cons]

/-- The same with costs that do not look at the state. -/
theorem run_invariant_total {M : Type*} [AddMonoid M] (Inv : σ → M → Prop) (cost : ε → M)
    (hstep : ∀ s m e, Inv s m → Ok s e → Inv (step s e) (m + cost e)) {m : M} (hinit : Inv s m)
    (hmeet : StepsMeet step Ok s es) : Inv (run step s es) (m + (es.map cost).sum) := by
  rw [← sumAlong_of_events cost s es]
  exact run_invariant_sum Inv (fun _ e => cost e) hstep hinit hmeet

/-- A potential that every step raises by the gain of its event up to a slack. -/
theorem run_potential (potential : σ → ℚ) (gain : ε → ℚ) (slack : σ → ε → ℚ)
    (hstep : ∀ s e, Ok s e → |potential (step s e) - potential s - gain e| ≤ slack s e)
    (hmeet : StepsMeet step Ok s es) :
    |potential (run step s es) - potential s - (es.map gain).sum| ≤ sumAlong step slack s es := by
  induction es generalizing s with
  | nil => simp [sumAlong]
  | cons e es ih =>
      have hfirst := hstep s e hmeet.1
      have hrest := ih hmeet.2
      rw [run_cons, map_cons, sum_cons, sumAlong]
      rw [abs_le] at hfirst hrest ⊢
      constructor <;> linarith

end Runs

end Lib
end ContExchange
