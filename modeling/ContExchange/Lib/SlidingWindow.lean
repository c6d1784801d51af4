import Mathlib.Data.List.Basic
import Mathlib.Order.Basic

/-!
# Library: limits over a sliding window

A log grows at times that do not decrease.  A limiter that looks at the entries of the last
`width` before every new one keeps a limit over every window of that width, wherever it starts:
an earlier entry in the window of the new one is not older than the width.

* `sublist_dropWhile`: pruning the old entries from the front keeps the recent ones;
* `limited_concat`: one more entry keeps the limit over every window.
-/

namespace ContExchange
namespace Lib

open List

section SlidingWindow

variable {α : Type*} (time : α → Int) (width : Int)

/-- The entries in the window that starts at a time. -/
def windowOf (start : Int) (log : List α) : List α :=
  log.filter (fun a => decide (start ≤ time a ∧ time a ≤ start + width))

/-- The entries that are not older than the width. -/
def recentOf (now : Int) (log : List α) : List α :=
  log.filter (fun a => decide (now - width ≤ time a))

variable {time width} {log : List α} {now : Int}

theorem mem_recentOf {a : α} (h : a ∈ recentOf time width now log) : now - width ≤ time a :=
  of_decide_eq_true (mem_filter.mp h).2

theorem recentOf_concat (e : α) (h : now - width ≤ time e) :
    recentOf time width now (log ++ [e]) = recentOf time width now log ++ [e] := by
  have hlast : recentOf time width now [e] = [e] :=
    filter_cons_of_pos (decide_eq_true h)
  rw [recentOf, filter_append]
  exact congrArg _ hlast

/-- Later, fewer entries are recent. -/
theorem recentOf_later {later : Int} (h : now ≤ later) :
    (recentOf time width later log).Sublist (recentOf time width now log) := by
  apply monotone_filter_right
  intro a ha
  have hlate : later - width ≤ time a := of_decide_eq_true ha
  exact decide_eq_true (by omega)

/-- Entries that are not dropped survive the pruning of the front. -/
theorem sublist_dropWhile {drop : α → Bool} {kept all : List α} (h : kept.Sublist all)
    (hkept : ∀ a ∈ kept, drop a = false) : kept.Sublist (all.dropWhile drop) := by
  induction all with
  | nil => exact h
  | cons a all ih =>
      by_cases hdrop : drop a = true
      · rw [dropWhile_cons_of_pos hdrop]
        rcases sublist_cons_iff.mp h with htail | ⟨rest, rfl, -⟩
        · exact ih htail
        · have hhead := hkept a mem_cons_self
          rw [hdrop] at hhead
          cases hhead
      · rw [dropWhile_cons_of_neg hdrop]
        exact h

/-- When the recent entries and a new one are within a limit that every part of a list within
it is within, the limit holds of every window with the new entry too. -/
theorem limited_concat {Limit : List α → Prop}
    (hpart : ∀ part whole : List α, part.Sublist whole → Limit whole → Limit part)
    (e : α) (hlog : ∀ start, Limit (windowOf time width start log))
    (hnew : Limit (recentOf time width (time e) log ++ [e])) (start : Int) :
    Limit (windowOf time width start (log ++ [e])) := by
  rw [windowOf, filter_append]
  by_cases hin : start ≤ time e ∧ time e ≤ start + width
  · -- what is in the window of the new entry is recent for it
    have hrecent : (windowOf time width start log).Sublist (recentOf time width (time e) log) := by
      apply monotone_filter_right
      intro a ha
      have hwindow : start ≤ time a ∧ time a ≤ start + width := of_decide_eq_true ha
      exact decide_eq_true (by omega)
    have hlast : windowOf time width start [e] = [e] := by simp [windowOf, hin]
    change Limit (_ ++ windowOf time width start [e])
    rw [hlast]
    exact hpart _ _ (hrecent.append (List.Sublist.refl [e])) hnew
  · have hlast : windowOf time width start [e] = [] := by simpa [windowOf] using hin
    change Limit (_ ++ windowOf time width start [e])
    rw [hlast, append_nil]
    exact hlog start

end SlidingWindow

end Lib
end ContExchange
