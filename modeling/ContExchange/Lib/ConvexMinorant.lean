import Mathlib.Algebra.BigOperators.Ring.List
import Mathlib.Algebra.Order.BigOperators.Group.List
import Mathlib.Algebra.Order.Field.Basic
import Mathlib.Data.List.Induction
import Mathlib.Tactic.Linarith
import Mathlib.Tactic.Ring

/-!
# Library: the greatest convex minorant on a grid

A piecewise linear function on a grid is a list of segments.  Pooling replaces neighbours whose
slopes fall by their mean until no slope falls.

* `pooled_below`, `pooled_total`: the result is nowhere above and ends where the input does;
* `pooled_sorted`: its slopes do not fall;
* `pooled_greatest`: nothing whose slopes do not fall and that stays below the input is above.
-/

namespace ContExchange
namespace Lib

open List

universe u

/-- A piece of a piecewise linear function. -/
structure Segment (K : Type u) where
  width : K
  rise : K
deriving DecidableEq

namespace Segment

section Segments

variable {K : Type u} [Field K]

def slope (s : Segment K) : K :=
  s.rise / s.width

/-- The segment from the start of the first to the end of the last. -/
def total (segs : List (Segment K)) : Segment K :=
  ⟨(segs.map width).sum, (segs.map rise).sum⟩

@[simp] theorem total_nil : total ([] : List (Segment K)) = ⟨0, 0⟩ := rfl

@[simp] theorem width_total_cons (s : Segment K) (segs : List (Segment K)) :
    (total (s :: segs)).width = s.width + (total segs).width :=
  sum_cons

@[simp] theorem rise_total_cons (s : Segment K) (segs : List (Segment K)) :
    (total (s :: segs)).rise = s.rise + (total segs).rise :=
  sum_cons

@[simp] theorem width_total_append (a b : List (Segment K)) :
    (total (a ++ b)).width = (total a).width + (total b).width := by
  simp [total]

@[simp] theorem rise_total_append (a b : List (Segment K)) :
    (total (a ++ b)).rise = (total a).rise + (total b).rise := by
  simp [total]

/-- The widths are those of a grid that increases. -/
def Increasing [LT K] (segs : List (Segment K)) : Prop :=
  ∀ s ∈ segs, 0 < s.width

def Sorted [LE K] (segs : List (Segment K)) : Prop :=
  segs.Pairwise fun a b => a.slope ≤ b.slope

theorem slope_mul_width {s : Segment K} (h : s.width ≠ 0) : s.slope * s.width = s.rise :=
  div_mul_cancel₀ _ h

theorem Increasing.append_left [LT K] {a b : List (Segment K)} (h : Increasing (a ++ b)) :
    Increasing a :=
  fun s hs => h s (mem_append_left _ hs)

theorem Increasing.append_right [LT K] {a b : List (Segment K)} (h : Increasing (a ++ b)) :
    Increasing b :=
  fun s hs => h s (mem_append_right _ hs)

variable [LinearOrder K] [IsStrictOrderedRing K] {segs p q : List (Segment K)} {m : K}

theorem width_pos (h : Increasing segs) (hne : segs ≠ []) : 0 < (total segs).width := by
  cases segs with
  | nil => exact absurd rfl hne
  | cons s rest =>
      have hs := h s mem_cons_self
      have hrest : 0 ≤ (total rest).width := by
        refine sum_nonneg fun w hw => ?_
        obtain ⟨t, ht, rfl⟩ := mem_map.mp hw
        exact (h t (mem_cons_of_mem _ ht)).le
      rw [width_total_cons]
      linarith

theorem width_nonneg (h : Increasing segs) : 0 ≤ (total segs).width := by
  by_cases hne : segs = []
  · rw [hne, total_nil]
  · exact (width_pos h hne).le

/-- Segments that are not steeper than a slope do not rise above it. -/
theorem rise_le (h : Increasing segs) (hslope : ∀ s ∈ segs, s.slope ≤ m) :
    (total segs).rise ≤ m * (total segs).width := by
  induction segs with
  | nil => simp
  | cons s rest ih =>
      have hs := h s mem_cons_self
      have hrest := ih (fun t ht => h t (mem_cons_of_mem _ ht))
        (fun t ht => hslope t (mem_cons_of_mem _ ht))
      have hle := mul_le_mul_of_nonneg_right (hslope s mem_cons_self) hs.le
      rw [slope_mul_width hs.ne'] at hle
      rw [rise_total_cons, width_total_cons, mul_add]
      exact add_le_add hle hrest

/-- Segments that are at least as steep as a slope rise to it. -/
theorem le_rise (h : Increasing segs) (hslope : ∀ s ∈ segs, m ≤ s.slope) :
    m * (total segs).width ≤ (total segs).rise := by
  induction segs with
  | nil => simp
  | cons s rest ih =>
      have hs := h s mem_cons_self
      have hrest := ih (fun t ht => h t (mem_cons_of_mem _ ht))
        (fun t ht => hslope t (mem_cons_of_mem _ ht))
      have hle := mul_le_mul_of_nonneg_right (hslope s mem_cons_self) hs.le
      rw [slope_mul_width hs.ne'] at hle
      rw [rise_total_cons, width_total_cons, mul_add]
      exact add_le_add hle hrest

/-- Where the slopes do not fall, a start is not steeper than the rest. -/
theorem Sorted.start_below (h : Sorted (p ++ q)) (hpos : Increasing (p ++ q)) :
    (total p).rise * (total q).width ≤ (total q).rise * (total p).width := by
  cases q with
  | nil => simp
  | cons s rest =>
      obtain ⟨-, hrest, hcross⟩ := pairwise_append.mp h
      have hp := rise_le hpos.append_left fun t ht => hcross t ht s mem_cons_self
      have hq : s.slope * (total (s :: rest)).width ≤ (total (s :: rest)).rise := by
        refine le_rise hpos.append_right fun t ht => ?_
        rcases mem_cons.mp ht with rfl | ht
        · exact le_rfl
        · exact (pairwise_cons.mp hrest).1 t ht
      have hpw := width_nonneg hpos.append_left
      have hqw := width_nonneg hpos.append_right
      calc (total p).rise * (total (s :: rest)).width
          ≤ s.slope * (total p).width * (total (s :: rest)).width :=
            mul_le_mul_of_nonneg_right hp hqw
        _ = s.slope * (total (s :: rest)).width * (total p).width := by ring
        _ ≤ (total (s :: rest)).rise * (total p).width := mul_le_mul_of_nonneg_right hq hpw

end Segments

section Pooling

variable {K : Type u} [Field K]

/-- Every segment of a group gets the slope of the group. -/
def level (g : List (Segment K)) : List (Segment K) :=
  g.map fun s => ⟨s.width, (total g).slope * s.width⟩

@[simp] theorem map_width_level (g : List (Segment K)) : (level g).map width = g.map width := by
  simp [level, Function.comp_def]

@[simp] theorem length_level (g : List (Segment K)) : (level g).length = g.length := by
  simp [level]

/-- The start of a levelled group. -/
theorem rise_take_level (g : List (Segment K)) (n : ℕ) :
    (total ((level g).take n)).rise = (total g).slope * (total (g.take n)).width := by
  unfold level
  rw [← map_take]
  unfold total
  dsimp only
  rw [map_map, ← sum_map_mul_left]
  rfl

/-- The heights at the points of the grid. -/
def heights (a : K) : List (Segment K) → List K
  | [] => [a]
  | s :: segs => a :: heights (a + s.rise) segs

theorem length_heights (a : K) (segs : List (Segment K)) :
    (heights a segs).length = segs.length + 1 := by
  induction segs generalizing a with
  | nil => rfl
  | cons s segs ih => rw [heights, length_cons, ih, length_cons]

theorem heights_eq_scanl (a : K) (segs : List (Segment K)) :
    heights a segs = (segs.map rise).scanl (· + ·) a := by
  induction segs generalizing a with
  | nil => rfl
  | cons s segs ih => rw [heights, map_cons, scanl_cons, ih]

theorem getLast?_heights (a : K) (segs : List (Segment K)) :
    (heights a segs).getLast? = some (a + (total segs).rise) := by
  induction segs generalizing a with
  | nil => simp [heights]
  | cons s segs ih =>
      have hne : heights (a + s.rise) segs ≠ [] := by
        cases segs <;> simp [heights]
      rw [heights, getLast?_cons_of_ne_nil hne, ih, rise_total_cons, add_assoc]

theorem width_total_of_map {ks segs : List (Segment K)} (h : ks.map width = segs.map width) :
    (total ks).width = (total segs).width :=
  congrArg List.sum h

omit [Field K] in
theorem map_width_take {ks segs : List (Segment K)} (h : ks.map width = segs.map width) (n : ℕ) :
    (ks.take n).map width = (segs.take n).map width := by
  rw [map_take, map_take, h]

variable [LinearOrder K]

/-- The last group is joined with the ones before it while their slopes fall.  The last group
stands first. -/
def push (g : List (Segment K)) : List (List (Segment K)) → List (List (Segment K))
  | [] => [g]
  | before :: groups =>
      if (total before).slope ≤ (total g).slope then g :: before :: groups
      else push (before ++ g) groups

/-- The groups of neighbours that are pooled, the last one first. -/
def groups (segs : List (Segment K)) : List (List (Segment K)) :=
  segs.foldl (fun gs s => push [s] gs) []

def pooled (segs : List (Segment K)) : List (Segment K) :=
  (groups segs).reverse.flatMap level

def AboveChord (g : List (Segment K)) : Prop :=
  ∀ p q, g = p ++ q → (total g).slope * (total p).width ≤ (total p).rise

/-- What the stack of groups keeps. -/
structure Stack (gs : List (List (Segment K))) (segs : List (Segment K)) : Prop where
  flatten : gs.reverse.flatten = segs
  nonempty : ∀ g ∈ gs, g ≠ []
  above : ∀ g ∈ gs, AboveChord g
  sorted : gs.Pairwise fun later earlier => (total earlier).slope ≤ (total later).slope

theorem aboveChord_singleton {s : Segment K} (h : 0 < s.width) : AboveChord [s] := by
  intro p q hsplit
  rcases append_eq_singleton_iff.mp hsplit.symm with ⟨rfl, -⟩ | ⟨rfl, -⟩
  · simp
  · have hone : total [s] = s := by simp [total]
    rw [hone, slope_mul_width h.ne']

variable [IsStrictOrderedRing K] {segs g before : List (Segment K)}
  {gs : List (List (Segment K))}

/-- Two groups whose slopes fall stay above their common chord. -/
theorem AboveChord.append (hpos : Increasing (before ++ g)) (hb : before ≠ []) (hg : g ≠ [])
    (habove : AboveChord before) (habove' : AboveChord g)
    (hfall : (total g).slope < (total before).slope) : AboveChord (before ++ g) := by
  have hw := width_pos hpos.append_left hb
  have hw' := width_pos hpos.append_right hg
  have hrise := slope_mul_width hw.ne'
  have hrise' := slope_mul_width hw'.ne'
  have hjoint : (total (before ++ g)).slope * ((total before).width + (total g).width) =
      (total before).rise + (total g).rise := by
    rw [← width_total_append, ← rise_total_append]
    refine slope_mul_width ?_
    rw [width_total_append]
    exact (add_pos hw hw').ne'
  -- the slope of the whole lies between those of the groups
  have hlow : (total g).slope ≤ (total (before ++ g)).slope := by
    by_contra hnot
    rw [not_le] at hnot
    have h1 := mul_lt_mul_of_pos_right (hnot.trans hfall) hw
    have h2 := mul_lt_mul_of_pos_right hnot hw'
    linarith
  have hhigh : (total (before ++ g)).slope ≤ (total before).slope := by
    by_contra hnot
    rw [not_le] at hnot
    have h1 := mul_lt_mul_of_pos_right hnot hw
    have h2 := mul_lt_mul_of_pos_right (hfall.trans hnot) hw'
    linarith
  intro p q hsplit
  rcases append_eq_append_iff.mp hsplit with ⟨c, rfl, hc⟩ | ⟨c, rfl, hc⟩
  · -- the start reaches into the second group
    have hstart := habove' c q hc
    have hpc : Increasing c := by
      rw [hc] at hpos
      exact hpos.append_right.append_left
    have hpq : Increasing q := by
      rw [hc] at hpos
      exact hpos.append_right.append_right
    have hwidth : (total g).width = (total c).width + (total q).width := by
      rw [hc, width_total_append]
    have hcw := width_nonneg hpc
    have hqw := width_nonneg hpq
    rw [width_total_append, rise_total_append]
    have hrest := mul_le_mul_of_nonneg_right hlow hqw
    rw [hwidth] at hrise' hjoint
    nlinarith
  · -- the start ends in the first group
    have hwidth := width_nonneg hpos.append_left.append_left
    exact (mul_le_mul_of_nonneg_right hhigh hwidth).trans (habove p c rfl)

/-- The step: a group on top of the stack. -/
theorem Stack.push {before' : List (Segment K)} (h : Stack gs before')
    (hpos : Increasing (before' ++ g)) (hg : g ≠ []) (habove : AboveChord g) :
    Stack (push g gs) (before' ++ g) := by
  induction gs generalizing g before' with
  | nil =>
      have hnil : before' = [] := h.flatten.symm
      subst hnil
      exact ⟨by simp [Segment.push], by simpa [Segment.push] using hg,
        by simpa [Segment.push] using habove, by simp [Segment.push]⟩
  | cons last gs ih =>
      have hsplit : gs.reverse.flatten ++ last = before' := by
        rw [← h.flatten]
        simp
      have hrest : Stack gs gs.reverse.flatten :=
        ⟨rfl, fun k hk => h.nonempty k (mem_cons_of_mem _ hk),
          fun k hk => h.above k (mem_cons_of_mem _ hk), (pairwise_cons.mp h.sorted).2⟩
      have hlast := h.nonempty last mem_cons_self
      have hlast' := h.above last mem_cons_self
      unfold Segment.push
      split_ifs with hle
      · refine ⟨?_, ?_, ?_, ?_⟩
        · rw [reverse_cons, flatten_append, h.flatten]
          simp
        · rintro k (_ | ⟨_, hk⟩)
          · exact hg
          · exact h.nonempty k hk
        · rintro k (_ | ⟨_, hk⟩)
          · exact habove
          · exact h.above k hk
        · refine pairwise_cons.mpr ⟨fun k hk => ?_, h.sorted⟩
          rcases mem_cons.mp hk with rfl | hk
          · exact hle
          · exact ((pairwise_cons.mp h.sorted).1 k hk).trans hle
      · rw [← hsplit, append_assoc] at hpos ⊢
        refine ih hrest hpos (by simp [hg]) ?_
        exact AboveChord.append hpos.append_right hlast hg hlast' habove (not_le.mp hle)

/-- The run: the stack after all segments. -/
theorem stack_groups (h : Increasing segs) : Stack (groups segs) segs := by
  induction segs using List.reverseRecOn with
  | nil => exact ⟨rfl, by simp [groups], by simp [groups], by simp [groups]⟩
  | append_singleton segs s ih =>
      have hstep : groups (segs ++ [s]) = Segment.push [s] (groups segs) := by
        unfold groups
        rw [foldl_append]
        rfl
      rw [hstep]
      have hs := h s (by simp)
      exact (ih h.append_left).push h (by simp) (aboveChord_singleton hs)

end Pooling

section Minorant

variable {K : Type u} [Field K] [LinearOrder K] {segs ks g p : List (Segment K)}
  {gs : List (List (Segment K))} {a b : K}

theorem map_width_pooled (h : (groups segs).reverse.flatten = segs) :
    (pooled segs).map width = segs.map width := by
  conv_rhs => rw [← h]
  unfold pooled
  rw [map_flatMap, map_flatten, flatMap_def]
  simp only [map_width_level]

variable [IsStrictOrderedRing K]

theorem rise_total_level (h : Increasing g) (hne : g ≠ []) :
    (total (level g)).rise = (total g).rise := by
  have htake := rise_take_level g g.length
  rw [← length_level, take_length, length_level, take_length] at htake
  rw [htake, slope_mul_width (width_pos h hne).ne']

/-- Groups above their chords are nowhere below them. -/
theorem rise_level_le (gs : List (List (Segment K))) (habove : ∀ g ∈ gs, AboveChord g) (n : ℕ) :
    (total ((gs.flatMap level).take n)).rise ≤ (total (gs.flatten.take n)).rise := by
  induction gs generalizing n with
  | nil => simp
  | cons g gs ih =>
      rw [flatMap_cons, flatten_cons, take_append, take_append,
        rise_total_append, rise_total_append, length_level, rise_take_level]
      refine add_le_add ?_ (ih (fun k hk => habove k (mem_cons_of_mem _ hk)) _)
      exact habove g mem_cons_self _ _ (take_append_drop n g).symm

/-- Where the slopes do not fall, the start of a group is below the chord of the whole. -/
theorem Sorted.take_below (hsorted : Sorted ks) (hpos : Increasing ks) (n : ℕ) :
    (total (ks.take n)).rise * (total ks).width ≤ (total ks).rise * (total (ks.take n)).width := by
  have hsplit := take_append_drop n ks
  have hstart := Sorted.start_below (p := ks.take n) (q := ks.drop n)
    (hsplit.symm ▸ hsorted) (hsplit.symm ▸ hpos)
  have hwidth : (total ks).width = (total (ks.take n)).width + (total (ks.drop n)).width := by
    rw [← width_total_append, hsplit]
  have hrise : (total ks).rise = (total (ks.take n)).rise + (total (ks.drop n)).rise := by
    rw [← rise_total_append, hsplit]
  rw [hwidth, hrise, mul_add, add_mul]
  linarith

/-- Inside a group: what does not fall and is below its ends is below its chord. -/
theorem below_level (hpos : Increasing g) (hne : g ≠ []) (hwidth : ks.map width = g.map width)
    (hsorted : Sorted ks) (hstart : a ≤ b) (hend : a + (total ks).rise ≤ b + (total g).rise)
    (n : ℕ) : a + (total (ks.take n)).rise ≤ b + (total ((level g).take n)).rise := by
  have hks : Increasing ks := by
    intro s hs
    have hmem : s.width ∈ g.map width := hwidth ▸ mem_map_of_mem hs
    obtain ⟨t, ht, heq⟩ := mem_map.mp hmem
    exact heq ▸ hpos t ht
  have hW := width_pos hpos hne
  have hchord := hsorted.take_below hks n
  have hrise := slope_mul_width hW.ne'
  have hpart : Increasing (g.take n) := fun s hs => hpos s (mem_of_mem_take hs)
  have hrest : Increasing (g.drop n) := fun s hs => hpos s (mem_of_mem_drop hs)
  have hsum : (total g).width = (total (g.take n)).width + (total (g.drop n)).width := by
    rw [← width_total_append, take_append_drop]
  rw [width_total_of_map hwidth, width_total_of_map (map_width_take hwidth n)] at hchord
  rw [rise_take_level]
  have hw := width_nonneg hpart
  have hw' := width_nonneg hrest
  refine le_of_mul_le_mul_right ?_ hW
  calc (a + (total (ks.take n)).rise) * (total g).width
      ≤ a * (total g).width + (total ks).rise * (total (g.take n)).width := by
        rw [add_mul]
        linarith
    _ = a * (total (g.drop n)).width + (a + (total ks).rise) * (total (g.take n)).width := by
        rw [hsum]
        ring
    _ ≤ b * (total (g.drop n)).width + (b + (total g).rise) * (total (g.take n)).width :=
        add_le_add (mul_le_mul_of_nonneg_right hstart hw') (mul_le_mul_of_nonneg_right hend hw)
    _ = (b + (total g).slope * (total (g.take n)).width) * (total g).width := by
        rw [← hrise, hsum]
        ring

/-- What does not fall and is below the input is below the levelled groups. -/
theorem le_level (hpos : Increasing gs.flatten) (hne : ∀ g ∈ gs, g ≠ [])
    (hwidth : ks.map width = gs.flatten.map width) (hsorted : Sorted ks)
    (hbelow : ∀ n, a + (total (ks.take n)).rise ≤ b + (total (gs.flatten.take n)).rise)
    (n : ℕ) : a + (total (ks.take n)).rise ≤ b + (total ((gs.flatMap level).take n)).rise := by
  induction gs generalizing ks a b n with
  | nil => exact hbelow n
  | cons g gs ih =>
      rw [flatten_cons] at hpos hwidth hbelow
      have hsplit := take_append_drop g.length ks
      have hlength : (ks.take g.length).length = g.length := by
        have := congrArg List.length hwidth
        simp only [length_map, length_append] at this
        rw [length_take]
        omega
      have hfirst : (ks.take g.length).map width = g.map width := by
        rw [map_take, hwidth, map_append, take_append]
        simp
      have hlater : (ks.drop g.length).map width = gs.flatten.map width := by
        rw [map_drop, hwidth, map_append, drop_append]
        simp
      have hpos' := hpos.append_left
      have hg := hne g mem_cons_self
      have hsorted' : Sorted (ks.take g.length ++ ks.drop g.length) := hsplit.symm ▸ hsorted
      obtain ⟨hs1, hs2, -⟩ := pairwise_append.mp hsorted'
      have hstart : a ≤ b := by simpa using hbelow 0
      have hend : a + (total (ks.take g.length)).rise ≤ b + (total g).rise := by
        have := hbelow g.length
        rw [take_append, take_length, Nat.sub_self, take_zero, append_nil] at this
        exact this
      have htake : ∀ m, ks.take m =
          (ks.take g.length).take m ++ (ks.drop g.length).take (m - g.length) := by
        intro m
        conv_lhs => rw [← hsplit]
        rw [take_append, hlength]
      rw [flatMap_cons, htake, take_append, length_level, rise_total_append,
        rise_total_append, ← add_assoc, ← add_assoc]
      by_cases hn : n ≤ g.length
      · rw [Nat.sub_eq_zero_of_le hn, take_zero, take_zero]
        simpa using below_level hpos' hg hfirst hs1 hstart hend n
      · have hall : (ks.take g.length).take n = ks.take g.length :=
          take_of_length_le (by omega)
        have hall' : (level g).take n = level g :=
          take_of_length_le (by rw [length_level]; omega)
        rw [hall, hall', rise_total_level hpos' hg]
        refine ih hpos.append_right (fun k hk => hne k (mem_cons_of_mem _ hk)) hlater hs2
          (fun m => ?_) _
        have hwhole : (ks.take g.length).take (g.length + m) = ks.take g.length :=
          take_of_length_le (by omega)
        have hle := hbelow (g.length + m)
        rw [htake, take_append, rise_total_append, rise_total_append, ← add_assoc,
          ← add_assoc, Nat.add_sub_cancel_left, hwhole,
          take_of_length_le (Nat.le_add_right g.length m)] at hle
        exact hle

/-- The heights are ordered exactly when all starts are. -/
theorem forall₂_heights_iff (hlength : ks.length = segs.length) :
    List.Forall₂ (· ≤ ·) (heights a ks) (heights b segs) ↔
      ∀ n, a + (total (ks.take n)).rise ≤ b + (total (segs.take n)).rise := by
  induction ks generalizing segs a b with
  | nil =>
      obtain rfl := length_eq_zero_iff.mp hlength.symm
      simp [heights]
  | cons k ks ih =>
      cases segs with
      | nil => cases hlength
      | cons s segs =>
          have hrest := ih (a := a + k.rise) (b := b + s.rise) (Nat.succ.inj hlength)
          rw [heights, heights, forall₂_cons, hrest]
          constructor
          · rintro ⟨hstart, hlater⟩ (_ | n)
            · simpa using hstart
            · have := hlater n
              rw [take_succ_cons, take_succ_cons, rise_total_cons, rise_total_cons]
              linarith
          · intro h
            refine ⟨by simpa using h 0, fun n => ?_⟩
            have := h (n + 1)
            rw [take_succ_cons, take_succ_cons, rise_total_cons, rise_total_cons] at this
            linarith

section Results

variable (h : Increasing segs)

include h

theorem pooled_width : (pooled segs).map width = segs.map width :=
  map_width_pooled (stack_groups h).flatten

/-- The result is nowhere above the input. -/
theorem pooled_below (a : K) : List.Forall₂ (· ≤ ·) (heights a (pooled segs)) (heights a segs) := by
  have hstack := stack_groups h
  have hlength : (pooled segs).length = segs.length := by
    have := congrArg List.length (pooled_width h)
    simpa using this
  rw [forall₂_heights_iff hlength]
  intro n
  have hle := rise_level_le (groups segs).reverse (fun g hg => hstack.above g (mem_reverse.mp hg)) n
  rw [hstack.flatten] at hle
  exact add_le_add_right hle a

/-- The result ends where the input does. -/
theorem pooled_total : (total (pooled segs)).rise = (total segs).rise := by
  have hstack := stack_groups h
  have hsum : ∀ gs : List (List (Segment K)), Increasing gs.flatten → (∀ g ∈ gs, g ≠ []) →
      (total (gs.flatMap level)).rise = (total gs.flatten).rise := by
    intro gs hpos hne
    induction gs with
    | nil => rfl
    | cons g gs ih =>
        rw [flatten_cons] at hpos
        rw [flatMap_cons, flatten_cons, rise_total_append, rise_total_append,
          rise_total_level hpos.append_left (hne g mem_cons_self),
          ih hpos.append_right fun k hk => hne k (mem_cons_of_mem _ hk)]
  have hall := hsum (groups segs).reverse (hstack.flatten.symm ▸ h)
    (fun g hg => hstack.nonempty g (mem_reverse.mp hg))
  rw [hstack.flatten] at hall
  exact hall

/-- The slopes of the result do not fall. -/
theorem pooled_sorted : Sorted (pooled segs) := by
  have hstack := stack_groups h
  have hslope : ∀ g ∈ groups segs, ∀ s ∈ level g, s.slope = (total g).slope := by
    intro g hg s hs
    obtain ⟨t, ht, rfl⟩ := mem_map.mp hs
    have hmem : t ∈ segs := by
      rw [← hstack.flatten]
      exact mem_flatten.mpr ⟨g, mem_reverse.mpr hg, ht⟩
    exact mul_div_cancel_right₀ _ (h t hmem).ne'
  unfold pooled Sorted
  rw [pairwise_flatMap]
  refine ⟨fun g hg => ?_, ?_⟩
  · have hg' := mem_reverse.mp hg
    refine pairwise_of_forall_mem_list fun s hs t ht => ?_
    rw [hslope g hg' s hs, hslope g hg' t ht]
  · rw [pairwise_reverse]
    refine hstack.sorted.imp_of_mem fun hlater hearlier hle s hs t ht => ?_
    rw [hslope _ hearlier s hs, hslope _ hlater t ht]
    exact hle

/-- Nothing that does not fall and is below the input is above the result. -/
theorem pooled_greatest (hwidth : ks.map width = segs.map width) (hsorted : Sorted ks)
    (hbelow : List.Forall₂ (· ≤ ·) (heights a ks) (heights b segs)) :
    List.Forall₂ (· ≤ ·) (heights a ks) (heights b (pooled segs)) := by
  have hstack := stack_groups h
  have hlength : ks.length = segs.length := by
    simpa using congrArg List.length hwidth
  have hlength' : ks.length = (pooled segs).length := by
    simpa using congrArg List.length (hwidth.trans (pooled_width h).symm)
  rw [forall₂_heights_iff hlength] at hbelow
  rw [forall₂_heights_iff hlength']
  refine le_level (hstack.flatten.symm ▸ h)
    (fun g hg => hstack.nonempty g (mem_reverse.mp hg)) ?_ hsorted ?_
  · rw [hstack.flatten]
    exact hwidth
  · rw [hstack.flatten]
    exact hbelow

/-- Segments whose slopes do not fall stay as they are. -/
theorem pooled_of_sorted (hsorted : Sorted segs) : pooled segs = segs := by
  have hwidth := pooled_width h
  have hlength : (pooled segs).length = segs.length := by
    simpa using congrArg List.length hwidth
  have hbelow := (forall₂_heights_iff hlength).mp (pooled_below h 0)
  have habove := (forall₂_heights_iff hlength.symm).mp
    (pooled_greatest h rfl hsorted (forall₂_refl (heights 0 segs)))
  have hrise : ∀ n, (total ((pooled segs).take n)).rise = (total (segs.take n)).rise := by
    intro n
    have h1 := hbelow n
    have h2 := habove n
    linarith
  have heq : ∀ ks ls : List (Segment K), ks.map width = ls.map width →
      (∀ n, (total (ks.take n)).rise = (total (ls.take n)).rise) → ks = ls := by
    intro ks
    induction ks with
    | nil =>
        intro ls hw _
        exact (map_eq_nil_iff.mp hw.symm).symm
    | cons k ks ih =>
        intro ls hw hr
        cases ls with
        | nil => cases hw
        | cons l ls =>
            obtain ⟨hkl, hrest⟩ := List.cons.inj hw
            have hone : k.rise = l.rise := by simpa using hr 1
            have hlater := ih ls hrest fun n => by
              have := hr (n + 1)
              rw [take_succ_cons, take_succ_cons, rise_total_cons, rise_total_cons, hone] at this
              exact add_left_cancel this
            rw [hlater]
            cases k
            cases l
            simp_all
  exact heq _ _ hwidth hrise

end Results

end Minorant

end Segment

end Lib
end ContExchange
