import ContExchange.Common.DecimalOrder
import ContExchange.Lib.ConvexMinorant
import ContExchange.Venues.DepthCurveBuilder

/-!
# Venues: convexification in exact numbers

`ConvexifyCostLayerImpl` with its doubles read as rational numbers and without the rounding at
the end: the costs of the points in a window of quantities are replaced by those of the pooled
slopes.

* `blocks_eq_groups`: the blocks of the loop are the groups of `Lib.ConvexMinorant`;
* `convexify_eq`: the window keeps its grid and gets the pooled segments;
* `convexify_minorant`: the result is the greatest convex function below the input.
-/

namespace ContExchange
namespace Venues
namespace Exact

open Common Lib
open List hiding any_eq_true map_map

/-- `SOfQPoint` with a cost that is not rounded. -/
structure CostPoint where
  qty : Decimal
  cost : ℚ
deriving DecidableEq

def costPoint (p : SOfQPoint) : CostPoint :=
  ⟨p.qty, p.cumulativeCost.toRat⟩

structure ConvexificationConfig where
  qMin : Option Decimal := none
  qMax : Option Decimal := none

/-- The search from the start in `SelectConvexRange`. -/
def rangeBegin (qMin : Option Decimal) (sOfQ : List CostPoint) : Option ℕ :=
  match qMin with
  | none => some 0
  | some q => sOfQ.findIdx? (fun p => decide (Decimal.cmp p.qty q ≥ 0))

/-- The search from the end in `SelectConvexRange`. -/
def rangeEnd (qMax : Option Decimal) (sOfQ : List CostPoint) : Option ℕ :=
  match qMax with
  | none => some (sOfQ.length - 1)
  | some q =>
      (sOfQ.reverse.findIdx? (fun p => decide (Decimal.cmp p.qty q ≤ 0))).map
        (fun i => sOfQ.length - 1 - i)

/-- `SelectConvexRange`: the first and the last place. -/
def selectConvexRange (sOfQ : List CostPoint) (config : ConvexificationConfig) :
    Option (ℕ × ℕ) :=
  if sOfQ.length < 2 then none
  else
    match rangeBegin config.qMin sOfQ, rangeEnd config.qMax sOfQ with
    | some first, some last => if last ≤ first then none else some (first, last)
    | _, _ => none

/-- A block of `ConvexifySlopesPav`: how many slopes it pools, and their sums. -/
structure PavBlock where
  count : ℕ
  weightSum : ℚ
  weightedSlopeSum : ℚ

def PavBlock.mean (b : PavBlock) : ℚ :=
  b.weightedSlopeSum / b.weightSum

/-- The inner loop of `ConvexifySlopesPav`; the last block stands first. -/
def pavPush (b : PavBlock) : List PavBlock → List PavBlock
  | [] => [b]
  | before :: blocks =>
      if before.mean ≤ b.mean then b :: before :: blocks
      else
        pavPush
          { count := before.count + b.count
            weightSum := before.weightSum + b.weightSum
            weightedSlopeSum := before.weightedSlopeSum + b.weightedSlopeSum }
          blocks

def convexifySlopesPav (slopes weights : List ℚ) : List ℚ :=
  let blocks := (slopes.zip weights).foldl (fun blocks (slope, weight) =>
    pavPush { count := 1, weightSum := weight, weightedSlopeSum := weight * slope } blocks) []
  blocks.reverse.flatMap fun b => List.replicate b.count b.mean

def differences : List ℚ → List ℚ
  | v :: w :: rest => (w - v) :: differences (w :: rest)
  | _ => []

/-- The costs of `ConvexifyCostLayerImpl` inside the range, before they are rounded. -/
def convexCosts (inside : List CostPoint) : List ℚ :=
  let h := differences (inside.map fun p => p.qty.toRat)
  let y := inside.map CostPoint.cost
  let slopes := List.zipWith (· / ·) (differences y) h
  (List.zipWith (· * ·) (convexifySlopesPav slopes h) h).scanl (· + ·) (y.headD 0)

def convexifyCostLayerImpl (sOfQ : List CostPoint) (config : ConvexificationConfig) :
    List CostPoint :=
  if sOfQ.length < 3 then sOfQ
  else
    match selectConvexRange sOfQ config with
    | none => sOfQ
    | some (first, last) =>
        let pointCount := last - first + 1
        let inside := (sOfQ.drop first).take pointCount
        if pointCount < 3 then sOfQ
        else if (differences (inside.map fun p => p.qty.toRat)).any (fun h => decide (h ≤ 0)) then
          sOfQ
        else
          sOfQ.take first ++
            List.zipWith (fun p cost => { p with cost }) inside (convexCosts inside) ++
            sOfQ.drop (last + 1)

/-- The segments between neighbouring points. -/
def segments : List CostPoint → List (Segment ℚ)
  | p :: q :: rest =>
      ⟨q.qty.toRat - p.qty.toRat, q.cost - p.cost⟩ :: segments (q :: rest)
  | _ => []

/-- The points of a grid with the heights of segments. -/
def withHeights (points : List CostPoint) (a : ℚ) (segs : List (Segment ℚ)) : List CostPoint :=
  List.zipWith (fun p cost => { p with cost }) points (Segment.heights a segs)

/-- The slopes between neighbouring points do not fall. -/
def ConvexOnGrid (points : List CostPoint) : Prop :=
  Segment.Sorted (segments points)

def Increasing (points : List CostPoint) : Prop :=
  points.Pairwise fun p q => p.qty.toRat < q.qty.toRat

section Points

variable {points : List CostPoint} {p q : CostPoint} {a : ℚ} {segs : List (Segment ℚ)}

theorem length_segments (points : List CostPoint) :
    (segments points).length = points.length - 1 := by
  induction points with
  | nil => rfl
  | cons p points ih =>
      cases points with
      | nil => rfl
      | cons q rest =>
          simp only [segments, length_cons] at ih ⊢
          omega

theorem increasing_congr {other : List CostPoint}
    (h : other.map CostPoint.qty = points.map CostPoint.qty) (hpoints : Increasing points) :
    Increasing other := by
  have hmap : (points.map fun p => p.qty.toRat).Pairwise (· < ·) := pairwise_map.mpr hpoints
  have hsame : other.map (fun p => p.qty.toRat) = points.map fun p => p.qty.toRat := by
    have := congrArg (List.map Decimal.toRat) h
    rwa [List.map_map, List.map_map] at this
  rw [← hsame] at hmap
  exact pairwise_map.mp hmap

theorem segments_increasing (h : Increasing points) : Segment.Increasing (segments points) := by
  induction points with
  | nil => exact fun s hs => by cases hs
  | cons p points ih =>
      cases points with
      | nil => exact fun s hs => by cases hs
      | cons q rest =>
          intro s hs
          rcases mem_cons.mp hs with rfl | hs
          · exact sub_pos.mpr ((pairwise_cons.mp h).1 q mem_cons_self)
          · exact ih (pairwise_cons.mp h).2 s hs

theorem heights_segments (p : CostPoint) (points : List CostPoint) :
    Segment.heights p.cost (segments (p :: points)) = (p :: points).map CostPoint.cost := by
  induction points generalizing p with
  | nil => rfl
  | cons q rest ih =>
      have hcost : p.cost + (q.cost - p.cost) = q.cost := by ring
      rw [segments, Segment.heights, hcost, ih]
      rfl

theorem map_width_segments (h : points.map CostPoint.qty = segs'.map CostPoint.qty) :
    (segments points).map Segment.width = (segments segs').map Segment.width := by
  induction points generalizing segs' with
  | nil =>
      rw [map_nil, eq_comm, map_eq_nil_iff] at h
      rw [h]
  | cons p points ih =>
      cases segs' with
      | nil => cases h
      | cons p' points' =>
          obtain ⟨hp, hrest⟩ := List.cons.inj h
          cases points with
          | nil =>
              rw [map_nil, eq_comm, map_eq_nil_iff] at hrest
              rw [hrest]
              rfl
          | cons q rest =>
              cases points' with
              | nil => cases hrest
              | cons q' rest' =>
                  have hq := (List.cons.inj hrest).1
                  have hlater := ih hrest
                  rw [segments, segments, map_cons, map_cons, hlater, hp, hq]

theorem segments_withHeights (p : CostPoint) (points : List CostPoint) (a : ℚ)
    (h : segs.map Segment.width = (segments (p :: points)).map Segment.width) :
    segments (withHeights (p :: points) a segs) = segs := by
  induction points generalizing p a segs with
  | nil =>
      have hnil : segs = [] := by simpa [segments] using h
      subst hnil
      rfl
  | cons q rest ih =>
      cases segs with
      | nil => cases h
      | cons s segs =>
          obtain ⟨hs, hsegs⟩ := List.cons.inj h
          have hlater := ih q (a + s.rise) hsegs
          obtain ⟨rest', hhead⟩ : ∃ rest', withHeights (q :: rest) (a + s.rise) segs =
              { q with cost := a + s.rise } :: rest' := by
            cases segs <;> exact ⟨_, rfl⟩
          have hcons : withHeights (p :: q :: rest) a (s :: segs) =
              { p with cost := a } :: withHeights (q :: rest) (a + s.rise) segs := rfl
          rw [hcons, hhead, segments, ← hhead]
          cases s with
          | mk width rise =>
              have hwidth : width = q.qty.toRat - p.qty.toRat := hs
              rw [hwidth]
              congr 2
              ring

theorem map_zipWith_cost (points : List CostPoint) (costs : List ℚ)
    (h : points.length = costs.length) :
    (List.zipWith (fun p cost => { p with cost }) points costs : List CostPoint).map
        CostPoint.qty = points.map CostPoint.qty ∧
      (List.zipWith (fun p cost => { p with cost }) points costs : List CostPoint).map
        CostPoint.cost = costs := by
  induction points generalizing costs with
  | nil =>
      obtain rfl := length_eq_zero_iff.mp h.symm
      exact ⟨rfl, rfl⟩
  | cons p points ih =>
      cases costs with
      | nil => cases h
      | cons cost costs =>
          obtain ⟨hqty, hcost⟩ := ih costs (Nat.succ.inj h)
          exact ⟨congrArg (p.qty :: ·) hqty, congrArg (cost :: ·) hcost⟩

theorem differences_qty (points : List CostPoint) :
    differences (points.map fun p => p.qty.toRat) = (segments points).map Segment.width := by
  induction points with
  | nil => rfl
  | cons p points ih =>
      cases points with
      | nil => rfl
      | cons q rest => exact congrArg (_ :: ·) ih

theorem differences_cost (points : List CostPoint) :
    differences (points.map CostPoint.cost) = (segments points).map Segment.rise := by
  induction points with
  | nil => rfl
  | cons p points ih =>
      cases points with
      | nil => rfl
      | cons q rest => exact congrArg (_ :: ·) ih

end Points

/-- The block that stands for a group. -/
def blockOf (g : List (Segment ℚ)) : PavBlock :=
  ⟨g.length, (Segment.total g).width, (Segment.total g).rise⟩

section Blocks

variable {segs : List (Segment ℚ)}

theorem pavPush_blockOf (g : List (Segment ℚ)) (gs : List (List (Segment ℚ))) :
    pavPush (blockOf g) (gs.map blockOf) = (Segment.push g gs).map blockOf := by
  induction gs generalizing g with
  | nil => rfl
  | cons before gs ih =>
      have hjoint : blockOf (before ++ g) =
          { count := (blockOf before).count + (blockOf g).count
            weightSum := (blockOf before).weightSum + (blockOf g).weightSum
            weightedSlopeSum :=
              (blockOf before).weightedSlopeSum + (blockOf g).weightedSlopeSum } := by
        simp [blockOf]
      have hmean : ∀ k, (blockOf k).mean = (Segment.total k).slope := fun _ => rfl
      rw [map_cons, pavPush, Segment.push, hmean, hmean, ← hjoint, ih]
      split_ifs <;> rfl

theorem blocks_eq_groups (h : Segment.Increasing segs) :
    ((segs.map Segment.slope).zip (segs.map Segment.width)).foldl
        (fun blocks (slope, weight) =>
          pavPush { count := 1, weightSum := weight, weightedSlopeSum := weight * slope } blocks)
        [] =
      (Segment.groups segs).map blockOf := by
  have hrun : ∀ gs : List (List (Segment ℚ)),
      ((segs.map Segment.slope).zip (segs.map Segment.width)).foldl
          (fun blocks (slope, weight) =>
            pavPush { count := 1, weightSum := weight, weightedSlopeSum := weight * slope } blocks)
          (gs.map blockOf) =
        (segs.foldl (fun gs s => Segment.push [s] gs) gs).map blockOf := by
    induction segs with
    | nil => exact fun _ => rfl
    | cons s segs ih =>
        intro gs
        have hs := h s mem_cons_self
        have hone : ({ count := 1, weightSum := s.width, weightedSlopeSum := s.width * s.slope } :
            PavBlock) = blockOf [s] := by
          rw [mul_comm, Segment.slope_mul_width hs.ne']
          simp [blockOf, Segment.total]
        rw [map_cons, map_cons, zip_cons_cons, foldl_cons, foldl_cons,
          ← ih (fun t ht => h t (mem_cons_of_mem _ ht))]
        dsimp only
        rw [hone, pavPush_blockOf]
  exact hrun []

theorem rises_of_blocks (h : Segment.Increasing segs) :
    List.zipWith (· * ·)
        (convexifySlopesPav (segs.map Segment.slope) (segs.map Segment.width))
        (segs.map Segment.width) =
      (Segment.pooled segs).map Segment.rise := by
  have hgroups : ∀ gs : List (List (Segment ℚ)),
      List.zipWith (· * ·) ((gs.map blockOf).flatMap fun b => List.replicate b.count b.mean)
          (gs.flatten.map Segment.width) =
        (gs.flatMap Segment.level).map Segment.rise := by
    intro gs
    induction gs with
    | nil => rfl
    | cons g gs ih =>
        have hlength : (List.replicate (blockOf g).count (blockOf g).mean).length =
            (g.map Segment.width).length := by
          simp [blockOf]
        have hgroup : List.zipWith (· * ·)
            (List.replicate (blockOf g).count (blockOf g).mean) (g.map Segment.width) =
              (Segment.level g).map Segment.rise := by
          have hmap : ∀ (k : List (Segment ℚ)) (m : ℚ),
              List.zipWith (· * ·) (List.replicate k.length m) (k.map Segment.width) =
                k.map fun s => m * s.width := by
            intro k m
            induction k with
            | nil => rfl
            | cons s k ih => exact congrArg (_ :: ·) ih
          rw [Segment.level, List.map_map]
          exact hmap g _
        rw [map_cons, flatMap_cons, flatten_cons, map_append,
          zipWith_append hlength, hgroup, ih, flatMap_cons, map_append]
  unfold convexifySlopesPav
  dsimp only
  rw [blocks_eq_groups h, ← map_reverse]
  have hall := hgroups (Segment.groups segs).reverse
  rw [(Segment.stack_groups h).flatten] at hall
  exact hall

end Blocks

def pooledPoints : List CostPoint → List CostPoint
  | [] => []
  | p :: points =>
      withHeights (p :: points) p.cost (Segment.pooled (segments (p :: points)))

/-- The result is convex on the same grid, nowhere above the points and equal at both ends, and
nothing else that is convex and nowhere above them is above it. -/
structure ConvexMinorant (points result : List CostPoint) : Prop where
  grid : result.map CostPoint.qty = points.map CostPoint.qty
  convex : ConvexOnGrid result
  below : List.Forall₂ (fun r p => r.cost ≤ p.cost) result points
  first : result.head?.map CostPoint.cost = points.head?.map CostPoint.cost
  last : result.getLast?.map CostPoint.cost = points.getLast?.map CostPoint.cost
  greatest : ∀ other, other.map CostPoint.qty = points.map CostPoint.qty →
    ConvexOnGrid other → List.Forall₂ (fun o p => o.cost ≤ p.cost) other points →
    List.Forall₂ (fun o r => o.cost ≤ r.cost) other result

section Pooled

variable {points other : List CostPoint} {p : CostPoint}

theorem forall₂_cost_iff {a b : List CostPoint} :
    List.Forall₂ (fun o p => o.cost ≤ p.cost) a b ↔
      List.Forall₂ (· ≤ ·) (a.map CostPoint.cost) (b.map CostPoint.cost) := by
  rw [forall₂_map_left_iff, forall₂_map_right_iff]

theorem pooledPoints_maps (h : Increasing (p :: points)) :
    (pooledPoints (p :: points)).map CostPoint.qty = (p :: points).map CostPoint.qty ∧
      (pooledPoints (p :: points)).map CostPoint.cost =
        Segment.heights p.cost (Segment.pooled (segments (p :: points))) ∧
      segments (pooledPoints (p :: points)) = Segment.pooled (segments (p :: points)) := by
  have hwidth := Segment.pooled_width (segments_increasing h)
  have hlength : (p :: points).length =
      (Segment.heights p.cost (Segment.pooled (segments (p :: points)))).length := by
    have hcount := congrArg List.length hwidth
    rw [length_map, length_map, length_segments] at hcount
    rw [Segment.length_heights, hcount]
    rfl
  obtain ⟨hqty, hcost⟩ := map_zipWith_cost _ _ hlength
  exact ⟨hqty, hcost, segments_withHeights _ _ _ hwidth⟩

theorem pooledPoints_minorant (h : Increasing points) :
    ConvexMinorant points (pooledPoints points) := by
  cases points with
  | nil =>
      refine ⟨rfl, List.Pairwise.nil, List.Forall₂.nil, rfl, rfl, fun other hqty _ _ => ?_⟩
      rw [map_nil, map_eq_nil_iff] at hqty
      rw [hqty]
      exact List.Forall₂.nil
  | cons p points =>
      have hpos := segments_increasing h
      obtain ⟨hqty, hcost, hsegs⟩ := pooledPoints_maps h
      refine ⟨hqty, ?_, ?_, ?_, ?_, ?_⟩
      · unfold ConvexOnGrid
        rw [hsegs]
        exact Segment.pooled_sorted hpos
      · rw [forall₂_cost_iff, hcost, ← heights_segments]
        exact Segment.pooled_below hpos p.cost
      · rw [← head?_map, hcost]
        cases Segment.pooled (segments (p :: points)) <;> rfl
      · rw [← getLast?_map, ← getLast?_map, hcost, ← heights_segments,
          Segment.getLast?_heights, Segment.getLast?_heights, Segment.pooled_total hpos]
      · intro other hother hconvex hbelow
        cases other with
        | nil => cases hother
        | cons o other =>
            rw [forall₂_cost_iff, ← heights_segments, ← heights_segments] at hbelow
            rw [forall₂_cost_iff, hcost, ← heights_segments]
            exact Segment.pooled_greatest hpos (map_width_segments hother) hconvex hbelow

theorem pooledPoints_of_convex (h : Increasing points) (hconvex : ConvexOnGrid points) :
    pooledPoints points = points := by
  cases points with
  | nil => rfl
  | cons p points =>
      obtain ⟨hqty, hcost, -⟩ := pooledPoints_maps h
      rw [Segment.pooled_of_sorted (segments_increasing h) hconvex, heights_segments] at hcost
      have hpair : ∀ a b : List CostPoint, a.map CostPoint.qty = b.map CostPoint.qty →
          a.map CostPoint.cost = b.map CostPoint.cost → a = b := by
        intro a
        induction a with
        | nil =>
            intro b hq _
            exact (map_eq_nil_iff.mp hq.symm).symm
        | cons x a ih =>
            intro b hq hc
            cases b with
            | nil => cases hq
            | cons y b =>
                obtain ⟨hxq, hq⟩ := List.cons.inj hq
                obtain ⟨hxc, hc⟩ := List.cons.inj hc
                rw [ih b hq hc]
                cases x
                simp_all
      exact hpair _ _ hqty hcost

theorem convexOnGrid_of_short (h : points.length < 3) : ConvexOnGrid points := by
  unfold ConvexOnGrid Segment.Sorted
  have hlength := length_segments points
  rcases hsegs : segments points with _ | ⟨s, _ | ⟨t, rest⟩⟩
  · exact List.Pairwise.nil
  · exact pairwise_singleton _ _
  · rw [hsegs, length_cons, length_cons] at hlength
    omega

theorem convexCosts_eq (h : Increasing points) :
    List.zipWith (fun p cost => ({ p with cost } : CostPoint)) points (convexCosts points) =
      pooledPoints points := by
  cases points with
  | nil => rfl
  | cons p points =>
      have hpos := segments_increasing h
      have hslopes : List.zipWith (· / ·) ((segments (p :: points)).map Segment.rise)
          ((segments (p :: points)).map Segment.width) =
            (segments (p :: points)).map Segment.slope := by
        rw [zipWith_map, zipWith_self]
        rfl
      unfold pooledPoints withHeights convexCosts
      dsimp only
      rw [differences_qty, differences_cost, hslopes, rises_of_blocks hpos,
        Segment.heights_eq_scanl]
      rfl

end Pooled

/-- Around the window the quantities are below its lower or above its upper bound; its first
and its last quantity are not. -/
structure IsWindow (config : ConvexificationConfig) (before inside after : List CostPoint) :
    Prop where
  below : ∀ p ∈ before, ∃ q ∈ config.qMin, Decimal.cmp p.qty q < 0
  above : ∀ p ∈ after, ∃ q ∈ config.qMax, Decimal.cmp p.qty q > 0
  first : ∀ p ∈ inside.head?, ∀ q ∈ config.qMin, Decimal.cmp p.qty q ≥ 0
  last : ∀ p ∈ inside.getLast?, ∀ q ∈ config.qMax, Decimal.cmp p.qty q ≤ 0

section Range

variable {config : ConvexificationConfig} {sOfQ : List CostPoint} {i : ℕ}

theorem rangeBegin_none (h : rangeBegin config.qMin sOfQ = none) :
    ∀ p ∈ sOfQ, ∃ q ∈ config.qMin, Decimal.cmp p.qty q < 0 := by
  cases hq : config.qMin with
  | none =>
      rw [hq] at h
      cases h
  | some q =>
      rw [hq] at h
      intro p hp
      have hno := findIdx?_eq_none_iff.mp h p hp
      exact ⟨q, rfl, not_le.mp (of_decide_eq_false hno)⟩

theorem rangeBegin_some (h : rangeBegin config.qMin sOfQ = some i) :
    (∀ p ∈ sOfQ.take i, ∃ q ∈ config.qMin, Decimal.cmp p.qty q < 0) ∧
      (∀ p ∈ sOfQ[i]?, ∀ q ∈ config.qMin, Decimal.cmp p.qty q ≥ 0) ∧
      (i = 0 ∨ i < sOfQ.length) := by
  cases hq : config.qMin with
  | none =>
      rw [hq] at h
      obtain rfl := Option.some.inj h
      refine ⟨fun p hp => ?_, fun p _ q hq => ?_, Or.inl rfl⟩
      · cases hp
      · cases hq
  | some q =>
      rw [hq] at h
      obtain ⟨hlt, hyes, hno⟩ := findIdx?_eq_some_iff_getElem.mp h
      refine ⟨fun p hp => ?_, fun p hp q' hq' => ?_, Or.inr hlt⟩
      · obtain ⟨j, hj, rfl⟩ := mem_take_iff_getElem.mp hp
        have hfalse := hno j (by omega)
        exact ⟨q, rfl, not_le.mp (by simpa using hfalse)⟩
      · obtain rfl := Option.some.inj hq'
        rw [getElem?_eq_getElem hlt] at hp
        obtain rfl := Option.some.inj hp
        exact of_decide_eq_true hyes

theorem rangeEnd_none (h : rangeEnd config.qMax sOfQ = none) :
    ∀ p ∈ sOfQ, ∃ q ∈ config.qMax, Decimal.cmp p.qty q > 0 := by
  unfold rangeEnd at h
  cases hq : config.qMax with
  | none =>
      rw [hq] at h
      cases h
  | some q =>
      rw [hq, Option.map_eq_none_iff] at h
      intro p hp
      have hno := findIdx?_eq_none_iff.mp h p (mem_reverse.mpr hp)
      exact ⟨q, rfl, not_le.mp (of_decide_eq_false hno)⟩

theorem rangeEnd_some (h : rangeEnd config.qMax sOfQ = some i) :
    (∀ p ∈ sOfQ.drop (i + 1), ∃ q ∈ config.qMax, Decimal.cmp p.qty q > 0) ∧
      (∀ p ∈ sOfQ[i]?, ∀ q ∈ config.qMax, Decimal.cmp p.qty q ≤ 0) ∧
      (sOfQ = [] ∨ i < sOfQ.length) := by
  cases hq : config.qMax with
  | none =>
      rw [hq] at h
      have hi : sOfQ.length - 1 = i := Option.some.inj h
      refine ⟨fun p hp => ?_, fun p _ q hq => ?_, ?_⟩
      · rw [drop_of_length_le (by omega)] at hp
        cases hp
      · cases hq
      · cases sOfQ with
        | nil => exact Or.inl rfl
        | cons p rest =>
            rw [length_cons] at hi ⊢
            omega
  | some q =>
      rw [hq] at h
      obtain ⟨k, hk, rfl⟩ := Option.map_eq_some_iff.mp h
      obtain ⟨hlt, hyes, hno⟩ := findIdx?_eq_some_iff_getElem.mp hk
      rw [length_reverse] at hlt
      refine ⟨fun p hp => ?_, fun p hp q' hq' => ?_, Or.inr (by omega)⟩
      · obtain ⟨j, hj, rfl⟩ := mem_drop_iff_getElem.mp hp
        have hfalse := hno (sOfQ.length - 1 - (j + (sOfQ.length - 1 - k + 1))) (by omega)
        rw [getElem_reverse] at hfalse
        refine ⟨q, rfl, not_le.mp fun hle => hfalse (decide_eq_true ?_)⟩
        have hindex : sOfQ.length - 1 - (sOfQ.length - 1 - (j + (sOfQ.length - 1 - k + 1))) =
            sOfQ.length - 1 - k + 1 + j := by omega
        simp only [hindex]
        exact hle
      · obtain rfl := Option.some.inj hq'
        rw [getElem?_eq_getElem (by omega)] at hp
        obtain rfl := Option.some.inj hp
        rw [getElem_reverse] at hyes
        exact of_decide_eq_true hyes

def insideOf (sOfQ : List CostPoint) (range : ℕ × ℕ) : List CostPoint :=
  (sOfQ.drop range.1).take (range.2 - range.1 + 1)

variable {first last : ℕ}

theorem split_range (sOfQ : List CostPoint) (h : first ≤ last) :
    sOfQ = sOfQ.take first ++ insideOf sOfQ (first, last) ++ sOfQ.drop (last + 1) := by
  unfold insideOf
  have hdrop : sOfQ.drop (last + 1) = (sOfQ.drop first).drop (last - first + 1) := by
    rw [drop_drop]
    congr 1
    omega
  rw [hdrop, append_assoc, take_append_drop, take_append_drop]

theorem replaced_range {a b c : List CostPoint} (ha : a.length = first)
    (hb : b.length = last - first + 1) (h : first ≤ last) :
    (a ++ b ++ c).take first = a ∧ insideOf (a ++ b ++ c) (first, last) = b ∧
      (a ++ b ++ c).drop (last + 1) = c := by
  have hab : (a ++ b).length = last + 1 := by
    rw [length_append]
    omega
  refine ⟨?_, ?_, drop_left' hab⟩
  · rw [append_assoc]
    exact take_left' ha
  · unfold insideOf
    rw [append_assoc]
    rw [drop_left' ha]
    exact take_left' hb

theorem selectConvexRange_some (h : selectConvexRange sOfQ config = some (first, last)) :
    rangeBegin config.qMin sOfQ = some first ∧ rangeEnd config.qMax sOfQ = some last ∧
      first < last ∧ last < sOfQ.length := by
  unfold selectConvexRange at h
  split_ifs at h with hshort
  cases hb : rangeBegin config.qMin sOfQ with
  | none =>
      rw [hb] at h
      cases h
  | some b =>
      cases he : rangeEnd config.qMax sOfQ with
      | none =>
          rw [hb, he] at h
          cases h
      | some e =>
          rw [hb, he] at h
          dsimp only at h
          split_ifs at h with hle
          obtain ⟨rfl, rfl⟩ := Prod.mk.inj (Option.some.inj h)
          refine ⟨rfl, rfl, not_le.mp hle, (rangeEnd_some he).2.2.resolve_left fun hnil => ?_⟩
          rw [hnil] at hshort
          exact hshort (by decide)

theorem isWindow_of_bounds (hb : rangeBegin config.qMin sOfQ = some first)
    (he : rangeEnd config.qMax sOfQ = some last) (hle : first ≤ last) :
    IsWindow config (sOfQ.take first) (insideOf sOfQ (first, last)) (sOfQ.drop (last + 1)) := by
  obtain ⟨hbelow, hfirst, hb'⟩ := rangeBegin_some hb
  obtain ⟨habove, hlast, he'⟩ := rangeEnd_some he
  refine ⟨hbelow, habove, fun p hp => hfirst p ?_, fun p hp => hlast p ?_⟩
  · unfold insideOf at hp
    rw [head?_take, head?_drop] at hp
    exact hp
  · unfold insideOf at hp
    rcases he' with rfl | hlt
    · simp at hp
    · rw [getLast?_eq_getElem?, length_take, length_drop,
        getElem?_take_of_lt (by omega), getElem?_drop] at hp
      convert hp using 2
      omega

theorem window_of_none (h : selectConvexRange sOfQ config = none) :
    ∃ before inside after, sOfQ = before ++ inside ++ after ∧
      IsWindow config before inside after ∧ inside.length < 3 := by
  have hno : ∀ P : CostPoint → Prop, ∀ p ∈ ([] : List CostPoint), P p := fun _ p hp => by cases hp
  cases hb : rangeBegin config.qMin sOfQ with
  | none =>
      refine ⟨sOfQ, [], [], by simp, ⟨rangeBegin_none hb, hno _, ?_, ?_⟩, by simp⟩ <;>
        · intro p hp
          cases hp
  | some first =>
      cases he : rangeEnd config.qMax sOfQ with
      | none =>
          refine ⟨[], [], sOfQ, by simp, ⟨hno _, rangeEnd_none he, ?_, ?_⟩, by simp⟩ <;>
            · intro p hp
              cases hp
      | some last =>
          rcases Nat.lt_or_ge last first with hlt | hge
          · obtain ⟨hbelow, -, -⟩ := rangeBegin_some hb
            obtain ⟨habove, -, -⟩ := rangeEnd_some he
            refine ⟨sOfQ.take first, [], sOfQ.drop first, by simp,
              ⟨hbelow, fun p hp => habove p ?_, ?_, ?_⟩, by simp⟩
            · have hdrop : sOfQ.drop first = (sOfQ.drop (last + 1)).drop (first - (last + 1)) := by
                rw [drop_drop]
                congr 1
                omega
              rw [hdrop] at hp
              exact mem_of_mem_drop hp
            · intro p hp
              cases hp
            · intro p hp
              cases hp
          · refine ⟨_, _, _, split_range sOfQ hge, isWindow_of_bounds hb he hge, ?_⟩
            unfold insideOf
            rw [length_take, length_drop]
            unfold selectConvexRange at h
            split_ifs at h with hshort
            · omega
            · rw [hb, he] at h
              dsimp only at h
              split_ifs at h with hle
              · omega

theorem selectConvexRange_congr {other : List CostPoint}
    (h : other.map CostPoint.qty = sOfQ.map CostPoint.qty) :
    selectConvexRange other config = selectConvexRange sOfQ config := by
  have hlength : other.length = sOfQ.length := by simpa using congrArg List.length h
  have hfind : ∀ (a b : List CostPoint) (f : Decimal → Bool),
      a.map CostPoint.qty = b.map CostPoint.qty →
        a.findIdx? (fun p => f p.qty) = b.findIdx? (fun p => f p.qty) := by
    intro a b f hab
    have hmap := congrArg (List.findIdx? f) hab
    rw [findIdx?_map, findIdx?_map] at hmap
    exact hmap
  have hbegin : rangeBegin config.qMin other = rangeBegin config.qMin sOfQ := by
    cases config.qMin with
    | none => rfl
    | some q => exact hfind _ _ (fun d => decide (Decimal.cmp d q ≥ 0)) h
  have hend : rangeEnd config.qMax other = rangeEnd config.qMax sOfQ := by
    unfold rangeEnd
    rw [hlength]
    cases config.qMax with
    | none => rfl
    | some q =>
        dsimp only
        rw [hfind other.reverse sOfQ.reverse (fun d => decide (Decimal.cmp d q ≤ 0))
          (by rw [map_reverse, map_reverse, h])]
  unfold selectConvexRange
  rw [hlength, hbegin, hend]

end Range

section Layer

variable {config : ConvexificationConfig} {sOfQ before inside after : List CostPoint}

theorem convexify_eq (config : ConvexificationConfig) (h : Increasing sOfQ) :
    convexifyCostLayerImpl sOfQ config =
      match selectConvexRange sOfQ config with
      | none => sOfQ
      | some range =>
          sOfQ.take range.1 ++ pooledPoints (insideOf sOfQ range) ++ sOfQ.drop (range.2 + 1) := by
  unfold convexifyCostLayerImpl
  cases hrange : selectConvexRange sOfQ config with
  | none => split_ifs <;> rfl
  | some range =>
      obtain ⟨first, last⟩ := range
      obtain ⟨-, -, hlt, -⟩ := selectConvexRange_some hrange
      have hsplit := split_range sOfQ hlt.le
      have hinside : Increasing (insideOf sOfQ (first, last)) :=
        h.sublist ((take_sublist _ _).trans (drop_sublist _ _))
      have hshort : (insideOf sOfQ (first, last)).length < 3 →
          sOfQ = sOfQ.take first ++ pooledPoints (insideOf sOfQ (first, last)) ++
            sOfQ.drop (last + 1) := by
        intro hthree
        rw [pooledPoints_of_convex hinside (convexOnGrid_of_short hthree)]
        exact hsplit
      have hlength : (insideOf sOfQ (first, last)).length =
          min (last - first + 1) (sOfQ.length - first) := by
        unfold insideOf
        rw [length_take, length_drop]
      dsimp only
      split_ifs with hthree hcount hgrid
      · exact hshort (by omega)
      · exact hshort (by omega)
      · rw [differences_qty, List.any_eq_true] at hgrid
        obtain ⟨w, hw, hle⟩ := hgrid
        obtain ⟨s, hs, rfl⟩ := mem_map.mp hw
        exact absurd (segments_increasing hinside s hs) (not_lt.mpr (of_decide_eq_true hle))
      · have hcosts := convexCosts_eq hinside
        unfold insideOf at hcosts
        rw [hcosts]
        rfl

def InWindow (config : ConvexificationConfig) (p : CostPoint) : Prop :=
  (∀ q ∈ config.qMin, q.toRat ≤ p.qty.toRat) ∧ ∀ q ∈ config.qMax, p.qty.toRat ≤ q.toRat

/-- The quantities can be compared with the bounds without an overflow. -/
def ComparableBounds (config : ConvexificationConfig) (sOfQ : List CostPoint) : Prop :=
  ∀ p ∈ sOfQ, (∀ q ∈ config.qMin, Decimal.Comparable p.qty q) ∧
    ∀ q ∈ config.qMax, Decimal.Comparable p.qty q

theorem IsWindow.inWindow (hwindow : IsWindow config before inside after)
    (h : Increasing (before ++ inside ++ after))
    (hbounds : ComparableBounds config (before ++ inside ++ after)) :
    (∀ p ∈ before ++ after, ¬InWindow config p) ∧ ∀ p ∈ inside, InWindow config p := by
  have hcomparable : ∀ p, p ∈ before ∨ p ∈ inside ∨ p ∈ after →
      (∀ q ∈ config.qMin, Decimal.Comparable p.qty q) ∧
        ∀ q ∈ config.qMax, Decimal.Comparable p.qty q := by
    intro p hp
    refine hbounds p ?_
    rw [mem_append, mem_append, or_assoc]
    exact hp
  refine ⟨fun p hp hin => ?_, fun p hp => ⟨fun q hq => ?_, fun q hq => ?_⟩⟩
  · rcases mem_append.mp hp with hp | hp
    · obtain ⟨q, hq, hlt⟩ := hwindow.below p hp
      have hcmp := ((hcomparable p (Or.inl hp)).1 q hq).cmp_neg_iff.mp hlt
      exact absurd (hin.1 q hq) (not_le.mpr hcmp)
    · obtain ⟨q, hq, hlt⟩ := hwindow.above p hp
      have hcmp := mt ((hcomparable p (Or.inr (Or.inr hp))).2 q hq).cmp_nonpos_iff.mpr
        (not_le.mpr hlt)
      exact hcmp (hin.2 q hq)
  · obtain ⟨f, rest, rfl⟩ := exists_cons_of_ne_nil (ne_nil_of_mem hp)
    have hf : f ∈ (f :: rest) := mem_cons_self
    have hle := ((hcomparable f (Or.inr (Or.inl hf))).1 q hq).cmp_nonneg_iff.mp
      (hwindow.first f rfl q hq)
    rcases mem_cons.mp hp with rfl | hp
    · exact hle
    · have hrest := (pairwise_append.mp (pairwise_append.mp h).1).2.1
      exact hle.trans ((pairwise_cons.mp hrest).1 p hp).le
  · obtain ⟨rest, l, hconcat⟩ :=
      (eq_nil_or_concat inside).resolve_left (ne_nil_of_mem hp)
    rw [concat_eq_append] at hconcat
    subst hconcat
    have hl : l ∈ (rest ++ [l]) := by simp
    have hle := ((hcomparable l (Or.inr (Or.inl hl))).2 q hq).cmp_nonpos_iff.mp
      (hwindow.last l (by simp) q hq)
    rcases mem_append.mp hp with hp | hp
    · have hrest := (pairwise_append.mp (pairwise_append.mp h).1).2.1
      have hlt := (pairwise_append.mp hrest).2.2 p hp l (mem_singleton_self l)
      exact hlt.le.trans hle
    · rw [mem_singleton.mp hp]
      exact hle

end Layer

/-- Outside the window the points stay; inside they become the greatest convex function that is
nowhere above them, and stay when they are convex.  A second time nothing changes. -/
structure Convexified (config : ConvexificationConfig) (sOfQ result : List CostPoint) :
    Prop where
  window : ∃ before inside after inside', sOfQ = before ++ inside ++ after ∧
    result = before ++ inside' ++ after ∧ IsWindow config before inside after ∧
    (ComparableBounds config sOfQ →
      (∀ p ∈ before ++ after, ¬InWindow config p) ∧ ∀ p ∈ inside, InWindow config p) ∧
    ConvexMinorant inside inside' ∧ (ConvexOnGrid inside → result = sOfQ)
  idempotent : convexifyCostLayerImpl result config = result

/-- Convexification gives the greatest convex function below the costs. -/
theorem convexify_minorant (sOfQ : List CostPoint) (config : ConvexificationConfig)
    (h : Increasing sOfQ) : Convexified config sOfQ (convexifyCostLayerImpl sOfQ config) := by
  have heq := convexify_eq config h
  cases hrange : selectConvexRange sOfQ config with
  | none =>
      rw [hrange] at heq
      rw [heq]
      obtain ⟨before, inside, after, rfl, hwindow, hshort⟩ := window_of_none hrange
      have hinside : Increasing inside :=
        h.sublist ((List.sublist_append_right _ _).trans (List.sublist_append_left _ _))
      have hsame := pooledPoints_minorant hinside
      rw [pooledPoints_of_convex hinside (convexOnGrid_of_short hshort)] at hsame
      exact ⟨⟨before, inside, after, inside, rfl, rfl, hwindow, hwindow.inWindow h, hsame,
        fun _ => rfl⟩, heq⟩
  | some range =>
      obtain ⟨first, last⟩ := range
      obtain ⟨hb, he, hlt, hend⟩ := selectConvexRange_some hrange
      rw [hrange] at heq
      dsimp only at heq
      rw [heq]
      have hsplit := split_range sOfQ hlt.le
      have hwindow := isWindow_of_bounds hb he hlt.le
      have hinside : Increasing (insideOf sOfQ (first, last)) :=
        h.sublist ((List.take_sublist _ _).trans (List.drop_sublist _ _))
      have hminorant := pooledPoints_minorant hinside
      refine ⟨⟨_, _, _, _, hsplit, rfl, hwindow, ?_, hminorant, fun hconvex => ?_⟩, ?_⟩
      · intro hbounds
        rw [hsplit] at hbounds
        exact hwindow.inWindow (hsplit ▸ h) hbounds
      · rw [pooledPoints_of_convex hinside hconvex]
        exact hsplit.symm
      · -- the result has the same range, and its window is convex
        have hqty : (sOfQ.take first ++ pooledPoints (insideOf sOfQ (first, last)) ++
            sOfQ.drop (last + 1)).map CostPoint.qty = sOfQ.map CostPoint.qty := by
          conv_rhs => rw [hsplit]
          simp only [List.map_append, hminorant.grid]
        have hlength : (pooledPoints (insideOf sOfQ (first, last))).length = last - first + 1 := by
          have hcount := congrArg List.length hminorant.grid
          rw [List.length_map, List.length_map] at hcount
          rw [hcount]
          unfold insideOf
          rw [List.length_take, List.length_drop]
          omega
        obtain ⟨htake, hagain, hdrop⟩ := replaced_range (a := sOfQ.take first)
          (c := sOfQ.drop (last + 1)) (by rw [List.length_take]; omega) hlength hlt.le
        rw [convexify_eq config (increasing_congr hqty h), selectConvexRange_congr hqty, hrange]
        dsimp only
        rw [htake, hagain, hdrop, pooledPoints_of_convex
          (increasing_congr hminorant.grid hinside) hminorant.convex]

def fallingLayer : List SOfQPoint :=
  [⟨Decimal.of 0 0, Decimal.of 0 0⟩, ⟨Decimal.of 1 0, Decimal.of 5 0⟩,
    ⟨Decimal.of 2 0, Decimal.of 6 0⟩, ⟨Decimal.of 3 0, Decimal.of 12 0⟩]

theorem convexify_minorant_falling :
    Convexified {} (fallingLayer.map costPoint)
      (convexifyCostLayerImpl (fallingLayer.map costPoint) {}) :=
  convexify_minorant (fallingLayer.map costPoint) {} (by
    norm_num [Increasing, fallingLayer, costPoint, Decimal.toRat, Decimal.of])

end Exact
end Venues
end ContExchange
