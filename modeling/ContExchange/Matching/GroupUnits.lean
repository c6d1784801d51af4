import ContExchange.Common.DecimalOrder
import ContExchange.Common.Rounding
import ContExchange.Matching.GroupedOrders

/-!
# Matching: caps and units of a group

`GroupedSolverBisection::Solve` looks the caps of the legs up by their instruments and
takes the least of the rounded quotients of cap and ratio.

* `feasibleCap_spec`: the cap of a leg is the least of its limits;
* `capOf_mem`: the cap under an instrument is that of a leg of the instrument, and the leg's
  own one when no other leg has the instrument (`capOf_of_distinct`);
* `leastOf_spec`: a loop that keeps the smaller decimal ends with the first least one;
* `groupUnits_spec`: the units of a group are such least quotients.
-/

namespace ContExchange
namespace Matching

open Common Lib AList Decimal List VectorLeg

theorem normalizeI128_scale {u s : Int} (hs : 0 ≤ s) :
    0 ≤ (Decimal.normalizeI128 u s).scale ∧ (Decimal.normalizeI128 u s).scale ≤ s := by
  obtain ⟨n, rfl⟩ := Int.eq_ofNat_of_zero_le hs
  have hle := (normalizeLoop_error n u).1
  unfold Decimal.normalizeI128
  split_ifs
  · simp only [Int.toNat_natCast]
    exact ⟨Int.natCast_nonneg _, by exact_mod_cast hle⟩
  · exact ⟨hs, le_rfl⟩

theorem scaleOk_sub {a b : Decimal} (ha : a.ScaleOk) (hb : b.ScaleOk) :
    (Decimal.sub a b).ScaleOk := by
  have hmax : 0 ≤ max a.scale b.scale := le_max_of_le_left ha.1
  obtain ⟨hlow, hhigh⟩ := normalizeI128_scale
    (u := i128 (Decimal.alignUnitsI128 a (max a.scale b.scale) -
      Decimal.alignUnitsI128 b (max a.scale b.scale))) hmax
  exact ⟨hlow, hhigh.trans (max_le ha.2 hb.2)⟩

theorem divUnits_places (a b : Decimal) {s : Int} (hs : 0 ≤ s) :
    0 ≤ (Decimal.divUnits a b s).scale ∧ (Decimal.divUnits a b s).scale ≤ s :=
  normalizeI128_scale hs

theorem mul_nonneg_toRat {a b : Decimal} (ha : 0 ≤ a.toRat) (hb : 0 ≤ b.toRat) :
    0 ≤ (Decimal.mul a b).toRat := by
  have h := (mul_faithful (t := .zero) le_rfl ((toRat_nonneg_iff a).mp ha)
    ((toRat_nonneg_iff b).mp hb)).1
  rw [toRat_zero] at h
  exact h (mul_nonneg ha hb)

def VectorLeg.limits (leg : VectorLeg) : List Decimal :=
  [leg.remainingQty, leg.qRate] ++ leg.qLiq.toList ++ leg.qRisk.toList ++ leg.qVenue.toList

def LeastAmong (candidates : List Decimal) (d : Decimal) : Prop :=
  d ∈ candidates ∧ ∀ c ∈ candidates, d.toRat ≤ c.toRat

/-- The decimals of a leg have the places of the database, and its rates and caps are not
negative. -/
structure VectorLeg.CapsOk (leg : VectorLeg) : Prop where
  ratio : leg.targetRatio.ScaleOk
  qMax : leg.qMax.ScaleOk
  filledCum : leg.filledCum.ScaleOk
  caps : ∀ d ∈ [leg.qRate] ++ leg.qLiq.toList ++ leg.qRisk.toList ++ leg.qVenue.toList,
    d.ScaleOk ∧ 0 ≤ d.toRat

section Caps

variable {leg : VectorLeg} {candidates : List Decimal} {cap : Decimal × String}

theorem LeastAmong.single (d : Decimal) : LeastAmong [d] d :=
  ⟨by simp, by simp⟩

theorem considerCap_least (c : Decimal) (name : String) (cap : Decimal × String)
    (hscales : ∀ d ∈ candidates ++ [c], d.ScaleOk) (h : LeastAmong candidates cap.1) :
    LeastAmong (candidates ++ [c]) (considerCap c name cap).1 := by
  obtain ⟨hmem, hleast⟩ := h
  have hc : c.ScaleOk := hscales c (by simp)
  have hcap : cap.1.ScaleOk := hscales _ (mem_append_left _ hmem)
  unfold considerCap
  split_ifs with hless
  · rw [cmp_neg_iff hc hcap] at hless
    refine ⟨by simp, fun d hd => ?_⟩
    rcases mem_append.mp hd with hd | hd
    · exact hless.le.trans (hleast d hd)
    · rw [mem_singleton.mp hd]
  · rw [cmp_neg_iff hc hcap, not_lt] at hless
    refine ⟨mem_append_left _ hmem, fun d hd => ?_⟩
    rcases mem_append.mp hd with hd | hd
    · exact hleast d hd
    · rw [mem_singleton.mp hd]
      exact hless

theorem considerOptional_least (c : Option Decimal) (name : String)
    (hscales : ∀ d ∈ candidates ++ c.toList, d.ScaleOk) (h : LeastAmong candidates cap.1) :
    LeastAmong (candidates ++ c.toList) (considerOptional c name cap).1 := by
  cases c with
  | none => simpa [considerOptional] using h
  | some c => exact considerCap_least c name cap hscales h

theorem remainingQty_spec (hqMax : leg.qMax.ScaleOk) (hfilled : leg.filledCum.ScaleOk) :
    leg.remainingQty.ScaleOk ∧ 0 ≤ leg.remainingQty.toRat := by
  have hscale := scaleOk_sub hqMax hfilled
  unfold remainingQty
  dsimp only
  split_ifs with hneg
  · exact ⟨hscale, by simp⟩
  · rw [cmp_zeroAt_neg_iff, not_lt] at hneg
    exact ⟨hscale, hneg⟩

theorem VectorLeg.CapsOk.limits (h : leg.CapsOk) : ∀ d ∈ leg.limits, d.ScaleOk ∧ 0 ≤ d.toRat := by
  intro d hd
  unfold VectorLeg.limits at hd
  rw [append_assoc, append_assoc, cons_append, mem_cons] at hd
  rcases hd with rfl | hd
  · exact remainingQty_spec h.qMax h.filledCum
  · exact h.caps d (by simpa using hd)

theorem feasibleCap_spec (h : leg.CapsOk) : LeastAmong leg.limits leg.feasibleCap.cap := by
  have hscales : ∀ d ∈ leg.limits, d.ScaleOk := fun d hd => (h.limits d hd).1
  have hsub : ∀ {front : List Decimal} (back : List Decimal), leg.limits = front ++ back →
      ∀ d ∈ front, d.ScaleOk :=
    fun back hform d hd => hscales d (hform ▸ mem_append_left _ hd)
  have hrate : LeastAmong [leg.remainingQty, leg.qRate]
      (considerCap leg.qRate "rate" (leg.remainingQty, "remaining")).1 := by
    refine considerCap_least leg.qRate "rate" (leg.remainingQty, "remaining") ?_ (.single _)
    exact hsub (leg.qLiq.toList ++ leg.qRisk.toList ++ leg.qVenue.toList) (by simp [limits])
  have hliq := considerOptional_least leg.qLiq "liq"
    (hsub (leg.qRisk.toList ++ leg.qVenue.toList) (by simp [limits])) hrate
  have hrisk := considerOptional_least leg.qRisk "risk"
    (hsub leg.qVenue.toList (by simp [limits])) hliq
  exact considerOptional_least leg.qVenue "venue" hscales hrisk

theorem feasibleCap_ok (h : leg.CapsOk) :
    leg.feasibleCap.cap.ScaleOk ∧ 0 ≤ leg.feasibleCap.cap.toRat :=
  h.limits _ (feasibleCap_spec h).1

theorem le_limits_iff (h : leg.CapsOk) {q : ℚ} :
    (∀ limit ∈ leg.limits, q ≤ limit.toRat) ↔ q ≤ leg.feasibleCap.cap.toRat := by
  obtain ⟨hmem, hleast⟩ := feasibleCap_spec h
  exact ⟨fun hall => hall _ hmem, fun hle limit hlimit => hle.trans (hleast limit hlimit)⟩

theorem absRatio_spec (h : leg.targetRatio.ScaleOk) :
    leg.absRatio.ScaleOk ∧ 0 ≤ leg.absRatio.toRat := by
  unfold absRatio
  dsimp only
  have hzero : (zeroAt leg.targetRatio.scale).ScaleOk := h
  split_ifs with hneg
  · rw [cmp_zeroAt_neg_iff] at hneg
    refine ⟨scaleOk_sub hzero h, ?_⟩
    have hunits : leg.targetRatio.units < 0 := (toRat_neg_iff _).mp hneg
    have hbound := leg.targetRatio.abs_units_le
    have hform : Decimal.sub (zeroAt leg.targetRatio.scale) leg.targetRatio =
        Decimal.normalizeI128 (-leg.targetRatio.units) leg.targetRatio.scale := by
      have hi128 : i128 (-leg.targetRatio.units) = -leg.targetRatio.units := by
        apply i128_of_abs_le
        rw [abs_neg]
        exact hbound.trans (by norm_num)
      simp [Decimal.sub, Decimal.alignUnitsI128, zeroAt, hi128]
    have hfaithful := (normalizeI128_faithful (t := .zero) le_rfl
      (u := -leg.targetRatio.units) (s := leg.targetRatio.scale) (by omega)).1
    rw [hform]
    rw [toRat_zero] at hfaithful
    refine hfaithful (mul_nonneg ?_ (pow10_pos _).le)
    exact_mod_cast (show (0 : Int) ≤ -leg.targetRatio.units by omega)
  · rw [cmp_zeroAt_neg_iff, not_lt] at hneg
    exact ⟨h, hneg⟩

end Caps

section Lookup

variable {legs : List VectorLeg} {leg : VectorLeg}

theorem capOf_concat (legs : List VectorLeg) (last leg : VectorLeg) :
    capOf ((legs ++ [last]).map feasibleCap) leg =
      if last.instrumentSymbol = leg.instrumentSymbol then last.feasibleCap.cap
      else capOf (legs.map feasibleCap) leg := by
  have hsymbol : last.feasibleCap.instrumentSymbol = last.instrumentSymbol := rfl
  unfold capOf capBySym
  rw [map_append, foldl_append, map_singleton, foldl_cons, foldl_nil, hsymbol]
  split_ifs with hsame
  · rw [hsame, lookup_insert, Option.getD_some]
  · rw [lookup_insert_ne (Ne.symm hsame)]

theorem capOf_mem (h : leg ∈ legs) :
    ∃ other ∈ legs, other.instrumentSymbol = leg.instrumentSymbol ∧
      capOf (legs.map feasibleCap) leg = other.feasibleCap.cap := by
  induction legs using List.reverseRecOn with
  | nil => cases h
  | append_singleton legs last ih =>
      rw [capOf_concat]
      split_ifs with hsame
      · exact ⟨last, by simp, hsame, rfl⟩
      · have hfront : leg ∈ legs := by
          rcases mem_append.mp h with h | h
          · exact h
          · exact absurd (congrArg VectorLeg.instrumentSymbol (mem_singleton.mp h).symm) hsame
        obtain ⟨other, hother, hsymbol, hcap⟩ := ih hfront
        exact ⟨other, mem_append_left _ hother, hsymbol, hcap⟩

theorem capOf_of_distinct (hdistinct : (legs.map VectorLeg.instrumentSymbol).Nodup)
    (h : leg ∈ legs) : capOf (legs.map feasibleCap) leg = leg.feasibleCap.cap := by
  obtain ⟨other, hother, hsymbol, hcap⟩ := capOf_mem h
  rw [hcap, inj_on_of_nodup_map hdistinct hother h hsymbol]

end Lookup

/-- A loop that keeps the smaller decimal. -/
def leastOf {α : Type*} (f : α → Decimal) (xs : List α) : Option Decimal :=
  xs.foldl
    (fun least x =>
      match least with
      | none => some (f x)
      | some d => some (if Decimal.cmp (f x) d < 0 then f x else d))
    none

section Least

variable {α : Type*} {f : α → Decimal} {xs : List α}

theorem leastOf_concat (f : α → Decimal) (xs : List α) (x : α) :
    leastOf f (xs ++ [x]) =
      some (match leastOf f xs with
        | none => f x
        | some d => if Decimal.cmp (f x) d < 0 then f x else d) := by
  unfold leastOf
  rw [foldl_append]
  simp only [foldl_cons, foldl_nil]
  split <;> rfl

theorem leastOf_eq_none : leastOf f xs = none ↔ xs = [] := by
  induction xs using List.reverseRecOn with
  | nil => simp [leastOf]
  | append_singleton xs x _ => simp [leastOf_concat]

theorem leastOf_spec (hscales : ∀ x ∈ xs, (f x).ScaleOk) {d : Decimal} (h : leastOf f xs = some d) :
    ∃ front x back, xs = front ++ x :: back ∧ d = f x ∧
      (∀ y ∈ front, d.toRat < (f y).toRat) ∧ ∀ y ∈ back, d.toRat ≤ (f y).toRat := by
  induction xs using List.reverseRecOn generalizing d with
  | nil => cases h
  | append_singleton xs last ih =>
      have hfront : ∀ x ∈ xs, (f x).ScaleOk := fun x hx => hscales x (mem_append_left _ hx)
      have hlast : (f last).ScaleOk := hscales last (by simp)
      rw [leastOf_concat] at h
      cases hold : leastOf f xs with
      | none =>
          rw [hold] at h
          obtain rfl := leastOf_eq_none.mp hold
          cases h
          exact ⟨[], last, [], rfl, rfl, by simp, by simp⟩
      | some e =>
          rw [hold] at h
          obtain ⟨front, x, back, rfl, rfl, hless, hle⟩ := ih hfront hold
          have hx : (f x).ScaleOk := hfront x (by simp)
          simp only [Option.some.injEq] at h
          subst h
          split_ifs with hsmaller
          · rw [cmp_neg_iff hlast hx] at hsmaller
            refine ⟨front ++ x :: back, last, [], rfl, rfl, fun y hy => ?_, by simp⟩
            rcases mem_append.mp hy with hy | hy
            · exact hsmaller.trans (hless y hy)
            · rcases mem_cons.mp hy with rfl | hy
              · exact hsmaller
              · exact hsmaller.trans_le (hle y hy)
          · rw [cmp_neg_iff hlast hx, not_lt] at hsmaller
            refine ⟨front, x, back ++ [last], by simp, rfl, hless, fun y hy => ?_⟩
            rcases mem_append.mp hy with hy | hy
            · exact hle y hy
            · rw [mem_singleton.mp hy]
              exact hsmaller

/-- The first of the entries with the least value. -/
def FirstLeast (f : α → Decimal) (xs : List α) (x : α) : Prop :=
  ∃ front back, xs = front ++ x :: back ∧ (∀ y ∈ front, (f x).toRat < (f y).toRat) ∧
    ∀ y ∈ back, (f x).toRat ≤ (f y).toRat

theorem exists_firstLeast (hscales : ∀ x ∈ xs, (f x).ScaleOk) {d : Decimal}
    (h : leastOf f xs = some d) : ∃ x, FirstLeast f xs x := by
  obtain ⟨front, x, back, hform, rfl, hless, hle⟩ := leastOf_spec hscales h
  exact ⟨x, front, back, hform, hless, hle⟩

/-- A list has one first least entry. -/
theorem FirstLeast.unique {x y : α} (hx : FirstLeast f xs x) (hy : FirstLeast f xs y) : x = y := by
  obtain ⟨front, back, hform, hless, hle⟩ := hx
  obtain ⟨front', back', hform', hless', hle'⟩ := hy
  rw [hform'] at hform
  rcases append_eq_append_iff.mp hform with ⟨between, hbetween, hrest⟩ | ⟨between, hbetween, hrest⟩
  · cases between with
    | nil => exact (List.cons.inj hrest).1.symm
    | cons z between =>
        obtain ⟨rfl, hback⟩ := List.cons.inj hrest
        have hfirst := hless y (by rw [hbetween]; simp)
        have hlater := hle' x (by rw [hback]; simp)
        exact absurd hfirst (not_lt.mpr hlater)
  · cases between with
    | nil => exact (List.cons.inj hrest).1
    | cons z between =>
        obtain ⟨rfl, hback⟩ := List.cons.inj hrest
        have hfirst := hless' x (by rw [hbetween]; simp)
        have hlater := hle y (by rw [hback]; simp)
        exact absurd hfirst (not_lt.mpr hlater)

theorem leastOf_of_firstLeast (hscales : ∀ x ∈ xs, (f x).ScaleOk) {d : Decimal}
    (h : leastOf f xs = some d) {x : α} (hx : FirstLeast f xs x) : d = f x := by
  obtain ⟨front, y, back, hform, rfl, hless, hle⟩ := leastOf_spec hscales h
  rw [hx.unique ⟨front, back, hform, hless, hle⟩]

theorem leastOf_le (hscales : ∀ x ∈ xs, (f x).ScaleOk) {d : Decimal} (h : leastOf f xs = some d) :
    (∃ x ∈ xs, d = f x) ∧ ∀ x ∈ xs, d.toRat ≤ (f x).toRat := by
  obtain ⟨front, x, back, rfl, rfl, hless, hle⟩ := leastOf_spec hscales h
  refine ⟨⟨x, by simp, rfl⟩, fun y hy => ?_⟩
  rcases mem_append.mp hy with hy | hy
  · exact (hless y hy).le
  · rcases mem_cons.mp hy with rfl | hy
    · exact le_rfl
    · exact hle y hy

end Least

def VectorLeg.feasibleUnit (caps : List FeasibleCap) (leg : VectorLeg) : Decimal :=
  Decimal.divUnits (capOf caps leg) leg.absRatio 12

/-- The group unit that would complete a leg. -/
def VectorLeg.desiredUnit (leg : VectorLeg) : Decimal :=
  Decimal.divUnits leg.remainingQty leg.absRatio 12

section Units

variable {caps : List FeasibleCap} {legs : List VectorLeg}

theorem groupUnits_concat (caps : List FeasibleCap) (legs : List VectorLeg) (leg : VectorLeg) :
    groupUnits caps (legs ++ [leg]) = groupUnitsStep caps (groupUnits caps legs) leg := by
  unfold groupUnits
  rw [foldl_append]
  rfl

theorem groupUnits_spec (caps : List FeasibleCap) (legs : List VectorLeg) :
    (groupUnits caps legs).map GroupUnits.feasible =
        leastOf (feasibleUnit caps) (legs.filter hasRatio) ∧
      (groupUnits caps legs).map GroupUnits.desired =
        leastOf desiredUnit (legs.filter hasRatio) := by
  induction legs using List.reverseRecOn with
  | nil => exact ⟨rfl, rfl⟩
  | append_singleton legs leg ih =>
      obtain ⟨hfeasible, hdesired⟩ := ih
      rw [groupUnits_concat, filter_append]
      unfold groupUnitsStep
      cases hratio : leg.hasRatio with
      | false => simpa [hratio] using ⟨hfeasible, hdesired⟩
      | true =>
          have hone : [leg].filter hasRatio = [leg] := by simp [hratio]
          rw [hone, leastOf_concat, leastOf_concat, ← hfeasible, ← hdesired]
          cases groupUnits caps legs <;> exact ⟨rfl, rfl⟩

end Units

end Matching
end ContExchange
