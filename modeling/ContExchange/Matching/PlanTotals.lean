import ContExchange.Matching.ExecutionPlanner

/-!
# Matching: a plan spends its target

A feasible plan is meant to allocate positive quantities to distinct venues that
may be used, and to spend the target exactly; its intents then spend the quantity
of the intent they replace.

* the venues of a plan are eligible, whatever the shares are (`plan_cases`);
* the residual makes the total exact, whatever the rounding did (`reconcile_spec`);
* the quantities are positive when every share but the largest rounds to a
  positive quantity and these do not use up the target.  This is not checked, so
  a plan is good exactly when it is the case (`planSpends_iff`).
-/

namespace ContExchange
namespace Matching
namespace Planner

open Common Lib Decimal Double Option
open List hiding forall_mem_map map_map

/-- An input offers the venue: it is usable, on the allow list and not blocked. -/
def Eligible (request : PlanRequest) (venueId : String) : Prop :=
  ∃ input ∈ request.plannerInputs, input.venueId = venueId ∧ input.usable = true ∧
    (request.allowedVenues = [] ∨ venueId ∈ request.allowedVenues) ∧
    ∀ health ∈ input.health,
      health.routingRecommendation ≠ .block ∧ health.breakerState ≠ .open

structure SpendsTarget (request : PlanRequest) (plan : PlanResult) : Prop where
  distinct : (plan.allocations.map (fun a => a.venueId)).Nodup
  eligible : ∀ a ∈ plan.allocations, Eligible request a.venueId
  positive : ∀ a ∈ plan.allocations, 0 < a.qty.toRat
  total : (plan.allocations.map (fun a => a.qty.toRat)).sum = request.targetQty.toRat
  fanOut :
    ∀ intent : ExecutionIntent, intent.targetQty = request.targetQty →
      ((fanOutIntentByPlan intent plan).map (fun i => i.intentId)).Nodup ∧
        ((fanOutIntentByPlan intent plan).map (fun i => i.targetQty.toRat)).sum =
          intent.targetQty.toRat

def PlanSpends (request : PlanRequest) (config : PlanConfig) : Prop :=
  (buildMultiVenuePlan request config).feasible = true →
    SpendsTarget request (buildMultiVenuePlan request config)

section Shares

variable (request : PlanRequest) (config : PlanConfig)

/-- The shares of a target that is split over several venues; none when it is not. -/
def planShares : List Provisional :=
  if (decimalToDouble request.targetQty).le Double.zero ∨ (candidates request).length < 2 ∨
      Double.zero.lt (totalLiquidity request) = false then []
  else kept request config

end Shares

def shareUnits (p : Provisional) : Int :=
  (decimalFromDouble p.qty).units

def otherUnits (shares : List Provisional) : List Int :=
  (shares.map shareUnits).eraseIdx (largestIdx shares)

/-- The target and the total of the shares of a split fit 64 bits, at eight decimals or
at the scale of the target if it is finer. -/
def ShareSumsFit (targetQty : Decimal) (shares : List Provisional) : Prop :=
  shares ≠ [] →
    |targetQty.unitsAt (max targetQty.scale 8)| ≤ int64Max ∧
      |(shares.map shareUnits).sum * 10 ^ (max targetQty.scale 8 - 8).toNat| ≤ int64Max

/-- The shares go to distinct venues, all of them but the largest round to something
positive, and together these stay below the target. -/
structure SharesPositive (targetQty : Decimal) (shares : List Provisional) : Prop where
  venues : (shares.map (fun p => p.venueId)).Nodup
  others : ∀ u ∈ otherUnits shares, 0 < u
  below : ((otherUnits shares).sum : ℚ) * (10 : ℚ) ^ (-(8 : Int)) < targetQty.toRat

section EightPlaces

/-- Nothing negative, with eight decimals or plain zero. -/
def EightPlaces (d : Decimal) : Prop :=
  0 ≤ d.units ∧ (d.scale = 8 ∨ (d.scale = 0 ∧ d.units = 0))

theorem eightPlaces_decimalFromDouble (value : Double) : EightPlaces (decimalFromDouble value) := by
  unfold decimalFromDouble
  split
  · exact ⟨le_rfl, .inr ⟨rfl, rfl⟩⟩
  · exact ⟨le_max_left _ _, .inl rfl⟩

variable {d : Decimal}

theorem EightPlaces.scale_le (h : EightPlaces d) : d.scale ≤ 8 := by
  rcases h.2 with hs | ⟨hs, -⟩
  · exact hs.le
  · rw [hs]
    decide

theorem EightPlaces.unitsAt (h : EightPlaces d) (s : Int) :
    d.unitsAt s = d.units * 10 ^ (s - 8).toNat := by
  rcases h.2 with hscale | ⟨hscale, hzero⟩
  · rw [Decimal.unitsAt, hscale]
  · rw [Decimal.unitsAt, hzero, zero_mul, zero_mul]

theorem EightPlaces.toRat (h : EightPlaces d) :
    d.toRat = (d.units : ℚ) * (10 : ℚ) ^ (-(8 : Int)) := by
  rw [toRat_eq_unitsAt d h.scale_le, h.unitsAt 8]
  simp

theorem EightPlaces.add {a b : Decimal} (ha : EightPlaces a) (hb : EightPlaces b)
    (hfit : a.units + b.units ≤ int64Max) :
    EightPlaces (Decimal.add a b) ∧ (Decimal.add a b).units = a.units + b.units := by
  have hexact : Decimal.AddExact a b := by
    apply addExact_of_finer ha.scale_le hb.scale_le
    rw [ha.unitsAt 8, hb.unitsAt 8, abs_of_nonneg]
    · simpa using hfit
    · simpa using add_nonneg ha.1 hb.1
  have hadd := add_of_exact hexact
  have hscale : (Decimal.add a b).scale = max a.scale b.scale := by rw [hadd]
  have hunits : (Decimal.add a b).units =
      a.unitsAt (max a.scale b.scale) + b.unitsAt (max a.scale b.scale) := by rw [hadd]
  have hsum : (Decimal.add a b).units = a.units + b.units := by
    rw [hunits]
    rcases ha.2 with hsa | ⟨hsa, hza⟩
    · rw [hsa, max_eq_left hb.scale_le, ha.unitsAt 8, hb.unitsAt 8]
      simp
    · rcases hb.2 with hsb | ⟨hsb, hzb⟩
      · rw [hsb, max_eq_right ha.scale_le, ha.unitsAt 8, hb.unitsAt 8]
        simp
      · simp [Decimal.unitsAt, hza, hzb]
  refine ⟨⟨hsum ▸ add_nonneg ha.1 hb.1, ?_⟩, hsum⟩
  rw [hscale, hsum]
  rcases ha.2 with hsa | ⟨hsa, hza⟩
  · exact .inl (by rw [hsa]; exact max_eq_left hb.scale_le)
  · rcases hb.2 with hsb | ⟨hsb, hzb⟩
    · exact .inl (by rw [hsb]; exact max_eq_right ha.scale_le)
    · exact .inr ⟨by rw [hsa, hsb]; rfl, by rw [hza, hzb]; rfl⟩

variable {qtys : List Decimal}

theorem sum_units_nonneg (hqtys : ∀ q ∈ qtys, EightPlaces q) :
    0 ≤ (qtys.map (fun q => q.units)).sum := by
  apply sum_nonneg
  intro u hu
  obtain ⟨q, hq, rfl⟩ := mem_map.mp hu
  exact (hqtys q hq).1

theorem foldl_add_eightPlaces (hqtys : ∀ q ∈ qtys, EightPlaces q) {a : Decimal}
    (ha : EightPlaces a) (hfit : a.units + (qtys.map (fun q => q.units)).sum ≤ int64Max) :
    EightPlaces (qtys.foldl Decimal.add a) ∧
      (qtys.foldl Decimal.add a).units = a.units + (qtys.map (fun q => q.units)).sum := by
  induction qtys generalizing a with
  | nil => exact ⟨ha, (add_zero _).symm⟩
  | cons q qtys ih =>
      rw [map_cons, sum_cons] at hfit ⊢
      have hq := hqtys q mem_cons_self
      have hrest := fun q' hq' => hqtys q' (mem_cons_of_mem q hq')
      have hnonneg := sum_units_nonneg hrest
      obtain ⟨hadd, hunits⟩ := ha.add hq (by omega)
      obtain ⟨hfold, hsum⟩ := ih hrest hadd (by omega)
      exact ⟨hfold, by rw [foldl_cons, hsum, hunits, add_assoc]⟩

theorem sum_toRat_eightPlaces (hqtys : ∀ q ∈ qtys, EightPlaces q) :
    (qtys.map (fun q => q.toRat)).sum =
      (((qtys.map (fun q => q.units)).sum : Int) : ℚ) * (10 : ℚ) ^ (-(8 : Int)) := by
  induction qtys with
  | nil => simp
  | cons q qtys ih =>
      simp only [map_cons, sum_cons]
      rw [ih (fun q' hq' => hqtys q' (mem_cons_of_mem q hq')),
        (hqtys q mem_cons_self).toRat, Int.cast_add, add_mul]

end EightPlaces

section Residual

theorem largestIdx_lt {shares : List Provisional} (h : shares ≠ []) :
    largestIdx shares < shares.length := by
  have hloop : ∀ (ps : List (Provisional × Nat)) (n : Nat) (best : Double × Nat),
      best.2 < n → (∀ q ∈ ps, q.2 < n) →
        (ps.foldl (fun best q => if best.1.lt q.1.qty then (q.1.qty, q.2) else best) best).2 <
          n := by
    intro ps n
    induction ps with
    | nil =>
        intro best hbest _
        exact hbest
    | cons q ps ih =>
        intro best hbest hps
        apply ih
        · by_cases hlt : best.1.lt q.1.qty = true
          · simpa only [if_pos hlt] using hps q mem_cons_self
          · simpa only [if_neg hlt] using hbest
        · exact fun q' hq' => hps q' (mem_cons_of_mem q hq')
  cases shares with
  | nil => exact (h rfl).elim
  | cons p ps =>
      apply hloop
      · exact Nat.succ_pos _
      · rintro ⟨q, i⟩ hq
        have := snd_lt_add_of_mem_zipIdx hq
        simp only [length_cons]
        omega

theorem residual_exact {targetQty sumSoFar qty : Decimal} {others : Int}
    (hsum : EightPlaces sumSoFar) (hqty : EightPlaces qty)
    (hunits : sumSoFar.units = qty.units + others) (hothers : 0 ≤ others)
    (hpos : 0 < targetQty.units)
    (htarget : |targetQty.unitsAt (max targetQty.scale 8)| ≤ int64Max)
    (hfit : |sumSoFar.units * 10 ^ (max targetQty.scale 8 - 8).toNat| ≤ int64Max) :
    Decimal.SubExact targetQty sumSoFar ∧
      Decimal.AddExact qty (Decimal.sub targetQty sumSoFar) := by
  generalize hplaces : max targetQty.scale 8 = places at htarget hfit
  have htargetPlaces : targetQty.scale ≤ places := hplaces ▸ le_max_left _ _
  have hplace : ∀ {d : Decimal}, EightPlaces d → d.scale ≤ places :=
    fun h => h.scale_le.trans (hplaces ▸ le_max_right _ _)
  have hpow : (0 : Int) ≤ 10 ^ (places - 8).toNat := by positivity
  have htargetNonneg : 0 ≤ targetQty.unitsAt places := mul_nonneg hpos.le (by positivity)
  have hqtyNonneg := mul_nonneg hqty.1 hpow
  have hothersNonneg := mul_nonneg hothers hpow
  rw [abs_of_nonneg htargetNonneg] at htarget
  rw [abs_of_nonneg (mul_nonneg hsum.1 hpow), hunits, add_mul] at hfit
  have hsub : Decimal.SubExact targetQty sumSoFar := by
    apply subExact_of_finer htargetPlaces (hplace hsum)
    rw [hsum.unitsAt, hunits, add_mul, abs_le]
    exact ⟨by omega, by omega⟩
  refine ⟨hsub, ?_⟩
  have hdiffScale : (Decimal.sub targetQty sumSoFar).scale ≤ places := by
    rw [sub_of_exact hsub]
    exact max_le htargetPlaces (hplace hsum)
  apply addExact_of_finer (hplace hqty) hdiffScale
  rw [unitsAt_sub hsub htargetPlaces (hplace hsum), hsum.unitsAt, hqty.unitsAt, hunits,
    add_mul, abs_le]
  exact ⟨by omega, by omega⟩

theorem reconcile_spec {targetQty : Decimal} {shares : List Provisional} (hne : shares ≠ [])
    (hpos : 0 < targetQty.units) (hfits : ShareSumsFit targetQty shares) :
    ∃ before after largest,
      reconcile targetQty shares = before ++ largest :: after ∧
      (before ++ after).map (fun q => q.units) = otherUnits shares ∧
      (∀ q ∈ before ++ after, EightPlaces q) ∧
      largest.toRat = targetQty.toRat - ((before ++ after).map (fun q => q.toRat)).sum := by
  obtain ⟨htarget, hfit⟩ := hfits hne
  have hlt : largestIdx shares < (shares.map (fun p => decimalFromDouble p.qty)).length := by
    rw [length_map]
    exact largestIdx_lt hne
  obtain ⟨before, qty, after, hqtys, hlength, hmodify⟩ := exists_of_modify
    (fun q => Decimal.add q (Decimal.sub targetQty
      ((shares.map (fun p => decimalFromDouble p.qty)).foldl Decimal.add .zero))) hlt
  have height : ∀ q ∈ before ++ qty :: after, EightPlaces q := by
    rw [← hqtys]
    intro q hq
    obtain ⟨p, -, rfl⟩ := mem_map.mp hq
    exact eightPlaces_decimalFromDouble p.qty
  have hothers : ∀ q ∈ before ++ after, EightPlaces q := by
    intro q hq
    apply height
    rw [mem_append, mem_cons]
    rcases mem_append.mp hq with hq | hq
    · exact .inl hq
    · exact .inr (.inr hq)
  have hqty : EightPlaces qty := height qty (by simp)
  have hunits : shares.map shareUnits = (before ++ qty :: after).map (fun q => q.units) := by
    rw [← hqtys, List.map_map]
    rfl
  have herase : (before ++ after).map (fun q => q.units) = otherUnits shares := by
    rw [otherUnits, hunits, ← hlength]
    simp [eraseIdx_append_of_length_le]
  have htotal : (shares.map shareUnits).sum =
      qty.units + ((before ++ after).map (fun q => q.units)).sum := by
    rw [hunits]
    simp only [map_append, map_cons, sum_append, sum_cons]
    ring
  have hmax : (shares.map shareUnits).sum ≤ int64Max := (int64Fits_of_mul_pow hfit).2
  have hbound : Decimal.zero.units + ((before ++ qty :: after).map (fun q => q.units)).sum ≤
      int64Max := by
    rw [← hunits]
    exact (zero_add _).trans_le hmax
  obtain ⟨hsum, hsumUnits⟩ :=
    foldl_add_eightPlaces height ⟨le_rfl, .inr ⟨rfl, rfl⟩⟩ hbound
  rw [← hunits, show Decimal.zero.units = 0 from rfl, zero_add] at hsumUnits
  unfold reconcile
  dsimp only
  rw [hqtys] at hmodify ⊢
  generalize (before ++ qty :: after).foldl Decimal.add .zero = sumSoFar at *
  rw [← hsumUnits] at hfit htotal
  obtain ⟨hsub, hadd⟩ :=
    residual_exact hsum hqty htotal (sum_units_nonneg hothers) hpos htarget hfit
  have hsumRat : sumSoFar.toRat = qty.toRat + ((before ++ after).map (fun q => q.toRat)).sum := by
    rw [hsum.toRat, htotal, sum_toRat_eightPlaces hothers, hqty.toRat, Int.cast_add, add_mul]
  have hdiffRat := sub_toRat hsub
  split
  · refine ⟨before, after, _, hmodify, herase, hothers, ?_⟩
    rw [add_toRat hadd, hdiffRat, hsumRat]
    ring
  · -- no residual: the target is the sum
    rename_i hcmp
    have hscale : 0 ≤ (Decimal.sub targetQty sumSoFar).scale := by
      rw [sub_of_exact hsub]
      rcases hsum.2 with hs | ⟨hs, -⟩
      · exact le_max_of_le_right (hs ▸ by decide)
      · exact le_max_of_le_right hs.ge
    have hzero : (Decimal.sub targetQty sumSoFar).toRat = 0 := by
      rw [cmp_of_alignExact (alignExact_zero hscale), toRat_zero] at hcmp
      by_contra hne
      rcases lt_or_gt_of_ne hne with hlt | hgt
      · rw [if_pos hlt] at hcmp
        exact hcmp (by decide)
      · rw [if_neg hgt.not_gt, if_pos hgt] at hcmp
        exact hcmp (by decide)
    refine ⟨before, after, qty, rfl, herase, hothers, ?_⟩
    rw [hdiffRat, hsumRat] at hzero
    linarith

end Residual

section Venues

variable {request : PlanRequest} {config : PlanConfig}

theorem eligible_of_candidate {c : Candidate} (hc : c ∈ candidates request) :
    Eligible request c.venueId := by
  obtain ⟨input, hinput, hof⟩ := mem_filterMap.mp hc
  simp only [candidateOf, ite_none_left_eq_some, some_inj, Bool.not_eq_true',
    Bool.not_eq_false] at hof
  obtain ⟨husable, hallowed, hgreen, -, rfl⟩ := hof
  refine ⟨input, hinput, rfl, husable, ?_, ?_⟩
  · rw [← not_ne_iff, ← imp_iff_not_or]
    intro hne
    by_contra hnot
    exact hallowed ⟨hne, hnot⟩
  · intro health hhealth
    have hok : venueHealthGreen health = true := by
      by_contra hbad
      apply hgreen
      rw [mem_def.mp hhealth, any_some]
      simpa using hbad
    simpa [venueHealthGreen] using hok

variable {p : Provisional}

theorem eligible_of_provisional (hp : p ∈ provisional request) : Eligible request p.venueId := by
  obtain ⟨c, hc, rfl⟩ := mem_map.mp hp
  exact eligible_of_candidate hc

theorem eligible_of_kept (hp : p ∈ kept request config) : Eligible request p.venueId := by
  unfold kept at hp
  dsimp only at hp
  split at hp
  · obtain ⟨q, hq, rfl⟩ := mem_map.mp hp
    exact eligible_of_provisional (p := q) (mem_filter.mp hq).1
  · exact eligible_of_provisional (mem_filter.mp hp).1

theorem plan_cases (h : (buildMultiVenuePlan request config).feasible = true) :
    (planShares request config = [] ∧
        ∃ venueId liquidity, Eligible request venueId ∧
          buildMultiVenuePlan request config = singleVenue request venueId liquidity) ∨
      (planShares request config ≠ [] ∧
        buildMultiVenuePlan request config = spreadPlan request (planShares request config)) := by
  unfold buildMultiVenuePlan at h ⊢
  unfold planShares
  by_cases htarget : (decimalToDouble request.targetQty).le .zero = true
  · rw [if_pos htarget] at h
    cases h
  rw [if_neg htarget] at h ⊢
  have hcandidate : ∀ c ∈ candidates request, Eligible request c.venueId :=
    fun c hc => eligible_of_candidate hc
  cases hcandidates : candidates request with
  | nil =>
      rw [hcandidates] at h
      cases h
  | cons c cs =>
      cases cs with
      | nil =>
          left
          exact ⟨by simp, c.venueId, c.liquidity, hcandidate c (by simp [hcandidates]), rfl⟩
      | cons c' cs =>
          rw [hcandidates] at h
          dsimp only at h ⊢
          by_cases htotal : zero.lt (totalLiquidity request) = true
          · have hguard : ¬ ((decimalToDouble request.targetQty).le .zero = true ∨
                (c :: c' :: cs).length < 2 ∨
                zero.lt (totalLiquidity request) = false) := by
              simp [htarget, htotal]
            rw [if_neg hguard, if_neg (by simp [htotal])]
            rw [if_neg (by simp [htotal])] at h
            cases hkept : kept request config with
            | nil =>
                left
                refine ⟨rfl, ?_⟩
                rw [hkept] at h
                dsimp only at h ⊢
                cases hbest : maxElement
                    (fun a b : Provisional => a.liquidity.lt b.liquidity)
                    (provisional request) with
                | none =>
                    rw [hbest] at h
                    cases h
                | some best =>
                    exact ⟨best.venueId, best.liquidity,
                      eligible_of_provisional (mem_of_maxElement hbest), rfl⟩
            | cons p ps =>
                right
                exact ⟨cons_ne_nil _ _, rfl⟩
          · rw [if_pos (by simpa using htotal)] at h
            cases h

theorem eligible_of_planShares (hp : p ∈ planShares request config) :
    Eligible request p.venueId := by
  unfold planShares at hp
  split at hp
  · cases hp
  · exact eligible_of_kept hp

theorem spreadPlan_feasible (hne : planShares request config ≠ []) :
    (buildMultiVenuePlan request config).feasible = true := by
  have hguard := hne
  unfold planShares at hguard
  split at hguard
  · exact (hguard rfl).elim
  rename_i hnot
  simp only [not_or, Bool.not_eq_true, Bool.not_eq_false] at hnot
  obtain ⟨htarget, hlength, htotal⟩ := hnot
  unfold buildMultiVenuePlan
  rw [if_neg (by simp [htarget])]
  cases hcandidates : candidates request with
  | nil => simp [hcandidates] at hlength
  | cons c cs =>
      cases cs with
      | nil => simp [hcandidates] at hlength
      | cons c' cs =>
          dsimp only
          rw [if_neg (by simp [htotal])]
          cases hkept : kept request config with
          | nil => exact (hguard hkept).elim
          | cons p ps => rfl

end Venues

section FanOut

theorem intentId_fanOutIntent_inj {intent : ExecutionIntent} {a b : VenueAllocation}
    (h : (fanOutIntent intent a).intentId = (fanOutIntent intent b).intentId) :
    a.venueId = b.venueId := by
  unfold fanOutIntent at h
  dsimp only at h
  split at h
  · simpa using h
  · simpa using h

theorem fanOut_spec {request : PlanRequest} {plan : PlanResult} (intent : ExecutionIntent)
    (hintent : intent.targetQty = request.targetQty) (hfeasible : plan.feasible = true)
    (hne : plan.allocations ≠ []) (hdistinct : (plan.allocations.map (fun a => a.venueId)).Nodup)
    (htotal : (plan.allocations.map (fun a => a.qty.toRat)).sum = request.targetQty.toRat) :
    ((fanOutIntentByPlan intent plan).map (fun i => i.intentId)).Nodup ∧
      ((fanOutIntentByPlan intent plan).map (fun i => i.targetQty.toRat)).sum =
        intent.targetQty.toRat := by
  unfold fanOutIntentByPlan
  rw [if_neg (by simp [hfeasible, hne])]
  split
  · simp
  · rw [List.map_map, List.map_map, hintent]
    refine ⟨?_, htotal⟩
    rw [List.Nodup, pairwise_map] at hdistinct ⊢
    exact hdistinct.imp (fun hab heq => hab (intentId_fanOutIntent_inj heq))

end FanOut

section Plans

variable {request : PlanRequest} {config : PlanConfig}

theorem spendsTarget_singleVenue {venueId : String} {liquidity : Double}
    (hpos : 0 < request.targetQty.units) (heligible : Eligible request venueId) :
    SpendsTarget request (singleVenue request venueId liquidity) where
  distinct := nodup_singleton _
  eligible := by
    intro a ha
    obtain rfl := mem_singleton.mp ha
    exact heligible
  positive := by
    intro a ha
    obtain rfl := mem_singleton.mp ha
    exact mul_pos (by exact_mod_cast hpos) (pow10_pos _)
  total := by simp [singleVenue]
  fanOut := by
    intro intent hintent
    exact fanOut_spec intent hintent rfl (cons_ne_nil _ _) (nodup_singleton _)
      (by simp [singleVenue])

theorem length_reconcile (targetQty : Decimal) (shares : List Provisional) :
    (reconcile targetQty shares).length = shares.length := by
  unfold reconcile
  dsimp only
  split <;> simp

theorem map_qty_spreadPlan (request : PlanRequest) (shares : List Provisional) :
    (spreadPlan request shares).allocations.map (fun a => a.qty) =
      reconcile request.targetQty shares := by
  unfold spreadPlan
  rw [map_zipWith, ← map_uncurry_zip_eq_zipWith]
  exact map_snd_zip (length_reconcile _ _).le

theorem map_venueId_spreadPlan (request : PlanRequest) (shares : List Provisional) :
    (spreadPlan request shares).allocations.map (fun a => a.venueId) =
      shares.map (fun p => p.venueId) := by
  unfold spreadPlan
  rw [map_zipWith, ← map_uncurry_zip_eq_zipWith]
  conv_rhs => rw [← map_fst_zip (length_reconcile request.targetQty shares).ge]
  rw [List.map_map]
  rfl

variable {shares : List Provisional}

section Spread

variable (hne : shares ≠ []) (hpos : 0 < request.targetQty.units)
  (hfit : ShareSumsFit request.targetQty shares)

include hne hpos hfit

theorem spreadPlan_total :
    ((spreadPlan request shares).allocations.map (fun a => a.qty.toRat)).sum =
      request.targetQty.toRat := by
  obtain ⟨before, after, largest, hreconcile, -, -, hlargest⟩ := reconcile_spec hne hpos hfit
  have hmap : (spreadPlan request shares).allocations.map (fun a => a.qty.toRat) =
      (reconcile request.targetQty shares).map (fun q => q.toRat) := by
    rw [← map_qty_spreadPlan, List.map_map]
    rfl
  rw [hmap, hreconcile]
  simp only [map_append, map_cons, sum_append, sum_cons] at hlargest ⊢
  rw [hlargest]
  ring

theorem spreadPlan_positive_iff :
    (∀ a ∈ (spreadPlan request shares).allocations, 0 < a.qty.toRat) ↔
      (∀ u ∈ otherUnits shares, 0 < u) ∧
        ((otherUnits shares).sum : ℚ) * (10 : ℚ) ^ (-(8 : Int)) < request.targetQty.toRat := by
  obtain ⟨before, after, largest, hreconcile, hothers, height, hlargest⟩ :=
    reconcile_spec hne hpos hfit
  have hlargestPos : 0 < largest.toRat ↔
      ((otherUnits shares).sum : ℚ) * (10 : ℚ) ^ (-(8 : Int)) < request.targetQty.toRat := by
    rw [hlargest, sum_toRat_eightPlaces height, hothers, sub_pos]
  have hotherPos : (∀ q ∈ before ++ after, 0 < q.toRat) ↔ ∀ u ∈ otherUnits shares, 0 < u := by
    rw [← hothers, List.forall_mem_map]
    refine forall₂_congr (fun q hq => ?_)
    rw [(height q hq).toRat, mul_pos_iff_of_pos_right (pow10_pos _)]
    exact_mod_cast Iff.rfl
  have hqtys : (∀ a ∈ (spreadPlan request shares).allocations, 0 < a.qty.toRat) ↔
      ∀ q ∈ reconcile request.targetQty shares, 0 < q.toRat := by
    rw [← map_qty_spreadPlan, List.forall_mem_map]
  rw [hqtys, hreconcile, ← hotherPos, ← hlargestPos]
  simp only [mem_append, mem_cons]
  constructor
  · intro h
    exact ⟨fun q hq => h q (hq.imp_right .inr), h largest (.inr (.inl rfl))⟩
  · rintro ⟨hrest, hlast⟩ q (hq | rfl | hq)
    · exact hrest q (.inl hq)
    · exact hlast
    · exact hrest q (.inr hq)

theorem spendsTarget_spreadPlan_iff (heligible : ∀ p ∈ shares, Eligible request p.venueId) :
    SpendsTarget request (spreadPlan request shares) ↔ SharesPositive request.targetQty shares := by
  have hvenues := map_venueId_spreadPlan request shares
  constructor
  · intro h
    obtain ⟨hothers, hbelow⟩ := (spreadPlan_positive_iff hne hpos hfit).mp h.positive
    exact ⟨hvenues ▸ h.distinct, hothers, hbelow⟩
  · intro h
    have hdistinct : ((spreadPlan request shares).allocations.map (fun a => a.venueId)).Nodup :=
      hvenues ▸ h.venues
    have htotal := spreadPlan_total hne hpos hfit
    refine ⟨hdistinct, ?_, (spreadPlan_positive_iff hne hpos hfit).mpr ⟨h.others, h.below⟩,
      htotal, ?_⟩
    · intro a ha
      have hvenue : a.venueId ∈ shares.map (fun p => p.venueId) :=
        hvenues ▸ mem_map_of_mem ha
      obtain ⟨p, hp, heq⟩ := mem_map.mp hvenue
      exact heq ▸ heligible p hp
    · intro intent hintent
      refine fanOut_spec intent hintent rfl ?_ hdistinct htotal
      intro hnil
      rw [hnil] at hvenues
      exact hne (map_eq_nil_iff.mp hvenues.symm)

end Spread

/-- A feasible plan is good exactly when its shares are positive. -/
theorem planSpends_iff (hpos : 0 < request.targetQty.units)
    (hfit : ShareSumsFit request.targetQty (planShares request config)) :
    PlanSpends request config ↔
      SharesPositive request.targetQty (planShares request config) := by
  by_cases hshares : planShares request config = []
  · have hpositive : SharesPositive request.targetQty (planShares request config) := by
      rw [hshares]
      have hposRat : 0 < request.targetQty.toRat :=
        mul_pos (Int.cast_pos.mpr hpos) (Decimal.pow10_pos _)
      refine ⟨List.nodup_nil, by simp [otherUnits], ?_⟩
      simpa [otherUnits] using hposRat
    refine iff_of_true (fun hfeasible => ?_) hpositive
    rcases plan_cases hfeasible with ⟨-, venueId, liquidity, heligible, hplan⟩ | ⟨hne, -⟩
    · rw [hplan]
      exact spendsTarget_singleVenue hpos heligible
    · exact (hne hshares).elim
  · have hfeasible := spreadPlan_feasible hshares
    rcases plan_cases hfeasible with ⟨hnil, -⟩ | ⟨-, hplan⟩
    · exact (hshares hnil).elim
    · rw [← spendsTarget_spreadPlan_iff hshares hpos hfit (fun _ => eligible_of_planShares),
        ← hplan]
      exact ⟨fun h => h hfeasible, fun h _ => h⟩

end Plans

section Targets

private def venueInput (venueId : String) (depth : ℚ) : PlannerVenueInput :=
  { venueId
    symbol := "BTC/USDT"
    curve :=
      { venueId, symbol := "BTC/USDT", askCurve := { qGrid := [.num depth], pOfQ := [.num 1] } }
    usable := true }

/-- Four tenths over a venue of depth three and one of depth one. -/
private def tenthsRequest : PlanRequest :=
  { symbol := "BTC/USDT"
    targetQty := Decimal.of 4 1
    plannerInputs := [venueInput "a" 3, venueInput "b" 1] }

/-- A billionth over two equal venues. -/
private def billionthRequest : PlanRequest :=
  { symbol := "BTC/USDT"
    targetQty := Decimal.of 1 9
    plannerInputs := [venueInput "a" 1, venueInput "b" 1] }

/-- Three tenths and one tenth spend the target. -/
theorem planSpends_tenths : PlanSpends tenthsRequest {} := by
  have hpositive : SharesPositive tenthsRequest.targetQty (planShares tenthsRequest {}) := by
    have hothers : otherUnits (planShares tenthsRequest {}) = [10000000] := by
      decide +kernel
    refine ⟨by decide +kernel, by decide +kernel, ?_⟩
    rw [hothers]
    norm_num [tenthsRequest, Decimal.toRat, Decimal.of]
  exact (planSpends_iff (by decide) (fun _ => by decide +kernel)).mpr hpositive

/-- The second of two equal venues is allocated nothing of a billionth. -/
theorem billionth_allocates_zero : ¬ PlanSpends billionthRequest {} := by
  intro h
  have hqtys : (buildMultiVenuePlan billionthRequest {}).allocations.map (fun a => a.qty) =
      [Decimal.of 1 9, Decimal.of 0 8] := by
    decide +kernel
  have hzero : Decimal.of 0 8 ∈
      (buildMultiVenuePlan billionthRequest {}).allocations.map (fun a => a.qty) := by
    rw [hqtys]
    simp
  obtain ⟨a, ha, hqty⟩ := List.mem_map.mp hzero
  have hpos := (h (by decide +kernel)).positive a ha
  rw [hqty] at hpos
  norm_num [Decimal.toRat, Decimal.of] at hpos

end Targets

end Planner
end Matching
end ContExchange
