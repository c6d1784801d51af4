import ContExchange.Matching.ActiveGroups
import ContExchange.Matching.NumericColumns

/-!
# Matching: names and coefficients on their way through the database

The venue preferences of a leg go through an array text and a comma-separated text, the
coefficients of a constraint through an object text; the writer escapes nothing.
`venues_exact_iff` and `coefficients_survive_iff` say when they come back.
-/

namespace ContExchange
namespace Matching

open Common Lib AList Table
open List hiding map_map mem_map
open Option hiding map map_map mem_map
open OrderFlow (venuePrefsArray coefficientsJson)

/-- A venue name that the array text and the comma-separated text keep. -/
def PlainVenue (s : String) : Prop :=
  s ≠ "" ∧ PlainText s.toList ∧ ',' ∉ s.toList

section Venues

variable {v : List String} {elems : List (Option (List Char))}

theorem venuePrefsArray_eq (v : List String) :
    venuePrefsArray v = quotedArray (v.map String.toList) := by
  unfold venuePrefsArray quotedArray
  rw [List.map_map]
  rfl

theorem count_venuePrefsArray (v : List String) :
    (venuePrefsArray v).count '\\' = (v.map (fun s => s.toList.count '\\')).sum := by
  unfold venuePrefsArray
  rw [count_append, count_cons, count_intercalate (by decide), List.map_map]
  simp [Function.comp_def]

theorem elementsWeight_eq (elems : List (Option (List Char))) :
    escapeWeight (arrayToString elems) = elementsWeight elems := by
  unfold arrayToString elementsWeight
  rw [escapeWeight_intercalate]
  induction elems with
  | nil => rfl
  | cons e elems ih =>
      cases e with
      | none => simpa using ih
      | some s => simpa using ih

theorem escapeWeight_splitCsv (csv : List Char) :
    ((splitCsv csv).map escapeWeight).sum ≤ escapeWeight csv := by
  have hsub : ((splitCsv csv).map escapeWeight).Sublist ((csv.splitOn ',').map escapeWeight) :=
    filter_sublist.map escapeWeight
  calc ((splitCsv csv).map escapeWeight).sum
      ≤ ((csv.splitOn ',').map escapeWeight).sum := hsub.sum_le_sum (fun n _ => Nat.zero_le n)
    _ = escapeWeight ([','].intercalate (csv.splitOn ',')) := (escapeWeight_intercalate _).symm
    _ = escapeWeight csv := by rw [intercalate_splitOn]

theorem venues_exact_iff (h : arrayElements (venuePrefsArray v) = some elems) :
    (splitCsv (arrayToString elems)).map String.ofList = v ↔ ∀ s ∈ v, PlainVenue s := by
  constructor
  · intro heq
    have hlists : splitCsv (arrayToString elems) = v.map String.toList := by
      rw [← heq, List.map_map]
      simp [Function.comp_def]
    have hweight : ((v.map String.toList).map escapeWeight).sum ≤
        ((v.map String.toList).map (List.count '\\')).sum := by
      calc ((v.map String.toList).map escapeWeight).sum
          = ((splitCsv (arrayToString elems)).map escapeWeight).sum := by rw [hlists]
        _ ≤ escapeWeight (arrayToString elems) := escapeWeight_splitCsv _
        _ = elementsWeight elems := elementsWeight_eq elems
        _ ≤ (venuePrefsArray v).count '\\' := elementsWeight_arrayElements h
        _ = _ := by rw [count_venuePrefsArray, List.map_map]; rfl
    intro s hs
    have hmem : s.toList ∈ splitCsv (arrayToString elems) := by
      rw [hlists]
      exact mem_map_of_mem hs
    obtain ⟨hfield, hne⟩ := mem_filter.mp hmem
    refine ⟨?_, plainText_of_weights hweight _ (mem_map_of_mem hs), notMem_of_mem_splitOn hfield⟩
    rintro rfl
    simp at hne
  · intro hplain
    have hread : elems = (v.map String.toList).map some := by
      rw [venuePrefsArray_eq, arrayElements_quotedArray] at h
      · exact (Option.some.inj h).symm
      · intro s hs
        obtain ⟨name, hname, rfl⟩ := List.mem_map.mp hs
        exact (hplain name hname).2.1
    have hfields : (v.map String.toList).filter (fun field => decide (field ≠ [])) =
        v.map String.toList := by
      rw [filter_eq_self]
      intro s hs
      obtain ⟨name, hname, rfl⟩ := List.mem_map.mp hs
      simpa using (hplain name hname).1
    have hcsv : splitCsv (arrayToString elems) = v.map String.toList := by
      unfold splitCsv arrayToString
      rw [hread]
      by_cases hne : v = []
      · subst hne
        rfl
      · have hjoin : ((v.map String.toList).map some).filterMap id = v.map String.toList := by
          simp
        rw [hjoin, splitOn_intercalate ',' ?_ (by simpa using hne), hfields]
        intro s hs
        obtain ⟨name, hname, rfl⟩ := List.mem_map.mp hs
        exact (hplain name hname).2.2
    rw [hcsv, List.map_map]
    simp [Function.comp_def]

end Venues

section Coefficients

variable {m : Table String Decimal} {t : Table (List Char) (List Char)}

/-- The members that are written for a table of coefficients. -/
def writtenMembers (m : Table String Decimal) : List (List Char × List Char) :=
  m.entries.map (fun e => (e.1.toList, e.2.toStringText))

theorem coefficientsJson_eq (m : Table String Decimal) :
    coefficientsJson m = quotedObject (writtenMembers m) := by
  unfold coefficientsJson quotedObject writtenMembers
  rw [List.map_map]
  rfl

theorem mem_writtenMembers {k v : List Char} :
    (k, v) ∈ writtenMembers m ↔
      ∃ d, m.lookup (String.ofList k) = some d ∧ v = d.toStringText := by
  unfold writtenMembers
  rw [List.mem_map]
  constructor
  · rintro ⟨e, he, heq⟩
    cases heq
    exact ⟨e.2, by rw [String.ofList_toList]; exact mem_lookup_iff.mpr he, rfl⟩
  · rintro ⟨d, hd, rfl⟩
    exact ⟨⟨String.ofList k, d⟩, mem_lookup_iff.mp hd, by simp⟩

theorem nodup_writtenMembers (m : Table String Decimal) :
    ((writtenMembers m).map Prod.fst).Nodup := by
  have hkeys : (writtenMembers m).map Prod.fst = (m.entries.map Sigma.fst).map String.toList := by
    unfold writtenMembers
    rw [List.map_map, List.map_map]
    rfl
  rw [hkeys]
  exact m.nodupKeys.map (fun a b hab => String.toList_inj.mp hab)

theorem plainText_toStringText (d : Decimal) : PlainText d.toStringText := by
  intro c hc
  rcases mem_toStringText hc with rfl | rfl | hdigit
  · decide
  · decide
  · constructor <;> rintro rfl <;> revert hdigit <;> decide

theorem lookup_loadCoefficients {m' : Table String Decimal} (h : loadCoefficients t = some m')
    (s : String) : m'.lookup s = (t.lookup s.toList).bind parsePgNumericText := by
  unfold loadCoefficients at h
  obtain ⟨entries, hentries, rfl⟩ := map_eq_some_iff.mp h
  have hrel := mapM_eq_some_iff.mp hentries
  have hkeys : entries.map Prod.fst = (t.entries.map Sigma.fst).map String.ofList := by
    rw [List.map_map]
    refine map_eq_of_forall₂ (fun e q hq => ?_) hrel
    obtain ⟨d, -, hd⟩ := map_eq_some_iff.mp hq
    rw [← hd]
    rfl
  have hnodup : (entries.map Prod.fst).Nodup := by
    rw [hkeys]
    exact t.nodupKeys.map (fun a b hab => String.ofList_injective hab)
  apply Option.ext
  intro d
  constructor
  · intro hd
    rcases mem_of_lookup_foldl_insert hd with hmem | hempty
    · obtain ⟨e, he, hq⟩ := exists_of_mem_forall₂ hrel hmem
      obtain ⟨d', hparse, heq⟩ := map_eq_some_iff.mp hq
      cases heq
      rw [String.toList_ofList, mem_lookup_iff.mpr he]
      exact hparse
    · cases hempty
  · intro hd
    obtain ⟨text, htext, hparse⟩ := bind_eq_some_iff.mp hd
    obtain ⟨q, hq, hrow⟩ := exists_of_mem_forall₂ hrel.flip (mem_lookup_iff.mp htext)
    obtain ⟨d', hparse', heq⟩ := map_eq_some_iff.mp hrow
    rw [hparse] at hparse'
    cases hparse'
    rw [String.ofList_toList] at heq
    exact lookup_foldl_insert_of_mem hnodup (heq ▸ hq)

theorem isSome_loadCoefficients :
    (loadCoefficients t).isSome ↔
      ∀ k text, t.lookup k = some text → (parsePgNumericText text).isSome := by
  unfold loadCoefficients
  rw [isSome_map, isSome_mapM_iff]
  constructor
  · intro h k text hk
    simpa using h ⟨k, text⟩ (mem_lookup_iff.mp hk)
  · intro h e he
    simpa using h e.1 e.2 (mem_lookup_iff.mpr he)

theorem count_coefficientsJson {c : Char} (hc : c = '\\' ∨ c = 'u') (m : Table String Decimal) :
    (coefficientsJson m).count c = (m.entries.map (fun e => e.1.toList.count c)).sum := by
  have hvalue : ∀ d : Decimal, d.toStringText.count c = 0 := by
    intro d
    rw [count_eq_zero]
    intro hmem
    rcases mem_toStringText hmem with rfl | rfl | hdigit
    · rcases hc with hc | hc <;> revert hc <;> decide
    · rcases hc with hc | hc <;> revert hc <;> decide
    · rcases hc with rfl | rfl <;> revert hdigit <;> decide
  unfold coefficientsJson
  rcases hc with rfl | rfl
  all_goals
    rw [count_append, count_cons, count_intercalate (by decide), List.map_map]
    simp [Function.comp_def, count_append, hvalue]

theorem plainKeys_of_objectMembers (h : objectMembers (coefficientsJson m) = some t)
    (hkeys : ∀ k d, m.lookup k = some d → (t.lookup k.toList).isSome) :
    ∀ k d, m.lookup k = some d → PlainText k.toList := by
  have hnodup := nodup_writtenMembers m
  have hlist : (writtenMembers m).map Prod.fst = m.entries.map (fun e => e.1.toList) := by
    unfold writtenMembers
    rw [List.map_map]
    rfl
  have hweight := keyWeight_objectMembers h hnodup (by
    intro k hk
    rw [hlist] at hk
    obtain ⟨e, he, rfl⟩ := List.mem_map.mp hk
    exact hkeys e.1 e.2 (mem_lookup_iff.mpr he))
  rw [sum_escapeCredit, count_coefficientsJson (Or.inl rfl), count_coefficientsJson (Or.inr rfl),
    hlist, List.map_map] at hweight
  have hplain : ∀ k ∈ m.entries.map (fun e => e.1.toList), PlainText k := by
    refine plainText_of_weights ?_
    have hsplit : (m.entries.map (keyWeight ∘ fun e => e.1.toList)).sum =
        (m.entries.map (escapeWeight ∘ fun e => e.1.toList)).sum +
          (m.entries.map (fun e => e.1.toList.count 'u')).sum := by
      rw [← sum_map_add]
      rfl
    rw [List.map_map, List.map_map]
    rw [hsplit] at hweight
    exact Nat.le_of_add_le_add_right hweight
  intro k d hk
  exact hplain _ (mem_map_of_mem (mem_lookup_iff.mp hk))

theorem lookup_objectMembers (h : objectMembers (coefficientsJson m) = some t)
    (hplain : ∀ k d, m.lookup k = some d → PlainText k.toList) (s : String) :
    t.lookup s.toList = (m.lookup s).map Decimal.toStringText := by
  rw [coefficientsJson_eq] at h
  have hread := objectMembers_quotedObject (by
    intro q hq
    obtain ⟨d, hd, htext⟩ := mem_writtenMembers.mp (show (q.1, q.2) ∈ writtenMembers m from hq)
    refine ⟨?_, htext ▸ plainText_toStringText d⟩
    have hk := hplain _ _ hd
    rwa [String.toList_ofList] at hk) h
  apply Option.ext
  intro text
  rw [hread]
  constructor
  · intro hrow
    rcases mem_of_lookup_foldl_insert hrow with hmem | hempty
    · obtain ⟨d, hd, rfl⟩ := mem_writtenMembers.mp hmem
      rw [String.ofList_toList] at hd
      rw [hd]
      rfl
    · cases hempty
  · intro hrow
    obtain ⟨d, hd, rfl⟩ := map_eq_some_iff.mp hrow
    refine lookup_foldl_insert_of_mem (nodup_writtenMembers m) ?_
    exact mem_writtenMembers.mpr ⟨d, by rwa [String.ofList_toList], rfl⟩

theorem coefficients_survive_iff (h : objectMembers (coefficientsJson m) = some t)
    (hprints : ∀ k d, m.lookup k = some d → pow10I d.scale ≠ 0) :
    (∃ m', loadCoefficients t = some m' ∧
        ∀ s, (m'.lookup s).map Decimal.toRat = (m.lookup s).map Decimal.toRat) ↔
      ∀ k d, m.lookup k = some d → PlainText k.toList ∧ TextExact d := by
  constructor
  · rintro ⟨m', hload, hsame⟩ k d hk
    have hplain : ∀ k d, m.lookup k = some d → PlainText k.toList := by
      refine plainKeys_of_objectMembers h (fun k d hk => ?_)
      have hmap := hsame k
      rw [hk, map_some, map_eq_some_iff] at hmap
      obtain ⟨d', hd', -⟩ := hmap
      rw [lookup_loadCoefficients hload, bind_eq_some_iff] at hd'
      obtain ⟨text, htext, -⟩ := hd'
      rw [htext]
      rfl
    refine ⟨hplain k d hk, ?_⟩
    have hmap := hsame k
    rw [lookup_loadCoefficients hload, lookup_objectMembers h hplain, hk, map_some,
      bind_some, map_some, map_eq_some_iff] at hmap
    exact (roundTrips_iff_textExact (hprints k d hk)).mp hmap
  · intro hok
    have hlookup := lookup_objectMembers h (fun k d hk => (hok k d hk).1)
    have hparses : (loadCoefficients t).isSome := by
      rw [isSome_loadCoefficients]
      intro k text hk
      have hk' := hlookup (String.ofList k)
      rw [String.toList_ofList, hk] at hk'
      obtain ⟨d, hd, rfl⟩ := map_eq_some_iff.mp hk'.symm
      obtain ⟨d', hparse, -⟩ := (roundTrips_iff_textExact (hprints _ d hd)).mpr (hok _ d hd).2
      exact isSome_iff_exists.mpr ⟨d', hparse⟩
    obtain ⟨m', hload⟩ := isSome_iff_exists.mp hparses
    refine ⟨m', hload, fun s => ?_⟩
    rw [lookup_loadCoefficients hload, hlookup]
    cases hs : m.lookup s with
    | none => rfl
    | some d =>
        obtain ⟨d', hparse, hval⟩ := (roundTrips_iff_textExact (hprints s d hs)).mpr (hok s d hs).2
        unfold Common.toPgNumeric at hparse
        rw [map_some, bind_some, hparse, map_some, map_some, hval]

end Coefficients

end Matching
end ContExchange
