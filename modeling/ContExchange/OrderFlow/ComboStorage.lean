import ContExchange.OrderFlow.ComboRows

/-!
# Order flow: what `InsertComboOrder` leaves in the tables

`StoredTables` are the combo tables with their foreign keys.  An inserted combo has its
row, and of its legs and constraints those whose ids were new (`inserted_of_insert`).
-/

namespace ContExchange
namespace OrderFlow

open Common Lib List
open Option hiding or or_assoc

section Filling

variable {α κ ν σ : Type} [DecidableEq κ]

theorem lookup_insertNew (t : Table κ ν) (k k' : κ) (v : ν) :
    (insertNew t k v).lookup k' = (t.lookup k').or (if k = k' then some v else none) := by
  unfold insertNew
  by_cases hk : k = k'
  · subst hk
    rw [if_pos rfl]
    cases hrow : t.lookup k with
    | none => simp
    | some w => simp [hrow]
  · rw [if_neg hk, or_none]
    split
    · rfl
    · rw [AList.lookup_insert_ne (Ne.symm hk)]

/-- A table after the rows of a list: a key that was there keeps its row, another one has
the row of the first with that key. -/
structure RowsInserted (key : α → κ) (rowOf : α → Option ν) (as : List α) (old new : Table κ ν) :
    Prop where
  rows : ∀ a ∈ as, (rowOf a).isSome
  lookup : ∀ k, new.lookup k = (old.lookup k).or ((as.find? (fun a => key a = k)).bind rowOf)

variable {key : α → κ} {rowOf : α → Option ν} {as : List α} {old new : Table κ ν}

theorem rowsInserted_of_foldlM
    {step : σ → α → Option σ} {table : σ → Table κ ν}
    (hstep : ∀ s a s', step s a = some s' →
      ∃ v, rowOf a = some v ∧ table s' = insertNew (table s) (key a) v)
    {s s' : σ} (h : as.foldlM step s = some s') :
    RowsInserted key rowOf as (table s) (table s') := by
  induction as generalizing s with
  | nil =>
      cases h
      exact ⟨fun a ha => absurd ha not_mem_nil, fun k => by simp⟩
  | cons a as ih =>
      rw [foldlM_cons, bind_eq_bind, bind_eq_some_iff] at h
      obtain ⟨s₁, hfirst, hrest⟩ := h
      obtain ⟨v, hrow, htable⟩ := hstep s a s₁ hfirst
      obtain ⟨hrows, hlookup⟩ := ih hrest
      refine ⟨?_, fun k => ?_⟩
      · intro b hb
        rcases mem_cons.mp hb with rfl | hb
        · rw [hrow]
          rfl
        · exact hrows b hb
      · rw [hlookup k, htable, lookup_insertNew, Option.or_assoc, find?_cons]
        by_cases hk : key a = k
        · simp [hk, hrow]
        · simp [hk]

theorem RowsInserted.lookup_old (h : RowsInserted key rowOf as old new) {k : κ} {v : ν}
    (hk : old.lookup k = some v) : new.lookup k = some v := by
  rw [h.lookup k, hk]
  rfl

theorem RowsInserted.lookup_cases
    (h : RowsInserted key rowOf as old new) {k : κ} {v : ν} (hk : new.lookup k = some v) :
    old.lookup k = some v ∨ old.lookup k = none ∧ ∃ a ∈ as, key a = k ∧ rowOf a = some v := by
  rw [h.lookup k] at hk
  cases hold : old.lookup k with
  | some w =>
      rw [hold] at hk
      exact Or.inl hk
  | none =>
      rw [hold, none_or, bind_eq_some_iff] at hk
      obtain ⟨a, hfind, hrow⟩ := hk
      refine Or.inr ⟨rfl, a, mem_of_find?_eq_some hfind, ?_, hrow⟩
      simpa using find?_some hfind

theorem RowsInserted.lookup_mem (h : RowsInserted key rowOf as old new)
    (hnodup : (as.map key).Nodup) {a : α} (ha : a ∈ as) (hnew : old.lookup (key a) = none) :
    new.lookup (key a) = rowOf a := by
  rw [h.lookup (key a), hnew, none_or]
  have hsome : (as.find? (fun b => key b = key a)).isSome := by
    rw [find?_isSome]
    exact ⟨a, ha, by simp⟩
  obtain ⟨b, hfind⟩ := isSome_iff_exists.mp hsome
  have hkey : key b = key a := by simpa using find?_some hfind
  have hb : b = a := inj_on_of_nodup_map hnodup (mem_of_find?_eq_some hfind) ha hkey
  rw [hfind, hb]
  rfl

end Filling

/-- The parents of the legs and of the constraints are stored. -/
structure ComboTables.References (t : ComboTables) : Prop where
  legs : ∀ k row, t.legs.lookup k = some row →
    (t.comboOrders.lookup row.parentOrderId).isSome
  constraints : ∀ k row, t.constraints.lookup k = some row →
    (t.comboOrders.lookup row.parentOrderId).isSome

structure StoredTables where
  tables : ComboTables
  references : tables.References

structure Inserted (combo : ComboOrder) (row : ComboOrderRow) (t t' : ComboTables) : Prop where
  valid : combo.validate = none
  stored : comboOrderRow combo = some row
  comboOrders : t'.comboOrders = insertNew t.comboOrders combo.comboOrderId row
  legs : RowsInserted Leg.legId (comboLegRow combo.comboOrderId) combo.legs t.legs t'.legs
  constraints :
    RowsInserted MultiLegConstraint.constraintId (comboConstraintRow combo.comboOrderId)
      combo.constraints t.constraints t'.constraints

section Insert

variable {combo : ComboOrder} {t t' : ComboTables}

variable {p : String}

theorem insertLeg_spec {leg : Leg} (h : insertLeg p t leg = some t') :
    ∃ row, comboLegRow p leg = some row ∧
      t' = { t with legs := insertNew t.legs leg.legId row } := by
  unfold insertLeg at h
  rw [bind_eq_bind, bind_eq_some_iff] at h
  obtain ⟨row, hrow, h⟩ := h
  split at h
  · exact ⟨row, hrow, (Option.some.inj h).symm⟩
  · cases h

theorem insertConstraint_spec {c : MultiLegConstraint} (h : insertConstraint p t c = some t') :
    ∃ row, comboConstraintRow p c = some row ∧
      t' = { t with constraints := insertNew t.constraints c.constraintId row } := by
  unfold insertConstraint at h
  rw [bind_eq_bind, bind_eq_some_iff] at h
  obtain ⟨row, hrow, h⟩ := h
  exact ⟨row, hrow, (Option.some.inj h).symm⟩

theorem inserted_of_insert (h : insertComboOrder combo t = some t') :
    ∃ row, Inserted combo row t t' := by
  unfold insertComboOrder at h
  split at h
  · cases h
  · rename_i hvalid
    rw [bind_eq_bind, bind_eq_some_iff] at h
    obtain ⟨row, hrow, h⟩ := h
    split at h
    · rw [bind_eq_bind, bind_eq_some_iff] at h
      obtain ⟨t₁, hlegs, hconstraints⟩ := h
      set t₀ := { t with comboOrders := insertNew t.comboOrders combo.comboOrderId row } with ht₀
      have hlegRows : RowsInserted Leg.legId (comboLegRow combo.comboOrderId) combo.legs
          t₀.legs t₁.legs := by
        refine rowsInserted_of_foldlM (fun s leg s' hstep => ?_) hlegs
        obtain ⟨row, hrow, rfl⟩ := insertLeg_spec hstep
        exact ⟨row, hrow, rfl⟩
      have hlegOthers : t₁.comboOrders = t₀.comboOrders ∧ t₁.constraints = t₀.constraints := by
        refine foldlM_invariant
          (P := fun s => s.comboOrders = t₀.comboOrders ∧ s.constraints = t₀.constraints)
          (fun leg _ s s' hs hstep => ?_) ⟨rfl, rfl⟩ hlegs
        obtain ⟨row, -, rfl⟩ := insertLeg_spec hstep
        exact hs
      have hconstraintRows : RowsInserted MultiLegConstraint.constraintId
          (comboConstraintRow combo.comboOrderId) combo.constraints
          t₁.constraints t'.constraints := by
        refine rowsInserted_of_foldlM (fun s c s' hstep => ?_) hconstraints
        obtain ⟨row, hrow, rfl⟩ := insertConstraint_spec hstep
        exact ⟨row, hrow, rfl⟩
      have hconstraintOthers : t'.comboOrders = t₁.comboOrders ∧ t'.legs = t₁.legs := by
        refine foldlM_invariant
          (P := fun s => s.comboOrders = t₁.comboOrders ∧ s.legs = t₁.legs)
          (fun c _ s s' hs hstep => ?_) ⟨rfl, rfl⟩ hconstraints
        obtain ⟨row, -, rfl⟩ := insertConstraint_spec hstep
        exact hs
      obtain ⟨horders, hrest⟩ := hlegOthers
      obtain ⟨horders', hlegs'⟩ := hconstraintOthers
      rw [hrest] at hconstraintRows
      rw [← hlegs'] at hlegRows
      exact ⟨row, by simpa using hvalid, hrow, horders'.trans horders, hlegRows, hconstraintRows⟩
    · cases h

theorem comboLegRow_parent {leg : Leg} {row : ComboLegRow} (h : comboLegRow p leg = some row) :
    row.parentOrderId = p := by
  simp only [comboLegRow, bind_eq_bind, bind_eq_some_iff] at h
  obtain ⟨side, -, prefs, -, hrow⟩ := h
  obtain ⟨-, hrow⟩ := ite_none_right_eq_some.mp hrow
  cases hrow
  rfl

theorem comboConstraintRow_parent {c : MultiLegConstraint} {row : ComboConstraintRow}
    (h : comboConstraintRow p c = some row) : row.parentOrderId = p := by
  simp only [comboConstraintRow, bind_eq_bind, bind_eq_some_iff] at h
  obtain ⟨coefficients, -, hrow⟩ := h
  obtain ⟨-, hrow⟩ := ite_none_right_eq_some.mp hrow
  cases hrow
  rfl

end Insert

end OrderFlow
end ContExchange
