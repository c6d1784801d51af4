import ContExchange.Backtest.ReplaySession
import Mathlib.Data.List.Infix
import Mathlib.Data.List.TakeWhile

/-!
# Backtest: what a replay covers

A replay goes through its history once.  A batch whose id was seen before is run again: with
`RestoreState` its step is replaced, and with the shadow ledger alone the journal goes back to
before its first step.

* `keptIds`: the ids whose steps are left, batch by batch;
* `NoRewind`: no id comes again after another one;
* `Covers`: the invariant of a run;
* `replay_coverage`: the journal, the progress, the summary and its flag, for every run among
  any cancels;
* `replay_not_covered`: sessions that complete without covering their history, or with the
  flag.
-/

namespace ContExchange
namespace Backtest

open Common Lib AList List Option Table
open ReplayAction ReplaySession ReplayStepJournal ReplayStepJournalEntry
open CancelReplaySession hiding loaded

section Rewind

variable {α : Type*} [DecidableEq α]

/-- One more id; a known one is kept where it is, or goes back to its place. -/
def keep (rewinds : Bool) (order : List α) (id : α) : List α :=
  if id ∈ order then
    if rewinds then order.takeWhile (fun id' => id' ≠ id) ++ [id] else order
  else order ++ [id]

/-- The ids that are left of a history. -/
def keptIds (rewinds : Bool) (ids : List α) : List α :=
  ids.foldl (keep rewinds) []

/-- An id comes again only right after itself. -/
def NoRewind (ids : List α) : Prop :=
  ∀ before id after, ids = before ++ id :: after → id ∈ before → before.getLast? = some id

variable {rewinds : Bool} {order ids : List α} {id : α}

theorem keptIds_concat (ids : List α) (id : α) :
    keptIds rewinds (ids ++ [id]) = keep rewinds (keptIds rewinds ids) id := by
  unfold keptIds
  rw [foldl_append]
  rfl

theorem eraseDups_concat (ids : List α) (id : α) :
    (ids ++ [id]).eraseDups = if id ∈ ids then ids.eraseDups else ids.eraseDups ++ [id] := by
  rw [eraseDups_append]
  split
  · rename_i hmem
    have hnone : [id].removeAll ids = [] := by
      simp [List.removeAll, hmem]
    rw [hnone, eraseDups_nil, append_nil]
  · rename_i hmem
    have hone : [id].removeAll ids = [id] := by
      simp [List.removeAll, hmem]
    rw [hone]
    rfl

theorem mem_eraseDups {ids : List α} : id ∈ ids.eraseDups ↔ id ∈ ids := by
  induction ids using List.reverseRecOn with
  | nil => exact Iff.rfl
  | append_singleton ids last ih =>
      rw [eraseDups_concat]
      split
      · rename_i hmem
        rw [ih, mem_append, mem_singleton]
        constructor
        · exact Or.inl
        · rintro (h | rfl)
          · exact h
          · exact hmem
      · rw [mem_append, mem_append, ih]

theorem nodup_eraseDups (ids : List α) : ids.eraseDups.Nodup := by
  induction ids using List.reverseRecOn with
  | nil => exact nodup_nil
  | append_singleton ids last ih =>
      rw [eraseDups_concat]
      split
      · exact ih
      · rename_i hmem
        rw [nodup_append]
        refine ⟨ih, nodup_singleton last, ?_⟩
        rintro a ha b hb rfl
        rw [mem_singleton.mp hb] at ha
        exact hmem (mem_eraseDups.mp ha)

theorem length_le_eraseDups (hnodup : order.Nodup) (hsub : ∀ id ∈ order, id ∈ ids) :
    order.length ≤ ids.eraseDups.length :=
  (subperm_of_subset hnodup fun _ h => mem_eraseDups.mpr (hsub _ h)).length_le

theorem keptIds_false (ids : List α) : keptIds false ids = ids.eraseDups := by
  induction ids using List.reverseRecOn with
  | nil => rfl
  | append_singleton ids last ih =>
      rw [keptIds_concat, eraseDups_concat, ih, keep]
      simp only [mem_eraseDups, Bool.false_eq_true, if_false]

omit [DecidableEq α] in
theorem NoRewind.of_append {ids' : List α} (h : NoRewind (ids ++ ids')) : NoRewind ids := by
  intro before id after heq hmem
  exact h before id (after ++ ids') (by rw [heq, append_assoc]; rfl) hmem

theorem takeWhile_append_of_getLast? (hnodup : order.Nodup) (h : order.getLast? = some id) :
    order.takeWhile (fun id' => id' ≠ id) ++ [id] = order := by
  obtain ⟨init, rfl⟩ := getLast?_eq_some_iff.mp h
  rw [nodup_append] at hnodup
  have hne : ∀ a ∈ init, decide (a ≠ id) = true := by
    intro a ha
    exact decide_eq_true fun heq => hnodup.2.2 a ha id mem_cons_self heq
  rw [takeWhile_append_of_pos hne, takeWhile_cons_of_neg (by simp), append_nil]

theorem NoRewind.keptIds_eq (h : NoRewind ids) :
    keptIds true ids = ids.eraseDups ∧ ids.eraseDups.getLast? = ids.getLast? := by
  induction ids using List.reverseRecOn with
  | nil => exact ⟨rfl, rfl⟩
  | append_singleton ids last ih =>
      obtain ⟨hkept, hlast⟩ := ih h.of_append
      rw [keptIds_concat, eraseDups_concat, hkept, keep, getLast?_concat]
      simp only [mem_eraseDups, if_true]
      split
      · rename_i hmem
        have hends := hlast.trans (h ids last [] rfl hmem)
        exact ⟨takeWhile_append_of_getLast? (nodup_eraseDups ids) hends, hends⟩
      · exact ⟨rfl, getLast?_concat⟩

end Rewind

open RunReplaySession

structure JournalOk (req : ReplayRequest) (j : ReplayStepJournal) : Prop where
  nodup : j.order.Nodup
  ids : ∀ id ∈ j.order, id ∈ batchIds req
  found : ∀ id, (j.entries.lookup id).isSome = true ↔ id ∈ j.order
  keyed : ∀ id, ∀ entry ∈ j.entries.lookup id, entry.batchId = id

section Journals

variable {req : ReplayRequest} {j : ReplayStepJournal}

theorem journalOk_nil : JournalOk req {} where
  nodup := nodup_nil
  ids := fun id h => absurd h not_mem_nil
  found := fun id => by
    simp
  keyed := fun id entry h => by
    cases h

theorem JournalOk.contains_iff (h : JournalOk req j) (id : String) :
    j.contains id = true ↔ id ∈ j.order :=
  h.found id

theorem JournalOk.length_le (h : JournalOk req j) : j.order.length ≤ totalBatches req :=
  length_le_eraseDups h.nodup h.ids

theorem JournalOk.truncate (h : JournalOk req j) (id : String) :
    JournalOk req (j.truncateFromBatch id) where
  nodup := h.nodup.sublist (takeWhile_sublist _)
  ids := fun id' h' => h.ids id' (takeWhile_subset _ h')
  found := fun id' => by
    unfold truncateFromBatch
    rw [lookup_foldl_erase]
    have hsplit := take_append_drop (j.order.takeWhile (fun id' => id' ≠ id)).length j.order
    rw [← prefix_iff_eq_take.mp (List.takeWhile_prefix _)] at hsplit
    have hnodup := h.nodup
    rw [← hsplit, nodup_append] at hnodup
    have hmem : id' ∈ j.order ↔ id' ∈ j.order.takeWhile (fun id' => id' ≠ id) ∨
        id' ∈ j.order.drop (j.order.takeWhile (fun id' => id' ≠ id)).length := by
      conv_lhs => rw [← hsplit]
      exact mem_append
    split
    · rename_i hdropped
      constructor
      · intro hfalse
        cases hfalse
      · intro hkept
        exact absurd rfl (hnodup.2.2 id' hkept id' hdropped)
    · rename_i hdropped
      rw [h.found, hmem]
      exact or_iff_left hdropped
  keyed := fun id' entry h' => by
    unfold truncateFromBatch at h'
    rw [lookup_foldl_erase] at h'
    split at h'
    · cases h'
    · exact h.keyed id' entry h'

theorem JournalOk.upsert (h : JournalOk req j) {entry : ReplayStepJournalEntry}
    (hid : entry.batchId ∈ batchIds req) : JournalOk req (j.upsert entry) := by
  unfold ReplayStepJournal.upsert
  split
  · exact h
  · have horder : ∀ id, id ∈ (if j.contains entry.batchId = true then j.order
        else j.order ++ [entry.batchId]) ↔ id ∈ j.order ∨ id = entry.batchId := by
      intro id
      split
      · rename_i hin
        constructor
        · exact Or.inl
        · rintro (hid' | rfl)
          · exact hid'
          · exact (h.contains_iff _).mp hin
      · rw [mem_append, mem_singleton]
    refine ⟨?_, ?_, ?_, ?_⟩
    · split
      · exact h.nodup
      · rename_i hnot
        rw [nodup_append]
        refine ⟨h.nodup, nodup_singleton _, ?_⟩
        rintro a ha b hb rfl
        rw [mem_singleton.mp hb] at ha
        exact hnot ((h.contains_iff _).mpr ha)
    · intro id hmem
      rcases (horder id).mp hmem with hold | rfl
      · exact h.ids id hold
      · exact hid
    · intro id
      rw [horder]
      by_cases heq : id = entry.batchId
      · subst heq
        simp
      · rw [lookup_insert_ne heq, h.found, or_iff_left heq]
    · intro id entry' hentry
      by_cases heq : id = entry.batchId
      · subst heq
        rw [lookup_insert] at hentry
        cases hentry
        rfl
      · rw [lookup_insert_ne heq] at hentry
        exact h.keyed id entry' hentry

theorem JournalOk.orderedEntries (h : JournalOk req j) :
    j.orderedEntries.map batchId = j.order := by
  have hsteps : ∀ order : List String, (∀ id ∈ order, id ∈ j.order) →
      (order.filterMap j.entries.lookup).map batchId = order := by
    intro order
    induction order with
    | nil => exact fun _ => rfl
    | cons id order ih =>
        intro hin
        obtain ⟨entry, hentry⟩ := isSome_iff_exists.mp ((h.found id).mpr (hin id mem_cons_self))
        have hcons : (id :: order).filterMap (fun id => j.entries.lookup id) =
            entry :: order.filterMap (fun id => j.entries.lookup id) :=
          filterMap_cons_some hentry
        rw [hcons, map_cons, h.keyed id entry hentry,
          ih (fun id' hid' => hin id' (mem_cons_of_mem id hid'))]
  exact hsteps j.order fun _ hid => hid

theorem foldl_add_counts (entries : List ReplayStepJournalEntry) (t : SummaryTotals) :
    (entries.foldl (fun t entry => ReplayStepJournal.SummaryTotals.add t entry.execution)
        t).processedBatches +
      (entries.foldl (fun t entry => ReplayStepJournal.SummaryTotals.add t entry.execution)
        t).failedBatches = t.processedBatches + t.failedBatches + entries.length := by
  induction entries generalizing t with
  | nil => rfl
  | cons entry entries ih =>
      rw [foldl_cons, ih, length_cons]
      unfold ReplayStepJournal.SummaryTotals.add
      dsimp only
      split <;> omega

theorem JournalOk.summary_counts (h : JournalOk req j) (sqrt : Double → Double)
    (sessionId : String) (total : Nat) (avgisRule decisionPriceSource : String) :
    (j.buildSummary sqrt sessionId total avgisRule decisionPriceSource).processedBatches +
      (j.buildSummary sqrt sessionId total avgisRule decisionPriceSource).failedBatches =
        j.order.length := by
  have hlength : j.orderedEntries.length = j.order.length := by
    rw [← length_map (f := batchId), h.orderedEntries]
  refine (foldl_add_counts j.orderedEntries {}).trans ?_
  rw [hlength]
  exact Nat.zero_add _

end Journals

/-- What a run leaves where it returns. -/
def EndOk (req : ReplayRequest) : RunEnd → ReplayResult → Prop
  | .skipped, result =>
      result.summary.isPartial = decide (result.finalStatus ≠ .completed)
  | .failedFromInit, result => result.finalStatus = .failed ∧ result.summary.isPartial = true
  | .cancelledBeforeRunning, result =>
      result.finalStatus = .cancelled ∧ result.summary.isPartial = true
  | .replayed j, result =>
      JournalOk req j ∧
        result.summary.toReplaySummary =
          j.buildSummary req.sqrt req.sessionId (totalBatches req) req.avgisRule
            req.decisionPriceSource ∧
        result.finalStatus.terminal = true ∧
        (result.summary.isPartial = true ↔
          result.finalStatus = .failed ∨ j.order.length < totalBatches req ∨
            (result.finalStatus = .completed ∧ 0 < result.summary.failedBatches)) ∧
        (result.finalStatus = .completed →
          j.order = keptIds (req.restore = .shadowLedger) (batchIds req))

/-- A progress that is published is within its total. -/
def EventOk (req : ReplayRequest) : ReplayEvent → Prop
  | .progress batchSeq total => batchSeq ≤ total ∧ total = totalBatches req
  | .lifecycle _ _ _ _ => True

def RunPc.Covers (req : ReplayRequest) : RunPc → Prop
  | .loop rest j =>
      JournalOk req j ∧
        ∃ seen, req.history = seen ++ rest ∧
          j.order = keptIds (req.restore = .shadowLedger) (seen.map HistoricalBatch.batchId)
  | .doing action next => (∀ event, action = .publish event → EventOk req event) ∧ next.Covers req
  | .finished runEnd result => EndOk req runEnd result
  | .load | .checkStart _ | .recheck | .checkLoaded => True

section Covers

variable (req : ReplayRequest)

theorem covers_after {actions : List ReplayAction} {next : RunPc}
    (hactions : ∀ event, publish event ∈ actions → EventOk req event)
    (hnext : next.Covers req) : (RunPc.after actions next).Covers req := by
  induction actions with
  | nil => exact hnext
  | cons action actions ih =>
      refine ⟨?_, ih fun event hevent => hactions event (mem_cons_of_mem action hevent)⟩
      rintro event rfl
      exact hactions event mem_cons_self

theorem covers_failFromInit (errorCode error : String) :
    (failFromInit req errorCode error).Covers req := by
  refine covers_after req ?_ ⟨rfl, rfl⟩
  intro event hevent
  simp only [mem_cons, reduceCtorEq, publish.injEq, not_mem_nil, or_false, false_or] at hevent
  rw [hevent]
  trivial

theorem covers_cancelBeforeRunning (total processed : Nat) (details : String) :
    (cancelBeforeRunning req total processed details).Covers req := by
  refine covers_after req ?_ ⟨rfl, rfl⟩
  intro event hevent
  simp only [mem_cons, reduceCtorEq, publish.injEq, not_mem_nil, or_false, false_or] at hevent
  rw [hevent]
  trivial

variable {j : ReplayStepJournal}

theorem covers_finish (hj : JournalOk req j)
    (finalStatus : ReplaySessionStatus) (hterminal : finalStatus.terminal = true)
    (hcompleted : finalStatus = .completed →
      j.order = keptIds (req.restore = .shadowLedger) (batchIds req))
    (errorCode errorDetails : String) :
    (finish req j finalStatus errorCode errorDetails).Covers req := by
  refine covers_after req ?_ ⟨hj, rfl, hterminal, ?_, hcompleted⟩
  · intro event hevent
    simp only [mem_cons, reduceCtorEq, publish.injEq, not_mem_nil, or_false, false_or] at hevent
    rw [hevent]
    trivial
  · cases finalStatus with
    | pending => cases hterminal
    | running => cases hterminal
    | completed => simp [or_comm]
    | failed => simp
    | cancelled => simp

theorem restartBatch_ok {ans : BatchAnswers} {j j' : ReplayStepJournal} (hj : JournalOk req j)
    {id : String} (h : restartBatch req ans j id = .ok j') :
    JournalOk req j' ∧
      ∀ entry : ReplayStepJournalEntry, entry.batchId = id → id ≠ "" →
        (j'.upsert entry).order = keep (req.restore = .shadowLedger) j.order id := by
  have hupsert : ∀ {entry : ReplayStepJournalEntry}, entry.batchId = id → id ≠ "" →
      (j'.upsert entry).order = if j'.contains id then j'.order else j'.order ++ [id] := by
    rintro entry rfl hne
    unfold upsert
    rw [if_neg hne]
  unfold restartBatch at h
  unfold keep
  split at h
  · rename_i hin
    rw [if_pos ((hj.contains_iff id).mp hin)]
    cases hrestore : req.restore with
    | restoreState =>
        rw [hrestore] at h
        dsimp only at h
        split at h
        · cases h
        · cases h
          refine ⟨hj, fun entry hid hne => ?_⟩
          rw [hupsert hid hne, if_pos hin, if_neg (by decide)]
    | missing =>
        rw [hrestore] at h
        cases h
    | shadowLedger =>
        rw [hrestore] at h
        dsimp only at h
        split at h
        · cases h
        · cases h
          have htruncated := hj.truncate id
          refine ⟨htruncated, fun entry hid hne => ?_⟩
          have hout : ¬ (j.truncateFromBatch id).contains id = true := by
            rw [htruncated.contains_iff]
            intro hmem
            have hne' := mem_takeWhile_imp hmem
            simp at hne'
          rw [hupsert hid hne, if_neg hout]
          rfl
  · rename_i hin
    cases h
    rw [if_neg (fun hmem => hin ((hj.contains_iff id).mpr hmem))]
    refine ⟨hj, fun entry hid hne => ?_⟩
    rw [hupsert hid hne, if_neg hin]

variable {batch : HistoricalBatch}

theorem batchExecution_of_empty (ans : BatchAnswers)
    (h : batch.batchId = "") : (batchExecution ans batch).outcome = .hardFailure := by
  unfold batchExecution validateBatchInputs
  rw [if_pos h]
  rfl

theorem runBatch_cases (ans : BatchAnswers) (rest : List HistoricalBatch) (hj : JournalOk req j)
    (hid : batch.batchId ∈ batchIds req) :
    (∃ j' errorCode errorDetails, JournalOk req j' ∧
      runBatch req ans batch rest j = finish req j' .failed errorCode errorDetails) ∨
    ∃ j' : ReplayStepJournal, JournalOk req j' ∧
      j'.order = keep (req.restore = .shadowLedger) j.order batch.batchId ∧
      runBatch req ans batch rest j =
        .after
          [.publish (.progress j'.order.length (totalBatches req)),
            .updateState { progressBatches := some j'.order.length }]
          (.loop rest j') := by
  unfold runBatch
  split
  · exact Or.inl ⟨j, _, _, hj, rfl⟩
  · rename_i j' hrestart
    obtain ⟨hj', hnext⟩ := restartBatch_ok req hj hrestart
    split
    · exact Or.inl ⟨j', _, _, hj', rfl⟩
    · have hentry : (journalEntry req ans j' batch).batchId = batch.batchId := rfl
      have hupsert := hj'.upsert (hentry ▸ hid)
      have horder : (batchExecution ans batch).outcome ≠ .hardFailure →
          (j'.upsert (journalEntry req ans j' batch)).order =
            keep (req.restore = .shadowLedger) j.order batch.batchId :=
        fun hsoft => hnext _ hentry fun heq => hsoft (batchExecution_of_empty ans heq)
      dsimp only
      split
      · exact Or.inl ⟨_, _, _, hupsert, rfl⟩
      · rename_i houtcome
        exact Or.inr ⟨_, hupsert, horder (by rw [houtcome]; decide), rfl⟩
      · rename_i houtcome
        exact Or.inr ⟨_, hupsert, horder (by rw [houtcome]; decide), rfl⟩

theorem mem_batchIds {seen rest : List HistoricalBatch}
    (h : req.history = seen ++ batch :: rest) : batch.batchId ∈ batchIds req := by
  unfold batchIds
  rw [h]
  exact mem_map_of_mem (mem_append_right seen mem_cons_self)

theorem covers_runBatch (ans : BatchAnswers)
    {rest : List HistoricalBatch} (hj : JournalOk req j)
    (hseen : ∃ seen, req.history = seen ++ batch :: rest ∧
      j.order = keptIds (req.restore = .shadowLedger) (seen.map HistoricalBatch.batchId)) :
    (runBatch req ans batch rest j).Covers req := by
  obtain ⟨seen, hhistory, horder⟩ := hseen
  rcases runBatch_cases req ans rest hj (mem_batchIds req hhistory) with
    ⟨j', errorCode, errorDetails, hj', heq⟩ | ⟨j', hj', horder', heq⟩
  · rw [heq]
    exact covers_finish req hj' .failed rfl (fun hfalse => by cases hfalse) _ _
  · rw [heq]
    refine covers_after req ?_ ⟨hj', seen ++ [batch], by rw [hhistory]; simp, ?_⟩
    · intro event hevent
      simp only [mem_cons, reduceCtorEq, publish.injEq, not_mem_nil, or_false] at hevent
      rw [hevent]
      exact ⟨hj'.length_le, rfl⟩
    · rw [horder', map_append, map_singleton, keptIds_concat, horder]

theorem covers_step (ans : BatchAnswers) (sh : ReplayShared) {pc : RunPc} (h : pc.Covers req) :
    (RunReplaySession.step req ans sh pc).1.Covers req := by
  have hskip : ∀ (session : ReplaySession) (total : Nat),
      (terminalSkip req session total).Covers req := by
    intro session total
    rfl
  cases pc with
  | load =>
      change (loaded req sh.session).Covers req
      unfold loaded
      split
      · exact covers_failFromInit req _ _
      · split
        · exact hskip _ _
        · trivial
  | checkStart session =>
      unfold RunReplaySession.step
      dsimp only
      split
      · exact covers_cancelBeforeRunning req _ _ _
      · unfold started
        split
        · exact covers_failFromInit req _ _
        · split
          · exact covers_failFromInit req _ _
          · trivial
  | recheck =>
      change (rechecked req sh.session).Covers req
      unfold rechecked
      split
      · trivial
      · split
        · exact covers_cancelBeforeRunning req _ _ _
        · split
          · exact hskip _ _
          · trivial
  | checkLoaded =>
      unfold RunReplaySession.step
      dsimp only
      split
      · exact covers_cancelBeforeRunning req _ _ _
      · refine covers_after req ?_ ⟨journalOk_nil, [], rfl, rfl⟩
        intro event hevent
        simp only [mem_cons, reduceCtorEq, publish.injEq, not_mem_nil, or_false, false_or] at hevent
        rw [hevent]
        trivial
  | loop rest j =>
      obtain ⟨hj, seen, hhistory, horder⟩ := h
      cases rest with
      | nil =>
          refine covers_finish req hj .completed rfl (fun _ => ?_) "" ""
          unfold batchIds
          rw [hhistory, append_nil]
          exact horder
      | cons batch rest =>
          unfold RunReplaySession.step
          dsimp only
          split
          · exact covers_finish req hj .cancelled rfl (fun hfalse => by cases hfalse) "" ""
          · exact covers_runBatch req ans hj ⟨seen, hhistory, horder⟩
  | doing action next => exact h.2
  | finished runEnd result => exact h

end Covers

/-- The stored progress is within the stored total. -/
def Fits (total : Option Int) (progress : Int) : Prop :=
  0 ≤ progress ∧ ∀ n ∈ total, progress ≤ n

/-- The stored progress and total, after what a run still writes, fit. -/
def RunPc.Keeps (req : ReplayRequest) (total : Option Int) (progress : Int) : RunPc → Prop
  | .checkStart session => session.totalBatches = total ∧ session.progressBatches = progress
  | .loop _ _ => total = some (totalBatches req : Int)
  | .doing (.updateState patch) next =>
      Fits (patch.totalBatches.or total) (patch.progressBatches.getD progress) ∧
        next.Keeps req (patch.totalBatches.or total) (patch.progressBatches.getD progress)
  | .doing (.saveSummary _) next | .doing (.publish _) next => next.Keeps req total progress
  | .load | .recheck | .checkLoaded | .finished _ _ => True

section Keeps

variable {req : ReplayRequest} {total : Option Int} {progress : Int}

theorem Fits.of_total (h : total = some (totalBatches req : Int)) {n : Nat}
    (hn : n ≤ totalBatches req) : Fits total n := by
  refine ⟨Int.natCast_nonneg n, fun m hm => ?_⟩
  rw [h] at hm
  cases hm
  exact Int.ofNat_le.mpr hn

theorem keeps_failFromInit (h : Fits total progress) (errorCode error : String) :
    (failFromInit req errorCode error).Keeps req total progress :=
  ⟨h, trivial⟩

theorem keeps_cancelBeforeRunning (totalBatches : Nat) {processed : Nat}
    (h : Fits total processed) (details : String) :
    (cancelBeforeRunning req totalBatches processed details).Keeps req total progress :=
  ⟨h, trivial⟩

theorem keeps_finish {j : ReplayStepJournal} (hj : JournalOk req j)
    (htotal : total = some (totalBatches req : Int)) (finalStatus : ReplaySessionStatus)
    (errorCode errorDetails : String) :
    (finish req j finalStatus errorCode errorDetails).Keeps req total progress :=
  ⟨Fits.of_total htotal hj.length_le, trivial⟩

theorem storedProgress_fits {session : ReplaySession}
    (h : Fits session.totalBatches session.progressBatches) :
    Fits session.totalBatches session.storedProgressBatches := by
  have heq : (session.storedProgressBatches : Int) = session.progressBatches := by
    have hpos := h.1
    unfold storedProgressBatches
    split
    · exact Int.toNat_of_nonneg hpos
    · omega
  rw [heq]
  exact h

theorem keeps_step (ans : BatchAnswers) (sh : ReplayShared) {pc : RunPc} (hpc : pc.Covers req)
    (h : ∀ row ∈ sh.session,
      Fits row.totalBatches row.progressBatches ∧
        pc.Keeps req row.totalBatches row.progressBatches) :
    ∀ row ∈ (RunReplaySession.step req ans sh pc).2.session,
      Fits row.totalBatches row.progressBatches ∧
        (RunReplaySession.step req ans sh pc).1.Keeps req row.totalBatches row.progressBatches := by
  cases pc with
  | load =>
      intro row hrow
      obtain ⟨hfits, -⟩ := h row hrow
      refine ⟨hfits, ?_⟩
      change (loaded req sh.session).Keeps req _ _
      rw [show sh.session = some row from hrow]
      unfold loaded
      dsimp only
      split
      · trivial
      · exact ⟨rfl, rfl⟩
  | checkStart session =>
      unfold RunReplaySession.step
      dsimp only
      intro row hrow
      split at hrow
      all_goals
        obtain ⟨hfits, htotal, hprogress⟩ := h row hrow
        refine ⟨hfits, ?_⟩
      · rename_i hcancelled
        rw [if_pos hcancelled]
        refine keeps_cancelBeforeRunning _ ?_ _
        rw [← htotal, ← hprogress] at hfits
        rw [← htotal]
        exact storedProgress_fits hfits
      · rename_i hcancelled
        rw [if_neg hcancelled]
        unfold started
        split
        · exact keeps_failFromInit hfits _ _
        · split
          · exact keeps_failFromInit hfits _ _
          · trivial
  | recheck =>
      intro row hrow
      obtain ⟨hfits, -⟩ := h row hrow
      refine ⟨hfits, ?_⟩
      change (rechecked req sh.session).Keeps req _ _
      rw [show sh.session = some row from hrow]
      unfold rechecked
      dsimp only
      split
      · exact keeps_cancelBeforeRunning _ (storedProgress_fits hfits) _
      · split
        · trivial
        · trivial
  | checkLoaded =>
      unfold RunReplaySession.step
      dsimp only
      intro row hrow
      split at hrow
      all_goals
        obtain ⟨hfits, -⟩ := h row hrow
        refine ⟨hfits, ?_⟩
      · rename_i hcancelled
        rw [if_pos hcancelled]
        refine keeps_cancelBeforeRunning _ ⟨le_rfl, fun n hn => ?_⟩ _
        exact hfits.1.trans (hfits.2 n hn)
      · rename_i hcancelled
        rw [if_neg hcancelled]
        exact ⟨Fits.of_total rfl (Nat.zero_le _), rfl⟩
  | loop rest j =>
      obtain ⟨hj, seen, hhistory, -⟩ := hpc
      cases rest with
      | nil =>
          intro row hrow
          obtain ⟨hfits, htotal⟩ := h row hrow
          exact ⟨hfits, keeps_finish hj htotal .completed "" ""⟩
      | cons batch rest =>
          unfold RunReplaySession.step
          dsimp only
          intro row hrow
          split at hrow
          all_goals
            obtain ⟨hfits, htotal⟩ := h row hrow
            refine ⟨hfits, ?_⟩
          · rename_i hcancelled
            rw [if_pos hcancelled]
            exact keeps_finish hj htotal .cancelled "" ""
          · rename_i hcancelled
            rw [if_neg hcancelled]
            rcases runBatch_cases req ans rest hj (mem_batchIds req hhistory) with
              ⟨j', errorCode, errorDetails, hj', heq⟩ | ⟨j', hj', -, heq⟩
            · rw [heq]
              exact keeps_finish hj' htotal .failed _ _
            · rw [heq]
              exact ⟨Fits.of_total htotal hj'.length_le, htotal⟩
  | doing action next =>
      intro row hrow
      cases action with
      | updateState patch =>
          obtain ⟨old, hold, rfl⟩ := map_eq_some_iff.mp hrow
          exact (h old hold).2
      | saveSummary summary => exact h row hrow
      | publish event => exact h row hrow
  | finished runEnd result => exact h

end Keeps

def CancelPc.LeavesProgress (req : ReplayRequest) : CancelPc → Prop
  | .doing action next =>
      (∀ event, action = .publish event → EventOk req event) ∧
        (∀ patch, action = .updateState patch →
          patch.totalBatches = none ∧ patch.progressBatches = none) ∧
        next.LeavesProgress req
  | _ => True

/-- The invariant of all calls. -/
structure Covering (req : ReplayRequest) (fits : Bool) (s : ReplaySystem) : Prop where
  run : s.run.Covers req
  cancels : ∀ c ∈ s.cancels, c.LeavesProgress req
  events : ∀ event ∈ s.shared.events, EventOk req event
  progress : fits = true → ∀ row ∈ s.shared.session,
    Fits row.totalBatches row.progressBatches ∧
      s.run.Keeps req row.totalBatches row.progressBatches

section Covering

variable {req : ReplayRequest} {fits : Bool} {s : ReplaySystem}

variable {sh : ReplayShared}

theorem events_apply_ok {action : ReplayAction} (h : ∀ event ∈ sh.events, EventOk req event)
    (haction : ∀ event, action = .publish event → EventOk req event) :
    ∀ event ∈ (action.apply sh).events, EventOk req event := by
  cases action with
  | updateState patch => exact h
  | saveSummary summary => exact h
  | publish event =>
      intro event' hevent
      rcases mem_append.mp hevent with hold | hnew
      · exact h event' hold
      · exact haction event' (congrArg _ (mem_singleton.mp hnew).symm)

theorem events_run_step (ans : BatchAnswers) {pc : RunPc}
    (hpc : pc.Covers req) (h : ∀ event ∈ sh.events, EventOk req event) :
    ∀ event ∈ (RunReplaySession.step req ans sh pc).2.events, EventOk req event := by
  cases pc with
  | load => exact h
  | checkStart session =>
      unfold RunReplaySession.step
      dsimp only
      split <;> exact h
  | recheck => exact h
  | checkLoaded =>
      unfold RunReplaySession.step
      dsimp only
      split <;> exact h
  | loop rest j =>
      cases rest with
      | nil => exact h
      | cons batch rest =>
          unfold RunReplaySession.step
          dsimp only
          split <;> exact h
  | doing action next => exact events_apply_ok h hpc.1
  | finished runEnd result => exact h

theorem cancel_step_leaves {c : CancelPc} (hc : c.LeavesProgress req)
    (h : ∀ event ∈ sh.events, EventOk req event) :
    (step req.sessionId sh c).1.LeavesProgress req ∧
      (∀ event ∈ (step req.sessionId sh c).2.events, EventOk req event) ∧
      ∀ row ∈ (step req.sessionId sh c).2.session, ∃ old ∈ sh.session,
        old.totalBatches = row.totalBatches ∧ old.progressBatches = row.progressBatches := by
  have hsame : ∀ row ∈ sh.session, ∃ old ∈ sh.session,
      old.totalBatches = row.totalBatches ∧ old.progressBatches = row.progressBatches :=
    fun row hrow => ⟨row, hrow, rfl, rfl⟩
  cases c with
  | load request =>
      refine ⟨?_, h, hsame⟩
      change (CancelReplaySession.loaded request sh.session).LeavesProgress req
      unfold CancelReplaySession.loaded
      split
      · trivial
      · split <;> trivial
  | signal request session =>
      refine ⟨?_, h, hsame⟩
      change (signalled req.sessionId request session).LeavesProgress req
      unfold signalled
      split
      · simp [CancelPc.after, CancelPc.LeavesProgress, EventOk]
      · trivial
  | doing action next =>
      obtain ⟨hevent, hpatch, hnext⟩ := hc
      refine ⟨hnext, events_apply_ok h hevent, ?_⟩
      cases action with
      | updateState patch =>
          obtain ⟨htotal, hprogress⟩ := hpatch patch rfl
          intro row hrow
          obtain ⟨old, hold, rfl⟩ := map_eq_some_iff.mp hrow
          refine ⟨old, hold, ?_, ?_⟩
          · unfold updated
            rw [htotal]
            rfl
          · unfold updated
            rw [hprogress]
            rfl
      | saveSummary summary => exact hsame
      | publish event => exact hsame
  | finished result => exact ⟨trivial, h, hsame⟩

theorem Covering.step (h : Covering req fits s) (turn : ReplayTurn) :
    Covering req fits (ReplaySystem.step req s turn) := by
  cases turn with
  | run ans =>
      exact
        { run := covers_step req ans s.shared h.run
          cancels := h.cancels
          events := events_run_step ans h.run h.events
          progress := fun hfits => keeps_step ans s.shared h.run (h.progress hfits) }
  | cancel i =>
      unfold ReplaySystem.step
      dsimp only
      split
      · exact h
      · rename_i c hi
        obtain ⟨hnext, hevents, hrows⟩ :=
          cancel_step_leaves (h.cancels c (mem_of_getElem? hi)) h.events
        refine ⟨h.run, ?_, hevents, ?_⟩
        · intro d hd
          rcases mem_or_eq_of_mem_set hd with hd | rfl
          · exact h.cancels d hd
          · exact hnext
        · intro hfits row hrow
          obtain ⟨old, hold, htotal, hprogress⟩ := hrows row hrow
          rw [← htotal, ← hprogress]
          exact h.progress hfits old hold

theorem covering_run (req : ReplayRequest) (fits : Bool) (session : Option ReplaySession)
    (requests : List CancelRequest)
    (hfits : fits = true → ∀ row ∈ session, Fits row.totalBatches row.progressBatches)
    (turns : List ReplayTurn) :
    Covering req fits (run (ReplaySystem.step req) (.start session requests) turns) := by
  refine run_preserves (Covering req fits) (fun s turn hs => hs.step turn) ?_ turns
  refine ⟨trivial, ?_, fun event hevent => absurd hevent not_mem_nil, ?_⟩
  · intro c hc
    obtain ⟨request, -, rfl⟩ := mem_map.mp hc
    trivial
  · exact fun htrue row hrow => ⟨hfits htrue row hrow, trivial⟩

end Covering

def ReportsSteps (req : ReplayRequest) : RunEnd → ReplayResult → Prop
  | .skipped, result =>
      result.summary.isPartial = true ↔ result.finalStatus ≠ .completed
  | .failedFromInit, result => result.finalStatus = .failed ∧ result.summary.isPartial = true
  | .cancelledBeforeRunning, result =>
      result.finalStatus = .cancelled ∧ result.summary.isPartial = true
  | .replayed j, result =>
      j.order.Nodup ∧ (∀ id ∈ j.order, id ∈ batchIds req) ∧
        j.orderedEntries.map ReplayStepJournalEntry.batchId = j.order ∧
        result.summary.toReplaySummary =
          j.buildSummary req.sqrt req.sessionId (totalBatches req) req.avgisRule
            req.decisionPriceSource ∧
        result.summary.processedBatches + result.summary.failedBatches = j.order.length ∧
        (result.summary.isPartial = true ↔
          result.finalStatus = .failed ∨ j.order.length < totalBatches req ∨
            (result.finalStatus = .completed ∧ 0 < result.summary.failedBatches)) ∧
        (result.finalStatus = .completed →
          req.restore ≠ .shadowLedger ∨ NoRewind (batchIds req) →
            j.order = (batchIds req).eraseDups)

theorem EndOk.reportsSteps {req : ReplayRequest} {runEnd : RunEnd} {result : ReplayResult}
    (h : EndOk req runEnd result) : ReportsSteps req runEnd result := by
  cases runEnd with
  | skipped =>
      change result.summary.isPartial = true ↔ result.finalStatus ≠ .completed
      rw [show result.summary.isPartial = _ from h, decide_eq_true_iff]
  | failedFromInit => exact h
  | cancelledBeforeRunning => exact h
  | replayed j =>
      obtain ⟨hj, hsummary, -, hflag, hcompleted⟩ := h
      refine ⟨hj.nodup, hj.ids, hj.orderedEntries, hsummary, ?_, hflag, ?_⟩
      · have hcounts := hj.summary_counts req.sqrt req.sessionId (totalBatches req) req.avgisRule
          req.decisionPriceSource
        rw [← hsummary] at hcounts
        exact hcounts
      · intro hstatus hcovers
        rw [hcompleted hstatus]
        by_cases hrestore : req.restore = .shadowLedger
        · rw [decide_eq_true hrestore]
          exact (hcovers.resolve_left fun hne => hne hrestore).keptIds_eq.1
        · rw [decide_eq_false hrestore]
          exact keptIds_false _

/-- The stored and the published progress stay within the total; a run that returns has a
journal with one step for each of its batches, and its summary adds up these steps; one that
completes has a step for each distinct id in the order of the history, when no batch is run
again after another one or `RestoreState` is set up; and the flag is set for a session that
failed, for one with fewer steps than ids, and for one that completed with a failed batch. -/
theorem replay_coverage (req : ReplayRequest) (session : Option ReplaySession)
    (requests : List CancelRequest) (turns : List ReplayTurn) :
    let s := run (ReplaySystem.step req) (.start session requests) turns
    ((∀ row ∈ session, Fits row.totalBatches row.progressBatches) →
      ∀ row ∈ s.shared.session, Fits row.totalBatches row.progressBatches) ∧
    (∀ batchSeq total, ReplayEvent.progress batchSeq total ∈ s.shared.events →
      batchSeq ≤ total ∧ total = totalBatches req) ∧
    ∀ runEnd result, s.run = .finished runEnd result → ReportsSteps req runEnd result := by
  refine ⟨fun hfits row hrow => ?_, fun batchSeq total hevent => ?_, fun runEnd result hend => ?_⟩
  · have hcovering := covering_run req true session requests (fun _ => hfits) turns
    exact (hcovering.progress rfl row hrow).1
  · have hcovering := covering_run req false session requests (fun hfalse => by cases hfalse) turns
    exact hcovering.events _ hevent
  · have hcovering :=
      (covering_run req false session requests (fun hfalse => by cases hfalse) turns).run
    rw [hend] at hcovering
    exact EndOk.reportsSteps hcovering

/-- The steps that are left where a run returns, its status, its flag and the batches that
went through. -/
def RunPc.outcome : RunPc → Option (List String × ReplaySessionStatus × Bool × Nat)
  | .finished (.replayed j) result =>
      some (j.order, result.finalStatus, result.summary.isPartial, result.summary.processedBatches)
  | .finished _ result =>
      some ([], result.finalStatus, result.summary.isPartial, result.summary.processedBatches)
  | _ => none

def replayOf (ids : List String) : ReplayRequest where
  sessionId := "s"
  history := ids.map fun id => { batchId := id }
  sqrt := id

/-- A session that runs through without a cancel. -/
def runThrough (ids : List String) (answers : List BatchAnswers) : ReplaySystem :=
  run (ReplaySystem.step (replayOf ids)) (.start (some {}) []) (answers.map .run)

/-- A batch that comes twice in a row has one step. -/
theorem repeated_batch_counted_once :
    (runThrough ["a", "a", "b"] (List.replicate 20 {})).run.outcome =
      some (["a", "b"], .completed, false, 2) ∧
    ∀ batchSeq total, ReplayEvent.progress batchSeq total ∈
        (runThrough ["a", "a", "b"] (List.replicate 20 {})).shared.events →
      batchSeq ≤ total ∧ total = totalBatches (replayOf ["a", "a", "b"]) :=
  ⟨by decide +kernel, (replay_coverage (replayOf ["a", "a", "b"]) (some {}) [] _).2.1⟩

/-- A session that completes covers its history, and the flag is set exactly for a session that
was cancelled or failed with a batch that went through. -/
def CoversHistory (req : ReplayRequest) (runEnd : RunEnd) (result : ReplayResult) : Prop :=
  (result.finalStatus = .completed →
    ∃ j, runEnd = .replayed j ∧ j.order = (batchIds req).eraseDups) ∧
  (result.summary.isPartial = true ↔
    (result.finalStatus = .cancelled ∨ result.finalStatus = .failed) ∧
      0 < result.summary.processedBatches)

/-- A batch that comes again after another one takes the step of that away, a failed batch sets
the flag of a session that completes, and so does a history without batches for one that
fails. -/
theorem replay_not_covered :
    (runThrough ["a", "b", "a"] (List.replicate 20 {})).run.outcome =
      some (["a"], .completed, true, 1) ∧
    (runThrough ["a"] (List.replicate 20 { execution := { outcome := .softFailure } })).run.outcome =
      some (["a"], .completed, true, 0) ∧
    (runThrough [] (List.replicate 20 {})).run.outcome = some ([], .failed, true, 0) ∧
    ¬ ∀ (req : ReplayRequest) (session : Option ReplaySession) (requests : List CancelRequest)
        (turns : List ReplayTurn) (runEnd : RunEnd) (result : ReplayResult),
        (run (ReplaySystem.step req) (.start session requests) turns).run =
          .finished runEnd result → CoversHistory req runEnd result := by
  have hrewound : (runThrough ["a", "b", "a"] (List.replicate 20 {})).run.outcome =
      some (["a"], .completed, true, 1) := by decide +kernel
  refine ⟨hrewound, by decide +kernel, by decide +kernel, fun h => ?_⟩
  cases hpc : (runThrough ["a", "b", "a"] (List.replicate 20 {})).run with
  | finished runEnd result =>
      rw [hpc] at hrewound
      have hcovers := h (replayOf ["a", "b", "a"]) (some {}) [] _ runEnd result hpc
      cases runEnd with
      | replayed j =>
          simp only [RunPc.outcome, Option.some.injEq, Prod.mk.injEq] at hrewound
          obtain ⟨horder, hstatus, -, -⟩ := hrewound
          obtain ⟨j', hj', horder'⟩ := hcovers.1 hstatus
          cases hj'
          rw [horder] at horder'
          revert horder'
          decide +kernel
      | skipped => simp [RunPc.outcome] at hrewound
      | failedFromInit => simp [RunPc.outcome] at hrewound
      | cancelledBeforeRunning => simp [RunPc.outcome] at hrewound
  | load => rw [hpc] at hrewound; cases hrewound
  | checkStart session => rw [hpc] at hrewound; cases hrewound
  | recheck => rw [hpc] at hrewound; cases hrewound
  | checkLoaded => rw [hpc] at hrewound; cases hrewound
  | loop rest j => rw [hpc] at hrewound; cases hrewound
  | doing action next => rw [hpc] at hrewound; cases hrewound

end Backtest
end ContExchange
