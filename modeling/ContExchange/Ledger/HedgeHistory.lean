import ContExchange.Ledger.HedgePnl

/-!
# Ledger: every hedge execution is counted once

Two entry points store hedge records: a report stores a record without looking for
its id, `RecordHedgeExecution` looks for the id among the records of the venue.

* `HedgeHistory` runs the ledger and collects the distinct hedge executions, by venue
  and hedge id, that were offered to it;
* `HedgeOk` is what an action has to satisfy for its record to be counted once;
* `hedges_counted_once`: along every run of such actions the query, the summary and
  the splits of a time range agree with the distinct executions.
-/

namespace ContExchange
namespace Ledger

open Common Lib AList
open List hiding filter_filter

/-- A call of one of the entry points that store hedge records. -/
inductive HedgeCall where
  | execution (call : ExecutionCall)
  | recordHedgeExecution (now : Int) (hedge : HedgeExecution)
deriving DecidableEq

def hedgeStep (s : ExecutionBooks) : HedgeCall → ExecutionBooks
  | .execution call => executionStep s call
  | .recordHedgeExecution now hedge => (recordHedgeExecution now s hedge).1

/-- What a call does under the lock. -/
inductive HedgeAction where
  | report (a : ReportAction)
  | record (now : Int) (hedge : HedgeExecution)
deriving DecidableEq

def hedgeAct (s : ExecutionBooks) : HedgeAction → ExecutionBooks
  | .report a => act s a
  | .record now hedge => (recordHedgeExecution now s hedge).1

def hedgeActionsOf (s : ExecutionBooks) : HedgeCall → List HedgeAction
  | .execution call => (actions s call).map .report
  | .recordHedgeExecution now hedge => [.record now hedge]

def hedgeActions (s : ExecutionBooks) (calls : List HedgeCall) : List HedgeAction :=
  journal hedgeStep hedgeActionsOf s calls

/-- The hedge executions an action offers: the new part of an accepted report, or a
hedge with an id and a venue. -/
def hedgesOf (s : ExecutionBooks) : HedgeAction → List HedgePnlRecord
  | .report (.apply now report) => s.newRecords report now
  | .report _ => []
  | .record now hedge =>
      if hedge.hedgeId = "" ∨ hedge.venue = "" then [] else [hedge.record now]

def addHedge (executions : List HedgePnlRecord) (r : HedgePnlRecord) : List HedgePnlRecord :=
  if ∃ e ∈ executions, e.venue = r.venue ∧ e.hedgeId = r.hedgeId then executions
  else executions ++ [r]

/-- The books, and the distinct hedge executions offered so far. -/
structure HedgeHistory where
  books : ExecutionBooks
  executions : List HedgePnlRecord := []

/-- An action, with the executions collected. -/
def hedgeHistoryStep (h : HedgeHistory) (a : HedgeAction) : HedgeHistory where
  books := hedgeAct h.books a
  executions := run addHedge h.executions (hedgesOf h.books a)

/-- The distinct executions of a venue and an instrument. -/
def HedgeHistory.executionsOf (h : HedgeHistory) (venue instrumentSymbol : String) :
    List HedgePnlRecord :=
  h.executions.filter (fun r => r.venue = venue ∧ r.instrumentSymbol = instrumentSymbol)

/-- Two adjacent disjoint parts of the time range of a request: up to one time point,
and from the next nanosecond on. -/
structure Splits (req : GetHedgePnLRequest) (last first : Timestamp) : Prop where
  adjacent : timestampToTimePoint first = timestampToTimePoint last + 1
  after : ∀ a ∈ req.fromTime, timestampToTimePoint a ≤ timestampToTimePoint first
  before : ∀ b ∈ req.toTime, timestampToTimePoint last ≤ timestampToTimePoint b

/-- Every hedge execution is counted once, whatever the order of the hash map. -/
structure HedgesCounted (h : HedgeHistory) : Prop where
  query : ∀ venues : List VenueRecords, venues.Perm h.books.hedgePnlRecords.entries →
    ∀ venue instrumentSymbol,
      Reports (getHedgePnl venues {}) venue instrumentSymbol
        (h.executionsOf venue instrumentSymbol)
  summary : ∀ venues : List VenueRecords, venues.Perm h.books.hedgePnlRecords.entries →
    ∀ venue instrumentSymbol, h.executionsOf venue instrumentSymbol ≠ [] →
      ∃ total ∈ h.books.hedgePnlSummary.lookup (summaryKey venue instrumentSymbol),
        total.toRat = (statedTotals (getHedgePnl venues {}) venue instrumentSymbol).1
  summaryKeys : ∀ key total, h.books.hedgePnlSummary.lookup key = some total →
    ∃ e ∈ h.executions, e.key = key
  splits : ∀ venues : List VenueRecords, venues.Perm h.books.hedgePnlRecords.entries →
    ∀ req last first, Splits req last first → ∀ venue instrumentSymbol,
      statedTotals (getHedgePnl venues req) venue instrumentSymbol =
        statedTotals (getHedgePnl venues { req with toTime := some last })
            venue instrumentSymbol +
          statedTotals (getHedgePnl venues { req with fromTime := some first })
            venue instrumentSymbol

/-- The sums fit a 64-bit mantissa, over every stretch of time between two of the
records that has the new one. -/
def SumsFit (records : List HedgePnlRecord) (r : HedgePnlRecord) : Prop :=
  ∀ a ∈ (r :: records).map (·.timestamp), ∀ b ∈ (r :: records).map (·.timestamp),
    a ≤ r.timestamp → r.timestamp ≤ b →
      (∀ total ∈ runningTotal HedgePnlRecord.hedgePnl (between (some a) (some b) records),
        Decimal.AddExact total r.hedgePnl) ∧
      ∀ total ∈ runningTotal HedgePnlRecord.executedQty (between (some a) (some b) records),
        Decimal.AddExact total r.executedQty
deriving Decidable

/-- A new record is counted: its key belongs to no other venue and instrument, only
the first record of an instrument has no venue, and the number and the sums fit. -/
structure StoreOk (s : ExecutionBooks) (r : HedgePnlRecord) : Prop where
  key : s.recordsOf r.venue r.instrumentSymbol = [] → s.hedgePnlSummary.lookup r.key = none
  named : r.venue = "" → s.recordsOf r.venue r.instrumentSymbol = []
  number : (s.recordsOf r.venue r.instrumentSymbol).length + 1 < 2 ^ 31
  sums : SumsFit (s.recordsOf r.venue r.instrumentSymbol) r

instance (s : ExecutionBooks) (r : HedgePnlRecord) : Decidable (StoreOk s r) :=
  decidable_of_iff
    ((s.recordsOf r.venue r.instrumentSymbol = [] → s.hedgePnlSummary.lookup r.key = none) ∧
      (r.venue = "" → s.recordsOf r.venue r.instrumentSymbol = []) ∧
      (s.recordsOf r.venue r.instrumentSymbol).length + 1 < 2 ^ 31 ∧
      SumsFit (s.recordsOf r.venue r.instrumentSymbol) r)
    ⟨fun h => ⟨h.1, h.2.1, h.2.2.1, h.2.2.2⟩, fun h => ⟨h.key, h.named, h.number, h.sums⟩⟩

/-- The condition on an action: what it stores is new to its venue and is counted. -/
def HedgeOk (h : HedgeHistory) : HedgeAction → Prop
  | .report (.apply now report) =>
      ∀ r ∈ h.books.newRecords report now,
        ¬ h.books.HasHedge r.venue r.hedgeId ∧ StoreOk h.books r
  | .report _ => True
  | .record now hedge =>
      hedge.hedgeId ≠ "" → hedge.venue ≠ "" → ¬ h.books.HasHedge hedge.venue hedge.hedgeId →
        StoreOk h.books (hedge.record now)

instance (h : HedgeHistory) (a : HedgeAction) : Decidable (HedgeOk h a) :=
  match a with
  | .report (.apply _ _) => inferInstanceAs (Decidable (∀ _ ∈ _, _ ∧ _))
  | .report (.store _) => isTrue trivial
  | .report (.see _) => isTrue trivial
  | .report .countDuplicate => isTrue trivial
  | .report (.queue _) => isTrue trivial
  | .report .countReplayed => isTrue trivial
  | .record _ _ => inferInstanceAs (Decidable (_ → _ → _ → _))

structure SummaryKept (s : ExecutionBooks) : Prop where
  total : ∀ venue instrumentSymbol, s.recordsOf venue instrumentSymbol ≠ [] →
    s.hedgePnlSummary.lookup (summaryKey venue instrumentSymbol) =
      runningTotal HedgePnlRecord.hedgePnl (s.recordsOf venue instrumentSymbol)
  keys : ∀ key total, s.hedgePnlSummary.lookup key = some total →
    ∃ venue, ∃ r ∈ s.records venue, r.key = key

section Store

variable {s : ExecutionBooks} {r : HedgePnlRecord}

theorem records_storeRecord (s : ExecutionBooks) (r : HedgePnlRecord) (venue : String) :
    (storeRecord s r).records venue = s.records venue ++ if r.venue = venue then [r] else [] := by
  rw [ExecutionBooks.records, storeRecord]
  by_cases hvenue : r.venue = venue
  · subst hvenue
    rw [if_pos rfl, lookup_insert, Option.getD_some]
  · rw [if_neg hvenue, append_nil, lookup_insert_ne (Ne.symm hvenue)]
    rfl

theorem recordsOf_storeRecord
    (s : ExecutionBooks) (r : HedgePnlRecord) (venue instrumentSymbol : String) :
    (storeRecord s r).recordsOf venue instrumentSymbol =
      s.recordsOf venue instrumentSymbol ++
        if r.venue = venue ∧ r.instrumentSymbol = instrumentSymbol then [r] else [] := by
  rw [ExecutionBooks.recordsOf, records_storeRecord, filter_append]
  by_cases hvenue : r.venue = venue
  · by_cases hsymbol : r.instrumentSymbol = instrumentSymbol
    · simp [ExecutionBooks.recordsOf, hvenue, hsymbol]
    · simp [ExecutionBooks.recordsOf, hvenue, hsymbol]
  · simp [ExecutionBooks.recordsOf, hvenue]

theorem summary_storeRecord (s : ExecutionBooks) (r : HedgePnlRecord) (key : String) :
    (storeRecord s r).hedgePnlSummary.lookup key =
      if key = r.key then
        some ((s.hedgePnlSummary.lookup key).elim r.hedgePnl (Decimal.add · r.hedgePnl))
      else s.hedgePnlSummary.lookup key := by
  rw [storeRecord]
  by_cases hkey : key = r.key
  · subst hkey
    rw [if_pos rfl, ← HedgePnlRecord.key, lookup_insert]
    cases s.hedgePnlSummary.lookup r.key <;> rfl
  · rw [if_neg hkey, ← HedgePnlRecord.key, lookup_insert_ne hkey]

theorem mem_recordsOf (hs : Countable s) {venue : String} (hr : r ∈ s.records venue) :
    r ∈ s.recordsOf r.venue r.instrumentSymbol := by
  rw [ExecutionBooks.recordsOf, hs.venue venue r hr]
  exact mem_filter.mpr ⟨hr, by simp⟩

theorem mem_of_mem_recordsOf
    {venue instrumentSymbol : String} (hr : r ∈ s.recordsOf venue instrumentSymbol) :
    r ∈ s.records venue ∧ r.instrumentSymbol = instrumentSymbol := by
  rw [ExecutionBooks.recordsOf, mem_filter] at hr
  exact ⟨hr.1, by simpa using hr.2⟩

theorem StoreOk.venue_of_key (hok : StoreOk s r) (hs : Countable s) (hsummary : SummaryKept s)
    {venue : String} {r' : HedgePnlRecord} (hr' : r' ∈ s.records venue) (hkey : r'.key = r.key) :
    r'.venue = r.venue := by
  have hmem := mem_recordsOf hs hr'
  cases hrecords : s.recordsOf r.venue r.instrumentSymbol with
  | nil =>
      have htotal := hsummary.total r'.venue r'.instrumentSymbol (ne_nil_of_mem hmem)
      have hnone := hok.key hrecords
      rw [← HedgePnlRecord.key, hkey, hnone, runningTotal, eq_comm, rowOf_none_iff] at htotal
      rw [htotal.2] at hmem
      cases hmem
  | cons r'' rest =>
      have hmem'' : r'' ∈ s.recordsOf r.venue r.instrumentSymbol := by rw [hrecords]; simp
      obtain ⟨hrecord, hsymbol⟩ := mem_of_mem_recordsOf hmem''
      have hvenue := hs.venue r.venue r'' hrecord
      rw [← hvenue]
      refine hs.key venue r.venue r' hr' r'' hrecord ?_
      rw [hkey, HedgePnlRecord.key, HedgePnlRecord.key, hvenue, hsymbol]

theorem TotalsExact.append
    {records : List HedgePnlRecord} (h : TotalsExact records)
    (hpnl : ∀ total ∈ runningTotal HedgePnlRecord.hedgePnl records,
      Decimal.AddExact total r.hedgePnl)
    (hqty : ∀ total ∈ runningTotal HedgePnlRecord.executedQty records,
      Decimal.AddExact total r.executedQty) :
    TotalsExact (records ++ [r]) := by
  have hone : ∀ value : HedgePnlRecord → Decimal,
      (runningTotal value records).elim 0 Decimal.toRat =
        (records.map (fun r => (value r).toRat)).sum →
      (∀ total ∈ runningTotal value records, Decimal.AddExact total (value r)) →
      (runningTotal value (records ++ [r])).elim 0 Decimal.toRat =
        ((records ++ [r]).map (fun r => (value r).toRat)).sum := by
    intro value hvalue hexact
    have happend : runningTotal value (records ++ [r]) =
        some ((runningTotal value records).elim (value r) (Decimal.add · (value r))) :=
      rowOf_append none records [r]
    rw [happend, Option.elim_some, map_append, sum_append, ← hvalue]
    cases htotal : runningTotal value records with
    | none => simp
    | some total => simpa using Decimal.add_toRat (hexact total htotal)
  exact ⟨hone _ h.1 hpnl, hone _ h.2 hqty⟩

theorem exists_stretch {fromTime toTime : Option Int} {t : Int} (ht : InWindow fromTime toTime t)
    (times : List Int) :
    ∃ a ∈ t :: times, ∃ b ∈ t :: times, a ≤ t ∧ t ≤ b ∧
      ∀ x ∈ times, InWindow fromTime toTime x ↔ InWindow (some a) (some b) x := by
  let inside : Finset Int := (t :: times).toFinset.filter (InWindow fromTime toTime)
  have hmem : ∀ {x}, x ∈ inside ↔ x ∈ t :: times ∧ InWindow fromTime toTime x := by
    intro x
    rw [Finset.mem_filter, mem_toFinset]
  have htmem : t ∈ inside := hmem.mpr ⟨by simp, ht⟩
  obtain ⟨a, ha, hmin⟩ := inside.exists_min_image (fun x => x) ⟨t, htmem⟩
  obtain ⟨b, hb, hmax⟩ := inside.exists_max_image (fun x => x) ⟨t, htmem⟩
  refine ⟨a, (hmem.mp ha).1, b, (hmem.mp hb).1, hmin t htmem, hmax t htmem, ?_⟩
  intro x hx
  constructor
  · intro hin
    have hxmem : x ∈ inside := hmem.mpr ⟨mem_cons_of_mem _ hx, hin⟩
    exact ⟨by simpa using hmin x hxmem, by simpa using hmax x hxmem⟩
  · rintro ⟨hax, hxb⟩
    have hax' : a ≤ x := hax a rfl
    have hxb' : x ≤ b := hxb b rfl
    exact ⟨fun c hc => ((hmem.mp ha).2.1 c hc).trans hax',
      fun c hc => hxb'.trans ((hmem.mp hb).2.2 c hc)⟩

theorem SumsFit.totalsExact {records : List HedgePnlRecord} (hfit : SumsFit records r)
    (hexact : ∀ fromTime toTime, TotalsExact (between fromTime toTime records))
    (fromTime toTime : Option Int) : TotalsExact (between fromTime toTime (records ++ [r])) := by
  rw [between, filter_append]
  by_cases hr : InWindow fromTime toTime r.timestamp
  · obtain ⟨a, ha, b, hb, har, hrb, hsame⟩ :=
      exists_stretch hr (records.map (·.timestamp))
    have hwindow : records.filter (fun r => InWindow fromTime toTime r.timestamp) =
        between (some a) (some b) records := by
      apply filter_congr
      intro r' hr'
      rw [decide_eq_decide]
      exact hsame r'.timestamp (mem_map_of_mem hr')
    obtain ⟨hpnl, hqty⟩ := hfit a ha b hb har hrb
    rw [hwindow, filter_cons_of_pos (by simpa using hr), filter_nil]
    exact (hexact (some a) (some b)).append hpnl hqty
  · rw [filter_cons_of_neg (by simpa using hr), filter_nil, append_nil]
    exact hexact fromTime toTime

theorem Countable.store (hs : Countable s) (hsummary : SummaryKept s) (hok : StoreOk s r) :
    Countable (storeRecord s r) := by
  have hmem : ∀ {venue r'}, r' ∈ (storeRecord s r).records venue →
      r' ∈ s.records venue ∨ (r' = r ∧ r.venue = venue) := by
    intro venue r' hr'
    rw [records_storeRecord, mem_append] at hr'
    rcases hr' with hr' | hr'
    · exact Or.inl hr'
    · split at hr'
      · exact Or.inr ⟨mem_singleton.mp hr', by assumption⟩
      · cases hr'
  refine ⟨?_, ?_, ?_, ?_, ?_⟩
  · intro venue r' hr'
    rcases hmem hr' with hr' | ⟨rfl, hvenue⟩
    · exact hs.venue venue r' hr'
    · exact hvenue
  · intro venue venue' r' hr' r'' hr'' hkey
    rcases hmem hr' with hold' | ⟨hnew', -⟩
    · rcases hmem hr'' with hold'' | ⟨hnew'', -⟩
      · exact hs.key venue venue' r' hold' r'' hold'' hkey
      · rw [hnew''] at hkey ⊢
        exact hok.venue_of_key hs hsummary hold' hkey
    · rcases hmem hr'' with hold'' | ⟨hnew'', -⟩
      · rw [hnew'] at hkey ⊢
        exact (hok.venue_of_key hs hsummary hold'' hkey.symm).symm
      · rw [hnew', hnew'']
  · intro instrumentSymbol
    rw [recordsOf_storeRecord]
    split
    · rename_i hpair
      have hnil := hok.named hpair.1
      rw [hpair.1, hpair.2] at hnil
      rw [hnil]
      exact le_rfl
    · rw [append_nil]
      exact hs.unnamed instrumentSymbol
  · intro venue instrumentSymbol
    rw [recordsOf_storeRecord]
    split
    · rename_i hpair
      have hnumber := hok.number
      rw [hpair.1, hpair.2] at hnumber
      rw [length_append, length_singleton]
      exact hnumber
    · rw [append_nil]
      exact hs.number venue instrumentSymbol
  · intro venue instrumentSymbol fromTime toTime
    rw [recordsOf_storeRecord]
    split
    · rename_i hpair
      have hsums := hok.sums
      rw [hpair.1, hpair.2] at hsums
      exact hsums.totalsExact (hs.totals venue instrumentSymbol) fromTime toTime
    · rw [append_nil]
      exact hs.totals venue instrumentSymbol fromTime toTime

theorem SummaryKept.store (hs : Countable s) (hsummary : SummaryKept s) (hok : StoreOk s r) :
    SummaryKept (storeRecord s r) := by
  refine ⟨?_, ?_⟩
  · intro venue instrumentSymbol hsome
    rw [recordsOf_storeRecord] at hsome ⊢
    rw [summary_storeRecord]
    by_cases hpair : r.venue = venue ∧ r.instrumentSymbol = instrumentSymbol
    · obtain ⟨rfl, rfl⟩ := hpair
      rw [← HedgePnlRecord.key, if_pos rfl, if_pos ⟨rfl, rfl⟩]
      have htotal : s.hedgePnlSummary.lookup r.key =
          runningTotal HedgePnlRecord.hedgePnl (s.recordsOf r.venue r.instrumentSymbol) := by
        by_cases hnil : s.recordsOf r.venue r.instrumentSymbol = []
        · rw [hok.key hnil, hnil]
          rfl
        · exact hsummary.total r.venue r.instrumentSymbol hnil
      rw [htotal, runningTotal, runningTotal, rowOf_append]
      rfl
    · rw [if_neg hpair, append_nil] at hsome ⊢
      have hkey : summaryKey venue instrumentSymbol ≠ r.key := by
        intro hkey
        obtain ⟨r', hr'⟩ := exists_mem_of_ne_nil _ hsome
        obtain ⟨hrecord, hsymbol⟩ := mem_of_mem_recordsOf hr'
        have hvenue := hs.venue venue r' hrecord
        have hkey' : r'.key = r.key := by rw [← hkey, HedgePnlRecord.key, hvenue, hsymbol]
        have hrvenue := hok.venue_of_key hs hsummary hrecord hkey'
        rw [hvenue] at hrvenue
        rw [HedgePnlRecord.key, ← hrvenue] at hkey
        exact hpair ⟨hrvenue.symm, (summaryKey_inj hkey).symm⟩
      rw [if_neg hkey]
      exact hsummary.total venue instrumentSymbol hsome
  · intro key total hlookup
    rw [summary_storeRecord] at hlookup
    by_cases hkey : key = r.key
    · refine ⟨r.venue, r, ?_, hkey.symm⟩
      rw [records_storeRecord, if_pos rfl]
      simp
    · rw [if_neg hkey] at hlookup
      obtain ⟨venue, r', hr', hkey'⟩ := hsummary.keys key total hlookup
      refine ⟨venue, r', ?_, hkey'⟩
      rw [records_storeRecord]
      exact mem_append_left _ hr'

end Store

/-- The two books hold the same hedge records and summary. -/
structure SameHedges (s t : ExecutionBooks) : Prop where
  records : t.hedgePnlRecords = s.hedgePnlRecords
  summary : t.hedgePnlSummary = s.hedgePnlSummary

/-- What a history knows: the books are countable, the summary is kept, and the
records are the distinct executions, venue by venue. -/
structure HedgeInv (h : HedgeHistory) : Prop where
  countable : Countable h.books
  summary : SummaryKept h.books
  records : ∀ venue, h.books.records venue = h.executions.filter (fun r => r.venue = venue)

section Invariant

variable {s t : ExecutionBooks} {h : HedgeHistory} {r : HedgePnlRecord}

theorem SameHedges.records_eq (hsame : SameHedges s t) : t.records = s.records := by
  funext venue
  rw [ExecutionBooks.records, ExecutionBooks.records, hsame.records]

theorem SameHedges.recordsOf_eq (hsame : SameHedges s t) : t.recordsOf = s.recordsOf := by
  funext venue instrumentSymbol
  rw [ExecutionBooks.recordsOf, ExecutionBooks.recordsOf, hsame.records_eq]

theorem Countable.congr (hs : Countable s) (hsame : SameHedges s t) : Countable t := by
  have hrecords := hsame.records_eq
  have hrecordsOf := hsame.recordsOf_eq
  refine ⟨?_, ?_, ?_, ?_, ?_⟩
  · rw [hrecords]
    exact hs.venue
  · rw [hrecords]
    exact hs.key
  · rw [hrecordsOf]
    exact hs.unnamed
  · rw [hrecordsOf]
    exact hs.number
  · rw [hrecordsOf]
    exact hs.totals

theorem SummaryKept.congr (hs : SummaryKept s) (hsame : SameHedges s t) : SummaryKept t := by
  refine ⟨?_, ?_⟩
  · rw [hsame.recordsOf_eq, hsame.summary]
    exact hs.total
  · rw [hsame.records_eq, hsame.summary]
    exact hs.keys

theorem HedgeInv.quiet (hinv : HedgeInv h) (hsame : SameHedges h.books t) :
    HedgeInv { books := t, executions := h.executions } := by
  refine ⟨hinv.countable.congr hsame, hinv.summary.congr hsame, ?_⟩
  rw [hsame.records_eq]
  exact hinv.records

theorem HedgeInv.hasHedge_iff (hinv : HedgeInv h) :
    h.books.HasHedge r.venue r.hedgeId ↔
      ∃ e ∈ h.executions, e.venue = r.venue ∧ e.hedgeId = r.hedgeId := by
  rw [ExecutionBooks.HasHedge, hinv.records]
  simp [and_assoc]

theorem HedgeInv.known (hinv : HedgeInv h) (hknown : h.books.HasHedge r.venue r.hedgeId) :
    HedgeInv { books := h.books, executions := addHedge h.executions r } := by
  rw [addHedge, if_pos (hinv.hasHedge_iff.mp hknown)]
  exact hinv

theorem HedgeInv.store (hinv : HedgeInv h) (hsame : SameHedges (storeRecord h.books r) t)
    (hnew : ¬ h.books.HasHedge r.venue r.hedgeId) (hok : StoreOk h.books r) :
    HedgeInv { books := t, executions := addHedge h.executions r } := by
  rw [addHedge, if_neg (fun hknown => hnew (hinv.hasHedge_iff.mpr hknown))]
  refine ⟨(hinv.countable.store hinv.summary hok).congr hsame,
    (hinv.summary.store hinv.countable hok).congr hsame, ?_⟩
  intro venue
  show t.records venue = (h.executions ++ [r]).filter (fun r => r.venue = venue)
  rw [hsame.records_eq, records_storeRecord, hinv.records, filter_append]
  by_cases hvenue : r.venue = venue
  · simp [hvenue]
  · simp [hvenue]

theorem HedgeInv.step (hinv : HedgeInv h) {a : HedgeAction} (hok : HedgeOk h a) :
    HedgeInv (hedgeHistoryStep h a) := by
  rw [hedgeHistoryStep]
  cases a with
  | report a =>
      rcases act_cases h.books a with ⟨now, report, rfl⟩ | ⟨hother, hsame⟩
      · obtain ⟨-, hrecords, hsummary⟩ := books_applyReport now h.books report
        rw [HedgeOk] at hok
        rw [hedgesOf]
        cases hbooked : h.books.booked report with
        | none =>
            rw [ExecutionBooks.newRecords, hbooked] at hrecords hsummary ⊢
            exact hinv.quiet ⟨hrecords, hsummary⟩
        | some intent =>
            rw [ExecutionBooks.newRecords, hbooked] at hrecords hsummary hok ⊢
            obtain ⟨hnew, hstore⟩ := hok _ (mem_singleton_self _)
            exact hinv.store ⟨hrecords, hsummary⟩ hnew hstore
      · have hnone : hedgesOf h.books (.report a) = [] := by
          cases a with
          | apply now report => exact absurd rfl (hother now report)
          | store intent => rfl
          | see key => rfl
          | countDuplicate => rfl
          | queue report => rfl
          | countReplayed => rfl
        rw [hnone]
        exact hinv.quiet ⟨hsame.records, hsame.summary⟩
  | record now hedge =>
      rw [HedgeOk] at hok
      rw [hedgeAct, recordHedgeExecution, hedgesOf]
      by_cases hid : hedge.hedgeId = ""
      · rw [if_pos hid, if_pos (Or.inl hid)]
        exact hinv
      · by_cases hvenue : hedge.venue = ""
        · rw [if_neg hid, if_pos hvenue, if_pos (Or.inr hvenue)]
          exact hinv
        · have hvalid : ¬ (hedge.hedgeId = "" ∨ hedge.venue = "") := by
            rintro (h | h)
            · exact hid h
            · exact hvenue h
          rw [if_neg hid, if_neg hvenue, if_neg hvalid]
          by_cases hknown : h.books.HasHedge hedge.venue hedge.hedgeId
          · rw [if_pos hknown]
            exact hinv.known (r := hedge.record now) hknown
          · rw [if_neg hknown]
            exact hinv.store (r := hedge.record now) ⟨rfl, rfl⟩ hknown (hok hid hvenue hknown)

end Invariant

section Results

variable {s : ExecutionBooks} {h : HedgeHistory}

theorem exactTotals_filter_add (records : List HedgePnlRecord) {p q q' : HedgePnlRecord → Bool}
    (hparts : ∀ r ∈ records, p r = (q r || q' r) ∧ (q r && q' r) = false) :
    exactTotals (records.filter p) =
      exactTotals (records.filter q) + exactTotals (records.filter q') := by
  induction records with
  | nil => exact (add_zero (exactTotals [])).symm
  | cons r records ih =>
      have hrest := ih (fun r' hr' => hparts r' (mem_cons_of_mem _ hr'))
      obtain ⟨hcover, hdisjoint⟩ := hparts r (by simp)
      have hcons : ∀ l, exactTotals (r :: l) = exactTotals [r] + exactTotals l := by
        intro l
        simp [exactTotals]
      cases hq : q r with
      | true =>
          have hq' : q' r = false := by simpa [hq] using hdisjoint
          have hp : p r = true := by simpa [hq] using hcover
          rw [filter_cons_of_pos hp, filter_cons_of_pos hq,
            filter_cons_of_neg (by simp [hq']), hcons, hcons (records.filter q), hrest,
            add_assoc]
      | false =>
          cases hq' : q' r with
          | true =>
              have hp : p r = true := by simpa [hq, hq'] using hcover
              rw [filter_cons_of_pos hp, filter_cons_of_neg (by simp [hq]),
                filter_cons_of_pos hq', hcons, hcons (records.filter q'), hrest,
                add_left_comm]
          | false =>
              have hp : p r = false := by simpa [hq, hq'] using hcover
              rw [filter_cons_of_neg (by simp [hp]), filter_cons_of_neg (by simp [hq]),
                filter_cons_of_neg (by simp [hq']), hrest]

theorem inWindow_split
    {fromTime toTime : Option Int} {last first : Int} (hadjacent : first = last + 1)
    (hafter : ∀ a ∈ fromTime, a ≤ first) (hbefore : ∀ b ∈ toTime, last ≤ b) (x : Int) :
    (InWindow fromTime toTime x ↔
        InWindow fromTime (some last) x ∨ InWindow (some first) toTime x) ∧
      ¬ (InWindow fromTime (some last) x ∧ InWindow (some first) toTime x) := by
  have hlast : InWindow fromTime (some last) x ↔ (∀ a ∈ fromTime, a ≤ x) ∧ x ≤ last := by
    simp [InWindow]
  have hfirst : InWindow (some first) toTime x ↔ first ≤ x ∧ ∀ b ∈ toTime, x ≤ b := by
    simp [InWindow]
  rw [hlast, hfirst, InWindow]
  constructor
  · constructor
    · rintro ⟨hfrom, hto⟩
      by_cases hx : x ≤ last
      · exact Or.inl ⟨hfrom, hx⟩
      · exact Or.inr ⟨by omega, hto⟩
    · rintro (⟨hfrom, hx⟩ | ⟨hx, hto⟩)
      · exact ⟨hfrom, fun b hb => hx.trans (hbefore b hb)⟩
      · exact ⟨fun a ha => (hafter a ha).trans hx, hto⟩
  · rintro ⟨⟨-, hx⟩, hx', -⟩
    omega

theorem statedTotals_getHedgePnl (hs : Countable s) {venues : List VenueRecords}
    (horder : venues.Perm s.hedgePnlRecords.entries) (req : GetHedgePnLRequest)
    (venue instrumentSymbol : String) :
    statedTotals (getHedgePnl venues req) venue instrumentSymbol =
      exactTotals (s.selected req venue instrumentSymbol) :=
  (reports_getHedgePnl hs horder req venue instrumentSymbol).totals

theorem exactTotals_split (s : ExecutionBooks) {req : GetHedgePnLRequest} {last first : Timestamp}
    (hsplit : Splits req last first) (venue instrumentSymbol : String) :
    exactTotals (s.selected req venue instrumentSymbol) =
      exactTotals (s.selected { req with toTime := some last } venue instrumentSymbol) +
        exactTotals (s.selected { req with fromTime := some first } venue instrumentSymbol) := by
  apply exactTotals_filter_add
  intro r _
  have hafter : ∀ a ∈ req.fromTime.map timestampToTimePoint, a ≤ timestampToTimePoint first := by
    intro a ha
    obtain ⟨ts, hts, rfl⟩ := Option.map_eq_some_iff.mp ha
    exact hsplit.after ts hts
  have hbefore : ∀ b ∈ req.toTime.map timestampToTimePoint, timestampToTimePoint last ≤ b := by
    intro b hb
    obtain ⟨ts, hts, rfl⟩ := Option.map_eq_some_iff.mp hb
    exact hsplit.before ts hts
  obtain ⟨hcover, hdisjoint⟩ := inWindow_split hsplit.adjacent hafter hbefore r.timestamp
  constructor
  · rw [← Bool.decide_or, decide_eq_decide]
    simp only [GetHedgePnLRequest.Visits, GetHedgePnLRequest.Selects, hcover, Option.map_some]
    tauto
  · rw [← Bool.decide_and, decide_eq_false_iff_not]
    rintro ⟨hfirst, hlast⟩
    exact hdisjoint ⟨hfirst.2.2, hlast.2.2⟩

theorem HedgeInv.recordsOf_eq (hinv : HedgeInv h) (venue instrumentSymbol : String) :
    h.books.recordsOf venue instrumentSymbol = h.executionsOf venue instrumentSymbol := by
  rw [ExecutionBooks.recordsOf, HedgeHistory.executionsOf, hinv.records, List.filter_filter]
  apply filter_congr
  intro r _
  simp [Bool.and_comm]

theorem HedgeInv.selected_eq (hinv : HedgeInv h) (venue instrumentSymbol : String) :
    h.books.selected {} venue instrumentSymbol = h.executionsOf venue instrumentSymbol := by
  rw [ExecutionBooks.selected, hinv.recordsOf_eq, filter_eq_self]
  intro r _
  simp [GetHedgePnLRequest.Visits, GetHedgePnLRequest.Selects, InWindow]

theorem HedgeInv.hedgesCounted (hinv : HedgeInv h) : HedgesCounted h := by
  refine ⟨?_, ?_, ?_, ?_⟩
  · intro venues horder venue instrumentSymbol
    rw [← hinv.selected_eq]
    exact reports_getHedgePnl hinv.countable horder {} venue instrumentSymbol
  · intro venues horder venue instrumentSymbol hsome
    rw [statedTotals_getHedgePnl hinv.countable horder, hinv.selected_eq]
    have hexact := (hinv.countable.totals venue instrumentSymbol none none).1
    have hall : between none none (h.books.recordsOf venue instrumentSymbol) =
        h.executionsOf venue instrumentSymbol := by
      rw [between, hinv.recordsOf_eq, filter_eq_self]
      intro r _
      simp [InWindow]
    rw [hall] at hexact
    rw [← hinv.recordsOf_eq] at hsome
    rw [hinv.summary.total venue instrumentSymbol hsome, hinv.recordsOf_eq]
    cases htotal : runningTotal HedgePnlRecord.hedgePnl (h.executionsOf venue instrumentSymbol) with
    | none =>
        rw [runningTotal, rowOf_none_iff] at htotal
        rw [hinv.recordsOf_eq] at hsome
        exact absurd htotal.2 hsome
    | some total =>
        rw [htotal] at hexact
        refine ⟨total, rfl, ?_⟩
        rw [exactTotals_eq]
        exact hexact
  · intro key total hlookup
    obtain ⟨venue, r, hr, hkey⟩ := hinv.summary.keys key total hlookup
    rw [hinv.records] at hr
    exact ⟨r, mem_of_mem_filter hr, hkey⟩
  · intro venues horder req last first hsplit venue instrumentSymbol
    rw [statedTotals_getHedgePnl hinv.countable horder,
      statedTotals_getHedgePnl hinv.countable horder,
      statedTotals_getHedgePnl hinv.countable horder]
    exact exactTotals_split h.books hsplit venue instrumentSymbol

theorem hedgeInv_opening (hrecords : s.hedgePnlRecords = ∅) (hsummary : s.hedgePnlSummary = ∅) :
    HedgeInv { books := s } := by
  have hnone : ∀ venue, s.records venue = [] := by
    intro venue
    rw [ExecutionBooks.records, hrecords]
    rfl
  have hnoneOf : ∀ venue instrumentSymbol, s.recordsOf venue instrumentSymbol = [] := by
    intro venue instrumentSymbol
    rw [ExecutionBooks.recordsOf, hnone]
    rfl
  refine ⟨⟨?_, ?_, ?_, ?_, ?_⟩, ⟨?_, ?_⟩, ?_⟩
  · simp [hnone]
  · simp [hnone]
  · simp [hnoneOf]
  · simp [hnoneOf]
  · intro venue instrumentSymbol fromTime toTime
    rw [hnoneOf]
    exact ⟨rfl, rfl⟩
  · simp [hnoneOf]
  · intro key total hlookup
    rw [hsummary] at hlookup
    cases hlookup
  · exact hnone

/-- Along every run whose actions meet the condition, each hedge execution is counted
once: by the query, by the summary and over the parts of a time range. -/
theorem hedges_counted_once (hrecords : s.hedgePnlRecords = ∅) (hsummary : s.hedgePnlSummary = ∅)
    {calls : List HedgeCall}
    (hmeet : StepsMeet hedgeHistoryStep HedgeOk { books := s } (hedgeActions s calls)) (n : Nat) :
    HedgesCounted (run hedgeHistoryStep { books := s } ((hedgeActions s calls).take n)) := by
  rw [← List.take_append_drop n (hedgeActions s calls)] at hmeet
  exact (run_invariant HedgeInv (fun _ _ hinv hok => hinv.step hok)
    (hedgeInv_opening hrecords hsummary) hmeet.prefix).hedgesCounted

end Results

/-- A hedge reported directly: 0.1 BTC sold at 60000 against 50000 inside. -/
def sampleHedge (hedgeId venue instrumentSymbol : String) : HedgeExecution where
  hedgeId := hedgeId
  venue := venue
  instrumentSymbol := instrumentSymbol
  side := .sell
  executedQty := Decimal.of 10000000 8
  executedPrice := Decimal.of 6000000 2
  internalPrice := Decimal.of 5000000 2
  timestamp := some { seconds := 5 }

/-- Two reports and two direct hedges, the second with the id of the first report. -/
def sampleHedges : List HedgeCall :=
  (sampleCalls (Decimal.of 2 0)
    [sampleReport "r1" "v1" .partiallyFilled (Decimal.of 1 0) (Decimal.of 100 0) none,
      sampleReport "r2" "v1" .filled (Decimal.of 2 0) (Decimal.of 101 0) none]).map .execution ++
    [.recordHedgeExecution 0 (sampleHedge "h1" "binance" "BTC/USDT"),
      .recordHedgeExecution 0 (sampleHedge "r1" "binance" "BTC/USDT")]

/-- The three executions of `sampleHedges` are counted once. -/
theorem sampleHedges_counted_once :
    HedgesCounted (run hedgeHistoryStep { books := {} } ((hedgeActions {} sampleHedges).take 7)) :=
  hedges_counted_once rfl rfl (by decide +kernel) 7

def unnamedReport (reportId : String) (filledQty : Decimal) : ExecutionReport :=
  { sampleReport reportId "v1" .partiallyFilled filledQty (Decimal.of 100 0) none with
    venue := "" }

/-- A direct hedge with the id of a later report is counted twice; of two reports
without a venue only the last is counted; and the hedges of two venues whose names and
instruments run together are counted in one row. -/
theorem hedges_miscounted :
    ¬ HedgesCounted (run hedgeHistoryStep { books := {} } (hedgeActions {}
        (.recordHedgeExecution 0 (sampleHedge "r1" "binance" "BTC/USDT") ::
          (sampleCalls (Decimal.of 2 0)
            [sampleReport "r1" "v1" .filled (Decimal.of 2 0) (Decimal.of 100 0) none]).map
              .execution))) ∧
      ¬ HedgesCounted (run hedgeHistoryStep { books := {} } (hedgeActions {}
          ((sampleCalls (Decimal.of 2 0)
            [unnamedReport "r1" (Decimal.of 1 0), unnamedReport "r2" (Decimal.of 2 0)]).map
              .execution))) ∧
      ¬ HedgesCounted (run hedgeHistoryStep { books := {} } (hedgeActions {}
          [.recordHedgeExecution 0 (sampleHedge "h1" "a" "b|c"),
            .recordHedgeExecution 0 (sampleHedge "h2" "a|b" "c")])) := by
  refine ⟨?_, ?_, ?_⟩
  · intro h
    have hreports := (h.query _ (List.Perm.refl _) "binance" "BTC/USDT").totals
    revert hreports
    decide +kernel
  · intro h
    have hreports := (h.query _ (List.Perm.refl _) "" "BTC/USDT").totals
    revert hreports
    decide +kernel
  · intro h
    have hreports := (h.query _ (List.Perm.refl _) "a" "b|c").totals
    have hreports' := (h.query _ (List.Perm.refl _) "a|b" "c").totals
    revert hreports hreports'
    decide +kernel

end Ledger
end ContExchange
