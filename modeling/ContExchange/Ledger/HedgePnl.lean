import ContExchange.Ledger.ExecutionRuns
import ContExchange.Ledger.Operations
import ContExchange.Lib.Grouping

/-!
# Ledger: hedge PnL

`RecordHedgeExecution` is the second entry point that writes hedge records, with a
duplicate check of its own.  `GetHedgePnL` groups the records by venue and
instrument; a row of the result whose venue is still empty counts as just created.

The query keeps to its specification on books that are `Countable`: a row of the
result then holds the sums and the number of the records it stands for.
-/

namespace ContExchange
namespace Ledger

open Common Lib AList Option
open List hiding filter filter_filter map_map sum

structure HedgeExecution where
  hedgeId : String
  venue : String
  instrumentSymbol : String
  side : Side
  executedQty : Decimal
  executedPrice : Decimal
  internalPrice : Decimal
  timestamp : Option Timestamp := none
deriving DecidableEq

structure RecordHedgeExecutionResponse where
  success : Bool
  error : Option LedgerError := none
deriving DecidableEq

/-- `fob.ledger.v1.GetHedgePnLRequest`; an empty filter selects everything. -/
structure GetHedgePnLRequest where
  venue : String := ""
  instrumentSymbol : String := ""
  fromTime : Option Timestamp := none
  toTime : Option Timestamp := none
deriving DecidableEq

structure HedgePnL where
  venue : String := ""
  instrumentSymbol : String := ""
  totalHedgePnl : Decimal := Decimal.zero
  hedgeCount : Int := 0
  totalHedgeVolume : Decimal := Decimal.zero
deriving DecidableEq

/-- The record of a hedge that is reported directly. -/
def HedgeExecution.record (now : Int) (hedge : HedgeExecution) : HedgePnlRecord where
  hedgeId := hedge.hedgeId
  venue := hedge.venue
  instrumentSymbol := hedge.instrumentSymbol
  side := hedge.side
  executedQty := hedge.executedQty
  executedPrice := hedge.executedPrice
  internalPrice := hedge.internalPrice
  hedgePnl := calculateHedgePnl hedge.side hedge.executedPrice hedge.internalPrice
    hedge.executedQty
  timestamp := (hedge.timestamp.map timestampToTimePoint).getD now

def ExecutionBooks.HasHedge (s : ExecutionBooks) (venue hedgeId : String) : Prop :=
  ∃ existing ∈ s.records venue, existing.hedgeId = hedgeId
deriving Decidable

def recordHedgeExecution
    (now : Int) (s : ExecutionBooks) (hedge : HedgeExecution) :
    ExecutionBooks × RecordHedgeExecutionResponse :=
  if hedge.hedgeId = "" then
    (s, { success := false
          error := some { code := "INVALID_HEDGE_ID", message := "hedge_id cannot be empty" } })
  else if hedge.venue = "" then
    (s, { success := false
          error := some { code := "INVALID_VENUE", message := "venue cannot be empty" } })
  else if s.HasHedge hedge.venue hedge.hedgeId then (s, { success := true })
  else (storeRecord s (hedge.record now), { success := true })

/-- The time point lies between two optional bounds, both included. -/
def InWindow (fromTime toTime : Option Int) (t : Int) : Prop :=
  (∀ a ∈ fromTime, a ≤ t) ∧ ∀ b ∈ toTime, t ≤ b
deriving Decidable

/-- The record passes the filters by instrument and time. -/
def GetHedgePnLRequest.Selects (req : GetHedgePnLRequest) (record : HedgePnlRecord) : Prop :=
  (req.instrumentSymbol ≠ "" → record.instrumentSymbol = req.instrumentSymbol) ∧
    InWindow (req.fromTime.map timestampToTimePoint) (req.toTime.map timestampToTimePoint)
      record.timestamp
deriving Decidable

def GetHedgePnLRequest.Visits (req : GetHedgePnLRequest) (venue : String) : Prop :=
  req.venue ≠ "" → venue = req.venue
deriving Decidable

/-- A 32-bit integer, wrapping on overflow. -/
def int32 (z : Int) : Int :=
  Int.bmod z (2 ^ 32)

def accumulate (row : Option HedgePnL) (venue : String) (record : HedgePnlRecord) : HedgePnL :=
  let agg := row.getD {}
  if agg.venue = "" then
    { venue
      instrumentSymbol := record.instrumentSymbol
      totalHedgePnl := record.hedgePnl
      hedgeCount := 1
      totalHedgeVolume := record.executedQty }
  else
    { agg with
      totalHedgePnl := Decimal.add agg.totalHedgePnl record.hedgePnl
      hedgeCount := int32 (agg.hedgeCount + 1)
      totalHedgeVolume := Decimal.add agg.totalHedgeVolume record.executedQty }

/-- One round of the loop over the records of a venue. -/
def aggregateRecord
    (req : GetHedgePnLRequest) (venue : String) (aggMap : Table String HedgePnL)
    (record : HedgePnlRecord) : Table String HedgePnL :=
  if req.Selects record then
    let key := summaryKey venue record.instrumentSymbol
    aggMap.insert key (accumulate (aggMap.lookup key) venue record)
  else aggMap

/-- A row of `hedge_pnl_records_`. -/
abbrev VenueRecords := Sigma fun _ : String => List HedgePnlRecord

/-- One round of the loop over the venues. -/
def aggregateVenue
    (req : GetHedgePnLRequest) (aggMap : Table String HedgePnL) (venue : VenueRecords) :
    Table String HedgePnL :=
  if req.Visits venue.1 then run (aggregateRecord req venue.1) aggMap venue.2 else aggMap

/-- `LedgerUseCases::GetHedgePnL` over the venues in the order of the hash map; the order
of the results is not determined either. -/
def getHedgePnl (venues : List VenueRecords) (req : GetHedgePnLRequest) : List HedgePnL :=
  (run (aggregateVenue req) ∅ venues).entries.map Sigma.snd

/-- The running total of a list, as the source adds it up. -/
def runningTotal (value : HedgePnlRecord → Decimal) (records : List HedgePnlRecord) :
    Option Decimal :=
  rowOf (fun total record => total.elim (value record) (Decimal.add · (value record)))
    none records

/-- The PnL, the volume and the number of a list of records. -/
def exactTotals (records : List HedgePnlRecord) : ℚ × ℚ × ℤ :=
  (records.map (fun r => (r.hedgePnl.toRat, r.executedQty.toRat, 1))).sum

def HedgePnL.About (venue instrumentSymbol : String) (row : HedgePnL) : Prop :=
  row.venue = venue ∧ row.instrumentSymbol = instrumentSymbol
deriving Decidable

/-- The PnL, the volume and the number a row states. -/
def HedgePnL.totals (row : HedgePnL) : ℚ × ℚ × ℤ :=
  (row.totalHedgePnl.toRat, row.totalHedgeVolume.toRat, row.hedgeCount)

def statedTotals (rows : List HedgePnL) (venue instrumentSymbol : String) : ℚ × ℚ × ℤ :=
  (rows.map (fun row => if row.About venue instrumentSymbol then row.totals else 0)).sum

/-- A result reports the records of a venue and an instrument: in one row if there are
any, and with their exact totals. -/
structure Reports
    (rows : List HedgePnL) (venue instrumentSymbol : String)
    (records : List HedgePnlRecord) : Prop where
  inRow : rows.countP (fun row => row.About venue instrumentSymbol) =
    if records = [] then 0 else 1
  totals : statedTotals rows venue instrumentSymbol = exactTotals records

def TotalsExact (records : List HedgePnlRecord) : Prop :=
  (runningTotal HedgePnlRecord.hedgePnl records).elim 0 Decimal.toRat =
      (records.map (·.hedgePnl.toRat)).sum ∧
    (runningTotal HedgePnlRecord.executedQty records).elim 0 Decimal.toRat =
      (records.map (·.executedQty.toRat)).sum

def ExecutionBooks.recordsOf (s : ExecutionBooks) (venue instrumentSymbol : String) :
    List HedgePnlRecord :=
  (s.records venue).filter (fun r => r.instrumentSymbol = instrumentSymbol)

/-- The records between two optional time points. -/
def between (fromTime toTime : Option Int) (records : List HedgePnlRecord) :
    List HedgePnlRecord :=
  records.filter (fun r => InWindow fromTime toTime r.timestamp)

def HedgePnlRecord.key (r : HedgePnlRecord) : String :=
  summaryKey r.venue r.instrumentSymbol

/-- Books on which the query counts correctly. -/
structure Countable (s : ExecutionBooks) : Prop where
  venue : ∀ venue, ∀ r ∈ s.records venue, r.venue = venue
  /-- no two venues share a key -/
  key : ∀ venue venue', ∀ r ∈ s.records venue, ∀ r' ∈ s.records venue',
    r.key = r'.key → r.venue = r'.venue
  /-- a row without a venue is created anew by every record -/
  unnamed : ∀ instrumentSymbol, (s.recordsOf "" instrumentSymbol).length ≤ 1
  number : ∀ venue instrumentSymbol, (s.recordsOf venue instrumentSymbol).length < 2 ^ 31
  totals : ∀ venue instrumentSymbol fromTime toTime,
    TotalsExact (between fromTime toTime (s.recordsOf venue instrumentSymbol))

theorem exactTotals_eq (records : List HedgePnlRecord) :
    exactTotals records =
      ((records.map (·.hedgePnl.toRat)).sum, (records.map (·.executedQty.toRat)).sum,
        (records.length : ℤ)) := by
  induction records with
  | nil => rfl
  | cons r records ih =>
      rw [exactTotals, map_cons, sum_cons, ← exactTotals, ih]
      simp only [map_cons, sum_cons, Prod.mk_add_mk, length_cons]
      push_cast
      rw [add_comm (1 : ℤ)]

/-- The records a query takes into account. -/
def GetHedgePnLRequest.selection (req : GetHedgePnLRequest) (venues : List VenueRecords) :
    List HedgePnlRecord :=
  venues.flatMap (fun v => if req.Visits v.1 then v.2.filter req.Selects else [])

def aggregate (records : List HedgePnlRecord) : Table String HedgePnL :=
  run (upsert HedgePnlRecord.key (fun row r => accumulate row r.venue r)) ∅ records

/-- The records of a venue and an instrument that a query takes into account. -/
def ExecutionBooks.selected
    (s : ExecutionBooks) (req : GetHedgePnLRequest) (venue instrumentSymbol : String) :
    List HedgePnlRecord :=
  (s.recordsOf venue instrumentSymbol).filter (fun r => req.Visits venue ∧ req.Selects r)

theorem summaryKey_inj {venue i i' : String} (h : summaryKey venue i = summaryKey venue i') :
    i = i' :=
  (String.append_right_inj _).mp h

section Grouping

variable {req : GetHedgePnLRequest} {venues : List VenueRecords}

theorem run_aggregateRecord
    (req : GetHedgePnLRequest) {venue : String} {records : List HedgePnlRecord}
    (hvenue : ∀ r ∈ records, r.venue = venue) (t : Table String HedgePnL) :
    run (aggregateRecord req venue) t records =
      run (upsert HedgePnlRecord.key (fun row r => accumulate row r.venue r)) t
        (records.filter req.Selects) := by
  induction records generalizing t with
  | nil => rfl
  | cons r records ih =>
      have hrest := ih (fun r' hr' => hvenue r' (mem_cons_of_mem _ hr'))
      rw [run_cons, aggregateRecord]
      by_cases hselects : req.Selects r
      · rw [if_pos hselects, hrest, filter_cons_of_pos (by simpa using hselects), run_cons,
          upsert, HedgePnlRecord.key, hvenue r (by simp)]
      · rw [if_neg hselects, hrest, filter_cons_of_neg (by simpa using hselects)]

theorem getHedgePnl_eq
    (hvenue : ∀ v ∈ venues, ∀ r ∈ v.2, r.venue = v.1) :
    getHedgePnl venues req = (aggregate (req.selection venues)).entries.map Sigma.snd := by
  have hrun : ∀ t : Table String HedgePnL, run (aggregateVenue req) t venues =
      run (upsert HedgePnlRecord.key (fun row r => accumulate row r.venue r)) t
        (req.selection venues) := by
    rw [GetHedgePnLRequest.selection]
    induction venues with
    | nil => exact fun _ => rfl
    | cons v venues ih =>
        intro t
        have hrest := ih (fun v' hv' => hvenue v' (mem_cons_of_mem _ hv'))
        rw [run_cons, hrest, flatMap_cons, run_append, aggregateVenue]
        split
        · rw [run_aggregateRecord req (hvenue v (by simp))]
        · rfl
  rw [getHedgePnl, hrun, aggregate]

theorem rowOf_accumulate
    {row : HedgePnL} (hvenue : row.venue ≠ "") {records : List HedgePnlRecord}
    (hlo : 0 ≤ row.hedgeCount) (hhi : row.hedgeCount + records.length < 2 ^ 31) :
    ∃ row', rowOf (fun row r => accumulate row r.venue r) (some row) records = some row' ∧
      row'.venue = row.venue ∧ row'.instrumentSymbol = row.instrumentSymbol ∧
      row'.hedgeCount = row.hedgeCount + records.length ∧
      rowOf (fun total r => total.elim r.hedgePnl (Decimal.add · r.hedgePnl))
        (some row.totalHedgePnl) records = some row'.totalHedgePnl ∧
      rowOf (fun total r => total.elim r.executedQty (Decimal.add · r.executedQty))
        (some row.totalHedgeVolume) records = some row'.totalHedgeVolume := by
  induction records generalizing row with
  | nil => exact ⟨row, rfl, rfl, rfl, by simp, rfl, rfl⟩
  | cons r records ih =>
      rw [length_cons] at hhi
      push_cast at hhi
      have hcount : int32 (row.hedgeCount + 1) = row.hedgeCount + 1 :=
        Int.bmod_eq_of_le (by norm_num; omega) (by norm_num; omega)
      have hstep : accumulate (some row) r.venue r =
          { row with
            totalHedgePnl := Decimal.add row.totalHedgePnl r.hedgePnl
            hedgeCount := row.hedgeCount + 1
            totalHedgeVolume := Decimal.add row.totalHedgeVolume r.executedQty } := by
        rw [accumulate, Option.getD_some, if_neg hvenue, hcount]
      obtain ⟨row', hrow, hvenue', hsymbol, hnumber, hpnl, hvolume⟩ :=
        @ih (accumulate (some row) r.venue r) (by rw [hstep]; exact hvenue)
          (by rw [hstep]; dsimp only; omega) (by rw [hstep]; dsimp only; omega)
      rw [hstep] at hvenue' hsymbol hnumber hpnl hvolume
      refine ⟨row', hrow, hvenue', hsymbol, ?_, hpnl, hvolume⟩
      rw [hnumber, length_cons]
      push_cast
      ring

theorem rowOf_records
    {venue instrumentSymbol : String} {records : List HedgePnlRecord}
    (hpair : ∀ r ∈ records, r.venue = venue ∧ r.instrumentSymbol = instrumentSymbol)
    (hsome : records ≠ []) (hunnamed : venue = "" → records.length ≤ 1)
    (hnumber : records.length < 2 ^ 31) (hexact : TotalsExact records) :
    ∃ row, rowOf (fun row r => accumulate row r.venue r) none records = some row ∧
      row.About venue instrumentSymbol ∧ row.totals = exactTotals records := by
  cases records with
  | nil => exact absurd rfl hsome
  | cons r rest =>
      obtain ⟨hvenue, hsymbol⟩ := hpair r (by simp)
      rw [length_cons] at hnumber hunnamed
      let first : HedgePnL :=
        { venue
          instrumentSymbol
          totalHedgePnl := r.hedgePnl
          hedgeCount := 1
          totalHedgeVolume := r.executedQty }
      have hfirst : accumulate none r.venue r = first := by
        rw [accumulate, Option.getD_none, if_pos rfl, hvenue, hsymbol]
      obtain ⟨row, hrow, hvenue', hsymbol', hcount, hpnl, hvolume⟩ :
          ∃ row, rowOf (fun row r => accumulate row r.venue r) (some first) rest = some row ∧
            row.venue = venue ∧ row.instrumentSymbol = instrumentSymbol ∧
            row.hedgeCount = 1 + rest.length ∧
            runningTotal HedgePnlRecord.hedgePnl (r :: rest) = some row.totalHedgePnl ∧
            runningTotal HedgePnlRecord.executedQty (r :: rest) = some row.totalHedgeVolume := by
        by_cases hempty : venue = ""
        · have hrest : rest = [] := length_eq_zero_iff.mp (by have := hunnamed hempty; omega)
          subst hrest
          exact ⟨first, rfl, rfl, rfl, rfl, rfl, rfl⟩
        · have hhi : first.hedgeCount + rest.length < 2 ^ 31 := by
            show (1 : Int) + rest.length < 2 ^ 31
            omega
          exact @rowOf_accumulate first hempty rest zero_le_one hhi
      rw [TotalsExact, hpnl, hvolume] at hexact
      refine ⟨row, ?_, ⟨hvenue', hsymbol'⟩, ?_⟩
      · rw [rowOf_cons, hfirst, hrow]
      · rw [HedgePnL.totals, exactTotals_eq, ← hexact.1, ← hexact.2, hcount, length_cons]
        push_cast
        rw [add_comm (1 : Int)]
        rfl

end Grouping

section Query

variable
  {s : ExecutionBooks}
  {req : GetHedgePnLRequest}
  {venues : List VenueRecords}

theorem records_of_mem
    (horder : venues.Perm s.hedgePnlRecords.entries) {v : VenueRecords} (hv : v ∈ venues) :
    s.records v.1 = v.2 := by
  have hlookup : s.hedgePnlRecords.lookup v.1 = some v.2 :=
    mem_lookup_iff.mpr (horder.mem_iff.mp hv)
  rw [ExecutionBooks.records, hlookup, Option.getD_some]

theorem mem_selected {venue instrumentSymbol : String} {r : HedgePnlRecord} :
    r ∈ s.selected req venue instrumentSymbol ↔
      r ∈ s.records venue ∧ r.instrumentSymbol = instrumentSymbol ∧
        req.Visits venue ∧ req.Selects r := by
  rw [ExecutionBooks.selected, ExecutionBooks.recordsOf, mem_filter, mem_filter,
    and_assoc, decide_eq_true_eq, decide_eq_true_eq]

theorem filter_selection
    (hs : Countable s) (horder : venues.Perm s.hedgePnlRecords.entries)
    (venue instrumentSymbol : String) :
    (req.selection venues).filter
        (fun r => r.venue = venue ∧ r.instrumentSymbol = instrumentSymbol) =
      s.selected req venue instrumentSymbol := by
  have hkeys : venues.NodupKeys := (perm_nodupKeys horder).mpr s.hedgePnlRecords.nodupKeys
  rw [GetHedgePnLRequest.selection, filter_flatMap, flatMap_of_only hkeys venue]
  · have hlookup : venues.dlookup venue = s.hedgePnlRecords.lookup venue :=
      perm_dlookup venue hkeys horder
    have hvenue : ∀ r ∈ s.records venue, r.venue = venue := hs.venue venue
    rw [hlookup, ExecutionBooks.selected, ExecutionBooks.recordsOf]
    rw [ExecutionBooks.records] at hvenue ⊢
    cases hrow : s.hedgePnlRecords.lookup venue with
    | none => rfl
    | some records =>
        rw [hrow, getD_some] at hvenue
        rw [elim_some, getD_some]
        by_cases hvisits : req.Visits venue
        · rw [if_pos hvisits, List.filter_filter, List.filter_filter]
          apply filter_congr
          intro r hr
          simp [hvenue r hr, hvisits, Bool.and_comm]
        · rw [if_neg hvisits]
          simp [hvisits]
  · intro v hv hne
    rw [filter_eq_nil_iff]
    intro r hr
    split at hr
    · have hvenue := hs.venue v.1 r
      rw [records_of_mem horder hv] at hvenue
      rw [hvenue (mem_of_mem_filter hr)]
      simp [hne]
    · cases hr

section Keys

variable (hs : Countable s) (horder : venues.Perm s.hedgePnlRecords.entries)

include hs horder

theorem mem_selection {r : HedgePnlRecord} :
    r ∈ req.selection venues ↔ r ∈ s.selected req r.venue r.instrumentSymbol := by
  rw [← filter_selection hs horder, mem_filter]
  simp

theorem filter_key {r₀ : HedgePnlRecord} (hr₀ : r₀ ∈ req.selection venues) :
    (req.selection venues).filter (fun r => r.key = r₀.key) =
      s.selected req r₀.venue r₀.instrumentSymbol := by
  rw [← filter_selection hs horder]
  apply filter_congr
  intro r hr
  have hmem := (mem_selected.mp ((mem_selection hs horder).mp hr)).1
  have hmem₀ := (mem_selected.mp ((mem_selection hs horder).mp hr₀)).1
  rw [decide_eq_decide]
  constructor
  · intro hkey
    have hvenue := hs.key _ _ r hmem r₀ hmem₀ hkey
    rw [HedgePnlRecord.key, HedgePnlRecord.key, hvenue] at hkey
    exact ⟨hvenue, summaryKey_inj hkey⟩
  · rintro ⟨hvenue, hsymbol⟩
    rw [HedgePnlRecord.key, HedgePnlRecord.key, hvenue, hsymbol]

end Keys

theorem Countable.selected_exact
    (hs : Countable s) (req : GetHedgePnLRequest) (venue instrumentSymbol : String) :
    TotalsExact (s.selected req venue instrumentSymbol) := by
  by_cases hfilter : req.Visits venue ∧
      (req.instrumentSymbol ≠ "" → instrumentSymbol = req.instrumentSymbol)
  · have hbetween : s.selected req venue instrumentSymbol =
        between (req.fromTime.map timestampToTimePoint) (req.toTime.map timestampToTimePoint)
          (s.recordsOf venue instrumentSymbol) := by
      rw [ExecutionBooks.selected, between]
      apply filter_congr
      intro r hr
      have hsymbol : r.instrumentSymbol = instrumentSymbol := by
        simpa using of_mem_filter hr
      rw [decide_eq_decide, GetHedgePnLRequest.Selects, hsymbol]
      exact ⟨fun h => h.2.2, fun h => ⟨hfilter.1, hfilter.2, h⟩⟩
    rw [hbetween]
    exact hs.totals venue instrumentSymbol _ _
  · have hnone : s.selected req venue instrumentSymbol = [] := by
      rw [eq_nil_iff_forall_not_mem]
      intro r hr
      obtain ⟨-, hsymbol, hvisits, hselects⟩ := mem_selected.mp hr
      refine hfilter ⟨hvisits, ?_⟩
      rw [← hsymbol]
      exact hselects.1
    rw [hnone]
    exact ⟨rfl, rfl⟩

theorem lookup_aggregate
    (hs : Countable s) (horder : venues.Perm s.hedgePnlRecords.entries)
    {r₀ : HedgePnlRecord} (hr₀ : r₀ ∈ req.selection venues) :
    ∃ row, (aggregate (req.selection venues)).lookup r₀.key = some row ∧
      row.About r₀.venue r₀.instrumentSymbol ∧
      row.totals = exactTotals (s.selected req r₀.venue r₀.instrumentSymbol) := by
  rw [aggregate, lookup_run_upsert, filter_key hs horder hr₀, lookup_empty]
  have hmem := (mem_selection hs horder).mp hr₀
  have hle : (s.selected req r₀.venue r₀.instrumentSymbol).length ≤
      (s.recordsOf r₀.venue r₀.instrumentSymbol).length :=
    length_filter_le _ _
  refine rowOf_records ?_ (ne_nil_of_mem hmem) ?_ ?_ (hs.selected_exact req _ _)
  · intro r hr
    obtain ⟨hrecord, hsymbol, -⟩ := mem_selected.mp hr
    exact ⟨hs.venue _ r hrecord, hsymbol⟩
  · intro hempty
    have hone := hs.unnamed r₀.instrumentSymbol
    rw [← hempty] at hone
    exact hle.trans hone
  · exact hle.trans_lt (hs.number _ _)

theorem selection_of_lookup
    {key : String} {row : HedgePnL}
    (h : (aggregate (req.selection venues)).lookup key = some row) :
    ∃ r₀ ∈ req.selection venues, r₀.key = key := by
  rw [aggregate, lookup_run_upsert, lookup_empty] at h
  by_contra hnone
  push Not at hnone
  rw [filter_eq_nil_iff.mpr (by simpa using hnone), rowOf_nil] at h
  cases h

theorem countP_eq_sum {α : Type*} (p : α → Bool) (l : List α) :
    l.countP p = (l.map (fun x => if p x then 1 else 0)).sum := by
  induction l with
  | nil => rfl
  | cons x l ih => rw [countP_cons, ih, map_cons, sum_cons, add_comm]

section Reports

variable (hs : Countable s) (horder : venues.Perm s.hedgePnlRecords.entries)

include hs horder

theorem key_of_about {key : String} {row : HedgePnL} {venue instrumentSymbol : String}
    (hrow : (aggregate (req.selection venues)).lookup key = some row)
    (habout : row.About venue instrumentSymbol) :
    key = summaryKey venue instrumentSymbol ∧ s.selected req venue instrumentSymbol ≠ [] := by
  obtain ⟨r₀, hr₀, rfl⟩ := selection_of_lookup hrow
  obtain ⟨row', hrow', ⟨hvenue', hsymbol'⟩, -⟩ := lookup_aggregate hs horder hr₀
  have hsame : row' = row := Option.some.inj (hrow'.symm.trans hrow)
  subst hsame
  have hmem := (mem_selection hs horder).mp hr₀
  rw [← hvenue', ← hsymbol', habout.1, habout.2] at hmem
  refine ⟨?_, ne_nil_of_mem hmem⟩
  rw [HedgePnlRecord.key, ← hvenue', ← hsymbol', habout.1, habout.2]

theorem sum_about {M : Type} [AddCommMonoid M] (f : HedgePnL → M)
    (venue instrumentSymbol : String) :
    Table.sum (fun _ row => if row.About venue instrumentSymbol then f row else 0)
        (aggregate (req.selection venues)) =
      ((aggregate (req.selection venues)).lookup (summaryKey venue instrumentSymbol)).elim 0
        (fun row => if row.About venue instrumentSymbol then f row else 0) := by
  apply Table.sum_of_only
  intro key row hrow hne
  rw [if_neg]
  exact fun h => hne (key_of_about hs horder hrow h).1

theorem sum_about_none {M : Type} [AddCommMonoid M] (f : HedgePnL → M)
    {venue instrumentSymbol : String} (hselected : s.selected req venue instrumentSymbol = []) :
    Table.sum (fun _ row => if row.About venue instrumentSymbol then f row else 0)
      (aggregate (req.selection venues)) = 0 := by
  rw [sum_about hs horder]
  cases hrow : (aggregate (req.selection venues)).lookup (summaryKey venue instrumentSymbol) with
  | none => rfl
  | some row =>
      rw [Option.elim_some, if_neg]
      exact fun h => (key_of_about hs horder hrow h).2 hselected

theorem sum_about_some {venue instrumentSymbol : String} {r : HedgePnlRecord}
    (hr : r ∈ s.selected req venue instrumentSymbol) :
    ∃ row : HedgePnL, row.totals = exactTotals (s.selected req venue instrumentSymbol) ∧
      ∀ {M : Type} [AddCommMonoid M] (f : HedgePnL → M),
        Table.sum (fun _ row => if row.About venue instrumentSymbol then f row else 0)
          (aggregate (req.selection venues)) = f row := by
  obtain ⟨hrecord, hsymbol, -⟩ := mem_selected.mp hr
  have hrvenue := hs.venue venue r hrecord
  have hmem : r ∈ req.selection venues := by
    rw [mem_selection hs horder, hrvenue, hsymbol]
    exact hr
  obtain ⟨row, hrow, habout, htotals⟩ := lookup_aggregate hs horder hmem
  rw [HedgePnlRecord.key] at hrow
  rw [hrvenue, hsymbol] at hrow habout htotals
  refine ⟨row, htotals, ?_⟩
  intro M _ f
  rw [sum_about hs horder, hrow, Option.elim_some, if_pos habout]

theorem reports_getHedgePnl (req : GetHedgePnLRequest) (venue instrumentSymbol : String) :
    Reports (getHedgePnl venues req) venue instrumentSymbol
      (s.selected req venue instrumentSymbol) := by
  have hvenue : ∀ v ∈ venues, ∀ r ∈ v.2, r.venue = v.1 := by
    intro v hv
    have h := hs.venue v.1
    rwa [records_of_mem horder hv] at h
  rw [getHedgePnl_eq hvenue]
  let t := aggregate (req.selection venues)
  have hcount : (t.entries.map Sigma.snd).countP (fun row => row.About venue instrumentSymbol) =
      Table.sum (fun _ row => if row.About venue instrumentSymbol then 1 else 0) t := by
    rw [countP_eq_sum, List.map_map]
    simp [Table.sum, Function.comp_def]
  have htotals : statedTotals (t.entries.map Sigma.snd) venue instrumentSymbol =
      Table.sum (fun _ row => if row.About venue instrumentSymbol then row.totals else 0) t := by
    rw [statedTotals, List.map_map]
    rfl
  cases hselected : s.selected req venue instrumentSymbol with
  | nil =>
      refine ⟨?_, ?_⟩
      · rw [hcount, sum_about_none hs horder (fun _ => 1) hselected, if_pos rfl]
      · rw [htotals, sum_about_none hs horder HedgePnL.totals hselected]
        rfl
  | cons r rest =>
      have hr : r ∈ s.selected req venue instrumentSymbol := by
        rw [hselected]
        exact mem_cons_self
      obtain ⟨row, hrowTotals, hsum⟩ := sum_about_some hs horder hr
      refine ⟨?_, ?_⟩
      · rw [hcount, hsum (fun _ => 1), if_neg (cons_ne_nil r rest)]
      · rw [htotals, hsum HedgePnL.totals, hrowTotals, hselected]

end Reports

end Query

end Ledger
end ContExchange
