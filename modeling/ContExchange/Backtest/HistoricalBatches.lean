import ContExchange.Lib.Selection
import ContExchange.Lib.Table
import Mathlib.Data.List.Induction
import Mathlib.Data.Prod.Lex
import Mathlib.Data.String.Basic

/-!
# Backtest: the historical batches

The loader reads the batch rows, the fills and the market data snapshots of a range of times
in chunks, sorts each of the three, and joins the fills of a batch and the snapshots of its
time to it.  The sorts are to make the result independent of the order in which the storage
returns the rows.  Their keys may tie: then the rows stay as `std::sort` happens to leave
them.

* `loadAllChunked_eq`: chunks of any positive size give all the rows;
* `lookup_groupRows`: the rows of a group are in the order they had;
* `reproducible_iff`: the result is independent of the chunks, the order of the rows and the
  sort exactly when different rows of a result never tie.
-/

namespace ContExchange
namespace Backtest
namespace HistoricalBatches

open Lib AList List

/-- `HistoricalBatchResultRow`, with what is only carried along. -/
structure HistoricalBatchResultRow (ρ : Type) where
  batchId : String
  eventTimeMs : Int
  rest : ρ

/-- `HistoricalFillRow`, with what is only carried along. -/
structure HistoricalFillRow (ρ : Type) where
  batchId : String
  eventTimeMs : Int
  orderId : String
  rest : ρ

/-- `HistoricalMarketdataSnapshotRow`, with what is only carried along. -/
structure HistoricalMarketdataSnapshotRow (ρ : Type) where
  venueId : String
  symbol : String
  eventTimeMs : Int
  rest : ρ

structure HistoricalBatch (ρ : Type) where
  batchResult : HistoricalBatchResultRow ρ
  fills : List (HistoricalFillRow ρ)
  marketdataSnapshots : List (HistoricalMarketdataSnapshotRow ρ)

/-- The rows of the storage, in the order in which it returns them. -/
structure Storage (ρ : Type) where
  batches : List (HistoricalBatchResultRow ρ)
  fills : List (HistoricalFillRow ρ)
  snapshots : List (HistoricalMarketdataSnapshotRow ρ)

structure Config where
  fromMs : Int := 0
  toMs : Int := 0
  chunkSize : Int := 1000

def Config.covers (config : Config) (timeMs : Int) : Bool :=
  decide (config.fromMs ≤ timeMs) && decide (timeMs ≤ config.toMs)

section Chunks

variable {Row : Type}

/-- A chunk of rows, as the storage answers a call. -/
def loadChunk (rows : List Row) (offset limit : Nat) : List Row :=
  (rows.drop offset).take limit

theorem length_loadChunk_le (rows : List Row) (offset limit : Nat) :
    (loadChunk rows offset limit).length ≤ rows.length - offset :=
  (length_take_le' _ _).trans_eq length_drop

/-- The loop of `LoadAllChunked`, which ends at a chunk that is not full. -/
def loadChunks (rows : List Row) (size : Nat) (hsize : 0 < size) (offset : Nat) : List Row :=
  if (loadChunk rows offset size).length < size then loadChunk rows offset size
  else
    loadChunk rows offset size ++
      loadChunks rows size hsize (offset + (loadChunk rows offset size).length)
termination_by rows.length - offset
decreasing_by
  have hlength := length_loadChunk_le rows offset size
  omega

def loadAllChunked (rows : List Row) (chunkSize : Int) : List Row :=
  if h : 0 < chunkSize then loadChunks rows chunkSize.toNat (Int.pos_iff_toNat_pos.mp h) 0 else []

theorem loadChunks_eq (rows : List Row) (size : Nat) (hsize : 0 < size) (offset : Nat) :
    loadChunks rows size hsize offset = rows.drop offset := by
  induction offset using loadChunks.induct rows size hsize with
  | case1 offset hless =>
      rw [loadChunks, if_pos hless]
      unfold loadChunk at hless ⊢
      rw [length_take] at hless
      exact take_of_length_le
        ((min_lt_iff.mp hless).elim (fun h => absurd h (lt_irrefl _)) le_of_lt)
  | case2 offset hless ih =>
      have hfull : (loadChunk rows offset size).length = size :=
        le_antisymm (length_take_le _ _) (not_lt.mp hless)
      rw [loadChunks, if_neg hless, ih, hfull, ← drop_drop]
      exact take_append_drop size _

theorem loadAllChunked_eq (rows : List Row) {chunkSize : Int} (h : 0 < chunkSize) :
    loadAllChunked rows chunkSize = rows := by
  unfold loadAllChunked
  rw [dif_pos h, loadChunks_eq, drop_zero]

end Chunks

section Groups

variable {κ Row : Type} [DecidableEq κ] (key : Row → κ)

/-- The map of the groups: each row is pushed to the rows of its key. -/
def groupRows (rows : List Row) : Table κ (List Row) :=
  rows.foldl (fun groups row =>
    groups.insert (key row) ((groups.lookup (key row)).getD [] ++ [row])) ∅

theorem lookup_groupRows (rows : List Row) (k : κ) :
    ((groupRows key rows).lookup k).getD [] = rows.filter (fun row => decide (key row = k)) := by
  unfold groupRows
  induction rows using List.reverseRecOn with
  | nil => rfl
  | append_singleton rows row ih =>
      rw [foldl_append, foldl_cons, foldl_nil, filter_append]
      by_cases hkey : key row = k
      · subst hkey
        rw [lookup_insert, Option.getD_some, ih, filter_cons_of_pos (by simp), filter_nil]
      · rw [lookup_insert_ne (Ne.symm hkey), ih,
          filter_cons_of_neg (by simpa using hkey), filter_nil, append_nil]

end Groups

section Loader

variable {ρ : Type}

def batchKey (row : HistoricalBatchResultRow ρ) : Int ×ₗ String :=
  toLex (row.eventTimeMs, row.batchId)

def fillKey (row : HistoricalFillRow ρ) : Int ×ₗ String ×ₗ String :=
  toLex (row.eventTimeMs, toLex (row.batchId, row.orderId))

def snapshotKey (row : HistoricalMarketdataSnapshotRow ρ) : Int ×ₗ String ×ₗ String :=
  toLex (row.eventTimeMs, toLex (row.venueId, row.symbol))

/-- The three calls of `std::sort`. -/
structure Sorts (ρ : Type) where
  batches : SortOf (@batchKey ρ)
  fills : SortOf (@fillKey ρ)
  snapshots : SortOf (@snapshotKey ρ)

def run (std : Sorts ρ) (config : Config) (storage : Storage ρ) : List (HistoricalBatch ρ) :=
  if config.toMs < config.fromMs then []
  else
    let batches := std.batches.sort
      (loadAllChunked (storage.batches.filter (config.covers ·.eventTimeMs)) config.chunkSize)
    let fills := std.fills.sort
      (loadAllChunked (storage.fills.filter (config.covers ·.eventTimeMs)) config.chunkSize)
    let snapshots := std.snapshots.sort
      (loadAllChunked (storage.snapshots.filter (config.covers ·.eventTimeMs)) config.chunkSize)
    let fillsByBatch := groupRows HistoricalFillRow.batchId fills
    let snapshotsByTs := groupRows HistoricalMarketdataSnapshotRow.eventTimeMs snapshots
    batches.map fun row =>
      { batchResult := row
        fills := (fillsByBatch.lookup row.batchId).getD []
        marketdataSnapshots := (snapshotsByTs.lookup row.eventTimeMs).getD [] }

/-- The sorts that leave tied rows in their order. -/
def stableSorts : Sorts ρ where
  batches := .stable _
  fills := .stable _
  snapshots := .stable _

/-- The same rows in another order. -/
structure Storage.Perm (storage storage' : Storage ρ) : Prop where
  batches : storage.batches.Perm storage'.batches
  fills : storage.fills.Perm storage'.fills
  snapshots : storage.snapshots.Perm storage'.snapshots

/-- The result does not depend on the sort, the size of the chunks and the order of the rows. -/
def Reproducible (fromMs toMs : Int) (storage : Storage ρ) : Prop :=
  ∀ (std : Sorts ρ) (storage' : Storage ρ) (chunkSize chunkSize' : Int),
    storage.Perm storage' → 0 < chunkSize → 0 < chunkSize' →
      run std { fromMs, toMs, chunkSize } storage =
        run std { fromMs, toMs, chunkSize := chunkSize' } storage'

def Loads (fromMs toMs : Int) (storage : Storage ρ) (row : HistoricalBatchResultRow ρ) : Prop :=
  row ∈ storage.batches ∧ fromMs ≤ row.eventTimeMs ∧ row.eventTimeMs ≤ toMs

/-- Different batches, different fills of a batch and different snapshots of its time have
different keys. -/
structure Untied (fromMs toMs : Int) (storage : Storage ρ) : Prop where
  batches : ∀ a b, Loads fromMs toMs storage a → Loads fromMs toMs storage b →
    batchKey a = batchKey b → a = b
  fills : ∀ row, Loads fromMs toMs storage row → ∀ f ∈ storage.fills, ∀ g ∈ storage.fills,
    fromMs ≤ f.eventTimeMs → f.eventTimeMs ≤ toMs → f.batchId = row.batchId →
    fillKey f = fillKey g → f = g
  snapshots : ∀ row, Loads fromMs toMs storage row → ∀ s ∈ storage.snapshots,
    ∀ t ∈ storage.snapshots, s.eventTimeMs = row.eventTimeMs → snapshotKey s = snapshotKey t → s = t

theorem covers_iff {config : Config} {t : Int} :
    config.covers t = true ↔ config.fromMs ≤ t ∧ t ≤ config.toMs := by
  simp [Config.covers]

theorem run_eq (std : Sorts ρ) (config : Config) (storage : Storage ρ) (h : 0 < config.chunkSize) :
    run std config storage =
      (std.batches.sort (storage.batches.filter (config.covers ·.eventTimeMs))).map fun row =>
        { batchResult := row
          fills := (std.fills.sort (storage.fills.filter (config.covers ·.eventTimeMs))).filter
            (fun f => decide (f.batchId = row.batchId))
          marketdataSnapshots :=
            (std.snapshots.sort (storage.snapshots.filter (config.covers ·.eventTimeMs))).filter
              (fun s => decide (s.eventTimeMs = row.eventTimeMs)) } := by
  unfold run
  simp only [loadAllChunked_eq _ h, lookup_groupRows]
  split_ifs with hrange
  · have hnone : storage.batches.filter (config.covers ·.eventTimeMs) = [] := by
      refine filter_eq_nil_iff.mpr fun row _ hrow => ?_
      obtain ⟨hlow, hhigh⟩ := covers_iff.mp hrow
      omega
    rw [hnone, (perm_nil.mp (std.batches.perm []) : std.batches.sort [] = []), map_nil]
  · rfl

section Reproducible

variable {fromMs toMs : Int} {storage : Storage ρ}

theorem mem_sort_iff (std : Sorts ρ) (config : Config) (row : HistoricalBatchResultRow ρ) :
    row ∈ std.batches.sort (storage.batches.filter (config.covers ·.eventTimeMs)) ↔
      Loads config.fromMs config.toMs storage row := by
  rw [(std.batches.perm _).mem_iff, mem_filter, covers_iff]
  exact Iff.rfl

theorem reproducible_of_untied (h : Untied fromMs toMs storage) :
    Reproducible fromMs toMs storage := by
  intro std storage' chunkSize chunkSize' hperm hpos hpos'
  rw [run_eq std _ storage hpos, run_eq std _ storage' hpos']
  have hcovers : ∀ {t : Int}, Config.covers { fromMs, toMs, chunkSize } t = true →
      fromMs ≤ t ∧ t ≤ toMs := covers_iff.mp
  have hbatches := std.batches.filter_sort_eq (p := fun _ => true)
    (hperm.batches.filter (Config.covers { fromMs, toMs, chunkSize } ·.eventTimeMs))
    (fun a ha b hb _ _ => h.batches a b
      ((mem_filter.mp ha).imp_right hcovers) ((mem_filter.mp hb).imp_right hcovers))
  rw [filter_true, filter_true] at hbatches
  change _ = (std.batches.sort
    (storage'.batches.filter (Config.covers { fromMs, toMs, chunkSize } ·.eventTimeMs))).map _
  rw [← hbatches]
  refine map_congr_left fun row hrow => ?_
  have hload := (mem_sort_iff std _ row).mp hrow
  rw [HistoricalBatch.mk.injEq]
  refine ⟨rfl, std.fills.filter_sort_eq (hperm.fills.filter _) ?_,
    std.snapshots.filter_sort_eq (hperm.snapshots.filter _) ?_⟩
  · intro f hf g hg hfrow _
    obtain ⟨hf, hrange⟩ := mem_filter.mp hf
    exact h.fills row hload f hf g (mem_filter.mp hg).1 (hcovers hrange).1 (hcovers hrange).2
      (of_decide_eq_true hfrow)
  · intro s hs t ht hsrow _
    exact h.snapshots row hload s (mem_filter.mp hs).1 t (mem_filter.mp ht).1
      (of_decide_eq_true hsrow)

theorem exists_order {Row : Type} {p : Row → Bool} {rows order : List Row}
    (h : (rows.filter p).Perm order) : ∃ rows', rows.Perm rows' ∧ rows'.filter p = order := by
  refine ⟨order ++ rows.filter (fun row => !p row),
    (filter_append_perm p rows).symm.trans (h.append_right _), ?_⟩
  have horder : order.filter p = order :=
    filter_eq_self.mpr fun row hrow => (mem_filter.mp (h.mem_iff.mpr hrow)).2
  have hrest : (rows.filter (fun row => !p row)).filter p = [] :=
    filter_eq_nil_iff.mpr fun row hrow hp => by
      have hnot := (mem_filter.mp hrow).2
      rw [hp] at hnot
      exact absurd hnot (by decide)
  rw [filter_append, horder, hrest, append_nil]

theorem untied_of_reproducible (h : Reproducible fromMs toMs storage) :
    Untied fromMs toMs storage := by
  have hfrom : ∀ {batches fills snapshots}, storage.batches.Perm batches →
      storage.fills.Perm fills → storage.snapshots.Perm snapshots →
      run stableSorts { fromMs, toMs, chunkSize := 1 } ⟨batches, fills, snapshots⟩ =
        run stableSorts { fromMs, toMs, chunkSize := 1 } storage := fun hb hf hs =>
    (h stableSorts ⟨_, _, _⟩ 1 1 ⟨hb, hf, hs⟩ one_pos one_pos).symm
  have hcovers : ∀ {t : Int}, fromMs ≤ t → t ≤ toMs →
      Config.covers { fromMs, toMs, chunkSize := 1 } t = true :=
    fun hlow hhigh => covers_iff.mpr ⟨hlow, hhigh⟩
  simp only [run_eq stableSorts { fromMs, toMs, chunkSize := 1 } _ one_pos] at hfrom
  constructor
  · intro a b ha hb hkey
    refine SortOf.eq_of_stable (p := fun _ => true)
      (l := storage.batches.filter (Config.covers { fromMs, toMs, chunkSize := 1 } ·.eventTimeMs))
      ?_ (mem_filter.mpr ⟨ha.1, hcovers ha.2.1 ha.2.2⟩)
      (mem_filter.mpr ⟨hb.1, hcovers hb.2.1 hb.2.2⟩) rfl rfl hkey
    intro order horder
    obtain ⟨rows, hperm, hrows⟩ := exists_order horder
    have hsame := congrArg (List.map HistoricalBatch.batchResult) (hfrom hperm (.refl _) (.refl _))
    simp only [map_map, Function.comp_def, map_id', hrows] at hsame
    rw [filter_true, filter_true]
    exact hsame
  · intro row hrow f hf g hg hlow hhigh hbatch hkey
    obtain ⟨htime, hkeys⟩ := Prod.mk.inj (toLex.injective hkey)
    have hgbatch := (Prod.mk.inj (toLex.injective hkeys)).1
    refine SortOf.eq_of_stable (p := fun f => decide (f.batchId = row.batchId))
      (l := storage.fills.filter (Config.covers { fromMs, toMs, chunkSize := 1 } ·.eventTimeMs)) ?_
      (mem_filter.mpr ⟨hf, hcovers hlow hhigh⟩)
      (mem_filter.mpr ⟨hg, hcovers (htime ▸ hlow) (htime ▸ hhigh)⟩) (decide_eq_true hbatch)
      (decide_eq_true (hgbatch.symm.trans hbatch)) hkey
    intro order horder
    obtain ⟨rows, hperm, hrows⟩ := exists_order horder
    have hsame := map_inj_left.mp (hfrom (.refl _) hperm (.refl _)) row
      ((mem_sort_iff stableSorts { fromMs, toMs, chunkSize := 1 } row).mpr hrow)
    rw [hrows] at hsame
    exact congrArg HistoricalBatch.fills hsame
  · intro row hrow s hs t ht hstime hkey
    have htime := (Prod.mk.inj (toLex.injective hkey)).1
    have hlow := hrow.2.1
    have hhigh := hrow.2.2
    refine SortOf.eq_of_stable (p := fun s => decide (s.eventTimeMs = row.eventTimeMs))
      (l := storage.snapshots.filter
        (Config.covers { fromMs, toMs, chunkSize := 1 } ·.eventTimeMs)) ?_
      (mem_filter.mpr ⟨hs, hcovers (hstime ▸ hlow) (hstime ▸ hhigh)⟩)
      (mem_filter.mpr ⟨ht, hcovers (htime ▸ hstime ▸ hlow) (htime ▸ hstime ▸ hhigh)⟩)
      (decide_eq_true hstime) (decide_eq_true (htime.symm.trans hstime)) hkey
    intro order horder
    obtain ⟨rows, hperm, hrows⟩ := exists_order horder
    have hsame := map_inj_left.mp (hfrom (.refl _) (.refl _) hperm) row
      ((mem_sort_iff stableSorts { fromMs, toMs, chunkSize := 1 } row).mpr hrow)
    rw [hrows] at hsame
    exact congrArg HistoricalBatch.marketdataSnapshots hsame

/-- The result is independent of the sort, the chunks and the order of the rows exactly when no
two different rows of it tie. -/
theorem reproducible_iff : Reproducible fromMs toMs storage ↔ Untied fromMs toMs storage :=
  ⟨untied_of_reproducible, reproducible_of_untied⟩

/-- A batch with two fills of one order at one time. -/
def twoFills : Storage Nat where
  batches := [⟨"b1", 10, 0⟩]
  fills := [⟨"b1", 10, "o1", 1⟩, ⟨"b1", 10, "o1", 2⟩]
  snapshots := []

/-- Their order is the one the storage returns them in. -/
theorem not_reproducible : ¬Reproducible 0 100 twoFills := by
  intro h
  have hsame := (untied_of_reproducible h).fills ⟨"b1", 10, 0⟩
    ⟨List.mem_singleton_self _, by decide, by decide⟩ ⟨"b1", 10, "o1", 1⟩ List.mem_cons_self
    ⟨"b1", 10, "o1", 2⟩ (List.mem_cons_of_mem _ List.mem_cons_self) (by decide) (by decide) rfl rfl
  exact absurd (congrArg HistoricalFillRow.rest hsame) (by decide)

end Reproducible

end Loader

end HistoricalBatches
end Backtest
end ContExchange
