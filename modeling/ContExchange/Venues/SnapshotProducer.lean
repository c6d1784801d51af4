import Mathlib.Data.List.Induction
import ContExchange.Lib.Table

/-!
# Venues: the producer of snapshots

`SnapshotProducer::Publish` skips a snapshot whose sequence is not above the last one of its
venue and symbol, and hands the others to the publisher.  The last sequence is written before
the publisher answers.

* `isDuplicate_iff`: what is skipped, from the offers before it;
* `numberedOnce`: over every run of offers, the published numbers of a pair increase.

The content of a snapshot is left out: the producer decides from its venue, its symbol and its
sequence alone.
-/

namespace ContExchange
namespace Venues

open Lib AList List

/-- `VenueRawSnapshot`, as far as the producer reads it. -/
structure VenueRawSnapshot where
  venueId : String
  symbol : String
  sequence : UInt64
deriving DecidableEq

/-- `SnapshotProducer::Stats`. -/
structure ProducerStats where
  published : Nat := 0
  duplicatesSkipped : Nat := 0
  storageWrites : Nat := 0
  storageFailures : Nat := 0

structure SnapshotProducer where
  lastSequence : Table String UInt64 := ∅
  stats : ProducerStats := {}

/-- A snapshot, what the publisher answers, and what the storage answers if there is one. -/
structure Offer where
  raw : VenueRawSnapshot
  publisherOk : Bool
  storage : Option Bool := none

/-- How an offer ends; the source returns whether it is `published`. -/
inductive OfferOutcome where
  | duplicate
  | failed
  | published
deriving DecidableEq

/-- The key of `last_sequence_`. -/
def VenueRawSnapshot.key (raw : VenueRawSnapshot) : String :=
  raw.venueId ++ "|" ++ raw.symbol

def SnapshotProducer.isDuplicate (s : SnapshotProducer) (raw : VenueRawSnapshot) :
    SnapshotProducer × Bool :=
  -- the sequence 0 means that nothing is skipped
  if raw.sequence = 0 then (s, false)
  else
    match s.lastSequence.lookup raw.key with
    | some last =>
        if raw.sequence ≤ last then (s, true)
        else ({ s with lastSequence := s.lastSequence.insert raw.key raw.sequence }, false)
    | none => ({ s with lastSequence := s.lastSequence.insert raw.key raw.sequence }, false)

def ProducerStats.stored (stats : ProducerStats) : Option Bool → ProducerStats
  | none => stats
  | some true => { stats with storageWrites := stats.storageWrites + 1 }
  | some false => { stats with storageFailures := stats.storageFailures + 1 }

def SnapshotProducer.publish (s : SnapshotProducer) (o : Offer) :
    SnapshotProducer × OfferOutcome :=
  let (s, duplicate) := s.isDuplicate o.raw
  if duplicate then
    ({ s with stats.duplicatesSkipped := s.stats.duplicatesSkipped + 1 }, .duplicate)
  else if o.publisherOk then
    let stats := { s.stats with published := s.stats.published + 1 }
    ({ s with stats := stats.stored o.storage }, .published)
  else ({ s with stats := s.stats.stored o.storage }, .failed)

def afterOffers (offers : List Offer) : SnapshotProducer :=
  offers.foldl (fun s o => (s.publish o).1) {}

/-- How an offer ends behind a list of offers. -/
def outcomeAfter (before : List Offer) (o : Offer) : OfferOutcome :=
  ((afterOffers before).publish o).2

def SamePair (a b : Offer) : Prop :=
  a.raw.venueId = b.raw.venueId ∧ a.raw.symbol = b.raw.symbol

/-- The published sequences of a pair increase, no snapshot is published twice, and a failed
one is not skipped when it is offered again. -/
structure PublishesOnce (offers : List Offer) : Prop where
  increasing : ∀ xs a ys b zs, offers = xs ++ a :: ys ++ b :: zs → SamePair a b →
    outcomeAfter xs a = .published → outcomeAfter (xs ++ a :: ys) b = .published →
    a.raw.sequence < b.raw.sequence
  once : ∀ xs a ys b zs, offers = xs ++ a :: ys ++ b :: zs → a.raw = b.raw →
    outcomeAfter xs a = .published → outcomeAfter (xs ++ a :: ys) b ≠ .published
  retried : ∀ xs a ys b zs, offers = xs ++ a :: ys ++ b :: zs → a.raw = b.raw →
    outcomeAfter xs a = .failed → outcomeAfter (xs ++ a :: ys) b ≠ .duplicate

/-- The published numbers of a pair increase, no numbered snapshot is published twice, and a
snapshot without a number is not skipped. -/
structure NumberedOnce (offers : List Offer) : Prop where
  increasing : ∀ xs a ys b zs, offers = xs ++ a :: ys ++ b :: zs → SamePair a b →
    b.raw.sequence ≠ 0 → outcomeAfter xs a = .published →
    outcomeAfter (xs ++ a :: ys) b = .published → a.raw.sequence < b.raw.sequence
  once : ∀ xs a ys b zs, offers = xs ++ a :: ys ++ b :: zs → a.raw = b.raw →
    a.raw.sequence ≠ 0 → outcomeAfter xs a = .published →
    outcomeAfter (xs ++ a :: ys) b ≠ .published
  unnumbered : ∀ xs a zs, offers = xs ++ a :: zs → a.raw.sequence = 0 →
    outcomeAfter xs a ≠ .duplicate

/-- A snapshot comes to the publisher: it has no number, or a number above those that were
offered under its key. -/
def Attempted (before : List Offer) (o : Offer) : Prop :=
  o.raw.sequence = 0 ∨ ∀ e ∈ before, e.raw.key = o.raw.key → e.raw.sequence < o.raw.sequence

section Outcomes

variable {s : SnapshotProducer} {before : List Offer} {o a b : Offer} {n : UInt64} {k : String}

/-- Something is stored under a key that is not below a number. -/
def Reaches (s : SnapshotProducer) (k : String) (n : UInt64) : Prop :=
  ∃ last, s.lastSequence.lookup k = some last ∧ n ≤ last

theorem isDuplicate_reaches (s : SnapshotProducer) (raw : VenueRawSnapshot) :
    (s.isDuplicate raw).2 = true ↔ raw.sequence ≠ 0 ∧ Reaches s raw.key raw.sequence := by
  unfold SnapshotProducer.isDuplicate Reaches
  by_cases hzero : raw.sequence = 0
  · simp [hzero]
  · cases hlast : s.lastSequence.lookup raw.key with
    | none => simp [hzero]
    | some last =>
        by_cases hle : raw.sequence ≤ last <;> simp [hzero, hle]

theorem reaches_publish (s : SnapshotProducer) (o : Offer) (hn : n ≠ 0) :
    Reaches (s.publish o).1 k n ↔ Reaches s k n ∨ o.raw.key = k ∧ n ≤ o.raw.sequence := by
  have hstored : ∀ st : ProducerStats, ∀ t : SnapshotProducer,
      Reaches { t with stats := st } k n ↔ Reaches t k n := fun _ _ => Iff.rfl
  have hkeep : Reaches (s.publish o).1 k n ↔ Reaches (s.isDuplicate o.raw).1 k n := by
    unfold SnapshotProducer.publish
    dsimp only
    split_ifs <;> exact hstored _ _
  rw [hkeep]
  unfold SnapshotProducer.isDuplicate
  by_cases hzero : o.raw.sequence = 0
  · rw [if_pos hzero, hzero]
    have hno : ¬n ≤ 0 := fun hle => hn (UInt64.le_antisymm hle (UInt64.zero_le))
    simp [hno]
  · rw [if_neg hzero]
    have hinsert : (∀ last, s.lastSequence.lookup o.raw.key = some last →
          last ≤ o.raw.sequence) →
        (Reaches { s with lastSequence := s.lastSequence.insert o.raw.key o.raw.sequence } k n ↔
          Reaches s k n ∨ o.raw.key = k ∧ n ≤ o.raw.sequence) := by
      intro hbelow
      unfold Reaches
      by_cases hk : o.raw.key = k
      · subst hk
        simp only [lookup_insert, Option.some.injEq, exists_eq_left', true_and]
        refine ⟨Or.inr, ?_⟩
        rintro (⟨last, hlast, hle⟩ | hle)
        · exact UInt64.le_trans hle (hbelow last hlast)
        · exact hle
      · simp only [lookup_insert_ne (Ne.symm hk), hk, false_and, or_false]
    cases hlast : s.lastSequence.lookup o.raw.key with
    | none =>
        refine hinsert fun last h => ?_
        rw [hlast] at h
        cases h
    | some last =>
        dsimp only
        by_cases hle : o.raw.sequence ≤ last
        · rw [if_pos hle]
          refine ⟨Or.inl, ?_⟩
          rintro (h | ⟨rfl, hn'⟩)
          · exact h
          · exact ⟨last, hlast, UInt64.le_trans hn' hle⟩
        · rw [if_neg hle]
          refine hinsert fun last' h => ?_
          rw [hlast] at h
          obtain rfl := Option.some.inj h
          exact UInt64.le_of_lt (UInt64.not_le.mp hle)

theorem reaches_afterOffers (before : List Offer) (hn : n ≠ 0) :
    Reaches (afterOffers before) k n ↔ ∃ e ∈ before, e.raw.key = k ∧ n ≤ e.raw.sequence := by
  induction before using List.reverseRecOn with
  | nil => simp [Reaches, afterOffers]
  | append_singleton before o ih =>
      have hstep : afterOffers (before ++ [o]) = ((afterOffers before).publish o).1 := by
        unfold afterOffers
        rw [foldl_append]
        rfl
      rw [hstep, reaches_publish _ _ hn, ih]
      simp only [mem_append, mem_singleton, or_and_right, exists_or, exists_eq_left]

theorem isDuplicate_iff (before : List Offer) (o : Offer) :
    ((afterOffers before).isDuplicate o.raw).2 = true ↔ ¬Attempted before o := by
  rw [isDuplicate_reaches]
  unfold Attempted
  rw [not_or]
  refine and_congr_right fun hzero => ?_
  rw [reaches_afterOffers before hzero]
  simp only [not_forall, exists_prop, UInt64.not_lt]

theorem outcome_duplicate_iff : outcomeAfter before o = .duplicate ↔ ¬Attempted before o := by
  rw [← isDuplicate_iff]
  unfold outcomeAfter SnapshotProducer.publish
  dsimp only
  split_ifs with hdup <;> simp [hdup]

theorem outcome_published_iff :
    outcomeAfter before o = .published ↔ Attempted before o ∧ o.publisherOk = true := by
  have hattempt := (not_congr (isDuplicate_iff before o)).trans not_not
  rw [← hattempt]
  unfold outcomeAfter SnapshotProducer.publish
  dsimp only
  split_ifs with hdup <;> simp_all

theorem key_eq_of_samePair (h : SamePair a b) : a.raw.key = b.raw.key := by
  unfold VenueRawSnapshot.key
  rw [h.1, h.2]

theorem lt_of_attempted {xs ys : List Offer} (h : Attempted (xs ++ a :: ys) b)
    (hkey : a.raw.key = b.raw.key) (hzero : b.raw.sequence ≠ 0) :
    a.raw.sequence < b.raw.sequence := by
  rcases h with h | h
  · exact absurd h hzero
  · exact h a (by simp) hkey

end Outcomes

/-- The published numbers of a pair increase, and no numbered snapshot is published twice. -/
theorem numberedOnce (offers : List Offer) : NumberedOnce offers := by
  refine ⟨fun xs a ys b zs _ hpair hzero _ hb => ?_, fun xs a ys b zs _ heq hzero _ hb => ?_,
    fun xs a zs _ hzero hskip => ?_⟩
  · exact lt_of_attempted (outcome_published_iff.mp hb).1 (key_eq_of_samePair hpair) hzero
  · have hlt := lt_of_attempted (outcome_published_iff.mp hb).1
      (congrArg VenueRawSnapshot.key heq) (heq ▸ hzero)
    rw [heq] at hlt
    exact UInt64.lt_irrefl _ hlt
  · exact outcome_duplicate_iff.mp hskip (Or.inl hzero)

/-- A snapshot with a number, or with 0 for none. -/
def numberedOffer (sequence : UInt64) (publisherOk : Bool) : Offer :=
  { raw := { venueId := "binance", symbol := "BTC-USDT", sequence }, publisherOk }

/-- A snapshot without a number is published twice, and one that the publisher refused is
skipped when it is offered again. -/
theorem not_publishesOnce :
    ¬PublishesOnce [numberedOffer 0 true, numberedOffer 0 true] ∧
      ¬PublishesOnce [numberedOffer 1 false, numberedOffer 1 true] := by
  refine ⟨fun h => ?_, fun h => ?_⟩
  · exact h.once [] _ [] _ [] rfl rfl (by decide) (by decide)
  · exact h.retried [] _ [] _ [] rfl rfl (by decide) (by decide)

end Venues
end ContExchange
