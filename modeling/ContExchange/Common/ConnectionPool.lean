import ContExchange.Lib.Runs
import Mathlib.Data.List.Nodup

/-!
# Common: the pool of database connections

`BasicPgConnectionPool` in its locked sections.

* `ConnectionPool`: the connections that wait, those that guards hold, and the threads inside
  `Acquire`;
* `enter_sound`: what the locked section of `Acquire` does, for a newcomer and for a thread that
  has been woken;
* `pool_sound`: the counts, the owners of the connections and the wake-ups after any run.

Whether a connection is alive is asked anew at each event, and a release sends its notification in
an event of its own.
-/

namespace ContExchange
namespace Common

open Lib List

/-- The idle connections are listed from the back of the vector; `made` numbers the connections
that have been opened, and `pending` counts the releases that are still to call `notify_one`. -/
structure ConnectionPool (ι γ : Type*) where
  idle : List Nat := []
  openCount : Nat := 0
  held : List (γ × Nat) := []
  opening : List ι := []
  waiting : List ι := []
  notified : List ι := []
  pending : Nat := 0
  made : Nat := 0

/-- What happens to the pool; `alive` answers for the connections at that moment, and `woken` is
the thread that `notify_one` finds. -/
inductive PoolEvent (ι γ : Type*) where
  | acquire (thread : ι) (guard : γ) (alive : Nat → Bool)
  | wake (thread : ι) (guard : γ) (alive : Nat → Bool)
  | timeOut (thread : ι) (guard : γ) (alive : Nat → Bool)
  | opened (thread : ι) (guard : γ)
  | openFailed (thread : ι) (woken : Option ι)
  | release (guard : γ) (alive : Nat → Bool)
  | move (target source : γ) (alive : Nat → Bool)
  | notify (woken : Option ι)

namespace ConnectionPool

/-- `max_size_`. -/
def maxSizeOf (maxSize : Nat) : Nat :=
  if maxSize = 0 then 1 else maxSize

/-- The dead connections at the back are dropped, each with its slot. -/
def popIdle (alive : Nat → Bool) : List Nat → Nat → Option Nat × List Nat × Nat
  | [], openCount => (none, [], openCount)
  | conn :: idle, openCount =>
      if alive conn then (some conn, idle, openCount) else popIdle alive idle (openCount - 1)

variable {ι γ : Type*} (maxSize : Nat)

/-- The locked section of `Acquire`: an idle connection is taken, or a slot, or the thread
waits. -/
def enter (alive : Nat → Bool) (thread : ι) (guard : γ) (s : ConnectionPool ι γ) :
    ConnectionPool ι γ :=
  match popIdle alive s.idle s.openCount with
  | (some conn, idle, openCount) =>
      { s with idle, openCount, held := (guard, conn) :: s.held }
  | (none, idle, openCount) =>
      if openCount < maxSize then
        { s with idle, openCount := openCount + 1, opening := thread :: s.opening }
      else { s with idle, openCount, waiting := thread :: s.waiting }

/-- A thread goes on from `wait_for`. -/
def leave [DecidableEq ι] (thread : ι) (s : ConnectionPool ι γ) : ConnectionPool ι γ :=
  if thread ∈ s.notified then { s with notified := s.notified.erase thread }
  else { s with waiting := s.waiting.erase thread }

/-- The predicate of `wait_for`. -/
def Ready (s : ConnectionPool ι γ) : Prop :=
  s.idle ≠ [] ∨ s.openCount < maxSize
deriving Decidable

def notifyOne [DecidableEq ι] (woken : Option ι) (s : ConnectionPool ι γ) : ConnectionPool ι γ :=
  match woken with
  | none => s
  | some thread =>
      { s with waiting := s.waiting.erase thread, notified := thread :: s.notified }

/-- `reset_to_pool` with `ReturnToPool`, up to the notification. -/
def resetToPool [DecidableEq γ] (alive : Nat → Bool) (guard : γ) (s : ConnectionPool ι γ) :
    ConnectionPool ι γ :=
  match s.held.find? (·.1 = guard) with
  | none => s
  | some lent =>
      { s with
        held := s.held.erase lent
        idle := if alive lent.2 then lent.2 :: s.idle else s.idle
        openCount := if alive lent.2 then s.openCount else s.openCount - 1
        pending := s.pending + 1 }

def step [DecidableEq ι] [DecidableEq γ] (s : ConnectionPool ι γ) :
    PoolEvent ι γ → ConnectionPool ι γ
  | .acquire thread guard alive => s.enter maxSize alive thread guard
  | .wake thread guard alive => (s.leave thread).enter maxSize alive thread guard
  | .timeOut thread guard alive =>
      if s.Ready maxSize then (s.leave thread).enter maxSize alive thread guard
      else s.leave thread
  | .opened thread guard =>
      { s with
        opening := s.opening.erase thread
        held := (guard, s.made) :: s.held
        made := s.made + 1 }
  | .openFailed thread woken =>
      notifyOne woken
        { s with opening := s.opening.erase thread, openCount := s.openCount - 1 }
  | .release guard alive => s.resetToPool alive guard
  | .move target source alive =>
      if target = source then s
      else
        let s := s.resetToPool alive target
        { s with held := s.held.map fun lent =>
            if lent.1 = source then (target, lent.2) else lent }
  | .notify woken => notifyOne woken { s with pending := s.pending - 1 }

/-- `notify_one` finds a thread that waits, unless there is none. -/
def Finds (woken : Option ι) (s : ConnectionPool ι γ) : Prop :=
  woken.elim (s.waiting = []) (· ∈ s.waiting)

/-- Threads go on from where they are, and every notification belongs to a release. -/
def Allowed (s : ConnectionPool ι γ) : PoolEvent ι γ → Prop
  | .wake thread _ _ | .timeOut thread _ _ => thread ∈ s.notified ∨ thread ∈ s.waiting
  | .opened thread _ => thread ∈ s.opening
  | .openFailed thread woken => thread ∈ s.opening ∧ Finds woken s
  | .notify woken => 0 < s.pending ∧ Finds woken s
  | .acquire _ _ _ | .release _ _ | .move _ _ _ => True

/-- The connections of the guards. -/
def lent (s : ConnectionPool ι γ) : List Nat :=
  s.held.map Prod.snd

/-- The idle connections and the free slots. -/
def available (s : ConnectionPool ι γ) : Nat :=
  s.idle.length + (maxSize - s.openCount)

/-- The slots are counted and bounded, no connection has two owners, and where threads wait
without a notification, one is on its way for everything that is available, but for `slack`;
connections are numbered as they are made. -/
structure Sound (slack : Nat) (s : ConnectionPool ι γ) : Prop where
  count : s.openCount = s.idle.length + s.lent.length + s.opening.length
  bounded : s.openCount ≤ maxSize
  exclusive : (s.idle ++ s.lent).Nodup
  made : ∀ conn ∈ s.idle ++ s.lent, conn < s.made
  wakeUps : s.waiting = [] ∨ s.available maxSize ≤ s.notified.length + s.pending + slack

section Steps

variable {maxSize} {s : ConnectionPool ι γ} {slack : Nat} {thread : ι} {guard : γ}
  {woken : Option ι}

theorem popIdle_spec (alive : Nat → Bool) (idle : List Nat) (openCount : Nat) :
    ∃ dropped, idle = dropped ++ (popIdle alive idle openCount).1.toList ++
        (popIdle alive idle openCount).2.1 ∧
      (popIdle alive idle openCount).2.2 = openCount - dropped.length ∧
      ((popIdle alive idle openCount).1 = none → (popIdle alive idle openCount).2.1 = []) := by
  induction idle generalizing openCount with
  | nil => exact ⟨[], rfl, rfl, fun _ => rfl⟩
  | cons conn idle ih =>
      rw [popIdle]
      split_ifs
      · exact ⟨[], rfl, rfl, nofun⟩
      · obtain ⟨dropped, hidle, hcount, hnone⟩ := ih (openCount - 1)
        refine ⟨conn :: dropped, ?_, ?_, hnone⟩
        · rw [cons_append, cons_append, ← hidle]
        · rw [hcount, length_cons]
          omega

/-- A section takes one of the things that are available, or there are none. -/
theorem enter_sound (h : Sound maxSize 1 s) (alive : Nat → Bool) (thread : ι) (guard : γ) :
    Sound maxSize 0 (s.enter maxSize alive thread guard) := by
  obtain ⟨dropped, hidle, hslots, hnone⟩ := popIdle_spec alive s.idle s.openCount
  have hcount := h.count
  have hbounded := h.bounded
  have hexclusive := h.exclusive
  have hmade := h.made
  have hwake := h.wakeUps
  rw [available] at hwake
  unfold enter
  rcases hpop : popIdle alive s.idle s.openCount with ⟨_ | conn, idle, openCount⟩ <;>
    rw [hpop] at hidle hslots hnone
  · obtain rfl : idle = [] := hnone rfl
    rw [Option.toList_none, append_nil, append_nil] at hidle
    dsimp only at hslots ⊢
    rw [hidle] at hcount hwake hexclusive hmade
    have hlent := (nodup_append.mp hexclusive).2.1
    have hmade' : ∀ conn ∈ [] ++ s.lent, conn < s.made := fun conn hconn =>
      hmade conn (mem_append_right _ hconn)
    split_ifs with hfree
    · refine ⟨?_, hfree, hlent, hmade', hwake.imp id fun h => ?_⟩
      · simp only [lent, length_map, length_cons, length_nil] at hcount ⊢
        omega
      · simp only [available, length_nil]
        omega
    · refine ⟨?_, ?_, hlent, hmade', .inr ?_⟩
      · simp only [lent, length_map, length_nil] at hcount ⊢
        omega
      · dsimp only
        omega
      · simp only [available, length_nil]
        omega
  · rw [Option.toList_some] at hidle
    dsimp only at hslots ⊢
    rw [hidle] at hcount hwake hexclusive hmade
    have hsub : (conn :: (idle ++ s.lent)).Sublist (dropped ++ [conn] ++ idle ++ s.lent) := by
      rw [append_assoc, append_assoc]
      exact sublist_append_right _ _
    have hperm : (idle ++ conn :: s.lent).Perm (conn :: (idle ++ s.lent)) := perm_middle
    simp only [length_append, length_singleton] at hcount hwake
    refine ⟨?_, ?_, hperm.nodup_iff.mpr (hexclusive.sublist hsub), fun c hc => ?_,
      hwake.imp id fun h => ?_⟩
    · simp only [lent, length_map, length_cons] at hcount ⊢
      omega
    · dsimp only
      omega
    · exact hmade c (hsub.subset (hperm.mem_iff.mp hc))
    · simp only [available]
      omega

theorem resetToPool_sound [DecidableEq γ] (h : Sound maxSize 0 s) (alive : Nat → Bool) (guard : γ) :
    Sound maxSize 0 (s.resetToPool alive guard) := by
  unfold resetToPool
  cases hfind : s.held.find? (·.1 = guard) with
  | none => exact h
  | some lent =>
      have hmem := mem_of_find?_eq_some hfind
      have hperm : (s.idle ++ s.lent).Perm
          (lent.2 :: (s.idle ++ (s.held.erase lent).map Prod.snd)) :=
        (((perm_cons_erase hmem).map Prod.snd).append_left _).trans perm_middle
      have hlength := hperm.length_eq
      have hcount := h.count
      have hbounded := h.bounded
      have hwake := h.wakeUps
      have hexclusive := hperm.nodup_iff.mp h.exclusive
      have hmade := fun conn hconn => h.made conn (hperm.mem_iff.mpr hconn)
      rw [available] at hwake
      simp only [length_append, length_cons] at hlength
      dsimp only
      split_ifs
      · refine ⟨?_, hbounded, hexclusive, hmade, hwake.imp id fun h => ?_⟩
        · simp only [ConnectionPool.lent, length_cons]
          omega
        · simp only [available, length_cons]
          omega
      · refine ⟨?_, ?_, hexclusive.of_cons, fun conn hconn =>
          hmade conn (mem_cons_of_mem _ hconn), hwake.imp id fun h => ?_⟩
        · simp only [ConnectionPool.lent]
          omega
        · dsimp only
          omega
        · simp only [available]
          omega

variable [DecidableEq ι]

theorem leave_sound (h : Sound maxSize 0 s) (hthread : thread ∈ s.notified ∨ thread ∈ s.waiting) :
    Sound maxSize 1 (s.leave thread) := by
  unfold leave
  split_ifs with hnotified
  · refine ⟨h.count, h.bounded, h.exclusive, h.made, h.wakeUps.imp id fun hle => hle.trans ?_⟩
    have := length_erase_of_mem hnotified
    have := length_pos_of_mem hnotified
    dsimp only
    omega
  · have hwaiting := hthread.resolve_left hnotified
    refine ⟨h.count, h.bounded, h.exclusive, h.made, .inr ?_⟩
    refine (h.wakeUps.resolve_left (ne_nil_of_mem hwaiting)).trans ?_
    exact Nat.le_add_right _ _

/-- With a notification one more thing may be available. -/
theorem notifyOne_sound (h : Sound maxSize 1 s) (hfinds : Finds woken s) :
    Sound maxSize 0 (s.notifyOne woken) := by
  cases woken with
  | none => exact ⟨h.count, h.bounded, h.exclusive, h.made, .inl hfinds⟩
  | some thread =>
      refine ⟨h.count, h.bounded, h.exclusive, h.made, .inr ?_⟩
      refine (h.wakeUps.resolve_left (ne_nil_of_mem hfinds)).trans ?_
      simp only [notifyOne, length_cons]
      omega

theorem Sound.step [DecidableEq γ] (h : Sound maxSize 0 s) {e : PoolEvent ι γ}
    (hallowed : s.Allowed e) : Sound maxSize 0 (s.step maxSize e) := by
  have hone : ∀ {s : ConnectionPool ι γ}, Sound maxSize 0 s → Sound maxSize 1 s := fun h =>
    ⟨h.count, h.bounded, h.exclusive, h.made, h.wakeUps.imp id Nat.le_succ_of_le⟩
  cases e with
  | acquire thread guard alive => exact enter_sound (hone h) alive thread guard
  | wake thread guard alive => exact enter_sound (leave_sound h hallowed) alive thread guard
  | timeOut thread guard alive =>
      have hleft := leave_sound h hallowed
      rw [ConnectionPool.step]
      split_ifs with hready
      · exact enter_sound hleft alive thread guard
      · -- nothing is available to the thread that gives up
        rw [Ready, not_or, not_not, not_lt] at hready
        refine ⟨hleft.count, hleft.bounded, hleft.exclusive, hleft.made, .inr ?_⟩
        have hsame : (s.leave thread).available maxSize = s.available maxSize := by
          unfold leave
          split_ifs <;> rfl
        rw [hsame, available, hready.1, length_nil]
        omega
  | opened thread guard =>
      have hcount := h.count
      have hopening := length_erase_of_mem hallowed
      have hpos := length_pos_of_mem hallowed
      have hperm : (s.idle ++ s.made :: s.lent).Perm (s.made :: (s.idle ++ s.lent)) :=
        perm_middle
      refine ⟨?_, h.bounded, hperm.nodup_iff.mpr (nodup_cons.mpr
        ⟨fun hmem => (h.made _ hmem).false, h.exclusive⟩), fun conn hconn => ?_, h.wakeUps⟩
      · simp only [ConnectionPool.step, lent, map_cons, length_cons] at hcount ⊢
        omega
      · rcases mem_cons.mp (hperm.mem_iff.mp hconn) with rfl | hconn
        · exact Nat.lt_succ_self _
        · exact Nat.lt_succ_of_lt (h.made conn hconn)
  | openFailed thread woken =>
      have hcount := h.count
      have hbounded := h.bounded
      have hopening := length_erase_of_mem hallowed.1
      have hpos := length_pos_of_mem hallowed.1
      refine notifyOne_sound ⟨?_, ?_, h.exclusive, h.made, h.wakeUps.imp id fun hle => ?_⟩ hallowed.2
      · simp only [lent] at hcount ⊢
        omega
      · dsimp only
        omega
      · simp only [available] at hle ⊢
        omega
  | release guard alive => exact resetToPool_sound h alive guard
  | move target source alive =>
      rw [ConnectionPool.step]
      split_ifs
      · exact h
      · have hreset := resetToPool_sound h alive target
        have hlent : ∀ held : List (γ × Nat), (held.map fun lent =>
            if lent.1 = source then (target, lent.2) else lent).map Prod.snd =
              held.map Prod.snd := fun held => by
          rw [map_map]
          exact map_congr_left fun lent _ => by
            dsimp only [Function.comp_apply]
            split_ifs <;> rfl
        refine ⟨?_, hreset.bounded, ?_, ?_, hreset.wakeUps⟩ <;> dsimp only [lent] <;> rw [hlent]
        · exact hreset.count
        · exact hreset.exclusive
        · exact hreset.made
  | notify woken =>
      refine notifyOne_sound ⟨h.count, h.bounded, h.exclusive, h.made, h.wakeUps.imp id
        fun hle => hle.trans ?_⟩ hallowed.2
      have := hallowed.1
      dsimp only
      omega

end Steps

end ConnectionPool

/-- After every run of calls, moves, releases, failures and timeouts, with any connections dead at
any time, the pool is sound; once every release has sent its notification, the threads that have
been woken are enough for all that is available. -/
theorem pool_sound {ι γ : Type*} [DecidableEq ι] [DecidableEq γ] (maxSize : Nat)
    (events : List (PoolEvent ι γ))
    (h : StepsMeet (ConnectionPool.step (ConnectionPool.maxSizeOf maxSize))
      ConnectionPool.Allowed {} events) :
    let s := run (ConnectionPool.step (ConnectionPool.maxSizeOf maxSize)) {} events
    s.Sound (ConnectionPool.maxSizeOf maxSize) 0 ∧
      (s.pending = 0 →
        s.waiting = [] ∨ s.available (ConnectionPool.maxSizeOf maxSize) ≤ s.notified.length) := by
  have hempty : ConnectionPool.Sound (ConnectionPool.maxSizeOf maxSize) 0
      ({} : ConnectionPool ι γ) :=
    ⟨rfl, Nat.zero_le _, nodup_nil, fun _ hconn => absurd hconn not_mem_nil, .inl rfl⟩
  have hsound := run_invariant (ConnectionPool.Sound (ConnectionPool.maxSizeOf maxSize) 0)
    (fun _ _ h hallowed => h.step hallowed) hempty h
  refine ⟨hsound, fun hsent => ?_⟩
  simpa [hsent] using hsound.wakeUps

/-- A thread waits for the only connection, which another moves and gives back. -/
def handover : List (PoolEvent Nat Char) :=
  [.acquire 1 'a' fun _ => true, .opened 1 'a', .acquire 2 'b' fun _ => true,
    .move 'c' 'a' fun _ => true, .release 'c' fun _ => true, .notify (some 2),
    .wake 2 'b' fun _ => true]

theorem pool_sound_handover :
    ConnectionPool.Sound 1 0 (run (ConnectionPool.step (ConnectionPool.maxSizeOf 1)) {} handover) :=
  (pool_sound 1 handover ⟨trivial, mem_cons_self, trivial, trivial, trivial,
    ⟨Nat.one_pos, mem_cons_self⟩, .inl mem_cons_self, trivial⟩).1

end Common
end ContExchange
