import ContExchange.LegacyEngine.EngineManager

/-!
# Legacy engine: the order updates sender

The create thread and the cancel thread pass order updates to `OrderUpdatesSender`, which
hands them to the backend client in batches.

* `Sender`: the two buffers, the counter and the batches handed over;
* `Point`, `System`, `step`: every locked section and every unlocked statement of a call is one
  step of its thread;
* `Accounted`: every update is held or was handed over, and no cancellation twice;
* `accounted_iff`: this stays so exactly when the unlocked statements of a flush find nothing
  that has not been handed over.
-/

namespace ContExchange
namespace LegacyEngine

open Lib AList List

section Sender

/-- `OrderUpdatesSender`, with the batches that its backend client was given. -/
structure Sender where
  orderUpdatesCount : Nat := 0
  fillDetailsRepo : Table Nat FillDetails := ∅
  cancelledOrders : List ContinuousOrder := []
  sentFillDetails : List (Table Nat FillDetails) := []
  sentCancelled : List (List ContinuousOrder) := []

def kAccumulatedOrderUpdatesCount : Nat :=
  10

namespace Sender

variable (sender : Sender)

/-- The locked section of `SendFillDetails`. -/
def setFillDetails (orderId : Nat) (details : FillDetails) : Sender :=
  { sender with
    fillDetailsRepo := sender.fillDetailsRepo.insert orderId details
    orderUpdatesCount := sender.orderUpdatesCount + 1 }

/-- The locked section of `SendCancelled`. -/
def pushCancelled (order : ContinuousOrder) : Sender :=
  { sender with
    cancelledOrders := sender.cancelledOrders ++ [order]
    orderUpdatesCount := sender.orderUpdatesCount + 1 }

/-- The first locked section of a flush. -/
def handFillDetails : Sender :=
  { sender with
    sentFillDetails := sender.sentFillDetails ++ [sender.fillDetailsRepo]
    fillDetailsRepo := ∅ }

/-- The second locked section of a flush. -/
def handCancelled : Sender :=
  { sender with
    sentCancelled := sender.sentCancelled ++ [sender.cancelledOrders]
    cancelledOrders := [] }

/-- `fill_details_repo_ = std::make_shared<FillDetailsRepo>()`, unlocked. -/
def renewRepo : Sender :=
  { sender with fillDetailsRepo := ∅ }

/-- `cancelled_orders_.clear()`, unlocked. -/
def clearCancelled : Sender :=
  { sender with cancelledOrders := [] }

/-- `order_updates_count_ = 0`, unlocked. -/
def resetCount : Sender :=
  { sender with orderUpdatesCount := 0 }

end Sender
end Sender

section Threads

/-- The threads of `EngineManager::Run`. -/
inductive EngineThread where
  | create
  | cancel
deriving DecidableEq

/-- What a thread passes to the sender. -/
inductive SenderCall where
  | sendFillDetails (orderId : Nat) (details : FillDetails)
  | sendCancelled (order : ContinuousOrder)

/-- What a thread does next: a new call, or a statement of `FlushAccumulatedIfNeeded`. -/
inductive Point where
  | call
  | test
  | handFillDetails
  | handCancelled
  | renewRepo
  | clearCancelled
  | resetCount
deriving DecidableEq

/-- The sender, where its threads are, and what they have passed to it: the last fill details
of every order, and the cancellations. -/
structure System where
  sender : Sender := {}
  point : EngineThread → Point := fun _ => .call
  passedFillDetails : Table Nat FillDetails := ∅
  passedCancelled : List ContinuousOrder := []

namespace System

variable (s : System)

def goTo (thread : EngineThread) (point : Point) : System :=
  { s with point := Function.update s.point thread point }

/-- The locked section at the start of a call. -/
def enter : SenderCall → System
  | .sendFillDetails orderId details =>
      { s with
        sender := s.sender.setFillDetails orderId details
        passedFillDetails := s.passedFillDetails.insert orderId details }
  | .sendCancelled order =>
      { s with
        sender := s.sender.pushCancelled order
        passedCancelled := s.passedCancelled ++ [order] }

/-- One step of a thread; a thread outside the sender makes the call. -/
def step (s : System) (event : EngineThread × SenderCall) : System :=
  match s.point event.1 with
  | .call => (s.enter event.2).goTo event.1 .test
  | .test =>
      if kAccumulatedOrderUpdatesCount ≤ s.sender.orderUpdatesCount then
        s.goTo event.1 .handFillDetails
      else s.goTo event.1 .call
  | .handFillDetails => { s with sender := s.sender.handFillDetails }.goTo event.1 .handCancelled
  | .handCancelled => { s with sender := s.sender.handCancelled }.goTo event.1 .renewRepo
  | .renewRepo => { s with sender := s.sender.renewRepo }.goTo event.1 .clearCancelled
  | .clearCancelled => { s with sender := s.sender.clearCancelled }.goTo event.1 .resetCount
  | .resetCount => { s with sender := s.sender.resetCount }.goTo event.1 .call

end System

/-- How often a cancellation was handed over. -/
def Sender.handedOver (sender : Sender) (order : ContinuousOrder) : Nat :=
  sender.sentCancelled.flatten.count order

def Sender.Told (sender : Sender) (orderId : Nat) (details : FillDetails) : Prop :=
  ∃ batch ∈ sender.sentFillDetails, batch.lookup orderId = some details

/-- Every cancellation and the last fill details of every order are held or were handed over,
and no cancellation was handed over more often than it was passed. -/
structure Accounted (s : System) : Prop where
  cancelled : ∀ order, s.passedCancelled.count order ≤
    s.sender.handedOver order + s.sender.cancelledOrders.count order
  once : ∀ order, s.sender.handedOver order ≤ s.passedCancelled.count order
  fillDetails : ∀ orderId details, s.passedFillDetails.lookup orderId = some details →
    s.sender.fillDetailsRepo.lookup orderId = some details ∨ s.sender.Told orderId details

/-- An unlocked statement finds nothing that has not been handed over. -/
def NothingToLose (s : System) (event : EngineThread × SenderCall) : Prop :=
  match s.point event.1 with
  | .renewRepo => ∀ orderId details,
      s.sender.fillDetailsRepo.lookup orderId = some details → s.sender.Told orderId details
  | .clearCancelled => s.sender.cancelledOrders = []
  | _ => True

/-- What holds in any case: nothing is held or handed over that was not passed, and held fill
details are the last ones. -/
structure Known (s : System) : Prop where
  cancelled : ∀ order, s.sender.handedOver order + s.sender.cancelledOrders.count order ≤
    s.passedCancelled.count order
  fillDetails : ∀ orderId details, s.sender.fillDetailsRepo.lookup orderId = some details →
    s.passedFillDetails.lookup orderId = some details

variable {s : System} {event : EngineThread × SenderCall}

theorem handedOver_handCancelled (sender : Sender) (order : ContinuousOrder) :
    sender.handCancelled.handedOver order =
      sender.handedOver order + sender.cancelledOrders.count order := by
  unfold Sender.handedOver Sender.handCancelled
  rw [flatten_append, flatten_singleton, count_append]

theorem known_enter (h : Known s) (call : SenderCall) : Known (s.enter call) := by
  cases call with
  | sendFillDetails orderId details =>
      refine ⟨h.cancelled, fun orderId' details' hlookup => ?_⟩
      change (s.sender.fillDetailsRepo.insert orderId details).lookup orderId' = some details'
        at hlookup
      change (s.passedFillDetails.insert orderId details).lookup orderId' = some details'
      by_cases hid : orderId' = orderId
      · subst hid
        rwa [lookup_insert] at hlookup ⊢
      · rw [lookup_insert_ne hid] at hlookup ⊢
        exact h.fillDetails orderId' details' hlookup
  | sendCancelled order =>
      refine ⟨fun order' => ?_, h.fillDetails⟩
      change s.sender.handedOver order' + (s.sender.cancelledOrders ++ [order]).count order' ≤
        (s.passedCancelled ++ [order]).count order'
      rw [count_append, count_append, ← add_assoc]
      exact Nat.add_le_add_right (h.cancelled order') _

theorem known_goTo (h : Known s) (thread : EngineThread) (point : Point) :
    Known (s.goTo thread point) :=
  ⟨h.cancelled, h.fillDetails⟩

theorem lookup_nothing (orderId : Nat) (details : FillDetails) :
    ¬ (∅ : Table Nat FillDetails).lookup orderId = some details := by
  rw [lookup_empty]
  rintro ⟨⟩

theorem known_step (s : System) (event : EngineThread × SenderCall) (h : Known s) :
    Known (s.step event) := by
  unfold System.step
  split
  · exact known_goTo (known_enter h event.2) event.1 .test
  · split_ifs
    · exact known_goTo h event.1 .handFillDetails
    · exact known_goTo h event.1 .call
  · refine known_goTo ?_ event.1 .handCancelled
    refine ⟨h.cancelled, fun orderId details hlookup => ?_⟩
    exact absurd hlookup (lookup_nothing orderId details)
  · refine known_goTo ?_ event.1 .renewRepo
    refine ⟨fun order => ?_, h.fillDetails⟩
    change s.sender.handCancelled.handedOver order + List.count order [] ≤ _
    rw [handedOver_handCancelled, count_nil, add_zero]
    exact h.cancelled order
  · refine known_goTo ?_ event.1 .clearCancelled
    refine ⟨h.cancelled, fun orderId details hlookup => ?_⟩
    exact absurd hlookup (lookup_nothing orderId details)
  · refine known_goTo ?_ event.1 .resetCount
    exact ⟨fun order => (Nat.le_add_right _ _).trans (h.cancelled order), h.fillDetails⟩
  · refine known_goTo ?_ event.1 .call
    exact ⟨h.cancelled, h.fillDetails⟩

theorem accounted_goTo {thread : EngineThread} {point : Point} :
    Accounted (s.goTo thread point) ↔ Accounted s :=
  ⟨fun h => ⟨h.cancelled, h.once, h.fillDetails⟩, fun h => ⟨h.cancelled, h.once, h.fillDetails⟩⟩

theorem accounted_enter (h : Accounted s) (call : SenderCall) : Accounted (s.enter call) := by
  cases call with
  | sendFillDetails orderId details =>
      refine ⟨h.cancelled, h.once, fun orderId' details' hlookup => ?_⟩
      change (s.passedFillDetails.insert orderId details).lookup orderId' = some details' at hlookup
      change (s.sender.fillDetailsRepo.insert orderId details).lookup orderId' = some details' ∨
        s.sender.Told orderId' details'
      by_cases hid : orderId' = orderId
      · subst hid
        rw [lookup_insert] at hlookup ⊢
        exact .inl hlookup
      · rw [lookup_insert_ne hid] at hlookup ⊢
        exact h.fillDetails orderId' details' hlookup
  | sendCancelled order =>
      refine ⟨fun order' => ?_, fun order' => ?_, h.fillDetails⟩
      · change (s.passedCancelled ++ [order]).count order' ≤
          s.sender.handedOver order' + (s.sender.cancelledOrders ++ [order]).count order'
        rw [count_append, count_append, ← add_assoc]
        exact Nat.add_le_add_right (h.cancelled order') _
      · change s.sender.handedOver order' ≤ (s.passedCancelled ++ [order]).count order'
        rw [count_append]
        exact (h.once order').trans (Nat.le_add_right _ _)

theorem told_handFillDetails {sender : Sender} {orderId : Nat} {details : FillDetails} :
    sender.handFillDetails.Told orderId details ↔
      sender.fillDetailsRepo.lookup orderId = some details ∨ sender.Told orderId details := by
  unfold Sender.Told Sender.handFillDetails
  simp only [mem_append, mem_singleton, or_and_right, exists_or, exists_eq_left]
  exact or_comm

theorem accounted_handFillDetails (h : Accounted s) :
    Accounted { s with sender := s.sender.handFillDetails } :=
  ⟨h.cancelled, h.once, fun orderId details hlookup =>
    .inr (told_handFillDetails.mpr (h.fillDetails orderId details hlookup))⟩

theorem accounted_handCancelled (hknown : Known s) (h : Accounted s) :
    Accounted { s with sender := s.sender.handCancelled } := by
  refine ⟨fun order => ?_, fun order => ?_, h.fillDetails⟩
  · change _ ≤ s.sender.handCancelled.handedOver order + List.count order []
    rw [handedOver_handCancelled, count_nil, add_zero]
    exact h.cancelled order
  · change s.sender.handCancelled.handedOver order ≤ _
    rw [handedOver_handCancelled]
    exact hknown.cancelled order

theorem accounted_renewRepo_iff (hknown : Known s) (h : Accounted s) :
    Accounted { s with sender := s.sender.renewRepo } ↔
      ∀ orderId details, s.sender.fillDetailsRepo.lookup orderId = some details →
        s.sender.Told orderId details := by
  constructor
  · intro hafter orderId details hlookup
    rcases hafter.fillDetails orderId details (hknown.fillDetails orderId details hlookup) with
      hheld | htold
    · exact absurd hheld (lookup_nothing orderId details)
    · exact htold
  · intro htold
    refine ⟨h.cancelled, h.once, fun orderId details hlookup => .inr ?_⟩
    rcases h.fillDetails orderId details hlookup with hheld | hsent
    · exact htold orderId details hheld
    · exact hsent

theorem accounted_clearCancelled_iff (hknown : Known s) (h : Accounted s) :
    Accounted { s with sender := s.sender.clearCancelled } ↔ s.sender.cancelledOrders = [] := by
  constructor
  · intro hafter
    rw [eq_nil_iff_forall_not_mem]
    intro order hmem
    have hpos := count_pos_iff.mpr hmem
    have hle : s.passedCancelled.count order ≤
        s.sender.handedOver order + List.count order [] := hafter.cancelled order
    have hall := hknown.cancelled order
    rw [count_nil] at hle
    omega
  · intro hnil
    refine ⟨fun order => ?_, h.once, h.fillDetails⟩
    have hle := h.cancelled order
    rw [hnil] at hle
    exact hle

theorem accounted_step_iff (s : System) (event : EngineThread × SenderCall) (hknown : Known s)
    (h : Accounted s) : Accounted (s.step event) ↔ NothingToLose s event := by
  unfold System.step NothingToLose
  cases s.point event.1 with
  | call => exact iff_of_true (accounted_goTo.mpr (accounted_enter h event.2)) trivial
  | test =>
      refine iff_of_true ?_ trivial
      dsimp only
      split_ifs
      · exact accounted_goTo.mpr h
      · exact accounted_goTo.mpr h
  | handFillDetails => exact iff_of_true (accounted_goTo.mpr (accounted_handFillDetails h)) trivial
  | handCancelled =>
      exact iff_of_true (accounted_goTo.mpr (accounted_handCancelled hknown h)) trivial
  | renewRepo => exact accounted_goTo.trans (accounted_renewRepo_iff hknown h)
  | clearCancelled => exact accounted_goTo.trans (accounted_clearCancelled_iff hknown h)
  | resetCount =>
      exact iff_of_true (accounted_goTo.mpr ⟨h.cancelled, h.once, h.fillDetails⟩) trivial

theorem accounted_start : Accounted {} :=
  ⟨fun _ => le_rfl, fun _ => le_rfl,
    fun orderId details hlookup => absurd hlookup (lookup_nothing orderId details)⟩

theorem known_start : Known {} :=
  ⟨fun _ => le_rfl, fun orderId details hlookup => absurd hlookup (lookup_nothing orderId details)⟩

/-- In every interleaving all updates are accounted for in every state exactly when the
unlocked statements find nothing that has not been handed over. -/
theorem accounted_iff (events : List (EngineThread × SenderCall)) :
    StepsMeet System.step (fun s e => Accounted (s.step e)) {} events ↔
      StepsMeet System.step NothingToLose {} events :=
  stepsMeet_iff known_step accounted_step_iff known_start accounted_start

end Threads

section Examples

def cancelledOrder : ContinuousOrder where
  orderId := 7
  side := .buy
  volume := 1
  lowPrice := 1
  highPrice := 2
  speed := 1
  low_lt_high := Nat.lt_succ_self 1

/-- The create thread fills the buffer and flushes; the cancel thread passes a cancellation
after the buffers were handed over and before they are cleared. -/
def lostCancellation : List (EngineThread × SenderCall) :=
  let fill := (EngineThread.create, SenderCall.sendFillDetails 1 {})
  List.replicate 22 fill ++ [(.cancel, .sendCancelled cancelledOrder)] ++ List.replicate 2 fill

/-- The cancellation is neither held nor handed over. -/
theorem not_accounted : ¬ ∀ events, Accounted (run System.step {} events) := by
  intro h
  have hcancelled := (h lostCancellation).cancelled cancelledOrder
  revert hcancelled
  decide +kernel

end Examples

end LegacyEngine
end ContExchange
