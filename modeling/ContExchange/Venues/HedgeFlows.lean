import ContExchange.Ledger.ExecutionReports
import ContExchange.Matching.Fills
import ContExchange.Matching.NumericColumns

/-!
# Venues: hedge flows and their child orders

An execution report of a child order updates two rows, each in a transaction of its own:
the child order takes the filled quantity and price of the report as they are, the hedge
flow adds them to its own.

* `Reconciled`: the filled quantity of a flow is that of its children together, its
  average price is theirs weighted by quantity, up to the last place of the column for
  each report, and a completed flow has reached its target;
* `StatusKept`: no terminal status is replaced;
* `reconciled_run`: along every run whose reports meet `ReportOk`, both hold.

Venues report cumulative quantities, so a flow counts the first fill of a child again with
every later report of it, and the row of a child takes any status that comes.
-/

namespace ContExchange
namespace Venues

open Common Lib AList List Option Matching PgNumeric
open Ledger (ExecutionReportStatus)
open Matching (PgNumeric printedValue llround)

/-- `hedgeflows.status`. -/
inductive HedgeFlowStatus where
  | opened
  | completed
  | underfilled
  | rejected
  | riskRejected
  | cancelled
deriving DecidableEq

/-- The statuses that the update of a flow does not override. -/
def HedgeFlowStatus.isTerminal : HedgeFlowStatus → Bool
  | .opened => false
  | _ => true

def reportStatusToHedgeFlowStatus : ExecutionReportStatus → HedgeFlowStatus
  | .filled => .completed
  | .partiallyFilled => .opened
  | .underfilled => .underfilled
  | .rejected => .rejected
  | .cancelled | .expired => .cancelled
  | .overfillGuard => .completed
  | .new | .unspecified => .opened

/-- `child_orders.status`. -/
inductive ChildOrderStatus where
  | pending
  | filled
  | partiallyFilled
  | cancelled
  | rejected
deriving DecidableEq

/-- The statuses in which a child order is done. -/
def ChildOrderStatus.isTerminal : ChildOrderStatus → Bool
  | .pending | .partiallyFilled => false
  | _ => true

def reportStatusToChildOrderStatus : ExecutionReportStatus → ChildOrderStatus
  | .filled => .filled
  | .partiallyFilled => .partiallyFilled
  | .rejected => .rejected
  | .cancelled | .expired | .overfillGuard | .underfilled => .cancelled
  | .new | .unspecified => .pending

/-- A row of `hedgeflows`. -/
structure HedgeFlowRow where
  targetQty : PgNumeric
  filledQty : PgNumeric := .zero
  avgFillPrice : Option PgNumeric := none
  status : HedgeFlowStatus := .opened
  errorCode : Option String := none
  errorMessage : Option String := none
deriving DecidableEq

/-- A row of `child_orders`. -/
structure ChildOrderRow where
  qty : PgNumeric
  filledQty : PgNumeric := .zero
  avgPrice : Option PgNumeric := none
  status : ChildOrderStatus := .pending
  venueOrderId : Option String := none
  errorCode : Option String := none
  errorMessage : Option String := none
deriving DecidableEq

/-- `fob.execution.v1.ExecutionReport`; an error is its code and message. -/
structure HedgeReport where
  hedgeFlowId : String := ""
  intentId : String := ""
  clientOrderId : String := ""
  venueOrderId : String := ""
  status : ExecutionReportStatus
  filledQty : Option Decimal := none
  averagePrice : Option Decimal := none
  error : Option (String × String) := none
deriving DecidableEq

namespace HedgeReport

/-- The flow of a report; the intent id stands in for a missing one. -/
def flowId (report : HedgeReport) : String :=
  if report.hedgeFlowId = "" then report.intentId else report.hedgeFlowId

/-- The quantity that is handed to the database. -/
def qty (report : HedgeReport) : ℚ :=
  printedValue (report.filledQty.getD Decimal.zero)

/-- The price that is handed to the database. -/
def price (report : HedgeReport) : ℚ :=
  printedValue (report.averagePrice.getD Decimal.zero)

end HedgeReport

/-- A value that is stored in a NUMERIC(38, 18) column. -/
def roundNumeric (x : ℚ) : PgNumeric :=
  ⟨llround (x * 10 ^ 18)⟩

/-- A quotient of the database, computed to at least eighteen places. -/
def numericQuotient (morePlaces : Nat) (a b : ℚ) : ℚ :=
  llround (a / b * 10 ^ (18 + morePlaces)) / 10 ^ (18 + morePlaces)

/-- `COALESCE(NULLIF(new, ''), old)`. -/
def coalesceText (new : String) (old : Option String) : Option String :=
  if new = "" then old else some new

def ChildOrderRow.updated (row : ChildOrderRow) (report : HedgeReport) : ChildOrderRow :=
  { row with
    filledQty := roundNumeric report.qty
    avgPrice := some (roundNumeric report.price)
    venueOrderId := coalesceText report.venueOrderId row.venueOrderId
    status := reportStatusToChildOrderStatus report.status
    errorCode := coalesceText (report.error.elim "" Prod.fst) row.errorCode
    errorMessage := coalesceText (report.error.elim "" Prod.snd) row.errorMessage }

/-- The CHECK constraints on the filled quantity of a child order. -/
def ChildOrderRow.checked (row : ChildOrderRow) : Bool :=
  decide (0 ≤ row.filledQty.units ∧ row.filledQty.toRat ≤ row.qty.toRat * (101 / 100))

def HedgeFlowRow.updated (morePlaces : Nat) (row : HedgeFlowRow) (report : HedgeReport) :
    HedgeFlowRow :=
  let filled := row.filledQty.toRat
  { row with
    filledQty := roundNumeric (filled + report.qty)
    avgFillPrice :=
      if 0 < filled + report.qty then
        some (roundNumeric (numericQuotient morePlaces
          ((row.avgFillPrice.elim 0 PgNumeric.toRat) * filled + report.price * report.qty)
          (filled + report.qty)))
      else row.avgFillPrice
    status :=
      if row.status.isTerminal then row.status
      else reportStatusToHedgeFlowStatus report.status
    errorCode := coalesceText (report.error.elim "" Prod.fst) row.errorCode
    errorMessage := coalesceText (report.error.elim "" Prod.snd) row.errorMessage }

/-- The CHECK constraints on the filled quantity of a flow. -/
def HedgeFlowRow.checked (row : HedgeFlowRow) : Bool :=
  decide (0 ≤ row.filledQty.units ∧ row.filledQty.toRat ≤ row.targetQty.toRat * (101 / 100))

/-- A report with how the database answers each repository, and the places it computes the
average to beyond the eighteenth. -/
structure ReportCall where
  report : HedgeReport
  childAnswers : Bool := true
  flowAnswers : Bool := true
  morePlaces : Nat := 0

/-- The two tables, with the flows of the reports that were handled. -/
structure HedgeBooks where
  flows : Table String HedgeFlowRow := ∅
  children : Table (String × String) ChildOrderRow := ∅
  handled : List String := []

namespace HedgeBooks

def takenChild (s : HedgeBooks) (e : ReportCall) : Option ChildOrderRow :=
  if e.report.clientOrderId = "" ∨ e.report.flowId = "" ∨ !e.childAnswers then none
  else
    (s.children.lookup (e.report.flowId, e.report.clientOrderId)).filter
      (fun row => (row.updated e.report).checked)

def takenFlow (s : HedgeBooks) (e : ReportCall) : Option HedgeFlowRow :=
  if e.report.flowId = "" ∨ !e.flowAnswers then none
  else
    (s.flows.lookup e.report.flowId).filter
      (fun row => (row.updated e.morePlaces e.report).checked)

/-- `PostgresChildOrderRepository::ApplyReport`; a failed transaction leaves the row. -/
def applyChildReport (s : HedgeBooks) (e : ReportCall) : Table (String × String) ChildOrderRow :=
  match s.takenChild e with
  | none => s.children
  | some row =>
      s.children.insert (e.report.flowId, e.report.clientOrderId) (row.updated e.report)

/-- `PostgresHedgeflowRepository::ApplyReport`; a failed transaction leaves the row. -/
def applyFlowReport (s : HedgeBooks) (e : ReportCall) : Table String HedgeFlowRow :=
  match s.takenFlow e with
  | none => s.flows
  | some row => s.flows.insert e.report.flowId (row.updated e.morePlaces e.report)

/-- One report: the loop hands it to the child orders and then to the flows. -/
def step (s : HedgeBooks) (e : ReportCall) : HedgeBooks where
  flows := s.applyFlowReport e
  children := s.applyChildReport e
  handled := e.report.flowId :: s.handled

/-- The filled quantity of the children of a flow. -/
def childFilled (s : HedgeBooks) (flowId : String) : ℚ :=
  s.children.sum (fun key row => if key.1 = flowId then row.filledQty.toRat else 0)

/-- What the fills of a child order are worth. -/
def valueOf (row : ChildOrderRow) : ℚ :=
  row.filledQty.toRat * row.avgPrice.elim 0 PgNumeric.toRat

/-- What the fills of the children of a flow are worth. -/
def childValue (s : HedgeBooks) (flowId : String) : ℚ :=
  s.children.sum (fun key row => if key.1 = flowId then valueOf row else 0)

/-- A unit of the last place of a column, for each report of a flow. -/
def tolerance (s : HedgeBooks) (flowId : String) : ℚ :=
  s.handled.count flowId * (1 / 10 ^ 18)

/-- A flow agrees with its children. -/
structure FlowReconciled (s : HedgeBooks) (flowId : String) (row : HedgeFlowRow) : Prop where
  filled : row.filledQty.toRat = s.childFilled flowId
  average : 0 < s.childFilled flowId → ∃ avg ∈ row.avgFillPrice,
    |avg.toRat - s.childValue flowId / s.childFilled flowId| ≤ s.tolerance flowId
  completed : row.status = .completed → row.targetQty.toRat ≤ row.filledQty.toRat

/-- Every flow agrees with its children. -/
def Reconciled (s : HedgeBooks) : Prop :=
  ∀ flowId row, s.flows.lookup flowId = some row → s.FlowReconciled flowId row

/-- No terminal status of a flow or a child order is replaced by another. -/
structure StatusKept (s s' : HedgeBooks) : Prop where
  flow : ∀ flowId row row', s.flows.lookup flowId = some row →
    s'.flows.lookup flowId = some row' → row.status.isTerminal → row'.status = row.status
  child : ∀ key row row', s.children.lookup key = some row →
    s'.children.lookup key = some row' → row.status.isTerminal → row'.status = row.status

/-- Nothing is filled yet and no flow is done. -/
structure Fresh (s : HedgeBooks) : Prop where
  flows : ∀ flowId row, s.flows.lookup flowId = some row →
    row.filledQty.units = 0 ∧ row.status = .opened
  children : ∀ key row, s.children.lookup key = some row → row.filledQty.units = 0
  handled : s.handled = []

/-- The column keeps a value. -/
def Kept (x : ℚ) : Prop :=
  (roundNumeric x).toRat = x
deriving Decidable

/-- The condition on a report: its amounts have at most eighteen places; when both rows
take it, nothing of the child order was filled before, and when one row alone takes it,
that row stays as filled as it was; a flow that is reported filled reaches its target; and
a child order that is done keeps its status. -/
structure ReportOk (s : HedgeBooks) (e : ReportCall) : Prop where
  kept : Kept e.report.qty ∧ Kept e.report.price
  both : ∀ c ∈ s.takenChild e, (s.takenFlow e).isSome → c.filledQty.units = 0
  childOnly : ∀ c ∈ s.takenChild e, s.takenFlow e = none →
    c.filledQty.toRat = e.report.qty ∧ valueOf c = e.report.qty * e.report.price
  flowOnly : s.takenChild e = none → (s.takenFlow e).isSome → e.report.qty = 0
  completes : ∀ f ∈ s.takenFlow e, f.status.isTerminal = false →
    reportStatusToHedgeFlowStatus e.report.status = .completed →
    f.targetQty.toRat ≤ f.filledQty.toRat + e.report.qty
  final : ∀ c ∈ s.takenChild e, c.status.isTerminal →
    reportStatusToChildOrderStatus e.report.status = c.status

instance (s : HedgeBooks) (e : ReportCall) : Decidable (s.ReportOk e) :=
  decidable_of_iff
    ((Kept e.report.qty ∧ Kept e.report.price) ∧
      (∀ c ∈ s.takenChild e, (s.takenFlow e).isSome → c.filledQty.units = 0) ∧
      (∀ c ∈ s.takenChild e, s.takenFlow e = none →
        c.filledQty.toRat = e.report.qty ∧ valueOf c = e.report.qty * e.report.price) ∧
      (s.takenChild e = none → (s.takenFlow e).isSome → e.report.qty = 0) ∧
      (∀ f ∈ s.takenFlow e, f.status.isTerminal = false →
        reportStatusToHedgeFlowStatus e.report.status = .completed →
        f.targetQty.toRat ≤ f.filledQty.toRat + e.report.qty) ∧
      (∀ c ∈ s.takenChild e, c.status.isTerminal →
        reportStatusToChildOrderStatus e.report.status = c.status))
    ⟨fun h => ⟨h.1, h.2.1, h.2.2.1, h.2.2.2.1, h.2.2.2.2.1, h.2.2.2.2.2⟩,
      fun h => ⟨h.kept, h.both, h.childOnly, h.flowOnly, h.completes, h.final⟩⟩

theorem roundNumeric_error (x : ℚ) : |(roundNumeric x).toRat - x| ≤ 1 / 2 * (1 / 10 ^ 18) := by
  have hround := llround_error (x * 10 ^ 18)
  have hsplit : (roundNumeric x).toRat - x =
      ((llround (x * 10 ^ 18) : ℚ) - x * 10 ^ 18) * (1 / 10 ^ 18) := by
    unfold toRat roundNumeric
    ring
  rw [hsplit, abs_mul, abs_of_pos (by positivity : (0 : ℚ) < 1 / 10 ^ 18)]
  exact mul_le_mul_of_nonneg_right hround (by positivity)

theorem numericQuotient_error (morePlaces : Nat) (a b : ℚ) :
    |numericQuotient morePlaces a b - a / b| ≤ 1 / 2 * (1 / 10 ^ 18) := by
  have hround := llround_error (a / b * 10 ^ (18 + morePlaces))
  have hpos : (0 : ℚ) < 10 ^ (18 + morePlaces) := by positivity
  have hsplit : numericQuotient morePlaces a b - a / b =
      ((llround (a / b * 10 ^ (18 + morePlaces)) : ℚ) - a / b * 10 ^ (18 + morePlaces)) *
        (1 / 10 ^ (18 + morePlaces)) := by
    unfold numericQuotient
    rw [sub_mul, mul_one_div, mul_one_div, mul_div_cancel_right₀ _ hpos.ne']
  have hplaces : (1 : ℚ) / 10 ^ (18 + morePlaces) ≤ 1 / 10 ^ 18 :=
    one_div_le_one_div_of_le (by positivity) (pow_le_pow_right₀ (by norm_num) (by omega))
  rw [hsplit, abs_mul, abs_of_pos (by positivity : (0 : ℚ) < 1 / 10 ^ (18 + morePlaces))]
  exact mul_le_mul hround hplaces (by positivity) (by norm_num)

theorem kept_add {x : ℚ} (z : PgNumeric) (h : Kept x) : Kept (z.toRat + x) := by
  have hunits : (z.toRat + x) * 10 ^ 18 = ((z.units + llround (x * 10 ^ 18) : Int) : ℚ) := by
    have hx : x * 10 ^ 18 = (llround (x * 10 ^ 18) : ℚ) := by
      have hkept : (llround (x * 10 ^ 18) : ℚ) / 10 ^ 18 = x := h
      conv_lhs => rw [← hkept]
      exact div_mul_cancel₀ _ (by norm_num)
    rw [add_mul, Int.cast_add, ← hx]
    unfold toRat
    rw [div_mul_cancel₀ _ (by norm_num : ((10 : ℚ) ^ 18) ≠ 0)]
  change (llround ((z.toRat + x) * 10 ^ 18) : ℚ) / 10 ^ 18 = z.toRat + x
  rw [hunits, llround_intCast, ← hunits,
    mul_div_cancel_right₀ _ (by norm_num : ((10 : ℚ) ^ 18) ≠ 0)]

theorem PgNumeric_toRat_nonneg {z : PgNumeric} (h : 0 ≤ z.units) : 0 ≤ z.toRat := by
  have hunits : (0 : ℚ) ≤ z.units := by exact_mod_cast h
  unfold toRat
  positivity

theorem averageStored_error (morePlaces : Nat) (a b : ℚ) :
    |(roundNumeric (numericQuotient morePlaces a b)).toRat - a / b| ≤ 1 / 10 ^ 18 := by
  have hstore := roundNumeric_error (numericQuotient morePlaces a b)
  have hquotient := numericQuotient_error morePlaces a b
  rw [abs_le] at hstore hquotient ⊢
  constructor <;> linarith

variable {s : HedgeBooks} {e : ReportCall}

theorem takenChild_spec {c : ChildOrderRow} (h : s.takenChild e = some c) :
    s.children.lookup (e.report.flowId, e.report.clientOrderId) = some c ∧
      (c.updated e.report).checked = true := by
  unfold takenChild at h
  split at h
  · cases h
  · exact filter_eq_some_iff.mp h

theorem takenFlow_spec {f : HedgeFlowRow} (h : s.takenFlow e = some f) :
    s.flows.lookup e.report.flowId = some f ∧ (f.updated e.morePlaces e.report).checked = true := by
  unfold takenFlow at h
  split at h
  · cases h
  · exact filter_eq_some_iff.mp h

theorem lookup_flows_step (s : HedgeBooks) (e : ReportCall) (flowId : String) :
    (s.step e).flows.lookup flowId =
      if flowId = e.report.flowId then
        ((s.takenFlow e).map (fun f => f.updated e.morePlaces e.report)).or (s.flows.lookup flowId)
      else s.flows.lookup flowId := by
  change (s.applyFlowReport e).lookup flowId = _
  unfold applyFlowReport
  cases hflow : s.takenFlow e with
  | none =>
      dsimp only
      rw [map_none, none_or, ite_self]
  | some f =>
      dsimp only
      by_cases hid : flowId = e.report.flowId
      · rw [if_pos hid, hid, lookup_insert]
        rfl
      · rw [if_neg hid, lookup_insert_ne hid]

theorem sum_children_step (s : HedgeBooks) (e : ReportCall) (g : ChildOrderRow → ℚ)
    (flowId : String) :
    (s.step e).children.sum (fun key row => if key.1 = flowId then g row else 0) =
      s.children.sum (fun key row => if key.1 = flowId then g row else 0) +
        if e.report.flowId = flowId then
          (s.takenChild e).elim 0 (fun c => g (c.updated e.report) - g c)
        else 0 := by
  change (s.applyChildReport e).sum _ = _
  unfold applyChildReport
  cases hchild : s.takenChild e with
  | none =>
      dsimp only
      rw [elim_none, ite_self, add_zero]
  | some c =>
      dsimp only
      rw [Table.sum_insert_of_lookup _ (takenChild_spec hchild).1, elim_some]
      by_cases hid : e.report.flowId = flowId
      · rw [if_pos hid, if_pos hid, if_pos hid]
      · rw [if_neg hid, if_neg hid, if_neg hid, sub_zero]

/-- The average of a flow, zero when there is none. -/
def averageOf (row : HedgeFlowRow) : ℚ :=
  row.avgFillPrice.elim 0 PgNumeric.toRat

/-- What every report preserves of a flow: the value at the stored average is that of the
children, up to the tolerance on every unit that is filled. -/
structure FlowSound (s : HedgeBooks) (flowId : String) (row : HedgeFlowRow) : Prop where
  filled : row.filledQty.toRat = s.childFilled flowId
  nonneg : 0 ≤ row.filledQty.toRat
  value : |averageOf row * row.filledQty.toRat - s.childValue flowId| ≤
    s.tolerance flowId * row.filledQty.toRat
  priced : 0 < row.filledQty.toRat → row.avgFillPrice.isSome
  completed : row.status = .completed → row.targetQty.toRat ≤ row.filledQty.toRat

def Sound (s : HedgeBooks) : Prop :=
  ∀ flowId row, s.flows.lookup flowId = some row → s.FlowSound flowId row

theorem tolerance_nonneg (s : HedgeBooks) (flowId : String) : 0 ≤ s.tolerance flowId := by
  unfold tolerance
  positivity

theorem tolerance_step (s : HedgeBooks) (e : ReportCall) :
    (s.step e).tolerance e.report.flowId = s.tolerance e.report.flowId + 1 / 10 ^ 18 := by
  unfold tolerance
  change ((e.report.flowId :: s.handled).count e.report.flowId : ℚ) * _ = _
  rw [count_cons_self]
  push_cast
  ring

theorem tolerance_le_step (s : HedgeBooks) (e : ReportCall) (flowId : String) :
    s.tolerance flowId ≤ (s.step e).tolerance flowId := by
  have hcount : s.handled.count flowId ≤ (e.report.flowId :: s.handled).count flowId :=
    count_le_count_cons
  have hcast : (s.handled.count flowId : ℚ) ≤ ((s.step e).handled.count flowId : ℚ) := by
    exact_mod_cast hcount
  unfold tolerance
  exact mul_le_mul_of_nonneg_right hcast (by positivity)

theorem FlowSound.reconciled {flowId : String} {row : HedgeFlowRow}
    (h : s.FlowSound flowId row) : s.FlowReconciled flowId row where
  filled := h.filled
  average := by
    intro hpos
    rw [← h.filled] at hpos ⊢
    obtain ⟨avg, havg⟩ := isSome_iff_exists.mp (h.priced hpos)
    refine ⟨avg, havg, ?_⟩
    have hvalue := h.value
    unfold averageOf at hvalue
    rw [havg, elim_some] at hvalue
    have hsplit : avg.toRat - s.childValue flowId / row.filledQty.toRat =
        (avg.toRat * row.filledQty.toRat - s.childValue flowId) / row.filledQty.toRat := by
      rw [sub_div, mul_div_cancel_right₀ _ hpos.ne']
    rw [hsplit, abs_div, abs_of_pos hpos, div_le_iff₀ hpos]
    exact hvalue
  completed := h.completed

/-- The quantity and the value that a report adds to the children of its flow are those it
adds to the flow. -/
structure Gains (s : HedgeBooks) (e : ReportCall) (flow : Option HedgeFlowRow) : Prop where
  filled : (s.step e).childFilled e.report.flowId =
    s.childFilled e.report.flowId + if flow.isSome then e.report.qty else 0
  value : (s.step e).childValue e.report.flowId =
    s.childValue e.report.flowId + if flow.isSome then e.report.price * e.report.qty else 0

theorem gains_of_ok (hok : s.ReportOk e) : Gains s e (s.takenFlow e) := by
  have hqty : (roundNumeric e.report.qty).toRat = e.report.qty := hok.kept.1
  have hprice : (roundNumeric e.report.price).toRat = e.report.price := hok.kept.2
  have hfilled : (s.step e).childFilled e.report.flowId = _ :=
    sum_children_step s e (fun row => row.filledQty.toRat) e.report.flowId
  have hvalue : (s.step e).childValue e.report.flowId = _ :=
    sum_children_step s e valueOf e.report.flowId
  rw [if_pos rfl] at hfilled hvalue
  cases hchild : s.takenChild e with
  | none =>
      rw [hchild, elim_none] at hfilled hvalue
      have hzero : (s.takenFlow e).isSome → e.report.qty = 0 := hok.flowOnly hchild
      refine ⟨hfilled.trans ?_, hvalue.trans ?_⟩
      · split
        · rename_i hflow
          rw [hzero hflow]
          rfl
        · rfl
      · split
        · rename_i hflow
          rw [hzero hflow, mul_zero]
          rfl
        · rfl
  | some c =>
      rw [hchild, elim_some] at hfilled hvalue
      have hnewValue : valueOf (c.updated e.report) = e.report.qty * e.report.price := by
        change (roundNumeric e.report.qty).toRat * (roundNumeric e.report.price).toRat = _
        rw [hqty, hprice]
      have hnewFilled : (c.updated e.report).filledQty.toRat = e.report.qty := hqty
      rw [hnewFilled] at hfilled
      rw [hnewValue] at hvalue
      cases hflow : s.takenFlow e with
      | none =>
          obtain ⟨hsame, hworth⟩ := hok.childOnly c hchild hflow
          rw [hsame, sub_self] at hfilled
          rw [hworth, sub_self] at hvalue
          exact ⟨hfilled, hvalue⟩
      | some f =>
          have hold : c.filledQty.toRat = 0 := by
            unfold toRat
            rw [hok.both c hchild (by rw [hflow]; rfl)]
            simp
          have holdValue : valueOf c = 0 := by
            unfold valueOf
            rw [hold, zero_mul]
          rw [hold, sub_zero] at hfilled
          rw [holdValue, sub_zero, mul_comm] at hvalue
          exact ⟨hfilled, hvalue⟩

theorem qty_nonneg (hok : s.ReportOk e) (hflow : (s.takenFlow e).isSome) : 0 ≤ e.report.qty := by
  cases hchild : s.takenChild e with
  | none => exact (hok.flowOnly hchild hflow).ge
  | some c =>
      have hchecked := (takenChild_spec hchild).2
      unfold ChildOrderRow.checked at hchecked
      have hunits := PgNumeric_toRat_nonneg (of_decide_eq_true hchecked).1
      have hqty : (roundNumeric e.report.qty).toRat = e.report.qty := hok.kept.1
      rw [← hqty]
      exact hunits

theorem flowSound_updated {f : HedgeFlowRow} (h : s.FlowSound e.report.flowId f)
    (hok : s.ReportOk e) (hflow : s.takenFlow e = some f) :
    (s.step e).FlowSound e.report.flowId (f.updated e.morePlaces e.report) := by
  have hsome : (s.takenFlow e).isSome := by rw [hflow]; rfl
  have hqty := qty_nonneg hok hsome
  have hgains := gains_of_ok hok
  have hfilled := hgains.filled
  have hvalue := hgains.value
  rw [if_pos hsome] at hfilled hvalue
  have hnew : (f.updated e.morePlaces e.report).filledQty.toRat =
      f.filledQty.toRat + e.report.qty := kept_add f.filledQty hok.kept.1
  have hnonneg := h.nonneg
  refine ⟨?_, ?_, ?_, ?_, ?_⟩
  · rw [hnew, hfilled, h.filled]
  · rw [hnew]
    linarith
  · rw [hnew, hvalue, tolerance_step]
    have hbefore := h.value
    have htol := tolerance_nonneg s e.report.flowId
    by_cases hpos : 0 < f.filledQty.toRat + e.report.qty
    · have havg : averageOf (f.updated e.morePlaces e.report) =
          (roundNumeric (numericQuotient e.morePlaces
            (averageOf f * f.filledQty.toRat + e.report.price * e.report.qty)
            (f.filledQty.toRat + e.report.qty))).toRat := by
        unfold averageOf HedgeFlowRow.updated
        dsimp only
        rw [if_pos hpos]
        rfl
      have herror := averageStored_error e.morePlaces
        (averageOf f * f.filledQty.toRat + e.report.price * e.report.qty)
        (f.filledQty.toRat + e.report.qty)
      rw [← havg] at herror
      -- the new value, next to the old one with the report
      have hclose : |averageOf (f.updated e.morePlaces e.report) *
            (f.filledQty.toRat + e.report.qty) -
          (averageOf f * f.filledQty.toRat + e.report.price * e.report.qty)| ≤
          1 / 10 ^ 18 * (f.filledQty.toRat + e.report.qty) := by
        have hsplit : averageOf (f.updated e.morePlaces e.report) *
              (f.filledQty.toRat + e.report.qty) -
            (averageOf f * f.filledQty.toRat + e.report.price * e.report.qty) =
            (averageOf (f.updated e.morePlaces e.report) -
              (averageOf f * f.filledQty.toRat + e.report.price * e.report.qty) /
                (f.filledQty.toRat + e.report.qty)) *
              (f.filledQty.toRat + e.report.qty) := by
          rw [sub_mul, div_mul_cancel₀ _ hpos.ne']
        rw [hsplit, abs_mul, abs_of_pos hpos]
        exact mul_le_mul_of_nonneg_right herror hpos.le
      have hmono : s.tolerance e.report.flowId * f.filledQty.toRat ≤
          s.tolerance e.report.flowId * (f.filledQty.toRat + e.report.qty) :=
        mul_le_mul_of_nonneg_left (by linarith) htol
      rw [abs_le] at hbefore hclose ⊢
      constructor <;> linarith
    · have hzero : f.filledQty.toRat = 0 ∧ e.report.qty = 0 := by
        constructor <;> linarith
      have hsame : averageOf (f.updated e.morePlaces e.report) = averageOf f := by
        unfold averageOf HedgeFlowRow.updated
        dsimp only
        rw [if_neg hpos]
      rw [hsame, hzero.1, hzero.2]
      rw [hzero.1] at hbefore
      simpa using hbefore
  · intro hpos
    rw [hnew] at hpos
    change (if 0 < f.filledQty.toRat + e.report.qty then _ else f.avgFillPrice).isSome
    rw [if_pos hpos]
    rfl
  · intro hstatus
    rw [hnew]
    change f.targetQty.toRat ≤ _
    change (if f.status.isTerminal then f.status
      else reportStatusToHedgeFlowStatus e.report.status) = _ at hstatus
    cases hterminal : f.status.isTerminal with
    | true =>
        rw [hterminal, if_pos rfl] at hstatus
        linarith [h.completed hstatus]
    | false =>
        rw [hterminal, if_neg Bool.false_ne_true] at hstatus
        exact hok.completes f hflow hterminal hstatus

theorem flowSound_kept {flowId : String} {row : HedgeFlowRow} (h : s.FlowSound flowId row)
    (hfilled : (s.step e).childFilled flowId = s.childFilled flowId)
    (hvalue : (s.step e).childValue flowId = s.childValue flowId) :
    (s.step e).FlowSound flowId row where
  filled := by
    rw [hfilled]
    exact h.filled
  nonneg := h.nonneg
  value := by
    rw [hvalue]
    refine h.value.trans ?_
    exact mul_le_mul_of_nonneg_right (tolerance_le_step s e flowId) h.nonneg
  priced := h.priced
  completed := h.completed

theorem sound_step (h : s.Sound) (hok : s.ReportOk e) : (s.step e).Sound := by
  intro flowId row hrow
  rw [lookup_flows_step] at hrow
  by_cases hid : flowId = e.report.flowId
  · subst hid
    rw [if_pos rfl] at hrow
    cases hflow : s.takenFlow e with
    | none =>
        rw [hflow] at hrow
        have hgains := gains_of_ok hok
        have hfilled := hgains.filled
        have hvalue := hgains.value
        rw [hflow, if_neg (by simp), add_zero] at hfilled hvalue
        exact flowSound_kept (h _ row hrow) hfilled hvalue
    | some f =>
        rw [hflow] at hrow
        cases hrow
        exact flowSound_updated (h _ f (takenFlow_spec hflow).1) hok hflow
  · rw [if_neg hid] at hrow
    have hother : e.report.flowId ≠ flowId := Ne.symm hid
    refine flowSound_kept (h flowId row hrow) ?_ ?_
    · refine (sum_children_step s e (fun row => row.filledQty.toRat) flowId).trans ?_
      rw [if_neg hother, add_zero]
      rfl
    · refine (sum_children_step s e valueOf flowId).trans ?_
      rw [if_neg hother, add_zero]
      rfl

theorem statusKept_step (hok : s.ReportOk e) : s.StatusKept (s.step e) where
  flow := by
    intro flowId row row' hrow hrow' hterminal
    rw [lookup_flows_step, hrow] at hrow'
    split at hrow'
    · rename_i hid
      subst hid
      cases hflow : s.takenFlow e with
      | none =>
          rw [hflow] at hrow'
          cases hrow'
          rfl
      | some f =>
          obtain rfl : row = f := by
            have hf := (takenFlow_spec hflow).1
            rw [hrow] at hf
            exact Option.some.inj hf
          rw [hflow] at hrow'
          cases hrow'
          exact if_pos hterminal
    · cases hrow'
      rfl
  child := by
    intro key row row' hrow hrow' hterminal
    change (s.applyChildReport e).lookup key = some row' at hrow'
    unfold applyChildReport at hrow'
    cases hchild : s.takenChild e with
    | none =>
        rw [hchild] at hrow'
        rw [hrow] at hrow'
        cases hrow'
        rfl
    | some c =>
        rw [hchild] at hrow'
        dsimp only at hrow'
        by_cases hkey : key = (e.report.flowId, e.report.clientOrderId)
        · obtain rfl : row = c := by
            have hc := (takenChild_spec hchild).1
            rw [← hkey, hrow] at hc
            exact Option.some.inj hc
          rw [hkey, lookup_insert] at hrow'
          cases hrow'
          exact hok.final row hchild hterminal
        · rw [lookup_insert_ne hkey, hrow] at hrow'
          cases hrow'
          rfl

theorem Fresh.sound (h : s.Fresh) : s.Sound := by
  intro flowId row hrow
  obtain ⟨hunits, hopen⟩ := h.flows flowId row hrow
  have hfilled : row.filledQty.toRat = 0 := by
    unfold toRat
    rw [hunits]
    simp
  have hsum : ∀ g : ChildOrderRow → ℚ, (∀ c : ChildOrderRow, c.filledQty.units = 0 → g c = 0) →
      s.children.sum (fun key row => if key.1 = flowId then g row else 0) = 0 := by
    intro g hg
    refine sum_eq_zero (fun x hx => ?_)
    obtain ⟨entry, hentry, rfl⟩ := mem_map.mp hx
    have hzero := h.children entry.1 entry.2 (mem_lookup_iff.mpr hentry)
    dsimp only
    rw [hg entry.2 hzero, ite_self]
  have hchildren : s.childFilled flowId = 0 := by
    refine hsum (fun row => row.filledQty.toRat) (fun c hc => ?_)
    unfold toRat
    rw [hc]
    simp
  have hworth : s.childValue flowId = 0 := by
    refine hsum valueOf (fun c hc => ?_)
    unfold valueOf toRat
    rw [hc]
    simp
  refine ⟨by rw [hfilled, hchildren], hfilled.ge, ?_, fun hpos => ?_, fun hdone => ?_⟩
  · rw [hfilled, hworth]
    simp
  · exact absurd hpos (by rw [hfilled]; exact lt_irrefl _)
  · rw [hopen] at hdone
    cases hdone

end HedgeBooks

open HedgeBooks

/-- Along every run of reports that meet the condition, from tables in which nothing is
filled, every flow agrees with its children after every report, and no terminal status is
replaced. -/
theorem reconciled_run {s : HedgeBooks} (hfresh : s.Fresh) (es : List ReportCall)
    (hok : StepsMeet HedgeBooks.step HedgeBooks.ReportOk s es) :
    StepsMeet HedgeBooks.step
      (fun s e => (s.step e).Reconciled ∧ s.StatusKept (s.step e)) s es := by
  have hstep : ∀ (s : HedgeBooks) e, s.Sound → s.ReportOk e → (s.step e).Sound :=
    fun _ _ h hok => sound_step h hok
  refine (hok.with_invariant hstep hfresh.sound).imp (fun s e h => ⟨?_, statusKept_step h.2⟩)
  exact fun flowId row hrow => (sound_step h.1 h.2 flowId row hrow).reconciled

def tenInTwo : HedgeBooks where
  flows := AList.insert "h1" { targetQty := ⟨10 * 10 ^ 18⟩ } ∅
  children :=
    AList.insert ("h1", "c2") { qty := ⟨5 * 10 ^ 18⟩ }
      (AList.insert ("h1", "c1") { qty := ⟨5 * 10 ^ 18⟩ } ∅)

/-- A report of a child order at a price of 100. -/
def fillReport (clientOrderId : String) (status : ExecutionReportStatus) (qty : Decimal) :
    ReportCall where
  report :=
    { hedgeFlowId := "h1"
      clientOrderId
      status
      filledQty := some qty
      averagePrice := some (Decimal.of 100 0) }

theorem fresh_tenInTwo : tenInTwo.Fresh where
  flows := by
    intro flowId row hrow
    have hmem := mem_lookup_iff.mp hrow
    have hall : ∀ entry ∈ tenInTwo.flows.entries,
        entry.2.filledQty.units = 0 ∧ entry.2.status = .opened := by decide
    exact hall _ hmem
  children := by
    intro key row hrow
    have hmem := mem_lookup_iff.mp hrow
    have hall : ∀ entry ∈ tenInTwo.children.entries, entry.2.filledQty.units = 0 := by decide
    exact hall _ hmem
  handled := rfl

/-- Each child is filled by one report, the second one completes the flow. -/
theorem reconciled_two_fills :
    StepsMeet HedgeBooks.step
      (fun s e => (s.step e).Reconciled ∧ s.StatusKept (s.step e)) tenInTwo
      [fillReport "c1" .partiallyFilled (Decimal.of 5 0),
        fillReport "c2" .filled (Decimal.of 5 0)] :=
  reconciled_run fresh_tenInTwo _ (by decide +kernel)

/-- A child order that reports two units and then all of its five. -/
def cumulativeFills : List ReportCall :=
  [fillReport "c1" .partiallyFilled (Decimal.of 2 0), fillReport "c1" .filled (Decimal.of 5 0)]

/-- The flow counts the first two units twice. -/
theorem cumulative_fill_counted_twice :
    ¬ StepsMeet HedgeBooks.step
      (fun s e => (s.step e).Reconciled ∧ s.StatusKept (s.step e)) tenInTwo
      cumulativeFills := by
  intro h
  have hrow : ((run HedgeBooks.step tenInTwo cumulativeFills).flows.lookup "h1").isSome := by
    decide +kernel
  have hdiffers : ∀ row ∈ (run HedgeBooks.step tenInTwo cumulativeFills).flows.lookup "h1",
      row.filledQty.toRat ≠
        (run HedgeBooks.step tenInTwo cumulativeFills).childFilled "h1" := by
    decide +kernel
  obtain ⟨row, hrow⟩ := Option.isSome_iff_exists.mp hrow
  exact hdiffers row hrow (h.2.1.1 "h1" row hrow).filled

end Venues
end ContExchange
