import ContExchange.Common.Json
import ContExchange.Venues.ExecutionLoop

/-!
# Venues: the answer to a live order

What `CexWsRestAdapter::SendOrder` and `DexAmmRpcAdapter::SendOrder` make of the answer to an
order that has been sent to a venue, and the report that is made from it.

* `parseDecimalToScale`: the reader of quantities, and `parseDecimalToScale_spec`;
* `CexWsRestAdapter.answered`, `DexAmmRpcAdapter.answered`: the results;
* `Faithful`: what a result says of the answer;
* `order_answers_iff`: when it does.

The guards before the request (the circuit breaker, the simulated orders and the limit of
requests) are not part of it.
-/

namespace ContExchange
namespace Venues

open Common List Option
open Ledger (ExecutionReportStatus)

/-- What the loop of `parse_decimal_to_scale` has collected. -/
structure DecimalParts where
  integerPart : List Char := []
  fracPart : List Char := []
  seenDot : Bool := false

/-- One character. -/
def DecimalParts.step (parts : DecimalParts) (ch : Char) : Option DecimalParts :=
  if ch = '.' then
    if parts.seenDot then none else some { parts with seenDot := true }
  else if ch.isDigit then
    if parts.seenDot then some { parts with fracPart := parts.fracPart ++ [ch] }
    else some { parts with integerPart := parts.integerPart ++ [ch] }
  else none

/-- The zeros in front are dropped, but not the last digit. -/
def stripZeros : List Char → List Char
  | '0' :: c :: rest => stripZeros (c :: rest)
  | digits => digits

/-- The places behind the point: as many as the scale has. -/
def resizePlaces (scale : Nat) (places : List Char) : List Char :=
  if scale < places.length then places.take scale
  else places ++ List.replicate (scale - places.length) '0'

def DecimalParts.digits (parts : DecimalParts) (scale : Nat) : List Char :=
  stripZeros (if parts.integerPart = [] then ['0'] else parts.integerPart) ++
    resizePlaces scale parts.fracPart

/-- The loop over the digits, which gives up beyond 64 bits. -/
def mantissaStep (value : Nat) (ch : Char) : Option Nat :=
  let next := value * 10 + (ch.toNat - '0'.toNat)
  if int64Max < next then none else some next

def parseDecimalToScale (text : List Char) (targetScale : Int) :
    Option { units : Int // Int64Fits units } :=
  let signed := splitSign (text.filter (!isAsciiSpace ·))
  if targetScale < 0 ∨ signed.2 = [] then none
  else do
    let parts ← signed.2.foldlM DecimalParts.step {}
    let value ← (parts.digits targetScale.toNat).foldlM mantissaStep 0
    let units : Int := if signed.1 then -value else value
    if h : Int64Fits units then some ⟨units, h⟩ else none

def parseOrderStatus (status : List Char) : ExecutionReportStatus :=
  let normalized := status.map Char.toUpper
  if normalized = "NEW".toList ∨ normalized = "PENDING".toList ∨ normalized = "OPEN".toList then
    .new
  else if normalized = "PARTIALLY_FILLED".toList ∨ normalized = "PARTIAL_FILL".toList then
    .partiallyFilled
  else if normalized = "FILLED".toList ∨ normalized = "DONE".toList then .filled
  else if normalized = "CANCELED".toList ∨ normalized = "CANCELLED".toList then .cancelled
  else if normalized = "REJECTED".toList then .rejected
  else if normalized = "FAILED".toList ∨ normalized = "ERROR".toList then .rejected
  else if normalized = "EXPIRED".toList then .expired
  else .unspecified

/-- What the request came to: no answer of the class 2xx, one that is no JSON, or one that
is. -/
inductive OrderAnswer where
  | failed
  | unparsed
  | json (rep : Json)

/-- `CexWsRestAdapterConfig`; `coinbase` is `is_coinbase_profile` of its addresses. -/
structure CexWsRestAdapterConfig where
  coinbase : Bool := false
  marketPriceScale : Int := 8
  marketQtyScale : Int := 8

namespace CexWsRestAdapter

/-- `JsonToString` of the exchange. -/
def jsonToString (json : Json) : List Char :=
  json.text (fun _ => [])

def statusOf (rep : Json) : ExecutionReportStatus :=
  parseOrderStatus (jsonToString ((rep.member "status").getD (.string "NEW".toList)))

/-- The end of `CexWsRestAdapter::SendOrder`. -/
def answered (cfg : CexWsRestAdapterConfig) (intent : ExecutionIntent) :
    OrderAnswer → Except String VenueOrderResult
  | .failed =>
      .ok
        { accepted := false
          status := .rejected
          errorCode := "REST_ORDER_FAILED"
          errorMessage := "Failed to send order via REST" }
  | .unparsed =>
      .ok
        { accepted := false
          status := .rejected
          errorCode := "REST_ORDER_PARSE_FAILED"
          errorMessage := "Order response JSON parse failed" }
  | .json rep => do
      let orderId ← rep.value (if cfg.coinbase then "id" else "orderId") .null
      let status ← rep.value "status" (.string "NEW".toList)
      .ok
        { accepted := true
          venueOrderId := String.ofList (jsonToString orderId)
          status := parseOrderStatus (jsonToString status)
          filledQty := intent.targetQty
          remainingQty := Decimal.zeroAt intent.targetQty.scale
          averagePrice :=
            (intent.limitPrice.filter (fun price => price.units ≠ 0)).getD
              (Decimal.zeroAt cfg.marketPriceScale) }

end CexWsRestAdapter

def parseDexOrderStatus (value : List Char) : ExecutionReportStatus :=
  let status := value.map Char.toUpper
  if status = "NEW".toList then .new
  else if status = "PARTIALLY_FILLED".toList ∨ status = "PARTIAL".toList then .partiallyFilled
  else if status = "FILLED".toList then .filled
  else if status = "CANCELED".toList ∨ status = "CANCELLED".toList then .cancelled
  else if status = "REJECTED".toList ∨ status = "FAILED".toList ∨ status = "ERROR".toList then
    .rejected
  else if status = "EXPIRED".toList then .expired
  else .unspecified

structure DexAmmRpcAdapterConfig where
  marketPriceScale : Int := 8
  marketQtyScale : Int := 8

namespace DexAmmRpcAdapter

/-- `JsonToString` of the pools. -/
def jsonToString (json : Json) : List Char :=
  json.text (fun b => if b then "true".toList else "false".toList)

/-- The answer itself: under `result`, or all of it. -/
def resultOf (root : Json) : Json :=
  (root.member "result").getD root

/-- A status that is not known is taken from `accepted`. -/
def statusOr (accepted : Bool) (status : ExecutionReportStatus) : ExecutionReportStatus :=
  if status = .unspecified then if accepted then .new else .rejected else status

/-- Whether the answer accepts the order. -/
def acceptedIn (result : Json) : Bool :=
  match (result.member "accepted").getD (.bool true) with
  | .bool accepted => accepted
  | _ => true

def statusOf (result : Json) : ExecutionReportStatus :=
  statusOr (acceptedIn result)
    (parseDexOrderStatus (jsonToString ((result.member "status").getD .null)))

/-- The filled quantity in an answer. -/
def filledIn (result : Json) : Json :=
  (result.member "filledQty").getD (.string "0".toList)

/-- A quantity of the answer at a scale of the market, and what stands for one that is not
read. -/
def quantityOf (json : Json) (scale : Int) (fallback : Decimal) : Decimal :=
  match parseDecimalToScale (jsonToString json) scale with
  | some units => ⟨units.1, scale, units.2⟩
  | none => ⟨fallback.units, scale, fallback.fits⟩

/-- The end of `DexAmmRpcAdapter::SendOrder`. -/
def answered (cfg : DexAmmRpcAdapterConfig) (intent : ExecutionIntent) :
    OrderAnswer → Except String VenueOrderResult
  | .failed =>
      .ok
        { accepted := false
          errorCode := "RPC_ORDER_FAILED"
          errorMessage := "Failed to send order via RPC" }
  | .unparsed =>
      .ok
        { accepted := false
          errorCode := "RPC_ORDER_PARSE_FAILED"
          errorMessage := "Order response JSON parse failed" }
  | .json root => do
      let result := resultOf root
      let accepted ← result.boolValue "accepted" true
      let orderId ← result.value "orderId" .null
      let statusText ← result.value "status" .null
      let status := statusOr accepted (parseDexOrderStatus (jsonToString statusText))
      let filledQty ← result.value "filledQty" (.string "0".toList)
      let remainingQty ← result.value "remainingQty" (.string "0".toList)
      let averagePrice ← result.value "averagePrice" (.string "0".toList)
      let errorCode ← result.value "errorCode" (.string "ORDER_REJECTED".toList)
      let errorMessage ← result.value "errorMessage" (.string "Order rejected".toList)
      let refused := !accepted || status = .rejected
      .ok
        { accepted := accepted
          venueOrderId := String.ofList (jsonToString orderId)
          status := status
          filledQty := quantityOf filledQty cfg.marketQtyScale intent.targetQty
          remainingQty := quantityOf remainingQty cfg.marketQtyScale Decimal.zero
          averagePrice := quantityOf averagePrice cfg.marketPriceScale Decimal.zero
          errorCode := if refused then String.ofList (jsonToString errorCode) else ""
          errorMessage := if refused then String.ofList (jsonToString errorMessage) else "" }

end DexAmmRpcAdapter

/-- The statuses of an order that is not filled as a whole. -/
def NotFilled (status : ExecutionReportStatus) : Prop :=
  status ∈ [.new, .partiallyFilled, .rejected, .cancelled, .expired]
deriving Decidable

structure Faithful (stated : ℚ) (scale : Int) (target : Decimal) (result : VenueOrderResult)
    (report : ExecutionReport) : Prop where
  filled : result.filledQty.toRat = truncated scale stated
  below : NotFilled result.status → result.filledQty.toRat < target.toRat
  atMost : result.filledQty.toRat ≤ target.toRat
  refused : ¬ (result.status = .rejected ∧ result.accepted = true ∧
    result.filledQty.toRat = target.toRat)
  reported : report.filledQty = result.filledQty ∧ report.status = result.status

/-- The text of a number says the number that is stated: an integer has 64 bits with its
sign, and sixteen digits are enough at the scale. -/
def SaysTheSame (scale : Int) : Json → Prop
  | .integer n => n.value < 2 ^ 63
  | .float number =>
      truncated scale ((quantity? (Double.ofRat number.value).streamText).getD 0) =
        truncated scale number.value
  | _ => True

/-- The exchange has filled the whole target, and says so. -/
structure FilledInFull (cfg : CexWsRestAdapterConfig) (target : Decimal) (field : String)
    (rep : Json) : Prop where
  inFull : truncated cfg.marketQtyScale (Json.stated (rep.member field)) = target.toRat
  status : ¬ NotFilled (CexWsRestAdapter.statusOf rep)

/-- The filled quantity of a pool is a plain decimal that fits, or what stands for it happens
to be right, and it is within the target. -/
structure PlainWithin (cfg : DexAmmRpcAdapterConfig) (target : Decimal) (result : Json) :
    Prop where
  plain :
    match parseDecimalToScale (DexAmmRpcAdapter.jsonToString (DexAmmRpcAdapter.filledIn result))
      cfg.marketQtyScale with
    | some _ => SaysTheSame cfg.marketQtyScale (DexAmmRpcAdapter.filledIn result)
    | none =>
        (target.units : ℚ) * 10 ^ (-cfg.marketQtyScale) =
          truncated cfg.marketQtyScale (Json.stated (result.member "filledQty"))
  atMost : truncated cfg.marketQtyScale (Json.stated (result.member "filledQty")) ≤ target.toRat
  below : NotFilled (DexAmmRpcAdapter.statusOf result) →
    truncated cfg.marketQtyScale (Json.stated (result.member "filledQty")) < target.toRat

section Reading

variable {text digits : List Char} {parts parts' : DecimalParts}

theorem places_of_foldlM (hdot : parts.seenDot = true)
    (h : text.foldlM DecimalParts.step parts = some parts') :
    AllDigits text ∧ parts' = { parts with fracPart := parts.fracPart ++ text } := by
  induction text generalizing parts with
  | nil =>
      obtain rfl := Option.some.inj h
      exact ⟨forall_mem_nil _, by rw [append_nil]⟩
  | cons c rest ih =>
      rw [foldlM_cons] at h
      obtain ⟨next, hstep, hrest⟩ := bind_eq_some_iff.mp h
      by_cases hc : c = '.'
      · simp [DecimalParts.step, hc, hdot] at hstep
      · by_cases hdigit : c.isDigit = true
        · obtain rfl : { parts with fracPart := parts.fracPart ++ [c] } = next := by
            simpa [DecimalParts.step, hc, hdigit, hdot] using hstep
          obtain ⟨hall, rfl⟩ := @ih { parts with fracPart := parts.fracPart ++ [c] } hdot hrest
          exact ⟨forall_mem_cons.mpr ⟨hdigit, hall⟩, by simp⟩
        · simp [DecimalParts.step, hc, hdigit] at hstep

theorem parts_of_foldlM (hdot : parts.seenDot = false)
    (h : text.foldlM DecimalParts.step parts = some parts') :
    ∃ whole fraction tail, text = whole ++ tail ∧ FractionTail fraction tail ∧
      AllDigits whole ∧ AllDigits fraction ∧
      parts'.integerPart = parts.integerPart ++ whole ∧
      parts'.fracPart = parts.fracPart ++ fraction := by
  have hnil : AllDigits [] := forall_mem_nil _
  induction text generalizing parts with
  | nil =>
      obtain rfl := Option.some.inj h
      exact ⟨[], [], [], rfl, .inl ⟨rfl, rfl⟩, hnil, hnil, by simp, by simp⟩
  | cons c rest ih =>
      rw [foldlM_cons] at h
      obtain ⟨next, hstep, hrest⟩ := bind_eq_some_iff.mp h
      by_cases hc : c = '.'
      · obtain rfl : { parts with seenDot := true } = next := by
          simpa [DecimalParts.step, hc, hdot] using hstep
        obtain ⟨hall, rfl⟩ := places_of_foldlM rfl hrest
        exact ⟨[], rest, '.' :: rest, by rw [hc]; rfl, .inr rfl, hnil, hall, by simp, rfl⟩
      · by_cases hdigit : c.isDigit = true
        · obtain rfl : { parts with integerPart := parts.integerPart ++ [c] } = next := by
            simpa [DecimalParts.step, hc, hdigit, hdot] using hstep
          obtain ⟨whole, fraction, tail, rfl, htail, hwhole, hfraction, hint, hfrac⟩ :=
            @ih { parts with integerPart := parts.integerPart ++ [c] } hdot hrest
          refine ⟨c :: whole, fraction, tail, rfl, htail,
            forall_mem_cons.mpr ⟨hdigit, hwhole⟩, hfraction, ?_, hfrac⟩
          simpa using hint
        · simp [DecimalParts.step, hc, hdigit] at hstep

theorem number_of_foldlM {acc value : Nat} (h : digits.foldlM mantissaStep acc = some value) :
    value = acc * 10 ^ digits.length + number digits := by
  rw [← foldl_number]
  induction digits generalizing acc with
  | nil => exact (Option.some.inj h).symm
  | cons c rest ih =>
      rw [foldlM_cons] at h
      obtain ⟨next, hstep, hrest⟩ := bind_eq_some_iff.mp h
      obtain ⟨-, hnext⟩ := ite_none_left_eq_some.mp hstep
      obtain rfl := Option.some.inj hnext
      exact ih hrest

theorem number_stripZeros (digits back : List Char) :
    number (stripZeros digits ++ back) = number (digits ++ back) := by
  induction digits using stripZeros.induct with
  | case1 c rest ih =>
      rw [stripZeros, ih]
      rfl
  | case2 digits hother => rw [stripZeros]; exact hother

theorem resizePlaces_append (scale : Nat) (places : List Char) :
    ∃ dropped, dropped.length = places.length ∧
      resizePlaces scale places ++ dropped = places ++ List.replicate scale '0' := by
  unfold resizePlaces
  split_ifs with hlt
  · refine ⟨places.drop scale ++ List.replicate scale '0', ?_, ?_⟩
    · simp only [length_append, length_drop, length_replicate]
      omega
    · rw [← append_assoc, take_append_drop]
  · refine ⟨List.replicate places.length '0', length_replicate, ?_⟩
    rw [append_assoc, ← replicate_add]
    congr 2
    omega

theorem number_digits (parts : DecimalParts) (scale : Nat) (h : AllDigits parts.fracPart) :
    number (parts.digits scale) =
      number (parts.integerPart ++ parts.fracPart) * 10 ^ scale / 10 ^ parts.fracPart.length := by
  obtain ⟨dropped, hlength, hform⟩ := resizePlaces_append scale parts.fracPart
  have hzeros : AllZeros (List.replicate scale '0') := fun c hc => (mem_replicate.mp hc).2
  have hdigits : AllDigits (resizePlaces scale parts.fracPart ++ dropped) := by
    rw [hform]
    exact allDigits_append.mpr ⟨h, hzeros.allDigits⟩
  have hlt := (allDigits_append.mp hdigits).2.number_lt
  have hnumber : number (parts.integerPart ++ parts.fracPart) * 10 ^ scale =
      number (parts.integerPart ++ resizePlaces scale parts.fracPart) *
        10 ^ parts.fracPart.length + number dropped := by
    have hfilled := number_append (parts.integerPart ++ parts.fracPart) (List.replicate scale '0')
    rw [hzeros.number_eq, length_replicate, add_zero, append_assoc, ← hform,
      ← append_assoc, number_append, hlength] at hfilled
    exact hfilled.symm
  have hempty : ∀ back : List Char,
      number ((if parts.integerPart = [] then ['0'] else parts.integerPart) ++ back) =
        number (parts.integerPart ++ back) := by
    intro back
    split_ifs with hnil
    · rw [hnil]
      rfl
    · rfl
  rw [hlength] at hlt
  unfold DecimalParts.digits
  rw [number_stripZeros, hempty, hnumber, Nat.mul_comm _ (10 ^ _),
    Nat.mul_add_div (by positivity), Nat.div_eq_of_lt hlt, add_zero]

theorem parseDecimalToScale_spec {scale : Int} {units : { units : Int // Int64Fits units }}
    (h : parseDecimalToScale text scale = some units) :
    0 ≤ scale ∧ (units.1 : ℚ) * 10 ^ (-scale) = truncated scale ((quantity? text).getD 0) := by
  unfold parseDecimalToScale at h
  obtain ⟨hnot, h⟩ := ite_none_left_eq_some.mp h
  obtain ⟨parts, hparts, h⟩ := bind_eq_some_iff.mp h
  obtain ⟨value, hvalue, h⟩ := bind_eq_some_iff.mp h
  obtain ⟨hfits, h⟩ := dite_none_right_eq_some.mp h
  obtain rfl := Option.some.inj h
  obtain ⟨whole, fraction, tail, hrest, htail, hwhole, hfraction, hint, hfrac⟩ :=
    parts_of_foldlM rfl hparts
  rw [nil_append] at hint hfrac
  obtain ⟨sign, hsign, hquantity⟩ := quantity?_of_plain hrest hwhole hfraction htail
  have hmantissa := number_of_foldlM hvalue
  rw [zero_mul, zero_add, number_digits parts _ (by rw [hfrac]; exact hfraction), hint, hfrac]
    at hmantissa
  have hscale : 0 ≤ scale := by
    by_contra hneg
    exact hnot (.inl (not_le.mp hneg))
  refine ⟨hscale, ?_⟩
  lift scale to ℕ using hscale
  rw [hquantity, truncated_onInt_div]
  dsimp only
  rw [hsign, onInt_eq, hmantissa, Int.toNat_natCast]

end Reading

section Answers

variable {scale : Int} {units : { units : Int // Int64Fits units }}

theorem wrap64_of_large {n : Int} (hlo : 2 ^ 63 ≤ n) (hhi : n < 2 ^ 64) :
    wrap64 n = n - 2 ^ 64 := by
  unfold wrap64 Int.bmod
  norm_num at hlo hhi ⊢
  omega

theorem read_eq_truncated_iff {json : Json}
    (h : parseDecimalToScale (DexAmmRpcAdapter.jsonToString json) scale = some units) :
    (units.1 : ℚ) * 10 ^ (-scale) = truncated scale (Json.stated (some json)) ↔
      SaysTheSame scale json := by
  obtain ⟨hscale, hread⟩ := parseDecimalToScale_spec h
  have hnone : ∀ text, quantity? text = none → (units.1 : ℚ) * 10 ^ (-scale) =
      truncated scale ((quantity? text).getD 0) →
        (units.1 : ℚ) * 10 ^ (-scale) = truncated scale 0 := by
    intro text htext hread
    rwa [htext] at hread
  cases json with
  | string text => exact iff_of_true hread trivial
  | float number =>
      rw [hread]
      exact Iff.rfl
  | integer number =>
      obtain ⟨hlo, hhi⟩ := number.fits
      lift scale to ℕ using hscale
      have hwrapped := quantity?_intText (wrap64_fits number.value)
      rw [DexAmmRpcAdapter.jsonToString, Json.text, hwrapped, truncated_intCast] at hread
      rw [Json.stated, truncated_intCast, hread, SaysTheSame, Int.cast_inj]
      rcases lt_or_ge number.value (2 ^ 63) with hlt | hge
      · refine iff_of_true (wrap64_of_fits ?_) hlt
        unfold Int64Fits int64Min int64Max
        omega
      · rw [wrap64_of_large hge hhi]
        omega
  | null => exact iff_of_true (hnone [] rfl hread) trivial
  | bool b =>
      cases b with
      | false => exact iff_of_true (hnone "false".toList (by decide +kernel) hread) trivial
      | true => exact iff_of_true (hnone "true".toList (by decide +kernel) hread) trivial
  | array items => exact iff_of_true (hnone [] rfl hread) trivial
  | object members => exact iff_of_true (hnone [] rfl hread) trivial

end Answers

section Results

variable {intent : ExecutionIntent} {rep : Json} {result : VenueOrderResult}

theorem CexWsRestAdapter.answered_spec {cfg : CexWsRestAdapterConfig}
    (h : CexWsRestAdapter.answered cfg intent (.json rep) = .ok result) :
    result.status = CexWsRestAdapter.statusOf rep ∧ result.filledQty = intent.targetQty := by
  obtain ⟨orderId, -, h⟩ := bind_eq_ok h
  obtain ⟨status, hstatus, h⟩ := bind_eq_ok h
  obtain rfl := Except.ok.inj h
  obtain rfl := Json.value_eq_ok hstatus
  exact ⟨rfl, rfl⟩

theorem DexAmmRpcAdapter.answered_spec {cfg : DexAmmRpcAdapterConfig}
    (h : DexAmmRpcAdapter.answered cfg intent (.json rep) = .ok result) :
    result.status = DexAmmRpcAdapter.statusOf (DexAmmRpcAdapter.resultOf rep) ∧
      result.filledQty =
        DexAmmRpcAdapter.quantityOf (DexAmmRpcAdapter.filledIn (DexAmmRpcAdapter.resultOf rep))
          cfg.marketQtyScale intent.targetQty := by
  obtain ⟨accepted, haccepted, h⟩ := bind_eq_ok h
  obtain ⟨orderId, -, h⟩ := bind_eq_ok h
  obtain ⟨status, hstatus, h⟩ := bind_eq_ok h
  obtain ⟨filledQty, hfilled, h⟩ := bind_eq_ok h
  obtain ⟨remainingQty, -, h⟩ := bind_eq_ok h
  obtain ⟨averagePrice, -, h⟩ := bind_eq_ok h
  obtain ⟨errorCode, -, h⟩ := bind_eq_ok h
  obtain ⟨errorMessage, -, h⟩ := bind_eq_ok h
  obtain rfl := Except.ok.inj h
  obtain rfl := Json.value_eq_ok hstatus
  obtain rfl := Json.value_eq_ok hfilled
  refine ⟨?_, rfl⟩
  unfold DexAmmRpcAdapter.statusOf DexAmmRpcAdapter.acceptedIn
  rw [Json.boolValue_eq_ok haccepted]

theorem stated_filledIn (json : Json) :
    Json.stated (some (DexAmmRpcAdapter.filledIn json)) = Json.stated (json.member "filledQty") := by
  have hzero : (quantity? "0".toList).getD 0 = 0 := by decide +kernel
  unfold DexAmmRpcAdapter.filledIn
  cases json.member "filledQty" with
  | none => exact hzero
  | some filledQty => rfl

theorem quantityOf_eq_truncated_iff (scale : Int) (target : Decimal) (json : Json) :
    (DexAmmRpcAdapter.quantityOf (DexAmmRpcAdapter.filledIn json) scale target).toRat =
        truncated scale (Json.stated (json.member "filledQty")) ↔
      match parseDecimalToScale (DexAmmRpcAdapter.jsonToString (DexAmmRpcAdapter.filledIn json))
        scale with
      | some _ => SaysTheSame scale (DexAmmRpcAdapter.filledIn json)
      | none =>
          (target.units : ℚ) * 10 ^ (-scale) =
            truncated scale (Json.stated (json.member "filledQty")) := by
  rw [← stated_filledIn]
  unfold DexAmmRpcAdapter.quantityOf
  cases hread : parseDecimalToScale
      (DexAmmRpcAdapter.jsonToString (DexAmmRpcAdapter.filledIn json)) scale with
  | none => exact Iff.rfl
  | some units => exact read_eq_truncated_iff hread

end Results

/-- The result of an exchange is faithful exactly when the whole target has been filled and the
status says so, and the result of a pool exactly when the filled quantity is a plain decimal
within the target. -/
theorem order_answers_iff (field reportId venueId : String) (cex : CexWsRestAdapterConfig)
    (dex : DexAmmRpcAdapterConfig) (intent : ExecutionIntent) (rep : Json) :
    (∀ result, CexWsRestAdapter.answered cex intent (.json rep) = .ok result →
      (Faithful (Json.stated (rep.member field)) cex.marketQtyScale intent.targetQty result
          (makeExecutionReport reportId intent venueId result) ↔
        FilledInFull cex intent.targetQty field rep)) ∧
    (∀ result, DexAmmRpcAdapter.answered dex intent (.json rep) = .ok result →
      (Faithful (Json.stated ((DexAmmRpcAdapter.resultOf rep).member "filledQty"))
          dex.marketQtyScale intent.targetQty result
          (makeExecutionReport reportId intent venueId result) ↔
        PlainWithin dex intent.targetQty (DexAmmRpcAdapter.resultOf rep))) := by
  constructor
  · intro result h
    obtain ⟨hstatus, hfilled⟩ := CexWsRestAdapter.answered_spec h
    constructor
    · intro hfaithful
      refine ⟨by rw [← hfaithful.filled, hfilled], fun hnot => ?_⟩
      have hbelow := hfaithful.below (by rw [hstatus]; exact hnot)
      rw [hfilled] at hbelow
      exact lt_irrefl _ hbelow
    · intro hfull
      refine ⟨by rw [hfilled, hfull.inFull], fun hnot => ?_, by rw [hfilled], ?_, rfl, rfl⟩
      · exact absurd (by rwa [← hstatus]) hfull.status
      · rintro ⟨hrejected, -, -⟩
        refine hfull.status ?_
        rw [← hstatus, hrejected]
        simp [NotFilled]
  · intro result h
    obtain ⟨hstatus, hfilled⟩ := DexAmmRpcAdapter.answered_spec h
    have hplain := quantityOf_eq_truncated_iff dex.marketQtyScale intent.targetQty
      (DexAmmRpcAdapter.resultOf rep)
    rw [← hfilled] at hplain
    constructor
    · intro hfaithful
      refine ⟨hplain.mp hfaithful.filled, by rw [← hfaithful.filled]; exact hfaithful.atMost,
        fun hnot => ?_⟩
      rw [← hfaithful.filled]
      exact hfaithful.below (by rw [hstatus]; exact hnot)
    · intro hwithin
      have hsame := hplain.mpr hwithin.plain
      have hbelow : NotFilled result.status → result.filledQty.toRat < intent.targetQty.toRat := by
        intro hnot
        rw [hsame]
        exact hwithin.below (by rwa [← hstatus])
      refine ⟨hsame, hbelow, by rw [hsame]; exact hwithin.atMost, ?_, rfl, rfl⟩
      rintro ⟨hrejected, -, hequal⟩
      exact (hbelow (by simp [NotFilled, hrejected])).ne hequal

/-- An order for half a coin at eight places. -/
def halfIntent : ExecutionIntent :=
  { intentId := "i-1", instrument := ⟨"BTC/USDT", "BTC", "USDT"⟩, side := .buy
    targetQty := Decimal.of 50000000 8 }

/-- Both venues state that all of it has been filled. -/
def filledAnswer : Json :=
  .object
    [("status", .string "filled".toList), ("executedQty", .string "0.50".toList),
      ("filledQty", .string "0.5".toList)]

/-- An answer that states the whole quantity is reported faithfully by both. -/
theorem filled_answer_faithful :
    (∃ result, CexWsRestAdapter.answered {} halfIntent (.json filledAnswer) = .ok result ∧
      Faithful (1 / 2) 8 (Decimal.of 50000000 8) result
        (makeExecutionReport "r-1" halfIntent "binance" result)) ∧
    ∃ result, DexAmmRpcAdapter.answered {} halfIntent (.json filledAnswer) = .ok result ∧
      Faithful (1 / 2) 8 (Decimal.of 50000000 8) result
        (makeExecutionReport "r-1" halfIntent "binance" result) := by
  have hhalf : Json.stated (filledAnswer.member "executedQty") = 1 / 2 := by decide +kernel
  have hhalf' : Json.stated ((DexAmmRpcAdapter.resultOf filledAnswer).member "filledQty") = 1 / 2 := by
    decide +kernel
  obtain ⟨hcex, hdex⟩ :=
    order_answers_iff "executedQty" "r-1" "binance" {} {} halfIntent filledAnswer
  refine ⟨⟨_, rfl, ?_⟩, ⟨_, rfl, ?_⟩⟩
  · rw [← hhalf]
    refine (hcex _ rfl).mpr ⟨by decide +kernel, by decide +kernel⟩
  · rw [← hhalf']
    refine (hdex _ rfl).mpr ⟨?_, by decide +kernel, by decide +kernel⟩
    have hread : (parseDecimalToScale (DexAmmRpcAdapter.jsonToString
        (DexAmmRpcAdapter.filledIn (DexAmmRpcAdapter.resultOf filledAnswer))) 8).isSome := by
      decide +kernel
    obtain ⟨units, hunits⟩ := Option.isSome_iff_exists.mp hread
    exact hunits ▸ trivial

/-- A pool that has filled a ten-millionth. -/
def dustAnswer : Json :=
  .object
    [("result", .object
      [("status", .string "NEW".toList),
        ("filledQty", .float ⟨1 / 10000000, by decide +kernel⟩)])]

/-- An order that rests is reported as filled: by the exchange always, and by a pool when the
quantity is written with an exponent. -/
theorem resting_order_reported_filled :
    (∃ result, CexWsRestAdapter.answered {} halfIntent
        (.json (.object [("status", .string "NEW".toList),
          ("executedQty", .string "0.00000000".toList)])) = .ok result ∧
      result.status = .new ∧ result.filledQty = halfIntent.targetQty) ∧
    (∃ result, DexAmmRpcAdapter.answered {} halfIntent (.json dustAnswer) = .ok result ∧
      result.status = .new ∧ result.filledQty = halfIntent.targetQty) ∧
    ¬ ∀ (field reportId venueId : String) (cex : CexWsRestAdapterConfig)
        (dex : DexAmmRpcAdapterConfig) (intent : ExecutionIntent) (rep : Json),
      (∀ result, CexWsRestAdapter.answered cex intent (.json rep) = .ok result →
        Faithful (Json.stated (rep.member field)) cex.marketQtyScale intent.targetQty result
          (makeExecutionReport reportId intent venueId result)) ∧
      (∀ result, DexAmmRpcAdapter.answered dex intent (.json rep) = .ok result →
        Faithful (Json.stated ((DexAmmRpcAdapter.resultOf rep).member "filledQty"))
          dex.marketQtyScale intent.targetQty result
          (makeExecutionReport reportId intent venueId result)) := by
  have hdust : ∃ result, DexAmmRpcAdapter.answered {} halfIntent (.json dustAnswer) = .ok result ∧
      result.status = .new ∧ result.filledQty = halfIntent.targetQty := by
    refine ⟨_, rfl, by decide +kernel, by decide +kernel⟩
  refine ⟨⟨_, rfl, by decide +kernel, rfl⟩, hdust, fun h => ?_⟩
  obtain ⟨result, hanswer, hstatus, hfilled⟩ := hdust
  have hbelow := ((h "executedQty" "r-1" "uniswap" {} {} halfIntent dustAnswer).2 result hanswer).below
    (by simp [NotFilled, hstatus])
  rw [hfilled] at hbelow
  exact lt_irrefl _ hbelow

end Venues
end ContExchange
