import ContExchange.Common.IntegerText
import ContExchange.Lib.Table

/-!
# Common: replay commands and results on the wire

A message is a text of lines, a key, an equals sign and a value each.  A value that is a text
is escaped; a number is written as a stream writes it, a `double` with six digits.

* `parseKeyValuePayload_lines`: the table of the lines that have been written;
* `replay_command_roundtrip`: a command is read as it was sent;
* `replay_result_iff`: a result is read as it was sent exactly when six digits tell its numbers.
-/

namespace ContExchange
namespace Common

open Lib Double List Option

def escapeChar : Char → List Char
  | '\\' => ['\\', '\\']
  | '\n' => ['\\', 'n']
  | '\r' => ['\\', 'r']
  | '=' => ['\\', '=']
  | ch => [ch]

def escapeField (input : List Char) : List Char :=
  input.flatMap escapeChar

def unescapeField : List Char → List Char
  | '\\' :: '\\' :: rest => '\\' :: unescapeField rest
  | '\\' :: 'n' :: rest => '\n' :: unescapeField rest
  | '\\' :: 'r' :: rest => '\r' :: unescapeField rest
  | '\\' :: '=' :: rest => '=' :: unescapeField rest
  | ch :: rest => ch :: unescapeField rest
  | [] => []

/-- The key and the value of a line: the first `=` that is not behind a backslash parts them. -/
def splitLine (previous : Option Char) : List Char → Option (List Char × List Char)
  | [] => none
  | ch :: rest =>
      if ch = '=' ∧ previous ≠ some '\\' then some ([], rest)
      else (splitLine (some ch) rest).map fun (key, value) => (ch :: key, value)

def parseKeyValuePayload (payload : List Char) : Table String (List Char) :=
  (((payload.splitOn '\n').filter (· ≠ [])).filterMap (splitLine none)).foldl
    (fun fields line => fields.insert (String.ofList line.1) (unescapeField line.2)) ∅

/-- `AppendLine`, of a value as it is written. -/
def appendLine (line : String × List Char) : List Char :=
  line.1.toList ++ '=' :: line.2 ++ ['\n']

def digitsAt (text : List Char) : Option Nat :=
  let digits := text.takeWhile Char.isDigit
  if digits = [] then none else some (number digits)

/-- `std::from_chars` of a signed integer. -/
def fromChars : List Char → Option Int
  | '-' :: rest => (digitsAt rest).map fun n : Nat => -(n : Int)
  | text => (digitsAt text).map fun n : Nat => (n : Int)

def parseInt64 (value : List Char) : Int64 :=
  match fromChars value with
  | some n => if Int64Fits n then Int64.ofInt n else 0
  | none => 0

def parseUint32 (value : List Char) : UInt32 :=
  match digitsAt value with
  | some n => if n < 2 ^ 32 then UInt32.ofNat n else 0
  | none => 0

def parseDouble (value : List Char) : Double :=
  (stod value).getD (.num 0)

def parseBool (value : List Char) : Bool :=
  value = "1".toList ∨ value = "true".toList ∨ value = "TRUE".toList

def fieldOr {α : Type} (fields : Table String (List Char)) (key : String) (absent : α)
    (read : List Char → α) : α :=
  ((fields.lookup key).map read).getD absent

inductive ReplayCommandType where
  | start
  | cancel
  | retry
  | unknown
deriving DecidableEq

def replayCommandTypeToString : ReplayCommandType → String
  | .start => "start"
  | .cancel => "cancel"
  | .retry => "retry"
  | .unknown => "unknown"

def replayCommandTypeFromString (type : List Char) : ReplayCommandType :=
  if type = "start".toList then .start
  else if type = "cancel".toList then .cancel
  else if type = "retry".toList then .retry
  else .unknown

structure ReplayCommandMessage where
  commandId : List Char
  sessionId : List Char
  commandType : ReplayCommandType
  requestedBy : List Char
  createdAtMs : Int64
  payloadJson : List Char

def replayCommandLines (msg : ReplayCommandMessage) : List (String × List Char) :=
  [("version", intText 1),
    ("message_type", escapeField "replay_command".toList),
    ("command_id", escapeField msg.commandId),
    ("session_id", escapeField msg.sessionId),
    ("command_type", escapeField (replayCommandTypeToString msg.commandType).toList),
    ("requested_by", escapeField msg.requestedBy),
    ("created_at_ms", intText msg.createdAtMs.toInt),
    ("payload_json", escapeField msg.payloadJson)]

def serializeReplayCommandMessage (msg : ReplayCommandMessage) : List Char :=
  (replayCommandLines msg).flatMap appendLine

def parseReplayCommandMessage (payload : List Char) : Option ReplayCommandMessage :=
  let fields := parseKeyValuePayload payload
  if fields.lookup "message_type" ≠ some "replay_command".toList then none
  else
    some
      { commandId := fieldOr fields "command_id" [] id
        sessionId := fieldOr fields "session_id" [] id
        commandType := replayCommandTypeFromString (fieldOr fields "command_type" [] id)
        requestedBy := fieldOr fields "requested_by" [] id
        createdAtMs := fieldOr fields "created_at_ms" 0 parseInt64
        payloadJson := fieldOr fields "payload_json" [] id }

inductive ReplayResultKind where
  | progress
  | lifecycle
  | unknown
deriving DecidableEq

def replayResultKindToString : ReplayResultKind → String
  | .progress => "progress"
  | .lifecycle => "lifecycle"
  | .unknown => "unknown"

def replayResultKindFromString (kind : List Char) : ReplayResultKind :=
  if kind = "progress".toList then .progress
  else if kind = "lifecycle".toList then .lifecycle
  else .unknown

structure ReplayResultMessage where
  kind : ReplayResultKind := .unknown
  sessionId : List Char := []
  publishedAtMs : Int64 := 0
  batchSeq : UInt32 := 0
  totalBatches : UInt32 := 0
  status : List Char := []
  hasSummary : Bool := false
  processedBatches : UInt32 := 0
  failedBatches : UInt32 := 0
  totalFillEvents : UInt32 := 0
  isPartial : Bool := false
  totalPnl : Double := .num 0
  avgPnl : Double := .num 0
  avgIs : Double := .num 0
  sharpe : Double := .num 0
  avgFillRate : Double := .num 0
  avgSolveTimeMs : Double := .num 0
  maxDrawdown : Double := .num 0
  stdPnl : Double := .num 0
  avgVwap : Double := .num 0
  avgisRule : List Char := "volume_weighted".toList
  decisionPriceSource : List Char := "marketdata_mid_with_clearprice_fallback".toList
  noRequestedVolume : Bool := false
  errorDetails : List Char := []
  errorCode : List Char := []

def boolText (value : Bool) : List Char :=
  if value then ['1'] else ['0']

def replayResultLines (msg : ReplayResultMessage) : List (String × List Char) :=
  [("version", intText 1),
    ("message_type", escapeField "replay_result".toList),
    ("kind", escapeField (replayResultKindToString msg.kind).toList),
    ("session_id", escapeField msg.sessionId),
    ("published_at_ms", intText msg.publishedAtMs.toInt),
    ("batch_seq", digitsText msg.batchSeq.toNat),
    ("total_batches", digitsText msg.totalBatches.toNat),
    ("status", escapeField msg.status),
    ("has_summary", boolText msg.hasSummary),
    ("processed_batches", digitsText msg.processedBatches.toNat),
    ("failed_batches", digitsText msg.failedBatches.toNat),
    ("total_fill_events", digitsText msg.totalFillEvents.toNat),
    ("partial", boolText msg.isPartial),
    ("total_pnl", msg.totalPnl.generalText 6),
    ("avg_pnl", msg.avgPnl.generalText 6),
    ("avg_is", msg.avgIs.generalText 6),
    ("sharpe", msg.sharpe.generalText 6),
    ("avg_fill_rate", msg.avgFillRate.generalText 6),
    ("avg_solve_time_ms", msg.avgSolveTimeMs.generalText 6),
    ("max_drawdown", msg.maxDrawdown.generalText 6),
    ("std_pnl", msg.stdPnl.generalText 6),
    ("avg_vwap", msg.avgVwap.generalText 6),
    ("avgis_rule", escapeField msg.avgisRule),
    ("decision_price_source", escapeField msg.decisionPriceSource),
    ("no_requested_volume", boolText msg.noRequestedVolume),
    ("error_details", escapeField msg.errorDetails),
    ("error_code", escapeField msg.errorCode)]

def serializeReplayResultMessage (msg : ReplayResultMessage) : List Char :=
  (replayResultLines msg).flatMap appendLine

def parseReplayResultMessage (payload : List Char) : Option ReplayResultMessage :=
  let fields := parseKeyValuePayload payload
  if fields.lookup "message_type" ≠ some "replay_result".toList then none
  else
    some
      { kind := replayResultKindFromString (fieldOr fields "kind" [] id)
        sessionId := fieldOr fields "session_id" [] id
        publishedAtMs := fieldOr fields "published_at_ms" 0 parseInt64
        batchSeq := fieldOr fields "batch_seq" 0 parseUint32
        totalBatches := fieldOr fields "total_batches" 0 parseUint32
        status := fieldOr fields "status" [] id
        hasSummary := fieldOr fields "has_summary" false parseBool
        processedBatches := fieldOr fields "processed_batches" 0 parseUint32
        failedBatches := fieldOr fields "failed_batches" 0 parseUint32
        totalFillEvents := fieldOr fields "total_fill_events" 0 parseUint32
        isPartial := fieldOr fields "partial" false parseBool
        totalPnl := fieldOr fields "total_pnl" (.num 0) parseDouble
        avgPnl := fieldOr fields "avg_pnl" (.num 0) parseDouble
        avgIs := fieldOr fields "avg_is" (.num 0) parseDouble
        sharpe := fieldOr fields "sharpe" (.num 0) parseDouble
        avgFillRate := fieldOr fields "avg_fill_rate" (.num 0) parseDouble
        avgSolveTimeMs := fieldOr fields "avg_solve_time_ms" (.num 0) parseDouble
        maxDrawdown := fieldOr fields "max_drawdown" (.num 0) parseDouble
        stdPnl := fieldOr fields "std_pnl" (.num 0) parseDouble
        avgVwap := fieldOr fields "avg_vwap" (.num 0) parseDouble
        avgisRule := fieldOr fields "avgis_rule" "volume_weighted".toList id
        decisionPriceSource := fieldOr fields "decision_price_source"
          "marketdata_mid_with_clearprice_fallback".toList id
        noRequestedVolume := fieldOr fields "no_requested_volume" false parseBool
        errorDetails := fieldOr fields "error_details" [] id
        errorCode := fieldOr fields "error_code" [] id }

def ReplayResultMessage.numbers (msg : ReplayResultMessage) : List Double :=
  [msg.totalPnl, msg.avgPnl, msg.avgIs, msg.sharpe, msg.avgFillRate, msg.avgSolveTimeMs,
    msg.maxDrawdown, msg.stdPnl, msg.avgVwap]

/-- The number is the double that is nearest to its six digits, and `std::stod` reads these. -/
def SixDigits : Double → Prop
  | .num t => t ≠ 0 → Double.ofRat (roundedValue 6 |t|) = .num |t| ∧
      ((2 : ℚ) ^ (-1022 : Int) ≤ |t| ∨ roundedValue 6 |t| = |t|)
  | _ => False

section Lines

theorem unescapeField_escapeField (input : List Char) :
    unescapeField (escapeField input) = input := by
  induction input with
  | nil => rfl
  | cons ch rest ih =>
      rw [escapeField, flatMap_cons, ← escapeField]
      unfold escapeChar
      split
      all_goals
        simp only [cons_append, nil_append]
        rw [unescapeField, ih]
      all_goals simp_all

theorem unescapeField_of_notMem {input : List Char} (h : '\\' ∉ input) :
    unescapeField input = input := by
  induction input with
  | nil => rfl
  | cons ch rest ih =>
      rw [mem_cons, not_or] at h
      rw [unescapeField, ih h.2]
      all_goals
        rintro _ rfl
        exact absurd rfl h.1

theorem newline_notMem_escapeField (input : List Char) : '\n' ∉ escapeField input := by
  rw [escapeField, mem_flatMap]
  rintro ⟨ch, -, h⟩
  unfold escapeChar at h
  split at h
  all_goals simp at h
  exact absurd h.symm ‹_›

/-- A key that the lines are parted behind. -/
def plainKey (key : String) : Bool :=
  key.toList.all fun ch => ch ≠ '=' ∧ ch ≠ '\\' ∧ ch ≠ '\n'

theorem splitLine_append {key value : List Char} {previous : Option Char}
    (hkey : ∀ ch ∈ key, ch ≠ '=' ∧ ch ≠ '\\' ∧ ch ≠ '\n') (hprevious : previous ≠ some '\\') :
    splitLine previous (key ++ '=' :: value) = some (key, value) := by
  induction key generalizing previous with
  | nil => exact if_pos ⟨rfl, hprevious⟩
  | cons ch rest ih =>
      rw [forall_mem_cons] at hkey
      rw [cons_append, splitLine, if_neg (fun h => hkey.1.1 h.1),
        ih hkey.2 (fun h => hkey.1.2.1 (Option.some.inj h))]
      rfl

variable {lines : List (String × List Char)}

theorem plainKey_chars {key : String} (h : plainKey key) :
    ∀ ch ∈ key.toList, ch ≠ '=' ∧ ch ≠ '\\' ∧ ch ≠ '\n' := fun ch hch =>
  of_decide_eq_true (all_eq_true.mp h ch hch)

theorem splitOn_lines (hlines : ∀ line ∈ lines, plainKey line.1 ∧ '\n' ∉ line.2) :
    (lines.flatMap appendLine).splitOn '\n' =
      lines.map (fun line => line.1.toList ++ '=' :: line.2) ++ [[]] := by
  induction lines with
  | nil => rfl
  | cons line rest ih =>
      rw [forall_mem_cons] at hlines
      obtain ⟨⟨hkey, hvalue⟩, hlines⟩ := hlines
      have hno : '\n' ∉ line.1.toList ++ '=' :: line.2 := by
        rw [mem_append, mem_cons, not_or, not_or]
        exact ⟨fun h => (plainKey_chars hkey _ h).2.2 rfl, by decide, hvalue⟩
      rw [flatMap_cons, appendLine, append_assoc, singleton_append,
        splitOn_append_cons_self_of_not_mem hno, ih hlines]
      rfl

/-- What has been written in lines of plain keys is a table of the values. -/
theorem parseKeyValuePayload_lines (hlines : ∀ line ∈ lines, plainKey line.1 ∧ '\n' ∉ line.2) :
    parseKeyValuePayload (lines.flatMap appendLine) =
      lines.foldl (fun fields line => fields.insert line.1 (unescapeField line.2)) ∅ := by
  have hfilter : (lines.map (fun line : String × List Char => line.1.toList ++ '=' :: line.2) ++
      [[]]).filter (· ≠ []) = lines.map (fun line => line.1.toList ++ '=' :: line.2) := by
    rw [filter_append, filter_eq_self.mpr]
    · simp
    · intro text htext
      obtain ⟨line, -, rfl⟩ := mem_map.mp htext
      simp
  have hsplit : (lines.map (fun line => line.1.toList ++ '=' :: line.2)).filterMap
      (splitLine none) = lines.map (fun line => (line.1.toList, line.2)) := by
    rw [filterMap_map, ← filterMap_eq_map]
    refine filterMap_congr fun line hline => ?_
    exact splitLine_append (plainKey_chars (hlines line hline).1) nofun
  rw [parseKeyValuePayload, splitOn_lines hlines, hfilter, hsplit, foldl_map]
  simp only [String.ofList_toList]

theorem lookup_lines (hplain : (lines.map Prod.fst).all plainKey)
    (hvalues : ∀ line ∈ lines, '\n' ∉ line.2) (hkeys : (lines.map Prod.fst).Nodup) (key : String) :
    (parseKeyValuePayload (lines.flatMap appendLine)).lookup key =
      (lines.lookup key).map unescapeField := by
  have hfold : ∀ t : Table String (List Char), (lines.foldl (fun fields line =>
      fields.insert line.1 (unescapeField line.2)) t).lookup key =
        ((lines.lookup key).map unescapeField).or (t.lookup key) := by
    clear hplain hvalues
    induction lines with
    | nil => exact fun t => rfl
    | cons line rest ih =>
        intro t
        rw [map_cons, nodup_cons] at hkeys
        rw [foldl_cons, ih hkeys.2, lookup_cons]
        by_cases hkey : key = line.1
        · subst hkey
          have hnone : rest.lookup line.1 = none := by
            rw [lookup_eq_none_iff]
            intro e he
            have hne : line.1 ≠ e.1 := fun h => hkeys.1 (mem_map.mpr ⟨e, he, h.symm⟩)
            simpa using hne
          simp [hnone]
        · simp [beq_false_of_ne hkey, AList.lookup_insert_ne hkey]
  rw [parseKeyValuePayload_lines fun line hline =>
    ⟨all_eq_true.mp hplain _ (mem_map_of_mem hline), hvalues line hline⟩, hfold]
  exact or_none

theorem newline_notMem_intText (n : Int) : '\n' ∉ intText n :=
  notMem_intText n (by decide) (by decide)

theorem unescapeField_intText (n : Int) : unescapeField (intText n) = intText n :=
  unescapeField_of_notMem (notMem_intText n (by decide) (by decide))

theorem digitsAt_digitsText {n : Nat} (h : n < 10 ^ 19) : digitsAt (digitsText n) = some n := by
  rw [digitsAt, takeWhile_eq_self_iff.mpr (allDigits_digitsText n),
    if_neg (digitsText_ne_nil n), number_digitsText h]

theorem parseInt64_intText (n : Int64) : parseInt64 (intText n.toInt) = n := by
  have hfits : Int64Fits n.toInt := ⟨n.le_toInt, Int.le_sub_one_of_lt n.toInt_lt⟩
  have hdigits := digitsAt_digitsText (natAbs_lt_of_fits hfits)
  have hfront : fromChars (intText n.toInt) = some n.toInt := by
    rw [intText]
    split_ifs with hneg
    · rw [singleton_append, fromChars, hdigits, map_some, Option.some.injEq]
      omega
    · rw [nil_append, fromChars, hdigits, map_some, Option.some.injEq]
      · omega
      · intro rest h
        exact absurd (allDigits_digitsText _ '-' (h ▸ mem_cons_self)) (by decide)
  rw [parseInt64, hfront]
  dsimp only
  rw [if_pos hfits, Int64.ofInt_toInt]

end Lines

/-- A command is read as it was sent. -/
theorem replay_command_roundtrip (msg : ReplayCommandMessage) :
    parseReplayCommandMessage (serializeReplayCommandMessage msg) = some msg := by
  have hlookup := @lookup_lines (replayCommandLines msg)
    (by
      simp only [replayCommandLines, List.map_cons, List.map_nil]
      decide)
    (by simp [replayCommandLines, newline_notMem_escapeField, newline_notMem_intText])
    (by
      simp only [replayCommandLines, List.map_cons, List.map_nil]
      decide)
  have htype : replayCommandTypeFromString (replayCommandTypeToString msg.commandType).toList =
      msg.commandType := by cases msg.commandType <;> decide
  rw [serializeReplayCommandMessage, parseReplayCommandMessage]
  simp only [fieldOr, hlookup]
  simp [replayCommandLines, List.lookup_cons, unescapeField_escapeField, unescapeField_intText,
    parseInt64_intText, -String.toList_ofList, htype]

section Results

open Double

variable {t : ℚ}

theorem parseDouble_generalText_iff (hdouble : ofRat t = .num t) :
    parseDouble ((num t).generalText 6) = .num t ↔ SixDigits (.num t) := by
  rcases eq_or_ne t 0 with rfl | hne
  · exact iff_of_true (by decide +kernel) fun h => absurd rfl h
  have hzero : ¬ num 0 = .num t := fun h => hne (num.inj h).symm
  have hsmall : ((2 : ℚ) ^ (-1022 : Int) ≤ |t| ∨ roundedValue 6 |t| = |t|) ↔
      ¬(|t| < (2 : ℚ) ^ (-1022 : Int) ∧ t ≠ (signOf t).onRat (roundedValue 6 |t|)) := by
    rw [not_and_or, not_lt, ne_onRat_iff hne, not_ne_iff]
  rw [SixDigits, parseDouble, stod_generalText_eq (by decide) hdouble hne,
    ← ofRat_onRat_iff (t := t), forall_prop_of_true hne, hsmall]
  cases ofRat ((signOf t).onRat (roundedValue 6 |t|)) with
  | nan => simp [hzero]
  | inf negative => simp [hzero]
  | num v =>
      dsimp only
      by_cases hv : v = t
      · subst hv
        split_ifs with h
        · exact iff_of_false hzero fun hboth => hboth.2 h
        · exact iff_of_true rfl ⟨rfl, h⟩
      · split_ifs <;> simp [hzero, hv]

theorem mem_generalText {c : Char} {x : Double} {precision : Nat}
    (h : c ∈ x.generalText precision) :
    c.isDigit = true ∨ c ∈ ['.', 'e', '+', '-', 'n', 'a', 'i', 'f'] := by
  unfold generalText at h
  split at h
  · simp at h
    rcases h with rfl | rfl | rfl <;> decide
  · simp at h
    rcases h with ⟨-, rfl⟩ | rfl | rfl | rfl <;> decide
  · split_ifs at h
    · rw [mem_singleton.mp h]
      decide
    · rcases mem_append.mp h with h | h
      · rw [mem_singleton.mp h]
        decide
      · exact (mem_generalMagnitude h).imp id fun h => mem_append_left ['n', 'a', 'i', 'f'] h
    · exact (mem_generalMagnitude h).imp id fun h => mem_append_left ['n', 'a', 'i', 'f'] h

theorem newline_notMem_generalText (x : Double) : '\n' ∉ x.generalText 6 := fun h =>
  absurd (mem_generalText h) (by decide)

theorem unescapeField_generalText (x : Double) :
    unescapeField (x.generalText 6) = x.generalText 6 :=
  unescapeField_of_notMem fun h => absurd (mem_generalText h) (by decide)

theorem newline_notMem_digitsText (n : Nat) : '\n' ∉ digitsText n := fun h =>
  absurd (allDigits_digitsText n _ h) (by decide)

theorem unescapeField_digitsText (n : Nat) : unescapeField (digitsText n) = digitsText n :=
  unescapeField_of_notMem fun h => absurd (allDigits_digitsText n _ h) (by decide)

theorem newline_notMem_boolText (b : Bool) : '\n' ∉ boolText b := by
  cases b <;> decide

theorem parseBool_boolText (b : Bool) : parseBool (unescapeField (boolText b)) = b := by
  cases b <;> decide

theorem parseUint32_digitsText (n : UInt32) : parseUint32 (digitsText n.toNat) = n := by
  rw [parseUint32, digitsAt_digitsText (n.toNat_lt.trans (by norm_num))]
  dsimp only
  rw [if_pos n.toNat_lt, UInt32.ofNat_toNat]

theorem parse_serialize (msg : ReplayResultMessage) :
    parseReplayResultMessage (serializeReplayResultMessage msg) =
      some { msg with
        totalPnl := parseDouble (msg.totalPnl.generalText 6)
        avgPnl := parseDouble (msg.avgPnl.generalText 6)
        avgIs := parseDouble (msg.avgIs.generalText 6)
        sharpe := parseDouble (msg.sharpe.generalText 6)
        avgFillRate := parseDouble (msg.avgFillRate.generalText 6)
        avgSolveTimeMs := parseDouble (msg.avgSolveTimeMs.generalText 6)
        maxDrawdown := parseDouble (msg.maxDrawdown.generalText 6)
        stdPnl := parseDouble (msg.stdPnl.generalText 6)
        avgVwap := parseDouble (msg.avgVwap.generalText 6) } := by
  have hlookup := @lookup_lines (replayResultLines msg) (by
      simp only [replayResultLines, map_cons, map_nil]
      decide)
    (by simp [replayResultLines, newline_notMem_escapeField, newline_notMem_intText,
      newline_notMem_digitsText, newline_notMem_boolText, newline_notMem_generalText])
    (by
      simp only [replayResultLines, map_cons, map_nil]
      decide)
  have hkind : replayResultKindFromString (replayResultKindToString msg.kind).toList = msg.kind := by
    cases msg.kind <;> decide
  rw [serializeReplayResultMessage, parseReplayResultMessage]
  simp only [fieldOr, hlookup]
  simp [replayResultLines, lookup_cons, unescapeField_escapeField, unescapeField_intText,
    unescapeField_digitsText, unescapeField_generalText, parseInt64_intText,
    parseUint32_digitsText, parseBool_boolText, -String.toList_ofList, hkind]

end Results

/-- A result is read as it was sent exactly when six digits tell each of its numbers. -/
theorem replay_result_iff (msg : ReplayResultMessage)
    (hfinite : ∀ x ∈ msg.numbers, ∃ t, x = .num t ∧ Double.ofRat t = .num t) :
    parseReplayResultMessage (serializeReplayResultMessage msg) = some msg ↔
      ∀ x ∈ msg.numbers, SixDigits x := by
  have hread : ∀ x ∈ msg.numbers, parseDouble (x.generalText 6) = x ↔ SixDigits x := by
    intro x hx
    obtain ⟨t, rfl, hdouble⟩ := hfinite x hx
    exact parseDouble_generalText_iff hdouble
  rw [← forall₂_congr hread, parse_serialize]
  cases msg
  simp [ReplayResultMessage.numbers]

/-- Six digits are enough for a half. -/
theorem replay_result_half :
    parseReplayResultMessage (serializeReplayResultMessage { totalPnl := .num (1 / 2) }) =
      some { totalPnl := .num (1 / 2) } := by
  refine (replay_result_iff { totalPnl := .num (1 / 2) } ?_).mpr ?_
  · simp only [ReplayResultMessage.numbers, List.forall_mem_cons]
    refine ⟨⟨_, rfl, by decide +kernel⟩, ?_⟩
    simp
    decide +kernel
  · simp [ReplayResultMessage.numbers, SixDigits]
    decide +kernel

/-- The last digit of seven is lost. -/
theorem replay_result_of_seven_digits : Double.ofRat 1234567 = .num 1234567 ∧
    parseReplayResultMessage (serializeReplayResultMessage { totalPnl := .num 1234567 }) ≠
      some { totalPnl := .num 1234567 } := by
  refine ⟨by decide +kernel, fun h => ?_⟩
  rw [parse_serialize, Option.some.injEq] at h
  exact absurd (congrArg ReplayResultMessage.totalPnl h) (by decide +kernel)

end Common
end ContExchange
