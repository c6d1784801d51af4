import ContExchange.Backtest.DepthText
import ContExchange.Common.IntegerText

/-!
# Backtest: the configuration snapshot of a session

`SerializeSnapshot` writes the configuration as a JSON text, and the determinism check takes
three numbers out of it again: it looks for the first place where the name of the number
stands in quotes, and reads behind the next colon.  A quote inside a string is escaped, but
its end is a quote: a string that is the name, or that ends with a quote and the name, is
found in its place.

* `findAfter_piece`, `findAfter_string`: how the search passes what stands between two quotes,
  and a string;
* `valueText_serialize`: what is found for a name;
* `recovered_iff`: when the three numbers are the ones that were written.
-/

namespace ContExchange
namespace Backtest
namespace ConfigSnapshot

open Common Double List Option

structure ReplayConfigSection where
  id : List Char
  version : Nat := 0
  bodyJson : List Char
  inlineOverride : Bool := false

structure SessionConfigSnapshot where
  solverConfig : ReplayConfigSection
  riskLimits : ReplayConfigSection
  feeModel : ReplayConfigSection
  rewardConfig : ReplayConfigSection
  randomSeed : Int := 0
  tolerance : Double := .zero
  avgisRule : List Char := "volume_weighted".toList
  decisionPriceSource : List Char := "marketdata_mid_with_clearprice_fallback".toList

/-- A character of `JsonEscape`. -/
def escapeChar (c : Char) : List Char :=
  if c = '"' then ['\\', '"']
  else if c = '\\' then ['\\', '\\']
  else if c = '\x08' then ['\\', 'b']
  else if c = '\x0c' then ['\\', 'f']
  else if c = '\n' then ['\\', 'n']
  else if c = '\r' then ['\\', 'r']
  else if c = '\t' then ['\\', 't']
  else if c.toNat < 0x20 then
    ['\\', 'u', '0', '0', Nat.digitChar (c.toNat / 16), Nat.digitChar (c.toNat % 16)]
  else [c]

def jsonEscape (input : List Char) : List Char :=
  input.flatMap escapeChar

def formatTolerance (tolerance : Double) : List Char :=
  tolerance.generalText 17

/-- A name in quotes and its value, up to the end of the text. -/
def member (name : String) (value : List Char) : List Char :=
  '"' :: (name.toList ++ '"' :: ':' :: value)

/-- A string in quotes, and the rest of the text. -/
def quotedString (s rest : List Char) : List Char :=
  '"' :: (jsonEscape s ++ '"' :: rest)

/-- `WriteSection`, and the rest of the text. -/
def writeSection (key : String) (sec : ReplayConfigSection) (rest : List Char) : List Char :=
  member key ('{' :: member "id" (quotedString sec.id (',' ::
    member "version" (intText sec.version ++ ',' ::
      member "inline_override" ((if sec.inlineOverride then "true" else "false").toList ++ ',' ::
        member "body_json" (quotedString sec.bodyJson ('}' :: rest)))))))

def serializeSnapshot (snap : SessionConfigSnapshot) : List Char :=
  '{' :: member "snapshot_version" ('1' :: ',' ::
    writeSection "solver_config" snap.solverConfig (',' ::
      writeSection "risk_limits" snap.riskLimits (',' ::
        writeSection "fee_model" snap.feeModel (',' ::
          writeSection "reward_config" snap.rewardConfig (',' ::
            member "random_seed" (intText snap.randomSeed ++ ',' ::
              member "tolerance" (formatTolerance snap.tolerance ++ ',' ::
                member "avgis_rule" (quotedString snap.avgisRule (',' ::
                  member "decision_price_source"
                    (quotedString snap.decisionPriceSource ['}']))))))))))

/-- `std::string::find`: what stands behind the first place of a text. -/
def findAfter (needle : List Char) : List Char → Option (List Char)
  | [] => none
  | c :: rest =>
      if needle <+: c :: rest then some ((c :: rest).drop needle.length) else findAfter needle rest

def quoted (name : List Char) : List Char :=
  '"' :: (name ++ ['"'])

/-- The text behind the next colon and its spaces, up to a comma or a brace. -/
def tokenAfter (text : List Char) : Option (List Char) :=
  (cut ':' text).map fun (_, rest) =>
    (rest.dropWhile isAsciiSpace).takeWhile (fun c => decide (c ≠ ',' ∧ c ≠ '}'))

/-- The text that is read as the value of a name. -/
def valueText (json : List Char) (key : String) : Option (List Char) :=
  (findAfter (quoted key.toList) json).bind tokenAfter

def extractJsonInt (json : List Char) (key : String) : Option Int :=
  (valueText json key).bind stoll

/-- `std::stod` with the names of what is not finite. -/
def stodNamed (text : List Char) : Option Double :=
  let (neg, body) := splitSign (text.dropWhile isAsciiSpace)
  let name := (body.take 3).map Char.toLower
  if name = "inf".toList then some (.inf neg)
  else if name = "nan".toList then some .nan
  else stod text

def extractJsonDouble (json : List Char) (key : String) : Option Double :=
  (valueText json key).bind stodNamed

section Search

variable {key q s rest : List Char} {c : Char}

theorem findAfter_skip (needle : List Char) (hq : '"' ∉ q) (rest : List Char) :
    findAfter ('"' :: needle) (q ++ rest) = findAfter ('"' :: needle) rest := by
  induction q with
  | nil => rfl
  | cons c q ih =>
      rw [mem_cons, not_or] at hq
      rw [cons_append, findAfter, if_neg, ih hq.2]
      exact fun h => hq.1 (cons_prefix_cons.mp h).1

theorem findAfter_piece (hkey : '"' ∉ key) (hq : '"' ∉ q) (rest : List Char) :
    findAfter (quoted key) ('"' :: (q ++ '"' :: rest)) =
      if q = key then some rest else findAfter (quoted key) ('"' :: rest) := by
  have hstarts : quoted key <+: '"' :: (q ++ '"' :: rest) ↔ q = key := by
    unfold quoted
    rw [cons_prefix_cons, and_iff_right rfl]
    constructor
    · rintro ⟨tail, htail⟩
      have hcut := cut_append hq rest
      rw [← htail, append_assoc, singleton_append, cut_append hkey, Option.some.injEq,
        Prod.mk.injEq] at hcut
      exact hcut.1.symm
    · rintro rfl
      exact ⟨rest, by rw [append_assoc, singleton_append]⟩
  rw [findAfter]
  split_ifs with h hname hname
  · rw [hname]
    unfold quoted
    rw [length_cons, length_append, drop_succ_cons, ← drop_drop, drop_left]
    rfl
  · exact absurd (hstarts.mp h) hname
  · exact absurd (hstarts.mpr hname) h
  · exact findAfter_skip _ hq _

theorem quote_notMem_escapeChar (hc : c ≠ '"') : '"' ∉ escapeChar c := by
  have hhex : ∀ n < 32, '"' ≠ Nat.digitChar (n / 16) ∧ '"' ≠ Nat.digitChar (n % 16) := by decide
  unfold escapeChar
  split_ifs with h₁ h₂ h₃ h₄ h₅ h₆ h₇ h₈
  · exact absurd h₁ hc
  all_goals first | decide | skip
  · obtain ⟨hhigh, hlow⟩ := hhex c.toNat h₈
    simp [hhigh, hlow]
  · exact fun h => hc (mem_singleton.mp h).symm

theorem escapeChar_eq_or (c : Char) : escapeChar c = [c] ∨ '\\' ∈ escapeChar c := by
  unfold escapeChar
  split_ifs
  all_goals first | exact .inr mem_cons_self | exact .inl rfl

theorem quote_notMem_jsonEscape (hs : '"' ∉ s) : '"' ∉ jsonEscape s := by
  intro h
  obtain ⟨c, hc, hmem⟩ := mem_flatMap.mp h
  exact quote_notMem_escapeChar (fun heq => hs (heq ▸ hc)) hmem

theorem jsonEscape_eq_self (h : '\\' ∉ jsonEscape s) : jsonEscape s = s := by
  induction s with
  | nil => rfl
  | cons c s ih =>
      unfold jsonEscape at h ih ⊢
      rw [flatMap_cons, mem_append, not_or] at h
      rw [flatMap_cons, ih h.2, (escapeChar_eq_or c).resolve_right h.1]
      rfl

/-- What stands behind the last quote of a text. -/
def lastPiece (s : List Char) : List Char :=
  s.rtakeWhile (fun c => decide (c ≠ '"'))

theorem lastPiece_eq_self (h : '"' ∉ s) : lastPiece s = s :=
  rtakeWhile_eq_self_iff.mpr fun _ hc => decide_eq_true fun heq => h (heq ▸ hc)

theorem lastPiece_quote (front : List Char) : lastPiece (front ++ '"' :: s) = lastPiece s := by
  have hstop : ∀ back : List Char, (back ++ '"' :: front.reverse).takeWhile
      (fun c => decide (c ≠ '"')) = back.takeWhile (fun c => decide (c ≠ '"')) := by
    intro back
    induction back with
    | nil => rfl
    | cons c back ih => rw [cons_append, takeWhile_cons, takeWhile_cons, ih]
  unfold lastPiece List.rtakeWhile
  rw [reverse_append, reverse_cons, append_assoc, singleton_append, hstop]

structure PlainName (key : List Char) : Prop where
  quote : '"' ∉ key
  backslash : '\\' ∉ key
  escape : jsonEscape key = key

theorem findAfter_string (hkey : PlainName key) (s rest : List Char) :
    findAfter (quoted key) (quotedString s rest) =
      if lastPiece s = key then some rest else findAfter (quoted key) ('"' :: rest) := by
  -- `front` is the part of the piece that was passed
  have hfront : ∀ s front : List Char, '"' ∉ front →
      findAfter (quoted key) ('"' :: (jsonEscape (front ++ s) ++ '"' :: rest)) =
        if lastPiece (front ++ s) = key then some rest
        else findAfter (quoted key) ('"' :: rest) := by
    intro s
    induction s with
    | nil =>
        intro front hquote
        have hname : jsonEscape front = key ↔ front = key := by
          refine ⟨fun h => ?_, fun h => by rw [h, hkey.escape]⟩
          rw [← h, jsonEscape_eq_self (h ▸ hkey.backslash)]
        rw [append_nil, findAfter_piece hkey.quote (quote_notMem_jsonEscape hquote),
          lastPiece_eq_self hquote]
        simp only [hname]
    | cons c s ih =>
        intro front hquote
        by_cases hc : c = '"'
        · subst hc
          have hsplit : jsonEscape (front ++ '"' :: s) ++ '"' :: rest =
              (jsonEscape front ++ ['\\']) ++ '"' :: (jsonEscape ([] ++ s) ++ '"' :: rest) := by
            simp [jsonEscape, escapeChar]
          have hpiece : '"' ∉ jsonEscape front ++ ['\\'] := by
            simpa using quote_notMem_jsonEscape hquote
          have hne : jsonEscape front ++ ['\\'] ≠ key :=
            fun h => hkey.backslash (h ▸ mem_append_right _ (mem_singleton_self _))
          rw [hsplit, findAfter_piece hkey.quote hpiece, if_neg hne, ih [] not_mem_nil,
            lastPiece_quote, nil_append]
        · have hnext := ih (front ++ [c]) (by
            rw [mem_append, mem_singleton, not_or]
            exact ⟨hquote, Ne.symm hc⟩)
          rwa [append_assoc, singleton_append] at hnext
  exact hfront s [] not_mem_nil

end Search

section Found

variable {key q front t rest : List Char} {name : String} {later : Option Found}

/-- What is read in place of a number: the version of a section, an object, or the seed. -/
inductive Found where
  | version (n : Nat)
  | object
  | seed

/-- What a section has in the place of a number, where `behind` follows the section. -/
def ReplayConfigSection.found (key : List Char) (sec : ReplayConfigSection) (behind : Found) :
    Option Found :=
  if lastPiece sec.id = key then some (.version sec.version)
  else if lastPiece sec.bodyJson = key then some behind
  else none

/-- What the sections have in the place of a number. -/
def SessionConfigSnapshot.found (snap : SessionConfigSnapshot) (key : String) : Option Found :=
  (snap.solverConfig.found key.toList .object).or
    ((snap.riskLimits.found key.toList .object).or
      ((snap.feeModel.found key.toList .object).or (snap.rewardConfig.found key.toList .seed)))

/-- The text that is read, where `own` is the one of the number. -/
def Reads (seed : Int) (own : List Char) : Option Found → List Char → Prop
  | none, t => t = own
  | some (.version n), t => t = intText n
  | some .seed, t => t = intText seed
  | some .object, t => t.head? = some '{'

/-- The names in front of the numbers. -/
def memberNames : List String :=
  ["snapshot_version", "solver_config", "risk_limits", "fee_model", "reward_config", "id",
    "version", "inline_override", "body_json"]

/-- The name of a number: no other name and no character between the names is in it. -/
structure NumberName (key : List Char) : Prop extends PlainName key where
  colon : ':' ∉ key
  comma : ',' ∉ key
  names : ∀ name ∈ memberNames, name.toList ≠ key

theorem numberName_randomSeed : NumberName "random_seed".toList where
  quote := by decide
  backslash := by decide
  escape := by decide
  colon := by decide
  comma := by decide
  names := by decide

theorem numberName_tolerance : NumberName "tolerance".toList where
  quote := by decide
  backslash := by decide
  escape := by decide
  colon := by decide
  comma := by decide
  names := by decide

theorem findAfter_between (hkey : NumberName key) (hq : '"' ∉ q) (h : ':' ∈ q ∨ ',' ∈ q)
    (rest : List Char) :
    findAfter (quoted key) ('"' :: (q ++ '"' :: rest)) = findAfter (quoted key) ('"' :: rest) := by
  rw [findAfter_piece hkey.quote hq, if_neg]
  rintro rfl
  exact h.elim hkey.colon hkey.comma

theorem findAfter_member (hkey : NumberName key) (hname : name ∈ memberNames) (hq : '"' ∉ q)
    (rest : List Char) :
    findAfter (quoted key) (member name (q ++ '"' :: rest)) =
      findAfter (quoted key) ('"' :: rest) := by
  have hquote : ∀ name ∈ memberNames, '"' ∉ name.toList := by decide
  unfold member
  rw [findAfter_piece hkey.quote (hquote name hname), if_neg (hkey.names name hname)]
  exact findAfter_between hkey (q := ':' :: q) (by simpa using hq) (.inl mem_cons_self) rest

theorem quote_notMem_intText (n : Int) : '"' ∉ intText n :=
  notMem_intText n (by decide) (by decide)

theorem findAfter_writeSection (hkey : NumberName key) (hname : name ∈ memberNames)
    (sec : ReplayConfigSection) (rest : List Char) :
    ∃ back, findAfter (quoted key) (writeSection name sec (',' :: '"' :: rest)) =
      if lastPiece sec.id = key then
        some (',' :: member "version" (intText sec.version ++ ',' :: back))
      else if lastPiece sec.bodyJson = key then some ('}' :: ',' :: '"' :: rest)
      else findAfter (quoted key) ('"' :: rest) := by
  have hbool : '"' ∉ (if sec.inlineOverride then "true" else "false").toList ++ [','] := by
    split_ifs <;> decide
  have hversion : '"' ∉ intText sec.version ++ [','] := by
    simpa using quote_notMem_intText sec.version
  have hsplit : ∀ front back : List Char, front ++ ',' :: back = (front ++ [',']) ++ back :=
    fun _ _ => (append_assoc _ [','] _).symm
  refine ⟨member "inline_override" ((if sec.inlineOverride then "true" else "false").toList ++
    ',' :: member "body_json" (quotedString sec.bodyJson ('}' :: ',' :: '"' :: rest))), ?_⟩
  unfold writeSection
  change findAfter _ (member name (['{'] ++ '"' :: _)) = _
  rw [findAfter_member hkey hname (by decide)]
  change findAfter _ (member "id" ([] ++ '"' :: _)) = _
  rw [findAfter_member hkey (by decide) not_mem_nil]
  change findAfter _ (quotedString sec.id _) = _
  rw [findAfter_string hkey.toPlainName]
  congr 1
  change findAfter _ ('"' :: ([','] ++ '"' :: _)) = _
  rw [findAfter_between hkey (by decide) (.inr (by decide))]
  change findAfter _ (member "version" (intText sec.version ++ ',' :: '"' :: _)) = _
  rw [hsplit, findAfter_member hkey (by decide) hversion]
  change findAfter _ (member "inline_override" (_ ++ ',' :: '"' :: _)) = _
  rw [hsplit, findAfter_member hkey (by decide) hbool]
  change findAfter _ (member "body_json" ([] ++ '"' :: _)) = _
  rw [findAfter_member hkey (by decide) not_mem_nil]
  change findAfter _ (quotedString sec.bodyJson _) = _
  rw [findAfter_string hkey.toPlainName]
  congr 1
  change findAfter _ ('"' :: (['}', ','] ++ '"' :: rest)) = _
  exact findAfter_between hkey (by decide) (.inr (by decide)) rest

theorem tokenAfter_eq (hfront : ':' ∉ front)
    (ht : ∀ c ∈ t, isAsciiSpace c = false ∧ c ≠ ',' ∧ c ≠ '}') (rest : List Char) :
    tokenAfter (front ++ ':' :: (t ++ ',' :: rest)) = some t := by
  have hspace : (t ++ ',' :: rest).dropWhile isAsciiSpace = t ++ ',' :: rest := by
    cases t with
    | nil => rfl
    | cons c t =>
        rw [cons_append, dropWhile_cons, (ht c mem_cons_self).1]
        rfl
  unfold tokenAfter
  rw [cut_append hfront, map_some]
  dsimp only
  rw [hspace, takeWhile_append_of_pos fun c hc => decide_eq_true (ht c hc).2]
  simp

theorem token_intText (n : Int) :
    ∀ c ∈ intText n, isAsciiSpace c = false ∧ c ≠ ',' ∧ c ≠ '}' := by
  intro c hc
  refine ⟨isAsciiSpace_of_mem_intText hc, ?_, ?_⟩
  · rintro rfl
    exact notMem_intText n (by decide) (by decide) hc
  · rintro rfl
    exact notMem_intText n (by decide) (by decide) hc

theorem tokenAfter_brace (hfront : ':' ∉ front) (rest : List Char) :
    ∃ t, tokenAfter (front ++ ':' :: '{' :: rest) = some ('{' :: t) := by
  refine ⟨rest.takeWhile (fun c => decide (c ≠ ',' ∧ c ≠ '}')), ?_⟩
  unfold tokenAfter
  rw [cut_append hfront, map_some]
  rfl

theorem reads_writeSection (hkey : NumberName key) (hname : name ∈ memberNames)
    (sec : ReplayConfigSection) {seed : Int} {own : List Char} {behind : Found}
    (hbehind : ∃ t, tokenAfter ('}' :: ',' :: '"' :: rest) = some t ∧
      Reads seed own (some behind) t)
    (hrest : ∃ t, (findAfter (quoted key) ('"' :: rest)).bind tokenAfter = some t ∧
      Reads seed own later t) :
    ∃ t, (findAfter (quoted key) (writeSection name sec (',' :: '"' :: rest))).bind tokenAfter =
        some t ∧ Reads seed own ((sec.found key behind).or later) t := by
  obtain ⟨back, hfind⟩ := findAfter_writeSection hkey hname sec rest
  rw [hfind]
  unfold ReplayConfigSection.found
  split_ifs
  · refine ⟨intText sec.version, ?_, rfl⟩
    exact @tokenAfter_eq ",\"version\"".toList _ (by decide) (token_intText _) back
  · exact hbehind
  · exact hrest

section Sections

variable {seed : Int} {own : List Char} {later : Option Found}

theorem append_quote (front name back : List Char) :
    front ++ (name ++ '"' :: back) = (front ++ (name ++ ['"'])) ++ back := by
  simp

theorem reads_section_section (hkey : NumberName key) (name next : String)
    (hname : name ∈ memberNames) (hnext : ':' ∉ next.toList) (sec sec' : ReplayConfigSection)
    (hrest : ∃ t, (findAfter (quoted key) (writeSection next sec' rest)).bind tokenAfter = some t ∧
      Reads seed own later t) :
    ∃ t, (findAfter (quoted key) (writeSection name sec (',' :: writeSection next sec' rest))).bind
        tokenAfter = some t ∧ Reads seed own ((sec.found key .object).or later) t := by
  obtain ⟨tail, htail⟩ : ∃ tail, writeSection next sec' rest =
      '"' :: (next.toList ++ '"' :: ':' :: '{' :: tail) := ⟨_, rfl⟩
  rw [htail] at hrest ⊢
  refine reads_writeSection hkey hname sec ?_ hrest
  obtain ⟨t, ht⟩ := @tokenAfter_brace (['}', ',', '"'] ++ (next.toList ++ ['"']))
    (by simpa using hnext) tail
  rw [← append_quote] at ht
  exact ⟨_, ht, rfl⟩

theorem reads_section_seed (hkey : NumberName key) (name next : String)
    (hname : name ∈ memberNames) (hnext : ':' ∉ next.toList) (sec : ReplayConfigSection)
    (hrest : (findAfter (quoted key) (member next (intText seed ++ ',' :: rest))).bind tokenAfter =
      some own) :
    ∃ t, (findAfter (quoted key)
        (writeSection name sec (',' :: member next (intText seed ++ ',' :: rest)))).bind
        tokenAfter = some t ∧ Reads seed own (sec.found key .seed) t := by
  rw [← or_none (o := sec.found key .seed)]
  refine reads_writeSection hkey hname sec ?_ ⟨own, hrest, rfl⟩
  have ht := @tokenAfter_eq (['}', ',', '"'] ++ (next.toList ++ ['"'])) (intText seed)
    (by simpa using hnext) (token_intText seed) rest
  rw [← append_quote] at ht
  exact ⟨_, ht, rfl⟩

end Sections

/-- The numbers behind the sections. -/
def numbersText (snap : SessionConfigSnapshot) : List Char :=
  intText snap.randomSeed ++ ',' ::
    member "tolerance" (formatTolerance snap.tolerance ++ ',' ::
      member "avgis_rule" (quotedString snap.avgisRule (',' ::
        member "decision_price_source" (quotedString snap.decisionPriceSource ['}']))))

theorem valueText_serialize (snap : SessionConfigSnapshot) {key : String} {own : List Char}
    (hkey : NumberName key.toList)
    (hown : (findAfter (quoted key.toList) (member "random_seed" (numbersText snap))).bind
      tokenAfter = some own) :
    ∃ t, valueText (serializeSnapshot snap) key = some t ∧
      Reads snap.randomSeed own (snap.found key) t := by
  have hchain := reads_section_section hkey "solver_config" "risk_limits" (by decide) (by decide)
    snap.solverConfig snap.riskLimits
    (reads_section_section hkey "risk_limits" "fee_model" (by decide) (by decide)
      snap.riskLimits snap.feeModel
      (reads_section_section hkey "fee_model" "reward_config" (by decide) (by decide)
        snap.feeModel snap.rewardConfig
        (reads_section_seed hkey "reward_config" "random_seed" (by decide) (by decide)
          snap.rewardConfig hown)))
  have hstart : ∀ rest : List Char, findAfter (quoted key.toList)
      ('{' :: member "snapshot_version"
        ('1' :: ',' :: writeSection "solver_config" snap.solverConfig rest)) =
        findAfter (quoted key.toList) (writeSection "solver_config" snap.solverConfig rest) := by
    intro rest
    obtain ⟨tail, htail⟩ : ∃ tail, writeSection "solver_config" snap.solverConfig rest =
      '"' :: tail := ⟨_, rfl⟩
    rw [htail]
    exact (findAfter_skip (key.toList ++ ['"']) (q := ['{']) (by decide)
      (member "snapshot_version" ('1' :: ',' :: '"' :: tail))).trans
      (findAfter_member hkey (q := ['1', ',']) (by decide) (by decide) tail)
  unfold valueText serializeSnapshot
  rw [hstart]
  exact hchain

end Found

section Numbers

variable {snap : SessionConfigSnapshot} {t text : List Char}

/-- A double that `std::stod` reads from seventeen digits. -/
def Readable : Double → Prop
  | .num t => ¬(t ≠ 0 ∧ |t| < (2 : ℚ) ^ (-1022 : Int) ∧ roundedValue 17 |t| ≠ |t|)
  | _ => True

/-- The seed is read, or what is read instead is equal to it. -/
def SeedRight (snap : SessionConfigSnapshot) : Option Found → Prop
  | none | some .seed => True
  | some (.version n) => (n : Int) = snap.randomSeed
  | some .object => False

/-- The tolerance is read, or what is read instead is equal to it. -/
def ToleranceRight (snap : SessionConfigSnapshot) : Option Found → Prop
  | none => Readable snap.tolerance
  | some .seed => Double.ofRat snap.randomSeed = snap.tolerance
  | some (.version n) => Double.ofRat n = snap.tolerance
  | some .object => False

/-- The numbers of a snapshot are ones of their types. -/
structure SessionConfigSnapshot.Fits (snap : SessionConfigSnapshot) : Prop where
  randomSeed : Int64Fits snap.randomSeed
  tolerance : snap.tolerance.Rounded
  versions : ∀ sec ∈ [snap.solverConfig, snap.riskLimits, snap.feeModel, snap.rewardConfig],
    sec.version < 2 ^ 32

/-- The three numbers of the text are the ones that were written. -/
def Recovered (snap : SessionConfigSnapshot) : Prop :=
  extractJsonInt (serializeSnapshot snap) "snapshot_version" = some 1 ∧
    extractJsonInt (serializeSnapshot snap) "random_seed" = some snap.randomSeed ∧
    extractJsonDouble (serializeSnapshot snap) "tolerance" = some snap.tolerance

theorem stoll_brace (h : t.head? = some '{') : stoll t = none := by
  obtain ⟨t, rfl⟩ := head?_eq_some_iff.mp h
  rfl

theorem stodNamed_brace (h : t.head? = some '{') : stodNamed t = none := by
  obtain ⟨t, rfl⟩ := head?_eq_some_iff.mp h
  rfl

theorem stodNamed_eq (h : ∀ c ∈ text, c.toLower ≠ 'n') : stodNamed text = stod text := by
  have hname : ∀ name : List Char, 'n' ∈ name →
      ((splitSign (text.dropWhile isAsciiSpace)).2.take 3).map Char.toLower ≠ name := by
    intro name hn heq
    rw [← heq] at hn
    obtain ⟨c, hc, hlower⟩ := mem_map.mp hn
    obtain ⟨sign, hsplit, -⟩ := splitSign_cases (text.dropWhile isAsciiSpace)
    refine h c ?_ hlower
    refine (dropWhile_sublist isAsciiSpace).subset ?_
    rw [hsplit]
    exact mem_append_right _ (mem_of_mem_take hc)
  unfold stodNamed
  dsimp only
  rw [if_neg (hname _ (by decide)), if_neg (hname _ (by decide))]

theorem toLower_ne_of_isDigit {c : Char} (h : c.isDigit = true) : c.toLower ≠ 'n' := by
  have hbounds : 48 ≤ c.val.toNat ∧ c.val.toNat ≤ 57 := by
    simpa [Char.isDigit, UInt32.le_iff_toNat_le] using h
  intro heq
  unfold Char.toLower at heq
  split at heq
  · rename_i hupper
    have hletter : 65 ≤ c.val.toNat := by simpa [UInt32.le_iff_toNat_le] using hupper.1
    omega
  · rw [heq] at h
    exact absurd h (by decide)

/-- A character of a number. -/
def Numeric (c : Char) : Prop :=
  c.isDigit = true ∨ c ∈ ['.', 'e', '+', '-']

theorem Numeric.spec {c : Char} (h : Numeric c) :
    c.toLower ≠ 'n' ∧ isAsciiSpace c = false ∧ c ≠ ',' ∧ c ≠ '}' := by
  rcases h with h | h
  · refine ⟨toLower_ne_of_isDigit h, isAsciiSpace_eq_false (.inr (.inr h)), ?_, ?_⟩
    · rintro rfl
      exact absurd h (by decide)
    · rintro rfl
      exact absurd h (by decide)
  · simp only [mem_cons, not_mem_nil, or_false] at h
    rcases h with rfl | rfl | rfl | rfl <;> decide

theorem numeric_intText (n : Int) : ∀ c ∈ intText n, Numeric c := by
  intro c hc
  rcases mem_append.mp hc with hc | hc
  · split at hc
    · exact .inr (by simp [mem_singleton.mp hc])
    · exact absurd hc not_mem_nil
  · exact .inl (allDigits_digitsText _ c hc)

theorem numeric_formatTolerance (q : ℚ) : ∀ c ∈ formatTolerance (.num q), Numeric c := by
  intro c hc
  unfold formatTolerance generalText at hc
  dsimp only at hc
  split at hc
  · exact .inl (by rw [mem_singleton.mp hc]; decide)
  · rcases mem_append.mp hc with hc | hc
    · split at hc
      · exact .inr (by simp [mem_singleton.mp hc])
      · exact absurd hc not_mem_nil
    · exact mem_generalMagnitude hc

theorem token_of_all {cs : List Char}
    (h : cs.all fun c => decide (isAsciiSpace c = false ∧ c ≠ ',' ∧ c ≠ '}')) :
    ∀ c ∈ cs, isAsciiSpace c = false ∧ c ≠ ',' ∧ c ≠ '}' :=
  fun c hc => of_decide_eq_true (all_eq_true.mp h c hc)

theorem token_formatTolerance (tolerance : Double) :
    ∀ c ∈ formatTolerance tolerance, isAsciiSpace c = false ∧ c ≠ ',' ∧ c ≠ '}' := by
  cases tolerance with
  | nan => exact token_of_all (by decide)
  | inf negative => cases negative <;> exact token_of_all (by decide)
  | num q => exact fun c hc => (numeric_formatTolerance q c hc).spec.2

theorem stodNamed_formatTolerance {tolerance : Double} (h : tolerance.Rounded) :
    stodNamed (formatTolerance tolerance) = some tolerance ↔ Readable tolerance := by
  cases tolerance with
  | nan => exact iff_of_true (by decide) trivial
  | inf negative => exact iff_of_true (by cases negative <;> decide) trivial
  | num q =>
      rw [stodNamed_eq fun c hc => (numeric_formatTolerance q c hc).spec.1]
      unfold formatTolerance Readable
      rw [stod_generalText le_rfl (h q rfl)]
      split_ifs with htiny
      · exact iff_of_false (by simp) (not_not.mpr htiny)
      · exact iff_of_true rfl htiny

theorem stodNamed_intText {n : Int} (h : Int64Fits n) :
    stodNamed (intText n) = some (ofRat n) := by
  rw [stodNamed_eq fun c hc => (numeric_intText n c hc).spec.1, stod_intText h]

theorem extract_version (snap : SessionConfigSnapshot) :
    extractJsonInt (serializeSnapshot snap) "snapshot_version" = some 1 := by
  have hvalue : ∀ rest, valueText ('{' :: member "snapshot_version" ('1' :: ',' :: rest))
      "snapshot_version" = some ['1'] := by
    intro rest
    have hpiece := @findAfter_piece "snapshot_version".toList "snapshot_version".toList
      (by decide) (by decide) (':' :: '1' :: ',' :: rest)
    rw [if_pos rfl] at hpiece
    have hfind := (findAfter_skip ("snapshot_version".toList ++ ['"']) (q := ['{']) (by decide)
      (member "snapshot_version" ('1' :: ',' :: rest))).trans hpiece
    unfold valueText
    exact (congrArg (Option.bind · tokenAfter) hfind).trans
      (@tokenAfter_eq [] ['1'] (by decide) (token_of_all (by decide)) rest)
  unfold extractJsonInt serializeSnapshot
  rw [hvalue]
  rfl

theorem version_lt (h : snap.Fits) {key : String} {n : Nat}
    (hfound : snap.found key = some (.version n)) : n < 2 ^ 32 := by
  have hsection : ∀ {sec : ReplayConfigSection} {behind : Found},
      sec.found key.toList behind = some (.version n) → behind = .version n ∨ sec.version = n := by
    intro sec behind hsec
    unfold ReplayConfigSection.found at hsec
    split_ifs at hsec
    · cases hsec
      exact .inr rfl
    · exact .inl (Option.some.inj hsec)
  have hversions := h.versions
  simp only [forall_mem_cons, not_mem_nil, false_imp_iff, implies_true, and_true] at hversions
  obtain ⟨hsolver, hrisk, hfee, hreward⟩ := hversions
  simp only [SessionConfigSnapshot.found, or_eq_some_iff] at hfound
  rcases hfound with hsec | ⟨-, hsec | ⟨-, hsec | ⟨-, hsec⟩⟩⟩
  all_goals
    rcases hsection hsec with hbehind | rfl
    · cases hbehind
    · assumption

theorem extract_seed_iff (h : snap.Fits) :
    extractJsonInt (serializeSnapshot snap) "random_seed" = some snap.randomSeed ↔
      SeedRight snap (snap.found "random_seed") := by
  have hown : (findAfter (quoted "random_seed".toList)
      (member "random_seed" (numbersText snap))).bind tokenAfter =
        some (intText snap.randomSeed) := by
    unfold member
    rw [findAfter_piece (by decide) (by decide), if_pos rfl, bind_some]
    exact @tokenAfter_eq [] _ (by decide) (token_intText _) _
  obtain ⟨t, ht, hreads⟩ := valueText_serialize snap numberName_randomSeed hown
  unfold extractJsonInt
  rw [ht, bind_some]
  have hversion : ∀ {n}, snap.found "random_seed" = some (.version n) → _ := version_lt h
  generalize snap.found "random_seed" = found at hreads hversion
  cases found with
  | none => rw [hreads]; exact iff_of_true (stoll_intText h.randomSeed) trivial
  | some found =>
      cases found with
      | version n =>
          have hn := hversion rfl
          rw [hreads, stoll_intText (n := (n : Int)) (by unfold Int64Fits int64Min int64Max; omega)]
          exact some_inj
      | object => exact iff_of_false (by rw [stoll_brace hreads]; simp) id
      | seed => rw [hreads]; exact iff_of_true (stoll_intText h.randomSeed) trivial

theorem extract_tolerance_iff (h : snap.Fits) :
    extractJsonDouble (serializeSnapshot snap) "tolerance" = some snap.tolerance ↔
      ToleranceRight snap (snap.found "tolerance") := by
  have hown : (findAfter (quoted "tolerance".toList)
      (member "random_seed" (numbersText snap))).bind tokenAfter =
        some (formatTolerance snap.tolerance) := by
    unfold member
    rw [findAfter_piece (by decide) (by decide), if_neg (by decide)]
    change (findAfter _ ('"' :: (':' :: (intText snap.randomSeed ++ ',' :: '"' :: _)))).bind _ = _
    rw [← cons_append, show ∀ back, (':' :: intText snap.randomSeed) ++ ',' :: back =
      (':' :: intText snap.randomSeed ++ [',']) ++ back from fun _ => by simp,
      findAfter_between (q := ':' :: intText snap.randomSeed ++ [',']) numberName_tolerance
        (by simpa using quote_notMem_intText snap.randomSeed) (.inl mem_cons_self),
      findAfter_piece (by decide) (by decide), if_pos rfl, bind_some]
    exact @tokenAfter_eq [] _ (by decide) (token_formatTolerance _) _
  obtain ⟨t, ht, hreads⟩ := valueText_serialize snap numberName_tolerance hown
  unfold extractJsonDouble
  rw [ht, bind_some]
  have hversion : ∀ {n}, snap.found "tolerance" = some (.version n) → _ := version_lt h
  generalize snap.found "tolerance" = found at hreads hversion
  cases found with
  | none => rw [hreads]; exact stodNamed_formatTolerance h.tolerance
  | some found =>
      cases found with
      | version n =>
          have hn := hversion rfl
          rw [hreads, stodNamed_intText (n := (n : Int))
            (by unfold Int64Fits int64Min int64Max; omega)]
          exact some_inj
      | object => exact iff_of_false (by rw [stodNamed_brace hreads]; simp) id
      | seed => rw [hreads, stodNamed_intText h.randomSeed]; exact some_inj

/-- The three numbers are the ones that were written exactly when no section has one of the names
in front of its number, or what is read in its place is equal, and the tolerance is readable. -/
theorem recovered_iff (h : snap.Fits) :
    Recovered snap ↔ SeedRight snap (snap.found "random_seed") ∧
      ToleranceRight snap (snap.found "tolerance") := by
  unfold Recovered
  rw [and_iff_right (extract_version snap), extract_seed_iff h, extract_tolerance_iff h]

/-- A section whose identifier is the name of a field in quotes. -/
def quotedSection : ReplayConfigSection :=
  { id := "\"random_seed\"".toList, version := 7, bodyJson := "\x7b\"tolerance\":1\x7d".toList }

/-- A snapshot with quotes, braces and names of fields in its strings. -/
def quotedSnapshot : SessionConfigSnapshot where
  solverConfig := quotedSection
  riskLimits := quotedSection
  feeModel := quotedSection
  rewardConfig := quotedSection
  randomSeed := -42

theorem quotedSnapshot_fits : quotedSnapshot.Fits where
  randomSeed := by decide
  tolerance := rounded_zero
  versions := by decide

theorem quotedSnapshot_recovered :
    Recovered quotedSnapshot ↔
      SeedRight quotedSnapshot (quotedSnapshot.found "random_seed") ∧
        ToleranceRight quotedSnapshot (quotedSnapshot.found "tolerance") :=
  recovered_iff quotedSnapshot_fits

/-- The snapshot with the name of the seed as an identifier. -/
def namedSnapshot : SessionConfigSnapshot :=
  { quotedSnapshot with
    solverConfig := { id := "random_seed".toList, version := 7, bodyJson := ['{', '}'] } }

/-- The version of the section is read as the seed. -/
theorem version_read_as_seed : namedSnapshot.Fits ∧ ¬Recovered namedSnapshot := by
  have hfits : namedSnapshot.Fits :=
    { randomSeed := by decide, tolerance := Double.rounded_zero, versions := by decide }
  refine ⟨hfits, fun h => ?_⟩
  have hseed := (extract_seed_iff hfits).mp h.2.1
  rw [show namedSnapshot.found "random_seed" = some (.version 7) by rfl] at hseed
  change (7 : Int) = -42 at hseed
  exact absurd hseed (by decide)

end Numbers

end ConfigSnapshot
end Backtest
end ContExchange
