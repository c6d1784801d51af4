import ContExchange.Lib.Runs
import Mathlib.Algebra.BigOperators.Ring.List
import Mathlib.Data.List.DropRight
import ContExchange.Lib.Table

/-!
# Library: array and object texts

What a database makes of a text that is cast to an array of texts
(`arrayElements`) or to an object of which the members are asked one by one
(`objectMembers`).  Both are readers that take the text character by character;
a text that is not well formed gives `none`.

An array has one dimension; its elements are quoted, with a backslash before a
character that is to be taken as it stands, or bare.  The members of an object have
quoted keys with the escapes of JSON; of two members with the same key the later one
counts.  The text of a value that is not quoted is kept as it stands, its grammar is not
checked.
-/

namespace ContExchange
namespace Lib

open List

/-- White space between the parts of an object text. -/
def isBlank (c : Char) : Bool :=
  c = ' ' || c = '\t' || c = '\n' || c = '\r'

/-- White space between the parts of an array text. -/
def isArrayBlank (c : Char) : Bool :=
  isBlank c || c = '\x0b' || c = '\x0c'

/-- Where the reader of an array stands. -/
inductive ArrayState where
  | start
  | item (first : Bool)
  | quoted (acc : List Char)
  | quotedEscape (acc : List Char)
  | closed
  | bare (acc : List Char) (escaped : Bool)
  | bareEscape (acc : List Char)
  | done
  | bad
deriving DecidableEq

/-- The reader of an array: its place and the elements so far. -/
structure ArrayReader where
  place : ArrayState := .start
  elems : List (Option (List Char)) := []

/-- A bare element: NULL, or the text without blanks at its end. -/
def bareElement (acc : List Char) (escaped : Bool) : Option (List Char) :=
  let text := acc.rdropWhile isArrayBlank
  if !escaped && text.map Char.toUpper = ['N', 'U', 'L', 'L'] then none else some text

/-- The next character. -/
def ArrayReader.step (r : ArrayReader) (c : Char) : ArrayReader :=
  match r.place with
  | .start =>
      if c = '{' then { r with place := .item true }
      else if isArrayBlank c then r else { r with place := .bad }
  | .item first =>
      if isArrayBlank c then r
      else if c = '"' then { r with place := .quoted [] }
      else if c = '\\' then { r with place := .bareEscape [] }
      else if c = '}' then { r with place := if first then .done else .bad }
      else if c = '{' || c = ',' then { r with place := .bad }
      else { r with place := .bare [c] false }
  | .quoted acc =>
      if c = '"' then { place := .closed, elems := r.elems ++ [some acc] }
      else if c = '\\' then { r with place := .quotedEscape acc }
      else { r with place := .quoted (acc ++ [c]) }
  | .quotedEscape acc => { r with place := .quoted (acc ++ [c]) }
  | .closed =>
      if isArrayBlank c then r
      else if c = ',' then { r with place := .item false }
      else if c = '}' then { r with place := .done }
      else { r with place := .bad }
  | .bare acc escaped =>
      if c = ',' then { place := .item false, elems := r.elems ++ [bareElement acc escaped] }
      else if c = '}' then { place := .done, elems := r.elems ++ [bareElement acc escaped] }
      else if c = '\\' then { r with place := .bareEscape acc }
      else if c = '"' || c = '{' then { r with place := .bad }
      else { r with place := .bare (acc ++ [c]) escaped }
  | .bareEscape acc => { r with place := .bare (acc ++ [c]) true }
  | .done => if isArrayBlank c then r else { r with place := .bad }
  | .bad => r

/-- The elements of an array text; a NULL element is `none`. -/
def arrayElements (text : List Char) : Option (List (Option (List Char))) :=
  let r := run ArrayReader.step {} text
  if r.place = .done then some r.elems else none

/-- Where the reader stands in an escape; `high` is the first half of a pair. -/
inductive EscapeState where
  | plain
  | pair (high : Nat)
  | slash (high : Option Nat)
  | hex (high : Option Nat) (left : Nat) (code : Nat)
deriving DecidableEq

/-- What a character does inside quotes. -/
inductive TextRead where
  | more (acc : List Char) (esc : EscapeState)
  | close
  | fail

/-- The character of a short escape. -/
def unescape (c : Char) : Option Char :=
  if c = '"' || c = '\\' || c = '/' then some c
  else if c = 'b' then some '\x08'
  else if c = 'f' then some '\x0c'
  else if c = 'n' then some '\n'
  else if c = 'r' then some '\r'
  else if c = 't' then some '\t'
  else none

/-- The value of a hexadecimal digit. -/
def hexValue (c : Char) : Option Nat :=
  if '0' ≤ c ∧ c ≤ '9' then some (c.toNat - '0'.toNat)
  else if 'a' ≤ c ∧ c ≤ 'f' then some (c.toNat - 'a'.toNat + 10)
  else if 'A' ≤ c ∧ c ≤ 'F' then some (c.toNat - 'A'.toNat + 10)
  else none

/-- A code that is complete: a character, or the first half of a pair. -/
def readCode (acc : List Char) (high : Option Nat) (code : Nat) : TextRead :=
  match high with
  | none =>
      if code = 0 ∨ 0xDC00 ≤ code ∧ code < 0xE000 then .fail
      else if 0xD800 ≤ code ∧ code < 0xDC00 then .more acc (.pair code)
      else .more (acc ++ [Char.ofNat code]) .plain
  | some h =>
      if 0xDC00 ≤ code ∧ code < 0xE000 then
        .more (acc ++ [Char.ofNat (0x10000 + (h - 0xD800) * 0x400 + (code - 0xDC00))]) .plain
      else .fail

/-- The next character inside quotes. -/
def readChar (acc : List Char) (esc : EscapeState) (c : Char) : TextRead :=
  match esc with
  | .plain =>
      if c = '"' then .close
      else if c = '\\' then .more acc (.slash none)
      else if c < ' ' then .fail
      else .more (acc ++ [c]) .plain
  | .pair high => if c = '\\' then .more acc (.slash (some high)) else .fail
  | .slash high =>
      if c = 'u' then .more acc (.hex high 4 0)
      else
        match high, unescape c with
        | none, some c' => .more (acc ++ [c']) .plain
        | _, _ => .fail
  | .hex high left code =>
      match hexValue c with
      | none => .fail
      | some d =>
          if left ≤ 1 then readCode acc high (code * 16 + d)
          else .more acc (.hex high (left - 1) (code * 16 + d))

/-- Where the reader of an object stands. -/
inductive ObjectState where
  | start
  | key (first : Bool)
  | inKey (acc : List Char) (esc : EscapeState)
  | colon (k : List Char)
  | value (k : List Char)
  | inText (k : List Char) (acc : List Char) (esc : EscapeState)
  | raw (k : List Char) (acc : List Char) (depth : Nat) (quoted : Bool) (escaped : Bool)
  | after
  | done
  | bad
deriving DecidableEq

/-- The reader of an object: its place and the members so far. -/
structure ObjectReader where
  place : ObjectState := .start
  members : List (List Char × List Char) := []

/-- The next character of a value that is not quoted. -/
def ObjectReader.stepRaw (r : ObjectReader) (k acc : List Char) (depth : Nat)
    (quoted escaped : Bool) (c : Char) : ObjectReader :=
  if quoted then
    { r with
      place := .raw k (acc ++ [c]) depth (escaped || c ≠ '"') (!escaped && c = '\\') }
  else if c = '"' then { r with place := .raw k (acc ++ [c]) depth true false }
  else if c = '{' || c = '[' then { r with place := .raw k (acc ++ [c]) (depth + 1) false false }
  else if depth = 0 && c = ',' then
    { place := .key false, members := r.members ++ [(k, acc.rdropWhile isBlank)] }
  else if depth = 0 && c = '}' then
    { place := .done, members := r.members ++ [(k, acc.rdropWhile isBlank)] }
  else if c = '}' || c = ']' then { r with place := .raw k (acc ++ [c]) (depth - 1) false false }
  else { r with place := .raw k (acc ++ [c]) depth false false }

/-- The next character. -/
def ObjectReader.step (r : ObjectReader) (c : Char) : ObjectReader :=
  match r.place with
  | .start =>
      if c = '{' then { r with place := .key true }
      else if isBlank c then r else { r with place := .bad }
  | .key first =>
      if isBlank c then r
      else if c = '"' then { r with place := .inKey [] .plain }
      else if c = '}' && first then { r with place := .done }
      else { r with place := .bad }
  | .inKey acc esc =>
      match readChar acc esc c with
      | .more acc' esc' => { r with place := .inKey acc' esc' }
      | .close => { r with place := .colon acc }
      | .fail => { r with place := .bad }
  | .colon k =>
      if isBlank c then r
      else if c = ':' then { r with place := .value k } else { r with place := .bad }
  | .value k =>
      if isBlank c then r
      else if c = '"' then { r with place := .inText k [] .plain }
      else if c = ',' || c = '}' || c = ']' || c = ':' then { r with place := .bad }
      else
        { r with
          place := .raw k [c] (if c = '{' || c = '[' then 1 else 0) false false }
  | .inText k acc esc =>
      match readChar acc esc c with
      | .more acc' esc' => { r with place := .inText k acc' esc' }
      | .close => { place := .after, members := r.members ++ [(k, acc)] }
      | .fail => { r with place := .bad }
  | .raw k acc depth quoted escaped => r.stepRaw k acc depth quoted escaped c
  | .after =>
      if isBlank c then r
      else if c = ',' then { r with place := .key false }
      else if c = '}' then { r with place := .done }
      else { r with place := .bad }
  | .done => if isBlank c then r else { r with place := .bad }
  | .bad => r

/-- The members of an object text, the later of two with the same key. -/
def objectMembers (text : List Char) : Option (Table (List Char) (List Char)) :=
  let r := run ObjectReader.step {} text
  if r.place = .done then
    some (r.members.foldl (fun t m => t.insert m.1 m.2) ∅)
  else none

section ArrayFacts

/-- A text without quotes and backslashes. -/
def PlainText (s : List Char) : Prop :=
  ∀ c ∈ s, c ≠ '"' ∧ c ≠ '\\'

/-- An array text of quoted elements, written without escapes. -/
def quotedArray (v : List (List Char)) : List Char :=
  '{' :: [','].intercalate (v.map (fun s => '"' :: s ++ ['"'])) ++ ['}']

variable {s : List Char}

theorem run_quoted (h : PlainText s) (acc : List Char) (elems : List (Option (List Char))) :
    run ArrayReader.step ⟨.quoted acc, elems⟩ s = ⟨.quoted (acc ++ s), elems⟩ := by
  induction s generalizing acc with
  | nil => simp
  | cons c s ih =>
      obtain ⟨hquote, hslash⟩ := h c mem_cons_self
      have hstep : ArrayReader.step ⟨.quoted acc, elems⟩ c = ⟨.quoted (acc ++ [c]), elems⟩ := by
        simp [ArrayReader.step, hquote, hslash]
      rw [run_cons, hstep, ih (fun x hx => h x (mem_cons_of_mem c hx))]
      simp

theorem run_quotedElement (h : PlainText s) (first : Bool) (elems : List (Option (List Char))) :
    run ArrayReader.step ⟨.item first, elems⟩ ('"' :: s ++ ['"']) =
      ⟨.closed, elems ++ [some s]⟩ := by
  have hopen : ArrayReader.step ⟨.item first, elems⟩ '"' = ⟨.quoted [], elems⟩ := rfl
  rw [cons_append, run_cons, hopen, run_append, run_quoted h]
  simp [ArrayReader.step]

theorem run_quotedElements {v : List (List Char)} (h : ∀ s ∈ v, PlainText s) (hne : v ≠ [])
    (first : Bool) (elems : List (Option (List Char))) :
    run ArrayReader.step ⟨.item first, elems⟩
        ([','].intercalate (v.map (fun s => '"' :: s ++ ['"']))) =
      ⟨.closed, elems ++ v.map some⟩ := by
  induction v generalizing first elems with
  | nil => exact absurd rfl hne
  | cons s v ih =>
      have hs := run_quotedElement (h s mem_cons_self) first elems
      cases v with
      | nil => simpa using hs
      | cons s' v =>
          have hcomma : ArrayReader.step ⟨.closed, elems ++ [some s]⟩ ',' =
              ⟨.item false, elems ++ [some s]⟩ := rfl
          have hrest := ih (fun x hx => h x (mem_cons_of_mem s hx)) (cons_ne_nil _ _)
            false (elems ++ [some s])
          rw [map_cons] at hrest
          rw [map_cons, map_cons, intercalate_cons_cons, run_append, run_append,
            hs, run_cons, run_nil, hcomma, hrest]
          simp

/-- Plain elements are read as they were written. -/
theorem arrayElements_quotedArray {v : List (List Char)} (h : ∀ s ∈ v, PlainText s) :
    arrayElements (quotedArray v) = some (v.map some) := by
  have hrun : run ArrayReader.step {} (quotedArray v) = ⟨.done, v.map some⟩ := by
    unfold quotedArray
    have hopen : ArrayReader.step {} '{' = ⟨.item true, []⟩ := rfl
    rw [cons_append, run_cons, hopen, run_append]
    by_cases hne : v = []
    · subst hne
      rfl
    · have hclose : ArrayReader.step ⟨.closed, v.map some⟩ '}' = ⟨.done, v.map some⟩ := rfl
      rw [run_quotedElements h hne, run_cons, run_nil, nil_append, hclose]
  unfold arrayElements
  rw [hrun]
  rfl

/-- What the quotes and backslashes of a text cost in backslashes. -/
def escapeWeight (s : List Char) : Nat :=
  s.count '"' + 2 * s.count '\\'

@[simp] theorem escapeWeight_nil : escapeWeight [] = 0 := rfl

theorem escapeWeight_append (s t : List Char) :
    escapeWeight (s ++ t) = escapeWeight s + escapeWeight t := by
  unfold escapeWeight
  rw [count_append, count_append]
  omega

theorem escapeWeight_concat (s : List Char) (c : Char) :
    escapeWeight (s ++ [c]) =
      escapeWeight s + ((if c = '"' then 1 else 0) + 2 * (if c = '\\' then 1 else 0)) := by
  rw [escapeWeight_append]
  simp only [escapeWeight, count_singleton, beq_iff_eq]

theorem escapeWeight_le_of_sublist {s t : List Char} (h : s.Sublist t) :
    escapeWeight s ≤ escapeWeight t := by
  have hquote := h.count_le '"'
  have hslash := h.count_le '\\'
  unfold escapeWeight
  omega

theorem escapeWeight_eq_zero_iff : escapeWeight s = 0 ↔ PlainText s := by
  unfold escapeWeight PlainText
  rw [Nat.add_eq_zero_iff, Nat.mul_eq_zero, count_eq_zero, count_eq_zero]
  constructor
  · rintro ⟨hquote, hslash⟩ c hc
    refine ⟨?_, ?_⟩
    · rintro rfl
      exact hquote hc
    · rintro rfl
      exact hslash.resolve_left (by norm_num) hc
  · intro h
    exact ⟨fun hc => (h _ hc).1 rfl, Or.inr (fun hc => (h _ hc).2 rfl)⟩

/-- What the place of a reader has cost. -/
def ArrayState.weight : ArrayState → Nat
  | .quoted acc | .bare acc _ => escapeWeight acc
  | .quotedEscape acc | .bareEscape acc => escapeWeight acc + 1
  | _ => 0

/-- What the elements of an array have cost. -/
def elementsWeight (elems : List (Option (List Char))) : Nat :=
  (elems.map (fun e => escapeWeight (e.getD []))).sum

theorem elementsWeight_concat (elems : List (Option (List Char))) (e : Option (List Char)) :
    elementsWeight (elems ++ [e]) = elementsWeight elems + escapeWeight (e.getD []) := by
  simp [elementsWeight]

theorem weight_bareElement (acc : List Char) (escaped : Bool) :
    escapeWeight ((bareElement acc escaped).getD []) ≤ escapeWeight acc := by
  unfold bareElement
  dsimp only
  split
  · simp
  · exact escapeWeight_le_of_sublist (List.rdropWhile_prefix _ acc).sublist

/-- What the elements and the place of a reader have cost. -/
def ArrayReader.weight (r : ArrayReader) : Nat :=
  elementsWeight r.elems + r.place.weight

/-- A character raises the cost by the backslash that it is. -/
theorem weight_step (r : ArrayReader) (c : Char) :
    (r.step c).weight ≤ r.weight + (if c = '\\' then 1 else 0) := by
  obtain ⟨place, elems⟩ := r
  unfold ArrayReader.weight ArrayReader.step
  cases place with
  | start | closed | done | bad =>
      dsimp only
      repeat' split
      all_goals simp only [ArrayState.weight]; omega
  | item first =>
      dsimp only
      repeat' split
      all_goals simp_all [ArrayState.weight, escapeWeight]
  | quoted acc =>
      dsimp only
      by_cases hquote : c = '"'
      · simp [hquote, ArrayState.weight, elementsWeight_concat]
      · by_cases hslash : c = '\\'
        · simp [hslash, ArrayState.weight, Nat.add_assoc]
        · simp [hquote, hslash, ArrayState.weight, escapeWeight_concat]
  | quotedEscape acc | bareEscape acc =>
      simp only [ArrayState.weight, escapeWeight_concat]
      by_cases hquote : c = '"'
      · simp [hquote]
      · by_cases hslash : c = '\\'
        · simp [hslash, Nat.add_assoc]
        · simp [hquote, hslash]
  | bare acc escaped =>
      have hbare := weight_bareElement acc escaped
      dsimp only
      by_cases hslash : c = '\\'
      · simp [hslash, ArrayState.weight, Nat.add_assoc]
      · by_cases hquote : c = '"'
        · simp [hquote, ArrayState.weight]
        · simp only [hslash, hquote, if_false, decide_false, Bool.false_or]
          split
          · simp only [ArrayState.weight, elementsWeight_concat]
            omega
          · split
            · simp only [ArrayState.weight, elementsWeight_concat]
              omega
            · split
              · simp only [ArrayState.weight]
                omega
              · simp [ArrayState.weight, escapeWeight_concat, hslash, hquote]

theorem weight_run (r : ArrayReader) (text : List Char) :
    (run ArrayReader.step r text).weight ≤ r.weight + text.count '\\' := by
  induction text generalizing r with
  | nil => simp
  | cons c text ih =>
      have hstep := weight_step r c
      have hrest := ih (r.step c)
      rw [run_cons, count_cons]
      simp only [beq_iff_eq]
      omega

/-- The quotes and backslashes of the elements are paid with the backslashes of the text. -/
theorem elementsWeight_arrayElements {text : List Char} {elems : List (Option (List Char))}
    (h : arrayElements text = some elems) : elementsWeight elems ≤ text.count '\\' := by
  have hrun := weight_run {} text
  have hstart : ArrayReader.weight {} = 0 := rfl
  unfold arrayElements at h
  dsimp only at h
  split at h
  · cases h
    unfold ArrayReader.weight at hrun hstart
    omega
  · cases h

end ArrayFacts

section ObjectFacts

/-- A member of quoted texts, written without escapes. -/
def quotedMember (m : List Char × List Char) : List Char :=
  '"' :: m.1 ++ "\":\"".toList ++ m.2 ++ ['"']

def quotedObject (ms : List (List Char × List Char)) : List Char :=
  '{' :: [','].intercalate (ms.map quotedMember) ++ ['}']

/-- The reader stands where it should, unless the text was refused. -/
def ObjectReader.Reaches (r r' : ObjectReader) : Prop :=
  r = r' ∨ r.place = .bad

theorem run_of_bad {r : ObjectReader} (h : r.place = .bad) (text : List Char) :
    (run ObjectReader.step r text).place = .bad := by
  induction text generalizing r with
  | nil => exact h
  | cons c text ih =>
      rw [run_cons]
      apply ih
      unfold ObjectReader.step
      rw [h]
      exact h

theorem ObjectReader.Reaches.run {r r' r'' : ObjectReader} {text : List Char} (h : r.Reaches r')
    (hrun : (Lib.run ObjectReader.step r' text).Reaches r'') :
    (Lib.run ObjectReader.step r text).Reaches r'' := by
  rcases h with rfl | hbad
  · exact hrun
  · exact Or.inr (run_of_bad hbad text)

theorem readChar_plain {c : Char} (h : c ≠ '"' ∧ c ≠ '\\') (acc : List Char) :
    readChar acc .plain c = .more (acc ++ [c]) .plain ∨ readChar acc .plain c = .fail := by
  simp only [readChar, h.1, h.2, if_false]
  split
  · exact Or.inr rfl
  · exact Or.inl rfl

theorem run_inKey
    {s : List Char} (h : PlainText s) (acc : List Char) (ms : List (List Char × List Char)) :
    (run ObjectReader.step ⟨.inKey acc .plain, ms⟩ s).Reaches ⟨.inKey (acc ++ s) .plain, ms⟩ := by
  induction s generalizing acc with
  | nil => simp [ObjectReader.Reaches]
  | cons c s ih =>
      have hrest := ih (fun x hx => h x (mem_cons_of_mem c hx)) (acc ++ [c])
      rw [append_assoc, singleton_append] at hrest
      rw [run_cons]
      refine ObjectReader.Reaches.run ?_ hrest
      rcases readChar_plain (h c mem_cons_self) acc with hread | hread
      · exact Or.inl (by simp only [ObjectReader.step, hread])
      · exact Or.inr (by simp only [ObjectReader.step, hread])

theorem run_inText
    {s : List Char} (h : PlainText s) (k acc : List Char) (ms : List (List Char × List Char)) :
    (run ObjectReader.step ⟨.inText k acc .plain, ms⟩ s).Reaches
      ⟨.inText k (acc ++ s) .plain, ms⟩ := by
  induction s generalizing acc with
  | nil => simp [ObjectReader.Reaches]
  | cons c s ih =>
      have hrest := ih (fun x hx => h x (mem_cons_of_mem c hx)) (acc ++ [c])
      rw [append_assoc, singleton_append] at hrest
      rw [run_cons]
      refine ObjectReader.Reaches.run ?_ hrest
      rcases readChar_plain (h c mem_cons_self) acc with hread | hread
      · exact Or.inl (by simp only [ObjectReader.step, hread])
      · exact Or.inr (by simp only [ObjectReader.step, hread])

variable {ms : List (List Char × List Char)}

theorem run_quotedMember {m : List Char × List Char} (hkey : PlainText m.1)
    (hvalue : PlainText m.2) (first : Bool) (ms : List (List Char × List Char)) :
    (run ObjectReader.step ⟨.key first, ms⟩ (quotedMember m)).Reaches ⟨.after, ms ++ [m]⟩ := by
  have hopen : ObjectReader.step ⟨.key first, ms⟩ '"' = ⟨.inKey [] .plain, ms⟩ := rfl
  have hcolon : run ObjectReader.step ⟨.inKey m.1 .plain, ms⟩ "\":\"".toList =
      ⟨.inText m.1 [] .plain, ms⟩ := rfl
  have hclose : run ObjectReader.step ⟨.inText m.1 m.2 .plain, ms⟩ ['"'] =
      ⟨.after, ms ++ [m]⟩ := rfl
  unfold quotedMember
  rw [append_assoc, append_assoc, cons_append, run_cons, hopen, run_append]
  refine (run_inKey hkey [] ms).run ?_
  rw [nil_append, run_append, hcolon, run_append]
  refine (run_inText hvalue m.1 [] ms).run ?_
  rw [nil_append, hclose]
  exact Or.inl rfl

theorem run_quotedMembers
    {new : List (List Char × List Char)} (h : ∀ m ∈ new, PlainText m.1 ∧ PlainText m.2)
    (hne : new ≠ []) (first : Bool) (ms : List (List Char × List Char)) :
    (run ObjectReader.step ⟨.key first, ms⟩ ([','].intercalate (new.map quotedMember))).Reaches
      ⟨.after, ms ++ new⟩ := by
  induction new generalizing first ms with
  | nil => exact absurd rfl hne
  | cons m new ih =>
      obtain ⟨hkey, hvalue⟩ := h m mem_cons_self
      have hm := run_quotedMember hkey hvalue first ms
      cases new with
      | nil => simpa using hm
      | cons m' new =>
          have hcomma : ObjectReader.step ⟨.after, ms ++ [m]⟩ ',' = ⟨.key false, ms ++ [m]⟩ := rfl
          have hrest := ih (fun x hx => h x (mem_cons_of_mem m hx))
            (cons_ne_nil _ _) false (ms ++ [m])
          rw [map_cons, append_assoc, singleton_append] at hrest
          rw [map_cons, map_cons, intercalate_cons_cons, run_append, run_append]
          refine ObjectReader.Reaches.run (hm.run ?_) hrest
          exact Or.inl hcomma

/-- Members that are plain are read as they were written. -/
theorem objectMembers_quotedObject
    {t : Table (List Char) (List Char)} (h : ∀ m ∈ ms, PlainText m.1 ∧ PlainText m.2)
    (hread : objectMembers (quotedObject ms) = some t) :
    t = ms.foldl (fun t m => t.insert m.1 m.2) ∅ := by
  have hrun : (run ObjectReader.step {} (quotedObject ms)).Reaches ⟨.done, ms⟩ := by
    have hopen : ObjectReader.step {} '{' = ⟨.key true, []⟩ := rfl
    unfold quotedObject
    rw [cons_append, run_cons, hopen, run_append]
    by_cases hne : ms = []
    · subst hne
      exact Or.inl rfl
    · exact (run_quotedMembers h hne true []).run (Or.inl rfl)
  unfold objectMembers at hread
  dsimp only at hread
  rcases hrun with heq | hbad
  · rw [heq] at hread
    exact (Option.some.inj hread).symm
  · rw [hbad] at hread
    exact absurd hread (by simp)

/-- What the quotes, backslashes and `u`s of a key cost in characters of an escape. -/
def keyWeight (s : List Char) : Nat :=
  s.count '"' + 2 * s.count '\\' + s.count 'u'

@[simp] theorem keyWeight_nil : keyWeight [] = 0 := rfl

/-- What a character pays for. -/
def escapeCredit (c : Char) : Nat :=
  (if c = '\\' then 1 else 0) + (if c = 'u' then 1 else 0)

theorem keyWeight_concat (s : List Char) (c : Char) :
    keyWeight (s ++ [c]) =
      keyWeight s + ((if c = '"' then 1 else 0) + 2 * (if c = '\\' then 1 else 0) +
        (if c = 'u' then 1 else 0)) := by
  unfold keyWeight
  simp only [count_append, count_singleton, beq_iff_eq]
  omega

/-- No character costs more than a hexadecimal escape pays. -/
theorem keyWeight_concat_le (s : List Char) (c : Char) :
    keyWeight (s ++ [c]) ≤ keyWeight s + 2 := by
  rw [keyWeight_concat]
  by_cases hslash : c = '\\'
  · subst hslash
    simp
  · split <;> split <;> simp_all

/-- What an escape has paid so far. -/
def EscapeState.credit : EscapeState → Nat
  | .plain | .pair _ => 0
  | .slash _ => 1
  | .hex _ _ _ => 2

@[simp] theorem credit_plain : EscapeState.plain.credit = 0 := rfl

@[simp] theorem credit_hex (high : Option Nat) (left code : Nat) :
    (EscapeState.hex high left code).credit = 2 := rfl

theorem credit_readCode {acc acc' : List Char} {high : Option Nat} {code : Nat}
    {esc : EscapeState} (h : readCode acc high code = .more acc' esc) :
    keyWeight acc' + esc.credit ≤ keyWeight acc + 2 := by
  unfold readCode at h
  split at h
  · split at h
    · cases h
    · split at h
      · cases h
        simp [EscapeState.credit]
      · cases h
        exact keyWeight_concat_le acc _
  · split at h
    · cases h
      exact keyWeight_concat_le acc _
    · cases h

/-- The character of a short escape costs what the escape pays. -/
theorem keyWeight_unescape {c c' : Char} (h : unescape c = some c') (hu : c ≠ 'u')
    (acc : List Char) : keyWeight (acc ++ [c']) ≤ keyWeight acc + 1 + escapeCredit c := by
  unfold unescape at h
  split at h
  · rename_i hself
    cases h
    rw [keyWeight_concat]
    unfold escapeCredit
    simp only [Bool.or_eq_true, decide_eq_true_eq] at hself
    rcases hself with (rfl | rfl) | rfl <;> simp
  · repeat' split at h
    all_goals cases h
    all_goals rw [keyWeight_concat]; simp; omega

/-- Inside quotes a text costs no more than its characters pay. -/
theorem credit_readChar {acc acc' : List Char} {esc esc' : EscapeState} {c : Char}
    (h : readChar acc esc c = .more acc' esc') :
    keyWeight acc' + esc'.credit ≤ keyWeight acc + esc.credit + escapeCredit c := by
  cases esc with
  | plain =>
      simp only [readChar] at h
      split at h
      · cases h
      · split at h
        · rename_i hslash
          cases h
          simp [EscapeState.credit, escapeCredit, hslash]
        · split at h
          · cases h
          · rename_i hquote hslash _
            cases h
            rw [keyWeight_concat]
            simp [EscapeState.credit, escapeCredit, hquote, hslash]
  | pair high =>
      simp only [readChar] at h
      split at h
      · rename_i hslash
        cases h
        simp [EscapeState.credit, escapeCredit, hslash]
      · cases h
  | slash high =>
      simp only [readChar] at h
      split at h
      · rename_i hu
        cases h
        simp [EscapeState.credit, escapeCredit, hu]
      · rename_i hu
        split at h
        · rename_i hchar
          cases h
          exact keyWeight_unescape hchar hu acc
        · cases h
  | hex high left code =>
      simp only [readChar] at h
      split at h
      · cases h
      · split at h
        · have hcode := credit_readCode h
          rw [credit_hex]
          omega
        · cases h
          rw [credit_hex, credit_hex]
          omega

/-- What the place of a reader has cost. -/
def ObjectState.weight : ObjectState → Nat
  | .inKey acc esc => keyWeight acc + esc.credit
  | .colon k | .value k | .inText k _ _ | .raw k _ _ _ _ => keyWeight k
  | _ => 0

/-- What the keys and the place of a reader have cost. -/
def ObjectReader.weight (r : ObjectReader) : Nat :=
  (r.members.map (fun m => keyWeight m.1)).sum + r.place.weight

theorem weight_objectStep (r : ObjectReader) (c : Char) :
    (r.step c).weight ≤ r.weight + escapeCredit c := by
  obtain ⟨place, ms⟩ := r
  unfold ObjectReader.weight ObjectReader.step
  cases place with
  | start | key first | colon k | after | done | bad | value k =>
      dsimp only
      repeat' split
      all_goals simp only [ObjectState.weight, keyWeight_nil, credit_plain]; omega
  | inKey acc esc =>
      dsimp only
      split
      · rename_i hread
        have hcredit := credit_readChar hread
        simp only [ObjectState.weight]
        omega
      · simp only [ObjectState.weight]
        omega
      · simp only [ObjectState.weight]
        omega
  | inText k acc esc =>
      dsimp only
      split <;> simp [ObjectState.weight]
      omega
  | raw k acc depth quoted escaped =>
      simp only [ObjectReader.stepRaw]
      repeat' split
      all_goals simp [ObjectState.weight]

/-- The keys of an object cost no more than the characters of the text pay. -/
theorem keyWeight_run (r : ObjectReader) (text : List Char) :
    (run ObjectReader.step r text).weight ≤ r.weight + (text.map escapeCredit).sum := by
  induction text generalizing r with
  | nil => simp
  | cons c text ih =>
      have hstep := weight_objectStep r c
      have hrest := ih (r.step c)
      rw [run_cons, map_cons, sum_cons]
      omega

/-- Different keys of the object that is read cost no more together. -/
theorem keyWeight_objectMembers {text : List Char} {t : Table (List Char) (List Char)}
    {keys : List (List Char)} (h : objectMembers text = some t) (hnodup : keys.Nodup)
    (hkeys : ∀ k ∈ keys, (t.lookup k).isSome) :
    (keys.map keyWeight).sum ≤ (text.map escapeCredit).sum := by
  have hrun := keyWeight_run {} text
  have hstart : ObjectReader.weight {} = 0 := rfl
  unfold ObjectReader.weight at hrun hstart
  unfold objectMembers at h
  dsimp only at h
  split at h
  · cases h
    set read := (run ObjectReader.step {} text).members with hread
    have hsub : keys ⊆ read.map Prod.fst := by
      intro k hk
      obtain ⟨v, hv⟩ := Option.isSome_iff_exists.mp (hkeys k hk)
      rcases Table.mem_of_lookup_foldl_insert hv with hmem | hempty
      · exact mem_map.mpr ⟨(k, v), hmem, rfl⟩
      · cases hempty
    obtain ⟨kept, hperm, hsublist⟩ := subperm_of_subset hnodup hsub
    have hle := (hsublist.map keyWeight).sum_le_sum (fun n _ => Nat.zero_le n)
    rw [(hperm.map keyWeight).sum_eq, map_map] at hle
    have hsame : read.map (keyWeight ∘ Prod.fst) = read.map (fun m => keyWeight m.1) := rfl
    rw [hsame] at hle
    omega
  · cases h

end ObjectFacts

section Commas

theorem count_intercalate {c : Char} (hc : c ≠ ',') (ls : List (List Char)) :
    ([','].intercalate ls).count c = (ls.map (List.count c)).sum := by
  induction ls with
  | nil => rfl
  | cons l ls ih =>
      cases ls with
      | nil => simp
      | cons l' ls =>
          have hcomma : [','].count c = 0 := count_eq_zero.mpr (by simpa using hc)
          rw [intercalate_cons_cons, count_append, count_append, ih, hcomma]
          rfl

theorem escapeWeight_intercalate (ls : List (List Char)) :
    escapeWeight ([','].intercalate ls) = (ls.map escapeWeight).sum := by
  have hweight : escapeWeight = fun s => s.count '"' + 2 * s.count '\\' := rfl
  rw [hweight]
  dsimp only
  rw [count_intercalate (by decide), count_intercalate (by decide), sum_map_add, sum_map_mul_left]

theorem notMem_of_mem_splitOn {csv field : List Char} (h : field ∈ csv.splitOn ',') :
    ',' ∉ field := by
  induction csv generalizing field with
  | nil =>
      rw [splitOn_nil, mem_singleton] at h
      rw [h]
      exact not_mem_nil
  | cons c csv ih =>
      rw [splitOn_cons_eq_if_modifyHead] at h
      split at h
      · rcases mem_cons.mp h with rfl | h
        · exact not_mem_nil
        · exact ih h
      · rename_i hc
        cases hfields : csv.splitOn ',' with
        | nil => exact absurd hfields (splitOn_ne_nil _ _)
        | cons first rest =>
            rw [hfields, modifyHead_cons] at h
            rcases mem_cons.mp h with rfl | h
            · rw [mem_cons, not_or]
              refine ⟨fun heq => hc (by simp [← heq]), ih ?_⟩
              rw [hfields]
              exact mem_cons_self
            · refine ih ?_
              rw [hfields]
              exact mem_cons_of_mem _ h

/-- Texts that cost no more than their own backslashes are plain. -/
theorem plainText_of_weights {ls : List (List Char)}
    (h : (ls.map escapeWeight).sum ≤ (ls.map (List.count '\\')).sum) : ∀ s ∈ ls, PlainText s := by
  induction ls with
  | nil => exact fun s hs => absurd hs not_mem_nil
  | cons l ls ih =>
      have hle : (ls.map (List.count '\\')).sum ≤ (ls.map escapeWeight).sum := by
        refine sum_le_sum (fun s _ => ?_)
        unfold escapeWeight
        omega
      rw [map_cons, map_cons, sum_cons, sum_cons] at h
      have hfirst : escapeWeight l = l.count '"' + 2 * l.count '\\' := rfl
      have hl : escapeWeight l = 0 ∧
          (ls.map escapeWeight).sum ≤ (ls.map (List.count '\\')).sum := by
        omega
      intro s hs
      rcases mem_cons.mp hs with rfl | hs
      · exact escapeWeight_eq_zero_iff.mp hl.1
      · exact ih hl.2 s hs

/-- What the characters of a text pay for. -/
theorem sum_escapeCredit (text : List Char) :
    (text.map escapeCredit).sum = text.count '\\' + text.count 'u' := by
  induction text with
  | nil => rfl
  | cons c text ih =>
      rw [map_cons, sum_cons, ih, count_cons, count_cons]
      simp only [escapeCredit, beq_iff_eq]
      omega

end Commas

end Lib
end ContExchange
