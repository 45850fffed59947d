import DeskhopPlus.Config.KeyName
import DeskhopPlus.Keyboard.Output

/-!
# Configuration texts

The parsers of `dh_config_text.c` for overrides, lists of keys and chords. Each reads its text with
one tokenizer into a table of its own and copies that out only when the whole text was read, so a
text that is refused changes nothing of the caller's but the error.
-/

namespace DeskhopPlus.Config

open Keyboard (KeyOverride overrideCapacity passthroughCapacity)

/-- `DH_CONFIG_TEXT_CHORD_CAPACITY`. -/
def chordCapacity : Nat := 6

/-- `dh_config_text_error_code_t`. -/
inductive ErrorCode where
  | ok | expectedKey | expectedEquals | unknownKey | capacity
  deriving DecidableEq, Repr

/-- `dh_config_text_error_t`. -/
structure TextError where
  code : ErrorCode
  line : Nat
  column : Nat
  token : List UInt8
  deriving DecidableEq, Repr

/-- `clear_error`. -/
def clearError : TextError := ⟨.ok, 0, 0, []⟩

/-- `fail`, with at most 31 bytes of the token. -/
def fail (code : ErrorCode) (line column : Nat) (token : List UInt8) : TextError :=
  ⟨code, line, column, token.take 31⟩

/-! ## Tokens -/

def newline : UInt8 := 0x0a
def comma : UInt8 := 0x2c
def plus : UInt8 := 0x2b
def equals : UInt8 := 0x3d

/-- `space`. -/
def isSpace (c : UInt8) : Bool := c == 0x20 || c == 0x09 || c == 0x0d

/-- The characters other than blanks at which a token stops. -/
def isHard (c : UInt8) : Bool := c == equals || c == comma || c == plus || c == newline

/-- A character of a token. -/
def isWord (c : UInt8) : Bool := !isSpace c && !isHard c

/-- A token: where it starts, its characters, and the cursor behind it and the blanks there. -/
structure Token where
  start : List UInt8
  name : List UInt8
  rest : List UInt8

/-- `token`. -/
def token (cursor : List UInt8) : Token :=
  let start := cursor.dropWhile isSpace
  ⟨start, start.takeWhile isWord, (start.dropWhile isWord).dropWhile isSpace⟩

/-- Blanks and ends of lines are skipped, and the lines counted. -/
def skipLines : List UInt8 → Nat → List UInt8 × Nat
  | [], line => ([], line)
  | c :: rest, line =>
      if c = newline then skipLines rest (line + 1)
      else if isSpace c then skipLines rest line
      else (c :: rest, line)

/-- The column of a cursor. -/
def column (lineStart cursor : List UInt8) : Nat := lineStart.length - cursor.length + 1

theorem length_dropWhile_le (p : UInt8 → Bool) (cursor : List UInt8) :
    (cursor.dropWhile p).length ≤ cursor.length := (List.dropWhile_suffix p).length_le

theorem length_token_rest (cursor : List UInt8) : (token cursor).rest.length ≤ cursor.length :=
  (length_dropWhile_le _ _).trans ((length_dropWhile_le _ _).trans (length_dropWhile_le _ _))

theorem length_skipLines (cursor : List UInt8) (line : Nat) :
    (skipLines cursor line).1.length ≤ cursor.length := by
  induction cursor generalizing line with
  | nil => exact Nat.le_refl _
  | cons c rest ih =>
      rw [skipLines]
      split_ifs
      · exact (ih _).trans (Nat.le_succ _)
      · exact (ih _).trans (Nat.le_succ _)
      · exact Nat.le_refl _

theorem length_token_rest_lt {cursor : List UInt8} (h : (token cursor).name ≠ []) :
    (token cursor).rest.length < cursor.length := by
  have hsplit : (token cursor).name ++ (token cursor).start.dropWhile isWord =
      (token cursor).start := List.takeWhile_append_dropWhile
  have hlength := congrArg List.length hsplit
  have hstart : (token cursor).start.length ≤ cursor.length := length_dropWhile_le _ _
  have hrest : (token cursor).rest.length ≤ ((token cursor).start.dropWhile isWord).length :=
    length_dropWhile_le _ _
  have hname := List.length_pos_of_ne_nil h
  rw [List.length_append] at hlength
  omega

/-! ## The parsers -/

/-- The loop of `dh_config_text_parse_overrides`. -/
def overridesLoop (capacity : Nat) (cursor : List UInt8) (line : Nat) (parsed : List KeyOverride) :
    Except TextError (List KeyOverride) :=
  let skipped := skipLines cursor line
  if skipped.1 = [] then .ok parsed
  else
    let origin := token skipped.1
    if _ : origin.name = [] then .error (fail .expectedKey skipped.2 1 [])
    else
      match _ : origin.rest with
      | [] => .error (fail .expectedEquals skipped.2 (column skipped.1 origin.rest) origin.name)
      | c :: cursor' =>
          if c ≠ equals then
            .error (fail .expectedEquals skipped.2 (column skipped.1 origin.rest) origin.name)
          else
            let target := token cursor'
            if target.name = [] then
              .error (fail .expectedKey skipped.2 (column skipped.1 target.rest) [])
            else if target.rest ≠ [] ∧ target.rest.head? ≠ some newline then
              .error (fail .expectedEquals skipped.2 (column skipped.1 target.rest)
                (target.rest.take 1))
            else if capacity ≤ parsed.length then
              .error (fail .capacity skipped.2 1 origin.name)
            else
              match keyNameParse origin.name with
              | none =>
                  .error (fail .unknownKey skipped.2 (column skipped.1 origin.start) origin.name)
              | some source =>
                  match keyNameParse target.name with
                  | none =>
                      .error
                        (fail .unknownKey skipped.2 (column skipped.1 target.start) target.name)
                  | some usage =>
                      overridesLoop capacity target.rest skipped.2 (parsed ++ [⟨source, usage⟩])
termination_by cursor.length
decreasing_by
  have hskip : skipped.1.length ≤ cursor.length := length_skipLines cursor line
  have htoken : origin.rest.length < skipped.1.length := length_token_rest_lt ‹¬origin.name = []›
  have htarget : (token cursor').rest.length ≤ cursor'.length := length_token_rest cursor'
  have hbehind := congrArg List.length ‹origin.rest = c :: cursor'›
  rw [List.length_cons] at hbehind
  omega

/-- The loop of `dh_config_text_parse_keys`. -/
def keysLoop (capacity : Nat) (cursor : List UInt8) (line : Nat) (parsed : List UInt8) :
    Except TextError (List UInt8) :=
  let skipped := skipLines cursor line
  if skipped.1 = [] then .ok parsed
  else if skipped.1.head? = some comma then .error (fail .expectedKey skipped.2 1 [])
  else
    let key := token skipped.1
    if _ : key.name = [] then .error (fail .expectedKey skipped.2 1 [])
    else if capacity ≤ parsed.length then .error (fail .capacity skipped.2 1 key.name)
    else
      match keyNameParse key.name with
      | none => .error (fail .unknownKey skipped.2 (column skipped.1 key.start) key.name)
      | some usage =>
          match _ : key.rest with
          | [] => .ok (parsed ++ [usage])
          | c :: cursor' =>
              if c = newline then keysLoop capacity (c :: cursor') skipped.2 (parsed ++ [usage])
              else if c = comma then
                let lookahead := cursor'.dropWhile isSpace
                if lookahead = [] ∨ lookahead.head? = some comma ∨
                    lookahead.head? = some newline then
                  .error (fail .expectedKey skipped.2 (column skipped.1 lookahead) [])
                else keysLoop capacity cursor' skipped.2 (parsed ++ [usage])
              else .error (fail .expectedKey skipped.2 (column skipped.1 (c :: cursor')) [c])
termination_by cursor.length
decreasing_by
  all_goals
    have hskip : skipped.1.length ≤ cursor.length := length_skipLines cursor line
    have htoken : key.rest.length < skipped.1.length := length_token_rest_lt ‹¬key.name = []›
    have hbehind := congrArg List.length ‹key.rest = c :: cursor'›
    rw [List.length_cons] at hbehind
    grind

/-- The loop of `dh_config_text_parse_chord` over the rest of a text. -/
def chordLoop (text cursor : List UInt8) (parsed : List UInt8) : Except TextError (List UInt8) :=
  let key := token cursor
  if _ : key.name = [] then .error (fail .expectedKey 1 (column text key.rest) [])
  else if chordCapacity ≤ parsed.length then
    .error (fail .capacity 1 (column text key.start) key.name)
  else
    match keyNameParse key.name with
    | none => .error (fail .unknownKey 1 (column text key.start) key.name)
    | some usage =>
        match _ : key.rest with
        | [] => .ok (parsed ++ [usage])
        | c :: cursor' =>
            if c ≠ plus then .error (fail .expectedKey 1 (column text (c :: cursor')) [c])
            else if cursor' = [] ∨ cursor'.head? = some plus then
              .error (fail .expectedKey 1 (column text cursor') [])
            else chordLoop text cursor' (parsed ++ [usage])
termination_by cursor.length
decreasing_by
  have htoken : key.rest.length < cursor.length := length_token_rest_lt ‹¬key.name = []›
  have hbehind := congrArg List.length ‹key.rest = c :: cursor'›
  rw [List.length_cons] at hbehind
  omega

/-- The table of overrides a text gives. -/
def overridesOf (text : List UInt8) (capacity : Nat) : Except TextError (List KeyOverride) :=
  if overrideCapacity < capacity then .error (fail .capacity 1 1 [])
  else overridesLoop capacity text 1 []

/-- The table of keys a text gives. -/
def keysOf (text : List UInt8) (capacity : Nat) : Except TextError (List UInt8) :=
  if passthroughCapacity < capacity then .error (fail .capacity 1 1 [])
  else keysLoop capacity text 1 []

/-- The keys of a chord a text gives. -/
def chordOf (text : List UInt8) : Except TextError (List UInt8) :=
  if text = [] then .error (fail .expectedKey 1 1 []) else chordLoop text text []

/-- What a parser leaves behind: its result, the caller's table and count, and the error. -/
structure Outcome (α : Type) where
  succeeded : Bool
  output : List α
  count : Nat
  error : TextError

/-- The table goes out over the caller's when there is one. -/
def copyOut {α : Type} (output : List α) (count : Nat) : Except TextError (List α) → Outcome α
  | .ok parsed => ⟨true, parsed ++ output.drop parsed.length, parsed.length, clearError⟩
  | .error e => ⟨false, output, count, e⟩

/-- `dh_config_text_parse_overrides`. -/
def parseOverrides (text : List UInt8) (output : List KeyOverride) (capacity count : Nat) :
    Outcome KeyOverride := copyOut output count (overridesOf text capacity)

/-- `dh_config_text_parse_keys`. -/
def parseKeys (text output : List UInt8) (capacity count : Nat) : Outcome UInt8 :=
  copyOut output count (keysOf text capacity)

/-- `dh_config_text_parse_chord`: the keys of the chord and their number. -/
def parseChord (text keys : List UInt8) (keyCount : Nat) : Outcome UInt8 :=
  match chordOf text with
  | .ok parsed =>
      ⟨true, parsed ++ List.replicate (chordCapacity - parsed.length) 0, parsed.length, clearError⟩
  | .error e => ⟨false, keys, keyCount, e⟩

end DeskhopPlus.Config
