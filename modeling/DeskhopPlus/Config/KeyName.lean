import Mathlib.Data.List.Basic

/-!
# The names of keys

The names a configuration text gives to HID usages, `dh_key_name_parse` and `dh_key_name`. Names are
read whatever their case and written in lower case.
-/

namespace DeskhopPlus.Config

/-- The bytes of a text. -/
def ascii (text : String) : List UInt8 := text.toList.map fun c ↦ UInt8.ofNat c.toNat

/-- `named_keys`. -/
def namedKeys : List (List UInt8 × UInt8) :=
  [(ascii "enter", 0x28), (ascii "esc", 0x29), (ascii "backspace", 0x2a), (ascii "tab", 0x2b),
   (ascii "space", 0x2c), (ascii "minus", 0x2d), (ascii "equals", 0x2e), (ascii "lbracket", 0x2f),
   (ascii "rbracket", 0x30), (ascii "backslash", 0x31), (ascii "semicolon", 0x33),
   (ascii "quote", 0x34), (ascii "grave", 0x35), (ascii "comma", 0x36), (ascii "period", 0x37),
   (ascii "slash", 0x38), (ascii "capslock", 0x39), (ascii "printscreen", 0x46),
   (ascii "scrolllock", 0x47), (ascii "insert", 0x49), (ascii "home", 0x4a), (ascii "pageup", 0x4b),
   (ascii "delete", 0x4c), (ascii "end", 0x4d), (ascii "pagedown", 0x4e), (ascii "right", 0x4f),
   (ascii "left", 0x50), (ascii "down", 0x51), (ascii "up", 0x52), (ascii "numlock", 0x53),
   (ascii "kp_divide", 0x54), (ascii "kp_multiply", 0x55), (ascii "kp_minus", 0x56),
   (ascii "kp_plus", 0x57), (ascii "kp_enter", 0x58), (ascii "kp1", 0x59), (ascii "kp2", 0x5a),
   (ascii "kp3", 0x5b), (ascii "kp4", 0x5c), (ascii "kp5", 0x5d), (ascii "kp6", 0x5e),
   (ascii "kp7", 0x5f), (ascii "kp8", 0x60), (ascii "kp9", 0x61), (ascii "kp0", 0x62),
   (ascii "kp_period", 0x63), (ascii "lctrl", 0xe0), (ascii "lshift", 0xe1), (ascii "lalt", 0xe2),
   (ascii "lgui", 0xe3), (ascii "rctrl", 0xe4), (ascii "rshift", 0xe5), (ascii "ralt", 0xe6),
   (ascii "rgui", 0xe7)]

/-- A letter in lower case. -/
def lower (c : UInt8) : UInt8 := if 0x41 ≤ c ∧ c ≤ 0x5a then c + 0x20 else c

/-- `ascii_equal`. -/
def asciiEqual (input known : List UInt8) : Bool := input.map lower == known

/-- A digit. -/
def isDigit (c : UInt8) : Bool := decide (0x30 ≤ c ∧ c ≤ 0x39)

/-- The usage of a name of one character, already in lower case, or none. -/
def parseShort (c : UInt8) : UInt8 :=
  if 0x61 ≤ c ∧ c ≤ 0x7a then 0x04 + (c - 0x61)
  else if 0x31 ≤ c ∧ c ≤ 0x39 then 0x1e + (c - 0x31)
  else if c = 0x30 then 0x27
  else 0

/-- The number that the digits behind the letter of a function key spell. -/
def functionNumber (digits : List UInt8) : Nat :=
  digits.foldl (fun number digit ↦ number * 10 + (digit.toNat - 0x30)) 0

/-- The usage `dh_key_name_parse` has before it looks at the names, none being zero; or it gives
up. -/
def parseUnnamed (first : UInt8) (rest : List UInt8) : Option UInt8 :=
  if rest = [] then some (parseShort (lower first))
  else if lower first = 0x66 ∧ rest.length ≤ 2 then
    if rest.all isDigit then
      if 1 ≤ functionNumber rest ∧ functionNumber rest ≤ 12 then
        some (UInt8.ofNat (0x3a + functionNumber rest - 1))
      else some 0
    else none
  else some 0

/-- `dh_key_name_parse`. -/
def keyNameParse : List UInt8 → Option UInt8
  | [] => none
  | first :: rest =>
      match parseUnnamed first rest with
      | none => none
      | some usage =>
          if usage ≠ 0 then some usage
          else (namedKeys.find? fun named ↦ asciiEqual (first :: rest) named.1).map Prod.snd

/-- `dh_key_name`. -/
def keyName (usage : UInt8) : Option (List UInt8) :=
  if 0x04 ≤ usage ∧ usage ≤ 0x1d then some [0x61 + (usage - 0x04)]
  else if 0x1e ≤ usage ∧ usage ≤ 0x26 then some [0x31 + (usage - 0x1e)]
  else if usage = 0x27 then some [0x30]
  else if 0x3a ≤ usage ∧ usage ≤ 0x42 then some [0x66, 0x31 + (usage - 0x3a)]
  else if 0x43 ≤ usage ∧ usage ≤ 0x45 then some [0x66, 0x31, 0x30 + (usage - 0x43)]
  else (namedKeys.find? fun named ↦ named.2 == usage).map Prod.fst

/-! ## Characters of names -/

/-- A letter, a digit or an underscore. -/
def isNameChar (c : UInt8) : Bool :=
  isDigit c || decide (0x41 ≤ c ∧ c ≤ 0x5a) || decide (0x61 ≤ c ∧ c ≤ 0x7a) || c == 0x5f

theorem isNameChar_lower {c : UInt8} (h : isNameChar (lower c) = true) : isNameChar c = true := by
  rw [lower] at h
  split_ifs at h with hupper
  · simp [isNameChar, hupper]
  · exact h

theorem namedKeys_nameChar : ∀ named ∈ namedKeys, ∀ c ∈ named.1, isNameChar c = true := by
  decide +kernel

theorem parseShort_nameChar {c : UInt8} (h : parseShort c ≠ 0) : isNameChar c = true := by
  rw [parseShort] at h
  split_ifs at h with hletter hdigit hzero
  · simp [isNameChar, hletter]
  · simp only [isNameChar, isDigit, Bool.or_eq_true, decide_eq_true_eq]
    exact .inl (.inl (.inl ⟨UInt8.le_trans (by decide) hdigit.1, hdigit.2⟩))
  · rw [hzero]
    rfl
  · exact absurd rfl h

/-- A name that is read has a character at least, and all its characters are those of names. -/
theorem keyNameParse_nameChars {name : List UInt8} {usage : UInt8}
    (h : keyNameParse name = some usage) : name ≠ [] ∧ ∀ c ∈ name, isNameChar c = true := by
  rcases name with - | ⟨first, rest⟩
  · cases h
  · refine ⟨List.cons_ne_nil _ _, ?_⟩
    have hnamed : ((namedKeys.find? fun named ↦ asciiEqual (first :: rest) named.1).map Prod.snd) =
        some usage → ∀ c ∈ first :: rest, isNameChar c = true := by
      intro hfind c hc
      obtain ⟨named, hnamed, -⟩ := Option.map_eq_some_iff.1 hfind
      have hequal := List.find?_some hnamed
      rw [asciiEqual, beq_iff_eq] at hequal
      refine isNameChar_lower (namedKeys_nameChar named (List.mem_of_find?_eq_some hnamed) _ ?_)
      rw [← hequal]
      exact List.mem_map_of_mem hc
    rw [keyNameParse] at h
    rcases hunnamed : parseUnnamed first rest with - | parsed
    · rw [hunnamed] at h
      cases h
    · rw [hunnamed] at h
      dsimp only at h
      split_ifs at h with hzero
      · rw [parseUnnamed] at hunnamed
        split_ifs at hunnamed with hshort hfunction hdigits hnumber
        · subst hshort
          rintro c (_ | ⟨_, ⟨⟩⟩)
          refine isNameChar_lower (parseShort_nameChar ?_)
          rw [Option.some.inj hunnamed]
          exact hzero
        · rintro c (_ | ⟨_, hc⟩)
          · refine isNameChar_lower ?_
            rw [hfunction.1]
            rfl
          · have hdigit := List.all_eq_true.1 hdigits c hc
            simp [isNameChar, hdigit]
        · exact absurd (Option.some.inj hunnamed).symm hzero
        · exact absurd (Option.some.inj hunnamed).symm hzero
      · exact hnamed h

/-- The name of a usage is read as that usage. -/
theorem keyNameParse_keyName {usage : UInt8} {name : List UInt8} (h : keyName usage = some name) :
    keyNameParse name = some usage := by
  have hall : ∀ n < 256, ∀ name ∈ keyName (UInt8.ofNat n),
      keyNameParse name = some (UInt8.ofNat n) := by
    decide +kernel
  have husage := hall usage.toNat usage.toNat_lt
  rw [UInt8.ofNat_toNat] at husage
  exact husage name h

end DeskhopPlus.Config
