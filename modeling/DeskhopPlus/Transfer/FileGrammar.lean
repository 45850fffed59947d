import DeskhopPlus.Transfer.FileList

/-!
# The grammar of a file list

What `dh_file_list_decode` accepts: an array of objects as tokens with blanks between them. Each
reader of the decoder reads one token, stays within the text, and reads every text that goes on with
that token.
-/

namespace DeskhopPlus.Transfer

open Tokens Wire

/-- The number some digits spell behind a number. -/
def decimalFrom (value : Nat) (digits : List UInt8) : Nat :=
  digits.foldl (fun value digit ↦ value * 10 + (digit.toNat - 0x30)) value

/-- The number some digits spell. -/
def decimal (digits : List UInt8) : Nat := decimalFrom 0 digits

/-- An object as it is spelled: the bytes of the name and the digits of the size. -/
structure Spelled where
  name : List UInt8
  digits : List UInt8

/-- The name is free of escapes and short enough, the size a number of 64 bits. -/
structure Spelled.Legible (item : Spelled) : Prop where
  plain : ∀ byte ∈ item.name, byte ≠ quote ∧ byte ≠ backslash
  name_le : item.name.length ≤ fileNameMax
  some_digit : item.digits ≠ []
  digits_only : ∀ byte ∈ item.digits, isDigit byte = true
  size_lt : decimal item.digits < 2 ^ 64

/-- The entry an object is read as. -/
def Spelled.entry (item : Spelled) : FileEntry := ⟨item.name, UInt64.ofNat (decimal item.digits)⟩

/-- The tokens of an object. -/
def Spelled.tokens (item : Spelled) : List (List UInt8) :=
  [[openBrace], nameKey, [colon], quote :: (item.name ++ [quote]), [comma], sizeKey, [colon],
    item.digits, [closeBrace]]

/-- The tokens of some objects and of the bracket behind them. -/
def itemTokens : Bool → List Spelled → List (List UInt8)
  | _, [] => [[closeBracket]]
  | first, item :: rest =>
      (if first then [] else [[comma]]) ++ (item.tokens ++ itemTokens false rest)

/-- The tokens of a list. -/
def listTokens (items : List Spelled) : List (List UInt8) := [openBracket] :: itemTokens true items

/-- The sizes of some entries, added up. -/
def sizeSum (entries : List FileEntry) : Nat := (entries.map fun entry ↦ entry.size.toNat).sum

/-- The text is a list of one to 64 objects with blanks between the tokens. The names are clean and
the sizes add up to a number of 64 bits. -/
structure IsFileList (json : List UInt8) (items : List Spelled) : Prop where
  spaced : Spaced isSpace (listTokens items) json
  some_item : items ≠ []
  count_le : items.length ≤ fileListMax
  legible : ∀ item ∈ items, item.Legible
  clean : ∀ item ∈ items, fileNameIsClean item.name = true
  total_lt : sizeSum (items.map Spelled.entry) < 2 ^ 64

/-! ## What a reader does -/

variable {β γ : Type}

/-- The reader stays within its memory, and a result it has is a good one. -/
def Meets (result : Except Stop β) (good : β → Prop) : Prop :=
  match result with
  | .ok value => good value
  | .error .refused => True
  | .error .outside => False

/-- One parser behind another. -/
theorem Meets.bind {result : Except Stop β} {next : β → Except Stop γ} {good : β → Prop}
    {better : γ → Prop} (h : Meets result good)
    (hnext : ∀ value, good value → Meets (next value) better) :
    Meets (result >>= next) better := by
  match result, h with
  | .ok value, h => exact hnext value h
  | .error .refused, _ => trivial

/-- What is met may be weakened. -/
theorem Meets.mono {result : Except Stop β} {good better : β → Prop} (h : Meets result good)
    (hnext : ∀ value, good value → better value) : Meets result better := by
  match result, h with
  | .ok value, h => exact hnext value h
  | .error .refused, _ => trivial

/-- A refusal meets everything. -/
theorem meets_refused {good : β → Prop} : Meets (.error .refused) good := trivial

variable {text after token : List UInt8}

/-- The memory of a cursor at the start of a text is the text. -/
@[simp] theorem whole_memory (text : List UInt8) : (Cursor.whole text).memory = text := rfl

/-- All of it is left. -/
@[simp] theorem whole_left (text : List UInt8) : (Cursor.whole text).left = text.length := rfl

/-- A cursor that advances drops what it passed. -/
theorem whole_advance (text : List UInt8) (count : Nat) :
    (Cursor.whole text).advance count = .whole (text.drop count) := by
  show Cursor.mk (text.drop count) (text.length - count) =
    Cursor.mk (text.drop count) (text.drop count).length
  rw [List.length_drop]

/-- A value is handed on. -/
@[simp] theorem ok_bind (value : β) (next : β → Except Stop γ) :
    (Except.ok value >>= next) = next value := rfl

/-- An error is not. -/
@[simp] theorem error_bind (stop : Stop) (next : β → Except Stop γ) :
    (Except.error stop >>= next) = .error stop := rfl

/-- Spaces at the start are skipped. -/
theorem skipSpace_whole (text : List UInt8) :
    skipSpace text text.length = .ok (.whole (text.dropWhile isSpace)) := by
  induction text with
  | nil => rfl
  | cons byte after ih =>
      rw [List.length_cons, skipSpace, List.dropWhile_cons]
      split
      · exact ih
      · rfl

/-- A byte that is no blank, as a token. -/
theorem solid_byte {byte : UInt8} (h : isSpace byte = false) : Solid isSpace [byte] :=
  ⟨byte, [], rfl, h⟩

/-- One byte behind spaces is taken. -/
theorem take_whole (text : List UInt8) (byte : UInt8) :
    take (.whole text) byte =
      match text.dropWhile isSpace with
      | [] => .error .refused
      | first :: after => if first = byte then .ok (.whole after) else .error .refused := by
  rw [take, whole_memory, whole_left, skipSpace_whole, ok_bind]
  cases text.dropWhile isSpace with
  | nil => rfl
  | cons first after =>
      have hleft : (Cursor.whole (first :: after)).left ≠ 0 := Nat.succ_ne_zero after.length
      rw [if_neg hleft, whole_advance]
      show (if first ≠ byte then Except.error Stop.refused else Except.ok (Cursor.whole after)) =
        if first = byte then Except.ok (Cursor.whole after) else Except.error .refused
      rw [ite_not]

/-- It is taken where it follows. -/
theorem take_follows {byte : UInt8} (h : Follows isSpace [byte] text after)
    (hbyte : isSpace byte = false) : take (.whole text) byte = .ok (.whole after) := by
  rw [take_whole, (follows_iff (solid_byte hbyte)).mp h]
  exact if_pos rfl

/-- What is taken followed. -/
theorem take_meets (text : List UInt8) {byte : UInt8} (hbyte : isSpace byte = false) :
    Meets (take (.whole text) byte) fun c ↦
      ∃ after, c = .whole after ∧ Follows isSpace [byte] text after := by
  rw [take_whole]
  split
  · exact meets_refused
  · next first after hdrop =>
      split
      · next hfirst =>
          rw [hfirst] at hdrop
          exact ⟨after, rfl, (follows_iff (solid_byte hbyte)).mpr hdrop⟩
      · exact meets_refused

/-- A token behind spaces is taken. -/
theorem takeText_whole (text token : List UInt8) :
    takeText (.whole text) token =
      if token <+: text.dropWhile isSpace then
        .ok (.whole ((text.dropWhile isSpace).drop token.length))
      else .error .refused := by
  rw [takeText, whole_memory, whole_left, skipSpace_whole, ok_bind, whole_advance, whole_memory,
    whole_left]
  by_cases hshort : (text.dropWhile isSpace).length < token.length
  · rw [if_pos hshort, if_neg fun hprefix ↦ absurd hprefix.length_le (Nat.not_le.mpr hshort)]
  · rw [if_neg hshort, if_neg hshort, ite_not]
    have hiff : (text.dropWhile isSpace).take token.length = token ↔
        token <+: text.dropWhile isSpace :=
      eq_comm.trans List.prefix_iff_eq_take.symm
    simp only [hiff]

/-- It is taken where it follows. -/
theorem takeText_follows (h : Follows isSpace token text after) (htoken : Solid isSpace token) :
    takeText (.whole text) token = .ok (.whole after) := by
  rw [takeText_whole, (follows_iff htoken).mp h, if_pos (List.prefix_append token after),
    List.drop_left]

/-- What is taken followed. -/
theorem takeText_meets (text : List UInt8) (htoken : Solid isSpace token) :
    Meets (takeText (.whole text) token) fun c ↦
      ∃ after, c = .whole after ∧ Follows isSpace token text after := by
  rw [takeText_whole]
  split
  · next hprefix =>
      obtain ⟨after, hafter⟩ := hprefix
      refine ⟨after, ?_, (follows_iff htoken).mpr hafter.symm⟩
      rw [← hafter, List.drop_left]
  · exact meets_refused

/-! ## Strings -/

/-- The loop stops at the first quotation mark, at the end of the text, or at a backslash. -/
theorem stringLength_meets (text : List UInt8) :
    Meets (stringLength text text.length) fun count ↦
      (∀ byte ∈ text.take count, byte ≠ quote ∧ byte ≠ backslash) ∧
        (count < text.length → ∃ after, text.drop count = quote :: after) := by
  induction text with
  | nil => exact ⟨by simp, by simp⟩
  | cons byte after ih =>
      rw [List.length_cons, stringLength]
      split
      · next hquote => exact ⟨by simp, fun _ ↦ ⟨after, by rw [hquote]; rfl⟩⟩
      split
      · exact meets_refused
      next hquote hbackslash =>
        refine ih.bind fun count hcount ↦ ⟨?_, fun hlt ↦ hcount.2 (by omega)⟩
        rw [List.take_succ_cons]
        exact List.forall_mem_cons.mpr ⟨⟨hquote, hbackslash⟩, hcount.1⟩

/-- A string ends at its quote. -/
theorem stringLength_body {body : List UInt8}
    (hbody : ∀ byte ∈ body, byte ≠ quote ∧ byte ≠ backslash) (after : List UInt8) :
    stringLength (body ++ quote :: after) (body ++ quote :: after).length = .ok body.length := by
  induction body with
  | nil => rfl
  | cons byte body ih =>
      obtain ⟨⟨hquote, hbackslash⟩, hrest⟩ := List.forall_mem_cons.mp hbody
      rw [List.cons_append, List.length_cons, stringLength, if_neg hquote, if_neg hbackslash,
        ih hrest]
      rfl

/-- A name in quotes is taken where it follows. -/
theorem takeString_follows {name : List UInt8}
    (h : Follows isSpace (quote :: (name ++ [quote])) text after)
    (hplain : ∀ byte ∈ name, byte ≠ quote ∧ byte ≠ backslash)
    (hlength : name.length ≤ fileNameMax) :
    takeString (.whole text) = .ok (name, .whole after) := by
  have hopen : Follows isSpace [quote] text (name ++ quote :: after) := by
    obtain ⟨gap, hgap, rfl⟩ := h
    exact ⟨gap, hgap, by simp⟩
  rw [takeString, take_follows hopen (by decide), ok_bind, whole_memory, whole_left,
    stringLength_body hplain after, ok_bind, whole_advance, if_neg (by simp),
    if_neg (Nat.not_lt.mpr hlength), List.take_left, ← List.drop_drop, List.drop_left]
  rfl

/-- What is taken was a name in quotes, short enough and plain. -/
theorem takeString_meets (text : List UInt8) :
    Meets (takeString (.whole text)) fun (name, c) ↦
      ∃ after, c = .whole after ∧ Follows isSpace (quote :: (name ++ [quote])) text after ∧
        (∀ byte ∈ name, byte ≠ quote ∧ byte ≠ backslash) ∧ name.length ≤ fileNameMax := by
  rw [takeString]
  refine (take_meets text (by decide)).bind ?_
  rintro _ ⟨inner, rfl, hopen⟩
  rw [whole_memory, whole_left]
  refine (stringLength_meets inner).bind fun count hcount ↦ ?_
  split
  · exact meets_refused
  split
  · exact meets_refused
  next hlt hmax =>
    obtain ⟨after, hafter⟩ := hcount.2 (Nat.lt_of_not_le hlt)
    refine ⟨after, ?_, ?_, hcount.1, ?_⟩
    · rw [whole_advance, ← List.drop_drop, hafter]
      rfl
    · obtain ⟨gap, hgap, rfl⟩ := hopen
      have hinner : inner = inner.take count ++ quote :: after := by
        rw [← hafter, List.take_append_drop]
      refine ⟨gap, hgap, ?_⟩
      calc gap ++ ([quote] ++ inner) = gap ++ ([quote] ++ (inner.take count ++ quote :: after)) :=
            congrArg (fun inner ↦ gap ++ ([quote] ++ inner)) hinner
        _ = gap ++ (quote :: (inner.take count ++ [quote]) ++ after) := by simp
    · rw [List.length_take]
      omega

/-! ## Numbers -/

/-- One digit more. -/
theorem decimalFrom_cons (value : Nat) (digit : UInt8) (digits : List UInt8) :
    decimalFrom value (digit :: digits) =
      decimalFrom (value * 10 + (digit.toNat - 0x30)) digits := by
  rw [decimalFrom, List.foldl_cons, ← decimalFrom]

/-- A digit is at most nine. -/
theorem digit_le {byte : UInt8} (h : isDigit byte = true) : byte.toNat - 0x30 ≤ 9 := by
  rw [isDigit, Bool.and_eq_true, decide_eq_true_iff, decide_eq_true_iff, UInt8.le_iff_toNat_le,
    UInt8.le_iff_toNat_le] at h
  have hnine : (0x39 : UInt8).toNat = 0x39 := rfl
  omega

set_option maxRecDepth 4096 in
/-- A digit is no space. -/
theorem digit_not_space {byte : UInt8} (h : isDigit byte = true) : isSpace byte = false :=
  forall_byte (fun byte ↦ isDigit byte = true → isSpace byte = false) (by decide)
    byte h

/-- More digits never spell a smaller number. -/
theorem le_decimalFrom (value : Nat) (digits : List UInt8) : value ≤ decimalFrom value digits := by
  induction digits generalizing value with
  | nil => exact Nat.le_refl value
  | cons digit digits ih =>
      have hrest := ih (value * 10 + (digit.toNat - 0x30))
      rw [decimalFrom_cons]
      omega

/-- The loop takes the digits in front, while their number has 64 bits. -/
theorem takeDigits_meets (text : List UInt8) {value : Nat} (count : Nat)
    (hvalue : value ≤ uint64Max) :
    Meets (takeDigits text text.length value count) fun (number, taken, c) ↦
      ∃ digits after, text = digits ++ after ∧ c = .whole after ∧
        (∀ byte ∈ digits, isDigit byte = true) ∧ number = decimalFrom value digits ∧
        taken = count + digits.length ∧ number ≤ uint64Max := by
  induction text generalizing value count with
  | nil => exact ⟨[], [], rfl, rfl, by simp, rfl, rfl, hvalue⟩
  | cons byte after ih =>
      rw [List.length_cons, takeDigits]
      dsimp only
      split
      · next hdigit =>
          split
          · exact meets_refused
          next hroom =>
            have hnext : value * 10 + (byte.toNat - 0x30) ≤ uint64Max := by
              have hnine := digit_le hdigit
              have hmax : uint64Max = 18446744073709551615 := rfl
              omega
            refine (ih (count + 1) hnext).mono ?_
            rintro ⟨number, taken, c⟩ ⟨digits, after, rfl, hc, hdigits, hnumber, htaken, hmax⟩
            refine ⟨byte :: digits, after, rfl, hc, List.forall_mem_cons.mpr ⟨hdigit, hdigits⟩,
              hnumber, ?_, hmax⟩
            rw [List.length_cons]
            exact htaken.trans (by omega)
      · exact ⟨[], byte :: after, rfl, rfl, by simp, rfl, rfl, hvalue⟩

/-- All digits are taken, if the number is not too large. -/
theorem takeDigits_digits {digits : List UInt8} (hdigits : ∀ byte ∈ digits, isDigit byte = true)
    (hafter : ∀ byte, after.head? = some byte → isDigit byte = false) {value : Nat} (count : Nat)
    (hmax : decimalFrom value digits ≤ uint64Max) :
    takeDigits (digits ++ after) (digits ++ after).length value count =
      .ok (decimalFrom value digits, count + digits.length, .whole after) := by
  induction digits generalizing value count with
  | nil =>
      cases after with
      | nil => rfl
      | cons byte after =>
          rw [List.nil_append, List.length_cons, takeDigits, hafter byte rfl]
          rfl
  | cons digit digits ih =>
      obtain ⟨hdigit, hrest⟩ := List.forall_mem_cons.mp hdigits
      rw [decimalFrom_cons] at hmax
      have hle := le_decimalFrom (value * 10 + (digit.toNat - 0x30)) digits
      rw [List.cons_append, List.length_cons, takeDigits, if_pos hdigit]
      dsimp only
      rw [if_neg (by omega), ih hrest (count + 1) hmax, List.length_cons, Nat.add_right_comm]
      rfl

/-- Digits are a token without spaces at its start. -/
theorem solid_digits {digits : List UInt8} (hsome : digits ≠ [])
    (hdigits : ∀ byte ∈ digits, isDigit byte = true) : Solid isSpace digits := by
  obtain ⟨first, rest, rfl⟩ := List.exists_cons_of_ne_nil hsome
  exact ⟨first, rest, rfl, digit_not_space (hdigits first (.head rest))⟩

/-- A number is taken where it follows. -/
theorem takeU64_follows {digits : List UInt8} (h : Follows isSpace digits text after)
    (hsome : digits ≠ []) (hdigits : ∀ byte ∈ digits, isDigit byte = true)
    (hafter : ∀ byte, after.head? = some byte → isDigit byte = false)
    (hmax : decimal digits ≤ uint64Max) :
    takeU64 (.whole text) = .ok (decimal digits, .whole after) := by
  rw [takeU64, whole_memory, whole_left, skipSpace_whole,
    (follows_iff (solid_digits hsome hdigits)).mp h, ok_bind, whole_memory, whole_left,
    takeDigits_digits hdigits hafter 0 hmax, ok_bind]
  have hcount : 0 + digits.length ≠ 0 := by
    have := List.length_pos_iff.mpr hsome
    omega
  exact if_neg hcount

/-- What is taken was a number. -/
theorem takeU64_meets (text : List UInt8) :
    Meets (takeU64 (.whole text)) fun (number, c) ↦
      ∃ digits after, c = .whole after ∧ Follows isSpace digits text after ∧ digits ≠ [] ∧
        (∀ byte ∈ digits, isDigit byte = true) ∧ number = decimal digits ∧ number ≤ uint64Max := by
  rw [takeU64, whole_memory, whole_left, skipSpace_whole, ok_bind, whole_memory, whole_left]
  refine (takeDigits_meets _ 0 (Nat.zero_le _)).bind ?_
  rintro ⟨number, taken, c⟩ ⟨digits, after, htext, hc, hdigits, hnumber, htaken, hmax⟩
  dsimp only
  split
  · exact meets_refused
  next hcount =>
    have hsome : digits ≠ [] := by
      rintro rfl
      exact hcount htaken
    exact ⟨digits, after, hc, (follows_iff (solid_digits hsome hdigits)).mpr htext, hsome, hdigits,
      hnumber, hmax⟩

/-! ## Objects -/

/-- The two keys begin with no space. -/
theorem solid_key : Solid isSpace nameKey ∧ Solid isSpace sizeKey :=
  ⟨⟨quote, _, rfl, by decide⟩, ⟨quote, _, rfl, by decide⟩⟩

/-- No digit goes on with a number where a brace comes next. -/
theorem not_digit_of_follows (h : Follows isSpace [closeBrace] text after) :
    ∀ byte, text.head? = some byte → isDigit byte = false := by
  obtain ⟨symbol, rest, rfl, hsymbol⟩ := h.head (List.cons_ne_nil _ _)
  rintro byte hbyte
  rw [List.head?_cons, Option.some.injEq] at hbyte
  rw [← hbyte]
  rcases hsymbol with hspace | hbrace
  · refine Bool.eq_false_iff.mpr fun hdigit ↦ ?_
    rw [digit_not_space hdigit] at hspace
    cases hspace
  · rw [List.head?_cons, Option.some.injEq] at hbrace
    rw [← hbrace]
    rfl

/-- An object is read as its entry when its name is clean, and refused otherwise. -/
theorem takeEntry_leads {item : Spelled} (hitem : item.Legible)
    (h : Leads isSpace item.tokens text after) :
    takeEntry (.whole text) =
      if fileNameIsClean item.name = false then .error .refused
      else .ok (item.entry, .whole after) := by
  obtain ⟨_, hbrace, _, hname, _, hcolon, _, hstring, _, hcomma, _, hsize, _,
    hcolon', _, hdigits, _,
    hclose, rfl⟩ := h
  have hmax : decimal item.digits ≤ uint64Max := Nat.le_sub_one_of_lt hitem.size_lt
  rw [takeEntry, take_follows hbrace (by decide), ok_bind, takeText_follows hname solid_key.1,
    ok_bind, take_follows hcolon (by decide), ok_bind,
    takeString_follows hstring hitem.plain hitem.name_le, ok_bind]
  dsimp only
  split
  · rfl
  · rw [take_follows hcomma (by decide), ok_bind, takeText_follows hsize solid_key.2, ok_bind,
      take_follows hcolon' (by decide), ok_bind,
      takeU64_follows hdigits hitem.some_digit hitem.digits_only (not_digit_of_follows hclose) hmax,
      ok_bind]
    dsimp only
    rw [take_follows hclose (by decide)]
    rfl

/-- What is read as an entry is an object with a clean name. -/
theorem takeEntry_meets (text : List UInt8) :
    Meets (takeEntry (.whole text)) fun (entry, c) ↦
      ∃ item after, c = .whole after ∧ Leads isSpace (Spelled.tokens item) text after ∧
        item.Legible ∧ fileNameIsClean item.name = true ∧ entry = item.entry := by
  rw [takeEntry]
  refine (take_meets text (by decide)).bind ?_
  rintro _ ⟨text₁, rfl, hbrace⟩
  refine (takeText_meets text₁ solid_key.1).bind ?_
  rintro _ ⟨text₂, rfl, hname⟩
  refine (take_meets text₂ (by decide)).bind ?_
  rintro _ ⟨text₃, rfl, hcolon⟩
  refine (takeString_meets text₃).bind ?_
  rintro ⟨name, _⟩ ⟨text₄, rfl, hstring, hplain, hlength⟩
  dsimp only
  split
  · exact meets_refused
  next hclean =>
    refine (take_meets text₄ (by decide)).bind ?_
    rintro _ ⟨text₅, rfl, hcomma⟩
    refine (takeText_meets text₅ solid_key.2).bind ?_
    rintro _ ⟨text₆, rfl, hsize⟩
    refine (take_meets text₆ (by decide)).bind ?_
    rintro _ ⟨text₇, rfl, hcolon'⟩
    refine (takeU64_meets text₇).bind ?_
    rintro ⟨number, _⟩ ⟨digits, text₈, rfl, hdigits, hsome, honly, rfl, hmax⟩
    refine (take_meets text₈ (by decide)).bind ?_
    rintro _ ⟨after, rfl, hclose⟩
    have hlt : decimal digits < 2 ^ 64 := Nat.lt_of_le_sub_one (by decide) hmax
    exact ⟨⟨name, digits⟩, after, rfl,
      ⟨_, hbrace, _, hname, _, hcolon, _, hstring, _, hcomma, _, hsize, _, hcolon', _, hdigits, _,
        hclose, rfl⟩,
      ⟨hplain, hlength, hsome, honly, hlt⟩, Bool.eq_true_of_not_eq_false hclean, rfl⟩

/-! ## The loop over the objects -/

/-- The tokens from some object on begin with one that is no blank. -/
theorem itemTokens_solid (first : Bool) (items : List Spelled) :
    ∃ token rest, itemTokens first items = token :: rest ∧ Solid isSpace token := by
  cases items with
  | nil => exact ⟨_, _, rfl, solid_byte (by decide)⟩
  | cons item items =>
      cases first with
      | true => exact ⟨_, _, rfl, solid_byte (by decide)⟩
      | false => exact ⟨_, _, rfl, solid_byte (by decide)⟩

/-- Spaces before an object are of no account. -/
theorem itemTokens_dropWhile (first : Bool) (items : List Spelled) :
    Leads isSpace (itemTokens first items) (text.dropWhile isSpace) after ↔
      Leads isSpace (itemTokens first items) text after := by
  obtain ⟨token, rest, htokens, hsolid⟩ := itemTokens_solid first items
  rw [htokens]
  exact leads_dropWhile hsolid

/-- One size more. -/
theorem sizeSum_cons (entry : FileEntry) (entries : List FileEntry) :
    sizeSum (entry :: entries) = entry.size.toNat + sizeSum entries := rfl

/-- The comma in front of an object that is not the first. -/
theorem takeComma_leads {entries : List FileEntry} {tokens : List (List UInt8)}
    (h : Leads isSpace ((if entries.isEmpty then [] else [[comma]]) ++ tokens) text after) :
    ∃ middle, takeComma (.whole text) entries = .ok (.whole middle) ∧
      Leads isSpace tokens middle after := by
  cases entries with
  | nil => exact ⟨text, rfl, h⟩
  | cons entry entries =>
      obtain ⟨middle, hcomma, hrest⟩ := h
      exact ⟨middle, take_follows hcomma (by decide), hrest⟩

/-- A comma is taken before each object but the first. -/
theorem takeComma_meets (text : List UInt8) (entries : List FileEntry) :
    Meets (takeComma (.whole text) entries) fun c ↦
      ∃ middle, c = .whole middle ∧ ∀ tokens after, Leads isSpace tokens middle after →
        Leads isSpace ((if entries.isEmpty then [] else [[comma]]) ++ tokens) text after := by
  cases entries with
  | nil => exact ⟨text, rfl, fun _ _ h ↦ h⟩
  | cons entry entries =>
      refine (take_meets text (by decide)).mono ?_
      rintro _ ⟨middle, rfl, hcomma⟩
      exact ⟨middle, rfl, fun _ _ h ↦ ⟨middle, hcomma, h⟩⟩

/-- A size is a number of 64 bits. -/
theorem size_le (entry : FileEntry) : entry.size.toNat ≤ uint64Max :=
  Nat.le_sub_one_of_lt entry.size.toNat_lt

/-- At a closing bracket the loop ends. -/
theorem takeEntries_exit (room : Nat) (rest : List UInt8) (entries : List FileEntry) (total : Nat) :
    takeEntries room (.whole (closeBracket :: rest)) entries total =
      .ok (entries, total, .whole (closeBracket :: rest)) := by
  cases room <;> rfl

/-- What the loop has read are objects with clean names, as many as there was room for, up to a
closing bracket. -/
theorem takeEntries_meets (room : Nat) (hsome : text ≠ []) (entries : List FileEntry) {total : Nat}
    (htotal : total ≤ uint64Max) :
    Meets (takeEntries room (.whole text) entries total) fun (all, sum, c) ↦
      ∃ items after, c = .whole (closeBracket :: after) ∧
        Leads isSpace (itemTokens entries.isEmpty items) text after ∧ items.length ≤ room ∧
        (∀ item ∈ items, item.Legible) ∧ (∀ item ∈ items, fileNameIsClean item.name = true) ∧
        all = entries ++ items.map Spelled.entry ∧
        sum = total + sizeSum (items.map Spelled.entry) ∧ sum ≤ uint64Max := by
  induction room generalizing text entries total with
  | zero =>
      obtain ⟨byte, rest, rfl⟩ := List.exists_cons_of_ne_nil hsome
      by_cases hbracket : byte = closeBracket
      · rw [hbracket, takeEntries_exit]
        exact ⟨[], rest, rfl, ⟨rest, ⟨[], by simp, rfl⟩, rfl⟩, Nat.le_refl 0, by simp, by simp,
          by simp, rfl, htotal⟩
      · -- no room is left, so an object that follows is refused
        rw [takeEntries]
        show Meets (if byte = closeBracket then _ else _) _
        rw [if_neg hbracket]
        exact (takeComma_meets _ entries).bind fun _ _ ↦ meets_refused
  | succ room ih =>
      obtain ⟨byte, rest, rfl⟩ := List.exists_cons_of_ne_nil hsome
      by_cases hbracket : byte = closeBracket
      · rw [hbracket, takeEntries_exit]
        exact ⟨[], rest, rfl, ⟨rest, ⟨[], by simp, rfl⟩, rfl⟩, Nat.zero_le _, by simp, by simp,
          by simp, rfl, htotal⟩
      rw [takeEntries]
      show Meets (if byte = closeBracket then _ else _) _
      rw [if_neg hbracket]
      refine (takeComma_meets _ entries).bind ?_
      rintro _ ⟨text₁, rfl, hcomma⟩
      refine (takeEntry_meets text₁).bind ?_
      rintro ⟨entry, _⟩ ⟨item, text₂, rfl, hitem, hlegible, hclean, rfl⟩
      dsimp only
      split
      · exact meets_refused
      next hroom =>
        rw [whole_memory, whole_left, skipSpace_whole, ok_bind]
        split
        · exact meets_refused
        next hleft =>
          have hsome' : text₂.dropWhile isSpace ≠ [] := fun hnil ↦ hleft (by rw [hnil]; rfl)
          have hsize := size_le item.entry
          refine (ih hsome' (entries ++ [item.entry]) (by omega)).mono ?_
          rintro ⟨all, sum, c⟩ ⟨items, after, hc, hitems, hlength, hall, hallclean, hentries, hsum,
            hmax⟩
          have hfirst : (entries ++ [item.entry]).isEmpty = false := by simp
          rw [hfirst, itemTokens_dropWhile] at hitems
          refine ⟨item :: items, after, hc, hcomma _ _ (leads_append.mpr ⟨text₂, hitem, hitems⟩),
            Nat.succ_le_succ hlength, List.forall_mem_cons.mpr ⟨hlegible, hall⟩,
            List.forall_mem_cons.mpr ⟨hclean, hallclean⟩, ?_, ?_, hmax⟩
          · rw [hentries, List.append_assoc]
            rfl
          · rw [hsum, List.map_cons, sizeSum_cons, Nat.add_assoc]

/-- The loop reads objects up to the closing bracket when their names are clean, there is room for
all and the sizes add up to 64 bits, and otherwise refuses them. -/
theorem takeEntries_leads {items : List Spelled} (hitems : ∀ item ∈ items, item.Legible)
    (room : Nat) {entries : List FileEntry} {total : Nat} (htotal : total ≤ uint64Max)
    (hstart : text.dropWhile isSpace = text)
    (h : Leads isSpace (itemTokens entries.isEmpty items) text after) :
    takeEntries room (.whole text) entries total =
      if (∀ item ∈ items, fileNameIsClean item.name = true) ∧ items.length ≤ room ∧
          total + sizeSum (items.map Spelled.entry) ≤ uint64Max then
        .ok (entries ++ items.map Spelled.entry, total + sizeSum (items.map Spelled.entry),
          .whole (closeBracket :: after))
      else .error .refused := by
  induction items generalizing text entries total room with
  | nil =>
      obtain ⟨middle, hbracket, rfl⟩ := h
      rw [follows_iff (solid_byte (by decide)), hstart] at hbracket
      rw [hbracket]
      show takeEntries room (.whole (closeBracket :: middle)) entries total = _
      rw [takeEntries_exit, if_pos ⟨by simp, Nat.zero_le room, htotal⟩]
      simp [sizeSum]
  | cons item items ih =>
      obtain ⟨hlegible, hrest⟩ := List.forall_mem_cons.mp hitems
      -- the text does not begin with the closing bracket
      obtain ⟨byte, tail, htext, hbyte⟩ : ∃ byte tail, text = byte :: tail ∧
          byte ≠ closeBracket := by
        cases hempty : entries.isEmpty with
        | true =>
            rw [hempty] at h
            obtain ⟨middle, hbrace, _⟩ := h
            rw [follows_iff (solid_byte (by decide)), hstart] at hbrace
            exact ⟨openBrace, middle, hbrace, by decide⟩
        | false =>
            rw [hempty] at h
            obtain ⟨middle, hcomma, _⟩ := h
            rw [follows_iff (solid_byte (by decide)), hstart] at hcomma
            exact ⟨comma, middle, hcomma, by decide⟩
      obtain ⟨middle, hcomma, hleads⟩ := takeComma_leads h
      obtain ⟨next, hitem, hnext⟩ := leads_append.mp hleads
      have hpeek : (Cursor.whole text).peek = .ok byte := by
        rw [htext]
        rfl
      cases room with
      | zero =>
          rw [if_neg fun hall ↦ Nat.not_succ_le_zero _ hall.2.1, takeEntries, hpeek, ok_bind,
            if_neg hbyte, hcomma]
          rfl
      | succ room =>
          have hsize := size_le item.entry
          rw [takeEntries, hpeek, ok_bind, if_neg hbyte, hcomma, ok_bind,
            takeEntry_leads hlegible hitem, List.map_cons, sizeSum_cons]
          by_cases hclean : fileNameIsClean item.name = true
          · rw [if_neg (by rw [hclean]; exact Bool.noConfusion), ok_bind]
            dsimp only
            by_cases hroom : uint64Max - item.entry.size.toNat < total
            · rw [if_pos hroom, if_neg fun hall ↦ ?_]
              obtain ⟨_, _, hsum⟩ := hall
              omega
            have hleft : (Cursor.whole (next.dropWhile isSpace)).left ≠ 0 := by
              obtain ⟨token, tokens, htokens, hsolid⟩ := itemTokens_solid false items
              rw [htokens] at hnext
              obtain ⟨last, hfollows, _⟩ := hnext
              obtain ⟨symbol, symbols, rfl, _⟩ := id hsolid
              rw [(follows_iff hsolid).mp hfollows]
              exact Nat.succ_ne_zero _
            have hfirst : (entries ++ [item.entry]).isEmpty = false := by simp
            have hlater : takeEntries room (.whole (next.dropWhile isSpace))
                (entries ++ [item.entry]) (total + item.entry.size.toNat) = _ :=
              ih hrest room (by omega) (List.dropWhile_idempotent isSpace next)
                (by rw [hfirst]; exact (itemTokens_dropWhile false items).mpr hnext)
            have hall : ((∀ item ∈ items, fileNameIsClean item.name = true) ∧ items.length ≤ room ∧
                  total + item.entry.size.toNat + sizeSum (items.map Spelled.entry) ≤ uint64Max) ↔
                (∀ other ∈ item :: items, fileNameIsClean other.name = true) ∧
                  (item :: items).length ≤ room + 1 ∧
                  total + (item.entry.size.toNat + sizeSum (items.map Spelled.entry)) ≤
                    uint64Max := by
              rw [List.forall_mem_cons, List.length_cons, Nat.add_le_add_iff_right, Nat.add_assoc]
              simp only [hclean, true_and]
            rw [if_neg hroom, whole_memory, whole_left, skipSpace_whole, ok_bind, if_neg hleft,
              hlater]
            by_cases hfits : (∀ item ∈ items, fileNameIsClean item.name = true) ∧
                items.length ≤ room ∧
                total + item.entry.size.toNat + sizeSum (items.map Spelled.entry) ≤ uint64Max
            · rw [if_pos hfits, if_pos (hall.mp hfits), List.append_assoc, Nat.add_assoc]
              rfl
            · rw [if_neg hfits, if_neg fun h ↦ hfits (hall.mpr h)]
          · rw [if_pos (Bool.eq_false_iff.mpr hclean),
              if_neg fun hall ↦ hclean (hall.1 item (.head _))]
            rfl

/-! ## The whole list -/

/-- What decoding gives for objects as a list. -/
def Spelled.list (items : List Spelled) : FileList :=
  ⟨items.map Spelled.entry, UInt64.ofNat (sizeSum (items.map Spelled.entry))⟩

/-- What is accepted is a list of the grammar. -/
theorem fileListDecode_meets (json : List UInt8) :
    Meets (fileListDecode json) fun list ↦ ∃ items, IsFileList json items ∧
      list = Spelled.list items := by
  rw [fileListDecode]
  refine (take_meets json (by decide)).bind ?_
  rintro _ ⟨text, rfl, hopen⟩
  rw [whole_memory, whole_left, skipSpace_whole, ok_bind]
  split
  · exact meets_refused
  next hleft =>
    have hsome : text.dropWhile isSpace ≠ [] := fun hnil ↦ hleft (by rw [hnil]; rfl)
    refine (takeEntries_meets fileListMax hsome [] (Nat.zero_le _)).bind ?_
    rintro ⟨entries, total, _⟩ ⟨items, after, rfl, hitems, hcount, hlegible, hclean,
      hentries, htotal, hmax⟩
    dsimp only at hentries htotal hmax ⊢
    have hclose : Follows isSpace [closeBracket] (closeBracket :: after) after := ⟨[], by simp, rfl⟩
    rw [take_follows hclose (by decide), ok_bind, whole_memory, whole_left,
      skipSpace_whole, ok_bind]
    split
    · next hend =>
        obtain ⟨hblank, hpos⟩ := hend
        rw [List.nil_append] at hentries
        rw [Nat.zero_add] at htotal
        refine ⟨items, ⟨⟨after, ⟨text, hopen, ?_⟩, ?_⟩, ?_, hcount, hlegible, hclean, ?_⟩, ?_⟩
        · exact (itemTokens_dropWhile true items).mp hitems
        · have hnil : after.dropWhile isSpace = [] := List.eq_nil_of_length_eq_zero hblank
          exact List.dropWhile_eq_nil_iff.mp hnil
        · rintro rfl
          rw [hentries] at hpos
          cases hpos
        · rw [← htotal]
          exact Nat.lt_of_le_sub_one (by decide) hmax
        · rw [hentries, htotal]
          rfl
    · exact meets_refused

/-- A list of legible objects is decoded when its names are clean, there are no more than 64 and
the sizes add up to 64 bits, and otherwise it is refused. -/
theorem fileListDecode_spaced {json : List UInt8} {items : List Spelled}
    (hspaced : Spaced isSpace (listTokens items) json) (hsome : items ≠ [])
    (hlegible : ∀ item ∈ items, item.Legible) :
    fileListDecode json =
      if (∀ item ∈ items, fileNameIsClean item.name = true) ∧ items.length ≤ fileListMax ∧
          0 + sizeSum (items.map Spelled.entry) ≤ uint64Max then
        .ok (Spelled.list items)
      else .error .refused := by
  obtain ⟨after, ⟨text, hopen, hitems⟩, hafter⟩ := hspaced
  have hleft : (Cursor.whole (text.dropWhile isSpace)).left ≠ 0 := by
    obtain ⟨token, tokens, htokens, hsolid⟩ := itemTokens_solid true items
    rw [htokens] at hitems
    obtain ⟨last, hfollows, _⟩ := hitems
    obtain ⟨symbol, symbols, rfl, _⟩ := id hsolid
    rw [(follows_iff hsolid).mp hfollows]
    exact Nat.succ_ne_zero _
  have hloop : takeEntries fileListMax (.whole (text.dropWhile isSpace)) [] 0 = _ :=
    takeEntries_leads hlegible fileListMax (Nat.zero_le _) (List.dropWhile_idempotent isSpace text)
      ((itemTokens_dropWhile true items).mpr hitems)
  rw [fileListDecode, take_follows hopen (by decide), ok_bind, whole_memory, whole_left,
    skipSpace_whole, ok_bind, if_neg hleft, hloop]
  split
  · have hclose : Follows isSpace [closeBracket] (closeBracket :: after) after := ⟨[], by simp, rfl⟩
    have hnil : after.dropWhile isSpace = [] := List.dropWhile_eq_nil_iff.mpr hafter
    have hpos := List.length_pos_iff.mpr hsome
    rw [ok_bind]
    dsimp only
    rw [take_follows hclose (by decide), ok_bind, whole_memory, whole_left, skipSpace_whole, hnil,
      ok_bind, if_pos ⟨rfl, by simpa using hpos⟩, Nat.zero_add]
    rfl
  · rfl

/-- Decoding accepts the grammar, and gives the names and sizes with their sum. -/
theorem fileListDecode_iff {json : List UInt8} {list : FileList} :
    fileListDecode json = .ok list ↔ ∃ items, IsFileList json items ∧
      list = Spelled.list items := by
  constructor
  · intro h
    have hmeets := fileListDecode_meets json
    rw [h] at hmeets
    exact hmeets
  · rintro ⟨items, hitems, rfl⟩
    rw [fileListDecode_spaced hitems.spaced hitems.some_item hitems.legible, if_pos]
    refine ⟨hitems.clean, hitems.count_le, ?_⟩
    rw [Nat.zero_add]
    exact Nat.le_sub_one_of_lt hitems.total_lt

/-- Decoding stays within the text. -/
theorem fileListDecode_inside (json : List UInt8) : fileListDecode json ≠ .error .outside := by
  intro h
  have hmeets := fileListDecode_meets json
  rw [h] at hmeets
  exact hmeets

end DeskhopPlus.Transfer
