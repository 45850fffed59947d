import DeskhopPlus.Library.Tokens
import DeskhopPlus.Transfer.Machine
import DeskhopPlus.Wire.FileName
import Mathlib.Algebra.Ring.Nat

/-!
# The file list

`dh_file_list.c`: the names and sizes of the files of a transfer, as JSON in the offer's metadata.
The encoder cleans the names and writes no blank. The decoder reads one shape of JSON from memory it
was told the length of, and takes no name that is not clean.
-/

namespace DeskhopPlus.Transfer

open Tokens Wire

/-- `DH_FILE_LIST_MAX`. -/
def fileListMax : Nat := 64

/-- `dh_file_entry`. -/
structure FileEntry where
  name : List UInt8
  size : UInt64
  deriving DecidableEq

/-- `dh_file_list`. -/
structure FileList where
  entries : List FileEntry
  total : UInt64
  deriving DecidableEq

/-! ## Encoding -/

/-- `dh_file_list_encode_max`. -/
def fileListEncodeMax : Nat := metaMax

/-- `PUT` and `PUT_TEXT`. -/
def put (cap : Nat) (out text : List UInt8) : Option (List UInt8) :=
  if cap < out.length + text.length then none else some (out ++ text)

/-- The loop that writes the digits of a size back to front, with room for some more of them. -/
def digitsWithin : Nat → Nat → List UInt8
  | 0, _ => []
  | room + 1, value =>
      let last := UInt8.ofNat (0x30 + value % 10)
      if value / 10 = 0 then [last] else digitsWithin room (value / 10) ++ [last]

/-- The digits of a size. The scratch buffer has 20 bytes. -/
def sizeDigits (size : UInt64) : List UInt8 := digitsWithin 20 size.toNat

def openBracket : UInt8 := 0x5B

def closeBracket : UInt8 := 0x5D

def openBrace : UInt8 := 0x7B

def closeBrace : UInt8 := 0x7D

def comma : UInt8 := 0x2C

def colon : UInt8 := 0x3A

/-- The key of the name, in quotation marks. -/
def nameKey : List UInt8 := quote :: ascii ['n', 'a', 'm', 'e'] ++ [quote]

/-- The key of the size, in quotation marks. -/
def sizeKey : List UInt8 := quote :: ascii ['s', 'i', 'z', 'e'] ++ [quote]

/-- The comma in front of an entry that is not the first. -/
def putComma (cap : Nat) (out : List UInt8) (first : Bool) : Option (List UInt8) :=
  if first then some out else put cap out [comma]

/-- One round of the loop of `dh_file_list_encode`. -/
def putEntry (cap : Nat) (out : List UInt8) (first : Bool) (entry : FileEntry) :
    Option (List UInt8) := do
  let out ← putComma cap out first
  let out ← put cap out (openBrace :: nameKey ++ [colon, quote])
  let cleaned ← fileNameClean entry.name (fileNameMax + 1)
  let out ← put cap out cleaned
  let out ← put cap out ([quote, comma] ++ sizeKey ++ [colon])
  let out ← put cap out (sizeDigits entry.size)
  put cap out [closeBrace]

/-- The loop of `dh_file_list_encode`. -/
def putEntries (cap : Nat) : List UInt8 → Bool → List FileEntry → Option (List UInt8)
  | out, _, [] => some out
  | out, first, entry :: rest => do
      let out ← putEntry cap out first entry
      putEntries cap out false rest

/-- `dh_file_list_encode` into a buffer of `cap` bytes. It returns -1 where this is `none`. -/
def fileListEncode (entries : List FileEntry) (cap : Nat) : Option (List UInt8) :=
  if entries.length = 0 ∨ fileListMax < entries.length then none
  else do
    let cap := min cap fileListEncodeMax
    let out ← put cap [] [openBracket]
    let out ← putEntries cap out true entries
    put cap out [closeBracket]

/-! ## Decoding -/

/-- Why reading ends without a result. It is `outside` where it would have read a byte past the
memory it was given. -/
inductive Stop where
  | refused
  | outside
  deriving DecidableEq

/-- `cursor`: the memory from the pointer on, and how many bytes of it the reader takes to be
left. -/
structure Cursor where
  memory : List UInt8
  left : Nat

/-- A cursor at the front of a text that is told the text's length. -/
def Cursor.whole (text : List UInt8) : Cursor := ⟨text, text.length⟩

/-- The byte at the pointer. -/
def Cursor.peek (c : Cursor) : Except Stop UInt8 :=
  match c.memory with
  | [] => .error .outside
  | byte :: _ => .ok byte

def Cursor.advance (c : Cursor) (count : Nat) : Cursor :=
  ⟨c.memory.drop count, c.left - count⟩

/-- A byte that `skip_space` skips. -/
def isSpace (byte : UInt8) : Bool := byte == 0x20 || byte == 0x09 || byte == 0x0A || byte == 0x0D

/-- `skip_space`. -/
def skipSpace : List UInt8 → Nat → Except Stop Cursor
  | memory, 0 => .ok ⟨memory, 0⟩
  | [], _ + 1 => .error .outside
  | byte :: after, left + 1 =>
      if isSpace byte then skipSpace after left else .ok ⟨byte :: after, left + 1⟩

/-- `take`. -/
def take (c : Cursor) (expected : UInt8) : Except Stop Cursor := do
  let c ← skipSpace c.memory c.left
  if c.left = 0 then .error .refused
  else
    let byte ← c.peek
    if byte ≠ expected then .error .refused else .ok (c.advance 1)

/-- `take_text`. -/
def takeText (c : Cursor) (expected : List UInt8) : Except Stop Cursor := do
  let c ← skipSpace c.memory c.left
  if c.left < expected.length then .error .refused
  else if c.memory.length < expected.length then .error .outside
  else if c.memory.take expected.length ≠ expected then .error .refused
  else .ok (c.advance expected.length)

/-- The loop of `take_string`: how many bytes stand in front of the quotation mark. -/
def stringLength : List UInt8 → Nat → Except Stop Nat
  | _, 0 => .ok 0
  | [], _ + 1 => .error .outside
  | byte :: after, left + 1 =>
      if byte = quote then .ok 0
      else if byte = backslash then .error .refused
      else do
        let count ← stringLength after left
        return count + 1

/-- `take_string`. -/
def takeString (c : Cursor) : Except Stop (List UInt8 × Cursor) := do
  let c ← take c quote
  let count ← stringLength c.memory c.left
  if c.left ≤ count then .error .refused
  else if fileNameMax < count then .error .refused
  else .ok (c.memory.take count, c.advance (count + 1))

/-- The largest number of 64 bits. -/
def uint64Max : Nat := 2 ^ 64 - 1

/-- The loop of `take_u64`: the value, how many digits there were, and the cursor behind them. -/
def takeDigits : List UInt8 → Nat → Nat → Nat → Except Stop (Nat × Nat × Cursor)
  | memory, 0, value, digits => .ok (value, digits, ⟨memory, 0⟩)
  | [], _ + 1, _, _ => .error .outside
  | byte :: after, left + 1, value, digits =>
      if isDigit byte then
        let digit := byte.toNat - 0x30
        if (uint64Max - digit) / 10 < value then .error .refused
        else takeDigits after left (value * 10 + digit) (digits + 1)
      else .ok (value, digits, ⟨byte :: after, left + 1⟩)

/-- `take_u64`. -/
def takeU64 (c : Cursor) : Except Stop (Nat × Cursor) := do
  let c ← skipSpace c.memory c.left
  let (value, digits, c) ← takeDigits c.memory c.left 0 0
  if digits = 0 then .error .refused else .ok (value, c)

/-- The part of the loop of `dh_file_list_decode` that reads one object. -/
def takeEntry (c : Cursor) : Except Stop (FileEntry × Cursor) := do
  let c ← take c openBrace
  let c ← takeText c nameKey
  let c ← take c colon
  let (name, c) ← takeString c
  if fileNameIsClean name = false then .error .refused
  else
    let c ← take c comma
    let c ← takeText c sizeKey
    let c ← take c colon
    let (size, c) ← takeU64 c
    let c ← take c closeBrace
    return (⟨name, UInt64.ofNat size⟩, c)

/-- The comma in front of an entry that is not the first. -/
def takeComma (c : Cursor) (entries : List FileEntry) : Except Stop Cursor :=
  if 0 < entries.length then take c comma else .ok c

/-- The loop of `dh_file_list_decode`, with room for some more entries. -/
def takeEntries : Nat → Cursor → List FileEntry → Nat → Except Stop (List FileEntry × Nat × Cursor)
  | 0, c, entries, total => do
      let byte ← c.peek
      if byte = closeBracket then .ok (entries, total, c)
      else
        let _ ← takeComma c entries
        .error .refused
  | room + 1, c, entries, total => do
      let byte ← c.peek
      if byte = closeBracket then .ok (entries, total, c)
      else
        let c ← takeComma c entries
        let (entry, c) ← takeEntry c
        if uint64Max - entry.size.toNat < total then .error .refused
        else
          let c ← skipSpace c.memory c.left
          if c.left = 0 then .error .refused
          else takeEntries room c (entries ++ [entry]) (total + entry.size.toNat)

/-- `dh_file_list_decode`. -/
def fileListDecode (json : List UInt8) : Except Stop FileList := do
  let c ← take (.whole json) openBracket
  let c ← skipSpace c.memory c.left
  if c.left = 0 then .error .refused
  else
    let (entries, total, c) ← takeEntries fileListMax c [] 0
    let c ← take c closeBracket
    let c ← skipSpace c.memory c.left
    if c.left = 0 ∧ 0 < entries.length then .ok ⟨entries, UInt64.ofNat total⟩ else .error .refused

end DeskhopPlus.Transfer
