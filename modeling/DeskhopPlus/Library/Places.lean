import DeskhopPlus.Library.Bytes
import Mathlib.Data.List.Basic

/-!
# Places in a byte string

A record kept as a string of bytes has its fields at places. What was written to a place is read
back from it, and writing there changes no place apart from it; so of many writes to places that
are apart, each is read back at the end, and no other byte has changed (`read_writeAll`,
`getElem?_writeAll`).
-/

namespace DeskhopPlus.Bytes

/-- Where a field lies. -/
structure Place where
  offset : Nat
  length : Nat
  deriving DecidableEq, Repr

namespace Place

/-- The first byte past the place. -/
def stop (p : Place) : Nat := p.offset + p.length

/-- The byte lies in the place. -/
def Covers (p : Place) (index : Nat) : Prop := p.offset ≤ index ∧ index < p.stop

instance (p : Place) (index : Nat) : Decidable (p.Covers index) :=
  inferInstanceAs (Decidable (_ ∧ _))

/-- The places share no byte. -/
def Apart (p q : Place) : Prop := p.stop ≤ q.offset ∨ q.stop ≤ p.offset

instance (p q : Place) : Decidable (p.Apart q) := inferInstanceAs (Decidable (_ ∨ _))

theorem Apart.symm {p q : Place} (h : p.Apart q) : q.Apart p := Or.symm h

theorem Apart.not_covers {p q : Place} (h : p.Apart q) {index : Nat} (hp : p.Covers index) :
    ¬q.Covers index := by
  intro hq
  simp only [Apart, Covers, stop] at h hp hq
  omega

end Place

/-- The bytes at a place. -/
def read (bytes : List UInt8) (p : Place) : List UInt8 := (bytes.drop p.offset).take p.length

/-- The bytes after `memcpy` to a place. -/
def write (bytes : List UInt8) (p : Place) (data : List UInt8) : List UInt8 :=
  overwrite bytes p.offset data

variable {bytes data : List UInt8} {p q : Place}

theorem read_length (hfits : p.stop ≤ bytes.length) : (read bytes p).length = p.length := by
  rw [Place.stop] at hfits
  rw [read, List.length_take, List.length_drop]
  omega

theorem read_getElem? (bytes : List UInt8) (p : Place) (i : Nat) :
    (read bytes p)[i]? = if i < p.length then bytes[p.offset + i]? else none := by
  rw [read, List.getElem?_take]
  split
  · rw [List.getElem?_drop]
  · rfl

/-- Strings that agree at the bytes of a place read the same there. -/
theorem read_congr {other : List UInt8}
    (h : ∀ index, p.Covers index → bytes[index]? = other[index]?) :
    read bytes p = read other p := by
  refine List.ext_getElem? fun i ↦ ?_
  rw [read_getElem?, read_getElem?]
  split
  next hi => exact h _ ⟨Nat.le_add_right _ _, Nat.add_lt_add_left hi _⟩
  next => rfl

theorem write_length (hfits : p.stop ≤ bytes.length) (hdata : data.length = p.length) :
    (write bytes p data).length = bytes.length :=
  overwrite_length (by rw [hdata]; exact hfits)

/-- A byte of the place is the written one, any other is the old one. -/
theorem write_getElem? (hfits : p.stop ≤ bytes.length) (hdata : data.length = p.length)
    (index : Nat) :
    (write bytes p data)[index]? =
      if p.Covers index then data[index - p.offset]? else bytes[index]? := by
  have hoffset : p.offset ≤ bytes.length := (Nat.le_add_right _ _).trans hfits
  rw [write, overwrite_getElem? hoffset, hdata]
  rfl

theorem write_other (hfits : p.stop ≤ bytes.length) (hdata : data.length = p.length) {index : Nat}
    (hindex : ¬p.Covers index) : (write bytes p data)[index]? = bytes[index]? := by
  rw [write_getElem? hfits hdata, if_neg hindex]

theorem read_write (hfits : p.stop ≤ bytes.length) (hdata : data.length = p.length) :
    read (write bytes p data) p = data := by
  refine List.ext_getElem? fun i ↦ ?_
  rw [read_getElem?]
  split
  next hi =>
    have hcovers : p.Covers (p.offset + i) := ⟨Nat.le_add_right _ _, Nat.add_lt_add_left hi _⟩
    rw [write_getElem? hfits hdata, if_pos hcovers, Nat.add_sub_cancel_left]
  next hi => rw [List.getElem?_eq_none (by omega)]

/-! ## Many writes -/

/-- What is written, one place after the other. -/
def writeAll (bytes : List UInt8) (writes : List (Place × List UInt8)) : List UInt8 :=
  writes.foldl (fun bytes w ↦ write bytes w.1 w.2) bytes

/-- Every write is of as many bytes as its place holds, and the place lies in the string. -/
def Fits (size : Nat) (writes : List (Place × List UInt8)) : Prop :=
  ∀ w ∈ writes, w.1.stop ≤ size ∧ w.2.length = w.1.length

variable {writes : List (Place × List UInt8)}

/-- A byte that no write covers is the old one. -/
theorem getElem?_writeAll (h : Fits bytes.length writes) {index : Nat}
    (hindex : ∀ w ∈ writes, ¬w.1.Covers index) :
    (writeAll bytes writes)[index]? = bytes[index]? := by
  induction writes generalizing bytes with
  | nil => rfl
  | cons w rest ih =>
      have hfirst := h w (List.mem_cons_self ..)
      have hrest : Fits (write bytes w.1 w.2).length rest := by
        rw [write_length hfirst.1 hfirst.2]
        exact fun other hmem ↦ h other (List.mem_cons_of_mem _ hmem)
      show (writeAll (write bytes w.1 w.2) rest)[index]? = _
      rw [ih hrest fun other hmem ↦ hindex other (List.mem_cons_of_mem _ hmem),
        write_other hfirst.1 hfirst.2 (hindex w (List.mem_cons_self ..))]

/-- Of writes to places that are apart, each is read back in the end. -/
theorem read_writeAll (h : Fits bytes.length writes)
    (hapart : writes.Pairwise fun w v ↦ w.1.Apart v.1) :
    ∀ w ∈ writes, read (writeAll bytes writes) w.1 = w.2 := by
  induction writes generalizing bytes with
  | nil =>
      intro w hmem
      cases hmem
  | cons first rest ih =>
      have hfirst := h first (List.mem_cons_self ..)
      have hlength := write_length hfirst.1 hfirst.2
      have hrest : Fits (write bytes first.1 first.2).length rest := by
        rw [hlength]
        exact fun other hmem ↦ h other (List.mem_cons_of_mem _ hmem)
      obtain ⟨hothers, hpairs⟩ := List.pairwise_cons.1 hapart
      intro w hmem
      rcases List.mem_cons.1 hmem with rfl | hmem
      · -- the later writes leave the first one alone
        rw [← read_write hfirst.1 hfirst.2]
        exact read_congr fun index hindex ↦ getElem?_writeAll hrest fun other hother ↦
          (hothers other hother).not_covers hindex
      · exact ih hrest hpairs w hmem

end DeskhopPlus.Bytes
