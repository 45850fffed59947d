import Mathlib.Data.List.Basic
import Mathlib.Data.List.TakeDrop

/-!
# Cutting UTF-8

Byte strings that spell characters, the bytes that go on with a character, and cutting a string
where no such byte stands. A cut there leaves whole characters.
-/

namespace DeskhopPlus.Utf8

/-- The bytes spell a list of characters. -/
def Spells (bytes : List UInt8) : Prop :=
  ∃ chars : List Char, bytes = chars.flatMap String.utf8EncodeChar

/-- A byte that goes on with a character, in binary `10xxxxxx`. -/
def isContinuation (byte : UInt8) : Bool := byte &&& 0xC0 == 0x80

/-- No character is cut in two between the first bytes and the others. -/
def Boundary (bytes : List UInt8) (place : Nat) : Prop :=
  ∀ byte, bytes[place]? = some byte → isContinuation byte = false

/-- The nearest place at or before a given one where no continuation byte stands. -/
def backOff (bytes : List UInt8) : Nat → Nat
  | 0 => 0
  | place + 1 =>
      match bytes[place + 1]? with
      | some byte => if isContinuation byte then backOff bytes place else place + 1
      | none => place + 1

set_option maxRecDepth 4096 in
theorem isContinuation_eq (byte : UInt8) :
    isContinuation byte = decide (0x80 ≤ byte.toNat ∧ byte.toNat < 0xC0) := by
  have hall : ∀ number : Fin 256, isContinuation (UInt8.ofNat number) =
      decide (0x80 ≤ number.val ∧ number.val < 0xC0) := by decide
  have hbyte := hall ⟨byte.toNat, byte.toNat_lt⟩
  rw [UInt8.ofNat_toNat] at hbyte
  exact hbyte

theorem isContinuation_of_ascii {byte : UInt8} (h : byte.toNat < 0x80) :
    isContinuation byte = false := by
  rw [isContinuation_eq, decide_eq_false_iff_not]
  omega

/-! ## The spelling of one character -/

/-- A character is one byte below `0x80`, or a byte from `0xC0` on with bytes that go on with it. -/
theorem utf8EncodeChar_shape (char : Char) :
    (∃ byte : UInt8, byte.toNat < 0x80 ∧ String.utf8EncodeChar char = [byte]) ∨
      ∃ first rest, 0xC0 ≤ UInt8.toNat first ∧ String.utf8EncodeChar char = first :: rest ∧
        ∀ byte ∈ rest, isContinuation byte = true := by
  have hcontinues (number : Nat) : isContinuation (UInt8.ofNat (number % 64 + 0x80)) = true := by
    rw [isContinuation_eq, decide_eq_true_iff, UInt8.toNat_ofNat']
    omega
  have hgoes (number : Nat) {rest : List UInt8}
    (hrest : ∀ byte ∈ rest, isContinuation byte = true) :
      ∀ byte ∈ UInt8.ofNat (number % 64 + 0x80) :: rest, isContinuation byte = true :=
    List.forall_mem_cons.mpr ⟨hcontinues number, hrest⟩
  have hnone : ∀ byte ∈ ([] : List UInt8), isContinuation byte = true := List.forall_mem_nil _
  have hfirst (number low : Nat) (hlow : low = 0xC0 ∨ low = 0xE0 ∨ low = 0xF0)
      (hsum : number + low < 0x100) : 0xC0 ≤ (UInt8.ofNat (number + low)).toNat := by
    rw [UInt8.toNat_ofNat']
    omega
  rw [String.utf8EncodeChar]
  split
  · next hascii =>
      refine .inl ⟨_, ?_, rfl⟩
      rw [UInt8.toNat_ofNat']
      omega
  split
  · exact .inr ⟨_, _, hfirst _ _ (.inl rfl) (by omega), rfl, hgoes _ hnone⟩
  split
  · exact .inr ⟨_, _, hfirst _ _ (.inr (.inl rfl)) (by omega), rfl, hgoes _ (hgoes _ hnone)⟩
  · exact .inr ⟨_, _, hfirst _ _ (.inr (.inr rfl)) (by omega), rfl,
      hgoes _ (hgoes _ (hgoes _ hnone))⟩

/-- A byte below `0x80` is a character. -/
theorem spells_ascii {byte : UInt8} (h : byte.toNat < 0x80) :
    ∃ char, String.utf8EncodeChar char = [byte] := by
  have hvalid : byte.toNat.isValidChar := .inl (by omega)
  refine ⟨Char.ofNat byte.toNat, ?_⟩
  have hval : (Char.ofNat byte.toNat).val.toNat = byte.toNat := by
    rw [Char.ofNat, dif_pos hvalid]
    rfl
  rw [String.utf8EncodeChar, hval, if_pos (Nat.le_of_lt_succ h), UInt8.ofNat_toNat]

/-! ## Spelled byte strings -/

theorem spells_nil : Spells [] := ⟨[], rfl⟩

theorem Spells.append {left right : List UInt8} (hleft : Spells left) (hright : Spells right) :
    Spells (left ++ right) := by
  obtain ⟨chars, rfl⟩ := hleft
  obtain ⟨others, rfl⟩ := hright
  exact ⟨chars ++ others, List.flatMap_append.symm⟩

theorem Spells.cons {byte : UInt8} {bytes : List UInt8} (hbyte : byte.toNat < 0x80)
    (hbytes : Spells bytes) : Spells (byte :: bytes) := by
  obtain ⟨char, hchar⟩ := spells_ascii hbyte
  exact Spells.append ⟨[char], by rw [List.flatMap_singleton, hchar]⟩ hbytes

/-- Other bytes below `0x80` for some bytes below `0x80` spell other characters. -/
theorem Spells.map {bytes : List UInt8} {change : UInt8 → UInt8} (h : Spells bytes)
    (hascii : ∀ byte : UInt8, byte.toNat < 0x80 → (change byte).toNat < 0x80)
    (hother : ∀ byte : UInt8, 0x80 ≤ byte.toNat → change byte = byte) :
    Spells (bytes.map change) := by
  obtain ⟨chars, rfl⟩ := h
  induction chars with
  | nil => exact spells_nil
  | cons char rest ih =>
      rw [List.flatMap_cons, List.map_append]
      refine Spells.append ?_ ih
      rcases utf8EncodeChar_shape char with
        ⟨byte, hbyte, hchar⟩ | ⟨first, others, hfirst, hchar, hothers⟩
      · rw [hchar]
        exact spells_nil.cons (hascii byte hbyte)
      · -- no byte of a longer character is changed
        have hsame : (String.utf8EncodeChar char).map change = String.utf8EncodeChar char := by
          rw [List.map_congr_left (g := id) fun byte hmem ↦ ?_, List.map_id]
          rw [hchar, List.mem_cons] at hmem
          rcases hmem with rfl | hmem
          · exact hother _ (by omega)
          · have hcont := hothers byte hmem
            rw [isContinuation_eq, decide_eq_true_iff] at hcont
            exact hother _ hcont.1
        rw [hsame]
        exact ⟨[char], (List.flatMap_singleton ..).symm⟩

/-- A cut at a boundary leaves whole characters. -/
theorem Spells.take {bytes : List UInt8} {place : Nat} (h : Spells bytes)
    (hplace : Boundary bytes place) : Spells (bytes.take place) := by
  obtain ⟨chars, rfl⟩ := h
  induction chars generalizing place with
  | nil =>
      rw [List.flatMap_nil, List.take_nil]
      exact spells_nil
  | cons char rest ih =>
      rw [List.flatMap_cons] at hplace ⊢
      rcases Nat.eq_zero_or_pos place with rfl | hpos
      · exact spells_nil
      by_cases hpast : (String.utf8EncodeChar char).length ≤ place
      · rw [List.take_append, List.take_of_length_le hpast]
        refine Spells.append ⟨[char], (List.flatMap_singleton ..).symm⟩ (ih fun byte hbyte ↦ ?_)
        refine hplace byte ?_
        rw [List.getElem?_append_right hpast]
        exact hbyte
      · -- inside the character every byte goes on with it
        rcases utf8EncodeChar_shape char with
          ⟨byte, hbyte, hchar⟩ | ⟨first, others, _, hchar, hothers⟩
        · rw [hchar, List.length_singleton] at hpast
          omega
        · obtain ⟨inner, rfl⟩ := Nat.exists_eq_add_of_lt hpos
          rw [hchar, List.length_cons] at hpast
          have hinner : inner < others.length := by omega
          have hread (after : List UInt8) :
              (String.utf8EncodeChar char ++ after)[0 + inner + 1]? = some others[inner] := by
            rw [hchar, Nat.zero_add, List.cons_append, List.getElem?_cons_succ,
              List.getElem?_append_left hinner, List.getElem?_eq_getElem hinner]
          have hnot := hplace _ (hread _)
          rw [hothers _ (List.getElem_mem hinner)] at hnot
          cases hnot

/-! ## Backing off -/

variable {bytes : List UInt8} {place : Nat}

theorem backOff_le (bytes : List UInt8) (place : Nat) : backOff bytes place ≤ place := by
  induction place with
  | zero => exact Nat.le_refl 0
  | succ place ih =>
      rw [backOff]
      split
      · split
        · exact Nat.le_succ_of_le ih
        · exact Nat.le_refl _
      · exact Nat.le_refl _

/-- Backing off ends at a boundary or at the front. -/
theorem backOff_boundary (bytes : List UInt8) (place : Nat) :
    backOff bytes place = 0 ∨ Boundary bytes (backOff bytes place) := by
  induction place with
  | zero => exact .inl rfl
  | succ place ih =>
      rw [backOff]
      split
      · next byte hbyte =>
          split
          · exact ih
          · next hcont =>
              refine .inr fun other hother ↦ ?_
              rw [hbyte, Option.some.injEq] at hother
              rw [← hother]
              exact Bool.eq_false_iff.mpr hcont
      · next hnone =>
          refine .inr fun other hother ↦ ?_
          rw [hnone] at hother
          cases hother

/-- Spelled characters are cut whole where backing off ends. -/
theorem Spells.take_backOff (h : Spells bytes) (place : Nat) :
    Spells (bytes.take (backOff bytes place)) := by
  rcases backOff_boundary bytes place with hzero | hboundary
  · rw [hzero]
    exact spells_nil
  · exact h.take hboundary

/-- Backing off never passes a byte that begins a character. -/
theorem le_backOff {stop : Nat} (h : Boundary bytes stop) (hstop : stop ≤ place) :
    stop ≤ backOff bytes place := by
  induction place with
  | zero => exact hstop
  | succ place ih =>
      rw [backOff]
      split
      · next byte hbyte =>
          split
          · next hcont =>
              rcases Nat.lt_or_eq_of_le hstop with hlt | rfl
              · exact ih (Nat.le_of_lt_succ hlt)
              · rw [h byte hbyte] at hcont
                cases hcont
          · exact hstop
      · exact hstop

/-- Only which bytes go on with a character counts for backing off. -/
theorem backOff_congr {others : List UInt8}
    (h : ∀ step ≤ place, bytes[step]?.map isContinuation = others[step]?.map isContinuation) :
    backOff bytes place = backOff others place := by
  induction place with
  | zero => rfl
  | succ place ih =>
      have hrest := ih fun step hstep ↦ h step (Nat.le_succ_of_le hstep)
      have hhere := h (place + 1) (Nat.le_refl _)
      rw [backOff, backOff, hrest]
      cases hleft : bytes[place + 1]? with
      | none =>
          rw [hleft, Option.map_none, eq_comm, Option.map_eq_none_iff] at hhere
          rw [hhere]
      | some byte =>
          rw [hleft, Option.map_some, eq_comm, Option.map_eq_some_iff] at hhere
          obtain ⟨other, hother, hsame⟩ := hhere
          rw [hother]
          dsimp only
          rw [hsame]

end DeskhopPlus.Utf8
