import DeskhopPlus.Library.Bytes
import Mathlib.Algebra.Ring.Nat

/-!
# The bundle codec

`dh_bundle.c`: a copy in several representations is one payload, a list of parts of a kind, a length
of four bytes and that many bytes. Packing writes the kinds a helper knows. Unpacking takes any
kinds, passes over those it does not know, and gives the known parts as slices of the payload.
-/

namespace DeskhopPlus.Wire

open Bytes

/-- `DH_BUNDLE_PARTS_MAX`. -/
def bundlePartsMax : Nat := 4

/-- `DH_BUNDLE_PART_HEAD`: the kind and the length. -/
def bundlePartHead : Nat := 5

/-- `DH_BUNDLE_PART_TEXT`. -/
def bundlePartText : UInt8 := 0

/-- `DH_BUNDLE_PART_PNG`. -/
def bundlePartPng : UInt8 := 1

/-- `kind_is_written`. -/
def kindIsWritten (kind : UInt8) : Bool := kind == bundlePartText || kind == bundlePartPng

/-- A part to pack. Its length is a 32-bit number. -/
structure BundlePart where
  kind : UInt8
  bytes : List UInt8
  length_lt : bytes.length < 2 ^ 32

/-- `dh_bundle_part` as unpacking fills it in: a view into the payload. -/
structure BundleView where
  kind : UInt8
  place : Nat
  len : Nat
  deriving DecidableEq

/-- What a view shows of its payload. -/
def BundleView.shown (view : BundleView) (payload : List UInt8) : List UInt8 :=
  (payload.drop view.place).take view.len

/-- `dh_bundle_packed_len`. The head and a length are added in 32 bits, the sum is a `size_t`. -/
def bundlePackedLen (parts : List BundlePart) : Nat :=
  (parts.map fun part ↦ (bundlePartHead + part.bytes.length) % 2 ^ 32).sum

/-- One part as it is written. -/
def BundlePart.packed (part : BundlePart) : List UInt8 :=
  part.kind :: littleEndian 4 part.bytes.length ++ part.bytes

/-- The parts one after the other. -/
def packedParts (parts : List BundlePart) : List UInt8 := parts.flatMap BundlePart.packed

/-- `dh_bundle_pack` into a buffer of `cap` bytes. It returns zero where this is `none`. -/
def bundlePack (parts : List BundlePart) (cap : Nat) : Option (List UInt8) :=
  if parts.length = 0 ∨ bundlePartsMax < parts.length then none
  else if cap < bundlePackedLen parts then none
  else some (packedParts parts)

/-- What the loop of `dh_bundle_unpack` ends with. It is `outside` where it would have read a byte
that the payload does not have. -/
inductive Unpacking where
  | parts (found : List BundleView)
  | refused
  | outside
  deriving DecidableEq

/-- The kind and the length at a place, where the payload has them. -/
def bundleHead (payload : List UInt8) (place : Nat) : Option (UInt8 × Nat) :=
  match payload[place]?, payload[place + 1]?, payload[place + 2]?, payload[place + 3]?,
      payload[place + 4]? with
  | some kind, some low, some second, some third, some high =>
      some (kind, value [low, second, third, high])
  | _, _, _, _, _ => none

/-- The loop of `dh_bundle_unpack`. -/
def unpackLoop (payload : List UInt8) (place : Nat) (found : List BundleView) : Unpacking :=
  if payload.length ≤ place then .parts found
  else if payload.length - place < bundlePartHead then .refused
  else
    match bundleHead payload place with
    | none => .outside
    | some (kind, len) =>
        let body := place + bundlePartHead
        if payload.length - body < len then .refused
        else if kindIsWritten kind then
          if bundlePartsMax ≤ found.length then .refused
          else unpackLoop payload (body + len) (found ++ [⟨kind, body, len⟩])
        else unpackLoop payload (body + len) found
termination_by payload.length - place
decreasing_by all_goals simp only [bundlePartHead]; omega

/-- `dh_bundle_unpack`. It is `none` where the source returns false. -/
def bundleUnpack (payload : List UInt8) : Option (List BundleView) :=
  match unpackLoop payload 0 [] with
  | .parts found => if found.length = 0 then none else some found
  | _ => none

/-! ## The parts of a payload -/

/-- The parts of the kinds a helper writes. -/
def knownParts (parts : List BundlePart) : List BundlePart :=
  parts.filter fun part ↦ kindIsWritten part.kind

/-- Where the known parts lie in a payload that has the parts from a place on. -/
def viewsFrom : Nat → List BundlePart → List BundleView
  | _, [] => []
  | place, part :: rest =>
      let views := viewsFrom (place + bundlePartHead + part.bytes.length) rest
      if kindIsWritten part.kind then
        ⟨part.kind, place + bundlePartHead, part.bytes.length⟩ :: views
      else views

variable {place : Nat} {found : List BundleView} {parts : List BundlePart}

theorem viewsFrom_length (place : Nat) (parts : List BundlePart) :
    (viewsFrom place parts).length = (knownParts parts).length := by
  induction parts generalizing place with
  | nil => rfl
  | cons part rest ih =>
      have hrest := ih (place + bundlePartHead + part.bytes.length)
      simp only [viewsFrom, knownParts, List.filter_cons] at hrest ⊢
      split <;> simp [hrest]

theorem packed_length (part : BundlePart) :
    part.packed.length = bundlePartHead + part.bytes.length := by
  simp only [BundlePart.packed, List.length_append, List.length_cons, littleEndian_length,
    bundlePartHead]

/-- The length a helper asks for is never above what is written. -/
theorem bundlePackedLen_le (parts : List BundlePart) :
    bundlePackedLen parts ≤ (packedParts parts).length := by
  induction parts with
  | nil => exact Nat.le_refl 0
  | cons part rest ih =>
      have hpart : (bundlePartHead + part.bytes.length) % 2 ^ 32 ≤ part.packed.length := by
        rw [packed_length]
        exact Nat.mod_le _ _
      simp only [packedParts, bundlePackedLen] at ih
      simp only [packedParts, bundlePackedLen, List.flatMap_cons, List.length_append, List.map_cons,
        List.sum_cons]
      exact Nat.add_le_add hpart ih

/-- Each view shows its part, wherever the payload begins. -/
theorem viewsFrom_shown (before : List UInt8) (parts : List BundlePart) :
    (viewsFrom before.length parts).map (fun view ↦
        (view.kind, view.shown (before ++ packedParts parts))) =
      (knownParts parts).map fun part ↦ (part.kind, part.bytes) := by
  induction parts generalizing before with
  | nil => rfl
  | cons part rest ih =>
      -- the payload up to the next part
      have hnext := ih (before ++ part.packed)
      have hplace : (before ++ part.packed).length =
          before.length + bundlePartHead + part.bytes.length := by
        rw [List.length_append, packed_length, Nat.add_assoc]
      have hwhole : before ++ packedParts (part :: rest) =
          before ++ part.packed ++ packedParts rest := by
        rw [packedParts, List.flatMap_cons, List.append_assoc]
        rfl
      have hpart : (before ++ part.packed ++ packedParts rest).drop
        (before.length + bundlePartHead) =
          part.bytes ++ packedParts rest := by
        rw [List.append_assoc, ← List.drop_drop, List.drop_left, BundlePart.packed,
          List.append_assoc]
        exact List.drop_left' (by simp [bundlePartHead])
      rw [hplace] at hnext
      simp only [viewsFrom, knownParts, List.filter_cons, hwhole] at hnext ⊢
      split
      · rw [List.map_cons, List.map_cons, hnext, BundleView.shown, hpart, List.take_left]
      · exact hnext

/-! ## What the loop finds -/

/-- The head of a part is read where the payload has it. -/
theorem bundleHead_of_drop {payload body : List UInt8} {kind low second third high : UInt8}
    (h : payload.drop place = kind :: low :: second :: third :: high :: body) :
    bundleHead payload place = some (kind, value [low, second, third, high]) := by
  have hread (step : Nat) : payload[place + step]? = (payload.drop place)[step]? :=
    List.getElem?_drop.symm
  have hkind := hread 0
  rw [Nat.add_zero] at hkind
  simp only [bundleHead, hkind, hread, h]
  rfl

/-- Five bytes or more begin with a head. -/
theorem head_of_length {rest : List UInt8} (h : bundlePartHead ≤ rest.length) :
    ∃ kind low second third high body, rest = kind :: low :: second :: third :: high :: body := by
  match rest, h with
  | kind :: low :: second :: third :: high :: body, _ =>
      exact ⟨kind, low, second, third, high, body, rfl⟩

/-- A payload that goes on with a part has its head, its bytes and what follows them. -/
theorem head_of_packed {part : BundlePart} {payload after : List UInt8}
    (h : payload.drop place = part.packed ++ after) :
    bundleHead payload place = some (part.kind, part.bytes.length) ∧
      payload.drop (place + bundlePartHead + part.bytes.length) = after := by
  have hlen : value (littleEndian 4 part.bytes.length) = part.bytes.length :=
    value_littleEndian_of_lt part.length_lt
  constructor
  · have hhead := bundleHead_of_drop (h.trans rfl)
    rw [hhead]
    exact congrArg (fun len ↦ some (part.kind, len)) hlen
  · rw [Nat.add_assoc, ← packed_length, ← List.drop_drop, h, List.drop_left]

/-- The loop finds the known parts of a payload that goes on as a list of parts. -/
theorem unpackLoop_packed {payload : List UInt8} (hplace : place ≤ payload.length)
    (hrest : payload.drop place = packedParts parts) (hfound : found.length ≤ bundlePartsMax) :
    unpackLoop payload place found =
      if found.length + (knownParts parts).length ≤ bundlePartsMax then
        .parts (found ++ viewsFrom place parts)
      else .refused := by
  induction parts generalizing place found with
  | nil =>
      have hend : payload.length ≤ place := by
        have := congrArg List.length hrest
        simp only [packedParts, List.flatMap_nil, List.length_drop, List.length_nil] at this
        omega
      rw [unpackLoop, if_pos hend]
      simp [knownParts, viewsFrom, hfound]
  | cons part rest ih =>
      have hsplit : payload.drop place = part.packed ++ packedParts rest := hrest
      have hlen := congrArg List.length hsplit
      rw [List.length_drop, List.length_append, packed_length] at hlen
      obtain ⟨hhead, hnext⟩ := head_of_packed hsplit
      have hlt : bundlePartHead = 5 := rfl
      have hstep (views : List BundleView) :=
        @ih (place + bundlePartHead + part.bytes.length) views (by omega) hnext
      rw [unpackLoop, if_neg (by omega), if_neg (by omega), hhead]
      dsimp only
      rw [if_neg (by omega)]
      simp only [viewsFrom, knownParts, List.filter_cons] at hstep ⊢
      cases hkind : kindIsWritten part.kind with
      | false =>
          simp only [Bool.false_eq_true, if_false]
          exact hstep found hfound
      | true =>
          simp only [if_true, List.length_cons]
          by_cases hfull : bundlePartsMax ≤ found.length
          · rw [if_pos hfull, if_neg (by omega)]
          · have hone := hstep
              (found ++ [⟨part.kind, place + bundlePartHead, part.bytes.length⟩])
              (by rw [List.length_append, List.length_singleton]; omega)
            rw [if_neg hfull, hone, List.length_append, List.length_singleton, List.append_assoc]
            simp only [Nat.add_assoc, Nat.add_comm 1]
            rfl

/-- A head and as many bytes as it says are a part. -/
theorem part_of_head {payload : List UInt8} {kind : UInt8} {len : Nat}
    (hroom : place + bundlePartHead ≤ payload.length)
    (hhead : bundleHead payload place = some (kind, len))
    (hlen : len ≤ payload.length - (place + bundlePartHead)) :
    ∃ part : BundlePart,
      payload.drop place = part.packed ++ payload.drop (place + bundlePartHead + len) := by
  obtain ⟨first, low, second, third, high, body, hrest⟩ :=
    @head_of_length (payload.drop place) (by rw [List.length_drop]; omega)
  rw [bundleHead_of_drop hrest, Option.some.injEq, Prod.mk.injEq] at hhead
  obtain ⟨hfirst, hvalue⟩ := hhead
  have hbody : payload.drop (place + bundlePartHead) = body := by
    rw [← List.drop_drop, hrest]
    rfl
  have hfits : len ≤ body.length := by
    rw [← hbody, List.length_drop]
    exact hlen
  have htake : (body.take len).length = len := List.length_take_of_le hfits
  have hlt : len < 2 ^ 32 := by
    rw [← hvalue]
    have hbound := value_lt [low, second, third, high]
    norm_num at hbound
    exact hbound
  refine ⟨⟨kind, body.take len, by rw [htake]; exact hlt⟩, ?_⟩
  have hspelled : littleEndian 4 len = [low, second, third, high] := by
    rw [← hvalue]
    exact littleEndian_value [low, second, third, high]
  rw [← List.drop_drop, hbody, hrest]
  simp only [BundlePart.packed, htake, hspelled, hfirst, List.cons_append, List.nil_append,
    List.take_append_drop]

/-- A payload the loop gets to the end of goes on as a list of parts. -/
theorem parts_of_unpackLoop {payload : List UInt8} {views : List BundleView}
    (h : unpackLoop payload place found = .parts views) :
    ∃ parts, payload.drop place = packedParts parts := by
  have hstep {place : Nat} {kind : UInt8} {len : Nat}
      (hroom : ¬payload.length - place < bundlePartHead)
      (hhead : bundleHead payload place = some (kind, len))
      (hlen : ¬payload.length - (place + bundlePartHead) < len)
      (hnext : ∃ parts, payload.drop (place + bundlePartHead + len) = packedParts parts) :
      ∃ parts, payload.drop place = packedParts parts := by
    have hlt : bundlePartHead = 5 := rfl
    obtain ⟨parts, hparts⟩ := hnext
    obtain ⟨part, hpart⟩ := part_of_head (by omega) hhead (Nat.le_of_not_lt hlen)
    exact ⟨part :: parts, by rw [hpart, hparts]; rfl⟩
  fun_induction unpackLoop payload place found with
  | case1 place found hend => exact ⟨[], List.drop_eq_nil_of_le hend⟩
  | case2 => cases h
  | case3 => cases h
  | case4 => cases h
  | case5 => cases h
  | case6 place found _ hroom kind len hhead body hlen _ _ ih =>
      exact hstep hroom hhead hlen (ih h)
  | case7 place found _ hroom kind len hhead body hlen _ ih =>
      exact hstep hroom hhead hlen (ih h)

/-- No read of the loop is outside the payload. -/
theorem unpackLoop_inside (payload : List UInt8) (place : Nat) (found : List BundleView) :
    unpackLoop payload place found ≠ .outside := by
  fun_induction unpackLoop payload place found with
  | case1 => nofun
  | case2 => nofun
  | case3 place found hplace hroom hhead =>
      have hlt : bundlePartHead = 5 := rfl
      obtain ⟨kind, low, second, third, high, body, hrest⟩ :=
        @head_of_length (payload.drop place) (by rw [List.length_drop]; omega)
      rw [bundleHead_of_drop hrest] at hhead
      cases hhead
  | case4 => nofun
  | case5 => nofun
  | case6 _ _ _ _ _ _ _ _ _ _ _ ih => exact ih
  | case7 _ _ _ _ _ _ _ _ _ _ ih => exact ih

/-- A view lies within the payload its parts are of. -/
theorem viewsFrom_inside {view : BundleView} (h : view ∈ viewsFrom place parts) :
    view.place + view.len ≤ place + (packedParts parts).length := by
  induction parts generalizing place with
  | nil => cases h
  | cons part rest ih =>
      have hwhole : (packedParts (part :: rest)).length =
          bundlePartHead + part.bytes.length + (packedParts rest).length := by
        rw [packedParts, List.flatMap_cons, List.length_append, packed_length]
        rfl
      have hrest (hview : view ∈ viewsFrom (place + bundlePartHead + part.bytes.length) rest) :
          view.place + view.len ≤ place + (packedParts (part :: rest)).length := by
        have := ih hview
        omega
      rw [viewsFrom] at h
      split at h
      · rcases List.mem_cons.mp h with hview | hview
        · rw [hview, hwhole, Nat.add_assoc, Nat.add_assoc]
          exact Nat.add_le_add_left (Nat.add_le_add_left (Nat.le_add_right _ _) _) _
        · exact hrest hview
      · exact hrest h

/-- What unpacking gives for a list of parts. -/
theorem bundleUnpack_packedParts (parts : List BundlePart) :
    bundleUnpack (packedParts parts) =
      if 1 ≤ (knownParts parts).length ∧ (knownParts parts).length ≤ bundlePartsMax then
        some (viewsFrom 0 parts)
      else none := by
  have hloop := @unpackLoop_packed 0 [] parts (packedParts parts) (Nat.zero_le _) List.drop_zero
    (Nat.zero_le _)
  simp only [List.length_nil, Nat.zero_add, List.nil_append] at hloop
  rw [bundleUnpack, hloop]
  by_cases hmax : (knownParts parts).length ≤ bundlePartsMax
  · simp only [hmax, if_true, and_true, viewsFrom_length]
    by_cases hnone : (knownParts parts).length = 0
    · rw [if_pos hnone, if_neg (by omega)]
    · rw [if_neg hnone, if_pos (by omega)]
  · rw [if_neg hmax, if_neg fun h ↦ hmax h.2]

/-- Unpacking succeeds on the lists of parts with a known part and no more of them than a bundle
has places for. -/
theorem bundleUnpack_iff {payload : List UInt8} {views : List BundleView} :
    bundleUnpack payload = some views ↔
      ∃ parts, payload = packedParts parts ∧ 1 ≤ (knownParts parts).length ∧
        (knownParts parts).length ≤ bundlePartsMax ∧ views = viewsFrom 0 parts := by
  constructor
  · intro h
    have hparts : ∃ parts, payload = packedParts parts := by
      cases hloop : unpackLoop payload 0 [] with
      | refused => simp only [bundleUnpack, hloop, reduceCtorEq] at h
      | outside => simp only [bundleUnpack, hloop, reduceCtorEq] at h
      | parts found =>
          obtain ⟨parts, hparts⟩ := parts_of_unpackLoop hloop
          exact ⟨parts, hparts⟩
    obtain ⟨parts, rfl⟩ := hparts
    rw [bundleUnpack_packedParts] at h
    split at h
    · next hcount => exact ⟨parts, rfl, hcount.1, hcount.2, (Option.some.inj h).symm⟩
    · cases h
  · rintro ⟨parts, rfl, hone, hmax, rfl⟩
    rw [bundleUnpack_packedParts, if_pos ⟨hone, hmax⟩]

/-- A list of parts to pack comes back whole when there is a part in it. -/
theorem bundleUnpack_packed {cap : Nat} (hsome : parts ≠ []) (hmax : parts.length ≤ bundlePartsMax)
    (hkinds : ∀ part ∈ parts, kindIsWritten part.kind) (hfits : (packedParts parts).length ≤ cap) :
    bundlePack parts cap = some (packedParts parts) ∧
      bundleUnpack (packedParts parts) = some (viewsFrom 0 parts) ∧
      knownParts parts = parts := by
  have hknown : knownParts parts = parts := List.filter_eq_self.mpr hkinds
  have hlength : parts.length ≠ 0 := fun h ↦ hsome (List.eq_nil_of_length_eq_zero h)
  have hcap : ¬cap < bundlePackedLen parts :=
    Nat.not_lt.mpr ((bundlePackedLen_le parts).trans hfits)
  refine ⟨?_, ?_, hknown⟩
  · rw [bundlePack, if_neg (by omega), if_neg hcap]
  · exact bundleUnpack_iff.mpr ⟨parts, rfl, by rw [hknown]; omega, by rw [hknown]; exact hmax, rfl⟩

/-- Parts of the written kinds come back as they were packed. A payload unpacks exactly when it is
a list of parts with one known part or more and no more than a bundle holds, and what comes out are
the known parts, each a slice of the payload. No payload makes the loop read outside it. -/
theorem bundle_codec :
    (∀ (parts : List BundlePart) (cap : Nat), parts ≠ [] → parts.length ≤ bundlePartsMax →
      (∀ part ∈ parts, kindIsWritten part.kind) → (packedParts parts).length ≤ cap →
        ∃ bytes views, bundlePack parts cap = some bytes ∧ bundleUnpack bytes = some views ∧
          views.map (fun view ↦ (view.kind, view.shown bytes)) =
            parts.map fun part ↦ (part.kind, part.bytes)) ∧
    (∀ payload : List UInt8, (∃ views, bundleUnpack payload = some views) ↔
      ∃ parts, payload = packedParts parts ∧ 1 ≤ (knownParts parts).length ∧
        (knownParts parts).length ≤ bundlePartsMax) ∧
    (∀ (parts : List BundlePart) (views : List BundleView),
      bundleUnpack (packedParts parts) = some views →
        views.map (fun view ↦ (view.kind, view.shown (packedParts parts))) =
            (knownParts parts).map (fun part ↦ (part.kind, part.bytes)) ∧
          ∀ view ∈ views, view.place + view.len ≤ (packedParts parts).length) ∧
    ∀ payload : List UInt8, unpackLoop payload 0 [] ≠ .outside := by
  have hshown (parts : List BundlePart) := viewsFrom_shown [] parts
  simp only [List.length_nil, List.nil_append] at hshown
  refine ⟨fun parts cap hsome hmax hkinds hfits ↦ ?_, fun payload ↦ ?_, fun parts views h ↦ ?_,
    fun payload ↦ unpackLoop_inside payload 0 []⟩
  · obtain ⟨hpack, hunpack, hknown⟩ := bundleUnpack_packed hsome hmax hkinds hfits
    have hviews := hshown parts
    rw [hknown] at hviews
    exact ⟨_, _, hpack, hunpack, hviews⟩
  · constructor
    · rintro ⟨views, h⟩
      obtain ⟨parts, hparts, hone, hmax, _⟩ := bundleUnpack_iff.mp h
      exact ⟨parts, hparts, hone, hmax⟩
    · rintro ⟨parts, hparts, hone, hmax⟩
      exact ⟨_, bundleUnpack_iff.mpr ⟨parts, hparts, hone, hmax, rfl⟩⟩
  · rw [bundleUnpack_packedParts] at h
    split at h
    · cases h
      refine ⟨hshown parts, fun view hview ↦ ?_⟩
      have hinside := viewsFrom_inside hview
      rw [Nat.zero_add] at hinside
      exact hinside
    · cases h

/-- Nothing is packed for the empty list, so there is nothing to unpack. -/
theorem no_parts_not_packed :
    ¬∀ (parts : List BundlePart) (cap : Nat), parts.length ≤ bundlePartsMax →
      (∀ part ∈ parts, kindIsWritten part.kind) → (packedParts parts).length ≤ cap →
        ∃ bytes views, bundlePack parts cap = some bytes ∧ bundleUnpack bytes = some views ∧
          views.map (fun view ↦ (view.kind, view.shown bytes)) =
            parts.map fun part ↦ (part.kind, part.bytes) := by
  intro h
  obtain ⟨bytes, views, hpack, _⟩ := h [] 0 (Nat.zero_le _) (fun _ hmem ↦ nomatch hmem)
    (Nat.le_refl 0)
  cases hpack

end DeskhopPlus.Wire
