import Mathlib.Data.List.Forall2
import DeskhopPlus.Config.Text

/-!
# The grammars of configuration texts

What a text spells: lines with one override each, lines of keys between commas, and a chord of keys
between plus signs, each key a name with blanks around it and blank lines counting for nothing. The
loops of the parsers read a cursor to its end exactly when it spells what they return.
-/

namespace DeskhopPlus.Config

open Keyboard (KeyOverride overrideCapacity passthroughCapacity)

/-! ## What is spelled -/

/-- A name with blanks around it. -/
def SpellsKey (item : List UInt8) (usage : UInt8) : Prop :=
  ∃ before name after, item = before ++ (name ++ after) ∧ (∀ c ∈ before, isSpace c = true) ∧
    (∀ c ∈ after, isSpace c = true) ∧ keyNameParse name = some usage

/-- A key, an equals sign and a key. -/
def SpellsOverride (item : List UInt8) (entry : KeyOverride) : Prop :=
  ∃ left right, item = left ++ equals :: right ∧ SpellsKey left entry.source ∧
    SpellsKey right entry.target

/-- The lines of a text that are not blank. -/
def lines (text : List UInt8) : List (List UInt8) :=
  (text.splitOn newline).filter fun line ↦ !line.all isSpace

/-- What stands between the commas and the ends of lines. -/
def keyItems (text : List UInt8) : List (List UInt8) :=
  (lines text).flatMap fun line ↦ line.splitOn comma

/-- Each line is an override. -/
def SpellsOverrides (text : List UInt8) (entries : List KeyOverride) : Prop :=
  List.Forall₂ SpellsOverride (lines text) entries

/-- Each item of each line is a key. -/
def SpellsKeys (text usages : List UInt8) : Prop := List.Forall₂ SpellsKey (keyItems text) usages

/-- What stands between the plus signs are keys. -/
def SpellsChord (text usages : List UInt8) : Prop :=
  List.Forall₂ SpellsKey (text.splitOn plus) usages

/-! ## Characters -/

theorem isHard_of_isSpace {c : UInt8} (h : isSpace c = true) : isHard c = false := by
  simp only [isSpace, Bool.or_eq_true, beq_iff_eq] at h
  obtain (rfl | rfl) | rfl := h <;> rfl

set_option maxRecDepth 4096 in
theorem isWord_of_isNameChar {c : UInt8} (h : isNameChar c = true) : isWord c = true := by
  have hall : ∀ n < 256, isNameChar (UInt8.ofNat n) = true → isWord (UInt8.ofNat n) = true := by
    decide
  have hc := hall c.toNat c.toNat_lt
  rw [UInt8.ofNat_toNat] at hc
  exact hc h

theorem isWord_eq_false_of_isSpace {c : UInt8} (h : isSpace c = true) : isWord c = false := by
  rw [isWord, h]
  rfl

theorem isWord_eq_false_of_isHard {c : UInt8} (h : isHard c = true) : isWord c = false := by
  rw [isWord, h, Bool.not_true, Bool.and_false]

theorem isSpace_eq_false_of_isHard {c : UInt8} (h : isHard c = true) : isSpace c = false := by
  by_contra hspace
  rw [Bool.not_eq_false] at hspace
  rw [isHard_of_isSpace hspace] at h
  cases h

theorem isHard_eq_false_of_isWord {c : UInt8} (h : isWord c = true) : isHard c = false := by
  by_contra hhard
  rw [Bool.not_eq_false] at hhard
  rw [isWord_eq_false_of_isHard hhard] at h
  cases h

theorem isSpace_eq_false_of_isWord {c : UInt8} (h : isWord c = true) : isSpace c = false := by
  by_contra hspace
  rw [Bool.not_eq_false] at hspace
  rw [isWord_eq_false_of_isSpace hspace] at h
  cases h

/-! ## Tokens of an item -/

/-- What a cursor has before the next character that stops a token. -/
def itemOf (cursor : List UInt8) : List UInt8 := cursor.takeWhile fun c ↦ !isHard c

/-- What a cursor has from the next character that stops a token on. -/
def behind (cursor : List UInt8) : List UInt8 := cursor.dropWhile fun c ↦ !isHard c

/-- What is at an end or at a character that stops a token. -/
def Stopped (rest : List UInt8) : Prop := ∀ c ∈ rest.head?, isHard c = true

theorem itemOf_append_behind (cursor : List UInt8) : itemOf cursor ++ behind cursor = cursor :=
  List.takeWhile_append_dropWhile

theorem itemOf_plain {cursor : List UInt8} {c : UInt8} (hc : c ∈ itemOf cursor) :
    isHard c = false := by
  have h := List.mem_takeWhile_imp hc
  rwa [Bool.not_eq_true'] at h

theorem stopped_behind (cursor : List UInt8) : Stopped (behind cursor) := by
  intro c hc
  have h := List.head?_dropWhile_not (fun c ↦ !isHard c) cursor
  rw [behind, Option.mem_def] at hc
  rw [hc] at h
  simpa using h

theorem stopped_cons {c : UInt8} (h : isHard c = true) (rest : List UInt8) :
    Stopped (c :: rest) := by
  rintro d ⟨⟩
  exact h

theorem stopped_nil : Stopped [] := by
  rintro c ⟨⟩

/-- An item is cut off where it stops. -/
theorem itemOf_append {item rest : List UInt8} (hitem : ∀ c ∈ item, isHard c = false)
    (hrest : Stopped rest) : itemOf (item ++ rest) = item ∧ behind (item ++ rest) = rest := by
  have hplain : ∀ c ∈ item, (!isHard c) = true := by simpa using hitem
  have hstop : rest.takeWhile (fun c ↦ !isHard c) = [] ∧
      rest.dropWhile (fun c ↦ !isHard c) = rest := by
    rcases rest with - | ⟨c, rest⟩
    · exact ⟨rfl, rfl⟩
    · have hc := hrest c rfl
      simp [hc]
  constructor
  · rw [itemOf, List.takeWhile_append_of_pos hplain, hstop.1, List.append_nil]
  · rw [behind, List.dropWhile_append_of_pos hplain, hstop.2]

theorem dropWhile_append_stopped {p : UInt8 → Bool} {rest : List UInt8}
    (hp : ∀ c ∈ rest.head?, p c = false) (item : List UInt8) :
    (item ++ rest).dropWhile p = item.dropWhile p ++ rest ∧
      (item ++ rest).takeWhile p = item.takeWhile p := by
  induction item with
  | nil =>
      rcases rest with - | ⟨c, rest⟩
      · exact ⟨rfl, rfl⟩
      · have hc := hp c rfl
        simp [hc]
  | cons c item ih =>
      rw [List.cons_append, List.dropWhile_cons, List.takeWhile_cons, List.dropWhile_cons,
        List.takeWhile_cons]
      split_ifs
      · exact ⟨ih.1, congrArg _ ih.2⟩
      · exact ⟨rfl, rfl⟩

/-- The token of a cursor is the token of its item, with what is behind the item behind it. -/
theorem token_append {item rest : List UInt8} (hrest : Stopped rest) :
    (token (item ++ rest)).name = (token item).name ∧
      (token (item ++ rest)).rest = (token item).rest ++ rest := by
  have hspace : ∀ c ∈ rest.head?, isSpace c = false :=
    fun c hc ↦ isSpace_eq_false_of_isHard (hrest c hc)
  have hword : ∀ c ∈ rest.head?, isWord c = false :=
    fun c hc ↦ isWord_eq_false_of_isHard (hrest c hc)
  simp only [token]
  rw [(dropWhile_append_stopped hspace item).1, (dropWhile_append_stopped hword _).1,
    (dropWhile_append_stopped hword _).2, (dropWhile_append_stopped hspace _).1]
  exact ⟨rfl, rfl⟩

/-- A key is spelled exactly by what is one token with a name of a key and nothing behind it. -/
theorem spellsKey_iff {item : List UInt8} {usage : UInt8} :
    SpellsKey item usage ↔
      (token item).rest = [] ∧ keyNameParse (token item).name = some usage := by
  constructor
  · rintro ⟨before, name, after, rfl, hbefore, hafter, hname⟩
    obtain ⟨hne, hchars⟩ := keyNameParse_nameChars hname
    have hword : ∀ c ∈ name, isWord c = true := fun c hc ↦ isWord_of_isNameChar (hchars c hc)
    have hstart : (before ++ (name ++ after)).dropWhile isSpace = name ++ after := by
      rw [List.dropWhile_append_of_pos hbefore]
      obtain ⟨c, name, rfl⟩ := List.exists_cons_of_ne_nil hne
      rw [List.cons_append, List.dropWhile_cons_of_neg]
      rw [isSpace_eq_false_of_isWord (hword c List.mem_cons_self)]
      exact Bool.false_ne_true
    have hbehind : ∀ c ∈ after.head?, isWord c = false :=
      fun c hc ↦ isWord_eq_false_of_isSpace (hafter c (List.mem_of_mem_head? hc))
    have hcut := dropWhile_append_stopped hbehind name
    rw [List.dropWhile_eq_nil_iff.2 hword, List.nil_append,
      List.takeWhile_eq_self_iff.2 hword] at hcut
    simp only [token, hstart, hcut.1, hcut.2]
    exact ⟨List.dropWhile_eq_nil_iff.2 hafter, hname⟩
  · rintro ⟨hrest, hname⟩
    refine ⟨item.takeWhile isSpace, (token item).name,
      ((item.dropWhile isSpace).dropWhile isWord), ?_, fun c hc ↦ List.mem_takeWhile_imp hc,
      List.dropWhile_eq_nil_iff.1 hrest, hname⟩
    simp only [token]
    rw [List.takeWhile_append_dropWhile, List.takeWhile_append_dropWhile]

/-- What spells a key has only names' characters and blanks. -/
theorem plain_of_spellsKey {item : List UInt8} {usage : UInt8} (h : SpellsKey item usage) :
    ∀ c ∈ item, isHard c = false := by
  obtain ⟨before, name, after, rfl, hbefore, hafter, hname⟩ := h
  intro c hc
  rw [List.mem_append, List.mem_append] at hc
  rcases hc with hc | hc | hc
  · exact isHard_of_isSpace (hbefore c hc)
  · exact isHard_eq_false_of_isWord
      (isWord_of_isNameChar ((keyNameParse_nameChars hname).2 c hc))
  · exact isHard_of_isSpace (hafter c hc)

/-- What spells a key is not blank. -/
theorem not_blank_of_spellsKey {item : List UInt8} {usage : UInt8} (h : SpellsKey item usage) :
    item.all isSpace = false := by
  by_contra hblank
  rw [Bool.not_eq_false, List.all_eq_true] at hblank
  obtain ⟨-, hname⟩ := spellsKey_iff.1 h
  have hnil : (token item).name = [] := by
    simp only [token]
    rw [List.dropWhile_eq_nil_iff.2 hblank]
    rfl
  rw [hnil] at hname
  cases hname

/-- A blank before an item makes no difference. -/
theorem spellsKey_blank_cons {c : UInt8} (hc : isSpace c = true) {item : List UInt8}
    {usage : UInt8} : SpellsKey (c :: item) usage ↔ SpellsKey item usage := by
  have hdrop : (c :: item).dropWhile isSpace = item.dropWhile isSpace :=
    List.dropWhile_cons_of_pos hc
  rw [spellsKey_iff, spellsKey_iff]
  simp only [token, hdrop]

/-- The token of a cursor names a key and stops at the end of its item exactly when the item spells
the key. -/
theorem spellsKey_itemOf {cursor rest : List UInt8} {usage : UInt8} (hrest : Stopped rest) :
    (SpellsKey (itemOf cursor) usage ∧ behind cursor = rest) ↔
      (keyNameParse (token cursor).name = some usage ∧ (token cursor).rest = rest) := by
  have htoken := @token_append (itemOf cursor) (behind cursor) (stopped_behind cursor)
  rw [itemOf_append_behind] at htoken
  rw [htoken.1, htoken.2, spellsKey_iff]
  constructor
  · rintro ⟨⟨hnil, hname⟩, rfl⟩
    exact ⟨hname, by rw [hnil, List.nil_append]⟩
  · rintro ⟨hname, hbehind⟩
    -- what a token leaves of its item starts with a character of a token
    rcases hleft : (token (itemOf cursor)).rest with - | ⟨c, left⟩
    · rw [hleft, List.nil_append] at hbehind
      exact ⟨⟨rfl, hname⟩, hbehind⟩
    · rw [hleft, List.cons_append] at hbehind
      have hhard : isHard c = true := hrest c (by rw [← hbehind]; rfl)
      have hmem : c ∈ itemOf cursor := by
        have hsuffix : (token (itemOf cursor)).rest <:+ itemOf cursor :=
          (List.dropWhile_suffix _).trans
            ((List.dropWhile_suffix _).trans (List.dropWhile_suffix _))
        exact hsuffix.subset (by rw [hleft]; exact List.mem_cons_self)
      rw [itemOf_plain hmem] at hhard
      cases hhard

/-! ## Lines -/

/-- A text is one line, or a line and a text behind its end. -/
theorem split_at (stop : UInt8) (text : List UInt8) :
    stop ∉ text ∨ ∃ line rest, stop ∉ line ∧ text = line ++ stop :: rest := by
  by_cases hmem : stop ∈ text
  · obtain ⟨line, rest, htext, hline⟩ := List.eq_append_cons_of_mem hmem
    exact .inr ⟨line, rest, hline, htext⟩
  · exact .inl hmem

theorem lines_newline_cons (rest : List UInt8) : lines (newline :: rest) = lines rest := by
  rw [lines, List.splitOn_cons_eq_if_modifyHead, if_pos (beq_self_eq_true _)]
  rfl

/-- What is at the end of a line. -/
def AtLineEnd (rest : List UInt8) : Prop := rest = [] ∨ rest.head? = some newline

theorem stopped_of_atLineEnd {rest : List UInt8} (h : AtLineEnd rest) : Stopped rest := by
  rcases h with rfl | h
  · exact stopped_nil
  · intro c hc
    rw [h] at hc
    cases hc
    rfl

/-- A text is a line and what is at its end. -/
theorem first_line (text : List UInt8) :
    ∃ line rest, newline ∉ line ∧ text = line ++ rest ∧ AtLineEnd rest := by
  rcases split_at newline text with hnone | ⟨line, rest, hline, htext⟩
  · exact ⟨text, [], hnone, (List.append_nil _).symm, .inl rfl⟩
  · exact ⟨line, newline :: rest, hline, htext, .inr rfl⟩

theorem lines_append {line rest : List UInt8} (hline : newline ∉ line)
    (hblank : line.all isSpace = false) (hrest : AtLineEnd rest) :
    lines (line ++ rest) = line :: lines rest := by
  rcases hrest with rfl | hnewline
  · rw [List.append_nil, lines, List.splitOn_eq_singleton hline,
      List.filter_cons_of_pos (by simp [hblank])]
    rfl
  · obtain ⟨rest, rfl⟩ := List.head?_eq_some_iff.1 hnewline
    rw [lines_newline_cons, lines, List.splitOn_append_cons_self_of_not_mem hline,
      List.filter_cons_of_pos (by simp [hblank])]
    rfl

theorem keyItems_append {line rest : List UInt8} (hline : newline ∉ line)
    (hblank : line.all isSpace = false) (hrest : AtLineEnd rest) :
    keyItems (line ++ rest) = line.splitOn comma ++ keyItems rest := by
  rw [keyItems, lines_append hline hblank hrest]
  rfl

/-- The first line of a text that does not start with a blank or an end of line. -/
theorem first_line_cons {c : UInt8} (hc : isSpace c = false) (hend : c ≠ newline)
    (text : List UInt8) :
    ∃ line rest, newline ∉ line ∧ line.all isSpace = false ∧ c :: text = line ++ rest ∧
      AtLineEnd rest := by
  obtain ⟨line, rest, hline, htext, hrest⟩ := first_line (c :: text)
  refine ⟨line, rest, hline, ?_, htext, hrest⟩
  rcases line with - | ⟨d, line⟩
  · rw [List.nil_append] at htext
    rcases hrest with rfl | hnewline
    · cases htext
    · rw [← htext] at hnewline
      exact absurd (Option.some.inj hnewline) hend
  · obtain ⟨rfl, -⟩ := List.cons.inj htext
    rw [List.all_cons, hc, Bool.false_and]

/-- A blank before a text is a blank before its first line, and no line of its own. -/
theorem lines_blank_cons {c : UInt8} (hc : isSpace c = true) (text : List UInt8) :
    lines (c :: text) = lines text ∨
      ∃ line more, lines text = line :: more ∧ lines (c :: text) = (c :: line) :: more := by
  have hend : c ≠ newline := by
    rintro rfl
    cases hc
  obtain ⟨line, more, hsplit⟩ := List.exists_cons_of_ne_nil (List.splitOn_ne_nil newline text)
  have hcons : (c :: text).splitOn newline = (c :: line) :: more := by
    rw [List.splitOn_cons_eq_if_modifyHead, if_neg (by simpa using hend), hsplit]
    rfl
  have hall : (c :: line).all isSpace = line.all isSpace := by
    rw [List.all_cons, hc, Bool.true_and]
  rw [lines, lines, hcons, hsplit, List.filter_cons, List.filter_cons, hall]
  split_ifs
  · exact .inr ⟨line, _, rfl, rfl⟩
  · exact .inl rfl

theorem spellsOverride_blank_cons {c : UInt8} (hc : isSpace c = true) {line : List UInt8}
    {entry : KeyOverride} : SpellsOverride (c :: line) entry ↔ SpellsOverride line entry := by
  constructor
  · rintro ⟨left, right, hline, hleft, hright⟩
    rcases left with - | ⟨d, left⟩
    · cases not_blank_of_spellsKey hleft
    · obtain ⟨rfl, rfl⟩ := List.cons.inj hline
      exact ⟨left, right, rfl, (spellsKey_blank_cons hc).1 hleft, hright⟩
  · rintro ⟨left, right, rfl, hleft, hright⟩
    exact ⟨c :: left, right, rfl, (spellsKey_blank_cons hc).2 hleft, hright⟩

theorem spellsOverrides_blank_cons {c : UInt8} (hc : isSpace c = true) (text : List UInt8)
    (entries : List KeyOverride) :
    SpellsOverrides (c :: text) entries ↔ SpellsOverrides text entries := by
  rw [SpellsOverrides, SpellsOverrides]
  rcases lines_blank_cons hc text with hlines | ⟨line, more, hlines, hcons⟩
  · rw [hlines]
  · rw [hlines, hcons, List.forall₂_cons_left_iff, List.forall₂_cons_left_iff]
    simp only [spellsOverride_blank_cons hc]

theorem splitOn_blank_cons {c : UInt8} (hc : isSpace c = true) (stop : UInt8)
    (hstop : isHard stop = true) (item : List UInt8) :
    ∃ first more, item.splitOn stop = first :: more ∧
      (c :: item).splitOn stop = (c :: first) :: more := by
  have hne : (c == stop) = false := by
    rw [beq_eq_false_iff_ne]
    rintro rfl
    rw [isHard_of_isSpace hc] at hstop
    cases hstop
  obtain ⟨first, more, hsplit⟩ := List.exists_cons_of_ne_nil (List.splitOn_ne_nil stop item)
  refine ⟨first, more, hsplit, ?_⟩
  rw [List.splitOn_cons_eq_if_modifyHead, hne, hsplit]
  rfl

theorem spellsKeys_blank_cons {c : UInt8} (hc : isSpace c = true) (text usages : List UInt8) :
    SpellsKeys (c :: text) usages ↔ SpellsKeys text usages := by
  rw [SpellsKeys, SpellsKeys, keyItems, keyItems]
  rcases lines_blank_cons hc text with hlines | ⟨line, more, hlines, hcons⟩
  · rw [hlines]
  · obtain ⟨first, others, hfirst, hsplit⟩ := splitOn_blank_cons hc comma rfl line
    rw [hlines, hcons, List.flatMap_cons, List.flatMap_cons, hfirst, hsplit, List.cons_append,
      List.cons_append, List.forall₂_cons_left_iff, List.forall₂_cons_left_iff]
    simp only [spellsKey_blank_cons hc]

/-- Skipping blanks and ends of lines changes nothing of what is spelled. -/
theorem skipLines_iff {P : List UInt8 → Prop} (hend : ∀ rest, P (newline :: rest) ↔ P rest)
    (hblank : ∀ c rest, isSpace c = true → (P (c :: rest) ↔ P rest)) (cursor : List UInt8)
    (line : Nat) : P (skipLines cursor line).1 ↔ P cursor := by
  induction cursor generalizing line with
  | nil => exact Iff.rfl
  | cons c rest ih =>
      rw [skipLines]
      split_ifs with hnewline hspace
      · rw [ih, hnewline, hend]
      · rw [ih, hblank c rest hspace]
      · exact Iff.rfl

/-- What is left after blanks and ends of lines starts with neither. -/
theorem skipLines_head {cursor rest : List UInt8} {line : Nat} {c : UInt8}
    (h : (skipLines cursor line).1 = c :: rest) : isSpace c = false ∧ c ≠ newline := by
  induction cursor generalizing line with
  | nil => cases h
  | cons d cursor ih =>
      rw [skipLines] at h
      split_ifs at h with hnewline hspace
      · exact ih h
      · exact ih h
      · obtain ⟨rfl, rfl⟩ := List.cons.inj h
        exact ⟨Bool.eq_false_iff.2 hspace, hnewline⟩

/-! ## One step -/

theorem notMem_of_spellsKey {stop : UInt8} (hstop : isHard stop = true) {item : List UInt8}
    {usage : UInt8} (h : SpellsKey item usage) : stop ∉ item := by
  intro hmem
  rw [plain_of_spellsKey h stop hmem] at hstop
  cases hstop

/-- A text in which something stands spells overrides exactly when it starts with one, up to the
end of its line, and spells the others behind it. -/
theorem spellsOverrides_step {c : UInt8} {text : List UInt8} (hc : isSpace c = false)
    (hend : c ≠ newline) (entries : List KeyOverride) :
    SpellsOverrides (c :: text) entries ↔
      ∃ behindEquals source target more, entries = ⟨source, target⟩ :: more ∧
        (token (c :: text)).rest = equals :: behindEquals ∧ AtLineEnd (token behindEquals).rest ∧
        keyNameParse (token (c :: text)).name = some source ∧
        keyNameParse (token behindEquals).name = some target ∧
        SpellsOverrides (token behindEquals).rest more := by
  constructor
  · intro hspells
    obtain ⟨line, rest, hline, hblank, htext, hrest⟩ := first_line_cons hc hend text
    rw [SpellsOverrides, htext, lines_append hline hblank hrest,
      List.forall₂_cons_left_iff] at hspells
    obtain ⟨entry, more, ⟨left, right, rfl, hleft, hright⟩, hmore, rfl⟩ := hspells
    rw [List.append_assoc, List.cons_append] at htext
    have hstop : Stopped (equals :: (right ++ rest)) := stopped_cons rfl _
    have hfirst := itemOf_append (plain_of_spellsKey hleft) hstop
    have hsecond := itemOf_append (plain_of_spellsKey hright) (stopped_of_atLineEnd hrest)
    have horigin := (spellsKey_itemOf hstop).1 ⟨hfirst.1.symm ▸ hleft, hfirst.2⟩
    have htarget := (spellsKey_itemOf (stopped_of_atLineEnd hrest)).1
      ⟨hsecond.1.symm ▸ hright, hsecond.2⟩
    rw [htext]
    exact ⟨right ++ rest, entry.source, entry.target, more, rfl, horigin.2,
      htarget.2.symm ▸ hrest, horigin.1, htarget.1, htarget.2.symm ▸ hmore⟩
  · rintro ⟨behindEquals, source, target, more, rfl, horigin, hrest, hsource, htarget, hmore⟩
    obtain ⟨hleft, hbehind⟩ :=
      (spellsKey_itemOf (stopped_cons rfl behindEquals)).2 ⟨hsource, horigin⟩
    obtain ⟨hright, hafter⟩ := (spellsKey_itemOf (stopped_of_atLineEnd hrest)).2 ⟨htarget, rfl⟩
    have htext : c :: text = (itemOf (c :: text) ++ equals :: itemOf behindEquals) ++
        (token behindEquals).rest := by
      rw [List.append_assoc, List.cons_append, ← hafter, itemOf_append_behind, ← hbehind,
        itemOf_append_behind]
    have hline : newline ∉ itemOf (c :: text) ++ equals :: itemOf behindEquals := by
      rw [List.mem_append, List.mem_cons]
      rintro (hmem | hmem | hmem)
      · exact notMem_of_spellsKey rfl hleft hmem
      · cases hmem
      · exact notMem_of_spellsKey rfl hright hmem
    have hblank : (itemOf (c :: text) ++ equals :: itemOf behindEquals).all isSpace = false := by
      rw [List.all_append, not_blank_of_spellsKey hleft, Bool.false_and]
    have hlines := lines_append hline hblank hrest
    rw [← htext] at hlines
    rw [SpellsOverrides, hlines]
    exact List.Forall₂.cons ⟨_, _, rfl, hleft, hright⟩ hmore

/-- Behind a comma an item stands in the same line. -/
def ItemAhead (rest : List UInt8) : Prop :=
  ¬ (rest.dropWhile isSpace = [] ∨ (rest.dropWhile isSpace).head? = some comma ∨
    (rest.dropWhile isSpace).head? = some newline)

/-- An item that is spelled is ahead. -/
theorem itemAhead_of_spelled {line rest more usages : List UInt8} {others : List (List UInt8)}
    (hline : newline ∉ line) (hrest : AtLineEnd rest)
    (hspells : List.Forall₂ SpellsKey (line.splitOn comma ++ others) usages)
    (hmore : more = line ++ rest) : line.all isSpace = false ∧ ItemAhead more := by
  subst hmore
  have hfirst : ∀ {first tail}, line.splitOn comma = first :: tail → first.all isSpace = false := by
    intro first tail hsplit
    rw [hsplit, List.cons_append, List.forall₂_cons_left_iff] at hspells
    obtain ⟨usage, -, hspelled, -⟩ := hspells
    exact not_blank_of_spellsKey hspelled
  have hblank : line.all isSpace = false := by
    rcases split_at comma line with hnone | ⟨first, tail, hnone, rfl⟩
    · exact hfirst (List.splitOn_eq_singleton hnone)
    · rw [List.all_append, hfirst (List.splitOn_append_cons_self_of_not_mem hnone _),
        Bool.false_and]
  refine ⟨hblank, ?_⟩
  have hspace : ∀ c ∈ rest.head?, isSpace c = false :=
    fun c hc ↦ isSpace_eq_false_of_isHard (stopped_of_atLineEnd hrest c hc)
  rcases hdrop : line.dropWhile isSpace with - | ⟨d, tail⟩
  · rw [List.all_eq_true.2 (List.dropWhile_eq_nil_iff.1 hdrop)] at hblank
    cases hblank
  · have hsplit : line.takeWhile isSpace ++ d :: tail = line := by
      rw [← hdrop, List.takeWhile_append_dropWhile]
    rw [ItemAhead, (dropWhile_append_stopped hspace line).1, hdrop]
    rintro (hnil | hcomma | hnewline)
    · cases hnil
    · obtain rfl := Option.some.inj hcomma
      have hblanks : ∀ c ∈ line.takeWhile isSpace, isSpace c = true :=
        fun c hc ↦ List.mem_takeWhile_imp hc
      have hnone : comma ∉ line.takeWhile isSpace := by
        intro hmem
        cases hblanks comma hmem
      have hblank := hfirst (by
        rw [← hsplit, List.splitOn_append_cons_self_of_not_mem hnone])
      rw [List.all_eq_true.2 hblanks] at hblank
      cases hblank
    · obtain rfl := Option.some.inj hnewline
      exact hline (by
        rw [← hsplit]
        exact List.mem_append_right _ List.mem_cons_self)

/-- A line that starts with blanks and an item is not blank. -/
theorem not_blank_of_itemAhead {line rest : List UInt8} (hrest : AtLineEnd rest)
    (h : ItemAhead (line ++ rest)) : line.all isSpace = false := by
  by_contra hblank
  rw [Bool.not_eq_false, List.all_eq_true] at hblank
  apply h
  rw [List.dropWhile_append_of_pos hblank]
  rcases hrest with rfl | hnewline
  · exact .inl rfl
  · obtain ⟨rest, rfl⟩ := List.head?_eq_some_iff.1 hnewline
    exact .inr (.inr rfl)

/-- A text in which something stands spells keys exactly when it starts with one and spells the
others behind it, or behind a comma that an item follows. -/
theorem spellsKeys_step {c : UInt8} {text : List UInt8} (hc : isSpace c = false)
    (hend : c ≠ newline) (usages : List UInt8) :
    SpellsKeys (c :: text) usages ↔
      ∃ usage more, usages = usage :: more ∧
        keyNameParse (token (c :: text)).name = some usage ∧
        ((AtLineEnd (token (c :: text)).rest ∧ SpellsKeys (token (c :: text)).rest more) ∨
          ∃ behindComma, (token (c :: text)).rest = comma :: behindComma ∧ ItemAhead behindComma ∧
            SpellsKeys behindComma more) := by
  constructor
  · intro hspells
    obtain ⟨line, rest, hline, hblank, htext, hrest⟩ := first_line_cons hc hend text
    rw [SpellsKeys, htext, keyItems_append hline hblank hrest] at hspells
    rw [htext]
    -- the first item ends at the first comma of its line, or at the end of the line
    rcases split_at comma line with hnone | ⟨first, others, hnone, rfl⟩
    · rw [List.splitOn_eq_singleton hnone, List.singleton_append,
        List.forall₂_cons_left_iff] at hspells
      obtain ⟨usage, more, hkey, hmore, rfl⟩ := hspells
      have hitem := itemOf_append (plain_of_spellsKey hkey) (stopped_of_atLineEnd hrest)
      have htoken := (spellsKey_itemOf (stopped_of_atLineEnd hrest)).1
        ⟨hitem.1.symm ▸ hkey, hitem.2⟩
      exact ⟨usage, more, rfl, htoken.1, .inl ⟨htoken.2.symm ▸ hrest, htoken.2.symm ▸ hmore⟩⟩
    · rw [List.splitOn_append_cons_self_of_not_mem hnone, List.cons_append,
        List.forall₂_cons_left_iff] at hspells
      obtain ⟨usage, more, hkey, hmore, rfl⟩ := hspells
      have hothers : newline ∉ others :=
        fun hmem ↦ hline (List.mem_append_right _ (List.mem_cons_of_mem _ hmem))
      -- an item is spelled behind the comma, so the comma is not the last of its line
      obtain ⟨hblank', hahead⟩ := itemAhead_of_spelled hothers hrest hmore rfl
      have hstop : Stopped (comma :: (others ++ rest)) := stopped_cons rfl _
      have hitem := itemOf_append (plain_of_spellsKey hkey) hstop
      have htoken := (spellsKey_itemOf hstop).1 ⟨hitem.1.symm ▸ hkey, hitem.2⟩
      rw [List.append_assoc, List.cons_append]
      refine ⟨usage, more, rfl, htoken.1, .inr ⟨others ++ rest, htoken.2, hahead, ?_⟩⟩
      rw [SpellsKeys, keyItems_append hothers hblank' hrest]
      exact hmore
  · rintro ⟨usage, more, rfl, hname, ⟨hrest, hmore⟩ | ⟨behindComma, hcomma, hahead, hmore⟩⟩
    · -- the item found stands alone on its line
      obtain ⟨hkey, hbehind⟩ := (spellsKey_itemOf (stopped_of_atLineEnd hrest)).2 ⟨hname, rfl⟩
      have hitems := keyItems_append (notMem_of_spellsKey rfl hkey)
        (not_blank_of_spellsKey hkey) hrest
      rw [← hbehind, itemOf_append_behind, hbehind,
        List.splitOn_eq_singleton (notMem_of_spellsKey rfl hkey)] at hitems
      rw [SpellsKeys, hitems]
      exact List.Forall₂.cons hkey hmore
    · obtain ⟨hkey, hbehind⟩ := (spellsKey_itemOf (stopped_cons rfl behindComma)).2 ⟨hname, hcomma⟩
      obtain ⟨line, rest, hline, rfl, hrest⟩ := first_line behindComma
      have hblank := not_blank_of_itemAhead hrest hahead
      have htext : c :: text = (itemOf (c :: text) ++ comma :: line) ++ rest := by
        rw [List.append_assoc, List.cons_append, ← hbehind, itemOf_append_behind]
      have hwhole : newline ∉ itemOf (c :: text) ++ comma :: line := by
        rw [List.mem_append, List.mem_cons]
        rintro (hmem | hmem | hmem)
        · exact notMem_of_spellsKey rfl hkey hmem
        · cases hmem
        · exact hline hmem
      have hitems := keyItems_append hwhole
        (by rw [List.all_append, not_blank_of_spellsKey hkey, Bool.false_and]) hrest
      rw [← htext, List.splitOn_append_cons_self_of_not_mem (notMem_of_spellsKey rfl hkey),
        List.cons_append, ← keyItems_append hline hblank hrest] at hitems
      rw [SpellsKeys, hitems]
      exact List.Forall₂.cons hkey hmore

/-- A text spells a chord exactly when it starts with a key and ends there, or a plus sign follows
and it spells the rest behind that. -/
theorem spellsChord_step (text usages : List UInt8) :
    SpellsChord text usages ↔
      ∃ usage more, usages = usage :: more ∧ keyNameParse (token text).name = some usage ∧
        (((token text).rest = [] ∧ more = []) ∨
          ∃ behindPlus, (token text).rest = plus :: behindPlus ∧ SpellsChord behindPlus more) := by
  constructor
  · intro hspells
    rw [SpellsChord] at hspells
    rcases split_at plus text with hnone | ⟨first, others, hnone, rfl⟩
    · rw [List.splitOn_eq_singleton hnone, List.forall₂_cons_left_iff] at hspells
      obtain ⟨usage, more, hkey, hmore, rfl⟩ := hspells
      obtain ⟨hrest, hname⟩ := spellsKey_iff.1 hkey
      exact ⟨usage, more, rfl, hname, .inl ⟨hrest, List.forall₂_nil_left_iff.1 hmore⟩⟩
    · rw [List.splitOn_append_cons_self_of_not_mem hnone, List.forall₂_cons_left_iff] at hspells
      obtain ⟨usage, more, hkey, hmore, rfl⟩ := hspells
      have hstop : Stopped (plus :: others) := stopped_cons rfl _
      have hitem := itemOf_append (plain_of_spellsKey hkey) hstop
      have htoken := (spellsKey_itemOf hstop).1 ⟨hitem.1.symm ▸ hkey, hitem.2⟩
      exact ⟨usage, more, rfl, htoken.1, .inr ⟨others, htoken.2, hmore⟩⟩
  · rintro ⟨usage, more, rfl, hname, ⟨hrest, rfl⟩ | ⟨behindPlus, hplus, hmore⟩⟩
    · have hkey := spellsKey_iff.2 ⟨hrest, hname⟩
      rw [SpellsChord, List.splitOn_eq_singleton (notMem_of_spellsKey rfl hkey)]
      exact List.Forall₂.cons hkey List.Forall₂.nil
    · obtain ⟨hkey, hbehind⟩ := (spellsKey_itemOf (stopped_cons rfl behindPlus)).2 ⟨hname, hplus⟩
      have hnone : plus ∉ itemOf text := notMem_of_spellsKey rfl hkey
      have hsplit := List.splitOn_append_cons_self_of_not_mem hnone behindPlus
      rw [← hbehind, itemOf_append_behind] at hsplit
      rw [SpellsChord, hsplit]
      exact List.Forall₂.cons hkey hmore

end DeskhopPlus.Config
