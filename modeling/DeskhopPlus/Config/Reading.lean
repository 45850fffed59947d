import DeskhopPlus.Config.Grammar

/-!
# Reading configuration texts

The parsers succeed exactly on the texts of their grammars, with the keys named in order, and a text
that joins the names of keys is read as those keys. Where a parser fails, what it would have filled
is as before, and the error names a line of the text.
-/

namespace DeskhopPlus.Config

open Keyboard (KeyOverride overrideCapacity passthroughCapacity)

theorem spellsOverrides_nil {entries : List KeyOverride} :
    SpellsOverrides [] entries ↔ entries = [] := List.forall₂_nil_left_iff

theorem spellsKeys_nil {usages : List UInt8} : SpellsKeys [] usages ↔ usages = [] :=
  List.forall₂_nil_left_iff

theorem spellsOverrides_skip (cursor : List UInt8) (line : Nat) (entries : List KeyOverride) :
    SpellsOverrides (skipLines cursor line).1 entries ↔ SpellsOverrides cursor entries := by
  refine @skipLines_iff (fun text ↦ SpellsOverrides text entries) (fun rest ↦ ?_)
    (fun c rest hc ↦ spellsOverrides_blank_cons hc rest entries) cursor line
  rw [SpellsOverrides, lines_newline_cons, SpellsOverrides]

theorem spellsKeys_skip (cursor : List UInt8) (line : Nat) (usages : List UInt8) :
    SpellsKeys (skipLines cursor line).1 usages ↔ SpellsKeys cursor usages := by
  refine @skipLines_iff (fun text ↦ SpellsKeys text usages) (fun rest ↦ ?_)
    (fun c rest hc ↦ spellsKeys_blank_cons hc rest usages) cursor line
  rw [SpellsKeys, keyItems, lines_newline_cons, SpellsKeys, keyItems]

/-- What stands after the blanks and ends of lines is an override, up to its end. -/
theorem spellsOverrides_read {cursor : List UInt8} {line : Nat}
    (hsome : ¬ (skipLines cursor line).1 = []) (entries : List KeyOverride) :
    SpellsOverrides cursor entries ↔
      ∃ behindEquals source target more, entries = ⟨source, target⟩ :: more ∧
        (token (skipLines cursor line).1).rest = equals :: behindEquals ∧
        AtLineEnd (token behindEquals).rest ∧
        keyNameParse (token (skipLines cursor line).1).name = some source ∧
        keyNameParse (token behindEquals).name = some target ∧
        SpellsOverrides (token behindEquals).rest more := by
  rw [← spellsOverrides_skip cursor line]
  rcases hcursor : (skipLines cursor line).1 with - | ⟨c, text⟩
  · exact absurd hcursor hsome
  · exact spellsOverrides_step (skipLines_head hcursor).1 (skipLines_head hcursor).2 entries

/-- An error is right where the table and what the cursor spells are too much, or nothing is
spelled. -/
theorem refused {α : Type} {e : TextError} {parsed result : List α} {capacity : Nat}
    {Spells : List α → Prop}
    (h : ∀ more, Spells more → (parsed ++ more).length ≤ capacity → False) :
    Except.error e = Except.ok result ↔
      ∃ more, result = parsed ++ more ∧ result.length ≤ capacity ∧ Spells more := by
  constructor
  · rintro ⟨⟩
  · rintro ⟨more, rfl, hlength, hspells⟩
    exact (h more hspells hlength).elim

/-- One entry is read and the loop goes on where the entry ends. -/
theorem extended {α : Type} {entry : α} {parsed result : List α} {capacity : Nat}
    {Spells Rest : List α → Prop}
    (h : ∀ more, Spells more ↔ ∃ others, more = entry :: others ∧ Rest others) :
    (∃ more, result = parsed ++ [entry] ++ more ∧ result.length ≤ capacity ∧ Rest more) ↔
      ∃ more, result = parsed ++ more ∧ result.length ≤ capacity ∧ Spells more := by
  constructor
  · rintro ⟨more, rfl, hlength, hrest⟩
    exact ⟨entry :: more, (List.append_cons ..).symm, hlength, (h _).2 ⟨more, rfl, hrest⟩⟩
  · rintro ⟨more, rfl, hlength, hspells⟩
    obtain ⟨others, rfl, hrest⟩ := (h more).1 hspells
    exact ⟨others, List.append_cons .., hlength, hrest⟩

/-- There is room for one entry more. -/
theorem length_extended {α : Type} {parsed : List α} {capacity : Nat}
    (h : ¬ capacity ≤ parsed.length) (entry : α) : (parsed ++ [entry]).length ≤ capacity := by
  rw [List.length_append, List.length_singleton]
  omega

/-- The loop over overrides reads what its cursor spells. -/
theorem overridesLoop_ok {capacity : Nat} (cursor : List UInt8) (line : Nat)
    (parsed : List KeyOverride) (hparsed : parsed.length ≤ capacity) (result : List KeyOverride) :
    overridesLoop capacity cursor line parsed = .ok result ↔
      ∃ more, result = parsed ++ more ∧ result.length ≤ capacity ∧
        SpellsOverrides cursor more := by
  fun_induction overridesLoop capacity cursor line parsed with
  | case1 cursor line parsed skipped hnil =>
      have hmore : ∀ more, SpellsOverrides cursor more ↔ more = [] := by
        intro more
        rw [← spellsOverrides_skip cursor line, hnil, spellsOverrides_nil]
      simp only [hmore, Except.ok.injEq]
      constructor
      · rintro rfl
        exact ⟨[], (List.append_nil _).symm, hparsed, rfl⟩
      · rintro ⟨more, rfl, -, rfl⟩
        exact (List.append_nil _).symm
  | case2 cursor line parsed skipped hsome origin hname =>
      -- no name stands before the equals sign
      refine refused fun more hspells _ ↦ ?_
      obtain ⟨_, _, _, _, -, -, -, hsource, -⟩ := (spellsOverrides_read hsome more).1 hspells
      rw [show (token skipped.1).name = [] from hname] at hsource
      cases hsource
  | case3 cursor line parsed skipped hsome origin hname hequals =>
      -- the text ends where the equals sign should be
      refine refused fun more hspells _ ↦ ?_
      obtain ⟨_, _, _, _, -, hrest, -⟩ := (spellsOverrides_read hsome more).1 hspells
      cases hequals.symm.trans hrest
  | case4 cursor line parsed skipped hsome origin hname c cursor' hequals hc =>
      -- another character stands where the equals sign should be
      refine refused fun more hspells _ ↦ ?_
      obtain ⟨_, _, _, _, -, hrest, -⟩ := (spellsOverrides_read hsome more).1 hspells
      exact hc (List.cons.inj (hequals.symm.trans hrest)).1
  | case5 cursor line parsed skipped hsome origin hname c cursor' hequals hc target htarget =>
      -- no name stands behind it
      refine refused fun more hspells _ ↦ ?_
      obtain ⟨_, _, _, _, -, hrest, -, -, hparse, -⟩ := (spellsOverrides_read hsome more).1 hspells
      obtain ⟨-, rfl⟩ := List.cons.inj (hequals.symm.trans hrest)
      rw [show (token cursor').name = [] from htarget] at hparse
      cases hparse
  | case6 cursor line parsed skipped hsome origin hname c cursor' hequals hc target htarget
      hbehind =>
      -- something follows the second name on its line
      refine refused fun more hspells _ ↦ ?_
      obtain ⟨_, _, _, _, -, hrest, hend, -⟩ := (spellsOverrides_read hsome more).1 hspells
      obtain ⟨-, rfl⟩ := List.cons.inj (hequals.symm.trans hrest)
      exact not_or.2 hbehind hend
  | case7 cursor line parsed skipped hsome origin hname c cursor' hequals hc target htarget hbehind
      hfull =>
      -- the table is full
      refine refused fun more hspells hlength ↦ ?_
      obtain ⟨_, _, _, _, rfl, -⟩ := (spellsOverrides_read hsome more).1 hspells
      rw [List.length_append, List.length_cons] at hlength
      omega
  | case8 cursor line parsed skipped hsome origin hname c cursor' hequals hc target htarget hbehind
      hfull hunknown =>
      -- one of the two names is not that of a key
      refine refused fun more hspells _ ↦ ?_
      obtain ⟨_, _, _, _, -, -, -, hsource, -⟩ := (spellsOverrides_read hsome more).1 hspells
      cases hunknown.symm.trans hsource
  | case9 cursor line parsed skipped hsome origin hname c cursor' hequals hc target htarget hbehind
      hfull source hsource hunknown =>
      refine refused fun more hspells _ ↦ ?_
      obtain ⟨_, _, _, _, -, hrest, -, -, hparse, -⟩ := (spellsOverrides_read hsome more).1 hspells
      obtain ⟨-, rfl⟩ := List.cons.inj (hequals.symm.trans hrest)
      cases hunknown.symm.trans hparse
  | case10 cursor line parsed skipped hsome origin hname c cursor' hequals hc target htarget hbehind
      hfull source hsource usage husage ih =>
      -- the entry is stored, and the rest is what the loop reads next
      rw [ih (length_extended hfull _)]
      refine extended fun more ↦ ?_
      rw [spellsOverrides_read hsome]
      constructor
      · rintro ⟨_, _, _, others, rfl, hrest, -, hparse, hparse', hmore⟩
        obtain ⟨-, rfl⟩ := List.cons.inj (hequals.symm.trans hrest)
        obtain rfl := Option.some.inj (hsource.symm.trans hparse)
        obtain rfl := Option.some.inj (husage.symm.trans hparse')
        exact ⟨others, rfl, hmore⟩
      · rintro ⟨others, rfl, hmore⟩
        refine ⟨cursor', source, usage, others, rfl, ?_, ?_, hsource, husage, hmore⟩
        · rw [← not_ne_iff.1 hc]
          exact hequals
        · by_contra hend
          exact hbehind (not_or.1 hend)

/-- What stands after the blanks and ends of lines is a key. -/
theorem spellsKeys_read {cursor : List UInt8} {line : Nat}
    (hsome : ¬ (skipLines cursor line).1 = []) (usages : List UInt8) :
    SpellsKeys cursor usages ↔
      ∃ usage more, usages = usage :: more ∧
        keyNameParse (token (skipLines cursor line).1).name = some usage ∧
        ((AtLineEnd (token (skipLines cursor line).1).rest ∧
            SpellsKeys (token (skipLines cursor line).1).rest more) ∨
          ∃ behindComma, (token (skipLines cursor line).1).rest = comma :: behindComma ∧
            ItemAhead behindComma ∧ SpellsKeys behindComma more) := by
  rw [← spellsKeys_skip cursor line]
  rcases hcursor : (skipLines cursor line).1 with - | ⟨c, text⟩
  · exact absurd hcursor hsome
  · exact spellsKeys_step (skipLines_head hcursor).1 (skipLines_head hcursor).2 usages

/-- The loop over keys reads what its cursor spells. -/
theorem keysLoop_ok {capacity : Nat} (cursor : List UInt8) (line : Nat) (parsed : List UInt8)
    (hparsed : parsed.length ≤ capacity) (result : List UInt8) :
    keysLoop capacity cursor line parsed = .ok result ↔
      ∃ more, result = parsed ++ more ∧ result.length ≤ capacity ∧ SpellsKeys cursor more := by
  fun_induction keysLoop capacity cursor line parsed with
  | case1 cursor line parsed skipped hnil =>
      have hmore : ∀ more, SpellsKeys cursor more ↔ more = [] := by
        intro more
        rw [← spellsKeys_skip cursor line, hnil, spellsKeys_nil]
      simp only [hmore, Except.ok.injEq]
      constructor
      · rintro rfl
        exact ⟨[], (List.append_nil _).symm, hparsed, rfl⟩
      · rintro ⟨more, rfl, -, rfl⟩
        exact (List.append_nil _).symm
  | case2 cursor line parsed skipped hsome hcomma =>
      -- a comma with nothing before it
      refine refused fun more hspells _ ↦ ?_
      obtain ⟨_, _, -, hparse, -⟩ := (spellsKeys_read hsome more).1 hspells
      obtain ⟨rest, hrest⟩ := List.head?_eq_some_iff.1 hcomma
      rw [show (skipLines cursor line).1 = comma :: rest from hrest] at hparse
      cases hparse
  | case3 cursor line parsed skipped hsome hcomma key hname =>
      refine refused fun more hspells _ ↦ ?_
      obtain ⟨_, _, -, hparse, -⟩ := (spellsKeys_read hsome more).1 hspells
      rw [show (token skipped.1).name = [] from hname] at hparse
      cases hparse
  | case4 cursor line parsed skipped hsome hcomma key hname hfull =>
      refine refused fun more hspells hlength ↦ ?_
      obtain ⟨_, _, rfl, -⟩ := (spellsKeys_read hsome more).1 hspells
      rw [List.length_append, List.length_cons] at hlength
      omega
  | case5 cursor line parsed skipped hsome hcomma key hname hfull hunknown =>
      refine refused fun more hspells _ ↦ ?_
      obtain ⟨_, _, -, hparse, -⟩ := (spellsKeys_read hsome more).1 hspells
      cases hunknown.symm.trans hparse
  | case6 cursor line parsed skipped hsome hcomma key hname hfull usage husage hrest =>
      -- the text ends behind the key, so nothing more is spelled
      have hspells : ∀ more, SpellsKeys cursor more ↔ ∃ others, more = usage :: others ∧
          others = [] := by
        intro more
        rw [spellsKeys_read hsome]
        constructor
        · rintro ⟨_, others, rfl, hparse, ⟨-, hmore⟩ | ⟨_, hcomma', -⟩⟩
          · obtain rfl := Option.some.inj (husage.symm.trans hparse)
            rw [show (token skipped.1).rest = [] from hrest, spellsKeys_nil] at hmore
            exact ⟨others, rfl, hmore⟩
          · cases hrest.symm.trans hcomma'
        · rintro ⟨_, rfl, rfl⟩
          refine ⟨usage, [], rfl, husage, .inl ⟨.inl hrest, ?_⟩⟩
          rw [show (token skipped.1).rest = [] from hrest]
          exact spellsKeys_nil.2 rfl
      rw [← extended hspells, Except.ok.injEq]
      constructor
      · rintro rfl
        exact ⟨[], (List.append_nil _).symm, length_extended hfull _, rfl⟩
      · rintro ⟨_, rfl, -, rfl⟩
        exact (List.append_nil _).symm
  | case7 cursor line parsed skipped hsome hcomma key hname hfull usage husage cursor' hrest ih =>
      -- the line ends behind the key, and the loop goes on below it
      rw [ih (length_extended hfull _)]
      refine extended fun more ↦ ?_
      rw [spellsKeys_read hsome, show (token (skipLines cursor line).1).rest = _ from hrest]
      constructor
      · rintro ⟨_, others, rfl, hparse, ⟨-, hmore⟩ | ⟨_, ⟨⟩, -⟩⟩
        obtain rfl := Option.some.inj (husage.symm.trans hparse)
        exact ⟨others, rfl, hmore⟩
      · rintro ⟨others, rfl, hmore⟩
        exact ⟨usage, others, rfl, husage, .inl ⟨.inr rfl, hmore⟩⟩
  | case8 cursor line parsed skipped hsome hcomma key hname hfull usage husage cursor' lookahead
      hahead hrest hne =>
      -- a comma that no key follows
      refine refused fun more hspells _ ↦ ?_
      obtain ⟨_, _, -, -, ⟨hend, -⟩ | ⟨_, hbehind, hitem, -⟩⟩ :=
        (spellsKeys_read hsome more).1 hspells
      · rw [show (token (skipLines cursor line).1).rest = _ from hrest] at hend
        rcases hend with ⟨⟨⟩⟩ | ⟨⟨⟩⟩
      · obtain ⟨-, rfl⟩ := List.cons.inj (hrest.symm.trans hbehind)
        exact hitem hahead
  | case9 cursor line parsed skipped hsome hcomma key hname hfull usage husage cursor' lookahead
      hahead hrest hne ih =>
      -- a comma, and the loop goes on behind it
      rw [ih (length_extended hfull _)]
      refine extended fun more ↦ ?_
      rw [spellsKeys_read hsome, show (token (skipLines cursor line).1).rest = _ from hrest]
      constructor
      · rintro ⟨_, others, rfl, hparse, ⟨hend, -⟩ | ⟨_, hbehind, -, hmore⟩⟩
        · rcases hend with ⟨⟨⟩⟩ | ⟨⟨⟩⟩
        · obtain rfl := Option.some.inj (husage.symm.trans hparse)
          obtain ⟨-, rfl⟩ := List.cons.inj hbehind
          exact ⟨others, rfl, hmore⟩
      · rintro ⟨others, rfl, hmore⟩
        exact ⟨usage, others, rfl, husage, .inr ⟨cursor', rfl, hahead, hmore⟩⟩
  | case10 cursor line parsed skipped hsome hcomma key hname hfull usage husage c cursor' hrest
      hnewline hnone =>
      -- neither the end of a line nor a comma follows the key
      refine refused fun more hspells _ ↦ ?_
      obtain ⟨_, _, -, -, hbehind⟩ := (spellsKeys_read hsome more).1 hspells
      rw [show (token (skipLines cursor line).1).rest = _ from hrest] at hbehind
      obtain ⟨⟨⟨⟩⟩ | hend, -⟩ | ⟨_, hstop, -⟩ := hbehind
      · exact hnewline (Option.some.inj hend)
      · exact hnone (List.cons.inj hstop).1

/-- The loop over a chord reads what its cursor spells. -/
theorem chordLoop_ok (text cursor parsed : List UInt8) (hparsed : parsed.length ≤ chordCapacity)
    (result : List UInt8) :
    chordLoop text cursor parsed = .ok result ↔
      ∃ more, result = parsed ++ more ∧ result.length ≤ chordCapacity ∧
        SpellsChord cursor more := by
  fun_induction chordLoop text cursor parsed with
  | case1 cursor parsed key hname =>
      refine refused fun more hspells _ ↦ ?_
      obtain ⟨_, _, -, hparse, -⟩ := (spellsChord_step cursor more).1 hspells
      rw [show (token cursor).name = [] from hname] at hparse
      cases hparse
  | case2 cursor parsed key hname hfull =>
      refine refused fun more hspells hlength ↦ ?_
      obtain ⟨_, _, rfl, -⟩ := (spellsChord_step cursor more).1 hspells
      rw [List.length_append, List.length_cons] at hlength
      omega
  | case3 cursor parsed key hname hfull hunknown =>
      refine refused fun more hspells _ ↦ ?_
      obtain ⟨_, _, -, hparse, -⟩ := (spellsChord_step cursor more).1 hspells
      cases hunknown.symm.trans hparse
  | case4 cursor parsed key hname hfull usage husage hrest =>
      -- the text ends behind the key, so the chord does
      have hspells : ∀ more, SpellsChord cursor more ↔ ∃ others, more = usage :: others ∧
          others = [] := by
        intro more
        rw [spellsChord_step]
        constructor
        · rintro ⟨_, others, rfl, hparse, ⟨-, rfl⟩ | ⟨_, hplus, -⟩⟩
          · obtain rfl := Option.some.inj (husage.symm.trans hparse)
            exact ⟨[], rfl, rfl⟩
          · cases hrest.symm.trans hplus
        · rintro ⟨_, rfl, rfl⟩
          exact ⟨usage, [], rfl, husage, .inl ⟨hrest, rfl⟩⟩
      rw [← extended hspells, Except.ok.injEq]
      constructor
      · rintro rfl
        exact ⟨[], (List.append_nil _).symm, length_extended hfull _, rfl⟩
      · rintro ⟨_, rfl, -, rfl⟩
        exact (List.append_nil _).symm
  | case5 cursor parsed key hname hfull usage husage c cursor' hrest hc =>
      -- something other than a plus sign follows the key
      refine refused fun more hspells _ ↦ ?_
      obtain ⟨_, _, -, -, ⟨hend, -⟩ | ⟨_, hplus, -⟩⟩ := (spellsChord_step cursor more).1 hspells
      · cases hrest.symm.trans hend
      · exact hc (List.cons.inj (hrest.symm.trans hplus)).1
  | case6 cursor parsed key hname hfull usage husage c cursor' hrest hc hahead =>
      -- nothing, or another plus sign, follows the plus sign
      refine refused fun more hspells _ ↦ ?_
      obtain ⟨_, others, -, -, ⟨hend, -⟩ | ⟨_, hplus, hmore⟩⟩ :=
        (spellsChord_step cursor more).1 hspells
      · cases hrest.symm.trans hend
      · obtain ⟨-, rfl⟩ := List.cons.inj (hrest.symm.trans hplus)
        obtain ⟨_, _, -, hparse, -⟩ := (spellsChord_step cursor' others).1 hmore
        rcases hahead with rfl | hhead
        · cases hparse
        · obtain ⟨rest, rfl⟩ := List.head?_eq_some_iff.1 hhead
          cases hparse
  | case7 cursor parsed key hname hfull usage husage c cursor' hrest hc hahead ih =>
      rw [ih (length_extended hfull _)]
      refine extended fun more ↦ ?_
      rw [spellsChord_step, show (token cursor).rest = _ from hrest, not_ne_iff.1 hc]
      constructor
      · rintro ⟨_, others, rfl, hparse, ⟨⟨⟩, -⟩ | ⟨_, hplus, hmore⟩⟩
        obtain rfl := Option.some.inj (husage.symm.trans hparse)
        obtain ⟨-, rfl⟩ := List.cons.inj hplus
        exact ⟨others, rfl, hmore⟩
      · rintro ⟨others, rfl, hmore⟩
        exact ⟨usage, others, rfl, husage, .inr ⟨cursor', rfl, hmore⟩⟩

/-! ## Lines of errors -/

/-- An error stands in a line from a first one on, no more lines on than a cursor has ends of
lines. -/
def ErrorWithin {α : Type} (line : Nat) (cursor : List UInt8) (result : Except TextError α) :
    Prop :=
  ∀ e, result = .error e → line ≤ e.line ∧ e.line ≤ line + cursor.count newline

theorem skipLines_line (cursor : List UInt8) (line : Nat) :
    line ≤ (skipLines cursor line).2 ∧
      (skipLines cursor line).2 + (skipLines cursor line).1.count newline =
        line + cursor.count newline := by
  induction cursor generalizing line with
  | nil => exact ⟨Nat.le_refl _, rfl⟩
  | cons c rest ih =>
      rw [skipLines]
      split_ifs with hnewline hspace
      · obtain ⟨hle, heq⟩ := ih (line + 1)
        rw [heq, hnewline, List.count_cons_self]
        omega
      · obtain ⟨hle, heq⟩ := ih line
        refine ⟨hle, ?_⟩
        rw [heq, List.count_cons_of_ne]
        exact hnewline
      · exact ⟨Nat.le_refl _, rfl⟩

theorem count_token_rest (cursor : List UInt8) :
    (token cursor).rest.count newline ≤ cursor.count newline :=
  ((List.dropWhile_suffix _).trans
    ((List.dropWhile_suffix _).trans (List.dropWhile_suffix _))).sublist.count_le newline

/-- An error at the line the blanks led to. -/
theorem errorWithin_fail {α : Type} (cursor : List UInt8) (line column : Nat) (code : ErrorCode)
    (token : List UInt8) :
    ErrorWithin line cursor
      (Except.error (fail code (skipLines cursor line).2 column token) : Except TextError α) := by
  rintro e ⟨⟩
  obtain ⟨hle, heq⟩ := skipLines_line cursor line
  have hline : (skipLines cursor line).2 ≤ line + cursor.count newline := by omega
  exact ⟨hle, hline⟩

/-- An error behind what was read. -/
theorem errorWithin_behind {α : Type} {cursor rest : List UInt8} {line : Nat}
    {result : Except TextError α}
    (hrest : rest.count newline ≤ (skipLines cursor line).1.count newline)
    (h : ErrorWithin (skipLines cursor line).2 rest result) : ErrorWithin line cursor result := by
  intro e he
  obtain ⟨hle, heq⟩ := skipLines_line cursor line
  obtain ⟨hfirst, hlast⟩ := h e he
  exact ⟨hle.trans hfirst, by omega⟩

theorem overridesLoop_error (capacity : Nat) (cursor : List UInt8) (line : Nat)
    (parsed : List KeyOverride) :
    ErrorWithin line cursor (overridesLoop capacity cursor line parsed) := by
  fun_induction overridesLoop capacity cursor line parsed with
  | case1 => rintro e ⟨⟩
  | case10 cursor line parsed skipped hsome origin hname c cursor' hequals hc target htarget hbehind
      hfull source hsource usage husage ih =>
      refine errorWithin_behind ?_ ih
      refine (count_token_rest cursor').trans ?_
      have htoken := count_token_rest skipped.1
      rw [show (token skipped.1).rest = c :: cursor' from hequals] at htoken
      exact List.count_le_count_cons.trans htoken
  | _ => exact errorWithin_fail _ _ _ _ _

theorem keysLoop_error (capacity : Nat) (cursor : List UInt8) (line : Nat) (parsed : List UInt8) :
    ErrorWithin line cursor (keysLoop capacity cursor line parsed) := by
  fun_induction keysLoop capacity cursor line parsed with
  | case1 => rintro e ⟨⟩
  | case6 => rintro e ⟨⟩
  | case7 cursor line parsed skipped hsome hcomma key hname hfull usage husage cursor' hrest ih =>
      refine errorWithin_behind ?_ ih
      rw [← hrest]
      exact count_token_rest skipped.1
  | case9 cursor line parsed skipped hsome hcomma key hname hfull usage husage cursor' lookahead
      hahead hrest hne ih =>
      refine errorWithin_behind ?_ ih
      have htoken := count_token_rest skipped.1
      rw [show (token skipped.1).rest = comma :: cursor' from hrest] at htoken
      exact List.count_le_count_cons.trans htoken
  | _ => exact errorWithin_fail _ _ _ _ _

theorem chordLoop_error (text cursor parsed : List UInt8) {e : TextError}
    (h : chordLoop text cursor parsed = .error e) : e.line = 1 := by
  fun_induction chordLoop text cursor parsed with
  | case4 => cases h
  | case7 cursor parsed key hname hfull usage husage c cursor' hrest hc hahead ih => exact ih h
  | _ =>
      cases h
      rfl

/-! ## Joined names -/

/-- A name of a key spells it. -/
theorem spellsKey_keyName {name : List UInt8} {usage : UInt8} (h : keyName usage = some name) :
    SpellsKey name usage :=
  ⟨[], name, [], by simp, by simp, by simp, keyNameParse_keyName h⟩

theorem spellsKey_of_named {names : List (List UInt8)} {usages : List UInt8}
    (h : List.Forall₂ (fun name usage ↦ keyName usage = some name) names usages) :
    List.Forall₂ SpellsKey names usages :=
  h.imp fun _ _ hname ↦ spellsKey_keyName hname

theorem spelled_of_forall₂ {α : Type} {names : List (List UInt8)} {entries : List α}
    {Spells : List UInt8 → α → Prop} (h : List.Forall₂ Spells names entries) {name : List UInt8}
    (hname : name ∈ names) : ∃ entry, Spells name entry := by
  induction h with
  | nil => cases hname
  | cons hfirst _ ih =>
      rcases List.mem_cons.1 hname with rfl | hname
      · exact ⟨_, hfirst⟩
      · exact ih hname

/-- Items that are spelled, with a stop between them, are split there. -/
theorem splitOn_joined {stop : UInt8} (hstop : isHard stop = true) {names : List (List UInt8)}
    {usages : List UInt8} (h : List.Forall₂ SpellsKey names usages) (hsome : names ≠ []) :
    ([stop].intercalate names).splitOn stop = names := by
  refine List.splitOn_intercalate stop (fun name hname ↦ ?_) hsome
  obtain ⟨usage, hspells⟩ := spelled_of_forall₂ h hname
  exact notMem_of_spellsKey hstop hspells

/-- Lines that are not blank, with ends of lines between them, are the lines. -/
theorem lines_joined {items : List (List UInt8)}
    (h : ∀ item ∈ items, newline ∉ item ∧ item.all isSpace = false) :
    lines ([newline].intercalate items) = items := by
  by_cases hsome : items = []
  · rw [hsome]
    rfl
  · rw [lines, List.splitOn_intercalate newline (fun item hitem ↦ (h item hitem).1) hsome,
      List.filter_eq_self]
    intro item hitem
    rw [(h item hitem).2]
    rfl

theorem spellsKeys_lines {names : List (List UInt8)} {usages : List UInt8}
    (h : List.Forall₂ SpellsKey names usages) :
    SpellsKeys ([newline].intercalate names) usages := by
  rw [SpellsKeys, keyItems, lines_joined]
  · suffices hsplit : names.flatMap (fun name ↦ name.splitOn comma) = names by rwa [hsplit]
    induction h with
    | nil => rfl
    | cons hkey _ ih =>
        rw [List.flatMap_cons, ih,
          List.splitOn_eq_singleton (notMem_of_spellsKey rfl hkey), List.singleton_append]
  · intro name hname
    obtain ⟨usage, hspells⟩ := spelled_of_forall₂ h hname
    exact ⟨notMem_of_spellsKey rfl hspells, not_blank_of_spellsKey hspells⟩

theorem mem_joined {stop c : UInt8} {items : List (List UInt8)}
    (h : c ∈ [stop].intercalate items) : c = stop ∨ ∃ item ∈ items, c ∈ item := by
  induction items with
  | nil => cases h
  | cons item items ih =>
      rcases items with - | ⟨next, items⟩
      · rw [List.intercalate_singleton] at h
        exact .inr ⟨item, List.mem_cons_self, h⟩
      · rw [List.intercalate_cons_cons, List.mem_append, List.mem_append,
          List.mem_singleton] at h
        rcases h with (hitem | hstop) | hrest
        · exact .inr ⟨item, List.mem_cons_self, hitem⟩
        · exact .inl hstop
        · rcases ih hrest with hstop | ⟨item', hmem, hc⟩
          · exact .inl hstop
          · exact .inr ⟨item', List.mem_cons_of_mem _ hmem, hc⟩

theorem spellsKeys_commas {names : List (List UInt8)} {usages : List UInt8}
    (h : List.Forall₂ SpellsKey names usages) :
    SpellsKeys ([comma].intercalate names) usages := by
  rcases names with - | ⟨name, names⟩
  · rw [List.forall₂_nil_left_iff.1 h]
    exact spellsKeys_nil.2 rfl
  · have hline : newline ∉ [comma].intercalate (name :: names) := by
      intro hmem
      rcases mem_joined hmem with hstop | ⟨item, hitem, hc⟩
      · cases hstop
      · obtain ⟨usage, hspells⟩ := spelled_of_forall₂ h hitem
        exact notMem_of_spellsKey rfl hspells hc
    have hblank : ([comma].intercalate (name :: names)).all isSpace = false := by
      obtain ⟨usage, hspells⟩ := spelled_of_forall₂ h List.mem_cons_self
      rcases names with - | ⟨next, names⟩
      · rw [List.intercalate_singleton]
        exact not_blank_of_spellsKey hspells
      · rw [List.intercalate_cons_cons, List.all_append, List.all_append,
          not_blank_of_spellsKey hspells]
        rfl
    have hitems := keyItems_append hline hblank (.inl rfl)
    rw [List.append_nil, splitOn_joined rfl h (List.cons_ne_nil _ _)] at hitems
    rw [SpellsKeys, hitems]
    exact (List.append_nil _).symm ▸ h

theorem spellsChord_joined {names : List (List UInt8)} {usages : List UInt8}
    (h : List.Forall₂ SpellsKey names usages) (hsome : names ≠ []) :
    SpellsChord ([plus].intercalate names) usages := by
  rw [SpellsChord, splitOn_joined rfl h hsome]
  exact h

theorem spellsOverrides_joined {items : List (List UInt8)} {entries : List KeyOverride}
    (h : List.Forall₂ SpellsOverride items entries) :
    SpellsOverrides ([newline].intercalate items) entries := by
  rw [SpellsOverrides, lines_joined]
  · exact h
  · intro item hitem
    obtain ⟨entry, left, right, rfl, hleft, hright⟩ := spelled_of_forall₂ h hitem
    constructor
    · rw [List.mem_append, List.mem_cons]
      rintro (hmem | hmem | hmem)
      · exact notMem_of_spellsKey rfl hleft hmem
      · cases hmem
      · exact notMem_of_spellsKey rfl hright hmem
    · rw [List.all_append, not_blank_of_spellsKey hleft, Bool.false_and]

/-! ## The parsers -/

/-- What a parser with a table of its own does with a text: it takes what the text spells where
there is room, it succeeds on nothing else, and then only the error is new, in a line of the
text. -/
structure Reads {α : Type} (text : List UInt8) (limit capacity : Nat) (Spells : List α → Prop)
    (output : List α) (count : Nat) (filled : List α → List α) (outcome : Outcome α) : Prop where
  succeeds : ∀ parsed, capacity ≤ limit → parsed.length ≤ capacity → Spells parsed →
    outcome = ⟨true, filled parsed, parsed.length, clearError⟩
  spelled : outcome.succeeded = true →
    ∃ parsed, capacity ≤ limit ∧ parsed.length ≤ capacity ∧ Spells parsed
  unchanged : outcome.succeeded = false →
    outcome.output = output ∧ outcome.count = count ∧ 1 ≤ outcome.error.line ∧
      outcome.error.line ≤ text.count newline + 1

/-- The error of a capacity above the parser's own. -/
theorem errorWithin_capacity {α : Type} (text : List UInt8) :
    ErrorWithin 1 text (Except.error (fail .capacity 1 1 []) : Except TextError α) := by
  rintro e ⟨⟩
  exact ⟨Nat.le_refl _, Nat.le_add_right _ _⟩

/-- A parser reads when its loop does. -/
theorem reads_copyOut {α : Type} {text : List UInt8} {limit capacity : Nat}
    {Spells : List α → Prop} {table : Except TextError (List α)}
    (hok : ∀ parsed, table = .ok parsed ↔
      capacity ≤ limit ∧ parsed.length ≤ capacity ∧ Spells parsed)
    (herror : ErrorWithin 1 text table) (output : List α) (count : Nat) :
    Reads text limit capacity Spells output count (fun parsed ↦ parsed ++ output.drop parsed.length)
      (copyOut output count table) where
  succeeds := by
    intro parsed hcapacity hlength hspells
    rw [(hok parsed).2 ⟨hcapacity, hlength, hspells⟩]
    rfl
  spelled := by
    intro hsucceeded
    rcases table with e | parsed
    · cases hsucceeded
    · exact ⟨parsed, (hok parsed).1 rfl⟩
  unchanged := by
    intro hfailed
    rcases table with e | parsed
    · obtain ⟨hfirst, hlast⟩ := herror e rfl
      exact ⟨rfl, rfl, hfirst, hlast.trans (Nat.le_of_eq (Nat.add_comm _ _))⟩
    · cases hfailed

/-- A loop from an empty table gives what the whole text spells. -/
theorem of_loop {α : Type} {result : List α} {capacity : Nat} {Spells : List α → Prop}
    (h : ∃ more, result = [] ++ more ∧ result.length ≤ capacity ∧ Spells more) :
    result.length ≤ capacity ∧ Spells result := by
  obtain ⟨more, rfl, hlength, hspells⟩ := h
  exact ⟨hlength, hspells⟩

theorem overridesOf_ok (text : List UInt8) (capacity : Nat) (parsed : List KeyOverride) :
    overridesOf text capacity = .ok parsed ↔
      capacity ≤ overrideCapacity ∧ parsed.length ≤ capacity ∧ SpellsOverrides text parsed := by
  rw [overridesOf]
  split_ifs with hcapacity
  · exact iff_of_false (by rintro ⟨⟩) fun h ↦ absurd h.1 (Nat.not_le.2 hcapacity)
  · rw [overridesLoop_ok text 1 [] (Nat.zero_le _)]
    constructor
    · intro h
      exact ⟨Nat.not_lt.1 hcapacity, of_loop h⟩
    · rintro ⟨-, hlength, hspells⟩
      exact ⟨parsed, rfl, hlength, hspells⟩

theorem keysOf_ok (text : List UInt8) (capacity : Nat) (parsed : List UInt8) :
    keysOf text capacity = .ok parsed ↔
      capacity ≤ passthroughCapacity ∧ parsed.length ≤ capacity ∧ SpellsKeys text parsed := by
  rw [keysOf]
  split_ifs with hcapacity
  · exact iff_of_false (by rintro ⟨⟩) fun h ↦ absurd h.1 (Nat.not_le.2 hcapacity)
  · rw [keysLoop_ok text 1 [] (Nat.zero_le _)]
    constructor
    · intro h
      exact ⟨Nat.not_lt.1 hcapacity, of_loop h⟩
    · rintro ⟨-, hlength, hspells⟩
      exact ⟨parsed, rfl, hlength, hspells⟩

theorem chordOf_ok (text parsed : List UInt8) :
    chordOf text = .ok parsed ↔ parsed.length ≤ chordCapacity ∧ SpellsChord text parsed := by
  rw [chordOf]
  split_ifs with htext
  · refine iff_of_false (by rintro ⟨⟩) ?_
    rintro ⟨-, hspells⟩
    rw [htext] at hspells
    obtain ⟨_, _, -, hparse, -⟩ := (spellsChord_step [] parsed).1 hspells
    cases hparse
  · rw [chordLoop_ok text text [] (Nat.zero_le _)]
    constructor
    · exact of_loop
    · rintro ⟨hlength, hspells⟩
      exact ⟨parsed, rfl, hlength, hspells⟩

theorem parseOverrides_reads (text : List UInt8) (output : List KeyOverride)
    (capacity count : Nat) :
    Reads text overrideCapacity capacity (SpellsOverrides text) output count
      (fun parsed ↦ parsed ++ output.drop parsed.length)
      (parseOverrides text output capacity count) := by
  refine reads_copyOut (overridesOf_ok text capacity) ?_ output count
  rw [overridesOf]
  split_ifs
  · exact errorWithin_capacity text
  · exact overridesLoop_error _ _ _ _

theorem parseKeys_reads (text output : List UInt8) (capacity count : Nat) :
    Reads text passthroughCapacity capacity (SpellsKeys text) output count
      (fun parsed ↦ parsed ++ output.drop parsed.length)
      (parseKeys text output capacity count) := by
  refine reads_copyOut (keysOf_ok text capacity) ?_ output count
  rw [keysOf]
  split_ifs
  · exact errorWithin_capacity text
  · exact keysLoop_error _ _ _ _

theorem parseChord_reads (text keys : List UInt8) (keyCount : Nat) :
    Reads text chordCapacity chordCapacity (SpellsChord text) keys keyCount
      (fun parsed ↦ parsed ++ List.replicate (chordCapacity - parsed.length) 0)
      (parseChord text keys keyCount) where
  succeeds := by
    intro parsed _ hlength hspells
    rw [parseChord, (chordOf_ok text parsed).2 ⟨hlength, hspells⟩]
  spelled := by
    intro hsucceeded
    rw [parseChord] at hsucceeded
    rcases hchord : chordOf text with e | parsed
    · rw [hchord] at hsucceeded
      cases hsucceeded
    · exact ⟨parsed, Nat.le_refl _, (chordOf_ok text parsed).1 hchord⟩
  unchanged := by
    intro hfailed
    rw [parseChord] at hfailed ⊢
    rcases hchord : chordOf text with e | parsed
    · have hline : e.line = 1 := by
        rw [chordOf] at hchord
        split_ifs at hchord
        · cases hchord
          rfl
        · exact chordLoop_error text text [] hchord
      exact ⟨rfl, rfl, hline.ge, hline.le.trans (Nat.le_add_left _ _)⟩
    · rw [hchord] at hfailed
      cases hfailed

/-- The names of the keys of an override with an equals sign between them. -/
def NamesOverride (item : List UInt8) (entry : KeyOverride) : Prop :=
  ∃ left right, item = left ++ equals :: right ∧ keyName entry.source = some left ∧
    keyName entry.target = some right

/-- The names of keys. -/
def NamesKey (name : List UInt8) (usage : UInt8) : Prop := keyName usage = some name

/-- The parsers succeed exactly on what their grammars spell, within a capacity that is no more than
their own, with the keys in order; what joins the names of keys is read as those keys; and a failure
leaves all but the error as it was, which stands in a line of the text. -/
theorem texts_read :
    (∀ text output capacity count,
      Reads text overrideCapacity capacity (SpellsOverrides text) output count
        (fun parsed ↦ parsed ++ output.drop parsed.length)
        (parseOverrides text output capacity count)) ∧
    (∀ text output capacity count,
      Reads text passthroughCapacity capacity (SpellsKeys text) output count
        (fun parsed ↦ parsed ++ output.drop parsed.length)
        (parseKeys text output capacity count)) ∧
    (∀ text keys keyCount,
      Reads text chordCapacity chordCapacity (SpellsChord text) keys keyCount
        (fun parsed ↦ parsed ++ List.replicate (chordCapacity - parsed.length) 0)
        (parseChord text keys keyCount)) ∧
    (∀ items entries output capacity count, List.Forall₂ NamesOverride items entries →
      entries.length ≤ capacity → capacity ≤ overrideCapacity →
      parseOverrides ([newline].intercalate items) output capacity count =
        ⟨true, entries ++ output.drop entries.length, entries.length, clearError⟩) ∧
    (∀ names usages output capacity count stop, List.Forall₂ NamesKey names usages →
      usages.length ≤ capacity → capacity ≤ passthroughCapacity → stop = comma ∨ stop = newline →
      parseKeys ([stop].intercalate names) output capacity count =
        ⟨true, usages ++ output.drop usages.length, usages.length, clearError⟩) ∧
    ∀ names usages keys keyCount, List.Forall₂ NamesKey names usages → usages ≠ [] →
      usages.length ≤ chordCapacity →
      parseChord ([plus].intercalate names) keys keyCount =
        ⟨true, usages ++ List.replicate (chordCapacity - usages.length) 0, usages.length,
          clearError⟩ := by
  refine ⟨parseOverrides_reads, parseKeys_reads, parseChord_reads, ?_, ?_, ?_⟩
  · intro items entries output capacity count hnames hlength hcapacity
    refine (parseOverrides_reads _ output capacity count).succeeds entries hcapacity hlength ?_
    refine spellsOverrides_joined (hnames.imp ?_)
    rintro item entry ⟨left, right, rfl, hleft, hright⟩
    exact ⟨left, right, rfl, spellsKey_keyName hleft, spellsKey_keyName hright⟩
  · intro names usages output capacity count stop hnames hlength hcapacity hstop
    refine (parseKeys_reads _ output capacity count).succeeds usages hcapacity hlength ?_
    rcases hstop with rfl | rfl
    · exact spellsKeys_commas (spellsKey_of_named hnames)
    · exact spellsKeys_lines (spellsKey_of_named hnames)
  · intro names usages keys keyCount hnames hsome hlength
    refine (parseChord_reads _ keys keyCount).succeeds usages (Nat.le_refl _) hlength ?_
    refine spellsChord_joined (spellsKey_of_named hnames) ?_
    rintro rfl
    exact hsome (List.forall₂_nil_left_iff.1 hnames)

/-- Two overrides, two keys on two lines and a chord are read as the keys that were joined. -/
theorem texts_read_letters :
    parseOverrides (ascii "a=lctrl\nb=c") [⟨9, 9⟩, ⟨9, 9⟩, ⟨9, 9⟩] 3 7 =
        ⟨true, [⟨0x04, 0xe0⟩, ⟨0x05, 0x06⟩, ⟨9, 9⟩], 2, clearError⟩ ∧
      parseKeys (ascii "a\nb") [9, 9, 9] 3 7 = ⟨true, [0x04, 0x05, 9], 2, clearError⟩ ∧
      parseChord (ascii "lctrl+c") [1, 1, 1, 1, 1, 1] 6 =
        ⟨true, [0xe0, 0x06, 0, 0, 0, 0], 2, clearError⟩ := by
  refine ⟨?_, ?_, ?_⟩
  · exact texts_read.2.2.2.1 [ascii "a=lctrl", ascii "b=c"] [⟨0x04, 0xe0⟩, ⟨0x05, 0x06⟩] _ 3 7
      (.cons ⟨ascii "a", ascii "lctrl", rfl, rfl, rfl⟩
        (.cons ⟨ascii "b", ascii "c", rfl, rfl, rfl⟩ .nil)) (by decide) (by decide)
  · exact texts_read.2.2.2.2.1 [ascii "a", ascii "b"] [0x04, 0x05] _ 3 7 newline
      (.cons (by rfl) (.cons (by rfl) .nil)) (by decide) (by decide) (.inr rfl)
  · exact texts_read.2.2.2.2.2 [ascii "lctrl", ascii "c"] [0xe0, 0x06] _ _
      (.cons (by rfl) (.cons (by rfl) .nil)) (List.cons_ne_nil _ _) (by decide)

/-- A capacity above the parser's own is refused whatever the text, an empty line between two keys
is not, and no key at all is no chord. -/
theorem capacity_above_own_refused :
    SpellsKeys (ascii "a") [0x04] ∧ [(0x04 : UInt8)].length ≤ 17 ∧
      (parseKeys (ascii "a") (List.replicate 17 0) 17 0).succeeded = false ∧
      (parseKeys [0x61, newline, newline, 0x62] [0, 0] 2 0).succeeded = true ∧
      (parseChord ([plus].intercalate []) [] 0).succeeded = false := by
  refine ⟨?_, by decide, rfl, ?_, rfl⟩
  · exact @spellsKeys_commas [ascii "a"] [0x04] (.cons (spellsKey_keyName rfl) .nil)
  · have hspells : SpellsKeys [0x61, newline, newline, 0x62] [0x04, 0x05] :=
      .cons (spellsKey_keyName rfl) (.cons (spellsKey_keyName rfl) .nil)
    rw [(parseKeys_reads _ [0, 0] 2 0).succeeds _ (by decide) (by decide) hspells]

end DeskhopPlus.Config
