import Mathlib.Data.List.DropRight
import Mathlib.Data.List.Flatten
import Mathlib.Data.List.TakeWhile

/-!
# Tokens with blanks between them

A text is read token by token. Before each token there may be blanks. `Leads` says that a text goes
on with some tokens and what follows them, `squeeze` deletes the blanks outside quoted strings, and
`squeeze_leads` says that it leaves the tokens and nothing else.
-/

namespace DeskhopPlus.Tokens

variable {α : Type*} (blank : α → Bool)

/-- The text is a token behind blanks, and what is after it. -/
def Follows (token text after : List α) : Prop :=
  ∃ gap, (∀ symbol ∈ gap, blank symbol = true) ∧ text = gap ++ (token ++ after)

/-- The text is some tokens, each behind blanks, and what is after them. -/
def Leads : List (List α) → List α → List α → Prop
  | [], text, after => text = after
  | token :: rest, text, after => ∃ middle, Follows blank token text middle ∧
    Leads rest middle after

/-- The text is some tokens with blanks before each and behind the last. -/
def Spaced (tokens : List (List α)) (text : List α) : Prop :=
  ∃ after, Leads blank tokens text after ∧ ∀ symbol ∈ after, blank symbol = true

/-- A token that begins with a symbol that is no blank. -/
def Solid (token : List α) : Prop := ∃ first rest, token = first :: rest ∧ blank first = false

variable {blank} {token text after : List α} {tokens others : List (List α)}

theorem leads_append : Leads blank (tokens ++ others) text after ↔
    ∃ middle, Leads blank tokens text middle ∧ Leads blank others middle after := by
  induction tokens generalizing text with
  | nil => simp [Leads]
  | cons token rest ih =>
      constructor
      · rintro ⟨next, hfollows, hrest⟩
        obtain ⟨middle, hleft, hright⟩ := ih.mp hrest
        exact ⟨middle, ⟨next, hfollows, hleft⟩, hright⟩
      · rintro ⟨middle, ⟨next, hfollows, hleft⟩, hright⟩
        exact ⟨next, hfollows, ih.mpr ⟨middle, hleft, hright⟩⟩

theorem leads_cons : Leads blank (token :: tokens) text after ↔
    ∃ middle, Follows blank token text middle ∧ Leads blank tokens middle after := Iff.rfl

/-- Tokens that stand one after the other without a blank. -/
theorem leads_flatten (tokens : List (List α)) (after : List α) :
    Leads blank tokens (tokens.flatten ++ after) after := by
  induction tokens with
  | nil => rfl
  | cons token rest ih =>
      refine ⟨rest.flatten ++ after, ⟨[], by simp, ?_⟩, ih⟩
      rw [List.flatten_cons, List.append_assoc, List.nil_append]

/-- Without the blanks in front the text begins with the token. -/
theorem follows_iff (hsolid : Solid blank token) :
    Follows blank token text after ↔ text.dropWhile blank = token ++ after := by
  obtain ⟨first, rest, rfl, hfirst⟩ := hsolid
  constructor
  · rintro ⟨gap, hgap, rfl⟩
    rw [List.dropWhile_append_of_pos hgap, List.cons_append, List.dropWhile_cons_of_neg]
    rw [hfirst]
    exact Bool.false_ne_true
  · intro h
    refine ⟨text.takeWhile blank, fun symbol hsymbol ↦ List.mem_takeWhile_imp hsymbol, ?_⟩
    rw [← h, List.takeWhile_append_dropWhile]

/-- Blanks in front do not count. -/
theorem follows_dropWhile (hsolid : Solid blank token) :
    Follows blank token (text.dropWhile blank) after ↔ Follows blank token text after := by
  rw [follows_iff hsolid, follows_iff hsolid, List.dropWhile_idempotent blank text]

theorem leads_dropWhile (hsolid : Solid blank token) :
    Leads blank (token :: tokens) (text.dropWhile blank) after ↔
      Leads blank (token :: tokens) text after := by
  rw [leads_cons, leads_cons]
  exact exists_congr fun middle ↦ and_congr_left fun _ ↦ follows_dropWhile hsolid

/-- A text that goes on with a token begins with a blank or as the token does. -/
theorem Follows.head (h : Follows blank token text after) (hne : token ≠ []) :
    ∃ symbol rest, text = symbol :: rest ∧ (blank symbol = true ∨ token.head? = some symbol) := by
  obtain ⟨gap, hgap, rfl⟩ := h
  cases gap with
  | nil =>
      obtain ⟨first, rest, rfl⟩ := List.exists_cons_of_ne_nil hne
      exact ⟨first, rest ++ after, rfl, .inr rfl⟩
  | cons symbol gap => exact ⟨symbol, gap ++ (token ++ after), rfl, .inl (hgap _ (.head _))⟩

/-! ## Deleting the blanks -/

variable [DecidableEq α] {mark : α}

/-- The text without the blanks that stand outside the marks of a string. -/
def squeeze (blank : α → Bool) (mark : α) (inside : Bool) : List α → List α
  | [] => []
  | symbol :: rest =>
      if symbol = mark then symbol :: squeeze blank mark (!inside) rest
      else if !inside && blank symbol then squeeze blank mark inside rest
      else symbol :: squeeze blank mark inside rest

/-- A token that squeezing leaves as it is. -/
def Whole (blank : α → Bool) (mark : α) (token : List α) : Prop :=
  ∀ after, squeeze blank mark false (token ++ after) = token ++ squeeze blank mark false after

theorem squeeze_blanks (hmark : blank mark = false) {gap : List α}
    (hgap : ∀ symbol ∈ gap, blank symbol = true) (after : List α) :
    squeeze blank mark false (gap ++ after) = squeeze blank mark false after := by
  induction gap with
  | nil => rfl
  | cons symbol gap ih =>
      obtain ⟨hsymbol, hgap⟩ := List.forall_mem_cons.mp hgap
      have hne : symbol ≠ mark := by
        rintro rfl
        rw [hmark] at hsymbol
        cases hsymbol
      rw [List.cons_append, squeeze, if_neg hne, if_pos (by simp [hsymbol]), ih hgap]

/-- A token with no mark and no blank. -/
theorem whole_plain (h : ∀ symbol ∈ token, symbol ≠ mark ∧ blank symbol = false) :
    Whole blank mark token := by
  intro after
  induction token with
  | nil => rfl
  | cons symbol token ih =>
      obtain ⟨⟨hne, hblank⟩, htoken⟩ := List.forall_mem_cons.mp h
      rw [List.cons_append, squeeze, if_neg hne, if_neg (by simp [hblank]), ih htoken]
      rfl

/-- A string between two marks. -/
theorem whole_string {body : List α} (h : ∀ symbol ∈ body, symbol ≠ mark) :
    Whole blank mark (mark :: (body ++ [mark])) := by
  intro after
  have hbody : squeeze blank mark true (body ++ mark :: after) =
      body ++ mark :: squeeze blank mark false after := by
    induction body with
    | nil => rw [List.nil_append, squeeze, if_pos rfl]; rfl
    | cons symbol body ih =>
        obtain ⟨hne, hrest⟩ := List.forall_mem_cons.mp h
        rw [List.cons_append, squeeze, if_neg hne, if_neg (by simp), ih hrest]
        rfl
  rw [List.cons_append, squeeze, if_pos rfl, List.append_assoc]
  simp only [Bool.not_false, List.cons_append, List.append_assoc, List.nil_append, hbody]

/-- Squeezing leaves the tokens and nothing else. -/
theorem squeeze_leads (hmark : blank mark = false)
    (hwhole : ∀ token ∈ tokens, Whole blank mark token) (h : Leads blank tokens text after) :
    squeeze blank mark false text = tokens.flatten ++ squeeze blank mark false after := by
  induction tokens generalizing text with
  | nil =>
      rw [Leads] at h
      rw [h]
      rfl
  | cons token rest ih =>
      obtain ⟨middle, ⟨gap, hgap, rfl⟩, hrest⟩ := h
      obtain ⟨htoken, hothers⟩ := List.forall_mem_cons.mp hwhole
      rw [squeeze_blanks hmark hgap, htoken, ih hothers hrest, List.flatten_cons,
        List.append_assoc]

theorem squeeze_spaced (hmark : blank mark = false)
    (hwhole : ∀ token ∈ tokens, Whole blank mark token) (h : Spaced blank tokens text) :
    squeeze blank mark false text = tokens.flatten := by
  obtain ⟨after, hleads, hafter⟩ := h
  have hrest := squeeze_blanks hmark hafter []
  rw [List.append_nil] at hrest
  rw [squeeze_leads hmark hwhole hleads, hrest]
  exact List.append_nil _

end DeskhopPlus.Tokens
