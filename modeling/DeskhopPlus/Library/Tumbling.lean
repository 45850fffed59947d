import DeskhopPlus.Library.Runs
import Mathlib.Data.List.Count
import Mathlib.Order.Nat

/-!
# Alarms that count in windows laid end to end

A mark opens a window when none is open. A tick that finds the window at its end raises an alarm if
enough marks were counted in it, or a grave one, and closes it. Enough marks within any span as long
as the window are a burst, and a burst may lie across two windows. `Kept` is what such an alarm
keeps: each burst is heard in time and each alarm has a cause. By `kept_step` a step keeps it as
long as no window at its end owes an alarm that it has not the marks for, the ticks are in time, and
no mark that fills a window comes after its end.
-/

namespace DeskhopPlus.Tumbling

open Runs

/-- What can happen: a mark, a tick, or nothing. -/
inductive Sign where
  | mark (grave : Bool)
  | tick
  | nothing
  deriving DecidableEq, Repr

/-- A sign, and how much time goes by before it. -/
structure Event where
  waits : Nat
  sign : Sign
  deriving DecidableEq, Repr

/-- The open window. -/
structure Window where
  since : Nat
  marks : Nat
  grave : Bool
  deriving DecidableEq, Repr

/-- The alarm and its history, newest first. `owed` is when the open window first came to owe an
alarm. -/
structure State where
  now : Nat
  ticked : Nat
  window : Option Window
  plain : List Nat
  grave : List Nat
  raised : List Nat
  owed : Option Nat
  deriving DecidableEq, Repr

/-- At least so many of the times lie between two, and those are no more than a span apart. -/
def Burst (span threshold : Nat) (times : List Nat) (first last : Nat) : Prop :=
  last ≤ first + span ∧ threshold ≤ times.countP fun time ↦ first ≤ time ∧ time ≤ last

variable (span threshold beat : Nat)

/-- A window whose close raises an alarm. -/
def Window.Ripe (w : Window) : Prop := threshold ≤ w.marks ∨ w.grave = true

instance (w : Window) : Decidable (w.Ripe threshold) := inferInstanceAs (Decidable (_ ∨ _))

namespace State

/-- The history before the first event. -/
def start (now : Nat) : State where
  now := now
  ticked := now
  window := none
  plain := []
  grave := []
  raised := []
  owed := none

/-- A mark completes a burst that no alarm was raised since the first of. -/
def owes (s : State) : Bool :=
  ((s.now :: s.plain)[threshold - 1]?).any fun first ↦
    s.now ≤ first + span && s.raised.all (· < first)

/-- Count a mark. -/
def mark (s : State) (grave : Bool) : State :=
  let w := s.window.getD { since := s.now, marks := 0, grave := false }
  { s with
    window := some { since := w.since, marks := w.marks + 1, grave := grave || w.grave }
    plain := if grave then s.plain else s.now :: s.plain
    grave := if grave then s.now :: s.grave else s.grave
    owed := if grave then s.owed
      else s.owed.or (if s.owes span threshold then some s.now else none) }

/-- Close a window that is at its end. -/
def close (s : State) : State :=
  match s.window with
  | none => s
  | some w =>
      if s.now < w.since + span then s
      else
        { s with
          window := none
          owed := none
          raised := if w.Ripe threshold then s.now :: s.raised else s.raised }

/-- The state some time later. -/
def later (s : State) (waits : Nat) : State := { s with now := s.now + waits }

/-- One event. -/
def step (s : State) (event : Event) : State :=
  match event.sign with
  | .nothing => s.later event.waits
  | .mark grave => (s.later event.waits).mark span threshold grave
  | .tick => { (s.later event.waits).close span threshold with ticked := s.now + event.waits }

/-- Ticks come often enough. -/
def Ticking (s : State) (event : Event) : Prop := s.now + event.waits ≤ s.ticked + beat

/-- No more than a span goes by since the open window came to owe an alarm, a tick that finds it at
its end finds it ripe, and no mark fills it after its end. -/
structure Steady (s : State) (event : Event) : Prop where
  prompt : ∀ owed ∈ s.owed, s.now + event.waits ≤ owed + span
  full : event.sign = .tick → s.owed.isSome → ∀ w ∈ s.window,
    w.since + span ≤ s.now + event.waits → w.Ripe threshold
  timely : event.sign = .mark false → ∀ w ∈ s.window, w.marks + 1 = threshold →
    w.grave = false → s.now + event.waits ≤ w.since + span

theorem steady_iff (s : State) (event : Event) :
    s.Steady span threshold event ↔
      (∀ owed ∈ s.owed, s.now + event.waits ≤ owed + span) ∧
        (event.sign = .tick → s.owed.isSome → ∀ w ∈ s.window,
          w.since + span ≤ s.now + event.waits → w.Ripe threshold) ∧
        (event.sign = .mark false → ∀ w ∈ s.window, w.marks + 1 = threshold →
          w.grave = false → s.now + event.waits ≤ w.since + span) :=
  ⟨fun h ↦ ⟨h.prompt, h.full, h.timely⟩, fun h ↦ ⟨h.1, h.2.1, h.2.2⟩⟩

instance (s : State) (event : Event) : Decidable (s.Steady span threshold event) :=
  decidable_of_iff' _ (s.steady_iff span threshold event)

/-! ## What holds -/

/-- Every burst that is more than a span back was followed by an alarm in time. -/
def Heeded (s : State) : Prop :=
  ∀ first last, Burst span threshold s.plain first last → last + span < s.now →
    ∃ r ∈ s.raised, first ≤ r ∧ r ≤ last + span

/-- An alarm has its cause in a burst or a grave mark, neither longer ago than a window and the time
to the next tick. -/
def Caused (s : State) (r : Nat) : Prop :=
  (∃ first last, Burst span threshold s.plain first last ∧ last ≤ r ∧ r ≤ first + span + beat) ∨
    ∃ g ∈ s.grave, g ≤ r ∧ r ≤ g + span + beat

/-- The invariant of the alarm. -/
structure Kept (s : State) : Prop where
  ordered : s.plain.Pairwise (· ≥ ·)
  past : ∀ time ∈ s.plain, time ≤ s.now
  rung : ∀ r ∈ s.raised, r ≤ s.now
  ticking : s.ticked ≤ s.now ∧ s.now ≤ s.ticked + beat
  opened : ∀ w ∈ s.window, w.since ≤ s.now ∧ s.ticked ≤ w.since + span
  owing : ∀ owed ∈ s.owed, s.window.isSome = true ∧ owed ≤ s.now ∧ s.now ≤ owed + span
  heard : ∀ first last, Burst span threshold s.plain first last →
    (∃ r ∈ s.raised, first ≤ r ∧ r ≤ last + span) ∨ ∃ owed ∈ s.owed, owed ≤ last
  counted : ∀ w ∈ s.window, w.grave = false → w.marks < threshold →
    w.marks ≤ s.plain.countP fun time ↦ w.since ≤ time
  filled : ∀ w ∈ s.window, w.grave = false → threshold ≤ w.marks →
    ∃ last, w.since ≤ last ∧ last ≤ s.now ∧ Burst span threshold s.plain w.since last
  warned : ∀ w ∈ s.window, w.grave = true → ∃ g ∈ s.grave, w.since ≤ g ∧ g ≤ s.now
  caused : ∀ r ∈ s.raised, s.Caused span threshold beat r

variable {span threshold beat}

theorem close_none {s : State} (h : s.window = none) : s.close span threshold = s := by
  rw [close, h]

theorem close_early {s : State} {w : Window} (h : s.window = some w)
    (hearly : s.now < w.since + span) : s.close span threshold = s := by
  rw [close, h]
  exact if_pos hearly

theorem close_late {s : State} {w : Window} (h : s.window = some w)
    (hlate : ¬ s.now < w.since + span) :
    s.close span threshold =
      { s with
        window := none
        owed := none
        raised := if w.Ripe threshold then s.now :: s.raised else s.raised } := by
  rw [close, h]
  exact if_neg hlate

/-- A burst stays one when a time is put before the others. -/
theorem burst_cons {times : List Nat} {first last : Nat} (time : Nat)
    (h : Burst span threshold times first last) :
    Burst span threshold (time :: times) first last :=
  ⟨h.1, h.2.trans (List.sublist_cons_self ..).countP_le⟩

/-- Among times in order, newest first, as many as there are from a time on are the first ones. -/
theorem get_of_countP {times : List Nat}
    (hordered : times.Pairwise (· ≥ ·)) {count first last : Nat}
    (hcount : count < times.countP fun time ↦ first ≤ time ∧ time ≤ last) :
    ∃ time, times[count]? = some time ∧ first ≤ time := by
  induction times generalizing count with
  | nil => simp at hcount
  | cons time rest ih =>
      rw [List.pairwise_cons] at hordered
      cases count with
      | zero =>
          obtain ⟨found, hmem, hfound⟩ := List.countP_pos_iff.1 hcount
          have hfirst : first ≤ found := (of_decide_eq_true hfound).1
          refine ⟨time, rfl, ?_⟩
          rcases List.mem_cons.1 hmem with rfl | hmem
          · exact hfirst
          · exact hfirst.trans (hordered.1 found hmem)
      | succ count =>
          rw [List.countP_cons] at hcount
          refine ih hordered.2 ?_
          split at hcount <;> omega

namespace Kept

variable {s : State}

/-- Time alone changes nothing, as long as a tick and the alarm that is owed are not overdue. -/
theorem later (h : s.Kept span threshold beat) {waits : Nat}
    (hticking : s.now + waits ≤ s.ticked + beat)
    (hprompt : ∀ owed ∈ s.owed, s.now + waits ≤ owed + span) :
    (s.later waits).Kept span threshold beat where
  ordered := h.ordered
  past time htime := (h.past time htime).trans (Nat.le_add_right ..)
  rung r hr := (h.rung r hr).trans (Nat.le_add_right ..)
  ticking := ⟨h.ticking.1.trans (Nat.le_add_right ..), hticking⟩
  opened w hw := ⟨(h.opened w hw).1.trans (Nat.le_add_right ..), (h.opened w hw).2⟩
  owing owed howed :=
    ⟨(h.owing owed howed).1, (h.owing owed howed).2.1.trans (Nat.le_add_right ..),
      hprompt owed howed⟩
  heard := h.heard
  counted := h.counted
  filled w hw hplain hfull := by
    obtain ⟨last, hsince, hlast, hburst⟩ := h.filled w hw hplain hfull
    exact ⟨last, hsince, hlast.trans (Nat.le_add_right ..), hburst⟩
  warned w hw hgrave := by
    obtain ⟨g, hg, hsince, hnow⟩ := h.warned w hw hgrave
    exact ⟨g, hg, hsince, hnow.trans (Nat.le_add_right ..)⟩
  caused := h.caused

/-- A burst that a mark completes and that no alarm heard makes the window owe one. -/
theorem owes_of_burst (h : s.Kept span threshold beat) (hthreshold : 0 < threshold)
    {first last : Nat} (hburst : Burst span threshold (s.now :: s.plain) first last)
    (hnew : ¬ Burst span threshold s.plain first last)
    (hunheard : ¬ ∃ r ∈ s.raised, first ≤ r ∧ r ≤ last + span) :
    s.owes span threshold = true ∧ s.now ≤ last := by
  -- the burst is new, so the mark lies in it
  have hmark : first ≤ s.now ∧ s.now ≤ last := by
    by_contra hout
    apply hnew
    refine ⟨hburst.1, ?_⟩
    have hcount := hburst.2
    rw [List.countP_cons_of_neg (by simpa using hout)] at hcount
    exact hcount
  have hordered : (s.now :: s.plain).Pairwise (· ≥ ·) := List.pairwise_cons.2 ⟨h.past, h.ordered⟩
  have hcount : threshold - 1 <
      (s.now :: s.plain).countP fun time ↦ first ≤ time ∧ time ≤ last := by
    have := hburst.2
    omega
  obtain ⟨time, htime, hfirst⟩ := get_of_countP hordered hcount
  refine ⟨?_, hmark.2⟩
  have hspan := hburst.1
  unfold State.owes
  rw [htime]
  simp only [Option.any_some, Bool.and_eq_true, decide_eq_true_eq, List.all_eq_true]
  refine ⟨by omega, ?_⟩
  intro r hr
  by_contra hlate
  have := h.rung r hr
  exact hunheard ⟨r, hr, by omega, by omega⟩

/-- A grave mark keeps the invariant. -/
theorem mark_grave (h : s.Kept span threshold beat) :
    (s.mark span threshold true).Kept span threshold beat where
  ordered := h.ordered
  past := h.past
  rung := h.rung
  ticking := h.ticking
  opened w hw := by
    cases hw
    cases hwindow : s.window with
    | none => exact ⟨le_refl _, h.ticking.1.trans (Nat.le_add_right ..)⟩
    | some w => exact h.opened w hwindow
  owing owed howed := ⟨rfl, (h.owing owed howed).2⟩
  heard := h.heard
  counted w hw hplain := by
    cases hw
    cases hplain
  filled w hw hplain := by
    cases hw
    cases hplain
  warned w hw _ := by
    cases hw
    refine ⟨s.now, List.mem_cons_self .., ?_, le_refl _⟩
    cases hwindow : s.window with
    | none => exact le_refl _
    | some w => exact (h.opened w hwindow).1
  caused r hr := by
    rcases h.caused r hr with hburst | ⟨g, hg, hcause⟩
    · exact .inl hburst
    · exact .inr ⟨g, List.mem_cons_of_mem _ hg, hcause⟩

/-- A mark that is not grave keeps the invariant, unless it fills a window that is past its end. -/
theorem mark_plain (h : s.Kept span threshold beat) (hthreshold : 0 < threshold)
    (htimely : ∀ w ∈ s.window, w.marks + 1 = threshold → w.grave = false →
      s.now ≤ w.since + span) :
    (s.mark span threshold false).Kept span threshold beat where
  ordered := List.pairwise_cons.2 ⟨h.past, h.ordered⟩
  past time htime := by
    rcases List.mem_cons.1 htime with rfl | htime
    · exact le_refl _
    · exact h.past time htime
  rung := h.rung
  ticking := h.ticking
  opened w hw := by
    cases hw
    cases hwindow : s.window with
    | none => exact ⟨le_refl _, h.ticking.1.trans (Nat.le_add_right ..)⟩
    | some w => exact h.opened w hwindow
  owing owed howed := by
    refine ⟨rfl, ?_⟩
    rcases Option.or_eq_some_iff.1 howed with hold | ⟨-, hnew⟩
    · exact (h.owing owed hold).2
    · split at hnew
      · cases hnew
        exact ⟨le_refl _, Nat.le_add_right ..⟩
      · cases hnew
  heard first last hburst := by
    by_cases hheard : ∃ r ∈ s.raised, first ≤ r ∧ r ≤ last + span
    · exact .inl hheard
    · right
      by_cases hold : Burst span threshold s.plain first last
      · rcases h.heard first last hold with hraised | ⟨owed, howed, hlast⟩
        · exact absurd hraised hheard
        · exact ⟨owed, Option.or_eq_some_iff.2 (.inl howed), hlast⟩
      · obtain ⟨howes, hlast⟩ := h.owes_of_burst hthreshold hburst hold hheard
        -- the window may have come to owe an alarm before this mark
        cases howed : s.owed with
        | some owed =>
            refine ⟨owed, Option.or_eq_some_iff.2 (.inl howed), ?_⟩
            exact ((h.owing owed howed).2.1).trans hlast
        | none =>
            exact ⟨s.now, Option.or_eq_some_iff.2 (.inr ⟨howed, if_pos howes⟩), hlast⟩
  counted w hw hplain hfew := by
    cases hw
    show _ ≤ (s.now :: s.plain).countP _
    cases hwindow : s.window with
    | none =>
        simp only [hwindow, Option.getD_none] at hfew ⊢
        rw [List.countP_cons_of_pos (by simp)]
        omega
    | some w =>
        simp only [hwindow, Option.getD_some] at hfew hplain ⊢
        have := h.counted w hwindow (by simpa using hplain) (by omega)
        rw [List.countP_cons_of_pos (by simpa using (h.opened w hwindow).1)]
        omega
  filled w hw hplain hfull := by
    cases hw
    show ∃ last, _ ∧ _ ∧ Burst span threshold (s.now :: s.plain) _ last
    cases hwindow : s.window with
    | none =>
        simp only [hwindow, Option.getD_none] at hfull ⊢
        refine ⟨s.now, le_refl _, le_refl _, Nat.le_add_right .., ?_⟩
        rw [List.countP_cons_of_pos (by simp)]
        omega
    | some w =>
        simp only [hwindow, Option.getD_some] at hfull hplain ⊢
        have hplain : w.grave = false := by simpa using hplain
        by_cases hbefore : threshold ≤ w.marks
        · obtain ⟨last, hsince, hlast, hburst⟩ := h.filled w hwindow hplain hbefore
          exact ⟨last, hsince, hlast, burst_cons _ hburst⟩
        · -- this mark fills the window, and it is in time
          have hcount := h.counted w hwindow hplain (by omega)
          have hsince := (h.opened w hwindow).1
          refine ⟨s.now, hsince, le_refl _, htimely w hwindow (by omega) hplain, ?_⟩
          have hsame : (s.plain.countP fun time ↦ w.since ≤ time ∧ time ≤ s.now) =
              s.plain.countP fun time ↦ w.since ≤ time := by
            apply List.countP_congr
            intro time htime
            have := h.past time htime
            simp [this]
          rw [List.countP_cons_of_pos (by simpa using hsince), hsame]
          omega
  warned w hw hgrave := by
    cases hw
    cases hwindow : s.window with
    | none =>
        rw [hwindow] at hgrave
        cases hgrave
    | some w =>
        rw [hwindow] at hgrave
        exact h.warned w hwindow (by simpa using hgrave)
  caused r hr := by
    rcases h.caused r hr with ⟨first, last, hburst, hcause⟩ | hgrave
    · exact .inl ⟨first, last, burst_cons _ hburst, hcause⟩
    · exact .inr hgrave

/-- A tick keeps the invariant, if the window it closes has the marks for the alarm it owes. -/
theorem close (h : s.Kept span threshold beat) (hthreshold : 0 < threshold)
    (hfull : s.owed.isSome → ∀ w ∈ s.window, w.since + span ≤ s.now → w.Ripe threshold) :
    ({ s.close span threshold with ticked := s.now }).Kept span threshold beat := by
  have hticking : s.now ≤ s.now ∧ s.now ≤ s.now + beat := ⟨le_refl _, Nat.le_add_right ..⟩
  cases hwindow : s.window with
  | none =>
      rw [close_none hwindow]
      refine { h with ticking := hticking, opened := ?_ }
      intro w hw
      rw [hwindow] at hw
      cases hw
  | some w =>
      by_cases hearly : s.now < w.since + span
      · rw [close_early hwindow hearly]
        refine { h with ticking := hticking, opened := ?_ }
        intro w' hw'
        -- the window has not run its length, so it stays open
        have hsame := hwindow.symm.trans hw'
        cases hsame
        exact ⟨(h.opened w hwindow).1, hearly.le⟩
      · rw [close_late hwindow hearly]
        -- the window closes and is forgotten: what is left to show is about the alarms
        have hraised : ∀ r ∈ (if w.Ripe threshold then s.now :: s.raised else s.raised),
            r ∈ s.raised ∨ (r = s.now ∧ w.Ripe threshold) := by
          intro r hr
          split at hr
          · rename_i hripe
            rcases List.mem_cons.1 hr with rfl | hr
            · exact .inr ⟨rfl, hripe⟩
            · exact .inl hr
          · exact .inl hr
        have hkept : ∀ r ∈ s.raised,
            r ∈ (if w.Ripe threshold then s.now :: s.raised else s.raised) := by
          intro r hr
          split
          · exact List.mem_cons_of_mem _ hr
          · exact hr
        exact
          { ordered := h.ordered
            past := h.past
            ticking := hticking
            opened := nofun
            owing := nofun
            counted := nofun
            filled := nofun
            warned := nofun
            rung := by
              intro r hr
              rcases hraised r hr with hr | ⟨rfl, -⟩
              · exact h.rung r hr
              · exact le_refl _
            heard := by
              intro first last hburst
              left
              rcases h.heard first last hburst with ⟨r, hr, hcause⟩ | ⟨owed, howed, hlast⟩
              · exact ⟨r, hkept r hr, hcause⟩
              · -- the window owes an alarm, so it is ripe
                have hripe := hfull (by rw [howed]; rfl) w hwindow (by omega)
                obtain ⟨time, htime, hfirst⟩ := List.countP_pos_iff.1
                  (Nat.lt_of_lt_of_le hthreshold hburst.2)
                have hfirst : first ≤ time := (of_decide_eq_true hfirst).1
                have hprompt := (h.owing owed howed).2.2
                refine ⟨s.now, ?_, hfirst.trans (h.past time htime), by omega⟩
                show s.now ∈ if w.Ripe threshold then s.now :: s.raised else s.raised
                rw [if_pos hripe]
                exact List.mem_cons_self ..
            caused := by
              intro r hr
              rcases hraised r hr with hr | ⟨rfl, hripe⟩
              · exact h.caused r hr
              · -- the tick before found the window open
                have hsince := (h.opened w hwindow).2
                have hbeat := h.ticking.2
                cases hgrave : w.grave with
                | true =>
                    obtain ⟨g, hg, hopened, hnow⟩ := h.warned w hwindow hgrave
                    exact .inr ⟨g, hg, hnow, by omega⟩
                | false =>
                    have hmarks : threshold ≤ w.marks := by
                      rcases hripe with hmarks | hgrave'
                      · exact hmarks
                      · rw [hgrave] at hgrave'
                        cases hgrave'
                    obtain ⟨last, hopened, hlast, hburst⟩ := h.filled w hwindow hgrave hmarks
                    exact .inl ⟨w.since, last, hburst, hlast, by omega⟩ }

end Kept

/-- Every step that ticks in time and is steady keeps the invariant. -/
theorem kept_step {s : State} (h : s.Kept span threshold beat) (hthreshold : 0 < threshold)
    {event : Event} (hticking : s.Ticking beat event) (hsteady : s.Steady span threshold event) :
    (s.step span threshold event).Kept span threshold beat := by
  have hlater := h.later hticking hsteady.prompt
  unfold step
  cases hsign : event.sign with
  | nothing => exact hlater
  | mark grave =>
      cases grave with
      | true => exact hlater.mark_grave
      | false => exact hlater.mark_plain hthreshold (hsteady.timely hsign)
  | tick => exact hlater.close hthreshold (hsteady.full hsign)

/-- What the invariant says to whoever waits for an alarm. -/
theorem Kept.heeded {s : State} (h : s.Kept span threshold beat) : s.Heeded span threshold := by
  intro first last hburst hpast
  rcases h.heard first last hburst with hraised | ⟨owed, howed, hlast⟩
  · exact hraised
  · have := (h.owing owed howed).2.2
    omega

end State

end DeskhopPlus.Tumbling
