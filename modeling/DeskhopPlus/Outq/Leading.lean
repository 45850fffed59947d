import DeskhopPlus.Outq.Growth
import DeskhopPlus.Outq.Pump

/-!
# What leaves a queue first

A priority frame offered to an empty queue leaves before everything else, whatever is offered
behind it: the bulk band does not begin while it waits. `Leads` is that account of a queue and the
bytes taken of it, and offers and advances keep it.
-/

namespace DeskhopPlus.Outq

open Bytes Wire

/-- The second queue comes from the first by offers of these frames. -/
inductive Offers (frames : List (List UInt8)) : Outq → Outq → Prop
  | refl (q : Outq) : Offers frames q q
  | offer {frame : List UInt8} (hframe : frame ∈ frames) (q : Outq) :
      Offers frames q (q.offer frame).2
  | offerPair {first second : List UInt8} (hfirst : first ∈ frames) (hsecond : second ∈ frames)
      (q : Outq) : Offers frames q (q.offerPair first second).2

/-- What waits after some offers waited before or was offered. -/
theorem Offers.grows {frames : List (List UInt8)} {q q' : Outq} (h : Offers frames q q') :
    Grows frames q q' := by
  cases h with
  | refl => exact (Grows.refl q).mono nofun
  | offer hframe =>
      apply (grows_offer q _).mono
      intro added hadded
      split at hadded
      · rwa [List.mem_singleton.1 hadded]
      · cases hadded
  | offerPair hfirst hsecond =>
      apply (grows_offerPair q _ _).mono
      intro added hadded
      simp only [List.mem_cons, List.not_mem_nil, or_false] at hadded
      rcases hadded with rfl | rfl
      · exact hfirst
      · exact hsecond

/-- These bytes were taken of the queue, and a priority frame is the first thing among them, or the
next to be taken. -/
def Leads (first drained : List UInt8) (q : Outq) : Prop :=
  ∃ spec, Refines q spec ∧ spec.Sound ∧ spec.emitted = drained ∧
    ((∃ rest, spec.done = (.priority, first) :: rest) ∨
      (spec.done = [] ∧ spec.begun ≠ some .bulk ∧ ∃ rest, spec.waiting .priority = first :: rest))

section Leading

variable {first drained : List UInt8} {q q' : Outq} {spec : LaneQueue BandId UInt8}

/-- What an empty queue took leads it. -/
theorem leads_start (q : Outq) (htaken : (q.reset.offer first).1 = .ok)
    (hband : bandOf first = .priority) : Leads first [] (q.reset.offer first).2 := by
  rcases (refines_reset q).offer first with ⟨-, hframe, hrefines⟩ | ⟨hrefused, -⟩
  · refine ⟨_, hrefines, LaneQueue.sound_empty.accept (Driver.isFrame_ne_nil hframe), rfl, .inr ?_⟩
    rw [hband]
    exact ⟨rfl, nofun, [], by simp [LaneQueue.empty]⟩
  · exact absurd htaken hrefused

/-- A frame that waits behind others does not change which is first. -/
theorem leading_accept (lane : BandId) (frame : List UInt8)
    (h : (∃ rest, spec.done = (.priority, first) :: rest) ∨
      (spec.done = [] ∧ spec.begun ≠ some .bulk ∧
        ∃ rest, spec.waiting .priority = first :: rest)) :
    (∃ rest, (spec.accept lane frame).done = (.priority, first) :: rest) ∨
      ((spec.accept lane frame).done = [] ∧ (spec.accept lane frame).begun ≠ some .bulk ∧
        ∃ rest, (spec.accept lane frame).waiting .priority = first :: rest) := by
  rcases h with hdone | ⟨hnone, hbegun, rest, hwaiting⟩
  · exact .inl hdone
  · refine .inr ⟨hnone, hbegun, ?_⟩
    by_cases hlane : lane = .priority
    · subst hlane
      exact ⟨rest ++ [frame], by rw [LaneQueue.accept_waiting_self, hwaiting]; rfl⟩
    · exact ⟨rest, by rw [LaneQueue.accept_waiting_of_ne spec (Ne.symm hlane), hwaiting]⟩

theorem Leads.offers {frames : List (List UInt8)} (h : Leads first drained q)
    (hoffers : Offers frames q q') : Leads first drained q' := by
  obtain ⟨spec, hrefines, hsound, hemitted, hleading⟩ := h
  cases hoffers with
  | refl => exact ⟨spec, hrefines, hsound, hemitted, hleading⟩
  | offer hmem =>
      rename_i frame
      rcases hrefines.offer frame with ⟨-, hframe, htaken⟩ | ⟨-, hkept⟩
      · exact ⟨_, htaken, hsound.accept (Driver.isFrame_ne_nil hframe), hemitted,
          leading_accept _ _ hleading⟩
      · exact ⟨spec, hkept, hsound, hemitted, hleading⟩
  | offerPair hfirst hsecond =>
      rename_i one other
      rcases hrefines.offerPair one other with ⟨-, hone, hother, htaken⟩ | ⟨-, hkept⟩
      · exact ⟨_, htaken, (hsound.accept (Driver.isFrame_ne_nil hone)).accept
          (Driver.isFrame_ne_nil hother), hemitted,
          leading_accept _ _ (leading_accept _ _ hleading)⟩
      · exact ⟨spec, hkept, hsound, hemitted, hleading⟩

/-- The owed band is the priority band while a frame waits there and bulk has not begun. -/
theorem Refines.peek_priority (h : Refines q spec) (hbegun : spec.begun ≠ some .bulk)
    (hwaiting : spec.waiting .priority ≠ []) {view : View} (hview : q.peek = some view) :
    view.band = .priority := by
  have hidle : q.bulk.inFlight = false := by
    rw [← Bool.not_eq_true]
    exact fun hflight ↦ hbegun ((h.begun .bulk).2 hflight)
  have hheld : 0 < q.priority.len :=
    Nat.pos_of_ne_zero fun hempty ↦ hwaiting (h.waiting_nil .priority hempty)
  have howed : q.owedBand = some .priority := by simp [Outq.owedBand, hidle, hheld]
  rw [Outq.peek, howed] at hview
  exact Option.some.inj hview ▸ rfl

/-- The pump takes what it was shown. -/
theorem Leads.take {view : View} (h : Leads first drained q) (hview : q.peek = some view) :
    Leads first (drained ++ view.atBytes.take (pumpTake view))
      (q.advance view (pumpTake view)) := by
  obtain ⟨spec, hrefines, hsound, hemitted, hleading⟩ := h
  obtain ⟨hfree, -, frame, items, hwaiting, hbytes⟩ := hrefines.peek hsound hview
  have htaken : (spec.emit view.band (pumpTake view)).emitted =
      drained ++ view.atBytes.take (pumpTake view) := by
    rw [← hemitted, hbytes]
    unfold LaneQueue.emit
    simp only [hwaiting]
    split <;> rfl
  refine ⟨_, hrefines.advance hsound hfree _, hsound.emit hfree _, htaken, ?_⟩
  rcases hleading with ⟨rest, hdone⟩ | ⟨hnone, hbegun, rest, hfirst⟩
  · refine .inl ?_
    unfold LaneQueue.emit
    simp only [hwaiting]
    split
    · exact ⟨rest, hdone⟩
    · exact ⟨rest ++ [(view.band, frame)], by rw [hdone]; rfl⟩
  · have hband := hrefines.peek_priority hbegun (by rw [hfirst]; exact nofun) hview
    rw [hband, hfirst] at hwaiting
    obtain ⟨rfl, rfl⟩ := List.cons.inj hwaiting
    unfold LaneQueue.emit
    simp only [hband, hfirst]
    split
    · refine .inr ⟨hnone, ?_, rest, hfirst⟩
      simp only
      split
      · exact hbegun
      · decide
    · exact .inl ⟨[], by rw [hnone]; rfl⟩

/-- What was taken begins with the leading frame, as far as it goes. -/
theorem Leads.agrees (h : Leads first drained q) : drained <+: first ∨ first <+: drained := by
  obtain ⟨spec, hrefines, hsound, rfl, hleading⟩ := h
  rcases hleading with ⟨rest, hdone⟩ | ⟨hnone, hbegun, rest, hwaiting⟩
  · refine .inr ?_
    rw [hsound.stream, hdone]
    simp [LaneQueue.bytes]
  · refine .inl ?_
    rw [hsound.stream, hnone]
    show [] ++ spec.part <+: first
    rw [List.nil_append]
    unfold LaneQueue.part
    split
    · exact List.nil_prefix
    · rename_i lane hlane
      cases lane with
      | bulk => exact absurd hlane hbegun
      | priority =>
          rw [hwaiting, List.headD_cons]
          exact List.take_prefix _ _

end Leading

end DeskhopPlus.Outq
