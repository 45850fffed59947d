import DeskhopPlus.Outq.Leading

/-!
# Pairs in a queue

The two frames of a pair are offered together, and no other frame comes between them: the first
band takes what is offered behind them, and the bulk band does not begin while the second waits.
`Holds` is the account of a queue since it was last emptied, with the pairs it was offered, and
`Holds.reads` reads it off the bytes that were taken.
-/

namespace DeskhopPlus.Outq

open Bytes Wire

/-- One priority frame is right behind another: both have left, the second is the next to leave, or
both wait. -/
inductive Adjacent (spec : LaneQueue BandId UInt8) (first second : List UInt8) : Prop
  | left (before after : List (BandId × List UInt8))
      (h : spec.done = before ++ (.priority, first) :: (.priority, second) :: after) :
      Adjacent spec first second
  | between (before : List (BandId × List UInt8)) (rest : List (List UInt8))
      (hdone : spec.done = before ++ [(.priority, first)]) (hbegun : spec.begun ≠ some .bulk)
      (hwaiting : spec.waiting .priority = second :: rest) : Adjacent spec first second
  | waits (before rest : List (List UInt8))
      (h : spec.waiting .priority = before ++ first :: second :: rest) : Adjacent spec first second

/-- These bytes were taken of the queue since it was last emptied, out of whole frames, and these
pairs were offered to it. -/
def Holds (pairs : List (List UInt8 × List UInt8)) (drained : List UInt8) (q : Outq) : Prop :=
  ∃ spec, Refines q spec ∧ spec.Sound ∧ spec.emitted = drained ∧
    (∀ entry ∈ spec.accepted, IsFrame entry.2) ∧ ∀ pair ∈ pairs, Adjacent spec pair.1 pair.2

variable {pairs : List (List UInt8 × List UInt8)} {drained first second : List UInt8}
  {q q' : Outq} {spec : LaneQueue BandId UInt8}

/-- What is accepted goes behind the pair. -/
theorem Adjacent.accept (h : Adjacent spec first second) (lane : BandId) (frame : List UInt8) :
    Adjacent (spec.accept lane frame) first second := by
  have hwaiting : ∃ more, (spec.accept lane frame).waiting .priority =
      spec.waiting .priority ++ more := by
    by_cases hlane : lane = .priority
    · subst hlane
      exact ⟨[frame], LaneQueue.accept_waiting_self ..⟩
    · exact ⟨[], by rw [LaneQueue.accept_waiting_of_ne spec (Ne.symm hlane), List.append_nil]⟩
  obtain ⟨more, hmore⟩ := hwaiting
  cases h with
  | left before after h => exact .left before after h
  | between before rest hdone hbegun hnext =>
      exact .between before (rest ++ more) hdone hbegun (by rw [hmore, hnext]; rfl)
  | waits before rest h =>
      exact .waits before (rest ++ more) (by rw [hmore, h]; simp)

/-- What waits keeps its place while other frames of its lane are put out before it. -/
theorem Adjacent.emit (h : Adjacent spec first second) {lane : BandId} {count : Nat}
    (hlane : spec.begun ≠ some .bulk → spec.waiting .priority ≠ [] → lane = .priority) :
    Adjacent (spec.emit lane count) first second := by
  cases hwaiting : spec.waiting lane with
  | nil => rwa [LaneQueue.emit_nil hwaiting]
  | cons item rest =>
      by_cases hmore : spec.sent + count < item.length
      · rw [LaneQueue.emit_inside hwaiting hmore]
        cases h with
        | left before after h => exact .left before after h
        | between before rest' hdone hbegun hnext =>
            refine .between before rest' hdone ?_ hnext
            have hband := hlane hbegun (by rw [hnext]; exact nofun)
            simp only
            split
            · exact hbegun
            · rw [hband]
              decide
        | waits before rest' h => exact .waits before rest' h
      · rw [LaneQueue.emit_complete hwaiting (Nat.le_of_not_lt hmore)]
        cases h with
        | left before after h =>
            exact .left before (after ++ [(lane, item)]) (by simp [h])
        | between before rest' hdone hbegun hnext =>
            -- the second frame is the one that was put out
            have hband := hlane hbegun (by rw [hnext]; exact nofun)
            subst hband
            rw [hnext] at hwaiting
            obtain ⟨rfl, rfl⟩ := List.cons.inj hwaiting
            exact .left before [] (by simp [hdone])
        | waits before rest' h =>
            by_cases hband : lane = .priority
            · subst hband
              rw [h] at hwaiting
              cases before with
              | nil =>
                  obtain ⟨rfl, rfl⟩ := List.cons.inj hwaiting
                  exact .between spec.done rest' rfl nofun (by simp)
              | cons head tail =>
                  obtain ⟨rfl, rfl⟩ := List.cons.inj hwaiting
                  exact .waits tail rest' (by simp)
            · exact .waits before rest' (by simp [Function.update_of_ne (Ne.symm hband), h])

/-! ## The account of a queue -/

theorem holds_reset (q : Outq) : Holds [] [] q.reset :=
  ⟨_, refines_reset q, LaneQueue.sound_empty, rfl, nofun, nofun⟩

theorem isFrame_accept {lane : BandId} {frame : List UInt8} (hframe : IsFrame frame)
    (h : ∀ entry ∈ spec.accepted, IsFrame entry.2) :
    ∀ entry ∈ (spec.accept lane frame).accepted, IsFrame entry.2 := by
  intro entry hentry
  rcases List.mem_append.1 hentry with hold | hnew
  · exact h entry hold
  · rw [List.mem_singleton.1 hnew]
    exact hframe

theorem Holds.offers {frames : List (List UInt8)} (h : Holds pairs drained q)
    (hoffers : Offers frames q q') : Holds pairs drained q' := by
  obtain ⟨spec, hrefines, hsound, hemitted, hframes, hpairs⟩ := h
  cases hoffers with
  | refl => exact ⟨spec, hrefines, hsound, hemitted, hframes, hpairs⟩
  | offer hmem =>
      rename_i frame
      rcases hrefines.offer frame with ⟨-, hframe, htaken⟩ | ⟨-, hkept⟩
      · exact ⟨_, htaken, hsound.accept (Driver.isFrame_ne_nil hframe), hemitted,
          isFrame_accept hframe hframes, fun pair hpair ↦ (hpairs pair hpair).accept _ _⟩
      · exact ⟨spec, hkept, hsound, hemitted, hframes, hpairs⟩
  | offerPair hfirst hsecond =>
      rename_i one other
      rcases hrefines.offerPair one other with ⟨-, hone, hother, htaken⟩ | ⟨-, hkept⟩
      · exact ⟨_, htaken, (hsound.accept (Driver.isFrame_ne_nil hone)).accept
          (Driver.isFrame_ne_nil hother), hemitted,
          isFrame_accept hother (isFrame_accept hone hframes),
          fun pair hpair ↦ ((hpairs pair hpair).accept _ _).accept _ _⟩
      · exact ⟨spec, hkept, hsound, hemitted, hframes, hpairs⟩

/-- A pair the queue takes stands at the end of the priority band. -/
theorem Holds.offerPair (h : Holds pairs drained q) (htaken : (q.offerPair first second).1 = .ok)
    (hfirst : bandOf first = .priority) (hsecond : bandOf second = .priority) :
    Holds (pairs ++ [(first, second)]) drained (q.offerPair first second).2 := by
  obtain ⟨spec, hrefines, hsound, hemitted, hframes, hpairs⟩ := h
  rcases hrefines.offerPair first second with ⟨-, hone, hother, hafter⟩ | ⟨hrefused, -⟩
  · refine ⟨_, hafter, (hsound.accept (Driver.isFrame_ne_nil hone)).accept
      (Driver.isFrame_ne_nil hother), hemitted,
      isFrame_accept hother (isFrame_accept hone hframes), ?_⟩
    intro pair hpair
    rcases List.mem_append.1 hpair with hold | hnew
    · exact ((hpairs pair hold).accept _ _).accept _ _
    · rw [List.mem_singleton.1 hnew, hfirst, hsecond]
      exact .waits (spec.waiting .priority) [] (by simp)
  · exact absurd htaken hrefused

/-- The pump takes what it was shown. -/
theorem Holds.take {view : View} (h : Holds pairs drained q) (hview : q.peek = some view) :
    Holds pairs (drained ++ view.atBytes.take (pumpTake view))
      (q.advance view (pumpTake view)) := by
  obtain ⟨spec, hrefines, hsound, hemitted, hframes, hpairs⟩ := h
  obtain ⟨hfree, -, frame, items, hwaiting, hbytes⟩ := hrefines.peek hsound hview
  have htaken : (spec.emit view.band (pumpTake view)).emitted =
      drained ++ view.atBytes.take (pumpTake view) := by
    rw [← hemitted, hbytes]
    unfold LaneQueue.emit
    simp only [hwaiting]
    split <;> rfl
  refine ⟨_, hrefines.advance hsound hfree _, hsound.emit hfree _, htaken, ?_, ?_⟩
  · rw [LaneQueue.emit_accepted]
    exact hframes
  · intro pair hpair
    exact (hpairs pair hpair).emit fun hbegun hpriority ↦
      hrefines.peek_priority hbegun hpriority hview

/-- One frame is right behind another among the frames that left, or is the next to leave behind it,
or waits behind it. -/
def Behind (left : List (List UInt8)) (part : List UInt8) (waiting : List (List UInt8))
    (first second : List UInt8) : Prop :=
  (∃ before after, left = before ++ first :: second :: after) ∨
    (∃ before rest, left = before ++ [first] ∧ part <+: second ∧ waiting = second :: rest) ∨
      ∃ before rest, waiting = before ++ first :: second :: rest

/-- What was taken is whole frames and a part of one more, and in every pair the second frame is
right behind the first. -/
theorem Holds.reads (h : Holds pairs drained q) :
    ∃ left part, drained = left.flatten ++ part ∧ (∀ frame ∈ left, IsFrame frame) ∧
      ∀ pair ∈ pairs, Behind left part (q.band .priority).frames pair.1 pair.2 := by
  obtain ⟨spec, hrefines, hsound, rfl, hframes, hpairs⟩ := h
  refine ⟨spec.done.map Prod.snd, spec.part, hsound.stream, ?_, fun pair hpair ↦ ?_⟩
  · intro frame hframe
    obtain ⟨⟨lane, item⟩, hentry, rfl⟩ := List.mem_map.1 hframe
    refine hframes (lane, item) (hsound.mem_accepted (.inl ?_))
    exact List.mem_map.2 ⟨(lane, item), List.mem_filter.2 ⟨hentry, by simp⟩, rfl⟩
  · rw [← hrefines.waiting .priority]
    cases hpairs pair hpair with
    | left before after h =>
        exact .inl ⟨before.map Prod.snd, after.map Prod.snd, by simp [h]⟩
    | between before rest hdone hbegun hwaiting =>
        refine .inr (.inl ⟨before.map Prod.snd, rest, by simp [hdone], ?_, hwaiting⟩)
        unfold LaneQueue.part
        split
        · exact List.nil_prefix
        · rename_i lane hlane
          cases lane with
          | bulk => exact absurd hlane hbegun
          | priority =>
              rw [hwaiting, List.headD_cons]
              exact List.take_prefix _ _
    | waits before rest h => exact .inr (.inr ⟨before, rest, h⟩)

end DeskhopPlus.Outq
