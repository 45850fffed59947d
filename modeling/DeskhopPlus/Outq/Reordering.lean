import DeskhopPlus.Auth.Window
import DeskhopPlus.Outq.Stream

/-!
# Reordering and the replay window

A sender spends one counter per frame it builds and offers each frame to an outbound queue, which
lets a priority frame overtake queued bulk. `Sender` is that system: the session's counter, the
queue and the transport. `Move` says once what an event does to the frames that wait and the
frames that left; from it follow that only a waiting bulk frame can be overtaken, and exactly when
the receiver's window still takes everything: a priority frame that leaves while bulk waits must
be less than the window's width ahead of the oldest waiting bulk frame.
-/

namespace DeskhopPlus.Outq

open Bytes Wire Auth Runs ReplayWindow

/-- The counter of an authenticated frame, as `dh_auth_peek_counter` reads it. -/
def frameCounter (frame : List UInt8) : Nat :=
  value ((frame.drop headerSize).take counterSize)

/-- The frame in the in-flight buffer. -/
def Band.head {id : BandId} (b : Band id) : List UInt8 := b.buf.take b.len

/-- A queue with its transport, and the next counter of the session that fills it. -/
structure Sender where
  driver : Driver
  counter : Nat

/-- What the sender does: build a frame and offer it, or one step of draining. -/
inductive SendEvent where
  | send (type flags : UInt8) (body : List UInt8) (cap : Nat)
  | peek
  | advance (n : Nat)
  | notePreamble
  deriving DecidableEq, Repr

namespace Sender

/-- A session that has built nothing, over a reset queue. -/
def start (q : Outq) : Sender := { driver := Driver.start q, counter := 0 }

/-- One event. A frame takes its counter when it is built, whether or not the queue then takes the
frame; a preamble is noted only for a frame the view still shows. -/
def step (key : List UInt8) (s : Sender) : SendEvent → Sender
  | .send type flags body cap =>
      match Auth.frame type flags key s.counter body cap with
      | .error _ => s
      | .ok frame =>
          { driver := s.driver.step (.offer frame), counter := (s.counter + 1) % 2 ^ 64 }
  | .peek => { s with driver := s.driver.step .peek }
  | .advance n => { s with driver := s.driver.step (.advance n) }
  | .notePreamble =>
      match s.driver.view with
      | none => s
      | some view =>
          if view.remaining = 0 then s else { s with driver := s.driver.step .notePreamble }

/-- What the specification does meanwhile. -/
def shadow (key : List UInt8) (s : Sender) (spec : LaneQueue BandId UInt8) :
    SendEvent → LaneQueue BandId UInt8
  | .send type flags body cap =>
      match Auth.frame type flags key s.counter body cap with
      | .error _ => spec
      | .ok frame => s.driver.shadow spec (.offer frame)
  | .peek => s.driver.shadow spec .peek
  | .advance n => s.driver.shadow spec (.advance n)
  | .notePreamble =>
      match s.driver.view with
      | none => spec
      | some view =>
          if view.remaining = 0 then spec else s.driver.shadow spec .notePreamble

/-- The advance takes the last bytes of a priority frame. -/
def completesPriority (s : Driver) (n : Nat) : Bool :=
  match s.view with
  | none => false
  | some view => view.band = .priority && 0 < n && n = view.remaining

/-- A priority frame that leaves while bulk waits is less than the window's width ahead of the
oldest waiting bulk frame. -/
def Bounded (s : Sender) : SendEvent → Prop
  | .advance n =>
      completesPriority s.driver n = true → 0 < s.driver.queue.bulk.len →
        frameCounter s.driver.queue.priority.head <
          frameCounter s.driver.queue.bulk.head + authWindow
  | _ => True

instance (s : Sender) (event : SendEvent) : Decidable (s.Bounded event) := by
  cases event <;> simp only [Bounded] <;> infer_instance

end Sender

/-! ## What one event does to the frames -/

/-- The transport is committed to the head of the bulk band. -/
def BulkGoing (s : Driver) (spec : LaneQueue BandId UInt8) : Prop :=
  spec.begun = some .bulk ∨ ∃ view ∈ s.view, view.band = .bulk ∧ view.atBytes ≠ []

/-- The three things an event can do: nothing to the frames, take one at the end of its band, or
let the head of a band leave. -/
inductive Move (s : Sender) (spec : LaneQueue BandId UInt8) (event : SendEvent) (following : Sender)
    (next : LaneQueue BandId UInt8) : Prop where
  | still (hwaiting : next.waiting = spec.waiting) (hdone : next.done = spec.done)
      (hcounter : s.counter ≤ following.counter)
      (hgoing : BulkGoing following.driver next →
        BulkGoing s.driver spec ∨ spec.waiting .priority = [])
  | took (frame : List UInt8) (hnext : next = spec.accept (bandOf frame) frame)
      (hnumber : frameCounter frame = s.counter)
      (hcounter : following.counter = s.counter + 1)
      (hgoing : BulkGoing following.driver next → BulkGoing s.driver spec)
  | left (lane : BandId) (frame : List UInt8) (rest : List (List UInt8))
      (hwaiting : spec.waiting lane = frame :: rest)
      (hleft : next.waiting = Function.update spec.waiting lane rest)
      (hdone : next.done = spec.done ++ [(lane, frame)])
      (hcounter : following.counter = s.counter)
      (hpriority : lane = .priority →
        ∃ n, event = .advance n ∧ Sender.completesPriority s.driver n = true)
      (hbulk : lane = .bulk → BulkGoing s.driver spec)
      (hidle : ¬ BulkGoing following.driver next)

section Moves

variable {key : List UInt8} {s : Sender} {spec : LaneQueue BandId UInt8}

/-- The counter of a frame just built. -/
theorem frameCounter_built {type flags : UInt8} {counter : Nat} {body frame : List UInt8}
    {cap : Nat} (h : Auth.frame type flags key counter body cap = .ok frame)
    (hcounter : counter < 2 ^ 64) : frameCounter frame = counter := by
  obtain ⟨rfl, -⟩ := frame_ok h
  have hdrop : (builtView type flags key counter body).bytes.drop headerSize =
      (builtView type flags key counter body).payload := by
    rw [FrameView.bytes]
    exact List.drop_left' (by simp)
  rw [frameCounter, hdrop]
  exact counterOf_builtView type flags key counter body hcounter

/-- Building and offering a frame. -/
theorem move_send (hroom : s.counter + 1 < 2 ^ 64)
    (type flags : UInt8) (body : List UInt8) (cap : Nat) :
    Move s spec (.send type flags body cap) (s.step key (.send type flags body cap))
      (s.shadow key spec (.send type flags body cap)) := by
  cases hframe : Auth.frame type flags key s.counter body cap with
  | error fault =>
      simp only [Sender.step, Sender.shadow, hframe]
      exact .still rfl rfl (Nat.le_refl _) .inl
  | ok frame =>
      have hwrap : (s.counter + 1) % 2 ^ 64 = s.counter + 1 := Nat.mod_eq_of_lt hroom
      by_cases hok : (s.driver.queue.offer frame).1 = .ok
      · simp only [Sender.step, Sender.shadow, Driver.shadow, hframe, if_pos hok, hwrap]
        exact .took frame rfl (frameCounter_built hframe (by omega)) rfl id
      · simp only [Sender.step, Sender.shadow, Driver.shadow, hframe, if_neg hok, hwrap]
        exact .still rfl rfl (Nat.le_succ _) .inl

/-- A peek commits to bulk only when no priority frame waits. -/
theorem move_peek (h : s.driver.Tracks spec) :
    Move s spec .peek (s.step key .peek) (s.shadow key spec .peek) := by
  refine .still rfl rfl (Nat.le_refl _) ?_
  rintro (hbegun | ⟨view, hview, hband, -⟩)
  · exact .inl (.inl hbegun)
  · obtain ⟨id, howed, rfl⟩ := Option.map_eq_some_iff.1 hview
    simp only [viewOf] at hband
    subst hband
    by_cases hflight : s.driver.queue.bulk.inFlight = true
    · exact .inl (.inl ((h.refines.begun .bulk).2 hflight))
    · by_cases hheld : 0 < s.driver.queue.priority.len
      · simp [Outq.owedBand, hflight, hheld] at howed
      · exact .inr (h.refines.waiting_nil .priority (Nat.eq_zero_of_not_pos hheld))

/-- Noting the preamble of a frame the view shows moves no frame. -/
theorem move_notePreamble (h : s.driver.Tracks spec) :
    Move s spec .notePreamble (s.step key .notePreamble) (s.shadow key spec .notePreamble) := by
  cases hview : s.driver.view with
  | none =>
      simp only [Sender.step, Sender.shadow, hview]
      exact .still rfl rfl (Nat.le_refl _) .inl
  | some view =>
      by_cases hused : view.remaining = 0
      · simp only [Sender.step, Sender.shadow, hview, if_pos hused]
        exact .still rfl rfl (Nat.le_refl _) .inl
      · have hbytes : view.atBytes ≠ [] := by
          intro hnil
          exact hused (by rw [h.remaining view hview, hnil]; rfl)
        have hgoing : view.band = .bulk → BulkGoing s.driver spec :=
          fun hband ↦ .inr ⟨view, hview, hband, hbytes⟩
        simp only [Sender.step, Sender.shadow, Driver.step, Driver.shadow, hview, if_neg hused]
        unfold LaneQueue.start
        split
        · refine .still rfl rfl (Nat.le_refl _) ?_
          rintro (hbegun | ⟨other, hother, hband, -⟩)
          · exact .inl (.inl hbegun)
          · cases hother
            exact .inl (hgoing hband)
        · refine .still rfl rfl (Nat.le_refl _) ?_
          rintro (hbegun | ⟨other, hother, hband, -⟩)
          · exact .inl (hgoing (Option.some.inj hbegun))
          · cases hother
            exact .inl (hgoing hband)

/-- An advance over bytes the view shows lets the head leave when it takes the last of them. -/
theorem move_emit (h : s.driver.Tracks spec) {view : View} (hview : s.driver.view = some view)
    {n : Nat} (hn : n ≤ view.remaining) :
    Move s spec (.advance n)
      { s with driver :=
          { s.driver with
            queue := s.driver.queue.advance view n
            view := some { view with
              atBytes := view.atBytes.drop n, remaining := view.remaining - n }
            emitted := s.driver.emitted ++ view.atBytes.take n } }
      (spec.emit view.band n) := by
  have hfree := h.free view hview
  have hremaining := h.remaining view hview
  have hshown := h.shown view hview
  -- a view with bytes left after the advance had bytes before it
  have hview' : ∀ other, (some { view with
      atBytes := view.atBytes.drop n, remaining := view.remaining - n } : Option View) =
        some other → other.band = .bulk → other.atBytes ≠ [] → BulkGoing s.driver spec := by
    rintro _ ⟨⟩ hband hbytes
    refine .inr ⟨view, hview, hband, ?_⟩
    intro hnil
    exact hbytes (by simp [hnil])
  cases hwaiting : spec.waiting view.band with
  | nil =>
      rw [LaneQueue.emit_nil hwaiting]
      refine .still rfl rfl (Nat.le_refl _) ?_
      rintro (hbegun | ⟨other, hother, hband, hbytes⟩)
      · exact .inl (.inl hbegun)
      · exact .inl (hview' other hother hband hbytes)
  | cons frame rest =>
      by_cases hmore : spec.sent + n < frame.length
      · rw [LaneQueue.emit_inside hwaiting hmore]
        refine .still rfl rfl (Nat.le_refl _) ?_
        rintro (hbegun | ⟨other, hother, hband, hbytes⟩)
        · by_cases hzero : n = 0
          · simp only [hzero, if_true] at hbegun
            exact .inl (.inl hbegun)
          · simp only [hzero, if_false, Option.some.injEq] at hbegun
            refine .inl (.inr ⟨view, hview, hbegun, ?_⟩)
            intro hnil
            simp only [hnil, List.length_nil] at hremaining
            omega
        · exact .inl (hview' other hother hband hbytes)
      · -- the view shows all that is left of the head, so the advance took exactly that
        have hinside := h.sound.sent_lt hfree hwaiting
        have hlength : view.atBytes.length = frame.length - spec.sent := by
          rcases hshown with hnil | hshown
          · simp only [hnil, List.length_nil] at hremaining
            omega
          · simp [hshown, hwaiting]
        have hall : n = view.remaining := by omega
        have hpos : 0 < n := by omega
        rw [LaneQueue.emit_complete hwaiting (Nat.le_of_not_lt hmore)]
        refine .left view.band frame rest hwaiting rfl rfl rfl ?_ ?_ ?_
        · intro hband
          refine ⟨n, rfl, ?_⟩
          simp only [Sender.completesPriority, hview, hband, hpos, decide_true, Bool.true_and,
            decide_eq_true_eq]
          exact hall
        · intro hband
          refine .inr ⟨view, hview, hband, ?_⟩
          intro hnil
          simp only [hnil, List.length_nil] at hlength
          omega
        · rintro (hbegun | ⟨other, hother, -, hbytes⟩)
          · cases hbegun
          · cases hother
            exact hbytes (List.drop_eq_nil_iff.2 (by omega))

theorem move_advance (h : s.driver.Tracks spec) (n : Nat) :
    Move s spec (.advance n) (s.step key (.advance n)) (s.shadow key spec (.advance n)) := by
  cases hview : s.driver.view with
  | none =>
      simp only [Sender.step, Sender.shadow, Driver.step, Driver.shadow, hview]
      exact .still rfl rfl (Nat.le_refl _) .inl
  | some view =>
      by_cases hpast : view.remaining < n
      · simp only [Sender.step, Sender.shadow, Driver.step, Driver.shadow, hview, if_pos hpast]
        exact .still rfl rfl (Nat.le_refl _) .inl
      · simp only [Sender.step, Sender.shadow, Driver.step, Driver.shadow, hview, if_neg hpast]
        exact move_emit h hview (Nat.le_of_not_lt hpast)

/-- Every event is one of the three moves. -/
theorem move_step (key : List UInt8) (h : s.driver.Tracks spec) (hroom : s.counter + 1 < 2 ^ 64)
    (event : SendEvent) : Move s spec event (s.step key event) (s.shadow key spec event) := by
  cases event with
  | send type flags body cap => exact move_send hroom type flags body cap
  | peek => exact move_peek h
  | advance n => exact move_advance h n
  | notePreamble => exact move_notePreamble h

/-- The specification follows the sender. -/
theorem tracks_step (h : s.driver.Tracks spec) (event : SendEvent) :
    (s.step key event).driver.Tracks (s.shadow key spec event) := by
  cases event with
  | send type flags body cap =>
      simp only [Sender.step, Sender.shadow]
      split
      · exact h
      · rename_i frame hframe
        exact h.step (.offer frame)
  | peek => exact h.step .peek
  | advance n => exact h.step (.advance n)
  | notePreamble =>
      simp only [Sender.step, Sender.shadow]
      split
      · exact h
      · split
        · exact h
        · exact h.step .notePreamble

end Moves

/-! ## Who can be overtaken -/

/-- The counters of the frames that left, in order. -/
def leftCounters (spec : LaneQueue BandId UInt8) : List Nat :=
  spec.done.map fun item ↦ frameCounter item.2

/-- How the counters of waiting frames lie. Each band waits in order; what left is behind every
waiting priority frame; and the bulk frame the transport is committed to is behind them too. -/
structure Numbered (s : Sender) (spec : LaneQueue BandId UInt8) : Prop where
  waitingBelow : ∀ lane, ∀ frame ∈ spec.waiting lane, frameCounter frame < s.counter
  leftBelow : ∀ counter ∈ leftCounters spec, counter < s.counter
  sorted : ∀ lane, (spec.waiting lane).Pairwise fun first second ↦
    frameCounter first < frameCounter second
  apart : ∀ frame ∈ spec.waiting .priority, ∀ other ∈ spec.waiting .bulk,
    frameCounter frame ≠ frameCounter other
  priorityAhead : ∀ frame ∈ spec.waiting .priority, ∀ counter ∈ leftCounters spec,
    counter < frameCounter frame
  bulkFresh : ∀ frame ∈ spec.waiting .bulk, frameCounter frame ∉ leftCounters spec
  goingBehind : BulkGoing s.driver spec → ∀ frame rest, spec.waiting .bulk = frame :: rest →
    ∀ other ∈ spec.waiting .priority, frameCounter frame < frameCounter other

section Overtaking

variable {s following : Sender} {spec next : LaneQueue BandId UInt8} {event : SendEvent}

/-- A committed bulk band waits for something. -/
theorem BulkGoing.waiting_ne_nil (h : s.driver.Tracks spec) (hgoing : BulkGoing s.driver spec) :
    spec.waiting .bulk ≠ [] := by
  rcases hgoing with hbegun | ⟨view, hview, hband, hbytes⟩
  · exact h.sound.waiting_ne_nil hbegun
  · intro hnil
    rcases h.shown view hview with hnone | hshown
    · exact hbytes hnone
    · rw [hband, hnil] at hshown
      exact hbytes (by simpa using hshown)

/-- Waiting frames of a lane after a frame was taken at the end of another or the same one. -/
theorem mem_waiting_accept {lane other : BandId} {frame queued : List UInt8}
    (hqueued : queued ∈ (spec.accept other frame).waiting lane) :
    queued ∈ spec.waiting lane ∨ (queued = frame ∧ lane = other) := by
  by_cases hsame : lane = other
  · subst hsame
    rw [LaneQueue.accept_waiting_self, List.mem_append, List.mem_singleton] at hqueued
    exact hqueued.imp_right fun h ↦ ⟨h, rfl⟩
  · rw [LaneQueue.accept_waiting_of_ne spec hsame] at hqueued
    exact .inl hqueued

/-- An event that moves no frame keeps the counters in their places. -/
theorem Numbered.still (h : Numbered s spec) (hwaiting : next.waiting = spec.waiting)
    (hdone : next.done = spec.done) (hcounter : s.counter ≤ following.counter)
    (hgoing : BulkGoing following.driver next →
      BulkGoing s.driver spec ∨ spec.waiting .priority = []) : Numbered following next := by
  have hleft : leftCounters next = leftCounters spec := by rw [leftCounters, hdone]; rfl
  refine ⟨?_, ?_, ?_, ?_, ?_, ?_, ?_⟩
  · intro lane frame hframe
    rw [hwaiting] at hframe
    have := h.waitingBelow lane frame hframe
    omega
  · intro counter hmem
    rw [hleft] at hmem
    have := h.leftBelow counter hmem
    omega
  · rw [hwaiting]; exact h.sorted
  · rw [hwaiting]; exact h.apart
  · rw [hwaiting, hleft]; exact h.priorityAhead
  · rw [hwaiting, hleft]; exact h.bulkFresh
  · intro hnext frame rest hframe other hother
    rw [hwaiting] at hframe hother
    rcases hgoing hnext with hbefore | hnone
    · exact h.goingBehind hbefore frame rest hframe other hother
    · rw [hnone] at hother
      cases hother

/-- A frame taken at the end of its band has the highest counter so far. -/
theorem Numbered.took (h : Numbered s spec) (htracks : s.driver.Tracks spec) {frame : List UInt8}
    (hnumber : frameCounter frame = s.counter) (hcounter : following.counter = s.counter + 1)
    (hgoing : BulkGoing following.driver (spec.accept (bandOf frame) frame) →
      BulkGoing s.driver spec) : Numbered following (spec.accept (bandOf frame) frame) := by
  -- the new counter lies above every counter there is
  refine ⟨?_, ?_, ?_, ?_, ?_, ?_, ?_⟩
  · intro lane queued hqueued
    rcases mem_waiting_accept hqueued with hold | ⟨rfl, -⟩
    · have := h.waitingBelow lane queued hold
      omega
    · omega
  · intro counter hmem
    have := h.leftBelow counter hmem
    omega
  · intro lane
    by_cases hsame : lane = bandOf frame
    · rw [hsame, LaneQueue.accept_waiting_self, List.pairwise_append]
      refine ⟨h.sorted _, List.pairwise_singleton _ _, ?_⟩
      intro first hfirst second hsecond
      have := h.waitingBelow _ first hfirst
      rw [List.mem_singleton.1 hsecond]
      omega
    · rw [LaneQueue.accept_waiting_of_ne spec hsame]
      exact h.sorted lane
  · intro first hfirst second hsecond
    rcases mem_waiting_accept hfirst with holdFirst | ⟨rfl, hpriority⟩ <;>
      rcases mem_waiting_accept hsecond with holdSecond | ⟨rfl, hbulk⟩
    · exact h.apart first holdFirst second holdSecond
    · have := h.waitingBelow _ first holdFirst
      omega
    · have := h.waitingBelow _ second holdSecond
      omega
    · rw [← hpriority] at hbulk
      cases hbulk
  · intro queued hqueued counter hmem
    rcases mem_waiting_accept hqueued with hold | ⟨rfl, -⟩
    · exact h.priorityAhead queued hold counter hmem
    · have := h.leftBelow counter hmem
      omega
  · intro queued hqueued hmem
    rcases mem_waiting_accept hqueued with hold | ⟨rfl, -⟩
    · exact h.bulkFresh queued hold hmem
    · have := h.leftBelow _ hmem
      omega
  · intro hnext head rest hhead other hother
    -- bulk under way keeps its head: the frame joined behind it
    have hbefore := hgoing hnext
    obtain ⟨first, tail, hfirst⟩ :=
      List.exists_cons_of_ne_nil (BulkGoing.waiting_ne_nil htracks hbefore)
    have hsame : head = first := by
      by_cases hband : BandId.bulk = bandOf frame
      · rw [← hband, LaneQueue.accept_waiting_self, hfirst] at hhead
        exact (List.cons.inj hhead).1.symm
      · rw [LaneQueue.accept_waiting_of_ne spec hband, hfirst] at hhead
        exact (List.cons.inj hhead).1.symm
    subst hsame
    rcases mem_waiting_accept hother with hold | ⟨rfl, -⟩
    · exact h.goingBehind hbefore head tail hfirst other hold
    · have := h.waitingBelow .bulk head (by simp [hfirst])
      omega

/-- The head of a band leaves: behind a waiting priority frame if it is bulk, because the
transport was committed to it, and in order if it is priority. -/
theorem Numbered.left (h : Numbered s spec) {lane : BandId} {frame : List UInt8}
    {rest : List (List UInt8)} (hwaiting : spec.waiting lane = frame :: rest)
    (hleft : next.waiting = Function.update spec.waiting lane rest)
    (hdone : next.done = spec.done ++ [(lane, frame)])
    (hcounter : following.counter = s.counter)
    (hbulk : lane = .bulk → BulkGoing s.driver spec)
    (hidle : ¬ BulkGoing following.driver next) : Numbered following next := by
  have hcounters : leftCounters next = leftCounters spec ++ [frameCounter frame] := by
    simp [leftCounters, hdone]
  -- every frame that waits after it waited before
  have hstill : ∀ other, ∀ queued ∈ next.waiting other, queued ∈ spec.waiting other := by
    intro other queued hqueued
    rw [hleft] at hqueued
    by_cases hsame : other = lane
    · subst hsame
      rw [Function.update_self] at hqueued
      simp [hwaiting, hqueued]
    · rwa [Function.update_of_ne hsame] at hqueued
  have hsorted := h.sorted lane
  rw [hwaiting, List.pairwise_cons] at hsorted
  have hlater : ∀ queued ∈ next.waiting lane, frameCounter frame < frameCounter queued := by
    intro queued hqueued
    rw [hleft, Function.update_self] at hqueued
    exact hsorted.1 queued hqueued
  have hhead : frame ∈ spec.waiting lane := by simp [hwaiting]
  refine ⟨?_, ?_, ?_, ?_, ?_, ?_, fun hgoing ↦ absurd hgoing hidle⟩
  · intro other queued hqueued
    rw [hcounter]
    exact h.waitingBelow other queued (hstill other queued hqueued)
  · intro counter hmem
    rw [hcounters, List.mem_append, List.mem_singleton] at hmem
    rw [hcounter]
    rcases hmem with hold | rfl
    · exact h.leftBelow counter hold
    · exact h.waitingBelow lane frame hhead
  · intro other
    rw [hleft]
    by_cases hsame : other = lane
    · subst hsame
      rw [Function.update_self]
      exact hsorted.2
    · rw [Function.update_of_ne hsame]
      exact h.sorted other
  · intro first hfirst second hsecond
    exact h.apart first (hstill _ first hfirst) second (hstill _ second hsecond)
  · intro queued hqueued counter hmem
    rw [hcounters, List.mem_append, List.mem_singleton] at hmem
    rcases hmem with hold | rfl
    · exact h.priorityAhead queued (hstill _ queued hqueued) counter hold
    · cases lane with
      | priority => exact hlater queued hqueued
      | bulk => exact h.goingBehind (hbulk rfl) frame rest hwaiting queued (hstill _ queued hqueued)
  · intro queued hqueued hmem
    rw [hcounters, List.mem_append, List.mem_singleton] at hmem
    rcases hmem with hold | hsame
    · exact h.bulkFresh queued (hstill _ queued hqueued) hold
    · cases lane with
      | priority => exact h.apart frame hhead queued (hstill _ queued hqueued) hsame.symm
      | bulk =>
          have := hlater queued hqueued
          omega

/-- Every move keeps the counters in their places. -/
theorem Numbered.move (h : Numbered s spec) (htracks : s.driver.Tracks spec)
    (hmove : Move s spec event following next) : Numbered following next := by
  cases hmove with
  | still hwaiting hdone hcounter hgoing => exact h.still hwaiting hdone hcounter hgoing
  | took frame hnext hnumber hcounter hgoing =>
      subst hnext
      exact h.took htracks hnumber hcounter hgoing
  | left lane frame rest hwaiting hleft hdone hcounter hpriority hbulk hidle =>
      exact h.left hwaiting hleft hdone hcounter hbulk hidle

/-- What left was admitted in its order, and no waiting bulk frame is out of reach. -/
structure Inside (spec : LaneQueue BandId UInt8) : Prop where
  admitted : AllAdmitted authWindow (leftCounters spec)
  reach : ∀ frame ∈ spec.waiting .bulk, ∀ counter ∈ leftCounters spec,
    counter < frameCounter frame + authWindow

/-- The head of a band that waits for something. -/
theorem head_of_waiting (h : Refines s.driver.queue spec) {id : BandId} {frame : List UInt8}
    {rest : List (List UInt8)} (hwaiting : spec.waiting id = frame :: rest) :
    0 < (s.driver.queue.band id).len ∧ (s.driver.queue.band id).head = frame := by
  have hheld : 0 < (s.driver.queue.band id).len := by
    apply Nat.pos_of_ne_zero
    intro hzero
    rw [h.waiting_nil _ hzero] at hwaiting
    cases hwaiting
  rw [h.waiting_cons _ hheld] at hwaiting
  exact ⟨hheld, (List.cons.inj hwaiting).1⟩

/-- Within the bound, every move keeps the window ahead of the waiting bulk frames. -/
theorem Inside.move (h : Inside spec) (hnumbered : Numbered s spec)
    (htracks : s.driver.Tracks spec) (hbounded : s.Bounded event)
    (hmove : Move s spec event following next) : Inside next := by
  cases hmove with
  | still hwaiting hdone hcounter hgoing =>
      have hleft : leftCounters next = leftCounters spec := by rw [leftCounters, hdone]; rfl
      exact ⟨hleft ▸ h.admitted, by rw [hleft, hwaiting]; exact h.reach⟩
  | took frame hnext hnumber hcounter hgoing =>
      subst hnext
      refine ⟨h.admitted, ?_⟩
      intro queued hqueued counter hmem
      rcases mem_waiting_accept hqueued with hold | ⟨rfl, -⟩
      · exact h.reach queued hold counter hmem
      · have := hnumbered.leftBelow counter hmem
        omega
  | left lane frame rest hwaiting hleft hdone hcounter hpriority hbulk hidle =>
      have hcounters : leftCounters next = leftCounters spec ++ [frameCounter frame] := by
        simp [leftCounters, hdone]
      have hsorted : ∀ other head tail, spec.waiting other = head :: tail →
          ∀ queued ∈ spec.waiting other, frameCounter head ≤ frameCounter queued := by
        intro other head tail hhead queued hqueued
        have hpair := hnumbered.sorted other
        rw [hhead, List.pairwise_cons] at hpair
        rw [hhead, List.mem_cons] at hqueued
        rcases hqueued with rfl | htail
        · exact Nat.le_refl _
        · exact Nat.le_of_lt (hpair.1 queued htail)
      have hhead : frame ∈ spec.waiting lane := by simp [hwaiting]
      have hadmits : Admits authWindow (leftCounters spec) (frameCounter frame) := by
        cases lane with
        | priority =>
            -- a priority frame is ahead of everything that left, so the window takes it
            have hahead := hnumbered.priorityAhead frame hhead
            refine ⟨fun hmem ↦ Nat.lt_irrefl _ (hahead _ hmem), ?_⟩
            intro counter hmem
            have := hahead counter hmem
            omega
        | bulk => exact ⟨hnumbered.bulkFresh frame hhead, h.reach frame hhead⟩
      refine ⟨?_, ?_⟩
      · rw [hcounters]
        exact eachAfter_snoc.2 ⟨h.admitted, hadmits⟩
      · intro queued hqueued counter hmem
        rw [hcounters, List.mem_append, List.mem_singleton] at hmem
        cases lane with
        | priority =>
            have hold : queued ∈ spec.waiting .bulk := by
              rwa [hleft, Function.update_of_ne (by simp)] at hqueued
            rcases hmem with hmem | rfl
            · exact h.reach queued hold counter hmem
            · -- this is the move the bound is about: the frame leaves while bulk waits
              obtain ⟨n, rfl, hcompletes⟩ := hpriority rfl
              obtain ⟨oldest, others, hbulkHead⟩ :=
                List.exists_cons_of_ne_nil (List.ne_nil_of_mem hold)
              obtain ⟨hheld, holdest⟩ := head_of_waiting htracks.refines hbulkHead
              obtain ⟨-, hfirst⟩ := head_of_waiting htracks.refines hwaiting
              have hbound := hbounded hcompletes hheld
              simp only [band] at hfirst holdest
              rw [hfirst, holdest] at hbound
              have := hsorted .bulk oldest others hbulkHead queued hold
              omega
        | bulk =>
            have hold : queued ∈ spec.waiting .bulk := by
              rw [hleft, Function.update_self] at hqueued
              simp [hwaiting, hqueued]
            rcases hmem with hmem | rfl
            · exact h.reach queued hold counter hmem
            · have := hsorted .bulk frame rest hwaiting queued hold
              simp only [authWindow]
              omega

/-- A waiting frame is out of reach, or one that left was. -/
def Overtaken (spec : LaneQueue BandId UInt8) : Prop :=
  (∃ lane, ∃ frame ∈ spec.waiting lane, ∃ counter ∈ leftCounters spec,
    frameCounter frame + authWindow ≤ counter) ∨
  ¬ AllAdmitted authWindow (leftCounters spec)

/-- What was overtaken too far stays so. -/
theorem Overtaken.move (h : Overtaken spec) (hmove : Move s spec event following next) :
    Overtaken next := by
  cases hmove with
  | still hwaiting hdone hcounter hgoing =>
      have hleft : leftCounters next = leftCounters spec := by rw [leftCounters, hdone]; rfl
      rw [Overtaken, hleft, hwaiting]
      exact h
  | took frame hnext hnumber hcounter hgoing =>
      subst hnext
      rcases h with ⟨lane, queued, hqueued, hfar⟩ | hrefused
      · refine .inl ⟨lane, queued, ?_, hfar⟩
        by_cases hsame : lane = bandOf frame
        · rw [hsame, LaneQueue.accept_waiting_self]
          exact List.mem_append_left _ (hsame ▸ hqueued)
        · rwa [LaneQueue.accept_waiting_of_ne spec hsame]
      · exact .inr hrefused
  | left lane frame rest hwaiting hleft hdone hcounter hpriority hbulk hidle =>
      have hcounters : leftCounters next = leftCounters spec ++ [frameCounter frame] := by
        simp [leftCounters, hdone]
      rw [Overtaken, hcounters]
      rcases h with ⟨other, queued, hqueued, counter, hmem, hfar⟩ | hrefused
      · by_cases hsame : other = lane ∧ queued = frame
        · obtain ⟨-, rfl⟩ := hsame
          refine .inr fun hall ↦ ?_
          have hadmits := (eachAfter_snoc.1 hall).2
          have := hadmits.2 counter hmem
          omega
        · refine .inl ⟨other, queued, ?_, counter, List.mem_append_left _ hmem, hfar⟩
          rw [hleft]
          by_cases hlane : other = lane
          · subst hlane
            rw [hwaiting, List.mem_cons] at hqueued
            rw [Function.update_self]
            exact hqueued.resolve_left fun heq ↦ hsame ⟨rfl, heq⟩
          · rwa [Function.update_of_ne hlane]
      · exact .inr fun hall ↦ hrefused (eachAfter_snoc.1 hall).1

end Overtaking

/-! ## Whole runs -/

section Runs

variable {key : List UInt8} {s : Sender} {spec : LaneQueue BandId UInt8}

/-- A priority frame that leaves beyond the bound overtakes the oldest waiting bulk frame too
far. -/
theorem overtaken_of_not_bounded (h : s.driver.Tracks spec) {event : SendEvent}
    (hfar : ¬ s.Bounded event) : Overtaken (s.shadow key spec event) := by
  cases event with
  | send type flags body cap => exact absurd trivial hfar
  | peek => exact absurd trivial hfar
  | notePreamble => exact absurd trivial hfar
  | advance n =>
      simp only [Sender.Bounded, not_forall, Nat.not_lt] at hfar
      obtain ⟨hcompletes, hheld, hfar⟩ := hfar
      cases hview : s.driver.view with
      | none => simp [Sender.completesPriority, hview] at hcompletes
      | some view =>
          simp only [Sender.completesPriority, hview, Bool.and_eq_true, decide_eq_true_eq]
            at hcompletes
          obtain ⟨⟨hband, hpos⟩, hall⟩ := hcompletes
          have hremaining := h.remaining view hview
          have hshown : view.atBytes =
              ((spec.waiting .priority).headD []).drop spec.sent := by
            rcases h.shown view hview with hnil | hshown
            · rw [hnil, List.length_nil] at hremaining
              omega
            · rw [hshown, hband]
          cases hwaiting : spec.waiting .priority with
          | nil =>
              rw [hwaiting] at hshown
              simp only [hshown, List.headD_nil, List.drop_nil, List.length_nil] at hremaining
              omega
          | cons frame rest =>
              obtain ⟨-, hfirst⟩ := head_of_waiting h.refines hwaiting
              have hlength : view.atBytes.length = frame.length - spec.sent := by
                simp [hshown, hwaiting]
              have hbulk := h.refines.waiting_cons .bulk hheld
              have hstep : s.shadow key spec (.advance n) = spec.emit .priority n := by
                simp only [Sender.shadow, Driver.shadow, hview, hband]
                rw [if_neg (by omega)]
              rw [hstep, LaneQueue.emit_complete hwaiting (by omega)]
              refine .inl ⟨.bulk, s.driver.queue.bulk.head, ?_, frameCounter frame, ?_, ?_⟩
              · have hother : Function.update spec.waiting .priority rest .bulk =
                    spec.waiting .bulk := Function.update_of_ne (by simp) _ _
                simp only [hother, hbulk]
                exact List.mem_cons_self
              · simp [leftCounters]
              · rw [← hfirst]
                exact hfar

/-- A frame of this session: built under its key with a counter that fits. -/
def BuiltFrame (key frame : List UInt8) : Prop :=
  IsFrame frame ∧ ∃ type flags counter body, counter < 2 ^ 64 ∧
    frame = (builtView type flags key counter body).bytes

/-- What holds of the sender in every run whose counter does not wrap. -/
structure Accounts (key : List UInt8) (s : Sender) (spec : LaneQueue BandId UInt8) : Prop where
  tracks : s.driver.Tracks spec
  numbered : Numbered s spec
  built : ∀ frame ∈ s.driver.accepted, BuiltFrame key frame

theorem accounts_start (key : List UInt8) (q : Outq) :
    Accounts key (Sender.start q) LaneQueue.empty where
  tracks := Driver.tracks_start q
  built _ h := by cases h
  numbered :=
    { waitingBelow := fun _ _ h ↦ by cases h
      leftBelow := fun _ h ↦ by cases h
      sorted := fun _ ↦ List.Pairwise.nil
      apart := fun _ h ↦ by cases h
      priorityAhead := fun _ h ↦ by cases h
      bulkFresh := fun _ h ↦ by cases h
      goingBehind := fun _ _ _ h ↦ by cases h }

theorem built_step (h : Accounts key s spec) (hroom : s.counter + 1 < 2 ^ 64)
    (event : SendEvent) : ∀ frame ∈ (s.step key event).driver.accepted, BuiltFrame key frame := by
  cases event with
  | send type flags body cap =>
      simp only [Sender.step]
      split
      · exact h.built
      · rename_i frame hframe
        intro other hother
        simp only [Driver.step] at hother
        split at hother
        · rename_i hok
          rcases List.mem_append.1 hother with hold | hnew
          · exact h.built other hold
          · rw [List.mem_singleton.1 hnew]
            rcases h.tracks.refines.offer frame with ⟨-, hwhole, -⟩ | ⟨hrefused, -⟩
            · exact ⟨hwhole, type, flags, s.counter, body, by omega, (frame_ok hframe).1⟩
            · exact absurd hok hrefused
        · exact h.built other hother
  | peek => exact h.built
  | advance n =>
      simp only [Sender.step, Driver.step]
      split
      · exact h.built
      · split <;> exact h.built
  | notePreamble =>
      simp only [Sender.step]
      split
      · exact h.built
      · split
        · exact h.built
        · simp only [Driver.step]
          split <;> exact h.built

theorem Accounts.step (h : Accounts key s spec) (hroom : s.counter + 1 < 2 ^ 64)
    (event : SendEvent) : Accounts key (s.step key event) (s.shadow key spec event) where
  tracks := tracks_step h.tracks event
  numbered := h.numbered.move h.tracks (move_step key h.tracks hroom event)
  built := built_step h hroom event

/-- A run shorter than the counter space never wraps the counter. -/
theorem along_room (key : List UInt8) (s : Sender) (events : List SendEvent)
    (h : s.counter + events.length < 2 ^ 64) :
    Along (Sender.step key) (fun s _ ↦ s.counter + 1 < 2 ^ 64) s events := by
  induction events generalizing s with
  | nil => trivial
  | cons event rest ih =>
      simp only [List.length_cons] at h
      refine ⟨by omega, ih _ ?_⟩
      have hstep : (s.step key event).counter ≤ s.counter + 1 := by
        cases event with
        | send type flags body cap =>
            simp only [Sender.step]
            split
            · omega
            · exact Nat.mod_le _ _
        | peek => exact Nat.le_succ _
        | advance n => exact Nat.le_succ _
        | notePreamble =>
            simp only [Sender.step]
            split
            · exact Nat.le_succ _
            · split <;> exact Nat.le_succ _
      omega

/-- Every run ends either inside the window, if all its steps are bounded, or with a frame
overtaken too far. -/
theorem run_inside_or_overtaken {events : List SendEvent} (haccounts : Accounts key s spec)
    (hroom : Along (Sender.step key) (fun s _ ↦ s.counter + 1 < 2 ^ 64) s events) :
    (Inside spec → Along (Sender.step key) Sender.Bounded s events →
      ∃ final, Accounts key (run (Sender.step key) s events) final ∧ Inside final) ∧
    (Overtaken spec ∨ ¬ Along (Sender.step key) Sender.Bounded s events →
      ∃ final, Accounts key (run (Sender.step key) s events) final ∧ Overtaken final) := by
  induction events generalizing s spec with
  | nil =>
      refine ⟨fun h _ ↦ ⟨spec, haccounts, h⟩, ?_⟩
      rintro (h | h)
      · exact ⟨spec, haccounts, h⟩
      · exact absurd trivial h
  | cons event rest ih =>
      have hnext := haccounts.step hroom.1 event
      have hmove := move_step key haccounts.tracks hroom.1 event
      obtain ⟨hinside, hovertaken⟩ := ih hnext hroom.2
      refine ⟨?_, ?_⟩
      · intro h hbounded
        exact hinside (h.move haccounts.numbered haccounts.tracks hbounded.1 hmove) hbounded.2
      · rintro (h | h)
        · exact hovertaken (.inl (h.move hmove))
        · by_cases hfirst : s.Bounded event
          · exact hovertaken (.inr fun hrest ↦ h ⟨hfirst, hrest⟩)
          · exact hovertaken (.inl (overtaken_of_not_bounded haccounts.tracks hfirst))

/-- What a receiver reads from a drained queue: the frames that left, in order. -/
theorem Accounts.delivered (h : Accounts key s spec) (hdrained : s.driver.queue.peek = none) :
    (decodeStream s.driver.emitted).map FrameView.bytes = spec.done.map Prod.snd ∧
    (spec.done.map Prod.snd).Perm s.driver.accepted ∧ ∀ lane, spec.waiting lane = [] := by
  have hnone : s.driver.queue.owedBand = none := by simpa [Outq.peek] using hdrained
  have hempty := h.tracks.refines.owedBand.2 hnone
  have hwaiting : ∀ lane, spec.waiting lane = [] := fun lane ↦
    h.tracks.refines.waiting_nil lane (hempty lane)
  have hperm : (spec.done.map Prod.snd).Perm s.driver.accepted := by
    apply List.perm_iff_count.2
    intro frame
    have hsame := h.tracks.filter_bandOf .priority (bandOf frame)
    have hrest : spec.backlog (Driver.lanesFrom .priority) = [] :=
      h.tracks.backlog_nil hdrained _
    rw [hrest, List.map_nil, List.append_nil] at hsame
    have hcount := congrArg (List.count frame) hsame
    rwa [List.count_filter (by simp), List.count_filter (by simp)] at hcount
  have hpart : spec.part = [] := by
    unfold LaneQueue.part
    split
    · rfl
    · rename_i lane _
      simp [hwaiting lane]
  have hemitted : s.driver.emitted = (spec.done.map Prod.snd).flatten := by
    rw [← h.tracks.emitted, h.tracks.sound.stream, hpart, List.append_nil]
    rfl
  refine ⟨?_, hperm, hwaiting⟩
  rw [hemitted]
  apply decodeStream_flatten
  intro frame hframe
  exact (h.built frame (hperm.subset hframe)).1

/-- The frames a receiver reads are this session's, so their tags verify, and their counters are
those of the frames that left. -/
theorem Accounts.delivered_views (h : Accounts key s spec)
    (hdrained : s.driver.queue.peek = none) :
    (∀ view ∈ decodeStream s.driver.emitted, TagVerifies key view) ∧
    (decodeStream s.driver.emitted).map counterOf = leftCounters spec := by
  obtain ⟨hbytes, hperm, -⟩ := h.delivered hdrained
  refine ⟨?_, ?_⟩
  · intro view hview
    have hmem : view.bytes ∈ s.driver.accepted := by
      apply hperm.subset
      rw [← hbytes]
      exact List.mem_map_of_mem hview
    obtain ⟨-, type, flags, counter, body, hcounter, hsame⟩ := h.built _ hmem
    rw [FrameView.bytes_injective hsame]
    exact builtView_tag_verifies type flags key counter body hcounter
  · have hcounter : ∀ view : FrameView, counterOf view = frameCounter view.bytes := by
      intro view
      have hdrop : view.bytes.drop headerSize = view.payload := by
        rw [FrameView.bytes]
        exact List.drop_left' (by simp)
      rw [frameCounter, hdrop, counterOf]
    calc (decodeStream s.driver.emitted).map counterOf
        = ((decodeStream s.driver.emitted).map FrameView.bytes).map frameCounter := by
          simp [hcounter, Function.comp_def]
      _ = leftCounters spec := by
          rw [hbytes]
          simp [leftCounters, Function.comp_def]

/-- When the receiver's window takes everything a drained queue let out. The frames that left are
the accepted ones; all of them are opened in that order exactly when no priority frame left, while
bulk waited, with a counter a full window or more above the oldest waiting bulk frame's. -/
theorem drained_opens_iff_bounded (key : List UInt8) (q : Outq) (events : List SendEvent)
    (hlength : events.length < 2 ^ 64)
    (hdrained : (run (Sender.step key) (Sender.start q) events).driver.queue.peek = none) :
    ((decodeStream (run (Sender.step key) (Sender.start q) events).driver.emitted).map
      FrameView.bytes).Perm (run (Sender.step key) (Sender.start q) events).driver.accepted ∧
    (AllOpen key
        (decodeStream (run (Sender.step key) (Sender.start q) events).driver.emitted) ↔
      Along (Sender.step key) Sender.Bounded (Sender.start q) events) := by
  have hstart := accounts_start key q
  have hroom := along_room key (Sender.start q) events (by simpa [Sender.start] using hlength)
  have hinit : Inside (LaneQueue.empty : LaneQueue BandId UInt8) :=
    ⟨eachAfter_nil, fun _ h ↦ by cases h⟩
  obtain ⟨hinside, hovertaken⟩ := run_inside_or_overtaken hstart hroom
  by_cases hbounded : Along (Sender.step key) Sender.Bounded (Sender.start q) events
  · obtain ⟨final, haccounts, hfinal⟩ := hinside hinit hbounded
    obtain ⟨hbytes, hperm, -⟩ := haccounts.delivered hdrained
    obtain ⟨htags, hcounters⟩ := haccounts.delivered_views hdrained
    refine ⟨hbytes ▸ hperm, ?_⟩
    rw [allOpen_iff htags, hcounters]
    exact iff_of_true hfinal.admitted hbounded
  · obtain ⟨final, haccounts, hfinal⟩ := hovertaken (.inr hbounded)
    obtain ⟨hbytes, hperm, hwaiting⟩ := haccounts.delivered hdrained
    obtain ⟨htags, hcounters⟩ := haccounts.delivered_views hdrained
    refine ⟨hbytes ▸ hperm, ?_⟩
    rw [allOpen_iff htags, hcounters]
    refine iff_of_false ?_ hbounded
    rcases hfinal with ⟨lane, frame, hframe, -⟩ | hrefused
    · rw [hwaiting lane] at hframe
      cases hframe
    · exact hrefused

/-- A bulk frame, and priority frames that are built and drained one by one ahead of it. -/
def overtakingRun (count : Nat) : List SendEvent :=
  [.send Msg.clipOffer 0 [] maxFrame] ++
    (List.replicate count [.send Msg.heartbeat 0 [] maxFrame, .peek, .advance 28]).flatten ++
    [.peek, .advance 28]

/-- A session key of zeros. -/
def zeroKey : List UInt8 := List.replicate sessionKeySize 0

/-- Two priority frames overtake a queued bulk frame and all three are taken. -/
theorem drained_opens_two_overtaking :
    AllOpen zeroKey (decodeStream
      (run (Sender.step zeroKey) (Sender.start Outq.init) (overtakingRun 2)).driver.emitted) :=
  (drained_opens_iff_bounded zeroKey Outq.init (overtakingRun 2) (by decide)
    (by decide)).2.2 (by decide)

theorem run_accounts (key : List UInt8) (q : Outq) (events : List SendEvent)
    (hlength : events.length < 2 ^ 64) :
    ∃ spec, Accounts key (run (Sender.step key) (Sender.start q) events) spec :=
  run_invariant_along (fun s ↦ ∃ spec, Accounts key s spec) ⟨_, accounts_start key q⟩
    (fun _ event ⟨_, h⟩ hroom ↦ ⟨_, h.step hroom event⟩)
    (along_room key (Sender.start q) events (by simpa [Sender.start] using hlength))

/-- Sixty-four overtake it and it is lost: the queue accepted the bulk frame and delivered it, and
the receiver refuses its counter. -/
theorem overtaken_bulk_refused :
    (run (Sender.step zeroKey) (Sender.start Outq.init) (overtakingRun 64)).driver.queue.peek =
      none ∧
    ∃ before view after,
      decodeStream
          (run (Sender.step zeroKey) (Sender.start Outq.init) (overtakingRun 64)).driver.emitted =
        before ++ view :: after ∧
      ¬ Opens zeroKey (receive zeroKey AuthCounter.init before) view := by
  have hdrained : (run (Sender.step zeroKey) (Sender.start Outq.init)
      (overtakingRun 64)).driver.queue.peek = none := by decide +kernel
  refine ⟨hdrained, ?_⟩
  obtain ⟨spec, haccounts⟩ := run_accounts zeroKey Outq.init (overtakingRun 64)
    (by decide +kernel)
  obtain ⟨htags, -⟩ := haccounts.delivered_views hdrained
  have hcounters : (decodeStream (run (Sender.step zeroKey) (Sender.start Outq.init)
      (overtakingRun 64)).driver.emitted).map counterOf =
        (List.range 64).map (· + 1) ++ [0] := by decide +kernel
  have hrefused : ¬ AllAdmitted authWindow ((List.range 64).map (· + 1) ++ [0]) := by
    intro hall
    exact absurd (eachAfter_snoc.1 hall).2 (by decide)
  rw [← hcounters, ← allOpen_iff htags, AllOpen, EachAfter] at hrefused
  simpa only [not_forall, exists_prop] using hrefused

end Runs

end DeskhopPlus.Outq
