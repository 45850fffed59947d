import DeskhopPlus.Board.Session
import DeskhopPlus.Library.Clock
import DeskhopPlus.Library.Runs

/-!
# When a silent helper is given up

The session stamps the frames that prove its helper alive, and a tick ends it when the last stamp
is too old. The stamps and the ticks are read from a counter that wraps, and a stamp may be ahead of
the clock a tick was handed. `Observed` runs the session beside the true time: `life` holds the
times of the frames that carried the tag and a fresh counter, and of the hellos that proved
themselves. `liveness_exact` says that every tick judges by these times and by nothing else.
-/

namespace DeskhopPlus.Board

open Wire Auth Crypto Runs Clock

/-- A call on the session layer. The registration a frame is judged by comes with it. -/
inductive SessionCall where
  | onFrame (pair : Pair) (view : FrameView) (cap : Nat)
  | authenticate (view : FrameView)
  | tick (cap : Nat)
  | finish (reason : EndReason) (silentMs : UInt32) (cap : Nat)
  | drop
  | stageNonce (nonce : List UInt8)
  | noteSent
  | noteOwedSent (type : UInt8)
  | setClipPolicy (clipFlags capMb : UInt8)
  | setDrops (drops : DeviceDrops)
  | emitRelayed (view : FrameView) (cap : Nat)
  deriving DecidableEq, Repr

namespace Session

/-- The session after a call. -/
def call (curve : P256) (s : Session) (now : UInt32) : SessionCall → Session
  | .onFrame pair view cap => (s.onFrame curve pair view now cap).2.1
  | .authenticate view => (s.authenticate view now).2
  | .tick cap => (s.tick now cap).2
  | .finish reason silentMs cap => (s.finish reason silentMs cap).2
  | .drop => s.drop
  | .stageNonce nonce => s.stageNonce nonce
  | .noteSent => s.noteSent now
  | .noteOwedSent type => s.noteOwedSent type
  | .setClipPolicy clipFlags capMb => s.setClipPolicy clipFlags capMb
  | .setDrops drops => s.setDrops drops
  | .emitRelayed view cap => (s.emitRelayed view cap).2

/-- The frame carries the tag of the session and a counter it has not taken. -/
def opens (s : Session) (view : FrameView) : Bool :=
  s.present && decide (TagVerifies s.kH2b view) && s.rx.ok (counterOf view)

/-- The frame is a hello of the registered helper under the tag of its own nonce. -/
def provesHello (pair : Pair) (view : FrameView) : Bool :=
  match readHello view with
  | none => false
  | some hello =>
      decide (hello.protoVersion = protoVersion) && pair.isRegisteredKey hello.helperKeyId &&
        decide (TagVerifies (deriveHelloKey pair.sharedSecret hello.helperNonce) view)

/-- The call brings a frame that proves the helper alive. -/
def hears (s : Session) : SessionCall → Bool
  | .onFrame pair view _ =>
      if view.type = Msg.hello then s.nonceStaged && provesHello pair view
      else if view.type = Msg.heartbeat ∨ view.type = Msg.posResponse then s.opens view
      else false
  | .authenticate view => s.opens view
  | _ => false

end Session

/-- A call at the time it is made. -/
structure TimedCall where
  time : Nat
  call : SessionCall
  deriving DecidableEq, Repr

/-- A session beside the true time: the clock of the last tick, the stamp of the last frame, and the
stamps of the frames that proved the helper alive. -/
structure Observed where
  session : Session
  lastTick : Nat
  lastFrame : Nat
  life : List Nat

/-- The call judges the helper absent or not. -/
def SessionCall.isTick : SessionCall → Bool
  | .tick _ => true
  | _ => false

/-- The call brings a frame. -/
def SessionCall.isFrame : SessionCall → Bool
  | .onFrame .. => true
  | .authenticate _ => true
  | _ => false

namespace Observed

/-- The session after a call at its time. -/
def step (curve : P256) (o : Observed) (c : TimedCall) : Observed where
  session := o.session.call curve (reading c.time) c.call
  lastTick := if c.call.isTick then c.time else o.lastTick
  lastFrame := if c.call.isFrame then c.time else o.lastFrame
  life := if o.session.hears c.call then o.life ++ [c.time] else o.life

/-- The session of a run is that of its calls. -/
theorem run_session (curve : P256) (o : Observed) (calls : List TimedCall) :
    (run (step curve) o calls).session =
      calls.foldl (fun s c ↦ s.call curve (reading c.time) c.call) o.session := by
  induction calls generalizing o with
  | nil => rfl
  | cons c rest ih => exact ih (o.step curve c)

/-- A session that has just started. -/
def start (buildType : BuildType) (boot : Nat) : Observed where
  session := Session.init buildType
  lastTick := boot
  lastFrame := boot
  life := []

/-- Ticks come in order and less than `2 ^ 31 - 3000` ms apart. Frames are stamped in order, not
before the tick that ran before them, and may be ahead of the clock of the tick that runs after
them. -/
def OnTime (o : Observed) (c : TimedCall) : Prop :=
  (c.call.isTick = true → o.lastTick ≤ c.time ∧
      c.time + absentMs.toNat < o.lastTick + 2 ^ 31 ∧ o.lastFrame < c.time + 2 ^ 31) ∧
    (c.call.isFrame = true → o.lastTick ≤ c.time ∧ o.lastFrame ≤ c.time)

instance (o : Observed) (c : TimedCall) : Decidable (o.OnTime c) :=
  inferInstanceAs (Decidable (_ ∧ _))

end Observed

/-! ## What a call does to the deadline -/

namespace Session

/-- The session is there, and was last heard at a reading. -/
structure HeardAt (s : Session) (now : UInt32) : Prop where
  present : s.present = true
  lastSeen : s.lastSeenMs = now

/-- The deadline stays, or goes with the session. -/
def Waits (s s' : Session) : Prop :=
  s'.present = false ∨ (s'.present = s.present ∧ s'.lastSeenMs = s.lastSeenMs)

theorem waits_refl (s : Session) : Waits s s := .inr ⟨rfl, rfl⟩

theorem waits_of_sameButRefusals {s s' : Session} (h : SameButRefusals s s') : Waits s s' := by
  rw [h]
  exact .inr ⟨rfl, rfl⟩

/-- The opening of a frame, as `dh_auth_open` decides it. -/
theorem opens_eq (s : Session) (view : FrameView) :
    s.opens view = true ↔ s.present = true ∧ Opens s.kH2b s.rx view := by
  rw [opens_iff_ok]
  simp [opens, and_assoc]

theorem authenticate_heard {s : Session} (hrelease : s.buildType = .release) {view : FrameView}
    (hopens : s.opens view = true) (now : UInt32) : HeardAt (s.authenticate view now).2 now := by
  obtain ⟨hpresent, body, hbody⟩ := (opens_eq s view).1 hopens
  have hchecks : s.skipsAuthentication = false := by simp [skipsAuthentication, hrelease]
  have hlong : ¬ view.payload.length < authPrefixSize := by
    intro hshort
    simp [authOpen, hshort] at hbody
  unfold authenticate
  rw [if_neg (by simp [hpresent]), if_neg hlong, hchecks]
  cases hresult : authOpen s.kH2b view s.rx with
  | mk result rx =>
      rw [hresult] at hbody
      cases hbody
      simp only [Bool.false_eq_true, if_false]
      rw [noteReceived, if_neg (by simp [hpresent])]
      exact ⟨hpresent, rfl⟩

theorem authenticate_waits {s : Session} (hrelease : s.buildType = .release) {view : FrameView}
    (hopens : s.opens view = false) (now : UInt32) : Waits s (s.authenticate view now).2 := by
  rcases authenticate_cases hrelease view now with ⟨hpresent, hopen, -, -⟩ | ⟨-, -, hsame⟩
  · have htrue := (opens_eq s view).2 ⟨hpresent, hopen⟩
    rw [hopens] at htrue
    cases htrue
  · exact waits_of_sameButRefusals hsame

/-- A hello that proves itself, as `answer_hello` judges it. -/
theorem provesHello_iff {s : Session} (hrelease : s.buildType = .release) (pair : Pair)
    (view : FrameView) :
    provesHello pair view = true ↔
      ∃ hello secret, s.helloVerdict pair view = .proved hello secret := by
  constructor
  · intro h
    unfold provesHello at h
    cases hread : readHello view with
    | none =>
        rw [hread] at h
        cases h
    | some hello =>
        rw [hread] at h
        simp only [Bool.and_eq_true, decide_eq_true_eq] at h
        obtain ⟨⟨hversion, hknown⟩, htag⟩ := h
        refine ⟨hello, pair.sharedSecret, (helloVerdict_proved_iff hrelease).2 ?_⟩
        exact ⟨⟨hello, hread, hversion, hknown⟩, hread, Pair.secret_of_registeredKey hknown, htag⟩
  · rintro ⟨hello, secret, hproved⟩
    obtain ⟨⟨hello', hread', hversion, hknown⟩, hread, hsecret, htag⟩ :=
      (helloVerdict_proved_iff hrelease).1 hproved
    cases hread.symm.trans hread'
    cases hsecret.symm.trans (Pair.secret_of_registeredKey hknown)
    simp [provesHello, hread, hversion, hknown, htag]

theorem startSession_heard (s : Session) (hello : Hello) (secret : List UInt8) (now : UInt32)
    (cap : Nat) : HeardAt (s.startSession hello secret now cap).2 now := by
  unfold startSession
  simp only
  split <;> exact ⟨rfl, rfl⟩

theorem answerHello_heard {s : Session} (hrelease : s.buildType = .release) {pair : Pair}
    {view : FrameView} (hstaged : s.nonceStaged = true) (hproves : provesHello pair view = true)
    (now : UInt32) (cap : Nat) : HeardAt (s.answerHello pair view now cap).2 now := by
  obtain ⟨hello, secret, hproved⟩ := (provesHello_iff hrelease pair view).1 hproves
  rw [answerHello, hproved]
  simp only
  rw [if_neg (by simp [hstaged])]
  exact startSession_heard ..

theorem answerHello_waits {s : Session} (hrelease : s.buildType = .release) {pair : Pair}
    {view : FrameView} (hnot : (s.nonceStaged && provesHello pair view) = false) (now : UInt32)
    (cap : Nat) : Waits s (s.answerHello pair view now cap).2 := by
  unfold answerHello
  cases hverdict : s.helloVerdict pair view with
  | refused correlation status => exact waits_refl s
  | silent => exact waits_of_sameButRefusals (sameButRefusals_noteRefused s now true)
  | proved hello secret =>
      have hproves := (provesHello_iff hrelease pair view).2 ⟨hello, secret, hverdict⟩
      rw [hproves, Bool.and_true] at hnot
      simp only
      rw [if_pos hnot]
      exact waits_refl s

/-- A frame that proves the helper alive is the last one heard. -/
theorem call_heard {curve : P256} {s : Session} (hrelease : s.buildType = .release)
    {c : SessionCall} (h : s.hears c = true) (now : UInt32) : HeardAt (s.call curve now c) now := by
  cases c with
  | onFrame pair view cap =>
      simp only [hears] at h
      show HeardAt (s.onFrame curve pair view now cap).2.1 now
      unfold onFrame
      split
      · rename_i htype
        rw [if_pos htype, Bool.and_eq_true] at h
        exact answerHello_heard hrelease h.1 h.2 now cap
      · rename_i htype
        rw [if_neg htype] at h
        split at h
        · rename_i hsession
          have hpair : view.type ≠ Msg.pairRequest := by
            rcases hsession with heq | heq <;> rw [heq] <;> decide
          rw [if_neg hpair, if_pos hsession]
          exact authenticate_heard hrelease h now
        · cases h
  | authenticate view => exact authenticate_heard hrelease h now
  | tick | finish | drop | stageNonce | noteSent | noteOwedSent | setClipPolicy | setDrops
  | emitRelayed => cases h

/-- No other call but a tick touches the deadline of a session it leaves in place. -/
theorem call_waits {curve : P256} {s : Session} (hrelease : s.buildType = .release)
    {c : SessionCall} (h : s.hears c = false) (htick : c.isTick = false) (now : UInt32) :
    Waits s (s.call curve now c) := by
  cases c with
  | onFrame pair view cap =>
      simp only [hears] at h
      show Waits s (s.onFrame curve pair view now cap).2.1
      unfold onFrame
      split
      · rename_i htype
        rw [if_pos htype] at h
        -- a hello that is refused starts no session
        exact answerHello_waits hrelease h now cap
      · rename_i htype
        rw [if_neg htype] at h
        split
        · exact waits_refl s
        · split
          · rename_i hsession
            rw [if_pos hsession] at h
            exact authenticate_waits hrelease h now
          · exact waits_refl s
  | authenticate view => exact authenticate_waits hrelease h now
  | tick cap => cases htick
  | finish reason silentMs cap =>
      show Waits s (s.finish reason silentMs cap).2
      unfold finish
      split
      · exact waits_refl s
      · exact .inl rfl
  | drop => exact .inl rfl
  | stageNonce nonce => exact waits_refl s
  | noteSent => exact waits_refl s
  | noteOwedSent type =>
      show Waits s (s.noteOwedSent type)
      unfold noteOwedSent
      split <;> split <;> split <;> exact waits_refl s
  | setClipPolicy clipFlags capMb =>
      show Waits s (s.setClipPolicy clipFlags capMb)
      unfold setClipPolicy
      split <;> exact waits_refl s
  | setDrops drops =>
      show Waits s (s.setDrops drops)
      unfold setDrops
      split <;> exact waits_refl s
  | emitRelayed view cap =>
      show Waits s (s.emitRelayed view cap).2
      unfold emitRelayed
      split
      · exact waits_refl s
      · split <;> exact waits_refl s

/-! ## What a tick decides -/

/-- Closing the listener window touches neither the session nor its deadline. -/
theorem closeListenerWindow_waits (s : Session) (now : UInt32) :
    (s.closeListenerWindow now).present = s.present ∧
      (s.closeListenerWindow now).lastSeenMs = s.lastSeenMs := by
  unfold closeListenerWindow
  split
  · exact ⟨rfl, rfl⟩
  · split
    · exact ⟨rfl, rfl⟩
    · split <;> exact ⟨rfl, rfl⟩

theorem tickFrame_waits {s : Session} {after : Session → Session}
    (hafter : ∀ s, (after s).present = s.present ∧ (after s).lastSeenMs = s.lastSeenMs)
    (type : UInt8) (body : List UInt8) (cap : Nat) :
    (s.tickFrame type body cap after).2.present = s.present ∧
      (s.tickFrame type body cap after).2.lastSeenMs = s.lastSeenMs := by
  unfold tickFrame
  split
  · exact ⟨rfl, rfl⟩
  · exact hafter _

/-- A tick ends a session that was silent too long, and says why. -/
theorem tick_evicts {s : Session} (hpresent : s.present = true) {now : UInt32}
    (hsilent : absentMs.toInt32 ≤ (now - s.lastSeenMs).toInt32) (cap : Nat) :
    (s.tick now cap).2.present = false ∧
      (s.tick now cap).1 = encodeTagged Msg.sessionEnd 0 s.kB2h s.txCounter
        (EndReason.livenessTimeout.byte :: Bytes.littleEndian 4 (now - s.lastSeenMs).toNat)
          cap := by
  have hclosed : (s.closeListenerWindow now).kB2h = s.kB2h ∧
      (s.closeListenerWindow now).txCounter = s.txCounter := by
    unfold closeListenerWindow
    split
    · exact ⟨rfl, rfl⟩
    · split
      · exact ⟨rfl, rfl⟩
      · split <;> exact ⟨rfl, rfl⟩
  obtain ⟨hstays, hseen⟩ := s.closeListenerWindow_waits now
  unfold tick
  simp only
  rw [if_neg (by simp [hstays, hpresent]), hseen, if_pos hsilent, finish,
    if_neg (by simp [hstays, hpresent]), hclosed.1, hclosed.2]
  exact ⟨rfl, rfl⟩

/-- A tick leaves a session it does not end with its deadline. -/
theorem tick_keeps {s : Session} {now : UInt32}
    (hheard : ¬ absentMs.toInt32 ≤ (now - s.lastSeenMs).toInt32) (cap : Nat) :
    (s.tick now cap).2.present = s.present ∧ (s.tick now cap).2.lastSeenMs = s.lastSeenMs := by
  have hsent : ∀ s : Session, (s.noteSent now).present = s.present ∧
      (s.noteSent now).lastSeenMs = s.lastSeenMs := fun _ ↦ ⟨rfl, rfl⟩
  obtain ⟨hpresent, hseen⟩ := s.closeListenerWindow_waits now
  unfold tick
  simp only
  generalize s.closeListenerWindow now = closed at hpresent hseen
  rw [← hpresent, ← hseen]
  rw [← hseen] at hheard
  split
  · exact ⟨rfl, rfl⟩
  · split
    · exact tickFrame_waits hsent _ _ _
    · split
      · exact tickFrame_waits hsent _ _ _
      · split
        · refine tickFrame_waits ?_ _ _ _
          exact fun _ ↦ ⟨rfl, rfl⟩
        · split
          · exact ⟨rfl, rfl⟩
          · exact tickFrame_waits hsent _ _ _

/-- Without a session a tick starts none. -/
theorem tick_absent_present {s : Session} (h : s.present = false) (now : UInt32) (cap : Nat) :
    (s.tick now cap).2.present = false := by
  obtain ⟨hpresent, -⟩ := s.closeListenerWindow_waits now
  unfold tick
  simp only
  rw [if_pos (hpresent.trans h)]
  exact hpresent.trans h

/-- No call changes the build of the board. -/
theorem call_buildType (curve : P256) (s : Session) (now : UInt32) (c : SessionCall) :
    (s.call curve now c).buildType = s.buildType := by
  -- checking a frame counts and times, and configures nothing
  have hauth : ∀ view, (s.authenticate view now).2.buildType = s.buildType := by
    intro view
    have hreceived : ∀ s : Session, (s.noteReceived now).buildType = s.buildType :=
      fun s ↦ congrArg Core.buildType (core_noteReceived s now)
    unfold authenticate
    split
    · rfl
    · split
      · rfl
      · split
        · exact hreceived s
        · split
          · exact congrArg Core.buildType (sameButRefusals_noteRefused _ now false).core_eq
          · exact hreceived _
  cases c with
  | onFrame pair view cap =>
      show (s.onFrame curve pair view now cap).2.1.buildType = s.buildType
      unfold onFrame
      split
      · show (s.answerHello pair view now cap).2.buildType = s.buildType
        unfold answerHello
        split
        · rfl
        · exact congrArg Core.buildType (sameButRefusals_noteRefused s now true).core_eq
        · split
          · rfl
          · unfold startSession
            simp only
            split <;> rfl
      · split
        · rfl
        · split
          · exact hauth view
          · rfl
  | authenticate view => exact hauth view
  | tick cap =>
      rcases core_tick s now cap with hcore | hcore <;> exact congrArg Core.buildType hcore
  | finish reason silentMs cap =>
      rcases core_finish s reason silentMs cap with hcore | hcore <;>
        exact congrArg Core.buildType hcore
  | drop => rfl
  | stageNonce nonce => rfl
  | noteSent => rfl
  | noteOwedSent type => exact congrArg Core.buildType (core_noteOwedSent s type)
  | setClipPolicy clipFlags capMb =>
      exact congrArg Core.buildType (core_setClipPolicy s clipFlags capMb)
  | setDrops drops => exact congrArg Core.buildType (core_setDrops s drops)
  | emitRelayed view cap => exact congrArg Core.buildType (core_emitRelayed s view cap)

end Session

/-! ## Every tick of a run -/

namespace Observed

/-- The deadline of the session is the last of the times that prove the helper alive, and it had not
passed at the last tick. -/
structure Alive (o : Observed) : Prop where
  release : o.session.buildType = .release
  ordered : ∀ time ∈ o.life, time ≤ o.lastFrame
  heard : o.session.present = true → ∃ stamp ∈ o.life, o.session.lastSeenMs = reading stamp ∧
    (∀ time ∈ o.life, time ≤ stamp) ∧ o.lastTick < stamp + absentMs.toNat

theorem alive_start (boot : Nat) : Alive (start .release boot) where
  release := rfl
  ordered := nofun
  heard := nofun

/-- The test of a tick at its time, in true time. -/
theorem Alive.silent_iff {o : Observed} {time cap stamp : Nat}
    (htime : o.OnTime ⟨time, .tick cap⟩) (hframe : stamp ≤ o.lastFrame)
    (hlast : o.session.lastSeenMs = reading stamp) (hopen : o.lastTick < stamp + absentMs.toNat) :
    absentMs.toInt32 ≤ (reading time - o.session.lastSeenMs).toInt32 ↔
      stamp + absentMs.toNat ≤ time := by
  obtain ⟨-, hnear, hahead⟩ := htime.1 rfl
  have habsent : absentMs.toNat = 3000 := rfl
  dsimp only at hnear hahead
  rw [hlast]
  exact span_le_elapsed (by decide) (by omega) (by omega)

/-- What the calls of a run do to the end of the session. A session a tick leaves in place had a
stamp that is not too old, one a tick ends had none, and a call that does not prove the helper alive
leaves the deadline where it is. -/
structure Exact (curve : P256) (o : Observed) (c : TimedCall) : Prop where
  keeps : c.call.isTick = true → (o.step curve c).session.present = true →
    ∃ stamp ∈ o.life, c.time < stamp + absentMs.toNat
  evicts : c.call.isTick = true → o.session.present = true →
    (o.step curve c).session.present = false → ∀ stamp ∈ o.life, stamp + absentMs.toNat ≤ c.time
  postpones : (o.step curve c).session.present = true →
    (o.step curve c).session.lastSeenMs ≠ o.session.lastSeenMs → o.session.hears c.call = true

theorem Alive.keeps {curve : P256} {o : Observed} (h : o.Alive) {time cap : Nat}
    (htime : o.OnTime ⟨time, .tick cap⟩)
    (hstays : (o.step curve ⟨time, .tick cap⟩).session.present = true) :
    ∃ stamp ∈ o.life, o.session.lastSeenMs = reading stamp ∧
      (∀ other ∈ o.life, other ≤ stamp) ∧ time < stamp + absentMs.toNat := by
  have htick : (o.session.tick (reading time) cap).2.present = true := hstays
  have hpresent : o.session.present = true := by
    by_contra habsent
    rw [Session.tick_absent_present (by simpa using habsent)] at htick
    cases htick
  obtain ⟨stamp, hmem, hlast, hlatest, hopen⟩ := h.heard hpresent
  refine ⟨stamp, hmem, hlast, hlatest, ?_⟩
  by_contra hlate
  have hsilent := (silent_iff htime (h.ordered stamp hmem) hlast hopen).2 (by omega)
  rw [(Session.tick_evicts hpresent hsilent cap).1] at htick
  cases htick

theorem Alive.evicts {curve : P256} {o : Observed} (h : o.Alive) {time cap : Nat}
    (htime : o.OnTime ⟨time, .tick cap⟩) (hpresent : o.session.present = true)
    (hends : (o.step curve ⟨time, .tick cap⟩).session.present = false) :
    ∀ stamp ∈ o.life, stamp + absentMs.toNat ≤ time := by
  have htick : (o.session.tick (reading time) cap).2.present = false := hends
  obtain ⟨last, hmem, hlast, hlatest, hopen⟩ := h.heard hpresent
  have hsilent : absentMs.toInt32 ≤ (reading time - o.session.lastSeenMs).toInt32 := by
    by_contra hheard
    rw [(Session.tick_keeps hheard cap).1, hpresent] at htick
    cases htick
  have hlate := (silent_iff htime (h.ordered last hmem) hlast hopen).1 hsilent
  intro stamp hstamp
  have := hlatest stamp hstamp
  omega

theorem Alive.postpones {curve : P256} {o : Observed} (h : o.Alive) {c : TimedCall}
    (htime : o.OnTime c) (hstays : (o.step curve c).session.present = true)
    (hmoved : (o.step curve c).session.lastSeenMs ≠ o.session.lastSeenMs) :
    o.session.hears c.call = true := by
  obtain ⟨time, call⟩ := c
  by_contra hdeaf
  have hunheard : o.session.hears call = false := by simpa using hdeaf
  cases htick : call.isTick with
  | false =>
      have hwaits : Session.Waits o.session (o.session.call curve (reading time) call) :=
        Session.call_waits h.release hunheard htick (reading time)
      rcases hwaits with hgone | ⟨-, hsame⟩
      · exact absurd (hgone.symm.trans hstays) (by decide)
      · exact hmoved hsame
  | true =>
      cases call with
      | tick cap =>
          apply hmoved
          have htick' : (o.session.tick (reading time) cap).2.present = true := hstays
          have hpresent : o.session.present = true := by
            by_contra habsent
            rw [Session.tick_absent_present (by simpa using habsent)] at htick'
            cases htick'
          have hheard : ¬ absentMs.toInt32 ≤ (reading time - o.session.lastSeenMs).toInt32 := by
            intro hsilent
            rw [(Session.tick_evicts hpresent hsilent cap).1] at htick'
            cases htick'
          exact (Session.tick_keeps hheard cap).2
      | _ => cases htick

theorem Alive.exact {curve : P256} {o : Observed} (h : o.Alive) {c : TimedCall}
    (htime : o.OnTime c) : Exact curve o c where
  keeps htick hstays := by
    obtain ⟨time, call⟩ := c
    cases call with
    | tick cap =>
        obtain ⟨stamp, hmem, -, -, hnear⟩ := h.keeps htime hstays
        exact ⟨stamp, hmem, hnear⟩
    | _ => cases htick
  evicts htick hpresent hends := by
    obtain ⟨time, call⟩ := c
    cases call with
    | tick cap => exact h.evicts htime hpresent hends
    | _ => cases htick
  postpones := h.postpones htime

theorem Alive.step {curve : P256} {o : Observed} (h : o.Alive) {c : TimedCall}
    (htime : o.OnTime c) : (o.step curve c).Alive := by
  obtain ⟨time, call⟩ := c
  have hrelease : (o.step curve ⟨time, call⟩).session.buildType = .release :=
    (Session.call_buildType ..).trans h.release
  cases hhears : o.session.hears call with
  | true =>
      -- the frame is the last of the times, and later than the last tick
      have hframe : call.isFrame = true := by
        cases call <;> first | rfl | cases hhears
      have hnotick : call.isTick = false := by
        cases call <;> first | rfl | cases hhears
      obtain ⟨hafterTick, hafterFrame⟩ := htime.2 hframe
      have hlife : (o.step curve ⟨time, call⟩).life = o.life ++ [time] := if_pos hhears
      have hlastFrame : (o.step curve ⟨time, call⟩).lastFrame = time := if_pos hframe
      have hlastTick : (o.step curve ⟨time, call⟩).lastTick = o.lastTick :=
        if_neg (by simp [hnotick])
      have hordered : ∀ other ∈ o.life ++ [time], other ≤ time := by
        intro other hother
        rcases List.mem_append.1 hother with hold | hnew
        · exact (h.ordered other hold).trans hafterFrame
        · exact (List.mem_singleton.1 hnew).le
      refine ⟨hrelease, ?_, ?_⟩
      · rw [hlife, hlastFrame]
        exact hordered
      · intro _
        rw [hlife, hlastTick]
        refine ⟨time, by simp, (Session.call_heard h.release hhears _).lastSeen, hordered, ?_⟩
        exact Nat.lt_of_le_of_lt hafterTick (Nat.lt_add_of_pos_right (by decide))
  | false =>
      have hlife : (o.step curve ⟨time, call⟩).life = o.life := if_neg (by simp [hhears])
      have hordered : ∀ other ∈ o.life, other ≤ (o.step curve ⟨time, call⟩).lastFrame := by
        intro other hother
        have hbefore := h.ordered other hother
        show other ≤ if call.isFrame then time else o.lastFrame
        split
        · rename_i hframe
          exact hbefore.trans (htime.2 hframe).2
        · exact hbefore
      refine ⟨hrelease, ?_, ?_⟩
      · rw [hlife]
        exact hordered
      · intro hstays
        rw [hlife]
        cases htick : call.isTick with
        | true =>
            have hlastTick : (o.step curve ⟨time, call⟩).lastTick = time := if_pos htick
            have hunmoved : (o.step curve ⟨time, call⟩).session.lastSeenMs =
                o.session.lastSeenMs := by
              by_contra hmoved
              rw [h.postpones htime hstays hmoved] at hhears
              cases hhears
            cases call with
            | tick cap =>
                obtain ⟨stamp, hmem, hlast, hlatest, hnear⟩ := h.keeps htime hstays
                rw [hlastTick]
                exact ⟨stamp, hmem, hunmoved.trans hlast, hlatest, hnear⟩
            | _ => cases htick
        | false =>
            have hlastTick : (o.step curve ⟨time, call⟩).lastTick = o.lastTick :=
              if_neg (by simp [htick])
            have hwaits : Session.Waits o.session (o.session.call curve (reading time) call) :=
              Session.call_waits h.release hhears htick (reading time)
            rcases hwaits with hgone | ⟨hpresent, hsame⟩
            · exact absurd (hgone.symm.trans hstays) (by decide)
            · obtain ⟨stamp, hmem, hlast, hlatest, hopen⟩ := h.heard (hpresent.symm.trans hstays)
              rw [hlastTick]
              exact ⟨stamp, hmem, hsame.trans hlast, hlatest, hopen⟩

/-- Every call of every run of a release board, whatever it is told and whenever. -/
theorem liveness_exact (curve : P256) (boot : Nat) (calls : List TimedCall)
    (htime : Along (step curve) OnTime (start .release boot) calls) :
    Along (step curve) (Exact curve) (start .release boot) calls := by
  rw [Along.iff_splits]
  intro before c after hsplit
  rw [hsplit, Along.append] at htime
  have halive : (run (step curve) (start .release boot) before).Alive :=
    run_invariant_along Alive (alive_start boot) (fun _ _ hold hmeets ↦ hold.step hmeets) htime.1
  exact halive.exact htime.2.1

/-! ## A run across the wrap of the clock, and a development board -/

/-- What a helper of this version says in its hello. -/
def greetingHello : Hello where
  protoVersion := protoVersion
  os := 1
  buildType := 0
  channelCount := 2
  maxChunk := 1024
  correlation := 7
  helperKeyId := List.replicate keyIdSize 0x55
  helperNonce := List.replicate nonceSize 0x33

/-- The hello with zeros for a counter and a tag. -/
def plainHello : FrameView where
  type := Msg.hello
  flags := 0
  payload := List.replicate authPrefixSize 0 ++ greetingHello.body

/-- A heartbeat under counter zero whose tag is one byte over and over. -/
def pulse (byte : UInt8) : FrameView where
  type := Msg.heartbeat
  flags := 0
  payload := List.replicate counterSize 0 ++ List.replicate tagSize byte

/-- A board that has the helper registered. -/
def pairedWith : Pair :=
  Pair.init.setRegistration greetingHello.helperKeyId (List.replicate sharedSize 0x22)

/-- The hello under the key of its nonce. -/
def provenHello : FrameView :=
  builtView Msg.hello 0 (deriveHelloKey pairedWith.sharedSecret greetingHello.helperNonce) 0
    greetingHello.body

/-- The nonce that is staged. -/
def stagedNonce : List UInt8 := List.replicate nonceSize 0x44

/-- The first heartbeat under the key of the session that the hello starts with the nonce. -/
def provenPulse : FrameView :=
  builtView Msg.heartbeat 0
    (deriveSessionKeys pairedWith.sharedSecret greetingHello.helperNonce stagedNonce).1 0 []

/-- A nonce is staged, the hello comes before the counter wraps and a heartbeat after it, and the
board ticks twice. -/
def wrappingCalls : List TimedCall :=
  [⟨2 ^ 32 - 2000, .stageNonce stagedNonce⟩, ⟨2 ^ 32 - 1900, .onFrame pairedWith provenHello 256⟩,
   ⟨2 ^ 32 + 900, .onFrame pairedWith provenPulse 256⟩, ⟨2 ^ 32 + 1400, .tick 256⟩,
   ⟨2 ^ 32 + 4000, .tick 256⟩]

theorem provenHello_read : Session.readHello provenHello = some greetingHello := by
  have hlong : ¬ provenHello.payload.length < authPrefixSize := by
    rw [provenHello, builtView_payload_length]
    omega
  rw [Session.readHello, if_neg hlong]
  show helloDecode (bodyOf provenHello) = some greetingHello
  rw [provenHello, bodyOf_builtView]
  decide

/-- A board that staged the nonce starts a session for the hello. -/
theorem provenHello_starts {s : Session} (hrelease : s.buildType = .release)
    (hstaged : s.nonceStaged = true) (now : UInt32) (cap : Nat) :
    s.answerHello pairedWith provenHello now cap =
      s.startSession greetingHello pairedWith.sharedSecret now cap := by
  have hknown : pairedWith.isRegisteredKey greetingHello.helperKeyId = true := by decide
  have hproved : s.helloVerdict pairedWith provenHello =
      .proved greetingHello pairedWith.sharedSecret :=
    (Session.helloVerdict_proved_iff hrelease).2 ⟨⟨greetingHello, provenHello_read, rfl, hknown⟩,
      provenHello_read, Session.Pair.secret_of_registeredKey hknown,
      builtView_tag_verifies _ _ _ _ _ (by decide)⟩
  rw [Session.answerHello, hproved]
  simp only
  rw [if_neg (by simp [hstaged])]

/-- The heartbeat opens in that session. -/
theorem startSession_opens_pulse {s : Session} (hnonce : s.stagedNonce = stagedNonce) (now : UInt32)
    (cap : Nat) :
    (s.startSession greetingHello pairedWith.sharedSecret now cap).2.opens provenPulse = true := by
  have hcounter : AuthCounter.init.ok (counterOf provenPulse) = true := by
    rw [provenPulse, counterOf_builtView _ _ _ _ _ (by decide)]
    rfl
  have htag : TagVerifies (deriveSessionKeys pairedWith.sharedSecret greetingHello.helperNonce
      s.stagedNonce).1 provenPulse := by
    rw [hnonce]
    exact builtView_tag_verifies _ _ _ _ _ (by decide)
  unfold Session.startSession
  simp only
  split <;> simp [Session.opens, hcounter, htag]

/-- A board that staged the nonce hears the heartbeat behind the hello. -/
theorem pulse_heard (curve : P256) {s : Session} (hrelease : s.buildType = .release)
    (hstaged : s.nonceStaged = true) (hnonce : s.stagedNonce = stagedNonce) (now later : UInt32) :
    Session.HeardAt ((s.call curve now (.onFrame pairedWith provenHello 256)).call curve later
      (.onFrame pairedWith provenPulse 256)) later := by
  have hstarts : s.call curve now (.onFrame pairedWith provenHello 256) =
      (s.startSession greetingHello pairedWith.sharedSecret now 256).2 := by
    show (s.onFrame curve pairedWith provenHello now 256).2.1 = _
    rw [Session.onFrame, if_pos (show provenHello.type = Msg.hello from rfl),
      provenHello_starts hrelease hstaged]
  have hgreeted := Session.call_buildType curve s now (.onFrame pairedWith provenHello 256)
  have hopens := startSession_opens_pulse hnonce now 256
  rw [← hstarts] at hopens
  refine Session.call_heard (hgreeted.trans hrelease) ?_ later
  rw [Session.hears, if_neg (by decide), if_pos (.inl rfl)]
  exact hopens

/-- Half a second after it was heard a session is kept, and three seconds after that it is ended. -/
theorem kept_then_ended (curve : P256) {s : Session}
    (hheard : Session.HeardAt s (reading (2 ^ 32 + 900))) :
    (s.call curve (reading (2 ^ 32 + 1400)) (.tick 256)).present = true ∧
      ((s.call curve (reading (2 ^ 32 + 1400)) (.tick 256)).call curve (reading (2 ^ 32 + 4000))
        (.tick 256)).present = false := by
  have hkept := @Session.tick_keeps s (reading (2 ^ 32 + 1400))
    (by rw [hheard.lastSeen]; decide) 256
  have hstays := hkept.1.trans hheard.present
  have hends := @Session.tick_evicts _ hstays (reading (2 ^ 32 + 4000))
    (by rw [hkept.2, hheard.lastSeen]; decide) 256
  exact ⟨hstays, hends.1⟩

/-- The tick after the wrap keeps the session, which by then only the heartbeat accounts for, and
the last one ends it. -/
theorem liveness_exact_wrapping :
    Along (step smallCurve) (Exact smallCurve) (start .release (2 ^ 32 - 3000)) wrappingCalls ∧
      (run (step smallCurve) (start .release (2 ^ 32 - 3000))
        (wrappingCalls.take 4)).session.present = true ∧
      (run (step smallCurve) (start .release (2 ^ 32 - 3000)) wrappingCalls).session.present =
        false := by
  refine ⟨liveness_exact smallCurve (2 ^ 32 - 3000) wrappingCalls (by decide), ?_⟩
  have hheard := @pulse_heard smallCurve ((start .release (2 ^ 32 - 3000)).session.call smallCurve
    (reading (2 ^ 32 - 2000)) (.stageNonce stagedNonce)) rfl rfl rfl (reading (2 ^ 32 - 1900))
    (reading (2 ^ 32 + 900))
  rw [run_session, run_session, wrappingCalls]
  repeat rw [List.take_succ_cons]
  rw [List.take_zero]
  repeat rw [List.foldl_cons]
  rw [List.foldl_nil, List.foldl_nil]
  exact kept_then_ended smallCurve hheard

/-- A development board whose helper has said hello at time zero. -/
def developed : Observed :=
  run (step smallCurve) (start .development 0)
    [⟨0, .stageNonce (List.replicate nonceSize 0x44)⟩, ⟨0, .onFrame Pair.init plainHello 256⟩]

theorem developed_heard : Session.HeardAt developed.session (reading 0) := by
  let staged := (Session.init .development).stageNonce (List.replicate nonceSize 0x44)
  show Session.HeardAt (staged.onFrame smallCurve Pair.init plainHello (reading 0) 256).2.1 _
  have hverdict : ∃ hello secret, staged.helloVerdict Pair.init plainHello = .proved hello secret :=
    ⟨_, _, rfl⟩
  obtain ⟨hello, secret, hproved⟩ := hverdict
  show Session.HeardAt (staged.answerHello Pair.init plainHello (reading 0) 256).2 _
  rw [Session.answerHello, hproved]
  simp only
  rw [if_neg (by decide)]
  exact Session.startSession_heard ..

theorem developed_development : developed.session.buildType = .development :=
  (Session.call_buildType ..).trans (Session.call_buildType ..)

/-- A development board takes every heartbeat of a session, whatever its tag. -/
theorem developed_pulse (byte : UInt8) :
    Session.HeardAt (developed.step smallCurve
      ⟨2500, .onFrame Pair.init (pulse byte) 256⟩).session (reading 2500) := by
  show Session.HeardAt (developed.session.onFrame smallCurve Pair.init (pulse byte)
    (reading 2500) 256).2.1 _
  have hpresent := developed_heard.present
  have hskips : developed.session.skipsAuthentication = true := by
    simp [Session.skipsAuthentication, developed_development]
  have hlong : ¬ (pulse byte).payload.length < authPrefixSize := by
    simp [pulse, authPrefixSize]
  have htype : (pulse byte).type = Msg.heartbeat := rfl
  rw [Session.onFrame, if_neg (by rw [htype]; decide), if_neg (by rw [htype]; decide),
    if_pos (.inl htype)]
  show Session.HeardAt (developed.session.authenticate (pulse byte) (reading 2500)).2 _
  rw [Session.authenticate, if_neg (by simp [hpresent]), if_neg hlong, if_pos hskips,
    Session.noteReceived, if_neg (by simp [hpresent])]
  exact ⟨hpresent, rfl⟩

/-- A heartbeat that does not carry the tag of the session keeps a development board from ending it:
without it the tick at four seconds does. -/
theorem development_pulse_postpones :
    ∃ byte : UInt8, ¬ TagVerifies developed.session.kH2b (pulse byte) ∧
      Along (step smallCurve) OnTime developed
        [⟨2500, .onFrame Pair.init (pulse byte) 256⟩, ⟨4000, .tick 256⟩] ∧
      (run (step smallCurve) developed
        [⟨2500, .onFrame Pair.init (pulse byte) 256⟩, ⟨4000, .tick 256⟩]).session.present = true ∧
      (run (step smallCurve) developed [⟨4000, .tick 256⟩]).session.present = false := by
  -- the tag of the session is one value, so one of two tags is not it
  have hone : ∃ byte : UInt8, ¬ TagVerifies developed.session.kH2b (pulse byte) := by
    by_contra hall
    simp only [not_exists, not_not] at hall
    have hzero := (hall 0).2
    have hother := (hall 1).2
    have hsame : tagOf (pulse 0) = tagOf (pulse 1) := hzero.symm.trans hother
    exact absurd hsame (by decide)
  obtain ⟨byte, hfails⟩ := hone
  refine ⟨byte, hfails, ?_, ?_, ?_⟩
  · exact ⟨⟨nofun, fun _ ↦ ⟨Nat.zero_le _, Nat.zero_le _⟩⟩,
      ⟨fun _ ↦ ⟨Nat.zero_le _, (by decide : 4000 + 3000 < 0 + 2 ^ 31),
        (by decide : 2500 < 4000 + 2 ^ 31)⟩, nofun⟩, trivial⟩
  · have hheard := developed_pulse byte
    rw [run_cons]
    generalize developed.step smallCurve ⟨2500, .onFrame Pair.init (pulse byte) 256⟩ =
      later at hheard
    show (later.session.tick (reading 4000) 256).2.present = true
    rw [(Session.tick_keeps (by rw [hheard.lastSeen]; decide) 256).1]
    exact hheard.present
  · show (developed.session.tick (reading 4000) 256).2.present = false
    exact (Session.tick_evicts developed_heard.present
      (by rw [developed_heard.lastSeen]; decide) 256).1

end Observed

end DeskhopPlus.Board
