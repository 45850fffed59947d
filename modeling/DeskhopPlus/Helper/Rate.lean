import DeskhopPlus.Helper.Moves
import DeskhopPlus.Library.Recent

/-!
# What an input does to the reconnect rate

`Rate` is what `reconnecting_repeatedly` and `record_drop` read: the two rings, the sleep of the
host and the identity of the device. Only four things change it: a teardown, a device that leaves,
one that appears, and the host going to sleep or waking (`rate_handle`). A teardown shows in what
the input puts out: the note that comes right before the channels are closed (`closingNote`).
-/

namespace DeskhopPlus.Helper

open Bytes Wire Auth Crypto Board

/-- The part of the machine that the reconnect rate is about. -/
structure Rate where
  recentDrops : List UInt32
  recentSessionLosses : List UInt32
  identityChangedAt : UInt32
  identityChanged : Bool
  hostWokeAt : UInt32
  hostAsleep : Bool
  hostWoke : Bool
  everSawDevice : Bool
  lastDeviceIdentity : DeviceIdentity
  configMode : Bool
  deriving DecidableEq, Repr

/-- The rate of the machine. -/
def rate (h : Helper) : Rate where
  recentDrops := h.recentDrops
  recentSessionLosses := h.recentSessionLosses
  identityChangedAt := h.identityChangedAt
  identityChanged := h.identityChanged
  hostWokeAt := h.hostWokeAt
  hostAsleep := h.hostAsleep
  hostWoke := h.hostWoke
  everSawDevice := h.everSawDevice
  lastDeviceIdentity := h.lastDeviceIdentity
  configMode := h.configMode

/-- There is something to drop: channels held, or a phase that is not idle. -/
def busy (h : Helper) : Bool := h.holdingChannels || h.phase ≠ .idle

namespace Rate

/-- The host has just woken. -/
def justWoke (r : Rate) (now : UInt32) : Bool :=
  r.hostWoke && !elapsed now r.hostWokeAt reconnectWindowMs

/-- The identity of the device has just changed. -/
def justChanged (r : Rate) (now : UInt32) : Bool :=
  r.identityChanged && !elapsed now r.identityChangedAt reconnectWindowMs

/-- `record_drop` counts the drop. -/
def counts (r : Rate) (busy : Bool) (now : UInt32) : Bool :=
  busy && !(r.hostAsleep || r.justWoke now) &&
    !r.recentDrops.getLast?.any fun last ↦ now - last < dropDebounceMs

/-- `stands_alone`. -/
def standsAlone (r : Rate) (now : UInt32) : Bool :=
  r.recentDrops.getLast?.all fun last ↦ now - last > reconnectWindowMs

/-- `ended_on_purpose`. -/
def endedOnPurpose (r : Rate) (note : Note) (a : Int32) (now : UInt32) : Bool :=
  (note = .sessionEnded && a = EndReason.unpaired.byte.toUInt32.toInt32) ||
    (note = .transportFailed && r.justChanged now)

/-- A drop. -/
def drop (r : Rate) (busy : Bool) (now : UInt32) : Rate :=
  if r.counts busy now then
    { r with recentDrops := pushTime r.recentDrops reconnectLimit now }
  else r

/-- A session is lost. -/
def lose (r : Rate) (now : UInt32) : Rate :=
  { r with recentSessionLosses := pushTime r.recentSessionLosses sessionLossLimit now }

/-- A teardown. -/
def tearDown (r : Rate) (busy : Bool) (note : Note) (a : Int32) (now : UInt32) : Rate :=
  if r.counts busy now && r.standsAlone now && !r.endedOnPurpose note a now then
    (r.drop busy now).lose now
  else r.drop busy now

/-- A teardown with the note it has, if there is one. -/
def tornDown (r : Rate) (busy : Bool) (torn : Option (Note × Int32)) (now : UInt32) : Rate :=
  match torn with
  | none => r
  | some (note, a) => r.tearDown busy note a now

/-- The device leaves. -/
def leave (r : Rate) (busy : Bool) (now : UInt32) : Rate :=
  { r.drop busy now with recentSessionLosses := [] }

/-- The windows that are over are closed. -/
def lapse (r : Rate) (now : UInt32) : Rate :=
  { r with identityChanged := r.justChanged now, hostWoke := r.justWoke now }

/-- The host goes to sleep or wakes. -/
def sleep (r : Rate) (asleep : Bool) (now : UInt32) : Rate :=
  { r with
    hostWoke := r.hostAsleep && !asleep || r.hostWoke
    hostWokeAt := if r.hostAsleep && !asleep then now else r.hostWokeAt
    hostAsleep := asleep }

/-- Another identity than the last one appears. -/
def otherIdentity (r : Rate) (which : DeviceIdentity) : Bool :=
  r.everSawDevice && r.lastDeviceIdentity != which

/-- A device appears. -/
def appear (r : Rate) (holding busy : Bool) (which : DeviceIdentity) (now : UInt32) : Rate :=
  let seen := { r with everSawDevice := true, lastDeviceIdentity := which }
  if which = .configMode ∧ r.configMode ∧ holding then seen
  else
    let left := if which = .configMode ∨ r.configMode then seen.leave busy now else seen
    { left with
      configMode := which = .configMode
      recentDrops := if r.otherIdentity which then [] else left.recentDrops
      identityChanged := r.otherIdentity which || left.identityChanged
      identityChangedAt := if r.otherIdentity which then now else left.identityChangedAt }

end Rate

/-- Stamping the start leaves the rate alone. -/
theorem rate_noteStarted (h : Helper) (now : UInt32) : (h.noteStarted now).rate = h.rate := by
  unfold noteStarted
  split <;> rfl

/-- It leaves what there is to drop alone. -/
theorem busy_noteStarted (h : Helper) (now : UInt32) : (h.noteStarted now).busy = h.busy := by
  unfold noteStarted
  split <;> rfl

/-- `record_drop` counts the drop where nothing speaks against it. -/
theorem recordDrop_eq (h : Helper) (now : UInt32) :
    h.recordDrop now =
      if h.rate.counts h.busy now then
        (true, { h with recentDrops := pushTime h.recentDrops reconnectLimit now })
      else (false, h) := by
  have hguards : ∀ (sleeps idle recent : Bool) (counted not : Bool × Helper),
      (if sleeps then not else if idle then not else if recent then not else counted) =
        if !idle && !sleeps && !recent then counted else not := by
    intro sleeps idle recent counted not
    cases sleeps <;> cases idle <;> cases recent <;> rfl
  have hidle : (!h.holdingChannels && h.phase = .idle) = !h.busy := by simp [busy]
  unfold recordDrop
  rw [hidle, hguards, Bool.not_not]
  rfl

/-- A drop that is recorded is recorded in the rate. -/
theorem rate_recordDrop (h : Helper) (now : UInt32) :
    (h.recordDrop now).2.rate = h.rate.drop h.busy now := by
  rw [recordDrop_eq]
  unfold Rate.drop
  split <;> rfl

/-- The window of a mode change is closed once it is over. -/
theorem rate_calm (h : Helper) (now : UInt32) :
    (if h.identityChanged && elapsed now h.identityChangedAt reconnectWindowMs then
        { h with identityChanged := false } else h : Helper).rate =
      { h.rate with identityChanged := h.rate.justChanged now } ∧
    (if h.identityChanged && elapsed now h.identityChangedAt reconnectWindowMs then
        { h with identityChanged := false } else h : Helper).busy = h.busy := by
  cases hchanged : h.identityChanged with
  | false => simp [rate, Rate.justChanged, hchanged]
  | true =>
      cases hover : elapsed now h.identityChangedAt reconnectWindowMs with
      | false => simp [rate, Rate.justChanged, hchanged, hover]
      | true => simp [rate, Rate.justChanged, busy, hchanged, hover]

/-- And so is the window of a wake. -/
theorem rate_woken (h : Helper) (now : UInt32) :
    (if h.hostWoke && elapsed now h.hostWokeAt reconnectWindowMs then
        { h with hostWoke := false } else h : Helper).rate =
      { h.rate with hostWoke := h.rate.justWoke now } ∧
    (if h.hostWoke && elapsed now h.hostWokeAt reconnectWindowMs then
        { h with hostWoke := false } else h : Helper).busy = h.busy := by
  cases hwoke : h.hostWoke with
  | false => simp [rate, Rate.justWoke, hwoke]
  | true =>
      cases hover : elapsed now h.hostWokeAt reconnectWindowMs with
      | false => simp [rate, Rate.justWoke, hwoke, hover]
      | true => simp [rate, Rate.justWoke, busy, hwoke, hover]

/-! ## The rings are left alone -/

namespace Turn

/-- The rate stays as it is, and the channels are not closed. -/
structure Quiet (t t' : Turn) : Prop where
  rate : t'.h.rate = t.h.rate
  closes : .closeChannels ∉ t.o.items → .closeChannels ∉ t'.o.items

/-- And there is as much to drop as before. -/
structure Steady (t t' : Turn) : Prop extends Quiet t t' where
  busy : t'.h.busy = t.h.busy

/-- The rate stays as it is, or the connection is dropped. -/
def Ends (now : UInt32) (t t' : Turn) : Prop :=
  Quiet t t' ∨ ∃ t₁ note a b, Steady t t₁ ∧ t' = t₁.dropConnection now note a b

section Compose

variable {t t' t'' : Turn} {now : UInt32}

/-- A change of the machine that leaves the rate alone. -/
theorem Quiet.of_rate {h : Helper} (hrate : h.rate = t.h.rate) : Quiet t { t with h := h } :=
  ⟨hrate, id⟩

/-- Nothing happens. -/
theorem Quiet.refl (t : Turn) : Quiet t t := .of_rate rfl

/-- One after the other. -/
theorem Quiet.trans (h : Quiet t t') (h' : Quiet t' t'') : Quiet t t'' :=
  ⟨h'.rate.trans h.rate, fun hopen ↦ h'.closes (h.closes hopen)⟩

/-- A part that may be left out. -/
theorem Quiet.ite {p : Prop} [Decidable p] (h : Quiet t t') : Quiet t (if p then t' else t) := by
  split
  · exact h
  · exact .refl t

/-- A change of the machine that leaves alone the rate and what there is to drop. -/
theorem Steady.of_helper {h : Helper} (hrate : h.rate = t.h.rate) (hbusy : h.busy = t.h.busy) :
    Steady t { t with h := h } :=
  ⟨⟨hrate, id⟩, hbusy⟩

/-- Nothing happens. -/
theorem Steady.refl (t : Turn) : Steady t t := .of_helper rfl rfl

/-- One after the other. -/
theorem Steady.trans (h : Steady t t') (h' : Steady t' t'') : Steady t t'' :=
  ⟨h.toQuiet.trans h'.toQuiet, h'.busy.trans h.busy⟩

/-- The machine is changed before, in other fields. -/
theorem Steady.after {h : Helper} (h' : Steady { t with h := h } t'') (hrate : h.rate = t.h.rate)
    (hbusy : h.busy = t.h.busy) : Steady t t'' :=
  Steady.trans (.of_helper hrate hbusy) h'

/-- A change of the machine first that leaves the rate alone. -/
theorem Quiet.after {h : Helper} (h' : Quiet { t with h := h } t'') (hrate : h.rate = t.h.rate) :
    Quiet t t'' :=
  Quiet.trans (.of_rate hrate) h'

/-- A part that may be left out. -/
theorem Steady.ite {p : Prop} [Decidable p] (h : Steady t t') : Steady t (if p then t' else t) := by
  split
  · exact h
  · exact .refl t

/-- What is quiet ends nothing. -/
theorem Quiet.ends (h : Quiet t t') : Ends now t t' := .inl h

/-- What is steady ends nothing. -/
theorem Steady.ends (h : Steady t t') : Ends now t t' := .inl h.toQuiet

/-- A steady part and then a teardown. -/
theorem Steady.drops (h : Steady t t') {note : Note} {a b : Int32} :
    Ends now t (t'.dropConnection now note a b) := .inr ⟨t', note, a, b, h, rfl⟩

/-- A steady part first. -/
theorem Steady.then_ends (h : Steady t t') (h' : Ends now t' t'') : Ends now t t'' := by
  rcases h' with hquiet | ⟨t₁, note, a, b, hsteady, rfl⟩
  · exact .inl (h.toQuiet.trans hquiet)
  · exact (h.trans hsteady).drops

/-- A change of the machine first that leaves the rate alone. -/
theorem Ends.after {h : Helper} (h' : Ends now { t with h := h } t'') (hrate : h.rate = t.h.rate)
    (hbusy : h.busy = t.h.busy) : Ends now t t'' :=
  Steady.then_ends (.of_helper hrate hbusy) h'

end Compose

variable (t : Turn) (identity : Identity)

/-- An output other than the closing of the channels. -/
theorem steady_put {item : Output} (hitem : item ≠ .closeChannels) : Steady t (t.put item) := by
  refine ⟨⟨by rw [put_h], fun hopen ↦ ?_⟩, by rw [put_h]⟩
  unfold put
  split
  · exact hopen
  · simp [hopen, hitem.symm]

/-- A note. -/
theorem steady_putNote (note : Note) (a b : Int32) : Steady t (t.putNote note a b) :=
  steady_put t nofun

/-- A frame. -/
theorem steady_send (bytes : List UInt8) : Steady t (t.send bytes) := steady_put t nofun

/-- A state to tell. -/
theorem steady_setState (next : UserState) : Steady t (t.setState next) := by
  unfold setState
  split
  · exact .refl t
  · exact Steady.after (steady_put _ nofun) rfl rfl

/-- A retry. -/
theorem steady_retry : Steady t t.retry := Steady.after (steady_put _ nofun) rfl rfl

/-- The word that reconnections repeat. -/
theorem steady_reportRepeatedReconnection (now : UInt32) :
    Steady t (t.reportRepeatedReconnection now) := by
  unfold reportRepeatedReconnection
  split
  · exact .refl t
  · refine Steady.trans ?_ (steady_setState _ _)
    split
    · exact steady_putNote ..
    · exact .ite (steady_putNote ..)

/-- Building a pair request. -/
theorem steady_buildPairRequest (draw : Draw) (now : UInt32) :
    Steady t (t.buildPairRequest identity draw now).2 := by
  unfold buildPairRequest
  dsimp only
  split
  · exact .refl t
  · exact .of_helper rfl rfl

/-- Sending it. -/
theorem steady_askToPair (draw : Draw) (now : UInt32) :
    Steady t (t.askToPair identity draw now) := by
  have hbuilt := steady_buildPairRequest t identity draw now
  unfold askToPair
  split
  · rename_i t' hresult
    rwa [hresult] at hbuilt
  · rename_i bytes t' hresult
    rw [hresult] at hbuilt
    exact hbuilt.trans (steady_send t' bytes)

/-- A request that goes with a hello, with its note. -/
theorem steady_askAgain (draw : Draw) (now : UInt32) :
    Steady t (match t.buildPairRequest identity draw now with
      | (none, t) => t
      | (some bytes, t) => (t.putNote .askingToBePaired 0 0).send bytes) := by
  have hbuilt := steady_buildPairRequest t identity draw now
  split
  · rename_i t' hresult
    rwa [hresult] at hbuilt
  · rename_i bytes t' hresult
    rw [hresult] at hbuilt
    exact (hbuilt.trans (steady_putNote t' ..)).trans (steady_send _ bytes)

/-- Building a hello, or the note that it cannot be built. -/
theorem steady_buildHello (draw : Draw) : Steady t (t.buildHello identity draw).2 := by
  unfold buildHello
  dsimp only
  split
  · exact Steady.after (steady_putNote ..) rfl rfl
  · split
    · exact Steady.after (steady_putNote ..) rfl rfl
    · exact .of_helper rfl rfl

/-- An output other than the closing of the channels. -/
theorem quiet_put {item : Output} (hitem : item ≠ .closeChannels) : Quiet t (t.put item) :=
  (steady_put t hitem).toQuiet

/-- A note. -/
theorem quiet_putNote (note : Note) (a b : Int32) : Quiet t (t.putNote note a b) :=
  (steady_putNote t note a b).toQuiet

/-- A state to tell. -/
theorem quiet_setState (next : UserState) : Quiet t (t.setState next) :=
  (steady_setState t next).toQuiet

/-! ## The answers of the board -/

/-- An ack that is taken begins a session and ends none. -/
theorem quiet_acceptAck (keys : List UInt8 × List UInt8) (rx : AuthCounter) (ack : HelloAck)
    (now : UInt32) : Quiet t (t.acceptAck keys rx ack now) := by
  unfold acceptAck
  extract_lets keyed source live noted
  have hnoted : Quiet live noted := Quiet.ite (quiet_putNote live ..)
  have hlive : Quiet t noted := Quiet.after hnoted rfl
  split
  · exact hlive.trans (steady_reportRepeatedReconnection ..).toQuiet
  · exact hlive.trans (quiet_setState ..)

/-- One that is not taken may end the connection. -/
theorem ends_onHelloAck (view : FrameView) (now : UInt32) :
    Ends now t (t.onHelloAck identity view now) := by
  unfold onHelloAck
  split
  · exact (steady_putNote ..).ends
  · split
    · exact (Steady.refl t).drops
    · split
      · exact (Steady.refl t).drops
      · split
        · exact (Steady.refl t).drops
        · split
          · exact (Steady.refl t).drops
          · dsimp only
            split
            · exact (Steady.refl t).drops
            · split
              · exact (Steady.refl t).drops
              · split
                · exact (steady_putNote ..).ends
                · split
                  · exact (Steady.refl t).drops
                  · exact (quiet_acceptAck ..).ends

/-- So may a refusal. -/
theorem ends_onHelloRefused (view : FrameView) (now : UInt32) :
    Ends now t (t.onHelloRefused view now) := by
  unfold onHelloRefused
  split
  · exact (steady_putNote ..).ends
  · split
    · exact (Steady.refl t).drops
    · split
      · exact (Steady.refl t).drops
      · split
        · exact (steady_putNote ..).ends
        · dsimp only
          split
          · exact Quiet.ends (Quiet.after (quiet_setState _ _) rfl)
          · refine Quiet.ends (Quiet.trans ?_ (Quiet.after (quiet_setState _ _) rfl))
            exact Quiet.after (quiet_putNote ..) rfl

/-- A grant ends nothing. -/
theorem quiet_onPairGrant (view : FrameView) (draw : Draw) (now : UInt32) :
    Quiet t (t.onPairGrant identity view draw now) := by
  unfold onPairGrant
  split
  · exact quiet_putNote ..
  · split
    · exact quiet_putNote ..
    · split
      · exact quiet_putNote ..
      · split
        · refine Quiet.trans ?_ (quiet_setState _ _)
          exact Quiet.after (quiet_putNote ..) rfl
        · extract_lets previous hadKey source pinned
          have hbuilt : Quiet t (pinned.buildHello identity draw).2 :=
            Quiet.after (steady_buildHello pinned identity draw).toQuiet rfl
          split
          · rename_i t' hresult
            rw [hresult] at hbuilt
            exact ⟨hbuilt.rate, hbuilt.closes⟩
          · rename_i bytes t' hresult
            rw [hresult] at hbuilt
            refine (hbuilt.trans ?_).trans (steady_send _ bytes).toQuiet
            refine Quiet.trans ?_ (quiet_putNote ..)
            exact Quiet.after (quiet_put _ nofun) rfl

/-- Nor does a refusal of the request. -/
theorem quiet_onPairRefused (view : FrameView) : Quiet t (t.onPairRefused view) := by
  unfold onPairRefused
  split
  · exact quiet_putNote ..
  · split
    · exact quiet_putNote ..
    · split
      · exact quiet_putNote ..
      · split
        · exact quiet_putNote ..
        · exact quiet_putNote ..

/-! ## Session traffic -/

/-- Nor does a beat of the device. -/
theorem quiet_onDeviceBeat (view : FrameView) (now : UInt32) :
    Quiet t (t.onDeviceBeat view now) := by
  unfold onDeviceBeat
  split
  · exact quiet_putNote ..
  · dsimp only
    split
    · exact Quiet.after (quiet_putNote ..) rfl
    · split
      · exact .of_rate rfl
      · exact Quiet.after (quiet_putNote ..) rfl

/-- The end of a session that the board says. -/
theorem ends_onSessionEnd (view : FrameView) (body : List UInt8) (now : UInt32) :
    Ends now t (t.onSessionEnd view body now) := by
  unfold onSessionEnd
  split
  · exact (steady_putNote ..).ends
  · extract_lets reason silent drops noted told counted
    have hsilent : Steady t silent := .ite (steady_putNote ..)
    have hnoted : Steady silent noted := (steady_putNote ..).trans (steady_putNote ..)
    have htold : Steady silent told := .ite (hnoted.trans (.ite (steady_putNote ..)))
    have hcounted : Steady told counted := steady_putNote ..
    exact ((hsilent.trans htold).trans hcounted).drops

/-- The policy ends nothing. -/
theorem quiet_onClipPolicy (view : FrameView) (body : List UInt8) :
    Quiet t (t.onClipPolicy view body) := by
  unfold onClipPolicy
  split
  · exact quiet_putNote ..
  · refine Quiet.trans ?_ (quiet_putNote ..)
    exact Quiet.after (quiet_put _ nofun) rfl

/-- Nor does a reading of the drops. -/
theorem quiet_onDeviceDrops (view : FrameView) (body : List UInt8) :
    Quiet t (t.onDeviceDrops view body) := by
  unfold onDeviceDrops
  split
  · exact quiet_putNote ..
  · exact .of_rate rfl

/-- Nor does an alert. -/
theorem quiet_onListenerAlert (view : FrameView) (body : List UInt8) (now : UInt32) :
    Quiet t (t.onListenerAlert view body now) := by
  unfold onListenerAlert
  split
  · exact quiet_putNote ..
  · refine Quiet.trans ?_ (quiet_setState _ _)
    exact Quiet.after (quiet_putNote ..) rfl

/-! ## Dispatching -/

/-- Of the verified frames only the end of the session ends anything. -/
theorem ends_onVerified (view : FrameView) (body : List UInt8) (now : UInt32) :
    Ends now t (t.onVerified view body now) := by
  unfold onVerified
  extract_lets source heard beaten heardTurn
  have hbeaten : beaten.rate = t.h.rate ∧ beaten.busy = t.h.busy := by
    dsimp only [beaten]
    split <;> exact ⟨rfl, rfl⟩
  have hheard : Steady t heardTurn := .of_helper hbeaten.1 hbeaten.2
  refine hheard.then_ends ?_
  split
  · exact ends_onSessionEnd heardTurn view body now
  · split
    · exact (quiet_onDeviceBeat heardTurn view now).ends
    · split
      · exact (quiet_onListenerAlert heardTurn view body now).ends
      · split
        · exact (quiet_onClipPolicy heardTurn view body).ends
        · split
          · exact (quiet_onDeviceDrops heardTurn view body).ends
          · exact Quiet.ends ⟨rfl, id⟩

/-- A frame that does not verify ends the connection. -/
theorem ends_onAuthenticated (view : FrameView) (now : UInt32) :
    Ends now t (t.onAuthenticated identity view now) := by
  unfold onAuthenticated
  split
  · exact ends_onHelloAck ..
  · split
    · exact (steady_putNote ..).ends
    · split
      · split
        · exact (steady_putNote ..).ends
        · exact (Steady.refl t).drops
      · exact Quiet.ends (Quiet.after (quiet_putNote ..) rfl)
      · exact Quiet.ends (Quiet.after (quiet_putNote ..) rfl)
      · exact Ends.after (ends_onVerified ..) rfl rfl

/-- At most one teardown for one frame. -/
theorem ends_onFrame (view : FrameView) (draw : Draw) (now : UInt32) :
    Ends now t (t.onFrame identity view draw now) := by
  unfold onFrame
  split
  · exact ends_onAuthenticated ..
  · unfold onUnauthenticated
    split
    · exact ends_onHelloRefused ..
    · split
      · exact (quiet_onPairGrant ..).ends
      · exact (Quiet.ite (quiet_onPairRefused t view)).ends

/-- At most one for one report. -/
theorem ends_receivedChannel (channel : UInt8) (data : List UInt8) (draw : Draw) (now : UInt32) :
    Ends now t (t.receivedChannel identity channel data draw now) := by
  unfold receivedChannel
  split
  · exact (Steady.refl t).ends
  · extract_lets h before
    split
    rename_i rc reader hreport
    extract_lets read misaligned
    have hread : Steady t read := by
      have hrate : (t.h.noteStarted now).rate = t.h.rate := rate_noteStarted t.h now
      have hbusy : (t.h.noteStarted now).busy = t.h.busy := busy_noteStarted t.h now
      refine .of_helper ?_ ?_
      · split
        · exact hrate
        · exact hrate
      · split
        · exact hbusy
        · exact hbusy
    have hmisaligned : Steady t misaligned := hread.trans (.ite (steady_putNote read ..))
    split
    · exact hmisaligned.ends
    · exact hmisaligned.drops
    · exact hmisaligned.then_ends (ends_onFrame misaligned identity _ draw now)

/-- The transport failing is a teardown. -/
theorem ends_transportFailed (now : UInt32) : Ends now t (t.transportFailed now) :=
  Steady.drops (.of_helper (rate_noteStarted t.h now) (busy_noteStarted t.h now))

/-! ## The tick -/

/-- Telling the state that was put off. -/
theorem steady_tickDeferred (now : UInt32) : Steady t (t.tickDeferred now) := by
  unfold tickDeferred
  split
  · exact .ite (Steady.after (steady_setState _ _) rfl rfl)
  · exact .ite (steady_setState _ _)

/-- Telling what was not read for too long. -/
theorem steady_tickReadings (now : UInt32) : Steady t (t.tickReadings now) := by
  unfold tickReadings
  extract_lets rated source alerted
  have hrated : Steady t rated := .ite (steady_setState ..)
  have halerted : Steady rated alerted := .ite (Steady.after (steady_setState _ _) rfl rfl)
  exact (hrated.trans halerted).trans (.ite (Steady.after (steady_putNote ..) rfl rfl))

/-- The heartbeat. -/
theorem steady_tickHeartbeat (now : UInt32) : Steady t (t.tickHeartbeat now) := by
  unfold tickHeartbeat
  split
  · split
    · exact .refl t
    · exact Steady.after (steady_send ..) rfl rfl
  · exact .refl t

/-- A tick first closes the windows that are over. -/
theorem ends_tick (draw : Draw) (now : UInt32) :
    ∃ h : Helper, h.rate = t.h.rate.lapse now ∧ h.busy = t.h.busy ∧
      Ends now { t with h := h } (t.tick identity draw now) := by
  unfold tick
  extract_lets started calm woken deferred source sampled beaten
  have hstarted : started.rate = t.h.rate := rate_noteStarted t.h now
  have hstill : started.busy = t.h.busy := busy_noteStarted t.h now
  have hcalm : calm.rate = { started.rate with identityChanged := started.rate.justChanged now } ∧
      calm.busy = started.busy := rate_calm started now
  have hwoken : woken.rate = { calm.rate with hostWoke := calm.rate.justWoke now } ∧
      woken.busy = calm.busy := rate_woken calm now
  have hlapsed : woken.rate = t.h.rate.lapse now := by
    rw [hwoken.1, hcalm.1, hstarted]
    rfl
  refine ⟨woken, hlapsed, hwoken.2.trans (hcalm.2.trans hstill), ?_⟩
  have hdeferred : Steady { t with h := woken } deferred := steady_tickDeferred ..
  refine hdeferred.then_ends ?_
  split
  · split
    · refine Steady.drops ?_
      exact .of_helper rfl rfl
    · exact (Steady.refl deferred).ends
  · split
    · exact (Steady.refl deferred).ends
    · have hsampled : Steady deferred sampled := by
        refine Steady.ite ?_
        exact .of_helper rfl rfl
      split
      · exact hsampled.drops
      · have hbeaten : Steady deferred beaten :=
          hsampled.trans ((steady_tickReadings ..).trans (steady_tickHeartbeat ..))
        exact (hbeaten.trans (.ite (steady_askToPair beaten identity draw now))).ends

/-! ## A teardown -/

/-- Whether the end was on purpose is read off the rate. -/
theorem endedOnPurpose_rate (h : Helper) (note : Note) (a : Int32) (now : UInt32) :
    h.endedOnPurpose note a now = h.rate.endedOnPurpose note a now := by
  unfold Helper.endedOnPurpose Rate.endedOnPurpose Rate.justChanged
  rw [Bool.and_assoc]
  rfl

/-- What `drop_connection` does to the rings. -/
theorem rate_counted (h : Helper) (note : Note) (a : Int32) (now : UInt32) :
    (if (h.recordDrop now).1 && h.standsAlone now && !(h.recordDrop now).2.endedOnPurpose note a now
      then (h.recordDrop now).2.noteSessionLoss now else (h.recordDrop now).2).rate =
      h.rate.tearDown h.busy note a now := by
  rw [recordDrop_eq]
  unfold Rate.tearDown Rate.drop
  cases h.rate.counts h.busy now with
  | false => rfl
  | true =>
      have hlost : ∀ (lost : Bool) (counted : Helper),
          (if lost then counted.noteSessionLoss now else counted).rate =
            if lost then counted.rate.lose now else counted.rate := by
        intro lost counted
        cases lost <;> rfl
      rw [← endedOnPurpose_rate]
      exact hlost (h.rate.standsAlone now && !h.endedOnPurpose note a now)
        { h with recentDrops := pushTime h.recentDrops reconnectLimit now }

/-- A teardown is one of the rate. -/
theorem rate_dropConnection (now : UInt32) (note : Note) (a b : Int32) :
    (t.dropConnection now note a b).h.rate = t.h.rate.tearDown t.h.busy note a now := by
  rw [← rate_counted]
  unfold dropConnection
  refine (steady_retry _).rate.trans ?_
  refine (Steady.ite (steady_reportRepeatedReconnection _ now)).rate.trans ?_
  refine (congrArg Helper.rate (put_h _ _)).trans ?_
  refine (steady_putNote _ note a b).rate.trans ?_
  exact (Steady.ite (steady_putNote _ _ _ _)).rate

/-- The outputs are continued, and what was lost stays lost. -/
structure Extends (t t' : Turn) : Prop where
  items : t.o.items <+: t'.o.items
  overflow : t.o.overflow ≤ t'.o.overflow

/-- Outputs behind outputs. -/
theorem Extends.trans {t t' t'' : Turn} (h : Extends t t') (h' : Extends t' t'') : Extends t t'' :=
  ⟨h.items.trans h'.items, h.overflow.trans h'.overflow⟩

/-- Nothing is put out. -/
theorem Extends.of_outputs {t t' : Turn} (h : t'.o = t.o) : Extends t t' := by
  refine ⟨?_, ?_⟩
  · rw [h]
  · rw [h]

/-- A change of the machine first. -/
theorem Extends.after {h : Helper} {t t'' : Turn} (h' : Extends { t with h := h } t'') :
    Extends t t'' :=
  ⟨h'.items, h'.overflow⟩

/-- A part that may be left out. -/
theorem Extends.ite {t t' : Turn} {p : Prop} [Decidable p] (h : Extends t t') :
    Extends t (if p then t' else t) := by
  split
  · exact h
  · exact .of_outputs rfl

/-- One output. -/
theorem extends_put (item : Output) : Extends t (t.put item) := by
  unfold put
  split
  · exact ⟨List.prefix_rfl, Nat.le_succ _⟩
  · exact ⟨List.prefix_append .., Nat.le_refl _⟩

/-- A state, told or not. -/
theorem extends_setState (next : UserState) : Extends t (t.setState next) := by
  unfold setState
  split
  · exact .of_outputs rfl
  · exact Extends.after (extends_put _ _)

/-- A retry. -/
theorem extends_retry : Extends t t.retry := Extends.after (extends_put _ _)

/-- The word that reconnections repeat. -/
theorem extends_reportRepeatedReconnection (now : UInt32) :
    Extends t (t.reportRepeatedReconnection now) := by
  unfold reportRepeatedReconnection
  split
  · exact .of_outputs rfl
  · refine Extends.trans ?_ (extends_setState _ _)
    split
    · exact extends_put _ _
    · exact .ite (extends_put _ _)

/-- An output that is not lost comes after the others. -/
theorem put_of_fits {item : Output} (hfits : (t.put item).o.overflow = 0) :
    t.o.overflow = 0 ∧ (t.put item).o.items = t.o.items ++ [item] := by
  unfold put at hfits ⊢
  split at hfits
  · cases hfits
  · rename_i hroom
    rw [if_neg hroom]
    exact ⟨hfits, rfl⟩

end Turn

/-- The note that comes right before the channels are closed. -/
def closingNote (items : List Output) : Option (Note × Int32) :=
  if .closeChannels ∈ items then
    match (items.takeWhile (· ≠ .closeChannels)).getLast? with
    | some (.note note a _) => some (note, a)
    | _ => none
  else none

/-- Without the closing of the channels there is no closing note. -/
theorem closingNote_of_open {items : List Output} (hopen : .closeChannels ∉ items) :
    closingNote items = none := if_neg hopen

/-- It is the note right before the channels are closed. -/
theorem closingNote_append {items : List Output} (hopen : .closeChannels ∉ items) (note : Note)
    (a b : Int32) (rest : List Output) :
    closingNote (items ++ .note note a b :: .closeChannels :: rest) = some (note, a) := by
  have hbefore : (items ++ .note note a b :: .closeChannels :: rest).takeWhile
      (· ≠ .closeChannels) = items ++ [.note note a b] := by
    rw [List.takeWhile_append_of_pos]
    · simp
    · intro item hitem
      simp only [ne_eq, decide_eq_true_eq]
      rintro rfl
      exact hopen hitem
  unfold closingNote
  rw [if_pos (by simp), hbefore, List.getLast?_append]
  rfl

namespace Turn

variable (t : Turn)

/-- A teardown puts out its note and closes the channels, and its other outputs come before and
after the two. -/
theorem dropConnection_closes (hopen : .closeChannels ∉ t.o.items) (now : UInt32) (note : Note)
    (a b : Int32) :
    ∃ t₁ : Turn, .closeChannels ∉ t₁.o.items ∧
      Extends ((t₁.putNote note a b).put .closeChannels) (t.dropConnection now note a b) := by
  unfold dropConnection
  refine ⟨_, ?_, Extends.trans (.ite (extends_reportRepeatedReconnection _ now)) (extends_retry _)⟩
  exact (Steady.ite (steady_putNote _ _ _ _)).closes hopen

/-- A teardown shows in the outputs, if none of them is lost. -/
theorem closingNote_dropConnection (hopen : .closeChannels ∉ t.o.items) {now : UInt32} {note : Note}
    {a b : Int32} (hfits : (t.dropConnection now note a b).o.overflow = 0) :
    closingNote (t.dropConnection now note a b).o.items = some (note, a) := by
  obtain ⟨t₁, hopen₁, hextends⟩ := dropConnection_closes t hopen now note a b
  have hclosed : ((t₁.putNote note a b).put .closeChannels).o.overflow = 0 :=
    Nat.eq_zero_of_le_zero (hfits ▸ hextends.overflow)
  obtain ⟨hnoted, hclose⟩ := put_of_fits _ hclosed
  obtain ⟨-, hnote⟩ := put_of_fits t₁ hnoted
  obtain ⟨rest, hrest⟩ := hextends.items
  rw [← hrest, hclose, show (t₁.putNote note a b).o.items = _ from hnote, List.append_assoc,
    List.append_assoc]
  exact closingNote_append hopen₁ note a b rest

/-- What a part of an input that may drop the connection comes to. -/
theorem Ends.outcome {t t' : Turn} {now : UInt32} (h : Ends now t t') (hnothing : t.o = {})
    (hfits : t'.o.overflow = 0) :
    t'.h.rate = t.h.rate.tornDown t.h.busy (closingNote t'.o.items) now := by
  have hopen : .closeChannels ∉ t.o.items := by
    rw [hnothing]
    exact List.not_mem_nil
  rcases h with hquiet | ⟨t₁, note, a, b, hsteady, rfl⟩
  · rw [closingNote_of_open (hquiet.closes hopen)]
    exact hquiet.rate
  · rw [closingNote_dropConnection t₁ (hsteady.closes hopen) hfits, rate_dropConnection,
      hsteady.rate, hsteady.busy]
    rfl

/-! ## What the platform reports -/

/-- A device that leaves is one that leaves the rate. -/
theorem rate_deviceLeft (reason : UserState) (now : UInt32) :
    (t.deviceLeft reason now).h.rate = t.h.rate.leave t.h.busy now := by
  unfold Rate.leave
  rw [← rate_recordDrop]
  unfold deviceLeft
  dsimp only
  split
  · rw [put_h]
    rfl
  · rfl

/-- It takes the config mode with it. -/
theorem rate_deviceDisappeared (now : UInt32) :
    (t.deviceDisappeared now).h.rate =
      { t.h.rate.leave t.h.busy now with configMode := false } := by
  have hleft := rate_deviceLeft { t with h := t.h.noteStarted now } .deviceAbsent now
  rw [rate_noteStarted, busy_noteStarted] at hleft
  rw [← hleft]
  rfl

/-- A device that appears is one that appears to the rate. -/
theorem rate_deviceAppeared (which : DeviceIdentity) (now : UInt32) :
    (t.deviceAppeared which now).h.rate =
      t.h.rate.appear t.h.holdingChannels t.h.busy which now := by
  have hrate := rate_noteStarted t.h now
  have hbusy := busy_noteStarted t.h now
  have hholding : (t.h.noteStarted now).holdingChannels = t.h.holdingChannels := by
    unfold noteStarted
    split <;> rfl
  unfold deviceAppeared
  rw [← hrate, ← hbusy, ← hholding]
  extract_lets h modeChanged seen left source mode shown changed ended quiet quieter
  show _ = h.rate.appear h.holdingChannels h.busy which now
  have hleft : left.h.rate = if which = .configMode ∨ h.rate.configMode then
      seen.h.rate.leave h.busy now else seen.h.rate := by
    dsimp only [left]
    split
    · rename_i hleaves
      exact (rate_deviceLeft seen _ now).trans (if_pos hleaves).symm
    · rename_i hstays
      exact (if_neg hstays).symm
  have hchanged : changed.h.rate =
      { left.h.rate with
        configMode := which = .configMode
        recentDrops := if modeChanged then [] else left.h.rate.recentDrops
        identityChanged := modeChanged || left.h.rate.identityChanged
        identityChangedAt := if modeChanged then now else left.h.rate.identityChangedAt } := by
    show (if modeChanged then _ else _ : Helper).rate = _
    cases modeChanged <;> rfl
  rw [hleft] at hchanged
  unfold Rate.appear
  split
  · rename_i hholds
    exact (if_pos hholds).symm
  · rename_i hopens
    refine Eq.trans ?_ (if_neg hopens).symm
    split
    · rw [put_h]
      exact hchanged
    · have hquieter : quieter.h.rate = changed.h.rate :=
        (Steady.ite (steady_setState quiet _)).rate
      rw [put_h, hquieter]
      exact hchanged

/-- `dh_helper_host_sleep` on the rate. -/
theorem rate_hostSleep (asleep : Bool) (now : UInt32) :
    (t.hostSleep asleep now).h.rate = t.h.rate.sleep asleep now := by
  unfold hostSleep Rate.sleep
  show _ = { t.h.rate with
    hostWoke := t.h.hostAsleep && !asleep || t.h.hostWoke
    hostWokeAt := if t.h.hostAsleep && !asleep then now else t.h.hostWokeAt
    hostAsleep := asleep }
  cases (t.h.hostAsleep && !asleep) <;> rfl

/-! ## Acquisition -/

/-- Channels that are refused leave the rate alone. -/
theorem rate_acquisitionRefused (acquired total : UInt8) (now : UInt32) :
    (t.acquisitionRefused acquired total now).h.rate = t.h.rate := by
  rw [← rate_noteStarted t.h now]
  unfold acquisitionRefused
  generalize t.h.noteStarted now = h
  refine (steady_retry _).rate.trans ?_
  dsimp only
  split
  all_goals
    refine (steady_putNote _ _ _ _).rate.trans ?_
    rw [put_h]
    dsimp only
    split <;> rfl

/-- So do channels that are acquired. -/
theorem rate_channelsAcquired (identity : Identity) (count : UInt8) (draw : Draw) (now : UInt32) :
    (t.channelsAcquired identity count draw now).h.rate = t.h.rate := by
  have hstarted := rate_noteStarted { t.h.forgetSession with acquiredChannels := count } now
  unfold channelsAcquired
  extract_lets forgotten started holding source asking hoping
  split
  · refine (steady_askToPair _ identity draw now).rate.trans ?_
    refine (steady_setState _ _).rate.trans ?_
    exact hstarted
  · have hbuilt := (steady_buildHello { t with h := hoping } identity draw).rate
    split
    · rename_i t' hresult
      rw [hresult] at hbuilt
      exact (rate_acquisitionRefused t' 0 0 now).trans (hbuilt.trans hstarted)
    · rename_i bytes t' hresult
      rw [hresult] at hbuilt
      have hsent : ({ t' with h := { t'.h with haveDeferred := false } }.send bytes).h.rate =
          t.h.rate := by
        rw [send, put_h]
        exact hbuilt.trans hstarted
      exact (Steady.ite (steady_askAgain _ identity draw now)).rate.trans hsent

/-- So does a frame sent. -/
theorem rate_noteSent (now : UInt32) : (t.noteSent now).h.rate = t.h.rate := by
  rw [← rate_noteStarted t.h now]
  unfold noteSent
  dsimp only
  split <;> rfl

end Turn

/-! ## An input -/

/-- The input may tear the connection down. -/
def Event.mayTearDown : Event → Bool
  | .received _ _ _ => true
  | .transportFailed => true
  | .tick _ => true
  | _ => false

/-- The platform reports the device or the host. -/
def Event.reports : Event → Bool
  | .deviceAppeared _ => true
  | .deviceDisappeared => true
  | .hostSleep _ => true
  | _ => false

/-- The note of the teardown an input causes, if it causes one. -/
def tearsDown (identity : Identity) (h : Helper) (now : UInt32) (event : Event) :
    Option (Note × Int32) :=
  if event.mayTearDown then closingNote (h.handle identity now event).o.items else none

/-- What the platform reports tears nothing down. -/
theorem tearsDown_of_reports (identity : Identity) (h : Helper) (now : UInt32) {event : Event}
    (hreports : event.reports = true) : h.tearsDown identity now event = none := by
  refine if_neg ?_
  cases event with
  | deviceAppeared | deviceDisappeared | hostSleep => exact Bool.false_ne_true
  | _ => cases hreports

/-- Nothing but a teardown and what the platform reports changes the rings, and a tick closes the
windows that are over. -/
theorem rate_handle (identity : Identity) (h : Helper) (now : UInt32) {event : Event}
    (hreports : event.reports = false) :
    ∃ r, (r = h.rate ∨ r = h.rate.lapse now) ∧
      (h.handle identity now event).h.rate =
        r.tornDown h.busy (h.tearsDown identity now event) now := by
  have hfits := (handle_fits identity h now event).2
  by_cases hmay : event.mayTearDown = true
  · have htears : h.tearsDown identity now event =
        closingNote (h.handle identity now event).o.items := if_pos hmay
    rw [htears]
    cases event with
    | received channel data draw =>
        have hends :
            Turn.Ends now { h := h } (h.handle identity now (.received channel data draw)) :=
          Turn.ends_receivedChannel { h := h } identity channel data draw now
        exact ⟨h.rate, .inl rfl, hends.outcome rfl hfits⟩
    | transportFailed =>
        have hends : Turn.Ends now { h := h } (h.handle identity now .transportFailed) :=
          Turn.ends_transportFailed { h := h } now
        exact ⟨h.rate, .inl rfl, hends.outcome rfl hfits⟩
    | tick draw =>
        obtain ⟨h', hlapsed, hbusy, hends⟩ := Turn.ends_tick { h := h } identity draw now
        refine ⟨h.rate.lapse now, .inr rfl, ?_⟩
        have hends : Turn.Ends now { h := h' } (h.handle identity now (.tick draw)) := hends
        have houtcome := hends.outcome rfl hfits
        rw [hlapsed, hbusy] at houtcome
        exact houtcome
    | _ => cases hmay
  · have hnone : h.tearsDown identity now event = none := if_neg hmay
    rw [hnone]
    refine ⟨h.rate, .inl rfl, ?_⟩
    cases event with
    | channelsAcquired count draw =>
        exact Turn.rate_channelsAcquired { h := h } identity count draw now
    | acquisitionRefused acquired total =>
        exact Turn.rate_acquisitionRefused { h := h } acquired total now
    | noteSent => exact Turn.rate_noteSent { h := h } now
    | noteSendRefused => rfl
    | received | transportFailed | tick => exact absurd rfl hmay
    | deviceAppeared | deviceDisappeared | hostSleep => cases hreports

/-- So does a frame built. -/
theorem rate_emit (h : Helper) (type flags : UInt8) (body : List UInt8) (cap : Nat) :
    (h.emit type flags body cap).2.rate = h.rate := by
  unfold emit
  split
  · rfl
  · split <;> rfl

end DeskhopPlus.Helper
