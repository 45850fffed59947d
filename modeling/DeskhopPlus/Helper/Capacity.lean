import DeskhopPlus.Helper.Machine

/-!
# How much one input puts out

The outputs of an input go into `outputsMax` slots, and what finds no slot is counted and lost.
`Puts count` says of a part of an input that it takes up `count` slots at most and loses nothing
while there is room for them. Parts one after the other add up, and `handle_puts` is the sum for the
longest path there is: a report that is misaligned and ends the session.
-/

namespace DeskhopPlus.Helper

open Bytes Wire Auth Crypto Board

/-- At most `count` more outputs, and none of them lost while there is room for `count`. -/
structure Puts (count : Nat) (t t' : Turn) : Prop where
  length_le : t'.o.items.length ≤ t.o.items.length + count
  overflow_eq : t.o.items.length + count ≤ outputsMax → t'.o.overflow = t.o.overflow

namespace Puts

variable {count more : Nat} {t t' t'' : Turn}

/-- Nothing is put out. -/
theorem refl (t : Turn) : Puts 0 t t := ⟨Nat.le_refl _, fun _ ↦ rfl⟩

/-- A change of the machine alone. -/
theorem of_outputs (h : t'.o = t.o) : Puts 0 t t' := by
  refine ⟨?_, fun _ ↦ ?_⟩
  · rw [h]
    exact Nat.le_refl _
  · rw [h]

/-- More slots may be allowed for. -/
theorem mono (h : Puts count t t') (hle : count ≤ more) : Puts more t t' where
  length_le := h.length_le.trans (Nat.add_le_add_left hle _)
  overflow_eq hroom := h.overflow_eq ((Nat.add_le_add_left hle _).trans hroom)

/-- One part after the other. -/
theorem trans (h : Puts count t t') (h' : Puts more t' t'') : Puts (count + more) t t'' := by
  have hlength := h.length_le
  have hlength' := h'.length_le
  refine ⟨by omega, fun hroom ↦ ?_⟩
  rw [h'.overflow_eq (by omega), h.overflow_eq (by omega)]

/-- Two ways a part may go, one after the other part. -/
theorem ite_of {p : Prop} [Decidable p] {first second : Turn} (h : p → Puts count t first)
    (h' : ¬p → Puts count t second) : Puts count t (if p then first else second) := by
  split
  · exact h ‹_›
  · exact h' ‹_›

/-- A part that may be skipped. -/
theorem ite {p : Prop} [Decidable p] (h : Puts count t t') :
    Puts count t (if p then t' else t) :=
  ite_of (fun _ ↦ h) fun _ ↦ (refl t).mono (Nat.zero_le _)

/-- The machine is changed before the part. -/
theorem after {h : Helper} (h' : Puts count { t with h := h } t'') : Puts count t t'' where
  length_le := h'.length_le
  overflow_eq := h'.overflow_eq

/-- Nothing is put out. -/
theorem none_of (h : t'.o = t.o) : Puts count t t' := (of_outputs h).mono (Nat.zero_le _)

end Puts

namespace Turn

variable (t : Turn) (identity : Identity)

/-- One output takes one slot. -/
theorem puts_put (item : Output) : Puts 1 t (t.put item) := by
  unfold put
  split
  · refine ⟨Nat.le_succ _, fun hroom ↦ ?_⟩
    omega
  · exact ⟨by simp, fun _ ↦ rfl⟩

/-- So does a note. -/
theorem puts_putNote (note : Note) (a b : Int32) : Puts 1 t (t.putNote note a b) := puts_put t _

/-- So does a frame. -/
theorem puts_send (bytes : List UInt8) : Puts 1 t (t.send bytes) := puts_put t _

/-- A state that is another one is told. -/
theorem puts_setState (next : UserState) : Puts 1 t (t.setState next) := by
  unfold setState
  split
  · exact .none_of rfl
  · exact (puts_put _ _).after

/-- A retry is one output. -/
theorem puts_retry : Puts 1 t t.retry := (puts_put _ _).after

/-- A reconnection that repeats is noted and told. -/
theorem puts_reportRepeatedReconnection (now : UInt32) :
    Puts 2 t (t.reportRepeatedReconnection now) := by
  unfold reportRepeatedReconnection
  split
  · exact .none_of rfl
  · suffices hnotes : Puts 1 t _ from hnotes.trans (puts_setState _ _)
    refine .ite_of (fun _ ↦ puts_putNote ..) fun _ ↦ ?_
    exact .ite (puts_putNote ..)

/-- A teardown: two notes, the closing of the channels, the rate with its note, and a retry. -/
theorem puts_dropConnection (now : UInt32) (note : Note) (a b : Int32) :
    Puts 6 t (t.dropConnection now note a b) := by
  unfold dropConnection
  refine Puts.trans (?_ : Puts 5 t _) (puts_retry _)
  refine Puts.trans (?_ : Puts 3 t _) (Puts.ite (puts_reportRepeatedReconnection _ now))
  refine Puts.trans (?_ : Puts 1 t _) (Puts.after ((puts_putNote ..).trans (puts_put _ _)))
  exact Puts.after (Puts.ite (puts_putNote ..))

/-- A hello that cannot be built is noted. -/
theorem puts_buildHello (draw : Draw) : Puts 1 t (t.buildHello identity draw).2 := by
  unfold buildHello
  dsimp only
  split
  · exact (puts_putNote _ ..).after
  · split
    · exact (puts_putNote _ ..).after
    · exact .none_of rfl

/-- A pair request is only built. -/
theorem puts_buildPairRequest (draw : Draw) (now : UInt32) :
    Puts 0 t (t.buildPairRequest identity draw now).2 := by
  unfold buildPairRequest
  dsimp only
  split
  · exact .refl t
  · exact .of_outputs rfl

/-- It is sent. -/
theorem puts_askToPair (draw : Draw) (now : UInt32) : Puts 1 t (t.askToPair identity draw now) := by
  have hbuilt := puts_buildPairRequest t identity draw now
  unfold askToPair
  cases hrequest : t.buildPairRequest identity draw now with
  | mk bytes t' =>
      rw [hrequest] at hbuilt
      cases bytes with
      | none => exact hbuilt.mono (Nat.zero_le _)
      | some bytes => exact hbuilt.trans (puts_send t' bytes)

/-- That the device left is told. -/
theorem puts_deviceLeft (reason : UserState) (now : UInt32) :
    Puts 1 t (t.deviceLeft reason now) := by
  unfold deviceLeft
  dsimp only
  split
  · exact (puts_put _ _).after
  · exact .none_of rfl

/-- A device that appears is noted, told and its channels asked for. -/
theorem puts_deviceAppeared (which : DeviceIdentity) (now : UInt32) :
    Puts 3 t (t.deviceAppeared which now) := by
  unfold deviceAppeared
  extract_lets h modeChanged seen left source mode shown changed ended quiet quieter
  have hleft : Puts 1 seen left := Puts.ite (puts_deviceLeft seen ..)
  have hchanged : Puts 1 t changed := ⟨hleft.length_le, hleft.overflow_eq⟩
  split
  · exact .none_of rfl
  · split
    · exact (hchanged.trans (Puts.after (puts_put _ _) : Puts 1 changed _)).mono (by omega)
    · have hquieter : Puts 1 changed quieter := Puts.after (Puts.ite (puts_setState quiet _))
      exact (hchanged.trans hquieter).trans (puts_put quieter _)

/-- One that disappears is told. -/
theorem puts_deviceDisappeared (now : UInt32) : Puts 1 t (t.deviceDisappeared now) := by
  have hleft : Puts 1 t _ := (puts_deviceLeft { t with h := t.h.noteStarted now } .deviceAbsent
    now).after
  exact ⟨hleft.length_le, hleft.overflow_eq⟩

/-- Channels that are refused are noted, told and tried again. -/
theorem puts_acquisitionRefused (acquired total : UInt8) (now : UInt32) :
    Puts 3 t (t.acquisitionRefused acquired total now) := by
  unfold acquisitionRefused
  refine Puts.trans (?_ : Puts 2 t _) (puts_retry _)
  dsimp only
  split
  · exact Puts.after ((puts_put _ _).trans (puts_putNote ..))
  · exact Puts.after ((puts_put _ _).trans (puts_putNote ..))

/-- A request that goes with a hello, with its note. -/
theorem puts_askAgain (draw : Draw) (now : UInt32) :
    Puts 2 t (match t.buildPairRequest identity draw now with
      | (none, t) => t
      | (some bytes, t) => (t.putNote .askingToBePaired 0 0).send bytes) := by
  have hbuilt := puts_buildPairRequest t identity draw now
  split
  · rename_i t' hresult
    rw [hresult] at hbuilt
    exact hbuilt.mono (Nat.zero_le _)
  · rename_i bytes t' hresult
    rw [hresult] at hbuilt
    exact hbuilt.trans ((puts_putNote t' ..).trans (puts_send _ bytes))

/-- Channels that are acquired are noted, and a hello or a request goes out. -/
theorem puts_channelsAcquired (count : UInt8) (draw : Draw) (now : UInt32) :
    Puts 4 t (t.channelsAcquired identity count draw now) := by
  unfold channelsAcquired
  extract_lets forgotten started holding source asking hoping
  split
  · have hshown : Puts 1 t ({ t with h := asking }.setState .notPaired) := (puts_setState _ _).after
    exact (hshown.trans (puts_askToPair _ identity draw now)).mono (by omega)
  · have hbuilt : Puts 1 t (buildHello identity { t with h := hoping } draw).2 :=
      (puts_buildHello { t with h := hoping } identity draw).after
    split
    · rename_i t' hresult
      rw [hresult] at hbuilt
      exact hbuilt.trans (puts_acquisitionRefused t' 0 0 now)
    · rename_i bytes t' hresult
      rw [hresult] at hbuilt
      refine hbuilt.trans (Puts.trans (?_ : Puts 1 t' _)
        (Puts.ite (puts_askAgain _ identity draw now)))
      exact (puts_send _ bytes).after

/-! ## The answers to a hello -/

/-- An ack is noted, and the session told. -/
theorem puts_acceptAck (keys : List UInt8 × List UInt8) (rx : AuthCounter) (ack : HelloAck)
    (now : UInt32) : Puts 3 t (t.acceptAck keys rx ack now) := by
  unfold acceptAck
  extract_lets keyed source live noted
  have hnoted : Puts 1 t noted := Puts.after (Puts.ite (puts_putNote live ..))
  split
  · exact hnoted.trans (puts_reportRepeatedReconnection ..)
  · exact (hnoted.trans (puts_setState ..)).mono (by omega)

/-- A note is no more than a teardown puts out. -/
theorem puts_noted (note : Note) (a b : Int32) : Puts 6 t (t.putNote note a b) :=
  (puts_putNote t note a b).mono (by omega)

/-- What an ack may put out, the end of the session before it included. -/
theorem puts_onHelloAck (view : FrameView) (now : UInt32) :
    Puts 6 t (t.onHelloAck identity view now) := by
  unfold onHelloAck
  split
  · exact puts_noted ..
  · split
    · exact puts_dropConnection ..
    · split
      · exact puts_dropConnection ..
      · split
        · exact puts_dropConnection ..
        · split
          · exact puts_dropConnection ..
          · dsimp only
            split
            · exact puts_dropConnection ..
            · split
              · exact puts_dropConnection ..
              · split
                · exact puts_noted ..
                · split
                  · exact puts_dropConnection ..
                  · exact (puts_acceptAck ..).mono (by omega)

/-- What a refusal may put out. -/
theorem puts_onHelloRefused (view : FrameView) (now : UInt32) :
    Puts 6 t (t.onHelloRefused view now) := by
  unfold onHelloRefused
  split
  · exact puts_noted ..
  · split
    · exact puts_dropConnection ..
    · split
      · exact puts_dropConnection ..
      · split
        · exact puts_noted ..
        · dsimp only
          split
          · exact ((puts_setState _ _).mono (by omega)).after
          · refine Puts.mono (Puts.trans (?_ : Puts 1 t _) (puts_setState _ _).after) (by omega)
            exact (puts_putNote ..).after

/-! ## Pairing -/

/-- What a grant may put out: the key to store, and a hello. -/
theorem puts_onPairGrant (view : FrameView) (draw : Draw) (now : UInt32) :
    Puts 4 t (t.onPairGrant identity view draw now) := by
  unfold onPairGrant
  split
  · exact (puts_putNote ..).mono (by omega)
  · split
    · exact (puts_putNote ..).mono (by omega)
    · split
      · exact (puts_putNote ..).mono (by omega)
      · split
        · exact (Puts.after ((puts_putNote ..).trans (puts_setState ..))).mono (by omega)
        · extract_lets previous hadKey source pinned
          have hbuilt : Puts 1 t (pinned.buildHello identity draw).2 :=
            (puts_buildHello pinned identity draw).after
          split
          · rename_i t' hresult
            rw [hresult] at hbuilt
            exact ⟨hbuilt.length_le.trans (by omega), fun hroom ↦ hbuilt.overflow_eq (by omega)⟩
          · rename_i bytes t' hresult
            rw [hresult] at hbuilt
            refine hbuilt.trans (Puts.trans (?_ : Puts 2 t' _) (puts_send _ bytes))
            exact Puts.after ((puts_put _ _).trans (puts_putNote ..))

/-- A refusal of a request is told. -/
theorem puts_onPairRefused (view : FrameView) : Puts 1 t (t.onPairRefused view) := by
  unfold onPairRefused
  split
  · exact puts_putNote ..
  · split
    · exact puts_putNote ..
    · split
      · exact puts_putNote ..
      · exact .ite_of (fun _ ↦ puts_putNote ..) fun _ ↦ puts_putNote ..

/-! ## Session traffic -/

/-- A beat of the device is noted. -/
theorem puts_onDeviceBeat (view : FrameView) (now : UInt32) :
    Puts 1 t (t.onDeviceBeat view now) := by
  unfold onDeviceBeat
  split
  · exact puts_putNote ..
  · dsimp only
    split
    · exact (puts_putNote ..).after
    · split
      · exact .none_of rfl
      · exact (puts_putNote ..).after

/-- A session end: what the board was silent for, what it counted, what was sent, and the
teardown. -/
theorem puts_onSessionEnd (view : FrameView) (body : List UInt8) (now : UInt32) :
    Puts 11 t (t.onSessionEnd view body now) := by
  unfold onSessionEnd
  split
  · exact (puts_putNote ..).mono (by omega)
  · extract_lets reason silent drops noted told counted
    have hsilent : Puts 1 t silent := .ite (puts_putNote ..)
    have hnoted : Puts 2 silent noted := (puts_putNote ..).trans (puts_putNote ..)
    have htold : Puts 3 silent told := .ite (hnoted.trans (.ite (puts_putNote ..)))
    have hcounted : Puts 1 told counted := puts_putNote ..
    exact ((hsilent.trans htold).trans hcounted).trans (puts_dropConnection counted ..)

/-- The policy is noted and told. -/
theorem puts_onClipPolicy (view : FrameView) (body : List UInt8) :
    Puts 2 t (t.onClipPolicy view body) := by
  unfold onClipPolicy
  split
  · exact (puts_putNote ..).mono (by omega)
  · exact Puts.after ((puts_put _ _).trans (puts_putNote ..))

/-- A reading of the drops is noted. -/
theorem puts_onDeviceDrops (view : FrameView) (body : List UInt8) :
    Puts 1 t (t.onDeviceDrops view body) := by
  unfold onDeviceDrops
  split
  · exact puts_putNote ..
  · exact .none_of rfl

/-- An alert is noted and told. -/
theorem puts_onListenerAlert (view : FrameView) (body : List UInt8) (now : UInt32) :
    Puts 2 t (t.onListenerAlert view body now) := by
  unfold onListenerAlert
  split
  · exact (puts_putNote ..).mono (by omega)
  · exact Puts.after ((puts_putNote ..).trans (puts_setState ..))

/-! ## Dispatching -/

/-- The most a frame of the session may put out. -/
theorem puts_onVerified (view : FrameView) (body : List UInt8) (now : UInt32) :
    Puts 11 t (t.onVerified view body now) := by
  unfold onVerified
  extract_lets source heard beaten heardTurn
  split
  · exact (puts_onSessionEnd heardTurn view body now).after
  · split
    · exact (Puts.after (puts_onDeviceBeat heardTurn view now)).mono (by omega)
    · split
      · exact (Puts.after (puts_onListenerAlert heardTurn view body now)).mono (by omega)
      · split
        · exact (Puts.after (puts_onClipPolicy heardTurn view body)).mono (by omega)
        · split
          · exact (Puts.after (puts_onDeviceDrops heardTurn view body)).mono (by omega)
          · exact .none_of rfl

/-- A frame that does not verify ends the session. -/
theorem puts_onAuthenticated (view : FrameView) (now : UInt32) :
    Puts 11 t (t.onAuthenticated identity view now) := by
  unfold onAuthenticated
  split
  · exact (puts_onHelloAck ..).mono (by omega)
  · split
    · exact (puts_putNote ..).mono (by omega)
    · split
      · split
        · exact (puts_putNote ..).mono (by omega)
        · exact (puts_dropConnection ..).mono (by omega)
      · exact (Puts.after (puts_putNote ..)).mono (by omega)
      · exact (Puts.after (puts_putNote ..)).mono (by omega)
      · exact (puts_onVerified ..).after

/-- A frame outside the session. -/
theorem puts_onUnauthenticated (view : FrameView) (draw : Draw) (now : UInt32) :
    Puts 6 t (t.onUnauthenticated identity view draw now) := by
  unfold onUnauthenticated
  split
  · exact puts_onHelloRefused ..
  · split
    · exact (puts_onPairGrant ..).mono (by omega)
    · exact (Puts.ite (puts_onPairRefused t view)).mono (by omega)

/-- A frame of either kind. -/
theorem puts_onFrame (view : FrameView) (draw : Draw) (now : UInt32) :
    Puts 11 t (t.onFrame identity view draw now) := by
  unfold onFrame
  split
  · exact puts_onAuthenticated ..
  · exact (puts_onUnauthenticated ..).mono (by omega)

/-- A report may be misaligned as well. -/
theorem puts_receivedChannel (channel : UInt8) (data : List UInt8) (draw : Draw) (now : UInt32) :
    Puts 12 t (t.receivedChannel identity channel data draw now) := by
  unfold receivedChannel
  split
  · exact .none_of rfl
  · extract_lets h before
    split
    rename_i rc reader hreport
    extract_lets read misaligned
    have hread : Puts 1 t misaligned := Puts.after (Puts.ite (puts_putNote read ..))
    split
    · exact hread.mono (by omega)
    · exact (hread.trans (puts_dropConnection misaligned ..)).mono (by omega)
    · exact hread.trans (puts_onFrame misaligned ..)

/-! ## The tick -/

/-- A state that was put off is told. -/
theorem puts_tickDeferred (now : UInt32) : Puts 1 t (t.tickDeferred now) := by
  unfold tickDeferred
  split
  · exact .ite (puts_setState ..).after
  · exact .ite (puts_setState ..)

/-- What has not been read for too long is told. -/
theorem puts_tickReadings (now : UInt32) : Puts 3 t (t.tickReadings now) := by
  unfold tickReadings
  extract_lets rated source alerted
  have hrated : Puts 1 t rated := .ite (puts_setState ..)
  have halerted : Puts 1 rated alerted := .ite (puts_setState ..).after
  exact (hrated.trans halerted).trans (Puts.ite (puts_putNote _ ..).after)

/-- The heartbeat is one frame. -/
theorem puts_tickHeartbeat (now : UInt32) : Puts 1 t (t.tickHeartbeat now) := by
  unfold tickHeartbeat
  split
  · split
    · exact .none_of rfl
    · exact (puts_send ..).after
  · exact .none_of rfl

/-- The parts of a tick together. -/
theorem puts_tick (draw : Draw) (now : UInt32) : Puts 7 t (t.tick identity draw now) := by
  unfold tick
  extract_lets started calm woken deferred source sampled beaten
  have hdeferred : Puts 1 t deferred := (puts_tickDeferred ..).after
  split
  · split
    · exact hdeferred.trans (puts_dropConnection ..).after
    · exact hdeferred.mono (by omega)
  · split
    · exact hdeferred.mono (by omega)
    · have hsampled : Puts 0 deferred sampled := .ite (.none_of rfl)
      split
      · exact (hdeferred.trans hsampled).trans (puts_dropConnection ..)
      · have hbeaten : Puts 4 sampled beaten :=
          (puts_tickReadings ..).trans (puts_tickHeartbeat ..)
        have hread : Puts 5 t beaten := (hdeferred.trans hsampled).trans hbeaten
        split
        · exact (hread.trans (puts_askToPair beaten identity draw now)).mono (by omega)
        · exact hread.mono (by omega)

end Turn

/-- What an input puts out fits, whatever the state it meets. -/
theorem handle_fits (identity : Identity) (h : Helper) (now : UInt32) (event : Event) :
    (h.handle identity now event).o.items.length ≤ outputsMax ∧
      (h.handle identity now event).o.overflow = 0 := by
  have hputs : Puts 12 { h := h } (h.handle identity now event) := by
    cases event with
    | deviceAppeared which => exact (Turn.puts_deviceAppeared ..).mono (by omega)
    | deviceDisappeared => exact (Turn.puts_deviceDisappeared ..).mono (by omega)
    | hostSleep asleep => exact .none_of rfl
    | channelsAcquired count draw => exact (Turn.puts_channelsAcquired ..).mono (by omega)
    | acquisitionRefused acquired total =>
        exact (Turn.puts_acquisitionRefused ..).mono (by omega)
    | received channel data draw => exact Turn.puts_receivedChannel ..
    | transportFailed => exact (Puts.after (Turn.puts_dropConnection ..)).mono (by omega)
    | noteSent => exact .none_of rfl
    | noteSendRefused => exact .none_of rfl
    | tick draw => exact (Turn.puts_tick ..).mono (by omega)
  have hroom : 0 + 12 ≤ outputsMax := by decide
  exact ⟨hputs.length_le.trans hroom, hputs.overflow_eq hroom⟩

end DeskhopPlus.Helper
