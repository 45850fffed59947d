import DeskhopPlus.Board.Beat

/-!
# The pairing window over a whole run

The window is opened by the pair chord or a wipe and closed by its own minute or by the first
registration, each of which reads the clock in a place of its own. `Windowed` runs the board under
its clock beside the time of the last opening and the registrations made since; `SingleShot` says
what a pairing request may do, and `pairing_single_shot` that no request ever does more.
-/

namespace DeskhopPlus.Board

open Wire Auth Crypto Runs Session Clock

namespace Lifecycle

/-- The pairing request that a turn of `drain_reports` hands on. -/
def pairFrame (c : Lifecycle) : Event → Option FrameView
  | .drainReport _ => c.handed.bind fun (_, view, _) ↦
      if view.type = Msg.pairRequest then some view else none
  | _ => none

/-- What a readable pairing request asks for. -/
def pairAsked (c : Lifecycle) (event : Event) : Option PairRequest :=
  (c.pairFrame event).bind fun view ↦ pairRequestDecode view.payload

/-! ## What an event does to the registration -/

section Pair

variable {curve : P256} {c c' : Lifecycle} {now : UInt32}

theorem pair_queue (c : Lifecycle) (frame : List UInt8) (now : UInt32) :
    (c.queue frame now).2.pair = c.pair := rfl

theorem pair_endSession (c : Lifecycle) (reason : EndReason) (now : UInt32) :
    (c.endSession reason now).pair = c.pair := by
  unfold endSession
  generalize c.session.finish reason 0 replyMax = ended
  obtain ⟨rc, session⟩ := ended
  dsimp only
  split
  · rfl
  · rfl
  · exact pair_queue _ _ _

theorem pair_emitPlacement (c : Lifecycle) (type : UInt8) (body : List UInt8) (now : UInt32) :
    (c.emitPlacement type body now).2.pair = c.pair := by
  unfold emitPlacement
  split
  · rfl
  · split
    · rfl
    · exact pair_queue _ _ _

theorem pair_sendPlace (c : Lifecycle) (owed now : UInt32) :
    (c.sendPlace owed now).pair = c.pair := by
  unfold sendPlace
  split
  · rfl
  · split
    · rfl
    · rfl

theorem pair_pumpPlace (c : Lifecycle) (now : UInt32) : (c.pumpPlace now).pair = c.pair := by
  unfold pumpPlace
  extract_lets owed stale settled
  have hsettled : settled.pair = c.pair := by
    show (if stale then _ else c).pair = _
    split <;> rfl
  split
  · exact hsettled
  · split
    · exact hsettled
    · exact (pair_sendPlace ..).trans hsettled

theorem pair_pumpQuery (c : Lifecycle) (now : UInt32) (taken : Bool) :
    (c.pumpQuery now taken).pair = c.pair := by
  have hasked : (c.askCursor now taken).2.pair = c.pair := by
    unfold askCursor
    split
    · rfl
    · exact pair_emitPlacement ..
  unfold pumpQuery
  split
  · rfl
  · exact hasked

theorem pair_pumpArrival (c : Lifecycle) (now : UInt32) : (c.pumpArrival now).pair = c.pair := by
  unfold pumpArrival
  split
  · rfl
  · split
    · rfl
    · exact pair_emitPlacement ..

theorem pair_tellPeerBoard (c : Lifecycle) (live : UInt8) (now : UInt32) :
    (c.tellPeerBoard live now).pair = c.pair := by
  unfold tellPeerBoard
  split
  · rfl
  · exact pair_emitPlacement ..

theorem pair_pumpPeerBoardSession (c : Lifecycle) (now : UInt32) :
    (c.pumpPeerBoardSession now).pair = c.pair := by
  have hjudged : (c.judgePeerBoard now).pair = c.pair := by
    unfold judgePeerBoard
    split <;> rfl
  exact (pair_tellPeerBoard ..).trans hjudged

theorem pair_pumpInbound (c : Lifecycle) (now : UInt32) : (c.pumpInbound now).2.pair = c.pair := by
  unfold pumpInbound
  split
  · rfl
  · unfold tagInbound
    split
    · rfl
    · split
      · rfl
      · exact pair_queue _ _ _

theorem pair_sessionTick (c : Lifecycle) (now : UInt32) : (c.sessionTick now).pair = c.pair := by
  unfold sessionTick
  generalize c.session.tick now replyMax = ticked
  obtain ⟨rc, session⟩ := ticked
  dsimp only
  split
  · rfl
  · rfl
  · rfl

/-- A frame that is no pairing request leaves the registration alone. -/
theorem pair_onFrame {index : Nat} {view : FrameView} (hother : view.type ≠ Msg.pairRequest) :
    (c.onFrame curve index view now).pair = c.pair := by
  unfold onFrame
  split
  · split
    · rfl
    · dsimp only
      split <;> rfl
  · have hpair : (c.session.onFrame curve c.pair view now replyMax).2.2 = c.pair := by
      unfold Session.onFrame
      split
      · rfl
      · split <;> rfl
    unfold channelOnFrame
    generalize c.session.onFrame curve c.pair view now replyMax = answer at hpair
    obtain ⟨rc, session, pair⟩ := answer
    dsimp only at hpair ⊢
    split
    · exact hpair
    · exact hpair
    · rw [pair_queue]
      split
      · exact hpair
      · exact hpair

/-- A pairing request does to the registration what `dh_pair_register` does, and charges the idle
timer of the session for an answer that is queued. -/
theorem onFrame_pairRequest {index : Nat} {view : FrameView} (htype : view.type = Msg.pairRequest) :
    (c.onFrame curve index view now).pair =
        (pairRequestDecode view.payload).elim c.pair
          (fun request ↦ (c.pair.register curve now request.helperPublic).2) ∧
      ((c.onFrame curve index view now).session = c.session ∨
        (c.onFrame curve index view now).session = c.session.noteSent now) := by
  have hhere : authenticatesHere view.type = false := by
    rw [htype]
    decide
  have hreply : c.session.onFrame curve c.pair view now replyMax =
      ((answerPairRequest curve c.pair view now replyMax).1, c.session,
        (answerPairRequest curve c.pair view now replyMax).2) := by
    unfold Session.onFrame
    rw [if_neg (by rw [htype]; decide), if_pos htype]
  have hpair : (answerPairRequest curve c.pair view now replyMax).2 =
      (pairRequestDecode view.payload).elim c.pair
        (fun request ↦ (c.pair.register curve now request.helperPublic).2) := by
    unfold answerPairRequest
    cases pairRequestDecode view.payload with
    | none => rfl
    | some request =>
        dsimp only [Option.elim]
        split <;> simp_all
  -- the answer is a grant or a refusal, so the queues are not emptied for it
  have hnoAck : ∀ rest, (answerPairRequest curve c.pair view now replyMax).1 ≠
      .ok (Msg.helloAck :: rest) := by
    intro rest hack
    have huntagged := answerPairRequest_untagged hack
    revert huntagged
    decide
  unfold onFrame
  rw [if_neg (by simp [hhere])]
  unfold channelOnFrame
  rw [hreply]
  dsimp only
  generalize answerPairRequest curve c.pair view now replyMax = answer at hpair hnoAck
  obtain ⟨rc, pair⟩ := answer
  dsimp only at hpair hnoAck ⊢
  split
  · exact ⟨hpair, .inl rfl⟩
  · exact ⟨hpair, .inl rfl⟩
  · rename_i type rest
    rw [if_neg (fun h ↦ hnoAck rest (by rw [h]))]
    refine ⟨(pair_queue ..).trans hpair, ?_⟩
    simp only [queue, track]
    split
    · exact .inr rfl
    · exact .inl rfl

/-- A turn of `drain_reports` does to the registration what the request it hands on asks for. -/
theorem pair_drainReport (c : Lifecycle) (now : UInt32) :
    (c.drainReport curve now).2.pair = (c.pairAsked (.drainReport now)).elim c.pair
      (fun request ↦ (c.pair.register curve now request.helperPublic).2) := by
  cases hhanded : c.handed with
  | none =>
      have hasked : c.pairAsked (.drainReport now) = none := by simp [pairAsked, pairFrame, hhanded]
      rw [hasked]
      show _ = c.pair
      have hread : ∀ {rc : Except FrameFault FrameView} {index : Nat} {c' : Lifecycle},
          c.takeReport = some (rc, index, c') → c'.pair = c.pair := by
        intro rc index c' htake
        rw [takeReport_rest htake]
      unfold handed at hhanded
      unfold drainReport
      split
      · rfl
      · rename_i htake
        exact hread htake
      · rename_i htake
        exact (pair_endSession ..).trans (hread htake)
      · rename_i htake
        rw [htake] at hhanded
        dsimp only at hhanded ⊢
        split at hhanded
        · cases hhanded
        · rename_i hkept
          rw [if_neg hkept]
          exact hread htake
  | some handed =>
      obtain ⟨index, view, c'⟩ := handed
      rw [drainReport_handed now hhanded]
      have hpair : c'.pair = c.pair := by rw [handed_rest hhanded]
      by_cases htype : view.type = Msg.pairRequest
      · have hasked : c.pairAsked (.drainReport now) = pairRequestDecode view.payload := by
          simp [pairAsked, pairFrame, hhanded, htype]
        rw [hasked, (onFrame_pairRequest htype).1, hpair]
      · have hasked : c.pairAsked (.drainReport now) = none := by
          simp [pairAsked, pairFrame, hhanded, htype]
        rw [hasked, pair_onFrame htype, hpair]
        rfl

/-- A pairing request leaves the session as it was, but for the idle timer that its answer
charges. -/
theorem session_drainReport {view : FrameView}
    (hframe : c.pairFrame (.drainReport now) = some view) :
    (c.drainReport curve now).2.session = c.session ∨
      (c.drainReport curve now).2.session = c.session.noteSent now := by
  cases hhanded : c.handed with
  | none =>
      rw [pairFrame, hhanded] at hframe
      cases hframe
  | some handed =>
      obtain ⟨index, shown, c'⟩ := handed
      have htype : shown.type = Msg.pairRequest := by
        rw [pairFrame, hhanded] at hframe
        by_contra hother
        simp [hother] at hframe
      rw [drainReport_handed now hhanded]
      have hsession : c'.session = c.session := by rw [handed_rest hhanded]
      rw [← hsession]
      exact (onFrame_pairRequest htype).2

/-- What each event does to the registration and its window. -/
theorem pair_step (c : Lifecycle) (event : Event) :
    (c.step curve event).pair =
      match event with
      | .drainReport now => (c.pairAsked (.drainReport now)).elim c.pair
          (fun request ↦ (c.pair.register curve now request.helperPublic).2)
      | .pairTick now => c.pair.tick now
      | .openPairingWindow now => c.pair.openWindow now
      | .configWiped now => c.pair.clearRegistration.openWindow now
      | _ => c.pair := by
  cases event with
  | drainReport now => exact pair_drainReport c now
  | pumpPlace now => exact pair_pumpPlace c now
  | pumpQuery now taken => exact pair_pumpQuery c now taken
  | pumpArrival now => exact pair_pumpArrival c now
  | pumpPeerBoardSession now => exact pair_pumpPeerBoardSession c now
  | pumpInbound now => exact pair_pumpInbound c now
  | sessionTick now => exact pair_sessionTick c now
  | configWiped now =>
      show (c.endSession .unpaired now).pair.clearRegistration.openWindow now = _
      rw [pair_endSession]
  | receiveReport index buffer =>
      show (c.receiveChannelReport index buffer).pair = c.pair
      unfold receiveChannelReport
      split
      · rfl
      · dsimp only
        split <;> rfl
  | stageNonce nonce =>
      show (c.stageNonce nonce).pair = c.pair
      unfold stageNonce
      split <;> rfl
  | owePlace body queryId now =>
      show (c.owePlace body queryId now).pair = c.pair
      unfold owePlace
      split <;> rfl
  | queryCursor origin queryId =>
      show (c.queryCursor origin queryId).pair = c.pair
      unfold queryCursor
      split
      · rfl
      · split <;> rfl
  | peerPacket packet =>
      show (c.peerPacket packet).pair = c.pair
      unfold peerPacket
      split <;> rfl
  | pumpRelay taken =>
      show (c.pumpRelay taken).2.pair = c.pair
      unfold pumpRelay
      split
      · rfl
      · split <;> rfl
  | pumpOut index taken =>
      show (c.pumpOut index taken).pair = c.pair
      unfold pumpOut
      split
      · rfl
      · split <;> rfl
  | pairTick now => rfl
  | openPairingWindow now => rfl
  | saveRegistration => rfl
  | updateConfig clipFlags capMb => rfl
  | relayYield => rfl
  | linkLost => rfl
  | arrive role newOutput => rfl
  | peerBoardHeartbeat helperSession => rfl

end Pair

end Lifecycle

/-! ## The board under its clock -/

/-- The day that two steps of the channel are less than apart. -/
def dayMs : Nat := 24 * 60 * 60 * 1000

/-- A board under its clock: the times of the last event and of the last tick of the window, the
time the window was last opened, and the registrations that requests made since. -/
structure Windowed where
  board : Lifecycle
  clock : Nat
  ticked : Nat
  opened : Option Nat
  granted : Nat

/-- The event opens the window. -/
def Event.opensWindow : Event → Bool
  | .openPairingWindow _ => true
  | .configWiped _ => true
  | _ => false

/-- The event ticks the window. -/
def Event.ticksWindow : Event → Bool
  | .pairTick _ => true
  | _ => false

namespace Windowed

variable (curve : P256)

/-- The event hands on a request that is granted. -/
def grants (w : Windowed) (e : TimedEvent) : Bool :=
  (w.board.pairAsked e.event).any fun request ↦
    (w.board.pair.register curve (reading e.time) request.helperPublic).1.isOk

/-- One event at its time. -/
def step (w : Windowed) (e : TimedEvent) : Windowed where
  board := w.board.step curve e.event
  clock := e.time
  ticked := if e.event.ticksWindow then e.time else w.ticked
  opened := if e.event.opensWindow then some e.time else w.opened
  granted :=
    if e.event.opensWindow then 0
    else if w.grants curve e then w.granted + 1
    else w.granted

/-- A board that started at a time. -/
def boot (buildType : BuildType) (identity : Option (List UInt8))
    (registration : Option (List UInt8 × List UInt8)) (time : Nat) : Windowed where
  board := Lifecycle.boot curve buildType identity registration
  clock := time
  ticked := time
  opened := none
  granted := 0

/-- The clock does not go back, and every step of the channel comes less than a day after the tick
that ended the step before. -/
def OnTime (w : Windowed) (e : TimedEvent) : Prop :=
  w.clock ≤ e.time ∧ (∀ stamp ∈ e.event.now, stamp = reading e.time) ∧ e.time < w.ticked + dayMs

instance (w : Windowed) (e : TimedEvent) : Decidable (w.OnTime e) :=
  haveI := Option.decidableForallMem (p := (· = reading e.time)) e.event.now
  inferInstanceAs (Decidable (_ ∧ _ ∧ _))

end Windowed

/-- What one event may do. A request is granted within a minute of the opening and when none was
granted since, and the window is closed then; a request that is not granted changes nothing of the
registration, the identity, the secret and the window; no request changes the session, but for the
idle timer that an answer charges; and nothing else registers anyone. -/
structure Windowed.SingleShot (curve : P256) (w : Windowed) (e : TimedEvent) : Prop where
  granted : ∀ request ∈ w.board.pairAsked e.event,
    (w.board.pair.register curve (reading e.time) request.helperPublic).1 = .ok () →
      (∃ opened ∈ w.opened, opened ≤ e.time ∧ e.time < opened + pairWindowMs.toNat) ∧
        w.granted = 0 ∧ (w.step curve e).granted = 1 ∧
        (w.step curve e).board.pair.windowOpen = false
  refused : w.grants curve e = false → ∀ view ∈ w.board.pairFrame e.event,
    (w.step curve e).board.pair = w.board.pair
  spent : w.granted ≠ 0 → e.event.opensWindow = false →
    w.grants curve e = false ∧ (w.step curve e).board.pair.windowOpen = false
  session : ∀ view ∈ w.board.pairFrame e.event,
    (∀ pair cap, (w.board.session.onFrame curve pair view (reading e.time) cap).2.1 =
      w.board.session) ∧
      ((w.step curve e).board.session = w.board.session ∨
        (w.step curve e).board.session = w.board.session.noteSent (reading e.time))
  others : w.grants curve e = false → (∀ now, e.event ≠ .configWiped now) →
    (w.step curve e).board.pair.registered = w.board.pair.registered ∧
      (w.step curve e).board.pair.helperKeyId = w.board.pair.helperKeyId ∧
      (w.step curve e).board.pair.sharedSecret = w.board.pair.sharedSecret

/-! ## The window as it is read -/

namespace Pair

variable {curve : P256} {p : Pair} {now : UInt32} {helperPublic : List UInt8}

/-- A registration is made while the window stands, and closes it. -/
theorem register_ok (h : (p.register curve now helperPublic).1 = .ok ()) :
    p.windowStands now = true ∧ (p.register curve now helperPublic).2.windowOpen = false := by
  unfold register at h ⊢
  split at h
  · cases h
  · rename_i hstands
    rw [if_neg hstands]
    split at h
    · cases h
    · rename_i hidentity
      rw [if_neg hidentity]
      split at h
      · cases h
      · exact ⟨by simpa using hstands, rfl⟩

/-- A tick leaves everything but the two flags of the window alone, and opens nothing. -/
theorem tick_rest (p : Pair) (now : UInt32) :
    (p.tick now).registered = p.registered ∧ (p.tick now).helperKeyId = p.helperKeyId ∧
      (p.tick now).sharedSecret = p.sharedSecret ∧
      (p.tick now).windowOpenedMs = p.windowOpenedMs ∧
      ((p.tick now).windowOpen = true → p.windowStands now = true) := by
  unfold tick
  by_cases hcloses : (p.windowOpen && !p.windowStands now) = true
  · rw [if_pos hcloses]
    dsimp only
    split
    · exact ⟨rfl, rfl, rfl, rfl, nofun⟩
    · exact ⟨rfl, rfl, rfl, rfl, nofun⟩
  · rw [if_neg hcloses]
    have hstands : p.windowOpen = true → p.windowStands now = true := by
      intro hopen
      simpa [hopen] using hcloses
    dsimp only
    split
    · exact ⟨rfl, rfl, rfl, rfl, hstands⟩
    · exact ⟨rfl, rfl, rfl, rfl, hstands⟩

end Pair

namespace Windowed

variable {curve : P256} {w : Windowed} {e : TimedEvent}

/-- An open window was opened by the last opening, no tick since came a minute after it or later,
and no request was granted since. -/
structure Watched (w : Windowed) : Prop where
  isOpen : w.board.pair.windowOpen = true → ∃ opened ∈ w.opened,
    w.board.pair.windowOpenedMs = reading opened ∧ opened ≤ w.clock ∧
      w.ticked < opened + pairWindowMs.toNat ∧ w.granted = 0
  ticked : w.ticked ≤ w.clock

/-- A window that stands was opened less than a minute ago. -/
theorem Watched.stands (h : Watched w) (htime : w.OnTime e)
    (hstands : w.board.pair.windowStands (reading e.time) = true) :
    ∃ opened ∈ w.opened, w.board.pair.windowOpenedMs = reading opened ∧ opened ≤ e.time ∧
      e.time < opened + pairWindowMs.toNat ∧ w.granted = 0 := by
  unfold Pair.windowStands at hstands
  rw [Bool.and_eq_true, decide_eq_true_eq] at hstands
  obtain ⟨hopen, helapsed⟩ := hstands
  obtain ⟨opened, hopened, hstamp, hbefore, hticked, hnone⟩ := h.isOpen hopen
  obtain ⟨hclock, -, hday⟩ := htime
  have hwindow : pairWindowMs.toNat = 60000 := rfl
  have hspan : dayMs = 86400000 := rfl
  -- less than a day and a minute has passed, so the counter has not come round
  have hread : (reading e.time - reading opened).toNat = e.time - opened :=
    toNat_elapsed (by omega) (by omega)
  rw [hstamp, UInt32.lt_iff_toNat_lt, hread] at helapsed
  exact ⟨opened, hopened, hstamp, by omega, by omega, hnone⟩

/-- A granted request is one that registered its helper. -/
theorem grants_iff : w.grants curve e = true ↔ ∃ request ∈ w.board.pairAsked e.event,
    (w.board.pair.register curve (reading e.time) request.helperPublic).1 = .ok () := by
  unfold grants
  cases w.board.pairAsked e.event with
  | none => simp
  | some request =>
      simp only [Option.any_some, Option.mem_some_iff, exists_eq_left']
      cases (w.board.pair.register curve (reading e.time) request.helperPublic).1 with
      | error fault => simp [Except.isOk, Except.toBool]
      | ok done => simp [Except.isOk, Except.toBool]

/-- A request that is not granted leaves the registration, the identity and the window as they
were. -/
theorem refused_kept (hstamp : ∀ stamp ∈ e.event.now, stamp = reading e.time)
    (hrefused : w.grants curve e = false) {view : FrameView}
    (hview : view ∈ w.board.pairFrame e.event) :
    (w.step curve e).board.pair = w.board.pair := by
  show (w.board.step curve e.event).pair = _
  rw [Lifecycle.pair_step]
  obtain ⟨time, event⟩ := e
  cases event with
  | drainReport now =>
      obtain rfl : now = reading time := hstamp now rfl
      dsimp only
      cases hasked : w.board.pairAsked (.drainReport (reading time)) with
      | none => rfl
      | some request =>
          dsimp only [Option.elim]
          cases hregister : (w.board.pair.register curve (reading time) request.helperPublic).1 with
          | error fault => exact Pair.register_error hregister
          | ok done =>
              have hgrants : w.grants curve ⟨time, .drainReport (reading time)⟩ = true :=
                grants_iff.2 ⟨request, hasked, hregister⟩
              rw [hgrants] at hrefused
              cases hrefused
  | _ => cases hview

/-- A granted request closes the window behind it. -/
theorem granted_closes (hstamp : ∀ stamp ∈ e.event.now, stamp = reading e.time)
    (hgrants : w.grants curve e = true) :
    w.board.pair.windowStands (reading e.time) = true ∧ e.event.opensWindow = false ∧
      e.event.ticksWindow = false ∧ (w.step curve e).board.pair.windowOpen = false := by
  obtain ⟨request, hasked, hregister⟩ := grants_iff.1 hgrants
  obtain ⟨hstands, hcloses⟩ := Pair.register_ok hregister
  obtain ⟨time, event⟩ := e
  cases event with
  | drainReport now =>
      obtain rfl : now = reading time := hstamp now rfl
      refine ⟨hstands, rfl, rfl, ?_⟩
      show (w.board.step curve (.drainReport (reading time))).pair.windowOpen = false
      rw [Lifecycle.pair_step]
      dsimp only at hasked ⊢
      rw [hasked]
      exact hcloses
  | _ => cases hasked

theorem Watched.step (h : Watched w) (htime : w.OnTime e) : Watched (w.step curve e) := by
  have hclock := htime.1
  have hstamp := htime.2.1
  refine ⟨?_, ?_⟩
  · intro hopen
    by_cases hgrants : w.grants curve e = true
    · rw [(granted_closes hstamp hgrants).2.2.2] at hopen
      cases hopen
    -- an event that leaves the pairing alone leaves its window where it was
    have hsame : ∀ (hquiet : e.event.opensWindow = false) (hrest : e.event.ticksWindow = false),
        (w.step curve e).board.pair = w.board.pair → ∃ opened ∈ (w.step curve e).opened,
          (w.step curve e).board.pair.windowOpenedMs = reading opened ∧
            opened ≤ (w.step curve e).clock ∧
            (w.step curve e).ticked < opened + pairWindowMs.toNat ∧
            (w.step curve e).granted = 0 := by
      intro hquiet hrest hpair
      rw [hpair] at hopen
      obtain ⟨opened, hopened, hread, hbefore, hticked, hnone⟩ := h.isOpen hopen
      simp only [Windowed.step, hquiet, hrest, if_neg hgrants, Bool.false_eq_true, if_false]
        at hpair ⊢
      exact ⟨opened, hopened, by rw [hpair]; exact hread, hbefore.trans hclock, hticked, hnone⟩
    have hpair : (w.step curve e).board.pair = _ := Lifecycle.pair_step w.board e.event
    obtain ⟨time, event⟩ := e
    cases event with
    | openPairingWindow now =>
        obtain rfl : now = reading time := hstamp now rfl
        refine ⟨time, rfl, by rw [hpair]; rfl, le_rfl, ?_, rfl⟩
        show w.ticked < time + 60000
        have hbefore := h.ticked
        exact (hbefore.trans hclock).trans_lt (show time < time + 60000 by omega)
    | configWiped now =>
        obtain rfl : now = reading time := hstamp now rfl
        refine ⟨time, rfl, by rw [hpair]; rfl, le_rfl, ?_, rfl⟩
        show w.ticked < time + 60000
        have hbefore := h.ticked
        exact (hbefore.trans hclock).trans_lt (show time < time + 60000 by omega)
    | pairTick now =>
        obtain rfl : now = reading time := hstamp now rfl
        -- a tick only closes, so a window still open was open before
        dsimp only at hpair
        obtain ⟨-, -, -, hopenedMs, hstands⟩ := w.board.pair.tick_rest (reading time)
        rw [hpair] at hopen
        obtain ⟨opened, hopened, hread, hbefore, hminute, hnone⟩ := h.stands htime (hstands hopen)
        refine ⟨opened, hopened, ?_, hbefore, hminute, ?_⟩
        · rw [hpair, hopenedMs]
          exact hread
        · simp only [Windowed.step, Event.opensWindow, if_neg hgrants, Bool.false_eq_true, if_false]
          exact hnone
    | drainReport now =>
        obtain rfl : now = reading time := hstamp now rfl
        cases hframe : w.board.pairFrame (.drainReport (reading time)) with
        | none =>
            refine hsame rfl rfl (hpair.trans ?_)
            dsimp only
            rw [Lifecycle.pairAsked, hframe]
            rfl
        | some view =>
            exact hsame rfl rfl (refused_kept hstamp (by simpa using hgrants) hframe)
    | _ => exact hsame rfl rfl hpair
  · show (if e.event.ticksWindow then e.time else w.ticked) ≤ e.time
    split
    · exact le_rfl
    · exact h.ticked.trans hclock

/-- What one event may do, of a board whose window is watched. -/
theorem Watched.singleShot (h : Watched w) (htime : w.OnTime e) : SingleShot curve w e := by
  have hstamp := htime.2.1
  have hpair : (w.step curve e).board.pair = _ := Lifecycle.pair_step w.board e.event
  refine ⟨?_, fun hrefused view hview ↦ refused_kept hstamp hrefused hview, ?_, ?_, ?_⟩
  · -- a grant: the window stood, was unused, and is closed by it
    intro request hasked hregister
    have hgrants : w.grants curve e = true := grants_iff.2 ⟨request, hasked, hregister⟩
    obtain ⟨hstands, hquiet, -, hcloses⟩ := granted_closes hstamp hgrants
    obtain ⟨opened, hopened, -, hbefore, hminute, hnone⟩ := h.stands htime hstands
    refine ⟨⟨opened, hopened, hbefore, hminute⟩, hnone, ?_, hcloses⟩
    show (if e.event.opensWindow then 0 else if w.grants curve e then _ else _) = 1
    rw [if_neg (by simp [hquiet]), if_pos hgrants, hnone]
  · -- a spent window is closed, and nothing but a press or a wipe opens it
    intro hspent hquiet
    have hclosed : w.board.pair.windowOpen = false := by
      by_contra hopen
      obtain ⟨-, -, -, -, -, hnone⟩ := h.isOpen (by simpa using hopen)
      exact hspent hnone
    have hrefused : w.grants curve e = false := by
      by_contra hgrants
      have hstands := (granted_closes hstamp (by simpa using hgrants)).1
      rw [Pair.windowStands, hclosed] at hstands
      cases hstands
    refine ⟨hrefused, ?_⟩
    obtain ⟨time, event⟩ := e
    cases event with
    | openPairingWindow now => cases hquiet
    | configWiped now => cases hquiet
    | pairTick now =>
        rw [hpair]
        by_contra hopen
        have hstands := (w.board.pair.tick_rest now).2.2.2.2 (by simpa using hopen)
        rw [Pair.windowStands, hclosed] at hstands
        cases hstands
    | drainReport now =>
        cases hframe : w.board.pairFrame (.drainReport now) with
        | none =>
            rw [hpair]
            dsimp only
            rw [Lifecycle.pairAsked, hframe]
            exact hclosed
        | some view => rw [refused_kept hstamp hrefused hframe, hclosed]
    | _ => rw [hpair, hclosed]
  · -- a request leaves the session as it was, but for the timer its answer charges
    intro view hview
    obtain ⟨time, event⟩ := e
    cases event with
    | drainReport now =>
        obtain rfl : now = reading time := hstamp now rfl
        refine ⟨fun pair cap ↦ ?_, Lifecycle.session_drainReport hview⟩
        have htype : view.type = Msg.pairRequest := by
          simp only [Lifecycle.pairFrame, Option.mem_def, Option.bind_eq_some_iff] at hview
          obtain ⟨⟨index, shown, c'⟩, -, hshown⟩ := hview
          split at hshown
          · cases hshown
            assumption
          · cases hshown
        unfold Session.onFrame
        rw [if_neg (by rw [htype]; decide), if_pos htype]
    | _ => cases hview
  · -- only a wipe or a grant writes the registration
    intro hrefused hwiped
    obtain ⟨time, event⟩ := e
    cases event with
    | configWiped now => exact absurd rfl (hwiped now)
    | openPairingWindow now =>
        rw [hpair]
        exact ⟨rfl, rfl, rfl⟩
    | pairTick now =>
        rw [hpair]
        obtain ⟨hregistered, hkey, hsecret, -⟩ := w.board.pair.tick_rest now
        exact ⟨hregistered, hkey, hsecret⟩
    | drainReport now =>
        cases hframe : w.board.pairFrame (.drainReport now) with
        | none =>
            rw [hpair]
            dsimp only
            rw [Lifecycle.pairAsked, hframe]
            exact ⟨rfl, rfl, rfl⟩
        | some view =>
            rw [refused_kept hstamp hrefused hframe]
            exact ⟨rfl, rfl, rfl⟩
    | _ =>
        rw [hpair]
        exact ⟨rfl, rfl, rfl⟩

theorem watched_boot (buildType : BuildType) (identity : Option (List UInt8))
    (registration : Option (List UInt8 × List UInt8)) (time : Nat) :
    Watched (boot curve buildType identity registration time) := by
  refine ⟨fun hopen ↦ ?_, le_rfl⟩
  -- nothing that `channel_init` reads opens the window
  have hidentity : ∀ p : Pair, ∀ key, (p.setIdentity curve key).windowOpen = p.windowOpen := by
    intro p key
    unfold Pair.setIdentity
    split <;> rfl
  have hclosed : (Lifecycle.boot curve buildType identity registration).pair.windowOpen =
      false := by
    show ((registration.elim _ _ : Pair)).windowOpen = false
    cases registration <;> cases identity
    · rfl
    · exact hidentity _ _
    · rfl
    · exact hidentity _ _
  exact absurd (hclosed.symm.trans hopen) nofun

/-- In every run whose steps come less than a day apart, from any time on the counter: a pairing
request registers its helper only within a minute of an opening of the window, once for each
opening, and does nothing else. -/
theorem pairing_single_shot (curve : P256) (buildType : BuildType)
    (identity : Option (List UInt8)) (registration : Option (List UInt8 × List UInt8)) (time : Nat)
    (events : List TimedEvent)
    (htime : Along (step curve) OnTime (boot curve buildType identity registration time) events) :
    Along (step curve) (SingleShot curve) (boot curve buildType identity registration time)
      events := by
  have hstart := @watched_boot curve buildType identity registration time
  generalize boot curve buildType identity registration time = w at hstart htime ⊢
  induction events generalizing w with
  | nil => trivial
  | cons e rest ih =>
      exact ⟨hstart.singleShot htime.1, ih _ (hstart.step htime.1) htime.2⟩

/-- A request to be paired, with the public key of the scalar two. -/
def pairRequestFrame : List UInt8 :=
  headerBytes Msg.pairRequest 0 pairRequestLen ++ List.replicate 8 1 ++ smallPublic 2

/-- The chord is pressed just before the counter wraps, and a request comes just after. -/
def pressed : List TimedEvent :=
  [⟨2 ^ 32 - 5, .openPairingWindow (reading (2 ^ 32 - 5))⟩,
   ⟨2 ^ 32 + 5, .receiveReport 0 (reportAt pairRequestFrame 0)⟩,
   ⟨2 ^ 32 + 5, .receiveReport 0 (reportAt pairRequestFrame 1)⟩,
   ⟨2 ^ 32 + 6, .drainReport (reading (2 ^ 32 + 6))⟩,
   ⟨2 ^ 32 + 6, .drainReport (reading (2 ^ 32 + 6))⟩,
   ⟨2 ^ 32 + 6, .pairTick (reading (2 ^ 32 + 6))⟩]

/-- The request is granted, and the run of it is single-shot. -/
theorem pairing_single_shot_pressed :
    (run (step smallCurve) (boot smallCurve .release (some (smallPrivate 3)) none (2 ^ 32 - 10))
        pressed).granted = 1 ∧
      Along (step smallCurve) (SingleShot smallCurve)
        (boot smallCurve .release (some (smallPrivate 3)) none (2 ^ 32 - 10)) pressed :=
  ⟨by decide +kernel,
    pairing_single_shot smallCurve .release (some (smallPrivate 3)) none (2 ^ 32 - 10) pressed
      (by decide +kernel)⟩

end Windowed

end DeskhopPlus.Board
