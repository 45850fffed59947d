import DeskhopPlus.Board.Fragments
import DeskhopPlus.Board.Liveness
import DeskhopPlus.Board.Postings

/-!
# What is owed to the helper

A session owes its helper the clipboard policy and the totals of what was dropped: both from its
start, and again whenever they change. Each is no longer owed once a queue took the frame that
tells it, and a warning of a listener stays pending until a queue took it. `Told` keeps the frames
queued since the session started beside the board, and `debts_paid` says that nothing owed is ever
forgotten, as long as the frames the peer board hands over are bulk frames.
-/

namespace DeskhopPlus.Board

open Bytes Wire Outq Auth Crypto Runs Session

/-- A frame of a type. -/
def typed (type : UInt8) (frame : List UInt8) : Bool := frame.head? = some type

/-- The body of the last frame of a type. -/
def lastBody (type : UInt8) (frames : List (List UInt8)) : Option (List UInt8) :=
  (frames.filter (typed type)).getLast?.map (·.drop (headerSize + authPrefixSize))

/-- The frames of some postings that a queue took. -/
def queuedFrames (posts : List Posting) : List (List UInt8) :=
  (posts.filter (·.queued)).map (·.frame)

/-- The frames told so far, after an event that may have started a session. -/
def toldAfter (fresh : Bool) (told : List (List UInt8)) (posts : List Posting) :
    List (List UInt8) :=
  (if fresh then [] else told) ++ queuedFrames posts

namespace Lifecycle

/-- A report is answered with the ack of a hello, which starts a session. -/
def renews (curve : P256) (c : Lifecycle) : Event → Bool
  | .drainReport now => (c.drainPostings curve now).any fun p ↦ typed Msg.helloAck p.frame
  | _ => false

/-- The frame of the peer board that an event completes. -/
def completes (c : Lifecycle) : Event → Option FrameView
  | .peerPacket packet => (c.relayRx.push packet).1.toOption
  | _ => none

/-- A packet from the peer board completes no frame but a bulk frame. -/
def CompletesBulk (c : Lifecycle) (event : Event) : Prop :=
  ∀ view ∈ c.completes event, Msg.isBulk view.type = true

instance (c : Lifecycle) (event : Event) : Decidable (c.CompletesBulk event) :=
  inferInstanceAs (Decidable (∀ view ∈ c.completes event, Msg.isBulk view.type = true))

end Lifecycle

/-- A board, and the frames queued for its helper since the session started, oldest first. -/
structure Told where
  board : Lifecycle
  told : List (List UInt8)

namespace Told

/-- One event. -/
def step (curve : P256) (t : Told) (event : Event) : Told where
  board := t.board.step curve event
  told := toldAfter (t.board.renews curve event) t.told (t.board.postings curve event)

/-- A board that has just started. -/
def boot (curve : P256) (buildType : BuildType) (identity : Option (List UInt8))
    (registration : Option (List UInt8 × List UInt8)) : Told where
  board := Lifecycle.boot curve buildType identity registration
  told := []

/-- What is not owed to the helper has been told it as it stands. -/
structure Informed (x : Sending) (told : List (List UInt8)) : Prop where
  policy : x.present = true → x.clipPolicyOwed = false →
    lastBody Msg.clipPolicy told = some [x.clipFlags, x.clipCapMb]
  drops : x.present = true → x.dropsOwed = false →
    lastBody Msg.deviceDrops told = some x.drops.write

/-- A warning that is pending stays so until a queue took it. -/
def AlertKept (curve : P256) (t : Told) (event : Event) : Prop :=
  t.board.session.alertPending = true → (t.step curve event).board.session.alertPending = false →
    ∃ frame ∈ queuedFrames (t.board.postings curve event), typed Msg.listenerAlert frame = true

/-- The condition of the board on the packets of its peer. -/
def CompletesBulk (t : Told) (event : Event) : Prop := t.board.CompletesBulk event

instance (t : Told) (event : Event) : Decidable (t.CompletesBulk event) :=
  inferInstanceAs (Decidable (t.board.CompletesBulk event))

end Told

/-! ## The last frame of a type -/

@[simp] theorem queuedFrames_nil : queuedFrames [] = [] := rfl

theorem queuedFrames_cons (post : Posting) (posts : List Posting) :
    queuedFrames (post :: posts) =
      (if post.queued then [post.frame] else []) ++ queuedFrames posts := by
  cases hqueued : post.queued <;> simp [queuedFrames, hqueued]

/-- The last frame of a type is among the newer frames, if one of them is of it. -/
theorem lastBody_append (type : UInt8) (frames newer : List (List UInt8)) :
    lastBody type (frames ++ newer) = (lastBody type newer).or (lastBody type frames) := by
  simp only [lastBody, List.filter_append, List.getLast?_append]
  cases (newer.filter (typed type)).getLast? <;> rfl

theorem lastBody_of_other {type : UInt8} {frames newer : List (List UInt8)}
    (h : ∀ frame ∈ newer, typed type frame = false) :
    lastBody type (frames ++ newer) = lastBody type frames := by
  have hnone : newer.filter (typed type) = [] := by
    rw [List.filter_eq_nil_iff]
    intro frame hframe
    simp [h frame hframe]
  simp [lastBody, hnone]

theorem typed_builtView (wanted type flags : UInt8) (key : List UInt8) (counter : Nat)
    (body : List UInt8) :
    typed wanted (builtView type flags key counter body).bytes = decide (type = wanted) := by
  simp [typed, FrameView.bytes, headerBytes, builtView]

theorem typed_post (wanted type flags : UInt8) (x : Sending) (body : List UInt8) (queued : Bool) :
    typed wanted (x.post type flags body queued).frame = decide (type = wanted) :=
  typed_builtView ..

theorem body_builtView (type flags : UInt8) (key : List UInt8) (counter : Nat)
    (body : List UInt8) :
    (builtView type flags key counter body).bytes.drop (headerSize + authPrefixSize) = body := by
  have hheader : (builtView type flags key counter body).bytes.drop headerSize =
      (builtView type flags key counter body).payload := by
    simp [FrameView.bytes, headerBytes, headerSize]
  rw [← List.drop_drop, hheader]
  exact bodyOf_builtView type flags key counter body

/-- The last frame of a type is the one just queued. -/
theorem lastBody_post (type flags : UInt8) (x : Sending) (body : List UInt8)
    (frames : List (List UInt8)) :
    lastBody type (frames ++ queuedFrames [x.post type flags body true]) = some body := by
  have hframe : queuedFrames [x.post type flags body true] =
      [(builtView type flags x.kB2h x.txCounter.toNat body).bytes] := rfl
  have htyped := typed_builtView type type flags x.kB2h x.txCounter.toNat body
  rw [hframe, lastBody_append, lastBody, List.filter_cons_of_pos (by simp [htyped])]
  simp [body_builtView]

/-! ## The frames of the peer board -/

namespace Lifecycle

variable {c : Lifecycle}

@[simp] theorem emitPlacement_inbound (c : Lifecycle) (type : UInt8) (body : List UInt8)
    (now : UInt32) : (c.emitPlacement type body now).2.inbound = c.inbound := by
  unfold emitPlacement
  split
  · rfl
  · split <;> rfl

@[simp] theorem endSession_inbound (c : Lifecycle) (reason : EndReason) (now : UInt32) :
    (c.endSession reason now).inbound = c.inbound := by
  unfold endSession
  simp only
  split <;> rfl

theorem pumpPlace_inbound (c : Lifecycle) (now : UInt32) :
    (c.pumpPlace now).inbound = c.inbound := by
  unfold pumpPlace
  extract_lets owed stale c'
  have hsame : c'.inbound = c.inbound := by
    simp only [c']
    split <;> rfl
  rw [← hsame]
  split
  · rfl
  · split
    · rfl
    · unfold sendPlace
      split
      · rfl
      · split <;> rfl

theorem onFrame_inbound (curve : P256) (c : Lifecycle) (index : Nat) (view : FrameView)
    (now : UInt32) : (c.onFrame curve index view now).inbound = c.inbound := by
  unfold onFrame
  split
  · split
    · rfl
    · split
      · unfold relayToPeer setReader
        rfl
      · rfl
  · unfold channelOnFrame
    simp only
    split
    · rfl
    · rfl
    · split <;> rfl

theorem drainReport_inbound (curve : P256) (c : Lifecycle) (now : UInt32) :
    (c.drainReport curve now).2.inbound = c.inbound := by
  unfold drainReport
  split
  · rfl
  · rename_i htake
    rw [takeReport_rest htake]
  · rename_i htake
    show (endSession _ _ _).inbound = _
    rw [endSession_inbound, takeReport_rest htake]
  · rename_i htake
    simp only
    split
    · rw [onFrame_inbound, takeReport_rest htake]
    · rw [takeReport_rest htake]

theorem sessionTick_inbound (c : Lifecycle) (now : UInt32) :
    (c.sessionTick now).inbound = c.inbound := by
  unfold sessionTick
  simp only
  split <;> rfl

theorem receiveChannelReport_inbound (c : Lifecycle) (index : Nat) (buffer : List UInt8) :
    (c.receiveChannelReport index buffer).inbound = c.inbound := by
  unfold receiveChannelReport
  split
  · rfl
  · simp only
    split <;> rfl

theorem pumpQuery_inbound (c : Lifecycle) (now : UInt32) (taken : Bool) :
    (c.pumpQuery now taken).inbound = c.inbound := by
  have hasked : (c.askCursor now taken).2.inbound = c.inbound := by
    unfold askCursor
    split
    · rfl
    · exact emitPlacement_inbound ..
  unfold pumpQuery
  split
  · rfl
  · exact hasked

theorem pumpArrival_inbound (c : Lifecycle) (now : UInt32) :
    (c.pumpArrival now).inbound = c.inbound := by
  unfold pumpArrival
  split
  · rfl
  · split
    · rfl
    · exact emitPlacement_inbound ..

theorem pumpPeerBoardSession_inbound (c : Lifecycle) (now : UInt32) :
    (c.pumpPeerBoardSession now).inbound = c.inbound := by
  have hjudged : (c.judgePeerBoard now).inbound = c.inbound := by
    unfold judgePeerBoard
    simp only
    split <;> rfl
  show ((c.judgePeerBoard now).tellPeerBoard _ now).inbound = _
  rw [← hjudged]
  generalize (if (c.judgePeerBoard now).peerBoardSession then (1 : UInt8) else 0) = live
  unfold tellPeerBoard
  split
  · rfl
  · exact emitPlacement_inbound ..

theorem stageNonce_inbound (c : Lifecycle) (nonce : List UInt8) :
    (c.stageNonce nonce).inbound = c.inbound := by
  unfold stageNonce
  split <;> rfl

theorem pumpRelay_inbound (c : Lifecycle) (taken : Bool) :
    (c.pumpRelay taken).2.inbound = c.inbound := by
  unfold pumpRelay
  split
  · rfl
  · split <;> rfl

theorem pumpOut_inbound (c : Lifecycle) (index : Nat) (taken : Bool) :
    (c.pumpOut index taken).inbound = c.inbound := by
  unfold pumpOut
  split
  · rfl
  · split <;> rfl

theorem owePlace_inbound (c : Lifecycle) (body : List UInt8) (queryId : UInt8) (now : UInt32) :
    (c.owePlace body queryId now).inbound = c.inbound := by
  unfold owePlace
  split <;> rfl

theorem queryCursor_inbound (c : Lifecycle) (origin : QueryOrigin) (queryId : UInt8) :
    (c.queryCursor origin queryId).inbound = c.inbound := by
  unfold queryCursor
  split
  · rfl
  · split <;> rfl

/-- A packet puts in the frame it completes. -/
theorem peerPacket_parked {packet : RelayPacket} {bytes : List UInt8}
    (h : bytes ∈ (c.peerPacket packet).inbound.parked) :
    bytes ∈ c.inbound.parked ∨ ∃ view ∈ c.completes (.peerPacket packet), bytes = view.bytes := by
  unfold peerPacket at h
  generalize hpush : c.relayRx.push packet = result at h
  obtain ⟨rc, relayRx⟩ := result
  cases rc with
  | error fault => exact .inl h
  | ok view =>
      simp only [Inq.stage] at h
      split at h
      · exact .inl h
      · rcases List.mem_append.1 h with h | h
        · exact .inl h
        · refine .inr ⟨view, ?_, List.mem_singleton.1 h⟩
          rw [completes, hpush]
          rfl

/-- The pump takes the oldest frame out. -/
theorem pumpInbound_parked {now : UInt32} {bytes : List UInt8}
    (h : bytes ∈ (c.pumpInbound now).2.inbound.parked) : bytes ∈ c.inbound.parked := by
  have hrelease : ∀ frame, ({ c with inbound := c.inbound.release }.tagInbound frame
      now).2.inbound = c.inbound.release := by
    intro frame
    unfold tagInbound
    split
    · rfl
    · split <;> rfl
  unfold pumpInbound at h
  split at h
  · exact h
  · rw [hrelease] at h
    exact List.mem_of_mem_tail h

/-- A frame leaves the ring at its turn, all of them leave when the link is lost, and one comes in
with the packet that completes it. -/
theorem inbound_step (curve : P256) (c : Lifecycle) (event : Event) {bytes : List UInt8}
    (h : bytes ∈ (c.step curve event).inbound.parked) :
    bytes ∈ c.inbound.parked ∨ ∃ view ∈ c.completes event, bytes = view.bytes := by
  have hsame : (c.step curve event).inbound = c.inbound → bytes ∈ c.inbound.parked := by
    intro hinbound
    rwa [hinbound] at h
  cases event with
  | peerPacket packet => exact peerPacket_parked h
  | pumpInbound now => exact .inl (pumpInbound_parked h)
  | linkLost => cases h
  | drainReport now => exact .inl (hsame (drainReport_inbound curve c now))
  | pumpPlace now => exact .inl (hsame (pumpPlace_inbound c now))
  | sessionTick now => exact .inl (hsame (sessionTick_inbound c now))
  | configWiped now => exact .inl (hsame (endSession_inbound c .unpaired now))
  | receiveReport index buffer =>
      exact .inl (hsame (receiveChannelReport_inbound c index buffer))
  | pumpQuery now taken => exact .inl (hsame (pumpQuery_inbound c now taken))
  | pumpArrival now => exact .inl (hsame (pumpArrival_inbound c now))
  | pumpPeerBoardSession now => exact .inl (hsame (pumpPeerBoardSession_inbound c now))
  | stageNonce nonce => exact .inl (hsame (stageNonce_inbound c nonce))
  | pumpRelay taken => exact .inl (hsame (pumpRelay_inbound c taken))
  | pumpOut index taken => exact .inl (hsame (pumpOut_inbound c index taken))
  | owePlace body queryId now => exact .inl (hsame (owePlace_inbound c body queryId now))
  | queryCursor origin queryId => exact .inl (hsame (queryCursor_inbound c origin queryId))
  | updateConfig | saveRegistration | pairTick | relayYield | openPairingWindow | arrive
  | peerBoardHeartbeat => exact .inl h

/-- The frames the peer board handed over are bulk frames. -/
def ParksBulk (c : Lifecycle) : Prop :=
  ∀ bytes ∈ c.inbound.parked, ∀ view count, decode bytes = .ok (view, count) →
    Msg.isBulk view.type = true

/-- The bytes of a view decode to a frame of its type, if they decode. -/
theorem decode_bytes_type {view decoded : FrameView} {count : Nat}
    (h : decode view.bytes = .ok (decoded, count)) : decoded.type = view.type := by
  simp only [decode] at h
  split at h
  · cases h
  · rename_i hdr hparse
    split at h
    · cases h
    · cases h
      obtain ⟨-, -, -, htake⟩ := header_parse_ok hparse
      have hhead := congrArg List.head? htake
      simp only [FrameView.bytes, headerBytes, headerSize, List.cons_append, List.take_succ_cons,
        List.head?_cons, Option.some.injEq] at hhead
      exact hhead.symm

theorem parksBulk_step {curve : P256} {event : Event} (h : c.ParksBulk)
    (hbulk : c.CompletesBulk event) : (c.step curve event).ParksBulk := by
  intro bytes hbytes view count hdecode
  rcases inbound_step curve c event hbytes with hparked | ⟨whole, hwhole, rfl⟩
  · exact h bytes hparked view count hdecode
  · rw [decode_bytes_type hdecode]
    exact hbulk whole hwhole

end Lifecycle

/-! ## What a deed pays -/

/-- What the session does not owe, and a frame between the two ends is not about. -/
def owable (type : UInt8) : Bool :=
  type ∈ [Msg.clipPolicy, Msg.deviceDrops, Msg.helloAck]

theorem Relays.not_owable {c : Lifecycle} (hparks : c.ParksBulk) {type flags : UInt8}
    {body : List UInt8} (h : Relays c type flags body) : owable type = false := by
  rcases h with hplacement | ⟨bytes, count, hpeek, hdecode⟩
  · simp only [List.mem_cons, List.not_mem_nil, or_false] at hplacement
    rcases hplacement with rfl | rfl | rfl | rfl <;> decide
  · have hbulk := hparks bytes (List.mem_of_mem_head? hpeek) _ _ hdecode
    by_contra howable
    simp only [owable, List.mem_cons, List.not_mem_nil, or_false, Bool.not_eq_false,
      decide_eq_true_eq] at howable
    rcases howable with h | h | h <;> simp only at hbulk <;> rw [h] at hbulk <;> cases hbulk

/-- Frames that none of the debts is about, and none of which starts a session. -/
def Beside (posts : List Posting) : Prop :=
  ∀ post ∈ posts, ∀ type, owable type = true → typed type post.frame = false

theorem beside_nil : Beside [] := nofun

theorem beside_post {x : Sending} {type flags : UInt8} {body : List UInt8} {queued : Bool}
    {rest : List Posting} (htype : owable type = false) (hrest : Beside rest) :
    Beside (x.post type flags body queued :: rest) := by
  intro post hpost owed howed
  rcases List.mem_cons.1 hpost with rfl | hafter
  · rw [typed_post, decide_eq_false_iff_not]
    rintro rfl
    rw [htype] at howed
    cases howed
  · exact hrest post hafter owed howed

theorem Beside.typed_queued {posts : List Posting} (h : Beside posts) {type : UInt8}
    (htype : owable type = true) : ∀ frame ∈ queuedFrames posts, typed type frame = false := by
  intro frame hframe
  obtain ⟨post, hpost, rfl⟩ := List.mem_map.1 hframe
  exact h post (List.mem_filter.1 hpost).1 type htype

/-- A session is started only with an ack. -/
def Starts (fresh : Bool) (posts : List Posting) : Prop :=
  fresh = true → ∃ post ∈ posts, typed Msg.helloAck post.frame = true

theorem Starts.continues {fresh : Bool} {posts : List Posting} (h : Starts fresh posts)
    (hnone : ∀ post ∈ posts, typed Msg.helloAck post.frame = false)
    (told : List (List UInt8)) : toldAfter fresh told posts = told ++ queuedFrames posts := by
  cases fresh with
  | false => rfl
  | true =>
      obtain ⟨post, hpost, htyped⟩ := h rfl
      rw [hnone post hpost] at htyped
      cases htyped

namespace Told

variable {x y : Sending} {told : List (List UInt8)} {fresh : Bool} {posts : List Posting}

/-- Nothing of what is owed changes, and nothing queued is about it. -/
theorem Informed.beside (h : Informed x told) (hstarts : Starts fresh posts)
    (hbeside : Beside posts) (hpresent : y.present = true → x.present = true)
    (hpolicy : y.clipPolicyOwed = x.clipPolicyOwed) (hflags : y.clipFlags = x.clipFlags)
    (hcap : y.clipCapMb = x.clipCapMb) (howed : y.dropsOwed = x.dropsOwed)
    (hdrops : y.drops = x.drops) : Informed y (toldAfter fresh told posts) := by
  have hcontinues := hstarts.continues (fun post hpost ↦ hbeside post hpost _ rfl) told
  constructor
  · intro hy hnot
    rw [hcontinues, lastBody_of_other (hbeside.typed_queued rfl), hflags, hcap]
    exact h.policy (hpresent hy) (hpolicy ▸ hnot)
  · intro hy hnot
    rw [hcontinues, lastBody_of_other (hbeside.typed_queued rfl), hdrops]
    exact h.drops (hpresent hy) (howed ▸ hnot)

theorem informed_absent (h : x.present = false) : Informed x told where
  policy hpresent := absurd (h.symm.trans hpresent) (by decide)
  drops hpresent := absurd (h.symm.trans hpresent) (by decide)

/-- A new policy or new totals are owed at once while there is a session. -/
theorem Informed.configures {s : Session} (h : Informed s.sending told)
    (hstarts : Starts fresh []) (totals : DeviceDrops) (clipFlags capMb : UInt8) :
    Informed ((s.setDrops totals).setClipPolicy clipFlags capMb).sending
      (toldAfter fresh told []) := by
  rw [hstarts.continues nofun, queuedFrames_nil, List.append_nil]
  have hdrops : Informed (s.setDrops totals).sending told := by
    unfold setDrops
    split
    · exact h
    · refine ⟨h.policy, fun hpresent hnot ↦ ?_⟩
      have hpresent : s.present = true := hpresent
      have hnot : (s.present || s.dropsOwed) = false := hnot
      rw [hpresent] at hnot
      cases hnot
  generalize s.setDrops totals = s at hdrops
  unfold setClipPolicy
  split
  · exact hdrops
  · refine ⟨fun hpresent hnot ↦ ?_, hdrops.drops⟩
    have hpresent : s.present = true := hpresent
    have hnot : (s.present || s.clipPolicyOwed) = false := hnot
    rw [hpresent] at hnot
    cases hnot

theorem told_dropsOwed {now : UInt32} {type : UInt8} {queued : Bool} (h : type ≠ Msg.deviceDrops) :
    (x.told now type queued).dropsOwed = x.dropsOwed := by
  cases queued with
  | false => rfl
  | true =>
      show (x.dropsOwed && !decide (type = Msg.deviceDrops)) = x.dropsOwed
      rw [decide_eq_false h, Bool.not_false, Bool.and_true]

/-- A tick clears what it owes only when the queue took the frame that tells it. -/
theorem Informed.ticks (h : Informed x told) {now : UInt32} {type : UInt8} {body : List UInt8}
    {queued : Bool} (howes : Owes x now type body) {before : Sending}
    (hstarts : Starts fresh [before.post type 0 body queued]) :
    Informed (x.told now type queued)
      (toldAfter fresh told [before.post type 0 body queued]) := by
  have hack : ∀ post ∈ [before.post type 0 body queued], typed Msg.helloAck post.frame = false := by
    intro post hpost
    rw [List.mem_singleton.1 hpost, typed_post]
    cases howes <;> rfl
  rw [hstarts.continues hack]
  cases queued with
  | false =>
      have hnone : queuedFrames [before.post type 0 body false] = [] := rfl
      rw [hnone, List.append_nil]
      exact ⟨h.policy, h.drops⟩
  | true =>
      have hother : ∀ wanted, type ≠ wanted →
          lastBody wanted (told ++ queuedFrames [before.post type 0 body true]) =
            lastBody wanted told := by
        intro wanted hne
        apply lastBody_of_other
        intro frame hframe
        rw [List.mem_singleton.1 hframe, typed_post]
        exact decide_eq_false hne
      cases howes with
      | clipPolicy howed =>
          refine ⟨fun _ _ ↦ lastBody_post .., fun hpresent hnot ↦ ?_⟩
          rw [hother _ (by decide)]
          exact h.drops hpresent ((told_dropsOwed (by decide)).symm.trans hnot)
      | listenerAlert hpolicy halert =>
          refine ⟨fun hpresent _ ↦ ?_, fun hpresent hnot ↦ ?_⟩
          · rw [hother _ (by decide)]
            exact h.policy hpresent hpolicy
          · rw [hother _ (by decide)]
            exact h.drops hpresent ((told_dropsOwed (by decide)).symm.trans hnot)
      | deviceDrops hpolicy halert howed hdue =>
          refine ⟨fun hpresent _ ↦ ?_, fun _ _ ↦ lastBody_post ..⟩
          rw [hother _ (by decide)]
          exact h.policy hpresent hpolicy
      | deviceHeartbeat hpolicy halert hnotDue hdue =>
          refine ⟨fun hpresent _ ↦ ?_, fun hpresent hnot ↦ ?_⟩
          · rw [hother _ (by decide)]
            exact h.policy hpresent hpolicy
          · rw [hother _ (by decide)]
            exact h.drops hpresent ((told_dropsOwed (by decide)).symm.trans hnot)

/-- Every deed leaves its helper informed of what is not owed. -/
theorem Informed.deed {c : Lifecycle} {kind : EventKind} {now : UInt32} {s' : Session}
    (hparks : c.ParksBulk) (h : Informed c.session.sending told)
    (hdeed : Deed c kind now s' posts) (hstarts : Starts fresh posts) :
    Informed s'.sending (toldAfter fresh told posts) := by
  cases hdeed with
  | rests alert halert hidle hsending =>
      rw [hsending]
      exact h.beside hstarts beside_nil id rfl rfl rfl rfl rfl
  | drops alert halert hsending =>
      rw [hsending]
      exact informed_absent rfl
  | configures totals clipFlags capMb hkind hsending =>
      rw [hsending]
      exact h.configures hstarts totals clipFlags capMb
  | tags hkind hrelays hpresent hsending =>
      rw [hsending]
      exact h.beside hstarts (beside_post (hrelays.not_owable hparks) beside_nil) id rfl rfl rfl rfl
        rfl
  | places hkind hpresent hsending =>
      rw [hsending]
      exact h.beside hstarts (beside_post rfl (beside_post rfl beside_nil)) id rfl rfl rfl rfl rfl
  | ends halert hpresent hsending =>
      rw [hsending]
      exact informed_absent rfl
  | answers hkind htype hsending =>
      rename_i type rest queued
      rw [hsending]
      refine h.beside hstarts ?_ id rfl rfl rfl rfl rfl
      intro post hpost owed howed
      rw [List.mem_singleton.1 hpost]
      show decide (some type = some owed) = false
      rw [decide_eq_false_iff_not]
      rintro heq
      cases heq
      simp only [untagged, owable, List.mem_cons, List.not_mem_nil, or_false,
        decide_eq_true_eq] at htype howed
      rcases howed with rfl | rfl | rfl <;> exact absurd htype (by decide)
  | starts hkind hstaged hspent hsending =>
      rw [hsending]
      exact ⟨nofun, nofun⟩
  | ticks hkind halert hpresent howes hsending =>
      rw [hsending]
      refine Informed.ticks ?_ howes hstarts
      exact ⟨h.policy, h.drops⟩

theorem starts_renews (curve : P256) (c : Lifecycle) (event : Event) :
    Starts (c.renews curve event) (c.postings curve event) := by
  intro hfresh
  cases event with
  | drainReport now => exact List.any_eq_true.1 hfresh
  | _ => cases hfresh

/-- A deed that ends a warning queued it. -/
theorem alert_deed {c : Lifecycle} {kind : EventKind} {now : UInt32} {s' : Session}
    (hdeed : Deed c kind now s' posts)
    (hpending : c.session.alertPending = true) (hended : s'.alertPending = false) :
    ∃ frame ∈ queuedFrames posts, typed Msg.listenerAlert frame = true := by
  have hstays : s'.sending.alertPending ≠ true := by
    show ¬ s'.alertPending = true
    simp [hended]
  cases hdeed with
  | rests alert halert hidle hsending => exact absurd (hsending ▸ halert hpending) hstays
  | drops alert halert hsending => exact absurd (hsending ▸ halert hpending) hstays
  | configures totals clipFlags capMb hkind hsending =>
      have hsame : ((c.session.setDrops totals).setClipPolicy clipFlags capMb).alertPending =
          c.session.alertPending := by
        unfold setClipPolicy setDrops
        split <;> split <;> rfl
      exact absurd (hsending ▸ hsame.trans hpending) hstays
  | tags hkind hrelays hpresent hsending => exact absurd (hsending ▸ hpending) hstays
  | places hkind hpresent hsending => exact absurd (hsending ▸ hpending) hstays
  | ends halert hpresent hsending => exact absurd (hsending ▸ halert hpending) hstays
  | answers hkind htype hsending => exact absurd (hsending ▸ hpending) hstays
  | starts hkind hstaged hspent hsending => exact absurd (hsending ▸ hpending) hstays
  | ticks hkind halert hpresent howes hsending =>
      rename_i alert type body
      rw [hsending, halert hpending] at hstays
      generalize (!c.out.priorityFull) = queued at hstays
      cases queued with
      | false => exact absurd rfl hstays
      | true =>
          have htype : type = Msg.listenerAlert := by
            by_contra hother
            apply hstays
            show (true && !decide (type = Msg.listenerAlert)) = true
            rw [decide_eq_false hother]
            rfl
          refine ⟨_, List.mem_singleton_self _, ?_⟩
          rw [typed_post]
          exact decide_eq_true htype

/-- What holds of a board that forgets nothing. -/
structure Owing (t : Told) : Prop where
  parks : t.board.ParksBulk
  nonce : t.board.NonceFits
  informed : Informed t.board.session.sending t.told

theorem owing_boot (curve : P256) (buildType : BuildType) (identity : Option (List UInt8))
    (registration : Option (List UInt8 × List UInt8)) :
    Owing (boot curve buildType identity registration) where
  parks := nofun
  nonce := Lifecycle.nonceFits_boot curve buildType identity registration
  informed := informed_absent rfl

theorem Owing.step {curve : P256} {t : Told} (h : Owing t) {event : Event}
    (hbulk : t.CompletesBulk event) : Owing (t.step curve event) where
  parks := Lifecycle.parksBulk_step h.parks hbulk
  nonce := Lifecycle.nonceFits_step curve h.nonce event
  informed := h.informed.deed h.parks (Lifecycle.deed_step h.nonce event event.now_getD)
    (starts_renews curve t.board event)

/-- In every run in which the peer board hands over bulk frames only, what the session does not owe
its helper was told as it stands in the last frame of its kind, and a warning stays pending until
it was queued. -/
theorem debts_paid (curve : P256) (buildType : BuildType) (identity : Option (List UInt8))
    (registration : Option (List UInt8 × List UInt8)) (events : List Event)
    (hbulk : Along (step curve) CompletesBulk (boot curve buildType identity registration) events) :
    let t := run (step curve) (boot curve buildType identity registration) events
    Informed t.board.session.sending t.told ∧
      Along (step curve) (AlertKept curve) (boot curve buildType identity registration) events := by
  intro t
  have howing := owing_boot curve buildType identity registration
  refine ⟨(run_invariant_along Owing howing (fun _ _ hold hmeets ↦ hold.step hmeets)
    hbulk).informed, ?_⟩
  rw [Along.iff_splits]
  intro before event after hsplit
  have hnonce : (run (step curve) (boot curve buildType identity registration)
      before).board.NonceFits :=
    run_invariant (fun t : Told ↦ t.board.NonceFits) howing.nonce
      (fun t event h ↦ Lifecycle.nonceFits_step curve h event) before
  exact alert_deed (Lifecycle.deed_step hnonce event event.now_getD)

/-! ## Two chunks of which packets are lost -/

/-- A development board takes a hello, its ack leaves in two reports, and it tells its policy. -/
def greeting : List Event :=
  [.stageNonce (List.replicate nonceSize 0x44),
   .receiveReport 0 (reportFrameStart :: Observed.plainHello.bytes.take reportStreamSize),
   .receiveReport 0 (reportFrameContinues :: Observed.plainHello.bytes.drop reportStreamSize),
   .drainReport 0, .drainReport 0, .pumpOut 0 true, .pumpOut 0 true, .sessionTick 1]

/-- Two chunks of the clipboard, the first with the header of a policy among its bytes. -/
def firstChunk : List UInt8 :=
  headerBytes Msg.clipChunk 0 20 ++ [1, 0, 0, 0] ++ headerBytes Msg.clipPolicy 0 20 ++
    List.replicate 12 0xAA
def secondChunk : List UInt8 := headerBytes Msg.clipChunk 0 4 ++ List.replicate 4 0xBB

/-- The first chunk arrives in full, and is tagged for the helper. -/
def wholeEvents : List Event :=
  greeting ++ (packetsOf firstChunk).map .peerPacket ++ [.pumpInbound 2]

/-- Of a run in which every packet arrives, the helper is told what is owed. -/
theorem debts_paid_whole :
    let t := run (step smallCurve) (boot smallCurve .development none none) wholeEvents
    Informed t.board.session.sending t.told ∧
      Along (step smallCurve) (AlertKept smallCurve) (boot smallCurve .development none none)
        wholeEvents :=
  debts_paid smallCurve .development none none wholeEvents (by decide)

/-- The packets that arrive when the first data packet of the first chunk is lost and the
announcement of the second. -/
def survivingPackets : List RelayPacket :=
  (packetsOf firstChunk).eraseIdx 1 ++ (packetsOf secondChunk).drop 1

/-- The board tells its helper a policy that is not its own: what is left of the two chunks reads as
one, is tagged like one, and is the last one queued. -/
theorem spliced_policy_told :
    let t := run (step smallCurve) (boot smallCurve .development none none)
      (greeting ++ survivingPackets.map .peerPacket ++ [.pumpInbound 2])
    survivingPackets.Sublist (packetsOf firstChunk ++ packetsOf secondChunk) ∧
      t.board.session.present = true ∧ t.board.session.clipPolicyOwed = false ∧
      lastBody Msg.clipPolicy t.told = some (List.replicate 12 0xAA ++ secondChunk) ∧
      ¬ Informed t.board.session.sending t.told := by
  intro t
  have hpresent : t.board.session.present = true := by decide
  have howed : t.board.session.clipPolicyOwed = false := by decide
  have hlast : lastBody Msg.clipPolicy t.told = some (List.replicate 12 0xAA ++ secondChunk) := by
    decide
  have hown : [t.board.session.clipFlags, t.board.session.clipCapMb] = [3, 0] := by decide
  refine ⟨by decide, hpresent, howed, hlast, fun h ↦ ?_⟩
  have htold := h.policy hpresent howed
  rw [hlast] at htold
  exact absurd (Option.some.inj (htold.trans (congrArg some hown))) (by decide)

end Told

end DeskhopPlus.Board
