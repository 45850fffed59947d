import DeskhopPlus.Board.Counters
import DeskhopPlus.Outq.Leading

/-!
# What waits for the helper

Frames are tagged when they are built and leave later, so a session may be replaced while frames of
the old one wait. Every event only offers the queues what it builds, except that the start of a
session and the loss of the link empty them first. So the frames that wait while there is a session
carry its tag, and the ack of a hello is what leaves first: `Waits` says both, and `waits_run` that
they hold in every run.
-/

namespace DeskhopPlus.Board

open Wire Outq Auth Crypto Runs Session

/-- Both queues come from those before by offers of what was built. -/
structure Feeds (c c' : Lifecycle) (posts : List Posting) : Prop where
  out : Offers (posts.map (·.frame)) c.out c'.out
  extraOut : Offers (posts.map (·.frame)) c.extraOut c'.extraOut

variable {c c' : Lifecycle}

theorem Feeds.of_same {posts : List Posting} (hout : c'.out = c.out)
    (hextra : c'.extraOut = c.extraOut) : Feeds c c' posts := by
  constructor
  · rw [hout]
    exact .refl _
  · rw [hextra]
    exact .refl _

/-- The queues are read off the channel. -/
theorem Feeds.trans_same {before : Lifecycle} {posts : List Posting} (hout : before.out = c.out)
    (hextra : before.extraOut = c.extraOut) (h : Feeds before c' posts) : Feeds c c' posts :=
  ⟨hout ▸ h.out, hextra ▸ h.extraOut⟩

namespace Lifecycle

theorem feeds_queue (before : Lifecycle) (hout : before.out = c.out)
    (hextra : before.extraOut = c.extraOut) (tagged : Option (List UInt8 × UInt64))
    (frame : List UInt8) (now : UInt32) :
    Feeds c (before.queue frame now).2 [before.posting tagged frame now] := by
  have hmem : frame ∈ [before.posting tagged frame now].map (·.frame) := List.mem_singleton_self _
  constructor
  · rw [← hout]
    simp only [queue, track, setOutput, output]
    split
    · exact .offer hmem _
    · exact .refl _
  · rw [← hextra]
    simp only [queue, track, setOutput, output]
    split
    · exact .refl _
    · exact .offer hmem _

theorem feeds_emitPlacement (c : Lifecycle) (type : UInt8) (body : List UInt8) (now : UInt32) :
    Feeds c (c.emitPlacement type body now).2 (c.placementPostings type body now) := by
  unfold emitPlacement placementPostings
  by_cases hlong : placeBodySize < body.length
  · rw [if_pos hlong, if_pos hlong]
    exact .of_same rfl rfl
  · rw [if_neg hlong, if_neg hlong]
    cases c.session.emitRelayed { type := type, flags := 0, payload := body }
        (headerSize + authPrefixSize + placeBodySize) with
    | mk rc session =>
        cases rc with
        | error fault => exact .of_same rfl rfl
        | ok frame =>
            exact feeds_queue (c := c) { c with session := session } rfl rfl c.nextTag frame now

theorem feeds_sendPlace (c : Lifecycle) (owed now : UInt32) :
    Feeds c (c.sendPlace owed now) c.placePostings := by
  unfold sendPlace placePostings
  cases c.session.emitRelayed { type := Msg.place, flags := 0, payload := c.placeBody }
      (headerSize + authPrefixSize + placeBodySize) with
  | mk rc session =>
      cases rc with
      | error fault => exact .of_same rfl rfl
      | ok placeFrame =>
          simp only
          cases session.emitRelayed
              { type := Msg.posQuery, flags := 0, payload := [c.placeQueryId] }
              (headerSize + authPrefixSize + posQueryBodySize) with
          | mk rc' session' =>
              cases rc' with
              | error fault => exact .of_same rfl rfl
              | ok queryFrame =>
                  refine ⟨?_, .refl _⟩
                  show Offers _ c.out (c.out.offerPair placeFrame queryFrame).2
                  exact .offerPair (List.mem_cons_self ..)
                    (List.mem_cons_of_mem _ (List.mem_cons_self ..)) _

theorem feeds_pumpPlace (c : Lifecycle) (now : UInt32) :
    Feeds c (c.pumpPlace now) (c.pumpPlacePostings now) := by
  unfold pumpPlace pumpPlacePostings
  extract_lets owed stale c'
  have hsame : c'.out = c.out ∧ c'.extraOut = c.extraOut := by
    simp only [c']
    split <;> exact ⟨rfl, rfl⟩
  by_cases hnone : owed = c'.placeSent ∨ c'.out.pairBusy = true
  · rw [if_pos hnone, if_pos hnone]
    exact .of_same hsame.1 hsame.2
  · rw [if_neg hnone, if_neg hnone]
    by_cases habsent : c'.session.present = false
    · rw [if_pos habsent, if_pos habsent]
      exact .of_same hsame.1 hsame.2
    · rw [if_neg habsent, if_neg habsent]
      exact Feeds.trans_same hsame.1 hsame.2 (feeds_sendPlace c' owed now)

theorem feeds_pumpArrival (c : Lifecycle) (now : UInt32) :
    Feeds c (c.pumpArrival now) (c.arrivalPostings now) := by
  unfold pumpArrival arrivalPostings
  by_cases hnone : (c.arrivalOwed && !c.out.priorityFull) = false
  · rw [if_pos hnone, if_pos hnone]
    exact .of_same rfl rfl
  · rw [if_neg hnone, if_neg hnone]
    by_cases habsent : c.session.present = false
    · rw [if_pos habsent, if_pos habsent]
      exact .of_same rfl rfl
    · rw [if_neg habsent, if_neg habsent]
      have hfeeds := feeds_emitPlacement c Msg.arrival [] now
      exact ⟨hfeeds.out, hfeeds.extraOut⟩

theorem feeds_pumpPeerBoardSession (c : Lifecycle) (now : UInt32) (curve : P256) :
    Feeds c (c.pumpPeerBoardSession now) (c.postings curve (.pumpPeerBoardSession now)) := by
  have hsame : (c.judgePeerBoard now).out = c.out ∧
      (c.judgePeerBoard now).extraOut = c.extraOut := by
    unfold judgePeerBoard
    simp only
    split <;> exact ⟨rfl, rfl⟩
  show Feeds c ((c.judgePeerBoard now).tellPeerBoard _ now)
    ((c.judgePeerBoard now).peerBoardPostings _ now)
  generalize c.judgePeerBoard now = judged at hsame
  refine Feeds.trans_same hsame.1 hsame.2 ?_
  unfold tellPeerBoard peerBoardPostings
  generalize (if judged.peerBoardSession then (1 : UInt8) else 0) = live
  by_cases hnone : judged.session.present = false ∨ judged.out.priorityFull = true ∨
      judged.peerBoardTold = live
  · rw [if_pos hnone, if_pos hnone]
    exact .of_same rfl rfl
  · rw [if_neg hnone, if_neg hnone]
    have hfeeds := feeds_emitPlacement judged Msg.peerHelper [live] now
    exact ⟨hfeeds.out, hfeeds.extraOut⟩

theorem feeds_pumpQuery (c : Lifecycle) (now : UInt32) (taken : Bool) :
    Feeds c (c.pumpQuery now taken) (c.queryPostings now) := by
  unfold pumpQuery queryPostings askCursor
  by_cases hnone : c.cursorQueryOrigin = .none
  · rw [if_pos hnone, if_pos hnone]
    exact .of_same rfl rfl
  · rw [if_neg hnone, if_neg hnone]
    by_cases habsent : c.session.present = false
    · rw [if_pos habsent, if_pos habsent]
      exact .of_same rfl rfl
    · rw [if_neg habsent, if_neg habsent]
      have hfeeds := feeds_emitPlacement c Msg.posQuery [c.cursorQueryId] now
      exact ⟨hfeeds.out, hfeeds.extraOut⟩

theorem feeds_pumpInbound (c : Lifecycle) (now : UInt32) :
    Feeds c (c.pumpInbound now).2 (c.inboundPostings now) := by
  unfold pumpInbound inboundPostings
  cases c.inbound.peek with
  | none => exact .of_same rfl rfl
  | some bytes =>
      simp only [tagInbound]
      cases decode bytes with
      | error fault => exact .of_same rfl rfl
      | ok decoded =>
          obtain ⟨view, count⟩ := decoded
          simp only
          cases c.session.emitRelayed view maxFrame with
          | mk rc session =>
              cases rc with
              | error fault => exact .of_same rfl rfl
              | ok tagged =>
              exact feeds_queue (c := c)
                { c with inbound := c.inbound.release, session := session } rfl rfl c.nextTag tagged
                now

theorem feeds_endSession (c : Lifecycle) (reason : EndReason) (now : UInt32) :
    Feeds c (c.endSession reason now) (c.endPostings reason now) := by
  unfold endSession endPostings
  cases c.session.finish reason 0 replyMax with
  | mk rc session =>
      cases rc with
      | error fault => exact .of_same rfl rfl
      | ok bytes =>
          cases bytes with
          | nil => exact .of_same rfl rfl
          | cons type rest =>
              exact feeds_queue (c := c) { c with session := session } rfl rfl c.nextTag
                (type :: rest) now

/-- The end of a session is no ack. -/
theorem endPostings_no_ack (c : Lifecycle) (reason : EndReason) (now : UInt32) :
    ((c.endPostings reason now).any fun post ↦ typed Msg.helloAck post.frame) = false := by
  unfold endPostings
  by_cases habsent : c.session.present = false
  · rw [finish_absent habsent]
    rfl
  · rw [finish, if_neg habsent]
    cases hframe : encodeTagged Msg.sessionEnd 0 c.session.kB2h c.session.txCounter
        (reason.byte :: Bytes.littleEndian 4 (0 : UInt32).toNat) replyMax with
    | error fault => rfl
    | ok bytes =>
        obtain rfl := (frame_ok hframe).1
        rfl

theorem feeds_sessionTick (c : Lifecycle) (now : UInt32) :
    Feeds c (c.sessionTick now) (c.tickPostings now) := by
  unfold sessionTick tickPostings
  cases c.session.tick now replyMax with
  | mk rc session =>
      cases rc with
      | error fault => exact .of_same rfl rfl
      | ok bytes =>
          cases bytes with
          | nil => exact .of_same rfl rfl
          | cons type rest =>
              have hqueued := feeds_queue (c := c) { c with session := session } rfl rfl c.nextTag
                (type :: rest) now
              exact ⟨hqueued.out, hqueued.extraOut⟩

/-- The answer to a frame is offered to the queues as they are, and to empty ones if it is an
ack. -/
theorem answering_outputs (curve : P256) (c : Lifecycle) (view : FrameView) (now : UInt32) :
    ((∃ rest, (c.session.onFrame curve c.pair view now replyMax).1 = .ok (Msg.helloAck :: rest)) ∧
        (c.answering curve view now).out = c.out.reset ∧
        (c.answering curve view now).extraOut = c.extraOut.reset) ∨
      ((∀ rest,
          (c.session.onFrame curve c.pair view now replyMax).1 ≠ .ok (Msg.helloAck :: rest)) ∧
        (c.answering curve view now).out = c.out ∧
        (c.answering curve view now).extraOut = c.extraOut) := by
  unfold answering
  generalize c.session.onFrame curve c.pair view now replyMax = answer
  obtain ⟨rc, session, pair⟩ := answer
  cases rc with
  | error fault => exact .inr ⟨nofun, rfl, rfl⟩
  | ok bytes =>
      cases bytes with
      | nil => exact .inr ⟨nofun, rfl, rfl⟩
      | cons type rest =>
          by_cases hack : type = Msg.helloAck
          · subst hack
            exact .inl ⟨⟨rest, rfl⟩, rfl, rfl⟩
          · refine .inr ⟨fun other heq ↦ hack ?_, ?_⟩
            · injection heq with heq
              exact (List.cons.inj heq).1
            · simp [hack]

/-- The channel that frames are offered to: its queues are emptied for an ack. -/
def emptiedFor (c : Lifecycle) (posts : List Posting) : Lifecycle :=
  if posts.any (fun post ↦ typed Msg.helloAck post.frame) then c.resetOutput else c

theorem feeds_channelOnFrame (curve : P256) (c : Lifecycle) (view : FrameView) (now : UInt32) :
    Feeds (c.emptiedFor (c.answerPostings curve view now)) (c.channelOnFrame curve view now)
      (c.answerPostings curve view now) := by
  rw [channelOnFrame_eq]
  unfold answerPostings emptiedFor
  rcases answering_outputs curve c view now with ⟨⟨rest, hanswer⟩, hout, hextra⟩ |
    ⟨hanswer, hout, hextra⟩
  · have htyped : typed Msg.helloAck (Msg.helloAck :: rest) = true := by simp [typed]
    rw [hanswer]
    simp only [List.any_cons, posting, htyped, Bool.true_or, if_true]
    exact feeds_queue (c := c.resetOutput) _ hout hextra _ (Msg.helloAck :: rest) now
  · cases hbytes : (c.session.onFrame curve c.pair view now replyMax).1 with
    | error fault => exact .of_same hout hextra
    | ok bytes =>
        cases bytes with
        | nil => exact .of_same hout hextra
        | cons type rest =>
            have htyped : typed Msg.helloAck (type :: rest) = false := by
              by_contra h
              have hhead : typed Msg.helloAck (type :: rest) = true := by simpa using h
              have hack : type = Msg.helloAck := Option.some.inj (of_decide_eq_true hhead)
              exact hanswer rest (hack ▸ hbytes)
            simp only [List.any_cons, List.any_nil, posting, htyped, Bool.or_false,
              Bool.false_eq_true, if_false]
            exact feeds_queue (c := c) _ hout hextra _ (type :: rest) now

/-- What does not rotate goes to the first channel. -/
theorem queue_unstriped (c : Lifecycle) {frame : List UInt8} (h : striped frame = false)
    (now : UInt32) :
    (c.queue frame now).2.out = (c.out.offer frame).2 ∧
      (c.queue frame now).1 = decide ((c.out.offer frame).1 = .ok) := by
  have hindex : c.outputIndex frame = 0 := by simp [outputIndex, h]
  constructor
  · simp only [queue, track, setOutput, output, hindex]
    rfl
  · simp only [queue, output, hindex]
    rfl

/-- The only frame an answer builds is offered to an emptied first channel if it is an ack. -/
def AcksOn (c : Lifecycle) (posts : List Posting) (c' : Lifecycle) : Prop :=
  posts.any (fun post ↦ typed Msg.helloAck post.frame) = true →
    ∃ post, posts = [post] ∧ typed Msg.helloAck post.frame = true ∧
      c'.out = (c.out.reset.offer post.frame).2 ∧
      post.queued = decide ((c.out.reset.offer post.frame).1 = .ok)

theorem acksOn_channelOnFrame (curve : P256) (c : Lifecycle) (view : FrameView) (now : UInt32) :
    AcksOn c (c.answerPostings curve view now) (c.channelOnFrame curve view now) := by
  rw [channelOnFrame_eq]
  unfold answerPostings
  rcases answering_outputs curve c view now with ⟨⟨rest, hanswer⟩, hout, -⟩ | ⟨hanswer, -, -⟩
  · rw [hanswer]
    intro _
    obtain ⟨hafter, hqueued⟩ := @Lifecycle.queue_unstriped
      (c.answering curve view now) (Msg.helloAck :: rest) rfl now
    rw [hout] at hafter hqueued
    exact ⟨_, rfl, rfl, hafter, hqueued⟩
  · intro hack
    cases hbytes : (c.session.onFrame curve c.pair view now replyMax).1 with
    | error fault =>
        rw [hbytes] at hack
        cases hack
    | ok bytes =>
        rw [hbytes] at hack
        cases bytes with
        | nil => cases hack
        | cons type rest =>
            simp only [List.any_cons, List.any_nil, posting, Bool.or_false] at hack
            have htype : type = Msg.helloAck := Option.some.inj (of_decide_eq_true hack)
            exact absurd (htype ▸ hbytes) (hanswer rest)

theorem feeds_onFrame (curve : P256) (c : Lifecycle) (index : Nat) (view : FrameView)
    (now : UInt32) (hhere : authenticatesHere view.type = true) :
    Feeds c (c.onFrame curve index view now) [] := by
  unfold onFrame
  rw [if_pos hhere]
  cases c.session.authenticate view now with
  | mk rc session =>
      cases rc with
      | error fault => exact .of_same rfl rfl
      | ok body =>
          simp only
          split <;> exact .of_same rfl rfl

theorem takeReport_outputs {c taken : Lifecycle} {rc : Except FrameFault FrameView} {index : Nat}
    (h : c.takeReport = some (rc, index, taken)) :
    taken.out = c.out ∧ taken.extraOut = c.extraOut := by
  unfold takeReport at h
  split at h
  · cases h
  · cases h
    exact ⟨rfl, rfl⟩

theorem feeds_drainReport (curve : P256) (c : Lifecycle) (now : UInt32) :
    Feeds (c.emptiedFor (c.drainPostings curve now)) (c.drainReport curve now).2
      (c.drainPostings curve now) := by
  unfold drainReport drainPostings
  cases htaken : c.takeReport with
  | none => exact .of_same rfl rfl
  | some taking =>
      obtain ⟨rc, index, taken⟩ := taking
      obtain ⟨hout, hextra⟩ := takeReport_outputs htaken
      cases rc with
      | error fault =>
          have hend : Feeds (c.emptiedFor (taken.endPostings .protocolError now))
              (taken.endSession .protocolError now).resetReaders
              (taken.endPostings .protocolError now) := by
            have hfeeds := feeds_endSession taken .protocolError now
            rw [emptiedFor, endPostings_no_ack taken .protocolError now, if_neg Bool.false_ne_true]
            exact .trans_same hout hextra ⟨hfeeds.out, hfeeds.extraOut⟩
          cases fault with
          | again => exact .of_same hout hextra
          | _ => exact hend
      | ok view =>
          simp only
          generalize hposts : (if taken.handsOn index view = true ∧
            authenticatesHere view.type = false then taken.answerPostings curve view now else []) =
            posts
          by_cases hanswered : taken.handsOn index view = true ∧ authenticatesHere view.type = false
          · rw [if_pos hanswered] at hposts
            subst hposts
            have hhere : ¬ authenticatesHere view.type = true := by simp [hanswered.2]
            rw [if_pos hanswered.1, onFrame, if_neg hhere]
            refine Feeds.trans_same ?_ ?_ (feeds_channelOnFrame curve taken view now)
            · unfold emptiedFor
              split
              · exact congrArg Outq.reset hout
              · exact hout
            · unfold emptiedFor
              split
              · exact congrArg Outq.reset hextra
              · exact hextra
          · rw [if_neg hanswered] at hposts
            subst hposts
            by_cases hon : taken.handsOn index view = true
            · have hhere : authenticatesHere view.type = true := by
                simpa using fun h ↦ hanswered ⟨hon, h⟩
              rw [if_pos hon]
              exact .trans_same hout hextra (feeds_onFrame curve taken index view now hhere)
            · rw [if_neg hon]
              exact .of_same hout hextra

theorem acksOn_drainReport (curve : P256) (c : Lifecycle) (now : UInt32) :
    AcksOn c (c.drainPostings curve now) (c.drainReport curve now).2 := by
  unfold drainReport drainPostings
  cases htaken : c.takeReport with
  | none => exact nofun
  | some taking =>
      obtain ⟨rc, index, taken⟩ := taking
      obtain ⟨hout, -⟩ := takeReport_outputs htaken
      cases rc with
      | error fault =>
          have hend : AcksOn c (taken.endPostings .protocolError now)
              (taken.endSession .protocolError now).resetReaders := by
            intro hack
            rw [endPostings_no_ack taken .protocolError now] at hack
            cases hack
          cases fault with
          | again => exact nofun
          | _ => exact hend
      | ok view =>
          simp only
          split
          · rename_i hanswered
            have hhere : ¬ authenticatesHere view.type = true := by simp [hanswered.2]
            rw [if_pos hanswered.1, onFrame, if_neg hhere]
            have hacks := acksOn_channelOnFrame curve taken view now
            unfold AcksOn at hacks ⊢
            rwa [hout] at hacks
          · exact nofun

/-- The channel that an event offers to: queues that have just been emptied, after a restart. -/
def offeredTo (curve : P256) (c : Lifecycle) (event : Event) : Lifecycle :=
  if c.restarts curve event then c.resetOutput else c

/-- Every event but a turn of the pump offers what it builds, and does nothing else to the queues
than to empty them first. -/
theorem feeds_step (curve : P256) (c : Lifecycle) (event : Event)
    (hpump : ∀ index taken, event ≠ .pumpOut index taken) :
    Feeds (c.offeredTo curve event) (c.step curve event) (c.postings curve event) := by
  cases event with
  | drainReport now =>
      have hsame : c.offeredTo curve (.drainReport now) =
          c.emptiedFor (c.drainPostings curve now) := by
        unfold offeredTo restarts emptiedFor
        simp [renews]
      rw [hsame]
      exact feeds_drainReport curve c now
  | pumpPlace now => exact feeds_pumpPlace c now
  | pumpQuery now taken => exact feeds_pumpQuery c now taken
  | pumpArrival now => exact feeds_pumpArrival c now
  | pumpPeerBoardSession now => exact feeds_pumpPeerBoardSession c now curve
  | pumpInbound now => exact feeds_pumpInbound c now
  | sessionTick now => exact feeds_sessionTick c now
  | configWiped now =>
      have hfeeds := feeds_endSession c .unpaired now
      exact ⟨hfeeds.out, hfeeds.extraOut⟩
  | pumpOut index taken => exact absurd rfl (hpump index taken)
  | linkLost => exact .of_same rfl rfl
  | receiveReport index buffer =>
      have hsame : (c.receiveChannelReport index buffer).out = c.out ∧
          (c.receiveChannelReport index buffer).extraOut = c.extraOut := by
        unfold receiveChannelReport
        split
        · exact ⟨rfl, rfl⟩
        · simp only
          split <;> exact ⟨rfl, rfl⟩
      exact .of_same hsame.1 hsame.2
  | pumpRelay taken =>
      have hsame : (c.pumpRelay taken).2.out = c.out ∧
          (c.pumpRelay taken).2.extraOut = c.extraOut := by
        unfold pumpRelay
        split
        · exact ⟨rfl, rfl⟩
        · split <;> exact ⟨rfl, rfl⟩
      exact .of_same hsame.1 hsame.2
  | stageNonce nonce =>
      have hsame : (c.stageNonce nonce).out = c.out ∧
          (c.stageNonce nonce).extraOut = c.extraOut := by
        unfold stageNonce
        split <;> exact ⟨rfl, rfl⟩
      exact .of_same hsame.1 hsame.2
  | owePlace body queryId now =>
      have hsame : (c.owePlace body queryId now).out = c.out ∧
          (c.owePlace body queryId now).extraOut = c.extraOut := by
        unfold owePlace
        split <;> exact ⟨rfl, rfl⟩
      exact .of_same hsame.1 hsame.2
  | queryCursor origin queryId =>
      have hsame : (c.queryCursor origin queryId).out = c.out ∧
          (c.queryCursor origin queryId).extraOut = c.extraOut := by
        unfold queryCursor
        split
        · exact ⟨rfl, rfl⟩
        · split <;> exact ⟨rfl, rfl⟩
      exact .of_same hsame.1 hsame.2
  | peerPacket packet =>
      have hsame : (c.peerPacket packet).out = c.out ∧
          (c.peerPacket packet).extraOut = c.extraOut := by
        unfold peerPacket
        split <;> exact ⟨rfl, rfl⟩
      exact .of_same hsame.1 hsame.2
  | saveRegistration | updateConfig | pairTick | relayYield | openPairingWindow | arrive
  | peerBoardHeartbeat =>
      exact .of_same rfl rfl

end Lifecycle

/-! ## The run -/

/-- What a deed tags is under the key of the session that is there after it. -/
theorem key_after_deed {c : Lifecycle} {kind : EventKind} {now : UInt32} {s' : Session}
    {posts : List Posting} (hdeed : Deed c kind now s' posts) (hpresent : s'.present = true)
    {post : Posting} (hpost : post ∈ posts) : ∀ pair ∈ post.tagged, pair.1 = s'.kB2h := by
  have hkey : ∀ {x : Sending}, s'.sending = x → x.kB2h = s'.kB2h :=
    fun hsending ↦ (congrArg Sending.kB2h hsending).symm
  cases hdeed with
  | rests | drops | configures => cases hpost
  | tags hkind hrelays hbefore hsending =>
      rw [List.mem_singleton.1 hpost]
      rintro pair ⟨⟩
      have hsame := hkey hsending
      exact hsame
  | places hkind hbefore hsending =>
      simp only [List.mem_cons, List.not_mem_nil, or_false] at hpost
      have hsame := hkey hsending
      rcases hpost with rfl | rfl <;> rintro pair ⟨⟩ <;> exact hsame
  | ends halert hbefore hsending =>
      have hgone : s'.present = false := congrArg Sending.present hsending
      rw [hgone] at hpresent
      cases hpresent
  | answers =>
      rw [List.mem_singleton.1 hpost]
      exact nofun
  | starts hkind hstaged hspent hsending =>
      rw [List.mem_singleton.1 hpost]
      rintro pair ⟨⟩
      have hsame := hkey hsending
      exact hsame
  | ticks hkind halert hbefore howes hsending =>
      rename_i alert type body
      rw [List.mem_singleton.1 hpost]
      rintro pair ⟨⟩
      obtain ⟨-, hsame, -⟩ :=
        told_present { c.session.sending with alertPending := alert } now type (!c.out.priorityFull)
      exact hsame.symm.trans (hkey hsending)

namespace Builder

variable {curve : P256} {b : Builder} {event : Event}

/-- The frame was built, and under the key of the session if it is tagged. -/
def Under (b : Builder) (frame : List UInt8) : Prop :=
  ∃ post ∈ b.built, post.frame = frame ∧ ∀ pair ∈ post.tagged, pair.1 = b.board.session.kB2h

/-- The queues are well formed, what waits in a session is under its key, and the last ack, which is
the first frame of its session, leads the first channel. -/
structure Waits (b : Builder) : Prop where
  out : b.board.out.WellFormed
  extraOut : b.board.extraOut.WellFormed
  under : b.board.session.present = true →
    ∀ id, ∀ frame ∈ (b.board.out.band id).frames ++ (b.board.extraOut.band id).frames, b.Under frame
  acked : ∀ ack ∈ b.ack, ∃ entry body, b.started.getLast? = some entry ∧
    ack = (builtView Msg.helloAck 0 entry.1 0 body).bytes
  leads : ∀ ack ∈ b.ack, Leads ack b.drained b.board.out

theorem waits_boot (curve : P256) (buildType : BuildType) (identity : Option (List UInt8))
    (registration : Option (List UInt8 × List UInt8)) :
    Waits (boot curve buildType identity registration) where
  out := wellFormed_reset _
  extraOut := wellFormed_reset _
  under := nofun
  acked := nofun
  leads := nofun

/-- What a turn of the pump leaves of the queues. -/
theorem pumpOut_queues (c : Lifecycle) (index : Nat) (taken : Bool) :
    Grows [] c.out (c.pumpOut index taken).out ∧
      Grows [] c.extraOut (c.pumpOut index taken).extraOut := by
  unfold Lifecycle.pumpOut
  split
  · exact ⟨.refl _, .refl _⟩
  · rename_i owed howed
    split
    · by_cases hindex : index = 0
      · simp only [Lifecycle.output, if_pos hindex] at howed
        simp only [Lifecycle.setOutput, Lifecycle.output, if_pos hindex]
        exact ⟨grows_advance howed _, .refl _⟩
      · simp only [Lifecycle.output, if_neg hindex] at howed
        simp only [Lifecycle.setOutput, Lifecycle.output, if_neg hindex]
        exact ⟨.refl _, grows_advance howed _⟩
    · exact ⟨.refl _, .refl _⟩

/-- What an event leaves of the queues: what it built is added to what was there, unless it emptied
them. -/
theorem queues_step (curve : P256) (c : Lifecycle) (event : Event) :
    Grows ((c.postings curve event).map (·.frame)) (c.offeredTo curve event).out
        (c.step curve event).out ∧
      Grows ((c.postings curve event).map (·.frame)) (c.offeredTo curve event).extraOut
        (c.step curve event).extraOut := by
  by_cases hpump : ∃ index taken, event = .pumpOut index taken
  · obtain ⟨index, taken, rfl⟩ := hpump
    exact pumpOut_queues c index taken
  · have hfeeds := Lifecycle.feeds_step curve c event
      fun index taken heq ↦ hpump ⟨index, taken, heq⟩
    exact ⟨hfeeds.out.grows, hfeeds.extraOut.grows⟩

theorem offeredTo_queues (curve : P256) (c : Lifecycle) (event : Event) :
    Grows [] c.out (c.offeredTo curve event).out ∧
      Grows [] c.extraOut (c.offeredTo curve event).extraOut := by
  unfold Lifecycle.offeredTo
  split
  · exact ⟨grows_reset _, grows_reset _⟩
  · exact ⟨.refl _, .refl _⟩

/-- Emptied queues hold nothing. -/
theorem offeredTo_empty {c : Lifecycle} (h : c.renews curve event = true) (id : BandId) :
    ((c.offeredTo curve event).out.band id).frames = [] ∧
      ((c.offeredTo curve event).extraOut.band id).frames = [] := by
  have hrestarts : c.restarts curve event = true := by simp [Lifecycle.restarts, h]
  rw [Lifecycle.offeredTo, if_pos hrestarts]
  cases id <;> exact ⟨Band.frames_init _, Band.frames_init _⟩

/-- What waits after an event in a session waited before it in the same session, or was built by
it. -/
theorem Waits.under_step (hwaits : Waits b) (haccounted : Accounted b)
    (hpresent : (b.step curve event).board.session.present = true)
    (id : BandId) {frame : List UInt8}
    (hframe : frame ∈ ((b.step curve event).board.out.band id).frames ++
      ((b.step curve event).board.extraOut.band id).frames) :
    (b.step curve event).Under frame := by
  have hdeed := haccounted.deed curve event
  obtain ⟨hout, hextra⟩ := queues_step curve b.board event
  obtain ⟨hout', hextra'⟩ := offeredTo_queues curve b.board event
  obtain ⟨hwell, hsub⟩ := hout' hwaits.out
  obtain ⟨hwell', hsub'⟩ := hextra' hwaits.extraOut
  have hnew : frame ∈ (b.board.postings curve event).map (·.frame) →
      (b.step curve event).Under frame := by
    intro hbuilt
    obtain ⟨post, hpost, rfl⟩ := List.mem_map.1 hbuilt
    exact ⟨post, List.mem_append_right _ hpost, rfl, key_after_deed hdeed hpresent hpost⟩
  have hold : frame ∈ ((b.board.offeredTo curve event).out.band id).frames ++
      ((b.board.offeredTo curve event).extraOut.band id).frames →
      (b.step curve event).Under frame := by
    intro hbefore
    rcases live_of_deed hdeed hpresent with ⟨hthere, hkey⟩ | ⟨hkind, hack⟩
    · -- the session goes on with its key
      have hwaited : frame ∈ (b.board.out.band id).frames ++ (b.board.extraOut.band id).frames := by
        rcases List.mem_append.1 hbefore with hfirst | hsecond
        · exact List.mem_append_left _ ((hsub id frame hfirst).resolve_right nofun)
        · exact List.mem_append_right _ ((hsub' id frame hsecond).resolve_right nofun)
      obtain ⟨post, hpost, hsame, htagged⟩ := hwaits.under hthere id frame hwaited
      exact ⟨post, List.mem_append_left _ hpost, hsame,
        fun pair hpair ↦ (htagged pair hpair).trans hkey.symm⟩
    · -- a session starts with empty queues
      obtain ⟨hempty, hempty'⟩ := offeredTo_empty (renews_of_ack hkind hack) id
      rw [hempty, hempty'] at hbefore
      cases hbefore
  rcases List.mem_append.1 hframe with hfirst | hsecond
  · rcases (hout hwell).2 id frame hfirst with hbefore | hbuilt
    · exact hold (List.mem_append_left _ hbefore)
    · exact hnew hbuilt
  · rcases (hextra hwell').2 id frame hsecond with hbefore | hbuilt
    · exact hold (List.mem_append_right _ hbefore)
    · exact hnew hbuilt

/-- An ack is the first frame under the key of the session it starts. -/
theorem ack_of_deed {c : Lifecycle} {now : UInt32} {s' : Session} {post : Posting}
    (hdeed : Deed c .report now s' [post]) (hack : typed Msg.helloAck post.frame = true) :
    ∃ body, post =
      { tagged := some (s'.kB2h, 0)
        frame := (builtView Msg.helloAck 0 s'.kB2h 0 body).bytes
        queued := true } := by
  cases hdeed with
  | ends =>
      rw [typed_post] at hack
      cases hack
  | answers hkind htype =>
      have hhead := Option.some.inj (of_decide_eq_true hack)
      rw [hhead] at htype
      cases htype
  | starts hkind hstaged hspent hsending =>
      rename_i channelCount sharedSecret helperNonce body
      have hkey := congrArg Sending.kB2h hsending
      refine ⟨body, ?_⟩
      rw [show s'.kB2h = _ from hkey]
      rfl
  | tags hno | ticks hno => cases hno

/-- What holds of the first channel and what was taken of it goes on holding as the pump takes
more. -/
theorem pumpOut_first {P : List UInt8 → Outq → Prop} {c : Lifecycle} {drained : List UInt8}
    (index : Nat) (taken : Bool)
    (htake : ∀ {view : View}, c.out.peek = some view → P drained c.out →
      P (drained ++ view.atBytes.take (pumpTake view)) (c.out.advance view (pumpTake view)))
    (h : P drained c.out) :
    P (drained ++ c.drains (.pumpOut index taken)) (c.pumpOut index taken).out := by
  unfold Lifecycle.pumpOut Lifecycle.drains
  by_cases hfirst : index = 0 ∧ taken = true
  · obtain ⟨rfl, rfl⟩ := hfirst
    simp only [and_self, if_true]
    have hpeek : (c.output 0).peek = c.out.peek := rfl
    rw [hpeek]
    cases howed : c.out.peek with
    | none => simpa using h
    | some owed => exact htake howed h
  · simp only [if_neg hfirst, List.append_nil]
    split
    · exact h
    · split
      · rename_i htaken
        have hindex : index ≠ 0 := fun heq ↦ hfirst ⟨heq, htaken⟩
        simpa only [Lifecycle.setOutput, if_neg hindex] using h
      · exact h

/-- The ack of a hello is the first frame of its session, and is offered to an empty queue, which
takes it. -/
theorem ack_of_renews (haccounted : Accounted b) (hrenews : b.board.renews curve event = true) :
    ∃ body, b.board.postings curve event =
        [{ tagged := some ((b.step curve event).board.session.kB2h, 0)
           frame := (builtView Msg.helloAck 0 (b.step curve event).board.session.kB2h 0 body).bytes
           queued := true }] ∧
      Leads (builtView Msg.helloAck 0 (b.step curve event).board.session.kB2h 0 body).bytes []
        (b.step curve event).board.out := by
  have hdeed := haccounted.deed curve event
  obtain ⟨hkind, -⟩ := kind_of_renews hrenews
  rw [hkind] at hdeed
  cases event with
  | drainReport now =>
      obtain ⟨post, hposts, htyped, hout, hqueued⟩ :=
        Lifecycle.acksOn_drainReport curve b.board now hrenews
      have hposts' : b.board.postings curve (.drainReport now) = [post] := hposts
      rw [hposts'] at hdeed
      obtain ⟨body, hpost⟩ := ack_of_deed hdeed htyped
      refine ⟨body, hposts'.trans (congrArg (fun post ↦ [post]) hpost), ?_⟩
      have htaken : post.queued = true := by rw [hpost]
      rw [htaken] at hqueued
      have hframe := congrArg Posting.frame hpost
      have hleads : Leads post.frame [] (b.board.out.reset.offer post.frame).2 := by
        refine leads_start b.board.out (of_decide_eq_true hqueued.symm) ?_
        rw [hframe]
        rfl
      rw [← hout, hframe] at hleads
      exact hleads
  | _ => cases hrenews

/-- Only a session that starts and a link that is lost restart the channel. -/
theorem restarts_cases (h : b.board.restarts curve event = true) :
    b.board.renews curve event = true ∨ (b.step curve event).ack = none := by
  cases hrenews : b.board.renews curve event with
  | true => exact .inl rfl
  | false =>
      have hlost : event = .linkLost := by
        simpa [Lifecycle.restarts, hrenews] using h
      subst hlost
      exact .inr rfl

/-- A channel that does not restart keeps its ack and its session. -/
theorem step_kept (h : ¬ b.board.restarts curve event = true) :
    (b.step curve event).ack = b.ack ∧ (b.step curve event).started = b.started ∧
      (b.step curve event).drained = b.drained ++ b.board.drains event := by
  have hrenews : b.board.renews curve event = false := by
    rw [Lifecycle.restarts, Bool.or_eq_true] at h
    simpa using fun hrenews ↦ h (.inl hrenews)
  simp [step, h, hrenews]

/-- After a restart the ack is that of the session that started. -/
theorem step_restarted (haccounted : Accounted b) (hrestarts : b.board.restarts curve event = true)
    {ack : List UInt8} (hack : (b.step curve event).ack = some ack) :
    (∃ body, ack =
        (builtView Msg.helloAck 0 (b.step curve event).board.session.kB2h 0 body).bytes) ∧
      Leads ack (b.step curve event).drained (b.step curve event).board.out ∧
      (b.step curve event).started = b.started ++
        [((b.step curve event).board.session.kB2h, b.board.session.stagedNonce)] := by
  rcases restarts_cases hrestarts with hrenews | hnone
  · obtain ⟨body, hposts, hleads⟩ := ack_of_renews haccounted hrenews
    have hframe : (b.step curve event).ack =
        some (builtView Msg.helloAck 0 (b.step curve event).board.session.kB2h 0 body).bytes := by
      show (if b.board.restarts curve event then _ else _) = _
      rw [if_pos hrestarts, hposts]
      rfl
    have hdrained : (b.step curve event).drained = [] := if_pos hrestarts
    rw [hframe] at hack
    obtain rfl := Option.some.inj hack
    refine ⟨⟨body, rfl⟩, hdrained ▸ hleads, ?_⟩
    show b.started ++ (if b.board.renews curve event then _ else _) = _
    rw [if_pos hrenews]
    rfl
  · rw [hnone] at hack
    cases hack

theorem Waits.step (hwaits : Waits b) (haccounted : Accounted b) : Waits (b.step curve event) where
  out := ((queues_step curve b.board event).1 ((offeredTo_queues curve b.board event).1
    hwaits.out).1).1
  extraOut := ((queues_step curve b.board event).2 ((offeredTo_queues curve b.board event).2
    hwaits.extraOut).1).1
  under hpresent id _ hframe := hwaits.under_step haccounted hpresent id hframe
  acked ack hack := by
    by_cases hrestarts : b.board.restarts curve event = true
    · obtain ⟨⟨body, hbody⟩, -, hstarted⟩ := step_restarted haccounted hrestarts hack
      rw [hstarted]
      exact ⟨_, body, List.getLast?_concat .., hbody⟩
    · obtain ⟨hsame, hstarted, -⟩ := step_kept hrestarts
      rw [hstarted]
      exact hwaits.acked ack (hsame ▸ hack)
  leads ack hack := by
    by_cases hrestarts : b.board.restarts curve event = true
    · exact (step_restarted haccounted hrestarts hack).2.1
    · obtain ⟨hsame, -, hdrained⟩ := step_kept hrestarts
      have hleads := hwaits.leads ack (hsame ▸ hack)
      rw [hdrained]
      by_cases hpump : ∃ index taken, event = .pumpOut index taken
      · obtain ⟨index, taken, rfl⟩ := hpump
        exact pumpOut_first index taken (fun hview hbefore ↦ hbefore.take hview) hleads
      · have hfeeds := Lifecycle.feeds_step curve b.board event
          fun index taken heq ↦ hpump ⟨index, taken, heq⟩
        have hnone : b.board.drains event = [] := by
          cases event with
          | pumpOut index taken => exact absurd ⟨index, taken, rfl⟩ hpump
          | _ => rfl
        rw [hnone, List.append_nil]
        rw [Lifecycle.offeredTo, if_neg hrestarts] at hfeeds
        exact hleads.offers hfeeds.out

theorem waits_run (curve : P256) (buildType : BuildType) (identity : Option (List UInt8))
    (registration : Option (List UInt8 × List UInt8)) (events : List Event) :
    Accounted (run (step curve) (boot curve buildType identity registration) events) ∧
      Waits (run (step curve) (boot curve buildType identity registration) events) :=
  run_invariant (fun b ↦ Accounted b ∧ Waits b)
    ⟨accounted_boot curve buildType identity registration,
      waits_boot curve buildType identity registration⟩
    (fun _ _ h ↦ ⟨h.1.step, h.2.step h.1⟩) events

end Builder

end DeskhopPlus.Board
