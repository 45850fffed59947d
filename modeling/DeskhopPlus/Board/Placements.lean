import DeskhopPlus.Board.Waiting
import DeskhopPlus.Library.Clock
import DeskhopPlus.Outq.Adjacent

/-!
# Placements owed from the other core

`channel_lifecycle_owe_place` runs on the other core, between any two of the sections this core
holds the lock for. Most of the channel neither reads nor writes what it leaves, so it may be
thought of before or after the rest of an event. `pump_place` copies what is owed in one section and
queues it in another, and the answer to a hello retires what is owed in a section after the session
has begun: `overlap` is an event during which the other core owes some placements. `Placing` numbers
what was owed and logs what was queued for it.
-/

namespace DeskhopPlus.Board

open Wire Outq Auth Crypto Runs Session

/-- A placement as `channel_lifecycle_owe_place` is called with it. -/
structure Owe where
  body : List UInt8
  queryId : UInt8
  stamp : UInt32
  deriving DecidableEq, Repr

/-- What a channel keeps of the placement it owes. -/
structure Debt where
  placeOwed : UInt32
  placeSent : UInt32
  placeOwedAt : UInt32
  placeBody : List UInt8
  placeQueryId : UInt8
  deriving DecidableEq, Repr

namespace Lifecycle

/-- The placement a channel owes. -/
def debt (c : Lifecycle) : Debt where
  placeOwed := c.placeOwed
  placeSent := c.placeSent
  placeOwedAt := c.placeOwedAt
  placeBody := c.placeBody
  placeQueryId := c.placeQueryId

/-- The channel with another placement owed. -/
def withDebt (c : Lifecycle) (debt : Debt) : Lifecycle :=
  { c with
    placeOwed := debt.placeOwed
    placeSent := debt.placeSent
    placeOwedAt := debt.placeOwedAt
    placeBody := debt.placeBody
    placeQueryId := debt.placeQueryId }

/-- Calls of the other core, in order. -/
def oweAll (c : Lifecycle) (owes : List Owe) : Lifecycle :=
  owes.foldl (fun c owe ↦ c.owePlace owe.body owe.queryId owe.stamp) c

/-- The second half of `pump_place`, over the copies its first section made. -/
def sendCopied (c : Lifecycle) (body : List UInt8) (queryId : UInt8) (owed now : UInt32) :
    Lifecycle :=
  match c.session.emitRelayed { type := Msg.place, flags := 0, payload := body }
      (headerSize + authPrefixSize + placeBodySize) with
  | (.error _, session) => { c with session := session }
  | (.ok placeFrame, session) =>
      match session.emitRelayed { type := Msg.posQuery, flags := 0, payload := [queryId] }
          (headerSize + authPrefixSize + posQueryBodySize) with
      | (.error _, session) => { c with session := session }
      | (.ok queryFrame, session) =>
          let (result, out) := c.out.offerPair placeFrame queryFrame
          let queued := result = .ok
          { c with
            out := out
            session := if queued then session.noteSent now else session
            placeSent := if queued then owed else c.placeSent }.track queued

/-- `pump_place` with calls of the other core between its two sections. -/
def pumpPlaceAmid (c : Lifecycle) (now : UInt32) (owes : List Owe) : Lifecycle :=
  let owed := c.placeOwed
  let stale := owed ≠ c.placeSent ∧ placeStaleMs.toInt32 < (now - c.placeOwedAt).toInt32
  let c := if stale then { c with placeSent := owed } else c
  let due := owed ≠ c.placeSent ∧ c.out.pairBusy = false
  let body := c.placeBody
  let queryId := c.placeQueryId
  -- the lock is released here, and the other core has its turn
  let c := c.oweAll owes
  if ¬ due then c
  else if c.session.present = false then { c with placeSent := owed }
  else c.sendCopied body queryId owed now

/-- `channel_lifecycle_on_frame` with calls of the other core after the session has answered, before
the queues are emptied for an ack. -/
def channelOnFrameAmid (curve : P256) (c : Lifecycle) (view : FrameView) (now : UInt32)
    (owes : List Owe) : Lifecycle :=
  let registrations := c.pair.registrations
  let (rc, session, pair) := c.session.onFrame curve c.pair view now replyMax
  let c : Lifecycle :=
    { c with
      session := session
      pair := pair
      registrationUnsaved := pair.registrations ≠ registrations || c.registrationUnsaved }
  let c := c.oweAll owes
  match rc with
  | .error _ => c
  | .ok [] => c
  | .ok (type :: rest) =>
      let c := if type = Msg.helloAck then c.freshStream else c
      (c.queue (type :: rest) now).2

/-- A turn of `drain_reports` with calls of the other core, in the middle of the answer to a frame
if one is answered. -/
def drainReportAmid (curve : P256) (c : Lifecycle) (now : UInt32) (owes : List Owe) : Lifecycle :=
  match c.takeReport with
  | some (.ok view, index, taken) =>
      if taken.handsOn index view ∧ authenticatesHere view.type = false then
        taken.channelOnFrameAmid curve view now owes
      else (c.drainReport curve now).2.oweAll owes
  | _ => (c.drainReport curve now).2.oweAll owes

/-- An event with calls of the other core while it runs. -/
def overlap (curve : P256) (c : Lifecycle) (event : Event) (owes : List Owe) : Lifecycle :=
  match event with
  | .pumpPlace now => c.pumpPlaceAmid now owes
  | .drainReport now => c.drainReportAmid curve now owes
  | event => (c.step curve event).oweAll owes

/-! ## What the other core leaves alone -/

@[simp] theorem debt_withDebt (c : Lifecycle) (d : Debt) : (c.withDebt d).debt = d := rfl

end Lifecycle

namespace Debt

/-- One placement more is owed, if there is a session. -/
def owe (present : Bool) (d : Debt) (owe : Owe) : Debt :=
  if present then
    { d with
      placeOwed := d.placeOwed + 1
      placeOwedAt := owe.stamp
      placeBody := owe.body.take placeBodySize
      placeQueryId := owe.queryId }
  else d

/-- Whatever is owed is retired. -/
def retired (d : Debt) : Debt := { d with placeSent := d.placeOwed }

end Debt

namespace Lifecycle

variable {c : Lifecycle}

theorem owePlace_eq (c : Lifecycle) (owe : Owe) :
    c.owePlace owe.body owe.queryId owe.stamp =
      c.withDebt (c.debt.owe c.session.present owe) := by
  unfold owePlace Debt.owe
  split <;> rfl

/-- The other core writes nothing but what is owed. -/
theorem oweAll_eq (c : Lifecycle) (owes : List Owe) :
    c.oweAll owes = c.withDebt (owes.foldl (Debt.owe c.session.present) c.debt) := by
  induction owes generalizing c with
  | nil => rfl
  | cons owe rest ih =>
      show (c.owePlace owe.body owe.queryId owe.stamp).oweAll rest = _
      rw [ih, owePlace_eq]
      rfl

/-- Owing leaves alone what was sent. -/
theorem foldl_owe_sent (present : Bool) (d : Debt) (owes : List Owe) (sent : UInt32) :
    owes.foldl (Debt.owe present) { d with placeSent := sent } =
      { owes.foldl (Debt.owe present) d with placeSent := sent } := by
  induction owes generalizing d with
  | nil => rfl
  | cons owe rest ih =>
      have hone : Debt.owe present { d with placeSent := sent } owe =
          { Debt.owe present d owe with placeSent := sent } := by
        unfold Debt.owe
        split <;> rfl
      rw [List.foldl_cons, List.foldl_cons, hone, ih]

/-- Copies made before the other core's turn are sent as if it had come after. -/
theorem sendCopied_oweAll (c : Lifecycle) (owed now : UInt32) (owes : List Owe) :
    (c.oweAll owes).sendCopied c.placeBody c.placeQueryId owed now =
      (c.sendPlace owed now).oweAll owes := by
  have hsession : (c.oweAll owes).session = c.session := by
    rw [oweAll_eq]
    rfl
  have hout : (c.oweAll owes).out = c.out := by
    rw [oweAll_eq]
    rfl
  unfold sendCopied sendPlace
  rw [hsession, hout]
  cases hplace : c.session.emitRelayed { type := Msg.place, flags := 0, payload := c.placeBody }
      (headerSize + authPrefixSize + placeBodySize) with
  | mk rc session =>
      cases rc with
      | error fault =>
          cases emitRelayed_error hplace
          simp only
          rw [oweAll_eq]
          rfl
      | ok placeFrame =>
          simp only
          cases hquery : session.emitRelayed
              { type := Msg.posQuery, flags := 0, payload := [c.placeQueryId] }
              (headerSize + authPrefixSize + posQueryBodySize) with
          | mk rc' session' =>
              have hsame : session.present = c.session.present :=
                congrArg Sending.present (emitRelayed_ok hplace).2.1
              cases rc' with
              | error fault =>
                  cases emitRelayed_error hquery
                  simp only
                  rw [oweAll_eq, oweAll_eq]
                  show _ = withDebt _ (owes.foldl (Debt.owe session.present) c.debt)
                  rw [hsame]
                  rfl
              | ok queryFrame =>
                  have hsame' : session'.present = c.session.present :=
                    (congrArg Sending.present (emitRelayed_ok hquery).2.1).trans hsame
                  simp only
                  generalize hoffered : c.out.offerPair placeFrame queryFrame = offered
                  -- the payment is of the query copied, so what is owed meanwhile stays owed
                  have hpaid := foldl_owe_sent c.session.present c.debt owes owed
                  by_cases hqueued : offered.1 = .ok
                  · have hnoted : (session'.noteSent now).present = c.session.present := hsame'
                    simp only [hqueued, if_true]
                    rw [oweAll_eq, oweAll_eq]
                    show _ = withDebt _ (owes.foldl (Debt.owe (session'.noteSent now).present)
                      { c.debt with placeSent := owed })
                    rw [hnoted, hpaid]
                    rfl
                  · simp only [hqueued, if_false]
                    rw [oweAll_eq, oweAll_eq]
                    show _ = withDebt _ (owes.foldl (Debt.owe session'.present) c.debt)
                    rw [hsame']
                    rfl

/-- The sections of `pump_place` may be thought of as one, with the other core's turn behind it. -/
theorem pumpPlaceAmid_eq (c : Lifecycle) (now : UInt32) (owes : List Owe) :
    c.pumpPlaceAmid now owes = (c.pumpPlace now).oweAll owes := by
  unfold pumpPlaceAmid pumpPlace
  extract_lets owed stale c' due body queryId after
  have hpresent : after.session.present = c'.session.present := by
    show (c'.oweAll owes).session.present = _
    rw [oweAll_eq]
    rfl
  by_cases hnone : owed = c'.placeSent ∨ c'.out.pairBusy = true
  · have hidle : ¬ due := by
      rintro ⟨howed, hfree⟩
      rcases hnone with hsent | hbusy
      · exact howed hsent
      · rw [hfree] at hbusy
        cases hbusy
    rw [if_pos hidle, if_pos hnone]
  · have hdue : due := by simpa [due, not_or] using hnone
    rw [if_neg (not_not.2 hdue), if_neg hnone, hpresent]
    by_cases habsent : c'.session.present = false
    · rw [if_pos habsent, if_pos habsent]
      show ({ c'.oweAll owes with placeSent := owed } : Lifecycle) = _
      have hpaid := foldl_owe_sent c'.session.present c'.debt owes owed
      rw [oweAll_eq, oweAll_eq]
      show _ = withDebt _ (owes.foldl (Debt.owe c'.session.present)
        { c'.debt with placeSent := owed })
      rw [hpaid]
      rfl
    · rw [if_neg habsent, if_neg habsent]
      exact sendCopied_oweAll c' owed now owes

/-! ## What an event makes of the debt -/

/-- What an answer makes of the debt: an ack retires it. -/
def answered (acks present : Bool) (d : Debt) (owes : List Owe) : Debt :=
  if acks then (owes.foldl (Debt.owe present) d).retired else owes.foldl (Debt.owe present) d

/-- An answer during which the other core owes placements is the answer, but for the debt. -/
theorem channelOnFrameAmid_eq (curve : P256) (c : Lifecycle) (view : FrameView) (now : UInt32)
    (owes : List Owe) :
    c.channelOnFrameAmid curve view now owes =
      (c.channelOnFrame curve view now).withDebt
        (answered ((c.answerPostings curve view now).any fun post ↦ typed Msg.helloAck post.frame)
          (c.channelOnFrame curve view now).session.present c.debt owes) := by
  rw [channelOnFrame_eq]
  unfold channelOnFrameAmid answerPostings answering
  generalize c.session.onFrame curve c.pair view now replyMax = answer
  obtain ⟨rc, session, pair⟩ := answer
  cases rc with
  | error fault =>
      simp only
      rw [oweAll_eq]
      rfl
  | ok bytes =>
      cases bytes with
      | nil =>
          simp only
          rw [oweAll_eq]
          rfl
      | cons type rest =>
          have hsending := fun before : Lifecycle ↦ congrArg Sending.present
            (sending_queue before (type :: rest) now)
          simp only [sending, Sending.charged] at hsending
          by_cases hack : type = Msg.helloAck
          · have htyped : typed Msg.helloAck (type :: rest) = true := by simp [typed, hack]
            simp only [if_pos hack, List.any_cons, posting, htyped, Bool.true_or, hsending]
            rw [oweAll_eq]
            rfl
          · have htyped : typed Msg.helloAck (type :: rest) = false := by simp [typed, hack]
            simp only [if_neg hack, List.any_cons, List.any_nil, posting, htyped, Bool.or_false,
              hsending]
            rw [oweAll_eq]
            rfl

@[simp] theorem emitPlacement_debt (c : Lifecycle) (type : UInt8) (body : List UInt8)
    (now : UInt32) : (c.emitPlacement type body now).2.debt = c.debt := by
  unfold emitPlacement
  split
  · rfl
  · split <;> rfl

@[simp] theorem endSession_debt (c : Lifecycle) (reason : EndReason) (now : UInt32) :
    (c.endSession reason now).debt = c.debt := by
  unfold endSession
  simp only
  split <;> rfl

theorem takeReport_debt {c taken : Lifecycle} {rc : Except FrameFault FrameView} {index : Nat}
    (h : c.takeReport = some (rc, index, taken)) : taken.debt = c.debt := by
  rw [takeReport_rest h]
  rfl

theorem onFrame_debt (curve : P256) (c : Lifecycle) (index : Nat) (view : FrameView)
    (now : UInt32) (hhere : authenticatesHere view.type = true) :
    (c.onFrame curve index view now).debt = c.debt := by
  unfold onFrame
  rw [if_pos hhere]
  split
  · rfl
  · split <;> rfl

/-- A turn of `drain_reports` during which the other core owes placements is the turn, but for the
debt. -/
theorem drainReportAmid_eq (curve : P256) (c : Lifecycle) (now : UInt32) (owes : List Owe) :
    c.drainReportAmid curve now owes =
      (c.drainReport curve now).2.withDebt
        (answered (c.renews curve (.drainReport now))
          (c.drainReport curve now).2.session.present c.debt owes) := by
  -- without an answer the other core's turn comes last
  have hlast : ∀ c' : Lifecycle, (c.drainReport curve now).2 = c' → c'.debt = c.debt →
      c.renews curve (.drainReport now) = false →
      c'.oweAll owes = c'.withDebt (answered (c.renews curve (.drainReport now))
        c'.session.present c.debt owes) := by
    intro c' _ hdebt hnone
    rw [oweAll_eq, hdebt, hnone]
    rfl
  unfold drainReportAmid
  cases htaken : c.takeReport with
  | none =>
      have hplain : c.drainReport curve now = (false, c) := by
        unfold drainReport
        rw [htaken]
      have hnone : c.renews curve (.drainReport now) = false := by
        simp [renews, drainPostings, htaken]
      rw [hplain]
      exact hlast c (by rw [hplain]) rfl hnone
  | some taking =>
      obtain ⟨rc, index, taken⟩ := taking
      have hdebt := takeReport_debt htaken
      cases rc with
      | error fault =>
          have hended : ((taken.endSession .protocolError now).resetReaders).debt = c.debt := by
            show (taken.endSession .protocolError now).debt = c.debt
            rw [endSession_debt, hdebt]
          have hplain : (c.drainReport curve now).2 =
              if fault = .again then taken
              else (taken.endSession .protocolError now).resetReaders := by
            unfold drainReport
            rw [htaken]
            cases fault <;> rfl
          have hnone : c.renews curve (.drainReport now) = false := by
            simp only [renews, drainPostings, htaken]
            cases fault with
            | again => rfl
            | _ => exact endPostings_no_ack taken .protocolError now
          simp only
          refine hlast _ rfl ?_ hnone
          rw [hplain]
          split
          · exact hdebt
          · exact hended
      | ok view =>
          have hplain : (c.drainReport curve now).2 =
              if taken.handsOn index view then taken.onFrame curve index view now else taken := by
            unfold drainReport
            rw [htaken]
          simp only
          by_cases hanswered : taken.handsOn index view = true ∧ authenticatesHere view.type = false
          · -- the session layer answers
            have hhere : ¬ authenticatesHere view.type = true := by simp [hanswered.2]
            have hposts : c.drainPostings curve now = taken.answerPostings curve view now := by
              simp only [drainPostings, htaken]
              rw [if_pos hanswered]
            rw [if_pos hanswered, hplain, if_pos hanswered.1, onFrame, if_neg hhere,
              channelOnFrameAmid_eq, hdebt, renews, hposts]
          · rw [if_neg hanswered]
            have hnone : c.renews curve (.drainReport now) = false := by
              simp only [renews, drainPostings, htaken]
              rw [if_neg hanswered]
              rfl
            refine hlast _ rfl ?_ hnone
            rw [hplain]
            split
            · rename_i hon
              have hhere : authenticatesHere view.type = true := by
                simpa using fun h ↦ hanswered ⟨hon, h⟩
              rw [onFrame_debt curve taken index view now hhere, hdebt]
            · exact hdebt

theorem sendPlace_debt (c : Lifecycle) (owed now : UInt32) :
    (c.sendPlace owed now).debt = c.debt ∨
      (c.sendPlace owed now).debt = { c.debt with placeSent := owed } := by
  unfold sendPlace
  split
  · exact .inl rfl
  · split
    · exact .inl rfl
    · simp only
      split
      · exact .inr rfl
      · exact .inl rfl

/-- `pump_place` retires what is owed, or leaves it. -/
theorem pumpPlace_debt (c : Lifecycle) (now : UInt32) :
    (c.pumpPlace now).debt = c.debt ∨ (c.pumpPlace now).debt = c.debt.retired := by
  unfold pumpPlace
  extract_lets owed stale c'
  have hbefore : c'.debt = c.debt ∨ c'.debt = c.debt.retired := by
    simp only [c']
    split
    · exact .inr rfl
    · exact .inl rfl
  have hretired : ∀ c'' : Lifecycle, c''.debt = { c'.debt with placeSent := owed } →
      c''.debt = c.debt.retired := by
    intro c'' h
    rw [h]
    rcases hbefore with hsame | hstale
    · rw [hsame]
      rfl
    · rw [hstale]
      rfl
  split
  · exact hbefore
  · split
    · exact .inr (hretired _ rfl)
    · rcases sendPlace_debt c' owed now with hsame | hsent
      · rw [hsame]
        exact hbefore
      · exact .inr (hretired _ hsent)

end Lifecycle

/-- The placement an event asks for itself. -/
def Event.asked : Event → List Owe
  | .owePlace body queryId now => [{ body := body, queryId := queryId, stamp := now }]
  | _ => []

namespace Lifecycle

/-- The debt once an event has settled what it could of it. -/
def settled (c : Lifecycle) : Event → Debt
  | .pumpPlace now => (c.pumpPlace now).debt
  | .linkLost => c.debt.retired
  | _ => c.debt

theorem settled_cases (c : Lifecycle) (event : Event) :
    c.settled event = c.debt ∨ c.settled event = c.debt.retired := by
  cases event with
  | pumpPlace now => exact pumpPlace_debt c now
  | linkLost => exact .inr rfl
  | _ => exact .inl rfl

theorem receiveChannelReport_debt (c : Lifecycle) (index : Nat) (buffer : List UInt8) :
    (c.receiveChannelReport index buffer).debt = c.debt := by
  unfold receiveChannelReport
  split
  · rfl
  · simp only
    split <;> rfl

theorem pumpQuery_debt (c : Lifecycle) (now : UInt32) (taken : Bool) :
    (c.pumpQuery now taken).debt = c.debt := by
  have hasked : (c.askCursor now taken).2.debt = c.debt := by
    unfold askCursor
    split
    · rfl
    · exact emitPlacement_debt c Msg.posQuery [c.cursorQueryId] now
  unfold pumpQuery
  split
  · rfl
  · exact hasked

theorem pumpArrival_debt (c : Lifecycle) (now : UInt32) : (c.pumpArrival now).debt = c.debt := by
  unfold pumpArrival
  split
  · rfl
  · split
    · rfl
    · exact emitPlacement_debt c Msg.arrival [] now

theorem pumpPeerBoardSession_debt (c : Lifecycle) (now : UInt32) :
    (c.pumpPeerBoardSession now).debt = c.debt := by
  have hjudged : (c.judgePeerBoard now).debt = c.debt := by
    unfold judgePeerBoard
    simp only
    split <;> rfl
  show ((c.judgePeerBoard now).tellPeerBoard _ now).debt = c.debt
  rw [← hjudged]
  generalize (if (c.judgePeerBoard now).peerBoardSession then (1 : UInt8) else 0) = live
  unfold tellPeerBoard
  split
  · rfl
  · exact emitPlacement_debt _ Msg.peerHelper [live] now

theorem pumpInbound_debt (c : Lifecycle) (now : UInt32) : (c.pumpInbound now).2.debt = c.debt := by
  unfold pumpInbound
  split
  · rfl
  · unfold tagInbound
    split
    · rfl
    · split <;> rfl

theorem sessionTick_debt (c : Lifecycle) (now : UInt32) : (c.sessionTick now).debt = c.debt := by
  unfold sessionTick
  split
  rename_i rc session _
  cases rc with
  | error fault => rfl
  | ok bytes => cases bytes <;> rfl

theorem stageNonce_debt (c : Lifecycle) (nonce : List UInt8) :
    (c.stageNonce nonce).debt = c.debt := by
  unfold stageNonce
  split <;> rfl

theorem pumpRelay_debt (c : Lifecycle) (taken : Bool) : (c.pumpRelay taken).2.debt = c.debt := by
  unfold pumpRelay
  split
  · rfl
  · split <;> rfl

theorem pumpOut_debt (c : Lifecycle) (index : Nat) (taken : Bool) :
    (c.pumpOut index taken).debt = c.debt := by
  unfold pumpOut
  split
  · rfl
  · split <;> rfl

theorem queryCursor_debt (c : Lifecycle) (origin : QueryOrigin) (queryId : UInt8) :
    (c.queryCursor origin queryId).debt = c.debt := by
  unfold queryCursor
  split
  · rfl
  · split <;> rfl

theorem peerPacket_debt (c : Lifecycle) (packet : RelayPacket) :
    (c.peerPacket packet).debt = c.debt := by
  unfold peerPacket
  split <;> rfl

/-- A placement that this core owes itself comes before those of the other. -/
theorem owePlace_oweAll (c : Lifecycle) (body : List UInt8) (queryId : UInt8) (now : UInt32)
    (owes : List Owe) :
    (c.owePlace body queryId now).oweAll owes = (c.owePlace body queryId now).withDebt
      ((⟨body, queryId, now⟩ :: owes).foldl (Debt.owe (c.owePlace body queryId now).session.present)
        c.debt) := by
  have hone : c.owePlace body queryId now = _ :=
    owePlace_eq c { body := body, queryId := queryId, stamp := now }
  have hsession : (c.owePlace body queryId now).session.present = c.session.present := by
    rw [hone]
    rfl
  rw [oweAll_eq, List.foldl_cons, hsession, hone]
  rfl

/-- An event during which the other core owes placements is the event, but for the debt: what is
owed is counted on from what the event settles, and an ack retires it. -/
theorem overlap_eq (curve : P256) (c : Lifecycle) (event : Event) (owes : List Owe) :
    c.overlap curve event owes =
      (c.step curve event).withDebt
        (answered (c.renews curve event) (c.step curve event).session.present (c.settled event)
          (event.asked ++ owes)) := by
  have hplain : (c.step curve event).debt = c.settled event → c.renews curve event = false →
      event.asked = [] →
      (c.step curve event).oweAll owes = (c.step curve event).withDebt
        (answered (c.renews curve event) (c.step curve event).session.present (c.settled event)
          (event.asked ++ owes)) := by
    intro hdebt hnone hasked
    rw [oweAll_eq, hdebt, hnone, hasked]
    rfl
  cases event with
  | drainReport now => exact drainReportAmid_eq curve c now owes
  | pumpPlace now => exact (pumpPlaceAmid_eq c now owes).trans (hplain rfl rfl rfl)
  | owePlace body queryId now => exact owePlace_oweAll c body queryId now owes
  | receiveReport index buffer => exact hplain (receiveChannelReport_debt c index buffer) rfl rfl
  | pumpQuery now taken => exact hplain (pumpQuery_debt c now taken) rfl rfl
  | pumpArrival now => exact hplain (pumpArrival_debt c now) rfl rfl
  | pumpPeerBoardSession now => exact hplain (pumpPeerBoardSession_debt c now) rfl rfl
  | pumpInbound now => exact hplain (pumpInbound_debt c now) rfl rfl
  | sessionTick now => exact hplain (sessionTick_debt c now) rfl rfl
  | configWiped now => exact hplain (endSession_debt c .unpaired now) rfl rfl
  | stageNonce nonce => exact hplain (stageNonce_debt c nonce) rfl rfl
  | pumpRelay taken => exact hplain (pumpRelay_debt c taken) rfl rfl
  | pumpOut index taken => exact hplain (pumpOut_debt c index taken) rfl rfl
  | queryCursor origin queryId => exact hplain (queryCursor_debt c origin queryId) rfl rfl
  | peerPacket packet => exact hplain (peerPacket_debt c packet) rfl rfl
  | saveRegistration | updateConfig | pairTick | relayYield | linkLost | openPairingWindow
    | arrive | peerBoardHeartbeat => exact hplain rfl rfl rfl

/-! ## What is queued for a placement -/

/-- The time and the two frames of the placement that an event queues. -/
def laid (c : Lifecycle) : Event → Option (UInt32 × List UInt8 × List UInt8)
  | .pumpPlace now =>
      match c.pumpPlacePostings now with
      | [place, query] => if place.queued then some (now, place.frame, query.frame) else none
      | _ => none
  | _ => none

/-- The second half of `pump_place` queued these two frames. -/
structure Sends (c : Lifecycle) (owed now : UInt32) (place query : List UInt8) : Prop where
  placeFrame : place =
    (builtView Msg.place 0 c.session.kB2h c.session.txCounter.toNat c.placeBody).bytes
  queryFrame : query = (builtView Msg.posQuery 0 c.session.kB2h (c.session.txCounter + 1).toNat
    [c.placeQueryId]).bytes
  taken : (c.out.offerPair place query).1 = .ok
  out : (c.sendPlace owed now).out = (c.out.offerPair place query).2
  debt : (c.sendPlace owed now).debt = { c.debt with placeSent := owed }

theorem sends_of_queued {owed : UInt32} (now : UInt32) {place query : Posting}
    (h : c.placePostings = [place, query]) (hqueued : place.queued = true) :
    Sends c owed now place.frame query.frame := by
  unfold placePostings at h
  cases hplace : c.session.emitRelayed { type := Msg.place, flags := 0, payload := c.placeBody }
      (headerSize + authPrefixSize + placeBodySize) with
  | mk rc session =>
      rw [hplace] at h
      cases rc with
      | error fault => cases h
      | ok placeFrame =>
          simp only at h
          cases hquery : session.emitRelayed
              { type := Msg.posQuery, flags := 0, payload := [c.placeQueryId] }
              (headerSize + authPrefixSize + posQueryBodySize) with
          | mk rc' session' =>
              rw [hquery] at h
              cases rc' with
              | error fault => cases h
              | ok queryFrame =>
                  simp only [List.cons.injEq, and_true] at h
                  obtain ⟨rfl, rfl⟩ := h
                  obtain ⟨-, hsending, hframe⟩ := emitRelayed_ok hplace
                  obtain ⟨-, -, hframe'⟩ := emitRelayed_ok hquery
                  have hkey : session.kB2h = c.session.kB2h := congrArg Sending.kB2h hsending
                  have hcounter : session.txCounter = c.session.txCounter + 1 :=
                    congrArg Sending.txCounter hsending
                  rw [hkey, hcounter] at hframe'
                  have htaken : (c.out.offerPair placeFrame queryFrame).1 = .ok :=
                    of_decide_eq_true hqueued
                  refine ⟨hframe, hframe', htaken, ?_, ?_⟩
                  · unfold sendPlace
                    rw [hplace]
                    simp only [hquery]
                    rfl
                  · unfold sendPlace
                    rw [hplace]
                    simp only [hquery, htaken, if_true]
                    rfl

/-- What `pump_place` queues is the placement that is owed, while it is not stale, and that retires
it. -/
theorem laid_pumpPlace {now stamp : UInt32} {place query : List UInt8}
    (h : c.laid (.pumpPlace now) = some (stamp, place, query)) :
    stamp = now ∧ c.placeOwed ≠ c.placeSent ∧
      ¬ placeStaleMs.toInt32 < (now - c.placeOwedAt).toInt32 ∧
      Sends c c.placeOwed now place query ∧
      (c.pumpPlace now).out = (c.out.offerPair place query).2 ∧
      (c.pumpPlace now).debt = c.debt.retired := by
  have hqueued : ∃ first second : Posting, c.pumpPlacePostings now = [first, second] ∧
      first.queued = true ∧ stamp = now ∧ place = first.frame ∧ query = second.frame := by
    simp only [laid] at h
    split at h
    · rename_i first second hposts
      split at h
      · rename_i htaken
        cases h
        exact ⟨first, second, hposts, htaken, rfl, rfl, rfl⟩
      · cases h
    · cases h
  obtain ⟨first, second, hposts, htaken, hstamp, rfl, rfl⟩ := hqueued
  unfold pumpPlacePostings at hposts
  extract_lets owed stale c' at hposts
  by_cases hnone : owed = c'.placeSent ∨ c'.out.pairBusy = true
  · rw [if_pos hnone] at hposts
    cases hposts
  · by_cases habsent : c'.session.present = false
    · rw [if_neg hnone, if_pos habsent] at hposts
      cases hposts
    · rw [if_neg hnone, if_neg habsent] at hposts
      -- a stale placement would have been retired
      have hfresh : ¬ stale := fun hstale ↦ hnone (.inl (by simp only [c', if_pos hstale]))
      have hsame : c' = c := if_neg hfresh
      rw [hsame] at hposts hnone habsent
      have howed : c.placeOwed ≠ c.placeSent := fun heq ↦ hnone (.inl heq)
      have hpump : c.pumpPlace now = c.sendPlace c.placeOwed now := by
        unfold pumpPlace
        simp only
        rw [if_neg hfresh, if_neg hnone, if_neg habsent]
      have hsends := @sends_of_queued _ owed now _ _ hposts htaken
      refine ⟨hstamp, howed, fun hlate ↦ hfresh ⟨howed, hlate⟩, hsends, ?_, ?_⟩
      · rw [hpump]
        exact hsends.out
      · rw [hpump]
        exact hsends.debt

end Lifecycle

/-! ## The log of a run -/

/-- A placement that was queued: the number of the owe it was queued for, the session, the time, and
the two frames. -/
structure Placed where
  index : Nat
  session : Nat
  now : UInt32
  place : List UInt8
  query : List UInt8
  deriving DecidableEq, Repr

/-- A board with the number of its session, every placement it came to owe with the session it was
owed in, and every placement it queued. `emptied` is how many of those were queued before the first
channel was last emptied, and `drained` what the host took of it since. -/
structure Placing where
  board : Lifecycle
  session : Nat
  owes : List (Owe × Nat)
  placed : List Placed
  emptied : Nat
  drained : List UInt8

namespace Placing

/-- The placement an event queues, with the number of the last owe. -/
def queues (p : Placing) (event : Event) : List Placed :=
  (p.board.laid event).toList.map fun (now, place, query) ↦
    { index := p.owes.length - 1, session := p.session, now := now, place := place, query := query }

/-- One event, with what the other core owes while it runs. -/
def step (curve : P256) (p : Placing) (turn : Event × List Owe) : Placing :=
  let board := p.board.overlap curve turn.1 turn.2
  let session := if p.board.renews curve turn.1 then p.session + 1 else p.session
  { board := board
    session := session
    owes := p.owes ++
      if board.session.present then (turn.1.asked ++ turn.2).map fun owe ↦ (owe, session) else []
    placed := p.placed ++ p.queues turn.1
    emptied := if p.board.restarts curve turn.1 then p.placed.length else p.emptied
    drained := if p.board.restarts curve turn.1 then [] else p.drained ++ p.board.drains turn.1 }

/-- A board that has just started. -/
def boot (curve : P256) (buildType : BuildType) (identity : Option (List UInt8))
    (registration : Option (List UInt8 × List UInt8)) : Placing where
  board := Lifecycle.boot curve buildType identity registration
  session := 0
  owes := []
  placed := []
  emptied := 0
  drained := []

/-- The pairs queued on the first channel since it was last emptied. -/
def pairs (p : Placing) : List (List UInt8 × List UInt8) :=
  (p.placed.drop p.emptied).map fun entry ↦ (entry.place, entry.query)

end Placing

/-- What is owed is the last owe, made in the session, and no placement was queued for it yet. -/
structure Owing (d : Debt) (owes : List (Owe × Nat)) (session : Nat) (placed : List Placed) :
    Prop where
  count : d.placeOwed = UInt32.ofNat owes.length
  below : ∀ entry ∈ placed, entry.index < owes.length
  last : d.placeOwed ≠ d.placeSent → ∃ owe, owes.getLast? = some (owe, session) ∧
    d.placeBody = owe.body.take placeBodySize ∧ d.placeQueryId = owe.queryId ∧
    d.placeOwedAt = owe.stamp
  fresh : d.placeOwed ≠ d.placeSent → ∀ entry ∈ placed, entry.index + 1 < owes.length

section Owing

variable {d : Debt} {owes : List (Owe × Nat)} {session : Nat} {placed : List Placed}

theorem Owing.retired (h : Owing d owes session placed) (session' : Nat) :
    Owing d.retired owes session' placed where
  count := h.count
  below := h.below
  last hpending := absurd rfl hpending
  fresh hpending := absurd rfl hpending

theorem Owing.owe (h : Owing d owes session placed) (owe : Owe) :
    Owing (d.owe true owe) (owes ++ [(owe, session)]) session placed where
  count := by
    show d.placeOwed + 1 = _
    rw [h.count, List.length_append, List.length_singleton, UInt32.ofNat_add]
    rfl
  below entry hentry := by
    have hbelow := h.below entry hentry
    rw [List.length_append]
    omega
  last _ := ⟨owe, List.getLast?_concat .., rfl, rfl, rfl⟩
  fresh _ entry hentry := by
    have hbelow := h.below entry hentry
    rw [List.length_append, List.length_singleton]
    omega

/-- What the other core owes in a session is counted on. -/
theorem Owing.goesOn (h : Owing d owes session placed) (more : List Owe) :
    Owing (more.foldl (Debt.owe true) d) (owes ++ more.map fun owe ↦ (owe, session)) session
      placed := by
  induction more generalizing d owes with
  | nil => simpa using h
  | cons owe rest ih => simpa using ih (h.owe owe)

theorem foldl_owe_absent (d : Debt) (more : List Owe) : more.foldl (Debt.owe false) d = d := by
  induction more with
  | nil => rfl
  | cons owe rest ih => exact ih

/-- Owing and retiring commute with retiring first. -/
theorem foldl_owe_retired (d : Debt) (more : List Owe) (present : Bool) :
    (more.foldl (Debt.owe present) d.retired).retired =
      (more.foldl (Debt.owe present) d).retired := by
  show (more.foldl (Debt.owe present) { d with placeSent := d.placeOwed }).retired = _
  rw [Lifecycle.foldl_owe_sent]
  rfl

/-- What an event leaves owed, once it has settled what it could. -/
theorem Owing.answered (h : Owing d owes session placed) (acks present : Bool) (more : List Owe) :
    Owing (Lifecycle.answered acks present d more)
      (owes ++ if present then more.map (fun owe ↦ (owe, if acks then session + 1 else session))
        else [])
      (if acks then session + 1 else session) placed := by
  unfold Lifecycle.answered
  cases acks with
  | true =>
      simp only [if_true]
      rw [← foldl_owe_retired]
      have hstart := h.retired (session + 1)
      cases present with
      | true =>
          simp only [if_true]
          exact (hstart.goesOn more).retired _
      | false =>
          simp only [Bool.false_eq_true, if_false, foldl_owe_absent, List.append_nil]
          exact hstart.retired _
  | false =>
      simp only [Bool.false_eq_true, if_false]
      cases present with
      | true => exact h.goesOn more
      | false =>
          simp only [Bool.false_eq_true, if_false, foldl_owe_absent, List.append_nil]
          exact h

end Owing

namespace Placing

variable {curve : P256} {p : Placing}

/-- A queued placement carries what one owe of its session gave, and was not stale. -/
def Carries (p : Placing) (entry : Placed) : Prop :=
  ∃ owe key counter, p.owes[entry.index]? = some (owe, entry.session) ∧
    entry.place = (builtView Msg.place 0 key (counter : UInt64).toNat
      (owe.body.take placeBodySize)).bytes ∧
    entry.query = (builtView Msg.posQuery 0 key (counter + 1).toNat [owe.queryId]).bytes ∧
    ¬ placeStaleMs.toInt32 < (entry.now - owe.stamp).toInt32

/-- The debt of the board fits the log, the log is in the order of the owes, and the pairs queued
since the first channel was last emptied stand together. -/
structure Fits (p : Placing) : Prop where
  nonce : p.board.NonceFits
  owing : Owing p.board.debt p.owes p.session p.placed
  order : (p.placed.map (·.index)).Pairwise (· < ·)
  carries : ∀ entry ∈ p.placed, p.Carries entry
  emptied : p.emptied ≤ p.placed.length
  holds : Holds p.pairs p.drained p.board.out

theorem fits_boot (curve : P256) (buildType : BuildType) (identity : Option (List UInt8))
    (registration : Option (List UInt8 × List UInt8)) :
    Fits (boot curve buildType identity registration) where
  nonce := Lifecycle.nonceFits_boot curve buildType identity registration
  owing :=
    { count := rfl
      below := nofun
      last := fun h ↦ absurd rfl h
      fresh := nofun }
  order := .nil
  carries := nofun
  emptied := Nat.le_refl _
  holds := holds_reset _

/-- Only `pump_place` queues a placement. -/
theorem queues_of_not_pumpPlace {event : Event} (h : ∀ now, event ≠ .pumpPlace now) :
    p.queues event = [] := by
  cases event with
  | pumpPlace now => exact absurd rfl (h now)
  | _ => rfl

/-- What an event queues is for the last owe, for which nothing was queued, and settles it. -/
theorem Fits.queued (h : Fits p) {event : Event} {entry : Placed}
    (hentry : p.queues event = [entry]) :
    ∃ now, event = .pumpPlace now ∧ p.board.debt.placeOwed ≠ p.board.debt.placeSent ∧
      entry.index + 1 = p.owes.length ∧ p.Carries entry ∧
      (p.board.out.offerPair entry.place entry.query).1 = .ok ∧
      (p.board.pumpPlace now).out = (p.board.out.offerPair entry.place entry.query).2 ∧
      bandOf entry.place = .priority ∧ bandOf entry.query = .priority ∧
      p.board.settled event = p.board.debt.retired := by
  cases event with
  | pumpPlace now =>
      cases hlaid : p.board.laid (.pumpPlace now) with
      | none =>
          rw [queues, hlaid] at hentry
          cases hentry
      | some frames =>
          obtain ⟨stamp, place, query⟩ := frames
          rw [queues, hlaid] at hentry
          obtain rfl := (List.cons.inj hentry).1.symm
          obtain ⟨rfl, hpending, htimely, hsends, hout, hdebt⟩ :=
            Lifecycle.laid_pumpPlace hlaid
          obtain ⟨owe, hlast, hbody, hquery, hstamp⟩ := h.owing.last hpending
          have hpos : 0 < p.owes.length := by
            refine List.length_pos_iff.2 fun hnil ↦ ?_
            rw [hnil] at hlast
            cases hlast
          have hat : p.owes[p.owes.length - 1]? = some (owe, p.session) := by
            rw [← List.getLast?_eq_getElem?]
            exact hlast
          have hplace := hsends.placeFrame
          have hasks := hsends.queryFrame
          refine ⟨stamp, rfl, hpending, Nat.sub_add_cancel hpos,
            ⟨owe, p.board.session.kB2h, p.board.session.txCounter, hat, ?_, ?_, ?_⟩,
            hsends.taken, hout, ?_, ?_, hdebt⟩
          · rw [← hbody]
            exact hplace
          · rw [← hquery]
            exact hasks
          · rw [← hstamp]
            exact htimely
          · rw [hplace]
            rfl
          · rw [hasks]
            rfl
  | _ => cases hentry

theorem queues_cases (p : Placing) (event : Event) :
    p.queues event = [] ∨ ∃ entry, p.queues event = [entry] := by
  unfold queues
  cases p.board.laid event with
  | none => exact .inl rfl
  | some frames => exact .inr ⟨_, rfl⟩

/-- What was owed stays where it is in the log. -/
theorem Carries.later {entry : Placed} (h : p.Carries entry) (turn : Event × List Owe) :
    (p.step curve turn).Carries entry := by
  obtain ⟨owe, key, counter, hat, hcarries⟩ := h
  refine ⟨owe, key, counter, ?_, hcarries⟩
  show (p.owes ++ _)[entry.index]? = _
  rw [List.getElem?_append_left (List.getElem?_eq_some_iff.1 hat).1]
  exact hat

/-- The debt after an event fits the log after it. -/
theorem Fits.owing_step (h : Fits p) (turn : Event × List Owe) :
    Owing (p.step curve turn).board.debt (p.step curve turn).owes (p.step curve turn).session
      (p.step curve turn).placed := by
  obtain ⟨event, owes⟩ := turn
  -- what the event settles, beside what it queued
  have hsettled : Owing (p.board.settled event) p.owes p.session (p.placed ++ p.queues event) := by
    rcases p.queues_cases event with hnone | ⟨entry, hentry⟩
    · rw [hnone, List.append_nil]
      rcases p.board.settled_cases event with hsame | hretired
      · rw [hsame]
        exact h.owing
      · rw [hretired]
        exact h.owing.retired p.session
    · obtain ⟨now, -, -, hindex, -, -, -, -, -, hretired⟩ := h.queued hentry
      rw [hretired, hentry]
      have hold := h.owing.retired p.session
      refine ⟨hold.count, fun queued hqueued ↦ ?_, hold.last, fun hpending ↦ absurd rfl hpending⟩
      rcases List.mem_append.1 hqueued with hbefore | hnew
      · exact hold.below queued hbefore
      · rw [List.mem_singleton.1 hnew]
        omega
  have hafter := hsettled.answered (p.board.renews curve event)
    (p.board.step curve event).session.present (event.asked ++ owes)
  have hoverlap := Lifecycle.overlap_eq curve p.board event owes
  have hpresent : (p.board.overlap curve event owes).session.present =
      (p.board.step curve event).session.present := by
    rw [hoverlap]
    rfl
  have hdebt := congrArg Lifecycle.debt hoverlap
  rw [Lifecycle.debt_withDebt] at hdebt
  show Owing (p.board.overlap curve event owes).debt (p.owes ++ _)
    (if p.board.renews curve event then p.session + 1 else p.session) (p.placed ++ p.queues event)
  rw [hdebt]
  simp only
  rw [hpresent]
  exact hafter

/-- The pairs that stand together after an event. -/
theorem Fits.holds_step (h : Fits p) (turn : Event × List Owe) :
    Holds (p.step curve turn).pairs (p.step curve turn).drained (p.step curve turn).board.out := by
  obtain ⟨event, owes⟩ := turn
  have hout : (p.step curve (event, owes)).board.out = (p.board.step curve event).out := by
    show (p.board.overlap curve event owes).out = _
    rw [Lifecycle.overlap_eq]
    rfl
  rw [hout]
  by_cases hrestarts : p.board.restarts curve event = true
  · -- the first channel is emptied, and then only what the event built is offered
    have hquiet : ∀ now, event ≠ .pumpPlace now := by
      rintro now rfl
      cases hrestarts
    have hpump : ∀ index taken, event ≠ .pumpOut index taken := by
      rintro index taken rfl
      cases hrestarts
    have hpairs : (p.step curve (event, owes)).pairs = [] := by
      show ((p.placed ++ p.queues event).drop
        (if p.board.restarts curve event then p.placed.length else p.emptied)).map _ = []
      rw [if_pos hrestarts, queues_of_not_pumpPlace hquiet, List.append_nil, List.drop_length]
      rfl
    have hdrained : (p.step curve (event, owes)).drained = [] := if_pos hrestarts
    have hfeeds := (Lifecycle.feeds_step curve p.board event hpump).out
    rw [Lifecycle.offeredTo, if_pos hrestarts] at hfeeds
    rw [hpairs, hdrained]
    exact (holds_reset p.board.out).offers hfeeds
  · -- the channel goes on, with the pair this event queued behind those that wait
    have hpairs : (p.step curve (event, owes)).pairs =
        p.pairs ++ (p.queues event).map fun entry ↦ (entry.place, entry.query) := by
      show ((p.placed ++ p.queues event).drop
        (if p.board.restarts curve event then p.placed.length else p.emptied)).map _ = _
      rw [if_neg hrestarts, List.drop_append_of_le_length h.emptied, List.map_append]
      rfl
    have hdrained : (p.step curve (event, owes)).drained = p.drained ++ p.board.drains event :=
      if_neg hrestarts
    rw [hpairs, hdrained]
    rcases p.queues_cases event with hnone | ⟨entry, hentry⟩
    · -- no pair was queued: only a drain of this channel takes from it
      rw [hnone, List.map_nil, List.append_nil]
      by_cases hpump : ∃ index taken, event = .pumpOut index taken
      · obtain ⟨index, taken, rfl⟩ := hpump
        exact Builder.pumpOut_first index taken (fun hview hholds ↦ hholds.take hview) h.holds
      · have hfeeds := (Lifecycle.feeds_step curve p.board event
          fun index taken heq ↦ hpump ⟨index, taken, heq⟩).out
        have hdry : p.board.drains event = [] := by
          cases event with
          | pumpOut index taken => exact absurd ⟨index, taken, rfl⟩ hpump
          | _ => rfl
        rw [Lifecycle.offeredTo, if_neg hrestarts] at hfeeds
        rw [hdry, List.append_nil]
        exact h.holds.offers hfeeds
    · obtain ⟨now, rfl, -, -, -, htaken, hafter, hfirst, hsecond, -⟩ := h.queued hentry
      rw [hentry]
      show Holds (p.pairs ++ [(entry.place, entry.query)]) (p.drained ++ [])
        (p.board.pumpPlace now).out
      rw [List.append_nil, hafter]
      exact h.holds.offerPair htaken hfirst hsecond

theorem Fits.step (h : Fits p) (turn : Event × List Owe) : Fits (p.step curve turn) where
  nonce := by
    show (p.board.overlap curve turn.1 turn.2).NonceFits
    rw [Lifecycle.overlap_eq]
    exact Lifecycle.nonceFits_step curve h.nonce turn.1
  owing := h.owing_step turn
  order := by
    show ((p.placed ++ p.queues turn.1).map (·.index)).Pairwise (· < ·)
    rw [List.map_append, List.pairwise_append]
    refine ⟨h.order, ?_, ?_⟩
    · rcases p.queues_cases turn.1 with hnone | ⟨entry, hentry⟩
      · rw [hnone]
        exact .nil
      · rw [hentry]
        exact List.pairwise_singleton ..
    · intro index hindex other hother
      obtain ⟨before, hbefore, rfl⟩ := List.mem_map.1 hindex
      rcases p.queues_cases turn.1 with hnone | ⟨entry, hentry⟩
      · rw [hnone] at hother
        cases hother
      · rw [hentry, List.map_singleton, List.mem_singleton] at hother
        obtain ⟨now, -, hpending, hlast, -⟩ := h.queued hentry
        have hfresh := h.owing.fresh hpending before hbefore
        omega
  carries entry hentry := by
    rcases List.mem_append.1 hentry with hold | hnew
    · exact (h.carries entry hold).later turn
    · rcases p.queues_cases turn.1 with hnone | ⟨queued, hqueued⟩
      · rw [hnone] at hnew
        cases hnew
      · rw [hqueued] at hnew
        rw [List.mem_singleton.1 hnew]
        obtain ⟨now, -, -, -, hcarries, -⟩ := h.queued hqueued
        exact hcarries.later turn
  emptied := by
    show (if p.board.restarts curve turn.1 then p.placed.length else p.emptied) ≤
      (p.placed ++ p.queues turn.1).length
    rw [List.length_append]
    split
    · omega
    · have hbefore := h.emptied
      omega
  holds := h.holds_step turn

theorem fits_run (curve : P256) (buildType : BuildType) (identity : Option (List UInt8))
    (registration : Option (List UInt8 × List UInt8)) (turns : List (Event × List Owe)) :
    Fits (run (step curve) (boot curve buildType identity registration) turns) :=
  run_invariant Fits (fits_boot curve buildType identity registration)
    (fun _ turn h ↦ h.step turn) turns

/-! ## Which events queue a placement -/

theorem typed_placementPostings {c : Lifecycle} {type : UInt8} {body : List UInt8} {now : UInt32}
    {post : Posting} (hpost : post ∈ c.placementPostings type body now) (wanted : UInt8) :
    typed wanted post.frame = decide (type = wanted) := by
  unfold Lifecycle.placementPostings at hpost
  split at hpost
  · cases hpost
  · split at hpost
    · cases hpost
    · rename_i hemit
      rw [List.mem_singleton.1 hpost]
      show typed wanted _ = _
      rw [(emitRelayed_ok hemit).2.2]
      exact typed_builtView ..

/-- Neither the tick of a session nor the answer to a report is a placement. -/
theorem no_place_of_deed {c : Lifecycle} {kind : EventKind} {now : UInt32} {s' : Session}
    {posts : List Posting} (hdeed : Deed c kind now s' posts) (hkind : kind ≠ .other) :
    ∀ post ∈ posts, typed Msg.place post.frame = false := by
  cases hdeed with
  | rests | drops => nofun
  | configures _ _ _ hother | tags hother | places hother => exact absurd hother hkind
  | ends | starts =>
      intro post hpost
      rw [List.mem_singleton.1 hpost, typed_post]
      rfl
  | answers hreport htype hsending =>
      rename_i type rest queued
      intro post hpost
      rw [List.mem_singleton.1 hpost]
      by_contra hplace
      have hhead : type = Msg.place := by simpa [typed] using hplace
      rw [hhead] at htype
      cases htype
  | ticks htick halert hpresent howes =>
      intro post hpost
      rw [List.mem_singleton.1 hpost, typed_post]
      cases howes <;> rfl

/-- Of the two frames that are built together only the first is a placement. -/
theorem pair_of_queued {c : Lifecycle} {post : Posting} (hpost : post ∈ c.placePostings)
    (htyped : typed Msg.place post.frame = true) (hqueued : post.queued = true) :
    ∃ query, c.placePostings = [post, query] := by
  unfold Lifecycle.placePostings at hpost ⊢
  cases hplace : c.session.emitRelayed { type := Msg.place, flags := 0, payload := c.placeBody }
      (headerSize + authPrefixSize + placeBodySize) with
  | mk rc session =>
      rw [hplace] at hpost
      cases rc with
      | error fault => cases hpost
      | ok placeFrame =>
          simp only at hpost ⊢
          cases hquery : session.emitRelayed
              { type := Msg.posQuery, flags := 0, payload := [c.placeQueryId] }
              (headerSize + authPrefixSize + posQueryBodySize) with
          | mk rc' session' =>
              rw [hquery] at hpost
              cases rc' with
              | error fault =>
                  rw [List.mem_singleton.1 hpost] at hqueued
                  cases hqueued
              | ok queryFrame =>
                  simp only [List.mem_cons, List.not_mem_nil, or_false] at hpost
                  rcases hpost with rfl | rfl
                  · exact ⟨_, rfl⟩
                  · -- the other frame is a query
                    have hframe := (emitRelayed_ok hquery).2.2
                    simp only [hframe] at htyped
                    rw [typed_builtView] at htyped
                    cases htyped

/-- The placement that `pump_place` queues is the first of the two frames it lays. -/
theorem laid_of_queued {c : Lifecycle} {now : UInt32} {post : Posting}
    (hpost : post ∈ c.pumpPlacePostings now) (htyped : typed Msg.place post.frame = true)
    (hqueued : post.queued = true) :
    ∃ query, c.laid (.pumpPlace now) = some (now, post.frame, query) := by
  have hbuilt : c.pumpPlacePostings now = [] ∨
      ∃ before : Lifecycle, c.pumpPlacePostings now = before.placePostings := by
    unfold Lifecycle.pumpPlacePostings
    extract_lets owed stale c'
    by_cases hnone : owed = c'.placeSent ∨ c'.out.pairBusy = true
    · exact .inl (if_pos hnone)
    · rw [if_neg hnone]
      by_cases habsent : c'.session.present = false
      · exact .inl (if_pos habsent)
      · exact .inr ⟨c', if_neg habsent⟩
  have hpair : ∃ query, c.pumpPlacePostings now = [post, query] := by
    rcases hbuilt with hnone | ⟨before, hposts⟩
    · rw [hnone] at hpost
      cases hpost
    · rw [hposts] at hpost ⊢
      exact pair_of_queued hpost htyped hqueued
  obtain ⟨query, hposts⟩ := hpair
  refine ⟨query.frame, ?_⟩
  simp only [Lifecycle.laid, hposts, hqueued, if_true]

/-- A placement is queued by `pump_place`, or it came from the peer board. -/
theorem place_of_event {c : Lifecycle} (hnonce : c.NonceFits) {event : Event} {post : Posting}
    (hpost : post ∈ c.postings curve event) (htyped : typed Msg.place post.frame = true)
    (hqueued : post.queued = true) :
    (∃ now, event = .pumpInbound now) ∨
      ∃ now query, c.laid event = some (now, post.frame, query) := by
  have hdeed := @Lifecycle.deed_step _ curve hnonce event _ event.now_getD
  have hno : ∀ {posts : List Posting}, (∀ other ∈ posts, typed Msg.place other.frame = false) →
      post ∉ posts := by
    intro posts hposts hmem
    rw [hposts post hmem] at htyped
    cases htyped
  have hother : ∀ {before : Lifecycle} {type : UInt8} {body : List UInt8} {now : UInt32},
      type ≠ Msg.place → post ∉ before.placementPostings type body now := by
    intro before type body now hne
    apply hno
    intro other hmem
    rw [typed_placementPostings hmem]
    exact decide_eq_false hne
  cases event with
  | pumpInbound now => exact .inl ⟨now, rfl⟩
  | pumpPlace now =>
      obtain ⟨query, hlaid⟩ := laid_of_queued hpost htyped hqueued
      exact .inr ⟨now, query, hlaid⟩
  | drainReport now => exact absurd hpost (hno (no_place_of_deed hdeed nofun))
  | sessionTick now => exact absurd hpost (hno (no_place_of_deed hdeed nofun))
  | configWiped now =>
      have hended := @Lifecycle.deed_endSession c .report (by decide) .unpaired now
      exact absurd hpost (hno (no_place_of_deed hended (by decide)))
  | pumpQuery now taken =>
      have hmem : post ∈ c.queryPostings now := hpost
      unfold Lifecycle.queryPostings at hmem
      split at hmem
      · cases hmem
      · split at hmem
        · cases hmem
        · exact absurd hmem (hother (by decide))
  | pumpArrival now =>
      have hmem : post ∈ c.arrivalPostings now := hpost
      unfold Lifecycle.arrivalPostings at hmem
      split at hmem
      · cases hmem
      · split at hmem
        · cases hmem
        · exact absurd hmem (hother (by decide))
  | pumpPeerBoardSession now =>
      have hmem : post ∈ (c.judgePeerBoard now).peerBoardPostings
        (if (c.judgePeerBoard now).peerBoardSession then 1 else 0) now := hpost
      generalize (if (c.judgePeerBoard now).peerBoardSession then (1 : UInt8) else 0) = live at hmem
      unfold Lifecycle.peerBoardPostings at hmem
      split at hmem
      · cases hmem
      · exact absurd hmem (hother (by decide))
  | _ => cases hpost

/-- In every run of the board, with calls of `channel_lifecycle_owe_place` at any point where the
other core can have the lock: the placements that `pump_place` queues are for different owes, in
their order; each carries what one owe of its session gave, in two frames tagged one after the
other, and is queued at most `CHANNEL_PLACE_STALE_MS` after it, unless half the range of the clock
went by; until the first channel is emptied the second frame is right behind the first; and no other
event queues a placement of this board. -/
theorem owed_places_queued (curve : P256) (buildType : BuildType)
    (identity : Option (List UInt8)) (registration : Option (List UInt8 × List UInt8))
    (turns : List (Event × List Owe)) :
    let p := run (step curve) (boot curve buildType identity registration) turns
    (p.placed.map (·.index)).Pairwise (· < ·) ∧
      (∀ entry ∈ p.placed, ∃ owe key counter,
        p.owes[entry.index]? = some (owe, entry.session) ∧
        entry.place = (builtView Msg.place 0 key (counter : UInt64).toNat
          (owe.body.take placeBodySize)).bytes ∧
        entry.query = (builtView Msg.posQuery 0 key (counter + 1).toNat [owe.queryId]).bytes ∧
        ∀ queued owed : Nat, entry.now = Clock.reading queued → owe.stamp = Clock.reading owed →
          queued < owed + 2 ^ 31 → owed < queued + 2 ^ 31 →
          queued ≤ owed + placeStaleMs.toNat) ∧
      (∃ left part, p.drained = left.flatten ++ part ∧ (∀ frame ∈ left, IsFrame frame) ∧
        ∀ entry ∈ p.placed.drop p.emptied,
          Behind left part (p.board.out.band .priority).frames entry.place entry.query) ∧
      ∀ event, ∀ post ∈ p.board.postings curve event, typed Msg.place post.frame = true →
        post.queued = true → (∃ now, event = .pumpInbound now) ∨
          ∃ entry ∈ p.queues event, entry.place = post.frame := by
  intro p
  have hfits := fits_run curve buildType identity registration turns
  refine ⟨hfits.order, fun entry hentry ↦ ?_, ?_, fun event post hpost htyped hqueued ↦ ?_⟩
  · obtain ⟨owe, key, counter, hat, hplace, hquery, htimely⟩ := hfits.carries entry hentry
    refine ⟨owe, key, counter, hat, hplace, hquery, ?_⟩
    intro queued owed hnow hstamp hbefore hafter
    rw [hnow, hstamp, Clock.span_lt_elapsed (by decide) hbefore hafter] at htimely
    exact Nat.le_of_not_lt htimely
  · obtain ⟨left, part, hdrained, hframes, hpairs⟩ := hfits.holds.reads
    exact ⟨left, part, hdrained, hframes, fun entry hentry ↦
      hpairs (entry.place, entry.query) (List.mem_map_of_mem hentry)⟩
  · rcases place_of_event hfits.nonce hpost htyped hqueued with hrelayed | ⟨now, query, hlaid⟩
    · exact .inl hrelayed
    · refine .inr ⟨_, List.mem_map_of_mem (Option.mem_toList.2 hlaid), rfl⟩

/-- A development board answers the hello of a greeting, and its host takes what it queued. -/
def greeted : List (Event × List Owe) :=
  (Told.greeting ++ [Event.pumpOut 0 true, .pumpOut 0 true]).map (·, [])

/-- A placement is owed, and the channel has no turn for half the range of the clock. -/
def starved : List (Event × List Owe) :=
  greeted ++ [(.owePlace [1, 2, 3, 4, 5] 9 (Clock.reading 10), []),
    (.pumpPlace (Clock.reading (10 + 2 ^ 31 + 5)), [])]

/-- A chunk of the clipboard with the header of a placement among its bytes. -/
def foreignChunk : List UInt8 :=
  headerBytes Msg.clipChunk 0 20 ++ [1, 0, 0, 0] ++ headerBytes Msg.place 0 20 ++
    List.replicate 12 0xAA

/-- What arrives of it and of the next chunk, when its first data packet is lost and the
announcement of the next. -/
def foreignPackets : List RelayPacket :=
  (packetsOf foreignChunk).eraseIdx 1 ++ (packetsOf Told.secondChunk).drop 1

/-- A placement is queued and its first frame leaves. -/
def halfway : List (Event × List Owe) :=
  greeted ++ [(.owePlace [1, 2, 3, 4, 5] 9 10, []), (.pumpPlace 20, []), (.pumpOut 0 true, [])]

set_option maxRecDepth 4096 in
/-- A placement is queued more than half the range of the clock after it was owed. A placement of
the peer board is queued though none was owed, out of two chunks of which packets are lost. And when
a hello is answered between the two frames of a placement, its ack is what leaves behind the
first. -/
theorem places_starved_foreign_and_parted :
    (let p := run (step smallCurve) (boot smallCurve .development none none) starved;
      (p.placed.map fun entry ↦ (entry.index, entry.now)) =
          [(0, Clock.reading (10 + 2 ^ 31 + 5))] ∧
        (p.owes.map fun owed ↦ owed.1.stamp) = [Clock.reading 10]) ∧
      foreignPackets.Sublist (packetsOf foreignChunk ++ packetsOf Told.secondChunk) ∧
      (let p := run (step smallCurve) (boot smallCurve .development none none)
          (greeted ++ foreignPackets.map fun packet ↦ (.peerPacket packet, []));
        p.owes = [] ∧ ∃ post ∈ p.board.postings smallCurve (.pumpInbound 2),
          typed Msg.place post.frame = true ∧ post.queued = true) ∧
      (let p := run (step smallCurve) (boot smallCurve .development none none) halfway;
        let p' := run (step smallCurve) p ((Told.greeting.take 6).map (·, []));
        p.placed.length = 1 ∧
          (p.drained.drop
            (p.drained.length - (headerSize + authPrefixSize + placeBodySize))).head? =
            some Msg.place ∧
          (p.board.out.band .priority).frames.map List.head? = [some Msg.posQuery] ∧
          p'.drained.head? = some Msg.helloAck) := by
  refine ⟨by decide, by decide, by decide, by decide⟩

end Placing

end DeskhopPlus.Board
