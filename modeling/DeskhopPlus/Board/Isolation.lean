import DeskhopPlus.Board.Watch

/-!
# What the helper can make a board do

The board between two computers is to carry only what its paired helper sent. `helper_isolated`
collects what that comes to over every run: what enters the relay queue was taken from distinct
frames of the host, each under the key of the session in place and with a counter new to it; with no
session nothing enters the relay queue and the queues toward the helper take answers to the host's
own frames at most; and a frame that does not verify leaves a trace in the refusal counts alone,
unless it is a hello that names no registered helper, which is answered before its tag is looked at.
-/

namespace DeskhopPlus.Board

open Wire Outq Auth Crypto Runs Session

namespace Watched

/-- Everything an event adds to the relayed frames was handed on by it and taken in the session in
place, with a counter not taken there before, and is what the relay queue gained. -/
structure RelaysProved (w next : Watched) : Prop where
  relayed : next.log.relayed = w.log.relayed ∨
    ∃ o, next.log.relayed = w.log.relayed ++ [o] ∧
      next.log.received = w.log.received ++ [o.view] ∧
      w.board.session.present = true ∧ o.session = w.log.started.length ∧
      TagVerifies w.board.session.kH2b o.view ∧ o.counter = counterOf o.view ∧
      o.counter ∉ w.log.countersIn o.session
  queued : ∀ id, ∀ frame ∈ (next.board.relayTx.q.band id).frames,
    frame ∈ (w.board.relayTx.q.band id).frames ∨
      ∃ o, next.log.relayed = w.log.relayed ++ [o] ∧
        frame = (Lifecycle.shortened o.view).bytes

/-- What an event can add while there is no session: nothing toward the peer, and toward the helper
an answer to a frame of the host's own at most. -/
structure QuietAlone (curve : P256) (w next : Watched) (event : Event) : Prop where
  relayed : next.log.relayed = w.log.relayed
  relay : ∀ id, ∀ frame ∈ (next.board.relayTx.q.band id).frames,
    frame ∈ (w.board.relayTx.q.band id).frames
  output : ∀ index id, ∀ frame ∈ ((next.board.output index).band id).frames,
    frame ∈ ((w.board.output index).band id).frames ∨
      ∃ h, w.board.handing event = some h ∧ frame ∈ h.channel.replies curve h.view h.now

/-- The frame carries the tag it is checked for: a hello that of its own nonce's key, any other
frame that of the session in place, with a counter the receive window has not refused. -/
def Verifies (w : Watched) (view : FrameView) : Prop :=
  if view.type = Msg.hello then HelloVerifies w.board.pair view
  else w.board.session.present = true ∧ TagVerifies w.board.session.kH2b view ∧
    w.board.session.rx.ok (counterOf view) = true

/-- The event read a report and counted a refusal, and did nothing else. -/
def Inert (w next : Watched) : Prop :=
  ∃ reports reader extraReader session, SameButRefusals w.board.session session ∧
    next.board =
      { w.board with
        reports := reports
        reader := reader
        extraReader := extraReader
        session := session }

/-- The event read a report and offered a `HELLO_REFUSED` to the helper, and did nothing else. -/
def Answers (w next : Watched) (now : UInt32) : Prop :=
  ∃ reports reader extraReader rest,
    next.board =
      ({ w.board with
          reports := reports
          reader := reader
          extraReader := extraReader }.queue (Msg.helloRefused :: rest) now).2

end Watched

/-! ## A frame that is not taken -/

section Untaken

variable {c : Lifecycle} {view : FrameView} {now : UInt32}

/-- A frame the session layer neither answers nor pairs by moves the session alone. -/
theorem channelOnFrame_quiet {curve : P256} {session : Session}
    (h : c.session.onFrame curve c.pair view now replyMax = (.ok [], session, c.pair)) :
    c.channelOnFrame curve view now = { c with session := session } := by
  unfold Lifecycle.channelOnFrame
  rw [h]
  simp

/-- A hello that names no registered helper is refused, whatever its tag. -/
theorem onFrame_unnamed (curve : P256) (index : Nat) (hrelease : c.session.buildType = .release)
    (htype : view.type = Msg.hello) (hname : ¬ NamesHelper c.pair view) :
    ∃ rest, c.onFrame curve index view now = (c.queue (Msg.helloRefused :: rest) now).2 := by
  have hverdict : ∃ correlation status,
      c.session.helloVerdict c.pair view = .refused correlation status := by
    rcases helloVerdict_cases hrelease c.pair view with ⟨-, hrefused⟩ | ⟨hnamed, -⟩ | ⟨hnamed, -⟩
    · exact hrefused
    · exact absurd hnamed hname
    · exact absurd hnamed hname
  obtain ⟨correlation, status, hrefused⟩ := hverdict
  obtain ⟨rest, hreply⟩ := refuseHello_fits correlation status
  refine ⟨rest, ?_⟩
  have hhere : Lifecycle.authenticatesHere view.type = false := by
    rw [htype]
    exact not_authenticatesHere_hello
  have hanswer : c.session.onFrame curve c.pair view now replyMax =
      (.ok (Msg.helloRefused :: rest), c.session, c.pair) := by
    simp only [Session.onFrame, htype, if_true, answerHello, hrefused, hreply]
  have hack : Msg.helloRefused ≠ Msg.helloAck := by decide
  rw [Lifecycle.onFrame, if_neg (by simp [hhere]), Lifecycle.channelOnFrame, hanswer]
  simp [hack]

/-- A hello whose tag fails is counted. -/
theorem onFrame_silent (curve : P256) (index : Nat)
    (htype : view.type = Msg.hello) (hsilent : c.session.helloVerdict c.pair view = .silent) :
    c.onFrame curve index view now = { c with session := c.session.noteRefused now true } := by
  have hhere : Lifecycle.authenticatesHere view.type = false := by
    rw [htype]
    exact not_authenticatesHere_hello
  rw [Lifecycle.onFrame, if_neg (by simp [hhere])]
  apply channelOnFrame_quiet
  simp only [Session.onFrame, htype, if_true, answerHello, hsilent]

/-- A frame of an authenticated type other than the hello that the session does not take. -/
theorem onFrame_untaken (curve : P256) (index : Nat) (hrelease : c.session.buildType = .release)
    (htype : view.type ≠ Msg.hello) (hauth : Msg.isAuthenticated view.type = true)
    (hnot : ¬ (c.session.present = true ∧ Opens c.session.kH2b c.session.rx view)) :
    ∃ session, SameButRefusals c.session session ∧
      c.onFrame curve index view now = { c with session := session } := by
  have hrefused : (∃ fault, (c.session.authenticate view now).1 = .error fault) ∧
      SameButRefusals c.session (c.session.authenticate view now).2 := by
    rcases authenticate_cases hrelease view now with ⟨hpresent, hopens, -⟩ | ⟨-, hfault, hsame⟩
    · exact absurd ⟨hpresent, hopens⟩ hnot
    · exact ⟨hfault, hsame⟩
  by_cases hhere : Lifecycle.authenticatesHere view.type = true
  · obtain ⟨⟨fault, hfault⟩, hsame⟩ := hrefused
    refine ⟨_, hsame, ?_⟩
    rw [Lifecycle.onFrame, if_pos hhere]
    generalize c.session.authenticate view now = result at hfault
    obtain ⟨outcome, session⟩ := result
    cases hfault
    rfl
  · have hrequest : view.type ≠ Msg.pairRequest := by
      intro h
      rw [h] at hauth
      exact absurd hauth (by decide)
    rw [Lifecycle.onFrame, if_neg hhere]
    by_cases hbeat : view.type = Msg.heartbeat ∨ view.type = Msg.posResponse
    · refine ⟨_, hrefused.2, channelOnFrame_quiet ?_⟩
      simp only [Session.onFrame, if_neg htype, if_neg hrequest, if_pos hbeat]
    · refine ⟨_, .refl _, channelOnFrame_quiet ?_⟩
      simp only [Session.onFrame, if_neg htype, if_neg hrequest, if_neg hbeat]

end Untaken

namespace Watched

variable (curve : P256) {w : Watched} (event : Event)

/-- What a frame handed on leaves of the channel it met. -/
theorem step_handed {h : Lifecycle.Handing} (hhanding : w.board.handing event = some h) :
    (w.step curve event).board = h.channel.onFrame curve h.index h.view h.now ∧
      (w.step curve event).log = w.log.frame h.channel h.view h.now := by
  rcases w.board.step_cases curve event with
    ⟨nonce, rfl⟩ | ⟨handing, hsome, -, hstep⟩ | ⟨hnone, -⟩
  · cases hhanding
  · rw [hhanding] at hsome
    cases hsome
    exact ⟨hstep, by simp only [step, note, hhanding]⟩
  · rw [hhanding] at hnone
    cases hnone

/-- Without a frame handed on the record of the frames stays. -/
theorem step_unhanded (hhanding : w.board.handing event = none) :
    (w.step curve event).log.relayed = w.log.relayed := by
  simp only [step, note, hhanding]

theorem relaysProved_step (haccounted : w.Accounted) (hstocked : w.Stocked) :
    RelaysProved w (w.step curve event) := by
  have hrelease : w.board.session.buildType = .release := haccounted.release
  cases hhanding : w.board.handing event with
  | none =>
      refine ⟨.inl (step_unhanded curve event hhanding), fun id frame hframe ↦ .inl ?_⟩
      -- no frame is handed on, and what else happens only empties the relay
      have hrelay : Grows [] w.board.relayTx.q (w.step curve event).board.relayTx.q := by
        rcases w.board.step_cases curve event with
          ⟨nonce, rfl⟩ | ⟨handing, hsome, -⟩ | ⟨-, -, hmoves⟩
        · show Grows [] w.board.relayTx.q (w.board.stageNonce nonce).relayTx.q
          unfold Lifecycle.stageNonce
          split <;> exact .refl _
        · rw [hhanding] at hsome
          cases hsome
        · exact hmoves.relay
      rcases (hrelay hstocked.relay).2 id frame hframe with hold | hnew
      · exact hold
      · cases hnew
  | some h =>
      obtain ⟨now, index, view, c⟩ := h
      obtain ⟨hboard, hlog⟩ := step_handed curve event hhanding
      have hrest := Lifecycle.handing_rest hhanding
      simp only at hboard hlog hrest
      have hsession : c.session = w.board.session := by rw [hrest]
      have hrelayTx : c.relayTx = w.board.relayTx := by rw [hrest]
      have hrelay := grows_relay curve (by rw [hsession]; exact hrelease) index view now (c := c)
      rw [hrelayTx, ← hboard] at hrelay
      have hframes := (hrelay hstocked.relay).2
      by_cases hrelays : fate c view now = .taken ∧ relays c view = true
      · -- the one way into the relay queue
        obtain ⟨hfate, hqueued⟩ := hrelays
        obtain ⟨hpresent, hopens⟩ := opens_of_taken (by rw [hsession]; exact hrelease) hfate
        rw [hsession] at hpresent hopens
        have hrecording := (haccounted.live hpresent).2.2
        obtain ⟨htag, hadmits⟩ := (opens_iff hrecording).1 hopens
        have hrelayed : (w.step curve event).log.relayed =
            w.log.relayed ++ [w.log.opening w.log.current view] := by
          simp [hlog, Log.frame, hfate, hqueued]
        refine ⟨.inr ⟨_, hrelayed, ?_, hpresent, rfl, htag, rfl, hadmits.1⟩, ?_⟩
        · simp [hlog, Log.frame, hfate, Log.opens, Log.hears, Log.opening]
        · intro id frame hframe
          refine (hframes id frame hframe).imp_right fun hnew ↦ ⟨_, hrelayed, ?_⟩
          rw [if_pos ⟨hfate, hqueued⟩] at hnew
          exact List.mem_singleton.1 hnew
      · refine ⟨.inl ?_, fun id frame hframe ↦ ?_⟩
        · rw [hlog]
          unfold Log.frame
          cases hfate : fate c view now with
          | taken =>
              have hnot : relays c view = false := by
                by_contra hyes
                exact hrelays ⟨hfate, by simpa using hyes⟩
              simp [hnot]
          | _ => rfl
        · rw [if_neg hrelays] at hframes
          exact .inl ((hframes id frame hframe).resolve_right (by simp))

/-- The queues toward the helper while there is no session. -/
theorem grows_alone (habsent : w.board.session.present = false) (index : Nat) :
    ∃ added, Grows added (w.board.output index) ((w.step curve event).board.output index) ∧
      ∀ frame ∈ added, ∃ h, w.board.handing event = some h ∧
        frame ∈ h.channel.replies curve h.view h.now := by
  rcases w.board.step_cases curve event with
    ⟨nonce, rfl⟩ | ⟨h, hhanding, -, hstep⟩ | ⟨-, -, hmoves⟩
  · refine ⟨[], ?_, by simp⟩
    show Grows [] (w.board.output index) ((w.board.stageNonce nonce).output index)
    unfold Lifecycle.stageNonce
    split <;> exact .refl _
  · refine ⟨h.channel.replies curve h.view h.now, ?_, fun frame hframe ↦ ⟨h, hhanding, hframe⟩⟩
    have hgrows := grows_replies curve h.index h.view h.now (c := h.channel)
    rw [← hstep] at hgrows
    have hrest := Lifecycle.handing_rest hhanding
    have hsame : h.channel.out = w.board.out ∧ h.channel.extraOut = w.board.extraOut := by
      rw [hrest]
      exact ⟨rfl, rfl⟩
    rw [hsame.1, hsame.2] at hgrows
    show Grows _ (w.board.output index) ((w.board.step curve event).output index)
    unfold Lifecycle.output
    split
    · exact hgrows.1
    · exact hgrows.2
  · obtain ⟨added, hout, hnone⟩ := hmoves.out
    obtain ⟨more, hextra, hnone'⟩ := hmoves.extraOut
    rw [hnone habsent] at hout
    rw [hnone' habsent] at hextra
    refine ⟨[], ?_, by simp⟩
    show Grows _ (w.board.output index) ((w.board.step curve event).output index)
    unfold Lifecycle.output
    split
    · exact hout
    · exact hextra

theorem quietAlone_step (haccounted : w.Accounted) (hstocked : w.Stocked)
    (habsent : w.board.session.present = false) :
    QuietAlone curve w (w.step curve event) event := by
  have hproved := relaysProved_step curve event haccounted hstocked
  have hrelayed : (w.step curve event).log.relayed = w.log.relayed := by
    rcases hproved.relayed with hsame | ⟨o, -, -, hpresent, -⟩
    · exact hsame
    · rw [habsent] at hpresent
      cases hpresent
  refine ⟨hrelayed, fun id frame hframe ↦ ?_, fun index id frame hframe ↦ ?_⟩
  · rcases hproved.queued id frame hframe with hold | ⟨o, hmore, -⟩
    · exact hold
    · rw [hrelayed] at hmore
      simp at hmore
  · have hwell : (w.board.output index).WellFormed := by
      unfold Lifecycle.output
      split
      · exact hstocked.out
      · exact hstocked.extraOut
    obtain ⟨added, hgrows, hreplies⟩ := grows_alone curve event habsent index
    exact ((hgrows hwell).2 id frame hframe).imp_right (hreplies frame)

/-- A frame that does not verify is counted at most, unless it is a hello that names no registered
helper. -/
theorem inert_step (haccounted : w.Accounted) {h : Lifecycle.Handing}
    (hhanding : w.board.handing event = some h) (hauth : Msg.isAuthenticated h.view.type = true)
    (hnot : ¬ w.Verifies h.view)
    (hnamed : h.view.type = Msg.hello → NamesHelper w.board.pair h.view) :
    Inert w (w.step curve event) := by
  obtain ⟨now, index, view, c⟩ := h
  have hrelease : w.board.session.buildType = .release := haccounted.release
  have hboard := (step_handed curve event hhanding).1
  have hrest := Lifecycle.handing_rest hhanding
  simp only at hboard hrest hauth hnot hnamed
  have hsession : c.session = w.board.session := by rw [hrest]
  have hpair : c.pair = w.board.pair := by rw [hrest]
  have hmoved : ∃ session, SameButRefusals c.session session ∧
      c.onFrame curve index view now = { c with session := session } := by
    by_cases htype : view.type = Msg.hello
    · have hsilent : c.session.helloVerdict c.pair view = .silent := by
        rw [Verifies, if_pos htype] at hnot
        rw [hsession, hpair]
        rcases helloVerdict_cases hrelease w.board.pair view with
          ⟨hunnamed, -⟩ | ⟨-, -, hsilent⟩ | ⟨-, hello, sharedSecret, hread, hsecret, htag, -⟩
        · exact absurd (hnamed htype) hunnamed
        · exact hsilent
        · exact absurd ⟨hello, sharedSecret, hread, hsecret, htag⟩ hnot
      exact ⟨_, sameButRefusals_noteRefused _ now true, onFrame_silent curve index htype hsilent⟩
    · rw [Verifies, if_neg htype] at hnot
      apply onFrame_untaken curve index (by rw [hsession]; exact hrelease) htype hauth
      rw [hsession, opens_iff_ok]
      exact hnot
  obtain ⟨session, hsame, hmoved⟩ := hmoved
  refine ⟨c.reports, c.reader, c.extraReader, session, by rw [← hsession]; exact hsame, ?_⟩
  rw [hboard, hmoved, hrest]

/-- A hello that names no registered helper is answered, and nothing else happens. -/
theorem answers_step (haccounted : w.Accounted) {h : Lifecycle.Handing}
    (hhanding : w.board.handing event = some h) (htype : h.view.type = Msg.hello)
    (hname : ¬ NamesHelper w.board.pair h.view) : Answers w (w.step curve event) h.now := by
  obtain ⟨now, index, view, c⟩ := h
  have hrelease : w.board.session.buildType = .release := haccounted.release
  have hboard := (step_handed curve event hhanding).1
  have hrest := Lifecycle.handing_rest hhanding
  simp only at hboard hrest htype hname ⊢
  have hsession : c.session = w.board.session := by rw [hrest]
  have hpair : c.pair = w.board.pair := by rw [hrest]
  have hunnamed : ¬ NamesHelper c.pair view := by rw [hpair]; exact hname
  obtain ⟨rest, hanswer⟩ :=
    onFrame_unnamed curve index (by rw [hsession]; exact hrelease) htype hunnamed
  refine ⟨c.reports, c.reader, c.extraReader, rest, ?_⟩
  rw [hboard, hanswer, ← hrest]

end Watched

/-- The board carries what its paired helper sent and nothing else. Over every run of a release
board, whatever reports come in on its channels: the relayed frames were taken from distinct frames
handed on, no counter twice in one session, and all that waits in the relay queue is theirs. At
every event, what is relayed verified under the key of the session in place with a counter not yet
taken in it; with no session nothing of the helper's is relayed and nothing of the peer's is queued
for the helper; and a frame of an authenticated type that does not verify moves the refusal counts
alone, except that a hello naming no registered helper is answered with a refusal. -/
theorem helper_isolated (curve : P256) (identity : Option (List UInt8))
    (registration : Option (List UInt8 × List UInt8)) (events : List Event) :
    let w := run (Watched.step curve) (Watched.boot curve identity registration) events
    (w.log.opened.map Opening.view).Sublist w.log.received ∧
    w.log.relayed.Sublist w.log.opened ∧
    (w.log.relayed.map fun o ↦ (o.session, o.counter)).Nodup ∧
    (∀ id, ∀ frame ∈ (w.board.relayTx.q.band id).frames,
      ∃ o ∈ w.log.relayed, frame = (Lifecycle.shortened o.view).bytes) ∧
    ∀ event,
      Watched.RelaysProved w (w.step curve event) ∧
      (w.board.session.present = false →
        Watched.QuietAlone curve w (w.step curve event) event) ∧
      ∀ h, w.board.handing event = some h → Msg.isAuthenticated h.view.type = true →
        ¬ w.Verifies h.view →
        ((h.view.type = Msg.hello → NamesHelper w.board.pair h.view) →
          Watched.Inert w (w.step curve event)) ∧
        (h.view.type = Msg.hello → ¬ NamesHelper w.board.pair h.view →
          Watched.Answers w (w.step curve event) h.now) := by
  intro w
  obtain ⟨haccounted, hstocked⟩ := Watched.run_accounted curve identity registration events
  have hrelayed := haccounted.relayed
  refine ⟨haccounted.heard, hrelayed.trans List.filter_sublist,
    haccounted.once.sublist (hrelayed.map _), hstocked.relayed, fun event ↦ ⟨?_, ?_, ?_⟩⟩
  · exact Watched.relaysProved_step curve event haccounted hstocked
  · exact Watched.quietAlone_step curve event haccounted hstocked
  · intro h hhanding hauth hnot
    exact ⟨Watched.inert_step curve event haccounted hhanding hauth hnot,
      Watched.answers_step curve event haccounted hhanding⟩

/-! ## A hello of a stranger -/

/-- A hello of this version under a key id that no board ever registered. -/
def strangerHello : Hello where
  protoVersion := protoVersion
  os := 1
  buildType := 0
  channelCount := 2
  maxChunk := 1024
  correlation := 7
  helperKeyId := List.replicate keyIdSize 0x55
  helperNonce := List.replicate nonceSize 0x33

/-- The stranger's hello with zeros for a counter and a tag. -/
def strangerFrame : FrameView :=
  { type := Msg.hello, flags := 0,
    payload := List.replicate authPrefixSize 0 ++ strangerHello.body }

/-- The stranger's hello in two reports, the first of them read. -/
def strangerEvents : List Event :=
  [.receiveReport 0 (reportFrameStart :: strangerFrame.bytes.take reportStreamSize),
   .receiveReport 0 (reportFrameContinues :: strangerFrame.bytes.drop reportStreamSize),
   .drainReport 0]

/-- An unpaired board answers the stranger's hello: no tag verifies, and a `HELLO_REFUSED` stands in
the outgoing queue that was empty before. -/
theorem stranger_hello_answered :
    let w := run (Watched.step smallCurve) (Watched.boot smallCurve none none) strangerEvents
    ∃ h, w.board.handing (.drainReport 0) = some h ∧ Msg.isAuthenticated h.view.type = true ∧
      ¬ w.Verifies h.view ∧
      w.board.out.priority.frames = [] ∧
      (w.step smallCurve (.drainReport 0)).board.out.priority.frames.map List.head? =
        [some Msg.helloRefused] := by
  intro w
  have hhanded : (w.board.handing (.drainReport 0)).map Lifecycle.Handing.view =
      some strangerFrame := by
    decide
  obtain ⟨h, hhanding, hview⟩ := Option.map_eq_some_iff.1 hhanded
  have hsecret : w.board.pair.secret = none := by decide
  refine ⟨h, hhanding, ?_, ?_, ?_, ?_⟩
  · rw [hview]
    decide
  · rw [hview]
    rintro ⟨hello, sharedSecret, -, hsome, -⟩
    rw [hsecret] at hsome
    cases hsome
  · decide
  · decide

end DeskhopPlus.Board
