import DeskhopPlus.Board.Isolation

/-!
# What is taken twice

A session refuses a counter it took before, and its key is new with the nonce the board spends on
it, so no frame of a session is taken twice. A hello has a counter state of its own each time it is
opened, and its key comes from the nonce it carries: nothing the board keeps tells a hello it took
from one it did not. `opensOnce_iff` says that this is the whole of it: in every run, each pair of a
key and a counter is taken once exactly when no hello that proves itself was taken before.
-/

namespace DeskhopPlus.Board

open Wire Outq Auth Crypto Runs Session

/-- The session in place is neither replaced nor ended. -/
structure InPlace (s s' : Session) : Prop where
  present : s'.present = s.present
  kH2b : s'.kH2b = s.kH2b
  kB2h : s'.kB2h = s.kB2h
  rx : s'.rx = s.rx
  txCounter : s'.txCounter = s.txCounter
  sessions : s'.sessions = s.sessions

theorem SameButRefusals.inPlace {s s' : Session} (h : SameButRefusals s s') : InPlace s s' := by
  rw [h]
  exact ⟨rfl, rfl, rfl, rfl, rfl, rfl⟩

/-- Queueing a frame for the helper moves nothing of the session but the stamp of the last frame
sent. -/
theorem inPlace_queue (c : Lifecycle) (frame : List UInt8) (now : UInt32) :
    InPlace c.session (c.queue frame now).2.session := by
  unfold Lifecycle.queue Lifecycle.track
  simp only
  split <;> exact ⟨rfl, rfl, rfl, rfl, rfl, rfl⟩

/-- The keys of what was taken differ where they were derived from different inputs. -/
def Log.KeysApart (log : Log) : Prop :=
  ∀ a ∈ log.opened, ∀ b ∈ log.opened, a.use.key = b.use.key → a.use = b.use

/-- No frame that was taken carries the tag of two keys. -/
def Log.TagsApart (log : Log) : Prop :=
  ∀ a ∈ log.opened, ∀ b ∈ log.opened, a.view = b.view → a.use = b.use

theorem Log.keysApart_of_use {log : Log} {use : KeyUse} (h : ∀ o ∈ log.opened, o.use = use) :
    log.KeysApart := by
  intro a ha b hb _
  rw [h a ha, h b hb]

theorem Log.tagsApart_of_use {log : Log} {use : KeyUse} (h : ∀ o ∈ log.opened, o.use = use) :
    log.TagsApart := by
  intro a ha b hb _
  rw [h a ha, h b hb]

namespace Watched

/-- The frame is a hello that proves itself, and its counter was taken under its key before. -/
def ReplaysHello (w : Watched) (view : FrameView) : Prop :=
  view.type = Msg.hello ∧ ∃ hello sharedSecret, ProvesHello w.board.pair view hello sharedSecret ∧
    ∃ o ∈ w.log.opened, o.use = .hello sharedSecret hello.helperNonce ∧ o.counter = counterOf view

/-- The event hands on no hello that was taken before. -/
def NoReplay (w : Watched) (event : Event) : Prop :=
  ∀ h, w.board.handing event = some h → ¬ w.ReplaysHello h.view

/-- What a run has taken, it took once: no pair of a key and a counter, no frame and no hello that
started a session stands twice in the record, and a hello taken before leaves the session in place
when it is written again. -/
structure OpensOnce (curve : P256) (start : Watched) (events : List Event) : Prop where
  pairs : ((run (step curve) start events).log.opened.map fun o ↦ (o.use.key, o.counter)).Nodup
  frames : ((run (step curve) start events).log.opened.map Opening.view).Nodup
  sessions : ((run (step curve) start events).log.started.map Start.view).Nodup
  undisturbed : ∀ before event after, events = before ++ event :: after →
    ∀ h, (run (step curve) start before).board.handing event = some h →
      h.view.type = Msg.hello →
      h.view ∈ (run (step curve) start before).log.opened.map Opening.view →
      InPlace (run (step curve) start before).board.session
        (run (step curve) start (before ++ [event])).board.session

/-! ## What an event adds to the record -/

section Adds

variable (curve : P256) {w : Watched} {event : Event}

/-- A hello that is taken is noted with its key. -/
theorem opened_of_takesHello {h : Lifecycle.Handing} (hhanding : w.board.handing event = some h)
    {use : KeyUse} (htakes : (fate h.channel h.view h.now).TakesHello use) :
    (w.step curve event).log.opened = w.log.opened ++ [w.log.opening use h.view] := by
  rw [(step_handed curve event hhanding).2, Log.frame]
  generalize fate h.channel h.view h.now = fate at htakes
  cases fate with
  | untaken => cases htakes
  | proves use' =>
      cases htakes
      rfl
  | starts start =>
      cases htakes
      rfl
  | taken => cases htakes

/-- An event takes nothing, a hello, or a frame of a session. -/
theorem opened_step (w : Watched) (event : Event) :
    (w.step curve event).log.opened = w.log.opened ∨
      ∃ h use, w.board.handing event = some h ∧
        (w.step curve event).log.opened = w.log.opened ++ [w.log.opening use h.view] ∧
        ((fate h.channel h.view h.now).TakesHello use ∨
          (w.log.opening use h.view).inSession = true) := by
  cases hhanding : w.board.handing event with
  | none =>
      left
      simp only [step, note, hhanding]
  | some h =>
      have hlog := (step_handed curve event hhanding).2
      cases hfate : fate h.channel h.view h.now with
      | untaken =>
          left
          rw [hlog, Log.frame, hfate]
          rfl
      | proves use =>
          have htakes : (fate h.channel h.view h.now).TakesHello use := by
            rw [hfate]
            rfl
          exact .inr ⟨h, use, rfl, opened_of_takesHello curve hhanding htakes,
            .inl (hfate ▸ htakes)⟩
      | starts start =>
          have htakes : (fate h.channel h.view h.now).TakesHello start.helloUse := by
            rw [hfate]
            rfl
          exact .inr ⟨h, _, rfl, opened_of_takesHello curve hhanding htakes, .inl (hfate ▸ htakes)⟩
      | taken =>
          refine .inr ⟨h, w.log.current, rfl, ?_, .inr (w.log.current_inSession h.view)⟩
          rw [hlog, Log.frame, hfate]
          rfl

/-- The record of what was taken only grows. -/
theorem opened_grows (w : Watched) (events : List Event) :
    w.log.opened <+: (run (step curve) w events).log.opened := by
  apply run_extends (fun w : Watched ↦ w.log.opened)
  intro w event
  rcases opened_step curve w event with hsame | ⟨h, use, -, hmore, -⟩
  · rw [hsame]
  · rw [hmore]
    exact List.prefix_append _ _

/-- The hellos an event takes are those that prove themselves to the board before it. -/
theorem takesHello_iff (haccounted : w.Accounted) {h : Lifecycle.Handing}
    (hhanding : w.board.handing event = some h) {use : KeyUse} :
    (fate h.channel h.view h.now).TakesHello use ↔ h.view.type = Msg.hello ∧
      ∃ hello sharedSecret, ProvesHello w.board.pair h.view hello sharedSecret ∧
        use = .hello sharedSecret hello.helperNonce := by
  have hrest := Lifecycle.handing_rest hhanding
  have hsession : h.channel.session = w.board.session := by rw [hrest]
  have hpair : h.channel.pair = w.board.pair := by rw [hrest]
  have hrelease : h.channel.session.buildType = .release := by
    rw [hsession]
    exact haccounted.release
  rw [fate_takesHello_iff hrelease, hpair]

end Adds

/-! ## Runs without a replayed hello -/

/-- No hello was taken twice with one counter under one key. -/
def HellosOnce (w : Watched) : Prop :=
  w.log.opened.Pairwise fun a b ↦ a.inSession = false → b.inSession = false →
    (a.use, a.counter) ≠ (b.use, b.counter)

theorem hellosOnce_step (curve : P256) {w : Watched} {event : Event} (haccounted : w.Accounted)
    (h : w.HellosOnce) (hnoReplay : w.NoReplay event) : (w.step curve event).HellosOnce := by
  unfold HellosOnce at h ⊢
  rcases opened_step curve w event with hsame | ⟨handing, use, hhanding, hmore, htaken⟩
  · rw [hsame]
    exact h
  · rw [hmore]
    refine List.pairwise_append.2 ⟨h, List.pairwise_singleton _ _, ?_⟩
    intro o ho last hlast hin hin' hsame
    cases List.mem_singleton.1 hlast
    rcases htaken with htakes | hsession
    · -- the hello was taken before under the key it proves
      obtain ⟨htype, hello, sharedSecret, hproves, huse⟩ :=
        (takesHello_iff haccounted hhanding).1 htakes
      obtain ⟨hsameUse, hsameCounter⟩ := Prod.mk.inj hsame
      exact hnoReplay handing hhanding
        ⟨htype, hello, sharedSecret, hproves, o, ho, hsameUse.trans huse, hsameCounter⟩
    · rw [hsession] at hin'
      cases hin'

/-- A session's key is derived once: the nonce the board spent on it tells it from every other. -/
theorem session_eq_of_use {w : Watched} (haccounted : w.Accounted) (hfresh : w.log.nonces.Nodup)
    {a b : Opening} (ha : a ∈ w.log.opened) (hb : b ∈ w.log.opened) (hin : a.inSession = true)
    (huse : a.use = b.use) : a.session = b.session := by
  have hin' : b.inSession = true := by
    rw [Opening.inSession, ← huse]
    exact hin
  obtain ⟨first, hpos, hfirst, huseFirst⟩ := haccounted.keyed a ha hin
  obtain ⟨second, hpos', hsecond, huseSecond⟩ := haccounted.keyed b hb hin'
  have hnonces : (w.log.started.map Start.boardNonce).Nodup := by
    rw [haccounted.nonces] at hfresh
    exact hfresh.sublist (List.sublist_append_left _ _)
  have hsameNonce : first.boardNonce = second.boardNonce := by
    have hsame : first.use = second.use := huseFirst.symm.trans (huse.trans huseSecond)
    exact (KeyUse.session.inj hsame).2.2
  have hindex : a.session - 1 = b.session - 1 := by
    refine (List.getElem?_inj ?_ hnonces).1 ?_
    · rw [List.length_map]
      exact (List.getElem?_eq_some_iff.1 hfirst).1
    · rw [List.getElem?_map, List.getElem?_map, hfirst, hsecond]
      exact congrArg some hsameNonce
  omega

/-- Where no hello was taken twice, nothing was. -/
theorem pairs_nodup {w : Watched} (haccounted : w.Accounted) (hhellos : w.HellosOnce)
    (hfresh : w.log.nonces.Nodup) :
    (w.log.opened.map fun o ↦ (o.use, o.counter)).Nodup := by
  have honce := haccounted.once
  rw [List.Nodup, List.pairwise_map, List.pairwise_filter] at honce
  rw [List.Nodup, List.pairwise_map]
  refine List.Pairwise.imp_of_mem ?_ (honce.and hhellos)
  intro a b ha hb ⟨hsessions, hhellos⟩ hsame
  obtain ⟨huse, hcounter⟩ := Prod.mk.inj hsame
  have hkind : a.inSession = b.inSession := by rw [Opening.inSession, huse, Opening.inSession]
  cases hin : a.inSession with
  | true =>
      apply hsessions hin (hkind ▸ hin)
      rw [session_eq_of_use haccounted hfresh ha hb hin huse, hcounter]
  | false => exact hhellos hin (hkind ▸ hin) hsame

/-- A hello that does not prove itself leaves the session in place. -/
theorem inPlace_of_unproved (curve : P256) {w : Watched} {event : Event} (haccounted : w.Accounted)
    {h : Lifecycle.Handing} (hhanding : w.board.handing event = some h)
    (htype : h.view.type = Msg.hello)
    (hunproved : ∀ hello sharedSecret, ¬ ProvesHello w.board.pair h.view hello sharedSecret) :
    InPlace w.board.session (w.step curve event).board.session := by
  have hauth : Msg.isAuthenticated h.view.type = true := by
    rw [htype]
    decide
  by_cases hnamed : NamesHelper w.board.pair h.view
  · have hnot : ¬ w.Verifies h.view := by
      rw [Verifies, if_pos htype]
      rintro ⟨hello, sharedSecret, hread, hsecret, htag⟩
      exact hunproved hello sharedSecret ⟨hnamed, hread, hsecret, htag⟩
    obtain ⟨reports, reader, extraReader, session, hsame, hboard⟩ :=
      inert_step curve event haccounted hhanding hauth hnot fun _ ↦ hnamed
    rw [hboard]
    exact SameButRefusals.inPlace hsame
  · obtain ⟨reports, reader, extraReader, rest, hboard⟩ :=
      answers_step curve event haccounted hhanding htype hnamed
    rw [hboard]
    exact inPlace_queue _ _ _

section Once

variable {curve : P256} {start : Watched} {events : List Event}

/-- A hello that is taken again stands twice in the record. -/
theorem noReplay_of_nodup (haccounted : start.Accounted)
    (hpairs : ((run (step curve) start events).log.opened.map
      fun o ↦ (o.use.key, o.counter)).Nodup) :
    Along (step curve) NoReplay start events := by
  rw [Along.iff_splits]
  rintro before event after rfl h hhanding ⟨htype, hello, sharedSecret, hproves, o,
    ho, huse, hcounter⟩
  have haccounted : (run (step curve) start before).Accounted :=
    run_invariant Accounted haccounted (fun _ event h ↦ accounted_step curve h event) before
  have htakes := (takesHello_iff haccounted hhanding).2 ⟨htype, hello, sharedSecret, hproves, rfl⟩
  have hopened := opened_of_takesHello curve hhanding htakes
  have hgrows := opened_grows curve (step curve (run (step curve) start before) event) after
  rw [run_append, run_cons] at hpairs
  rw [hopened] at hgrows
  have htwice := hpairs.sublist (hgrows.sublist.map _)
  rw [List.map_append, List.nodup_append] at htwice
  refine htwice.2.2 _ (List.mem_map_of_mem ho) _ (List.mem_singleton_self _) ?_
  rw [huse, hcounter]
  rfl

/-- Nothing a run takes stands twice in the record where no hello is taken again. -/
theorem opensOnce_of_noReplay (haccounted : start.Accounted) (hhellos : start.HellosOnce)
    (hfresh : (run (step curve) start events).log.nonces.Nodup)
    (hkeys : (run (step curve) start events).log.KeysApart)
    (htags : (run (step curve) start events).log.TagsApart)
    (halong : Along (step curve) NoReplay start events) : OpensOnce curve start events := by
  have hkept := run_invariant_along (fun w : Watched ↦ w.Accounted ∧ w.HellosOnce)
    ⟨haccounted, hhellos⟩
    (fun w event h hnoReplay ↦
      ⟨accounted_step curve h.1 event, hellosOnce_step curve h.1 h.2 hnoReplay⟩) halong
  obtain ⟨hfinal, honce⟩ := hkept
  have hpairs := pairs_nodup hfinal honce hfresh
  have hframes : ((run (step curve) start events).log.opened.map Opening.view).Nodup := by
    rw [List.Nodup, List.pairwise_map] at hpairs ⊢
    refine hpairs.imp_of_mem ?_
    intro a b ha hb hne hview
    apply hne
    rw [htags a ha b hb hview, (hfinal.proved a ha).2, (hfinal.proved b hb).2, hview]
  refine ⟨?_, hframes, hframes.sublist hfinal.begun, ?_⟩
  · rw [List.Nodup, List.pairwise_map] at hpairs ⊢
    refine hpairs.imp_of_mem ?_
    intro a b ha hb hne hkey
    obtain ⟨hkey, hcounter⟩ := Prod.mk.inj hkey
    apply hne
    rw [hkeys a ha b hb hkey, hcounter]
  · rintro before event after rfl h hhanding htype hold
    have hbefore : (run (step curve) start before).Accounted :=
      run_invariant Accounted haccounted (fun _ event h ↦ accounted_step curve h event) before
    rw [run_snoc]
    refine inPlace_of_unproved curve hbefore hhanding htype ?_
    intro hello sharedSecret hproves
    -- the frame would be noted again, and its tag belongs to one key
    obtain ⟨o, ho, hview⟩ := List.mem_map.1 hold
    have htakes := (takesHello_iff hbefore hhanding).2 ⟨htype, hello, sharedSecret, hproves, rfl⟩
    have hopened := opened_of_takesHello curve hhanding htakes
    have hgrows := opened_grows curve (step curve (run (step curve) start before) event) after
    rw [run_append, run_cons] at htags
    rw [hopened] at hgrows
    have huse := htags o (hgrows.subset (List.mem_append_left _ ho)) _
      (hgrows.subset (List.mem_append_right _ (List.mem_singleton_self _))) hview
    refine Along.iff_splits (step curve) |>.1 halong before event after rfl h hhanding
      ⟨htype, hello, sharedSecret, hproves, o, ho, huse, ?_⟩
    rw [(hbefore.proved o ho).2, hview]

end Once

end Watched

/-- No frame is taken twice but a hello. Over every run of a release board whose staged nonces are
distinct, where different inputs derive different keys and no frame carries the tag of two keys:
every pair of a key and a counter, every frame and every hello that starts a session occurs once in
the record and no hello taken before moves the session in place, if and only if no event hands on a
hello that proves itself with a counter already taken under its key. -/
theorem opensOnce_iff (curve : P256) (identity : Option (List UInt8))
    (registration : Option (List UInt8 × List UInt8)) (events : List Event)
    (hfresh : (run (Watched.step curve) (Watched.boot curve identity registration)
      events).log.nonces.Nodup)
    (hkeys : (run (Watched.step curve) (Watched.boot curve identity registration)
      events).log.KeysApart)
    (htags : (run (Watched.step curve) (Watched.boot curve identity registration)
      events).log.TagsApart) :
    Watched.OpensOnce curve (Watched.boot curve identity registration) events ↔
      Along (Watched.step curve) Watched.NoReplay (Watched.boot curve identity registration)
        events := by
  have haccounted := Watched.accounted_boot curve identity registration
  constructor
  · intro h
    exact Watched.noReplay_of_nodup haccounted h.pairs
  · intro h
    exact Watched.opensOnce_of_noReplay haccounted List.Pairwise.nil hfresh hkeys htags h

/-! ## A hello written twice -/

/-- A hello of the helper a board has registered. -/
def pairedHello : Hello where
  protoVersion := protoVersion
  os := 1
  buildType := 0
  channelCount := 2
  maxChunk := 1024
  correlation := 7
  helperKeyId := List.replicate keyIdSize 0x11
  helperNonce := List.replicate nonceSize 0x33

/-- The secret the helper and the board share. -/
def pairedSecret : List UInt8 := List.replicate 32 0x22

/-- The tag of the hello under the key of its nonce, with counter zero. -/
def pairedTag : List UInt8 :=
  [117, 61, 117, 244, 15, 188, 225, 229, 185, 173, 104, 249, 170, 205, 210, 161]

/-- The hello as the helper sends it. -/
def pairedFrame : FrameView :=
  { type := Msg.hello, flags := 0,
    payload := List.replicate counterSize 0 ++ pairedTag ++ pairedHello.body }

/-- A nonce is staged, and the hello comes in two reports that are read. -/
def presentHello (nonce : List UInt8) : List Event :=
  [.stageNonce nonce,
   .receiveReport 0 (reportFrameStart :: pairedFrame.bytes.take reportStreamSize),
   .receiveReport 0 (reportFrameContinues :: pairedFrame.bytes.drop reportStreamSize),
   .drainReport 0,
   .drainReport 0]

/-- A board that has the helper registered. -/
def pairedBoard : Watched :=
  Watched.boot smallCurve none (some (List.replicate keyIdSize 0x11, pairedSecret))

/-- The entry of the hello when `session` sessions were started before it. -/
def pairedOpening (session : Nat) : Opening where
  session := session
  use := .hello pairedSecret pairedHello.helperNonce
  counter := 0
  view := pairedFrame

/-- The session the hello starts with a nonce. -/
def pairedStart (nonce : List UInt8) : Start where
  view := pairedFrame
  sharedSecret := pairedSecret
  helperNonce := pairedHello.helperNonce
  boardNonce := nonce

/-- The nonces of the two sessions. -/
def firstNonce : List UInt8 := List.replicate nonceSize 0x44
def secondNonce : List UInt8 := List.replicate nonceSize 0x45

/-- The key of the hello's nonce. -/
def pairedKey : List UInt8 :=
  [175, 214, 31, 228, 223, 12, 104, 139, 111, 29, 168, 248, 83, 184, 132, 5,
   79, 61, 250, 122, 85, 29, 6, 190, 42, 135, 120, 161, 83, 14, 25, 248]

theorem pairedKey_eq : deriveHelloKey pairedSecret pairedHello.helperNonce = pairedKey := by
  decide +kernel

theorem pairedKey_tag : TagVerifies pairedKey pairedFrame := by
  decide +kernel

/-- The hello proves itself to the board. -/
theorem pairedFrame_proves :
    ProvesHello pairedBoard.board.pair pairedFrame pairedHello pairedSecret where
  named := ⟨pairedHello, by decide, rfl, by decide⟩
  read := by decide
  secret := rfl
  tag := by
    rw [pairedKey_eq]
    exact pairedKey_tag

/-- The reader takes the first report of the hello for the beginning of a frame, and the second for
its end. -/
theorem pairedFrame_read (r : FrameReader) :
    ∃ resyncs, r.report (reportFrameStart :: pairedFrame.bytes.take reportStreamSize) =
        (.error .again, { held := pairedFrame.bytes.take reportStreamSize, resyncs := resyncs }) ∧
      FrameReader.report { held := pairedFrame.bytes.take reportStreamSize, resyncs := resyncs }
          (reportFrameContinues :: pairedFrame.bytes.drop reportStreamSize) =
        (.ok pairedFrame, { held := pairedFrame.bytes, resyncs := resyncs }) := by
  have hparse : headerParse (pairedFrame.bytes.take reportStreamSize) = .ok pairedFrame.hdr := by
    decide
  have hshort : (pairedFrame.bytes.take reportStreamSize).length <
      headerSize + pairedFrame.hdr.len := by
    decide
  have hends : headerSize + pairedFrame.hdr.len - (pairedFrame.bytes.take reportStreamSize).length ≤
      (pairedFrame.bytes.drop reportStreamSize).length := by
    decide
  have hpadding : ((pairedFrame.bytes.drop reportStreamSize).drop (headerSize +
      pairedFrame.hdr.len - (pairedFrame.bytes.take reportStreamSize).length)).all (· = pad) := by
    decide
  obtain ⟨resyncs, hfirst⟩ := FrameReader.report_start (r := r) hparse
  rw [if_neg (by decide)] at hfirst
  have hinside : FrameReader.InFrame
      { held := pairedFrame.bytes.take reportStreamSize, resyncs := resyncs } pairedFrame.hdr :=
    ⟨hparse, hshort⟩
  have hrest : pairedFrame.bytes.drop reportStreamSize ≠ [] := by decide
  have hsecond := FrameReader.report_continues hinside hrest
  rw [if_pos hends, if_pos hpadding] at hsecond
  exact ⟨resyncs, hfirst, hsecond⟩

/-- The two reports of the hello, read by the channel. -/
theorem pairedFrame_handed {c : Lifecycle}
    (hreports : c.reports =
      [⟨reportFrameStart :: pairedFrame.bytes.take reportStreamSize, 0⟩,
       ⟨reportFrameContinues :: pairedFrame.bytes.drop reportStreamSize, 0⟩]) :
    ∃ reader, c.handing (.drainReport 0) = none ∧
      (c.step smallCurve (.drainReport 0)).handing (.drainReport 0) =
        some { now := 0, index := 0, view := pairedFrame,
               channel := { c with reports := [], reader := reader } } := by
  obtain ⟨resyncs, hfirst, hsecond⟩ := pairedFrame_read c.reader
  have htake : c.takeReport = some (.error .again, 0,
      { c with
        reports := [⟨reportFrameContinues :: pairedFrame.bytes.drop reportStreamSize, 0⟩]
        reader := { held := pairedFrame.bytes.take reportStreamSize, resyncs := resyncs } }) := by
    simp only [Lifecycle.takeReport, hreports, Lifecycle.inputReader, if_true, hfirst,
      Lifecycle.setReader]
  have hstep : c.step smallCurve (.drainReport 0) =
      { c with
        reports := [⟨reportFrameContinues :: pairedFrame.bytes.drop reportStreamSize, 0⟩]
        reader := { held := pairedFrame.bytes.take reportStreamSize, resyncs := resyncs } } := by
    show (c.drainReport smallCurve 0).2 = _
    rw [Lifecycle.drainReport, htake]
  refine ⟨{ held := pairedFrame.bytes, resyncs := resyncs }, ?_, ?_⟩
  · simp only [Lifecycle.handing, Lifecycle.handed, htake, Option.map_none]
  · rw [hstep]
    simp only [Lifecycle.handing, Lifecycle.handed, Lifecycle.takeReport, Lifecycle.inputReader,
      if_true, hsecond, Lifecycle.setReader, Lifecycle.handsOn, Option.map_some, decide_true,
      Bool.true_or]

/-- A board that has the helper registered, wants a nonce and has read every report. -/
structure AwaitsHello (c : Lifecycle) : Prop where
  release : c.session.buildType = .release
  unstaged : c.session.nonceStaged = false
  pair : c.pair = pairedBoard.board.pair
  reports : c.reports = []

/-- The session the hello starts with this nonce, before any frame is taken in it. -/
structure Greeted (nonce : List UInt8) (c : Lifecycle) : Prop where
  present : c.session.present = true
  kH2b : c.session.kH2b = (pairedStart nonce).use.key
  rx : c.session.rx = AuthCounter.init

/-- Answering a hello leaves the registration as it is, and no report waiting where none did. -/
theorem onFrame_hello_rest {c : Lifecycle} {view : FrameView} (htype : view.type = Msg.hello)
    (hreports : c.reports = []) (now : UInt32) :
    (c.onFrame smallCurve 0 view now).pair = c.pair ∧
      (c.onFrame smallCurve 0 view now).reports = [] := by
  have hhere : Lifecycle.authenticatesHere view.type = false := by
    rw [htype]
    exact not_authenticatesHere_hello
  have hpair : (c.session.onFrame smallCurve c.pair view now replyMax).2.2 = c.pair := by
    rw [Session.onFrame, if_pos htype]
  rw [Lifecycle.onFrame, if_neg (by simp [hhere]), Lifecycle.channelOnFrame]
  generalize c.session.onFrame smallCurve c.pair view now replyMax = answer at hpair
  obtain ⟨rc, session, pair⟩ := answer
  cases hpair
  cases rc with
  | error fault => exact ⟨rfl, hreports⟩
  | ok reply =>
      cases reply with
      | nil => exact ⟨rfl, hreports⟩
      | cons type rest =>
          by_cases hack : type = Msg.helloAck
          · simp only [if_pos hack]
            exact ⟨rfl, rfl⟩
          · simp only [if_neg hack]
            exact ⟨rfl, hreports⟩

/-- The hello starts a session with the nonce that is staged, and the board awaits the next. -/
theorem pairedFrame_starts {c : Lifecycle} (hrelease : c.session.buildType = .release)
    (hpair : c.pair = pairedBoard.board.pair) (hreports : c.reports = [])
    (hstaged : c.session.nonceStaged = true) (hlength : c.session.stagedNonce.length = nonceSize) :
    fate c pairedFrame 0 = .starts (pairedStart c.session.stagedNonce) ∧
      AwaitsHello (c.onFrame smallCurve 0 pairedFrame 0) ∧
      Greeted c.session.stagedNonce (c.onFrame smallCurve 0 pairedFrame 0) := by
  have htype : pairedFrame.type = Msg.hello := rfl
  have hverdict : c.session.helloVerdict c.pair pairedFrame = .proved pairedHello pairedSecret := by
    rw [helloVerdict_proved_iff hrelease, hpair]
    exact pairedFrame_proves
  have hfate : fate c pairedFrame 0 = .starts (pairedStart c.session.stagedNonce) := by
    rw [fate, if_pos htype, hverdict, helloFate, if_pos hstaged]
    rfl
  have hcore : (c.onFrame smallCurve 0 pairedFrame 0).session.core =
      (fate c pairedFrame 0).core c.session.core pairedFrame :=
    core_onFrame smallCurve 0 hrelease hlength.le
  rw [hfate] at hcore
  obtain ⟨hkept, hread⟩ := onFrame_hello_rest htype hreports 0
  exact ⟨hfate, ⟨(congrArg Core.buildType hcore).trans hrelease, congrArg Core.nonceStaged hcore,
    hkept.trans hpair, hread⟩, congrArg Core.present hcore, congrArg Core.kH2b hcore,
    congrArg Core.rx hcore⟩

/-- A report joins the backlog, and the record stays. -/
theorem receiveReport_waits {w : Watched} {report : List UInt8} (hreport : report ≠ [])
    (hsize : report.length ≤ reportSize) (hroom : w.board.reports.length < reportBacklog) :
    (w.step smallCurve (.receiveReport 0 report)).board =
        { w.board with
          reportsIn := saturate w.board.reportsIn
          reports := w.board.reports ++ [⟨report, 0⟩] } ∧
      (w.step smallCurve (.receiveReport 0 report)).log = w.log := by
  have hlength : ¬ (report.length = 0 ∨ sessionChannelCount.toNat ≤ 0) := by
    simp [List.length_eq_zero_iff, hreport, sessionChannelCount]
  constructor
  · show w.board.receiveChannelReport 0 report = _
    rw [Lifecycle.receiveChannelReport, if_neg hlength]
    simp only
    rw [if_neg (by omega), List.take_of_length_le hsize]
  · simp only [Watched.step, Watched.note, Lifecycle.handing, Lifecycle.staging, Option.toList_none,
      List.append_nil]

/-- The hello written to such a board is taken and starts a session. -/
theorem presentHello_noted {w : Watched} (h : AwaitsHello w.board) {nonce : List UInt8}
    (hlength : nonce.length = nonceSize) :
    (run (Watched.step smallCurve) w (presentHello nonce)).log =
        { received := w.log.received ++ [pairedFrame]
          opened := w.log.opened ++ [pairedOpening w.log.started.length]
          relayed := w.log.relayed
          started := w.log.started ++ [pairedStart nonce]
          nonces := w.log.nonces ++ [nonce] } ∧
      AwaitsHello (run (Watched.step smallCurve) w (presentHello nonce)).board ∧
      Greeted nonce (run (Watched.step smallCurve) w (presentHello nonce)).board := by
  have hnonce : (w.board.session.stageNonce nonce).stagedNonce = nonce :=
    List.take_of_length_le hlength.le
  have hstage : w.step smallCurve (.stageNonce nonce) =
      { board := { w.board with session := w.board.session.stageNonce nonce }
        log := { w.log with nonces := w.log.nonces ++ [nonce] } } := by
    simp only [Watched.step, Watched.note, Lifecycle.step, Lifecycle.stageNonce, Lifecycle.handing,
      Lifecycle.staging, h.unstaged, Option.toList_some,
        List.take_of_length_le hlength.le, if_false,
      Bool.false_eq_true]
  rw [presentHello, run_cons, run_cons, run_cons, run_cons, run_cons, run_nil, hstage]
  generalize hstaged : (Watched.mk _ _) = staged
  -- two reports carry the hello, and the second drain hands it on
  have hempty : staged.board.reports = [] := by
    rw [← hstaged]
    exact h.reports
  have hhead : reportFrameStart :: pairedFrame.bytes.take reportStreamSize ≠ [] := by decide
  obtain ⟨hfirst, hfirstLog⟩ := receiveReport_waits (w := staged) hhead (by decide)
    (by rw [hempty]; decide)
  generalize staged.step smallCurve _ = first at hfirst hfirstLog ⊢
  have hone : first.board.reports.length = 1 := by
    rw [hfirst, hempty]
    rfl
  have htail : reportFrameContinues :: pairedFrame.bytes.drop reportStreamSize ≠ [] := by decide
  obtain ⟨hsecond, hsecondLog⟩ := receiveReport_waits (w := first) htail (by decide)
    (by rw [hone]; decide)
  generalize first.step smallCurve _ = second at hsecond hsecondLog ⊢
  subst hstaged
  obtain ⟨reader, hnone, hhanding⟩ := pairedFrame_handed (c := second.board)
    (by rw [hsecond, hfirst]; exact congrArg (· ++ _ ++ _) h.reports)
  have hkept : (second.step smallCurve (.drainReport 0)).log = second.log := by
    simp only [Watched.step, Watched.note, hnone, Lifecycle.staging, Option.toList_none,
      List.append_nil]
  obtain ⟨hboard, hnoted⟩ := Watched.step_handed smallCurve
    (w := second.step smallCurve (.drainReport 0)) _ hhanding
  obtain ⟨hfate, hawaits, hgreeted⟩ := pairedFrame_starts
    (c := { second.board with reports := [], reader := reader })
    (by rw [hsecond, hfirst]; exact h.release) (by rw [hsecond, hfirst]; exact h.pair) rfl
    (by rw [hsecond, hfirst]; rfl) (by rw [hsecond, hfirst]; exact hnonce.symm ▸ hlength)
  have hspent : second.board.session.stagedNonce = nonce := by
    rw [hsecond, hfirst]
    exact hnonce
  refine ⟨?_, by rw [hboard]; exact hawaits, by rw [hboard]; exact hspent ▸ hgreeted⟩
  rw [hnoted, hkept, hsecondLog, hfirstLog, Log.frame, hfate]
  simp only [hspent, Log.opens, Log.hears, Log.opening]
  rfl

/-! ### A heartbeat behind the hello -/

/-- The first heartbeat of the session. -/
def pairedPulse : FrameView := builtView Msg.heartbeat 0 (pairedStart firstNonce).use.key 0 []

/-- It comes in one report that is read. -/
def presentPulse : List Event :=
  [.receiveReport 0 (reportFrameStart :: pairedPulse.bytes), .drainReport 0]

/-- Its entry. -/
def pulseOpening : Opening where
  session := 1
  use := (pairedStart firstNonce).use
  counter := 0
  view := pairedPulse

theorem pairedPulse_payload_length : pairedPulse.payload.length = authPrefixSize :=
  builtView_payload_length ..

theorem pairedPulse_bytes_length :
    pairedPulse.bytes.length = headerSize + pairedPulse.payload.length := by
  rw [FrameView.bytes, List.length_append, headerBytes_length]

/-- The report of the heartbeat, read by the channel. -/
theorem pairedPulse_handed {c : Lifecycle}
    (hreports : c.reports = [⟨reportFrameStart :: pairedPulse.bytes, 0⟩]) :
    ∃ reader, c.handing (.drainReport 0) =
      some { now := 0, index := 0, view := pairedPulse,
             channel := { c with reports := [], reader := reader } } := by
  have hparse : headerParse pairedPulse.bytes = .ok pairedPulse.hdr :=
    header_parse_bytes _ (by decide) (by rw [pairedPulse_payload_length]; decide)
  obtain ⟨resyncs, hreport⟩ := FrameReader.report_start (r := c.reader) hparse
  have hsize : headerSize + pairedPulse.hdr.len = pairedPulse.bytes.length :=
    pairedPulse_bytes_length.symm
  have hpayload : pairedPulse.bytes.drop headerSize = pairedPulse.payload :=
    List.drop_left' (headerBytes_length ..)
  rw [hsize, if_pos le_rfl, List.drop_length, List.all_nil, if_pos rfl, List.take_length,
    hpayload] at hreport
  refine ⟨{ held := pairedPulse.bytes, resyncs := resyncs }, ?_⟩
  simp only [Lifecycle.handing, Lifecycle.handed, Lifecycle.takeReport, hreports,
    Lifecycle.inputReader, if_true, hreport, Lifecycle.setReader, Lifecycle.handsOn,
    Option.map_some, decide_true, Bool.true_or]
  rfl

/-- It is taken in the session it was tagged for. -/
theorem pairedPulse_taken {c : Lifecycle} (hrelease : c.session.buildType = .release)
    (h : Greeted firstNonce c) : fate c pairedPulse 0 = .taken := by
  have htag : TagVerifies c.session.kH2b pairedPulse := by
    rw [h.kH2b]
    exact builtView_tag_verifies _ _ _ _ _ (by decide)
  have hcounter : c.session.rx.ok (counterOf pairedPulse) = true := by
    rw [h.rx, pairedPulse, counterOf_builtView _ _ _ _ _ (by decide)]
    rfl
  have hopens : Opens c.session.kH2b c.session.rx pairedPulse :=
    ⟨bodyOf pairedPulse, by rw [authOpen_eq, if_pos htag, if_pos hcounter]⟩
  rw [fate, if_neg (show pairedPulse.type ≠ Msg.hello by decide), if_pos (.inr rfl)]
  rcases authenticate_cases hrelease pairedPulse 0 with ⟨-, -, hbody, -⟩ | ⟨hnot, -⟩
  · rw [hbody]
  · exact absurd ⟨h.present, hopens⟩ hnot

/-- The heartbeat written to a board in that session is noted as taken in it. -/
theorem presentPulse_noted {w : Watched} (h : AwaitsHello w.board)
    (hgreeted : Greeted firstNonce w.board) (hstarted : w.log.started = [pairedStart firstNonce]) :
    (run (Watched.step smallCurve) w presentPulse).log =
      { w.log with
        received := w.log.received ++ [pairedPulse]
        opened := w.log.opened ++ [pulseOpening] } := by
  have hsize : (reportFrameStart :: pairedPulse.bytes).length ≤ reportSize := by
    rw [List.length_cons, pairedPulse_bytes_length, pairedPulse_payload_length]
    decide
  rw [presentPulse, run_cons, run_cons, run_nil]
  obtain ⟨hboard, hlog⟩ := receiveReport_waits (w := w) (List.cons_ne_nil _ _) hsize
    (by rw [h.reports]; decide)
  generalize w.step smallCurve _ = waiting at hboard hlog ⊢
  obtain ⟨reader, hhanding⟩ := pairedPulse_handed (c := waiting.board)
    (by rw [hboard]; exact congrArg (· ++ _) h.reports)
  obtain ⟨-, hnoted⟩ := Watched.step_handed smallCurve (w := waiting) _ hhanding
  have hfate := pairedPulse_taken (c := { waiting.board with reports := [], reader := reader })
    (by rw [hboard]; exact h.release)
    ⟨by rw [hboard]; exact hgreeted.present, by rw [hboard]; exact hgreeted.kH2b,
      by rw [hboard]; exact hgreeted.rx⟩
  have hcounter : counterOf pairedPulse = 0 := counterOf_builtView _ _ _ _ _ (by decide)
  rw [hnoted, hlog, Log.frame, hfate]
  simp only [Log.opens, Log.hears, Log.opening, Log.current, hstarted, hcounter, relays,
    show Msg.isBulk pairedPulse.type = false from rfl, Bool.false_and, Bool.false_eq_true, if_false,
    List.append_nil]
  rfl

/-- The record of the hello and the heartbeat, each written once. -/
theorem presentPulse_log :
    (run (Watched.step smallCurve) pairedBoard (presentHello firstNonce ++ presentPulse)).log =
      { received := [pairedFrame, pairedPulse], opened := [pairedOpening 0, pulseOpening],
        relayed := [], started := [pairedStart firstNonce], nonces := [firstNonce] } := by
  have hready : AwaitsHello pairedBoard.board := ⟨rfl, rfl, rfl, rfl⟩
  obtain ⟨hlog, hawaits, hgreeted⟩ := @presentHello_noted _ hready firstNonce rfl
  have hstarted : (run (Watched.step smallCurve) pairedBoard
      (presentHello firstNonce)).log.started = [pairedStart firstNonce] := by
    rw [hlog]
    rfl
  rw [run_append, presentPulse_noted hawaits hgreeted hstarted, hlog]
  rfl

/-- The key of the hello is not the one of its session. -/
theorem pulse_key_ne : (pairedOpening 0).use.key ≠ pulseOpening.use.key := by
  rw [show (pairedOpening 0).use.key = pairedKey from pairedKey_eq]
  decide +kernel

/-- The hello and the heartbeat are each taken once, and the condition of `opensOnce_iff` holds
along the run. -/
theorem opensOnce_presentPulse :
    Watched.OpensOnce smallCurve pairedBoard (presentHello firstNonce ++ presentPulse) ∧
      (run (Watched.step smallCurve) pairedBoard
        (presentHello firstNonce ++ presentPulse)).log.opened =
        [pairedOpening 0, pulseOpening] := by
  have hlog := presentPulse_log
  have hopened : (run (Watched.step smallCurve) pairedBoard
      (presentHello firstNonce ++ presentPulse)).log.opened = [pairedOpening 0, pulseOpening] := by
    rw [hlog]
  have haccounted : pairedBoard.Accounted := Watched.accounted_boot _ _ _
  have halong : Along (Watched.step smallCurve) Watched.NoReplay pairedBoard
      (presentHello firstNonce ++ presentPulse) := by
    apply Watched.noReplay_of_nodup haccounted
    rw [hopened]
    refine List.nodup_cons.2 ⟨fun hmem ↦ ?_, List.nodup_singleton _⟩
    exact pulse_key_ne (congrArg Prod.fst (List.mem_singleton.1 hmem))
  refine ⟨(opensOnce_iff smallCurve none _ _ ?_ ?_ ?_).2 halong, hopened⟩
  · show (run (Watched.step smallCurve) pairedBoard
      (presentHello firstNonce ++ presentPulse)).log.nonces.Nodup
    rw [hlog]
    exact List.nodup_singleton _
  · intro first hfirst second hsecond hsame
    rcases List.mem_pair.1 (hopened ▸ hfirst) with rfl | rfl <;>
      rcases List.mem_pair.1 (hopened ▸ hsecond) with rfl | rfl
    · rfl
    · exact absurd hsame pulse_key_ne
    · exact absurd hsame.symm pulse_key_ne
    · rfl
  · have htypes : (pairedOpening 0).view ≠ pulseOpening.view := fun hsame ↦
      absurd (congrArg FrameView.type hsame) (by decide)
    intro first hfirst second hsecond hsame
    rcases List.mem_pair.1 (hopened ▸ hfirst) with rfl | rfl <;>
      rcases List.mem_pair.1 (hopened ▸ hsecond) with rfl | rfl
    · rfl
    · exact absurd hsame htypes
    · exact absurd hsame.symm htypes
    · rfl

/-! ### The hello once more -/

/-- The record of the hello written twice. -/
theorem presentHello_twice_log :
    (run (Watched.step smallCurve) pairedBoard
        (presentHello firstNonce ++ presentHello secondNonce)).log =
      { received := [pairedFrame, pairedFrame], opened := [pairedOpening 0, pairedOpening 1],
        relayed := [], started := [pairedStart firstNonce, pairedStart secondNonce],
        nonces := [firstNonce, secondNonce] } := by
  have hlength : firstNonce.length = nonceSize := rfl
  have hready : AwaitsHello pairedBoard.board := ⟨rfl, rfl, rfl, rfl⟩
  obtain ⟨hlog, hawaits, -⟩ := presentHello_noted hready hlength
  rw [run_append, (presentHello_noted hawaits rfl).1, hlog]
  rfl

/-- The same hello written a second time is taken again: the nonces are distinct and no two keys
are confused, yet a key and a counter are taken twice and one frame starts two sessions. -/
theorem hello_opened_twice :
    (run (Watched.step smallCurve) pairedBoard
        (presentHello firstNonce ++ presentHello secondNonce)).log.nonces.Nodup ∧
      (run (Watched.step smallCurve) pairedBoard
        (presentHello firstNonce ++ presentHello secondNonce)).log.KeysApart ∧
      (run (Watched.step smallCurve) pairedBoard
        (presentHello firstNonce ++ presentHello secondNonce)).log.TagsApart ∧
      ¬ ((run (Watched.step smallCurve) pairedBoard
        (presentHello firstNonce ++ presentHello secondNonce)).log.opened.map
          fun o ↦ (o.use.key, o.counter)).Nodup ∧
      ¬ ((run (Watched.step smallCurve) pairedBoard
        (presentHello firstNonce ++ presentHello secondNonce)).log.started.map Start.view).Nodup ∧
      ¬ Watched.OpensOnce smallCurve pairedBoard
        (presentHello firstNonce ++ presentHello secondNonce) := by
  have hlog := presentHello_twice_log
  have huse : ∀ o ∈ (run (Watched.step smallCurve) pairedBoard
      (presentHello firstNonce ++ presentHello secondNonce)).log.opened,
      o.use = .hello pairedSecret pairedHello.helperNonce := by
    rw [hlog]
    intro o ho
    rcases List.mem_pair.1 ho with rfl | rfl <;> rfl
  have hpairs : ¬ ((run (Watched.step smallCurve) pairedBoard
      (presentHello firstNonce ++ presentHello secondNonce)).log.opened.map
        fun o ↦ (o.use.key, o.counter)).Nodup := by
    rw [hlog]
    intro h
    exact (List.nodup_cons.1 h).1 (List.mem_singleton_self _)
  refine ⟨?_, Log.keysApart_of_use huse, Log.tagsApart_of_use huse, hpairs, ?_,
    fun h ↦ hpairs h.pairs⟩
  · rw [hlog]
    decide
  · rw [hlog]
    intro h
    exact (List.nodup_cons.1 h).1 (List.mem_singleton_self _)

end DeskhopPlus.Board
