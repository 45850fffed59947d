import DeskhopPlus.Board.Waiting
import DeskhopPlus.Helper.Counters

/-!
# The keys of a session and their counters

`keys_kept_clean` puts together what the two ends keep of their keys: what waits on a board in a
session carries the tag of that session, the ack of a hello leaves first, and neither end tags two
frames under one key and one counter, as long as no key is used more often than the counter has
values. The last part ends where the counter wraps, and the second where the link is lost.
-/

namespace DeskhopPlus.Board

open Wire Outq Auth Crypto Runs Sealing Session

/-- No key is used more often than a counter of 64 bits has values. -/
def WithinCounter (posts : List Posting) : Prop :=
  ∀ key, (countersOf (pairsOf posts) key).length ≤ 2 ^ 64

namespace Builder

/-- What a board keeps of the keys of its sessions. -/
structure Clean (b : Builder) : Prop where
  waiting : b.board.session.present = true →
    ∀ id, ∀ frame ∈ (b.board.out.band id).frames ++ (b.board.extraOut.band id).frames,
      ∃ post ∈ b.built, post.frame = frame ∧ post.Honest ∧
        ∀ pair ∈ post.tagged, pair.1 = b.board.session.kB2h
  ack : ∀ ack ∈ b.ack, ∃ entry body, b.started.getLast? = some entry ∧
    ack = (builtView Msg.helloAck 0 entry.1 0 body).bytes
  first : ∀ ack ∈ b.ack, b.drained <+: ack ∨ ack <+: b.drained
  honest : ∀ post ∈ b.built, post.Honest
  once : b.Fresh → WithinCounter b.built → (pairsOf b.built).Nodup

theorem Waits.clean {b : Builder} (hwaits : Waits b) (haccounted : Accounted b) : Clean b where
  waiting hpresent id frame hframe := by
    obtain ⟨post, hpost, hsame, hunder⟩ := hwaits.under hpresent id frame hframe
    exact ⟨post, hpost, hsame, haccounted.honest post hpost, hunder⟩
  ack := hwaits.acked
  first ack hack := (hwaits.leads ack hack).agrees
  honest := haccounted.honest
  once hfresh hwithin := (haccounted.counted hfresh).nodup hwithin

end Builder

/-! ## A counter that wraps -/

namespace Lifecycle

/-- In a session a short frame is built under the next counter, whether the queue takes it or
not. -/
theorem emitPlacement_present {c : Lifecycle} (hpresent : c.session.present = true) (type : UInt8)
    {body : List UInt8} (hshort : body.length ≤ placeBodySize) (now : UInt32) :
    ∃ queued, c.placementPostings type body now = [c.session.sending.post type 0 body queued] ∧
      (c.emitPlacement type body now).2.session.sending =
        c.session.sending.spent.charged queued now := by
  have hlong : ¬ placeBodySize < body.length := Nat.not_lt.2 hshort
  have hfits : encodeTagged type 0 c.session.kB2h c.session.txCounter body
      (headerSize + authPrefixSize + placeBodySize) =
      .ok (builtView type 0 c.session.kB2h c.session.txCounter.toNat body).bytes := by
    refine frame_fits ?_ (by omega)
    exact (Nat.add_le_add_left hshort _).trans (by decide)
  have hemit : c.session.emitRelayed { type := type, flags := 0, payload := body }
      (headerSize + authPrefixSize + placeBodySize) =
      (.ok (builtView type 0 c.session.kB2h c.session.txCounter.toNat body).bytes,
        { c.session with txCounter := c.session.txCounter + 1 }) := by
    rw [emitRelayed, if_neg (by simp [hpresent])]
    simp only
    rw [hfits]
  unfold placementPostings emitPlacement
  rw [if_neg hlong, if_neg hlong, hemit]
  refine ⟨_, rfl, ?_⟩
  simp only
  rw [sending_queue]
  rfl

end Lifecycle

namespace Builder

variable {curve : P256} {b : Builder}

/-- The query of a cursor, taken and asked. -/
def asking : List Event := [.queryCursor .home 7, .pumpQuery 1 true]

/-- In a session a query is one frame more under the next counter. -/
theorem asking_spends (hpresent : b.board.session.present = true) :
    let b' := run (step curve) b asking
    b'.board.session.present = true ∧ b'.board.session.kB2h = b.board.session.kB2h ∧
      b'.board.session.txCounter = b.board.session.txCounter + 1 ∧
      b'.nonces = b.nonces ∧ b'.started = b.started ∧
      ∃ post, b'.built = b.built ++ [post] ∧ typed Msg.posQuery post.frame = true ∧
        post.tagged = some (b.board.session.kB2h, b.board.session.txCounter) := by
  intro b'
  let asked := b.board.queryCursor .home 7
  have hsession : asked.session = b.board.session := by
    show (b.board.queryCursor .home 7).session = _
    unfold Lifecycle.queryCursor
    split
    · rfl
    · split <;> rfl
  have horigin : asked.cursorQueryOrigin ≠ .none := by
    show (b.board.queryCursor .home 7).cursorQueryOrigin ≠ .none
    unfold Lifecycle.queryCursor
    rw [if_neg (by simp [hpresent])]
    split
    · exact nofun
    · assumption
  have hthere : asked.session.present = true := by rwa [hsession]
  have habsent : ¬ asked.session.present = false := by simp [hthere]
  -- the query is tagged whether or not the queue takes it, and that spends the counter
  obtain ⟨queued, hposts, hsending⟩ := Lifecycle.emitPlacement_present hthere Msg.posQuery
    (show [asked.cursorQueryId].length ≤ placeBodySize from (by decide : 1 ≤ placeBodySize)) 1
  have hpumped : (asked.pumpQuery 1 true).session.sending =
      b.board.session.sending.spent.charged queued 1 := by
    rw [← hsession, ← hsending]
    unfold Lifecycle.pumpQuery Lifecycle.askCursor
    rw [if_neg horigin, if_neg habsent]
  have hbuilt : asked.queryPostings 1 =
      [b.board.session.sending.post Msg.posQuery 0 [asked.cursorQueryId] queued] := by
    rw [← hsession, ← hposts]
    unfold Lifecycle.queryPostings
    rw [if_neg horigin, if_neg habsent]
  refine ⟨?_, ?_, ?_, ?_, ?_, b.board.session.sending.post Msg.posQuery 0 [asked.cursorQueryId]
    queued, ?_, typed_post .., rfl⟩
  · exact (congrArg Sending.present hpumped).trans hpresent
  · exact congrArg Sending.kB2h hpumped
  · exact congrArg Sending.txCounter hpumped
  · show (b.nonces ++ []) ++ [] = _
    rw [List.append_nil, List.append_nil]
  · show (b.started ++ []) ++ [] = _
    rw [List.append_nil, List.append_nil]
  · show (b.built ++ []) ++ asked.queryPostings 1 = _
    rw [List.append_nil, hbuilt]

/-- Any number of queries spends that many counters. -/
theorem asking_run (hpresent : b.board.session.present = true) (count : Nat) :
    let b' := run (step curve) b (List.replicate count asking).flatten
    b'.board.session.present = true ∧ b'.board.session.kB2h = b.board.session.kB2h ∧
      b'.board.session.txCounter = b.board.session.txCounter + UInt64.ofNat count ∧
      b'.nonces = b.nonces ∧ b'.started = b.started ∧ b.built <+: b'.built := by
  induction count with
  | zero => exact ⟨hpresent, rfl, (UInt64.add_zero _).symm, rfl, rfl, List.prefix_refl _⟩
  | succ count ih =>
      rw [List.replicate_succ', List.flatten_append, run_append]
      obtain ⟨hthere, hkey, hcounter, hnonces, hstarted, hbuilt⟩ := ih
      generalize run (step curve) b (List.replicate count asking).flatten = before at *
      have hlast : [asking].flatten = asking := rfl
      obtain ⟨hthere', hkey', hcounter', hnonces', hstarted', post, hbuilt', -, -⟩ :=
        @asking_spends curve _ hthere
      rw [hlast]
      refine ⟨hthere', hkey'.trans hkey, ?_, hnonces'.trans hnonces, hstarted'.trans hstarted, ?_⟩
      · rw [hcounter', hcounter, UInt64.ofNat_add, ← UInt64.add_assoc]
        rfl
      · rw [hbuilt']
        exact hbuilt.trans (List.prefix_append _ _)

/-- A board whose only session began with an ack uses its counter again once it has wrapped. -/
theorem asking_repeats (hpresent : b.board.session.present = true) (hnonces : b.nonces.length = 1)
    (hstarted : b.started.length = 1) {ack : Posting} (hack : ack ∈ b.built)
    (htyped : typed Msg.helloAck ack.frame = true)
    (htagged : ack.tagged = some (b.board.session.kB2h, 0)) {count : Nat}
    (hwraps : b.board.session.txCounter + UInt64.ofNat count = 0) :
    let b' := run (step curve) b ((List.replicate count asking).flatten ++ asking)
    b'.Fresh ∧ ∃ first ∈ b'.built, ∃ second ∈ b'.built, first.frame ≠ second.frame ∧
      first.tagged.isSome = true ∧ first.tagged = second.tagged := by
  intro b'
  obtain ⟨hthere, hkey, hcounter, hsameNonces, hsameStarted, hbefore⟩ :=
    @asking_run curve _ hpresent count
  obtain ⟨-, -, -, hnonces', hstarted', query, hbuilt, hquery, htagged'⟩ :=
    @asking_spends curve _ hthere
  rw [← run_append] at hnonces' hstarted' hbuilt
  have hone : ∀ first ∈ b'.started, ∀ second ∈ b'.started, first = second := by
    obtain ⟨entry, hentry⟩ := List.length_eq_one_iff.1 hstarted
    rw [show b'.started = [entry] from (hstarted'.trans hsameStarted).trans hentry]
    intro first hfirst second hsecond
    rw [List.mem_singleton.1 hfirst, List.mem_singleton.1 hsecond]
  refine ⟨⟨?_, fun first hfirst second hsecond _ ↦ congrArg Prod.snd (hone first hfirst second
    hsecond)⟩, ack, ?_, query, ?_, ?_, ?_, ?_⟩
  · obtain ⟨nonce, hnonce⟩ := List.length_eq_one_iff.1 hnonces
    rw [show b'.nonces = [nonce] from (hnonces'.trans hsameNonces).trans hnonce]
    exact List.nodup_singleton nonce
  · rw [show b'.built = _ from hbuilt]
    exact List.mem_append_left _ (hbefore.subset hack)
  · rw [show b'.built = _ from hbuilt]
    exact List.mem_append_right _ (List.mem_singleton_self _)
  · -- the one is an ack, the other a query
    intro hsame
    have hack' := of_decide_eq_true htyped
    rw [hsame, of_decide_eq_true hquery] at hack'
    exact absurd hack' (by decide)
  · rw [htagged]
    rfl
  · rw [htagged, htagged', hkey, hcounter, hwraps]

/-! ## What the two ends keep -/

/-- A development board that has answered the hello of a greeting. -/
def acked : Builder :=
  run (step smallCurve) (boot smallCurve .development none none) (Told.greeting.take 5)

/-- The ack of the greeting is the first frame under its key. -/
theorem acked_built : ∃ post ∈ acked.built, typed Msg.helloAck post.frame = true ∧
    post.tagged = some (acked.board.session.kB2h, 0) := by
  obtain ⟨haccounted, -⟩ :=
    waits_run smallCurve .development none none (Told.greeting.take 4)
  have hrenews : (run (step smallCurve) (boot smallCurve .development none none)
      (Told.greeting.take 4)).board.renews smallCurve (.drainReport 0) = true := by
    decide
  obtain ⟨body, hposts, -⟩ := ack_of_renews haccounted hrenews
  refine ⟨_, List.mem_append_right _ (hposts ▸ List.mem_singleton_self _), ?_, rfl⟩
  exact typed_builtView ..

/-- What no run of queries changes. -/
theorem acked_facts : acked.board.session.present = true ∧ acked.board.session.txCounter = 1 ∧
    acked.nonces.length = 1 ∧ acked.started.length = 1 := by
  decide

/-- In every run of a board and in every run of a helper. While there is a session, every tagged
frame that waits is tagged under its key. Until the link is lost or a later hello is answered, what
leaves on the first channel is first the ack of the last hello, which is the first frame under the
key of its session. And neither end uses a key and a counter for two frames, if its nonces are fresh
and no key is used more often than the counter has values. -/
theorem keys_kept_clean (curve : P256) (buildType : BuildType) (identity : Option (List UInt8))
    (registration : Option (List UInt8 × List UInt8)) (events : List Event)
    (helperIdentity : Helper.Identity) (boardPublicKey : Option (List UInt8))
    (calls : List Helper.Call) :
    let b := run (step curve) (boot curve buildType identity registration) events
    let s := run (Helper.Speaker.step helperIdentity) (Helper.Speaker.start boardPublicKey) calls
    b.Clean ∧ (∀ post ∈ s.built, post.Honest) ∧
      (Helper.FreshKeys s.derived → WithinCounter s.built → (pairsOf s.built).Nodup) := by
  intro b s
  obtain ⟨haccounted, hwaits⟩ := waits_run curve buildType identity registration events
  have hspoken := Helper.Speaker.accounted_run helperIdentity boardPublicKey calls
  exact ⟨hwaits.clean haccounted, hspoken.honest,
    fun hfresh hwithin ↦ (hspoken.counted hfresh).nodup hwithin⟩

/-- A helper of some host, whose key exchanges all come to one secret. -/
def someHelper : Helper.Identity where
  publicKey := List.replicate publicSize 0x66
  keyId := List.replicate keyIdSize 0x55
  os := 1
  buildType := 0
  ecdh _ := some (List.replicate sharedSize 0x22)
  publicKey_length := List.length_replicate
  keyId_length := List.length_replicate

theorem openingNonce_length : (List.replicate nonceSize (0x33 : UInt8)).length = nonceSize := rfl

/-- It opens its channels to a board it knows. -/
def opening : List Helper.Call :=
  [.input 0 (.channelsAcquired 2 ⟨List.replicate nonceSize 0x33, 7, 8, openingNonce_length⟩)]

/-- The board of the greeting is in a session and its ack waits, and the helper has said hello. -/
theorem keys_kept_clean_greeting :
    let s := run (Helper.Speaker.step someHelper) (Helper.Speaker.start (some [])) opening
    acked.board.session.present = true ∧ acked.ack.isSome = true ∧
      ((acked.board.out.band .priority).frames ++
        (acked.board.extraOut.band .priority).frames).length
        = 1 ∧
      s.built.length = 1 ∧ s.derived.length = 1 ∧ acked.Clean ∧
      (∀ post ∈ s.built, post.Honest) ∧
      (Helper.FreshKeys s.derived → WithinCounter s.built → (pairsOf s.built).Nodup) :=
  ⟨acked_facts.1, by decide, by decide, by decide, by decide,
    keys_kept_clean smallCurve .development none none (Told.greeting.take 5) someHelper (some [])
      opening⟩

/-- The host goes away, and what comes back asks in a way the board refuses. -/
def comeback : List Event :=
  [.linkLost, .receiveReport 0 (reportBytes true (headerBytes Msg.hello 0 0)), .drainReport 2,
   .pumpOut 0 true]

/-- A board tags two different frames under one key and one counter, though its nonces are fresh,
when a session asks for the cursor more often than the counter has values. And a board that has
built an ack may put out a refusal first: the ack was dropped when the link was lost. -/
theorem counter_wraps_and_ack_lost :
    (∃ events, let b := run (step smallCurve) (boot smallCurve .development none none) events
      b.Fresh ∧ ∃ first ∈ b.built, ∃ second ∈ b.built, first.frame ≠ second.frame ∧
        first.tagged.isSome = true ∧ first.tagged = second.tagged) ∧
    (acked.ack.isSome = true ∧ acked.drained = [] ∧
      (run (step smallCurve) acked comeback).drained.head? = some Msg.helloRefused) := by
  refine ⟨⟨Told.greeting.take 5 ++ ((List.replicate (2 ^ 64 - 1) asking).flatten ++ asking), ?_⟩,
    by decide⟩
  obtain ⟨hpresent, hcounter, hnonces, hstarted⟩ := acked_facts
  obtain ⟨ack, hack, htyped, htagged⟩ := acked_built
  rw [run_append]
  refine asking_repeats hpresent hnonces hstarted hack htyped htagged ?_
  rw [hcounter]
  decide

end Builder

end DeskhopPlus.Board
