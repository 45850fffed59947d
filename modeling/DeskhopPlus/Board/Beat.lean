import DeskhopPlus.Board.Debts
import DeskhopPlus.Library.Clock

/-!
# The beat of a board whose totals move

The tick of a session tells a reading of the totals at most once per interval, and fills an idle
direction with a beat. `dh_session_tick` keeps a reading from charging the idle timer, but
`channel_lifecycle_queue` charges it for every frame it queues. `Beats` says that the helper hears
something other than a reading before a second interval has passed, and `beats_unless_both_due`
that it does in every run in which a reading is never told at a tick that owes a beat as well.
-/

namespace DeskhopPlus.Board

open Bytes Wire Outq Auth Crypto Runs Session Clock

/-- An event at a time, which the clock of the channel reads modulo its width. -/
structure TimedEvent where
  time : Nat
  event : Event
  deriving DecidableEq, Repr

/-- Whether some frame other than a reading of the totals was queued. -/
def speaks (posts : List Posting) : Bool :=
  (queuedFrames posts).any fun frame ↦ !typed Msg.deviceDrops frame

/-- A board under its clock: the times of the last event and of the last tick, since when nothing
but readings was queued, and whether every tick since then found room in the priority lane. -/
structure Paced where
  board : Lifecycle
  clock : Nat
  ticked : Nat
  quiet : Nat
  room : Bool

namespace Paced

/-- One event at its time. -/
def step (curve : P256) (p : Paced) (e : TimedEvent) : Paced where
  board := p.board.step curve e.event
  clock := e.time
  ticked := if e.event.kind = .tick then e.time else p.ticked
  quiet := if speaks (p.board.postings curve e.event) then e.time else p.quiet
  room := speaks (p.board.postings curve e.event) ||
    (p.room && !(e.event.kind = .tick && p.board.out.priorityFull))

/-- A board that started at a time. -/
def boot (curve : P256) (buildType : BuildType) (identity : Option (List UInt8))
    (registration : Option (List UInt8 × List UInt8)) (time : Nat) : Paced where
  board := Lifecycle.boot curve buildType identity registration
  clock := time
  ticked := time
  quiet := time
  room := true

/-- The clock does not go back, and less than one turn of it passes between two ticks. -/
def OnTime (p : Paced) (e : TimedEvent) : Prop :=
  p.clock ≤ e.time ∧ (∀ stamp ∈ e.event.now, stamp = reading e.time) ∧
    (e.event.kind = .tick → e.time + heartbeatMs.toNat < p.ticked + 2 ^ 32)

/-- At a tick that leaves a session present, with room in the lane at every tick since the last
frame other than a reading, such a frame is queued before a second interval has passed. -/
def Beats (curve : P256) (p : Paced) (e : TimedEvent) : Prop :=
  e.event.kind = .tick → (p.step curve e).board.session.present = true → p.room = true →
    p.board.out.priorityFull = false → p.quiet + 2 * heartbeatMs.toNat ≤ e.time + 1 →
      speaks (p.board.postings curve e.event) = true

end Paced

namespace Session

/-- The tick takes the branch of the reading: a session that stays owes nothing that goes first, and
the totals moved and their interval is over. -/
def readingDue (s : Session) (now : UInt32) : Bool :=
  let s := s.closeListenerWindow now
  s.present && !decide (absentMs.toInt32 ≤ (now - s.lastSeenMs).toInt32) && !s.clipPolicyOwed &&
    !s.alertPending && (s.dropsOwed && (!s.dropsEverSent || heartbeatMs ≤ now - s.dropsSentMs))

/-- The session has been idle for an interval. -/
def beatDue (s : Session) (now : UInt32) : Bool := heartbeatMs ≤ now - s.lastSentMs

end Session

/-- No tick owes a reading and a beat at once, and the peer board hands over bulk frames only. -/
structure Paced.NeverBoth (p : Paced) (e : TimedEvent) : Prop where
  due : e.event.kind = .tick → p.board.session.readingDue (reading e.time) = true →
    p.board.session.beatDue (reading e.time) = false
  bulk : p.board.CompletesBulk e.event

/-! ## What a tick tells -/

namespace Session

theorem typed_tickFrame {s : Session} {type : UInt8} {body : List UInt8}
    {after : Session → Session} {frame : List UInt8} {wanted : UInt8}
    (h : (s.tickFrame type body replyMax after).1 = .ok frame) :
    typed wanted frame = decide (type = wanted) := by
  unfold tickFrame at h
  split at h
  · cases h
  · rename_i bytes hframe
    cases h
    rw [(frame_ok hframe).1, typed_builtView]

/-- A reading is told in its own branch only. -/
theorem readingDue_of_tick {s : Session} {now : UInt32} {frame : List UInt8}
    (h : (s.tick now replyMax).1 = .ok frame) (htyped : typed Msg.deviceDrops frame = true) :
    s.readingDue now = true := by
  unfold tick at h
  unfold readingDue
  generalize s.closeListenerWindow now = closed at h
  simp only at h ⊢
  split at h
  · cases h
    cases htyped
  · rename_i hpresent
    split at h
    · rw [finish, if_neg hpresent] at h
      dsimp only at h
      rw [(frame_ok h).1, typed_builtView] at htyped
      cases htyped
    · rename_i hstays
      split at h
      · rw [typed_tickFrame h] at htyped
        cases htyped
      · rename_i hpolicy
        split at h
        · rw [typed_tickFrame h] at htyped
          cases htyped
        · rename_i halert
          split at h
          · rename_i hdue
            rw [decide_eq_false hstays]
            simp [hpresent, hpolicy, halert, hdue]
          · split at h
            · cases h
              cases htyped
            · rw [typed_tickFrame h] at htyped
              cases htyped

end Session

theorem Lifecycle.readingDue_of_posting {c : Lifecycle} {now : UInt32} {post : Posting}
    (hpost : post ∈ c.tickPostings now) (htyped : typed Msg.deviceDrops post.frame = true) :
    c.session.readingDue now = true := by
  unfold tickPostings at hpost
  split at hpost
  · rename_i type rest session htick
    rw [List.mem_singleton.1 hpost] at htyped
    exact readingDue_of_tick (congrArg Prod.fst htick) htyped
  · cases hpost

theorem Lifecycle.readingDue_of_event {curve : P256} {c : Lifecycle} {event : Event} {now : UInt32}
    (hnow : ∀ stamp ∈ event.now, stamp = now) (htick : event.kind = .tick) {post : Posting}
    (hpost : post ∈ c.postings curve event) (htyped : typed Msg.deviceDrops post.frame = true) :
    c.session.readingDue now = true := by
  cases event with
  | sessionTick stamp =>
      obtain rfl := hnow stamp rfl
      exact readingDue_of_posting hpost htyped
  | _ => cases htick

/-! ## Which deeds speak -/

theorem speaks_post (x : Sending) (type flags : UInt8) (body : List UInt8) (queued : Bool)
    (rest : List Posting) :
    speaks (x.post type flags body queued :: rest) =
      ((queued && !decide (type = Msg.deviceDrops)) || speaks rest) := by
  rw [speaks, queuedFrames_cons]
  cases queued with
  | false => rfl
  | true =>
      have htyped := typed_post Msg.deviceDrops type flags x body true
      simp only [Sending.post] at htyped ⊢
      simp [speaks, htyped]

theorem speaks_untagged {type : UInt8} (htype : untagged type = true) (rest : List UInt8)
    (queued : Bool) :
    speaks [{ tagged := none, frame := type :: rest, queued := queued }] = queued := by
  have hother : decide (type = Msg.deviceDrops) = false := by
    rw [decide_eq_false_iff_not]
    rintro rfl
    cases htype
  cases queued with
  | false => rfl
  | true => simp [speaks, queuedFrames, typed, hother]

namespace Paced

/-! ## The invariant -/

/-- The idle timer of a session under the true clock: when it was last charged, which was less than
an interval before the last tick, and which was for the last frame other than a reading, or for the
one reading since then. -/
structure Charged (p : Paced) (sent : Nat) : Prop where
  order : sent ≤ p.clock
  reads : p.board.session.lastSentMs = reading sent
  ticked : p.ticked < sent + heartbeatMs.toNat
  since : p.room = true → sent = p.quiet ∨
    (p.board.session.dropsEverSent = true ∧
      p.board.session.dropsSentMs = p.board.session.lastSentMs ∧
      sent < p.quiet + heartbeatMs.toNat)

/-- What holds of every state of such a run. -/
structure Timely (p : Paced) : Prop where
  nonce : p.board.NonceFits
  parks : p.board.ParksBulk
  ticked : p.ticked ≤ p.clock
  charged : p.board.session.present = true → ∃ sent, Charged p sent

theorem timely_boot (curve : P256) (buildType : BuildType) (identity : Option (List UInt8))
    (registration : Option (List UInt8 × List UInt8)) (time : Nat) :
    Timely (boot curve buildType identity registration time) where
  nonce := Lifecycle.nonceFits_boot curve buildType identity registration
  parks := nofun
  ticked := Nat.le_refl _
  charged := nofun

variable {curve : P256} {p : Paced} {e : TimedEvent}

/-- A tick reads off the idle timer whether an interval has passed. -/
theorem Charged.elapsed {sent : Nat} (h : Charged p sent) (htime : p.OnTime e)
    (htick : e.event.kind = .tick) :
    (heartbeatMs ≤ reading e.time - p.board.session.lastSentMs ↔
      sent + heartbeatMs.toNat ≤ e.time) := by
  have horder : sent ≤ e.time := h.order.trans htime.1
  have hturn : e.time < sent + 2 ^ 32 := by
    have hgap := htime.2.2 htick
    have hticked := h.ticked
    omega
  rw [h.reads, UInt32.le_iff_toNat_le, toNat_elapsed horder hturn]
  omega

/-- A frame other than a reading, or a session that starts, charges the timer at its own time. -/
theorem charged_now (h : Timely p) (htime : p.OnTime e)
    (hsent : (p.step curve e).board.session.lastSentMs = reading e.time)
    (hroom : (p.step curve e).room = true → (p.step curve e).quiet = e.time) :
    Charged (p.step curve e) e.time where
  order := Nat.le_refl _
  reads := hsent
  ticked := by
    show (if e.event.kind = .tick then e.time else p.ticked) < _
    have hbeat : heartbeatMs.toNat = 1000 := rfl
    have hticked := h.ticked
    have hclock := htime.1
    split <;> omega
  since hstays := .inl (hroom hstays).symm

/-- Nothing is queued: the timer is as it was, and a tick was less than an interval after it. -/
theorem Charged.waits {sent : Nat} (h : Charged p sent) (htime : p.OnTime e)
    (hsilent : speaks (p.board.postings curve e.event) = false)
    (hsent : (p.step curve e).board.session.lastSentMs = p.board.session.lastSentMs)
    (hdrops : (p.step curve e).room = true →
      (p.step curve e).board.session.dropsEverSent = p.board.session.dropsEverSent ∧
      (p.step curve e).board.session.dropsSentMs = p.board.session.dropsSentMs)
    (hidle : e.event.kind = .tick → e.time < sent + heartbeatMs.toNat) :
    Charged (p.step curve e) sent where
  order := h.order.trans htime.1
  reads := hsent.trans h.reads
  ticked := by
    show (if e.event.kind = .tick then e.time else p.ticked) < _
    split
    · exact hidle (by assumption)
    · exact h.ticked
  since hroom := by
    obtain ⟨hever, hstamp⟩ := hdrops hroom
    have hquiet : (p.step curve e).quiet = p.quiet := by
      show (if speaks (p.board.postings curve e.event) then e.time else p.quiet) = p.quiet
      rw [if_neg (by simp [hsilent])]
    have hbefore : p.room = true := by
      have hroom : (speaks (p.board.postings curve e.event) ||
        (p.room && !(e.event.kind = .tick && p.board.out.priorityFull))) = true := hroom
      rw [hsilent, Bool.false_or, Bool.and_eq_true] at hroom
      exact hroom.1
    rw [hquiet, hever, hstamp, hsent]
    exact h.since hbefore

/-- The kinds of frames between the ends are no readings. -/
theorem Relays.not_reading {c : Lifecycle} (hparks : c.ParksBulk) {type flags : UInt8}
    {body : List UInt8} (h : Relays c type flags body) :
    decide (type = Msg.deviceDrops) = false := by
  rw [decide_eq_false_iff_not]
  rintro rfl
  exact absurd (h.not_owable hparks) (by decide)

/-- A frame that was queued and is no reading: the quiet ends with it. -/
theorem quiet_of_speaks (h : speaks (p.board.postings curve e.event) = true) :
    (p.step curve e).quiet = e.time := by
  show (if speaks (p.board.postings curve e.event) then e.time else p.quiet) = e.time
  rw [if_pos h]

/-- A frame that is charged if it is queued, and is no reading. -/
theorem Timely.charged_of_queued (h : Timely p) (htime : p.OnTime e)
    (hbefore : p.board.session.present = true) (hkind : e.event.kind ≠ .tick) {queued : Bool}
    (hspeaks : speaks (p.board.postings curve e.event) = queued)
    (hsent : (p.step curve e).board.session.lastSentMs =
      if queued then reading e.time else p.board.session.lastSentMs)
    (hever : (p.step curve e).board.session.dropsEverSent = p.board.session.dropsEverSent)
    (hstamp : (p.step curve e).board.session.dropsSentMs = p.board.session.dropsSentMs) :
    ∃ sent, Charged (p.step curve e) sent := by
  cases queued with
  | true => exact ⟨_, charged_now h htime hsent fun _ ↦ quiet_of_speaks hspeaks⟩
  | false =>
      obtain ⟨sent, hcharged⟩ := h.charged hbefore
      exact ⟨sent, hcharged.waits htime hspeaks hsent (fun _ ↦ ⟨hever, hstamp⟩)
        (fun htick ↦ absurd htick hkind)⟩

theorem told_lastSentMs {x : Sending} {now : UInt32} {type : UInt8} {queued : Bool}
    (h : type ≠ Msg.deviceDrops) : (x.told now type queued).lastSentMs = now := by
  cases queued with
  | true => rfl
  | false => exact if_neg h

/-- A tick that tells a reading when no beat is due: it is the first since the last other frame. -/
theorem Timely.charged_reading (h : Timely p) (htime : p.OnTime e) (hboth : p.NeverBoth e)
    (htick : e.event.kind = .tick) (hbefore : p.board.session.present = true) {alert : Bool}
    {body : List UInt8}
    (howes : Owes { p.board.session.sending with alertPending := alert } (reading e.time)
      Msg.deviceDrops body)
    (hposts : p.board.postings curve e.event =
      [p.board.session.sending.post Msg.deviceDrops 0 body (!p.board.out.priorityFull)])
    (hsending : (p.step curve e).board.session.sending =
      ({ p.board.session.sending with alertPending := alert } : Sending).told (reading e.time)
        Msg.deviceDrops (!p.board.out.priorityFull)) :
    ∃ sent, Charged (p.step curve e) sent := by
  obtain ⟨sent, hcharged⟩ := h.charged hbefore
  have hreading : p.board.session.readingDue (reading e.time) = true :=
    Lifecycle.readingDue_of_event htime.2.1 htick (by rw [hposts]; exact List.mem_singleton_self _)
      (typed_post ..)
  have hidle : ¬ heartbeatMs ≤ reading e.time - p.board.session.lastSentMs := by
    have hnot := hboth.due htick hreading
    simpa [beatDue] using hnot
  have hsoon : e.time < sent + heartbeatMs.toNat := by
    have hnot := mt (hcharged.elapsed htime htick).2 hidle
    omega
  have hsilent : speaks (p.board.postings curve e.event) = false := by
    rw [hposts, speaks_post]
    simp [speaks]
  cases hfull : p.board.out.priorityFull with
  | true =>
      rw [hfull] at hsending
      refine ⟨sent, hcharged.waits htime hsilent (congrArg Sending.lastSentMs hsending)
        (fun hroom ↦ ?_) (fun _ ↦ hsoon)⟩
      have hroom : (speaks (p.board.postings curve e.event) ||
        (p.room && !(e.event.kind = .tick && p.board.out.priorityFull))) = true := hroom
      simp [hsilent, htick, hfull] at hroom
  | false =>
      rw [hfull] at hsending
      have hsent : (p.step curve e).board.session.lastSentMs = reading e.time :=
        congrArg Sending.lastSentMs hsending
      have hstamp : (p.step curve e).board.session.dropsSentMs = reading e.time :=
        congrArg Sending.dropsSentMs hsending
      have hever : (p.step curve e).board.session.dropsEverSent = true :=
        congrArg Sending.dropsEverSent hsending
      have hquiet : (p.step curve e).quiet = p.quiet := by
        show (if speaks (p.board.postings curve e.event) then e.time else p.quiet) = p.quiet
        rw [if_neg (by simp [hsilent])]
      refine ⟨e.time, Nat.le_refl _, hsent, ?_,
        fun hroom ↦ .inr ⟨hever, hstamp.trans hsent.symm, ?_⟩⟩
      · show (if e.event.kind = .tick then e.time else p.ticked) < _
        rw [if_pos htick]
        exact Nat.lt_add_of_pos_right (by decide)
      · have hbeforeRoom : p.room = true := by
          have hroom : (speaks (p.board.postings curve e.event) ||
            (p.room && !(e.event.kind = .tick && p.board.out.priorityFull))) = true := hroom
          simpa [hsilent, htick, hfull] using hroom
        rw [hquiet]
        rcases hcharged.since hbeforeRoom with hfirst | ⟨hsecond, hsame, -⟩
        · rwa [← hfirst]
        · -- a second reading is an interval behind the first, so the beat would be due as well
          cases howes with
          | deviceDrops hpolicy halert howed hdue =>
              rcases hdue with hnever | hlong
              · have hnever : p.board.session.dropsEverSent = false := hnever
                exact absurd (hnever.symm.trans hsecond) Bool.false_ne_true
              · have hlong : heartbeatMs ≤ reading e.time - p.board.session.dropsSentMs := hlong
                rw [hsame] at hlong
                exact absurd hlong hidle

theorem Timely.charged_step (h : Timely p) (htime : p.OnTime e) (hboth : p.NeverBoth e)
    (hpresent : (p.step curve e).board.session.present = true) :
    ∃ sent, Charged (p.step curve e) sent := by
  have hdeed : Deed p.board e.event.kind (reading e.time) (p.step curve e).board.session
      (p.board.postings curve e.event) := Lifecycle.deed_step h.nonce e.event htime.2.1
  generalize hposts : p.board.postings curve e.event = posts at hdeed
  cases hdeed with
  | rests alert halert hidle hsending =>
      -- nothing was queued, so the heartbeat was not due: the timer runs on from where it stood
      have hbefore : p.board.session.present = true :=
        (congrArg Sending.present hsending).symm.trans hpresent
      obtain ⟨sent, hcharged⟩ := h.charged hbefore
      refine ⟨sent,
        hcharged.waits htime (by rw [hposts]; rfl) (congrArg Sending.lastSentMs hsending)
        (fun _ ↦ ⟨congrArg Sending.dropsEverSent hsending, congrArg Sending.dropsSentMs hsending⟩)
        (fun htick ↦ ?_)⟩
      have hnot := mt (hcharged.elapsed htime htick).2 (UInt32.not_le.2 (hidle htick hbefore))
      omega
  | drops alert halert hsending =>
      -- without a session nothing is to be charged
      have hgone : (p.step curve e).board.session.present = false :=
        congrArg Sending.present hsending
      exact absurd (hgone.symm.trans hpresent) Bool.false_ne_true
  | configures totals clipFlags capMb hkind hsending =>
      have hfields : ((p.board.session.setDrops totals).setClipPolicy clipFlags capMb).present =
          p.board.session.present ∧
          ((p.board.session.setDrops totals).setClipPolicy clipFlags capMb).lastSentMs =
            p.board.session.lastSentMs ∧
          ((p.board.session.setDrops totals).setClipPolicy clipFlags capMb).dropsEverSent =
            p.board.session.dropsEverSent ∧
          ((p.board.session.setDrops totals).setClipPolicy clipFlags capMb).dropsSentMs =
            p.board.session.dropsSentMs := by
        unfold setClipPolicy setDrops
        split <;> split <;> exact ⟨rfl, rfl, rfl, rfl⟩
      obtain ⟨hhere, hsent, hever, hstamp⟩ := hfields
      have hbefore : p.board.session.present = true :=
        hhere.symm.trans ((congrArg Sending.present hsending).symm.trans hpresent)
      -- a policy or a total is only remembered here, the next tick queues it
      have hsilent : speaks (p.board.postings curve e.event) = false := by
        rw [hposts]
        rfl
      exact h.charged_of_queued htime hbefore (by simp [hkind]) hsilent
        ((congrArg Sending.lastSentMs hsending).trans hsent)
        ((congrArg Sending.dropsEverSent hsending).trans hever)
        ((congrArg Sending.dropsSentMs hsending).trans hstamp)
  | tags hkind hrelays hbefore hsending =>
      refine h.charged_of_queued htime hbefore (by simp [hkind]) ?_
        (congrArg Sending.lastSentMs hsending)
        (congrArg Sending.dropsEverSent hsending) (congrArg Sending.dropsSentMs hsending)
      rw [hposts, speaks_post, Relays.not_reading h.parks hrelays]
      simp [speaks]
  | places hkind hbefore hsending =>
      refine h.charged_of_queued htime hbefore (by simp [hkind]) ?_
        (congrArg Sending.lastSentMs hsending)
        (congrArg Sending.dropsEverSent hsending) (congrArg Sending.dropsSentMs hsending)
      rw [hposts, speaks_post, speaks_post]
      simp [speaks, Msg.place, Msg.posQuery, Msg.deviceDrops]
  | ends halert hbefore hsending =>
      have hgone : (p.step curve e).board.session.present = false :=
        congrArg Sending.present hsending
      exact absurd (hgone.symm.trans hpresent) Bool.false_ne_true
  | answers hkind htype hsending =>
      have hbefore : p.board.session.present = true :=
        (congrArg Sending.present hsending).symm.trans hpresent
      refine h.charged_of_queued htime hbefore (by simp [hkind]) ?_
        (congrArg Sending.lastSentMs hsending)
        (congrArg Sending.dropsEverSent hsending) (congrArg Sending.dropsSentMs hsending)
      rw [hposts, speaks_untagged htype]
  | starts hkind hstaged hspent hsending =>
      refine ⟨_, charged_now h htime (congrArg Sending.lastSentMs hsending) fun _ ↦
        quiet_of_speaks ?_⟩
      rw [hposts, speaks_post]
      rfl
  | ticks htick halert hbefore howes hsending =>
      rename_i alert type body
      -- DEVICE_DROPS alone leaves the timer as it was
      by_cases hother : type = Msg.deviceDrops
      · subst hother
        exact h.charged_reading htime hboth htick hbefore howes hposts hsending
      · refine ⟨_, charged_now h htime ((congrArg Sending.lastSentMs hsending).trans
          (told_lastSentMs hother)) fun hroom ↦ ?_⟩
        apply quiet_of_speaks
        have hroom : (speaks (p.board.postings curve e.event) ||
          (p.room && !(e.event.kind = .tick && p.board.out.priorityFull))) = true := hroom
        rw [hposts, speaks_post, decide_eq_false hother, htick] at hroom
        rw [hposts, speaks_post, decide_eq_false hother]
        cases hfull : p.board.out.priorityFull with
        | false => rfl
        | true => simp [hfull, speaks] at hroom

theorem Timely.step (h : Timely p) (htime : p.OnTime e) (hboth : p.NeverBoth e) :
    Timely (p.step curve e) where
  nonce := Lifecycle.nonceFits_step curve h.nonce e.event
  parks := Lifecycle.parksBulk_step h.parks hboth.bulk
  ticked := by
    show (if e.event.kind = .tick then e.time else p.ticked) ≤ e.time
    split
    · exact Nat.le_refl _
    · exact h.ticked.trans htime.1
  charged hpresent := h.charged_step htime hboth hpresent

theorem Timely.beats (h : Timely p) (htime : p.OnTime e) (hboth : p.NeverBoth e) :
    p.Beats curve e := by
  intro htick hpresent hroom hlane hlate
  have hdeed : Deed p.board e.event.kind (reading e.time) (p.step curve e).board.session
      (p.board.postings curve e.event) := Lifecycle.deed_step h.nonce e.event htime.2.1
  -- at so late a tick the timer says that the beat is due
  have hdue : p.board.session.present = true →
      heartbeatMs ≤ reading e.time - p.board.session.lastSentMs := by
    intro hbefore
    obtain ⟨sent, hcharged⟩ := h.charged hbefore
    rw [hcharged.elapsed htime htick]
    have hbeat : heartbeatMs.toNat = 1000 := rfl
    rcases hcharged.since hroom with hfirst | ⟨-, -, hsecond⟩ <;> omega
  generalize hposts : p.board.postings curve e.event = posts at hdeed
  cases hdeed with
  | rests alert halert hidle hsending =>
      have hbefore : p.board.session.present = true :=
        (congrArg Sending.present hsending).symm.trans hpresent
      exact absurd (hdue hbefore) (UInt32.not_le.2 (hidle htick hbefore))
  | drops alert halert hsending =>
      have hgone : (p.step curve e).board.session.present = false :=
        congrArg Sending.present hsending
      exact absurd (hgone.symm.trans hpresent) Bool.false_ne_true
  | ends halert hbefore hsending =>
      have hgone : (p.step curve e).board.session.present = false :=
        congrArg Sending.present hsending
      exact absurd (hgone.symm.trans hpresent) Bool.false_ne_true
  | ticks htick' halert hbefore howes hsending =>
      rename_i alert type body
      rw [speaks_post, hlane]
      have hother : type ≠ Msg.deviceDrops := by
        rintro rfl
        have hreading : p.board.session.readingDue (reading e.time) = true :=
          Lifecycle.readingDue_of_event htime.2.1 htick
            (by rw [hposts]; exact List.mem_singleton_self _) (typed_post ..)
        have hnot := hboth.due htick hreading
        have hnever : ¬ heartbeatMs ≤ reading e.time - p.board.session.lastSentMs := by
          simpa [beatDue] using hnot
        exact hnever (hdue hbefore)
      rw [decide_eq_false hother]
      rfl
  | configures _ _ _ hno | tags hno | places hno | answers hno | starts hno =>
      exact absurd (hno.symm.trans htick) (by decide)

/-- In every run under a clock that is read at every tick, in which no tick owes a reading and a
beat at once, the helper hears something other than a reading before a second interval has passed,
however the totals move. -/
theorem beats_unless_both_due (curve : P256) (buildType : BuildType)
    (identity : Option (List UInt8)) (registration : Option (List UInt8 × List UInt8)) (time : Nat)
    (events : List TimedEvent)
    (htime : Along (step curve) OnTime (boot curve buildType identity registration time) events)
    (hboth : Along (step curve) NeverBoth (boot curve buildType identity registration time)
      events) :
    Along (step curve) (Beats curve) (boot curve buildType identity registration time) events := by
  rw [Along.iff_splits]
  intro before e after hsplit
  have hmeets := htime.and hboth
  rw [hsplit, Along.append] at hmeets
  have htimely : (run (step curve) (boot curve buildType identity registration time)
      before).Timely :=
    run_invariant_along Timely (timely_boot curve buildType identity registration time)
      (fun _ _ hold hmeets ↦ hold.step hmeets.1 hmeets.2) hmeets.1
  exact htimely.beats hmeets.2.1.1 hmeets.2.1.2

/-! ## Totals that move, and totals that do not -/

instance (p : Paced) (e : TimedEvent) : Decidable (p.OnTime e) :=
  haveI := Option.decidableForallMem (p := (· = reading e.time)) e.event.now
  inferInstanceAs (Decidable (_ ∧ _ ∧ (_ → _)))

instance (p : Paced) (e : TimedEvent) : Decidable (p.NeverBoth e) :=
  decidable_of_iff ((e.event.kind = .tick →
    p.board.session.readingDue (reading e.time) = true →
      p.board.session.beatDue (reading e.time) = false) ∧ p.board.CompletesBulk e.event)
    ⟨fun h ↦ ⟨h.1, h.2⟩, fun h ↦ ⟨h.due, h.bulk⟩⟩

instance (curve : P256) (p : Paced) (e : TimedEvent) : Decidable (p.Beats curve e) :=
  inferInstanceAs (Decidable (_ → _ → _ → _ → _ → _))

/-- A tick at a time. -/
def tickAt (time : Nat) : TimedEvent := ⟨time, .sessionTick (reading time)⟩

/-- Two reports of the queue go out at a time. -/
def drainsAt (time : Nat) : List TimedEvent := [⟨time, .pumpOut 0 true⟩, ⟨time, .pumpOut 0 true⟩]

/-- A report comes in at a time, which is one more in the totals. -/
def movesAt (time : Nat) : List TimedEvent :=
  [⟨time, .receiveReport 0 [0]⟩, ⟨time, .drainReport (reading time)⟩, ⟨time, .updateConfig 3 0⟩]

/-- A hundred ticks, ten milliseconds apart. -/
def idleFrom (time : Nat) : List TimedEvent :=
  (List.range 100).map fun i ↦ tickAt (time + 10 * i)

/-- A hello is taken at time zero, and the session tells its policy and its first reading. -/
def beginning : List TimedEvent :=
  (Told.greeting.take 7).map (TimedEvent.mk 0) ++ tickAt 1 :: drainsAt 1 ++ tickAt 2 :: drainsAt 2

/-- A session in which nothing else is sent has its beat when it is due. -/
theorem beats_unless_both_due_idle :
    Along (step smallCurve) (Beats smallCurve) (boot smallCurve .development none none 0)
      (beginning ++ [tickAt 2001]) :=
  beats_unless_both_due smallCurve .development none none 0 (beginning ++ [tickAt 2001])
    (by decide +kernel) (by decide +kernel)

/-- The totals move once a second: the reading at 1002 charges the idle timer, so the beat is not
due at any tick before the reading at 2002 charges it again. -/
def movingTotals : List TimedEvent :=
  beginning ++ movesAt 2 ++ idleFrom 3 ++ tickAt 1002 :: drainsAt 1002 ++ movesAt 1003 ++
    idleFrom 1003

/-- Where the readings charge the timer first, a beat that is due in time never comes. -/
theorem reading_silences_beat :
    Along (step smallCurve) OnTime (boot smallCurve .development none none 0)
        (movingTotals ++ [tickAt 2002]) ∧
      ¬ Along (step smallCurve) (Beats smallCurve) (boot smallCurve .development none none 0)
        (movingTotals ++ [tickAt 2002]) := by
  have hlast : ¬ (run (step smallCurve) (boot smallCurve .development none none 0)
      movingTotals).Beats smallCurve (tickAt 2002) := by
    decide +kernel
  refine ⟨by decide +kernel, fun h ↦ ?_⟩
  rw [Along.append] at h
  exact hlast h.2.1

end Paced

end DeskhopPlus.Board
