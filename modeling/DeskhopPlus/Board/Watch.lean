import DeskhopPlus.Board.Moves

/-!
# A board and its record

The board does not keep what it authenticated; the log beside it does. It lists the frames handed
on, those `dh_auth_open` took with the key they were taken under, those that went into the relay
queue, the hellos that started a session, and the nonces staged. `fate` says what becomes of a frame
by asking the functions of the source; `onFrame_fate` says that the channel moves accordingly.

`Judged` ties the log to the core of the session: the receive window of a live session records
exactly the counters taken in it. Every event keeps it (`judged_step`).
-/

namespace DeskhopPlus.Board

open Wire Outq Auth Crypto ReplayWindow Runs Session

/-- What a key was derived from. -/
inductive KeyUse where
  | hello (sharedSecret helperNonce : List UInt8)
  | session (sharedSecret helperNonce boardNonce : List UInt8)
  deriving DecidableEq, Repr

/-- The key `k_hello` or `k_h2b` that comes out. -/
def KeyUse.key : KeyUse → List UInt8
  | .hello sharedSecret helperNonce => deriveHelloKey sharedSecret helperNonce
  | .session sharedSecret helperNonce boardNonce =>
      (deriveSessionKeys sharedSecret helperNonce boardNonce).1

/-- A frame `dh_auth_open` took: how many sessions had been started before it, the key, the counter
and the frame. -/
structure Opening where
  session : Nat
  use : KeyUse
  counter : Nat
  view : FrameView
  deriving DecidableEq, Repr

/-- Whether the frame was taken under the key of a session, not as a hello. -/
def Opening.inSession (o : Opening) : Bool :=
  match o.use with
  | .session .. => true
  | .hello .. => false

/-- A hello that started a session, and what the session was keyed with. -/
structure Start where
  view : FrameView
  sharedSecret : List UInt8
  helperNonce : List UInt8
  boardNonce : List UInt8
  deriving DecidableEq, Repr

/-- The key use of the hello. -/
def Start.helloUse (start : Start) : KeyUse := .hello start.sharedSecret start.helperNonce

/-- The key use of the session. -/
def Start.use (start : Start) : KeyUse :=
  .session start.sharedSecret start.helperNonce start.boardNonce

/-- What becomes of a frame handed on: nothing is taken, a hello is taken with no nonce to start a
session with, a hello starts a session, or a frame is taken in the session. -/
inductive Fate where
  | untaken
  | proves (use : KeyUse)
  | starts (start : Start)
  | taken
  deriving DecidableEq, Repr

/-- The fate of a hello, by the verdict on it. -/
def helloFate (s : Session) (view : FrameView) : HelloVerdict → Fate
  | .refused _ _ => .untaken
  | .silent => .untaken
  | .proved hello sharedSecret =>
      if s.nonceStaged then
        .starts { view := view, sharedSecret := sharedSecret, helperNonce := hello.helperNonce,
                  boardNonce := s.stagedNonce }
      else .proves (.hello sharedSecret hello.helperNonce)

/-- The fate of a frame, by what the session layer answers about it. -/
def fate (c : Lifecycle) (view : FrameView) (now : UInt32) : Fate :=
  if view.type = Msg.hello then helloFate c.session view (c.session.helloVerdict c.pair view)
  else if Lifecycle.authenticatesHere view.type ∨ view.type = Msg.heartbeat then
    match (c.session.authenticate view now).1 with
    | .ok _ => .taken
    | .error _ => .untaken
  else .untaken

/-- Whether a frame that was taken enters the relay queue. -/
def relays (c : Lifecycle) (view : FrameView) : Bool :=
  Msg.isBulk view.type &&
    (c.relayTx.offer (Lifecycle.shortened view).bytes).1 = OutqResult.ok

/-! ## The log -/

/-- The record of a run. -/
structure Log where
  received : List FrameView
  opened : List Opening
  relayed : List Opening
  started : List Start
  nonces : List (List UInt8)
  deriving DecidableEq, Repr

namespace Log

/-- The record of a board that has just booted. -/
def empty : Log := { received := [], opened := [], relayed := [], started := [], nonces := [] }

/-- The key use of the session started last. -/
def current (log : Log) : KeyUse := log.started.getLast?.elim (.session [] [] []) Start.use

/-- The entry of a frame taken now. -/
def opening (log : Log) (use : KeyUse) (view : FrameView) : Opening :=
  { session := log.started.length, use := use, counter := counterOf view, view := view }

/-- Note a frame that was handed on. -/
def hears (log : Log) (view : FrameView) : Log := { log with received := log.received ++ [view] }

/-- Note a frame that was taken. -/
def opens (log : Log) (use : KeyUse) (view : FrameView) : Log :=
  { log.hears view with opened := log.opened ++ [log.opening use view] }

/-- The record after a frame was handed on. -/
def frame (log : Log) (c : Lifecycle) (view : FrameView) (now : UInt32) : Log :=
  match fate c view now with
  | .untaken => log.hears view
  | .proves use => log.opens use view
  | .starts start => { log.opens start.helloUse view with started := log.started ++ [start] }
  | .taken =>
      { log.opens log.current view with
        relayed := log.relayed ++
          if relays c view then [log.opening log.current view] else [] }

/-- The counters taken in a session, numbered from one. -/
def countersIn (log : Log) (session : Nat) : List Nat :=
  (log.opened.filter fun o ↦ o.inSession && o.session = session).map Opening.counter

end Log

/-- A board with its record. -/
structure Watched where
  board : Lifecycle
  log : Log

namespace Watched

/-- A release board that has just booted. -/
def boot (curve : P256) (identity : Option (List UInt8))
    (registration : Option (List UInt8 × List UInt8)) : Watched :=
  { board := Lifecycle.boot curve .release identity registration, log := Log.empty }

/-- The record after an event. -/
def note (w : Watched) (event : Event) : Log :=
  match w.board.handing event with
  | some h => w.log.frame h.channel h.view h.now
  | none => { w.log with nonces := w.log.nonces ++ (w.board.staging event).toList }

/-- The board and its record after an event. -/
def step (curve : P256) (w : Watched) (event : Event) : Watched :=
  { board := w.board.step curve event, log := w.note event }

end Watched

/-! ## The channel follows the fate -/

section Fate

variable {c : Lifecycle} {view : FrameView} {now : UInt32}

/-- The types that are not for the session layer, and the two it authenticates, are no hello. -/
theorem not_authenticatesHere_hello : Lifecycle.authenticatesHere Msg.hello = false := by decide

/-- The core after a frame of a given fate. -/
def Fate.core (k : Core) (view : FrameView) : Fate → Core
  | .untaken => k
  | .proves _ => k
  | .starts start =>
      { k with
        present := true
        kH2b := start.use.key
        rx := AuthCounter.init
        nonceStaged := false }
  | .taken => { k with rx := (authOpen k.kH2b view k.rx).2 }

/-- A hello moves the core as its verdict says. -/
theorem core_answerHello (hnonce : c.session.stagedNonce.length ≤ nonceSize) :
    (c.session.answerHello c.pair view now replyMax).2.core =
      (helloFate c.session view (c.session.helloVerdict c.pair view)).core c.session.core view := by
  unfold answerHello
  cases c.session.helloVerdict c.pair view with
  | refused correlation status => rfl
  | silent => exact (sameButRefusals_noteRefused _ _ _).core_eq
  | proved hello sharedSecret =>
      by_cases hstaged : c.session.nonceStaged = true
      · simp only [helloFate, hstaged, if_true, Bool.true_eq_false, if_false]
        exact (startSession_spec hnonce hello sharedSecret now).2
      · simp only [helloFate, hstaged, if_true]
        rfl

/-- A frame of the session moves the core as the receive window says. -/
theorem core_authenticate (hrelease : c.session.buildType = .release) :
    (c.session.authenticate view now).2.core =
      (match (c.session.authenticate view now).1 with
        | .ok _ => Fate.taken
        | .error _ => Fate.untaken).core c.session.core view := by
  rcases authenticate_cases hrelease view now with ⟨-, -, hok, hcore⟩ | ⟨-, ⟨fault, herror⟩, hsame⟩
  · rw [hok, hcore]
    rfl
  · rw [herror]
    exact hsame.core_eq

/-- The channel after a frame: its core is that of the frame's fate. -/
theorem core_onFrame (curve : P256) (index : Nat) (hrelease : c.session.buildType = .release)
    (hnonce : c.session.stagedNonce.length ≤ nonceSize) :
    (c.onFrame curve index view now).session.core =
      (fate c view now).core c.session.core view := by
  unfold Lifecycle.onFrame fate
  by_cases hhere : Lifecycle.authenticatesHere view.type = true
  · -- a frame checked on this board itself is never a hello
    have hhello : view.type ≠ Msg.hello := by
      intro h
      rw [h, not_authenticatesHere_hello] at hhere
      cases hhere
    rw [if_pos hhere, if_neg hhello, if_pos (.inl hhere), ← core_authenticate hrelease]
    cases c.session.authenticate view now with
    | mk result session =>
        cases result with
        | error fault => rfl
        | ok body =>
            simp only
            split <;> rfl
  · have hhere : Lifecycle.authenticatesHere view.type = false := by simpa using hhere
    rw [if_neg (by simp [hhere]), (c.channelOnFrame_spec curve view now hhere).1]
    unfold Session.onFrame
    by_cases hhello : view.type = Msg.hello
    · rw [if_pos hhello, if_pos hhello]
      exact core_answerHello hnonce
    · rw [if_neg hhello, if_neg hhello]
      by_cases hbeat : view.type = Msg.heartbeat
      · have hrequest : view.type ≠ Msg.pairRequest := by
          rw [hbeat]
          decide
        rw [if_neg hrequest, if_pos (.inl hbeat), if_pos (.inr hbeat)]
        exact core_authenticate hrelease
      · have hresponse : view.type ≠ Msg.posResponse := by
          intro h
          rw [h] at hhere
          exact absurd hhere (by decide)
        have hignored : ¬ (view.type = Msg.heartbeat ∨ view.type = Msg.posResponse) := by
          rintro (h | h)
          · exact hbeat h
          · exact hresponse h
        have hunchecked :
            ¬ (Lifecycle.authenticatesHere view.type = true ∨ view.type = Msg.heartbeat) := by
          rintro (h | h)
          · rw [hhere] at h
            cases h
          · exact hbeat h
        rw [if_neg hignored, if_neg hunchecked]
        split <;> rfl

/-- A frame that is taken carries the session's tag and a counter its window admits. -/
theorem opens_of_taken (hrelease : c.session.buildType = .release)
    (h : fate c view now = .taken) :
    c.session.present = true ∧ Opens c.session.kH2b c.session.rx view := by
  unfold fate at h
  split at h
  · unfold helloFate at h
    split at h
    · cases h
    · cases h
    · split at h <;> cases h
  · split at h
    · rcases authenticate_cases hrelease view now with ⟨hpresent, hopens, -⟩ |
        ⟨-, ⟨fault, herror⟩, -⟩
      · exact ⟨hpresent, hopens⟩
      · rw [herror] at h
        cases h
    · cases h

/-- The fates of a hello that is taken under a key. -/
def Fate.TakesHello (use : KeyUse) : Fate → Prop
  | .proves use' => use' = use
  | .starts start => start.helloUse = use
  | _ => False

/-- The hellos that are taken are those the verdict finds proved. -/
theorem fate_takesHello_iff (hrelease : c.session.buildType = .release) {use : KeyUse} :
    (fate c view now).TakesHello use ↔ view.type = Msg.hello ∧
      ∃ hello sharedSecret, ProvesHello c.pair view hello sharedSecret ∧
        use = .hello sharedSecret hello.helperNonce := by
  simp only [← helloVerdict_proved_iff hrelease]
  unfold fate
  by_cases hhello : view.type = Msg.hello
  · rw [if_pos hhello]
    cases c.session.helloVerdict c.pair view with
    | refused correlation status => simp [helloFate, Fate.TakesHello]
    | silent => simp [helloFate, Fate.TakesHello]
    | proved hello sharedSecret =>
        have htaken : (helloFate c.session view (.proved hello sharedSecret)).TakesHello use ↔
            .hello sharedSecret hello.helperNonce = use := by
          rw [helloFate]
          split <;> rfl
        rw [htaken]
        constructor
        · rintro rfl
          exact ⟨hhello, hello, sharedSecret, rfl, rfl⟩
        · rintro ⟨-, hello', sharedSecret', hsame, rfl⟩
          cases hsame
          rfl
  · have hnone : ¬ (if Lifecycle.authenticatesHere view.type ∨ view.type = Msg.heartbeat then
        match (c.session.authenticate view now).1 with
        | .ok _ => Fate.taken
        | .error _ => Fate.untaken
      else Fate.untaken).TakesHello use := by
      split
      · split <;> exact id
      · exact id
    rw [if_neg hhello]
    exact ⟨fun h ↦ absurd h hnone, fun h ↦ absurd h.1 hhello⟩

/-- A hello that is taken carries the tag of the key its own nonce gives. -/
theorem verifies_of_hello (hrelease : c.session.buildType = .release) {use : KeyUse}
    (h : (fate c view now).TakesHello use) :
    TagVerifies use.key view ∧
      ∃ sharedSecret helperNonce, use = .hello sharedSecret helperNonce := by
  obtain ⟨-, hello, sharedSecret, hproves, rfl⟩ := (fate_takesHello_iff hrelease).1 h
  exact ⟨hproves.tag, sharedSecret, hello.helperNonce, rfl⟩

/-- The session a hello starts is keyed with the staged nonce. -/
theorem staged_of_starts {start : Start} (h : fate c view now = .starts start) :
    c.session.nonceStaged = true ∧ start.boardNonce = c.session.stagedNonce ∧
      start.view = view := by
  unfold fate helloFate at h
  split at h
  · split at h
    · cases h
    · cases h
    · split at h
      · rename_i hstaged
        cases h
        exact ⟨hstaged, rfl, rfl⟩
      · cases h
  · split at h
    · split at h <;> cases h
    · cases h

end Fate

/-! ## The log and the core of the session -/

/-- The log accounts for the core: a live session is the one started last and its window records
the counters taken in it; no counter was taken twice in a session; every entry carries the tag of
its key; the hellos that started sessions were taken in that order; and the nonces staged are those
spent on sessions, with the one still staged at the end. -/
structure Judged (k : Core) (log : Log) : Prop where
  release : k.buildType = .release
  nonce_length : k.stagedNonce.length ≤ nonceSize
  live : k.present = true → log.current.key = k.kH2b ∧ log.started ≠ [] ∧
    Recording k.rx (log.countersIn log.started.length)
  ordinal : ∀ o ∈ log.opened, o.session ≤ log.started.length
  keyed : ∀ o ∈ log.opened, o.inSession = true →
    ∃ start, 0 < o.session ∧ log.started[o.session - 1]? = some start ∧ o.use = start.use
  once : ((log.opened.filter Opening.inSession).map fun o ↦ (o.session, o.counter)).Nodup
  proved : ∀ o ∈ log.opened, TagVerifies o.use.key o.view ∧ o.counter = counterOf o.view
  heard : (log.opened.map Opening.view).Sublist log.received
  begun : (log.started.map Start.view).Sublist (log.opened.map Opening.view)
  relayed : log.relayed.Sublist (log.opened.filter Opening.inSession)
  nonces : log.nonces =
    log.started.map Start.boardNonce ++ if k.nonceStaged then [k.stagedNonce] else []

namespace Log

variable {log : Log} {use : KeyUse} {view : FrameView}

/-- The session started last is keyed for a session. -/
theorem current_inSession (log : Log) (view : FrameView) :
    (log.opening log.current view).inSession = true := by
  unfold opening Opening.inSession current
  cases log.started.getLast? <;> rfl

theorem current_eq {start : Start} (h : log.started.getLast? = some start) :
    log.current = start.use := by
  simp [current, h]

/-- Taking a frame adds its counter to the session it was taken in. -/
theorem countersIn_opens (log : Log) (use : KeyUse) (view : FrameView) (session : Nat) :
    (log.opens use view).countersIn session = log.countersIn session ++
      if (log.opening use view).inSession && log.started.length = session then [counterOf view]
      else [] := by
  have hlast : (log.opening use view).session = log.started.length := rfl
  simp only [countersIn, opens, List.filter_append, List.map_append, List.filter_cons,
    List.filter_nil, hlast]
  congr 1
  split <;> rfl

/-- A counter not taken in a session is not paired with it. -/
theorem not_mem_pairs {session counter : Nat} (h : counter ∉ log.countersIn session) :
    (session, counter) ∉
      (log.opened.filter Opening.inSession).map fun o ↦ (o.session, o.counter) := by
  intro hmem
  obtain ⟨o, ho, hpair⟩ := List.mem_map.1 hmem
  obtain ⟨hopened, hin⟩ := List.mem_filter.1 ho
  cases hpair
  exact h (List.mem_map.2 ⟨o, List.mem_filter.2 ⟨hopened, by simp [hin]⟩, rfl⟩)

end Log

namespace Judged

variable {k : Core} {log : Log} {use : KeyUse} {view : FrameView}

theorem drop (h : Judged k log) : Judged k.drop log :=
  { h with live := fun hpresent ↦ by cases hpresent }

theorem hears (h : Judged k log) (view : FrameView) : Judged k (log.hears view) :=
  { h with heard := h.heard.trans (List.sublist_append_left _ _) }

/-- What every frame that is taken adds, whether as a hello or in a session. -/
theorem heard_opens (h : Judged k log) (use : KeyUse) (view : FrameView) :
    ((log.opens use view).opened.map Opening.view).Sublist (log.opens use view).received := by
  have hlast : [view].Sublist [view] := List.Sublist.refl _
  simpa [Log.opens, Log.hears, Log.opening] using h.heard.append hlast

theorem begun_opens (h : Judged k log) (use : KeyUse) (view : FrameView) :
    (log.started.map Start.view).Sublist ((log.opens use view).opened.map Opening.view) := by
  rw [Log.opens, List.map_append]
  exact h.begun.trans (List.sublist_append_left _ _)

theorem proved_opens (h : Judged k log) (htag : TagVerifies use.key view) :
    ∀ o ∈ (log.opens use view).opened, TagVerifies o.use.key o.view ∧
      o.counter = counterOf o.view := by
  intro o ho
  rcases List.mem_append.1 ho with hold | hnew
  · exact h.proved o hold
  · cases List.mem_singleton.1 hnew
    exact ⟨htag, rfl⟩

theorem ordinal_opens (h : Judged k log) (use : KeyUse) (view : FrameView) :
    ∀ o ∈ (log.opens use view).opened, o.session ≤ log.started.length := by
  intro o ho
  rcases List.mem_append.1 ho with hold | hnew
  · exact h.ordinal o hold
  · cases List.mem_singleton.1 hnew
    exact Nat.le_refl _

/-- A hello that is taken is no frame of a session, so it touches no count of one. -/
theorem filter_opens_hello {sharedSecret helperNonce : List UInt8} (log : Log) (view : FrameView) :
    (log.opens (.hello sharedSecret helperNonce) view).opened.filter Opening.inSession =
      log.opened.filter Opening.inSession := by
  simp [Log.opens, Log.opening, Opening.inSession]

theorem countersIn_hello {sharedSecret helperNonce : List UInt8} (log : Log) (view : FrameView)
    (session : Nat) :
    (log.opens (.hello sharedSecret helperNonce) view).countersIn session =
      log.countersIn session := by
  rw [Log.countersIn_opens]
  simp [Log.opening, Opening.inSession]

/-- A hello that is taken keeps the account. -/
theorem proves (h : Judged k log) {sharedSecret helperNonce : List UInt8}
    (huse : use = .hello sharedSecret helperNonce) (htag : TagVerifies use.key view) :
    Judged k (log.opens use view) where
  release := h.release
  nonce_length := h.nonce_length
  live hpresent := by
    obtain ⟨hkey, hstarted, hrecording⟩ := h.live hpresent
    refine ⟨hkey, hstarted, ?_⟩
    rw [huse, countersIn_hello]
    exact hrecording
  ordinal := h.ordinal_opens use view
  keyed := by
    intro o ho hin
    rcases List.mem_append.1 ho with hold | hnew
    · exact h.keyed o hold hin
    · cases List.mem_singleton.1 hnew
      rw [huse] at hin
      cases hin
  once := by
    rw [huse, filter_opens_hello]
    exact h.once
  proved := h.proved_opens htag
  heard := h.heard_opens use view
  begun := h.begun_opens use view
  relayed := by
    rw [huse, filter_opens_hello]
    exact h.relayed
  nonces := h.nonces

/-- A hello that starts a session opens a count of its own and spends the staged nonce. -/
theorem starts (h : Judged k log) {start : Start} (htag : TagVerifies start.helloUse.key view)
    (hstaged : k.nonceStaged = true) (hnonce : start.boardNonce = k.stagedNonce)
    (hview : start.view = view) :
    Judged ((Fate.starts start).core k view)
      { log.opens start.helloUse view with started := log.started ++ [start] } := by
  have hproves : Judged k (log.opens start.helloUse view) := h.proves rfl htag
  refine
    { release := h.release
      nonce_length := h.nonce_length
      live := fun _ ↦ ⟨?_, by simp, ?_⟩
      ordinal := ?_
      keyed := ?_
      once := hproves.once
      proved := hproves.proved
      heard := hproves.heard
      begun := ?_
      relayed := hproves.relayed
      nonces := ?_ }
  · simp [Log.current, Fate.core]
  · -- nothing was taken yet in a session of the new number
    have hnone : (log.opens start.helloUse view).countersIn (log.started.length + 1) = [] := by
      refine List.map_eq_nil_iff.2 (List.filter_eq_nil_iff.2 ?_)
      intro o ho
      have := hproves.ordinal o ho
      simp only [Log.opens, Log.hears] at this
      simp only [Bool.and_eq_true, decide_eq_true_eq, not_and]
      intro _
      omega
    show Recording AuthCounter.init ((log.opens start.helloUse view).countersIn
      (log.started ++ [start]).length)
    rw [List.length_append, List.length_singleton, hnone]
    exact recording_init
  · intro o ho
    have := hproves.ordinal o ho
    simp only [Log.opens, Log.hears] at this
    simp only [List.length_append, List.length_singleton]
    omega
  · intro o ho hin
    obtain ⟨older, hpos, holder, huse⟩ := hproves.keyed o ho hin
    refine ⟨older, hpos, ?_, huse⟩
    have hfound : log.started[o.session - 1]? = some older := holder
    have hlt := (List.getElem?_eq_some_iff.1 hfound).1
    show (log.started ++ [start])[o.session - 1]? = some older
    rw [List.getElem?_append_left hlt]
    exact hfound
  · have hlast : [view].Sublist [view] := List.Sublist.refl _
    simpa [Log.opens, Log.opening, hview] using h.begun.append hlast
  · simp only [Log.opens, Log.hears, h.nonces, hstaged, if_true, Fate.core, List.map_append,
      List.map_cons, List.map_nil, hnonce, Bool.false_eq_true, if_false, List.append_nil]

/-- A frame taken in the session extends the count its window records, and may be relayed. -/
theorem takes (h : Judged k log) (hpresent : k.present = true) (hopens : Opens k.kH2b k.rx view)
    {relayed : List Opening} (hrelayed : relayed.Sublist [log.opening log.current view]) :
    Judged (Fate.taken.core k view)
      { log.opens log.current view with relayed := log.relayed ++ relayed } := by
  obtain ⟨hkey, hstarted, hrecording⟩ := h.live hpresent
  obtain ⟨htag, hadmits⟩ := (opens_iff hrecording).1 hopens
  have hin := log.current_inSession view
  have hfilter : (log.opens log.current view).opened.filter Opening.inSession =
      log.opened.filter Opening.inSession ++ [log.opening log.current view] := by
    simp [Log.opens, hin]
  refine
    { release := h.release
      nonce_length := h.nonce_length
      live := fun _ ↦ ⟨hkey, hstarted, ?_⟩
      ordinal := h.ordinal_opens _ view
      keyed := ?_
      once := ?_
      proved := h.proved_opens (by rw [hkey]; exact htag)
      heard := h.heard_opens _ view
      begun := h.begun_opens _ view
      relayed := ?_
      nonces := h.nonces }
  · have hrecords := authOpen_recording k.kH2b view hrecording
    rw [if_pos hopens] at hrecords
    show Recording (authOpen k.kH2b view k.rx).2
      ((log.opens log.current view).countersIn log.started.length)
    rw [Log.countersIn_opens, hin]
    simpa using hrecords
  · intro o ho hino
    rcases List.mem_append.1 ho with hold | hnew
    · exact h.keyed o hold hino
    · cases List.mem_singleton.1 hnew
      have hlast := List.getLast?_eq_some_getLast hstarted
      refine ⟨_, List.length_pos_iff.2 hstarted, ?_, Log.current_eq hlast⟩
      show log.started[log.started.length - 1]? = _
      rw [← List.getLast?_eq_getElem?]
      exact hlast
  · rw [hfilter, List.map_append]
    apply List.Nodup.append h.once (by simp)
    intro pair hold hnew
    cases List.mem_singleton.1 hnew
    exact Log.not_mem_pairs hadmits.1 hold
  · show (log.relayed ++ relayed).Sublist _
    rw [hfilter]
    exact h.relayed.append hrelayed

/-- A nonce staged when there is none is the next one to be spent. -/
theorem stages (h : Judged k log) (hnone : k.nonceStaged = false) {nonce : List UInt8}
    (hlength : nonce.length ≤ nonceSize) :
    Judged { k with stagedNonce := nonce, nonceStaged := true }
      { log with nonces := log.nonces ++ [nonce] } :=
  { h with
    nonce_length := hlength
    nonces := by simp [h.nonces, hnone] }

end Judged

/-- A frame handed on keeps the account, whatever its fate. -/
theorem judged_frame (curve : P256) {c : Lifecycle} {log : Log} (h : Judged c.session.core log)
    (index : Nat) (view : FrameView) (now : UInt32) :
    Judged (c.onFrame curve index view now).session.core (log.frame c view now) := by
  have hrelease : c.session.buildType = .release := h.release
  rw [core_onFrame curve index hrelease h.nonce_length]
  unfold Log.frame
  cases hfate : fate c view now with
  | untaken => exact h.hears view
  | proves use =>
      have htakes : (fate c view now).TakesHello use := by rw [hfate]; exact rfl
      obtain ⟨htag, sharedSecret, helperNonce, huse⟩ := verifies_of_hello hrelease htakes
      exact h.proves huse htag
  | starts start =>
      have htakes : (fate c view now).TakesHello start.helloUse := by rw [hfate]; exact rfl
      obtain ⟨htag, -⟩ := verifies_of_hello hrelease htakes
      obtain ⟨hstaged, hnonce, hview⟩ := staged_of_starts hfate
      exact h.starts htag hstaged hnonce hview
  | taken =>
      obtain ⟨hpresent, hopens⟩ := opens_of_taken hrelease hfate
      refine h.takes hpresent hopens ?_
      split
      · exact List.Sublist.refl _
      · exact List.nil_sublist _

namespace Watched

/-- The log accounts for the board. -/
def Accounted (w : Watched) : Prop := Judged w.board.session.core w.log

theorem accounted_boot (curve : P256) (identity : Option (List UInt8))
    (registration : Option (List UInt8 × List UInt8)) :
    (boot curve identity registration).Accounted where
  release := rfl
  nonce_length := by
    show (List.replicate nonceSize (0 : UInt8)).length ≤ nonceSize
    simp
  live hpresent := by cases hpresent
  ordinal o ho := by cases ho
  keyed o ho := by cases ho
  once := List.nodup_nil
  proved o ho := by cases ho
  heard := List.Sublist.refl _
  begun := List.Sublist.refl _
  relayed := List.Sublist.refl _
  nonces := rfl

/-- Every event keeps the account. -/
theorem accounted_step (curve : P256) {w : Watched} (h : w.Accounted) (event : Event) :
    (w.step curve event).Accounted := by
  show Judged (w.board.step curve event).session.core (w.note event)
  rcases w.board.step_cases curve event with
    ⟨nonce, rfl⟩ | ⟨handing, hhanding, -, hstep⟩ | ⟨hhanding, hstaging, hmoves⟩
  · -- a nonce is staged, or one already is
    show Judged (w.board.stageNonce nonce).session.core (w.note (.stageNonce nonce))
    by_cases hstaged : w.board.session.nonceStaged = true
    · have hlog : w.note (.stageNonce nonce) = w.log := by
        simp [note, Lifecycle.handing, Lifecycle.staging, hstaged]
      rw [hlog, Lifecycle.stageNonce, if_pos hstaged]
      exact h
    · have hnone : w.board.session.nonceStaged = false := by simpa using hstaged
      have hlog : w.note (.stageNonce nonce) =
          { w.log with nonces := w.log.nonces ++ [nonce.take nonceSize] } := by
        simp [note, Lifecycle.handing, Lifecycle.staging, hnone]
      rw [hlog, Lifecycle.stageNonce, if_neg hstaged]
      exact Judged.stages h hnone (by simp [Session.stageNonce])
  · simp only [note, hhanding, hstep]
    have hsame : handing.channel.session = w.board.session := by
      rw [Lifecycle.handing_rest hhanding]
    exact judged_frame curve (by rw [hsame]; exact h) _ _ _
  · simp only [note, hhanding, hstaging, Option.toList_none, List.append_nil]
    rcases hmoves.core with hcore | hcore
    · rw [hcore]
      exact h
    · rw [hcore]
      exact Judged.drop h

end Watched

/-! ## What the queues hold -/

section Frame

variable {c : Lifecycle}

/-- Only a frame that is taken and relayed enters the relay queue. -/
theorem grows_relay (curve : P256) (hrelease : c.session.buildType = .release) (index : Nat)
    (view : FrameView) (now : UInt32) :
    Grows (if fate c view now = .taken ∧ relays c view = true then
        [(Lifecycle.shortened view).bytes] else [])
      c.relayTx.q (c.onFrame curve index view now).relayTx.q := by
  have hnone : ∀ added, c.relayTx.q.Grows added c.relayTx.q := fun added ↦
    (Grows.refl _).mono (by simp)
  unfold Lifecycle.onFrame
  by_cases hhere : Lifecycle.authenticatesHere view.type = true
  · have hhello : view.type ≠ Msg.hello := by
      intro h
      rw [h, not_authenticatesHere_hello] at hhere
      cases hhere
    rw [if_pos hhere]
    rcases authenticate_cases hrelease view now with ⟨-, -, hok, -⟩ | ⟨-, ⟨fault, herror⟩, -⟩
    · have hfate : fate c view now = .taken := by
        simp only [fate, hhello, if_false, hhere, true_or, if_true, hok]
      generalize hresult : c.session.authenticate view now = result at hok
      obtain ⟨outcome, session⟩ := result
      cases hok
      simp only
      by_cases hbulk : Msg.isBulk view.type = true
      · rw [if_pos hbulk]
        have hgrows := (Lifecycle.relayToPeer_spec { c with session := session } view index).2.2.2
        apply hgrows.mono
        intro frame hframe
        split at hframe
        · rename_i hoffered
          have hrelays : relays c view = true := by
            simp only [relays, hbulk, Bool.true_and, decide_eq_true_eq]
            exact hoffered
          rw [if_pos ⟨hfate, hrelays⟩]
          exact hframe
        · cases hframe
      · rw [if_neg hbulk]
        exact hnone _
    · generalize c.session.authenticate view now = result at herror
      obtain ⟨outcome, session⟩ := result
      cases herror
      exact hnone _
  · have hsession : Lifecycle.authenticatesHere view.type = false := by simpa using hhere
    rw [if_neg hhere, (c.channelOnFrame_spec curve view now hsession).2.1]
    exact hnone _

/-- A frame handed on adds the session layer's answer to the queues toward the helper. -/
theorem grows_replies (curve : P256) (index : Nat) (view : FrameView) (now : UInt32) :
    Grows (c.replies curve view now) c.out (c.onFrame curve index view now).out ∧
      Grows (c.replies curve view now) c.extraOut (c.onFrame curve index view now).extraOut := by
  unfold Lifecycle.onFrame
  by_cases hhere : Lifecycle.authenticatesHere view.type = true
  · have hnone : c.replies curve view now = [] := by
      rw [Lifecycle.replies, if_pos hhere]
    rw [if_pos hhere, hnone]
    split
    · exact ⟨.refl _, .refl _⟩
    · simp only
      split <;> exact ⟨.refl _, .refl _⟩
  · have hsession : Lifecycle.authenticatesHere view.type = false := by simpa using hhere
    rw [if_neg hhere]
    exact (c.channelOnFrame_spec curve view now hsession).2.2

end Frame

namespace Watched

/-- The queues are well formed, and what waits for the peer board was relayed. -/
structure Stocked (w : Watched) : Prop where
  out : w.board.out.WellFormed
  extraOut : w.board.extraOut.WellFormed
  relay : w.board.relayTx.q.WellFormed
  relayed : ∀ id, ∀ frame ∈ (w.board.relayTx.q.band id).frames,
    ∃ o ∈ w.log.relayed, frame = (Lifecycle.shortened o.view).bytes

theorem stocked_boot (curve : P256) (identity : Option (List UInt8))
    (registration : Option (List UInt8 × List UInt8)) :
    (boot curve identity registration).Stocked where
  out := wellFormed_reset _
  extraOut := wellFormed_reset _
  relay := wellFormed_reset _
  relayed id frame hframe := by
    rw [show ((boot curve identity registration).board.relayTx.q.band id).frames = [] by
      cases id <;> exact Band.frames_init _] at hframe
    cases hframe

/-- Every event keeps the queues stocked with what was relayed. -/
theorem stocked_step (curve : P256) {w : Watched} (haccounted : w.Accounted) (h : w.Stocked)
    (event : Event) : (w.step curve event).Stocked := by
  have hrelease : w.board.session.buildType = .release := haccounted.release
  rcases w.board.step_cases curve event with
    ⟨nonce, rfl⟩ | ⟨handing, hhanding, -, hstep⟩ | ⟨hhanding, hstaging, hmoves⟩
  · have hsame : ∀ c : Lifecycle, c = w.board.stageNonce nonce →
        c.out = w.board.out ∧ c.extraOut = w.board.extraOut ∧ c.relayTx = w.board.relayTx := by
      rintro c rfl
      unfold Lifecycle.stageNonce
      split <;> exact ⟨rfl, rfl, rfl⟩
    obtain ⟨hout, hextra, hrelay⟩ := hsame _ rfl
    refine ⟨?_, ?_, ?_, ?_⟩
    · exact hout ▸ h.out
    · exact hextra ▸ h.extraOut
    · exact hrelay ▸ h.relay
    · intro id frame hframe
      apply h.relayed id frame
      rw [← hrelay]
      exact hframe
  · obtain ⟨now, index, view, c⟩ := handing
    have hrest := Lifecycle.handing_rest hhanding
    simp only at hrest hstep
    -- a frame is handed on: it is answered, relayed or dropped
    have hsession : c.session = w.board.session := by rw [hrest]
    have hrelayTx : c.relayTx = w.board.relayTx := by rw [hrest]
    have hqueues : c.out = w.board.out ∧ c.extraOut = w.board.extraOut := by
      rw [hrest]
      exact ⟨rfl, rfl⟩
    obtain ⟨hout, hextra⟩ := grows_replies curve index view now (c := c)
    have hrelay := grows_relay curve (by rw [hsession]; exact hrelease) index view now (c := c)
    rw [hqueues.1] at hout
    rw [hqueues.2] at hextra
    rw [hrelayTx] at hrelay
    rw [← hstep] at hout hextra hrelay
    refine ⟨(hout h.out).1, (hextra h.extraOut).1, (hrelay h.relay).1, ?_⟩
    intro id frame hframe
    have hlog : (w.step curve event).log = w.log.frame c view now := by
      simp only [step, note, hhanding]
    rw [hlog]
    rcases (hrelay h.relay).2 id frame hframe with hold | hnew
    · obtain ⟨o, ho, rfl⟩ := h.relayed id frame hold
      refine ⟨o, ?_, rfl⟩
      unfold Log.frame
      cases fate c view now with
      | taken => exact List.mem_append_left _ ho
      | _ => exact ho
    · split at hnew
      · rename_i htaken
        cases List.mem_singleton.1 hnew
        refine ⟨w.log.opening w.log.current view, ?_, rfl⟩
        simp [Log.frame, htaken.1, htaken.2]
      · cases hnew
  · -- no frame is handed on, so nothing joins the relay
    obtain ⟨added, hout, -⟩ := hmoves.out
    obtain ⟨more, hextra, -⟩ := hmoves.extraOut
    have hlog : (w.step curve event).log = w.log := by
      simp [step, note, hhanding, hstaging]
    refine ⟨(hout h.out).1, (hextra h.extraOut).1, (hmoves.relay h.relay).1, ?_⟩
    intro id frame hframe
    rw [hlog]
    rcases (hmoves.relay h.relay).2 id frame hframe with hold | hnew
    · exact h.relayed id frame hold
    · cases hnew

/-- After every run the log accounts for the board and its queues. -/
theorem run_accounted (curve : P256) (identity : Option (List UInt8))
    (registration : Option (List UInt8 × List UInt8)) (events : List Event) :
    (run (step curve) (boot curve identity registration) events).Accounted ∧
      (run (step curve) (boot curve identity registration) events).Stocked :=
  run_invariant (fun w : Watched ↦ w.Accounted ∧ w.Stocked)
    ⟨accounted_boot curve identity registration, stocked_boot curve identity registration⟩
    (fun _ event h ↦ ⟨accounted_step curve h.1 event, stocked_step curve h.1 h.2 event⟩) events

end Watched

end DeskhopPlus.Board
