import DeskhopPlus.Helper.Moves

/-!
# A device that cannot be used

A refused acquisition reports nothing at first: the state is put off, and the tick tells it once
`silenceMs` have passed. `Waiting` is what decides when. A refusal puts a state off if none is put
off yet and otherwise changes nothing of it, so the deadline is the one of the first refusal,
however close together the retries are.
-/

namespace DeskhopPlus.Helper

open Bytes Wire Auth Crypto Board Runs

/-- What decides when a state that is put off is told. -/
structure Waiting where
  state : UserState
  phase : Phase
  configMode : Bool
  haveDeferred : Bool
  deferredState : UserState
  deferredAt : UInt32
  deriving DecidableEq, Repr

/-- What the machine has of it. -/
def waiting (h : Helper) : Waiting where
  state := h.state
  phase := h.phase
  configMode := h.configMode
  haveDeferred := h.haveDeferred
  deferredState := h.deferredState
  deferredAt := h.deferredAt

/-- The acquisition is refused. -/
def Waiting.refuse (w : Waiting) (now : UInt32) : Waiting :=
  if w.haveDeferred then { w with phase := .idle }
  else
    { w with
      phase := .idle
      haveDeferred := true
      deferredState := if w.configMode then .deviceInConfigMode else .deviceAbsent
      deferredAt := now }

/-- A refusal that follows another changes nothing. -/
theorem Waiting.refuse_refuse (w : Waiting) (first now : UInt32) :
    (w.refuse first).refuse now = w.refuse first := by
  unfold refuse
  cases hdeferred : w.haveDeferred with
  | true => simp
  | false => simp

/-- Whatever the phase was. -/
theorem Waiting.refuse_phase (w : Waiting) (phase : Phase) (now : UInt32) :
    ({ w with phase := phase } : Waiting).refuse now = w.refuse now := rfl

theorem waiting_noteStarted (h : Helper) (now : UInt32) :
    (h.noteStarted now).waiting = h.waiting := by
  unfold noteStarted
  split <;> rfl

/-- An input that finds the device cannot be used: a refused acquisition, or one with a board's key
pinned whose hello cannot be built. -/
def Refuses (identity : Identity) (h : Helper) : Event → Prop
  | .acquisitionRefused _ _ => True
  | .channelsAcquired _ draw =>
      h.haveBoardKey = true ∧ (Turn.buildHello identity { h := h } draw).1 = none
  | _ => False

namespace Turn

variable (t : Turn) (identity : Identity)

@[simp] theorem waiting_put (item : Output) : (t.put item).h.waiting = t.h.waiting := by
  rw [put_h]

theorem waiting_acquisitionRefused (acquired total : UInt8) (now : UInt32) :
    (t.acquisitionRefused acquired total now).h.waiting = t.h.waiting.refuse now := by
  have hstarted := waiting_noteStarted t.h now
  generalize hh : t.h.noteStarted now = h at hstarted
  have hrefused : (t.acquisitionRefused acquired total now).h.waiting =
      (if h.haveDeferred then { h.forgetSession with holdingChannels := false }
        else ({ h.forgetSession with holdingChannels := false } : Helper).defer
          h.absentState now : Helper).waiting := by
    unfold acquisitionRefused
    rw [hh]
    dsimp only
    split
    all_goals
      show (put _ _).h.waiting = _
      rw [waiting_put]
      show (put _ _).h.waiting = _
      rw [waiting_put]
      show (put _ _).h.waiting = _
      rw [waiting_put]
      rfl
  rw [hrefused, ← hstarted]
  unfold Waiting.refuse
  show _ = if h.haveDeferred then _ else _
  split <;> rfl

/-- Building a hello leaves it alone. -/
theorem waiting_buildHello (draw : Draw) :
    (t.buildHello identity draw).2.h.waiting = t.h.waiting := by
  unfold buildHello
  dsimp only
  split
  · exact waiting_put _ _
  · split
    · exact waiting_put _ _
    · rfl

/-- Whether a hello can be built is up to the board's key and the mode. -/
theorem buildHello_congr {t t' : Turn} (hkey : t'.h.boardPublicKey = t.h.boardPublicKey)
    (hmode : t'.h.configMode = t.h.configMode) (draw : Draw) :
    (t'.buildHello identity draw).1 = (t.buildHello identity draw).1 := by
  obtain ⟨-, hbuilt⟩ := buildHello_cases t identity draw
  obtain ⟨-, hbuilt'⟩ := buildHello_cases t' identity draw
  rw [hkey, hmode] at hbuilt'
  rcases hbuilt with ⟨hnone, hfails⟩ | ⟨shared, hsome, hbody, -⟩
  · rcases hbuilt' with ⟨-, hfails'⟩ | ⟨shared', hsome', -⟩
    · rw [hfails, hfails']
    · rw [hnone] at hsome'
      cases hsome'
  · rcases hbuilt' with ⟨hnone', -⟩ | ⟨shared', hsome', hbody', -⟩
    · rw [hnone'] at hsome
      cases hsome
    · rw [hsome] at hsome'
      cases hsome'
      rw [hbody, hbody']

/-- An idle machine does nothing on a tick but tell what was put off. -/
theorem tick_idle (draw : Draw) (now : UInt32) (hidle : t.h.phase = .idle) :
    ∃ h : Helper, h.waiting = t.h.waiting ∧
      t.tick identity draw now = { t with h := h }.tickDeferred now := by
  unfold tick
  extract_lets started calm woken deferred source sampled beaten
  have hwoken : woken.waiting = t.h.waiting := by
    have hcalm : calm.waiting = started.waiting := by
      show (if _ then _ else _ : Helper).waiting = _
      split <;> rfl
    have hwoke : woken.waiting = calm.waiting := by
      show (if _ then _ else _ : Helper).waiting = _
      split <;> rfl
    rw [hwoke, hcalm]
    exact waiting_noteStarted t.h now
  have hphase : deferred.h.phase = .idle := by
    have hcore := (still_tickDeferred { t with h := woken } now).core
    exact (congrArg Core.phase hcore).trans ((congrArg Waiting.phase hwoken).trans hidle)
  refine ⟨woken, hwoken, ?_⟩
  rw [if_neg (by rw [hphase]; decide), if_pos (by rw [hphase]; decide)]

/-- A state that is set first is the only output, unless it was shown already. -/
theorem setState_first (hnothing : t.o = {}) (next : UserState) :
    (t.setState next).h.state = next ∧ (t.setState next).h.haveDeferred = t.h.haveDeferred ∧
      (t.setState next).o.items = if t.h.state = next then [] else [.state next] := by
  unfold setState
  split
  · rename_i hsame
    exact ⟨hsame, rfl, congrArg Outputs.items hnothing⟩
  · unfold put
    rw [hnothing]
    exact ⟨rfl, rfl, rfl⟩

/-- Before its time, what was put off stays so. -/
theorem tickDeferred_early {now : UInt32} (hdeferred : t.h.haveDeferred = true)
    (hearly : now - t.h.deferredAt < silenceMs) : t.tickDeferred now = t := by
  unfold tickDeferred
  rw [if_pos hdeferred, if_neg]
  simp only [elapsed, decide_eq_true_eq]
  exact UInt32.not_le.2 hearly

/-- At its time it is told, unless it is what is shown. -/
theorem tickDeferred_due {now : UInt32} (hdeferred : t.h.haveDeferred = true)
    (hdue : silenceMs ≤ now - t.h.deferredAt) :
    t.tickDeferred now =
      { t with h := { t.h with haveDeferred := false } }.setState t.h.deferredState := by
  unfold tickDeferred
  rw [if_pos hdeferred, if_pos]
  simpa only [elapsed, decide_eq_true_eq] using hdue

end Turn

/-- Every refusal does the same to what is put off. -/
theorem waiting_refuses {identity : Identity} {h : Helper} {event : Event}
    (hrefuses : Refuses identity h event) (now : UInt32) :
    (h.handle identity now event).h.waiting = h.waiting.refuse now := by
  cases event with
  | acquisitionRefused acquired total => exact Turn.waiting_acquisitionRefused ..
  | channelsAcquired count draw =>
      obtain ⟨hkey, hnone⟩ := hrefuses
      have hstarted := waiting_noteStarted { h.forgetSession with acquiredChannels := count } now
      have hcore := core_noteStarted { h.forgetSession with acquiredChannels := count } now
      show (Turn.channelsAcquired identity { h := h } count draw now).h.waiting = _
      unfold Turn.channelsAcquired
      extract_lets forgotten started holding source asking hoping
      have hpinned : holding.haveBoardKey = h.haveBoardKey := congrArg Core.haveBoardKey hcore
      have hpublic : hoping.boardPublicKey = h.boardPublicKey := congrArg Core.boardPublicKey hcore
      have hmode : hoping.configMode = h.configMode := congrArg Waiting.configMode hstarted
      have hhoping : hoping.waiting = { h.waiting with phase := .awaitingAck } := by
        show { started.waiting with phase := .awaitingAck } = _
        rw [hstarted]
        rfl
      rw [if_neg (by rw [hpinned, hkey]; decide)]
      have hsame := @Turn.buildHello_congr identity { h := h } { h := hoping } hpublic hmode draw
      have hleft := Turn.waiting_buildHello { h := hoping } identity draw
      rw [hnone] at hsame
      split
      · rename_i t' hresult
        rw [hresult] at hleft
        rw [Turn.waiting_acquisitionRefused, hleft, hhoping, Waiting.refuse_phase]
      · rename_i bytes t' hresult
        rw [hresult] at hsame
        cases hsame
  | _ => cases hrefuses

/-- What follows a refusal while its state is put off: more refusals, and the ticks before the
time. -/
def Follows (identity : Identity) (first : UInt32) (h : Helper) : Call → Prop
  | .input now event =>
      Refuses identity h event ∨ ∃ draw, event = .tick draw ∧ now - first < silenceMs
  | .emit .. => False

/-- A first refusal puts the state off, and nothing that follows changes when it is told. -/
theorem waiting_follows {identity : Identity} {h : Helper} {first : UInt32} {refusal : Event}
    (hdeferred : h.haveDeferred = false) (hrefuses : Refuses identity h refusal)
    {calls : List Call}
    (hfollows : Along (call identity) (Follows identity first)
      (h.call identity (.input first refusal)) calls) :
    (run (call identity) (h.call identity (.input first refusal)) calls).waiting =
      { state := h.state, phase := .idle, configMode := h.configMode, haveDeferred := true,
        deferredState := h.absentState, deferredAt := first } := by
  have hrefused : h.waiting.refuse first =
      { state := h.state, phase := .idle, configMode := h.configMode, haveDeferred := true,
        deferredState := h.absentState, deferredAt := first } := by
    unfold Waiting.refuse
    rw [if_neg (by rw [show h.waiting.haveDeferred = false from hdeferred]; decide)]
    rfl
  rw [← hrefused]
  refine run_invariant_along (fun later : Helper ↦ later.waiting = h.waiting.refuse first)
    (waiting_refuses hrefuses first) ?_ hfollows
  rintro later (⟨now, event⟩ | _) hlater hcall
  · rcases hcall with hagain | ⟨draw, rfl, hearly⟩
    · rw [← Waiting.refuse_refuse h.waiting first now, ← hlater]
      exact waiting_refuses hagain now
    · rw [hrefused] at hlater ⊢
      obtain ⟨h', hsame, htick⟩ := Turn.tick_idle { h := later } identity draw now
        (congrArg Waiting.phase hlater)
      rw [hlater] at hsame
      show (Turn.tick identity { h := later } draw now).h.waiting = _
      rw [htick, Turn.tickDeferred_early { h := h' } (congrArg Waiting.haveDeferred hsame)]
      · exact hsame
      · rw [show h'.deferredAt = first from congrArg Waiting.deferredAt hsame]
        exact hearly
  · cases hcall

/-- In every state, what an input puts out fits its slots. And where no state is put off, an
acquisition is refused, and only refusals and ticks follow it, the first tick at or after
`silenceMs` leaves the state of the unusable device shown, and puts it out unless it was shown
already. -/
theorem outputs_fit_and_refusals_told (identity : Identity) (h : Helper) :
    (∀ now event, (h.handle identity now event).o.items.length ≤ outputsMax ∧
        (h.handle identity now event).o.overflow = 0) ∧
      ∀ first refusal calls, h.haveDeferred = false → Refuses identity h refusal →
        Along (call identity) (Follows identity first) (h.call identity (.input first refusal))
          calls →
        ∀ now draw, silenceMs ≤ now - first →
          let told := (run (call identity) (h.call identity (.input first refusal)) calls).handle
            identity now (.tick draw)
          told.h.state = h.absentState ∧ told.h.haveDeferred = false ∧
            told.o.items = if h.state = h.absentState then [] else [.state h.absentState] := by
  refine ⟨handle_fits identity h, ?_⟩
  intro first refusal calls hdeferred hrefuses hfollows now draw hdue told
  have hwaiting := waiting_follows hdeferred hrefuses hfollows
  obtain ⟨h', hsame, htick⟩ := Turn.tick_idle
    { h := run (call identity) (h.call identity (.input first refusal)) calls } identity draw now
    (congrArg Waiting.phase hwaiting)
  rw [hwaiting] at hsame
  have hput : h'.haveDeferred = true := congrArg Waiting.haveDeferred hsame
  have hstate : h'.deferredState = h.absentState := congrArg Waiting.deferredState hsame
  have hshown : h'.state = h.state := congrArg Waiting.state hsame
  have hsince : h'.deferredAt = first := congrArg Waiting.deferredAt hsame
  have htold :
      told = ({ h := { h' with haveDeferred := false } } : Turn).setState h.absentState := by
    show Turn.tick identity _ draw now = _
    have hdue : silenceMs ≤ now - h'.deferredAt := by rwa [hsince]
    rw [htick, Turn.tickDeferred_due { h := h' } hput hdue]
    exact congrArg (Turn.setState _) hstate
  rw [htold, ← hshown]
  exact Turn.setState_first { h := { h' with haveDeferred := false } } rfl h.absentState

theorem brokenPublicKey_length : (List.replicate publicSize (0x01 : UInt8)).length = publicSize :=
  rfl

theorem brokenKeyId_length : (List.replicate keyIdSize (0x11 : UInt8)).length = keyIdSize := rfl

theorem brokenNonce_length : (List.replicate nonceSize (0x33 : UInt8)).length = nonceSize := rfl

/-- An identity whose exchange with the board's key fails. -/
def brokenIdentity : Identity where
  publicKey := List.replicate publicSize 0x01
  keyId := List.replicate keyIdSize 0x11
  os := 1
  buildType := 0
  ecdh := fun _ ↦ none
  publicKey_length := brokenPublicKey_length
  keyId_length := brokenKeyId_length

def brokenDraw : Draw where
  nonce := List.replicate nonceSize 0x33
  helloCorrelation := 7
  pairCorrelation := 8
  nonce_length := brokenNonce_length

/-- A device has appeared, to a helper with a key pinned. -/
def brokenStart : Helper :=
  run (call brokenIdentity) (init (some (List.replicate publicSize 0x02)))
    [.input 4294966000 (.deviceAppeared .normal)]

/-- Retries closer together than the deadline, over the wrap of the clock. -/
def brokenRetries : List Call :=
  [.input 4294967250 (.channelsAcquired 2 brokenDraw), .input 200 (.tick brokenDraw),
   .input 1700 (.acquisitionRefused 1 2), .input 4000 (.acquisitionRefused 0 2),
   .input 4500 (.tick brokenDraw)]

/-- A refusal that was put off is told at the tick it is due, although retries come between. -/
theorem outputs_fit_and_refusals_told_retries :
    ((run (call brokenIdentity) (brokenStart.call brokenIdentity
      (.input 4294967000 (.acquisitionRefused 0 2))) brokenRetries).handle brokenIdentity 4704
        (.tick brokenDraw)).o.items = [.state .deviceAbsent] := by
  have hfollows : Along (call brokenIdentity) (Follows brokenIdentity 4294967000)
      (brokenStart.call brokenIdentity (.input 4294967000 (.acquisitionRefused 0 2)))
      brokenRetries :=
    ⟨.inl ⟨rfl, rfl⟩, .inr ⟨brokenDraw, rfl, by decide⟩, .inl trivial, .inl trivial,
      .inr ⟨brokenDraw, rfl, by decide⟩, trivial⟩
  exact ((outputs_fit_and_refusals_told brokenIdentity brokenStart).2 4294967000
    (.acquisitionRefused 0 2) brokenRetries (by decide) trivial hfollows 4704 brokenDraw
    (by decide)).2.2

/-- A device that was never there is reported absent; when an acquisition is refused after that, the
state put off is the one shown, and no tick puts it out again. -/
theorem shown_already_goes_unreported :
    ∃ h : Helper, Reachable brokenIdentity h ∧ h.haveDeferred = false ∧
      Refuses brokenIdentity h (.acquisitionRefused 0 2) ∧
      silenceMs ≤ (11000 : UInt32) - 6000 ∧
      let refused := h.call brokenIdentity (.input 6000 (.acquisitionRefused 0 2))
      refused.haveDeferred = true ∧
        .state refused.deferredState ∉
          (refused.handle brokenIdentity 11000 (.tick brokenDraw)).o.items := by
  refine ⟨run (call brokenIdentity) (init none) [.input 0 (.tick brokenDraw),
    .input 5000 (.tick brokenDraw)], ⟨none, _, rfl⟩, by decide, trivial, by decide, ?_⟩
  decide

end DeskhopPlus.Helper
