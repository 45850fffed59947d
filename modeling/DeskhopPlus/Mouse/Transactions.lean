import DeskhopPlus.Mouse.Screens
import DeskhopPlus.Library.Clock

/-!
# A crossing as a transaction

A crossing that pends holds the mouse until it is answered or given up. Its record is shared by two
cores, and one pass of the task lets go of it while a query is sent. What one event may do to the
record, and from it: which answers are taken (`late_answer_inert`), that the mouse stands still
meanwhile (`still_run`), and when the crossing is over (`crossing_retires`).
-/

namespace DeskhopPlus.Mouse

namespace Device

/-- A crossing pends. -/
def Pending (s : Device) : Prop := s.crossing.phase ≠ .idle

instance (s : Device) : Decidable s.Pending := inferInstanceAs (Decidable (_ ≠ _))

/-- What a crossing that pends is about: the last query that was made, and a cursor that is asked
for on Windows only. -/
structure Transacts (s : Device) : Prop extends Fits s where
  own : s.Pending → s.crossing.queryId = s.nextCursorQueryId ∧ s.crossing.queryId ≠ 0
  asked : s.Pending → s.crossing.kind ≠ .macosPlacement →
    (s.output s.crossing.output).os = .windows

/-! ## What is heard -/

/-- The phase a crossing is left in by what is heard: another one only if it waited, and then an
answer. -/
def Answered (phase phase' : Phase) : Prop :=
  phase' = phase ∨ (phase = .waiting ∧ phase' ≠ .waiting ∧ phase' ≠ .idle)

/-- A phase that is answered once stays so. -/
theorem Answered.trans {phase phase' phase'' : Phase} (h : Answered phase phase')
    (h' : Answered phase' phase'') : Answered phase phase'' := by
  rcases h with rfl | ⟨hwaited, hanswer, hpends⟩
  · exact h'
  · rcases h' with rfl | ⟨hwaited', -, -⟩
    · exact .inr ⟨hwaited, hanswer, hpends⟩
    · exact absurd hwaited' hanswer

/-- What is heard leaves the rest of the record as it is, and the queries. -/
structure Hears (s s' : Device) : Prop where
  crossing : s'.crossing = { s.crossing with phase := s'.crossing.phase }
  phase : Answered s.crossing.phase s'.crossing.phase
  next : s'.nextCursorQueryId = s.nextCursorQueryId
  os : ∀ n, (s'.output n).os = (s.output n).os
  /-- Nothing moves as long as the crossing waits. -/
  still : s.crossing.phase = .waiting → s'.crossing.phase = .waiting → s' = s

variable {s s' s'' : Device}

/-- Nothing is heard. -/
theorem Hears.refl (s : Device) : Hears s s := ⟨rfl, .inl rfl, rfl, fun _ ↦ rfl, fun _ _ ↦ rfl⟩

/-- Two notices, one after the other. -/
theorem Hears.trans (h : Hears s s') (h' : Hears s' s'') : Hears s s'' where
  crossing := by rw [h'.crossing, h.crossing]
  phase := h.phase.trans h'.phase
  next := h'.next.trans h.next
  os := fun n ↦ (h'.os n).trans (h.os n)
  still := by
    intro hwaits hwaits''
    rcases h'.phase with hsame | ⟨hwaits', -, -⟩
    · have hstill := h.still hwaits (hsame ▸ hwaits'')
      exact (h'.still (hsame ▸ hwaits'') hwaits'').trans hstill
    · exact (h'.still hwaits' hwaits'').trans (h.still hwaits hwaits')

/-- A readback that fits a waiting crossing answers it. -/
theorem readPhase_answers {output : Nat} (screen : Nat) (at_ : Coordinates)
    (hown : s.crossing.phase = .waiting → s.crossing.output = output) :
    Answered s.crossing.phase (s.readPhase output screen at_) ∧
      (s.crossing.phase = .waiting → s.readPhase output screen at_ ≠ .waiting) := by
  unfold readPhase
  by_cases hwaiting : s.crossing.phase = .waiting
  · rw [if_pos ⟨hwaiting, hown hwaiting⟩, hwaiting]
    split
    · exact ⟨.inr ⟨rfl, by simp, by simp⟩, by simp⟩
    · exact ⟨.inr ⟨rfl, by simp, by simp⟩, by simp⟩
  · rw [if_neg fun h ↦ hwaiting h.1]
    exact ⟨.inl rfl, fun h ↦ absurd h hwaiting⟩

/-- Only a readback of the output that is asked is taken while a crossing waits. -/
theorem own_of_taken {output screen : Nat} {at_ : Coordinates} {queryId : UInt8}
    (htaken : ¬s.refuses output screen at_ queryId = true)
    (hwaiting : s.crossing.phase = .waiting) :
    s.crossing.output = output ∧ s.crossing.queryId = queryId := by
  rw [Bool.not_eq_true] at htaken
  simp only [refuses, hwaiting, Bool.or_eq_false_iff, Bool.and_eq_false_iff, decide_true,
    decide_eq_false_iff_not, Bool.true_eq_false, false_or, ne_eq, not_not] at htaken
  exact ⟨htaken.1.1.1.2.1.2, htaken.1.1.1.2.2⟩

/-- A position is taken: the screen is selected, the pointer put, and the crossing answered. -/
theorem hears_taken (hsteers : Steers s s') (at_ : Coordinates) {phase : Phase}
    (hanswered : Answered s.crossing.phase phase)
    (hanswer : s.crossing.phase = .waiting → phase ≠ .waiting) :
    Hears s { s' with
      pointerX := at_.x, pointerY := at_.y, crossing := { s'.crossing with phase := phase } } where
  crossing := by rw [show s'.crossing = s.crossing from hsteers.crossing]
  phase := hanswered
  next := hsteers.nextCursorQueryId
  os := hsteers.os
  still := fun hwaiting hwaits ↦ absurd hwaits (hanswer hwaiting)

/-- A position that is read back answers the query at most. -/
theorem hears_readback (s : Device) (output screen : Nat) (at_ : Coordinates) (queryId : UInt8) :
    Hears s (s.applyHelperCursorPosition output screen at_ queryId).1 := by
  unfold applyHelperCursorPosition
  split
  · exact Hears.refl s
  next htaken =>
    have hsteers := steers_selectCursorScreen s output screen
    rcases selectCursorScreen_cases s output screen with hrefused | ⟨-, -, -, hselected⟩
    · rw [hrefused]
      exact Hears.refl s
    · rw [hselected] at hsteers ⊢
      generalize ({ s with
        output := fun n ↦ { s.output n with
          screenIndex := if n = output then screen else (s.output n).screenIndex }
        relativeMouse := decide ((s.output output).os = .windows) && decide (1 < screen) } :
        Device) = s' at hsteers ⊢
      -- the readback is judged once the screen is selected, by the same record
      have hown : s'.crossing.phase = .waiting → s'.crossing.output = output := by
        intro hwaiting
        rw [show s'.crossing = s.crossing from hsteers.crossing] at hwaiting ⊢
        exact (own_of_taken htaken hwaiting).1
      have hread :=
        @readPhase_answers { s' with pointerX := at_.x, pointerY := at_.y } output screen
        at_ hown
      have hanswered := hread.1
      have hanswer := hread.2
      rw [show s'.crossing.phase = s.crossing.phase from congrArg _ hsteers.crossing]
        at hanswered hanswer
      exact hears_taken hsteers at_ hanswered hanswer

/-- So does the notice that there is no answer. -/
theorem hears_unavailable (s : Device) (output : Nat) (queryId : UInt8) :
    Hears s (s.queryUnavailable output queryId) := by
  unfold queryUnavailable
  split
  next hown =>
    refine ⟨rfl, .inr ⟨hown.1, by simp, by simp⟩, rfl, fun _ ↦ rfl, fun _ hwaits ↦ ?_⟩
    exact absurd hwaits (by simp)
  next => exact Hears.refl s

/-- So does every notice. -/
theorem hears_hear (s : Device) (notice : Notice) : Hears s (s.hear notice) := by
  cases notice with
  | readback output screen x y queryId => exact hears_readback ..
  | unavailable output queryId => exact hears_unavailable ..

/-- So do several notices. -/
theorem hears_hearAll (s : Device) (notices : List Notice) : Hears s (s.hearAll notices) := by
  induction notices generalizing s with
  | nil => exact Hears.refl s
  | cons notice rest ih => exact (hears_hear s notice).trans (ih _)

/-- What is heard neither begins nor ends a crossing. -/
theorem Hears.pending (h : Hears s s') : s'.Pending ↔ s.Pending := by
  unfold Pending
  rcases h.phase with hsame | ⟨hwaiting, -, hpends⟩
  · rw [hsame]
  · rw [hwaiting]
    exact ⟨fun _ ↦ by simp, fun _ ↦ hpends⟩

/-- Notices keep the transaction. -/
theorem Transacts.hears (h : Transacts s) (hfits : Fits s') (hhears : Hears s s') :
    Transacts s' where
  toFits := hfits
  own := by
    intro hpending
    rw [hhears.crossing, hhears.next]
    exact h.own (hhears.pending.1 hpending)
  asked := by
    intro hpending hkind
    rw [hhears.crossing] at hkind ⊢
    rw [hhears.os]
    exact h.asked (hhears.pending.1 hpending) hkind

/-! ## How a crossing begins -/

/-- No query has the id zero. -/
theorem nextQueryId_ne_zero (s : Device) : s.nextQueryId ≠ 0 := by
  unfold nextQueryId
  split
  · decide
  · assumption

/-- At most one query was made, and a crossing that pends now is about it. -/
structure Opens (s : Device) (nowUs : UInt32) (s' : Device) : Prop where
  next : s'.nextCursorQueryId = s.nextCursorQueryId ∨ s'.nextCursorQueryId = s.nextQueryId
  os : ∀ n, (s'.output n).os = (s.output n).os
  query : s'.Pending → s'.nextCursorQueryId = s.nextQueryId ∧ s'.crossing.queryId = s.nextQueryId
  started : s'.Pending → s'.crossing.startedUs = nowUs
  asked : s'.Pending → s'.crossing.kind ≠ .macosPlacement →
    (s'.output s'.crossing.output).os = .windows

variable {nowUs : UInt32}

/-- A crossing that is opened may be steered on. -/
theorem Opens.steers (h : Opens s nowUs s') (hsteers : Steers s' s'') : Opens s nowUs s'' where
  next := by rw [hsteers.nextCursorQueryId]; exact h.next
  os := fun n ↦ (hsteers.os n).trans (h.os n)
  query := by
    unfold Pending
    rw [hsteers.crossing, hsteers.nextCursorQueryId]
    exact h.query
  started := by
    unfold Pending
    rw [hsteers.crossing]
    exact h.started
  asked := by
    unfold Pending
    rw [hsteers.crossing, hsteers.os]
    exact h.asked

/-- No crossing is opened. -/
theorem Opens.of_idle (hidle : s.crossing.phase = .idle) : Opens s nowUs s where
  next := .inl rfl
  os := fun _ ↦ rfl
  query := fun hpending ↦ absurd hidle hpending
  started := fun hpending ↦ absurd hidle hpending
  asked := fun hpending ↦ absurd hidle hpending

/-- A crossing that is opened may be given up at once. -/
theorem Opens.cleared (h : Opens s nowUs s') : Opens s nowUs s'.clearCrossing where
  next := h.next
  os := h.os
  query := fun hpending ↦ absurd rfl hpending
  started := fun hpending ↦ absurd rfl hpending
  asked := fun hpending ↦ absurd rfl hpending

/-- Whether its query was sent is of no account. -/
theorem Opens.sent (h : Opens s nowUs s') (sent : Bool) :
    Opens s nowUs { s' with crossing := { s'.crossing with querySent := sent } } :=
  ⟨h.next, h.os, h.query, h.started, h.asked⟩

/-- A crossing waits for a new query, and what the other core publishes while the lock is free. -/
theorem opens_wait (kind : Kind) (direction : Direction) (targetScreen targetPosition : Nat)
    (notices : List Notice) (hasked : kind ≠ .macosPlacement → s.current.os = .windows) :
    Opens s nowUs ((s.wait kind direction targetScreen targetPosition nowUs).hearAll notices) := by
  have hhears := hears_hearAll (s.wait kind direction targetScreen targetPosition nowUs) notices
  have hrecord := hhears.crossing
  refine ⟨.inr hhears.next, hhears.os, fun _ ↦ ⟨hhears.next, ?_⟩, fun _ ↦ ?_, fun _ hkind ↦ ?_⟩
  · rw [hrecord]
    rfl
  · rw [hrecord]
    rfl
  · rw [hhears.os, hrecord]
    rw [hrecord] at hkind
    exact hasked hkind

/-- A query for the cursor opens a crossing on Windows. -/
theorem opens_querySourceCursor (direction : Direction) (kind : Kind) (channel : Channel)
    (hasked : s.current.os = .windows) :
    Opens s channel.nowUs (s.querySourceCursor direction kind channel).1 := by
  have hopens : Opens s channel.nowUs _ := opens_wait kind direction s.current.screenIndex 0
    channel.between (fun _ ↦ hasked)
  unfold querySourceCursor
  dsimp only
  split
  · dsimp only
    split
    · exact hopens.sent true
    · exact hopens
  · exact hopens
  · dsimp only
    split
    · exact hopens.cleared
    · exact hopens

/-- The mouse crosses at once, or after one query. -/
theorem opens_crossScreen (h : Fits s) (hidle : s.crossing.phase = .idle) (direction : Direction)
    (resolved : Bool) (channel : Channel) :
    Opens s channel.nowUs (s.crossScreen direction resolved channel) := by
  unfold crossScreen
  split
  · exact Opens.of_idle hidle
  · split
    next hask =>
      have hopens := opens_querySourceCursor direction .sourceReanchor channel (h.windows hask.1)
      generalize s.querySourceCursor direction .sourceReanchor channel = result at hopens ⊢
      obtain ⟨s', pending⟩ := result
      dsimp only at hopens ⊢
      split
      · exact hopens
      · exact hopens.steers (keeps_crossOutput ..).steers
    next => exact (Opens.of_idle hidle).steers (keeps_crossOutput ..).steers
  · dsimp only
    split
    next hask =>
      have hopens := opens_querySourceCursor direction .chainReanchor channel hask.1
      generalize s.querySourceCursor direction .chainReanchor channel = result at hopens ⊢
      obtain ⟨s', pending⟩ := result
      dsimp only at hopens ⊢
      split
      · exact hopens
      · exact hopens.steers (keeps_switchVirtualDesktop ..).steers
    next =>
      split
      · -- a Mac is told where to put the cursor, and the crossing waits to hear that it is there
        have hopens : Opens s channel.nowUs _ := opens_wait .macosPlacement direction
          (nextScreenIndex (s.actionableTransitionFor direction s.mouseButtons)
            (s.output s.activeOutput).screenIndex)
          (normalized (alongSeam direction s.pointer)) channel.between
            (fun hkind ↦ absurd rfl hkind)
        split
        · exact hopens
        · split
          · exact hopens.cleared.steers (keeps_switchVirtualDesktop ..).steers
          · exact hopens.steers (keeps_switchVirtualDesktop ..).steers
      · exact (Opens.of_idle hidle).steers (keeps_switchVirtualDesktop ..).steers

/-- A crossing of which the source is settled begins no other on Windows. -/
theorem crossing_resolved (hos : s.current.os = .windows) (direction : Direction)
    (channel : Channel) : Steers s (s.crossScreen direction true channel) := by
  unfold crossScreen
  split
  · exact Steers.refl s
  · rw [if_neg (by simp)]
    exact (keeps_crossOutput ..).steers
  · dsimp only
    rw [if_neg (by simp), if_neg (by rw [show (s.output s.activeOutput).os = _ from hos]; simp)]
    exact (keeps_switchVirtualDesktop ..).steers

/-! ## How a pass leaves it -/

/-- A crossing is completed only when it is answered, or has waited too long, and then it is over:
the record is cleared before the screen is crossed, and Windows is not asked twice. -/
theorem completes (h : Transacts s) (hpending : s.Pending)
    (hactive : s.activeOutput = s.crossing.output) (nowUs : UInt32) (channel : Channel) :
    (s.completeCrossing nowUs channel = s ∧ s.crossing.phase = .waiting ∧
        nowUs - s.crossing.startedUs < reanchorTimeoutUs) ∨
      Steers s.clearCrossing (s.completeCrossing nowUs channel) := by
  unfold completeCrossing
  dsimp only
  split_ifs with hwaits hplaced hgiven hmac
  · refine .inl ⟨rfl, hwaits.1, UInt32.not_le.1 ?_⟩
    have hearly := hwaits.2
    rwa [hwaits.1, decide_eq_true rfl, Bool.true_and, decide_eq_false_iff_not] at hearly
  · exact .inr (Steers.refl _)
  · exact .inr (Steers.refl _)
  · exact .inr (keeps_switchVirtualDesktop ..).steers
  · refine .inr (crossing_resolved ?_ ..)
    have hos := h.asked hpending hmac
    rw [← hactive] at hos
    exact hos

/-- What a pass of the task leaves of a crossing that pends. -/
inductive Passes (nowUs : UInt32) (s s' : Device) : Prop where
  /-- It is over. -/
  | ended (steers : Steers s.clearCrossing s')
  /-- It was answered while its query was to be sent again, and the next pass completes it. -/
  | answered (unsent : s.reanchors ∧ s.crossing.querySent = false) (hears : Hears s s')
      (answer : s'.crossing.phase ≠ .waiting)
  /-- Its query is sent, and it starts over. -/
  | sent (unsent : s.reanchors ∧ s.crossing.querySent = false)
      (started : s' = { s with
        crossing := { s.crossing with querySent := true, startedUs := nowUs } })
  /-- It waits on. -/
  | waits (same : s' = s) (waiting : s.crossing.phase = .waiting)
      (early : nowUs - s.crossing.startedUs < reanchorTimeoutUs)

/-- A pass may complete the crossing. -/
theorem Passes.of_completes (h : Transacts s) (hpending : s.Pending)
    (hactive : s.activeOutput = s.crossing.output) (nowUs : UInt32) (channel : Channel) :
    Passes nowUs s (s.completeCrossing nowUs channel) := by
  rcases completes h hpending hactive nowUs channel with ⟨hsame, hwaiting, hearly⟩ | hover
  · exact .waits hsame hwaiting hearly
  · exact .ended hover

/-- A pass may send the query once more. -/
theorem passes_retryQuery (h : Transacts s) (hunsent : s.reanchors ∧ s.crossing.querySent = false)
    (hactive : s.activeOutput = s.crossing.output) (nowUs : UInt32) (result : QueryResult)
    (channel : Channel) :
    Passes nowUs s ((s.retryQuery nowUs result).completeCrossing nowUs channel) := by
  have hpending : s.Pending := by
    unfold Pending
    rw [hunsent.1.1]
    simp
  cases result with
  | retry => exact .of_completes h hpending hactive nowUs channel
  | sent =>
      -- it has waited no time since it was sent
      refine .sent hunsent ?_
      unfold completeCrossing
      refine if_pos ⟨hunsent.1.1, ?_⟩
      show (_ && decide (reanchorTimeoutUs ≤ nowUs - nowUs)) = false
      rw [UInt32.sub_self, Bool.and_eq_false_iff]
      exact .inr rfl
  | unavailable =>
      -- it is answered, and so completed
      have hfallback : Transacts (s.retryQuery nowUs .unavailable) :=
        ⟨h.toFits.retryQuery nowUs .unavailable, fun _ ↦ h.own hpending, fun _ ↦ h.asked hpending⟩
      rcases completes hfallback (by simp [Pending, retryQuery]) hactive nowUs channel with
        ⟨-, hwaiting, -⟩ | hover
      · exact absurd hwaiting (by simp [retryQuery])
      · exact .ended hover

/-- Every pass of the task does one of these. -/
theorem passes_mouseCrossingTask (h : Transacts s) (hpending : s.Pending) (nowUs : UInt32)
    (result : QueryResult) (gap : List Notice) (channel : Channel) :
    Passes nowUs s (s.mouseCrossingTask nowUs result gap channel) := by
  unfold mouseCrossingTask
  dsimp only
  split_ifs with hidle hstopped hcancelled hunsent hsame
  · exact absurd hidle hpending
  · exact .ended (Steers.refl _)
  · exact .ended (Steers.refl _)
  · -- nothing was heard in the gap, or the crossing would not wait any more
    have hstill := (hears_hearAll s gap).still hunsent.1.1 hsame.1.1
    rw [hstill]
    exact passes_retryQuery h hunsent (by tauto) nowUs result channel
  · refine .answered hunsent (hears_hearAll s gap) fun hwaiting ↦ hsame ?_
    have hrecord := (hears_hearAll s gap).crossing
    rw [hrecord]
    refine ⟨⟨hwaiting, ?_⟩, rfl, rfl⟩
    rw [hrecord]
    exact hunsent.1.2
  · exact .of_completes h hpending (by tauto) nowUs channel

/-! ## Every event -/

/-- The record and the queries are as they were. -/
structure Records (s s' : Device) : Prop where
  crossing : s'.crossing = s.crossing
  next : s'.nextCursorQueryId = s.nextCursorQueryId
  os : ∀ n, (s'.output n).os = (s.output n).os

/-- A move of the pointer is recorded as such. -/
theorem Steers.records (h : Steers s s') : Records s s' :=
  ⟨h.crossing, h.nextCursorQueryId, h.os⟩

/-- Records keep the transaction. -/
theorem Transacts.records (h : Transacts s) (hfits : Fits s') (hrecords : Records s s') :
    Transacts s' where
  toFits := hfits
  own := by
    unfold Pending
    rw [hrecords.crossing, hrecords.next]
    exact h.own
  asked := by
    unfold Pending
    rw [hrecords.crossing, hrecords.os]
    exact h.asked

/-- A crossing that is opened begins one. -/
theorem Transacts.opens (hfits : Fits s') (hopens : Opens s nowUs s') : Transacts s' where
  toFits := hfits
  own := by
    intro hpending
    rw [(hopens.query hpending).1, (hopens.query hpending).2]
    exact ⟨rfl, s.nextQueryId_ne_zero⟩
  asked := hopens.asked

/-- A report of the mouse that finds a crossing pending is passed on without its motion. -/
theorem processMouseReport_pending (hpending : s.Pending)
    (accelerate : Int → Int → Int → Int → Int) (values : MouseValues) (channel : Channel) :
    s.processMouseReport accelerate values channel = s ∨
      s.processMouseReport accelerate values channel =
        ({ s with mouseButtons := int16 values.buttons }).outputMouseReport
          (({ s with mouseButtons := int16 values.buttons }).createMouseReport
            { values with moveX := 0, moveY := 0 }) := by
  unfold processMouseReport
  split
  · exact .inl rfl
  · refine .inr ?_
    unfold updateMousePosition
    rw [if_pos (show s.crossing.phase ≠ .idle from hpending)]
    rfl

/-- A report of the mouse while a crossing pends only records. -/
theorem records_report (hpending : s.Pending) (accelerate : Int → Int → Int → Int → Int)
    (values : MouseValues) (channel : Channel) :
    Records s (s.processMouseReport accelerate values channel) := by
  rcases processMouseReport_pending hpending accelerate values channel with hsame | hpassed
  · rw [hsame]
    exact (Steers.refl s).records
  · rw [hpassed]
    exact ⟨rfl, rfl, fun _ ↦ rfl⟩

/-- A crossing may be opened after a move. -/
theorem Opens.of_steers (hsteers : Steers s s') (h : Opens s' nowUs s'') : Opens s nowUs s'' := by
  have hnext : s'.nextQueryId = s.nextQueryId := by
    unfold nextQueryId
    rw [hsteers.nextCursorQueryId]
  refine ⟨?_, fun n ↦ (h.os n).trans (hsteers.os n), ?_, h.started, h.asked⟩
  · rw [← hnext, ← hsteers.nextCursorQueryId]
    exact h.next
  · rw [← hnext]
    exact h.query

/-- A report of the mouse begins at most one crossing. -/
theorem opens_report (h : Fits s) (hidle : s.crossing.phase = .idle)
    (accelerate : Int → Int → Int → Int → Int) (values : MouseValues) (channel : Channel) :
    Opens s channel.nowUs (s.processMouseReport accelerate values channel) := by
  have hmoves := moves_updateMousePosition s accelerate values
  unfold processMouseReport
  split
  · exact Opens.of_idle hidle
  · generalize s.updateMousePosition accelerate values = result at hmoves ⊢
    obtain ⟨s', passed, direction⟩ := result
    have hreported := hmoves.trans (moves_outputMouseReport s' (s'.createMouseReport passed))
    have hidle' : (s'.outputMouseReport (s'.createMouseReport passed)).crossing.phase = .idle := by
      rw [hreported.steers.crossing]
      exact hidle
    dsimp only
    split
    · exact (Opens.of_idle hidle').of_steers hreported.steers
    · unfold doScreenSwitch
      rw [if_neg (not_not_intro hidle')]
      exact (opens_crossScreen (h.moves hreported) hidle' ..).of_steers hreported.steers

/-- A pass keeps the id of the next query and the systems of the outputs. -/
theorem Passes.next (h : Passes nowUs s s') :
    s'.nextCursorQueryId = s.nextCursorQueryId ∧ ∀ n, (s'.output n).os = (s.output n).os := by
  cases h with
  | ended steers => exact ⟨steers.nextCursorQueryId, steers.os⟩
  | answered _ hears _ => exact ⟨hears.next, hears.os⟩
  | sent _ started => rw [started]; exact ⟨rfl, fun _ ↦ rfl⟩
  | waits same _ _ => rw [same]; exact ⟨rfl, fun _ ↦ rfl⟩

/-- Passes keep the transaction. -/
theorem Transacts.passes (h : Transacts s) (hfits : Fits s') (hpending : s.Pending)
    (hpasses : Passes nowUs s s') : Transacts s' := by
  cases hpasses with
  | ended steers =>
      have hidle : s'.crossing.phase = .idle := congrArg Crossing.phase steers.crossing
      exact ⟨hfits, fun hpends ↦ absurd hidle hpends, fun hpends ↦ absurd hidle hpends⟩
  | answered _ hears _ => exact h.hears hfits hears
  | sent _ started =>
      rw [started] at hfits ⊢
      exact ⟨hfits, fun _ ↦ h.own hpending, fun _ ↦ h.asked hpending⟩
  | waits same _ _ => exact same ▸ h

/-- A pass that finds nothing pending does nothing. -/
theorem mouseCrossingTask_idle (hidle : s.crossing.phase = .idle) (result : QueryResult)
    (gap : List Notice) (channel : Channel) :
    s.mouseCrossingTask nowUs result gap channel = s := if_pos hidle

/-- The toggle of the output steers the mouse. -/
theorem steers_toggleOutput (s : Device) : Steers s s.toggleOutput := by
  unfold toggleOutput
  split
  · exact Steers.refl s
  · exact steers_switchOutput ..

variable {accelerate : Int → Int → Int → Int → Int}

/-- What every event keeps of the record. -/
theorem Transacts.next (h : Transacts s) {event : MouseEvent} (hevent : event.Fits) :
    Transacts (s.next accelerate event) := by
  have hfits : (s.next accelerate event).Fits := h.toFits.next hevent
  cases event with
  | report values channel =>
      by_cases hpending : s.Pending
      · exact h.records hfits (records_report hpending ..)
      · exact .opens hfits (opens_report h.toFits (not_not.1 hpending) accelerate values channel)
  | task nowUs result gap channel =>
      by_cases hpending : s.Pending
      · exact h.passes hfits hpending (passes_mouseCrossingTask h hpending ..)
      · show Transacts (s.mouseCrossingTask nowUs result gap channel)
        rw [mouseCrossingTask_idle (not_not.1 hpending)]
        exact h
  | notice notice => exact h.hears hfits (hears_hear s notice)
  | lock on => exact h.records hfits ⟨rfl, rfl, fun _ ↦ rfl⟩
  | gaming on => exact h.records hfits ⟨rfl, rfl, fun _ ↦ rfl⟩
  | toggle => exact h.records hfits (steers_toggleOutput s).records
  | select output => exact h.records hfits (steers_switchOutput s output).records
  | passed report =>
      exact h.records hfits (moves_handleMouseAbsUartMsg s report).steers.records

/-- The mouse at rest: no crossing pends, and the screens fit. -/
structure AtRest (s : Device) : Prop extends Fits s where
  idle : s.crossing.phase = .idle

/-- The mouse of the examples is at rest. -/
theorem threeScreens_atRest (pointerX : Int) : AtRest (threeScreens pointerX) :=
  ⟨threeScreens_fits pointerX, rfl⟩

/-- A mouse at rest is in no transaction. -/
theorem AtRest.transacts (h : AtRest s) : Transacts s :=
  ⟨h.toFits, fun hpending ↦ absurd h.idle hpending, fun hpending ↦ absurd h.idle hpending⟩

/-- Every run keeps the transaction. -/
theorem transacts_run (h : Transacts s) {events : List MouseEvent}
    (hevents : ∀ event ∈ events, event.Fits) :
    Transacts (Runs.run (Device.next accelerate) s events) :=
  Runs.run_invariant_of_mem Transacts h (fun _ event hmem hs ↦ hs.next (hevents event hmem))

/-! ## Late answers -/

/-- The query after a query. -/
def nextQuery (id : UInt8) : UInt8 := if id + 1 = 0 then 1 else id + 1

/-- The queries go round through 255 ids. -/
theorem toNat_nextQuery {id : UInt8} (h : id ≠ 0) : (nextQuery id).toNat = id.toNat % 255 + 1 := by
  have hpositive : id.toNat ≠ 0 := fun hzero ↦ h (UInt8.toNat_inj.1 hzero)
  have hbound := id.toNat_lt
  have hadd : (id + 1).toNat = (id.toNat + 1) % 256 := UInt8.toNat_add ..
  unfold nextQuery
  split
  next hwrapped =>
    rw [hwrapped] at hadd
    have hlast : id.toNat = 255 := by
      have hzero : (0 : UInt8).toNat = 0 := rfl
      omega
    rw [hlast]
    rfl
  next hgoes =>
    have hgoes' : (id + 1).toNat ≠ 0 := fun hzero ↦ hgoes (UInt8.toNat_inj.1 hzero)
    omega

/-- The ids of the queries go round from one to 255. -/
theorem toNat_iterate_nextQuery {id : UInt8} (h : id ≠ 0) (count : Nat) :
    (nextQuery^[count] id).toNat = (id.toNat - 1 + count) % 255 + 1 := by
  have hpositive : id.toNat ≠ 0 := fun hzero ↦ h (UInt8.toNat_inj.1 hzero)
  have hbound := id.toNat_lt
  induction count with
  | zero =>
      show id.toNat = _
      omega
  | succ count ih =>
      have hne : nextQuery^[count] id ≠ 0 := by
        intro hzero
        rw [hzero] at ih
        cases ih
      rw [Function.iterate_succ_apply', toNat_nextQuery hne, ih]
      omega

/-- A query does not come again within 254. -/
theorem iterate_nextQuery_ne {id : UInt8} (h : id ≠ 0) {count : Nat} (hfirst : 1 ≤ count)
    (hlast : count ≤ 254) : nextQuery^[count] id ≠ id := by
  have hpositive : id.toNat ≠ 0 := fun hzero ↦ h (UInt8.toNat_inj.1 hzero)
  have hbound := id.toNat_lt
  intro hsame
  have hcount := toNat_iterate_nextQuery h count
  rw [hsame] at hcount
  omega

/-- Every event makes at most one query. -/
theorem Transacts.query (h : Transacts s) (event : MouseEvent) :
    (s.next accelerate event).nextCursorQueryId = s.nextCursorQueryId ∨
      (s.next accelerate event).nextCursorQueryId = nextQuery s.nextCursorQueryId := by
  cases event with
  | report values channel =>
      by_cases hpending : s.Pending
      · exact .inl (records_report hpending ..).next
      · exact (opens_report h.toFits (not_not.1 hpending) accelerate values channel).next
  | task nowUs result gap channel =>
      by_cases hpending : s.Pending
      · exact .inl (passes_mouseCrossingTask h hpending nowUs result gap channel).next.1
      · exact .inl (congrArg _ (mouseCrossingTask_idle (not_not.1 hpending) result gap channel))
  | notice notice => exact .inl (hears_hear s notice).next
  | lock on => exact .inl rfl
  | gaming on => exact .inl rfl
  | toggle => exact .inl (steers_toggleOutput s).records.next
  | select output => exact .inl (steers_switchOutput s output).records.next
  | passed report => exact .inl (moves_handleMouseAbsUartMsg s report).steers.records.next

variable (accelerate) in
/-- The number of queries a run makes. -/
def queries : Device → List MouseEvent → Nat
  | _, [] => 0
  | s, event :: rest =>
      (if (s.next accelerate event).nextCursorQueryId = s.nextCursorQueryId then 0 else 1) +
        queries (s.next accelerate event) rest

/-- The id of the next query is as many queries on as were made. -/
theorem next_of_queries (h : Transacts s) {events : List MouseEvent}
    (hevents : ∀ event ∈ events, event.Fits) :
    (Runs.run (Device.next accelerate) s events).nextCursorQueryId =
      nextQuery^[queries accelerate s events] s.nextCursorQueryId := by
  induction events generalizing s with
  | nil => rfl
  | cons event rest ih =>
      have hnext : Transacts (s.next accelerate event) :=
        h.next (hevents event (List.mem_cons_self ..))
      have hrest := ih hnext fun other hmem ↦ hevents other (List.mem_cons_of_mem _ hmem)
      rw [Runs.run_cons, hrest, queries]
      split
      next hsame => rw [hsame, Nat.zero_add]
      next hmade =>
        rw [(h.query event).resolve_left hmade, Nat.add_comm, Function.iterate_succ_apply]

/-- An answer to a query that is not the last one is not taken. -/
theorem hear_other (h : Transacts s) {id : UInt8} (hid : id ≠ 0) (hother : s.nextCursorQueryId ≠ id)
    (output screen : Nat) (x y : Int) :
    s.hear (.readback output screen x y id) = s ∧ s.hear (.unavailable output id) = s := by
  have hunasked : s.crossing.phase = .waiting → s.crossing.queryId ≠ id := by
    intro hwaiting
    have hpending : s.Pending := by
      unfold Pending
      rw [hwaiting]
      simp
    rw [(h.own hpending).1]
    exact hother
  constructor
  · have hrefused : s.refuses output screen ⟨x, y⟩ id = true := by
      by_cases hwaiting : s.crossing.phase = .waiting
      · simp [refuses, hwaiting, hunasked hwaiting]
      · simp [refuses, hwaiting, hid]
    show (s.applyHelperCursorPosition output screen ⟨x, y⟩ id).1 = s
    unfold applyHelperCursorPosition
    rw [if_pos hrefused]
  · exact if_neg fun hown ↦ hunasked hown.1 hown.2.2

/-- An answer that comes after at least one and at most 254 more queries changes nothing, whatever
happened meanwhile: neither a position of that query nor the word that it cannot be answered. -/
theorem late_answer_inert (h : AtRest s) {before during : List MouseEvent}
    (hevents : ∀ event ∈ before ++ during, event.Fits)
    (hasked : (Runs.run (Device.next accelerate) s before).nextCursorQueryId ≠ 0)
    (hone : 1 ≤ queries accelerate (Runs.run (Device.next accelerate) s before) during)
    (hround : queries accelerate (Runs.run (Device.next accelerate) s before) during ≤ 254)
    (output screen : Nat) (x y : Int) :
    let id := (Runs.run (Device.next accelerate) s before).nextCursorQueryId
    let s' := Runs.run (Device.next accelerate) s (before ++ during)
    s'.hear (.readback output screen x y id) = s' ∧ s'.hear (.unavailable output id) = s' := by
  have hbefore : Transacts (Runs.run (Device.next accelerate) s before) :=
    transacts_run h.transacts fun event hmem ↦ hevents event (List.mem_append_left _ hmem)
  have hduring : ∀ event ∈ during, event.Fits :=
    fun event hmem ↦ hevents event (List.mem_append_right _ hmem)
  dsimp only
  rw [Runs.run_append]
  refine hear_other (transacts_run hbefore hduring) hasked ?_ ..
  rw [next_of_queries hbefore hduring]
  exact iterate_nextQuery_ne hasked hone hround

/-- The answer to the first of two queries comes once the second is made. -/
theorem late_answer_inert_second :
    let s' := Runs.run (Device.next fun _ _ _ _ ↦ 0) (threeScreens 2)
      [.report (moveBy (-10)) unanswered, timeout, .report (moveBy (-10)) unanswered]
    s'.hear (.readback 0 2 100 200 1) = s' ∧ s'.hear (.unavailable 0 1) = s' :=
  @late_answer_inert (threeScreens 2) (fun _ _ _ _ ↦ 0) (threeScreens_atRest 2)
    [.report (moveBy (-10)) unanswered] [timeout, .report (moveBy (-10)) unanswered]
    (by simp [MouseEvent.Fits, timeout]) (by decide) (by decide) (by decide) 0 2 100 200

end Device

/-! ## The mouse stands still -/

/-- The report moves no pointer: it says where the pointer is, or moves it by nothing. -/
def MouseReport.Stands (report : MouseReport) (at_ : Coordinates) : Prop :=
  if report.mode = .absolute then report.x = at_.x ∧ report.y = at_.y
  else report.x = 0 ∧ report.y = 0

/-- The event takes the pointer from the mouse of this board: a switch of the output, by hotkey or
by the other board, or a report of the other board's mouse. -/
def MouseEvent.Takes : MouseEvent → Prop
  | .toggle => True
  | .select _ => True
  | .passed _ => True
  | _ => False

namespace Device

variable {s s' s'' : Device} {accelerate : Int → Int → Int → Int → Int}

/-- Neither the pointer nor the screens have moved, the crossing is the same, and no report that
went out moves anything. -/
structure Still (s s' : Device) : Prop where
  pointer : s'.pointer = s.pointer
  active : s'.activeOutput = s.activeOutput
  output : s'.output = s.output
  relative : s'.relativeMouse = s.relativeMouse
  part : s'.windowsPartPixel = s.windowsPartPixel
  crossing : s'.crossing = { s.crossing with
    querySent := s'.crossing.querySent, startedUs := s'.crossing.startedUs }
  sent : ∃ reports, s'.sent = s.sent ++ reports ∧
    ∀ report ∈ reports, report.Stands s.pointer

/-- Nothing moved. -/
theorem Still.refl (s : Device) : Still s s :=
  ⟨rfl, rfl, rfl, rfl, rfl, rfl, [], (List.append_nil _).symm, by simp⟩

/-- Nothing moved twice. -/
theorem Still.trans (h : Still s s') (h' : Still s' s'') : Still s s'' where
  pointer := h'.pointer.trans h.pointer
  active := h'.active.trans h.active
  output := h'.output.trans h.output
  relative := h'.relative.trans h.relative
  part := h'.part.trans h.part
  crossing := by rw [h'.crossing, h.crossing]
  sent := by
    obtain ⟨reports, hsent, hstands⟩ := h.sent
    obtain ⟨reports', hsent', hstands'⟩ := h'.sent
    refine ⟨reports ++ reports', by rw [hsent', hsent, List.append_assoc], ?_⟩
    intro report hmem
    rcases List.mem_append.1 hmem with hfirst | hsecond
    · exact hstands report hfirst
    · exact h.pointer ▸ hstands' report hsecond

/-- A report made of no motion. -/
theorem stands_createMouseReport (s : Device) (values : MouseValues) :
    (s.createMouseReport { values with moveX := 0, moveY := 0 }).Stands s.pointer := by
  unfold createMouseReport
  split
  · have hmode : (if s.bootMouseMode s.activeOutput then ReportMode.bootRelative else .relative) ≠
        .absolute := by
      split <;> simp
    unfold MouseReport.Stands
    rw [if_neg hmode]
    exact ⟨rfl, rfl⟩
  · exact ⟨rfl, rfl⟩

/-- An event that leaves the crossing waiting leaves the mouse where it is. -/
theorem still_next (h : Transacts s) (hwaiting : s.crossing.phase = .waiting) {event : MouseEvent}
    (htake : ¬event.Takes) (hwaits : (s.next accelerate event).crossing.phase = .waiting) :
    Still s (s.next accelerate event) := by
  have hpending : s.Pending := by
    unfold Pending
    rw [hwaiting]
    simp
  cases event with
  | report values channel =>
      rcases processMouseReport_pending hpending accelerate values channel with hsame | hpassed
      · rw [show s.next accelerate (.report values channel) = s from hsame]
        exact Still.refl s
      · rw [show s.next accelerate (.report values channel) = _ from hpassed]
        refine ⟨rfl, rfl, rfl, rfl, rfl, rfl, _, rfl, ?_⟩
        intro report hmem
        rw [List.mem_singleton.1 hmem]
        exact stands_createMouseReport { s with mouseButtons := int16 values.buttons } values
  | task nowUs result gap channel =>
      have hpasses := passes_mouseCrossingTask h hpending nowUs result gap channel
      change Still s (s.mouseCrossingTask nowUs result gap channel)
      change (s.mouseCrossingTask nowUs result gap channel).crossing.phase = .waiting at hwaits
      generalize s.mouseCrossingTask nowUs result gap channel = s' at hpasses hwaits ⊢
      -- a pass that leaves it waiting has sent its query or found it too early
      cases hpasses with
      | ended steers =>
          rw [steers.crossing] at hwaits
          cases hwaits
      | answered _ _ answer => exact absurd hwaits answer
      | sent _ started =>
          rw [started]
          exact ⟨rfl, rfl, rfl, rfl, rfl, rfl, [], (List.append_nil _).symm, by simp⟩
      | waits same _ _ =>
          rw [same]
          exact Still.refl s
  | notice notice =>
      rw [show s.next accelerate (.notice notice) = s from
        (hears_hear s notice).still hwaiting hwaits]
      exact Still.refl s
  | lock on => exact ⟨rfl, rfl, rfl, rfl, rfl, rfl, [], (List.append_nil _).symm, by simp⟩
  | gaming on => exact ⟨rfl, rfl, rfl, rfl, rfl, rfl, [], (List.append_nil _).symm, by simp⟩
  | toggle => exact absurd trivial htake
  | select output => exact absurd trivial htake
  | passed report => exact absurd trivial htake

/-- As long as a crossing waits the mouse stands still, whatever is reported, heard and locked: the
pointer, the screens and the record of the crossing are the same after every run, and no report that
went out meanwhile moves the cursor. -/
theorem still_run (h : Transacts s) (hwaiting : s.crossing.phase = .waiting)
    {events : List MouseEvent} (htakes : ∀ event ∈ events, ¬event.Takes)
    (hwaits : Runs.Along (Device.next accelerate)
      (fun s event ↦ (s.next accelerate event).crossing.phase = .waiting) s events) :
    Still s (Runs.run (Device.next accelerate) s events) := by
  induction events generalizing s with
  | nil => exact Still.refl s
  | cons event rest ih =>
      have htake := htakes event (List.mem_cons_self ..)
      have hfits : event.Fits := by
        cases event
        case select => exact absurd trivial htake
        all_goals trivial
      exact (still_next h hwaiting htake hwaits.1).trans
        (ih (h.next hfits) hwaits.1 (fun other hmem ↦ htakes other (List.mem_cons_of_mem _ hmem))
          hwaits.2)

/-- From the mouse at rest: once a crossing waits the mouse stands still until it is answered, given
up, or the output is switched, the reports of the other board's mouse apart. -/
theorem waiting_stands_still (h : AtRest s) {before during : List MouseEvent}
    (hbefore : ∀ event ∈ before, event.Fits)
    (hwaiting : (Runs.run (Device.next accelerate) s before).crossing.phase = .waiting)
    (htakes : ∀ event ∈ during, ¬event.Takes)
    (hwaits : Runs.Along (Device.next accelerate)
      (fun s event ↦ (s.next accelerate event).crossing.phase = .waiting)
      (Runs.run (Device.next accelerate) s before) during) :
    Still (Runs.run (Device.next accelerate) s before)
      (Runs.run (Device.next accelerate) s (before ++ during)) := by
  rw [Runs.run_append]
  exact still_run (transacts_run h.transacts hbefore) hwaiting htakes hwaits

/-- The mouse is pushed on while the crossing waits. -/
theorem waiting_stands_still_pushed :
    Still (Runs.run (Device.next fun _ _ _ _ ↦ 0) (threeScreens 2)
        [.report (moveBy (-10)) unanswered])
      (Runs.run (Device.next fun _ _ _ _ ↦ 0) (threeScreens 2)
        ([.report (moveBy (-10)) unanswered] ++ [.report (moveBy 50) unanswered,
          .notice (.readback 0 2 7 7 9)])) :=
  waiting_stands_still (threeScreens_atRest 2) (by simp [MouseEvent.Fits]) (by decide)
    (by simp [MouseEvent.Takes]) ⟨by decide, by decide, trivial⟩

end Device

/-! ## When it is over -/

/-- The clock an event reads shows the time. -/
def MouseEvent.At (time : Nat) : MouseEvent → Prop
  | .report _ channel => channel.nowUs = Clock.reading time
  | .task nowUs _ _ _ => nowUs = Clock.reading time
  | _ => True

/-- The events come one after another between two times. -/
def Clocked : Nat → List MouseEvent → Nat → Prop
  | start, [], stop => start ≤ stop
  | start, event :: rest, stop => ∃ time, start ≤ time ∧ event.At time ∧ Clocked time rest stop

namespace Device

variable {s s' : Device} {accelerate : Int → Int → Int → Int → Int} {opened now : Nat}

/-- A crossing that waits was started when it was opened, or when its query was sent since. -/
def Timed (opened now : Nat) (s : Device) : Prop :=
  s.crossing.phase = .waiting → s.crossing.startedUs = Clock.reading opened ∨
    (s.crossing.querySent = true ∧
      ∃ start, opened ≤ start ∧ start ≤ now ∧ s.crossing.startedUs = Clock.reading start)

/-- A crossing that waits is never started again, and was started by a time. -/
def Settled (opened now : Nat) (s : Device) : Prop :=
  s.crossing.phase = .waiting →
    (s.crossing.querySent = true ∨ s.crossing.kind = .macosPlacement) ∧
      ∃ start, opened ≤ start ∧ start ≤ now ∧ s.crossing.startedUs = Clock.reading start

/-- A crossing is over at a pass that finds it settled and late. -/
theorem Settled.ended (hsettled : Settled opened now s) (h : Transacts s) (hpending : s.Pending)
    {late : Nat} (hlate : now + 30000 ≤ late) (hturn : late < opened + 2 ^ 32)
    (result : QueryResult) (gap : List Notice) (channel : Channel) :
    (s.mouseCrossingTask (Clock.reading late) result gap channel).crossing.phase = .idle := by
  have hunsent : ¬(s.reanchors ∧ s.crossing.querySent = false) := by
    intro hunsent
    rcases (hsettled hunsent.1.1).1 with hsent | hplaced
    · rw [hsent] at hunsent
      cases hunsent.2
    · rcases hunsent.1.2 with hkind | hkind <;> rw [hkind] at hplaced <;> cases hplaced
  cases passes_mouseCrossingTask h hpending (Clock.reading late) result gap channel with
  | ended steers => exact congrArg Crossing.phase steers.crossing
  | answered unsent _ _ => exact absurd unsent hunsent
  | sent unsent _ => exact absurd unsent hunsent
  | waits _ waiting early =>
      obtain ⟨-, start, hstart, hnow, hstarted⟩ := hsettled waiting
      rw [hstarted] at early
      have hreached : reanchorTimeoutUs ≤ Clock.reading late - Clock.reading start :=
        (Clock.le_elapsed (by omega) (by omega)).2 (by show 30000 ≤ late - start; omega)
      exact absurd hreached (UInt32.not_le.2 early)

/-- Nothing but a pass touches the start of a crossing that still pends. -/
theorem untouched (hpending : s.Pending) {event : MouseEvent}
    (htask : ∀ nowUs result gap channel, event ≠ .task nowUs result gap channel)
    (hwaits : (s.next accelerate event).crossing.phase = .waiting) :
    (s.next accelerate event).crossing = s.crossing := by
  cases event with
  | report values channel => exact (records_report hpending accelerate values channel).crossing
  | task nowUs result gap channel => exact absurd rfl (htask nowUs result gap channel)
  | notice notice =>
      have hhears := hears_hear s notice
      rcases hhears.phase with hsame | ⟨-, hanswer, -⟩
      · have hrecord := hhears.crossing
        rw [hsame] at hrecord
        exact hrecord
      · exact absurd hwaits hanswer
  | lock on => rfl
  | gaming on => rfl
  | toggle => exact (steers_toggleOutput s).crossing
  | select output => exact (steers_switchOutput s output).crossing
  | passed report => exact (moves_handleMouseAbsUartMsg s report).steers.crossing

/-- What an event does to the start of a crossing that pends before and after it. -/
theorem start_next (h : Transacts s) (hpending : s.Pending) {event : MouseEvent} {time : Nat}
    (htime : event.At time) (hwaits : (s.next accelerate event).crossing.phase = .waiting) :
    (s.next accelerate event).crossing = s.crossing ∨
      ((s.reanchors ∧ s.crossing.querySent = false) ∧ (s.next accelerate event).crossing =
        { s.crossing with querySent := true, startedUs := Clock.reading time }) := by
  by_cases htask : ∃ nowUs result gap channel, event = .task nowUs result gap channel
  · obtain ⟨nowUs, result, gap, channel, rfl⟩ := htask
    have hpasses := passes_mouseCrossingTask h hpending nowUs result gap channel
    change (s.mouseCrossingTask nowUs result gap channel).crossing.phase = .waiting at hwaits
    change (s.mouseCrossingTask nowUs result gap channel).crossing = s.crossing ∨
      (_ ∧ (s.mouseCrossingTask nowUs result gap channel).crossing = _)
    cases hpasses with
    | ended steers =>
        rw [steers.crossing] at hwaits
        cases hwaits
    | answered _ _ answer => exact absurd hwaits answer
    | sent unsent started =>
        rw [started, show nowUs = Clock.reading time from htime]
        exact .inr ⟨unsent, rfl⟩
    | waits same _ _ => exact .inl (congrArg _ same)
  · refine .inl (untouched hpending ?_ hwaits)
    intro nowUs result gap channel heq
    exact htask ⟨nowUs, result, gap, channel, heq⟩

/-- Every event has a time. -/
theorem exists_at (event : MouseEvent) : ∃ time, event.At time := by
  have hread : ∀ now : UInt32, now = Clock.reading now.toNat :=
    fun now ↦ (UInt32.ofNat_toNat).symm
  cases event with
  | report values channel => exact ⟨channel.nowUs.toNat, hread _⟩
  | task nowUs result gap channel => exact ⟨nowUs.toNat, hread _⟩
  | notice notice => exact ⟨0, trivial⟩
  | lock on => exact ⟨0, trivial⟩
  | gaming on => exact ⟨0, trivial⟩
  | toggle => exact ⟨0, trivial⟩
  | select output => exact ⟨0, trivial⟩
  | passed report => exact ⟨0, trivial⟩

/-- The crossing pends after every event of a run. -/
abbrev PendsAlong (accelerate : Int → Int → Int → Int → Int) (s : Device)
    (events : List MouseEvent) : Prop :=
  Runs.Along (Device.next accelerate) (fun s event ↦ (s.next accelerate event).Pending) s events

/-- A crossing that is settled stays so. -/
theorem Settled.run (hsettled : Settled opened now s) (h : Transacts s) (hpending : s.Pending)
    {events : List MouseEvent} (hevents : ∀ event ∈ events, event.Fits)
    (hpends : PendsAlong accelerate s events) :
    Settled opened now (Runs.run (Device.next accelerate) s events) ∧
      (Runs.run (Device.next accelerate) s events).Pending := by
  induction events generalizing s with
  | nil => exact ⟨hsettled, hpending⟩
  | cons event rest ih =>
      refine ih ?_ (h.next (hevents event (List.mem_cons_self ..))) hpends.1
        (fun other hmem ↦ hevents other (List.mem_cons_of_mem _ hmem)) hpends.2
      intro hwaits
      obtain ⟨time, htime⟩ := exists_at event
      rcases start_next h hpending htime hwaits with hsame | ⟨hunsent, -⟩
      · rw [hsame] at hwaits ⊢
        exact hsettled hwaits
      · -- a crossing that is settled has no query to send
        exfalso
        rcases (hsettled hunsent.1.1).1 with hsent | hplaced
        · rw [hsent] at hunsent
          cases hunsent.2
        · rcases hunsent.1.2 with hkind | hkind <;> rw [hkind] at hplaced <;> cases hplaced

/-- The start of a crossing over a run by the clock. -/
theorem Timed.run (htimed : Timed opened now s) (hnow : opened ≤ now) (h : Transacts s)
    (hpending : s.Pending) {events : List MouseEvent} (hevents : ∀ event ∈ events, event.Fits)
    (hpends : PendsAlong accelerate s events) {later : Nat} (hclock : Clocked now events later) :
    Timed opened later (Runs.run (Device.next accelerate) s events) ∧
      (Runs.run (Device.next accelerate) s events).Pending := by
  induction events generalizing s now with
  | nil =>
      refine ⟨fun hwaits ↦ ?_, hpending⟩
      rcases htimed hwaits with hfirst | ⟨hsent, start, hstart, hbefore, hstarted⟩
      · exact .inl hfirst
      · exact .inr ⟨hsent, start, hstart, hbefore.trans hclock, hstarted⟩
  | cons event rest ih =>
      obtain ⟨time, hafter, htime, hrest⟩ := hclock
      refine ih ?_ (hnow.trans hafter) (h.next (hevents event (List.mem_cons_self ..))) hpends.1
        (fun other hmem ↦ hevents other (List.mem_cons_of_mem _ hmem)) hpends.2 hrest
      intro hwaits
      rcases start_next h hpending htime hwaits with hsame | ⟨-, hstarted⟩
      · rw [hsame] at hwaits ⊢
        rcases htimed hwaits with hfirst | ⟨hsent, start, hstart, hbefore, hstarted⟩
        · exact .inl hfirst
        · exact .inr ⟨hsent, start, hstart, hbefore.trans hafter, hstarted⟩
      · rw [hstarted]
        exact .inr ⟨rfl, time, hnow.trans hafter, le_rfl, rfl⟩

/-- A late pass that leaves a crossing pending settles it. -/
theorem Timed.settled (htimed : Timed opened now s) (h : Transacts s) (hpending : s.Pending)
    (hlate : opened + 30000 ≤ now) (hturn : now < opened + 2 ^ 32) (result : QueryResult)
    (gap : List Notice) (channel : Channel) :
    Settled opened now (s.mouseCrossingTask (Clock.reading now) result gap channel) := by
  intro hwaits
  cases passes_mouseCrossingTask h hpending (Clock.reading now) result gap channel with
  | ended steers =>
      rw [steers.crossing] at hwaits
      cases hwaits
  | answered _ _ answer => exact absurd hwaits answer
  | sent _ started =>
      rw [started]
      exact ⟨.inl rfl, now, by omega, le_rfl, rfl⟩
  | waits same waiting early =>
      rw [same]
      rcases htimed waiting with hfirst | ⟨hsent, start, hstart, hbefore, hstarted⟩
      · -- it would have been given up
        rw [hfirst] at early
        have hreached : reanchorTimeoutUs ≤ Clock.reading now - Clock.reading opened :=
          (Clock.le_elapsed (by omega) (by omega)).2 (by show 30000 ≤ now - opened; omega)
        exact absurd hreached (UInt32.not_le.2 early)
      · exact ⟨.inl hsent, start, hstart, hbefore, hstarted⟩

/-- Only a report opens a crossing, and it is started then. -/
theorem started_of_opens (h : Transacts s) (hidle : s.crossing.phase = .idle) {event : MouseEvent}
    (htime : event.At opened) (hopens : (s.next accelerate event).Pending) :
    (s.next accelerate event).crossing.startedUs = Clock.reading opened := by
  have hclosed : (s.next accelerate event).crossing.phase ≠ s.crossing.phase :=
    fun hsame ↦ hopens (hsame.trans hidle)
  cases event with
  | report values channel =>
      rw [← show channel.nowUs = Clock.reading opened from htime]
      exact (opens_report h.toFits hidle accelerate values channel).started hopens
  | task nowUs result gap channel =>
      exact absurd (congrArg (fun s ↦ s.crossing.phase) (mouseCrossingTask_idle hidle ..)) hclosed
  | notice notice => exact absurd hidle ((hears_hear s notice).pending.1 hopens)
  | lock on => exact absurd rfl hclosed
  | gaming on => exact absurd rfl hclosed
  | toggle => exact absurd (congrArg _ (steers_toggleOutput s).crossing) hclosed
  | select output => exact absurd (congrArg _ (steers_switchOutput s output).crossing) hclosed
  | passed report =>
      exact absurd (congrArg _ (moves_handleMouseAbsUartMsg s report).steers.crossing) hclosed

/-- Every crossing ends. From the mouse at rest, one that a report opens is over after the first
pass that comes 30 ms after it was opened, if its query was sent then or the helper was told where
to put the cursor. Otherwise it is over, at the latest, after the first pass that comes 30 ms after
that one, whatever is reported, heard and sent again meanwhile. -/
theorem crossing_retires (h : AtRest s) {before first second : List MouseEvent}
    {opening : MouseEvent} {pass late : Nat} {result result' : QueryResult}
    {gap gap' : List Notice} {channel channel' : Channel}
    (hbefore : ∀ event ∈ before, event.Fits) (hopening : opening.Fits)
    (hfirst : ∀ event ∈ first, event.Fits) (hsecond : ∀ event ∈ second, event.Fits)
    (hidle : (Runs.run (Device.next accelerate) s before).crossing.phase = .idle)
    (hopens : ((Runs.run (Device.next accelerate) s before).next accelerate opening).Pending)
    (htime : opening.At opened) (hclock : Clocked opened first pass)
    (hpass : opened + 30000 ≤ pass) (hlate : pass + 30000 ≤ late) (hturn : late < opened + 2 ^ 32) :
    let crossing := (Runs.run (Device.next accelerate) s before).next accelerate opening
    let task := MouseEvent.task (Clock.reading pass) result gap channel
    let task' := MouseEvent.task (Clock.reading late) result' gap' channel'
    (crossing.crossing.querySent = true ∨ crossing.crossing.kind = .macosPlacement →
        PendsAlong accelerate crossing first →
        (Runs.run (Device.next accelerate) crossing (first ++ [task])).crossing.phase = .idle) ∧
      (PendsAlong accelerate crossing (first ++ task :: second) →
        (Runs.run (Device.next accelerate) crossing
          (first ++ task :: second ++ [task'])).crossing.phase = .idle) := by
  have hrest : Transacts (Runs.run (Device.next accelerate) s before) :=
    transacts_run h.transacts hbefore
  generalize Runs.run (Device.next accelerate) s before = resting at hidle hopens hrest ⊢
  have htransacts : Transacts (resting.next accelerate opening) := hrest.next hopening
  have hstarted := started_of_opens hrest hidle htime hopens
  dsimp only
  generalize resting.next accelerate opening = crossing at hopens htransacts hstarted ⊢
  constructor
  · -- nothing starts it again, so the first late pass ends it
    intro hsent hpends
    have hsettled : Settled opened opened crossing :=
      fun _ ↦ ⟨hsent, opened, le_rfl, le_rfl, hstarted⟩
    obtain ⟨hstill, hpending⟩ := hsettled.run htransacts hopens hfirst hpends
    rw [Runs.run_snoc]
    exact hstill.ended (transacts_run htransacts hfirst) hpending hpass (by omega) ..
  · -- the first late pass has sent its query, and from there on it is the case above
    intro hpends
    obtain ⟨hpends, hrest⟩ := (Runs.Along.append _).1 hpends
    have htimed : Timed opened opened crossing := fun _ ↦ .inl hstarted
    obtain ⟨hlater, hpending⟩ := htimed.run le_rfl htransacts hopens hfirst hpends hclock
    have hreached : Transacts (Runs.run (Device.next accelerate) crossing first) :=
      transacts_run htransacts hfirst
    have hsettled := hlater.settled hreached hpending hpass (by omega) result gap channel
    have hpassed : Transacts ((Runs.run (Device.next accelerate) crossing first).next accelerate
        (.task (Clock.reading pass) result gap channel)) := hreached.next trivial
    obtain ⟨hstill, hpending'⟩ := Settled.run hsettled hpassed hrest.1 hsecond hrest.2
    rw [Runs.run_snoc, Runs.run_append, Runs.run_cons]
    exact Settled.ended hstill (transacts_run hpassed hsecond) hpending' hlate hturn ..

/-- The query of a crossing goes out only with the first pass that is late. -/
theorem crossing_retires_resent :
    (Runs.run (Device.next fun _ _ _ _ ↦ 0)
      ((threeScreens 2).next (fun _ _ _ _ ↦ 0)
        (.report (moveBy (-10)) { unanswered with query := .retry }))
      [.task (Clock.reading 30000) .sent [] unanswered,
        .task (Clock.reading 60000) .retry [] unanswered]).crossing.phase = .idle :=
  (@crossing_retires (threeScreens 2) (fun _ _ _ _ ↦ 0) 0 (threeScreens_atRest 2) [] [] []
    (.report (moveBy (-10)) { unanswered with query := .retry }) 30000 60000 .sent .retry [] []
    unanswered unanswered
    (by simp) trivial (by simp) (by simp) rfl (by decide) rfl (Nat.zero_le _) (by decide)
    (by decide) (by decide)).2 ⟨by decide, trivial⟩

end Device

end DeskhopPlus.Mouse
