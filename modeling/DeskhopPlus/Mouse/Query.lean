import DeskhopPlus.Mouse.Device

/-!
# Asking where the cursor is

On a relative screen of Windows, and along the chain of a Mac, the helper is asked before a
crossing, which is pending until it answers or is given up. The pending crossing is shared by two
cores: one asks and completes, the other publishes what it hears, under a lock that is released
while the query is sent.
-/

namespace DeskhopPlus.Mouse

/-- `cursor_query_result_t`. -/
inductive QueryResult where
  | sent | retry | unavailable
  deriving DecidableEq, Repr

/-- What the other core publishes. -/
inductive Notice where
  | readback (output screen : Nat) (x y : Int) (queryId : UInt8)
  | unavailable (output : Nat) (queryId : UInt8)
  deriving DecidableEq, Repr

/-- What a crossing meets: the answers of the channel to the helpers, what the other core publishes
while the lock is free for the query to be sent, and the clock. -/
structure Channel where
  query : QueryResult
  placed : Bool
  helper : Nat → Bool
  between : List Notice
  nowUs : UInt32

namespace Device

/-- A position is at the edge that a direction leads to. -/
def edgeHit (direction : Direction) (at_ : Coordinates) (threshold : Int) : Bool :=
  match direction with
  | .left => decide (at_.x ≤ threshold)
  | .right => decide (maxScreenCoord - threshold ≤ at_.x)
  | .top => decide (at_.y ≤ threshold)
  | .bottom => decide (maxScreenCoord - threshold ≤ at_.y)
  | .none => false

variable (s : Device)

/-! ## What is heard -/

/-- `position_is_at_pending_edge`. -/
def positionIsAtPendingEdge (at_ : Coordinates) : Bool :=
  let threshold : Int := if s.crossing.kind = .chainReanchor then 0 else s.jumpThreshold
  let output := s.output s.crossing.output
  let pixels : Int := windowsPixels output s.crossing.direction.isVertical
  let oneCount : Int :=
    if s.crossing.kind = .sourceReanchor ∧ pixels ≠ 0 then
      (maxScreenCoord + pixels).tdiv pixels * pixelsPerCount output.pointerSpeed
    else 0
  edgeHit s.crossing.direction at_ (max threshold oneCount)

/-- `position_confirms_pending_placement`. -/
def positionConfirmsPendingPlacement (at_ : Coordinates) : Bool :=
  let expectedAlong : Int := ((s.crossing.targetPosition * 32767 + 32767) / seamPositionMax : Nat)
  let actualAlong := alongSeam s.crossing.direction at_
  if actualAlong < expectedAlong - 2 ∨ expectedAlong + 2 < actualAlong then false
  else edgeHit s.crossing.direction.opposite at_ s.jumpThreshold

/-- `select_cursor_screen`. -/
def selectCursorScreen (output screen : Nat) : Device × Bool :=
  if 1 < output ∨ output ≠ s.activeOutput ∨ screen = 0 ∨ (s.output output).screenCount < screen then
    (s, false)
  else
    ({ s with
        output := Function.update s.output output { s.output output with screenIndex := screen }
        relativeMouse := decide ((s.output output).os = .windows) && decide (1 < screen) }, true)

/-- A readback that does not fit the pending query, or none that pends, is not taken. -/
def refuses (output screen : Nat) (at_ : Coordinates) (queryId : UInt8) : Bool :=
  decide (1 < output) ||
  (decide (s.crossing.phase = .waiting) &&
    (decide (queryId = 0) || decide (s.crossing.output ≠ output) ||
      decide (s.crossing.queryId ≠ queryId))) ||
  (decide (queryId ≠ 0) && decide (s.crossing.phase ≠ .waiting)) ||
  (decide (queryId ≠ 0) && decide (s.crossing.kind = .macosPlacement) &&
    (decide (screen ≠ s.crossing.targetScreen) || !s.positionConfirmsPendingPlacement at_)) ||
  (decide (queryId = 0) && decide (screen ≠ (s.output output).screenIndex))

/-- The phase that a readback that is taken leaves. -/
def readPhase (output screen : Nat) (at_ : Coordinates) : Phase :=
  if s.crossing.phase = .waiting ∧ s.crossing.output = output then
    if s.crossing.kind = .macosPlacement ∨
        ((s.crossing.kind = .sourceReanchor ∨
            (s.crossing.kind = .chainReanchor ∧ screen = s.crossing.targetScreen)) ∧
          s.positionIsAtPendingEdge at_) then .reanchored
    else .cancelled
  else s.crossing.phase

/-- `apply_helper_cursor_position`. -/
def applyHelperCursorPosition (output screen : Nat) (at_ : Coordinates) (queryId : UInt8) :
    Device × Bool :=
  if s.refuses output screen at_ queryId then (s, false)
  else
    let (s, selected) := s.selectCursorScreen output screen
    if selected = false then (s, false)
    else
      let s := { s with pointerX := at_.x, pointerY := at_.y }
      ({ s with crossing := { s.crossing with phase := s.readPhase output screen at_ } }, true)

/-- `mouse_crossing_query_unavailable`. -/
def queryUnavailable (output : Nat) (queryId : UInt8) : Device :=
  if s.crossing.phase = .waiting ∧ s.crossing.output = output ∧ s.crossing.queryId = queryId then
    { s with crossing := { s.crossing with phase := .fallback } }
  else s

/-- A notice of the other core. -/
def hear : Notice → Device
  | .readback output screen x y queryId =>
      (s.applyHelperCursorPosition output screen ⟨x, y⟩ queryId).1
  | .unavailable output queryId => s.queryUnavailable output queryId

/-- The notices of the other core, one after another. -/
def hearAll (notices : List Notice) : Device := notices.foldl hear s

/-! ## Asking -/

/-- `cursor_crossing_clear`. -/
def clearCrossing : Device := { s with crossing := .idle }

/-- `next_cursor_query_id`: zero is no query. -/
def nextQueryId : UInt8 :=
  if s.nextCursorQueryId + 1 = 0 then 1 else s.nextCursorQueryId + 1

/-- The crossing waits for the answer to a new query. -/
def wait (kind : Kind) (direction : Direction) (targetScreen targetPosition : Nat)
    (nowUs : UInt32) : Device :=
  { s with
    nextCursorQueryId := s.nextQueryId
    crossing :=
      { phase := .waiting
        kind := kind
        direction := direction
        output := s.activeOutput
        queryId := s.nextQueryId
        targetScreen := targetScreen
        targetPosition := targetPosition
        querySent := false
        startedUs := nowUs } }

/-- The query still waits. -/
def awaits (queryId : UInt8) : Prop :=
  s.crossing.phase = .waiting ∧ s.crossing.queryId = queryId

instance (queryId : UInt8) : Decidable (s.awaits queryId) := inferInstanceAs (Decidable (_ ∧ _))

/-- `query_source_cursor`: whether the crossing pends. -/
def querySourceCursor (direction : Direction) (kind : Kind) (channel : Channel) : Device × Bool :=
  let queryId := s.nextQueryId
  let s := (s.wait kind direction s.current.screenIndex 0 channel.nowUs).hearAll channel.between
  match channel.query with
  | .sent =>
      (if s.awaits queryId then { s with crossing := { s.crossing with querySent := true } } else s,
        true)
  | .retry => (s, true)
  | .unavailable => (if s.awaits queryId then s.clearCrossing else s, false)

end Device

end DeskhopPlus.Mouse
