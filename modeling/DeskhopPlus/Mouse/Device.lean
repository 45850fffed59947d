import DeskhopPlus.Mouse.Layout
import DeskhopPlus.Mouse.SeamMap
import DeskhopPlus.Mouse.WindowsPointer
import Mathlib.Data.List.Basic

/-!
# The mouse of a board

What `mouse_logic.c` keeps of the pointer and of a crossing of screens, and how it moves the
pointer. A report is held while a crossing is pending; otherwise it moves the pointer, and may
choose a direction in which to leave the screen.
-/

namespace DeskhopPlus.Mouse

/-- The operating system of an output. -/
inductive Os where
  | linux | macos | windows | android | other
  deriving DecidableEq, Repr

/-- `output_t`. -/
structure Output where
  number : Nat
  screenCount : Nat
  screenIndex : Nat
  speedX : Int
  speedY : Int
  borderStart : Int
  borderEnd : Int
  os : Os
  chainDirection : Direction
  borderDirection : Direction
  mouseParkPos : Nat
  pointerSpeed : Nat
  seamRanges : SeamRanges
  monitorWidth : Nat
  monitorHeight : Nat

/-- `cursor_crossing_phase_t`. -/
inductive Phase where
  | idle | waiting | reanchored | fallback | cancelled
  deriving DecidableEq, Repr

/-- `cursor_crossing_kind_t`. -/
inductive Kind where
  | sourceReanchor | chainReanchor | macosPlacement
  deriving DecidableEq, Repr

/-- `cursor_crossing_t`. -/
structure Crossing where
  phase : Phase
  kind : Kind
  direction : Direction
  output : Nat
  queryId : UInt8
  targetScreen : Nat
  targetPosition : Nat
  querySent : Bool
  startedUs : UInt32
  deriving DecidableEq, Repr

/-- The zeroed record. -/
def Crossing.idle : Crossing where
  phase := .idle
  kind := .sourceReanchor
  direction := .none
  output := 0
  queryId := 0
  targetScreen := 0
  targetPosition := 0
  querySent := false
  startedUs := 0

/-- The mode of a mouse report. -/
inductive ReportMode where
  | absolute | relative | bootRelative
  deriving DecidableEq, Repr

/-- `mouse_report_t`. -/
structure MouseReport where
  buttons : Int
  x : Int
  y : Int
  wheel : Int
  pan : Int
  mode : ReportMode
  deriving DecidableEq, Repr

/-- `mouse_values_t`. -/
structure MouseValues where
  moveX : Int
  moveY : Int
  wheel : Int
  pan : Int
  buttons : Int
  deriving DecidableEq, Repr

/-- What the mouse uses of `device_t`, and the reports it put out. -/
structure Device where
  activeOutput : Nat
  pointerX : Int
  pointerY : Int
  mouseButtons : Int
  output : Nat → Output
  jumpThreshold : Nat
  mouseZoom : Bool
  switchLock : Bool
  relativeMouse : Bool
  gamingMode : Bool
  bootMouseMode : Nat → Bool
  /-- The part of a pixel that is kept of an output, along its width and its height. -/
  windowsPartPixel : Nat → Bool → Int
  crossing : Crossing
  outputArrivalGuard : Direction
  outputArrivalReverse : Nat
  nextCursorQueryId : UInt8
  sent : List MouseReport

/-- `windows_pixels`: the size of a monitor where the board copies the arithmetic of Windows. -/
def windowsPixels (output : Output) (vertical : Bool) : Nat :=
  if output.os ≠ .windows ∨ pointerSpeedIsSet output.pointerSpeed = false ∨
      output.monitorWidth = 0 ∨ output.monitorHeight = 0 then 0
  else if vertical then output.monitorHeight else output.monitorWidth

/-- `move_and_keep_on_screen`. -/
def moveAndKeepOnScreen (position offset : Int) : Int :=
  if position + offset < 0 then 0
  else if maxScreenCoord < position + offset then maxScreenCoord
  else position + offset

/-- `screen_boundary_crossing_t`. -/
structure BoundaryCrossing where
  direction : Direction
  overshoot : Int
  deriving DecidableEq, Repr

namespace Output

/-- `mouse_layout_for`. -/
def layout (output : Output) : Layout := ⟨output.chainDirection, output.borderDirection⟩

/-- `screen_boundary_crossing`, with the threshold of `get_jump_threshold`. -/
def boundaryCrossing (output : Output) (jumpThreshold : Nat) (position offset : Int)
    (negative positive : Direction) : BoundaryCrossing :=
  if offset = 0 then ⟨.none, 0⟩
  else
    let threshold : Nat := jumpThresholdFor output.layout output.screenIndex output.screenCount
      (if offset < 0 then negative else positive) jumpThreshold
    let next := position + offset
    if next < 0 - threshold then ⟨negative, 0 - next⟩
    else if maxScreenCoord + threshold < next then ⟨positive, next - maxScreenCoord⟩
    else ⟨.none, 0⟩

end Output

namespace Device

variable (s : Device)

/-- The output that is active. -/
def current : Output := s.output s.activeOutput

/-- Where the pointer is. -/
def pointer : Coordinates := ⟨s.pointerX, s.pointerY⟩

/-- The coordinate along an axis. -/
def axis (vertical : Bool) : Int := if vertical then s.pointerY else s.pointerX

/-- The pointer is put somewhere, in two variables of 16 bits. -/
def put (at_ : Coordinates) : Device := { s with pointerX := int16 at_.x, pointerY := int16 at_.y }

/-- `actionable_transition_for`, of the active output. -/
def actionableTransitionFor (direction : Direction) (buttons : Int) : Transition :=
  if direction = .none ∨ s.switchLock ∨ s.gamingMode ∨ s.bootMouseMode s.activeOutput then .none
  else
    let transition := transitionFor s.current.layout s.current.screenIndex s.current.screenCount
      direction
    if transition = .output ∧ buttons ≠ 0 then .none else transition

/-- An overshoot that was kept for a crossing is spent: the pointer comes back onto the screen. -/
def spendOvershoot : Device :=
  s.put ⟨moveAndKeepOnScreen s.pointerX 0, moveAndKeepOnScreen s.pointerY 0⟩

/-- The offsets of a report. A relative screen takes the counts as they are; elsewhere they are
accelerated, `accelerate` giving the rounded floating-point offset of a count from both counts, the
count and the speed. -/
def offsets (accelerate : Int → Int → Int → Int → Int) (values : MouseValues) :
    Device × Coordinates :=
  if s.relativeMouse then
    let horizontal := estimateOffset s.pointerX values.moveX s.current.pointerSpeed
      (windowsPixels s.current false) s.current.speedX (s.windowsPartPixel s.activeOutput false)
    let vertical := estimateOffset s.pointerY values.moveY s.current.pointerSpeed
      (windowsPixels s.current true) s.current.speedY (s.windowsPartPixel s.activeOutput true)
    ({ s with
        windowsPartPixel := fun output axis ↦
          if output = s.activeOutput then (if axis then vertical.2 else horizontal.2)
          else s.windowsPartPixel output axis },
      ⟨horizontal.1, vertical.1⟩)
  else
    -- `MOUSE_ZOOM_SCALING_FACTOR` shifts the speed
    let shift : Int := if s.mouseZoom then 4 else 1
    (s, ⟨accelerate values.moveX values.moveY values.moveX (s.current.speedX / shift),
      accelerate values.moveX values.moveY values.moveY (s.current.speedY / shift)⟩)

/-- The guard of the edge the pointer arrived by, and whether it still holds. Moving inward ends it,
and so does pushing back by more than the jump threshold. -/
def guardArrival (values : MouseValues) (offset : Coordinates) : Device × Bool :=
  let guard := s.outputArrivalGuard
  if guard = .none then (s, false)
  else
    let rawGuardAxis := if guard.isVertical then values.moveY else values.moveX
    let rawCrossAxis := if guard.isVertical then values.moveX else values.moveY
    let along := if guard.isVertical then offset.y else offset.x
    let movedInward := decide (rawCrossAxis.natAbs ≤ rawGuardAxis.natAbs) &&
      (if guard.isForward then decide (along < 0) else decide (0 < along))
    let movedReverse :=
      if guard.isForward then decide (0 < rawGuardAxis) else decide (rawGuardAxis < 0)
    let reverse :=
      if movedReverse then min 65535 (s.outputArrivalReverse + rawGuardAxis.natAbs)
      else s.outputArrivalReverse
    if movedInward ∨ s.jumpThreshold < reverse then
      ({ s with outputArrivalGuard := .none, outputArrivalReverse := 0 }, false)
    else ({ s with outputArrivalReverse := reverse }, true)

/-- A move of the pointer along both axes, each kept on the screen unless it crosses an edge. -/
def moveKept (offset : Coordinates) (horizontal vertical : Bool) : Device :=
  s.put ⟨if horizontal then s.pointerX else moveAndKeepOnScreen s.pointerX offset.x,
    if vertical then s.pointerY else moveAndKeepOnScreen s.pointerY offset.y⟩

/-- The pointer goes past an edge by the offset, in a variable of 16 bits. -/
def keepOvershoot (offset : Coordinates) (direction : Direction) : Device :=
  if direction.isVertical then { s with pointerY := int16 (s.pointerY + offset.y) }
  else { s with pointerX := int16 (s.pointerX + offset.x) }

/-- The direction in which a report leaves the screen: of two, the one it goes farther in. -/
def chosenDirection (horizontal vertical : BoundaryCrossing)
    (horizontalActionable verticalActionable : Bool) : Direction :=
  if verticalActionable ∧ (horizontalActionable = false ∨
      horizontal.overshoot < vertical.overshoot) then vertical.direction
  else if horizontalActionable then horizontal.direction
  else .none

/-- What a report leads to. -/
structure Decision where
  device : Device
  offset : Coordinates
  horizontalActionable : Bool
  verticalActionable : Bool
  direction : Direction
  transition : Transition

/-- How `update_mouse_position` decides on a report when no crossing is pending. -/
def decideOn (accelerate : Int → Int → Int → Int → Int) (values : MouseValues) : Decision :=
  let (s, offset) := s.spendOvershoot.offsets accelerate values
  let horizontal := s.current.boundaryCrossing s.jumpThreshold s.pointerX offset.x .left .right
  let vertical := s.current.boundaryCrossing s.jumpThreshold s.pointerY offset.y .top .bottom
  let guard := s.outputArrivalGuard
  let (s, held) := s.guardArrival values offset
  let actionable := fun direction ↦
    decide (s.actionableTransitionFor direction values.buttons ≠ .none) &&
      !(held && decide (direction = guard))
  let direction := chosenDirection horizontal vertical (actionable horizontal.direction)
    (actionable vertical.direction)
  { device := s
    offset := offset
    horizontalActionable := actionable horizontal.direction
    verticalActionable := actionable vertical.direction
    direction := direction
    transition := s.actionableTransitionFor direction values.buttons }

/-- The counts of a report that are passed on: of two crossings only those of the chosen one. -/
def passedOn (values : MouseValues) (decision : Decision) : MouseValues :=
  if decision.device.relativeMouse ∧ decision.horizontalActionable ∧
      decision.verticalActionable then
    if decision.direction.isVertical then { values with moveX := 0 } else { values with moveY := 0 }
  else values

/-- `update_mouse_position`: the values that are passed on and the direction the report leaves the
screen in. -/
def updateMousePosition (accelerate : Int → Int → Int → Int → Int) (values : MouseValues) :
    Device × MouseValues × Direction :=
  if s.crossing.phase ≠ .idle then
    ({ s with mouseButtons := int16 values.buttons }, { values with moveX := 0, moveY := 0 }, .none)
  else
    let decision := s.decideOn accelerate values
    let s := decision.device.moveKept decision.offset decision.horizontalActionable
      decision.verticalActionable
    let s :=
      if s.relativeMouse ∧ decision.transition ≠ .none ∧ decision.transition ≠ .output then
        s.keepOvershoot decision.offset decision.direction
      else s
    ({ s with mouseButtons := int16 values.buttons }, passedOn values decision, decision.direction)

/-- `create_mouse_report`. -/
def createMouseReport (values : MouseValues) : MouseReport :=
  if s.bootMouseMode s.activeOutput ∨ s.relativeMouse ∨ s.gamingMode then
    { buttons := values.buttons % 256, x := int16 values.moveX, y := int16 values.moveY
      wheel := int8 values.wheel, pan := int8 values.pan
      mode := if s.bootMouseMode s.activeOutput then .bootRelative else .relative }
  else
    { buttons := values.buttons % 256, x := s.pointerX, y := s.pointerY
      wheel := int8 values.wheel, pan := int8 values.pan, mode := .absolute }

/-- `output_mouse_report`. -/
def outputMouseReport (report : MouseReport) : Device := { s with sent := s.sent ++ [report] }

end Device

end DeskhopPlus.Mouse
