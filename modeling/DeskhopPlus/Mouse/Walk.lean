import DeskhopPlus.Mouse.Device

/-!
# Walking the cursor

An absolute report reaches only one screen of a computer. Onto another the cursor is walked: put on
an edge and pushed past it by a relative report, of which the board copies what Windows does.
-/

namespace DeskhopPlus.Mouse

namespace Device

section

variable (s : Device)

/-- `walk_push`; `MACOS_WALK_COUNTS` is two. -/
def walkPush (output : Output) : Int :=
  if output.os ≠ .windows then 2 else max 2 (countsForPixels 2 output.pointerSpeed)

/-- `walk_speed`. -/
def walkSpeed (output : Output) (direction : Direction) : Int :=
  let speed := if direction.isVertical then output.speedY else output.speedX
  if 0 < speed then speed else 1

/-- A relative report of the walk, which presses no button. -/
def outputRelative (move : Coordinates) : Device :=
  s.outputMouseReport
    { buttons := 0, x := int16 move.x, y := int16 move.y, wheel := 0, pan := 0, mode := .relative }

/-- `walk_one_screen`. -/
def walkOneScreen (origin : Coordinates) (direction : Direction) : Device :=
  let edge := edgeCoordinates direction origin
  let s := s.outputMouseReport
    { buttons := s.mouseButtons % 256, x := int16 edge.x, y := int16 edge.y, wheel := 0, pan := 0
      mode := .absolute }
  s.outputRelative (nudge direction (walkPush s.current))

/-- `windows_moved`, of an output by its number: where the counts lead along an axis. -/
def windowsMoved (output : Nat) (vertical : Bool) (at_ counts : Int) : Device × Int :=
  let target := s.output output
  let (offset, part) :=
    estimateOffset at_ counts target.pointerSpeed (windowsPixels target vertical)
    (walkSpeed target (if vertical then .top else .left)) (s.windowsPartPixel output vertical)
  ({ s with windowsPartPixel := fun other axis ↦
      if other = output ∧ axis = vertical then part else s.windowsPartPixel other axis },
    at_ + offset)

/-- `on_next_monitor`. -/
def onNextMonitor (at_ : Int) : Int := (at_.tmod units + units).tmod units

/-- `walk_landing`. -/
def walkLanding (output : Nat) (direction : Direction) (origin : Coordinates) :
    Device × Coordinates :=
  let edge := edgeCoordinates direction origin
  let push := nudge direction (walkPush (s.output output))
  if direction.isVertical then
    let (s, y) := s.windowsMoved output true edge.y push.y
    (s, { edge with y := onNextMonitor y })
  else
    let (s, x) := s.windowsMoved output false edge.x push.x
    (s, { edge with x := onNextMonitor x })

end

/-- `send_relative`: the counts go out in reports of at most `MAX_SCREEN_COORD`. -/
def sendRelative (s : Device) (output : Nat) (direction : Direction) (at_ counts : Int) :
    Device × Int :=
  if 0 < counts then
    let chunk := min counts maxScreenCoord
    let move := nudge direction chunk
    let (s, at_) := (s.outputRelative move).windowsMoved output direction.isVertical at_
      (if direction.isVertical then move.y else move.x)
    sendRelative s output direction at_ (counts - chunk)
  else (s, at_)
termination_by counts.toNat
decreasing_by
  have hchunk : 0 < min counts maxScreenCoord := by
    unfold maxScreenCoord
    omega
  omega

/-- `send_relative`, a number of times. -/
def sendSteps (output : Nat) (direction : Direction) (counts : Int) :
    Nat → Device → Int → Device × Int
  | 0, s, at_ => (s, at_)
  | steps + 1, s, at_ =>
      let (s, at_) := s.sendRelative output direction at_ counts
      sendSteps output direction counts steps s at_

/-- The walk of a Mac: every step takes the cursor from the middle of an edge. -/
def walkSteps (direction : Direction) : Nat → Device → Device
  | 0, s => s
  | steps + 1, s => walkSteps direction steps (s.walkOneScreen ⟨16383, 16383⟩ direction)

variable (s : Device)

/-- The far half of `walk_to_arrival_screen` on Windows: where the screens past the first lie. -/
def walkFar (target : Nat) (screen steps : Nat) (direction : Direction) : Device × Coordinates :=
  let output := s.output target
  let vertical := direction.isVertical
  let speed := walkSpeed output direction
  let pixels := windowsPixels output vertical
  let counts := if pixels ≠ 0 then countsForPixels pixels output.pointerSpeed
    else min maxScreenCoord ((maxScreenCoord + speed).tdiv speed)
  let (s, landed) := s.walkLanding target direction ⟨16383, 16383⟩
  if 1 < steps ∧ screen = output.screenCount then
    -- past the far edge of the last screen, where Windows stops the cursor
    let s := (s.sendRelative target direction 0 (2 * steps * counts)).1
    let far := edgeCoordinates direction ⟨16383, 16383⟩
    (s, if vertical then { landed with y := far.y } else { landed with x := far.x })
  else
    let (s, reached) := sendSteps target direction counts (steps - 1) s
      (if vertical then landed.y else landed.x)
    (s, if vertical then { landed with y := onNextMonitor reached }
      else { landed with x := onNextMonitor reached })

/-- How far the walk goes back along the seam, at most a third of the way to an edge that has a
screen of this computer past it. -/
def walkDistance (alongChain forward screenPastEnd : Bool) (at_ distance : Int) : Int :=
  let distance :=
    if alongChain ∧ distance < 0 ∧ (forward ∨ screenPastEnd) ∧ distance < (-at_).tdiv 3 then
      (-at_).tdiv 3
    else distance
  if alongChain ∧ 0 < distance ∧ (forward = false ∨ screenPastEnd) ∧
      (maxScreenCoord - at_).tdiv 3 < distance then (maxScreenCoord - at_).tdiv 3
  else distance

/-- The near half of `walk_to_arrival_screen` on Windows: back along the seam, and onto the edge the
cursor came in by. -/
def walkNear (target : Nat) (screen : Nat) (direction travel : Direction) (entry : Coordinates) :
    Device :=
  let output := s.output target
  let seamVertical := travel.isVertical
  let along : Direction := if seamVertical then .right else .bottom
  let pixels := windowsPixels output !seamVertical
  let at_ := if seamVertical then s.pointerX else s.pointerY
  let distance := walkDistance (direction.isVertical != seamVertical) direction.isForward
    (decide (screen < output.screenCount)) at_ ((if seamVertical then entry.x else entry.y) - at_)
  let back :=
    if pixels ≠ 0 then
      countsNearest (((at_ + distance) * pixels).tdiv units - (at_ * pixels).tdiv units)
        output.pointerSpeed (s.windowsPartPixel target !seamVertical)
    else distance.tdiv (walkSpeed output along)
  let (s, reached) := s.sendRelative target (if back < 0 then along.opposite else along) at_
    back.natAbs
  let s := if seamVertical then { s with pointerX := int16 reached }
    else { s with pointerY := int16 reached }
  if direction.isVertical = seamVertical then s
  else
    let across := windowsPixels output seamVertical
    let past := if across ≠ 0 then countsForPixels (2 * across) output.pointerSpeed
      else min maxScreenCoord ((2 * units).tdiv (walkSpeed output travel))
    let s := (s.sendRelative target travel.opposite 0 past).1
    if seamVertical then { s with pointerY := int16 entry.y }
    else { s with pointerX := int16 entry.x }

/-- `walk_to_arrival_screen`. -/
def walkToArrivalScreen (target osScreen screen : Nat) (travel : Direction) : Device :=
  let output := s.output target
  let osScreen := if output.os = .windows then 1 else osScreen
  if output.os ≠ .windows ∧ output.os ≠ .macos then s
  else if osScreen = screen then s
  else
    let steps := if osScreen < screen then screen - osScreen else osScreen - screen
    let direction := if osScreen < screen then output.chainDirection
      else output.chainDirection.opposite
    let s := s.walkOneScreen ⟨16383, 16383⟩ direction
    if output.os = .macos then walkSteps direction (steps - 1) s
    else
      let entry := s.pointer
      let (s, landed) := s.walkFar target screen steps direction
      (s.put landed).walkNear target screen direction travel entry

end Device

end DeskhopPlus.Mouse
