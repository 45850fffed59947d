import DeskhopPlus.Mouse.Query
import DeskhopPlus.Mouse.Walk

/-!
# Crossing screens

A report that leaves the screen leads to the next screen of the chain or to the other computer, at
once or when a pending crossing is completed.
-/

namespace DeskhopPlus.Mouse

namespace Device

variable (s : Device)

/-- `set_active_output`. -/
def setActiveOutput (output : Nat) : Device :=
  { s with activeOutput := output, outputArrivalGuard := .none, outputArrivalReverse := 0 }

/-- `switch_to_another_pc`: away from an output, by its number. -/
def switchToAnotherPc (source target : Nat) (direction : Direction) : Device :=
  let pointer := s.pointer
  let output := s.output source
  let hidden := hiddenCoordinates direction s.current.mouseParkPos pointer
  let s := s.outputMouseReport
    { buttons := 0, x := int16 hidden.x, y := int16 hidden.y, wheel := 0, pan := 0
      mode := .absolute }
  let s := s.setActiveOutput target
  let s := (s.selectCursorScreen target (s.output target).screenIndex).1
  let s := s.put (entryCoordinates direction pointer)
  let map := fun coordinate ↦
    int16 (seamMapCoordinate coordinate (s.output output.number).borderStart
      (s.output output.number).borderEnd (s.output (1 - output.number)).borderStart
      (s.output (1 - output.number)).borderEnd)
  if direction.isVertical then { s with pointerX := map s.pointerX }
  else { s with pointerY := map s.pointerY }

/-- Where a relative cursor that went past an edge is on the next screen. -/
def pastEdge (pointer entry : Coordinates) : Coordinates :=
  let wrapped := fun coordinate entered ↦
    if coordinate < 0 then coordinate + units
    else if maxScreenCoord < coordinate then coordinate - units
    else entered
  ⟨wrapped pointer.x entry.x, wrapped pointer.y entry.y⟩

/-- `switch_virtual_desktop`: along the chain of an output, by its number. -/
def switchVirtualDesktop (n newIndex : Nat) (direction : Direction) (channel : Channel) : Device :=
  let pointer := s.pointer
  let output := s.output n
  if output.os = .windows ∧ s.relativeMouse = false ∧ channel.helper output.number = false then
    let s := s.walkOneScreen pointer direction
    let (s, landed) := s.walkLanding n direction pointer
    ((s.put landed).selectCursorScreen output.number newIndex).1
  else
    let s := if output.os = .macos then s.walkOneScreen pointer direction else s
    let entry := entryCoordinates direction pointer
    let entry :=
      if output.os = .windows ∧ s.relativeMouse then pastEdge pointer entry else entry
    ((s.put entry).selectCursorScreen output.number newIndex).1

/-- The position along the seam in the units of the seam, in 32 and then 16 bits. -/
def normalized (along : Int) : Nat :=
  ((along % 2 ^ 32).toNat * seamPositionMax + 16383) % 2 ^ 32 / 32767 % 2 ^ 16

/-- `dh_place_along`. -/
def placeAlong (position span : Nat) : Int := (position * (span - 1) + 32767) / 65535

/-- `cross_screen` to the other computer, once the place of the pointer is settled. -/
def crossOutput (direction : Direction) (channel : Channel) : Device :=
  let source := s.activeOutput
  let target := 1 - s.activeOutput
  let crossing := seamResolveCrossing (s.output source).seamRanges (s.output target).seamRanges
    (s.output source).screenIndex (s.output source).screenCount (s.output target).screenCount
    (normalized (alongSeam direction s.pointer))
  if crossing = .blocked then s.put (edgeCoordinates direction s.pointer)
  else
    let s := s.switchToAnotherPc source target direction
    let s := { s with outputArrivalGuard := direction.opposite, outputArrivalReverse := 0 }
    let output := s.output target
    let osScreen := output.screenIndex
    let helper := channel.helper output.number
    match crossing with
    | .mapped screen position =>
        let entry : Int := ((position * 32767 + 32767) / seamPositionMax : Nat)
        let s := if direction.isVertical then { s with pointerX := int16 entry }
          else { s with pointerY := int16 entry }
        let (s, selected) := s.selectCursorScreen output.number screen
        if selected = false then s
        else if helper then
          let span := windowsPixels output !direction.isVertical
          if s.relativeMouse ∧ span ≠ 0 then
            -- the first unit of the pixel the helper puts the cursor on
            let place := int16 ((placeAlong position span * units + span - 1).tdiv span)
            if direction.isVertical then { s with pointerX := place }
            else { s with pointerY := place }
          else s
        else s.walkToArrivalScreen target osScreen (s.output target).screenIndex direction
    | _ => s.walkToArrivalScreen target osScreen (s.output target).screenIndex direction

/-- `cross_screen`. -/
def crossScreen (direction : Direction) (sourceResolved : Bool) (channel : Channel) : Device :=
  match s.actionableTransitionFor direction s.mouseButtons with
  | .none => s
  | .output =>
      if s.relativeMouse ∧ sourceResolved = false then
        let (s, pending) := s.querySourceCursor direction .sourceReanchor channel
        if pending then s else s.crossOutput direction channel
      else s.crossOutput direction channel
  | transition =>
      let n := s.activeOutput
      if (s.output n).os = .windows ∧ s.relativeMouse ∧ sourceResolved = false then
        let (s, pending) := s.querySourceCursor direction .chainReanchor channel
        if pending then s
        else s.switchVirtualDesktop n
          (nextScreenIndex transition (s.output n).screenIndex) direction
          channel
      else if (s.output n).os = .macos then
        let queryId := s.nextQueryId
        let s := (s.wait .macosPlacement direction
          (nextScreenIndex transition (s.output n).screenIndex)
          (normalized (alongSeam direction s.pointer)) channel.nowUs).hearAll channel.between
        if channel.placed then s
        else
          let s := if s.awaits queryId then s.clearCrossing else s
          s.switchVirtualDesktop n (nextScreenIndex transition (s.output n).screenIndex) direction
            channel
      else
        s.switchVirtualDesktop n (nextScreenIndex transition (s.output n).screenIndex) direction
          channel

/-- `cursor_output_switched`. -/
def cursorOutputSwitched : Device :=
  (s.selectCursorScreen s.activeOutput
    (if s.current.os = .windows then 1 else s.current.screenIndex)).1

/-- `do_screen_switch`. -/
def doScreenSwitch (direction : Direction) (channel : Channel) : Device :=
  if s.crossing.phase ≠ .idle then s else s.crossScreen direction false channel

/-- `process_mouse_report`, from the values of the report on. -/
def processMouseReport (accelerate : Int → Int → Int → Int → Int) (values : MouseValues)
    (channel : Channel) : Device :=
  if values.moveX = 0 ∧ values.moveY = 0 ∧ values.wheel = 0 ∧ values.pan = 0 ∧
      values.buttons = s.mouseButtons then s
  else
    let (s, values, direction) := s.updateMousePosition accelerate values
    let s := s.outputMouseReport (s.createMouseReport values)
    if direction = .none then s else s.doScreenSwitch direction channel

/-- `CURSOR_REANCHOR_TIMEOUT_US`. -/
def reanchorTimeoutUs : UInt32 := 30000

/-- The end of `mouse_crossing_task`: a pending crossing that is answered, or has waited too long,
is retired and completed. One along the chain of Windows that has waited too long is given up. -/
def completeCrossing (nowUs : UInt32) (channel : Channel) : Device :=
  let timedOut := decide (s.crossing.phase = .waiting) &&
    decide (reanchorTimeoutUs ≤ nowUs - s.crossing.startedUs)
  if s.crossing.phase = .waiting ∧ timedOut = false then s
  else if s.crossing.kind = .macosPlacement ∧ s.crossing.phase = .reanchored then s.clearCrossing
  else if s.crossing.kind = .chainReanchor ∧ timedOut then s.clearCrossing
  else if s.crossing.kind = .macosPlacement then
    s.clearCrossing.switchVirtualDesktop s.activeOutput s.crossing.targetScreen s.crossing.direction
      channel
  else s.clearCrossing.crossScreen s.crossing.direction true channel

/-- A query that could not be sent is sent again. -/
def retryQuery (nowUs : UInt32) (result : QueryResult) : Device :=
  match result with
  | .sent => { s with crossing := { s.crossing with querySent := true, startedUs := nowUs } }
  | .unavailable => { s with crossing := { s.crossing with phase := .fallback } }
  | .retry => s

/-- The crossing waits for the helper to say where the cursor is. -/
def reanchors : Prop :=
  s.crossing.phase = .waiting ∧
    (s.crossing.kind = .sourceReanchor ∨ s.crossing.kind = .chainReanchor)

instance : Decidable s.reanchors := inferInstanceAs (Decidable (_ ∧ _))

/-- `mouse_crossing_task`. While a query is sent again the lock is free, and `gap` is what the other
core publishes then. -/
def mouseCrossingTask (nowUs : UInt32) (result : QueryResult) (gap : List Notice)
    (channel : Channel) : Device :=
  if s.crossing.phase = .idle then s
  else if s.activeOutput ≠ s.crossing.output ∨
      (s.crossing.kind = .sourceReanchor ∧ s.mouseButtons ≠ 0) ∨ s.switchLock ∨ s.gamingMode then
    s.clearCrossing
  else if s.crossing.phase = .cancelled then s.clearCrossing
  else if s.reanchors ∧ s.crossing.querySent = false then
    let retried := s.crossing
    let s := s.hearAll gap
    if s.reanchors ∧ s.crossing.output = retried.output ∧ s.crossing.queryId = retried.queryId then
      (s.retryQuery nowUs result).completeCrossing nowUs channel
    else s
  else s.completeCrossing nowUs channel

/-- `output_toggle_hotkey_handler`. -/
def toggleOutput : Device :=
  if s.switchLock then s
  else (s.setActiveOutput (if s.activeOutput = 0 then 1 else 0)).cursorOutputSwitched

/-- `handle_output_select_msg`: the other board switched. -/
def selectOutput (output : Nat) : Device := (s.setActiveOutput output).cursorOutputSwitched

/-- `handle_mouse_abs_uart_msg`: the other board passes on a report of its mouse. Unless it is one
of the boot protocol, whatever it moves becomes the place of the pointer. -/
def handleMouseAbsUartMsg (report : MouseReport) : Device :=
  let s := s.outputMouseReport report
  let s := if report.mode ≠ .bootRelative then s.put ⟨report.x, report.y⟩ else s
  { s with mouseButtons := report.buttons % 256 }

end Device

/-- What happens to the mouse of a board: a report of the mouse, a pass of `mouse_crossing_task`, a
notice of the other core, a change of the lock or of the gaming mode, a switch of the output here
or by the other board, or a report of the mouse of the other board. -/
inductive MouseEvent where
  | report (values : MouseValues) (channel : Channel)
  | task (nowUs : UInt32) (result : QueryResult) (gap : List Notice) (channel : Channel)
  | notice (notice : Notice)
  | lock (on : Bool)
  | gaming (on : Bool)
  | toggle
  | select (output : Nat)
  | passed (report : MouseReport)

/-- One event. -/
def Device.next (accelerate : Int → Int → Int → Int → Int) (s : Device) : MouseEvent → Device
  | .report values channel => s.processMouseReport accelerate values channel
  | .task nowUs result gap channel => s.mouseCrossingTask nowUs result gap channel
  | .notice notice => s.hear notice
  | .lock on => { s with switchLock := on }
  | .gaming on => { s with gamingMode := on }
  | .toggle => s.toggleOutput
  | .select output => s.selectOutput output
  | .passed report => s.handleMouseAbsUartMsg report

end DeskhopPlus.Mouse
