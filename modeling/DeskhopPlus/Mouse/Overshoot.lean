import DeskhopPlus.Library.Runs
import DeskhopPlus.Mouse.Crossing

/-!
# The overshoot of a relative crossing

A report that takes a relative screen of Windows along the chain leaves the pointer past the edge,
in a variable of 16 bits whose largest value is the edge itself. Past the right or the lower edge it
wraps. The switch undoes the wrap; a crossing that is given up does not, and the next report then
starts from the opposite edge: `overshoot_returns_iff`.
-/

namespace DeskhopPlus.Mouse

open Runs

/-! ## Variables of 16 bits -/

/-- A coordinate on the screen. -/
def OnScreen (coordinate : Int) : Prop := 0 ≤ coordinate ∧ coordinate ≤ 32767

instance (coordinate : Int) : Decidable (OnScreen coordinate) := inferInstanceAs (Decidable (_ ∧ _))

theorem int16_self {value : Int} (hlow : -32768 ≤ value) (hhigh : value ≤ 32767) :
    int16 value = value :=
  Int.bmod_eq_of_le (by omega) (by omega)

/-- Past the greatest value a variable of 16 bits wraps. -/
theorem int16_wraps {value : Int} (hlow : 32768 ≤ value) (hhigh : value ≤ 65535) :
    int16 value = value - 65536 := by
  unfold int16
  rw [Int.bmod_def]
  omega

theorem moveAndKeepOnScreen_self {coordinate : Int} (h : OnScreen coordinate) :
    moveAndKeepOnScreen coordinate 0 = coordinate := by
  obtain ⟨hlow, hhigh⟩ := h
  unfold moveAndKeepOnScreen maxScreenCoord
  split_ifs <;> omega

theorem int16_onScreen {coordinate : Int} (h : OnScreen coordinate) :
    int16 coordinate = coordinate :=
  int16_self (by have := h.1; omega) h.2

/-! ## The decision -/

/-- A transition along the chain. -/
def Transition.isChain : Transition → Bool
  | .chainBack | .chainForward => true
  | _ => false

/-- Where an edge is. -/
def Direction.edge (direction : Direction) : Int := if direction.isForward then 32767 else 0

/-- A crossing of an edge in a direction goes past it. -/
theorem boundaryCrossing_past {output : Output} {jumpThreshold : Nat} {position offset : Int}
    {negative positive : Direction}
    (hcrosses :
      (output.boundaryCrossing jumpThreshold position offset negative positive).direction ≠
      .none) :
    ((output.boundaryCrossing jumpThreshold position offset negative positive).direction =
      negative ∧
        position + offset < 0) ∨
      ((output.boundaryCrossing jumpThreshold position offset negative positive).direction =
        positive ∧ 32767 < position + offset) := by
  by_cases hzero : offset = 0
  · exact absurd (by unfold Output.boundaryCrossing; rw [if_pos hzero]) hcrosses
  · obtain ⟨threshold, hshape⟩ : ∃ threshold : Nat,
        output.boundaryCrossing jumpThreshold position offset negative positive =
          if position + offset < 0 - threshold then ⟨negative, 0 - (position + offset)⟩
          else if maxScreenCoord + threshold < position + offset then
            ⟨positive, position + offset - maxScreenCoord⟩
          else ⟨.none, 0⟩ := ⟨_, if_neg hzero⟩
    rw [hshape] at hcrosses ⊢
    unfold maxScreenCoord at hcrosses ⊢
    split_ifs at hcrosses ⊢
    · exact .inl ⟨rfl, by omega⟩
    · exact .inr ⟨rfl, by omega⟩
    · exact absurd rfl hcrosses

/-- A transition along the chain goes along its axis. -/
theorem isVertical_of_chain {layout : Layout} {screenIndex screenCount : Nat}
    {movement : Direction}
    (hchain : (transitionFor layout screenIndex screenCount movement).isChain = true) :
    movement.isVertical = layout.chainDirection.isVertical := by
  unfold transitionFor at hchain
  split_ifs at hchain with houtput hforward hback
  · cases hchain
  · rw [hforward.1]
  · rw [hback.1]
    cases layout.chainDirection <;> rfl
  · cases hchain

namespace Device

/-- Nothing keeps the pointer from crossing. -/
def Free (s : Device) : Prop :=
  s.switchLock = false ∧ s.gamingMode = false ∧ s.bootMouseMode s.activeOutput = false

variable {s : Device}

/-- A transition along the chain does not depend on the buttons. -/
theorem actionable_chain {direction : Direction} {buttons : Int} {transition : Transition}
    (hchain : transition.isChain = true) :
    s.actionableTransitionFor direction buttons = transition ↔
      s.Free ∧ direction ≠ .none ∧
        transitionFor s.current.layout s.current.screenIndex s.current.screenCount direction =
          transition := by
  have hsome : transition ≠ .none := by
    rintro rfl
    cases hchain
  have hnoutput : transition ≠ .output := by
    rintro rfl
    cases hchain
  unfold actionableTransitionFor
  split_ifs with hno
  · refine ⟨fun h ↦ absurd h.symm hsome, fun h ↦ ?_⟩
    obtain ⟨⟨hlock, hgaming, hboot⟩, hdirection, -⟩ := h
    simp [hlock, hgaming, hboot, hdirection] at hno
  · push Not at hno
    have hfree : s.Free :=
      ⟨by simpa using hno.2.1, by simpa using hno.2.2.1, by simpa using hno.2.2.2⟩
    dsimp only
    split_ifs with houtput
    · refine ⟨fun h ↦ absurd h.symm hsome, fun h ↦ ?_⟩
      exact absurd (h.2.2.symm.trans houtput.1) hnoutput
    · exact ⟨fun h ↦ ⟨hfree, hno.1, h⟩, fun h ↦ h.2.2⟩

/-- The pointer is on a relative screen of Windows, and no crossing is pending. -/
structure OnRelative (s : Device) : Prop where
  windows : s.current.os = .windows
  relative : s.relativeMouse = true
  idle : s.crossing.phase = .idle
  numbered : s.current.number = s.activeOutput
  active : s.activeOutput ≤ 1
  chain : OnChain s.current.screenIndex s.current.screenCount
  x : OnScreen s.pointerX
  y : OnScreen s.pointerY

/-- The chain goes up or down. -/
def chainVertical (s : Device) : Bool := s.current.chainDirection.isVertical

/-- How far a report moves the pointer along an axis, as the board estimates it. -/
def offsetAlong (s : Device) (values : MouseValues) (vertical : Bool) : Int :=
  (estimateOffset (s.axis vertical) (if vertical then values.moveY else values.moveX)
    s.current.pointerSpeed (windowsPixels s.current vertical)
    (if vertical then s.current.speedY else s.current.speedX)
    (s.windowsPartPixel s.activeOutput vertical)).1

variable {accelerate : Int → Int → Int → Int → Int} {values : MouseValues}

theorem spendOvershoot_self (hx : OnScreen s.pointerX) (hy : OnScreen s.pointerY) :
    s.spendOvershoot = s := by
  unfold spendOvershoot put
  simp only [moveAndKeepOnScreen_self hx, moveAndKeepOnScreen_self hy, int16_onScreen hx,
    int16_onScreen hy]

/-- The guard of the arrival is all that it changes. -/
theorem guardArrival_eq (s : Device) (values : MouseValues) (offset : Coordinates) :
    ∃ guard reverse, (s.guardArrival values offset).1 =
      { s with outputArrivalGuard := guard, outputArrivalReverse := reverse } := by
  unfold guardArrival
  dsimp only
  split_ifs
  all_goals exact ⟨_, _, rfl⟩

theorem offsets_relative (h : s.relativeMouse = true) :
    ∃ part, s.offsets accelerate values =
      ({ s with windowsPartPixel := part },
        ⟨s.offsetAlong values false, s.offsetAlong values true⟩) :=
  ⟨_, if_pos h⟩

/-- The decision on a report on a relative screen. -/
theorem decideOn_eq (h : s.OnRelative) :
    ∃ part guard reverse, ∃ free : Direction → Bool,
      s.decideOn accelerate values =
        let horizontal := s.current.boundaryCrossing s.jumpThreshold s.pointerX
          (s.offsetAlong values false) .left .right
        let vertical := s.current.boundaryCrossing s.jumpThreshold s.pointerY
          (s.offsetAlong values true) .top .bottom
        let actionable := fun direction ↦
          decide (s.actionableTransitionFor direction values.buttons ≠ .none) && free direction
        let direction := chosenDirection horizontal vertical (actionable horizontal.direction)
          (actionable vertical.direction)
        { device :=
            { s with
              windowsPartPixel := part
              outputArrivalGuard := guard
              outputArrivalReverse := reverse }
          offset := ⟨s.offsetAlong values false, s.offsetAlong values true⟩
          horizontalActionable := actionable horizontal.direction
          verticalActionable := actionable vertical.direction
          direction := direction
          transition := s.actionableTransitionFor direction values.buttons } := by
  obtain ⟨part, hoffsets⟩ := @offsets_relative s accelerate values h.relative
  obtain ⟨guard, reverse, hguard⟩ := guardArrival_eq { s with windowsPartPixel := part } values
    ⟨s.offsetAlong values false, s.offsetAlong values true⟩
  refine ⟨part, guard, reverse, fun direction ↦
    !(({ s with windowsPartPixel := part }.guardArrival values
      ⟨s.offsetAlong values false, s.offsetAlong values true⟩).2 &&
      decide (direction = s.outputArrivalGuard)), ?_⟩
  unfold decideOn
  rw [spendOvershoot_self h.x h.y, hoffsets]
  dsimp only
  rw [hguard]
  rfl

/-- What the decision leaves as it was. -/
theorem decideOn_device (h : s.OnRelative) :
    ∃ part guard reverse, (s.decideOn accelerate values).device =
      { s with
        windowsPartPixel := part
        outputArrivalGuard := guard
        outputArrivalReverse := reverse } := by
  obtain ⟨part, guard, reverse, _, hdecide⟩ := @decideOn_eq s accelerate values h
  exact ⟨part, guard, reverse, congrArg Decision.device hdecide⟩

/-- A report that takes the chain from a relative screen: it goes past an edge along the axis of the
chain, and nothing keeps it from crossing. -/
structure TakesChain (accelerate : Int → Int → Int → Int → Int) (s : Device)
    (values : MouseValues) : Prop where
  free : s.Free
  some : (s.decideOn accelerate values).direction ≠ .none
  transition : transitionFor s.current.layout s.current.screenIndex s.current.screenCount
    (s.decideOn accelerate values).direction = (s.decideOn accelerate values).transition
  chain : (s.decideOn accelerate values).transition.isChain = true
  along : (s.decideOn accelerate values).direction.isVertical = s.chainVertical
  actionable : (if s.chainVertical then (s.decideOn accelerate values).verticalActionable
    else (s.decideOn accelerate values).horizontalActionable) = true
  past : ((s.decideOn accelerate values).direction.isForward = false ∧
      s.axis s.chainVertical + s.offsetAlong values s.chainVertical < 0) ∨
    ((s.decideOn accelerate values).direction.isForward = true ∧
      32767 < s.axis s.chainVertical + s.offsetAlong values s.chainVertical)

/-- The chosen direction is that of an axis whose crossing is actionable. -/
theorem chosenDirection_cases {horizontal vertical : BoundaryCrossing} {first second : Bool}
    (h : chosenDirection horizontal vertical first second ≠ .none) :
    (second = true ∧ chosenDirection horizontal vertical first second = vertical.direction) ∨
      (first = true ∧ chosenDirection horizontal vertical first second = horizontal.direction) := by
  unfold chosenDirection at h ⊢
  split_ifs at h ⊢ with hsecond hfirst
  · exact .inl ⟨hsecond.1, rfl⟩
  · exact .inr ⟨hfirst, rfl⟩
  · exact absurd rfl h

theorem takesChain (h : s.OnRelative)
    (hchain : (s.decideOn accelerate values).transition.isChain = true) :
    TakesChain accelerate s values := by
  obtain ⟨part, guard, reverse, free, hdecide⟩ := @decideOn_eq s accelerate values h
  extract_lets horizontal vertical actionable direction at hdecide
  have hdirection : (s.decideOn accelerate values).direction = direction := by rw [hdecide]
  have htransition : (s.decideOn accelerate values).transition =
      s.actionableTransitionFor direction values.buttons := by rw [hdecide]
  obtain ⟨hfree, hsome, hto⟩ := (actionable_chain hchain).1 htransition.symm
  have halong : direction.isVertical = s.chainVertical :=
    isVertical_of_chain (by rwa [hto])
  rcases chosenDirection_cases hsome with ⟨hon, hsame⟩ | ⟨hon, hsame⟩
  · have hpast := boundaryCrossing_past (by rwa [← hsame])
    have hvertical : s.chainVertical = true := by
      rw [← halong, show direction = vertical.direction from hsame]
      rcases hpast with ⟨hedge, -⟩ | ⟨hedge, -⟩ <;> exact congrArg Direction.isVertical hedge
    refine ⟨hfree, by rwa [hdirection], by rwa [hdirection], hchain, by rwa [hdirection], ?_, ?_⟩
    · rw [if_pos hvertical, hdecide]
      exact hon
    · rw [hvertical, hdirection, show direction = vertical.direction from hsame]
      rcases hpast with ⟨hedge, hpast⟩ | ⟨hedge, hpast⟩
      · exact .inl ⟨congrArg Direction.isForward hedge, hpast⟩
      · exact .inr ⟨congrArg Direction.isForward hedge, hpast⟩
  · have hpast := boundaryCrossing_past (by rwa [← hsame])
    have hvertical : s.chainVertical = false := by
      rw [← halong, show direction = horizontal.direction from hsame]
      rcases hpast with ⟨hedge, -⟩ | ⟨hedge, -⟩ <;> exact congrArg Direction.isVertical hedge
    refine ⟨hfree, by rwa [hdirection], by rwa [hdirection], hchain, by rwa [hdirection], ?_, ?_⟩
    · rw [if_neg (by simp [hvertical]), hdecide]
      exact hon
    · rw [hvertical, hdirection, show direction = horizontal.direction from hsame]
      rcases hpast with ⟨hedge, hpast⟩ | ⟨hedge, hpast⟩
      · exact .inl ⟨congrArg Direction.isForward hedge, hpast⟩
      · exact .inr ⟨congrArg Direction.isForward hedge, hpast⟩

/-! ## The pointer past the edge -/

/-- What a crossing along the chain depends on, with the pointer where it is left. -/
structure Parked (s : Device) (vertical : Bool) (place : Int) (s' : Device) : Prop where
  output : s'.output = s.output
  active : s'.activeOutput = s.activeOutput
  boot : s'.bootMouseMode = s.bootMouseMode
  relative : s'.relativeMouse = s.relativeMouse
  place : s'.axis vertical = place

/-- An axis whose crossing is taken goes by the offset, in 16 bits; nothing but the pointer
moves. -/
theorem keepOvershoot_eq (offset : Coordinates) {direction : Direction} {first second : Bool}
    (hx : OnScreen s.pointerX) (hy : OnScreen s.pointerY)
    (hactionable : (if direction.isVertical then second else first) = true) :
    ∃ x y, (s.moveKept offset first second).keepOvershoot offset direction =
        { s with pointerX := x, pointerY := y } ∧
      (if direction.isVertical then y else x) = int16 (s.axis direction.isVertical +
        (if direction.isVertical then offset.y else offset.x)) := by
  unfold keepOvershoot moveKept put axis
  cases hvertical : direction.isVertical with
  | true =>
      rw [hvertical, if_pos rfl] at hactionable
      rw [hactionable]
      refine ⟨_, _, rfl, ?_⟩
      show int16 (int16 s.pointerY + offset.y) = int16 (s.pointerY + offset.y)
      rw [int16_onScreen hy]
  | false =>
      rw [hvertical, if_neg (by decide)] at hactionable
      rw [hactionable]
      refine ⟨_, _, rfl, ?_⟩
      show int16 (int16 s.pointerX + offset.x) = int16 (s.pointerX + offset.x)
      rw [int16_onScreen hx]

/-- A report that takes the chain leaves the pointer past the edge. -/
theorem parked_update (h : s.OnRelative) (ht : TakesChain accelerate s values) :
    Parked s s.chainVertical
        (int16 (s.axis s.chainVertical + s.offsetAlong values s.chainVertical))
        (s.updateMousePosition accelerate values).1 ∧
      (s.updateMousePosition accelerate values).1.switchLock = s.switchLock ∧
      (s.updateMousePosition accelerate values).1.gamingMode = s.gamingMode ∧
      (s.updateMousePosition accelerate values).1.crossing = s.crossing ∧
      (s.updateMousePosition accelerate values).2.2 = (s.decideOn accelerate values).direction := by
  have hsome : (s.decideOn accelerate values).transition ≠ .none := by
    intro hnone
    have hchain := ht.chain
    rw [hnone] at hchain
    cases hchain
  have hnoutput : (s.decideOn accelerate values).transition ≠ .output := by
    intro houtput
    have hchain := ht.chain
    rw [houtput] at hchain
    cases hchain
  have hshape : s.updateMousePosition accelerate values =
      ({ ((s.decideOn accelerate values).device.moveKept (s.decideOn accelerate values).offset
            (s.decideOn accelerate values).horizontalActionable
            (s.decideOn accelerate values).verticalActionable).keepOvershoot
          (s.decideOn accelerate values).offset (s.decideOn accelerate values).direction with
          mouseButtons := int16 values.buttons },
        passedOn values (s.decideOn accelerate values),
        (s.decideOn accelerate values).direction) := by
    obtain ⟨part, guard, reverse, hdevice⟩ := @decideOn_device s accelerate values h
    unfold updateMousePosition
    rw [if_neg (by simp [h.idle])]
    dsimp only
    rw [if_pos]
    refine ⟨?_, hsome, hnoutput⟩
    rw [hdevice]
    exact h.relative
  obtain ⟨part, guard, reverse, _, hdecide⟩ := @decideOn_eq s accelerate values h
  have hdevice := congrArg Decision.device hdecide
  have hoffset := congrArg Decision.offset hdecide
  have hactionable := ht.actionable
  rw [← ht.along] at hactionable
  -- the overshoot is kept along the chain, so the place there is the unclamped one
  obtain ⟨x, y, hkept, hplace⟩ := keepOvershoot_eq (s := (s.decideOn accelerate values).device)
    (s.decideOn accelerate values).offset (by rw [hdevice]; exact h.x)
    (by rw [hdevice]; exact h.y) hactionable
  rw [hshape, hkept, hdevice]
  refine ⟨⟨rfl, rfl, rfl, rfl, ?_⟩, rfl, rfl, rfl, rfl⟩
  rw [hdevice, hoffset, ht.along] at hplace
  show (if s.chainVertical then y else x) = _
  rw [hplace]
  cases s.chainVertical <;> rfl

/-- A screen of the active output is selected. -/
theorem selectCursorScreen_eq {output : Nat} (screen : Nat) (hactive : output = s.activeOutput)
    (hside : output ≤ 1) (hscreen : OnChain screen (s.output output).screenCount) :
    s.selectCursorScreen output screen =
      ({ s with
          output := Function.update s.output output { s.output output with screenIndex := screen }
          relativeMouse :=
            decide ((s.output output).os = .windows) && decide (1 < screen) }, true) := by
  obtain ⟨hfirst, hlast⟩ := hscreen
  unfold selectCursorScreen
  rw [if_neg (by omega)]

/-- A switch along the chain undoes the wrap: the pointer is as far past the edge of the new screen
as it was past that of the old. -/
theorem switch_parked {s' : Device} {vertical : Bool} {place : Int} (direction : Direction)
    {newIndex : Nat} (channel : Channel) (h : s.OnRelative) (hp : Parked s vertical place s')
    (hlow : -32768 ≤ place) (hhigh : place < 0)
    (hnew : OnChain newIndex s.current.screenCount) :
    (s'.switchVirtualDesktop s.activeOutput newIndex direction channel).current.screenIndex =
        newIndex ∧
      (s'.switchVirtualDesktop s.activeOutput newIndex direction channel).axis vertical =
        place + 32768 ∧
      (s'.switchVirtualDesktop s.activeOutput newIndex direction channel).crossing =
        s'.crossing := by
  have hcurrent : s'.output s.activeOutput = s.current := congrFun hp.output s.activeOutput
  have hshape : ∃ x y, s'.switchVirtualDesktop s.activeOutput newIndex direction channel =
      ({ s' with pointerX := x, pointerY := y }.selectCursorScreen s.activeOutput newIndex).1 ∧
      (if vertical then y else x) = place + 32768 := by
    unfold switchVirtualDesktop
    rw [hcurrent]
    dsimp only
    rw [if_neg (by simp [h.relative, hp.relative]), if_neg (by simp [h.windows]),
      if_pos ⟨h.windows, hp.relative.trans h.relative⟩, h.numbered]
    refine ⟨_, _, rfl, ?_⟩
    have hplace := hp.place
    have hwrapped : int16 (place + 32768) = place + 32768 := int16_self (by omega) (by omega)
    cases vertical with
    | true =>
        show int16 (if s'.pointerY < 0 then s'.pointerY + units else _) = _
        rw [show s'.pointerY = place from hplace, if_pos hhigh]
        exact hwrapped
    | false =>
        show int16 (if s'.pointerX < 0 then s'.pointerX + units else _) = _
        rw [show s'.pointerX = place from hplace, if_pos hhigh]
        exact hwrapped
  obtain ⟨x, y, hswitch, haxis⟩ := hshape
  have hselect := selectCursorScreen_eq (s := { s' with pointerX := x, pointerY := y })
    newIndex hp.active.symm h.active (by rw [hcurrent]; exact hnew)
  rw [hswitch, hselect]
  refine ⟨?_, haxis, rfl⟩
  simp only [current, hp.active, Function.update_self]

/-! ## No helper answers -/

/-- The notice brings no position: it is not one, or it is refused. -/
def Silent (s : Device) : Notice → Prop
  | .readback output screen x y queryId =>
      (s.applyHelperCursorPosition output screen ⟨x, y⟩ queryId).2 = false
  | .unavailable .. => True

/-- A position that is refused changes nothing. -/
theorem apply_refused {output screen : Nat} {at_ : Coordinates} {queryId : UInt8}
    (h : (s.applyHelperCursorPosition output screen at_ queryId).2 = false) :
    (s.applyHelperCursorPosition output screen at_ queryId).1 = s := by
  unfold applyHelperCursorPosition at h ⊢
  split_ifs at h ⊢ with hrefused
  · rfl
  · dsimp only at h ⊢
    split_ifs at h ⊢ with hselected
    unfold selectCursorScreen at hselected ⊢
    split_ifs at hselected ⊢
    rfl

/-- A crossing along the chain pends, with the pointer left past the edge. -/
structure Pends (s : Device) (direction : Direction) (place : Int) (s' : Device) : Prop where
  parked : Parked s direction.isVertical place s'
  kind : s'.crossing.kind = .chainReanchor
  direction : s'.crossing.direction = direction
  output : s'.crossing.output = s.activeOutput
  phase : s'.crossing.phase = .waiting ∨ s'.crossing.phase = .fallback

variable {s' : Device} {direction : Direction} {place : Int}

theorem Pends.hear {notice : Notice} (h : Pends s direction place s') (hsilent : Silent s' notice) :
    Pends s direction place (s'.hear notice) := by
  cases notice with
  | readback output screen x y queryId =>
      show Pends s direction place (s'.applyHelperCursorPosition output screen ⟨x, y⟩ queryId).1
      rwa [apply_refused hsilent]
  | unavailable output queryId =>
      show Pends s direction place (s'.queryUnavailable output queryId)
      unfold queryUnavailable
      split
      · have hp := h.parked
        exact ⟨⟨hp.output, hp.active, hp.boot, hp.relative, hp.place⟩, h.kind,
          h.direction, h.output,
          .inr rfl⟩
      · exact h

/-- The switches that keep the pointer from crossing are off. -/
def Unlocked (s : Device) : Prop := s.switchLock = false ∧ s.gamingMode = false

theorem Unlocked.hear {notice : Notice} (h : s.Unlocked) (hsilent : Silent s notice) :
    (s.hear notice).Unlocked := by
  cases notice with
  | readback output screen x y queryId =>
      show (s.applyHelperCursorPosition output screen ⟨x, y⟩ queryId).1.Unlocked
      rwa [apply_refused hsilent]
  | unavailable output queryId =>
      show (s.queryUnavailable output queryId).Unlocked
      unfold queryUnavailable
      split <;> exact h

theorem Pends.hearAll {notices : List Notice} (h : Pends s direction place s')
    (hsilent : Along Device.hear Silent s' notices) :
    Pends s direction place (s'.hearAll notices) :=
  run_invariant_along (Pends s direction place) h (fun _ _ h hsilent ↦ h.hear hsilent) hsilent

theorem Unlocked.hearAll {notices : List Notice} (h : s.Unlocked)
    (hsilent : Along Device.hear Silent s notices) : (s.hearAll notices).Unlocked :=
  run_invariant_along Unlocked h (fun _ _ h hsilent ↦ h.hear hsilent) hsilent

/-- How a crossing along the chain ends: on the new screen, or given up with the pointer past the
edge. -/
structure Ends (s : Device) (direction : Direction) (newIndex : Nat) (place : Int)
    (s' : Device) : Prop where
  idle : s'.crossing.phase = .idle
  pointer : (s'.current.screenIndex = newIndex ∧ s'.axis direction.isVertical = place + 32768) ∨
    (s'.current.screenIndex = s.current.screenIndex ∧ s'.axis direction.isVertical = place)

/-- A crossing along the chain of Windows that nothing keeps from happening. -/
structure Crosses (s : Device) (direction : Direction) (transition : Transition) : Prop where
  some : direction ≠ .none
  boot : s.bootMouseMode s.activeOutput = false
  leads : transitionFor s.current.layout s.current.screenIndex s.current.screenCount direction =
    transition
  chain : transition.isChain = true

theorem Crosses.actionable {transition : Transition} (hc : s.Crosses direction transition)
    {vertical : Bool} (hp : Parked s vertical place s') (hunlocked : s'.Unlocked) (buttons : Int) :
    s'.actionableTransitionFor direction buttons = transition := by
  have hcurrent : s'.current = s.current := by
    unfold current
    rw [hp.output, hp.active]
  refine (actionable_chain hc.chain).2 ⟨⟨hunlocked.1, hunlocked.2, ?_⟩, hc.some, ?_⟩
  · rw [hp.boot, hp.active, hc.boot]
  · rw [hcurrent, hc.leads]

/-- A crossing that is resolved switches at once. -/
theorem crossScreen_resolved {transition : Transition} {channel : Channel} (h : s.OnRelative)
    (hc : s.Crosses direction transition) {vertical : Bool} (hp : Parked s vertical place s')
    (hunlocked : s'.Unlocked) :
    s'.crossScreen direction true channel =
      s'.switchVirtualDesktop s.activeOutput (nextScreenIndex transition s.current.screenIndex)
        direction channel := by
  have hcurrent : s'.output s.activeOutput = s.current := congrFun hp.output s.activeOutput
  have hchain := hc.chain
  unfold crossScreen
  rw [hc.actionable hp hunlocked, hp.active]
  cases transition with
  | none | output => cases hchain
  | chainBack | chainForward =>
      dsimp only
      rw [if_neg (by simp), hcurrent, if_neg (by simp [h.windows])]

section

variable {transition : Transition} {channel : Channel}

theorem Parked.cleared {vertical : Bool} (hp : Parked s vertical place s') :
    Parked s vertical place s'.clearCrossing :=
  ⟨hp.output, hp.active, hp.boot, hp.relative, hp.place⟩

/-- A crossing that is given up ends where the report left it. -/
theorem ends_cleared {newIndex : Nat} (hp : Parked s direction.isVertical place s') :
    Ends s direction newIndex place s'.clearCrossing := by
  refine ⟨rfl, .inr ⟨?_, hp.place⟩⟩
  show (s'.output s'.activeOutput).screenIndex = _
  rw [hp.output, hp.active]
  rfl

/-- A crossing that switches ends on the new screen. -/
theorem ends_switched (h : s.OnRelative) (hc : s.Crosses direction transition)
    (hp : Parked s direction.isVertical place s') (hidle : s'.crossing.phase = .idle)
    (hlow : -32768 ≤ place) (hhigh : place < 0) :
    Ends s direction (nextScreenIndex transition s.current.screenIndex) place
      (s'.switchVirtualDesktop s.activeOutput (nextScreenIndex transition s.current.screenIndex)
        direction channel) := by
  have hnew : OnChain (nextScreenIndex transition s.current.screenIndex) s.current.screenCount := by
    rw [← hc.leads]
    exact onChain_next h.chain
  obtain ⟨hindex, haxis, hcrossing⟩ := switch_parked direction channel h hp hlow hhigh hnew
  exact ⟨by rw [hcrossing, hidle], .inl ⟨hindex, haxis⟩⟩

/-- The end of a pass leaves the crossing pending or ends it. -/
theorem Pends.complete {nowUs : UInt32} (h : s.OnRelative) (hc : s.Crosses direction transition)
    (hp : Pends s direction place s') (hunlocked : s'.Unlocked) (hlow : -32768 ≤ place)
    (hhigh : place < 0) :
    Pends s direction place (s'.completeCrossing nowUs channel) ∨
      Ends s direction (nextScreenIndex transition s.current.screenIndex) place
        (s'.completeCrossing nowUs channel) := by
  have hkind : s'.crossing.kind ≠ .macosPlacement := by
    rw [hp.kind]
    decide
  unfold completeCrossing
  dsimp only
  rw [if_neg (fun hmac : _ ∧ _ ↦ hkind hmac.1), if_neg hkind]
  split_ifs with hwaits hlate
  · exact .inl hp
  · exact .inr (ends_cleared hp.parked)
  · right
    rw [hp.direction, crossScreen_resolved h hc hp.parked.cleared hunlocked]
    exact ends_switched h hc hp.parked.cleared rfl hlow hhigh

/-- So does a pass of the crossing task. -/
theorem Pends.task {nowUs : UInt32} {result : QueryResult} {gap : List Notice} (h : s.OnRelative)
    (hc : s.Crosses direction transition) (hp : Pends s direction place s')
    (hsilent : Along Device.hear Silent s' gap) (hlow : -32768 ≤ place) (hhigh : place < 0) :
    Pends s direction place (s'.mouseCrossingTask nowUs result gap channel) ∨
      Ends s direction (nextScreenIndex transition s.current.screenIndex) place
        (s'.mouseCrossingTask nowUs result gap channel) := by
  unfold mouseCrossingTask
  split_ifs with hidle hkept hcancelled hunsent
  · exact .inl hp
  · exact .inr (ends_cleared hp.parked)
  · exact .inr (ends_cleared hp.parked)
  · have hunlocked : s'.Unlocked := by
      simp only [not_or, Bool.not_eq_true] at hkept
      exact hkept.2.2
    have hheard := hp.hearAll hsilent
    dsimp only
    split_ifs
    · refine Pends.complete h hc ?_ ?_ hlow hhigh
      · cases result with
        | retry => exact hheard
        | sent =>
            have hp := hheard.parked
            exact ⟨⟨hp.output, hp.active, hp.boot, hp.relative, hp.place⟩, hheard.kind,
              hheard.direction, hheard.output, hheard.phase⟩
        | unavailable =>
            have hp := hheard.parked
            exact ⟨⟨hp.output, hp.active, hp.boot, hp.relative, hp.place⟩, hheard.kind,
              hheard.direction, hheard.output, .inr rfl⟩
      · have hstill := hunlocked.hearAll hsilent
        cases result <;> exact hstill
    · exact .inl hheard
  · have hunlocked : s'.Unlocked := by
      simp only [not_or, Bool.not_eq_true] at hkept
      exact hkept.2.2
    exact hp.complete h hc hunlocked hlow hhigh

/-! ## From the report to the end of the crossing -/

/-- An event while the crossing pends that answers nothing, switches no output and is not of the
other board's mouse. -/
def Quiet (s : Device) (event : MouseEvent) : Prop :=
  s.crossing.phase ≠ .idle ∧
    match event with
    | .report .. | .lock _ | .gaming _ => True
    | .task _ _ gap _ => Along hear Silent s gap
    | .notice notice => Silent s notice
    | .toggle | .select _ | .passed _ => False

theorem Pends.next {event : MouseEvent} (h : s.OnRelative) (hc : s.Crosses direction transition)
    (hp : Pends s direction place s') (hquiet : Quiet s' event) (hlow : -32768 ≤ place)
    (hhigh : place < 0) :
    Pends s direction place (s'.next accelerate event) ∨
      Ends s direction (nextScreenIndex transition s.current.screenIndex) place
        (s'.next accelerate event) := by
  obtain ⟨hpending, hquiet⟩ := hquiet
  have hparked := hp.parked
  cases event with
  | report values channel =>
      left
      show Pends s direction place (s'.processMouseReport accelerate values channel)
      unfold processMouseReport updateMousePosition
      rw [if_pos hpending]
      split
      · exact hp
      · exact ⟨⟨hparked.output, hparked.active, hparked.boot, hparked.relative, hparked.place⟩,
          hp.kind, hp.direction, hp.output, hp.phase⟩
  | task nowUs result gap channel => exact hp.task h hc hquiet hlow hhigh
  | notice notice => exact .inl (hp.hear hquiet)
  | lock | gaming =>
      exact .inl ⟨⟨hparked.output, hparked.active, hparked.boot, hparked.relative, hparked.place⟩,
        hp.kind, hp.direction, hp.output, hp.phase⟩
  | toggle | select | passed => exact hquiet.elim

theorem ends_run {events : List MouseEvent} (h : s.OnRelative) (hc : s.Crosses direction transition)
    (hlow : -32768 ≤ place) (hhigh : place < 0)
    (hstart : Pends s direction place s' ∨
      Ends s direction (nextScreenIndex transition s.current.screenIndex) place s')
    (hquiet : Along (Device.next accelerate) Quiet s' events)
    (hidle : (run (Device.next accelerate) s' events).crossing.phase = .idle) :
    Ends s direction (nextScreenIndex transition s.current.screenIndex) place
      (run (Device.next accelerate) s' events) := by
  have hall := run_invariant_along
    (fun s' ↦ Pends s direction place s' ∨
      Ends s direction (nextScreenIndex transition s.current.screenIndex) place s') hstart
    (fun state event hstate hquiet ↦ by
      rcases hstate with hp | hended
      · exact hp.next h hc hquiet hlow hhigh
      · exact absurd hended.idle hquiet.1) hquiet
  rcases hall with hp | hended
  · rcases hp.phase with hphase | hphase <;> rw [hphase] at hidle <;> cases hidle
  · exact hended

/-- What the other core publishes while a query is sent brings no position, and answers no query
that was not sent. -/
structure Unanswered (s : Device) (channel : Channel) : Prop where
  silent : Along hear Silent s channel.between
  unsent : channel.query = .unavailable → s.hearAll channel.between = s

/-- The crossing waits for an answer. -/
def waiting (s : Device) (direction : Direction) (channel : Channel) : Device :=
  s.wait .chainReanchor direction s.current.screenIndex 0 channel.nowUs

/-- A crossing along the chain asks first. -/
theorem doScreenSwitch_chain (channel : Channel) (h : s.OnRelative)
    (hc : s.Crosses direction transition)
    {vertical : Bool} (hp : Parked s vertical place s') (hidle : s'.crossing.phase = .idle)
    (hunlocked : s'.Unlocked) :
    s'.doScreenSwitch direction channel =
      if (s'.querySourceCursor direction .chainReanchor channel).2 then
        (s'.querySourceCursor direction .chainReanchor channel).1
      else
        (s'.querySourceCursor direction .chainReanchor channel).1.switchVirtualDesktop
          s.activeOutput
          (nextScreenIndex transition
            ((s'.querySourceCursor direction .chainReanchor channel).1.output
              s.activeOutput).screenIndex) direction channel := by
  have hcurrent : s'.output s.activeOutput = s.current := congrFun hp.output s.activeOutput
  have hchain := hc.chain
  unfold doScreenSwitch crossScreen
  rw [if_neg (by simp [hidle]), hc.actionable hp hunlocked, hp.active]
  cases transition with
  | none | output => cases hchain
  | chainBack | chainForward =>
      dsimp only
      rw [if_pos]
      rw [hcurrent]
      exact ⟨h.windows, hp.relative.trans h.relative, rfl⟩

/-- A crossing that nothing keeps from happening pends, or switches at once. -/
theorem ends_doScreenSwitch (h : s.OnRelative) (hc : s.Crosses direction transition)
    (hp : Parked s direction.isVertical place s') (hidle : s'.crossing.phase = .idle)
    (hunlocked : s'.Unlocked) (hlow : -32768 ≤ place) (hhigh : place < 0)
    (hunanswered : (s'.waiting direction channel).Unanswered channel) :
    Pends s direction place (s'.doScreenSwitch direction channel) ∨
      Ends s direction (nextScreenIndex transition s.current.screenIndex) place
        (s'.doScreenSwitch direction channel) := by
  have hwaits : Pends s direction place (s'.waiting direction channel) :=
    ⟨⟨hp.output, hp.active, hp.boot, hp.relative, hp.place⟩, rfl, rfl, hp.active, .inl rfl⟩
  have hheard := hwaits.hearAll hunanswered.silent
  rw [doScreenSwitch_chain channel h hc hp hidle hunlocked]
  unfold querySourceCursor
  cases hquery : channel.query with
  | sent =>
      left
      dsimp only
      rw [if_pos rfl]
      split
      · have hp := hheard.parked
        exact ⟨⟨hp.output, hp.active, hp.boot, hp.relative, hp.place⟩, hheard.kind,
          hheard.direction, hheard.output, hheard.phase⟩
      · exact hheard
  | retry => exact .inl hheard
  | unavailable =>
      right
      have hsame := hunanswered.unsent hquery
      unfold waiting at hsame
      dsimp only
      rw [if_neg (by decide), hsame, if_pos ⟨rfl, rfl⟩]
      have hcleared := hwaits.parked.cleared
      have hindex :
        ((s'.waiting direction channel).clearCrossing.output s.activeOutput).screenIndex =
          s.current.screenIndex := by
        rw [hcleared.output]
        rfl
      show Ends _ _ _ _ ((s'.waiting direction channel).clearCrossing.switchVirtualDesktop _ _ _ _)
      rw [show ((s'.wait .chainReanchor direction s'.current.screenIndex 0
        channel.nowUs).clearCrossing.output s.activeOutput).screenIndex = s.current.screenIndex from
          hindex]
      exact ends_switched h hc hcleared rfl hlow hhigh

end

/-- The board after a report and the events that follow it. -/
def crossed (accelerate : Int → Int → Int → Int → Int) (s : Device) (values : MouseValues)
    (channel : Channel) (events : List MouseEvent) : Device :=
  run (Device.next accelerate)
    ((s.updateMousePosition accelerate values).1.doScreenSwitch
      (s.updateMousePosition accelerate values).2.2 channel) events

/-- The events are those of the crossing that a report begins, up to its end, and no helper answers
it. -/
structure Alone (accelerate : Int → Int → Int → Int → Int) (s : Device) (values : MouseValues)
    (channel : Channel) (events : List MouseEvent) : Prop where
  unanswered : ((s.updateMousePosition accelerate values).1.waiting
    (s.updateMousePosition accelerate values).2.2 channel).Unanswered channel
  quiet : Along (Device.next accelerate) Quiet
    ((s.updateMousePosition accelerate values).1.doScreenSwitch
      (s.updateMousePosition accelerate values).2.2 channel) events
  idle : (crossed accelerate s values channel events).crossing.phase = .idle

/-- Where the crossing switches, it leads to the next screen, to the place as far from the edge of
the one before as the report moved the pointer. -/
def Arrives (accelerate : Int → Int → Int → Int → Int) (s : Device) (values : MouseValues) : Prop :=
  ∀ channel events, Alone accelerate s values channel events →
    (crossed accelerate s values channel events).current.screenIndex ≠ s.current.screenIndex →
    (crossed accelerate s values channel events).current.screenIndex =
        nextScreenIndex (s.decideOn accelerate values).transition s.current.screenIndex ∧
      (crossed accelerate s values channel events).axis s.chainVertical =
        (s.axis s.chainVertical + s.offsetAlong values s.chainVertical) % 32768

/-- Where the crossing is given up, the next report starts from the edge that this one pushed
against. -/
def Returns (accelerate : Int → Int → Int → Int → Int) (s : Device) (values : MouseValues) : Prop :=
  ∀ channel events, Alone accelerate s values channel events →
    (crossed accelerate s values channel events).current.screenIndex = s.current.screenIndex →
    (crossed accelerate s values channel events).spendOvershoot.axis s.chainVertical =
      (s.decideOn accelerate values).direction.edge

theorem TakesChain.crosses (ht : TakesChain accelerate s values) :
    s.Crosses (s.decideOn accelerate values).direction
      (s.decideOn accelerate values).transition where
  some := ht.some
  boot := ht.free.2.2
  leads := ht.transition
  chain := ht.chain

/-- A crossing that a report begins on a relative screen ends on the next screen or is given up. -/
theorem ends_crossed {channel : Channel} {events : List MouseEvent} (h : s.OnRelative)
    (ht : TakesChain accelerate s values)
    (hlow : -32768 ≤ int16 (s.axis s.chainVertical + s.offsetAlong values s.chainVertical))
    (hhigh : int16 (s.axis s.chainVertical + s.offsetAlong values s.chainVertical) < 0)
    (halone : Alone accelerate s values channel events) :
    Ends s (s.decideOn accelerate values).direction
      (nextScreenIndex (s.decideOn accelerate values).transition s.current.screenIndex)
      (int16 (s.axis s.chainVertical + s.offsetAlong values s.chainVertical))
      (crossed accelerate s values channel events) := by
  obtain ⟨hparked, hlock, hgaming, hcrossing, hdirection⟩ := parked_update h ht
  have hparked' : Parked s (s.decideOn accelerate values).direction.isVertical
      (int16 (s.axis s.chainVertical + s.offsetAlong values s.chainVertical))
      (s.updateMousePosition accelerate values).1 := by
    rw [ht.along]
    exact hparked
  obtain ⟨hunanswered, hquiet, hidle⟩ := halone
  unfold crossed at hidle ⊢
  rw [hdirection] at hunanswered hquiet hidle ⊢
  refine ends_run h ht.crosses hlow hhigh ?_ hquiet hidle
  refine ends_doScreenSwitch h ht.crosses hparked' ?_ ?_ hlow hhigh hunanswered
  · rw [hcrossing, h.idle]
  · exact ⟨hlock.trans ht.free.1, hgaming.trans ht.free.2.1⟩

/-- Where the report leaves the pointer, in 16 bits: before the screen, whichever edge it went
past. -/
theorem parked_range (h : s.OnRelative) (ht : TakesChain accelerate s values)
    (hsmall : (s.offsetAlong values s.chainVertical).natAbs < 32768) :
    -32768 ≤ int16 (s.axis s.chainVertical + s.offsetAlong values s.chainVertical) ∧
      int16 (s.axis s.chainVertical + s.offsetAlong values s.chainVertical) < 0 ∧
      int16 (s.axis s.chainVertical + s.offsetAlong values s.chainVertical) + 32768 =
        (s.axis s.chainVertical + s.offsetAlong values s.chainVertical) % 32768 := by
  have hscreen : OnScreen (s.axis s.chainVertical) := by
    unfold axis
    split
    · exact h.y
    · exact h.x
  obtain ⟨hfrom, hto⟩ := hscreen
  rcases ht.past with ⟨-, hpast⟩ | ⟨-, hpast⟩
  · rw [int16_self (by omega) (by omega)]
    omega
  · rw [int16_wraps (by omega) (by omega)]
    omega

/-- The report goes past the edge that its offset points to. -/
theorem forward_iff (h : s.OnRelative) (ht : TakesChain accelerate s values) :
    (s.decideOn accelerate values).direction.isForward = false ↔
      s.offsetAlong values s.chainVertical < 0 := by
  have hscreen : OnScreen (s.axis s.chainVertical) := by
    unfold axis
    split
    · exact h.y
    · exact h.x
  obtain ⟨hfrom, hto⟩ := hscreen
  rcases ht.past with ⟨hforward, hpast⟩ | ⟨hforward, hpast⟩
  · constructor
    · intro _
      omega
    · intro _
      exact hforward
  · rw [hforward]
    constructor
    · intro hno
      cases hno
    · intro hoffset
      omega

theorem arrives (h : s.OnRelative) (ht : TakesChain accelerate s values)
    (hsmall : (s.offsetAlong values s.chainVertical).natAbs < 32768) :
    Arrives accelerate s values := by
  intro channel events halone hswitched
  obtain ⟨hlow, hhigh, hmod⟩ := parked_range h ht hsmall
  rcases (ends_crossed h ht hlow hhigh halone).pointer with ⟨hindex, haxis⟩ | ⟨hindex, -⟩
  · rw [ht.along] at haxis
    exact ⟨hindex, haxis.trans hmod⟩
  · exact absurd hindex hswitched

/-- A pointer left before the screen comes back to its first edge. -/
theorem spendOvershoot_axis {vertical : Bool} (hbefore : s.axis vertical < 0) :
    s.spendOvershoot.axis vertical = 0 := by
  have hzero : moveAndKeepOnScreen (s.axis vertical) 0 = 0 := by
    unfold moveAndKeepOnScreen
    rw [if_pos (by omega)]
  cases vertical with
  | true =>
      show int16 (moveAndKeepOnScreen s.pointerY 0) = 0
      rw [show moveAndKeepOnScreen s.pointerY 0 = 0 from hzero]
      rfl
  | false =>
      show int16 (moveAndKeepOnScreen s.pointerX 0) = 0
      rw [show moveAndKeepOnScreen s.pointerX 0 = 0 from hzero]
      rfl

/-- The next screen along the chain is another. -/
theorem nextScreenIndex_ne {transition : Transition} {screenIndex : Nat}
    (hchain : transition.isChain = true) (hfirst : 1 ≤ screenIndex) :
    nextScreenIndex transition screenIndex ≠ screenIndex := by
  cases transition with
  | none | output => cases hchain
  | chainForward => exact Nat.succ_ne_self screenIndex
  | chainBack =>
      show screenIndex - 1 ≠ screenIndex
      omega

theorem given_up (h : s.OnRelative) (ht : TakesChain accelerate s values)
    (hsmall : (s.offsetAlong values s.chainVertical).natAbs < 32768) {channel : Channel}
    {events : List MouseEvent} (halone : Alone accelerate s values channel events)
    (hsame : (crossed accelerate s values channel events).current.screenIndex =
      s.current.screenIndex) :
    (crossed accelerate s values channel events).spendOvershoot.axis s.chainVertical = 0 := by
  obtain ⟨hlow, hhigh, -⟩ := parked_range h ht hsmall
  rcases (ends_crossed h ht hlow hhigh halone).pointer with ⟨hindex, -⟩ | ⟨-, haxis⟩
  · exact absurd (hindex.symm.trans hsame) (nextScreenIndex_ne ht.chain h.chain.1)
  · rw [ht.along] at haxis
    exact spendOvershoot_axis (by rw [haxis]; exact hhigh)

/-- The query is sent, and nobody answers. -/
def unanswered : Channel where
  query := .sent
  placed := false
  helper := fun _ ↦ true
  between := []
  nowUs := 0

/-- Thirty milliseconds later. -/
def timeout : MouseEvent := .task 30000 .retry [] unanswered

theorem querySourceCursor_unanswered (kind : Kind) :
    s.querySourceCursor direction kind unanswered =
      ({ s.wait kind direction s.current.screenIndex 0 0 with
        crossing := { (s.wait kind direction s.current.screenIndex 0 0).crossing with
          querySent := true } }, true) := by
  show (if (s.wait kind direction s.current.screenIndex 0 0).awaits s.nextQueryId then _ else _,
    true) = _
  rw [if_pos ⟨rfl, rfl⟩]
  rfl

/-- A query that was sent and is not answered in time is given up. -/
theorem task_times_out (accelerate : Int → Int → Int → Int → Int)
    (hphase : s.crossing.phase = .waiting)
    (houtput : s.activeOutput = s.crossing.output) (hkind : s.crossing.kind = .chainReanchor)
    (hsent : s.crossing.querySent = true) (hstarted : s.crossing.startedUs = 0)
    (hunlocked : s.Unlocked) : s.next accelerate timeout = s.clearCrossing := by
  show s.mouseCrossingTask 30000 .retry [] unanswered = s.clearCrossing
  have hlate : reanchorTimeoutUs ≤ (30000 : UInt32) - s.crossing.startedUs := by
    rw [hstarted]
    decide
  unfold mouseCrossingTask
  rw [if_neg (by simp [hphase]), if_neg (by simp [houtput, hkind, hunlocked.1, hunlocked.2]),
    if_neg (by simp [hphase]), if_neg (by simp [hsent])]
  unfold completeCrossing
  dsimp only
  rw [if_neg (by simp [hphase, hlate]), if_neg (by simp [hkind]),
    if_pos ⟨hkind, by simp [hphase, hlate]⟩]

/-- A crossing whose query is not answered is given up. -/
theorem gives_up (h : s.OnRelative) (ht : TakesChain accelerate s values) :
    Alone accelerate s values unanswered [timeout] ∧
      (crossed accelerate s values unanswered [timeout]).current.screenIndex =
        s.current.screenIndex := by
  obtain ⟨hparked, hlock, hgaming, hcrossing, hdirection⟩ := parked_update h ht
  have hunlocked : (s.updateMousePosition accelerate values).1.Unlocked :=
    ⟨hlock.trans ht.free.1, hgaming.trans ht.free.2.1⟩
  have hidle : (s.updateMousePosition accelerate values).1.crossing.phase = .idle := by
    rw [hcrossing, h.idle]
  have hasked := doScreenSwitch_chain unanswered h ht.crosses hparked hidle hunlocked
  rw [querySourceCursor_unanswered, if_pos rfl] at hasked
  have hended := task_times_out accelerate
    (s := (s.updateMousePosition accelerate values).1.doScreenSwitch
      (s.decideOn accelerate values).direction unanswered) (by rw [hasked]; rfl)
    (by rw [hasked]; rfl) (by rw [hasked]; rfl) (by rw [hasked]) (by rw [hasked]; rfl)
    (by rw [hasked]; exact hunlocked)
  rw [← hdirection] at hasked hended
  refine ⟨⟨⟨trivial, fun hno ↦ by cases hno⟩, ⟨⟨?_, trivial⟩, trivial⟩, ?_⟩, ?_⟩
  · rw [hasked]
    exact Phase.noConfusion
  · exact (congrArg (fun s ↦ s.crossing.phase) hended).trans rfl
  · show (Device.next accelerate _ timeout).current.screenIndex = _
    rw [hended, hasked]
    show ((s.updateMousePosition accelerate values).1.output
      (s.updateMousePosition accelerate values).1.activeOutput).screenIndex = _
    rw [hparked.active, congrFun hparked.output s.activeOutput]
    rfl

/-- When a report that takes the chain from a relative screen meets its purpose. Where the crossing
switches, the pointer is where Windows moved it; where it is given up, the next report starts from
the edge that this one pushed against exactly when this one went left or up. -/
theorem overshoot_returns_iff (h : s.OnRelative)
    (hchain : (s.decideOn accelerate values).transition.isChain = true)
    (hsmall : (s.offsetAlong values s.chainVertical).natAbs < 32768) :
    Arrives accelerate s values ∧
      (Returns accelerate s values ↔ s.offsetAlong values s.chainVertical < 0) := by
  have ht := takesChain h hchain
  refine ⟨arrives h ht hsmall, ?_⟩
  rw [← forward_iff h ht]
  constructor
  · intro hreturns
    obtain ⟨halone, hsame⟩ := gives_up h ht
    have hedge := hreturns _ _ halone hsame
    rw [given_up h ht hsmall halone hsame] at hedge
    by_contra hforward
    unfold Direction.edge at hedge
    rw [if_pos (by simpa using hforward)] at hedge
    cases hedge
  · intro hforward channel events halone hsame
    rw [given_up h ht hsmall halone hsame]
    unfold Direction.edge
    rw [hforward]
    rfl

/-- Three screens of Windows in a row, the pointer on the second, a few units from an edge. -/
def threeScreens (pointerX : Int) : Device where
  activeOutput := 0
  pointerX := pointerX
  pointerY := 100
  mouseButtons := 0
  output := fun number ↦
    { number := number, screenCount := 3, screenIndex := 2, speedX := 1, speedY := 1
      borderStart := 0, borderEnd := 32767, os := .windows, chainDirection := .right
      borderDirection := .left, mouseParkPos := 0, pointerSpeed := 0
      seamRanges := fun _ ↦ .zero, monitorWidth := 0, monitorHeight := 0 }
  jumpThreshold := 0
  mouseZoom := false
  switchLock := false
  relativeMouse := true
  gamingMode := false
  bootMouseMode := fun _ ↦ false
  windowsPartPixel := fun _ _ ↦ 0
  crossing := .idle
  outputArrivalGuard := .none
  outputArrivalReverse := 0
  nextCursorQueryId := 0
  sent := []

/-- A move along the chain. -/
def moveBy (counts : Int) : MouseValues where
  moveX := counts
  moveY := 0
  wheel := 0
  pan := 0
  buttons := 0

theorem threeScreens_onRelative {pointerX : Int} (h : OnScreen pointerX) :
    (threeScreens pointerX).OnRelative :=
  ⟨rfl, rfl, rfl, rfl, Nat.zero_le 1, ⟨Nat.le_succ 1, Nat.le_succ 2⟩, h,
    (by decide : OnScreen 100)⟩

/-- Two units from the left edge a move of ten to the left arrives, and the cursor returns. -/
theorem overshoot_returns_left :
    Arrives (fun _ _ _ _ ↦ 0) (threeScreens 2) (moveBy (-10)) ∧
      Returns (fun _ _ _ _ ↦ 0) (threeScreens 2) (moveBy (-10)) := by
  have hiff := @overshoot_returns_iff (threeScreens 2) (fun _ _ _ _ ↦ 0) (moveBy (-10))
    (threeScreens_onRelative (by decide)) (by decide) (by decide)
  exact ⟨hiff.1, hiff.2.2 (by decide)⟩

/-- A move of ten to the right from two units before the right edge: after the crossing is given up
the next report starts from the left edge. -/
theorem right_edge_lost :
    ¬ ∀ (accelerate : Int → Int → Int → Int → Int) (s : Device) (values : MouseValues),
      s.OnRelative → (s.decideOn accelerate values).transition.isChain = true →
      (s.offsetAlong values s.chainVertical).natAbs < 32768 →
      Arrives accelerate s values ∧ Returns accelerate s values := by
  intro hclaim
  have hon := threeScreens_onRelative (by decide : OnScreen 32765)
  have hchain : ((threeScreens 32765).decideOn (fun _ _ _ _ ↦ 0) (moveBy 10)).transition.isChain =
    true := by decide
  obtain ⟨-, hreturns⟩ := hclaim (fun _ _ _ _ ↦ 0) _ _ hon hchain (by decide)
  obtain ⟨halone, hsame⟩ := gives_up hon (takesChain hon hchain)
  have hedge := hreturns _ _ halone hsame
  rw [given_up hon (takesChain hon hchain) (by decide) halone hsame] at hedge
  revert hedge
  decide

end Device

end DeskhopPlus.Mouse
