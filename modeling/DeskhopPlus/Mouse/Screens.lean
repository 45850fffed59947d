import DeskhopPlus.Mouse.Overshoot
import DeskhopPlus.Library.Runs

/-!
# The screens the board keeps

What each operation of the mouse may change, and what holds of the screens in every state: both
outputs are on a screen of their chain, and the board speaks to the active one by counts exactly
where it is Windows past its main screen. Main theorem: `screens_fit`.
-/

namespace DeskhopPlus.Mouse

namespace Device

/-! ## What an operation may change -/

/-- The state is the other but for where the pointer is, the buttons, the guard of the edge it came
in by and the reports that went out. -/
def Moves (s s' : Device) : Prop :=
  ∃ x y buttons part guard reverse sent, s' = { s with
    pointerX := x, pointerY := y, mouseButtons := buttons, windowsPartPixel := part
    outputArrivalGuard := guard, outputArrivalReverse := reverse, sent := sent }

variable {s s' s'' : Device}

/-- Nothing moves. -/
theorem Moves.refl (s : Device) : Moves s s := ⟨_, _, _, _, _, _, _, rfl⟩

/-- One move after the other. -/
theorem Moves.trans (h : Moves s s') (h' : Moves s' s'') : Moves s s'' := by
  obtain ⟨_, _, _, _, _, _, _, rfl⟩ := h
  obtain ⟨x, y, buttons, part, guard, reverse, sent, rfl⟩ := h'
  exact ⟨x, y, buttons, part, guard, reverse, sent, rfl⟩

/-- The state moves, and the active output and the screens of the outputs may be others: the
crossing, its queries, the locks and the configuration are as they were. -/
def Steers (s s' : Device) : Prop :=
  ∃ active relative, ∃ screens : Nat → Nat, Moves { s with
    activeOutput := active, relativeMouse := relative
    output := fun n ↦ { s.output n with screenIndex := screens n } } s'

/-- One switch after the other. -/
theorem Steers.trans (h : Steers s s') (h' : Steers s' s'') : Steers s s'' := by
  obtain ⟨_, _, _, _, _, _, _, _, _, _, rfl⟩ := h
  obtain ⟨active, relative, screens, hmoves⟩ := h'
  obtain ⟨x, y, buttons, part, guard, reverse, sent, rfl⟩ := hmoves
  exact ⟨active, relative, screens, x, y, buttons, part, guard, reverse, sent, rfl⟩

/-- A move switches nothing. -/
theorem Moves.steers (h : Moves s s') : Steers s s' :=
  ⟨s.activeOutput, s.relativeMouse, fun n ↦ (s.output n).screenIndex, h⟩

/-- Nothing moves. -/
theorem Steers.refl (s : Device) : Steers s s := (Moves.refl s).steers

/-- The crossing is as it was. -/
theorem Steers.crossing (h : Steers s s') : s'.crossing = s.crossing := by
  obtain ⟨_, _, _, _, _, _, _, _, _, _, rfl⟩ := h
  rfl

/-- So are its queries. -/
theorem Steers.nextCursorQueryId (h : Steers s s') :
    s'.nextCursorQueryId = s.nextCursorQueryId := by
  obtain ⟨_, _, _, _, _, _, _, _, _, _, rfl⟩ := h
  rfl

/-- The operating systems are configured, and no operation changes them. -/
theorem Steers.os (h : Steers s s') (n : Nat) : (s'.output n).os = (s.output n).os := by
  obtain ⟨_, _, _, _, _, _, _, _, _, _, rfl⟩ := h
  rfl

/-- The pointer is put somewhere. -/
theorem moves_put (s : Device) (at_ : Coordinates) : Moves s (s.put at_) :=
  ⟨_, _, _, _, _, _, _, rfl⟩

/-- It is put along the width. -/
theorem moves_pointerX (s : Device) (x : Int) : Moves s { s with pointerX := x } :=
  ⟨_, _, _, _, _, _, _, rfl⟩

/-- It is put along the height. -/
theorem moves_pointerY (s : Device) (y : Int) : Moves s { s with pointerY := y } :=
  ⟨_, _, _, _, _, _, _, rfl⟩

/-- A report goes out. -/
theorem moves_outputMouseReport (s : Device) (report : MouseReport) :
    Moves s (s.outputMouseReport report) := ⟨_, _, _, _, _, _, _, rfl⟩

/-- A report of the other board's mouse moves the pointer and the buttons, and goes out. -/
theorem moves_handleMouseAbsUartMsg (s : Device) (report : MouseReport) :
    Moves s (s.handleMouseAbsUartMsg report) := by
  unfold handleMouseAbsUartMsg
  dsimp only
  split <;> exact ⟨_, _, _, _, _, _, _, rfl⟩

/-- The walk reports a place and a step over the edge. -/
theorem moves_walkOneScreen (s : Device) (origin : Coordinates) (direction : Direction) :
    Moves s (s.walkOneScreen origin direction) := ⟨_, _, _, _, _, _, _, rfl⟩

/-- The part of a pixel is kept. -/
theorem moves_windowsMoved (s : Device) (output : Nat) (vertical : Bool) (at_ counts : Int) :
    Moves s (s.windowsMoved output vertical at_ counts).1 := ⟨_, _, _, _, _, _, _, rfl⟩

/-- The walk lands. -/
theorem moves_walkLanding (s : Device) (output : Nat) (direction : Direction)
    (origin : Coordinates) : Moves s (s.walkLanding output direction origin).1 := by
  unfold walkLanding
  split <;> exact moves_windowsMoved ..

/-- Counts go out. -/
theorem moves_sendRelative (s : Device) (output : Nat) (direction : Direction) (at_ counts : Int) :
    Moves s (s.sendRelative output direction at_ counts).1 := by
  fun_induction sendRelative s output direction at_ counts with
  | case1 s at_ counts hpositive chunk move moved reached hmoved ih =>
      have hstep := moves_windowsMoved (s.outputRelative move) output direction.isVertical at_
        (if h : direction.isVertical = true then move.y else move.x)
      rw [hmoved] at hstep
      exact ((moves_outputMouseReport s _).trans hstep).trans ih
  | case2 s at_ counts hnone => exact Moves.refl s

/-- They go out in steps. -/
theorem moves_sendSteps (output : Nat) (direction : Direction) (counts : Int) (steps : Nat)
    (s : Device) (at_ : Int) : Moves s (sendSteps output direction counts steps s at_).1 := by
  induction steps generalizing s at_ with
  | zero => exact Moves.refl s
  | succ steps ih => exact (moves_sendRelative s output direction at_ counts).trans (ih _ _)

/-- The walk goes screen by screen. -/
theorem moves_walkSteps (direction : Direction) (steps : Nat) (s : Device) :
    Moves s (walkSteps direction steps s) := by
  induction steps generalizing s with
  | zero => exact Moves.refl s
  | succ steps ih => exact (moves_walkOneScreen s _ direction).trans (ih _)

/-- It goes far. -/
theorem moves_walkFar (s : Device) (target screen steps : Nat) (direction : Direction) :
    Moves s (s.walkFar target screen steps direction).1 := by
  unfold walkFar
  dsimp only
  split
  · exact (moves_walkLanding ..).trans (moves_sendRelative ..)
  · exact (moves_walkLanding ..).trans (moves_sendSteps ..)

/-- It goes near. -/
theorem moves_walkNear (s : Device) (target screen : Nat) (direction travel : Direction)
    (entry : Coordinates) : Moves s (s.walkNear target screen direction travel entry) := by
  -- back along the seam, then across it when the walk left the entry edge
  have haxis : ∀ (s : Device) (vertical : Bool) (x y : Int),
      Moves s (if vertical then { s with pointerX := x } else { s with pointerY := y }) := by
    intro s vertical x y
    cases vertical
    · exact moves_pointerY s y
    · exact moves_pointerX s x
  have hacross : ∀ (s : Device) (vertical : Bool) (x y : Int),
      Moves s (if vertical then { s with pointerY := y } else { s with pointerX := x }) := by
    intro s vertical x y
    cases vertical
    · exact moves_pointerX s x
    · exact moves_pointerY s y
  unfold walkNear
  dsimp only
  split
  · exact (moves_sendRelative ..).trans (haxis ..)
  · exact (((moves_sendRelative ..).trans (haxis ..)).trans (moves_sendRelative ..)).trans
      (hacross ..)

/-- The walk as a whole. -/
theorem moves_walkToArrivalScreen (s : Device) (target osScreen screen : Nat)
    (travel : Direction) : Moves s (s.walkToArrivalScreen target osScreen screen travel) := by
  unfold walkToArrivalScreen
  dsimp only
  -- which way and how far the walk goes does not matter
  generalize (if (s.output target).os = .windows then 1 else osScreen) = reached
  generalize (if reached < screen then (s.output target).chainDirection
    else (s.output target).chainDirection.opposite) = direction
  generalize (if reached < screen then screen - reached else reached - screen) = steps
  split_ifs
  · exact Moves.refl s
  · exact Moves.refl s
  · exact (moves_walkOneScreen ..).trans (moves_walkSteps ..)
  · exact (((moves_walkOneScreen ..).trans (moves_walkFar ..)).trans (moves_put ..)).trans
      (moves_walkNear ..)

/-- The pointer comes back onto the screen. -/
theorem moves_spendOvershoot (s : Device) : Moves s s.spendOvershoot := moves_put ..

/-- The part of a pixel is kept for the next report. -/
theorem moves_offsets (s : Device) (accelerate : Int → Int → Int → Int → Int)
    (values : MouseValues) : Moves s (s.offsets accelerate values).1 := by
  unfold offsets
  split
  · exact ⟨_, _, _, _, _, _, _, rfl⟩
  · exact Moves.refl s

/-- The guard of the edge the pointer came in by is kept up. -/
theorem moves_guardArrival (s : Device) (values : MouseValues) (offset : Coordinates) :
    Moves s (s.guardArrival values offset).1 := by
  unfold guardArrival
  dsimp only
  refine iteInduction (motive := fun result : Device × Bool ↦ Moves s result.1)
    (fun _ ↦ Moves.refl s) (fun _ ↦ iteInduction (motive := fun result : Device × Bool ↦
      Moves s result.1) ?_ ?_)
  · exact fun _ ↦ ⟨_, _, _, _, _, _, _, rfl⟩
  · exact fun _ ↦ ⟨_, _, _, _, _, _, _, rfl⟩

/-- Deciding on a report. -/
theorem moves_decideOn (s : Device) (accelerate : Int → Int → Int → Int → Int)
    (values : MouseValues) : Moves s (s.decideOn accelerate values).device :=
  ((moves_spendOvershoot s).trans (moves_offsets ..)).trans (moves_guardArrival ..)

/-- The pointer goes past the edge. -/
theorem moves_keepOvershoot (s : Device) (offset : Coordinates) (direction : Direction) :
    Moves s (s.keepOvershoot offset direction) := by
  unfold keepOvershoot
  split
  · exact moves_pointerY ..
  · exact moves_pointerX ..

/-- A report of the mouse moves the pointer, and takes its buttons. -/
theorem moves_updateMousePosition (s : Device) (accelerate : Int → Int → Int → Int → Int)
    (values : MouseValues) : Moves s (s.updateMousePosition accelerate values).1 := by
  unfold updateMousePosition
  split
  · exact ⟨_, _, _, _, _, _, _, rfl⟩
  · dsimp only
    have hkept : ∀ at_, Moves s ((s.decideOn accelerate values).device.put at_) :=
      fun _ ↦ (moves_decideOn s accelerate values).trans (moves_put ..)
    have hbuttons : ∀ s : Device, Moves s { s with mouseButtons := int16 values.buttons } :=
      fun s ↦ ⟨_, _, _, _, _, _, _, rfl⟩
    split
    · exact ((hkept _).trans (moves_keepOvershoot ..)).trans (hbuttons _)
    · exact (hkept _).trans (hbuttons _)

/-! ## The screens -/

/-- Both outputs are on a screen of their chain, and one of them is active. -/
structure Chained (s : Device) : Prop where
  active : s.activeOutput ≤ 1
  number : ∀ n, n ≤ 1 → (s.output n).number = n
  onChain : ∀ n, n ≤ 1 → OnChain (s.output n).screenIndex (s.output n).screenCount

/-- The screens fit each other and the way the board speaks to the active output: by counts exactly
where it is Windows past its main screen. -/
structure Fits (s : Device) : Prop extends Chained s where
  relative : s.relativeMouse =
    (decide (s.current.os = .windows) && decide (1 < s.current.screenIndex))

/-- A move leaves the outputs on their chains. -/
theorem Chained.moves (h : Chained s) (hmoves : Moves s s') : Chained s' := by
  obtain ⟨_, _, _, _, _, _, _, rfl⟩ := hmoves
  exact ⟨h.active, h.number, h.onChain⟩

/-- A move leaves the screens fitting. -/
theorem Fits.moves (h : Fits s) (hmoves : Moves s s') : Fits s' := by
  have hchained := h.toChained.moves hmoves
  obtain ⟨_, _, _, _, _, _, _, rfl⟩ := hmoves
  exact ⟨hchained, h.relative⟩

/-- The active output of a state that fits speaks by counts only if it is Windows. -/
theorem Fits.windows (h : Fits s) (hrelative : s.relativeMouse = true) :
    s.current.os = .windows := by
  have hboth := h.relative.symm.trans hrelative
  rw [Bool.and_eq_true, decide_eq_true_eq] at hboth
  exact hboth.1

/-- Where the selection of a screen is refused nothing changes; otherwise the screen is one of the
chain, and the relative mode follows it. -/
theorem selectCursorScreen_cases (s : Device) (output screen : Nat) :
    s.selectCursorScreen output screen = (s, false) ∨
      (output ≤ 1 ∧ output = s.activeOutput ∧ OnChain screen (s.output output).screenCount ∧
        s.selectCursorScreen output screen = ({ s with
          output := fun n ↦ { s.output n with
            screenIndex := if n = output then screen else (s.output n).screenIndex }
          relativeMouse := decide ((s.output output).os = .windows) && decide (1 < screen) },
          true)) := by
  unfold selectCursorScreen
  split
  · exact .inl rfl
  next hvalid =>
    have hupdate : Function.update s.output output { s.output output with screenIndex := screen } =
        fun n ↦ { s.output n with
          screenIndex := if n = output then screen else (s.output n).screenIndex } := by
      funext n
      by_cases hn : n = output
      · rw [hn, Function.update_self, if_pos rfl]
      · rw [Function.update_of_ne hn, if_neg hn]
    refine .inr ⟨by omega, by omega, ⟨by omega, by omega⟩, ?_⟩
    rw [hupdate]

/-- A screen of the chain of the active output is selected. -/
theorem Chained.fits_select (h : Chained s) {output screen : Nat}
    (houtput : output = s.activeOutput) (hscreen : OnChain screen (s.output output).screenCount) :
    Fits (s.selectCursorScreen output screen).1 := by
  rcases selectCursorScreen_cases s output screen with hrefused | ⟨hside, -, hvalid, htaken⟩
  · -- the selection cannot be refused
    exfalso
    have hactive := h.active
    obtain ⟨hfirst, hlast⟩ := hscreen
    unfold selectCursorScreen at hrefused
    rw [if_neg (by omega)] at hrefused
    have hflag : true = false := congrArg Prod.snd hrefused
    cases hflag
  · rw [htaken]
    refine ⟨⟨h.active, h.number, ?_⟩, ?_⟩
    · intro n hn
      show OnChain (if n = output then screen else (s.output n).screenIndex)
        (s.output n).screenCount
      split
      next hsame => exact hsame ▸ hscreen
      next => exact h.onChain n hn
    · show _ = (decide ((s.output s.activeOutput).os = .windows) &&
        decide (1 < if s.activeOutput = output then screen else _))
      rw [← houtput, if_pos rfl]

/-- Another screen of an output is chosen. -/
theorem steers_selectCursorScreen (s : Device) (output screen : Nat) :
    Steers s (s.selectCursorScreen output screen).1 := by
  rcases selectCursorScreen_cases s output screen with hrefused | ⟨-, -, -, htaken⟩
  · rw [hrefused]
    exact Steers.refl s
  · rw [htaken]
    exact ⟨s.activeOutput, decide ((s.output output).os = .windows) && decide (1 < screen),
      fun n ↦ if n = output then screen else (s.output n).screenIndex, _, _, _, _, _, _, _, rfl⟩

/-- Another output is active. -/
theorem steers_setActiveOutput (s : Device) (output : Nat) : Steers s (s.setActiveOutput output) :=
  ⟨output, s.relativeMouse, fun n ↦ (s.output n).screenIndex, _, _, _, _, _, _, _, rfl⟩

/-- Either output may be the active one. -/
theorem Chained.setActiveOutput (h : Chained s) {output : Nat} (houtput : output ≤ 1) :
    Chained (s.setActiveOutput output) := ⟨houtput, h.number, h.onChain⟩

/-! ## Switching -/

/-- The operation steers, and keeps the screens fitting. -/
structure Keeps (s s' : Device) : Prop where
  steers : Steers s s'
  fits : Fits s → Fits s'

/-- One after the other. -/
theorem Keeps.trans (h : Keeps s s') (h' : Keeps s' s'') : Keeps s s'' :=
  ⟨h.steers.trans h'.steers, fun hfits ↦ h'.fits (h.fits hfits)⟩

/-- A move keeps the screens fitting. -/
theorem Moves.keeps (h : Moves s s') : Keeps s s' := ⟨h.steers, fun hfits ↦ hfits.moves h⟩

/-- A selection may be refused. -/
theorem keeps_selectCursorScreen (s : Device) (output screen : Nat) :
    Keeps s (s.selectCursorScreen output screen).1 := by
  refine ⟨steers_selectCursorScreen s output screen, fun h ↦ ?_⟩
  rcases selectCursorScreen_cases s output screen with hrefused | ⟨-, hactive, hvalid, -⟩
  · rw [hrefused]
    exact h
  · exact h.toChained.fits_select hactive hvalid

/-- The screen remembered of the other output is a screen of its chain. -/
theorem keeps_switchToAnotherPc (s : Device) (source : Nat) {target : Nat} (direction : Direction)
    (htarget : target ≤ 1) : Keeps s (s.switchToAnotherPc source target direction) := by
  have hswitched : ∀ report, Keeps s ((((s.outputMouseReport report).setActiveOutput target
      ).selectCursorScreen target (((s.outputMouseReport report).setActiveOutput target).output
      target).screenIndex).1) := by
    intro report
    refine ⟨((moves_outputMouseReport s report).steers.trans (steers_setActiveOutput ..)).trans
      (steers_selectCursorScreen ..), fun h ↦ ?_⟩
    exact ((h.toChained.moves (moves_outputMouseReport s report)).setActiveOutput
      htarget).fits_select rfl (h.onChain target htarget)
  unfold switchToAnotherPc
  dsimp only
  split
  · exact ((hswitched _).trans (moves_put ..).keeps).trans (moves_pointerX ..).keeps
  · exact ((hswitched _).trans (moves_put ..).keeps).trans (moves_pointerY ..).keeps

/-- A screen further along the chain fits. -/
theorem keeps_switchVirtualDesktop (s : Device) (n newIndex : Nat) (direction : Direction)
    (channel : Channel) : Keeps s (s.switchVirtualDesktop n newIndex direction channel) := by
  unfold switchVirtualDesktop
  dsimp only
  split
  · exact (((moves_walkOneScreen ..).trans (moves_walkLanding ..)).trans (moves_put ..)).keeps.trans
      (keeps_selectCursorScreen ..)
  · split
    · exact ((moves_walkOneScreen ..).trans (moves_put ..)).keeps.trans
        (keeps_selectCursorScreen ..)
    · exact (moves_put ..).keeps.trans (keeps_selectCursorScreen ..)

/-- The coordinate along one of the axes is set. -/
theorem moves_axis (s : Device) (vertical : Bool) (x y : Int) :
    Moves s (if vertical then { s with pointerX := x } else { s with pointerY := y }) := by
  cases vertical
  · exact moves_pointerY s y
  · exact moves_pointerX s x

/-- The pointer stops at a blocked seam; otherwise it arrives on the other output, on the screen the
seam leads to, and the helper puts the cursor there or the board walks it. -/
theorem keeps_crossOutput (s : Device) (direction : Direction) (channel : Channel) :
    Keeps s (s.crossOutput direction channel) := by
  have hguard : ∀ (s : Device) guard reverse,
      Moves s { s with outputArrivalGuard := guard, outputArrivalReverse := reverse } :=
    fun s guard reverse ↦ ⟨_, _, _, _, _, _, _, rfl⟩
  unfold crossOutput
  extract_lets source target crossing switched arrived output osScreen helper
  split
  · exact (moves_put ..).keeps
  · have harrived : Keeps s arrived := (keeps_switchToAnotherPc s source direction
      (show 1 - s.activeOutput ≤ 1 by omega)).trans (hguard ..).keeps
    clear_value crossing arrived
    -- what is left of the state is where the pointer comes in, and which screen that is
    cases crossing with
    | blocked => exact harrived.trans (moves_walkToArrivalScreen ..).keeps
    | legacy => exact harrived.trans (moves_walkToArrivalScreen ..).keeps
    | mapped screen position =>
        dsimp -zeta only
        extract_lets entry placed
        have hselected : Keeps s (placed.selectCursorScreen output.number screen).1 :=
          (harrived.trans (moves_axis ..).keeps).trans (keeps_selectCursorScreen ..)
        clear_value placed
        generalize placed.selectCursorScreen output.number screen = result at hselected ⊢
        obtain ⟨s', selected⟩ := result
        dsimp only at hselected ⊢
        split_ifs
        · exact hselected
        · exact hselected.trans (moves_pointerX ..).keeps
        · exact hselected.trans (moves_pointerY ..).keeps
        · exact hselected
        · exact hselected.trans (moves_walkToArrivalScreen ..).keeps

/-- A switch of the output with no crossing selects the screen the cursor will be on. -/
theorem Chained.fits_cursorOutputSwitched (h : Chained s) (hscreens : 1 ≤ s.current.screenCount) :
    Fits s.cursorOutputSwitched := by
  refine h.fits_select rfl ?_
  split
  · exact ⟨le_rfl, hscreens⟩
  · exact h.onChain s.activeOutput h.active

/-- A switch of the output chooses its screen as well. -/
theorem steers_switchOutput (s : Device) (output : Nat) :
    Steers s (s.setActiveOutput output).cursorOutputSwitched :=
  (steers_setActiveOutput ..).trans (steers_selectCursorScreen ..)

/-- After a switch the screens fit. -/
theorem Fits.switchOutput (h : Fits s) {output : Nat} (houtput : output ≤ 1) :
    Fits (s.setActiveOutput output).cursorOutputSwitched := by
  obtain ⟨hfirst, hlast⟩ := h.onChain output houtput
  exact (h.toChained.setActiveOutput houtput).fits_cursorOutputSwitched (hfirst.trans hlast)

/-! ## Every event -/

/-- The crossing has no part in it. -/
theorem Fits.withCrossing (h : Fits s) (crossing : Crossing) (next : UInt8) :
    Fits { s with crossing := crossing, nextCursorQueryId := next } :=
  ⟨⟨h.active, h.number, h.onChain⟩, h.relative⟩

/-- Nor have the locks. -/
theorem Fits.locked (h : Fits s) (lock gaming : Bool) :
    Fits { s with switchLock := lock, gamingMode := gaming } :=
  ⟨⟨h.active, h.number, h.onChain⟩, h.relative⟩

/-- Only a screen of the chain of the active output is taken from a notice. -/
theorem Fits.hear (h : Fits s) (notice : Notice) : Fits (s.hear notice) := by
  cases notice with
  | unavailable output queryId =>
      show Fits (s.queryUnavailable output queryId)
      unfold queryUnavailable
      split
      · exact h.withCrossing _ _
      · exact h
  | readback output screen x y queryId =>
      show Fits (s.applyHelperCursorPosition output screen ⟨x, y⟩ queryId).1
      have hselected := (keeps_selectCursorScreen s output screen).fits h
      unfold applyHelperCursorPosition
      split
      · exact h
      · generalize s.selectCursorScreen output screen = result at hselected ⊢
        obtain ⟨s', selected⟩ := result
        dsimp only at hselected ⊢
        split
        · exact hselected
        · exact (hselected.moves ⟨x, y, _, _, _, _, _, rfl⟩).withCrossing _ _

/-- What the other core publishes leaves the screens fitting. -/
theorem Fits.hearAll (h : Fits s) (notices : List Notice) : Fits (s.hearAll notices) :=
  Runs.run_invariant Fits h (fun _ notice hs ↦ hs.hear notice) notices

/-- So does giving a crossing up. -/
theorem Fits.clearCrossing (h : Fits s) : Fits s.clearCrossing := h.withCrossing _ _

/-- So does opening one. -/
theorem Fits.wait (h : Fits s) (kind : Kind) (direction : Direction)
    (targetScreen targetPosition : Nat) (nowUs : UInt32) :
    Fits (s.wait kind direction targetScreen targetPosition nowUs) := h.withCrossing _ _

/-- So does asking where the cursor is. -/
theorem Fits.querySourceCursor (h : Fits s) (direction : Direction) (kind : Kind)
    (channel : Channel) : Fits (s.querySourceCursor direction kind channel).1 := by
  have hwaiting := (h.wait kind direction s.current.screenIndex 0 channel.nowUs).hearAll
    channel.between
  unfold Device.querySourceCursor
  dsimp only
  split
  · dsimp only
    split
    · exact hwaiting.withCrossing _ _
    · exact hwaiting
  · exact hwaiting
  · dsimp only
    split
    · exact hwaiting.clearCrossing
    · exact hwaiting

/-- So does a crossing. -/
theorem Fits.crossScreen (h : Fits s) (direction : Direction) (resolved : Bool)
    (channel : Channel) : Fits (s.crossScreen direction resolved channel) := by
  have hasked := fun kind ↦ h.querySourceCursor direction kind channel
  unfold Device.crossScreen
  split
  · exact h
  · split
    · specialize hasked .sourceReanchor
      generalize s.querySourceCursor direction .sourceReanchor channel = result at hasked ⊢
      obtain ⟨s', pending⟩ := result
      dsimp only at hasked ⊢
      split
      · exact hasked
      · exact (keeps_crossOutput ..).fits hasked
    · exact (keeps_crossOutput ..).fits h
  · dsimp only
    split
    · specialize hasked .chainReanchor
      generalize s.querySourceCursor direction .chainReanchor channel = result at hasked ⊢
      obtain ⟨s', pending⟩ := result
      dsimp only at hasked ⊢
      split
      · exact hasked
      · exact (keeps_switchVirtualDesktop ..).fits hasked
    · split
      · have hplaced := (h.wait .macosPlacement direction (nextScreenIndex
          (s.actionableTransitionFor direction s.mouseButtons)
            (s.output s.activeOutput).screenIndex)
          (normalized (alongSeam direction s.pointer)) channel.nowUs).hearAll channel.between
        split
        · exact hplaced
        · split
          · exact (keeps_switchVirtualDesktop ..).fits hplaced.clearCrossing
          · exact (keeps_switchVirtualDesktop ..).fits hplaced
      · exact (keeps_switchVirtualDesktop ..).fits h

/-- So does its end. -/
theorem Fits.completeCrossing (h : Fits s) (nowUs : UInt32) (channel : Channel) :
    Fits (s.completeCrossing nowUs channel) := by
  unfold Device.completeCrossing
  dsimp only
  split_ifs
  · exact h
  · exact h.clearCrossing
  · exact h.clearCrossing
  · exact (keeps_switchVirtualDesktop ..).fits h.clearCrossing
  · exact h.clearCrossing.crossScreen ..

/-- So does a query sent again. -/
theorem Fits.retryQuery (h : Fits s) (nowUs : UInt32) (result : QueryResult) :
    Fits (s.retryQuery nowUs result) := by
  cases result with
  | sent => exact h.withCrossing _ _
  | retry => exact h
  | unavailable => exact h.withCrossing _ _

/-- So does a pass of the task. -/
theorem Fits.mouseCrossingTask (h : Fits s) (nowUs : UInt32) (result : QueryResult)
    (gap : List Notice) (channel : Channel) :
    Fits (s.mouseCrossingTask nowUs result gap channel) := by
  unfold Device.mouseCrossingTask
  dsimp only
  split_ifs
  · exact h
  · exact h.clearCrossing
  · exact h.clearCrossing
  · exact ((h.hearAll gap).retryQuery ..).completeCrossing ..
  · exact h.hearAll gap
  · exact h.completeCrossing ..

/-- So does a report. -/
theorem Fits.processMouseReport (h : Fits s) (accelerate : Int → Int → Int → Int → Int)
    (values : MouseValues) (channel : Channel) :
    Fits (s.processMouseReport accelerate values channel) := by
  have hmoved := h.moves (moves_updateMousePosition s accelerate values)
  unfold Device.processMouseReport
  split
  · exact h
  · generalize s.updateMousePosition accelerate values = result at hmoved ⊢
    obtain ⟨s', passed, direction⟩ := result
    have hreported := hmoved.moves (moves_outputMouseReport s' (s'.createMouseReport passed))
    dsimp only
    split
    · exact hreported
    · unfold doScreenSwitch
      split
      · exact hreported
      · exact hreported.crossScreen ..

end Device

/-- The other board only ever says that one of the two outputs is active. -/
def MouseEvent.Fits : MouseEvent → Prop
  | .select output => output ≤ 1
  | _ => True

namespace Device

variable {s : Device} {accelerate : Int → Int → Int → Int → Int}

/-- So does every event. -/
theorem Fits.next (h : Fits s) {event : MouseEvent} (hevent : event.Fits) :
    Fits (s.next accelerate event) := by
  cases event with
  | report values channel => exact h.processMouseReport accelerate values channel
  | task nowUs result gap channel => exact h.mouseCrossingTask nowUs result gap channel
  | notice notice => exact h.hear notice
  | lock on => exact h.locked on s.gamingMode
  | gaming on => exact h.locked s.switchLock on
  | toggle =>
      show Fits s.toggleOutput
      unfold toggleOutput
      split
      · exact h
      · refine h.switchOutput ?_
        split <;> decide
  | select output => exact h.switchOutput hevent
  | passed report => exact h.moves (moves_handleMouseAbsUartMsg s report)

/-- Whatever is reported, heard, locked and switched, in any order: both outputs stay on a screen of
their chain, and the active one is spoken to by counts exactly where it is Windows past its main
screen. -/
theorem screens_fit (h : Fits s) {events : List MouseEvent}
    (hevents : ∀ event ∈ events, event.Fits) :
    Fits (Runs.run (Device.next accelerate) s events) :=
  Runs.run_invariant_of_mem Fits h (fun _ event hmem hs ↦ hs.next (hevents event hmem))

/-- Three screens in a row fit. -/
theorem threeScreens_fits (pointerX : Int) : Fits (threeScreens pointerX) where
  active := Nat.zero_le 1
  number := fun _ _ ↦ rfl
  onChain := fun _ _ ↦ ⟨Nat.le_succ 1, Nat.le_succ 2⟩
  relative := rfl

/-- A crossing that is given up, a hotkey and a switch by the other board. -/
theorem screens_fit_switched :
    Fits (Runs.run (Device.next fun _ _ _ _ ↦ 0) (threeScreens 2)
      [.report (moveBy (-10)) unanswered, .toggle, timeout, .select 0]) :=
  screens_fit (threeScreens_fits 2) (by simp [MouseEvent.Fits, timeout])

end Device

end DeskhopPlus.Mouse
