import Mathlib.Data.Int.Basic
import Mathlib.Algebra.Ring.Nat

/-!
# The layout of the screens

The screens of a computer form a chain that starts at the seam with the other computer. The pure
decisions of `dh_mouse_layout.c`: what a motion past an edge leads to, and where the pointer comes
in or is put.
-/

namespace DeskhopPlus.Mouse

/-- `dh_direction_t`. A direction byte of the configuration with any other value acts as `none`. -/
inductive Direction where
  | none | left | right | top | bottom
  deriving DecidableEq, Repr

/-- `dh_mouse_transition_t`. -/
inductive Transition where
  | none | output | chainBack | chainForward
  deriving DecidableEq, Repr

/-- `dh_mouse_coordinates_t`. -/
structure Coordinates where
  x : Int
  y : Int
  deriving DecidableEq, Repr

/-- `dh_mouse_layout_t`. -/
structure Layout where
  chainDirection : Direction
  borderDirection : Direction

/-- `MAX_SCREEN_COORD`; `MIN_SCREEN_COORD` is zero. -/
def maxScreenCoord : Int := 32767

namespace Direction

/-- `dh_direction_is_vertical`. -/
def isVertical : Direction → Bool
  | .top | .bottom => true
  | _ => false

/-- The direction is left or right. -/
def isHorizontal : Direction → Bool
  | .left | .right => true
  | _ => false

/-- `directions_are_perpendicular`. -/
def perpendicular (first second : Direction) : Bool := first.isHorizontal != second.isHorizontal

/-- `dh_opposite_direction`. -/
def opposite : Direction → Direction
  | .left => .right
  | .right => .left
  | .top => .bottom
  | .bottom => .top
  | .none => .none

/-- The coordinate grows in this direction. -/
def isForward : Direction → Bool
  | .right | .bottom => true
  | _ => false

end Direction

/-- `dh_mouse_along_seam`. -/
def alongSeam (border : Direction) (pointer : Coordinates) : Int :=
  if border.isVertical then pointer.x else pointer.y

/-- `dh_mouse_transition_for`. -/
def transitionFor (layout : Layout) (screenIndex screenCount : Nat) (movement : Direction) :
    Transition :=
  if movement = layout.borderDirection ∧
      (screenIndex = 1 ∨ layout.chainDirection.perpendicular layout.borderDirection) then .output
  else if movement = layout.chainDirection ∧ screenIndex < screenCount then .chainForward
  else if movement = layout.chainDirection.opposite ∧ 1 < screenIndex then .chainBack
  else .none

/-- `dh_mouse_jump_threshold_for`. -/
def jumpThresholdFor (layout : Layout) (screenIndex screenCount : Nat) (movement : Direction)
    (configured : Nat) : Nat :=
  if transitionFor layout screenIndex screenCount movement = .output then configured else 0

/-- `dh_mouse_next_screen_index`. -/
def nextScreenIndex (transition : Transition) (screenIndex : Nat) : Nat :=
  match transition with
  | .chainForward => screenIndex + 1
  | .chainBack => screenIndex - 1
  | _ => screenIndex

/-- `dh_mouse_park_coordinate`, between the edges of a screen. -/
def parkCoordinate (parkPosition : Nat) (previous : Int) : Int :=
  if parkPosition = 0 then 0 else if parkPosition = 1 then maxScreenCoord else previous

/-- `dh_mouse_hidden_coordinates`. -/
def hiddenCoordinates (direction : Direction) (parkPosition : Nat) (pointer : Coordinates) :
    Coordinates :=
  if direction.isVertical then ⟨parkCoordinate parkPosition pointer.x, maxScreenCoord⟩
  else ⟨maxScreenCoord, parkCoordinate parkPosition pointer.y⟩

/-- `dh_mouse_entry_coordinates`. -/
def entryCoordinates (direction : Direction) (pointer : Coordinates) : Coordinates :=
  match direction with
  | .left => { pointer with x := maxScreenCoord }
  | .right => { pointer with x := 0 }
  | .top => { pointer with y := maxScreenCoord }
  | .bottom => { pointer with y := 0 }
  | .none => pointer

/-- `dh_mouse_edge_coordinates`. -/
def edgeCoordinates (direction : Direction) (pointer : Coordinates) : Coordinates :=
  entryCoordinates direction.opposite pointer

/-- `dh_mouse_nudge`. -/
def nudge (direction : Direction) (distance : Int) : Coordinates :=
  let signed := if direction = .left ∨ direction = .top then -distance else distance
  if direction.isVertical then ⟨0, signed⟩ else ⟨signed, 0⟩

/-! ## One screen on -/

/-- A screen of the chain. -/
def OnChain (screenIndex screenCount : Nat) : Prop := 1 ≤ screenIndex ∧ screenIndex ≤ screenCount

variable {layout : Layout} {screenIndex screenCount : Nat} {movement : Direction}

/-- A transition along the chain leads to a screen of the chain. -/
theorem onChain_next (h : OnChain screenIndex screenCount) :
    OnChain (nextScreenIndex (transitionFor layout screenIndex screenCount movement) screenIndex)
      screenCount := by
  obtain ⟨hfirst, hlast⟩ := h
  unfold transitionFor
  split_ifs with houtput hforward hback
  · exact ⟨hfirst, hlast⟩
  · exact ⟨Nat.le_add_left 1 _, hforward.2⟩
  · exact ⟨Nat.le_sub_one_of_lt hback.2, Nat.le_trans (Nat.sub_le _ _) hlast⟩
  · exact ⟨hfirst, hlast⟩

end DeskhopPlus.Mouse
