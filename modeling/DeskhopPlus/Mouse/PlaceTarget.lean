import DeskhopPlus.Library.Ascent
import DeskhopPlus.Mouse.Crossing
import DeskhopPlus.Wire.Bodies

/-!
# Where a placement puts the cursor

`dh_place_target`: a placement counts screens along the chain from the primary display, and its
entry position is along an edge of the display found there. The helper walks from display to
display, each time to the nearest one whose centre lies further on. The walk goes up through the
distinct centres beyond that of the primary display, and `place_target_exact` says where it ends.
-/

namespace DeskhopPlus.Mouse

open Ascent

/-- `dh_display_rect`. -/
structure DisplayRect where
  x : Int
  y : Int
  width : Int
  height : Int
  deriving DecidableEq, Repr

/-- `dh_place_point`. -/
structure PlacePoint where
  x : Int
  y : Int
  displayIndex : Nat
  deriving DecidableEq, Repr

/-- The direction of a byte. -/
def Direction.ofByte (byte : UInt8) : Direction :=
  if byte = 1 then .left
  else if byte = 2 then .right
  else if byte = 4 then .top
  else if byte = 5 then .bottom
  else .none

namespace DisplayRect

/-- `center_x`, in halves. -/
def centerX (r : DisplayRect) : Int := r.x * 2 + r.width

/-- `center_y`, in halves. -/
def centerY (r : DisplayRect) : Int := r.y * 2 + r.height

/-- A number of 32 bits. -/
def IsInt32 (value : Int) : Prop := -2147483648 ≤ value ∧ value ≤ 2147483647

/-- The place, the size and the far edges of a display are numbers of 32 bits. -/
@[mk_iff fits_iff]
structure Fits (r : DisplayRect) : Prop where
  x : IsInt32 r.x
  y : IsInt32 r.y
  width : IsInt32 r.width
  height : IsInt32 r.height
  right : IsInt32 (r.x + r.width)
  bottom : IsInt32 (r.y + r.height)

end DisplayRect

/-- `lies_in_direction`. -/
def liesInDirection (origin candidate : DisplayRect) : Direction → Bool
  | .left => decide (candidate.centerX < origin.centerX)
  | .right => decide (origin.centerX < candidate.centerX)
  | .top => decide (candidate.centerY < origin.centerY)
  | .bottom => decide (origin.centerY < candidate.centerY)
  | .none => false

/-- `directional_distance`. -/
def directionalDistance (origin candidate : DisplayRect) (direction : Direction) : Nat :=
  let delta :=
    if direction = .left ∨ direction = .right then candidate.centerX - origin.centerX
    else candidate.centerY - origin.centerY
  delta.natAbs

/-- `UINT64_MAX`. -/
def uint64Max : Nat := 18446744073709551615

section Walk

variable (displays : List DisplayRect) (direction : Direction)

/-- A display of the list. -/
def rectAt (i : Nat) : DisplayRect := displays.getD i ⟨0, 0, 0, 0⟩

/-- A display is looked at: the nearest so far, and its distance. -/
def look (current : Nat) (best : Nat × Nat) (i : Nat) : Nat × Nat :=
  if i = current ∨
      liesInDirection (rectAt displays current) (rectAt displays i) direction = false then
    best
  else
    let distance := directionalDistance (rectAt displays current) (rectAt displays i) direction
    if distance < best.2 then (i, distance) else best

/-- The nearest display in the direction, or their number where there is none. -/
def nearestNext (current : Nat) : Nat :=
  ((List.range displays.length).foldl (look displays direction current)
    (displays.length, uint64Max)).1

/-- The walk of `dh_place_target` over so many screens. -/
def walk : Nat → Nat → Option Nat
  | 0, current => some current
  | screens + 1, current =>
      let next := nearestNext displays direction current
      if next = displays.length then none else walk screens next

/-- The displays the walk comes to. -/
def visited : Nat → Nat → List Nat
  | 0, current => [current]
  | screens + 1, current =>
      let next := nearestNext displays direction current
      current :: if next = displays.length then [] else visited screens next

end Walk

/-- `dh_place_target`. -/
def placeTarget (place : Wire.Place) (displays : List DisplayRect) (primaryIndex : Nat) :
    Option PlacePoint :=
  if displays.length = 0 ∨ displays.length ≤ primaryIndex ∨ place.chainIndex = 0 then none
  else
    match walk displays (.ofByte place.chainDirection) (place.chainIndex.toNat - 1)
      primaryIndex with
    | none => none
    | some current =>
        let target := rectAt displays current
        if target.width ≤ 0 ∨ target.height ≤ 0 then none
        else
          let xAlong := Device.placeAlong place.entryPosition.toNat target.width.toNat
          let yAlong := Device.placeAlong place.entryPosition.toNat target.height.toNat
          match Direction.ofByte place.borderDirection with
          | .left => some ⟨target.x, target.y + yAlong, current⟩
          | .right => some ⟨target.x + target.width - 1, target.y + yAlong, current⟩
          | .top => some ⟨target.x + xAlong, target.y, current⟩
          | .bottom => some ⟨target.x + xAlong, target.y + target.height - 1, current⟩
          | .none => none

/-! ## The nearest display -/

/-- The centre of a display along a direction. -/
def DisplayRect.along (direction : Direction) (r : DisplayRect) : Int :=
  match direction with
  | .left => -r.centerX
  | .right => r.centerX
  | .top => -r.centerY
  | .bottom => r.centerY
  | .none => 0

/-- The distinct centres of the displays along a direction. -/
def centres (displays : List DisplayRect) (direction : Direction) : Finset Int :=
  (displays.map (DisplayRect.along direction)).toFinset

variable {displays : List DisplayRect} {direction : Direction}

theorem liesInDirection_iff (origin candidate : DisplayRect) :
    liesInDirection origin candidate direction = true ↔
      origin.along direction < candidate.along direction := by
  cases direction <;> simp [liesInDirection, DisplayRect.along]

theorem directionalDistance_eq {origin candidate : DisplayRect}
    (h : origin.along direction < candidate.along direction) :
    (directionalDistance origin candidate direction : Int) =
      candidate.along direction - origin.along direction := by
  cases direction with
  | left | right =>
      simp only [DisplayRect.along] at h ⊢
      change ((candidate.centerX - origin.centerX).natAbs : Int) = _
      omega
  | top | bottom =>
      simp only [DisplayRect.along] at h ⊢
      change ((candidate.centerY - origin.centerY).natAbs : Int) = _
      omega
  | none => exact absurd h (lt_irrefl _)

theorem along_bounds {r : DisplayRect} (h : r.Fits) (direction : Direction) :
    -6442450944 ≤ r.along direction ∧ r.along direction ≤ 6442450944 := by
  obtain ⟨⟨hxlow, hxhigh⟩, ⟨hylow, hyhigh⟩, ⟨hwlow, hwhigh⟩, ⟨hhlow, hhhigh⟩, -, -⟩ := h
  cases direction <;>
    simp only [DisplayRect.along, DisplayRect.centerX, DisplayRect.centerY] <;> omega

theorem rectAt_fits (hfits : ∀ r ∈ displays, r.Fits) (i : Nat) : (rectAt displays i).Fits := by
  rw [rectAt, List.getD_eq_getElem?_getD]
  rcases h : displays[i]? with - | r
  · constructor <;> exact ⟨by decide, by decide⟩
  · exact hfits r (List.mem_of_getElem? h)

theorem rectAt_of_lt {i : Nat} (h : i < displays.length) : rectAt displays i = displays[i] := by
  rw [rectAt, List.getD_eq_getElem?_getD, List.getElem?_eq_getElem h, Option.getD_some]

theorem along_mem_centres {i : Nat} (h : i < displays.length) :
    (rectAt displays i).along direction ∈ centres displays direction := by
  rw [centres, List.mem_toFinset, List.mem_map]
  exact ⟨displays[i], List.getElem_mem h, by rw [rectAt_of_lt h]⟩

theorem mem_centres {centre : Int} (h : centre ∈ centres displays direction) :
    ∃ i < displays.length, (rectAt displays i).along direction = centre := by
  rw [centres, List.mem_toFinset, List.mem_map] at h
  obtain ⟨r, hr, rfl⟩ := h
  obtain ⟨i, hi, rfl⟩ := List.getElem_of_mem hr
  exact ⟨i, hi, by rw [rectAt_of_lt hi]⟩

/-- What the loop keeps of the displays it has looked at: the first of the nearest, or none. -/
def Keeps (displays : List DisplayRect) (direction : Direction) (current : Nat)
    (best : Nat × Nat) (seen : Nat) : Prop :=
  let base := (rectAt displays current).along direction
  (best = (displays.length, uint64Max) ∧
    ∀ i < seen, ¬ base < (rectAt displays i).along direction) ∨
  (best.1 < seen ∧ base < (rectAt displays best.1).along direction ∧
    (best.2 : Int) = (rectAt displays best.1).along direction - base ∧
    ∀ i < seen, base < (rectAt displays i).along direction →
      (rectAt displays best.1).along direction ≤ (rectAt displays i).along direction)

theorem Keeps.look (hfits : ∀ r ∈ displays, r.Fits) {current seen : Nat} {best : Nat × Nat}
    (h : Keeps displays direction current best seen) :
    Keeps displays direction current (look displays direction current best seen) (seen + 1) := by
  have hcurrent := along_bounds (rectAt_fits hfits current) direction
  have hseen := along_bounds (rectAt_fits hfits seen) direction
  unfold Mouse.look
  by_cases hlies :
      (rectAt displays current).along direction < (rectAt displays seen).along direction
  · have hother : ¬ (seen = current ∨ liesInDirection (rectAt displays current)
        (rectAt displays seen) direction = false) := by
      rintro (rfl | hfalse)
      · exact lt_irrefl _ hlies
      · rw [(liesInDirection_iff _ _).2 hlies] at hfalse
        cases hfalse
    have hdistance := directionalDistance_eq hlies
    rw [if_neg hother]
    dsimp only
    rcases h with ⟨rfl, hnone⟩ | ⟨hlt, hbest, hsame, hleast⟩
    · -- the first display found is nearer than nothing
      rw [if_pos (by simp only [uint64Max]; omega)]
      refine .inr ⟨Nat.lt_succ_self _, hlies, hdistance, ?_⟩
      intro i hi habove
      rcases Nat.lt_succ_iff_lt_or_eq.1 hi with hbefore | rfl
      · exact absurd habove (hnone i hbefore)
      · exact le_refl _
    · -- a nearer display takes the place of the best, any other leaves it
      split_ifs with hnearer
      · refine .inr ⟨Nat.lt_succ_self _, hlies, hdistance, ?_⟩
        intro i hi habove
        dsimp only
        rcases Nat.lt_succ_iff_lt_or_eq.1 hi with hbefore | rfl
        · have hfurther := hleast i hbefore habove
          omega
        · exact le_refl _
      · refine .inr ⟨Nat.lt_succ_of_lt hlt, hbest, hsame, ?_⟩
        intro i hi habove
        rcases Nat.lt_succ_iff_lt_or_eq.1 hi with hbefore | rfl
        · exact hleast i hbefore habove
        · omega
  · have hfalse :
        liesInDirection (rectAt displays current) (rectAt displays seen) direction = false := by
      rw [Bool.eq_false_iff]
      exact fun htrue ↦ hlies ((liesInDirection_iff _ _).1 htrue)
    rw [if_pos (.inr hfalse)]
    rcases h with ⟨rfl, hnone⟩ | ⟨hlt, hbest, hsame, hleast⟩
    · refine .inl ⟨rfl, fun i hi ↦ ?_⟩
      rcases Nat.lt_succ_iff_lt_or_eq.1 hi with hbefore | rfl
      · exact hnone i hbefore
      · exact hlies
    · refine .inr ⟨Nat.lt_succ_of_lt hlt, hbest, hsame, fun i hi habove ↦ ?_⟩
      rcases Nat.lt_succ_iff_lt_or_eq.1 hi with hbefore | rfl
      · exact hleast i hbefore habove
      · exact absurd habove hlies

theorem keeps_range (hfits : ∀ r ∈ displays, r.Fits) (direction : Direction) (current seen : Nat) :
    Keeps displays direction current
      ((List.range seen).foldl (look displays direction current) (displays.length, uint64Max))
        seen := by
  induction seen with
  | zero => exact .inl ⟨rfl, fun i hi ↦ absurd hi (Nat.not_lt_zero i)⟩
  | succ seen ih =>
      rw [List.range_succ, List.foldl_append]
      exact ih.look hfits

/-- The walk goes on to the next centre, or there is none. -/
theorem nearestNext_cases (hfits : ∀ r ∈ displays, r.Fits) (direction : Direction) (current : Nat) :
    (nearestNext displays direction current = displays.length ∧
      above (centres displays direction) ((rectAt displays current).along direction) = []) ∨
    (nearestNext displays direction current < displays.length ∧
      IsNext (centres displays direction) ((rectAt displays current).along direction)
        ((rectAt displays (nearestNext displays direction current)).along direction)) := by
  rcases keeps_range hfits direction current displays.length with
    ⟨hbest, hnone⟩ | ⟨hlt, habove, -, hleast⟩
  · refine .inl ⟨congrArg Prod.fst hbest, above_of_none ?_⟩
    intro centre hcentre
    obtain ⟨i, hi, rfl⟩ := mem_centres hcentre
    exact hnone i hi
  · refine .inr ⟨hlt, ⟨along_mem_centres hlt, habove⟩, ?_⟩
    rintro centre ⟨hcentre, hover⟩
    obtain ⟨i, hi, rfl⟩ := mem_centres hcentre
    exact hleast i hi hover

/-! ## The walk -/

theorem walk_reaches (hfits : ∀ r ∈ displays, r.Fits) {screens current target : Nat}
    (hcurrent : current < displays.length)
    (h : walk displays direction screens current = some target) :
    target < displays.length ∧
      ((rectAt displays current).along direction ::
        above (centres displays direction) ((rectAt displays current).along direction))[screens]? =
          some ((rectAt displays target).along direction) := by
  induction screens generalizing current with
  | zero =>
      cases h
      exact ⟨hcurrent, rfl⟩
  | succ screens ih =>
      rw [walk] at h
      rcases nearestNext_cases hfits direction current with
        ⟨hlast, -⟩ | ⟨hlt, hnext⟩
      · rw [if_pos hlast] at h
        cases h
      · rw [if_neg (Nat.ne_of_lt hlt)] at h
        rw [List.getElem?_cons_succ, above_of_next hnext]
        exact ih hlt h

/-- The walk fails where there are fewer distinct centres. -/
theorem walk_eq_none (hfits : ∀ r ∈ displays, r.Fits) (screens current : Nat) :
    walk displays direction screens current = none ↔
      (above (centres displays direction) ((rectAt displays current).along direction)).length <
        screens := by
  induction screens generalizing current with
  | zero => simp [walk]
  | succ screens ih =>
      rw [walk]
      rcases nearestNext_cases hfits direction current with
        ⟨hlast, hnone⟩ | ⟨hlt, hnext⟩
      · rw [if_pos hlast, hnone]
        simp
      · rw [if_neg (Nat.ne_of_lt hlt), ih, above_of_next hnext, List.length_cons,
          Nat.succ_lt_succ_iff]

/-- Each display the walk comes to lies further on than the one before. -/
theorem visited_ascends (hfits : ∀ r ∈ displays, r.Fits) (screens current : Nat) :
    (visited displays direction screens current).Pairwise
      (fun first second ↦ (rectAt displays first).along direction <
        (rectAt displays second).along direction) ∧
    ∀ i ∈ visited displays direction screens current,
      (rectAt displays current).along direction ≤ (rectAt displays i).along direction := by
  induction screens generalizing current with
  | zero => simp [visited]
  | succ screens ih =>
      rw [visited]
      rcases nearestNext_cases hfits direction current with
        ⟨hlast, -⟩ | ⟨hlt, ⟨-, hup⟩, -⟩
      · rw [if_pos hlast]
        simp
      · rw [if_neg (Nat.ne_of_lt hlt)]
        obtain ⟨hpairs, hbeyond⟩ := ih (nearestNext displays direction current)
        have hall :
            ∀ i ∈ visited displays direction screens (nearestNext displays direction current),
            (rectAt displays current).along direction < (rectAt displays i).along direction :=
          fun i hi ↦ hup.trans_le (hbeyond i hi)
        refine ⟨List.pairwise_cons.2 ⟨hall, hpairs⟩, fun i hi ↦ ?_⟩
        rcases List.mem_cons.1 hi with rfl | hi
        · exact le_refl _
        · exact le_of_lt (hall i hi)

theorem visited_nodup (hfits : ∀ r ∈ displays, r.Fits) (screens current : Nat) :
    (visited displays direction screens current).Nodup := by
  refine (visited_ascends hfits screens current).1.imp ?_
  rintro first second hlt rfl
  exact lt_irrefl _ hlt

/-! ## Along an edge -/

theorem placeAlong_mono {first second : Nat} (h : first ≤ second) {span : Nat} (hspan : 1 ≤ span) :
    Device.placeAlong first span ≤ Device.placeAlong second span := by
  have hscaled := mul_le_mul_of_nonneg_right (Int.ofNat_le.2 h) (show (0 : Int) ≤ span - 1 by omega)
  exact Int.ediv_le_ediv (by decide) (by omega)

theorem placeAlong_first (span : Nat) : Device.placeAlong 0 span = 0 := by
  simp [Device.placeAlong]

theorem placeAlong_last (span : Nat) : Device.placeAlong 65535 span = span - 1 := by
  rw [Device.placeAlong]
  omega

theorem placeAlong_inside {position : Nat} (h : position ≤ 65535) {span : Nat} (hspan : 1 ≤ span) :
    0 ≤ Device.placeAlong position span ∧ Device.placeAlong position span ≤ span - 1 := by
  have hlow := placeAlong_mono (Nat.zero_le position) hspan
  have hhigh := placeAlong_mono h hspan
  rw [placeAlong_first] at hlow
  rw [placeAlong_last] at hhigh
  exact ⟨hlow, hhigh⟩

/-! ## The target -/

/-- A point on a display, on the edge in a direction. -/
def DisplayRect.OnEdge (r : DisplayRect) (border : Direction) (point : PlacePoint) : Prop :=
  r.x ≤ point.x ∧ point.x < r.x + r.width ∧ r.y ≤ point.y ∧ point.y < r.y + r.height ∧
  match border with
  | .left => point.x = r.x
  | .right => point.x = r.x + r.width - 1
  | .top => point.y = r.y
  | .bottom => point.y = r.y + r.height - 1
  | .none => False

/-- A display has an empty size. -/
def DisplayRect.IsEmpty (r : DisplayRect) : Prop := r.width ≤ 0 ∨ r.height ≤ 0

/-- The centres a placement counts along: that of the primary display and the distinct ones beyond
it, in order. -/
def countedCentres (place : Wire.Place) (displays : List DisplayRect) (primaryIndex : Nat) :
    List Int :=
  let direction := Direction.ofByte place.chainDirection
  (rectAt displays primaryIndex).along direction ::
    above (centres displays direction) ((rectAt displays primaryIndex).along direction)

/-- The display the walk of a placement ends at. -/
def walked (place : Wire.Place) (displays : List DisplayRect) (primaryIndex : Nat) : Option Nat :=
  walk displays (.ofByte place.chainDirection) (place.chainIndex.toNat - 1) primaryIndex

variable {place : Wire.Place} {primaryIndex : Nat}

theorem walked_none (hfits : ∀ r ∈ displays, r.Fits) (hindex : place.chainIndex ≠ 0) :
    walked place displays primaryIndex = none ↔
      (countedCentres place displays primaryIndex).length < place.chainIndex.toNat := by
  have hpos : 0 < place.chainIndex.toNat := by
    rw [Nat.pos_iff_ne_zero]
    exact fun hzero ↦ hindex (UInt8.toNat_inj.1 hzero)
  rw [walked, walk_eq_none hfits, countedCentres, List.length_cons]
  omega

/-- A placement fails where an index is out of range, the border is no direction, the centres do not
reach so far, or the display reached is empty. -/
theorem placeTarget_none (hfits : ∀ r ∈ displays, r.Fits) :
    placeTarget place displays primaryIndex = none ↔
      displays.length ≤ primaryIndex ∨ place.chainIndex = 0 ∨
      Direction.ofByte place.borderDirection = .none ∨
      (countedCentres place displays primaryIndex).length < place.chainIndex.toNat ∨
      ∃ target, walked place displays primaryIndex = some target ∧
        (rectAt displays target).IsEmpty := by
  rw [placeTarget]
  by_cases hrange : displays.length = 0 ∨ displays.length ≤ primaryIndex ∨ place.chainIndex = 0
  · rw [if_pos hrange]
    refine iff_of_true rfl ?_
    rcases hrange with hempty | hprimary | hindex
    · exact .inl (by omega)
    · exact .inl hprimary
    · exact .inr (.inl hindex)
  · obtain ⟨hsome, hprimary, hindex⟩ : displays.length ≠ 0 ∧ ¬ displays.length ≤ primaryIndex ∧
        place.chainIndex ≠ 0 := by
      simpa only [not_or] using hrange
    rw [if_neg hrange, ← walked_none hfits hindex]
    change (match walked place displays primaryIndex with | none => none | some current => _) =
      none ↔ _
    rcases hwalk : walked place displays primaryIndex with - | target
    · simp
    · simp only [hprimary, hindex, reduceCtorEq, false_or, Option.some.injEq, exists_eq_left']
      by_cases hempty : (rectAt displays target).width ≤ 0 ∨ (rectAt displays target).height ≤ 0
      · rw [if_pos hempty]
        exact iff_of_true rfl (.inr hempty)
      · rw [if_neg hempty]
        have hfull : ¬ (rectAt displays target).IsEmpty := hempty
        cases Direction.ofByte place.borderDirection <;> simp [hfull]

/-- A placement that succeeds lies on the named edge of the display the walk ends at. -/
theorem placeTarget_some {point : PlacePoint}
    (h : placeTarget place displays primaryIndex = some point) :
    primaryIndex < displays.length ∧ walked place displays primaryIndex = some point.displayIndex ∧
      (rectAt displays point.displayIndex).OnEdge (.ofByte place.borderDirection) point := by
  rw [placeTarget] at h
  split_ifs at h with hrange
  change (match walked place displays primaryIndex with | none => none | some current => _) = _ at h
  rcases hwalk : walked place displays primaryIndex with - | target
  · rw [hwalk] at h
    cases h
  · rw [hwalk] at h
    dsimp only at h
    split_ifs at h with hempty
    rw [not_or] at hrange hempty
    have hposition : place.entryPosition.toNat ≤ 65535 :=
      Nat.le_of_lt_succ place.entryPosition.toNat_lt
    obtain ⟨hxlow, hxhigh⟩ := @placeAlong_inside _ hposition
      (rectAt displays target).width.toNat (by omega)
    obtain ⟨hylow, hyhigh⟩ := @placeAlong_inside _ hposition
      (rectAt displays target).height.toNat (by omega)
    refine ⟨by omega, ?_⟩
    cases hborder : Direction.ofByte place.borderDirection with
    | left | right | top | bottom =>
        rw [hborder] at h
        cases h
        refine ⟨rfl, ?_, ?_, ?_, ?_, rfl⟩ <;> dsimp only <;> omega
    | none =>
        rw [hborder] at h
        cases h

/-- What a placement comes to. -/
structure PlacesExactly (place : Wire.Place) (displays : List DisplayRect) (primaryIndex : Nat) :
    Prop where
  visits_once : (visited displays (.ofByte place.chainDirection) (place.chainIndex.toNat - 1)
    primaryIndex).Nodup
  reaches : primaryIndex < displays.length →
    ∀ target, walked place displays primaryIndex = some target →
    target < displays.length ∧
      (countedCentres place displays primaryIndex)[place.chainIndex.toNat - 1]? =
        some ((rectAt displays target).along (.ofByte place.chainDirection))
  fails : placeTarget place displays primaryIndex = none ↔
    displays.length ≤ primaryIndex ∨ place.chainIndex = 0 ∨
    Direction.ofByte place.borderDirection = .none ∨
    (countedCentres place displays primaryIndex).length < place.chainIndex.toNat ∨
    ∃ target, walked place displays primaryIndex = some target ∧ (rectAt displays target).IsEmpty
  lands : ∀ point, placeTarget place displays primaryIndex = some point →
    walked place displays primaryIndex = some point.displayIndex ∧
      (rectAt displays point.displayIndex).OnEdge (.ofByte place.borderDirection) point

/-- Of any displays whose numbers fit in 32 bits: the walk comes to no display twice and counts the
distinct centres beyond the primary display's, in order; a placement fails only for want of one, of
a size, or of a valid index or border, and else lies on the named edge; and the place along an edge
goes from its first pixel to its last. -/
theorem place_target_exact (displays : List DisplayRect) (hfits : ∀ r ∈ displays, r.Fits) :
    (∀ place primaryIndex, PlacesExactly place displays primaryIndex) ∧
    ∀ span : Nat, 1 ≤ span →
      (∀ first second : Nat, first ≤ second →
        Device.placeAlong first span ≤ Device.placeAlong second span) ∧
      Device.placeAlong 0 span = 0 ∧ Device.placeAlong 65535 span = span - 1 := by
  refine ⟨fun place primaryIndex ↦ ⟨visited_nodup hfits _ _, ?_, placeTarget_none hfits, ?_⟩, ?_⟩
  · intro hprimary target htarget
    exact walk_reaches hfits hprimary htarget
  · intro point hpoint
    exact (placeTarget_some hpoint).2
  · intro span hspan
    exact ⟨fun _ _ hle ↦ placeAlong_mono hle hspan, placeAlong_first span, placeAlong_last span⟩

/-- Three displays of which two share a centre: the walk to the right counts them once. -/
theorem place_target_exact_shared :
    PlacesExactly ⟨3, 2, 1, 0⟩ [⟨0, 0, 10, 10⟩, ⟨10, 0, 10, 10⟩, ⟨10, 10, 10, 10⟩, ⟨20, 0, 9, 9⟩]
      0 :=
  (place_target_exact [⟨0, 0, 10, 10⟩, ⟨10, 0, 10, 10⟩, ⟨10, 10, 10, 10⟩, ⟨20, 0, 9, 9⟩] (by
    simp [DisplayRect.fits_iff, DisplayRect.IsInt32])).1 ⟨3, 2, 1, 0⟩ 0

/-- A placement on the primary display succeeds whatever its chain direction. -/
theorem place_unused_direction :
    Direction.ofByte 0 = .none ∧
    placeTarget ⟨1, 0, 1, 0⟩ [⟨0, 0, 10, 10⟩] 0 = some ⟨0, 0, 0⟩ := by
  decide

end DeskhopPlus.Mouse
