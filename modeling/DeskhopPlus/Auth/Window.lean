import DeskhopPlus.Auth.Tag
import DeskhopPlus.Library.ReplayWindow
import Mathlib.Data.List.Induction

/-!
# The receive counter

The counter half of `dh_auth.c`: the highest accepted counter, the mask of the sixty-four behind
it, the tally, and `dh_auth_open`, which checks the tag first and moves this state only for a
frame whose tag verified. `Recording` ties the state to the whole history of accepted counters;
one frame keeps it (`authOpen_recording`), so every sequence of frames does
(`receive_recording`), and the window law is read off there.
-/

namespace DeskhopPlus.Auth

open Bytes Wire ReplayWindow Runs

/-- `DH_AUTH_WINDOW`. -/
def authWindow : Nat := 64

/-- `dh_auth_counter`. -/
structure AuthCounter where
  highest : Nat
  seen : BitVec 64
  accepted : Nat
  any : Bool
  deriving DecidableEq, Repr

namespace AuthCounter

/-- `dh_auth_counter_init`. -/
def init : AuthCounter := { highest := 0, seen := 0, accepted := 0, any := false }

/-- `dh_auth_counter_ok`. -/
def ok (c : AuthCounter) (counter : Nat) : Bool :=
  if c.any = false then true
  else if c.highest < counter then true
  else if authWindow ≤ c.highest - counter then false
  else c.seen &&& (1#64 <<< (c.highest - counter)) = 0

/-- `dh_auth_counter_accept`. The tally is a `uint64_t`. -/
def accept (c : AuthCounter) (counter : Nat) : AuthCounter :=
  if c.any = false then { highest := counter, seen := 1, accepted := 1, any := true }
  else if c.highest < counter then
    let shift := counter - c.highest
    { c with
      seen := if authWindow ≤ shift then 1 else (c.seen <<< shift) ||| 1
      highest := counter
      accepted := (c.accepted + 1) % 2 ^ 64 }
  else if c.highest - counter < authWindow then
    { c with
      seen := c.seen ||| (1#64 <<< (c.highest - counter))
      accepted := (c.accepted + 1) % 2 ^ 64 }
  else c

/-- `dh_auth_counter_built`. -/
def built (c : AuthCounter) : Nat := if c.any then (c.highest + 1) % 2 ^ 64 else 0

/-- `dh_auth_counter_missed`. -/
def missed (c : AuthCounter) : Nat :=
  if c.accepted < c.built then c.built - c.accepted else 0

end AuthCounter

/-- `dh_auth_open`: the body of the frame, or why it was refused, and the receive state after
it. -/
def authOpen (key : List UInt8) (view : FrameView) (c : AuthCounter) :
    Except AuthFault (List UInt8) × AuthCounter :=
  if view.payload.length < authPrefixSize then (.error .short, c)
  else
    match peekCounter view.payload with
    | none => (.error .short, c)
    | some seen =>
        let body := bodyOf view
        let expected := tag key view.type view.flags view.payload.length seen body
        if bytesEqual expected (tagOf view) = false then (.error .tag, c)
        else if c.ok seen = false then (.error .counter, c)
        else (.ok body, c.accept seen)

/-- One spec for the whole function: the tag decides first, then the counter. -/
theorem authOpen_eq (key : List UInt8) (view : FrameView) (c : AuthCounter) :
    authOpen key view c =
      if TagVerifies key view then
        if c.ok (counterOf view) then (.ok (bodyOf view), c.accept (counterOf view))
        else (.error .counter, c)
      else if view.payload.length < authPrefixSize then (.error .short, c)
      else (.error .tag, c) := by
  unfold authOpen
  by_cases hshort : view.payload.length < authPrefixSize
  · have hnot : ¬ TagVerifies key view := fun h ↦ by have := h.1; omega
    rw [if_pos hshort, if_neg hnot, if_pos hshort]
  · have hpeek : peekCounter view.payload = some (counterOf view) := by
      rw [peekCounter, if_neg (by simp only [authPrefixSize] at hshort; omega)]
      rfl
    have htagLength : (tagOf view).length = tagSize := by
      simp only [tagOf, List.length_take, List.length_drop]
      simp only [authPrefixSize] at hshort
      omega
    have hequal : bytesEqual (tag key view.type view.flags view.payload.length
        (counterOf view) (bodyOf view)) (tagOf view) = true ↔ TagVerifies key view := by
      rw [bytesEqual_iff (by simp [htagLength]), TagVerifies]
      exact (and_iff_right (by omega)).symm
    rw [if_neg hshort, hpeek]
    by_cases htag : TagVerifies key view
    · rw [if_pos htag]
      simp only [hequal.2 htag]
      cases c.ok (counterOf view) <;> rfl
    · have hdiffers := Bool.eq_false_iff.2 fun h ↦ htag (hequal.1 h)
      rw [if_neg htag, if_neg hshort]
      simp only [hdiffers, if_true]

/-- A refused frame leaves the receive state as it was. -/
theorem authOpen_error {key : List UInt8} {view : FrameView} {c rx : AuthCounter}
    {fault : AuthFault} (h : authOpen key view c = (.error fault, rx)) : rx = c := by
  rw [authOpen_eq] at h
  by_cases htag : TagVerifies key view
  · rw [if_pos htag] at h
    split at h <;> cases h
    rfl
  · rw [if_neg htag] at h
    split at h <;> cases h <;> rfl

/-- What is handed back is the body behind the prefix. -/
theorem authOpen_ok {key : List UInt8} {view : FrameView} {c rx : AuthCounter}
    {body : List UInt8} (h : authOpen key view c = (.ok body, rx)) : body = bodyOf view := by
  rw [authOpen_eq] at h
  by_cases htag : TagVerifies key view
  · rw [if_pos htag] at h
    split at h <;> cases h
    rfl
  · rw [if_neg htag] at h
    split at h <;> cases h

/-! ## The state and the history of accepted counters -/

/-- The receive state remembers this history of accepted counters. -/
structure Recording (c : AuthCounter) (history : List Nat) : Prop where
  nodup : history.Nodup
  tally : c.accepted = history.length % 2 ^ 64
  fresh : c.any = false → history = []
  highest : c.any = true → IsHighest history c.highest
  mask : c.any = true → Records c.seen c.highest history

theorem recording_init : Recording AuthCounter.init [] where
  nodup := List.nodup_nil
  tally := rfl
  fresh _ := rfl
  highest h := by cases h
  mask h := by cases h

namespace Recording

variable {c : AuthCounter} {history : List Nat} {counter : Nat}

/-- Testing one bit of the mask. -/
theorem test_bit (mask : BitVec 64) {distance : Nat} (hdistance : distance < 64) :
    mask &&& (1#64 <<< distance) = 0 ↔ mask.getLsbD distance = false := by
  constructor
  · intro hzero
    have hbit := congrArg (fun m ↦ m.getLsbD distance) hzero
    simpa [BitVec.getLsbD_one, hdistance] using hbit
  · intro hclear
    apply BitVec.eq_of_getLsbD_eq
    intro position hposition
    by_cases hsame : position = distance
    · subst hsame
      simp [hclear]
    · simp [BitVec.getLsbD_one]
      omega

/-- The code's test is the window law over the whole history. -/
theorem ok_iff (h : Recording c history) :
    c.ok counter = true ↔ Admits authWindow history counter := by
  unfold AuthCounter.ok
  by_cases hany : c.any = false
  · rw [if_pos hany, h.fresh hany]
    simp [admits_nil]
  · have hany : c.any = true := by simpa using hany
    have hhighest := h.highest hany
    rw [if_neg (by simp [hany]), admits_iff_highest hhighest]
    by_cases habove : c.highest < counter
    · rw [if_pos habove]
      have hnew : counter ∉ history := by
        intro hmem
        have := hhighest.2 counter hmem
        omega
      simp only [true_iff]
      exact ⟨hnew, by omega⟩
    · rw [if_neg habove]
      by_cases hold : authWindow ≤ c.highest - counter
      · rw [if_pos hold]
        simp only [Bool.false_eq_true, false_iff, not_and]
        intro _
        omega
      · have hinside : c.highest - counter < 64 := by simp only [authWindow] at hold; omega
        have hbit := (h.mask hany).bit_iff counter (by omega) hinside
        rw [if_neg hold, decide_eq_true_eq, test_bit _ hinside, ← Bool.not_eq_true, hbit]
        exact (and_iff_left (by simp only [authWindow]; omega)).symm

/-- Recording an admitted counter extends the history by it. -/
theorem accept (h : Recording c history) (hadmits : Admits authWindow history counter) :
    Recording (c.accept counter) (history ++ [counter]) := by
  have hnodup := hadmits.nodup_append h.nodup
  have htally : (c.accepted + 1) % 2 ^ 64 = (history ++ [counter]).length % 2 ^ 64 := by
    rw [h.tally, List.length_append, List.length_singleton, Nat.mod_add_mod]
  unfold AuthCounter.accept
  by_cases hany : c.any = false
  · rw [if_pos hany]
    have hnil := h.fresh hany
    subst hnil
    exact { nodup := hnodup, tally := rfl, fresh := fun h ↦ absurd h (by simp),
            highest := fun _ ↦ ⟨by simp, by simp⟩, mask := fun _ ↦ records_first counter }
  · have hset : c.any = true := by simpa using hany
    have hhighest := h.highest hset
    have hmask := h.mask hset
    rw [if_neg hany]
    by_cases habove : c.highest < counter
    · rw [if_pos habove]
      refine { nodup := hnodup, tally := htally, fresh := fun h ↦ absurd h hany,
               highest := fun _ ↦ hhighest.append_above habove, mask := fun _ ↦ ?_ }
      by_cases hfar : authWindow ≤ counter - c.highest
      · simp only [hfar, if_true]
        exact Records.jump hhighest hfar
      · simp only [hfar, if_false]
        exact hmask.shift hhighest habove (by simp only [authWindow] at hfar; omega)
    · have hinside : c.highest - counter < authWindow := by
        have := hadmits.2 _ hhighest.1
        simp only [authWindow] at *
        omega
      rw [if_neg habove, if_pos hinside]
      exact { nodup := hnodup, tally := htally, fresh := fun h ↦ absurd h hany,
              highest := fun _ ↦ hhighest.append_below (by omega),
              mask := fun _ ↦ hmask.insert (by omega) hinside }

/-- The tally is the number of accepted counters as long as they stay below the last one. -/
theorem accepted_eq_length (h : Recording c history) (hbound : ∀ x ∈ history, x < 2 ^ 64 - 1) :
    c.accepted = history.length := by
  rw [h.tally]
  apply Nat.mod_eq_of_lt
  cases hany : c.any with
  | false => simp [h.fresh hany]
  | true =>
      have hhighest := h.highest hany
      have hlength := hhighest.length_le h.nodup
      have := hbound _ hhighest.1
      omega

/-- What is missing below the highest counter is what `dh_auth_counter_missed` reports. -/
theorem missed_eq (h : Recording c history) (hbound : ∀ x ∈ history, x < 2 ^ 64 - 1)
    {highest : Nat} (hhighest : IsHighest history highest) :
    c.missed + history.length = highest + 1 := by
  have hany : c.any = true := by
    by_contra hnone
    exact hhighest.ne_nil (h.fresh (by simpa using hnone))
  have hsame : c.highest = highest := (h.highest hany).unique hhighest
  have hlength := hhighest.length_le h.nodup
  have hlast := hbound _ hhighest.1
  have hbuilt : c.built = highest + 1 := by
    rw [AuthCounter.built, hany, if_pos rfl, hsame, Nat.mod_eq_of_lt (by omega)]
  rw [AuthCounter.missed, hbuilt, h.accepted_eq_length hbound]
  split <;> omega

/-- Nothing is missing before anything was accepted. -/
theorem missed_fresh (h : Recording c []) : c.missed = 0 := by
  have hany : c.any = false := by
    by_contra hset
    exact (h.highest (by simpa using hset)).ne_nil rfl
  simp [AuthCounter.missed, AuthCounter.built, hany]

end Recording

/-! ## Whole sequences of frames -/

section Sequence

variable (key : List UInt8)

/-- Present a sequence of frames to a receive state. -/
def receive (c : AuthCounter) : List FrameView → AuthCounter
  | [] => c
  | view :: rest => receive (authOpen key view c).2 rest

/-- `dh_auth_open` takes this frame. -/
def Opens (c : AuthCounter) (view : FrameView) : Prop :=
  ∃ body, (authOpen key view c).1 = .ok body

instance (c : AuthCounter) (view : FrameView) : Decidable (Opens key c view) :=
  match h : (authOpen key view c).1 with
  | .ok body => .isTrue ⟨body, h⟩
  | .error fault => .isFalse fun ⟨body, hbody⟩ ↦ by rw [h] at hbody; cases hbody

/-- The counters of the frames of a sequence that were taken, in order. -/
def acceptedCounters (c : AuthCounter) : List FrameView → List Nat
  | [] => []
  | view :: rest =>
      (if Opens key c view then [counterOf view] else []) ++
        acceptedCounters (authOpen key view c).2 rest

theorem acceptedCounters_append (c : AuthCounter) (first second : List FrameView) :
    acceptedCounters key c (first ++ second) =
      acceptedCounters key c first ++ acceptedCounters key (receive key c first) second := by
  induction first generalizing c with
  | nil => rfl
  | cons view rest ih =>
      simp only [List.cons_append, acceptedCounters, receive, ih, List.append_assoc]

variable {key} {c : AuthCounter} {history : List Nat} {view : FrameView}

/-- A frame is taken exactly when its tag verifies and the state has not refused its counter. -/
theorem opens_iff_ok : Opens key c view ↔ TagVerifies key view ∧ c.ok (counterOf view) = true := by
  rw [Opens, authOpen_eq]
  by_cases htag : TagVerifies key view
  · cases hok : c.ok (counterOf view) <;> simp [htag]
  · by_cases hshort : view.payload.length < authPrefixSize <;> simp [htag, hshort]

/-- A frame is taken exactly when its tag verifies and its counter is admitted. -/
theorem opens_iff (h : Recording c history) :
    Opens key c view ↔ TagVerifies key view ∧ Admits authWindow history (counterOf view) := by
  rw [opens_iff_ok, h.ok_iff]

/-- A frame whose tag does not verify moves nothing. -/
theorem authOpen_bad_tag (htag : ¬ TagVerifies key view) : (authOpen key view c).2 = c := by
  rw [authOpen_eq, if_neg htag]
  split <;> rfl

/-- One frame extends the history by its counter if it was taken, and leaves it otherwise. -/
theorem authOpen_recording (key : List UInt8) (view : FrameView) (h : Recording c history) :
    Recording (authOpen key view c).2
      (history ++ if Opens key c view then [counterOf view] else []) := by
  by_cases hopens : Opens key c view
  · obtain ⟨htag, hadmits⟩ := (opens_iff h).1 hopens
    have hstate : (authOpen key view c).2 = c.accept (counterOf view) := by
      rw [authOpen_eq, if_pos htag, if_pos (h.ok_iff.2 hadmits)]
    rw [if_pos hopens, hstate]
    exact h.accept hadmits
  · have hstate : (authOpen key view c).2 = c := by
      by_cases htag : TagVerifies key view
      · have hok : ¬ c.ok (counterOf view) = true := fun hok ↦
          hopens ((opens_iff h).2 ⟨htag, h.ok_iff.1 hok⟩)
        rw [authOpen_eq, if_pos htag, if_neg hok]
      · exact authOpen_bad_tag htag
    rw [if_neg hopens, hstate, List.append_nil]
    exact h

/-- Every sequence keeps the state a record of everything taken. -/
theorem receive_recording (key : List UInt8) (views : List FrameView) (h : Recording c history) :
    Recording (receive key c views) (history ++ acceptedCounters key c views) := by
  induction views generalizing c history with
  | nil => simpa [receive, acceptedCounters] using h
  | cons view rest ih =>
      have hstep := ih (authOpen_recording key view h)
      simpa only [receive, acceptedCounters, List.append_assoc] using hstep

/-- Every frame of a sequence is taken. -/
def AllOpen (key : List UInt8) : List FrameView → Prop :=
  EachAfter fun before view ↦ Opens key (receive key AuthCounter.init before) view

/-- When every frame is taken, the history is the sequence of their counters. -/
theorem acceptedCounters_of_allOpen {views : List FrameView} (h : AllOpen key views) :
    acceptedCounters key AuthCounter.init views = views.map counterOf := by
  induction views using List.reverseRecOn with
  | nil => rfl
  | append_singleton views view ih =>
      obtain ⟨hall, hlast⟩ := eachAfter_snoc.1 h
      rw [acceptedCounters_append, ih hall, List.map_append]
      simp [acceptedCounters, hlast]

/-- A receiver takes every frame of a sequence whose tags verify exactly when the window admits
every counter after those before it. -/
theorem allOpen_iff {views : List FrameView} (htags : ∀ view ∈ views, TagVerifies key view) :
    AllOpen key views ↔ AllAdmitted authWindow (views.map counterOf) := by
  induction views using List.reverseRecOn with
  | nil => exact ⟨fun _ ↦ eachAfter_nil, fun _ ↦ eachAfter_nil⟩
  | append_singleton views view ih =>
      have htail := ih fun other hother ↦ htags other (List.mem_append_left _ hother)
      rw [AllOpen, eachAfter_snoc, List.map_append, List.map_cons, List.map_nil, AllAdmitted,
        eachAfter_snoc]
      refine Iff.trans (and_congr_right fun hall ↦ ?_) (and_congr_left' htail)
      have h : Recording (receive key AuthCounter.init views) (views.map counterOf) := by
        have := receive_recording key views recording_init
        rwa [List.nil_append, acceptedCounters_of_allOpen hall] at this
      rw [opens_iff h]
      exact and_iff_right (htags view (by simp))

end Sequence

/-- The window law over every sequence of frames of a session. With `accepted` the counters taken
so far, a frame whose tag verifies is taken exactly when its counter is not among them and, once
there is a highest one, is above it minus the width; so no counter is taken twice. Below the last
counter value the tally and the missing count are exact, and a frame whose tag does not verify
leaves the state as it was. -/
theorem receive_window_law (key : List UInt8) (before : List FrameView) (view : FrameView) :
    let c := receive key AuthCounter.init before
    let accepted := acceptedCounters key AuthCounter.init before
    (TagVerifies key view →
      (Opens key c view ↔
        counterOf view ∉ accepted ∧
          (accepted = [] ∨
            ∃ highest, IsHighest accepted highest ∧ (highest : Int) - 64 < counterOf view))) ∧
    accepted.Nodup ∧
    ((∀ counter ∈ accepted, counter < 2 ^ 64 - 1) →
      c.accepted = accepted.length ∧
      (accepted = [] → c.missed = 0) ∧
      ∀ highest, IsHighest accepted highest →
        (c.missed : Int) = highest + 1 - accepted.length) ∧
    (¬ TagVerifies key view → (authOpen key view c).2 = c) := by
  intro c accepted
  -- the three parts are read off the record of the counters taken
  have h : Recording c accepted := by
    have := receive_recording key before recording_init
    rwa [List.nil_append] at this
  refine ⟨?_, h.nodup, ?_, authOpen_bad_tag⟩
  · intro htag
    rw [opens_iff h]
    cases hany : c.any with
    | false =>
        have hnil := h.fresh hany
        simp [htag, hnil, admits_nil]
    | true =>
        have hhighest := h.highest hany
        rw [admits_iff_highest hhighest]
        constructor
        · rintro ⟨-, hnew, hinside⟩
          refine ⟨hnew, .inr ⟨c.highest, hhighest, ?_⟩⟩
          simp only [authWindow] at hinside
          omega
        · rintro ⟨hnew, hnil | ⟨highest, hother, hinside⟩⟩
          · exact absurd hnil hhighest.ne_nil
          · have hsame := hhighest.unique hother
            refine ⟨htag, hnew, ?_⟩
            simp only [authWindow]
            omega
  · intro hbound
    refine ⟨h.accepted_eq_length hbound, ?_, ?_⟩
    · intro hnil
      exact Recording.missed_fresh (hnil ▸ h)
    · intro highest hhighest
      have := h.missed_eq hbound hhighest
      omega

end DeskhopPlus.Auth
