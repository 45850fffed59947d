import Mathlib.Data.List.Basic
import Mathlib.Data.List.Nodup
import Mathlib.Logic.Function.Basic

/-!
# Lanes that share one output

A specification of queues in front of one byte output: items wait in lanes, and once an item has
begun nothing but its own bytes is put out until it is complete. Which lane begins next is left
open. A `LaneQueue` keeps its whole past: everything accepted, everything completed in order, and
every byte put out. `Sound` is the account that must balance: per lane the completed items
followed by the waiting ones are the accepted ones, and the output is the completed items
followed by the begun part of one more. Accepting, beginning and emitting keep it.
-/

namespace DeskhopPlus

/-- Items waiting in lanes, and the past of their common output. -/
structure LaneQueue (ι α : Type*) where
  accepted : List (ι × List α)
  waiting : ι → List (List α)
  begun : Option ι
  sent : Nat
  done : List (ι × List α)
  emitted : List α

namespace LaneQueue

variable {ι α : Type*} [DecidableEq ι]

/-- The items of one lane, in order. -/
def onLane (lane : ι) (items : List (ι × List α)) : List (List α) :=
  (items.filter fun item ↦ item.1 = lane).map Prod.snd

/-- Where every item names its own lane, the items of a lane are those that name it. -/
theorem onLane_eq_filter {laneOf : List α → ι} {items : List (ι × List α)}
    (hnamed : ∀ item ∈ items, item.1 = laneOf item.2) (lane : ι) :
    onLane lane items = (items.map Prod.snd).filter fun item ↦ laneOf item = lane := by
  rw [onLane, List.filter_map]
  congr 1
  apply List.filter_congr
  intro item hitem
  simp [hnamed item hitem]

omit [DecidableEq ι] in
/-- The bytes of a sequence of items. -/
def bytes (items : List (ι × List α)) : List α := (items.map Prod.snd).flatten

@[simp] theorem onLane_append (lane : ι) (first second : List (ι × List α)) :
    onLane lane (first ++ second) = onLane lane first ++ onLane lane second := by
  simp [onLane]

@[simp] theorem onLane_singleton_self (lane : ι) (item : List α) :
    onLane lane [(lane, item)] = [item] := by
  simp [onLane]

theorem onLane_singleton_of_ne {lane other : ι} (h : other ≠ lane) (item : List α) :
    onLane lane [(other, item)] = [] := by
  simp [onLane, h]

omit [DecidableEq ι] in
@[simp] theorem bytes_append (first second : List (ι × List α)) :
    bytes (first ++ second) = bytes first ++ bytes second := by
  simp [bytes]

omit [DecidableEq ι] in
@[simp] theorem bytes_singleton (item : ι × List α) : bytes [item] = item.2 := by
  simp [bytes]

/-- Nothing waits and nothing happened. -/
def empty : LaneQueue ι α where
  accepted := []
  waiting _ := []
  begun := none
  sent := 0
  done := []
  emitted := []

/-- Take an item at the end of its lane. -/
def accept (q : LaneQueue ι α) (lane : ι) (item : List α) : LaneQueue ι α :=
  { q with
    accepted := q.accepted ++ [(lane, item)]
    waiting := Function.update q.waiting lane (q.waiting lane ++ [item]) }

@[simp] theorem accept_waiting_self (q : LaneQueue ι α) (lane : ι) (item : List α) :
    (q.accept lane item).waiting lane = q.waiting lane ++ [item] := by
  simp [accept]

theorem accept_waiting_of_ne (q : LaneQueue ι α) {lane other : ι} (h : other ≠ lane)
    (item : List α) : (q.accept lane item).waiting other = q.waiting other := by
  simp [accept, Function.update_of_ne h]

/-- Commit the output to the head of a lane without a byte of it. -/
def start (q : LaneQueue ι α) (lane : ι) : LaneQueue ι α :=
  match q.waiting lane with
  | [] => q
  | _ :: _ => { q with begun := some lane }

/-- Put out up to `count` more bytes of the head of a lane. -/
def emit (q : LaneQueue ι α) (lane : ι) (count : Nat) : LaneQueue ι α :=
  match q.waiting lane with
  | [] => q
  | item :: rest =>
      let emitted := q.emitted ++ (item.drop q.sent).take count
      if q.sent + count < item.length then
        { q with
          begun := if count = 0 then q.begun else some lane
          sent := q.sent + count
          emitted := emitted }
      else
        { q with
          waiting := Function.update q.waiting lane rest
          begun := none
          sent := 0
          done := q.done ++ [(lane, item)]
          emitted := emitted }

omit [DecidableEq ι] in
/-- The part of the begun item already put out. -/
def part (q : LaneQueue ι α) : List α :=
  match q.begun with
  | none => []
  | some lane => ((q.waiting lane).headD []).take q.sent

omit [DecidableEq ι] in
/-- No other lane has begun. -/
def FreeFor (q : LaneQueue ι α) (lane : ι) : Prop := q.begun = none ∨ q.begun = some lane

theorem emit_nil {q : LaneQueue ι α} {lane : ι} (hwaiting : q.waiting lane = []) (count : Nat) :
    q.emit lane count = q := by
  simp [emit, hwaiting]

@[simp] theorem emit_accepted (q : LaneQueue ι α) (lane : ι) (count : Nat) :
    (q.emit lane count).accepted = q.accepted := by
  unfold emit
  split
  · rfl
  · split <;> rfl

omit [DecidableEq ι] in
@[simp] theorem start_accepted (q : LaneQueue ι α) (lane : ι) :
    (q.start lane).accepted = q.accepted := by
  unfold start
  split <;> rfl

omit [DecidableEq ι] in
@[simp] theorem start_emitted (q : LaneQueue ι α) (lane : ι) :
    (q.start lane).emitted = q.emitted := by
  unfold start
  split <;> rfl

/-- Bytes short of the end of the item. -/
theorem emit_inside {q : LaneQueue ι α} {lane : ι} {item : List α} {rest : List (List α)}
    {count : Nat} (hwaiting : q.waiting lane = item :: rest)
    (hmore : q.sent + count < item.length) :
    q.emit lane count =
      { q with
        begun := if count = 0 then q.begun else some lane
        sent := q.sent + count
        emitted := q.emitted ++ (item.drop q.sent).take count } := by
  simp only [emit, hwaiting, if_pos hmore]

/-- Bytes up to the end of the item complete it. -/
theorem emit_complete {q : LaneQueue ι α} {lane : ι} {item : List α} {rest : List (List α)}
    {count : Nat} (hwaiting : q.waiting lane = item :: rest)
    (hend : item.length ≤ q.sent + count) :
    q.emit lane count =
      { q with
        waiting := Function.update q.waiting lane rest
        begun := none
        sent := 0
        done := q.done ++ [(lane, item)]
        emitted := q.emitted ++ (item.drop q.sent).take count } := by
  simp only [emit, hwaiting, if_neg (Nat.not_lt.2 hend)]

/-- Taking an item adds nothing else to any lane. -/
theorem mem_accept_waiting {q : LaneQueue ι α} {lane other : ι} {item queued : List α}
    (h : queued ∈ (q.accept lane item).waiting other) : queued ∈ q.waiting other ∨
      queued = item := by
  by_cases hlane : other = lane
  · subst hlane
    simpa using h
  · rw [accept_waiting_of_ne q hlane] at h
    exact .inl h

omit [DecidableEq ι] in
@[simp] theorem start_waiting (q : LaneQueue ι α) (lane : ι) :
    (q.start lane).waiting = q.waiting := by
  unfold start
  split <;> rfl

/-- Putting out bytes adds nothing to any lane. -/
theorem mem_emit_waiting {q : LaneQueue ι α} {lane other : ι} {count : Nat} {queued : List α}
    (h : queued ∈ (q.emit lane count).waiting other) : queued ∈ q.waiting other := by
  unfold emit at h
  split at h
  · exact h
  · rename_i item rest hwaiting
    split at h
    · exact h
    · by_cases hlane : other = lane
      · subst hlane
        rw [hwaiting]
        exact List.mem_cons_of_mem _ (by simpa using h)
      · simpa [Function.update_of_ne hlane] using h

omit [DecidableEq ι] in
theorem FreeFor.begun_ne {q : LaneQueue ι α} {lane other : ι} (h : q.FreeFor lane)
    (hne : other ≠ lane) : q.begun ≠ some other := by
  rcases h with hnone | hself
  · simp [hnone]
  · simp [hself, Ne.symm hne]

/-- The account of a queue balances. -/
structure Sound (q : LaneQueue ι α) : Prop where
  account : ∀ lane, onLane lane q.done ++ q.waiting lane = onLane lane q.accepted
  stream : q.emitted = bytes q.done ++ q.part
  idle : q.begun = none → q.sent = 0
  inside : ∀ lane, q.begun = some lane → q.sent < ((q.waiting lane).headD []).length
  filled : ∀ lane, ∀ item ∈ q.waiting lane, item ≠ []

theorem sound_empty : Sound (empty : LaneQueue ι α) where
  account _ := rfl
  stream := rfl
  idle _ := rfl
  inside _ h := by cases h
  filled _ _ h := by cases h

namespace Sound

variable {q : LaneQueue ι α} {lane : ι}

/-- The head of a waiting lane is not moved by what is appended behind it. -/
theorem headD_append {first : List (List α)} (hne : first ≠ []) (last : List α) :
    (first ++ [last]).headD [] = first.headD [] := by
  cases first with
  | nil => exact absurd rfl hne
  | cons head tail => rfl

/-- A begun lane has an item to put out. -/
theorem waiting_ne_nil (h : Sound q) (hbegun : q.begun = some lane) : q.waiting lane ≠ [] := by
  intro hnil
  have hinside := h.inside lane hbegun
  simp [hnil] at hinside

/-- A lane that may go on has not put out all of its head. -/
theorem sent_lt (h : Sound q) (hfree : q.FreeFor lane) {item : List α} {rest : List (List α)}
    (hwaiting : q.waiting lane = item :: rest) : q.sent < item.length := by
  rcases hfree with hnone | hbegun
  · rw [h.idle hnone]
    exact List.length_pos_iff.2 (h.filled lane item (by simp [hwaiting]))
  · simpa [hwaiting] using h.inside lane hbegun

/-- Accepting an item keeps the account. -/
theorem accept (h : Sound q) {item : List α} (hitem : item ≠ []) :
    Sound (q.accept lane item) := by
  have hhead : ∀ other, q.begun = some other →
      ((q.accept lane item).waiting other).headD [] = (q.waiting other).headD [] := by
    intro other hbegun
    by_cases hsame : other = lane
    · subst hsame
      rw [accept_waiting_self]
      exact headD_append (h.waiting_ne_nil hbegun) item
    · rw [accept_waiting_of_ne q hsame]
  constructor
  · intro other
    by_cases hsame : other = lane
    · subst hsame
      rw [accept_waiting_self, ← List.append_assoc]
      simp [LaneQueue.accept, h.account other]
    · rw [accept_waiting_of_ne q hsame]
      simp [LaneQueue.accept, onLane_singleton_of_ne (Ne.symm hsame), h.account other]
  · have hpart : (q.accept lane item).part = q.part := by
      unfold part
      cases hbegun : q.begun with
      | none => simp [LaneQueue.accept, hbegun]
      | some other =>
          have := hhead other hbegun
          simp only [LaneQueue.accept, hbegun] at this ⊢
          rw [this]
    rw [hpart]
    exact h.stream
  · exact h.idle
  · intro other hbegun
    rw [hhead other hbegun]
    exact h.inside other hbegun
  · intro other queued hqueued
    by_cases hsame : other = lane
    · subst hsame
      rw [accept_waiting_self, List.mem_append, List.mem_singleton] at hqueued
      rcases hqueued with hold | rfl
      · exact h.filled other queued hold
      · exact hitem
    · rw [accept_waiting_of_ne q hsame] at hqueued
      exact h.filled other queued hqueued

/-- Beginning an item without a byte of it keeps the account. -/
theorem start (h : Sound q) (hfree : q.FreeFor lane) : Sound (q.start lane) := by
  unfold LaneQueue.start
  cases hwaiting : q.waiting lane with
  | nil => exact h
  | cons item rest =>
      refine ⟨h.account, ?_, ?_, ?_, h.filled⟩
      · rw [h.stream]
        rcases hfree with hnone | hbegun
        · simp [part, hnone, hwaiting, h.idle hnone]
        · simp [part, hbegun, hwaiting]
      · intro hnone
        cases hnone
      · intro other hbegun
        cases hbegun
        simpa [hwaiting] using h.sent_lt hfree hwaiting

/-- The part put out so far of the item a lane goes on with. -/
theorem part_eq (h : Sound q) (hfree : q.FreeFor lane) {item : List α} {rest : List (List α)}
    (hwaiting : q.waiting lane = item :: rest) : q.part = item.take q.sent := by
  rcases hfree with hnone | hbegun
  · simp [part, hnone, h.idle hnone]
  · simp [part, hbegun, hwaiting]

/-- The output with the bytes put out now. -/
theorem stream_emit (h : Sound q) (hfree : q.FreeFor lane) {item : List α}
    {rest : List (List α)} (hwaiting : q.waiting lane = item :: rest) (count : Nat) :
    q.emitted ++ (item.drop q.sent).take count =
      bytes q.done ++ item.take (q.sent + count) := by
  rw [h.stream, h.part_eq hfree hwaiting, List.append_assoc, List.take_add]

/-- Putting out bytes of a lane no other has begun before keeps the account. -/
theorem emit (h : Sound q) (hfree : q.FreeFor lane) (count : Nat) : Sound (q.emit lane count) := by
  cases hwaiting : q.waiting lane with
  | nil =>
      rw [emit_nil hwaiting]
      exact h
  | cons item rest =>
      have hstream := h.stream_emit hfree hwaiting count
      by_cases hmore : q.sent + count < item.length
      · rw [emit_inside hwaiting hmore, hstream]
        by_cases hcount : count = 0
        · subst hcount
          refine ⟨h.account, ?_, h.idle, h.inside, h.filled⟩
          rw [← hstream, List.take_zero, List.append_nil]
          exact h.stream
        · simp only [hcount, if_false]
          refine ⟨h.account, ?_, ?_, ?_, h.filled⟩
          · simp [part, hwaiting]
          · intro hnone
            cases hnone
          · intro other hbegun
            cases hbegun
            simpa [hwaiting] using hmore
      · have hend : item.length ≤ q.sent + count := Nat.le_of_not_lt hmore
        rw [emit_complete hwaiting hend, hstream]
        refine ⟨?_, ?_, ?_, ?_, ?_⟩
        · intro other
          by_cases hsame : other = lane
          · subst hsame
            simp [← h.account other, hwaiting]
          · simp [Function.update_of_ne hsame, onLane_singleton_of_ne (Ne.symm hsame),
              h.account other]
        · simp [part, List.take_of_length_le hend]
        · intro _
          rfl
        · intro other hbegun
          cases hbegun
        · intro other queued hqueued
          by_cases hsame : other = lane
          · subst hsame
            simp only [Function.update_self] at hqueued
            exact h.filled other queued (by simp [hwaiting, hqueued])
          · simp only [Function.update_of_ne hsame] at hqueued
            exact h.filled other queued hqueued

end Sound

/-! ## The order of the output -/

omit [DecidableEq ι] in
/-- What still waits, lane after lane. -/
def backlog (q : LaneQueue ι α) (lanes : List ι) : List (ι × List α) :=
  lanes.flatMap fun lane ↦ (q.waiting lane).map fun item ↦ (lane, item)

theorem onLane_backlog (q : LaneQueue ι α) {lanes : List ι} (hnodup : lanes.Nodup) {lane : ι}
    (hmem : lane ∈ lanes) : onLane lane (q.backlog lanes) = q.waiting lane := by
  have hself : ∀ other, onLane lane ((q.waiting other).map fun item ↦ (other, item)) =
      if other = lane then q.waiting other else [] := by
    intro other
    by_cases hsame : other = lane
    · simp [onLane, hsame, List.filter_map, Function.comp_def]
    · simp [onLane, hsame, List.filter_map, Function.comp_def]
  induction lanes with
  | nil => cases hmem
  | cons head tail ih =>
      have hsplit : onLane lane (q.backlog (head :: tail)) =
          (if head = lane then q.waiting head else []) ++ onLane lane (q.backlog tail) := by
        rw [← hself head, ← onLane_append]
        rfl
      rw [hsplit]
      rw [List.nodup_cons] at hnodup
      by_cases hhead : head = lane
      · subst hhead
        have hrest : onLane head (q.backlog tail) = [] := by
          simp only [onLane, backlog, List.map_eq_nil_iff, List.filter_eq_nil_iff,
            List.mem_flatMap, List.mem_map, decide_eq_true_eq]
          rintro _ ⟨other, hother, item, -, rfl⟩ hsame
          exact hnodup.1 (hsame ▸ hother)
        simp [hrest]
      · have htail : lane ∈ tail := by
          rcases List.mem_cons.1 hmem with hsame | htail
          · exact absurd hsame.symm hhead
          · exact htail
        simp [hhead, ih hnodup.2 htail]

/-- What completed or waits was accepted. -/
theorem Sound.mem_accepted {q : LaneQueue ι α} (h : Sound q) {lane : ι} {item : List α}
    (hmem : item ∈ onLane lane q.done ∨ item ∈ q.waiting lane) : (lane, item) ∈ q.accepted := by
  have hitem : item ∈ onLane lane q.accepted := by
    rw [← h.account lane]
    exact List.mem_append.2 hmem
  obtain ⟨entry, hentry, rfl⟩ := List.mem_map.1 hitem
  obtain ⟨hin, hlane⟩ := List.mem_filter.1 hentry
  simpa [← of_decide_eq_true hlane] using hin

/-- The output is a prefix of the completed items followed by the waiting ones, the begun lane
first. -/
theorem Sound.emitted_prefix {q : LaneQueue ι α} (h : Sound q) {first : ι} {rest : List ι}
    (hfirst : q.FreeFor first) :
    q.emitted <+: bytes (q.done ++ q.backlog (first :: rest)) := by
  rw [h.stream, bytes_append]
  apply List.prefix_append_right_inj _ |>.2
  rcases hfirst with hnone | hbegun
  · simp [part, hnone]
  · have hne := h.waiting_ne_nil hbegun
    obtain ⟨item, items, hwaiting⟩ := List.exists_cons_of_ne_nil hne
    refine (List.take_prefix q.sent item).trans ?_ |> fun hprefix ↦ by
      simpa [part, hbegun, hwaiting] using hprefix
    simp [backlog, hwaiting, bytes]

end LaneQueue

end DeskhopPlus
