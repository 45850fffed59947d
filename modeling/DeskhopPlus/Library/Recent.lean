import Mathlib.Data.List.Basic

/-!
# The last few of a history

A program that asks how often something happened keeps the times of the last few in a small buffer,
oldest first, and forgets the oldest to take one more. `kept` is what such a buffer holds of a whole
history, and `push_kept` says that pushing to the buffer is adding to the history: the newest entry
is at its end, and the oldest, once it is full, is the one so many entries back.
-/

namespace DeskhopPlus.Recent

variable {α β : Type*} {cap : Nat}

/-- The newest `cap` entries of a history, oldest first. The history is newest first. -/
def kept (cap : Nat) (history : List α) : List α := (history.take cap).reverse

/-- One more entry, for the oldest if the buffer is full. -/
def push (buffer : List α) (cap : Nat) (entry : α) : List α :=
  (if buffer.length = cap then buffer.tail else buffer) ++ [entry]

@[simp] theorem kept_nil : kept cap ([] : List α) = [] := by simp [kept]

@[simp] theorem length_kept (history : List α) :
    (kept cap history).length = min cap history.length := by
  simp [kept]

theorem map_kept (f : α → β) (history : List α) :
    (kept cap history).map f = kept cap (history.map f) := by
  simp [kept, List.map_take]

/-- A push to the buffer adds to the history. -/
theorem push_kept (hcap : 0 < cap) (history : List α) (entry : α) :
    push (kept cap history) cap entry = kept cap (entry :: history) := by
  obtain ⟨room, rfl⟩ := Nat.exists_eq_add_of_lt hcap
  simp only [Nat.zero_add]
  have hrest : (if (kept (room + 1) history).length = room + 1 then (kept (room + 1) history).tail
      else kept (room + 1) history) = (history.take room).reverse := by
    rw [length_kept]
    split
    · rename_i hfull
      have hlt : room < history.length := by omega
      rw [kept, List.take_succ_eq_append_getElem hlt, List.reverse_append]
      rfl
    · rename_i hroom
      rw [kept, List.take_of_length_le (by omega), List.take_of_length_le (by omega)]
  rw [push, hrest, kept, List.take_succ_cons, List.reverse_cons]

/-- The newest entry is the last of the buffer. -/
theorem getLast?_kept (hcap : 0 < cap) (history : List α) :
    (kept cap history).getLast? = history.head? := by
  obtain ⟨room, rfl⟩ := Nat.exists_eq_add_of_lt hcap
  cases history with
  | nil => simp
  | cons entry rest => simp [kept]

/-- The oldest entry of a full buffer. -/
theorem head?_kept (hcap : 0 < cap) {history : List α} (hfull : cap ≤ history.length) :
    (kept cap history).head? = history[cap - 1]? := by
  rw [kept, List.head?_reverse, List.getLast?_eq_getElem?, List.length_take, Nat.min_eq_left hfull,
    List.getElem?_take_of_lt (by omega)]

end DeskhopPlus.Recent
