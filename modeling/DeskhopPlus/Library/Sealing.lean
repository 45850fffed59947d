import Mathlib.Algebra.Ring.Nat
import Mathlib.Data.List.Nodup

/-!
# Counters under keys

A party seals what it sends under the key it holds and a counter of 64 bits that starts anew with
every key. The log lists each pair of a key and a counter it used. As long as a key is new when the
party takes it up, the counters used under any key are those from zero upward in order, so no pair
is used twice unless a key is used more often than the counter has values.
-/

namespace DeskhopPlus.Sealing

variable {κ : Type*} [DecidableEq κ]

/-- The counters used under a key, oldest first. -/
def countersOf (log : List (κ × UInt64)) (key : κ) : List UInt64 :=
  (log.filter fun entry ↦ entry.1 = key).map Prod.snd

/-- The first values of a counter that starts at zero and wraps. -/
def firstCounters (count : Nat) : List UInt64 := (List.range count).map UInt64.ofNat

/-- What a party seals with, and the pairs it used so far, oldest first. -/
structure Sealer (κ : Type*) where
  key : Option κ
  next : UInt64
  log : List (κ × UInt64)

@[simp] theorem countersOf_nil (key : κ) : countersOf [] key = [] := rfl

theorem countersOf_append (log more : List (κ × UInt64)) (key : κ) :
    countersOf (log ++ more) key = countersOf log key ++ countersOf more key := by
  simp [countersOf]

theorem countersOf_singleton (key other : κ) (counter : UInt64) :
    countersOf [(other, counter)] key = if other = key then [counter] else [] := by
  by_cases h : other = key <;> simp [countersOf, h]

theorem countersOf_eq_nil_iff {log : List (κ × UInt64)} {key : κ} :
    countersOf log key = [] ↔ key ∉ log.map Prod.fst := by
  simp only [countersOf, List.map_eq_nil_iff, List.filter_eq_nil_iff, List.mem_map, not_exists,
    not_and, decide_eq_true_eq]

theorem firstCounters_succ (count : Nat) :
    firstCounters (count + 1) = firstCounters count ++ [UInt64.ofNat count] := by
  simp [firstCounters, List.range_succ]

/-- A counter does not repeat before it wraps. -/
theorem firstCounters_nodup {count : Nat} (h : count ≤ 2 ^ 64) : (firstCounters count).Nodup := by
  refine List.Nodup.map_on ?_ List.nodup_range
  intro i hi j hj heq
  have hi := List.mem_range.1 hi
  have hj := List.mem_range.1 hj
  have hnat := congrArg UInt64.toNat heq
  rwa [UInt64.toNat_ofNat', UInt64.toNat_ofNat', Nat.mod_eq_of_lt (by omega),
    Nat.mod_eq_of_lt (by omega)] at hnat

/-- A pair stands in the log as often as its counter among those of its key. -/
theorem count_countersOf (log : List (κ × UInt64)) (key : κ) (counter : UInt64) :
    (countersOf log key).count counter = log.count (key, counter) := by
  induction log with
  | nil => rfl
  | cons entry rest ih =>
      obtain ⟨other, value⟩ := entry
      by_cases hkey : other = key
      · subst hkey
        by_cases hvalue : value = counter
        · subst hvalue
          simpa [countersOf] using ih
        · simpa [countersOf, hvalue] using ih
      · simpa [countersOf, hkey] using ih

namespace Sealer

/-- The counters of every key are the first ones, and the party goes on where they end. -/
structure Counted (s : Sealer κ) : Prop where
  first : ∀ key, countersOf s.log key = firstCounters (countersOf s.log key).length
  next : ∀ key ∈ s.key, s.next = UInt64.ofNat (countersOf s.log key).length

theorem counted_empty (next : UInt64) :
    Counted ({ key := none, next := next, log := [] } : Sealer κ)
    where
  first _ := rfl
  next := nofun

variable {s : Sealer κ}

/-- What is sealed next extends the counters of its key by one. -/
theorem Counted.extend (h : Counted s) {key : κ} {counter : UInt64}
    (hcounter : counter = UInt64.ofNat (countersOf s.log key).length) (other : κ) :
    countersOf (s.log ++ [(key, counter)]) other =
      firstCounters (countersOf (s.log ++ [(key, counter)]) other).length := by
  rw [countersOf_append, countersOf_singleton]
  by_cases hkey : key = other
  · subst hkey
    rw [if_pos rfl, List.length_append, List.length_singleton, firstCounters_succ, ← h.first key,
      hcounter]
  · rw [if_neg hkey, List.append_nil]
    exact h.first other

/-- A seal under the key in use. -/
theorem Counted.seal (h : Counted s) {key : κ} (hkey : s.key = some key) :
    Counted { s with next := s.next + 1, log := s.log ++ [(key, s.next)] } where
  first := h.extend (h.next key hkey)
  next other hother := by
    obtain rfl : key = other := Option.some.inj (hkey.symm.trans hother)
    show s.next + 1 = _
    rw [h.next key hkey, countersOf_append, countersOf_singleton, if_pos rfl, List.length_append,
      List.length_singleton]
    apply UInt64.toNat.inj
    simp

/-- A key that was not used before is taken up. -/
theorem Counted.rekey (h : Counted s) {key : κ} (hnew : key ∉ s.log.map Prod.fst) :
    Counted { s with key := some key, next := 0 } where
  first := h.first
  next other hother := by
    obtain rfl : key = other := Option.some.inj hother
    show (0 : UInt64) = _
    rw [countersOf_eq_nil_iff.2 hnew]
    rfl

/-- The key is given up. -/
theorem Counted.forget (h : Counted s) (next : UInt64) :
    Counted { s with key := none, next := next } where
  first := h.first
  next := nofun

/-- One seal under a key of its own. -/
theorem Counted.once (h : Counted s) {key : κ} (hnew : key ∉ s.log.map Prod.fst)
    (hother : s.key ≠ some key) : Counted { s with log := s.log ++ [(key, 0)] } where
  first := h.extend (by rw [countersOf_eq_nil_iff.2 hnew]; rfl)
  next used hused := by
    have hne : key ≠ used := by
      rintro rfl
      exact hother hused
    show s.next = _
    rw [countersOf_append, countersOf_singleton, if_neg hne, List.append_nil]
    exact h.next used hused

/-- No pair is used twice, unless some key is used more often than the counter has values. -/
theorem Counted.nodup (h : Counted s)
    (hcount : ∀ key, (countersOf s.log key).length ≤ 2 ^ 64) : s.log.Nodup := by
  rw [List.nodup_iff_count_le_one]
  rintro ⟨key, counter⟩
  rw [← count_countersOf, h.first key]
  exact List.nodup_iff_count_le_one.1 (firstCounters_nodup (hcount key)) counter

end Sealer

end DeskhopPlus.Sealing
