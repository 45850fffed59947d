import DeskhopPlus.Library.Clock
import DeskhopPlus.Library.Runs
import Mathlib.Algebra.Ring.Nat
import Mathlib.Data.List.Basic

/-!
# Sleep sync

The record a board keeps of its computer's sleep and of what it heard about the other computer's.
One core asks it on every pass and one on every input. Whether a sleep is told to the peer is
decided by two flags, `sent` and `woken`. A sleep starts `sent` over, but only an input that finds
the computer awake starts `woken` over: `sleeps_told` says exactly which sleeps are told, and
`untold_sleep` is one that is not.
-/

namespace DeskhopPlus.Sleep

open Clock Runs

/-- `DH_SLEEP_SYNC_WAIT_US`. -/
def waitUs : UInt64 := 5000000

/-- `DH_SLEEP_SYNC_IMMEDIATELY`. -/
def immediately : UInt8 := 255

/-- `dh_sleep_sync_t`. -/
structure Sync where
  asleep : Bool
  sent : Bool
  asleepSinceUs : UInt64
  woken : Bool
  helperAsleep : Bool
  tellsAsleep : Bool
  otherAsleep : Bool
  idlePressed : Bool
  idleSinceUs : UInt64
  otherLive : Bool
  otherWatched : Bool
  otherAwakeSinceUs : UInt64
  deriving DecidableEq, Repr

/-- The zeroed record: awake, nothing sent. -/
def Sync.init : Sync where
  asleep := false
  sent := false
  asleepSinceUs := 0
  woken := false
  helperAsleep := false
  tellsAsleep := false
  otherAsleep := false
  idlePressed := false
  idleSinceUs := 0
  otherLive := false
  otherWatched := false
  otherAwakeSinceUs := 0

namespace Sync

variable (s : Sync)

/-- `dh_sleep_sync_helper_says`. -/
def helperSays (asleep : Bool) : Sync := { s with helperAsleep := asleep }

/-- `dh_sleep_sync_asleep`. -/
def countsAsleep (suspended : Bool) : Bool := suspended || s.helperAsleep

/-- `dh_sleep_sync_step`. -/
def step (on active suspended : Bool) (nowUs : UInt64) : Sync × Bool :=
  if s.countsAsleep suspended = false then ({ s with asleep := false }, false)
  else
    let s :=
      if s.asleep then s else { s with asleep := true, sent := false, asleepSinceUs := nowUs }
    let s := if active = false ∨ s.woken then { s with sent := true } else s
    if s.sent ∨ on = false ∨ (nowUs - s.asleepSinceUs).toInt64 < waitUs.toInt64 then (s, false)
    else ({ s with sent := true }, true)

/-- `dh_sleep_sync_tell`. -/
def tell (on active : Bool) (nowUs : UInt64) : Sync :=
  if on = false ∨ s.asleep = false then { s with tellsAsleep := false }
  else if active = false ∧ waitUs.toInt64 ≤ (nowUs - s.asleepSinceUs).toInt64 then
    { s with tellsAsleep := true }
  else s

/-- `dh_sleep_sync_heard`. -/
def heard (asleep : Bool) : Sync × Bool :=
  ({ s with otherAsleep := asleep, otherLive := true }, s.otherAsleep ≠ asleep)

/-- `dh_sleep_sync_lost`. -/
def lost : Sync := { s with otherLive := false }

/-- `dh_sleep_sync_other_asleep`. -/
def countsOtherAsleep (on active : Bool) : Bool := on && active && s.otherAsleep

/-- The first half of `dh_sleep_sync_idle`: whether the other computer was watched awake and now
fell asleep. -/
def watch (on active : Bool) (nowUs : UInt64) : Sync × Bool :=
  let other := s.countsOtherAsleep on active
  if on = false ∨ active = false ∨ s.otherLive = false then
    ({ s with otherWatched := false }, false)
  else if other = false ∧ s.otherWatched = false then
    ({ s with otherWatched := true, otherAwakeSinceUs := nowUs }, false)
  else if other ∧ s.otherWatched then
    ({ s with otherWatched := false },
      decide (waitUs.toInt64 ≤ (nowUs - s.otherAwakeSinceUs).toInt64))
  else (s, false)

/-- `dh_sleep_sync_idle`. -/
def idle (on : Bool) (minutes : UInt8) (active asleep : Bool)
    (lastInputUs lastSwitchUs nowUs : UInt64) : Sync × Bool :=
  let other := s.countsOtherAsleep on active
  let (s, fellAsleep) := s.watch on active nowUs
  if minutes = immediately then (s, fellAsleep && !asleep)
  else
    let idleSinceUs :=
      if 0 < (lastInputUs - lastSwitchUs).toInt64 then lastInputUs else lastSwitchUs
    if s.idlePressed ∧ s.idleSinceUs = idleSinceUs then (s, false)
    else if minutes = 0 ∨ asleep ∨ other = false ∨
        (nowUs - idleSinceUs).toInt64 < minutes.toUInt64.toInt64 * 60000000 then (s, false)
    else ({ s with idlePressed := true, idleSinceUs := idleSinceUs }, true)

/-- `dh_sleep_sync_wake`. -/
def wake (on active suspended : Bool) : Sync × Bool :=
  let asleep := s.countsAsleep suspended
  let s := { s with helperAsleep := false }
  if asleep = false then ({ s with woken := false }, false)
  else if s.woken ∨ on = false ∨ active = false then (s, false)
  else ({ s with woken := true }, true)

end Sync

/-- What a pass of `sleep_sync_task` reads: the setting, whether this board is the active output,
whether its computer is suspended, and the times. -/
structure Pass where
  on : Bool
  active : Bool
  suspended : Bool
  minutes : UInt8
  lastInputUs : UInt64
  lastSwitchUs : UInt64
  nowUs : UInt64

/-- What happens to the record. -/
inductive SyncEvent where
  | pass (pass : Pass)
  | input (on active suspended : Bool)
  | helper (asleep : Bool)
  | heartbeat (asleep : Bool)
  | silent

/-- The event is a pass. -/
def SyncEvent.isPass : SyncEvent → Bool
  | .pass _ => true
  | _ => false

/-- The event is an input. -/
def SyncEvent.isInput : SyncEvent → Bool
  | .input .. => true
  | _ => false

namespace Sync

/-- One event: a pass of `sleep_sync_task`, an input in `wake_on_input`, a word of the helper, a
heartbeat of the peer or its silence. -/
def next (s : Sync) : SyncEvent → Sync
  | .pass p =>
      let s := (s.step p.on p.active p.suspended p.nowUs).1
      let s := s.tell p.on p.active p.nowUs
      (s.idle p.on p.minutes p.active (s.countsAsleep p.suspended) p.lastInputUs p.lastSwitchUs
        p.nowUs).1
  | .input on active suspended => (s.wake on active suspended).1
  | .helper asleep => s.helperSays asleep
  | .heartbeat asleep => (s.heard asleep).1
  | .silent => (s.heard false).1.lost

/-- How often the passes of a run tell the peer to sleep. -/
def told : Sync → List SyncEvent → Nat
  | _, [] => 0
  | s, .pass p :: rest =>
      (s.step p.on p.active p.suspended p.nowUs).2.toNat + told (s.next (.pass p)) rest
  | s, event :: rest => told (s.next event) rest

/-- What the inputs of a run answer: whether each tells the peer to wake. -/
def wakes : Sync → List SyncEvent → List Bool
  | _, [] => []
  | s, .input on active suspended :: rest =>
      (s.wake on active suspended).2 :: wakes (s.next (.input on active suspended)) rest
  | s, event :: rest => wakes (s.next event) rest

/-- Whoever looks at the computer finds it asleep, on the active output with the setting on. -/
def Attended (s : Sync) : SyncEvent → Prop
  | .pass p => p.on = true ∧ p.active = true ∧ s.countsAsleep p.suspended = true
  | .input on active suspended => on = true ∧ active = true ∧ s.countsAsleep suspended = true
  | _ => True

/-! ## One event -/

/-- What the telling of a sleep depends on. -/
def core (s : Sync) : Bool × Bool × UInt64 × Bool × Bool :=
  (s.asleep, s.sent, s.asleepSinceUs, s.woken, s.helperAsleep)

variable {s : Sync} {p : Pass} {event : SyncEvent} {rest : List SyncEvent}

theorem core_tell (on active : Bool) (nowUs : UInt64) : (s.tell on active nowUs).core = s.core := by
  unfold tell
  split
  · rfl
  · split <;> rfl

theorem core_watch (on active : Bool) (nowUs : UInt64) :
    (s.watch on active nowUs).1.core = s.core := by
  unfold watch
  simp only
  split
  · rfl
  · split
    · rfl
    · split <;> rfl

theorem core_idle (on : Bool) (minutes : UInt8) (active asleep : Bool)
    (lastInputUs lastSwitchUs nowUs : UInt64) :
    (s.idle on minutes active asleep lastInputUs lastSwitchUs nowUs).1.core = s.core := by
  have hwatch := core_watch (s := s) on active nowUs
  unfold idle
  simp only
  split_ifs <;> exact hwatch

/-- Only the step of a pass matters. -/
theorem core_pass (s : Sync) (p : Pass) :
    (s.next (.pass p)).core = (s.step p.on p.active p.suspended p.nowUs).1.core := by
  unfold next
  simp only
  rw [core_idle, core_tell]

/-- A pass keeps the mark of a wake. -/
theorem woken_pass (s : Sync) (p : Pass) : (s.next (.pass p)).woken = s.woken := by
  have hcore := congrArg (fun core ↦ core.2.2.2.1) (core_pass s p)
  refine Eq.trans hcore ?_
  show (s.step p.on p.active p.suspended p.nowUs).1.woken = s.woken
  unfold step
  split
  · rfl
  · extract_lets first second
    have hfirst : first.woken = s.woken := by
      simp only [first]
      split <;> rfl
    have hsecond : second.woken = s.woken := by
      refine Eq.trans ?_ hfirst
      simp only [second]
      split <;> rfl
    split <;> exact hsecond

/-- A sleep that was sent, or that has nothing to send, stays so. -/
theorem step_done {on active suspended : Bool} {nowUs : UInt64}
    (hasleep : s.countsAsleep suspended = true) (hsleeping : s.asleep = true)
    (hsent : s.sent = true) : s.step on active suspended nowUs = (s, false) := by
  unfold step
  rw [if_neg (by simp [hasleep]), if_pos hsleeping]
  have hsame : (if active = false ∨ s.woken = true then { s with sent := true } else s) = s := by
    split
    · rw [← hsent]
    · rfl
  simp only [hsame, hsent, true_or, if_true]

/-- A pass in a sleep of the active output that is not yet over or told. -/
theorem step_waiting {suspended : Bool} {nowUs : UInt64}
    (hasleep : s.countsAsleep suspended = true) (hsleeping : s.asleep = true)
    (hsent : s.sent = false) (hwoken : s.woken = false) :
    s.step true true suspended nowUs =
      if (nowUs - s.asleepSinceUs).toInt64 < waitUs.toInt64 then (s, false)
      else ({ s with sent := true }, true) := by
  unfold step
  rw [if_neg (by simp [hasleep]), if_pos hsleeping]
  simp only [hwoken, hsent, Bool.false_eq_true, Bool.true_eq_false, or_self, false_or, if_false]

/-- The first pass of a sleep of the active output. -/
theorem step_begins {suspended : Bool} {nowUs : UInt64}
    (hasleep : s.countsAsleep suspended = true) (hawake : s.asleep = false) :
    s.step true true suspended nowUs =
      ({ s with asleep := true, sent := s.woken, asleepSinceUs := nowUs }, false) := by
  have hshort : (nowUs - nowUs).toInt64 < waitUs.toInt64 := by
    rw [UInt64.sub_self]
    decide
  have hguard : ¬ s.countsAsleep suspended = false := by simp [hasleep]
  unfold step
  rw [if_neg hguard]
  extract_lets first second
  have hfirst : first = { s with asleep := true, sent := false, asleepSinceUs := nowUs } :=
    if_neg (by simp [hawake])
  have hsecond : second = { s with asleep := true, sent := s.woken, asleepSinceUs := nowUs } := by
    simp only [second, hfirst]
    cases hwoken : s.woken with
    | true => exact if_pos (.inr rfl)
    | false => exact if_neg (by simp)
  rw [hsecond]
  exact if_pos (.inr (.inr hshort))

/-- Of the events only a pass moves the sleep. -/
theorem sleep_kept (hpass : event.isPass = false) :
    (s.next event).asleep = s.asleep ∧ (s.next event).sent = s.sent ∧
      (s.next event).asleepSinceUs = s.asleepSinceUs := by
  cases event with
  | pass => cases hpass
  | input =>
      simp only [next, wake]
      split
      · exact ⟨rfl, rfl, rfl⟩
      · split <;> exact ⟨rfl, rfl, rfl⟩
  | helper | heartbeat | silent => exact ⟨rfl, rfl, rfl⟩

/-- Of the events only an input moves the mark of a wake. -/
theorem woken_kept (hinput : event.isInput = false) :
    (s.next event).woken = s.woken := by
  cases event with
  | pass p => exact woken_pass s p
  | input => cases hinput
  | helper | heartbeat | silent => rfl

theorem told_cons (hpass : event.isPass = false) :
    s.told (event :: rest) = (s.next event).told rest := by
  cases event with
  | pass => cases hpass
  | input | helper | heartbeat | silent => rfl

theorem wakes_cons (hinput : event.isInput = false) :
    s.wakes (event :: rest) = (s.next event).wakes rest := by
  cases event with
  | input => cases hinput
  | pass | helper | heartbeat | silent => rfl

/-! ## A sleep -/

/-- A sleep that was sent, or that has nothing to send, sends nothing more. -/
theorem told_done {events : List SyncEvent} (hsleeping : s.asleep = true) (hsent : s.sent = true)
    (h : Along next Attended s events) : s.told events = 0 := by
  induction events generalizing s with
  | nil => rfl
  | cons event rest ih =>
      have hother : event.isPass = false → s.told (event :: rest) = 0 := by
        intro hpass
        obtain ⟨hasleep, hsame, -⟩ := sleep_kept (s := s) hpass
        rw [told_cons hpass]
        exact ih (hasleep.trans hsleeping) (hsame.trans hsent) h.2
      cases event with
      | pass p =>
          obtain ⟨-, -, hasleep⟩ := h.1
          have hstep := @step_done s p.on p.active p.suspended p.nowUs hasleep
            hsleeping hsent
          have hcore := core_pass s p
          rw [hstep] at hcore
          have hrest := ih ((congrArg Prod.fst hcore).trans hsleeping)
            ((congrArg (fun core ↦ core.2.1) hcore).trans hsent) h.2
          show (s.step _ _ _ _).2.toNat + _ = 0
          rw [hstep, hrest]
          rfl
      | input | helper | heartbeat | silent => exact hother rfl

/-- A sleep with no input that is not told yet is told once if it lasts. -/
theorem told_waiting {events : List SyncEvent} {start : Nat} (hsleeping : s.asleep = true)
    (hsent : s.sent = false) (hwoken : s.woken = false)
    (hsince : s.asleepSinceUs = wideReading start) (h : Along next Attended s events)
    (hquiet : ∀ event ∈ events, event.isInput = false)
    (hlasts : ∃ p time, .pass p ∈ events ∧ p.nowUs = wideReading time ∧
      start + waitUs.toNat ≤ time ∧ time < start + 2 ^ 63) : s.told events = 1 := by
  induction events generalizing s with
  | nil =>
      obtain ⟨p, -, hmem, -⟩ := hlasts
      cases hmem
  | cons event rest ih =>
      have hquiet' : ∀ event ∈ rest, event.isInput = false :=
        fun event hmem ↦ hquiet event (List.mem_cons_of_mem _ hmem)
      have hother : event.isPass = false → event.isInput = false → s.told (event :: rest) = 1 := by
        intro hpass hinput
        obtain ⟨hasleep, hsame, hstart⟩ := sleep_kept (s := s) hpass
        rw [told_cons hpass]
        refine ih (hasleep.trans hsleeping) (hsame.trans hsent)
          ((woken_kept hinput).trans hwoken) (hstart.trans hsince) h.2 hquiet' ?_
        obtain ⟨long, time, hmem, hfields⟩ := hlasts
        rcases List.mem_cons.1 hmem with hhere | hlater
        · rw [← hhere] at hpass
          cases hpass
        · exact ⟨long, time, hlater, hfields⟩
      cases event with
      | pass p =>
          obtain ⟨hon, hactive, hasleep⟩ := h.1
          have hcore := core_pass s p
          have hstep := @step_waiting s p.suspended p.nowUs hasleep hsleeping hsent hwoken
          show (s.step p.on p.active p.suspended p.nowUs).2.toNat + _ = 1
          rw [hon, hactive] at hcore ⊢
          by_cases hshort : (p.nowUs - s.asleepSinceUs).toInt64 < waitUs.toInt64
          · rw [if_pos hshort] at hstep
            rw [hstep] at hcore ⊢
            -- the wait is not over, so the long pass is still to come
            have hrest : ∃ p time, .pass p ∈ rest ∧ p.nowUs = wideReading time ∧
                start + waitUs.toNat ≤ time ∧ time < start + 2 ^ 63 := by
              obtain ⟨long, time, hmem, hnow, hfrom, hto⟩ := hlasts
              rcases List.mem_cons.1 hmem with hhere | hlater
              · cases hhere
                rw [hnow, hsince, elapsed_lt_span_wide (by decide) hto (by omega)] at hshort
                omega
              · exact ⟨long, time, hlater, hnow, hfrom, hto⟩
            have htold := ih ((congrArg Prod.fst hcore).trans hsleeping)
              ((congrArg (fun core ↦ core.2.1) hcore).trans hsent)
              ((congrArg (fun core ↦ core.2.2.2.1) hcore).trans hwoken)
              ((congrArg (fun core ↦ core.2.2.1) hcore).trans hsince) h.2 hquiet' hrest
            show 0 + _ = 1
            rw [htold]
          · rw [if_neg hshort] at hstep
            rw [hstep] at hcore ⊢
            -- the wait is over: this pass sends, and no later one does
            have hdone := told_done ((congrArg Prod.fst hcore).trans hsleeping)
              (congrArg (fun core ↦ core.2.1) hcore) h.2
            show 1 + _ = 1
            rw [hdone]
      | input => cases hquiet _ List.mem_cons_self
      | helper | heartbeat | silent => exact hother rfl rfl

/-- Inputs in a sleep that a wake is marked for send none. -/
theorem wakes_marked {events : List SyncEvent} (hwoken : s.woken = true)
    (h : Along next Attended s events) : ∃ count, s.wakes events = List.replicate count false := by
  induction events generalizing s with
  | nil => exact ⟨0, rfl⟩
  | cons event rest ih =>
      cases event with
      | input on active suspended =>
          obtain ⟨-, -, hasleep⟩ := h.1
          have hwake : s.wake on active suspended = ({ s with helperAsleep := false }, false) := by
            unfold wake
            simp only [hasleep, hwoken, Bool.true_eq_false, if_false, true_or, if_true]
          have hnext : (s.next (.input on active suspended)).woken = true := by
            show (s.wake on active suspended).1.woken = true
            rw [hwake]
            exact hwoken
          obtain ⟨count, hcount⟩ := ih hnext h.2
          refine ⟨count + 1, ?_⟩
          show (s.wake on active suspended).2 :: _ = _
          rw [hwake, hcount]
          rfl
      | pass | helper | heartbeat | silent =>
          rw [wakes_cons rfl]
          exact ih ((woken_kept rfl).trans hwoken) h.2

/-- The first input in a sleep that no wake is marked for sends one, and the others none. -/
theorem wakes_unmarked {events : List SyncEvent} (hwoken : s.woken = false)
    (h : Along next Attended s events) (hinput : s.wakes events ≠ []) :
    ∃ count, s.wakes events = true :: List.replicate count false := by
  induction events generalizing s with
  | nil => exact absurd rfl hinput
  | cons event rest ih =>
      cases event with
      | input on active suspended =>
          obtain ⟨hon, hactive, hasleep⟩ := h.1
          have hwake : s.wake on active suspended =
              ({ s with helperAsleep := false, woken := true }, true) := by
            unfold wake
            simp only [hasleep, hwoken, hon, hactive, Bool.true_eq_false, Bool.false_eq_true,
              if_false, or_self]
          have hnext : (s.next (.input on active suspended)).woken = true := by
            show (s.wake on active suspended).1.woken = true
            rw [hwake]
          obtain ⟨count, hcount⟩ := wakes_marked hnext h.2
          refine ⟨count, ?_⟩
          show (s.wake on active suspended).2 :: _ = _
          rw [hwake, hcount]
      | pass | helper | heartbeat | silent =>
          rw [wakes_cons rfl] at hinput ⊢
          exact ih ((woken_kept rfl).trans hwoken) h.2 hinput

/-- A sleep: the passes before it found the computer awake, its first pass finds it asleep, and so
does whoever looks until its end. -/
structure Sleeps (s : Sync) (start : Nat) (sleep : List SyncEvent) : Prop where
  awake : s.asleep = false
  begins : ∃ p rest, sleep = .pass p :: rest ∧ p.nowUs = wideReading start
  attended : Along next Attended s sleep

/-- Some pass comes when the sleep has lasted the wait. -/
def Lasts (start : Nat) (sleep : List SyncEvent) : Prop :=
  ∃ p time, .pass p ∈ sleep ∧ p.nowUs = wideReading time ∧ start + waitUs.toNat ≤ time ∧
    time < start + 2 ^ 63

theorem told_sleep {start : Nat} {sleep : List SyncEvent} (h : s.Sleeps start sleep)
    (hquiet : ∀ event ∈ sleep, event.isInput = false) (hlasts : Lasts start sleep) :
    s.told sleep = (!s.woken).toNat := by
  obtain ⟨p, rest, rfl, hstart⟩ := h.begins
  obtain ⟨⟨hon, hactive, hasleep⟩, hrest⟩ := h.attended
  have hcore := core_pass s p
  have hstep := @step_begins s p.suspended p.nowUs hasleep h.awake
  show (s.step p.on p.active p.suspended p.nowUs).2.toNat + _ = _
  rw [hon, hactive] at hcore ⊢
  rw [hstep] at hcore ⊢
  have hsleeping : (s.next (.pass p)).asleep = true := congrArg Prod.fst hcore
  have hsent : (s.next (.pass p)).sent = s.woken := congrArg (fun core ↦ core.2.1) hcore
  have hsince : (s.next (.pass p)).asleepSinceUs = wideReading start :=
    (congrArg (fun core ↦ core.2.2.1) hcore).trans hstart
  show 0 + _ = _
  rw [Nat.zero_add]
  cases hwoken : s.woken with
  | true => exact told_done hsleeping (hsent.trans hwoken) hrest
  | false =>
      refine told_waiting hsleeping (hsent.trans hwoken)
        ((woken_pass s p).trans hwoken) hsince hrest
        (fun event hmem ↦ hquiet event (List.mem_cons_of_mem _ hmem)) ?_
      obtain ⟨long, time, hmem, hnow, hfrom, hto⟩ := hlasts
      rcases List.mem_cons.1 hmem with hhere | hlater
      · cases hhere
        -- the first pass comes at the start, so it is not the one that comes late
        have hzero := (elapsed_lt_span_wide (by decide) hto (by omega)).not.2
          (by omega : ¬ time < start + waitUs.toNat)
        rw [← hnow, hstart, UInt64.sub_self] at hzero
        exact absurd (by decide) hzero
      · exact ⟨long, time, hlater, hnow, hfrom, hto⟩

/-- Which sleeps are told. In every run, a sleep on the active output with the setting on, in which
no input comes and which lasts, is told once, and the first input in a sleep is the one that wakes
the peer, exactly when no wake is still marked from before the sleep. -/
theorem sleeps_told (before : List SyncEvent) {start : Nat} {sleep : List SyncEvent}
    (h : (run next Sync.init before).Sleeps start sleep) :
    ((∀ event ∈ sleep, event.isInput = false) → Lasts start sleep →
      ((run next Sync.init before).told sleep = 1 ↔
        (run next Sync.init before).woken = false)) ∧
    ((run next Sync.init before).wakes sleep ≠ [] →
      ((∃ count, (run next Sync.init before).wakes sleep = true :: List.replicate count false) ↔
        (run next Sync.init before).woken = false)) := by
  constructor
  · intro hquiet hlasts
    rw [told_sleep h hquiet hlasts]
    cases (run next Sync.init before).woken <;> simp
  · intro hinput
    constructor
    · rintro ⟨count, hfirst⟩
      by_contra hwoken
      obtain ⟨other, hnone⟩ := wakes_marked (by simpa using hwoken) h.attended
      rw [hnone] at hfirst
      cases other <;> cases hfirst
    · intro hwoken
      exact wakes_unmarked hwoken h.attended hinput

/-- A pass of the active output with the setting on. -/
def passAt (suspended : Bool) (time : Nat) : SyncEvent :=
  .pass
    { on := true, active := true, suspended := suspended, minutes := 0, lastInputUs := 0,
      lastSwitchUs := 0, nowUs := wideReading time }

/-- Six seconds of sleep from the second second on. -/
def sixSeconds : List SyncEvent := [passAt true 2000000, passAt true 8000000]

theorem sixSeconds_sleeps {s : Sync} (hawake : s.asleep = false) : s.Sleeps 2000000 sixSeconds :=
  ⟨hawake, ⟨_, _, rfl, rfl⟩, ⟨rfl, rfl, rfl⟩, ⟨rfl, rfl, rfl⟩, trivial⟩

theorem sixSeconds_lasts : Lasts 2000000 sixSeconds :=
  ⟨_, 8000000, List.mem_cons_of_mem _ List.mem_cons_self, rfl, by decide, by decide⟩

/-- A sleep that an input ended, and the pass that finds the computer awake after it. -/
def wokenOnce : List SyncEvent := [passAt true 0, .input true true true, passAt false 1000000]

/-- An input that finds the computer awake starts the mark over, and the next sleep is told. -/
theorem sleeps_told_settled :
    (run next Sync.init (wokenOnce ++ [.input true true false])).told sixSeconds = 1 := by
  have hawake : (run next Sync.init (wokenOnce ++ [.input true true false])).asleep = false := by
    decide
  have hquiet : ∀ event ∈ sixSeconds, event.isInput = false := by decide
  refine ((sleeps_told _ (sixSeconds_sleeps hawake)).1 hquiet sixSeconds_lasts).2 ?_
  decide

/-- No input comes between a sleep that an input ended and the next. The next is not told, and an
input in it wakes no peer. -/
theorem untold_sleep :
    ((run next Sync.init wokenOnce).Sleeps 2000000 sixSeconds ∧
      (∀ event ∈ sixSeconds, event.isInput = false) ∧ Lasts 2000000 sixSeconds ∧
      (run next Sync.init wokenOnce).told sixSeconds = 0) ∧
    (run next Sync.init wokenOnce).Sleeps 2000000 [passAt true 2000000, .input true true true] ∧
      (run next Sync.init wokenOnce).wakes [passAt true 2000000, .input true true true] = [false] :=
  ⟨⟨sixSeconds_sleeps rfl, by decide, sixSeconds_lasts, by decide⟩,
    ⟨rfl, ⟨_, _, rfl, rfl⟩, ⟨rfl, rfl, rfl⟩, ⟨rfl, rfl, rfl⟩, trivial⟩, by decide⟩

end Sync

end DeskhopPlus.Sleep
