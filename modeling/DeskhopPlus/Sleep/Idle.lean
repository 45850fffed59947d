import DeskhopPlus.Sleep.Sync

/-!
# Sleep when idle

Each pass of `sleep_sync_task` asks `dh_sleep_sync_idle` whether to press System Sleep on this
board's own computer. The rule and what it reads are written by two cores: the clock may be read
well before the stamps it is compared with, and the active output may change before the switch is
stamped. `idle_sleeps_rightly` is about every order of them.
-/

namespace DeskhopPlus.Sleep

open Clock Runs

/-- What a pass of the rule finds, and whether it presses. -/
structure Found where
  time : Nat
  on : Bool
  minutes : UInt8
  active : Bool
  /-- What the peer says of its computer; nothing when it is silent. -/
  word : Option Bool
  asleep : Bool
  /-- The later of the last input and the last switch. -/
  stretch : Nat
  pressed : Bool

namespace Found

/-- The setting is on, this board active, the peer live and its computer awake. -/
def SeesAwake (found : Found) : Prop :=
  found.on = true ∧ found.active = true ∧ found.word = some false

/-- The setting is on, this board active, the peer live and its computer asleep. -/
def SeesAsleep (found : Found) : Prop :=
  found.on = true ∧ found.active = true ∧ found.word = some true

/-- The pass presses under a time in minutes. -/
def PressedIdle (found : Found) : Prop := found.pressed = true ∧ found.minutes ≠ immediately

/-- The passes from the last back to one of an earlier time all see the other computer awake. -/
def AwakeSince (before : List Found) (time : Nat) : Prop :=
  ∃ earlier first rest, before = earlier ++ first :: rest ∧ first.time = time ∧
    ∀ found ∈ first :: rest, found.SeesAwake

/-- A press under Immediately. The pass finds the other computer asleep that the one before it
found awake, so that no change is pressed for twice. -/
structure AtOnce (before : List Found) (found : Found) : Prop where
  awake : found.asleep = false
  asleepNow : found.SeesAsleep
  awakeBefore : ∃ earlier last, before = earlier ++ [last] ∧ last.SeesAwake
  watched : ∃ time, AwakeSince before time ∧ time + waitUs.toNat ≤ found.time

/-- A press under a time in minutes. -/
structure InTime (before : List Found) (found : Found) : Prop where
  awake : found.asleep = false
  asleepNow : found.SeesAsleep
  some : found.minutes ≠ 0
  old : found.stretch + found.minutes.toNat * 60000000 ≤ found.time
  once : ∀ earlier ∈ before, earlier.PressedIdle → earlier.stretch < found.stretch

/-- A pass comes no earlier than those before it, and presses only as the setting says. -/
structure Rightly (before : List Found) (found : Found) : Prop where
  order : ∀ earlier ∈ before, earlier.time ≤ found.time
  atOnce : found.pressed = true → found.minutes = immediately → AtOnce before found
  inTime : found.PressedIdle → InTime before found

end Found

/-- A board with what its passes read, and the passes so far. -/
structure Station where
  sync : Sync
  on : Bool
  minutes : UInt8
  active : Bool
  suspended : Bool
  word : Option Bool
  lastInput : Nat
  lastSwitch : Nat
  clock : Nat
  now : Nat
  log : List Found

/-- What happens on a board. A pass first reads the clock. -/
inductive StationEvent where
  | tick (us : Nat)
  | readClock
  | pass
  | input
  | stampInput
  | stampSwitch
  | output (active : Bool)
  | setting (on : Bool) (minutes : UInt8)
  | suspend (suspended : Bool)
  | helper (asleep : Bool)
  | heartbeat (asleep : Bool)
  | silent

/-- What a pass of `sleep_sync_task` answers: whether to press System Sleep. -/
def Sync.presses (s : Sync) (p : Pass) : Bool :=
  let s := (s.step p.on p.active p.suspended p.nowUs).1
  let s := s.tell p.on p.active p.nowUs
  (s.idle p.on p.minutes p.active (s.countsAsleep p.suspended) p.lastInputUs p.lastSwitchUs
    p.nowUs).2

namespace Station

/-- A board that boots. -/
def init : Station where
  sync := Sync.init
  on := false
  minutes := 0
  active := false
  suspended := false
  word := none
  lastInput := 0
  lastSwitch := 0
  clock := 0
  now := 0
  log := []

variable (s : Station)

/-- What the pass reads. -/
def reads : Pass where
  on := s.on
  active := s.active
  suspended := s.suspended
  minutes := s.minutes
  lastInputUs := wideReading s.lastInput
  lastSwitchUs := wideReading s.lastSwitch
  nowUs := wideReading s.now

/-- What the pass finds and does. -/
def found : Found where
  time := s.now
  on := s.on
  minutes := s.minutes
  active := s.active
  word := s.word
  asleep := s.sync.countsAsleep s.suspended
  stretch := max s.lastInput s.lastSwitch
  pressed := s.sync.presses s.reads

/-- One event. -/
def next : StationEvent → Station
  | .tick us => { s with clock := s.clock + us }
  | .readClock => { s with now := s.clock }
  | .pass => { s with sync := s.sync.next (.pass s.reads), log := s.log ++ [s.found] }
  | .input => { s with sync := s.sync.next (.input s.on s.active s.suspended) }
  | .stampInput => { s with lastInput := s.clock }
  | .stampSwitch => { s with lastSwitch := s.clock }
  | .output active => { s with active := active }
  | .setting on minutes => { s with on := on, minutes := minutes }
  | .suspend suspended => { s with suspended := suspended }
  | .helper asleep => { s with sync := s.sync.next (.helper asleep) }
  | .heartbeat asleep => { s with sync := s.sync.next (.heartbeat asleep), word := some asleep }
  | .silent => { s with sync := s.sync.next .silent, word := none }

end Station

/-! ## One pass of the rule -/

namespace Sync

/-- What the rule depends on. -/
def rule (s : Sync) : Bool × Bool × UInt64 × Bool × Bool × UInt64 :=
  (s.otherAsleep, s.idlePressed, s.idleSinceUs, s.otherLive, s.otherWatched, s.otherAwakeSinceUs)

variable {s : Sync} {p : Pass}

/-- The step leaves the rule and the word of the helper alone. -/
theorem step_leaves (on active suspended : Bool) (nowUs : UInt64) :
    (s.step on active suspended nowUs).1.rule = s.rule ∧
      (s.step on active suspended nowUs).1.helperAsleep = s.helperAsleep := by
  unfold step
  split
  · exact ⟨rfl, rfl⟩
  · extract_lets first second
    have hfirst : first.rule = s.rule ∧ first.helperAsleep = s.helperAsleep := by
      simp only [first]
      split <;> exact ⟨rfl, rfl⟩
    have hsecond : second.rule = s.rule ∧ second.helperAsleep = s.helperAsleep := by
      refine ⟨Eq.trans ?_ hfirst.1, Eq.trans ?_ hfirst.2⟩ <;>
      · simp only [second]
        split <;> rfl
    split <;> exact hsecond

/-- So does the telling. -/
theorem tell_leaves (on active : Bool) (nowUs : UInt64) :
    (s.tell on active nowUs).rule = s.rule ∧
      (s.tell on active nowUs).helperAsleep = s.helperAsleep := by
  unfold tell
  split
  · exact ⟨rfl, rfl⟩
  · split <;> exact ⟨rfl, rfl⟩

theorem rule_wake (on active suspended : Bool) :
    (s.wake on active suspended).1.rule = s.rule := by
  unfold wake
  extract_lets asleep awake
  split
  · rfl
  · split <;> rfl

/-- The record that the rule finds in a pass. -/
def asked (s : Sync) (p : Pass) : Sync :=
  (s.step p.on p.active p.suspended p.nowUs).1.tell p.on p.active p.nowUs

theorem rule_asked (s : Sync) (p : Pass) : (s.asked p).rule = s.rule :=
  (tell_leaves ..).1.trans (step_leaves ..).1

theorem countsAsleep_asked (s : Sync) (p : Pass) (suspended : Bool) :
    (s.asked p).countsAsleep suspended = s.countsAsleep suspended := by
  have hhelper : (s.asked p).helperAsleep = s.helperAsleep :=
    (tell_leaves ..).2.trans (step_leaves ..).2
  show (suspended || (s.asked p).helperAsleep) = (suspended || s.helperAsleep)
  rw [hhelper]

/-- The setting is on, the board active, the peer live and its computer awake by the record. -/
def sees (s : Sync) (on active : Bool) : Bool := on && active && s.otherLive && !s.otherAsleep

/-- After a pass the other computer is watched exactly when the pass saw it awake, since the first
pass of those that did. -/
theorem watch_eq (on active : Bool) (nowUs : UInt64) :
    s.watch on active nowUs =
      ({ s with
          otherWatched := s.sees on active
          otherAwakeSinceUs :=
            if s.sees on active && !s.otherWatched then nowUs else s.otherAwakeSinceUs },
        on && active && s.otherLive && s.otherAsleep && s.otherWatched &&
          decide (waitUs.toInt64 ≤ (nowUs - s.otherAwakeSinceUs).toInt64)) := by
  obtain ⟨_, _, _, _, _, _, otherAsleep, _, _, otherLive, otherWatched, _⟩ := s
  cases on <;> cases active <;> cases otherLive <;> cases otherAsleep <;> cases otherWatched <;>
    simp [watch, sees, countsOtherAsleep]

/-- The rule, given the later of the two stamps. -/
theorem idle_eq {on active asleep : Bool} {minutes : UInt8}
    {lastInputUs lastSwitchUs nowUs since : UInt64}
    (hsince : (if 0 < (lastInputUs - lastSwitchUs).toInt64 then lastInputUs else lastSwitchUs) =
      since) :
    s.idle on minutes active asleep lastInputUs lastSwitchUs nowUs =
      if minutes = immediately then
        ((s.watch on active nowUs).1, (s.watch on active nowUs).2 && !asleep)
      else if (s.idlePressed = true ∧ s.idleSinceUs = since) ∨ minutes = 0 ∨ asleep = true ∨
          s.countsOtherAsleep on active = false ∨
          (nowUs - since).toInt64 < minutes.toUInt64.toInt64 * 60000000 then
        ((s.watch on active nowUs).1, false)
      else ({ (s.watch on active nowUs).1 with idlePressed := true, idleSinceUs := since },
        true) := by
  unfold idle
  rw [hsince, watch_eq]
  dsimp only
  split_ifs <;> first | rfl | (exfalso; tauto)

/-- What the rule remembers of the other computer is what watching it leaves. -/
theorem idle_watch (on active asleep : Bool) (minutes : UInt8)
    (lastInputUs lastSwitchUs nowUs : UInt64) :
    ∃ pressed since, (s.idle on minutes active asleep lastInputUs lastSwitchUs nowUs).1 =
      { (s.watch on active nowUs).1 with idlePressed := pressed, idleSinceUs := since } := by
  obtain ⟨since, hsince⟩ : ∃ since, (if 0 < (lastInputUs - lastSwitchUs).toInt64 then lastInputUs
      else lastSwitchUs) = since := ⟨_, rfl⟩
  rw [idle_eq hsince]
  split
  · exact ⟨_, _, rfl⟩
  · split
    · exact ⟨_, _, rfl⟩
    · exact ⟨_, _, rfl⟩

/-- The later of the two stamps, as the code finds it. -/
theorem later_reading {lastInput lastSwitch : Nat} (hinput : lastInput < 2 ^ 63)
    (hswitch : lastSwitch < 2 ^ 63) :
    (if 0 < (wideReading lastInput - wideReading lastSwitch).toInt64 then wideReading lastInput
      else wideReading lastSwitch) = wideReading (max lastInput lastSwitch) := by
  rw [if_congr (elapsed_pos_wide hinput hswitch) rfl rfl]
  split
  · rw [Nat.max_eq_left (by omega)]
  · rw [Nat.max_eq_right (by omega)]

/-- A time in minutes has passed since a stamp. -/
theorem minutes_le_elapsed {now stamp : Nat} {minutes : UInt8} (hnow : now < 2 ^ 63)
    (hstamp : stamp < 2 ^ 63) :
    (wideReading now - wideReading stamp).toInt64 < minutes.toUInt64.toInt64 * 60000000 ↔
      now < stamp + minutes.toNat * 60000000 := by
  have hminutes : (minutes.toUInt64.toInt64 * 60000000).toInt = minutes.toNat * 60000000 := by
    have hsmall : minutes.toUInt64.toInt64.toInt = minutes.toNat := by
      rw [toInt_span_wide]
      · simp
      · have := minutes.toNat_lt
        simp
        omega
    have hunit : Int64.toInt 60000000 = 60000000 := by decide
    rw [Int64.toInt_mul, hsmall, hunit, Int.bmod_def]
    have := minutes.toNat_lt
    omega
  rw [Int64.lt_iff_toInt_lt, toInt_elapsed_wide (by omega) (by omega), hminutes]
  omega

end Sync

/-! ## Every pass -/

namespace Found

/-- One more pass that sees the other computer awake. -/
theorem AwakeSince.snoc {before : List Found} {time : Nat} {found : Found}
    (h : AwakeSince before time) (hfound : found.SeesAwake) :
    AwakeSince (before ++ [found]) time := by
  obtain ⟨earlier, first, rest, rfl, htime, hall⟩ := h
  refine ⟨earlier, first, rest ++ [found], by simp, htime, fun f hmem ↦ ?_⟩
  rcases List.mem_append.1 (show f ∈ (first :: rest) ++ [found] by simpa using hmem) with
    hold | hlast
  · exact hall f hold
  · rwa [List.mem_singleton.1 hlast]

/-- The last of the passes that see the other computer awake. -/
theorem AwakeSince.last {before : List Found} {time : Nat} (h : AwakeSince before time) :
    ∃ earlier last, before = earlier ++ [last] ∧ last.SeesAwake := by
  obtain ⟨earlier, first, rest, rfl, -, hall⟩ := h
  rcases List.eq_nil_or_concat rest with rfl | ⟨init, last, rfl⟩
  · exact ⟨earlier, first, rfl, hall first List.mem_cons_self⟩
  · exact ⟨earlier ++ first :: init, last, by simp, hall last (by simp)⟩

end Found

namespace Station

open Found

variable {s : Station} {event : StationEvent}

/-- The stamps are readings of a clock that goes forward. -/
structure Timed (s : Station) : Prop where
  now : s.now ≤ s.clock
  lastInput : s.lastInput ≤ s.clock
  lastSwitch : s.lastSwitch ≤ s.clock
  order : ∀ found ∈ s.log, found.time ≤ s.now

/-- The record holds what was heard, since when the other computer is watched, and the stretch of
the last press. -/
structure Keeps (s : Station) : Prop where
  live : s.sync.otherLive = s.word.isSome
  heard : s.sync.otherAsleep = true ↔ s.word = some true
  watched : s.sync.otherWatched = true →
    ∃ time, s.sync.otherAwakeSinceUs = wideReading time ∧ time ≤ s.now ∧ AwakeSince s.log time
  pressed : ∀ found ∈ s.log, found.PressedIdle → s.sync.idlePressed = true ∧
    ∃ stretch, s.sync.idleSinceUs = wideReading stretch ∧ found.stretch ≤ stretch ∧
      stretch ≤ max s.lastInput s.lastSwitch

theorem timed_init : Timed init where
  now := Nat.le_refl 0
  lastInput := Nat.le_refl 0
  lastSwitch := Nat.le_refl 0
  order := by
    intro found hmem
    cases hmem

theorem timed_next (h : s.Timed) (event : StationEvent) : (s.next event).Timed := by
  obtain ⟨hnow, hinput, hswitch, horder⟩ := h
  cases event with
  | tick us =>
      exact ⟨Nat.le_add_right_of_le hnow, Nat.le_add_right_of_le hinput,
        Nat.le_add_right_of_le hswitch, horder⟩
  | readClock =>
      exact ⟨Nat.le_refl _, hinput, hswitch, fun f hmem ↦ Nat.le_trans (horder f hmem) hnow⟩
  | pass =>
      refine ⟨hnow, hinput, hswitch, fun f hmem ↦ ?_⟩
      rcases List.mem_append.1 hmem with hmem | hlast
      · exact horder f hmem
      · rw [List.mem_singleton.1 hlast]
        exact Nat.le_refl _
  | stampInput => exact ⟨hnow, Nat.le_refl _, hswitch, horder⟩
  | stampSwitch => exact ⟨hnow, hinput, Nat.le_refl _, horder⟩
  | input | output | setting | suspend | helper | heartbeat | silent =>
      exact ⟨hnow, hinput, hswitch, horder⟩

theorem clock_le_next (s : Station) (event : StationEvent) : s.clock ≤ (s.next event).clock := by
  cases event with
  | tick us => exact Nat.le_add_right _ _
  | _ => exact Nat.le_refl _

theorem keeps_init : Keeps init where
  live := rfl
  heard := by decide
  watched := by
    intro h
    cases h
  pressed := by
    intro found hmem
    cases hmem

/-- What only moves a stamp or the clock forward, and leaves the record, keeps the rest. -/
theorem Keeps.of_rule {s' : Station} (h : s.Keeps) (hrule : s'.sync.rule = s.sync.rule)
    (hword : s'.word = s.word) (hlog : s'.log = s.log) (hnow : s.now ≤ s'.now)
    (hstamps : max s.lastInput s.lastSwitch ≤ max s'.lastInput s'.lastSwitch) : s'.Keeps := by
  simp only [Sync.rule, Prod.mk.injEq] at hrule
  obtain ⟨hasleep, hpressed, hsince, hlive, hwatched, hawake⟩ := hrule
  refine ⟨by rw [hlive, hword, h.live], by rw [hasleep, hword, h.heard], ?_, ?_⟩
  · intro hw
    obtain ⟨time, htime, hle, hspan⟩ := h.watched (hwatched ▸ hw)
    exact ⟨time, by rw [hawake, htime], Nat.le_trans hle hnow, by rwa [hlog]⟩
  · intro found hmem hfound
    obtain ⟨hp, stretch, hstretch, hfrom, hto⟩ := h.pressed found (hlog ▸ hmem) hfound
    exact ⟨by rw [hpressed, hp], stretch, by rw [hsince, hstretch], hfrom,
      Nat.le_trans hto hstamps⟩

/-- The record says of the other computer what the pass finds. -/
theorem Keeps.sees_iff (h : s.Keeps) :
    (s.sync.asked s.reads).sees s.on s.active = true ↔ s.found.SeesAwake := by
  have hrule := Sync.rule_asked s.sync s.reads
  simp only [Sync.rule, Prod.mk.injEq] at hrule
  have hlive := hrule.2.2.2.1.trans h.live
  have hheard := h.heard
  rw [← hrule.1] at hheard
  show (s.on && s.active && _ && !_) = true ↔ s.on = true ∧ s.active = true ∧ s.word = some false
  rw [hlive]
  cases hword : s.word with
  | none => simp
  | some asleep =>
      have hsame : (s.sync.asked s.reads).otherAsleep = asleep := by
        rw [hword] at hheard
        cases asleep <;> simpa using hheard
      rw [hsame]
      simp [and_assoc]

/-- After a pass the record holds what was heard and since when the other computer is watched. -/
theorem Keeps.watched_pass (h : s.Keeps) :
    (s.next .pass).sync.otherLive = s.word.isSome ∧
    ((s.next .pass).sync.otherAsleep = true ↔ s.word = some true) ∧
    ((s.next .pass).sync.otherWatched = true →
      ∃ time, (s.next .pass).sync.otherAwakeSinceUs = wideReading time ∧ time ≤ s.now ∧
        AwakeSince (s.log ++ [s.found]) time) := by
  have hrule := Sync.rule_asked s.sync s.reads
  simp only [Sync.rule, Prod.mk.injEq] at hrule
  obtain ⟨hasleep, -, -, hlive, hwatched, hawake⟩ := hrule
  obtain ⟨pressed, since, hidle⟩ := Sync.idle_watch (s := s.sync.asked s.reads) s.on s.active
    ((s.sync.asked s.reads).countsAsleep s.suspended) s.minutes (wideReading s.lastInput)
    (wideReading s.lastSwitch) (wideReading s.now)
  have hnext : (s.next .pass).sync = _ := hidle
  rw [hnext, Sync.watch_eq]
  refine ⟨hlive.trans h.live, ?_, ?_⟩
  · show (s.sync.asked s.reads).otherAsleep = true ↔ _
    rw [hasleep, h.heard]
  · intro hsees
    have hfound := h.sees_iff.1 hsees
    cases hbefore : s.sync.otherWatched with
    | true =>
        obtain ⟨time, htime, hle, hspan⟩ := h.watched hbefore
        refine ⟨time, ?_, hle, hspan.snoc hfound⟩
        show (if _ then _ else _) = _
        rw [if_neg (by simp [hwatched, hbefore]), hawake, htime]
    | false =>
        refine ⟨s.now, ?_, Nat.le_refl _, s.log, s.found, [], rfl, rfl, ?_⟩
        · show (if _ then _ else _) = _
          exact if_pos (by simp [hwatched, hbefore, show Sync.sees _ _ _ = true from hsees])
        · intro f hmem
          rwa [List.mem_singleton.1 hmem]

/-- What a pass answers and what it leaves of the last press. -/
theorem pass_cases (ht : s.Timed) (hclock : s.clock < 2 ^ 63) :
    (s.found.pressed = true ∧ s.minutes = immediately ∧
      ((s.sync.asked s.reads).watch s.on s.active (wideReading s.now)).2 = true ∧
      s.found.asleep = false ∧ (s.next .pass).sync.idlePressed = s.sync.idlePressed ∧
      (s.next .pass).sync.idleSinceUs = s.sync.idleSinceUs) ∨
    (s.found.pressed = true ∧ s.minutes ≠ immediately ∧
      ¬ (s.sync.idlePressed = true ∧ s.sync.idleSinceUs = wideReading s.found.stretch) ∧
      s.minutes ≠ 0 ∧ s.found.asleep = false ∧
      s.sync.countsOtherAsleep s.on s.active = true ∧
      s.found.stretch + s.minutes.toNat * 60000000 ≤ s.now ∧
      (s.next .pass).sync.idlePressed = true ∧
      (s.next .pass).sync.idleSinceUs = wideReading s.found.stretch) ∨
    (s.found.pressed = false ∧ (s.next .pass).sync.idlePressed = s.sync.idlePressed ∧
      (s.next .pass).sync.idleSinceUs = s.sync.idleSinceUs) := by
  have hinput := ht.lastInput
  have hswitch := ht.lastSwitch
  have hnow := ht.now
  have hrule := Sync.rule_asked s.sync s.reads
  simp only [Sync.rule, Prod.mk.injEq] at hrule
  obtain ⟨hother, hpressed, hsince, -⟩ := hrule
  have hcounts : (s.sync.asked s.reads).countsOtherAsleep s.on s.active =
      s.sync.countsOtherAsleep s.on s.active := by
    unfold Sync.countsOtherAsleep
    rw [hother]
  have hasleep : (s.sync.asked s.reads).countsAsleep s.suspended = s.found.asleep :=
    Sync.countsAsleep_asked ..
  have hpass : ((s.next .pass).sync, s.found.pressed) = (s.sync.asked s.reads).idle s.on s.minutes
      s.active s.found.asleep (wideReading s.lastInput) (wideReading s.lastSwitch)
      (wideReading s.now) := by
    rw [← hasleep]
    rfl
  have hlater := @Sync.later_reading s.lastInput s.lastSwitch (by omega) (by omega)
  have hstretch : max s.lastInput s.lastSwitch = s.found.stretch := rfl
  have helapsed := @Sync.minutes_le_elapsed s.now s.found.stretch s.minutes (by omega) (by omega)
  have hwatch := Sync.watch_eq (s := s.sync.asked s.reads) s.on s.active (wideReading s.now)
  have hkept : ((s.sync.asked s.reads).watch s.on s.active (wideReading s.now)).1.idlePressed =
        s.sync.idlePressed ∧
      ((s.sync.asked s.reads).watch s.on s.active (wideReading s.now)).1.idleSinceUs =
        s.sync.idleSinceUs := by
    rw [hwatch]
    exact ⟨hpressed, hsince⟩
  rw [Sync.idle_eq hlater, hstretch, hcounts, hpressed, hsince] at hpass
  split_ifs at hpass with himmediately hquiet
  · obtain ⟨hsync, hanswer⟩ := Prod.mk.inj hpass
    rw [hsync, hanswer]
    -- Immediately: the press follows the switch away
    cases hfell : ((s.sync.asked s.reads).watch s.on s.active (wideReading s.now)).2 with
    | false => exact .inr (.inr ⟨rfl, hkept⟩)
    | true =>
        cases hawake : s.found.asleep with
        | false => exact .inl ⟨rfl, himmediately, rfl, rfl, hkept⟩
        | true => exact .inr (.inr ⟨rfl, hkept⟩)
  · obtain ⟨hsync, hanswer⟩ := Prod.mk.inj hpass
    rw [hsync, hanswer]
    exact .inr (.inr ⟨rfl, hkept⟩)
  · obtain ⟨hsync, hanswer⟩ := Prod.mk.inj hpass
    rw [hsync, hanswer]
    -- no guard of the timer holds the press back
    rw [helapsed] at hquiet
    push Not at hquiet
    obtain ⟨honce, hsome, hawake, hcount, hold⟩ := hquiet
    refine .inr (.inl ⟨rfl, himmediately, fun h ↦ honce h.1 h.2, hsome, by simpa using hawake,
      by simpa using hcount, hold, rfl, rfl⟩)

/-- A pass that presses under Immediately. -/
theorem Keeps.atOnce (h : s.Keeps) (ht : s.Timed) (hclock : s.clock < 2 ^ 63)
    (hfell : ((s.sync.asked s.reads).watch s.on s.active (wideReading s.now)).2 = true)
    (hawake : s.found.asleep = false) : AtOnce s.log s.found := by
  have hnow := ht.now
  have hrule := Sync.rule_asked s.sync s.reads
  simp only [Sync.rule, Prod.mk.injEq] at hrule
  rw [Sync.watch_eq] at hfell
  simp only [Bool.and_eq_true, decide_eq_true_eq] at hfell
  obtain ⟨⟨⟨⟨⟨hon, hactive⟩, -⟩, hasleep⟩, hwatched⟩, hlong⟩ := hfell
  rw [hrule.1, h.heard] at hasleep
  rw [hrule.2.2.2.2.1] at hwatched
  obtain ⟨time, htime, hle, hspan⟩ := h.watched hwatched
  rw [hrule.2.2.2.2.2, htime, span_le_elapsed_wide (by decide) (by omega) (by omega)] at hlong
  exact ⟨hawake, ⟨hon, hactive, hasleep⟩, hspan.last, time, hspan, hlong⟩

/-- A pass that does not press under a time in minutes leaves the last stretch. -/
theorem Keeps.pressed_quiet (h : s.Keeps) (hquiet : ¬ s.found.PressedIdle)
    (hpressed : (s.next .pass).sync.idlePressed = s.sync.idlePressed)
    (hsince : (s.next .pass).sync.idleSinceUs = s.sync.idleSinceUs) :
    ∀ found ∈ (s.next .pass).log, found.PressedIdle →
      (s.next .pass).sync.idlePressed = true ∧
      ∃ stretch, (s.next .pass).sync.idleSinceUs = wideReading stretch ∧ found.stretch ≤ stretch ∧
        stretch ≤ max s.lastInput s.lastSwitch := by
  intro found hmem hfound
  rw [hpressed, hsince]
  rcases List.mem_append.1 hmem with hold | hlast
  · exact h.pressed found hold hfound
  · rw [List.mem_singleton.1 hlast] at hfound
    exact absurd hfound hquiet

/-- The stretch of a new press is later than those of the presses before it. -/
theorem Keeps.stretch_lt (h : s.Keeps)
    (hfresh : ¬ (s.sync.idlePressed = true ∧ s.sync.idleSinceUs = wideReading s.found.stretch)) :
    ∀ earlier ∈ s.log, earlier.PressedIdle → earlier.stretch < s.found.stretch := by
  intro earlier hmem hearlier
  obtain ⟨hpressed, stretch, hstretch, hfrom, hto⟩ := h.pressed earlier hmem hearlier
  have hlater : stretch ≤ s.found.stretch := hto
  have hne : stretch ≠ s.found.stretch := by
    rintro rfl
    exact hfresh ⟨hpressed, hstretch⟩
  omega

/-- A pass presses only as the setting says, and the record goes on being kept. -/
theorem Keeps.pass (h : s.Keeps) (ht : s.Timed) (hclock : s.clock < 2 ^ 63) :
    (s.next .pass).Keeps ∧ Rightly s.log s.found := by
  obtain ⟨hlive, hheard, hwatched⟩ := h.watched_pass
  have horder : ∀ earlier ∈ s.log, earlier.time ≤ s.found.time := ht.order
  rcases pass_cases ht hclock with ⟨hpress, himmediately, hfell, hawake, hpressed, hsince⟩ |
    ⟨hpress, hminutes, hfresh, hsome, hawake, hcounts, hold, hpressed, hsince⟩ |
    ⟨hpress, hpressed, hsince⟩
  · -- a press under Immediately leaves the stretch of the last press as it was
    have hquiet : ¬ s.found.PressedIdle := fun hidle ↦ hidle.2 himmediately
    refine ⟨⟨hlive, hheard, hwatched, h.pressed_quiet hquiet hpressed hsince⟩, horder, ?_, ?_⟩
    · intro _ _
      exact h.atOnce ht hclock hfell hawake
    · intro hidle
      exact absurd hidle hquiet
  · have honce := h.stretch_lt hfresh
    refine ⟨⟨hlive, hheard, hwatched, ?_⟩, horder, ?_, ?_⟩
    · intro found hmem hfound
      refine ⟨hpressed, s.found.stretch, hsince, ?_, Nat.le_refl _⟩
      rcases List.mem_append.1 hmem with hbefore | hlast
      · exact Nat.le_of_lt (honce found hbefore hfound)
      · rw [List.mem_singleton.1 hlast]
    · intro _ himmediately
      exact absurd himmediately hminutes
    · intro _
      simp only [Sync.countsOtherAsleep, Bool.and_eq_true] at hcounts
      obtain ⟨⟨hon, hactive⟩, hasleep⟩ := hcounts
      exact ⟨hawake, ⟨hon, hactive, h.heard.1 hasleep⟩, hsome, hold, honce⟩
  · have hno : ¬ s.found.pressed = true := by simp [hpress]
    have hquiet : ¬ s.found.PressedIdle := fun hidle ↦ hno hidle.1
    refine ⟨⟨hlive, hheard, hwatched, h.pressed_quiet hquiet hpressed hsince⟩, horder, ?_, ?_⟩
    · intro hpressing
      exact absurd hpressing hno
    · intro hidle
      exact absurd hidle hquiet

/-- A heartbeat, or the silence of the peer, is what the record then holds. -/
theorem Keeps.word (h : s.Keeps) (word : Option Bool) (sync : Sync)
    (hlive : sync.otherLive = word.isSome) (hheard : sync.otherAsleep = true ↔ word = some true)
    (hwatched : sync.otherWatched = s.sync.otherWatched)
    (hawake : sync.otherAwakeSinceUs = s.sync.otherAwakeSinceUs)
    (hpressed : sync.idlePressed = s.sync.idlePressed)
    (hsince : sync.idleSinceUs = s.sync.idleSinceUs) :
    Keeps { s with sync := sync, word := word } where
  live := hlive
  heard := hheard
  watched := by
    show sync.otherWatched = true → _
    rw [hwatched]
    intro hw
    obtain ⟨time, htime, hspan⟩ := h.watched hw
    exact ⟨time, hawake.trans htime, hspan⟩
  pressed := by
    intro found hmem hfound
    obtain ⟨hp, stretch, hstretch, hto⟩ := h.pressed found hmem hfound
    exact ⟨hpressed.trans hp, stretch, hsince.trans hstretch, hto⟩

/-- What every event keeps while the clock is short. -/
structure Sound (s : Station) : Prop where
  timed : s.Timed
  kept : s.clock < 2 ^ 63 → s.Keeps ∧ EachAfter Rightly s.log

theorem sound_next (h : s.Sound) (event : StationEvent) : (s.next event).Sound := by
  refine ⟨timed_next h.timed event, fun hclock ↦ ?_⟩
  have hbefore : s.clock < 2 ^ 63 := Nat.lt_of_le_of_lt (clock_le_next s event) hclock
  obtain ⟨hkeeps, heach⟩ := h.kept hbefore
  have ht := h.timed
  cases event with
  | pass =>
      obtain ⟨hpass, hrightly⟩ := hkeeps.pass ht hbefore
      exact ⟨hpass, eachAfter_snoc.2 ⟨heach, hrightly⟩⟩
  | readClock => exact ⟨hkeeps.of_rule rfl rfl rfl ht.now (Nat.le_refl _), heach⟩
  | input =>
      exact ⟨hkeeps.of_rule (Sync.rule_wake ..) rfl rfl (Nat.le_refl _) (Nat.le_refl _), heach⟩
  | stampInput =>
      refine ⟨hkeeps.of_rule rfl rfl rfl (Nat.le_refl _) ?_, heach⟩
      have hstamp := ht.lastInput
      show max s.lastInput s.lastSwitch ≤ max s.clock s.lastSwitch
      omega
  | stampSwitch =>
      refine ⟨hkeeps.of_rule rfl rfl rfl (Nat.le_refl _) ?_, heach⟩
      have hstamp := ht.lastSwitch
      show max s.lastInput s.lastSwitch ≤ max s.lastInput s.clock
      omega
  | tick | output | setting | suspend | helper =>
      exact ⟨hkeeps.of_rule rfl rfl rfl (Nat.le_refl _) (Nat.le_refl _), heach⟩
  | heartbeat asleep =>
      refine ⟨hkeeps.word (some asleep) _ rfl ?_ rfl rfl rfl rfl, heach⟩
      show asleep = true ↔ some asleep = some true
      simp
  | silent =>
      refine ⟨hkeeps.word none _ rfl ?_ rfl rfl rfl rfl, heach⟩
      show false = true ↔ none = some true
      simp

/-- Sleep when idle never presses wrongly. In every order of passes, heartbeats, losses of the peer,
changes of the settings and switches on a board up for less than half the range of its clock, a
press under Immediately is of a computer awake and follows a change of the other computer from
awake to asleep that no other press follows, after the wait in which every pass found the setting
on, the board active, the peer live and its computer awake; and a press under a time in minutes is
the only one of its idle stretch, which is that old, of a computer awake while the setting is on,
the board active and the other computer heard asleep. -/
theorem idle_sleeps_rightly (events : List StationEvent)
    (hclock : (run next init events).clock < 2 ^ 63) :
    EachAfter Rightly (run next init events).log := by
  have hinit : init.Sound := ⟨timed_init, fun _ ↦ ⟨keeps_init, eachAfter_nil⟩⟩
  have hsound : (run next init events).Sound :=
    run_invariant Sound hinit (fun _ event h ↦ sound_next h event) events
  exact (hsound.kept hclock).2

/-- The other computer is seen awake, and asleep six seconds later; a minute after that the setting
is a time of one minute. -/
def bothSettings : List StationEvent :=
  [.setting true immediately, .output true, .heartbeat false, .pass, .tick 6000000, .readClock,
    .heartbeat true, .pass, .setting true 1, .tick 60000000, .readClock, .pass]

/-- Of three passes the second and the third press the key, each under another setting. -/
theorem idle_sleeps_rightly_both :
    ((run next init bothSettings).log.map fun found ↦ (found.minutes, found.pressed)) =
        [(immediately, false), (immediately, true), (1, true)] ∧
      EachAfter Rightly (run next init bothSettings).log :=
  ⟨by decide, idle_sleeps_rightly bothSettings (by decide)⟩

end Station

end DeskhopPlus.Sleep
