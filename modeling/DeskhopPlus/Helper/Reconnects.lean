import DeskhopPlus.Helper.Answers
import DeskhopPlus.Helper.Rate
import DeskhopPlus.Library.Clock

/-!
# What the reconnect rate says of a run

`History` is what the rate is about, with nothing forgotten: all the counted drops since the device
last changed its identity, and all the sessions lost on their own since it last left, on a clock
that does not wrap. `Matches` ties the rings of the machine to it: they are the newest few of the
two lists. `repeatedly_iff_history` is the result, for every run shorter than a turn of the clock.
-/

namespace DeskhopPlus.Helper

open Bytes Wire Auth Crypto Board Runs Clock Recent

/-- A call on a clock that does not wrap. -/
inductive Dated where
  | input (time : Nat) (event : Event)
  | emit (time : Nat) (type flags : UInt8) (body : List UInt8) (cap : Nat)

/-- The time of the call. -/
def Dated.time : Dated → Nat
  | .input time _ => time
  | .emit time _ _ _ _ => time

/-- The call as the machine sees it. -/
def Dated.call : Dated → Call
  | .input time event => .input (reading time) event
  | .emit _ type flags body cap => .emit type flags body cap

/-- What a run has been through. The newest times come first. -/
structure History where
  drops : List Nat := []
  losses : List Nat := []
  asleep : Bool := false
  wokeAt : Option Nat := none
  seen : Option DeviceIdentity := none
  changedAt : Option Nat := none
  deriving DecidableEq, Repr

namespace History

/-- Something happened within the short window. -/
def recently (since : Option Nat) (now : Nat) : Bool :=
  since.any fun time ↦ now - time < reconnectWindowMs.toNat

/-- A drop counts: there was something to drop, the host was not asleep and had not just woken, and
the last counted drop is not the same one. -/
def counts (past : History) (now : Nat) (busy : Bool) : Bool :=
  busy && !(past.asleep || recently past.wokeAt now) &&
    past.drops.head?.all fun last ↦ dropDebounceMs.toNat ≤ now - last

/-- More than the short window after the last counted drop. -/
def standsAlone (past : History) (now : Nat) : Bool :=
  past.drops.head?.all fun last ↦ reconnectWindowMs.toNat < now - last

/-- The board unpaired, or the transport failed right after a change of identity. -/
def endedOnPurpose (past : History) (now : Nat) (note : Note) (a : Int32) : Bool :=
  (note = .sessionEnded && a = EndReason.unpaired.byte.toUInt32.toInt32) ||
    (note = .transportFailed && recently past.changedAt now)

/-- A drop. -/
def drop (past : History) (now : Nat) (busy : Bool) : History :=
  if past.counts now busy then { past with drops := now :: past.drops } else past

/-- A teardown. -/
def tearDown (past : History) (now : Nat) (busy : Bool) (note : Note) (a : Int32) : History :=
  if past.counts now busy && past.standsAlone now && !past.endedOnPurpose now note a then
    { past.drop now busy with losses := now :: past.losses }
  else past.drop now busy

/-- A teardown with the note it has, if there is one. -/
def tornDown (past : History) (now : Nat) (busy : Bool) (torn : Option (Note × Int32)) : History :=
  match torn with
  | none => past
  | some (note, a) => past.tearDown now busy note a

/-- The device leaves. -/
def leave (past : History) (now : Nat) (busy : Bool) : History :=
  { past.drop now busy with losses := [] }

/-- A device appears. -/
def appear (past : History) (now : Nat) (which : DeviceIdentity) : History :=
  if past.seen.any (· ≠ which) then
    { past with drops := [], changedAt := some now, seen := some which }
  else { past with seen := some which }

/-- The host goes to sleep or wakes. -/
def sleep (past : History) (now : Nat) (asleep : Bool) : History :=
  { past with
    wokeAt := if past.asleep && !asleep then some now else past.wokeAt
    asleep := asleep }

/-- The history after a call, given the machine before it and what it means for a device to
leave. -/
def step (identity : Identity) (leaves : Helper → Event → Bool) (h : Helper) (past : History) :
    Dated → History
  | .emit .. => past
  | .input now event =>
      let torn := past.tornDown now h.busy (h.tearsDown identity (reading now) event)
      let left := if leaves h event then torn.leave now h.busy else torn
      match event with
      | .deviceAppeared which => left.appear now which
      | .hostSleep asleep => left.sleep now asleep
      | _ => left

/-- The fourth-latest counted drop is in the short window, or the third-latest session lost on its
own in the long one. -/
def repeatedly (past : History) (now : Nat) : Bool :=
  (past.drops[reconnectLimit - 1]?.any fun time ↦ now - time ≤ reconnectWindowMs.toNat) ||
    past.losses[sessionLossLimit - 1]?.any fun time ↦ now - time ≤ sessionLossWindowMs.toNat

end History

/-- `device_left` is called: the device disappears, its config mode appears, unless the channels of
that mode are held already, or its normal identity appears in config mode. -/
def leaves (h : Helper) : Event → Bool
  | .deviceDisappeared => true
  | .deviceAppeared which =>
      (which = .configMode || h.configMode) &&
        !(which = .configMode && h.configMode && h.holdingChannels)
  | _ => false

/-- The machine and its history after a call. -/
def watch (identity : Identity) (leaves : Helper → Event → Bool) (seen : Helper × History)
    (dated : Dated) : Helper × History :=
  (seen.1.call identity dated.call, seen.2.step identity leaves seen.1 dated)

/-- The rate holds the newest few of the history. It does so from `clock` on, until `limit`. -/
structure Matches (past : History) (r : Rate) (clock limit : Nat) : Prop where
  drops : r.recentDrops = (kept reconnectLimit past.drops).map reading
  losses : r.recentSessionLosses = (kept sessionLossLimit past.losses).map reading
  asleep : r.hostAsleep = past.asleep
  woke : ∀ now, clock ≤ now → now < limit →
    r.justWoke (reading now) = History.recently past.wokeAt now
  changed : ∀ now, clock ≤ now → now < limit →
    r.justChanged (reading now) = History.recently past.changedAt now
  seen : past.seen = if r.everSawDevice then some r.lastDeviceIdentity else none
  config : r.configMode = true → past.seen = some .configMode
  drop_times : ∀ time ∈ past.drops, time ≤ clock ∧ limit ≤ time + 2 ^ 32
  loss_times : ∀ time ∈ past.losses, time ≤ clock ∧ limit ≤ time + 2 ^ 32

section Steps

variable {past : History} {r : Rate} {clock limit : Nat} {busy : Bool}

/-- A window that is over stays over. -/
theorem recently_mono {since : Option Nat} {now later : Nat} (hle : now ≤ later)
    (hover : History.recently since now = false) : History.recently since later = false := by
  cases since with
  | none => rfl
  | some time =>
      simp only [History.recently, Option.any_some, decide_eq_false_iff_not] at hover ⊢
      omega

/-- A window that is opened. -/
theorem recently_opened {now : Nat} (hnow : clock ≤ now) (hturn : now < clock + 2 ^ 32) :
    (!elapsed (reading now) (reading clock) reconnectWindowMs) =
      History.recently (some clock) now := by
  simp only [elapsed, History.recently, Option.any_some]
  rw [← decide_not]
  refine decide_eq_decide.2 ?_
  rw [le_elapsed hnow hturn, Nat.not_le]

/-- A window that is closed once it is over. -/
theorem recently_closed {stands : Bool} {stamp : UInt32} {since : Option Nat}
    (hsame : ∀ now, clock ≤ now → now < limit →
      (stands && !elapsed (reading now) stamp reconnectWindowMs) = History.recently since now)
    (hclock : clock < limit) {now : Nat} (hnow : clock ≤ now) (hlimit : now < limit) :
    ((stands && !elapsed (reading clock) stamp reconnectWindowMs) &&
      !elapsed (reading now) stamp reconnectWindowMs) = History.recently since now := by
  have hstart := hsame clock (Nat.le_refl _) hclock
  cases hopen : History.recently since clock with
  | false =>
      rw [hstart, hopen, recently_mono hnow hopen]
      rfl
  | true =>
      rw [hopen, Bool.and_eq_true] at hstart
      rw [← hsame now hnow hlimit, hstart.1, hstart.2]
      rfl

theorem Matches.mono (h : Matches past r clock limit) {later : Nat} (hle : clock ≤ later) :
    Matches past r later limit where
  drops := h.drops
  losses := h.losses
  asleep := h.asleep
  woke now hnow := h.woke now (hle.trans hnow)
  changed now hnow := h.changed now (hle.trans hnow)
  seen := h.seen
  config := h.config
  drop_times time htime := ⟨(h.drop_times time htime).1.trans hle, (h.drop_times time htime).2⟩
  loss_times time htime := ⟨(h.loss_times time htime).1.trans hle, (h.loss_times time htime).2⟩

/-- The last counted drop is the newest of the history. -/
theorem Matches.last_drop (h : Matches past r clock limit) :
    r.recentDrops.getLast? = past.drops.head?.map reading := by
  rw [h.drops, List.getLast?_map, getLast?_kept (by decide)]

theorem Matches.counts (h : Matches past r clock limit) (hclock : clock < limit) :
    r.counts busy (reading clock) = past.counts clock busy := by
  have hrecent : (!r.recentDrops.getLast?.any fun last ↦ reading clock - last < dropDebounceMs) =
      past.drops.head?.all fun last ↦ dropDebounceMs.toNat ≤ clock - last := by
    rw [h.last_drop]
    cases hlast : past.drops.head? with
    | none => rfl
    | some last =>
        obtain ⟨hbefore, hturn⟩ := h.drop_times last (List.mem_of_head? hlast)
        simp only [Option.map_some, Option.any_some, Option.all_some]
        rw [← decide_not]
        exact decide_eq_decide.2 (UInt32.not_lt.trans (le_elapsed hbefore (by omega)))
  unfold Rate.counts History.counts
  rw [hrecent, h.asleep, h.woke clock (Nat.le_refl _) hclock]

theorem Matches.standsAlone (h : Matches past r clock limit) (hclock : clock < limit) :
    r.standsAlone (reading clock) = past.standsAlone clock := by
  unfold Rate.standsAlone History.standsAlone
  rw [h.last_drop]
  cases hlast : past.drops.head? with
  | none => rfl
  | some last =>
      obtain ⟨hbefore, hturn⟩ := h.drop_times last (List.mem_of_head? hlast)
      simp only [Option.map_some, Option.all_some]
      refine decide_eq_decide.2 ?_
      rw [gt_iff_lt, ← UInt32.not_le, elapsed_le hbefore (by omega), Nat.not_le]

theorem Matches.endedOnPurpose (h : Matches past r clock limit) (hclock : clock < limit)
    (note : Note) (a : Int32) :
    r.endedOnPurpose note a (reading clock) = past.endedOnPurpose clock note a := by
  unfold Rate.endedOnPurpose History.endedOnPurpose
  rw [h.changed clock (Nat.le_refl _) hclock]

/-- One more time in a ring is one more in the history. -/
theorem pushTime_kept {cap : Nat} (hcap : 0 < cap) (times : List Nat) (now : Nat) :
    pushTime ((kept cap times).map reading) cap (reading now) =
      (kept cap (now :: times)).map reading := by
  rw [map_kept, map_kept]
  exact push_kept hcap (times.map reading) (reading now)

theorem Matches.drop (h : Matches past r clock limit) (hclock : clock < limit)
    (hturn : limit ≤ clock + 2 ^ 32) (busy : Bool) :
    Matches (past.drop clock busy) (r.drop busy (reading clock)) clock limit := by
  unfold Rate.drop History.drop
  rw [h.counts hclock]
  split
  · exact
      { h with
        drops := by rw [h.drops, pushTime_kept (by decide)]
        drop_times := List.forall_mem_cons.2 ⟨⟨Nat.le_refl _, hturn⟩, h.drop_times⟩ }
  · exact h

theorem Matches.tearDown (h : Matches past r clock limit) (hclock : clock < limit)
    (hturn : limit ≤ clock + 2 ^ 32) (busy : Bool) (note : Note) (a : Int32) :
    Matches (past.tearDown clock busy note a) (r.tearDown busy note a (reading clock)) clock
      limit := by
  have hdrop := h.drop hclock hturn busy
  have hlosses : (past.drop clock busy).losses = past.losses := by
    unfold History.drop
    split <;> rfl
  unfold Rate.tearDown History.tearDown
  rw [h.counts hclock, h.standsAlone hclock, h.endedOnPurpose hclock]
  split
  · exact
      { hdrop with
        losses := by rw [Rate.lose, hdrop.losses, hlosses, pushTime_kept (by decide)]
        loss_times := List.forall_mem_cons.2 ⟨⟨Nat.le_refl _, hturn⟩, h.loss_times⟩ }
  · exact hdrop

theorem Matches.leave (h : Matches past r clock limit) (hclock : clock < limit)
    (hturn : limit ≤ clock + 2 ^ 32) (busy : Bool) :
    Matches (past.leave clock busy) (r.leave busy (reading clock)) clock limit :=
  { h.drop hclock hturn busy with
    losses := by simp [Rate.leave, History.leave]
    loss_times := List.forall_mem_nil _ }

/-- Closing a window that is over changes nothing. -/
theorem Matches.lapse (h : Matches past r clock limit) (hclock : clock < limit) :
    Matches past (r.lapse (reading clock)) clock limit :=
  { h with
    woke := fun _ hnow hlimit ↦ recently_closed h.woke hclock hnow hlimit
    changed := fun _ hnow hlimit ↦ recently_closed h.changed hclock hnow hlimit }

theorem Matches.sleep (h : Matches past r clock limit) (hturn : limit ≤ clock + 2 ^ 32)
    (asleep : Bool) :
    Matches (past.sleep clock asleep) (r.sleep asleep (reading clock)) clock limit :=
  { h with
    asleep := rfl
    woke := by
      intro now hnow hlimit
      have hwoke := h.woke now hnow hlimit
      unfold Rate.sleep History.sleep
      rw [h.asleep]
      cases past.asleep && !asleep with
      | false => exact hwoke
      | true => exact recently_opened hnow (by omega) }

/-- A change of identity is seen as one. -/
theorem Matches.otherIdentity (h : Matches past r clock limit) (which : DeviceIdentity) :
    past.seen.any (· ≠ which) = r.otherIdentity which := by
  rw [h.seen]
  unfold Rate.otherIdentity
  cases r.everSawDevice with
  | false => rfl
  | true =>
      simp only [if_true, Option.any_some, Bool.true_and]
      cases r.lastDeviceIdentity <;> cases which <;> rfl

/-- What the identity of an appearing device does to the rate it left. -/
def Rate.identify (r : Rate) (which : DeviceIdentity) (now : UInt32) : Rate where
  recentDrops := if r.otherIdentity which then [] else r.recentDrops
  recentSessionLosses := r.recentSessionLosses
  identityChangedAt := if r.otherIdentity which then now else r.identityChangedAt
  identityChanged := r.otherIdentity which || r.identityChanged
  hostWokeAt := r.hostWokeAt
  hostAsleep := r.hostAsleep
  hostWoke := r.hostWoke
  everSawDevice := true
  lastDeviceIdentity := which
  configMode := which = .configMode

/-- A device whose channels have to be opened may leave first. -/
theorem Rate.appear_opens (r : Rate) {holding : Bool} {which : DeviceIdentity}
    (hopens : ¬(which = .configMode ∧ r.configMode ∧ holding)) (busy : Bool) (now : UInt32) :
    r.appear holding busy which now =
      (if which = .configMode ∨ r.configMode then r.leave busy now else r).identify which now := by
  unfold Rate.appear
  rw [if_neg hopens]
  split
  · unfold Rate.leave Rate.drop
    have hcounts : Rate.counts { r with everSawDevice := true, lastDeviceIdentity := which } busy
      now =
        r.counts busy now := rfl
    rw [hcounts]
    split <;> rfl
  · rfl

theorem Matches.identify (h : Matches past r clock limit) (hturn : limit ≤ clock + 2 ^ 32)
    (which : DeviceIdentity) :
    Matches (past.appear clock which) (r.identify which (reading clock)) clock limit := by
  have hother := h.otherIdentity which
  unfold History.appear
  rw [hother]
  unfold Rate.identify
  have hmode : decide (which = .configMode) = true → some which = some .configMode := by
    intro hconfig
    rw [of_decide_eq_true hconfig]
  cases r.otherIdentity which with
  | true =>
      exact
        { drops := by simp
          losses := h.losses
          asleep := h.asleep
          woke := h.woke
          changed := fun now hnow hlimit ↦ recently_opened hnow (by omega)
          seen := rfl
          config := hmode
          drop_times := List.forall_mem_nil _
          loss_times := h.loss_times }
  | false =>
      exact
        { drops := h.drops
          losses := h.losses
          asleep := h.asleep
          woke := h.woke
          changed := h.changed
          seen := rfl
          config := hmode
          drop_times := h.drop_times
          loss_times := h.loss_times }

/-- A device appears, and may leave first. -/
theorem Matches.appear (h : Matches past r clock limit) (hclock : clock < limit)
    (hturn : limit ≤ clock + 2 ^ 32) (holding busy : Bool) (which : DeviceIdentity) :
    Matches
      ((if (which = .configMode || r.configMode) &&
        !(which = .configMode && r.configMode && holding)
        then past.leave clock busy else past).appear clock which)
      (r.appear holding busy which (reading clock)) clock limit := by
  by_cases hholds : which = .configMode ∧ r.configMode ∧ holding
  · -- the channels of the config mode are held: it has been seen already
    obtain ⟨rfl, hconfig, hheld⟩ := hholds
    have hseen := h.config hconfig
    have happears : past.appear clock .configMode = { past with seen := some .configMode } := by
      unfold History.appear
      rw [hseen]
      rfl
    have hstays : (if (decide (DeviceIdentity.configMode = .configMode) || r.configMode) &&
        !(decide (DeviceIdentity.configMode = .configMode) && r.configMode && holding)
          then past.leave clock busy else past).appear clock .configMode =
        { past with seen := some .configMode } := by
      rw [hconfig, hheld]
      exact happears
    have hshown : r.appear holding busy .configMode (reading clock) =
        { r with everSawDevice := true, lastDeviceIdentity := .configMode } :=
      if_pos ⟨rfl, hconfig, hheld⟩
    rw [hstays, hshown]
    exact { h with seen := rfl, config := fun _ ↦ rfl }
  · rw [Rate.appear_opens r hholds]
    refine Matches.identify ?_ hturn which
    have hleaves : ((which = .configMode || r.configMode) &&
        !(which = .configMode && r.configMode && holding)) =
          decide (which = .configMode ∨ r.configMode) := by
      revert hholds
      cases which <;> cases r.configMode <;> cases holding <;> decide
    rw [hleaves]
    simp only [decide_eq_true_eq]
    split
    · exact h.leave hclock hturn busy
    · exact h

/-- A ring that is full goes by the oldest of its times. -/
theorem rateReached_kept {cap : Nat} (hcap : 0 < cap) {times : List Nat} {now : Nat}
    (htimes : ∀ time ∈ times, time ≤ now ∧ now < time + 2 ^ 32) (window : UInt32) :
    rateReached ((kept cap times).map reading) cap window (reading now) =
      times[cap - 1]?.any fun time ↦ now - time ≤ window.toNat := by
  unfold rateReached
  rw [List.length_map, length_kept]
  by_cases hfull : cap ≤ times.length
  · obtain ⟨oldest, holdest⟩ : ∃ oldest, times[cap - 1]? = some oldest :=
      ⟨_, List.getElem?_eq_getElem (by omega)⟩
    obtain ⟨hbefore, hturn⟩ := htimes oldest (List.mem_of_getElem? holdest)
    have hhead : ((kept cap times).map reading).headD 0 = reading oldest := by
      rw [List.headD_eq_head?_getD, List.head?_map, head?_kept hcap hfull, holdest]
      rfl
    rw [if_neg (by omega), hhead, holdest, Option.any_some]
    exact decide_eq_decide.2 (elapsed_le hbefore hturn)
  · rw [if_pos (by omega), List.getElem?_eq_none (by omega)]
    rfl

theorem Matches.repeatedly {h : Helper} (hmatches : Matches past h.rate clock limit)
    (hclock : clock < limit) :
    h.reconnectingRepeatedly (reading clock) = past.repeatedly clock := by
  have hdrops := rateReached_kept (show 0 < reconnectLimit by decide)
    (fun time htime ↦ ⟨(hmatches.drop_times time htime).1, by
      have := (hmatches.drop_times time htime).2
      omega⟩) reconnectWindowMs
  have hlosses := rateReached_kept (show 0 < sessionLossLimit by decide)
    (fun time htime ↦ ⟨(hmatches.loss_times time htime).1, by
      have := (hmatches.loss_times time htime).2
      omega⟩) sessionLossWindowMs
  rw [← hmatches.drops] at hdrops
  rw [← hmatches.losses] at hlosses
  exact congrArg₂ or hdrops hlosses

end Steps

/-! ## Runs -/

theorem matches_init (boardPublicKey : Option (List UInt8)) (clock limit : Nat) :
    Matches {} (init boardPublicKey).rate clock limit := by
  have hrate : (init boardPublicKey).rate = rate {} := by cases boardPublicKey <;> rfl
  rw [hrate]
  exact
    { drops := by simp [rate]
      losses := by simp [rate]
      asleep := rfl
      woke := fun _ _ _ ↦ rfl
      changed := fun _ _ _ ↦ rfl
      seen := rfl
      config := nofun
      drop_times := List.forall_mem_nil _
      loss_times := List.forall_mem_nil _ }

/-- A call keeps the rings the newest few of the history. -/
theorem matches_step (identity : Identity) {h : Helper} {past : History} {clock limit : Nat}
    (hmatches : Matches past h.rate clock limit) {dated : Dated} (horder : clock ≤ dated.time)
    (hlimit : dated.time < limit) (hturn : limit ≤ dated.time + 2 ^ 32) :
    Matches (past.step identity leaves h dated) (h.call identity dated.call).rate dated.time
      limit := by
  have hmatches := hmatches.mono horder
  cases dated with
  | emit time type flags body cap =>
      show Matches past (h.emit type flags body cap).2.rate time limit
      rw [rate_emit]
      exact hmatches
  | input now event =>
      show Matches _ (h.handle identity (reading now) event).h.rate now limit
      cases hreports : event.reports with
      | true =>
          -- what the platform reports tears nothing down
          have htorn : h.tearsDown identity (reading now) event = none :=
            tearsDown_of_reports identity h (reading now) hreports
          unfold History.step
          dsimp only
          rw [htorn]
          cases event with
          | deviceAppeared which =>
              have happears := hmatches.appear hlimit hturn h.holdingChannels h.busy which
              rw [← Turn.rate_deviceAppeared { h := h }] at happears
              exact happears
          | deviceDisappeared =>
              have hleft := hmatches.leave hlimit hturn h.busy
              show Matches _ (Turn.deviceDisappeared { h := h } (reading now)).h.rate now limit
              rw [Turn.rate_deviceDisappeared]
              exact { hleft with config := nofun }
          | hostSleep asleep =>
              show Matches _ (Turn.hostSleep { h := h } asleep (reading now)).h.rate now limit
              rw [Turn.rate_hostSleep]
              exact hmatches.sleep hturn asleep
          | _ => cases hreports
      | false =>
          obtain ⟨r, hlapsed, hrate⟩ := rate_handle identity h (reading now) hreports
          have hstart : Matches past r now limit := by
            rcases hlapsed with rfl | rfl
            · exact hmatches
            · exact hmatches.lapse hlimit
          have htorn : Matches
              (past.tornDown now h.busy (h.tearsDown identity (reading now) event))
              (r.tornDown h.busy (h.tearsDown identity (reading now) event) (reading now)) now
              limit := by
            cases h.tearsDown identity (reading now) event with
            | none => exact hstart
            | some torn => exact hstart.tearDown hlimit hturn h.busy torn.1 torn.2
          rw [← hrate] at htorn
          unfold History.step
          dsimp only
          generalize past.tornDown now h.busy (h.tearsDown identity (reading now) event) =
            torn at htorn
          generalize (h.handle identity (reading now) event).h.rate = after at htorn
          cases event with
          | deviceAppeared | deviceDisappeared | hostSleep => cases hreports
          | _ => exact htorn

/-- A run keeps them so, up to the moment the rate is asked for. -/
theorem matches_run (identity : Identity) {dated : List Dated} {now clock : Nat}
    {seen : Helper × History} (hmatches : Matches seen.2 seen.1.rate clock (now + 1))
    (hordered : (clock :: (dated.map Dated.time ++ [now])).Pairwise (· ≤ ·))
    (hspan : ∀ call ∈ dated, now < call.time + 2 ^ 32) :
    Matches (run (watch identity leaves) seen dated).2
      (run (watch identity leaves) seen dated).1.rate
      now (now + 1) := by
  induction dated generalizing clock seen with
  | nil => exact hmatches.mono (List.rel_of_pairwise_cons hordered (by simp))
  | cons first rest ih =>
      have hrest : (first.time :: (rest.map Dated.time ++ [now])).Pairwise (· ≤ ·) :=
        (List.pairwise_cons.1 hordered).2
      have hbefore : clock ≤ first.time := List.rel_of_pairwise_cons hordered (by simp)
      have hafter : first.time ≤ now := List.rel_of_pairwise_cons hrest (by simp)
      have hturn := hspan first (List.mem_cons_self ..)
      rw [run_cons]
      refine ih (matches_step identity hmatches hbefore (by omega) (by omega)) hrest ?_
      exact fun call hcall ↦ hspan call (List.mem_cons_of_mem _ hcall)

/-- The machine that is watched is the one that takes the calls. -/
theorem watch_fst (identity : Identity) (leaves : Helper → Event → Bool) (seen : Helper × History)
    (dated : List Dated) :
    (run (watch identity leaves) seen dated).1 =
      run (call identity) seen.1 (dated.map Dated.call) := by
  induction dated generalizing seen with
  | nil => rfl
  | cons first rest ih => exact ih _

/-- In every run whose times are in order and less than a turn of the clock apart, the rate reads
true at a moment exactly when the history has the fourth-latest counted drop in the short window or
the third-latest session lost on its own in the long one. -/
theorem repeatedly_eq_history (identity : Identity) (boardPublicKey : Option (List UInt8))
    (dated : List Dated) (now : Nat) (hordered : (dated.map Dated.time ++ [now]).Pairwise (· ≤ ·))
    (hspan : ∀ call ∈ dated, now < call.time + 2 ^ 32) :
    (run (call identity) (init boardPublicKey) (dated.map Dated.call)).reconnectingRepeatedly
        (reading now) =
      (run (watch identity leaves) (init boardPublicKey, {}) dated).2.repeatedly now := by
  have hstart := matches_init boardPublicKey 0 (now + 1)
  have hmatches := @matches_run identity dated now 0 (init boardPublicKey, {}) hstart
    (List.pairwise_cons.2 ⟨fun _ _ ↦ Nat.zero_le _, hordered⟩) hspan
  rw [← watch_fst identity leaves (init boardPublicKey, {})]
  exact hmatches.repeatedly (Nat.lt_succ_self now)

/-- The channels are opened and the transport fails. -/
def failed (opened lost : Nat) : List Dated :=
  [.input opened (.channelsAcquired 1 firstDraw), .input lost .transportFailed]

/-- A device whose transport fails four times within four seconds, over the wrap of the clock. -/
def flapping : List Dated :=
  .input 4294966000 (.deviceAppeared .normal) :: (failed 4294966100 4294966500 ++
    failed 4294966600 4294967200 ++ failed 4294967300 4294968500 ++ failed 4294968600 4294970000)

set_option maxRecDepth 4096 in
/-- Sessions that are lost one after the other across the wrap of the clock are counted. -/
theorem repeatedly_eq_history_flapping :
    (run (call lateIdentity) (init none) (flapping.map Dated.call)).reconnectingRepeatedly
      (reading 4294970500) = true :=
  (repeatedly_eq_history lateIdentity none flapping 4294970500 (by decide) (by decide)).trans
    (by decide)

/-- The device disappears, or its config mode is entered or left. -/
def entersOrExits (h : Helper) : Event → Bool
  | .deviceDisappeared => true
  | .deviceAppeared which => decide (which = .configMode) != h.configMode
  | _ => false

/-- In config mode three sessions are lost on their own, and then the device is reported once more,
in the mode it is in. -/
def remarked : List Dated :=
  .input 0 (.deviceAppeared .configMode) :: (failed 100 40000 ++ failed 41000 80000 ++
    failed 81000 120000 ++ [.input 120500 (.deviceAppeared .configMode)])

set_option maxRecDepth 4096 in
/-- The repeated report makes the machine forget the sessions lost, though the device neither
disappeared nor entered or left its config mode. -/
theorem repeated_report_forgets_losses :
    (run (watch lateIdentity entersOrExits) (init none, {}) remarked).2.repeatedly 121000 = true ∧
      (run (call lateIdentity) (init none) (remarked.map Dated.call)).reconnectingRepeatedly
        (reading 121000) = false := by
  decide

end DeskhopPlus.Helper
