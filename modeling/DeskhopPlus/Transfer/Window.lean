import DeskhopPlus.Transfer.Fidelity
import DeskhopPlus.Transfer.Flow

/-!
# The window of a transfer

Two machines on lines keep the flow of both directions, so the chunks of a direction that are on the
way never exceed the credit window, and neither does one pump. This holds while the ids of the
offers are fresh and nothing disturbs the lines; `window_overrun` shows what an id that comes round
again and a replaced seal do.
-/

namespace DeskhopPlus.Transfer

open Wire Runs

namespace Lines

/-- One direction of two ends. -/
def stream (s : Lines) (copy paste : Side) : Stream where
  course := (s.ends copy).machine.tx.course
  standing := (s.ends paste).machine.rx.standing
  heard := ((s.ends copy).sent.take (s.handled paste)).filter Message.forward
  flight := ((s.ends copy).sent.drop (s.handled paste)).filter Message.forward
  answered := ((s.ends paste).sent.take (s.handled copy)).filter Message.backward
  coming := ((s.ends paste).sent.drop (s.handled copy)).filter Message.backward
  ids := (s.ends copy).ledger.offers.map (·.id)

/-- Both machines are straight and even, and both directions flow. -/
structure Smooth (s : Lines) : Prop where
  straight : ∀ side, (s.ends side).machine.tx.Straight
  even : ∀ side, (s.ends side).machine.rx.Even
  handled : ∀ side, s.handled side ≤ (s.ends side.other).sent.length
  flows : ∀ side, (s.stream side side.other).Flows

variable {s : Lines} {side : Side}

theorem smooth_init (rxBufs : Side → List UInt8) : (Lines.init rxBufs).Smooth where
  straight _ := Outgoing.straight_reset
  even _ := Incoming.even_forget
  handled _ := Nat.le_refl 0
  flows side := by
    refine ⟨⟨List.nodup_nil, nofun, nofun, List.Pairwise.nil⟩, ⟨nofun, nofun, nofun, nofun,
      eachAfter_nil⟩, ⟨nofun, nofun, nofun, nofun, nofun⟩, ⟨nofun, nofun, nofun, nofun, nofun⟩,
      ⟨Nat.zero_le _, nofun⟩⟩

theorem Smooth.flows_other (h : s.Smooth) (side : Side) : (s.stream side.other side).Flows := by
  have hflows := h.flows side.other
  rwa [Side.other_other] at hflows

theorem Smooth.handled_other (h : s.Smooth) (side : Side) :
    s.handled side.other ≤ (s.ends side).sent.length := by
  have hhandled := h.handled side.other
  rwa [Side.other_other] at hhandled

/-- Taking and dropping what has been handled and what is handled now. -/
theorem take_drop_handled {sent told rest : List Message} {count : Nat}
    (h : sent.drop count = told ++ rest) :
    sent.take (count + told.length) = sent.take count ++ told ∧
      sent.drop (count + told.length) = rest := by
  constructor
  · rw [List.take_add, h, List.take_left]
  · rw [← List.drop_drop, h, List.drop_left]

/-- The lines after a turn at one end. -/
def turned (s : Lines) (side : Side) (turn : Turn) (ledger : Ledger) : Lines where
  ends := Function.update s.ends side
    ((s.ends side).after ledger ((s.ends side).machine.turn turn))
  handled := Function.update s.handled side (s.handled side + turn.brings.toList.length)

section Turn

variable {turn : Turn} {ledger : Ledger} {rest : List Message}

/-- The direction that the end copies in. -/
theorem stream_turned_copy (hhandled : s.handled side.other ≤ (s.ends side).sent.length)
    (hrest : (s.ends side.other).sent.drop (s.handled side) = turn.brings.toList ++ rest) :
    (s.turned side turn ledger).stream side side.other =
      { (s.stream side side.other).sends ((s.ends side).machine.turn turn).1.tx.course
          (forwards ((s.ends side).machine.turn turn)) (turn.brings.filter Message.backward)
          (rest.filter Message.backward) with
        ids := ledger.offers.map (·.id) } := by
  have hother := Side.other_ne side
  obtain ⟨htake, hdrop⟩ := take_drop_handled hrest
  unfold stream turned Stream.sends
  simp only [Function.update_self, Function.update_of_ne hother, Endpoint.after, htake, hdrop]
  rw [List.take_append_of_le_length hhandled, List.drop_append_of_le_length hhandled,
    List.filter_append, List.filter_append, Option.toList_filter]
  rfl

/-- The direction that the end pastes in. -/
theorem stream_turned_paste (hhandled : s.handled side.other ≤ (s.ends side).sent.length)
    (hrest : (s.ends side.other).sent.drop (s.handled side) = turn.brings.toList ++ rest) :
    (s.turned side turn ledger).stream side.other side =
      (s.stream side.other side).answers ((s.ends side).machine.turn turn).1.rx.standing
        (backwards ((s.ends side).machine.turn turn)) (turn.brings.filter Message.forward)
        (rest.filter Message.forward) := by
  have hother := Side.other_ne side
  obtain ⟨htake, hdrop⟩ := take_drop_handled hrest
  unfold stream turned Stream.answers
  simp only [Function.update_self, Function.update_of_ne hother, Endpoint.after, htake, hdrop]
  rw [List.take_append_of_le_length hhandled, List.drop_append_of_le_length hhandled,
    List.filter_append, List.filter_append, Option.toList_filter]
  rfl

/-- What a turn brings from the copy side stands first on that line. -/
theorem flight_stream_paste
    (hrest : (s.ends side.other).sent.drop (s.handled side) = turn.brings.toList ++ rest) :
    (s.stream side.other side).flight =
      (turn.brings.filter Message.forward).toList ++ rest.filter Message.forward := by
  show ((s.ends side.other).sent.drop (s.handled side)).filter Message.forward = _
  rw [hrest, List.filter_append, Option.toList_filter]

/-- What a turn brings from the paste side stands first on that line. -/
theorem coming_stream_copy
    (hrest : (s.ends side.other).sent.drop (s.handled side) = turn.brings.toList ++ rest) :
    (s.stream side side.other).coming =
      (turn.brings.filter Message.backward).toList ++ rest.filter Message.backward := by
  show ((s.ends side.other).sent.drop (s.handled side)).filter Message.backward = _
  rw [hrest, List.filter_append, Option.toList_filter]

/-- A turn on smooth lines brings no request for a chunk again. -/
theorem Smooth.unrepeated (h : s.Smooth)
    (hrest : (s.ends side.other).sent.drop (s.handled side) = turn.brings.toList ++ rest)
    (id : UInt32) (seq : Nat) : turn.brings ≠ some (.retransmit id seq) := by
  intro hbrings
  refine (h.flows side).granting.unrepeated id seq (List.mem_append_right _ ?_)
  rw [coming_stream_copy hrest, hbrings, Option.filter_some_pos rfl]
  exact List.mem_cons_self

/-- A chunk that comes on smooth lines is intact where it is awaited. -/
theorem Smooth.accepts (h : s.Smooth)
    (hrest : (s.ends side.other).sent.drop (s.handled side) = turn.brings.toList ++ rest)
    (chunk : ClipChunk) (hbrings : turn.brings = some (.chunk chunk))
    (hawaits : (s.ends side).machine.rx.standing.Awaits chunk) :
    (s.ends side).machine.rx.Accepts chunk := by
  have hline : .chunk chunk ∈ (s.stream side.other side).line := by
    refine List.mem_append_right _ ?_
    rw [flight_stream_paste hrest]
    exact List.mem_append_left _ (Stream.told_mem hbrings rfl)
  obtain ⟨-, hcount, hcut⟩ := (h.flows_other side).awaits hawaits.active hline hawaits.id.symm
  refine ⟨?_, hcut.intact⟩
  have hlength := hcut.length
  rw [← hcount] at hlength
  exact hlength

/-- A done that comes on smooth lines comes after all the chunks of the transfer that arrives. -/
theorem Smooth.complete (h : s.Smooth)
    (hrest : (s.ends side.other).sent.drop (s.handled side) = turn.brings.toList ++ rest)
    (id : UInt32) (hbrings : turn.brings = some (.done id))
    (hactive : (s.ends side).machine.rx.active = true)
    (hid : (s.ends side).machine.rx.id = id) :
    (s.ends side).machine.rx.nchunks ≤ (s.ends side).machine.rx.nreceived := by
  have hflows := h.flows_other side
  obtain ⟨offer, hoffer, hknown, -, hcount⟩ := hflows.heeded.known (hflows.heeded.seen hactive)
  have hsplit : (s.stream side.other side).line =
      (s.stream side.other side).heard ++ .done id :: rest.filter Message.forward := by
    unfold Stream.line
    rw [flight_stream_paste hrest, hbrings, Option.filter_some_pos rfl]
    rfl
  have hdone := hflows.spoken.dones _ _ _ hsplit id rfl offer hoffer (hknown.trans hid)
  have hall : Finset.range (s.ends side).machine.rx.nchunks ⊆
      (s.ends side).machine.rx.received := by
    intro seq hseq
    have hinside : seq < chunkCount offer.total := by
      rw [← hcount]
      exact Finset.mem_range.1 hseq
    obtain ⟨chunk, hchunk, hnames, hnumber⟩ := hdone seq hinside
    have hstored := hflows.heeded.stored hactive chunk hchunk (hnames.trans hid.symm)
    rw [hnumber] at hstored
    exact hstored
  have hcard := Finset.card_le_card hall
  rw [Finset.card_range] at hcard
  exact hcard.trans (Nat.le_of_eq (h.even side).count.symm)

/-- The ledger and the machine of an end after a turn agree on whether there was an offer. -/
structure Recorded (e : Endpoint) (turn : Turn) (ledger : Ledger) : Prop where
  kept : turn.offers = false → ledger.offers.map (·.id) = e.ledger.offers.map (·.id)
  offered : turn.offers = true → e.machine.nextId ∉ e.ledger.offers.map (·.id) ∧
    ledger.offers.map (·.id) = e.ledger.offers.map (·.id) ++ [e.machine.nextId]

theorem Smooth.turned (h : s.Smooth) (hundisturbed : turn.undisturbed = true)
    (hmeets : ∀ call cap, turn = .call call cap → call.Meets (s.ends side).machine)
    (hrecorded : Recorded (s.ends side) turn ledger)
    (hrest : (s.ends side.other).sent.drop (s.handled side) = turn.brings.toList ++ rest) :
    (s.turned side turn ledger).Smooth := by
  have hother := Side.other_ne side
  have hanswering : Answering (s.ends side).machine turn ((s.ends side).machine.turn turn) :=
    answering_turn (h.straight side) (h.even side) hundisturbed
      (fun chunk hbrings hawaits ↦ h.accepts hrest chunk hbrings hawaits)
      (fun id hbrings hactive _ hid ↦ h.complete hrest id hbrings hactive hid)
  -- the stream this end copies to the other: its messages, or one new offer
  have hcopy : ((s.ends side).machine.turn turn).1.tx.Straight ∧
      ((s.turned side turn ledger).stream side side.other).Flows := by
    rw [stream_turned_copy (h.handled_other side) hrest]
    cases hoffers : turn.offers with
    | false =>
        have hcourses := courses_turn (h.straight side) hoffers hmeets
          (fun id seq ↦ h.unrepeated hrest id seq)
        refine ⟨hcourses.straight, ?_⟩
        rw [hrecorded.kept hoffers]
        exact (h.flows side).sends hcourses.sends (coming_stream_copy hrest)
    | true =>
        obtain ⟨hfresh, hids⟩ := hrecorded.offered hoffers
        rw [hids]
        cases turn with
        | message => cases hoffers
        | call call cap =>
            cases call with
            | offer kind metadata hlength data total =>
                obtain ⟨hstraight, hcourse, hnew⟩ := offers_offer (x := (s.ends side).machine) kind
                  metadata hlength data total (hmeets _ _ rfl)
                refine ⟨hstraight, ?_⟩
                have hflows := (h.flows side).offers hnew hfresh
                have hcoming : rest.filter Message.backward = (s.stream side side.other).coming :=
                  (coming_stream_copy hrest).symm
                unfold Stream.sends
                rw [hcoming, show Option.filter Message.backward
                  (Turn.brings (.call (.offer kind metadata hlength data total) cap)) =
                    none from rfl,
                  Option.toList_none, List.append_nil]
                exact hflows
            | _ => cases hoffers
  -- the stream it pastes from: the answers it sends back
  have hpaste : ((s.turned side turn ledger).stream side.other side).Flows := by
    rw [stream_turned_paste (h.handled_other side) hrest]
    exact (h.flows_other side).answers hanswering.answers (flight_stream_paste hrest)
  -- what holds of the end that moved and of the other holds of both
  have hends : ∀ {P : Side → Prop}, P side → P side.other → ∀ each, P each := by
    intro P hside hfar each
    by_cases hsame : each = side
    · exact hsame ▸ hside
    · exact Side.eq_other_of_ne hsame ▸ hfar
  refine ⟨hends ?_ ?_, hends ?_ ?_, hends ?_ ?_, hends hcopy.2 ?_⟩
  · show (Function.update s.ends side _ side).machine.tx.Straight
    rw [Function.update_self]
    exact hcopy.1
  · show (Function.update s.ends side _ side.other).machine.tx.Straight
    rw [Function.update_of_ne hother]
    exact h.straight side.other
  · show (Function.update s.ends side _ side).machine.rx.Even
    rw [Function.update_self]
    exact hanswering.even
  · show (Function.update s.ends side _ side.other).machine.rx.Even
    rw [Function.update_of_ne hother]
    exact h.even side.other
  · show Function.update s.handled side _ side ≤
      (Function.update s.ends side _ side.other).sent.length
    rw [Function.update_self, Function.update_of_ne hother]
    have hlength := congrArg List.length hrest
    rw [List.length_drop, List.length_append] at hlength
    have hhandled := h.handled side
    omega
  · show Function.update s.handled side _ side.other ≤
      (Function.update s.ends side _ side.other.other).sent.length
    rw [Function.update_of_ne hother, Side.other_other, Function.update_self]
    refine (h.handled_other side).trans ?_
    show _ ≤ ((s.ends side).sent ++ _).length
    rw [List.length_append]
    exact Nat.le_add_right _ _
  · rw [Side.other_other]
    exact hpaste

end Turn

/-- The ledger of a call is the ledger of its turn. -/
theorem recorded_call (e : Endpoint) (call : Call) (cap : Nat)
    (hfresh : (Turn.call call cap).offers = true →
      e.machine.nextId ∉ e.ledger.offers.map (·.id)) :
    Recorded e (.call call cap) (e.ledger.record e.machine call) := by
  cases call with
  | offer =>
      refine ⟨nofun, fun _ ↦ ⟨hfresh rfl, ?_⟩⟩
      show (e.ledger.offers ++ [_]).map _ = _
      rw [List.map_append]
      rfl
  | provide data =>
      refine ⟨fun _ ↦ ?_, nofun⟩
      unfold Ledger.record
      simp only
      split <;> rfl
  | _ => exact ⟨fun _ ↦ rfl, nofun⟩

/-- Every undisturbed step keeps the lines smooth. -/
theorem Smooth.step (h : s.Smooth) (event : LineEvent) (hstep : s.Undisturbed event) :
    (s.step event).Smooth := by
  cases event with
  | call side call cap =>
      obtain ⟨hundisturbed, hfresh⟩ := hstep
      by_cases hmeets : call.Meets (s.ends side).machine
      · have hrecorded : Recorded (s.ends side) (.call call cap)
            ((s.ends side).ledger.record (s.ends side).machine call) := by
          refine recorded_call _ call cap fun hoffers ↦ ?_
          cases call with
          | offer =>
              intro hmem
              obtain ⟨offer, hoffer, hid⟩ := List.mem_map.1 hmem
              exact hfresh offer hoffer hid
          | _ => cases hoffers
        have hturned := h.turned hundisturbed
          (fun other _ hsame ↦ by cases hsame; exact hmeets) hrecorded rfl
        have heq : s.step (.call side call cap) = s.turned side (.call call cap)
            ((s.ends side).ledger.record (s.ends side).machine call) := by
          unfold Lines.step Lines.turned transferStep
          simp only [if_pos hmeets]
          congr 1
          exact (Function.update_eq_self side s.handled).symm
        rw [heq]
        exact hturned
      · -- a call its caller may not make changes nothing
        have heq : s.step (.call side call cap) = s := by
          unfold Lines.step transferStep
          simp only [if_neg hmeets]
        rw [heq]
        exact h
  | deliver side lazy cap =>
      by_cases hmore : s.handled side < (s.ends side.other).sent.length
      · have hmessage : (s.ends side.other).sent[s.handled side]? =
            some ((s.ends side.other).sent[s.handled side]) := List.getElem?_eq_getElem hmore
        have hrest : (s.ends side.other).sent.drop (s.handled side) =
            [(s.ends side.other).sent[s.handled side]] ++
              (s.ends side.other).sent.drop (s.handled side + 1) :=
          List.drop_eq_getElem_cons hmore
        have hturned := @Smooth.turned s side
          (.message ((s.ends side.other).sent[s.handled side]) lazy cap)
            (s.ends side).ledger _ h rfl
          nofun ⟨fun _ ↦ rfl, nofun⟩ hrest
        have heq : s.step (.deliver side lazy cap) =
            s.turned side (.message ((s.ends side.other).sent[s.handled side]) lazy cap)
              (s.ends side).ledger := by
          unfold Lines.step Lines.turned transferStep
          simp only [if_pos hmore, hmessage]
          rfl
        rw [heq]
        exact hturned
      · have heq : s.step (.deliver side lazy cap) = s := if_neg hmore
        rw [heq]
        exact h

/-- The chunks on the way, counted on the line. -/
theorem Smooth.flight_le (h : s.Smooth) (side : Side) :
    (s.flight side).countP Message.isChunk ≤ creditWindow := by
  have hbound := (h.flows side).bounded.flight
  have hsame : ((s.flight side).filter Message.forward).countP Message.isChunk =
      (s.flight side).countP Message.isChunk := by
    rw [List.countP_filter]
    refine List.countP_congr fun message _ ↦ ?_
    cases message <;> simp [Message.isChunk, Message.forward]
  rw [← hsame]
  exact hbound

/-- The chunks and dones of one pump. -/
structure PumpFits (id : UInt32) (acts : List Action) : Prop where
  batch : ∃ seqs : List Nat, ∃ tail, acts = seqs.map (.sendChunk id) ++ tail ∧
    seqs.length ≤ creditWindow ∧ (tail = [] ∨ tail = [.sendDone id])

theorem Smooth.pump_fits (h : s.Smooth) (side : Side) (cap : Nat) :
    PumpFits (s.ends side).machine.tx.id ((s.ends side).machine.pump cap).2 := by
  rcases (pump_straight (h.straight side)).2 with ⟨-, hnone⟩ | hpump
  · exact ⟨[], [], hnone, Nat.zero_le _, .inl rfl⟩
  · obtain ⟨count, tail, hactive, hstreaming, hcredits, -, -, -, hacts, htail⟩ := hpump
    have hwindow := (h.flows side).bounded.window hactive hstreaming
    have hheld : (s.ends side).machine.tx.credits ≤ creditWindow := by
      have hsum : _ + (s.ends side).machine.tx.credits ≤ _ := hwindow
      split at hsum <;> omega
    refine ⟨_, tail, hacts, ?_, htail.imp id And.left⟩
    rw [List.length_range']
    exact hcredits.trans hheld

/-- The flow control window. In every run on lines with fresh offer ids that neither sweeps nor
loses the link nor replaces the seal, at most the credit window of chunks is on the way in either
direction, and one pump sends no more and one done. -/
theorem window_kept (rxBufs : Side → List UInt8) {events : List LineEvent}
    (h : Along Lines.step Undisturbed (Lines.init rxBufs) events) (side : Side) (cap : Nat) :
    ((run Lines.step (Lines.init rxBufs) events).flight side).countP Message.isChunk ≤
        creditWindow ∧
      PumpFits ((run Lines.step (Lines.init rxBufs) events).ends side).machine.tx.id
        (((run Lines.step (Lines.init rxBufs) events).ends side).machine.pump cap).2 := by
  have hsmooth : (run Lines.step (Lines.init rxBufs) events).Smooth :=
    run_invariant_along Smooth (smooth_init rxBufs) (fun _ event h hstep ↦ h.step event hstep) h
  exact ⟨hsmooth.flight_le side, hsmooth.pump_fits side cap⟩

instance (s : Lines) (event : LineEvent) : Decidable (s.Undisturbed event) :=
  match event with
  | .call side call cap => inferInstanceAs
      (Decidable ((Turn.call call cap).undisturbed = true ∧
        FreshOffer s.ends (.call side call cap)))
  | .deliver .. => .isTrue trivial

/-- An offer of three chunks, repeated before it is heard, and both requests for it. -/
def repeatedOffer : List LineEvent :=
  [.call .a (.offer 0 [] noMetadata_fits (some (List.replicate 2049 0)) 2049) 18,
    .call .a .retryOffer 18,
    .deliver .b false 18, .deliver .b false 18, .deliver .a false 18, .deliver .a false 18]

set_option maxRecDepth 20000 in
/-- An offer that was repeated keeps three chunks on the way, which is within the window. -/
theorem window_kept_repeated :
    ((run Lines.step (Lines.init fun _ ↦ List.replicate 2049 0)
        (repeatedOffer ++ [.call .a .pump 18])).flight .a).countP Message.isChunk = 3 ∧
      ((run Lines.step (Lines.init fun _ ↦ List.replicate 2049 0)
        (repeatedOffer ++ [.call .a .pump 18])).flight .a).countP Message.isChunk ≤ creditWindow :=
  ⟨by decide, (window_kept _ (by decide) .a 18).1⟩

/-! ## What overruns the window -/

/-- The seal is replaced after a transfer was asked for, its second offer is held back, and the
chunks that were asked for come and are not taken. Each done then asks for all of them. -/
def sealRun : List LineEvent :=
  [.call .a (.offer 0 [] noMetadata_fits (some (List.replicate 2049 0)) 2049) 18,
    .call .a .retryOffer 18,
    .deliver .b false 18, .call .b .rxSealReplaced 18, .deliver .b true 18, .deliver .a false 18,
    .deliver .a false 18, .call .a .pump 18, .call .a .retryDone 18, .deliver .b false 18,
    .deliver .b false 18, .deliver .b false 18, .call .b (.requestLazy 1) 18, .deliver .b false 18,
    .deliver .b false 18, .deliver .a false 18, .deliver .a false 18, .deliver .a false 18,
    .deliver .a false 18, .deliver .a false 18, .deliver .a false 18, .call .a .pump 18,
    .deliver .a false 18, .deliver .a false 18, .deliver .a false 18, .deliver .a false 18,
    .call .a .pump 18]

/-- An offer that finds no room for its message. -/
def mutedOffer : LineEvent := .call .a (.offer 0 [] noMetadata_fits none 0) 0

/-- Three chunks are on the way when the ids come round to the same one, and the second request for
it starts it again. -/
def wrapRun : List LineEvent :=
  repeatedOffer.take 4 ++ [.deliver .a false 18, .deliver .a false 18, .call .a .pump 18] ++
    List.replicate (2 ^ 32 - 3) mutedOffer ++
    [mutedOffer, .call .a (.offer 0 [] noMetadata_fits (some (List.replicate 2049 0)) 2049) 0,
      .deliver .a false 18, .deliver .a false 18, .call .a .pump 18]

/-- The lines without what the callers have recorded. -/
def bare (s : Lines) : Lines where
  ends side := { s.ends side with ledger := { offers := [], payloads := [] } }
  handled := s.handled

/-- A step without the record of it. -/
def bareStep (s : Lines) (event : LineEvent) : Lines := (s.step event).bare

/-- The record decides nothing. -/
theorem bare_step (s : Lines) (event : LineEvent) :
    (s.step event).bare = s.bare.bareStep event := by
  cases event with
  | call side call cap =>
      unfold bareStep bare Lines.step transferStep
      by_cases hmeets : call.Meets (s.ends side).machine
      · simp only [if_pos hmeets]
        congr 1
        funext each
        by_cases hsame : each = side
        · subst hsame
          simp only [Function.update_self]
          rfl
        · simp only [Function.update_of_ne hsame]
      · simp only [if_neg hmeets]
  | deliver side lazy cap =>
      unfold bareStep bare Lines.step transferStep
      by_cases hmore : s.handled side < (s.ends side.other).sent.length
      · simp only [if_pos hmore, List.getElem?_eq_getElem hmore]
        congr 1
        funext each
        by_cases hsame : each = side
        · subst hsame
          simp only [Function.update_self]
          rfl
        · simp only [Function.update_of_ne hsame]
      · simp only [if_neg hmore]

theorem bare_run (s : Lines) (events : List LineEvent) :
    (run Lines.step s events).bare = run bareStep s.bare events := by
  induction events generalizing s with
  | nil => rfl
  | cons event rest ih =>
      rw [run_cons, run_cons, ih, bare_step]

/-- The first end after it has muted an offer and then so many more. -/
def muted (s : Lines) (count : Nat) : Lines where
  ends := Function.update s.ends .a
    { s.ends .a with
      machine :=
        { (s.ends .a).machine with
          tx := { Outgoing.reset with
            active := true, id := UInt32.ofNat ((s.ends .a).machine.nextId.toNat + count) }
          nextId := UInt32.ofNat ((s.ends .a).machine.nextId.toNat + count + 1) } }
  handled := s.handled

theorem step_muted (s : Lines) (hnext : (s.ends .a).machine.nextId.toNat + 1 < 2 ^ 32) :
    (s.step mutedOffer).bare = (s.muted 0).bare := by
  have hid : UInt32.ofNat ((s.ends .a).machine.nextId.toNat + 0) = (s.ends .a).machine.nextId := by
    rw [Nat.add_zero, UInt32.ofNat_toNat]
  have hsucc : UInt32.ofNat ((s.ends .a).machine.nextId.toNat + 0 + 1) =
      (s.ends .a).machine.nextId + 1 := by
    rw [Nat.add_zero, UInt32.ofNat_add, UInt32.ofNat_toNat]
    rfl
  have hpos : (s.ends .a).machine.nextId + 1 ≠ 0 := by
    intro hzero
    have hnat := congrArg UInt32.toNat hzero
    rw [UInt32.toNat_add, UInt32.toNat_one, UInt32.toNat_zero, Nat.mod_eq_of_lt hnext] at hnat
    omega
  have hmeets : Call.Meets (s.ends .a).machine (.offer 0 [] noMetadata_fits none 0) := nofun
  unfold mutedOffer Lines.step transferStep muted bare
  simp only [if_pos hmeets, hid, hsucc]
  congr 1
  funext each
  cases each with
  | a =>
      simp only [Function.update_self, Endpoint.after, Xfer.perform, Xfer.offer, if_neg hpos, emit,
        List.length_nil, Nat.lt_irrefl, if_false, List.filterMap_nil, List.append_nil]
      rfl
  | b => rfl

theorem muted_muted (s : Lines) (count : Nat)
    (hcount : (s.ends .a).machine.nextId.toNat + count + 1 < 2 ^ 32) :
    (s.muted count).muted 0 = s.muted (count + 1) := by
  have hnext : (UInt32.ofNat ((s.ends .a).machine.nextId.toNat + count + 1)).toNat =
      (s.ends .a).machine.nextId.toNat + count + 1 := by
    rw [UInt32.toNat_ofNat', Nat.mod_eq_of_lt hcount]
  unfold muted
  simp only [Function.update_self, Function.update_idem, hnext]
  rfl

theorem run_muted (s : Lines) (count : Nat)
    (hcount : (s.ends .a).machine.nextId.toNat + count + 1 < 2 ^ 32) :
    (run Lines.step s (List.replicate (count + 1) mutedOffer)).bare = (s.muted count).bare := by
  induction count with
  | zero => exact step_muted s hcount
  | succ count ih =>
      have hnext : ((s.muted count).ends .a).machine.nextId.toNat + 1 < 2 ^ 32 := by
        show (UInt32.ofNat _).toNat + 1 < _
        rw [UInt32.toNat_ofNat', Nat.mod_eq_of_lt (by omega)]
        omega
      rw [List.replicate_succ', run_snoc, bare_step, ih (by omega), ← bare_step,
        step_muted _ hnext, muted_muted s count (by omega)]

set_option maxRecDepth 20000 in
/-- Three chunks of each of the two transfers that bear the first id. -/
theorem wrap_overrun : ((run Lines.step (Lines.init fun _ ↦ List.replicate 2049 0) wrapRun).flight
    .a).countP Message.isChunk = 6 := by
  have hbare : ∀ s : Lines, (s.flight .a).countP Message.isChunk =
      (s.bare.flight .a).countP Message.isChunk := fun _ ↦ rfl
  have hcount : 2 ^ 32 - 3 = (2 ^ 32 - 4) + 1 := rfl
  unfold wrapRun
  rw [hbare, run_append, run_append, bare_run, hcount, run_muted _ _ (by decide)]
  decide

set_option maxRecDepth 20000 in
theorem seal_overrun : ((run Lines.step (Lines.init fun _ ↦ List.replicate 2049 0) sealRun).flight
    .a).countP Message.isChunk = 6 := by
  decide

/-- Twice the window is on the way after an id has come round, and after a seal was replaced. -/
theorem window_overrun :
    creditWindow < ((run Lines.step (Lines.init fun _ ↦ List.replicate 2049 0) wrapRun).flight
        .a).countP Message.isChunk ∧
      creditWindow < ((run Lines.step (Lines.init fun _ ↦ List.replicate 2049 0) sealRun).flight
        .a).countP Message.isChunk := by
  rw [wrap_overrun, seal_overrun]
  decide

end Lines

end DeskhopPlus.Transfer
