import DeskhopPlus.Transfer.Lines
import Mathlib.Data.List.Nodup

/-!
# The flow of one direction

One direction of two machines on lines: the course of the copy side, the standing of the paste side,
and the line each way as what the far end has handled and what is on the way. `Flows` holds however
the two ends take their turns. Its part `Bounded` is the conservation law behind the window: the
chunks on the way, the credits on the way back and the credits held never exceed it.
-/

namespace DeskhopPlus.Transfer

open Wire Runs

/-- One direction. `heard` and `flight` are the line of the copy side, `answered` and `coming` the
line of the paste side. -/
structure Stream where
  course : Course
  standing : Standing
  heard : List Message
  flight : List Message
  answered : List Message
  coming : List Message
  ids : List UInt32

namespace Stream

/-- Everything the copy side has sent. -/
def line (s : Stream) : List Message := s.heard ++ s.flight

/-- Everything the paste side has asked for. -/
def back (s : Stream) : List Message := s.answered ++ s.coming

/-- A chunk with this number stands among these messages. -/
def Carries (messages : List Message) (id : UInt32) (seq : Nat) : Prop :=
  ∃ chunk, .chunk chunk ∈ messages ∧ chunk.id = id ∧ chunk.seq.toNat = seq

/-- A done comes after all the chunks of its transfer. -/
def DoneLast (before : List Message) (message : Message) : Prop :=
  ∀ id, message = .done id → ∀ offer, .offer offer ∈ before → offer.id = id →
    ∀ seq < chunkCount offer.total, Carries before id seq

/-- The ids of a line come in the order in which they were offered. -/
structure Ordered (s : Stream) : Prop where
  nodup : s.ids.Nodup
  last : s.course.active = true → s.ids.getLast? = some s.course.id
  named : ∀ message ∈ s.line, message.names ∈ s.ids
  ordered : s.line.Pairwise fun earlier later ↦
    s.ids.idxOf earlier.names ≤ s.ids.idxOf later.names

/-- The chunks of a line are those of its offers. -/
structure Spoken (s : Stream) : Prop where
  totals : s.course.active = true → ∀ offer, .offer offer ∈ s.line → offer.id = s.course.id →
    offer.total = s.course.total
  cuts : ∀ chunk, .chunk chunk ∈ s.line → ∀ offer, .offer offer ∈ s.line → offer.id = chunk.id →
    Cut offer.id offer.total chunk.seq.toNat chunk
  unstarted : s.course.active = true → s.course.streaming = false → s.course.nextSeq = 0 ∧
    ∀ chunk, .chunk chunk ∈ s.line → chunk.id ≠ s.course.id
  sent : s.course.active = true → s.course.streaming = true → ∀ seq < s.course.nextSeq,
    Carries s.line s.course.id seq
  dones : EachAfter DoneLast s.line

/-- The paste side has stored what it heard of the transfer that arrives. -/
structure Heeded (s : Stream) : Prop where
  seen : s.standing.active = true → s.standing.seenOffer = true
  known : s.standing.seenOffer = true → ∃ offer, .offer offer ∈ s.heard ∧
    offer.id = s.standing.id ∧ offer.total = s.standing.total ∧
    s.standing.nchunks = chunkCount offer.total
  stored : s.standing.active = true → ∀ chunk, .chunk chunk ∈ s.heard →
    chunk.id = s.standing.id → chunk.seq.toNat ∈ s.standing.received
  unasked : s.standing.active = true → s.standing.lazy = true → .request s.standing.id ∉ s.back
  asked : ∀ id, .request id ∈ s.back → s.standing.seenOffer = true ∧
    (∃ offer, .offer offer ∈ s.heard ∧ offer.id = id) ∧
    s.ids.idxOf id ≤ s.ids.idxOf s.standing.id

/-- Chunks go out only where they were asked for, and are granted one by one after the opening. -/
structure Granting (s : Stream) : Prop where
  requested : s.course.active = true → s.course.streaming = true ∨ s.course.pending = true →
    .request s.course.id ∈ s.answered
  chunked : ∀ chunk, .chunk chunk ∈ s.line → .request chunk.id ∈ s.back
  repaid : ∀ id, .credit id 1 ∈ s.back → ∃ chunk, .chunk chunk ∈ s.heard ∧ chunk.id = id
  grants : ∀ id credits, .credit id credits ∈ s.back → credits = 1 ∨ credits = creditWindow
  unrepeated : ∀ id seq, .retransmit id seq ∉ s.back

/-- The chunks that are on the way. -/
def chunks (s : Stream) : Nat := s.flight.countP Message.isChunk

/-- The single credits on the way back. -/
def credits (s : Stream) : Nat := s.coming.count (.credit s.course.id 1)

/-- The window. Before the opening grant arrives nothing is on the way. -/
structure Bounded (s : Stream) : Prop where
  flight : s.chunks ≤ creditWindow
  window : s.course.active = true → s.course.streaming = true →
    s.chunks + s.credits + s.course.credits ≤ if s.course.opened then creditWindow else 0

/-- All that holds of a direction. -/
structure Flows (s : Stream) : Prop where
  ordered : s.Ordered
  spoken : s.Spoken
  heeded : s.Heeded
  granting : s.Granting
  bounded : s.Bounded

/-! ## Ids in order -/

/-- The last id is the newest. -/
theorem idxOf_le_last {ids : List UInt32} {id last : UInt32} (hnodup : ids.Nodup)
    (hlast : ids.getLast? = some last) (hid : id ∈ ids) : ids.idxOf id ≤ ids.idxOf last := by
  obtain ⟨before, rfl⟩ := List.getLast?_eq_some_iff.1 hlast
  have hnew : last ∉ before := by
    intro hmem
    exact (List.nodup_append.1 hnodup).2.2 last hmem last (List.mem_singleton_self _) rfl
  have hlt := List.idxOf_lt_length_of_mem hid
  rw [List.idxOf_append_of_notMem hnew]
  simp at hlt ⊢
  omega

/-- Nothing is newer than the last id. -/
theorem eq_last_of_idxOf_le {ids : List UInt32} {id last : UInt32} (hnodup : ids.Nodup)
    (hlast : ids.getLast? = some last) (hid : id ∈ ids)
    (hle : ids.idxOf last ≤ ids.idxOf id) : id = last :=
  (List.idxOf_inj hid).1 (Nat.le_antisymm (idxOf_le_last hnodup hlast hid) hle)

/-! ## Turns of the copy side -/

section Copy

variable {s : Stream} {turn : Turn} {c : Course} {new : List Message}

/-- A transfer that goes on is the one it was. -/
theorem sends_same {c c' : Course} (h : Sends c turn c' new) (hactive : c'.active = true) :
    c.active = true ∧ c'.id = c.id ∧ c'.total = c.total := by
  cases h with
  | rests => exact ⟨hactive, rfl, rfl⟩
  | resets => cases hactive
  | repeats | probes | waits | starts | pumps => exact ⟨hactive, rfl, rfl⟩
  | credited =>
      unfold Course.granted at hactive ⊢
      split <;> rename_i hopening
      · rw [if_pos hopening] at hactive
        split <;> rename_i hopened
        · rw [if_pos hopened] at hactive
          exact ⟨hactive, rfl, rfl⟩
        · rw [if_neg hopened] at hactive
          exact ⟨hactive, rfl, rfl⟩
      · rw [if_neg hopening] at hactive
        exact ⟨hactive, rfl, rfl⟩

/-- What is sent is about the transfer that goes on. -/
theorem sends_names {c c' : Course} (h : Sends c turn c' new) :
    ∀ message ∈ new, c'.active = true ∧ message.names = c'.id := by
  cases h with
  | rests | resets | waits | starts | credited => nofun
  | repeats hactive _ hid =>
      intro message hmessage
      rw [List.mem_singleton.1 hmessage]
      exact ⟨hactive, hid⟩
  | probes hactive =>
      intro message hmessage
      rw [List.mem_singleton.1 hmessage]
      exact ⟨hactive, rfl⟩
  | pumps hactive _ _ hcut htail =>
      intro message hmessage
      refine ⟨hactive, ?_⟩
      rcases List.mem_append.1 hmessage with hchunk | hdone
      · obtain ⟨seq, hseq, rfl⟩ := List.mem_map.1 hchunk
        exact (hcut seq hseq).names
      · rcases htail with rfl | ⟨rfl, -⟩
        · cases hdone
        · rw [List.mem_singleton.1 hdone]
          rfl

/-- The direction once the copy side has taken a turn. `asked` is what the turn brought from the
paste side. -/
def sends (s : Stream) (c : Course) (new : List Message) (asked : Option Message)
    (rest : List Message) : Stream where
  course := c
  standing := s.standing
  heard := s.heard
  flight := s.flight ++ new
  answered := s.answered ++ asked.toList
  coming := rest
  ids := s.ids

@[simp] theorem line_sends (asked : Option Message) (rest : List Message) :
    (s.sends c new asked rest).line = s.line ++ new :=
  (List.append_assoc ..).symm

theorem back_sends {asked : Option Message} {rest : List Message}
    (h : s.coming = asked.toList ++ rest) : (s.sends c new asked rest).back = s.back := by
  unfold back
  rw [h, ← List.append_assoc]
  rfl

theorem Ordered.sends (h : s.Ordered) (hsends : Sends s.course turn c new)
    (asked : Option Message) (rest : List Message) : (s.sends c new asked rest).Ordered := by
  have hlast : c.active = true → s.ids.getLast? = some c.id := by
    intro hactive
    obtain ⟨hactive', hid, -⟩ := sends_same hsends hactive
    exact hid ▸ h.last hactive'
  have hnames : ∀ message ∈ new, s.ids.getLast? = some message.names := by
    intro message hmessage
    obtain ⟨hactive, hid⟩ := sends_names hsends message hmessage
    exact hid ▸ hlast hactive
  have hmem : ∀ message ∈ new, message.names ∈ s.ids :=
    fun message hmessage ↦ List.mem_of_getLast? (hnames message hmessage)
  refine ⟨h.nodup, hlast, ?_, ?_⟩
  · intro message hmessage
    rw [line_sends] at hmessage
    rcases List.mem_append.1 hmessage with hold | hnew
    · exact h.named message hold
    · exact hmem message hnew
  · rw [line_sends]
    refine List.pairwise_append.2 ⟨h.ordered, ?_, ?_⟩
    · refine List.pairwise_of_forall_mem_list ?_
      intro earlier hearlier later hlater
      exact idxOf_le_last h.nodup (hnames later hlater) (hmem earlier hearlier)
    · intro earlier hearlier later hlater
      exact idxOf_le_last h.nodup (hnames later hlater) (h.named earlier hearlier)

theorem Carries.mono {messages more : List Message} {id : UInt32} {seq : Nat}
    (h : Carries messages id seq) : Carries (messages ++ more) id seq := by
  obtain ⟨chunk, hmem, hfields⟩ := h
  exact ⟨chunk, List.mem_append_left _ hmem, hfields⟩

/-- Messages other than a done may follow anything. -/
theorem doneLast_of_ne {message : Message} (h : ∀ id, message ≠ .done id) (before : List Message) :
    DoneLast before message :=
  fun id heq ↦ absurd heq (h id)

/-- A done may follow the chunks of its transfer. -/
theorem Spoken.doneLast (h : s.Spoken) (hactive : s.course.active = true) {more : List Message}
    (hmore : ∀ offer, .offer offer ∉ more)
    (hall : ∀ seq < chunkCount s.course.total, Carries (s.line ++ more) s.course.id seq) :
    DoneLast (s.line ++ more) (.done s.course.id) := by
  intro id hid offer hoffer hnames
  cases hid
  rcases List.mem_append.1 hoffer with hold | hnew
  · rw [h.totals hactive offer hold hnames]
    exact hall
  · exact absurd hnew (hmore offer)

/-- Nothing new on the line: only the course has moved. -/
theorem Spoken.course (h : s.Spoken) (asked : Option Message) (rest : List Message)
    (htotals : c.active = true → s.course.active = true ∧ c.id = s.course.id ∧
      c.total = s.course.total)
    (hunstarted : c.active = true → c.streaming = false →
      s.course.streaming = false ∧ c.nextSeq = s.course.nextSeq)
    (hsent : c.active = true → c.streaming = true → c.nextSeq = s.course.nextSeq ∧
      (s.course.streaming = false → s.course.nextSeq = 0)) :
    (s.sends c [] asked rest).Spoken := by
  have hline : (s.sends c [] asked rest).line = s.line := by
    rw [line_sends, List.append_nil]
  refine ⟨?_, ?_, ?_, ?_, ?_⟩
  · intro hactive offer hoffer hid
    obtain ⟨hactive', hsame, htotal⟩ := htotals hactive
    rw [hline] at hoffer
    exact (h.totals hactive' offer hoffer (hid.trans hsame)).trans htotal.symm
  · rw [hline]
    exact h.cuts
  · intro hactive hidle
    obtain ⟨hactive', hsame, -⟩ := htotals hactive
    obtain ⟨hidle', hnext⟩ := hunstarted hactive hidle
    obtain ⟨hzero, hnone⟩ := h.unstarted hactive' hidle'
    rw [hline]
    exact ⟨hnext.trans hzero, fun chunk hchunk heq ↦ hnone chunk hchunk (heq.trans hsame)⟩
  · intro hactive hstreaming seq hseq
    obtain ⟨hactive', hsame, -⟩ := htotals hactive
    obtain ⟨hnext, hzero⟩ := hsent hactive hstreaming
    have hlt : seq < s.course.nextSeq := hnext ▸ hseq
    rw [hline]
    show Carries s.line c.id seq
    rw [hsame]
    by_cases hstreaming' : s.course.streaming = true
    · exact h.sent hactive' hstreaming' seq hlt
    · have := hzero (by simpa using hstreaming')
      omega
  · rw [hline]
    exact h.dones

/-- Only the course and the line matter. -/
theorem Spoken.congr {s' : Stream} (h : s.Spoken) (hcourse : s'.course = s.course)
    (hline : s'.line = s.line) : s'.Spoken := by
  refine ⟨?_, ?_, ?_, ?_, ?_⟩
  · rw [hcourse, hline]
    exact h.totals
  · rw [hline]
    exact h.cuts
  · rw [hcourse, hline]
    exact h.unstarted
  · rw [hcourse, hline]
    exact h.sent
  · rw [hline]
    exact h.dones

theorem Spoken.probed (h : s.Spoken) (hactive : s.course.active = true)
    (hstreaming : s.course.streaming = true)
    (hall : chunkCount s.course.total ≤ s.course.nextSeq) (asked : Option Message)
    (rest : List Message) : (s.sends s.course [.done s.course.id] asked rest).Spoken := by
  have hold : ∀ {message}, message ∈ s.line ++ [Message.done s.course.id] →
      message ≠ .done s.course.id → message ∈ s.line := by
    intro message hmem hne
    rcases List.mem_append.1 hmem with hold | hnew
    · exact hold
    · exact absurd (List.mem_singleton.1 hnew) hne
  refine ⟨?_, ?_, ?_, ?_, ?_⟩
  · intro _ offer hoffer hid
    rw [line_sends] at hoffer
    exact h.totals hactive offer (hold hoffer nofun) hid
  · intro chunk hchunk offer hoffer hid
    rw [line_sends] at hchunk hoffer
    exact h.cuts chunk (hold hchunk nofun) offer (hold hoffer nofun) hid
  · intro _ hidle
    exact absurd (hidle.symm.trans hstreaming) Bool.noConfusion
  · intro _ _ seq hseq
    rw [line_sends]
    exact (h.sent hactive hstreaming seq hseq).mono
  · rw [line_sends]
    refine eachAfter_snoc.2 ⟨h.dones, ?_⟩
    have hdone := h.doneLast hactive (fun _ ↦ List.not_mem_nil)
    rw [List.append_nil] at hdone
    exact hdone fun seq hseq ↦ h.sent hactive hstreaming seq (hseq.trans_le hall)

theorem Spoken.pumped (h : s.Spoken) (hactive : s.course.active = true)
    (hstreaming : s.course.streaming = true) {count : Nat} {cut : Nat → ClipChunk}
    (hcut : ∀ seq ∈ List.range' s.course.nextSeq count,
      Cut s.course.id s.course.total seq (cut seq)) (asked : Option Message)
    (rest : List Message) :
    (s.sends (s.course.pumped count)
      ((List.range' s.course.nextSeq count).map fun seq ↦ .chunk (cut seq)) asked rest).Spoken := by
  have hmem : ∀ {message}, message ∈ s.line ++
      ((List.range' s.course.nextSeq count).map fun seq ↦ Message.chunk (cut seq)) →
      message ∈ s.line ∨
        ∃ seq ∈ List.range' s.course.nextSeq count, message = .chunk (cut seq) := by
    intro message hmessage
    rcases List.mem_append.1 hmessage with hold | hnew
    · exact .inl hold
    · obtain ⟨seq, hseq, rfl⟩ := List.mem_map.1 hnew
      exact .inr ⟨seq, hseq, rfl⟩
  have hoffers : ∀ {offer}, Message.offer offer ∈ s.line ++
      ((List.range' s.course.nextSeq count).map fun seq ↦ Message.chunk (cut seq)) →
      .offer offer ∈ s.line := by
    intro offer hoffer
    rcases hmem hoffer with hold | ⟨seq, -, hchunk⟩
    · exact hold
    · cases hchunk
  refine ⟨?_, ?_, ?_, ?_, ?_⟩
  · intro _ offer hoffer hid
    rw [line_sends] at hoffer
    exact h.totals hactive offer (hoffers hoffer) hid
  · intro chunk hchunk offer hoffer hid
    rw [line_sends] at hchunk hoffer
    rcases hmem hchunk with hold | ⟨seq, hseq, heq⟩
    · exact h.cuts chunk hold offer (hoffers hoffer) hid
    · cases heq
      have hnew := hcut seq hseq
      have hsame : offer.id = s.course.id := hid.trans hnew.names
      rw [hsame, h.totals hactive offer (hoffers hoffer) hsame, hnew.numbered]
      exact hnew
  · intro _ hidle
    exact absurd (hidle.symm.trans hstreaming) Bool.noConfusion
  · intro _ _ seq hseq
    rw [line_sends]
    by_cases hold : seq < s.course.nextSeq
    · exact (h.sent hactive hstreaming seq hold).mono
    · have hrange : seq ∈ List.range' s.course.nextSeq count :=
        List.mem_range'_1.2 ⟨Nat.le_of_not_lt hold, hseq⟩
      refine ⟨cut seq, List.mem_append_right _ ?_, (hcut seq hrange).names,
        (hcut seq hrange).numbered⟩
      exact List.mem_map.2 ⟨seq, hrange, rfl⟩
  · rw [line_sends]
    refine h.dones.append fun message hmessage before ↦ ?_
    obtain ⟨seq, -, rfl⟩ := List.mem_map.1 hmessage
    exact doneLast_of_ne (fun _ heq ↦ by cases heq) before

theorem Spoken.sends (h : s.Spoken) (hsends : Sends s.course turn c new)
    (asked : Option Message) (rest : List Message) : (s.sends c new asked rest).Spoken := by
  have htotals := sends_same hsends
  cases hsends with
  | rests =>
      exact h.course asked rest htotals (fun _ hidle ↦ ⟨hidle, rfl⟩)
        (fun hactive _ ↦ ⟨rfl, fun hidle ↦ (h.unstarted hactive hidle).1⟩)
  | resets => exact h.course asked rest htotals nofun nofun
  | waits _ hactive hidle =>
      exact h.course asked rest htotals (fun _ hidle ↦ ⟨hidle, rfl⟩)
        (fun _ _ ↦ ⟨rfl, fun _ ↦ (h.unstarted hactive hidle).1⟩)
  | starts hactive hidle =>
      exact h.course asked rest htotals nofun
        (fun _ _ ↦ ⟨rfl, fun _ ↦ (h.unstarted hactive hidle).1⟩)
  | @credited credits _ hactive =>
      have hsame : (s.course.granted credits).streaming = s.course.streaming ∧
          (s.course.granted credits).nextSeq = s.course.nextSeq := by
        unfold Course.granted
        split
        · split <;> exact ⟨rfl, rfl⟩
        · exact ⟨rfl, rfl⟩
      exact h.course asked rest htotals (fun _ hidle ↦ ⟨hsame.1 ▸ hidle, hsame.2⟩)
        (fun _ _ ↦ ⟨hsame.2, fun hidle ↦ (h.unstarted hactive hidle).1⟩)
  | @repeats offer hactive hidle hid htotal =>
      have hnone := (h.unstarted hactive hidle).2
      have hchunk : ∀ {chunk}, .chunk chunk ∈ s.line ++ [Message.offer offer] →
          .chunk chunk ∈ s.line := by
        intro chunk hmem
        rcases List.mem_append.1 hmem with hold | hnew
        · exact hold
        · cases List.mem_singleton.1 hnew
      refine ⟨?_, ?_, ?_, ?_, ?_⟩
      · intro _ other hother hsame
        rw [line_sends] at hother
        rcases List.mem_append.1 hother with hold | hnew
        · exact h.totals hactive other hold hsame
        · cases List.mem_singleton.1 hnew
          exact htotal
      · intro chunk hmem other hother hsame
        rw [line_sends] at hmem hother
        rcases List.mem_append.1 hother with hold | hnew
        · exact h.cuts chunk (hchunk hmem) other hold hsame
        · cases List.mem_singleton.1 hnew
          exact absurd (hsame.symm.trans hid) (hnone chunk (hchunk hmem))
      · intro _ _
        rw [line_sends]
        exact ⟨(h.unstarted hactive hidle).1, fun chunk hmem ↦ hnone chunk (hchunk hmem)⟩
      · intro _ hstreaming
        exact absurd (hidle.symm.trans hstreaming) Bool.noConfusion
      · rw [line_sends]
        refine h.dones.append fun message hmessage before ↦ ?_
        rw [List.mem_singleton.1 hmessage]
        exact doneLast_of_ne (fun _ heq ↦ by cases heq) before
  | probes hactive hstreaming hall => exact h.probed hactive hstreaming hall asked rest
  | @pumps count cut tail hactive hstreaming hcredits hcut htail =>
      -- the new chunks first, then the done that may follow them
      have hchunks := h.pumped hactive hstreaming hcut asked rest
      rcases htail with rfl | ⟨rfl, hall⟩
      · rw [List.append_nil]
        exact hchunks
      · refine (hchunks.probed hactive hstreaming hall none rest).congr rfl ?_
        rw [line_sends, line_sends, line_sends, List.append_assoc]
        rfl

theorem Heeded.sends (h : s.Heeded) {asked : Option Message} {rest : List Message}
    (hcoming : s.coming = asked.toList ++ rest) : (s.sends c new asked rest).Heeded := by
  refine ⟨h.seen, h.known, h.stored, ?_, ?_⟩
  · rw [back_sends hcoming]
    exact h.unasked
  · rw [back_sends hcoming]
    exact h.asked

/-- What the turn brought from the paste side. -/
theorem asked_mem {message : Message} (h : turn.brings = some message)
    (hbackward : message.backward = true) (answered : List Message) :
    message ∈ answered ++ (turn.brings.filter Message.backward).toList := by
  rw [h, Option.filter_some_pos hbackward]
  exact List.mem_append_right _ (List.mem_singleton_self _)

theorem Granting.sends (h : s.Granting) (hsends : Sends s.course turn c new) {rest : List Message}
    (hcoming : s.coming = (turn.brings.filter Message.backward).toList ++ rest) :
    (s.sends c new (turn.brings.filter Message.backward) rest).Granting := by
  have hback := @back_sends s c new _ _ hcoming
  have hkept : ∀ {message}, message ∈ s.answered →
      message ∈ s.answered ++ (turn.brings.filter Message.backward).toList :=
    fun hmem ↦ List.mem_append_left _ hmem
  refine ⟨?_, ?_, ?_, ?_, ?_⟩
  · intro hactive hgoing
    obtain ⟨hactive', hid, -⟩ := sends_same hsends hactive
    show .request c.id ∈ s.answered ++ _
    rw [hid]
    cases hsends with
    | rests | repeats | probes | pumps => exact hkept (h.requested hactive' hgoing)
    | resets => cases hactive
    | waits hturn => exact asked_mem hturn rfl _
    | starts _ _ hasked =>
        rcases hasked with hturn | hpending
        · exact asked_mem hturn rfl _
        · exact hkept (h.requested hactive' (.inr hpending))
    | @credited credits =>
        have hsame : (s.course.granted credits).streaming = s.course.streaming ∧
            (s.course.granted credits).pending = s.course.pending := by
          unfold Course.granted
          split
          · split <;> exact ⟨rfl, rfl⟩
          · exact ⟨rfl, rfl⟩
        refine hkept (h.requested hactive' ?_)
        rw [← hsame.1, ← hsame.2]
        exact hgoing
  · intro chunk hchunk
    rw [line_sends] at hchunk
    rw [hback]
    rcases List.mem_append.1 hchunk with hold | hnew
    · exact h.chunked chunk hold
    · cases hsends with
      | rests | resets | waits | starts | credited => cases hnew
      | repeats | probes => cases List.mem_singleton.1 hnew
      | pumps hactive hstreaming hcredits hcut htail =>
          rcases List.mem_append.1 hnew with hmap | hdone
          · obtain ⟨seq, hseq, heq⟩ := List.mem_map.1 hmap
            cases heq
            rw [(hcut seq hseq).names]
            exact List.mem_append_left _ (h.requested hactive (.inl hstreaming))
          · rcases htail with rfl | ⟨rfl, -⟩
            · cases hdone
            · cases List.mem_singleton.1 hdone
  · rw [hback]
    exact h.repaid
  · rw [hback]
    exact h.grants
  · rw [hback]
    exact h.unrepeated

/-- Where a transfer has been asked for and no chunk of it has gone out, the line is empty of chunks
and no single credit is on its way back. -/
theorem Flows.quiet (h : s.Flows) (hactive : s.course.active = true)
    (hidle : s.course.streaming = false) (hasked : .request s.course.id ∈ s.back) :
    s.chunks = 0 ∧ s.credits = 0 := by
  have hnone := (h.spoken.unstarted hactive hidle).2
  obtain ⟨-, ⟨offer, hoffer, hid⟩, -⟩ := h.heeded.asked s.course.id hasked
  constructor
  · refine List.countP_eq_zero.2 fun message hmessage hchunk ↦ ?_
    cases message with
    | chunk chunk =>
        -- the offer came before it, and no id is newer
        have hle := (List.pairwise_append.1 h.ordered.ordered).2.2 _ hoffer _ hmessage
        have hline : Message.chunk chunk ∈ s.line := List.mem_append_right _ hmessage
        have hsame : chunk.id = s.course.id := by
          apply eq_last_of_idxOf_le h.ordered.nodup (h.ordered.last hactive)
            (h.ordered.named _ hline)
          rw [← hid]
          exact hle
        exact hnone chunk hline hsame
    | _ => cases hchunk
  · refine List.count_eq_zero.2 fun hcredit ↦ ?_
    obtain ⟨chunk, hchunk, hsame⟩ := h.granting.repaid s.course.id (List.mem_append_right _ hcredit)
    exact hnone chunk (List.mem_append_left _ hchunk) hsame

/-- The chunks among the messages of a pump. -/
theorem countP_cuts (cut : Nat → ClipChunk) (start count : Nat) {tail : List Message}
    (htail : tail.countP Message.isChunk = 0) :
    ((List.range' start count).map (fun seq ↦ Message.chunk (cut seq)) ++ tail).countP
      Message.isChunk = count := by
  rw [List.countP_append, htail, Nat.add_zero, List.countP_map]
  have hall : (Message.isChunk ∘ fun seq ↦ Message.chunk (cut seq)) = fun _ ↦ true := rfl
  rw [hall, List.countP_true, List.length_range']

/-- Only a pump sends chunks. -/
theorem sends_chunks {c c' : Course} (h : Sends c turn c' new) :
    new.countP Message.isChunk = 0 ∨ c.active = true ∧ c.streaming = true ∧
      new.countP Message.isChunk ≤ c.credits ∧
      c' = c.pumped (new.countP Message.isChunk) := by
  cases h with
  | rests | resets | repeats | probes | waits | starts | credited => exact .inl rfl
  | pumps hactive hstreaming hcredits hcut htail =>
      rw [countP_cuts]
      · exact .inr ⟨hactive, hstreaming, hcredits, rfl⟩
      · rcases htail with rfl | ⟨rfl, -⟩ <;> rfl

/-- A grant of the window counts once, and a single credit pays for one chunk. -/
theorem credited_bounded {credits rest : Nat}
    (hwindow : s.course.active = true → s.course.streaming = true →
      s.chunks + s.credits + s.course.credits ≤ if s.course.opened then creditWindow else 0)
    (hactive : s.course.active = true) (hgrant : credits = 1 ∨ credits = creditWindow)
    (hstreaming : (s.course.granted credits).streaming = true)
    (hspent : s.credits = [Message.credit s.course.id credits].count
      (.credit s.course.id 1) + rest) :
    s.chunks + 0 + rest + (s.course.granted credits).credits ≤
      if (s.course.granted credits).opened then creditWindow else 0 := by
  have hstreaming' : s.course.streaming = true := by
    unfold Course.granted at hstreaming
    split at hstreaming
    · split at hstreaming <;> exact hstreaming
    · exact hstreaming
  have hsum := hwindow hactive hstreaming'
  unfold Course.granted
  rcases hgrant with rfl | rfl
  · have hone : (s.course.streaming && decide (1 = creditWindow)) = false := by
      rw [hstreaming']
      rfl
    have hpaid : s.credits = 1 + rest := by
      rw [hspent, List.count_singleton_self]
    rw [hone]
    simp only [Bool.false_eq_true, if_false]
    omega
  · have hopening : (s.course.streaming && decide (creditWindow = creditWindow)) = true := by
      rw [hstreaming']
      rfl
    have hpaid : s.credits = rest := by
      rw [hspent, List.count_singleton]
      simp [creditWindow]
    rw [hopening, if_pos rfl]
    by_cases hopened : s.course.opened = true
    · rw [if_pos hopened, if_pos hopened]
      rw [if_pos hopened] at hsum
      omega
    · rw [if_neg hopened]
      rw [if_neg hopened] at hsum
      show s.chunks + 0 + rest + (s.course.credits + min creditWindow _) ≤ creditWindow
      omega

theorem Flows.bounded_sends (h : s.Flows) (hsends : Sends s.course turn c new)
    {rest : List Message}
    (hcoming : s.coming = (turn.brings.filter Message.backward).toList ++ rest) :
    (s.sends c new (turn.brings.filter Message.backward) rest).Bounded := by
  have hflight := h.bounded.flight
  have hwindow := h.bounded.window
  have hchunks : (s.sends c new (turn.brings.filter Message.backward) rest).chunks =
      s.chunks + new.countP Message.isChunk := List.countP_append
  have hcount : ∀ message, s.coming.count message =
      (turn.brings.filter Message.backward).toList.count message + rest.count message := by
    intro message
    rw [hcoming, List.count_append]
  constructor
  · -- chunks leave only against credits, so those in flight stay within the window
    rw [hchunks]
    rcases sends_chunks hsends with hnone | ⟨hactive, hstreaming, hcredits, -⟩
    · rw [hnone]
      exact hflight
    · have hsum := hwindow hactive hstreaming
      split at hsum <;> omega
  · intro hactive hstreaming
    obtain ⟨hactive', hid, -⟩ := sends_same hsends hactive
    have hcredits : (s.sends c new (turn.brings.filter Message.backward) rest).credits ≤
        s.credits := by
      show rest.count (.credit c.id 1) ≤ s.coming.count _
      rw [hcount, hid]
      omega
    rw [hchunks]
    show s.chunks + _ + Stream.credits _ + c.credits ≤ if c.opened = true then _ else _
    cases hsends with
    | rests | repeats | probes =>
        have hsum := hwindow hactive' hstreaming
        simp only [List.countP_nil, List.countP_singleton, Message.isChunk, Bool.false_eq_true,
          if_false, Nat.add_zero]
        omega
    | resets => cases hactive
    | waits _ _ hidle => exact absurd (hidle.symm.trans hstreaming) Bool.noConfusion
    | starts _ hidle hasked =>
        -- nothing else of a transfer only now asked for is on its way, so its window opens full
        have hback : .request s.course.id ∈ s.back := by
          rcases hasked with hturn | hpending
          · unfold back
            rw [hcoming, ← List.append_assoc]
            exact List.mem_append_left _ (asked_mem hturn rfl _)
          · exact List.mem_append_left _ (h.granting.requested hactive' (.inr hpending))
        obtain ⟨hzero, hnone⟩ := h.quiet hactive' hidle hback
        show s.chunks + 0 + Stream.credits _ + min s.course.credits creditWindow ≤
          if decide (0 < min s.course.credits creditWindow) = true then creditWindow else 0
        simp only [decide_eq_true_eq]
        split <;> omega
    | @credited credits hturn _ =>
        have hasked : turn.brings.filter Message.backward = some (.credit s.course.id credits) := by
          rw [hturn]
          rfl
        have hmem : .credit s.course.id credits ∈ s.back := by
          unfold back
          rw [hcoming, hasked]
          simp
        -- the credit heard is taken off the line and put to the account
        have hspent := hcount (.credit s.course.id 1)
        rw [hasked] at hspent
        have hnew : Stream.credits (s.sends (s.course.granted credits) []
            (turn.brings.filter Message.backward) rest) = rest.count (.credit s.course.id 1) := by
          show rest.count (.credit (s.course.granted credits).id 1) = _
          rw [hid]
        rw [hnew]
        exact credited_bounded hwindow hactive' (h.granting.grants _ _ hmem) hstreaming hspent
    | @pumps count cut tail _ hstreaming' hpaid hcut htail =>
        have hsum := hwindow hactive' hstreaming'
        have htail : tail.countP Message.isChunk = 0 := by
          rcases htail with rfl | ⟨rfl, -⟩ <;> rfl
        rw [countP_cuts _ _ _ htail]
        show s.chunks + count + Stream.credits _ + (s.course.credits - count) ≤
          if s.course.opened = true then _ else _
        omega

theorem Flows.sends (h : s.Flows) (hsends : Sends s.course turn c new) {rest : List Message}
    (hcoming : s.coming = (turn.brings.filter Message.backward).toList ++ rest) :
    (s.sends c new (turn.brings.filter Message.backward) rest).Flows where
  ordered := h.ordered.sends hsends _ _
  spoken := h.spoken.sends hsends _ _
  heeded := h.heeded.sends hcoming
  granting := h.granting.sends hsends hcoming
  bounded := h.bounded_sends hsends hcoming

/-- The direction once the copy side has made a new offer. -/
def offers (s : Stream) (id : UInt32) (total : UInt64) (new : List Message) : Stream where
  course := Course.offered id total
  standing := s.standing
  heard := s.heard
  flight := s.flight ++ new
  answered := s.answered
  coming := s.coming
  ids := s.ids ++ [id]

theorem Flows.offers (h : s.Flows) {id : UInt32} {total : UInt64} (hnew : Offers id total new)
    (hfresh : id ∉ s.ids) : (s.offers id total new).Flows := by
  have hline : (s.offers id total new).line = s.line ++ new := (List.append_assoc ..).symm
  have hnames : ∀ message ∈ new, ∃ offer : ClipOffer, message = .offer offer ∧ offer.id = id ∧
      offer.total = total := by
    intro message hmessage
    rcases hnew with rfl | ⟨offer, rfl, hfields⟩
    · cases hmessage
    · exact ⟨offer, List.mem_singleton.1 hmessage, hfields⟩
  have hchunk : ∀ {chunk}, Message.chunk chunk ∈ s.line ++ new → .chunk chunk ∈ s.line := by
    intro chunk hmem
    rcases List.mem_append.1 hmem with hold | hadded
    · exact hold
    · obtain ⟨offer, hoffer, -⟩ := hnames _ hadded
      cases hoffer
  -- the id is fresh, so nothing on the line names it yet
  have hother : ∀ message ∈ s.line, message.names ≠ id :=
    fun message hmessage heq ↦ hfresh (heq ▸ h.ordered.named message hmessage)
  have hrank : ∀ known ∈ s.ids, (s.ids ++ [id]).idxOf known = s.ids.idxOf known :=
    fun known hknown ↦ List.idxOf_append_of_mem hknown
  have hlast : (s.ids ++ [id]).idxOf id = s.ids.length := by
    rw [List.idxOf_append_of_notMem hfresh]
    simp
  refine ⟨⟨?_, ?_, ?_, ?_⟩, ⟨?_, ?_, ?_, nofun, ?_⟩, ⟨h.heeded.seen, h.heeded.known,
    h.heeded.stored, h.heeded.unasked, ?_⟩, ⟨nofun, ?_, h.granting.repaid, h.granting.grants,
    h.granting.unrepeated⟩, ⟨?_, nofun⟩⟩
  · -- the ids stay distinct, the last of them is the one just offered, and all are in order
    show (s.ids ++ [id]).Nodup
    exact List.nodup_append.2 ⟨h.ordered.nodup, List.nodup_singleton id, fun known hknown new hnew ↦
      by rintro rfl; exact hfresh (List.mem_singleton.1 hnew ▸ hknown)⟩
  · intro _
    show (s.ids ++ [id]).getLast? = some id
    simp
  · intro message hmessage
    rw [hline] at hmessage
    rcases List.mem_append.1 hmessage with hold | hadded
    · exact List.mem_append_left _ (h.ordered.named message hold)
    · obtain ⟨offer, rfl, hid, -⟩ := hnames message hadded
      exact List.mem_append_right _ (List.mem_singleton.2 hid)
  · rw [hline]
    have hnewest : ∀ message ∈ new, (s.ids ++ [id]).idxOf message.names = s.ids.length := by
      intro message hmessage
      obtain ⟨offer, rfl, hid, -⟩ := hnames message hmessage
      show (s.ids ++ [id]).idxOf offer.id = _
      rw [hid]
      exact hlast
    refine List.pairwise_append.2 ⟨?_, ?_, ?_⟩
    · refine h.ordered.ordered.imp_of_mem fun hearlier hlater hle ↦ ?_
      show (s.ids ++ [id]).idxOf _ ≤ (s.ids ++ [id]).idxOf _
      rw [hrank _ (h.ordered.named _ hearlier), hrank _ (h.ordered.named _ hlater)]
      exact hle
    · refine List.pairwise_of_forall_mem_list fun earlier hearlier later hlater ↦ ?_
      exact Nat.le_of_eq ((hnewest earlier hearlier).trans (hnewest later hlater).symm)
    · intro earlier hearlier later hlater
      show (s.ids ++ [id]).idxOf _ ≤ (s.ids ++ [id]).idxOf _
      rw [hnewest later hlater, hrank _ (h.ordered.named _ hearlier)]
      exact List.idxOf_le_length
  · -- an offer of the new id is the new one, of the total that stands
    intro _ offer hoffer hid
    rw [hline] at hoffer
    rcases List.mem_append.1 hoffer with hold | hadded
    · exact absurd hid (hother _ hold)
    · obtain ⟨other, hsame, -, htotal⟩ := hnames _ hadded
      cases hsame
      exact htotal
  · -- no chunk of the new id was sent before its offer
    intro chunk hmem offer hoffer hid
    rw [hline] at hmem hoffer
    rcases List.mem_append.1 hoffer with hold | hadded
    · exact h.spoken.cuts chunk (hchunk hmem) offer hold hid
    · obtain ⟨other, hsame, hnew, -⟩ := hnames _ hadded
      cases hsame
      exact absurd (hid.symm.trans hnew) (hother _ (hchunk hmem))
  · intro _ _
    rw [hline]
    exact ⟨rfl, fun chunk hmem ↦ hother _ (hchunk hmem)⟩
  · rw [hline]
    refine h.spoken.dones.append fun message hmessage before ↦ ?_
    obtain ⟨offer, rfl, -⟩ := hnames message hmessage
    exact doneLast_of_ne (fun _ heq ↦ by cases heq) before
  · intro known hasked
    obtain ⟨hseen, ⟨offer, hoffer, hid⟩, hle⟩ := h.heeded.asked known hasked
    obtain ⟨other, hother, hknown, -⟩ := h.heeded.known hseen
    have hmem : known ∈ s.ids := hid ▸ h.ordered.named _ (List.mem_append_left _ hoffer)
    have hmem' : s.standing.id ∈ s.ids :=
      hknown ▸ h.ordered.named _ (List.mem_append_left _ hother)
    refine ⟨hseen, ⟨offer, hoffer, hid⟩, ?_⟩
    show (s.ids ++ [id]).idxOf known ≤ (s.ids ++ [id]).idxOf s.standing.id
    rw [hrank known hmem, hrank _ hmem']
    exact hle
  · intro chunk hmem
    rw [hline] at hmem
    exact h.granting.chunked chunk (hchunk hmem)
  · show (s.flight ++ new).countP Message.isChunk ≤ creditWindow
    have hzero : new.countP Message.isChunk = 0 := by
      rcases hnew with rfl | ⟨offer, rfl, -⟩ <;> rfl
    rw [List.countP_append, hzero]
    exact h.bounded.flight

end Copy

/-! ## Turns of the paste side -/

section Paste

variable {s : Stream} {turn : Turn} {r : Standing} {new : List Message}

/-- The direction once the paste side has taken a turn. `told` is what the turn brought from the
copy side. -/
def answers (s : Stream) (r : Standing) (new : List Message) (told : Option Message)
    (rest : List Message) : Stream where
  course := s.course
  standing := r
  heard := s.heard ++ told.toList
  flight := rest
  answered := s.answered
  coming := s.coming ++ new
  ids := s.ids

theorem line_answers {told : Option Message} {rest : List Message}
    (h : s.flight = told.toList ++ rest) : (s.answers r new told rest).line = s.line := by
  unfold line
  rw [h, ← List.append_assoc]
  rfl

@[simp] theorem back_answers (told : Option Message) (rest : List Message) :
    (s.answers r new told rest).back = s.back ++ new :=
  (List.append_assoc ..).symm

/-- What the turn brought from the copy side. -/
theorem brings_of_told {message : Message}
    (h : message ∈ (turn.brings.filter Message.forward).toList) : turn.brings = some message :=
  (Option.filter_eq_some_iff.1 (Option.mem_toList.1 h)).1

theorem told_mem {message : Message} (h : turn.brings = some message)
    (hforward : message.forward = true) :
    message ∈ (turn.brings.filter Message.forward).toList := by
  rw [h, Option.filter_some_pos hforward]
  exact List.mem_singleton_self _

/-- A request and its window are all that an opening holds. -/
theorem opening_mem {id : UInt32} {message : Message} (h : Opening id new)
    (hmem : message ∈ new) : message = .request id ∨ message = .credit id creditWindow := by
  rcases h with rfl | rfl | rfl
  · cases hmem
  · exact .inl (List.mem_singleton.1 hmem)
  · rcases List.mem_cons.1 hmem with hrequest | hcredit
    · exact .inl hrequest
    · exact .inr (List.mem_singleton.1 hcredit)

theorem opening_request {id asked : UInt32} (h : Opening id new)
    (hmem : Message.request asked ∈ new) : asked = id := by
  rcases opening_mem h hmem with hsame | hother
  · cases hsame
    rfl
  · cases hother

/-- What has been heard is no newer than what is on the way. -/
theorem Ordered.heard_le (h : s.Ordered) {earlier later : Message} (hheard : earlier ∈ s.heard)
    (hflight : later ∈ s.flight) :
    s.ids.idxOf earlier.names ≤ s.ids.idxOf later.names :=
  (List.pairwise_append.1 h.ordered).2.2 earlier hheard later hflight

/-- An offer that is not the one known has not been asked for. -/
theorem Flows.unasked_new (h : s.Flows) {offer : ClipOffer} (hflight : .offer offer ∈ s.flight)
    (hnew : s.standing.seenOffer = true → s.standing.id ≠ offer.id) :
    .request offer.id ∉ s.back := by
  intro hback
  obtain ⟨hseen, -, hle⟩ := h.heeded.asked offer.id hback
  obtain ⟨other, hother, hid, -⟩ := h.heeded.known hseen
  have hge := h.ordered.heard_le hother hflight
  have hmem : s.standing.id ∈ s.ids := by
    rw [← hid]
    exact h.ordered.named _ (List.mem_append_left _ hother)
  have heq : s.ids.idxOf s.standing.id = s.ids.idxOf offer.id := by
    refine Nat.le_antisymm ?_ hle
    rw [← hid]
    exact hge
  exact hnew hseen ((List.idxOf_inj hmem).1 heq)

/-- A chunk of the transfer that arrives is awaited, and cut from its offer. -/
theorem Flows.awaits (h : s.Flows) (hactive : s.standing.active = true) {chunk : ClipChunk}
    (hline : .chunk chunk ∈ s.line) (hid : chunk.id = s.standing.id) :
    s.standing.Awaits chunk ∧ s.standing.nchunks = chunkCount s.standing.total ∧
      Cut s.standing.id s.standing.total chunk.seq.toNat chunk := by
  obtain ⟨offer, hoffer, hknown, htotal, hcount⟩ := h.heeded.known (h.heeded.seen hactive)
  have hcut := h.spoken.cuts chunk hline offer (List.mem_append_left _ hoffer)
    (hknown.trans hid.symm)
  rw [hknown, htotal] at hcut
  rw [htotal] at hcount
  have hrequested : s.standing.lazy = false := by
    by_contra hlazy
    refine h.heeded.unasked hactive (by simpa using hlazy) ?_
    rw [← hid]
    exact h.granting.chunked chunk hline
  exact ⟨⟨hactive, hrequested, hid.symm, hcount ▸ hcut.inside⟩, hcount, hcut⟩

/-- What is known stays known when more is heard. -/
theorem Heeded.known_told (h : s.Heeded) (told : List Message)
    (hseen : s.standing.seenOffer = true) :
    ∃ offer, .offer offer ∈ s.heard ++ told ∧ offer.id = s.standing.id ∧
      offer.total = s.standing.total ∧ s.standing.nchunks = chunkCount offer.total := by
  obtain ⟨offer, hoffer, hfields⟩ := h.known hseen
  exact ⟨offer, List.mem_append_left _ hoffer, hfields⟩

/-- What was asked for stays offered. -/
theorem Heeded.asked_told (h : s.Heeded) (told : List Message) (id : UInt32)
    (hid : .request id ∈ s.back) :
    s.standing.seenOffer = true ∧ (∃ offer, .offer offer ∈ s.heard ++ told ∧ offer.id = id) ∧
      s.ids.idxOf id ≤ s.ids.idxOf s.standing.id := by
  obtain ⟨hseen, ⟨offer, hoffer, hnames⟩, hle⟩ := h.asked id hid
  exact ⟨hseen, ⟨offer, List.mem_append_left _ hoffer, hnames⟩, hle⟩

/-- What was stored stays stored, as long as the chunk that is heard is. -/
theorem Heeded.stored_told (h : s.Heeded)
    (hnew : ∀ chunk, turn.brings = some (.chunk chunk) → s.standing.active = true →
      chunk.id = s.standing.id → chunk.seq.toNat ∈ s.standing.received)
    (hactive : s.standing.active = true) (chunk : ClipChunk)
    (hmem : .chunk chunk ∈ s.heard ++ (turn.brings.filter Message.forward).toList)
    (hid : chunk.id = s.standing.id) : chunk.seq.toNat ∈ s.standing.received := by
  rcases List.mem_append.1 hmem with hold | htold
  · exact h.stored hactive chunk hold hid
  · exact hnew chunk (brings_of_told htold) hactive hid

/-- Nothing is answered, and a chunk that comes was stored before. -/
theorem Flows.heeded_rests (h : s.Flows)
    (hturn : ∀ chunk, turn.brings = some (.chunk chunk) → s.standing.Awaits chunk →
      chunk.seq.toNat ∈ s.standing.received) {rest : List Message}
    (hflight : s.flight = (turn.brings.filter Message.forward).toList ++ rest) :
    (s.answers s.standing [] (turn.brings.filter Message.forward) rest).Heeded := by
  refine ⟨h.heeded.seen, h.heeded.known_told _, h.heeded.stored_told ?_, ?_, ?_⟩
  · intro chunk hbrings hactive hid
    have hhere : .chunk chunk ∈ s.flight := hflight ▸ List.mem_append_left _ (told_mem hbrings rfl)
    exact hturn chunk hbrings (h.awaits hactive (List.mem_append_right _ hhere) hid).1
  · rw [back_answers, List.append_nil]
    exact h.heeded.unasked
  · rw [back_answers, List.append_nil]
    exact h.heeded.asked_told _

/-- An offer that is not the one known is taken. -/
theorem Flows.heeded_takes (h : s.Flows) {offer : ClipOffer} {active lazy : Bool}
    (hturn : turn.brings = some (.offer offer))
    (hnew : s.standing.seenOffer = true → s.standing.id ≠ offer.id)
    (hopening : Opening offer.id new) (hasks : new ≠ [] → lazy = false) {rest : List Message}
    (hflight : s.flight = (turn.brings.filter Message.forward).toList ++ rest) :
    (s.answers (Standing.taken offer active lazy) new (turn.brings.filter Message.forward)
      rest).Heeded := by
  have htold := told_mem hturn rfl
  have hhere : .offer offer ∈ s.flight := hflight ▸ List.mem_append_left _ htold
  have hfresh := h.unasked_new hhere hnew
  have hheard : .offer offer ∈ s.heard ++ (turn.brings.filter Message.forward).toList :=
    List.mem_append_right _ htold
  refine ⟨fun _ ↦ rfl, fun _ ↦ ⟨offer, hheard, rfl, rfl, rfl⟩, ?_, ?_, ?_⟩
  · intro _ chunk hmem hid
    rcases List.mem_append.1 hmem with hold | hhere
    · refine absurd ?_ hfresh
      have hback := h.granting.chunked chunk (List.mem_append_left _ hold)
      rwa [show chunk.id = offer.id from hid] at hback
    · have hsame := (brings_of_told hhere).symm.trans hturn
      cases hsame
  · intro _ hlazy hback
    rw [back_answers] at hback
    have hnone : new = [] := by
      by_contra hsome
      exact absurd ((hasks hsome).symm.trans hlazy) Bool.noConfusion
    rw [hnone, List.append_nil] at hback
    exact hfresh hback
  · intro id hback
    rw [back_answers] at hback
    rcases List.mem_append.1 hback with hold | hmem
    · obtain ⟨hseen, hoffered, hle⟩ := h.heeded.asked_told _ id hold
      obtain ⟨other, hother, hid, -⟩ := h.heeded.known hseen
      refine ⟨rfl, hoffered, hle.trans ?_⟩
      have hle' := h.ordered.heard_le hother hhere
      rw [← hid]
      exact hle'
    · have hid : id = offer.id := opening_request hopening hmem
      exact ⟨rfl, ⟨offer, hheard, hid.symm⟩, by rw [hid]; exact Nat.le_refl _⟩

/-- The offer that is known is asked for. -/
theorem Flows.heeded_asks (h : s.Flows)
    (hturn : ∀ chunk, turn.brings ≠ some (.chunk chunk)) (hactive : s.standing.active = true)
    (hopening : Opening s.standing.id new) (rest : List Message) :
    (s.answers { s.standing with lazy := false } new (turn.brings.filter Message.forward)
      rest).Heeded := by
  refine ⟨h.heeded.seen, h.heeded.known_told _,
    h.heeded.stored_told fun chunk hbrings ↦ absurd hbrings (hturn chunk), nofun, ?_⟩
  intro id hback
  rw [back_answers] at hback
  rcases List.mem_append.1 hback with hold | hmem
  · exact h.heeded.asked_told _ id hold
  · have hid : id = s.standing.id := opening_request hopening hmem
    have hseen := h.heeded.seen hactive
    obtain ⟨offer, hoffer, hnames, -⟩ :=
      h.heeded.known_told (turn.brings.filter Message.forward).toList hseen
    exact ⟨hseen, ⟨offer, hoffer, hnames.trans hid.symm⟩, by rw [hid]; exact Nat.le_refl _⟩

/-- A chunk that is awaited is stored. -/
theorem Flows.heeded_stores (h : s.Flows) {chunk : ClipChunk} {active : Bool}
    (hturn : turn.brings = some (.chunk chunk)) (hawaits : s.standing.Awaits chunk)
    (hnew : new = [] ∨ new = [.credit s.standing.id 1]) (rest : List Message) :
    (s.answers
      { s.standing with active := active, received := insert chunk.seq.toNat s.standing.received }
      new (turn.brings.filter Message.forward) rest).Heeded := by
  refine ⟨fun _ ↦ h.heeded.seen hawaits.active, h.heeded.known_told _, ?_, ?_, ?_⟩
  · intro _ other hmem hid
    rcases List.mem_append.1 hmem with hold | htold
    · exact Finset.mem_insert_of_mem (h.heeded.stored hawaits.active other hold hid)
    · have hsame := (brings_of_told htold).symm.trans hturn
      cases hsame
      exact Finset.mem_insert_self _ _
  · intro _ hlazy
    exact absurd (hawaits.requested.symm.trans hlazy) Bool.noConfusion
  · intro id hback
    rw [back_answers] at hback
    rcases List.mem_append.1 hback with hold | hmem
    · exact h.heeded.asked_told _ id hold
    · rcases hnew with rfl | rfl
      · cases hmem
      · cases List.mem_singleton.1 hmem

theorem Flows.heeded_answers (h : s.Flows) (hanswers : Answers s.standing turn r new)
    {rest : List Message}
    (hflight : s.flight = (turn.brings.filter Message.forward).toList ++ rest) :
    (s.answers r new (turn.brings.filter Message.forward) rest).Heeded := by
  cases hanswers with
  | rests hturn => exact h.heeded_rests hturn hflight
  | stops =>
      refine ⟨nofun, h.heeded.known_told _, nofun, nofun, ?_⟩
      rw [back_answers, List.append_nil]
      exact h.heeded.asked_told _
  | takes hturn hnew hopening hasks => exact h.heeded_takes hturn hnew hopening hasks hflight
  | asks hturn hactive hopening => exact h.heeded_asks hturn hactive hopening rest
  | stores hturn hawaits hnew => exact h.heeded_stores hturn hawaits hnew rest

/-- What a paste side sends: a request, its window, or one credit for the chunk that came. -/
theorem answers_mem {r r' : Standing} (h : Answers r turn r' new) {message : Message}
    (hmem : message ∈ new) :
    (∃ id, message = .request id ∨ message = .credit id creditWindow) ∨
      ∃ chunk, turn.brings = some (.chunk chunk) ∧ message = .credit chunk.id 1 := by
  cases h with
  | rests | stops => cases hmem
  | takes _ _ hopening => exact .inl ⟨_, opening_mem hopening hmem⟩
  | asks _ _ hopening => exact .inl ⟨_, opening_mem hopening hmem⟩
  | @stores chunk _ _ hturn hawaits hnew =>
      refine .inr ⟨chunk, hturn, ?_⟩
      rcases hnew with rfl | rfl
      · cases hmem
      · rw [← hawaits.id]
        exact List.mem_singleton.1 hmem

theorem Flows.granting_answers (h : s.Flows) (hanswers : Answers s.standing turn r new)
    {rest : List Message}
    (hflight : s.flight = (turn.brings.filter Message.forward).toList ++ rest) :
    (s.answers r new (turn.brings.filter Message.forward) rest).Granting := by
  refine ⟨h.granting.requested, ?_, ?_, ?_, ?_⟩
  · intro chunk hmem
    rw [line_answers hflight] at hmem
    rw [back_answers]
    exact List.mem_append_left _ (h.granting.chunked chunk hmem)
  · intro id hmem
    rw [back_answers] at hmem
    rcases List.mem_append.1 hmem with hold | hnew
    · obtain ⟨chunk, hchunk, hid⟩ := h.granting.repaid id hold
      exact ⟨chunk, List.mem_append_left _ hchunk, hid⟩
    · rcases answers_mem hanswers hnew with ⟨other, hrequest | hwindow⟩ | ⟨chunk, hturn, hcredit⟩
      · cases hrequest
      · cases hwindow
      · cases hcredit
        exact ⟨chunk, List.mem_append_right _ (told_mem hturn rfl), rfl⟩
  · intro id credits hmem
    rw [back_answers] at hmem
    rcases List.mem_append.1 hmem with hold | hnew
    · exact h.granting.grants id credits hold
    · rcases answers_mem hanswers hnew with ⟨other, hrequest | hwindow⟩ | ⟨chunk, hturn, hcredit⟩
      · cases hrequest
      · cases hwindow
        exact .inr rfl
      · cases hcredit
        exact .inl rfl
  · intro id seq hmem
    rw [back_answers] at hmem
    rcases List.mem_append.1 hmem with hold | hnew
    · exact h.granting.unrepeated id seq hold
    · rcases answers_mem hanswers hnew with ⟨other, hrequest | hwindow⟩ | ⟨chunk, hturn, hcredit⟩
      · cases hrequest
      · cases hwindow
      · cases hcredit

/-- A single credit is paid for one chunk that came. -/
theorem answers_credits {r r' : Standing} (h : Answers r turn r' new) (id : UInt32) :
    new.count (.credit id 1) ≤
      (turn.brings.filter Message.forward).toList.countP Message.isChunk := by
  cases h with
  | rests | stops => exact Nat.zero_le _
  | takes _ _ hopening =>
      rcases hopening with rfl | rfl | rfl <;> simp [creditWindow]
  | asks _ _ hopening =>
      rcases hopening with rfl | rfl | rfl <;> simp [creditWindow]
  | stores hturn _ hnew =>
      rw [hturn]
      rcases hnew with rfl | rfl
      · exact Nat.zero_le _
      · refine List.count_le_length.trans ?_
        rw [Option.filter_some_pos rfl]
        exact Nat.le_refl 1

theorem Flows.bounded_answers (h : s.Flows) (hanswers : Answers s.standing turn r new)
    {rest : List Message}
    (hflight : s.flight = (turn.brings.filter Message.forward).toList ++ rest) :
    (s.answers r new (turn.brings.filter Message.forward) rest).Bounded := by
  have hsplit : s.chunks = (turn.brings.filter Message.forward).toList.countP Message.isChunk +
      rest.countP Message.isChunk := by
    unfold chunks
    rw [hflight, List.countP_append]
  have hpaid := answers_credits hanswers s.course.id
  constructor
  · show rest.countP Message.isChunk ≤ creditWindow
    have := h.bounded.flight
    omega
  · intro hactive hstreaming
    have hsum := h.bounded.window hactive hstreaming
    have hcredits : Stream.credits (s.answers r new (turn.brings.filter Message.forward) rest) =
        s.credits + new.count (.credit s.course.id 1) := List.count_append
    rw [hcredits]
    show rest.countP Message.isChunk + _ + s.course.credits ≤
      if s.course.opened = true then creditWindow else 0
    omega

theorem Flows.answers (h : s.Flows) (hanswers : Answers s.standing turn r new)
    {rest : List Message}
    (hflight : s.flight = (turn.brings.filter Message.forward).toList ++ rest) :
    (s.answers r new (turn.brings.filter Message.forward) rest).Flows := by
  have hline := @line_answers s r new _ _ hflight
  refine ⟨⟨h.ordered.nodup, h.ordered.last, ?_, ?_⟩, h.spoken.congr rfl hline,
    h.heeded_answers hanswers hflight, h.granting_answers hanswers hflight,
    h.bounded_answers hanswers hflight⟩
  · rw [hline]
    exact h.ordered.named
  · rw [hline]
    exact h.ordered.ordered

end Paste

end Stream

end DeskhopPlus.Transfer
