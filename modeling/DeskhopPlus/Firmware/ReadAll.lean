import DeskhopPlus.Firmware.ConfigApi
import DeskhopPlus.Library.Runs

/-!
# Two cores on one walk

`handle_api_read_all_step` step by step. Core 0 looks at the walk, hands the field to the queue,
looks again and takes one off what is pending, which reads the count and writes it back; and a
request may come from the other core between any two of these. Main theorem: `every_field_taken`, by
which a request is followed by every field of the map in order, whatever core 0 was doing, unless it
falls between that last read and its write. There it is lost (`request_lost`).
-/

namespace DeskhopPlus.Firmware

open Runs

/-- How far core 0 has got with one pass. -/
inductive ReadAllPhase where
  | idle
  /-- It has found a field due. -/
  | peeked (index : UInt16)
  /-- The queue has taken the answer. -/
  | queued (index : UInt16)
  /-- It has read what is pending, to write back one less. -/
  | crediting (pending : UInt16)
  deriving DecidableEq

/-- The walk between the cores, with the fields the queue has taken. -/
structure SharedWalk where
  walk : ConfigReadAll
  phase : ReadAllPhase := .idle
  taken : List Nat := []

namespace SharedWalk

variable (s : SharedWalk)

/-- The next step of core 0. The queue takes an answer or refuses it. -/
def advance (accepted : Bool) : SharedWalk :=
  match s.phase with
  | .idle =>
      match s.walk.peek with
      | none => s
      | some index => { s with phase := .peeked index }
  | .peeked index =>
      if accepted then { s with phase := .queued index, taken := s.taken ++ [index.toNat] }
      else { s with phase := .idle }
  | .queued index =>
      if s.walk.peek = some index then { s with phase := .crediting s.walk.pending }
      else { s with phase := .idle }
  | .crediting pending => { s with walk := { s.walk with pending := pending - 1 }, phase := .idle }

/-- A request, from either core. The count is what it was at every request before it. -/
def request (fieldCount : UInt16) : SharedWalk := { s with walk := .start fieldCount }

variable {s} {n : UInt16}

/-- The steps of core 0 with nothing between them are one pass. -/
theorem pass_eq (hidle : s.phase = .idle) (accepted : Bool) :
    run advance s [accepted, accepted, accepted, accepted] =
      match s.walk.peek with
      | none => s
      | some index =>
          if accepted then { s with walk := s.walk.sent index, taken := s.taken ++ [index.toNat] }
          else s := by
  obtain ⟨walk, phase, taken⟩ := s
  cases hidle
  cases hpeek : walk.peek with
  | none => simp [run, advance, hpeek]
  | some index =>
      cases accepted with
      | false => simp [run, advance, hpeek]
      | true => simp [run, advance, hpeek, ConfigReadAll.sent]

/-- The handler takes one such pass, when the queue is idle. -/
theorem readAll_handleApiReadAllStep {api : Api} (hmode : api.configModeActive = true)
    (hqueue : api.hidQueueOut = []) :
    api.handleApiReadAllStep.readAll =
      (run advance { walk := api.readAll } [true, true, true, true]).walk := by
  rw [pass_eq rfl]
  unfold Api.handleApiReadAllStep
  rw [if_neg (by simp [hmode]), if_neg (by simp [hqueue])]
  dsimp only
  cases api.readAll.peek with
  | none => rfl
  | some index =>
      obtain ⟨map, hmap⟩ := exists_getFieldMapIndex index.toNat
      have hroom : api.hidQueueOut.length < hidQueueLength := by
        rw [hqueue]
        decide
      have htaken : (api.queueApiValue map).2 = true := by
        unfold Api.queueApiValue Api.queueCfgPacket Api.queuePacket
        rw [if_neg (by simp [hmode]), if_pos hroom]
      dsimp only
      rw [hmap]
      dsimp only
      rw [if_pos htaken]
      rfl

/-- A request between the read and the write of a credit changes nothing. -/
theorem request_lost {pending : UInt16} (hphase : s.phase = .crediting pending)
    (hcount : s.walk.count = n) (accepted : Bool) :
    (s.request n).advance accepted = s.advance accepted := by
  unfold advance request
  simp only [hphase, ConfigReadAll.start, hcount]

/-! ## What follows a request -/

/-- What core 0 was still doing when the request came: it had picked a field of the walk before, and
the queue takes that one first; or it had just had the first field taken, and has it credited to the
new walk. -/
def Stale (asked : SharedWalk) (stale : List Nat) (first : Nat) : Prop :=
  stale = [] ∧ (first = 0 ∨ first = 1 ∧ asked.phase = .queued 0) ∨
    first = 0 ∧ ∃ index, asked.phase = .peeked index ∧ stale = [index.toNat]

/-- So many fields are credited, and the fields taken since the request go in order up to the last
one taken. -/
structure InOrder (n : UInt16) (asked : SharedWalk) (credited last : Nat) (s : SharedWalk) :
    Prop where
  count : s.walk.count = n
  pending : s.walk.pending.toNat + credited = n.toNat
  taken : ∃ stale first, Stale asked stale first ∧ first ≤ last ∧
    s.taken = asked.taken ++ stale ++ List.range' first (last - first)

/-- How a request is being served, and how many accepted steps it takes at most until all is
done. -/
inductive Served (n : UInt16) (asked : SharedWalk) : Nat → SharedWalk → Prop where
  | stale {s : SharedWalk} {index : UInt16} (hindex : index ≠ 0) (hwalk : s.walk = .start n)
      (hphase : s.phase = .peeked index) (htaken : s.taken = asked.taken)
      (hasked : asked.phase = .peeked index) : Served n asked (4 * n.toNat + 2) s
  | unheard {s : SharedWalk} {index : UInt16} {stale : List Nat} (hindex : index ≠ 0)
      (hwalk : s.walk = .start n) (hphase : s.phase = .queued index)
      (htaken : s.taken = asked.taken ++ stale) (hstale : Stale asked stale 0) :
      Served n asked (4 * n.toNat + 1) s
  | idle {s : SharedWalk} {credited : Nat} (h : InOrder n asked credited credited s)
      (hphase : s.phase = .idle) : Served n asked (4 * (n.toNat - credited)) s
  | due {s : SharedWalk} {index : UInt16} (h : InOrder n asked index.toNat index.toNat s)
      (hdue : index.toNat < n.toNat) (hphase : s.phase = .peeked index) :
      Served n asked (4 * (n.toNat - index.toNat) - 1) s
  | took {s : SharedWalk} {index : UInt16} (h : InOrder n asked index.toNat (index.toNat + 1) s)
      (hdue : index.toNat < n.toNat) (hphase : s.phase = .queued index) :
      Served n asked (4 * (n.toNat - index.toNat) - 2) s
  | credits {s : SharedWalk} {credited : Nat} (h : InOrder n asked credited (credited + 1) s)
      (hdue : credited < n.toNat) (hphase : s.phase = .crediting s.walk.pending) :
      Served n asked (4 * (n.toNat - credited) - 3) s

variable {asked : SharedWalk} {rank : Nat}

theorem peek_start (hn : n ≠ 0) : (ConfigReadAll.start n).peek = some 0 := by
  simp [ConfigReadAll.peek, ConfigReadAll.start, hn]

/-- The walk is on the field after those credited, as long as there is one. -/
theorem InOrder.peek {credited last : Nat} (h : InOrder n asked credited last s) :
    (credited = n.toNat ∧ s.walk.peek = none) ∨
      ∃ index, index.toNat = credited ∧ index.toNat < n.toNat ∧ s.walk.peek = some index := by
  have hpending := h.pending
  by_cases hzero : s.walk.pending = 0
  · refine .inl ⟨?_, if_pos hzero⟩
    rw [hzero] at hpending
    simpa using hpending
  · have hpositive : 0 < s.walk.pending.toNat :=
      Nat.pos_of_ne_zero fun h ↦ hzero (UInt16.toNat.inj h)
    have hindex : (s.walk.count - s.walk.pending).toNat = credited := by
      rw [h.count, UInt16.toNat_sub_of_le _ _ (UInt16.le_iff_toNat_le.2 (by omega))]
      omega
    exact .inr ⟨_, hindex, by omega, if_neg hzero⟩

theorem Served.rank_le (h : Served n asked rank s) : rank ≤ 4 * n.toNat + 2 := by
  cases h <;> omega

/-- A request, from wherever core 0 is but between the read and the write of a credit. -/
theorem served_request (hn : n ≠ 0) (hphase : ∀ pending, s.phase ≠ .crediting pending) :
    ∃ rank, Served n s rank (s.request n) := by
  have hpositive : (0 : UInt16).toNat < n.toNat :=
    Nat.pos_of_ne_zero fun h ↦ hn (UInt16.toNat.inj h)
  have hstart : ∀ last first, Stale s [] first → first = last →
      InOrder n s 0 last (s.request n) := by
    intro last first hstale hfirst
    exact ⟨rfl, rfl, [], first, hstale, hfirst.le, by simp [request, hfirst]⟩
  cases hat : s.phase with
  | idle => exact ⟨_, .idle (hstart 0 0 (.inl ⟨rfl, .inl rfl⟩) rfl) hat⟩
  | peeked index =>
      by_cases hindex : index = 0
      · subst hindex
        exact ⟨_, @Served.due n s _ 0 (hstart 0 0 (.inl ⟨rfl, .inl rfl⟩) rfl) hpositive hat⟩
      · exact ⟨_, .stale hindex rfl hat rfl hat⟩
  | queued index =>
      by_cases hindex : index = 0
      · subst hindex
        exact ⟨_, @Served.took n s _ 0 (hstart 1 1 (.inl ⟨rfl, .inr ⟨rfl, hat⟩⟩) rfl) hpositive hat⟩
      · exact ⟨_, .unheard hindex rfl hat (List.append_nil _).symm (.inl ⟨rfl, .inl rfl⟩)⟩
  | crediting pending => exact absurd hat (hphase pending)

/-- A step of core 0. One that the queue accepts brings the end nearer. -/
theorem Served.advance (hn : n ≠ 0) (h : Served n asked rank s) (accepted : Bool) :
    ∃ rank', Served n asked rank' (s.advance accepted) ∧ (accepted = true → rank' ≤ rank - 1) := by
  unfold SharedWalk.advance
  cases h with
  | @stale _ index hindex hwalk hphase htaken hasked =>
      simp only [hphase]
      cases accepted with
      | true =>
          -- taken, but the walk has begun anew and will not have it credited
          have hstale : Stale asked [index.toNat] 0 := .inr ⟨rfl, index, hasked, rfl⟩
          exact ⟨_, .unheard hindex hwalk rfl (congrArg (· ++ [index.toNat]) htaken) hstale,
            fun _ ↦ le_rfl⟩
      | false =>
          have horder : InOrder n asked 0 0 { s with phase := .idle } :=
            ⟨congrArg _ hwalk, by rw [hwalk]; rfl, [], 0, .inl ⟨rfl, .inl rfl⟩, le_rfl,
              by simp [htaken]⟩
          exact ⟨_, .idle horder rfl, fun h ↦ absurd h Bool.false_ne_true⟩
  | @unheard _ index stale hindex hwalk hphase htaken hstale =>
      have hother : s.walk.peek ≠ some index := by
        rw [hwalk, peek_start hn]
        exact fun heq ↦ hindex (Option.some.inj heq).symm
      have horder : InOrder n asked 0 0 { s with phase := .idle } :=
        ⟨congrArg _ hwalk, by rw [hwalk]; rfl, stale, 0, hstale, le_rfl, by simp [htaken]⟩
      simp only [hphase, if_neg hother]
      exact ⟨_, .idle horder rfl, fun _ ↦ by omega⟩
  | @idle _ credited horder hphase =>
      simp only [hphase]
      rcases horder.peek with ⟨hall, hnone⟩ | ⟨index, hindex, hdue, hpeek⟩
      · rw [hnone]
        exact ⟨_, .idle horder hphase, fun _ ↦ by omega⟩
      · rw [hpeek]
        subst hindex
        have hsame : InOrder n asked index.toNat index.toNat { s with phase := .peeked index } :=
          ⟨horder.count, horder.pending, horder.taken⟩
        exact ⟨_, .due hsame hdue rfl, fun _ ↦ le_rfl⟩
  | @due _ index horder hdue hphase =>
      simp only [hphase]
      cases accepted with
      | true =>
          obtain ⟨stale, first, hstale, hfirst, htaken⟩ := horder.taken
          have hnext : InOrder n asked index.toNat (index.toNat + 1)
              { s with phase := .queued index, taken := s.taken ++ [index.toNat] } := by
            refine ⟨horder.count, horder.pending, stale, first, hstale, by omega, ?_⟩
            rw [htaken, Nat.succ_sub hfirst, List.range'_1_concat, Nat.add_sub_cancel' hfirst]
            simp only [List.append_assoc]
          exact ⟨_, .took hnext hdue rfl, fun _ ↦ by omega⟩
      | false =>
          have hsame : InOrder n asked index.toNat index.toNat { s with phase := .idle } :=
            ⟨horder.count, horder.pending, horder.taken⟩
          exact ⟨_, .idle hsame rfl, fun h ↦ absurd h Bool.false_ne_true⟩
  | @took _ index horder hdue hphase =>
      have hpeek : s.walk.peek = some index := by
        rcases horder.peek with ⟨hall, -⟩ | ⟨other, hother, -, hpeek⟩
        · omega
        · rw [hpeek, UInt16.toNat.inj hother]
      simp only [hphase, if_pos hpeek]
      have hsame : InOrder n asked index.toNat (index.toNat + 1)
          { s with phase := .crediting s.walk.pending } :=
        ⟨horder.count, horder.pending, horder.taken⟩
      exact ⟨_, .credits hsame hdue rfl, fun _ ↦ by omega⟩
  | @credits _ credited horder hdue hphase =>
      simp only [hphase]
      -- no request fell between the read and this write
      have hpending := horder.pending
      have hone : (1 : UInt16).toNat = 1 := rfl
      have hless : (s.walk.pending - 1).toNat = s.walk.pending.toNat - 1 :=
        UInt16.toNat_sub_of_le _ _ (UInt16.le_iff_toNat_le.2 (by omega))
      have hnext : InOrder n asked (credited + 1) (credited + 1)
          { s with walk := { s.walk with pending := s.walk.pending - 1 }, phase := .idle } := by
        refine ⟨horder.count, ?_, horder.taken⟩
        show (s.walk.pending - 1).toNat + (credited + 1) = n.toNat
        omega
      exact ⟨_, .idle hnext rfl, fun _ ↦ by omega⟩

theorem Served.run (hn : n ≠ 0) (h : Served n asked rank s) (answers : List Bool) :
    ∃ rank', Served n asked rank' (run SharedWalk.advance s answers) := by
  induction answers generalizing s rank with
  | nil => exact ⟨rank, h⟩
  | cons accepted rest ih =>
      obtain ⟨rank', hnext, -⟩ := h.advance hn accepted
      exact ih hnext

theorem Served.accepted (hn : n ≠ 0) (h : Served n asked rank s) {steps : Nat}
    (hsteps : rank ≤ steps) :
    Served n asked 0 (Runs.run SharedWalk.advance s (List.replicate steps true)) := by
  induction steps generalizing s rank with
  | zero =>
      rw [Nat.le_zero.1 hsteps] at h
      exact h
  | succ steps ih =>
      obtain ⟨rank', hnext, hless⟩ := h.advance hn true
      have hrank := hless rfl
      exact ih hnext (by omega)

/-- The fields taken so far, at any time while a request is served. -/
theorem Served.taken (h : Served n asked rank s) :
    ∃ stale first last, Stale asked stale first ∧ first ≤ last ∧ last ≤ n.toNat ∧
      s.taken = asked.taken ++ stale ++ List.range' first (last - first) := by
  have hnone : Stale asked [] 0 := .inl ⟨rfl, .inl rfl⟩
  cases h with
  | stale hindex hwalk hphase htaken hasked =>
      exact ⟨[], 0, 0, hnone, le_rfl, Nat.zero_le _, by simp [htaken]⟩
  | @unheard _ _ stale hindex hwalk hphase htaken hstale =>
      exact ⟨stale, 0, 0, hstale, le_rfl, Nat.zero_le _, by simp [htaken]⟩
  | @idle _ credited horder hphase =>
      obtain ⟨stale, first, hstale, hfirst, htaken⟩ := horder.taken
      have hpending := horder.pending
      exact ⟨stale, first, credited, hstale, hfirst, by omega, htaken⟩
  | due horder hdue hphase =>
      obtain ⟨stale, first, hstale, hfirst, htaken⟩ := horder.taken
      exact ⟨stale, first, _, hstale, hfirst, hdue.le, htaken⟩
  | took horder hdue hphase =>
      obtain ⟨stale, first, hstale, hfirst, htaken⟩ := horder.taken
      exact ⟨stale, first, _, hstale, hfirst, hdue, htaken⟩
  | credits horder hdue hphase =>
      obtain ⟨stale, first, hstale, hfirst, htaken⟩ := horder.taken
      exact ⟨stale, first, _, hstale, hfirst, hdue, htaken⟩

/-- With no step left, every field has been taken. -/
theorem Served.done (h : Served n asked 0 s) :
    ∃ stale first, Stale asked stale first ∧
      s.taken = asked.taken ++ stale ++ List.range' first (n.toNat - first) := by
  generalize hrank : 0 = rank at h
  cases h with
  | stale => omega
  | unheard => omega
  | @idle _ credited horder hphase =>
      obtain ⟨stale, first, hstale, -, htaken⟩ := horder.taken
      have hpending := horder.pending
      rw [show credited = n.toNat by omega] at htaken
      exact ⟨stale, first, hstale, htaken⟩
  | due horder hdue hphase => omega
  | took horder hdue hphase => omega
  | credits horder hdue hphase => omega

/-- The number of fields a request is started for. -/
def fieldCount : UInt16 := UInt16.ofNat apiFieldMap.length

theorem fieldCount_eq : fieldCount = 146 := by
  rw [fieldCount, apiFieldMap_length]
  rfl

/-- A Read All is answered whole. From a request on, wherever core 0 was but between the read and
the write of a credit, the queue takes the fields of the map in order, each once, whatever it
refuses: behind at most one field of the walk before, and without the first field only if that was
taken just before the request. Once it refuses nothing for four steps a field, it has taken them
all. -/
theorem every_field_taken (s : SharedWalk) (hphase : ∀ pending, s.phase ≠ .crediting pending)
    (answers : List Bool) {steps : Nat} (hsteps : 4 * 146 + 2 ≤ steps) :
    (∃ stale first last, Stale s stale first ∧ first ≤ last ∧ last ≤ 146 ∧
        (run advance (s.request fieldCount) answers).taken =
          s.taken ++ stale ++ List.range' first (last - first)) ∧
      ∃ stale first, Stale s stale first ∧
        (run advance (s.request fieldCount) (answers ++ List.replicate steps true)).taken =
          s.taken ++ stale ++ List.range' first (146 - first) := by
  have hn : fieldCount ≠ 0 := by
    rw [fieldCount_eq]
    decide
  have hcount : fieldCount.toNat = 146 := by rw [fieldCount_eq]; rfl
  obtain ⟨rank, hserved⟩ := served_request hn hphase
  obtain ⟨rank', hserved'⟩ := hserved.run hn answers
  have hrank := hserved'.rank_le
  rw [hcount] at hrank
  have htaken := hserved'.taken
  have hdone := (hserved'.accepted hn (hrank.trans hsteps)).done
  rw [hcount] at htaken hdone
  rw [run_append]
  exact ⟨htaken, hdone⟩

/-- The first request after the board has booted. -/
theorem every_field_taken_boot :
    ∃ stale first, Stale { walk := ⟨0, 0⟩ } stale first ∧
      (run advance (request { walk := ⟨0, 0⟩ } fieldCount) ([] ++ List.replicate 586 true)).taken =
        [] ++ stale ++ List.range' first (146 - first) :=
  (every_field_taken { walk := ⟨0, 0⟩ } (fun _ h ↦ by cases h) [] (by decide)).2

end SharedWalk

end DeskhopPlus.Firmware
