import DeskhopPlus.Firmware.Integrity

/-!
# A pull over a slow link

The pull of one image over a link that loses nothing and takes its time: every word asked for comes
back once, in order. The task asks again for a word that is not back within the re-request interval,
and the pull is given up when the stall window passes without a word, or when a word comes that is
not the one it waits for.

As long as no word takes longer than the re-request interval, and the next one is asked for while
that much of the stall window is left, each word is taken once and the pull comes to its end.
-/

namespace DeskhopPlus.Firmware

open DeskhopPlus.Bytes DeskhopPlus.Runs

/-! ## The pull and its link -/

/-- The word of an image at an address. -/
def Flash.word (flash : Flash) (address : Nat) : List UInt8 :=
  (List.range 4).map fun i ↦ flash (address + i)

/-- A word taken in: its address, and what the page buffer then held in its place. -/
structure Taken where
  address : Nat
  stored : List UInt8
  deriving DecidableEq

/-- The pulling board, the words in flight in the order they were asked for, the time, and the words
taken in so far. -/
structure Haul where
  board : Board
  link : List Word := []
  clock : Nat
  taken : List Taken := []

/-- The answer is for the word the pull waits for. -/
def Board.takes (b : Board) (address : Nat) : Bool := b.fw.mayPull && address == b.fw.address

def Act.loses : Act → Bool
  | .lose _ => true
  | _ => false

namespace Haul

variable (part : FlashPart) (peer : Flash)

/-- A heartbeat of the peer, with nothing in flight. -/
def hear (b : Board) (peers : ImageId) (now : Nat) : Haul where
  board := b.handleHeartbeatMsg peers now
  clock := now

def wait (h : Haul) (elapsed : Nat) : Haul := { h with clock := h.clock + elapsed }

def pass (h : Haul) (p : Pass) : Haul :=
  { h with
    board := p.board
    link := h.link ++ (p.request.map fun address ↦ ⟨address, h.clock⟩).toList }

/-- The oldest word in flight arrives, with what the peer holds there. -/
def deliver (h : Haul) : Haul :=
  match h.link with
  | [] => h
  | word :: rest =>
      let h := { h with link := rest }
      match handleRequestByteMsg peer word.address with
      | none => h
      | some data =>
          let board := h.board.handleResponseByteMsg part word.address data h.clock
          let stored := (board.pageBuffer.drop (word.address % 256)).take 4
          { h with
            board := board
            taken := if h.board.takes word.address then h.taken ++ [⟨word.address, stored⟩]
              else h.taken }

def act (h : Haul) : Act → Haul
  | .task queueIsFull accepted =>
      h.pass (h.board.firmwareUpgradeTask part queueIsFull accepted h.clock)
  | .deliver => h.deliver part peer
  | .lose place => { h with link := h.link.eraseIdx place }
  | .heartbeat peers => { h with board := h.board.handleHeartbeatMsg peers h.clock }
  | .heartbeatOutput => { h with board := h.board.heartbeatOutputTask part h.clock }
  | .saveConfig config => { h with board := h.board.saveConfig part config }
  | .saveIdentity identity => { h with board := h.board.saveIdentity part identity }
  | .wipeConfig => { h with board := h.board.wipeConfig part }

/-- One event. When the pull is over, only time passes. -/
def step (h : Haul) (event : Event) : Haul :=
  if h.board.fw.mayPull = true then (h.wait event.elapsed).act part peer event.act
  else h.wait event.elapsed

/-- The link loses nothing and every delay on it is below a limit, and a word is asked for while
that much of the stall window is left. -/
structure Timely (limit : Nat) (h : Haul) (event : Event) : Prop where
  lossless : event.act.loses = false
  prompt : ∀ w ∈ h.link, h.clock + event.elapsed - w.sentAt < limit
  served : h.board.fw.byteDone = true →
    h.clock + event.elapsed + limit ≤ h.board.fw.progressedAt + fwUpgradeStallUs

instance (limit : Nat) (h : Haul) (event : Event) : Decidable (Timely limit h event) :=
  decidable_of_iff
    (event.act.loses = false ∧ (∀ w ∈ h.link, h.clock + event.elapsed - w.sentAt < limit) ∧
      (h.board.fw.byteDone = true →
        h.clock + event.elapsed + limit ≤ h.board.fw.progressedAt + fwUpgradeStallUs))
    ⟨fun h ↦ ⟨h.1, h.2.1, h.2.2⟩, fun h ↦ ⟨h.lossless, h.prompt, h.served⟩⟩

/-- While the pull lasts, its link is such a one. -/
def KeepsTime (limit : Nat) (h : Haul) (event : Event) : Prop :=
  h.board.fw.mayPull = true → Timely limit h event

instance (limit : Nat) (h : Haul) (event : Event) : Decidable (KeepsTime limit h event) :=
  inferInstanceAs (Decidable (_ → _))

/-! ## What a pull in time keeps -/

/-- The first words of an image, as a pull takes them. -/
def words (peer : Flash) (count : Nat) : List Taken :=
  (List.range count).map fun i ↦ ⟨4 * i, peer.word (4 * i)⟩

/-- The place of a pull that lasts: what it has summed, when it last went on, and the one word it
waits for, if any. -/
structure Waiting (peer : Flash) (start limit : Nat) (h : Haul) : Prop where
  summed : ~~~ h.board.fw.checksum =
    calcCrc32 peer (min h.board.fw.address (stagingImageSize - sectorSize))
  progressed : h.board.fw.progressedAt ≤ h.clock
  recent : h.clock < h.board.fw.progressedAt + fwUpgradeStallUs
  paced : h.board.fw.progressedAt ≤ start + h.taken.length * fwUpgradeStallUs
  rests : h.board.fw.byteDone = true → h.link = []
  waits : h.board.fw.byteDone = false →
    h.link = [⟨h.board.fw.address, h.board.fw.requestedAt⟩] ∧
    h.board.fw.requestedAt ≤ h.clock ∧
    h.board.fw.requestedAt + limit ≤ h.board.fw.progressedAt + fwUpgradeStallUs ∧
    h.board.fw.address < stagingImageSize

/-- A pull from a given start, on its way or at its end. -/
structure InPlace (peer : Flash) (start limit : Nat) (h : Haul) : Prop where
  buffer_length : h.board.pageBuffer.length = configFlashBytes
  taken : h.taken = words peer h.taken.length
  address : h.board.fw.address = 4 * h.taken.length
  bound : h.board.fw.address ≤ stagingImageSize
  lasts : h.board.fw.mayPull = true → Waiting peer start limit h
  finished : h.board.fw.mayPull = false →
    h.board.fw.address = stagingImageSize ∧
    h.board.fw.checksum = calculateFirmwareCrc32 peer

variable {part : FlashPart} {peer : Flash} {start limit : Nat} {h : Haul}

theorem words_succ (count : Nat) :
    words peer (count + 1) = words peer count ++ [⟨4 * count, peer.word (4 * count)⟩] := by
  simp [words, List.range_succ]

theorem lossless_act {act : Act} (h : act.loses = false) (place : Nat) : act ≠ .lose place := by
  rintro rfl
  cases h

end Haul

theorem upgradeInProgress_of_mayPull {fw : FwUpgrade} (h : fw.mayPull = true) :
    fw.upgradeInProgress = true := by
  simp only [FwUpgrade.mayPull, Bool.and_eq_true] at h
  exact h.1

/-- A running checksum goes on by the word at its place. -/
theorem calcCrc32_word {peer : Flash} {address : Nat} {checksum : UInt32}
    (h : ~~~ checksum = calcCrc32 peer address) :
    ~~~ (peer.word address).foldl crc32Iter checksum = calcCrc32 peer (address + 4) := by
  unfold calcCrc32 at h ⊢
  have hchecksum := UInt32.not_inj.1 h
  rw [hchecksum, List.range_add, List.foldl_append]
  rfl

/-- The checksum takes in the words before the metadata. -/
theorem sums {peer : Flash} {address : Nat} {checksum : UInt32}
    (h : ~~~ checksum = calcCrc32 peer (min address (stagingImageSize - sectorSize)))
    (haligned : address % 4 = 0) :
    ~~~ (if address < stagingImageSize - sectorSize then
        (peer.word address).foldl crc32Iter checksum
      else checksum) = calcCrc32 peer (min (address + 4) (stagingImageSize - sectorSize)) := by
  have hlast : stagingImageSize - sectorSize = 258048 := by decide
  rw [hlast] at h ⊢
  split
  · rw [Nat.min_eq_left (by omega)] at h ⊢
    exact calcCrc32_word h
  · rw [Nat.min_eq_right (by omega)] at h ⊢
    exact h

/-- The copied bytes read back. -/
theorem taken_overwrite (data : List UInt8) {buffer : List UInt8} {offset : Nat}
    (hoffset : offset ≤ buffer.length) :
    ((overwrite buffer offset data).drop offset).take data.length = data := by
  have hfront : (buffer.take offset).length = offset := List.length_take_of_le hoffset
  rw [overwrite, List.append_assoc, List.drop_left' hfront, List.take_left]

namespace Haul

variable {part : FlashPart} {peer : Flash} {start limit : Nat} {h : Haul}

namespace InPlace

/-- Time passes, short of the stall window while the pull lasts. -/
theorem later (hplace : InPlace peer start limit h) (elapsed : Nat)
    (hrecent : h.board.fw.mayPull = true →
      h.clock + elapsed < h.board.fw.progressedAt + fwUpgradeStallUs) :
    InPlace peer start limit (h.wait elapsed) where
  buffer_length := hplace.buffer_length
  taken := hplace.taken
  address := hplace.address
  bound := hplace.bound
  lasts := by
    intro hpull
    have hwaiting := hplace.lasts hpull
    exact { hwaiting with
      progressed := hwaiting.progressed.trans (Nat.le_add_right ..)
      recent := hrecent hpull
      waits := by
        intro hdone
        obtain ⟨hlink, hasked, hleft, hmore⟩ := hwaiting.waits hdone
        exact ⟨hlink, hasked.trans (Nat.le_add_right ..), hleft, hmore⟩ }
  finished := hplace.finished

/-- The pull's place does not depend on the flash, on the contents of the buffer, or on what is
known of the peer. -/
theorem restage (hplace : InPlace peer start limit h) {b : Board}
    (hlength : b.pageBuffer.length = configFlashBytes)
    (hfw : b.fw = { h.board.fw with imageDirty := b.fw.imageDirty }) :
    InPlace peer start limit { h with board := b } := by
  obtain ⟨fw, buffer, running, peerFw, follows, reboot, rom, flash⟩ := b
  dsimp only at hlength hfw
  rw [hfw]
  exact
    { buffer_length := hlength
      taken := hplace.taken
      address := hplace.address
      bound := hplace.bound
      lasts := fun hpull ↦
        ⟨(hplace.lasts hpull).summed, (hplace.lasts hpull).progressed, (hplace.lasts hpull).recent,
          (hplace.lasts hpull).paced, (hplace.lasts hpull).rests, (hplace.lasts hpull).waits⟩
      finished := hplace.finished }

/-- A request goes out, or the queue refuses it. -/
theorem requests (hplace : InPlace peer start limit h) (hpull : h.board.fw.mayPull = true)
    (hdone : h.board.fw.byteDone = true) (hmore : h.board.fw.address < stagingImageSize)
    (hserved : h.clock + limit ≤ h.board.fw.progressedAt + fwUpgradeStallUs) (accepted : Bool) :
    InPlace peer start limit
      (h.pass (h.board.requestByte h.board.fw.address h.clock accepted)) := by
  have hwaiting := hplace.lasts hpull
  have hempty := hwaiting.rests hdone
  have hnever : ∀ {P : Prop}, h.board.fw.mayPull = false → P := by
    intro P hidle
    rw [hpull] at hidle
    cases hidle
  cases accepted with
  | true =>
      exact
        { buffer_length := hplace.buffer_length
          taken := hplace.taken
          address := hplace.address
          bound := hplace.bound
          lasts := fun _ ↦
            { summed := hwaiting.summed
              progressed := hwaiting.progressed
              recent := hwaiting.recent
              paced := hwaiting.paced
              rests := nofun
              waits := by
                intro _
                refine ⟨?_, Nat.le_refl _, hserved, hmore⟩
                show h.link ++ [_] = _
                rw [hempty]
                rfl }
          finished := hnever }
  | false =>
      exact
        { buffer_length := hplace.buffer_length
          taken := hplace.taken
          address := hplace.address
          bound := hplace.bound
          lasts := fun _ ↦
            { summed := hwaiting.summed
              progressed := hwaiting.progressed
              recent := hwaiting.recent
              paced := hwaiting.paced
              rests := by
                intro _
                show h.link ++ [] = []
                rw [hempty]
                rfl
              waits := by
                intro hundone
                rw [show h.board.fw.byteDone = false from hundone] at hdone
                cases hdone }
          finished := hnever }

/-- The last word is in, and the image is checked. -/
theorem ends (hplace : InPlace peer start limit h) (hpull : h.board.fw.mayPull = true)
    (hlast : stagingImageSize ≤ h.board.fw.address) :
    InPlace peer start limit (h.pass (h.board.endPull part)) := by
  have haddress : h.board.fw.address = stagingImageSize := Nat.le_antisymm hplace.bound hlast
  have hsummed := (hplace.lasts hpull).summed
  rw [haddress, Nat.min_eq_right (Nat.sub_le ..)] at hsummed
  unfold Board.endPull
  dsimp only
  split
  all_goals exact
    { buffer_length := hplace.buffer_length
      taken := hplace.taken
      address := hplace.address
      bound := hplace.bound
      lasts := nofun
      finished := fun _ ↦ ⟨haddress, hsummed⟩ }

theorem rests (hplace : InPlace peer start limit h) :
    InPlace peer start limit (h.pass { board := h.board }) := by
  have hsame : h.pass { board := h.board } = h := by simp [pass]
  rwa [hsame]

/-- A page written first changes neither the link nor what is asked for. -/
theorem pass_written (h : Haul) (p : Pass) (page : Option PageWrite) (b : Board) :
    h.pass { p with page := page } = { h with board := b }.pass p := rfl

/-- A pass of the task. No word in flight is counted as lost. -/
theorem task (hplace : InPlace peer start limit h) (hpull : h.board.fw.mayPull = true)
    (hlimit : limit ≤ fwUpgradeRerequestUs) (hprompt : ∀ w ∈ h.link, h.clock - w.sentAt < limit)
    (hserved : h.board.fw.byteDone = true →
      h.clock + limit ≤ h.board.fw.progressedAt + fwUpgradeStallUs)
    (queueIsFull accepted : Bool) :
    InPlace peer start limit
      (h.pass (h.board.firmwareUpgradeTask part queueIsFull accepted h.clock)) := by
  unfold Board.firmwareUpgradeTask
  rw [if_neg (by simp [hpull])]
  split
  · rename_i hdone
    -- the word waited for is in flight, and younger than the interval
    have hkept : ¬ h.board.fw.requestLost h.clock = true := by
      intro hlost
      have hold := FwUpgrade.elapsed_of_requestLost hlost
      have hyoung := hprompt ⟨h.board.fw.address, h.board.fw.requestedAt⟩
        (by rw [((hplace.lasts hpull).waits hdone).1]; exact List.mem_singleton_self _)
      dsimp only at hyoung
      omega
    rw [if_neg hkept]
    exact hplace.rests
  · rename_i hdone
    have hdone : h.board.fw.byteDone = true := by simpa using hdone
    split
    · exact hplace.rests
    · have hwritten : InPlace peer start limit { h with board := h.board.writePage part } :=
        hplace.restage hplace.buffer_length rfl
      by_cases hcomplete : h.board.fw.address % 256 = 0 ∧ h.board.fw.address ≠ 0
      · simp only [if_pos hcomplete]
        split
        · rename_i hlast
          rw [pass_written h _ _ (h.board.writePage part)]
          exact hwritten.ends hpull hlast
        · rename_i hmore
          rw [pass_written h _ _ (h.board.writePage part)]
          exact hwritten.requests hpull hdone (Nat.lt_of_not_le hmore) (hserved hdone) accepted
      · simp only [if_neg hcomplete]
        split
        · rename_i hlast
          rw [pass_written h _ _ h.board]
          exact hplace.ends hpull hlast
        · rename_i hmore
          rw [pass_written h _ _ h.board]
          exact hplace.requests hpull hdone (Nat.lt_of_not_le hmore) (hserved hdone) accepted

/-- The word waited for arrives. -/
theorem delivers (hplace : InPlace peer start limit h) (hpull : h.board.fw.mayPull = true) :
    InPlace peer start limit (h.deliver part peer) := by
  have hwaiting := hplace.lasts hpull
  cases hdone : h.board.fw.byteDone with
  | true =>
      unfold deliver
      rw [hwaiting.rests hdone]
      exact hplace
  | false =>
      obtain ⟨hlink, -, -, hmore⟩ := hwaiting.waits hdone
      have haddress := hplace.address
      have htakes : h.board.takes h.board.fw.address = true := by simp [Board.takes, hpull]
      have hoffset : h.board.fw.address % 256 ≤ h.board.pageBuffer.length := by
        rw [hplace.buffer_length]
        simp only [configFlashBytes, configSize, pageSize]
        omega
      have hword : (peer.word h.board.fw.address).length = 4 := by simp [Flash.word]
      unfold deliver
      rw [hlink]
      simp only [handleRequestByteMsg, if_neg (Nat.not_le.2 hmore), htakes, if_true,
        Board.handleResponseByteMsg, hpull, Bool.true_eq_false, if_false, ne_eq, not_true]
      change InPlace peer start limit _
      rw [← Flash.word]
      -- the word is the one asked for, so it goes behind those already taken
      have hstored := taken_overwrite (peer.word h.board.fw.address) hoffset
      rw [hword] at hstored
      rw [hstored]
      exact
        { buffer_length := by
            show (overwrite _ _ _).length = _
            rw [overwrite_length, hplace.buffer_length]
            rw [hplace.buffer_length, hword]
            simp only [configFlashBytes, configSize, pageSize]
            omega
          taken := by
            show h.taken ++ _ = words peer (h.taken ++ _).length
            rw [List.length_append, List.length_singleton, words_succ, ← hplace.taken, haddress]
          address := by
            show h.board.fw.address + 4 = 4 * (h.taken ++ _).length
            rw [List.length_append, List.length_singleton, haddress]
            omega
          bound := by
            show h.board.fw.address + 4 ≤ stagingImageSize
            simp only [stagingImageSize, stagingPagesCnt, pageSize] at hmore ⊢
            omega
          lasts := fun _ ↦
            { summed := sums hwaiting.summed (by omega)
              progressed := Nat.le_refl _
              recent := Nat.lt_add_of_pos_right (by decide)
              paced := by
                show h.clock ≤ start + (h.taken ++ _).length * fwUpgradeStallUs
                have hpaced := hwaiting.paced
                have hrecent := hwaiting.recent
                rw [List.length_append, List.length_singleton, Nat.succ_mul]
                omega
              rests := fun _ ↦ rfl
              waits := by
                intro hnone
                cases hnone }
          finished := by
            intro hidle
            rw [show h.board.fw.mayPull = false from hidle] at hpull
            cases hpull }

/-- A pull that lasts does not begin again. -/
theorem hears (hplace : InPlace peer start limit h) (hpull : h.board.fw.mayPull = true)
    (peers : ImageId) (now : Nat) :
    InPlace peer start limit { h with board := h.board.handleHeartbeatMsg peers now } := by
  unfold Board.handleHeartbeatMsg FwUpgrade.shouldPull
  dsimp only
  rw [if_pos (upgradeInProgress_of_mayPull hpull), if_neg (by simp)]
  exact hplace.restage hplace.buffer_length rfl

/-- A pull whose last word is recent is not given up. -/
theorem goes_on (hplace : InPlace peer start limit h) (hpull : h.board.fw.mayPull = true) :
    InPlace peer start limit { h with board := h.board.heartbeatOutputTask part h.clock } := by
  unfold Board.heartbeatOutputTask
  rw [if_neg]
  · exact hplace.restage hplace.buffer_length rfl
  · intro hstalled
    have hold := FwUpgrade.elapsed_of_stalled hstalled
    have hprogressed := (hplace.lasts hpull).progressed
    have hrecent := (hplace.lasts hpull).recent
    dsimp only at hold
    omega

/-- A pull that begins is at its first word. -/
theorem begins {b : Board} {peers : ImageId} {now : Nat}
    (hlength : b.pageBuffer.length = configFlashBytes)
    (hbegins : b.fw.shouldPull b.runningFw peers b.followsAtEqualVersion = true) :
    InPlace peer now limit (hear b peers now) := by
  unfold hear Board.handleHeartbeatMsg
  rw [if_pos hbegins]
  exact
    { buffer_length := hlength
      taken := rfl
      address := rfl
      bound := Nat.zero_le _
      lasts := fun _ ↦
        { summed := by
            show ~~~ (0xffffffff : UInt32) = calcCrc32 peer (min 0 _)
            rw [Nat.zero_min]
            rfl
          progressed := Nat.le_refl _
          recent := Nat.lt_add_of_pos_right (by decide)
          paced := Nat.le_add_right ..
          rests := fun _ ↦ rfl
          waits := nofun }
      finished := nofun }

/-- One event. -/
theorem step (hplace : InPlace peer start limit h) (hpos : 0 < limit)
    (hlimit : limit ≤ fwUpgradeRerequestUs) {event : Event} (htime : KeepsTime limit h event) :
    InPlace peer start limit (h.step part peer event) := by
  unfold Haul.step
  split
  · rename_i hpull
    obtain ⟨hlossless, hprompt, hserved⟩ := htime hpull
    have hwaiting := hplace.lasts hpull
    have hlater : InPlace peer start limit (h.wait event.elapsed) := by
      refine hplace.later event.elapsed fun _ ↦ ?_
      cases hdone : h.board.fw.byteDone with
      | true =>
          have := hserved hdone
          omega
      | false =>
          -- the word waited for is younger than what was left of the window when it was asked for
          obtain ⟨hlink, -, hleft, -⟩ := hwaiting.waits hdone
          have hyoung := hprompt _ (by rw [hlink]; exact List.mem_singleton_self _)
          dsimp only at hyoung
          omega
    cases hact : event.act with
    | task queueIsFull accepted =>
        exact hlater.task hpull hlimit hprompt hserved queueIsFull accepted
    | deliver => exact hlater.delivers hpull
    | lose place => exact absurd hact (lossless_act hlossless place)
    | heartbeat peers => exact hlater.hears hpull peers _
    | heartbeatOutput => exact hlater.goes_on hpull
    | saveConfig config =>
        refine hlater.restage ?_ rfl
        show (config.bytes ++ List.replicate _ _).length = _
        rw [List.length_append, config.length_bytes, List.length_replicate]
        decide
    | saveIdentity identity =>
        refine hlater.restage ?_ rfl
        show (overwrite _ _ _).length = _
        rw [overwrite_length]
        · exact hplace.buffer_length
        · rw [List.length_append, List.length_replicate, identity.length_bytes]
          show _ ≤ h.board.pageBuffer.length
          rw [hplace.buffer_length]
          decide
    | wipeConfig => exact hlater.restage hplace.buffer_length rfl
  · rename_i hidle
    exact hplace.later event.elapsed fun hpull ↦ absurd hpull hidle

end InPlace

/-! ## Runs -/

/-- Words already taken stay taken. -/
theorem taken_step (part : FlashPart) (peer : Flash) (h : Haul) (event : Event) :
    h.taken <+: (h.step part peer event).taken := by
  unfold Haul.step
  split
  · cases event.act with
    | deliver =>
        show _ <+: (Haul.deliver part peer _).taken
        unfold deliver
        split
        · exact List.prefix_rfl
        · dsimp only
          split
          · exact List.prefix_rfl
          · dsimp only
            split
            · exact List.prefix_append ..
            · exact List.prefix_rfl
    | _ => exact List.prefix_rfl
  · exact List.prefix_rfl

/-- The pull goes on in place: it has taken the first words of the image, each once, and its address
is the next one. It is still on its way, or it has taken the whole image and summed it. -/
structure Completes (peer : Flash) (start : Nat) (h : Haul) : Prop where
  taken : h.taken = words peer h.taken.length
  address : h.board.fw.address = 4 * h.taken.length
  summed : h.board.fw.mayPull = true →
    ~~~ h.board.fw.checksum =
      calcCrc32 peer (min h.board.fw.address (stagingImageSize - sectorSize))
  finished : h.board.fw.mayPull = false →
    h.board.fw.address = stagingImageSize ∧ h.board.fw.checksum = calculateFirmwareCrc32 peer
  ends : start + (stagingImageSize / 4 + 1) * fwUpgradeStallUs ≤ h.clock →
    h.board.fw.mayPull = false

/-- A slow link completes a pull. Whatever the order of passes, deliveries, heartbeats and saves,
and whatever each delay below a limit that is at most the re-request interval: the address never
goes back, each word is taken once into the buffer and the checksum, the pull is never abandoned,
and it comes to the end of the image. -/
theorem pull_completes (part : FlashPart) (peer : Flash) {limit : Nat} (hpos : 0 < limit)
    (hlimit : limit ≤ fwUpgradeRerequestUs) {b : Board} {peers : ImageId} {now : Nat}
    (hlength : b.pageBuffer.length = configFlashBytes)
    (hbegins : b.fw.shouldPull b.runningFw peers b.followsAtEqualVersion = true)
    {events : List Event}
    (htime : Along (Haul.step part peer) (KeepsTime limit) (hear b peers now) events) :
    let h := run (Haul.step part peer) (hear b peers now) events
    Completes peer now h ∧ ∀ before, before <+: events →
      (run (Haul.step part peer) (hear b peers now) before).board.fw.address ≤
        h.board.fw.address := by
  intro h
  have hplace : ∀ events, Along (Haul.step part peer) (KeepsTime limit) (hear b peers now) events →
      InPlace peer now limit (run (Haul.step part peer) (hear b peers now) events) := by
    intro events htime
    exact run_invariant_along (InPlace peer now limit) (InPlace.begins hlength hbegins)
      (fun _ event hplace htime ↦ hplace.step hpos hlimit htime) htime
  have hhere : InPlace peer now limit h := hplace events htime
  refine ⟨⟨hhere.taken, hhere.address, fun hpull ↦ (hhere.lasts hpull).summed, hhere.finished, ?_⟩,
    ?_⟩
  · intro hlate
    by_contra hpull
    have hwaiting := hhere.lasts (by simpa using hpull)
    have hcount : h.taken.length ≤ stagingImageSize / 4 := by
      have haddress := hhere.address
      have hbound := hhere.bound
      omega
    have hpaced := hwaiting.paced
    have hrecent := hwaiting.recent
    have hmost := Nat.mul_le_mul_right fwUpgradeStallUs hcount
    rw [Nat.succ_mul] at hlate
    omega
  · rintro before ⟨after, rfl⟩
    have hbefore := hplace before ((Along.append _).1 htime).1
    have hmore := run_extends Haul.taken (taken_step part peer)
      (run (Haul.step part peer) (hear b peers now) before) after
    rw [← run_append] at hmore
    rw [hbefore.address, hhere.address]
    exact Nat.mul_le_mul_left 4 hmore.length_le

/-- A word asked for and back 90 ms later, with a look at the stall window in between. -/
def lateRound : List Event :=
  [⟨250, .task false true⟩, ⟨45000, .heartbeatOutput⟩, ⟨40000, .task false true⟩, ⟨5000, .deliver⟩]

/-- Two such words, of a peer whose image is all zeros. -/
theorem pull_completes_late :
    let start := hear (Rig.boot (fun _ ↦ 0) true).board ⟨2, 0⟩ 0
    let h := run (Haul.step norFlash fun _ ↦ 0) start (lateRound ++ lateRound)
    h.taken.length = 2 ∧ Completes (fun _ ↦ 0) 0 h ∧ ∀ before, before <+: lateRound ++ lateRound →
      (run (Haul.step norFlash fun _ ↦ 0) start before).board.fw.address ≤ h.board.fw.address := by
  have htime : Along (Haul.step norFlash fun _ ↦ 0) (KeepsTime fwUpgradeRerequestUs)
      (hear (Rig.boot (fun _ ↦ 0) true).board ⟨2, 0⟩ 0) (lateRound ++ lateRound) := by
    decide
  exact ⟨by decide,
    pull_completes norFlash (fun _ ↦ 0) (by decide) (Nat.le_refl _) List.length_replicate
      (by decide) htime⟩

/-- The first word takes 150 ms, and is asked for again before it is back; the second answer comes
at once. -/
def askedTwice : List Event :=
  [⟨0, .task false true⟩, ⟨150000, .task false true⟩, ⟨0, .deliver⟩, ⟨0, .deliver⟩]

/-- The second word is asked for shortly before the stall window ends, and the heartbeat after the
end finds it still on its way. -/
def askedLate : List Event :=
  [⟨0, .task false true⟩, ⟨250, .deliver⟩, ⟨29950000, .task false true⟩, ⟨60000, .heartbeatOutput⟩]

/-- Neither condition can be left out. Where the delays are only below the stall window, a second
answer ends the pull, its address back from the second word to the first. Where they are below the
re-request interval but a word is asked for late, the pull is given up with that word on its way. -/
theorem pull_ends_early :
    let start := hear (Rig.boot (fun _ ↦ 0) true).board ⟨2, 0⟩ 0
    (Along (Haul.step norFlash fun _ ↦ 0) (KeepsTime fwUpgradeStallUs) start askedTwice ∧
      (run (Haul.step norFlash fun _ ↦ 0) start (askedTwice.take 3)).board.fw.address = 4 ∧
      (run (Haul.step norFlash fun _ ↦ 0) start askedTwice).board.fw.mayPull = false ∧
      (run (Haul.step norFlash fun _ ↦ 0) start askedTwice).board.fw.address = 0) ∧
    Along (Haul.step norFlash fun _ ↦ 0) (fun h event ↦ event.act.loses = false ∧
      ∀ w ∈ h.link, h.clock + event.elapsed - w.sentAt < fwUpgradeRerequestUs) start askedLate ∧
      (run (Haul.step norFlash fun _ ↦ 0) start (askedLate.take 3)).board.fw.mayPull = true ∧
      (run (Haul.step norFlash fun _ ↦ 0) start askedLate).board.fw.mayPull = false ∧
      (run (Haul.step norFlash fun _ ↦ 0) start askedLate).taken.length = 1 := by
  decide

end Haul

end DeskhopPlus.Firmware
