import DeskhopPlus.Firmware.Pull

/-!
# What a pull puts in flash

`Sound` accounts for a pull at every moment: the words it holds are the peer's, the pages behind it
are written, the pages before it in its sector are erased, and what is in flight is at most the word
it waits for and one older word. `pulled_pages` carries it along the runs in which no save lands on
a page half assembled; `page_of_config` is a run in which one does.
-/

namespace DeskhopPlus.Firmware

open DeskhopPlus.Bytes DeskhopPlus.Runs

/-! ## Pages of flash -/

namespace Flash

variable {flash flash' : Flash}

/-- A page has `FLASH_PAGE_SIZE` bytes. -/
@[simp] theorem page_length (flash : Flash) (address : Nat) :
    (flash.page address).length = pageSize := by
  simp [page]

/-- The bytes of a page are those of flash from its address on. -/
theorem page_getElem? (flash : Flash) (address : Nat) {i : Nat} (hi : i < pageSize) :
    (flash.page address)[i]? = some (flash (address + i)) := by
  simp [page, hi]

/-- A page depends on its own bytes only. -/
theorem page_congr {address : Nat}
    (h : ∀ i < pageSize, flash (address + i) = flash' (address + i)) :
    flash.page address = flash'.page address := by
  refine List.map_congr_left fun i hi ↦ h i ?_
  simpa using hi

/-- The page will hold the data once it is programmed with it. -/
def Takes (flash : Flash) (address : Nat) (data : List UInt8) : Prop :=
  flash.Blank address ∨ flash.page address = data

/-- So does whether a page may be written without an erase. -/
theorem Takes.congr {address : Nat} {data : List UInt8} (h : flash.Takes address data)
    (hsame : ∀ i < pageSize, flash' (address + i) = flash (address + i)) :
    flash'.Takes address data := by
  rcases h with hblank | hpage
  · refine .inl fun i hi ↦ ?_
    rw [hsame i hi]
    exact hblank i hi
  · refine .inr ?_
    rw [page_congr hsame]
    exact hpage

end Flash

section WritePage

variable (part : FlashPart) {flash : Flash} {buffer data : List UInt8}

/-- Every sixteenth page begins a sector. -/
theorem isSectorStart_iff (p : Nat) : p * pageSize % sectorSize / pageSize = 0 ↔ p % 16 = 0 := by
  simp only [pageSize, sectorSize]
  omega

/-- A page written into an erased place, or over itself, reads back. -/
theorem page_writeFlashPage (hbuffer : pageSize ≤ buffer.length) {p : Nat}
    (htakes : p % 16 ≠ 0 → flash.Takes (p * pageSize) (buffer.take pageSize)) :
    Flash.page (writeFlashPage part flash (p * pageSize) buffer) (p * pageSize) =
      buffer.take pageSize := by
  have hlength : (buffer.take pageSize).length = pageSize := by simp [hbuffer]
  unfold writeFlashPage
  split
  · refine part.program_blank _ _ _ hlength fun i hi ↦ part.erase_inside _ _ _ (by omega) ?_
    simp only [pageSize, sectorSize] at hi ⊢
    omega
  · rename_i hstart
    rw [isSectorStart_iff] at hstart
    rcases htakes hstart with hblank | hpage
    · exact part.program_blank _ _ _ hlength hblank
    · exact part.program_same _ _ _ hlength hpage

/-- The later pages of the sector stay ready, or become so when the sector is erased. -/
theorem takes_writeFlashPage {p q : Nat} (hlater : p < q) (hsector : q / 16 = p / 16)
    (htakes : p % 16 ≠ 0 → flash.Takes (q * pageSize) data) :
    Flash.Takes (writeFlashPage part flash (p * pageSize) buffer) (q * pageSize) data := by
  have houtside : ∀ (f : Flash) i, part.program f (p * pageSize) (buffer.take pageSize)
      (q * pageSize + i) = f (q * pageSize + i) := by
    intro f i
    have hlength : (buffer.take pageSize).length ≤ pageSize := List.length_take_le _ _
    refine part.program_outside _ _ _ _ (.inr ?_)
    simp only [pageSize] at hlength ⊢
    omega
  unfold writeFlashPage
  split
  · refine .inl fun i hi ↦ ?_
    rw [houtside]
    refine part.erase_inside _ _ _ ?_ ?_ <;> simp only [pageSize, sectorSize] at hi ⊢ <;> omega
  · rename_i hstart
    rw [isSectorStart_iff] at hstart
    exact (htakes hstart).congr fun i _ ↦ houtside _ i

/-- A write past the image leaves the image alone. -/
theorem writeFlashPage_past {target address : Nat} (haddress : address < target) :
    writeFlashPage part flash target buffer address = flash address := by
  unfold writeFlashPage
  rw [part.program_outside _ _ _ _ (.inl haddress)]
  split
  · exact part.erase_outside _ _ _ (.inl haddress)
  · rfl

end WritePage

/-! ## A pull in progress -/

namespace FwUpgrade

/-- The pages the pull has put in flash and will not touch again. -/
def pagesDone (fw : FwUpgrade) : Nat :=
  if fw.byteDone then (fw.address - 1) / pageSize else fw.address / pageSize

/-- The buffer holds words of a page that is not in flash. -/
def HoldsWords (fw : FwUpgrade) : Prop :=
  fw.mayPull = true ∧ fw.address ≠ 0 ∧ (fw.address % pageSize ≠ 0 ∨ fw.byteDone = true)

instance (fw : FwUpgrade) : Decidable fw.HoldsWords := inferInstanceAs (Decidable (_ ∧ _))

/-- The page that ends where the pull stands. -/
theorem lastPage_eq {fw : FwUpgrade} {p : Nat} (hpage : fw.address = (p + 1) * pageSize) :
    (fw.address - 1) / pageSize = p := by
  simp only [pageSize] at hpage ⊢
  omega

/-- At the start of a page all pages before it are done, but for the one just filled. -/
theorem pagesDone_eq {fw : FwUpgrade} (hdone : fw.byteDone = true) {p : Nat}
    (hpage : fw.address = (p + 1) * pageSize) : fw.pagesDone = p := by
  unfold pagesDone
  rw [if_pos hdone]
  exact lastPage_eq hpage

/-- At address zero no page is done. -/
theorem pagesDone_zero {fw : FwUpgrade} (hzero : fw.address = 0) : fw.pagesDone = 0 := by
  unfold pagesDone
  simp [hzero]

/-- A word taken in completes no page by itself. -/
theorem pagesDone_taken {fw : FwUpgrade} (haligned : fw.address % 4 = 0)
    (hturn : fw.byteDone = false ∨ fw.address = 0) :
    (fw.address + 4 - 1) / pageSize = fw.pagesDone := by
  unfold pagesDone
  rcases hturn with hdone | hzero
  · rw [if_neg (by simp [hdone])]
    simp only [pageSize]
    omega
  · split <;> simp [hzero, pageSize]

/-- Without a transfer nothing is pulled. -/
theorem mayPull_of_progress {fw : FwUpgrade} (h : fw.upgradeInProgress = false) :
    fw.mayPull = false := by
  simp [mayPull, h]

/-- A pull starts only where none is running. -/
theorem mayPull_of_shouldPull {fw : FwUpgrade} {ours peers : ImageId} {follows : Bool}
    (h : fw.shouldPull ours peers follows = true) : fw.mayPull = false := by
  unfold shouldPull at h
  split at h
  · cases h
  · rename_i hprogress
    exact mayPull_of_progress (by simpa using hprogress)

/-- A word counted as lost was asked for a full interval ago. -/
theorem elapsed_of_requestLost {fw : FwUpgrade} {now : Nat} (h : fw.requestLost now = true) :
    fwUpgradeRerequestUs ≤ now - fw.requestedAt := by
  simp only [requestLost, Bool.and_eq_true, decide_eq_true_eq] at h
  exact h.2.trans (Nat.mod_le _ _)

/-- A transfer that is stalled has stood still for the stall window. -/
theorem elapsed_of_stalled {fw : FwUpgrade} {now : Nat} (h : fw.stalled now = true) :
    fwUpgradeStallUs ≤ now - fw.progressedAt := by
  simp only [stalled, Bool.and_eq_true, decide_eq_true_eq] at h
  exact h.2.trans (Nat.mod_le _ _)

end FwUpgrade

/-- The pull's place in the image: its words are the peer's, and flash is ready for the page they
make up. -/
structure Assembles (peer : Flash) (b : Board) : Prop where
  aligned : b.fw.address % 4 = 0
  bound : b.fw.address ≤ stagingImageSize
  words : b.fw.HoldsWords → ∀ a < b.fw.address, a / pageSize = (b.fw.address - 1) / pageSize →
    b.pageBuffer[a % pageSize]? = some (peer a)
  ready : b.fw.pagesDone ≠ 0 → ∀ q, b.fw.pagesDone ≤ q → q / 16 = (b.fw.pagesDone - 1) / 16 →
    b.flash.Takes (q * pageSize) (peer.page (q * pageSize))

/-- What a pull may have in flight: the word it waits for, and before it at most one word left of an
earlier pull, or the repeat of a first word that such a word answered. -/
structure InFlight (fw : FwUpgrade) (older current : List Word) : Prop where
  older_length : older.length ≤ 1
  current_length : current.length ≤ 1
  older_before : ∀ w ∈ older, w.sentAt ≤ fw.progressedAt
  older_place : ∀ w ∈ older, fw.address = 0 ∨ fw.address = 4 ∧ w.address = 0
  current_place : ∀ w ∈ current, fw.byteDone = false ∧ w.address = fw.address
  asked : fw.byteDone = false → ∀ w ∈ older ++ current, w.sentAt ≤ fw.requestedAt

namespace InFlight

variable {fw : FwUpgrade} {older current older' current' : List Word}

/-- Losing words keeps the account. -/
theorem sublist (h : InFlight fw older current) (holder : older'.Sublist older)
    (hcurrent : current'.Sublist current) : InFlight fw older' current' where
  older_length := holder.length_le.trans h.older_length
  current_length := hcurrent.length_le.trans h.current_length
  older_before := fun w hw ↦ h.older_before w (holder.subset hw)
  older_place := fun w hw ↦ h.older_place w (holder.subset hw)
  current_place := fun w hw ↦ h.current_place w (hcurrent.subset hw)
  asked := fun hdone w hw ↦ h.asked hdone w ((holder.append hcurrent).subset hw)

end InFlight

/-- What is in flight, whether or not a pull is running. -/
def Flight (fw : FwUpgrade) (link : List Word) : Prop :=
  if fw.mayPull = true then ∃ older current, link = older ++ current ∧ InFlight fw older current
  else link.length ≤ 1

namespace Flight

variable {fw : FwUpgrade} {link link' : List Word}

/-- Words may be lost. -/
theorem sublist (h : Flight fw link) (hsub : link'.Sublist link) : Flight fw link' := by
  unfold Flight at h ⊢
  split
  · rename_i hpull
    rw [if_pos hpull] at h
    obtain ⟨older, current, rfl, hflight⟩ := h
    obtain ⟨older', current', rfl, holder, hcurrent⟩ := List.sublist_append_iff.1 hsub
    exact ⟨older', current', rfl, hflight.sublist holder hcurrent⟩
  · rename_i hpull
    rw [if_neg hpull] at h
    exact hsub.length_le.trans h

/-- Without a pull at most one word is in flight. -/
theorem of_idle (hidle : fw.mayPull = false) (hlink : link.length ≤ 1) : Flight fw link := by
  unfold Flight
  rw [if_neg (by simp [hidle])]
  exact hlink

/-- So it is afterwards. -/
theorem length_of_idle (h : Flight fw link) (hidle : fw.mayPull = false) : link.length ≤ 1 := by
  unfold Flight at h
  rwa [if_neg (by simp [hidle])] at h

/-- Words of a pull are in flight. -/
theorem of_pull {older current : List Word} (h : InFlight fw older current)
    (hpull : fw.mayPull = true) : Flight fw (older ++ current) := by
  unfold Flight
  rw [if_pos hpull]
  exact ⟨older, current, rfl, h⟩

/-- In a pull they are those asked for before and the one asked for last. -/
theorem cases_of_pull (h : Flight fw link) (hpull : fw.mayPull = true) :
    ∃ older current, link = older ++ current ∧ InFlight fw older current := by
  unfold Flight at h
  rwa [if_pos hpull] at h

end Flight

/-! ## One pass of the task -/

namespace Board

variable (part : FlashPart) {b : Board}

/-- What a pass does: nothing, ask again for a word counted as lost, ask for the next word, write
the page first, or write the last page and end. -/
inductive Passes (b : Board) (now : Nat) : Pass → Prop where
  | rests : Passes b now { board := b }
  | repeats (hpull : b.fw.mayPull = true) (hdone : b.fw.byteDone = false)
      (hlost : b.fw.requestLost now = true) (accepted : Bool) :
      Passes b now (b.requestByte b.fw.address now accepted)
  | requests (hpull : b.fw.mayPull = true) (hdone : b.fw.byteDone = true)
      (hpart : b.fw.address % pageSize ≠ 0 ∨ b.fw.address = 0)
      (hmore : b.fw.address < stagingImageSize) (accepted : Bool) :
      Passes b now (b.requestByte b.fw.address now accepted)
  | writes (hpull : b.fw.mayPull = true) (hdone : b.fw.byteDone = true) {p : Nat}
      (hpage : b.fw.address = (p + 1) * pageSize) (hmore : b.fw.address < stagingImageSize)
      (accepted : Bool) :
      Passes b now { (b.writePage part).requestByte b.fw.address now accepted with
        page := some (b.pageWrite part) }
  | ends (hpull : b.fw.mayPull = true) (hdone : b.fw.byteDone = true) {p : Nat}
      (hpage : b.fw.address = (p + 1) * pageSize) (hlast : b.fw.address = stagingImageSize) :
      Passes b now { (b.writePage part).endPull part with
        page := some (b.pageWrite part) }

/-- A request writes no page. -/
theorem page_requestByte (address now : Nat) (accepted : Bool) :
    (b.requestByte address now accepted).page = none := by
  unfold requestByte
  split <;> rfl

/-- A pass of the task does what a pass may do. -/
theorem passes_task {peer : Flash} (hassembles : b.fw.mayPull = true → Assembles peer b)
    (queueIsFull accepted : Bool) (now : Nat) :
    b.Passes part now (b.firmwareUpgradeTask part queueIsFull accepted now) := by
  unfold firmwareUpgradeTask
  split
  · exact .rests
  · rename_i hpull
    have hpull : b.fw.mayPull = true := by simpa using hpull
    split
    · rename_i hdone
      split
      · rename_i hlost
        exact .repeats hpull hdone hlost accepted
      · exact .rests
    · rename_i hdone
      have hdone : b.fw.byteDone = true := by simpa using hdone
      have hbound := (hassembles hpull).bound
      split
      · exact .rests
      · by_cases hcomplete : b.fw.address % 256 = 0 ∧ b.fw.address ≠ 0
        · -- the page ends where the next one begins
          obtain ⟨p, hp⟩ : ∃ p, b.fw.address = (p + 1) * pageSize := by
            refine ⟨b.fw.address / 256 - 1, ?_⟩
            simp only [pageSize]
            omega
          simp only [if_pos hcomplete]
          split
          · rename_i hlast
            exact .ends hpull hdone hp (Nat.le_antisymm hbound hlast)
          · rename_i hmore
            exact .writes hpull hdone hp (Nat.lt_of_not_le hmore) accepted
        · have hpart : b.fw.address % pageSize ≠ 0 ∨ b.fw.address = 0 := by
            simp only [pageSize]
            omega
          have hmore : b.fw.address < stagingImageSize := by
            simp only [stagingImageSize, stagingPagesCnt, pageSize] at hbound hpart ⊢
            omega
          simp only [if_neg hcomplete, if_neg (Nat.not_le.2 hmore)]
          rw [← page_requestByte b.fw.address now accepted]
          exact .requests hpull hdone hpart hmore accepted

end Board

/-! ## Words and pages -/

namespace InFlight

variable {fw : FwUpgrade} {older current : List Word} {now : Nat}

/-- A pull that waits for nothing has no word of its own in flight. -/
theorem current_nil (h : InFlight fw older current) (hdone : fw.byteDone = true) :
    current = [] := by
  refine List.eq_nil_iff_forall_not_mem.2 fun w hw ↦ ?_
  have hwaits := (h.current_place w hw).1
  rw [hdone] at hwaits
  cases hwaits

/-- Marking the image dirty asks for nothing. -/
theorem dirty (h : InFlight fw older current) :
    InFlight { fw with imageDirty := true } older current where
  older_length := h.older_length
  current_length := h.current_length
  older_before := h.older_before
  older_place := h.older_place
  current_place := h.current_place
  asked := h.asked

/-- A word is asked for. -/
theorem request (h : InFlight fw older []) (hsent : ∀ w ∈ older, w.sentAt ≤ now) :
    InFlight { fw with requestedAt := now, byteDone := false } older [⟨fw.address, now⟩] where
  older_length := h.older_length
  current_length := Nat.le_refl 1
  older_before := h.older_before
  older_place := h.older_place
  current_place := by
    intro w hw
    cases List.mem_singleton.1 hw
    exact ⟨rfl, rfl⟩
  asked := by
    intro _ w hw
    rcases List.mem_append.1 hw with hw | hw
    · exact hsent w hw
    · cases List.mem_singleton.1 hw
      exact Nat.le_refl now

/-- A request the queue refuses asks for nothing. -/
theorem refuse (h : InFlight fw older []) (hsent : ∀ w ∈ older, w.sentAt ≤ now) :
    InFlight { fw with requestedAt := now } older [] where
  older_length := h.older_length
  current_length := h.current_length
  older_before := h.older_before
  older_place := h.older_place
  current_place := by simp
  asked := by
    intro _ w hw
    exact hsent w (by simpa using hw)

end InFlight

namespace Assembles

variable {part : FlashPart} {peer : Flash} {b : Board}

/-- The place of the pull does not depend on when it last asked. -/
theorem refuse (h : Assembles peer b) (now : Nat) :
    Assembles peer { b with fw := { b.fw with requestedAt := now } } :=
  ⟨h.aligned, h.bound, h.words, h.ready⟩

/-- Waiting for the next word, with the pages before it in flash. -/
theorem request (h : Assembles peer b) (hdone : b.fw.byteDone = true)
    (hready : b.fw.address / pageSize ≠ 0 → ∀ q, b.fw.address / pageSize ≤ q →
      q / 16 = (b.fw.address / pageSize - 1) / 16 →
      b.flash.Takes (q * pageSize) (peer.page (q * pageSize))) (now : Nat) :
    Assembles peer { b with fw := { b.fw with requestedAt := now, byteDone := false } } where
  aligned := h.aligned
  bound := h.bound
  words := fun hholds ↦ h.words ⟨hholds.1, hholds.2.1, .inr hdone⟩
  ready := hready

/-- The buffer holds the whole of the peer's page. -/
theorem page_eq (h : Assembles peer b)
    (hpull : b.fw.mayPull = true) (hdone : b.fw.byteDone = true) {p : Nat}
    (hpage : b.fw.address = (p + 1) * pageSize) :
    b.pageBuffer.take pageSize = peer.page (p * pageSize) := by
  have hholds : b.fw.HoldsWords := by
    refine ⟨hpull, ?_, .inr hdone⟩
    simp only [pageSize] at hpage
    omega
  refine List.ext_getElem? fun i ↦ ?_
  by_cases hi : i < pageSize
  · rw [List.getElem?_take_of_lt hi, Flash.page_getElem? _ _ hi]
    have hword := h.words hholds (p * pageSize + i)
    simp only [pageSize] at hpage hi hword ⊢
    have hindex : (p * 256 + i) % 256 = i := by omega
    rw [hindex] at hword
    exact hword (by omega) (by omega)
  · have hpast : pageSize ≤ i := Nat.le_of_not_lt hi
    rw [List.getElem?_eq_none (by simp [hpast]), List.getElem?_eq_none (by simp [hpast])]

section WritePage

variable (part) (h : Assembles peer b) (hlength : pageSize ≤ b.pageBuffer.length)
  (hpull : b.fw.mayPull = true) (hdone : b.fw.byteDone = true) {p : Nat}
  (hpage : b.fw.address = (p + 1) * pageSize)
include h hlength hpull hdone hpage

/-- The page the pull writes reads back as the peer's. -/
theorem page_writePage :
    (b.writePage part).flash.page (p * pageSize) = peer.page (p * pageSize) := by
  have hdata := h.page_eq hpull hdone hpage
  have hcount := FwUpgrade.pagesDone_eq hdone hpage
  show Flash.page (writeFlashPage part b.flash ((b.fw.address - 1) / pageSize * pageSize)
    b.pageBuffer) (p * pageSize) = _
  rw [FwUpgrade.lastPage_eq hpage, page_writeFlashPage part hlength, hdata]
  intro hinside
  rw [hdata]
  exact h.ready (by omega) p (by omega) (by omega)

omit hlength hpull in
/-- The later pages of its sector are ready. -/
theorem takes_writePage {q : Nat} (hlater : p < q) (hsector : q / 16 = p / 16) :
    (b.writePage part).flash.Takes (q * pageSize) (peer.page (q * pageSize)) := by
  have hcount := FwUpgrade.pagesDone_eq hdone hpage
  show Flash.Takes (writeFlashPage part b.flash ((b.fw.address - 1) / pageSize * pageSize)
    b.pageBuffer) (q * pageSize) _
  rw [FwUpgrade.lastPage_eq hpage]
  refine takes_writeFlashPage part hlater hsector fun hinside ↦ ?_
  exact h.ready (by omega) q (by omega) (by omega)

/-- The write is on record as the peer's page, whole, at its place. -/
theorem pageWrite_eq : b.pageWrite part =
    ⟨p * pageSize, peer.page (p * pageSize), peer.page (p * pageSize)⟩ := by
  unfold Board.pageWrite
  simp only [FwUpgrade.lastPage_eq hpage, h.page_eq hpull hdone hpage,
    h.page_writePage part hlength hpull hdone hpage]

/-- The pull after the page is written, before the next word is asked for. -/
theorem writePage : Assembles peer (b.writePage part) where
  aligned := h.aligned
  bound := h.bound
  words := h.words
  ready := by
    have hcount : (b.writePage part).fw.pagesDone = p := FwUpgrade.pagesDone_eq hdone hpage
    rw [hcount]
    intro hsome q hq hsector
    rcases Nat.eq_or_lt_of_le hq with rfl | hlater
    · exact .inr (h.page_writePage part hlength hpull hdone hpage)
    · exact h.takes_writePage part hdone hpage hlater (by omega)

end WritePage

end Assembles

/-! ## The account of a run -/

/-- The pages the running pull has behind it are among those written. -/
def Covered (written : List PulledPage) (pull count : Nat) : Prop :=
  ∀ p < count, ∃ w ∈ written, w.pull = pull ∧ w.address = p * pageSize

/-- More pages may be written. -/
theorem Covered.snoc {written : List PulledPage} {pull count : Nat} (h : Covered written pull count)
    (w : PulledPage) : Covered (written ++ [w]) pull count := by
  intro p hp
  obtain ⟨v, hv, hplace⟩ := h p hp
  exact ⟨v, List.mem_append_left _ hv, hplace⟩

/-- The next page is covered once it is written. -/
theorem Covered.next {written : List PulledPage} {pull count : Nat} (h : Covered written pull count)
    {w : PulledPage} (hpull : w.pull = pull) (haddress : w.address = count * pageSize) :
    Covered (written ++ [w]) pull (count + 1) := by
  intro p hp
  rcases Nat.lt_succ_iff_lt_or_eq.1 hp with hp | rfl
  · exact h.snoc w p hp
  · exact ⟨w, by simp, hpull, haddress⟩

/-- What holds at every moment of a run in which the buffer is left to the pull. -/
structure Sound (peer : Flash) (s : Rig) : Prop where
  buffer_length : s.board.pageBuffer.length = configFlashBytes
  pages : ∀ w ∈ s.written, w.data = peer.page w.address ∧ w.stored = peer.page w.address
  finished : ∀ pull ∈ s.finished, Covered s.written pull stagingPagesCnt
  requested_past : s.board.fw.requestedAt ≤ s.clock
  progressed_past : s.board.fw.progressedAt ≤ s.clock
  sent_past : ∀ w ∈ s.link, w.sentAt ≤ s.clock
  flight : s.board.rom = false → Flight s.board.fw s.link
  assembles : s.board.rom = false → s.board.fw.mayPull = true → Assembles peer s.board
  covered : s.board.fw.mayPull = true → Covered s.written s.pulls s.board.fw.pagesDone

namespace Sound

variable {part : FlashPart} {peer : Flash} {s : Rig}

/-- A board that has just started has pulled nothing. -/
theorem boot (flash : Flash) (follows : Bool) : Sound peer (Rig.boot flash follows) where
  buffer_length := by simp [Rig.boot]
  pages := by simp [Rig.boot]
  finished := by simp [Rig.boot]
  requested_past := Nat.zero_le _
  progressed_past := Nat.zero_le _
  sent_past := by simp [Rig.boot]
  flight := fun _ ↦ Flight.of_idle rfl (Nat.zero_le _)
  assembles := fun _ hpull ↦ by cases hpull
  covered := fun hpull ↦ by cases hpull

/-- Time passing loses words and changes nothing else. -/
theorem wait (h : Sound peer s) (elapsed : Nat) : Sound peer (s.wait elapsed) := by
  have hsub : (s.wait elapsed).link.Sublist s.link := List.filter_sublist
  exact
    { buffer_length := h.buffer_length
      pages := h.pages
      finished := h.finished
      requested_past := h.requested_past.trans (Nat.le_add_right _ _)
      progressed_past := h.progressed_past.trans (Nat.le_add_right _ _)
      sent_past := fun w hw ↦ (h.sent_past w (hsub.subset hw)).trans (Nat.le_add_right _ _)
      flight := fun hrom ↦ (h.flight hrom).sublist hsub
      assembles := h.assembles
      covered := h.covered }

/-- A word may be lost. -/
theorem lose (h : Sound peer s) (place : Nat) :
    Sound peer { s with link := s.link.eraseIdx place } := by
  have hsub : (s.link.eraseIdx place).Sublist s.link := List.eraseIdx_sublist _ _
  exact { h with
    sent_past := fun w hw ↦ h.sent_past w (hsub.subset hw)
    flight := fun hrom ↦ (h.flight hrom).sublist hsub }

/-! ### The task -/

section Pass

variable (s)

/-- A pass that does nothing changes nothing. -/
theorem pass_rests : s.pass { board := s.board } = s := by
  simp [Rig.pass]

/-- A pass whose request is refused stamps the time. -/
theorem pass_refused (address : Nat) :
    s.pass (s.board.requestByte address s.clock false) =
      { s with board := { s.board with fw := { s.board.fw with requestedAt := s.clock } } } := by
  simp [Rig.pass, Board.requestByte]

/-- A pass whose request is taken puts a word on the line. -/
theorem pass_accepted (address : Nat) :
    s.pass (s.board.requestByte address s.clock true) =
      { s with
        board := { s.board with
          fw := { s.board.fw with requestedAt := s.clock, byteDone := false } }
        link := s.link ++ [⟨address, s.clock⟩] } := by
  simp [Rig.pass, Board.requestByte]

/-- A pass that fills a page writes it down. -/
theorem pass_page (b : Board) (page : PageWrite) :
    s.pass { board := b, page := some page } =
      { s with board := b, written := s.written ++ [⟨page, s.pulls⟩] } := by
  simp [Rig.pass]

/-- A pass that writes a page is the write and then the rest of the pass. -/
theorem pass_after_page (p : Pass) (hnone : p.page = none) (b : Board) (page : PageWrite) :
    s.pass { p with page := some page } = (s.pass { board := b, page := some page }).pass p := by
  simp [Rig.pass, hnone]

end Pass

/-- The page the pull stands behind goes to flash, and the pull still waits for nothing. -/
theorem writes (h : Sound peer s) (hrom : s.board.rom = false) (hpull : s.board.fw.mayPull = true)
    (hdone : s.board.fw.byteDone = true) {p : Nat}
    (hpage : s.board.fw.address = (p + 1) * pageSize) :
    Sound peer
      (s.pass { board := s.board.writePage part, page := some (s.board.pageWrite part) }) := by
  have hplace := h.assembles hrom hpull
  have hlength : pageSize ≤ s.board.pageBuffer.length := by
    rw [h.buffer_length]
    decide
  have hrecord := hplace.pageWrite_eq part hlength hpull hdone hpage
  rw [pass_page]
  exact
    { buffer_length := h.buffer_length
      pages := by
        intro w hw
        rcases List.mem_append.1 hw with hw | hw
        · exact h.pages w hw
        · cases List.mem_singleton.1 hw
          rw [hrecord]
          exact ⟨rfl, rfl⟩
      finished := fun pull hpull ↦ (h.finished pull hpull).snoc _
      requested_past := h.requested_past
      progressed_past := h.progressed_past
      sent_past := h.sent_past
      flight := fun _ ↦ by
        obtain ⟨older, current, hlink, hflight⟩ := (h.flight hrom).cases_of_pull hpull
        rw [hlink]
        exact Flight.of_pull hflight.dirty hpull
      assembles := fun _ _ ↦ hplace.writePage part hlength hpull hdone hpage
      covered := fun _ ↦ (h.covered hpull).snoc _ }

/-- The written page is the next of the pages behind the pull. -/
theorem covered_writes (h : Sound peer s) (hpull : s.board.fw.mayPull = true)
    (hdone : s.board.fw.byteDone = true) {p : Nat}
    (hpage : s.board.fw.address = (p + 1) * pageSize) :
    Covered (s.written ++ [⟨s.board.pageWrite part, s.pulls⟩]) s.pulls (p + 1) := by
  have hbefore : Covered s.written s.pulls p := by
    have hcovered := h.covered hpull
    rwa [FwUpgrade.pagesDone_eq hdone hpage] at hcovered
  refine hbefore.next rfl ?_
  show (s.board.fw.address - 1) / pageSize * pageSize = p * pageSize
  rw [FwUpgrade.lastPage_eq hpage]

/-- Asking for a word, with every page before it in flash. -/
theorem asks (h : Sound peer s) (hrom : s.board.rom = false) (hpull : s.board.fw.mayPull = true)
    (hdone : s.board.fw.byteDone = true)
    (hready : s.board.fw.address / pageSize ≠ 0 → ∀ q, s.board.fw.address / pageSize ≤ q →
      q / 16 = (s.board.fw.address / pageSize - 1) / 16 →
      s.board.flash.Takes (q * pageSize) (peer.page (q * pageSize)))
    (hcovered : Covered s.written s.pulls (s.board.fw.address / pageSize)) (accepted : Bool) :
    Sound peer (s.pass (s.board.requestByte s.board.fw.address s.clock accepted)) := by
  obtain ⟨older, current, hlink, hflight⟩ := (h.flight hrom).cases_of_pull hpull
  obtain rfl := hflight.current_nil hdone
  rw [List.append_nil] at hlink
  have hsent : ∀ w ∈ older, w.sentAt ≤ s.clock := by
    rw [← hlink]
    exact h.sent_past
  cases accepted with
  | false =>
      rw [pass_refused]
      exact { h with
        requested_past := Nat.le_refl _
        flight := fun _ ↦ by
          rw [hlink, ← List.append_nil older]
          exact Flight.of_pull (hflight.refuse hsent) hpull
        assembles := fun _ _ ↦ (h.assembles hrom hpull).refuse s.clock
        covered := fun _ ↦ h.covered hpull }
  | true =>
      rw [pass_accepted]
      exact { h with
        requested_past := Nat.le_refl _
        sent_past := by
          intro w hw
          rcases List.mem_append.1 hw with hw | hw
          · exact h.sent_past w hw
          · cases List.mem_singleton.1 hw
            exact Nat.le_refl _
        flight := fun _ ↦ by
          rw [hlink]
          exact Flight.of_pull (hflight.request hsent) hpull
        assembles := fun _ _ ↦ (h.assembles hrom hpull).request hdone hready s.clock
        covered := fun _ ↦ hcovered }

/-- Asking again: what was asked for before is lost by now. -/
theorem repeats (h : Sound peer s) (hrom : s.board.rom = false)
    (hfresh : ∀ w ∈ s.link, s.clock - w.sentAt < fwUpgradeRerequestUs)
    (hpull : s.board.fw.mayPull = true) (hdone : s.board.fw.byteDone = false)
    (hlost : s.board.fw.requestLost s.clock = true) (accepted : Bool) :
    Sound peer (s.pass (s.board.requestByte s.board.fw.address s.clock accepted)) := by
  obtain ⟨older, current, hlink, hflight⟩ := (h.flight hrom).cases_of_pull hpull
  have hempty : older ++ current = [] := by
    refine List.eq_nil_iff_forall_not_mem.2 fun w hw ↦ ?_
    have hsent := hflight.asked hdone w hw
    have hnew := hfresh w (by rw [hlink]; exact hw)
    have hold := FwUpgrade.elapsed_of_requestLost hlost
    omega
  obtain ⟨rfl, rfl⟩ := List.append_eq_nil_iff.1 hempty
  have hnone : ∀ w ∈ ([] : List Word), w.sentAt ≤ s.clock := by simp
  have hstill : { s.board.fw with requestedAt := s.clock, byteDone := false } =
      { s.board.fw with requestedAt := s.clock } := by
    rw [← hdone]
  cases accepted with
  | false =>
      rw [pass_refused]
      exact { h with
        requested_past := Nat.le_refl _
        flight := fun _ ↦ by
          rw [hlink]
          exact Flight.of_pull (hflight.refuse hnone) hpull
        assembles := fun _ _ ↦ (h.assembles hrom hpull).refuse s.clock
        covered := fun _ ↦ h.covered hpull }
  | true =>
      rw [pass_accepted]
      exact { h with
        requested_past := Nat.le_refl _
        sent_past := by
          intro w hw
          rw [hlink] at hw
          cases List.mem_singleton.1 hw
          exact Nat.le_refl _
        flight := fun _ ↦ by
          rw [hlink, List.append_assoc]
          exact Flight.of_pull (hflight.request hnone) hpull
        assembles := fun _ _ ↦ by
          rw [hstill]
          exact (h.assembles hrom hpull).refuse s.clock
        covered := fun _ ↦ by
          rw [hstill]
          exact h.covered hpull }

/-- The last page is in flash: the pull is over, and every page of it is on record. -/
theorem ends (h : Sound peer s) (hflight : s.link.length ≤ 1)
    (hcovered : Covered s.written s.pulls stagingPagesCnt) :
    Sound peer (s.pass (s.board.endPull part)) := by
  unfold Board.endPull
  dsimp only
  split
  · simp only [Board.recoverToRom, Rig.pass, Option.map_none, Option.toList_none, List.append_nil]
    exact { h with
      flight := fun hrom ↦ by cases hrom
      assembles := fun hrom ↦ by cases hrom
      covered := fun hpull ↦ by cases hpull }
  · simp only [Rig.pass, Option.map_none, Option.toList_none, List.append_nil]
    exact { h with
      finished := by
        intro pull hmem
        rcases List.mem_append.1 hmem with hmem | hmem
        · exact h.finished pull hmem
        · cases List.mem_singleton.1 hmem
          exact hcovered
      flight := fun _ ↦ Flight.of_idle rfl hflight
      assembles := fun _ hpull ↦ by cases hpull
      covered := fun hpull ↦ by cases hpull }

/-- The end of a pull writes no page. -/
theorem page_endPull (b : Board) : (b.endPull part).page = none := by
  simp only [Board.endPull, apply_ite Pass.page, ite_self]

/-- The link of a pull that waits for nothing holds no more than one word. -/
theorem link_length_of_done (h : Sound peer s) (hrom : s.board.rom = false)
    (hpull : s.board.fw.mayPull = true) (hdone : s.board.fw.byteDone = true) :
    s.link.length ≤ 1 := by
  obtain ⟨older, current, hlink, hflight⟩ := (h.flight hrom).cases_of_pull hpull
  obtain rfl := hflight.current_nil hdone
  rw [hlink, List.append_nil]
  exact hflight.older_length

/-- A pass of the task keeps what is known of the pages. -/
theorem task (h : Sound peer s) (hrom : s.board.rom = false)
    (hfresh : ∀ w ∈ s.link, s.clock - w.sentAt < fwUpgradeRerequestUs)
    (queueIsFull accepted : Bool) :
    Sound peer (s.pass (s.board.firmwareUpgradeTask part queueIsFull accepted s.clock)) := by
  have hpasses := Board.passes_task part (h.assembles hrom) queueIsFull accepted s.clock
  generalize s.board.firmwareUpgradeTask part queueIsFull accepted s.clock = pass at hpasses
  cases hpasses with
  | rests =>
      rw [pass_rests]
      exact h
  | repeats hpull hdone hlost accepted => exact h.repeats hrom hfresh hpull hdone hlost accepted
  | requests hpull hdone hpart hmore accepted =>
      -- the page is not complete, so the pages done are those before the address
      have hcount : s.board.fw.address / pageSize = s.board.fw.pagesDone := by
        unfold FwUpgrade.pagesDone
        rw [if_pos hdone]
        simp only [pageSize] at hpart ⊢
        omega
      refine h.asks hrom hpull hdone ?_ ?_ accepted
      · rw [hcount]
        exact (h.assembles hrom hpull).ready
      · rw [hcount]
        exact h.covered hpull
  | @writes hpull hdone p hpage hmore accepted =>
      have hplace := h.assembles hrom hpull
      have hcount : s.board.fw.address / pageSize = p + 1 := by
        simp only [pageSize] at hpage ⊢
        omega
      rw [pass_after_page s _ (Board.page_requestByte _ _ _) (s.board.writePage part)]
      refine (h.writes hrom hpull hdone hpage).asks hrom hpull hdone ?_ ?_ accepted
      · rw [pass_page]
        show s.board.fw.address / pageSize ≠ 0 → ∀ q, s.board.fw.address / pageSize ≤ q →
          q / 16 = (s.board.fw.address / pageSize - 1) / 16 → _
        rw [hcount]
        intro _ q hq hsector
        exact hplace.takes_writePage part hdone hpage hq hsector
      · rw [pass_page]
        show Covered _ _ (s.board.fw.address / pageSize)
        rw [hcount]
        exact h.covered_writes hpull hdone hpage
  | @ends hpull hdone p hpage hlast =>
      have hcount : p + 1 = stagingPagesCnt := by
        simp only [stagingImageSize, stagingPagesCnt, pageSize] at hpage hlast ⊢
        omega
      rw [pass_after_page s _ (page_endPull _) (s.board.writePage part)]
      refine (h.writes hrom hpull hdone hpage).ends ?_ ?_
      · rw [pass_page]
        exact h.link_length_of_done hrom hpull hdone
      · rw [pass_page, ← hcount]
        exact h.covered_writes hpull hdone hpage

/-! ### The other events -/

/-- So does giving the pull up. -/
theorem abandons (h : Sound peer s) (hlink : s.link.length ≤ 1) :
    Sound peer { s with board := s.board.abandonFirmwareUpgrade part } := by
  unfold Board.abandonFirmwareUpgrade
  split
  · exact { h with
      flight := fun hrom ↦ by cases hrom
      assembles := fun hrom ↦ by cases hrom
      covered := h.covered }
  · exact { h with
      flight := fun _ ↦ Flight.of_idle rfl hlink
      assembles := fun _ hpull ↦ by cases hpull
      covered := fun hpull ↦ by cases hpull }

end Sound

/-- The word the pull waits for goes into the buffer. -/
theorem Assembles.takes {peer : Flash} {b : Board} (h : Assembles peer b)
    (hlength : b.pageBuffer.length = configFlashBytes) (hmore : b.fw.address < stagingImageSize)
    (hpull : b.fw.mayPull = true) (hturn : b.fw.byteDone = false ∨ b.fw.address = 0)
    (checksum : UInt32) (now : Nat) :
    Assembles peer { b with
      pageBuffer := overwrite b.pageBuffer (b.fw.address % 256)
        ((List.range 4).map fun i ↦ peer (b.fw.address + i))
      fw := { b.fw with
        checksum := checksum, address := b.fw.address + 4, byteDone :=
          true, progressedAt := now } } where
  aligned := by
    have := h.aligned
    show (b.fw.address + 4) % 4 = 0
    omega
  bound := by
    have := h.aligned
    show b.fw.address + 4 ≤ stagingImageSize
    simp only [stagingImageSize, stagingPagesCnt, pageSize] at hmore ⊢
    omega
  words := by
    have haligned := h.aligned
    intro _ a ha hsame
    change a < b.fw.address + 4 at ha
    change a / pageSize = (b.fw.address + 4 - 1) / pageSize at hsame
    have hplace : b.fw.address % 256 ≤ b.pageBuffer.length := by
      rw [hlength]
      simp only [configFlashBytes, configSize, pageSize]
      omega
    rw [overwrite_getElem? hplace]
    simp only [List.length_map, List.length_range, pageSize] at hsame ⊢
    by_cases hnew : b.fw.address ≤ a
    · have hindex : a % 256 - b.fw.address % 256 = a - b.fw.address := by omega
      rw [if_pos (by omega), hindex, List.getElem?_map, List.getElem?_range (by omega),
        Option.map_some, Nat.add_sub_cancel' hnew]
    · rw [if_neg (by omega)]
      -- an older byte of the page: it was there before the word came
      have hholds : b.fw.HoldsWords := by
        refine ⟨hpull, by omega, .inl ?_⟩
        simp only [pageSize]
        omega
      exact h.words hholds a (by omega) (by simp only [pageSize]; omega)
  ready := by
    -- the word finishes no page: the one it may fill is still to be written
    have hcount := FwUpgrade.pagesDone_taken h.aligned hturn
    show (b.fw.address + 4 - 1) / pageSize ≠ 0 → _
    intro hsome q hq hsector
    change (b.fw.address + 4 - 1) / pageSize ≤ q at hq
    change q / 16 = ((b.fw.address + 4 - 1) / pageSize - 1) / 16 at hsector
    rw [hcount] at hsome hq hsector
    exact h.ready hsome q hq hsector

/-- The word a pull takes in is the one it waits for, or the first word, left from an earlier pull;
what is then in flight is behind it. -/
theorem InFlight.taken {fw : FwUpgrade} {older current rest : List Word} {word : Word}
    (h : InFlight fw older current) (hlink : word :: rest = older ++ current)
    (haddress : word.address = fw.address) {checksum : UInt32} {now : Nat}
    (hsent : ∀ w ∈ rest, w.sentAt ≤ now) :
    (fw.byteDone = false ∨ fw.address = 0) ∧
    InFlight { fw with
      checksum := checksum, address := fw.address + 4, byteDone := true, progressedAt :=
        now } rest [] := by
  have hlength : (word :: rest).length ≤ 2 := by
    have holder := h.older_length
    have hcurrent := h.current_length
    rw [hlink, List.length_append]
    omega
  have hshort : rest.length ≤ 1 := by simpa using hlength
  cases older with
  | nil =>
      have hword : word ∈ current := by
        rw [List.nil_append] at hlink
        rw [← hlink]
        exact List.mem_cons_self
      have hempty : rest = [] := by
        have hcurrent := h.current_length
        rw [List.nil_append] at hlink
        rw [← hlink] at hcurrent
        simpa using hcurrent
      refine ⟨.inl (h.current_place word hword).1, ?_⟩
      subst hempty
      exact ⟨by simp, by simp, by simp, by simp, by simp, by simp⟩
  | cons first others =>
      have hothers : others = [] := by simpa using h.older_length
      subst hothers
      simp only [List.singleton_append, List.cons.injEq] at hlink
      obtain ⟨rfl, rfl⟩ := hlink
      have hzero : fw.address = 0 := by
        rcases h.older_place word List.mem_cons_self with hzero | ⟨hfour, hfirst⟩
        · exact hzero
        · omega
      refine ⟨.inr hzero, hshort, by simp, hsent, ?_, by simp, by simp⟩
      intro w hw
      refine .inr ⟨by simp [hzero], ?_⟩
      rw [(h.current_place w hw).2, hzero]

namespace Sound

variable {part : FlashPart} {peer : Flash} {s : Rig}

/-- Once a word has arrived, no more than one is in flight. -/
theorem rest_length (h : Sound peer s) (hrom : s.board.rom = false) {word : Word} {rest : List Word}
    (hlink : s.link = word :: rest) : rest.length ≤ 1 := by
  have hlength : s.link.length ≤ 2 := by
    by_cases hpull : s.board.fw.mayPull = true
    · obtain ⟨older, current, hsplit, hflight⟩ := (h.flight hrom).cases_of_pull hpull
      have holder := hflight.older_length
      have hcurrent := hflight.current_length
      rw [hsplit, List.length_append]
      omega
    · exact ((h.flight hrom).length_of_idle (by simpa using hpull)).trans (by decide)
  rw [hlink] at hlength
  simpa using hlength

/-- So does a word that arrives. -/
theorem delivers (h : Sound peer s) (hrom : s.board.rom = false) :
    Sound peer (s.deliver part peer) := by
  unfold Rig.deliver
  split
  · exact h
  · rename_i word rest hlink
    have hpopped : Sound peer { s with link := rest } := by
      have hlost := h.lose 0
      rwa [hlink] at hlost
    simp only [handleRequestByteMsg]
    split
    · exact hpopped
    · rename_i data hanswer
      split at hanswer
      · cases hanswer
      · rename_i hmore
        cases hanswer
        unfold Board.handleResponseByteMsg
        split
        · exact hpopped
        · rename_i hpull
          have hpull : s.board.fw.mayPull = true := by simpa using hpull
          split
          · exact hpopped.abandons (h.rest_length hrom hlink)
          · rename_i haddress
            have haddress : word.address = s.board.fw.address := by simpa using haddress
            -- the word answers the request of this pull, whatever older ones are still in flight
            obtain ⟨older, current, hsplit, hflight⟩ := (h.flight hrom).cases_of_pull hpull
            have hplace := h.assembles hrom hpull
            rw [haddress] at hmore ⊢
            obtain ⟨hturn, hbehind⟩ := hflight.taken (hlink.symm.trans hsplit) haddress
              hpopped.sent_past
            exact { hpopped with
              buffer_length := by
                show (overwrite _ _ _).length = _
                rw [overwrite_length]
                · exact h.buffer_length
                · simp only [List.length_map, List.length_range, h.buffer_length, configFlashBytes,
                    configSize, pageSize]
                  omega
              progressed_past := Nat.le_refl _
              flight := fun _ ↦ by
                rw [← List.append_nil rest]
                exact Flight.of_pull hbehind hpull
              assembles := fun _ _ ↦
                hplace.takes h.buffer_length (Nat.lt_of_not_le hmore) hpull hturn _ _
              covered := fun _ ↦ by
                show Covered s.written s.pulls ((s.board.fw.address + 4 - 1) / pageSize)
                rw [FwUpgrade.pagesDone_taken hplace.aligned hturn]
                exact h.covered hpull }

/-- A heartbeat may begin a pull. What is in flight then is left from the one before. -/
theorem hears (h : Sound peer s) (hrom : s.board.rom = false) (peers : ImageId) :
    Sound peer (s.heartbeat peers) := by
  unfold Rig.heartbeat Board.handleHeartbeatMsg
  by_cases hbegins : s.board.fw.shouldPull s.board.runningFw peers
    s.board.followsAtEqualVersion = true
  · have hidle := FwUpgrade.mayPull_of_shouldPull hbegins
    have hlink := (h.flight hrom).length_of_idle hidle
    simp only [hbegins, if_true]
    exact { h with
      progressed_past := Nat.le_refl _
      flight := fun _ ↦ by
        rw [← List.append_nil s.link]
        refine Flight.of_pull ⟨hlink, by simp, h.sent_past, fun _ _ ↦ .inl rfl, by simp, ?_⟩ rfl
        intro hdone
        cases hdone
      assembles := fun _ _ ↦
        ⟨rfl, Nat.zero_le _, fun hholds ↦ absurd rfl hholds.2.1,
          fun hsome ↦ absurd (FwUpgrade.pagesDone_zero rfl) hsome⟩
      covered := fun _ ↦ by
        rw [FwUpgrade.pagesDone_zero rfl]
        intro p hp
        exact absurd hp (Nat.not_lt_zero p) }
  · simp only [hbegins]
    exact { h with
      assembles := fun hrom hpull ↦
        ⟨(h.assembles hrom hpull).aligned, (h.assembles hrom hpull).bound,
          (h.assembles hrom hpull).words, (h.assembles hrom hpull).ready⟩ }

/-- A pull that has stalled has nothing older than its own word in flight. -/
theorem link_length_of_stalled (h : Sound peer s) (hrom : s.board.rom = false)
    (hfresh : ∀ w ∈ s.link, s.clock - w.sentAt < fwUpgradeRerequestUs)
    (hstalled : s.board.fw.stalled s.clock = true) : s.link.length ≤ 1 := by
  by_cases hpull : s.board.fw.mayPull = true
  · obtain ⟨older, current, hlink, hflight⟩ := (h.flight hrom).cases_of_pull hpull
    have hold := FwUpgrade.elapsed_of_stalled hstalled
    have hnone : older = [] := by
      refine List.eq_nil_iff_forall_not_mem.2 fun w hw ↦ ?_
      have hbefore := hflight.older_before w hw
      have hnew := hfresh w (by rw [hlink]; exact List.mem_append_left _ hw)
      simp only [fwUpgradeStallUs, fwUpgradeRerequestUs] at hold hnew
      omega
    rw [hlink, hnone]
    exact hflight.current_length
  · exact (h.flight hrom).length_of_idle (by simpa using hpull)

/-- So does a heartbeat, which may give the pull up. -/
theorem gives_up (h : Sound peer s) (hrom : s.board.rom = false)
    (hfresh : ∀ w ∈ s.link, s.clock - w.sentAt < fwUpgradeRerequestUs) :
    Sound peer { s with board := s.board.heartbeatOutputTask part s.clock } := by
  unfold Board.heartbeatOutputTask
  have hexpired : Sound peer
      { s with board := { s.board with peerFw := s.board.peerFw.expire s.clock } } :=
    { h with
      assembles := fun hrom hpull ↦
        ⟨(h.assembles hrom hpull).aligned, (h.assembles hrom hpull).bound,
          (h.assembles hrom hpull).words, (h.assembles hrom hpull).ready⟩ }
  dsimp only
  split
  · rename_i hstalled
    exact hexpired.abandons (h.link_length_of_stalled hrom hfresh hstalled)
  · exact hexpired

/-- A save that leaves the image alone, and the buffer too if the pull has words in it. -/
theorem restages (h : Sound peer s) {buffer : List UInt8} {flash : Flash}
    (hlength : buffer.length = configFlashBytes)
    (himage : ∀ a < stagingImageSize, flash a = s.board.flash a)
    (hspares : s.board.fw.HoldsWords → buffer = s.board.pageBuffer) :
    Sound peer { s with board := { s.board with pageBuffer := buffer, flash := flash } } :=
  { h with
    buffer_length := hlength
    assembles := fun hrom hpull ↦
      { aligned := (h.assembles hrom hpull).aligned
        bound := (h.assembles hrom hpull).bound
        words := by
          intro hholds
          show ∀ a < s.board.fw.address, _ → buffer[a % pageSize]? = _
          rw [hspares hholds]
          exact (h.assembles hrom hpull).words hholds
        ready := by
          intro hsome q hq hsector
          refine ((h.assembles hrom hpull).ready hsome q hq hsector).congr fun i hi ↦ himage _ ?_
          -- the sector the pull is in lies in the image
          have hbound := (h.assembles hrom hpull).bound
          have hdone : s.board.fw.pagesDone ≤ stagingPagesCnt := by
            unfold FwUpgrade.pagesDone
            simp only [stagingImageSize, stagingPagesCnt, pageSize] at hbound ⊢
            split <;> omega
          change q / 16 = (s.board.fw.pagesDone - 1) / 16 at hsector
          simp only [stagingImageSize, stagingPagesCnt, pageSize] at hdone hi ⊢
          omega } }

/-- So does a save of the configuration, if the buffer holds no words. -/
theorem saves_config (h : Sound peer s) (config : Config) (hspares : ¬ s.board.fw.HoldsWords) :
    Sound peer { s with board := s.board.saveConfig part config } := by
  refine h.restages ?_ ?_ (fun hholds ↦ absurd hholds hspares)
  · rw [List.length_append, List.length_replicate, config.length_bytes]
    decide
  · intro a ha
    -- every page of the configuration lies past the image
    refine List.foldlRecOn (motive := fun flash : Flash ↦ flash a = s.board.flash a) _ _ rfl ?_
    intro flash hflash page _
    rw [writeFlashPage_past part, hflash]
    simp only [stagingImageSize, stagingPagesCnt, pageSize, addrConfig] at ha ⊢
    omega

/-- So does a save of the identity, if the buffer holds no words. -/
theorem saves_identity (h : Sound peer s) (identity : Identity)
    (hspares : ¬ s.board.fw.HoldsWords) :
    Sound peer { s with board := s.board.saveIdentity part identity } := by
  refine h.restages ?_ ?_ (fun hholds ↦ absurd hholds hspares)
  · rw [overwrite_length]
    · exact h.buffer_length
    · rw [List.length_append, List.length_replicate, identity.length_bytes, h.buffer_length]
      decide
  · intro a ha
    refine writeFlashPage_past part ?_
    simp only [stagingImageSize, stagingPagesCnt, pageSize, addrIdentity] at ha ⊢
    omega

/-- So does a wipe. -/
theorem wipes (h : Sound peer s) : Sound peer { s with board := s.board.wipeConfig part } := by
  refine h.restages h.buffer_length ?_ (fun _ ↦ rfl)
  intro a ha
  refine part.erase_outside _ _ _ (.inl ?_)
  simp only [stagingImageSize, stagingPagesCnt, pageSize, addrConfig] at ha ⊢
  omega

end Sound

/-! ## A part and a pull to run -/

/-- A flash part whose program call can only clear bits. -/
def norFlash : FlashPart where
  erase flash sector address :=
    if sector ≤ address ∧ address < sector + sectorSize then 0xff else flash address
  program flash address data other :=
    if address ≤ other ∧ other < address + data.length then
      flash other &&& data.getD (other - address) 0xff
    else flash other
  erase_inside := by
    intro flash sector address hlow hhigh
    rw [if_pos ⟨hlow, hhigh⟩]
  erase_outside := by
    intro flash sector address houtside
    rw [if_neg (by omega)]
  program_blank := by
    intro flash address data hlength hblank
    refine List.ext_getElem? fun i ↦ ?_
    by_cases hi : i < pageSize
    · rw [Flash.page_getElem? _ _ hi, if_pos (by omega), hblank i hi, Nat.add_sub_cancel_left]
      rw [List.getD_eq_getElem?_getD, List.getElem?_eq_getElem (by omega)]
      exact congrArg some UInt8.neg_one_and
    · rw [List.getElem?_eq_none (by simpa using hi), List.getElem?_eq_none (by omega)]
  program_same := by
    intro flash address data hlength hpage
    refine List.ext_getElem? fun i ↦ ?_
    by_cases hi : i < pageSize
    · have hsame := Flash.page_getElem? flash address hi
      rw [hpage] at hsame
      rw [Flash.page_getElem? _ _ hi, if_pos (by omega), Nat.add_sub_cancel_left,
        List.getD_eq_getElem?_getD, hsame]
      simp
    · rw [List.getElem?_eq_none (by simpa using hi), List.getElem?_eq_none (by omega)]
  program_outside := by
    intro flash address data other houtside
    rw [if_neg (by omega)]

/-- A round of the pull: a word is asked for, and it arrives. -/
def round : List Event := [⟨250, .task false true⟩, ⟨250, .deliver⟩]

/-- A configuration whose bytes are all ones. -/
def onesConfig : Config where
  bytes := List.replicate configSize 1
  length_bytes := List.length_replicate

/-! ## Runs -/

/-- The act stages a page of its own in the buffer. -/
def Act.stages : Act → Bool
  | .saveConfig _ | .saveIdentity _ => true
  | _ => false

/-- A save leaves the buffer to the pull: no words of an unwritten page are in it. -/
def Spares (s : Rig) (event : Event) : Prop := event.act.stages = true → ¬ s.board.fw.HoldsWords

instance (s : Rig) (event : Event) : Decidable (Spares s event) :=
  inferInstanceAs (Decidable (_ → _))

/-- One event keeps the account. -/
theorem Sound.step {part : FlashPart} {peer : Flash} {s : Rig} (h : Sound peer s) (event : Event)
    (hspares : Spares s event) : Sound peer (s.step part peer event) := by
  unfold Rig.step
  split
  · exact h
  · rename_i hrom
    have hrom : (s.wait event.elapsed).board.rom = false := by simpa [Rig.wait] using hrom
    have hwaited := h.wait event.elapsed
    have hfresh : ∀ w ∈ (s.wait event.elapsed).link,
        (s.wait event.elapsed).clock - w.sentAt < fwUpgradeRerequestUs := by
      intro w hw
      exact of_decide_eq_true (List.mem_filter.1 hw).2
    cases hact : event.act with
    | task queueIsFull accepted => exact hwaited.task hrom hfresh queueIsFull accepted
    | deliver => exact hwaited.delivers hrom
    | lose place => exact hwaited.lose place
    | heartbeat peers => exact hwaited.hears hrom peers
    | heartbeatOutput => exact hwaited.gives_up hrom hfresh
    | saveConfig config => exact hwaited.saves_config config (hspares (by rw [hact]; rfl))
    | saveIdentity identity => exact hwaited.saves_identity identity (hspares (by rw [hact]; rfl))
    | wipeConfig => exact hwaited.wipes

/-- In every run in which no save lands on a page the pull has begun and not written, whatever is
lost on the link, asked for again, abandoned and begun anew: every page a pull wrote is the peer's
page, in what was handed to flash and in what flash then held, and a pull that ended by asking for a
reboot wrote every page of the image. -/
theorem pulled_pages (part : FlashPart) (peer flash : Flash) (follows : Bool) {events : List Event}
    (hspares : Along (Rig.step part peer) Spares (Rig.boot flash follows) events) :
    let s := run (Rig.step part peer) (Rig.boot flash follows) events
    (∀ w ∈ s.written, w.data = peer.page w.address ∧ w.stored = peer.page w.address) ∧
    ∀ pull ∈ s.finished, ∀ page < stagingPagesCnt,
      ∃ w ∈ s.written, w.pull = pull ∧ w.address = page * pageSize := by
  intro s
  have hsound : Sound peer s :=
    run_invariant_along (Sound peer) (Sound.boot flash follows)
      (fun _ event hsound hspared ↦ hsound.step event hspared) hspares
  exact ⟨hsound.pages, hsound.finished⟩

/-- Two pages are pulled. A configuration is saved once the first is in flash, while the first word
of the second is under way. -/
def savedBetween : List Event :=
  ⟨0, .heartbeat ⟨2, 0⟩⟩ :: (List.replicate 64 round).flatten ++
    [⟨250, .task false true⟩, ⟨0, .saveConfig onesConfig⟩, ⟨250, .deliver⟩] ++
    (List.replicate 63 round).flatten ++ [⟨250, .task false true⟩]

set_option maxRecDepth 8192 in
/-- Both pages are the peer's. -/
theorem pulled_pages_savedBetween :
    let s := run (Rig.step norFlash fun _ ↦ 0) (Rig.boot (fun _ ↦ 0) true) savedBetween
    s.written.length = 2 ∧ ∀ w ∈ s.written, w.data = Flash.page (fun _ ↦ 0) w.address := by
  have hspares : Along (Rig.step norFlash fun _ ↦ 0) Spares (Rig.boot (fun _ ↦ 0) true)
      savedBetween := by
    decide
  refine ⟨by decide, fun w hw ↦ ?_⟩
  exact ((pulled_pages norFlash (fun _ ↦ 0) (fun _ ↦ 0) true hspares).1 w hw).1

/-- The first page of a pull. A configuration is saved after its first word. -/
def savedMidPage : List Event :=
  ⟨0, .heartbeat ⟨2, 0⟩⟩ :: round ++ [⟨0, .saveConfig onesConfig⟩] ++
    (List.replicate 63 round).flatten ++ [⟨250, .task false true⟩]

set_option maxRecDepth 4096 in
/-- The page the pull then writes begins with the configuration. -/
theorem page_of_config :
    ∃ w ∈ (run (Rig.step norFlash fun _ ↦ 0) (Rig.boot (fun _ ↦ 0) true) savedMidPage).written,
      w.data ≠ Flash.page (fun _ ↦ 0) w.address := by
  decide

end DeskhopPlus.Firmware
