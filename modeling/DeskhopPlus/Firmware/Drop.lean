import DeskhopPlus.Firmware.Integrity

/-!
# The firmware drop

The other transport of an image: in config mode the board is a drive, and the host copies a UF2 file
to it block by block (`tud_msc_write10_cb` of `ramdisk.c`). A block goes over the running image as
it comes. Main theorem: `drop_completes`, by which a file copied in order is whole in flash at its
last block, whatever the rest of the board does in between.
-/

namespace DeskhopPlus.Firmware

open Bytes Runs

/-- `NUMBER_OF_BLOCKS` of the drive. -/
def numberOfBlocks : Nat := 4096

/-- `MAX_BLOCK_NO`, the last block of an image. -/
def maxBlockNo : Nat := stagingImageSize / pageSize - 1

/-- The first block the checksum leaves out. -/
def lastBlockWithChecksum : Nat := (stagingImageSize - sectorSize) / pageSize

/-- `uf2_t`, as many bytes as a block of the drive. -/
structure Uf2 where
  bytes : List UInt8
  length_bytes : bytes.length = 512

namespace Uf2

variable (uf2 : Uf2)

def word (offset : Nat) : Nat := value ((uf2.bytes.drop offset).take 4)

def blockNo : Nat := uf2.word 20

/-- What is copied out of `data`, a page. -/
def payload : List UInt8 := (uf2.bytes.drop 32).take pageSize

/-- The test of the three magic words. -/
def isUf2 : Bool :=
  uf2.word 0 == 0x0A324655 && uf2.word 4 == 0x9E5D5157 && uf2.word 508 == 0x0AB16F30

end Uf2

/-- What a write comes to: whether the host is answered with its size, and whether config mode is to
end. -/
structure Dropped where
  board : Board
  accepted : Bool
  exits : Bool := false

section Drop

variable (part : FlashPart)

namespace Board

variable (b : Board)

/-- Block zero starts a drop, whatever was going on. -/
def startDrop : Board :=
  { b with fw := { b.fw with checksum := 0xffffffff, upgradeInProgress := true, source := .drop } }

/-- A block goes into the checksum and over the running image. -/
def takeBlock (blockNo : Nat) (payload : List UInt8) (now : Nat) : Board :=
  { b with
    flash := writeFlashPage part b.flash (blockNo * pageSize) payload
    fw := { b.fw with
      checksum := if blockNo < lastBlockWithChecksum then payload.foldl crc32Iter b.fw.checksum
        else b.fw.checksum
      imageDirty := true
      progressedAt := now } }

/-- The last block is in: the image is checked, and the board is to reboot into it if it is
whole. -/
def endDrop : Dropped :=
  let fw := { b.fw with checksum := ~~~ b.fw.checksum }
  if fw.checksum ≠ calculateFirmwareCrc32 b.flash then
    { board := { b with fw := fw }.recoverToRom part, accepted := true }
  else
    { board := { b with fw := { fw with imageDirty := false } }, accepted := true, exits := true }

/-- `tud_msc_write10_cb`. -/
def tudMscWrite10 (lba : Nat) (uf2 : Uf2) (now : Nat) : Dropped :=
  if numberOfBlocks ≤ lba then { board := b, accepted := false }
  else if uf2.isUf2 = false then { board := b, accepted := true }
  else if maxBlockNo < uf2.blockNo then { board := b, accepted := false }
  else
    let b := if uf2.blockNo = 0 then b.startDrop else b
    let b := b.takeBlock part uf2.blockNo uf2.payload now
    if uf2.blockNo = maxBlockNo then b.endDrop part else { board := b, accepted := true }

end Board

/-- A board with its drive. -/
structure Drive where
  rig : Rig
  exitRequested : Bool := false

/-- What happens to it: a write of the host, or anything else that happens to the board. -/
inductive DriveEvent where
  | write (elapsed lba : Nat) (uf2 : Uf2)
  | other (event : Event)

/-- One event. -/
def Drive.step (peer : Flash) (d : Drive) : DriveEvent → Drive
  | .write elapsed lba uf2 =>
      if d.rig.board.rom then d
      else
        let rig := d.rig.wait elapsed
        let dropped := rig.board.tudMscWrite10 part lba uf2 rig.clock
        { rig := { rig with board := dropped.board }
          exitRequested := d.exitRequested || dropped.exits }
  | .other event => { d with rig := d.rig.step part peer event }

end Drop

/-! ## A drop in progress -/

/-- The checksum over the first bytes of an image, before it is inverted. -/
def crcUpTo (image : Flash) (size : Nat) : UInt32 :=
  (List.range size).foldl (fun crc i ↦ crc32Iter crc (image i)) 0xffffffff

theorem crcUpTo_page (image : Flash) (address : Nat) :
    crcUpTo image (address + pageSize) = (image.page address).foldl crc32Iter
      (crcUpTo image address) := by
  rw [crcUpTo, List.range_add, List.foldl_append, List.foldl_map, Flash.page, List.foldl_map]
  rfl

theorem crcUpTo_congr {image flash : Flash} {size : Nat} (h : ∀ a < size, flash a = image a) :
    crcUpTo flash size = crcUpTo image size := by
  refine List.foldl_ext _ _ _ fun crc i hi ↦ ?_
  rw [h i (List.mem_range.1 hi)]

/-- After so many blocks: they are in flash and in the checksum, and the rest of a sector that was
begun is erased for the ones to come. -/
structure Dropping (image : Flash) (blocks : Nat) (b : Board) : Prop where
  rom : b.rom = false
  inProgress : b.fw.upgradeInProgress = true
  source : b.fw.source = .drop
  checksum : b.fw.checksum = crcUpTo image (min blocks lastBlockWithChecksum * pageSize)
  stored : ∀ a < blocks * pageSize, b.flash a = image a
  ready : blocks % 16 ≠ 0 → ∀ q, blocks ≤ q → q / 16 = blocks / 16 →
    b.flash.Takes (q * pageSize) (image.page (q * pageSize))

section Dropping

variable {part : FlashPart} {image : Flash} {blocks : Nat} {b : Board}

theorem dropping_startDrop (hrom : b.rom = false) : Dropping image 0 b.startDrop where
  rom := hrom
  inProgress := rfl
  source := rfl
  checksum := rfl
  stored := fun a ha ↦ absurd ha (by omega)
  ready := fun h ↦ absurd rfl h

/-- The next block of the image. -/
theorem Dropping.takeBlock (h : Dropping image blocks b) (now : Nat) :
    Dropping image (blocks + 1) (b.takeBlock part blocks (image.page (blocks * pageSize)) now) := by
  have hlength : (image.page (blocks * pageSize)).length = pageSize := Flash.page_length ..
  have htake : (image.page (blocks * pageSize)).take pageSize = image.page (blocks * pageSize) :=
    List.take_of_length_le hlength.le
  refine ⟨h.rom, h.inProgress, h.source, ?_, fun a ha ↦ ?_, fun hpart q hq hsector ↦ ?_⟩
  · show (if blocks < lastBlockWithChecksum then _ else _) = _
    rw [h.checksum]
    split
    next hcounted =>
      rw [Nat.min_eq_left hcounted.le, Nat.min_eq_left hcounted, ← crcUpTo_page, Nat.succ_mul]
    next hpast => rw [Nat.min_eq_right (by omega), Nat.min_eq_right (by omega)]
  · by_cases hbefore : a < blocks * pageSize
    · exact (writeFlashPage_past part hbefore).trans (h.stored a hbefore)
    · -- the page that was written reads back
      have hpage := page_writeFlashPage part (p := blocks) hlength.ge fun hpart ↦
        htake.symm ▸ h.ready hpart blocks le_rfl rfl
      have hi : a - blocks * pageSize < pageSize := by
        rw [Nat.succ_mul] at ha
        omega
      have hbyte := Flash.page_getElem? (writeFlashPage part b.flash (blocks * pageSize)
        (image.page (blocks * pageSize))) (blocks * pageSize) hi
      rw [hpage, htake, Flash.page_getElem? _ _ hi] at hbyte
      have haddress : blocks * pageSize + (a - blocks * pageSize) = a := by omega
      rw [haddress] at hbyte
      exact (Option.some.inj hbyte).symm
  · refine takes_writeFlashPage part (by omega) (by omega) fun hbegun ↦ ?_
    exact h.ready hbegun q (by omega) (by omega)

/-- The last one ends the drop. -/
theorem Dropping.endDrop (h : Dropping image 1024 b) :
    (b.endDrop part).exits = true ∧ (b.endDrop part).board.rom = false ∧
      (b.endDrop part).board.fw.imageDirty = false ∧
      ∀ a < stagingImageSize, (b.endDrop part).board.flash a = image a := by
  have hwhole : ~~~ b.fw.checksum = calculateFirmwareCrc32 b.flash := by
    rw [h.checksum]
    show _ = ~~~ crcUpTo b.flash (stagingImageSize - sectorSize)
    rw [crcUpTo_congr fun a ha ↦ h.stored a (ha.trans (by decide))]
    rfl
  unfold Board.endDrop
  dsimp only
  rw [if_neg (not_not.2 hwhole)]
  exact ⟨rfl, h.rom, rfl, h.stored⟩

/-- What leaves the transfer and the running image alone keeps a drop. -/
theorem Dropping.congr (h : Dropping image blocks b) (hblocks : blocks ≤ 1024) {b' : Board}
    (hrom : b'.rom = b.rom) (hfw : b'.fw = b.fw)
    (hflash : ∀ a < stagingImageSize, b'.flash a = b.flash a) : Dropping image blocks b' where
  rom := hrom.trans h.rom
  inProgress := by rw [hfw, h.inProgress]
  source := by rw [hfw, h.source]
  checksum := by rw [hfw, h.checksum]
  stored := by
    intro a ha
    have hinside : a < stagingImageSize := ha.trans_le (Nat.mul_le_mul_right pageSize hblocks)
    rw [hflash a hinside, h.stored a ha]
  ready := by
    intro hpart q hq hsector
    refine (h.ready hpart q hq hsector).congr fun i hi ↦ hflash _ ?_
    simp only [stagingImageSize, stagingPagesCnt, pageSize] at hi ⊢
    omega

/-! ## The rest of the board -/

theorem saveConfig_below (config : Config) {a : Nat} (ha : a < addrConfig) :
    (b.saveConfig part config).flash a = b.flash a := by
  refine List.foldlRecOn (motive := fun flash : Flash ↦ flash a = b.flash a) _ _ rfl ?_
  intro flash hflash page _
  rw [writeFlashPage_past part (by omega), hflash]

theorem saveIdentity_below (identity : Identity) {a : Nat} (ha : a < addrIdentity) :
    (b.saveIdentity part identity).flash a = b.flash a :=
  writeFlashPage_past part ha

theorem wipeConfig_below {a : Nat} (ha : a < addrConfig) :
    (b.wipeConfig part).flash a = b.flash a :=
  part.erase_outside _ _ _ (.inl ha)

/-- What else happens to the board leaves a drop alone, until it has been quiet for so long that it
is given up. -/
theorem Dropping.other {peer : Flash} {s : Rig} (h : Dropping image blocks s.board)
    (hblocks : blocks ≤ 1024) {event : Event}
    (hlive : event.act = .heartbeatOutput → s.board.fw.stalled (s.clock + event.elapsed) = false) :
    Dropping image blocks (s.step part peer event).board := by
  -- the source of the transfer is the drop, so nothing is asked for and no word is taken
  have hpull : s.board.fw.mayPull = false := by
    rw [FwUpgrade.mayPull, h.source, h.inProgress]
    rfl
  obtain ⟨elapsed, act⟩ := event
  unfold Rig.step
  rw [if_neg (by simp [h.rom])]
  cases act with
  | task queueIsFull accepted =>
      have hrests : (s.wait elapsed).board.firmwareUpgradeTask part queueIsFull accepted
          (s.wait elapsed).clock = { board := s.board } := if_pos hpull
      show Dropping image blocks ((s.wait elapsed).pass _).board
      rw [hrests]
      exact h
  | deliver =>
      show Dropping image blocks ((s.wait elapsed).deliver part peer).board
      unfold Rig.deliver
      split
      · exact h
      · dsimp only
        split
        · exact h
        next data _ =>
          have hignored : ∀ address now, s.board.handleResponseByteMsg part address data now =
              s.board := fun _ _ ↦ if_pos hpull
          exact (hignored _ _).symm ▸ h
  | lose place => exact h
  | heartbeat peers =>
      show Dropping image blocks (s.board.handleHeartbeatMsg peers _)
      unfold Board.handleHeartbeatMsg
      rw [if_neg (by simp [FwUpgrade.shouldPull, h.inProgress])]
      exact h.congr hblocks rfl rfl fun _ _ ↦ rfl
  | heartbeatOutput =>
      show Dropping image blocks (s.board.heartbeatOutputTask part (s.clock + elapsed))
      unfold Board.heartbeatOutputTask
      have hlive : s.board.fw.stalled (s.clock + elapsed) = false := hlive rfl
      rw [if_neg (by simp [hlive])]
      exact h.congr hblocks rfl rfl fun _ _ ↦ rfl
  | saveConfig config =>
      exact h.congr hblocks rfl rfl fun a ha ↦ saveConfig_below config (ha.trans (by decide))
  | saveIdentity identity =>
      exact h.congr hblocks rfl rfl fun a ha ↦ saveIdentity_below identity (ha.trans (by decide))
  | wipeConfig =>
      exact h.congr hblocks rfl rfl fun a ha ↦ wipeConfig_below (ha.trans (by decide))

end Dropping

/-! ## A whole drop -/

section Whole

variable {part : FlashPart} {peer image : Flash} {d : Drive}

/-- The event is no block of an image: nothing of the host, a write the drive refuses, or one that
is no UF2 block. -/
def DriveEvent.Aside : DriveEvent → Prop
  | .write _ lba uf2 => numberOfBlocks ≤ lba ∨ uf2.isUf2 = false ∨ maxBlockNo < uf2.blockNo
  | .other _ => True

/-- No heartbeat finds the drop quiet for as long as it takes to give it up. -/
def DriveEvent.Timely (d : Drive) : DriveEvent → Prop
  | .write .. => True
  | .other event =>
      event.act = .heartbeatOutput → d.rig.board.fw.stalled (d.rig.clock + event.elapsed) = false

/-- The block carries a page of the image. -/
structure Uf2.Carries (uf2 : Uf2) (image : Flash) (block : Nat) : Prop where
  isUf2 : uf2.isUf2 = true
  blockNo : uf2.blockNo = block
  payload : uf2.payload = image.page (block * pageSize)

theorem step_write (hrom : d.rig.board.rom = false) (elapsed lba : Nat) (uf2 : Uf2) :
    (d.step part peer (.write elapsed lba uf2)).rig.board =
        (d.rig.board.tudMscWrite10 part lba uf2 (d.rig.clock + elapsed)).board ∧
      (d.step part peer (.write elapsed lba uf2)).exitRequested = (d.exitRequested ||
        (d.rig.board.tudMscWrite10 part lba uf2 (d.rig.clock + elapsed)).exits) := by
  have hstep : d.step part peer (.write elapsed lba uf2) =
      (let rig := d.rig.wait elapsed
      let dropped := rig.board.tudMscWrite10 part lba uf2 rig.clock
      { rig := { rig with board := dropped.board }
        exitRequested := d.exitRequested || dropped.exits }) :=
    if_neg (by simp [hrom])
  rw [hstep]
  exact ⟨rfl, rfl⟩

theorem dropping_aside {blocks : Nat} (h : Dropping image blocks d.rig.board)
    (hblocks : blocks ≤ 1024) {event : DriveEvent} (haside : event.Aside)
    (htimely : event.Timely d) : Dropping image blocks (d.step part peer event).rig.board := by
  cases event with
  | other event => exact h.other hblocks htimely
  | write elapsed lba uf2 =>
      have hsame : (d.rig.board.tudMscWrite10 part lba uf2 (d.rig.clock + elapsed)).board =
          d.rig.board := by
        unfold Board.tudMscWrite10
        split
        · rfl
        next hlba =>
          split
          · rfl
          next huf2 =>
            rcases haside with hlba' | huf2' | hpast
            · exact absurd hlba' hlba
            · exact absurd huf2' huf2
            · rw [if_pos hpast]
      rw [(step_write h.rom ..).1, hsame]
      exact h

theorem dropping_between {blocks : Nat} (h : Dropping image blocks d.rig.board)
    (hblocks : blocks ≤ 1024) {events : List DriveEvent} (haside : ∀ event ∈ events, event.Aside)
    (htimely : Along (Drive.step part peer) (fun d event ↦ event.Timely d) d events) :
    Dropping image blocks (run (Drive.step part peer) d events).rig.board := by
  induction events generalizing d with
  | nil => exact h
  | cons event rest ih =>
      have hnext : Dropping image blocks (d.step part peer event).rig.board :=
        dropping_aside h hblocks (haside event (List.mem_cons_self ..)) htimely.1
      exact ih hnext (fun other hmem ↦ haside other (List.mem_cons_of_mem _ hmem)) htimely.2

/-- A block of the image, as the callback takes it. -/
theorem tudMscWrite10_block {b : Board} {blocks lba : Nat} {uf2 : Uf2} (hlba : lba < numberOfBlocks)
    (hcarries : uf2.Carries image blocks) (hinside : blocks ≤ maxBlockNo) (now : Nat) :
    b.tudMscWrite10 part lba uf2 now =
      (let b := (if blocks = 0 then b.startDrop else b).takeBlock part blocks
        (image.page (blocks * pageSize)) now
      if blocks = maxBlockNo then b.endDrop part else { board := b, accepted := true }) := by
  obtain ⟨huf2, hblock, hpayload⟩ := hcarries
  unfold Board.tudMscWrite10
  rw [if_neg (Nat.not_le.2 hlba), if_neg (by simp [huf2]), hblock, if_neg (Nat.not_lt.2 hinside),
    hpayload]

/-- A file copied up to a block, each block followed by whatever else happens. -/
def copied (elapsed lba : Nat → Nat) (uf2 : Nat → Uf2) (between : Nat → List DriveEvent)
    (blocks : Nat) : List DriveEvent :=
  (List.range blocks).flatMap fun block ↦
    .write (elapsed block) (lba block) (uf2 block) :: between block

variable {elapsed lba : Nat → Nat} {uf2 : Nat → Uf2} {between : Nat → List DriveEvent}

theorem copied_succ (blocks : Nat) :
    copied elapsed lba uf2 between (blocks + 1) = copied elapsed lba uf2 between blocks ++
      .write (elapsed blocks) (lba blocks) (uf2 blocks) :: between blocks := by
  rw [copied, List.range_succ, List.flatMap_append, List.flatMap_singleton]
  rfl

/-- The first blocks of a file are copied to the drive in order: they carry the pages of the image,
and what happens behind each of them is no block of an image and leaves the drop its time. -/
structure Copies (part : FlashPart) (peer image : Flash) (d : Drive) (elapsed lba : Nat → Nat)
    (uf2 : Nat → Uf2) (between : Nat → List DriveEvent) (blocks : Nat) : Prop where
  carries : ∀ block < blocks, lba block < numberOfBlocks ∧ (uf2 block).Carries image block
  aside : ∀ block < blocks, ∀ event ∈ between block, event.Aside
  timely : Along (Drive.step part peer) (fun d event ↦ event.Timely d) d
    (copied elapsed lba uf2 between blocks)

/-- The blocks before the last one. -/
theorem Copies.dropping {blocks : Nat} (h : Copies part peer image d elapsed lba uf2 between blocks)
    (hrom : d.rig.board.rom = false) (hblocks : blocks ≤ maxBlockNo) :
    let b := (run (Drive.step part peer) d (copied elapsed lba uf2 between blocks)).rig.board
    b.rom = false ∧ Dropping image blocks (if blocks = 0 then b.startDrop else b) := by
  induction blocks with
  | zero => exact ⟨hrom, dropping_startDrop hrom⟩
  | succ blocks ih =>
      obtain ⟨hcarries, haside, htimely⟩ := h
      rw [copied_succ] at htimely ⊢
      obtain ⟨hearlier, -, hbetween⟩ := (Along.append _).1 htimely
      obtain ⟨hon, hdropping⟩ := ih ⟨fun block hblock ↦ hcarries block (by omega),
        fun block hblock ↦ haside block (by omega), hearlier⟩ (by omega)
      obtain ⟨hlba, hblock⟩ := hcarries blocks (Nat.lt_succ_self _)
      dsimp only at hon hdropping ⊢
      rw [run_append, run_cons]
      generalize run (Drive.step part peer) d (copied elapsed lba uf2 between blocks) = reached
        at hbetween hon hdropping ⊢
      -- the block itself, and then what happens behind it
      have hwritten : Dropping image (blocks + 1) (reached.step part peer
          (.write (elapsed blocks) (lba blocks) (uf2 blocks))).rig.board := by
        rw [(step_write hon ..).1, tudMscWrite10_block hlba hblock (by omega)]
        dsimp only
        rw [if_neg (by omega)]
        exact hdropping.takeBlock _
      have hreached := dropping_between hwritten (hblocks.trans (by decide))
        (haside blocks (Nat.lt_succ_self _)) hbetween
      rw [if_neg (Nat.succ_ne_zero _)]
      exact ⟨hreached.rom, hreached⟩

/-- A file that is copied to the drive in order, each of its blocks a page of the image, is whole in
flash when its last block is in, and the board is about to boot it. Between the blocks anything may
happen: heartbeats, words of a pull that was under way, other writes of the host, the configuration
or the identity being saved; so long as no heartbeat finds the drop quiet for as long as it takes to
give it up. -/
theorem drop_completes (hrom : d.rig.board.rom = false)
    (h : Copies part peer image d elapsed lba uf2 between maxBlockNo)
      {wait place : Nat} {last : Uf2}
    (hplace : place < numberOfBlocks) (hlast : last.Carries image maxBlockNo) :
    let d' := run (Drive.step part peer) d
      (copied elapsed lba uf2 between maxBlockNo ++ [.write wait place last])
    d'.exitRequested = true ∧ d'.rig.board.rom = false ∧ d'.rig.board.fw.imageDirty = false ∧
      ∀ a < stagingImageSize, d'.rig.board.flash a = image a := by
  have hend : maxBlockNo + 1 = 1024 := rfl
  -- the number of the last block is of no account until the drop ends
  generalize hblocks : maxBlockNo = blocks at h hlast hend ⊢
  have hearlier := h.dropping hrom hblocks.ge
  dsimp only at hearlier ⊢
  rw [run_snoc]
  generalize run (Drive.step part peer) d (copied elapsed lba uf2 between blocks) = reached
    at hearlier ⊢
  obtain ⟨hon, hdropping⟩ := hearlier
  obtain ⟨hboard, hexit⟩ := @step_write part peer reached hon wait place last
  rw [tudMscWrite10_block hplace hlast hblocks.ge] at hboard hexit
  dsimp only at hboard hexit
  rw [if_pos hblocks.symm] at hboard hexit
  have hwhole := @Dropping.takeBlock part _ _ _ hdropping (reached.rig.clock + wait)
  rw [hend] at hwhole
  obtain ⟨hexits, hrest⟩ := @Dropping.endDrop part _ _ hwhole
  rw [hboard, hexit, hexits]
  exact ⟨Bool.or_true _, hrest⟩

/-! ### A file with more to do between its blocks -/

/-- The bytes of the block that carries a page. -/
def blockBytes (block : Nat) (page : List UInt8) : List UInt8 :=
  littleEndian 4 0x0A324655 ++ (littleEndian 4 0x9E5D5157 ++ (List.replicate 12 0 ++
    (littleEndian 4 block ++ (List.replicate 8 0 ++ (page ++ (List.replicate 220 0 ++
      littleEndian 4 0x0AB16F30))))))

/-- What stands before its number. -/
def blockFlags : List UInt8 :=
  littleEndian 4 0x0A324655 ++ (littleEndian 4 0x9E5D5157 ++ List.replicate 12 0)

/-- What stands before its page. -/
def blockHeader (block : Nat) : List UInt8 :=
  blockFlags ++ (littleEndian 4 block ++ List.replicate 8 0)

theorem length_blockFlags : blockFlags.length = 20 := by
  simp only [blockFlags, List.length_append, littleEndian_length, List.length_replicate]

theorem length_blockHeader (block : Nat) : (blockHeader block).length = 32 := by
  simp only [blockHeader, List.length_append, length_blockFlags, littleEndian_length,
    List.length_replicate]

theorem length_blockBytes (block : Nat) {page : List UInt8} (h : page.length = pageSize) :
    (blockBytes block page).length = 512 := by
  simp only [blockBytes, List.length_append, littleEndian_length, List.length_replicate, h]
  rfl

/-- The block of a UF2 file that carries a page of the image. -/
def Uf2.ofPage (image : Flash) (block : Nat) : Uf2 where
  bytes := blockBytes block (image.page (block * pageSize))
  length_bytes := length_blockBytes block (Flash.page_length ..)

theorem Uf2.word_eq {uf2 : Uf2} {front back : List UInt8} {offset number : Nat}
    (hoffset : front.length = offset) (hnumber : number < 256 ^ 4)
    (hbytes : uf2.bytes = front ++ (littleEndian 4 number ++ back)) : uf2.word offset = number := by
  rw [Uf2.word, hbytes, ← hoffset, List.drop_left, List.take_left' (littleEndian_length ..),
    value_littleEndian_of_lt hnumber]

theorem Uf2.carries_ofPage {block : Nat} (hblock : block ≤ maxBlockNo) :
    (Uf2.ofPage image block).Carries image block := by
  have hsmall : block < 256 ^ 4 := lt_of_le_of_lt hblock (by decide)
  have hpage : (image.page (block * pageSize)).length = pageSize := Flash.page_length ..
  -- each word is found behind what stands before it
  have hfirst : (Uf2.ofPage image block).word 0 = 0x0A324655 :=
    @Uf2.word_eq _ [] _ _ _ rfl (by decide) rfl
  have hsecond : (Uf2.ofPage image block).word 4 = 0x9E5D5157 :=
    @Uf2.word_eq _ (littleEndian 4 0x0A324655) _ _ _ rfl (by decide) rfl
  have hend : (Uf2.ofPage image block).word 508 = 0x0AB16F30 := by
    refine @Uf2.word_eq _ (blockHeader block ++ (image.page (block * pageSize) ++
      List.replicate 220 0)) [] _ _ ?_ (by decide) ?_
    · simp only [List.length_append, length_blockHeader, hpage, List.length_replicate]
      rfl
    · simp only [Uf2.ofPage, blockBytes, blockHeader, blockFlags, List.append_assoc,
        List.append_nil]
  refine ⟨?_, ?_, ?_⟩
  · simp only [Uf2.isUf2, hfirst, hsecond, hend]
    rfl
  · refine @Uf2.word_eq _ blockFlags (List.replicate 8 0 ++ (image.page (block * pageSize) ++
      (List.replicate 220 0 ++ littleEndian 4 0x0AB16F30))) _ _ length_blockFlags hsmall ?_
    simp only [Uf2.ofPage, blockBytes, blockFlags, List.append_assoc]
  · have hbytes : (Uf2.ofPage image block).bytes = blockHeader block ++
        (image.page (block * pageSize) ++ (List.replicate 220 0 ++ littleEndian 4 0x0AB16F30)) := by
      simp only [Uf2.ofPage, blockBytes, blockHeader, blockFlags, List.append_assoc]
    rw [Uf2.payload, hbytes, ← length_blockHeader block, List.drop_left, List.take_left' hpage]

/-- A round between two blocks: a heartbeat is sent and one is heard, the configuration is saved,
and the host writes past the end of the drive. -/
def busyRound (image : Flash) : List DriveEvent :=
  [.other ⟨1000, .heartbeatOutput⟩, .other ⟨0, .heartbeat ⟨2, 0⟩⟩,
   .other ⟨0, .saveConfig onesConfig⟩, .write 0 numberOfBlocks (Uf2.ofPage image 0)]

/-- None of it is a block of the image. -/
theorem busyRound_aside : ∀ event ∈ busyRound image, event.Aside := by
  intro event hmem
  simp only [busyRound, List.mem_cons, List.not_mem_nil, or_false] at hmem
  rcases hmem with rfl | rfl | rfl | rfl
  · trivial
  · trivial
  · trivial
  · exact .inl le_rfl

/-- Just after progress the drop is not quiet for long. -/
theorem busyRound_timely (h : d.rig.board.fw.progressedAt = d.rig.clock) :
    Along (Drive.step part peer) (fun d event ↦ event.Timely d) d (busyRound image) := by
  refine ⟨fun _ ↦ ?_, nofun, nofun, trivial, trivial⟩
  have hsoon : ¬fwUpgradeStallUs ≤ (d.rig.clock + 1000 - d.rig.clock) % 2 ^ 32 := by
    rw [Nat.add_sub_cancel_left]
    decide
  rw [FwUpgrade.stalled, h, decide_eq_false hsoon, Bool.and_false]

/-- A block before the last is progress. -/
theorem progressedAt_block (hrom : d.rig.board.rom = false) {elapsed lba block : Nat} {uf2 : Uf2}
    (hlba : lba < numberOfBlocks) (hcarries : uf2.Carries image block)
    (hinside : block < maxBlockNo) :
    (d.step part peer (.write elapsed lba uf2)).rig.board.fw.progressedAt =
      (d.step part peer (.write elapsed lba uf2)).rig.clock := by
  have hclock : (d.step part peer (.write elapsed lba uf2)).rig.clock = d.rig.clock + elapsed := by
    show (if d.rig.board.rom = true then d else _ : Drive).rig.clock = _
    rw [if_neg (by simp [hrom])]
    rfl
  rw [hclock, (step_write hrom ..).1, tudMscWrite10_block hlba hcarries hinside.le]
  dsimp only
  rw [if_neg hinside.ne]
  rfl

/-- A file with such a round behind each of its blocks. -/
theorem copies_busyRound (hrom : d.rig.board.rom = false) {blocks : Nat}
    (hblocks : blocks ≤ maxBlockNo) :
    Copies part peer image d (fun _ ↦ 1000) id (Uf2.ofPage image) (fun _ ↦ busyRound image)
      blocks := by
  have hcarries : ∀ block < maxBlockNo,
      block < numberOfBlocks ∧ (Uf2.ofPage image block).Carries image block :=
    fun block hblock ↦ ⟨hblock.trans (by decide), Uf2.carries_ofPage hblock.le⟩
  induction blocks with
  | zero => exact ⟨nofun, nofun, trivial⟩
  | succ blocks ih =>
      have hearlier := ih (by omega)
      obtain ⟨hlba, hblock⟩ := hcarries blocks hblocks
      refine ⟨fun block h ↦ hcarries block (h.trans_le hblocks), fun _ _ ↦ busyRound_aside, ?_⟩
      rw [copied_succ]
      refine (Along.append _).2 ⟨hearlier.timely, trivial, busyRound_timely ?_⟩
      exact progressedAt_block (hearlier.dropping hrom (by omega)).1 hlba hblock hblocks

/-- An image of zeros, copied to a board that has just started and has more to do meanwhile. -/
theorem drop_completes_zeros :
    let d' := run (Drive.step norFlash fun _ ↦ 0) ⟨Rig.boot (fun _ ↦ 0xff) false, false⟩
      (copied (fun _ ↦ 1000) id (Uf2.ofPage fun _ ↦ 0) (fun _ ↦ busyRound fun _ ↦ 0) maxBlockNo ++
        [.write 1000 maxBlockNo (Uf2.ofPage (fun _ ↦ 0) maxBlockNo)])
    d'.exitRequested = true ∧ d'.rig.board.rom = false ∧ d'.rig.board.fw.imageDirty = false ∧
      ∀ a < stagingImageSize, d'.rig.board.flash a = 0 :=
  drop_completes rfl (copies_busyRound rfl le_rfl) (by decide) (Uf2.carries_ofPage le_rfl)

end Whole

end DeskhopPlus.Firmware
