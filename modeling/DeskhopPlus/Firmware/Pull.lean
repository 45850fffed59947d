import DeskhopPlus.Library.Bytes
import DeskhopPlus.Library.Runs
import Mathlib.Algebra.Ring.Nat

/-!
# The firmware pull

The pull half of `tasks.c`, `handlers.c`, `utils.c` and `fw_upgrade.c`: a board that hears a newer
peer copies the peer's running image over its own, one word at a time, assembling each flash page in
`page_buffer` and writing the page when its last word is in. `save_config` and `save_identity` stage
their own pages in the same buffer.

The link between the boards carries the words asked for in order and may lose any of them. A round
trip is far shorter than the interval after which a word is asked for again, so a word that is not
back by then is lost.
-/

namespace DeskhopPlus.Firmware

open DeskhopPlus.Bytes DeskhopPlus.Runs

/-! ## Flash -/

/-- `FLASH_SECTOR_SIZE`, what one erase clears. -/
def sectorSize : Nat := 4096

/-- `FLASH_PAGE_SIZE`, what one program call writes. -/
def pageSize : Nat := 256

def stagingPagesCnt : Nat := 1024

def stagingImageSize : Nat := stagingPagesCnt * pageSize

/-- Where the metadata of the image lies in it: its last sector. -/
def metadataOffset : Nat := stagingImageSize - sectorSize

def addrIdentity : Nat := 2048 * 1024 - 8192

def addrConfig : Nat := 2048 * 1024 - 4096

/-- `sizeof(config_t)`. -/
def configSize : Nat := 528

def configFlashBytes : Nat := (configSize + pageSize - 1) / pageSize * pageSize

/-- `sizeof(identity_t)`. -/
def identitySize : Nat := 52

/-- The bytes of flash, by their offset. -/
abbrev Flash := Nat → UInt8

/-- The bytes of a page, as flash reads them. -/
def Flash.page (flash : Flash) (address : Nat) : List UInt8 :=
  (List.range pageSize).map fun i ↦ flash (address + i)

/-- The page is erased. -/
def Flash.Blank (flash : Flash) (address : Nat) : Prop := ∀ i < pageSize, flash (address + i) = 0xff

/-- The flash part, as the two calls of its driver see it: an erase sets a sector to ones, and a
page takes what is programmed into it when it is erased or holds it already. -/
structure FlashPart where
  erase : Flash → Nat → Flash
  program : Flash → Nat → List UInt8 → Flash
  erase_inside : ∀ flash sector address, sector ≤ address → address < sector + sectorSize →
    erase flash sector address = 0xff
  erase_outside : ∀ flash sector address, address < sector ∨ sector + sectorSize ≤ address →
    erase flash sector address = flash address
  program_blank : ∀ (flash : Flash) address (data : List UInt8), data.length = pageSize →
    flash.Blank address → Flash.page (program flash address data) address = data
  program_same : ∀ (flash : Flash) address (data : List UInt8), data.length = pageSize →
    flash.page address = data → Flash.page (program flash address data) address = data
  program_outside : ∀ flash address (data : List UInt8) other,
    other < address ∨ address + data.length ≤ other → program flash address data other = flash other

/-- `write_flash_page`: the first page of a sector erases the sector. -/
def writeFlashPage (part : FlashPart) (flash : Flash) (target : Nat)
    (buffer : List UInt8) : Flash :=
  let flash := if target % sectorSize / pageSize = 0 then part.erase flash target else flash
  part.program flash target (buffer.take pageSize)

/-! ## Checksums -/

/-- `crc32_lookup_table`. -/
def crc32LookupTable : List UInt32 :=
  [0x00000000, 0x77073096, 0xee0e612c, 0x990951ba, 0x076dc419, 0x706af48f, 0xe963a535, 0x9e6495a3,
   0x0edb8832, 0x79dcb8a4, 0xe0d5e91e, 0x97d2d988, 0x09b64c2b, 0x7eb17cbd, 0xe7b82d07, 0x90bf1d91,
   0x1db71064, 0x6ab020f2, 0xf3b97148, 0x84be41de, 0x1adad47d, 0x6ddde4eb, 0xf4d4b551, 0x83d385c7,
   0x136c9856, 0x646ba8c0, 0xfd62f97a, 0x8a65c9ec, 0x14015c4f, 0x63066cd9, 0xfa0f3d63, 0x8d080df5,
   0x3b6e20c8, 0x4c69105e, 0xd56041e4, 0xa2677172, 0x3c03e4d1, 0x4b04d447, 0xd20d85fd, 0xa50ab56b,
   0x35b5a8fa, 0x42b2986c, 0xdbbbc9d6, 0xacbcf940, 0x32d86ce3, 0x45df5c75, 0xdcd60dcf, 0xabd13d59,
   0x26d930ac, 0x51de003a, 0xc8d75180, 0xbfd06116, 0x21b4f4b5, 0x56b3c423, 0xcfba9599, 0xb8bda50f,
   0x2802b89e, 0x5f058808, 0xc60cd9b2, 0xb10be924, 0x2f6f7c87, 0x58684c11, 0xc1611dab, 0xb6662d3d,
   0x76dc4190, 0x01db7106, 0x98d220bc, 0xefd5102a, 0x71b18589, 0x06b6b51f, 0x9fbfe4a5, 0xe8b8d433,
   0x7807c9a2, 0x0f00f934, 0x9609a88e, 0xe10e9818, 0x7f6a0dbb, 0x086d3d2d, 0x91646c97, 0xe6635c01,
   0x6b6b51f4, 0x1c6c6162, 0x856530d8, 0xf262004e, 0x6c0695ed, 0x1b01a57b, 0x8208f4c1, 0xf50fc457,
   0x65b0d9c6, 0x12b7e950, 0x8bbeb8ea, 0xfcb9887c, 0x62dd1ddf, 0x15da2d49, 0x8cd37cf3, 0xfbd44c65,
   0x4db26158, 0x3ab551ce, 0xa3bc0074, 0xd4bb30e2, 0x4adfa541, 0x3dd895d7, 0xa4d1c46d, 0xd3d6f4fb,
   0x4369e96a, 0x346ed9fc, 0xad678846, 0xda60b8d0, 0x44042d73, 0x33031de5, 0xaa0a4c5f, 0xdd0d7cc9,
   0x5005713c, 0x270241aa, 0xbe0b1010, 0xc90c2086, 0x5768b525, 0x206f85b3, 0xb966d409, 0xce61e49f,
   0x5edef90e, 0x29d9c998, 0xb0d09822, 0xc7d7a8b4, 0x59b33d17, 0x2eb40d81, 0xb7bd5c3b, 0xc0ba6cad,
   0xedb88320, 0x9abfb3b6, 0x03b6e20c, 0x74b1d29a, 0xead54739, 0x9dd277af, 0x04db2615, 0x73dc1683,
   0xe3630b12, 0x94643b84, 0x0d6d6a3e, 0x7a6a5aa8, 0xe40ecf0b, 0x9309ff9d, 0x0a00ae27, 0x7d079eb1,
   0xf00f9344, 0x8708a3d2, 0x1e01f268, 0x6906c2fe, 0xf762575d, 0x806567cb, 0x196c3671, 0x6e6b06e7,
   0xfed41b76, 0x89d32be0, 0x10da7a5a, 0x67dd4acc, 0xf9b9df6f, 0x8ebeeff9, 0x17b7be43, 0x60b08ed5,
   0xd6d6a3e8, 0xa1d1937e, 0x38d8c2c4, 0x4fdff252, 0xd1bb67f1, 0xa6bc5767, 0x3fb506dd, 0x48b2364b,
   0xd80d2bda, 0xaf0a1b4c, 0x36034af6, 0x41047a60, 0xdf60efc3, 0xa867df55, 0x316e8eef, 0x4669be79,
   0xcb61b38c, 0xbc66831a, 0x256fd2a0, 0x5268e236, 0xcc0c7795, 0xbb0b4703, 0x220216b9, 0x5505262f,
   0xc5ba3bbe, 0xb2bd0b28, 0x2bb45a92, 0x5cb36a04, 0xc2d7ffa7, 0xb5d0cf31, 0x2cd99e8b, 0x5bdeae1d,
   0x9b64c2b0, 0xec63f226, 0x756aa39c, 0x026d930a, 0x9c0906a9, 0xeb0e363f, 0x72076785, 0x05005713,
   0x95bf4a82, 0xe2b87a14, 0x7bb12bae, 0x0cb61b38, 0x92d28e9b, 0xe5d5be0d, 0x7cdcefb7, 0x0bdbdf21,
   0x86d3d2d4, 0xf1d4e242, 0x68ddb3f8, 0x1fda836e, 0x81be16cd, 0xf6b9265b, 0x6fb077e1, 0x18b74777,
   0x88085ae6, 0xff0f6a70, 0x66063bca, 0x11010b5c, 0x8f659eff, 0xf862ae69, 0x616bffd3, 0x166ccf45,
   0xa00ae278, 0xd70dd2ee, 0x4e048354, 0x3903b3c2, 0xa7672661, 0xd06016f7, 0x4969474d, 0x3e6e77db,
   0xaed16a4a, 0xd9d65adc, 0x40df0b66, 0x37d83bf0, 0xa9bcae53, 0xdebb9ec5, 0x47b2cf7f, 0x30b5ffe9,
   0xbdbdf21c, 0xcabac28a, 0x53b39330, 0x24b4a3a6, 0xbad03605, 0xcdd70693, 0x54de5729, 0x23d967bf,
   0xb3667a2e, 0xc4614ab8, 0x5d681b02, 0x2a6f2b94, 0xb40bbe37, 0xc30c8ea1, 0x5a05df1b, 0x2d02ef8d]

def crc32Iter (crc : UInt32) (byte : UInt8) : UInt32 :=
  crc32LookupTable.getD ((byte.toUInt32 ^^^ crc) &&& 0xff).toNat 0 ^^^ (crc >>> 8)

/-- `calc_crc32` of the first bytes of flash. -/
def calcCrc32 (flash : Flash) (size : Nat) : UInt32 :=
  ~~~ (List.range size).foldl (fun crc i ↦ crc32Iter crc (flash i)) 0xffffffff

/-- The checksum leaves out the last sector, where it is itself stored. -/
def calculateFirmwareCrc32 (flash : Flash) : UInt32 :=
  calcCrc32 flash (stagingImageSize - sectorSize)

/-! ## The state of a board -/

def peerFwUnknown : UInt16 := 0

def peerFwStaleUs : Nat := 3 * 1000000

def fwUpgradeStallUs : Nat := 30 * 1000000

def fwUpgradeRerequestUs : Nat := 100 * 1000

/-- Which transport delivers the upgrade. -/
inductive Source where
  | none | pull | drop
  deriving DecidableEq, Repr

/-- `fw_upgrade_state_t`. The two timestamps are kept whole; only differences of them are read, and
those are taken modulo 32 bits. -/
structure FwUpgrade where
  address : Nat := 0
  checksum : UInt32 := 0
  byteDone : Bool := false
  upgradeInProgress : Bool := false
  source : Source := .none
  imageDirty : Bool := false
  progressedAt : Nat := 0
  requestedAt : Nat := 0

/-- `fw_image_id_t`. -/
structure ImageId where
  version : UInt16
  checksum : UInt32

structure PeerFw where
  version : UInt16 := peerFwUnknown
  checksum : UInt32 := 0
  heardAt : Nat := 0

/-- `config_t`, sealed, as the bytes `save_config` copies. -/
structure Config where
  bytes : List UInt8
  length_bytes : bytes.length = configSize

/-- `identity_t`, sealed, as the bytes `save_identity` copies. -/
structure Identity where
  bytes : List UInt8
  length_bytes : bytes.length = identitySize

/-- What the pull reads and writes of `device_t`, with the flash. `rom` is set once the board has
been handed to the ROM bootloader, from where it does not come back. -/
structure Board where
  fw : FwUpgrade := {}
  pageBuffer : List UInt8 := List.replicate configFlashBytes 0
  runningFw : ImageId
  peerFw : PeerFw := {}
  followsAtEqualVersion : Bool
  rebootRequested : Bool := false
  rom : Bool := false
  flash : Flash

namespace FwUpgrade

variable (fw : FwUpgrade)

def mayPull : Bool := fw.upgradeInProgress && fw.source == .pull

def stalled (now : Nat) : Bool :=
  fw.upgradeInProgress && decide (fwUpgradeStallUs ≤ (now - fw.progressedAt) % 2 ^ 32)

def requestLost (now : Nat) : Bool :=
  fw.mayPull && !fw.byteDone &&
    decide (fwUpgradeRerequestUs ≤ (now - fw.requestedAt) % 2 ^ 32)

def mustRecover (peerPresent : Bool) : Bool := fw.imageDirty && !peerPresent

def shouldPull (ours peers : ImageId) (followsAtEqualVersion : Bool) : Bool :=
  if fw.upgradeInProgress then false
  else if ours.version < peers.version then true
  else if peers.version < ours.version then false
  else followsAtEqualVersion && peers.checksum != ours.checksum

end FwUpgrade

/-! ## The pull -/

section Pull

variable (part : FlashPart)

/-- The metadata behind the image, as `_firmware_metadata` names it: a magic word, then the version
and the checksum. -/
def firmwareMetadata (flash : Flash) : ImageId :=
  let field (offset width : Nat) := value ((List.range width).map fun i ↦
    flash (metadataOffset + offset + i))
  ⟨.ofNat (field 4 2), .ofNat (field 6 4)⟩

def Board.recoverToRom (b : Board) : Board := { b with flash := part.erase b.flash 0, rom := true }

def Board.abandonFirmwareUpgrade (b : Board) : Board :=
  if b.fw.mustRecover (b.peerFw.version != peerFwUnknown) then b.recoverToRom part
  else { b with fw := { b.fw with upgradeInProgress := false, source := .none, address := 0 } }

/-- A page written over the running image: where, what was handed to flash, and what flash held when
the call returned. -/
structure PageWrite where
  address : Nat
  data : List UInt8
  stored : List UInt8

/-- What a pass of the pull does to the outside: the page it writes, the word it asks for, whether
it ends by asking for a reboot. -/
structure Pass where
  board : Board
  page : Option PageWrite := none
  request : Option Nat := none
  reboot : Bool := false

/-- `request_byte`. The word is outstanding only if the request went out. -/
def Board.requestByte (b : Board) (address now : Nat) (accepted : Bool) : Pass :=
  let b := { b with fw := { b.fw with requestedAt := now } }
  if accepted then
    { board := { b with fw := { b.fw with byteDone := false } }, request := some address }
  else { board := b }

/-- The page the buffer holds goes over the running image. -/
def Board.writePage (b : Board) : Board :=
  { b with
    flash := writeFlashPage part b.flash ((b.fw.address - 1) / pageSize * pageSize) b.pageBuffer
    fw := { b.fw with imageDirty := true } }

/-- That page, for the record. -/
def Board.pageWrite (b : Board) : PageWrite :=
  let address := (b.fw.address - 1) / pageSize * pageSize
  ⟨address, b.pageBuffer.take pageSize, (b.writePage part).flash.page address⟩

/-- The last word is in flash: the image is checked, and booted if it is whole. -/
def Board.endPull (b : Board) : Pass :=
  let fw := { b.fw with
    upgradeInProgress := false, source := .none, checksum := ~~~ b.fw.checksum }
  if calculateFirmwareCrc32 b.flash ≠ fw.checksum then
    { board := { b with fw := fw }.recoverToRom part }
  else
    { board := { b with
        fw := { fw with imageDirty := false }
        runningFw := firmwareMetadata b.flash
        rebootRequested := true }
      reboot := true }

/-- `firmware_upgrade_task`. Whether the transmit queue is full, and whether it takes a request, are
answers of the queue. -/
def Board.firmwareUpgradeTask (b : Board) (queueIsFull accepted : Bool) (now : Nat) : Pass :=
  if b.fw.mayPull = false then { board := b }
  else if b.fw.byteDone = false then
    if b.fw.requestLost now then b.requestByte b.fw.address now accepted else { board := b }
  else if queueIsFull then { board := b }
  else
    -- the last word of a page is in; at address zero nothing has arrived yet
    let complete := b.fw.address % 256 = 0 ∧ b.fw.address ≠ 0
    let page := if complete then some (b.pageWrite part) else none
    let b := if complete then b.writePage part else b
    if stagingImageSize ≤ b.fw.address then { b.endPull part with page := page }
    else { b.requestByte b.fw.address now accepted with page := page }

/-- `handle_request_byte_msg` on the peer: the word of its image, unless the address is past it. -/
def handleRequestByteMsg (peer : Flash) (address : Nat) : Option (List UInt8) :=
  if stagingImageSize ≤ address then none
  else some ((List.range 4).map fun i ↦ peer (address + i))

def Board.handleResponseByteMsg (b : Board) (address : Nat) (data : List UInt8)
    (now : Nat) : Board :=
  if b.fw.mayPull = false then b
  else if address ≠ b.fw.address then b.abandonFirmwareUpgrade part
  else
    { b with
      pageBuffer := overwrite b.pageBuffer (address % 256) data
      fw := { b.fw with
        checksum :=
          if address < stagingImageSize - sectorSize then data.foldl crc32Iter b.fw.checksum
          else b.fw.checksum
        address := b.fw.address + 4
        byteDone := true
        progressedAt := now } }

/-- `handle_heartbeat_msg`, the part that starts a pull. -/
def Board.handleHeartbeatMsg (b : Board) (peers : ImageId) (now : Nat) : Board :=
  let b := { b with peerFw := ⟨peers.version, peers.checksum, now⟩ }
  if b.fw.shouldPull b.runningFw peers b.followsAtEqualVersion then
    { b with fw := { b.fw with
        upgradeInProgress := true
        source := .pull
        byteDone := true
        address := 0
        checksum := 0xffffffff
        progressedAt := now } }
  else b

def PeerFw.expire (peer : PeerFw) (now : Nat) : PeerFw :=
  if peer.version = peerFwUnknown then peer
  else if now ≤ peer.heardAt then peer
  else if peerFwStaleUs ≤ now - peer.heardAt then
    { peer with version := peerFwUnknown, checksum := 0 }
  else peer

/-- `heartbeat_output_task`, the part that gives up on a transfer gone quiet. -/
def Board.heartbeatOutputTask (b : Board) (now : Nat) : Board :=
  let b := { b with peerFw := b.peerFw.expire now }
  if b.fw.stalled now then b.abandonFirmwareUpgrade part else b

/-! ## The other users of the buffer -/

def Board.saveConfig (b : Board) (config : Config) : Board :=
  let buffer := config.bytes ++ List.replicate (configFlashBytes - configSize) 0
  let pages := List.range (configFlashBytes / pageSize)
  { b with
    pageBuffer := buffer
    flash := pages.foldl (fun flash page ↦
      writeFlashPage part flash (addrConfig + page * pageSize)
        (buffer.drop (page * pageSize))) b.flash }

def Board.saveIdentity (b : Board) (identity : Identity) : Board :=
  let buffer := overwrite b.pageBuffer 0
    (identity.bytes ++ List.replicate (pageSize - identitySize) 0)
  { b with pageBuffer := buffer, flash := writeFlashPage part b.flash addrIdentity buffer }

/-- `wipe_config`. It touches the flash and not the buffer. -/
def Board.wipeConfig (b : Board) : Board := { b with flash := part.erase b.flash addrConfig }

end Pull

/-! ## Two boards and the link -/

/-- A word asked for and not back: its address, and when it was asked for. -/
structure Word where
  address : Nat
  sentAt : Nat

/-- A page written, with the number of the pull that wrote it. -/
structure PulledPage extends PageWrite where
  pull : Nat

/-- The pulling board, the words in flight in the order they were asked for, the time, and the
history: how many pulls began, the pages they wrote, and those that ended by asking for a reboot. -/
structure Rig where
  board : Board
  link : List Word := []
  clock : Nat := 0
  pulls : Nat := 0
  written : List PulledPage := []
  finished : List Nat := []

inductive Act where
  | task (queueIsFull accepted : Bool)
  | deliver
  | lose (place : Nat)
  | heartbeat (peers : ImageId)
  | heartbeatOutput
  | saveConfig (config : Config)
  | saveIdentity (identity : Identity)
  | wipeConfig

/-- Something happens on the pulling board, some time after the last thing did. -/
structure Event where
  elapsed : Nat
  act : Act

namespace Rig

variable (part : FlashPart) (peer : Flash)

/-- Time passes. A word not back within the re-request interval is lost. -/
def wait (s : Rig) (elapsed : Nat) : Rig :=
  let clock := s.clock + elapsed
  { s with clock := clock, link := s.link.filter fun w ↦ clock - w.sentAt < fwUpgradeRerequestUs }

/-- What a pass of the task leaves behind it. -/
def pass (s : Rig) (p : Pass) : Rig :=
  { s with
    board := p.board
    link := s.link ++ (p.request.map fun address ↦ ⟨address, s.clock⟩).toList
    written := s.written ++ (p.page.map fun page ↦ ⟨page, s.pulls⟩).toList
    finished := if p.reboot then s.finished ++ [s.pulls] else s.finished }

/-- The oldest word in flight arrives, with what the peer holds there. -/
def deliver (s : Rig) : Rig :=
  match s.link with
  | [] => s
  | word :: rest =>
      let s := { s with link := rest }
      match handleRequestByteMsg peer word.address with
      | none => s
      | some data =>
          { s with board := s.board.handleResponseByteMsg part word.address data s.clock }

/-- A heartbeat of the peer; a pull that begins with it is a new one. -/
def heartbeat (s : Rig) (peers : ImageId) : Rig :=
  let board := s.board.handleHeartbeatMsg peers s.clock
  let begins := s.board.fw.shouldPull s.board.runningFw peers s.board.followsAtEqualVersion
  { s with board := board, pulls := if begins then s.pulls + 1 else s.pulls }

def act (s : Rig) : Act → Rig
  | .task queueIsFull accepted =>
      s.pass (s.board.firmwareUpgradeTask part queueIsFull accepted s.clock)
  | .deliver => s.deliver part peer
  | .lose place => { s with link := s.link.eraseIdx place }
  | .heartbeat peers => s.heartbeat peers
  | .heartbeatOutput => { s with board := s.board.heartbeatOutputTask part s.clock }
  | .saveConfig config => { s with board := s.board.saveConfig part config }
  | .saveIdentity identity => { s with board := s.board.saveIdentity part identity }
  | .wipeConfig => { s with board := s.board.wipeConfig part }

/-- One event. A board handed to the ROM takes no part in any. -/
def step (s : Rig) (event : Event) : Rig :=
  if s.board.rom then s else (s.wait event.elapsed).act part peer event.act

/-- A board as it boots, with nothing in flight. -/
def boot (flash : Flash) (followsAtEqualVersion : Bool) : Rig where
  board := { runningFw := firmwareMetadata flash, followsAtEqualVersion, flash }

end Rig

end DeskhopPlus.Firmware
