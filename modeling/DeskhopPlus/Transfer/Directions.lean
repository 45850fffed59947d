import DeskhopPlus.Library.Unwinding
import DeskhopPlus.Transfer.Turns

/-!
# The two directions of one machine

Both directions live in one structure, and both number their transfers from one, so the same id
often stands on both sides. Each turn belongs to one direction, the cancel and the loss of the link
apart. `directions_apart` says that a direction sees nothing of the turns of the other: two runs
that agree on the turns of one direction agree on its state and on the actions it wrote, however
the turns of the other are chosen and mixed in.
-/

namespace DeskhopPlus.Transfer

open Wire Unwinding

/-- A direction of the machine. -/
inductive Direction where
  | sending
  | receiving
  deriving DecidableEq, Repr

/-- The direction a turn is about. A cancel and the loss of the link are about both. -/
def Turn.direction : Turn → Option Direction
  | .call (.offer ..) _ => some .sending
  | .call .retryOffer _ => some .sending
  | .call (.provide _) _ => some .sending
  | .call .provideFail _ => some .sending
  | .call .pump _ => some .sending
  | .call .retryDone _ => some .sending
  | .call .cancelTx _ => some .sending
  | .call .expireTx _ => some .sending
  | .message (.request _) _ _ => some .sending
  | .message (.retransmit _ _) _ _ => some .sending
  | .message (.credit _ _) _ _ => some .sending
  | .message (.received _) _ _ => some .sending
  | .call (.requestLazy _) _ => some .receiving
  | .call (.setRxBuffer _) _ => some .receiving
  | .call .sweepRx _ => some .receiving
  | .call .cancelRx _ => some .receiving
  | .call .rxSealReplaced _ => some .receiving
  | .message (.offer _) _ _ => some .receiving
  | .message (.chunk _) _ _ => some .receiving
  | .message (.done _) _ _ => some .receiving
  | .call .linkDown _ => none
  | .message (.cancel _) _ _ => none

/-- The turn is about this direction. -/
def Turn.about (direction : Direction) (turn : Turn) : Bool := turn.direction = some direction

namespace Xfer

/-- What the sending direction keeps. -/
def sendingHalf (x : Xfer) : Outgoing × UInt32 := (x.tx, x.nextId)

/-- What the receiving direction keeps. -/
def receivingHalf (x : Xfer) : Incoming × List UInt8 := (x.rx, x.rxBuf)

/-- The machine with another receiving half. -/
def withReceiving (x : Xfer) (rx : Incoming) (rxBuf : List UInt8) : Xfer :=
  { x with rx := rx, rxBuf := rxBuf }

/-- The machine with another sending half. -/
def withSending (x : Xfer) (tx : Outgoing) (nextId : UInt32) : Xfer :=
  { x with tx := tx, nextId := nextId }

/-! ## Turns of the sending direction -/

section Sending

variable (x : Xfer) (rx : Incoming) (rxBuf : List UInt8) (cap : Nat)

/-- A result over another receiving half. -/
def overReceiving (result : Xfer × List Action) : Xfer × List Action :=
  (result.1.withReceiving rx rxBuf, result.2)

theorem withReceiving_retryOffer :
    (x.withReceiving rx rxBuf).retryOffer cap = overReceiving rx rxBuf (x.retryOffer cap) := by
  obtain ⟨tx, _, _, nextId⟩ := x
  dsimp only [withReceiving, retryOffer]
  split_ifs <;> rfl

theorem withReceiving_provide (data : List UInt8) :
    (x.withReceiving rx rxBuf).provide data = (x.provide data).withReceiving rx rxBuf := by
  obtain ⟨tx, _, _, nextId⟩ := x
  dsimp only [withReceiving, provide]
  split_ifs <;> rfl

theorem withReceiving_provideFail :
    (x.withReceiving rx rxBuf).provideFail cap = overReceiving rx rxBuf (x.provideFail cap) := by
  obtain ⟨tx, _, _, nextId⟩ := x
  dsimp only [withReceiving, provideFail]
  split_ifs <;> rfl

theorem withReceiving_pump :
    (x.withReceiving rx rxBuf).pump cap = overReceiving rx rxBuf (x.pump cap) := by
  obtain ⟨tx, _, _, nextId⟩ := x
  dsimp only [withReceiving, pump]
  split_ifs <;> rfl

theorem withReceiving_cancelTx :
    (x.withReceiving rx rxBuf).cancelTx cap = overReceiving rx rxBuf (x.cancelTx cap) := by
  obtain ⟨tx, _, _, nextId⟩ := x
  dsimp only [withReceiving, cancelTx]
  split_ifs <;> rfl

theorem withReceiving_expireTx :
    (x.withReceiving rx rxBuf).expireTx = x.expireTx.withReceiving rx rxBuf := by
  have hsame : (x.withReceiving rx rxBuf).txAwaitingReceipt = x.txAwaitingReceipt := rfl
  unfold expireTx
  rw [hsame]
  cases x.txAwaitingReceipt <;> rfl

theorem withReceiving_handleRequest (id : UInt32) :
    (x.withReceiving rx rxBuf).handleRequest cap id =
      overReceiving rx rxBuf (x.handleRequest cap id) := by
  obtain ⟨tx, _, _, nextId⟩ := x
  dsimp only [withReceiving, handleRequest]
  split_ifs <;> rfl

theorem withReceiving_handleRetransmit (id : UInt32) (seq : Nat) :
    (x.withReceiving rx rxBuf).handleRetransmit id seq =
      (x.handleRetransmit id seq).withReceiving rx rxBuf := by
  obtain ⟨tx, _, _, nextId⟩ := x
  dsimp only [withReceiving, handleRetransmit]
  split_ifs <;> rfl

theorem withReceiving_handleCredit (id : UInt32) (credits : Nat) :
    (x.withReceiving rx rxBuf).handleCredit id credits =
      (x.handleCredit id credits).withReceiving rx rxBuf := by
  obtain ⟨tx, _, _, nextId⟩ := x
  dsimp only [withReceiving, handleCredit]
  split_ifs <;> rfl

theorem withReceiving_handleReceived (id : UInt32) :
    (x.withReceiving rx rxBuf).handleReceived id =
      (x.handleReceived id).withReceiving rx rxBuf := by
  obtain ⟨tx, _, _, nextId⟩ := x
  dsimp only [withReceiving, handleReceived]
  split_ifs <;> rfl

/-- A turn of the sending direction neither reads the receiving half nor writes it. -/
theorem sending_turn {turn : Turn} (h : turn.about .sending = true) :
    (x.withReceiving rx rxBuf).turn turn = overReceiving rx rxBuf (x.turn turn) := by
  cases turn with
  | call call cap =>
      cases call with
      | offer kind metadata metadata_length data total => rfl
      | retryOffer => exact withReceiving_retryOffer x rx rxBuf cap
      | provide data =>
          exact congrArg (·, []) (withReceiving_provide x rx rxBuf data)
      | provideFail => exact withReceiving_provideFail x rx rxBuf cap
      | pump => exact withReceiving_pump x rx rxBuf cap
      | retryDone => rfl
      | cancelTx => exact withReceiving_cancelTx x rx rxBuf cap
      | expireTx => exact congrArg (·, []) (withReceiving_expireTx x rx rxBuf)
      | requestLazy | setRxBuffer | sweepRx | cancelRx | linkDown | rxSealReplaced => cases h
  | message message lazy cap =>
      cases message with
      | request id => exact withReceiving_handleRequest x rx rxBuf cap id
      | retransmit id seq =>
          exact congrArg (·, []) (withReceiving_handleRetransmit x rx rxBuf id seq)
      | credit id credits =>
          exact congrArg (·, []) (withReceiving_handleCredit x rx rxBuf id credits)
      | received id => exact congrArg (·, []) (withReceiving_handleReceived x rx rxBuf id)
      | offer | chunk | done | cancel => cases h

end Sending

/-! ## Turns of the receiving direction -/

section Receiving

variable (x : Xfer) (tx : Outgoing) (nextId : UInt32) (cap : Nat)

/-- A result over another sending half. -/
def overSending (result : Xfer × List Action) : Xfer × List Action :=
  (result.1.withSending tx nextId, result.2)

theorem withSending_setRxBuffer (rxBuf : List UInt8) :
    (x.withSending tx nextId).setRxBuffer rxBuf = (x.setRxBuffer rxBuf).withSending tx nextId := by
  obtain ⟨_, rx, held, _⟩ := x
  dsimp only [withSending, setRxBuffer]
  split_ifs <;> rfl

theorem withSending_handleOffer (offer : ClipOffer) (lazy : Bool) :
    (x.withSending tx nextId).handleOffer cap offer lazy =
      overSending tx nextId (x.handleOffer cap offer lazy) := by
  obtain ⟨_, rx, held, _⟩ := x
  dsimp only [withSending, handleOffer]
  split_ifs <;> rfl

theorem withSending_requestLazy (id : UInt32) :
    (x.withSending tx nextId).requestLazy cap id = overSending tx nextId
      (x.requestLazy cap id) := by
  obtain ⟨_, rx, held, _⟩ := x
  dsimp only [withSending, requestLazy]
  split_ifs <;> rfl

theorem withSending_handleChunk (chunk : ClipChunk) :
    (x.withSending tx nextId).handleChunk cap chunk =
      overSending tx nextId (x.handleChunk cap chunk) := by
  obtain ⟨_, rx, held, _⟩ := x
  dsimp only [withSending, handleChunk, storeChunk]
  split_ifs <;> first | rfl | skip
  -- the chunk may have completed the receive
  all_goals
    generalize rxComplete cap _ [] = finished
    cases finished <;> rfl

theorem withSending_sweepRx :
    (x.withSending tx nextId).sweepRx cap = overSending tx nextId (x.sweepRx cap) := by
  obtain ⟨_, rx, held, _⟩ := x
  dsimp only [withSending, sweepRx]
  split_ifs <;> rfl

theorem withSending_handleDone (id : UInt32) :
    (x.withSending tx nextId).handleDone cap id = overSending tx nextId (x.handleDone cap id) := by
  obtain ⟨_, rx, held, _⟩ := x
  dsimp only [withSending, handleDone]
  cases rxComplete cap rx [] with
  | none => split_ifs <;> rfl
  | some finished => split_ifs <;> rfl

theorem withSending_cancelRx :
    (x.withSending tx nextId).cancelRx cap = overSending tx nextId (x.cancelRx cap) := by
  obtain ⟨_, rx, held, _⟩ := x
  dsimp only [withSending, cancelRx]
  split_ifs <;> rfl

/-- A turn of the receiving direction neither reads the sending half nor writes it. -/
theorem receiving_turn {turn : Turn} (h : turn.about .receiving = true) :
    (x.withSending tx nextId).turn turn = overSending tx nextId (x.turn turn) := by
  cases turn with
  | call call cap =>
      cases call with
      | requestLazy id => exact withSending_requestLazy x tx nextId cap id
      | setRxBuffer rxBuf => exact congrArg (·, []) (withSending_setRxBuffer x tx nextId rxBuf)
      | sweepRx => exact withSending_sweepRx x tx nextId cap
      | cancelRx => exact withSending_cancelRx x tx nextId cap
      | rxSealReplaced => rfl
      | offer | retryOffer | provide | provideFail | pump | retryDone | cancelTx | expireTx
      | linkDown => cases h
  | message message lazy cap =>
      cases message with
      | offer offer => exact withSending_handleOffer x tx nextId cap offer lazy
      | chunk chunk => exact withSending_handleChunk x tx nextId cap chunk
      | done id => exact withSending_handleDone x tx nextId cap id
      | request | retransmit | credit | received | cancel => cases h

end Receiving

end Xfer

/-! ## Two runs -/

/-- The turn is about one direction: no cancel came in, and the link stands. -/
def Turn.OneDirection (turn : Turn) : Prop := turn.direction ≠ none

/-- The other direction. -/
def Direction.other : Direction → Direction
  | .sending => .receiving
  | .receiving => .sending

theorem Turn.about_other {turn : Turn} (h : turn.OneDirection) {direction : Direction}
    (hnot : turn.about direction = false) : turn.about direction.other = true := by
  unfold OneDirection at h
  unfold about at hnot ⊢
  cases hdirection : turn.direction with
  | none => exact absurd hdirection h
  | some actual =>
      rw [hdirection] at hnot
      cases actual <;> cases direction <;> first | rfl | cases hnot

/-- Machines with the same sending half differ in the receiving half only. -/
theorem Xfer.eq_withReceiving {x y : Xfer} (h : x.sendingHalf = y.sendingHalf) :
    y = x.withReceiving y.rx y.rxBuf := by
  obtain ⟨htx, hnext⟩ := Prod.mk.inj h
  rw [withReceiving, htx, hnext]

/-- Machines with the same receiving half differ in the sending half only. -/
theorem Xfer.eq_withSending {x y : Xfer} (h : x.receivingHalf = y.receivingHalf) :
    y = x.withSending y.tx y.nextId := by
  obtain ⟨hrx, hbuf⟩ := Prod.mk.inj h
  rw [withSending, hrx, hbuf]

/-- The sending half belongs to the turns of the sending direction. -/
theorem sending_owned :
    Owned Xfer.turn (Turn.about .sending) Xfer.sendingHalf Turn.OneDirection where
  own_part := by
    intro turn hown x y hhalf
    rw [Xfer.eq_withReceiving hhalf, Xfer.sending_turn x y.rx y.rxBuf hown]
    rfl
  own_written := by
    intro turn hown x y hhalf
    rw [Xfer.eq_withReceiving hhalf, Xfer.sending_turn x y.rx y.rxBuf hown]
    rfl
  other := by
    intro turn hnot hone x
    have hturn : x.turn turn = Xfer.overSending x.tx x.nextId (x.turn turn) :=
      Xfer.receiving_turn x x.tx x.nextId (Turn.about_other hone hnot)
    rw [hturn]
    rfl

/-- The receiving half belongs to the turns of the receiving direction. -/
theorem receiving_owned :
    Owned Xfer.turn (Turn.about .receiving) Xfer.receivingHalf Turn.OneDirection where
  own_part := by
    intro turn hown x y hhalf
    rw [Xfer.eq_withSending hhalf, Xfer.receiving_turn x y.tx y.nextId hown]
    rfl
  own_written := by
    intro turn hown x y hhalf
    rw [Xfer.eq_withSending hhalf, Xfer.receiving_turn x y.tx y.nextId hown]
    rfl
  other := by
    intro turn hnot hone x
    have hturn : x.turn turn = Xfer.overReceiving x.rx x.rxBuf (x.turn turn) :=
      Xfer.sending_turn x x.rx x.rxBuf (Turn.about_other hone hnot)
    rw [hturn]
    rfl

/-- Two runs of one machine that agree on the turns of a direction agree on that direction: the half
of the machine it keeps, and the actions its turns wrote. -/
theorem directions_apart (x : Xfer) {turns turns' : List Turn}
    (hone : ∀ turn ∈ turns, turn.OneDirection) (hone' : ∀ turn ∈ turns', turn.OneDirection) :
    (turns.filter (Turn.about .sending) = turns'.filter (Turn.about .sending) →
        (final Xfer.turn x turns).sendingHalf = (final Xfer.turn x turns').sendingHalf ∧
        written Xfer.turn (Turn.about .sending) x turns =
          written Xfer.turn (Turn.about .sending) x turns') ∧
      (turns.filter (Turn.about .receiving) = turns'.filter (Turn.about .receiving) →
        (final Xfer.turn x turns).receivingHalf = (final Xfer.turn x turns').receivingHalf ∧
        written Xfer.turn (Turn.about .receiving) x turns =
          written Xfer.turn (Turn.about .receiving) x turns') :=
  ⟨fun hsame ↦ sending_owned.unwinding rfl hone hone' hsame,
    fun hsame ↦ receiving_owned.unwinding rfl hone hone' hsame⟩

/-- A copy of one byte goes out as transfer one, while transfer one of the other side comes in. -/
def crossingTurns : List Turn :=
  [.call (.offer 0 [] noMetadata_fits (some [7]) 1) 8,
   .message
     (.offer { id := 1, kind := 0, total := 1, metadata := [], metadata_length := noMetadata_fits })
     false 8,
   .message (.request 1) false 8,
   .call .sweepRx 64,
   .message (.credit 1 3) false 8,
   .message (.done 1) false 8,
   .call .pump 8]

/-- Two transfers cross, and the one going out writes what it writes on its own. -/
theorem crossing_sends :
    written Xfer.turn (Turn.about .sending) (Xfer.init [0]) crossingTurns =
        written Xfer.turn (Turn.about .sending) (Xfer.init [0])
          (crossingTurns.filter (Turn.about .sending)) ∧
      (crossingTurns.filter (Turn.about .sending)).length = 4 := by
  have hone : ∀ turn ∈ crossingTurns, turn.OneDirection := by
    simp [crossingTurns, Turn.OneDirection, Turn.direction]
  have hsame : crossingTurns.filter (Turn.about .sending) =
      (crossingTurns.filter (Turn.about .sending)).filter (Turn.about .sending) := by
    rw [List.filter_filter]
    simp
  have hone' : ∀ turn ∈ crossingTurns.filter (Turn.about .sending), turn.OneDirection :=
    fun turn hturn ↦ hone turn (List.mem_filter.1 hturn).1
  exact ⟨((directions_apart (Xfer.init [0]) hone hone').1 hsame).2, rfl⟩

end DeskhopPlus.Transfer
