import DeskhopPlus.Library.Runs
import DeskhopPlus.Transfer.Ledger
import DeskhopPlus.Transfer.Turns
import Mathlib.Data.List.Chain

/-!
# At most one delivery

Offer ids are ordered inside a namespace that ends when the link goes down or the copy side's seal
is replaced. The record of a namespace holds the ids that were offered in it, the offers the machine
took up and the ids it delivered. `Kept` ties it to the machine: the deliveries are a subsequence of
the offers taken up, and one that is not completed has not been delivered. `delivers_once` reads the
order of ids and the fate of a repeated message off it.
-/

namespace DeskhopPlus.Transfer

open Wire Runs

/-- The id of the offer the incoming direction knows. -/
def Incoming.known (rx : Incoming) : Option UInt32 := if rx.seenOffer then some rx.id else none

/-- The offer a turn brings. -/
def Turn.offer : Turn → Option ClipOffer
  | .message (.offer offer) _ _ => some offer
  | _ => none

/-- The id an action announces the delivery of. -/
def Action.deliveredId : Action → Option UInt32
  | .delivered id => some id
  | _ => none

/-- A machine with the record of the namespace it is in. -/
structure Namespace where
  machine : Xfer
  offered : List UInt32
  taken : List ClipOffer
  delivered : List UInt32

/-- Two transfers of one identity agree on each part of it. -/
theorem identity_inj {rx rx' : Incoming} (h : rx'.identity = rx.identity) :
    rx'.seenOffer = rx.seenOffer ∧ rx'.id = rx.id ∧ rx'.kind = rx.kind ∧ rx'.total = rx.total ∧
      rx'.nchunks = rx.nchunks ∧ rx'.metaLen = rx.metaLen ∧ rx'.metadata = rx.metadata := by
  simpa only [Incoming.identity, Prod.mk.injEq] using h

theorem Incoming.Knows.of_identity {rx rx' : Incoming} {offer : ClipOffer} (hknows : rx.Knows offer)
    (h : rx'.identity = rx.identity) : rx'.Knows offer := by
  obtain ⟨-, hid, hkind, htotal, hnchunks, hmetaLen, hmetadata⟩ := identity_inj h
  refine ⟨?_, ?_, ?_, ?_, ?_, ?_⟩
  · rw [hid, hknows.id]
  · rw [hkind, hknows.kind]
  · rw [htotal, hknows.total]
  · rw [hnchunks, htotal, hknows.nchunks]
  · rw [hmetaLen, hknows.metaLen]
  · rw [hmetaLen, hmetadata]
    exact hknows.metadata

namespace Namespace

/-- A machine that has just started. -/
def init (rxBuf : List UInt8) : Namespace where
  machine := Xfer.init rxBuf
  offered := []
  taken := []
  delivered := []

/-- One turn. An offer is taken up when it is the one the machine then knows and was not before. -/
def step (n : Namespace) (turn : Turn) : Namespace :=
  let (x, acts) := n.machine.turn turn
  if turn.boundary then { machine := x, offered := [], taken := [], delivered := [] }
  else
    { machine := x
      offered := n.offered ++ (turn.offer.map ClipOffer.id).toList
      taken := n.taken ++ if x.rx.known = n.machine.rx.known then [] else turn.offer.toList
      delivered := n.delivered ++ acts.filterMap Action.deliveredId }

/-- The record tells what the machine knows of its namespace. -/
structure Kept (n : Namespace) : Prop where
  known : n.taken.getLast?.map ClipOffer.id = n.machine.rx.known
  knows : ∀ offer ∈ n.taken.getLast?, n.machine.rx.Knows offer
  nonzero : ∀ offer ∈ n.taken, offer.id ≠ 0
  offered : ∀ offer ∈ n.taken, offer.id ∈ n.offered
  chain : n.taken.IsChain fun earlier later ↦ serialNewer later.id earlier.id = true
  delivered : n.delivered.Sublist (n.taken.map ClipOffer.id)
  pending : n.machine.rx.completed = false →
    n.delivered.Sublist (n.taken.dropLast.map ClipOffer.id)
  arriving : n.machine.rx.active = true →
    n.machine.rx.seenOffer = true ∧ n.machine.rx.completed = false
  metaFits : n.machine.rx.active = true ∨ n.machine.rx.completed = true →
    n.machine.rx.metaLen ≤ metaMax
  completed : n.machine.rx.completed = true →
    n.machine.rx.seenOffer = true ∧ n.machine.rx.id ∈ n.delivered

theorem kept_init (rxBuf : List UInt8) : (init rxBuf).Kept where
  known := rfl
  knows offer hoffer := by cases hoffer
  nonzero offer hoffer := by cases hoffer
  offered offer hoffer := by cases hoffer
  chain := .nil
  delivered := .slnil
  pending _ := .slnil
  arriving hactive := by cases hactive
  metaFits _ := Nat.zero_le _
  completed hcompleted := by cases hcompleted

/-! ## One turn -/

/-- Nothing is delivered by actions that announce nothing. -/
theorem filterMap_quiet {acts : List Action} (h : Quiet acts) :
    acts.filterMap Action.deliveredId = [] := by
  rw [List.filterMap_eq_nil_iff]
  intro action haction
  cases action with
  | delivered id => exact absurd haction (h id).1
  | _ => rfl

theorem filterMap_announce (cap : Nat) (id : UInt32) :
    (Xfer.announce cap id).filterMap Action.deliveredId = [id] := by
  unfold Xfer.announce emit
  split <;> rfl

theorem filterMap_receipt (cap : Nat) (id : UInt32) :
    (emit cap [] (.sendReceived id)).filterMap Action.deliveredId = [] := by
  unfold emit
  split <;> rfl

/-- A boundary forgets the incoming direction. -/
theorem rx_boundary (x : Xfer) {turn : Turn} (h : turn.boundary = true) :
    (x.turn turn).1.rx = Incoming.forget := by
  cases turn with
  | message => cases h
  | call call cap =>
      cases call with
      | linkDown =>
          show (x.linkDown cap).1.rx = Incoming.forget
          unfold Xfer.linkDown
          simp only
          split <;> rfl
      | rxSealReplaced => rfl
      | _ => cases h

section Step

variable {n : Namespace} {turn : Turn} {x : Xfer} {acts : List Action}

/-- The record after a turn that is no boundary. -/
theorem step_eq (hturn : n.machine.turn turn = (x, acts)) (hboundary : turn.boundary = false) :
    n.step turn =
      { machine := x
        offered := n.offered ++ (turn.offer.map ClipOffer.id).toList
        taken := n.taken ++ if x.rx.known = n.machine.rx.known then [] else turn.offer.toList
        delivered := n.delivered ++ acts.filterMap Action.deliveredId } := by
  simp [step, hturn, hboundary]

/-- A turn that neither takes up an offer nor delivers keeps the record. -/
theorem Kept.still (h : n.Kept) {offered : List UInt32} (hoffered : n.offered ⊆ offered)
    (hidentity : x.rx.identity = n.machine.rx.identity)
    (hcompleted : x.rx.completed = n.machine.rx.completed)
    (hactive : x.rx.active = true → n.machine.rx.active = true) :
    Kept { machine := x, offered := offered, taken := n.taken, delivered := n.delivered } := by
  obtain ⟨hseen, hid, -, -, -, hmetaLen, -⟩ := identity_inj hidentity
  refine ⟨?_, ?_, h.nonzero, ?_, h.chain, h.delivered, ?_, ?_, ?_, ?_⟩
  · simp only [Incoming.known, hseen, hid]
    exact h.known
  · intro offer hoffer
    exact (h.knows offer hoffer).of_identity hidentity
  · intro offer hoffer
    exact hoffered (h.offered offer hoffer)
  · intro hnot
    exact h.pending (by rw [← hcompleted]; exact hnot)
  · intro hyes
    simp only [hseen, hcompleted]
    exact h.arriving (hactive hyes)
  · intro hyes
    simp only [hmetaLen]
    apply h.metaFits
    rcases hyes with hyes | hyes
    · exact .inl (hactive hyes)
    · exact .inr (hcompleted ▸ hyes)
  · intro hyes
    simp only [hseen, hid]
    exact h.completed (hcompleted ▸ hyes)

/-- The last offer taken up, when one is known. -/
theorem Kept.exists_last (h : n.Kept) (hseen : n.machine.rx.seenOffer = true) :
    ∃ earlier last, n.taken = earlier ++ [last] ∧ last.id = n.machine.rx.id := by
  have hknown := h.known
  simp only [Incoming.known, hseen, if_true] at hknown
  obtain ⟨last, hlast, hid⟩ := Option.map_eq_some_iff.1 hknown
  obtain ⟨earlier, htaken⟩ := List.getLast?_eq_some_iff.1 hlast
  exact ⟨earlier, last, htaken, hid⟩

/-- A completion delivers the last offer taken up. -/
theorem Kept.completes (h : n.Kept) (hactive : n.machine.rx.active = true)
    (hidentity : x.rx.identity = n.machine.rx.identity) (hcompleted : x.rx.completed = true)
    (hstopped : x.rx.active = false) :
    Kept { machine := x, offered := n.offered, taken := n.taken,
           delivered := n.delivered ++ [n.machine.rx.id] } := by
  obtain ⟨hseen, hpending⟩ := h.arriving hactive
  obtain ⟨earlier, last, htaken, hlast⟩ := h.exists_last hseen
  have hfits := h.metaFits (.inl hactive)
  have hbefore := h.pending hpending
  obtain ⟨hsame, hid, -, -, -, hmetaLen, -⟩ := identity_inj hidentity
  refine ⟨?_, ?_, h.nonzero, h.offered, h.chain, ?_, ?_, ?_, ?_, ?_⟩
  · simp only [Incoming.known, hsame, hid]
    exact h.known
  · intro offer hoffer
    exact (h.knows offer hoffer).of_identity hidentity
  · show (n.delivered ++ [n.machine.rx.id]).Sublist (n.taken.map ClipOffer.id)
    rw [htaken, List.dropLast_concat] at hbefore
    rw [htaken, List.map_append, List.map_singleton, hlast]
    exact hbefore.append (List.Sublist.refl _)
  · intro hnot
    rw [hcompleted] at hnot
    cases hnot
  · intro hyes
    rw [hstopped] at hyes
    cases hyes
  · intro _
    simp only [hmetaLen]
    exact hfits
  · intro _
    simp only [hsame, hid]
    exact ⟨hseen, List.mem_append_right _ (List.mem_singleton_self _)⟩

/-- An offer that is taken up follows the one before it in serial order. -/
theorem Kept.takes (h : n.Kept) {offer : ClipOffer} (hid : offer.id ≠ 0)
    (hnewer : n.machine.rx.seenOffer = true → serialNewer offer.id n.machine.rx.id = true)
    {active lazy : Bool} (hfits : active = true → n.machine.Fits offer)
    (hrx : x.rx = { Xfer.acceptIdentity offer with active := active, lazy := lazy }) :
    Kept { machine := x, offered := n.offered ++ [offer.id], taken := n.taken ++ [offer],
           delivered := n.delivered } := by
  have hlast : (n.taken ++ [offer]).getLast? = some offer := List.getLast?_concat
  refine ⟨?_, ?_, ?_, ?_, ?_, ?_, ?_, ?_, ?_, ?_⟩
  · simp only [hlast, hrx]
    rfl
  · intro last hmem
    simp only [hlast, Option.mem_def, Option.some.injEq] at hmem
    subst hmem
    simp only [hrx]
    exact ⟨rfl, rfl, rfl, rfl, rfl, fun hle ↦ if_pos hle⟩
  · intro other hother
    rcases List.mem_append.1 hother with hold | hnew
    · exact h.nonzero other hold
    · cases List.mem_singleton.1 hnew
      exact hid
  · intro other hother
    rcases List.mem_append.1 hother with hold | hnew
    · exact List.mem_append_left _ (h.offered other hold)
    · cases List.mem_singleton.1 hnew
      exact List.mem_append_right _ (List.mem_singleton_self _)
  · refine h.chain.append (List.isChain_singleton _) ?_
    intro last hmem first hfirst
    cases hfirst
    -- the offer is newer than the one known, which is the last one taken
    have hknown := h.known
    rw [Option.mem_def.1 hmem, Option.map_some, Incoming.known] at hknown
    split at hknown
    · rename_i hseen
      rw [Option.some.inj hknown]
      exact hnewer hseen
    · cases hknown
  · show n.delivered.Sublist ((n.taken ++ [offer]).map ClipOffer.id)
    rw [List.map_append]
    exact h.delivered.trans (List.sublist_append_left _ _)
  · intro _
    show n.delivered.Sublist ((n.taken ++ [offer]).dropLast.map ClipOffer.id)
    rw [List.dropLast_concat]
    exact h.delivered
  · intro _
    simp only [hrx]
    exact ⟨rfl, rfl⟩
  · intro hyes
    simp only [hrx] at hyes ⊢
    rcases hyes with hyes | hyes
    · exact (hfits hyes).metadata
    · cases hyes
  · intro hyes
    rw [hrx] at hyes
    cases hyes

/-- An offer the machine did not know is another one. -/
theorem known_ne {offer : ClipOffer}
    (hnewer : n.machine.rx.seenOffer = true → serialNewer offer.id n.machine.rx.id = true)
    {active lazy : Bool}
    (hrx : x.rx = { Xfer.acceptIdentity offer with active := active, lazy := lazy }) :
    x.rx.known ≠ n.machine.rx.known := by
  have hknown : x.rx.known = some offer.id := by
    rw [hrx]
    rfl
  rw [hknown, Incoming.known]
  split
  · rename_i hseen
    intro hsame
    have := hnewer hseen
    rw [← Option.some.inj hsame] at this
    simp [serialNewer] at this
  · nofun

/-- Every move of a turn that is no boundary keeps the record. -/
theorem Kept.moves (h : n.Kept) {rx : Incoming} {rxBuf : List UInt8}
    (hmove : RxMove n.machine turn rx rxBuf acts) (hrx : x.rx = rx)
    (hboundary : turn.boundary = false) :
    Kept
      { machine := x
        offered := n.offered ++ (turn.offer.map ClipOffer.id).toList
        taken := n.taken ++ if x.rx.known = n.machine.rx.known then [] else turn.offer.toList
        delivered := n.delivered ++ acts.filterMap Action.deliveredId } := by
  have hoffered : n.offered ⊆ n.offered ++ (turn.offer.map ClipOffer.id).toList :=
    List.subset_append_left _ _
  have hknown : x.rx.identity = n.machine.rx.identity → x.rx.known = n.machine.rx.known := by
    intro hidentity
    obtain ⟨hseen, hid, -⟩ := identity_inj hidentity
    rw [Incoming.known, hseen, hid]
    rfl
  -- the moves that neither take up an offer nor deliver
  have hstill : x.rx.identity = n.machine.rx.identity →
      x.rx.completed = n.machine.rx.completed →
      (x.rx.active = true → n.machine.rx.active = true) →
      acts.filterMap Action.deliveredId = [] →
      Kept
        { machine := x
          offered := n.offered ++ (turn.offer.map ClipOffer.id).toList
          taken := n.taken ++ if x.rx.known = n.machine.rx.known then [] else turn.offer.toList
          delivered := n.delivered ++ acts.filterMap Action.deliveredId } := by
    intro hidentity hcompleted hactive hnone
    rw [hnone, if_pos (hknown hidentity), List.append_nil, List.append_nil]
    exact h.still hoffered hidentity hcompleted hactive
  cases hmove with
  | asks hasks hquiet =>
      have hsame := hasks.same
      rw [← hrx] at hsame
      exact hstill (by rw [hsame]; rfl) (by rw [hsame]) (by rw [hsame]; exact id)
        (filterMap_quiet hquiet)
  | swaps hturn hidle => exact hstill (by rw [hrx]) (by rw [hrx]) (by rw [hrx]; exact id) rfl
  | stops hquiet =>
      exact hstill (by rw [hrx]; rfl) (by rw [hrx]) (by rw [hrx]; nofun) (filterMap_quiet hquiet)
  | forgets hyes hquiet =>
      rw [hboundary] at hyes
      cases hyes
  | takes hturn hid hnewer hfits hquiet =>
      have hne := known_ne hnewer hrx
      subst hturn
      rw [filterMap_quiet hquiet, if_neg hne, List.append_nil]
      exact h.takes hid hnewer hfits hrx
  | stores hturn hfresh hmore hquiet =>
      exact hstill (by rw [hrx]; rfl) (by rw [hrx]; rfl) (fun _ ↦ hfresh.active)
        (filterMap_quiet hquiet)
  | fills hturn hfresh hall hroom =>
      have hidentity : x.rx.identity = n.machine.rx.identity := by
        rw [hrx]
        rfl
      subst hturn
      rw [filterMap_announce, if_pos (hknown hidentity), List.append_nil]
      simp only [Turn.offer, Option.map_none, Option.toList_none, List.append_nil]
      exact h.completes hfresh.active hidentity (by rw [hrx]) (by rw [hrx])
  | finishes hturn hactive hrequested hall hroom =>
      have hidentity : x.rx.identity = n.machine.rx.identity := by
        rw [hrx]
        rfl
      subst hturn
      rw [filterMap_announce, if_pos (hknown hidentity), List.append_nil]
      simp only [Turn.offer, Option.map_none, Option.toList_none, List.append_nil]
      exact h.completes hactive hidentity (by rw [hrx]) (by rw [hrx])
  | repeats hturn hcompleted =>
      exact hstill (by rw [hrx]) (by rw [hrx]) (by rw [hrx]; exact id) (filterMap_receipt _ _)

/-- Every turn keeps the record. -/
theorem kept_step (h : n.Kept) (turn : Turn) : (n.step turn).Kept := by
  by_cases hboundary : turn.boundary = true
  · have hrx := rx_boundary n.machine hboundary
    have hstep : n.step turn =
        { machine := (n.machine.turn turn).1, offered := [], taken := [], delivered := [] } := by
      simp [step, hboundary]
    rw [hstep]
    exact (kept_init []).still (fun _ hid ↦ hid) (by rw [hrx]; rfl) (by rw [hrx]; rfl)
      (by simp [hrx, Incoming.forget])
  · have hboundary : turn.boundary = false := by simpa using hboundary
    have hmove := n.machine.turn_rx turn
    rw [step_eq (Prod.mk.eta (p := n.machine.turn turn)).symm hboundary]
    exact h.moves hmove rfl hboundary

end Step

/-! ## The order of ids -/

/-- The ids are drawn from fewer than 2 ^ 31 consecutive values. -/
def Within (base : UInt32) (ids : List UInt32) : Prop := ∀ id ∈ ids, (id - base).toNat < 2 ^ 31 - 1

/-- Among such ids serial order is the order of their distances from the first. -/
theorem serialNewer_iff {base earlier later : UInt32} (hearlier : (earlier - base).toNat < 2 ^ 31)
    (hlater : (later - base).toNat < 2 ^ 31) :
    serialNewer later earlier = true ↔ (earlier - base).toNat < (later - base).toNat := by
  have hbase := base.toNat_lt
  have hbound := earlier.toNat_lt
  have hbound' := later.toNat_lt
  have hdistance : (later - earlier).toNat = (2 ^ 32 - earlier.toNat + later.toNat) % 2 ^ 32 :=
    UInt32.toNat_sub later earlier
  rw [UInt32.toNat_sub] at hearlier hlater
  rw [UInt32.toNat_sub, UInt32.toNat_sub, serialNewer, Bool.and_eq_true, decide_eq_true_eq,
    decide_eq_true_eq, UInt32.lt_iff_toNat_lt, hdistance, ne_eq, ← UInt32.toNat_inj]
  show _ ∧ _ < 2147483648 ↔ _
  omega

section Order

variable {n : Namespace} {base : UInt32}

/-- The distances of the offers taken up rise. -/
theorem Kept.rising (h : n.Kept) (hwithin : Within base n.offered) :
    n.taken.Pairwise fun earlier later ↦ (earlier.id - base).toNat < (later.id - base).toNat := by
  have hbound : ∀ offer ∈ n.taken, (offer.id - base).toNat < 2 ^ 31 := by
    intro offer hoffer
    have := hwithin offer.id (h.offered offer hoffer)
    omega
  have hchain : n.taken.IsChain
      fun earlier later ↦ (earlier.id - base).toNat < (later.id - base).toNat := by
    refine h.chain.imp_of_mem_imp ?_
    intro earlier later hearlier hlater hnewer
    exact (serialNewer_iff (hbound earlier hearlier) (hbound later hlater)).1 hnewer
  have : Trans
      (fun earlier later : ClipOffer ↦ (earlier.id - base).toNat < (later.id - base).toNat)
      (fun earlier later : ClipOffer ↦ (earlier.id - base).toNat < (later.id - base).toNat)
      (fun earlier later : ClipOffer ↦ (earlier.id - base).toNat < (later.id - base).toNat) :=
    ⟨Nat.lt_trans⟩
  exact List.isChain_iff_pairwise.1 hchain

/-- Within a window of ids every offer taken up is newer than all before it. -/
theorem Kept.ordered (h : n.Kept) (hwithin : Within base n.offered) :
    n.taken.Pairwise fun earlier later ↦ serialNewer later.id earlier.id = true := by
  refine (h.rising hwithin).imp_of_mem ?_
  intro earlier later hearlier hlater hlt
  have hbound := hwithin earlier.id (h.offered earlier hearlier)
  have hbound' := hwithin later.id (h.offered later hlater)
  exact (serialNewer_iff (by omega) (by omega)).2 hlt

/-- Within a window of ids no two offers taken up share one. -/
theorem Kept.ids_nodup (h : n.Kept) (hwithin : Within base n.offered) :
    (n.taken.map ClipOffer.id).Nodup := by
  rw [List.Nodup, List.pairwise_map]
  refine (h.rising hwithin).imp ?_
  intro earlier later hlt hsame
  rw [hsame] at hlt
  exact Nat.lt_irrefl _ hlt

end Order

/-! ## A message of a delivered id -/

/-- The turn brings an offer, a chunk or a done of this id. -/
def Repeats (id : UInt32) : Turn → Prop
  | .message (.offer offer) _ _ => offer.id = id
  | .message (.chunk chunk) _ _ => chunk.id = id
  | .message (.done other) _ _ => other = id
  | _ => False

/-- The turn counts a repeated offer at most, and answers with a receipt at most, unless it brings
an offer that is none of those taken up. -/
structure Ignored (n : Namespace) (turn : Turn) (id : UInt32) : Prop where
  rxBuf : (n.machine.turn turn).1.rxBuf = n.machine.rxBuf
  rx : (n.machine.turn turn).1.rx =
    { n.machine.rx with duplicateOffers := (n.machine.turn turn).1.rx.duplicateOffers }
  acts : (n.machine.turn turn).2 = [] ∨ (n.machine.turn turn).2 = [.sendReceived id] ∨
    (n.machine.turn turn).2 = [.protocolError id] ∧ ∃ offer, turn.offer = some offer ∧
      offer ∉ n.taken

section Repeats

variable {n : Namespace} {base id : UInt32}

/-- A delivered id is that of the completed receive, or older than the id the machine knows. -/
theorem Kept.delivered_cases (h : n.Kept) (hwithin : Within base n.offered)
    (hid : id ∈ n.delivered) :
    id ≠ 0 ∧ n.machine.rx.seenOffer = true ∧
      (id = n.machine.rx.id ∧ n.machine.rx.completed = true ∨
        id ≠ n.machine.rx.id ∧ serialNewer id n.machine.rx.id = false) := by
  obtain ⟨offer, hoffer, rfl⟩ := List.mem_map.1 (h.delivered.subset hid)
  have hseen : n.machine.rx.seenOffer = true := by
    have hknown := h.known
    by_contra hunseen
    rw [Incoming.known, if_neg hunseen, Option.map_eq_none_iff, List.getLast?_eq_none_iff] at hknown
    rw [hknown] at hoffer
    cases hoffer
  obtain ⟨earlier, last, htaken, hlast⟩ := h.exists_last hseen
  refine ⟨h.nonzero offer hoffer, hseen, ?_⟩
  have hids := h.ids_nodup hwithin
  rw [htaken, List.map_append, List.map_singleton, List.nodup_append] at hids
  by_cases hsame : offer.id = n.machine.rx.id
  · -- were the receive not completed, the id would stand before the last one
    refine .inl ⟨hsame, ?_⟩
    by_contra hnot
    have hpending := h.pending (by simpa using hnot)
    rw [htaken, List.dropLast_concat] at hpending
    refine hids.2.2 offer.id (hpending.subset hid) last.id (List.mem_singleton_self _) ?_
    rw [hsame, hlast]
  · refine .inr ⟨hsame, ?_⟩
    have hearlier : offer ∈ earlier := by
      rw [htaken] at hoffer
      rcases List.mem_append.1 hoffer with hold | hnew
      · exact hold
      · cases List.mem_singleton.1 hnew
        exact absurd hlast hsame
    have hrising := h.rising hwithin
    rw [htaken, List.pairwise_append] at hrising
    have hlt := hrising.2.2 offer hearlier last (List.mem_singleton_self _)
    have hbound := hwithin offer.id (h.offered offer hoffer)
    have hbound' := hwithin last.id (h.offered last (by simp [htaken]))
    rw [← hlast]
    by_contra hnewer
    have hback : (last.id - base).toNat < (offer.id - base).toNat :=
      (serialNewer_iff (by omega) (by omega)).1 (by simpa using hnewer)
    omega

/-- The offer of the completed receive is the same one again. -/
theorem Kept.same_offer (h : n.Kept) (hwithin : Within base n.offered) {offer : ClipOffer}
    (hoffer : offer ∈ n.taken) (hid : offer.id = n.machine.rx.id)
    (hcompleted : n.machine.rx.completed = true) :
    offer.metadata.length ≤ identityMetaMax ∧ offer.kind = n.machine.rx.kind ∧
      offer.total = n.machine.rx.total ∧ offer.metadata.length = n.machine.rx.metaLen ∧
      offer.metadata = n.machine.rx.metadata := by
  obtain ⟨earlier, last, htaken, hlast⟩ := h.exists_last (h.completed hcompleted).1
  have hsame : offer = last :=
    List.inj_on_of_nodup_map (h.ids_nodup hwithin) hoffer (by simp [htaken]) (hid.trans hlast.symm)
  subst hsame
  have hknows := h.knows offer (by simp [htaken])
  have hfits : n.machine.rx.metaLen ≤ identityMetaMax :=
    Nat.le_trans (h.metaFits (.inr hcompleted)) (by decide)
  refine ⟨?_, hknows.kind, hknows.total, hknows.metaLen.symm, (hknows.metadata hfits).symm⟩
  rw [← hknows.metaLen]
  exact hfits

theorem emit_nil_cases (cap : Nat) (action : Action) :
    emit cap [] action = [] ∨ emit cap [] action = [action] := by
  unfold emit
  split
  · exact .inr rfl
  · exact .inl rfl

theorem ignored_offer (h : n.Kept) (hwithin : Within base n.offered) {offer : ClipOffer}
    (hid : offer.id ∈ n.delivered) (held : Bool) (cap : Nat) :
    n.Ignored (.message (.offer offer) held cap) offer.id := by
  obtain ⟨hzero, hseen, hcases⟩ := h.delivered_cases hwithin hid
  have hturn : n.machine.turn (.message (.offer offer) held cap) =
      n.machine.handleOffer cap offer held := rfl
  rcases hcases with ⟨hsame, hcompleted⟩ | ⟨hother, hstale⟩
  · have hidle : n.machine.rx.active = false := by
      by_contra hactive
      have := (h.arriving (by simpa using hactive)).2
      rw [hcompleted] at this
      cases this
    rw [Xfer.handleOffer, if_neg hzero, if_pos ⟨hseen, hsame⟩] at hturn
    split at hturn
    · rw [if_pos (.inl hidle)] at hturn
      refine ⟨by rw [hturn], by rw [hturn], .inl (by rw [hturn])⟩
    · rename_i hdiffers
      refine ⟨by rw [hturn], by rw [hturn], ?_⟩
      rw [hturn]
      rcases emit_nil_cases cap (.protocolError offer.id) with hnone | herror
      · exact .inl hnone
      · refine .inr (.inr ⟨herror, offer, rfl, ?_⟩)
        intro htaken
        exact hdiffers (h.same_offer hwithin htaken hsame hcompleted)
  · rw [Xfer.handleOffer, if_neg hzero, if_neg (fun hboth ↦ hother hboth.2),
      if_pos ⟨hseen, hstale⟩] at hturn
    refine ⟨by rw [hturn], by rw [hturn], .inl (by rw [hturn])⟩

theorem ignored_chunk (h : n.Kept) (hwithin : Within base n.offered) {chunk : ClipChunk}
    (hid : chunk.id ∈ n.delivered) (held : Bool) (cap : Nat) :
    n.Ignored (.message (.chunk chunk) held cap) chunk.id := by
  have hdropped : n.machine.rx.active = false ∨ n.machine.rx.id ≠ chunk.id := by
    rcases (h.delivered_cases hwithin hid).2.2 with ⟨-, hcompleted⟩ | ⟨hother, -⟩
    · left
      by_contra hactive
      have := (h.arriving (by simpa using hactive)).2
      rw [hcompleted] at this
      cases this
    · exact .inr (Ne.symm hother)
  have hturn : n.machine.turn (.message (.chunk chunk) held cap) = (n.machine, []) := by
    show n.machine.handleChunk cap chunk = _
    rw [Xfer.handleChunk, if_pos]
    rcases hdropped with hidle | hother
    · exact .inl hidle
    · exact .inr (.inr (.inl hother))
  exact ⟨by rw [hturn], by rw [hturn], .inl (by rw [hturn])⟩

theorem ignored_done (h : n.Kept) (hwithin : Within base n.offered) (hid : id ∈ n.delivered)
    (held : Bool) (cap : Nat) : n.Ignored (.message (.done id) held cap) id := by
  have hturn : n.machine.turn (.message (.done id) held cap) = n.machine.handleDone cap id := rfl
  rcases (h.delivered_cases hwithin hid).2.2 with ⟨hsame, hcompleted⟩ | ⟨hother, -⟩
  · rw [Xfer.handleDone, if_pos ⟨hcompleted, hsame.symm⟩] at hturn
    refine ⟨by rw [hturn], by rw [hturn], ?_⟩
    rw [hturn]
    rcases emit_nil_cases cap (.sendReceived id) with hnone | hreceipt
    · exact .inl hnone
    · exact .inr (.inl hreceipt)
  · rw [Xfer.handleDone, if_neg (fun hboth ↦ hother hboth.2.symm),
      if_pos (.inr (.inr (Ne.symm hother)))] at hturn
    exact ⟨by rw [hturn], by rw [hturn], .inl (by rw [hturn])⟩

/-- Whatever a repeated message says, the delivered payload stays as it is. -/
theorem Kept.ignores (h : n.Kept) (hwithin : Within base n.offered) (hid : id ∈ n.delivered)
    {turn : Turn} (hrepeats : Repeats id turn) : n.Ignored turn id := by
  cases turn with
  | call => cases hrepeats
  | message message held cap =>
      cases message with
      | offer offer =>
          cases hrepeats
          exact ignored_offer h hwithin hid held cap
      | chunk chunk =>
          cases hrepeats
          exact ignored_chunk h hwithin hid held cap
      | done other =>
          cases hrepeats
          exact ignored_done h hwithin hid held cap
      | _ => cases hrepeats

end Repeats

/-- A receipt comes with the delivery, or after it. -/
theorem receipt_cases {x : Xfer} {turn : Turn} {rx : Incoming} {rxBuf : List UInt8}
    {acts : List Action} (hmove : RxMove x turn rx rxBuf acts) {id : UInt32}
    (hreceipt : .sendReceived id ∈ acts) :
    turn.boundary = false ∧ id = x.rx.id ∧
      (acts.filterMap Action.deliveredId = [id] ∨ x.rx.completed = true) := by
  have hannounced : ∀ cap, .sendReceived id ∈ Xfer.announce cap x.rx.id → id = x.rx.id := by
    intro cap hmem
    unfold Xfer.announce emit at hmem
    split at hmem
    · simpa using hmem
    · simp at hmem
  cases hmove with
  | asks hasks hquiet => exact absurd hreceipt (hquiet id).2
  | swaps hturn hidle => cases hreceipt
  | stops hquiet => exact absurd hreceipt (hquiet id).2
  | forgets hboundary hquiet => exact absurd hreceipt (hquiet id).2
  | takes hturn hid hnewer hfits hquiet => exact absurd hreceipt (hquiet id).2
  | stores hturn hfresh hmore hquiet => exact absurd hreceipt (hquiet id).2
  | fills hturn hfresh hall hroom =>
      have hid := hannounced _ hreceipt
      rw [hturn, hid]
      exact ⟨rfl, rfl, .inl (filterMap_announce _ _)⟩
  | finishes hturn hactive hrequested hall hroom =>
      have hid := hannounced _ hreceipt
      rw [hturn, hid]
      exact ⟨rfl, rfl, .inl (filterMap_announce _ _)⟩
  | repeats hturn hcompleted =>
      rw [hturn]
      refine ⟨rfl, ?_, .inr hcompleted⟩
      unfold emit at hreceipt
      split at hreceipt
      · simpa using hreceipt
      · cases hreceipt

/-- A receipt is for an id that was delivered. -/
theorem Kept.receipt_delivered {n : Namespace} (h : n.Kept) (turn : Turn) {id : UInt32}
    (hreceipt : .sendReceived id ∈ (n.machine.turn turn).2) : id ∈ (n.step turn).delivered := by
  obtain ⟨hboundary, hid, hdelivered⟩ := receipt_cases (n.machine.turn_rx turn) hreceipt
  rw [step_eq (Prod.mk.eta (p := n.machine.turn turn)).symm hboundary]
  apply List.mem_append.2
  rcases hdelivered with hnow | hcompleted
  · rw [hnow]
    exact .inr (List.mem_singleton_self _)
  · rw [hid]
    exact .inl (h.completed hcompleted).2

end Namespace

/-- At most one delivery. Over every sequence of calls and messages, within one namespace of offers:
each offer taken up is newer in serial order than the one taken up before it, and a receipt is sent
only for an id that was delivered. Where the ids offered are drawn from fewer than 2 ^ 31
consecutive values, each offer taken up is newer than all before it, no id is delivered twice, and
an offer, a chunk or a done of a delivered id leaves the receive as it is but for the count of
repeated offers and is answered with a receipt at most, unless it is an offer that was never taken
up, which is reported as a protocol error. -/
theorem delivers_once (rxBuf : List UInt8) (turns : List Turn) :
    let n := run Namespace.step (Namespace.init rxBuf) turns
    (n.taken.IsChain fun earlier later ↦ serialNewer later.id earlier.id = true) ∧
    (∀ turn id, .sendReceived id ∈ (n.machine.turn turn).2 → id ∈ (n.step turn).delivered) ∧
    ∀ base, Namespace.Within base n.offered →
      (n.taken.Pairwise fun earlier later ↦ serialNewer later.id earlier.id = true) ∧
      n.delivered.Nodup ∧
      ∀ id ∈ n.delivered, ∀ turn, Namespace.Repeats id turn → n.Ignored turn id := by
  intro n
  have hkept : n.Kept :=
    run_invariant Namespace.Kept (Namespace.kept_init rxBuf)
      (fun _ turn h ↦ Namespace.kept_step h turn) turns
  refine ⟨hkept.chain, fun turn id hreceipt ↦ hkept.receipt_delivered turn hreceipt, ?_⟩
  intro base hwithin
  refine ⟨hkept.ordered hwithin, (hkept.ids_nodup hwithin).sublist hkept.delivered, ?_⟩
  intro id hid turn hrepeats
  exact hkept.ignores hwithin hid hrepeats

/-- An empty payload is offered, taken and finished. -/
def emptyOffer (kind : UInt8) : ClipOffer where
  id := 1
  kind := kind
  total := 0
  metadata := []
  metadata_length := noMetadata_fits

/-- After an empty payload was delivered, an offer of its id with another kind is answered with a
protocol error, not with a receipt. -/
theorem delivered_id_reoffered :
    let n := run Namespace.step (Namespace.init [])
      [.message (.offer (emptyOffer 0)) false 4, .message (.done 1) false 4]
    n.delivered = [1] ∧ n.offered = [1] ∧
      (n.machine.turn (.message (.offer (emptyOffer 1)) false 4)).2 = [.protocolError 1] := by
  decide

end DeskhopPlus.Transfer
