import DeskhopPlus.Board.Debts
import DeskhopPlus.Library.Sealing

/-!
# The counters of a board

Several encoders of the board tag frames for the helper with one key and one counter. The log beside
the board lists every frame it built, queued or not, with the nonces it staged and the sessions it
started. `accounted_run` says that, with nonces that are fresh and keys that differ where the nonces
do, the counters under every key are the first ones in order.
-/

namespace DeskhopPlus.Board

open Wire Outq Auth Crypto Runs Sealing Session

/-- The pairs of a key and a counter that some frames were tagged with. -/
def pairsOf (posts : List Posting) : List (List UInt8 × UInt64) := posts.filterMap (·.tagged)

/-- The frame carries the tag it is said to carry, or is of a type that carries none. -/
def Posting.Honest (post : Posting) : Prop :=
  match post.tagged with
  | none => untagged (post.frame.headD 0) = true
  | some (key, counter) =>
      ∃ type flags body, post.frame = (builtView type flags key counter.toNat body).bytes

/-- A board with every frame it built for its helper, the nonces it staged, and the key and the
nonce of each session it started. `ack` is the ack the first channel was emptied for, unless the
link was lost since, and `drained` what the host took of that channel since it was last emptied. -/
structure Builder where
  board : Lifecycle
  built : List Posting
  nonces : List (List UInt8)
  started : List (List UInt8 × List UInt8)
  ack : Option (List UInt8)
  drained : List UInt8

namespace Lifecycle

/-- Whether an event empties the queues: a session starts, or the link is lost. -/
def restarts (curve : P256) (c : Lifecycle) (event : Event) : Bool :=
  c.renews curve event || event = .linkLost

/-- The bytes of frames that the host takes of the first channel. -/
def drains (c : Lifecycle) : Event → List UInt8
  | .pumpOut index taken =>
      if index = 0 ∧ taken then
        (c.out.peek.map fun owed ↦ owed.atBytes.take (pumpTake owed)).getD []
      else []
  | _ => []

end Lifecycle

namespace Builder

/-- One event. -/
def step (curve : P256) (b : Builder) (event : Event) : Builder where
  board := b.board.step curve event
  built := b.built ++ b.board.postings curve event
  nonces := b.nonces ++ (b.board.staging event).toList
  started := b.started ++
    if b.board.renews curve event then
      [((b.board.step curve event).session.kB2h, b.board.session.stagedNonce)]
    else []
  ack :=
    if b.board.restarts curve event then ((b.board.postings curve event).map (·.frame)).head?
    else b.ack
  drained := if b.board.restarts curve event then [] else b.drained ++ b.board.drains event

/-- A board that has just started. -/
def boot (curve : P256) (buildType : BuildType) (identity : Option (List UInt8))
    (registration : Option (List UInt8 × List UInt8)) : Builder where
  board := Lifecycle.boot curve buildType identity registration
  built := []
  nonces := []
  started := []
  ack := none
  drained := []

/-- Sessions with one key have one nonce. -/
def KeysApart (b : Builder) : Prop :=
  ∀ first ∈ b.started, ∀ second ∈ b.started, first.1 = second.1 → first.2 = second.2

/-- The nonces are fresh, and the keys with them. -/
structure Fresh (b : Builder) : Prop where
  nonces : b.nonces.Nodup
  keys : b.KeysApart

end Builder

/-- What a session seals with, beside the pairs used so far. -/
def Sending.sealer (x : Sending) (log : List (List UInt8 × UInt64)) : Sealer (List UInt8) where
  key := if x.present then some x.kB2h else none
  next := x.txCounter
  log := log

/-! ## What a deed seals -/

section Deeds

variable {x y : Sending} {log : List (List UInt8 × UInt64)}

theorem sealer_seal (h : (x.sealer log).Counted) (hpresent : x.present = true)
    (hsame : y.present = x.present) (hkey : y.kB2h = x.kB2h)
    (hnext : y.txCounter = x.txCounter + 1) :
    (y.sealer (log ++ [(x.kB2h, x.txCounter)])).Counted := by
  have hkeyed : (x.sealer log).key = some x.kB2h := if_pos hpresent
  have hsealed := h.seal hkeyed
  have heq : y.sealer (log ++ [(x.kB2h, x.txCounter)]) =
      { x.sealer log with next := x.txCounter + 1, log := log ++ [(x.kB2h, x.txCounter)] } := by
    simp [Sending.sealer, hsame, hkey, hnext]
  rw [heq]
  exact hsealed

theorem sealer_forget (h : (x.sealer log).Counted) (hgone : y.present = false) :
    (y.sealer log).Counted := by
  have heq : y.sealer log = { x.sealer log with key := none, next := y.txCounter } := by
    simp [Sending.sealer, hgone]
  rw [heq]
  exact h.forget y.txCounter

theorem sealer_same (h : (x.sealer log).Counted) (hpresent : y.present = x.present)
    (hkey : y.kB2h = x.kB2h) (hnext : y.txCounter = x.txCounter) : (y.sealer log).Counted := by
  have heq : y.sealer log = x.sealer log := by
    simp [Sending.sealer, hpresent, hkey, hnext]
  rwa [heq]

theorem pairsOf_append (posts more : List Posting) :
    pairsOf (posts ++ more) = pairsOf posts ++ pairsOf more :=
  List.filterMap_append

@[simp] theorem pairsOf_nil : pairsOf [] = [] := rfl

theorem pairsOf_post (type flags : UInt8) (body : List UInt8) (queued : Bool)
    (rest : List Posting) :
    pairsOf (x.post type flags body queued :: rest) = (x.kB2h, x.txCounter) :: pairsOf rest := rfl

theorem told_present (x : Sending) (now : UInt32) (type : UInt8) (queued : Bool) :
    (x.told now type queued).present = x.present ∧ (x.told now type queued).kB2h = x.kB2h ∧
      (x.told now type queued).txCounter = x.txCounter + 1 := by
  cases queued <;> exact ⟨rfl, rfl, rfl⟩

/-- Every deed goes on counting, as long as a session starts with a key not used before. -/
theorem counted_deed {c : Lifecycle} {kind : EventKind} {now : UInt32} {s' : Session}
    {posts : List Posting} (hdeed : Deed c kind now s' posts)
    (h : (c.session.sending.sealer log).Counted)
    (hnew : kind = .report → (∃ post ∈ posts, typed Msg.helloAck post.frame = true) →
      s'.kB2h ∉ log.map Prod.fst) :
    (s'.sending.sealer (log ++ pairsOf posts)).Counted := by
  cases hdeed with
  | rests alert halert hidle hsending =>
      rw [hsending, pairsOf_nil, List.append_nil]
      exact sealer_same h rfl rfl rfl
  | drops alert halert hsending =>
      rw [hsending, pairsOf_nil, List.append_nil]
      exact sealer_forget h rfl
  | configures totals clipFlags capMb hkind hsending =>
      have hfields : ((c.session.setDrops totals).setClipPolicy clipFlags capMb).sending.present =
          c.session.sending.present ∧
          ((c.session.setDrops totals).setClipPolicy clipFlags capMb).sending.kB2h =
            c.session.sending.kB2h ∧
          ((c.session.setDrops totals).setClipPolicy clipFlags capMb).sending.txCounter =
            c.session.sending.txCounter := by
        unfold setClipPolicy setDrops
        split <;> split <;> exact ⟨rfl, rfl, rfl⟩
      rw [hsending, pairsOf_nil, List.append_nil]
      exact sealer_same h hfields.1 hfields.2.1 hfields.2.2
  | tags hkind hrelays hpresent hsending =>
      rw [hsending, pairsOf_post]
      exact sealer_seal h hpresent rfl rfl rfl
  | places hkind hpresent hsending =>
      rename_i queued
      rw [hsending, pairsOf_post, pairsOf_post, ← List.singleton_append, ← List.append_assoc]
      -- two frames, so two counters, the second one behind the first
      have hfirst : (c.session.sending.spent.sealer _).Counted := sealer_seal h hpresent rfl rfl rfl
      exact sealer_seal hfirst hpresent rfl rfl rfl
  | ends halert hpresent hsending =>
      rw [hsending, pairsOf_post]
      -- the last frame is sealed before the key is forgotten
      have hsealed : (c.session.sending.spent.sealer _).Counted :=
        sealer_seal h hpresent rfl rfl rfl
      exact sealer_forget hsealed rfl
  | answers hkind htype hsending =>
      have hnone : ∀ (frame : List UInt8) (queued : Bool),
          pairsOf [{ tagged := none, frame := frame, queued := queued }] = [] := fun _ _ ↦ rfl
      rw [hsending, hnone, List.append_nil]
      exact sealer_same h rfl rfl rfl
  | starts hkind hstaged hspent hsending =>
      -- the only deed that counts from zero again, and it does so under a new key
      have hkey := congrArg Sending.kB2h hsending
      have hfresh := hnew hkind ⟨_, List.mem_singleton_self _, typed_post ..⟩
      rw [show s'.kB2h = _ from hkey] at hfresh
      rw [hsending, pairsOf_post]
      exact sealer_seal (h.rekey hfresh) rfl rfl rfl rfl
  | ticks hkind halert hpresent howes hsending =>
      rename_i alert type body
      rw [hsending, pairsOf_post]
      obtain ⟨hsame, hkey, hnext⟩ :=
        told_present { c.session.sending with alertPending := alert } now type (!c.out.priorityFull)
      exact sealer_seal h hpresent hsame hkey hnext

theorem honest_post (type flags : UInt8) (body : List UInt8) (queued : Bool) :
    (x.post type flags body queued).Honest :=
  ⟨type, flags, body, rfl⟩

theorem honest_deed {c : Lifecycle} {kind : EventKind} {now : UInt32} {s' : Session}
    {posts : List Posting} (hdeed : Deed c kind now s' posts) : ∀ post ∈ posts, post.Honest := by
  cases hdeed with
  | rests | drops | configures => nofun
  | tags | ends | starts | ticks =>
      intro post hpost
      rw [List.mem_singleton.1 hpost]
      exact honest_post ..
  | places =>
      intro post hpost
      simp only [List.mem_cons, List.not_mem_nil, or_false] at hpost
      rcases hpost with rfl | rfl <;> exact honest_post ..
  | answers hkind htype =>
      intro post hpost
      rw [List.mem_singleton.1 hpost]
      exact htype

end Deeds

namespace Builder

variable {curve : P256} {b : Builder} {event : Event}

/-! ## Which events start a session -/

/-- A report that is answered with an ack spends the staged nonce. -/
theorem spends_of_ack {c : Lifecycle} {now : UInt32} {s' : Session} {posts : List Posting}
    (hdeed : Deed c .report now s' posts)
    (hack : ∃ post ∈ posts, typed Msg.helloAck post.frame = true) :
    c.session.nonceStaged = true ∧ s'.nonceStaged = false := by
  obtain ⟨post, hpost, htyped⟩ := hack
  cases hdeed with
  | rests | drops => cases hpost
  | ends =>
      rw [List.mem_singleton.1 hpost, typed_post] at htyped
      cases htyped
  | answers hkind htype =>
      rw [List.mem_singleton.1 hpost] at htyped
      have hhead := Option.some.inj (of_decide_eq_true htyped)
      rw [hhead] at htype
      cases htype
  | starts hkind hstaged hspent => exact ⟨hstaged, hspent⟩
  | configures _ _ _ hno | tags hno | places hno | ticks hno => cases hno

theorem kind_of_renews {c : Lifecycle} (h : c.renews curve event = true) :
    event.kind = .report ∧
      ∃ post ∈ c.postings curve event, typed Msg.helloAck post.frame = true := by
  cases event with
  | drainReport now => exact ⟨rfl, List.any_eq_true.1 h⟩
  | _ => cases h

theorem renews_of_ack {c : Lifecycle} (hkind : event.kind = .report)
    (hack : ∃ post ∈ c.postings curve event, typed Msg.helloAck post.frame = true) :
    c.renews curve event = true := by
  cases event with
  | drainReport now => exact List.any_eq_true.2 hack
  | _ => cases hkind

/-! ## The run -/

/-- The log accounts for every key, and the nonces of the sessions are staged ones. -/
structure Accounted (b : Builder) : Prop where
  nonce : b.board.NonceFits
  keys : ∀ pair ∈ pairsOf b.built, pair.1 ∈ b.started.map Prod.fst
  nonces : (b.started.map Prod.snd ++
    if b.board.session.nonceStaged then [b.board.session.stagedNonce] else []).Sublist b.nonces
  live : b.board.session.present = true → b.board.session.kB2h ∈ b.started.map Prod.fst
  honest : ∀ post ∈ b.built, post.Honest
  counted : b.Fresh → (b.board.session.sending.sealer (pairsOf b.built)).Counted

/-- What an event does to a board whose log accounts for it. -/
theorem Accounted.deed (h : Accounted b) (curve : P256) (event : Event) :
    Deed b.board event.kind (event.now.getD 0) (b.board.step curve event).session
      (b.board.postings curve event) :=
  Lifecycle.deed_step h.nonce event event.now_getD

theorem accounted_boot (curve : P256) (buildType : BuildType) (identity : Option (List UInt8))
    (registration : Option (List UInt8 × List UInt8)) :
    Accounted (boot curve buildType identity registration) where
  nonce := Lifecycle.nonceFits_boot curve buildType identity registration
  keys := nofun
  nonces := List.Sublist.refl _
  live := nofun
  honest := nofun
  counted _ := Sealer.counted_empty _

theorem Fresh.before (h : Fresh (b.step curve event)) : Fresh b where
  nonces := h.nonces.sublist (List.sublist_append_left ..)
  keys first hfirst second hsecond :=
    h.keys first (List.mem_append_left _ hfirst) second (List.mem_append_left _ hsecond)

/-- The nonces of the sessions started stay among those staged. -/
theorem Accounted.nonces_step (h : Accounted b) :
    (((b.step curve event).started.map Prod.snd) ++
      if (b.step curve event).board.session.nonceStaged then
        [(b.step curve event).board.session.stagedNonce] else []).Sublist
      (b.step curve event).nonces := by
  show (((b.started ++ if b.board.renews curve event then
      [((b.board.step curve event).session.kB2h, b.board.session.stagedNonce)] else []).map
        Prod.snd) ++
    if (b.board.step curve event).session.nonceStaged then
      [(b.board.step curve event).session.stagedNonce] else []).Sublist
    (b.nonces ++ (b.board.staging event).toList)
  by_cases hstage : ∃ nonce, event = .stageNonce nonce
  · -- a nonce is staged, or one already is
    obtain ⟨nonce, rfl⟩ := hstage
    have hnone : b.board.renews curve (.stageNonce nonce) = false := rfl
    rw [hnone, if_neg Bool.false_ne_true, List.append_nil]
    show (b.started.map Prod.snd ++
      if (b.board.stageNonce nonce).session.nonceStaged then
        [(b.board.stageNonce nonce).session.stagedNonce] else []).Sublist
      (b.nonces ++ (b.board.staging (.stageNonce nonce)).toList)
    have hbefore := h.nonces
    cases hstaged : b.board.session.nonceStaged with
    | true =>
        simpa [Lifecycle.stageNonce, Lifecycle.staging, hstaged] using hbefore
    | false =>
        rw [hstaged, if_neg Bool.false_ne_true, List.append_nil] at hbefore
        simp only [Lifecycle.stageNonce, Lifecycle.staging, hstaged, Session.stageNonce]
        exact hbefore.append (List.Sublist.refl _)
  · have hkept := Lifecycle.nonceKept_step curve b.board event fun nonce heq ↦ hstage ⟨nonce, heq⟩
    have hnone : b.board.staging event = none := by
      cases event with
      | stageNonce nonce => exact absurd ⟨nonce, rfl⟩ hstage
      | _ => rfl
    rw [hnone, Option.toList_none, List.append_nil, hkept.same]
    cases hrenews : b.board.renews curve event with
    | true =>
        -- the staged nonce is spent on the session that starts
        obtain ⟨hkind, hack⟩ := kind_of_renews hrenews
        have hdeed := h.deed curve event
        rw [hkind] at hdeed
        obtain ⟨hstaged, hspent⟩ := spends_of_ack hdeed hack
        rw [hspent]
        simpa [hstaged] using h.nonces
    | false =>
        rw [if_neg Bool.false_ne_true, List.append_nil]
        refine List.Sublist.trans ?_ h.nonces
        refine List.Sublist.append (List.Sublist.refl _) ?_
        split
        · rename_i hstays
          rw [if_pos (hkept.staged hstays)]
        · exact List.nil_sublist _

/-- The key of a session that starts is new. -/
theorem Accounted.key_new (h : Accounted b) (hfresh : Fresh (b.step curve event))
    (hrenews : b.board.renews curve event = true) :
    (b.step curve event).board.session.kB2h ∉ (pairsOf b.built).map Prod.fst := by
  have hstarted : (b.step curve event).started = b.started ++
      [((b.step curve event).board.session.kB2h, b.board.session.stagedNonce)] := by
    show b.started ++ (if b.board.renews curve event then _ else _) = _
    rw [if_pos hrenews]
    rfl
  intro hused
  obtain ⟨pair, hpair, hkey⟩ := List.mem_map.1 hused
  obtain ⟨earlier, hearlier, hsame⟩ := List.mem_map.1 (h.keys pair hpair)
  -- one key means one nonce, but the nonce was staged after the earlier one
  have hnonce : earlier.2 = b.board.session.stagedNonce := by
    refine hfresh.keys earlier ?_ ((b.step curve event).board.session.kB2h,
      b.board.session.stagedNonce) ?_ (hsame.trans hkey)
    · rw [hstarted]
      exact List.mem_append_left _ hearlier
    · rw [hstarted]
      exact List.mem_append_right _ (List.mem_singleton_self _)
  have hnodup : ((b.step curve event).started.map Prod.snd).Nodup :=
    hfresh.nonces.sublist ((List.sublist_append_left ..).trans h.nonces_step)
  rw [hstarted, List.map_append, List.map_singleton, List.nodup_append] at hnodup
  exact hnodup.2.2 earlier.2 (List.mem_map_of_mem hearlier) _ (List.mem_singleton_self _) hnonce

/-- A deed tags with the key in use, or starts a session with the key it tags with. -/
theorem key_of_deed {c : Lifecycle} {kind : EventKind} {now : UInt32} {s' : Session}
    {posts : List Posting} (hdeed : Deed c kind now s' posts) {pair : List UInt8 × UInt64}
    (hpair : pair ∈ pairsOf posts) :
    (c.session.present = true ∧ pair.1 = c.session.kB2h) ∨
      (kind = .report ∧ (∃ post ∈ posts, typed Msg.helloAck post.frame = true) ∧
        pair.1 = s'.kB2h) := by
  cases hdeed with
  | rests | drops | configures | answers => cases hpair
  | tags hkind hrelays hpresent | ends halert hpresent | ticks hkind halert hpresent =>
      rw [List.mem_singleton.1 hpair]
      exact .inl ⟨hpresent, rfl⟩
  | places hkind hpresent =>
      rw [pairsOf_post, pairsOf_post, pairsOf_nil] at hpair
      simp only [List.mem_cons, List.not_mem_nil, or_false] at hpair
      rcases hpair with rfl | rfl <;> exact .inl ⟨hpresent, rfl⟩
  | starts hkind hstaged hspent hsending =>
      rw [List.mem_singleton.1 hpair]
      refine .inr ⟨hkind, ⟨_, List.mem_singleton_self _, typed_post ..⟩, ?_⟩
      exact (congrArg Sending.kB2h hsending).symm

/-- A session that is there after a deed was there with its key, or starts with it. -/
theorem live_of_deed {c : Lifecycle} {kind : EventKind} {now : UInt32} {s' : Session}
    {posts : List Posting} (hdeed : Deed c kind now s' posts) (hpresent : s'.present = true) :
    (c.session.present = true ∧ s'.kB2h = c.session.kB2h) ∨
      (kind = .report ∧ ∃ post ∈ posts, typed Msg.helloAck post.frame = true) := by
  have hsame : ∀ {x : Sending}, s'.sending = x → x.present = c.session.present →
      x.kB2h = c.session.kB2h → c.session.present = true ∧ s'.kB2h = c.session.kB2h := by
    intro x hsending hpresent' hkey
    have hthere : s'.present = x.present := congrArg Sending.present hsending
    have hkept : s'.kB2h = x.kB2h := congrArg Sending.kB2h hsending
    exact ⟨hpresent'.symm.trans (hthere.symm.trans hpresent), hkept.trans hkey⟩
  have hgone : ∀ {x : Sending}, s'.sending = x → x.present ≠ false := by
    intro x hsending hno
    have hthere : s'.present = x.present := congrArg Sending.present hsending
    exact absurd (hpresent.symm.trans (hthere.trans hno)) (by decide)
  cases hdeed with
  | rests alert halert hidle hsending => exact .inl (hsame hsending rfl rfl)
  | drops alert halert hsending => exact absurd rfl (hgone hsending)
  | configures totals clipFlags capMb hkind hsending =>
      refine .inl (hsame hsending ?_ ?_)
      · unfold setClipPolicy setDrops
        split <;> split <;> rfl
      · unfold setClipPolicy setDrops
        split <;> split <;> rfl
  | tags hkind hrelays hbefore hsending => exact .inl (hsame hsending rfl rfl)
  | places hkind hbefore hsending => exact .inl (hsame hsending rfl rfl)
  | ends halert hbefore hsending => exact absurd rfl (hgone hsending)
  | answers hkind htype hsending => exact .inl (hsame hsending rfl rfl)
  | starts hkind => exact .inr ⟨hkind, ⟨_, List.mem_singleton_self _, typed_post ..⟩⟩
  | ticks hkind halert hbefore howes hsending =>
      obtain ⟨hpresent', hkey, -⟩ :=
        told_present { c.session.sending with alertPending := _ } now _ (!c.out.priorityFull)
      exact .inl (hsame hsending hpresent' hkey)

theorem Accounted.step (h : Accounted b) : Accounted (b.step curve event) := by
  have hdeed := h.deed curve event
  -- a session that starts is on record with its key
  have hrecord : event.kind = .report →
      (∃ post ∈ b.board.postings curve event, typed Msg.helloAck post.frame = true) →
      (b.step curve event).board.session.kB2h ∈ (b.step curve event).started.map Prod.fst := by
    intro hkind hack
    refine List.mem_map_of_mem (f := Prod.fst) (a := (_, b.board.session.stagedNonce)) ?_
    refine List.mem_append_right _ ?_
    rw [if_pos (renews_of_ack hkind hack)]
    exact List.mem_singleton_self _
  have hgrows : ∀ key ∈ b.started.map Prod.fst,
      key ∈ (b.step curve event).started.map Prod.fst := by
    intro key hkey
    show key ∈ (b.started ++ _).map Prod.fst
    rw [List.map_append]
    exact List.mem_append_left _ hkey
  constructor
  · exact Lifecycle.nonceFits_step curve h.nonce event
  · intro pair hpair
    have hpair : pair ∈ pairsOf (b.built ++ b.board.postings curve event) := hpair
    rw [pairsOf_append] at hpair
    rcases List.mem_append.1 hpair with hbefore | hnow
    · exact hgrows _ (h.keys pair hbefore)
    · rcases key_of_deed hdeed hnow with ⟨hpresent, hkey⟩ | ⟨hkind, hack, hkey⟩
      · rw [hkey]
        exact hgrows _ (h.live hpresent)
      · rw [hkey]
        exact hrecord hkind hack
  · exact h.nonces_step
  · intro hpresent
    rcases live_of_deed hdeed hpresent with ⟨hbefore, hkey⟩ | ⟨hkind, hack⟩
    · show (b.board.step curve event).session.kB2h ∈ _
      rw [hkey]
      exact hgrows _ (h.live hbefore)
    · exact hrecord hkind hack
  · intro post hpost
    rcases List.mem_append.1 hpost with hbefore | hnow
    · exact h.honest post hbefore
    · exact honest_deed hdeed post hnow
  · intro hfresh
    show ((b.board.step curve event).session.sending.sealer
      (pairsOf (b.built ++ b.board.postings curve event))).Counted
    rw [pairsOf_append]
    refine counted_deed hdeed (h.counted hfresh.before) fun hkind hack ↦ ?_
    exact h.key_new hfresh (renews_of_ack hkind hack)

theorem accounted_run (curve : P256) (buildType : BuildType) (identity : Option (List UInt8))
    (registration : Option (List UInt8 × List UInt8)) (events : List Event) :
    Accounted (run (step curve) (boot curve buildType identity registration) events) :=
  run_invariant Accounted (accounted_boot curve buildType identity registration)
    (fun _ _ h ↦ h.step) events

end Builder

end DeskhopPlus.Board
