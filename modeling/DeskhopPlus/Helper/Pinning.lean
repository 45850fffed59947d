import DeskhopPlus.Helper.Standing

/-!
# The key a helper pins

A helper beside what it said about its pairing, over any calls and any frames. `Guarded` is what one
call may do to the board's key: a key that is pinned stays, a key is stored only for a grant that
answers the request last made, and the prompt for the pairing chord has one of two causes.
`board_key_pinned` says that of every call of every run.
-/

namespace DeskhopPlus.Helper

open Bytes Wire Auth Crypto Board Runs

/-- A helper, and what it said about its pairing so far. -/
structure Asker where
  helper : Helper
  log : List Said

namespace Asker

/-- A helper that has just started. -/
def start (boardPublicKey : Option (List UInt8)) : Asker where
  helper := init boardPublicKey
  log := []

/-- What a call puts out. -/
def outputs (identity : Identity) (s : Asker) : Call → List Output
  | .input now event => (s.helper.handle identity now event).o.items
  | .emit .. => []

/-- The frame a call completes. -/
def handed (s : Asker) : Call → Option FrameView
  | .input _ event => s.helper.handing event
  | .emit .. => none

/-- The helper and its log after a call. -/
def step (identity : Identity) (s : Asker) (call : Call) : Asker where
  helper := s.helper.call identity call
  log := s.log ++ (s.outputs identity call).filterMap saidOf

/-- A grant that may not move the key: no request is outstanding, or it answers another than the
outstanding one or than the one said last, or it names another key than the one pinned, or a key
that no hello can be built on. -/
def Fruitless (identity : Identity) (s : Asker) (view : FrameView) : Prop :=
  ∀ correlation boardPublic, pairGrantDecode view.payload = some (correlation, boardPublic) →
    s.helper.pairingRequested = false ∨ correlation ≠ s.helper.pairCorrelation ∨
      s.log.getLast? ≠ some (.request correlation) ∨
      (s.helper.haveBoardKey = true ∧ s.helper.boardPublicKey ≠ boardPublic) ∨
      identity.ecdh boardPublic = none

/-- What a call may do to the key and to the prompt for the pairing chord. -/
structure Guarded (identity : Identity) (s : Asker) (call : Call) : Prop where
  pinned : s.helper.haveBoardKey = true →
    (s.step identity call).helper.haveBoardKey = true ∧
      (s.step identity call).helper.boardPublicKey = s.helper.boardPublicKey
  stores : ∀ boardPublic, .storeBoardKey boardPublic ∈ s.outputs identity call →
    (∃ view correlation, s.handed call = some view ∧ view.type = Msg.pairGrant ∧
        pairGrantDecode view.payload = some (correlation, boardPublic) ∧
        s.helper.pairingRequested = true ∧ correlation = s.helper.pairCorrelation ∧
        s.log.getLast? = some (.request correlation)) ∧
      (s.step identity call).helper.haveBoardKey = true ∧
      (s.step identity call).helper.boardPublicKey = boardPublic
  kept : ∀ view, s.handed call = some view → view.type = Msg.pairGrant → Fruitless identity s view →
    (∀ boardPublic, .storeBoardKey boardPublic ∉ s.outputs identity call) ∧
      (s.step identity call).helper.haveBoardKey = s.helper.haveBoardKey ∧
      (s.step identity call).helper.boardPublicKey = s.helper.boardPublicKey
  prompts : s.helper.state ≠ .notPaired → (s.step identity call).helper.state = .notPaired →
    (∃ now count draw, call = .input now (.channelsAcquired count draw) ∧
        s.helper.haveBoardKey = false) ∨
      (s.helper.phase = .awaitingAck ∧ ∃ view refused, s.handed call = some view ∧
        view.type = Msg.helloRefused ∧ helloRefusedDecode view.payload = some refused ∧
        refused.status = RefusedStatus.unpaired.byte ∧
        refused.correlation = s.helper.helloCorrelation)

/-- Every key stored was asked for just before, and by a request of its own. -/
def OncePerRequest (log : List Said) : Prop :=
  EachAfter (fun before said ↦ ∀ boardPublic, said = .store boardPublic →
    ∃ correlation, before.getLast? = some (.request correlation)) log

end Asker

/-! ## What a chain of changes keeps -/

section Chain

variable {identity : Identity} {event : Event} {handed : Option FrameView} {start k k' : Standing}
  {said log : List Said}

theorem Tells.pinned (h : Tells identity event handed start k said k')
    (hkey : k.haveBoardKey = true) :
    k'.haveBoardKey = true ∧ k'.boardPublicKey = k.boardPublicKey := by
  cases h with
  | grants _ _ _ hpinned => exact ⟨rfl, (hpinned hkey).symm⟩
  | _ => exact ⟨hkey, rfl⟩

theorem Tale.pinned (h : Tale identity event handed start k said k')
    (hkey : k.haveBoardKey = true) :
    k'.haveBoardKey = true ∧ k'.boardPublicKey = k.boardPublicKey := by
  induction h with
  | nil => exact ⟨hkey, rfl⟩
  | cons first _ ih =>
      obtain ⟨hhave, hsame⟩ := first.pinned hkey
      obtain ⟨hhave', hsame'⟩ := ih hhave
      exact ⟨hhave', hsame'.trans hsame⟩

/-- A key that is stored answers a request, can be said hello with, and is the one that is held. -/
theorem Tale.stores (h : Tale identity event handed start k said k') {boardPublic : List UInt8}
    (hstored : .store boardPublic ∈ said) :
    Answers start handed boardPublic ∧ identity.ecdh boardPublic ≠ none ∧
      (start.haveBoardKey = true → start.boardPublicKey = boardPublic) ∧
      k'.haveBoardKey = true ∧ k'.boardPublicKey = boardPublic := by
  induction h with
  | nil => cases hstored
  | cons first rest ih =>
      rcases List.mem_append.1 hstored with hfirst | hrest
      · cases first with
        | grants _ hanswers _ hpinned hshared =>
            cases List.mem_singleton.1 hfirst
            obtain ⟨hhave, hsame⟩ := rest.pinned rfl
            exact ⟨hanswers, hshared, hpinned, hhave, hsame⟩
        | asks => cases List.mem_singleton.1 hfirst
        | _ => cases hfirst
      · exact ih hrest

/-- Without a key stored, the key held is the same. -/
theorem Tale.same_key (h : Tale identity event handed start k said k')
    (hnone : ∀ boardPublic, .store boardPublic ∉ said) :
    k'.haveBoardKey = k.haveBoardKey ∧ k'.boardPublicKey = k.boardPublicKey := by
  induction h with
  | nil => exact ⟨rfl, rfl⟩
  | cons first _ ih =>
      obtain ⟨hhave, hsame⟩ := ih fun boardPublic hmem ↦
        hnone boardPublic (List.mem_append_right _ hmem)
      cases first with
      | @grants boardPublic => exact absurd (List.mem_singleton_self _) (hnone boardPublic ∘
          List.mem_append_left _)
      | _ => exact ⟨hhave, hsame⟩

/-- What a helper and its log keep: a request that is outstanding is the last thing said, and the
state put off is not the prompt for the chord. -/
structure Asking (k : Standing) (log : List Said) : Prop where
  outstanding : k.pairingRequested = true → log.getLast? = some (.request k.pairCorrelation)
  deferred : k.deferredState ≠ .notPaired
  once : Asker.OncePerRequest log

theorem Tells.asking (h : Tells identity event handed start k said k') (hk : Asking k log) :
    Asking k' (log ++ said) := by
  cases h with
  | defers _ _ _ hstate => exact ⟨by simpa using hk.outstanding, hstate, by simpa using hk.once⟩
  | asks _ correlation =>
      refine ⟨fun _ ↦ by simp, hk.deferred, eachAfter_snoc.2 ⟨hk.once, ?_⟩⟩
      intro boardPublic hstore
      cases hstore
  | unpairs | changes => exact ⟨nofun, hk.deferred, by simpa using hk.once⟩
  | grants _ hanswers =>
      refine ⟨nofun, hk.deferred, eachAfter_snoc.2 ⟨hk.once, ?_⟩⟩
      intro boardPublic _
      exact ⟨_, hk.outstanding hanswers.requested⟩
  | _ => exact ⟨by simpa using hk.outstanding, hk.deferred, by simpa using hk.once⟩

theorem Tale.asking (h : Tale identity event handed start k said k') (hk : Asking k log) :
    Asking k' (log ++ said) := by
  induction h generalizing log with
  | nil => rwa [List.append_nil]
  | cons first _ ih =>
      rw [← List.append_assoc]
      exact ih (first.asking hk)

/-- The prompt for the chord is entered by a change that says why. -/
theorem Tells.prompts (h : Tells identity event handed start k said k') (hk : Asking k log)
    (hbefore : k.state ≠ .notPaired) (hafter : k'.state = .notPaired) :
    (event.acquires ∧ start.haveBoardKey = false) ∨ Unpaired start handed := by
  cases h with
  | unkeyed _ hevent hkey hsame => exact .inl ⟨hevent, hsame ▸ hkey⟩
  | unpairs hunpaired => exact .inr hunpaired
  | settles => exact absurd hafter hk.deferred
  | connects =>
      simp only [Standing.connectedState] at hafter
      split at hafter <;> cases hafter
  | accepts _ state _ hstate =>
      rcases hstate with rfl | rfl
      · cases hafter
      · simp only [Standing.connectedState] at hafter
        split at hafter <;> cases hafter
  | misses | quiets | reconnects | alerts | mismatches | changes => cases hafter
  | _ => exact absurd hafter hbefore

theorem Tale.prompts (h : Tale identity event handed start k said k') (hk : Asking k log)
    (hbefore : k.state ≠ .notPaired) (hafter : k'.state = .notPaired) :
    (event.acquires ∧ start.haveBoardKey = false) ∨ Unpaired start handed := by
  induction h generalizing log with
  | nil => exact absurd hafter hbefore
  | @cons _ middle _ _ _ first _ ih =>
      by_cases hmiddle : middle.state = .notPaired
      · exact first.prompts hk hbefore hmiddle
      · exact ih (first.asking hk) hmiddle hafter

end Chain

/-! ## Every call of every run -/

namespace Asker

theorem asking_start (boardPublicKey : Option (List UInt8)) :
    Asking (start boardPublicKey).helper.standing (start boardPublicKey).log := by
  cases boardPublicKey with
  | none => exact ⟨nofun, nofun, eachAfter_nil⟩
  | some key => exact ⟨nofun, nofun, eachAfter_nil⟩

/-- What a call is to the standing. -/
theorem step_tale (identity : Identity) (s : Asker) (call : Call) :
    ∃ event, Tale identity event (s.handed call) s.helper.standing s.helper.standing
        ((s.outputs identity call).filterMap saidOf) (s.step identity call).helper.standing ∧
      (event.acquires → ∃ now count draw, call = .input now (.channelsAcquired count draw)) := by
  cases call with
  | input now event =>
      refine ⟨event, handle_tale identity s.helper now event, ?_⟩
      intro hacquires
      cases event with
      | channelsAcquired count draw => exact ⟨now, count, draw, rfl⟩
      | _ => cases hacquires
  | emit type flags body cap =>
      refine ⟨.noteSent, ?_, nofun⟩
      show Tale _ _ _ _ _ [] (s.helper.emit type flags body cap).2.standing
      rw [standing_emit]
      exact .nil _

theorem asking_step (identity : Identity) {s : Asker} (h : Asking s.helper.standing s.log)
    (call : Call) :
    Asking (s.step identity call).helper.standing (s.step identity call).log := by
  obtain ⟨event, htale, -⟩ := step_tale identity s call
  exact htale.asking h

/-- A key that is put out is one that was said to be stored. -/
theorem mem_said {items : List Output} {boardPublic : List UInt8} :
    .store boardPublic ∈ items.filterMap saidOf ↔ .storeBoardKey boardPublic ∈ items := by
  rw [List.mem_filterMap]
  constructor
  · rintro ⟨item, hitem, hsaid⟩
    cases item with
    | storeBoardKey key =>
        cases hsaid
        exact hitem
    | send bytes =>
        simp only [saidOf] at hsaid
        split at hsaid
        · cases hdecode : pairRequestDecode (bytes.drop headerSize) with
          | none => simp [hdecode] at hsaid
          | some request => simp [hdecode] at hsaid
        · cases hsaid
    | _ => cases hsaid
  · intro hitem
    exact ⟨_, hitem, rfl⟩

theorem guarded_step (identity : Identity) {s : Asker} (h : Asking s.helper.standing s.log)
    (call : Call) : s.Guarded identity call := by
  obtain ⟨event, htale, hacquires⟩ := step_tale identity s call
  refine { pinned := htale.pinned, stores := ?_, kept := ?_, prompts := ?_ }
  · intro boardPublic hstored
    obtain ⟨⟨hrequested, view, hhanded, htype, hdecode⟩, -, -, hhave, hsame⟩ :=
      htale.stores (mem_said.2 hstored)
    exact ⟨⟨view, _, hhanded, htype, hdecode, hrequested, rfl, h.outstanding hrequested⟩, hhave,
      hsame⟩
  · intro view hhanded _ hfruitless
    have hnone : ∀ boardPublic,
        .store boardPublic ∉ (s.outputs identity call).filterMap saidOf := by
      intro boardPublic hstored
      obtain ⟨⟨hrequested, view', hhanded', -, hdecode⟩, hshared, hpinned, -⟩ :=
        htale.stores hstored
      cases hhanded.symm.trans hhanded'
      rcases hfruitless _ _ hdecode with hidle | hanother | hlast | ⟨hkey, hother⟩ | hfails
      · exact absurd (hidle.symm.trans hrequested) Bool.false_ne_true
      · exact hanother rfl
      · exact hlast (h.outstanding hrequested)
      · exact hother (hpinned hkey)
      · exact hshared hfails
    refine ⟨fun boardPublic hstored ↦ hnone boardPublic (mem_said.2 hstored), ?_⟩
    exact htale.same_key hnone
  · intro hbefore hafter
    rcases htale.prompts h hbefore hafter with ⟨hevent, hkey⟩ | ⟨hawaits, hrefused⟩
    · obtain ⟨now, count, draw, hcall⟩ := hacquires hevent
      exact .inl ⟨now, count, draw, hcall, hkey⟩
    · exact .inr ⟨hawaits, hrefused⟩

/-- In every run of a helper, over any calls and any frames: every call keeps a key that is pinned,
stores one only for a grant that answers the request said last, leaves the key alone for a grant
that does not, and prompts for the chord for one of its two reasons; and each request is answered
with a stored key at most once. -/
theorem board_key_pinned (identity : Identity) (boardPublicKey : Option (List UInt8))
    (calls : List Call) :
    Along (step identity) (Guarded identity) (start boardPublicKey) calls ∧
      OncePerRequest (run (step identity) (start boardPublicKey) calls).log := by
  have hstart := asking_start boardPublicKey
  generalize start boardPublicKey = s at hstart
  induction calls generalizing s with
  | nil => exact ⟨trivial, hstart.once⟩
  | cons call rest ih =>
      obtain ⟨halong, honce⟩ := ih _ (asking_step identity hstart call)
      exact ⟨⟨guarded_step identity hstart call, halong⟩, honce⟩

end Asker

end DeskhopPlus.Helper
