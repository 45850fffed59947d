import DeskhopPlus.Board.Counters
import DeskhopPlus.Helper.Moves

/-!
# The counters of a helper

A helper tags its hello under a key of its own and everything else under the key of the session. The
log beside the machine lists what it put out under a key and what each key was derived for.
`accounted_run` says that, with nonces that are fresh and keys that differ where they were derived
for different things, the counters under every key are the first ones in order.
-/

namespace DeskhopPlus.Helper

open Wire Auth Crypto Board Runs Sealing

/-- What a key was derived for: the hello with a nonce, or the session begun on that hello. -/
inductive Origin where
  | hello (nonce : List UInt8)
  | session (nonce : List UInt8)
  deriving DecidableEq, Repr

/-- The nonce of a hello that a key was derived for. -/
def Origin.helloNonce : Origin → Option (List UInt8)
  | .hello nonce => some nonce
  | .session _ => none

namespace Core

/-- The key of the hello with the nonce at hand. -/
def helloKey (identity : Identity) (k : Core) : List UInt8 :=
  deriveHelloKey ((identity.ecdh k.boardPublicKey).getD []) k.helperNonce

/-- A frame under the next counter of the session. -/
def post (k : Core) (frame : List UInt8) : Posting :=
  { tagged := some (k.kH2b, k.txCounter), frame := frame, queued := true }

/-- A hello is the only frame under its key. -/
def postHello (identity : Identity) (k : Core) (frame : List UInt8) : Posting :=
  { tagged := some (k.helloKey identity, 0), frame := frame, queued := true }

/-- What an input put out, between the core before it and the core after it. -/
def spoken (identity : Identity) (k k' : Core) (frame : List UInt8) : Posting :=
  if typed Msg.hello frame then k'.postHello identity frame else k.post frame

/-- The keys an input derived. -/
def newKeys (identity : Identity) (k k' : Core) (tagged : List (List UInt8)) :
    List (List UInt8 × Origin) :=
  (if tagged.any (typed Msg.hello) then [(k'.helloKey identity, .hello k'.helperNonce)] else []) ++
    if k.phase = .awaitingAck ∧ k'.phase = .live ∧ k'.haveKeys then
      [(k'.kH2b, .session k'.helperNonce)]
    else []

/-- What a helper seals with, beside the pairs used so far. -/
def sealer (k : Core) (log : List (List UInt8 × UInt64)) : Sealer (List UInt8) where
  key := if k.haveKeys then some k.kH2b else none
  next := k.txCounter
  log := log

end Core

/-- No nonce is used for two hellos, and keys derived for different things differ. -/
structure FreshKeys (derived : List (List UInt8 × Origin)) : Prop where
  nonces : (derived.filterMap fun entry ↦ entry.2.helloNonce).Nodup
  apart : ∀ first ∈ derived, ∀ second ∈ derived, first.1 = second.1 → first.2 = second.2

/-- A helper with every frame it put out under a key, and what each key was derived for. -/
structure Speaker where
  helper : Helper
  built : List Posting
  derived : List (List UInt8 × Origin)

namespace Speaker

/-- One call. -/
def step (identity : Identity) (s : Speaker) : Call → Speaker
  | .input now event =>
      let t := s.helper.handle identity now event
      { helper := t.h
        built := s.built ++ t.tagged.map (s.helper.core.spoken identity t.h.core)
        derived := s.derived ++ s.helper.core.newKeys identity t.h.core t.tagged }
  | .emit type flags body cap =>
      let emitted := s.helper.emit type flags body cap
      { helper := emitted.2
        built := s.built ++ (emitted.1.toOption.map s.helper.core.post).toList
        derived := s.derived }

/-- A helper that has just started. -/
def start (boardPublicKey : Option (List UInt8)) : Speaker where
  helper := init boardPublicKey
  built := []
  derived := []

end Speaker

/-! ## What a call says -/

/-- Everything a call can put out under a key, and derive keys for. -/
inductive Speaks (identity : Identity) :
    Core → List Posting → List (List UInt8 × Origin) → Core → Prop
  | rests (k : Core) : Speaks identity k [] [] k
  | spends (k : Core) (type flags : UInt8) (body : List UInt8) (hkeys : k.haveKeys = true) :
      Speaks identity k [k.post (builtView type flags k.kH2b k.txCounter.toNat body).bytes] []
        { k with txCounter := k.txCounter + 1 }
  | forgets (k k' : Core) (hphase : k'.phase ≠ .awaitingAck) (hkeys : k'.haveKeys = false) :
      Speaks identity k [] [] k'
  | hellos (k k' : Core) (flags : UInt8) (body : List UInt8)
      (hkept : k'.haveKeys = true →
        k.haveKeys = true ∧ k'.kH2b = k.kH2b ∧ k'.txCounter = k.txCounter) :
      Speaks identity k
        [k'.postHello identity (builtView Msg.hello flags (k'.helloKey identity) 0 body).bytes]
        [(k'.helloKey identity, .hello k'.helperNonce)] k'
  | botches (k : Core) (draw : Draw) (hphase : k.phase ≠ .awaitingAck) :
      Speaks identity k [] [] (k.say draw)
  | begins (k k' : Core) (hphase : k.phase = .awaitingAck) (hlive : k'.phase = .live)
      (hkeys : k'.haveKeys = true) (hnonce : k'.helperNonce = k.helperNonce)
      (hcounter : k'.txCounter = 0) :
      Speaks identity k [] [(k'.kH2b, .session k'.helperNonce)] k'

variable {identity : Identity}

/-- A hello is posted under its own key. -/
theorem speaks_hello {k k' : Core} {shared : List UInt8} {configMode : Bool} {draw : Draw}
    (hnonce : k'.helperNonce = draw.nonce)
    (hshared : identity.ecdh k'.boardPublicKey = some shared) (hphase : k'.phase = .awaitingAck)
    (hkept : k'.haveKeys = true →
      k.haveKeys = true ∧ k'.kH2b = k.kH2b ∧ k'.txCounter = k.txCounter) :
    Speaks identity k
      ([(helloView identity configMode shared draw).bytes].map (k.spoken identity k'))
      (k.newKeys identity k' [(helloView identity configMode shared draw).bytes]) k' := by
  have hkey : k'.helloKey identity = deriveHelloKey shared draw.nonce := by
    rw [Core.helloKey, hshared, hnonce]
    rfl
  have htyped : typed Msg.hello (helloView identity configMode shared draw).bytes = true :=
    typed_builtView ..
  have hawaits : ¬ (k.phase = .awaitingAck ∧ k'.phase = .live ∧ k'.haveKeys = true) := by
    rw [hphase]
    exact fun h ↦ by cases h.2.1
  have hposts : [(helloView identity configMode shared draw).bytes].map (k.spoken identity k') =
      [k'.postHello identity (builtView Msg.hello 0 (k'.helloKey identity) 0
        (helloOf identity configMode draw).body).bytes] := by
    rw [List.map_singleton, Core.spoken, if_pos htyped, hkey]
    rfl
  have hnew : k.newKeys identity k' [(helloView identity configMode shared draw).bytes] =
      [(k'.helloKey identity, .hello k'.helperNonce)] := by
    rw [Core.newKeys, if_neg hawaits, List.any_cons, htyped]
    rfl
  rw [hposts, hnew]
  exact .hellos k k' 0 _ hkept

/-- An input that says no hello derives no key, unless it begins a session. -/
theorem newKeys_nil {k k' : Core} {tagged : List (List UInt8)}
    (htyped : tagged.any (typed Msg.hello) = false)
    (h : ¬ (k.phase = .awaitingAck ∧ k'.phase = .live ∧ k'.haveKeys = true)) :
    k.newKeys identity k' tagged = [] := by
  rw [Core.newKeys, if_neg h, htyped]
  rfl

/-- A phase that stays begins no session. -/
theorem not_begins {k k' : Core} (h : k'.phase = k.phase) :
    ¬ (k.phase = .awaitingAck ∧ k'.phase = .live ∧ k'.haveKeys = true) := by
  rintro ⟨hawaits, hlive, -⟩
  rw [h, hawaits] at hlive
  cases hlive

/-- The key of a session is derived when it begins. -/
theorem speaks_begins {k k' : Core} (hphase : k.phase = .awaitingAck) (hlive : k'.phase = .live)
    (hkeys : k'.haveKeys = true) (hnonce : k'.helperNonce = k.helperNonce)
    (hcounter : k'.txCounter = 0) :
    Speaks identity k (([] : List (List UInt8)).map (k.spoken identity k'))
      (k.newKeys identity k' []) k' := by
  have hnew : k.newKeys identity k' [] = [(k'.kH2b, .session k'.helperNonce)] := by
    rw [Core.newKeys, List.any_nil, if_neg Bool.false_ne_true, List.nil_append,
      if_pos ⟨hphase, hlive, hkeys⟩]
  rw [hnew]
  exact .begins k k' hphase hlive hkeys hnonce hcounter

theorem speaks_moves {handed : Option FrameView} {k k' : Core} {tagged : List (List UInt8)}
    (hmoves : Moves identity handed k tagged k') (hjudges : k.CanJudge identity) :
    Speaks identity k (tagged.map (k.spoken identity k')) (k.newKeys identity k' tagged) k' := by
  cases hmoves with
  | keeps =>
      rw [newKeys_nil rfl (not_begins rfl)]
      exact .rests k
  | beats hkeys =>
      have htyped : typed Msg.hello (heartbeatView k.kH2b k.txCounter).bytes = false :=
        typed_builtView ..
      have hnone : [(heartbeatView k.kH2b k.txCounter).bytes].any (typed Msg.hello) = false := by
        rw [List.any_cons, htyped]
        rfl
      have hnew : k.newKeys identity { k with txCounter := k.txCounter + 1 }
          [(heartbeatView k.kH2b k.txCounter).bytes] = [] := newKeys_nil hnone (not_begins rfl)
      rw [hnew, List.map_singleton, Core.spoken, htyped, if_neg Bool.false_ne_true]
      exact .spends k Msg.heartbeat 0 [] hkeys
  | forgets correlation acquired hphase =>
      rw [newKeys_nil rfl fun h ↦ by cases h.2.2]
      exact .forgets k _ hphase rfl
  | acquires acquired configMode draw hkey hshared =>
      exact speaks_hello rfl hshared rfl nofun
  | granted configMode draw hpinned hshared =>
      exact speaks_hello rfl hshared rfl fun hkeys ↦ ⟨hkeys, rfl, rfl⟩
  | botches draw hkey =>
      have hnew : k.newKeys identity (k.say draw) [] = [] := newKeys_nil rfl (not_begins rfl)
      rw [hnew]
      refine .botches k draw fun hphase ↦ ?_
      -- a key that answered an exchange before answers it again
      obtain ⟨hpinned, -, shared, hshared⟩ := hjudges hphase
      rw [hkey hpinned] at hshared
      cases hshared
  | accepts hhanded hkey hshared haccepts =>
      exact speaks_begins haccepts.awaiting rfl rfl rfl rfl

/-- Every call says one of these things. -/
theorem speaks_step {s : Speaker} (hjudges : s.helper.core.CanJudge identity) (call : Call) :
    ∃ posts new, (s.step identity call).built = s.built ++ posts ∧
      (s.step identity call).derived = s.derived ++ new ∧
      Speaks identity s.helper.core posts new (s.step identity call).helper.core := by
  cases call with
  | input now event =>
      exact ⟨_, _, rfl, rfl, speaks_moves (handle_moves identity s.helper now event) hjudges⟩
  | emit type flags body cap =>
      rcases core_emit s.helper type flags body cap with ⟨⟨fault, hfault⟩, hsame⟩ |
        ⟨hkeys, hok, hspent⟩
      · refine ⟨[], [], ?_, (List.append_nil _).symm, ?_⟩
        · show s.built ++ _ = _
          rw [hfault]
          rfl
        · show Speaks identity s.helper.core [] [] (s.helper.emit type flags body cap).2.core
          rw [hsame]
          exact .rests _
      · refine ⟨[s.helper.core.post (builtView type flags s.helper.kH2b s.helper.txCounter.toNat
          body).bytes], [], ?_, (List.append_nil _).symm, ?_⟩
        · show s.built ++ _ = _
          rw [hok]
          rfl
        · show Speaks identity s.helper.core _ [] (s.helper.emit type flags body cap).2.core
          rw [hspent]
          exact .spends s.helper.core type flags body hkeys

/-! ## The run -/

/-- The log accounts for every key: what the helper seals with was derived for a hello or for a
session, and a helper that awaits an answer has begun no session on its hello yet. -/
structure Accounted (identity : Identity) (k : Core) (built : List Posting)
    (derived : List (List UInt8 × Origin)) : Prop where
  judges : k.CanJudge identity
  keys : ∀ pair ∈ pairsOf built, pair.1 ∈ derived.map Prod.fst
  live : k.haveKeys = true → k.kH2b ∈ derived.map Prod.fst
  asked : k.phase = .awaitingAck → Origin.hello k.helperNonce ∈ derived.map Prod.snd
  met : ∀ nonce, Origin.session nonce ∈ derived.map Prod.snd →
    Origin.hello nonce ∈ derived.map Prod.snd
  honest : ∀ post ∈ built, post.Honest
  unmet : FreshKeys derived → k.phase = .awaitingAck →
    Origin.session k.helperNonce ∉ derived.map Prod.snd
  counted : FreshKeys derived → (k.sealer (pairsOf built)).Counted

section Accounting

variable {k k' : Core} {built posts : List Posting} {derived new : List (List UInt8 × Origin)}
  {key : List UInt8} {origin : Origin} {nonce : List UInt8}

theorem FreshKeys.before (h : FreshKeys (derived ++ new)) : FreshKeys derived where
  nonces := by
    have hnonces := h.nonces
    rw [List.filterMap_append] at hnonces
    exact hnonces.of_append_left
  apart first hfirst second hsecond :=
    h.apart first (List.mem_append_left _ hfirst) second (List.mem_append_left _ hsecond)

/-- A key derived for something new is new. -/
theorem FreshKeys.key_new (h : FreshKeys (derived ++ [(key, origin)]))
    (horigin : origin ∉ derived.map Prod.snd) : key ∉ derived.map Prod.fst := by
  intro hused
  obtain ⟨entry, hentry, hsame⟩ := List.mem_map.1 hused
  apply horigin
  have heq : entry.2 = origin :=
    h.apart entry (List.mem_append_left _ hentry) (key, origin)
      (List.mem_append_right _ (List.mem_singleton_self _)) hsame
  rw [← heq]
  exact List.mem_map_of_mem hentry

/-- The nonce of a new hello is new. -/
theorem FreshKeys.hello_new (h : FreshKeys (derived ++ [(key, .hello nonce)])) :
    Origin.hello nonce ∉ derived.map Prod.snd := by
  intro hused
  obtain ⟨entry, hentry, hsame⟩ := List.mem_map.1 hused
  have hnonces := h.nonces
  rw [List.filterMap_append, List.nodup_append] at hnonces
  refine hnonces.2.2 nonce ?_ nonce (List.mem_singleton_self _) rfl
  refine List.mem_filterMap.2 ⟨entry, hentry, ?_⟩
  rw [hsame]
  rfl

theorem accounted_init (identity : Identity) (boardPublicKey : Option (List UInt8)) :
    Accounted identity (init boardPublicKey).core [] [] := by
  have hcore : (init boardPublicKey).core.phase = .idle ∧
      (init boardPublicKey).core.haveKeys = false := by
    cases boardPublicKey <;> exact ⟨rfl, rfl⟩
  have hidle : (init boardPublicKey).core.phase ≠ .awaitingAck := by
    rw [hcore.1]
    decide
  constructor
  · exact fun h ↦ absurd h hidle
  · exact nofun
  · intro h
    rw [hcore.2] at h
    cases h
  · exact fun h ↦ absurd h hidle
  · exact nofun
  · exact nofun
  · exact fun _ h ↦ absurd h hidle
  · intro _
    have heq : (init boardPublicKey).core.sealer [] =
        { key := none, next := (init boardPublicKey).core.txCounter, log := [] } := by
      simp [Core.sealer, hcore.2]
    show ((init boardPublicKey).core.sealer []).Counted
    rw [heq]
    exact Sealer.counted_empty _

/-- The session key seals one frame more. -/
theorem Accounted.spends (h : Accounted identity k built derived) (type flags : UInt8)
    (body : List UInt8) (hkeys : k.haveKeys = true) :
    Accounted identity { k with txCounter := k.txCounter + 1 }
      (built ++ [k.post (builtView type flags k.kH2b k.txCounter.toNat body).bytes]) derived where
  judges := h.judges
  keys pair hpair := by
    rw [pairsOf_append] at hpair
    rcases List.mem_append.1 hpair with hbefore | hnow
    · exact h.keys pair hbefore
    · rw [List.mem_singleton.1 hnow]
      exact h.live hkeys
  live := h.live
  asked := h.asked
  met := h.met
  honest post hpost := by
    rcases List.mem_append.1 hpost with hbefore | hnow
    · exact h.honest post hbefore
    · rw [List.mem_singleton.1 hnow]
      exact ⟨type, flags, body, rfl⟩
  unmet := h.unmet
  counted hfresh := by
    have hsealed := (h.counted hfresh).seal (if_pos hkeys)
    rw [pairsOf_append]
    exact hsealed

/-- The session key is forgotten. -/
theorem Accounted.forgets (h : Accounted identity k built derived)
    (hphase : k'.phase ≠ .awaitingAck)
    (hkeys : k'.haveKeys = false) : Accounted identity k' built derived where
  judges hawaits := absurd hawaits hphase
  keys := h.keys
  live hkept := by
    rw [hkeys] at hkept
    cases hkept
  asked hawaits := absurd hawaits hphase
  met := h.met
  honest := h.honest
  unmet _ hawaits := absurd hawaits hphase
  counted hfresh := by
    have heq : k'.sealer (pairsOf built) =
        { k.sealer (pairsOf built) with key := none, next := k'.txCounter } := by
      simp [Core.sealer, hkeys]
    rw [heq]
    exact (h.counted hfresh).forget k'.txCounter

/-- A hello goes out under a key of its own. -/
theorem Accounted.hellos (h : Accounted identity k built derived) (hjudges : k'.CanJudge identity)
    (flags : UInt8) (body : List UInt8)
    (hkept : k'.haveKeys = true →
      k.haveKeys = true ∧ k'.kH2b = k.kH2b ∧ k'.txCounter = k.txCounter) :
    Accounted identity k'
      (built ++
        [k'.postHello identity (builtView Msg.hello flags (k'.helloKey identity) 0 body).bytes])
      (derived ++ [(k'.helloKey identity, .hello k'.helperNonce)]) where
  judges := hjudges
  keys pair hpair := by
    rw [pairsOf_append] at hpair
    rw [List.map_append]
    rcases List.mem_append.1 hpair with hbefore | hnow
    · exact List.mem_append_left _ (h.keys pair hbefore)
    · rw [List.mem_singleton.1 hnow]
      exact List.mem_append_right _ (List.mem_singleton_self _)
  live hkeys := by
    obtain ⟨hbefore, hsame, -⟩ := hkept hkeys
    rw [List.map_append, hsame]
    exact List.mem_append_left _ (h.live hbefore)
  asked _ := by
    rw [List.map_append]
    exact List.mem_append_right _ (List.mem_singleton_self _)
  met nonce hmet := by
    rw [List.map_append] at hmet ⊢
    rcases List.mem_append.1 hmet with hbefore | hnow
    · exact List.mem_append_left _ (h.met nonce hbefore)
    · cases List.mem_singleton.1 hnow
  honest post hpost := by
    rcases List.mem_append.1 hpost with hbefore | hnow
    · exact h.honest post hbefore
    · rw [List.mem_singleton.1 hnow]
      exact ⟨Msg.hello, flags, body, rfl⟩
  unmet hfresh _ hmet := by
    rw [List.map_append] at hmet
    rcases List.mem_append.1 hmet with hbefore | hnow
    · exact hfresh.hello_new (h.met _ hbefore)
    · cases List.mem_singleton.1 hnow
  counted hfresh := by
    have hnew := hfresh.key_new hfresh.hello_new
    have hunused : k'.helloKey identity ∉ (pairsOf built).map Prod.fst := by
      intro hused
      obtain ⟨pair, hpair, hsame⟩ := List.mem_map.1 hused
      exact hnew (hsame ▸ h.keys pair hpair)
    rw [pairsOf_append]
    show (k'.sealer (pairsOf built ++ [(k'.helloKey identity, 0)])).Counted
    cases hkeys : k'.haveKeys with
    | false =>
        -- no session key is left beside it
        have hforgot := (h.counted hfresh.before).forget k'.txCounter
        have hsealed := hforgot.once hunused nofun
        have heq : k'.sealer (pairsOf built ++ [(k'.helloKey identity, 0)]) =
            { k.sealer (pairsOf built) with
              key := none
              next := k'.txCounter
              log := pairsOf built ++ [(k'.helloKey identity, 0)] } := by
          simp [Core.sealer, hkeys]
        rw [heq]
        exact hsealed
    | true =>
        obtain ⟨hbefore, hsame, hnext⟩ := hkept hkeys
        have hother : (k.sealer (pairsOf built)).key ≠ some (k'.helloKey identity) := by
          intro heq
          have hlive : some k.kH2b = some (k'.helloKey identity) := by
            rw [← heq]
            exact (if_pos hbefore).symm
          exact hnew (Option.some.inj hlive ▸ h.live hbefore)
        have hsealed := (h.counted hfresh.before).once hunused hother
        have heq : k'.sealer (pairsOf built ++ [(k'.helloKey identity, 0)]) =
            { k.sealer (pairsOf built) with
              log := pairsOf built ++ [(k'.helloKey identity, 0)] } := by
          simp [Core.sealer, hkeys, hbefore, hsame, hnext]
        rw [heq]
        exact hsealed

/-- A nonce is drawn for a hello that is not said. -/
theorem Accounted.botches (h : Accounted identity k built derived) (draw : Draw)
    (hphase : k.phase ≠ .awaitingAck) : Accounted identity (k.say draw) built derived where
  judges hawaits := absurd hawaits hphase
  keys := h.keys
  live := h.live
  asked hawaits := absurd hawaits hphase
  met := h.met
  honest := h.honest
  unmet _ hawaits := absurd hawaits hphase
  counted := h.counted

/-- A session begins on the hello that is out. -/
theorem Accounted.begins (h : Accounted identity k built derived) (hphase : k.phase = .awaitingAck)
    (hlive : k'.phase = .live) (hkeys : k'.haveKeys = true)
    (hnonce : k'.helperNonce = k.helperNonce)
    (hcounter : k'.txCounter = 0) :
    Accounted identity k' built (derived ++ [(k'.kH2b, .session k'.helperNonce)]) := by
  have hphase' : k'.phase ≠ .awaitingAck := by
    rw [hlive]
    decide
  constructor
  · exact fun hawaits ↦ absurd hawaits hphase'
  · intro pair hpair
    rw [List.map_append]
    exact List.mem_append_left _ (h.keys pair hpair)
  · intro _
    rw [List.map_append]
    exact List.mem_append_right _ (List.mem_singleton_self _)
  · exact fun hawaits ↦ absurd hawaits hphase'
  · intro nonce hmet
    rw [List.map_append] at hmet ⊢
    rcases List.mem_append.1 hmet with hbefore | hnow
    · exact List.mem_append_left _ (h.met nonce hbefore)
    · injection List.mem_singleton.1 hnow with hsame
      rw [hsame, hnonce]
      exact List.mem_append_left _ (h.asked hphase)
  · exact h.honest
  · exact fun _ hawaits ↦ absurd hawaits hphase'
  · intro hfresh
    have hunmet := h.unmet hfresh.before hphase
    rw [← hnonce] at hunmet
    have hunused : k'.kH2b ∉ (pairsOf built).map Prod.fst := by
      intro hused
      obtain ⟨pair, hpair, hsame⟩ := List.mem_map.1 hused
      exact hfresh.key_new hunmet (hsame ▸ h.keys pair hpair)
    have heq : k'.sealer (pairsOf built) =
        { k.sealer (pairsOf built) with key := some k'.kH2b, next := 0 } := by
      simp [Core.sealer, hkeys, hcounter]
    rw [heq]
    exact (h.counted hfresh.before).rekey hunused

/-- Whatever a call says, the log goes on accounting for it. -/
theorem Accounted.speaks (h : Accounted identity k built derived)
    (hspeaks : Speaks identity k posts new k') (hjudges : k'.CanJudge identity) :
    Accounted identity k' (built ++ posts) (derived ++ new) := by
  cases hspeaks with
  | rests =>
      rw [List.append_nil, List.append_nil]
      exact h
  | spends type flags body hkeys =>
      rw [List.append_nil]
      exact h.spends type flags body hkeys
  | forgets _ hphase hkeys =>
      rw [List.append_nil, List.append_nil]
      exact h.forgets hphase hkeys
  | hellos _ flags body hkept => exact h.hellos hjudges flags body hkept
  | botches draw hphase =>
      rw [List.append_nil, List.append_nil]
      exact h.botches draw hphase
  | begins _ hphase hlive hkeys hnonce hcounter =>
      rw [List.append_nil]
      exact h.begins hphase hlive hkeys hnonce hcounter

end Accounting

namespace Speaker

@[simp] theorem step_helper (s : Speaker) (call : Call) :
    (s.step identity call).helper = s.helper.call identity call := by
  cases call <;> rfl

theorem accounted_run (identity : Identity) (boardPublicKey : Option (List UInt8))
    (calls : List Call) :
    let s := run (step identity) (start boardPublicKey) calls
    Accounted identity s.helper.core s.built s.derived := by
  refine run_invariant (fun s : Speaker ↦ Accounted identity s.helper.core s.built s.derived)
    (accounted_init identity boardPublicKey) (fun s call h ↦ ?_) calls
  obtain ⟨posts, new, hbuilt, hderived, hspeaks⟩ := speaks_step h.judges call
  have hjudges : (s.step identity call).helper.core.CanJudge identity := by
    rw [step_helper]
    exact judges_call h.judges call
  rw [hbuilt, hderived]
  exact h.speaks hspeaks hjudges

end Speaker

end DeskhopPlus.Helper
