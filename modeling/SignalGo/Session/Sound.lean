import SignalGo.Session.Session
import SignalGo.Spqr.StatePersist

/-!
# Sound sessions

A session is sound if its post-quantum ratchet is in a state a run can reach and its list of
previous states has no nil entries. What the package makes of a sound session is sound again, and
`clone` of a sound session is the session itself.

* `Sound.clone`: a clone loses nothing.
* `Sound.encrypt`, `Sound.decrypt`: sending and receiving keep soundness.
-/

namespace SignalGo.Session

variable {s : Suite} {kem : Spqr.Kem} {w : Protowire}

structure Sound (p : Prims) (session : Session) : Prop where
  pqr : ∀ state, session.pqrState = some state → Spqr.PartySound p state
  previous : ∀ state ∈ session.previousStates, state.isSome

variable {p : Prims}

/-- `Clone` gives a state a run can reach back. -/
theorem clone_of_partySound {state : Spqr.State} (h : Spqr.PartySound p state) :
    state.clone = some state := by
  rcases h with rfl | ⟨l, n, v1, hl, hok⟩
  · rfl
  · exact (hok.restorable hl).clone

variable {session : Session}

theorem Sound.clone (h : Sound p session) :
    session.clone = session := by
  have hpqr : session.pqrState.bind Spqr.State.clone = session.pqrState := by
    cases hstate : session.pqrState with
    | none => rfl
    | some state => exact clone_of_partySound (h.pqr state hstate)
  have hprev : session.previousStates.filter Option.isSome = session.previousStates :=
    List.filter_eq_self.mpr h.previous
  rw [Session.clone, hpqr, hprev]

/-! ## New sessions -/

theorem sound_newSession (state : Ratchet.State) (localID remoteID : IdentityKey) (ad : Bytes) :
    Sound p (newSession state localID remoteID ad) :=
  ⟨nofun, nofun⟩

variable {session' : Session}

/-- The post-quantum ratchet is all that `initSessionPQR` sets. -/
theorem initSessionPQR_ok {result : X3dh.Result} {isInitiator : Bool}
    (h : initSessionPQR s session result isInitiator = .ok session') :
    ∃ pqrState, session' = { session with pqrState } := by
  unfold initSessionPQR at h
  split at h
  · cases h
    exact ⟨_, rfl⟩
  · obtain ⟨state, -, h⟩ := bind_eq_ok.mp h
    cases h
    exact ⟨_, rfl⟩

/-- The SPQR state of a new session is one that the package makes. -/
theorem Sound.initSessionPQR {result : X3dh.Result} {isInitiator : Bool}
    (h : Sound s.toPrims session)
    (hinit : Session.initSessionPQR s session result isInitiator = .ok session') :
    Sound s.toPrims session' := by
  unfold Session.initSessionPQR at hinit
  cases hkey : result.pqrKey with
  | none =>
    rw [hkey] at hinit
    cases hinit
    exact h
  | some key =>
    rw [hkey] at hinit
    obtain ⟨state, hnew, hinit⟩ := bind_eq_ok.mp hinit
    cases hinit
    refine ⟨fun state' hstate => ?_, h.previous⟩
    cases hstate
    have hdir : (if isInitiator then Spqr.directionA2B else Spqr.directionB2A) = Spqr.directionA2B ∨
        (if isInitiator then Spqr.directionA2B else Spqr.directionB2A) = Spqr.directionB2A := by
      cases isInitiator
      · exact .inr rfl
      · exact .inl rfl
    obtain ⟨v1, -, hok⟩ := Spqr.newState_partyOk hdir hnew
    exact .inr ⟨_, 1, v1, Spqr.Ledger.start_sized _ _, hok⟩

theorem Sound.setVersion (h : Sound p session) (version : UInt8) :
    Sound p (setSessionCiphertextVersion session version) := by
  unfold setSessionCiphertextVersion
  split
  · exact ⟨h.pqr, h.previous⟩
  · exact h

/-! ## Sending and receiving -/

variable {rnd : Spqr.Rand} {pqrState next : Option Spqr.State} {payload salt : Bytes}

/-- What a successful send did to the post-quantum ratchet. -/
theorem sendPQR_ok (h : sendPQR s kem rnd pqrState = .ok (next, payload, salt)) :
    (pqrState = none ∧ next = none ∧ payload = [] ∧ salt = []) ∨
      ∃ state clone, pqrState = some state ∧ state.clone = some clone ∧
        (clone.send s.toPrims kem rnd).2 = .ok (payload, salt) ∧
        next = some (clone.send s.toPrims kem rnd).1 := by
  unfold sendPQR at h
  cases pqrState with
  | none =>
    cases h
    exact .inl ⟨rfl, rfl, rfl, rfl⟩
  | some state =>
    simp only at h
    cases hclone : state.clone with
    | none =>
      rw [hclone] at h
      cases h
    | some clone =>
      rw [hclone] at h
      cases hsend : clone.send s.toPrims kem rnd with
      | mk after res =>
        simp only [hsend] at h
        cases res with
        | error e => cases h
        | ok out =>
          cases h
          exact .inr ⟨state, clone, rfl, hclone, by rw [hsend], by rw [hsend]⟩

/-- What a successful receive did to the post-quantum ratchet. -/
theorem receivePQR_ok (h : receivePQR s kem pqrState payload = .ok (next, salt)) :
    (pqrState = none ∧ payload = [] ∧ next = none ∧ salt = []) ∨
      ∃ state clone after, pqrState = some state ∧ state.clone = some clone ∧
        clone.receive s.toPrims kem payload = .ok (after, salt) ∧ next = some after := by
  unfold receivePQR at h
  cases pqrState with
  | none =>
    simp only at h
    split at h
    · cases h
    · cases h
      exact .inl ⟨rfl, List.eq_nil_of_length_eq_zero (by omega), rfl, rfl⟩
  | some state =>
    simp only at h
    cases hclone : state.clone with
    | none =>
      rw [hclone] at h
      cases h
    | some clone =>
      rw [hclone] at h
      obtain ⟨⟨after, salt'⟩, hrecv, h⟩ := bind_eq_ok.mp h
      cases h
      exact .inr ⟨state, clone, after, rfl, hclone, hrecv, rfl⟩

theorem partySound_sendPQR
    (hsound : ∀ state, pqrState = some state → Spqr.PartySound s.toPrims state)
    (h : sendPQR s kem rnd pqrState = .ok (next, payload, salt)) :
    ∀ state, next = some state → Spqr.PartySound s.toPrims state := by
  rcases sendPQR_ok h with ⟨-, rfl, -, -⟩ | ⟨state, clone, hstate, hclone, -, rfl⟩
  · nofun
  · intro after hafter
    cases hafter
    have hpre := hsound state hstate
    rw [clone_of_partySound hpre] at hclone
    cases hclone
    exact hpre.step (e := .send rnd) rfl

theorem partySound_receivePQR
    (hsound : ∀ state, pqrState = some state → Spqr.PartySound s.toPrims state)
    (h : receivePQR s kem pqrState payload = .ok (next, salt)) :
    ∀ state, next = some state → Spqr.PartySound s.toPrims state := by
  rcases receivePQR_ok h with ⟨-, -, rfl, -⟩ | ⟨state, clone, after, hstate, hclone, hrecv, rfl⟩
  · nofun
  · intro after' hafter
    cases hafter
    have hpre := hsound state hstate
    rw [clone_of_partySound hpre] at hclone
    cases hclone
    exact hpre.step (e := .receive payload) ⟨salt, hrecv⟩

variable {plaintext : Bytes} {msg : Wire.SignalMessage}

/-- The parts of a successful send. -/
theorem encryptSignalMessage_ok
    (h : encryptSignalMessage s kem w rnd session plaintext = .ok (session', msg)) :
    ∃ state header messageKey pqrState pqRatchet salt,
      Ratchet.nextSendingMessageKey s.toPrims session.ratchetState =
        .ok (state, header, messageKey) ∧
      sendPQR s kem rnd session.pqrState = .ok (pqrState, pqRatchet, salt) ∧
      Wire.newSignalMessage s.toPrims w (ciphertextVersionForSession session)
          (Ratchet.deriveMessageKeysWithSalt s.toPrims messageKey salt).2.1 header.dh header.n
          header.pn
          (aesCBCEncrypt s
            (.ofBytes 32 (Ratchet.deriveMessageKeysWithSalt s.toPrims messageKey salt).1)
            (.ofBytes 16 (Ratchet.deriveMessageKeysWithSalt s.toPrims messageKey salt).2.2)
            plaintext)
          session.localIdentity session.remoteIdentity pqRatchet = .ok msg ∧
      session' = { session with ratchetState := state, pqrState } := by
  obtain ⟨⟨state, header, messageKey⟩, hnext, h⟩ := bind_eq_ok.mp h
  obtain ⟨⟨pqrState, pqRatchet, salt⟩, hpqr, h⟩ := bind_eq_ok.mp h
  obtain ⟨msg', hmsg, h⟩ := bind_eq_ok.mp h
  cases h
  exact ⟨state, header, messageKey, pqrState, pqRatchet, salt, mapError_eq_ok.mp hnext, hpqr,
    mapError_eq_ok.mp hmsg, rfl⟩

/-- The parts of a successful receive. -/
theorem decryptSignalWithSession_ok {rnd : Except String Key} :
    decryptSignalWithSession s kem rnd session msg = .ok (session', plaintext) ↔
      versionMismatch session msg = false ∧ ∃ next messageKey pqrNext salt,
        Ratchet.advanceForHeader s.toPrims rnd session.ratchetState (messageHeader msg) =
          .ok (next, messageKey) ∧
        receivePQR s kem session.pqrState msg.pqRatchet = .ok (pqrNext, salt) ∧
        openMessage s session msg messageKey salt = .ok plaintext ∧
        session' = session.received msg next pqrNext := by
  unfold decryptSignalWithSession
  constructor
  · intro h
    split at h
    case isTrue => cases h
    case isFalse hver =>
      obtain ⟨⟨next, messageKey⟩, hadv, h⟩ := bind_eq_ok.mp h
      obtain ⟨⟨pqrNext, salt⟩, hpqr, h⟩ := bind_eq_ok.mp h
      obtain ⟨plaintext', hopen, h⟩ := bind_eq_ok.mp h
      cases h
      exact ⟨Bool.eq_false_iff.mpr hver, next, messageKey, pqrNext, salt, mapError_eq_ok.mp hadv,
        hpqr, mapError_eq_ok.mp hopen, rfl⟩
  · rintro ⟨hver, next, messageKey, pqrNext, salt, hadv, hpqr, hopen, rfl⟩
    rw [if_neg (Bool.eq_false_iff.mp hver), hadv]
    simp only [Except.mapError, ok_bind, hpqr, hopen]
    rfl

theorem received_ratchetState (session : Session) (msg : Wire.SignalMessage) (state : Ratchet.State)
    (pqrState : Option Spqr.State) : (session.received msg state pqrState).ratchetState =
      state := by
  unfold received
  split <;> rfl

theorem received_pqrState (session : Session) (msg : Wire.SignalMessage) (state : Ratchet.State)
    (pqrState : Option Spqr.State) : (session.received msg state pqrState).pqrState = pqrState := by
  unfold received
  split <;> rfl

theorem setSessionCiphertextVersion_previousStates (session : Session) (version : UInt8) :
    (setSessionCiphertextVersion session version).previousStates = session.previousStates := by
  unfold setSessionCiphertextVersion
  split <;> rfl

theorem received_previousStates (session : Session) (msg : Wire.SignalMessage)
    (state : Ratchet.State) (pqrState : Option Spqr.State) :
    (session.received msg state pqrState).previousStates = session.previousStates := by
  unfold received
  split
  · exact setSessionCiphertextVersion_previousStates session _
  · rfl

theorem Sound.encrypt (h : Sound s.toPrims session)
    (henc : encryptSignalMessage s kem w rnd session plaintext = .ok (session', msg)) :
    Sound s.toPrims session' := by
  obtain ⟨state, header, messageKey, pqrState, pqRatchet, salt, -, hpqr, -, rfl⟩ :=
    encryptSignalMessage_ok henc
  exact ⟨partySound_sendPQR h.pqr hpqr, h.previous⟩

theorem Sound.decrypt {rnd : Except String Key} (h : Sound s.toPrims session)
    (hdec : decryptSignalWithSession s kem rnd session msg = .ok (session', plaintext)) :
    Sound s.toPrims session' := by
  obtain ⟨-, next, messageKey, pqrNext, salt, -, hpqr, -, rfl⟩ :=
    decryptSignalWithSession_ok.mp hdec
  refine ⟨?_, ?_⟩
  · rw [received_pqrState]
    exact partySound_receivePQR h.pqr hpqr
  · rw [received_previousStates]
    exact h.previous

end SignalGo.Session
