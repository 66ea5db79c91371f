import SignalGo.Session.Cipher
import SignalGo.Session.Sound
import SignalGo.Session.Totality

/-!
# Session records that are stored again and again

A record starts with the session of a finished handshake. From then on it is sent from, receives,
takes new sessions in, and between two calls it goes through its bytes. Everything the decoder
checks is an invariant of this, up to the size: `SeenDH` grows with every DH key of the peer, and a
session of 2^32 bytes or more has a wrong length in its frame.

* `Fresh`, `RecordStep`: the records that the two ciphers hold in memory.
* `Durable`: what every session of such a record keeps.
* `record_persistence`: as long as every record that is stored fits, it comes back.
-/

namespace SignalGo.Session

variable {s : Suite} {kem : Spqr.Kem} {w : Protowire}

/-! ## Records in memory -/

/-- A session as the ciphers put it into a record: the handshake is done, and the message that goes
with it has been sent or opened. -/
inductive Fresh (s : Suite) (kem : Spqr.Kem) (w : Protowire) : Session → Prop where
  | initiator {env : Env} {addr : Address} {bundle : PreKeyBundle} {st st' : Store}
      {session session' : Session} {x3msg : X3dh.Message} {plaintext : Bytes}
      {msg : Wire.SignalMessage} :
      isValidPublicKey s.toPrims st.identityKeyPair.publicKey.publicKey = true →
      processPreKeyBundle s env addr bundle st = .ok (session, x3msg) st' →
      encryptSignalMessage s kem w env.spqr session plaintext = .ok (session', msg) →
      Fresh s kem w session'
  | initiatorEnvelope {env : Env} {addr : Address} {bundle : PreKeyBundle} {st st' : Store}
      {session session' : Session} {x3msg : X3dh.Message} {plaintext payload : Bytes} :
      isValidPublicKey s.toPrims st.identityKeyPair.publicKey.publicKey = true →
      processPreKeyBundle s env addr bundle st = .ok (session, x3msg) st' →
      encryptRatchetMessage s session plaintext = .ok (session', payload) →
      Fresh s kem w session'
  | responder {env : Env} {addr : Address} {st st' : Store} {session session' : Session}
      {x3msg : X3dh.Message} {plaintext : Bytes} {msg : Wire.SignalMessage} :
      isValidPublicKey s.toPrims st.identityKeyPair.publicKey.publicKey = true →
      isValidPublicKey s.toPrims x3msg.identityKey.publicKey = true →
      processPreKeyMessage s env addr x3msg st = .ok session st' →
      decryptSignalWithSession s kem env.newRatchet session msg = .ok (session', plaintext) →
      Fresh s kem w session'
  | responderEnvelope {env : Env} {addr : Address} {st st' : Store} {session session' : Session}
      {x3msg : X3dh.Message} {plaintext : Bytes} {msg : Ratchet.Message} :
      isValidPublicKey s.toPrims st.identityKeyPair.publicKey.publicKey = true →
      isValidPublicKey s.toPrims x3msg.identityKey.publicKey = true →
      processPreKeyMessage s env addr x3msg st = .ok session st' →
      ratchetAttempt s (fun _ => env.newRatchet) msg 0 session = .ok (session', plaintext) →
      Fresh s kem w session'

inductive RecordEvent where
  | send
  | sendEnvelope
  | receive
  | receiveEnvelope
  | promote
  | reload

/-- What a call does to a record, and what happens to it between two calls. -/
inductive RecordStep (s : Suite) (kem : Spqr.Kem) (w : Protowire) :
    Record → RecordEvent → Record → Prop where
  | send {r : Record} {rnd : Spqr.Rand} {plaintext : Bytes} {session : Session}
      {msg : Wire.SignalMessage} :
      encryptSignalMessage s kem w rnd r.current plaintext = .ok (session, msg) →
      RecordStep s kem w r .send { r with current := session }
  | sendEnvelope {r : Record} {plaintext payload : Bytes} {session : Session} :
      encryptRatchetMessage s r.current plaintext = .ok (session, payload) →
      RecordStep s kem w r .sendEnvelope { r with current := session }
  | receive {r r' : Record} {rnd : Nat → Except String Key} {msg : Wire.SignalMessage}
      {plaintext : Bytes} :
      r.decryptSignalMessage s kem rnd msg = .ok (r', plaintext) →
      RecordStep s kem w r .receive r'
  | receiveEnvelope {r r' : Record} {rnd : Nat → Except String Key} {msg : Ratchet.Message}
      {plaintext : Bytes} :
      r.decryptRatchetMessage s rnd msg = .ok (r', plaintext) →
      RecordStep s kem w r .receiveEnvelope r'
  | promote {r : Record} {session : Session} :
      Fresh s kem w session → RecordStep s kem w r .promote (r.promote session)
  | reload {r r' : Record} :
      deserializeRecord s.toPrims r.serialize = .ok r' → RecordStep s kem w r .reload r'

/-! ## What every session keeps -/

structure Durable (p : Prims) (session : Session) : Prop where
  sound : Sound p session
  tidy : Ratchet.Tidy session.ratchetState
  localIdentity : isValidPublicKey p session.localIdentity.publicKey = true
  remoteIdentity : isValidPublicKey p session.remoteIdentity.publicKey = true
  version : session.version ≠ 0
  noPrevious : session.previousStates = []

variable {session : Session}

theorem setSessionCiphertextVersion_ne_zero (h : session.version ≠ 0) (version : UInt8) :
    (setSessionCiphertextVersion session version).version ≠ 0 := by
  unfold setSessionCiphertextVersion normalizeCiphertextVersion
  split
  · rename_i v hv
    split at hv
    · rename_i hle
      cases hv
      rintro rfl
      exact absurd hle.1 (by decide)
    · cases hv
  · exact h

variable {p : Prims} {session' : Session}

/-- A session that only changes its two ratchets, and perhaps its version. -/
theorem Durable.of_ratchets (h : Durable p session) (hsound : Sound p session')
    (htidy : Ratchet.Tidy session'.ratchetState)
    (hlocal : session'.localIdentity = session.localIdentity)
    (hremote : session'.remoteIdentity = session.remoteIdentity) (hversion : session'.version ≠ 0)
    (hprevious : session'.previousStates = session.previousStates) : Durable p session' where
  sound := hsound
  tidy := htidy
  localIdentity := hlocal ▸ h.localIdentity
  remoteIdentity := hremote ▸ h.remoteIdentity
  version := hversion
  noPrevious := hprevious.trans h.noPrevious

variable {plaintext : Bytes}

theorem Durable.encrypt {rnd : Spqr.Rand} {msg : Wire.SignalMessage}
    (h : Durable s.toPrims session)
    (henc : encryptSignalMessage s kem w rnd session plaintext = .ok (session', msg)) :
    Durable s.toPrims session' := by
  have hsound := h.sound.encrypt henc
  obtain ⟨state, header, messageKey, pqrState, pqRatchet, salt, hnext, -, -, rfl⟩ :=
    encryptSignalMessage_ok henc
  exact h.of_ratchets hsound (h.tidy.sent hnext) rfl rfl h.version rfl

theorem Durable.encryptEnvelope {payload : Bytes} (h : Durable s.toPrims session)
    (henc : encryptRatchetMessage s session plaintext = .ok (session', payload)) :
    Durable s.toPrims session' := by
  obtain ⟨⟨state, msg⟩, hratchet, hret⟩ := bind_eq_ok.mp henc
  cases hret
  obtain ⟨mk, hnext⟩ := Ratchet.encrypt_ok (mapError_eq_ok.mp hratchet)
  exact h.of_ratchets ⟨h.sound.pqr, h.sound.previous⟩ (h.tidy.sent hnext) rfl rfl h.version rfl

theorem received_version (h : session.version ≠ 0) (msg : Wire.SignalMessage)
    (state : Ratchet.State) (pqrState : Option Spqr.State) :
    (session.received msg state pqrState).version ≠ 0 := by
  unfold received
  split
  · exact setSessionCiphertextVersion_ne_zero h _
  · exact h

theorem setSessionCiphertextVersion_localIdentity (session : Session) (version : UInt8) :
    (setSessionCiphertextVersion session version).localIdentity = session.localIdentity := by
  unfold setSessionCiphertextVersion
  split <;> rfl

theorem setSessionCiphertextVersion_remoteIdentity (session : Session) (version : UInt8) :
    (setSessionCiphertextVersion session version).remoteIdentity = session.remoteIdentity := by
  unfold setSessionCiphertextVersion
  split <;> rfl

theorem received_localIdentity (session : Session) (msg : Wire.SignalMessage)
    (state : Ratchet.State) (pqrState : Option Spqr.State) :
    (session.received msg state pqrState).localIdentity = session.localIdentity := by
  unfold received
  split
  · exact setSessionCiphertextVersion_localIdentity session _
  · rfl

theorem received_remoteIdentity (session : Session) (msg : Wire.SignalMessage)
    (state : Ratchet.State) (pqrState : Option Spqr.State) :
    (session.received msg state pqrState).remoteIdentity = session.remoteIdentity := by
  unfold received
  split
  · exact setSessionCiphertextVersion_remoteIdentity session _
  · rfl

theorem Durable.decrypt {rnd : Except String Key} {msg : Wire.SignalMessage}
    (h : Durable s.toPrims session)
    (hdec : decryptSignalWithSession s kem rnd session msg = .ok (session', plaintext)) :
    Durable s.toPrims session' := by
  have hsound := h.sound.decrypt hdec
  obtain ⟨-, next, messageKey, pqrNext, salt, hadv, -, -, rfl⟩ :=
    decryptSignalWithSession_ok.mp hdec
  refine h.of_ratchets hsound ?_ (received_localIdentity ..) (received_remoteIdentity ..)
    (received_version h.version _ _ _) (received_previousStates ..)
  rw [received_ratchetState]
  exact (Ratchet.advanced_of_advanceForHeader h.tidy hadv).2

theorem Durable.decryptEnvelope {rnd : Nat → Except String Key} {i : Nat} {msg : Ratchet.Message}
    (h : Durable s.toPrims session)
    (hdec : ratchetAttempt s rnd msg i session = .ok (session', plaintext)) :
    Durable s.toPrims session' := by
  obtain ⟨⟨state, plaintext'⟩, hratchet, hret⟩ := bind_eq_ok.mp hdec
  cases hret
  obtain ⟨mk, hadv, -⟩ := Ratchet.decrypt_ok.mp (mapError_eq_ok.mp hratchet)
  exact h.of_ratchets ⟨h.sound.pqr, h.sound.previous⟩
    (Ratchet.advanced_of_advanceForHeader h.tidy hadv).2 rfl rfl h.version rfl

/-! ## New sessions -/

variable {env : Env}

/-- What the builder makes can be stored. -/
theorem durable_buildSession {localIdentity remoteIdentity : IdentityKey} {result : X3dh.Result}
    {isInitiator : Bool} (hlocal : isValidPublicKey s.toPrims localIdentity.publicKey = true)
    (hremote : isValidPublicKey s.toPrims remoteIdentity.publicKey = true)
    (h : buildSession s env localIdentity remoteIdentity result isInitiator = .ok session) :
    Durable s.toPrims session := by
  obtain ⟨state, hstate, hrest⟩ := bind_eq_ok.mp h
  obtain ⟨session', hinit, hret⟩ := bind_eq_ok.mp hrest
  cases hret
  have htidy := Ratchet.tidy_initializeState (mapError_eq_ok.mp hstate)
  have hsound := (sound_newSession state localIdentity remoteIdentity
    result.associatedData).initSessionPQR hinit
  obtain ⟨pqrState, rfl⟩ := initSessionPQR_ok hinit
  have hbase : Durable s.toPrims { newSession state localIdentity remoteIdentity
      result.associatedData with pqrState := pqrState } :=
    ⟨hsound, htidy, hlocal, hremote, nofun, rfl⟩
  refine hbase.of_ratchets (hsound.setVersion _) ?_ (setSessionCiphertextVersion_localIdentity ..)
    (setSessionCiphertextVersion_remoteIdentity ..)
    (setSessionCiphertextVersion_ne_zero hbase.version _)
    (setSessionCiphertextVersion_previousStates ..)
  unfold setSessionCiphertextVersion
  split <;> exact htidy

theorem durable_processPreKeyBundle {addr : Address} {bundle : PreKeyBundle} {st st' : Store}
    {x3msg : X3dh.Message}
    (hlocal : isValidPublicKey s.toPrims st.identityKeyPair.publicKey.publicKey = true)
    (h : processPreKeyBundle s env addr bundle st = .ok (session, x3msg) st') :
    Durable s.toPrims session := by
  obtain ⟨-, result, hresult, hbuild, -, -⟩ := processPreKeyBundle_ok.mp h
  obtain ⟨terms⟩ := X3dh.Initiator.processPreKeyBundle_ok.mp hresult
  exact durable_buildSession hlocal (identityKey_of_validate terms.valid) hbuild

theorem durable_processPreKeyMessage {addr : Address} {msg : X3dh.Message} {st st' : Store}
    (hlocal : isValidPublicKey s.toPrims st.identityKeyPair.publicKey.publicKey = true)
    (hremote : isValidPublicKey s.toPrims msg.identityKey.publicKey = true)
    (h : processPreKeyMessage s env addr msg st = .ok session st') :
    Durable s.toPrims session := by
  obtain ⟨-, -, result, st1, -, hbuild, -⟩ := processPreKeyMessage_ok.mp h
  exact durable_buildSession hlocal hremote hbuild

theorem Fresh.durable (h : Fresh s kem w session) :
    Durable s.toPrims session := by
  cases h with
  | initiator hlocal hprocess henc =>
    exact (durable_processPreKeyBundle hlocal hprocess).encrypt henc
  | initiatorEnvelope hlocal hprocess henc =>
    exact (durable_processPreKeyBundle hlocal hprocess).encryptEnvelope henc
  | responder hlocal hremote hprocess hdec =>
    exact (durable_processPreKeyMessage hlocal hremote hprocess).decrypt hdec
  | responderEnvelope hlocal hremote hprocess hdec =>
    exact (durable_processPreKeyMessage hlocal hremote hprocess).decryptEnvelope hdec

/-! ## What every record keeps -/

structure Record.Durable (p : Prims) (r : Record) : Prop where
  limit : r.maxArchived = defaultMaxArchivedSessions
  bounded : r.archived.length ≤ r.maxArchived
  sessions : ∀ session ∈ r.sessions, session.Durable p

variable {r : Record}

theorem Record.Durable.current (h : r.Durable p) : r.current.Durable p :=
  h.sessions _ List.mem_cons_self

theorem Record.Durable.setCurrent (h : r.Durable p) (hsession : session.Durable p) :
    Record.Durable p { r with current := session } where
  limit := h.limit
  bounded := h.bounded
  sessions session' hmem := by
    rcases List.mem_cons.mp hmem with rfl | hmem
    · exact hsession
    · exact h.sessions session' (List.mem_cons_of_mem _ hmem)

/-- The current session goes to the front of what is left of the archive. -/
theorem Record.Durable.pushed (h : r.Durable p) {next : Session} (hnext : next.Durable p)
    {rest : List Session} (hrest : ∀ session ∈ rest, session ∈ r.archived) :
    Record.Durable p { r with
      current := next.clone
      archived := (r.current.clone :: rest).take r.maxArchived } where
  limit := h.limit
  bounded := List.length_take_le _ _
  sessions session hmem := by
    rw [hnext.sound.clone, h.current.sound.clone] at hmem
    rcases List.mem_cons.mp hmem with rfl | hmem
    · exact hnext
    · rcases List.mem_cons.mp (List.mem_of_mem_take hmem) with rfl | hmem
      · exact h.current
      · exact h.sessions session (List.mem_cons_of_mem _ (hrest session hmem))

theorem durable_newRecord (h : session.Durable p) :
    (newRecord session defaultMaxArchivedSessions).Durable p where
  limit := rfl
  bounded := Nat.zero_le _
  sessions session' hmem := by
    cases List.mem_singleton.mp hmem
    show session.clone.Durable p
    rwa [h.sound.clone]

/-- The loop over the sessions, for a try that keeps what a session has to keep. -/
theorem Record.Durable.decryptWith {r' : Record} {attempt : Attempt} (h : r.Durable p)
    (hattempt : ∀ i session session' plaintext, session.Durable p →
      attempt i session = .ok (session', plaintext) → session'.Durable p)
    (hdec : r.decryptWith attempt = .ok (r', plaintext)) : r'.Durable p := by
  obtain ⟨i, next, hsel, rfl⟩ := decryptWith_ok_iff.mp hdec
  obtain ⟨session, hs, hok⟩ := hsel.accepts
  have hnext := hattempt i session next plaintext (h.sessions session (List.mem_of_getElem? hs)) hok
  cases i with
  | zero => exact h.setCurrent hnext
  | succ k => exact h.pushed hnext fun session hmem => List.mem_of_mem_eraseIdx hmem

theorem Durable.restored (h : session.Durable p) :
    session.restored.Durable p := by
  refine h.of_ratchets ⟨fun state hstate => ?_, h.sound.previous⟩ h.tidy rfl rfl h.version rfl
  obtain ⟨state', hstate', hkept⟩ := Option.bind_eq_some_iff.mp hstate
  split at hkept
  · cases hkept
  · cases hkept
    exact h.sound.pqr state hstate'

theorem Record.Durable.restored (h : r.Durable p) :
    r.restored.Durable p where
  limit := h.limit
  bounded := (List.length_map _).trans_le h.bounded
  sessions session hmem := by
    obtain ⟨session', hmem', rfl⟩ : ∃ session' ∈ r.sessions, session'.restored = session :=
      List.mem_map.mp (show session ∈ r.sessions.map Session.restored from hmem)
    exact (h.sessions session' hmem').restored

/-! ## What fits -/

/-- The bytes of a stored session: 266 that every session has, and those of the parts that differ
in size. -/
def storedSize (session : Session) : Nat :=
  266 + session.associatedData.length
    + ((session.pqrState.map Spqr.State.serialize).getD []).length
    + (if session.ratchetState.dhs.isSome then 64 else 0)
    + (if session.ratchetState.dhr.isSome then 32 else 0)
    + 68 * session.ratchetState.mkSkipped.size
    + 32 * session.ratchetState.seenDH.size

/-- Every session of the record fits the length field in front of it. -/
def Record.Storable (r : Record) : Prop := ∀ session ∈ r.sessions, storedSize session < 2 ^ 32

theorem length_encodeSkipped (entry : Ratchet.SkippedKey × Key) :
    (Ratchet.encodeSkipped entry).length = 68 := by
  simp [Ratchet.encodeSkipped]

theorem length_ratchetState (state : Ratchet.State) : state.serialize.length =
    118 + (if state.dhs.isSome then 64 else 0) + (if state.dhr.isSome then 32 else 0)
      + 68 * state.mkSkipped.size + 32 * state.seenDH.size := by
  have hdhs : ((state.dhs.map Ratchet.encodeKeyPair).getD []).length =
      if state.dhs.isSome then 64 else 0 := by
    cases state.dhs <;> simp [Ratchet.encodeKeyPair]
  have hdhr : ((state.dhr.map ByteArr.toBytes).getD []).length =
      if state.dhr.isSome then 32 else 0 := by
    cases state.dhr <;> simp
  have hskipped : (state.mkSkipped.toList.flatMap Ratchet.encodeSkipped).length =
      68 * state.mkSkipped.size := by
    simp [List.length_flatMap, length_encodeSkipped, Nat.mul_comm]
  have hseen : (state.seenDH.toList.flatMap ByteArr.toBytes).length = 32 * state.seenDH.size := by
    simp [List.length_flatMap, Nat.mul_comm]
  simp only [Ratchet.State.serialize, List.length_append, hdhs, hdhr, hskipped, hseen,
    ByteArr.length_toBytes, length_putUint32, List.length_cons, List.length_nil]
  omega

theorem length_serializeSession (h : session.previousStates = []) :
    (serializeSession session).length = storedSize session := by
  simp only [serializeSession, h, List.flatMap_nil, List.length_append, length_framed,
    IdentityKey.length_serialize, length_putUint32, List.length_cons, List.length_nil,
    length_ratchetState, storedSize]
  omega

/-- A state of the post-quantum ratchet is no shorter than its parts. -/
theorem fits_of_length {state : Spqr.State} {v1 : Spqr.V1States} (hv1 : state.v1 = some v1)
    (henabled : state.version ≠ Spqr.versionDisabled) (h : state.serialize.length < 2 ^ 32) :
    state.Fits := by
  rw [Spqr.State.serialize, if_neg henabled, hv1] at h
  simp only [List.length_append] at h
  constructor
  · intro vn hvn
    rw [hvn] at h
    simp only [Option.map_some, Option.getD_some, Spqr.appendNegotiation, Spqr.appendBytes,
      List.length_append] at h
    omega
  · intro c hc
    rw [hc] at h
    simp only [Option.map_some, Option.getD_some, Spqr.appendBytes, List.length_append,
      Spqr.length_serializeChain] at h
    omega

/-- **A session that keeps the invariant and is short enough passes every check of the decoder.** -/
theorem Durable.fits (h : session.Durable p) (hsize : storedSize session < 2 ^ 32) :
    session.Fits p where
  localIdentity := h.localIdentity
  remoteIdentity := h.remoteIdentity
  version := h.version
  ratchet := ⟨h.tidy.size_le, by unfold storedSize at hsize; omega⟩
  pqr state hstate henabled := by
    rcases h.sound.pqr state hstate with rfl | ⟨l, n, v1, hl, hok⟩
    · exact absurd rfl henabled
    · refine Spqr.deserializeState_serialize (hok.restorable hl)
        (fits_of_length hok.state henabled ?_)
      unfold storedSize at hsize
      rw [hstate] at hsize
      simp only [Option.map_some, Option.getD_some] at hsize
      omega
  previousCount := by simp [h.noPrevious]
  previous := by simp [h.noPrevious]
  size := (length_serializeSession h.noPrevious).trans_lt hsize

theorem Record.Durable.deserialize (h : r.Durable p) (hsize : r.Storable) :
    deserializeRecord p r.serialize = .ok r.restored := by
  refine deserializeRecord_serialize ⟨?_, ?_, h.bounded, fun session hmem => ?_⟩
  · rw [h.limit]
    decide
  · rw [h.limit]
    decide
  · exact (h.sessions session hmem).fits (hsize session hmem)

/-! ## Runs -/

/-- **One step.** -/
theorem Record.Durable.step {r' : Record} {e : RecordEvent} (h : r.Durable s.toPrims)
    (hsize : r.Storable) (hstep : RecordStep s kem w r e r') : r'.Durable s.toPrims := by
  cases hstep with
  | send henc => exact h.setCurrent (h.current.encrypt henc)
  | sendEnvelope henc => exact h.setCurrent (h.current.encryptEnvelope henc)
  | receive hdec =>
    exact h.decryptWith (fun i session session' plaintext hs hok => hs.decrypt hok) hdec
  | receiveEnvelope hdec =>
    exact h.decryptWith (fun i session session' plaintext hs hok => hs.decryptEnvelope hok) hdec
  | promote hfresh => exact h.pushed hfresh.durable fun session hmem => hmem
  | reload hload =>
    rw [h.deserialize hsize] at hload
    cases hload
    exact h.restored

/-- **Persistence.** A record that begins with the session of a handshake and is then sent from,
received with, given new sessions and stored in any order comes back from its bytes, up to
post-quantum ratchets that are disabled, as long as every session in it fits the four bytes of its
length. -/
theorem record_persistence (s : Suite) (kem : Spqr.Kem) (w : Protowire) {session : Session}
    {es : List RecordEvent} {r : Record} (hfresh : Fresh s kem w session)
    (hrun : Run (fun r e r' => RecordStep s kem w r e r' ∧ r.Storable)
      (newRecord session defaultMaxArchivedSessions) es r)
    (hsize : r.Storable) : deserializeRecord s.toPrims r.serialize = .ok r.restored := by
  have hdurable : r.Durable s.toPrims :=
    hrun.invariant (fun h hstep => h.step hstep.2 hstep.1) (durable_newRecord hfresh.durable)
  exact hdurable.deserialize hsize

/-! ## A session that is too long -/

variable {n : Nat}

section Overlong

open Decoder

/-- Below the limit, every session that is read goes into the archive. -/
theorem length_readArchived {data : Bytes} {maxArchived pos pos' : Nat}
    {archived archived' : List Session}
    (h : readArchived p maxArchived n archived data pos = .ok (archived', pos')) :
    archived.length ≤ archived'.length ∧
      (0 < n → archived.length < maxArchived → archived.length < archived'.length) := by
  induction n generalizing archived pos with
  | zero =>
    cases h
    exact ⟨le_rfl, nofun⟩
  | succ n ih =>
    obtain ⟨block, pos1, -, hrest⟩ := bind_apply_eq_ok.mp h
    split at hrest
    · obtain ⟨session, pos2, -, hloop⟩ := bind_apply_eq_ok.mp hrest
      have hle := (ih hloop).1
      rw [List.length_append, List.length_singleton] at hle
      exact ⟨by omega, fun _ _ => by omega⟩
    · rename_i hfull
      exact ⟨(ih hrest).1, fun _ hlt => absurd hlt hfull⟩

/-- Bytes that decode to a record without an archive end right behind its current session. -/
theorem length_of_deserializeRecord {data : Bytes} (h : deserializeRecord p data = .ok r)
    (hlimit : 0 < r.maxArchived) (hnone : r.archived = []) :
    ∃ n : UInt32, uint32At (ε := Err) data 7 = .ok n ∧ data.length = 13 + n.toNat := by
  unfold deserializeRecord at h
  split_ifs at h
  obtain ⟨magic, pos1, hmagic, h1⟩ := bind_apply_eq_ok.mp (run_eq_ok.mp h)
  obtain ⟨-, hpos1⟩ := bytes_eq_ok.mp hmagic
  obtain ⟨version, pos2, hversion, h2⟩ := bind_apply_eq_ok.mp h1
  obtain ⟨-, hpos2⟩ := u8_eq_ok.mp hversion
  split at h2
  · cases h2
  obtain ⟨_, pos3, hneed, h3⟩ := bind_apply_eq_ok.mp h2
  obtain ⟨-, hpos3⟩ := need_eq_ok.mp hneed
  obtain ⟨limit, pos4, hu16, h4⟩ := bind_apply_eq_ok.mp h3
  obtain ⟨-, hpos4⟩ := u16_eq_ok.mp hu16
  obtain ⟨block, pos5, hblock, h5⟩ := bind_apply_eq_ok.mp h4
  obtain ⟨n, hn, -, -, hpos5⟩ := readNonEmpty_eq_ok.mp hblock
  obtain ⟨session, pos6, hlift, h6⟩ := bind_apply_eq_ok.mp h5
  obtain ⟨_, -, hret⟩ := bind_eq_ok.mp hlift
  cases hret
  obtain ⟨count, pos7, hcount, h7⟩ := bind_apply_eq_ok.mp h6
  obtain ⟨-, hpos7⟩ := u16_eq_ok.mp hcount
  obtain ⟨archived, pos8, hloop, h8⟩ := bind_apply_eq_ok.mp h7
  cases h8
  -- an archive that stays empty has no entries in the bytes
  have hcount0 : count.toNat = 0 := by
    by_contra hne
    have hlt := (length_readArchived hloop).2 (Nat.pos_of_ne_zero hne) hlimit
    simp only [show archived = [] from hnone, List.length_nil, lt_self_iff_false] at hlt
  rw [hcount0] at hloop
  cases hloop
  subst hpos1 hpos2 hpos3 hpos4 hpos5
  exact ⟨n, hn, by omega⟩

/-- A record with one session of 2^32 bytes or more does not come back. -/
theorem not_restored_of_overlong (h : r.Durable p) (hnone : r.archived = [])
    (hlong : 2 ^ 32 ≤ storedSize r.current) : deserializeRecord p r.serialize ≠ .ok r.restored := by
  intro hload
  have hlen := length_serializeSession h.current.noPrevious
  have hser : r.serialize = recordSerializeMagic ++ [recordSerializeVersion]
      ++ putUint16 (.ofNat r.maxArchived) ++ putUint32 (.ofNat (serializeSession r.current).length)
      ++ (serializeSession r.current ++ putUint16 0) := by
    have hmax : r.maxArchived ≠ 0 := by rw [h.limit]; decide
    simp [Record.serialize, hmax, hnone, framed]
  have hcount : uint32At (ε := Err) r.serialize 7 =
      .ok (.ofNat (serializeSession r.current).length) :=
    uint32At_eq _ _ _ hser rfl
  obtain ⟨n, hn, hend⟩ := length_of_deserializeRecord hload
    (show 0 < r.maxArchived by rw [h.limit]; decide) (by simp [Record.restored, hnone])
  rw [hcount] at hn
  cases hn
  have htotal : r.serialize.length = 13 + (serializeSession r.current).length := by
    simp [hser, recordSerializeMagic]
    omega
  rw [UInt32.toNat_ofNat'] at hend
  omega

end Overlong

/-! ### A peer that changes its key with every message -/

/-- The DH key of message `n`. -/
def freshKey (n : Nat) : Key := .ofBytes 32 (putUint32 (.ofNat n) ++ List.replicate 28 1)

def freshMessage (n : Nat) : Ratchet.Message where
  header := { dh := freshKey n, pn := 0, n := 0 }
  ciphertext := List.replicate 12 0

theorem toBytes_freshKey (n : Nat) :
    (freshKey n).toBytes = putUint32 (.ofNat n) ++ List.replicate 28 1 :=
  ByteArr.toBytes_ofBytes (by simp)

theorem freshKey_injective {m : Nat} (hm : m < 2 ^ 32) (hn : n < 2 ^ 32)
    (h : freshKey m = freshKey n) : m = n := by
  have hread := congrArg (fun k : Key => readUint32 (ε := Err) k.toBytes) h
  simp only [toBytes_freshKey, readUint32_putUint32, Except.ok.injEq] at hread
  have hnat := congrArg UInt32.toNat hread
  rwa [UInt32.toNat_ofNat_of_lt' hm, UInt32.toNat_ofNat_of_lt' hn] at hnat

/-- A header under a key that was not seen before is accepted. -/
theorem advance_fresh {state : Ratchet.State} {kp : KeyPair} {k : Key} (htidy : Ratchet.Tidy state)
    (hdhs : state.dhs = some kp) (hk : k ∉ state.seenDH) :
    ∃ next mk, Ratchet.advanceForHeader toyPrims (.ok (Key.fill 8)) state ⟨k, 0, 0⟩ =
      .ok (next, mk) ∧ next.dhs = some (toyPair 8) := by
  obtain ⟨d, hd, hseen⟩ := htidy.current
  have hne : state.dhr ≠ some k := fun heq => hk (Option.some.inj (hd.symm.trans heq) ▸ hseen)
  have hstored : state.mkSkipped[Ratchet.skippedKeyForHeader ⟨k, 0, 0⟩]? = none :=
    Std.ExtTreeMap.getElem?_eq_none fun hmem => hne (htidy.stored _ hmem).1
  -- a ratchet key that was not seen passes the replay check
  have hreplay : Ratchet.checkReplay state ⟨k, 0, 0⟩ = .ok () := by
    rw [Ratchet.checkReplay_ok]
    intro d' hd'
    exact ⟨fun heq => absurd (hd'.trans (congrArg some heq.symm)) hne, fun _ => hk⟩
  obtain ⟨out, hout⟩ := Ratchet.dh_toy kp.privateKey k
  obtain ⟨outSend, hsend⟩ := Ratchet.dh_toy (toyPair 8).privateKey k
  have hratchet : Ratchet.dhRatchet toyPrims (.ok (Key.fill 8)) state k =
      .ok (state.ratcheted toyPrims k (toyPair 8) out outSend) :=
    Ratchet.dhRatchet_ok.mpr ⟨kp, toyPair 8, out, outSend, hdhs, hout, rfl, hsend, rfl⟩
  have hcatch : Ratchet.catchUp toyPrims (.ok (Key.fill 8)) state ⟨k, 0, 0⟩ =
      .ok (state.ratcheted toyPrims k (toyPair 8) out outSend) := by
    rw [Ratchet.catchUp, if_neg hne, Ratchet.skipMessageKeys_self UInt32.zero_le, ok_bind, hratchet]
  have hckr : (Ratchet.rootStep toyPrims state.rk out).2 = Key.fill 0xff := rfl
  obtain ⟨next, mk, htake, hnext⟩ : ∃ next mk,
      Ratchet.takeKey toyPrims (state.ratcheted toyPrims k (toyPair 8) out outSend) =
        .ok (next, mk) ∧ next.dhs = some (toyPair 8) := by
    have hnr : (0 : UInt32) ≠ Ratchet.maxUint32 := by decide
    refine ⟨_, _, Ratchet.takeKey_ok.mpr ⟨?_, hnr, rfl, rfl⟩, rfl⟩
    show (Ratchet.rootStep toyPrims state.rk out).2 ≠ .zero
    rw [hckr]
    decide
  refine ⟨next, mk, ?_, hnext⟩
  rw [Ratchet.advanceForHeader, hstored]
  simp only [Ratchet.advanceChain, hreplay, ok_bind, hcatch]
  rw [Ratchet.skipMessageKeys_self UInt32.zero_le, ok_bind, htake]

theorem seenDH_of_fresh {state next : Ratchet.State} {header : Ratchet.Header} {mk : Key}
    {rnd : Except String Key} (htidy : Ratchet.Tidy state) (hk : header.dh ∉ state.seenDH)
    (hadv : Ratchet.advanceForHeader p rnd state header = .ok (next, mk)) :
    next.seenDH = state.seenDH.insert header.dh := by
  obtain ⟨d, hd, hseen⟩ := htidy.current
  have hne : state.dhr ≠ some header.dh := fun heq =>
    hk (Option.some.inj (hd.symm.trans heq) ▸ hseen)
  cases (Ratchet.advanced_of_advanceForHeader htidy hadv).1 with
  | fromStore hmem _ => exact absurd (htidy.stored _ hmem).1 hne
  | sameDH hsame _ _ _ _ _ => exact absurd hsame hne
  | newDH _ _ _ hiff _ _ =>
    refine Std.ExtTreeSet.ext_mem fun k => ?_
    rw [hiff, Std.ExtTreeSet.mem_insert, Std.LawfulEqOrd.compare_eq_iff_eq, eq_comm]

/-- After `n` messages under fresh keys: one session, which has seen `n` keys and the first. -/
structure Grown (n : Nat) (r : Record) : Prop where
  durable : r.Durable toyPrims
  alone : r.archived = []
  pair : ∃ kp, r.current.ratchetState.dhs = some kp
  seen : n ≤ r.current.ratchetState.seenDH.size
  unseen : ∀ m, n ≤ m → m < 2 ^ 32 → freshKey m ∉ r.current.ratchetState.seenDH

/-- One more message, under a ratchet key that was not seen before. -/
theorem Grown.receive (h : Grown n r) (hn : n < 2 ^ 32) :
    ∃ r', RecordStep toySuite Spqr.toyKem varintWire r .receiveEnvelope r' ∧ Grown (n + 1) r' := by
  obtain ⟨kp, hkp⟩ := h.pair
  obtain ⟨next, mk, hadv, hnext⟩ := advance_fresh h.durable.current.tidy hkp (h.unseen n le_rfl hn)
  have hopen : ∃ plaintext, Ratchet.decryptWithMessageKey toyPrims mk (freshMessage n)
      r.current.associatedData = .ok plaintext := ⟨_, rfl⟩
  obtain ⟨plaintext, hopen⟩ := hopen
  have hdec : Ratchet.decrypt toyPrims (.ok (Key.fill 8)) r.current.ratchetState (freshMessage n)
      r.current.associatedData = .ok (next, plaintext) :=
    Ratchet.decrypt_ok.mpr ⟨mk, hadv, hopen⟩
  have hattempt : ratchetAttempt toySuite (fun _ => .ok (Key.fill 8)) (freshMessage n) 0 r.current =
      .ok ({ r.current with ratchetState := next }, plaintext) := by
    show ((Ratchet.decrypt toyPrims _ _ _ _).mapError _ >>= _) = _
    rw [hdec]
    rfl
  have hreceive : r.decryptRatchetMessage toySuite (fun _ => .ok (Key.fill 8)) (freshMessage n) =
      .ok ({ r with current := { r.current with ratchetState := next } }, plaintext) := by
    rw [Record.decryptRatchetMessage, Record.decryptWith, hattempt]
  have hfresh := h.unseen n le_rfl hn
  have hset : next.seenDH = r.current.ratchetState.seenDH.insert (freshKey n) :=
    seenDH_of_fresh h.durable.current.tidy hfresh hadv
  refine ⟨_, .receiveEnvelope hreceive, h.durable.setCurrent (h.durable.current.decryptEnvelope
    hattempt), h.alone, ⟨_, hnext⟩, ?_, fun m hm hlt => ?_⟩
  · show n + 1 ≤ next.seenDH.size
    rw [hset, Std.ExtTreeSet.size_insert, if_neg (mt Std.ExtTreeSet.mem_iff_contains.mpr hfresh)]
    exact Nat.succ_le_succ h.seen
  · show freshKey m ∉ next.seenDH
    rw [hset, Std.ExtTreeSet.mem_insert, Std.LawfulEqOrd.compare_eq_iff_eq]
    rintro (heq | hmem)
    · have := freshKey_injective hn hlt heq
      omega
    · exact h.unseen m (by omega) hlt hmem

theorem exists_grown {r0 : Record} (h0 : Grown 0 r0) (n : Nat) (hn : n ≤ 2 ^ 32) :
    ∃ es r, Run (RecordStep toySuite Spqr.toyKem varintWire) r0 es r ∧ Grown n r := by
  induction n with
  | zero => exact ⟨[], r0, .nil, h0⟩
  | succ n ih =>
    obtain ⟨es, r, hrun, hr⟩ := ih (by omega)
    obtain ⟨r', hstep, hr'⟩ := hr.receive (by omega)
    exact ⟨_, r', hrun.snoc hstep, hr'⟩

/-- The session of an initiator with the sample bundle, after a message without text. It can send
another. -/
theorem plain_fresh : ∃ session, Fresh toySuite Spqr.toyKem varintWire session ∧
    (∃ kp, session.ratchetState.dhs = some kp) ∧
    session.ratchetState.seenDH = (∅ : Std.ExtTreeSet Key).insert (toyPair 4).publicKey ∧
    session.pqrState = none ∧ session.version = Wire.ciphertextMessagePreKyberVersion ∧
    storedSize session < 2 ^ 32 ∧ ∃ next payload,
      encryptRatchetMessage toySuite session [1] = .ok (next, payload) ∧
      storedSize next < 2 ^ 32 := by
  obtain ⟨session, x3msg, st', hprocess, hkp, hseen, hcks⟩ : ∃ session x3msg st',
      processPreKeyBundle toySuite toyEnv toyAddress plainBundle plainStore =
        .ok (session, x3msg) st' ∧ (∃ kp, session.ratchetState.dhs = some kp) ∧
      session.ratchetState.seenDH = (∅ : Std.ExtTreeSet Key).insert (toyPair 4).publicKey ∧
      ∃ session' payload, encryptRatchetMessage toySuite session [] = .ok (session', payload) ∧
        session'.ratchetState.dhs = session.ratchetState.dhs ∧
        session'.ratchetState.seenDH = session.ratchetState.seenDH ∧ session'.pqrState = none ∧
        session'.version = Wire.ciphertextMessagePreKyberVersion ∧ storedSize session' < 2 ^ 32 ∧
        ∃ next payload, encryptRatchetMessage toySuite session' [1] = .ok (next, payload) ∧
          storedSize next < 2 ^ 32 :=
    ⟨_, _, _, rfl, ⟨_, rfl⟩, rfl, _, _, rfl, rfl, rfl, rfl, rfl, by decide, _, _, rfl, by decide⟩
  obtain ⟨session', payload, henc, hdhs, hseen', hrest⟩ := hcks
  exact ⟨session', .initiatorEnvelope rfl hprocess henc, hdhs ▸ hkp, hseen'.trans hseen, hrest⟩

theorem freshKey_unseen (m : Nat) :
    freshKey m ∉ (∅ : Std.ExtTreeSet Key).insert (toyPair 4).publicKey := by
  rw [Std.ExtTreeSet.mem_insert, Std.LawfulEqOrd.compare_eq_iff_eq]
  rintro (heq | hmem)
  · -- the last but one byte tells them apart
    have hbyte := congrArg (fun k : Key => k.toBytes[30]?) heq
    rw [toBytes_freshKey] at hbyte
    cases hbyte
  · exact absurd hmem Std.ExtTreeSet.not_mem_empty

theorem grown_newRecord (hfresh : Fresh toySuite Spqr.toyKem varintWire session)
    (hkp : ∃ kp, session.ratchetState.dhs = some kp) (hseen : session.ratchetState.seenDH =
      (∅ : Std.ExtTreeSet Key).insert (toyPair 4).publicKey) :
    Grown 0 (newRecord session defaultMaxArchivedSessions) := by
  have hclone : session.clone = session := hfresh.durable.sound.clone
  refine ⟨durable_newRecord hfresh.durable, rfl, ?_, Nat.zero_le _, fun m _ _ => ?_⟩
  · show ∃ kp, session.clone.ratchetState.dhs = some kp
    rwa [hclone]
  · show freshKey m ∉ session.clone.ratchetState.seenDH
    rw [hclone, hseen]
    exact freshKey_unseen m

/-- A record that is sent from and then gets a second session. -/
theorem record_persistence_promoted : ∃ session r, Fresh toySuite Spqr.toyKem varintWire session ∧
    Run (fun r e r' => RecordStep toySuite Spqr.toyKem varintWire r e r' ∧ r.Storable)
      (newRecord session defaultMaxArchivedSessions) [.sendEnvelope, .promote] r ∧
    r.sessions.length = 2 ∧ deserializeRecord toyPrims r.serialize = .ok r.restored := by
  obtain ⟨session, hfresh, -, -, -, -, hsize, next, payload, henc, hnext⟩ := plain_fresh
  have hclone : session.clone = session := hfresh.durable.sound.clone
  have hclone' : next.clone = next := (hfresh.durable.encryptEnvelope henc).sound.clone
  let sent : Record := { newRecord session defaultMaxArchivedSessions with current := next }
  have hsessions : (sent.promote session).sessions = [session, next] := by
    simp [sent, Record.sessions, Record.promote, newRecord, hclone, hclone',
      defaultMaxArchivedSessions]
  have hsend : encryptRatchetMessage toySuite session.clone [1] = .ok (next, payload) := by
    rw [hclone, henc]
  have hrun : Run (fun r e r' => RecordStep toySuite Spqr.toyKem varintWire r e r' ∧ r.Storable)
      (newRecord session defaultMaxArchivedSessions) [.sendEnvelope, .promote]
      (sent.promote session) := by
    refine (Run.single ⟨.sendEnvelope hsend, ?_⟩).snoc ⟨.promote hfresh, ?_⟩
    · simpa [Record.Storable, Record.sessions, newRecord, sent] using hnext
    · simpa [Record.Storable, Record.sessions, newRecord, hclone] using hsize
  refine ⟨session, _, hfresh, hrun, by rw [hsessions]; rfl,
    record_persistence toySuite Spqr.toyKem varintWire hfresh hrun ?_⟩
  simpa [Record.Storable, hsessions] using ⟨hsize, hnext⟩

/-- 134 million messages, each under a new DH key of the peer: the length of the session does not
fit its field any more, and its record is lost. -/
theorem record_persistence_overlong : ∃ session es r,
    Fresh toySuite Spqr.toyKem varintWire session ∧
    Run (RecordStep toySuite Spqr.toyKem varintWire)
      (newRecord session defaultMaxArchivedSessions) es r ∧
    deserializeRecord toyPrims r.serialize ≠ .ok r.restored := by
  obtain ⟨session, hfresh, hkp, hseen, -⟩ := plain_fresh
  obtain ⟨es, r, hrun, hr⟩ := exists_grown (grown_newRecord hfresh hkp hseen) (2 ^ 27) (by decide)
  refine ⟨session, es, r, hfresh, hrun, not_restored_of_overlong hr.durable hr.alone ?_⟩
  have hsize := hr.seen
  unfold storedSize
  omega

end SignalGo.Session
