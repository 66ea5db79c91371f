import SignalGo.Session.Builder
import SignalGo.Session.Serialize
import SignalGo.X3dh.Agreement

/-!
# Wire cipher

`WireCipher` over the in-memory store: every call loads the session record of the address, works
on it in memory, and stores it again when nothing has failed. A pre-key message is tried on the
record first; only when no session takes it, and none reports it as a duplicate, does it start a
session of its own.

The functions that load and store the record are those of the older `Cipher` as well.
-/

namespace SignalGo.Session

open Effect

variable (s : Suite) (kem : Spqr.Kem) (w : Protowire) (env : Env) (addr : Address)

def noSession : Fault Err := .err (.wrap .noSession s!"no session for {addr.text}")

/-! ## The stored record -/

/-- `loadRecordOptional`; an entry without bytes counts as none. -/
def loadRecordOptional : StoreM (Option Record) := do
  match ← reads (·.sessions[addr]?) with
  | none => return none
  | some data =>
      if data.length = 0 then return none
      else do
        let record ← lift (mapFault
          (fun e => invalid s!"deserialize session record: {e.text}")
          (deserializeRecord s.toPrims data))
        return some record

def loadRecordRequired : StoreM Record := do
  match ← loadRecordOptional s addr with
  | none => fail (noSession addr)
  | some record => return record

section Loading

variable {s addr}

theorem keeps_loadRecordOptional : Keeps id (loadRecordOptional s addr) := by
  refine (Keeps.reads _).bind fun found => ?_
  cases found with
  | none => exact .pure _
  | some data => exact .ite (fun _ => .pure _) fun _ => (Keeps.lift _).bind fun r => .pure _

theorem keeps_loadRecordRequired : Keeps id (loadRecordRequired s addr) := by
  refine keeps_loadRecordOptional.bind fun record => ?_
  cases record with
  | none => exact .fail _
  | some record => exact .pure _

end Loading

def persistRecord (record : Record) : StoreM Unit := do
  update (Store.storeSession addr record.serialize)
  update (Store.enforceSessionLimit env.pick addr)

/-- The store after `persistRecord`. -/
def persisted (env : Env) (addr : Address) (record : Record) (st : Store) : Store :=
  (st.storeSession addr record.serialize).enforceSessionLimit env.pick addr

theorem persistRecord_ok {env : Env} {addr : Address} {record : Record} {out out' : Bytes}
    {st st' : Store} :
    (do persistRecord env addr record; return out : StoreM Bytes) st = .ok out' st' ↔
      out' = out ∧ st' = persisted env addr record st := by
  constructor
  · intro h
    cases h
    exact ⟨rfl, rfl⟩
  · rintro ⟨rfl, rfl⟩
    rfl

/-! ## Encryption -/

/-- `WireCipher.Encrypt`. -/
def encrypt (plaintext : Bytes) : StoreM Bytes := do
  let record ← loadRecordRequired s addr
  let (session, msg) ← lift (mapFault (.context "session encrypt")
    (encryptSignalMessage s kem w env.spqr record.current plaintext))
  persistRecord env addr { record with current := session }
  return msg.serialized

/-- `WireCipher.EncryptWithPreKeyBundle`. -/
def encryptWithPreKeyBundle (bundle : PreKeyBundle) (plaintext : Bytes) : StoreM Bytes := do
  if ← reads fun st => st.sessions.contains addr then
    fail (.err (.wrap .staleKeyExchange s!"session already exists for {addr.text}"))
  else do
    let (session, x3msg) ← processPreKeyBundle s env addr bundle
    let (session, signalMsg) ← lift (mapFault (.context "session encrypt")
      (encryptSignalMessage s kem w env.spqr session plaintext))
    let registrationID ← reads (·.localRegistrationID)
    let preKeyMsg ← lift ((Wire.newPreKeySignalMessage w (ciphertextVersionForSession session)
      registrationID x3msg.preKeyID x3msg.signedPreKeyID x3msg.kyberPreKeyID x3msg.kyberCiphertext
      x3msg.ephemeralKey x3msg.identityKey signalMsg).mapError .err)
    persistRecord env addr (newRecord session defaultMaxArchivedSessions)
    return preKeyMsg.serialized

section Encryption

variable {s kem w env addr} {st st' : Store} {plaintext out : Bytes}

/-- What a successful `Encrypt` did. -/
theorem encrypt_ok (h : encrypt s kem w env addr plaintext st = .ok out st') :
    ∃ record session msg, loadRecordRequired s addr st = .ok record st ∧
      encryptSignalMessage s kem w env.spqr record.current plaintext = .ok (session, msg) ∧
      out = msg.serialized ∧ st' = persisted env addr { record with current := session } st := by
  obtain ⟨record, st1, hload, hrest⟩ := Effect.bind_eq_ok.mp h
  obtain rfl : st1 = st := keeps_loadRecordRequired.of_ok hload
  obtain ⟨⟨session, msg⟩, st2, hlift, hpersist⟩ := Effect.bind_eq_ok.mp hrest
  obtain ⟨henc, rfl⟩ := lift_eq_ok.mp hlift
  obtain ⟨hout, hst⟩ := persistRecord_ok.mp hpersist
  exact ⟨record, session, msg, hload, mapError_eq_ok.mp henc, hout, hst⟩

/-- What a successful `EncryptWithPreKeyBundle` did. -/
theorem encryptWithPreKeyBundle_ok {bundle : PreKeyBundle}
    (h : encryptWithPreKeyBundle s kem w env addr bundle plaintext st = .ok out st') :
    st.sessions.contains addr = false ∧ ∃ session x3msg st1 session' signalMsg preKeyMsg,
      processPreKeyBundle s env addr bundle st = .ok (session, x3msg) st1 ∧
      encryptSignalMessage s kem w env.spqr session plaintext = .ok (session', signalMsg) ∧
      Wire.newPreKeySignalMessage w (ciphertextVersionForSession session') st1.localRegistrationID
        x3msg.preKeyID x3msg.signedPreKeyID x3msg.kyberPreKeyID x3msg.kyberCiphertext
        x3msg.ephemeralKey x3msg.identityKey signalMsg = .ok preKeyMsg ∧
      out = preKeyMsg.serialized ∧
      st' = persisted env addr (newRecord session' defaultMaxArchivedSessions) st1 := by
  unfold encryptWithPreKeyBundle at h
  rw [bind_of_ok (reads_apply _)] at h
  split at h
  · cases h
  · rename_i hnew
    obtain ⟨⟨session, x3msg⟩, st1, hopen, hseal⟩ := Effect.bind_eq_ok.mp h
    obtain ⟨⟨session', signalMsg⟩, st2, hlift, hwrap⟩ := Effect.bind_eq_ok.mp hseal
    obtain ⟨henc, rfl⟩ := lift_eq_ok.mp hlift
    simp only [bind_of_ok (reads_apply _)] at hwrap
    obtain ⟨preKeyMsg, st4, hlift', hpersist⟩ := Effect.bind_eq_ok.mp hwrap
    obtain ⟨hmsg, rfl⟩ := lift_eq_ok.mp hlift'
    obtain ⟨hout, hst⟩ := persistRecord_ok.mp hpersist
    exact ⟨Bool.eq_false_iff.mpr hnew, session, x3msg, _, session', signalMsg, preKeyMsg, hopen,
      mapError_eq_ok.mp henc, mapError_eq_ok.mp hmsg, hout, hst⟩

end Encryption

/-! ## Decryption -/

/-- The record with a session of its own for the message in front. -/
def recordWith (record : Option Record) (session : Session) : Record :=
  match record with
  | none => newRecord session defaultMaxArchivedSessions
  | some record => record.promote session

/-- The last part of `decryptPreKeyMessage`: a new session, which the message has to open. -/
def startSession (record : Option Record) (msg : Wire.PreKeySignalMessage) : StoreM Bytes := do
  let session ← processPreKeyMessage s env addr (X3dh.ofPreKeySignalMessage msg)
  let (session, plaintext) ← lift (mapFault (.context "session decrypt")
    (decryptSignalWithSession s kem env.newRatchet session msg.message))
  persistRecord env addr (recordWith record session)
  return plaintext

def decryptPreKeyMessage (record : Option Record) (msg : Wire.PreKeySignalMessage) :
    StoreM Bytes :=
  match record with
  | none => startSession s kem env addr none msg
  | some r =>
      match r.decryptSignalMessage s kem env.ratchet msg.message with
      | .ok (r, plaintext) => do
          persistRecord env addr r
          return plaintext
      | .error (.err e) =>
          if e.is .duplicateMessage then fail (.err (.context "session decrypt" e))
          else startSession s kem env addr (some r) msg
      | .error .panic => fail .panic

/-- What `Decrypt` does with a message that parses as a signal message. -/
def decryptWithRecord (record : Option Record) (msg : Wire.SignalMessage) : StoreM Bytes :=
  match record with
  | none => fail (noSession addr)
  | some r => do
      let (r, plaintext) ← lift (mapFault (.context "session decrypt")
        (r.decryptSignalMessage s kem env.ratchet msg))
      persistRecord env addr r
      return plaintext

/-- `WireCipher.Decrypt`. -/
def decrypt (ciphertext : Bytes) : StoreM Bytes := do
  let record ← loadRecordOptional s addr
  match Wire.parseSignalMessage s.toPrims w ciphertext with
  | .ok msg => decryptWithRecord s kem env addr record msg
  | .error _ => do
      let msg ← lift ((Wire.parsePreKeySignalMessage s.toPrims w ciphertext).mapError .err)
      decryptPreKeyMessage s kem env addr record msg

section Decryption

variable {s kem w env addr} {st st' : Store} {ciphertext plaintext : Bytes}

theorem loadRecordOptional_none (h : st.sessions[addr]? = none) :
    loadRecordOptional s addr st = .ok none st := by
  have hread : (reads (fun st : Store => st.sessions[addr]?) : StoreM _) st = .ok none st := by
    rw [reads_apply, h]
  rw [loadRecordOptional, bind_of_ok hread]
  rfl

theorem decrypt_of_signal {record : Option Record} {msg : Wire.SignalMessage}
    (hload : loadRecordOptional s addr st = .ok record st)
    (hparse : Wire.parseSignalMessage s.toPrims w ciphertext = .ok msg) :
    decrypt s kem w env addr ciphertext st = decryptWithRecord s kem env addr record msg st := by
  rw [decrypt, bind_of_ok hload, hparse]

/-- A pre-key message where there is no record. -/
theorem decrypt_of_preKey {msg : Wire.PreKeySignalMessage} {e : Err}
    (hnone : st.sessions[addr]? = none)
    (hsignal : Wire.parseSignalMessage s.toPrims w ciphertext = .error e)
    (hparse : Wire.parsePreKeySignalMessage s.toPrims w ciphertext = .ok msg) :
    decrypt s kem w env addr ciphertext st = startSession s kem env addr none msg st := by
  rw [decrypt, bind_of_ok (loadRecordOptional_none hnone), hsignal]
  simp only [hparse, Except.mapError]
  rfl

/-- What a message that starts a session did. -/
theorem startSession_ok {record : Option Record} {msg : Wire.PreKeySignalMessage} :
    startSession s kem env addr record msg st = .ok plaintext st' ↔ ∃ session st1 session',
      processPreKeyMessage s env addr (X3dh.ofPreKeySignalMessage msg) st = .ok session st1 ∧
      decryptSignalWithSession s kem env.newRatchet session msg.message =
        .ok (session', plaintext) ∧
      st' = persisted env addr (recordWith record session') st1 := by
  constructor
  · intro h
    obtain ⟨session, st1, hprocess, hrest⟩ := Effect.bind_eq_ok.mp h
    obtain ⟨⟨session', plaintext'⟩, st2, hlift, hpersist⟩ := Effect.bind_eq_ok.mp hrest
    obtain ⟨hdec, rfl⟩ := lift_eq_ok.mp hlift
    obtain ⟨rfl, hst⟩ := persistRecord_ok.mp hpersist
    exact ⟨session, st2, session', hprocess, mapError_eq_ok.mp hdec, hst⟩
  · rintro ⟨session, st1, session', hprocess, hdec, rfl⟩
    have hopened : mapFault (.context "session decrypt") (decryptSignalWithSession s kem
        env.newRatchet session msg.message) = .ok (session', plaintext) := mapError_eq_ok.mpr hdec
    rw [startSession, bind_of_ok hprocess, lift_bind_of_ok hopened]
    rfl

end Decryption

end SignalGo.Session
