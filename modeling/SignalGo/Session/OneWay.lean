import SignalGo.Ratchet.OneWay
import SignalGo.Session.Persistence
import SignalGo.Spqr.OneWay

/-!
# Two ends of a session before the first answer

The initiator sends, and nothing comes back. Its messages are sealed under the keys of one epoch of
the ratchet and without a salt, so that the other end opens each of them with the key of its
number alone.

* `PqrPair`: the post-quantum ratchets of the two ends.
* `Sealed`: a message that one end has sealed; `Sealed.opens`: the other end opens it.
* `Sending`: the initiator's session with everything it has sealed.
* `Receiving`: the other end, which has opened some of it.
* `Stored`: a store with a record of one session, which is loaded as it was stored.
-/

namespace SignalGo.Session

open Effect

variable {s : Suite} {kem : Spqr.Kem} {w : Protowire}

/-! ## The post-quantum ratchets -/

/-- The post-quantum ratchets of the initiator and of the responder: both have none, or they are
the two ends of an exchange in one direction. `payloads` is what the initiator's has sent. -/
inductive PqrPair (s : Suite) (kem : Spqr.Kem) :
    Option Spqr.State → Option Spqr.State → List Bytes → Prop where
  | absent {payloads : List Bytes} : (∀ m ∈ payloads, m = []) → PqrPair s kem none none payloads
  | oneWay {key : Key} {c : Spqr.Config} : Spqr.OneWay s.toPrims kem key.toBytes c →
      PqrPair s kem (some (c.st .initiator)) (some (c.st .responder))
        ((c.sent .initiator).map Prod.fst)

variable {rnd : Spqr.Rand}

section PqrPair

variable {a a' b : Option Spqr.State} {payloads : List Bytes} {payload salt : Bytes}

/-- The initiator sends on, and never with a salt. -/
theorem PqrPair.send (h : PqrPair s kem a b payloads) (laws : Spqr.KemLaws kem)
    (hsend : sendPQR s kem rnd a = .ok (a', payload, salt)) :
    salt = [] ∧ PqrPair s kem a' b (payloads ++ [payload]) := by
  cases h with
  | absent hempty =>
    cases hsend
    refine ⟨rfl, .absent fun m hm => ?_⟩
    rcases List.mem_append.mp hm with hold | hnew
    · exact hempty m hold
    · exact List.mem_singleton.mp hnew
  | @oneWay key c hway =>
    rcases sendPQR_ok hsend with ⟨hnone, -⟩ | ⟨state, clone, hstate, hclone, hres, rfl⟩
    · cases hnone
    · cases hstate
      rw [hway.clone] at hclone
      cases hclone
      have hpair : (c.st .initiator).send s.toPrims kem rnd =
          (((c.st .initiator).send s.toPrims kem rnd).1, .ok (payload, salt)) := Prod.ext rfl hres
      obtain ⟨rfl, hway'⟩ := hway.send laws hpair
      have hnext := PqrPair.oneWay hway'
      simpa [Spqr.Config.afterSend, hres, Except.toOption] using hnext

/-- What was sent is received, in any order, without a salt. -/
theorem PqrPair.receive (h : PqrPair s kem a b payloads) (laws : Spqr.KemLaws kem)
    (hmem : payload ∈ payloads) :
    ∃ b', receivePQR s kem b payload = .ok (b', []) ∧ PqrPair s kem a b' payloads := by
  cases h with
  | absent hempty =>
    cases hempty payload hmem
    exact ⟨none, rfl, .absent hempty⟩
  | @oneWay key c hway =>
    obtain ⟨⟨message, salt⟩, hsent, rfl⟩ := List.mem_map.mp hmem
    obtain ⟨state, hrecv, hway'⟩ := hway.receive laws hsent
    have hother : (c.afterReceive s.toPrims kem .responder message state).st .initiator =
        c.st .initiator := by simp [Spqr.Config.afterReceive]
    have hself : (c.afterReceive s.toPrims kem .responder message state).st .responder = state := by
      simp [Spqr.Config.afterReceive]
    have hnext := PqrPair.oneWay hway'
    rw [hother, hself] at hnext
    refine ⟨some state, ?_, hnext⟩
    simp only [Spqr.State.receiveOnClone, hway.clone] at hrecv
    simp only [receivePQR, hway.clone, hrecv, ok_bind]
    rfl

/-- The bytes of an optional state, as a session stores them. -/
def pqrLength (state : Option Spqr.State) : Nat :=
  ((state.map Spqr.State.serialize).getD []).length

theorem PqrPair.small (h : PqrPair s kem a b payloads) :
    pqrLength a < 2 ^ 25 ∧ pqrLength b < 2 ^ 25 := by
  cases h with
  | absent => exact ⟨by decide, by decide⟩
  | @oneWay key c hway =>
    exact ⟨hway.length_serialize key.length_toBytes _, hway.length_serialize key.length_toBytes _⟩

theorem PqrPair.enabled (h : PqrPair s kem a b payloads) :
    (∀ state, a = some state → state.version ≠ Spqr.versionDisabled) ∧
      ∀ state, b = some state → state.version ≠ Spqr.versionDisabled := by
  cases h with
  | absent => exact ⟨nofun, nofun⟩
  | oneWay hway =>
    refine ⟨fun state hstate => ?_, fun state hstate => ?_⟩
    · cases hstate
      exact hway.enabled _
    · cases hstate
      exact hway.enabled _

end PqrPair

/-! ## Sealed messages -/

/-- The message was made by a session of the given version between the two identities, for the
header, under the message key and without a salt. -/
def Sealed (s : Suite) (w : Protowire) (version : UInt8) (sender receiver : IdentityKey)
    (header : Ratchet.Header) (messageKey : Key) (payload plaintext : Bytes)
    (msg : Wire.SignalMessage) : Prop :=
  Wire.newSignalMessage s.toPrims w version
    (Ratchet.deriveMessageKeysWithSalt s.toPrims messageKey []).2.1 header.dh header.n header.pn
    (aesCBCEncrypt s (.ofBytes 32 (Ratchet.deriveMessageKeysWithSalt s.toPrims messageKey []).1)
      (.ofBytes 16 (Ratchet.deriveMessageKeysWithSalt s.toPrims messageKey []).2.2) plaintext)
    sender receiver payload = .ok msg

variable {session session' : Session}

section Sealed

variable {version : UInt8} {sender receiver : IdentityKey} {header : Ratchet.Header}
  {messageKey : Key} {payload plaintext : Bytes} {msg : Wire.SignalMessage}

/-- The fields of the message that the receiving session reads. -/
theorem Sealed.fields
    (h : Sealed s w version sender receiver header messageKey payload plaintext msg) :
    messageHeader msg = header ∧ msg.pqRatchet = payload ∧ msg.messageVersion = version := by
  obtain ⟨-, mac, -, rfl⟩ := Wire.newSignalMessage_eq_ok.mp h
  exact ⟨rfl, rfl, rfl⟩

/-- **The other end opens it**: the MAC covers the public halves of the identities only. -/
theorem Sealed.opens
    (h : Sealed s w version sender receiver header messageKey payload plaintext msg)
    (laws : s.CbcLaws) (hremote : session.remoteIdentity.publicKey = sender.publicKey)
    (hlocal : session.localIdentity.publicKey = receiver.publicKey) :
    openMessage s session msg messageKey [] = .ok plaintext := by
  have hmac := Wire.verifyMAC_newSignalMessage h
  have hsame : msg.verifyMAC s.toPrims session.remoteIdentity session.localIdentity
      (Ratchet.deriveMessageKeysWithSalt s.toPrims messageKey []).2.1 = .ok true := by
    rw [← hmac]
    simp only [Wire.SignalMessage.verifyMAC, Wire.computeSignalMAC, hremote, hlocal]
  have hct : msg.ciphertext = aesCBCEncrypt s
      (.ofBytes 32 (Ratchet.deriveMessageKeysWithSalt s.toPrims messageKey []).1)
      (.ofBytes 16 (Ratchet.deriveMessageKeysWithSalt s.toPrims messageKey []).2.2) plaintext := by
    obtain ⟨-, mac, -, rfl⟩ := Wire.newSignalMessage_eq_ok.mp h
    rfl
  simp only [openMessage, hsame, ok_bind, Bool.not_true, Bool.false_eq_true, if_false, hct,
    aesCBCDecrypt_aesCBCEncrypt s laws]
  rfl

/-- A session that only changes its two ratchets. -/
def withRatchets (session : Session) (state : Ratchet.State) (pqrState : Option Spqr.State) :
    Session :=
  { session with ratchetState := state, pqrState }

/-- The whole receive, once the ratchets have accepted their parts. -/
theorem Sealed.decrypts {rnd : Except String Key} {next : Ratchet.State}
    {pqrNext : Option Spqr.State}
    (h : Sealed s w version sender receiver header messageKey payload plaintext msg)
    (laws : s.CbcLaws) (hremote : session.remoteIdentity.publicKey = sender.publicKey)
    (hlocal : session.localIdentity.publicKey = receiver.publicKey)
    (hversion : normalizeCiphertextVersion session.version = some version)
    (hadv : Ratchet.advanceForHeader s.toPrims rnd session.ratchetState header =
      .ok (next, messageKey))
    (hpqr : receivePQR s kem session.pqrState payload = .ok (pqrNext, [])) :
    decryptSignalWithSession s kem rnd session msg =
      .ok (session.withRatchets next pqrNext, plaintext) := by
  obtain ⟨hheader, hpayload, hmsg⟩ := h.fields
  refine decryptSignalWithSession_ok.mpr ⟨?_, next, messageKey, pqrNext, [], ?_, ?_,
    h.opens laws hremote hlocal, ?_⟩
  · simp [versionMismatch, hversion, hmsg]
  · rwa [hheader]
  · rwa [hpayload]
  · simp only [received, hversion]
    rfl

/-- A send of the initiator. -/
theorem sealed_of_encrypt {b : Option Spqr.State} {payloads : List Bytes}
    (hpqr : PqrPair s kem session.pqrState b payloads) (laws : Spqr.KemLaws kem)
    (henc : encryptSignalMessage s kem w rnd session plaintext = .ok (session', msg)) :
    ∃ state header messageKey pqrState payload,
      Ratchet.nextSendingMessageKey s.toPrims session.ratchetState =
        .ok (state, header, messageKey) ∧
      Sealed s w (ciphertextVersionForSession session) session.localIdentity session.remoteIdentity
        header messageKey payload plaintext msg ∧
      PqrPair s kem pqrState b (payloads ++ [payload]) ∧
      session' = session.withRatchets state pqrState := by
  obtain ⟨state, header, messageKey, pqrState, payload, salt, hnext, hsend, hmsg, rfl⟩ :=
    encryptSignalMessage_ok henc
  obtain ⟨rfl, hpqr'⟩ := hpqr.send laws hsend
  exact ⟨state, header, messageKey, pqrState, payload, hnext, hmsg, hpqr', rfl⟩

end Sealed

/-! ## The initiator -/

/-- A message of the initiator with what went into it, and the bytes that were sent. -/
structure Entry where
  plaintext : Bytes
  ciphertext : Bytes
  header : Ratchet.Header
  messageKey : Key
  payload : Bytes
  msg : Wire.SignalMessage

/-- The entry was made under the epoch by the session `base`. -/
structure Entry.Made (s : Suite) (w : Protowire) (base : Session) (e : Ratchet.Epoch)
    (before : List Ratchet.Epoch) (x : Entry) : Prop where
  sent : Ratchet.SentIn s.toPrims e before x.header x.messageKey
  sealed : Sealed s w (ciphertextVersionForSession base) base.localIdentity base.remoteIdentity
    x.header x.messageKey x.payload x.plaintext x.msg

/-- The session has come from `base` by sealing the entries, all in one epoch. `b` is the
post-quantum ratchet of the other end. -/
structure Sending (s : Suite) (kem : Spqr.Kem) (w : Protowire) (base : Session)
    (start peer : Ratchet.Epoch) (older : List Ratchet.Epoch) (b : Option Spqr.State)
    (session : Session) (entries : List Entry) : Prop where
  view : Ratchet.View s.toPrims [] session.ratchetState (start.after entries.length) peer older
  pqr : PqrPair s kem session.pqrState b (entries.map Entry.payload)
  same : session = base.withRatchets session.ratchetState session.pqrState
  made : ∀ x ∈ entries, x.Made s w base (start.after entries.length) (peer :: older)
  numbers : entries.map (fun x => x.header.n.toNat) = List.range entries.length

variable {plaintext : Bytes} {msg : Wire.SignalMessage}

section Sending

variable {base session session' : Session} {start peer : Ratchet.Epoch}
  {older : List Ratchet.Epoch} {b : Option Spqr.State} {entries : List Entry}

/-- One more message of the sender, with its entry. -/
theorem Sending.encrypt (h : Sending s kem w base start peer older b session entries)
    (laws : Spqr.KemLaws kem)
    (henc : encryptSignalMessage s kem w rnd session plaintext = .ok (session', msg))
    (ciphertext : Bytes) :
    ∃ header messageKey payload, Sending s kem w base start peer older b session'
      (entries ++ [⟨plaintext, ciphertext, header, messageKey, payload, msg⟩]) := by
  obtain ⟨state, header, messageKey, pqrState, payload, hnext, hsealed, hpqr, rfl⟩ :=
    sealed_of_encrypt h.pqr laws henc
  obtain ⟨hview, hsent, hnumber⟩ := h.view.send_after hnext
  -- the session seals with the identities and the version of `base`
  rw [h.same] at hsealed
  refine ⟨header, messageKey, payload, ?_⟩
  have hlen (x : Entry) : (entries ++ [x]).length = entries.length + 1 := List.length_append
  refine ⟨?_, ?_, ?_, fun x hx => ?_, ?_⟩
  · rw [hlen]
    exact hview
  · rw [List.map_append]
    exact hpqr
  · rw [h.same]
    rfl
  · rw [hlen]
    rcases List.mem_append.mp hx with hold | hnew
    · have hmade := h.made x hold
      exact ⟨hmade.sent.send, hmade.sealed⟩
    · rw [List.mem_singleton.mp hnew]
      exact ⟨hsent, hsealed⟩
  · rw [List.map_append, h.numbers, hlen, List.range_succ]
    simp [hnumber]

/-- The first counter is zero, and every counter is below the number of messages. -/
theorem Sending.number_lt {x : Entry}
    (h : Sending s kem w base start peer older b session entries) (hx : x ∈ entries) :
    x.header.n.toNat < entries.length := by
  have hmem : x.header.n.toNat ∈ entries.map (fun x => x.header.n.toNat) :=
    List.mem_map_of_mem hx
  rw [h.numbers] at hmem
  exact List.mem_range.mp hmem

/-- No two messages have the same counter. -/
theorem Sending.nodup (h : Sending s kem w base start peer older b session entries) :
    (entries.map fun x => x.header.n.toNat).Nodup := by
  rw [h.numbers]
  exact List.nodup_range

end Sending

/-! ## The responder -/

/-- The session is the other end of `base`, as far as its fields beside the ratchets go. -/
structure Facing (base session : Session) : Prop where
  remote : session.remoteIdentity.publicKey = base.localIdentity.publicKey
  own : session.localIdentity.publicKey = base.remoteIdentity.publicKey
  version : normalizeCiphertextVersion session.version = some (ciphertextVersionForSession base)
  data : session.associatedData.length ≤ 2 ^ 10

/-- The session receives in the epoch of the entries and has accepted the headers. -/
structure Receiving (s : Suite) (kem : Spqr.Kem) (base : Session) (e : Ratchet.Epoch)
    (a : Option Spqr.State) (payloads : List Bytes) (session : Session)
    (accepted : List Ratchet.Header) : Prop where
  view : ∃ own older, Ratchet.View s.toPrims accepted session.ratchetState own e older ∧
    older.length ≤ 2
  pqr : PqrPair s kem a session.pqrState payloads
  facing : Facing base session

section Receiving

variable {base session : Session} {e : Ratchet.Epoch} {before : List Ratchet.Epoch}
  {a : Option Spqr.State} {payloads : List Bytes} {accepted : List Ratchet.Header} {x : Entry}
  {rnd : Except String Key}

/-- **The first message** is opened by a session that awaits its epoch. -/
theorem Facing.opens {kp : KeyPair} (h : Facing base session)
    (haw : Ratchet.Awaits s.toPrims session.ratchetState e before)
    (hpqr : PqrPair s kem a session.pqrState payloads) (laws : Ratchet.DHLaws s.toPrims)
    (cbcLaws : s.CbcLaws) (kemLaws : Spqr.KemLaws kem)
    (hvalid : Ratchet.KeyPairValid s.toPrims e.kp)
    (hx : x.Made s w base e before) (hpayload : x.payload ∈ payloads)
    (hle : x.header.n.toNat ≤ Ratchet.maxSkip) (hkp : generateKeyPair s.toPrims rnd = .ok kp) :
    ∃ session', decryptSignalWithSession s kem rnd session x.msg = .ok (session', x.plaintext) ∧
      Receiving s kem base e a payloads session' [x.header] := by
  obtain ⟨next, own, older, hadv, hview, hlen⟩ := haw.accepts laws hvalid hx.sent hle hkp
  obtain ⟨pqrNext, hrecv, hpqr'⟩ := hpqr.receive kemLaws hpayload
  exact ⟨_, hx.sealed.decrypts cbcLaws h.remote h.own h.version hadv hrecv,
    ⟨own, older, hview, hlen⟩, hpqr', h.remote, h.own, h.version, h.data⟩

/-- **Every further message** is opened, in whatever order. -/
theorem Receiving.decrypt (h : Receiving s kem base e a payloads session accepted)
    (cbcLaws : s.CbcLaws) (kemLaws : Spqr.KemLaws kem) (hx : x.Made s w base e before)
    (hpayload : x.payload ∈ payloads) (hle : x.header.n.toNat ≤ Ratchet.maxSkip)
    (hnew : ∀ header ∈ accepted, header.n ≠ x.header.n) (rnd : Except String Key) :
    ∃ session', decryptSignalWithSession s kem rnd session x.msg = .ok (session', x.plaintext) ∧
      Receiving s kem base e a payloads session' (accepted ++ [x.header]) := by
  obtain ⟨own, older, hview, hlen⟩ := h.view
  have hkeys : ∀ header ∈ accepted,
      Ratchet.skippedKeyForHeader header ≠ Ratchet.skippedKeyForHeader x.header := by
    intro header hmem heq
    exact hnew header hmem (congrArg Ratchet.SkippedKey.n heq)
  obtain ⟨next, hadv, hview'⟩ := hview.accepts hx.sent hkeys hle rnd
  obtain ⟨pqrNext, hrecv, hpqr'⟩ := h.pqr.receive kemLaws hpayload
  have hf := h.facing
  exact ⟨_, hx.sealed.decrypts cbcLaws hf.remote hf.own hf.version hadv hrecv,
    ⟨own, older, hview', hlen⟩, hpqr', hf.remote, hf.own, hf.version, hf.data⟩

end Receiving

/-! ## A record of one session -/

/-- The record that `NewRecord` makes of a session. -/
def soleRecord (session : Session) : Record where
  current := session
  archived := []
  maxArchived := defaultMaxArchivedSessions

theorem newRecord_eq {p : Prims} (h : Sound p session) :
    newRecord session defaultMaxArchivedSessions = soleRecord session := by
  rw [newRecord, h.clone]
  rfl

/-- The store has a record with this session alone, which fits its frame. -/
structure Stored (s : Suite) (addr : Address) (session : Session) (st : Store) : Prop where
  entry : st.sessions[addr]? = some (soleRecord session).serialize
  durable : session.Durable s.toPrims
  fits : storedSize session < 2 ^ 32
  enabled : ∀ state, session.pqrState = some state → state.version ≠ Spqr.versionDisabled

section Stored

variable {addr : Address} {session : Session} {st st' : Store} {env : Env}

/-- A session with no more stored keys than the ratchet allows, few seen keys and a short
post-quantum ratchet fits. -/
theorem storedSize_lt (htidy : Ratchet.Tidy session.ratchetState)
    (had : session.associatedData.length ≤ 2 ^ 10)
    (hseen : session.ratchetState.seenDH.size ≤ 2 ^ 10)
    (hpqr : pqrLength session.pqrState < 2 ^ 25) : storedSize session < 2 ^ 32 := by
  have hskipped := htidy.size_le
  rw [Ratchet.maxSkip] at hskipped
  unfold pqrLength at hpqr
  unfold storedSize
  split <;> split <;> omega

theorem stored_persisted (hdurable : session.Durable s.toPrims)
    (hfits : storedSize session < 2 ^ 32)
    (henabled : ∀ state, session.pqrState = some state → state.version ≠ Spqr.versionDisabled) :
    Stored s addr session (persisted env addr (soleRecord session) st) where
  entry := by
    rw [persisted, Store.enforceSessionLimit_address]
    exact Std.ExtTreeMap.getElem?_insert_self
  durable := hdurable
  fits := hfits
  enabled := henabled

/-- **What was stored is loaded.** -/
theorem Stored.load (h : Stored s addr session st) :
    loadRecordOptional s addr st = .ok (some (soleRecord session)) st := by
  have hsessions : ∀ session' ∈ (soleRecord session).sessions, session' = session :=
    fun session' hmem => List.mem_singleton.mp hmem
  have hdurable : (soleRecord session).Durable s.toPrims := by
    refine ⟨rfl, Nat.zero_le _, fun session' hmem => ?_⟩
    rw [hsessions session' hmem]
    exact h.durable
  have hload := hdurable.deserialize fun session' hmem => by
    rw [hsessions session' hmem]
    exact h.fits
  -- nothing is lost: the post-quantum ratchet is not disabled
  have hrestored : (soleRecord session).restored = soleRecord session := by
    have hpqr : restoredPQR session.pqrState = session.pqrState := by
      cases hstate : session.pqrState with
      | none => rfl
      | some state => simp [restoredPQR, h.enabled state hstate]
    simp [Record.restored, soleRecord, restored, hpqr]
  rw [hrestored] at hload
  have hne : (soleRecord session).serialize.length ≠ 0 := by
    simp [Record.serialize, recordSerializeMagic]
  have hread : (reads (fun st : Store => st.sessions[addr]?) : StoreM _) st =
      .ok (some (soleRecord session).serialize) st := by rw [reads_apply, h.entry]
  rw [loadRecordOptional, bind_of_ok hread]
  simp only [if_neg hne, hload]
  rfl

/-- A message that the stored session seals. -/
theorem Stored.encrypt (h : Stored s addr session st)
    (henc : encryptSignalMessage s kem w env.spqr session plaintext = .ok (session', msg)) :
    Session.encrypt s kem w env addr plaintext st =
      .ok msg.serialized (persisted env addr (soleRecord session') st) := by
  have hload : loadRecordRequired s addr st = .ok (soleRecord session) st := by
    rw [loadRecordRequired, bind_of_ok h.load]
    rfl
  have hsealed : mapFault (.context "session encrypt") (encryptSignalMessage s kem w env.spqr
      (soleRecord session).current plaintext) = .ok (session', msg) := mapError_eq_ok.mpr henc
  rw [Session.encrypt, bind_of_ok hload, lift_bind_of_ok hsealed]
  rfl

/-- A message that the stored session opens. -/
theorem Stored.decrypt {ciphertext : Bytes} (h : Stored s addr session st)
    (hparse : Wire.parseSignalMessage s.toPrims w ciphertext = .ok msg)
    (hdec : decryptSignalWithSession s kem (env.ratchet 0) session msg =
      .ok (session', plaintext)) :

    Session.decrypt s kem w env addr ciphertext st =
      .ok plaintext (persisted env addr (soleRecord session') st) := by
  have hrecord : (soleRecord session).decryptSignalMessage s kem env.ratchet msg =
      .ok (soleRecord session', plaintext) := by
    rw [Record.decryptSignalMessage, Record.decryptWith]
    simp only [signalAttempt, soleRecord, hdec]
  have hopened : mapFault (.context "session decrypt") ((soleRecord session).decryptSignalMessage s
      kem env.ratchet msg) = .ok (soleRecord session', plaintext) := mapError_eq_ok.mpr hrecord
  rw [decrypt_of_signal h.load hparse, decryptWithRecord]
  simp only
  rw [lift_bind_of_ok hopened]
  rfl

/-- The initiator's session fits its record after any number of messages. -/
theorem Sending.stored {base : Session} {start peer : Ratchet.Epoch} {older : List Ratchet.Epoch}
    {b : Option Spqr.State} {entries : List Entry}
    (h : Sending s kem w base start peer older b session entries)
    (hdurable : session.Durable s.toPrims) (hdata : base.associatedData.length ≤ 2 ^ 10)
    (holder : older.length ≤ 1) :
    Stored s addr session (persisted env addr (soleRecord session) st) := by
  have hseen := h.view.size_seenDH
  refine stored_persisted hdurable (storedSize_lt hdurable.tidy ?_ (by omega) h.pqr.small.1)
    h.pqr.enabled.1
  rw [h.same]
  exact hdata

theorem Receiving.stored {base : Session} {e : Ratchet.Epoch} {a : Option Spqr.State}
    {payloads : List Bytes} {accepted : List Ratchet.Header}
    (h : Receiving s kem base e a payloads session accepted)
    (hdurable : session.Durable s.toPrims) :
    Stored s addr session (persisted env addr (soleRecord session) st) := by
  obtain ⟨own, older, hview, hlen⟩ := h.view
  have hseen := hview.size_seenDH
  exact stored_persisted hdurable
    (storedSize_lt hdurable.tidy h.facing.data (by omega) h.pqr.small.2) h.pqr.enabled.2

end Stored

end SignalGo.Session
