import SignalGo.Session.Cipher
import SignalGo.Session.Sound

/-!
# Ciphertext formats

`DetectCiphertextFormat`, which tells the messages of the wire cipher from the envelopes of the
older cipher, and the order in which `WireCipher.Decrypt` tries the two wire messages.

* `not_both_messages`: no bytes parse as a signal message and as a pre-key message: a signal
  message has its ratchet key in field 1, where a pre-key message has a number.
* `isWireCiphertext_of_signal`, `isWireCiphertext_of_preKey`: what is built is recognised
  if its keys are valid.
* `isLegacyEnvelope_encodeEnvelope`: an envelope is recognised if its payload fits the length
  field.
* `unambiguous_dispatch`: what becomes of the ciphertexts of both ciphers.
-/

namespace SignalGo

open Wire

/-! ## Detection -/

inductive CiphertextFormat where
  | unknown
  | wire
  | envelope
  deriving DecidableEq

def legacyEnvelopeVersion : UInt8 := 1

def legacyEnvelopeTypeSignal : UInt8 := 1

def legacyEnvelopeTypePreKey : UInt8 := 2

def isLegacyEnvelope (ciphertext : Bytes) : Bool :=
  if ciphertext.length < 6 then false
  else if ciphertext.getD 0 0 ≠ legacyEnvelopeVersion then false
  else
    let msgType := ciphertext.getD 1 0
    if msgType ≠ legacyEnvelopeTypeSignal ∧ msgType ≠ legacyEnvelopeTypePreKey then false
    else
      match uint32At (ε := Err) ciphertext 2 with
      | .ok payloadLen => payloadLen.toNat = ciphertext.length - 6
      -- six bytes are there
      | .error _ => false

def isWireCiphertext (p : Prims) (w : Protowire) (ciphertext : Bytes) : Bool :=
  (parseSignalMessage p w ciphertext).isOk || (parsePreKeySignalMessage p w ciphertext).isOk

def detectCiphertextFormat (p : Prims) (w : Protowire) (ciphertext : Bytes) : CiphertextFormat :=
  if isLegacyEnvelope ciphertext then .envelope
  else if isWireCiphertext p w ciphertext then .wire
  else .unknown

variable {p : Prims} {w : Protowire}

/-! ## Signal messages against pre-key messages -/

variable {num : Nat} {typ : WireType} {data rest : Bytes}

theorem takes_of_uint32Field (hw : w.Local) {what : String} {val : UInt32}
    (h : uint32Field w what typ data = .ok (val, rest)) :
    typ = .varint ∧ Takes w num typ data rest := by
  obtain ⟨⟨val', rest'⟩, hval, h⟩ := bind_eq_ok.mp h
  cases h
  exact takes_of_varintField hw hval

theorem takes_of_publicKeyField (hw : w.Local) {what : String} {key : Key}
    (h : publicKeyField p w what typ data = .ok (key, rest)) :
    typ = .bytes ∧ Takes w num typ data rest := by
  obtain ⟨⟨val, rest'⟩, hval, h⟩ := bind_eq_ok.mp h
  obtain ⟨key', -, h⟩ := bind_eq_ok.mp h
  cases h
  exact takes_of_bytesField hw hval

/-- The ratchet key of a signal message comes from field 1, as bytes. -/
theorem signalField_takes (hw : w.Local) {m m' : SignalFields}
    (h : signalField p w m num typ data = .ok (m', rest)) :
    Takes w num typ data rest ∧ (num = 1 → typ = .bytes) ∧
      (num ≠ 1 → m'.senderRatchet = m.senderRatchet) := by
  unfold signalField at h
  split at h
  case h_1 =>
    obtain ⟨⟨key, rest'⟩, hval, h⟩ := bind_eq_ok.mp h
    cases h
    obtain ⟨htyp, htakes⟩ := takes_of_publicKeyField hw hval
    exact ⟨htakes, fun _ => htyp, fun hne => absurd rfl hne⟩
  case h_2 | h_3 =>
    obtain ⟨⟨val, rest'⟩, hval, h⟩ := bind_eq_ok.mp h
    cases h
    exact ⟨(takes_of_uint32Field hw hval).2, nofun, fun _ => rfl⟩
  case h_4 | h_5 =>
    obtain ⟨⟨val, rest'⟩, hval, h⟩ := bind_eq_ok.mp h
    cases h
    exact ⟨(takes_of_bytesField hw hval).2, nofun, fun _ => rfl⟩
  case h_6 hne1 _ _ _ _ =>
    split at h
    · cases h
    · rename_i n hval
      cases h
      exact ⟨⟨n, hval, rfl⟩, fun heq => absurd heq hne1, fun _ => rfl⟩

/-- Field 1 of a pre-key message is a number. -/
theorem preKeyField_takes (hw : w.Local) {m m' : PreKeyFields}
    (h : preKeyField p w m num typ data = .ok (m', rest)) :
    Takes w num typ data rest ∧ (num = 1 → typ = .varint) := by
  unfold preKeyField at h
  split at h
  case h_2 =>
    obtain ⟨⟨val, rest'⟩, hval, h⟩ := bind_eq_ok.mp h
    cases h
    obtain ⟨htyp, htakes⟩ := takes_of_uint32Field hw hval
    exact ⟨htakes, fun _ => htyp⟩
  case h_1 | h_3 | h_4 =>
    obtain ⟨⟨val, rest'⟩, hval, h⟩ := bind_eq_ok.mp h
    cases h
    exact ⟨(takes_of_uint32Field hw hval).2, nofun⟩
  case h_5 =>
    obtain ⟨⟨val, rest'⟩, hval, h⟩ := bind_eq_ok.mp h
    cases h
    exact ⟨(takes_of_bytesField hw hval).2, nofun⟩
  case h_6 | h_7 =>
    obtain ⟨⟨key, rest'⟩, hval, h⟩ := bind_eq_ok.mp h
    cases h
    exact ⟨(takes_of_publicKeyField hw hval).2, nofun⟩
  case h_8 =>
    obtain ⟨⟨val, rest'⟩, hval, h⟩ := bind_eq_ok.mp h
    obtain ⟨msg, -, h⟩ := bind_eq_ok.mp h
    cases h
    exact ⟨(takes_of_bytesField hw hval).2, nofun⟩
  case h_9 _ hne1 _ _ _ _ _ _ =>
    split at h
    · cases h
    · rename_i n hval
      cases h
      exact ⟨⟨n, hval, rfl⟩, fun heq => absurd heq hne1⟩

variable {m : SignalMessage}

/-- What a signal message has read stands in front of its MAC, and it includes a ratchet key. -/
theorem parseSignalMessage_ok (h : parseSignalMessage p w data = .ok m) :
    SupportedVersion (parseMessageVersion (data.headD 0)) ∧ ∃ fields : SignalFields,
      decodeFields w (invalid "signal message tag") (signalField p w)
        { senderRatchet := none, counter := none, previousCounter := 0, ciphertext := none,
          pqRatchet := [] }
        ((data.take (data.length - signalMessageMACLength)).drop 1) = .ok fields ∧
      fields.senderRatchet ≠ none := by
  unfold parseSignalMessage at h
  split at h
  · cases h
  obtain ⟨_, hver, h⟩ := bind_eq_ok.mp h
  obtain ⟨_, hbody, -⟩ := bind_eq_ok.mp h
  obtain ⟨fields, hfields, hbody⟩ := bind_eq_ok.mp hbody
  refine ⟨supportedVersion_of_checkVersion hver, fields, hfields, ?_⟩
  split at hbody
  · exact nofun
  · cases hbody

theorem parsePreKeySignalMessage_ok {m : PreKeySignalMessage}
    (h : parsePreKeySignalMessage p w data = .ok m) :
    SupportedVersion (parseMessageVersion (data.headD 0)) ∧ ∃ fields : PreKeyFields,
      decodeFields w (invalid "pre-key tag") (preKeyField p w) .start (data.drop 1) =
        .ok fields := by
  unfold parsePreKeySignalMessage at h
  split at h
  · cases h
  obtain ⟨_, hver, h⟩ := bind_eq_ok.mp h
  obtain ⟨_, hbody, -⟩ := bind_eq_ok.mp h
  obtain ⟨fields, hfields, -⟩ := bind_eq_ok.mp hbody
  exact ⟨supportedVersion_of_checkVersion hver, fields, hfields⟩

/-- **The two wire messages exclude each other.** The signal parser reads a prefix of what the
pre-key parser reads. As long as both accept they read the same fields, and neither can get past a
field 1, which a signal message must have. -/
theorem not_both_messages (hw : w.Local) {pm : PreKeySignalMessage}
    (h : parseSignalMessage p w data = .ok m) :
    parsePreKeySignalMessage p w data ≠ .ok pm := by
  intro h'
  obtain ⟨-, fields, hfields, hsome⟩ := parseSignalMessage_ok h
  obtain ⟨-, fields', hfields'⟩ := parsePreKeySignalMessage_ok h'
  obtain ⟨tail, htail⟩ := (List.take_prefix (data.length - signalMessageMACLength) data).drop 1
  rw [← htail] at hfields'
  refine hsome (decodeFields_lockstep hw (P := fun m => m.senderRatchet = none) ?_ rfl hfields
    hfields')
  intro m t num typ data m' rest t' rest' hnone hstep hstep'
  obtain ⟨htakes, hbytes, hkeep⟩ := signalField_takes hw hstep
  obtain ⟨htakes', hvarint⟩ := preKeyField_takes hw hstep'
  obtain ⟨hrest, hle⟩ := htakes.append hw htakes'
  refine ⟨?_, hrest, hle⟩
  by_cases hnum : num = 1
  · cases (hbytes hnum).symm.trans (hvarint hnum)
  · rw [hkeep hnum, hnone]

/-! ## Envelopes against wire messages -/

/-- The first byte of an envelope is no version of a wire message. -/
theorem not_supported_of_envelope (h : isLegacyEnvelope data = true) :
    ¬ SupportedVersion (parseMessageVersion (data.headD 0)) := by
  have hfirst : data.headD 0 = legacyEnvelopeVersion := by
    unfold isLegacyEnvelope at h
    split at h
    · cases h
    · split at h
      · cases h
      · rename_i hver
        rw [not_not] at hver
        cases data with
        | nil => cases hver
        | cons b data => exact hver
  rw [hfirst]
  rintro (h3 | h4)
  · cases h3
  · cases h4

theorem not_wire_of_envelope (h : isLegacyEnvelope data = true) :
    (∀ m, parseSignalMessage p w data ≠ .ok m) ∧
      ∀ m, parsePreKeySignalMessage p w data ≠ .ok m :=
  ⟨fun _ hm => not_supported_of_envelope h (parseSignalMessage_ok hm).1,
    fun _ hm => not_supported_of_envelope h (parsePreKeySignalMessage_ok hm).1⟩

/-- An envelope is recognised if its length was not cut. -/
theorem isLegacyEnvelope_encodeEnvelope {msgType : UInt8}
    (htype : msgType = Session.envelopeTypeSignal ∨ msgType = Session.envelopeTypePreKey)
    (payload : Bytes) :
    isLegacyEnvelope (Session.encodeEnvelope msgType payload) = true ↔ payload.length < 2 ^ 32 := by
  have hlen : (Session.encodeEnvelope msgType payload).length = 6 + payload.length := by
    simp [Session.encodeEnvelope]
    omega
  have hread : uint32At (ε := Err) (Session.encodeEnvelope msgType payload) 2 =
      .ok (.ofNat payload.length) := by
    refine uint32At_eq [Session.envelopeVersion, msgType] payload _ ?_ rfl
    simp [Session.encodeEnvelope]
  have hver : (Session.encodeEnvelope msgType payload).getD 0 0 = legacyEnvelopeVersion := rfl
  have htyp : (Session.encodeEnvelope msgType payload).getD 1 0 = msgType := rfl
  unfold isLegacyEnvelope
  rw [if_neg (by omega), if_neg (not_not.mpr hver)]
  simp only [htyp, hread, hlen]
  rw [if_neg]
  · rw [decide_eq_true_iff, UInt32.toNat_ofNat']
    omega
  · rintro ⟨h1, h2⟩
    rcases htype with rfl | rfl
    · exact h1 rfl
    · exact h2 rfl

/-! ## What the formats are detected from -/

theorem isWireCiphertext_iff : isWireCiphertext p w data = true ↔
    (∃ m, parseSignalMessage p w data = .ok m) ∨
      ∃ m, parsePreKeySignalMessage p w data = .ok m := by
  rw [isWireCiphertext, Bool.or_eq_true]
  cases parseSignalMessage p w data <;> cases parsePreKeySignalMessage p w data <;>
    simp [Except.isOk, Except.toBool]

theorem detectCiphertextFormat_eq_wire :
    detectCiphertextFormat p w data = .wire ↔ isWireCiphertext p w data = true := by
  unfold detectCiphertextFormat
  split
  case isTrue h =>
    refine iff_of_false nofun fun hwire => ?_
    obtain ⟨hsignal, hpreKey⟩ := not_wire_of_envelope (p := p) (w := w) h
    rcases isWireCiphertext_iff.mp hwire with ⟨m, hm⟩ | ⟨m, hm⟩
    · exact hsignal m hm
    · exact hpreKey m hm
  case isFalse =>
    split <;> simp [*]

theorem detectCiphertextFormat_eq_envelope :
    detectCiphertextFormat p w data = .envelope ↔ isLegacyEnvelope data = true := by
  unfold detectCiphertextFormat
  split
  · simp [*]
  · split <;> simp [*]

/-! ## Messages that were built -/

/-- The first field of a signal message is its ratchet key. -/
theorem isWireCiphertext_of_signal (laws : w.Laws) {version : UInt8} {macKey : Bytes}
    {senderRatchet : Key} {counter previousCounter : UInt32} {ciphertext pqRatchet : Bytes}
    {senderIdentity receiverIdentity : IdentityKey}
    (h : newSignalMessage p w version macKey senderRatchet counter previousCounter ciphertext
      senderIdentity receiverIdentity pqRatchet = .ok m) :
    isWireCiphertext p w m.serialized = true ↔ isValidPublicKey p senderRatchet = true := by
  constructor
  · intro hwire
    by_contra hinvalid
    rw [Bool.not_eq_true] at hinvalid
    obtain ⟨-, mac, hmac, rfl⟩ := newSignalMessage_eq_ok.mp h
    have hlen := length_of_computeSignalMAC hmac
    rcases isWireCiphertext_iff.mp hwire with ⟨m', hm'⟩ | ⟨m', hm'⟩
    · obtain ⟨-, fields, hfields, -⟩ := parseSignalMessage_ok hm'
      simp only [cut_mac hlen, encodeSignalMessageBody, List.append_assoc] at hfields
      obtain ⟨e, he⟩ := publicKeyField_invalid laws "signal ratchet key" hinvalid _
      rw [decodeFields_error laws (by decide)
        (by rw [signalField, he, error_bind])] at hfields
      cases hfields
    · obtain ⟨-, fields, hfields⟩ := parsePreKeySignalMessage_ok hm'
      simp only [List.cons_append, List.drop_one, List.tail_cons, encodeSignalMessageBody,
        List.append_assoc] at hfields
      rw [decodeFields_error laws (by decide)
        (show preKeyField p w _ 1 .bytes _ =
          .error (invalid "pre-key id type") from rfl)] at hfields
      cases hfields
  · intro hvalid
    exact isWireCiphertext_iff.mpr (.inl ⟨m, parseSignalMessage_serialized laws hvalid h⟩)

/-- A pre-key message around a message that parses, with a valid base key, is refused only for
the identity in it. -/
theorem isWireCiphertext_of_preKey (laws : w.Laws) (sized : w.Sized) {version : UInt8}
    {registrationID : UInt32} {preKeyID : Option UInt32} {signedPreKeyID : UInt32}
    {kyberPreKeyID : Option UInt32} {kyberCiphertext : Bytes} {baseKey : Key}
    {identityKey : IdentityKey} {message : SignalMessage} {m : PreKeySignalMessage}
    (hbase : isValidPublicKey p baseKey = true)
    (hmessage : parseSignalMessage p w message.serialized = .ok message)
    (h : newPreKeySignalMessage w version registrationID preKeyID signedPreKeyID kyberPreKeyID
      kyberCiphertext baseKey identityKey message = .ok m) :
    isWireCiphertext p w m.serialized = true ↔
      isValidPublicKey p identityKey.publicKey = true := by
  constructor
  · intro hwire
    by_contra hinvalid
    rw [Bool.not_eq_true] at hinvalid
    obtain ⟨e, hsignal⟩ := parseSignalMessage_preKey p laws sized h
    rcases isWireCiphertext_iff.mp hwire with ⟨m', hm'⟩ | ⟨m', hm'⟩
    · rw [hsignal] at hm'
      cases hm'
    · obtain ⟨-, -, hkyber, rfl⟩ := (newPreKeySignalMessage_eq_ok w).mp h
      obtain ⟨-, fields, hfields⟩ := parsePreKeySignalMessage_ok hm'
      have hhead := decodes_preKeyHead laws registrationID preKeyID signedPreKeyID hkyber hbase
      obtain ⟨e, he⟩ := publicKeyField_invalid laws "identity key" hinvalid
        (w.appendTag 4 .bytes ++ w.appendBytes message.serialized)
      have hrefused := hhead.error laws (by decide)
        (show preKeyField p w _ 3 .bytes _ = .error e by rw [preKeyField, he, error_bind])
      simp only [List.drop_one, List.tail_cons, encodePreKeySignalMessageBody] at hfields
      simp only [List.append_assoc] at hfields hrefused
      rw [hrefused] at hfields
      cases hfields
  · intro hvalid
    exact isWireCiphertext_iff.mpr
      (.inr ⟨_, parsePreKeySignalMessage_serialized laws hbase hvalid hmessage h⟩)

/-! ## The wire cipher -/

section Ciphers

open Effect Session

variable {s : Suite} {kem : Spqr.Kem} {env : Env} {addr : Address} {st st' : Store}

variable {session : Session} {plaintext : Bytes}

/-- The message carries the public key the session sends under. -/
theorem encryptSignalMessage_key {rnd : Spqr.Rand} {session' : Session}
    (h : encryptSignalMessage s kem w rnd session plaintext = .ok (session', m)) :
    ∃ kp version macKey counter previousCounter ciphertext pqRatchet,
      session.ratchetState.dhs = some kp ∧
      newSignalMessage s.toPrims w version macKey kp.publicKey counter previousCounter ciphertext
        session.localIdentity session.remoteIdentity pqRatchet = .ok m := by
  obtain ⟨state, header, messageKey, pqrState, pqRatchet, salt, hnext, -, hmsg, -⟩ :=
    encryptSignalMessage_ok h
  obtain ⟨kp, hkp, -, -, rfl, -⟩ := Ratchet.nextSendingMessageKey_ok.mp hnext
  exact ⟨kp, _, _, _, _, _, _, hkp, hmsg⟩

/-- The public key that the current session of the address sends under is valid. -/
def SendingKeyValid (s : Suite) (addr : Address) (st : Store) : Prop :=
  ∃ record kp, loadRecordRequired s addr st = .ok record st ∧
    record.current.ratchetState.dhs = some kp ∧ isValidPublicKey s.toPrims kp.publicKey = true

variable {ct : Bytes}

theorem detect_encrypt (laws : w.Laws)
    (h : Session.encrypt s kem w env addr plaintext st = .ok ct st') :
    detectCiphertextFormat s.toPrims w ct = .wire ↔ SendingKeyValid s addr st := by
  obtain ⟨record, st1, hload, hrest⟩ := Effect.bind_eq_ok.mp h
  obtain rfl : st1 = st := keeps_loadRecordRequired.of_ok hload
  obtain ⟨⟨session, msg⟩, st2, hsend, hstore⟩ := Effect.bind_eq_ok.mp hrest
  obtain ⟨_, st3, -, hret⟩ := Effect.bind_eq_ok.mp hstore
  cases hret
  obtain ⟨hmsg, -⟩ := lift_eq_ok.mp hsend
  obtain ⟨kp, _, _, _, _, _, _, hkp, hnew⟩ := encryptSignalMessage_key (mapError_eq_ok.mp hmsg)
  rw [detectCiphertextFormat_eq_wire, isWireCiphertext_of_signal laws hnew]
  constructor
  · intro hvalid
    exact ⟨record, kp, hload, hkp, hvalid⟩
  · rintro ⟨record', kp', hload', hkp', hvalid⟩
    cases hload.symm.trans hload'
    cases hkp.symm.trans hkp'
    exact hvalid

/-- The post-quantum ratchet and the version leave the new ratchet state alone. -/
theorem buildSession_ratchetState {localIdentity remoteIdentity : IdentityKey}
    {result : X3dh.Result} {isInitiator : Bool}
    (h : buildSession s env localIdentity remoteIdentity result isInitiator = .ok session) :
    Ratchet.initializeState s.toPrims env.initRatchet result isInitiator =
      .ok session.ratchetState := by
  obtain ⟨state, hstate, h⟩ := bind_eq_ok.mp h
  obtain ⟨session', hpqr, h⟩ := bind_eq_ok.mp h
  cases h
  obtain ⟨pqrState, rfl⟩ := initSessionPQR_ok hpqr
  have hversion (v : UInt8) : (setSessionCiphertextVersion
      { newSession state localIdentity remoteIdentity
      result.associatedData with pqrState := pqrState } v).ratchetState = state := by
    unfold setSessionCiphertextVersion
    split <;> rfl
  rw [hversion]
  exact mapError_eq_ok.mp hstate

variable {bundle : PreKeyBundle}

/-- What `ProcessPreKeyBundle` hands out: the identity of the store, and keys made for the
session. -/
theorem processPreKeyBundle_keys {msg : X3dh.Message}
    (h : processPreKeyBundle s env addr bundle st = .ok (session, msg) st') :
    msg.identityKey = st.identityKeyPair.publicKey ∧
      (∃ eph, Ratchet.KeyPairValid s.toPrims eph ∧ msg.ephemeralKey = eph.publicKey) ∧
      (∃ kp, Ratchet.KeyPairValid s.toPrims kp ∧ session.ratchetState.dhs = some kp) ∧
      (∃ ss, (X3dh.newInitiator s st.identityKeyPair env.ephemeral env.kyber).encapsulate bundle =
        .ok (ss, msg.kyberCiphertext)) ∧
      msg.kyberPreKeyID = bundle.kyberPreKeyID := by
  obtain ⟨-, result, hresult, hbuild, rfl, -⟩ := processPreKeyBundle_ok.mp h
  obtain ⟨terms⟩ := X3dh.Initiator.processPreKeyBundle_ok.mp hresult
  have heph : Ratchet.KeyPairValid s.toPrims terms.ephemeral :=
    Ratchet.keyPairValid_generateKeyPair terms.generated
  have hstate := buildSession_ratchetState hbuild
  rcases Ratchet.initializeStateWithGenerator_ok hstate with ⟨-, hinit⟩ | ⟨hfalse, -⟩
  · obtain ⟨d, kp, out, -, hkp, -, -, hfields⟩ := Ratchet.initializeInitiator_ok hinit
    have hvalid : Ratchet.KeyPairValid s.toPrims kp := by
      rcases hkp with hgen | ⟨-, hlocal⟩
      · exact Ratchet.keyPairValid_generateKeyPair hgen
      · rw [terms.result_eq] at hlocal
        cases hlocal
        exact heph
    rw [terms.result_eq]
    exact ⟨rfl, ⟨_, heph, rfl⟩, ⟨kp, hvalid, by rw [hfields]⟩, ⟨_, terms.encapsulated⟩, rfl⟩
  · cases hfalse

/-- A pre-key message is recognised if the identity in it is valid. -/
theorem detect_encryptWithPreKeyBundle (laws : w.Laws) (sized : w.Sized)
    (dhLaws : Ratchet.DHLaws s.toPrims)
    (h : Session.encryptWithPreKeyBundle s kem w env addr bundle plaintext st = .ok ct st') :
    detectCiphertextFormat s.toPrims w ct = .wire ↔
      isValidPublicKey s.toPrims st.identityKeyPair.publicKey.publicKey = true := by
  obtain ⟨_, st1, hread, h₁⟩ := Effect.bind_eq_ok.mp h
  cases hread
  split at h₁
  · cases h₁
  obtain ⟨⟨session, x3msg⟩, st2, hprocess, h₂⟩ := Effect.bind_eq_ok.mp h₁
  obtain ⟨⟨session', signalMsg⟩, st3, hsend, h₃⟩ := Effect.bind_eq_ok.mp h₂
  obtain ⟨hsignal, -⟩ := lift_eq_ok.mp hsend
  obtain ⟨registrationID, st4, -, h₄⟩ := Effect.bind_eq_ok.mp h₃
  obtain ⟨preKeyMsg, st5, hlift, h5⟩ := Effect.bind_eq_ok.mp h₄
  obtain ⟨hpreKey, -⟩ := lift_eq_ok.mp hlift
  obtain ⟨_, st6, -, hret⟩ := Effect.bind_eq_ok.mp h5
  cases hret
  obtain ⟨hidentity, ⟨eph, heph, hbase⟩, ⟨kp, hkp, hdhs⟩, -⟩ := processPreKeyBundle_keys hprocess
  obtain ⟨kp', _, _, _, _, _, _, hdhs', hnew⟩ :=
    encryptSignalMessage_key (mapError_eq_ok.mp hsignal)
  cases hdhs.symm.trans hdhs'
  have hmessage := parseSignalMessage_serialized laws
    (isValidPublicKey_of_keyPairValid dhLaws hkp) hnew
  have hbaseValid : isValidPublicKey s.toPrims x3msg.ephemeralKey = true := by
    rw [hbase]
    exact isValidPublicKey_of_keyPairValid dhLaws heph
  rw [detectCiphertextFormat_eq_wire,
    isWireCiphertext_of_preKey laws sized hbaseValid hmessage (mapError_eq_ok.mp hpreKey),
      hidentity]

/-! ## The envelope cipher -/

/-- What an envelope adds to the plaintext of a sealed message: its header and the length, the
nonce and the tag. -/
def signalPayloadOverhead : Nat := 40 + 4 + 12 + 16

/-- What a pre-key envelope adds to that: the initial message around it. -/
def preKeyPayloadOverhead (bundle : PreKeyBundle) : Nat :=
  1 + 2 + 65 + 32 + 5 + 4
    + (match bundle.kyberPreKeyID with
      | none => 1
      | some _ => 1 + 4 + 4 + (1 + kyberCiphertextSize))
    + 4 + signalPayloadOverhead

/-- AES-GCM appends a tag of 16 bytes. -/
def GcmOverhead (p : Prims) : Prop :=
  ∀ (key : Key) (nonce plaintext ad : Bytes),
    (p.gcmSeal key nonce plaintext ad).length = plaintext.length + 16

/-- Kyber-1024 ciphertexts have one size. -/
def KyberSize (s : Suite) : Prop :=
  ∀ {rnd publicKey ct ss : Bytes}, s.kyberEncapsulate rnd publicKey = .ok (ct, ss) →
    ct.length = kyberCiphertextSize

/-- The bytes that a message adds to its plaintext. -/
theorem length_encryptRatchetMessage (gcm : GcmOverhead s.toPrims) {session' : Session}
    {payload : Bytes} (h : encryptRatchetMessage s session plaintext = .ok (session', payload)) :
    payload.length = plaintext.length + signalPayloadOverhead := by
  obtain ⟨⟨state, msg⟩, hencrypt, hret⟩ := bind_eq_ok.mp h
  cases hret
  obtain ⟨⟨state', header, mk⟩, -, hseal⟩ := bind_eq_ok.mp (mapError_eq_ok.mp hencrypt)
  obtain ⟨ciphertext, haes, hret⟩ := bind_eq_ok.mp hseal
  cases hret
  have hct : ciphertext.length = plaintext.length + 16 := by
    have haes' := mapError_eq_ok.mp haes
    unfold aesGCMEncryptWithNonce at haes'
    split at haes'
    · cases haes'
    · split at haes'
      · cases haes'
      · cases haes'
        exact gcm _ _ _ _
  have hnonce : ((Ratchet.deriveMessageKeys s.toPrims mk).2.2.take 12).length = 12 := by
    simp [Ratchet.deriveMessageKeys, Ratchet.deriveMessageKeysWithSalt]
  show (encodeRatchetMessage
    ⟨header, (Ratchet.deriveMessageKeys s.toPrims mk).2.2.take 12 ++ ciphertext⟩).length = _
  simp only [encodeRatchetMessage, Ratchet.Header.serialize, List.length_append,
    ByteArr.length_toBytes, length_putUint32, hnonce, hct, signalPayloadOverhead]
  omega

theorem detect_cipher_encrypt (gcm : GcmOverhead s.toPrims)
    (h : Cipher.encrypt s env addr plaintext st = .ok ct st') :
    detectCiphertextFormat s.toPrims w ct = .envelope ↔
      plaintext.length + signalPayloadOverhead < 2 ^ 32 := by
  obtain ⟨record, st1, -, h₁⟩ := Effect.bind_eq_ok.mp h
  obtain ⟨⟨session, payload⟩, st2, hsend, h₂⟩ := Effect.bind_eq_ok.mp h₁
  obtain ⟨_, st3, -, hret⟩ := Effect.bind_eq_ok.mp h₂
  cases hret
  obtain ⟨hpayload, -⟩ := lift_eq_ok.mp hsend
  rw [detectCiphertextFormat_eq_envelope, isLegacyEnvelope_encodeEnvelope (.inl rfl),
    length_encryptRatchetMessage gcm hpayload]

/-- The Kyber part of an initial message, in bytes. -/
theorem length_encapsulated (kyber : KyberSize s) {identity : IdentityKeyPair}
    {rnd : Except String Key} {kyberRnd : Bytes} {ss : Option Bytes}
    (h : (X3dh.newInitiator s identity rnd kyberRnd).encapsulate bundle = .ok (ss, ct)) :
    (X3dh.encodeKyber bundle.kyberPreKeyID ct).length =
      match bundle.kyberPreKeyID with
      | none => 1
      | some _ => 1 + 4 + 4 + (1 + kyberCiphertextSize) := by
  unfold X3dh.Initiator.encapsulate at h
  cases hid : bundle.kyberPreKeyID with
  | none => rfl
  | some id =>
    rw [hid] at h
    obtain ⟨⟨ss', ct'⟩, henc, hret⟩ := bind_eq_ok.mp h
    cases hret
    obtain ⟨pk, -, henc'⟩ := bind_eq_ok.mp (mapError_eq_ok.mp henc)
    obtain ⟨⟨raw, ss''⟩, hraw, hret⟩ := bind_eq_ok.mp henc'
    cases hret
    have hsize := kyber (mapError_eq_ok.mp hraw)
    simp only [X3dh.encodeKyber, List.length_cons, List.length_append, length_putUint32, hsize]
    omega

theorem detect_cipher_encryptWithPreKeyBundle (gcm : GcmOverhead s.toPrims) (kyber : KyberSize s)
    (h : Cipher.encryptWithPreKeyBundle s env addr bundle plaintext st = .ok ct st') :
    detectCiphertextFormat s.toPrims w ct = .envelope ↔
      plaintext.length + preKeyPayloadOverhead bundle < 2 ^ 32 := by
  obtain ⟨_, st1, hread, h₁⟩ := Effect.bind_eq_ok.mp h
  cases hread
  split at h₁
  · cases h₁
  obtain ⟨⟨session, msg⟩, st2, hprocess, h₂⟩ := Effect.bind_eq_ok.mp h₁
  obtain ⟨⟨session', payload⟩, st3, hsend, h₃⟩ := Effect.bind_eq_ok.mp h₂
  obtain ⟨hpayload, -⟩ := lift_eq_ok.mp hsend
  obtain ⟨_, st4, -, h₄⟩ := Effect.bind_eq_ok.mp h₃
  obtain ⟨preKeyPayload, st5, hlift, hret⟩ := Effect.bind_eq_ok.mp h₄
  cases hret
  obtain ⟨hserialize, -⟩ := lift_eq_ok.mp hlift
  have hbytes := mapError_eq_ok.mp hserialize
  unfold X3dh.Message.serialize at hbytes
  split at hbytes
  · cases hbytes
  cases hbytes
  obtain ⟨-, -, -, ⟨ss, henc⟩, hid⟩ := processPreKeyBundle_keys hprocess
  have hkyber := length_encapsulated kyber henc
  have hpre : (X3dh.encodePreKeyID msg.preKeyID).length = 5 := by
    cases msg.preKeyID <;> rfl
  rw [detectCiphertextFormat_eq_envelope, isLegacyEnvelope_encodeEnvelope (.inr rfl)]
  simp only [List.length_append, List.length_singleton, length_putUint16, length_putUint32,
    IdentityKey.length_serialize, ByteArr.length_toBytes, hid, hkyber, hpre,
    length_encryptRatchetMessage gcm hpayload, preKeyPayloadOverhead]
  omega

/-- **Dispatch of ciphertexts.** No bytes are accepted by two of the tests, and a pre-key message
is never taken for a signal message. What the wire cipher sends is detected as such exactly if the
keys it has from the store are valid, what the envelope cipher sends exactly if its length fits 32
bits. -/
theorem unambiguous_dispatch (s : Suite) (kem : Spqr.Kem) (w : Protowire) (laws : w.Laws)
    (sized : w.Sized) (hw : w.Local) (dhLaws : Ratchet.DHLaws s.toPrims)
    (gcm : GcmOverhead s.toPrims) (kyber : KyberSize s) :
    (∀ data : Bytes,
      (∀ m pm, parseSignalMessage s.toPrims w data = .ok m →
        parsePreKeySignalMessage s.toPrims w data ≠ .ok pm) ∧
      (isLegacyEnvelope data = true → (∀ m, parseSignalMessage s.toPrims w data ≠ .ok m) ∧
        ∀ pm, parsePreKeySignalMessage s.toPrims w data ≠ .ok pm)) ∧
    (∀ env addr data pm, parsePreKeySignalMessage s.toPrims w data = .ok pm →
      Session.decrypt s kem w env addr data = (do
        let record ← loadRecordOptional s addr
        Session.decryptPreKeyMessage s kem env addr record pm)) ∧
    (∀ env addr plaintext st ct st',
      (Session.encrypt s kem w env addr plaintext st = .ok ct st' →
        (detectCiphertextFormat s.toPrims w ct = .wire ↔ SendingKeyValid s addr st)) ∧
      (Cipher.encrypt s env addr plaintext st = .ok ct st' →
        (detectCiphertextFormat s.toPrims w ct = .envelope ↔
          plaintext.length + signalPayloadOverhead < 2 ^ 32))) ∧
    (∀ env addr bundle plaintext st ct st',
      (Session.encryptWithPreKeyBundle s kem w env addr bundle plaintext st = .ok ct st' →
        (detectCiphertextFormat s.toPrims w ct = .wire ↔
          isValidPublicKey s.toPrims st.identityKeyPair.publicKey.publicKey = true)) ∧
      (Cipher.encryptWithPreKeyBundle s env addr bundle plaintext st = .ok ct st' →
        (detectCiphertextFormat s.toPrims w ct = .envelope ↔
          plaintext.length + preKeyPayloadOverhead bundle < 2 ^ 32))) := by
  refine ⟨fun data => ⟨fun m pm h => not_both_messages hw h, not_wire_of_envelope⟩,
    fun env addr data pm hpm => ?_, fun env addr plaintext st ct st' =>
      ⟨detect_encrypt laws, detect_cipher_encrypt gcm⟩, fun env addr bundle plaintext st ct st' =>
      ⟨detect_encryptWithPreKeyBundle laws sized dhLaws,
        detect_cipher_encryptWithPreKeyBundle gcm kyber⟩⟩
  -- The signal parser refuses, so that the second branch is taken for every record.
  have hsignal : ∃ e, parseSignalMessage s.toPrims w data = .error e := by
    cases hparse : parseSignalMessage s.toPrims w data with
    | ok m => exact absurd hpm (not_both_messages hw hparse)
    | error e => exact ⟨e, rfl⟩
  obtain ⟨e, he⟩ := hsignal
  unfold Session.decrypt
  simp only [he, hpm]
  rfl

/-! ### A sample -/

theorem plain_envelope (plaintext : Bytes) :
    ∃ ct st', Cipher.encryptWithPreKeyBundle toySuite toyEnv toyAddress plainBundle plaintext
      plainStore = .ok ct st' := ⟨_, _, rfl⟩

theorem toySuite_kyberSize : KyberSize toySuite := by
  intro rnd publicKey ct ss h
  cases h
  exact List.length_replicate

theorem toyPrims_gcmOverhead : GcmOverhead toyPrims := fun _ _ _ _ => by
  simp [toyPrims]

/-- The envelope of a message of two bytes. -/
theorem unambiguous_dispatch_envelope :
    ∃ ct st', Cipher.encryptWithPreKeyBundle toySuite toyEnv toyAddress plainBundle [1, 2]
        plainStore = .ok ct st' ∧
      detectCiphertextFormat toyPrims varintWire ct = .envelope := by
  obtain ⟨ct, st', h⟩ := plain_envelope [1, 2]
  obtain ⟨-, -, -, hbundle⟩ := unambiguous_dispatch toySuite Spqr.toyKem varintWire varintWire_laws
    varintWire_sized varintWire_local Ratchet.toyPrims_dhLaws toyPrims_gcmOverhead
    toySuite_kyberSize
  exact ⟨ct, st', h, ((hbundle _ _ _ _ _ _ _).2 h).mpr (by decide)⟩

/-- Four gigabytes of plaintext: the length field of the envelope is cut, and nothing recognises
it. -/
theorem unambiguous_dispatch_long :
    ∃ plaintext ct st', Cipher.encryptWithPreKeyBundle toySuite toyEnv toyAddress plainBundle
        plaintext plainStore = .ok ct st' ∧
      detectCiphertextFormat toyPrims varintWire ct ≠ .envelope := by
  obtain ⟨ct, st', h⟩ := plain_envelope (List.replicate (2 ^ 32) 0)
  refine ⟨_, ct, st', h, fun hformat => ?_⟩
  have hlt := (detect_cipher_encryptWithPreKeyBundle toyPrims_gcmOverhead toySuite_kyberSize
    h).mp hformat
  rw [List.length_replicate] at hlt
  omega

end Ciphers

end SignalGo
