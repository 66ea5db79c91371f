import SignalGo.Fields

/-!
# Wire messages

The two messages of a session on the wire. A `SignalMessage` is a version byte, a
protocol-buffer body and the first eight bytes of a MAC over both identities and everything
before it. A `PreKeySignalMessage` opens a session: it names the keys of the handshake and holds
a whole `SignalMessage` in one of its fields.

* `newSignalMessage`, `newPreKeySignalMessage`: build and serialize a message.
* `parseSignalMessage`, `parsePreKeySignalMessage`: the hand-written decoders. They keep
  the last value of a field that occurs more than once; a `got` flag of the source and the value
  it guards are one optional field here.
* `wire_round_trip`: what is built parses back to the same fields, and its MAC verifies.
-/

namespace SignalGo.Wire

def ciphertextMessageCurrentVersion : UInt8 := 4

def ciphertextMessagePreKyberVersion : UInt8 := 3

def signalMessageMACLength : Nat := 8

def versionByte (messageVersion currentVersion : UInt8) : UInt8 :=
  (messageVersion &&& 0x0f) <<< 4 ||| (currentVersion &&& 0x0f)

def parseMessageVersion (b : UInt8) : UInt8 := b >>> 4

variable (p : Prims) (w : Protowire)

/-! ## Signal messages -/

structure SignalMessage where
  messageVersion : UInt8
  senderRatchet : Key
  counter : UInt32
  previousCounter : UInt32
  ciphertext : Bytes
  pqRatchet : Bytes
  serialized : Bytes
  deriving DecidableEq

def computeSignalMAC (macKey : Bytes) (senderIdentity receiverIdentity : IdentityKey)
    (message : Bytes) : Except Err Bytes :=
  if macKey.length ≠ 32 then .error (.wrap .invalidKey s!"mac key length {macKey.length}")
  else
    let sum := p.hmacSHA256 macKey (serializeWirePublicKey senderIdentity.publicKey
      ++ serializeWirePublicKey receiverIdentity.publicKey ++ message)
    .ok (sum.toBytes.take signalMessageMACLength)

def encodeSignalMessageBody (senderRatchet : Key) (counter previousCounter : UInt32)
    (ciphertext pqRatchet : Bytes) : Bytes :=
  (w.appendTag 1 .bytes ++ w.appendBytes (serializeWirePublicKey senderRatchet))
    ++ (w.appendTag 2 .varint ++ w.appendVarint counter.toUInt64)
    ++ (w.appendTag 3 .varint ++ w.appendVarint previousCounter.toUInt64)
    ++ (w.appendTag 4 .bytes ++ w.appendBytes ciphertext)
    ++ (if 0 < pqRatchet.length then w.appendTag 5 .bytes ++ w.appendBytes pqRatchet else [])

def newSignalMessage (messageVersion : UInt8) (macKey : Bytes) (senderRatchet : Key)
    (counter previousCounter : UInt32) (ciphertext : Bytes)
    (senderIdentity receiverIdentity : IdentityKey) (pqRatchet : Bytes) :
    Except Err SignalMessage :=
  if messageVersion < ciphertextMessagePreKyberVersion ∨
      messageVersion > ciphertextMessageCurrentVersion then
    .error (invalid s!"unsupported message version {messageVersion}")
  else do
    let body := encodeSignalMessageBody w senderRatchet counter previousCounter ciphertext pqRatchet
    let serialized := versionByte messageVersion ciphertextMessageCurrentVersion :: body
    let mac ← computeSignalMAC p macKey senderIdentity receiverIdentity serialized
    return {
      messageVersion, senderRatchet, counter, previousCounter, ciphertext, pqRatchet
      serialized := serialized ++ mac }

/-- What the decoder has read of a signal message. The two optional fields of the format have
their defaults from the start. -/
structure SignalFields where
  senderRatchet : Option Key
  counter : Option UInt32
  previousCounter : UInt32
  ciphertext : Option Bytes
  pqRatchet : Bytes

def signalField : FieldStep SignalFields Err := fun m num typ data =>
  match num with
  | 1 => do
      let (key, rest) ← publicKeyField p w "signal ratchet key" typ data
      return ({ m with senderRatchet := some key }, rest)
  | 2 => do
      let (val, rest) ← uint32Field w "signal counter" typ data
      return ({ m with counter := some val }, rest)
  | 3 => do
      let (val, rest) ← uint32Field w "signal previous counter" typ data
      return ({ m with previousCounter := val }, rest)
  | 4 => do
      let (val, rest) ← rawField w "signal ciphertext" typ data
      return ({ m with ciphertext := some val }, rest)
  | 5 => do
      let (val, rest) ← rawField w "signal pq ratchet" typ data
      return ({ m with pqRatchet := val }, rest)
  | num =>
      match w.consumeFieldValue num typ data with
      | none => .error (invalid "signal message field")
      | some n => .ok (m, data.drop n)

/-- The ratchet key, the counter, the previous counter, the ciphertext and the payload of the
post-quantum ratchet. -/
def decodeSignalMessageBody (body : Bytes) :
    Except Err (Key × UInt32 × UInt32 × Bytes × Bytes) := do
  let m ← decodeFields w (invalid "signal message tag") (signalField p w)
    { senderRatchet := none, counter := none, previousCounter := 0, ciphertext := none,
      pqRatchet := [] } body
  match m with
  | { senderRatchet := some senderRatchet, counter := some counter, previousCounter,
      ciphertext := some ciphertext, pqRatchet } =>
      return (senderRatchet, counter, previousCounter, ciphertext, pqRatchet)
  | _ => .error (invalid "signal message missing fields")

/-- The version check of both parsers; `what` is how the texts call the message. -/
def checkVersion (what : String) (version : UInt8) : Except Err Unit :=
  if version < ciphertextMessagePreKyberVersion then
    .error (invalid s!"legacy {what} version {version}")
  else if version > ciphertextMessageCurrentVersion then
    .error (invalid s!"unsupported {what} version {version}")
  else .ok ()

def parseSignalMessage (data : Bytes) : Except Err SignalMessage :=
  if data.length < 1 + signalMessageMACLength then
    .error (invalid "signal message too short")
  else do
    let version := parseMessageVersion (data.headD 0)
    checkVersion "signal message" version
    -- The MAC is cut off by its position.
    let body := (data.take (data.length - signalMessageMACLength)).drop 1
    let (senderRatchet, counter, previousCounter, ciphertext, pqRatchet) ←
      decodeSignalMessageBody p w body
    return {
      messageVersion := version
      senderRatchet, counter, previousCounter, ciphertext, pqRatchet
      serialized := data }

/-- `VerifyMAC`: the MAC is computed again, over the bytes that came. -/
def SignalMessage.verifyMAC (m : SignalMessage) (senderIdentity receiverIdentity : IdentityKey)
    (macKey : Bytes) : Except Err Bool :=
  if m.serialized.length < signalMessageMACLength then
    .error (invalid "signal message too short")
  else do
    let cut := m.serialized.length - signalMessageMACLength
    let mac ← computeSignalMAC p macKey senderIdentity receiverIdentity (m.serialized.take cut)
    return m.serialized.drop cut = mac

/-! ## Pre-key signal messages -/

structure PreKeySignalMessage where
  messageVersion : UInt8
  registrationID : UInt32
  preKeyID : Option UInt32
  signedPreKeyID : UInt32
  kyberPreKeyID : Option UInt32
  kyberCiphertext : Bytes
  baseKey : Key
  identityKey : IdentityKey
  message : SignalMessage
  serialized : Bytes
  deriving DecidableEq

/-- Field 1, if there is a one-time pre-key. -/
def encodePreKeyID : Option UInt32 → Bytes
  | none => []
  | some id => w.appendTag 1 .varint ++ w.appendVarint id.toUInt64

/-- Fields 7 and 8, if both are there. -/
def encodeKyberPayload (kyberPreKeyID : Option UInt32) (kyberCiphertext : Bytes) : Bytes :=
  match kyberPreKeyID with
  | none => []
  | some id =>
      if 0 < kyberCiphertext.length then
        (w.appendTag 7 .varint ++ w.appendVarint id.toUInt64)
          ++ (w.appendTag 8 .bytes ++ w.appendBytes kyberCiphertext)
      else []

def encodePreKeySignalMessageBody (registrationID : UInt32) (preKeyID : Option UInt32)
    (signedPreKeyID : UInt32) (kyberPreKeyID : Option UInt32) (kyberCiphertext : Bytes)
    (baseKey : Key) (identityKey : IdentityKey) (message : SignalMessage) : Bytes :=
  (w.appendTag 5 .varint ++ w.appendVarint registrationID.toUInt64)
    ++ encodePreKeyID w preKeyID
    ++ (w.appendTag 6 .varint ++ w.appendVarint signedPreKeyID.toUInt64)
    ++ encodeKyberPayload w kyberPreKeyID kyberCiphertext
    ++ (w.appendTag 2 .bytes ++ w.appendBytes (serializeWirePublicKey baseKey))
    ++ (w.appendTag 3 .bytes ++ w.appendBytes (serializeWirePublicKey identityKey.publicKey))
    ++ (w.appendTag 4 .bytes ++ w.appendBytes message.serialized)

def newPreKeySignalMessage (messageVersion : UInt8) (registrationID : UInt32)
    (preKeyID : Option UInt32) (signedPreKeyID : UInt32) (kyberPreKeyID : Option UInt32)
    (kyberCiphertext : Bytes) (baseKey : Key) (identityKey : IdentityKey)
    (message : SignalMessage) : Except Err PreKeySignalMessage :=
  if messageVersion < ciphertextMessagePreKyberVersion ∨
      messageVersion > ciphertextMessageCurrentVersion then
    .error (invalid s!"unsupported pre-key version {messageVersion}")
  else if messageVersion > ciphertextMessagePreKyberVersion ∧
      (kyberPreKeyID.isNone ∨ kyberCiphertext.length = 0) then
    .error (invalid s!"kyber payload required for version {messageVersion}")
  else if kyberPreKeyID.isNone ≠ (kyberCiphertext.length = 0) then
    .error (invalid "kyber pre-key id/ciphertext mismatch")
  else
    .ok {
      messageVersion, registrationID, preKeyID, signedPreKeyID, kyberPreKeyID, kyberCiphertext,
      baseKey, identityKey, message
      serialized := versionByte messageVersion ciphertextMessageCurrentVersion ::
        encodePreKeySignalMessageBody w registrationID preKeyID signedPreKeyID kyberPreKeyID
          kyberCiphertext baseKey identityKey message }

structure PreKeyFields where
  registrationID : UInt32
  preKeyID : Option UInt32
  signedPreKeyID : Option UInt32
  kyberPreKeyID : Option UInt32
  kyberCiphertext : Bytes
  baseKey : Option Key
  identityKey : Option IdentityKey
  message : Option SignalMessage

def preKeyField : FieldStep PreKeyFields Err := fun m num typ data =>
  match num with
  | 5 => do
      let (val, rest) ← uint32Field w "pre-key registration id" typ data
      return ({ m with registrationID := val }, rest)
  | 1 => do
      let (id, rest) ← uint32Field w "pre-key id" typ data
      return ({ m with preKeyID := some id }, rest)
  | 6 => do
      let (id, rest) ← uint32Field w "signed pre-key id" typ data
      return ({ m with signedPreKeyID := some id }, rest)
  | 7 => do
      let (id, rest) ← uint32Field w "kyber pre-key id" typ data
      return ({ m with kyberPreKeyID := some id }, rest)
  | 8 => do
      let (val, rest) ← rawField w "kyber ciphertext" typ data
      return ({ m with kyberCiphertext := val }, rest)
  | 2 => do
      let (key, rest) ← publicKeyField p w "base key" typ data
      return ({ m with baseKey := some key }, rest)
  | 3 => do
      -- Only the Curve25519 half travels; the signing half stays zero.
      let (key, rest) ← publicKeyField p w "identity key" typ data
      return ({ m with identityKey := some { publicKey := key, signingPublic := .zero } }, rest)
  | 4 => do
      let (val, rest) ← rawField w "signal message" typ data
      let msg ← parseSignalMessage p w val
      return ({ m with message := some msg }, rest)
  | num =>
      match w.consumeFieldValue num typ data with
      | none => .error (invalid "pre-key field")
      | some n => .ok (m, data.drop n)

/-- The fields of the message; the version and the bytes are filled in by the caller. -/
def decodePreKeySignalMessageBody (version : UInt8) (data : Bytes) :
    Except Err PreKeySignalMessage := do
  let m ← decodeFields w (invalid "pre-key tag") (preKeyField p w)
    { registrationID := 0, preKeyID := none, signedPreKeyID := none, kyberPreKeyID := none,
      kyberCiphertext := [], baseKey := none, identityKey := none, message := none } (data.drop 1)
  match m with
  | { registrationID, preKeyID, signedPreKeyID := some signedPreKeyID, kyberPreKeyID,
      kyberCiphertext, baseKey := some baseKey, identityKey := some identityKey,
      message := some message } =>
      if kyberPreKeyID.isNone ≠ (kyberCiphertext.length = 0) then
        .error (invalid "kyber payload mismatch")
      else
        return {
          messageVersion := version
          registrationID, preKeyID, signedPreKeyID, kyberPreKeyID, kyberCiphertext, baseKey,
          identityKey, message
          serialized := data }
  | _ => .error (invalid "pre-key message missing fields")

def parsePreKeySignalMessage (data : Bytes) : Except Err PreKeySignalMessage :=
  if data.length < 1 then .error (invalid "pre-key message too short")
  else do
    let version := parseMessageVersion (data.headD 0)
    checkVersion "pre-key message" version
    let m ← decodePreKeySignalMessageBody p w version data
    if version > ciphertextMessagePreKyberVersion ∧
        (m.kyberPreKeyID.isNone ∨ m.kyberCiphertext.length = 0) then
      .error (invalid s!"kyber payload required for version {version}")
    else return m

variable {m : PreKeySignalMessage}

/-- The signing half of the identity does not travel: no field sets it. -/
theorem signingPublic_of_parse {p : Prims} {w : Protowire} {data : Bytes}
    (h : parsePreKeySignalMessage p w data = .ok m) : m.identityKey.signingPublic = .zero := by
  rw [parsePreKeySignalMessage] at h
  split at h
  · cases h
  obtain ⟨-, -, h⟩ := bind_eq_ok.mp h
  obtain ⟨m', hbody, h⟩ := bind_eq_ok.mp h
  have hm : m' = m := by
    split at h
    · cases h
    · cases h
      rfl
  subst hm
  obtain ⟨fields, hfields, hbody⟩ := bind_eq_ok.mp hbody
  have hzero : ∀ id, fields.identityKey = some id → id.signingPublic = .zero := by
    refine decodeFields_invariant (P := fun m => ∀ id, m.identityKey = some id →
      id.signingPublic = .zero) ?_ nofun hfields
    intro m num typ data m' rest hm hstep
    unfold preKeyField at hstep
    split at hstep
    case h_7 =>
      obtain ⟨⟨key, rest'⟩, -, hstep⟩ := bind_eq_ok.mp hstep
      cases hstep
      intro id hid
      cases hid
      rfl
    case h_8 =>
      obtain ⟨⟨val, rest'⟩, -, hstep⟩ := bind_eq_ok.mp hstep
      obtain ⟨msg, -, hstep⟩ := bind_eq_ok.mp hstep
      cases hstep
      exact hm
    case h_9 =>
      split at hstep
      · cases hstep
      · cases hstep
        exact hm
    all_goals
      obtain ⟨⟨val, rest'⟩, -, hstep⟩ := bind_eq_ok.mp hstep
      cases hstep
      exact hm
  split at hbody
  · split at hbody
    · cases hbody
    · cases hbody
      exact hzero _ rfl
  · cases hbody

/-! ## Round trips -/

/-- The two versions of a session message. -/
def SupportedVersion (version : UInt8) : Prop := version = 3 ∨ version = 4

theorem supportedVersion_iff (version : UInt8) :
    ¬ (version < ciphertextMessagePreKyberVersion ∨ version > ciphertextMessageCurrentVersion) ↔
      SupportedVersion version := by
  simp only [ciphertextMessagePreKyberVersion, ciphertextMessageCurrentVersion, SupportedVersion,
    UInt8.lt_iff_toNat_lt, gt_iff_lt, ← UInt8.toNat_inj, UInt8.reduceToNat]
  omega

variable {version : UInt8}

theorem parseMessageVersion_versionByte (h : SupportedVersion version) :
    parseMessageVersion (versionByte version ciphertextMessageCurrentVersion) = version := by
  rcases h with rfl | rfl <;> rfl

theorem checkVersion_ok (what : String) (h : SupportedVersion version) :
    checkVersion what version = .ok () := by
  rcases h with rfl | rfl <;> rfl

theorem supportedVersion_of_checkVersion {what : String} {u : Unit}
    (h : checkVersion what version = .ok u) : SupportedVersion version := by
  rw [← supportedVersion_iff]
  unfold checkVersion at h
  split at h
  · cases h
  · split at h
    · cases h
    · exact not_or.mpr ⟨‹_›, ‹_›⟩

variable {macKey ciphertext pqRatchet : Bytes} {senderRatchet : Key}
  {counter previousCounter : UInt32} {senderIdentity receiverIdentity : IdentityKey}

/-- What `newSignalMessage` returns: the arguments, and the bytes with the MAC behind them. -/
theorem newSignalMessage_eq_ok {p : Prims} {w : Protowire} {m : SignalMessage} :
    newSignalMessage p w version macKey senderRatchet counter previousCounter ciphertext
        senderIdentity receiverIdentity pqRatchet = .ok m ↔
      SupportedVersion version ∧ ∃ mac,
        computeSignalMAC p macKey senderIdentity receiverIdentity
            (versionByte version ciphertextMessageCurrentVersion ::
              encodeSignalMessageBody w senderRatchet counter previousCounter ciphertext
                pqRatchet) = .ok mac ∧
          m = {
            messageVersion := version
            senderRatchet, counter, previousCounter, ciphertext, pqRatchet
            serialized := (versionByte version ciphertextMessageCurrentVersion ::
              encodeSignalMessageBody w senderRatchet counter previousCounter ciphertext
                pqRatchet) ++ mac } := by
  rw [newSignalMessage, ← supportedVersion_iff]
  split
  case isTrue h => exact ⟨nofun, fun hm => absurd h hm.1⟩
  case isFalse h =>
    rw [bind_eq_ok]
    constructor
    · rintro ⟨mac, hmac, hm⟩
      cases hm
      exact ⟨h, mac, hmac, rfl⟩
    · rintro ⟨-, mac, hmac, rfl⟩
      exact ⟨mac, hmac, rfl⟩

theorem length_of_computeSignalMAC {p : Prims} {message mac : Bytes}
    (h : computeSignalMAC p macKey senderIdentity receiverIdentity message = .ok mac) :
    mac.length = signalMessageMACLength := by
  rw [computeSignalMAC] at h
  split at h
  · cases h
  · cases h
    simp [signalMessageMACLength]

/-- Behind the version byte and in front of the MAC stands the body. -/
theorem cut_mac {mac : Bytes} (hlen : mac.length = signalMessageMACLength) {body : Bytes}
    {b : UInt8} :
    ((b :: body ++ mac).take ((b :: body ++ mac).length - signalMessageMACLength)).drop 1 =
      body := by
  rw [List.length_append, ← hlen, Nat.add_sub_cancel, List.take_left]
  rfl

section RoundTrip

variable {p w} (laws : w.Laws)

include laws

theorem decodeSignalMessageBody_encode (counter previousCounter : UInt32)
    (ciphertext pqRatchet : Bytes) (h : isValidPublicKey p senderRatchet = true) :
    decodeSignalMessageBody p w
        (encodeSignalMessageBody w senderRatchet counter previousCounter ciphertext pqRatchet) =
      .ok (senderRatchet, counter, previousCounter, ciphertext, pqRatchet) := by
  -- One step of the loop per field, in the order of the encoder.
  have h1 (m : SignalFields) : Decodes w (invalid "signal message tag") (signalField p w)
      (w.appendTag 1 .bytes ++ w.appendBytes (serializeWirePublicKey senderRatchet)) m
      { m with senderRatchet := some senderRatchet } :=
    .field laws (by decide) fun rest => by
      rw [signalField, publicKeyField_append laws _ h]
      rfl
  have h2 (m : SignalFields) : Decodes w (invalid "signal message tag") (signalField p w)
      (w.appendTag 2 .varint ++ w.appendVarint counter.toUInt64) m
      { m with counter := some counter } :=
    .field laws (by decide) fun rest => by
      rw [signalField, uint32Field_append laws]
      rfl
  have h3 (m : SignalFields) : Decodes w (invalid "signal message tag") (signalField p w)
      (w.appendTag 3 .varint ++ w.appendVarint previousCounter.toUInt64) m
      { m with previousCounter } :=
    .field laws (by decide) fun rest => by
      rw [signalField, uint32Field_append laws]
      rfl
  have h4 (m : SignalFields) : Decodes w (invalid "signal message tag") (signalField p w)
      (w.appendTag 4 .bytes ++ w.appendBytes ciphertext) m
      { m with ciphertext := some ciphertext } :=
    .field laws (by decide) fun rest => by
      rw [signalField, rawField_append laws]
      rfl
  have h5 (m : SignalFields) (hm : m.pqRatchet = []) :
      Decodes w (invalid "signal message tag") (signalField p w)
        (if 0 < pqRatchet.length then w.appendTag 5 .bytes ++ w.appendBytes pqRatchet else []) m
        { m with pqRatchet } := by
    refine .ite (fun _ => ?_) fun hempty => ?_
    · exact .field laws (by decide) fun rest => by
        rw [signalField, rawField_append laws]
        rfl
    · -- A field that was left out has its default.
      rw [List.eq_nil_of_length_eq_zero (Nat.eq_zero_of_not_pos hempty), ← hm]
  rw [decodeSignalMessageBody, encodeSignalMessageBody,
    (((((h1 _).trans (h2 _)).trans (h3 _)).trans (h4 _)).trans (h5 _ rfl)).eq, ok_bind]
  rfl

/-- **A signal message comes back from its bytes.** -/
theorem parseSignalMessage_serialized {m : SignalMessage}
    (hkey : isValidPublicKey p senderRatchet = true)
    (h : newSignalMessage p w version macKey senderRatchet counter previousCounter ciphertext
      senderIdentity receiverIdentity pqRatchet = .ok m) :
    parseSignalMessage p w m.serialized = .ok m := by
  obtain ⟨hver, mac, hmac, rfl⟩ := newSignalMessage_eq_ok.mp h
  have hlen := length_of_computeSignalMAC hmac
  rw [parseSignalMessage, if_neg (by simp [hlen]; omega)]
  simp only [List.cons_append, List.headD_cons, parseMessageVersion_versionByte hver,
    checkVersion_ok _ hver, ok_bind]
  rw [← List.cons_append, cut_mac hlen, decodeSignalMessageBody_encode laws _ _ _ _ hkey, ok_bind]
  rfl

omit laws in
/-- What is verified is the MAC over the same bytes. -/
theorem verifyMAC_eq {m : SignalMessage}
    (h : newSignalMessage p w version macKey senderRatchet counter previousCounter ciphertext
      senderIdentity receiverIdentity pqRatchet = .ok m) :
    ∃ signed mac, computeSignalMAC p macKey senderIdentity receiverIdentity signed = .ok mac ∧
      ∀ senderIdentity' receiverIdentity' macKey',
        m.verifyMAC p senderIdentity' receiverIdentity' macKey' =
          (computeSignalMAC p macKey' senderIdentity' receiverIdentity' signed >>= fun mac' =>
            .ok (decide (mac = mac'))) := by
  obtain ⟨-, mac, hmac, rfl⟩ := newSignalMessage_eq_ok.mp h
  have hlen := length_of_computeSignalMAC hmac
  refine ⟨_, mac, hmac, fun senderIdentity' receiverIdentity' macKey' => ?_⟩
  rw [SignalMessage.verifyMAC, if_neg (by simp [hlen]; omega)]
  simp only [List.length_append, ← hlen, Nat.add_sub_cancel, List.take_left, List.drop_left]
  rfl

omit laws in
/-- The MAC of a message verifies under the key and the identities it was made with. -/
theorem verifyMAC_newSignalMessage {m : SignalMessage}
    (h : newSignalMessage p w version macKey senderRatchet counter previousCounter ciphertext
      senderIdentity receiverIdentity pqRatchet = .ok m) :
    m.verifyMAC p senderIdentity receiverIdentity macKey = .ok true := by
  obtain ⟨signed, mac, hmac, hverify⟩ := verifyMAC_eq h
  rw [hverify, hmac, ok_bind, decide_eq_true rfl]

end RoundTrip

variable {registrationID signedPreKeyID : UInt32} {preKeyID kyberPreKeyID : Option UInt32}
  {kyberCiphertext : Bytes} {baseKey : Key} {identityKey : IdentityKey} {message : SignalMessage}

/-- The fields `newPreKeySignalMessage` admits: the Kyber id and ciphertext come together, and
are there in every version after the pre-Kyber one. -/
theorem newPreKeySignalMessage_eq_ok :
    newPreKeySignalMessage w version registrationID preKeyID signedPreKeyID kyberPreKeyID
        kyberCiphertext baseKey identityKey message = .ok m ↔
      SupportedVersion version ∧
        ¬ (version > ciphertextMessagePreKyberVersion ∧
          (kyberPreKeyID.isNone ∨ kyberCiphertext.length = 0)) ∧
        (kyberPreKeyID.isNone ↔ kyberCiphertext.length = 0) ∧
        m = {
          messageVersion := version
          registrationID, preKeyID, signedPreKeyID, kyberPreKeyID, kyberCiphertext, baseKey,
          identityKey, message
          serialized := versionByte version ciphertextMessageCurrentVersion ::
            encodePreKeySignalMessageBody w registrationID preKeyID signedPreKeyID kyberPreKeyID
              kyberCiphertext baseKey identityKey message } := by
  rw [newPreKeySignalMessage, ← supportedVersion_iff]
  split
  case isTrue h => exact ⟨nofun, fun hm => absurd h hm.1⟩
  case isFalse hver =>
    split
    case isTrue h => exact ⟨nofun, fun hm => absurd h hm.2.1⟩
    case isFalse hkyber =>
      split
      case isTrue h => exact ⟨nofun, fun hm => absurd (propext hm.2.2.1) h⟩
      case isFalse h =>
        have hiff := iff_of_eq (not_not.mp h)
        exact ⟨fun hm => ⟨hver, hkyber, hiff, (Except.ok.inj hm).symm⟩,
          fun hm => congrArg Except.ok hm.2.2.2.symm⟩

section RoundTrip

variable {p w} (laws : w.Laws)

include laws

theorem decodes_preKeyID (preKeyID : Option UInt32) {m : PreKeyFields} (hm : m.preKeyID = none) :
    Decodes w (invalid "pre-key tag") (preKeyField p w) (encodePreKeyID w preKeyID) m
      { m with preKeyID } := by
  cases preKeyID with
  | none =>
    have hsame : { m with preKeyID := none } = m := by rw [← hm]
    rw [hsame]
    exact .nil
  | some id =>
    exact .field laws (by decide) fun rest => by
      rw [preKeyField, uint32Field_append laws]
      rfl

theorem decodes_kyberPayload (hkyber : kyberPreKeyID.isNone ↔ kyberCiphertext.length = 0)
    {m : PreKeyFields} (hid : m.kyberPreKeyID = none) (hct : m.kyberCiphertext = []) :
    Decodes w (invalid "pre-key tag") (preKeyField p w)
      (encodeKyberPayload w kyberPreKeyID kyberCiphertext) m
      { m with kyberPreKeyID, kyberCiphertext } := by
  cases kyberPreKeyID with
  | none =>
    -- Without an id there is no ciphertext, and both keep their defaults.
    have hsame : { m with kyberPreKeyID := none, kyberCiphertext } = m := by
      rw [List.eq_nil_of_length_eq_zero (hkyber.mp rfl), ← hid, ← hct]
    rw [hsame]
    exact .nil
  | some id =>
    have hpos : 0 < kyberCiphertext.length :=
      Nat.pos_of_ne_zero fun hzero => Bool.false_ne_true (hkyber.mpr hzero)
    have h7 : Decodes w (invalid "pre-key tag") (preKeyField p w)
        (w.appendTag 7 .varint ++ w.appendVarint id.toUInt64) m
        { m with kyberPreKeyID := some id } :=
      .field laws (by decide) fun rest => by
        rw [preKeyField, uint32Field_append laws]
        rfl
    have h8 (m : PreKeyFields) : Decodes w (invalid "pre-key tag") (preKeyField p w)
        (w.appendTag 8 .bytes ++ w.appendBytes kyberCiphertext) m
        { m with kyberCiphertext } :=
      .field laws (by decide) fun rest => by
        rw [preKeyField, rawField_append laws]
        rfl
    rw [encodeKyberPayload, if_pos hpos]
    exact h7.trans (h8 _)

/-- The fields before any has been read. -/
def PreKeyFields.start : PreKeyFields where
  registrationID := 0
  preKeyID := none
  signedPreKeyID := none
  kyberPreKeyID := none
  kyberCiphertext := []
  baseKey := none
  identityKey := none
  message := none

/-- The fields in front of the identity. -/
theorem decodes_preKeyHead (registrationID : UInt32) (preKeyID : Option UInt32)
    (signedPreKeyID : UInt32) (hkyber : kyberPreKeyID.isNone ↔ kyberCiphertext.length = 0)
    (hbase : isValidPublicKey p baseKey = true) :
    Decodes w (invalid "pre-key tag") (preKeyField p w)
      ((w.appendTag 5 .varint ++ w.appendVarint registrationID.toUInt64)
        ++ encodePreKeyID w preKeyID
        ++ (w.appendTag 6 .varint ++ w.appendVarint signedPreKeyID.toUInt64)
        ++ encodeKyberPayload w kyberPreKeyID kyberCiphertext
        ++ (w.appendTag 2 .bytes ++ w.appendBytes (serializeWirePublicKey baseKey)))
      .start
      { registrationID, preKeyID
        signedPreKeyID := some signedPreKeyID
        kyberPreKeyID, kyberCiphertext
        baseKey := some baseKey
        identityKey := none
        message := none } := by
  have h5 (m : PreKeyFields) : Decodes w (invalid "pre-key tag") (preKeyField p w)
      (w.appendTag 5 .varint ++ w.appendVarint registrationID.toUInt64) m
      { m with registrationID } :=
    .field laws (by decide) fun rest => by
      rw [preKeyField, uint32Field_append laws]
      rfl
  have h6 (m : PreKeyFields) : Decodes w (invalid "pre-key tag") (preKeyField p w)
      (w.appendTag 6 .varint ++ w.appendVarint signedPreKeyID.toUInt64) m
      { m with signedPreKeyID := some signedPreKeyID } :=
    .field laws (by decide) fun rest => by
      rw [preKeyField, uint32Field_append laws]
      rfl
  have h2 (m : PreKeyFields) : Decodes w (invalid "pre-key tag") (preKeyField p w)
      (w.appendTag 2 .bytes ++ w.appendBytes (serializeWirePublicKey baseKey)) m
      { m with baseKey := some baseKey } :=
    .field laws (by decide) fun rest => by
      rw [preKeyField, publicKeyField_append laws _ hbase]
      rfl
  exact ((((h5 _).trans (decodes_preKeyID laws preKeyID rfl)).trans (h6 _)).trans
    (decodes_kyberPayload laws hkyber rfl rfl)).trans (h2 _)

theorem decodePreKeySignalMessageBody_encode (registrationID : UInt32) (preKeyID : Option UInt32)
    (signedPreKeyID : UInt32) {data : Bytes}
    (hkyber : kyberPreKeyID.isNone ↔ kyberCiphertext.length = 0)
    (hbase : isValidPublicKey p baseKey = true)
    (hidentity : isValidPublicKey p identityKey.publicKey = true)
    (hmessage : parseSignalMessage p w message.serialized = .ok message)
    (hdata : data.drop 1 = encodePreKeySignalMessageBody w registrationID preKeyID signedPreKeyID
      kyberPreKeyID kyberCiphertext baseKey identityKey message) :
    decodePreKeySignalMessageBody p w version data = .ok {
      messageVersion := version
      registrationID, preKeyID, signedPreKeyID, kyberPreKeyID, kyberCiphertext, baseKey
      identityKey := { publicKey := identityKey.publicKey, signingPublic := .zero }
      message
      serialized := data } := by
  have hhead := decodes_preKeyHead laws registrationID preKeyID signedPreKeyID hkyber hbase
  have h3 (m : PreKeyFields) : Decodes w (invalid "pre-key tag") (preKeyField p w)
      (w.appendTag 3 .bytes ++ w.appendBytes (serializeWirePublicKey identityKey.publicKey)) m
      { m with identityKey := some ⟨identityKey.publicKey, .zero⟩ } :=
    .field laws (by decide) fun rest => by
      rw [preKeyField, publicKeyField_append laws _ hidentity]
      rfl
  have h4 (m : PreKeyFields) : Decodes w (invalid "pre-key tag") (preKeyField p w)
      (w.appendTag 4 .bytes ++ w.appendBytes message.serialized) m
      { m with message := some message } :=
    .field laws (by decide) fun rest => by
      rw [preKeyField, rawField_append laws, ok_bind]
      simp only [hmessage, ok_bind]
      rfl
  have hfields := ((hhead.trans (h3 _)).trans (h4 _)).eq
  rw [PreKeyFields.start] at hfields
  rw [decodePreKeySignalMessageBody, hdata, encodePreKeySignalMessageBody, hfields, ok_bind]
  simp only [propext hkyber, ne_eq, not_true_eq_false, if_false]
  rfl

/-- **A pre-key message comes back from its bytes**, without the signing half of the identity. -/
theorem parsePreKeySignalMessage_serialized (hbase : isValidPublicKey p baseKey = true)
    (hidentity : isValidPublicKey p identityKey.publicKey = true)
    (hmessage : parseSignalMessage p w message.serialized = .ok message)
    (h : newPreKeySignalMessage w version registrationID preKeyID signedPreKeyID kyberPreKeyID
      kyberCiphertext baseKey identityKey message = .ok m) :
    parsePreKeySignalMessage p w m.serialized =
      .ok { m with identityKey :=
        { publicKey := identityKey.publicKey, signingPublic := .zero } } := by
  obtain ⟨hver, hpayload, hkyber, rfl⟩ := (newPreKeySignalMessage_eq_ok w).mp h
  rw [parsePreKeySignalMessage, if_neg (by simp)]
  simp only [List.headD_cons, parseMessageVersion_versionByte hver, checkVersion_ok _ hver, ok_bind]
  rw [decodePreKeySignalMessageBody_encode laws registrationID preKeyID signedPreKeyID hkyber hbase
    hidentity hmessage (List.drop_one ..), ok_bind]
  exact if_neg hpayload

end RoundTrip

/-! ## The messages of a session -/

/-- The bytes of a pre-key message do not parse as a signal message: they begin with field 5, the
registration id, whose wire type is not that of the post-quantum payload. -/
theorem parseSignalMessage_preKey (p : Prims) {w : Protowire} (laws : w.Laws) (sized : w.Sized)
    (h : newPreKeySignalMessage w version registrationID preKeyID signedPreKeyID kyberPreKeyID
      kyberCiphertext baseKey identityKey message = .ok m) :
    ∃ e, parseSignalMessage p w m.serialized = .error e := by
  obtain ⟨hver, -, -, rfl⟩ := (newPreKeySignalMessage_eq_ok w).mp h
  -- the first tag, and enough behind it for the MAC
  obtain ⟨rest, hbody, hlen⟩ : ∃ rest, encodePreKeySignalMessageBody w registrationID preKeyID
      signedPreKeyID kyberPreKeyID kyberCiphertext baseKey identityKey message =
        w.appendTag 5 .varint ++ rest ∧ signalMessageMACLength ≤ rest.length := by
    refine ⟨_, by simp only [encodePreKeySignalMessageBody, List.append_assoc]; rfl, ?_⟩
    have hkey := sized (serializeWirePublicKey baseKey)
    have h33 : (serializeWirePublicKey baseKey).length = 33 := by simp [serializeWirePublicKey]
    simp only [List.length_append, signalMessageMACLength]
    omega
  have hcut : ((versionByte version ciphertextMessageCurrentVersion ::
      (w.appendTag 5 .varint ++ rest)).take ((versionByte version ciphertextMessageCurrentVersion ::
        (w.appendTag 5 .varint ++ rest)).length - signalMessageMACLength)).drop 1 =
      w.appendTag 5 .varint ++ rest.take (rest.length - signalMessageMACLength) := by
    have : (versionByte version ciphertextMessageCurrentVersion ::
        (w.appendTag 5 .varint ++ rest)).length - signalMessageMACLength =
          ((w.appendTag 5 .varint).length + (rest.length - signalMessageMACLength)) + 1 := by
      simp only [List.length_cons, List.length_append]
      omega
    rw [this, List.take_succ_cons, List.drop_one, List.tail_cons, List.take_length_add_append]
  refine ⟨invalid "signal pq ratchet type", ?_⟩
  simp only [hbody, parseSignalMessage, hcut]
  rw [if_neg (by simp only [List.length_cons, List.length_append]; omega), List.headD_cons,
    parseMessageVersion_versionByte hver, checkVersion_ok _ hver, ok_bind, decodeSignalMessageBody,
    decodeFields_error laws (by decide)
      (show signalField p w _ 5 .varint _ = .error (invalid "signal pq ratchet type") from rfl)]
  rfl

/-- **Round trip of the wire messages.** A signal message of a supported version with a 32-byte
MAC key and a valid ratchet key is built, parses back to itself, with every field as it was
given, and verifies under the same identities and key. A pre-key message around it that
`newPreKeySignalMessage` admits parses back to the same fields, the identity cut to its
Curve25519 half and the inner message to itself, which verifies again. -/
theorem wire_round_trip (p : Prims) (w : Protowire) (laws : w.Laws)
    (version : UInt8) (hversion : version = 3 ∨ version = 4)
    (macKey : Bytes) (hmacKey : macKey.length = 32)
    (senderRatchet : Key) (hratchet : isValidPublicKey p senderRatchet = true)
    (counter previousCounter : UInt32) (ciphertext pqRatchet : Bytes)
    (senderIdentity receiverIdentity : IdentityKey) :
    ∃ m, newSignalMessage p w version macKey senderRatchet counter previousCounter ciphertext
          senderIdentity receiverIdentity pqRatchet = .ok m ∧
      parseSignalMessage p w m.serialized = .ok m ∧
      m.messageVersion = version ∧ m.senderRatchet = senderRatchet ∧ m.counter = counter ∧
      m.previousCounter = previousCounter ∧ m.ciphertext = ciphertext ∧
      m.pqRatchet = pqRatchet ∧
      m.verifyMAC p senderIdentity receiverIdentity macKey = .ok true ∧
      ∀ (outerVersion : UInt8) (registrationID : UInt32) (preKeyID : Option UInt32)
        (signedPreKeyID : UInt32) (kyberPreKeyID : Option UInt32) (kyberCiphertext : Bytes)
        (baseKey : Key) (identityKey : IdentityKey) (pm : PreKeySignalMessage),
        isValidPublicKey p baseKey = true → isValidPublicKey p identityKey.publicKey = true →
        newPreKeySignalMessage w outerVersion registrationID preKeyID signedPreKeyID kyberPreKeyID
            kyberCiphertext baseKey identityKey m = .ok pm →
        parsePreKeySignalMessage p w pm.serialized = .ok {
          messageVersion := outerVersion
          registrationID, preKeyID, signedPreKeyID, kyberPreKeyID, kyberCiphertext, baseKey
          identityKey := { publicKey := identityKey.publicKey, signingPublic := .zero }
          message := m
          serialized := pm.serialized } := by
  have hmac : ∃ mac, computeSignalMAC p macKey senderIdentity receiverIdentity
      (versionByte version ciphertextMessageCurrentVersion ::
        encodeSignalMessageBody w senderRatchet counter previousCounter ciphertext pqRatchet) =
      .ok mac := ⟨_, if_neg (not_not.mpr hmacKey)⟩
  obtain ⟨mac, hmac⟩ := hmac
  have hnew := newSignalMessage_eq_ok.mpr ⟨hversion, mac, hmac, rfl⟩
  have hparse := parseSignalMessage_serialized laws hratchet hnew
  refine ⟨_, hnew, hparse, rfl, rfl, rfl, rfl, rfl, rfl, verifyMAC_newSignalMessage hnew, ?_⟩
  intro outerVersion registrationID preKeyID signedPreKeyID kyberPreKeyID kyberCiphertext baseKey
    identityKey pm hbase hidentity hpm
  have hpre := parsePreKeySignalMessage_serialized laws hbase hidentity hparse hpm
  -- the outer message has the fields that it was built from
  obtain ⟨-, -, -, rfl⟩ := (newPreKeySignalMessage_eq_ok w).mp hpm
  exact hpre

/-- A message of version 4 with counters at the ends of their range, inside a pre-key message
with a Kyber payload and no one-time pre-key. -/
theorem wire_round_trip_sample :
    ∃ m, newSignalMessage toyPrims varintWire 4 (Key.fill 3).toBytes (toyPair 1).publicKey
          0xffffffff 0 [1, 2] ⟨(toyPair 2).publicKey, .zero⟩ ⟨(toyPair 3).publicKey, .zero⟩ [7] =
        .ok m ∧
      parseSignalMessage toyPrims varintWire m.serialized = .ok m ∧
      ∃ pm, newPreKeySignalMessage varintWire 4 5 none 6 (some 7) [8] (toyPair 4).publicKey
            ⟨(toyPair 2).publicKey, Key.fill 1⟩ m = .ok pm ∧
        ∃ parsed, parsePreKeySignalMessage toyPrims varintWire pm.serialized = .ok parsed ∧
          parsed.message = m ∧ parsed.identityKey = ⟨(toyPair 2).publicKey, .zero⟩ := by
  obtain ⟨m, hnew, hparse, -, -, -, -, -, -, -, hpre⟩ :=
    wire_round_trip toyPrims varintWire varintWire_laws 4 (.inr rfl) (Key.fill 3).toBytes
      (by simp) (toyPair 1).publicKey (by decide) 0xffffffff 0 [1, 2] [7]
      ⟨(toyPair 2).publicKey, .zero⟩ ⟨(toyPair 3).publicKey, .zero⟩
  have hpm : ∃ pm, newPreKeySignalMessage varintWire 4 5 none 6 (some 7) [8]
      (toyPair 4).publicKey ⟨(toyPair 2).publicKey, Key.fill 1⟩ m = .ok pm :=
    ⟨_, (newPreKeySignalMessage_eq_ok varintWire).mpr ⟨.inr rfl, by decide, by decide, rfl⟩⟩
  obtain ⟨pm, hpm⟩ := hpm
  have hparsed := hpre _ _ _ _ _ _ _ _ pm (by decide) (by decide) hpm
  exact ⟨m, hnew, hparse, pm, hpm, _, hparsed, rfl, rfl⟩

end SignalGo.Wire
