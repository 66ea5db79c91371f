import SignalGo.Fields
import SignalGo.SenderKeys.State

/-!
# Sender keys: messages

The two messages of the group protocol: the distribution message, which hands a chain to the
members, and the sender-key message, which carries a ciphertext and ends in a signature of
everything before it. Both are a version byte and a protocol-buffer body.

The decoders keep the last value of a field that occurs more than once. A `got` flag of the
source and the value it guards are one optional field here.
-/

namespace SignalGo.SenderKeys

variable (p : Prims) (w : Protowire)

def senderKeyMessageVersion : UInt8 := 3

def senderKeySignatureSize : Nat := 64

structure SenderKeyMessage where
  messageVersion : UInt8
  distributionID : ByteArr 16
  keyID : UInt32
  iteration : UInt32
  ciphertext : Bytes
  signature : ByteArr 64
  deriving DecidableEq

def senderKeyVersionByte (messageVersion : UInt8) : UInt8 :=
  (messageVersion &&& 0x0f) <<< 4 ||| (senderKeyMessageVersion &&& 0x0f)

def parseSenderKeyVersion (b : UInt8) : UInt8 := b >>> 4

/-! ## Fields -/

def distributionIDField (typ : WireType) (data : Bytes) : Except Err (ByteArr 16 × Bytes) := do
  let (val, rest) ← bytesField w (invalid "sender key distribution id type")
    (invalid "sender key distribution id") typ data
  if val.length ≠ 16 then .error (invalid s!"sender key distribution id length {val.length}")
  else return (.ofBytes 16 val, rest)

def chainIDField : WireType → Bytes → Except Err (UInt32 × Bytes) :=
  uint32Field w "sender key chain id"

def iterationField : WireType → Bytes → Except Err (UInt32 × Bytes) :=
  uint32Field w "sender key iteration"

def ciphertextField : WireType → Bytes → Except Err (Bytes × Bytes) :=
  rawField w "sender key ciphertext"

def chainKeyField (typ : WireType) (data : Bytes) : Except Err (Key × Bytes) := do
  let (val, rest) ← bytesField w (invalid "sender key chain key type")
    (invalid "sender key chain key") typ data
  if val.length ≠ 32 then .error (invalid s!"sender key chain key length {val.length}")
  else return (.ofBytes 32 val, rest)

/-- The signing key, with or without the type byte of the wire form. -/
def signingKeyField (typ : WireType) (data : Bytes) : Except Err (Key × Bytes) := do
  let (val, rest) ← bytesField w (invalid "sender key signing key type")
    (invalid "sender key signing key") typ data
  if val.length = 32 then
    if isValidPublicKey p (.ofBytes 32 val) then return (.ofBytes 32 val, rest)
    else .error (invalid "sender key signing key")
  else if val.length = 33 then do
    let key ← deserializeWirePublicKey p val
    return (key, rest)
  else .error (invalid s!"sender key signing key length {val.length}")

/-- A field of any other number is skipped, as bytes or as a varint. -/
def skipField (unknown : Err) (typ : WireType) (data : Bytes) : Except Err Bytes :=
  if typ = .bytes then
    match w.consumeBytes data with
    | none => .error unknown
    | some (_, n) => .ok (data.drop n)
  else
    match w.consumeVarint data with
    | none => .error unknown
    | some (_, n) => .ok (data.drop n)

/-! ## Sender-key messages -/

/-- What a decoder has read of a sender-key message. -/
structure MessageFields where
  distributionID : Option (ByteArr 16)
  keyID : Option UInt32
  iteration : Option UInt32
  ciphertext : Option Bytes

def encodeSenderKeyMessageBody (distributionID : ByteArr 16) (keyID iteration : UInt32)
    (ciphertext : Bytes) : Bytes :=
  (w.appendTag 1 .bytes ++ w.appendBytes distributionID.toBytes)
    ++ (w.appendTag 2 .varint ++ w.appendVarint keyID.toUInt64)
    ++ (w.appendTag 3 .varint ++ w.appendVarint iteration.toUInt64)
    ++ (w.appendTag 4 .bytes ++ w.appendBytes ciphertext)

def messageField : FieldStep MessageFields Err := fun m num typ data =>
  match num with
  | 1 => do
      let (id, rest) ← distributionIDField w typ data
      return ({ m with distributionID := some id }, rest)
  | 2 => do
      let (id, rest) ← chainIDField w typ data
      return ({ m with keyID := some id }, rest)
  | 3 => do
      let (iteration, rest) ← iterationField w typ data
      return ({ m with iteration := some iteration }, rest)
  | 4 => do
      let (ciphertext, rest) ← ciphertextField w typ data
      return ({ m with ciphertext := some ciphertext }, rest)
  | _ => do
      let rest ← skipField w (invalid "sender key unknown field") typ data
      return (m, rest)

def decodeSenderKeyMessageBody (data : Bytes) :
    Except Err (ByteArr 16 × UInt32 × UInt32 × Bytes) := do
  let m ← decodeFields w (invalid "sender key tag") (messageField w)
    { distributionID := none, keyID := none, iteration := none, ciphertext := none } data
  match m with
  | { distributionID := some id, keyID := some keyID, iteration := some iteration,
      ciphertext := some ciphertext } => return (id, keyID, iteration, ciphertext)
  | _ => .error (invalid "sender key missing fields")

def SenderKeyMessage.signedBytes (m : SenderKeyMessage) : Bytes :=
  senderKeyVersionByte m.messageVersion ::
    encodeSenderKeyMessageBody w m.distributionID m.keyID m.iteration m.ciphertext

def SenderKeyMessage.serialize (m : SenderKeyMessage) : Bytes :=
  m.signedBytes w ++ m.signature.toBytes

/-- The version check of both messages; `what` is how the texts call the message. -/
def checkSenderKeyVersion (what : String) (version : UInt8) : Except Err Unit :=
  if version < senderKeyMessageVersion then .error (invalid s!"legacy {what} version {version}")
  else if version > senderKeyMessageVersion then
    .error (invalid s!"unsupported {what} version {version}")
  else .ok ()

/-- `parseSenderKeyMessage`: the message and the bytes its signature covers. -/
def parseSenderKeyMessage (data : Bytes) : Except Err (SenderKeyMessage × Bytes) :=
  if data.length < 1 + senderKeySignatureSize then
    .error (invalid "sender key message too short")
  else do
    let version := parseSenderKeyVersion (data.headD 0)
    checkSenderKeyVersion "sender key" version
    let signedBytes := data.take (data.length - senderKeySignatureSize)
    let (id, keyID, iteration, ciphertext) ← decodeSenderKeyMessageBody w (signedBytes.drop 1)
    return ({
      messageVersion := version
      distributionID := id
      keyID, iteration, ciphertext
      signature := .ofBytes 64 (data.drop (data.length - senderKeySignatureSize)) }, signedBytes)

/-! ## Distribution messages -/

structure DistributionFields where
  distributionID : Option (ByteArr 16)
  keyID : Option UInt32
  iteration : Option UInt32
  chainKey : Option Key
  signingPublic : Option Key

def encodeSenderKeyDistributionBody (m : DistributionMessage) : Bytes :=
  (w.appendTag 1 .bytes ++ w.appendBytes m.distributionID.toBytes)
    ++ (w.appendTag 2 .varint ++ w.appendVarint m.keyID.toUInt64)
    ++ (w.appendTag 3 .varint ++ w.appendVarint m.iteration.toUInt64)
    ++ (w.appendTag 4 .bytes ++ w.appendBytes m.chainKey.toBytes)
    ++ (w.appendTag 5 .bytes ++ w.appendBytes (serializeWirePublicKey m.signingPublic))

def distributionField : FieldStep DistributionFields Err := fun m num typ data =>
  match num with
  | 1 => do
      let (id, rest) ← distributionIDField w typ data
      return ({ m with distributionID := some id }, rest)
  | 2 => do
      let (id, rest) ← chainIDField w typ data
      return ({ m with keyID := some id }, rest)
  | 3 => do
      let (iteration, rest) ← iterationField w typ data
      return ({ m with iteration := some iteration }, rest)
  | 4 => do
      let (chainKey, rest) ← chainKeyField w typ data
      return ({ m with chainKey := some chainKey }, rest)
  | 5 => do
      let (signingPublic, rest) ← signingKeyField p w typ data
      return ({ m with signingPublic := some signingPublic }, rest)
  | _ => do
      let rest ← skipField w (invalid "sender key distribution unknown field") typ data
      return (m, rest)

def decodeSenderKeyDistributionBody (version : UInt8) (data : Bytes) :
    Except Err DistributionMessage := do
  let m ← decodeFields w (invalid "sender key distribution tag") (distributionField p w)
    { distributionID := none, keyID := none, iteration := none, chainKey := none,
      signingPublic := none } data
  match m with
  | { distributionID := some id, keyID := some keyID, iteration := some iteration,
      chainKey := some chainKey, signingPublic := some signingPublic } =>
      return {
        messageVersion := version
        distributionID := id
        keyID, iteration, chainKey, signingPublic }
  | _ => .error (invalid "sender key distribution missing fields")

def DistributionMessage.serialize (m : DistributionMessage) : Bytes :=
  senderKeyVersionByte m.messageVersion :: encodeSenderKeyDistributionBody w m

def parseDistributionMessage (data : Bytes) : Except Err DistributionMessage :=
  if data.length < 1 then .error (invalid "sender key distribution message too short")
  else do
    let version := parseSenderKeyVersion (data.headD 0)
    checkSenderKeyVersion "sender key distribution" version
    decodeSenderKeyDistributionBody p w version (data.drop 1)

/-! ## Round trips -/

theorem checkSenderKeyVersion_ok (what : String) :
    checkSenderKeyVersion what senderKeyMessageVersion = .ok () := by
  rw [checkSenderKeyVersion, if_neg (by decide), if_neg (by decide)]

/-- The version byte gives the version back. -/
theorem parse_versionByte {v : UInt8} (hv : v = senderKeyMessageVersion) :
    parseSenderKeyVersion (senderKeyVersionByte v) = senderKeyMessageVersion := by
  rw [hv]
  decide

section RoundTrip

variable {p w} (laws : w.Laws)

include laws

/-- The fields of fixed length, as they are written. -/
theorem distributionIDField_append (id : ByteArr 16) (rest : Bytes) :
    distributionIDField w .bytes (w.appendBytes id.toBytes ++ rest) = .ok (id, rest) := by
  rw [distributionIDField, bytesField_append laws, ok_bind]
  simp
  rfl

theorem chainKeyField_append (key : Key) (rest : Bytes) :
    chainKeyField w .bytes (w.appendBytes key.toBytes ++ rest) = .ok (key, rest) := by
  rw [chainKeyField, bytesField_append laws, ok_bind]
  simp
  rfl

theorem signingKeyField_append {key : Key} (h : isValidPublicKey p key = true) (rest : Bytes) :
    signingKeyField p w .bytes (w.appendBytes (serializeWirePublicKey key) ++ rest) =
      .ok (key, rest) := by
  rw [signingKeyField, bytesField_append laws, ok_bind]
  simp [deserializeWirePublicKey_serialize h]

/-- One step of the loop per field. -/
theorem decodes_senderKeyMessageBody (id : ByteArr 16) (keyID iteration : UInt32)
    (ciphertext : Bytes) (m : MessageFields) :
    Decodes w (invalid "sender key tag") (messageField w)
      (encodeSenderKeyMessageBody w id keyID iteration ciphertext) m
      { distributionID := some id, keyID := some keyID, iteration := some iteration,
        ciphertext := some ciphertext } := by
  have h1 (m : MessageFields) : Decodes w (invalid "sender key tag") (messageField w)
      (w.appendTag 1 .bytes ++ w.appendBytes id.toBytes) m { m with distributionID := some id } :=
    .field laws (by decide) fun rest => by
      rw [messageField, distributionIDField_append laws]
      rfl
  have h2 (m : MessageFields) : Decodes w (invalid "sender key tag") (messageField w)
      (w.appendTag 2 .varint ++ w.appendVarint keyID.toUInt64) m { m with keyID := some keyID } :=
    .field laws (by decide) fun rest => by
      simp only [messageField, chainIDField, uint32Field_append laws, ok_bind]
      rfl
  have h3 (m : MessageFields) : Decodes w (invalid "sender key tag") (messageField w)
      (w.appendTag 3 .varint ++ w.appendVarint iteration.toUInt64) m
      { m with iteration := some iteration } :=
    .field laws (by decide) fun rest => by
      simp only [messageField, iterationField, uint32Field_append laws, ok_bind]
      rfl
  have h4 (m : MessageFields) : Decodes w (invalid "sender key tag") (messageField w)
      (w.appendTag 4 .bytes ++ w.appendBytes ciphertext) m
      { m with ciphertext := some ciphertext } :=
    .field laws (by decide) fun rest => by
      simp only [messageField, ciphertextField, rawField_append laws, ok_bind]
      rfl
  exact (((h1 m).trans (h2 _)).trans (h3 _)).trans (h4 _)

theorem decodeSenderKeyMessageBody_encode (id : ByteArr 16) (keyID iteration : UInt32)
    (ciphertext : Bytes) :
    decodeSenderKeyMessageBody w (encodeSenderKeyMessageBody w id keyID iteration ciphertext) =
      .ok (id, keyID, iteration, ciphertext) := by
  rw [decodeSenderKeyMessageBody,
    (decodes_senderKeyMessageBody laws id keyID iteration ciphertext _).eq, ok_bind]
  rfl

/-- The distribution message, field by field. -/
theorem decodes_senderKeyDistributionBody {m : DistributionMessage}
    (h : isValidPublicKey p m.signingPublic = true) (d : DistributionFields) :
    Decodes w (invalid "sender key distribution tag") (distributionField p w)
      (encodeSenderKeyDistributionBody w m) d
      { distributionID := some m.distributionID, keyID := some m.keyID,
        iteration := some m.iteration, chainKey := some m.chainKey,
        signingPublic := some m.signingPublic } := by
  have h1 (d : DistributionFields) : Decodes w (invalid "sender key distribution tag")
      (distributionField p w) (w.appendTag 1 .bytes ++ w.appendBytes m.distributionID.toBytes) d
      { d with distributionID := some m.distributionID } :=
    .field laws (by decide) fun rest => by
      rw [distributionField, distributionIDField_append laws]
      rfl
  have h2 (d : DistributionFields) : Decodes w (invalid "sender key distribution tag")
      (distributionField p w) (w.appendTag 2 .varint ++ w.appendVarint m.keyID.toUInt64) d
      { d with keyID := some m.keyID } :=
    .field laws (by decide) fun rest => by
      simp only [distributionField, chainIDField, uint32Field_append laws, ok_bind]
      rfl
  have h3 (d : DistributionFields) : Decodes w (invalid "sender key distribution tag")
      (distributionField p w) (w.appendTag 3 .varint ++ w.appendVarint m.iteration.toUInt64) d
      { d with iteration := some m.iteration } :=
    .field laws (by decide) fun rest => by
      simp only [distributionField, iterationField, uint32Field_append laws, ok_bind]
      rfl
  have h4 (d : DistributionFields) : Decodes w (invalid "sender key distribution tag")
      (distributionField p w) (w.appendTag 4 .bytes ++ w.appendBytes m.chainKey.toBytes) d
      { d with chainKey := some m.chainKey } :=
    .field laws (by decide) fun rest => by
      simp only [distributionField, chainKeyField_append laws, ok_bind]
      rfl
  have h5 (d : DistributionFields) : Decodes w (invalid "sender key distribution tag")
      (distributionField p w)
      (w.appendTag 5 .bytes ++ w.appendBytes (serializeWirePublicKey m.signingPublic)) d
      { d with signingPublic := some m.signingPublic } :=
    .field laws (by decide) fun rest => by
      simp only [distributionField, signingKeyField_append laws h, ok_bind]
      rfl
  exact ((((h1 d).trans (h2 _)).trans (h3 _)).trans (h4 _)).trans (h5 _)

/-- All fields are there, and it is complete. -/
theorem decodeSenderKeyDistributionBody_encode {m : DistributionMessage}
    (h : isValidPublicKey p m.signingPublic = true) :
    decodeSenderKeyDistributionBody p w m.messageVersion (encodeSenderKeyDistributionBody w m) =
      .ok m := by
  rw [decodeSenderKeyDistributionBody, (decodes_senderKeyDistributionBody laws h _).eq, ok_bind]
  rfl

/-- A message of the supported version comes back from its bytes, with the bytes it signs. -/
theorem parseSenderKeyMessage_serialize {m : SenderKeyMessage}
    (hv : m.messageVersion = senderKeyMessageVersion) :
    parseSenderKeyMessage w (m.serialize w) = .ok (m, m.signedBytes w) := by
  have hlen : (m.serialize w).length = (m.signedBytes w).length + 64 := by
    simp [SenderKeyMessage.serialize]
  have hsub : (m.serialize w).length - senderKeySignatureSize = (m.signedBytes w).length := by
    rw [hlen]
    rfl
  have hlong : ¬ (m.serialize w).length < 1 + senderKeySignatureSize := by
    have hpos : 0 < (m.signedBytes w).length := by simp [SenderKeyMessage.signedBytes]
    rw [hlen, senderKeySignatureSize]
    omega
  have hhead : parseSenderKeyVersion ((m.serialize w).headD 0) = _ := parse_versionByte hv
  have htake : (m.serialize w).take (m.signedBytes w).length = m.signedBytes w := by
    simp [SenderKeyMessage.serialize]
  have hdrop : (m.serialize w).drop (m.signedBytes w).length = m.signature.toBytes := by
    simp [SenderKeyMessage.serialize]
  have hbody : (m.signedBytes w).drop 1 =
      encodeSenderKeyMessageBody w m.distributionID m.keyID m.iteration m.ciphertext := rfl
  rw [parseSenderKeyMessage, if_neg hlong]
  simp only [hhead, hsub, htake, hdrop, hbody, decodeSenderKeyMessageBody_encode laws,
    ByteArr.ofBytes_toBytes, checkSenderKeyVersion_ok, ok_bind]
  rw [← hv]
  rfl

theorem parseDistributionMessage_serialize {m : DistributionMessage}
    (hv : m.messageVersion = senderKeyMessageVersion)
    (hkey : isValidPublicKey p m.signingPublic = true) :
    parseDistributionMessage p w (m.serialize w) = .ok m := by
  have hhead : parseSenderKeyVersion ((m.serialize w).headD 0) = _ := parse_versionByte hv
  rw [parseDistributionMessage, if_neg (by simp [DistributionMessage.serialize])]
  simp only [hhead, checkSenderKeyVersion_ok, ok_bind]
  rw [← hv]
  exact decodeSenderKeyDistributionBody_encode laws hkey

end RoundTrip

end SignalGo.SenderKeys
