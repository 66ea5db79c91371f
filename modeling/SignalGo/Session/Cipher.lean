import SignalGo.Session.WireCipher

/-!
# Envelope cipher

The older `Cipher`, which seals messages with AES-GCM and puts them into an envelope of its own.
It shares the session records with the wire cipher, but does not use the post-quantum ratchet of a
session.
-/

namespace SignalGo.Session

open Effect

/-! ## Envelopes -/

def envelopeVersion : UInt8 := 1

def envelopeTypeSignal : UInt8 := 1

def envelopeTypePreKey : UInt8 := 2

def encodeEnvelope (msgType : UInt8) (payload : Bytes) : Bytes :=
  [envelopeVersion, msgType] ++ putUint32 (.ofNat payload.length) ++ payload

def decodeEnvelope (data : Bytes) : Except (Fault Err) (UInt8 × Bytes) :=
  if data.length < 6 then .error (.err (invalid "session envelope too short"))
  else do
    let version ← byteAt data 0
    if version ≠ envelopeVersion then
      .error (.err (invalid s!"session envelope unsupported version {version}"))
    else do
      let msgType ← byteAt data 1
      let payloadLen ← uint32At data 2
      if (data.drop 6).length ≠ payloadLen.toNat then
        .error (.err (invalid "session envelope invalid payload length"))
      else return (msgType, data.drop 6)

def encodeRatchetMessage (msg : Ratchet.Message) : Bytes :=
  msg.header.serialize ++ putUint32 (.ofNat msg.ciphertext.length) ++ msg.ciphertext

/-- `DeserializeHeader` for data of the right length. -/
def readHeader : Decoder Err Ratchet.Header := do
  let dh ← Decoder.array 32
  let pn ← Decoder.u32
  let n ← Decoder.u32
  return { dh := dh, pn, n }

/-- The length of the ciphertext has to be that of the rest of the data, on both sides. -/
def readRatchetMessage : Decoder Err Ratchet.Message := do
  let header ← readHeader
  let ctLen ← Decoder.u32
  Decoder.need ctLen.toNat (invalid "session signal payload invalid ciphertext length")
  let ciphertext ← Decoder.bytes ctLen.toNat
  return { header := header, ciphertext }

def decodeRatchetMessage (data : Bytes) : Except (Fault Err) Ratchet.Message :=
  if data.length < 40 + 4 then .error (.err (invalid "session signal payload too short"))
  else readRatchetMessage.run (invalid "session signal payload invalid ciphertext length") data

/-! ## The cipher -/

variable (s : Suite) (env : Env) (addr : Address)

/-- The try of a ratchet message on a session. -/
def ratchetAttempt (rnd : Nat → Except String Key) (msg : Ratchet.Message) : Attempt :=
  fun i session => do
    let (state, plaintext) ← (Ratchet.decrypt s.toPrims (rnd i) session.ratchetState msg
      session.associatedData).mapError .err
    return ({ session with ratchetState := state }, plaintext)

/-- `decryptRatchetMessage`. -/
def Record.decryptRatchetMessage (rnd : Nat → Except String Key) (r : Record)
    (msg : Ratchet.Message) : Except (Fault Err) (Record × Bytes) :=
  r.decryptWith (ratchetAttempt s rnd msg)

/-- A sealed message of a session, as the payload of an envelope. -/
def encryptRatchetMessage (session : Session) (plaintext : Bytes) :
    Except (Fault Err) (Session × Bytes) := do
  let (state, msg) ← (Ratchet.encrypt s.toPrims session.ratchetState plaintext
    session.associatedData).mapError fun e => .err (.context "session encrypt" e)
  return ({ session with ratchetState := state }, encodeRatchetMessage msg)

namespace Cipher

def encrypt (plaintext : Bytes) : StoreM Bytes := do
  let record ← loadRecordRequired s addr
  let (session, payload) ← lift (encryptRatchetMessage s record.current plaintext)
  persistRecord env addr { record with current := session }
  return encodeEnvelope envelopeTypeSignal payload

/-- `Cipher.EncryptWithPreKeyBundle`. The record is stored before the message is serialized. -/
def encryptWithPreKeyBundle (bundle : PreKeyBundle) (plaintext : Bytes) : StoreM Bytes := do
  if ← reads fun st => st.sessions.contains addr then
    fail (.err (.wrap .staleKeyExchange s!"session already exists for {addr.text}"))
  else do
    let (session, msg) ← processPreKeyBundle s env addr bundle
    let (session, payload) ← lift (encryptRatchetMessage s session plaintext)
    persistRecord env addr (newRecord session defaultMaxArchivedSessions)
    let preKeyPayload ← lift (({ msg with ciphertext := payload } : X3dh.Message).serialize.mapError
      fun e => .err (invalid s!"serialize x3dh message: {e.text}"))
    return encodeEnvelope envelopeTypePreKey preKeyPayload

/-- The last part of `decryptPreKeyMessage`: a new session, which the message has to open. -/
def startSession (record : Option Record) (msg : X3dh.Message) (ratchetMsg : Ratchet.Message) :
    StoreM Bytes := do
  let session ← processPreKeyMessage s env addr msg
  let (session, plaintext) ← lift (mapFault (.context "session decrypt")
    (ratchetAttempt s (fun _ => env.newRatchet) ratchetMsg 0 session))
  persistRecord env addr (recordWith record session)
  return plaintext

def decryptPreKeyMessage (payload : Bytes) : StoreM Bytes := do
  let msg ← lift (mapFault (fun e => invalid e.text) (X3dh.deserializeMessage s.toPrims payload))
  if msg.ciphertext.length = 0 then fail (.err (invalid "pre-key message missing ciphertext"))
  else do
    let ratchetMsg ← lift (decodeRatchetMessage msg.ciphertext)
    match ← loadRecordOptional s addr with
    | none => startSession s env addr none msg ratchetMsg
    | some r =>
        match r.decryptRatchetMessage s env.ratchet ratchetMsg with
        | .ok (r, plaintext) => do
            persistRecord env addr r
            return plaintext
        | .error (.err e) =>
            if e.is .duplicateMessage then fail (.err (.context "session decrypt" e))
            else startSession s env addr (some r) msg ratchetMsg
        | .error .panic => fail .panic

/-- What `Decrypt` does with an envelope of type `envelopeTypeSignal`. -/
def decryptSignal (payload : Bytes) : StoreM Bytes := do
  let msg ← lift (decodeRatchetMessage payload)
  let record ← loadRecordRequired s addr
  let (record, plaintext) ← lift (mapFault (.context "session decrypt")
    (record.decryptRatchetMessage s env.ratchet msg))
  persistRecord env addr record
  return plaintext

def decrypt (data : Bytes) : StoreM Bytes := do
  let (msgType, payload) ← lift (decodeEnvelope data)
  if msgType = envelopeTypeSignal then decryptSignal s env addr payload
  else if msgType = envelopeTypePreKey then decryptPreKeyMessage s env addr payload
  else fail (.err (invalid s!"unknown message type {msgType}"))

end Cipher

end SignalGo.Session
