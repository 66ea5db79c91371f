import SignalGo.Spqr.Serialize
import SignalGo.Wire
import SignalGo.X3dh.Handshake

/-!
# Sessions

A session is a ratchet state with an optional state of the post-quantum ratchet and the two
identities. `encryptSignalMessage` and `decryptSignalWithSession` are what the wire cipher does
with one session. Both return the changed session with their result: the source writes to the
session only when nothing can fail any more, or throws the session away after an error.

The argument `rnd` of a receive stands for the bytes its DH ratchet step reads.
-/

namespace SignalGo

/-- An entry of `previousStates` is `none` where the source has a nil pointer. -/
structure Session where
  ratchetState : Ratchet.State
  pqrState : Option Spqr.State
  localIdentity : IdentityKey
  remoteIdentity : IdentityKey
  associatedData : Bytes
  previousStates : List (Option Ratchet.State)
  version : UInt8

namespace Session

variable (s : Suite) (kem : Spqr.Kem) (w : Protowire)

/-- `CurrentVersion`. -/
def currentVersion : UInt8 := 1

def newSession (state : Ratchet.State) (localIdentity remoteIdentity : IdentityKey)
    (associatedData : Bytes) : Session where
  ratchetState := state
  pqrState := none
  localIdentity := localIdentity
  remoteIdentity := remoteIdentity
  associatedData := associatedData
  previousStates := []
  version := currentVersion

/-- `clone`: the state of the post-quantum ratchet goes through its bytes and is lost when they
are refused; nil entries of `previousStates` are dropped. -/
def clone (session : Session) : Session :=
  { session with
    pqrState := session.pqrState.bind Spqr.State.clone
    previousStates := session.previousStates.filter Option.isSome }

/-! ## Message versions -/

/-- `normalizeCiphertextVersion`. -/
def normalizeCiphertextVersion (version : UInt8) : Option UInt8 :=
  if Wire.ciphertextMessagePreKyberVersion ≤ version ∧
      version ≤ Wire.ciphertextMessageCurrentVersion then some version
  else none

def setSessionCiphertextVersion (session : Session) (version : UInt8) : Session :=
  match normalizeCiphertextVersion version with
  | some v => { session with version := v }
  | none => session

def ciphertextVersionForSession (session : Session) : UInt8 :=
  (normalizeCiphertextVersion session.version).getD Wire.ciphertextMessageCurrentVersion

def ciphertextVersionFromX3DH (msg : X3dh.Message) : UInt8 :=
  if msg.kyberPreKeyID.isSome ∨ 0 < msg.kyberCiphertext.length then
    Wire.ciphertextMessageCurrentVersion
  else Wire.ciphertextMessagePreKyberVersion

/-- `initSessionPQR`: with a key from the handshake, the post-quantum ratchet starts in the
direction of the role. -/
def initSessionPQR (session : Session) (result : X3dh.Result) (isInitiator : Bool) :
    Except Err Session :=
  match result.pqrKey with
  | none => .ok session
  | some key => do
      let dir := if isInitiator then Spqr.directionA2B else Spqr.directionB2A
      let state ← Spqr.newState s.toPrims key.toBytes dir { MaxJump := 0, MaxOOO := 0 }
      return { session with pqrState := some state }

/-! ## Sending -/

/-- The payload and the salt of the post-quantum ratchet, on a clone. -/
def sendPQR (rnd : Spqr.Rand) (pqrState : Option Spqr.State) :
    Except (Fault Err) (Option Spqr.State × Bytes × Bytes) :=
  match pqrState with
  | none => .ok (none, [], [])
  | some state =>
      match state.clone with
      | none => .error (.err (.sentinel .spqrStateDecode))
      | some clone =>
          match clone.send s.toPrims kem rnd with
          | (next, .ok (payload, salt)) => .ok (some next, payload, salt)
          | (_, .error e) => .error e

def encryptSignalMessage (rnd : Spqr.Rand) (session : Session) (plaintext : Bytes) :
    Except (Fault Err) (Session × Wire.SignalMessage) := do
  let (state, header, messageKey) ←
    (Ratchet.nextSendingMessageKey s.toPrims session.ratchetState).mapError .err
  let (pqrState, pqRatchet, salt) ← sendPQR s kem rnd session.pqrState
  let (encKey, macKey, iv) := Ratchet.deriveMessageKeysWithSalt s.toPrims messageKey salt
  let ciphertext := aesCBCEncrypt s (.ofBytes 32 encKey) (.ofBytes 16 iv) plaintext
  let msg ← (Wire.newSignalMessage s.toPrims w (ciphertextVersionForSession session) macKey
    header.dh header.n header.pn ciphertext session.localIdentity session.remoteIdentity
    pqRatchet).mapError .err
  return ({ session with ratchetState := state, pqrState }, msg)

/-! ## Receiving -/

/-- The salt of a received payload, on a clone. -/
def receivePQR (pqrState : Option Spqr.State) (pqRatchet : Bytes) :
    Except (Fault Err) (Option Spqr.State × Bytes) :=
  match pqrState with
  | none =>
      if 0 < pqRatchet.length then .error (.err (invalid "missing pq ratchet state"))
      else .ok (none, [])
  | some state =>
      match state.clone with
      | none => .error (.err (.sentinel .spqrStateDecode))
      | some clone => do
          let (next, salt) ← clone.receive s.toPrims kem pqRatchet
          return (some next, salt)

def messageHeader (msg : Wire.SignalMessage) : Ratchet.Header where
  dh := msg.senderRatchet
  pn := msg.previousCounter
  n := msg.counter

/-- The MAC check and the decryption under the keys of a message. The peer is the sender. -/
def openMessage (session : Session) (msg : Wire.SignalMessage) (messageKey : Key) (salt : Bytes) :
    Except Err Bytes := do
  let (encKey, macKey, iv) := Ratchet.deriveMessageKeysWithSalt s.toPrims messageKey salt
  let ok ← msg.verifyMAC s.toPrims session.remoteIdentity session.localIdentity macKey
  if !ok then .error (.wrap .invalidMAC "invalid mac")
  else
    (aesCBCDecrypt s (.ofBytes 32 encKey) (.ofBytes 16 iv) msg.ciphertext).mapError fun e =>
      .join (.sentinel .invalidMAC) (.context "decrypt" e)

/-- A session that has a message version accepts no other. -/
def versionMismatch (session : Session) (msg : Wire.SignalMessage) : Bool :=
  match normalizeCiphertextVersion session.version with
  | none => false
  | some version => msg.messageVersion ≠ version

/-- The session after a message was opened. A session without a message version takes the one of
the message. -/
def received (session : Session) (msg : Wire.SignalMessage) (state : Ratchet.State)
    (pqrState : Option Spqr.State) : Session :=
  let session := match normalizeCiphertextVersion session.version with
    | none => setSessionCiphertextVersion session msg.messageVersion
    | some _ => session
  { session with ratchetState := state, pqrState }

def decryptSignalWithSession (rnd : Except String Key) (session : Session)
    (msg : Wire.SignalMessage) : Except (Fault Err) (Session × Bytes) :=
  if versionMismatch session msg then
    .error (.err (invalid s!"message version {msg.messageVersion} does not match session"))
  else do
    let (next, messageKey) ← (Ratchet.advanceForHeader s.toPrims rnd session.ratchetState
      (messageHeader msg)).mapError .err
    let (pqrNext, salt) ← receivePQR s kem session.pqrState msg.pqRatchet
    let plaintext ← (openMessage s session msg messageKey salt).mapError .err
    return (session.received msg next pqrNext, plaintext)

end Session

end SignalGo
