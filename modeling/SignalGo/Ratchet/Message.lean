import SignalGo.Ratchet.State
import SignalGo.X3dh.Types

/-!
# Double Ratchet: initial states, sending and receiving

`InitializeState`, the sending side (`NextSendingMessageKey`, `Encrypt`) and the receiving side
(`AdvanceForHeader`, `Decrypt`).

The receiving functions of the source are one text written twice: look for a stored skipped
key, refuse what was processed before, catch up with a new DH key, skip to the message number,
take the key. The parts are named here (`checkReplay`, `catchUp`, `takeKey`) and both functions
are built from them.
-/

namespace SignalGo.Ratchet

open Std (ExtTreeMap ExtTreeSet)

variable (p : Prims)

/-! ## Initial states -/

/-- The state `InitializeState` starts from: the root key is the shared secret. -/
def emptyState (rk : Key) : State where
  dhs := none
  dhr := none
  rk := rk
  cks := .zero
  ckr := .zero
  ns := 0
  nr := 0
  pn := 0
  mkSkipped := ∅
  seenDH := ∅

/-- The initiator's receiving chain key and ratchet key pair: a generated pair with the initial
chain key, the X3DH ephemeral pair without one. -/
def initiatorKeys (x3 : X3dh.Result) (generateDH : Nat → Except Err KeyPair) :
    Except Err (Key × KeyPair) :=
  match x3.initialChainKey, x3.localEphemeral with
  | some ck, _ => do
      let kp ← (generateDH 0).mapError (.context "ratchet: generate initiator dh")
      return (ck, kp)
  | none, some kp => .ok (.zero, kp)
  | none, none => do
      let kp ← (generateDH 0).mapError (.context "ratchet: generate initiator dh")
      return (.zero, kp)

/-- The initiator's branch of `InitializeStateWithGenerator`. -/
def initializeInitiator (x3 : X3dh.Result) (generateDH : Nat → Except Err KeyPair) :
    Except Err State := do
  let some dhr := x3.remoteRatchetKey
    | .error (.new "ratchet: initiator missing remote ratchet key")
  let state := { emptyState x3.sharedSecret with
    dhr := some dhr, seenDH := (∅ : ExtTreeSet Key).insert dhr }
  let (ckr, dhs) ← initiatorKeys x3 generateDH
  let dhOut ← (dh p dhs.privateKey dhr).mapError (.context "ratchet: initial dh (initiator)")
  let (newRK, cks) ← kdfRoot p state.rk dhOut
  return { state with ckr, dhs := some dhs, rk := newRK, cks }

/-- The responder's ratchet key pair (the signed pre-key, or a generated one) and the number of
calls made to the generator. -/
def responderKey (x3 : X3dh.Result) (generateDH : Nat → Except Err KeyPair) :
    Except Err (KeyPair × Nat) :=
  match x3.localRatchetKey with
  | some kp => .ok (kp, 0)
  | none => do
      let kp ← (generateDH 0).mapError (.context "ratchet: generate responder dh")
      return (kp, 1)

/-- The responder's branch of `InitializeStateWithGenerator`. -/
def initializeResponder (x3 : X3dh.Result) (generateDH : Nat → Except Err KeyPair) :
    Except Err State := do
  let remoteDH := x3.initialMessage.ephemeralKey
  let state := { emptyState x3.sharedSecret with
    dhr := some remoteDH, seenDH := (∅ : ExtTreeSet Key).insert remoteDH }
  let (dhs, calls) ← responderKey x3 generateDH
  match x3.initialChainKey with
  | some ck => return { state with dhs := some dhs, cks := ck }
  | none => do
      let dhRecv ← (dh p dhs.privateKey remoteDH).mapError
        (.context "ratchet: initial dh (responder)")
      let (newRK, ckr) ← kdfRoot p state.rk dhRecv
      let newDH ← (generateDH calls).mapError (.context "ratchet: generate send dh")
      let dhSend ← (dh p newDH.privateKey remoteDH).mapError (.context "ratchet: dh send setup")
      let (newRK, cks) ← kdfRoot p newRK dhSend
      return { state with rk := newRK, ckr, cks, dhs := some newDH }

/-- `InitializeStateWithGenerator` with a generator given by what its calls return. -/
def initializeStateWithGenerator (x3 : X3dh.Result) (isInitiator : Bool)
    (generateDH : Nat → Except Err KeyPair) : Except Err State :=
  if x3.sharedSecret = .zero then .error (.new "ratchet: shared secret must be set")
  else if isInitiator then initializeInitiator p x3 generateDH
  else initializeResponder p x3 generateDH

/-- `InitializeState`: the generator is `GenerateKeyPair` over the given random bytes. -/
def initializeState (rnd : Nat → Except String Key) (x3 : X3dh.Result) (isInitiator : Bool) :
    Except Err State :=
  initializeStateWithGenerator p x3 isInitiator fun i => generateKeyPair p (rnd i)

/-! ## Sending -/

/-- `NextSendingMessageKey`. -/
def nextSendingMessageKey (s : State) : Except Err (State × Header × Key) :=
  match s.dhs with
  | none => .error (.new "encrypt: missing sending DH key")
  | some dhs =>
      if s.cks = .zero then .error (.new "encrypt: missing sending chain key")
      else if s.ns = maxUint32 then .error (.wrap .counterOverflow "send counter overflow")
      else
        let header : Header := { dh := dhs.publicKey, pn := s.pn, n := s.ns }
        let (newCKs, mk) := kdfChain p s.cks
        .ok ({ s with cks := newCKs, ns := s.ns + 1 }, header, mk)

structure Message where
  header : Header
  ciphertext : Bytes
  deriving DecidableEq

def messageAD (associatedData : Bytes) (header : Header) : Bytes :=
  associatedData ++ header.serialize

/-- `Encrypt`: it advances the sending chain as `NextSendingMessageKey` does, and seals the
plaintext under the message key. -/
def encrypt (s : State) (plaintext associatedData : Bytes) : Except Err (State × Message) := do
  let (s, header, mk) ← nextSendingMessageKey p s
  let (encKey, _, iv) := deriveMessageKeys p mk
  let nonce := iv.take 12
  let ciphertext ← (aesGCMEncryptWithNonce p encKey plaintext nonce
    (messageAD associatedData header)).mapError (.context "encrypt")
  return (s, { header, ciphertext := nonce ++ ciphertext })

/-! ## Receiving -/

/-- The two replay checks: a number below `Nr` on the current DH key, and a DH key that was
processed before and is no longer the current one. -/
def checkReplay (s : State) (header : Header) : Except Err Unit :=
  match s.dhr with
  | none => .ok ()
  | some dhr =>
      if header.dh = dhr ∧ header.n < s.nr then
        .error (.wrap .duplicateMessage "message already processed")
      else if header.dh ≠ dhr ∧ header.dh ∈ s.seenDH then
        .error (.wrap .duplicateMessage "message for previous ratchet key")
      else .ok ()

/-- A header under a new DH key: the rest of the previous receiving chain is skipped and the
DH ratchet steps. -/
def catchUp (rnd : Except String Key) (s : State) (header : Header) : Except Err State :=
  if s.dhr = some header.dh then .ok s
  else do
    let s ← skipMessageKeys p s header.pn
    dhRatchet p rnd s header.dh

/-- The receiving chain is at the message number: its key is taken and the chain advances. -/
def takeKey (s : State) : Except Err (State × Key) :=
  if s.ckr = .zero then .error (.new "decrypt: missing receiving chain key")
  else if s.nr = maxUint32 then .error (.wrap .counterOverflow "receive counter overflow")
  else
    let (newCKr, mk) := kdfChain p s.ckr
    .ok ({ s with ckr := newCKr, nr := s.nr + 1 }, mk)

/-- What follows when no skipped key is stored for the header. -/
def advanceChain (rnd : Except String Key) (s : State) (header : Header) :
    Except Err (State × Key) := do
  checkReplay s header
  let s ← catchUp p rnd s header
  let s ← skipMessageKeys p s header.n
  takeKey p s

/-- `AdvanceForHeader`. -/
def advanceForHeader (rnd : Except String Key) (s : State) (header : Header) :
    Except Err (State × Key) :=
  match s.mkSkipped[skippedKeyForHeader header]? with
  | some mk =>
      .ok ({ s with mkSkipped := s.mkSkipped.erase (skippedKeyForHeader header) }, mk)
  | none => advanceChain p rnd s header

def decryptWithMessageKey (mk : Key) (msg : Message) (associatedData : Bytes) :
    Except Err Bytes :=
  let (encKey, _, _) := deriveMessageKeys p mk
  if msg.ciphertext.length < 12 then
    .error (.wrap .invalidMessage "decrypt ciphertext too short")
  else
    (aesGCMDecrypt p encKey (msg.ciphertext.drop 12) (msg.ciphertext.take 12)
      (messageAD associatedData msg.header)).mapError fun e =>
        .join (.sentinel .invalidMAC) (.context "decrypt" e)

/-- `Decrypt`: the state changes only when the plaintext is returned. -/
def decrypt (rnd : Except String Key) (s : State) (msg : Message) (associatedData : Bytes) :
    Except Err (State × Bytes) :=
  let key := skippedKeyForHeader msg.header
  match s.mkSkipped[key]? with
  | some mk => do
      let plaintext ← decryptWithMessageKey p mk msg associatedData
      return ({ s with mkSkipped := s.mkSkipped.erase key }, plaintext)
  | none => do
      let (next, mk) ← advanceChain p rnd s msg.header
      let plaintext ← decryptWithMessageKey p mk msg associatedData
      return (next, plaintext)

/-- `Decrypt` opens the message with the key `AdvanceForHeader` returns and leaves the state
`AdvanceForHeader` leaves. -/
theorem decrypt_eq (rnd : Except String Key) (s : State) (msg : Message) (ad : Bytes) :
    decrypt p rnd s msg ad = (do
      let (next, mk) ← advanceForHeader p rnd s msg.header
      let plaintext ← decryptWithMessageKey p mk msg ad
      return (next, plaintext)) := by
  unfold decrypt advanceForHeader
  dsimp only
  cases s.mkSkipped[skippedKeyForHeader msg.header]? with
  | none => rfl
  | some mk => rfl

end SignalGo.Ratchet
