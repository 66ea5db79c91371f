import SignalGo.Store

/-!
# X3DH: the two sides of the handshake

`Initiator.processPreKeyBundle` and `processInitialMessage`, as the `x3dh` package has them. Both
concatenate three or four Diffie-Hellman outputs and derive their secrets from that: one key
without Kyber, three with it.

* `keyMaterial`, `deriveSecrets`: the part the two sides share.
* `Initiator.processPreKeyBundle`: from the responder's bundle to the initial message.
* `processInitialMessage`: from the initial message to the same secrets; the one-time pre-key
  is removed from the store as soon as its term is computed.
-/

namespace SignalGo.X3dh

open Effect

variable (s : Suite)

/-! ## The key schedule -/

def legacyInfoString : Bytes := "X3DH".toUTF8.toList

def pqInfoString : Bytes := "WhisperText_X25519_SHA-256_CRYSTALS-KYBER-1024".toUTF8.toList

def discontinuity : Bytes := List.replicate 32 0xFF

def deriveLegacySecret (p : Prims) (ikm : Bytes) : Except Err Key := do
  let secret ← hkdf p ikm [] legacyInfoString 32
  return secret

/-- Root key, initial chain key and key of the post-quantum ratchet. -/
def derivePQSecret (p : Prims) (ikm : Bytes) : Except Err (Key × Key × Key) := do
  let secret ← hkdf p ikm [] pqInfoString 96
  return (.ofBytes 32 (secret.toBytes.take 32), .ofBytes 32 ((secret.toBytes.take 64).drop 32),
    .ofBytes 32 ((secret.toBytes.take 96).drop 64))

/-- `AssociatedData`: the two identities in their wire form. -/
def associatedData (initiator responder : IdentityKey) : Bytes :=
  serializeWirePublicKey initiator.publicKey ++ serializeWirePublicKey responder.publicKey

/-- What a handshake derives. -/
structure Secrets where
  shared : Key
  initialChain : Option Key
  pqrKey : Option Key
  deriving DecidableEq

/-- The Diffie-Hellman outputs in the order of the protocol, with or without the fourth. -/
def keyMaterial (dh1 dh2 dh3 : Key) (dh4 : Option Key) : Bytes :=
  dh1.toBytes ++ dh2.toBytes ++ dh3.toBytes ++ (dh4.map ByteArr.toBytes).getD []

/-- The end of both functions: with a Kyber secret the post-quantum schedule, without one the
legacy schedule. -/
def deriveSecrets (p : Prims) (ikm : Bytes) (kyberSS : Option Bytes) : Except Err Secrets :=
  match kyberSS with
  | some ss => do
      let (root, chain, pqr) ← derivePQSecret p (discontinuity ++ ikm ++ ss)
      return { shared := root, initialChain := some chain, pqrKey := some pqr }
  | none => do
      let root ← deriveLegacySecret p ikm
      return { shared := root, initialChain := none, pqrKey := none }

/-- The lengths are constants, so that deriving never fails. -/
theorem deriveSecrets_ok (p : Prims) (ikm : Bytes) (kyberSS : Option Bytes) :
    ∃ secrets, deriveSecrets p ikm kyberSS = .ok secrets := by
  cases kyberSS with
  | some ss =>
    rw [deriveSecrets, derivePQSecret, hkdf_ok p (by decide)]
    exact ⟨_, rfl⟩
  | none =>
    rw [deriveSecrets, deriveLegacySecret, hkdf_ok p (by decide)]
    exact ⟨_, rfl⟩

/-! ## The initiator -/

/-- An initiator with the generators it calls: what the ephemeral generator returned, and the
encapsulation as a function of the public key. -/
structure Initiator where
  identityKey : IdentityKeyPair
  generateEphemeral : Except Err KeyPair
  kyberEncapsulate : Bytes → Except Err (Bytes × Bytes)

/-- `NewInitiator`: the generators of the `crypto` package over the given randomness. -/
def newInitiator (identityKey : IdentityKeyPair) (rnd : Except String Key) (kyberRnd : Bytes) :
    Initiator where
  identityKey := identityKey
  generateEphemeral := generateKeyPair s.toPrims rnd
  kyberEncapsulate := kyber1024Encapsulate s kyberRnd

/-- The fourth term, if the bundle has a one-time pre-key. -/
def Initiator.dh4 (ephemeral : KeyPair) (preKeyPublic : Option Key) : Except Err (Option Key) :=
  match preKeyPublic with
  | none => .ok none
  | some pub => do
      let out ← (dh s.toPrims ephemeral.privateKey pub).mapError (.context "initiator: dh4")
      return some out

/-- The shared secret and the ciphertext for the bundle's Kyber key, if it has one. -/
def Initiator.encapsulate (x : Initiator) (bundle : PreKeyBundle) :
    Except Err (Option Bytes × Bytes) :=
  match bundle.kyberPreKeyID with
  | none => .ok (none, [])
  | some _ => do
      let (ss, ct) ← (x.kyberEncapsulate bundle.kyberPreKeyPublic).mapError
        (.context "initiator: kyber encapsulate")
      return (some ss, ct)

def Initiator.processPreKeyBundle (x : Initiator) (bundle : PreKeyBundle) :
    Except Err Result := do
  (bundle.validate s).mapError (.context "initiator: invalid bundle")
  let ephemeral ← x.generateEphemeral.mapError (.context "initiator: generate ephemeral")
  let dh1 ← (dh s.toPrims x.identityKey.privateKey bundle.signedPreKeyPublic).mapError
    (.context "initiator: dh1")
  let dh2 ← (dh s.toPrims ephemeral.privateKey bundle.identityKey.publicKey).mapError
    (.context "initiator: dh2")
  let dh3 ← (dh s.toPrims ephemeral.privateKey bundle.signedPreKeyPublic).mapError
    (.context "initiator: dh3")
  let dh4 ← Initiator.dh4 s ephemeral bundle.preKeyPublic
  let (kyberSS, kyberCiphertext) ← x.encapsulate bundle
  let secrets ← (deriveSecrets s.toPrims (keyMaterial dh1 dh2 dh3 dh4) kyberSS).mapError
    (.context "initiator: hkdf")
  return {
    sharedSecret := secrets.shared
    initialChainKey := secrets.initialChain
    pqrKey := secrets.pqrKey
    associatedData := associatedData x.identityKey.publicKey bundle.identityKey
    remoteIdentity := bundle.identityKey
    initialMessage := {
      identityKey := x.identityKey.publicKey
      ephemeralKey := ephemeral.publicKey
      preKeyID := bundle.preKeyID
      signedPreKeyID := bundle.signedPreKeyID
      kyberPreKeyID := bundle.kyberPreKeyID
      kyberCiphertext
      ciphertext := [] }
    localEphemeral := some ephemeral
    localRatchetKey := none
    remoteRatchetKey := some bundle.signedPreKeyPublic }

/-! ## The responder -/

/-- The fourth term, if the message names a one-time pre-key, which is used up by it. -/
def responderDH4 (preKeyID : Option UInt32) (ephemeralKey : Key) :
    EStateM Err Store (Option Key) :=
  match preKeyID with
  | none => pure none
  | some id => do
      match ← reads (·.preKeys[id]?) with
      | none => fail (.wrap .preKeyNotFound s!"one-time pre-key {id}")
      | some pre => do
          let out ← lift ((dh s.toPrims pre.keyPair.privateKey ephemeralKey).mapError
            (.context "responder: dh4"))
          update (Store.removePreKey id)
          return some out

/-- The Kyber secret, if the message has one. -/
def decapsulate (msg : Message) : EStateM Err Store (Option Bytes) :=
  match msg.kyberPreKeyID with
  | none =>
      if 0 < msg.kyberCiphertext.length then
        fail (.wrap .invalidMessage "kyber id/ciphertext mismatch")
      else pure none
  | some id =>
      if msg.kyberCiphertext.length = 0 then
        fail (.wrap .invalidMessage "kyber id/ciphertext mismatch")
      else do
        match ← reads (·.kyberKeys[id]?) with
        | none => fail (.wrap .preKeyNotFound s!"kyber pre-key {id}")
        | some kyberPreKey => do
            let ss ← lift ((kyber1024Decapsulate s kyberPreKey.keyPair.privateKey
              msg.kyberCiphertext).mapError (.context "responder: kyber decapsulate"))
            return some ss

/-- `Responder.ProcessInitialMessage` for a responder made of an identity, a signed pre-key and
the store. -/
def processInitialMessage (identityKey : IdentityKeyPair) (signedPreKey : SignedPreKey)
    (msg : Message) : EStateM Err Store Result :=
  if msg.signedPreKeyID ≠ signedPreKey.id then
    fail (.new "responder: signed pre-key id mismatch")
  else do
    let dh1 ← lift ((dh s.toPrims signedPreKey.keyPair.privateKey
      msg.identityKey.publicKey).mapError (.context "responder: dh1"))
    let dh2 ← lift ((dh s.toPrims identityKey.privateKey msg.ephemeralKey).mapError
      (.context "responder: dh2"))
    let dh3 ← lift ((dh s.toPrims signedPreKey.keyPair.privateKey msg.ephemeralKey).mapError
      (.context "responder: dh3"))
    let dh4 ← responderDH4 s msg.preKeyID msg.ephemeralKey
    let kyberSS ← decapsulate s msg
    let secrets ← lift ((deriveSecrets s.toPrims (keyMaterial dh1 dh2 dh3 dh4) kyberSS).mapError
      (.context "responder: hkdf"))
    return {
      sharedSecret := secrets.shared
      initialChainKey := secrets.initialChain
      pqrKey := secrets.pqrKey
      associatedData := associatedData msg.identityKey identityKey.publicKey
      remoteIdentity := msg.identityKey
      initialMessage := msg
      localEphemeral := none
      localRatchetKey := some signedPreKey.keyPair
      remoteRatchetKey := none }

end SignalGo.X3dh
