import SignalGo.Ratchet.Timeline
import SignalGo.Suite

/-!
# Key types and their encodings

The wire form of a public key, the stored form of an identity key, and the key types a party
publishes and keeps: identity, one-time, signed and Kyber pre-keys, and the bundle made of them.
-/

namespace SignalGo

/-! ## Public keys on the wire -/

/-- `SerializeWirePublicKey`: a type byte in front of the key. -/
def serializeWirePublicKey (pub : Key) : Bytes := 0x05 :: pub.toBytes

def deserializeWirePublicKey (p : Prims) (data : Bytes) : Except Err Key :=
  if data.length ≠ 1 + 32 then
    .error (.wrap .invalidKey s!"wire public key length {data.length}")
  else if data.headD 0 ≠ 0x05 then
    .error (.wrap .invalidKey s!"unsupported wire key type 0x{hexByte (data.headD 0)}")
  else if isValidPublicKey p (.ofBytes 32 (data.drop 1)) then .ok (.ofBytes 32 (data.drop 1))
  else .error (.wrap .invalidKey "invalid wire public key")

@[simp] theorem length_serializeWirePublicKey (pub : Key) :
    (serializeWirePublicKey pub).length = 33 := by
  simp [serializeWirePublicKey]

/-- Valid keys are read back from the wire. -/
theorem deserializeWirePublicKey_serialize {p : Prims} {pub : Key}
    (h : isValidPublicKey p pub = true) :
    deserializeWirePublicKey p (serializeWirePublicKey pub) = .ok pub := by
  simp [deserializeWirePublicKey, serializeWirePublicKey, h]

/-- Others are refused. -/
theorem deserializeWirePublicKey_invalid {p : Prims} {pub : Key}
    (h : isValidPublicKey p pub = false) :
    deserializeWirePublicKey p (serializeWirePublicKey pub) =
      .error (.wrap .invalidKey "invalid wire public key") := by
  simp [deserializeWirePublicKey, serializeWirePublicKey, h]

/-- The public key of a valid key pair passes the check of its order. -/
theorem isValidPublicKey_of_keyPairValid {p : Prims} (laws : Ratchet.DHLaws p) {kp : KeyPair}
    (h : Ratchet.KeyPairValid p kp) : isValidPublicKey p kp.publicKey = true :=
  (isValidPublicKey_iff p _).mpr (laws.total _ kp h)

/-! ## Identity keys -/

def IdentityKey.serialize (k : IdentityKey) : Bytes :=
  1 :: (k.publicKey.toBytes ++ k.signingPublic.toBytes)

def deserializeIdentityKey (p : Prims) (data : Bytes) : Except Err IdentityKey :=
  if data.length ≠ 1 + 32 + 32 then
    .error (.new s!"identity key: invalid length {data.length}")
  else if data.headD 0 ≠ 1 then
    .error (.new s!"identity key: unsupported version {data.headD 0}")
  else
    let k : IdentityKey := {
      publicKey := .ofBytes 32 ((data.drop 1).take 32)
      signingPublic := .ofBytes 32 (data.drop 33) }
    if isValidPublicKey p k.publicKey then .ok k
    else .error (.wrap .invalidKey "identity key invalid")

@[simp] theorem IdentityKey.length_serialize (k : IdentityKey) : k.serialize.length = 65 := by
  simp [serialize]

theorem deserializeIdentityKey_serialize {p : Prims} {k : IdentityKey}
    (h : isValidPublicKey p k.publicKey = true) :
    deserializeIdentityKey p k.serialize = .ok k := by
  have hpub : (k.serialize.drop 1).take 32 = k.publicKey.toBytes := by
    simp [IdentityKey.serialize]
  have hsign : k.serialize.drop 33 = k.signingPublic.toBytes := by
    simp [IdentityKey.serialize]
  rw [deserializeIdentityKey, if_neg (by simp), if_neg (by simp [IdentityKey.serialize])]
  simp only [hpub, hsign, ByteArr.ofBytes_toBytes, h, if_true]

theorem length_of_deserializeIdentityKey {p : Prims} {data : Bytes} {k : IdentityKey}
    (h : deserializeIdentityKey p data = .ok k) : data.length = 65 := by
  unfold deserializeIdentityKey at h
  split at h
  · cases h
  · rename_i hlen
    exact not_not.mp hlen

structure IdentityKeyPair where
  publicKey : IdentityKey
  privateKey : Key
  deriving DecidableEq

/-- The Curve25519 half as a key pair. -/
def IdentityKeyPair.keyPair (k : IdentityKeyPair) : KeyPair where
  publicKey := k.publicKey.publicKey
  privateKey := k.privateKey

def IdentityKey.verify (s : Suite) (k : IdentityKey) (message signature : Bytes) : Bool :=
  s.xeddsaVerify k.publicKey signature message

/-! ## Pre-keys -/

structure PreKey where
  id : UInt32
  keyPair : KeyPair
  deriving DecidableEq

/-- A signed pre-key; `timestamp` is the time it was made, `none` the zero time. -/
structure SignedPreKey where
  id : UInt32
  keyPair : KeyPair
  signature : Bytes
  timestamp : Option Int
  deriving DecidableEq

structure KyberKeyPair where
  publicKey : Bytes
  privateKey : Bytes
  deriving DecidableEq

structure KyberPreKey where
  id : UInt32
  keyPair : KyberKeyPair
  signature : Bytes
  deriving DecidableEq

structure PreKeyBundle where
  registrationID : UInt32
  deviceID : UInt32
  preKeyID : Option UInt32
  preKeyPublic : Option Key
  signedPreKeyID : UInt32
  signedPreKeyPublic : Key
  signedPreKeySignature : Bytes
  kyberPreKeyID : Option UInt32
  kyberPreKeyPublic : Bytes
  kyberPreKeySignature : Bytes
  identityKey : IdentityKey
  deriving DecidableEq

/-- The bundle of a party's public parts. -/
def newPreKeyBundleWithKyber (registrationID deviceID : UInt32) (preKey : Option PreKey)
    (signedPreKey : SignedPreKey) (kyberPreKey : Option KyberPreKey) (identity : IdentityKey) :
    Except Err PreKeyBundle :=
  let bundle : PreKeyBundle := {
    registrationID, deviceID
    preKeyID := preKey.map (·.id)
    preKeyPublic := preKey.map (·.keyPair.publicKey)
    signedPreKeyID := signedPreKey.id
    signedPreKeyPublic := signedPreKey.keyPair.publicKey
    signedPreKeySignature := signedPreKey.signature
    kyberPreKeyID := none
    kyberPreKeyPublic := []
    kyberPreKeySignature := []
    identityKey := identity }
  match kyberPreKey with
  | none => .ok bundle
  | some kyber =>
      if kyber.keyPair.publicKey.length = 0 then
        .error (.wrap .invalidKey "kyber pre-key missing public key")
      else if kyber.signature.length = 0 then
        .error (.wrap .invalidSignature "kyber pre-key missing signature")
      else
        .ok { bundle with
          kyberPreKeyID := some kyber.id
          kyberPreKeyPublic := kyber.keyPair.publicKey
          kyberPreKeySignature := kyber.signature }

/-- The checks of the Kyber part. -/
def PreKeyBundle.validateKyber (s : Suite) (b : PreKeyBundle) : Except Err Unit :=
  if b.kyberPreKeyID.isNone ≠ (b.kyberPreKeyPublic.length = 0) then
    .error (.wrap .invalidMessage "kyber pre-key id/key mismatch")
  else if b.kyberPreKeyID.isNone ≠ (b.kyberPreKeySignature.length = 0) then
    .error (.wrap .invalidMessage "kyber pre-key id/signature mismatch")
  else
    match b.kyberPreKeyID with
    | none => .ok ()
    | some id =>
        if id = 0 then .error (.wrap .invalidKey "kyber pre-key id must be set")
        else if !isKyber1024PublicKey b.kyberPreKeyPublic then
          .error (.wrap .invalidKey "kyber pre-key invalid length")
        else if !b.identityKey.verify s b.kyberPreKeyPublic b.kyberPreKeySignature then
          .error (.wrap .invalidSignature "invalid kyber pre-key signature")
        else .ok ()

/-- `Validate`: signatures and required fields. -/
def PreKeyBundle.validate (s : Suite) (b : PreKeyBundle) : Except Err Unit :=
  if b.signedPreKeySignature.length = 0 then
    .error (.wrap .invalidSignature "missing signed pre-key signature")
  else if b.signedPreKeyID = 0 then
    .error (.wrap .invalidKey "signed pre-key id must be set")
  else if !isValidPublicKey s.toPrims b.identityKey.publicKey then
    .error (.wrap .invalidKey "invalid identity public key")
  else if !isValidPublicKey s.toPrims b.signedPreKeyPublic then
    .error (.wrap .invalidKey "invalid signed pre-key public key")
  else if !b.identityKey.verify s (serializeWirePublicKey b.signedPreKeyPublic)
      b.signedPreKeySignature then
    .error (.wrap .invalidSignature "invalid signed pre-key signature")
  else if b.preKeyID.isNone ≠ b.preKeyPublic.isNone then
    .error (.wrap .invalidMessage "pre-key id/key mismatch")
  else if b.preKeyPublic.any fun pub => !isValidPublicKey s.toPrims pub then
    .error (.wrap .invalidKey "invalid pre-key public key")
  else b.validateKyber s

/-- Validation checks the identity key too. -/
theorem identityKey_of_validate {s : Suite} {b : PreKeyBundle} (h : b.validate s = .ok ()) :
    isValidPublicKey s.toPrims b.identityKey.publicKey = true := by
  unfold PreKeyBundle.validate at h
  split_ifs at h with h1 h2 h3
  all_goals simpa using h3

end SignalGo
