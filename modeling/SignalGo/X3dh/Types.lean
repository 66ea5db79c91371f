import SignalGo.Crypto

/-!
# X3DH: messages and results

The data the handshake hands to the ratchet and to the session layer.
-/

namespace SignalGo

/-- `keys.IdentityKey`. -/
structure IdentityKey where
  publicKey : Key
  signingPublic : Key
  deriving DecidableEq

namespace X3dh

/-- The initial message sent by the initiator. -/
structure Message where
  identityKey : IdentityKey
  ephemeralKey : Key
  preKeyID : Option UInt32
  signedPreKeyID : UInt32
  kyberPreKeyID : Option UInt32
  kyberCiphertext : Bytes
  ciphertext : Bytes
  deriving DecidableEq

/-- The derived shared secret and what goes with it. `initialChainKey` and `pqrKey` are set
by the post-quantum variant only. -/
structure Result where
  sharedSecret : Key
  initialChainKey : Option Key
  pqrKey : Option Key
  associatedData : Bytes
  remoteIdentity : IdentityKey
  initialMessage : Message
  localEphemeral : Option KeyPair
  localRatchetKey : Option KeyPair
  remoteRatchetKey : Option Key
  deriving DecidableEq

end X3dh

end SignalGo
