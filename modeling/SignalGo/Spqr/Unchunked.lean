import SignalGo.Spqr.Mlkem

/-!
# The key agreement without chunks

The two sides of one epoch. One side sends the header of a fresh public key, then the key, and
decapsulates; the other encapsulates against the header, then against the key. A type per state,
as in the source; the nil checks on them are left out.

The authenticator is shared by pointer between a state and its successor. `sendCt1` is the only
function of the sending side that updates it, so its effect on the old state is the field
`auth` of the new one.
-/

namespace SignalGo.Spqr

variable (p : Prims) (kem : Kem)

def pqrSckaKeyInfo : Bytes := "Signal_PQCKA_V1_MLKEM768:SCKA Key".toUTF8.toList

structure EpochSecret where
  epoch : UInt64
  secret : Bytes
  deriving DecidableEq

/-- `deriveSckaKey`; the length is within HKDF's limit, so there is no error. -/
def deriveSckaKey (epoch : UInt64) (secret : Bytes) : Bytes :=
  (hkdfBytes p secret (List.replicate 32 0) (pqrSckaKeyInfo ++ putUint64 epoch) 32).toBytes

@[simp] theorem length_deriveSckaKey (epoch : UInt64) (secret : Bytes) :
    (deriveSckaKey p epoch secret).length = 32 :=
  ByteArr.length_toBytes _

/-! ## The side that sends the key -/

structure UnchunkedKeysUnsampled where
  epoch : UInt64
  auth : Authenticator
  deriving DecidableEq

structure UnchunkedHeaderSent where
  epoch : UInt64
  auth : Authenticator
  ek : Bytes
  dk : Bytes
  deriving DecidableEq

structure UnchunkedEkSent where
  epoch : UInt64
  auth : Authenticator
  dk : Bytes
  deriving DecidableEq

structure UnchunkedEkSentCt1Received where
  epoch : UInt64
  auth : Authenticator
  dk : Bytes
  ct1 : Bytes
  deriving DecidableEq

/-! ## The side that sends the ciphertext -/

structure UnchunkedNoHeaderReceived where
  epoch : UInt64
  auth : Authenticator
  deriving DecidableEq

structure UnchunkedHeaderReceived where
  epoch : UInt64
  auth : Authenticator
  hdr : Bytes
  deriving DecidableEq

structure UnchunkedCt1Sent where
  epoch : UInt64
  auth : Authenticator
  hdr : Bytes
  encaps : MlkemEncapsulationState
  ct1 : Bytes
  deriving DecidableEq

structure UnchunkedCt1SentEkReceived where
  epoch : UInt64
  auth : Authenticator
  encaps : MlkemEncapsulationState
  ek : Bytes
  ct1 : Bytes
  deriving DecidableEq

structure UnchunkedCt2Sent where
  epoch : UInt64
  auth : Authenticator
  deriving DecidableEq

/-! ## Transitions of the side that sends the key -/

def newUnchunkedKeysUnsampled (authKey : Bytes) : Except Err UnchunkedKeysUnsampled :=
  if authKey.length = 0 then .error (.sentinel .spqrInvalidMessage)
  else .ok { epoch := 1, auth := newAuthenticator p authKey 1 }

/-- `sendHeader`: the next state, the header and its MAC. -/
def UnchunkedKeysUnsampled.sendHeader (s : UnchunkedKeysUnsampled) (rnd : Rand) :
    Except Err (UnchunkedHeaderSent × Bytes × Bytes) := do
  let keys ← mlkemGenerateKeys kem rnd
  let mac := s.auth.macHdr p s.epoch keys.hdr
  return ({ epoch := s.epoch, auth := s.auth, ek := keys.ek, dk := keys.dk }, keys.hdr, mac)

def UnchunkedHeaderSent.sendEk (s : UnchunkedHeaderSent) : UnchunkedEkSent × Bytes :=
  ({ epoch := s.epoch, auth := s.auth, dk := s.dk }, s.ek)

/-- `recvCt1`: both branches of the source build the same state. -/
def UnchunkedEkSent.recvCt1 (s : UnchunkedEkSent) (_epoch : UInt64) (ct1 : Bytes) :
    UnchunkedEkSentCt1Received where
  epoch := s.epoch
  auth := s.auth
  dk := s.dk
  ct1 := ct1

def UnchunkedEkSentCt1Received.recvCt2 (s : UnchunkedEkSentCt1Received) (ct2 mac : Bytes) :
    Except Err (UnchunkedNoHeaderReceived × EpochSecret) :=
  if ct2.length ≠ mlkemCiphertext2Size then
    .error (.new s!"spqr: invalid ct2 size {ct2.length}")
  else if mac.length ≠ authenticatorMacSize then .error (.sentinel .spqrInvalidMessage)
  else do
    let ss ← mlkemDecaps kem s.dk s.ct1 ct2
    let key := deriveSckaKey p s.epoch ss
    let auth := s.auth.update p s.epoch key
    auth.verifyCt p s.epoch (s.ct1 ++ ct2) mac
    return ({ epoch := s.epoch + 1, auth }, { epoch := s.epoch, secret := key })

/-! ## Transitions of the side that sends the ciphertext -/

def newUnchunkedNoHeaderReceived (authKey : Bytes) : Except Err UnchunkedNoHeaderReceived :=
  if authKey.length = 0 then .error (.sentinel .spqrInvalidMessage)
  else .ok { epoch := 1, auth := newAuthenticator p authKey 1 }

def UnchunkedNoHeaderReceived.recvHeader (s : UnchunkedNoHeaderReceived) (epoch : UInt64)
    (hdr mac : Bytes) : Except Err UnchunkedHeaderReceived :=
  if epoch ≠ s.epoch then .error (.sentinel .spqrEpochOutOfRange)
  else if hdr.length ≠ mlkemHeaderSize then .error (.sentinel .spqrInvalidMessage)
  else do
    s.auth.verifyHdr p epoch hdr mac
    return { epoch := s.epoch, auth := s.auth, hdr }

/-- `sendCt1`: the next state, the first part of the ciphertext and the epoch secret. -/
def UnchunkedHeaderReceived.sendCt1 (s : UnchunkedHeaderReceived) (rnd : Rand) :
    Except Err (UnchunkedCt1Sent × Bytes × EpochSecret) := do
  let (ct1, encapsState, ss) ← mlkemEncaps1 kem s.hdr rnd
  let key := deriveSckaKey p s.epoch ss
  let auth := s.auth.update p s.epoch key
  return ({ epoch := s.epoch, auth, hdr := s.hdr, encaps := encapsState, ct1 },
    ct1, { epoch := s.epoch, secret := key })

def UnchunkedCt1Sent.recvEk (s : UnchunkedCt1Sent) (epoch : UInt64) (ek : Bytes) :
    Except Err UnchunkedCt1SentEkReceived :=
  if epoch ≠ s.epoch then .error (.sentinel .spqrEpochOutOfRange)
  else if ¬ mlkemEKMatchesHeader kem ek s.hdr then .error (.sentinel .spqrErroneousData)
  else .ok { epoch := s.epoch, auth := s.auth, encaps := s.encaps, ek, ct1 := s.ct1 }

/-- `sendCt2`: the next state, the second part of the ciphertext and the MAC. -/
def UnchunkedCt1SentEkReceived.sendCt2 (s : UnchunkedCt1SentEkReceived) :
    Except Err (UnchunkedCt2Sent × Bytes × Bytes) := do
  let ct2 ← mlkemEncaps2 kem s.ek s.encaps
  let mac := s.auth.macCt p s.epoch (s.ct1 ++ ct2)
  return ({ epoch := s.epoch, auth := s.auth }, ct2, mac)

def UnchunkedCt2Sent.recvNextEpoch (s : UnchunkedCt2Sent) (nextEpoch : UInt64) :
    Except Err UnchunkedKeysUnsampled :=
  if nextEpoch ≠ s.epoch + 1 then .error (.sentinel .spqrEpochOutOfRange)
  else .ok { epoch := s.epoch + 1, auth := s.auth }

end SignalGo.Spqr
