import SignalGo.Spqr.State

/-!
# Saving the SPQR state

The persisted forms of the chain, of the handshake state and of the whole state, and `Clone`,
which goes through them. Lengths and counts are written as 32-bit numbers and cut off at that
width.

A state is decoded by readers over a moving position (`Decoder`); a slice or index expression
outside the data is a `Fault.panic`. The handshake states share one shape: the epoch, the
authenticator, then byte fields whose lengths are checked at the end.
-/

namespace SignalGo.Spqr

open Std (ExtTreeMap)
open Decoder

/-! ## Byte fields

`DeserializeState` spells out the reading of a length and the bytes behind it in three more
places; the checks and the error are those of `readBytes`. -/

def appendBytes (b : Bytes) : Bytes := putUint32 (UInt32.ofNat b.length) ++ b

def readBytes : Decoder Err Bytes := do
  need 4 errStateDecode
  let n ← u32
  need n.toNat errStateDecode
  bytes n.toNat

/-! ## The chain -/

/-- The bytes of one stored key. -/
def keyBytes (kv : UInt32 × Key) : Bytes := putUint32 kv.1 ++ kv.2.toBytes

def appendChainDir (dir : ChainEpochDirection) : Bytes :=
  putUint32 dir.ctr ++ putUint32 (UInt32.ofNat dir.next.length) ++ dir.next
    ++ putUint32 (UInt32.ofNat dir.prev.keys.size) ++ dir.prev.keys.toList.flatMap keyBytes

def linkBytes (link : ChainEpoch) : Bytes := appendChainDir link.send ++ appendChainDir link.recv

def serializeChain (c : Chain) : Bytes :=
  [1, c.dir] ++ putUint64 c.currentEpoch ++ putUint64 c.sendEpoch ++ c.nextRoot.toBytes
    ++ putUint32 c.params.MaxJump ++ putUint32 c.params.MaxOOO
    ++ putUint32 (UInt32.ofNat c.links.length) ++ c.links.flatMap linkBytes

def errInvalidMessage : Err := .sentinel .spqrInvalidMessage

/-- One pass of the loop of `consumeChainDir` over the stored keys. -/
def consumeKey : Decoder Err (UInt32 × Key) := do
  need (4 + 32) errInvalidMessage
  let idx ← u32
  let key ← array 32
  return (idx, key)

/-- The part of `consumeChainDir` behind the next key: the stored keys, in the order of the data. -/
def consumeHistory : Decoder Err (ExtTreeMap UInt32 Key) := do
  need 4 errInvalidMessage
  let keyCount ← u32
  let keys ← many consumeKey keyCount.toNat
  return keys.foldl (fun history kv => history.insert kv.1 kv.2) ∅

def consumeChainDir : Decoder Err ChainEpochDirection := do
  need (4 + 4) errInvalidMessage
  let ctr ← u32
  let nextLen ← u32
  need nextLen.toNat errInvalidMessage
  let next ← bytes nextLen.toNat
  let keys ← consumeHistory
  return { ctr, next, prev := ⟨keys⟩ }

/-- One pass of the loop of `deserializeChain` over the links. -/
def consumeLink : Decoder Err ChainEpoch := do
  let send ← consumeChainDir
  let recv ← consumeChainDir
  return { send := send, recv }

/-- The chain in data that are not empty. -/
def readChain : Decoder Err Chain := do
  let version ← u8
  if version ≠ 1 then fail errInvalidMessage
  else do
    need 1 errInvalidMessage
    let dir ← u8
    need (8 + 8 + 32 + 4 + 4 + 4) errInvalidMessage
    let currentEpoch ← u64
    let sendEpoch ← u64
    let nextRoot ← array 32
    let maxJump ← u32
    let maxOOO ← u32
    let linkCount ← u32
    let links ← many consumeLink linkCount.toNat
    return {
      dir, currentEpoch, sendEpoch, nextRoot
      params := { MaxJump := maxJump, MaxOOO := maxOOO }
      links }

/-- `deserializeChain`; no data is a nil chain. -/
def deserializeChain (data : Bytes) : Except (Fault Err) (Option Chain) :=
  if data.length = 0 then .ok none
  else do
    let chain ← readChain.run errInvalidMessage data
    return some chain

/-! ## The handshake states -/

def appendAuthenticator (a : Authenticator) : Bytes :=
  appendBytes a.rootKey.toBytes ++ appendBytes a.macKey.toBytes

def readAuthenticator : Decoder Err Authenticator := do
  let rootKey ← readBytes
  let macKey ← readBytes
  if rootKey.length ≠ 32 ∨ macKey.length ≠ 32 then fail errStateDecode
  else return { rootKey := .ofBytes 32 rootKey, macKey := .ofBytes 32 macKey }

def appendEncapsulationState (state : MlkemEncapsulationState) : Bytes :=
  appendBytes state.seed.toBytes ++ appendBytes state.rho.toBytes
    ++ appendBytes state.pkHash.toBytes

def readEncapsulationState : Decoder Err MlkemEncapsulationState := do
  let seed ← readBytes
  let rho ← readBytes
  let pkHash ← readBytes
  if seed.length ≠ 32 ∨ rho.length ≠ 32 ∨ pkHash.length ≠ 32 then fail errStateDecode
  else return { seed := .ofBytes 32 seed, rho := .ofBytes 32 rho, pkHash := .ofBytes 32 pkHash }

/-- How every unchunked state begins. -/
def appendUnchunked (epoch : UInt64) (auth : Authenticator) : Bytes :=
  putUint64 epoch ++ appendAuthenticator auth

def readUnchunked : Decoder Err (UInt64 × Authenticator) := do
  need 8 errStateDecode
  let epoch ← u64
  let auth ← readAuthenticator
  return (epoch, auth)

/-- The epoch and the authenticator alone; three of the states have no more. -/
def deserializeUnchunkedPlain {α : Type} (make : UInt64 → Authenticator → α) (data : Bytes) :
    Except (Fault Err) α :=
  Decoder.run (do
    let head ← readUnchunked
    return make head.1 head.2) errStateDecode data

def serializeUnchunkedKeysUnsampled (s : UnchunkedKeysUnsampled) : Bytes :=
  appendUnchunked s.epoch s.auth

def deserializeUnchunkedKeysUnsampled : Bytes → Except (Fault Err) UnchunkedKeysUnsampled :=
  deserializeUnchunkedPlain fun epoch auth => { epoch := epoch, auth }

def serializeUnchunkedHeaderSent (s : UnchunkedHeaderSent) : Bytes :=
  appendUnchunked s.epoch s.auth ++ appendBytes s.ek ++ appendBytes s.dk

def deserializeUnchunkedHeaderSent (data : Bytes) : Except (Fault Err) UnchunkedHeaderSent :=
  Decoder.run (do
    let head ← readUnchunked
    let ek ← readBytes
    let dk ← readBytes
    if ek.length ≠ mlkemEncapsulationKeySize ∨ dk.length ≠ mlkemDecapsulationKeySize then
      fail errStateDecode
    else return { epoch := head.1, auth := head.2, ek, dk }) errStateDecode data

def serializeUnchunkedEkSent (s : UnchunkedEkSent) : Bytes :=
  appendUnchunked s.epoch s.auth ++ appendBytes s.dk

def deserializeUnchunkedEkSent (data : Bytes) : Except (Fault Err) UnchunkedEkSent :=
  Decoder.run (do
    let head ← readUnchunked
    let dk ← readBytes
    if dk.length ≠ mlkemDecapsulationKeySize then fail errStateDecode
    else return { epoch := head.1, auth := head.2, dk }) errStateDecode data

def serializeUnchunkedEkSentCt1Received (s : UnchunkedEkSentCt1Received) : Bytes :=
  appendUnchunked s.epoch s.auth ++ appendBytes s.dk ++ appendBytes s.ct1

def deserializeUnchunkedEkSentCt1Received (data : Bytes) :
    Except (Fault Err) UnchunkedEkSentCt1Received :=
  Decoder.run (do
    let head ← readUnchunked
    let dk ← readBytes
    let ct1 ← readBytes
    if dk.length ≠ mlkemDecapsulationKeySize ∨ ct1.length ≠ mlkemCiphertext1Size then
      fail errStateDecode
    else return { epoch := head.1, auth := head.2, dk, ct1 }) errStateDecode data

def serializeUnchunkedNoHeaderReceived (s : UnchunkedNoHeaderReceived) : Bytes :=
  appendUnchunked s.epoch s.auth

def deserializeUnchunkedNoHeaderReceived : Bytes → Except (Fault Err) UnchunkedNoHeaderReceived :=
  deserializeUnchunkedPlain fun epoch auth => { epoch := epoch, auth }

def serializeUnchunkedHeaderReceived (s : UnchunkedHeaderReceived) : Bytes :=
  appendUnchunked s.epoch s.auth ++ appendBytes s.hdr

def deserializeUnchunkedHeaderReceived (data : Bytes) :
    Except (Fault Err) UnchunkedHeaderReceived :=
  Decoder.run (do
    let head ← readUnchunked
    let hdr ← readBytes
    if hdr.length ≠ mlkemHeaderSize then fail errStateDecode
    else return { epoch := head.1, auth := head.2, hdr }) errStateDecode data

def serializeUnchunkedCt1Sent (s : UnchunkedCt1Sent) : Bytes :=
  appendUnchunked s.epoch s.auth ++ appendBytes s.hdr ++ appendEncapsulationState s.encaps
    ++ appendBytes s.ct1

def deserializeUnchunkedCt1Sent (data : Bytes) : Except (Fault Err) UnchunkedCt1Sent :=
  Decoder.run (do
    let head ← readUnchunked
    let hdr ← readBytes
    let encaps ← readEncapsulationState
    let ct1 ← readBytes
    if hdr.length ≠ mlkemHeaderSize ∨ ct1.length ≠ mlkemCiphertext1Size then fail errStateDecode
    else return { epoch := head.1, auth := head.2, hdr, encaps, ct1 })
    errStateDecode data

def serializeUnchunkedCt1SentEkReceived (s : UnchunkedCt1SentEkReceived) : Bytes :=
  appendUnchunked s.epoch s.auth ++ appendEncapsulationState s.encaps ++ appendBytes s.ek
    ++ appendBytes s.ct1

def deserializeUnchunkedCt1SentEkReceived (data : Bytes) :
    Except (Fault Err) UnchunkedCt1SentEkReceived :=
  Decoder.run (do
    let head ← readUnchunked
    let encaps ← readEncapsulationState
    let ek ← readBytes
    let ct1 ← readBytes
    if ek.length ≠ mlkemEncapsulationKeySize ∨ ct1.length ≠ mlkemCiphertext1Size then
      fail errStateDecode
    else return { epoch := head.1, auth := head.2, encaps, ek, ct1 })
    errStateDecode data

def serializeUnchunkedCt2Sent (s : UnchunkedCt2Sent) : Bytes :=
  appendUnchunked s.epoch s.auth

def deserializeUnchunkedCt2Sent : Bytes → Except (Fault Err) UnchunkedCt2Sent :=
  deserializeUnchunkedPlain fun epoch auth => { epoch := epoch, auth }

/-! ## The chunked states -/

def decodePolyEncoderWithSize (data : Bytes) (size : Nat) : Except (Fault Err) PolyEncoder := do
  let enc ← decodePolyEncoder data
  if enc.msg.length ≠ size then .error (.err errStateDecode) else return enc

def decodePolyDecoderWithSize (data : Bytes) (size : Nat) : Except (Fault Err) PolyDecoder := do
  let dec ← decodePolyDecoder data
  if dec.ptsNeeded * 2 ≠ size then .error (.err errStateDecode) else return dec

def hdrMessageSize : Nat := mlkemHeaderSize + authenticatorMacSize

def ct2MessageSize : Nat := mlkemCiphertext2Size + authenticatorMacSize

def serializeV1States : V1States → Bytes
  | .keysUnsampled uc => [1] ++ appendBytes (serializeUnchunkedKeysUnsampled uc)
  | .keysSampled uc sendingHdr =>
      [2] ++ appendBytes (serializeUnchunkedHeaderSent uc) ++ appendBytes sendingHdr.serialize
  | .headerSent uc sendingEk receivingCt1 =>
      [3] ++ appendBytes (serializeUnchunkedEkSent uc) ++ appendBytes sendingEk.serialize
        ++ appendBytes receivingCt1.serialize
  | .ct1Received uc sendingEk =>
      [4] ++ appendBytes (serializeUnchunkedEkSentCt1Received uc)
        ++ appendBytes sendingEk.serialize
  | .ekSentCt1Received uc receivingCt2 =>
      [5] ++ appendBytes (serializeUnchunkedEkSentCt1Received uc)
        ++ appendBytes receivingCt2.serialize
  | .noHeaderReceived uc receivingHdr =>
      [6] ++ appendBytes (serializeUnchunkedNoHeaderReceived uc)
        ++ appendBytes receivingHdr.serialize
  | .headerReceived uc receivingEk =>
      [7] ++ appendBytes (serializeUnchunkedHeaderReceived uc) ++ appendBytes receivingEk.serialize
  | .ct1Sampled uc sendingCt1 receivingEk =>
      [8] ++ appendBytes (serializeUnchunkedCt1Sent uc) ++ appendBytes sendingCt1.serialize
        ++ appendBytes receivingEk.serialize
  | .ekReceivedCt1Sampled uc sendingCt1 =>
      [9] ++ appendBytes (serializeUnchunkedCt1SentEkReceived uc)
        ++ appendBytes sendingCt1.serialize
  | .ct1Acknowledged uc receivingEk =>
      [10] ++ appendBytes (serializeUnchunkedCt1Sent uc) ++ appendBytes receivingEk.serialize
  | .ct2Sampled uc sendingCt2 =>
      [11] ++ appendBytes (serializeUnchunkedCt2Sent uc) ++ appendBytes sendingCt2.serialize

/-! The cases of `deserializeV1States` read all their fields before they decode the first. -/

def readTwo {α β : Type} (make : α → β → V1States) (first : Bytes → Except (Fault Err) α)
    (second : Bytes → Except (Fault Err) β) : Decoder Err V1States := do
  let ucBytes ← readBytes
  let codeBytes ← readBytes
  let uc ← lift (first ucBytes)
  let code ← lift (second codeBytes)
  return make uc code

def readThree {α : Type} (make : α → PolyEncoder → PolyDecoder → V1States)
    (first : Bytes → Except (Fault Err) α) (encSize decSize : Nat) : Decoder Err V1States := do
  let ucBytes ← readBytes
  let encBytes ← readBytes
  let decBytes ← readBytes
  let uc ← lift (first ucBytes)
  let enc ← lift (decodePolyEncoderWithSize encBytes encSize)
  let dec ← lift (decodePolyDecoderWithSize decBytes decSize)
  return make uc enc dec

/-- The fields behind the tag of a state. -/
def readTagged (tag : UInt8) : Decoder Err V1States :=
  if tag = 1 then do
    let ucBytes ← readBytes
    let uc ← lift (deserializeUnchunkedKeysUnsampled ucBytes)
    return .keysUnsampled uc
  else if tag = 2 then
    readTwo .keysSampled deserializeUnchunkedHeaderSent
      (decodePolyEncoderWithSize · hdrMessageSize)
  else if tag = 3 then
    readThree .headerSent deserializeUnchunkedEkSent mlkemEncapsulationKeySize mlkemCiphertext1Size
  else if tag = 4 then
    readTwo .ct1Received deserializeUnchunkedEkSentCt1Received
      (decodePolyEncoderWithSize · mlkemEncapsulationKeySize)
  else if tag = 5 then
    readTwo .ekSentCt1Received deserializeUnchunkedEkSentCt1Received
      (decodePolyDecoderWithSize · ct2MessageSize)
  else if tag = 6 then
    readTwo .noHeaderReceived deserializeUnchunkedNoHeaderReceived
      (decodePolyDecoderWithSize · hdrMessageSize)
  else if tag = 7 then
    readTwo .headerReceived deserializeUnchunkedHeaderReceived
      (decodePolyDecoderWithSize · mlkemEncapsulationKeySize)
  else if tag = 8 then
    readThree .ct1Sampled deserializeUnchunkedCt1Sent mlkemCiphertext1Size mlkemEncapsulationKeySize
  else if tag = 9 then
    readTwo .ekReceivedCt1Sampled deserializeUnchunkedCt1SentEkReceived
      (decodePolyEncoderWithSize · mlkemCiphertext1Size)
  else if tag = 10 then
    readTwo .ct1Acknowledged deserializeUnchunkedCt1Sent
      (decodePolyDecoderWithSize · mlkemEncapsulationKeySize)
  else if tag = 11 then
    readTwo .ct2Sampled deserializeUnchunkedCt2Sent (decodePolyEncoderWithSize · ct2MessageSize)
  else fail errStateDecode

def deserializeV1States (data : Bytes) : Except (Fault Err) V1States :=
  Decoder.run (do
    need 1 errStateDecode
    let tag ← u8
    readTagged tag) errStateDecode data

/-! ## The whole state -/

def stateSerializeVersionV1 : UInt8 := 1

def stateSerializeVersionV2 : UInt8 := 2

def serializeLegacyState (s : State) : Bytes :=
  let chainBytes := (s.chain.map serializeChain).getD []
  let dir :=
    match s.chain with
    | some c => c.dir
    | none => (s.negotiation.map VersionNegotiation.direction).getD directionA2B
  [stateSerializeVersionV1, dir] ++ putUint32 (UInt32.ofNat chainBytes.length) ++ chainBytes

def appendNegotiation (vn : VersionNegotiation) : Bytes :=
  [vn.minVersion, vn.direction] ++ putUint32 vn.chainParams.MaxJump
    ++ putUint32 vn.chainParams.MaxOOO ++ appendBytes vn.authKey

/-- The two optional parts that are present. -/
def stateFlags (s : State) : UInt8 :=
  (if s.negotiation.isSome then 0x01 else 0) ||| (if s.chain.isSome then 0x02 else 0)

/-- `Serialize`; a disabled state is nil. -/
def State.serialize (s : State) : Bytes :=
  if s.version = versionDisabled then []
  else
    match s.v1 with
    | none => serializeLegacyState s
    | some v1 =>
        [stateSerializeVersionV2, s.version, stateFlags s]
          ++ (s.negotiation.map appendNegotiation).getD []
          ++ appendBytes (serializeV1States v1)
          ++ (s.chain.map fun c => appendBytes (serializeChain c)).getD []

/-- The first format, behind its version. The direction is skipped. -/
def readLegacyState : Decoder Err State := do
  need 1 errStateDecode
  let _ ← u8
  let chainBytes ← readBytes
  let chain ← lift (deserializeChain chainBytes)
  return { version := versionV1, v1 := none, chain, negotiation := none }

/-- The negotiation data of a state that has them. -/
def readNegotiation : Decoder Err VersionNegotiation := do
  need (2 + 4 + 4) errStateDecode
  let minVersion ← u8
  let direction ← u8
  if versionV1 < minVersion then fail errStateDecode
  else if direction ≠ directionA2B ∧ direction ≠ directionB2A then fail errStateDecode
  else do
    let maxJump ← u32
    let maxOOO ← u32
    let authKey ← readBytes
    if authKey.length = 0 then fail errStateDecode
    else return {
      authKey, direction, minVersion
      chainParams := { MaxJump := maxJump, MaxOOO := maxOOO } }

def readOptNegotiation (flags : UInt8) : Decoder Err (Option VersionNegotiation) :=
  if flags &&& 0x01 ≠ 0 then do
    let vn ← readNegotiation
    return some vn
  else return none

def readOptChain (flags : UInt8) : Decoder Err (Option Chain) :=
  if flags &&& 0x02 ≠ 0 then do
    let chainBytes ← readBytes
    lift (deserializeChain chainBytes)
  else return none

/-- The second format, behind its version. -/
def readStateV2 : Decoder Err State := do
  need 2 errStateDecode
  let version ← u8
  let flags ← u8
  if version ≠ versionV1 then fail errStateDecode
  else do
    let negotiation ← readOptNegotiation flags
    let v1Bytes ← readBytes
    let v1 ← lift (deserializeV1States v1Bytes)
    let chain ← readOptChain flags
    return { version, v1 := some v1, chain, negotiation }

def readState : Decoder Err State := do
  let tag ← u8
  if tag = stateSerializeVersionV1 then readLegacyState
  else if tag = stateSerializeVersionV2 then readStateV2
  else fail errStateDecode

/-- `DeserializeState`; no data is a nil state. -/
def deserializeState (data : Bytes) : Except (Fault Err) (Option State) :=
  if data.length = 0 then .ok none
  else do
    let s ← readState.run errStateDecode data
    return some s

/-- The handshake state of a clone, `none` when its bytes are refused. -/
def cloneV1 (v1 : V1States) : Option V1States :=
  (deserializeV1States (serializeV1States v1)).toOption

/-- The chain of a clone, `none` when its bytes are refused. -/
def cloneChain (c : Chain) : Option (Option Chain) :=
  (deserializeChain (serializeChain c)).toOption

/-- `Clone`; `none` is nil. -/
def State.clone (s : State) : Option State := do
  let v1 ← s.v1.mapM cloneV1
  let chain ← s.chain.mapM cloneChain
  return { version := s.version, v1, chain := chain.join, negotiation := s.negotiation }

end SignalGo.Spqr
