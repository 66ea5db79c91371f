import SignalGo.Spqr.EncodingPersist
import SignalGo.Spqr.Message
import SignalGo.Spqr.Unchunked

/-!
# The key agreement in chunks

The eleven states of one party and their transitions on sending and on receiving. The values of
the key agreement travel as chunks of an erasure code, one per message, while the ratchet's own
messages go back and forth.

`send` changes the state it is called on in place: it returns that state beside the result, for
the case that the caller fails later and keeps it. `recv` is only called on a copy that its
caller drops on an error, so it returns the next state alone.
-/

namespace SignalGo.Spqr

variable (p : Prims) (kem : Kem)

/-- `v1States`: the state of one party, with the source's names. -/
inductive V1States where
  | keysUnsampled (uc : UnchunkedKeysUnsampled)
  | keysSampled (uc : UnchunkedHeaderSent) (sendingHdr : PolyEncoder)
  | headerSent (uc : UnchunkedEkSent) (sendingEk : PolyEncoder) (receivingCt1 : PolyDecoder)
  | ct1Received (uc : UnchunkedEkSentCt1Received) (sendingEk : PolyEncoder)
  | ekSentCt1Received (uc : UnchunkedEkSentCt1Received) (receivingCt2 : PolyDecoder)
  | noHeaderReceived (uc : UnchunkedNoHeaderReceived) (receivingHdr : PolyDecoder)
  | headerReceived (uc : UnchunkedHeaderReceived) (receivingEk : PolyDecoder)
  | ct1Sampled (uc : UnchunkedCt1Sent) (sendingCt1 : PolyEncoder) (receivingEk : PolyDecoder)
  | ekReceivedCt1Sampled (uc : UnchunkedCt1SentEkReceived) (sendingCt1 : PolyEncoder)
  | ct1Acknowledged (uc : UnchunkedCt1Sent) (receivingEk : PolyDecoder)
  | ct2Sampled (uc : UnchunkedCt2Sent) (sendingCt2 : PolyEncoder)

def V1States.epoch : V1States → UInt64
  | keysUnsampled uc => uc.epoch
  | keysSampled uc _ => uc.epoch
  | headerSent uc _ _ => uc.epoch
  | ct1Received uc _ => uc.epoch
  | ekSentCt1Received uc _ => uc.epoch
  | noHeaderReceived uc _ => uc.epoch
  | headerReceived uc _ => uc.epoch
  | ct1Sampled uc _ _ => uc.epoch
  | ekReceivedCt1Sampled uc _ => uc.epoch
  | ct1Acknowledged uc _ => uc.epoch
  | ct2Sampled uc _ => uc.epoch

structure V1Send where
  msg : V1Message
  key : Option EpochSecret
  state : V1States

structure V1Recv where
  key : Option EpochSecret
  state : V1States

/-! ## Initial states -/

def initV1StateA (authKey : Bytes) : Except Err V1States := do
  let uc ← newUnchunkedKeysUnsampled p authKey
  return .keysUnsampled uc

def initV1StateB (authKey : Bytes) : Except Err V1States := do
  let uc ← newUnchunkedNoHeaderReceived p authKey
  let dec ← newPolyDecoder (mlkemHeaderSize + authenticatorMacSize)
  return .noHeaderReceived uc dec

/-! ## Sending -/

/-- A message of the state's epoch with a chunk. -/
def chunkMessage (epoch : UInt64) (kind : MessageType) (c : Chunk) : V1Message where
  epoch := epoch
  payload := { kind, chunk := some c }

/-- A message of the state's epoch without a chunk. -/
def plainMessage (epoch : UInt64) (kind : MessageType) : V1Message where
  epoch := epoch
  payload := { kind, chunk := none }

/-- `sendHdrChunk` of `chunkedKeysUnsampled`. -/
def firstHdrChunk (uc : UnchunkedKeysUnsampled) (rnd : Rand) : Except Err V1Send := do
  let (next, hdr, mac) ← uc.sendHeader p kem rnd
  let enc ← newPolyEncoder (hdr ++ mac)
  let (enc, c) := enc.nextChunk
  return { msg := chunkMessage uc.epoch messageTypeHdr c, key := none,
           state := .keysSampled next enc }

/-- `sendCt1Chunk` of `chunkedHeaderReceived`. -/
def firstCt1Chunk (uc : UnchunkedHeaderReceived) (receivingEk : PolyDecoder) (rnd : Rand) :
    Except Err V1Send := do
  let (next, ct1, key) ← uc.sendCt1 p kem rnd
  let enc ← newPolyEncoder ct1
  let (enc, c) := enc.nextChunk
  return { msg := chunkMessage uc.epoch messageTypeCt1 c, key := some key,
           state := .ct1Sampled next enc receivingEk }

/-- The state `sendCt1Chunk` leaves behind in place: `sendCt1` has updated the authenticator. -/
def headerReceivedAfter (uc : UnchunkedHeaderReceived) (receivingEk : PolyDecoder) (rnd : Rand) :
    V1States :=
  match uc.sendCt1 p kem rnd with
  | .ok (next, _, _) => .headerReceived { uc with auth := next.auth } receivingEk
  | .error _ => .headerReceived uc receivingEk

/-- `v1States.send`: the state changed in place, and the result. -/
def V1States.send (s : V1States) (rnd : Rand) : V1States × Except Err V1Send :=
  match s with
  | keysUnsampled uc => (s, firstHdrChunk p kem uc rnd)
  | keysSampled uc sendingHdr =>
      let (enc, c) := sendingHdr.nextChunk
      let next := keysSampled uc enc
      (next, .ok { msg := chunkMessage uc.epoch messageTypeHdr c, key := none, state := next })
  | headerSent uc sendingEk receivingCt1 =>
      let (enc, c) := sendingEk.nextChunk
      let next := headerSent uc enc receivingCt1
      (next, .ok { msg := chunkMessage uc.epoch messageTypeEk c, key := none, state := next })
  | ct1Received uc sendingEk =>
      let (enc, c) := sendingEk.nextChunk
      let next := ct1Received uc enc
      (next, .ok { msg := chunkMessage uc.epoch messageTypeEkCt1Ack c, key := none, state := next })
  | ekSentCt1Received uc _ =>
      (s, .ok { msg := plainMessage uc.epoch messageTypeCt1Ack, key := none, state := s })
  | noHeaderReceived uc _ =>
      (s, .ok { msg := plainMessage uc.epoch messageTypeNone, key := none, state := s })
  | headerReceived uc receivingEk =>
      (headerReceivedAfter p kem uc receivingEk rnd, firstCt1Chunk p kem uc receivingEk rnd)
  | ct1Sampled uc sendingCt1 receivingEk =>
      let (enc, c) := sendingCt1.nextChunk
      let next := ct1Sampled uc enc receivingEk
      (next, .ok { msg := chunkMessage uc.epoch messageTypeCt1 c, key := none, state := next })
  | ekReceivedCt1Sampled uc sendingCt1 =>
      let (enc, c) := sendingCt1.nextChunk
      let next := ekReceivedCt1Sampled uc enc
      (next, .ok { msg := chunkMessage uc.epoch messageTypeCt1 c, key := none, state := next })
  | ct1Acknowledged uc _ =>
      (s, .ok { msg := plainMessage uc.epoch messageTypeNone, key := none, state := s })
  | ct2Sampled uc sendingCt2 =>
      let (enc, c) := sendingCt2.nextChunk
      let next := ct2Sampled uc enc
      (next, .ok { msg := chunkMessage uc.epoch messageTypeCt2 c, key := none, state := next })

/-! ## Receiving -/

/-- `recvCt1Chunk` of `chunkedKeysSampled`. -/
def keysSampledRecvCt1Chunk (uc : UnchunkedHeaderSent) (c : Chunk) : Except Err V1States := do
  let dec ← newPolyDecoder mlkemCiphertext1Size
  let dec := dec.addChunk c
  let (next, ek) := uc.sendEk
  let enc ← newPolyEncoder ek
  return .headerSent next enc dec

/-- `recvCt1Chunk` of `chunkedHeaderSent`. -/
def headerSentRecvCt1Chunk (uc : UnchunkedEkSent) (sendingEk : PolyEncoder)
    (receivingCt1 : PolyDecoder) (epoch : UInt64) (c : Chunk) : Except Err V1States := do
  let dec := receivingCt1.addChunk c
  match ← dec.decodedMessage with
  | none => return .headerSent uc sendingEk dec
  | some decoded => return .ct1Received (uc.recvCt1 epoch decoded) sendingEk

/-- `recvCt2Chunk` of `chunkedCt1Received`. -/
def ct1ReceivedRecvCt2Chunk (uc : UnchunkedEkSentCt1Received) (c : Chunk) :
    Except Err V1States := do
  let dec ← newPolyDecoder (mlkemCiphertext2Size + authenticatorMacSize)
  return .ekSentCt1Received uc (dec.addChunk c)

/-- `recvCt2Chunk` of `chunkedEkSentCt1Received` once the message is decoded. -/
def recvDecodedCt2 (uc : UnchunkedEkSentCt1Received) (decoded : Bytes) : Except Err V1Recv :=
  if decoded.length < mlkemCiphertext2Size + authenticatorMacSize then
    .error (.sentinel .spqrInvalidMessage)
  else do
    let (nextUc, key) ← uc.recvCt2 p kem (decoded.take mlkemCiphertext2Size)
      (decoded.drop mlkemCiphertext2Size)
    let dec ← newPolyDecoder (mlkemHeaderSize + authenticatorMacSize)
    return { key := some key, state := .noHeaderReceived nextUc dec }

/-- `recvCt2Chunk` of `chunkedEkSentCt1Received`. -/
def ekSentCt1ReceivedRecvCt2Chunk (uc : UnchunkedEkSentCt1Received) (receivingCt2 : PolyDecoder)
    (c : Chunk) : Except Err V1Recv := do
  let dec := receivingCt2.addChunk c
  match ← dec.decodedMessage with
  | none => return { key := none, state := .ekSentCt1Received uc dec }
  | some decoded => recvDecodedCt2 p kem uc decoded

/-- `recvHdrChunk` once the header is decoded. -/
def recvDecodedHdr (uc : UnchunkedNoHeaderReceived) (epoch : UInt64) (decoded : Bytes) :
    Except Err V1States :=
  if decoded.length < mlkemHeaderSize + authenticatorMacSize then
    .error (.sentinel .spqrInvalidMessage)
  else do
    let next ← uc.recvHeader p epoch (decoded.take mlkemHeaderSize) (decoded.drop mlkemHeaderSize)
    let dec ← newPolyDecoder mlkemEncapsulationKeySize
    return .headerReceived next dec

/-- `recvHdrChunk` of `chunkedNoHeaderReceived`. -/
def noHeaderReceivedRecvHdrChunk (uc : UnchunkedNoHeaderReceived) (receivingHdr : PolyDecoder)
    (epoch : UInt64) (c : Chunk) : Except Err V1States := do
  let dec := receivingHdr.addChunk c
  match ← dec.decodedMessage with
  | none => return .noHeaderReceived uc dec
  | some decoded => recvDecodedHdr p uc epoch decoded

/-- The end of `recvEkChunk` and of `recvCt1Ack`: the second part of the ciphertext is made. -/
def sampleCt2 (uc : UnchunkedCt1SentEkReceived) : Except Err V1States := do
  let (ct2State, ct2, mac) ← uc.sendCt2 p kem
  let enc ← newPolyEncoder (ct2 ++ mac)
  return .ct2Sampled ct2State enc

/-- `recvEkChunk` of `chunkedCt1Sampled`. -/
def ct1SampledRecvEkChunk (uc : UnchunkedCt1Sent) (sendingCt1 : PolyEncoder)
    (receivingEk : PolyDecoder) (epoch : UInt64) (c : Chunk) (ct1Ack : Bool) :
    Except Err V1States := do
  let dec := receivingEk.addChunk c
  match ← dec.decodedMessage with
  | none =>
      if ct1Ack then return .ct1Acknowledged uc dec else return .ct1Sampled uc sendingCt1 dec
  | some decoded => do
      let next ← uc.recvEk kem epoch decoded
      if ct1Ack then sampleCt2 p kem next else return .ekReceivedCt1Sampled next sendingCt1

/-- `recvEkChunk` of `chunkedCt1Acknowledged`. -/
def ct1AcknowledgedRecvEkChunk (uc : UnchunkedCt1Sent) (receivingEk : PolyDecoder)
    (epoch : UInt64) (c : Chunk) : Except Err V1States := do
  let dec := receivingEk.addChunk c
  match ← dec.decodedMessage with
  | none => return .ct1Acknowledged uc dec
  | some decoded => do
      let next ← uc.recvEk kem epoch decoded
      sampleCt2 p kem next

/-- A receive that makes no epoch secret. -/
def withoutKey (next : Except Err V1States) : Except Err V1Recv := do
  return { key := none, state := ← next }

/-- What every `recv` of a state does first: a newer epoch is refused, an older one changes
nothing. -/
def V1States.recvAt (s : V1States) (msg : V1Message) (current : Except Err V1Recv) :
    Except Err V1Recv :=
  if s.epoch < msg.epoch then .error (.sentinel .spqrEpochOutOfRange)
  else if msg.epoch < s.epoch then .ok { key := none, state := s }
  else current

/-- The chunk of a message of one of the given types. -/
def V1Message.chunkOf (msg : V1Message) (kinds : List MessageType) : Option Chunk :=
  if msg.payload.kind ∈ kinds then msg.payload.chunk else none

/-- `v1States.recv`. -/
def V1States.recv (s : V1States) (msg : V1Message) : Except Err V1Recv :=
  match s with
  | keysUnsampled uc =>
      if uc.epoch < msg.epoch then .error (.sentinel .spqrEpochOutOfRange)
      else .ok { key := none, state := s }
  | keysSampled uc _ => s.recvAt msg <|
      match msg.chunkOf [messageTypeCt1] with
      | some c => withoutKey (keysSampledRecvCt1Chunk uc c)
      | none => .ok { key := none, state := s }
  | headerSent uc sendingEk receivingCt1 => s.recvAt msg <|
      match msg.chunkOf [messageTypeCt1] with
      | some c => withoutKey (headerSentRecvCt1Chunk uc sendingEk receivingCt1 msg.epoch c)
      | none => .ok { key := none, state := s }
  | ct1Received uc _ => s.recvAt msg <|
      match msg.chunkOf [messageTypeCt2] with
      | some c => withoutKey (ct1ReceivedRecvCt2Chunk uc c)
      | none => .ok { key := none, state := s }
  | ekSentCt1Received uc receivingCt2 => s.recvAt msg <|
      match msg.chunkOf [messageTypeCt2] with
      | some c => ekSentCt1ReceivedRecvCt2Chunk p kem uc receivingCt2 c
      | none => .ok { key := none, state := s }
  | noHeaderReceived uc receivingHdr => s.recvAt msg <|
      match msg.chunkOf [messageTypeHdr] with
      | some c => withoutKey (noHeaderReceivedRecvHdrChunk p uc receivingHdr msg.epoch c)
      | none => .ok { key := none, state := s }
  | headerReceived _ _ => s.recvAt msg (.ok { key := none, state := s })
  | ct1Sampled uc sendingCt1 receivingEk => s.recvAt msg <|
      match msg.chunkOf [messageTypeEk, messageTypeEkCt1Ack] with
      | some c => withoutKey (ct1SampledRecvEkChunk p kem uc sendingCt1 receivingEk msg.epoch c
          (msg.payload.kind = messageTypeEkCt1Ack))
      | none => .ok { key := none, state := s }
  | ekReceivedCt1Sampled uc _ => s.recvAt msg <|
      if msg.payload.kind = messageTypeCt1Ack ∨ msg.payload.kind = messageTypeEkCt1Ack then
        withoutKey (sampleCt2 p kem uc)
      else .ok { key := none, state := s }
  | ct1Acknowledged uc receivingEk => s.recvAt msg <|
      match msg.chunkOf [messageTypeEk, messageTypeEkCt1Ack] with
      | some c => withoutKey (ct1AcknowledgedRecvEkChunk p kem uc receivingEk msg.epoch c)
      | none => .ok { key := none, state := s }
  | ct2Sampled uc _ =>
      if uc.epoch < msg.epoch then
        if msg.epoch = uc.epoch + 1 then
          withoutKey (V1States.keysUnsampled <$> uc.recvNextEpoch msg.epoch)
        else .error (.sentinel .spqrEpochOutOfRange)
      else .ok { key := none, state := s }

end SignalGo.Spqr
