import SignalGo.Spqr.Chain
import SignalGo.Spqr.Encoding

/-!
# SPQR messages

The wire form of one message of the protocol: version byte, epoch and key number as variable-length
integers, the message type, and for most types a chunk.

* `consumeVarint_encode`: what `encodeVarint` writes, `consumeVarint` reads back.
* `deserializeV1Message_serialize`: the same for whole messages.
-/

namespace SignalGo.Spqr

/-! ## Variable-length integers -/

/-- The loop of `encodeVarint`: seven bits per byte, lowest first, at most ten bytes. -/
def encodeVarintLoop : Nat → UInt64 → Bytes
  | 0, _ => []
  | n + 1, v =>
      let b := (v &&& 0x7f).toUInt8
      if v < 0x80 then [b] else (b ||| 0x80) :: encodeVarintLoop n (v >>> 7)

def encodeVarint (v : UInt64) : Bytes := encodeVarintLoop 10 v

/-- Go's `x << s` on `uint64`: all bits are gone from 64 on. -/
def shiftLeft64 (x : UInt64) (s : Nat) : UInt64 := if s < 64 then x <<< UInt64.ofNat s else 0

/-- The loop of `consumeVarint`. Every round reads a byte, so one round more than there are bytes
is never run. -/
def consumeVarintLoop (data : Bytes) : Nat → Nat → UInt64 → Nat → Except Err (UInt64 × Nat)
  | 0, _, _, _ => .error (.sentinel .spqrInvalidMessage)
  | fuel + 1, idx, x, s =>
      match data[idx]? with
      | none => .error (.sentinel .spqrInvalidMessage)
      | some b =>
          if b < 0x80 then
            if s ≥ 64 then .error (.sentinel .spqrInvalidMessage)
            else .ok (x ||| shiftLeft64 b.toUInt64 s, idx + 1)
          else
            consumeVarintLoop data fuel (idx + 1) (x ||| shiftLeft64 (b &&& 0x7f).toUInt64 s)
              (s + 7)

def consumeVarint (data : Bytes) (idx : Nat) : Except Err (UInt64 × Nat) :=
  consumeVarintLoop data (data.length + 1) idx 0 0

/-! ## Messages -/

abbrev MessageType := UInt8

def messageTypeNone : MessageType := 0

def messageTypeHdr : MessageType := 1

def messageTypeEk : MessageType := 2

def messageTypeEkCt1Ack : MessageType := 3

def messageTypeCt1Ack : MessageType := 4

def messageTypeCt1 : MessageType := 5

def messageTypeCt2 : MessageType := 6

/-- `messagePayload`. The `ack` flag of the source is only ever written. -/
structure MessagePayload where
  kind : MessageType
  chunk : Option Chunk
  deriving DecidableEq

structure V1Message where
  epoch : UInt64
  payload : MessagePayload
  deriving DecidableEq

def hasChunk (t : MessageType) : Bool :=
  t = messageTypeHdr ∨ t = messageTypeEk ∨ t = messageTypeEkCt1Ack ∨ t = messageTypeCt1
    ∨ t = messageTypeCt2

/-- The chunk part of `serialize`. -/
def serializeChunk (m : V1Message) : Bytes :=
  if hasChunk m.payload.kind then
    match m.payload.chunk with
    | none => []
    | some c => encodeVarint c.index.toUInt64 ++ c.data.toBytes
  else []

def V1Message.serialize (m : V1Message) (index : UInt32) : Bytes :=
  [versionV1] ++ encodeVarint m.epoch ++ encodeVarint index.toUInt64 ++ [m.payload.kind]
    ++ serializeChunk m

/-- The chunk part of `deserializeV1Message`. -/
def deserializeChunk (data : Bytes) (pos : Nat) : Except (Fault Err) (Chunk × Nat) := do
  let (chunkIndex, pos) ← (consumeVarint data pos).mapError
    fun _ => .err (.wrap .spqrInvalidMessage "chunk index")
  if pos + polyChunkDataSize > data.length then
    .error (.err (.wrap .spqrInvalidMessage "chunk data"))
  else do
    let bytes ← slice data pos (pos + polyChunkDataSize)
    return ({ index := chunkIndex.toUInt16, data := .ofBytes polyChunkDataSize bytes },
      pos + polyChunkDataSize)

/-- The payload behind the message type. -/
def deserializePayload (data : Bytes) (pos : Nat) (msgType : MessageType) :
    Except (Fault Err) (MessagePayload × Nat) :=
  if hasChunk msgType then do
    let (dataChunk, pos) ← deserializeChunk data pos
    return ({ kind := msgType, chunk := some dataChunk }, pos)
  else return ({ kind := msgType, chunk := none }, pos)

/-- `deserializeV1Message`: the message, the key number and the position behind the message. -/
def deserializeV1Message (data : Bytes) : Except (Fault Err) (V1Message × UInt32 × Nat) :=
  if data[0]? ≠ some versionV1 then .error (.err (.sentinel .spqrInvalidMessage))
  else do
    let (epoch, pos) ← (consumeVarint data 1).mapError
      fun _ => .err (.wrap .spqrInvalidMessage "epoch")
    let (index, pos) ← (consumeVarint data pos).mapError
      fun _ => .err (.wrap .spqrInvalidMessage "index")
    if pos ≥ data.length then .error (.err (.wrap .spqrInvalidMessage "message type"))
    else do
      let msgType ← byteAt data pos
      let (payload, pos) ← deserializePayload data (pos + 1) msgType
      return ({ epoch := epoch, payload }, index.toUInt32, pos)

/-- `Message`, as `ParseMessage` returns it. -/
structure Message where
  version : Version
  epoch : UInt64
  index : UInt32
  type : MessageType
  chunkIndex : UInt32
  chunkData : Bytes
  deriving DecidableEq

def parseMessage (data : Bytes) : Except (Fault Err) Message :=
  match data[0]? with
  | none => .error (.err (.sentinel .spqrInvalidMessage))
  | some version =>
      if version = versionDisabled then
        .ok { version, epoch := 0, index := 0, type := messageTypeNone, chunkIndex := 0,
              chunkData := [] }
      else if version ≠ versionV1 then .error (.err (.sentinel .spqrUnsupportedVersion))
      else do
        let (msg, idx, _) ← deserializeV1Message data
        return {
          version
          epoch := msg.epoch
          index := idx
          type := msg.payload.kind
          chunkIndex := (msg.payload.chunk.map fun c => c.index.toUInt32).getD 0
          chunkData := (msg.payload.chunk.map fun c => c.data.toBytes).getD [] }

/-! ## Reading back what was written -/

theorem toNat_or_shiftLeft64 {x : UInt64} {b : Nat} {y : UInt64} (s : Nat) (hy : y.toNat = b)
    (hx : x.toNat < 2 ^ s) (hb : b * 2 ^ s < 2 ^ 64) :
    (x ||| shiftLeft64 y s).toNat = x.toNat + b * 2 ^ s := by
  unfold shiftLeft64
  split
  · rename_i hs
    rw [UInt64.toNat_or, UInt64.toNat_shiftLeft, hy, UInt64.toNat_ofNat',
      Nat.mod_eq_of_lt (by omega : s < 2 ^ 64), Nat.mod_eq_of_lt hs, Nat.shiftLeft_eq,
      Nat.mod_eq_of_lt hb, Nat.or_comm, mul_comm b, ← Nat.two_pow_add_eq_or_of_lt hx, Nat.add_comm]
  · rename_i hs
    have hpow : 2 ^ 64 ≤ 2 ^ s := Nat.pow_le_pow_right (by omega) (by omega)
    have hzero : b = 0 := by
      by_contra hne
      have : 1 * 2 ^ s ≤ b * 2 ^ s := Nat.mul_le_mul_right _ (by omega)
      omega
    subst hzero
    simp

theorem toNat_low7 (v : UInt64) : (v &&& 0x7f).toUInt8.toNat = v.toNat % 128 := by
  rw [UInt64.toNat_toUInt8, UInt64.toNat_and, show UInt64.toNat 0x7f = 2 ^ 7 - 1 from rfl,
    Nat.and_two_pow_sub_one_eq_mod]
  omega

theorem toNat_continued {b : UInt8} (h : b.toNat < 128) : (b ||| 0x80).toNat = 128 + b.toNat := by
  have hadd := Nat.two_pow_add_eq_or_of_lt (i := 7) (b := b.toNat) (by omega) 1
  rw [UInt8.toNat_or, Nat.or_comm, show UInt8.toNat 0x80 = 2 ^ 7 * 1 from rfl, ← hadd]

theorem toNat_payload {b : UInt8} (h : b.toNat < 128) :
    ((b ||| 0x80) &&& 0x7f).toUInt64.toNat = b.toNat := by
  rw [UInt8.toNat_toUInt64, UInt8.toNat_and, toNat_continued h,
    show UInt8.toNat 0x7f = 2 ^ 7 - 1 from rfl, Nat.and_two_pow_sub_one_eq_mod]
  omega

theorem length_encodeVarintLoop_pos (n : Nat) (v : UInt64) :
    0 < (encodeVarintLoop (n + 1) v).length := by
  rw [encodeVarintLoop]
  split <;> simp

section

variable (pre post : Bytes) (b : UInt8) (x : UInt64) (s fuel : Nat)

theorem getElem?_middle : (pre ++ [b] ++ post)[pre.length]? = some b := by simp

theorem consumeVarintLoop_last (hb : b < 0x80) (hs : s < 64) :
    consumeVarintLoop (pre ++ [b] ++ post) (fuel + 1) pre.length x s
      = .ok (x ||| shiftLeft64 b.toUInt64 s, pre.length + 1) := by
  simp only [consumeVarintLoop, getElem?_middle]
  rw [if_pos hb, if_neg (by omega)]

theorem consumeVarintLoop_more (hb : ¬ b < 0x80) :
    consumeVarintLoop (pre ++ [b] ++ post) (fuel + 1) pre.length x s
      = consumeVarintLoop (pre ++ [b] ++ post) fuel (pre.length + 1)
          (x ||| shiftLeft64 (b &&& 0x7f).toUInt64 s) (s + 7) := by
  rw [consumeVarintLoop]
  simp only [getElem?_middle]
  rw [if_neg hb]

end

/-- The bits of the rest of the number arrive above the bits that were read. -/
theorem consumeVarintLoop_encode (n : Nat) (v x : UInt64) (s : Nat) (pre post : Bytes) (fuel : Nat)
    (hv : v.toNat < 2 ^ (7 * (n + 1))) (hs : v.toNat * 2 ^ s < 2 ^ 64) (hs' : s < 64)
    (hx : x.toNat < 2 ^ s) (hfuel : (encodeVarintLoop (n + 1) v).length ≤ fuel) :
    ∃ r : UInt64, r.toNat = x.toNat + v.toNat * 2 ^ s ∧
      consumeVarintLoop (pre ++ encodeVarintLoop (n + 1) v ++ post) fuel pre.length x s
        = .ok (r, pre.length + (encodeVarintLoop (n + 1) v).length) := by
  have hpos := length_encodeVarintLoop_pos n v
  obtain ⟨fuel, rfl⟩ : ∃ m, fuel = m + 1 := ⟨fuel - 1, by omega⟩
  have hlow := toNat_low7 v
  by_cases hlt : v < 0x80
  · have hv' : v.toNat < 128 := UInt64.lt_iff_toNat_lt.mp hlt
    rw [Nat.mod_eq_of_lt hv'] at hlow
    have hbyte : (v &&& 0x7f).toUInt8 < 0x80 := UInt8.lt_iff_toNat_lt.mpr (hlow ▸ hv')
    rw [encodeVarintLoop, if_pos hlt]
    exact ⟨_, toNat_or_shiftLeft64 s ((UInt8.toNat_toUInt64 _).trans hlow) hx hs,
      consumeVarintLoop_last pre post _ x s fuel hbyte hs'⟩
  · have hv' : 128 ≤ v.toNat := by
      by_contra h
      exact hlt (UInt64.lt_iff_toNat_lt.mpr (by simpa using h))
    have hb : (v &&& 0x7f).toUInt8.toNat < 128 := by omega
    have hbyte : ¬ (v &&& 0x7f).toUInt8 ||| 0x80 < 0x80 := by
      rw [UInt8.lt_iff_toNat_lt, toNat_continued hb]
      show ¬ 128 + _ < 128
      omega
    have hshift : (v >>> 7).toNat = v.toNat / 128 := by
      rw [UInt64.toNat_shiftRight, show UInt64.toNat 7 % 64 = 7 from rfl,
        Nat.shiftRight_eq_div_pow]
    -- another round fits: the number has a bit above these seven
    have hpow : 2 ^ (s + 7) = 128 * 2 ^ s := by ring
    have hs7 : s + 7 < 64 := by
      by_contra h
      have h1 : 2 ^ 64 ≤ 2 ^ (s + 7) := Nat.pow_le_pow_right (by omega) (by omega)
      have h2 : 128 * 2 ^ s ≤ v.toNat * 2 ^ s := Nat.mul_le_mul_right _ hv'
      omega
    cases n with
    | zero => omega
    | succ n =>
      have hdm := Nat.div_add_mod v.toNat 128
      have hsplit : v.toNat * 2 ^ s = v.toNat % 128 * 2 ^ s + v.toNat / 128 * 2 ^ (s + 7) := by
        rw [hpow]
        nth_rewrite 1 [← hdm]
        ring
      have hx' := toNat_or_shiftLeft64 s ((toNat_payload hb).trans hlow) hx (by omega)
      have hx'' : (x ||| shiftLeft64 (((v &&& 0x7f).toUInt8 ||| 0x80) &&& 0x7f).toUInt64 s).toNat
          < 2 ^ (s + 7) := by
        have : v.toNat % 128 * 2 ^ s ≤ 127 * 2 ^ s := Nat.mul_le_mul_right _ (by omega)
        omega
      obtain ⟨r, hr, hread⟩ := consumeVarintLoop_encode n (v >>> 7) _ (s + 7)
        (pre ++ [(v &&& 0x7f).toUInt8 ||| 0x80]) post fuel
        (by rw [hshift]; have : 2 ^ (7 * (n + 1 + 1)) = 128 * 2 ^ (7 * (n + 1)) := by ring
            omega)
        (by rw [hshift]; omega) hs7 hx''
        (by rw [encodeVarintLoop, if_neg hlt, List.length_cons] at hfuel; omega)
      refine ⟨r, by rw [hr, hx', hshift]; omega, ?_⟩
      rw [encodeVarintLoop, if_neg hlt]
      have hmore := consumeVarintLoop_more pre (encodeVarintLoop (n + 1) (v >>> 7) ++ post)
        ((v &&& 0x7f).toUInt8 ||| 0x80) x s fuel hbyte
      simp only [List.append_assoc, List.nil_append, List.cons_append, List.length_append,
        List.length_cons, List.length_nil, Nat.zero_add] at hmore hread ⊢
      rw [hmore, hread]
      congr 2
      omega

theorem consumeVarint_encode (v : UInt64) (pre post : Bytes) :
    consumeVarint (pre ++ encodeVarint v ++ post) pre.length
      = .ok (v, pre.length + (encodeVarint v).length) := by
  have hlt := v.toNat_lt
  obtain ⟨r, hr, hread⟩ := consumeVarintLoop_encode 9 v 0 0 pre post
    ((pre ++ encodeVarint v ++ post).length + 1) (by omega) (by omega) (by omega) (by decide)
    (by rw [List.length_append, List.length_append]
        exact Nat.le_succ_of_le (Nat.le_add_right_of_le (Nat.le_add_left _ _)))
  have hrv : r = v := UInt64.toNat_inj.mp (by simpa using hr)
  rw [hrv] at hread
  exact hread

/-- The same, as a step of a longer decoder. -/
theorem consumeVarint_eq (v : UInt64) (data : Bytes) (pos : Nat) (pre post : Bytes)
    (hdata : data = pre ++ encodeVarint v ++ post) (hpos : pos = pre.length) :
    consumeVarint data pos = .ok (v, pos + (encodeVarint v).length) := by
  subst hdata hpos
  exact consumeVarint_encode v pre post

/-- A message the state machine sends: with a chunk exactly when its type has one. -/
def V1Message.WellFormed (m : V1Message) : Prop :=
  m.payload.chunk.isSome = hasChunk m.payload.kind

theorem deserializePayload_serialize {m : V1Message} (h : m.WellFormed) (data : Bytes) (pos : Nat)
    (pre post : Bytes) (hdata : data = pre ++ serializeChunk m ++ post) (hpos : pos = pre.length) :
    deserializePayload data pos m.payload.kind
      = .ok (m.payload, pos + (serializeChunk m).length) := by
  obtain ⟨epoch, kind, chunk⟩ := m
  have h' : chunk.isSome = hasChunk kind := h
  unfold deserializePayload
  cases chunk with
  | none =>
    have hk : hasChunk kind = false := h'.symm
    simp only [serializeChunk, hk, Bool.false_eq_true, if_false]
    rfl
  | some c =>
    have hk : hasChunk kind = true := h'.symm
    simp only [serializeChunk, hk, if_true] at hdata ⊢
    have hidx := consumeVarint_eq c.index.toUInt64 data pos pre (c.data.toBytes ++ post)
      (by rw [hdata]; simp only [List.append_assoc]) hpos
    have hlen : pos + (encodeVarint c.index.toUInt64).length + polyChunkDataSize ≤ data.length := by
      simp only [hdata, hpos, List.length_append, ByteArr.length_toBytes]
      omega
    have hbytes : slice (ε := Err) data (pos + (encodeVarint c.index.toUInt64).length)
        (pos + (encodeVarint c.index.toUInt64).length + polyChunkDataSize)
        = .ok c.data.toBytes :=
      slice_eq (pre ++ encodeVarint c.index.toUInt64) c.data.toBytes post
        (by rw [hdata]; simp only [List.append_assoc]) (by rw [hpos, List.length_append])
        (by rw [ByteArr.length_toBytes])
    have hchunk : deserializeChunk data pos =
        .ok (c, pos + (encodeVarint c.index.toUInt64 ++ c.data.toBytes).length) := by
      rw [deserializeChunk, hidx]
      show (if _ > _ then _ else _) = _
      rw [if_neg (by omega), hbytes, ok_bind, ByteArr.ofBytes_toBytes, List.length_append,
        ByteArr.length_toBytes, ← Nat.add_assoc]
      simp
      rfl
    rw [hchunk, ok_bind]
    rfl

/-- **Round trip** of a message and its key number, whatever follows the bytes. -/
theorem deserializeV1Message_append {m : V1Message} (h : m.WellFormed) (index : UInt32)
    (trailing : Bytes) :
    deserializeV1Message (m.serialize index ++ trailing)
      = .ok (m, index, (m.serialize index).length) := by
  generalize hdata : m.serialize index ++ trailing = data
  have hser : data = [versionV1] ++ encodeVarint m.epoch ++ encodeVarint index.toUInt64
      ++ [m.payload.kind] ++ serializeChunk m ++ trailing := by
    rw [← hdata, V1Message.serialize]
  -- each field stands where the reader looks for it
  have hepoch := consumeVarint_eq m.epoch data 1 [versionV1]
    (encodeVarint index.toUInt64 ++ [m.payload.kind] ++ serializeChunk m ++ trailing)
    (by simp [hser]) rfl
  have hindex := consumeVarint_eq index.toUInt64 data
    (1 + (encodeVarint m.epoch).length) ([versionV1] ++ encodeVarint m.epoch)
    ([m.payload.kind] ++ serializeChunk m ++ trailing) (by simp [hser]) (by simp; omega)
  have hkind : byteAt (ε := Err) data
      (1 + (encodeVarint m.epoch).length + (encodeVarint index.toUInt64).length)
      = .ok m.payload.kind :=
    byteAt_eq ([versionV1] ++ encodeVarint m.epoch ++ encodeVarint index.toUInt64)
      (serializeChunk m ++ trailing) (by simp [hser]) (by simp; omega)
  have hpayload := deserializePayload_serialize h data
    (1 + (encodeVarint m.epoch).length + (encodeVarint index.toUInt64).length + 1)
    ([versionV1] ++ encodeVarint m.epoch ++ encodeVarint index.toUInt64 ++ [m.payload.kind])
      trailing
    hser (by simp; omega)
  have hlen : 1 + (encodeVarint m.epoch).length + (encodeVarint index.toUInt64).length
      < data.length := by
    simp only [hser, List.length_append, List.length_singleton]
    omega
  have hend : 1 + (encodeVarint m.epoch).length + (encodeVarint index.toUInt64).length + 1
      + (serializeChunk m).length = (m.serialize index).length := by
    simp only [V1Message.serialize, List.length_append, List.length_singleton]
  unfold deserializeV1Message
  rw [if_neg (by simp [hser]), hepoch]
  show (Except.mapError _ (consumeVarint data _) >>= _) = _
  rw [hindex]
  show (if _ ≥ _ then _ else _) = _
  rw [if_neg (by omega), hkind, ok_bind, hpayload, hend]
  simp

theorem deserializeV1Message_serialize {m : V1Message} (h : m.WellFormed) (index : UInt32) :
    deserializeV1Message (m.serialize index)
      = .ok (m, index, (m.serialize index).length) := by
  have hread := deserializeV1Message_append h index []
  rwa [List.append_nil] at hread

/-- A message with a chunk exactly when its type has one comes back from its bytes, whatever follows
them, with its key number and the length of its bytes. -/
theorem v1Message_round_trip (epoch : UInt64) (index : UInt32) (kind : MessageType)
    (chunk : Option Chunk) (hchunk : chunk.isSome = hasChunk kind) (trailing : Bytes) :
    let m : V1Message := { epoch, payload := { kind := kind, chunk } }
    deserializeV1Message (m.serialize index ++ trailing)
      = .ok (m, index, (m.serialize index).length) := by
  intro m
  exact deserializeV1Message_append (show m.WellFormed from hchunk) index trailing

/-- The highest epoch, key number and chunk index, with a byte behind the message. -/
theorem v1Message_round_trip_top :
    let m : V1Message := {
      epoch := 0xffffffffffffffff
      payload := { kind := messageTypeCt2, chunk := some { index := 0xffff, data := .zero } } }
    deserializeV1Message (m.serialize 0xffffffff ++ [7])
      = .ok (m, 0xffffffff, (m.serialize 0xffffffff).length) :=
  v1Message_round_trip 0xffffffffffffffff 0xffffffff messageTypeCt2
    (some { index := 0xffff, data := .zero }) rfl [7]

end SignalGo.Spqr
