import SignalGo.Lib.Decoder
import SignalGo.SenderKeys.Message

/-!
# Sender keys: the stored record

A record is stored with its limit, its states and their skipped keys. Counts are written as
16-bit numbers; the decoder takes version 1 of the format too, which had no message version and
no distribution id.

* `Record.Fits`: the counts fit their fields, and a state without a private key has none.
* `deserializeRecord_serialize`: such a record comes back from its bytes.
-/

namespace SignalGo.SenderKeys

open Decoder

def recordSerializeMagic : Bytes := [0x53, 0x49, 0x47, 0x4b]

def recordSerializeVersion : UInt8 := 2

/-! ## Encoding -/

def MessageKey.serialize (mk : MessageKey) : Bytes := putUint32 mk.iteration ++ mk.seed.toBytes

def State.serialize (st : State) : Bytes :=
  -- More keys than the limit are never stored; the encoder would keep the newest.
  let msgKeys := st.messageKeys.drop (st.messageKeys.length - maxMessageKeysPerState)
  [st.messageVersion] ++ st.distributionID.toBytes ++ putUint32 st.keyID
    ++ putUint32 st.chainIteration ++ st.chainSeed.toBytes ++ st.signingPublic.toBytes
    ++ (if st.hasPrivate then 1 :: st.signingPrivateSeed.toBytes else [0])
    ++ putUint16 (.ofNat msgKeys.length) ++ msgKeys.flatMap MessageKey.serialize

def Record.serialize (r : Record) : Bytes :=
  let maxStates := if r.maxStates = 0 then defaultMaxStates else r.maxStates
  let states := r.states.take maxStates
  recordSerializeMagic ++ [recordSerializeVersion] ++ putUint16 (.ofNat maxStates)
    ++ putUint16 (.ofNat states.length) ++ states.flatMap State.serialize

/-! ## Decoding -/

def readMessageKey : Decoder Err MessageKey := do
  need (4 + 32) (invalid "sender key record: truncated message key")
  let iteration ← u32
  let seed ← array 32
  return { iteration := iteration, seed }

/-- The size of a state without its optional parts. Version 1 of the format left out the
message version and the distribution id. -/
def stateFixedSize (version : UInt8) : Nat :=
  if version = recordSerializeVersion then 1 + 16 + 4 + 4 + 32 + 32 + 1 + 2
  else 4 + 4 + 32 + 32 + 1 + 2

def readStateHead (version : UInt8) : Decoder Err (UInt8 × ByteArr 16) :=
  if version = recordSerializeVersion then do
    let messageVersion ← u8
    let distributionID ← array 16
    return (messageVersion, distributionID)
  else return (senderKeyMessageVersion, .zero)

/-- The flag of the private signing key and the key behind it. -/
def readPrivate : Decoder Err (Option Key) := do
  let flag ← u8
  if flag = 0 then return none
  else if flag = 1 then do
    need 32 (invalid "sender key record: truncated signing private key")
    let seed ← array 32
    return some seed
  else fail (invalid "sender key record: invalid signing key flag")

def readMessageKeys : Decoder Err (List MessageKey) := do
  need 2 (invalid "sender key record: truncated message keys count")
  let count ← u16
  if count.toNat > maxMessageKeysPerState then
    fail (invalid "sender key record: invalid message keys count")
  else many readMessageKey count.toNat

def readState (version : UInt8) : Decoder Err State := do
  need (stateFixedSize version) (invalid "sender key record: truncated state")
  let head ← readStateHead version
  let keyID ← u32
  let chainIteration ← u32
  let chainSeed ← array 32
  let signingPublic ← array 32
  let signingPrivate ← readPrivate
  let messageKeys ← readMessageKeys
  return {
    messageVersion := head.1
    distributionID := head.2
    keyID, chainIteration, chainSeed, signingPublic
    signingPrivateSeed := signingPrivate.getD .zero
    hasPrivate := signingPrivate.isSome
    messageKeys }

/-- The record behind its magic bytes. States beyond the limit are read and dropped. -/
def readRecord : Decoder Err Record := do
  let version ← u8
  if version ≠ recordSerializeVersion ∧ version ≠ 1 then
    fail (invalid s!"sender key record: unsupported version {version}")
  else do
    need (2 + 2) (invalid "sender key record: truncated header")
    let maxStates ← u16
    let maxStates := if maxStates = 0 then defaultMaxStates else maxStates.toNat
    let count ← u16
    let states ← many (readState version) count.toNat
    return { states := states.take maxStates, maxStates }

def deserializeRecord (data : Bytes) : Except (Fault Err) Record :=
  if data.length = 0 then .error (.err (invalid "sender key record: empty data"))
  else if data.length < 4 + 1 + 2 + 2 ∨ data.take 4 ≠ recordSerializeMagic then
    .error (.err (invalid "sender key record: unsupported format"))
  else (do let _ ← bytes 4; readRecord).run (invalid "sender key record: trailing data") data

/-! ## Round trip -/

structure State.Fits (st : State) : Prop where
  keys : st.messageKeys.length ≤ maxMessageKeysPerState
  noPrivate : st.hasPrivate = false → st.signingPrivateSeed = .zero

structure Record.Fits (r : Record) : Prop where
  maxStates_pos : 0 < r.maxStates
  maxStates_lt : r.maxStates < 2 ^ 16
  states : r.states.length ≤ r.maxStates
  fits : ∀ st ∈ r.states, st.Fits

theorem decodable_messageKey (mk : MessageKey) :
    Decodable readMessageKey mk.serialize mk := by
  refine .need (by simp [MessageKey.serialize]) ?_
  exact .bind (.u32 mk.iteration) ((Decodable.array mk.seed).ret fun seed =>
    ({ iteration := mk.iteration, seed } : MessageKey))

theorem decodable_private (st : State) :
    Decodable readPrivate (if st.hasPrivate then 1 :: st.signingPrivateSeed.toBytes else [0])
      (if st.hasPrivate then some st.signingPrivateSeed else none) := by
  cases hp : st.hasPrivate with
  | true =>
    show Decodable _ ([1] ++ st.signingPrivateSeed.toBytes) _
    refine .bind (.u8 (1 : UInt8)) ?_
    rw [if_neg (by decide), if_pos rfl]
    exact .need (by simp) ((Decodable.array _).ret some)
  | false =>
    show Decodable _ ([0] ++ []) _
    refine .bind (.u8 (0 : UInt8)) ?_
    rw [if_pos rfl]
    exact .pure none

theorem decodable_messageKeys {keys : List MessageKey}
    (h : keys.length ≤ maxMessageKeysPerState) :
    Decodable readMessageKeys
      (putUint16 (.ofNat keys.length) ++ keys.flatMap MessageKey.serialize) keys := by
  have hlt : keys.length < 2 ^ 16 := lt_of_le_of_lt h (by decide)
  have hcount : (UInt16.ofNat keys.length).toNat = keys.length :=
    UInt16.toNat_ofNat_of_lt' hlt
  refine .need (by simp) (.bind (.u16 _) ?_)
  rw [hcount, if_neg (by omega)]
  have hmany : Decodable (many readMessageKey keys.length)
      (keys.flatMap MessageKey.serialize) (keys.map id) :=
    Decodable.many fun mk _ => decodable_messageKey mk
  rwa [List.map_id] at hmany

theorem decodable_state {st : State} (h : st.Fits) :
    Decodable (readState recordSerializeVersion) st.serialize st := by
  have hkeys : st.messageKeys.drop (st.messageKeys.length - maxMessageKeysPerState) =
      st.messageKeys := by
    rw [Nat.sub_eq_zero_of_le h.keys, List.drop_zero]
  have hhead : Decodable (readStateHead recordSerializeVersion)
      (st.messageVersion :: st.distributionID.toBytes) (st.messageVersion, st.distributionID) := by
    rw [readStateHead, if_pos rfl]
    exact .bind (.u8 _) ((Decodable.array _).ret fun id => (st.messageVersion, id))
  have hsome : (if st.hasPrivate then some st.signingPrivateSeed else none).getD .zero =
      st.signingPrivateSeed := by
    cases hp : st.hasPrivate with
    | true => rfl
    | false => exact (h.noPrivate hp).symm
  have hflag : (if st.hasPrivate then some st.signingPrivateSeed else none).isSome =
      st.hasPrivate := by
    cases st.hasPrivate <;> rfl
  simp only [State.serialize, hkeys, List.append_assoc]
  refine .need ?_ (hhead.bind (.bind (.u32 _) ((Decodable.u32 _).bind
    (.bind (.array _) (.bind (.array _) ((decodable_private st).bind ?_))))))
  · rw [stateFixedSize, if_pos rfl]
    split <;> simp <;> omega
  · have hrest := (decodable_messageKeys h.keys).ret fun keys => ({
      messageVersion := st.messageVersion
      distributionID := st.distributionID
      keyID := st.keyID
      chainIteration := st.chainIteration
      chainSeed := st.chainSeed
      signingPublic := st.signingPublic
      signingPrivateSeed := st.signingPrivateSeed
      hasPrivate := st.hasPrivate
      messageKeys := keys } : State)
    simp only [hsome, hflag]
    exact hrest

/-- **The round trip of a stored record.** -/
theorem deserializeRecord_serialize {r : Record} (h : r.Fits) :
    deserializeRecord r.serialize = .ok r := by
  have hpos := h.maxStates_pos
  have hmax : (UInt16.ofNat r.maxStates).toNat = r.maxStates :=
    UInt16.toNat_ofNat_of_lt' h.maxStates_lt
  have hcount : (UInt16.ofNat r.states.length).toNat = r.states.length :=
    UInt16.toNat_ofNat_of_lt' (lt_of_le_of_lt h.states h.maxStates_lt)
  have hne : UInt16.ofNat r.maxStates ≠ 0 := by
    intro hzero
    rw [hzero] at hmax
    exact absurd hmax.symm hpos.ne'
  have htake : r.states.take r.maxStates = r.states := List.take_of_length_le h.states
  have hstates : Decodable (many (readState recordSerializeVersion) r.states.length)
      (r.states.flatMap State.serialize) (r.states.map id) :=
    Decodable.many fun st hst => decodable_state (h.fits st hst)
  rw [List.map_id] at hstates
  have hread : Decodable readRecord
      ([recordSerializeVersion] ++ (putUint16 (.ofNat r.maxStates)
        ++ (putUint16 (.ofNat r.states.length) ++ r.states.flatMap State.serialize))) r := by
    refine .bind (.u8 _) ?_
    rw [if_neg (by decide)]
    refine .need (by simp; omega) (.bind (.u16 _) ?_)
    simp only [if_neg hne, hmax]
    refine .bind (.u16 _) ?_
    rw [hcount]
    have hrest := hstates.ret fun states =>
      ({ states := states.take r.maxStates, maxStates := r.maxStates } : Record)
    rwa [htake] at hrest
  have hdata : r.serialize = recordSerializeMagic ++ ([recordSerializeVersion]
      ++ (putUint16 (.ofNat r.maxStates) ++ (putUint16 (.ofNat r.states.length)
        ++ r.states.flatMap State.serialize))) := by
    rw [Record.serialize, if_neg hpos.ne', htake]
    simp only [List.append_assoc]
  have hall := (Decodable.bytes (ε := Err) (n := 4) (b := recordSerializeMagic) rfl).bind
    (k := fun _ => readRecord) hread
  rw [deserializeRecord, hdata, if_neg (by simp [recordSerializeMagic]),
    if_neg (by simp [recordSerializeMagic]; omega)]
  exact hall.run _

end SignalGo.SenderKeys
