import SignalGo.SenderKeys.Serialize
import SignalGo.Store

/-!
# Sender keys: builder and cipher

`Builder.Create`, `Rotate` and `Process` and `Cipher.Encrypt` and `Decrypt` for one group and
sender. The store holds the bytes of the record, or nothing; a call loads them, works on the
record and stores it at its end, so that a call that fails leaves the store as it was. The
functions return the new bytes with their result.
-/

namespace SignalGo.SenderKeys

variable (s : Suite) (w : Protowire) (name : SenderKeyName)

/-! ## The stored record -/

/-- `loadRecord`: no record and a record without data are an empty record. -/
def loadRecord (data : Option Bytes) : Except (Fault Err) Record :=
  match data with
  | none => .ok (newRecord 0)
  | some [] => .ok (newRecord 0)
  | some bytes =>
      mapFault (fun e => invalid s!"deserialize sender key record: {e.text}")
        (deserializeRecord bytes)

/-! ## Building -/

/-- What `newSendingState` reads: key id, distribution id, seed and signing key. -/
structure SendingRandomness where
  keyID : Except Err UInt32
  distributionID : Except Err (ByteArr 16)
  seed : Except Err Key
  signingKey : Except String Key

def newSendingState (rnd : SendingRandomness) : Except Err State := do
  let keyID ← rnd.keyID.mapError (.context "generate sender key id")
  let distributionID ← rnd.distributionID.mapError (.context "generate sender key distribution id")
  let seed ← rnd.seed.mapError (.context "generate sender chain key")
  let kp ← (generateKeyPair s.toPrims rnd.signingKey).mapError
    (.context "generate sender signing key")
  return {
    messageVersion := senderKeyMessageVersion
    distributionID := distributionID
    -- The high bit is cleared: the ids have 31 bits.
    keyID := keyID &&& 0x7fffffff
    chainIteration := 0
    chainSeed := seed
    signingPublic := kp.publicKey
    signingPrivateSeed := kp.privateKey
    hasPrivate := true
    messageKeys := [] }

/-- The distribution message of a state. -/
def State.distributionMessage (st : State) : DistributionMessage where
  messageVersion := st.messageVersion
  distributionID := st.distributionID
  keyID := st.keyID
  iteration := st.chainIteration
  chainKey := st.chainSeed
  signingPublic := st.signingPublic

def create (rnd : SendingRandomness) (data : Option Bytes) :
    Except (Fault Err) (Bytes × Option Bytes) := do
  let record ← loadRecord data
  let (record, data) ←
    if record.isEmpty then do
      let st ← (newSendingState s rnd).mapError .err
      let record := record.setState st
      pure (record, some record.serialize)
    else pure (record, data)
  let cur ← record.current.mapError .err
  if !cur.hasPrivate then
    .error (.err (invalid "sender key state missing signing private key"))
  else return (cur.distributionMessage.serialize w, data)

def rotate (rnd : SendingRandomness) (data : Option Bytes) :
    Except (Fault Err) (Bytes × Bytes) := do
  let record ← loadRecord data
  let st ← (newSendingState s rnd).mapError .err
  let record := record.setState st
  return (st.distributionMessage.serialize w, record.serialize)

/-- `Process`: the state made of a distribution message replaces one with the same ids. -/
def process (data : Option Bytes) (distribution : Bytes) : Except (Fault Err) Bytes := do
  let msg ← (parseDistributionMessage s.toPrims w distribution).mapError .err
  let record ← loadRecord data
  return (record.setState msg.receivingState).serialize

/-! ## Messages -/

def errNoSenderKey : Fault Err := .err (.wrap .noSenderKey s!"no sender key for {name.text}")

def encrypt (rnd : Bytes) (data : Option Bytes) (plaintext : Bytes) :
    Except (Fault Err) (Bytes × Bytes) := do
  let record ← loadRecord data
  match record.states with
  | [] => .error (errNoSenderKey name)
  | st :: older =>
      if !st.hasPrivate then
        .error (.err (invalid "sender key state missing signing private key"))
      else do
        let messageKey ← (st.chainKey.senderMessageKey s.toPrims).mapError .err
        let ciphertext := aesCBCEncrypt s messageKey.cipherKey messageKey.iv plaintext
        let msg : SenderKeyMessage := {
          messageVersion := st.messageVersion
          distributionID := st.distributionID
          keyID := st.keyID
          iteration := messageKey.iteration
          ciphertext
          signature := .zero }
        let sig ← (s.xeddsaSign rnd st.signingPrivateSeed (msg.signedBytes w)).mapError fun e =>
          .err (invalid s!"sender key sign: {e}")
        if sig.length ≠ senderKeySignatureSize then
          .error (.err (invalid "sender key signature length"))
        else do
          let msg := { msg with signature := .ofBytes 64 sig }
          let next ← (st.chainKey.next s.toPrims).mapError .err
          let st := { st with chainIteration := next.iteration, chainSeed := next.seed }
          return (msg.serialize w, Record.serialize { record with states := st :: older })

/-- The part of `Decrypt` behind the parser, on the loaded record. -/
def decryptWithRecord (record : Record) (msg : SenderKeyMessage) (signedBytes : Bytes) :
    Except (Fault Err) (Bytes × Record) :=
  match record.state msg.distributionID msg.keyID with
  | .error _ => .error (errNoSenderKey name)
  | .ok st =>
      if msg.messageVersion ≠ st.messageVersion then
        .error (.err (invalid s!"sender key message version {msg.messageVersion}"))
      else if !s.xeddsaVerify st.signingPublic msg.signature.toBytes signedBytes then
        .error (.err (.sentinel .invalidSignature))
      else do
        let (messageKey, st) ← (getSenderMessageKey s.toPrims st msg.iteration).mapError .err
        let plaintext ← (aesCBCDecrypt s messageKey.cipherKey messageKey.iv msg.ciphertext).mapError
          fun e => .err (invalid s!"sender key decrypt: {e.text}")
        return (plaintext, record.update msg.distributionID msg.keyID st)

/-- `Decrypt`: the plaintext and the bytes of the changed record. -/
def decrypt (data : Option Bytes) (ciphertext : Bytes) : Except (Fault Err) (Bytes × Bytes) := do
  let (msg, signedBytes) ← (parseSenderKeyMessage w ciphertext).mapError .err
  let record ← loadRecord data
  if record.isEmpty then .error (errNoSenderKey name)
  else do
    let (plaintext, record) ← decryptWithRecord s name record msg signedBytes
    return (plaintext, record.serialize)

/-! ## What a call that succeeds has gone through -/

variable {s w name} {data : Option Bytes} {plaintext ciphertext data' : Bytes}

/-- The record has a state with the ids of the message, of its version, whose key verifies the
signature and whose chain gives the message key. -/
theorem decrypt_eq_ok :
    decrypt s w name data ciphertext = .ok (plaintext, data') ↔
      ∃ msg signed record st key st', parseSenderKeyMessage w ciphertext = .ok (msg, signed) ∧
        loadRecord data = .ok record ∧ record.state msg.distributionID msg.keyID = .ok st ∧
        msg.messageVersion = st.messageVersion ∧
        s.xeddsaVerify st.signingPublic msg.signature.toBytes signed = true ∧
        getSenderMessageKey s.toPrims st msg.iteration = .ok (key, st') ∧
        aesCBCDecrypt s key.cipherKey key.iv msg.ciphertext = .ok plaintext ∧
        data' = (record.update msg.distributionID msg.keyID st').serialize := by
  constructor
  · intro h
    obtain ⟨⟨msg, signed⟩, hparse, h⟩ := bind_eq_ok.mp h
    obtain ⟨record, hload, h⟩ := bind_eq_ok.mp h
    split at h
    · cases h
    · obtain ⟨⟨plaintext', record'⟩, hrec, h⟩ := bind_eq_ok.mp h
      cases h
      rw [decryptWithRecord] at hrec
      split at hrec
      · cases hrec
      · rename_i st hstate
        split at hrec
        · cases hrec
        · rename_i hversion
          split at hrec
          · cases hrec
          · rename_i hverify
            obtain ⟨⟨key, st'⟩, hget, hrec⟩ := bind_eq_ok.mp hrec
            obtain ⟨plaintext', hdec, hrec⟩ := bind_eq_ok.mp hrec
            cases hrec
            exact ⟨msg, signed, record, st, key, st', mapError_eq_ok.mp hparse, hload, hstate,
              not_not.mp hversion, by simpa using hverify, mapError_eq_ok.mp hget,
              mapError_eq_ok.mp hdec, rfl⟩
  · rintro ⟨msg, signed, record, st, key, st', hparse, hload, hstate, hversion, hverify, hget, hdec,
      rfl⟩
    -- a record with the state is not empty
    have hne : record.isEmpty = false := by
      rw [Record.isEmpty]
      cases hstates : record.states with
      | nil => rw [Record.state, hstates] at hstate; cases hstate
      | cons => rfl
    simp only [decrypt, hparse, hload, hne, Except.mapError, ok_bind, decryptWithRecord, hstate,
      hversion, hverify, hget, hdec]
    rw [if_neg Bool.false_ne_true, if_neg (not_not.mpr rfl), if_neg (by decide)]
    rfl

end SignalGo.SenderKeys
