import SignalGo.Ratchet.Agreement
import SignalGo.SealedSender.Content

/-!
# Sealed sender: envelopes

`EncryptV1`, `EncryptV2Received` and `DecryptToUSMC`. Version 1 encrypts the sender's identity key
under an ephemeral agreement and the content under the agreement of the two identities. Version 2
masks a random message key with the ephemeral agreement, which also commits to the ephemeral key,
and binds the envelope to the sender by a tag under the agreement of the two identities.

Each side names the keys *ours* and *theirs* and orders them by its direction;
`deriveEphemeralKeys_eq`, `applyAgreementXOR_eq` and `computeAuthenticationTag_eq` say that both
sides then compute the same, and `sealed_sender_round_trip` that the recipient gets the content the
sender built.
-/

namespace SignalGo.SealedSender

open Ratchet (DHLaws KeyPairValid keyPairValid_generateKeyPair)

variable (s : Primitives) (w : SealedWire)

inductive Direction where
  | sending
  | receiving

def sealedSenderV1MajorVersion : UInt8 := 1
def sealedSenderV1FullVersion : UInt8 := 0x11
def sealedSenderV2MajorVersion : UInt8 := 2
def sealedSenderV2UUIDFullVersion : UInt8 := 0x22

/-! ## Version 1 -/

structure EphemeralKeys where
  chainKey : Key
  cipherKey : Key
  macKey : Key

structure StaticKeys where
  cipherKey : Key
  macKey : Key

def sealedSenderSaltPrefix : Bytes := "UnidentifiedDelivery".toUTF8.toList

/-- The recipient's key comes first in the salt. -/
def deriveEphemeralKeys (ourPublic ourPrivate theirPublic : Key) (dir : Direction) :
    Except Err EphemeralKeys := do
  let ourWire := serializeWirePublicKey ourPublic
  let theirWire := serializeWirePublicKey theirPublic
  let salt :=
    match dir with
    | .sending => sealedSenderSaltPrefix ++ theirWire ++ ourWire
    | .receiving => sealedSenderSaltPrefix ++ ourWire ++ theirWire
  let shared ← (dh s.toPrims ourPrivate theirPublic).mapError (.context "sealed sender: dh")
  let okm ← (hkdf s.toPrims shared.toBytes salt [] 96).mapError (.context "sealed sender: hkdf")
  return {
    chainKey := .ofBytes 32 (okm.toBytes.take 32)
    cipherKey := .ofBytes 32 ((okm.toBytes.drop 32).take 32)
    macKey := .ofBytes 32 (okm.toBytes.drop 64) }

def deriveStaticKeys (ourPrivate theirPublic chainKey : Key) (encryptedStatic : Bytes) :
    Except Err StaticKeys := do
  let salt := chainKey.toBytes ++ encryptedStatic
  let shared ← (dh s.toPrims ourPrivate theirPublic).mapError (.context "sealed sender: dh")
  let okm ← (hkdf s.toPrims shared.toBytes salt [] 96).mapError (.context "sealed sender: hkdf")
  return {
    cipherKey := .ofBytes 32 ((okm.toBytes.drop 32).take 32)
    macKey := .ofBytes 32 (okm.toBytes.drop 64) }

structure SealedSenderV1Message where
  ephemeralPublic : Bytes
  encryptedStatic : Bytes
  encryptedMessage : Bytes

def encodeSealedSenderV1Message
    (ephemeralPublic encryptedStatic encryptedMessage : Bytes) : Bytes :=
  (w.appendTag 1 .bytes ++ w.appendBytes ephemeralPublic)
    ++ (w.appendTag 2 .bytes ++ w.appendBytes encryptedStatic)
    ++ (w.appendTag 3 .bytes ++ w.appendBytes encryptedMessage)

structure V1Fields where
  ephemeralPublic : Option Bytes
  encryptedStatic : Option Bytes
  encryptedMessage : Option Bytes

def v1Field : FieldStep V1Fields Err := fun m num typ data =>
  match num with
  | 1 => do
      let (val, rest) ← rawField w.toProtowire "sealed sender ephemeral" typ data
      return ({ m with ephemeralPublic := some val }, rest)
  | 2 => do
      let (val, rest) ← rawField w.toProtowire "sealed sender encrypted static" typ data
      return ({ m with encryptedStatic := some val }, rest)
  | 3 => do
      let (val, rest) ← rawField w.toProtowire "sealed sender encrypted message" typ data
      return ({ m with encryptedMessage := some val }, rest)
  | _ => do
      let rest ← unknownField w "sealed sender field" num typ data
      return (m, rest)

def decodeSealedSenderV1Message (data : Bytes) : Except Err SealedSenderV1Message := do
  let m ← decodeFields w.toProtowire (invalid "sealed sender tag") (v1Field w)
    { ephemeralPublic := none, encryptedStatic := none, encryptedMessage := none } data
  match m with
  | { ephemeralPublic := some ephemeralPublic, encryptedStatic := some encryptedStatic,
      encryptedMessage := some encryptedMessage } =>
      return {
        ephemeralPublic := ephemeralPublic
        encryptedStatic, encryptedMessage }
  | _ => .error (invalid "sealed sender missing fields")

def compareIdentityKeyBytes (a : Bytes) (b : Key) : Bool := a = serializeWirePublicKey b

/-- `EncryptV1`; `rnd` is the randomness of the ephemeral key. -/
def encryptV1 (rnd : Except String Key) (recipientIdentity : Key) (senderIdentity : IdentityKeyPair)
    (usmc : UnidentifiedSenderMessageContent) : Except Err Bytes :=
  if !compareIdentityKeyBytes usmc.sender.identityKeyBytes senderIdentity.publicKey.publicKey then
    .error (.wrap .invalidKey "sender certificate does not match identity")
  else do
    let ephemeral ← (generateKeyPair s.toPrims rnd).mapError
      (.context "sealed sender: generate ephemeral")
    let ephKeys ← deriveEphemeralKeys s ephemeral.publicKey ephemeral.privateKey recipientIdentity
      .sending
    let encryptedStatic := aes256CTRHMACSHA256Encrypt s
      (serializeWirePublicKey senderIdentity.publicKey.publicKey) ephKeys.cipherKey ephKeys.macKey
    let staticKeys ← deriveStaticKeys s senderIdentity.privateKey recipientIdentity ephKeys.chainKey
      encryptedStatic
    let encryptedMessage := aes256CTRHMACSHA256Encrypt s usmc.serialized staticKeys.cipherKey
      staticKeys.macKey
    return sealedSenderV1FullVersion :: encodeSealedSenderV1Message w
      (serializeWirePublicKey ephemeral.publicKey) encryptedStatic encryptedMessage

def decryptV1 (payload : Bytes) (recipientIdentity : IdentityKeyPair) :
    Except Err UnidentifiedSenderMessageContent := do
  let msg ← decodeSealedSenderV1Message w payload
  if msg.ephemeralPublic.isEmpty then .error (invalid "sealed sender missing ephemeral key")
  else if msg.encryptedStatic.isEmpty ∨ msg.encryptedMessage.isEmpty then
    .error (invalid "sealed sender missing ciphertext")
  else do
    let ephemeralPub ← deserializeWirePublicKey s.toPrims msg.ephemeralPublic
    let ephKeys ← deriveEphemeralKeys s recipientIdentity.publicKey.publicKey
      recipientIdentity.privateKey ephemeralPub .receiving
    let messageKeyBytes ← (aes256CTRHMACSHA256Decrypt s msg.encryptedStatic ephKeys.cipherKey
      ephKeys.macKey).mapError fun _ => .wrap .invalidMAC "sealed sender static key"
    let staticKey ← deserializeWirePublicKey s.toPrims messageKeyBytes
    let staticKeys ← deriveStaticKeys s recipientIdentity.privateKey staticKey ephKeys.chainKey
      msg.encryptedStatic
    let messageBytes ← (aes256CTRHMACSHA256Decrypt s msg.encryptedMessage staticKeys.cipherKey
      staticKeys.macKey).mapError fun _ => .wrap .invalidMAC "sealed sender message"
    let usmc ← parseUnidentifiedSenderMessageContent s w messageBytes
    -- the certificate has to name the key the envelope was made with
    if messageKeyBytes ≠ usmc.sender.identityKeyBytes then
      .error (invalid "sealed sender sender key mismatch")
    else return usmc

/-! ## Version 2 -/

def sealedSenderV2MessageKeyLen : Nat := 32
def sealedSenderV2AuthTagLen : Nat := 16
def sealedSenderV2PublicKeyLen : Nat := 32

def sealedSenderV2LabelR : Bytes := "Sealed Sender v2: r (2023-08)".toUTF8.toList
def sealedSenderV2LabelK : Bytes := "Sealed Sender v2: K".toUTF8.toList
def sealedSenderV2LabelDH : Bytes := "Sealed Sender v2: DH".toUTF8.toList
def sealedSenderV2LabelDHS : Bytes := "Sealed Sender v2: DH-sender".toUTF8.toList

/-- The loop `out[i] = mask[i] ^ input[i]`. -/
def xorKeys (mask input : Key) : Key :=
  ⟨List.zipWith (· ^^^ ·) mask.toBytes input.toBytes, by simp⟩

/-- The sender's side of the agreement comes first. -/
def applyAgreementXOR (ourPrivate ourPublic theirPublic : Key) (dir : Direction) (input : Key) :
    Except Err Key := do
  let shared ← (dh s.toPrims ourPrivate theirPublic).mapError (.context "sealed sender v2: dh")
  let buf := shared.toBytes ++
    match dir with
    | .sending => serializeWirePublicKey ourPublic ++ serializeWirePublicKey theirPublic
    | .receiving => serializeWirePublicKey theirPublic ++ serializeWirePublicKey ourPublic
  let mask ← (hkdf s.toPrims buf [] sealedSenderV2LabelDH sealedSenderV2MessageKeyLen).mapError
    (.context "sealed sender v2: hkdf")
  return xorKeys mask input

def computeAuthenticationTag (ourPrivate ourPublic theirPublic : Key) (dir : Direction)
    (ephemeralPublic encryptedMessageKey : Key) : Except Err (ByteArr 16) := do
  let shared ← (dh s.toPrims ourPrivate theirPublic).mapError (.context "sealed sender v2: dh")
  let buf := shared.toBytes ++ serializeWirePublicKey ephemeralPublic
    ++ encryptedMessageKey.toBytes ++
    match dir with
    | .sending => serializeWirePublicKey ourPublic ++ serializeWirePublicKey theirPublic
    | .receiving => serializeWirePublicKey theirPublic ++ serializeWirePublicKey ourPublic
  (hkdf s.toPrims buf [] sealedSenderV2LabelDHS sealedSenderV2AuthTagLen).mapError
    (.context "sealed sender v2: hkdf")

/-- The ephemeral key pair and the content key, both made of the message key. -/
def deriveV2Keys (m : Key) : Except Err (KeyPair × Key) := do
  let r ← (hkdf s.toPrims m.toBytes [] sealedSenderV2LabelR sealedSenderV2MessageKeyLen).mapError
    (.context "sealed sender v2: derive r")
  let k ← (hkdf s.toPrims m.toBytes [] sealedSenderV2LabelK sealedSenderV2MessageKeyLen).mapError
    (.context "sealed sender v2: derive k")
  let ephemeral ← (keyPairFromPrivate s r).mapError (.context "sealed sender v2: derive ephemeral")
  return (ephemeral, k)

def zeroNonce : Bytes := List.replicate aesGCMSIVNonceSize 0

/-- `EncryptV2Received`; `rnd` is the random message key. -/
def encryptV2Received (rnd : Except String Key) (recipientIdentity : Key)
    (senderIdentity : IdentityKeyPair) (usmc : UnidentifiedSenderMessageContent) :
    Except Err Bytes :=
  if !compareIdentityKeyBytes usmc.sender.identityKeyBytes senderIdentity.publicKey.publicKey then
    .error (.wrap .invalidKey "sender certificate does not match identity")
  else do
    let m ← rnd.mapError fun e => .context "sealed sender v2: random" (.new e)
    let (ephemeral, k) ← deriveV2Keys s m
    let c ← applyAgreementXOR s ephemeral.privateKey ephemeral.publicKey recipientIdentity
      .sending m
    let tag ← computeAuthenticationTag s senderIdentity.privateKey
      senderIdentity.publicKey.publicKey recipientIdentity .sending ephemeral.publicKey c
    let ciphertext ← (aesGCMSIVEncrypt s k zeroNonce usmc.serialized []).mapError
      (.context "sealed sender v2: encrypt")
    return sealedSenderV2UUIDFullVersion ::
      (c.toBytes ++ (tag.toBytes ++ (ephemeral.publicKey.toBytes ++ ciphertext)))

def decryptV2 (payload : Bytes) (recipientIdentity : IdentityKeyPair) :
    Except Err UnidentifiedSenderMessageContent :=
  let minSize := sealedSenderV2MessageKeyLen + sealedSenderV2AuthTagLen + sealedSenderV2PublicKeyLen
    + sealedSenderV2AuthTagLen
  if payload.length < minSize then .error (invalid "sealed sender v2 too short")
  else do
    let c : Key := .ofBytes 32 (payload.take 32)
    let tag : ByteArr 16 := .ofBytes 16 ((payload.drop 32).take 16)
    let epub : Key := .ofBytes 32 ((payload.drop 48).take 32)
    let encrypted := payload.drop 80
    let m ← applyAgreementXOR s recipientIdentity.privateKey recipientIdentity.publicKey.publicKey
      epub .receiving c
    let (ephemeral, k) ← deriveV2Keys s m
    -- the message key commits to the ephemeral key
    if ephemeral.publicKey ≠ epub then .error (invalid "sealed sender v2 invalid ephemeral key")
    else do
      let messageBytes ← (aesGCMSIVDecrypt s k zeroNonce encrypted []).mapError fun _ =>
        .wrap .invalidMAC "sealed sender v2 decrypt"
      let usmc ← parseUnidentifiedSenderMessageContent s w messageBytes
      let tagCalc ← computeAuthenticationTag s recipientIdentity.privateKey
        recipientIdentity.publicKey.publicKey usmc.sender.identityKey .receiving epub c
      if tag ≠ tagCalc then .error (invalid "sealed sender v2 authentication tag")
      else return usmc

/-- `DecryptToUSMC`: the upper half of the first byte is the version. -/
def decryptToUSMC (ciphertext : Bytes) (recipientIdentity : IdentityKeyPair) :
    Except Err UnidentifiedSenderMessageContent :=
  match ciphertext with
  | [] => .error (invalid "sealed sender message empty")
  | first :: payload =>
      let version := first >>> 4
      if version = 0 ∨ version = sealedSenderV1MajorVersion then
        decryptV1 s w payload recipientIdentity
      else if version = sealedSenderV2MajorVersion then decryptV2 s w payload recipientIdentity
      else .error (invalid s!"unsupported sealed sender version {version}")

/-! ## Both sides compute the same -/

variable {m : Key}

section Sides

variable {s} (laws : DHLaws s.toPrims) {ours theirs : KeyPair} (hours : KeyPairValid s.toPrims ours)
  (htheirs : KeyPairValid s.toPrims theirs)

include laws hours htheirs

/-- The recipient derives the keys of the first layer, with the two keys in the sender's order. -/
theorem deriveEphemeralKeys_eq :
    deriveEphemeralKeys s theirs.publicKey theirs.privateKey ours.publicKey .receiving =
      deriveEphemeralKeys s ours.publicKey ours.privateKey theirs.publicKey .sending := by
  simp only [deriveEphemeralKeys, laws.comm _ _ htheirs hours]

/-- The keys of the second layer. -/
theorem deriveStaticKeys_eq (chainKey : Key) (encryptedStatic : Bytes) :
    deriveStaticKeys s theirs.privateKey ours.publicKey chainKey encryptedStatic =
      deriveStaticKeys s ours.privateKey theirs.publicKey chainKey encryptedStatic := by
  simp only [deriveStaticKeys, laws.comm _ _ htheirs hours]

/-- The tag that binds the sender's identity. -/
theorem computeAuthenticationTag_eq (ephemeralPublic encryptedMessageKey : Key) :
    computeAuthenticationTag s theirs.privateKey theirs.publicKey ours.publicKey .receiving
        ephemeralPublic encryptedMessageKey =
      computeAuthenticationTag s ours.privateKey ours.publicKey theirs.publicKey .sending
        ephemeralPublic encryptedMessageKey := by
  simp only [computeAuthenticationTag, laws.comm _ _ htheirs hours]

omit laws hours htheirs in
/-- A mask put on twice is off again. -/
theorem xorKeys_xorKeys (mask input : Key) : xorKeys mask (xorKeys mask input) = input := by
  have hzip : ∀ a b : Bytes, a.length = b.length →
      List.zipWith (· ^^^ ·) a (List.zipWith (· ^^^ ·) a b) = b := by
    intro a
    induction a with
    | nil =>
      intro b hlen
      exact (List.eq_nil_of_length_eq_zero hlen.symm).symm
    | cons x a ih =>
      intro b hlen
      cases b with
      | nil => cases hlen
      | cons y b =>
        rw [List.zipWith_cons_cons, List.zipWith_cons_cons, ih b (by simpa using hlen),
          ← UInt8.xor_assoc, UInt8.xor_self, UInt8.zero_xor]
  exact ByteArr.ext (hzip _ _ (by simp))

/-- The mask is taken off again. -/
theorem applyAgreementXOR_eq {c : Key}
    (h : applyAgreementXOR s ours.privateKey ours.publicKey theirs.publicKey .sending m = .ok c) :
    applyAgreementXOR s theirs.privateKey theirs.publicKey ours.publicKey .receiving c = .ok m := by
  unfold applyAgreementXOR at h ⊢
  rw [laws.comm _ _ htheirs hours]
  obtain ⟨shared, hshared, h⟩ := bind_eq_ok.mp h
  obtain ⟨mask, hmask, h⟩ := bind_eq_ok.mp h
  cases h
  rw [hshared, ok_bind]
  simp only at hmask ⊢
  rw [hmask, ok_bind]
  exact congrArg Except.ok (xorKeys_xorKeys mask m)

end Sides

variable {ephemeral : KeyPair}

/-- The ephemeral pair of the second envelope belongs together. -/
theorem keyPairValid_deriveV2Keys {s : Primitives} {k : Key}
    (h : deriveV2Keys s m = .ok (ephemeral, k)) : KeyPairValid s.toPrims ephemeral := by
  obtain ⟨r, -, h⟩ := bind_eq_ok.mp h
  obtain ⟨k', -, h⟩ := bind_eq_ok.mp h
  obtain ⟨kp, hkp, h⟩ := bind_eq_ok.mp h
  cases h
  obtain ⟨pub, hpub, hkp⟩ := bind_eq_ok.mp (mapError_eq_ok.mp hkp)
  cases hkp
  exact mapError_eq_ok.mp hpub

/-! ## The round trip -/

variable {rnd : Except String Key}

section RoundTrip

variable {s w} (laws : w.Laws) (ciphers : s.CipherLaws) (dhLaws : DHLaws s.toPrims)
  {recipient sender : IdentityKeyPair} (hrecipient : KeyPairValid s.toPrims recipient.keyPair)
  (hsender : KeyPairValid s.toPrims sender.keyPair) {usmc : UnidentifiedSenderMessageContent}
  (hparse : parseUnidentifiedSenderMessageContent s w usmc.serialized = .ok usmc)

include laws in
/-- The three fields of the first envelope are read back. -/
theorem decodeSealedSenderV1Message_encode
    (ephemeralPublic encryptedStatic encryptedMessage : Bytes) : decodeSealedSenderV1Message w
      (encodeSealedSenderV1Message w ephemeralPublic encryptedStatic encryptedMessage) =
      .ok { ephemeralPublic := ephemeralPublic
            encryptedStatic, encryptedMessage } := by
  have h1 (m : V1Fields) : Decodes w.toProtowire (invalid "sealed sender tag") (v1Field w)
      (w.appendTag 1 .bytes ++ w.appendBytes ephemeralPublic) m
      { m with ephemeralPublic := some ephemeralPublic } :=
    .field laws.toLaws (by decide) fun rest => by
      simp only [v1Field, rawField_append laws.toLaws, ok_bind]
      rfl
  have h2 (m : V1Fields) : Decodes w.toProtowire (invalid "sealed sender tag") (v1Field w)
      (w.appendTag 2 .bytes ++ w.appendBytes encryptedStatic) m
      { m with encryptedStatic := some encryptedStatic } :=
    .field laws.toLaws (by decide) fun rest => by
      simp only [v1Field, rawField_append laws.toLaws, ok_bind]
      rfl
  have h3 (m : V1Fields) : Decodes w.toProtowire (invalid "sealed sender tag") (v1Field w)
      (w.appendTag 3 .bytes ++ w.appendBytes encryptedMessage) m
      { m with encryptedMessage := some encryptedMessage } :=
    .field laws.toLaws (by decide) fun rest => by
      simp only [v1Field, rawField_append laws.toLaws, ok_bind]
      rfl
  rw [decodeSealedSenderV1Message, encodeSealedSenderV1Message,
    (((h1 _).trans (h2 _)).trans (h3 _)).eq, ok_bind]
  rfl

include laws ciphers dhLaws hrecipient hsender hparse

/-- **The first envelope**: two layers, the outer under the ephemeral key, the inner under the
sender's. -/
theorem decryptToUSMC_encryptV1 {out : Bytes}
    (h : encryptV1 s w rnd recipient.publicKey.publicKey sender usmc = .ok out) :
    decryptToUSMC s w out recipient = .ok usmc := by
  unfold encryptV1 at h
  split at h
  · cases h
  · rename_i hcompare
    have hname : usmc.sender.identityKeyBytes =
        serializeWirePublicKey sender.publicKey.publicKey := by
      simpa [compareIdentityKeyBytes] using hcompare
    obtain ⟨ephemeral, heph, h⟩ := bind_eq_ok.mp h
    obtain ⟨ephKeys, hephKeys, h⟩ := bind_eq_ok.mp h
    obtain ⟨staticKeys, hstatic, h⟩ := bind_eq_ok.mp h
    cases h
    have hvalid := keyPairValid_generateKeyPair (mapError_eq_ok.mp heph)
    have hephPub := isValidPublicKey_of_keyPairValid dhLaws hvalid
    have hsenderPub : isValidPublicKey s.toPrims sender.publicKey.publicKey = true :=
      isValidPublicKey_of_keyPairValid dhLaws hsender
    -- the recipient derives the sender's keys
    have hephKeys' : deriveEphemeralKeys s recipient.publicKey.publicKey recipient.privateKey
        ephemeral.publicKey .receiving = .ok ephKeys :=
      (deriveEphemeralKeys_eq dhLaws hvalid hrecipient).trans hephKeys
    have hstatic' := (deriveStaticKeys_eq dhLaws hsender hrecipient ephKeys.chainKey
      (aes256CTRHMACSHA256Encrypt s (serializeWirePublicKey sender.publicKey.publicKey)
        ephKeys.cipherKey ephKeys.macKey)).trans hstatic
    -- no field of the envelope is empty, so that none is taken for missing
    have hne (pt : Bytes) (a b : Key) : (aes256CTRHMACSHA256Encrypt s pt a b).isEmpty = false := by
      rw [List.isEmpty_eq_false_iff_exists_mem]
      exact List.length_pos_iff_exists_mem.mp (length_aes256CTRHMACSHA256Encrypt_pos s pt a b)
    have hwire : (serializeWirePublicKey ephemeral.publicKey).isEmpty = false := rfl
    show decryptV1 s w _ recipient = .ok usmc
    rw [decryptV1, decodeSealedSenderV1Message_encode laws, ok_bind]
    simp only [hne, hwire]
    rw [if_neg (by decide), if_neg (by decide), deserializeWirePublicKey_serialize hephPub, ok_bind,
      hephKeys', ok_bind, aes256CTRHMACSHA256Decrypt_encrypt ciphers]
    simp only [Except.mapError, ok_bind, deserializeWirePublicKey_serialize hsenderPub]
    have hstatic'' : deriveStaticKeys s recipient.privateKey sender.publicKey.publicKey
        ephKeys.chainKey _ = .ok staticKeys := hstatic'
    -- the content names the sender whose key opened the layer
    rw [hstatic'', ok_bind, aes256CTRHMACSHA256Decrypt_encrypt ciphers]
    simp only [ok_bind, hparse]
    rw [if_neg (not_not.mpr hname.symm)]
    rfl

omit laws in
/-- **The second envelope**: a masked message key, a tag and an ephemeral key, all of fixed length,
in front of the ciphertext. -/
theorem decryptToUSMC_encryptV2Received
    (hidentity : usmc.sender.identityKey = sender.publicKey.publicKey) {out : Bytes}
    (h : encryptV2Received s rnd recipient.publicKey.publicKey sender usmc = .ok out) :
    decryptToUSMC s w out recipient = .ok usmc := by
  unfold encryptV2Received at h
  split at h
  · cases h
  · -- the recipient unmasks `m` and derives the same ephemeral pair from it
    obtain ⟨m, -, h⟩ := bind_eq_ok.mp h
    obtain ⟨⟨ephemeral, k⟩, hkeys, h⟩ := bind_eq_ok.mp h
    obtain ⟨c, hc, h⟩ := bind_eq_ok.mp h
    obtain ⟨tag, htag, h⟩ := bind_eq_ok.mp h
    obtain ⟨ciphertext, hseal, h⟩ := bind_eq_ok.mp h
    cases h
    have hvalid : KeyPairValid s.toPrims ephemeral := keyPairValid_deriveV2Keys hkeys
    obtain ⟨hlen, hopen⟩ := aesGCMSIVDecrypt_encrypt ciphers (mapError_eq_ok.mp hseal)
    have hc' : applyAgreementXOR s recipient.privateKey recipient.publicKey.publicKey
        ephemeral.publicKey .receiving c = .ok m :=
      applyAgreementXOR_eq dhLaws hvalid hrecipient hc
    have htag' : computeAuthenticationTag s recipient.privateKey recipient.publicKey.publicKey
        sender.publicKey.publicKey .receiving ephemeral.publicKey c = .ok tag :=
      (computeAuthenticationTag_eq dhLaws hsender hrecipient ephemeral.publicKey c).trans htag
    -- the three fixed parts are cut off by position
    set payload := c.toBytes ++ (tag.toBytes ++ (ephemeral.publicKey.toBytes ++ ciphertext))
      with hpayload
    have h1 : payload.take 32 = c.toBytes := List.take_left' c.length_toBytes
    have h2 : payload.drop 32 = tag.toBytes ++ (ephemeral.publicKey.toBytes ++ ciphertext) :=
      List.drop_left' c.length_toBytes
    have h3 : payload.drop 48 = ephemeral.publicKey.toBytes ++ ciphertext := by
      rw [show 48 = 32 + 16 from rfl, ← List.drop_drop, h2]
      exact List.drop_left' tag.length_toBytes
    have h4 : payload.drop 80 = ciphertext := by
      rw [show 80 = 48 + 32 from rfl, ← List.drop_drop, h3]
      exact List.drop_left' ephemeral.publicKey.length_toBytes
    have hsize : ¬ payload.length < sealedSenderV2MessageKeyLen + sealedSenderV2AuthTagLen +
        sealedSenderV2PublicKeyLen + sealedSenderV2AuthTagLen := by
      simp [hpayload, hlen, sealedSenderV2MessageKeyLen, sealedSenderV2AuthTagLen,
        sealedSenderV2PublicKeyLen]
      omega
    show decryptV2 s w payload recipient = .ok usmc
    rw [decryptV2, if_neg hsize]
    simp only [h1, h2, h3, h4, List.take_left' tag.length_toBytes,
      List.take_left' ephemeral.publicKey.length_toBytes, ByteArr.ofBytes_toBytes, hc', hkeys,
      ok_bind, hopen, Except.mapError, hparse, hidentity, htag']
    rw [if_neg (not_not.mpr rfl), if_neg (not_not.mpr rfl)]
    rfl

end RoundTrip

/-! ## Encryption returns -/

section Encrypts

variable {s w} (dhLaws : DHLaws s.toPrims) {recipient : KeyPair}
  (hrecipient : KeyPairValid s.toPrims recipient) {sender : IdentityKeyPair}
  {usmc : UnidentifiedSenderMessageContent}
  (hname : usmc.sender.identityKeyBytes = serializeWirePublicKey sender.publicKey.publicKey)

include dhLaws hrecipient hname

/-- With a valid recipient key nothing in the first envelope can fail. -/
theorem encryptV1_ok (heph : generateKeyPair s.toPrims rnd = .ok ephemeral) :
    ∃ out, encryptV1 s w rnd recipient.publicKey sender usmc = .ok out := by
  obtain ⟨shared, hshared⟩ := dhLaws.total ephemeral.privateKey recipient hrecipient
  obtain ⟨shared', hshared'⟩ := dhLaws.total sender.privateKey recipient hrecipient
  rw [encryptV1, if_neg (by simp [compareIdentityKeyBytes, hname]), heph]
  simp only [deriveEphemeralKeys, deriveStaticKeys, hshared, hshared',
    hkdf_ok (p := s.toPrims) (show 96 ≤ hkdfMaxLength by decide), Except.mapError, ok_bind]
  exact ⟨_, rfl⟩

/-- Nor in the second. -/
theorem encryptV2Received_ok {k : Key} (hkeys : deriveV2Keys s m = .ok (ephemeral, k)) :
    ∃ out, encryptV2Received s (.ok m) recipient.publicKey sender usmc = .ok out := by
  obtain ⟨shared, hshared⟩ := dhLaws.total ephemeral.privateKey recipient hrecipient
  obtain ⟨shared', hshared'⟩ := dhLaws.total sender.privateKey recipient hrecipient
  rw [encryptV2Received, if_neg (by simp [compareIdentityKeyBytes, hname])]
  simp only [hkeys, applyAgreementXOR, computeAuthenticationTag, hshared, hshared',
    hkdf_ok (p := s.toPrims) (show sealedSenderV2MessageKeyLen ≤ hkdfMaxLength by decide),
    hkdf_ok (p := s.toPrims) (show sealedSenderV2AuthTagLen ≤ hkdfMaxLength by decide),
    aesGCMSIVEncrypt, Except.mapError, ok_bind]
  exact ⟨_, rfl⟩

end Encrypts

/-- **Sealed sender round trip.** The recipient gets the content back that the sender built from
its certificate, from either envelope. -/
theorem sealed_sender_round_trip (s : Primitives) (w : SealedWire) (laws : w.Laws)
    (ciphers : s.CipherLaws) (dhLaws : DHLaws s.toPrims) (recipient sender : IdentityKeyPair)
    (hrecipient : KeyPairValid s.toPrims recipient.keyPair)
    (hsender : KeyPairValid s.toPrims sender.keyPair) (signRnd : Except String (ByteArr 64))
    (params : SenderCertificateParams s w)
    (hparams : params.identityKey = sender.publicKey.publicKey) (certificate : SenderCertificate)
    (hcertificate : newSenderCertificate s w signRnd params = .ok certificate)
    (msgType : MessageType) (content : Bytes) (hint : ContentHint) (groupID : Bytes)
    (usmc : UnidentifiedSenderMessageContent)
    (husmc : newUnidentifiedSenderMessageContent w msgType certificate content hint groupID =
      .ok usmc) (rnd : Except String Key) (out : Bytes)
    (hout : encryptV1 s w rnd recipient.publicKey.publicKey sender usmc = .ok out ∨
      encryptV2Received s rnd recipient.publicKey.publicKey sender usmc = .ok out) :
    ∃ received, decryptToUSMC s w out recipient = .ok received ∧ received.msgType = msgType ∧
      received.content = content ∧ received.contentHint = hint ∧ received.groupID = groupID ∧
      received.groupIDValid = !groupID.isEmpty ∧ received.sender = certificate := by
  obtain ⟨hparseCert, hidentity, -⟩ := parseSenderCertificate_new laws hcertificate
  obtain ⟨hparse, hcert⟩ := parse_newContent laws hparseCert husmc
  have hfields : usmc.msgType = msgType ∧ usmc.content = content ∧ usmc.contentHint = hint ∧
      usmc.groupID = groupID ∧ usmc.groupIDValid = !groupID.isEmpty ∧
      usmc.sender = certificate := by
    obtain ⟨-, -, h⟩ := bind_eq_ok.mp husmc
    cases h
    exact ⟨rfl, rfl, rfl, rfl, rfl, rfl⟩
  refine ⟨usmc, ?_, hfields⟩
  rcases hout with hout | hout
  · exact decryptToUSMC_encryptV1 laws ciphers dhLaws hrecipient hsender hparse hout
  · exact decryptToUSMC_encryptV2Received ciphers dhLaws hrecipient hsender hparse
      (by rw [hcert, hidentity, hparams]) hout

/-! ### The theorem at a sample envelope -/

noncomputable def sampleSealed : Primitives :=
  { toyPrims with
    curve := sampleCurve
    ctrXOR := fun key data => data.map (key.toBytes.headD 0 ^^^ ·)
    sivSeal := fun _ _ plaintext _ => plaintext ++ List.replicate 16 0
    sivOpen := fun _ _ ciphertext _ => .ok (ciphertext.take (ciphertext.length - 16)) }

/-- A one-byte mask and sixteen bytes of padding satisfy the laws. -/
theorem sampleSealed_cipherLaws : sampleSealed.CipherLaws where
  ctr key data := by
    have hcancel : ∀ a b : UInt8, a ^^^ (a ^^^ b) = b := fun a b => by
      rw [← UInt8.xor_assoc, UInt8.xor_self, UInt8.zero_xor]
    show (data.map _).map _ = data
    rw [List.map_map]
    exact (List.map_congr_left fun b _ => hcancel _ b).trans (List.map_id data)
  siv_length _ _ plaintext _ := by simp [sampleSealed]
  siv _ _ plaintext _ := by simp [sampleSealed]

def sealedVarintWire : SealedWire :=
  { varintWire with
    appendFixed64 := putUint64
    consumeFixed64 := fun data =>
      match readUint64 (ε := Err) data with
      | .ok v => some (v, 8)
      | .error _ => none }

theorem sealedVarintWire_laws : sealedVarintWire.Laws where
  toLaws := varintWire_laws
  fixed64 v rest := by
    simp only [sealedVarintWire, readUint64_putUint64]
    rfl

/-- A certificate with a uuid of 16 bytes and a named signer. -/
noncomputable def sampleParams : SenderCertificateParams sampleSealed sealedVarintWire where
  senderUUID := []
  senderUUIDBytes := List.replicate 16 5
  senderE164 := [43]
  senderDevice := 2
  expiresAt := { Time.zero with sec := 1000 }
  identityKey := (toyPair 3).publicKey
  signer := none
  signerID := some 7
  signerPrivate := Key.fill 8

/-- The certificate is issued. -/
theorem newSenderCertificate_sample :
    ∃ cert, newSenderCertificate sampleSealed sealedVarintWire (.ok .zero) sampleParams = .ok cert ∧
      cert.identityKeyBytes = serializeWirePublicKey (toyPair 3).publicKey := by
  have hcheck : sampleParams.check = .ok () := by
    have hvalid : isValidPublicKey sampleSealed.toPrims (toyPair 3).publicKey = true := by
      show isValidPublicKey toyPrims (toyPair 3).publicKey = true
      decide
    simp only [SenderCertificateParams.check, sampleParams, hvalid]
    decide
  obtain ⟨r, hsign⟩ := xeddsaSign_ok sampleSealed.curve .zero sampleParams.signerPrivate
    [encodeSenderCertificateBody sealedVarintWire sampleParams.body]
  rw [newSenderCertificate, hcheck, ok_bind]
  simp only [hsign, Except.mapError, ok_bind]
  exact ⟨_, rfl, rfl⟩

def sampleIdentity (b : UInt8) : IdentityKeyPair where
  publicKey := { publicKey := (toyPair b).publicKey, signingPublic := .zero }
  privateKey := (toyPair b).privateKey

/-- Both envelopes of one content are opened. -/
theorem sealed_sender_round_trip_sample :
    ∃ cert usmc out₁ out₂,
      newSenderCertificate sampleSealed sealedVarintWire (.ok .zero) sampleParams = .ok cert ∧
      newUnidentifiedSenderMessageContent sealedVarintWire messageTypePreKey cert [1, 2] 2 [9] =
        .ok usmc ∧
      encryptV1 sampleSealed sealedVarintWire (.ok (Key.fill 6)) (toyPair 4).publicKey
        (sampleIdentity 3) usmc = .ok out₁ ∧
      encryptV2Received sampleSealed (.ok (Key.fill 6)) (toyPair 4).publicKey
        (sampleIdentity 3) usmc = .ok out₂ ∧
      ∀ out ∈ [out₁, out₂], ∃ received,
        decryptToUSMC sampleSealed sealedVarintWire out (sampleIdentity 4) = .ok received ∧
        received.content = [1, 2] ∧ received.groupID = [9] ∧ received.sender = cert := by
  have hvalid₃ : KeyPairValid sampleSealed.toPrims (toyPair 3) := rfl
  have hvalid₄ : KeyPairValid sampleSealed.toPrims (toyPair 4) := rfl
  obtain ⟨cert, hcert, hname⟩ := newSenderCertificate_sample
  obtain ⟨usmc, husmc, hsender⟩ : ∃ usmc, newUnidentifiedSenderMessageContent sealedVarintWire
      messageTypePreKey cert [1, 2] 2 [9] = .ok usmc ∧ usmc.sender = cert := ⟨_, rfl, rfl⟩
  have hname' : usmc.sender.identityKeyBytes =
      serializeWirePublicKey (sampleIdentity 3).publicKey.publicKey := by rw [hsender, hname]; rfl
  have heph : generateKeyPair sampleSealed.toPrims (.ok (Key.fill 6)) = .ok (toyPair 6) := rfl
  have hkeys : deriveV2Keys sampleSealed (Key.fill 6) = .ok (toyPair 0xff, Key.fill 0xff) := rfl
  obtain ⟨out₁, hout₁⟩ := encryptV1_ok (w := sealedVarintWire) Ratchet.toyPrims_dhLaws hvalid₄
    hname' heph
  obtain ⟨out₂, hout₂⟩ := encryptV2Received_ok Ratchet.toyPrims_dhLaws hvalid₄ hname' hkeys
  refine ⟨cert, usmc, out₁, out₂, hcert, husmc, hout₁, hout₂, fun out hout => ?_⟩
  -- each envelope is one of the two that the theorem speaks of
  have hcases : encryptV1 sampleSealed sealedVarintWire (.ok (Key.fill 6))
        (sampleIdentity 4).publicKey.publicKey (sampleIdentity 3) usmc = .ok out ∨
      encryptV2Received sampleSealed (.ok (Key.fill 6))
        (sampleIdentity 4).publicKey.publicKey (sampleIdentity 3) usmc = .ok out := by
    rcases List.mem_pair.mp hout with rfl | rfl
    · exact .inl hout₁
    · exact .inr hout₂
  obtain ⟨received, hok, -, hcontent, -, hgroup, -, hcert'⟩ :=
    sealed_sender_round_trip sampleSealed sealedVarintWire sealedVarintWire_laws
      sampleSealed_cipherLaws Ratchet.toyPrims_dhLaws (sampleIdentity 4)
        (sampleIdentity 3) hvalid₄ hvalid₃
      _ sampleParams rfl cert hcert _ _ _ _ usmc husmc _ out hcases
  exact ⟨received, hok, hcontent, hgroup, hcert'⟩

end SignalGo.SealedSender
