import SignalGo.Ratchet.Agreement
import SignalGo.Wire
import SignalGo.X3dh.Serialize

/-!
# X3DH: both sides derive the same secrets

The initiator works from the responder's public bundle, the responder from the initial message
and its private keys. The two compute each Diffie-Hellman term from opposite ends, and the Kyber
secret by encapsulation on one side and decapsulation on the other.

The responder reads only part of the initial message (`SameHandshake`): the signing half of the
identity and the ciphertext do not enter. So the secrets also agree when the message travels in a
`PreKeySignalMessage`, which drops the signing half, or as the bytes of `Message.serialize`.

* `Initiator.processPreKeyBundle_ok`: what a successful initiator computed.
* `responder_derives`: the responder computes the same from any message that carries the
  handshake.
* `handshake_agreement`: the two together, over both transports.
-/

namespace SignalGo.X3dh

open Effect
open Ratchet (KeyPairValid DHLaws)

variable {s : Suite}

/-! ## The responder's keys -/

/-- The key pairs a responder has published the public parts of. -/
structure ResponderKeys (p : Prims) where
  identity : IdentityKeyPair
  signedPreKey : SignedPreKey
  preKey : Option PreKey
  kyberPreKey : Option KyberPreKey
  identity_valid : KeyPairValid p identity.keyPair
  signedPreKey_valid : KeyPairValid p signedPreKey.keyPair
  preKey_valid : ∀ pk, preKey = some pk → KeyPairValid p pk.keyPair

/-- The store has the private parts of the optional keys. -/
structure Holds {p : Prims} (st : Store) (r : ResponderKeys p) : Prop where
  preKey : ∀ pk, r.preKey = some pk → st.preKeys[pk.id]? = some pk
  kyberPreKey : ∀ k, r.kyberPreKey = some k → st.kyberKeys[k.id]? = some k

/-- The bundle of the responder's public parts. -/
def ResponderKeys.bundle {p : Prims} (r : ResponderKeys p) (registrationID deviceID : UInt32) :
    Except Err PreKeyBundle :=
  newPreKeyBundleWithKyber registrationID deviceID r.preKey r.signedPreKey r.kyberPreKey
    r.identity.publicKey

/-- The fields of a bundle that was built. -/
theorem newPreKeyBundleWithKyber_ok {registrationID deviceID : UInt32} {preKey : Option PreKey}
    {signedPreKey : SignedPreKey} {kyberPreKey : Option KyberPreKey} {identity : IdentityKey}
    {bundle : PreKeyBundle}
    (h : newPreKeyBundleWithKyber registrationID deviceID preKey signedPreKey kyberPreKey
      identity = .ok bundle) :
    bundle.identityKey = identity ∧ bundle.signedPreKeyID = signedPreKey.id ∧
      bundle.signedPreKeyPublic = signedPreKey.keyPair.publicKey ∧
      bundle.preKeyID = preKey.map (·.id) ∧
      bundle.preKeyPublic = preKey.map (·.keyPair.publicKey) ∧
      bundle.kyberPreKeyID = kyberPreKey.map (·.id) ∧
      ∀ k, kyberPreKey = some k → bundle.kyberPreKeyPublic = k.keyPair.publicKey := by
  unfold newPreKeyBundleWithKyber at h
  cases kyberPreKey with
  | none =>
    cases h
    exact ⟨rfl, rfl, rfl, rfl, rfl, rfl, nofun⟩
  | some kyber =>
    simp only at h
    split at h
    · cases h
    · split at h
      · cases h
      · cases h
        refine ⟨rfl, rfl, rfl, rfl, rfl, rfl, fun k hk => ?_⟩
        cases hk
        rfl

/-! ## What the initiator computed -/

/-- The terms of a successful `ProcessPreKeyBundle`. -/
structure InitiatorTerms (s : Suite) (x : Initiator) (bundle : PreKeyBundle) (result : Result) where
  ephemeral : KeyPair
  dh1 : Key
  dh2 : Key
  dh3 : Key
  dh4 : Option Key
  kyberSS : Option Bytes
  kyberCiphertext : Bytes
  secrets : Secrets
  valid : bundle.validate s = .ok ()
  generated : x.generateEphemeral = .ok ephemeral
  term1 : dh s.toPrims x.identityKey.privateKey bundle.signedPreKeyPublic = .ok dh1
  term2 : dh s.toPrims ephemeral.privateKey bundle.identityKey.publicKey = .ok dh2
  term3 : dh s.toPrims ephemeral.privateKey bundle.signedPreKeyPublic = .ok dh3
  term4 : Initiator.dh4 s ephemeral bundle.preKeyPublic = .ok dh4
  encapsulated : x.encapsulate bundle = .ok (kyberSS, kyberCiphertext)
  derived : deriveSecrets s.toPrims (keyMaterial dh1 dh2 dh3 dh4) kyberSS = .ok secrets
  result_eq : result = {
    sharedSecret := secrets.shared
    initialChainKey := secrets.initialChain
    pqrKey := secrets.pqrKey
    associatedData := associatedData x.identityKey.publicKey bundle.identityKey
    remoteIdentity := bundle.identityKey
    initialMessage := {
      identityKey := x.identityKey.publicKey
      ephemeralKey := ephemeral.publicKey
      preKeyID := bundle.preKeyID
      signedPreKeyID := bundle.signedPreKeyID
      kyberPreKeyID := bundle.kyberPreKeyID
      kyberCiphertext
      ciphertext := [] }
    localEphemeral := some ephemeral
    localRatchetKey := none
    remoteRatchetKey := some bundle.signedPreKeyPublic }

theorem Initiator.processPreKeyBundle_ok {x : Initiator} {bundle : PreKeyBundle} {result : Result} :
    x.processPreKeyBundle s bundle = .ok result ↔ Nonempty (InitiatorTerms s x bundle result) := by
  constructor
  · intro h
    obtain ⟨_, hvalid, h⟩ := bind_eq_ok.mp h
    obtain ⟨eph, hgen, h⟩ := bind_eq_ok.mp h
    obtain ⟨dh1, h1, h⟩ := bind_eq_ok.mp h
    obtain ⟨dh2, h2, h⟩ := bind_eq_ok.mp h
    obtain ⟨dh3, h3, h⟩ := bind_eq_ok.mp h
    obtain ⟨dh4, h4, h⟩ := bind_eq_ok.mp h
    obtain ⟨⟨ss, ct⟩, henc, h⟩ := bind_eq_ok.mp h
    obtain ⟨secrets, hsec, h⟩ := bind_eq_ok.mp h
    cases h
    exact ⟨⟨eph, dh1, dh2, dh3, dh4, ss, ct, secrets, mapError_eq_ok.mp hvalid,
      mapError_eq_ok.mp hgen, mapError_eq_ok.mp h1, mapError_eq_ok.mp h2, mapError_eq_ok.mp h3, h4,
      henc, mapError_eq_ok.mp hsec, rfl⟩⟩
  · rintro ⟨t⟩
    simp only [processPreKeyBundle, t.valid, t.generated, t.term1, t.term2, t.term3, t.term4,
      t.encapsulated, t.derived, Except.mapError, ok_bind]
    exact congrArg Except.ok t.result_eq.symm

/-! ## The responder -/

/-- The part of an initial message the responder reads. -/
structure SameHandshake (m m' : Message) : Prop where
  publicKey : m.identityKey.publicKey = m'.identityKey.publicKey
  ephemeralKey : m.ephemeralKey = m'.ephemeralKey
  preKeyID : m.preKeyID = m'.preKeyID
  signedPreKeyID : m.signedPreKeyID = m'.signedPreKeyID
  kyberPreKeyID : m.kyberPreKeyID = m'.kyberPreKeyID
  kyberCiphertext : m.kyberCiphertext = m'.kyberCiphertext

/-- The store after the handshake: the one-time pre-key is gone. -/
def consumed (preKeyID : Option UInt32) (st : Store) : Store :=
  match preKeyID with
  | none => st
  | some id => st.removePreKey id

/-- What the initiator encapsulates for the Kyber key opens under its private part. -/
def KyberAgrees (s : Suite) (x : Initiator) (r : ResponderKeys s.toPrims) : Prop :=
  ∀ k, r.kyberPreKey = some k → ∀ ss ct, x.kyberEncapsulate k.keyPair.publicKey = .ok (ss, ct) →
    kyber1024Decapsulate s k.keyPair.privateKey ct = .ok ss

theorem consumed_kyberKeys (preKeyID : Option UInt32) (st : Store) :
    (consumed preKeyID st).kyberKeys = st.kyberKeys := by
  cases preKeyID <;> rfl

section Responder

variable {x : Initiator} {r : ResponderKeys s.toPrims} {bundle : PreKeyBundle} {result : Result}
  {registrationID deviceID : UInt32} {st : Store}

/-- The fourth term from the responder's side. -/
theorem responderDH4_eq (laws : DHLaws s.toPrims) {eph : KeyPair}
    (heph : KeyPairValid s.toPrims eph) (hst : Holds st r) {dh4 : Option Key}
    (h : Initiator.dh4 s eph (r.preKey.map (·.keyPair.publicKey)) = .ok dh4) :
    responderDH4 s (r.preKey.map (·.id)) eph.publicKey st =
      .ok dh4 (consumed (r.preKey.map (·.id)) st) := by
  cases hpk : r.preKey with
  | none =>
    rw [hpk] at h
    cases h
    rfl
  | some pk =>
    rw [hpk] at h
    obtain ⟨out, hout, h⟩ := bind_eq_ok.mp h
    cases h
    have hcomm := laws.comm pk.keyPair eph (r.preKey_valid pk hpk) heph
    have hload : (reads (fun st : Store => st.preKeys[pk.id]?) : EStateM Err Store _) st =
        .ok (some pk) st := by
      rw [reads_apply, hst.preKey pk hpk]
    simp only [Option.map_some, responderDH4]
    rw [bind_of_ok hload]
    simp only
    rw [hcomm, mapError_eq_ok.mp hout]
    rfl

/-- The Kyber secret from the responder's side. -/
theorem decapsulate_eq (hst : Holds st r)
    (hpublic : ∀ k, r.kyberPreKey = some k → bundle.kyberPreKeyPublic = k.keyPair.publicKey)
    (hid : bundle.kyberPreKeyID = r.kyberPreKey.map (·.id))
    (hkyber : KyberAgrees s x r)
    {ss : Option Bytes} {m : Message} (h : x.encapsulate bundle = .ok (ss, m.kyberCiphertext))
    (hm : m.kyberPreKeyID = bundle.kyberPreKeyID) :
    decapsulate s m st = .ok ss st := by
  unfold Initiator.encapsulate at h
  cases hk : r.kyberPreKey with
  | none =>
    rw [hk] at hid
    rw [hid] at h hm
    simp only [Option.map_none, Except.ok.injEq, Prod.mk.injEq] at h
    obtain ⟨rfl, hct⟩ := h
    simp only [decapsulate, hm, Option.map_none, ← hct]
    rfl
  | some k =>
    rw [hk] at hid
    rw [hid] at h hm
    obtain ⟨⟨ss', ct⟩, henc, h⟩ := bind_eq_ok.mp h
    have henc := mapError_eq_ok.mp henc
    rw [hpublic k hk] at henc
    simp only [pure, Except.pure, Except.ok.injEq, Prod.mk.injEq] at h
    obtain ⟨rfl, hct⟩ := h
    subst hct
    have hdec := hkyber k hk ss' _ henc
    have hne : m.kyberCiphertext.length ≠ 0 := by
      rw [length_of_kyber1024Decapsulate s hdec]
      decide
    have hload : (reads (fun st : Store => st.kyberKeys[k.id]?) : EStateM Err Store _) st =
        .ok (some k) st := by
      rw [reads_apply, hst.kyberPreKey k hk]
    simp only [decapsulate, hm, Option.map_some, if_neg hne]
    rw [bind_of_ok hload]
    simp only
    rw [hdec]
    rfl

/-- **The responder derives the initiator's secrets**, from every message that carries the
handshake. -/
theorem responder_derives (laws : DHLaws s.toPrims)
    (hx : KeyPairValid s.toPrims x.identityKey.keyPair)
    (hgen : ∀ kp, x.generateEphemeral = .ok kp → KeyPairValid s.toPrims kp)
    (hkyber : KyberAgrees s x r)
    (hbundle : r.bundle registrationID deviceID = .ok bundle)
    (hresult : x.processPreKeyBundle s bundle = .ok result) (hst : Holds st r) {m : Message}
    (hm : SameHandshake m result.initialMessage) :
    processInitialMessage s r.identity r.signedPreKey m st = .ok {
      sharedSecret := result.sharedSecret
      initialChainKey := result.initialChainKey
      pqrKey := result.pqrKey
      associatedData := result.associatedData
      remoteIdentity := m.identityKey
      initialMessage := m
      localEphemeral := none
      localRatchetKey := some r.signedPreKey.keyPair
      remoteRatchetKey := none } (consumed m.preKeyID st) := by
  obtain ⟨t⟩ := Initiator.processPreKeyBundle_ok.mp hresult
  obtain ⟨hid, hsid, hspub, hpid, hppub, hkid, hkpub⟩ := newPreKeyBundleWithKyber_ok hbundle
  have heph := hgen _ t.generated
  rw [t.result_eq] at hm ⊢
  have hpub := hm.publicKey
  have hkey := hm.ephemeralKey
  simp only at hpub hkey
  -- Each term from the other end.
  have h1 : dh s.toPrims r.signedPreKey.keyPair.privateKey m.identityKey.publicKey = .ok t.dh1 := by
    rw [hpub, ← t.term1, hspub]
    exact laws.comm r.signedPreKey.keyPair x.identityKey.keyPair r.signedPreKey_valid hx
  have h2 : dh s.toPrims r.identity.privateKey m.ephemeralKey = .ok t.dh2 := by
    rw [hkey, ← t.term2, hid]
    exact laws.comm r.identity.keyPair t.ephemeral r.identity_valid heph
  have h3 : dh s.toPrims r.signedPreKey.keyPair.privateKey m.ephemeralKey = .ok t.dh3 := by
    rw [hkey, ← t.term3, hspub]
    exact laws.comm r.signedPreKey.keyPair t.ephemeral r.signedPreKey_valid heph
  have h4 : responderDH4 s m.preKeyID m.ephemeralKey st = .ok t.dh4 (consumed m.preKeyID st) := by
    have hterm := t.term4
    rw [hppub] at hterm
    rw [hm.preKeyID, hkey, hpid]
    exact responderDH4_eq laws heph hst hterm
  have hst' : Holds (consumed m.preKeyID st) { r with preKey := none, preKey_valid := nofun } :=
    ⟨nofun, fun k hk => by rw [consumed_kyberKeys]; exact hst.kyberPreKey k hk⟩
  have h5 : decapsulate s m (consumed m.preKeyID st) =
      .ok t.kyberSS (consumed m.preKeyID st) := by
    refine decapsulate_eq hst' hkpub hkid hkyber ?_ hm.kyberPreKeyID
    rw [hm.kyberCiphertext]
    exact t.encapsulated
  have hsigned : m.signedPreKeyID = r.signedPreKey.id := hm.signedPreKeyID.trans hsid
  rw [processInitialMessage, if_neg (not_not.mpr hsigned), h1, h2, h3]
  simp only [Except.mapError]
  rw [bind_of_ok lift_ok, bind_of_ok lift_ok, bind_of_ok lift_ok, bind_of_ok h4, bind_of_ok h5,
    t.derived]
  simp only [associatedData, hpub, hid]
  rfl

end Responder

/-! ## Agreement over both transports -/

/-- The initial message `decryptPreKeyMessage` makes of a pre-key message. -/
def ofPreKeySignalMessage (msg : Wire.PreKeySignalMessage) : Message where
  identityKey := msg.identityKey
  ephemeralKey := msg.baseKey
  preKeyID := msg.preKeyID
  signedPreKeyID := msg.signedPreKeyID
  kyberPreKeyID := msg.kyberPreKeyID
  kyberCiphertext := msg.kyberCiphertext
  ciphertext := msg.message.serialized

/-- The responder accepts the message and derives what the initiator derived. -/
def Agrees (s : Suite) (r : ResponderKeys s.toPrims) (st : Store) (result : Result) (m : Message) :
    Prop :=
  ∃ result' st', processInitialMessage s r.identity r.signedPreKey m st = .ok result' st' ∧
    result'.sharedSecret = result.sharedSecret ∧
    result'.initialChainKey = result.initialChainKey ∧
    result'.pqrKey = result.pqrKey ∧
    result'.associatedData = result.associatedData

/-- The Kyber part of the initiator's message is there as a whole or not at all, and has the size
of a ciphertext. -/
theorem kyberPart_of_encapsulate {x : Initiator} {r : ResponderKeys s.toPrims}
    {bundle : PreKeyBundle} {ss : Option Bytes} {ct : Bytes}
    (hpublic : ∀ k, r.kyberPreKey = some k → bundle.kyberPreKeyPublic = k.keyPair.publicKey)
    (hid : bundle.kyberPreKeyID = r.kyberPreKey.map (·.id))
    (hkyber : KyberAgrees s x r)
    (h : x.encapsulate bundle = .ok (ss, ct)) :
    (bundle.kyberPreKeyID.isNone ↔ ct.length = 0) ∧ ct.length < 2 ^ 32 := by
  unfold Initiator.encapsulate at h
  cases hk : r.kyberPreKey with
  | none =>
    rw [hid, hk] at h ⊢
    cases h
    simp
  | some k =>
    rw [hid, hk] at h ⊢
    obtain ⟨⟨ss', ct'⟩, henc, h⟩ := bind_eq_ok.mp h
    cases h
    have henc := mapError_eq_ok.mp henc
    rw [hpublic k hk] at henc
    have hlen := length_of_kyber1024Decapsulate s (hkyber k hk _ _ henc)
    rw [hlen]
    simp [kyberCiphertextSize]

/-- **Handshake agreement.** An initiator with a valid identity and valid ephemeral pairs succeeds
on the bundle of a responder whose store has the private parts. Then the responder succeeds on
the initial message and derives the same shared secret, initial chain key, key of the
post-quantum ratchet and associated data. The same holds of the message a `PreKeySignalMessage`
around any inner message carries after it was serialized and parsed, and of the message that comes
back from `Serialize` with any ciphertext that fits its length field. -/
theorem handshake_agreement (s : Suite) (w : Protowire) (wireLaws : w.Laws)
    (laws : DHLaws s.toPrims) (x : Initiator) (r : ResponderKeys s.toPrims)
    (hx : KeyPairValid s.toPrims x.identityKey.keyPair)
    (hgen : ∀ kp, x.generateEphemeral = .ok kp → KeyPairValid s.toPrims kp)
    (hkyber : ∀ k, r.kyberPreKey = some k → ∀ ss ct,
      x.kyberEncapsulate k.keyPair.publicKey = .ok (ss, ct) →
        kyber1024Decapsulate s k.keyPair.privateKey ct = .ok ss)
    (registrationID deviceID : UInt32) (bundle : PreKeyBundle)
    (hbundle : r.bundle registrationID deviceID = .ok bundle)
    (result : Result) (hresult : x.processPreKeyBundle s bundle = .ok result)
    (st : Store) (hst : Holds st r) :
    Agrees s r st result result.initialMessage ∧
    (∀ (version : UInt8) (senderID : UInt32) (inner : Wire.SignalMessage)
      (pm : Wire.PreKeySignalMessage),
      Wire.parseSignalMessage s.toPrims w inner.serialized = .ok inner →
      Wire.newPreKeySignalMessage w version senderID result.initialMessage.preKeyID
          result.initialMessage.signedPreKeyID result.initialMessage.kyberPreKeyID
          result.initialMessage.kyberCiphertext result.initialMessage.ephemeralKey
          result.initialMessage.identityKey inner = .ok pm →
      ∃ parsed, Wire.parsePreKeySignalMessage s.toPrims w pm.serialized = .ok parsed ∧
        Agrees s r st result (ofPreKeySignalMessage parsed)) ∧
    (∀ ciphertext : Bytes, ciphertext.length < 2 ^ 32 →
      ∃ data m, { result.initialMessage with ciphertext }.serialize = .ok data ∧
        deserializeMessage s.toPrims data = .ok m ∧ Agrees s r st result m) := by
  have hagrees {m : Message} (hm : SameHandshake m result.initialMessage) :
      Agrees s r st result m :=
    ⟨_, _, responder_derives laws hx hgen hkyber hbundle hresult hst hm, rfl, rfl, rfl, rfl⟩
  obtain ⟨t⟩ := Initiator.processPreKeyBundle_ok.mp hresult
  obtain ⟨-, -, -, -, -, hkid, hkpub⟩ := newPreKeyBundleWithKyber_ok hbundle
  obtain ⟨hpart, hlen⟩ := kyberPart_of_encapsulate hkpub hkid hkyber t.encapsulated
  have hidentity : isValidPublicKey s.toPrims result.initialMessage.identityKey.publicKey =
      true := by
    rw [t.result_eq]
    exact isValidPublicKey_of_keyPairValid laws hx
  have hbase : isValidPublicKey s.toPrims result.initialMessage.ephemeralKey = true := by
    rw [t.result_eq]
    exact isValidPublicKey_of_keyPairValid laws (hgen _ t.generated)
  refine ⟨hagrees ⟨rfl, rfl, rfl, rfl, rfl, rfl⟩, ?_, ?_⟩
  · intro version senderID inner pm hinner hpm
    refine ⟨_, Wire.parsePreKeySignalMessage_serialized wireLaws hbase hidentity hinner hpm,
      hagrees ?_⟩
    obtain ⟨-, -, -, rfl⟩ := (Wire.newPreKeySignalMessage_eq_ok w).mp hpm
    exact ⟨rfl, rfl, rfl, rfl, rfl, rfl⟩
  · intro ciphertext hct
    have hfits : Message.Fits s.toPrims { result.initialMessage with ciphertext } := by
      refine ⟨hidentity, ?_, ?_, hct⟩
      · rw [t.result_eq]
        exact hpart
      · rw [t.result_eq]
        exact hlen
    obtain ⟨data, hser, hde⟩ := deserializeMessage_serialize hfits
    exact ⟨data, _, hser, hde, hagrees ⟨rfl, rfl, rfl, rfl, rfl, rfl⟩⟩

/-! ### A sample handshake -/

def toyIdentity (b : UInt8) : IdentityKeyPair where
  publicKey := { publicKey := (toyPair b).publicKey, signingPublic := Key.fill b }
  privateKey := (toyPair b).privateKey

def sampleKyberPreKey : KyberPreKey where
  id := 7
  keyPair := {
    publicKey := 0x08 :: List.replicate kyberPublicKeySize 1
    privateKey := 0x08 :: List.replicate kyberPrivateKeySize 2 }
  signature := [1]

/-- A responder with a one-time pre-key and a Kyber pre-key. -/
def sampleResponder : ResponderKeys toySuite.toPrims where
  identity := toyIdentity 3
  signedPreKey := { id := 5, keyPair := toyPair 4, signature := [1], timestamp := none }
  preKey := some { id := 6, keyPair := toyPair 5 }
  kyberPreKey := some sampleKyberPreKey
  identity_valid := rfl
  signedPreKey_valid := rfl
  preKey_valid pk h := by
    cases h
    rfl

def sampleBundle : PreKeyBundle where
  registrationID := 9
  deviceID := 1
  preKeyID := some 6
  preKeyPublic := some (toyPair 5).publicKey
  signedPreKeyID := 5
  signedPreKeyPublic := (toyPair 4).publicKey
  signedPreKeySignature := [1]
  kyberPreKeyID := some 7
  kyberPreKeyPublic := sampleKyberPreKey.keyPair.publicKey
  kyberPreKeySignature := [1]
  identityKey := (toyIdentity 3).publicKey

def sampleStore : Store :=
  { newStore (toyIdentity 3) 9 with
    preKeys := (∅ : Std.ExtTreeMap UInt32 PreKey).insert 6 { id := 6, keyPair := toyPair 5 }
    kyberKeys := (∅ : Std.ExtTreeMap UInt32 KyberPreKey).insert 7 sampleKyberPreKey }

def sampleInitiator : Initiator :=
  newInitiator toySuite (toyIdentity 1) (.ok (Key.fill 2)) []

theorem sampleStore_holds : Holds sampleStore sampleResponder where
  preKey pk h := by
    cases h
    exact Std.ExtTreeMap.getElem?_insert_self
  kyberPreKey k h := by
    cases h
    exact Std.ExtTreeMap.getElem?_insert_self

theorem sampleBundle_eq : sampleResponder.bundle 9 1 = .ok sampleBundle := by
  show newPreKeyBundleWithKyber 9 1 _ _ (some sampleKyberPreKey) _ = _
  rw [newPreKeyBundleWithKyber]
  simp only
  rw [if_neg (by simp [sampleKyberPreKey]), if_neg (by decide)]
  rfl

theorem sampleBundle_validate : sampleBundle.validate toySuite = .ok () := by
  have hkyber : sampleBundle.validateKyber toySuite = .ok () := by
    have hkey : isKyber1024PublicKey sampleBundle.kyberPreKeyPublic = true := by
      have hlen : sampleBundle.kyberPreKeyPublic.length = 1 + kyberPublicKeySize :=
        (congrArg (· + 1) List.length_replicate).trans (Nat.add_comm _ _)
      rw [isKyber1024PublicKey, hlen]
      rfl
    rw [PreKeyBundle.validateKyber, if_neg (by simp [sampleBundle, sampleKyberPreKey]),
      if_neg (by simp [sampleBundle])]
    show (if (7 : UInt32) = 0 then _ else _) = _
    rw [if_neg (by decide), hkey]
    rfl
  rw [PreKeyBundle.validate, hkyber]
  rfl

/-- Whatever the public key, the toy encapsulation gives a ciphertext the toy key pair opens. -/
theorem sampleKyber_opens (ss ct : Bytes)
    (h : sampleInitiator.kyberEncapsulate sampleKyberPreKey.keyPair.publicKey = .ok (ss, ct)) :
    kyber1024Decapsulate toySuite sampleKyberPreKey.keyPair.privateKey ct = .ok ss := by
  obtain ⟨pk, -, h⟩ := bind_eq_ok.mp h
  cases h
  have hpriv : unmarshalKyberPrivateKey toySuite sampleKyberPreKey.keyPair.privateKey =
      .ok (List.replicate kyberPrivateKeySize 2) := by
    rw [unmarshalKyberPrivateKey, sampleKyberPreKey, kyberRaw_cons List.length_replicate]
    rfl
  have hct : unmarshalKyberCiphertext (0x08 :: List.replicate 1568 7) =
      .ok (List.replicate 1568 7) := kyberRaw_cons List.length_replicate _ _
  rw [kyber1024Decapsulate, hpriv, ok_bind, hct, ok_bind]
  rfl

/-- The toy encapsulation for the sample bundle, whoever makes it. -/
theorem sampleBundle_encapsulates (identity : IdentityKeyPair) (ephemeral : Except String Key) :
    (newInitiator toySuite identity ephemeral []).encapsulate sampleBundle =
      .ok (some (List.replicate 32 7), 0x08 :: List.replicate 1568 7) := by
  have hpublic : unmarshalKyberPublicKey toySuite sampleBundle.kyberPreKeyPublic =
      .ok (List.replicate kyberPublicKeySize 1) := by
    rw [unmarshalKyberPublicKey, sampleBundle, sampleKyberPreKey,
      kyberRaw_cons List.length_replicate]
    rfl
  show ((kyber1024Encapsulate toySuite [] sampleBundle.kyberPreKeyPublic).mapError _ >>= _) = _
  rw [kyber1024Encapsulate, hpublic]
  rfl

/-- With the toy primitives the handshake succeeds, and the message that comes back from its bytes
with a ciphertext of three bytes yields the same secrets. -/
theorem handshake_agreement_sample :
    ∃ result, sampleInitiator.processPreKeyBundle toySuite sampleBundle = .ok result ∧
      ∃ data m, { result.initialMessage with ciphertext := [1, 2, 3] }.serialize = .ok data ∧
        deserializeMessage toySuite.toPrims data = .ok m ∧
        Agrees toySuite sampleResponder sampleStore result m := by
  have hresult : ∃ result,
      sampleInitiator.processPreKeyBundle toySuite sampleBundle = .ok result := by
    obtain ⟨secrets, hsecrets⟩ := deriveSecrets_ok toySuite.toPrims _ (some (List.replicate 32 7))
    exact ⟨_, Initiator.processPreKeyBundle_ok.mpr ⟨⟨toyPair 2, _, _, _, _, _, _, secrets,
      sampleBundle_validate, rfl, rfl, rfl, rfl, rfl, sampleBundle_encapsulates _ _, hsecrets,
      rfl⟩⟩⟩
  obtain ⟨result, hresult⟩ := hresult
  have hkyber (k : KyberPreKey) (hk : sampleResponder.kyberPreKey = some k) :
      ∀ ss ct, sampleInitiator.kyberEncapsulate k.keyPair.publicKey = .ok (ss, ct) →
        kyber1024Decapsulate toySuite k.keyPair.privateKey ct = .ok ss := by
    cases hk
    exact sampleKyber_opens
  have h := (handshake_agreement toySuite varintWire varintWire_laws Ratchet.toyPrims_dhLaws
    sampleInitiator sampleResponder rfl (fun kp h => Ratchet.keyPairValid_generateKeyPair h) hkyber
    9 1 sampleBundle sampleBundle_eq result hresult sampleStore sampleStore_holds).2.2 [1, 2, 3]
    (by decide)
  exact ⟨result, hresult, h⟩

end SignalGo.X3dh
