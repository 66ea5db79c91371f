import SignalGo.Keys
import SignalGo.Lib.Decoder
import SignalGo.Ratchet.Agreement
import SignalGo.XEdDSA

/-!
# Pre-key bundles as bytes

`PreKeyBundle.Serialize` and `DeserializePreKeyBundle`. The one-time pre-key has a flag in front of
it; the Kyber part stands behind everything else, and a bundle without one ends where it would
begin. Signatures and Kyber keys have lengths of 16 bits.

* `PreKeyBundle.Fits`: the optional parts are complete and the lengths fit their fields.
* `PreKeyBundle.fits_of_validate`: `Validate` lets no other bundle through: a signature that
  verifies has 64 bytes, and a Kyber key has the size of one.
* `bundle_persistence`: a valid bundle comes back from its bytes, and the decoder reads only
  bytes that are there.
-/

namespace SignalGo

open Decoder

/-- `fmt.Errorf("bundle: …")`. -/
abbrev bundleErr (msg : String) : Err := .new s!"bundle: {msg}"

def serializeVersion : UInt8 := 1

/-! ## Encoding -/

/-- The flag of the one-time pre-key, and its id and key. -/
def encodeOneTimePreKey : Option UInt32 → Option Key → Bytes
  | some id, some pub => 1 :: (putUint32 id ++ pub.toBytes)
  | _, _ => [0]

/-- The Kyber part; a bundle without one has not even its flag. -/
def encodeKyberPreKey (id : Option UInt32) (pub sig : Bytes) : Bytes :=
  match id with
  | none => []
  | some id =>
      if 0 < pub.length ∧ 0 < sig.length then
        1 :: (putUint32 id ++ putUint16 (.ofNat pub.length) ++ pub ++ putUint16 (.ofNat sig.length)
          ++ sig)
      else []

def PreKeyBundle.serialize (b : PreKeyBundle) : Except Err Bytes :=
  if b.kyberPreKeyID.isNone ≠ (b.kyberPreKeyPublic.length = 0) then
    .error (bundleErr "kyber pre-key id/key mismatch")
  else if b.kyberPreKeyID.isNone ≠ (b.kyberPreKeySignature.length = 0) then
    .error (bundleErr "kyber pre-key id/signature mismatch")
  else
    .ok ([serializeVersion] ++ putUint32 b.registrationID ++ putUint32 b.deviceID
      ++ encodeOneTimePreKey b.preKeyID b.preKeyPublic
      ++ putUint32 b.signedPreKeyID ++ b.signedPreKeyPublic.toBytes
      ++ putUint16 (.ofNat b.signedPreKeySignature.length) ++ b.signedPreKeySignature
      ++ b.identityKey.serialize
      ++ encodeKyberPreKey b.kyberPreKeyID b.kyberPreKeyPublic b.kyberPreKeySignature)

/-! ## Decoding -/

/-- A flag other than 1 means that there is none. -/
def readOneTimePreKey : Decoder Err (Option UInt32 × Option Key) := do
  let hasPreKey ← u8
  if hasPreKey = 1 then do
    need (4 + 32) (bundleErr "truncated pre-key")
    let id ← u32
    let pub ← array 32
    return (some id, some pub)
  else return (none, none)

def readSignature : Decoder Err Bytes := do
  let sigLen ← u16
  need sigLen.toNat (bundleErr "truncated signature")
  bytes sigLen.toNat

def identitySize : Nat := 1 + 32 + 32

def readIdentityKey (p : Prims) : Decoder Err IdentityKey := do
  need identitySize (bundleErr "truncated identity key")
  let raw ← bytes identitySize
  lift ((deserializeIdentityKey p raw).mapError fun e => .err (.context "bundle" e))

/-- The Kyber part behind its flag. -/
def readKyberPreKey : Decoder Err (Option UInt32 × Bytes × Bytes) := do
  need (4 + 2) (bundleErr "truncated kyber header")
  let id ← u32
  let pubLen ← u16
  if pubLen = 0 then fail (bundleErr "truncated kyber public key")
  else do
    need pubLen.toNat (bundleErr "truncated kyber public key")
    let pub ← bytes pubLen.toNat
    need 2 (bundleErr "truncated kyber signature length")
    let sigLen ← u16
    if sigLen = 0 then fail (bundleErr "truncated kyber signature")
    else do
      need sigLen.toNat (bundleErr "truncated kyber signature")
      let sig ← bytes sigLen.toNat
      return (some id, pub, sig)

/-- The Kyber part, if anything is left. -/
def readKyberTail : Decoder Err (Option UInt32 × Bytes × Bytes) := do
  if ← more then do
    need 1 (bundleErr "truncated kyber flag")
    let hasKyber ← u8
    if hasKyber = 1 then readKyberPreKey
    else if hasKyber ≠ 0 then fail (bundleErr "invalid kyber flag")
    else return (none, [], [])
  else return (none, [], [])

def readBundle (p : Prims) : Decoder Err PreKeyBundle := do
  let version ← u8
  if version ≠ serializeVersion then fail (bundleErr s!"unsupported version {version}")
  else do
    need 8 (bundleErr "truncated header")
    let registrationID ← u32
    let deviceID ← u32
    let preKey ← readOneTimePreKey
    need (4 + 32 + 2) (bundleErr "truncated signed pre-key")
    let signedPreKeyID ← u32
    let signedPreKeyPublic ← array 32
    let signature ← readSignature
    let identity ← readIdentityKey p
    let kyber ← readKyberTail
    return {
      registrationID, deviceID
      preKeyID := preKey.1
      preKeyPublic := preKey.2
      signedPreKeyID, signedPreKeyPublic
      signedPreKeySignature := signature
      kyberPreKeyID := kyber.1
      kyberPreKeyPublic := kyber.2.1
      kyberPreKeySignature := kyber.2.2
      identityKey := identity }

/-- `DeserializePreKeyBundle`. The least length is that of an older layout: a bundle without
optional parts and without a signature has 113 bytes. -/
def deserializePreKeyBundle (p : Prims) (data : Bytes) : Except (Fault Err) PreKeyBundle :=
  if data.length < 1 + 4 + 4 + 1 + 4 + 32 + 4 + 32 + 2 then
    .error (.err (bundleErr s!"invalid length {data.length}"))
  else (readBundle p).run (bundleErr "trailing data") data

/-! ## Round trip -/

/-- What a bundle needs to come back from its bytes: a valid identity, optional parts that are there
as a whole or not at all, and lengths that fit their fields. -/
structure PreKeyBundle.Fits (p : Prims) (b : PreKeyBundle) : Prop where
  identity : isValidPublicKey p b.identityKey.publicKey = true
  preKey : b.preKeyID.isNone = b.preKeyPublic.isNone
  signature : b.signedPreKeySignature.length < 2 ^ 16
  kyberPublic : b.kyberPreKeyID.isNone ↔ b.kyberPreKeyPublic.length = 0
  kyberPublicLength : b.kyberPreKeyPublic.length < 2 ^ 16
  kyberSignature : b.kyberPreKeyID.isNone ↔ b.kyberPreKeySignature.length = 0
  kyberSignatureLength : b.kyberPreKeySignature.length < 2 ^ 16

/-- A length below `2 ^ 16` is written as it is, and only the length 0 as 0. -/
theorem toNat_length16 {bs : Bytes} (h : bs.length < 2 ^ 16) :
    (UInt16.ofNat bs.length).toNat = bs.length := UInt16.toNat_ofNat_of_lt' h

theorem length16_ne_zero {bs : Bytes} (h : bs.length < 2 ^ 16) (hne : bs.length ≠ 0) :
    UInt16.ofNat bs.length ≠ 0 := by
  intro hzero
  have hlen := toNat_length16 h
  rw [hzero] at hlen
  exact hne hlen.symm

theorem decodable_oneTimePreKey {id : Option UInt32} {pub : Option Key}
    (h : id.isNone = pub.isNone) :
    Decodable readOneTimePreKey (encodeOneTimePreKey id pub) (id, pub) := by
  cases id with
  | none =>
    cases pub with
    | some pub => cases h
    | none =>
      show Decodable _ ([0] ++ []) _
      refine .bind (.u8 0) ?_
      rw [if_neg (by decide)]
      exact .pure _
  | some id =>
    cases pub with
    | none => cases h
    | some pub =>
      show Decodable _ ([1] ++ (putUint32 id ++ pub.toBytes)) _
      refine .bind (.u8 1) ?_
      rw [if_pos rfl]
      refine .need (by simp) (.bind (.u32 id) ?_)
      exact (Decodable.array pub).ret fun pub => (some id, some pub)

variable {sig : Bytes}

theorem decodable_signature (h : sig.length < 2 ^ 16) :
    Decodable readSignature (putUint16 (.ofNat sig.length) ++ sig) sig := by
  refine .bind (.u16 _) ?_
  rw [toNat_length16 h]
  exact .need le_rfl (Decodable.bytes rfl)

variable {p : Prims}

theorem decodable_identityKey {k : IdentityKey} (h : isValidPublicKey p k.publicKey = true) :
    Decodable (readIdentityKey p) k.serialize k := by
  refine .need (by simp [identitySize]) ?_
  refine (Decodable.bytes (n := identitySize) k.length_serialize).parsed ?_
  rw [deserializeIdentityKey_serialize h]
  rfl

theorem decodable_kyberPreKey {id : UInt32} {pub : Bytes} (hpub : pub.length ≠ 0)
    (hpubLen : pub.length < 2 ^ 16) (hsig : sig.length ≠ 0) (hsigLen : sig.length < 2 ^ 16) :
    Decodable readKyberPreKey (putUint32 id ++ putUint16 (.ofNat pub.length) ++ pub
      ++ putUint16 (.ofNat sig.length) ++ sig) (some id, pub, sig) := by
  simp only [List.append_assoc]
  refine .need (by simp; omega) (.bind (.u32 id) (.bind (.u16 _) ?_))
  rw [if_neg (length16_ne_zero hpubLen hpub), toNat_length16 hpubLen]
  refine .need (by simp) (.bind (.bytes rfl) ?_)
  refine .need (by simp) (.bind (.u16 _) ?_)
  rw [if_neg (length16_ne_zero hsigLen hsig), toNat_length16 hsigLen]
  exact .need le_rfl ((Decodable.bytes rfl).ret fun sig => (some id, pub, sig))

/-- The end of the bundle is where the Kyber part ends, or where it would begin. -/
theorem decodesRest_kyberTail {id : Option UInt32} {pub : Bytes}
    (hpub : id.isNone ↔ pub.length = 0) (hpubLen : pub.length < 2 ^ 16)
    (hsig : id.isNone ↔ sig.length = 0) (hsigLen : sig.length < 2 ^ 16) :
    DecodesRest readKyberTail (encodeKyberPreKey id pub sig) (id, pub, sig) := by
  cases id with
  | none =>
    rw [List.eq_nil_of_length_eq_zero (hpub.mp rfl), List.eq_nil_of_length_eq_zero (hsig.mp rfl)]
    exact DecodesRest.more (.of_decodable (.pure _))
  | some id =>
    have hpub' : pub.length ≠ 0 := fun hzero => Bool.false_ne_true (hpub.mpr hzero)
    have hsig' : sig.length ≠ 0 := fun hzero => Bool.false_ne_true (hsig.mpr hzero)
    rw [encodeKyberPreKey, if_pos ⟨Nat.pos_of_ne_zero hpub', Nat.pos_of_ne_zero hsig'⟩]
    refine DecodesRest.more ?_
    rw [if_pos (by simp)]
    refine DecodesRest.need (by simp) ?_
    rw [← List.singleton_append]
    refine DecodesRest.bind (Decodable.u8 1) ?_
    rw [if_pos rfl]
    exact .of_decodable (decodable_kyberPreKey hpub' hpubLen hsig' hsigLen)

variable {b : PreKeyBundle}

theorem decodesRest_bundle (h : b.Fits p) :
    DecodesRest (readBundle p) ([serializeVersion] ++ (putUint32 b.registrationID
      ++ (putUint32 b.deviceID ++ (encodeOneTimePreKey b.preKeyID b.preKeyPublic
      ++ (putUint32 b.signedPreKeyID ++ (b.signedPreKeyPublic.toBytes
      ++ ((putUint16 (.ofNat b.signedPreKeySignature.length) ++ b.signedPreKeySignature)
      ++ (b.identityKey.serialize ++ encodeKyberPreKey b.kyberPreKeyID b.kyberPreKeyPublic
        b.kyberPreKeySignature)))))))) b := by
  refine DecodesRest.bind (Decodable.u8 serializeVersion) ?_
  rw [if_neg (not_not.mpr rfl)]
  refine DecodesRest.need (by simp; omega) ?_
  refine DecodesRest.bind (Decodable.u32 b.registrationID) ?_
  refine DecodesRest.bind (Decodable.u32 b.deviceID) ?_
  refine DecodesRest.bind (decodable_oneTimePreKey h.preKey) ?_
  refine DecodesRest.need (by simp; omega) ?_
  refine DecodesRest.bind (Decodable.u32 b.signedPreKeyID) ?_
  refine DecodesRest.bind (Decodable.array b.signedPreKeyPublic) ?_
  refine DecodesRest.bind (decodable_signature h.signature) ?_
  refine DecodesRest.bind (decodable_identityKey h.identity) ?_
  exact (decodesRest_kyberTail h.kyberPublic h.kyberPublicLength h.kyberSignature
    h.kyberSignatureLength).ret _

/-- **The round trip of a bundle.** -/
theorem deserializePreKeyBundle_serialize (h : b.Fits p) :
    ∃ data, b.serialize = .ok data ∧ deserializePreKeyBundle p data = .ok b := by
  have hrun := (decodesRest_bundle h).run (bundleErr "trailing data")
  refine ⟨_, (if_neg (not_not.mpr (propext h.kyberPublic))).trans
    (if_neg (not_not.mpr (propext h.kyberSignature))), ?_⟩
  simp only [List.append_assoc] at hrun ⊢
  rw [deserializePreKeyBundle, if_neg (by simp; omega)]
  exact hrun

/-! ## Valid bundles -/

variable {s : Suite} {e : Edwards25519}

theorem length_of_verify {k : IdentityKey} {message signature : Bytes}
    (h : k.verify (s.withXEdDSA e) message signature = true) : signature.length = 64 := by
  by_contra hlen
  have hfalse : xeddsaVerify e k.publicKey signature [message] = false := if_pos hlen
  exact Bool.false_ne_true (hfalse.symm.trans h)

/-- The Kyber part of a valid bundle is complete, with a key of 1569 bytes and a signature of 64. -/
theorem kyber_of_validate (h : b.validateKyber (s.withXEdDSA e) = .ok ()) :
    (b.kyberPreKeyID.isNone ↔ b.kyberPreKeyPublic.length = 0) ∧
      b.kyberPreKeyPublic.length < 2 ^ 16 ∧
      (b.kyberPreKeyID.isNone ↔ b.kyberPreKeySignature.length = 0) ∧
      b.kyberPreKeySignature.length < 2 ^ 16 := by
  unfold PreKeyBundle.validateKyber at h
  split at h
  · cases h
  rename_i hpub
  split at h
  · cases h
  rename_i hsig
  rw [not_not, eq_iff_iff] at hpub hsig
  cases hid : b.kyberPreKeyID with
  | none =>
    rw [hid] at hpub hsig
    refine ⟨hpub, ?_, hsig, ?_⟩
    · rw [hpub.mp rfl]
      decide
    · rw [hsig.mp rfl]
      decide
  | some id =>
    rw [hid] at h hpub hsig
    simp only at h
    split_ifs at h with hzero hkey hverify
    have hsize : b.kyberPreKeyPublic.length = 1 + kyberPublicKeySize := by
      rw [Bool.not_eq_true', Bool.not_eq_false, isKyber1024PublicKey, decide_eq_true_eq] at hkey
      exact hkey.1
    have hlen : b.kyberPreKeySignature.length = 64 := length_of_verify (by simpa using hverify)
    refine ⟨hpub, ?_, hsig, ?_⟩
    · rw [hsize]
      decide
    · rw [hlen]
      decide

theorem PreKeyBundle.fits_of_validate (h : b.validate (s.withXEdDSA e) = .ok ()) :
    b.Fits s.toPrims := by
  have hidentity := identityKey_of_validate h
  unfold PreKeyBundle.validate at h
  split_ifs at h with h1 h2 h3 h4 hverify hpreKey h7
  obtain ⟨hpub, hpubLen, hsig, hsigLen⟩ := kyber_of_validate h
  have hlen : b.signedPreKeySignature.length = 64 := length_of_verify (by simpa using hverify)
  refine ⟨hidentity, by simpa using hpreKey, ?_, hpub, hpubLen, hsig, hsigLen⟩
  rw [hlen]
  decide

/-! ## Reads outside of the data -/

theorem bounded_oneTimePreKey : Bounded 1 readOneTimePreKey 0 := by
  refine .bind (.u8 (k := 0)) fun flag => .ite (fun _ => ?_) fun _ => .pure _
  refine .bind (.need _ _) fun _ => .bind (.u32 (k := 32)) fun id => ?_
  exact .bind (.array (k := 0) 32) fun pub => .pure _

theorem bounded_signature : Bounded 2 readSignature 0 :=
  (Bounded.u16 (k := 0)).bind fun _ => Bounded.bind (.need _ _) fun _ => Bounded.bytes (k := 0) _

theorem bounded_identityKey : Bounded 0 (readIdentityKey p) 0 :=
  .bind (.need _ _) fun _ => .bind (.bytes (k := 0) _) fun _ => .lift (.mapError _ _)

theorem bounded_kyberPreKey : Bounded 0 readKyberPreKey 0 := by
  refine .bind (.need _ _) fun _ => .bind (.u32 (k := 2)) fun id => ?_
  refine .bind (.u16 (k := 0)) fun pubLen => .ite (fun _ => .fail _) fun _ => ?_
  refine .bind (.need _ _) fun _ => .bind (.bytes (k := 0) _) fun pub => ?_
  refine .bind (.need _ _) fun _ => .bind (.u16 (k := 0)) fun sigLen => ?_
  refine .ite (fun _ => .fail _) fun _ => Bounded.bind (.need _ _) fun _ => ?_
  exact .bind (.bytes (k := 0) _) fun sig => .pure _

theorem bounded_kyberTail : Bounded 0 readKyberTail 0 := by
  refine .bind .more fun left => .ite (fun _ => ?_) fun _ => .pure _
  refine .bind (.need _ _) fun _ => .bind (.u8 (k := 0)) fun flag => ?_
  exact .ite (fun _ => bounded_kyberPreKey) fun _ => .ite (fun _ => .fail _) fun _ => .pure _

/-- Every read stands behind a check for its bytes; those of the first ten bytes behind the check of
the whole length. -/
theorem bounded_bundle : Bounded 10 (readBundle p) 0 := by
  refine .bind (.u8 (k := 9)) fun version => .ite (fun _ => .fail _) fun _ => ?_
  refine .bind (.check _ _) fun _ => .bind (.u32 (k := 5)) fun registrationID => ?_
  refine .bind (.u32 (k := 1)) fun deviceID => bounded_oneTimePreKey.bind fun preKey => ?_
  refine .bind (.need _ _) fun _ => .bind (.u32 (k := 34)) fun signedPreKeyID => ?_
  refine .bind (.array (k := 2) 32) fun signedPreKeyPublic => ?_
  refine bounded_signature.bind fun signature => bounded_identityKey.bind fun identity => ?_
  exact bounded_kyberTail.bind fun kyber => .pure _

theorem noPanic_deserializePreKeyBundle (p : Prims) (data : Bytes) :
    NoPanic (deserializePreKeyBundle p data) :=
  .ite (fun _ => .err _) fun hlen => bounded_bundle.run _ (by omega)

/-- **Persistence of bundles.** A bundle that passes `Validate`, under signatures over any curve,
serializes, and its bytes decode to the same bundle, which passes `Validate` as before. On any bytes
the decoder stays inside of them. -/
theorem bundle_persistence (s : Suite) (e : Edwards25519) :
    (∀ b : PreKeyBundle, b.validate (s.withXEdDSA e) = .ok () →
      ∃ data b', b.serialize = .ok data ∧ deserializePreKeyBundle s.toPrims data = .ok b' ∧
        b' = b ∧ b'.validate (s.withXEdDSA e) = .ok ()) ∧
      ∀ data, NoPanic (deserializePreKeyBundle s.toPrims data) := by
  refine ⟨fun b h => ?_, noPanic_deserializePreKeyBundle s.toPrims⟩
  obtain ⟨data, hdata, hback⟩ := deserializePreKeyBundle_serialize (PreKeyBundle.fits_of_validate h)
  exact ⟨data, b, hdata, hback, rfl, h⟩

/-- The public key on the sample curve of the private key of sevens. -/
noncomputable def sampleSigner : Key :=
  sampleCurve.elemBytes (sampleCurve.montgomeryU
    (LittleEndian.value (clampCurve25519Scalar (Key.fill 7)).toBytes • sampleCurve.basePoint))

theorem sampleSigner_signs (message : Bytes) :
    ∃ signature, signature.length = 64 ∧
      xeddsaVerify sampleCurve sampleSigner signature [message] = true := by
  have hsame : [message].flatten = [message].flatten := rfl
  obtain ⟨signature, hsign, hverify⟩ :=
    xeddsaVerify_xeddsaSign sampleCurve sampleCurve_laws (Key.fill 7) .zero hsame
  exact ⟨signature, length_xeddsaSign hsign, hverify⟩

/-- A bundle with a one-time and a Kyber pre-key. -/
noncomputable def signedBundle (signature kyberSignature : Bytes) : PreKeyBundle where
  registrationID := 1
  deviceID := 2
  preKeyID := some 3
  preKeyPublic := some (Key.fill 3)
  signedPreKeyID := 4
  signedPreKeyPublic := Key.fill 4
  signedPreKeySignature := signature
  kyberPreKeyID := some 5
  kyberPreKeyPublic := 8 :: List.replicate kyberPublicKeySize 5
  kyberPreKeySignature := kyberSignature
  identityKey := { publicKey := sampleSigner, signingPublic := .zero }

theorem isValidPublicKey_toy (k : Key) : isValidPublicKey toyPrims k = true :=
  (isValidPublicKey_iff toyPrims k).mpr (Ratchet.dh_toy _ k)

/-- With two signatures of the right length that verify, the bundle is valid. -/
theorem validate_signedBundle (hkeys : ∀ k, isValidPublicKey s.toPrims k = true)
    {signature kyberSignature : Bytes} (hlen : signature.length = 64)
    (hkyberLen : kyberSignature.length = 64)
    (hverify : (signedBundle signature kyberSignature).identityKey.verify s
      (serializeWirePublicKey (Key.fill 4)) signature = true)
    (hkyberVerify : (signedBundle signature kyberSignature).identityKey.verify s
      (8 :: List.replicate kyberPublicKeySize 5) kyberSignature = true) :
    (signedBundle signature kyberSignature).validate s = .ok () := by
  have hsize : isKyber1024PublicKey (8 :: List.replicate kyberPublicKeySize 5) = true := by
    simp [isKyber1024PublicKey, Nat.add_comm]
  have hne : signature ≠ [] := List.ne_nil_of_length_eq_add_one hlen
  have hkyberNe : kyberSignature ≠ [] := List.ne_nil_of_length_eq_add_one hkyberLen
  simp only [signedBundle] at hverify hkyberVerify
  simp [PreKeyBundle.validate, PreKeyBundle.validateKyber, signedBundle, hkeys, hverify,
    hkyberVerify, hsize, hne, hkyberNe]

theorem bundle_persistence_sample :
    ∃ signature kyberSignature data b',
      (signedBundle signature kyberSignature).serialize = .ok data ∧
      deserializePreKeyBundle toyPrims data = .ok b' ∧
      b' = signedBundle signature kyberSignature := by
  obtain ⟨signature, hlen, hverify⟩ := sampleSigner_signs (serializeWirePublicKey (Key.fill 4))
  obtain ⟨kyberSignature, hkyberLen, hkyberVerify⟩ :=
    sampleSigner_signs (8 :: List.replicate kyberPublicKeySize 5)
  have hvalid := validate_signedBundle (s := toySuite.withXEdDSA sampleCurve) isValidPublicKey_toy
    hlen hkyberLen hverify hkyberVerify
  obtain ⟨data, b', hdata, hback, hb', -⟩ :=
    (bundle_persistence toySuite sampleCurve).1 (signedBundle signature kyberSignature) hvalid
  exact ⟨signature, kyberSignature, data, b', hdata, hback, hb'⟩

end SignalGo
