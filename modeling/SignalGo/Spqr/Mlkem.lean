import SignalGo.Spqr.Chain

/-!
# The key encapsulation and the authenticator

ML-KEM-768 in two halves: the first part of the ciphertext is made from the header of a public key
alone (`mlkemEncaps1`), the second once the rest of the key is there (`mlkemEncaps2`). The imported
functions are the fields of `Kem`; what is assumed of them stands in `KemLaws`.

The authenticator keeps a root key and a MAC key that move on with every epoch secret.

`rnd n` is what `RandomBytes(n)` returns.
-/

namespace SignalGo.Spqr

/-- What `RandomBytes` returns for each length asked for. -/
abbrev Rand := (n : Nat) → Except Err (ByteArr n)

/-! ## ML-KEM -/

def mlkemCiphertext1Size : Nat := 960

def mlkemCiphertext2Size : Nat := 128

def mlkemHeaderSize : Nat := 64

def mlkemEncapsulationKeySize : Nat := 1152

def mlkemDecapsulationKeySize : Nat := 2400

/-- The imported functions. -/
structure Kem where
  /-- `mlkem768.NewKeyFromSeed`, both keys packed. -/
  newKeyFromSeed : ByteArr 64 → ByteArr 1184 × ByteArr 2400
  /-- `sha3.Sum256`. -/
  sum256 : Bytes → Key
  /-- `sha3.Sum512`. -/
  sum512 : Bytes → ByteArr 64
  /-- Whether `kyber768.PublicKey.UnpackMLKEM` accepts the key. -/
  unpackMLKEM : Bytes → Bool
  /-- `kyber768`'s `Unpack` then `EncryptTo`, of the packed public key, the plaintext and the
  seed. -/
  encryptTo : Bytes → Key → Bytes → ByteArr 1088
  /-- `mlkem768`'s `Unpack` then `DecapsulateTo`, of the packed private key and the
  ciphertext. -/
  decapsulateTo : Bytes → Bytes → Except Err Key

structure MlkemEncapsulationState where
  seed : Key
  rho : Key
  pkHash : Key
  deriving DecidableEq

structure MlkemKeys where
  hdr : Bytes
  ek : Bytes
  dk : Bytes
  deriving DecidableEq

section Mlkem

variable (kem : Kem)

/-- The keys of a seed. -/
def mlkemKeysOfSeed (seed : ByteArr 64) : MlkemKeys :=
  let (pkBytes, sk) := kem.newKeyFromSeed seed
  let hash := kem.sum256 pkBytes.toBytes
  { hdr := pkBytes.toBytes.drop mlkemEncapsulationKeySize ++ hash.toBytes
    ek := pkBytes.toBytes.take mlkemEncapsulationKeySize
    dk := sk.toBytes }

def mlkemGenerateKeys (rnd : Rand) : Except Err MlkemKeys := do
  let seed ← rnd 64
  return mlkemKeysOfSeed kem seed

def mlkemEKMatchesHeader (ek hdr : Bytes) : Bool :=
  if ek.length ≠ mlkemEncapsulationKeySize ∨ hdr.length ≠ mlkemHeaderSize then false
  else
    let pkBytes := ek ++ hdr.take 32
    if (kem.sum256 pkBytes).toBytes ≠ hdr.drop 32 then false
    else kem.unpackMLKEM pkBytes

/-- The shared secret and the encryption seed. -/
def mlkemSecrets (seed pkHash : Key) : Bytes × Bytes :=
  let kr := (kem.sum512 (seed.toBytes ++ pkHash.toBytes)).toBytes
  (kr.take 32, kr.drop 32)

/-- `mlkemEncaps1`: the first part of the ciphertext, the state for the second, and the shared
secret. The key part of the public key is still zero. -/
def mlkemEncaps1 (hdr : Bytes) (rnd : Rand) :
    Except Err (Bytes × MlkemEncapsulationState × Bytes) :=
  if hdr.length ≠ mlkemHeaderSize then
    .error (.new s!"spqr: invalid mlkem header size {hdr.length}")
  else do
    let seed ← rnd 32
    let rho : Key := .ofBytes 32 (hdr.take 32)
    let pkHash : Key := .ofBytes 32 (hdr.drop 32)
    let (sharedSecret, r) := mlkemSecrets kem seed pkHash
    let pkBytes := List.replicate mlkemEncapsulationKeySize 0 ++ rho.toBytes
    let ct := kem.encryptTo pkBytes seed r
    return (ct.toBytes.take mlkemCiphertext1Size, { seed := seed, rho, pkHash },
      sharedSecret)

def mlkemEncaps2 (ek : Bytes) (state : MlkemEncapsulationState) : Except Err Bytes :=
  if ek.length ≠ mlkemEncapsulationKeySize then
    .error (.new s!"spqr: invalid mlkem ek size {ek.length}")
  else
    let pkBytes := ek ++ state.rho.toBytes
    let (_, r) := mlkemSecrets kem state.seed state.pkHash
    let ct := kem.encryptTo pkBytes state.seed r
    .ok (ct.toBytes.drop mlkemCiphertext1Size)

def mlkemDecaps (dk ct1 ct2 : Bytes) : Except Err Bytes :=
  if dk.length ≠ mlkemDecapsulationKeySize then
    .error (.new s!"spqr: invalid mlkem dk size {dk.length}")
  else if ct1.length ≠ mlkemCiphertext1Size ∨ ct2.length ≠ mlkemCiphertext2Size then
    .error (.new "spqr: invalid mlkem ciphertext size")
  else do
    let ss ← kem.decapsulateTo dk (ct1 ++ ct2)
    return ss.toBytes

/-- What is assumed of ML-KEM: its own keys are accepted, and decapsulation inverts the two halves
of the encapsulation for the header and the key of one key pair. -/
structure KemLaws : Prop where
  unpack : ∀ seed, kem.unpackMLKEM (kem.newKeyFromSeed seed).1.toBytes = true
  decaps : ∀ seed rnd ct1 state ss ct2,
    mlkemEncaps1 kem (mlkemKeysOfSeed kem seed).hdr rnd = .ok (ct1, state, ss) →
    mlkemEncaps2 kem (mlkemKeysOfSeed kem seed).ek state = .ok ct2 →
    mlkemDecaps kem (mlkemKeysOfSeed kem seed).dk ct1 ct2 = .ok ss

variable {kem}

@[simp] theorem length_hdr (seed : ByteArr 64) :
    (mlkemKeysOfSeed kem seed).hdr.length = mlkemHeaderSize := by
  simp [mlkemKeysOfSeed, mlkemEncapsulationKeySize, mlkemHeaderSize]

@[simp] theorem length_ek (seed : ByteArr 64) :
    (mlkemKeysOfSeed kem seed).ek.length = mlkemEncapsulationKeySize := by
  simp [mlkemKeysOfSeed, mlkemEncapsulationKeySize]

@[simp] theorem length_dk (seed : ByteArr 64) :
    (mlkemKeysOfSeed kem seed).dk.length = mlkemDecapsulationKeySize := by
  simp [mlkemKeysOfSeed, mlkemDecapsulationKeySize]

/-- The header of a key pair matches its key. -/
theorem mlkemEKMatchesHeader_keys (h : KemLaws kem) (seed : ByteArr 64) :
    mlkemEKMatchesHeader kem (mlkemKeysOfSeed kem seed).ek (mlkemKeysOfSeed kem seed).hdr
      = true := by
  have htake : (mlkemKeysOfSeed kem seed).hdr.take 32
      = (kem.newKeyFromSeed seed).1.toBytes.drop mlkemEncapsulationKeySize := by
    rw [mlkemKeysOfSeed, List.take_append_of_le_length (by simp [mlkemEncapsulationKeySize]),
      List.take_of_length_le (by simp [mlkemEncapsulationKeySize])]
  have hdrop : (mlkemKeysOfSeed kem seed).hdr.drop 32
      = (kem.sum256 (kem.newKeyFromSeed seed).1.toBytes).toBytes := by
    rw [mlkemKeysOfSeed, List.drop_append_of_le_length (by simp [mlkemEncapsulationKeySize]),
      List.drop_of_length_le (by simp [mlkemEncapsulationKeySize]), List.nil_append]
  have hpk : (mlkemKeysOfSeed kem seed).ek ++ (mlkemKeysOfSeed kem seed).hdr.take 32
      = (kem.newKeyFromSeed seed).1.toBytes := by
    rw [htake]
    exact List.take_append_drop _ _
  rw [mlkemEKMatchesHeader, if_neg (by simp)]
  simp only [hpk, hdrop, ne_eq, not_true_eq_false, if_false]
  exact h.unpack seed

theorem mlkemEncaps1_ok {hdr : Bytes} {rnd : Rand} {ct1 : Bytes}
    {state : MlkemEncapsulationState} {ss : Bytes}
    (h : mlkemEncaps1 kem hdr rnd = .ok (ct1, state, ss)) :
    ct1.length = mlkemCiphertext1Size := by
  unfold mlkemEncaps1 at h
  split at h
  · cases h
  · obtain ⟨seed, -, h⟩ := bind_eq_ok.mp h
    cases h
    simp [mlkemCiphertext1Size]

/-- The second part only fails on a key of another length. -/
theorem mlkemEncaps2_ok (kem : Kem) {ek : Bytes} (state : MlkemEncapsulationState)
    (h : ek.length = mlkemEncapsulationKeySize) :
    ∃ ct2, mlkemEncaps2 kem ek state = .ok ct2 ∧ ct2.length = mlkemCiphertext2Size := by
  rw [mlkemEncaps2, if_neg (by simpa using h)]
  exact ⟨_, rfl, by simp [mlkemCiphertext1Size, mlkemCiphertext2Size]⟩

/-- An encapsulation that computes, to run the model on concrete inputs: keys, ciphertexts and
secrets are zero. -/
def toyKem : Kem where
  newKeyFromSeed _ := (.zero, .zero)
  sum256 _ := .zero
  sum512 _ := .zero
  unpackMLKEM _ := true
  encryptTo _ _ _ := .zero
  decapsulateTo _ _ := .ok .zero

theorem toyKem_laws : KemLaws toyKem where
  unpack _ := rfl
  decaps seed rnd ct1 state ss ct2 h1 h2 := by
    have hct1 := mlkemEncaps1_ok h1
    obtain ⟨ct2', hct2', hlen⟩ := mlkemEncaps2_ok toyKem state (length_ek seed)
    rw [h2] at hct2'
    cases hct2'
    rw [mlkemDecaps, if_neg (by simp), if_neg (by simp [hct1, hlen])]
    unfold mlkemEncaps1 at h1
    split at h1
    · cases h1
    · obtain ⟨key, -, h1⟩ := bind_eq_ok.mp h1
      cases h1
      rfl

end Mlkem

/-! ## The authenticator -/

section Authenticator

variable (p : Prims)

def authenticatorMacSize : Nat := 32

def authenticatorInfoUpdate : Bytes :=
  "Signal_PQCKA_V1_MLKEM768:Authenticator Update".toUTF8.toList

def authenticatorInfoHdr : Bytes := "Signal_PQCKA_V1_MLKEM768:ekheader".toUTF8.toList

def authenticatorInfoCt : Bytes := "Signal_PQCKA_V1_MLKEM768:ciphertext".toUTF8.toList

structure Authenticator where
  rootKey : Key
  macKey : Key
  deriving DecidableEq

namespace Authenticator

/-- `update`; the length of the derived keys is within HKDF's limit, so there is no error. -/
def update (a : Authenticator) (epoch : UInt64) (key : Bytes) : Authenticator :=
  let okm := (hkdfBytes p (a.rootKey.toBytes ++ key) (List.replicate 32 0)
    (authenticatorInfoUpdate ++ putUint64 epoch) 64).toBytes
  { rootKey := .ofBytes 32 (okm.take 32), macKey := .ofBytes 32 (okm.drop 32) }

def macHdr (a : Authenticator) (epoch : UInt64) (hdr : Bytes) : Bytes :=
  (p.hmacSHA256 a.macKey.toBytes (authenticatorInfoHdr ++ putUint64 epoch ++ hdr)).toBytes

def macCt (a : Authenticator) (epoch : UInt64) (ct : Bytes) : Bytes :=
  (p.hmacSHA256 a.macKey.toBytes (authenticatorInfoCt ++ putUint64 epoch ++ ct)).toBytes

def verifyHdr (a : Authenticator) (epoch : UInt64) (hdr expected : Bytes) : Except Err Unit :=
  if expected.length ≠ authenticatorMacSize then .error (.sentinel .spqrInvalidMessage)
  else if expected ≠ a.macHdr p epoch hdr then .error (.sentinel .spqrInvalidMAC)
  else .ok ()

def verifyCt (a : Authenticator) (epoch : UInt64) (ct expected : Bytes) : Except Err Unit :=
  if expected.length ≠ authenticatorMacSize then .error (.sentinel .spqrInvalidMessage)
  else if expected ≠ a.macCt p epoch ct then .error (.sentinel .spqrInvalidMAC)
  else .ok ()

@[simp] theorem length_macHdr (a : Authenticator) (epoch : UInt64) (hdr : Bytes) :
    (a.macHdr p epoch hdr).length = authenticatorMacSize :=
  ByteArr.length_toBytes _

@[simp] theorem length_macCt (a : Authenticator) (epoch : UInt64) (ct : Bytes) :
    (a.macCt p epoch ct).length = authenticatorMacSize :=
  ByteArr.length_toBytes _

/-- A tag verifies in the state in which it was made. -/
@[simp] theorem verifyHdr_macHdr (a : Authenticator) (epoch : UInt64) (hdr : Bytes) :
    a.verifyHdr p epoch hdr (a.macHdr p epoch hdr) = .ok () := by
  simp [verifyHdr]

@[simp] theorem verifyCt_macCt (a : Authenticator) (epoch : UInt64) (ct : Bytes) :
    a.verifyCt p epoch ct (a.macCt p epoch ct) = .ok () := by
  simp [verifyCt]

end Authenticator

def newAuthenticator (rootKey : Bytes) (epoch : UInt64) : Authenticator :=
  Authenticator.update p { rootKey := .zero, macKey := .zero } epoch rootKey

end Authenticator

end SignalGo.Spqr
