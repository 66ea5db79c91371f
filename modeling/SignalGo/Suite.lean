import SignalGo.Crypto

/-!
# The primitives of the session and group layers

`Suite` adds to `Prims` what the layers above the ratchet use: AES in CBC mode, XEdDSA
signatures and Kyber-1024. As there, an imported function is a field, and the package's own
code around it (key validation, padding, type bytes and lengths) is written out.
-/

namespace SignalGo

/-! ## Public keys -/

def validationScalar : Key := .ofBytes 32 [1]

/-- `IsValidPublicKey`: the key is not of low order. -/
def isValidPublicKey (p : Prims) (publicKey : Key) : Bool :=
  match p.x25519 validationScalar publicKey with
  | .error _ => false
  | .ok shared => shared ≠ .zero

def validatePublicKey (p : Prims) (publicKey : Key) : Except Err Unit :=
  if isValidPublicKey p publicKey then .ok () else .error (.sentinel .cryptoInvalidPublicKey)

/-- A key is valid exactly if Diffie-Hellman with the validation scalar accepts it. -/
theorem isValidPublicKey_iff (p : Prims) (publicKey : Key) :
    isValidPublicKey p publicKey = true ↔ ∃ out, dh p validationScalar publicKey = .ok out := by
  unfold isValidPublicKey dh
  cases p.x25519 validationScalar publicKey with
  | error e => exact ⟨nofun, nofun⟩
  | ok shared =>
    by_cases h : shared = .zero <;> simp [h]

/-! ## The suite -/

def kyberPublicKeySize : Nat := 1568
def kyberPrivateKeySize : Nat := 3168
def kyberCiphertextSize : Nat := 1568

structure Suite extends Prims where
  /-- `cipher.NewCBCEncrypter(aes, iv).CryptBlocks` of whole blocks under a 32-byte key. -/
  cbcEncrypt : Key → ByteArr 16 → Bytes → Bytes
  /-- `cipher.NewCBCDecrypter(aes, iv).CryptBlocks`. -/
  cbcDecrypt : Key → ByteArr 16 → Bytes → Bytes
  /-- `XEdDSASign(privateKey, message)`; the first argument is the randomness it reads. -/
  xeddsaSign : Bytes → Key → Bytes → Except String Bytes
  /-- `XEdDSAVerify(publicKey, signature, message)`. -/
  xeddsaVerify : Key → Bytes → Bytes → Bool
  /-- `UnmarshalBinaryPublicKey` of a raw key of the right size. -/
  kyberParsePublic : Bytes → Except String Unit
  /-- `UnmarshalBinaryPrivateKey` of a raw key of the right size. -/
  kyberParsePrivate : Bytes → Except String Unit
  /-- `Encapsulate`: randomness and raw public key to ciphertext and shared secret. -/
  kyberEncapsulate : Bytes → Bytes → Except String (Bytes × Bytes)
  /-- `Decapsulate`: raw private key and ciphertext to shared secret. -/
  kyberDecapsulate : Bytes → Bytes → Except String Bytes

variable (s : Suite)

/-! ## AES-256-CBC with PKCS#7 padding -/

/-- A full block of padding follows data of whole blocks, so the length is never zero. -/
def pkcs7Pad (data : Bytes) : Bytes :=
  let padLen := 16 - data.length % 16
  data ++ List.replicate padLen (.ofNat padLen)

def pkcs7Unpad (data : Bytes) : Except Err Bytes :=
  if data.length = 0 ∨ data.length % 16 ≠ 0 then .error (.new "aes-cbc: invalid padding")
  else
    let padLen := (data.getLastD 0).toNat
    if padLen = 0 ∨ padLen > 16 then .error (.new "aes-cbc: invalid padding")
    else if padLen > data.length then .error (.new "aes-cbc: invalid padding")
    else if (data.drop (data.length - padLen)).any (·.toNat ≠ padLen) then
      .error (.new "aes-cbc: invalid padding")
    else .ok (data.take (data.length - padLen))

/-- `AESCBCEncrypt` under a 32-byte key and a 16-byte initialisation vector. -/
def aesCBCEncrypt (key : Key) (iv : ByteArr 16) (plaintext : Bytes) : Bytes :=
  s.cbcEncrypt key iv (pkcs7Pad plaintext)

/-- `AESCBCDecrypt` under a 32-byte key and a 16-byte initialisation vector. -/
def aesCBCDecrypt (key : Key) (iv : ByteArr 16) (ciphertext : Bytes) : Except Err Bytes :=
  if ciphertext.length = 0 ∨ ciphertext.length % 16 ≠ 0 then
    .error (.new "aes-cbc: invalid ciphertext length")
  else pkcs7Unpad (s.cbcDecrypt key iv ciphertext)

/-- What is assumed of the block mode: it keeps the length, and decryption inverts encryption. -/
structure Suite.CbcLaws (s : Suite) : Prop where
  length (key : Key) (iv : ByteArr 16) (blocks : Bytes) :
    (s.cbcEncrypt key iv blocks).length = blocks.length
  inverse (key : Key) (iv : ByteArr 16) (blocks : Bytes) (h : blocks.length % 16 = 0) :
    s.cbcDecrypt key iv (s.cbcEncrypt key iv blocks) = blocks

@[simp] theorem length_pkcs7Pad (data : Bytes) :
    (pkcs7Pad data).length = data.length + (16 - data.length % 16) := by
  simp [pkcs7Pad]

theorem length_pkcs7Pad_mod (data : Bytes) : (pkcs7Pad data).length % 16 = 0 := by
  rw [length_pkcs7Pad]
  omega

/-- The padding comes off again. -/
theorem pkcs7Unpad_pkcs7Pad (data : Bytes) : pkcs7Unpad (pkcs7Pad data) = .ok data := by
  have hmod := Nat.mod_lt data.length (show 0 < 16 by decide)
  obtain ⟨padLen, hpad⟩ : ∃ n, 16 - data.length % 16 = n + 1 :=
    ⟨15 - data.length % 16, by omega⟩
  have hval : (UInt8.ofNat (padLen + 1)).toNat = padLen + 1 :=
    UInt8.toNat_ofNat_of_lt' (by simp [UInt8.size]; omega)
  have hlast : (pkcs7Pad data).getLastD 0 = .ofNat (padLen + 1) := by
    rw [pkcs7Pad, hpad, List.replicate_succ', ← List.append_assoc]
    simp
  have hlen : (pkcs7Pad data).length = data.length + (padLen + 1) := by
    rw [length_pkcs7Pad, hpad]
  have hsub : (pkcs7Pad data).length - (padLen + 1) = data.length := by omega
  have hcut : (pkcs7Pad data).drop data.length =
      List.replicate (padLen + 1) (.ofNat (padLen + 1)) := by
    rw [pkcs7Pad, hpad]
    simp
  rw [pkcs7Unpad, if_neg (by have := length_pkcs7Pad_mod data; omega)]
  simp only [hlast, hval, hsub, hcut]
  rw [if_neg (by omega), if_neg (by omega), if_neg (by simp; omega)]
  simp [pkcs7Pad]

theorem aesCBCDecrypt_aesCBCEncrypt (laws : s.CbcLaws) (key : Key) (iv : ByteArr 16)
    (plaintext : Bytes) :
    aesCBCDecrypt s key iv (aesCBCEncrypt s key iv plaintext) = .ok plaintext := by
  have hmod := length_pkcs7Pad_mod plaintext
  have hlen := length_pkcs7Pad plaintext
  rw [aesCBCDecrypt, aesCBCEncrypt, if_neg (by rw [laws.length]; omega), laws.inverse _ _ _ hmod,
    pkcs7Unpad_pkcs7Pad]

/-! ## Signatures -/

/-- What is assumed of signatures: signing succeeds with 64 bytes, which verify under the public
key of the private key. -/
structure Suite.SignLaws (s : Suite) : Prop where
  complete {privateKey publicKey : Key} (h : scalarBaseMult s.toPrims privateKey = .ok publicKey)
    (rnd message : Bytes) : ∃ signature, s.xeddsaSign rnd privateKey message = .ok signature
      ∧ signature.length = 64 ∧ s.xeddsaVerify publicKey signature message = true

/-! ## Kyber-1024 -/

/-- `%02x`. -/
def hexByte (b : UInt8) : String :=
  String.ofList [Nat.digitChar (b.toNat / 16), Nat.digitChar (b.toNat % 16)]

/-- The checks the three `unmarshal` functions share: the length and the type byte. Returns the
raw bytes. -/
def kyberRaw (size : Nat) (what kind : String) (data : Bytes) : Except Err Bytes :=
  if data.length ≠ 1 + size then .error (.new s!"kyber1024: {what} length {data.length}")
  else if data.headD 0 ≠ 0x08 then
    .error (.new s!"kyber1024: unsupported {kind} type 0x{hexByte (data.headD 0)}")
  else .ok (data.drop 1)

theorem kyberRaw_cons {size : Nat} {raw : Bytes} (h : raw.length = size) (what kind : String) :
    kyberRaw size what kind (0x08 :: raw) = .ok raw := by
  rw [kyberRaw, if_neg (by rw [List.length_cons, h, Nat.add_comm]; exact not_not.mpr rfl)]
  rfl

def unmarshalKyberPublicKey (data : Bytes) : Except Err Bytes := do
  let raw ← kyberRaw kyberPublicKeySize "public key" "key" data
  (s.kyberParsePublic raw).mapError fun e => .context "kyber1024: parse public key" (.new e)
  return raw

def unmarshalKyberPrivateKey (data : Bytes) : Except Err Bytes := do
  let raw ← kyberRaw kyberPrivateKeySize "private key" "key" data
  (s.kyberParsePrivate raw).mapError fun e => .context "kyber1024: parse private key" (.new e)
  return raw

def unmarshalKyberCiphertext (data : Bytes) : Except Err Bytes :=
  kyberRaw kyberCiphertextSize "ciphertext" "ciphertext" data

/-- `Kyber1024Encapsulate`: the shared secret and the ciphertext with its type byte. -/
def kyber1024Encapsulate (rnd publicKey : Bytes) : Except Err (Bytes × Bytes) := do
  let pk ← unmarshalKyberPublicKey s publicKey
  let (ct, ss) ← (s.kyberEncapsulate rnd pk).mapError fun e =>
    .context "kyber1024: encapsulate" (.new e)
  return (ss, 0x08 :: ct)

def kyber1024Decapsulate (privateKey ciphertext : Bytes) : Except Err Bytes := do
  let sk ← unmarshalKyberPrivateKey s privateKey
  let rawCT ← unmarshalKyberCiphertext ciphertext
  (s.kyberDecapsulate sk rawCT).mapError fun e => .context "kyber1024: decapsulate" (.new e)

def isKyber1024PublicKey (data : Bytes) : Bool :=
  data.length = 1 + kyberPublicKeySize ∧ data.headD 0 = 0x08

/-- What decapsulates has the size of a ciphertext with its type byte. -/
theorem length_of_kyber1024Decapsulate {privateKey ciphertext ss : Bytes}
    (h : kyber1024Decapsulate s privateKey ciphertext = .ok ss) :
    ciphertext.length = 1 + kyberCiphertextSize := by
  obtain ⟨sk, -, h⟩ := bind_eq_ok.mp h
  obtain ⟨raw, hraw, -⟩ := bind_eq_ok.mp h
  unfold unmarshalKyberCiphertext kyberRaw at hraw
  split at hraw
  · cases hraw
  · exact not_not.mp ‹_›

/-! ## A toy instance -/

/-- The toy primitives with CBC as the identity, signatures that always verify, and a Kyber whose
shared secret is the first 32 bytes of the ciphertext. -/
def toySuite : Suite where
  toPrims := toyPrims
  cbcEncrypt _ _ blocks := blocks
  cbcDecrypt _ _ blocks := blocks
  xeddsaSign _ _ _ := .ok (List.replicate 64 0)
  xeddsaVerify _ _ _ := true
  kyberParsePublic _ := .ok ()
  kyberParsePrivate _ := .ok ()
  kyberEncapsulate _ _ := .ok (List.replicate 1568 7, List.replicate 32 7)
  kyberDecapsulate _ ct := .ok (ct.take 32)

theorem toySuite_cbcLaws : toySuite.CbcLaws where
  length _ _ _ := rfl
  inverse _ _ _ _ := rfl

theorem toySuite_signLaws : toySuite.SignLaws where
  complete _ _ _ := ⟨List.replicate 64 0, rfl, List.length_replicate, rfl⟩

end SignalGo
