import SignalGo.Errors

/-!
# The cryptographic primitives

What the repository's `crypto` package computes on top of code it imports. The imported
functions (X25519, HMAC-SHA-256, HKDF, AES-GCM) are the fields of `Prims`: nothing here says
how they work, and a result that needs a law of one of them names that law as a hypothesis.
The wrappers below are the package's own code, with its checks and its error texts.
-/

namespace SignalGo

/-- The `[32]byte` keys of the protocol. -/
abbrev Key := ByteArr 32

instance : Std.TransOrd Key := inferInstanceAs (Std.TransOrd (ByteArr 32))

instance : Std.LawfulEqOrd Key := inferInstanceAs (Std.LawfulEqOrd (ByteArr 32))

/-- The imported primitives. An error of an imported function is its text. -/
structure Prims where
  /-- `curve25519.X25519(scalar, point)`. -/
  x25519 : Key → Key → Except String Key
  /-- `curve25519.Basepoint`. -/
  basepoint : Key
  /-- HMAC with SHA-256 of a key and data. -/
  hmacSHA256 : Bytes → Bytes → Key
  /-- `hkdf.Extract(sha256.New, secret, salt)`. -/
  hkdfExtract : Bytes → Bytes → Bytes
  /-- The first bytes `hkdf.Expand(sha256.New, prk, info)` produces. -/
  hkdfExpand : Bytes → Bytes → (length : Nat) → ByteArr length
  /-- AES-256-GCM `Seal(nil, nonce, plaintext, ad)` under a 32-byte key. -/
  gcmSeal : Key → Bytes → Bytes → Bytes → Bytes
  /-- AES-256-GCM `Open(nil, nonce, ciphertext, ad)` under a 32-byte key. -/
  gcmOpen : Key → Bytes → Bytes → Bytes → Except String Bytes

variable (p : Prims)

/-! ## Curve25519 -/

structure KeyPair where
  publicKey : Key
  privateKey : Key
  deriving DecidableEq

def scalarBaseMult (privateKey : Key) : Except String Key :=
  p.x25519 privateKey p.basepoint

/-- `GenerateKeyPair`; `rnd` is what reading 32 bytes from the randomness source gave. -/
def generateKeyPair (rnd : Except String Key) : Except Err KeyPair := do
  let priv ← rnd.mapError fun e => .context "generate private key" (.new e)
  let pub ← (scalarBaseMult p priv).mapError fun e => .context "derive public key" (.new e)
  return { publicKey := pub, privateKey := priv }

/-- `DH`: an all-zero shared secret is refused. -/
def dh (privateKey publicKey : Key) : Except Err Key :=
  match p.x25519 privateKey publicKey with
  | .error e => .error (.join (.sentinel .cryptoInvalidPublicKey) (.new e))
  | .ok shared =>
      if shared = .zero then .error (.sentinel .cryptoInvalidPublicKey) else .ok shared

/-! ## HKDF -/

def hkdfMaxLength : Nat := 255 * 32

/-- HKDF-Extract then HKDF-Expand for a length the code allows. -/
def hkdfBytes (inputKeyMaterial salt info : Bytes) (length : Nat) : ByteArr length :=
  p.hkdfExpand (p.hkdfExtract inputKeyMaterial salt) info length

def hkdf (inputKeyMaterial salt info : Bytes) (length : Nat) : Except Err (ByteArr length) :=
  if length > hkdfMaxLength then
    .error (.wrap .cryptoHKDFLength s!"length must be between 0 and {hkdfMaxLength}")
  else
    .ok (hkdfBytes p inputKeyMaterial salt info length)

theorem hkdf_ok {length : Nat} (h : length ≤ hkdfMaxLength) (ikm salt info : Bytes) :
    hkdf p ikm salt info length = .ok (hkdfBytes p ikm salt info length) :=
  if_neg (by omega)

/-! ## AES-256-GCM -/

/-- `AESGCMEncryptWithNonce`. -/
def aesGCMEncryptWithNonce (key plaintext nonce associatedData : Bytes) : Except Err Bytes :=
  if key.length ≠ 32 then .error (.sentinel .cryptoInvalidKey)
  else if nonce.length ≠ 12 then .error (.sentinel .cryptoCiphertextTooShort)
  else .ok (p.gcmSeal (.ofBytes 32 key) nonce plaintext associatedData)

/-- `AESGCMDecrypt`: nonce and body are joined and split again at the nonce size. -/
def aesGCMDecrypt (key ciphertext nonce associatedData : Bytes) : Except Err Bytes :=
  if nonce.length ≠ 12 then .error (.sentinel .cryptoCiphertextTooShort)
  else if key.length ≠ 32 then .error (.sentinel .cryptoInvalidKey)
  else
    let combined := nonce ++ ciphertext
    (p.gcmOpen (.ofBytes 32 key) (combined.take 12) (combined.drop 12) associatedData).mapError
      .new

/-! ## A toy instance

Primitives that compute, to run the model on concrete inputs. X25519 adds the first bytes (which
commutes) and never gives zero, HMAC flips the lowest bit of the key's first byte, HKDF gives
`0xff` bytes, and AES-GCM appends an empty tag. -/

def toyPrims : Prims where
  x25519 scalar point :=
    .ok ⟨(scalar.toBytes.headD 0 + point.toBytes.headD 0) :: (List.replicate 30 0 ++ [1]), rfl⟩
  basepoint := .ofBytes 32 [9]
  hmacSHA256 key _ := .ofBytes 32 ((key.headD 0 ^^^ 1) :: key.tail)
  hkdfExtract secret _ := secret
  hkdfExpand _ _ length := ⟨List.replicate length 0xff, List.length_replicate⟩
  gcmSeal _ _ plaintext _ := plaintext ++ List.replicate 16 0
  gcmOpen _ _ ciphertext _ := .ok (ciphertext.take (ciphertext.length - 16))

/-- The key with all bytes equal to `b`. -/
def Key.fill (b : UInt8) : Key := ⟨List.replicate 32 b, List.length_replicate⟩

/-- The toy key pair of the private key `Key.fill b`. -/
def toyPair (b : UInt8) : KeyPair where
  publicKey := ⟨(b + 9) :: (List.replicate 30 0 ++ [1]), rfl⟩
  privateKey := Key.fill b

end SignalGo
