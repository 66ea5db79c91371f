import SignalGo.Fields
import SignalGo.XEdDSA

/-!
# Sealed sender: ciphers and fields

What the `sealedsender` package uses beside the primitives of the other layers: AES in counter
mode with a truncated HMAC, AES-GCM-SIV, and protocol-buffer fields of eight fixed bytes. The
imported functions are the fields of `Primitives` and `SealedWire`; the package's own code around
them is written out, and `aes256CTRHMACSHA256Decrypt_encrypt` and `aesGCMSIVDecrypt_encrypt` are
what the two ciphers are for.
-/

namespace SignalGo.SealedSender

structure Primitives extends Prims where
  /-- The group and the hash function below XEdDSA. -/
  curve : Edwards25519
  /-- `XORKeyStream` of `cipher.NewCTR(aes, nonce)` from the zero nonce, under a 32-byte key. -/
  ctrXOR : Key → Bytes → Bytes
  /-- `siv.NewGCM(key).Seal(nil, nonce, plaintext, ad)` under a 32-byte key. -/
  sivSeal : Key → Bytes → Bytes → Bytes → Bytes
  /-- `siv.NewGCM(key).Open(nil, nonce, ciphertext, ad)`. -/
  sivOpen : Key → Bytes → Bytes → Bytes → Except String Bytes

/-- What is assumed of the ciphers: a key stream applied twice cancels, and AES-GCM-SIV adds a tag
of 16 bytes and opens what it has sealed. -/
structure Primitives.CipherLaws (s : Primitives) : Prop where
  ctr (key : Key) (data : Bytes) : s.ctrXOR key (s.ctrXOR key data) = data
  siv_length (key : Key) (nonce plaintext ad : Bytes) :
    (s.sivSeal key nonce plaintext ad).length = plaintext.length + 16
  siv (key : Key) (nonce plaintext ad : Bytes) :
    s.sivOpen key nonce (s.sivSeal key nonce plaintext ad) ad = .ok plaintext

variable (s : Primitives)

/-! ## Ciphers -/

def aesCTRHMACSize : Nat := 10

/-- The truncated tag of a ciphertext. -/
def ctrHMACTag (macKey : Key) (ciphertext : Bytes) : Bytes :=
  (s.hmacSHA256 macKey.toBytes ciphertext).toBytes.take aesCTRHMACSize

/-- `AES256CTRHMACSHA256Encrypt` under a 32-byte cipher key. -/
def aes256CTRHMACSHA256Encrypt (plaintext : Bytes) (cipherKey macKey : Key) : Bytes :=
  let ciphertext := s.ctrXOR cipherKey plaintext
  ciphertext ++ ctrHMACTag s macKey ciphertext

def aes256CTRHMACSHA256Decrypt (ciphertext : Bytes) (cipherKey macKey : Key) : Except Err Bytes :=
  if ciphertext.length < aesCTRHMACSize then .error (.new "aes-ctr-hmac: invalid ciphertext")
  else
    let msgLen := ciphertext.length - aesCTRHMACSize
    let msg := ciphertext.take msgLen
    let mac := ciphertext.drop msgLen
    if ctrHMACTag s macKey msg ≠ mac then .error (.new "aes-ctr-hmac: invalid ciphertext")
    else .ok (s.ctrXOR cipherKey msg)

def aesGCMSIVNonceSize : Nat := 12

def aesGCMSIVEncrypt (key : Key) (nonce plaintext associatedData : Bytes) : Except Err Bytes :=
  if nonce.length ≠ aesGCMSIVNonceSize then .error (.new "aes-gcm-siv: invalid nonce length")
  else .ok (s.sivSeal key nonce plaintext associatedData)

def aesGCMSIVDecrypt (key : Key) (nonce ciphertext associatedData : Bytes) : Except Err Bytes :=
  if nonce.length ≠ aesGCMSIVNonceSize then .error (.new "aes-gcm-siv: invalid nonce length")
  else (s.sivOpen key nonce ciphertext associatedData).mapError fun _ =>
    .new "aes-gcm-siv: invalid ciphertext"

@[simp] theorem length_ctrHMACTag (macKey : Key) (ciphertext : Bytes) :
    (ctrHMACTag s macKey ciphertext).length = aesCTRHMACSize := by
  simp [ctrHMACTag, aesCTRHMACSize]

theorem length_aes256CTRHMACSHA256Encrypt_pos (plaintext : Bytes) (cipherKey macKey : Key) :
    0 < (aes256CTRHMACSHA256Encrypt s plaintext cipherKey macKey).length := by
  simp [aes256CTRHMACSHA256Encrypt, aesCTRHMACSize]

variable {s}

theorem aes256CTRHMACSHA256Decrypt_encrypt (laws : s.CipherLaws) (plaintext : Bytes)
    (cipherKey macKey : Key) :
    aes256CTRHMACSHA256Decrypt s (aes256CTRHMACSHA256Encrypt s plaintext cipherKey macKey)
      cipherKey macKey = .ok plaintext := by
  set ciphertext := s.ctrXOR cipherKey plaintext with hciphertext
  have henc : aes256CTRHMACSHA256Encrypt s plaintext cipherKey macKey =
      ciphertext ++ ctrHMACTag s macKey ciphertext := rfl
  have hlen : (ciphertext ++ ctrHMACTag s macKey ciphertext).length =
      ciphertext.length + aesCTRHMACSize := by simp
  rw [henc, aes256CTRHMACSHA256Decrypt, if_neg (by omega)]
  simp only [hlen, Nat.add_sub_cancel, List.take_left, List.drop_left]
  rw [if_neg (not_not.mpr rfl), hciphertext, laws.ctr]

theorem aesGCMSIVDecrypt_encrypt (laws : s.CipherLaws) {key : Key} {nonce plaintext ad out : Bytes}
    (h : aesGCMSIVEncrypt s key nonce plaintext ad = .ok out) :
    out.length = plaintext.length + 16 ∧ aesGCMSIVDecrypt s key nonce out ad = .ok plaintext := by
  unfold aesGCMSIVEncrypt at h
  split at h
  · cases h
  · cases h
    rename_i hnonce
    rw [aesGCMSIVDecrypt, if_neg hnonce, laws.siv]
    exact ⟨laws.siv_length _ _ _ _, rfl⟩

/-! ## Key pairs -/

variable (s)

def keyPairFromPrivate (privateKey : Key) : Except Err KeyPair := do
  let pub ← (scalarBaseMult s.toPrims privateKey).mapError fun e =>
    .context "derive public key" (.new e)
  return { publicKey := pub, privateKey }

/-! ## Fields -/

/-- The field coding with the fields of eight fixed bytes. -/
structure SealedWire extends Protowire where
  appendFixed64 : UInt64 → Bytes
  consumeFixed64 : Bytes → Option (UInt64 × Nat)

structure SealedWire.Laws (w : SealedWire) : Prop extends w.toProtowire.Laws where
  fixed64 (v : UInt64) (rest : Bytes) :
    w.consumeFixed64 (w.appendFixed64 v ++ rest) = some (v, (w.appendFixed64 v).length)

variable (w : SealedWire)

def fixed64Field (what : String) (typ : WireType) (data : Bytes) : Except Err (UInt64 × Bytes) :=
  if typ ≠ .fixed64 then .error (invalid s!"{what} type")
  else
    match w.consumeFixed64 data with
    | none => .error (invalid what)
    | some (val, n) => .ok (val, data.drop n)

/-- A varint field that has to fit into 32 bits. -/
def strictUint32Field (what : String) (typ : WireType) (data : Bytes) :
    Except Err (UInt32 × Bytes) := do
  let (val, rest) ← varintField w.toProtowire (invalid s!"{what} type") (invalid what) typ data
  if val.toNat > 0xffffffff then .error (invalid what)
  else return (val.toUInt32, rest)

/-- A field of any other number is skipped. -/
def unknownField (what : String) (num : Nat) (typ : WireType) (data : Bytes) : Except Err Bytes :=
  match w.consumeFieldValue num typ data with
  | none => .error (invalid what)
  | some n => .ok (data.drop n)

section RoundTrip

variable {w} (laws : w.Laws)

include laws

theorem fixed64Field_append (what : String) (v : UInt64) (rest : Bytes) :
    fixed64Field w what .fixed64 (w.appendFixed64 v ++ rest) = .ok (v, rest) := by
  simp [fixed64Field, laws.fixed64]

theorem strictUint32Field_append (what : String) (v : UInt32) (rest : Bytes) :
    strictUint32Field w what .varint (w.appendVarint v.toUInt64 ++ rest) = .ok (v, rest) := by
  have hlt := v.toNat_lt
  rw [strictUint32Field, varintField_append laws.toLaws, ok_bind]
  simp only [UInt32.toNat_toUInt64, UInt32.toUInt32_toUInt64]
  rw [if_neg (by omega)]
  rfl

end RoundTrip

end SignalGo.SealedSender
