import SignalGo.Lib.Time
import SignalGo.Store
import SignalGo.SealedSender.Crypto

/-!
# Sealed sender: certificates

A sender certificate says which device a message comes from; it is signed by a server, whose own
certificate is either embedded or named by its id. Both certificates are a body and a signature,
and the body is a protocol-buffer message of its own.

* `newServerCertificate`, `newSenderCertificate`: build and sign.
* `parseServerCertificate`, `parseSenderCertificate`: read back, with all checks.
* `SenderCertificate.validate`: the chain of signatures from a trust root, and the expiry.
* `ServerCertificate.Built.parse`, `parseSenderCertificate_new`: what was built is read back
  field by field.
-/

namespace SignalGo

/-- `t.UnixMilli()`. -/
def Time.unixMilli (t : Time) : Int64 := t.unix * 1000 + Int64.ofNat (t.nsec.val / 1000000)

namespace SealedSender

variable (s : Primitives) (w : SealedWire)

/-! ## A body and its signature -/

/-- `encodeServerCertificate` and `encodeSenderCertificate`. -/
def encodeSignedCertificate (certificate signature : Bytes) : Bytes :=
  (w.appendTag 1 .bytes ++ w.appendBytes certificate)
    ++ (w.appendTag 2 .bytes ++ w.appendBytes signature)

structure SignedFields where
  certificate : Bytes
  signature : Bytes

def signedField (who : String) : FieldStep SignedFields Err := fun m num typ data =>
  match num with
  | 1 => do
      let (val, rest) ← bytesField w.toProtowire (invalid s!"{who} certificate type")
        (invalid s!"{who} certificate bytes") typ data
      return ({ m with certificate := val }, rest)
  | 2 => do
      let (val, rest) ← bytesField w.toProtowire (invalid s!"{who} signature type")
        (invalid s!"{who} signature bytes") typ data
      return ({ m with signature := val }, rest)
  | _ => do
      let rest ← unknownField w s!"{who} certificate field" num typ data
      return (m, rest)

/-- `decodeServerCertificate` and `decodeSenderCertificate`. An empty field is copied to a nil
slice, so that it counts as missing. -/
def decodeSignedCertificate (who : String) (data : Bytes) : Except Err (Bytes × Bytes) :=
  if data.isEmpty then .error (invalid s!"{who} certificate empty")
  else do
    let m ← decodeFields w.toProtowire (invalid s!"{who} certificate tag") (signedField w who)
      { certificate := [], signature := [] } data
    if m.certificate.isEmpty ∨ m.signature.isEmpty then
      .error (invalid s!"{who} certificate missing fields")
    else return (m.certificate, m.signature)

/-! ## Server certificates -/

structure ServerCertificate where
  serialized : Bytes
  certificate : Bytes
  signature : Bytes
  keyID : UInt32
  publicKey : Key
  deriving DecidableEq

def encodeServerCertificateBody (keyID : UInt32) (publicKey : Key) : Bytes :=
  (w.appendTag 1 .varint ++ w.appendVarint keyID.toUInt64)
    ++ (w.appendTag 2 .bytes ++ w.appendBytes (serializeWirePublicKey publicKey))

structure ServerFields where
  keyID : Option UInt32
  keyBytes : Option Bytes

def serverField : FieldStep ServerFields Err := fun m num typ data =>
  match num with
  | 1 => do
      let (id, rest) ← strictUint32Field w "server certificate id" typ data
      return ({ m with keyID := some id }, rest)
  | 2 => do
      let (val, rest) ← rawField w.toProtowire "server certificate key" typ data
      return ({ m with keyBytes := some val }, rest)
  | _ => do
      let rest ← unknownField w "server certificate body field" num typ data
      return (m, rest)

def decodeServerCertificateBody (data : Bytes) : Except Err (UInt32 × Key) := do
  let m ← decodeFields w.toProtowire (invalid "server certificate body tag") (serverField w)
    { keyID := none, keyBytes := none } data
  match m with
  | { keyID := some keyID, keyBytes := some keyBytes } => do
      let key ← deserializeWirePublicKey s.toPrims keyBytes
      return (keyID, key)
  | _ => .error (invalid "server certificate missing fields")

def parseServerCertificate (data : Bytes) : Except Err ServerCertificate := do
  let (certificate, signature) ← decodeSignedCertificate w "server" data
  let (keyID, publicKey) ← decodeServerCertificateBody s w certificate
  return {
    serialized := data
    certificate, signature, keyID, publicKey }

/-- `NewServerCertificate`; `rnd` is the randomness of the signature. -/
def newServerCertificate (rnd : Except String (ByteArr 64)) (keyID : UInt32) (publicKey : Key)
    (trustRootPrivate : Key) : Except Err ServerCertificate :=
  if !isValidPublicKey s.toPrims publicKey then
    .error (.wrap .invalidKey "invalid server public key")
  else do
    let certificate := encodeServerCertificateBody w keyID publicKey
    let signature ← (xeddsaSign s.curve rnd trustRootPrivate [certificate]).mapError
      (.context "sign server certificate")
    return {
      serialized := encodeSignedCertificate w certificate signature
      certificate, signature, keyID, publicKey }

/-- The server certificates the package makes. Their fields are private to it, so a caller has
these and the zero value `ServerCertificate{}`, which stands for no certificate. -/
inductive ServerCertificate.Built : ServerCertificate → Prop where
  | new {rnd : Except String (ByteArr 64)} {keyID : UInt32} {publicKey trustRootPrivate : Key}
      {c : ServerCertificate} :
      newServerCertificate s w rnd keyID publicKey trustRootPrivate = .ok c → Built c
  | parsed {data : Bytes} {c : ServerCertificate} :
      parseServerCertificate s w data = .ok c → Built c

def revokedServerCertificateID : UInt32 := 0xDEADC357

def ServerCertificate.validate (c : ServerCertificate) (trustRoot : Key) : Bool :=
  if c.keyID = revokedServerCertificateID then false
  else xeddsaVerify s.curve trustRoot c.signature [c.certificate]

/-! ## Sender certificates -/

/-- A signer is a certificate that has been built. -/
structure SenderCertificateParams where
  senderUUID : GoString
  senderUUIDBytes : Bytes
  senderE164 : GoString
  senderDevice : UInt32
  expiresAt : Time
  identityKey : Key
  signer : Option { c : ServerCertificate // c.Built s w }
  signerID : Option UInt32
  signerPrivate : Key

/-- What the body of a sender certificate says. -/
structure SenderCertificateBody where
  signer : Option ServerCertificate
  signerID : Option UInt32
  senderUUID : GoString
  senderUUIDBytes : Bytes
  senderUUIDIsBytes : Bool
  senderE164 : GoString
  hasSenderE164 : Bool
  senderDevice : UInt32
  expiresMillis : UInt64
  identityKey : Key
  identityKeyBytes : Bytes
  deriving DecidableEq

structure SenderCertificate extends SenderCertificateBody where
  serialized : Bytes
  certificate : Bytes
  signature : Bytes
  deriving DecidableEq

def hexDigit (n : Nat) : UInt8 := .ofNat (if n < 10 then 48 + n else 87 + n)

/-- `hex.Encode`. -/
def hexEncode (bs : Bytes) : Bytes :=
  bs.flatMap fun b => [hexDigit (b.toNat / 16), hexDigit (b.toNat % 16)]

/-- The groups of a uuid, with a dash (byte 45) between them. -/
def uuidBytesToString (raw : Bytes) : Except Err GoString :=
  if raw.length ≠ 16 then .error (invalid s!"uuid bytes length {raw.length}")
  else .ok (hexEncode (raw.take 4) ++ 45 :: hexEncode ((raw.drop 4).take 2)
    ++ 45 :: hexEncode ((raw.drop 6).take 2) ++ 45 :: hexEncode ((raw.drop 8).take 2)
    ++ 45 :: hexEncode (raw.drop 10))

structure SenderCertificateBodyParams where
  senderUUID : GoString
  senderUUIDBytes : Bytes
  senderUUIDIsBytes : Bool
  senderE164 : GoString
  hasSenderE164 : Bool
  senderDevice : UInt32
  expiresMillis : UInt64
  identityKeyBytes : Bytes
  signer : Option ServerCertificate
  signerID : Option UInt32

/-- The signer, embedded or named. -/
def encodeSigner : Option ServerCertificate → Option UInt32 → Bytes
  | some signer, _ => w.appendTag 5 .bytes ++ w.appendBytes signer.serialized
  | none, some id => w.appendTag 8 .varint ++ w.appendVarint id.toUInt64
  | none, none => []

def encodeSenderCertificateBody (params : SenderCertificateBodyParams) : Bytes :=
  (if params.hasSenderE164 then w.appendTag 1 .bytes ++ w.appendBytes params.senderE164 else [])
    ++ (if params.senderUUIDIsBytes then w.appendTag 7 .bytes ++
      w.appendBytes params.senderUUIDBytes
      else w.appendTag 6 .bytes ++ w.appendBytes params.senderUUID)
    ++ (w.appendTag 2 .varint ++ w.appendVarint params.senderDevice.toUInt64)
    ++ (w.appendTag 3 .fixed64 ++ w.appendFixed64 params.expiresMillis)
    ++ (w.appendTag 4 .bytes ++ w.appendBytes params.identityKeyBytes)
    ++ encodeSigner w params.signer params.signerID

structure SenderFields where
  senderUUID : GoString
  senderUUIDBytes : Bytes
  senderUUIDIsBytes : Bool
  senderE164 : GoString
  hasSenderE164 : Bool
  senderDevice : Option UInt32
  expiresMillis : Option UInt64
  identityKeyBytes : Option Bytes
  signer : Option ServerCertificate
  signerID : Option UInt32
  gotUUID : Bool
  gotSigner : Bool

def senderFieldsEmpty : SenderFields where
  senderUUID := []
  senderUUIDBytes := []
  senderUUIDIsBytes := false
  senderE164 := []
  hasSenderE164 := false
  senderDevice := none
  expiresMillis := none
  identityKeyBytes := none
  signer := none
  signerID := none
  gotUUID := false
  gotSigner := false

/-- A second uuid or signer of either kind is refused. -/
def senderField : FieldStep SenderFields Err := fun m num typ data =>
  match num with
  | 1 => do
      let (val, rest) ← rawField w.toProtowire "sender e164" typ data
      return ({ m with senderE164 := val, hasSenderE164 := true }, rest)
  | 6 => do
      let (val, rest) ← bytesField w.toProtowire (invalid "sender uuid type")
        (invalid "sender uuid string") typ data
      if m.gotUUID then .error (invalid "duplicate sender uuid")
      else return ({ m with senderUUID := val, senderUUIDIsBytes := false, gotUUID := true }, rest)
  | 7 => do
      let (val, rest) ← rawField w.toProtowire "sender uuid bytes" typ data
      if m.gotUUID then .error (invalid "duplicate sender uuid")
      else if val.length ≠ 16 then .error (invalid s!"sender uuid bytes length {val.length}")
      else do
        let parsedUUID ← uuidBytesToString val
        return ({ m with
          senderUUIDBytes := val
          senderUUIDIsBytes := true
          senderUUID := parsedUUID
          gotUUID := true }, rest)
  | 2 => do
      let (device, rest) ← strictUint32Field w "sender device" typ data
      return ({ m with senderDevice := some device }, rest)
  | 3 => do
      let (expires, rest) ← fixed64Field w "sender expires" typ data
      return ({ m with expiresMillis := some expires }, rest)
  | 4 => do
      let (val, rest) ← rawField w.toProtowire "sender identity key" typ data
      return ({ m with identityKeyBytes := some val }, rest)
  | 5 => do
      let (val, rest) ← rawField w.toProtowire "signer certificate" typ data
      if m.gotSigner then .error (invalid "duplicate signer")
      else do
        let parsedSigner ← parseServerCertificate s w val
        return ({ m with signer := some parsedSigner, gotSigner := true }, rest)
  | 8 => do
      let (id, rest) ← strictUint32Field w "signer id" typ data
      if m.gotSigner then .error (invalid "duplicate signer")
      else return ({ m with signerID := some id, gotSigner := true }, rest)
  | _ => do
      let rest ← unknownField w "sender certificate body field" num typ data
      return (m, rest)

def decodeSenderCertificateBody (data : Bytes) : Except Err SenderCertificateBody := do
  let m ← decodeFields w.toProtowire (invalid "sender certificate body tag") (senderField s w)
    senderFieldsEmpty data
  match m.senderDevice, m.expiresMillis, m.identityKeyBytes, m.gotUUID, m.gotSigner with
  | some senderDevice, some expiresMillis, some identityKeyBytes, true, true => do
      let identityKey ← deserializeWirePublicKey s.toPrims identityKeyBytes
      return {
        signer := m.signer
        signerID := m.signerID
        senderUUID := m.senderUUID
        senderUUIDBytes := m.senderUUIDBytes
        senderUUIDIsBytes := m.senderUUIDIsBytes
        senderE164 := m.senderE164
        hasSenderE164 := m.hasSenderE164
        senderDevice, expiresMillis, identityKey, identityKeyBytes }
  | _, _, _, _, _ => .error (invalid "sender certificate missing fields")

def parseSenderCertificate (data : Bytes) : Except Err SenderCertificate := do
  let (certificate, signature) ← decodeSignedCertificate w "sender" data
  let parsed ← decodeSenderCertificateBody s w certificate
  return { parsed with serialized := data, certificate, signature }

variable {s w} in
/-- The checks of `NewSenderCertificate`, in the order of the source. -/
def SenderCertificateParams.check (params : SenderCertificateParams s w) : Except Err Unit :=
  if params.senderUUID.isEmpty ∧ params.senderUUIDBytes.isEmpty then
    .error (invalid "sender uuid required")
  else if !params.senderUUID.isEmpty ∧ !params.senderUUIDBytes.isEmpty then
    .error (invalid "sender uuid ambiguous")
  else if params.signer.isNone ∧ params.signerID.isNone then .error (invalid "signer required")
  else if params.signer.isSome ∧ params.signerID.isSome then .error (invalid "signer ambiguous")
  else if params.expiresAt.isZero then .error (invalid "expires required")
  else if !isValidPublicKey s.toPrims params.identityKey then
    .error (.wrap .invalidKey "sender identity key invalid")
  else if !params.senderUUIDBytes.isEmpty ∧ params.senderUUIDBytes.length ≠ 16 then
    .error (invalid s!"sender uuid bytes length {params.senderUUIDBytes.length}")
  else .ok ()

variable {s w} in
def SenderCertificateParams.body (params : SenderCertificateParams s w) :
    SenderCertificateBodyParams where
  senderUUID := params.senderUUID
  senderUUIDBytes := params.senderUUIDBytes
  senderUUIDIsBytes := !params.senderUUIDBytes.isEmpty
  senderE164 := params.senderE164
  hasSenderE164 := !params.senderE164.isEmpty
  senderDevice := params.senderDevice
  expiresMillis := params.expiresAt.unixMilli.toUInt64
  identityKeyBytes := serializeWirePublicKey params.identityKey
  signer := params.signer.map (·.val)
  signerID := params.signerID

variable {s w} in
/-- The uuid as a string, whichever way it was given. -/
def SenderCertificateParams.uuidText (params : SenderCertificateParams s w) : Except Err GoString :=
  if params.senderUUID.isEmpty then uuidBytesToString params.senderUUIDBytes
  else .ok params.senderUUID

/-- `NewSenderCertificate`; `rnd` is the randomness of the signature. -/
def newSenderCertificate (rnd : Except String (ByteArr 64)) (params : SenderCertificateParams s w) :
    Except Err SenderCertificate := do
  params.check
  let body := params.body
  let certificate := encodeSenderCertificateBody w body
  let signature ← (xeddsaSign s.curve rnd params.signerPrivate [certificate]).mapError
    (.context "sign sender certificate")
  let senderUUID ← params.uuidText
  return {
    serialized := encodeSignedCertificate w certificate signature
    certificate, signature
    signer := body.signer
    signerID := params.signerID
    senderUUID
    senderUUIDBytes := params.senderUUIDBytes
    senderUUIDIsBytes := body.senderUUIDIsBytes
    senderE164 := params.senderE164
    hasSenderE164 := body.hasSenderE164
    senderDevice := params.senderDevice
    expiresMillis := body.expiresMillis
    identityKey := params.identityKey
    identityKeyBytes := body.identityKeyBytes }

/-- `resolveSigner`; the resolver, if there is one, finds server certificates by id. -/
def SenderCertificate.resolveSigner (c : SenderCertificate)
    (resolver : Option (UInt32 → Option ServerCertificate)) : Except Err ServerCertificate :=
  match c.signer, c.signerID, resolver with
  | some signer, _, _ => .ok signer
  | none, none, _ => .error (invalid "missing signer")
  | none, some _, none => .error (invalid "missing server certificate resolver")
  | none, some id, some lookup =>
      match lookup id with
      | none => .error (invalid s!"unknown server certificate id {id}")
      | some cert => .ok cert

def SenderCertificate.validate (c : SenderCertificate) (trustRoots : List Key)
    (validationTime : Time) (resolver : Option (UInt32 → Option ServerCertificate)) :
    Except Err Bool :=
  if trustRoots.isEmpty then .error (.wrap .invalidKey "trust roots required")
  else do
    let signer ← c.resolveSigner resolver
    if !trustRoots.any (signer.validate s) then return false
    else if !xeddsaVerify s.curve signer.publicKey c.signature [c.certificate] then return false
    else if validationTime.unixMilli > c.expiresMillis.toInt64 then return false
    else return true

/-! ## What is built is read back -/

section RoundTrip

variable {s w} (laws : w.Laws)

include laws

theorem appendTag_ne_nil {num : Nat} (hpos : 0 < num) (hmax : num < 2 ^ 29) (typ : WireType) :
    w.appendTag num typ ≠ [] := by
  intro hnil
  have htag := laws.tag num typ [] hpos hmax
  have hn := w.consumeTag_pos htag
  rw [hnil] at hn
  exact absurd hn (lt_irrefl 0)

theorem decodeSignedCertificate_encode (who : String) {certificate signature : Bytes}
    (hcert : certificate ≠ []) (hsig : signature ≠ []) :
    decodeSignedCertificate w who (encodeSignedCertificate w certificate signature) =
      .ok (certificate, signature) := by
  have h1 (m : SignedFields) : Decodes w.toProtowire (invalid s!"{who} certificate tag")
      (signedField w who) (w.appendTag 1 .bytes ++ w.appendBytes certificate) m
      { m with certificate } :=
    .field laws.toLaws (by decide) fun rest => by
      simp only [signedField, bytesField_append laws.toLaws, ok_bind]
      rfl
  have h2 (m : SignedFields) : Decodes w.toProtowire (invalid s!"{who} certificate tag")
      (signedField w who) (w.appendTag 2 .bytes ++ w.appendBytes signature) m
      { m with signature } :=
    .field laws.toLaws (by decide) fun rest => by
      simp only [signedField, bytesField_append laws.toLaws, ok_bind]
      rfl
  have hne : encodeSignedCertificate w certificate signature ≠ [] := by
    simp [encodeSignedCertificate, appendTag_ne_nil laws]
  rw [decodeSignedCertificate, if_neg (by rwa [List.isEmpty_iff]), encodeSignedCertificate,
    ((h1 _).trans (h2 _)).eq, ok_bind, if_neg (by simp [hcert, hsig])]
  rfl

theorem decodeServerCertificateBody_encode (keyID : UInt32) {publicKey : Key}
    (hkey : isValidPublicKey s.toPrims publicKey = true) :
    decodeServerCertificateBody s w (encodeServerCertificateBody w keyID publicKey) =
      .ok (keyID, publicKey) := by
  have h1 (m : ServerFields) : Decodes w.toProtowire (invalid "server certificate body tag")
      (serverField w) (w.appendTag 1 .varint ++ w.appendVarint keyID.toUInt64) m
      { m with keyID := some keyID } :=
    .field laws.toLaws (by decide) fun rest => by
      simp only [serverField, strictUint32Field_append laws, ok_bind]
      rfl
  have h2 (m : ServerFields) : Decodes w.toProtowire (invalid "server certificate body tag")
      (serverField w) (w.appendTag 2 .bytes ++ w.appendBytes (serializeWirePublicKey publicKey)) m
      { m with keyBytes := some (serializeWirePublicKey publicKey) } :=
    .field laws.toLaws (by decide) fun rest => by
      simp only [serverField, rawField_append laws.toLaws, ok_bind]
      rfl
  rw [decodeServerCertificateBody, encodeServerCertificateBody, ((h1 _).trans (h2 _)).eq, ok_bind]
  simp only [deserializeWirePublicKey_serialize hkey, ok_bind]
  rfl

/-- A certificate that has been built is what its bytes say. -/
theorem ServerCertificate.Built.parse {c : ServerCertificate} (h : c.Built s w) :
    parseServerCertificate s w c.serialized = .ok c := by
  cases h with
  | new hnew =>
    unfold newServerCertificate at hnew
    split at hnew
    · cases hnew
    · rename_i hkey
      obtain ⟨signature, hsign, hnew⟩ := bind_eq_ok.mp hnew
      cases hnew
      have hlen := length_xeddsaSign (mapError_eq_ok.mp hsign)
      have hsig : signature ≠ [] := by
        rintro rfl
        cases hlen
      have hbody : ∀ keyID publicKey, encodeServerCertificateBody w keyID publicKey ≠ [] := by
        simp [encodeServerCertificateBody, appendTag_ne_nil laws]
      simp only [parseServerCertificate, decodeSignedCertificate_encode laws _ (hbody _ _) hsig,
        ok_bind, decodeServerCertificateBody_encode laws _ (by simpa using hkey)]
      rfl
  | @parsed data c hparse =>
    have hser : c.serialized = data := by
      unfold parseServerCertificate at hparse
      obtain ⟨⟨certificate, signature⟩, -, hparse⟩ := bind_eq_ok.mp hparse
      obtain ⟨⟨keyID, publicKey⟩, -, hparse⟩ := bind_eq_ok.mp hparse
      cases hparse
      rfl
    rw [hser, hparse]

omit laws in
/-- Parameters that pass the checks have one uuid and one signer, and a valid key. -/
structure SenderCertificateParams.Checked (params : SenderCertificateParams s w) : Prop where
  uuid : params.senderUUID.isEmpty = !params.senderUUIDBytes.isEmpty
  length : params.senderUUIDBytes.isEmpty = false → params.senderUUIDBytes.length = 16
  signer : params.signer.isNone = params.signerID.isSome
  valid : isValidPublicKey s.toPrims params.identityKey = true

omit laws in
theorem SenderCertificateParams.check_ok {params : SenderCertificateParams s w}
    (h : params.check = .ok ()) : params.Checked := by
  unfold check at h
  split_ifs at h with huuid hboth hsigner hsigners hexpires hvalid hlength
  refine ⟨?_, fun hne => ?_, ?_, by simpa using hvalid⟩
  · cases hu : params.senderUUID.isEmpty <;> cases hb : params.senderUUIDBytes.isEmpty <;>
      simp_all
  · by_contra hne'
    exact hlength ⟨by simp [hne], hne'⟩
  · cases hs : params.signer <;> cases hid : params.signerID <;> simp_all

omit laws in
/-- The fields of the body, read into any state that has no uuid and no signer. -/
def SenderCertificateBodyParams.fields (params : SenderCertificateBodyParams) (uuid : GoString) :
    SenderFields where
  senderUUID := uuid
  senderUUIDBytes := params.senderUUIDBytes
  senderUUIDIsBytes := params.senderUUIDIsBytes
  senderE164 := params.senderE164
  hasSenderE164 := params.hasSenderE164
  senderDevice := some params.senderDevice
  expiresMillis := some params.expiresMillis
  identityKeyBytes := some params.identityKeyBytes
  signer := params.signer
  signerID := params.signerID
  gotUUID := true
  gotSigner := true

/-- The text of the uuid, given as a string or as 16 bytes. -/
theorem decodes_uuid {uuid uuidBytes text : Bytes} (hone : uuid.isEmpty = !uuidBytes.isEmpty)
    (htext : (if uuid.isEmpty then uuidBytesToString uuidBytes else .ok uuid) = .ok text)
    (hlength : uuidBytes.isEmpty = false → uuidBytes.length = 16) {m : SenderFields}
    (hm : m.gotUUID = false) (hbytes : m.senderUUIDBytes = []) :
    Decodes w.toProtowire (invalid "sender certificate body tag") (senderField s w)
      (if !uuidBytes.isEmpty then w.appendTag 7 .bytes ++ w.appendBytes uuidBytes
        else w.appendTag 6 .bytes ++ w.appendBytes uuid) m
      { m with
        senderUUID := text
        senderUUIDBytes := uuidBytes
        senderUUIDIsBytes := !uuidBytes.isEmpty
        gotUUID := true } := by
  cases hempty : uuidBytes.isEmpty with
  | true =>
    rw [hempty] at hone
    rw [hone, if_neg (by decide)] at htext
    cases htext
    rw [if_neg (by decide)]
    refine .field laws.toLaws (by decide) fun rest => ?_
    simp only [senderField, bytesField_append laws.toLaws, ok_bind, hm]
    rw [List.isEmpty_iff.mp hempty, ← hbytes]
    rfl
  | false =>
    rw [hempty] at hone
    rw [hone, if_pos (by decide)] at htext
    rw [if_pos (by decide)]
    refine .field laws.toLaws (by decide) fun rest => ?_
    simp only [senderField, rawField_append laws.toLaws, ok_bind, hm]
    rw [if_neg (by decide), if_neg (by rw [hlength hempty]; decide), htext]
    rfl

/-- The signer, embedded or named by its id. -/
theorem decodes_signer {signer : Option ServerCertificate} {signerID : Option UInt32}
    (hone : signer.isNone = signerID.isSome) (hbuilt : ∀ c, signer = some c → c.Built s w)
    {m : SenderFields} (hm : m.gotSigner = false) (hsigner : m.signer = none)
    (hid : m.signerID = none) :
    Decodes w.toProtowire (invalid "sender certificate body tag") (senderField s w)
      (encodeSigner w signer signerID) m
      { m with signer, signerID, gotSigner := true } := by
  cases signer with
  | some c =>
    cases signerID with
    | some id => cases hone
    | none =>
      refine .field laws.toLaws (by decide) fun rest => ?_
      simp only [senderField, rawField_append laws.toLaws, ok_bind, hm, (hbuilt c rfl).parse laws]
      rw [if_neg (by decide), ← hid]
      rfl
  | none =>
    cases signerID with
    | none => cases hone
    | some id =>
      refine .field laws.toLaws (by decide) fun rest => ?_
      simp only [senderField, strictUint32Field_append laws, ok_bind, hm]
      rw [if_neg (by decide), ← hsigner]
      rfl

theorem decodes_senderCertificateBody {params : SenderCertificateParams s w}
    (hchecked : params.Checked) {text : GoString}
    (htext : params.uuidText = .ok text) :
    Decodes w.toProtowire (invalid "sender certificate body tag") (senderField s w)
      (encodeSenderCertificateBody w params.body) senderFieldsEmpty (params.body.fields text) := by
  have h1 : Decodes w.toProtowire (invalid "sender certificate body tag") (senderField s w)
      (if params.body.hasSenderE164 then w.appendTag 1 .bytes ++ w.appendBytes params.senderE164
        else []) senderFieldsEmpty
      { senderFieldsEmpty with
        senderE164 := params.senderE164
        hasSenderE164 := params.body.hasSenderE164 } := by
    refine .ite (fun hhas => ?_) fun hnot => ?_
    · rw [hhas]
      refine .field laws.toLaws (by decide) fun rest => ?_
      simp only [senderField, rawField_append laws.toLaws, ok_bind]
      rfl
    · have hempty : params.senderE164 = [] := by
        simpa [SenderCertificateParams.body] using hnot
      simp [SenderCertificateParams.body, hempty, senderFieldsEmpty]
  have h2 := decodes_uuid (s := s) laws hchecked.uuid htext hchecked.length
    (m := { senderFieldsEmpty with
      senderE164 := params.senderE164
      hasSenderE164 := params.body.hasSenderE164 }) rfl rfl
  have h3 (m : SenderFields) : Decodes w.toProtowire (invalid "sender certificate body tag")
      (senderField s w) (w.appendTag 2 .varint ++ w.appendVarint params.senderDevice.toUInt64) m
      { m with senderDevice := some params.senderDevice } :=
    .field laws.toLaws (by decide) fun rest => by
      simp only [senderField, strictUint32Field_append laws, ok_bind]
      rfl
  have h4 (m : SenderFields) : Decodes w.toProtowire (invalid "sender certificate body tag")
      (senderField s w) (w.appendTag 3 .fixed64 ++ w.appendFixed64 params.body.expiresMillis) m
      { m with expiresMillis := some params.body.expiresMillis } :=
    .field laws.toLaws (by decide) fun rest => by
      simp only [senderField, fixed64Field_append laws, ok_bind]
      rfl
  have h5 (m : SenderFields) : Decodes w.toProtowire (invalid "sender certificate body tag")
      (senderField s w) (w.appendTag 4 .bytes ++ w.appendBytes params.body.identityKeyBytes) m
      { m with identityKeyBytes := some params.body.identityKeyBytes } :=
    .field laws.toLaws (by decide) fun rest => by
      simp only [senderField, rawField_append laws.toLaws, ok_bind]
      rfl
  have hone : params.body.signer.isNone = params.signerID.isSome := by
    rw [← hchecked.signer]
    exact Option.isNone_map
  have hbuilt : ∀ c, params.body.signer = some c → c.Built s w := by
    intro c hc
    obtain ⟨c', -, rfl⟩ := Option.map_eq_some_iff.mp hc
    exact c'.property
  have h6 := decodes_signer (s := s) laws hone hbuilt
    (m := { senderFieldsEmpty with
      senderE164 := params.senderE164
      hasSenderE164 := params.body.hasSenderE164
      senderUUID := text
      senderUUIDBytes := params.senderUUIDBytes
      senderUUIDIsBytes := !params.senderUUIDBytes.isEmpty
      gotUUID := true
      senderDevice := some params.senderDevice
      expiresMillis := some params.body.expiresMillis
      identityKeyBytes := some params.body.identityKeyBytes }) rfl rfl rfl
  exact ((((h1.trans h2).trans (h3 _)).trans (h4 _)).trans (h5 _)).trans h6

/-- A sender certificate is what its bytes say. -/
theorem parseSenderCertificate_new {rnd : Except String (ByteArr 64)}
    {params : SenderCertificateParams s w} {c : SenderCertificate}
    (h : newSenderCertificate s w rnd params = .ok c) :
    parseSenderCertificate s w c.serialized = .ok c ∧ c.identityKey = params.identityKey ∧
      c.identityKeyBytes = serializeWirePublicKey params.identityKey ∧
      isValidPublicKey s.toPrims params.identityKey = true := by
  obtain ⟨⟨⟩, hcheck, h⟩ := bind_eq_ok.mp h
  obtain ⟨signature, hsign, h⟩ := bind_eq_ok.mp h
  obtain ⟨text, htext, h⟩ := bind_eq_ok.mp h
  cases h
  have hchecked := SenderCertificateParams.check_ok hcheck
  refine ⟨?_, rfl, rfl, hchecked.valid⟩
  have hsig : signature ≠ [] := by
    rintro rfl
    cases length_xeddsaSign (mapError_eq_ok.mp hsign)
  have hbody : encodeSenderCertificateBody w params.body ≠ [] := by
    simp [encodeSenderCertificateBody, appendTag_ne_nil laws]
  have hdecode : decodeSenderCertificateBody s w (encodeSenderCertificateBody w params.body) =
      .ok { signer := params.body.signer
            signerID := params.signerID
            senderUUID := text
            senderUUIDBytes := params.senderUUIDBytes
            senderUUIDIsBytes := params.body.senderUUIDIsBytes
            senderE164 := params.senderE164
            hasSenderE164 := params.body.hasSenderE164
            senderDevice := params.senderDevice
            expiresMillis := params.body.expiresMillis
            identityKey := params.identityKey
            identityKeyBytes := params.body.identityKeyBytes } := by
    rw [decodeSenderCertificateBody, (decodes_senderCertificateBody laws hchecked htext).eq,
      ok_bind]
    simp only [SenderCertificateBodyParams.fields]
    rw [show params.body.identityKeyBytes = serializeWirePublicKey params.identityKey from rfl,
      deserializeWirePublicKey_serialize hchecked.valid]
    rfl
  simp only [parseSenderCertificate, decodeSignedCertificate_encode laws _ hbody hsig, ok_bind,
    hdecode]
  rfl

end RoundTrip

end SealedSender

end SignalGo
