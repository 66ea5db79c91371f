import SignalGo.Lib.Decoder
import SignalGo.X3dh.Handshake

/-!
# X3DH: the initial message as bytes

`Message.Serialize` and `DeserializeMessage`. The decoder also reads the older version 1, which
has no Kyber part.
-/

namespace SignalGo

variable {data : Bytes} {pos : Nat}

namespace X3dh

open Decoder

variable (p : Prims)

def messageSerializeVersion : UInt8 := 2

/-- `fmt.Errorf("x3dh message: …")`. -/
abbrev messageErr (msg : String) : Err := .new s!"x3dh message: {msg}"

/-! ## Encoding -/

/-- The flag and the id of the one-time pre-key; the id has its bytes also when there is none. -/
def encodePreKeyID : Option UInt32 → Bytes
  | none => 0 :: putUint32 0
  | some id => 1 :: putUint32 id

def encodeKyber : Option UInt32 → Bytes → Bytes
  | none, _ => [0]
  | some id, ct => 1 :: (putUint32 id ++ putUint32 (.ofNat ct.length) ++ ct)

def Message.serialize (m : Message) : Except Err Bytes :=
  if m.kyberPreKeyID.isNone ≠ (m.kyberCiphertext.length = 0) then
    .error (messageErr "kyber id/ciphertext mismatch")
  else
    .ok ([messageSerializeVersion]
      ++ putUint16 (.ofNat m.identityKey.serialize.length) ++ m.identityKey.serialize
      ++ m.ephemeralKey.toBytes
      ++ encodePreKeyID m.preKeyID
      ++ putUint32 m.signedPreKeyID
      ++ encodeKyber m.kyberPreKeyID m.kyberCiphertext
      ++ putUint32 (.ofNat m.ciphertext.length) ++ m.ciphertext)

/-! ## Decoding -/

def readIdentity : Decoder Err IdentityKey := do
  let identityLen ← u16
  if identityLen = 0 then fail (messageErr "invalid identity length")
  else do
    need identityLen.toNat (messageErr "invalid identity length")
    let raw ← bytes identityLen.toNat
    lift ((deserializeIdentityKey p raw).mapError fun e => .err (.context "x3dh message" e))

def readPreKeyID : Decoder Err (Option UInt32) := do
  let hasPreKey ← u8
  if hasPreKey = 1 then do
    let id ← u32
    return some id
  else if hasPreKey ≠ 0 then fail (messageErr "invalid pre-key flag")
  else do
    let _ ← bytes 4
    return none

/-- The length of the Kyber ciphertext is read without a check that its bytes are there. -/
def readKyber : Decoder Err (Option UInt32 × Bytes) := do
  let hasKyber ← u8
  if hasKyber = 1 then do
    let id ← u32
    let kyberLen ← u32
    if kyberLen = 0 then fail (messageErr "invalid kyber ciphertext length")
    else do
      need kyberLen.toNat (messageErr "invalid kyber ciphertext length")
      let ct ← bytes kyberLen.toNat
      return (some id, ct)
  else if hasKyber ≠ 0 then fail (messageErr "invalid kyber flag")
  else return (none, [])

/-- The ciphertext takes the rest of the data; `run` refuses bytes behind it with the same
error. -/
def readCiphertext : Decoder Err Bytes := do
  let ctLen ← u32
  need ctLen.toNat (messageErr "invalid ciphertext length")
  bytes ctLen.toNat

def readMessageV1 : Decoder Err Message := do
  let _ ← u8
  let identity ← readIdentity p
  need (32 + 1 + 4 + 4 + 4) (messageErr "truncated")
  let eph ← array 32
  let preKeyID ← readPreKeyID
  let signedPreKeyID ← u32
  let ct ← readCiphertext
  return {
    identityKey := identity
    ephemeralKey := eph
    preKeyID, signedPreKeyID
    kyberPreKeyID := none
    kyberCiphertext := []
    ciphertext := ct }

def readMessage : Decoder Err Message := do
  let _ ← u8
  let identity ← readIdentity p
  need (32 + 1 + 4 + 4 + 1 + 4) (messageErr "truncated")
  let eph ← array 32
  let preKeyID ← readPreKeyID
  let signedPreKeyID ← u32
  let (kyberPreKeyID, kyberCiphertext) ← readKyber
  let ct ← readCiphertext
  return {
    identityKey := identity
    ephemeralKey := eph
    preKeyID, signedPreKeyID, kyberPreKeyID, kyberCiphertext
    ciphertext := ct }

def deserializeMessage (data : Bytes) : Except (Fault Err) Message :=
  if data.length < 1 then .error (.err (messageErr "too short"))
  else
    let version := data.headD 0
    if version = 1 then
      if data.length < 1 + 2 + 32 + 1 + 4 + 4 + 4 then .error (.err (messageErr "too short"))
      else (readMessageV1 p).run (messageErr "invalid ciphertext length") data
    else if version ≠ messageSerializeVersion then
      .error (.err (messageErr s!"unsupported version {version}"))
    else if data.length < 1 + 2 + 32 + 1 + 4 + 4 + 1 + 4 then
      .error (.err (messageErr "too short"))
    else (readMessage p).run (messageErr "invalid ciphertext length") data

/-! ## Round trip -/

/-- What a message needs to come back from its bytes: a valid identity, a Kyber part that is there
as a whole or not at all, and lengths that fit their fields. -/
structure Message.Fits (m : Message) : Prop where
  identity : isValidPublicKey p m.identityKey.publicKey = true
  kyber : m.kyberPreKeyID.isNone ↔ m.kyberCiphertext.length = 0
  kyberLength : m.kyberCiphertext.length < 2 ^ 32
  length : m.ciphertext.length < 2 ^ 32

variable {p}

theorem decodable_identity {k : IdentityKey} (h : isValidPublicKey p k.publicKey = true) :
    Decodable (readIdentity p) (putUint16 (.ofNat k.serialize.length) ++ k.serialize) k := by
  rw [IdentityKey.length_serialize]
  refine .bind (.u16 _) ?_
  rw [if_neg (by decide)]
  refine .need (by rw [IdentityKey.length_serialize]; decide) ?_
  have hraw := (Decodable.bytes (ε := Err) (n := 65) k.length_serialize).bind
    (k := fun raw => lift ((deserializeIdentityKey p raw).mapError
      fun e => .err (.context "x3dh message" e)))
    (Decodable.lift (x := k) (by rw [deserializeIdentityKey_serialize h]; rfl))
  rwa [List.append_nil] at hraw

theorem decodable_preKeyID (id : Option UInt32) :
    Decodable readPreKeyID (encodePreKeyID id) id := by
  cases id with
  | some id =>
    show Decodable _ ([1] ++ putUint32 id) _
    refine .bind (.u8 1) ?_
    rw [if_pos rfl]
    exact (Decodable.u32 id).ret some
  | none =>
    show Decodable _ ([0] ++ putUint32 0) _
    refine .bind (.u8 0) ?_
    rw [if_neg (by decide), if_neg (by decide)]
    exact (Decodable.bytes (by simp)).ret fun _ => none

theorem decodable_kyber {id : Option UInt32} {ct : Bytes} (h : id.isNone ↔ ct.length = 0)
    (hlen : ct.length < 2 ^ 32) : Decodable readKyber (encodeKyber id ct) (id, ct) := by
  cases id with
  | none =>
    rw [List.eq_nil_of_length_eq_zero (h.mp rfl)]
    show Decodable _ ([0] ++ []) _
    refine .bind (.u8 0) ?_
    rw [if_neg (by decide), if_neg (by decide)]
    exact .pure _
  | some id =>
    have hcount : (UInt32.ofNat ct.length).toNat = ct.length := UInt32.toNat_ofNat_of_lt' hlen
    have hpos : ct.length ≠ 0 := fun hzero => Bool.false_ne_true (h.mpr hzero)
    have hne : UInt32.ofNat ct.length ≠ 0 := by
      intro hzero
      rw [hzero] at hcount
      exact hpos hcount.symm
    show Decodable _ ([1] ++ (putUint32 id ++ putUint32 (.ofNat ct.length) ++ ct)) _
    refine .bind (.u8 1) ?_
    rw [if_pos rfl, List.append_assoc]
    refine .bind (.u32 id) (.bind (.u32 _) ?_)
    rw [if_neg hne, hcount]
    exact .need le_rfl ((Decodable.bytes rfl).ret fun ct => (some id, ct))

theorem decodable_ciphertext {ct : Bytes} (hlen : ct.length < 2 ^ 32) :
    Decodable readCiphertext (putUint32 (.ofNat ct.length) ++ ct) ct := by
  have hcount : (UInt32.ofNat ct.length).toNat = ct.length := UInt32.toNat_ofNat_of_lt' hlen
  refine .bind (.u32 _) ?_
  rw [hcount]
  exact .need le_rfl (Decodable.bytes rfl)

/-- **The round trip of an initial message.** -/
theorem deserializeMessage_serialize {m : Message} (h : m.Fits p) :
    ∃ data, m.serialize = .ok data ∧ deserializeMessage p data = .ok m := by
  refine ⟨_, if_neg (not_not.mpr (propext h.kyber)), ?_⟩
  have hkyberPos : 1 ≤ (encodeKyber m.kyberPreKeyID m.kyberCiphertext).length := by
    cases m.kyberPreKeyID <;> simp [encodeKyber]
  have hpreKey : (encodePreKeyID m.preKeyID).length = 5 := by
    cases m.preKeyID <;> simp [encodePreKeyID]
  -- The fields behind the version byte, one decoder each.
  have hread : Decodable (readMessage p) _ m :=
    (Decodable.u8 messageSerializeVersion).bind ((decodable_identity h.identity).bind
      (Decodable.need (by simp [hpreKey]; omega)
        (.bind (.array m.ephemeralKey) ((decodable_preKeyID m.preKeyID).bind
          ((Decodable.u32 m.signedPreKeyID).bind
            ((decodable_kyber h.kyber h.kyberLength).bind
              ((decodable_ciphertext h.length).ret fun ct => ({
                identityKey := m.identityKey
                ephemeralKey := m.ephemeralKey
                preKeyID := m.preKeyID
                signedPreKeyID := m.signedPreKeyID
                kyberPreKeyID := m.kyberPreKeyID
                kyberCiphertext := m.kyberCiphertext
                ciphertext := ct } : Message))))))))
  rw [deserializeMessage, if_neg (by simp)]
  simp only [List.cons_append, List.headD_cons, List.nil_append]
  rw [if_neg (by decide), if_neg (by decide), if_neg (by simp [hpreKey]; omega)]
  have hrun := hread.run (messageErr "invalid ciphertext length")
  simp only [List.append_assoc, List.singleton_append] at hrun ⊢
  exact hrun

/-! ## Reads outside of the data -/

theorem bounded_identity : Bounded 2 (readIdentity p) 0 := by
  refine .bind (.u16 (k := 0)) fun n => .ite (fun _ => .fail _) fun _ => ?_
  exact .bind (.need _ _) fun _ => .bind (.bytes (k := 0) _) fun _ => .lift (.mapError _ _)

theorem bounded_preKeyID {k : Nat} : Bounded (5 + k) readPreKeyID k := by
  refine .bind (m := 4 + k) (Bounded.u8.mono (by omega) le_rfl) fun flag => ?_
  refine .ite (fun _ => Bounded.u32.bind fun id => .pure _) fun _ => .ite (fun _ => .fail _)
    fun _ => ?_
  exact .bind (.bytes 4) fun _ => .pure _

/-- Behind its length the ciphertext is read inside of the data. -/
theorem bounded_ciphertext : Bounded 4 readCiphertext 0 :=
  (Bounded.u32 (k := 0)).bind fun n => .bind (.need n.toNat _) fun _ => Bounded.bytes (k := 0) _

/-- Version 1 has no Kyber part, and checks what it reads. -/
theorem noPanic_readMessageV1 (h : 3 ≤ data.length) :
    NoPanic ((readMessageV1 p).run (messageErr "invalid ciphertext length") data) := by
  have hread : Bounded 3 (readMessageV1 p) 0 := by
    refine .bind (.u8 (k := 2)) fun _ => bounded_identity.bind fun id => ?_
    refine .bind (.need _ _) fun _ => .bind (.array (k := 13) 32) fun eph => ?_
    refine (bounded_preKeyID (k := 8)).bind fun pre => .bind (.u32 (k := 4)) fun spk => ?_
    exact bounded_ciphertext.bind fun ct => .pure _
  exact hread.run _ h

/-- What the reader of an identity has accepted. -/
theorem readIdentity_eq_ok {pos' : Nat} {k : IdentityKey} :
    readIdentity p data pos = .ok (k, pos') ↔
      uint16At (ε := Err) data pos = .ok 65 ∧ pos' = pos + 67 ∧
        ∃ raw, slice (ε := Err) data (pos + 2) (pos + 67) = .ok raw ∧
          deserializeIdentityKey p raw = .ok k := by
  constructor
  · intro h
    obtain ⟨n, pos1, hu16, h⟩ := bind_apply_eq_ok.mp h
    obtain ⟨hn, rfl⟩ := u16_eq_ok.mp hu16
    split at h
    · cases h
    · obtain ⟨_, pos2, hneed, h⟩ := bind_apply_eq_ok.mp h
      obtain ⟨-, rfl⟩ := need_eq_ok.mp hneed
      obtain ⟨raw, pos3, hbytes, h⟩ := bind_apply_eq_ok.mp h
      obtain ⟨hraw, rfl⟩ := bytes_eq_ok.mp hbytes
      obtain ⟨k', hk', h⟩ := bind_eq_ok.mp h
      cases h
      have hk := mapError_eq_ok.mp hk'
      -- an identity has one length only
      have hlen : n.toNat = 65 := by
        rw [← length_of_deserializeIdentityKey hk, length_of_slice hraw]
        omega
      rw [hlen] at hraw
      refine ⟨?_, by rw [hlen], raw, hraw, hk⟩
      rw [hn, UInt16.toNat.inj (hlen.trans (show 65 = (65 : UInt16).toNat from rfl))]
  · rintro ⟨hn, rfl, raw, hraw, hk⟩
    have hlen : pos + 2 + 65 ≤ data.length := le_length_of_slice hraw
    refine (bind_apply_of_ok (u16_eq_ok.mpr ⟨hn, rfl⟩)).trans ?_
    rw [if_neg (by decide)]
    refine (bind_apply_of_ok (need_eq_ok.mpr ⟨hlen, rfl⟩)).trans ?_
    refine (bind_apply_of_ok (bytes_eq_ok.mpr ⟨hraw, rfl⟩)).trans ?_
    rw [lift, hk]
    rfl

theorem readCiphertext_panic :
    readCiphertext data pos = .error .panic ↔ data.length < pos + 4 := by
  constructor
  · intro hpanic
    by_contra hlen
    exact (bounded_ciphertext data pos (by omega)).1 hpanic
  · intro hlen
    refine bind_apply_of_error ?_
    rw [u32, uint32At_panic hlen]
    rfl

/-- The flag is set and the bytes end before the length of the Kyber ciphertext, or between its
end and the length of the ciphertext. -/
def CutBehindKyber (data : Bytes) (pos : Nat) : Prop :=
  byteAt (ε := Err) data pos = .ok 1 ∧ (data.length < pos + 9 ∨
    ∃ n : UInt32, uint32At (ε := Err) data (pos + 5) = .ok n ∧ n ≠ 0 ∧
      pos + 9 + n.toNat ≤ data.length ∧ data.length < pos + 9 + n.toNat + 4)

/-- The reader of a Kyber part whose flag and the four bytes behind it are there: the length is
missing, or it is there and the outcome is decided by it. -/
theorem readKyber_of_flag (hlen : pos + 5 ≤ data.length)
    (hflag : byteAt (ε := Err) data pos = .ok 1) :
    (data.length < pos + 9 ∧ readKyber data pos = .error .panic) ∨
    ∃ n : UInt32, pos + 9 ≤ data.length ∧ uint32At (ε := Err) data (pos + 5) = .ok n ∧
      ((n = 0 ∨ data.length < pos + 9 + n.toNat) ∧ (∃ e, readKyber data pos = .error (.err e)) ∨
        n ≠ 0 ∧ pos + 9 + n.toNat ≤ data.length ∧
          ∃ k, readKyber data pos = .ok (k, pos + 9 + n.toNat)) := by
  obtain ⟨id, hid⟩ : ∃ id, uint32At (ε := Err) data (pos + 1) = .ok id :=
    exists_uint32At (by omega)
  -- flag and id are inside of the data
  have hstart : readKyber data pos = (do
      let kyberLen ← u32
      if kyberLen = 0 then fail (messageErr "invalid kyber ciphertext length")
      else do
        need kyberLen.toNat (messageErr "invalid kyber ciphertext length")
        let ct ← bytes kyberLen.toNat
        return (some id, ct) : Decoder Err (Option UInt32 × Bytes)) data (pos + 5) := by
    refine (bind_apply_of_ok (u8_eq_ok.mpr ⟨hflag, rfl⟩)).trans ?_
    rw [if_pos rfl]
    exact bind_apply_of_ok (u32_eq_ok.mpr ⟨hid, rfl⟩)
  rw [hstart]
  by_cases hshort : data.length < pos + 9
  · refine .inl ⟨hshort, bind_apply_of_error ?_⟩
    rw [u32, uint32At_panic hshort]
    rfl
  · obtain ⟨n, hn⟩ : ∃ n, uint32At (ε := Err) data (pos + 5) = .ok n :=
      exists_uint32At (by omega)
    refine .inr ⟨n, by omega, hn, ?_⟩
    rw [bind_apply_of_ok (u32_eq_ok.mpr ⟨hn, rfl⟩)]
    by_cases hzero : n = 0
    · exact .inl ⟨.inl hzero, _, by rw [if_pos hzero]; rfl⟩
    · rw [if_neg hzero]
      by_cases hin : pos + 5 + 4 + n.toNat ≤ data.length
      · obtain ⟨ct, hct⟩ : ∃ ct, slice (ε := Err) data (pos + 5 + 4) (pos + 5 + 4 + n.toNat) =
          .ok ct :=
          ⟨_, slice_ok (by omega) hin⟩
        refine .inr ⟨hzero, hin, (some id, ct), ?_⟩
        rw [bind_apply_of_ok (need_eq_ok.mpr ⟨hin, rfl⟩),
          bind_apply_of_ok (bytes_eq_ok.mpr ⟨hct, rfl⟩)]
        rfl
      · refine .inl ⟨.inr (by omega), messageErr "invalid kyber ciphertext length",
          bind_apply_of_error ?_⟩
        rw [need, if_pos (by omega)]

theorem readKyber_of_no_flag (hlen : pos < data.length)
    (hflag : byteAt (ε := Err) data pos ≠ .ok 1) :
    readKyber data pos = .ok ((none, []), pos + 1) ∨ ∃ e, readKyber data pos = .error (.err e) := by
  have hbyte := byteAt_ok (ε := Err) hlen
  rw [hbyte] at hflag
  have hstart : readKyber data pos = _ := bind_apply_of_ok (u8_eq_ok.mpr ⟨hbyte, rfl⟩)
  rw [hstart, if_neg fun h => hflag (congrArg _ h)]
  split
  · exact .inr ⟨_, rfl⟩
  · exact .inl rfl

/-- The part of the message behind the signed pre-key. -/
theorem kyberAndCiphertext_panic (hlen : pos + 5 ≤ data.length)
    (f : Option UInt32 × Bytes → Bytes → Message) :
    (do let kyber ← readKyber
        let ct ← readCiphertext
        return f kyber ct : Decoder Err Message) data pos = .error .panic ↔
      CutBehindKyber data pos := by
  have hpure (kyber : Option UInt32 × Bytes) {pos' : Nat} :
      (do let ct ← readCiphertext
          return f kyber ct : Decoder Err Message) data pos' = .error .panic ↔
        data.length < pos' + 4 := by
    rw [← readCiphertext_panic]
    cases hct : readCiphertext data pos' with
    | ok ap => rw [bind_apply_of_ok (a := ap.1) hct]; exact ⟨nofun, nofun⟩
    | error e => rw [bind_apply_of_error hct, Except.error.injEq, Except.error.injEq]
  by_cases hflag : byteAt (ε := Err) data pos = .ok 1
  · rcases readKyber_of_flag hlen hflag with ⟨hshort, hpanic⟩ | ⟨n, hlong, hn, hcase⟩
    · rw [bind_apply_of_error hpanic]
      exact iff_of_true rfl ⟨hflag, .inl hshort⟩
    · have hsame (n' : UInt32) (hn' : uint32At (ε := Err) data (pos + 5) = .ok n') : n' = n :=
        Except.ok.inj (hn'.symm.trans hn)
      rcases hcase with ⟨hbad, e, herr⟩ | ⟨hne, hin, kyber, hok⟩
      · rw [bind_apply_of_error herr]
        refine iff_of_false nofun fun ⟨_, hcut⟩ => ?_
        rcases hcut with hcut | ⟨n', hn', hne', hin', -⟩
        · omega
        · rw [hsame n' hn'] at hne' hin'
          rcases hbad with hzero | hout
          · exact hne' hzero
          · omega
      · rw [bind_apply_of_ok hok, hpure kyber]
        refine ⟨fun hcut => ⟨hflag, .inr ⟨n, hn, hne, hin, hcut⟩⟩, fun ⟨_, hcut⟩ => ?_⟩
        rcases hcut with hcut | ⟨n', hn', -, -, hcut⟩
        · omega
        · rwa [hsame n' hn'] at hcut
  · -- without the flag the length of the ciphertext is next, and was checked for
    refine iff_of_false (fun hpanic => ?_) fun hcut => hflag hcut.1
    rcases readKyber_of_no_flag (by omega) hflag with hok | ⟨e, herr⟩
    · rw [bind_apply_of_ok hok, hpure _] at hpanic
      omega
    · rw [bind_apply_of_error herr] at hpanic
      cases hpanic

/-- Bytes that are accepted up to the flag of the Kyber part, at position 109, and end too early
behind it. -/
structure CutKyber (p : Prims) (data : Bytes) : Prop where
  version : data.head? = some messageSerializeVersion
  identityLength : uint16At (ε := Err) data 1 = .ok 65
  identity : ∃ raw k, slice (ε := Err) data 3 68 = .ok raw ∧ deserializeIdentityKey p raw = .ok k
  length : 114 ≤ data.length
  preKeyFlag : byteAt (ε := Err) data 100 = .ok 0 ∨ byteAt (ε := Err) data 100 = .ok 1
  kyber : CutBehindKyber data 109

/-- The pre-key flag is 0 or 1, and the id has its four bytes in both cases. -/
theorem readPreKeyID_eq_ok {pos' : Nat} {id : Option UInt32}
    (h : readPreKeyID data pos = .ok (id, pos')) :
    (byteAt (ε := Err) data pos = .ok 0 ∨ byteAt (ε := Err) data pos = .ok 1) ∧ pos' = pos + 5 := by
  obtain ⟨b, pos1, hu8, h⟩ := bind_apply_eq_ok.mp h
  obtain ⟨hb, rfl⟩ := u8_eq_ok.mp hu8
  split at h
  · rename_i hone
    obtain ⟨v, pos2, hu32, h⟩ := bind_apply_eq_ok.mp h
    obtain ⟨-, rfl⟩ := u32_eq_ok.mp hu32
    cases h
    exact ⟨.inr (hone ▸ hb), rfl⟩
  · split at h
    · cases h
    · rename_i hzero
      obtain ⟨raw, pos2, hbytes, h⟩ := bind_apply_eq_ok.mp h
      obtain ⟨-, rfl⟩ := bytes_eq_ok.mp hbytes
      cases h
      exact ⟨.inl (not_not.mp hzero ▸ hb), rfl⟩

theorem exists_readPreKeyID (hlen : pos + 5 ≤ data.length)
    (h : byteAt (ε := Err) data pos = .ok 0 ∨ byteAt (ε := Err) data pos = .ok 1) :
    ∃ id, readPreKeyID data pos = .ok (id, pos + 5) := by
  rcases h with h | h
  · refine ⟨none, (bind_apply_of_ok (u8_eq_ok.mpr ⟨h, rfl⟩)).trans ?_⟩
    rw [if_neg (by decide), if_neg (by decide)]
    exact bind_apply_of_ok (bytes_eq_ok.mpr ⟨slice_ok (by omega) hlen, rfl⟩)
  · obtain ⟨id, hid⟩ : ∃ id, uint32At (ε := Err) data (pos + 1) = .ok id :=
      exists_uint32At (by omega)
    refine ⟨some id, (bind_apply_of_ok (u8_eq_ok.mpr ⟨h, rfl⟩)).trans ?_⟩
    rw [if_pos rfl]
    exact bind_apply_of_ok (u32_eq_ok.mpr ⟨hid, rfl⟩)

/-- The reader of version 2 leaves the data exactly at the Kyber part. -/
theorem readMessage_panic (hversion : data.head? = some messageSerializeVersion)
    (hlen : 3 ≤ data.length) : readMessage p data 0 = .error .panic ↔ CutKyber p data := by
  obtain ⟨b, hb⟩ : ∃ b, byteAt (ε := Err) data 0 = .ok b := ⟨_, byteAt_ok (by omega)⟩
  have hstart : readMessage p data 0 = _ := bind_apply_of_ok (u8_eq_ok.mpr ⟨hb, rfl⟩)
  rw [hstart]
  constructor
  · -- up to the Kyber flag every read is inside of the data
    intro h
    obtain ⟨k, pos1, hid, h⟩ := (bounded_identity.bind_panic hlen).mp h
    obtain ⟨hlength, rfl, raw, hraw, hk⟩ := readIdentity_eq_ok.mp hid
    have hin := le_length_of_slice hraw
    obtain ⟨_, pos2, hneed, h⟩ := ((Bounded.need (k := 0) _ _).bind_panic hin).mp h
    obtain ⟨hlong, rfl⟩ := need_eq_ok.mp hneed
    obtain ⟨eph, pos3, heph, h⟩ := ((Bounded.array (k := 14) 32).bind_panic (by omega)).mp h
    obtain ⟨-, rfl⟩ := (read_eq_ok (f := ByteArr.ofBytes 32)).mp heph
    obtain ⟨pre, pos4, hpre, h⟩ := ((bounded_preKeyID (k := 9)).bind_panic (by omega)).mp h
    obtain ⟨hflag, rfl⟩ := readPreKeyID_eq_ok hpre
    obtain ⟨spk, pos5, hspk, h⟩ := ((Bounded.u32 (k := 5)).bind_panic (by omega)).mp h
    obtain ⟨-, rfl⟩ := u32_eq_ok.mp hspk
    exact ⟨hversion, hlength, ⟨raw, k, hraw, hk⟩, hlong, hflag,
      (kyberAndCiphertext_panic (by omega) _).mp h⟩
  · rintro ⟨-, hlength, ⟨raw, k, hraw, hk⟩, hlong, hflag, hcut⟩
    have hin : 100 + 5 ≤ data.length := by omega
    obtain ⟨pre, hpre⟩ := exists_readPreKeyID hin hflag
    obtain ⟨spk, hspk⟩ : ∃ spk, uint32At (ε := Err) data 105 = .ok spk := exists_uint32At (by omega)
    refine (bind_apply_of_ok (readIdentity_eq_ok.mpr ⟨hlength, rfl, raw, hraw, hk⟩)).trans ?_
    refine (bind_apply_of_ok (need_eq_ok.mpr ⟨hlong, rfl⟩)).trans ?_
    refine (bind_apply_of_ok ((read_eq_ok (f := ByteArr.ofBytes 32)).mpr
      ⟨⟨_, slice_ok (by omega) (by omega), rfl⟩, rfl⟩)).trans ?_
    refine (bind_apply_of_ok hpre).trans ((bind_apply_of_ok (u32_eq_ok.mpr ⟨hspk, rfl⟩)).trans ?_)
    exact (kyberAndCiphertext_panic (by omega) _).mpr hcut

/-- **Reads outside of the data.** The decoder of an initial message reads behind the end of its
input exactly when the input is cut in or right behind a Kyber part that its flag announces. -/
theorem deserializeMessage_total (p : Prims) (data : Bytes) :
    NoPanic (deserializeMessage p data) ↔ ¬ CutKyber p data := by
  refine not_congr ?_
  have hversion (h : CutKyber p data) : data.headD 0 = messageSerializeVersion := by
    rw [List.headD_eq_head?_getD, h.version, Option.getD_some]
  unfold deserializeMessage
  by_cases hempty : data.length < 1
  · rw [if_pos hempty]
    refine iff_of_false nofun fun h => ?_
    have := h.length
    omega
  · rw [if_neg hempty]
    by_cases hone : data.headD 0 = 1
    · simp only [if_pos hone]
      refine iff_of_false ?_ fun h => absurd (hone.symm.trans (hversion h)) (by decide)
      exact NoPanic.ite (fun _ => .err _) fun hlen => noPanic_readMessageV1 (by omega)
    · by_cases htwo : data.headD 0 = messageSerializeVersion
      · simp only [if_neg hone, if_neg (not_not.mpr htwo)]
        by_cases hshort : data.length < 1 + 2 + 32 + 1 + 4 + 4 + 1 + 4
        · rw [if_pos hshort]
          refine iff_of_false nofun fun h => ?_
          have := h.length
          omega
        · rw [if_neg hshort, run_eq_panic]
          refine readMessage_panic ?_ (by omega)
          obtain ⟨b, rest, rfl⟩ := List.exists_cons_of_length_pos (show 0 < data.length by omega)
          exact congrArg some htwo
      · simp only [if_neg hone, if_pos htwo]
        exact iff_of_false nofun fun h => htwo (hversion h)

/-- A message of 114 bytes whose last four stand where the id of the Kyber pre-key is read. -/
def sampleCutKyber : Bytes :=
  [messageSerializeVersion, 0, 65] ++ [1] ++ List.replicate 64 1
    ++ List.replicate 32 0 ++ List.replicate 9 0 ++ [1] ++ List.replicate 4 0

theorem deserializeMessage_total_cut :
    deserializeMessage toyPrims sampleCutKyber = .error .panic := by
  decide

end X3dh

end SignalGo
