import SignalGo.Suite
import SignalGo.Lib.LittleEndian

/-!
# XEdDSA signatures

`crypto/xeddsa.go`: Ed25519 signatures under Curve25519 keys. The signer clamps its private key
to a scalar `a`, signs under the Edwards point `A = a·B`, and puts the sign of `A` into the top
bit of the signature, which the scalar `s` leaves free. The verifier has only the Montgomery
coordinate `u` of `A`; it rebuilds `A` from `y = (u - 1)/(u + 1)` and that bit.

The group, its field, the encodings and SHA-512 are imported, so they are the fields of
`Edwards25519`, and `Edwards25519.Laws` names what is assumed of them. Scalars are numbers modulo
the order of the base point.

The result is completeness: what `xeddsaSign` returns verifies under the public key of the
private key. Its parts are `clamped_smul_ne_zero` (a clamped key never gives the neutral element,
so the way from Edwards to Montgomery and back is defined), `montgomeryToEdwards_montgomeryU` (the
verifier rebuilds the signer's point), `Scalar.masked_bytes` (the masks give `s` back), and
`verification_equation`.
-/

namespace SignalGo

open LittleEndian

/-! ## The imported group -/

/-- The order of the base point. -/
def groupOrder : Nat := 2 ^ 252 + 27742317777372353535851937790883648493

instance : NeZero groupOrder := ⟨by decide⟩

abbrev Scalar := ZMod groupOrder

namespace Scalar

/-- `SetUniformBytes`: 64 bytes, reduced. -/
def setUniformBytes (x : Bytes) : Except String Scalar :=
  if x.length = 64 then .ok (value x : Scalar)
  else .error "edwards25519: invalid SetUniformBytes input length"

/-- `Scalar.Bytes`. -/
def bytes (s : Scalar) : Key := ⟨encode 32 s.val, length_encode 32 _⟩

end Scalar

/-- What the code imports from `edwards25519`, its `field` package and `crypto/sha512`. -/
structure Edwards25519 where
  Elem : Type
  Point : Type
  [field : Field Elem]
  [elemEq : DecidableEq Elem]
  [group : AddCommGroup Point]
  basePoint : Point
  /-- The affine `y` coordinate of a point. -/
  y : Point → Elem
  /-- Whether the affine `x` coordinate is negative. -/
  xNegative : Point → Bool
  /-- `field.Element.Bytes`. -/
  elemBytes : Elem → Key
  /-- `field.Element.SetBytes`. -/
  elemSetBytes : Key → Elem
  /-- `Point.SetBytes`. -/
  pointSetBytes : Key → Except String Point
  sha512 : Bytes → ByteArr 64

attribute [instance] Edwards25519.field Edwards25519.elemEq Edwards25519.group

namespace Edwards25519

variable (e : Edwards25519)

/-- `Point.Bytes`: the coordinate `y` with the sign of `x` in the top bit. -/
def pointBytes (P : e.Point) : Key :=
  (e.elemBytes (e.y P)).modify 31 (· ||| if e.xNegative P then 0x80 else 0)

def scalarBaseMult (s : Scalar) : e.Point := s.val • e.basePoint

/-- `VarTimeDoubleScalarBaseMult(a, A, b)`. -/
def varTimeDoubleScalarBaseMult (a : Scalar) (A : e.Point) (b : Scalar) : e.Point :=
  a.val • A + b.val • e.basePoint

/-- The Montgomery coordinate `u = (1 + y)/(1 - y)` of a point. -/
def montgomeryU (P : e.Point) : e.Elem := (1 + e.y P) * (1 - e.y P)⁻¹

/-- What is assumed: the base point has the order above, the neutral element is the only point
with `y = 1`, an encoded coordinate leaves the top bit free, and decoding inverts encoding. -/
structure Laws : Prop where
  two_ne_zero : (2 : e.Elem) ≠ 0
  order : addOrderOf e.basePoint = groupOrder
  eq_zero_of_y (P : e.Point) : e.y P = 1 → P = 0
  elemBytes_top (x : e.Elem) : (e.elemBytes x).byte 31 &&& 0x80 = 0
  elemSetBytes_elemBytes (x : e.Elem) : e.elemSetBytes (e.elemBytes x) = x
  pointSetBytes_pointBytes (P : e.Point) : e.pointSetBytes (e.pointBytes P) = .ok P

end Edwards25519

/-! ## The code -/

variable (e : Edwards25519)

def clampCurve25519Scalar (s : Key) : Key :=
  ((s.modify 0 (· &&& 248)).modify 31 (· &&& 127)).modify 31 (· ||| 64)

/-- X25519 with the base point gives the Montgomery coordinate of the clamped multiple. -/
def Edwards25519.MultipliesBase (p : Prims) : Prop :=
  ∀ privateKey : Key, SignalGo.scalarBaseMult p privateKey = .ok (e.elemBytes
    (e.montgomeryU (value (clampCurve25519Scalar privateKey).toBytes • e.basePoint)))

def xeddsaHashPrefix : Key := ⟨0xFE :: List.replicate 31 0xFF, by decide⟩

def scalarFromBytesModOrder (s : Key) : Except Err Scalar :=
  (Scalar.setUniformBytes (ByteArr.ofBytes 64 s.toBytes).toBytes).mapError .new

def scalarFromHash (sum : Bytes) : Except Err Scalar :=
  if sum.length ≠ 64 then .error (.new s!"xeddsa: invalid hash length {sum.length}")
  else (Scalar.setUniformBytes sum).mapError .new

def montgomeryToEdwards (u : Key) (signBit : UInt8) : Option e.Point :=
  let uElem := e.elemSetBytes u
  let uPlusOne := uElem + 1
  if uPlusOne = 0 then none
  else
    let y := (uElem - 1) * uPlusOne⁻¹
    let yBytes := (e.elemBytes y).modify 31 (· &&& ~~~0x80)
    let yBytes := if signBit &&& 1 = 1 then yBytes.modify 31 (· ||| 0x80) else yBytes
    (e.pointSetBytes yBytes).toOption

/-- `xeddsaSign`; `rnd` is what reading 64 bytes from the randomness source gave. -/
def xeddsaSign (rnd : Except String (ByteArr 64)) (privateKey : Key) (messagePieces : List Bytes) :
    Except Err Bytes := do
  let randomBytes ← rnd.mapError fun err => .context "xeddsa: random" (.new err)
  let keyData := clampCurve25519Scalar privateKey
  let a ← scalarFromBytesModOrder keyData
  let edPubBytes := e.pointBytes (e.scalarBaseMult a)
  let signBit := edPubBytes.byte 31 &&& 0x80
  let r ← scalarFromHash (e.sha512 (xeddsaHashPrefix.toBytes ++ keyData.toBytes
    ++ messagePieces.flatten ++ randomBytes.toBytes)).toBytes
  let capR := e.pointBytes (e.scalarBaseMult r)
  let h ← scalarFromHash (e.sha512 (capR.toBytes ++ edPubBytes.toBytes
    ++ messagePieces.flatten)).toBytes
  let s : Scalar := h * a + r
  let sBytes := (s.bytes.modify 31 (· &&& 0x7f)).modify 31 (· ||| signBit)
  return capR.toBytes ++ sBytes.toBytes

def xeddsaVerify (publicKey : Key) (signature : Bytes) (messagePieces : List Bytes) : Bool :=
  if signature.length ≠ 64 then false
  else
    let signBit := ((ByteArr.ofBytes 64 signature).byte 63 &&& 0x80) >>> 7
    match montgomeryToEdwards e publicKey signBit with
    | none => false
    | some edPub =>
        let capR : Key := .ofBytes 32 (signature.take 32)
        let sBytes := (ByteArr.ofBytes 32 (signature.drop 32) : Key).modify 31 (· &&& 0x7f)
        -- a scalar below the group order has its three highest bits clear
        if sBytes.byte 31 &&& 0xe0 ≠ 0 then false
        else
          match scalarFromBytesModOrder sBytes, scalarFromHash (e.sha512 (capR.toBytes
              ++ (e.pointBytes edPub).toBytes ++ messagePieces.flatten)).toBytes with
          | .ok s, .ok h =>
              e.pointBytes (e.varTimeDoubleScalarBaseMult h (-edPub) s) = capR
          | _, _ => false

/-! ## Scalars -/

/-- A fact about every byte is checked on the 256 of them. -/
theorem forall_byte {P : UInt8 → Prop} (h : ∀ n < 256, P (.ofNat n)) (b : UInt8) : P b := by
  rw [← UInt8.ofNat_toNat (x := b)]
  exact h _ b.toNat_lt

theorem scalarFromBytesModOrder_eq (s : Key) :
    scalarFromBytesModOrder s = .ok (value s.toBytes : Scalar) := by
  have hwide : (ByteArr.ofBytes 64 s.toBytes).toBytes = s.toBytes ++ List.replicate 32 0 := by
    show (s.toBytes ++ List.replicate 64 0).take 64 = _
    simp [List.take_append]
  rw [scalarFromBytesModOrder, Scalar.setUniformBytes, if_pos (by simp), hwide, value_append,
    value_zeros, mul_zero, add_zero]
  rfl

theorem scalarFromHash_eq (sum : ByteArr 64) :
    scalarFromHash sum.toBytes = .ok (value sum.toBytes : Scalar) := by
  rw [scalarFromHash, if_neg (by simp), Scalar.setUniformBytes, if_pos (by simp)]
  rfl

theorem Scalar.value_bytes (s : Scalar) : (value s.bytes.toBytes : Scalar) = s := by
  have hlt : s.val < 256 ^ 32 := (ZMod.val_lt s).trans (by decide)
  rw [show s.bytes.toBytes = encode 32 s.val from rfl, value_encode, Nat.mod_eq_of_lt hlt]
  exact ZMod.natCast_zmod_val s

theorem byte_encode (n : Nat) :
    ByteArr.byte (n := 32) ⟨encode 32 n, length_encode 32 n⟩ 31 = .ofNat (n / 256 ^ 31 % 256) := by
  show (encode 32 n).getD 31 0 = _
  rw [encode_succ, List.getD_append_right _ _ _ _ (by simp), length_encode]
  rfl

/-- A reduced scalar leaves the three highest bits of its encoding free. -/
theorem Scalar.byte_bytes_lt (s : Scalar) : s.bytes.byte 31 < 32 := by
  have hlt : s.val / 256 ^ 31 < 32 := by
    rw [Nat.div_lt_iff_lt_mul (by decide)]
    exact (ZMod.val_lt s).trans (by decide)
  rw [Scalar.bytes, byte_encode, UInt8.lt_iff_toNat_lt, toNat_ofNat_mod]
  show s.val / 256 ^ 31 % 256 < 32
  omega

/-! ## Clamped keys -/

/-- A key by its first byte, its last byte and what is between them. -/
theorem Key.exists_ends (k : Key) :
    ∃ (b : UInt8) (mid : Bytes) (c : UInt8), mid.length = 30 ∧ k.toBytes = b :: (mid ++ [c]) := by
  obtain ⟨bs, hbs⟩ := k
  obtain - | ⟨b, rest⟩ := bs
  · cases hbs
  · have hne : rest ≠ [] := by rintro rfl; cases hbs
    refine ⟨b, rest.dropLast, rest.getLast hne, ?_, ?_⟩
    · rw [List.length_dropLast]
      simp at hbs
      omega
    · show b :: rest = _
      rw [List.dropLast_append_getLast]

theorem toBytes_clampCurve25519Scalar {s : Key} {b : UInt8} {mid : Bytes} {c : UInt8}
    (hmid : mid.length = 30) (hs : s.toBytes = b :: (mid ++ [c])) :
    (clampCurve25519Scalar s).toBytes = (b &&& 248) :: (mid ++ [(c &&& 127) ||| 64]) := by
  have hlast (d : UInt8) (x : UInt8) (f : UInt8 → UInt8) :
      (d :: (mid ++ [x])).modify 31 f = d :: (mid ++ [f x]) := by
    rw [List.modify_succ_cons, ← hmid, ByteArr.modify_concat]
  rw [clampCurve25519Scalar, ByteArr.toBytes_modify, ByteArr.toBytes_modify,
    ByteArr.toBytes_modify, hs, List.modify_zero_cons, hlast, hlast]

/-- A clamped key is a multiple of the cofactor 8 and has its highest bit at position 254. -/
theorem value_clampCurve25519Scalar (s : Key) :
    ∃ m, value (clampCurve25519Scalar s).toBytes = 8 * m ∧ 0 < m ∧ m < 2 ^ 252 := by
  obtain ⟨b, mid, c, hmid, hs⟩ := s.exists_ends
  have hlow : (b &&& 248).toNat % 8 = 0 := forall_byte (P := fun b => (b &&& 248).toNat % 8 = 0)
    (by decide +kernel) b
  have hhigh : 64 ≤ ((c &&& 127) ||| 64).toNat ∧ ((c &&& 127) ||| 64).toNat < 128 :=
    forall_byte (P := fun c => 64 ≤ ((c &&& 127) ||| 64).toNat ∧ ((c &&& 127) ||| 64).toNat < 128)
      (by decide +kernel) c
  have hb := (b &&& 248).toNat_lt
  have hrest := value_lt mid
  rw [toBytes_clampCurve25519Scalar hmid hs, value, value_append, hmid]
  rw [hmid] at hrest
  simp only [value]
  refine ⟨((b &&& 248).toNat + 256 * (value mid + 256 ^ 30
    * (((c &&& 127) ||| 64).toNat + 256 * 0))) / 8, ?_, ?_, ?_⟩ <;> omega

/-- The order is odd and above `2 ^ 252`, so it divides no clamped key. -/
theorem not_dvd_clampCurve25519Scalar (s : Key) :
    ¬ groupOrder ∣ value (clampCurve25519Scalar s).toBytes := by
  obtain ⟨m, hm, hpos, hlt⟩ := value_clampCurve25519Scalar s
  rw [hm]
  intro hdvd
  have hodd : Nat.Coprime groupOrder 8 := by decide +kernel
  have hle := Nat.le_of_dvd hpos (hodd.dvd_of_dvd_mul_left hdvd)
  have horder : 2 ^ 252 ≤ groupOrder := Nat.le_add_right _ _
  omega

/-! ## Multiples of the base point -/

section Group

variable {e} (laws : e.Laws)

include laws

/-- A multiple of the base point depends on the factor modulo the order only. -/
theorem Edwards25519.Laws.scalarBaseMult_natCast (n : Nat) :
    e.scalarBaseMult (n : Scalar) = n • e.basePoint := by
  rw [Edwards25519.scalarBaseMult, ZMod.val_natCast, ← laws.order]
  exact mod_addOrderOf_nsmul e.basePoint n

theorem Edwards25519.Laws.clamped_smul_ne_zero (privateKey : Key) :
    value (clampCurve25519Scalar privateKey).toBytes • e.basePoint ≠ 0 := by
  intro h
  have hdvd := addOrderOf_dvd_of_nsmul_eq_zero h
  rw [laws.order] at hdvd
  exact not_dvd_clampCurve25519Scalar privateKey hdvd

/-- What the verifier computes from an honest `s` is the signer's commitment. -/
theorem Edwards25519.Laws.verification_equation (h a r : Scalar) :
    e.varTimeDoubleScalarBaseMult h (-(e.scalarBaseMult a)) (h * a + r) = e.scalarBaseMult r := by
  have hs : (h * a + r).val • e.basePoint = (h.val * a.val + r.val) • e.basePoint := by
    rw [← laws.scalarBaseMult_natCast (h.val * a.val + r.val), Edwards25519.scalarBaseMult]
    simp
  rw [Edwards25519.varTimeDoubleScalarBaseMult, hs, Edwards25519.scalarBaseMult,
    Edwards25519.scalarBaseMult, add_nsmul, mul_nsmul', smul_neg]
  abel

/-- Back from the Montgomery coordinate of a point other than the neutral element. -/
theorem Edwards25519.Laws.edwards_of_montgomery {P : e.Point} (hP : P ≠ 0) :
    e.montgomeryU P + 1 ≠ 0
      ∧ (e.montgomeryU P - 1) * (e.montgomeryU P + 1)⁻¹ = e.y P := by
  have h2 := laws.two_ne_zero
  have hy : 1 - e.y P ≠ 0 := fun h => hP (laws.eq_zero_of_y P (sub_eq_zero.mp h).symm)
  have hplus : e.montgomeryU P + 1 = 2 * (1 - e.y P)⁻¹ := by
    rw [Edwards25519.montgomeryU]
    field_simp
    ring
  have hminus : e.montgomeryU P - 1 = 2 * e.y P * (1 - e.y P)⁻¹ := by
    rw [Edwards25519.montgomeryU]
    field_simp
    ring
  refine ⟨?_, ?_⟩
  · rw [hplus]
    exact mul_ne_zero h2 (inv_ne_zero hy)
  · rw [hplus, hminus]
    field_simp

/-- The verifier rebuilds the signer's point from its Montgomery coordinate and its sign. -/
theorem Edwards25519.Laws.montgomeryToEdwards_montgomeryU {P : e.Point} (hP : P ≠ 0) :
    montgomeryToEdwards e (e.elemBytes (e.montgomeryU P))
      (((e.pointBytes P).byte 31 &&& 0x80) >>> 7) = some P := by
  obtain ⟨hne, hy⟩ := laws.edwards_of_montgomery hP
  have htop := laws.elemBytes_top (e.y P)
  have hclear : (e.elemBytes (e.y P)).modify 31 (· &&& ~~~0x80) = e.elemBytes (e.y P) :=
    ByteArr.modify_id _ _ (forall_byte (P := fun b => b &&& 0x80 = 0 → b &&& ~~~0x80 = b)
      (by decide +kernel) _ htop)
  have hsign : (((e.pointBytes P).byte 31 &&& 0x80) >>> 7) &&& 1
      = if e.xNegative P then 1 else 0 := by
    rw [Edwards25519.pointBytes, ByteArr.byte_modify_self _ (by decide)]
    cases e.xNegative P with
    | false =>
      exact forall_byte (P := fun b => b &&& 0x80 = 0 → (((b ||| 0) &&& 0x80) >>> 7) &&& 1 = 0)
        (by decide +kernel) _ htop
    | true =>
      exact forall_byte (P := fun b => (((b ||| 0x80) &&& 0x80) >>> 7) &&& 1 = 1)
        (by decide +kernel) _
  have hbytes : (if (((e.pointBytes P).byte 31 &&& 0x80) >>> 7) &&& 1 = 1
      then (e.elemBytes (e.y P)).modify 31 (· ||| 0x80) else e.elemBytes (e.y P))
      = e.pointBytes P := by
    rw [hsign, Edwards25519.pointBytes]
    cases e.xNegative P with
    | false =>
      rw [if_neg (by decide)]
      exact (ByteArr.modify_id _ _ (UInt8.or_zero)).symm
    | true => rfl
  simp only [montgomeryToEdwards, laws.elemSetBytes_elemBytes, if_neg hne, hy, hclear]
  rw [hbytes, laws.pointSetBytes_pointBytes]
  rfl

end Group

/-! ## Completeness -/

/-- The masks of signer and verifier cancel: `s` comes back, and the bit put above it is the
sign bit the verifier reads. -/
theorem Scalar.masked_bytes (s : Scalar) {signBit : UInt8} (hsign : signBit &&& 0x80 = signBit) :
    ((((s.bytes.modify 31 (· &&& 0x7f)).modify 31 (· ||| signBit)).modify 31 (· &&& 0x7f)) =
      s.bytes)
    ∧ ((s.bytes.modify 31 (· &&& 0x7f)).modify 31 (· ||| signBit)).byte 31 &&& 0x80 = signBit
    ∧ s.bytes.byte 31 &&& 0xe0 = 0 := by
  have hlt := s.byte_bytes_lt
  have hcases : signBit = 0 ∨ signBit = 0x80 :=
    forall_byte (P := fun c => c &&& 0x80 = c → c = 0 ∨ c = 0x80) (by decide +kernel) signBit hsign
  refine ⟨?_, ?_, ?_⟩
  · rw [ByteArr.modify_modify, ByteArr.modify_modify]
    apply ByteArr.modify_id
    revert hlt
    obtain rfl | rfl := hcases
    · exact forall_byte (P := fun b => b < 32 → (b &&& 0x7f ||| 0) &&& 0x7f = b)
        (by decide +kernel) _
    · exact forall_byte (P := fun b => b < 32 → (b &&& 0x7f ||| 0x80) &&& 0x7f = b)
        (by decide +kernel) _
  · rw [ByteArr.byte_modify_self _ (by decide), ByteArr.byte_modify_self _ (by decide)]
    obtain rfl | rfl := hcases
    · exact forall_byte (P := fun b => (b &&& 0x7f ||| 0) &&& 0x80 = 0) (by decide +kernel) _
    · exact forall_byte (P := fun b => (b &&& 0x7f ||| 0x80) &&& 0x80 = 0x80)
        (by decide +kernel) _
  · exact forall_byte (P := fun b => b < 32 → b &&& 0xe0 = 0) (by decide +kernel) _ hlt

/-- The challenge `h`: the hash of commitment, Edwards key and message. -/
def challenge (capR edPubBytes : Key) (message : Bytes) : Scalar :=
  (value (e.sha512 (capR.toBytes ++ edPubBytes.toBytes ++ message)).toBytes : Scalar)

/-- What the signer returns, for some commitment scalar `r`. -/
theorem xeddsaSign_ok (randomBytes : ByteArr 64) (privateKey : Key) (pieces : List Bytes) :
    let a : Scalar := (value (clampCurve25519Scalar privateKey).toBytes : Scalar)
    let edPubBytes := e.pointBytes (e.scalarBaseMult a)
    ∃ r : Scalar,
      let capR := e.pointBytes (e.scalarBaseMult r)
      let s : Scalar := challenge e capR edPubBytes pieces.flatten * a + r
      xeddsaSign e (.ok randomBytes) privateKey pieces = .ok (capR.toBytes
        ++ ((s.bytes.modify 31 (· &&& 0x7f)).modify 31
          (· ||| (edPubBytes.byte 31 &&& 0x80))).toBytes) := by
  refine ⟨(value (e.sha512 (xeddsaHashPrefix.toBytes
    ++ (clampCurve25519Scalar privateKey).toBytes ++ pieces.flatten
    ++ randomBytes.toBytes)).toBytes : Scalar), ?_⟩
  simp only [xeddsaSign, Except.mapError, ok_bind, scalarFromBytesModOrder_eq, scalarFromHash_eq,
    challenge]
  rfl

theorem length_xeddsaSign {e : Edwards25519} {rnd : Except String (ByteArr 64)} {privateKey : Key}
    {pieces : List Bytes} {signature : Bytes}
    (h : xeddsaSign e rnd privateKey pieces = .ok signature) : signature.length = 64 := by
  cases rnd with
  | error err => cases h
  | ok randomBytes =>
    obtain ⟨r, hsign⟩ := xeddsaSign_ok e randomBytes privateKey pieces
    cases hsign.symm.trans h
    simp

/-- The last byte of a signature of two halves. -/
theorem byte_halves (capR sBytes : Key) :
    (ByteArr.ofBytes 64 (capR.toBytes ++ sBytes.toBytes)).byte 63 = sBytes.byte 31 := by
  rw [ByteArr.byte, ByteArr.toBytes_ofBytes (by simp), List.getD_append_right _ _ _ _ (by simp),
    capR.length_toBytes]
  rfl

theorem and_signBit (b : UInt8) : (b &&& 0x80) &&& 0x80 = b &&& 0x80 := by
  rw [UInt8.and_assoc, UInt8.and_self]

/-- A signature carries the sign of the signer's point. -/
theorem signBit_xeddsaSign {e : Edwards25519} {randomBytes : ByteArr 64} {privateKey : Key}
    {pieces : List Bytes} {signature : Bytes}
    (h : xeddsaSign e (.ok randomBytes) privateKey pieces = .ok signature) :
    (ByteArr.ofBytes 64 signature).byte 63 &&& 0x80 = (e.pointBytes (e.scalarBaseMult
      (value (clampCurve25519Scalar privateKey).toBytes : Scalar))).byte 31 &&& 0x80 := by
  obtain ⟨r, hsign⟩ := xeddsaSign_ok e randomBytes privateKey pieces
  cases hsign.symm.trans h
  rw [byte_halves]
  exact (Scalar.masked_bytes _ (and_signBit _)).2.1

/-- The verifier on a signature of two halves. -/
theorem xeddsaVerify_append (publicKey capR sBytes : Key) (pieces : List Bytes) {A : e.Point}
    (hA : montgomeryToEdwards e publicKey ((sBytes.byte 31 &&& 0x80) >>> 7) = some A)
    (hmask : (sBytes.modify 31 (· &&& 0x7f)).byte 31 &&& 0xe0 = 0) :
    xeddsaVerify e publicKey (capR.toBytes ++ sBytes.toBytes) pieces
      = decide (e.pointBytes (e.varTimeDoubleScalarBaseMult
          (challenge e capR (e.pointBytes A) pieces.flatten) (-A)
          (value (sBytes.modify 31 (· &&& 0x7f)).toBytes : Scalar)) = capR) := by
  have hlen : (capR.toBytes ++ sBytes.toBytes).length = 64 := by simp
  have htake : (capR.toBytes ++ sBytes.toBytes).take 32 = capR.toBytes :=
    List.take_left' capR.length_toBytes
  have hdrop : (capR.toBytes ++ sBytes.toBytes).drop 32 = sBytes.toBytes :=
    List.drop_left' capR.length_toBytes
  rw [xeddsaVerify, if_neg (not_not.mpr hlen)]
  simp only [byte_halves, hA, htake, hdrop, ByteArr.ofBytes_toBytes, hmask, ne_eq,
    not_true_eq_false, if_false, scalarFromBytesModOrder_eq, scalarFromHash_eq]
  rfl

/-- A signature verifies under the Montgomery coordinate of the signer's point, however the message
is cut into pieces. -/
theorem xeddsaVerify_xeddsaSign (laws : e.Laws) (privateKey : Key) (randomBytes : ByteArr 64)
    {pieces pieces' : List Bytes} (hsame : pieces'.flatten = pieces.flatten) :
    ∃ signature, xeddsaSign e (.ok randomBytes) privateKey pieces = .ok signature
      ∧ xeddsaVerify e (e.elemBytes (e.montgomeryU
          (value (clampCurve25519Scalar privateKey).toBytes • e.basePoint))) signature pieces'
        = true := by
  obtain ⟨r, hsign⟩ := xeddsaSign_ok e randomBytes privateKey pieces
  refine ⟨_, hsign, ?_⟩
  generalize hn : value (clampCurve25519Scalar privateKey).toBytes = n
  -- the point whose Montgomery coordinate is the public key is the one the signer used
  have hpoint : n • e.basePoint = e.scalarBaseMult (n : Scalar) :=
    (laws.scalarBaseMult_natCast n).symm
  have hne : e.scalarBaseMult (n : Scalar) ≠ 0 := by
    rw [← hpoint, ← hn]
    exact laws.clamped_smul_ne_zero privateKey
  set capR := e.pointBytes (e.scalarBaseMult r)
  set s : Scalar := challenge e capR (e.pointBytes (e.scalarBaseMult (n : Scalar))) pieces.flatten
    * n + r with hs
  obtain ⟨hback, hread, htop⟩ := s.masked_bytes
    (and_signBit ((e.pointBytes (e.scalarBaseMult (n : Scalar))).byte 31))
  rw [hpoint, xeddsaVerify_append e _ _ _ _
    (by rw [hread]; exact laws.montgomeryToEdwards_montgomeryU hne) (by rw [hback]; exact htop),
    hback, s.value_bytes, hsame, hs, laws.verification_equation]
  exact decide_eq_true rfl

/-- **Completeness.** For every private key, message and signing randomness the signer returns a
signature, and it verifies under the X25519 public key of the private key, however the message is
cut into pieces. -/
theorem xeddsa_complete (laws : e.Laws) {p : Prims} (hbase : e.MultipliesBase p)
    (privateKey : Key) (randomBytes : ByteArr 64) {pieces pieces' : List Bytes}
    (hsame : pieces'.flatten = pieces.flatten) :
    ∃ publicKey signature, scalarBaseMult p privateKey = .ok publicKey
      ∧ xeddsaSign e (.ok randomBytes) privateKey pieces = .ok signature
      ∧ xeddsaVerify e publicKey signature pieces' = true := by
  obtain ⟨signature, hsign, hverify⟩ :=
    xeddsaVerify_xeddsaSign e laws privateKey randomBytes hsame
  exact ⟨_, signature, hbase privateKey, hsign, hverify⟩

/-- The suite whose signatures are the ones of this module; `rnd` are the 64 bytes read. -/
def Suite.withXEdDSA (s : Suite) : Suite :=
  { s with
    xeddsaSign := fun rnd privateKey message =>
      (SignalGo.xeddsaSign e (.ok (.ofBytes 64 rnd)) privateKey [message]).mapError Err.text
    xeddsaVerify := fun publicKey signature message =>
      SignalGo.xeddsaVerify e publicKey signature [message] }

/-- The assumption of the group layer holds of the repository's own signatures. -/
theorem Suite.signLaws_withXEdDSA (laws : e.Laws) {s : Suite} (hbase : e.MultipliesBase s.toPrims) :
    (s.withXEdDSA e).SignLaws where
  complete {privateKey publicKey} h rnd message := by
    obtain ⟨signature, hsign, hverify⟩ :=
      xeddsaVerify_xeddsaSign e laws privateKey (.ofBytes 64 rnd) rfl
    have hpub := hbase privateKey
    rw [show SignalGo.scalarBaseMult s.toPrims privateKey = .ok publicKey from h] at hpub
    cases hpub
    refine ⟨signature, ?_, length_xeddsaSign hsign, hverify⟩
    show Except.mapError Err.text (SignalGo.xeddsaSign e _ privateKey [message]) = _
    rw [hsign]
    rfl

/-! ## An instance

A group of the right order with coordinates in a field of `3 ^ 160` elements: the laws speak of
orders, one coordinate and encodings only, so any numbering of the field gives coordinates. -/

section Instance

/-- The field's elements in some order, the unit first. -/
noncomputable def sampleNumbering : GaloisField 3 160 ≃ Fin (3 ^ 160) :=
  let E := Finite.equivFinOfCardEq (GaloisField.card 3 160 (by decide))
  E.trans (Equiv.swap (E 1) 0)

theorem sampleNumbering_one : sampleNumbering 1 = 0 := by
  simp [sampleNumbering]

theorem Scalar.val_lt_sample (s : Scalar) : s.val < 3 ^ 160 := (ZMod.val_lt s).trans (by decide)

open Classical in
/-- The base point is `1` of the numbers modulo the group order, the point `P` has the field element
of number `P` as its coordinate, and its sign is the parity of `P`. The hash keeps the end of the
message. -/
noncomputable def sampleCurve : Edwards25519 where
  Elem := GaloisField 3 160
  Point := Scalar
  basePoint := 1
  y P := sampleNumbering.symm ⟨P.val, P.val_lt_sample⟩
  xNegative P := P.val % 2 = 1
  elemBytes x := ⟨encode 32 (sampleNumbering x), length_encode 32 _⟩
  elemSetBytes k := sampleNumbering.symm (.ofNat _ (value k.toBytes))
  pointSetBytes k := .ok (value (k.modify 31 (· &&& 0x7f)).toBytes : Scalar)
  sha512 m := ⟨encode 64 (value m.reverse), length_encode 64 _⟩

theorem sampleCurve_pointBytes (P : Scalar) : sampleCurve.pointBytes P
    = P.bytes.modify 31 (· ||| if decide (P.val % 2 = 1) then 0x80 else 0) := by
  have hy : sampleCurve.elemBytes (sampleCurve.y P) = P.bytes := by
    apply ByteArr.ext
    show encode 32 (sampleNumbering (sampleNumbering.symm ⟨P.val, P.val_lt_sample⟩)).val = _
    rw [Equiv.apply_symm_apply]
    rfl
  exact congrArg (ByteArr.modify · 31 (· ||| if decide (P.val % 2 = 1) then 0x80 else 0)) hy

theorem sampleCurve_laws : sampleCurve.Laws where
  two_ne_zero h := by
    have h3 : (3 : Nat) ∣ 2 := (CharP.cast_eq_zero_iff (GaloisField 3 160) 3 2).mp
      (by exact_mod_cast h)
    omega
  order := ZMod.addOrderOf_one groupOrder
  eq_zero_of_y := fun (P : Scalar) h => by
    have hP : (⟨P.val, P.val_lt_sample⟩ : Fin (3 ^ 160)) = 0 := by
      rw [← sampleNumbering_one, ← Equiv.symm_apply_eq]
      exact h
    have hval : P.val = 0 := Fin.val_eq_of_eq hP
    exact (ZMod.val_eq_zero P).mp hval
  elemBytes_top x := by
    have hlt : (sampleNumbering x).val / 256 ^ 31 < 128 := by
      rw [Nat.div_lt_iff_lt_mul (by decide)]
      exact (sampleNumbering x).isLt.trans (by decide)
    show ByteArr.byte ⟨encode 32 (sampleNumbering x).val, _⟩ 31 &&& 0x80 = 0
    rw [byte_encode, Nat.mod_eq_of_lt (by omega)]
    revert hlt
    generalize (sampleNumbering x).val / 256 ^ 31 = d
    revert d
    decide +kernel
  elemSetBytes_elemBytes := fun (x : GaloisField 3 160) => by
    show sampleNumbering.symm (.ofNat _ (value (encode 32 (sampleNumbering x).val))) = x
    have hlt : (sampleNumbering x).val < 256 ^ 32 := (sampleNumbering x).isLt.trans (by decide)
    rw [value_encode, Nat.mod_eq_of_lt hlt, Fin.ofNat_val_eq_self, Equiv.symm_apply_apply]
  pointSetBytes_pointBytes := fun (P : Scalar) => by
    have hclear : (sampleCurve.pointBytes P).modify 31 (· &&& 0x7f) = P.bytes := by
      rw [sampleCurve_pointBytes, ByteArr.modify_modify]
      refine ByteArr.modify_id _ _ (forall_byte (P := fun b => b < 32 → _ = b) ?_ _ P.byte_bytes_lt)
      cases decide (P.val % 2 = 1) <;> decide +kernel
    show Except.ok (value ((sampleCurve.pointBytes P).modify 31 (· &&& 0x7f)).toBytes : Scalar) = _
    rw [hclear, P.value_bytes]
    rfl

/-- The toy primitives with the X25519 of the sample curve. -/
noncomputable def samplePrims : Prims :=
  { toyPrims with
    x25519 := fun privateKey _ => .ok (sampleCurve.elemBytes (sampleCurve.montgomeryU
      (value (clampCurve25519Scalar privateKey).toBytes • sampleCurve.basePoint))) }

/-- The key is one whose point has its sign bit set, and so has the signature. -/
theorem xeddsa_complete_sample :
    ∃ publicKey signature, scalarBaseMult samplePrims (Key.fill 0x10) = .ok publicKey
      ∧ xeddsaSign sampleCurve (.ok (.ofBytes 64 [5])) (Key.fill 0x10) [[1, 2], [3]] = .ok signature
      ∧ xeddsaVerify sampleCurve publicKey signature [[1], [2, 3]] = true
      ∧ (ByteArr.ofBytes 64 signature).byte 63 &&& 0x80 = 0x80 := by
  obtain ⟨publicKey, signature, hpublic, hsign, hverify⟩ := xeddsa_complete sampleCurve
    (p := samplePrims) sampleCurve_laws (fun _ => rfl) (Key.fill 0x10) (.ofBytes 64 [5])
    (show ([[1], [2, 3]] : List Bytes).flatten = [[1, 2], [3]].flatten from rfl)
  refine ⟨publicKey, signature, hpublic, hsign, hverify, ?_⟩
  have hodd : (value (clampCurve25519Scalar (Key.fill 0x10)).toBytes : Scalar).val % 2 = 1 := by
    rw [ZMod.val_natCast]
    decide +kernel
  have hpoint (a : Scalar) : sampleCurve.scalarBaseMult a = a :=
    Eq.trans (nsmul_one (A := Scalar) a.val) (ZMod.natCast_zmod_val a)
  rw [signBit_xeddsaSign hsign, hpoint, sampleCurve_pointBytes,
    ByteArr.byte_modify_self _ (by decide), hodd]
  exact forall_byte (P := fun b => (b ||| 0x80) &&& 0x80 = 0x80) (by decide +kernel) _

end Instance

end SignalGo
