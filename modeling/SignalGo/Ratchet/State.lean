import SignalGo.Crypto

/-!
# Double Ratchet: chains, root steps and the state

The `ratchet` package's state and the functions that derive keys from it, as the code has
them. A Go map is an `ExtTreeMap` (a set an `ExtTreeSet`) ordered as the serializer sorts its
keys. A function that mutates the state returns the new state, and an error drops it: the
package's callers work on a clone and keep it only on success.

Randomness is an argument: `rnd` stands for the bytes `GenerateKeyPair` reads.
-/

namespace SignalGo.Ratchet

open Std (ExtTreeMap ExtTreeSet)

variable (p : Prims)

/-! ## Key derivation -/

/-- `KDFChain`: the next chain key and the message key of a chain key. -/
def kdfChain (chainKey : Key) : Key × Key :=
  (p.hmacSHA256 chainKey.toBytes [0x02], p.hmacSHA256 chainKey.toBytes [0x01])

/-- `DeriveMessageKeysWithSalt`: encryption key, authentication key and IV. The error of
`HKDF` the code drops cannot occur at this length. -/
def deriveMessageKeysWithSalt (messageKey : Key) (salt : Bytes) : Bytes × Bytes × Bytes :=
  let okm := (hkdfBytes p messageKey.toBytes salt "WhisperMessageKeys".toUTF8.toList
    (32 + 32 + 16)).toBytes
  (okm.take 32, (okm.take 64).drop 32, (okm.take 80).drop 64)

def deriveMessageKeys (messageKey : Key) : Bytes × Bytes × Bytes :=
  deriveMessageKeysWithSalt p messageKey []

/-- `KDFRoot`: the new root key and a chain key. -/
def kdfRoot (rootKey dhOutput : Key) : Except Err (Key × Key) := do
  let okm ← (hkdf p dhOutput.toBytes rootKey.toBytes "WhisperRatchet".toUTF8.toList 64).mapError
    (.context "kdf root")
  return (.ofBytes 32 (okm.toBytes.take 32), .ofBytes 32 ((okm.toBytes.take 64).drop 32))

/-- What `KDFRoot` returns: its length check always passes. -/
def rootStep (rootKey dhOutput : Key) : Key × Key :=
  let okm := hkdfBytes p dhOutput.toBytes rootKey.toBytes "WhisperRatchet".toUTF8.toList 64
  (.ofBytes 32 (okm.toBytes.take 32), .ofBytes 32 ((okm.toBytes.take 64).drop 32))

@[simp] theorem kdfRoot_eq (rk out : Key) : kdfRoot p rk out = .ok (rootStep p rk out) := by
  rw [kdfRoot, hkdf_ok p (by decide)]
  rfl

/-! ## The state -/

/-- Index of a skipped message key. -/
structure SkippedKey where
  publicKey : Key
  n : UInt32
  deriving DecidableEq

/-- The order the serializer sorts by: the public key, then the number. -/
instance : Ord SkippedKey :=
  ⟨compareLex (compareOn SkippedKey.publicKey) (compareOn SkippedKey.n)⟩

instance : Std.TransOrd SkippedKey :=
  inferInstanceAs (Std.TransCmp (compareLex (compareOn SkippedKey.publicKey)
    (compareOn SkippedKey.n)))

instance : Std.LawfulEqOrd SkippedKey where
  eq_of_compare {a b} h := by
    have h' : (compare a.publicKey b.publicKey).then (compare a.n b.n) = .eq := h
    rw [Ordering.then_eq_eq] at h'
    cases a
    cases b
    simp only [SkippedKey.mk.injEq]
    exact ⟨Std.LawfulEqOrd.eq_of_compare h'.1, Std.LawfulEqOrd.eq_of_compare h'.2⟩

structure State where
  dhs : Option KeyPair
  dhr : Option Key
  rk : Key
  cks : Key
  ckr : Key
  ns : UInt32
  nr : UInt32
  pn : UInt32
  mkSkipped : ExtTreeMap SkippedKey Key
  seenDH : ExtTreeSet Key

structure Header where
  dh : Key
  pn : UInt32
  n : UInt32
  deriving DecidableEq

def Header.serialize (h : Header) : Bytes :=
  h.dh.toBytes ++ putUint32 h.pn ++ putUint32 h.n

/-- `skippedKeyForHeader` for a header that is not nil. -/
def skippedKeyForHeader (header : Header) : SkippedKey := ⟨header.dh, header.n⟩

def maxUint32 : UInt32 := 0xFFFFFFFF

/-- `MaxSkip`. -/
def maxSkip : Nat := 1000

/-! ## Skipped message keys -/

/-- One iteration of the loop in `skipMessageKeys`: the key of the message number `Nr` goes
into `MKSkipped` and the receiving chain advances. -/
def skipOne (s : State) : Except Err State :=
  if s.nr = maxUint32 then .error (.wrap .counterOverflow "receive counter overflow")
  else if s.mkSkipped.size ≥ maxSkip then
    .error (.wrap .maxSkipExceeded "ratchet max skipped message keys exceeded")
  else
    match s.dhr with
    | none => .error (.new "ratchet: missing DHr while skipping")
    | some dhr =>
        let (newCKr, mk) := kdfChain p s.ckr
        .ok { s with
          ckr := newCKr
          mkSkipped := s.mkSkipped.insert ⟨dhr, s.nr⟩ mk
          nr := s.nr + 1 }

/-- The loop `for s.Nr < until`, with a bound on its iterations. -/
def skipLoop (limit : UInt32) : Nat → State → Except Err State
  | 0, s => .ok s
  | fuel + 1, s =>
      if s.nr < limit then do
        let s ← skipOne p s
        skipLoop limit fuel s
      else .ok s

/-- `skipMessageKeys`. Every iteration raises `Nr` by one, so that the difference bounds their
number. -/
def skipMessageKeys (s : State) (limit : UInt32) : Except Err State :=
  skipLoop p limit (limit.toNat - s.nr.toNat) s

/-- `cleanupSkippedKeys`: only the keys under the current DH key stay. -/
def cleanupSkippedKeys (s : State) (currentDH : Key) : State :=
  { s with mkSkipped := s.mkSkipped.filter fun k _ => k.publicKey == currentDH }

/-! ## The DH ratchet -/

def dhRatchet (rnd : Except String Key) (s : State) (theirPublicKey : Key) :
    Except Err State := do
  let some dhs := s.dhs | .error (.new "dh ratchet: missing local dh key")
  let seen := match s.dhr with
    | some dhr => s.seenDH.insert dhr
    | none => s.seenDH
  let seen := seen.insert theirPublicKey
  let dhOut ← (dh p dhs.privateKey theirPublicKey).mapError (.context "dh ratchet: dh1")
  let (newRoot, newCKr) ← kdfRoot p s.rk dhOut
  let newDH ← (generateKeyPair p rnd).mapError (.context "dh ratchet: generate local dh")
  let dhOutSend ← (dh p newDH.privateKey theirPublicKey).mapError (.context "dh ratchet: dh2")
  let (newRoot, newCKs) ← kdfRoot p newRoot dhOutSend
  return cleanupSkippedKeys
    { s with
      seenDH := seen
      pn := s.ns
      ns := 0
      nr := 0
      ckr := newCKr
      dhs := some newDH
      rk := newRoot
      cks := newCKs
      dhr := some theirPublicKey } theirPublicKey

end SignalGo.Ratchet
