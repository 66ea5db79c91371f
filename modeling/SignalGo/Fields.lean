import SignalGo.Keys
import SignalGo.Lib.Protowire

/-!
# Fields of the protocol messages

The kinds of field the decoders of the wire messages and of the group messages have in common.
Each names itself in its error texts: with a wrong wire type as `<what> type`, with a value that
does not parse as `<what>`.
-/

namespace SignalGo

/-- `fmt.Errorf("%w: …", signalerrors.ErrInvalidMessage)`. -/
abbrev invalid (msg : String) : Err := .wrap .invalidMessage msg

variable (p : Prims) (w : Protowire)

def rawField (what : String) (typ : WireType) (data : Bytes) : Except Err (Bytes × Bytes) :=
  bytesField w (invalid s!"{what} type") (invalid what) typ data

/-- A varint field, cut to 32 bits. -/
def uint32Field (what : String) (typ : WireType) (data : Bytes) : Except Err (UInt32 × Bytes) := do
  let (val, rest) ← varintField w (invalid s!"{what} type") (invalid what) typ data
  return (val.toUInt32, rest)

/-- A public key in its wire form. -/
def publicKeyField (what : String) (typ : WireType) (data : Bytes) :
    Except Err (Key × Bytes) := do
  let (val, rest) ← rawField w what typ data
  let key ← deserializeWirePublicKey p val
  return (key, rest)

section RoundTrip

variable {p w} (laws : w.Laws)

include laws

theorem rawField_append (what : String) (b rest : Bytes) :
    rawField w what .bytes (w.appendBytes b ++ rest) = .ok (b, rest) :=
  bytesField_append laws _ _ b rest

theorem uint32Field_append (what : String) (v : UInt32) (rest : Bytes) :
    uint32Field w what .varint (w.appendVarint v.toUInt64 ++ rest) = .ok (v, rest) := by
  rw [uint32Field, varintField_append laws, ok_bind]
  simp
  rfl

theorem publicKeyField_append (what : String) {key : Key} (h : isValidPublicKey p key = true)
    (rest : Bytes) :
    publicKeyField p w what .bytes (w.appendBytes (serializeWirePublicKey key) ++ rest) =
      .ok (key, rest) := by
  rw [publicKeyField, rawField_append laws, ok_bind]
  simp only [deserializeWirePublicKey_serialize h, ok_bind]
  rfl

theorem publicKeyField_invalid (what : String) {key : Key} (h : isValidPublicKey p key = false)
    (rest : Bytes) :
    ∃ e, publicKeyField p w what .bytes (w.appendBytes (serializeWirePublicKey key) ++ rest) =
      .error e := by
  rw [publicKeyField, rawField_append laws, ok_bind]
  simp only [deserializeWirePublicKey_invalid h, error_bind]
  exact ⟨_, rfl⟩

end RoundTrip

end SignalGo
