import SignalGo.Lib.Bytes

/-!
# Error values

A Go error is modelled by its text and by the sentinel errors `errors.Is` finds in it.
`wrap` is `fmt.Errorf("%w: msg", sentinel)`, `context` is `fmt.Errorf("ctx: %w", err)` and
`join` is `errors.Join`.
-/

namespace SignalGo

/-- The package-level sentinel errors of `errors`, `crypto` and `spqr`. -/
inductive Sentinel where
  | invalidKey
  | invalidSignature
  | untrustedIdentity
  | invalidMessage
  | duplicateMessage
  | invalidMAC
  | noSession
  | noSenderKey
  | sessionNotFound
  | preKeyNotFound
  | preKeyExpired
  | maxSkipExceeded
  | staleKeyExchange
  | counterOverflow
  | cryptoInvalidPublicKey
  | cryptoHKDFLength
  | cryptoInvalidKey
  | cryptoCiphertextTooShort
  | spqrInvalidMessage
  | spqrUnsupportedVersion
  | spqrStateDecode
  | spqrEpochOutOfRange
  | spqrSendKeyEpochDecreased
  | spqrKeyJump
  | spqrKeyTrimmed
  | spqrKeyAlreadyRequested
  | spqrChainNotAvailable
  | spqrInvalidMAC
  | spqrVersionMismatch
  | spqrMinimumVersion
  | spqrErroneousData
  deriving DecidableEq, Repr

def Sentinel.text : Sentinel → String
  | invalidKey => "signal: invalid key"
  | invalidSignature => "signal: invalid signature"
  | untrustedIdentity => "signal: untrusted identity"
  | invalidMessage => "signal: invalid message"
  | duplicateMessage => "signal: duplicate message"
  | invalidMAC => "signal: invalid mac"
  | noSession => "signal: no session"
  | noSenderKey => "signal: no sender key"
  | sessionNotFound => "signal: session not found"
  | preKeyNotFound => "signal: pre-key not found"
  | preKeyExpired => "signal: pre-key expired"
  | maxSkipExceeded => "signal: max skip exceeded"
  | staleKeyExchange => "signal: stale key exchange"
  | counterOverflow => "signal: counter overflow"
  | cryptoInvalidPublicKey => "curve25519: invalid public key"
  | cryptoHKDFLength => "hkdf: invalid length"
  | cryptoInvalidKey => "aead: invalid key length"
  | cryptoCiphertextTooShort => "aead: ciphertext too short"
  | spqrInvalidMessage => "spqr: invalid message"
  | spqrUnsupportedVersion => "spqr: unsupported version"
  | spqrStateDecode => "spqr: state decode failed"
  | spqrEpochOutOfRange => "spqr: epoch out of range"
  | spqrSendKeyEpochDecreased => "spqr: send epoch decreased"
  | spqrKeyJump => "spqr: key jump too far"
  | spqrKeyTrimmed => "spqr: key trimmed"
  | spqrKeyAlreadyRequested => "spqr: key already requested"
  | spqrChainNotAvailable => "spqr: chain not available"
  | spqrInvalidMAC => "spqr: invalid mac"
  | spqrVersionMismatch => "spqr: version mismatch"
  | spqrMinimumVersion => "spqr: minimum version"
  | spqrErroneousData => "spqr: erroneous data"

structure Err where
  wraps : List Sentinel
  text : String
  deriving DecidableEq, Repr

namespace Err

/-- `errors.New(msg)`. -/
def new (msg : String) : Err := ⟨[], msg⟩

/-- The sentinel itself, returned as it is. -/
def sentinel (s : Sentinel) : Err := ⟨[s], s.text⟩

/-- `fmt.Errorf("%w: msg", s)`. -/
def wrap (s : Sentinel) (msg : String) : Err := ⟨[s], s.text ++ ": " ++ msg⟩

/-- `fmt.Errorf("ctx: %w", e)`. -/
def context (ctx : String) (e : Err) : Err := ⟨e.wraps, ctx ++ ": " ++ e.text⟩

/-- `errors.Join(e, e')`. -/
def join (e e' : Err) : Err := ⟨e.wraps ++ e'.wraps, e.text ++ "\n" ++ e'.text⟩

/-- `errors.Is(e, s)`. -/
def is (e : Err) (s : Sentinel) : Bool := e.wraps.contains s

end Err

/-- Rewrites the error of a computation; a panic goes through. -/
def mapFault {α : Type} (f : Err → Err) (x : Except (Fault Err) α) : Except (Fault Err) α :=
  x.mapError fun
    | .err e => .err (f e)
    | .panic => .panic

end SignalGo
