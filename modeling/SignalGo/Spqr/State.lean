import SignalGo.Spqr.Chunked

/-!
# The SPQR state

Handshake state, chain and version negotiation of one party, with `Send` and `Receive`. A nil
byte slice is the empty list: the two functions turn empty results into nil.

`Send` works in place. It returns the state beside the result, also after an error. `Receive` is
called on a clone that is kept only on success, so it returns the state with the salt.
-/

namespace SignalGo.Spqr

variable (p : Prims) (kem : Kem)

structure VersionNegotiation where
  authKey : Bytes
  direction : Direction
  minVersion : Version
  chainParams : ChainParams
  deriving DecidableEq

structure State where
  version : Version
  v1 : Option V1States
  chain : Option Chain
  negotiation : Option VersionNegotiation

def initV1StateForDirection (dir : Direction) (authKey : Bytes) : Except Err V1States :=
  if dir = directionB2A then initV1StateB p authKey else initV1StateA p authKey

def newStateWithMinVersion (authKey : Bytes) (dir : Direction) (params : ChainParams)
    (minVersion : Version) : Except Err State :=
  if authKey.length = 0 then .error (.new "spqr: auth key required")
  else if versionV1 < minVersion then .error (.sentinel .spqrUnsupportedVersion)
  else do
    let v1 ← initV1StateForDirection p dir authKey
    return {
      version := versionV1
      v1 := some v1
      chain := none
      negotiation := some {
        authKey
        direction := dir
        minVersion
        chainParams := params } }

def newState (authKey : Bytes) (dir : Direction) (params : ChainParams) : Except Err State :=
  newStateWithMinVersion p authKey dir params versionDisabled

def chainFromNegotiation (vn : VersionNegotiation) : Except Err Chain :=
  newChain p vn.authKey vn.direction vn.chainParams

/-- The chain `chainForSend` returns; `none` is a nil chain without an error. A chain it makes is
also stored in the state. -/
def State.chainForSend (s : State) : Except Err (Option Chain) :=
  match s.chain with
  | some chain => .ok (some chain)
  | none =>
      match s.negotiation with
      | none => .error (.sentinel .spqrChainNotAvailable)
      | some vn =>
          if vn.minVersion ≤ versionDisabled then .ok none
          else some <$> chainFromNegotiation p vn

def State.chainForRecv (s : State) : Except Err Chain :=
  match s.chain with
  | some chain => .ok chain
  | none =>
      match s.negotiation with
      | none => .error (.sentinel .spqrChainNotAvailable)
      | some vn => chainFromNegotiation p vn

/-- The part of `Send` behind `AddEpoch`: the key of the message is taken from the chain. -/
def State.sendOn (s : State) (chain : Chain) (send : V1Send) :
    State × Except (Fault Err) (Bytes × Bytes) :=
  if send.msg.epoch = 0 then
    ({ s with chain := some chain }, .error (.err (.sentinel .spqrEpochOutOfRange)))
  else
    match chain.sendKey p (send.msg.epoch - 1) with
    | (chain, .error e) => ({ s with chain := some chain }, .error e)
    | (chain, .ok (idx, msgKey)) =>
        ({ s with v1 := some send.state, chain := some chain },
          .ok (send.msg.serialize idx, msgKey))

/-- The part of `Send` behind `v1.send`. -/
def State.sendV1 (s : State) (send : V1Send) : State × Except (Fault Err) (Bytes × Bytes) :=
  match s.chainForSend p with
  | .error e => (s, .error (.err e))
  | .ok none =>
      match send.key with
      | some _ => (s, .error (.err (.sentinel .spqrChainNotAvailable)))
      | none => ({ s with v1 := some send.state }, .ok (send.msg.serialize 0, []))
  | .ok (some chain) =>
      match send.key with
      | none => s.sendOn p chain send
      | some key =>
          match chain.addEpoch p key.epoch key.secret with
          | .error e => ({ s with chain := some chain }, .error (.err e))
          | .ok chain => s.sendOn p chain send

/-- `Send`: the message and the salt. -/
def State.send (s : State) (rnd : Rand) : State × Except (Fault Err) (Bytes × Bytes) :=
  if s.version = versionDisabled then (s, .ok ([], []))
  else
    match s.v1 with
    | none => (s, .ok ([], []))
    | some v1 =>
        match v1.send p kem rnd with
        | (v1, .error e) => ({ s with v1 := some v1 }, .error (.err e))
        | (v1, .ok send) => State.sendV1 p { s with v1 := some v1 } send

/-- `msgVersion`; `none` is an unknown version. -/
def msgVersion (message : Bytes) : Option Version :=
  match message with
  | [] => some versionDisabled
  | v :: _ => if v = versionDisabled ∨ v = versionV1 then some v else none

def State.disabled : State where
  version := versionDisabled
  v1 := none
  chain := none
  negotiation := none

def State.receiveLegacy (s : State) (message : Bytes) : Except (Fault Err) (State × Bytes) :=
  match s.chain with
  | none => .error (.err (.sentinel .spqrChainNotAvailable))
  | some chain =>
      if message.length = 0 then .ok (s, [])
      else
        match parseMessage message with
        | .error f =>
            if f = .err (.sentinel .spqrUnsupportedVersion) then .ok (s, []) else .error f
        | .ok msg =>
            if msg.version ≠ versionV1 then .ok (s, [])
            else if msg.epoch = 0 then .error (.err (.sentinel .spqrEpochOutOfRange))
            else if msg.epoch - 1 = 0 ∧ msg.index = 0 then .ok (s, [])
            else do
              let (key, chain) ← chain.recvKey p (msg.epoch - 1) msg.index
              return ({ s with chain := some chain }, key)

/-- `AddEpoch` for the secret a receive made, if it made one. -/
def addReceivedEpoch (chain : Chain) (key : Option EpochSecret) : Except Err Chain :=
  match key with
  | none => .ok chain
  | some key => chain.addEpoch p key.epoch key.secret

/-- The salt of a received message, and the chain behind it. -/
def recvSalt (chain : Chain) (epoch : UInt64) (idx : UInt32) :
    Except (Fault Err) (Bytes × Chain) :=
  if epoch ≠ 0 ∨ idx ≠ 0 then chain.recvKey p epoch idx else .ok ([], chain)

/-- The part of `Receive` for a version 1 message. -/
def State.receiveV1 (s : State) (v1 : V1States) (message : Bytes) :
    Except (Fault Err) (State × Bytes) := do
  let (msg, idx, _) ← deserializeV1Message message
  let recv ← (v1.recv p kem msg).mapError .err
  if msg.epoch = 0 then .error (.err (.sentinel .spqrEpochOutOfRange))
  else do
    let chain ← (s.chainForRecv p).mapError .err
    let chain ← (addReceivedEpoch p chain recv.key).mapError .err
    let (msgKey, chain) ← recvSalt p chain (msg.epoch - 1) idx
    return ({ s with v1 := some recv.state, chain := some chain, negotiation := none }, msgKey)

/-- The part of `Receive` behind the version of the message. -/
def State.receiveVersion (s : State) (v1 : V1States) (version : Version) (message : Bytes) :
    Except (Fault Err) (State × Bytes) :=
  if s.version = versionDisabled then .ok (s, [])
  else if version < s.version then
    match s.negotiation with
    | none => .error (.err (.sentinel .spqrVersionMismatch))
    | some vn =>
        if version < vn.minVersion then .error (.err (.sentinel .spqrMinimumVersion))
        else if version = versionDisabled then .ok (.disabled, [])
        else s.receiveV1 p kem v1 message
  else if version = versionDisabled then .ok (s, [])
  else s.receiveV1 p kem v1 message

/-- `Receive`: the salt of a message. -/
def State.receive (s : State) (message : Bytes) : Except (Fault Err) (State × Bytes) :=
  match s.v1 with
  | none => s.receiveLegacy p message
  | some v1 =>
      match msgVersion message with
      | none => .ok (s, [])
      | some version => s.receiveVersion p kem v1 version message

end SignalGo.Spqr
