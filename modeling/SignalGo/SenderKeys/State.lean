import SignalGo.Crypto

/-!
# Sender keys: chain, message keys and record

The state a group member keeps for one sender. A chain key gives the message key of its
iteration and the next chain key; the keys of iterations that have been skipped wait in
`messageKeys`. A record holds the newest state first and the states it replaced behind it.

* `SenderChainKey.next`, `newSenderMessageKey`: the symmetric ratchet.
* `State.addMessageKey`, `State.removeMessageKey`: the store of skipped keys, which
  drops its oldest entry when it grows beyond `maxMessageKeysPerState`.
* `getSenderMessageKey`: the key of a requested iteration, from the store or the chain.
* `Record.setState`: installs a state, replacing the one with the same ids.
-/

namespace SignalGo.SenderKeys

variable (p : Prims)

def defaultMaxStates : Nat := 5

def maxMessageKeysPerState : Nat := 2000

/-! ## The chain -/

structure SenderChainKey where
  iteration : UInt32
  seed : Key
  deriving DecidableEq

structure SenderMessageKey where
  iteration : UInt32
  seed : Key
  iv : ByteArr 16
  cipherKey : Key
  deriving DecidableEq

def SenderChainKey.derive (k : SenderChainKey) (constant : UInt8) : Key :=
  p.hmacSHA256 k.seed.toBytes [constant]

def newSenderMessageKey (iteration : UInt32) (seed : Key) : Except Err SenderMessageKey := do
  let derivative ← hkdf p seed.toBytes [] "WhisperGroup".toUTF8.toList (16 + 32)
  return {
    iteration, seed
    iv := .ofBytes 16 (derivative.toBytes.take 16)
    cipherKey := .ofBytes 32 (derivative.toBytes.drop 16) }

def SenderChainKey.senderMessageKey (k : SenderChainKey) : Except Err SenderMessageKey :=
  newSenderMessageKey p k.iteration (k.derive p 0x01)

def SenderChainKey.next (k : SenderChainKey) : Except Err SenderChainKey :=
  if k.iteration = 0xffffffff then
    .error (.context "sender chain key" (.sentinel .counterOverflow))
  else
    .ok { iteration := k.iteration + 1, seed := k.derive p 0x02 }

/-! ## States -/

structure MessageKey where
  iteration : UInt32
  seed : Key
  deriving DecidableEq

structure State where
  messageVersion : UInt8
  distributionID : ByteArr 16
  keyID : UInt32
  chainIteration : UInt32
  chainSeed : Key
  signingPublic : Key
  signingPrivateSeed : Key
  hasPrivate : Bool
  messageKeys : List MessageKey
  deriving DecidableEq

namespace State

/-- The chain key the state is at. -/
def chainKey (st : State) : SenderChainKey where
  iteration := st.chainIteration
  seed := st.chainSeed

/-- Beyond `maxMessageKeysPerState` the list is trimmed at its front, where the oldest key
is. -/
def addMessageKey (st : State) (mk : MessageKey) : State :=
  let keys := st.messageKeys ++ [mk]
  { st with messageKeys := keys.drop (keys.length - maxMessageKeysPerState) }

/-- Takes the first key of the iteration out of the list. -/
def removeMessageKey (st : State) (iteration : UInt32) : Option (Key × State) :=
  match st.messageKeys.find? (·.iteration = iteration) with
  | none => none
  | some found =>
    some (found.seed,
      { st with messageKeys := st.messageKeys.eraseP (·.iteration = iteration) })

end State

/-- What a distribution message carries. -/
structure DistributionMessage where
  messageVersion : UInt8
  distributionID : ByteArr 16
  keyID : UInt32
  iteration : UInt32
  chainKey : Key
  signingPublic : Key
  deriving DecidableEq

/-- The state `Builder.Process` makes of a distribution message. -/
def DistributionMessage.receivingState (msg : DistributionMessage) : State where
  messageVersion := msg.messageVersion
  distributionID := msg.distributionID
  keyID := msg.keyID
  chainIteration := msg.iteration
  chainSeed := msg.chainKey
  signingPublic := msg.signingPublic
  signingPrivateSeed := .zero
  hasPrivate := false
  messageKeys := []

/-- The loop that stores the keys of the iterations it passes. The number of passes still
possible bounds it: every pass brings the chain one iteration closer. -/
def skipMessageKeys (iteration : UInt32) :
    Nat → SenderChainKey → State → Except Err (SenderChainKey × State)
  | 0, chainKey, st => .ok (chainKey, st)
  | passes + 1, chainKey, st =>
    if chainKey.iteration < iteration then do
      let mk ← chainKey.senderMessageKey p
      let st := st.addMessageKey { iteration := chainKey.iteration, seed := mk.seed }
      let chainKey ← chainKey.next p
      skipMessageKeys iteration passes chainKey st
    else
      .ok (chainKey, st)

/-- `getSenderMessageKey`; the state is what a caller that stores it on success keeps. -/
def getSenderMessageKey (st : State) (iteration : UInt32) :
    Except Err (SenderMessageKey × State) :=
  if st.chainIteration > iteration then
    match st.removeMessageKey iteration with
    | none => .error (.sentinel .duplicateMessage)
    | some (seed, st) => do
      let key ← newSenderMessageKey p iteration seed
      return (key, st)
  -- The guard above makes the unsigned difference the true one.
  else if (iteration - st.chainIteration).toNat > maxMessageKeysPerState then
    .error (.sentinel .maxSkipExceeded)
  else do
    let (chainKey, st) ←
      skipMessageKeys p iteration (iteration - st.chainIteration).toNat st.chainKey st
    let next ← chainKey.next p
    let key ← chainKey.senderMessageKey p
    return (key, { st with chainIteration := next.iteration, chainSeed := next.seed })

/-! ## Records -/

/-- A record; its states are the newest first. -/
structure Record where
  states : List State
  maxStates : Nat
  deriving DecidableEq

/-- `NewRecord`. -/
def newRecord (maxStates : Int) : Record where
  states := []
  maxStates := if maxStates ≤ 0 then defaultMaxStates else maxStates.toNat

/-- What `state` and `setState` compare: the key id and the distribution id. -/
def State.hasIDs (st : State) (distributionID : ByteArr 16) (keyID : UInt32) : Bool :=
  st.keyID = keyID ∧ st.distributionID = distributionID

def Record.isEmpty (r : Record) : Bool := r.states.isEmpty

def Record.current (r : Record) : Except Err State :=
  match r.states with
  | [] => .error (.new "sender key record: missing state")
  | st :: _ => .ok st

def Record.state (r : Record) (distributionID : ByteArr 16) (keyID : UInt32) :
    Except Err State :=
  match r.states.find? (·.hasIDs distributionID keyID) with
  | none => .error (.new s!"sender key record: missing state {keyID}")
  | some st => .ok st

def Record.setState (r : Record) (next : State) : Record :=
  let filtered := r.states.filter (!·.hasIDs next.distributionID next.keyID)
  { r with states := (next :: filtered).take r.maxStates }

/-- What a write through the pointer that `Record.state` returned does to the record: the
first state with these ids is overwritten. -/
def Record.update (r : Record) (distributionID : ByteArr 16) (keyID : UInt32) (st : State) :
    Record :=
  { r with states := r.states.replaceF fun s =>
      if s.hasIDs distributionID keyID then some st else none }

end SignalGo.SenderKeys
