import SignalGo.Crypto

/-!
# SPQR chains

Message keys per epoch. An epoch secret extends the chain by a link, a link holds a sending and a
receiving sequence of keys, and a key is named by its epoch and its number. Links behind the
epoch of the last send are dropped except one.

`SendKey` changes the chain in place, so it returns the chain beside the result: an error after
the change leaves the changed chain behind. `RecvKey` only runs on a copy its callers drop on an
error. A nil map and an empty map are not told apart by any of these functions.
-/

namespace SignalGo.Spqr

open Std (ExtTreeMap)

variable (p : Prims)

/-! ## Versions and directions -/

abbrev Version := UInt8

def versionDisabled : Version := 0

def versionV1 : Version := 1

abbrev Direction := UInt8

def directionA2B : Direction := 0

def directionB2A : Direction := 1

/-! ## Parameters -/

def chainDefaultMaxJump : UInt32 := 25000

def chainDefaultMaxOOO : UInt32 := 2000

def epochsToKeepPriorToSend : Int := 1

structure ChainParams where
  MaxJump : UInt32
  MaxOOO : UInt32
  deriving DecidableEq

def ChainParams.maxJump (params : ChainParams) : UInt32 :=
  if params.MaxJump = 0 then chainDefaultMaxJump else params.MaxJump

def ChainParams.maxOOO (params : ChainParams) : UInt32 :=
  if params.MaxOOO = 0 then chainDefaultMaxOOO else params.MaxOOO

/-! ## Stored keys -/

structure KeyHistory where
  keys : ExtTreeMap UInt32 Key

namespace KeyHistory

def empty : KeyHistory := ⟨∅⟩

def add (h : KeyHistory) (idx : UInt32) (key : Key) : KeyHistory := ⟨h.keys.insert idx key⟩

/-- `gc`; the sum wraps as in the source. -/
def gc (h : KeyHistory) (current maxOOO : UInt32) : KeyHistory :=
  ⟨h.keys.filter fun idx _ => ¬ idx + maxOOO < current⟩

/-- `get`: the key is taken out. -/
def get (h : KeyHistory) (idx current maxOOO : UInt32) : Except Err (Key × KeyHistory) :=
  if idx + maxOOO < current then .error (.sentinel .spqrKeyTrimmed)
  else
    match h.keys[idx]? with
    | none => .error (.sentinel .spqrKeyAlreadyRequested)
    | some key => .ok (key, ⟨h.keys.erase idx⟩)

end KeyHistory

/-! ## One direction of a link -/

structure ChainEpochDirection where
  ctr : UInt32
  next : Bytes
  prev : KeyHistory

def newChainEpochDirection (seed : Bytes) : ChainEpochDirection where
  ctr := 0
  next := seed
  prev := .empty

def chainInfoStart : Bytes := "Signal PQ Ratchet V1 Chain  Start".toUTF8.toList

def chainInfoAddEpoch : Bytes := "Signal PQ Ratchet V1 Chain Add Epoch".toUTF8.toList

def chainInfoNext : Bytes := "Signal PQ Ratchet V1 Chain Next".toUTF8.toList

/-- `hkdfTo`; a nil salt is 32 zero bytes. -/
def hkdfTo (ikm : Bytes) (salt : Option Bytes) (info : Bytes) (length : Nat) :
    Except Err Bytes := do
  let okm ← hkdf p ikm (salt.getD (List.replicate 32 0)) info length
  return okm.toBytes

namespace ChainEpochDirection

/-- `nextKey`: the number, the key and the direction behind it. The counter wraps. -/
def nextKey (d : ChainEpochDirection) : Except Err (UInt32 × Key × ChainEpochDirection) :=
  if d.next.length = 0 then .error (.sentinel .spqrKeyAlreadyRequested)
  else do
    let okm ← hkdfTo p d.next none (putUint32 (d.ctr + 1) ++ chainInfoNext) 64
    return (d.ctr + 1, .ofBytes 32 (okm.drop 32),
      { d with ctr := d.ctr + 1, next := copyInto d.next (okm.take 32) })

/-- The loop of `key`: the keys before `at` are made, and kept when they are recent enough. -/
def keyLoop (maxOOO goal : UInt32) :
    Nat → ChainEpochDirection → Except Err ChainEpochDirection
  | 0, d => .ok d
  | fuel + 1, d =>
      if d.ctr + 1 < goal then do
        let (idx, key, d) ← d.nextKey p
        keyLoop maxOOO goal fuel
          (if goal ≤ idx + maxOOO then { d with prev := d.prev.add idx key } else d)
      else .ok d

/-- The branch of `key` for a number that is still ahead. -/
def keyAhead (d : ChainEpochDirection) (goal : UInt32) (params : ChainParams) :
    Except Err (Key × ChainEpochDirection) :=
  if params.maxJump < goal - d.ctr then .error (.sentinel .spqrKeyJump)
  else do
    let d := if d.ctr + params.maxOOO < goal then { d with prev := .empty } else d
    let d ← keyLoop p params.maxOOO goal goal.toNat d
    let d := { d with prev := d.prev.gc d.ctr params.maxOOO }
    let (_, key, d) ← d.nextKey p
    return (key, d)

/-- `key`: the key of the number `goal`. -/
def key (d : ChainEpochDirection) (goal : UInt32) (params : ChainParams) :
    Except Err (Key × ChainEpochDirection) :=
  if goal < d.ctr then do
    let (key, prev) ← d.prev.get goal d.ctr params.maxOOO
    return (key, { d with prev })
  else if goal = d.ctr then .error (.sentinel .spqrKeyAlreadyRequested)
  else d.keyAhead p goal params

end ChainEpochDirection

/-! ## The chain -/

structure ChainEpoch where
  send : ChainEpochDirection
  recv : ChainEpochDirection

structure Chain where
  dir : Direction
  currentEpoch : UInt64
  sendEpoch : UInt64
  links : List ChainEpoch
  nextRoot : Key
  params : ChainParams

/-- `chainSeedsForDirection`: the sending and the receiving seed. -/
def chainSeedsForDirection (okm : Bytes) (dir : Direction) : Bytes × Bytes :=
  if dir = directionB2A then ((okm.take 96).drop 64, (okm.take 64).drop 32)
  else ((okm.take 64).drop 32, (okm.take 96).drop 64)

/-- A link from the output of the key derivation. -/
def newLink (okm : Bytes) (dir : Direction) : ChainEpoch :=
  let (sendSeed, recvSeed) := chainSeedsForDirection okm dir
  { send := newChainEpochDirection sendSeed, recv := newChainEpochDirection recvSeed }

def newChain (authKey : Bytes) (dir : Direction) (params : ChainParams) : Except Err Chain := do
  let okm ← hkdfTo p authKey none chainInfoStart 96
  return {
    dir
    currentEpoch := 0
    sendEpoch := 0
    nextRoot := .ofBytes 32 (okm.take 32)
    params
    links := [newLink okm dir] }

namespace Chain

def addEpoch (c : Chain) (epoch : UInt64) (secret : Bytes) : Except Err Chain :=
  if epoch ≠ c.currentEpoch + 1 then .error (.sentinel .spqrEpochOutOfRange)
  else do
    let okm ← hkdfTo p secret (some c.nextRoot.toBytes) chainInfoAddEpoch 96
    return { c with
      nextRoot := .ofBytes 32 (okm.take 32)
      currentEpoch := epoch
      links := c.links ++ [newLink okm c.dir] }

/-- The value of a Go `int`. -/
def goInt (n : Int) : Int := n.bmod (2 ^ 64)

/-- `epochIndex`. The distance is converted from `uint64` to `int`, so that a distance from
`2 ^ 63` on turns negative and passes the check. -/
def epochIndex (c : Chain) (epoch : UInt64) : Except Err Int :=
  if c.currentEpoch < epoch then .error (.sentinel .spqrEpochOutOfRange)
  else
    let back := goInt (c.currentEpoch - epoch).toNat
    if (c.links.length : Int) ≤ back then .error (.sentinel .spqrEpochOutOfRange)
    else .ok (goInt (c.links.length - 1 - back))

/-- `links[idx]`; `none` is the panic of an index out of range. -/
def linkAt (links : List ChainEpoch) (idx : Int) : Option ChainEpoch :=
  if idx < 0 then none else links[idx.toNat]?

/-- `for idx > epochsToKeepPriorToSend { links = links[1:]; idx-- }`; `none` is a panic. -/
def trimLinks : List ChainEpoch → Int → Option (List ChainEpoch × Int)
  | [], idx => if idx > epochsToKeepPriorToSend then none else some ([], idx)
  | link :: links, idx =>
      if idx > epochsToKeepPriorToSend then trimLinks links (idx - 1) else some (link :: links, idx)

/-- `for i := 0; i < idx; i++ { links[i].send.next = nil }`; `none` is a panic. -/
def clearSend (links : List ChainEpoch) (idx : Int) : Option (List ChainEpoch) :=
  if links.length < idx then none
  else some (links.zipIdx.map fun li =>
    if (li.2 : Int) < idx then { li.1 with send := { li.1.send with next := [] } } else li.1)

/-- The part of `SendKey` that moves to another epoch. -/
def moveSendEpoch (c : Chain) (epoch : UInt64) (idx : Int) : Option (Chain × Int) :=
  if epoch = c.sendEpoch then some (c, idx)
  else do
    let (links, idx) ← trimLinks c.links idx
    let links ← clearSend links idx
    return ({ c with sendEpoch := epoch, links }, idx)

def sendKey (c : Chain) (epoch : UInt64) : Chain × Except (Fault Err) (UInt32 × Bytes) :=
  if epoch < c.sendEpoch then (c, .error (.err (.sentinel .spqrSendKeyEpochDecreased)))
  else
    match c.epochIndex epoch with
    | .error e => (c, .error (.err e))
    | .ok idx =>
        match c.moveSendEpoch epoch idx with
        | none => (c, .error .panic)
        | some (c, idx) =>
            match linkAt c.links idx with
            | none => (c, .error .panic)
            | some link =>
                match link.send.nextKey p with
                | .error e => (c, .error (.err e))
                | .ok (msgIdx, key, send) =>
                    ({ c with links := c.links.set idx.toNat { link with send } },
                      .ok (msgIdx, key.toBytes))

def recvKey (c : Chain) (epoch : UInt64) (index : UInt32) :
    Except (Fault Err) (Bytes × Chain) := do
  let idx ← (c.epochIndex epoch).mapError .err
  match linkAt c.links idx with
  | none => .error .panic
  | some link => do
      let (key, recv) ← (link.recv.key p index c.params).mapError .err
      return (key.toBytes, { c with links := c.links.set idx.toNat { link with recv } })

end Chain

end SignalGo.Spqr
