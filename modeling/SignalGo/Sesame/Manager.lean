import SignalGo.Sesame.State

/-!
# Sesame: the manager of the roster

`Manager` keeps the roster in the store: every call loads it, changes it and stores it again. A user
or a device that the server does not list any more becomes stale, and `PruneStale` drops what has
been stale for too long, with its sessions and identities.

Times and the order in which a map is visited are arguments. `ApplyDeviceList` returns nil or an
`IdentityChangedError` once the roster is stored: the result `some e` is that error.
-/

namespace SignalGo.Sesame

open Std (ExtTreeMap)
open Effect

/-- An entry of the list of devices a server returns. -/
structure Device where
  deviceID : UInt32
  identityKey : Option IdentityKey
  deriving DecidableEq

/-- The manager, without its store and its lock. -/
structure Manager where
  localAddress : Address
  maxLatency : Duration

structure IdentityChangedError where
  addresses : List Address
  deriving DecidableEq

/-- As an error, it wraps `ErrUntrustedIdentity`. -/
def IdentityChangedError.toErr (e : IdentityChangedError) : Err where
  wraps := [.untrustedIdentity]
  text :=
    if e.addresses.isEmpty then "sesame: identity changed"
    else s!"sesame: identity changed for {e.addresses.length} devices"

/-! ## The stored roster -/

/-- The roster behind a stored record. No record and an empty one are an empty roster. -/
def stateOf (data : Option Bytes) : Except (Fault Err) State :=
  match data with
  | none => .ok newState
  | some [] => .ok newState
  | some bytes => deserializeState bytes

def loadState : StoreM State := do
  let data ← reads Store.sesame
  lift (stateOf data)

def persistState (state : State) : StoreM Unit := do
  let data ← lift (state.serialize.mapError .err)
  update (Store.storeSesameState data)

/-! ## The device list of a user -/

def identityEqual (a b : IdentityKey) : Bool :=
  a.publicKey = b.publicKey ∧ a.signingPublic = b.signingPublic

/-- The listed device comes with an identity and another one is stored for its address. -/
def identityChanged (addr : Address) (dev : Device) (st : Store) : Bool :=
  match dev.identityKey, st.getIdentity addr with
  | some key, some existing => !identityEqual existing key
  | _, _ => false

/-- The devices of the list by their numbers. -/
def addDevices : List Device → ExtTreeMap UInt32 Device →
    Except Err (ExtTreeMap UInt32 Device)
  | [], deviceSet => .ok deviceSet
  | d :: devices, deviceSet =>
      if d.deviceID ∈ deviceSet then
        .error (.wrap .invalidMessage s!"duplicate device id {d.deviceID}")
      else addDevices devices (deviceSet.insert d.deviceID d)

/-- The known devices that are not listed become stale. -/
def markMissing (deviceSet : ExtTreeMap UInt32 Device) (now : Time)
    (devices : ExtTreeMap UInt32 DeviceRecord) : ExtTreeMap UInt32 DeviceRecord :=
  devices.map fun deviceID rec =>
    if deviceID ∈ deviceSet ∨ rec.stale then rec else ⟨true, now⟩

variable (m : Manager) (order : MapOrder)

/-- The loop over the listed devices. The local device is passed over; the record of another one is
created, or loses its mark; in both cases it is a new one. -/
def applyDevices (userID : GoString) : List (UInt32 × Device) →
    ExtTreeMap UInt32 DeviceRecord → List Address →
    StoreM (ExtTreeMap UInt32 DeviceRecord × List Address)
  | [], devices, changed => return (devices, changed)
  | (deviceID, dev) :: rest, devices, changed =>
      let addr : Address := ⟨userID, deviceID⟩
      if addr = m.localAddress then applyDevices userID rest devices changed
      else do
        let devices := devices.insert deviceID .new
        if ← reads (identityChanged addr dev) then do
          update (Store.deleteSession addr)
          applyDevices userID rest devices (changed ++ [addr])
        else applyDevices userID rest devices changed

def applyDeviceList (userID : GoString) (devices : List Device) (now : Time) :
    StoreM (Option IdentityChangedError) :=
  if userID = [] then fail (.err (.wrap .invalidMessage "user id is empty"))
  else do
    let state ← loadState
    let user := state.getOrCreateUser userID
    let deviceSet ← lift ((addDevices devices ∅).mapError .err)
    let (devices, changed) ← applyDevices m userID (order.visit deviceSet.toList)
      (markMissing deviceSet now user.devices) []
    persistState (state.setUser userID ⟨false, .zero, devices⟩)
    if changed.isEmpty then return none
    else return some ⟨changed.mergeSort fun a b => (compare a b).isLE⟩

/-! ## Marks -/

/-- The mark of a user or of a device: the first one counts. -/
def DeviceRecord.mark (now : Time) (rec : DeviceRecord) : DeviceRecord :=
  if rec.stale then rec else ⟨true, now⟩

def UserRecord.mark (now : Time) (user : UserRecord) : UserRecord :=
  if user.stale then user else { user with stale := true, staleSince := now }

def markUserStale (userID : GoString) (now : Time) : StoreM Unit :=
  if userID = [] then fail (.err (.wrap .invalidMessage "user id is empty"))
  else do
    let state ← loadState
    let user := state.getOrCreateUser userID
    persistState (state.setUser userID (user.mark now))

def markDeviceStale (addr : Address) (now : Time) : StoreM Unit :=
  if addr.name = [] ∨ addr.device = 0 then
    fail (.err (.wrap .invalidMessage "invalid device address"))
  else do
    let state ← loadState
    let user := state.getOrCreateUser addr.name
    if addr = m.localAddress then return ()
    else
      let dev := user.devices[addr.device]?.getD .new
      persistState (state.setUser addr.name
        { user with devices := user.devices.insert addr.device (dev.mark now) })

def touchDevice (addr : Address) : StoreM Unit :=
  if addr.name = [] ∨ addr.device = 0 then
    fail (.err (.wrap .invalidMessage "invalid device address"))
  else do
    let state ← loadState
    let user := { state.getOrCreateUser addr.name with stale := false, staleSince := .zero }
    if addr = m.localAddress then persistState (state.setUser addr.name user)
    else persistState (state.setUser addr.name
      { user with devices := user.devices.insert addr.device .new })

/-! ## Who gets a message -/

def nonStaleDevices (userID : GoString) : StoreM (List Address) :=
  if userID = [] then fail (.err (.wrap .invalidMessage "user id is empty"))
  else do
    let state ← loadState
    match state.users[userID]? with
    | none => return []
    | some user =>
        if user.stale then return []
        else
          let active := (order.visit user.devices.toList).filter fun d =>
            !d.2.stale && (⟨userID, d.1⟩ : Address) ≠ m.localAddress
          let deviceIDs := (active.map (·.1)).mergeSort fun a b => a ≤ b
          return deviceIDs.map fun deviceID => ⟨userID, deviceID⟩

/-! ## Pruning -/

def shouldPrune (now staleSince : Time) (maxLatency : Duration) : Bool :=
  if staleSince.isZero then false
  else if now.before staleSince then false
  else now.sub staleSince ≥ maxLatency.toInt

/-- The devices of a user that goes. -/
def forgetIdentities (userID : GoString) : List (UInt32 × DeviceRecord) → StoreM Unit
  | [] => return ()
  | (deviceID, _) :: rest => do
      update (Store.saveOrForgetIdentity ⟨userID, deviceID⟩ none)
      forgetIdentities userID rest

/-- The devices of a user that stays. -/
def pruneDevices (now : Time) (userID : GoString) : List (UInt32 × DeviceRecord) →
    ExtTreeMap UInt32 DeviceRecord → StoreM (ExtTreeMap UInt32 DeviceRecord)
  | [], devices => return devices
  | (deviceID, dev) :: rest, devices =>
      if dev.stale && shouldPrune now dev.staleSince m.maxLatency then do
        update (Store.deleteSession ⟨userID, deviceID⟩)
        update (Store.saveOrForgetIdentity ⟨userID, deviceID⟩ none)
        pruneDevices now userID rest (devices.erase deviceID)
      else pruneDevices now userID rest devices

def pruneUsers (now : Time) : List (GoString × UserRecord) → State → StoreM State
  | [], state => return state
  | (userID, user) :: rest, state =>
      if user.stale && shouldPrune now user.staleSince m.maxLatency then do
        forgetIdentities userID (order.visit user.devices.toList)
        update (Store.deleteAllSessions userID)
        pruneUsers now rest ⟨state.users.erase userID⟩
      else do
        let devices ← pruneDevices m now userID (order.visit user.devices.toList) user.devices
        if devices.isEmpty && !user.stale then pruneUsers now rest ⟨state.users.erase userID⟩
        else pruneUsers now rest (state.setUser userID { user with devices })

def pruneStale (now : Time) : StoreM Unit :=
  if m.maxLatency ≤ 0 then fail (.err (.wrap .invalidMessage "max latency must be > 0"))
  else do
    let state ← loadState
    let state ← pruneUsers m order now (order.visit state.users.toList) state
    persistState state

end SignalGo.Sesame
