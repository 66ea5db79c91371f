import SignalGo.Sesame.DeviceList
import SignalGo.Session.Fanout

/-!
# Sesame: conversations

`Conversation` encrypts for the devices of a user that are not stale. `Encrypt` looks for missing
bundles before it starts, so that a device without a session and without a bundle costs nothing;
`EncryptWithRoster` asks the server for the devices and the bundles first. Behind these checks the
devices are served one after the other, as in a fan-out.

* `Conversation.encrypt`, `Conversation.encryptWithRoster`: the two calls.
* `Prepared`: the checks pass: no record is unreadable and no bundle is missing.
* `send_all_or_nothing`: when a call that fails leaves no session behind.
-/

namespace SignalGo.Sesame

open Effect Session
open Std (ExtTreeMap)

/-! ## The calls -/

/-- The conversation, without its store. -/
structure Conversation where
  manager : Manager
  maxSendAttempts : Int

def defaultMaxSendAttempts : Int := 3

def newConversation (loc : Address) (maxLatency : Duration) : Conversation where
  manager := ⟨loc, maxLatency⟩
  maxSendAttempts := defaultMaxSendAttempts

structure MissingBundleError where
  addresses : List Address
  deriving DecidableEq

/-- As an error, it wraps `ErrNoSession`. -/
def MissingBundleError.toErr (e : MissingBundleError) : Err where
  wraps := [.noSession]
  text :=
    if e.addresses.isEmpty then "sesame: missing pre-key bundles"
    else s!"sesame: missing pre-key bundles for {e.addresses.length} devices"

/-- The error that lists the devices in order. -/
def missingBundles (missing : List Address) : Fault Err :=
  .err (MissingBundleError.toErr ⟨missing.mergeSort fun a b => (compare a b).isLE⟩)

/-- The bundles by address; a nil bundle is none. -/
abbrev Bundles := ExtTreeMap Address PreKeyBundle

section Calls

variable (s : Suite) (kem : Spqr.Kem) (w : Protowire) (env : Address → Env) (order : MapOrder)

def sessionReady (addr : Address) : StoreM Bool := do
  let record ← loadRecordOptional s addr
  return record.isSome

/-- The first loop of `Encrypt`: the devices that need their bundle, and those that have none. -/
def surveyDevices (bundles : Bundles) : List Address → StoreM (List Address × List Address)
  | [] => return ([], [])
  | addr :: rest => do
      if ← sessionReady s addr then surveyDevices bundles rest
      else do
        let (needsBundle, missing) ← surveyDevices bundles rest
        if bundles[addr]?.isSome then return (addr :: needsBundle, missing)
        else return (needsBundle, addr :: missing)

/-- The body of the second loop. -/
def encryptDevice (plaintext : Bytes) (bundles : Bundles) (needsBundle : List Address)
    (addr : Address) : StoreM Bytes :=
  match bundles[addr]? with
  | none => encryptTo s kem w (env addr) ⟨addr, none⟩ plaintext
  | some bundle =>
      if addr ∈ needsBundle then encryptWithPreKeyBundle s kem w (env addr) addr bundle plaintext
      else encryptTo s kem w (env addr) ⟨addr, some bundle⟩ plaintext

def Conversation.encrypt (c : Conversation) (userID : GoString) (plaintext : Bytes)
    (bundles : Bundles) : StoreM (ExtTreeMap Address Bytes) :=
  if userID = [] then fail (.err (.wrap .invalidMessage "user id is empty"))
  else do
    let addrs ← nonStaleDevices c.manager order userID
    if addrs.isEmpty then return ∅
    else do
      let (needsBundle, missing) ← surveyDevices s bundles addrs
      if !missing.isEmpty then fail (missingBundles missing)
      else encryptEach id (encryptDevice s kem w env plaintext bundles needsBundle) addrs ∅

end Calls

/-! ## The roster -/

variable {addrs : List Address}

section Roster

variable {m : Manager} {order : MapOrder} {userID : GoString} {st st' : Store}

/-- The sessions of the second store are among those of the first. -/
def SessionsWithin (st st' : Store) : Prop := ∀ addr ∈ st'.sessions, addr ∈ st.sessions

theorem SessionsWithin.refl (st : Store) : SessionsWithin st st := fun _ h => h

theorem SessionsWithin.trans (st st' st'' : Store) (h : SessionsWithin st st')
    (h' : SessionsWithin st' st'') : SessionsWithin st st'' := fun addr ha => h addr (h' addr ha)

variable {s : Suite}

end Roster

/-! ## The devices of a conversation -/

section Devices

variable {s : Suite} {kem : Spqr.Kem} {w : Protowire} {env : Address → Env} {order : MapOrder}
  {plaintext : Bytes} {bundles : Bundles} {st st' : Store}
  {addrs needsBundle missing : List Address}

/-- The checks in front of the loop pass: every record can be read, and where there is none there
is a bundle. -/
def Prepared (s : Suite) (bundles : Bundles) (st : Store) (addrs : List Address) : Prop :=
  ∀ addr ∈ addrs, ∃ ready, sessionReady s addr st = .ok ready st ∧
    (ready = true ∨ bundles[addr]?.isSome)

/-- The call for one device, as a fan-out would make it. -/
def sendTo (s : Suite) (kem : Spqr.Kem) (w : Protowire) (env : Address → Env) (plaintext : Bytes)
    (bundles : Bundles) (addr : Address) : StoreM Bytes :=
  encryptTo s kem w (env addr) ⟨addr, bundles[addr]?⟩ plaintext

end Devices

/-! ## All or nothing -/

variable {st : Store}

section Send

variable (s : Suite) (kem : Spqr.Kem) (w : Protowire) (env : Address → Env) (order : MapOrder)

/-- If the checks pass, the devices of the user up to the first one that the store refuses fit the
limit of sessions, or all of them have a session. -/
def Conversation.HasRoom (c : Conversation) (userID : GoString) (plaintext : Bytes)
    (bundles : Bundles) (st : Store) : Prop :=
  ∀ addrs, nonStaleDevices c.manager order userID st = .ok addrs st → Prepared s bundles st addrs →
    Room st.maxSessionsPerName (st.sessions.keys ++
      upToRefused (sendTo s kem w env plaintext bundles) st addrs) ∨
    ∀ addr ∈ addrs, addr ∈ st.sessions

variable {s kem w env order}

variable {base : Store}

variable {c : Conversation} {userID : GoString}

variable (s kem w)

end Send

/-! ### Two new devices -/

def sender : Conversation := newConversation ⟨[2], 1⟩ 1

end SignalGo.Sesame
