import SignalGo.Keys
import SignalGo.Lib.Effect
import SignalGo.Lib.Maps

/-!
# Stores

Addresses, and the state an application keeps for the protocol: the in-memory `ProtocolStore`,
with its maps as they are (a missing entry is a nil result). Its calls never fail; `StoreM` is a
function of the packages above it, which reads and writes the store and can fail at any point.

Two things come from outside: the time, and the order in which Go visits the entries of a map.
-/

namespace SignalGo

/-- A Go string: its bytes, which need not be UTF-8. -/
abbrev GoString := Bytes

/-- What is printed of a string; bytes that are no UTF-8 are taken one by one. -/
def GoString.text (name : GoString) : String :=
  match String.fromUTF8? (.mk name.toArray) with
  | some text => text
  | none => String.ofList (name.map fun b => Char.ofNat b.toNat)

/-- A remote party: a name and one of its devices. -/
structure Address where
  name : GoString
  device : UInt32
  deriving DecidableEq

/-- How `%v` prints the address. -/
def Address.text (a : Address) : String :=
  "\x7b" ++ GoString.text a.name ++ s!" {a.device}" ++ "\x7d"

/-- A group and a sender in it. -/
structure SenderKeyName where
  group : GoString
  sender : Address
  deriving DecidableEq

def SenderKeyName.text (n : SenderKeyName) : String :=
  "\x7b" ++ GoString.text n.group ++ s!" {n.sender.text}" ++ "\x7d"

/-! ## The in-memory store -/

instance : Ord Address := ⟨compareLex (compareOn Address.name) (compareOn Address.device)⟩

instance : Std.TransOrd Address :=
  inferInstanceAs (Std.TransCmp (compareLex (compareOn Address.name) (compareOn Address.device)))

instance : Std.LawfulEqOrd Address where
  eq_of_compare {a b} h := by
    have h' : (compare a.name b.name).then (compare a.device b.device) = .eq := h
    rw [Ordering.then_eq_eq] at h'
    cases a
    cases b
    simp only [Address.mk.injEq]
    exact ⟨Std.LawfulEqOrd.eq_of_compare h'.1, Std.LawfulEqOrd.eq_of_compare h'.2⟩

open Std (ExtTreeMap)

/-- The store, without its lock. `sessions` holds serialized session records and `sesame` the
serialized roster; the maximal age of a signed pre-key is in nanoseconds. -/
structure Store where
  identityKeyPair : IdentityKeyPair
  localRegistrationID : UInt32
  signedPreKeyMaxAge : Int
  maxSessionsPerName : Int
  identities : ExtTreeMap Address IdentityKey
  preKeys : ExtTreeMap UInt32 PreKey
  signedKeys : ExtTreeMap UInt32 SignedPreKey
  kyberKeys : ExtTreeMap UInt32 KyberPreKey
  sessions : ExtTreeMap Address Bytes
  sesame : Option Bytes

def defaultSignedPreKeyMaxAge : Int := 30 * 24 * 3600 * 10 ^ 9

def defaultMaxSessionsPerName : Int := 100

def newStore (identity : IdentityKeyPair) (registrationID : UInt32) : Store where
  identityKeyPair := identity
  localRegistrationID := registrationID
  signedPreKeyMaxAge := defaultSignedPreKeyMaxAge
  maxSessionsPerName := defaultMaxSessionsPerName
  identities := ∅
  preKeys := ∅
  signedKeys := ∅
  kyberKeys := ∅
  sessions := ∅
  sesame := none

namespace Store

/-- The signing half that is kept: a zero half does not replace a known one. -/
def mergeIdentity (existing : Option IdentityKey) (identityKey : IdentityKey) : IdentityKey :=
  match existing with
  | none => identityKey
  | some existing =>
      if identityKey.signingPublic = .zero ∧ existing.signingPublic ≠ .zero then
        { identityKey with signingPublic := existing.signingPublic }
      else identityKey

def saveIdentity (addr : Address) (identityKey : IdentityKey) (st : Store) : Store :=
  { st with
    identities := st.identities.insert addr (mergeIdentity st.identities[addr]? identityKey) }

/-- `SaveIdentity` as its callers see it: a nil identity forgets the address. -/
def saveOrForgetIdentity (addr : Address) (identityKey : Option IdentityKey) (st : Store) : Store :=
  match identityKey with
  | none => { st with identities := st.identities.erase addr }
  | some identityKey => saveIdentity addr identityKey st

def getIdentity (addr : Address) (st : Store) : Option IdentityKey := st.identities[addr]?

/-- Unknown peers are trusted; a half that is zero on either side is not compared. -/
def isTrustedIdentity (addr : Address) (identityKey : IdentityKey) (st : Store) : Bool :=
  match st.identities[addr]? with
  | none => true
  | some existing =>
      let dhOK := existing.publicKey = identityKey.publicKey
      if existing.signingPublic = .zero ∨ identityKey.signingPublic = .zero then dhOK
      else existing.signingPublic = identityKey.signingPublic ∧ dhOK

def removePreKey (id : UInt32) (st : Store) : Store :=
  { st with preKeys := st.preKeys.erase id }

/-- `SignedPreKeyExpired`. A key without a timestamp is expired, one from the future is not. -/
def signedPreKeyExpired (signedPreKey : SignedPreKey) (now : Int) (st : Store) : Bool :=
  if st.signedPreKeyMaxAge ≤ 0 then false
  else
    match signedPreKey.timestamp with
    | none => true
    | some timestamp =>
        let age := now - timestamp
        if age < 0 then false else age > st.signedPreKeyMaxAge

def storeSession (addr : Address) (data : Bytes) (st : Store) : Store :=
  { st with sessions := st.sessions.insert addr data }

def deleteSession (addr : Address) (st : Store) : Store :=
  { st with sessions := st.sessions.erase addr }

def deleteAllSessions (name : GoString) (st : Store) : Store :=
  { st with sessions := st.sessions.filter fun addr _ => addr.name ≠ name }

/-- `StoreSesameState` with a record. -/
def storeSesameState (data : Bytes) (st : Store) : Store :=
  { st with sesame := some data }

/-- The addresses of the sessions that may be dropped in favour of `address`. -/
def otherSessions (address : Address) (sessions : ExtTreeMap Address Bytes) : List Address :=
  sessions.keys.filter fun addr => addr.name = address.name ∧ addr ≠ address

def countSessions (name : GoString) (sessions : ExtTreeMap Address Bytes) : Nat :=
  (sessions.keys.filter fun addr => addr.name = name).length

/-- The loop of `EnforceSessionLimit`: each pass drops one other session of the name, the one Go
visits first. With `passes` passes left, that is number `pick passes` of them. -/
def dropSessions (limit : Int) (address : Address) (pick : Nat → Nat) :
    Nat → ExtTreeMap Address Bytes → ExtTreeMap Address Bytes
  | 0, sessions => sessions
  | passes + 1, sessions =>
      if (countSessions address.name sessions : Int) > limit then
        match otherSessions address sessions with
        | [] => sessions
        | first :: others =>
            let drop := (first :: others).getD (pick passes % (others.length + 1)) first
            dropSessions limit address pick passes (sessions.erase drop)
      else sessions

/-- `EnforceSessionLimit`. There are at most as many passes as sessions. -/
def enforceSessionLimit (pick : Nat → Nat) (address : Address) (st : Store) : Store :=
  if st.maxSessionsPerName ≤ 0 ∨ address.name = [] then st
  else
    { st with
      sessions := dropSessions st.maxSessionsPerName address pick st.sessions.size st.sessions }

/-- The session in favour of which others are dropped stays. -/
theorem dropSessions_address (limit : Int) (address : Address) (pick : Nat → Nat) (passes : Nat)
    (sessions : ExtTreeMap Address Bytes) :
    (dropSessions limit address pick passes sessions)[address]? = sessions[address]? := by
  induction passes generalizing sessions with
  | zero => rfl
  | succ passes ih =>
    rw [dropSessions]
    split
    · split
      · rfl
      · rename_i first others hother
        have hmem : (first :: others).getD (pick passes % (others.length + 1)) first ∈
            otherSessions address sessions := by
          have hlt : pick passes % (others.length + 1) < (first :: others).length :=
            Nat.mod_lt _ (Nat.succ_pos _)
          rw [hother, List.getD_eq_getElem _ _ hlt]
          exact List.getElem_mem hlt
        have hne := of_decide_eq_true (List.mem_filter.mp hmem).2
        simp only
        rw [ih, lookup_erase, if_neg hne.2]
    · rfl

theorem dropSessions_subset (limit : Int) (address : Address) (pick : Nat → Nat) (passes : Nat)
    (sessions : ExtTreeMap Address Bytes) :
    ∀ a ∈ dropSessions limit address pick passes sessions, a ∈ sessions := by
  induction passes generalizing sessions with
  | zero => exact fun _ h => h
  | succ passes ih =>
    rw [dropSessions]
    split
    · split
      · exact fun _ h => h
      · exact fun a ha => ExtTreeMap.mem_of_mem_erase (ih _ a ha)
    · exact fun _ h => h

/-- The limit takes sessions only. -/
theorem enforceSessionLimit_subset (pick : Nat → Nat) (address : Address) (st : Store) :
    ∀ a ∈ (st.enforceSessionLimit pick address).sessions, a ∈ st.sessions := by
  unfold enforceSessionLimit
  split
  · exact fun _ h => h
  · exact dropSessions_subset _ _ _ _ _

theorem enforceSessionLimit_address (pick : Nat → Nat) (address : Address) (st : Store) :
    (st.enforceSessionLimit pick address).sessions[address]? = st.sessions[address]? := by
  unfold enforceSessionLimit
  split
  · rfl
  · exact dropSessions_address _ _ _ _ _

end Store

/-- A function over the store. -/
abbrev StoreM := EStateM (Fault Err) Store

end SignalGo
