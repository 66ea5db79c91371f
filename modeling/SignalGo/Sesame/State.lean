import SignalGo.Lib.Decoder
import SignalGo.Lib.Time
import SignalGo.Store

/-!
# Sesame: the roster and its format

The roster of the local device: the users it knows, their devices, and which of them are stale
since when. It is stored with its users and devices in ascending order. Times are stored as whole
Unix seconds, in which 0 stands for a time that is not set.

* `State.serialize`, `deserializeState`: the format.
* `storedTime`: a time after it went through the format.
* `State.Fits`: names and numbers of entries fit their fields.
* `deserializeState_serialize`: such a roster comes back, with its times as they are stored.
-/

namespace SignalGo.Sesame

open Std (ExtTreeMap)
open Decoder

/-! ## The roster -/

structure DeviceRecord where
  stale : Bool
  staleSince : Time
  deriving DecidableEq

/-- `&deviceRecord{}`. -/
def DeviceRecord.new : DeviceRecord := ⟨false, .zero⟩

structure UserRecord where
  stale : Bool
  staleSince : Time
  devices : ExtTreeMap UInt32 DeviceRecord

structure State where
  users : ExtTreeMap GoString UserRecord

def newState : State := ⟨∅⟩

def UserRecord.new : UserRecord := ⟨false, .zero, ∅⟩

/-- The record of a user; it is created when there is none. -/
def State.getOrCreateUser (s : State) (id : GoString) : UserRecord :=
  s.users[id]?.getD .new

def State.setUser (s : State) (id : GoString) (user : UserRecord) : State :=
  ⟨s.users.insert id user⟩

/-! ## Times -/

def unixSeconds (t : Time) : Int64 := if t.isZero then 0 else t.unix

def timeFromUnixSeconds (sec : Int64) : Time := if sec = 0 then .zero else .ofUnix sec

/-! ## Encoding -/

def stateSerializeMagic : Bytes := [0x53, 0x49, 0x47, 0x53]

def stateSerializeVersion : UInt8 := 1

def invalidState (msg : String) : Err := .wrap .invalidMessage ("sesame state: " ++ msg)

def staleFlags (stale : Bool) : UInt8 := if stale then 1 else 0

def serializeDevice (device : UInt32 × DeviceRecord) : Bytes :=
  putUint32 device.1 ++ [staleFlags device.2.stale]
    ++ putUint64 (unixSeconds device.2.staleSince).toUInt64

/-- What is written for a user. `sort.Slice` puts the devices into the order of their numbers, which
is that of the entries of the map. -/
def userBytes (user : GoString × UserRecord) : Bytes :=
  putUint16 (.ofNat user.1.length) ++ user.1 ++ [staleFlags user.2.stale]
    ++ putUint64 (unixSeconds user.2.staleSince).toUInt64
    ++ putUint32 (.ofNat user.2.devices.size) ++ user.2.devices.toList.flatMap serializeDevice

def serializeUser (user : GoString × UserRecord) : Except Err Bytes :=
  if user.1.length > 0xffff then .error (.wrap .invalidMessage "sesame user id too long")
  else .ok (userBytes user)

/-- `Serialize`; `sort.Strings` compares byte by byte, as the map does. -/
def State.serialize (s : State) : Except Err Bytes := do
  let users ← s.users.toList.mapM serializeUser
  return stateSerializeMagic ++ [stateSerializeVersion] ++ putUint32 (.ofNat s.users.size)
    ++ users.flatten

/-! ## Decoding -/

/-- The entries of the devices; a device that is there twice keeps its last entry. -/
def readDevices : Nat → ExtTreeMap UInt32 DeviceRecord →
    Decoder Err (ExtTreeMap UInt32 DeviceRecord)
  | 0, devices => return devices
  | n + 1, devices => do
      need (4 + 1 + 8) (invalidState "truncated device record")
      let deviceID ← u32
      let flags ← u8
      let staleSince ← u64
      readDevices n
        (devices.insert deviceID ⟨flags &&& 1 = 1, timeFromUnixSeconds staleSince.toInt64⟩)

/-- The loop over the users. A user that is there twice adds to the devices of its record. -/
def readUsers : Nat → State → Decoder Err State
  | 0, state => return state
  | n + 1, state => do
      need 2 (invalidState "truncated user id length")
      let userIDLen ← u16
      need userIDLen.toNat (invalidState "truncated user id")
      let userID ← bytes userIDLen.toNat
      need (1 + 8 + 4) (invalidState "truncated user record")
      let flags ← u8
      let staleSince ← u64
      let deviceCount ← u32
      let user := state.getOrCreateUser userID
      let devices ← readDevices deviceCount.toNat user.devices
      readUsers n (state.setUser userID
        ⟨flags &&& 1 = 1, timeFromUnixSeconds staleSince.toInt64, devices⟩)

def readState : Decoder Err State := do
  let version ← u8
  if version ≠ stateSerializeVersion then fail (invalidState s!"unsupported version {version}")
  else do
    need 4 (invalidState "truncated header")
    let userCount ← u32
    readUsers userCount.toNat newState

def deserializeState (data : Bytes) : Except (Fault Err) State :=
  if data.length = 0 then .error (.err (invalidState "empty data"))
  else if data.length < 4 + 1 + 4 ∨ data.take 4 ≠ stateSerializeMagic then
    .error (.err (invalidState "unsupported format"))
  else (do let _ ← bytes 4; readState).run (invalidState "trailing data") data

/-! ## Round trip -/

/-- A time after it was stored: whole seconds, and the first second of 1970 is no time. -/
def storedTime (t : Time) : Time := timeFromUnixSeconds (unixSeconds t)

def DeviceRecord.stored (d : DeviceRecord) : DeviceRecord := ⟨d.stale, storedTime d.staleSince⟩

def UserRecord.stored (u : UserRecord) : UserRecord :=
  ⟨u.stale, storedTime u.staleSince, u.devices.map fun _ d => d.stored⟩

def State.stored (s : State) : State := ⟨s.users.map fun _ u => u.stored⟩

theorem storedTime_zero : storedTime .zero = .zero := rfl

/-- A time of whole seconds is stored as it is, unless it is the first second of 1970. -/
theorem storedTime_of_whole {t : Time} (hwhole : t.nsec = 0) (hunix : t.unix ≠ 0) :
    storedTime t = t := by
  unfold storedTime unixSeconds
  split
  case isTrue hzero => exact (Time.isZero_iff.mp hzero).symm
  case isFalse => rw [timeFromUnixSeconds, if_neg hunix, Time.ofUnix_unix hwhole]

/-- What has been stored once is stored as it is. -/
@[simp] theorem storedTime_storedTime (t : Time) : storedTime (storedTime t) = storedTime t := by
  by_cases hsec : unixSeconds t = 0
  · have hzero : storedTime t = .zero := if_pos hsec
    rw [hzero, storedTime_zero]
  · have hunix : storedTime t = .ofUnix (unixSeconds t) := if_neg hsec
    rw [hunix]
    exact storedTime_of_whole rfl (by rwa [Time.unix_ofUnix])

@[simp] theorem DeviceRecord.stored_stored (d : DeviceRecord) : d.stored.stored = d.stored := by
  simp [DeviceRecord.stored]

@[simp] theorem UserRecord.stored_stored (u : UserRecord) : u.stored.stored = u.stored := by
  have hdevices : (u.devices.map fun _ d => d.stored).map (fun _ d => d.stored) =
      u.devices.map fun _ d => d.stored := by
    apply ExtTreeMap.ext_getElem?
    intro id
    simp only [ExtTreeMap.getElem?_map, Option.map_map]
    congr 1
    funext d
    exact d.stored_stored
  simp [UserRecord.stored, hdevices]

@[simp] theorem State.stored_stored (s : State) : s.stored.stored = s.stored := by
  have husers : (s.users.map fun _ u => u.stored).map (fun _ u => u.stored) =
      s.users.map fun _ u => u.stored := by
    apply ExtTreeMap.ext_getElem?
    intro id
    simp only [ExtTreeMap.getElem?_map, Option.map_map]
    congr 1
    funext u
    exact u.stored_stored
  simp [State.stored, husers]

structure State.Fits (s : State) : Prop where
  names : ∀ id ∈ s.users, id.length ≤ 0xffff
  users : s.users.size < 2 ^ 32
  devices : ∀ (id : GoString) (user : UserRecord), s.users[id]? = some user →
    user.devices.size < 2 ^ 32

theorem staleFlags_and_one (stale : Bool) : decide (staleFlags stale &&& 1 = 1) = stale := by
  cases stale <;> decide

/-- The devices are added to those that are there, one by one. -/
theorem decodable_devices (l : List (UInt32 × DeviceRecord))
    (devices : ExtTreeMap UInt32 DeviceRecord) :
    Decodable (readDevices l.length devices) (l.flatMap serializeDevice)
      (l.foldl (fun devices d => devices.insert d.1 d.2.stored) devices) := by
  induction l generalizing devices with
  | nil => exact .pure devices
  | cons d l ih =>
    rw [List.flatMap_cons, serializeDevice, List.append_assoc, List.append_assoc]
    refine .need (by simp; omega) (.bind (.u32 _) ((Decodable.u8 _).bind
      (.bind (.u64 _) ?_)))
    rw [staleFlags_and_one]
    exact ih _

/-- The users are new to the roster they are added to. -/
theorem decodable_users (l : List (GoString × UserRecord)) (state : State)
    (hnames : ∀ u ∈ l, u.1.length ≤ 0xffff) (hsizes : ∀ u ∈ l, u.2.devices.size < 2 ^ 32)
    (hdistinct : l.Pairwise fun u v => u.1 ≠ v.1) (hnew : ∀ u ∈ l, u.1 ∉ state.users) :
    Decodable (readUsers l.length state) (l.flatMap userBytes)
      (l.foldl (fun state u => state.setUser u.1 u.2.stored) state) := by
  induction l generalizing state with
  | nil => exact .pure state
  | cons u l ih =>
    rw [List.forall_mem_cons] at hnames hsizes hnew
    rw [List.pairwise_cons] at hdistinct
    have hlen : (UInt16.ofNat u.1.length).toNat = u.1.length :=
      UInt16.toNat_ofNat_of_lt' (lt_of_le_of_lt hnames.1 (by decide))
    have hcount : (UInt32.ofNat u.2.devices.size).toNat = u.2.devices.toList.length := by
      rw [UInt32.toNat_ofNat_of_lt' hsizes.1, ExtTreeMap.length_toList]
    -- no user comes twice, so that each starts without devices
    have hfresh : (state.getOrCreateUser u.1).devices = ∅ := by
      rw [State.getOrCreateUser, ExtTreeMap.getElem?_eq_none hnew.1]
      rfl
    have hdevices : Decodable (readDevices u.2.devices.toList.length ∅)
        (u.2.devices.toList.flatMap serializeDevice) u.2.stored.devices := by
      have h := decodable_devices u.2.devices.toList ∅
      have hmap := foldl_insert_toList (u.2.devices.map fun _ d => d.stored)
      rw [ExtTreeMap.toList_map, List.foldl_map] at hmap
      rwa [hmap] at h
    have hrest := ih (state.setUser u.1 u.2.stored) hnames.2 hsizes.2 hdistinct.2 (by
      intro v hv hmem
      rcases ExtTreeMap.mem_insert.mp hmem with heq | hold
      · exact hdistinct.1 v hv (Std.LawfulEqOrd.eq_of_compare heq)
      · exact hnew.2 v hv hold)
    rw [List.flatMap_cons, userBytes]
    simp only [List.append_assoc]
    refine .need (by simp) (.bind (.u16 _) ?_)
    rw [hlen]
    refine .need (by simp) (.bind (.bytes rfl) ?_)
    refine .need (by simp; omega) (.bind (.u8 _) ((Decodable.u64 _).bind
      (.bind (.u32 _) ?_)))
    simp only [hfresh, hcount, staleFlags_and_one]
    exact hdevices.bind hrest

theorem mapM_serializeUser (l : List (GoString × UserRecord))
    (h : ∀ u ∈ l, u.1.length ≤ 0xffff) : l.mapM serializeUser = .ok (l.map userBytes) := by
  induction l with
  | nil => rfl
  | cons u l ih =>
    rw [List.forall_mem_cons] at h
    have hu : serializeUser u = .ok (userBytes u) := if_neg (Nat.not_lt.mpr h.1)
    rw [List.mapM_cons, hu, ok_bind, ih h.2, ok_bind]
    rfl

theorem serialize_eq {s : State} (h : ∀ id ∈ s.users, id.length ≤ 0xffff) :
    s.serialize = .ok (stateSerializeMagic ++ ([stateSerializeVersion]
      ++ (putUint32 (.ofNat s.users.size) ++ s.users.toList.flatMap userBytes))) := by
  have hnames : ∀ u ∈ s.users.toList, u.1.length ≤ 0xffff := fun u hu =>
    h u.1 (mem_of_mem_toList hu)
  rw [State.serialize, mapM_serializeUser _ hnames, ok_bind, ← List.flatMap_def]
  simp only [List.append_assoc]
  rfl

/-- One name that is too long is enough for an error. -/
theorem serialize_too_long {s : State} {id : GoString} (hid : id ∈ s.users)
    (hlong : 0xffff < id.length) : ∃ e, s.serialize = .error e := by
  have hmapM (l : List (GoString × UserRecord)) (h : ∃ u ∈ l, 0xffff < u.1.length) :
      ∃ e, l.mapM serializeUser = .error e := by
    induction l with
    | nil => simp at h
    | cons u l ih =>
      rw [List.mapM_cons]
      by_cases hu : 0xffff < u.1.length
      · exact ⟨_, by rw [serializeUser, if_pos hu, error_bind]⟩
      · obtain ⟨e, he⟩ := ih (by simpa [hu] using h)
        exact ⟨e, by rw [serializeUser, if_neg hu, ok_bind, he, error_bind]⟩
  rw [ExtTreeMap.mem_iff_isSome_getElem?, Option.isSome_iff_exists] at hid
  obtain ⟨user, huser⟩ := hid
  obtain ⟨e, he⟩ := hmapM s.users.toList
    ⟨(id, user), ExtTreeMap.mem_toList_iff_getElem?_eq_some.mpr huser, hlong⟩
  exact ⟨e, by rw [State.serialize, he, error_bind]⟩

/-- **The round trip of a roster.** -/
theorem deserializeState_serialize {s : State} (h : s.Fits) :
    ∃ data, s.serialize = .ok data ∧ data ≠ [] ∧ deserializeState data = .ok s.stored := by
  refine ⟨_, serialize_eq h.names, by simp [stateSerializeMagic], ?_⟩
  have hcount : (UInt32.ofNat s.users.size).toNat = s.users.toList.length := by
    rw [UInt32.toNat_ofNat_of_lt' h.users, ExtTreeMap.length_toList]
  have husers : Decodable (readUsers s.users.toList.length newState)
      (s.users.toList.flatMap userBytes) s.stored := by
    have hread := decodable_users s.users.toList newState
      (fun u hu => h.names u.1 (mem_of_mem_toList hu))
      (fun u hu => h.devices u.1 u.2 (ExtTreeMap.mem_toList_iff_getElem?_eq_some.mp hu))
      (ExtTreeMap.distinct_keys_toList.imp fun hne heq =>
        hne (Std.LawfulEqOrd.compare_eq_iff_eq.mpr heq))
      (fun u _ => ExtTreeMap.not_mem_empty)
    have hmap := foldl_insert_toList (s.users.map fun _ u => u.stored)
    rw [ExtTreeMap.toList_map, List.foldl_map] at hmap
    have hfold : s.users.toList.foldl (fun state u => state.setUser u.1 u.2.stored) newState =
        s.stored := by
      rw [State.stored, ← hmap]
      exact List.foldl_hom State.mk fun users u => rfl
    rwa [hfold] at hread
  have hstate : Decodable readState ([stateSerializeVersion]
      ++ (putUint32 (.ofNat s.users.size) ++ s.users.toList.flatMap userBytes)) s.stored := by
    refine .bind (.u8 _) ?_
    rw [if_neg (not_not.mpr rfl)]
    refine .need (by simp) (.bind (.u32 _) ?_)
    rwa [hcount]
  have hall := (Decodable.bytes (ε := Err) (n := 4) (b := stateSerializeMagic) rfl).bind
    (k := fun _ => readState) hstate
  rw [deserializeState, if_neg (by simp [stateSerializeMagic]),
    if_neg (by simp [stateSerializeMagic])]
  exact hall.run _

end SignalGo.Sesame
