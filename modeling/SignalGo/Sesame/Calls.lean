import SignalGo.Sesame.Pruning

/-!
# Sesame: calls of a manager

The calls that change the roster, one after the other, with anything else that happens to the store
in between. A call that fails leaves the roster as it was.

* `Call.run`: a call of the manager.
* `ManagerStep`: a call, or a change of the store that is not one of the roster.
* `RoomyStep`: a step that finds room: the format counts users and devices with 32 bits.
* `SoundStore.step`: such a step keeps the roster sound.
-/

namespace SignalGo.Sesame

open Std (ExtTreeMap)
open Effect

variable {loc : Address} {m : Manager} {order : MapOrder} {s : State} {st st' : Store}
  {userID : GoString} {devices : List Device} {now : Time}

inductive Call where
  | applyDeviceList (userID : GoString) (devices : List Device) (now : Time)
  | markUserStale (userID : GoString) (now : Time)
  | markDeviceStale (addr : Address) (now : Time)
  | touchDevice (addr : Address)
  | pruneStale (now : Time)

def Call.run (m : Manager) (order : MapOrder) : Call → StoreM Unit
  | .applyDeviceList userID devices now => do
      let _ ← Sesame.applyDeviceList m order userID devices now
      return ()
  | .markUserStale userID now => Sesame.markUserStale userID now
  | .markDeviceStale addr now => Sesame.markDeviceStale m addr now
  | .touchDevice addr => Sesame.touchDevice m addr
  | .pruneStale now => Sesame.pruneStale m order now

/-- The user a call writes and the devices it may create. -/
def Call.named : Call → Option (GoString × List UInt32)
  | .applyDeviceList userID devices _ => some (userID, devices.map Device.deviceID)
  | .markUserStale userID _ => some (userID, [])
  | .markDeviceStale addr _ => some (addr.name, [addr.device])
  | .touchDevice addr => some (addr.name, [addr.device])
  | .pruneStale _ => none

inductive ManagerEvent where
  | call (maxLatency : Duration) (c : Call)
  | other

/-- A step of a store: a manager with the local address is called, or something else is written. -/
inductive ManagerStep (loc : Address) : Store → ManagerEvent → Store → Prop where
  | call {st : Store} (order : MapOrder) (maxLatency : Duration) (c : Call) :
      ManagerStep loc st (.call maxLatency c) (after (c.run ⟨loc, maxLatency⟩ order) st)
  | other {st st' : Store} : st'.sesame = st.sesame → ManagerStep loc st .other st'

/-- The roster the step finds has room for what it names. -/
def ManagerEvent.Roomy (st : Store) : ManagerEvent → Prop
  | .call _ c => ∀ s userID ids, Holds st s → c.named = some (userID, ids) → s.HasRoom userID ids
  | .other => True

def RoomyStep (loc : Address) (st : Store) (e : ManagerEvent) (st' : Store) : Prop :=
  ManagerStep loc st e st' ∧ e.Roomy st

/-- The store holds a sound roster. -/
def SoundStore (loc : Address) (st : Store) : Prop := ∃ s, Holds st s ∧ Sound loc s

theorem soundStore_of_empty (h : st.sesame = none) : SoundStore loc st := by
  refine ⟨newState, ?_, sound_newState loc⟩
  rw [Holds, h]
  rfl

theorem SoundStore.of_sesame (h : SoundStore loc st) (heq : st'.sesame = st.sesame) :
    SoundStore loc st' := by
  obtain ⟨s, hholds, hsound⟩ := h
  refine ⟨s, ?_, hsound⟩
  rwa [Holds, heq]

theorem Sound.not_mem_local (h : Sound loc s) :
    loc.device ∉ (s.getOrCreateUser loc.name).devices := by
  unfold State.getOrCreateUser
  cases huser : s.users[loc.name]? with
  | none => exact ExtTreeMap.not_mem_empty
  | some user => exact h.noLocal user huser

/-! ## The device list -/

variable (order userID now) in
/-- A device list creates the devices it names, but not the local one. -/
theorem mem_listedUser (hm : m.localAddress = loc) (hsound : Sound loc s)
    {set : ExtTreeMap UInt32 Device} (hset : addDevices devices ∅ = .ok set) :
    (∀ id ∈ (listedUser m userID set (order.visit set.toList) now
        (s.getOrCreateUser userID)).devices,
      id ∈ devices.map Device.deviceID ∨ id ∈ (s.getOrCreateUser userID).devices) ∧
    (userID = loc.name → loc.device ∉ (listedUser m userID set (order.visit set.toList) now
      (s.getOrCreateUser userID)).devices) := by
  constructor
  · intro id hid
    rw [ExtTreeMap.mem_iff_isSome_getElem?, lookup_listedUser hset] at hid
    by_cases hlisted : id ∈ devices.map Device.deviceID
    · exact .inl hlisted
    · rw [if_neg hlisted, Option.isSome_map, ← ExtTreeMap.mem_iff_isSome_getElem?] at hid
      exact .inr hid
  · rintro rfl
    have hnone := ExtTreeMap.getElem?_eq_none hsound.not_mem_local
    rw [ExtTreeMap.mem_iff_isSome_getElem?, lookup_listedUser hset, hnone, hm]
    simp

variable (m order now) in
/-- **A call of `ApplyDeviceList`** fails and leaves the roster as it was, or stores the new record
of the user and deletes the sessions of the changed identities. -/
theorem applyDeviceList_cases (hm : m.localAddress = loc) (hholds : Holds st s)
    (hsound : Sound loc s) (hroom : s.HasRoom userID (devices.map Device.deviceID)) :
    (∃ e st', applyDeviceList m order userID devices now st = .error e st' ∧
      st'.sesame = st.sesame ∧
      (¬ (devices.map Device.deviceID).Nodup → st' = st) ∧
      (userID = [] ∨ 0xffff < userID.length ∨ ¬ (devices.map Device.deviceID).Nodup)) ∨
    (∃ set data, addDevices devices ∅ = .ok set ∧
      (let changed := changedAddresses m userID st (order.visit set.toList)
       let s' := s.setUser userID (listedUser m userID set (order.visit set.toList) now
        (s.getOrCreateUser userID))
       let st' := (deleteSessions changed st).storeSesameState data
       applyDeviceList m order userID devices now st = .ok (outcome changed) st' ∧
        Holds st' s'.stored ∧ Sound loc s'.stored)) := by
  by_cases hname : userID = []
  · left
    exact ⟨_, st, by rw [applyDeviceList, if_pos hname]; rfl, rfl, fun _ => rfl, .inl hname⟩
  cases hset : addDevices devices ∅ with
  | error e =>
    left
    refine ⟨.err e, st, ?_, rfl, fun _ => rfl, .inr (.inr fun hnodup => ?_)⟩
    · rw [applyDeviceList, if_neg hname, bind_of_ok (loadState_of_holds hholds), hset]
      rfl
    · obtain ⟨set, hok⟩ := addDevices_of_nodup hnodup fun d _ => ExtTreeMap.not_mem_empty
      rw [hset] at hok
      cases hok
  | ok set =>
    obtain ⟨hdevices, hlocal⟩ := mem_listedUser order userID now hm hsound hset
    have heq := applyDeviceList_eq m order now hname hholds hset
    rcases persist_setUser hsound hroom hdevices hlocal
      (deleteSessions (changedAddresses m userID st (order.visit set.toList)) st) with
      ⟨hlong, e, herror⟩ | ⟨-, data, hok, hnew, hnewSound⟩
    · left
      refine ⟨e, _, heq.trans (bind_of_error herror), ?_, fun hdup => ?_, .inr (.inl hlong)⟩
      · rw [deleteSessions_eq]
      · exact absurd (addDevices_ok hset).1 hdup
    · right
      exact ⟨set, data, rfl, heq.trans (bind_of_ok hok), hnew, hnewSound⟩

/-! ## All calls -/

theorem SoundStore.persist (hholds : Holds st s) (hsound : Sound loc s) {ids : List UInt32}
    (hroom : s.HasRoom userID ids) {user : UserRecord}
    (hdevices : ∀ id ∈ user.devices, id ∈ ids ∨ id ∈ (s.getOrCreateUser userID).devices)
    (hlocal : userID = loc.name → loc.device ∉ user.devices) :
    SoundStore loc (after (persistState (s.setUser userID user)) st) := by
  rcases persist_setUser hsound hroom hdevices hlocal st with ⟨-, e, herror⟩ | ⟨-, data, hok, hnew⟩
  · rw [after_of_error herror]
    exact ⟨s, hholds, hsound⟩
  · rw [after_of_ok hok]
    exact ⟨_, hnew⟩

/-- A call that marks or touches a device writes the record of that device only. -/
theorem mem_insert_device {addr : Address} {records : ExtTreeMap UInt32 DeviceRecord}
    (record : DeviceRecord) (hne : addr ≠ loc)
    (hlocal : addr.name = loc.name → loc.device ∉ records) :
    (∀ id ∈ records.insert addr.device record, id ∈ [addr.device] ∨ id ∈ records) ∧
    (addr.name = loc.name → loc.device ∉ records.insert addr.device record) := by
  constructor
  · intro id hid
    rcases ExtTreeMap.mem_insert.mp hid with heq | hold
    · exact .inl (List.mem_singleton.mpr (Std.LawfulEqOrd.compare_eq_iff_eq.mp heq).symm)
    · exact .inr hold
  · intro hname hmem
    rcases ExtTreeMap.mem_insert.mp hmem with heq | hold
    · refine hne ?_
      cases addr
      cases loc
      exact Address.mk.injEq .. ▸ ⟨hname, Std.LawfulEqOrd.compare_eq_iff_eq.mp heq⟩
    · exact hlocal hname hold

theorem SoundStore.call {maxLatency : Duration} {c : Call} (h : SoundStore loc st)
    (hroom : (ManagerEvent.call maxLatency c).Roomy st) (order : MapOrder) :
    SoundStore loc (after (c.run ⟨loc, maxLatency⟩ order) st) := by
  have hsame := h
  obtain ⟨s, hholds, hsound⟩ := h
  have hload := loadState_of_holds hholds
  have hlocal {name : GoString} (hname : name = loc.name) :
      loc.device ∉ (s.getOrCreateUser name).devices := hname ▸ hsound.not_mem_local
  cases c with
  | applyDeviceList userID devices now =>
    -- the result is dropped, which does not touch the store
    rw [Call.run, after_bind_of_keeps fun _ => Keeps.pure ()]
    rcases applyDeviceList_cases ⟨loc, maxLatency⟩ order now rfl hholds
      hsound (hroom s _ _ hholds rfl) with ⟨e, st', herror, hsesame, -⟩ | ⟨set, data, -, hok, hnew⟩
    · rw [after_of_error herror]
      exact hsame.of_sesame hsesame
    · rw [after_of_ok hok]
      exact ⟨_, hnew⟩
  | markUserStale userID now =>
    rw [Call.run, markUserStale]
    split
    · exact hsame
    · rw [after_bind_of_ok hload]
      have hdevices : ((s.getOrCreateUser userID).mark now).devices =
          (s.getOrCreateUser userID).devices := by
        unfold UserRecord.mark
        split <;> rfl
      refine SoundStore.persist hholds hsound (hroom s _ _ hholds rfl) (fun id hid => ?_)
        fun hname => ?_
      · exact .inr (hdevices ▸ hid)
      · rw [hdevices]
        exact hlocal hname
  | markDeviceStale addr now =>
    rw [Call.run, markDeviceStale]
    split
    · exact hsame
    · rw [after_bind_of_ok hload]
      simp only
      split
      · exact hsame
      · rename_i hne
        obtain ⟨hdevices, hnot⟩ := mem_insert_device
          (((s.getOrCreateUser addr.name).devices[addr.device]?.getD .new).mark now) hne hlocal
        exact SoundStore.persist hholds hsound (hroom s _ _ hholds rfl) hdevices hnot
  -- a mark and a touch store one device that is not the local one
  | touchDevice addr =>
    rw [Call.run, touchDevice]
    split
    · exact hsame
    · rw [after_bind_of_ok hload]
      simp only
      split
      · exact SoundStore.persist hholds hsound (hroom s _ _ hholds rfl)
          (fun id hid => .inr hid) hlocal
      · rename_i hne
        obtain ⟨hdevices, hnot⟩ := mem_insert_device .new hne hlocal
        exact SoundStore.persist hholds hsound (hroom s _ _ hholds rfl) hdevices hnot
  -- pruning only takes entries away, so that it needs no room
  | pruneStale now =>
    by_cases hlatency : 0 < maxLatency
    · obtain ⟨st', hforgets, heq⟩ := pruneStale_eq (m := ⟨loc, maxLatency⟩) order now
        hlatency hholds
      obtain ⟨data, hdata, hnew⟩ := holds_persist (hsound.pruned maxLatency now).fits
      have hok : Call.run ⟨loc, maxLatency⟩ order (.pruneStale now) st =
          .ok () (st'.storeSesameState data) := heq.trans (persistState_of_ok hdata)
      rw [after_of_ok hok]
      refine ⟨_, hnew st', ?_⟩
      rw [(hsound.pruned maxLatency now).stored]
      exact hsound.pruned maxLatency now
    · have herror : Call.run ⟨loc, maxLatency⟩ order (.pruneStale now) st =
          .error (.err (.wrap .invalidMessage "max latency must be > 0")) st := by
        rw [Call.run, pruneStale, if_pos (Int64.not_lt.mp hlatency)]
        rfl
      rw [after_of_error herror]
      exact hsame

/-- **Every roster that is reached is sound.** -/
theorem SoundStore.step {e : ManagerEvent} (h : SoundStore loc st)
    (hstep : RoomyStep loc st e st') : SoundStore loc st' := by
  obtain ⟨hstep, hroom⟩ := hstep
  cases hstep with
  | call order maxLatency c => exact h.call hroom order
  | other hsesame => exact h.of_sesame hsesame

end SignalGo.Sesame
