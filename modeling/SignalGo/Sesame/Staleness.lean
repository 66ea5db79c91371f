import SignalGo.Sesame.DeviceList

/-!
# Sesame: stale for how long?

`PruneStale` drops what has been stale for at least the maximal latency. `Marks` says since when a
user and a device have been stale without interruption, with times as they were given to the calls;
the roster keeps them in whole seconds only, and takes the first second of 1970 for no time at all.

* `Marks.step`: what a call that returns does to the marks.
* `ExactTime`: a time the roster keeps as it is.
* `Tracks`: the roster has the marks.
* `Tracks.call`: calls at such times keep it that way.
* `pruning_exact`: then pruning drops a device exactly when its time has come.
-/

namespace SignalGo.Sesame

open Std (ExtTreeMap)
open Effect

variable {loc : Address} {m : Manager} {order : MapOrder} {s : State} {st st' : Store}
  {userID : GoString} {devices : List Device} {now t : Time} {maxLatency : Duration}

/-! ## Since when users and devices are stale -/

/-- The marks of a history: since when a user is stale, and for a device that is recorded, since
when it is stale. -/
structure Marks where
  user : GoString → Option Time
  device : Address → Option (Option Time)

/-- At the start nobody is known. -/
def Marks.empty : Marks := ⟨fun _ => none, fun _ => none⟩

/-- At `now`, the mark of time `t` is at least as old as the maximal latency. -/
def expired (maxLatency : Duration) (now t : Time) : Bool := t.nanos + maxLatency.toInt ≤ now.nanos

/-- The time of the device has come: it or its user is stale for long enough. -/
def Marks.Expired (ms : Marks) (maxLatency : Duration) (now : Time) (addr : Address) : Prop :=
  (∃ t, ms.device addr = some (some t) ∧ expired maxLatency now t = true) ∨
    ∃ t, ms.user addr.name = some t ∧ expired maxLatency now t = true

/-- What a call does that returns. A device list ends the marks of its user and of the listed
devices and marks the others that are recorded; a mark does not replace an older one; touching a
device ends its mark and that of its user; what is pruned is not recorded any more. -/
def Marks.step (loc : Address) (maxLatency : Duration) : Call → Marks → Marks
  | .applyDeviceList userID devices now, ms =>
      { user := Function.update ms.user userID none
        device := fun a =>
          if a.name = userID then
            if a.device ∈ devices.map Device.deviceID then
              if a = loc then ms.device a else some none
            else (ms.device a).map fun since => some (since.getD now)
          else ms.device a }
  | .markUserStale userID now, ms =>
      { ms with user := Function.update ms.user userID (some ((ms.user userID).getD now)) }
  | .markDeviceStale addr now, ms =>
      if addr = loc then ms
      else { ms with
        device := Function.update ms.device addr (some (some ((ms.device addr).join.getD now))) }
  | .touchDevice addr, ms =>
      { user := Function.update ms.user addr.name none
        device := if addr = loc then ms.device else Function.update ms.device addr (some none) }
  | .pruneStale now, ms =>
      { user := fun userID => (ms.user userID).filter fun t => !expired maxLatency now t
        device := fun a =>
          if (ms.user a.name).any (expired maxLatency now) then none
          else (ms.device a).filter fun since => !since.any (expired maxLatency now) }

/-! ## The marks of a roster -/

def DeviceRecord.since (d : DeviceRecord) : Option Time :=
  if d.stale then some d.staleSince else none

def UserRecord.since (u : UserRecord) : Option Time := if u.stale then some u.staleSince else none

def State.device (s : State) (a : Address) : Option DeviceRecord :=
  s.users[a.name]?.bind fun u => u.devices[a.device]?

def State.marks (s : State) : Marks where
  user userID := s.users[userID]?.bind UserRecord.since
  device a := (s.device a).map DeviceRecord.since

/-- A time that the roster keeps as it is: whole seconds, and not one that stands for no time. -/
structure ExactTime (t : Time) : Prop where
  whole : t.nsec = 0
  unix : t.unix ≠ 0
  set : t ≠ .zero

theorem storedTime_of_exact (h : ExactTime t) : storedTime t = t :=
  storedTime_of_whole h.whole h.unix

/-- The code's test, whose difference of times may saturate, is the exact one. -/
theorem shouldPrune_iff (h : ExactTime t) (hpos : 0 < maxLatency) :
    shouldPrune now t maxLatency = expired maxLatency now t := by
  have hlatency : 0 < maxLatency.toInt := Int64.lt_iff_toInt_lt.mp hpos
  unfold shouldPrune expired
  rw [if_neg (by simpa using h.set)]
  split
  -- a mark in the future has not expired
  case isTrue hbefore =>
    rw [Time.before, decide_eq_true_eq] at hbefore
    rw [eq_comm, decide_eq_false_iff_not]
    omega
  case isFalse => exact decide_eq_decide.mpr (Time.le_sub_iff maxLatency hlatency)

/-- A user that is not recorded has no devices. -/
theorem getOrCreateUser_devices (s : State) (userID : GoString) (id : UInt32) :
    (s.getOrCreateUser userID).devices[id]? = s.device ⟨userID, id⟩ := by
  unfold State.getOrCreateUser State.device
  cases s.users[userID]? with
  | none => simp [UserRecord.new]
  | some user => rfl

/-- And no mark. -/
theorem getOrCreateUser_since (s : State) (userID : GoString) :
    (s.getOrCreateUser userID).since = s.marks.user userID := by
  show (s.users[userID]?.getD .new).since = s.users[userID]?.bind UserRecord.since
  cases s.users[userID]? with
  | none => rfl
  | some user => rfl

/-- The record of one user has changed. -/
theorem marks_setUser (hsound : Sound loc s) (userID : GoString) (user : UserRecord) :
    (s.setUser userID user).stored.marks =
      { user := Function.update s.marks.user userID user.stored.since
        device := fun a =>
          if a.name = userID then (user.stored.devices[a.device]?).map DeviceRecord.since
          else s.marks.device a } := by
  have hlookup := lookup_setUser_stored hsound userID user
  unfold State.marks State.device
  simp only [hlookup, Marks.mk.injEq]
  constructor
  · funext name
    by_cases hname : name = userID
    · subst hname
      simp
    · rw [if_neg (Ne.symm hname), Function.update_of_ne hname]
  · funext a
    by_cases hname : a.name = userID
    · rw [if_pos hname.symm, if_pos hname]
      rfl
    · rw [if_neg (Ne.symm hname), if_neg hname]

/-- The roster in the store has the marks, and they are all times it keeps as they are. -/
structure Tracks (loc : Address) (st : Store) (s : State) (ms : Marks) : Prop where
  holds : Holds st s
  sound : Sound loc s
  marks : s.marks = ms
  users : ∀ name t, ms.user name = some t → ExactTime t
  devices : ∀ a t, ms.device a = some (some t) → ExactTime t

/-- A store without a roster has no marks. -/
theorem tracks_of_empty (h : st.sesame = none) : Tracks loc st newState .empty := by
  refine ⟨?_, sound_newState loc, ?_, nofun, nofun⟩
  · rw [Holds, h]
    rfl
  · unfold State.marks State.device newState
    simp [Marks.empty]

/-- The times at which the call marks something. -/
def Call.Exact : Call → Prop
  | .applyDeviceList _ _ now => ExactTime now
  | .markUserStale _ now => ExactTime now
  | .markDeviceStale _ now => ExactTime now
  | .touchDevice _ => True
  | .pruneStale _ => True

variable {ms : Marks}

variable (loc maxLatency) in
/-- A call marks at its own time or leaves an older mark. -/
theorem Marks.step_exact {c : Call} (hc : c.Exact)
    (husers : ∀ name t, ms.user name = some t → ExactTime t)
    (hdevices : ∀ a t, ms.device a = some (some t) → ExactTime t) :
    (∀ name t, (ms.step loc maxLatency c).user name = some t → ExactTime t) ∧
    ∀ a t, (ms.step loc maxLatency c).device a = some (some t) → ExactTime t := by
  -- What an update of one entry leaves behind.
  have hupdate {α β : Type} [DecidableEq α] {f : α → β} {k : α} {v : β} {P : β → Prop} (hv : P v)
      (hf : ∀ x, P (f x)) (x : α) : P (Function.update f k v x) := by
    by_cases hx : x = k
    · subst hx
      rwa [Function.update_self]
    · rw [Function.update_of_ne hx]
      exact hf x
  cases c with
  | applyDeviceList userID devices now =>
    refine ⟨hupdate (P := fun o => ∀ t, o = some t → ExactTime t) nofun husers, fun a t ht => ?_⟩
    simp only [Marks.step] at ht
    split_ifs at ht
    · exact hdevices a t ht
    · cases ht
    · obtain ⟨since, hsince, heq⟩ := Option.map_eq_some_iff.mp ht
      cases since with
      | none =>
        cases heq
        exact hc
      | some t' =>
        cases heq
        exact hdevices a _ hsince
    · exact hdevices a t ht
  | markUserStale userID now =>
    refine ⟨hupdate (P := fun o => ∀ t, o = some t → ExactTime t) (fun t ht => ?_) husers, hdevices⟩
    cases hold : ms.user userID with
    | none =>
      rw [hold] at ht
      cases ht
      exact hc
    | some t' =>
      rw [hold] at ht
      cases ht
      exact husers userID _ hold
  | markDeviceStale addr now =>
    rw [Marks.step]
    split
    · exact ⟨husers, hdevices⟩
    · refine ⟨husers, hupdate (P := fun o => ∀ t, o = some (some t) → ExactTime t)
        (fun t ht => ?_) hdevices⟩
      cases hold : (ms.device addr).join with
      | none =>
        rw [hold] at ht
        cases ht
        exact hc
      | some t' =>
        rw [hold] at ht
        cases ht
        exact hdevices addr _ (Option.join_eq_some_iff.mp hold)
  | touchDevice addr =>
    refine ⟨hupdate (P := fun o => ∀ t, o = some t → ExactTime t) nofun husers, ?_⟩
    rw [Marks.step]
    simp only
    split
    · exact hdevices
    · exact hupdate (P := fun o => ∀ t, o = some (some t) → ExactTime t) nofun hdevices
  | pruneStale now =>
    refine ⟨fun name t ht => husers name t (Option.filter_eq_some_iff.mp ht).1, fun a t ht => ?_⟩
    simp only [Marks.step] at ht
    split at ht
    · cases ht
    · exact hdevices a t (Option.filter_eq_some_iff.mp ht).1

/-! ## Calls and marks -/

/-- The first mark is the one that counts. -/
theorem DeviceRecord.mark_since (d : DeviceRecord) :
    (d.mark now).since = some (d.since.getD now) := by
  unfold DeviceRecord.mark DeviceRecord.since
  cases hstale : d.stale with
  | true => simp [hstale]
  | false => simp

theorem UserRecord.mark_since (u : UserRecord) : (u.mark now).since = some (u.since.getD now) := by
  unfold UserRecord.mark UserRecord.since
  cases hstale : u.stale with
  | true => simp [hstale]
  | false => simp

variable {d : DeviceRecord}

/-- At an exact time the mark is stored as it is set. -/
theorem DeviceRecord.mark_stored (h : d.stored = d) (hnow : ExactTime now) :
    (d.mark now).stored = d.mark now := by
  unfold DeviceRecord.mark
  split
  · exact h
  · rw [DeviceRecord.stored, storedTime_of_exact hnow]

/-- The same for a user: the mark of an exact time is read back as it was set. -/
theorem UserRecord.mark_stored_since {u : UserRecord} (h : u.stored = u) (hnow : ExactTime now) :
    (u.mark now).stored.since = some (u.since.getD now) := by
  rw [← UserRecord.mark_since]
  unfold UserRecord.mark
  split
  · rw [h]
  · simp only [UserRecord.since, UserRecord.stored, storedTime_of_exact hnow]

theorem UserRecord.stored_since_with (u : UserRecord) (devices : ExtTreeMap UInt32 DeviceRecord) :
    ({ u with devices } : UserRecord).stored.since = u.stored.since := rfl

/-- Storing changes nothing in a record that was stored before. -/
theorem Sound.getOrCreateUser_stored (h : Sound loc s) (userID : GoString) :
    (s.getOrCreateUser userID).stored = s.getOrCreateUser userID := by
  unfold State.getOrCreateUser
  cases huser : s.users[userID]? with
  | none =>
    rw [Option.getD_none, UserRecord.stored, UserRecord.new, UserRecord.mk.injEq]
    refine ⟨rfl, rfl, ExtTreeMap.ext_getElem? fun id => ?_⟩
    simp
  | some user => exact h.user_stored huser

theorem Sound.device_stored (h : Sound loc s) {userID : GoString} {id : UInt32}
    (hd : (s.getOrCreateUser userID).devices[id]? = some d) : d.stored = d :=
  UserRecord.device_stored (h.getOrCreateUser_stored userID) hd

variable {user : UserRecord}

/-- A record that keeps the devices of its user keeps their marks. -/
theorem stored_devices (hsound : Sound loc s)
    (hdevices : user.devices = (s.getOrCreateUser userID).devices) (a : Address)
    (hname : a.name = userID) :
    (user.stored.devices[a.device]?).map DeviceRecord.since = s.marks.device a := by
  have hstored := congrArg UserRecord.devices (hsound.getOrCreateUser_stored userID)
  have huser : user.stored.devices = (s.getOrCreateUser userID).devices := by
    rw [← hstored, UserRecord.stored, UserRecord.stored, hdevices]
  rw [huser, getOrCreateUser_devices, ← hname]
  rfl

/-- The devices of the user have not changed. -/
theorem marks_setUser_same (hsound : Sound loc s)
    (hdevices : user.devices = (s.getOrCreateUser userID).devices) :
    (s.setUser userID user).stored.marks =
      { s.marks with user := Function.update s.marks.user userID user.stored.since } := by
  rw [marks_setUser hsound, Marks.mk.injEq]
  refine ⟨rfl, funext fun a => ?_⟩
  split
  case isTrue hname => exact stored_devices hsound hdevices a hname
  case isFalse => rfl

variable {addr : Address}

/-- The record of one device was written. -/
theorem marks_setUser_insert (hsound : Sound loc s) {record : DeviceRecord}
    (hdevices : user.devices =
      (s.getOrCreateUser addr.name).devices.insert addr.device record) :
    (s.setUser addr.name user).stored.marks =
      ⟨Function.update s.marks.user addr.name user.stored.since,
        Function.update s.marks.device addr (some record.stored.since)⟩ := by
  rw [marks_setUser hsound, Marks.mk.injEq]
  refine ⟨rfl, funext fun a => ?_⟩
  split
  case isTrue hname =>
    by_cases haddr : a = addr
    · subst haddr
      rw [Function.update_self, UserRecord.stored, ExtTreeMap.getElem?_map, hdevices,
        lookup_insert, if_pos rfl]
      rfl
    · have hdevice : addr.device ≠ a.device := fun heq => haddr (by
        cases a
        cases addr
        exact Address.mk.injEq .. ▸ ⟨hname, heq.symm⟩)
      rw [Function.update_of_ne haddr, ← stored_devices hsound rfl a hname, UserRecord.stored,
        UserRecord.stored, ExtTreeMap.getElem?_map, ExtTreeMap.getElem?_map, hdevices,
        lookup_insert, if_neg hdevice]
  case isFalse hname =>
    rw [Function.update_of_ne]
    rintro rfl
    exact hname rfl

/-- A call fails and leaves the roster as it was, or it leaves a roster with the given marks. -/
def Leaves (loc : Address) (x : StoreM Unit) (st : Store) (ms : Marks) : Prop :=
  (∃ e st', x st = .error e st' ∧ st'.sesame = st.sesame) ∨
    ∃ st' s', x st = .ok () st' ∧ Tracks loc st' s' ms

/-- A call that ends with storing the record of one user. -/
theorem Tracks.persist (h : Tracks loc st s ms) (c : Call) (hc : c.Exact) {ids : List UInt32}
    (hroom : s.HasRoom userID ids)
    (hdevices : ∀ id ∈ user.devices, id ∈ ids ∨ id ∈ (s.getOrCreateUser userID).devices)
    (hlocal : userID = loc.name → loc.device ∉ user.devices)
    (hmarks : (s.setUser userID user).stored.marks = ms.step loc maxLatency c) :
    Leaves loc (persistState (s.setUser userID user)) st (ms.step loc maxLatency c) := by
  obtain ⟨husers, hdevs⟩ := Marks.step_exact loc maxLatency hc h.users h.devices
  rcases persist_setUser h.sound hroom hdevices hlocal st with
    ⟨-, e, herror⟩ | ⟨-, data, hok, hholds, hsound⟩
  · exact .inl ⟨e, st, herror, rfl⟩
  · exact .inr ⟨_, _, hok, hholds, hsound, hmarks, husers, hdevs⟩

/-- `MarkUserStale` writes the mark of the user. -/
theorem Tracks.markUserStale (h : Tracks loc st s ms) (hnow : ExactTime now)
    (hroom : s.HasRoom userID []) :
    Leaves loc (markUserStale userID now) st
      (ms.step loc maxLatency (.markUserStale userID now)) := by
  rw [Sesame.markUserStale]
  split
  · exact .inl ⟨_, st, rfl, rfl⟩
  · have hdevices : ((s.getOrCreateUser userID).mark now).devices =
        (s.getOrCreateUser userID).devices := by
      unfold UserRecord.mark
      split <;> rfl
    unfold Leaves
    rw [bind_of_ok (loadState_of_holds h.holds)]
    refine h.persist (.markUserStale userID now) hnow hroom (fun id hid => .inr (hdevices ▸ hid))
      (fun hname => ?_) ?_
    · rw [hdevices, hname]
      exact h.sound.not_mem_local
    · rw [marks_setUser_same h.sound hdevices, UserRecord.mark_stored_since
        (h.sound.getOrCreateUser_stored userID) hnow, getOrCreateUser_since, h.marks]
      rfl

/-- `MarkDeviceStale` writes the mark of the device, unless it is the local one. -/
theorem Tracks.markDeviceStale (h : Tracks loc st s ms) (hnow : ExactTime now)
    (hroom : s.HasRoom addr.name [addr.device]) :
    Leaves loc (markDeviceStale ⟨loc, maxLatency⟩ addr now) st
      (ms.step loc maxLatency (.markDeviceStale addr now)) := by
  rw [Sesame.markDeviceStale]
  split
  · exact .inl ⟨_, st, rfl, rfl⟩
  · unfold Leaves
    rw [bind_of_ok (loadState_of_holds h.holds)]
    simp only
    split
    case isTrue hlocal =>
      right
      refine ⟨st, s, rfl, ?_⟩
      rw [Marks.step, if_pos hlocal]
      exact h
    case isFalse hne =>
      -- the record is the one there or a new one, and either is what the marks say of the device
      generalize hold : (s.getOrCreateUser addr.name).devices[addr.device]?.getD .new = old
      obtain ⟨hdevices, hnot⟩ := mem_insert_device (old.mark now) hne
        fun hname => hname ▸ h.sound.not_mem_local
      refine h.persist (.markDeviceStale addr now) hnow hroom hdevices hnot ?_
      have hstored : old.stored = old := by
        rw [← hold]
        cases hd : (s.getOrCreateUser addr.name).devices[addr.device]? with
        | none => rfl
        | some d => exact h.sound.device_stored hd
      have hsince : old.since = (ms.device addr).join := by
        rw [← hold, ← h.marks, getOrCreateUser_devices]
        show _ = ((s.device addr).map DeviceRecord.since).join
        cases s.device addr with
        | none => rfl
        | some d => rfl
      rw [marks_setUser_insert h.sound rfl, UserRecord.stored_since_with,
        h.sound.getOrCreateUser_stored, getOrCreateUser_since,
        DeviceRecord.mark_stored hstored hnow, DeviceRecord.mark_since, hsince, Marks.step,
        if_neg hne, h.marks, Function.update_eq_self]

/-- `TouchDevice` clears the marks of the device and of its user. -/
theorem Tracks.touchDevice (h : Tracks loc st s ms) (hroom : s.HasRoom addr.name [addr.device]) :
    Leaves loc (touchDevice ⟨loc, maxLatency⟩ addr) st
      (ms.step loc maxLatency (.touchDevice addr)) := by
  rw [Sesame.touchDevice]
  split
  · exact .inl ⟨_, st, rfl, rfl⟩
  · unfold Leaves
    rw [bind_of_ok (loadState_of_holds h.holds)]
    simp only
    split
    case isTrue hlocal =>
      refine h.persist (.touchDevice addr) trivial hroom (fun id hid => .inr hid)
        (fun hname => hname ▸ h.sound.not_mem_local) ?_
      refine (marks_setUser_same h.sound (by rfl)).trans ?_
      rw [Marks.step, if_pos hlocal, h.marks]
      rfl
    case isFalse hne =>
      obtain ⟨hdevices, hnot⟩ := mem_insert_device .new hne
        fun hname => hname ▸ h.sound.not_mem_local
      refine h.persist (.touchDevice addr) trivial hroom hdevices hnot ?_
      rw [marks_setUser_insert h.sound rfl, Marks.step, if_neg hne, h.marks]
      rfl

/-- `ApplyDeviceList` marks the devices that the list leaves out. -/
theorem Tracks.applyDeviceList (h : Tracks loc st s ms) (order : MapOrder) (hnow : ExactTime now)
    (hroom : s.HasRoom userID (devices.map Device.deviceID)) :
    Leaves loc ((Call.applyDeviceList userID devices now).run ⟨loc, maxLatency⟩ order) st
      (ms.step loc maxLatency (.applyDeviceList userID devices now)) := by
  obtain ⟨husers, hdevs⟩ := Marks.step_exact loc maxLatency
    (c := .applyDeviceList userID devices now) hnow h.users h.devices
  unfold Leaves
  rw [Call.run]
  rcases applyDeviceList_cases ⟨loc, maxLatency⟩ order now rfl h.holds h.sound hroom with
    ⟨e, st', herror, hsesame, -⟩ | ⟨set, data, hset, hok, hholds, hsound⟩
  · exact .inl ⟨e, st', bind_of_error herror, hsesame⟩
  · refine .inr ⟨_, _, bind_of_ok hok, hholds, hsound, ?_, husers, hdevs⟩
    rw [marks_setUser h.sound, Marks.step, h.marks, Marks.mk.injEq]
    refine ⟨rfl, funext fun a => ?_⟩
    split
    case isFalse => rfl
    case isTrue hname =>
      have hold : (s.getOrCreateUser userID).devices[a.device]? = s.device a := by
        rw [getOrCreateUser_devices, ← hname]
      have haddr : (⟨userID, a.device⟩ : Address) = a := by rw [← hname]
      have hself : ∀ d, s.device a = some d → d.stored = d := fun d hd =>
        h.sound.device_stored (hold.trans hd)
      have hms : ms.device a = (s.device a).map DeviceRecord.since := by
        rw [← h.marks]
        rfl
      -- a listed device is unmarked, and any other keeps its first mark or gets this one
      rw [lookup_listed_stored _ _ _ _ hset, hold, haddr, hms]
      cases hd : s.device a with
      | none => split_ifs <;> rfl
      | some d =>
        simp only [Option.map_some, hself d hd, DeviceRecord.mark_stored (hself d hd) hnow]
        split_ifs
        · rfl
        · rfl
        · exact congrArg some d.mark_since

/-- A record is due when its mark has expired. -/
theorem due_of_since (d : DeviceRecord) (hexact : ∀ t, d.since = some t → ExactTime t)
    (hpos : 0 < maxLatency) : d.due maxLatency now = d.since.any (expired maxLatency now) := by
  unfold DeviceRecord.due DeviceRecord.since at *
  cases hstale : d.stale with
  | false => rfl
  | true =>
    rw [hstale] at hexact
    simp [shouldPrune_iff (hexact d.staleSince rfl) hpos]

theorem user_due_of_since (u : UserRecord) (hexact : ∀ t, u.since = some t → ExactTime t)
    (hpos : 0 < maxLatency) : u.due maxLatency now = u.since.any (expired maxLatency now) := by
  unfold UserRecord.due UserRecord.since at *
  cases hstale : u.stale with
  | false => rfl
  | true =>
    rw [hstale] at hexact
    simp [shouldPrune_iff (hexact u.staleSince rfl) hpos]

theorem Tracks.user_eq (h : Tracks loc st s ms) (name : GoString) :
    ms.user name = s.users[name]?.bind UserRecord.since := by
  rw [← h.marks]
  rfl

theorem Tracks.device_eq (h : Tracks loc st s ms) (a : Address) :
    ms.device a = (s.device a).map DeviceRecord.since := by
  rw [← h.marks]
  rfl

/-- A user of the roster is dropped when the marks say so. -/
theorem Tracks.user_due (h : Tracks loc st s ms) (hpos : 0 < maxLatency)
    (huser : s.users[userID]? = some user) :
    user.due maxLatency now = (ms.user userID).any (expired maxLatency now) := by
  have hms : ms.user userID = user.since := by
    rw [h.user_eq, huser]
    rfl
  rw [hms]
  exact user_due_of_since user (fun t ht => h.users userID t (hms.trans ht)) hpos

theorem Tracks.device_due (h : Tracks loc st s ms) (hpos : 0 < maxLatency) {a : Address}
    (hd : s.device a = some d) :
    d.due maxLatency now = d.since.any (expired maxLatency now) := by
  have hms : ms.device a = some d.since := by
    rw [h.device_eq, hd]
    rfl
  exact due_of_since d (fun t ht => h.devices a t (by rw [hms, ht])) hpos

/-- A filter drops what it finds expired, and nothing else. -/
theorem filter_not_any (since : Option Time) (p : Time → Bool) :
    (since.filter fun t => !p t) = if since.any p then none else since := by
  cases since with
  | none => rfl
  | some t => cases hp : p t <;> simp [hp]

/-- The mark of a user that stays stays. -/
theorem since_pruned (user : UserRecord) : (user.pruned maxLatency now).bind UserRecord.since =
    if user.due maxLatency now then none else user.since := by
  unfold UserRecord.pruned
  split
  · rfl
  · split
    case isTrue hempty =>
      rw [Bool.and_eq_true, Bool.not_eq_true'] at hempty
      simp [UserRecord.since, hempty.2]
    case isFalse => rfl

/-- A user that stays without devices has none to look up. -/
theorem lookup_pruned_device (user : UserRecord) (id : UInt32) :
    ((user.pruned maxLatency now).bind fun u => u.devices[id]?) =
      if user.due maxLatency now then none else (user.kept maxLatency now).devices[id]? := by
  unfold UserRecord.pruned
  split
  · rfl
  · split
    case isTrue hempty =>
      rw [Bool.and_eq_true, ExtTreeMap.isEmpty_iff] at hempty
      rw [hempty.1]
      simp
    case isFalse => rfl

/-- Pruning drops the expired marks and keeps the others. -/
theorem Tracks.marks_pruned (h : Tracks loc st s ms) (hpos : 0 < maxLatency) :
    (s.pruned maxLatency now).marks = ms.step loc maxLatency (.pruneStale now) := by
  have hlookup (name : GoString) : (s.pruned maxLatency now).users[name]? =
      s.users[name]?.bind fun u => u.pruned maxLatency now := ExtTreeMap.getElem?_filterMap'
  rw [Marks.step]
  unfold State.marks State.device
  simp only [hlookup, Marks.mk.injEq]
  constructor
  · funext name
    rw [filter_not_any]
    cases huser : s.users[name]? with
    | none =>
      rw [h.user_eq, huser]
      rfl
    | some user =>
      rw [← h.user_due hpos huser, h.user_eq, huser]
      exact since_pruned user
  · funext a
    cases huser : s.users[a.name]? with
    | none =>
      rw [h.user_eq, h.device_eq, State.device, huser]
      rfl
    | some user =>
      have hdevice : s.device a = user.devices[a.device]? := by
        rw [State.device, huser]
        rfl
      rw [Option.bind_some, lookup_pruned_device, ← h.user_due hpos huser, h.device_eq, hdevice]
      -- with an expired user all of its devices go
      split
      · rfl
      · rw [lookup_kept, UserRecord.dueDevice]
        cases hd : user.devices[a.device]? with
        | none => rfl
        | some d =>
          have hdue : d.due maxLatency now = _ := h.device_due hpos (hdevice.trans hd)
          simp only [Option.map_some, Option.getD_some, hdue, Option.filter_some,
            Bool.not_eq_eq_eq_not, Bool.not_true]
          split_ifs <;> simp_all

/-- `PruneStale` does so too, where it accepts the latency. -/
theorem Tracks.pruneStale (h : Tracks loc st s ms) (order : MapOrder) :
    Leaves loc (pruneStale ⟨loc, maxLatency⟩ order now) st
      (ms.step loc maxLatency (.pruneStale now)) := by
  by_cases hpos : 0 < maxLatency
  · obtain ⟨husers, hdevs⟩ := Marks.step_exact loc maxLatency
      (c := .pruneStale now) trivial h.users h.devices
    obtain ⟨st', -, heq⟩ := pruneStale_eq (m := ⟨loc, maxLatency⟩) order now hpos h.holds
    have hsound := h.sound.pruned maxLatency now
    obtain ⟨data, hdata, hnew⟩ := holds_persist hsound.fits
    refine .inr ⟨_, s.pruned maxLatency now, heq.trans (persistState_of_ok hdata), ?_, hsound, ?_,
      husers, hdevs⟩
    · have hholds := hnew st'
      rwa [hsound.stored] at hholds
    · exact h.marks_pruned hpos
  · left
    refine ⟨.err (.wrap .invalidMessage "max latency must be > 0"), st, ?_, rfl⟩
    rw [Sesame.pruneStale, if_pos (Int64.not_lt.mp hpos)]
    rfl

/-! ## Whole runs -/

/-- A step of the store with its marks: those of a call that fails stay. -/
inductive MarkedStep (loc : Address) : Store × Marks → ManagerEvent → Store × Marks → Prop where
  | returned {st st' : Store} {ms : Marks} (order : MapOrder) (maxLatency : Duration) (c : Call) :
      c.run ⟨loc, maxLatency⟩ order st = .ok () st' →
      MarkedStep loc (st, ms) (.call maxLatency c) (st', ms.step loc maxLatency c)
  | failed {st st' : Store} {ms : Marks} {e : Fault Err} (order : MapOrder)
      (maxLatency : Duration) (c : Call) :
      c.run ⟨loc, maxLatency⟩ order st = .error e st' →
      MarkedStep loc (st, ms) (.call maxLatency c) (st', ms)
  | other {st st' : Store} {ms : Marks} :
      st'.sesame = st.sesame → MarkedStep loc (st, ms) .other (st', ms)

def ManagerEvent.Exact : ManagerEvent → Prop
  | .call _ c => c.Exact
  | .other => True

/-- A step that finds room and marks at exact times. -/
def ExactStep (loc : Address) (x : Store × Marks) (e : ManagerEvent) (y : Store × Marks) : Prop :=
  MarkedStep loc x e y ∧ e.Roomy x.1 ∧ e.Exact

/-- The rest of the store does not matter. -/
theorem Tracks.of_sesame (h : Tracks loc st s ms) (heq : st'.sesame = st.sesame) :
    Tracks loc st' s ms := by
  refine ⟨?_, h.sound, h.marks, h.users, h.devices⟩
  rw [Holds, heq]
  exact h.holds

/-- **Every call**, once: it fails or does to the roster what it does to the marks. -/
theorem Tracks.call (h : Tracks loc st s ms) (order : MapOrder) {c : Call}
    (hroom : (ManagerEvent.call maxLatency c).Roomy st) (hc : c.Exact) :
    Leaves loc (c.run ⟨loc, maxLatency⟩ order) st (ms.step loc maxLatency c) := by
  cases c with
  | applyDeviceList userID devices now =>
    exact h.applyDeviceList order hc (hroom s _ _ h.holds rfl)
  | markUserStale userID now => exact h.markUserStale hc (hroom s _ _ h.holds rfl)
  | markDeviceStale addr now => exact h.markDeviceStale hc (hroom s _ _ h.holds rfl)
  | touchDevice addr => exact h.touchDevice (hroom s _ _ h.holds rfl)
  | pruneStale now => exact h.pruneStale order

/-- **One step** of a run: store and marks stay together. -/
theorem Tracks.step {x y : Store × Marks} {e : ManagerEvent} (h : ∃ s, Tracks loc x.1 s x.2)
    (hstep : ExactStep loc x e y) : ∃ s, Tracks loc y.1 s y.2 := by
  obtain ⟨s, htracks⟩ := h
  obtain ⟨hstep, hroom, hexact⟩ := hstep
  cases hstep with
  | returned order maxLatency c hok =>
    rcases htracks.call order hroom hexact with ⟨e, st', herror, -⟩ | ⟨st', s', hok', hnew⟩
    · rw [hok] at herror
      cases herror
    · rw [hok] at hok'
      cases hok'
      exact ⟨s', hnew⟩
  | failed order maxLatency c herror =>
    rcases htracks.call order hroom hexact with ⟨e, st', herror', hsesame⟩ | ⟨st', s', hok, -⟩
    · rw [herror] at herror'
      cases herror'
      exact ⟨s, htracks.of_sesame hsesame⟩
    · rw [herror] at hok
      cases hok
  | other hsesame => exact ⟨s, htracks.of_sesame hsesame⟩

variable (now) in
/-- The loops of the code find a recorded device due exactly when the marks say so. -/
theorem Tracks.loses_iff (h : Tracks loc st s ms) (hpos : 0 < maxLatency) {since : Option Time}
    (hrec : ms.device addr = some since) :
    (s.losesSession maxLatency now addr = true ↔ ms.Expired maxLatency now addr) ∧
    s.losesIdentity maxLatency now addr = s.losesSession maxLatency now addr := by
  rw [h.device_eq, Option.map_eq_some_iff] at hrec
  obtain ⟨d, hd, rfl⟩ := hrec
  obtain ⟨user, huser, hdevice⟩ := Option.bind_eq_some_iff.mp hd
  have hms : ms.device addr = some d.since := by
    rw [h.device_eq, hd]
    rfl
  have hmem : user.devices.contains addr.device = true := by
    rw [← ExtTreeMap.mem_iff_contains, ExtTreeMap.mem_iff_isSome_getElem?, hdevice]
    rfl
  unfold State.losesSession State.losesIdentity
  rw [huser, Option.map_some, Option.map_some, Option.getD_some, Option.getD_some,
    UserRecord.losesSession, UserRecord.losesIdentity, hmem, Bool.and_true]
  refine ⟨?_, rfl⟩
  rw [UserRecord.dueDevice, hdevice, Option.map_some, Option.getD_some, Bool.or_eq_true,
    h.user_due hpos huser, h.device_due hpos hd, Option.any_eq_true, Option.any_eq_true, or_comm,
    Marks.Expired, hms]
  simp only [Option.some.injEq]

/-- **Pruning is exact.** In every run whose calls find room in the roster and set their marks at
whole seconds other than the first of 1970 and the zero time, pruning deletes the session and the
identity of a recorded device exactly when it or its user has been stale for the maximal latency. -/
theorem pruning_exact (loc : Address) (st₀ st : Store) (ms : Marks) (es : List ManagerEvent)
    (hfresh : st₀.sesame = none) (hrun : Run (ExactStep loc) (st₀, .empty) es (st, ms))
    (maxLatency : Duration) (hpos : 0 < maxLatency) (order : MapOrder) (now : Time) :
    ∃ st', pruneStale ⟨loc, maxLatency⟩ order now st = .ok () st' ∧
      ∀ addr since, ms.device addr = some since →
        (ms.Expired maxLatency now addr →
          st'.sessions[addr]? = none ∧ st'.identities[addr]? = none) ∧
        (¬ ms.Expired maxLatency now addr →
          st'.sessions[addr]? = st.sessions[addr]? ∧
          st'.identities[addr]? = st.identities[addr]?) := by
  obtain ⟨s, htracks⟩ := hrun.invariant (I := fun x => ∃ s, Tracks loc x.1 s x.2)
    (fun h hstep => Tracks.step h hstep) ⟨_, tracks_of_empty hfresh⟩
  obtain ⟨st₁, hforgets, heq⟩ := pruneStale_eq (m := ⟨loc, maxLatency⟩) order now hpos htracks.holds
  obtain ⟨data, hdata, -⟩ := holds_persist (htracks.sound.pruned maxLatency now).fits
  refine ⟨_, heq.trans (persistState_of_ok hdata), fun addr since hrec => ?_⟩
  -- the code deletes a session or an identity where its loops find the device due
  obtain ⟨hiff, hsame⟩ := htracks.loses_iff now hpos hrec
  have hsession : (st₁.storeSesameState data).sessions[addr]? = _ := hforgets.sessions addr
  have hidentity : (st₁.storeSesameState data).identities[addr]? = _ := hforgets.identities addr
  rw [hsession, hidentity, hsame]
  refine ⟨fun hexpired => ?_, fun hnot => ?_⟩
  · rw [if_pos (hiff.mpr hexpired), if_pos (hiff.mpr hexpired)]
    exact ⟨rfl, rfl⟩
  · rw [if_neg (hnot ∘ hiff.mp), if_neg (hnot ∘ hiff.mp)]
    exact ⟨rfl, rfl⟩

/-! ### A device that is marked once -/

/-- The instant `sec` seconds and `nsec` nanoseconds after the start of 1970. -/
def sampleTime (sec : Int64) (nsec : Fin 1000000000) : Time := ⟨Time.unixToInternal + sec, nsec⟩

/-- The manager of another user, with a maximal latency of one second. -/
def sampleManager : Manager := ⟨⟨[2], 1⟩, 1000000000⟩

/-- The record of a user with a marked device. -/
def markedUser (t : Time) : UserRecord :=
  ⟨false, .zero, (∅ : ExtTreeMap UInt32 DeviceRecord).insert 1 ⟨true, t⟩⟩

/-- The roster in which the sample peer is marked. -/
def markedState (t : Time) : State := newState.setUser Store.samplePeer.name (markedUser t)

theorem roomy_learnedStore (t : Time) (maxLatency : Duration) :
    (ManagerEvent.call maxLatency (.markDeviceStale Store.samplePeer t)).Roomy learnedStore := by
  refine roomy_of_empty rfl fun name ids hnamed => ?_
  cases hnamed
  decide

/-- The first mark of all is stored. -/
theorem markDeviceStale_first (t : Time) :
    ∃ data, markDeviceStale sampleManager Store.samplePeer t learnedStore =
        .ok () (learnedStore.storeSesameState data) ∧
      Holds (learnedStore.storeSesameState data) (markedState t).stored ∧
      Sound ⟨[2], 1⟩ (markedState t).stored := by
  have hholds : Holds learnedStore newState := rfl
  have hroom := roomy_learnedStore t 1 newState _ _ hholds rfl
  have hne : Store.samplePeer ≠ ⟨[2], 1⟩ := by decide
  have hnew : newState.getOrCreateUser Store.samplePeer.name = .new := by
    rw [State.getOrCreateUser, newState, ExtTreeMap.getElem?_empty]
    rfl
  have hdevices : ∀ id ∈ (markedUser t).devices,
      id ∈ [Store.samplePeer.device] ∨
      id ∈ (newState.getOrCreateUser Store.samplePeer.name).devices := by
    rw [hnew]
    exact (mem_insert_device ⟨true, t⟩ hne fun _ => ExtTreeMap.not_mem_empty).1
  have hnot : Store.samplePeer.name = [2] → 1 ∉ (markedUser t).devices := fun hname =>
    absurd hname (by decide)
  rcases persist_setUser (sound_newState ⟨[2], 1⟩) hroom hdevices hnot learnedStore with
    ⟨hlong, -⟩ | ⟨-, data, hok, hsaved⟩
  · exact absurd hlong (by decide)
  · refine ⟨data, ?_, hsaved⟩
    rw [markDeviceStale, if_neg (by decide), bind_of_ok (loadState_of_holds hholds)]
    simp only [hnew]
    rw [if_neg (by decide)]
    have hmark : ((UserRecord.new.devices[Store.samplePeer.device]?).getD .new).mark t =
        ⟨true, t⟩ := by
      simp [UserRecord.new, DeviceRecord.mark, DeviceRecord.new]
    rw [hmark]
    exact hok

/-- A device that was marked at a whole second is pruned one second later. -/
theorem pruning_exact_whole :
    ∃ st₁ st₂, markDeviceStale sampleManager Store.samplePeer (sampleTime 1 0) learnedStore =
        .ok () st₁ ∧
      pruneStale sampleManager .ascending (sampleTime 2 0) st₁ = .ok () st₂ ∧
      st₂.sessions[Store.samplePeer]? = none := by
  obtain ⟨data, hmark, -⟩ := markDeviceStale_first (sampleTime 1 0)
  have hstep : ExactStep ⟨[2], 1⟩ (learnedStore, .empty)
      (.call 1000000000 (.markDeviceStale Store.samplePeer (sampleTime 1 0)))
      (learnedStore.storeSesameState data, Marks.empty.step ⟨[2], 1⟩ 1000000000
        (.markDeviceStale Store.samplePeer (sampleTime 1 0))) :=
    ⟨.returned .ascending _ _ hmark, roomy_learnedStore _ _, by decide, by decide, by decide⟩
  obtain ⟨st₂, hprune, hall⟩ := pruning_exact ⟨[2], 1⟩ learnedStore _ _ _ rfl (.single hstep)
    1000000000 (by decide) .ascending (sampleTime 2 0)
  have hdevice : (Marks.empty.step ⟨[2], 1⟩ 1000000000
      (.markDeviceStale Store.samplePeer (sampleTime 1 0))).device Store.samplePeer =
        some (some (sampleTime 1 0)) := by decide
  exact ⟨_, st₂, hmark, hprune,
    ((hall Store.samplePeer _ hdevice).1 (.inl ⟨_, hdevice, by decide⟩)).1⟩

/-- **A device pruned too early.** It is marked 1.9 seconds after the start of 1970 and stored as
marked 0.9 seconds earlier, so that a tenth of a second later it counts as stale for a second. -/
theorem pruning_early :
    ∃ st₁ st₂, markDeviceStale sampleManager Store.samplePeer (sampleTime 1 900000000)
        learnedStore = .ok () st₁ ∧
      pruneStale sampleManager .ascending (sampleTime 2 0) st₁ = .ok () st₂ ∧
      ¬ (Marks.empty.step sampleManager.localAddress sampleManager.maxLatency
        (.markDeviceStale Store.samplePeer (sampleTime 1 900000000))).Expired
          sampleManager.maxLatency (sampleTime 2 0) Store.samplePeer ∧
      st₁.sessions[Store.samplePeer]? = some [0] ∧ st₂.sessions[Store.samplePeer]? = none := by
  obtain ⟨data, hmark, hholds, hsound⟩ := markDeviceStale_first (sampleTime 1 900000000)
  obtain ⟨st', hforgets, heq⟩ := pruneStale_eq (m := sampleManager) .ascending (sampleTime 2 0)
    (by decide) hholds
  obtain ⟨data', hdata', -⟩ :=
    holds_persist (hsound.pruned sampleManager.maxLatency (sampleTime 2 0)).fits
  have hdevice : (markedUser (sampleTime 1 900000000)).stored.devices[Store.samplePeer.device]? =
      some ⟨true, sampleTime 1 0⟩ := by
    rw [UserRecord.stored, markedUser, ExtTreeMap.getElem?_map, lookup_insert, if_pos (by decide)]
    decide
  have hloses : (markedState (sampleTime 1 900000000)).stored.losesSession
      sampleManager.maxLatency (sampleTime 2 0) Store.samplePeer = true := by
    rw [State.losesSession, markedState, lookup_setUser_stored (sound_newState ⟨[2], 1⟩),
      if_pos rfl, Option.map_some, Option.getD_some, UserRecord.losesSession,
      UserRecord.dueDevice, hdevice]
    decide
  have hsession : (st'.storeSesameState data').sessions[Store.samplePeer]? = _ :=
    hforgets.sessions Store.samplePeer
  refine ⟨_, _, hmark, heq.trans (persistState_of_ok hdata'), ?_, ?_, ?_⟩
  · rintro (⟨t, ht, hexpired⟩ | ⟨t, ht, -⟩)
    · have hold : (Marks.empty.step sampleManager.localAddress sampleManager.maxLatency
          (.markDeviceStale Store.samplePeer (sampleTime 1 900000000))).device Store.samplePeer =
          some (some (sampleTime 1 900000000)) := by decide
      rw [hold] at ht
      cases ht
      exact absurd hexpired (by decide)
    · cases ht
  · exact learnedStore_session
  · rw [hsession, if_pos hloses]

end SignalGo.Sesame
