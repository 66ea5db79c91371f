import SignalGo.Sesame.Roster

/-!
# Sesame: what pruning deletes

The loops of `PruneStale` as functions: which records stay, and which sessions and identities go.
None of it depends on the order in which users and devices are visited.

* `Forgets`: a store with some sessions and identities deleted.
* `pruneDevices_ok`, `pruneUsers_ok`: the loops.
* `pruneStale_eq`: the call.
* `Sound.step`: every call keeps the roster sound, as long as there is room.
-/

namespace SignalGo.Sesame

open Std (ExtTreeMap)
open Effect

variable {m : Manager} {order : MapOrder} {s : State} {st st' st'' : Store} {userID : GoString}
  {now : Time}

/-! ## Deleting sessions and identities -/

/-- The second store is the first one without some sessions and identities. -/
structure Forgets (sessions identities : Address → Bool) (st st' : Store) : Prop where
  sessions : ∀ a, st'.sessions[a]? = if sessions a then none else st.sessions[a]?
  identities : ∀ a, st'.identities[a]? = if identities a then none else st.identities[a]?
  rest : st' = { st with sessions := st'.sessions, identities := st'.identities }

namespace Forgets

variable {p q p' q' : Address → Bool}

theorem refl (st : Store) : Forgets (fun _ => false) (fun _ => false) st st :=
  ⟨fun _ => rfl, fun _ => rfl, rfl⟩

/-- What one deletion or the other forgets. -/
theorem trans (h : Forgets p q st st') (h' : Forgets p' q' st' st'') :
    Forgets (fun a => p a || p' a) (fun a => q a || q' a) st st'' where
  sessions a := by
    rw [h'.sessions, h.sessions]
    cases p a <;> cases p' a <;> rfl
  identities a := by
    rw [h'.identities, h.identities]
    cases q a <;> cases q' a <;> rfl
  rest := by
    have hrest := h'.rest
    rw [h.rest] at hrest
    exact hrest

theorem congr (h : Forgets p q st st') (hp : ∀ a, p a = p' a) (hq : ∀ a, q a = q' a) :
    Forgets p' q' st st' := by
  rwa [funext hp, funext hq] at h

theorem deleteSession (addr : Address) (st : Store) :
    Forgets (fun a => a = addr) (fun _ => false) st (st.deleteSession addr) where
  sessions a := by
    simp only [Store.deleteSession, lookup_erase, decide_eq_true_eq, eq_comm (a := addr)]
  identities _ := rfl
  rest := rfl

theorem deleteAllSessions (name : GoString) (st : Store) :
    Forgets (fun a => a.name = name) (fun _ => false) st (st.deleteAllSessions name) where
  sessions a := by
    simp only [Store.deleteAllSessions, ExtTreeMap.getElem?_filter', decide_eq_true_eq]
    by_cases hname : a.name = name
    · simp [hname]
    · rw [if_neg hname]
      cases st.sessions[a]? <;> simp [hname]
  identities _ := rfl
  rest := rfl

theorem forgetIdentity (addr : Address) (st : Store) :
    Forgets (fun _ => false) (fun a => a = addr) st (st.saveOrForgetIdentity addr none) where
  sessions _ := rfl
  identities a := by
    simp only [Store.saveOrForgetIdentity, lookup_erase, decide_eq_true_eq, eq_comm (a := addr)]
  rest := rfl

/-- The roster is not touched. -/
theorem sesame (h : Forgets p q st st') : st'.sesame = st.sesame := by
  rw [h.rest]

end Forgets

/-! ## The loops -/

/-- A device is old enough to go. -/
def DeviceRecord.due (maxLatency : Duration) (now : Time) (d : DeviceRecord) : Bool :=
  d.stale && shouldPrune now d.staleSince maxLatency

def UserRecord.due (maxLatency : Duration) (now : Time) (u : UserRecord) : Bool :=
  u.stale && shouldPrune now u.staleSince maxLatency

/-- The user with the devices that stay. -/
def UserRecord.kept (maxLatency : Duration) (now : Time) (u : UserRecord) : UserRecord :=
  { u with devices := u.devices.filter fun _ d => !d.due maxLatency now }

/-- What is left of the record of a user. -/
def UserRecord.pruned (maxLatency : Duration) (now : Time) (u : UserRecord) : Option UserRecord :=
  if u.due maxLatency now then none
  else if (u.kept maxLatency now).devices.isEmpty && !u.stale then none
  else some (u.kept maxLatency now)

def State.pruned (maxLatency : Duration) (now : Time) (s : State) : State :=
  ⟨s.users.filterMap fun _ u => u.pruned maxLatency now⟩

/-- The device is recorded for the user and goes on its own. -/
def UserRecord.dueDevice (maxLatency : Duration) (now : Time) (u : UserRecord) (id : UInt32) :
    Bool :=
  (u.devices[id]?.map (DeviceRecord.due maxLatency now)).getD false

variable (userID) in
/-- The identities of all devices of a user. -/
theorem forgetIdentities_ok (l : List (UInt32 × DeviceRecord)) (st : Store) :
    ∃ st', forgetIdentities userID l st = .ok () st' ∧
      Forgets (fun _ => false) (fun a => a.name = userID ∧ a.device ∈ l.map (·.1)) st st' := by
  induction l generalizing st with
  | nil => exact ⟨st, rfl, (Forgets.refl st).congr (by simp) (by simp)⟩
  | cons d l ih =>
    obtain ⟨deviceID, record⟩ := d
    obtain ⟨st', hrest, hforgets⟩ := ih (st.saveOrForgetIdentity ⟨userID, deviceID⟩ none)
    refine ⟨st', ?_, ((Forgets.forgetIdentity _ st).trans hforgets).congr (by simp) fun a => ?_⟩
    · rw [forgetIdentities, bind_of_ok (update_apply _), hrest]
    · have haddr : a = ⟨userID, deviceID⟩ ↔ a.name = userID ∧ a.device = deviceID := by
        cases a
        simp
      simp only [haddr, List.map_cons, List.mem_cons, Bool.decide_or, Bool.decide_and]
      cases decide (a.name = userID) <;> simp

/-- The list has an entry of the device that goes. -/
def dueIn (maxLatency : Duration) (now : Time) (l : List (UInt32 × DeviceRecord)) (id : UInt32) :
    Bool :=
  l.any fun d => d.1 = id && d.2.due maxLatency now

variable (m now userID) in
/-- **The loop over the devices of a user**: those that are due go, with their sessions and
identities. -/
theorem pruneDevices_ok (l : List (UInt32 × DeviceRecord))
    (devices : ExtTreeMap UInt32 DeviceRecord) (st : Store) :
    ∃ devices' st', pruneDevices m now userID l devices st = .ok devices' st' ∧
      (∀ id, devices'[id]? = if dueIn m.maxLatency now l id then none else devices[id]?) ∧
      Forgets (fun a => a.name = userID ∧ dueIn m.maxLatency now l a.device)
        (fun a => a.name = userID ∧ dueIn m.maxLatency now l a.device) st st' := by
  induction l generalizing devices st with
  | nil =>
    refine ⟨devices, st, rfl, fun id => rfl, (Forgets.refl st).congr ?_ ?_⟩ <;> simp [dueIn]
  | cons d l ih =>
    obtain ⟨deviceID, record⟩ := d
    by_cases hdue : record.due m.maxLatency now = true
    · -- a due device: its session and identity go before the rest is visited
      obtain ⟨devices', st', hrest, hlookup, hforgets⟩ := ih (devices.erase deviceID)
        ((st.deleteSession ⟨userID, deviceID⟩).saveOrForgetIdentity ⟨userID, deviceID⟩ none)
      have hcons (id : UInt32) : dueIn m.maxLatency now ((deviceID, record) :: l) id =
          (decide (deviceID = id) || dueIn m.maxLatency now l id) := by
        simp [dueIn, hdue]
      have hall (a : Address) : (decide (a = ⟨userID, deviceID⟩) ||
          decide (a.name = userID ∧ dueIn m.maxLatency now l a.device = true)) =
          decide (a.name = userID ∧
            dueIn m.maxLatency now ((deviceID, record) :: l) a.device = true) := by
        have haddr : a = ⟨userID, deviceID⟩ ↔ a.name = userID ∧ deviceID = a.device := by
          cases a
          simp [eq_comm]
        rw [hcons]
        simp only [haddr, Bool.or_eq_true, decide_eq_true_eq, ← Bool.decide_or]
        refine decide_eq_decide.mpr ?_
        tauto
      refine ⟨devices', st', ?_, fun id => ?_, ?_⟩
      · have hcond : (record.stale && shouldPrune now record.staleSince m.maxLatency) = true := hdue
        rw [pruneDevices, if_pos hcond, bind_of_ok (update_apply _), bind_of_ok (update_apply _),
          hrest]
      · rw [hlookup, lookup_erase, hcons]
        by_cases hid : deviceID = id <;> simp [hid]
      · refine (((Forgets.deleteSession ⟨userID, deviceID⟩ st).trans
          (Forgets.forgetIdentity ⟨userID, deviceID⟩ _)).trans hforgets).congr (fun a => ?_)
          fun a => ?_
        · rw [Bool.or_false, hall]
        · rw [Bool.false_or, hall]
    · obtain ⟨devices', st', hrest, hlookup, hforgets⟩ := ih devices st
      have hcons (id : UInt32) : dueIn m.maxLatency now ((deviceID, record) :: l) id =
          dueIn m.maxLatency now l id := by
        simp [dueIn, hdue]
      refine ⟨devices', st', ?_, fun id => ?_, ?_⟩
      · have hcond : ¬ (record.stale && shouldPrune now record.staleSince m.maxLatency) = true :=
          hdue
        rw [pruneDevices, if_neg hcond, hrest]
      · rw [hlookup, hcons]
      · simpa only [hcons] using hforgets

/-- Visiting the devices of a user finds those that are recorded. -/
theorem dueIn_visit (u : UserRecord) (id : UInt32) (maxLatency : Duration) :
    dueIn maxLatency now (order.visit u.devices.toList) id = u.dueDevice maxLatency now id := by
  rw [Bool.eq_iff_iff, dueIn, List.any_eq_true, UserRecord.dueDevice]
  simp only [(order.perm _).mem_iff, Bool.and_eq_true, decide_eq_true_eq]
  constructor
  · rintro ⟨d, hd, rfl, hdue⟩
    have hget : u.devices[d.1]? = some d.2 := ExtTreeMap.mem_toList_iff_getElem?_eq_some.mp hd
    rw [hget, Option.map_some, Option.getD_some, hdue]
  · intro h
    cases hget : u.devices[id]? with
    | none => rw [hget] at h; cases h
    | some d =>
      rw [hget] at h
      exact ⟨(id, d), ExtTreeMap.mem_toList_iff_getElem?_eq_some.mpr hget, rfl, h⟩

/-- A device that does not go is one that is kept. -/
theorem lookup_kept (u : UserRecord) (id : UInt32) (maxLatency : Duration) :
    (u.kept maxLatency now).devices[id]? =
      if u.dueDevice maxLatency now id then none else u.devices[id]? := by
  rw [UserRecord.kept, ExtTreeMap.getElem?_filter', UserRecord.dueDevice]
  cases u.devices[id]? with
  | none => rfl
  | some d => cases hdue : d.due maxLatency now <;> simp [hdue]

/-- The session of the address goes with its user or its device. -/
def UserRecord.losesSession (maxLatency : Duration) (now : Time) (u : UserRecord) (id : UInt32) :
    Bool :=
  u.due maxLatency now || u.dueDevice maxLatency now id

/-- The identity goes with the record of the device. -/
def UserRecord.losesIdentity (maxLatency : Duration) (now : Time) (u : UserRecord) (id : UInt32) :
    Bool :=
  (u.due maxLatency now && u.devices.contains id) || u.dueDevice maxLatency now id

theorem mem_visit_devices (u : UserRecord) (id : UInt32) :
    id ∈ (order.visit u.devices.toList).map (·.1) ↔ id ∈ u.devices := by
  rw [((order.perm _).map _).mem_iff, ExtTreeMap.map_fst_toList_eq_keys, ExtTreeMap.mem_keys]

variable {u : UserRecord} {maxLatency : Duration}

theorem mem_of_dueDevice {id : UInt32} (h : u.dueDevice maxLatency now id = true) :
    id ∈ u.devices := by
  rw [ExtTreeMap.mem_iff_isSome_getElem?]
  unfold UserRecord.dueDevice at h
  cases hget : u.devices[id]? with
  | none => rw [hget] at h; cases h
  | some d => rfl

variable (m order now userID) in
/-- One user of the loop. -/
theorem pruneUser_ok (u : UserRecord) (rest : List (GoString × UserRecord)) (state : State)
    (st : Store) :
    ∃ st', pruneUsers m order now ((userID, u) :: rest) state st =
        pruneUsers m order now rest (match u.pruned m.maxLatency now with
          | none => ⟨state.users.erase userID⟩
          | some u' => state.setUser userID u') st' ∧
      Forgets (fun a => a.name = userID ∧ u.losesSession m.maxLatency now a.device)
        (fun a => a.name = userID ∧ u.losesIdentity m.maxLatency now a.device) st st' := by
  by_cases hdue : u.due m.maxLatency now = true
  · have hcond : (u.stale && shouldPrune now u.staleSince m.maxLatency) = true := hdue
    obtain ⟨st', hforget, hforgets⟩ :=
      forgetIdentities_ok userID (order.visit u.devices.toList) st
    refine ⟨st'.deleteAllSessions userID, ?_,
      (hforgets.trans (Forgets.deleteAllSessions userID st')).congr (fun a => ?_) fun a => ?_⟩
    · rw [pruneUsers, if_pos hcond, bind_of_ok hforget, bind_of_ok (update_apply _),
        UserRecord.pruned, if_pos hdue]
    · simp [UserRecord.losesSession, hdue]
    · -- A device that goes on its own is recorded, so that it goes with its user.
      have hiff : u.losesIdentity m.maxLatency now a.device = true ↔ a.device ∈ u.devices := by
        rw [UserRecord.losesIdentity, hdue, Bool.true_and, Bool.or_eq_true,
          ← ExtTreeMap.mem_iff_contains]
        exact ⟨fun h => h.elim id mem_of_dueDevice, .inl⟩
      simp [mem_visit_devices, hiff]
  · have hcond : ¬ (u.stale && shouldPrune now u.staleSince m.maxLatency) = true := hdue
    obtain ⟨devices', st', hprune, hlookup, hforgets⟩ :=
      pruneDevices_ok m userID now (order.visit u.devices.toList)
        u.devices st
    have hdevices : devices' = (u.kept m.maxLatency now).devices := by
      apply ExtTreeMap.ext_getElem?
      intro id
      rw [hlookup, lookup_kept, dueIn_visit]
    refine ⟨st', ?_, hforgets.congr (fun a => ?_) fun a => ?_⟩
    · rw [pruneUsers, if_neg hcond, bind_of_ok hprune, hdevices, UserRecord.pruned, if_neg hdue]
      split <;> rfl
    · simp [UserRecord.losesSession, hdue, dueIn_visit]
    · simp [UserRecord.losesIdentity, hdue, dueIn_visit]

variable (m order now) in
/-- **The loop over the users.** -/
theorem pruneUsers_ok (l : List (GoString × UserRecord)) (hdistinct : (l.map (·.1)).Nodup)
    (state : State) (st : Store) :
    ∃ state' st', pruneUsers m order now l state st = .ok state' st' ∧
      (∀ u ∈ l, state'.users[u.1]? = u.2.pruned m.maxLatency now) ∧
      (∀ id ∉ l.map (·.1), state'.users[id]? = state.users[id]?) ∧
      Forgets (fun a => l.any fun u => a.name = u.1 ∧ u.2.losesSession m.maxLatency now a.device)
        (fun a => l.any fun u => a.name = u.1 ∧ u.2.losesIdentity m.maxLatency now a.device)
        st st' := by
  induction l generalizing state st with
  | nil => exact ⟨state, st, rfl, by simp, by simp, (Forgets.refl st).congr (by simp) (by simp)⟩
  | cons u l ih =>
    obtain ⟨userID, user⟩ := u
    rw [List.map_cons, List.nodup_cons] at hdistinct
    obtain ⟨st1, hhead, hforgets⟩ :=
      pruneUser_ok m order userID now user l state st
    generalize hnext : (match user.pruned m.maxLatency now with
      | none => (⟨state.users.erase userID⟩ : State)
      | some u' => state.setUser userID u') = next at hhead
    have hlookup (id : GoString) : next.users[id]? =
        if userID = id then user.pruned m.maxLatency now else state.users[id]? := by
      rw [← hnext]
      cases hpruned : user.pruned m.maxLatency now with
      | none => exact lookup_erase _ _ _
      | some u' => exact lookup_insert _ _ _ _
    obtain ⟨state', st', hrest, hin, hout, hforgets'⟩ := ih hdistinct.2 next st1
    refine ⟨state', st', hhead.trans hrest, ?_, ?_, (hforgets.trans hforgets').congr ?_ ?_⟩
    · refine List.forall_mem_cons.mpr ⟨?_, hin⟩
      rw [hout userID hdistinct.1, hlookup, if_pos rfl]
    · intro id hid
      rw [List.map_cons, List.mem_cons, not_or] at hid
      rw [hout id hid.2, hlookup, if_neg (Ne.symm hid.1)]
    · simp
    · simp

/-- The address loses its session, or its identity. -/
def State.losesSession (maxLatency : Duration) (now : Time) (s : State) (a : Address) : Bool :=
  (s.users[a.name]?.map fun u => u.losesSession maxLatency now a.device).getD false

def State.losesIdentity (maxLatency : Duration) (now : Time) (s : State) (a : Address) : Bool :=
  (s.users[a.name]?.map fun u => u.losesIdentity maxLatency now a.device).getD false

/-- A user is visited once. -/
theorem any_visit_users (s : State) (f : UserRecord → Bool) (name : GoString) :
    ((order.visit s.users.toList).any fun u => name = u.1 ∧ f u.2) =
      (s.users[name]?.map f).getD false := by
  rw [Bool.eq_iff_iff, List.any_eq_true]
  simp only [(order.perm _).mem_iff, decide_eq_true_eq]
  constructor
  · rintro ⟨u, hu, rfl, hf⟩
    have hget : s.users[u.1]? = some u.2 := ExtTreeMap.mem_toList_iff_getElem?_eq_some.mp hu
    rw [hget, Option.map_some, Option.getD_some, hf]
  · intro h
    cases hget : s.users[name]? with
    | none => rw [hget] at h; cases h
    | some user =>
      rw [hget] at h
      exact ⟨(name, user), ExtTreeMap.mem_toList_iff_getElem?_eq_some.mpr hget, rfl, h⟩

variable (order now) in
/-- **Pruning**, up to storing what is left. -/
theorem pruneStale_eq (hlatency : 0 < m.maxLatency) (hholds : Holds st s) :
    ∃ st', Forgets (s.losesSession m.maxLatency now) (s.losesIdentity m.maxLatency now) st st' ∧
      pruneStale m order now st = persistState (s.pruned m.maxLatency now) st' := by
  have hdistinct : ((order.visit s.users.toList).map (·.1)).Nodup := by
    refine (((order.perm s.users.toList).map _).nodup_iff).mpr ?_
    rw [ExtTreeMap.map_fst_toList_eq_keys]
    exact ExtTreeMap.nodup_keys
  obtain ⟨state', st', hloop, hin, hout, hforgets⟩ :=
    pruneUsers_ok m order now _ hdistinct s st
  have hlookup (id : GoString) :
      state'.users[id]? = (s.pruned m.maxLatency now).users[id]? := by
    rw [State.pruned, ExtTreeMap.getElem?_filterMap']
    cases hget : s.users[id]? with
    | some user =>
      have hmem : (id, user) ∈ order.visit s.users.toList :=
        (order.perm _).mem_iff.mpr (ExtTreeMap.mem_toList_iff_getElem?_eq_some.mpr hget)
      exact hin (id, user) hmem
    | none =>
      rw [hout id, hget]
      · rfl
      · rw [((order.perm _).map _).mem_iff, ExtTreeMap.map_fst_toList_eq_keys,
          ExtTreeMap.mem_keys, ExtTreeMap.mem_iff_isSome_getElem?, hget]
        exact Bool.false_ne_true
  have hstate : state' = s.pruned m.maxLatency now := by
    cases state'
    exact congrArg State.mk (ExtTreeMap.ext_getElem? hlookup)
  refine ⟨st', hforgets.congr
    (fun a => any_visit_users s (fun u => u.losesSession m.maxLatency now a.device) a.name)
    (fun a => any_visit_users s (fun u => u.losesIdentity m.maxLatency now a.device) a.name), ?_⟩
  rw [pruneStale, if_neg (by simpa using hlatency), bind_of_ok (loadState_of_holds hholds),
    bind_of_ok hloop, hstate]

/-! ## What is left is sound -/

theorem UserRecord.device_stored (h : u.stored = u) {id : UInt32} {d : DeviceRecord}
    (hd : u.devices[id]? = some d) : d.stored = d := by
  have hlookup : u.stored.devices[id]? = some d := by rw [h, hd]
  rw [UserRecord.stored, ExtTreeMap.getElem?_map, hd, Option.map_some, Option.some.injEq] at hlookup
  exact hlookup

theorem UserRecord.pruned_eq_some {u' : UserRecord} (h : u.pruned maxLatency now = some u') :
    u' = u.kept maxLatency now := by
  unfold UserRecord.pruned at h
  split at h
  · cases h
  · split at h
    · cases h
    · cases h
      rfl

theorem UserRecord.kept_stored (h : u.stored = u) (maxLatency : Duration) :
    (u.kept maxLatency now).stored = u.kept maxLatency now := by
  have hdevices : (u.kept maxLatency now).devices.map (fun _ d => d.stored) =
      (u.kept maxLatency now).devices := by
    apply ExtTreeMap.ext_getElem?
    intro dev
    rw [ExtTreeMap.getElem?_map, lookup_kept]
    split
    · rfl
    · cases hd : u.devices[dev]? with
      | none => rfl
      | some d => rw [Option.map_some, UserRecord.device_stored h hd]
  have htime : storedTime u.staleSince = u.staleSince := congrArg UserRecord.staleSince h
  have htime' : storedTime (u.kept maxLatency now).staleSince = u.staleSince := htime
  rw [UserRecord.stored, hdevices, htime']
  rfl

/-- A user that stays is the one that was there, with the devices it keeps. -/
theorem lookup_pruned {id : GoString} {u' : UserRecord}
    (h : (s.pruned maxLatency now).users[id]? = some u') :
    ∃ u, s.users[id]? = some u ∧ u' = u.kept maxLatency now := by
  rw [State.pruned, ExtTreeMap.getElem?_filterMap', Option.bind_eq_some_iff] at h
  obtain ⟨u, hu, hpruned⟩ := h
  exact ⟨u, hu, UserRecord.pruned_eq_some hpruned⟩

/-- Pruning keeps the roster sound: it only takes away. -/
theorem Sound.pruned {loc : Address} (h : Sound loc s) (maxLatency : Duration) (now : Time) :
    Sound loc (s.pruned maxLatency now) where
  fits := by
    refine ⟨fun id hid => ?_, ?_, fun id u' hu' => ?_⟩
    · rw [ExtTreeMap.mem_iff_isSome_getElem?, Option.isSome_iff_exists] at hid
      obtain ⟨u', hu'⟩ := hid
      obtain ⟨u, hu, -⟩ := lookup_pruned hu'
      refine h.fits.names id ?_
      rw [ExtTreeMap.mem_iff_isSome_getElem?, hu]
      rfl
    · exact lt_of_le_of_lt ExtTreeMap.size_filterMap_le_size h.fits.users
    · obtain ⟨u, hu, rfl⟩ := lookup_pruned hu'
      exact lt_of_le_of_lt ExtTreeMap.size_filter_le_size (h.fits.devices id u hu)
  stored := by
    refine congrArg State.mk (ExtTreeMap.ext_getElem? fun id => ?_)
    rw [ExtTreeMap.getElem?_map]
    cases hu' : (s.pruned maxLatency now).users[id]? with
    | none =>
      have hnone : (s.users.filterMap fun _ u => u.pruned maxLatency now)[id]? = none := hu'
      rw [hnone]
      rfl
    | some u' =>
      have hsome : (s.users.filterMap fun _ u => u.pruned maxLatency now)[id]? = some u' := hu'
      obtain ⟨u, hu, rfl⟩ := lookup_pruned hu'
      rw [hsome, Option.map_some, UserRecord.kept_stored (h.user_stored hu)]
  noLocal := by
    intro u' hu' hmem
    obtain ⟨u, hu, rfl⟩ := lookup_pruned hu'
    refine h.noLocal u hu ?_
    rw [ExtTreeMap.mem_iff_isSome_getElem?, lookup_kept] at hmem
    rw [ExtTreeMap.mem_iff_isSome_getElem?]
    split at hmem
    · cases hmem
    · exact hmem

end SignalGo.Sesame
