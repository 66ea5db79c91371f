import SignalGo.Sesame.Manager

/-!
# Sesame: what a call does to the roster

One lemma for each loop of the manager, and from them what each call leaves in the store: the roster
it stores, and the sessions and identities it deletes.

* `applyDevices_eq`: the loop over the listed devices.
* `applyDeviceList_ok`: a call of `ApplyDeviceList` that returns nil or an `IdentityChangedError`.
* `Holds`: the store holds a roster.
* `holds_persist`: what `persistState` leaves is the roster with its times as they are stored.
-/

namespace SignalGo.Sesame

open Std (ExtTreeMap)
open Effect

variable {m : Manager} {order : MapOrder} {s : State} {st st' : Store} {userID : GoString}
  {devices : List Device} {now : Time}

/-! ## The loops -/

/-- Numbers that are not yet there and not twice in the list make the set. -/
theorem addDevices_ok {deviceSet set' : ExtTreeMap UInt32 Device}
    (h : addDevices devices deviceSet = .ok set') :
    (devices.map Device.deviceID).Nodup ∧ (∀ d ∈ devices, d.deviceID ∉ deviceSet) ∧
    ∀ id d, set'[id]? = some d ↔ (d ∈ devices ∧ d.deviceID = id) ∨ deviceSet[id]? = some d := by
  induction devices generalizing deviceSet with
  | nil =>
    cases h
    simp
  | cons d devices ih =>
    rw [addDevices] at h
    split at h
    case isTrue => cases h
    case isFalse hnew =>
      -- the rest goes into a set that has `d`, so that it does not repeat it
      obtain ⟨hnodup, hfresh, hget⟩ := ih h
      have hnone : deviceSet[d.deviceID]? = none := ExtTreeMap.getElem?_eq_none hnew
      have hne : ∀ d' ∈ devices, d'.deviceID ≠ d.deviceID := fun d' hd' heq =>
        hfresh d' hd' (ExtTreeMap.mem_insert.mpr (.inl
          (Std.LawfulEqOrd.compare_eq_iff_eq.mpr heq.symm)))
      refine ⟨?_, ?_, fun id d' => ?_⟩
      · rw [List.map_cons, List.nodup_cons]
        refine ⟨fun hmem => ?_, hnodup⟩
        obtain ⟨d', hd', heq⟩ := List.mem_map.mp hmem
        exact hne d' hd' heq
      · refine List.forall_mem_cons.mpr ⟨hnew, fun d' hd' hmem => ?_⟩
        exact hfresh d' hd' (ExtTreeMap.mem_insert.mpr (.inr hmem))
      · rw [hget, ExtTreeMap.getElem?_insert, List.mem_cons]
        by_cases hid : compare d.deviceID id = .eq
        · have heq := Std.LawfulEqOrd.eq_of_compare hid
          subst heq
          rw [if_pos hid, hnone]
          constructor
          · rintro (⟨hd', heq⟩ | heq)
            · exact absurd heq (hne d' hd')
            · cases heq
              exact .inl ⟨.inl rfl, rfl⟩
          · rintro (⟨rfl | hd', heq⟩ | heq)
            · exact .inr rfl
            · exact absurd heq (hne d' hd')
            · cases heq
        · rw [if_neg hid]
          have hother : d' = d → d'.deviceID ≠ id := by
            rintro rfl heq
            exact hid (Std.LawfulEqOrd.compare_eq_iff_eq.mpr heq)
          tauto

theorem addDevices_of_nodup {deviceSet : ExtTreeMap UInt32 Device}
    (hnodup : (devices.map Device.deviceID).Nodup)
    (hfresh : ∀ d ∈ devices, d.deviceID ∉ deviceSet) :
    ∃ set', addDevices devices deviceSet = .ok set' := by
  induction devices generalizing deviceSet with
  | nil => exact ⟨_, rfl⟩
  | cons d devices ih =>
    rw [List.map_cons, List.nodup_cons] at hnodup
    rw [List.forall_mem_cons] at hfresh
    rw [addDevices, if_neg hfresh.1]
    refine ih hnodup.2 fun d' hd' hmem => ?_
    rcases ExtTreeMap.mem_insert.mp hmem with heq | hold
    · exact hnodup.1 (List.mem_map.mpr ⟨d', hd', (Std.LawfulEqOrd.eq_of_compare heq).symm⟩)
    · exact hfresh.2 d' hd' hold

/-- The records after the loop over the listed devices. -/
def applied (m : Manager) (userID : GoString) (l : List (UInt32 × Device))
    (devices : ExtTreeMap UInt32 DeviceRecord) : ExtTreeMap UInt32 DeviceRecord :=
  l.foldl (fun devices d =>
    if (⟨userID, d.1⟩ : Address) = m.localAddress then devices else devices.insert d.1 .new) devices

/-- The addresses whose identity has changed, in the order of the list. -/
def changedAddresses (m : Manager) (userID : GoString) (st : Store) (l : List (UInt32 × Device)) :
    List Address :=
  (l.filter fun d => (⟨userID, d.1⟩ : Address) ≠ m.localAddress ∧
    identityChanged ⟨userID, d.1⟩ d.2 st).map fun d => ⟨userID, d.1⟩

/-- `DeleteSession` for every address of a list. -/
def deleteSessions (addrs : List Address) (st : Store) : Store :=
  addrs.foldl (fun st addr => st.deleteSession addr) st

theorem deleteSessions_eq (addrs : List Address) (st : Store) :
    deleteSessions addrs st =
      { st with sessions :=
        addrs.foldl (fun sessions addr => sessions.erase addr) st.sessions } := by
  induction addrs generalizing st with
  | nil => rfl
  | cons addr addrs ih =>
    rw [deleteSessions, List.foldl_cons]
    exact ih _

theorem getElem?_deleteSessions (addrs : List Address) (st : Store) (addr : Address) :
    (deleteSessions addrs st).sessions[addr]? =
      if addr ∈ addrs then none else st.sessions[addr]? := by
  induction addrs generalizing st with
  | nil => simp [deleteSessions]
  | cons a addrs ih =>
    rw [deleteSessions, List.foldl_cons]
    refine (ih _).trans ?_
    rw [Store.deleteSession, lookup_erase]
    by_cases hhead : a = addr
    · simp [hhead]
    · simp [hhead, Ne.symm hhead]

/-- **The loop over the listed devices** deletes the sessions whose identity has changed; what it
compares with does not change on the way. -/
theorem applyDevices_eq (l : List (UInt32 × Device)) (records : ExtTreeMap UInt32 DeviceRecord)
    (changed : List Address) (st : Store) :
    applyDevices m userID l records changed st =
      .ok (applied m userID l records, changed ++ changedAddresses m userID st l)
        (deleteSessions (changedAddresses m userID st l) st) := by
  induction l generalizing records changed st with
  | nil => simp [applyDevices, applied, changedAddresses, deleteSessions]
  | cons d l ih =>
    obtain ⟨deviceID, dev⟩ := d
    rw [applyDevices]
    by_cases hlocal : (⟨userID, deviceID⟩ : Address) = m.localAddress
    · simp only [hlocal, if_true]
      rw [ih]
      simp [applied, changedAddresses, hlocal]
    · simp only [hlocal, if_false]
      by_cases hchanged : identityChanged ⟨userID, deviceID⟩ dev st = true
      · rw [bind_of_ok (reads_apply _), if_pos hchanged, bind_of_ok (update_apply _), ih]
        -- The session is not what the rest of the loop compares.
        have hsame : changedAddresses m userID (st.deleteSession ⟨userID, deviceID⟩) l =
            changedAddresses m userID st l := rfl
        rw [hsame]
        simp [applied, changedAddresses, deleteSessions, hlocal, hchanged]
      · rw [bind_of_ok (reads_apply _), if_neg hchanged, ih]
        simp [applied, changedAddresses, hlocal, hchanged]

/-- The loop over a list leaves new records for its devices but the local one. -/
theorem lookup_applied (l : List (UInt32 × Device)) (records : ExtTreeMap UInt32 DeviceRecord)
    (id : UInt32) :
    (applied m userID l records)[id]? =
      if id ∈ l.map (·.1) ∧ (⟨userID, id⟩ : Address) ≠ m.localAddress then some .new
      else records[id]? := by
  induction l generalizing records with
  | nil => simp [applied]
  | cons d l ih =>
    rw [applied, List.foldl_cons]
    refine (ih _).trans ?_
    by_cases hlocal : (⟨userID, d.1⟩ : Address) = m.localAddress
    · have hid : (⟨userID, id⟩ : Address) ≠ m.localAddress → id ≠ d.1 := by
        rintro hne rfl
        exact hne hlocal
      rw [if_pos hlocal]
      refine if_congr ?_ rfl rfl
      rw [List.map_cons, List.mem_cons]
      tauto
    · rw [if_neg hlocal, lookup_insert]
      by_cases hid : d.1 = id
      · subst hid
        simp [hlocal]
      · rw [if_neg hid]
        refine if_congr ?_ rfl rfl
        rw [List.map_cons, List.mem_cons, or_iff_right (Ne.symm hid)]

/-! ## The device list of a user -/

/-- What `ApplyDeviceList` returns. -/
def outcome (changed : List Address) : Option IdentityChangedError :=
  if changed.isEmpty then none else some ⟨changed.mergeSort fun a b => (compare a b).isLE⟩

/-- The record of a user after its device list was applied. -/
def listedUser (m : Manager) (userID : GoString) (set : ExtTreeMap UInt32 Device)
    (l : List (UInt32 × Device)) (now : Time) (user : UserRecord) : UserRecord :=
  ⟨false, .zero, applied m userID l (markMissing set now user.devices)⟩

variable {set : ExtTreeMap UInt32 Device}

variable (m order now) in
/-- A call that gets to the end of its loops only has to store what it made. -/
theorem applyDeviceList_eq (hname : userID ≠ []) (hload : stateOf st.sesame = .ok s)
    (hset : addDevices devices ∅ = .ok set) :
    applyDeviceList m order userID devices now st =
      (persistState (s.setUser userID (listedUser m userID set (order.visit set.toList) now
        (s.getOrCreateUser userID))) >>= fun _ =>
          pure (outcome (changedAddresses m userID st (order.visit set.toList))))
        (deleteSessions (changedAddresses m userID st (order.visit set.toList)) st) := by
  have hstate : loadState st = .ok s st := by
    rw [loadState, bind_of_ok (reads_apply _), hload]
    rfl
  rw [applyDeviceList, if_neg hname, bind_of_ok hstate]
  simp only
  rw [hset]
  refine (lift_bind_of_ok rfl).trans ?_
  rw [bind_of_ok (applyDevices_eq _ _ _ _), List.nil_append]
  have houtcome (changed : List Address) :
      (if changed.isEmpty then pure none
        else pure (some ⟨changed.mergeSort fun a b => (compare a b).isLE⟩) :
          StoreM (Option IdentityChangedError)) = pure (outcome changed) := by
    unfold outcome
    split <;> rfl
  simp only [houtcome]
  rfl

/-- The entries of the set are the devices of the list. -/
theorem toList_perm_of_addDevices (h : addDevices devices ∅ = .ok set) :
    set.toList.Perm (devices.map fun d => (d.deviceID, d)) := by
  obtain ⟨hnodup, -, hget⟩ := addDevices_ok h
  have hmap : (devices.map fun d => (d.deviceID, d)).Nodup := by
    refine List.Nodup.of_map Prod.fst ?_
    rwa [List.map_map]
  have hset : set.toList.Nodup :=
    ExtTreeMap.distinct_keys_toList.imp
      fun hne heq => hne (by rw [heq, Std.LawfulEqOrd.compare_eq_iff_eq])
  refine (List.perm_ext_iff_of_nodup hset hmap).mpr fun kd => ?_
  have hmem : kd ∈ set.toList ↔ set[kd.1]? = some kd.2 :=
    ExtTreeMap.mem_toList_iff_getElem?_eq_some
  rw [hmem, hget, List.mem_map]
  constructor
  · rintro (⟨hd, hid⟩ | hnone)
    · exact ⟨kd.2, hd, by rw [hid]⟩
    · simp at hnone
  · rintro ⟨d, hd, rfl⟩
    exact .inl ⟨hd, rfl⟩

/-- The devices that are visited are those of the list. -/
theorem visit_perm (h : addDevices devices ∅ = .ok set) :
    (order.visit set.toList).Perm (devices.map fun d => (d.deviceID, d)) :=
  (order.perm _).trans (toList_perm_of_addDevices h)

theorem mem_changedAddresses {l : List (UInt32 × Device)}
    (hl : l.Perm (devices.map fun d => (d.deviceID, d))) (addr : Address) :
    addr ∈ changedAddresses m userID st l ↔ addr.name = userID ∧ addr ≠ m.localAddress ∧
      ∃ d ∈ devices, d.deviceID = addr.device ∧ identityChanged addr d st = true := by
  rw [changedAddresses, List.mem_map]
  simp only [List.mem_filter, hl.mem_iff, List.mem_map, decide_eq_true_eq]
  constructor
  · rintro ⟨_, ⟨⟨d, hd, rfl⟩, hlocal, hchanged⟩, rfl⟩
    exact ⟨rfl, hlocal, d, hd, rfl, hchanged⟩
  · rintro ⟨rfl, hlocal, d, hd, hid, hchanged⟩
    have haddr : (⟨addr.name, d.deviceID⟩ : Address) = addr := by rw [hid]
    refine ⟨(d.deviceID, d), ⟨⟨d, hd, rfl⟩, ?_⟩, haddr⟩
    simp only [haddr]
    exact ⟨hlocal, hchanged⟩

/-- Every device of the list is looked up under one number. -/
theorem lookup_listedUser (h : addDevices devices ∅ = .ok set) (user : UserRecord) (id : UInt32) :
    (listedUser m userID set (order.visit set.toList) now user).devices[id]? =
      if id ∈ devices.map Device.deviceID then
        if (⟨userID, id⟩ : Address) = m.localAddress then user.devices[id]? else some .new
      else user.devices[id]?.map (DeviceRecord.mark now) := by
  obtain ⟨-, -, hget⟩ := addDevices_ok h
  have hvisit : id ∈ (order.visit set.toList).map (·.1) ↔ id ∈ devices.map Device.deviceID := by
    rw [((visit_perm h).map _).mem_iff, List.map_map]
    rfl
  have hset : id ∈ set ↔ id ∈ devices.map Device.deviceID := by
    rw [ExtTreeMap.mem_iff_isSome_getElem?, Option.isSome_iff_exists, List.mem_map]
    refine exists_congr fun d => ?_
    rw [hget]
    simp
  rw [listedUser, lookup_applied]
  simp only [hvisit, markMissing, ExtTreeMap.getElem?_map, hset]
  by_cases hmem : id ∈ devices.map Device.deviceID
  · by_cases hlocal : (⟨userID, id⟩ : Address) = m.localAddress
    · simp [hmem, hlocal]
    · simp [hmem, hlocal]
  · simp only [hmem, false_and, false_or, if_false]
    rfl

/-! ## Storing the roster -/

/-- The store holds the roster. -/
def Holds (st : Store) (s : State) : Prop := stateOf st.sesame = .ok s

theorem loadState_of_holds (h : Holds st s) : loadState st = .ok s st := by
  rw [loadState, bind_of_ok (reads_apply _), show stateOf st.sesame = .ok s from h]
  rfl

theorem persistState_of_ok {data : Bytes} (h : s.serialize = .ok data) :
    persistState s st = .ok () (st.storeSesameState data) := by
  rw [persistState, h]
  rfl

theorem persistState_of_error {e : Err} (h : s.serialize = .error e) :
    persistState s st = .error (.err e) st := by
  rw [persistState, h]
  rfl

/-- What is stored of a roster that fits is that roster. -/
theorem holds_persist (h : s.Fits) :
    ∃ data, s.serialize = .ok data ∧ ∀ st : Store, Holds (st.storeSesameState data) s.stored := by
  obtain ⟨data, hdata, hne, hread⟩ := deserializeState_serialize h
  refine ⟨data, hdata, fun st => ?_⟩
  cases data with
  | nil => exact absurd rfl hne
  | cons b rest => exact hread

/-- There is room for a user and for devices of it: the numbers of entries are stored as 32 bits. -/
structure State.HasRoom (s : State) (userID : GoString) (ids : List UInt32) : Prop where
  users : (insert userID s.users.keys.toFinset).card < 2 ^ 32
  devices : (ids.toFinset ∪ (s.getOrCreateUser userID).devices.keys.toFinset).card < 2 ^ 32

/-- What holds of a roster that calls with one local address have left: it fits its format, its
times went through the store, and the local device is not in it. -/
structure Sound (loc : Address) (s : State) : Prop where
  fits : s.Fits
  stored : s.stored = s
  noLocal : ∀ user, s.users[loc.name]? = some user → loc.device ∉ user.devices

theorem sound_newState (loc : Address) : Sound loc newState := by
  refine ⟨⟨by simp [newState], by simp [newState], by simp [newState]⟩, ?_, by simp [newState]⟩
  rw [State.stored, newState, State.mk.injEq]
  apply ExtTreeMap.ext_getElem?
  intro id
  simp

variable {loc : Address} {user : UserRecord}

theorem Sound.user_stored (h : Sound loc s) {id : GoString} (huser : s.users[id]? = some user) :
    user.stored = user := by
  have hlookup : s.stored.users[id]? = some user := by rw [h.stored, huser]
  rw [State.stored, ExtTreeMap.getElem?_map, huser, Option.map_some, Option.some.injEq] at hlookup
  exact hlookup

theorem mem_keys_toFinset {α β : Type} [DecidableEq α] [Ord α] [Std.TransOrd α]
    [Std.LawfulEqOrd α] {t : ExtTreeMap α β} {k : α} : k ∈ t.keys.toFinset ↔ k ∈ t := by
  rw [List.mem_toFinset, ExtTreeMap.mem_keys]

variable {ids : List UInt32}

/-- The roster with a changed or new user fits if there was room. -/
theorem fits_setUser (h : s.Fits) (hname : userID.length ≤ 0xffff) (hroom : s.HasRoom userID ids)
    (hdevices : ∀ id ∈ user.devices, id ∈ ids ∨ id ∈ (s.getOrCreateUser userID).devices) :
    (s.setUser userID user).Fits where
  names := by
    intro id hid
    rcases ExtTreeMap.mem_insert.mp hid with heq | hold
    · rwa [← Std.LawfulEqOrd.compare_eq_iff_eq.mp heq]
    · exact h.names id hold
  users := by
    rw [← size_eq_card]
    refine lt_of_le_of_lt (Finset.card_le_card fun id hid => ?_) hroom.users
    rw [Finset.mem_insert, mem_keys_toFinset]
    rcases ExtTreeMap.mem_insert.mp (mem_keys_toFinset.mp hid) with heq | hold
    · exact .inl (Std.LawfulEqOrd.compare_eq_iff_eq.mp heq).symm
    · exact .inr hold
  devices := by
    intro id other hother
    rw [State.setUser, lookup_insert] at hother
    split at hother
    case isTrue =>
      cases hother
      rw [← size_eq_card]
      refine lt_of_le_of_lt (Finset.card_le_card fun id hid => ?_) hroom.devices
      rw [Finset.mem_union, List.mem_toFinset, mem_keys_toFinset]
      exact hdevices id (mem_keys_toFinset.mp hid)
    case isFalse => exact h.devices id other hother

theorem State.Fits.stored (h : s.Fits) : s.stored.Fits where
  names id hid := h.names id (ExtTreeMap.mem_map.mp hid)
  users := by
    rw [State.stored, ExtTreeMap.size_map]
    exact h.users
  devices := by
    intro id user huser
    rw [State.stored, ExtTreeMap.getElem?_map, Option.map_eq_some_iff] at huser
    obtain ⟨old, hold, rfl⟩ := huser
    rw [UserRecord.stored, ExtTreeMap.size_map]
    exact h.devices id old hold

theorem Sound.setUser (h : Sound loc s) (hname : userID.length ≤ 0xffff)
    (hroom : s.HasRoom userID ids)
    (hdevices : ∀ id ∈ user.devices, id ∈ ids ∨ id ∈ (s.getOrCreateUser userID).devices)
    (hlocal : userID = loc.name → loc.device ∉ user.devices) :
    Sound loc (s.setUser userID user).stored where
  fits := (fits_setUser h.fits hname hroom hdevices).stored
  stored := State.stored_stored _
  noLocal := by
    intro other hother
    rw [State.stored, ExtTreeMap.getElem?_map, State.setUser, lookup_insert] at hother
    split at hother
    case isTrue heq =>
      cases hother
      show loc.device ∉ user.devices.map fun _ d => d.stored
      rw [ExtTreeMap.mem_map]
      exact hlocal heq
    case isFalse =>
      obtain ⟨old, hold, rfl⟩ := Option.map_eq_some_iff.mp hother
      show loc.device ∉ old.devices.map fun _ d => d.stored
      rw [ExtTreeMap.mem_map]
      exact h.noLocal old hold

/-- **A user is stored.** Either its name is too long for the format and nothing is written, or the
store holds the roster with the new record, as it is stored. -/
theorem persist_setUser (h : Sound loc s) (hroom : s.HasRoom userID ids)
    (hdevices : ∀ id ∈ user.devices, id ∈ ids ∨ id ∈ (s.getOrCreateUser userID).devices)
    (hlocal : userID = loc.name → loc.device ∉ user.devices) (st : Store) :
    (0xffff < userID.length ∧ ∃ e, persistState (s.setUser userID user) st = .error e st) ∨
    (userID.length ≤ 0xffff ∧ ∃ data,
      persistState (s.setUser userID user) st = .ok () (st.storeSesameState data) ∧
      Holds (st.storeSesameState data) (s.setUser userID user).stored ∧
      Sound loc (s.setUser userID user).stored) := by
  rcases Nat.lt_or_ge 0xffff userID.length with hlong | hname
  · left
    have hmem : userID ∈ (s.setUser userID user).users :=
      ExtTreeMap.mem_insert.mpr (.inl (Std.LawfulEqOrd.compare_eq_iff_eq.mpr rfl))
    obtain ⟨e, he⟩ := serialize_too_long hmem hlong
    exact ⟨hlong, _, persistState_of_error he⟩
  · right
    obtain ⟨data, hdata, hholds⟩ := holds_persist (fits_setUser h.fits hname hroom hdevices)
    exact ⟨hname, data, persistState_of_ok hdata, hholds st,
      h.setUser hname hroom hdevices hlocal⟩

end SignalGo.Sesame
