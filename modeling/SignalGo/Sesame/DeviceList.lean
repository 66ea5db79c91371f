import SignalGo.Identities
import SignalGo.Sesame.Calls

/-!
# Sesame: the device list of a user

What `ApplyDeviceList` promises, as `NonStaleDevices` sees it in the stored roster: the listed
devices are active, the other known ones are stale, and nothing else changes. And how it compares
the listed identities with the stored ones.

* `nonStaleDevices_ok`: the active devices of a user, in ascending order.
* `device_list_postcondition`: the promise, for every roster that is reached.
* `identity_change_iff_refused`: when a changed identity is one the store would refuse.
-/

namespace SignalGo.Sesame

open Std (ExtTreeMap)
open Effect

variable {loc : Address} {m : Manager} {order : MapOrder} {s s' : State} {st st' : Store}
  {userID : GoString} {devices : List Device} {now : Time}

/-! ## The active devices -/

/-- The roster has a record of the device. -/
def State.Recorded (s : State) (userID : GoString) (id : UInt32) (d : DeviceRecord) : Prop :=
  ∃ user, s.users[userID]? = some user ∧ user.devices[id]? = some d

/-- Sorted numbers without repetition ascend. -/
theorem pairwise_lt_mergeSort {l : List UInt32} (h : l.Nodup) :
    (l.mergeSort fun a b => a ≤ b).Pairwise (· < ·) := by
  have hsorted : (l.mergeSort fun a b => a ≤ b).Pairwise fun a b => decide (a ≤ b) = true := by
    refine List.pairwise_mergeSort (fun a b c hab hbc => ?_) (fun a b => ?_) l
    · rw [decide_eq_true_eq] at hab hbc ⊢
      exact UInt32.le_trans hab hbc
    · rw [Bool.or_eq_true, decide_eq_true_eq, decide_eq_true_eq]
      exact UInt32.le_total a b
  have hnodup : (l.mergeSort fun a b => a ≤ b).Nodup := (List.mergeSort_perm l _).nodup_iff.mpr h
  refine hsorted.imp₂ (fun a b hle hne => ?_) hnodup
  exact UInt32.lt_of_le_of_ne (decide_eq_true_eq.mp hle) hne

variable (m order) in
/-- **`NonStaleDevices`** returns the active devices of a user that is not stale, ascending and
without the local one. -/
theorem nonStaleDevices_ok (hname : userID ≠ []) (hholds : Holds st s) :
    ∃ active : List UInt32,
      nonStaleDevices m order userID st = .ok (active.map fun id => ⟨userID, id⟩) st ∧
      active.Pairwise (· < ·) ∧
      ∀ id, id ∈ active ↔ ∃ user d, s.users[userID]? = some user ∧ user.stale = false ∧
        user.devices[id]? = some d ∧ d.stale = false ∧
        (⟨userID, id⟩ : Address) ≠ m.localAddress := by
  have hload := loadState_of_holds hholds
  rw [nonStaleDevices, if_neg hname, bind_of_ok hload]
  cases huser : s.users[userID]? with
  | none => exact ⟨[], rfl, .nil, by simp⟩
  | some user =>
    cases hstale : user.stale with
    | true =>
      refine ⟨[], ?_, .nil, ?_⟩
      · simp only [hstale, if_true]
        rfl
      · intro id
        simp [hstale]
    | false =>
      refine ⟨_, ?_, pairwise_lt_mergeSort (l := (((order.visit user.devices.toList).filter fun d =>
        !d.2.stale && (⟨userID, d.1⟩ : Address) ≠ m.localAddress).map (·.1))) ?_, fun id => ?_⟩
      · simp only [hstale, Bool.false_eq_true, if_false]
        rfl
      · refine List.Nodup.sublist (List.filter_sublist.map _) ?_
        refine ((order.perm _).map _).nodup_iff.mpr ?_
        rw [ExtTreeMap.map_fst_toList_eq_keys]
        exact ExtTreeMap.nodup_keys
      · rw [List.mem_mergeSort, List.mem_map]
        simp only [List.mem_filter, (order.perm _).mem_iff, Bool.and_eq_true, Bool.not_eq_true',
          decide_eq_true_eq]
        constructor
        · rintro ⟨d, ⟨hd, hactive, hlocal⟩, rfl⟩
          exact ⟨user, d.2, rfl, hstale, ExtTreeMap.mem_toList_iff_getElem?_eq_some.mp hd, hactive,
            hlocal⟩
        · rintro ⟨other, d, hother, -, hd, hactive, hlocal⟩
          cases hother
          exact ⟨(id, d), ⟨ExtTreeMap.mem_toList_iff_getElem?_eq_some.mpr hd, hactive, hlocal⟩, rfl⟩

/-! ## The promise of a device list -/

/-- The roster with the record of one user replaced, as it is stored. -/
theorem lookup_setUser_stored (hsound : Sound loc s) (userID : GoString) (user : UserRecord)
    (name : GoString) : (s.setUser userID user).stored.users[name]? =
      if userID = name then some user.stored else s.users[name]? := by
  rw [State.stored, ExtTreeMap.getElem?_map, State.setUser, lookup_insert]
  split
  · rfl
  · cases huser : s.users[name]? with
    | none => rfl
    | some other => rw [Option.map_some, hsound.user_stored huser]

@[simp] theorem DeviceRecord.mark_stale (d : DeviceRecord) : (d.mark now).stale = true := by
  unfold DeviceRecord.mark
  split
  · assumption
  · rfl

theorem DeviceRecord.mark_of_stale {d : DeviceRecord} (h : d.stale = true) : d.mark now = d :=
  if_pos h

variable (m order userID now) in
/-- The device of a user whose list was applied, as it is stored. -/
theorem lookup_listed_stored {set : ExtTreeMap UInt32 Device} (h : addDevices devices ∅ = .ok set)
    (user : UserRecord) (id : UInt32) :
    (listedUser m userID set (order.visit set.toList) now user).stored.devices[id]? =
      if id ∈ devices.map Device.deviceID then
        if (⟨userID, id⟩ : Address) = m.localAddress then user.devices[id]?.map DeviceRecord.stored
        else some .new
      else user.devices[id]?.map fun d => (d.mark now).stored := by
  rw [UserRecord.stored, ExtTreeMap.getElem?_map, lookup_listedUser h]
  split
  · split <;> rfl
  · rw [Option.map_map]
    rfl

/-- The sorted addresses of changed identities ascend. -/
theorem outcome_ascending {l : List (UInt32 × Device)} (hnodup : (l.map (·.1)).Nodup)
    {e : IdentityChangedError} (h : outcome (changedAddresses m userID st l) = some e) :
    e.addresses.Pairwise fun a b => compare a b = .lt := by
  unfold outcome at h
  split at h
  case isTrue => cases h
  case isFalse =>
    cases h
    have hchanged : (changedAddresses m userID st l).Nodup := by
      unfold changedAddresses
      have hids : ((l.filter fun d => (⟨userID, d.1⟩ : Address) ≠ m.localAddress ∧
          identityChanged ⟨userID, d.1⟩ d.2 st).map (·.1)).Nodup :=
        hnodup.sublist (List.filter_sublist.map _)
      have hmap := hids.map (f := fun id => (⟨userID, id⟩ : Address)) fun a b hab => by
        cases hab
        rfl
      rwa [List.map_map] at hmap
    have hsorted : ((changedAddresses m userID st l).mergeSort
        fun a b => (compare a b).isLE).Pairwise fun a b => (compare a b).isLE = true := by
      refine List.pairwise_mergeSort (fun a b c hab hbc => ?_) (fun a b => ?_) _
      · exact Std.TransOrd.isLE_trans hab hbc
      · rw [Bool.or_eq_true]
        cases hab : compare a b with
        | lt => exact .inl rfl
        | eq => exact .inl rfl
        | gt =>
          right
          rw [Std.OrientedOrd.eq_swap, hab]
          rfl
    refine hsorted.imp₂ (fun a b hle hne => ?_)
      ((List.mergeSort_perm (changedAddresses m userID st l) _).nodup_iff.mpr hchanged)
    cases hab : compare a b with
    | lt => rfl
    | eq => exact absurd (Std.LawfulEqOrd.compare_eq_iff_eq.mp hab) hne
    | gt =>
      rw [hab] at hle
      cases hle

/-- **What a device list leaves.** In every roster that calls with one local address have reached,
with room for the users and devices they name, a device list without repetitions is stored: then the
listed devices other than the local one are the active ones, the other devices of the user stay
and are stale, since when they were stale before, and no other user changes. A list that repeats a
device is refused, and nothing changes. -/
theorem device_list_postcondition (loc : Address) (st₀ st : Store) (es : List ManagerEvent)
    (hfresh : st₀.sesame = none) (hrun : Run (RoomyStep loc) st₀ es st) (maxLatency : Duration)
    (order : MapOrder) (userID : GoString) (hmin : 1 ≤ userID.length)
    (hmax : userID.length ≤ 65535) (devices : List Device) (now : Time)
    (hroom : (ManagerEvent.call maxLatency (.applyDeviceList userID devices now)).Roomy st) :
    ((devices.map Device.deviceID).Nodup →
      ∃ s result st' s', Holds st s ∧
        applyDeviceList ⟨loc, maxLatency⟩ order userID devices now st = .ok result st' ∧
        Holds st' s' ∧
        (∀ order', ∃ active : List UInt32,
          nonStaleDevices ⟨loc, maxLatency⟩ order' userID st' =
            .ok (active.map fun id => ⟨userID, id⟩) st' ∧
          active.Pairwise (· < ·) ∧
          ∀ id, id ∈ active ↔
            id ∈ devices.map Device.deviceID ∧ (⟨userID, id⟩ : Address) ≠ loc) ∧
        (∀ id d, id ∉ devices.map Device.deviceID → s.Recorded userID id d →
          ∃ d', s'.Recorded userID id d' ∧ d'.stale = true ∧
            (d.stale = true → d'.staleSince = d.staleSince)) ∧
        (∀ name, name ≠ userID → s'.users[name]? = s.users[name]?) ∧
        ∀ e, result = some e → e.addresses.Pairwise fun a b => compare a b = .lt) ∧
    (¬ (devices.map Device.deviceID).Nodup →
      ∃ e, applyDeviceList ⟨loc, maxLatency⟩ order userID devices now st = .error e st) := by
  have hname : userID ≠ [] := by
    rintro rfl
    exact absurd hmin (by decide)
  obtain ⟨s, hholds, hsound⟩ : SoundStore loc st :=
    hrun.invariant (fun h hstep => h.step hstep) (soundStore_of_empty hfresh)
  have hcases := applyDeviceList_cases ⟨loc, maxLatency⟩ order now rfl hholds hsound
    (hroom s _ _ hholds rfl)
  refine ⟨fun hnodup => ?_, fun hdup => ?_⟩
  · rcases hcases with ⟨e, st', -, -, -, hreason⟩ | ⟨set, data, hset, hcall, hnew, -⟩
    · exact absurd hreason (by simp [hname, hnodup, Nat.not_lt.mpr hmax])
    · have huser : (s.setUser userID (listedUser ⟨loc, maxLatency⟩ userID set
          (order.visit set.toList) now (s.getOrCreateUser userID))).stored.users[userID]? =
          some (listedUser ⟨loc, maxLatency⟩ userID set (order.visit set.toList) now
            (s.getOrCreateUser userID)).stored := by
        rw [lookup_setUser_stored hsound, if_pos rfl]
      have hlookup := lookup_listed_stored ⟨loc, maxLatency⟩ order userID now hset
        (s.getOrCreateUser userID)
      refine ⟨s, _, _, _, hholds, hcall, hnew, fun order' => ?_, fun id d hother hrec => ?_,
        fun name hne => ?_, fun e he => ?_⟩
      · -- the active devices are those whose stored record is not stale
        obtain ⟨active, hactive, hsorted, hmem⟩ :=
          nonStaleDevices_ok ⟨loc, maxLatency⟩ order' hname hnew
        refine ⟨active, hactive, hsorted, fun id => (hmem id).trans ?_⟩
        constructor
        · rintro ⟨user, d, hu, -, hd, hstale, hne⟩
          rw [huser] at hu
          cases hu
          refine ⟨?_, hne⟩
          by_contra hnot
          rw [hlookup, if_neg hnot, Option.map_eq_some_iff] at hd
          obtain ⟨old, -, rfl⟩ := hd
          rw [show ((old.mark now).stored).stale = (old.mark now).stale from rfl,
            DeviceRecord.mark_stale] at hstale
          cases hstale
        · rintro ⟨hlisted, hne⟩
          refine ⟨_, .new, huser, rfl, ?_, rfl, hne⟩
          rw [hlookup, if_pos hlisted, if_neg hne]
      · -- a recorded device that is not listed is marked, once
        obtain ⟨user, hu, hd⟩ := hrec
        have hget : s.getOrCreateUser userID = user := by
          rw [State.getOrCreateUser, hu]
          rfl
        refine ⟨(d.mark now).stored, ⟨_, huser, ?_⟩, DeviceRecord.mark_stale d, fun hstale => ?_⟩
        · rw [hlookup, if_neg hother, hget, hd]
          rfl
        · rw [DeviceRecord.mark_of_stale hstale,
            UserRecord.device_stored (hsound.user_stored hu) hd]
      · rw [lookup_setUser_stored hsound, if_neg hne.symm]
      · refine outcome_ascending ?_ he
        refine ((visit_perm hset).map _).nodup_iff.mpr ?_
        rw [List.map_map]
        exact hnodup
  · rcases hcases with ⟨e, st', herror, -, hsame, -⟩ | ⟨set, data, hset, -⟩
    · exact ⟨e, hsame hdup ▸ herror⟩
    · exact absurd (addDevices_ok hset).1 hdup

/-- A roster with one user and few devices has room. -/
theorem hasRoom_of_subset (known : List UInt32) {ids : List UInt32}
    (husers : ∀ name ∈ s.users, name = userID)
    (hdevices : ∀ id ∈ (s.getOrCreateUser userID).devices, id ∈ known)
    (hfew : (ids ++ known).length < 2 ^ 32) : s.HasRoom userID ids where
  users := by
    have hsub : insert userID s.users.keys.toFinset ⊆ {userID} := by
      intro name hname
      rw [Finset.mem_insert, List.mem_toFinset, ExtTreeMap.mem_keys] at hname
      exact Finset.mem_singleton.mpr (hname.elim id (husers name))
    exact lt_of_le_of_lt (Finset.card_le_card hsub) (by rw [Finset.card_singleton]; decide)
  devices := by
    have hsub : ids.toFinset ∪ (s.getOrCreateUser userID).devices.keys.toFinset ⊆
        (ids ++ known).toFinset := by
      intro id hid
      simp only [Finset.mem_union, List.mem_toFinset, ExtTreeMap.mem_keys] at hid
      exact List.mem_toFinset.mpr (List.mem_append.mpr (hid.imp_right (hdevices id)))
    exact lt_of_le_of_lt ((Finset.card_le_card hsub).trans (List.toFinset_card_le _)) hfew

/-- An empty store has room for any user with a few devices. -/
theorem roomy_of_empty (h : st.sesame = none) {c : Call} {maxLatency : Duration}
    (hfew : ∀ name ids, c.named = some (name, ids) → ids.length < 2 ^ 32) :
    (ManagerEvent.call maxLatency c).Roomy st := by
  intro s name ids hholds hnamed
  rw [Holds, h] at hholds
  cases hholds
  refine hasRoom_of_subset [] (fun _ hname => absurd hname ExtTreeMap.not_mem_empty) ?_
    (by rw [List.append_nil]; exact hfew name ids hnamed)
  rw [State.getOrCreateUser, newState, ExtTreeMap.getElem?_empty]
  exact fun id hid => absurd hid ExtTreeMap.not_mem_empty

variable (st userID devices) in
/-- With an empty roster, a short list without repetitions is applied. -/
theorem applyDeviceList_empty (h : st.sesame = none)
    (hlen : 1 ≤ userID.length ∧ userID.length ≤ 0xffff)
    (hnodup : (devices.map Device.deviceID).Nodup) (hfew : devices.length < 2 ^ 32) :
    (ManagerEvent.call 1 (.applyDeviceList userID devices .zero)).Roomy st ∧
    ∃ set data, addDevices devices ∅ = .ok set ∧
      (let changed := changedAddresses ⟨⟨[2], 1⟩, 1⟩ userID st (MapOrder.ascending.visit set.toList)
       let st' := (deleteSessions changed st).storeSesameState data
       applyDeviceList ⟨⟨[2], 1⟩, 1⟩ .ascending userID devices .zero st =
         .ok (outcome changed) st' ∧
        Holds st' (newState.setUser userID (listedUser ⟨⟨[2], 1⟩, 1⟩ userID set
          (MapOrder.ascending.visit set.toList) .zero
            (newState.getOrCreateUser userID))).stored) := by
  have hholds : Holds st newState := by
    rw [Holds, h]
    rfl
  have hroom : (ManagerEvent.call 1 (.applyDeviceList userID devices .zero)).Roomy st := by
    refine roomy_of_empty h fun name ids hnamed => ?_
    cases hnamed
    rwa [List.length_map]
  rcases applyDeviceList_cases ⟨⟨[2], 1⟩, 1⟩ .ascending .zero rfl hholds
    (sound_newState ⟨[2], 1⟩) (hroom newState _ _ hholds rfl) with
    ⟨e, st', -, -, -, hreason⟩ | ⟨set, data, hset, hcall, hnew, -⟩
  · rcases hreason with rfl | hlong | hdup
    · exact absurd hlen.1 (by decide)
    · omega
    · exact absurd hnodup hdup
  · exact ⟨hroom, set, data, hset, hcall, hnew⟩

/-- Devices 1 and 2 are listed, and then 2 and 3: these are active, and device 1 is stale. -/
theorem device_list_postcondition_second :
    ∃ result st₁ result' st₂ s d, applyDeviceList ⟨⟨[2], 1⟩, 1⟩ .ascending [1]
        [⟨1, none⟩, ⟨2, none⟩] .zero Store.emptyStore = .ok result st₁ ∧
      applyDeviceList ⟨⟨[2], 1⟩, 1⟩ .ascending [1] [⟨2, none⟩, ⟨3, none⟩] .zero st₁ =
        .ok result' st₂ ∧
      (∃ active : List UInt32, nonStaleDevices ⟨⟨[2], 1⟩, 1⟩ .ascending [1] st₂ =
          .ok (active.map fun id => ⟨[1], id⟩) st₂ ∧
        ∀ id, id ∈ active ↔ id ∈ [2, 3] ∧ (⟨[1], id⟩ : Address) ≠ ⟨[2], 1⟩) ∧
      Holds st₂ s ∧ s.Recorded [1] 1 d ∧ d.stale = true := by
  obtain ⟨hroom, set, data, hset, hcall, hholds⟩ := applyDeviceList_empty Store.emptyStore [1]
    [⟨1, none⟩, ⟨2, none⟩] rfl (by decide) (by decide) (by decide)
  have hlookup := lookup_setUser_stored (sound_newState ⟨[2], 1⟩) [1] (listedUser ⟨⟨[2], 1⟩, 1⟩ [1]
    set (MapOrder.ascending.visit set.toList) .zero (newState.getOrCreateUser [1]))
  have hlisted := lookup_listed_stored ⟨⟨[2], 1⟩, 1⟩ .ascending [1] .zero hset
    (newState.getOrCreateUser [1])
  have huser := (hlookup [1]).trans (if_pos rfl)
  -- from here on only what the first call stored matters
  generalize (newState.setUser [1] _).stored = s₁ at hholds hlookup huser
  generalize Store.storeSesameState _ _ = st₁ at hcall hholds
  have hroom' : (ManagerEvent.call 1 (.applyDeviceList [1] [⟨2, none⟩, ⟨3, none⟩] .zero)).Roomy
      st₁ := by
    intro s name ids hs hnamed
    cases hnamed
    cases hs.symm.trans hholds
    refine hasRoom_of_subset [1, 2] (fun name hname => ?_) (fun id hid => ?_) (by decide)
    · by_contra hne
      rw [ExtTreeMap.mem_iff_isSome_getElem?, hlookup, if_neg (Ne.symm hne)] at hname
      cases hname
    · by_contra hnot
      rw [State.getOrCreateUser, huser, Option.getD_some, ExtTreeMap.mem_iff_isSome_getElem?,
        (hlisted id).trans (if_neg hnot)] at hid
      cases hid
  have hrun : (Call.applyDeviceList [1] [⟨1, none⟩, ⟨2, none⟩] .zero).run ⟨⟨[2], 1⟩, 1⟩ .ascending
      Store.emptyStore = .ok () st₁ := bind_of_ok hcall
  obtain ⟨s, result, st', s', hs, hcall', hholds', hactive, hstale, -⟩ :=
    (device_list_postcondition ⟨[2], 1⟩ Store.emptyStore st₁ _ rfl
      (.single ⟨after_of_ok hrun ▸ .call _ _ _, hroom⟩) 1 .ascending
      [1] (by decide) (by decide) [⟨2, none⟩, ⟨3, none⟩] .zero hroom').1 (by decide)
  obtain ⟨active, hok, -, hmem⟩ := hactive .ascending
  cases hs.symm.trans hholds
  obtain ⟨d, hrec, hd, -⟩ := hstale 1 .new (by decide) ⟨_, huser, hlisted 1⟩
  exact ⟨_, _, result, st', s', d, hcall, hcall', ⟨active, hok, hmem⟩, hholds', hrec, hd⟩

/-! ### A user with every device number -/

/-- The entries of a roster with one user. -/
theorem toList_single (userID : GoString) (user : UserRecord) :
    (newState.setUser userID user).users.toList = [(userID, user)] := by
  have hlen : (newState.setUser userID user).users.toList.length = 1 := by
    rw [ExtTreeMap.length_toList, State.setUser, newState, ExtTreeMap.size_insert]
    simp
  obtain ⟨entry, hentry⟩ := List.length_eq_one_iff.mp hlen
  have hmem : (userID, user) ∈ (newState.setUser userID user).users.toList := by
    refine ExtTreeMap.mem_toList_iff_getElem?_eq_some.mpr ?_
    rw [State.setUser, lookup_insert, if_pos rfl]
  rw [hentry, List.mem_singleton] at hmem
  rw [hentry, ← hmem]

/-- The number of devices wraps around to 0, so that their records are trailing data. -/
theorem full_user_lost {user : UserRecord} (hname : userID.length ≤ 0xffff)
    (hfull : user.devices.size = 2 ^ 32) :
    ∃ data, (newState.setUser userID user).serialize = .ok data ∧ data ≠ [] ∧
      ∃ e, deserializeState data = .error e := by
  have hlen : (UInt16.ofNat userID.length).toNat = userID.length :=
    UInt16.toNat_ofNat_of_lt' (lt_of_le_of_lt hname (by decide))
  have hzero : UInt32.ofNat user.devices.size = 0 := by
    rw [hfull]
    rfl
  have hsize : (newState.setUser userID user).users.size = 1 := by
    rw [← ExtTreeMap.length_toList, toList_single]
    rfl
  let head : Bytes := putUint16 (.ofNat userID.length) ++ (userID ++ ([staleFlags user.stale]
    ++ (putUint64 (unixSeconds user.staleSince).toUInt64 ++ putUint32 0)))
  let records : Bytes := user.devices.toList.flatMap serializeDevice
  have hnames : ∀ id ∈ (newState.setUser userID user).users, id.length ≤ 0xffff := by
    intro id hid
    rcases ExtTreeMap.mem_insert.mp hid with heq | hold
    · rwa [← Std.LawfulEqOrd.compare_eq_iff_eq.mp heq]
    · exact absurd hold ExtTreeMap.not_mem_empty
  have hdata := serialize_eq hnames
  rw [toList_single, hsize] at hdata
  have hbytes : stateSerializeMagic ++ ([stateSerializeVersion] ++ (putUint32 (.ofNat 1)
      ++ [(userID, user)].flatMap userBytes)) =
      stateSerializeMagic ++ ([stateSerializeVersion] ++ (putUint32 1 ++ head)) ++ records := by
    simp only [List.flatMap_cons, List.flatMap_nil, userBytes, hzero, head, records,
      List.append_assoc, List.append_nil]
    rfl
  rw [hbytes] at hdata
  -- the reader stops behind the wrapped number of devices
  have hread : Decodable (readUsers 1 newState) head (newState.setUser userID
      ⟨user.stale, storedTime user.staleSince, ∅⟩) := by
    refine .need (by simp [head]) (.bind (.u16 _) ?_)
    rw [hlen]
    refine .need (by simp) (.bind (.bytes rfl) ?_)
    refine .need (by simp) (.bind (.u8 _) (.bind (.u64 _) ?_))
    rw [← List.append_nil (putUint32 0)]
    refine .bind (.u32 _) ?_
    rw [staleFlags_and_one]
    have hnew : (newState.getOrCreateUser userID).devices = ∅ := by
      rw [State.getOrCreateUser, newState, ExtTreeMap.getElem?_empty]
      rfl
    have hnone : Decodable (readDevices (UInt32.toNat 0) (newState.getOrCreateUser userID).devices)
        [] ∅ := by
      rw [hnew]
      exact .pure ∅
    exact hnone.bind (Decodable.pure _)
  have hstate : Decodable readState ([stateSerializeVersion] ++ (putUint32 1 ++ head))
      (newState.setUser userID ⟨user.stale, storedTime user.staleSince, ∅⟩) := by
    refine .bind (.u8 _) ?_
    rw [if_neg (not_not.mpr rfl)]
    exact .need (by simp) (.bind (.u32 _) hread)
  have hall := (Decodable.bytes (ε := Err) (n := 4) (b := stateSerializeMagic) rfl).bind
    (k := fun _ => readState) hstate
  -- what it leaves unread is not empty
  have hrecords : records ≠ [] := by
    intro hnil
    have hlist : user.devices.toList ≠ [] := by
      rw [← List.length_pos_iff, ExtTreeMap.length_toList, hfull]
      decide
    obtain ⟨d, l, hd⟩ := List.exists_cons_of_ne_nil hlist
    simp [records, hd, serializeDevice] at hnil
  refine ⟨_, hdata, by simp [stateSerializeMagic], ?_⟩
  have hpos := hall [] records
  rw [List.nil_append, List.length_nil] at hpos
  refine ⟨.err (invalidState "trailing data"), ?_⟩
  rw [deserializeState, if_neg (by simp [stateSerializeMagic]),
    if_neg (by simp [stateSerializeMagic]), Decoder.run, hpos, ok_bind]
  simp only
  have hsome := List.length_pos_iff.mpr hrecords
  rw [if_pos]
  simp only [List.length_append]
  omega

/-- A map with every number as a key. -/
theorem size_of_all {records : ExtTreeMap UInt32 DeviceRecord} (h : ∀ id, id ∈ records) :
    records.size = 2 ^ 32 := by
  apply le_antisymm
  · have hle := size_le_card records (f := UInt32.toNat) (fun a b => UInt32.toNat_inj.mp)
      (Finset.range (2 ^ 32)) fun k v _ => Finset.mem_range.mpr k.toNat_lt
    rwa [Finset.card_range] at hle
  · rw [← size_eq_card]
    have hinj : Set.InjOn UInt32.ofNat (Finset.range (2 ^ 32)) := by
      intro a ha b hb hab
      rw [Finset.coe_range, Set.mem_Iio] at ha hb
      have hnat := congrArg UInt32.toNat hab
      rwa [UInt32.toNat_ofNat_of_lt' ha, UInt32.toNat_ofNat_of_lt' hb] at hnat
    have hle := Finset.card_le_card_of_injOn UInt32.ofNat
      (fun a _ => mem_keys_toFinset.mpr (h (UInt32.ofNat a))) hinj
    rwa [Finset.card_range] at hle

/-- Every device number once, without identities. -/
def allDevices : List Device := (List.range (2 ^ 32)).map fun n => ⟨UInt32.ofNat n, none⟩

theorem mem_allDevices (id : UInt32) : id ∈ allDevices.map Device.deviceID := by
  rw [allDevices, List.map_map, List.mem_map]
  exact ⟨id.toNat, List.mem_range.mpr id.toNat_lt, UInt32.ofNat_toNat⟩

theorem nodup_allDevices : (allDevices.map Device.deviceID).Nodup := by
  rw [allDevices, List.map_map]
  refine List.nodup_range.map_on fun a ha b hb hab => ?_
  have hnat := congrArg UInt32.toNat hab
  rwa [Function.comp_apply, Function.comp_apply, UInt32.toNat_ofNat_of_lt' (List.mem_range.mp ha),
    UInt32.toNat_ofNat_of_lt' (List.mem_range.mp hb)] at hnat

/-- **A list with every device number.** It is stored without an error, as a record that cannot be
read any more: afterwards `NonStaleDevices` fails. -/
theorem device_list_all_devices :
    ∃ st', applyDeviceList ⟨⟨[2], 1⟩, 1⟩ .ascending [1] allDevices .zero Store.emptyStore =
        .ok none st' ∧
      ∃ e, nonStaleDevices ⟨⟨[2], 1⟩, 1⟩ .ascending [1] st' = .error e st' := by
  obtain ⟨set, hset⟩ := addDevices_of_nodup nodup_allDevices fun d _ => ExtTreeMap.not_mem_empty
  have hcall := applyDeviceList_eq (s := newState) ⟨⟨[2], 1⟩, 1⟩ .ascending .zero
    (show ([1] : GoString) ≠ [] by decide) (show stateOf Store.emptyStore.sesame = _ from rfl) hset
  have hunchanged : changedAddresses ⟨⟨[2], 1⟩, 1⟩ [1] Store.emptyStore
      (MapOrder.ascending.visit set.toList) = [] := by
    rw [List.eq_nil_iff_forall_not_mem]
    intro addr haddr
    obtain ⟨-, -, d, hd, -, hchanged⟩ := (mem_changedAddresses (visit_perm hset) addr).mp haddr
    obtain ⟨n, -, rfl⟩ := List.mem_map.mp hd
    cases hchanged
  rw [hunchanged] at hcall
  have hfull : (listedUser ⟨⟨[2], 1⟩, 1⟩ [1] set (MapOrder.ascending.visit set.toList) .zero
      (newState.getOrCreateUser [1])).devices.size = 2 ^ 32 := by
    refine size_of_all fun id => ?_
    have hother : (⟨[1], id⟩ : Address) ≠ ⟨[2], 1⟩ := by
      intro heq
      cases heq
    rw [ExtTreeMap.mem_iff_isSome_getElem?, lookup_listedUser hset, if_pos (mem_allDevices id),
      if_neg hother]
    rfl
  obtain ⟨data, hdata, hne, e, herror⟩ := full_user_lost
    (show ([1] : GoString).length ≤ 0xffff by decide) hfull
  rw [bind_of_ok (persistState_of_ok hdata)] at hcall
  refine ⟨_, hcall, e, ?_⟩
  have hload : loadState (Store.emptyStore.storeSesameState data) =
      .error e (Store.emptyStore.storeSesameState data) := by
    rw [loadState, bind_of_ok (reads_apply _)]
    cases data with
    | nil => exact absurd rfl hne
    | cons b rest =>
      show lift (deserializeState (b :: rest)) _ = _
      rw [herror]
      rfl
  rw [nonStaleDevices, if_neg (by decide)]
  exact bind_of_error hload

/-! ## Changed identities and refused ones -/

/-- `ApplyDeviceList` reports the address. -/
def Reported (result : Option IdentityChangedError) (addr : Address) : Prop :=
  ∃ e, result = some e ∧ addr ∈ e.addresses

/-- The store knows the public key of the offered identity with another signing half, and one of the
two halves is missing. -/
def HalfKnown (st : Store) (addr : Address) (key : IdentityKey) : Prop :=
  ∃ existing, st.getIdentity addr = some existing ∧ existing.publicKey = key.publicKey ∧
    existing.signingPublic ≠ key.signingPublic ∧
    (existing.signingPublic = .zero ∨ key.signingPublic = .zero)

theorem mem_outcome {changed : List Address} {addr : Address} :
    Reported (outcome changed) addr ↔ addr ∈ changed := by
  unfold Reported outcome
  split
  case isTrue hempty =>
    rw [List.isEmpty_iff.mp hempty]
    simp
  case isFalse => simp

/-- What is compared in the two places: the strict comparison refuses whatever the store refuses,
and an identity of which one half is known. -/
theorem identityChanged_iff {addr : Address} {dev : Device} {key : IdentityKey}
    (hkey : dev.identityKey = some key) : identityChanged addr dev st = true ↔
      st.isTrustedIdentity addr key = false ∨ HalfKnown st addr key := by
  unfold identityChanged HalfKnown Store.isTrustedIdentity
  rw [hkey]
  cases hget : st.getIdentity addr with
  | none =>
    have hnone : st.identities[addr]? = none := hget
    simp [hnone]
  | some existing =>
    have hsome : st.identities[addr]? = some existing := hget
    simp only [hsome, identityEqual, Option.some.injEq, exists_eq_left']
    by_cases hpublic : existing.publicKey = key.publicKey
    · by_cases hsigning : existing.signingPublic = key.signingPublic
      · by_cases hzero : key.signingPublic = .zero <;> simp [hpublic, hsigning, hzero]
      · by_cases hzero : existing.signingPublic = .zero ∨ key.signingPublic = .zero
        · simp [hpublic, hsigning, hzero]
        · simp [hpublic, hsigning, hzero]
    · by_cases hzero : existing.signingPublic = .zero ∨ key.signingPublic = .zero <;>
        simp [hpublic, hzero]

/-- The store does not compare a missing half. -/
theorem HalfKnown.trusted {addr : Address} {key : IdentityKey} (h : HalfKnown st addr key) :
    st.isTrustedIdentity addr key = true := by
  obtain ⟨existing, hget, hpublic, -, hzero⟩ := h
  have hsome : st.identities[addr]? = some existing := hget
  simp [Store.isTrustedIdentity, hsome, hpublic, hzero]

/-- A call that returns has gone through its loops and stored the roster. -/
theorem applyDeviceList_ok {result : Option IdentityChangedError}
    (h : applyDeviceList m order userID devices now st = .ok result st') :
    ∃ set data, addDevices devices ∅ = .ok set ∧
      result = outcome (changedAddresses m userID st (order.visit set.toList)) ∧
      st' = (deleteSessions (changedAddresses m userID st (order.visit set.toList))
        st).storeSesameState data := by
  have hcall := h
  rw [applyDeviceList] at h
  split at h
  case isTrue => cases h
  case isFalse hname =>
    obtain ⟨s, st1, hload, hrest⟩ := Effect.bind_eq_ok.mp h
    obtain ⟨data0, st2, hreads, hlift⟩ := Effect.bind_eq_ok.mp hload
    cases hreads
    obtain ⟨hstate, rfl⟩ := lift_eq_ok.mp hlift
    obtain ⟨set, st3, hadd, -⟩ := Effect.bind_eq_ok.mp hrest
    obtain ⟨hset, rfl⟩ := lift_eq_ok.mp hadd
    rw [mapError_eq_ok] at hset
    rw [applyDeviceList_eq m order now hname hstate hset] at hcall
    obtain ⟨_, st4, hpersist, hret⟩ := Effect.bind_eq_ok.mp hcall
    cases hret
    obtain ⟨data, st5, hdata, hwrite⟩ := Effect.bind_eq_ok.mp hpersist
    obtain ⟨-, rfl⟩ := lift_eq_ok.mp hdata
    cases hwrite
    exact ⟨set, data, hset, rfl, rfl⟩

/-- **Changed and refused identities.** A listed device with an identity is reported, and loses its
session, exactly when the store refuses the identity, except in two cases: the local device is
never compared, and an identity of which only one half is known on one side is trusted but counts
as changed. -/
theorem identity_change_iff_refused (m : Manager) (order : MapOrder) (userID : GoString)
    (devices : List Device) (now : Time) (st st' : Store) (result : Option IdentityChangedError)
    (hcall : applyDeviceList m order userID devices now st = .ok result st') (dev : Device)
    (hdev : dev ∈ devices) (key : IdentityKey) (hkey : dev.identityKey = some key) :
    (if st.isTrustedIdentity ⟨userID, dev.deviceID⟩ key then
        ¬ Reported result ⟨userID, dev.deviceID⟩ ∧
          st'.sessions[(⟨userID, dev.deviceID⟩ : Address)]? =
            st.sessions[(⟨userID, dev.deviceID⟩ : Address)]?
      else Reported result ⟨userID, dev.deviceID⟩ ∧
        st'.sessions[(⟨userID, dev.deviceID⟩ : Address)]? = none) ↔
    if ⟨userID, dev.deviceID⟩ = m.localAddress then
      st.isTrustedIdentity ⟨userID, dev.deviceID⟩ key = true
    else ¬ HalfKnown st ⟨userID, dev.deviceID⟩ key := by
  obtain ⟨set, data, hset, rfl, rfl⟩ := applyDeviceList_ok hcall
  generalize haddr : (⟨userID, dev.deviceID⟩ : Address) = addr
  obtain ⟨hnodup, -⟩ := addDevices_ok hset
  have hreported : Reported (outcome (changedAddresses m userID st (order.visit set.toList))) addr ↔
      addr ≠ m.localAddress ∧ identityChanged addr dev st = true := by
    rw [mem_outcome, mem_changedAddresses (visit_perm hset), ← haddr]
    constructor
    · rintro ⟨-, hlocal, d, hd, hid, hchanged⟩
      -- Two devices of the list with one number are the same.
      rw [List.inj_on_of_nodup_map hnodup hd hdev hid] at hchanged
      exact ⟨hlocal, hchanged⟩
    · rintro ⟨hlocal, hchanged⟩
      exact ⟨rfl, hlocal, dev, hdev, rfl, hchanged⟩
  have hmem : addr ∈ changedAddresses m userID st (order.visit set.toList) ↔
      addr ≠ m.localAddress ∧ (st.isTrustedIdentity addr key = false ∨ HalfKnown st addr key) := by
    rw [← mem_outcome, hreported, identityChanged_iff hkey]
  have hsession : ((deleteSessions (changedAddresses m userID st (order.visit set.toList))
      st).storeSesameState data).sessions[addr]? = if addr ∈ changedAddresses m userID st
        (order.visit set.toList) then none else st.sessions[addr]? :=
    getElem?_deleteSessions _ st addr
  rw [mem_outcome, hsession]
  cases htrusted : st.isTrustedIdentity addr key with
  | true =>
    -- Trusted: the device may not be in the list of changed identities.
    have hiff : addr ∈ changedAddresses m userID st (order.visit set.toList) ↔
        addr ≠ m.localAddress ∧ HalfKnown st addr key := by
      rw [hmem, htrusted, or_iff_right (by decide)]
    rw [if_pos rfl]
    by_cases hlocal : addr = m.localAddress
    · have hnot := fun h => (hiff.mp h).1 hlocal
      rw [if_pos hlocal, if_neg hnot]
      exact iff_of_true ⟨hnot, rfl⟩ rfl
    · rw [if_neg hlocal]
      by_cases hhalf : HalfKnown st addr key
      · simp [hiff, hlocal, hhalf]
      · simp [hiff, hhalf]
  | false =>
    -- Refused: only the local device is not reported.
    have hhalf : ¬ HalfKnown st addr key := fun h => by
      rw [h.trusted] at htrusted
      cases htrusted
    have hiff : addr ∈ changedAddresses m userID st (order.visit set.toList) ↔
        addr ≠ m.localAddress := by
      rw [hmem, htrusted, and_iff_left (.inl rfl)]
    rw [if_neg (by decide)]
    by_cases hlocal : addr = m.localAddress
    · rw [if_pos hlocal]
      exact iff_of_false (fun h => hiff.mp h.1 hlocal) (by decide)
    · simp [hiff, hlocal, hhalf]

/-- A peer known from a wire message, without its signing half, and the session with it. -/
def learnedStore : Store :=
  (Store.emptyStore.saveIdentity Store.samplePeer ⟨.fill 1, .zero⟩).storeSession Store.samplePeer
    [0]

theorem learnedStore_identity :
    learnedStore.identities[Store.samplePeer]? = some ⟨.fill 1, .zero⟩ := by
  show (Store.emptyStore.saveIdentity Store.samplePeer ⟨.fill 1, .zero⟩).identities[_]? = _
  rw [Store.saveIdentity, lookup_insert, if_pos rfl]
  rfl

theorem learnedStore_session : learnedStore.sessions[Store.samplePeer]? = some [0] := by
  rw [learnedStore, Store.storeSession, lookup_insert, if_pos rfl]

/-- The server lists the peer with another identity, and its session is deleted. -/
theorem identity_change_iff_refused_replaced :
    learnedStore.sessions[Store.samplePeer]? = some [0] ∧
    ∃ result st', applyDeviceList ⟨⟨[2], 1⟩, 1⟩ .ascending Store.samplePeer.name
        [⟨1, some ⟨.fill 2, .fill 1⟩⟩] .zero learnedStore = .ok result st' ∧
      Reported result Store.samplePeer ∧ st'.sessions[Store.samplePeer]? = none := by
  obtain ⟨-, set, data, -, hcall, -⟩ := applyDeviceList_empty learnedStore
    Store.samplePeer.name [⟨1, some ⟨.fill 2, .fill 1⟩⟩] rfl (by decide) (by decide) (by decide)
  refine ⟨learnedStore_session, _, _, hcall, ?_⟩
  have hiff := identity_change_iff_refused _ _ _ _ _ _ _ _ hcall _ (List.mem_singleton_self _) _ rfl
  have hrefused : ¬ learnedStore.isTrustedIdentity ⟨Store.samplePeer.name, 1⟩
      ⟨.fill 2, .fill 1⟩ = true := by
    show ¬ learnedStore.isTrustedIdentity Store.samplePeer _ = true
    simp only [Store.isTrustedIdentity, learnedStore_identity]
    decide
  rw [if_neg hrefused, if_neg (by decide)] at hiff
  exact hiff.mpr fun hhalf => hrefused hhalf.trusted

/-- **A session lost to a missing half.** The server lists the peer with its full identity. The
store trusts it, but `ApplyDeviceList` takes it for a change and deletes the session. -/
theorem identity_change_half_known :
    learnedStore.isTrustedIdentity Store.samplePeer ⟨.fill 1, .fill 1⟩ = true ∧
    learnedStore.sessions[Store.samplePeer]? = some [0] ∧
    ∃ result st', applyDeviceList ⟨⟨[2], 1⟩, 1⟩ .ascending Store.samplePeer.name
        [⟨1, some ⟨.fill 1, .fill 1⟩⟩] .zero learnedStore = .ok result st' ∧
      Reported result Store.samplePeer ∧ st'.sessions[Store.samplePeer]? = none := by
  obtain ⟨-, set, data, hset, hcall, -⟩ := applyDeviceList_empty learnedStore
    Store.samplePeer.name [⟨1, some ⟨.fill 1, .fill 1⟩⟩] rfl (by decide) (by decide) (by decide)
  have hmem : Store.samplePeer ∈ changedAddresses ⟨⟨[2], 1⟩, 1⟩ Store.samplePeer.name learnedStore
      (MapOrder.ascending.visit set.toList) := by
    refine (mem_changedAddresses (visit_perm hset) _).mpr ⟨rfl, by decide, _,
      List.mem_singleton_self _, rfl, ?_⟩
    have hget : learnedStore.getIdentity Store.samplePeer = some ⟨.fill 1, .zero⟩ :=
      learnedStore_identity
    rw [identityChanged, hget]
    decide
  refine ⟨?_, learnedStore_session, _, _, hcall, mem_outcome.mpr hmem, ?_⟩
  · simp only [Store.isTrustedIdentity, learnedStore_identity]
    decide
  · exact (getElem?_deleteSessions _ learnedStore Store.samplePeer).trans (if_pos hmem)

end SignalGo.Sesame
