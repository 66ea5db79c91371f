import SignalGo.Session.Serialize
import SignalGo.Spqr.StatePersist

/-!
# Session records from foreign bytes

`DeserializeRecord` checks every length before it slices, up to one: the number of archived
sessions is read right behind the current session without a check that its two bytes are there.

* `noPanic_deserializeSession`: the decoder of a session stays inside of its block.
* `deserializeRecord_total`: the decoder of a record leaves its input exactly for records
  that end before the number of archived sessions is complete.
-/

namespace SignalGo.Session

open Decoder

variable {p : Prims}

theorem bounded_identity (truncated : String) : Bounded 0 (readIdentity p truncated) 0 :=
  .bind (.need _ _) fun _ => .bind (.bytes (k := 0) _) fun _ => .lift (.mapError _ _)

theorem bounded_block (truncated bad : String) : Bounded 0 (readBlock truncated bad) 0 := by
  refine .bind (.need _ _) fun _ => .bind (.u32 (k := 0)) fun n => ?_
  exact .bind (.need _ _) fun _ => Bounded.bytes (k := 0) _

theorem bounded_nonEmpty (truncated bad : String) : Bounded 0 (readNonEmpty truncated bad) 0 := by
  refine .bind (.need _ _) fun _ => .bind (.u32 (k := 0)) fun n => ?_
  refine .ite (fun _ => .fail _) fun _ => ?_
  exact .bind (.need _ _) fun _ => Bounded.bytes (k := 0) _

theorem bounded_pqr (ver : UInt8) : Bounded 0 (readPQR ver) 0 := by
  refine .ite (fun _ => (bounded_block _ _).bind fun block => .lift ?_) fun _ => .pure _
  exact .ite (fun _ => Spqr.noPanic_deserializeState block) fun _ => .ok _

theorem noPanic_parsePrevious (block : Bytes) : NoPanic (parsePrevious block) := by
  refine .ite (fun _ => .ok _) fun _ => ?_
  have hsafe := Ratchet.noPanic_deserializeState block
  cases hst : Ratchet.deserializeState block with
  | ok st => exact .ok _
  | error e =>
    rw [hst] at hsafe
    intro h
    cases h
    exact hsafe rfl

theorem bounded_previousStates : Bounded 0 readPreviousStates 0 := by
  refine .bind (.need _ _) fun _ => .bind (.u32 (k := 0)) fun n => ?_
  refine .ite (fun _ => .fail _) fun _ => Bounded.many ?_ _
  exact (bounded_block _ _).bind fun block => .lift (noPanic_parsePrevious block)

theorem bounded_session : Bounded 2 (readSession p) 0 := by
  refine .bind (.u8 (k := 1)) fun ver => .ite (fun _ => .fail _) fun _ => ?_
  refine .bind (.u8 (k := 0)) fun version => (bounded_identity _).bind fun _ => ?_
  refine (bounded_identity _).bind fun _ => (bounded_block _ _).bind fun _ => ?_
  refine (bounded_pqr ver).bind fun _ => (bounded_nonEmpty _ _).bind fun block => ?_
  refine .bind (.lift (Ratchet.noPanic_deserializeState block)) fun _ => ?_
  exact bounded_previousStates.bind fun _ => .pure _

theorem noPanic_deserializeSession (data : Bytes) : NoPanic (deserializeSession p data) :=
  .ite (fun _ => .err _) fun hlen => bounded_session.run _ (by omega)

theorem bounded_archived (maxArchived n : Nat) (archived : List Session) :
    Bounded 0 (readArchived p maxArchived n archived) 0 := by
  induction n generalizing archived with
  | zero => exact .pure archived
  | succ n ih =>
    refine (bounded_nonEmpty _ _).bind fun block => .ite (fun _ => ?_) fun _ => ih archived
    exact .bind (.lift (noPanic_deserializeSession block)) fun session => ih _

/-- A block that was read: its length is not zero, and the block ends inside of the data. -/
theorem readNonEmpty_eq_ok {data : Bytes} {pos pos' : Nat} {truncated bad : String}
    {block : Bytes} : readNonEmpty truncated bad data pos = .ok (block, pos') ↔
      ∃ n : UInt32, uint32At (ε := Err) data pos = .ok n ∧ n ≠ 0 ∧
        slice (ε := Err) data (pos + 4) (pos + 4 + n.toNat) = .ok block ∧
        pos' = pos + 4 + n.toNat := by
  constructor
  · intro h
    obtain ⟨_, pos1, hneed, hlen⟩ := bind_apply_eq_ok.mp h
    obtain ⟨-, heq⟩ := need_eq_ok.mp hneed
    obtain ⟨n, pos2, hu32, hrest⟩ := bind_apply_eq_ok.mp hlen
    obtain ⟨hn, heq'⟩ := u32_eq_ok.mp hu32
    split at hrest
    · cases hrest
    · rename_i hne
      obtain ⟨_, pos3, hneed', hbytes⟩ := bind_apply_eq_ok.mp hrest
      obtain ⟨-, rfl⟩ := need_eq_ok.mp hneed'
      obtain ⟨hblock, hpos⟩ := bytes_eq_ok.mp hbytes
      rw [heq', heq] at hblock hpos
      exact ⟨n, heq ▸ hn, hne, hblock, hpos⟩
  · rintro ⟨n, hn, hne, hblock, rfl⟩
    have hin := le_length_of_slice hblock
    refine (bind_apply_of_ok (need_eq_ok.mpr ⟨by omega, rfl⟩)).trans ?_
    refine (bind_apply_of_ok (u32_eq_ok.mpr ⟨hn, rfl⟩)).trans ?_
    rw [if_neg hne]
    refine (bind_apply_of_ok (need_eq_ok.mpr ⟨hin, rfl⟩)).trans ?_
    exact bytes_eq_ok.mpr ⟨hblock, rfl⟩

/-- A record that is complete up to its current session, and ends before the two bytes with the
number of archived sessions. -/
structure CutCount (p : Prims) (data : Bytes) : Prop where
  size : recordMinSize ≤ data.length
  magic : data.take 4 = recordSerializeMagic
  version : byteAt (ε := Err) data 4 = .ok recordSerializeVersion
  current : ∃ (n : UInt32) (block : Bytes) (session : Session),
    uint32At (ε := Err) data 7 = .ok n ∧ n ≠ 0 ∧
    slice (ε := Err) data 11 (11 + n.toNat) = .ok block ∧
    deserializeSession p block = .ok session ∧ data.length < 11 + n.toNat + 2

/-- The reader of the archived sessions leaves the data only at their number. -/
theorem archivedCount_panic {data : Bytes} {pos maxArchived : Nat}
    (f : List Session → Record) :
    (do let archivedCount ← u16
        let archived ← readArchived p maxArchived archivedCount.toNat []
        return f archived : Decoder Err Record) data pos = .error .panic ↔
      data.length < pos + 2 := by
  constructor
  · intro h
    by_contra hlen
    have hsafe : Bounded 2 (do
        let archivedCount ← u16
        let archived ← readArchived p maxArchived archivedCount.toNat []
        return f archived : Decoder Err Record) 0 :=
      (Bounded.u16 (k := 0)).bind fun n => (bounded_archived maxArchived n.toNat []).bind
        fun archived => .pure (f archived)
    exact (hsafe data pos (by omega)).1 h
  · intro hlen
    refine bind_apply_of_error ?_
    rw [u16, uint16At_panic hlen]
    rfl

/-- The only read outside of the data is that of the number of archived sessions. -/
theorem readRecord_panic {data : Bytes} (hsize : recordMinSize ≤ data.length)
    (hmagic : data.take 4 = recordSerializeMagic) :
    readRecord p data 0 = .error .panic ↔ CutCount p data := by
  have hlen : 13 ≤ data.length := hsize
  obtain ⟨version, hversion⟩ : ∃ v, byteAt (ε := Err) data 4 = .ok v := ⟨_, byteAt_ok (by omega)⟩
  obtain ⟨limit, hlimit⟩ : ∃ v, uint16At (ε := Err) data 5 = .ok v := exists_uint16At (by omega)
  have hstart : readRecord p data 0 = _ :=
    (bind_apply_of_ok (bytes_eq_ok.mpr ⟨slice_ok (by omega) (by omega), rfl⟩)).trans
      (bind_apply_of_ok (u8_eq_ok.mpr ⟨hversion, rfl⟩))
  rw [hstart]
  by_cases hone : version = recordSerializeVersion
  · rw [if_neg (not_not.mpr hone)]
    -- the header is inside of the data, whatever the length of the current session is
    rw [bind_apply_of_ok (need_eq_ok.mpr ⟨by omega, rfl⟩),
      bind_apply_of_ok (u16_eq_ok.mpr ⟨hlimit, rfl⟩)]
    constructor
    · intro h
      obtain ⟨block, pos1, hblock, h⟩ := ((bounded_nonEmpty _ _).bind_panic (by omega)).mp h
      obtain ⟨n, hn, hne, hslice, rfl⟩ := readNonEmpty_eq_ok.mp hblock
      have hin := le_length_of_slice hslice
      obtain ⟨session, pos2, hlift, h⟩ :=
        ((Bounded.lift (k := 0) (noPanic_deserializeSession block)).bind_panic hin).mp h
      obtain ⟨session', hsession, heq⟩ := bind_eq_ok.mp hlift
      cases heq
      exact ⟨hsize, hmagic, hone ▸ hversion, n, block, session, hn, hne, hslice, hsession,
        (archivedCount_panic _).mp h⟩
    · rintro ⟨-, -, -, n, block, session, hn, hne, hslice, hsession, hcut⟩
      have hin := le_length_of_slice hslice
      refine (bind_apply_of_ok (readNonEmpty_eq_ok.mpr ⟨n, hn, hne, hslice, rfl⟩)).trans ?_
      have hlift : lift (deserializeSession p block) data (11 + n.toNat)
          = .ok (session, 11 + n.toNat) := by
        rw [lift, hsession]
        rfl
      exact (bind_apply_of_ok hlift).trans ((archivedCount_panic _).mpr hcut)
  · rw [if_pos hone]
    refine iff_of_false (fun h => ?_) fun h => hone ?_
    · cases h
    · exact Except.ok.inj (hversion.symm.trans h.version)

theorem deserializeRecord_panic (data : Bytes) :
    deserializeRecord p data = .error .panic ↔ CutCount p data := by
  unfold deserializeRecord
  by_cases hempty : data.length = 0
  · rw [if_pos hempty]
    refine iff_of_false nofun fun h => ?_
    have hsize : 13 ≤ data.length := h.size
    omega
  · rw [if_neg hempty]
    by_cases hform : data.length < recordMinSize ∨ data.take 4 ≠ recordSerializeMagic
    · rw [if_pos hform]
      refine iff_of_false nofun fun h => ?_
      rcases hform with hshort | hmagic
      · exact absurd h.size (Nat.not_le.mpr hshort)
      · exact hmagic h.magic
    · obtain ⟨hsize, hmagic⟩ := not_or.mp hform
      rw [if_neg hform, run_eq_panic]
      exact readRecord_panic (Nat.not_lt.mp hsize) (not_not.mp hmagic)

/-- **Reads outside of the data.** The decoder of a record reads behind the end of its input
exactly when the input ends before the number of archived sessions does. -/
theorem deserializeRecord_total (p : Prims) (data : Bytes) :
    NoPanic (deserializeRecord p data) ↔ ¬ CutCount p data :=
  not_congr (deserializeRecord_panic data)

/-- The bytes of a record up to its current session. -/
def Record.serializeCurrent (r : Record) : Bytes :=
  recordSerializeMagic ++ [recordSerializeVersion] ++ putUint16 (.ofNat r.maxArchived)
    ++ framed (serializeSession r.current)

theorem serializeCurrent_prefix {r : Record} (h : 0 < r.maxArchived) :
    r.serializeCurrent <+: r.serialize := by
  have hzero : r.maxArchived ≠ 0 := Nat.ne_of_gt h
  simp only [Record.serialize, hzero, if_false]
  rw [List.append_assoc _ (putUint16 _) (List.flatMap _ _)]
  exact List.prefix_append _ _

/-- Every record can be cut so that its decoder leaves the data. -/
theorem cutCount_serializeCurrent {r : Record} (h : r.Fits p) : CutCount p r.serializeCurrent := by
  have hcurrent := h.sessions _ List.mem_cons_self
  have hlen : r.serializeCurrent.length = 11 + (serializeSession r.current).length := by
    simp [Record.serializeCurrent, length_framed, recordSerializeMagic]
    omega
  have hlong : 136 ≤ (serializeSession r.current).length := by
    simp [serializeSession]
    omega
  have htoNat := toNat_length hcurrent.size
  -- the header in front of the length, and in front of the block
  let pre := recordSerializeMagic ++ [recordSerializeVersion] ++ putUint16 (.ofNat r.maxArchived)
  have hcount : uint32At (ε := Err) r.serializeCurrent 7
      = .ok (.ofNat (serializeSession r.current).length) :=
    uint32At_eq pre (serializeSession r.current) _
      (by simp [pre, Record.serializeCurrent, framed]) rfl
  have hblock : slice (ε := Err) r.serializeCurrent 11 (11 + (serializeSession r.current).length)
      = .ok (serializeSession r.current) :=
    slice_eq (pre ++ putUint32 (.ofNat (serializeSession r.current).length))
      (serializeSession r.current) [] (by simp [pre, Record.serializeCurrent, framed]) rfl rfl
  refine ⟨?_, rfl, rfl, _, _, _, hcount, ofNat_length_ne_zero hcurrent.size
    (serializeSession_ne_nil _), by rwa [htoNat], deserializeSession_serialize hcurrent, ?_⟩
  · show 13 ≤ _
    omega
  · omega

/-- A record with one fresh session. -/
def sampleRecord : Record where
  current := {
    ratchetState := {
      dhs := none, dhr := none, rk := .zero, cks := .zero, ckr := .zero
      ns := 0, nr := 0, pn := 0, mkSkipped := ∅, seenDH := ∅ }
    pqrState := none
    localIdentity := { publicKey := Key.fill 1, signingPublic := Key.fill 1 }
    remoteIdentity := { publicKey := Key.fill 2, signingPublic := Key.fill 2 }
    associatedData := []
    previousStates := []
    version := currentVersion }
  archived := []
  maxArchived := defaultMaxArchivedSessions

theorem sampleRecord_fits : sampleRecord.Fits toyPrims := by
  have hempty : (∅ : Std.ExtTreeMap Ratchet.SkippedKey Key).toList = [] := rfl
  refine ⟨by decide, by decide, by decide, fun session hs => ?_⟩
  cases List.mem_singleton.mp hs
  exact {
    localIdentity := by decide
    remoteIdentity := by decide
    version := by decide
    ratchet := ⟨Nat.zero_le _, by decide⟩
    pqr := nofun
    previousCount := Nat.zero_le _
    previous := nofun
    size := by simp [sampleRecord, serializeSession, length_framed, Ratchet.State.serialize,
      hempty] }

/-- The bytes of a record, and a truncation of them that ends in a panic. -/
theorem deserializeRecord_total_cut :
    ∃ data, deserializeRecord toyPrims sampleRecord.serialize = .ok sampleRecord ∧
      data <+: sampleRecord.serialize ∧ deserializeRecord toyPrims data = .error .panic := by
  refine ⟨sampleRecord.serializeCurrent, deserializeRecord_serialize sampleRecord_fits,
    serializeCurrent_prefix (by decide), ?_⟩
  exact (deserializeRecord_panic _).mpr (cutCount_serializeCurrent sampleRecord_fits)

end SignalGo.Session
