import SignalGo.Fields
import SignalGo.Lib.Decoder
import SignalGo.Lib.Maps

/-!
# Double Ratchet: the state as bytes

`State.Serialize` and `DeserializeState`. The entries of the two maps are written in the order of
their keys, so that the bytes are a function of the state.

* `deserializeState_serialize`: a state with at most `MaxSkip` skipped keys and a number of
  seen keys that fits its field comes back from its bytes.
-/

namespace SignalGo.Ratchet

open Std (ExtTreeMap ExtTreeSet)
open Decoder

def stateSerializeVersion : UInt8 := 1

/-! ## Encoding -/

/-- Bit 0 says that there is a sending key pair, bit 1 that there is a remote key. -/
def stateFlags (s : State) : UInt8 :=
  (if s.dhs.isSome then 1 else 0) ||| (if s.dhr.isSome then 2 else 0)

def encodeKeyPair (kp : KeyPair) : Bytes := kp.publicKey.toBytes ++ kp.privateKey.toBytes

def encodeSkipped (entry : SkippedKey × Key) : Bytes :=
  entry.1.publicKey.toBytes ++ putUint32 entry.1.n ++ entry.2.toBytes

def State.serialize (s : State) : Bytes :=
  [stateSerializeVersion, stateFlags s]
    ++ (s.dhs.map encodeKeyPair).getD []
    ++ (s.dhr.map ByteArr.toBytes).getD []
    ++ s.rk.toBytes ++ s.cks.toBytes ++ s.ckr.toBytes
    ++ putUint32 s.ns ++ putUint32 s.nr ++ putUint32 s.pn
    ++ putUint32 (.ofNat s.mkSkipped.size) ++ s.mkSkipped.toList.flatMap encodeSkipped
    ++ putUint32 (.ofNat s.seenDH.size) ++ s.seenDH.toList.flatMap ByteArr.toBytes

/-! ## Decoding -/

def readDHs (hasDHs : Bool) : Decoder Err (Option KeyPair) :=
  if hasDHs then do
    need 64 (invalid "ratchet state truncated DHs")
    let publicKey ← array 32
    let privateKey ← array 32
    return some { publicKey := publicKey, privateKey }
  else return none

def readDHr (hasDHr : Bool) : Decoder Err (Option Key) :=
  if hasDHr then do
    need 32 (invalid "ratchet state truncated DHr")
    let dhr ← array 32
    return some dhr
  else return none

def readSkipped : Decoder Err (SkippedKey × Key) := do
  need (32 + 4 + 32) (invalid "ratchet state truncated skipped entry")
  let publicKey ← array 32
  let n ← u32
  let mk ← array 32
  return ({ publicKey := publicKey, n }, mk)

def readSeen : Decoder Err Key := do
  need 32 (invalid "ratchet state truncated seen entry")
  array 32

/-- The two maps at the end of the state. The number of skipped keys is limited, the number of
seen keys is not. -/
def readMaps : Decoder Err (ExtTreeMap SkippedKey Key × ExtTreeSet Key) := do
  need 4 (invalid "ratchet state truncated skipped count")
  let skippedCount ← u32
  if skippedCount.toNat > maxSkip then fail (invalid "ratchet state invalid skipped count")
  else do
    let skipped ← many readSkipped skippedCount.toNat
    need 4 (invalid "ratchet state truncated seen count")
    let seenCount ← u32
    let seen ← many readSeen seenCount.toNat
    return (skipped.foldl (fun acc entry => acc.insert entry.1 entry.2) ∅,
      seen.foldl (fun acc key => acc.insert key) ∅)

def readState : Decoder Err State := do
  let version ← u8
  if version ≠ stateSerializeVersion then
    fail (invalid s!"ratchet state unsupported version {version}")
  else do
    let flags ← u8
    let dhs ← readDHs (flags &&& 1 ≠ 0)
    let dhr ← readDHr (flags &&& 2 ≠ 0)
    need (32 * 3 + 4 * 3) (invalid "ratchet state truncated keys")
    let rk ← array 32
    let cks ← array 32
    let ckr ← array 32
    let ns ← u32
    let nr ← u32
    let pn ← u32
    let (mkSkipped, seenDH) ← readMaps
    return {
      dhs := dhs
      dhr, rk, cks, ckr, ns, nr, pn, mkSkipped, seenDH }

def deserializeState (data : Bytes) : Except (Fault Err) State :=
  if data.length < 2 then .error (.err (invalid "ratchet state too short"))
  else readState.run (invalid "ratchet state trailing data") data

/-! ## Round trip -/

/-- The two maps fit the limits of the decoder. -/
structure State.Fits (s : State) : Prop where
  skipped : s.mkSkipped.size ≤ maxSkip
  seen : s.seenDH.size < 2 ^ 32

/-- The flag of the sending key pair is its own bit. -/
theorem stateFlags_dhs (s : State) : (stateFlags s &&& 1 ≠ 0) = (s.dhs.isSome = true) := by
  unfold stateFlags
  generalize s.dhs.isSome = hasDHs
  generalize s.dhr.isSome = hasDHr
  cases hasDHs <;> cases hasDHr <;> decide

theorem stateFlags_dhr (s : State) : (stateFlags s &&& 2 ≠ 0) = (s.dhr.isSome = true) := by
  unfold stateFlags
  generalize s.dhs.isSome = hasDHs
  generalize s.dhr.isSome = hasDHr
  cases hasDHs <;> cases hasDHr <;> decide

theorem decodable_dhs (dhs : Option KeyPair) :
    Decodable (readDHs dhs.isSome) ((dhs.map encodeKeyPair).getD []) dhs := by
  cases dhs with
  | none => exact .pure none
  | some kp =>
    refine .need (by simp [encodeKeyPair]) ?_
    exact .bind (.array kp.publicKey) ((Decodable.array kp.privateKey).ret fun priv =>
      some ({ publicKey := kp.publicKey, privateKey := priv } : KeyPair))

theorem decodable_dhr (dhr : Option Key) :
    Decodable (readDHr dhr.isSome) ((dhr.map ByteArr.toBytes).getD []) dhr := by
  cases dhr with
  | none => exact .pure none
  | some key => exact .need (by simp) ((Decodable.array key).ret some)

theorem decodable_skipped (entry : SkippedKey × Key) :
    Decodable readSkipped (encodeSkipped entry) entry := by
  refine .need (by simp [encodeSkipped]) ?_
  rw [encodeSkipped, List.append_assoc]
  exact .bind (.array entry.1.publicKey) ((Decodable.u32 entry.1.n).bind
    ((Decodable.array entry.2).ret fun mk => ((⟨entry.1.publicKey, entry.1.n⟩ : SkippedKey), mk)))

theorem decodable_seen (key : Key) : Decodable readSeen key.toBytes key :=
  Decodable.need (by simp) (Decodable.array key)

/-- The skipped keys and the seen keys, each behind its count. -/
theorem decodable_maps {s : State} (h : s.Fits) :
    Decodable readMaps (putUint32 (.ofNat s.mkSkipped.size)
      ++ (s.mkSkipped.toList.flatMap encodeSkipped ++ (putUint32 (.ofNat s.seenDH.size)
        ++ s.seenDH.toList.flatMap ByteArr.toBytes))) (s.mkSkipped, s.seenDH) := by
  have hlt : s.mkSkipped.size < 2 ^ 32 := lt_of_le_of_lt h.skipped (by decide)
  have hskip : (UInt32.ofNat s.mkSkipped.size).toNat = s.mkSkipped.toList.length := by
    rw [UInt32.toNat_ofNat_of_lt' hlt, ExtTreeMap.length_toList]
  have hseen : (UInt32.ofNat s.seenDH.size).toNat = s.seenDH.toList.length := by
    rw [UInt32.toNat_ofNat_of_lt' h.seen, ExtTreeSet.length_toList]
  have hkeys : Decodable (many readSkipped s.mkSkipped.toList.length)
      (s.mkSkipped.toList.flatMap encodeSkipped) (s.mkSkipped.toList.map id) :=
    Decodable.many fun entry _ => decodable_skipped entry
  have hset : Decodable (many readSeen s.seenDH.toList.length)
      (s.seenDH.toList.flatMap ByteArr.toBytes) (s.seenDH.toList.map id) :=
    Decodable.many fun key _ => decodable_seen key
  rw [List.map_id] at hkeys hset
  refine .need (by simp) (.bind (.u32 _) ?_)
  rw [hskip, if_neg (by rw [ExtTreeMap.length_toList]; exact Nat.not_lt.mpr h.skipped)]
  refine hkeys.bind (Decodable.need (by simp) (.bind (.u32 _) ?_))
  -- the entries come back one by one, and rebuild the maps
  rw [hseen, foldl_insert_toList]
  have hret := hset.ret fun seen =>
    (s.mkSkipped, seen.foldl (fun (acc : ExtTreeSet Key) key => acc.insert key) ∅)
  rwa [foldl_insert_toList_set] at hret

/-- **A state comes back from its bytes.** -/
theorem deserializeState_serialize {s : State} (h : s.Fits) :
    deserializeState s.serialize = .ok s := by
  have hdhs : Decodable (readDHs (stateFlags s &&& 1 ≠ 0)) ((s.dhs.map encodeKeyPair).getD [])
      s.dhs := by
    simp only [stateFlags_dhs, Bool.decide_coe]
    exact decodable_dhs s.dhs
  have hdhr : Decodable (readDHr (stateFlags s &&& 2 ≠ 0)) ((s.dhr.map ByteArr.toBytes).getD [])
      s.dhr := by
    simp only [stateFlags_dhr, Bool.decide_coe]
    exact decodable_dhr s.dhr
  have hread : Decodable readState s.serialize s := by
    simp only [State.serialize, List.append_assoc]
    show Decodable _ ([stateSerializeVersion] ++ ([stateFlags s] ++ _)) _
    refine .bind (.u8 _) ?_
    rw [if_neg (by decide)]
    refine .bind (.u8 _) (hdhs.bind (hdhr.bind (Decodable.need (by simp; omega) ?_)))
    exact .bind (.array s.rk) (.bind (.array s.cks) ((Decodable.array s.ckr).bind
      (.bind (.u32 s.ns) (.bind (.u32 s.nr) ((Decodable.u32 s.pn).bind
        ((decodable_maps h).ret fun maps => ({
          dhs := s.dhs
          dhr := s.dhr
          rk := s.rk
          cks := s.cks
          ckr := s.ckr
          ns := s.ns
          nr := s.nr
          pn := s.pn
          mkSkipped := maps.1
          seenDH := maps.2 } : State)))))))
  have hlen : ¬ s.serialize.length < 2 := by
    simp [State.serialize]
  rw [deserializeState, if_neg hlen]
  exact hread.run _

/-! ## Foreign bytes -/

theorem bounded_dhs (hasDHs : Bool) : Bounded 0 (readDHs hasDHs) 0 := by
  refine .ite (fun _ => .bind (.need _ _) fun _ => ?_) fun _ => .pure _
  exact .bind (.array (k := 32) 32) fun pub => .bind (.array (k := 0) 32) fun _ => .pure _

theorem bounded_dhr (hasDHr : Bool) : Bounded 0 (readDHr hasDHr) 0 := by
  refine .ite (fun _ => .bind (.need _ _) fun _ => ?_) fun _ => .pure _
  exact .bind (.array (k := 0) 32) fun _ => .pure _

theorem bounded_skipped : Bounded 0 readSkipped 0 :=
  (Bounded.need _ _).bind fun _ => .bind (.array (k := 36) 32) fun _ =>
    .bind (.u32 (k := 32)) fun _ => .bind (.array (k := 0) 32) fun _ => .pure _

theorem bounded_seen : Bounded 0 readSeen 0 :=
  (Bounded.need _ _).bind fun _ => Bounded.array (k := 0) 32

theorem bounded_maps : Bounded 0 readMaps 0 := by
  refine .bind (.need _ _) fun _ => .bind (.u32 (k := 0)) fun _ => ?_
  refine .ite (fun _ => .fail _) fun _ => (bounded_skipped.many _).bind fun _ => ?_
  refine .bind (.need _ _) fun _ => .bind (.u32 (k := 0)) fun _ => ?_
  exact (bounded_seen.many _).bind fun _ => .pure _

/-- No reader of the state goes beyond the data. -/
theorem bounded_state : Bounded 2 readState 0 := by
  refine .bind (.u8 (k := 1)) fun _ => .ite (fun _ => .fail _) fun _ => ?_
  refine .bind (.u8 (k := 0)) fun flags => (bounded_dhs _).bind fun _ => ?_
  refine (bounded_dhr _).bind fun _ => .bind (.need _ _) fun _ => ?_
  -- the three keys and the three counters are behind one check
  refine .bind (.array (k := 76) 32) fun _ => .bind (.array (k := 44) 32) fun _ => ?_
  refine .bind (.array (k := 12) 32) fun _ => .bind (.u32 (k := 8)) fun _ => ?_
  refine .bind (.u32 (k := 4)) fun _ => .bind (.u32 (k := 0)) fun _ => ?_
  exact bounded_maps.bind fun _ => .pure _

/-- No bytes make the decoder of a state read outside of them. -/
theorem noPanic_deserializeState (data : Bytes) : NoPanic (deserializeState data) :=
  .ite (fun _ => .err _) fun hlen => bounded_state.run _ (by omega)

end SignalGo.Ratchet
