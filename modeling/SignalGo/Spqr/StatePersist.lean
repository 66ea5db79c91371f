import SignalGo.Lib.Runs
import SignalGo.Spqr.PartyInvariant
import SignalGo.Spqr.Persist

/-!
# Saving and restoring the SPQR state

The chain and the whole state come back from their bytes as they were, provided their parts fit
the 32-bit length fields; `Clone`, which saves the parts without an outer length, always gives the
state back.

* `State.Fits`: the parts with a length field fit it.
* `spqr_persistence`: the round trip for every state a party can reach.
-/

namespace SignalGo.Spqr

open Std (ExtTreeMap)

/-! ## The size of a chain -/

/-- The bytes that one direction of a link takes. -/
def ChainEpochDirection.byteSize (d : ChainEpochDirection) : Nat :=
  12 + d.next.length + 36 * d.prev.keys.size

/-- The bytes that the links take. -/
def linksByteSize (links : List ChainEpoch) : Nat :=
  (links.map fun link => link.send.byteSize + link.recv.byteSize).sum

/-- The bytes that a chain takes: its links with their next keys and stored keys. -/
def Chain.byteSize (c : Chain) : Nat := 62 + linksByteSize c.links

theorem length_appendChainDir (d : ChainEpochDirection) :
    (appendChainDir d).length = d.byteSize := by
  have hkey : ∀ kv : UInt32 × Key, (keyBytes kv).length = 36 := fun kv => by simp [keyBytes]
  simp only [appendChainDir, ChainEpochDirection.byteSize, List.length_append, length_putUint32,
    List.length_flatMap, hkey, List.map_const', List.sum_replicate, ExtTreeMap.length_toList,
    smul_eq_mul]
  omega

theorem length_serializeChain (c : Chain) : (serializeChain c).length = c.byteSize := by
  have hlink : ∀ link : ChainEpoch, (linkBytes link).length
      = link.send.byteSize + link.recv.byteSize := fun link => by
    rw [linkBytes, List.length_append, length_appendChainDir, length_appendChainDir]
  simp only [serializeChain, Chain.byteSize, linksByteSize, List.length_append, length_putUint32,
    length_putUint64, ByteArr.length_toBytes, List.length_flatMap, hlink, List.length_cons,
    List.length_nil]

/-! ## The round trip of a chain -/

theorem length_serializeChain_ne (c : Chain) : (serializeChain c).length ≠ 0 := by
  rw [length_serializeChain]
  unfold Chain.byteSize
  omega

/-- The counts of the direction fit their fields. -/
structure ChainEpochDirection.Fits (d : ChainEpochDirection) : Prop where
  next : d.next.length < 2 ^ 32
  prev : d.prev.keys.size < 2 ^ 32

theorem decodable_consumeKey (kv : UInt32 × Key) : Decodable consumeKey (keyBytes kv) kv :=
  .need (by simp [keyBytes]) ((Decodable.u32 kv.1).bind
    ((Decodable.array kv.2).ret fun key => (kv.1, key)))

theorem decodable_consumeHistory {keys : ExtTreeMap UInt32 Key} (h : keys.size < 2 ^ 32) :
    Decodable consumeHistory (putUint32 (UInt32.ofNat keys.size) ++ keys.toList.flatMap keyBytes)
      keys := by
  have hkeys := Decodable.many fun kv (_ : kv ∈ keys.toList) => decodable_consumeKey kv
  refine .need (by simp) (.bind (.u32 _) ?_)
  rw [toNat_ofNat_lt h, ← ExtTreeMap.length_toList]
  -- inserting the entries of a map one after the other restores it
  refine hkeys.last ?_
  rw [List.map_id', foldl_insert_toList]
  exact .pure keys

theorem decodable_consumeChainDir {d : ChainEpochDirection} (h : d.Fits) :
    Decodable consumeChainDir (appendChainDir d) d := by
  simp only [appendChainDir, List.append_assoc]
  refine .need (by simp; omega) (.bind (.u32 d.ctr) (.bind (.u32 _) ?_))
  rw [toNat_ofNat_lt h.next]
  exact .need (by simp) (.bind (.bytes rfl) ((decodable_consumeHistory h.prev).ret
    fun keys => ({ ctr := d.ctr, next := d.next, prev := ⟨keys⟩ } : ChainEpochDirection)))

def ChainEpoch.Fits (link : ChainEpoch) : Prop := link.send.Fits ∧ link.recv.Fits

theorem decodable_consumeLink {link : ChainEpoch} (h : link.Fits) :
    Decodable consumeLink (linkBytes link) link :=
  (decodable_consumeChainDir h.1).bind ((decodable_consumeChainDir h.2).ret
    fun recv => ({ send := link.send, recv } : ChainEpoch))

variable {c : Chain}

theorem decodable_readChain (h : ∀ link ∈ c.links, link.Fits) (hlen : c.links.length < 2 ^ 32) :
    Decodable readChain (serializeChain c) c := by
  have hlinks := Decodable.many fun link hlink => decodable_consumeLink (h link hlink)
  rw [List.map_id'] at hlinks
  rw [serializeChain, ← List.singleton_append]
  simp only [List.append_assoc]
  refine .bind (.u8 1) (.guard (by decide) (.need (by simp) (.bind (.u8 c.dir) ?_)))
  refine .need (by simp; omega) ((Decodable.u64 c.currentEpoch).bind
    (.bind (.u64 c.sendEpoch) ((Decodable.array c.nextRoot).bind
      (.bind (.u32 c.params.MaxJump) ((Decodable.u32 c.params.MaxOOO).bind
        (.bind (.u32 _) ?_))))))
  rw [toNat_ofNat_lt hlen]
  exact hlinks.last (.pure c)

/-- **A chain comes back from its bytes.** -/
theorem deserializeChain_serialize (h : ∀ link ∈ c.links, link.Fits)
    (hlen : c.links.length < 2 ^ 32) : deserializeChain (serializeChain c) = .ok (some c) := by
  rw [deserializeChain, if_neg (length_serializeChain_ne c), (decodable_readChain h hlen).run]
  rfl

/-! ## Chains from foreign bytes -/

theorem bounded_consumeChainDir : Bounded 0 consumeChainDir 0 := by
  have hkey : Bounded 0 consumeKey 0 :=
    (Bounded.need _ _).bind fun _ => .bind (.u32 (k := 32)) fun _ =>
      .bind (.array (k := 0) 32) fun _ => .pure _
  have hhistory : Bounded 0 consumeHistory 0 :=
    (Bounded.need _ _).bind fun _ => .bind (.u32 (k := 0)) fun _ =>
      (hkey.many _).bind fun _ => .pure _
  exact .bind (.need _ _) fun _ => .bind (.u32 (k := 4)) fun _ =>
    .bind (.u32 (k := 0)) fun _ => .bind (.need _ _) fun _ =>
      .bind (.bytes (k := 0) _) fun _ => hhistory.bind fun _ => .pure _

theorem bounded_readChain : Bounded 1 readChain 0 := by
  have hlink : Bounded 0 consumeLink 0 :=
    bounded_consumeChainDir.bind fun _ => bounded_consumeChainDir.bind fun _ => .pure _
  refine .bind (.u8 (k := 0)) fun version => .ite (fun _ => .fail _) fun _ => ?_
  refine .bind (.need _ _) fun _ => .bind (.u8 (k := 0)) fun dir => ?_
  refine .bind (.need _ _) fun _ => .bind (.u64 (k := 8 + 32 + 4 + 4 + 4)) fun _ => ?_
  refine .bind (.u64 (k := 32 + 4 + 4 + 4)) fun _ => ?_
  refine .bind (.array (k := 4 + 4 + 4) 32) fun _ => .bind (.u32 (k := 4 + 4)) fun _ => ?_
  refine .bind (.u32 (k := 4)) fun _ => .bind (.u32 (k := 0)) fun count => ?_
  exact (hlink.many _).bind fun _ => .pure _

theorem noPanic_deserializeChain (data : Bytes) : NoPanic (deserializeChain data) := by
  refine .ite (fun _ => .ok _) fun hlen => ?_
  exact .bind (bounded_readChain.run _ (Nat.one_le_iff_ne_zero.mpr hlen)) fun _ _ => .ok _

theorem size_foldl_insert_le (l : List (UInt32 × Key)) (keys : ExtTreeMap UInt32 Key) :
    (l.foldl (fun history kv => history.insert kv.1 kv.2) keys).size ≤ keys.size + l.length := by
  induction l generalizing keys with
  | nil => exact le_rfl
  | cons kv l ih =>
    have := ExtTreeMap.size_insert_le (t := keys) (k := kv.1) (v := kv.2)
    have := ih (keys.insert kv.1 kv.2)
    rw [List.foldl_cons, List.length_cons]
    omega

theorem consumes_history :
    Consumes 0 consumeHistory fun keys => 4 + 36 * keys.size := by
  have hkey : Consumes 0 consumeKey fun _ => 36 :=
    (Consumes.need _ _).bind fun _ => (Consumes.of_read (f := id) 4).bind fun _ =>
      (Consumes.of_read (f := ByteArr.ofBytes 32) 32).bind fun _ => .pure le_rfl
  refine (Consumes.need _ _).bind fun _ => (Consumes.of_read (f := id) 4).bind fun count => ?_
  refine (hkey.many _).bind fun keys => .pure ?_
  have hsize := size_foldl_insert_le keys ∅
  rw [ExtTreeMap.size_empty] at hsize
  simp only [List.map_const', List.sum_replicate, smul_eq_mul]
  omega

theorem consumes_chainDir : Consumes 0 consumeChainDir ChainEpochDirection.byteSize := by
  refine (Consumes.need _ _).bind fun _ => (Consumes.of_read (f := id) 4).bind fun _ => ?_
  refine (Consumes.of_read (f := id) 4).bind fun _ => (Consumes.need _ _).bind fun _ => ?_
  refine (Consumes.bytes _).bind fun next => consumes_history.bind fun keys => .pure ?_
  simp only [ChainEpochDirection.byteSize]
  omega

/-- A chain takes no more bytes than it was read from. -/
theorem byteSize_le_of_deserializeChain {data : Bytes} (h : deserializeChain data = .ok (some c)) :
    c.byteSize ≤ data.length := by
  have hlink : Consumes 0 consumeLink fun link => link.send.byteSize + link.recv.byteSize := by
    refine consumes_chainDir.bind fun _ => consumes_chainDir.bind fun _ => .pure ?_
    simp
  have hchain : Consumes 0 readChain Chain.byteSize := by
    refine (Consumes.of_read (f := id) 1).bind fun _ => .ite fun _ => ?_
    refine (Consumes.need _ _).bind fun _ => (Consumes.of_read (f := id) 1).bind fun _ => ?_
    refine (Consumes.need _ _).bind fun _ => (Consumes.of_read (f := id) 8).bind fun _ => ?_
    refine (Consumes.of_read (f := id) 8).bind fun _ => ?_
    refine (Consumes.of_read (f := ByteArr.ofBytes 32) 32).bind fun _ => ?_
    refine (Consumes.of_read (f := id) 4).bind
      fun _ => (Consumes.of_read (f := id) 4).bind fun _ => ?_
    refine (Consumes.of_read (f := id) 4).bind fun _ => (hlink.many _).bind fun _ => .pure ?_
    simp only [Chain.byteSize, linksByteSize]
    omega
  rw [deserializeChain] at h
  split at h
  · cases h
  · obtain ⟨c', hrun, h⟩ := bind_eq_ok.mp h
    cases h
    have := hchain _ _ _ _ (Decoder.run_eq_ok.mp hrun)
    omega

/-! ## The whole state -/

/-- The parts of the state that are written behind a length fit the length field. -/
structure State.Fits (s : State) : Prop where
  authKey : ∀ vn, s.negotiation = some vn → vn.authKey.length < 2 ^ 32
  chain : ∀ c, s.chain = some c → c.byteSize < 2 ^ 32

theorem decodable_readNegotiation {vn : VersionNegotiation} (h : vn.Valid)
    (hkey : vn.authKey.length < 2 ^ 32) : Decodable readNegotiation (appendNegotiation vn) vn := by
  have hdir : ¬ (vn.direction ≠ directionA2B ∧ vn.direction ≠ directionB2A) := by
    rcases h.direction with hd | hd <;> simp [hd]
  show Decodable readNegotiation ([vn.minVersion] ++ ([vn.direction] ++ _) ++ _ ++ _) vn
  simp only [List.append_assoc]
  refine .need (by simp; omega) ((Decodable.u8 vn.minVersion).bind
    (.bind (.u8 vn.direction) ?_))
  refine .guard (by simpa using h.minVersion) (.guard hdir ?_)
  exact .bind (.u32 vn.chainParams.MaxJump) ((Decodable.u32 vn.chainParams.MaxOOO).bind
    ((decodable_readBytes hkey).last (.guard h.authKey (.pure vn))))

theorem stateFlags_negotiation (s : State) : stateFlags s &&& 0x01 ≠ 0 ↔ s.negotiation.isSome := by
  unfold stateFlags
  cases s.negotiation.isSome <;> cases s.chain.isSome <;> decide

theorem stateFlags_chain (s : State) : stateFlags s &&& 0x02 ≠ 0 ↔ s.chain.isSome := by
  unfold stateFlags
  cases s.negotiation.isSome <;> cases s.chain.isSome <;> decide

variable {s : State}

theorem decodable_readOptNegotiation (h : ∀ vn, s.negotiation = some vn → vn.Valid)
    (hkey : ∀ vn, s.negotiation = some vn → vn.authKey.length < 2 ^ 32) :
    Decodable (readOptNegotiation (stateFlags s))
      ((s.negotiation.map appendNegotiation).getD []) s.negotiation := by
  unfold readOptNegotiation
  cases hvn : s.negotiation with
  | none =>
    rw [if_neg (by rw [stateFlags_negotiation, hvn]; nofun)]
    exact .pure none
  | some vn =>
    rw [if_pos ((stateFlags_negotiation s).mpr (by rw [hvn]; rfl))]
    exact (decodable_readNegotiation (h vn hvn) (hkey vn hvn)).ret some

theorem decodable_readOptChain
    (h : ∀ c, s.chain = some c → deserializeChain (serializeChain c) = .ok (some c))
    (hsize : ∀ c, s.chain = some c → c.byteSize < 2 ^ 32) :
    Decodable (readOptChain (stateFlags s))
      ((s.chain.map fun c => appendBytes (serializeChain c)).getD []) s.chain := by
  unfold readOptChain
  cases hc : s.chain with
  | none =>
    rw [if_neg (by rw [stateFlags_chain, hc]; nofun)]
    exact .pure none
  | some c =>
    rw [if_pos ((stateFlags_chain s).mpr (by rw [hc]; rfl))]
    have hlen : (serializeChain c).length < 2 ^ 32 := by
      rw [length_serializeChain]
      exact hsize c hc
    exact (decodable_readBytes hlen).parsed (h c hc)

/-- The chain part and the handshake part of a state come back from their bytes. -/
structure State.Restorable (s : State) : Prop where
  version : s.version = versionV1
  v1 : ∃ v1, s.v1 = some v1 ∧ v1.Valid
  negotiation : ∀ vn, s.negotiation = some vn → vn.Valid
  chain : ∀ c, s.chain = some c → deserializeChain (serializeChain c) = .ok (some c)

/-- **A state whose parts fit comes back from its bytes.** -/
theorem deserializeState_serialize (h : s.Restorable) (hfits : s.Fits) :
    deserializeState s.serialize = .ok (some s) := by
  obtain ⟨v1, hv1, hvalid⟩ := h.v1
  have hser : s.serialize = [stateSerializeVersionV2] ++ ([s.version] ++ ([stateFlags s]
      ++ ((s.negotiation.map appendNegotiation).getD [] ++ (appendBytes (serializeV1States v1)
      ++ (s.chain.map fun c => appendBytes (serializeChain c)).getD [])))) := by
    rw [State.serialize, if_neg (by rw [h.version]; decide)]
    simp [hv1]
  have hv1len := (length_serializeV1States hvalid).trans_le (show 2 ^ 24 ≤ 2 ^ 32 by decide)
  have hread : Decodable readState s.serialize s := by
    rw [hser]
    refine .bind (.u8 stateSerializeVersionV2) ?_
    rw [if_neg (by decide), if_pos rfl]
    refine .need (by simp) (.bind (.u8 _) (.bind (.u8 _) ?_))
    refine .guard (not_not.mpr h.version) ?_
    refine (decodable_readOptNegotiation h.negotiation hfits.authKey).bind
      ((decodable_readBytes hv1len).bind (.lift_bind (deserializeV1States_serialize hvalid) ?_))
    refine (decodable_readOptChain h.chain hfits.chain).last ?_
    rw [← hv1]
    exact .pure s
  rw [deserializeState, if_neg (by rw [hser]; simp), hread.run]
  rfl

/-- **`Clone` gives the state back**, whatever the sizes. -/
theorem State.Restorable.clone (h : s.Restorable) : s.clone = some s := by
  obtain ⟨v1, hv1, hvalid⟩ := h.v1
  have hcv : cloneV1 v1 = some v1 := by
    rw [cloneV1, deserializeV1States_serialize hvalid]
    rfl
  have hcc : s.chain.mapM cloneChain = some (s.chain.map some) := by
    cases hc : s.chain with
    | none => rfl
    | some c =>
      rw [Option.mapM_some, cloneChain, h.chain c hc]
      rfl
  have hjoin : (s.chain.map some).join = s.chain := by
    cases s.chain <;> rfl
  have hvm : s.v1.mapM cloneV1 = some s.v1 := by
    rw [hv1]
    rw [Option.mapM_some, hcv]
    rfl
  unfold State.clone
  rw [hvm, hcc]
  show some { s with chain := (s.chain.map some).join } = some s
  rw [hjoin]

theorem bounded_readNegotiation : Bounded 0 readNegotiation 0 := by
  refine .bind (.need _ _) fun _ => .bind (.u8 (k := 1 + 4 + 4)) fun _ => ?_
  refine .bind (.u8 (k := 4 + 4)) fun _ => ?_
  refine .ite (fun _ => .fail _) fun _ => .ite (fun _ => .fail _) fun _ => ?_
  refine .bind (.u32 (k := 4)) fun _ => .bind (.u32 (k := 0)) fun _ => ?_
  exact bounded_readBytes.bind fun _ => .ite (fun _ => .fail _) fun _ => .pure _

theorem bounded_readStateV2 : Bounded 0 readStateV2 0 := by
  refine .bind (.need _ _) fun _ => .bind (.u8 (k := 1)) fun _ => ?_
  refine .bind (.u8 (k := 0)) fun flags => .ite (fun _ => .fail _) fun _ => ?_
  refine .bind (.ite (fun _ => bounded_readNegotiation.bind fun _ => .pure _)
    fun _ => .pure _) fun _ => ?_
  refine bounded_readBytes.bind fun _ =>
    .bind (.lift (noPanic_deserializeV1States _)) fun _ => ?_
  exact .bind (.ite (fun _ => bounded_readBytes.bind fun _ => .lift (noPanic_deserializeChain _))
    fun _ => .pure _) fun _ => .pure _

/-- **Foreign bytes**: every index and slice of `DeserializeState` is inside the data. -/
theorem noPanic_deserializeState (data : Bytes) : NoPanic (deserializeState data) := by
  have hlegacy : Bounded 0 readLegacyState 0 :=
    (Bounded.need _ _).bind fun _ => .bind (.u8 (k := 0)) fun _ =>
      bounded_readBytes.bind fun _ =>
        .bind (.lift (noPanic_deserializeChain _)) fun _ => .pure _
  have hstate : Bounded 1 readState 0 :=
    (Bounded.u8 (k := 0)).bind fun tag => .ite (fun _ => hlegacy) fun _ =>
      .ite (fun _ => bounded_readStateV2) fun _ => .fail _
  refine .ite (fun _ => .ok _) fun hlen => ?_
  exact .bind (hstate.run _ (Nat.one_le_iff_ne_zero.mpr hlen)) fun _ _ => .ok _

theorem returns_readOptNegotiation (flags : UInt8) : Returns (readOptNegotiation flags)
    fun vn? => ∀ vn, vn? = some vn → vn.authKey.length < 2 ^ 32 := by
  have hkey : Returns readBytes fun b => b.length < 2 ^ 32 := fun _ _ _ _ => length_readBytes
  have hvn : Returns readNegotiation fun vn => vn.authKey.length < 2 ^ 32 := by
    refine .skip fun _ => .skip fun _ => .skip fun _ => ?_
    refine .ite (fun _ => .fail _) fun _ => .ite (fun _ => .fail _) fun _ => ?_
    refine .skip fun _ => .skip fun _ => hkey.bind fun authKey hlen => ?_
    exact .ite (fun _ => .fail _) fun _ => .pure hlen
  refine .ite (fun _ => hvn.bind fun vn hlen => .pure ?_) fun _ => .pure nofun
  rintro _ ⟨⟩
  exact hlen

theorem returns_readOptChain (flags : UInt8) : Returns (readOptChain flags)
    fun c? => ∀ c, c? = some c → c.byteSize < 2 ^ 32 := by
  have hbytes : Returns readBytes fun b => b.length < 2 ^ 32 := fun _ _ _ _ => length_readBytes
  refine .ite (fun _ => hbytes.bind fun chainBytes hlen => ?_) fun _ => .pure nofun
  intro data pos c? pos' h c hc
  obtain ⟨c', hchain, h⟩ := bind_eq_ok.mp h
  cases h
  subst hc
  exact (byteSize_le_of_deserializeChain hchain).trans_lt hlen

/-- What is read back fits its length fields. -/
theorem fits_of_deserializeState {data : Bytes} {v1 : V1States}
    (h : deserializeState data = .ok (some s)) (hv1 : s.v1 = some v1) : s.Fits := by
  have hlegacy : Returns readLegacyState fun s => s.v1.isSome → s.Fits :=
    .skip fun _ => .skip fun _ => .skip fun _ => .skip fun _ => .pure nofun
  have hv2 : Returns readStateV2 fun s => s.v1.isSome → s.Fits := by
    refine .skip fun _ => .skip fun _ => .skip fun flags => .ite (fun _ => .fail _) fun _ => ?_
    refine (returns_readOptNegotiation flags).bind fun vn? hvn => .skip fun _ => .skip fun _ => ?_
    exact (returns_readOptChain flags).bind fun c? hc => .pure fun _ => ⟨hvn, hc⟩
  have hstate : Returns readState fun s => s.v1.isSome → s.Fits :=
    .skip fun _ => .ite (fun _ => hlegacy) fun _ => .ite (fun _ => hv2) fun _ => .fail _
  rw [deserializeState] at h
  split at h
  · cases h
  · obtain ⟨s', hrun, h⟩ := bind_eq_ok.mp h
    cases h
    exact hstate.run hrun (by rw [hv1]; rfl)

/-! ## The states a party reaches -/

section Reached

variable {p : Prims} {kem : Kem} {l : Ledger} {n : Nat} {v1 : V1States} {s : State}

/-- The numbers of the stored keys are at most the counter, and zero is not one of them. -/
theorem RecvOk.size_lt {seed : Bytes} {d : ChainEpochDirection} (h : RecvOk p seed d) :
    d.prev.keys.size < 2 ^ 32 := by
  have hle : d.prev.keys.size ≤ (Finset.Icc 1 d.ctr.toNat).card :=
    size_le_card d.prev.keys (fun _ _ => UInt32.toNat_inj.mp) _ fun idx key hkey => by
      obtain ⟨hpos, hle, -⟩ := h.stored idx key hkey
      exact Finset.mem_Icc.mpr ⟨hpos, hle⟩
  rw [Nat.card_Icc, Nat.add_sub_cancel] at hle
  exact lt_of_le_of_lt hle d.ctr.toNat_lt

theorem LinkOk.fits {seeds : Bytes × Bytes} {sent : Nat} {live : Prop} {link : ChainEpoch}
    (h : LinkOk p seeds sent live link) (h1 : seeds.1.length = 32) (h2 : seeds.2.length = 32) :
    link.Fits := by
  refine ⟨⟨?_, ?_⟩, ?_, h.recv.size_lt⟩
  · rcases h.sendNext with hnext | ⟨-, hnext⟩
    · rw [hnext, length_nextAt p h1]
      decide
    · rw [hnext]
      decide
  · rw [h.sendPrev]
    simp [KeyHistory.empty]
  · rw [h.recv.stands.next, length_nextAt p h2]
    decide

theorem ChainAt.restored {base cur snd : Nat} (h : ChainAt p l base cur snd c) (hl : l.Sized)
    (hnear : cur ≤ snd + 2) : deserializeChain (serializeChain c) = .ok (some c) := by
  refine deserializeChain_serialize (fun link hlink => ?_) ?_
  · obtain ⟨i, hi, rfl⟩ := List.getElem_of_mem hlink
    have hseeds := hl.seedsOk (base + i)
    exact (h.links.links i _ (List.getElem?_eq_getElem hi)).fits hseeds.1 hseeds.2
  · have := h.links.length
    have := h.links.base_eq
    omega

theorem PartyOk.restorable (h : PartyOk p l n v1 s) (hl : l.Sized) : s.Restorable where
  version := h.version
  v1 := ⟨v1, h.state, h.handshake.valid⟩
  negotiation := h.negotiation
  chain c hc := by
    rcases h.chain with ⟨c', hc', base, snd, hat, -, hnear, -⟩ | ⟨hnone, -⟩
    · rw [hc] at hc'
      cases hc'
      refine hat.restored hl (le_trans ?_ hnear)
      unfold V1States.chainEpoch
      split <;> omega
    · rw [hc] at hnone
      cases hnone

/-- One call on the state of a party. -/
inductive PartyEvent where
  | send (rnd : Rand)
  | receive (message : Bytes)

/-- `Send` works in place, `Receive` counts when it succeeds. -/
def PartyStep (p : Prims) (kem : Kem) (s : State) (e : PartyEvent) (s' : State) : Prop :=
  match e with
  | .send rnd => s' = (s.send p kem rnd).1
  | .receive message => ∃ salt, s.receive p kem message = .ok (s', salt)

/-- The state is disabled, or it satisfies the invariant for some ledger. -/
def PartySound (p : Prims) (s : State) : Prop :=
  s = .disabled ∨ ∃ l n v1, l.Sized ∧ PartyOk p l n v1 s

/-- Every call, failed or not, leaves a sound state. -/
theorem PartySound.step (h : PartySound p s) {e : PartyEvent} {s' : State}
    (hstep : PartyStep p kem s e s') : PartySound p s' := by
  rcases h with rfl | ⟨l, n, v1, hl, hok⟩
  · -- a disabled state stays as it is
    cases e with
    | send rnd => exact .inl hstep
    | receive message =>
      obtain ⟨salt, hrecv⟩ := hstep
      cases hrecv
  · cases e with
    | send rnd =>
      have hstep : s' = (s.send p kem rnd).1 := hstep
      rcases hok.send hl kem rnd with
        ⟨e, k, -, -, heq⟩ | ⟨-, -, heq⟩ |
          ⟨hn, v1', out, idx, salt, l', s1, -, -, hsalt, heq, hok', -⟩
      · rw [hstep, heq]
        exact .inr ⟨l, n, v1, hl, hok⟩
      · rw [hstep, heq]
        exact .inr ⟨l, n, v1, hl, hok⟩
      · rw [hstep, heq]
        refine .inr ⟨l', n, out.state, ?_, hok'⟩
        cases hsalt with
        | silent => exact hl
        | keyed => exact hl.derive p n out.key
    | receive message =>
      obtain ⟨salt, hrecv⟩ := hstep
      rcases hok.receive hl hrecv with ⟨-, rfl, -⟩ | ⟨-, -, rfl, -⟩ | ⟨-, msg, idx, r, n', hv1⟩
      · exact .inr ⟨l, n, v1, hl, hok⟩
      · exact .inl rfl
      · exact .inr ⟨_, n', r.state, hl.derive p n r.key, hv1.party⟩

/-- **Persistence.** A state reached from a new one by sends and successful receives comes back
from its bytes exactly when its parts fit their length fields, and from `Clone` always; no bytes
make `DeserializeState` read outside of them. -/
theorem spqr_persistence (p : Prims) (kem : Kem) {authKey : Bytes} {dir : Direction}
    {params : ChainParams} {minVersion : Version} {s₀ s : State} {es : List PartyEvent}
    (hdir : dir = directionA2B ∨ dir = directionB2A)
    (hnew : newStateWithMinVersion p authKey dir params minVersion = .ok s₀)
    (hrun : Run (PartyStep p kem) s₀ es s) (hversion : s.version = versionV1)
    (hv1 : s.v1 ≠ none) :
    (deserializeState s.serialize = .ok (some s) ↔
      (∀ vn, s.negotiation = some vn → vn.authKey.length < 2 ^ 32) ∧
        ∀ c, s.chain = some c → c.byteSize < 2 ^ 32) ∧
    s.clone = some s ∧ ∀ data, NoPanic (deserializeState data) := by
  have hsound : PartySound p s := by
    obtain ⟨v1, -, hok⟩ := newState_partyOk hdir hnew
    exact hrun.invariant (fun h hstep => h.step hstep)
      (.inr ⟨_, 1, v1, Ledger.start_sized authKey dir, hok⟩)
  rcases hsound with rfl | ⟨l, n, v1, hl, hok⟩
  · exact absurd rfl hv1
  · have hrest := hok.restorable hl
    refine ⟨⟨fun h => ?_, fun h => ?_⟩, hrest.clone, noPanic_deserializeState⟩
    · have hfits := fits_of_deserializeState h hok.state
      exact ⟨hfits.authKey, hfits.chain⟩
    · exact deserializeState_serialize hrest ⟨h.1, h.2⟩

end Reached

/-- The first state of the party that waits for a header. -/
def sampleWaiting (authKey : Bytes) : State where
  version := versionV1
  v1 := some (.noHeaderReceived { epoch := 1, auth := newAuthenticator toyPrims authKey 1 }
    { ptsNeeded := 48, points := Vector.replicate 16 ∅, isComplete := false })
  chain := none
  negotiation := some {
    authKey
    direction := directionB2A
    minVersion := versionDisabled
    chainParams := { MaxJump := 0, MaxOOO := 0 } }

theorem sampleWaiting_new {authKey : Bytes} (h : authKey.length ≠ 0) :
    newStateWithMinVersion toyPrims authKey directionB2A { MaxJump := 0, MaxOOO := 0 }
      versionDisabled = .ok (sampleWaiting authKey) := by
  rw [newStateWithMinVersion, if_neg h, if_neg (by decide), initV1StateForDirection,
    if_pos rfl, initV1StateB, newUnchunkedNoHeaderReceived, if_neg h]
  rfl

/-- After a send, the waiting party with a key of one byte. -/
theorem spqr_persistence_sample :
    let s := ((sampleWaiting [1]).send toyPrims toyKem fun _ => .ok .zero).1
    deserializeState s.serialize = .ok (some s) ∧ s.clone = some s := by
  intro s
  have hrun : Run (PartyStep toyPrims toyKem) (sampleWaiting [1]) [.send fun _ => .ok .zero] s :=
    .single rfl
  have hnew := sampleWaiting_new (show ([1] : Bytes).length ≠ 0 by decide)
  obtain ⟨hiff, hclone, -⟩ := spqr_persistence toyPrims toyKem (.inr rfl) hnew hrun rfl
    (Option.some_ne_none _)
  refine ⟨hiff.mpr ⟨fun vn hvn => ?_, fun c hc => ?_⟩, hclone⟩
  · cases hvn
    decide
  · cases hc

/-- A key whose length does not fit the length field is written with the length zero. -/
theorem spqr_persistence_long_key :
    ∃ authKey s, newStateWithMinVersion toyPrims authKey directionB2A { MaxJump := 0, MaxOOO := 0 }
        versionDisabled = .ok s ∧
      s.version = versionV1 ∧ s.v1 ≠ none ∧ deserializeState s.serialize ≠ .ok (some s) := by
  have hlen : (List.replicate (2 ^ 32) (0 : UInt8)).length = 2 ^ 32 := List.length_replicate
  refine ⟨List.replicate (2 ^ 32) 0, sampleWaiting _, sampleWaiting_new (by rw [hlen]; decide), rfl,
    nofun, fun h => ?_⟩
  have hfits := fits_of_deserializeState h rfl
  have hlt := hfits.authKey _ rfl
  exact absurd (hlt.trans_eq' hlen) (lt_irrefl _)

end SignalGo.Spqr
