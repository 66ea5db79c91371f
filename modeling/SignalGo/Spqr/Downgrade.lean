import SignalGo.Spqr.ChainEpochs
import SignalGo.Spqr.StatePersist

/-!
# Downgrades of the SPQR state

Which calls can disable a state, and what a disabled state still does. The negotiation data are
what a downgrade needs: they go away with the first version 1 message that is received, and a
minimum version of 1 in them forbids the downgrade before that.

A `Receive` that fails is not rolled back here. It may have stored a chunk in a decoder, moved
the authenticator on, or taken keys from the chain.

* `State.receiveInPlace`: `Receive` with the state it leaves behind. A failed call keeps the
  version, the negotiation data and which parts are there (`disturbed_receiveInPlace`).
* `Follows`: what one call leads to from a state that is not disabled.
* `spqr_downgrade_resistance`: a received version 1 message rules out every downgrade.
* `downgraded_calls`: a disabled state refuses every `Receive`.
-/

namespace SignalGo.Spqr

section InPlace

variable (p : Prims) (kem : Kem)

/-- `recvCt2` moves the authenticator on before it checks the tag. -/
def UnchunkedEkSentCt1Received.recvCt2InPlace (uc : UnchunkedEkSentCt1Received)
    (decoded : Bytes) : UnchunkedEkSentCt1Received :=
  if decoded.length ≠ mlkemCiphertext2Size + authenticatorMacSize then uc
  else
    match mlkemDecaps kem uc.dk uc.ct1 (decoded.take mlkemCiphertext2Size) with
    | .error _ => uc
    | .ok ss => { uc with auth := uc.auth.update p uc.epoch (deriveSckaKey p uc.epoch ss) }

/-- The state on which `recv` was called: its decoder holds the chunk, whatever comes of it. -/
def V1States.recvInPlace (v : V1States) (msg : V1Message) : V1States :=
  let store (kinds : List MessageType) (dec : PolyDecoder) :=
    (msg.chunkOf kinds).elim dec dec.addChunk
  if msg.epoch ≠ v.epoch then v
  else
    match v with
    | headerSent uc sendingEk dec => .headerSent uc sendingEk (store [messageTypeCt1] dec)
    | ekSentCt1Received uc dec =>
        match msg.chunkOf [messageTypeCt2], (store [messageTypeCt2] dec).decodedMessage with
        | some c, .ok (some decoded) =>
            .ekSentCt1Received (uc.recvCt2InPlace p kem decoded) (dec.addChunk c)
        | _, _ => .ekSentCt1Received uc (store [messageTypeCt2] dec)
    | noHeaderReceived uc dec => .noHeaderReceived uc (store [messageTypeHdr] dec)
    | ct1Sampled uc sendingCt1 dec =>
        .ct1Sampled uc sendingCt1 (store [messageTypeEk, messageTypeEkCt1Ack] dec)
    | ct1Acknowledged uc dec =>
        .ct1Acknowledged uc (store [messageTypeEk, messageTypeEkCt1Ack] dec)
    | _ => v

/-- What a version 1 message leaves of a state that refuses it. A chain made from the negotiation
data is not stored. -/
def State.receiveV1InPlace (s : State) (v1 : V1States) (message : Bytes) : State :=
  match deserializeV1Message message with
  | .error _ => s
  | .ok (msg, idx, _) =>
      let s := { s with v1 := some (v1.recvInPlace p kem msg) }
      match v1.recv p kem msg, s.chain with
      | .ok recv, some chain =>
          if msg.epoch = 0 then s
          else
            match addReceivedEpoch p chain recv.key with
            | .error _ => s
            | .ok chain => { s with chain := some (chain.recvKeyInPlace p (msg.epoch - 1) idx).1 }
      | _, _ => s

/-- What a message leaves of a state without handshake that refuses it. -/
def State.receiveLegacyInPlace (s : State) (message : Bytes) : State :=
  match s.chain, parseMessage message with
  | some chain, .ok msg =>
      if msg.epoch = 0 then s
      else { s with chain := some (chain.recvKeyInPlace p (msg.epoch - 1) msg.index).1 }
  | _, _ => s

/-- `Receive`: the state left behind, and the salt. The version is checked before anything is
touched. -/
def State.receiveInPlace (s : State) (message : Bytes) : State × Except (Fault Err) Bytes :=
  match s.receive p kem message, s.v1 with
  | .ok (s', salt), _ => (s', .ok salt)
  | .error f, none => (s.receiveLegacyInPlace p message, .error f)
  | .error f, some v1 =>
      if msgVersion message = some versionV1 then (s.receiveV1InPlace p kem v1 message, .error f)
      else (s, .error f)

end InPlace

/-- What a `Receive` that failed keeps of a state. -/
structure State.Disturbed (s s' : State) : Prop where
  version : s'.version = s.version
  negotiation : s'.negotiation = s.negotiation
  v1 : s'.v1.isSome = s.v1.isSome
  chain : s'.chain.isSome = s.chain.isSome

/-- One use of a state by its owner. -/
inductive OwnerEvent where
  | send (rnd : Rand)
  | receive (message : Bytes)
  | clone
  | reload

/-- `Send` and `Receive` work in place, also when they fail. A clone, or the state read back from
its bytes, takes the place of the state. -/
def OwnerStep (p : Prims) (kem : Kem) (s : State) (e : OwnerEvent) (s' : State) : Prop :=
  match e with
  | .send rnd => s' = (s.send p kem rnd).1
  | .receive message => s' = (s.receiveInPlace p kem message).1
  | .clone => s.clone = some s'
  | .reload => deserializeState s.serialize = .ok (some s')

/-! ## One call -/

/-- The handshake is present in a state of version 1. -/
structure State.Active (s : State) : Prop where
  version : s.version = versionV1
  v1 : s.v1.isSome

/-- What every call keeps that does not disable the state: the chain stays once the negotiation
is over, and negotiation data are only ever inherited. -/
structure Follows (s s' : State) : Prop where
  active : s'.Active
  chain : s.negotiation = none → s.chain.isSome → s'.chain.isSome
  minVersion : ∀ vn', s'.negotiation = some vn' →
    ∃ vn, s.negotiation = some vn ∧ vn'.minVersion = vn.minVersion

variable {p : Prims} {kem : Kem} {s s' : State}

theorem Follows.refl (h : s.Active) : Follows s s :=
  ⟨h, fun _ hc => hc, fun vn hvn => ⟨vn, hvn, rfl⟩⟩

theorem Follows.trans {s'' : State} (h : Follows s s') (h' : Follows s' s'') : Follows s s'' where
  active := h'.active
  chain hneg hc := by
    have hneg' : s'.negotiation = none := by
      refine Option.eq_none_iff_forall_ne_some.mpr fun vn' hvn' => ?_
      obtain ⟨vn, hvn, -⟩ := h.minVersion vn' hvn'
      rw [hneg] at hvn
      cases hvn
    exact h'.chain hneg' (h.chain hneg hc)
  minVersion vn'' hvn'' := by
    obtain ⟨vn', hvn', heq'⟩ := h'.minVersion vn'' hvn''
    obtain ⟨vn, hvn, heq⟩ := h.minVersion vn' hvn'
    exact ⟨vn, hvn, heq'.trans heq⟩

/-- Calls that keep version, negotiation data and the parts that are there. -/
theorem Follows.of_eq (h : s.Active) (hversion : s'.version = s.version) (hv1 : s'.v1.isSome)
    (hneg : s'.negotiation = s.negotiation) (hchain : s.chain.isSome → s'.chain.isSome) :
    Follows s s' where
  active := ⟨hversion.trans h.version, hv1⟩
  chain _ := hchain
  minVersion vn hvn := ⟨vn, hneg ▸ hvn, rfl⟩

theorem State.Disturbed.refl : s.Disturbed s := ⟨rfl, rfl, rfl, rfl⟩

theorem disturbed_receiveV1InPlace {v1 : V1States} (hv1 : s.v1 = some v1) (message : Bytes) :
    s.Disturbed (s.receiveV1InPlace p kem v1 message) := by
  have hv1' : true = s.v1.isSome := by rw [hv1]; rfl
  unfold State.receiveV1InPlace
  split
  · exact .refl
  · -- from here on the handshake is the one `recv` was called on
    simp only
    split
    · rename_i hchain
      split
      · exact ⟨rfl, rfl, hv1', rfl⟩
      · split
        · exact ⟨rfl, rfl, hv1', rfl⟩
        · exact ⟨rfl, rfl, hv1', by rw [show s.chain = _ from hchain]; rfl⟩
    · exact ⟨rfl, rfl, hv1', rfl⟩

theorem disturbed_receiveLegacyInPlace (message : Bytes) :
    s.Disturbed (s.receiveLegacyInPlace p message) := by
  unfold State.receiveLegacyInPlace
  split
  · rename_i hchain _
    split
    · exact .refl
    · exact ⟨rfl, rfl, rfl, by rw [hchain]; rfl⟩
  · exact .refl

/-- **A failed `Receive`** adds and removes no part of the state. -/
theorem disturbed_receiveInPlace {message : Bytes} {f : Fault Err}
    (h : s.receive p kem message = .error f) : s.Disturbed (s.receiveInPlace p kem message).1 := by
  rw [State.receiveInPlace, h]
  cases hv1 : s.v1 with
  | none => exact disturbed_receiveLegacyInPlace message
  | some v1 =>
    simp only
    split
    · exact disturbed_receiveV1InPlace hv1 message
    · exact .refl

theorem State.Active.disturbed (h : s.Active) (hd : s.Disturbed s') : Follows s s' :=
  .of_eq h hd.version (hd.v1.trans h.v1) hd.negotiation fun hc => hd.chain.trans hc

theorem State.Active.exists_v1 (h : s.Active) : ∃ v1, s.v1 = some v1 :=
  Option.isSome_iff_exists.mp h.v1

theorem State.Active.enabled (h : s.Active) : s.version ≠ versionDisabled := by
  rw [h.version]
  decide

theorem State.Active.sendOn (h : s.Active) (chain : Chain) (send : V1Send) :
    Follows s (s.sendOn p chain send).1 := by
  unfold State.sendOn
  split
  · exact .of_eq h rfl h.v1 rfl fun _ => rfl
  · split
    · exact .of_eq h rfl h.v1 rfl fun _ => rfl
    · exact .of_eq h rfl rfl rfl fun _ => rfl

theorem State.Active.sendV1 (h : s.Active) (send : V1Send) : Follows s (s.sendV1 p send).1 := by
  unfold State.sendV1
  split
  · exact .refl h
  · split
    · exact .refl h
    · exact .of_eq h rfl rfl rfl id
  · split
    · exact h.sendOn _ _
    · split
      · exact .of_eq h rfl h.v1 rfl fun _ => rfl
      · exact h.sendOn _ _

/-- `Send` disables no state, whether it fails or not. -/
theorem State.Active.send (h : s.Active) (rnd : Rand) : Follows s (s.send p kem rnd).1 := by
  obtain ⟨v1, hv1⟩ := h.exists_v1
  have hactive (v1' : V1States) : State.Active { s with v1 := some v1' } := ⟨h.version, rfl⟩
  rw [State.send, if_neg h.enabled, hv1]
  simp only
  split
  · exact .of_eq h rfl rfl rfl id
  · -- the handshake state that `v1.send` leaves behind is in place when the chain is asked
    rename_i v1' out _
    have hplaced : Follows s { s with v1 := some v1' } := .of_eq h rfl rfl rfl id
    exact hplaced.trans (hplaced.active.sendV1 out)

variable {message : Bytes}

theorem msgVersion_cases {version : Version} (h : msgVersion message = some version) :
    version = versionDisabled ∨ version = versionV1 := by
  unfold msgVersion at h
  split at h
  · exact .inl (Option.some.inj h).symm
  · split at h
    · cases h
      assumption
    · cases h

variable {salt : Bytes}

/-- A version 1 message that is received ends the negotiation, with handshake and chain there. -/
theorem receiveV1_parts {v1 : V1States} (hrecv : s.receiveV1 p kem v1 message = .ok (s', salt)) :
    s'.version = s.version ∧ s'.v1.isSome ∧ s'.chain.isSome ∧ s'.negotiation = none := by
  obtain ⟨⟨msg, idx, pos⟩, -, hrecv⟩ := bind_eq_ok.mp hrecv
  obtain ⟨recv, -, hrecv⟩ := bind_eq_ok.mp hrecv
  simp only at hrecv
  split at hrecv
  · cases hrecv
  · obtain ⟨chain, -, hrecv⟩ := bind_eq_ok.mp hrecv
    obtain ⟨chain', -, hrecv⟩ := bind_eq_ok.mp hrecv
    obtain ⟨⟨key, chain''⟩, -, hrecv⟩ := bind_eq_ok.mp hrecv
    cases hrecv
    exact ⟨rfl, rfl, rfl, rfl⟩

/-- What a `Receive` that succeeds does: nothing for an unknown version, the downgrade for version
0 where the negotiation allows it, and the end of the negotiation for version 1. -/
theorem State.Active.receive (h : s.Active) (hrecv : s.receive p kem message = .ok (s', salt)) :
    (msgVersion message = none ∧ s' = s) ∨
    (msgVersion message = some versionDisabled ∧ s' = .disabled ∧
      ∃ vn, s.negotiation = some vn ∧ ¬ versionDisabled < vn.minVersion) ∨
    (msgVersion message = some versionV1 ∧
      s'.Active ∧ s'.chain.isSome ∧ s'.negotiation = none) := by
  obtain ⟨v1, hv1⟩ := h.exists_v1
  rw [State.receive, hv1] at hrecv
  simp only at hrecv
  cases hm : msgVersion message with
  | none =>
    rw [hm] at hrecv
    cases hrecv
    exact .inl ⟨rfl, rfl⟩
  | some version =>
    rw [hm] at hrecv
    simp only [State.receiveVersion, if_neg h.enabled] at hrecv
    rcases msgVersion_cases hm with rfl | rfl
    · rw [if_pos (by rw [h.version]; decide)] at hrecv
      cases hneg : s.negotiation with
      | none =>
        rw [hneg] at hrecv
        cases hrecv
      | some vn =>
        rw [hneg] at hrecv
        simp only at hrecv
        split at hrecv
        · cases hrecv
        · rw [if_pos trivial] at hrecv
          cases hrecv
          exact .inr (.inl ⟨rfl, rfl, vn, rfl, ‹_›⟩)
    · rw [if_neg (by rw [h.version]; decide), if_neg (by decide)] at hrecv
      obtain ⟨hversion, hparts⟩ := receiveV1_parts hrecv
      exact .inr (.inr ⟨rfl, ⟨hversion.trans h.version, hparts.1⟩, hparts.2⟩)

variable {data : Bytes}

/-- Chain bytes that are read back and not empty are a chain. -/
theorem isSome_of_deserializeChain {c : Option Chain} (hdata : data.length ≠ 0)
    (h : deserializeChain data = .ok c) : c.isSome := by
  rw [deserializeChain, if_neg hdata] at h
  obtain ⟨c', -, h⟩ := bind_eq_ok.mp h
  cases h
  rfl

theorem isSome_of_mapM {α β : Type} {f : α → Option β} {o : Option α} {o' : Option β}
    (h : o.mapM f = some o') : o'.isSome = o.isSome := by
  cases o with
  | none =>
    cases h
    rfl
  | some a =>
    simp only [Option.mapM_some, Option.map_eq_map, Option.map_eq_some_iff] at h
    obtain ⟨b, -, rfl⟩ := h
    rfl

/-- The chain of a clone is there when the chain it was made from is. -/
theorem isSome_of_cloneChain {c : Chain} {c' : Option Chain} (h : cloneChain c = some c') :
    c'.isSome := by
  unfold cloneChain at h
  cases hc : deserializeChain (serializeChain c) with
  | error f =>
    rw [hc] at h
    cases h
  | ok r =>
    rw [hc] at h
    cases h
    exact isSome_of_deserializeChain (length_serializeChain_ne c) hc

theorem State.Active.clone (h : s.Active) (hclone : s.clone = some s') : Follows s s' := by
  obtain ⟨v1', hv1, hclone⟩ := Option.bind_eq_some_iff.mp hclone
  obtain ⟨chain, hchain, hclone⟩ := Option.bind_eq_some_iff.mp hclone
  cases hclone
  refine .of_eq h rfl ((isSome_of_mapM hv1).trans h.v1) rfl fun hc => ?_
  obtain ⟨c, hc⟩ := Option.isSome_iff_exists.mp hc
  rw [hc, Option.mapM_some, Option.map_eq_map, Option.map_eq_some_iff] at hchain
  obtain ⟨c', hc', rfl⟩ := hchain
  exact isSome_of_cloneChain hc'

/-! ## The state read back from its bytes -/

variable {pos' : Nat}

/-- The length that is read where bytes were appended is theirs up to the width of the field. -/
theorem length_readBytes_append {b b' : Bytes} {pos : Nat} (pre post : Bytes)
    (hdata : data = pre ++ appendBytes b ++ post) (hpos : pos = pre.length)
    (h : readBytes data pos = .ok (b', pos')) : b'.length = b.length % 2 ^ 32 := by
  have hcount : uint32At (ε := Err) data pos = .ok (UInt32.ofNat b.length) :=
    uint32At_eq pre (b ++ post) _ (by rw [hdata]; simp [appendBytes]) hpos
  obtain ⟨⟨n, hn, hlen⟩, -⟩ := readBytes_eq_ok h
  rw [hcount] at hn
  rw [hlen, ← Except.ok.inj hn, UInt32.toNat_ofNat']

theorem minVersion_of_readNegotiation {pos : Nat} {vn : VersionNegotiation}
    (h : readNegotiation data pos = .ok (vn, pos')) :
    byteAt (ε := Err) data pos = .ok vn.minVersion := by
  obtain ⟨_, pos1, hneed, h1⟩ := Decoder.bind_apply_eq_ok.mp h
  obtain ⟨-, rfl⟩ := Decoder.need_eq_ok.mp hneed
  obtain ⟨minVersion, pos2, hmin, h2⟩ := Decoder.bind_apply_eq_ok.mp h1
  obtain ⟨hbyte, -⟩ := Decoder.u8_eq_ok.mp hmin
  -- whatever the fields behind it hold, the minimum version is the one that was read
  refine (?_ : Returns _ fun vn => byteAt (ε := Err) data pos1 = .ok vn.minVersion) _ _ _ _ h2
  exact .skip fun _ => .ite (fun _ => .fail _) fun _ => .ite (fun _ => .fail _) fun _ =>
    .skip fun _ => .skip fun _ => .skip fun _ => .ite (fun _ => .fail _) fun _ => .pure hbyte

/-- How a state of the second format came out of its bytes: the readers that ran, and where the
last of them stopped. -/
structure ReadBack (data : Bytes) (s : State) (flags : UInt8) (pos : Nat) (v1Bytes : Bytes)
    (pos' : Nat) : Prop where
  version : s.version = versionV1
  v1 : s.v1.isSome
  readFlags : byteAt (ε := Err) data 2 = .ok flags
  negotiation : readOptNegotiation flags data 3 = .ok (s.negotiation, pos)
  readV1 : readBytes data pos = .ok (v1Bytes, pos')
  chain : readOptChain flags data pos' = .ok (s.chain, data.length)

/-- The parts that the decoder of version 2 has read. -/
theorem readBack_of_deserializeState {s : State}
    (htag : byteAt (ε := Err) data 0 = .ok stateSerializeVersionV2)
    (h : deserializeState data = .ok (some s)) :
    ∃ flags pos v1Bytes pos', ReadBack data s flags pos v1Bytes pos' := by
  rw [deserializeState] at h
  split at h
  · cases h
  obtain ⟨s', hrun, h⟩ := bind_eq_ok.mp h
  cases h
  obtain ⟨tag, _, htag', h0⟩ := Decoder.bind_apply_eq_ok.mp (Decoder.run_eq_ok.mp hrun)
  obtain ⟨hbyte, rfl⟩ := Decoder.u8_eq_ok.mp htag'
  obtain rfl : stateSerializeVersionV2 = tag := Except.ok.inj (htag.symm.trans hbyte)
  rw [if_neg (by decide), if_pos rfl] at h0
  obtain ⟨_, _, hneed, h1⟩ := Decoder.bind_apply_eq_ok.mp h0
  obtain ⟨-, rfl⟩ := Decoder.need_eq_ok.mp hneed
  obtain ⟨version, _, hver, h2⟩ := Decoder.bind_apply_eq_ok.mp h1
  obtain ⟨-, rfl⟩ := Decoder.u8_eq_ok.mp hver
  obtain ⟨flags, _, hflags, h3⟩ := Decoder.bind_apply_eq_ok.mp h2
  obtain ⟨hflags', rfl⟩ := Decoder.u8_eq_ok.mp hflags
  split at h3
  · cases h3
  · rename_i hversion
    obtain ⟨negotiation, pos, hneg, h4⟩ := Decoder.bind_apply_eq_ok.mp h3
    obtain ⟨v1Bytes, pos1, hv1, h5⟩ := Decoder.bind_apply_eq_ok.mp h4
    obtain ⟨v1, pos2, hlift, h6⟩ := Decoder.bind_apply_eq_ok.mp h5
    obtain ⟨chain, pos3, hchain, h7⟩ := Decoder.bind_apply_eq_ok.mp h6
    obtain ⟨_, -, hlift⟩ := bind_eq_ok.mp hlift
    cases hlift
    cases h7
    exact ⟨flags, pos, v1Bytes, pos1, not_not.mp hversion, rfl, hflags', hneg, hv1, hchain⟩

/-- The bytes of an active state. -/
theorem State.Active.serialize_eq (h : s.Active) {v1 : V1States} (hv1 : s.v1 = some v1) :
    s.serialize = [stateSerializeVersionV2, versionV1, stateFlags s]
      ++ (s.negotiation.map appendNegotiation).getD []
      ++ appendBytes (serializeV1States v1)
      ++ (s.chain.map fun c => appendBytes (serializeChain c)).getD [] := by
  rw [State.serialize, if_neg h.enabled, hv1, h.version]

/-- A state that is read back has the negotiation data of the state that was written, as far as
the minimum version goes. -/
theorem minVersion_of_reload {vn' : VersionNegotiation} (post : Bytes)
    (hdata : data = [stateSerializeVersionV2, versionV1, stateFlags s]
      ++ (s.negotiation.map appendNegotiation).getD [] ++ post)
    (h : readOptNegotiation (stateFlags s) data 3 = .ok (some vn', pos')) :
    ∃ vn, s.negotiation = some vn ∧ vn'.minVersion = vn.minVersion := by
  unfold readOptNegotiation at h
  split at h
  · rename_i hflag
    obtain ⟨vn, hvn⟩ := Option.isSome_iff_exists.mp ((stateFlags_negotiation s).mp hflag)
    obtain ⟨vn1, pos1, hread, h⟩ := Decoder.bind_apply_eq_ok.mp h
    cases h
    have hbyte : byteAt (ε := Err) data 3 = .ok vn.minVersion := by
      rw [hdata, hvn]
      rfl
    have hmin := minVersion_of_readNegotiation hread
    rw [hbyte] at hmin
    exact ⟨vn, hvn, (Except.ok.inj hmin).symm⟩
  · cases h

/-- Without negotiation data the chain comes back. The reader stops at the end of the data, and a
length field that was cut would have to be made up for by a chain longer than any field says. -/
theorem isSome_chain_of_reload {v1Bytes chainBytes v1Bytes' : Bytes} {chain : Option Chain}
    {flags : UInt8} (hflag : flags &&& 0x02 ≠ 0) (hne : chainBytes.length ≠ 0)
    (hdata : data = [stateSerializeVersionV2, versionV1, flags] ++ appendBytes v1Bytes
      ++ appendBytes chainBytes) (hv1 : readBytes data 3 = .ok (v1Bytes', pos'))
    (hchain : readOptChain flags data pos' = .ok (chain, data.length)) : chain.isSome := by
  rw [readOptChain, if_pos hflag] at hchain
  obtain ⟨chainBytes', pos1, hread, hlift⟩ := Decoder.bind_apply_eq_ok.mp hchain
  obtain ⟨c, hc, hlift⟩ := bind_eq_ok.mp hlift
  cases hlift
  refine isSome_of_deserializeChain ?_ hc
  have hlen : data.length = 3 + (4 + v1Bytes.length) + (4 + chainBytes.length) := by
    rw [hdata]
    simp only [List.length_append, length_appendBytes, List.length_cons, List.length_nil]
  have hv1len := length_readBytes_append _ _ hdata rfl hv1
  have hpos := (readBytes_eq_ok hv1).2
  have hend := (readBytes_eq_ok hread).2
  have hshort := length_readBytes hread
  omega

/-- A stored active state is active when loaded, with its chain and minimum. -/
theorem State.Active.reload (h : s.Active)
    (hread : deserializeState s.serialize = .ok (some s')) : Follows s s' := by
  obtain ⟨v1, hv1⟩ := h.exists_v1
  have hdata := h.serialize_eq hv1
  have htag : byteAt (ε := Err) s.serialize 0 = .ok stateSerializeVersionV2 := by
    rw [hdata]
    rfl
  obtain ⟨flags, pos, v1Bytes, pos', hback⟩ := readBack_of_deserializeState htag hread
  have hflags : flags = stateFlags s := by
    have hbyte : byteAt (ε := Err) s.serialize 2 = .ok (stateFlags s) := by
      rw [hdata]
      rfl
    rw [hback.readFlags] at hbyte
    exact Except.ok.inj hbyte
  subst hflags
  -- what was read has the parts that were written, as the flags of both are the same
  refine ⟨⟨hback.version, hback.v1⟩, fun hneg hc => ?_, fun vn' hvn' => ?_⟩
  · -- no negotiation data are written, and none are read
    obtain ⟨c, hc⟩ := Option.isSome_iff_exists.mp hc
    have hnone := hback.negotiation
    rw [readOptNegotiation, if_neg (by rw [stateFlags_negotiation, hneg]; decide)] at hnone
    obtain ⟨-, rfl⟩ := Prod.mk.inj (Except.ok.inj hnone)
    have hplain : s.serialize = [stateSerializeVersionV2, versionV1, stateFlags s]
        ++ appendBytes (serializeV1States v1) ++ appendBytes (serializeChain c) := by
      rw [hdata, hneg, hc]
      rfl
    exact isSome_chain_of_reload ((stateFlags_chain s).mpr (by rw [hc]; rfl))
      (length_serializeChain_ne c) hplain hback.readV1 hback.chain
  · exact minVersion_of_reload _ (hdata.trans (List.append_assoc _ _ _))
      (hvn' ▸ hback.negotiation)

/-! ## Runs -/

variable {e : OwnerEvent}

/-- **One call.** It leads on, or it is the downgrade that the negotiation data allow. -/
theorem State.Active.step (h : s.Active) (hstep : OwnerStep p kem s e s') :
    Follows s s' ∨
      s' = .disabled ∧ ∃ vn, s.negotiation = some vn ∧ ¬ versionDisabled < vn.minVersion := by
  cases e with
  | send rnd =>
    rw [show s' = _ from hstep]
    exact .inl (h.send rnd)
  | receive message =>
    rw [show s' = _ from hstep]
    cases hrecv : s.receive p kem message with
    | ok r =>
      rw [State.receiveInPlace, hrecv]
      rcases h.receive hrecv with ⟨-, hsame⟩ | ⟨-, hdis⟩ | ⟨-, hactive, hchain, hneg⟩
      · exact .inl (by rw [hsame]; exact .refl h)
      · exact .inr hdis
      · refine .inl ⟨hactive, fun _ _ => hchain, fun vn' hvn' => ?_⟩
        rw [hneg] at hvn'
        cases hvn'
    | error f => exact .inl (h.disturbed (disturbed_receiveInPlace hrecv))
  | clone => exact .inl (h.clone hstep)
  | reload => exact .inl (h.reload hstep)

/-- A disabled state stays disabled: nothing of it is left to change. -/
theorem disabled_step (hstep : OwnerStep p kem .disabled e s') :
    s' = .disabled := by
  cases e with
  | send rnd => exact hstep
  | receive message => exact hstep
  | clone =>
    cases hstep
    rfl
  | reload => cases hstep

/-- The state behind a received version 1 message. -/
structure State.Locked (s : State) : Prop where
  active : s.Active
  chain : s.chain.isSome
  negotiation : s.negotiation = none

theorem State.Locked.step (h : s.Locked) (hstep : OwnerStep p kem s e s') :
    s'.Locked := by
  rcases h.active.step hstep with hf | ⟨-, vn, hvn, -⟩
  · refine ⟨hf.active, hf.chain h.negotiation h.chain, ?_⟩
    refine Option.eq_none_iff_forall_ne_some.mpr fun vn' hvn' => ?_
    obtain ⟨vn, hvn, -⟩ := hf.minVersion vn' hvn'
    rw [h.negotiation] at hvn
    cases hvn
  · rw [h.negotiation] at hvn
    cases hvn

/-- Version 0 is below the version of a locked state, and no negotiation is left to allow it. -/
theorem State.Locked.refuses (h : s.Locked) (hm : msgVersion message = some versionDisabled) :
    s.receive p kem message = .error (.err (.sentinel .spqrVersionMismatch)) := by
  obtain ⟨v1, hv1⟩ := h.active.exists_v1
  rw [State.receive, hv1, hm]
  simp only [State.receiveVersion, h.negotiation, h.active.version]
  rfl

/-- Before the first version 1 message a minimum version of 1 does the same. -/
structure State.Guarded (s : State) : Prop where
  active : s.Active
  minVersion : ∀ vn, s.negotiation = some vn → vn.minVersion = versionV1

theorem State.Guarded.step (h : s.Guarded) (hstep : OwnerStep p kem s e s') :
    s'.Guarded := by
  rcases h.active.step hstep with hf | ⟨-, vn, hvn, hmin⟩
  · refine ⟨hf.active, fun vn' hvn' => ?_⟩
    obtain ⟨vn, hvn, heq⟩ := hf.minVersion vn' hvn'
    exact heq.trans (h.minVersion vn hvn)
  · rw [h.minVersion vn hvn] at hmin
    exact absurd (by decide) hmin

theorem active_or_disabled_step (h : s.Active ∨ s = .disabled) (hstep : OwnerStep p kem s e s') :
    s'.Active ∨ s' = .disabled := by
  rcases h with h | rfl
  · rcases h.step hstep with hf | ⟨hdis, -⟩
    · exact .inl hf.active
    · exact .inr hdis
  · exact .inr (disabled_step hstep)

theorem newStateWithMinVersion_active {authKey : Bytes} {dir : Direction} {params : ChainParams}
    {minVersion : Version} (h : newStateWithMinVersion p authKey dir params minVersion = .ok s) :
    s.Active ∧ ∀ vn, s.negotiation = some vn → vn.minVersion = minVersion := by
  unfold newStateWithMinVersion at h
  split at h
  · cases h
  · split at h
    · cases h
    · obtain ⟨v1, -, h⟩ := bind_eq_ok.mp h
      cases h
      refine ⟨⟨rfl, rfl⟩, fun vn hvn => ?_⟩
      cases hvn
      rfl

/-- **Downgrade resistance.** Once a version 1 message was received, whatever happened before and
happens afterwards, the state keeps version 1, handshake and chain, and refuses messages without
a version or with version 0. With the minimum version 1 no state is ever disabled. -/
theorem spqr_downgrade_resistance (p : Prims) (kem : Kem) {authKey : Bytes} {dir : Direction}
    {params : ChainParams} {minVersion : Version} {s₀ : State}
    (hnew : newStateWithMinVersion p authKey dir params minVersion = .ok s₀) :
    (∀ es s₁ message s₂ salt es' s₃, Run (OwnerStep p kem) s₀ es s₁ →
      message.head? = some versionV1 → s₁.receive p kem message = .ok (s₂, salt) →
      Run (OwnerStep p kem) s₂ es' s₃ →
        s₃.version = versionV1 ∧ s₃.v1.isSome ∧ s₃.chain.isSome ∧
        ∀ later : Bytes, later = [] ∨ later.head? = some versionDisabled →
          s₃.receive p kem later = .error (.err (.sentinel .spqrVersionMismatch))) ∧
    (minVersion = versionV1 → ∀ es s, Run (OwnerStep p kem) s₀ es s →
      s.version = versionV1 ∧ s.v1.isSome) := by
  obtain ⟨hactive, hmin⟩ := newStateWithMinVersion_active hnew
  refine ⟨fun es s₁ message s₂ salt es' s₃ hrun hv1 hrecv hrun' => ?_, fun hV1 es s hrun => ?_⟩
  · have hm : msgVersion message = some versionV1 := by
      obtain ⟨rest, rfl⟩ := List.head?_eq_some_iff.mp hv1
      rfl
    have hlocked : s₂.Locked := by
      have h₁ : s₁.Active ∨ s₁ = .disabled :=
        hrun.invariant (fun h hstep => active_or_disabled_step h hstep) (.inl hactive)
      rcases h₁ with h₁ | rfl
      · rcases h₁.receive hrecv with ⟨hother, -⟩ | ⟨hother, -⟩ | ⟨-, h₂, hchain, hneg⟩
        · rw [hm] at hother
          cases hother
        · rw [hm] at hother
          cases hother
        · exact ⟨h₂, hchain, hneg⟩
      · -- a disabled state receives nothing
        cases hrecv
    have h₃ : s₃.Locked := hrun'.invariant (fun h hstep => h.step hstep) hlocked
    refine ⟨h₃.active.version, h₃.active.v1, h₃.chain, fun later hlater => h₃.refuses ?_⟩
    rcases hlater with rfl | hlater
    · rfl
    · obtain ⟨rest, rfl⟩ := List.head?_eq_some_iff.mp hlater
      rfl
  · have hguarded : s.Guarded := hrun.invariant (fun h hstep => h.step hstep)
      ⟨hactive, fun vn hvn => (hmin vn hvn).trans hV1⟩
    exact ⟨hguarded.active.version, hguarded.active.v1⟩

/-- The waiting party receives a version 1 message without a payload. An empty message is refused
afterwards, and so is one of version 0 in the state that is left. -/
theorem spqr_downgrade_resistance_sample :
    ∃ s, (sampleWaiting [1]).receive toyPrims toyKem [1, 1, 0, 0] = .ok (s, []) ∧
      (s.receiveInPlace toyPrims toyKem []).1.receive toyPrims toyKem [0]
        = .error (.err (.sentinel .spqrVersionMismatch)) := by
  have hrecv : ∃ s, (sampleWaiting [1]).receive toyPrims toyKem [1, 1, 0, 0] = .ok (s, []) :=
    ⟨_, rfl⟩
  obtain ⟨s, hrecv⟩ := hrecv
  obtain ⟨hlocked, -⟩ := spqr_downgrade_resistance toyPrims toyKem
    (sampleWaiting_new (show ([1] : Bytes).length ≠ 0 by decide))
  obtain ⟨-, -, -, hrefuse⟩ := hlocked [] _ _ s [] [.receive []] _ .nil rfl hrecv
    (.single rfl)
  exact ⟨s, hrecv, hrefuse [0] (.inr rfl)⟩

/-! ## A disabled state -/

/-- The call returns nothing and no error. -/
def Quiet (p : Prims) (kem : Kem) (s : State) : PartyEvent → Prop
  | .send rnd => (s.send p kem rnd).2 = .ok ([], [])
  | .receive message => ∃ s', s.receive p kem message = .ok (s', [])

def PartyEvent.isSend : PartyEvent → Bool
  | .send _ => true
  | .receive _ => false

def PartyEvent.toOwner : PartyEvent → OwnerEvent
  | .send rnd => .send rnd
  | .receive message => .receive message

theorem disabled_receive (message : Bytes) : State.disabled.receive p kem message
    = .error (.err (.sentinel .spqrChainNotAvailable)) := rfl

theorem quiet_disabled (e : PartyEvent) : Quiet p kem .disabled e ↔ e.isSend := by
  cases e with
  | send rnd => exact iff_of_true rfl rfl
  | receive message =>
    refine iff_of_false (fun h => ?_) Bool.false_ne_true
    obtain ⟨s', h⟩ := h
    rw [disabled_receive] at h
    cases h

/-- The steps of `Send` and `Receive` alone. -/
def CallStep (p : Prims) (kem : Kem) (s : State) (e : PartyEvent) (s' : State) : Prop :=
  OwnerStep p kem s e.toOwner s'

theorem disabled_run {es : List PartyEvent} (h : Run (CallStep p kem) .disabled es s) :
    s = .disabled :=
  h.invariant (I := fun t => t = .disabled) (fun ht hstep => disabled_step (ht ▸ hstep)) rfl

theorem exists_disabled_run (es : List PartyEvent) :
    Run (CallStep p kem) .disabled es .disabled := by
  induction es using List.reverseRecOn with
  | nil => exact .nil
  | append_singleton es e ih =>
    refine ih.snoc ?_
    cases e <;> exact (rfl : State.disabled = _)

theorem version_of_receiveLegacy (h : s.receiveLegacy p message = .ok (s', salt)) :
    s'.version = s.version := by
  unfold State.receiveLegacy at h
  split at h
  · cases h
  · split at h
    · cases h
      rfl
    · split at h
      · split at h
        · cases h
          rfl
        · cases h
      · split at h
        · cases h
          rfl
        · split at h
          · cases h
          · split at h
            · cases h
              rfl
            · obtain ⟨⟨key, chain⟩, -, h⟩ := bind_eq_ok.mp h
              cases h
              rfl

/-- Only the downgrade sets the version to 0. -/
theorem disabled_of_receive (hrecv : s.receive p kem message = .ok (s', salt))
    (hbefore : s.version ≠ versionDisabled) (hafter : s'.version = versionDisabled) :
    s' = .disabled := by
  cases hv1 : s.v1 with
  | none =>
    have hlegacy : s.receiveLegacy p message = .ok (s', salt) := by
      rw [State.receive, hv1] at hrecv
      exact hrecv
    exact absurd ((version_of_receiveLegacy hlegacy).symm.trans hafter) hbefore
  | some v1 =>
    rw [State.receive, hv1] at hrecv
    simp only at hrecv
    split at hrecv
    · cases hrecv
      exact absurd hafter hbefore
    · simp only [State.receiveVersion, if_neg hbefore] at hrecv
      split at hrecv
      · split at hrecv
        · cases hrecv
        · split at hrecv
          · cases hrecv
          · split at hrecv
            · cases hrecv
              rfl
            · exact absurd ((receiveV1_parts hrecv).1.symm.trans hafter) hbefore
      · split at hrecv
        · cases hrecv
          exact absurd hafter hbefore
        · exact absurd ((receiveV1_parts hrecv).1.symm.trans hafter) hbefore

/-- **A downgraded state**: the later calls are quiet, one after the other, exactly when all of
them are sends. Without a handshake `Receive` takes the state for a legacy one, and asks for the
chain that the downgrade has thrown away. -/
theorem downgraded_calls (p : Prims) (kem : Kem) {s₀ s : State} {message salt : Bytes}
    (hrecv : s₀.receive p kem message = .ok (s, salt)) (hbefore : s₀.version ≠ versionDisabled)
    (hafter : s.version = versionDisabled) (calls : List PartyEvent) :
    (∀ done e rest s', calls = done ++ e :: rest → Run (CallStep p kem) s done s' →
      Quiet p kem s' e) ↔
    ∀ e ∈ calls, e.isSend := by
  cases disabled_of_receive hrecv hbefore hafter
  refine ⟨fun h e he => ?_, fun h done e rest s' hcalls hrun => ?_⟩
  · obtain ⟨done, rest, hcalls⟩ := List.append_of_mem he
    exact (quiet_disabled e).mp (h done e rest _ hcalls (exists_disabled_run done))
  · rw [disabled_run hrun, quiet_disabled]
    exact h e (hcalls ▸ List.mem_append_right done List.mem_cons_self)

/-- The waiting party is downgraded by an empty message, and sends on. -/
theorem downgraded_calls_sends :
    (sampleWaiting [1]).receive toyPrims toyKem [] = .ok (.disabled, []) ∧
      Quiet toyPrims toyKem .disabled (.send fun _ => .ok .zero) := by
  have hrecv : (sampleWaiting [1]).receive toyPrims toyKem [] = .ok (.disabled, []) := rfl
  have hiff := downgraded_calls toyPrims toyKem hrecv (by decide) rfl [.send fun _ => .ok .zero]
  refine ⟨hrecv, hiff.mpr (fun e he => ?_) [] _ [] _ rfl .nil⟩
  cases List.mem_singleton.mp he
  rfl

/-- The next message of the same peer is an error. -/
theorem downgraded_calls_receive :
    ∃ s₀ s, newState toyPrims [1] directionB2A { MaxJump := 0, MaxOOO := 0 } = .ok s₀ ∧
      s₀.version = versionV1 ∧ s₀.receive toyPrims toyKem [] = .ok (s, []) ∧
      s.version = versionDisabled ∧
      s.receive toyPrims toyKem [] = .error (.err (.sentinel .spqrChainNotAvailable)) :=
  ⟨sampleWaiting [1], .disabled, sampleWaiting_new (by decide), rfl, rfl, rfl, rfl⟩

end SignalGo.Spqr
