import SignalGo.Spqr.Transitions

/-!
# Restoring the handshake state

A handshake state whose fields have their lengths comes back from its bytes as it was, and
reading foreign bytes ends in a value or an error.
-/

namespace SignalGo.Spqr

/-! ## Byte fields -/

@[simp] theorem length_appendBytes (b : Bytes) : (appendBytes b).length = 4 + b.length := by
  simp only [appendBytes, List.length_append, length_putUint32]

variable {b : Bytes}

theorem decodable_readBytes (h : b.length < 2 ^ 32) :
    Decodable readBytes (appendBytes b) b := by
  refine .need (by simp) (.bind (.u32 _) ?_)
  rw [toNat_ofNat_lt h]
  exact .need le_rfl (.bytes rfl)

theorem bounded_readBytes : Bounded 0 readBytes 0 :=
  (Bounded.need _ _).bind fun _ => .bind (.u32 (k := 0)) fun _ =>
    .bind (.need _ _) fun _ => Bounded.bytes (k := 0) _

/-- What `readBytes` returns is as long as its length field says, and the position moves behind
it. -/
theorem readBytes_eq_ok {data : Bytes} {pos pos' : Nat} (h : readBytes data pos = .ok (b, pos')) :
    (∃ n : UInt32, uint32At (ε := Err) data pos = .ok n ∧ b.length = n.toNat) ∧
      pos' = pos + 4 + b.length := by
  obtain ⟨_, pos1, hneed, h1⟩ := Decoder.bind_apply_eq_ok.mp h
  obtain ⟨-, rfl⟩ := Decoder.need_eq_ok.mp hneed
  obtain ⟨n, pos2, hn, h2⟩ := Decoder.bind_apply_eq_ok.mp h1
  obtain ⟨hlength, rfl⟩ := Decoder.u32_eq_ok.mp hn
  obtain ⟨_, pos3, hneed', h3⟩ := Decoder.bind_apply_eq_ok.mp h2
  obtain ⟨-, rfl⟩ := Decoder.need_eq_ok.mp hneed'
  obtain ⟨hslice, rfl⟩ := Decoder.bytes_eq_ok.mp h3
  have hlen : b.length = n.toNat := by
    rw [length_of_slice hslice, Nat.add_sub_cancel_left]
  exact ⟨⟨n, hlength, hlen⟩, by rw [hlen]⟩

theorem length_readBytes {data : Bytes} {pos pos' : Nat} (h : readBytes data pos = .ok (b, pos')) :
    b.length < 2 ^ 32 := by
  obtain ⟨⟨n, -, hlen⟩, -⟩ := readBytes_eq_ok h
  rw [hlen]
  exact n.toNat_lt

/-! ## The parts of the unchunked states -/

/-- A byte field of a fixed length. -/
theorem decodable_array {n : Nat} (a : ByteArr n) (h : n < 2 ^ 32) :
    Decodable readBytes (appendBytes a.toBytes) a.toBytes :=
  decodable_readBytes (by rwa [ByteArr.length_toBytes])

theorem decodable_authenticator (a : Authenticator) :
    Decodable readAuthenticator (appendAuthenticator a) a := by
  refine (decodable_array a.rootKey (by decide)).bind
    ((decodable_array a.macKey (by decide)).last (.guard (by simp) ?_))
  rw [ByteArr.ofBytes_toBytes, ByteArr.ofBytes_toBytes]
  exact .pure a

theorem decodable_encapsulationState (st : MlkemEncapsulationState) :
    Decodable readEncapsulationState (appendEncapsulationState st) st := by
  rw [appendEncapsulationState, List.append_assoc]
  refine (decodable_array st.seed (by decide)).bind ((decodable_array st.rho (by decide)).bind
    ((decodable_array st.pkHash (by decide)).last (.guard (by simp) ?_)))
  rw [ByteArr.ofBytes_toBytes, ByteArr.ofBytes_toBytes, ByteArr.ofBytes_toBytes]
  exact .pure st

theorem decodable_unchunked (epoch : UInt64) (a : Authenticator) :
    Decodable readUnchunked (appendUnchunked epoch a) (epoch, a) :=
  .need (by simp [appendUnchunked]) ((Decodable.u64 epoch).bind
    ((decodable_authenticator a).ret fun auth => (epoch, auth)))

/-! ## The unchunked states -/

variable {α : Type}

theorem deserializeUnchunkedPlain_append (make : UInt64 → Authenticator → α) (epoch : UInt64)
    (a : Authenticator) :
    deserializeUnchunkedPlain make (appendUnchunked epoch a) = .ok (make epoch a) :=
  ((decodable_unchunked epoch a).ret fun head => make head.1 head.2).run _

theorem deserializeUnchunkedHeaderSent_serialize {uc : UnchunkedHeaderSent}
    (hek : uc.ek.length = mlkemEncapsulationKeySize)
    (hdk : uc.dk.length = mlkemDecapsulationKeySize) :
    deserializeUnchunkedHeaderSent (serializeUnchunkedHeaderSent uc) = .ok uc := by
  refine Decodable.run ?_ _
  rw [serializeUnchunkedHeaderSent, List.append_assoc]
  exact (decodable_unchunked uc.epoch uc.auth).bind
    ((decodable_readBytes (by rw [hek]; decide)).bind
      ((decodable_readBytes (by rw [hdk]; decide)).last (.guard (by simp [hek, hdk]) (.pure uc))))

theorem deserializeUnchunkedEkSent_serialize {uc : UnchunkedEkSent}
    (hdk : uc.dk.length = mlkemDecapsulationKeySize) :
    deserializeUnchunkedEkSent (serializeUnchunkedEkSent uc) = .ok uc :=
  Decodable.run ((decodable_unchunked uc.epoch uc.auth).bind
    ((decodable_readBytes (by rw [hdk]; decide)).last (.guard (by simp [hdk]) (.pure uc)))) _

theorem deserializeUnchunkedEkSentCt1Received_serialize {uc : UnchunkedEkSentCt1Received}
    (hdk : uc.dk.length = mlkemDecapsulationKeySize)
    (hct1 : uc.ct1.length = mlkemCiphertext1Size) :
    deserializeUnchunkedEkSentCt1Received (serializeUnchunkedEkSentCt1Received uc) = .ok uc := by
  refine Decodable.run ?_ _
  rw [serializeUnchunkedEkSentCt1Received, List.append_assoc]
  exact (decodable_unchunked uc.epoch uc.auth).bind
    ((decodable_readBytes (by rw [hdk]; decide)).bind
      ((decodable_readBytes (by rw [hct1]; decide)).last (.guard (by simp [hdk, hct1]) (.pure uc))))

theorem deserializeUnchunkedHeaderReceived_serialize {uc : UnchunkedHeaderReceived}
    (hhdr : uc.hdr.length = mlkemHeaderSize) :
    deserializeUnchunkedHeaderReceived (serializeUnchunkedHeaderReceived uc) = .ok uc :=
  Decodable.run ((decodable_unchunked uc.epoch uc.auth).bind
    ((decodable_readBytes (by rw [hhdr]; decide)).last (.guard (by simp [hhdr]) (.pure uc)))) _

theorem deserializeUnchunkedCt1Sent_serialize {uc : UnchunkedCt1Sent}
    (hhdr : uc.hdr.length = mlkemHeaderSize) (hct1 : uc.ct1.length = mlkemCiphertext1Size) :
    deserializeUnchunkedCt1Sent (serializeUnchunkedCt1Sent uc) = .ok uc := by
  refine Decodable.run ?_ _
  rw [serializeUnchunkedCt1Sent, List.append_assoc, List.append_assoc]
  exact (decodable_unchunked uc.epoch uc.auth).bind
    ((decodable_readBytes (by rw [hhdr]; decide)).bind
      ((decodable_encapsulationState uc.encaps).bind
      ((decodable_readBytes (by rw [hct1]; decide)).last
        (.guard (by simp [hhdr, hct1]) (.pure uc)))))

theorem deserializeUnchunkedCt1SentEkReceived_serialize {uc : UnchunkedCt1SentEkReceived}
    (hek : uc.ek.length = mlkemEncapsulationKeySize)
    (hct1 : uc.ct1.length = mlkemCiphertext1Size) :
    deserializeUnchunkedCt1SentEkReceived (serializeUnchunkedCt1SentEkReceived uc) = .ok uc := by
  refine Decodable.run ?_ _
  rw [serializeUnchunkedCt1SentEkReceived, List.append_assoc, List.append_assoc]
  exact (decodable_unchunked uc.epoch uc.auth).bind ((decodable_encapsulationState uc.encaps).bind
    ((decodable_readBytes (by rw [hek]; decide)).bind
      ((decodable_readBytes (by rw [hct1]; decide)).last
        (.guard (by simp [hek, hct1]) (.pure uc)))))

/-! ## The chunked states -/

variable {size : Nat}

section Lengths

@[simp] theorem length_appendUnchunked (epoch : UInt64) (a : Authenticator) :
    (appendUnchunked epoch a).length = 80 := by
  simp [appendUnchunked, appendAuthenticator]

@[simp] theorem length_appendEncapsulationState (st : MlkemEncapsulationState) :
    (appendEncapsulationState st).length = 108 := by
  simp [appendEncapsulationState]

theorem length_polyEncoder {e : PolyEncoder} (h : e.Sends size) :
    e.serialize.length ≤ 2 ^ 21 := by
  have := h.1.length_le
  simp only [PolyEncoder.serialize, List.length_append, length_putUint32]
  omega

theorem length_serializePoints (pts : PointMap) : (serializePoints pts).length ≤ 4 + 4 * 65536 := by
  have hsize := size_le_of_uint16 pts
  have hpoint : ∀ xy : UInt16 × GF16, (pointBytes xy).length = 4 := fun _ => rfl
  simp only [serializePoints, List.length_append, length_putUint32, List.length_flatMap, hpoint,
    List.map_const', List.sum_replicate, Std.ExtTreeMap.length_toList, smul_eq_mul]
  omega

theorem length_polyDecoder (d : PolyDecoder) : d.serialize.length ≤ 2 ^ 23 := by
  have hsum : ((List.finRange 16).map fun i => (serializePoints d.points[i]).length).sum
      ≤ 16 * (4 + 4 * 65536) := by
    refine (List.sum_le_card_nsmul _ (4 + 4 * 65536) ?_).trans (by simp)
    intro n hn
    obtain ⟨i, -, rfl⟩ := List.mem_map.mp hn
    exact length_serializePoints _
  simp only [PolyDecoder.serialize, List.length_append, length_putUint32, List.length_singleton,
    List.length_flatMap]
  omega

end Lengths

theorem decodePolyEncoderWithSize_serialize {e : PolyEncoder} (h : e.Sends size) :
    decodePolyEncoderWithSize e.serialize size = .ok e := by
  rw [decodePolyEncoderWithSize, decodePolyEncoder_serialize h.1, ok_bind,
    if_neg (by simpa using h.2)]
  rfl

theorem decodePolyDecoderWithSize_serialize {d : PolyDecoder} (h : d.Awaits size)
    (hsize : size < 2 ^ 32) : decodePolyDecoderWithSize d.serialize size = .ok d := by
  have hpts : d.ptsNeeded * 2 = size := h
  have hneeded : d.ptsNeeded < 2 ^ 32 := by omega
  rw [decodePolyDecoderWithSize, decodePolyDecoder_serialize hneeded, ok_bind,
    if_neg (not_not.mpr hpts)]
  rfl

variable {a : Bytes}

theorem decodable_readTwo {β : Type} {make : α → β → V1States}
    {first : Bytes → Except (Fault Err) α} {second : Bytes → Except (Fault Err) β} {x : α} {y : β}
    (ha : a.length < 2 ^ 32) (hb : b.length < 2 ^ 32) (hx : first a = .ok x)
    (hy : second b = .ok y) :
    Decodable (readTwo make first second) (appendBytes a ++ appendBytes b) (make x y) :=
  (decodable_readBytes ha).bind ((decodable_readBytes hb).last
    (.lift_bind hx (.lift_bind hy (.pure _))))

/-- A state with a decoder beside its unchunked part. -/
theorem decodable_readTwo_dec {make : α → PolyDecoder → V1States}
    {first : Bytes → Except (Fault Err) α} {x : α} {dec : PolyDecoder} (ha : a.length < 2 ^ 32)
    (hx : first a = .ok x) (h : dec.Awaits size) (hsize : size < 2 ^ 32) :
    Decodable (readTwo make first (decodePolyDecoderWithSize · size))
      (appendBytes a ++ appendBytes dec.serialize) (make x dec) :=
  decodable_readTwo ha ((length_polyDecoder dec).trans_lt (by decide)) hx
    (decodePolyDecoderWithSize_serialize h hsize)

/-- A state with an encoder beside its unchunked part. -/
theorem decodable_readTwo_enc {make : α → PolyEncoder → V1States}
    {first : Bytes → Except (Fault Err) α} {x : α} {enc : PolyEncoder} (ha : a.length < 2 ^ 32)
    (hx : first a = .ok x) (h : enc.Sends size) :
    Decodable (readTwo make first (decodePolyEncoderWithSize · size))
      (appendBytes a ++ appendBytes enc.serialize) (make x enc) :=
  decodable_readTwo ha ((length_polyEncoder h).trans_lt (by decide)) hx
    (decodePolyEncoderWithSize_serialize h)

theorem decodable_readThree {make : α → PolyEncoder → PolyDecoder → V1States}
    {first : Bytes → Except (Fault Err) α} {x : α} {enc : PolyEncoder} {dec : PolyDecoder}
    {encSize decSize : Nat} (ha : a.length < 2 ^ 32) (hx : first a = .ok x)
    (henc : enc.Sends encSize) (hdec : dec.Awaits decSize) (hsize : decSize < 2 ^ 32) :
    Decodable (readThree make first encSize decSize)
      (appendBytes a ++ (appendBytes enc.serialize ++ appendBytes dec.serialize))
      (make x enc dec) :=
  (decodable_readBytes ha).bind ((decodable_readBytes
    ((length_polyEncoder henc).trans_lt (by decide))).bind ((decodable_readBytes
      ((length_polyDecoder dec).trans_lt (by decide))).last
        (.lift_bind hx (.lift_bind (decodePolyEncoderWithSize_serialize henc)
          (.lift_bind (decodePolyDecoderWithSize_serialize hdec hsize) (.pure _))))))

variable {s : V1States}

/-- A tagged state is read back when its fields are. -/
theorem deserializeV1States_tagged {tag : UInt8} {fields : Bytes}
    (h : Decodable (readTagged tag) fields s) : deserializeV1States ([tag] ++ fields) = .ok s :=
  (Decodable.need (by simp) (.bind (.u8 tag) h)).run _

/-- **A valid handshake state comes back from its bytes.** -/
theorem deserializeV1States_serialize (h : s.Valid) :
    deserializeV1States (serializeV1States s) = .ok s := by
  -- One case per tag: the unchunked part has its lengths, and the erasure code is of the size that
  -- the tag asks for.
  cases s with
  | keysUnsampled uc =>
    have hlen : (serializeUnchunkedKeysUnsampled uc).length < 2 ^ 32 := by
      simp [serializeUnchunkedKeysUnsampled]
    exact deserializeV1States_tagged ((decodable_readBytes hlen).last
      (.lift_bind (deserializeUnchunkedPlain_append _ uc.epoch uc.auth)
        (.pure (V1States.keysUnsampled uc))))
  | keysSampled uc enc =>
    obtain ⟨⟨hek, hdk⟩, henc⟩ := h
    rw [serializeV1States, List.append_assoc]
    exact deserializeV1States_tagged (decodable_readTwo_enc
      (by simp [serializeUnchunkedHeaderSent, hek, hdk]; decide)
      (deserializeUnchunkedHeaderSent_serialize hek hdk) henc)
  | headerSent uc enc dec =>
    obtain ⟨hdk, henc, hdec⟩ := h
    rw [serializeV1States, List.append_assoc, List.append_assoc]
    exact deserializeV1States_tagged (decodable_readThree
      (by simp [serializeUnchunkedEkSent, hdk]; decide)
      (deserializeUnchunkedEkSent_serialize hdk) henc hdec (by decide))
  | ct1Received uc enc =>
    obtain ⟨⟨hdk, hct1⟩, henc⟩ := h
    rw [serializeV1States, List.append_assoc]
    exact deserializeV1States_tagged (decodable_readTwo_enc
      (by simp [serializeUnchunkedEkSentCt1Received, hdk, hct1]; decide)
      (deserializeUnchunkedEkSentCt1Received_serialize hdk hct1) henc)
  | ekSentCt1Received uc dec =>
    obtain ⟨⟨hdk, hct1⟩, hdec⟩ := h
    rw [serializeV1States, List.append_assoc]
    exact deserializeV1States_tagged (decodable_readTwo_dec
      (by simp [serializeUnchunkedEkSentCt1Received, hdk, hct1]; decide)
      (deserializeUnchunkedEkSentCt1Received_serialize hdk hct1) hdec (by decide))
  | noHeaderReceived uc dec =>
    rw [serializeV1States, List.append_assoc]
    exact deserializeV1States_tagged (decodable_readTwo_dec
      (by simp [serializeUnchunkedNoHeaderReceived])
      (deserializeUnchunkedPlain_append _ uc.epoch uc.auth) h (by decide))
  | headerReceived uc dec =>
    obtain ⟨hhdr, hdec⟩ := h
    rw [serializeV1States, List.append_assoc]
    exact deserializeV1States_tagged (decodable_readTwo_dec
      (by simp [serializeUnchunkedHeaderReceived, hhdr]; decide)
      (deserializeUnchunkedHeaderReceived_serialize hhdr) hdec (by decide))
  | ct1Sampled uc enc dec =>
    obtain ⟨⟨hhdr, hct1⟩, henc, hdec⟩ := h
    rw [serializeV1States, List.append_assoc, List.append_assoc]
    exact deserializeV1States_tagged (decodable_readThree
      (by simp [serializeUnchunkedCt1Sent, hhdr, hct1]; decide)
      (deserializeUnchunkedCt1Sent_serialize hhdr hct1) henc hdec (by decide))
  | ekReceivedCt1Sampled uc enc =>
    obtain ⟨⟨hek, hct1⟩, henc⟩ := h
    rw [serializeV1States, List.append_assoc]
    exact deserializeV1States_tagged (decodable_readTwo_enc
      (by simp [serializeUnchunkedCt1SentEkReceived, hek, hct1]; decide)
      (deserializeUnchunkedCt1SentEkReceived_serialize hek hct1) henc)
  | ct1Acknowledged uc dec =>
    obtain ⟨⟨hhdr, hct1⟩, hdec⟩ := h
    rw [serializeV1States, List.append_assoc]
    exact deserializeV1States_tagged (decodable_readTwo_dec
      (by simp [serializeUnchunkedCt1Sent, hhdr, hct1]; decide)
      (deserializeUnchunkedCt1Sent_serialize hhdr hct1) hdec (by decide))
  | ct2Sampled uc enc =>
    rw [serializeV1States, List.append_assoc]
    exact deserializeV1States_tagged (decodable_readTwo_enc (by simp [serializeUnchunkedCt2Sent])
      (deserializeUnchunkedPlain_append _ uc.epoch uc.auth) h)

theorem length_serializeV1States (h : s.Valid) :
    (serializeV1States s).length < 2 ^ 24 := by
  have henc := fun (e : PolyEncoder) size (he : e.Sends size) => length_polyEncoder he
  have hdec := length_polyDecoder
  cases s with
  | keysUnsampled uc => simp [serializeV1States, serializeUnchunkedKeysUnsampled]
  | keysSampled uc enc =>
    have := henc _ _ h.2
    simp [serializeV1States, serializeUnchunkedHeaderSent, h.1, mlkemEncapsulationKeySize,
      mlkemDecapsulationKeySize]
    omega
  | headerSent uc enc dec =>
    have := henc _ _ h.2.1
    have := hdec dec
    simp [serializeV1States, serializeUnchunkedEkSent, h.1, mlkemDecapsulationKeySize]
    omega
  | ct1Received uc enc =>
    have := henc _ _ h.2
    simp [serializeV1States, serializeUnchunkedEkSentCt1Received, h.1.1, h.1.2,
      mlkemDecapsulationKeySize, mlkemCiphertext1Size]
    omega
  | ekSentCt1Received uc dec =>
    have := hdec dec
    simp [serializeV1States, serializeUnchunkedEkSentCt1Received, h.1.1, h.1.2,
      mlkemDecapsulationKeySize, mlkemCiphertext1Size]
    omega
  | noHeaderReceived uc dec =>
    have := hdec dec
    simp [serializeV1States, serializeUnchunkedNoHeaderReceived]
    omega
  | headerReceived uc dec =>
    have := hdec dec
    simp [serializeV1States, serializeUnchunkedHeaderReceived, h.1, mlkemHeaderSize]
    omega
  | ct1Sampled uc enc dec =>
    have := henc _ _ h.2.1
    have := hdec dec
    simp [serializeV1States, serializeUnchunkedCt1Sent, h.1.1, h.1.2, mlkemHeaderSize,
      mlkemCiphertext1Size]
    omega
  | ekReceivedCt1Sampled uc enc =>
    have := henc _ _ h.2
    simp [serializeV1States, serializeUnchunkedCt1SentEkReceived, h.1.1, h.1.2,
      mlkemEncapsulationKeySize, mlkemCiphertext1Size]
    omega
  | ct1Acknowledged uc dec =>
    have := hdec dec
    simp [serializeV1States, serializeUnchunkedCt1Sent, h.1.1, h.1.2, mlkemHeaderSize,
      mlkemCiphertext1Size]
    omega
  | ct2Sampled uc enc =>
    have := henc _ _ h
    simp [serializeV1States, serializeUnchunkedCt2Sent]
    omega

/-! ## Foreign bytes -/

section NoPanic

variable (data : Bytes)

theorem bounded_authenticator : Bounded 0 readAuthenticator 0 :=
  bounded_readBytes.bind fun _ => bounded_readBytes.bind fun _ =>
    .ite (fun _ => .fail _) fun _ => .pure _

theorem bounded_encapsulationState : Bounded 0 readEncapsulationState 0 :=
  bounded_readBytes.bind fun _ => bounded_readBytes.bind fun _ => bounded_readBytes.bind fun _ =>
    .ite (fun _ => .fail _) fun _ => .pure _

theorem bounded_unchunked : Bounded 0 readUnchunked 0 :=
  (Bounded.need _ _).bind fun _ => .bind (.u64 (k := 0)) fun _ =>
    bounded_authenticator.bind fun _ => .pure _

theorem noPanic_decodePolyEncoderWithSize (size : Nat) :
    NoPanic (decodePolyEncoderWithSize data size) :=
  .bind (noPanic_decodePolyEncoder data) fun _ _ => .ite (fun _ => .err _) fun _ => .ok _

theorem noPanic_decodePolyDecoderWithSize (size : Nat) :
    NoPanic (decodePolyDecoderWithSize data size) :=
  .bind (noPanic_decodePolyDecoder data) fun _ _ => .ite (fun _ => .err _) fun _ => .ok _

theorem noPanic_deserializeUnchunkedPlain (make : UInt64 → Authenticator → α) :
    NoPanic (deserializeUnchunkedPlain make data) :=
  (bounded_unchunked.bind fun _ => .pure _).run _ (Nat.zero_le _)

theorem noPanic_deserializeUnchunkedHeaderSent : NoPanic (deserializeUnchunkedHeaderSent data) :=
  (bounded_unchunked.bind fun _ => bounded_readBytes.bind fun _ => bounded_readBytes.bind fun _ =>
    .ite (fun _ => .fail _) fun _ => .pure _).run _ (Nat.zero_le _)

theorem noPanic_deserializeUnchunkedEkSent : NoPanic (deserializeUnchunkedEkSent data) :=
  (bounded_unchunked.bind fun _ => bounded_readBytes.bind fun _ =>
    .ite (fun _ => .fail _) fun _ => .pure _).run _ (Nat.zero_le _)

theorem noPanic_deserializeUnchunkedEkSentCt1Received :
    NoPanic (deserializeUnchunkedEkSentCt1Received data) :=
  (bounded_unchunked.bind fun _ => bounded_readBytes.bind fun _ => bounded_readBytes.bind fun _ =>
    .ite (fun _ => .fail _) fun _ => .pure _).run _ (Nat.zero_le _)

theorem noPanic_deserializeUnchunkedHeaderReceived :
    NoPanic (deserializeUnchunkedHeaderReceived data) :=
  (bounded_unchunked.bind fun _ => bounded_readBytes.bind fun _ =>
    .ite (fun _ => .fail _) fun _ => .pure _).run _ (Nat.zero_le _)

theorem noPanic_deserializeUnchunkedCt1Sent : NoPanic (deserializeUnchunkedCt1Sent data) :=
  (bounded_unchunked.bind fun _ => bounded_readBytes.bind fun _ =>
    bounded_encapsulationState.bind fun _ => bounded_readBytes.bind fun _ =>
    .ite (fun _ => .fail _) fun _ => .pure _).run _ (Nat.zero_le _)

theorem noPanic_deserializeUnchunkedCt1SentEkReceived :
    NoPanic (deserializeUnchunkedCt1SentEkReceived data) :=
  (bounded_unchunked.bind fun _ => bounded_encapsulationState.bind fun _ =>
    bounded_readBytes.bind fun _ => bounded_readBytes.bind fun _ =>
    .ite (fun _ => .fail _) fun _ => .pure _).run _ (Nat.zero_le _)

theorem bounded_readTwo {β : Type} {make : α → β → V1States}
    {first : Bytes → Except (Fault Err) α} {second : Bytes → Except (Fault Err) β}
    (hfirst : ∀ b, NoPanic (first b)) (hsecond : ∀ b, NoPanic (second b)) :
    Bounded 0 (readTwo make first second) 0 :=
  bounded_readBytes.bind fun _ => bounded_readBytes.bind fun _ =>
    .bind (.lift (hfirst _)) fun _ => .bind (.lift (hsecond _)) fun _ => .pure _

theorem bounded_readThree {make : α → PolyEncoder → PolyDecoder → V1States}
    {first : Bytes → Except (Fault Err) α} (encSize decSize : Nat)
    (hfirst : ∀ b, NoPanic (first b)) : Bounded 0 (readThree make first encSize decSize) 0 :=
  bounded_readBytes.bind fun _ => bounded_readBytes.bind fun _ => bounded_readBytes.bind fun _ =>
    .bind (.lift (hfirst _)) fun _ =>
    .bind (.lift (noPanic_decodePolyEncoderWithSize _ _)) fun _ =>
    .bind (.lift (noPanic_decodePolyDecoderWithSize _ _)) fun _ => .pure _

theorem bounded_readTagged (tag : UInt8) : Bounded 0 (readTagged tag) 0 := by
  have henc := noPanic_decodePolyEncoderWithSize
  have hdec := noPanic_decodePolyDecoderWithSize
  refine .ite (fun _ => ?_) fun _ => ?_
  · exact bounded_readBytes.bind fun _ =>
      .bind (.lift (noPanic_deserializeUnchunkedPlain _ _)) fun _ => .pure _
  refine .ite (fun _ => bounded_readTwo noPanic_deserializeUnchunkedHeaderSent (henc · _))
    fun _ => ?_
  refine .ite (fun _ => bounded_readThree _ _ noPanic_deserializeUnchunkedEkSent) fun _ => ?_
  refine .ite (fun _ => bounded_readTwo noPanic_deserializeUnchunkedEkSentCt1Received (henc · _))
    fun _ => ?_
  refine .ite (fun _ => bounded_readTwo noPanic_deserializeUnchunkedEkSentCt1Received (hdec · _))
    fun _ => ?_
  refine .ite (fun _ => bounded_readTwo (noPanic_deserializeUnchunkedPlain · _) (hdec · _))
    fun _ => ?_
  refine .ite (fun _ => bounded_readTwo noPanic_deserializeUnchunkedHeaderReceived (hdec · _))
    fun _ => ?_
  refine .ite (fun _ => bounded_readThree _ _ noPanic_deserializeUnchunkedCt1Sent) fun _ => ?_
  refine .ite (fun _ => bounded_readTwo noPanic_deserializeUnchunkedCt1SentEkReceived (henc · _))
    fun _ => ?_
  refine .ite (fun _ => bounded_readTwo noPanic_deserializeUnchunkedCt1Sent (hdec · _))
    fun _ => ?_
  refine .ite (fun _ => bounded_readTwo (noPanic_deserializeUnchunkedPlain · _) (henc · _))
    fun _ => ?_
  exact .fail _

theorem noPanic_deserializeV1States : NoPanic (deserializeV1States data) :=
  ((Bounded.need _ _).bind fun _ => .bind (.u8 (k := 0)) fun tag =>
    bounded_readTagged tag).run _ (Nat.zero_le _)

end NoPanic

end SignalGo.Spqr
