import SignalGo.Spqr.Serialize

/-!
# What one step of the handshake does

One party alone, against any messages: the fields of its state keep the lengths the decoders
check, and the epoch, the making of an epoch secret and the first message of an epoch follow each
other in a fixed order.

* `V1States.Valid`: the lengths of the fields.
* `SendEffect`, `send_effect`: all a send can do.
* `RecvEffect`, `recv_effect`: all a receive can do.
-/

namespace SignalGo.Spqr

variable (p : Prims) (kem : Kem)

/-! ## Lengths -/

/-- An encoder of a message of the given length. -/
def PolyEncoder.Sends (e : PolyEncoder) (size : Nat) : Prop := e.Valid ∧ e.msg.length = size

/-- A decoder of a message of the given length. -/
def PolyDecoder.Awaits (d : PolyDecoder) (size : Nat) : Prop := d.ptsNeeded * 2 = size

def UnchunkedCt1Sent.Valid (uc : UnchunkedCt1Sent) : Prop :=
  uc.hdr.length = mlkemHeaderSize ∧ uc.ct1.length = mlkemCiphertext1Size

def UnchunkedEkSentCt1Received.Valid (uc : UnchunkedEkSentCt1Received) : Prop :=
  uc.dk.length = mlkemDecapsulationKeySize ∧ uc.ct1.length = mlkemCiphertext1Size

def V1States.Valid : V1States → Prop
  | keysUnsampled _ => True
  | keysSampled uc sendingHdr =>
      (uc.ek.length = mlkemEncapsulationKeySize ∧ uc.dk.length = mlkemDecapsulationKeySize)
        ∧ sendingHdr.Sends hdrMessageSize
  | headerSent uc sendingEk receivingCt1 =>
      uc.dk.length = mlkemDecapsulationKeySize ∧ sendingEk.Sends mlkemEncapsulationKeySize
        ∧ receivingCt1.Awaits mlkemCiphertext1Size
  | ct1Received uc sendingEk => uc.Valid ∧ sendingEk.Sends mlkemEncapsulationKeySize
  | ekSentCt1Received uc receivingCt2 => uc.Valid ∧ receivingCt2.Awaits ct2MessageSize
  | noHeaderReceived _ receivingHdr => receivingHdr.Awaits hdrMessageSize
  | headerReceived uc receivingEk =>
      uc.hdr.length = mlkemHeaderSize ∧ receivingEk.Awaits mlkemEncapsulationKeySize
  | ct1Sampled uc sendingCt1 receivingEk =>
      uc.Valid ∧ sendingCt1.Sends mlkemCiphertext1Size
        ∧ receivingEk.Awaits mlkemEncapsulationKeySize
  | ekReceivedCt1Sampled uc sendingCt1 =>
      (uc.ek.length = mlkemEncapsulationKeySize ∧ uc.ct1.length = mlkemCiphertext1Size)
        ∧ sendingCt1.Sends mlkemCiphertext1Size
  | ct1Acknowledged uc receivingEk => uc.Valid ∧ receivingEk.Awaits mlkemEncapsulationKeySize
  | ct2Sampled _ sendingCt2 => sendingCt2.Sends ct2MessageSize

/-- The secret of the current epoch has been made. -/
def V1States.sampled : V1States → Bool
  | ct1Sampled .. | ekReceivedCt1Sampled .. | ct1Acknowledged .. | ct2Sampled .. => true
  | _ => false

/-- The party has sent a message in the current epoch. -/
def V1States.spoke : V1States → Bool
  | keysUnsampled .. | noHeaderReceived .. | headerReceived .. => false
  | _ => true

theorem newPolyDecoder_ok (size : Nat) (h : size % 2 = 0) :
    ∃ d, newPolyDecoder size = .ok d ∧ d.Awaits size := by
  refine ⟨_, if_neg (by simpa using h), ?_⟩
  show size / 2 * 2 = size
  omega

/-- An encoder of the given message. -/
def PolyEncoder.Carries (e : PolyEncoder) (msg : Bytes) : Prop := e.Valid ∧ e.msg = msg

variable {e : PolyEncoder} {size : Nat}

theorem PolyEncoder.Carries.sends {msg : Bytes} (h : e.Carries msg) (hlen : msg.length = size) :
    e.Sends size :=
  ⟨h.1, by rw [h.2, hlen]⟩

theorem PolyEncoder.Carries.nextChunk {msg : Bytes} (h : e.Carries msg) :
    e.nextChunk.1.Carries msg :=
  ⟨⟨h.1.even, h.1.length_le, h.1.points⟩, h.2⟩

theorem PolyEncoder.Sends.nextChunk (h : e.Sends size) :
    e.nextChunk.1.Sends size :=
  ⟨⟨h.1.even, h.1.length_le, h.1.points⟩, h.2⟩

/-- A message of a usual length is encoded. -/
theorem newPolyEncoder_carries {msg : Bytes} (size : Nat) (hlen : msg.length = size)
    (heven : size % 2 = 0) (hle : size ≤ 2 ^ 20) :
    ∃ e, newPolyEncoder msg = .ok e ∧ e.idx = 0 ∧ e.Carries msg := by
  have hnew : newPolyEncoder msg = _ := newPolyEncoder_ok (by omega) (by omega)
  exact ⟨_, hnew, rfl, (newPolyEncoder_valid hnew).1, rfl⟩

/-- A chunk does not change the length that is awaited. -/
theorem PolyDecoder.Awaits.addChunk {d : PolyDecoder} (h : d.Awaits size) (c : Chunk) :
    (d.addChunk c).Awaits size := by
  simpa only [PolyDecoder.Awaits, PolyDecoder.addChunk] using h

/-- And so what is decoded has that length. -/
theorem length_decodedMessage {d : PolyDecoder} (h : d.Awaits size) {msg : Bytes}
    (hdec : d.decodedMessage = .ok (some msg)) : msg.length = size := by
  unfold PolyDecoder.decodedMessage at hdec
  split at hdec
  · cases hdec
  · obtain ⟨vecs, -, hdec⟩ := bind_eq_ok.mp hdec
    cases vecs with
    | none => cases hdec
    | some vecs =>
      have hmsg := Option.some.inj (Except.ok.inj hdec)
      rw [← hmsg, List.length_flatMap, ← h]
      simp [symbolBytes]

/-! ## Sending -/

/-- Nothing has been received that is kept in the state. -/
def V1States.unanswered : V1States → Bool
  | keysUnsampled .. | keysSampled .. | noHeaderReceived .. => true
  | _ => false

/-- What a send does. -/
structure SendEffect (s : V1States) (out : V1Send) : Prop where
  msgEpoch : out.msg.epoch = s.epoch
  wellFormed : out.msg.WellFormed
  valid : out.state.Valid
  epoch : out.state.epoch = s.epoch
  unanswered : s.unanswered → out.key = none ∧ out.state.unanswered
  key : (out.key = none ∧ out.state.sampled = s.sampled) ∨
    ∃ secret, out.key = some { epoch := s.epoch, secret } ∧ s.sampled = false
      ∧ out.state.sampled = true

variable {epoch : UInt64}

section Send

variable {p kem} {rnd : Rand}

theorem plainMessage_wellFormed {kind : MessageType} (h : hasChunk kind = false) :
    (plainMessage epoch kind).WellFormed := h.symm

/-- Keys are drawn when the seed is there. -/
theorem firstHdrChunk_cases (p : Prims) (kem : Kem) (rnd : Rand) (uc : UnchunkedKeysUnsampled) :
    (∃ e, rnd 64 = .error e ∧ firstHdrChunk p kem uc rnd = .error e) ∨
    ∃ (seed : ByteArr 64) (enc : PolyEncoder), rnd 64 = .ok seed ∧ enc.idx = 0 ∧
      enc.Carries ((mlkemKeysOfSeed kem seed).hdr
        ++ uc.auth.macHdr p uc.epoch (mlkemKeysOfSeed kem seed).hdr) ∧
      firstHdrChunk p kem uc rnd = .ok {
        msg := chunkMessage uc.epoch messageTypeHdr enc.nextChunk.2
        key := none
        state := .keysSampled
          { epoch := uc.epoch
            auth := uc.auth
            ek := (mlkemKeysOfSeed kem seed).ek
            dk := (mlkemKeysOfSeed kem seed).dk } enc.nextChunk.1 } := by
  unfold firstHdrChunk UnchunkedKeysUnsampled.sendHeader mlkemGenerateKeys
  cases hrnd : rnd 64 with
  | error e => exact .inl ⟨e, rfl, rfl⟩
  | ok seed =>
    have hlen : ((mlkemKeysOfSeed kem seed).hdr
        ++ uc.auth.macHdr p uc.epoch (mlkemKeysOfSeed kem seed).hdr).length = hdrMessageSize := by
      simp [hdrMessageSize]
    obtain ⟨enc, henc, hidx, hcarries⟩ := newPolyEncoder_carries hdrMessageSize hlen (by decide)
      (by decide)
    refine .inr ⟨seed, enc, rfl, hidx, hcarries, ?_⟩
    simp only [ok_bind, pure_bind]
    rw [henc]
    rfl

/-- The encapsulation succeeds when the seed is there. -/
theorem firstCt1Chunk_cases (p : Prims) (kem : Kem) (rnd : Rand)
    (uc : UnchunkedHeaderReceived) (receivingEk : PolyDecoder)
    (h : uc.hdr.length = mlkemHeaderSize) :
    (∃ e, rnd 32 = .error e ∧ uc.sendCt1 p kem rnd = .error e ∧
      firstCt1Chunk p kem uc receivingEk rnd = .error e) ∨
    ∃ (ct1 : Bytes) (encaps : MlkemEncapsulationState) (ss : Bytes) (enc : PolyEncoder),
      mlkemEncaps1 kem uc.hdr rnd = .ok (ct1, encaps, ss) ∧ enc.idx = 0 ∧ enc.Carries ct1 ∧
      firstCt1Chunk p kem uc receivingEk rnd = .ok {
        msg := chunkMessage uc.epoch messageTypeCt1 enc.nextChunk.2
        key := some { epoch := uc.epoch, secret := deriveSckaKey p uc.epoch ss }
        state := .ct1Sampled
          { epoch := uc.epoch
            auth := uc.auth.update p uc.epoch (deriveSckaKey p uc.epoch ss)
            hdr := uc.hdr
            encaps, ct1 } enc.nextChunk.1 receivingEk } := by
  unfold firstCt1Chunk UnchunkedHeaderReceived.sendCt1
  cases henc : mlkemEncaps1 kem uc.hdr rnd with
  | error e =>
    refine .inl ⟨e, ?_, rfl, rfl⟩
    rw [mlkemEncaps1, if_neg (by simpa using h)] at henc
    cases hrnd : rnd 32 with
    | error e' =>
      rw [hrnd] at henc
      cases henc
      rfl
    | ok seed =>
      rw [hrnd] at henc
      cases henc
  | ok out =>
    obtain ⟨ct1, encaps, ss⟩ := out
    obtain ⟨enc, hnew, hidx, hcarries⟩ := newPolyEncoder_carries mlkemCiphertext1Size
      (mlkemEncaps1_ok henc) (by decide) (by decide)
    refine .inr ⟨ct1, encaps, ss, enc, rfl, hidx, hcarries, ?_⟩
    simp only [ok_bind, pure_bind]
    rw [hnew]
    rfl

/-- **Sending**: a send fails only with the randomness, and then changes nothing. -/
theorem send_effect (p : Prims) (kem : Kem) (rnd : Rand) {s : V1States} (h : s.Valid) :
    (∃ e n, rnd n = .error e ∧ s.send p kem rnd = (s, .error e)) ∨
    ∃ s' out, s.send p kem rnd = (s', .ok out) ∧ SendEffect s out := by
  cases s with
  | keysUnsampled uc =>
    rcases firstHdrChunk_cases p kem rnd uc with
      ⟨e, hrnd, hsend⟩ | ⟨seed, enc, -, -, hcarries, hsend⟩
    · exact .inl ⟨e, 64, hrnd, by rw [V1States.send, hsend]⟩
    · refine .inr ⟨_, _, by rw [V1States.send, hsend], ?_⟩
      refine ⟨rfl, rfl, ?_, rfl, fun _ => ⟨rfl, rfl⟩, .inl ⟨rfl, rfl⟩⟩
      exact ⟨⟨length_ek seed, length_dk seed⟩, hcarries.nextChunk.sends (by simp [hdrMessageSize])⟩
  | keysSampled uc enc =>
    exact .inr ⟨_, _, rfl, rfl, rfl, ⟨h.1, h.2.nextChunk⟩, rfl, fun _ => ⟨rfl, rfl⟩,
      .inl ⟨rfl, rfl⟩⟩
  | headerSent uc enc dec =>
    exact .inr ⟨_, _, rfl, rfl, rfl, ⟨h.1, h.2.1.nextChunk, h.2.2⟩, rfl, nofun, .inl ⟨rfl, rfl⟩⟩
  | ct1Received uc enc =>
    exact .inr ⟨_, _, rfl, rfl, rfl, ⟨h.1, h.2.nextChunk⟩, rfl, nofun, .inl ⟨rfl, rfl⟩⟩
  | ekSentCt1Received uc dec =>
    exact .inr ⟨_, _, rfl, rfl, rfl, h, rfl, nofun, .inl ⟨rfl, rfl⟩⟩
  | noHeaderReceived uc dec =>
    exact .inr ⟨_, _, rfl, rfl, rfl, h, rfl, fun _ => ⟨rfl, rfl⟩, .inl ⟨rfl, rfl⟩⟩
  | headerReceived uc dec =>
    rcases firstCt1Chunk_cases p kem rnd uc dec h.1 with
      ⟨e, hrnd, hct1, hsend⟩ | ⟨ct1, encaps, ss, enc, henc, -, hcarries, hsend⟩
    · refine .inl ⟨e, 32, hrnd, ?_⟩
      rw [V1States.send, hsend, headerReceivedAfter, hct1]
    · have hct1 := mlkemEncaps1_ok henc
      refine .inr ⟨_, _, by rw [V1States.send, hsend], ?_⟩
      refine ⟨rfl, rfl, ?_, rfl, nofun, .inr ⟨_, rfl, rfl, rfl⟩⟩
      exact ⟨⟨h.1, hct1⟩, hcarries.nextChunk.sends hct1, h.2⟩
  | ct1Sampled uc enc dec =>
    exact .inr ⟨_, _, rfl, rfl, rfl, ⟨h.1, h.2.1.nextChunk, h.2.2⟩, rfl, nofun, .inl ⟨rfl, rfl⟩⟩
  | ekReceivedCt1Sampled uc enc =>
    exact .inr ⟨_, _, rfl, rfl, rfl, ⟨h.1, h.2.nextChunk⟩, rfl, nofun, .inl ⟨rfl, rfl⟩⟩
  | ct1Acknowledged uc dec =>
    exact .inr ⟨_, _, rfl, rfl, rfl, h, rfl, nofun, .inl ⟨rfl, rfl⟩⟩
  | ct2Sampled uc enc =>
    exact .inr ⟨_, _, rfl, rfl, rfl, PolyEncoder.Sends.nextChunk h, rfl, nofun, .inl ⟨rfl, rfl⟩⟩

end Send

/-! ## Receiving -/

/-- The party waits for the header of the other one. -/
def V1States.waiting : V1States → Bool
  | noHeaderReceived .. => true
  | _ => false

/-- What a receive does to the epoch: it stays, the secret of the epoch is made and the next epoch
begins, or the other party has begun the next epoch. -/
inductive RecvEffect (s : V1States) (msg : V1Message) (r : V1Recv) : Prop where
  | stay : r.key = none → r.state.epoch = s.epoch → r.state.sampled = s.sampled →
      r.state.spoke = s.spoke → msg.epoch ≤ s.epoch → RecvEffect s msg r
  | finish {secret : Bytes} : r.key = some { epoch := s.epoch, secret } →
      s.sampled = false → s.spoke = true → r.state.epoch = s.epoch + 1 →
      r.state.waiting = true → msg.epoch = s.epoch → RecvEffect s msg r
  | next : r.key = none → s.sampled = true → s.spoke = true → r.state.epoch = s.epoch + 1 →
      r.state.sampled = false → r.state.spoke = false → s.epoch < msg.epoch →
      msg.epoch = s.epoch + 1 → RecvEffect s msg r

section Recv

variable {p kem} {s : V1States} {msg : V1Message} {r : V1Recv}

/-- What a message that is not refused finds: an older epoch, or the current one. -/
theorem recvAt_ok {current : Except Err V1Recv} (h : s.recvAt msg current = .ok r) :
    (msg.epoch < s.epoch ∧ r = { key := none, state := s }) ∨
      (msg.epoch = s.epoch ∧ current = .ok r) := by
  unfold V1States.recvAt at h
  split at h
  · cases h
  · split at h
    · rename_i hlt
      cases h
      exact .inl ⟨hlt, rfl⟩
    · rename_i h1 h2
      refine .inr ⟨?_, h⟩
      rw [UInt64.lt_iff_toNat_lt] at h1 h2
      exact UInt64.toNat_inj.mp (by omega)

theorem withoutKey_ok {next : Except Err V1States} (h : withoutKey next = .ok r) :
    ∃ st, next = .ok st ∧ r = { key := none, state := st } := by
  obtain ⟨st, hst, hr⟩ := bind_eq_ok.mp h
  cases hr
  exact ⟨st, hst, rfl⟩

variable {c : Chunk} {st : V1States}

theorem keysSampledRecvCt1Chunk_ok {uc : UnchunkedHeaderSent}
    (h : keysSampledRecvCt1Chunk uc c = .ok st) :
    ∃ dec enc, newPolyDecoder mlkemCiphertext1Size = .ok dec ∧ newPolyEncoder uc.ek = .ok enc ∧
      st = .headerSent { epoch := uc.epoch, auth := uc.auth, dk := uc.dk } enc
        (dec.addChunk c) := by
  obtain ⟨dec, hdec, h⟩ := bind_eq_ok.mp h
  obtain ⟨enc, henc, h⟩ := bind_eq_ok.mp h
  cases h
  exact ⟨dec, enc, hdec, henc, rfl⟩

variable {enc : PolyEncoder} {dec : PolyDecoder}

/-- The decoder of the first part waits on, or the part is complete. -/
theorem headerSentRecvCt1Chunk_ok {uc : UnchunkedEkSent}
    (h : headerSentRecvCt1Chunk uc enc dec epoch c = .ok st) :
    ((dec.addChunk c).decodedMessage = .ok none ∧ st = .headerSent uc enc (dec.addChunk c)) ∨
      ∃ ct1, (dec.addChunk c).decodedMessage = .ok (some ct1) ∧
        st = .ct1Received { epoch := uc.epoch, auth := uc.auth, dk := uc.dk, ct1 } enc := by
  obtain ⟨out, hout, h⟩ := bind_eq_ok.mp h
  cases out with
  | none =>
    cases h
    exact .inl ⟨hout, rfl⟩
  | some ct1 =>
    cases h
    exact .inr ⟨ct1, hout, rfl⟩

theorem ekSentCt1ReceivedRecvCt2Chunk_ok {uc : UnchunkedEkSentCt1Received}
    (h : ekSentCt1ReceivedRecvCt2Chunk p kem uc dec c = .ok r) :
    ((dec.addChunk c).decodedMessage = .ok none ∧
      r = { key := none, state := .ekSentCt1Received uc (dec.addChunk c) }) ∨
    ∃ decoded secret auth dec', (dec.addChunk c).decodedMessage = .ok (some decoded) ∧
      newPolyDecoder hdrMessageSize = .ok dec' ∧
      r = { key := some { epoch := uc.epoch, secret }
            state := .noHeaderReceived { epoch := uc.epoch + 1, auth } dec' } := by
  obtain ⟨out, hout, h⟩ := bind_eq_ok.mp h
  cases out with
  | none =>
    cases h
    exact .inl ⟨hout, rfl⟩
  | some decoded =>
    simp only [recvDecodedCt2] at h
    split at h
    · cases h
    · obtain ⟨⟨nextUc, key⟩, hct2, h⟩ := bind_eq_ok.mp h
      obtain ⟨dec', hdec', h⟩ := bind_eq_ok.mp h
      cases h
      unfold UnchunkedEkSentCt1Received.recvCt2 at hct2
      split at hct2
      · cases hct2
      · split at hct2
        · cases hct2
        · obtain ⟨ss, -, hct2⟩ := bind_eq_ok.mp hct2
          obtain ⟨-, -, hct2⟩ := bind_eq_ok.mp hct2
          cases hct2
          exact .inr ⟨decoded, _, _, dec', hout, hdec', rfl⟩

theorem noHeaderReceivedRecvHdrChunk_ok {uc : UnchunkedNoHeaderReceived}
    (h : noHeaderReceivedRecvHdrChunk p uc dec epoch c = .ok st) :
    ((dec.addChunk c).decodedMessage = .ok none ∧ st = .noHeaderReceived uc (dec.addChunk c)) ∨
      ∃ hdr dec', newPolyDecoder mlkemEncapsulationKeySize = .ok dec' ∧
        hdr.length = mlkemHeaderSize ∧
        st = .headerReceived { epoch := uc.epoch, auth := uc.auth, hdr } dec' := by
  obtain ⟨out, hout, h⟩ := bind_eq_ok.mp h
  cases out with
  | none =>
    cases h
    exact .inl ⟨hout, rfl⟩
  | some decoded =>
    simp only [recvDecodedHdr] at h
    split at h
    · cases h
    · obtain ⟨next, hnext, h⟩ := bind_eq_ok.mp h
      obtain ⟨dec', hdec', h⟩ := bind_eq_ok.mp h
      cases h
      unfold UnchunkedNoHeaderReceived.recvHeader at hnext
      split at hnext
      · cases hnext
      · split at hnext
        · cases hnext
        · rename_i hlen
          obtain ⟨-, -, hnext⟩ := bind_eq_ok.mp hnext
          cases hnext
          exact .inr ⟨_, dec', hdec', by simpa using hlen, rfl⟩

theorem sampleCt2_ok {uc : UnchunkedCt1SentEkReceived} (h : sampleCt2 p kem uc = .ok st) :
    ∃ ct2 enc, mlkemEncaps2 kem uc.ek uc.encaps = .ok ct2 ∧
      newPolyEncoder (ct2 ++ uc.auth.macCt p uc.epoch (uc.ct1 ++ ct2)) = .ok enc ∧
      st = .ct2Sampled { epoch := uc.epoch, auth := uc.auth } enc := by
  obtain ⟨⟨next, ct2, mac⟩, hct2, h⟩ := bind_eq_ok.mp h
  obtain ⟨enc, henc, h⟩ := bind_eq_ok.mp h
  cases h
  obtain ⟨ct2', hct2', hrest⟩ := bind_eq_ok.mp hct2
  cases hrest
  exact ⟨ct2, enc, hct2', henc, rfl⟩

variable {uc : UnchunkedCt1Sent}

/-- A key that is accepted has the length of one. -/
theorem recvEk_ok {ek : Bytes} {next : UnchunkedCt1SentEkReceived}
    (h : uc.recvEk kem epoch ek = .ok next) :
    ek.length = mlkemEncapsulationKeySize ∧ next =
      { epoch := uc.epoch, auth := uc.auth, encaps := uc.encaps, ek, ct1 := uc.ct1 } := by
  unfold UnchunkedCt1Sent.recvEk at h
  split at h
  · cases h
  · split at h
    · cases h
    · rename_i hmatch
      cases h
      refine ⟨?_, rfl⟩
      by_contra hlen
      apply hmatch
      rw [mlkemEKMatchesHeader, if_pos (.inl hlen)]
      exact Bool.false_ne_true

theorem ct1SampledRecvEkChunk_ok {ack : Bool}
    (h : ct1SampledRecvEkChunk p kem uc enc dec epoch c ack = .ok st) :
    ((dec.addChunk c).decodedMessage = .ok none ∧
      st = if ack then .ct1Acknowledged uc (dec.addChunk c)
        else .ct1Sampled uc enc (dec.addChunk c)) ∨
    ∃ ek next, (dec.addChunk c).decodedMessage = .ok (some ek) ∧
      uc.recvEk kem epoch ek = .ok next ∧
      (if ack then sampleCt2 p kem next else .ok (.ekReceivedCt1Sampled next enc)) = .ok st := by
  obtain ⟨out, hout, h⟩ := bind_eq_ok.mp h
  cases out with
  | none =>
    refine .inl ⟨hout, ?_⟩
    cases ack <;> cases h <;> rfl
  | some ek =>
    obtain ⟨next, hnext, h⟩ := bind_eq_ok.mp h
    refine .inr ⟨ek, next, hout, hnext, ?_⟩
    cases ack <;> exact h

theorem ct1AcknowledgedRecvEkChunk_ok
    (h : ct1AcknowledgedRecvEkChunk p kem uc dec epoch c = .ok st) :
    ((dec.addChunk c).decodedMessage = .ok none ∧ st = .ct1Acknowledged uc (dec.addChunk c)) ∨
    ∃ ek next, (dec.addChunk c).decodedMessage = .ok (some ek) ∧
      uc.recvEk kem epoch ek = .ok next ∧ sampleCt2 p kem next = .ok st := by
  obtain ⟨out, hout, h⟩ := bind_eq_ok.mp h
  cases out with
  | none =>
    cases h
    exact .inl ⟨hout, rfl⟩
  | some ek =>
    obtain ⟨next, hnext, h⟩ := bind_eq_ok.mp h
    exact .inr ⟨ek, next, hout, hnext, h⟩

/-- The second part of the ciphertext keeps the epoch. -/
theorem sampleCt2_effect {uc : UnchunkedCt1SentEkReceived}
    (hek : uc.ek.length = mlkemEncapsulationKeySize) (h : sampleCt2 p kem uc = .ok st) :
    st.Valid ∧ st.epoch = uc.epoch ∧ st.sampled = true ∧ st.spoke = true := by
  obtain ⟨ct2, enc, hct2, henc, rfl⟩ := sampleCt2_ok h
  obtain ⟨ct2', hct2', hlen⟩ := mlkemEncaps2_ok kem uc.encaps hek
  rw [hct2] at hct2'
  cases hct2'
  obtain ⟨hvalid, -, hmsg⟩ := newPolyEncoder_valid henc
  exact ⟨⟨hvalid, by rw [hmsg]; simp [hlen, ct2MessageSize]⟩, rfl, rfl, rfl⟩

theorem stay_self (hs : s.Valid) (h : msg.epoch ≤ s.epoch) (hr : r = { key := none, state := s }) :
    r.state.Valid ∧ RecvEffect s msg r := by
  subst hr
  exact ⟨hs, .stay rfl rfl rfl rfl h⟩

/-- Only messages of the current epoch are left to look at. -/
theorem recvAt_effect {current : Except Err V1Recv} (hs : s.Valid)
    (h : s.recvAt msg current = .ok r)
    (hcur : msg.epoch = s.epoch → current = .ok r → r.state.Valid ∧ RecvEffect s msg r) :
    r.state.Valid ∧ RecvEffect s msg r := by
  rcases recvAt_ok h with ⟨hlt, rfl⟩ | ⟨heq, hok⟩
  · exact stay_self hs (UInt64.le_of_lt hlt) rfl
  · exact hcur heq hok

/-- The secret of the epoch was made before, and a part of the ciphertext follows. -/
theorem sampled_effect {next : Except Err V1States} (hnext : withoutKey next = .ok r)
    (he : msg.epoch = s.epoch) (hsampled : s.sampled = true) (hspoke : s.spoke = true)
    (h : ∀ st, next = .ok st → st.Valid ∧ st.epoch = s.epoch ∧ st.sampled = true ∧
      st.spoke = true) :
    r.state.Valid ∧ RecvEffect s msg r := by
  obtain ⟨st, hst, rfl⟩ := withoutKey_ok hnext
  obtain ⟨hvalid, hepoch, hst1, hst2⟩ := h st hst
  exact ⟨hvalid, .stay rfl hepoch (hst1.trans hsampled.symm) (hst2.trans hspoke.symm)
    (he ▸ UInt64.le_refl _)⟩

theorem keysSampled_effect {uc : UnchunkedHeaderSent} (hs : (V1States.keysSampled uc enc).Valid)
    (h : (V1States.keysSampled uc enc).recv p kem msg = .ok r) :
    r.state.Valid ∧ RecvEffect (.keysSampled uc enc) msg r := by
  refine recvAt_effect hs h fun he hcur => ?_
  split at hcur
  · obtain ⟨st, hst, rfl⟩ := withoutKey_ok hcur
    obtain ⟨dec, enc', hdec, henc', rfl⟩ := keysSampledRecvCt1Chunk_ok hst
    obtain ⟨dec', hdec', hawaits⟩ := newPolyDecoder_ok mlkemCiphertext1Size (by decide)
    rw [hdec] at hdec'
    cases hdec'
    obtain ⟨hvalid, -, hmsg⟩ := newPolyEncoder_valid henc'
    exact ⟨⟨hs.1.2, ⟨hvalid, by rw [hmsg]; exact hs.1.1⟩, hawaits.addChunk _⟩,
      .stay rfl rfl rfl rfl (he ▸ UInt64.le_refl _)⟩
  · exact stay_self hs (he ▸ UInt64.le_refl _) (Except.ok.inj hcur).symm

theorem headerSent_effect {uc : UnchunkedEkSent} (hs : (V1States.headerSent uc enc dec).Valid)
    (h : (V1States.headerSent uc enc dec).recv p kem msg = .ok r) :
    r.state.Valid ∧ RecvEffect (.headerSent uc enc dec) msg r := by
  refine recvAt_effect hs h fun he hcur => ?_
  split at hcur
  · obtain ⟨st, hst, rfl⟩ := withoutKey_ok hcur
    have hawaits := fun c => hs.2.2.addChunk c
    rcases headerSentRecvCt1Chunk_ok hst with ⟨-, rfl⟩ | ⟨ct1, hdec, rfl⟩
    · exact ⟨⟨hs.1, hs.2.1, hawaits _⟩, .stay rfl rfl rfl rfl (he ▸ UInt64.le_refl _)⟩
    · exact ⟨⟨⟨hs.1, length_decodedMessage (hawaits _) hdec⟩, hs.2.1⟩,
        .stay rfl rfl rfl rfl (he ▸ UInt64.le_refl _)⟩
  · exact stay_self hs (he ▸ UInt64.le_refl _) (Except.ok.inj hcur).symm

theorem ct1Received_effect {uc : UnchunkedEkSentCt1Received}
    (hs : (V1States.ct1Received uc enc).Valid)
    (h : (V1States.ct1Received uc enc).recv p kem msg = .ok r) :
    r.state.Valid ∧ RecvEffect (.ct1Received uc enc) msg r := by
  refine recvAt_effect hs h fun he hcur => ?_
  split at hcur
  · obtain ⟨st, hst, rfl⟩ := withoutKey_ok hcur
    obtain ⟨dec, hdec, hst⟩ := bind_eq_ok.mp hst
    cases hst
    obtain ⟨dec', hdec', hawaits⟩ := newPolyDecoder_ok ct2MessageSize (by decide)
    rw [ct2MessageSize, hdec] at hdec'
    cases hdec'
    exact ⟨⟨hs.1, hawaits.addChunk _⟩, .stay rfl rfl rfl rfl (he ▸ UInt64.le_refl _)⟩
  · exact stay_self hs (he ▸ UInt64.le_refl _) (Except.ok.inj hcur).symm

/-- The state in which the secret of the epoch is made. -/
theorem ekSentCt1Received_effect {uc : UnchunkedEkSentCt1Received}
    (hs : (V1States.ekSentCt1Received uc dec).Valid)
    (h : (V1States.ekSentCt1Received uc dec).recv p kem msg = .ok r) :
    r.state.Valid ∧ RecvEffect (.ekSentCt1Received uc dec) msg r := by
  refine recvAt_effect hs h fun he hcur => ?_
  split at hcur
  · rcases ekSentCt1ReceivedRecvCt2Chunk_ok hcur with ⟨-, rfl⟩ |
      ⟨_, secret, auth, dec', -, hdec', rfl⟩
    · exact ⟨⟨hs.1, hs.2.addChunk _⟩, .stay rfl rfl rfl rfl (he ▸ UInt64.le_refl _)⟩
    · obtain ⟨dec'', hdec'', hawaits⟩ := newPolyDecoder_ok hdrMessageSize (by decide)
      rw [hdec'] at hdec''
      cases hdec''
      exact ⟨hawaits, .finish rfl rfl rfl rfl rfl he⟩
  · exact stay_self hs (he ▸ UInt64.le_refl _) (Except.ok.inj hcur).symm

theorem noHeaderReceived_effect {uc : UnchunkedNoHeaderReceived}
    (hs : (V1States.noHeaderReceived uc dec).Valid)
    (h : (V1States.noHeaderReceived uc dec).recv p kem msg = .ok r) :
    r.state.Valid ∧ RecvEffect (.noHeaderReceived uc dec) msg r := by
  refine recvAt_effect hs h fun he hcur => ?_
  split at hcur
  · obtain ⟨st, hst, rfl⟩ := withoutKey_ok hcur
    rcases noHeaderReceivedRecvHdrChunk_ok hst with ⟨-, rfl⟩ | ⟨hdr, dec', hdec', hlen, rfl⟩
    · exact ⟨PolyDecoder.Awaits.addChunk hs _, .stay rfl rfl rfl rfl (he ▸ UInt64.le_refl _)⟩
    · obtain ⟨dec'', hdec'', hawaits⟩ := newPolyDecoder_ok mlkemEncapsulationKeySize
        (by decide)
      rw [hdec'] at hdec''
      cases hdec''
      exact ⟨⟨hlen, hawaits⟩, .stay rfl rfl rfl rfl (he ▸ UInt64.le_refl _)⟩
  · exact stay_self hs (he ▸ UInt64.le_refl _) (Except.ok.inj hcur).symm

theorem ct1Sampled_effect (hs : (V1States.ct1Sampled uc enc dec).Valid)
    (h : (V1States.ct1Sampled uc enc dec).recv p kem msg = .ok r) :
    r.state.Valid ∧ RecvEffect (.ct1Sampled uc enc dec) msg r := by
  refine recvAt_effect hs h fun he hcur => ?_
  split at hcur
  · refine sampled_effect hcur he rfl rfl fun st hst => ?_
    rcases ct1SampledRecvEkChunk_ok hst with ⟨-, rfl⟩ | ⟨ek, next, -, hnext, hst⟩
    · split
      · exact ⟨⟨hs.1, hs.2.2.addChunk _⟩, rfl, rfl, rfl⟩
      · exact ⟨⟨hs.1, hs.2.1, hs.2.2.addChunk _⟩, rfl, rfl, rfl⟩
    · obtain ⟨hlen, rfl⟩ := recvEk_ok hnext
      split at hst
      · exact sampleCt2_effect hlen hst
      · cases hst
        exact ⟨⟨⟨hlen, hs.1.2⟩, hs.2.1⟩, rfl, rfl, rfl⟩
  · exact stay_self hs (he ▸ UInt64.le_refl _) (Except.ok.inj hcur).symm

theorem ekReceivedCt1Sampled_effect {uc : UnchunkedCt1SentEkReceived}
    (hs : (V1States.ekReceivedCt1Sampled uc enc).Valid)
    (h : (V1States.ekReceivedCt1Sampled uc enc).recv p kem msg = .ok r) :
    r.state.Valid ∧ RecvEffect (.ekReceivedCt1Sampled uc enc) msg r := by
  refine recvAt_effect hs h fun he hcur => ?_
  split at hcur
  · exact sampled_effect hcur he rfl rfl fun st hst => sampleCt2_effect hs.1.1 hst
  · exact stay_self hs (he ▸ UInt64.le_refl _) (Except.ok.inj hcur).symm

theorem ct1Acknowledged_effect (hs : (V1States.ct1Acknowledged uc dec).Valid)
    (h : (V1States.ct1Acknowledged uc dec).recv p kem msg = .ok r) :
    r.state.Valid ∧ RecvEffect (.ct1Acknowledged uc dec) msg r := by
  refine recvAt_effect hs h fun he hcur => ?_
  split at hcur
  · refine sampled_effect hcur he rfl rfl fun st hst => ?_
    rcases ct1AcknowledgedRecvEkChunk_ok hst with ⟨-, rfl⟩ | ⟨ek, next, -, hnext, hst⟩
    · exact ⟨⟨hs.1, hs.2.addChunk _⟩, rfl, rfl, rfl⟩
    · obtain ⟨hlen, rfl⟩ := recvEk_ok hnext
      exact sampleCt2_effect hlen hst
  · exact stay_self hs (he ▸ UInt64.le_refl _) (Except.ok.inj hcur).symm

/-- The state that the next epoch ends. -/
theorem ct2Sampled_effect {uc : UnchunkedCt2Sent} (hs : (V1States.ct2Sampled uc enc).Valid)
    (h : (V1States.ct2Sampled uc enc).recv p kem msg = .ok r) :
    r.state.Valid ∧ RecvEffect (.ct2Sampled uc enc) msg r := by
  simp only [V1States.recv] at h
  split at h
  · rename_i hlt
    split at h
    · rename_i heq
      obtain ⟨st, hst, rfl⟩ := withoutKey_ok h
      rw [UnchunkedCt2Sent.recvNextEpoch, if_neg (by simpa using heq)] at hst
      cases hst
      exact ⟨trivial, .next rfl rfl rfl rfl rfl rfl hlt heq⟩
    · cases h
  · rename_i hle
    exact stay_self hs (UInt64.not_lt.mp hle) (Except.ok.inj h).symm

/-- **Receiving**, whatever the message. -/
theorem recv_effect (hs : s.Valid) (h : s.recv p kem msg = .ok r) :
    r.state.Valid ∧ RecvEffect s msg r := by
  cases s with
  | keysUnsampled uc =>
    simp only [V1States.recv] at h
    split at h
    · cases h
    · rename_i hle
      exact stay_self hs (UInt64.not_lt.mp hle) (Except.ok.inj h).symm
  | keysSampled uc enc => exact keysSampled_effect hs h
  | headerSent uc enc dec => exact headerSent_effect hs h
  | ct1Received uc enc => exact ct1Received_effect hs h
  | ekSentCt1Received uc dec => exact ekSentCt1Received_effect hs h
  | noHeaderReceived uc dec => exact noHeaderReceived_effect hs h
  | headerReceived uc dec =>
    refine recvAt_effect hs h fun he hcur => ?_
    exact stay_self hs (he ▸ UInt64.le_refl _) (Except.ok.inj hcur).symm
  | ct1Sampled uc enc dec => exact ct1Sampled_effect hs h
  | ekReceivedCt1Sampled uc enc => exact ekReceivedCt1Sampled_effect hs h
  | ct1Acknowledged uc dec => exact ct1Acknowledged_effect hs h
  | ct2Sampled uc enc => exact ct2Sampled_effect hs h

end Recv

end SignalGo.Spqr
