import SignalGo.Spqr.Round

/-!
# A round runs to its end

The two handshakes of an epoch, when every message arrives at once: the header goes over, then the
first part of the ciphertext, the key, and the second part of the ciphertext. A turn is one send
together with the receive of its message.

* `Fed`: the chunks of a message, up to a number, are at the decoder.
* `Turn`: one party sends and the other receives, in a given epoch of the sender.
* `round_completes`: from the start of an epoch there are turns that end it.
-/

namespace SignalGo.Spqr

/-! ## Chunks in order -/

/-- The encoder has sent the chunks below `k` of the message, and the decoder has them. -/
structure Fed (msg : Bytes) (enc : PolyEncoder) (dec : PolyDecoder) (k : Nat) : Prop where
  carries : enc.Carries msg
  idx : enc.idx = UInt32.ofNat k
  collected : Collected (symbolsOf msg) ((Finset.range k).image UInt16.ofNat) dec

section Fed

variable {msg : Bytes} {enc : PolyEncoder} {dec : PolyDecoder} {k : Nat}

/-- Nothing was sent yet. -/
theorem Fed.start {size : Nat} (hcarries : enc.Carries msg) (hidx : enc.idx = 0)
    (hdec : newPolyDecoder size = .ok dec) (hlen : msg.length = size) (heven : size % 2 = 0) :
    Fed msg enc dec 0 :=
  ⟨hcarries, hidx, newPolyDecoder_collected hdec hlen heven⟩

/-- The numbers below `k` are different as indices of chunks. -/
theorem card_indices (h : k ≤ 2 ^ 16) : ((Finset.range k).image UInt16.ofNat).card = k := by
  rw [Finset.card_image_of_injOn, Finset.card_range]
  intro a ha b hb hab
  have ha' := Finset.mem_range.mp ha
  have hb' := Finset.mem_range.mp hb
  have hnat := congrArg UInt16.toNat hab
  rw [UInt16.toNat_ofNat', UInt16.toNat_ofNat'] at hnat
  omega

/-- What the decoder has behind one more chunk. -/
theorem Fed.collected_next (h : Fed msg enc dec k) :
    Collected (symbolsOf msg) ((Finset.range (k + 1)).image UInt16.ofNat)
      (dec.addChunk enc.nextChunk.2) := by
  have hindex : enc.nextChunk.2.index = UInt16.ofNat k := by
    show enc.idx.toUInt16 = _
    rw [h.idx]
    apply UInt16.toNat_inj.mp
    simp
  have hadd := h.collected.addChunk enc.nextChunk.2 fun j => by
    show (enc.chunkAt enc.idx.toUInt16).symbol j = _
    rw [symbol_chunkAt h.carries.1, h.carries.2]
    rfl
  rwa [Finset.range_add_one, Finset.image_insert, ← hindex]

/-- A chunk that is not the last one. -/
theorem Fed.next (h : Fed msg enc dec k) (hm : Codeable msg) (hk : k + 1 < (msg.length + 31) / 32) :
    (dec.addChunk enc.nextChunk.2).decodedMessage = .ok none ∧
      Fed msg enc.nextChunk.1 (dec.addChunk enc.nextChunk.2) (k + 1) := by
  have hmax := hm.max
  have heven := hm.even
  have hlen := length_symbolsOf msg
  have hadd := h.collected_next
  refine ⟨hadd.decodedMessage_none ?_, h.carries.nextChunk, ?_, hadd⟩
  · rw [card_indices (by omega)]
    omega
  · show enc.idx + 1 = _
    rw [h.idx]
    exact (UInt32.ofNat_add k 1).symm

/-- The last chunk gives the message. -/
theorem Fed.last (h : Fed msg enc dec k) (hm : Codeable msg) (hk : k + 1 = (msg.length + 31) / 32) :
    (dec.addChunk enc.nextChunk.2).decodedMessage = .ok (some msg) := by
  have hmax := hm.max
  have hmin := hm.min
  have heven := hm.even
  have hlen := length_symbolsOf msg
  have hadd := h.collected_next
  rw [hadd.decodedMessage_some (by omega) (by omega), flatMap_symbolsOf msg heven]
  rw [card_indices (by omega)]
  omega

end Fed

/-! ## Turns -/

variable (p : Prims) (kem : Kem) (rnd : Rand)

/-- The party `x`, in epoch `e`, sends, and the other one receives the message. The receiver is in
that epoch behind it, or in the next one. -/
structure Turn (e : UInt64) (v : Party → V1States) (x : Party) (v' : Party → V1States) : Prop where
  epoch : (v x).epoch = e
  exchanged : ∃ w out r, (v x).send p kem rnd = (w, .ok out) ∧
    (v x.other).recv p kem out.msg = .ok r ∧ v' x = out.state ∧ v' x.other = r.state
  near : (v' x.other).epoch = e ∨ (v' x.other).epoch = e + 1

/-- The handshakes of the party `x` of the key and of the other one. -/
def sides (x : Party) (key ct : V1States) : Party → V1States := Function.update (fun _ => ct) x key

section

variable {p kem rnd} {e : UInt64} {x : Party} {a a' b b' w : V1States}

@[simp] theorem sides_self (x : Party) (a b : V1States) : sides x a b x = a :=
  Function.update_self _ _ _

@[simp] theorem sides_other (x : Party) (a b : V1States) : sides x a b x.other = b :=
  Function.update_of_ne x.other_ne _ _

/-- With the roles changed. -/
theorem sides_swap (x : Party) (a b : V1States) : sides x.other a b = sides x b a := by
  funext y
  rcases x.eq_or_other y with rfl | rfl
  · rw [sides_self]
    have h := sides_other y.other a b
    rwa [Party.other_other] at h
  · rw [sides_self, sides_other]

/-- The party of the key has its turn. -/
theorem Turn.ofKey {msg : V1Message} {secret : Option EpochSecret}
    (hsend : a.send p kem rnd = (w, .ok { msg, key := secret, state := a' }))
    (hrecv : b.recv p kem msg = .ok { key := none, state := b' }) (hepoch : a.epoch = e)
    (hnear : b'.epoch = e ∨ b'.epoch = e + 1) :
    Turn p kem rnd e (sides x a b) x (sides x a' b') where
  epoch := by rwa [sides_self]
  exchanged := ⟨w, _, _, by rwa [sides_self], by rwa [sides_other], by rw [sides_self],
    by rw [sides_other]⟩
  near := by rwa [sides_other]

/-- The party of the ciphertext has its turn. -/
theorem Turn.ofCt {msg : V1Message} {secret secret' : Option EpochSecret}
    (hsend : b.send p kem rnd = (w, .ok { msg, key := secret, state := b' }))
    (hrecv : a.recv p kem msg = .ok { key := secret', state := a' }) (hepoch : b.epoch = e)
    (hnear : a'.epoch = e ∨ a'.epoch = e + 1) :
    Turn p kem rnd e (sides x a b) x.other (sides x a' b') where
  epoch := by rwa [sides_other]
  exchanged := ⟨w, _, _, by rwa [sides_other], by rwa [Party.other_other, sides_self],
    by rw [sides_other], by rw [Party.other_other, sides_self]⟩
  near := by rwa [Party.other_other, sides_self]

/-- The run of at most `k` turns in epoch `e`. -/
def Reaches (p : Prims) (kem : Kem) (rnd : Rand) (e : UInt64) (k : Nat) (v v' : Party → V1States) :
    Prop :=
  ∃ xs, Run (Turn p kem rnd e) v xs v' ∧ xs.length ≤ k

theorem Reaches.trans {k k' : Nat} {v v' v'' : Party → V1States}
    (h : Reaches p kem rnd e k v v') (h' : Reaches p kem rnd e k' v' v'') :
    Reaches p kem rnd e (k + k') v v'' := by
  obtain ⟨xs, hrun, hlen⟩ := h
  obtain ⟨ys, hrun', hlen'⟩ := h'
  refine ⟨xs ++ ys, hrun.trans hrun', ?_⟩
  rw [List.length_append]
  omega

theorem Turn.reaches {y : Party} {v v' : Party → V1States} (h : Turn p kem rnd e v y v') :
    Reaches p kem rnd e 1 v v' :=
  ⟨[y], .single h, le_rfl⟩

/-! ## The four payloads

Each payload goes over in as many turns as it has chunks, and the last chunk lets the receiver go
on. `more` is the pair of states while chunks are missing, `done` the pair behind the last one. -/

/-- **A payload arrives**, by induction on the number of chunks behind the next one. -/
theorem payload_arrives {msg : Bytes} (hm : Codeable msg) {y : Party}
    (more : PolyEncoder → PolyDecoder → Party → V1States) (done : PolyEncoder → Party → V1States)
    (hmore : ∀ enc dec, (dec.addChunk enc.nextChunk.2).decodedMessage = .ok none →
      Turn p kem rnd e (more enc dec) y (more enc.nextChunk.1 (dec.addChunk enc.nextChunk.2)))
    (hdone : ∀ enc dec, (dec.addChunk enc.nextChunk.2).decodedMessage = .ok (some msg) →
      Turn p kem rnd e (more enc dec) y (done enc.nextChunk.1))
    (left : Nat) {enc : PolyEncoder} {dec : PolyDecoder} {k : Nat} (hfed : Fed msg enc dec k)
    (hk : k + left + 1 = (msg.length + 31) / 32) :
    ∃ enc', Reaches p kem rnd e (1 + left) (more enc dec) (done enc') := by
  induction left generalizing enc dec k with
  | zero => exact ⟨_, (hdone enc dec (hfed.last hm (by omega))).reaches⟩
  | succ left ih =>
    obtain ⟨hnone, hnext⟩ := hfed.next hm (by omega)
    obtain ⟨enc', hrest⟩ := ih hnext (by omega)
    have hall := (hmore enc dec hnone).reaches.trans hrest
    exact ⟨enc', by rwa [Nat.add_comm 1 left] at hall⟩

section Payloads

variable {r : Round} {seed : ByteArr 64} {enc : Encapsulation}

/-! The data of the two parties on their way through the round. -/

def Round.sampled (r : Round) (kem : Kem) (seed : ByteArr 64) : UnchunkedHeaderSent where
  epoch := r.epoch
  auth := r.auth
  ek := (mlkemKeysOfSeed kem seed).ek
  dk := (mlkemKeysOfSeed kem seed).dk

def Round.ekSent (r : Round) (kem : Kem) (seed : ByteArr 64) : UnchunkedEkSent where
  epoch := r.epoch
  auth := r.auth
  dk := (mlkemKeysOfSeed kem seed).dk

def Round.ct1Received (r : Round) (kem : Kem) (seed : ByteArr 64) (enc : Encapsulation) :
    UnchunkedEkSentCt1Received where
  epoch := r.epoch
  auth := r.auth
  dk := (mlkemKeysOfSeed kem seed).dk
  ct1 := enc.ct1

def Round.waits (r : Round) : UnchunkedNoHeaderReceived where
  epoch := r.epoch
  auth := r.auth

def Round.headerReceived (r : Round) (kem : Kem) (seed : ByteArr 64) : UnchunkedHeaderReceived where
  epoch := r.epoch
  auth := r.auth
  hdr := (mlkemKeysOfSeed kem seed).hdr

def Round.ct1Sent (p : Prims) (kem : Kem) (r : Round) (seed : ByteArr 64) (enc : Encapsulation) :
    UnchunkedCt1Sent where
  epoch := r.epoch
  auth := r.nextAuth p enc
  hdr := (mlkemKeysOfSeed kem seed).hdr
  encaps := enc.state
  ct1 := enc.ct1

def Round.ct2Sent (p : Prims) (r : Round) (enc : Encapsulation) : UnchunkedCt2Sent where
  epoch := r.epoch
  auth := r.nextAuth p enc

variable (p kem x r)

/-- The header: three chunks, of which the first also draws the key pair. -/
theorem hdr_arrives (hrnd : ∀ n, ∃ bs, rnd n = .ok bs) {dec dec' : PolyDecoder}
    (hdec : newPolyDecoder hdrMessageSize = .ok dec)
    (hdec' : newPolyDecoder mlkemEncapsulationKeySize = .ok dec') :
    ∃ seed sendingHdr, Reaches p kem rnd r.epoch 3
      (sides x (.keysUnsampled { epoch := r.epoch, auth := r.auth })
        (.noHeaderReceived r.waits dec))
      (sides x (.keysSampled (r.sampled kem seed) sendingHdr)
        (.headerReceived (r.headerReceived kem seed) dec')) := by
  rcases firstHdrChunk_cases p kem rnd { epoch := r.epoch, auth := r.auth } with
    ⟨e, herr, -⟩ | ⟨seed, enc, -, hidx, hcarries, hfirst⟩
  · obtain ⟨bs, hbs⟩ := hrnd 64
    rw [hbs] at herr
    cases herr
  · have hm : Codeable (r.hdrMsg p kem seed) := r.codeable_hdrMsg seed
    have hlen : (r.hdrMsg p kem seed).length = 96 := r.length_hdrMsg seed
    have hfed : Fed (r.hdrMsg p kem seed) enc dec 0 :=
      .start hcarries hidx hdec (r.length_hdrMsg seed) (by decide)
    obtain ⟨hnone, hnext⟩ := hfed.next hm (by omega)
    -- the first chunk, for which the key pair is drawn
    have hturn : Turn p kem rnd r.epoch
        (sides x (.keysUnsampled { epoch := r.epoch, auth := r.auth })
          (.noHeaderReceived r.waits dec)) x
        (sides x (.keysSampled (r.sampled kem seed) enc.nextChunk.1)
          (.noHeaderReceived r.waits (dec.addChunk enc.nextChunk.2))) :=
      .ofKey (by rw [V1States.send, hfirst]; rfl) (recv_hdr_more hnone) rfl (.inl rfl)
    -- behind the last one the header is complete
    have hheader : ∀ (dec : PolyDecoder) (c : Chunk),
        (dec.addChunk c).decodedMessage = .ok (some (r.hdrMsg p kem seed)) →
        (V1States.noHeaderReceived r.waits dec).recv p kem (chunkMessage r.epoch messageTypeHdr c)
          = .ok { key := none, state := .headerReceived (r.headerReceived kem seed) dec' } := by
      intro dec c h
      refine (recv_hdr_full h).trans ?_
      rw [Round.waits, recvDecodedHdr_eq seed hdec']
      rfl
    obtain ⟨sendingHdr, hrest⟩ := payload_arrives hm
      (fun enc dec => sides x (.keysSampled (r.sampled kem seed) enc)
        (.noHeaderReceived r.waits dec))
      (fun enc => sides x (.keysSampled (r.sampled kem seed) enc)
        (.headerReceived (r.headerReceived kem seed) dec'))
      (fun _ _ h => .ofKey rfl (recv_hdr_more h) rfl (.inl rfl))
      (fun _ _ h => .ofKey rfl (hheader _ _ h) rfl (.inl rfl)) 1 hnext (by omega)
    exact ⟨seed, sendingHdr, hturn.reaches.trans hrest⟩

/-- The first part of the ciphertext: thirty chunks, of which the first also makes the
encapsulation. -/
theorem ct1_arrives (hrnd : ∀ n, ∃ bs, rnd n = .ok bs) (seed : ByteArr 64)
    (sendingHdr : PolyEncoder) (dec' : PolyDecoder) :
    ∃ enc sendingEk sendingCt1, Round.Encapsulates kem seed enc ∧ sendingEk.idx = 0 ∧
      sendingEk.Carries (mlkemKeysOfSeed kem seed).ek ∧ Reaches p kem rnd r.epoch 30
        (sides x (.keysSampled (r.sampled kem seed) sendingHdr)
          (.headerReceived (r.headerReceived kem seed) dec'))
        (sides x (.ct1Received (r.ct1Received kem seed enc) sendingEk)
          (.ct1Sampled (r.ct1Sent p kem seed enc) sendingCt1 dec')) := by
  rcases firstCt1Chunk_cases p kem rnd (r.headerReceived kem seed) dec' (length_hdr seed) with
    ⟨e, herr, -⟩ | ⟨ct1, state, ss, enc, hencaps, hidx, hcarries, hfirst⟩
  · obtain ⟨bs, hbs⟩ := hrnd 32
    rw [hbs] at herr
    cases herr
  · have hek : (mlkemKeysOfSeed kem seed).ek.length = mlkemEncapsulationKeySize := length_ek seed
    obtain ⟨ct2, hct2, -⟩ := mlkemEncaps2_ok kem state hek
    obtain ⟨sendingEk, hnew, hidx', hcarries'⟩ := newPolyEncoder_carries _ hek (by decide)
      (by decide)
    obtain ⟨dec, hdec, -⟩ := newPolyDecoder_ok mlkemCiphertext1Size (by decide)
    -- the second part of the ciphertext is fixed with the first
    let encaps : Encapsulation := { ct1 := ct1, state, ss, ct2 }
    have hE : Round.Encapsulates kem seed encaps := ⟨⟨rnd, hencaps⟩, hct2⟩
    have hlen : ct1.length = 960 := hE.length_ct1
    have hfed : Fed ct1 enc dec 0 := .start hcarries hidx hdec hE.length_ct1 (by decide)
    obtain ⟨-, hnext⟩ := hfed.next hE.codeable_ct1 (by show 0 + 1 < (ct1.length + 31) / 32; omega)
    -- its first chunk also tells the other side to send the key
    have hturn : Turn p kem rnd r.epoch
        (sides x (.keysSampled (r.sampled kem seed) sendingHdr)
          (.headerReceived (r.headerReceived kem seed) dec')) x.other
        (sides x (.headerSent (r.ekSent kem seed) sendingEk (dec.addChunk enc.nextChunk.2))
          (.ct1Sampled (r.ct1Sent p kem seed encaps) enc.nextChunk.1 dec')) :=
      .ofCt (by rw [V1States.send, hfirst]; rfl) (recv_ct1_first hdec hnew) rfl (.inl rfl)
    obtain ⟨sendingCt1, hrest⟩ := payload_arrives hE.codeable_ct1
      (fun enc dec => sides x (.headerSent (r.ekSent kem seed) sendingEk dec)
        (.ct1Sampled (r.ct1Sent p kem seed encaps) enc dec'))
      (fun enc => sides x (.ct1Received (r.ct1Received kem seed encaps) sendingEk)
        (.ct1Sampled (r.ct1Sent p kem seed encaps) enc dec'))
      (fun _ _ h => .ofCt rfl (recv_ct1_more h) rfl (.inl rfl))
      (fun _ _ h => .ofCt rfl (recv_ct1_full h) rfl (.inl rfl)) 28 hnext
      (by show _ = (ct1.length + 31) / 32; omega)
    exact ⟨encaps, sendingEk, sendingCt1, hE, hidx', hcarries', hturn.reaches.trans hrest⟩

/-- The key: thirty-six chunks, of which the first also acknowledges the first part of the
ciphertext. -/
theorem ek_arrives (laws : KemLaws kem) (rnd : Rand) (hE : Round.Encapsulates kem seed enc)
    {sendingEk : PolyEncoder} (sendingCt1 : PolyEncoder) {dec : PolyDecoder}
    (hidx : sendingEk.idx = 0)
    (hcarries : sendingEk.Carries (mlkemKeysOfSeed kem seed).ek)
    (hdec : newPolyDecoder mlkemEncapsulationKeySize = .ok dec) :
    ∃ sendingEk' sendingCt2, sendingCt2.idx = 0 ∧ sendingCt2.Carries (r.ct2Msg p enc) ∧
      Reaches p kem rnd r.epoch 36
        (sides x (.ct1Received (r.ct1Received kem seed enc) sendingEk)
          (.ct1Sampled (r.ct1Sent p kem seed enc) sendingCt1 dec))
        (sides x (.ct1Received (r.ct1Received kem seed enc) sendingEk')
          (.ct2Sampled (r.ct2Sent p enc) sendingCt2)) := by
  have hm : Codeable (mlkemKeysOfSeed kem seed).ek := codeable_ek seed
  have hlen : (mlkemKeysOfSeed kem seed).ek.length = 1152 := length_ek seed
  have hfed : Fed _ sendingEk dec 0 := .start hcarries hidx hdec (length_ek seed) (by decide)
  obtain ⟨hnone, hnext⟩ := hfed.next hm (by omega)
  obtain ⟨sendingCt2, hsample, hidx', hcarries'⟩ := sampleCt2_eq (p := p) (r := r) hE
  have hkind : messageTypeEkCt1Ack = messageTypeEk ∨ messageTypeEkCt1Ack = messageTypeEkCt1Ack :=
    .inr rfl
  -- with the whole key the second part of the ciphertext is made
  have hkey : ∀ (dec : PolyDecoder) (c : Chunk),
      (dec.addChunk c).decodedMessage = .ok (some (mlkemKeysOfSeed kem seed).ek) →
      (V1States.ct1Acknowledged (r.ct1Sent p kem seed enc) dec).recv p kem
          (chunkMessage r.epoch messageTypeEkCt1Ack c)
        = .ok { key := none, state := .ct2Sampled (r.ct2Sent p enc) sendingCt2 } := by
    intro dec c h
    refine (recv_ek_acknowledged hkind).trans ?_
    simp only [ct1AcknowledgedRecvEkChunk, h, ok_bind, Round.ct1Sent, recvEk_eq laws seed, hsample]
    rfl
  have hturn : Turn p kem rnd r.epoch
      (sides x (.ct1Received (r.ct1Received kem seed enc) sendingEk)
        (.ct1Sampled (r.ct1Sent p kem seed enc) sendingCt1 dec)) x
      (sides x (.ct1Received (r.ct1Received kem seed enc) sendingEk.nextChunk.1)
        (.ct1Acknowledged (r.ct1Sent p kem seed enc) (dec.addChunk sendingEk.nextChunk.2))) :=
    .ofKey rfl (recv_ekAck_more hnone) rfl (.inl rfl)
  obtain ⟨sendingEk', hrest⟩ := payload_arrives hm
    (fun enc' dec => sides x (.ct1Received (r.ct1Received kem seed enc) enc')
      (.ct1Acknowledged (r.ct1Sent p kem seed enc) dec))
    (fun enc' => sides x (.ct1Received (r.ct1Received kem seed enc) enc')
      (.ct2Sampled (r.ct2Sent p enc) sendingCt2))
    (fun _ _ h => .ofKey rfl (recv_ek_acknowledged_more hkind h) rfl (.inl rfl))
    (fun _ _ h => .ofKey rfl (hkey _ _ h) rfl (.inl rfl)) 34 hnext (by omega)
  exact ⟨sendingEk', sendingCt2, hidx', hcarries', hturn.reaches.trans hrest⟩

/-- The second part of the ciphertext: five chunks. Behind the last one the party of the key has
the secret and is in the next epoch. -/
theorem ct2_arrives (laws : KemLaws kem) (rnd : Rand) (hE : Round.Encapsulates kem seed enc)
    (sendingEk : PolyEncoder) {sendingCt2 : PolyEncoder} {dec' : PolyDecoder}
    (hidx : sendingCt2.idx = 0)
    (hcarries : sendingCt2.Carries (r.ct2Msg p enc))
    (hdec' : newPolyDecoder hdrMessageSize = .ok dec') :
    ∃ sendingCt2', Reaches p kem rnd r.epoch 5
      (sides x (.ct1Received (r.ct1Received kem seed enc) sendingEk)
        (.ct2Sampled (r.ct2Sent p enc) sendingCt2))
      (sides x (.noHeaderReceived { epoch := r.epoch + 1, auth := r.nextAuth p enc } dec')
        (.ct2Sampled (r.ct2Sent p enc) sendingCt2')) := by
  have hm := hE.codeable_ct2Msg (p := p) r
  have hlen : (r.ct2Msg p enc).length = 160 := hE.length_ct2Msg r
  obtain ⟨dec, hdec, -⟩ := newPolyDecoder_ok ct2MessageSize (by decide)
  have hfed : Fed _ sendingCt2 dec 0 := .start hcarries hidx hdec (hE.length_ct2Msg r) (by decide)
  obtain ⟨-, hnext⟩ := hfed.next hm (by omega)
  have hturn : Turn p kem rnd r.epoch
      (sides x (.ct1Received (r.ct1Received kem seed enc) sendingEk)
        (.ct2Sampled (r.ct2Sent p enc) sendingCt2)) x.other
      (sides x (.ekSentCt1Received (r.ct1Received kem seed enc)
          (dec.addChunk sendingCt2.nextChunk.2))
        (.ct2Sampled (r.ct2Sent p enc) sendingCt2.nextChunk.1)) :=
    .ofCt rfl (recv_ct2_first hdec) rfl (.inl rfl)
  obtain ⟨sendingCt2', hrest⟩ := payload_arrives hm
    (fun enc' dec => sides x (.ekSentCt1Received (r.ct1Received kem seed enc) dec)
      (.ct2Sampled (r.ct2Sent p enc) enc'))
    (fun enc' => sides x
      (.noHeaderReceived { epoch := r.epoch + 1, auth := r.nextAuth p enc } dec')
      (.ct2Sampled (r.ct2Sent p enc) enc'))
    (fun _ _ h => .ofCt rfl (recv_ct2_more h) rfl (.inl rfl))
    (fun _ _ h => .ofCt rfl ((recv_ct2_full h).trans (recvDecodedCt2_eq laws hE hdec')) rfl
      (.inr rfl)) 3 hnext (by omega)
  exact ⟨sendingCt2', hturn.reaches.trans hrest⟩

end Payloads

/-- **A round completes.** From the start of an epoch, 74 turns later, the party of the key is in
the next epoch and the other one has sent all of the ciphertext. -/
theorem round_completes (laws : KemLaws kem) (hrnd : ∀ n, ∃ bs, rnd n = .ok bs) (x : Party)
    (r : Round)
    {dec : PolyDecoder} (hdec : newPolyDecoder hdrMessageSize = .ok dec) :
    ∃ auth sendingCt2, Reaches p kem rnd r.epoch 74
      (sides x (.keysUnsampled { epoch := r.epoch, auth := r.auth })
        (.noHeaderReceived { epoch := r.epoch, auth := r.auth } dec))
      (sides x (.noHeaderReceived { epoch := r.epoch + 1, auth } dec)
        (.ct2Sampled { epoch := r.epoch, auth } sendingCt2)) := by
  obtain ⟨dec', hdec', -⟩ := newPolyDecoder_ok mlkemEncapsulationKeySize (by decide)
  obtain ⟨seed, sendingHdr, hhdr⟩ := hdr_arrives p kem x r hrnd hdec hdec'
  obtain ⟨enc, sendingEk, sendingCt1, hE, hidx, hcarries, hct1⟩ :=
    ct1_arrives p kem x r hrnd seed sendingHdr dec'
  obtain ⟨sendingEk', sendingCt2, hidx', hcarries', hek⟩ :=
    ek_arrives p kem x r laws rnd hE sendingCt1 hidx hcarries hdec'
  obtain ⟨sendingCt2', hct2⟩ := ct2_arrives p kem x r laws rnd hE sendingEk' hidx' hcarries' hdec
  exact ⟨_, sendingCt2', ((hhdr.trans hct1).trans hek).trans hct2⟩

end

end SignalGo.Spqr
