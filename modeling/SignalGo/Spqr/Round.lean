import SignalGo.Lib.Runs
import SignalGo.Spqr.Erasure
import SignalGo.Spqr.Transitions

/-!
# One round of the key agreement

In every epoch one party sends an encapsulation key and the other one the ciphertext. What the two
have agreed on so far is the ghost data of a `Round`: the seed of the key pair once it is drawn,
the encapsulation once it is made, and how far the two are.

* `KeySide`, `CtSide`: the states of the two parties that fit the data of the round.
* `MsgOk`: the messages that fit it.
* `KeySide.send`, `CtSide.send`: what is sent fits.
* `KeySide.recv`, `CtSide.recv`: a message that fits is never refused, and the state behind
  it fits again.
-/

namespace SignalGo.Spqr

/-! ## Messages in chunks -/

/-- A message the erasure code carries. -/
structure Codeable (msg : Bytes) : Prop where
  even : msg.length % 2 = 0
  min : 32 ≤ msg.length
  max : msg.length ≤ 2 ^ 20

/-- The chunk is one of the message. -/
def Chunk.Of (c : Chunk) (msg : Bytes) : Prop :=
  ∃ e : PolyEncoder, e.Carries msg ∧ c = e.chunkAt c.index

/-- The decoder has some chunks of the message, but not enough of them. -/
def PolyDecoder.Collects (d : PolyDecoder) (msg : Bytes) : Prop :=
  ∃ S : Finset UInt16, Collected (symbolsOf msg) S d ∧ S.card < (msg.length + 31) / 32

variable {size : Nat}

section Chunks

variable {msg : Bytes} {d : PolyDecoder} {c : Chunk}

theorem PolyEncoder.Carries.chunk_of {e : PolyEncoder} (h : e.Carries msg) :
    e.nextChunk.2.Of msg := ⟨e, h, rfl⟩

theorem newPolyDecoder_collected (hnew : newPolyDecoder size = .ok d) (hlen : msg.length = size)
    (heven : size % 2 = 0) :
    Collected (symbolsOf msg) ∅ d := by
  rw [newPolyDecoder, if_neg (by simpa using heven)] at hnew
  cases hnew
  refine ⟨rfl, ?_, ?_, fun j => .inr fun x hx => ?_⟩
  · rw [length_symbolsOf, hlen]
  · intro j x y hy
    simp at hy
  · cases Finset.notMem_empty x hx

theorem newPolyDecoder_collects (hnew : newPolyDecoder size = .ok d) (hm : Codeable msg)
    (hlen : msg.length = size) : d.Collects msg := by
  have hmin := hm.min
  exact ⟨∅, newPolyDecoder_collected hnew hlen (hlen ▸ hm.even), by rw [Finset.card_empty]; omega⟩

/-- One more chunk of the message completes it, or it does not. -/
theorem PolyDecoder.Collects.addChunk (h : d.Collects msg) (hm : Codeable msg) (hc : c.Of msg) :
    ((d.addChunk c).decodedMessage = .ok none ∧ (d.addChunk c).Collects msg) ∨
      (d.addChunk c).decodedMessage = .ok (some msg) := by
  obtain ⟨S, hS, -⟩ := h
  obtain ⟨e, he, hce⟩ := hc
  have heven := hm.even
  have hmin := hm.min
  have hmax := hm.max
  have hlen := length_symbolsOf msg
  have hadd := hS.addChunk c fun j => by
    rw [hce, symbol_chunkAt he.1, he.2]
    rfl
  rcases Nat.lt_or_ge (insert c.index S).card ((msg.length + 31) / 32) with hlt | hge
  · exact .inl ⟨hadd.decodedMessage_none (by omega), _, hadd, hlt⟩
  · right
    rw [hadd.decodedMessage_some (by omega) (by omega) (by omega), flatMap_symbolsOf msg heven]

end Chunks

/-! ## The data of a round -/

variable (p : Prims) (kem : Kem)

/-- An encapsulation in its two parts, with the shared secret. -/
structure Encapsulation where
  ct1 : Bytes
  state : MlkemEncapsulationState
  ss : Bytes
  ct2 : Bytes

/-- An epoch: who sends the key, the authenticator both start from, the seed of the key pair and
the encapsulation once they are there, whether the second part of the ciphertext is on its way,
and whether the sender of the key has finished. -/
structure Round where
  e : Nat
  keyParty : Party
  auth : Authenticator
  seed : Option (ByteArr 64)
  enc : Option Encapsulation
  ct2 : Bool
  done : Bool

namespace Round

def epoch (r : Round) : UInt64 := UInt64.ofNat r.e

/-- What is sent first: the header of the key and its MAC. -/
def hdrMsg (r : Round) (seed : ByteArr 64) : Bytes :=
  (mlkemKeysOfSeed kem seed).hdr ++ r.auth.macHdr p r.epoch (mlkemKeysOfSeed kem seed).hdr

/-- The secret of the epoch. -/
def secret (r : Round) (enc : Encapsulation) : Bytes := deriveSckaKey p r.epoch enc.ss

/-- The authenticator behind the secret. -/
def nextAuth (r : Round) (enc : Encapsulation) : Authenticator :=
  r.auth.update p r.epoch (r.secret p enc)

/-- What is sent last: the second part of the ciphertext and the MAC of both parts. -/
def ct2Msg (r : Round) (enc : Encapsulation) : Bytes :=
  enc.ct2 ++ (r.nextAuth p enc).macCt p r.epoch (enc.ct1 ++ enc.ct2)

/-- The encapsulation is one to the key of the seed. -/
structure Encapsulates (kem : Kem) (seed : ByteArr 64) (enc : Encapsulation) : Prop where
  first : ∃ rnd, mlkemEncaps1 kem (mlkemKeysOfSeed kem seed).hdr rnd
    = .ok (enc.ct1, enc.state, enc.ss)
  second : mlkemEncaps2 kem (mlkemKeysOfSeed kem seed).ek enc.state = .ok enc.ct2

structure Valid (kem : Kem) (r : Round) : Prop where
  pos : 1 ≤ r.e
  lt : r.e < 2 ^ 64
  enc : ∀ enc, r.enc = some enc → ∃ seed, r.seed = some seed ∧ Encapsulates kem seed enc

end Round

/-- The states of the party that sends the key. -/
inductive KeySide (r : Round) : V1States → Prop
  | keysUnsampled : r.done = false → r.seed = none →
      KeySide r (.keysUnsampled { epoch := r.epoch, auth := r.auth })
  | keysSampled {seed : ByteArr 64} {sendingHdr : PolyEncoder} : r.done = false →
      r.seed = some seed → sendingHdr.Carries (r.hdrMsg p kem seed) →
      KeySide r (.keysSampled
        { epoch := r.epoch, auth := r.auth, ek := (mlkemKeysOfSeed kem seed).ek
          dk := (mlkemKeysOfSeed kem seed).dk } sendingHdr)
  | headerSent {seed : ByteArr 64} {enc : Encapsulation} {sendingEk : PolyEncoder}
      {receivingCt1 : PolyDecoder} : r.done = false → r.seed = some seed → r.enc = some enc →
      sendingEk.Carries (mlkemKeysOfSeed kem seed).ek → receivingCt1.Collects enc.ct1 →
      KeySide r (.headerSent
        { epoch := r.epoch, auth := r.auth, dk := (mlkemKeysOfSeed kem seed).dk }
        sendingEk receivingCt1)
  | ct1Received {seed : ByteArr 64} {enc : Encapsulation} {sendingEk : PolyEncoder} :
      r.done = false → r.seed = some seed → r.enc = some enc →
      sendingEk.Carries (mlkemKeysOfSeed kem seed).ek →
      KeySide r (.ct1Received
        { epoch := r.epoch, auth := r.auth, dk := (mlkemKeysOfSeed kem seed).dk
          ct1 := enc.ct1 } sendingEk)
  | ekSentCt1Received {seed : ByteArr 64} {enc : Encapsulation} {receivingCt2 : PolyDecoder} :
      r.done = false → r.seed = some seed → r.enc = some enc → r.ct2 = true →
      receivingCt2.Collects (r.ct2Msg p enc) →
      KeySide r (.ekSentCt1Received
        { epoch := r.epoch, auth := r.auth, dk := (mlkemKeysOfSeed kem seed).dk
          ct1 := enc.ct1 } receivingCt2)
  -- the next epoch has begun, in which this party waits for a header
  | finished {enc : Encapsulation} {receivingHdr : PolyDecoder} : r.done = true →
      r.enc = some enc → r.ct2 = true → newPolyDecoder hdrMessageSize = .ok receivingHdr →
      KeySide r (.noHeaderReceived { epoch := r.epoch + 1, auth := r.nextAuth p enc } receivingHdr)

/-- The states of the party that sends the ciphertext. -/
inductive CtSide (r : Round) : V1States → Prop
  | idle {receivingHdr : PolyDecoder} : r.seed = none → r.ct2 = false →
      newPolyDecoder hdrMessageSize = .ok receivingHdr →
      CtSide r (.noHeaderReceived { epoch := r.epoch, auth := r.auth } receivingHdr)
  | noHeaderReceived {seed : ByteArr 64} {receivingHdr : PolyDecoder} : r.seed = some seed →
      r.enc = none → r.ct2 = false → receivingHdr.Collects (r.hdrMsg p kem seed) →
      CtSide r (.noHeaderReceived { epoch := r.epoch, auth := r.auth } receivingHdr)
  | headerReceived {seed : ByteArr 64} {receivingEk : PolyDecoder} : r.seed = some seed →
      r.enc = none → r.ct2 = false → newPolyDecoder mlkemEncapsulationKeySize = .ok receivingEk →
      CtSide r (.headerReceived
        { epoch := r.epoch, auth := r.auth, hdr := (mlkemKeysOfSeed kem seed).hdr } receivingEk)
  | ct1Sampled {seed : ByteArr 64} {enc : Encapsulation} {sendingCt1 : PolyEncoder}
      {receivingEk : PolyDecoder} : r.seed = some seed → r.enc = some enc → r.ct2 = false →
      sendingCt1.Carries enc.ct1 → receivingEk.Collects (mlkemKeysOfSeed kem seed).ek →
      CtSide r (.ct1Sampled
        { epoch := r.epoch, auth := r.nextAuth p enc, hdr := (mlkemKeysOfSeed kem seed).hdr
          encaps := enc.state, ct1 := enc.ct1 } sendingCt1 receivingEk)
  | ekReceivedCt1Sampled {seed : ByteArr 64} {enc : Encapsulation} {sendingCt1 : PolyEncoder} :
      r.seed = some seed → r.enc = some enc → r.ct2 = false → sendingCt1.Carries enc.ct1 →
      CtSide r (.ekReceivedCt1Sampled
        { epoch := r.epoch, auth := r.nextAuth p enc, encaps := enc.state
          ek := (mlkemKeysOfSeed kem seed).ek, ct1 := enc.ct1 } sendingCt1)
  | ct1Acknowledged {seed : ByteArr 64} {enc : Encapsulation} {receivingEk : PolyDecoder} :
      r.seed = some seed → r.enc = some enc → r.ct2 = false →
      receivingEk.Collects (mlkemKeysOfSeed kem seed).ek →
      CtSide r (.ct1Acknowledged
        { epoch := r.epoch, auth := r.nextAuth p enc, hdr := (mlkemKeysOfSeed kem seed).hdr
          encaps := enc.state, ct1 := enc.ct1 } receivingEk)
  | ct2Sampled {enc : Encapsulation} {sendingCt2 : PolyEncoder} : r.enc = some enc →
      r.ct2 = true → sendingCt2.Carries (r.ct2Msg p enc) →
      CtSide r (.ct2Sampled { epoch := r.epoch, auth := r.nextAuth p enc } sendingCt2)

/-- The messages of a party that fit the round. Nothing is known of the messages of older
epochs. -/
inductive MsgOk (r : Round) (x : Party) : V1Message → Prop
  | old {msg : V1Message} : msg.epoch.toNat < r.e → MsgOk r x msg
  | hdr {seed : ByteArr 64} {c : Chunk} : x = r.keyParty → r.seed = some seed →
      c.Of (r.hdrMsg p kem seed) → MsgOk r x (chunkMessage r.epoch messageTypeHdr c)
  | ek {seed : ByteArr 64} {c : Chunk} {kind : MessageType} : x = r.keyParty →
      r.seed = some seed → kind = messageTypeEk ∨ kind = messageTypeEkCt1Ack →
      c.Of (mlkemKeysOfSeed kem seed).ek → MsgOk r x (chunkMessage r.epoch kind c)
  | ct1Ack : x = r.keyParty → MsgOk r x (plainMessage r.epoch messageTypeCt1Ack)
  | none : x ≠ r.keyParty → MsgOk r x (plainMessage r.epoch messageTypeNone)
  | ct1 {enc : Encapsulation} {c : Chunk} : x ≠ r.keyParty → r.enc = some enc →
      c.Of enc.ct1 → MsgOk r x (chunkMessage r.epoch messageTypeCt1 c)
  | ct2 {enc : Encapsulation} {c : Chunk} : x ≠ r.keyParty → r.enc = some enc → r.ct2 = true →
      c.Of (r.ct2Msg p enc) → MsgOk r x (chunkMessage r.epoch messageTypeCt2 c)
  | next : x = r.keyParty → r.done = true → r.e + 1 < 2 ^ 64 →
      MsgOk r x (plainMessage (r.epoch + 1) messageTypeNone)

section

variable {p kem} {r r' : Round} {x : Party} {v : V1States} {msg : V1Message}

theorem Round.Valid.toNat_epoch (h : r.Valid kem) : r.epoch.toNat = r.e := by
  rw [Round.epoch, UInt64.toNat_ofNat']
  exact Nat.mod_eq_of_lt h.lt

/-- The next epoch, as long as its number does not wrap. -/
theorem Round.toNat_epoch_succ (h : r.e + 1 < 2 ^ 64) : (r.epoch + 1).toNat = r.e + 1 := by
  have : r.epoch + 1 = UInt64.ofNat (r.e + 1) := (UInt64.ofNat_add r.e 1).symm
  rw [this, UInt64.toNat_ofNat']
  exact Nat.mod_eq_of_lt h

/-! ## The payloads fit the erasure code -/

theorem codeable_of_length {m : Bytes} (size : Nat) (h : m.length = size) (heven : size % 2 = 0)
    (hmin : 32 ≤ size) (hmax : size ≤ 2 ^ 20) : Codeable m :=
  ⟨by omega, by omega, by omega⟩

theorem Round.length_hdrMsg (r : Round) (seed : ByteArr 64) :
    (r.hdrMsg p kem seed).length = hdrMessageSize := by
  simp [Round.hdrMsg, hdrMessageSize]

theorem Round.codeable_hdrMsg (r : Round) (seed : ByteArr 64) : Codeable (r.hdrMsg p kem seed) :=
  codeable_of_length _ (r.length_hdrMsg seed) (by decide) (by decide) (by decide)

theorem codeable_ek (seed : ByteArr 64) : Codeable (mlkemKeysOfSeed kem seed).ek :=
  codeable_of_length _ (length_ek seed) (by decide) (by decide) (by decide)

namespace Round.Encapsulates

variable {seed : ByteArr 64} {enc : Encapsulation}

theorem length_ct1 (h : Encapsulates kem seed enc) : enc.ct1.length = mlkemCiphertext1Size := by
  obtain ⟨rnd, hfirst⟩ := h.first
  exact mlkemEncaps1_ok hfirst

theorem length_ct2 (h : Encapsulates kem seed enc) : enc.ct2.length = mlkemCiphertext2Size := by
  have hek : (mlkemKeysOfSeed kem seed).ek.length = mlkemEncapsulationKeySize := length_ek seed
  obtain ⟨ct2, hct2, hlen⟩ := mlkemEncaps2_ok kem enc.state hek
  rw [h.second] at hct2
  cases hct2
  exact hlen

theorem codeable_ct1 (h : Encapsulates kem seed enc) : Codeable enc.ct1 :=
  codeable_of_length _ h.length_ct1 (by decide) (by decide) (by decide)

theorem length_ct2Msg (h : Encapsulates kem seed enc) (r : Round) :
    (r.ct2Msg p enc).length = ct2MessageSize := by
  simp [Round.ct2Msg, h.length_ct2, ct2MessageSize]

theorem codeable_ct2Msg (h : Encapsulates kem seed enc) (r : Round) : Codeable (r.ct2Msg p enc) :=
  codeable_of_length _ (h.length_ct2Msg r) (by decide) (by decide) (by decide)

end Round.Encapsulates

variable {seed : ByteArr 64} {enc : Encapsulation}

theorem Round.Valid.encapsulates (h : r.Valid kem) (hseed : r.seed = some seed)
    (henc : r.enc = some enc) : Encapsulates kem seed enc := by
  obtain ⟨seed', hseed', hencaps⟩ := h.enc enc henc
  rw [hseed] at hseed'
  cases hseed'
  exact hencaps

/-! ## A round grows -/

/-- `r'` is the same epoch with more data. -/
structure Round.Grows (r r' : Round) : Prop where
  e : r'.e = r.e
  keyParty : r'.keyParty = r.keyParty
  auth : r'.auth = r.auth
  seed : ∀ seed, r.seed = some seed → r'.seed = some seed
  enc : ∀ enc, r.enc = some enc → r'.enc = some enc
  ct2 : r.ct2 = true → r'.ct2 = true
  done : r.done = true → r'.done = true

/-- A message that fits a round fits it when it has grown. -/
theorem MsgOk.grow (h : MsgOk p kem r x msg) (hg : r.Grows r') : MsgOk p kem r' x msg := by
  obtain ⟨e', keyParty', auth', seed', enc', ct2', done'⟩ := r'
  obtain ⟨he, hparty, hauth, hseed, henc, hct2, hdone⟩ := hg
  simp only at he hparty hauth
  subst he hparty hauth
  cases h with
  | old hlt => exact .old hlt
  | hdr hx hs hc => exact .hdr hx (hseed _ hs) hc
  | ek hx hs hk hc => exact .ek hx (hseed _ hs) hk hc
  | ct1Ack hx => exact .ct1Ack hx
  | none hx => exact .none hx
  | ct1 hx he hc => exact .ct1 hx (henc _ he) hc
  | ct2 hx he h2 hc => exact .ct2 hx (henc _ he) (hct2 h2) hc
  | next hx hd hlt => exact .next hx (hdone hd) hlt

/-! ## Sending -/

/-- **The party of the key sends**: the round stays as it is, or the key pair was just drawn. -/
theorem KeySide.send {rnd : Rand} {v' : V1States} {out : V1Send} (h : KeySide p kem r v)
    (hlt : r.done = true → r.e + 1 < 2 ^ 64) (hsend : v.send p kem rnd = (v', .ok out)) :
    out.key = none ∧ ∃ r', (r' = r ∨ ∃ seed, r.seed = none ∧ r' = { r with seed := some seed }) ∧
      KeySide p kem r' out.state ∧ MsgOk p kem r' r.keyParty out.msg := by
  cases h with
  | keysUnsampled hdone hseed =>
    rcases firstHdrChunk_cases p kem rnd { epoch := r.epoch, auth := r.auth } with
      ⟨e, -, hfirst⟩ | ⟨seed, enc, -, -, hcarries, hfirst⟩
    · rw [V1States.send, hfirst] at hsend
      cases hsend
    · rw [V1States.send, hfirst] at hsend
      cases hsend
      exact ⟨rfl, { r with seed := some seed }, .inr ⟨seed, hseed, rfl⟩,
        .keysSampled hdone rfl hcarries.nextChunk, .hdr rfl rfl hcarries.chunk_of⟩
  | keysSampled hdone hseed hcarries =>
    cases hsend
    exact ⟨rfl, r, .inl rfl, .keysSampled hdone hseed hcarries.nextChunk,
      .hdr rfl hseed hcarries.chunk_of⟩
  | headerSent hdone hseed henc hcarries hdec =>
    cases hsend
    exact ⟨rfl, r, .inl rfl, .headerSent hdone hseed henc hcarries.nextChunk hdec,
      .ek rfl hseed (.inl rfl) hcarries.chunk_of⟩
  | ct1Received hdone hseed henc hcarries =>
    cases hsend
    exact ⟨rfl, r, .inl rfl, .ct1Received hdone hseed henc hcarries.nextChunk,
      .ek rfl hseed (.inr rfl) hcarries.chunk_of⟩
  | ekSentCt1Received hdone hseed henc hct2 hdec =>
    cases hsend
    exact ⟨rfl, r, .inl rfl, .ekSentCt1Received hdone hseed henc hct2 hdec, .ct1Ack rfl⟩
  | finished hdone henc hct2 hdec =>
    cases hsend
    exact ⟨rfl, r, .inl rfl, .finished hdone henc hct2 hdec, .next rfl hdone (hlt hdone)⟩

/-- Drawing the key pair does not change what the other party has. -/
theorem CtSide.withSeed (h : CtSide p kem r v) (hnone : r.seed = none) (seed : ByteArr 64)
    (henc : r.enc = none) : CtSide p kem { r with seed := some seed } v := by
  cases h with
  | idle _ hct2 hdec =>
    exact .noHeaderReceived rfl henc hct2
      (newPolyDecoder_collects hdec (r.codeable_hdrMsg seed) (r.length_hdrMsg seed))
  | ct2Sampled henc' _ _ =>
    rw [henc] at henc'
    cases henc'
  | _ => simp_all

/-- **The party of the ciphertext sends**: the round stays as it is, or the encapsulation was just
made and with it the secret of the epoch. -/
theorem CtSide.send {rnd : Rand} {v' : V1States} {out : V1Send} (h : CtSide p kem r v)
    (hx : x ≠ r.keyParty) (hsend : v.send p kem rnd = (v', .ok out)) :
    ∃ r', CtSide p kem r' out.state ∧ MsgOk p kem r' x out.msg ∧
      ((out.key = none ∧ r' = r) ∨ ∃ seed enc, r.seed = some seed ∧ r.enc = none ∧
        Round.Encapsulates kem seed enc ∧ r' = { r with enc := some enc } ∧
        out.key = some { epoch := r.epoch, secret := r.secret p enc }) := by
  cases h with
  | idle hseed hct2 hdec =>
    cases hsend
    exact ⟨r, .idle hseed hct2 hdec, .none hx, .inl ⟨rfl, rfl⟩⟩
  | noHeaderReceived hseed henc hct2 hdec =>
    cases hsend
    exact ⟨r, .noHeaderReceived hseed henc hct2 hdec, .none hx, .inl ⟨rfl, rfl⟩⟩
  | @headerReceived seed dec hseed henc hct2 hdec =>
    rcases firstCt1Chunk_cases p kem rnd
      { epoch := r.epoch, auth := r.auth, hdr := (mlkemKeysOfSeed kem seed).hdr } dec
      (length_hdr seed) with
      ⟨e, -, -, hfirst⟩ | ⟨ct1, state, ss, enc, hencaps, -, hcarries, hfirst⟩
    · rw [V1States.send, hfirst] at hsend
      cases hsend
    · rw [V1States.send, hfirst] at hsend
      cases hsend
      obtain ⟨ct2, hct2', -⟩ := mlkemEncaps2_ok kem state
        (show (mlkemKeysOfSeed kem seed).ek.length = _ from length_ek seed)
      -- the encapsulation was drawn: the round now has its ciphertext and secret
      let encaps : Encapsulation := { ct1 := ct1, state, ss, ct2 }
      let r' : Round := { r with enc := some encaps }
      have hseed' : r'.seed = some seed := hseed
      have henc' : r'.enc = some encaps := rfl
      have hside : CtSide p kem r' _ := .ct1Sampled hseed' henc' hct2 hcarries.nextChunk
        (newPolyDecoder_collects hdec (codeable_ek seed) (length_ek seed))
      have hmsg : MsgOk p kem r' x _ := .ct1 hx henc' hcarries.chunk_of
      exact ⟨r', hside, hmsg, .inr ⟨seed, encaps, hseed, henc, ⟨⟨rnd, hencaps⟩, hct2'⟩, rfl, rfl⟩⟩
  | ct1Sampled hseed henc hct2 hcarries hdec =>
    cases hsend
    exact ⟨r, .ct1Sampled hseed henc hct2 hcarries.nextChunk hdec,
      .ct1 hx henc hcarries.chunk_of, .inl ⟨rfl, rfl⟩⟩
  | ekReceivedCt1Sampled hseed henc hct2 hcarries =>
    cases hsend
    exact ⟨r, .ekReceivedCt1Sampled hseed henc hct2 hcarries.nextChunk,
      .ct1 hx henc hcarries.chunk_of, .inl ⟨rfl, rfl⟩⟩
  | ct1Acknowledged hseed henc hct2 hdec =>
    cases hsend
    exact ⟨r, .ct1Acknowledged hseed henc hct2 hdec, .none hx, .inl ⟨rfl, rfl⟩⟩
  | ct2Sampled henc hct2 hcarries =>
    cases hsend
    exact ⟨r, .ct2Sampled henc hct2 hcarries.nextChunk, .ct2 hx henc hct2 hcarries.chunk_of,
      .inl ⟨rfl, rfl⟩⟩

/-! ## Receiving -/

/-- A message of an older epoch changes nothing. -/
theorem recv_old (h : msg.epoch < v.epoch) :
    v.recv p kem msg = .ok { key := none, state := v } := by
  have hnot : ¬ v.epoch < msg.epoch := UInt64.not_lt.mpr (UInt64.le_of_lt h)
  -- two states do not go through the common check
  cases v with
  | keysUnsampled uc => exact if_neg hnot
  | ct2Sampled uc enc => exact if_neg hnot
  | _ => exact (if_neg hnot).trans (if_pos h)

theorem recvAt_current {current : Except Err V1Recv} (h : msg.epoch = v.epoch) :
    v.recvAt msg current = current := by
  have hnot : ¬ msg.epoch < msg.epoch := UInt64.lt_irrefl _
  rw [V1States.recvAt, ← h, if_neg hnot, if_neg hnot]

variable {dec : PolyDecoder}

/-- A header that arrived in full is accepted. -/
theorem recvDecodedHdr_eq (seed : ByteArr 64)
    (hdec : newPolyDecoder mlkemEncapsulationKeySize = .ok dec) :
    recvDecodedHdr p { epoch := r.epoch, auth := r.auth } r.epoch (r.hdrMsg p kem seed)
      = .ok (.headerReceived
          { epoch := r.epoch, auth := r.auth, hdr := (mlkemKeysOfSeed kem seed).hdr } dec) := by
  have hlen : (mlkemKeysOfSeed kem seed).hdr.length = mlkemHeaderSize := length_hdr seed
  have htake : (r.hdrMsg p kem seed).take mlkemHeaderSize = (mlkemKeysOfSeed kem seed).hdr := by
    rw [Round.hdrMsg, ← hlen, List.take_left]
  have hdrop : (r.hdrMsg p kem seed).drop mlkemHeaderSize
      = r.auth.macHdr p r.epoch (mlkemKeysOfSeed kem seed).hdr := by
    rw [Round.hdrMsg, ← hlen, List.drop_left]
  rw [recvDecodedHdr, if_neg (by rw [r.length_hdrMsg]; decide), htake, hdrop,
    UnchunkedNoHeaderReceived.recvHeader, if_neg (by simp), if_neg (by simp)]
  simp only [Authenticator.verifyHdr_macHdr, ok_bind, hdec]
  rfl

/-- A second part of the ciphertext that arrived in full is accepted. -/
theorem recvDecodedCt2_eq (laws : KemLaws kem) (h : Round.Encapsulates kem seed enc)
    (hdec : newPolyDecoder hdrMessageSize = .ok dec) :
    recvDecodedCt2 p kem
        { epoch := r.epoch, auth := r.auth, dk := (mlkemKeysOfSeed kem seed).dk, ct1 := enc.ct1 }
        (r.ct2Msg p enc)
      = .ok { key := some { epoch := r.epoch, secret := r.secret p enc }
              state := .noHeaderReceived
                { epoch := r.epoch + 1, auth := r.nextAuth p enc } dec } := by
  have hlen := h.length_ct2
  have htake : (r.ct2Msg p enc).take mlkemCiphertext2Size = enc.ct2 := by
    rw [Round.ct2Msg, ← hlen, List.take_left]
  have hdrop : (r.ct2Msg p enc).drop mlkemCiphertext2Size
      = (r.nextAuth p enc).macCt p r.epoch (enc.ct1 ++ enc.ct2) := by
    rw [Round.ct2Msg, ← hlen, List.drop_left]
  obtain ⟨rnd, hfirst⟩ := h.first
  have hdecaps := laws.decaps seed rnd _ _ _ _ hfirst h.second
  have hverify : (r.nextAuth p enc).verifyCt p r.epoch (enc.ct1 ++ enc.ct2)
      ((r.nextAuth p enc).macCt p r.epoch (enc.ct1 ++ enc.ct2)) = .ok () :=
    Authenticator.verifyCt_macCt p _ _ _
  rw [recvDecodedCt2, if_neg (by rw [h.length_ct2Msg r]; decide), htake, hdrop,
    UnchunkedEkSentCt1Received.recvCt2, if_neg (by simpa using hlen), if_neg (by simp)]
  have hauth : r.auth.update p r.epoch (deriveSckaKey p r.epoch enc.ss) = r.nextAuth p enc := rfl
  simp only [hdecaps, ok_bind, hauth, hverify, pure_bind]
  rw [show mlkemHeaderSize + authenticatorMacSize = hdrMessageSize from rfl, hdec]
  rfl

/-! ### What a chunk of the current epoch does -/

variable {sendingEk : PolyEncoder}

section Chunk

variable {dec : PolyDecoder} {c : Chunk} {kind : MessageType}

/-- The first chunk of the ciphertext: the key pair's owner begins to send the key. -/
theorem recv_ct1_first {uc : UnchunkedHeaderSent} {sendingHdr : PolyEncoder}
    (hdec : newPolyDecoder mlkemCiphertext1Size = .ok dec)
    (hek : newPolyEncoder uc.ek = .ok sendingEk) :
    (V1States.keysSampled uc sendingHdr).recv p kem (chunkMessage uc.epoch messageTypeCt1 c)
      = .ok { key := none
              state := .headerSent { epoch := uc.epoch, auth := uc.auth, dk := uc.dk } sendingEk
                (dec.addChunk c) } := by
  refine (recvAt_current rfl).trans ?_
  show withoutKey (keysSampledRecvCt1Chunk uc c) = _
  simp only [keysSampledRecvCt1Chunk, UnchunkedHeaderSent.sendEk, hdec, hek, ok_bind]
  rfl

theorem recv_ct1_more {uc : UnchunkedEkSent} (h : (dec.addChunk c).decodedMessage = .ok none) :
    (V1States.headerSent uc sendingEk dec).recv p kem (chunkMessage uc.epoch messageTypeCt1 c)
      = .ok { key := none, state := .headerSent uc sendingEk (dec.addChunk c) } := by
  refine (recvAt_current rfl).trans ?_
  show withoutKey (headerSentRecvCt1Chunk uc sendingEk dec _ c) = _
  simp only [headerSentRecvCt1Chunk, h, ok_bind]
  rfl

theorem recv_ct1_full {uc : UnchunkedEkSent} {ct1 : Bytes}
    (h : (dec.addChunk c).decodedMessage = .ok (some ct1)) :
    (V1States.headerSent uc sendingEk dec).recv p kem (chunkMessage uc.epoch messageTypeCt1 c)
      = .ok { key := none
              state := .ct1Received
                { epoch := uc.epoch, auth := uc.auth, dk := uc.dk, ct1 } sendingEk } := by
  refine (recvAt_current rfl).trans ?_
  show withoutKey (headerSentRecvCt1Chunk uc sendingEk dec _ c) = _
  simp only [headerSentRecvCt1Chunk, h, ok_bind]
  rfl

variable {uc : UnchunkedEkSentCt1Received}

theorem recv_ct2_first (hdec : newPolyDecoder ct2MessageSize = .ok dec) :
    (V1States.ct1Received uc sendingEk).recv p kem (chunkMessage uc.epoch messageTypeCt2 c)
      = .ok { key := none, state := .ekSentCt1Received uc (dec.addChunk c) } := by
  refine (recvAt_current rfl).trans ?_
  show withoutKey (ct1ReceivedRecvCt2Chunk uc c) = _
  rw [ct1ReceivedRecvCt2Chunk, show mlkemCiphertext2Size + authenticatorMacSize = ct2MessageSize
    from rfl, hdec]
  rfl

theorem recv_ct2_more (h : (dec.addChunk c).decodedMessage = .ok none) :
    (V1States.ekSentCt1Received uc dec).recv p kem (chunkMessage uc.epoch messageTypeCt2 c)
      = .ok { key := none, state := .ekSentCt1Received uc (dec.addChunk c) } := by
  refine (recvAt_current rfl).trans ?_
  show ekSentCt1ReceivedRecvCt2Chunk p kem uc dec c = _
  simp only [ekSentCt1ReceivedRecvCt2Chunk, h, ok_bind]
  rfl

theorem recv_ct2_full {decoded : Bytes} (h : (dec.addChunk c).decodedMessage = .ok (some decoded)) :
    (V1States.ekSentCt1Received uc dec).recv p kem (chunkMessage uc.epoch messageTypeCt2 c)
      = recvDecodedCt2 p kem uc decoded := by
  refine (recvAt_current rfl).trans ?_
  show ekSentCt1ReceivedRecvCt2Chunk p kem uc dec c = _
  simp only [ekSentCt1ReceivedRecvCt2Chunk, h, ok_bind]

theorem recv_hdr_more {uc : UnchunkedNoHeaderReceived}
    (h : (dec.addChunk c).decodedMessage = .ok none) :
    (V1States.noHeaderReceived uc dec).recv p kem (chunkMessage uc.epoch messageTypeHdr c)
      = .ok { key := none, state := .noHeaderReceived uc (dec.addChunk c) } := by
  refine (recvAt_current rfl).trans ?_
  show withoutKey (noHeaderReceivedRecvHdrChunk p uc dec _ c) = _
  simp only [noHeaderReceivedRecvHdrChunk, h, ok_bind]
  rfl

theorem recv_hdr_full {uc : UnchunkedNoHeaderReceived} {decoded : Bytes}
    (h : (dec.addChunk c).decodedMessage = .ok (some decoded)) :
    (V1States.noHeaderReceived uc dec).recv p kem (chunkMessage uc.epoch messageTypeHdr c)
      = withoutKey (recvDecodedHdr p uc uc.epoch decoded) := by
  refine (recvAt_current rfl).trans ?_
  show withoutKey (noHeaderReceivedRecvHdrChunk p uc dec uc.epoch c) = _
  simp only [noHeaderReceivedRecvHdrChunk, h, ok_bind]

/-- A chunk of the key that also acknowledges the first part of the ciphertext. -/
theorem recv_ekAck_more {uc : UnchunkedCt1Sent} {sendingCt1 : PolyEncoder}
    (h : (dec.addChunk c).decodedMessage = .ok none) :
    (V1States.ct1Sampled uc sendingCt1 dec).recv p kem
        (chunkMessage uc.epoch messageTypeEkCt1Ack c)
      = .ok { key := none, state := .ct1Acknowledged uc (dec.addChunk c) } := by
  refine (recvAt_current rfl).trans ?_
  show withoutKey (ct1SampledRecvEkChunk p kem uc sendingCt1 dec _ c _) = _
  simp only [ct1SampledRecvEkChunk, h, ok_bind]
  rfl

/-- Behind the acknowledgement both kinds of chunks of the key are the same. -/
theorem recv_ek_acknowledged {uc : UnchunkedCt1Sent}
    (hkind : kind = messageTypeEk ∨ kind = messageTypeEkCt1Ack) :
    (V1States.ct1Acknowledged uc dec).recv p kem (chunkMessage uc.epoch kind c)
      = withoutKey (ct1AcknowledgedRecvEkChunk p kem uc dec uc.epoch c) := by
  rcases hkind with rfl | rfl <;> exact (recvAt_current rfl).trans rfl

theorem recv_ek_acknowledged_more {uc : UnchunkedCt1Sent}
    (hkind : kind = messageTypeEk ∨ kind = messageTypeEkCt1Ack)
    (h : (dec.addChunk c).decodedMessage = .ok none) :
    (V1States.ct1Acknowledged uc dec).recv p kem (chunkMessage uc.epoch kind c)
      = .ok { key := none, state := .ct1Acknowledged uc (dec.addChunk c) } := by
  rw [recv_ek_acknowledged hkind]
  simp only [ct1AcknowledgedRecvEkChunk, h, ok_bind]
  rfl

/-- The first message of the next epoch ends the epoch of the party of the ciphertext. -/
theorem recv_next_epoch {uc : UnchunkedCt2Sent} {sendingCt2 : PolyEncoder}
    (hnewer : uc.epoch < uc.epoch + 1) :
    (V1States.ct2Sampled uc sendingCt2).recv p kem (plainMessage (uc.epoch + 1) messageTypeNone)
      = .ok { key := none
              state := .keysUnsampled { epoch := uc.epoch + 1, auth := uc.auth } } := by
  refine (if_pos hnewer).trans ((if_pos rfl).trans ?_)
  rw [UnchunkedCt2Sent.recvNextEpoch, if_neg (by simp [plainMessage])]
  rfl

end Chunk

/-- The messages of the party of the ciphertext. -/
theorem MsgOk.of_ctParty (h : MsgOk p kem r x msg) (hx : x ≠ r.keyParty) :
    msg.epoch.toNat < r.e ∨ msg = plainMessage r.epoch messageTypeNone ∨
      (∃ enc c, r.enc = some enc ∧ c.Of enc.ct1 ∧
        msg = chunkMessage r.epoch messageTypeCt1 c) ∨
      ∃ enc c, r.enc = some enc ∧ r.ct2 = true ∧ c.Of (r.ct2Msg p enc) ∧
        msg = chunkMessage r.epoch messageTypeCt2 c := by
  cases h with
  | old hlt => exact .inl hlt
  | none _ => exact .inr (.inl rfl)
  | ct1 _ henc hc => exact .inr (.inr (.inl ⟨_, _, henc, hc, rfl⟩))
  | ct2 _ henc hct2 hc => exact .inr (.inr (.inr ⟨_, _, henc, hct2, hc, rfl⟩))
  | hdr hx' => exact absurd hx' hx
  | ek hx' => exact absurd hx' hx
  | ct1Ack hx' => exact absurd hx' hx
  | next hx' => exact absurd hx' hx

/-- A message the party of the key accepts: the round stays as it is, or the secret is there. -/
def KeyAccepts (p : Prims) (kem : Kem) (r : Round) (v : V1States) (msg : V1Message) : Prop :=
  ∃ out, v.recv p kem msg = .ok out ∧
    ((out.key = none ∧ KeySide p kem r out.state) ∨
      ∃ enc, r.enc = some enc ∧ r.done = false ∧ r.ct2 = true ∧
        out.key = some { epoch := r.epoch, secret := r.secret p enc } ∧
        KeySide p kem { r with done := true } out.state)

theorem KeyAccepts.stay {w : V1States} (h : KeySide p kem r w)
    (heq : v.recv p kem msg = .ok { key := none, state := w }) : KeyAccepts p kem r v msg :=
  ⟨_, heq, .inl ⟨rfl, h⟩⟩

variable {c : Chunk}

/-- A first chunk of a message of more than one. -/
theorem newPolyDecoder_addChunk {m : Bytes} {d : PolyDecoder} (hnew : newPolyDecoder size = .ok d)
    (hm : Codeable m) (hlen : m.length = size) (htwo : 32 < size) (hc : c.Of m) :
    (d.addChunk c).Collects m := by
  obtain ⟨e, he, hce⟩ := hc
  have hadd := (newPolyDecoder_collected hnew hlen (hlen ▸ hm.even)).addChunk c fun j => by
    rw [hce, symbol_chunkAt he.1, he.2]
    rfl
  refine ⟨_, hadd, ?_⟩
  rw [Finset.card_insert_of_notMem (Finset.notMem_empty _), Finset.card_empty]
  omega

/-- The first chunk of the ciphertext. -/
theorem KeySide.recv_ct1_keysSampled (hr : r.Valid kem) {sendingHdr : PolyEncoder}
    (hdone : r.done = false) (hseed : r.seed = some seed) (henc : r.enc = some enc)
    (hc : c.Of enc.ct1) :
    KeyAccepts p kem r (.keysSampled
      { epoch := r.epoch, auth := r.auth, ek := (mlkemKeysOfSeed kem seed).ek
        dk := (mlkemKeysOfSeed kem seed).dk } sendingHdr)
      (chunkMessage r.epoch messageTypeCt1 c) := by
  have hencaps := hr.encapsulates hseed henc
  obtain ⟨dec, hdec, -⟩ := newPolyDecoder_ok mlkemCiphertext1Size (by decide)
  obtain ⟨sendingEk, hek, -, hcarries⟩ := newPolyEncoder_carries mlkemEncapsulationKeySize
    (show (mlkemKeysOfSeed kem seed).ek.length = _ from length_ek seed) (by decide) (by decide)
  have hcollects := newPolyDecoder_addChunk hdec hencaps.codeable_ct1 hencaps.length_ct1
    (by decide) hc
  exact .stay (.headerSent hdone hseed henc hcarries hcollects) (recv_ct1_first hdec hek)

/-- Further chunks of its first part. -/
theorem KeySide.recv_ct1_headerSent (hr : r.Valid kem) (hdone : r.done = false)
    (hseed : r.seed = some seed) (henc : r.enc = some enc)
    (hcarries : sendingEk.Carries (mlkemKeysOfSeed kem seed).ek) (hdec : dec.Collects enc.ct1)
    (hc : c.Of enc.ct1) :
    KeyAccepts p kem r (.headerSent
      { epoch := r.epoch, auth := r.auth, dk := (mlkemKeysOfSeed kem seed).dk } sendingEk dec)
      (chunkMessage r.epoch messageTypeCt1 c) := by
  have hencaps := hr.encapsulates hseed henc
  rcases hdec.addChunk hencaps.codeable_ct1 hc with ⟨hnone, hcollects⟩ | hsome
  · exact .stay (.headerSent hdone hseed henc hcarries hcollects) (recv_ct1_more hnone)
  · exact .stay (.ct1Received hdone hseed henc hcarries) (recv_ct1_full hsome)

/-- The first chunk of its second part. -/
theorem KeySide.recv_ct2_ct1Received (hr : r.Valid kem) (hdone : r.done = false)
    (hseed : r.seed = some seed) (henc : r.enc = some enc) (hct2 : r.ct2 = true)
    (hc : c.Of (r.ct2Msg p enc)) :
    KeyAccepts p kem r (.ct1Received
      { epoch := r.epoch, auth := r.auth, dk := (mlkemKeysOfSeed kem seed).dk, ct1 := enc.ct1 }
      sendingEk) (chunkMessage r.epoch messageTypeCt2 c) := by
  have hencaps := hr.encapsulates hseed henc
  obtain ⟨dec, hdec, -⟩ := newPolyDecoder_ok ct2MessageSize (by decide)
  have hcollects := newPolyDecoder_addChunk hdec (hencaps.codeable_ct2Msg r)
    (hencaps.length_ct2Msg r) (by decide) hc
  exact .stay (.ekSentCt1Received hdone hseed henc hct2 hcollects) (recv_ct2_first hdec)

/-- Further chunks of it. -/
theorem KeySide.recv_ct2_ekSentCt1Received (laws : KemLaws kem) (hr : r.Valid kem)
    (hdone : r.done = false) (hseed : r.seed = some seed) (henc : r.enc = some enc)
    (hct2 : r.ct2 = true) (hdec : dec.Collects (r.ct2Msg p enc)) (hc : c.Of (r.ct2Msg p enc)) :
    KeyAccepts p kem r (.ekSentCt1Received
      { epoch := r.epoch, auth := r.auth, dk := (mlkemKeysOfSeed kem seed).dk, ct1 := enc.ct1 } dec)
      (chunkMessage r.epoch messageTypeCt2 c) := by
  have hencaps := hr.encapsulates hseed henc
  rcases hdec.addChunk (hencaps.codeable_ct2Msg r) hc with ⟨hnone, hcollects⟩ | hsome
  · exact .stay (.ekSentCt1Received hdone hseed henc hct2 hcollects) (recv_ct2_more hnone)
  · obtain ⟨dec', hdec', -⟩ := newPolyDecoder_ok hdrMessageSize (by decide)
    let r' : Round := { r with done := true }
    have hside : KeySide p kem r' _ := .finished rfl henc hct2 hdec'
    exact ⟨{ key := some { epoch := r.epoch, secret := r.secret p enc }, state := _ },
      (recv_ct2_full hsome).trans (recvDecodedCt2_eq laws hencaps hdec'),
      .inr ⟨enc, henc, hdone, hct2, rfl, hside⟩⟩

/-- **The party of the key receives**: no message of the other party is refused. -/
theorem KeySide.recv (h : KeySide p kem r v) (laws : KemLaws kem) (hr : r.Valid kem)
    (hlt : r.done = true → r.e + 1 < 2 ^ 64) (hx : x ≠ r.keyParty) (hm : MsgOk p kem r x msg) :
    KeyAccepts p kem r v msg := by
  have hepoch := hr.toNat_epoch
  have hside := h
  have hold : msg.epoch.toNat < v.epoch.toNat → KeyAccepts p kem r v msg :=
    fun hlt => .stay h (recv_old (UInt64.lt_iff_toNat_lt.mpr hlt))
  have hnewer : r.done = true → r.epoch.toNat < (r.epoch + 1).toNat := by
    intro hdone
    rw [Round.toNat_epoch_succ (hlt hdone), hepoch]
    omega
  -- the messages of the epoch are a plain one and the chunks of the two parts
  rcases hm.of_ctParty hx with hlt' | rfl | ⟨enc, c, henc, hc, rfl⟩ | ⟨enc, c, henc, hct2, hc, rfl⟩
  · refine hold (lt_of_lt_of_le hlt' ?_)
    cases h with
    | finished hdone =>
      show r.e ≤ (r.epoch + 1).toNat
      rw [Round.toNat_epoch_succ (hlt hdone)]
      omega
    | _ => exact hepoch.ge
  · cases h with
    | keysUnsampled _ _ => exact .stay hside (if_neg (UInt64.lt_irrefl _))
    | finished hdone _ _ _ => exact hold (hnewer hdone)
    | _ => exact .stay hside ((recvAt_current rfl).trans rfl)
  · cases h with
    | keysUnsampled _ _ => exact .stay hside (if_neg (UInt64.lt_irrefl _))
    | keysSampled hdone hseed _ => exact recv_ct1_keysSampled hr hdone hseed henc hc
    | headerSent hdone hseed henc' hcarries hdec =>
      rw [henc] at henc'
      cases henc'
      exact recv_ct1_headerSent hr hdone hseed henc hcarries hdec hc
    | finished hdone _ _ _ => exact hold (hnewer hdone)
    | _ => exact .stay hside ((recvAt_current rfl).trans rfl)
  · cases h with
    | keysUnsampled _ _ => exact .stay hside (if_neg (UInt64.lt_irrefl _))
    | ct1Received hdone hseed henc' hcarries =>
      rw [henc] at henc'
      cases henc'
      exact recv_ct2_ct1Received hr hdone hseed henc hct2 hc
    | ekSentCt1Received hdone hseed henc' _ hdec =>
      rw [henc] at henc'
      cases henc'
      exact recv_ct2_ekSentCt1Received laws hr hdone hseed henc hct2 hdec hc
    | finished hdone _ _ _ => exact hold (hnewer hdone)
    | _ => exact .stay hside ((recvAt_current rfl).trans rfl)

/-- The messages of the party of the key. -/
theorem MsgOk.of_keyParty (h : MsgOk p kem r r.keyParty msg) :
    msg.epoch.toNat < r.e ∨
      (∃ seed c, r.seed = some seed ∧ c.Of (r.hdrMsg p kem seed) ∧
        msg = chunkMessage r.epoch messageTypeHdr c) ∨
      (∃ seed c kind, r.seed = some seed ∧ (kind = messageTypeEk ∨ kind = messageTypeEkCt1Ack) ∧
        c.Of (mlkemKeysOfSeed kem seed).ek ∧ msg = chunkMessage r.epoch kind c) ∨
      msg = plainMessage r.epoch messageTypeCt1Ack ∨
      (r.done = true ∧ r.e + 1 < 2 ^ 64 ∧ msg = plainMessage (r.epoch + 1) messageTypeNone) := by
  cases h with
  | old hlt => exact .inl hlt
  | hdr _ hseed hc => exact .inr (.inl ⟨_, _, hseed, hc, rfl⟩)
  | ek _ hseed hkind hc => exact .inr (.inr (.inl ⟨_, _, _, hseed, hkind, hc, rfl⟩))
  | ct1Ack _ => exact .inr (.inr (.inr (.inl rfl)))
  | next _ hdone hlt => exact .inr (.inr (.inr (.inr ⟨hdone, hlt, rfl⟩)))
  | none hx => exact absurd rfl hx
  | ct1 hx => exact absurd rfl hx
  | ct2 hx => exact absurd rfl hx

/-- What follows from a message the party of the ciphertext accepts: the round stays, the second
part of the ciphertext is on its way, or the next epoch begins. -/
def CtAccepts (p : Prims) (kem : Kem) (r : Round) (v : V1States) (msg : V1Message) : Prop :=
  ∃ w, v.recv p kem msg = .ok { key := none, state := w } ∧
    (CtSide p kem r w ∨ (r.ct2 = false ∧ CtSide p kem { r with ct2 := true } w) ∨
      ∃ enc, r.done = true ∧ r.e + 1 < 2 ^ 64 ∧ r.enc = some enc ∧
        w = .keysUnsampled { epoch := r.epoch + 1, auth := r.nextAuth p enc })

theorem CtAccepts.stay {w : V1States} (h : CtSide p kem r w)
    (heq : v.recv p kem msg = .ok { key := none, state := w }) : CtAccepts p kem r v msg :=
  ⟨w, heq, .inl h⟩

/-- The key matches the header it came behind. -/
theorem recvEk_eq (laws : KemLaws kem) (seed : ByteArr 64) {auth : Authenticator}
    {encaps : MlkemEncapsulationState} {ct1 : Bytes} :
    UnchunkedCt1Sent.recvEk kem
        { epoch := r.epoch, auth, hdr := (mlkemKeysOfSeed kem seed).hdr
          encaps, ct1 } r.epoch (mlkemKeysOfSeed kem seed).ek
      = .ok { epoch := r.epoch, auth, encaps
              ek := (mlkemKeysOfSeed kem seed).ek, ct1 } := by
  have hmatch := mlkemEKMatchesHeader_keys laws seed
  rw [UnchunkedCt1Sent.recvEk, if_neg (by simp), if_neg (by simpa using hmatch)]

/-- The second part of the ciphertext is made. -/
theorem sampleCt2_eq (h : Round.Encapsulates kem seed enc) :
    ∃ sendingCt2, sampleCt2 p kem
        { epoch := r.epoch, auth := r.nextAuth p enc, encaps := enc.state
          ek := (mlkemKeysOfSeed kem seed).ek, ct1 := enc.ct1 }
      = .ok (.ct2Sampled { epoch := r.epoch, auth := r.nextAuth p enc } sendingCt2) ∧
      sendingCt2.idx = 0 ∧ sendingCt2.Carries (r.ct2Msg p enc) := by
  obtain ⟨sendingCt2, hnew, hidx, hcarries⟩ := newPolyEncoder_carries ct2MessageSize
    (h.length_ct2Msg (p := p) r) (by decide) (by decide)
  refine ⟨sendingCt2, ?_, hidx, hcarries⟩
  rw [Round.ct2Msg] at hnew
  simp only [sampleCt2, UnchunkedCt1SentEkReceived.sendCt2, h.second, ok_bind, pure_bind, hnew]
  rfl

/-- The step into `ct2Sampled`. -/
theorem CtAccepts.sample (h : Round.Encapsulates kem seed enc) (henc : r.enc = some enc)
    (hct2 : r.ct2 = false) (heq : v.recv p kem msg = withoutKey (sampleCt2 p kem
      { epoch := r.epoch, auth := r.nextAuth p enc, encaps := enc.state
        ek := (mlkemKeysOfSeed kem seed).ek, ct1 := enc.ct1 })) : CtAccepts p kem r v msg := by
  obtain ⟨sendingCt2, hsample, -, hcarries⟩ := sampleCt2_eq (p := p) (r := r) h
  let r' : Round := { r with ct2 := true }
  have hside : CtSide p kem r' _ := .ct2Sampled henc rfl hcarries
  refine ⟨_, heq.trans ?_, .inr (.inl ⟨hct2, hside⟩)⟩
  rw [hsample]
  rfl

/-- Chunks of the header. -/
theorem CtSide.recv_hdr (hseed : r.seed = some seed) (henc : r.enc = none) (hct2 : r.ct2 = false)
    (hdec : dec.Collects (r.hdrMsg p kem seed)) (hc : c.Of (r.hdrMsg p kem seed)) :
    CtAccepts p kem r (.noHeaderReceived { epoch := r.epoch, auth := r.auth } dec)
      (chunkMessage r.epoch messageTypeHdr c) := by
  rcases hdec.addChunk (r.codeable_hdrMsg seed) hc with ⟨hnone, hcollects⟩ | hsome
  · exact .stay (.noHeaderReceived hseed henc hct2 hcollects) (recv_hdr_more hnone)
  · obtain ⟨dec', hdec', -⟩ := newPolyDecoder_ok mlkemEncapsulationKeySize (by decide)
    refine .stay (.headerReceived hseed henc hct2 hdec') ((recv_hdr_full hsome).trans ?_)
    rw [recvDecodedHdr_eq seed hdec']
    rfl

/-- Chunks of the key while the first part of the ciphertext is still sent. -/
theorem CtSide.recv_ek_ct1Sampled (laws : KemLaws kem) (hr : r.Valid kem)
    {sendingCt1 : PolyEncoder} {kind : MessageType} (hseed : r.seed = some seed)
    (henc : r.enc = some enc) (hct2 : r.ct2 = false) (hcarries : sendingCt1.Carries enc.ct1)
    (hdec : dec.Collects (mlkemKeysOfSeed kem seed).ek)
    (hkind : kind = messageTypeEk ∨ kind = messageTypeEkCt1Ack)
    (hc : c.Of (mlkemKeysOfSeed kem seed).ek) :
    CtAccepts p kem r (.ct1Sampled
      { epoch := r.epoch, auth := r.nextAuth p enc, hdr := (mlkemKeysOfSeed kem seed).hdr
        encaps := enc.state, ct1 := enc.ct1 } sendingCt1 dec) (chunkMessage r.epoch kind c) := by
  have hencaps := hr.encapsulates hseed henc
  rcases hdec.addChunk (codeable_ek seed) hc with ⟨hnone, hcollects⟩ | hsome
  · rcases hkind with rfl | rfl
    · refine .stay (.ct1Sampled hseed henc hct2 hcarries hcollects)
        ((recvAt_current rfl).trans ?_)
      show withoutKey (ct1SampledRecvEkChunk p kem _ _ _ _ c _) = _
      simp only [ct1SampledRecvEkChunk, hnone, ok_bind]
      rfl
    · exact .stay (.ct1Acknowledged hseed henc hct2 hcollects) (recv_ekAck_more hnone)
  · rcases hkind with rfl | rfl
    · refine .stay (.ekReceivedCt1Sampled hseed henc hct2 hcarries)
        ((recvAt_current rfl).trans ?_)
      show withoutKey (ct1SampledRecvEkChunk p kem _ _ _ r.epoch c _) = _
      simp only [ct1SampledRecvEkChunk, hsome, ok_bind, recvEk_eq laws seed]
      rfl
    · refine .sample hencaps henc hct2 ((recvAt_current rfl).trans ?_)
      show withoutKey (ct1SampledRecvEkChunk p kem _ _ _ r.epoch c _) = _
      simp only [ct1SampledRecvEkChunk, hsome, ok_bind, recvEk_eq laws seed]
      rfl

/-- Chunks of the key behind the acknowledgement. -/
theorem CtSide.recv_ek_ct1Acknowledged (laws : KemLaws kem) (hr : r.Valid kem)
    {kind : MessageType} (hseed : r.seed = some seed) (henc : r.enc = some enc)
    (hct2 : r.ct2 = false) (hdec : dec.Collects (mlkemKeysOfSeed kem seed).ek)
    (hkind : kind = messageTypeEk ∨ kind = messageTypeEkCt1Ack)
    (hc : c.Of (mlkemKeysOfSeed kem seed).ek) :
    CtAccepts p kem r (.ct1Acknowledged
      { epoch := r.epoch, auth := r.nextAuth p enc, hdr := (mlkemKeysOfSeed kem seed).hdr
        encaps := enc.state, ct1 := enc.ct1 } dec) (chunkMessage r.epoch kind c) := by
  have hencaps := hr.encapsulates hseed henc
  rcases hdec.addChunk (codeable_ek seed) hc with ⟨hnone, hcollects⟩ | hsome
  · exact .stay (.ct1Acknowledged hseed henc hct2 hcollects)
      (recv_ek_acknowledged_more hkind hnone)
  · refine .sample hencaps henc hct2 ((recv_ek_acknowledged hkind).trans ?_)
    simp only [ct1AcknowledgedRecvEkChunk, hsome, ok_bind, recvEk_eq laws seed]

theorem KeySide.ct2_of_done (h : KeySide p kem r v) (hdone : r.done = true) : r.ct2 = true := by
  cases h with
  | finished _ _ hct2 _ => exact hct2
  | _ => simp_all

theorem CtSide.epoch_eq (h : CtSide p kem r v) : v.epoch = r.epoch := by
  cases h <;> rfl

/-- The acknowledgement of the first part. -/
theorem CtSide.recv_ct1Ack (h : CtSide p kem r v) (hr : r.Valid kem) :
    CtAccepts p kem r v (plainMessage r.epoch messageTypeCt1Ack) := by
  have hside := h
  cases h with
  | ekReceivedCt1Sampled hseed henc hct2 _ =>
    exact .sample (hr.encapsulates hseed henc) henc hct2 ((recvAt_current rfl).trans rfl)
  | ct2Sampled _ _ _ => exact .stay hside (if_neg (UInt64.lt_irrefl _))
  | _ => exact .stay hside ((recvAt_current rfl).trans rfl)

/-- The first message of the next epoch. -/
theorem CtSide.recv_next (h : CtSide p kem r v) (hr : r.Valid kem) (hdone : r.done = true)
    (hct2 : r.ct2 = true) (hlt : r.e + 1 < 2 ^ 64) :
    CtAccepts p kem r v (plainMessage (r.epoch + 1) messageTypeNone) := by
  have hnewer : r.epoch < r.epoch + 1 := by
    rw [UInt64.lt_iff_toNat_lt, Round.toNat_epoch_succ hlt, hr.toNat_epoch]
    omega
  cases h with
  | ct2Sampled henc _ _ =>
    exact ⟨_, recv_next_epoch hnewer, .inr (.inr ⟨_, hdone, hlt, henc, rfl⟩)⟩
  | _ => simp_all

/-- **The party of the ciphertext receives**: no message of the other party is refused. -/
theorem CtSide.recv (h : CtSide p kem r v) (laws : KemLaws kem) (hr : r.Valid kem)
    (hdone : r.done = true → r.ct2 = true) (hm : MsgOk p kem r r.keyParty msg) :
    CtAccepts p kem r v msg := by
  have hside := h
  rcases hm.of_keyParty with hlt | ⟨seed, c, hseed, hc, rfl⟩ |
    ⟨seed, c, kind, hseed, hkind, hc, rfl⟩ | rfl | ⟨hd, hlt, rfl⟩
  · refine .stay h (recv_old ?_)
    rw [h.epoch_eq, UInt64.lt_iff_toNat_lt, hr.toNat_epoch]
    exact hlt
  · cases h with
    | idle hnone _ _ =>
      rw [hseed] at hnone
      cases hnone
    | noHeaderReceived hseed' henc hct2 hdec =>
      rw [hseed] at hseed'
      cases hseed'
      exact recv_hdr hseed henc hct2 hdec hc
    | ct2Sampled _ _ _ => exact .stay hside (if_neg (UInt64.lt_irrefl _))
    | _ => exact .stay hside ((recvAt_current rfl).trans rfl)
  · cases h with
    | ct1Sampled hseed' henc hct2 hcarries hdec =>
      rw [hseed] at hseed'
      cases hseed'
      exact recv_ek_ct1Sampled laws hr hseed henc hct2 hcarries hdec hkind hc
    | ekReceivedCt1Sampled hseed' henc hct2 _ =>
      rcases hkind with rfl | rfl
      · exact .stay hside ((recvAt_current rfl).trans rfl)
      · exact .sample (hr.encapsulates hseed' henc) henc hct2 ((recvAt_current rfl).trans rfl)
    | ct1Acknowledged hseed' henc hct2 hdec =>
      rw [hseed] at hseed'
      cases hseed'
      exact recv_ek_ct1Acknowledged laws hr hseed henc hct2 hdec hkind hc
    | ct2Sampled _ _ _ => exact .stay hside (if_neg (UInt64.lt_irrefl _))
    | _ => rcases hkind with rfl | rfl <;> exact .stay hside ((recvAt_current rfl).trans rfl)
  · exact hside.recv_ct1Ack hr
  · exact hside.recv_next hr hd (hdone hd) hlt

end

end SignalGo.Spqr
