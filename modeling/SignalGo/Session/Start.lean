import SignalGo.Session.OneWay

/-!
# The start of a session

An initiator opens a session with a bundle and sends on without an answer; some of what it has sent
reaches the responder, in some order. `EncryptWithPreKeyBundle` makes the one `PreKeySignalMessage`
of the session: what `Encrypt` makes afterwards carries nothing of the handshake, although the
initiator does not know whether the responder has a session yet. So a delivery is opened as a whole
exactly if it begins with the `PreKeySignalMessage`, and the responder accepts the handshake.

* `answer_ok`: the responder's session, from the keys of the bundle.
* `Opening`: the initiator's first message with what both sides need to know about it.
* `Opening.accepts`, `Opening.required`: the responder and the first message.
* `sending_run`: the initiator's further messages.
* `session_start`: which deliveries are opened.
-/

namespace SignalGo.Session

open Effect
open Ratchet (DHLaws KeyPairValid)
open X3dh (ResponderKeys Holds SameHandshake)

variable {s : Suite} {kem : Spqr.Kem} {w : Protowire}

/-! ## New sessions -/

/-- The session of a handshake, with its two ratchets. -/
def opened (state : Ratchet.State) (pqrState : Option Spqr.State)
    (localIdentity remoteIdentity : IdentityKey) (result : X3dh.Result) : Session :=
  { newSession state localIdentity remoteIdentity result.associatedData with
    pqrState := pqrState
    version := ciphertextVersionFromX3DH result.initialMessage }

theorem normalizeCiphertextVersion_fromX3DH (msg : X3dh.Message) :
    normalizeCiphertextVersion (ciphertextVersionFromX3DH msg) =
      some (ciphertextVersionFromX3DH msg) := by
  unfold ciphertextVersionFromX3DH
  split <;> rfl

/-- The post-quantum ratchets that the two roles start from a key of the handshake. -/
def StartsPQR (s : Suite) (key : Option Key) (a b : Option Spqr.State) : Prop :=
  ∀ (session : Session) (result : X3dh.Result) (isInitiator : Bool), result.pqrKey = key →
    session.pqrState = none → initSessionPQR s session result isInitiator =
      .ok { session with pqrState := if isInitiator then a else b }

theorem newState_of_key (p : Prims) (key : Key) (dir : Spqr.Direction) (params : Spqr.ChainParams) :
    ∃ state, Spqr.newState p key.toBytes dir params = .ok state := by
  have hlen : key.toBytes.length ≠ 0 := by
    rw [key.length_toBytes]
    decide
  obtain ⟨v1, hv1, -⟩ := Spqr.initV1State_ok (p := p) hlen dir
  rw [Spqr.newState, Spqr.newStateWithMinVersion, if_neg hlen, if_neg (by decide), hv1]
  exact ⟨_, rfl⟩

/-- Both roles start, and have the two ends of one exchange. -/
theorem exists_startsPQR (s : Suite) (kem : Spqr.Kem) (key : Option Key) :
    ∃ a b, StartsPQR s key a b ∧ PqrPair s kem a b [] := by
  cases key with
  | none =>
    refine ⟨none, none, fun session result isInitiator hkey hnone => ?_, .absent nofun⟩
    simp only [initSessionPQR, hkey, ite_self]
    rw [← hnone]
  | some key =>
    obtain ⟨a, ha⟩ := newState_of_key s.toPrims key Spqr.directionA2B { MaxJump := 0, MaxOOO := 0 }
    obtain ⟨b, hb⟩ := newState_of_key s.toPrims key Spqr.directionB2A { MaxJump := 0, MaxOOO := 0 }
    refine ⟨some a, some b, fun session result isInitiator hkey _ => ?_,
      @PqrPair.oneWay s kem key _ (Spqr.oneWay_start ha hb)⟩
    cases isInitiator with
    | true =>
      simp only [initSessionPQR, hkey, if_true, ha, ok_bind]
      rfl
    | false =>
      simp only [initSessionPQR, hkey, Bool.false_eq_true, if_false, hb, ok_bind]
      rfl

variable {env : Env} {session : Session} {b : Option Spqr.State}

/-- What `buildSession` does once the post-quantum ratchets are known. -/
theorem buildSession_ok {localIdentity remoteIdentity : IdentityKey} {result : X3dh.Result}
    {isInitiator : Bool} {a : Option Spqr.State} (hstarts : StartsPQR s result.pqrKey a b) :
    buildSession s env localIdentity remoteIdentity result isInitiator = .ok session ↔
      ∃ state, Ratchet.initializeState s.toPrims env.initRatchet result isInitiator = .ok state ∧
        session = opened state (if isInitiator then a else b) localIdentity remoteIdentity
          result := by
  have hpqr (state : Ratchet.State) := hstarts
    (newSession state localIdentity remoteIdentity result.associatedData) result isInitiator rfl rfl
  constructor
  · intro h
    obtain ⟨state, hstate, hrest⟩ := bind_eq_ok.mp h
    rw [hpqr, ok_bind] at hrest
    cases hrest
    refine ⟨state, mapError_eq_ok.mp hstate, ?_⟩
    rw [setSessionCiphertextVersion, normalizeCiphertextVersion_fromX3DH]
    rfl
  · rintro ⟨state, hstate, rfl⟩
    rw [buildSession, mapError_eq_ok.mpr hstate, ok_bind, hpqr, ok_bind,
      setSessionCiphertextVersion, normalizeCiphertextVersion_fromX3DH]
    rfl

/-! ## The handshake from both sides -/

section Handshake

variable {r : ResponderKeys s.toPrims} {bundle : PreKeyBundle} {registrationID deviceID : UInt32}
  {identity : IdentityKeyPair} {ephemeral : Except String Key} {kyber : Bytes}
  {result : X3dh.Result} {m : X3dh.Message}

/-- The Kyber parts of the responder's keys open what is encapsulated for them. -/
def KyberOpens (s : Suite) (r : ResponderKeys s.toPrims) (kyber : Bytes) : Prop :=
  ∀ k, r.kyberPreKey = some k → ∀ ss ct,
    kyber1024Encapsulate s kyber k.keyPair.publicKey = .ok (ss, ct) →
      kyber1024Decapsulate s k.keyPair.privateKey ct = .ok ss

/-- What the responder derives from a message of the initiator's handshake. -/
def answered {p : Prims} (r : ResponderKeys p) (result : X3dh.Result) (m : X3dh.Message) :
    X3dh.Result where
  sharedSecret := result.sharedSecret
  initialChainKey := result.initialChainKey
  pqrKey := result.pqrKey
  associatedData := result.associatedData
  remoteIdentity := m.identityKey
  initialMessage := m
  localEphemeral := none
  localRatchetKey := some r.signedPreKey.keyPair
  remoteRatchetKey := none

/-- The fields of the initiator's result that the sessions are made of. -/
theorem result_fields (hbundle : r.bundle registrationID deviceID = .ok bundle)
    (hresult : (X3dh.newInitiator s identity ephemeral kyber).processPreKeyBundle s bundle =
      .ok result) :
    result.initialMessage.identityKey = identity.publicKey ∧
      result.initialMessage.signedPreKeyID = r.signedPreKey.id ∧
      bundle.identityKey = r.identity.publicKey ∧ result.associatedData.length ≤ 2 ^ 10 := by
  obtain ⟨t⟩ := X3dh.Initiator.processPreKeyBundle_ok.mp hresult
  obtain ⟨hid, hsid, -⟩ := X3dh.newPreKeyBundleWithKyber_ok hbundle
  rw [t.result_eq]
  refine ⟨rfl, hsid, hid, ?_⟩
  simp [X3dh.associatedData, serializeWirePublicKey]

/-- There is an initial chain key exactly if there is a Kyber pre-key. -/
theorem isSome_initialChainKey
    (hresult : (X3dh.newInitiator s identity ephemeral kyber).processPreKeyBundle s bundle =
      .ok result) : result.initialChainKey.isSome = bundle.kyberPreKeyID.isSome := by
  obtain ⟨t⟩ := X3dh.Initiator.processPreKeyBundle_ok.mp hresult
  have henc := t.encapsulated
  have hderived := t.derived
  rw [t.result_eq]
  unfold X3dh.Initiator.encapsulate at henc
  cases hk : bundle.kyberPreKeyID with
  | none =>
    simp only [hk, Except.ok.injEq, Prod.mk.injEq] at henc
    rw [← henc.1] at hderived
    obtain ⟨root, -, hsec⟩ := bind_eq_ok.mp hderived
    rw [← Except.ok.inj hsec]
    rfl
  | some id =>
    simp only [hk] at henc
    obtain ⟨⟨ss, ct⟩, -, hret⟩ := bind_eq_ok.mp henc
    simp only [pure, Except.pure, Except.ok.injEq, Prod.mk.injEq] at hret
    rw [← hret.1] at hderived
    obtain ⟨secrets, -, hsec⟩ := bind_eq_ok.mp hderived
    rw [← Except.ok.inj hsec]
    rfl

/-- The two ends of a handshake have matching ratchets. -/
theorem matching_answered (hbundle : r.bundle registrationID deviceID = .ok bundle)
    (hresult : (X3dh.newInitiator s identity ephemeral kyber).processPreKeyBundle s bundle =
      .ok result) :
    ∃ ek, generateKeyPair s.toPrims ephemeral = .ok ek ∧
      ∀ m, SameHandshake m result.initialMessage →
        Ratchet.Matching s.toPrims result (answered r result m) ek r.signedPreKey.keyPair := by
  obtain ⟨t⟩ := X3dh.Initiator.processPreKeyBundle_ok.mp hresult
  obtain ⟨-, -, hspub, -⟩ := X3dh.newPreKeyBundleWithKyber_ok hbundle
  refine ⟨t.ephemeral, t.generated, fun m hm => ⟨rfl, rfl, ?_, ?_, rfl, ?_,
    Ratchet.keyPairValid_generateKeyPair t.generated, r.signedPreKey_valid⟩⟩
  · exact congrArg X3dh.Result.localEphemeral t.result_eq
  · exact hm.ephemeralKey.trans (congrArg (·.initialMessage.ephemeralKey) t.result_eq)
  · exact (congrArg X3dh.Result.remoteRatchetKey t.result_eq).trans (congrArg some hspub)

/-- **The responder's session.** With the private keys of the bundle it is there exactly if the
message is usable and the ratchet starts. -/
theorem answer_ok {addr : Address} {st st' : Store} {a : Option Spqr.State}
    (laws : DHLaws s.toPrims) (hidentity : KeyPairValid s.toPrims identity.keyPair)
    (hkyber : KyberOpens s r kyber) (hbundle : r.bundle registrationID deviceID = .ok bundle)
    (hresult : (X3dh.newInitiator s identity ephemeral kyber).processPreKeyBundle s bundle =
      .ok result) (hown : st.identityKeyPair = r.identity)
    (hsigned : st.signedKeys[r.signedPreKey.id]? = some r.signedPreKey) (hholds : Holds st r)
    (hm : SameHandshake m result.initialMessage) (hstarts : StartsPQR s result.pqrKey a b) :
    processPreKeyMessage s env addr m st = .ok session st' ↔
      Usable env addr st m r.signedPreKey ∧
        ∃ state, Ratchet.initializeState s.toPrims env.initRatchet (answered r result m) false =
            .ok state ∧
          session = opened state b r.identity.publicKey m.identityKey (answered r result m) ∧
          st' = (X3dh.consumed m.preKeyID st).saveIdentity addr m.identityKey := by
  have hderives : X3dh.processInitialMessage s r.identity r.signedPreKey m st =
      .ok (answered r result m) (X3dh.consumed m.preKeyID st) :=
    X3dh.responder_derives (r := r) (x := X3dh.newInitiator s identity ephemeral kyber) laws
      hidentity
      (fun kp hkp => Ratchet.keyPairValid_generateKeyPair hkp) hkyber hbundle hresult hholds hm
  have hid : m.signedPreKeyID = r.signedPreKey.id :=
    hm.signedPreKeyID.trans (result_fields hbundle hresult).2.1
  have hbuild : buildSession s env r.identity.publicKey m.identityKey (answered r result m) false =
      .ok session ↔ _ := buildSession_ok hstarts
  rw [processPreKeyMessage_ok]
  constructor
  · rintro ⟨signedPreKey, husable, result', st1, hprocess, hb, hst⟩
    -- the store has one signed pre-key under the id
    have hstored := husable.stored
    rw [hid, hsigned, Option.some.injEq] at hstored
    subst hstored
    rw [hown] at hprocess hb
    rw [hderives] at hprocess
    cases hprocess
    obtain ⟨state, hstate, hsession⟩ := hbuild.mp hb
    exact ⟨husable, state, hstate, hsession, hst⟩
  · rintro ⟨husable, state, hstate, hsession, hst⟩
    rw [hown]
    exact ⟨_, husable, _, _, hderives, hbuild.mpr ⟨state, hstate, hsession⟩, hst⟩

end Handshake

/-! ## The first message -/

/-- The ratchet pair of the initiator is another one than its ephemeral pair. There are two pairs
only if the handshake has a Kyber part. -/
def FreshRatchetKey (p : Prims) (env : Env) (bundle : PreKeyBundle) : Prop :=
  bundle.kyberPreKeyID.isSome → ∀ ek kp, generateKeyPair p env.ephemeral = .ok ek →
    generateKeyPair p (env.initRatchet 0) = .ok kp → ek.publicKey ≠ kp.publicKey

/-- What `EncryptWithPreKeyBundle` made: the session before and after the message, the epoch of the
ratchet it was sent in, and the message as the responder parses it. -/
structure Opening (s : Suite) (kem : Spqr.Kem) (w : Protowire) (r : ResponderKeys s.toPrims)
    (identity : IdentityKeyPair) (env : Env) (bundle : PreKeyBundle)
    (plaintext ciphertext : Bytes) where
  result : X3dh.Result
  base : Session
  start : Ratchet.Epoch
  peer : Ratchet.Epoch
  older : List Ratchet.Epoch
  pqrA : Option Spqr.State
  pqrB : Option Spqr.State
  session : Session
  entry : Entry
  preKeyMsg : Wire.PreKeySignalMessage
  processed : (X3dh.newInitiator s identity env.ephemeral env.kyber).processPreKeyBundle s bundle =
    .ok result
  starts : StartsPQR s result.pqrKey pqrA pqrB
  opened : ∃ state,
    Ratchet.initializeState s.toPrims env.initRatchet result true = .ok state ∧
      base = Session.opened state pqrA identity.publicKey bundle.identityKey result ∧
      state.dhs = some start.kp
  -- the session after the message
  sending : Sending s kem w base start peer older pqrB session [entry]
  durable : session.Durable s.toPrims
  older_le : older.length ≤ 1
  valid : KeyPairValid s.toPrims start.kp
  awaited : ∀ rnd state, Ratchet.initializeState s.toPrims rnd
      (answered r result (X3dh.ofPreKeySignalMessage preKeyMsg)) false = .ok state →
    FreshRatchetKey s.toPrims env bundle →
      Ratchet.Awaits s.toPrims state (start.after 0) (peer :: older)
  -- the bytes
  plaintext_eq : entry.plaintext = plaintext
  ciphertext_eq : entry.ciphertext = ciphertext
  not_signal : ∃ e, Wire.parseSignalMessage s.toPrims w ciphertext = .error e
  parses : Wire.parsePreKeySignalMessage s.toPrims w ciphertext = .ok preKeyMsg
  message : preKeyMsg.message = entry.msg
  handshake : SameHandshake (X3dh.ofPreKeySignalMessage preKeyMsg) result.initialMessage
  identity_eq : preKeyMsg.identityKey = ⟨identity.publicKey.publicKey, .zero⟩

variable {base : Session}

/-- The bytes of an entry's message parse. -/
theorem Entry.Made.parses {e : Ratchet.Epoch} {before : List Ratchet.Epoch} {x : Entry}
    (hx : x.Made s w base e before) (wireLaws : w.Laws) (laws : DHLaws s.toPrims)
    (hvalid : KeyPairValid s.toPrims e.kp) :
    Wire.parseSignalMessage s.toPrims w x.msg.serialized = .ok x.msg := by
  have hkey : isValidPublicKey s.toPrims x.header.dh = true := by
    rw [hx.sent.dh]
    exact isValidPublicKey_of_keyPairValid laws hvalid
  exact Wire.parseSignalMessage_serialized wireLaws hkey hx.sealed

section Opening

variable {r : ResponderKeys s.toPrims} {bundle : PreKeyBundle} {registrationID deviceID : UInt32}
  {env : Env} {addr : Address} {st st' : Store} {plaintext ciphertext : Bytes}

/-- The epoch that the initiator starts in is the one the responder awaits. -/
theorem exists_start {identity : IdentityKeyPair} {result : X3dh.Result} {state : Ratchet.State}
    {m : X3dh.Message} (laws : DHLaws s.toPrims)
    (hbundle : r.bundle registrationID deviceID = .ok bundle)
    (hresult : (X3dh.newInitiator s identity env.ephemeral env.kyber).processPreKeyBundle s bundle =
      .ok result)
    (hstate : Ratchet.initializeState s.toPrims env.initRatchet result true = .ok state)
    (hm : SameHandshake m result.initialMessage) :
    ∃ (start peer : Ratchet.Epoch) (older : List Ratchet.Epoch),
      Ratchet.View s.toPrims [] state (start.after 0) peer older ∧
      older.length ≤ 1 ∧ KeyPairValid s.toPrims start.kp ∧
      ∀ rnd state', Ratchet.initializeState s.toPrims rnd (answered r result m) false = .ok state' →
        FreshRatchetKey s.toPrims env bundle →
          Ratchet.Awaits s.toPrims state' (start.after 0) (peer :: older) := by
  obtain ⟨ek, hek, hmatching⟩ := matching_answered hbundle hresult
  obtain ⟨start, peer, older, hview, hlen, hzero, hvalid, hawaits⟩ :=
    Ratchet.awaits_initial laws (hmatching m hm) hstate
  have hstart : start.after 0 = start := hzero ▸ start.after_sent
  rw [← hstart] at hview
  refine ⟨start, peer, older, hview, hlen, hvalid, fun rnd state' hstate' hfresh => ?_⟩
  rw [hstart]
  refine hawaits rnd state' hstate' fun hsome => ?_
  -- with a chain key the ratchet pair is a generated one
  obtain ⟨kp, hkp, hdhs⟩ := Ratchet.initiator_dhs hstate hsome
  have hpair : kp = start.kp := Option.some.inj (hdhs.symm.trans hview.dhs)
  rw [isSome_initialChainKey hresult] at hsome
  have hne := hfresh hsome ek kp hek hkp
  rwa [hpair] at hne

/-- The session of the initiator before its first message. -/
theorem sending_start {start peer : Ratchet.Epoch} {older : List Ratchet.Epoch}
    (hview : Ratchet.View s.toPrims [] base.ratchetState (start.after 0) peer older)
    (hpqr : PqrPair s kem base.pqrState b []) :
    Sending s kem w base start peer older b base [] where
  view := hview
  pqr := hpqr
  same := rfl
  made _ hx := absurd hx List.not_mem_nil
  numbers := rfl

/-- **A successful `EncryptWithPreKeyBundle` is an opening.** -/
theorem opening_of_encrypt (wireLaws : w.Laws) (sized : w.Sized) (laws : DHLaws s.toPrims)
    (kemLaws : Spqr.KemLaws kem) (hidentity : KeyPairValid s.toPrims st.identityKeyPair.keyPair)
    (hbundle : r.bundle registrationID deviceID = .ok bundle)
    (h : encryptWithPreKeyBundle s kem w env addr bundle plaintext st = .ok ciphertext st') :
    ∃ o : Opening s kem w r st.identityKeyPair env bundle plaintext ciphertext,
      Stored s addr o.session st' := by
  obtain ⟨-, base, x3msg, st1, session, signalMsg, preKeyMsg, hprocess, henc, hpre, rfl, rfl⟩ :=
    encryptWithPreKeyBundle_ok h
  have hlocal := isValidPublicKey_of_keyPairValid laws hidentity
  have hdurable := (durable_processPreKeyBundle hlocal hprocess).encrypt henc
  obtain ⟨-, result, hresult, hbuild, rfl, rfl⟩ := processPreKeyBundle_ok.mp hprocess
  obtain ⟨hid, -, -, hdata⟩ := result_fields hbundle hresult
  obtain ⟨a, b, hstarts, hpair⟩ := exists_startsPQR s kem result.pqrKey
  obtain ⟨state, hstate, rfl⟩ := (buildSession_ok hstarts).mp hbuild
  -- the handshake as it is parsed: the signing half of the identity is lost
  have hfields := ((Wire.newPreKeySignalMessage_eq_ok w).mp hpre).2.2.2
  have hsame : SameHandshake (X3dh.ofPreKeySignalMessage { preKeyMsg with
      identityKey := ⟨result.initialMessage.identityKey.publicKey, .zero⟩ })
      result.initialMessage := by
    rw [hfields]
    exact ⟨rfl, rfl, rfl, rfl, rfl, rfl⟩
  obtain ⟨start, peer, older, hview, hlen, hvalid, hawaited⟩ :=
    exists_start laws hbundle hresult hstate hsame
  obtain ⟨header, messageKey, payload, hsending⟩ :=
    (sending_start hview hpair).encrypt kemLaws henc preKeyMsg.serialized
  have hinner := (hsending.made _ (List.mem_singleton_self _)).parses wireLaws laws hvalid
  have hbase : isValidPublicKey s.toPrims result.initialMessage.ephemeralKey = true := by
    obtain ⟨ek, -, hmatching⟩ := matching_answered hbundle hresult
    have hm := hmatching result.initialMessage ⟨rfl, rfl, rfl, rfl, rfl, rfl⟩
    have hek : result.initialMessage.ephemeralKey = ek.publicKey := hm.ephemeralKey
    rw [hek]
    exact isValidPublicKey_of_keyPairValid laws hm.ek_valid
  have hparses := Wire.parsePreKeySignalMessage_serialized wireLaws hbase (by rwa [hid]) hinner hpre
  rw [newRecord_eq hdurable.sound]
  exact ⟨{
    result
    base := _
    start, peer, older
    pqrA := a
    pqrB := b
    session
    entry := _
    preKeyMsg := _
    processed := hresult
    starts := hstarts
    opened := ⟨state, hstate, rfl, hview.dhs⟩
    sending := hsending
    durable := hdurable
    older_le := hlen
    valid := hvalid
    awaited := hawaited
    plaintext_eq := rfl
    ciphertext_eq := rfl
    not_signal := Wire.parseSignalMessage_preKey s.toPrims wireLaws sized hpre
    parses := hparses
    message := by rw [hfields]
    handshake := hsame
    identity_eq := by rw [hid] }, hsending.stored hdurable hdata hlen⟩

/-! ## The responder and the first message -/

/-- The store has the private keys of the bundle, and no session with the initiator. -/
structure Prepared {p : Prims} (r : ResponderKeys p) (addr : Address) (st : Store) : Prop where
  identity : st.identityKeyPair = r.identity
  signedPreKey : st.signedKeys[r.signedPreKey.id]? = some r.signedPreKey
  holds : Holds st r
  unopened : st.sessions[addr]? = none

/-- The random bytes of the call give key pairs. -/
structure Env.Supplied (p : Prims) (env : Env) : Prop where
  initRatchet : ∃ kp, generateKeyPair p (env.initRatchet 0) = .ok kp
  newRatchet : ∃ kp, generateKeyPair p env.newRatchet = .ok kp

/-- The responder trusts the initiator's identity, and the signed pre-key is not too old. -/
structure Admits {p : Prims} (r : ResponderKeys p) (addr : Address) (identity : IdentityKeyPair)
    (now : Int) (st : Store) : Prop where
  trusted : st.isTrustedIdentity addr ⟨identity.publicKey.publicKey, .zero⟩ = true
  unexpired : st.signedPreKeyExpired r.signedPreKey now = false

namespace Opening

variable {identity : IdentityKeyPair} {envA : Env}

/-- The responder's session is the other end of the initiator's. -/
theorem facing (o : Opening s kem w r identity envA bundle plaintext ciphertext)
    (hbundle : r.bundle registrationID deviceID = .ok bundle) (state : Ratchet.State) :
    Facing o.base (Session.opened state o.pqrB r.identity.publicKey o.preKeyMsg.identityKey
      (answered r o.result (X3dh.ofPreKeySignalMessage o.preKeyMsg))) := by
  obtain ⟨stateA, -, hbase, -⟩ := o.opened
  obtain ⟨-, -, hid, hdata⟩ := result_fields hbundle o.processed
  have hversion : ciphertextVersionFromX3DH (X3dh.ofPreKeySignalMessage o.preKeyMsg) =
      ciphertextVersionFromX3DH o.result.initialMessage := by
    simp only [ciphertextVersionFromX3DH, o.handshake.kyberPreKeyID, o.handshake.kyberCiphertext]
  rw [hbase]
  refine ⟨?_, ?_, ?_, hdata⟩
  · show o.preKeyMsg.identityKey.publicKey = identity.publicKey.publicKey
    rw [o.identity_eq]
  · exact congrArg IdentityKey.publicKey hid.symm
  · show normalizeCiphertextVersion (ciphertextVersionFromX3DH _) =
      some ((normalizeCiphertextVersion (ciphertextVersionFromX3DH _)).getD _)
    simp only [answered, hversion, normalizeCiphertextVersion_fromX3DH, Option.getD_some]

theorem header_zero (o : Opening s kem w r identity envA bundle plaintext ciphertext) :
    o.entry.header.n = 0 := by
  have hlt := o.sending.number_lt (List.mem_singleton_self _)
  exact UInt32.toNat_inj.mp (Nat.lt_one_iff.mp hlt)

/-- The first message is usable exactly if the responder admits the initiator. -/
theorem usable_iff (o : Opening s kem w r identity envA bundle plaintext ciphertext)
    (hbundle : r.bundle registrationID deviceID = .ok bundle) (hst : Prepared r addr st) :
    Usable env addr st (X3dh.ofPreKeySignalMessage o.preKeyMsg) r.signedPreKey ↔
      Admits r addr identity env.now st := by
  have hkey : (X3dh.ofPreKeySignalMessage o.preKeyMsg).identityKey =
      ⟨identity.publicKey.publicKey, .zero⟩ := o.identity_eq
  have hid : (X3dh.ofPreKeySignalMessage o.preKeyMsg).signedPreKeyID = r.signedPreKey.id :=
    o.handshake.signedPreKeyID.trans (result_fields hbundle o.processed).2.1
  constructor
  · intro h
    exact ⟨hkey ▸ h.trusted, h.unexpired⟩
  · intro h
    exact ⟨hkey ▸ h.trusted, hid ▸ hst.signedPreKey, h.unexpired⟩

/-- What the call did, if it succeeded. -/
theorem decrypt_ok (o : Opening s kem w r identity envA bundle plaintext ciphertext)
    (laws : DHLaws s.toPrims) (hidentity : KeyPairValid s.toPrims identity.keyPair)
    (hkyber : KyberOpens s r envA.kyber) (hbundle : r.bundle registrationID deviceID = .ok bundle)
    (hst : Prepared r addr st) {out : Bytes} :
    decrypt s kem w env addr ciphertext st = .ok out st' ↔
      Admits r addr identity env.now st ∧ ∃ state session',
        Ratchet.initializeState s.toPrims env.initRatchet
          (answered r o.result (X3dh.ofPreKeySignalMessage o.preKeyMsg)) false = .ok state ∧
        decryptSignalWithSession s kem env.newRatchet (Session.opened state o.pqrB
            r.identity.publicKey o.preKeyMsg.identityKey
            (answered r o.result (X3dh.ofPreKeySignalMessage o.preKeyMsg))) o.entry.msg =
          .ok (session', out) ∧
        st' = persisted env addr (newRecord session' defaultMaxArchivedSessions)
          ((X3dh.consumed o.preKeyMsg.preKeyID st).saveIdentity addr o.preKeyMsg.identityKey) := by
  obtain ⟨e, hsignal⟩ := o.not_signal
  have hanswer {session : Session} {st1 : Store} : processPreKeyMessage s env addr
      (X3dh.ofPreKeySignalMessage o.preKeyMsg) st = .ok session st1 ↔ _ :=
    answer_ok laws hidentity hkyber hbundle o.processed hst.identity hst.signedPreKey hst.holds
      o.handshake o.starts
  rw [decrypt_of_preKey hst.unopened hsignal o.parses, startSession_ok, o.message]
  constructor
  · rintro ⟨session, st1, session', hprocess, hdec, rfl⟩
    obtain ⟨husable, state, hstate, rfl, rfl⟩ := hanswer.mp hprocess
    exact ⟨(o.usable_iff hbundle hst).mp husable, state, session', hstate, hdec, rfl⟩
  · rintro ⟨hadmits, state, session', hstate, hdec, rfl⟩
    exact ⟨_, _, session', hanswer.mpr ⟨(o.usable_iff hbundle hst).mpr hadmits, state, hstate, rfl,
      rfl⟩, hdec, rfl⟩

/-- The responder needs a ratchet key that is not the ephemeral key. -/
theorem required (o : Opening s kem w r identity envA bundle plaintext ciphertext)
    (laws : DHLaws s.toPrims) (hidentity : KeyPairValid s.toPrims identity.keyPair)
    (hkyber : KyberOpens s r envA.kyber) (hbundle : r.bundle registrationID deviceID = .ok bundle)
    (hst : Prepared r addr st) {out : Bytes}
    (h : decrypt s kem w env addr ciphertext st = .ok out st') :
    Admits r addr identity env.now st ∧ FreshRatchetKey s.toPrims envA bundle := by
  obtain ⟨hadmits, state, session', hstate, hdec, -⟩ :=
    (o.decrypt_ok laws hidentity hkyber hbundle hst).mp h
  refine ⟨hadmits, fun hsome ek kp hek hkp heq => ?_⟩
  -- the header is under the generated pair
  obtain ⟨stateA, hstateA, -, hdhs⟩ := o.opened
  rw [← isSome_initialChainKey o.processed] at hsome
  obtain ⟨kp', hkp', hdhs'⟩ := Ratchet.initiator_dhs hstateA hsome
  have hpair : kp = o.start.kp := by
    rw [hkp] at hkp'
    exact (Except.ok.inj hkp').trans (Option.some.inj (hdhs'.symm.trans hdhs))
  have hmade := o.sending.made _ (List.mem_singleton_self _)
  have hdh : o.entry.header.dh = ek.publicKey := by
    rw [hmade.sent.dh, heq, hpair]
    rfl
  -- and that is the current key of the responder, without a chain
  obtain ⟨ck, hck⟩ := Option.isSome_iff_exists.mp hsome
  obtain ⟨ek', hek', hmatching⟩ := matching_answered hbundle o.processed
  rw [hek] at hek'
  cases hek'
  obtain ⟨err, hrefused⟩ := Ratchet.refuses_ephemeral (hmatching _ o.handshake) hck hstate hdh
    o.header_zero env.newRatchet
  obtain ⟨-, next, messageKey, pqrNext, salt, hadv, -⟩ := decryptSignalWithSession_ok.mp hdec
  have hheader : messageHeader o.entry.msg = o.entry.header := hmade.sealed.fields.1
  rw [hheader] at hadv
  exact absurd (hadv.symm.trans hrefused) nofun

/-- **The first message** opens the responder's session, in the epoch of everything that the
initiator has sent by then. -/
theorem accepts (o : Opening s kem w r identity envA bundle plaintext ciphertext)
    (laws : DHLaws s.toPrims) (cbcLaws : s.CbcLaws) (kemLaws : Spqr.KemLaws kem)
    (hidentity : KeyPairValid s.toPrims identity.keyPair) (hkyber : KyberOpens s r envA.kyber)
    (hbundle : r.bundle registrationID deviceID = .ok bundle) (hst : Prepared r addr st)
    (hadmits : Admits r addr identity env.now st) (hfresh : FreshRatchetKey s.toPrims envA bundle)
    (hrnd : env.Supplied s.toPrims) {entries : List Entry}
    (hsending : Sending s kem w o.base o.start o.peer o.older o.pqrB session entries)
    (hmem : o.entry ∈ entries) :
    ∃ session' st', decrypt s kem w env addr ciphertext st = .ok plaintext st' ∧
      Stored s addr session' st' ∧
      Receiving s kem o.base (o.start.after entries.length) session.pqrState
        (entries.map Entry.payload) session' [o.entry.header] := by
  obtain ⟨kp, hkp⟩ := hrnd.initRatchet
  obtain ⟨kp', hkp'⟩ := hrnd.newRatchet
  obtain ⟨stateA, hstateA, -, -⟩ := o.opened
  obtain ⟨ek, -, hmatching⟩ := matching_answered hbundle o.processed
  obtain ⟨state, hstate⟩ :=
    Ratchet.initializeState_responder laws (hmatching _ o.handshake) hstateA hkp
  have hzero : o.entry.header.n.toNat ≤ Ratchet.maxSkip := by
    rw [o.header_zero]
    exact Nat.zero_le _
  -- the fresh session of the responder faces what the initiator has sent
  obtain ⟨session', hdec, hreceiving⟩ := (o.facing hbundle state).opens
    ((o.awaited _ state hstate hfresh).after entries.length) hsending.pqr laws cbcLaws kemLaws
    o.valid (hsending.made _ hmem) (List.mem_map_of_mem hmem) hzero hkp'
  rw [o.plaintext_eq] at hdec
  refine ⟨session', _, (o.decrypt_ok laws hidentity hkyber hbundle hst).mpr
    ⟨hadmits, state, session', hstate, hdec, rfl⟩, ?_, hreceiving⟩
  have hstarts : StartsPQR s (answered r o.result (X3dh.ofPreKeySignalMessage
      o.preKeyMsg)).pqrKey o.pqrA o.pqrB := o.starts
  have hbuild : buildSession s env r.identity.publicKey o.preKeyMsg.identityKey
      (answered r o.result (X3dh.ofPreKeySignalMessage o.preKeyMsg)) false = .ok _ :=
    (buildSession_ok hstarts).mpr ⟨state, hstate, rfl⟩
  -- and it is one that can be stored
  have hdurable : session'.Durable s.toPrims := by
    refine (durable_buildSession ?_ ?_ hbuild).decrypt hdec
    · exact isValidPublicKey_of_keyPairValid laws r.identity_valid
    · rw [o.identity_eq]
      exact isValidPublicKey_of_keyPairValid laws hidentity
  rw [newRecord_eq hdurable.sound]
  exact hreceiving.stored hdurable

end Opening

end Opening

/-! ## The further messages -/

/-- Calls of `Encrypt`, each with what comes from outside; a label is a plaintext with the
ciphertext that was made of it. -/
def EncryptStep (s : Suite) (kem : Spqr.Kem) (w : Protowire) (addr : Address) (st : Store)
    (sent : Bytes × Bytes) (st' : Store) : Prop :=
  ∃ env, encrypt s kem w env addr sent.1 st = .ok sent.2 st'

section Sending

variable {base session : Session} {start peer : Ratchet.Epoch} {older : List Ratchet.Epoch}
  {b : Option Spqr.State} {entries : List Entry} {addr : Address} {st st' : Store}

/-- One `Encrypt` is one more entry, and the session is stored. -/
theorem sending_step {sent : Bytes × Bytes} (kemLaws : Spqr.KemLaws kem)
    (hdata : base.associatedData.length ≤ 2 ^ 10) (holder : older.length ≤ 1)
    (h : Sending s kem w base start peer older b session entries)
    (hstored : Stored s addr session st) (hstep : EncryptStep s kem w addr st sent st') :
    ∃ session' x, Sending s kem w base start peer older b session' (entries ++ [x]) ∧
      Stored s addr session' st' ∧ (x.plaintext, x.ciphertext) = sent ∧
      x.ciphertext = x.msg.serialized := by
  obtain ⟨env, henc⟩ := hstep
  obtain ⟨record, session', msg, hload, hseal, hout, rfl⟩ := encrypt_ok henc
  have hrecord : record = soleRecord session := by
    rw [loadRecordRequired, bind_of_ok hstored.load] at hload
    cases hload
    rfl
  subst hrecord
  obtain ⟨header, messageKey, payload, hsending⟩ := h.encrypt kemLaws hseal sent.2
  exact ⟨session', _, hsending, hsending.stored (hstored.durable.encrypt hseal) hdata holder, rfl,
    hout⟩

/-- **The initiator sends on**, in the epoch that it began. -/
theorem sending_run {sent : List (Bytes × Bytes)} (kemLaws : Spqr.KemLaws kem)
    (hdata : base.associatedData.length ≤ 2 ^ 10) (holder : older.length ≤ 1)
    (h : Sending s kem w base start peer older b session entries)
    (hstored : Stored s addr session st) (hrun : Run (EncryptStep s kem w addr) st sent st') :
    ∃ session' xs, Sending s kem w base start peer older b session' (entries ++ xs) ∧
      xs.map (fun x => (x.plaintext, x.ciphertext)) = sent ∧
      ∀ x ∈ xs, x.ciphertext = x.msg.serialized := by
  have hinv := hrun.invariant_history (I := fun sent st => ∃ session' xs,
      Sending s kem w base start peer older b session' (entries ++ xs) ∧ Stored s addr session' st ∧
      xs.map (fun x => (x.plaintext, x.ciphertext)) = sent ∧
      ∀ x ∈ xs, x.ciphertext = x.msg.serialized) ?_
    ⟨session, [], by rwa [List.append_nil], hstored, rfl, nofun⟩
  · obtain ⟨session', xs, hsending, -, hsent, hbytes⟩ := hinv
    exact ⟨session', xs, hsending, hsent, hbytes⟩
  · rintro sent st m st' ⟨session, xs, hsending, hstored, rfl, hbytes⟩ hstep
    obtain ⟨session', x, hnext, hstored', rfl, hx⟩ :=
      sending_step kemLaws hdata holder hsending hstored hstep
    rw [List.append_assoc] at hnext
    refine ⟨session', xs ++ [x], hnext, hstored', by rw [List.map_append]; rfl, fun y hy => ?_⟩
    rcases List.mem_append.mp hy with hold | hnew
    · exact hbytes y hold
    · rw [List.mem_singleton.mp hnew]
      exact hx

end Sending

/-! ## Deliveries -/

/-- The results of `Decrypt` on a sequence of ciphertexts, each with what comes from outside. A
failed call leaves what it has written. -/
def deliver (s : Suite) (kem : Spqr.Kem) (w : Protowire) (addr : Address) :
    List (Env × Bytes) → Store → List (Except (Fault Err) Bytes)
  | [], _ => []
  | (env, ciphertext) :: rest, st =>
      let call := decrypt s kem w env addr ciphertext
      verdict (call st) :: deliver s kem w addr rest (after call st)

section Deliver

variable {base session sessionB : Session} {start peer : Ratchet.Epoch}
  {older : List Ratchet.Epoch} {b : Option Spqr.State} {entries : List Entry} {addr : Address}
  {st : Store} {accepted : List Ratchet.Header}

/-- Messages of the epoch are opened one after the other, in any order, as long as none comes
twice. -/
theorem deliver_entries (wireLaws : w.Laws) (laws : DHLaws s.toPrims) (cbcLaws : s.CbcLaws)
    (kemLaws : Spqr.KemLaws kem) (hvalid : KeyPairValid s.toPrims start.kp)
    (hsending : Sending s kem w base start peer older b session entries)
    (hlen : entries.length ≤ Ratchet.maxSkip + 1)
    (hreceiving : Receiving s kem base (start.after entries.length) session.pqrState
      (entries.map Entry.payload) sessionB accepted)
    (hstored : Stored s addr sessionB st) (order : List (Env × Entry))
    (hmem : ∀ o ∈ order, o.2 ∈ entries)
    (hnodup : (accepted.map (fun header => header.n.toNat) ++
      order.map fun o => o.2.header.n.toNat).Nodup) :
    deliver s kem w addr (order.map fun o => (o.1, o.2.msg.serialized)) st =
      order.map fun o => .ok o.2.plaintext := by
  -- induction along the delivery; the accepted headers grow by the one that was delivered
  induction order generalizing accepted sessionB st with
  | nil => rfl
  | cons o rest ih =>
    obtain ⟨env, x⟩ := o
    have hx : x ∈ entries := hmem (env, x) List.mem_cons_self
    have hle : x.header.n.toNat ≤ Ratchet.maxSkip := by
      have hlt := hsending.number_lt hx
      omega
    have hnew : ∀ header ∈ accepted, header.n ≠ x.header.n := by
      intro header hheader heq
      refine (List.nodup_append.mp hnodup).2.2 header.n.toNat
        (List.mem_map_of_mem hheader) x.header.n.toNat ?_ (by rw [heq])
      exact List.mem_cons_self
    obtain ⟨session', hdec, hreceiving'⟩ := hreceiving.decrypt cbcLaws kemLaws
      (hsending.made x hx) (List.mem_map_of_mem hx) hle hnew (env.ratchet 0)
    have hcall : decrypt s kem w env addr x.msg.serialized st =
        .ok x.plaintext (persisted env addr (soleRecord session') st) :=
      hstored.decrypt ((hsending.made x hx).parses wireLaws laws hvalid) hdec
    have hstored' : Stored s addr session' (persisted env addr (soleRecord session') st) :=
      hreceiving'.stored (hstored.durable.decrypt hdec)
    rw [List.map_cons, List.map_cons, deliver]
    simp only [hcall, verdict, after_of_ok hcall]
    rw [ih hreceiving' hstored' (fun o ho => hmem o (List.mem_cons_of_mem _ ho)) ?_]
    rw [List.map_append, List.append_assoc]
    exact hnodup

end Deliver

/-- A selection of the images of a list, with tags, is the image of a selection. -/
theorem exists_selection {ι α β : Type} (f : α → β) {l : List α} {order : List (ι × β)}
    (h : (order.map Prod.snd).Subperm (l.map f)) :
    ∃ order' : List (ι × α), order'.map (fun o => (o.1, f o.2)) = order ∧
      (order'.map Prod.snd).Subperm l := by
  obtain ⟨picked, hperm, hsub⟩ := h
  obtain ⟨l', hl', rfl⟩ := List.sublist_map_iff.mp hsub
  have himage : List.Forall₂ (fun b a => b = f a) (l'.map f) l' := by
    rw [List.forall₂_map_left_iff]
    exact List.forall₂_same.mpr fun _ _ => rfl
  obtain ⟨ys, hys, hperm'⟩ := List.perm_comp_forall₂ hperm.symm himage
  suffices hlift : ∃ order' : List (ι × α), order'.map (fun o => (o.1, f o.2)) = order ∧
      order'.map Prod.snd = ys by
    obtain ⟨order', horder, rfl⟩ := hlift
    exact ⟨order', horder, hperm'.subperm.trans hl'.subperm⟩
  rw [List.forall₂_map_left_iff] at hys
  clear hperm hperm'
  induction hys with
  | nil => exact ⟨[], rfl, rfl⟩
  | @cons o y _ _ hy _ ih =>
    obtain ⟨order', rfl, rfl⟩ := ih
    refine ⟨(o.1, y) :: order', ?_, rfl⟩
    rw [List.map_cons, ← hy]

/-- No two picked messages have the same counter. -/
theorem nodup_of_selection {start peer : Ratchet.Epoch} {older : List Ratchet.Epoch}
    {entries picked : List Entry} (h : Sending s kem w base start peer older b session entries)
    (hpicked : picked.Subperm entries) :
    (picked.map fun x => x.header.n.toNat).Nodup := by
  obtain ⟨l, hperm, hsub⟩ := hpicked
  exact (hperm.map _).nodup_iff.mp (h.nodup.sublist (hsub.map _))

/-! ## The whole start -/

section Start

variable {r : ResponderKeys s.toPrims} {registrationID deviceID : UInt32} {bundle : PreKeyBundle}
  {alice bob : Address} {stA stA1 stA2 stB : Store} {envA : Env} {later : List (Bytes × Bytes)}

/-- Everything the initiator has sent. -/
theorem opening_run (wireLaws : w.Laws) (sized : w.Sized) (laws : DHLaws s.toPrims)
    (kemLaws : Spqr.KemLaws kem) (hbundle : r.bundle registrationID deviceID = .ok bundle)
    (hidentity : KeyPairValid s.toPrims stA.identityKeyPair.keyPair) (first : Bytes × Bytes)
    (hfirst : encryptWithPreKeyBundle s kem w envA bob bundle first.1 stA = .ok first.2 stA1)
    (hlater : Run (EncryptStep s kem w bob) stA1 later stA2) :
    ∃ (o : Opening s kem w r stA.identityKeyPair envA bundle first.1 first.2)
      (session : Session) (xs : List Entry),
      Sending s kem w o.base o.start o.peer o.older o.pqrB session (o.entry :: xs) ∧
      xs.map (fun x => (x.plaintext, x.ciphertext)) = later ∧
      ∀ x ∈ xs, x.ciphertext = x.msg.serialized := by
  obtain ⟨o, hstored⟩ := opening_of_encrypt wireLaws sized laws kemLaws hidentity hbundle hfirst
  have hdata : o.base.associatedData.length ≤ 2 ^ 10 := by
    obtain ⟨state, -, hbase, -⟩ := o.opened
    rw [hbase]
    exact (result_fields hbundle o.processed).2.2.2
  exact ⟨o, sending_run kemLaws hdata o.older_le o.sending hstored hlater⟩

/-- A signal message without a session. -/
theorem decrypt_unopened {x : Entry} {e : Ratchet.Epoch} {before : List Ratchet.Epoch}
    (hx : x.Made s w base e before) (wireLaws : w.Laws) (laws : DHLaws s.toPrims)
    (hvalid : KeyPairValid s.toPrims e.kp) (hunopened : stB.sessions[alice]? = none) :
    decrypt s kem w env alice x.msg.serialized stB = .error (noSession alice) stB := by
  rw [decrypt_of_signal (loadRecordOptional_none hunopened) (hx.parses wireLaws laws hvalid)]
  rfl

/-- A delivery that begins with the opening message. -/
theorem Opening.delivers {identity : IdentityKeyPair} {plaintext ciphertext : Bytes}
    (o : Opening s kem w r identity envA bundle plaintext ciphertext) (wireLaws : w.Laws)
    (laws : DHLaws s.toPrims) (cbcLaws : s.CbcLaws) (kemLaws : Spqr.KemLaws kem)
    (hidentity : KeyPairValid s.toPrims identity.keyPair) (hkyber : KyberOpens s r envA.kyber)
    (hbundle : r.bundle registrationID deviceID = .ok bundle) (hst : Prepared r alice stB)
    (hadmits : Admits r alice identity env.now stB)
    (hfresh : FreshRatchetKey s.toPrims envA bundle) (hrnd : env.Supplied s.toPrims)
    {xs : List Entry}
    (hsending : Sending s kem w o.base o.start o.peer o.older o.pqrB session (o.entry :: xs))
    (hbytes : ∀ x ∈ xs, x.ciphertext = x.msg.serialized) (hmax : xs.length ≤ Ratchet.maxSkip)
    {rest : List (Env × Entry)} (hpicked : (o.entry :: rest.map Prod.snd).Subperm (o.entry :: xs)) :
    verdict (decrypt s kem w env alice o.entry.ciphertext stB) ::
        deliver s kem w alice (rest.map fun x => (x.1, x.2.ciphertext))
          (after (decrypt s kem w env alice o.entry.ciphertext) stB) =
      .ok o.entry.plaintext :: rest.map fun x => .ok x.2.plaintext := by
  obtain ⟨sessionB, st', hcall, hstoredB, hreceiving⟩ := o.accepts laws cbcLaws kemLaws hidentity
    hkyber hbundle hst hadmits hfresh hrnd hsending List.mem_cons_self
  -- the others are later messages, none of them twice
  have hnumbers := nodup_of_selection hsending hpicked
  rw [List.map_cons, List.map_map] at hnumbers
  have hmem : ∀ y ∈ rest, y.2 ∈ o.entry :: xs := fun y hy =>
    hpicked.subset (List.mem_cons_of_mem _ (List.mem_map_of_mem hy))
  have hothers : ∀ y ∈ rest, (y.1, y.2.ciphertext) = (y.1, y.2.msg.serialized) := by
    intro y hy
    rcases List.mem_cons.mp (hmem y hy) with heq | hlater
    · refine absurd ?_ (List.nodup_cons.mp hnumbers).1
      rw [← heq]
      exact List.mem_map_of_mem (f := (fun x => x.header.n.toNat) ∘ Prod.snd) hy
    · rw [hbytes _ hlater]
  have hrest := deliver_entries wireLaws laws cbcLaws kemLaws o.valid hsending
    (Nat.succ_le_succ hmax) hreceiving hstoredB rest hmem hnumbers
  rw [o.ciphertext_eq, hcall, after_of_ok hcall, List.map_congr_left hothers, hrest, o.plaintext_eq]
  rfl

/-- **Session start.** An initiator opens a session with the responder's bundle and sends at most
`MaxSkip` further messages; a selection of the ciphertexts is delivered in some order to a store
with the private keys of the bundle and no session. Every one of them is decrypted to its
plaintext exactly if the `PreKeySignalMessage` comes first, the responder admits the initiator,
and, if there is a Kyber part, the initiator's ratchet key is not its ephemeral key. -/
theorem session_start (wireLaws : w.Laws) (sized : w.Sized) (laws : DHLaws s.toPrims)
    (cbcLaws : s.CbcLaws) (kemLaws : Spqr.KemLaws kem)
    (hbundle : r.bundle registrationID deviceID = .ok bundle) (hkyber : KyberOpens s r envA.kyber)
    (hidentity : KeyPairValid s.toPrims stA.identityKeyPair.keyPair) (first : Bytes × Bytes)
    (hfirst : encryptWithPreKeyBundle s kem w envA bob bundle first.1 stA = .ok first.2 stA₁)
    (hlater : Run (EncryptStep s kem w bob) stA₁ later stA₂)
    (hmax : later.length ≤ Ratchet.maxSkip) (hst : Prepared r alice stB)
    (order : List (Env × Bytes × Bytes))
    (hselected : (order.map Prod.snd).Subperm (first :: later)) (hne : order ≠ [])
    (hrnd : ∀ o ∈ order, o.1.Supplied s.toPrims) :
    deliver s kem w alice (order.map fun o => (o.1, o.2.2)) stB =
        order.map (fun o => .ok o.2.1) ↔
      ∃ env rest, order = (env, first) :: rest ∧
        Admits r alice stA.identityKeyPair env.now stB ∧
        FreshRatchetKey s.toPrims envA bundle := by
  obtain ⟨o, session, xs, hsending, rfl, hbytes⟩ :=
    opening_run wireLaws sized laws kemLaws hbundle hidentity first hfirst hlater
  have hentry : (o.entry.plaintext, o.entry.ciphertext) = first :=
    Prod.ext o.plaintext_eq o.ciphertext_eq
  -- the delivery as one of entries
  obtain ⟨picked, rfl, hpicked⟩ : ∃ picked : List (Env × Entry),
      picked.map (fun x => (x.1, x.2.plaintext, x.2.ciphertext)) = order ∧
        (picked.map Prod.snd).Subperm (o.entry :: xs) := by
    refine exists_selection (fun x : Entry => (x.plaintext, x.ciphertext)) ?_
    rw [List.map_cons, hentry]
    exact hselected
  cases picked with
  | nil => exact absurd rfl hne
  | cons pick rest =>
    obtain ⟨env, x⟩ := pick
    have hx : x ∈ o.entry :: xs := hpicked.subset List.mem_cons_self
    simp only [List.map_map, List.map_cons, deliver, Function.comp_def]
    constructor
    · intro h
      obtain ⟨st', hcall⟩ := verdict_eq_ok.mp (List.cons.inj h).1
      rcases List.mem_cons.mp hx with rfl | hlater
      · -- the first message is the opening one
        rw [o.ciphertext_eq] at hcall
        obtain ⟨hadmits, hfresh⟩ := o.required laws hidentity hkyber hbundle hst hcall
        exact ⟨env, _, by rw [hentry], hadmits, hfresh⟩
      · -- a later one finds no session
        rw [hbytes x hlater,
          decrypt_unopened (hsending.made x hx) wireLaws laws o.valid hst.unopened] at hcall
        cases hcall
    · rintro ⟨env', rest', heq, hadmits, hfresh⟩
      obtain ⟨hhead, rfl⟩ := List.cons.inj heq
      obtain ⟨rfl, hpair⟩ := Prod.mk.inj hhead
      -- only the opening ciphertext is no signal message
      have hopening : x = o.entry := by
        rcases List.mem_cons.mp hx with rfl | hlater
        · rfl
        · have hparse := (hsending.made x hx).parses wireLaws laws o.valid
          obtain ⟨e, hnot⟩ := o.not_signal
          rw [← hbytes x hlater, show x.ciphertext = first.2 from congrArg Prod.snd hpair,
            hnot] at hparse
          cases hparse
      subst hopening
      exact o.delivers wireLaws laws cbcLaws kemLaws hidentity hkyber hbundle hst hadmits hfresh
        (hrnd _ List.mem_cons_self) hsending hbytes (by simpa using hmax) hpicked

end Start

/-! ## A sample start -/

/-- The responder behind the sample bundle without one-time and Kyber pre-keys. -/
def plainResponder : ResponderKeys toySuite.toPrims where
  identity := ⟨⟨(toyPair 3).publicKey, .zero⟩, (toyPair 3).privateKey⟩
  signedPreKey := { id := 5, keyPair := toyPair 4, signature := [1], timestamp := some 0 }
  preKey := none
  kyberPreKey := none
  identity_valid := rfl
  signedPreKey_valid := rfl
  preKey_valid := nofun

def plainResponderStore : Store :=
  { newStore plainResponder.identity 9 with
    signedKeys := (∅ : Std.ExtTreeMap UInt32 SignedPreKey).insert 5 plainResponder.signedPreKey }

theorem plainResponderStore_prepared : Prepared plainResponder toyAddress plainResponderStore where
  identity := rfl
  signedPreKey := Std.ExtTreeMap.getElem?_insert_self
  holds := ⟨nofun, nofun⟩
  unopened := rfl

/-- The first message of the sample initiator, and two more. -/
theorem plain_sent : ∃ first second third stA1 stA2,
    encryptWithPreKeyBundle toySuite Spqr.toyKem varintWire toyEnv toyAddress plainBundle [1]
      plainStore = .ok first stA1 ∧
    Run (EncryptStep toySuite Spqr.toyKem varintWire toyAddress) stA1
      [([2], second), ([3], third)] stA2 := by
  obtain ⟨base, x3msg, st, session1, msg1, session2, msg2, session3, msg3, hprocess, henc1, henc2,
      henc3, hsize1, hsize2, hpqr1, hpqr2⟩ :
      ∃ base x3msg st session1 msg1 session2 msg2 session3 msg3,
        processPreKeyBundle toySuite toyEnv toyAddress plainBundle plainStore =
          .ok (base, x3msg) st ∧
        encryptSignalMessage toySuite Spqr.toyKem varintWire toyEnv.spqr base [1] =
          .ok (session1, msg1) ∧
        encryptSignalMessage toySuite Spqr.toyKem varintWire toyEnv.spqr session1 [2] =
          .ok (session2, msg2) ∧
        encryptSignalMessage toySuite Spqr.toyKem varintWire toyEnv.spqr session2 [3] =
          .ok (session3, msg3) ∧
        storedSize session1 < 2 ^ 32 ∧ storedSize session2 < 2 ^ 32 ∧
        session1.pqrState = none ∧ session2.pqrState = none :=
    ⟨_, _, _, _, _, _, _, _, _, rfl, rfl, rfl, rfl, by decide, by decide, rfl, rfl⟩
  obtain ⟨first, stA1, hfirst⟩ : ∃ first stA1, encryptWithPreKeyBundle toySuite Spqr.toyKem
      varintWire toyEnv toyAddress plainBundle [1] plainStore = .ok first stA1 := ⟨_, _, rfl⟩
  have hdurable1 := (durable_processPreKeyBundle rfl hprocess).encrypt henc1
  have hdurable2 := hdurable1.encrypt henc2
  -- the call has stored the first session
  obtain ⟨-, base', x3msg', st', session', msg', preKeyMsg, hprocess', henc', -, -, hst⟩ :=
    encryptWithPreKeyBundle_ok hfirst
  rw [hprocess] at hprocess'
  cases hprocess'
  rw [henc1] at henc'
  cases henc'
  rw [newRecord_eq hdurable1.sound] at hst
  have hstored1 : Stored toySuite toyAddress session1 stA1 := by
    rw [hst]
    refine stored_persisted hdurable1 hsize1 fun state hstate => ?_
    rw [hpqr1] at hstate
    cases hstate
  have hstored2 : Stored toySuite toyAddress session2
      (persisted toyEnv toyAddress (soleRecord session2) stA1) := by
    refine stored_persisted hdurable2 hsize2 fun state hstate => ?_
    rw [hpqr2] at hstate
    cases hstate
  exact ⟨first, msg2.serialized, msg3.serialized, stA1, _, hfirst,
    (Run.single ⟨toyEnv, hstored1.encrypt henc2⟩).snoc ⟨toyEnv, hstored2.encrypt henc3⟩⟩

theorem toyEnv_supplied : toyEnv.Supplied toySuite.toPrims := ⟨⟨_, rfl⟩, ⟨_, rfl⟩⟩

theorem plainBundle_eq : plainResponder.bundle 9 1 = .ok plainBundle := rfl

theorem plainStore_identity : KeyPairValid toySuite.toPrims plainStore.identityKeyPair.keyPair :=
  rfl

/-- The second message is lost, and the two others are opened. -/
theorem session_start_plain : ∃ first second third stA₁ stA₂,
    encryptWithPreKeyBundle toySuite Spqr.toyKem varintWire toyEnv toyAddress plainBundle [1]
      plainStore = .ok first stA₁ ∧
    Run (EncryptStep toySuite Spqr.toyKem varintWire toyAddress) stA₁
      [([2], second), ([3], third)] stA₂ ∧
    deliver toySuite Spqr.toyKem varintWire toyAddress [(toyEnv, first), (toyEnv, third)]
      plainResponderStore = [.ok [1], .ok [3]] := by
  obtain ⟨first, second, third, stA₁, stA₂, hfirst, hlater⟩ := plain_sent
  refine ⟨first, second, third, stA₁, stA₂, hfirst, hlater, ?_⟩
  have hkyber : KyberOpens toySuite plainResponder toyEnv.kyber := by
    intro k hk
    cases hk
  have hselected : [([1], first), ([3], third)].Subperm
      [(([1] : Bytes), first), ([2], second), ([3], third)] :=
    (((List.Sublist.refl _).cons _).cons_cons _).subperm
  have hadmits : Admits plainResponder toyAddress plainStore.identityKeyPair toyEnv.now
      plainResponderStore := ⟨rfl, rfl⟩
  have hfresh : FreshRatchetKey toySuite.toPrims toyEnv plainBundle := fun hsome => by cases hsome
  have h := session_start varintWire_laws varintWire_sized Ratchet.toyPrims_dhLaws toySuite_cbcLaws
    Spqr.toyKem_laws plainBundle_eq hkyber plainStore_identity ([1], first) hfirst hlater
    (Nat.le_add_left 2 998) plainResponderStore_prepared
    [(toyEnv, [1], first), (toyEnv, [3], third)] hselected (List.cons_ne_nil _ _)
    (by simp [toyEnv_supplied])
  exact h.mpr ⟨toyEnv, _, rfl, hadmits, hfresh⟩

/-- The second message alone, at a store that is prepared for the session: it is a signal message,
and there is no session. -/
theorem session_start_signal_first : ∃ first second third stA₁ stA₂,
    plainResponder.bundle 9 1 = .ok plainBundle ∧
    Prepared plainResponder toyAddress plainResponderStore ∧
    encryptWithPreKeyBundle toySuite Spqr.toyKem varintWire toyEnv toyAddress plainBundle [1]
      plainStore = .ok first stA₁ ∧
    Run (EncryptStep toySuite Spqr.toyKem varintWire toyAddress) stA₁
      [([2], second), ([3], third)] stA₂ ∧
    deliver toySuite Spqr.toyKem varintWire toyAddress [(toyEnv, second)] plainResponderStore =
      [.error (noSession toyAddress)] := by
  obtain ⟨first, second, third, stA₁, stA₂, hfirst, hlater⟩ := plain_sent
  refine ⟨first, second, third, stA₁, stA₂, plainBundle_eq, plainResponderStore_prepared, hfirst,
    hlater, ?_⟩
  obtain ⟨o, session, xs, hsending, hxs, hbytes⟩ := opening_run varintWire_laws varintWire_sized
    Ratchet.toyPrims_dhLaws Spqr.toyKem_laws plainBundle_eq plainStore_identity ([1], first) hfirst
    hlater
  obtain ⟨x, xs, rfl⟩ : ∃ x xs', xs = x :: xs' := by
    cases xs with
    | nil => cases hxs
    | cons x xs => exact ⟨x, xs, rfl⟩
  have hsecond : x.msg.serialized = second := by
    rw [← hbytes x List.mem_cons_self]
    exact congrArg Prod.snd (List.cons.inj hxs).1
  have hcall : decrypt toySuite Spqr.toyKem varintWire toyEnv toyAddress second plainResponderStore
      = .error (noSession toyAddress) plainResponderStore := by
    rw [← hsecond]
    exact decrypt_unopened (hsending.made x (List.mem_cons_of_mem _ List.mem_cons_self))
      varintWire_laws Ratchet.toyPrims_dhLaws o.valid plainResponderStore_prepared.unopened
  simp only [deliver, hcall, verdict]

end SignalGo.Session
