import SignalGo.Session.Sound
import SignalGo.Session.WireCipher

/-!
# What a failed decryption leaves behind

`Decrypt` stores the session record last, so that a message that fails leaves the record alone.
The handshake of a pre-key message writes earlier: the responder removes the one-time pre-key as
soon as it has used it, and the builder saves the peer's identity, both before the MAC of the
inner message is checked.

* `after_processInitialMessage`: the responder removes the one-time pre-key and nothing else.
* `LeavesTrace`: what the message and the store have to be for a failure to show.
* `failed_decrypt_effect`: a failed `Decrypt` leaves the store as it was exactly when they are
  not so.
-/

namespace SignalGo.Session

open Effect

variable {s : Suite} {kem : Spqr.Kem} {w : Protowire} {env : Env} {addr : Address} {st st' : Store}

/-! ## The responder -/

/-- The message has the three terms that need no one-time pre-key. -/
structure HasTerms (s : Suite) (identity : IdentityKeyPair) (signedPreKey : SignedPreKey)
    (msg : X3dh.Message) : Prop where
  sameID : msg.signedPreKeyID = signedPreKey.id
  dh1 : ∃ k, dh s.toPrims signedPreKey.keyPair.privateKey msg.identityKey.publicKey = .ok k
  dh2 : ∃ k, dh s.toPrims identity.privateKey msg.ephemeralKey = .ok k
  dh3 : ∃ k, dh s.toPrims signedPreKey.keyPair.privateKey msg.ephemeralKey = .ok k

/-- The message names a one-time pre-key that is stored and has the fourth term. -/
def Consumes (s : Suite) (st : Store) (msg : X3dh.Message) : Prop :=
  ∃ id preKey k, msg.preKeyID = some id ∧ st.preKeys[id]? = some preKey ∧
    dh s.toPrims preKey.keyPair.privateKey msg.ephemeralKey = .ok k

theorem removePreKey_ne {id : UInt32} (h : st.preKeys[id]? ≠ none) :
    (st.removePreKey id).preKeys ≠ st.preKeys := by
  intro heq
  have hnone := congrArg (·[id]?) heq
  simp only [Store.removePreKey, Std.ExtTreeMap.getElem?_erase_self] at hnone
  exact h hnone.symm

variable {msg : X3dh.Message}

theorem responderDH4_of_consumes (h : Consumes s st msg) :
    ∃ k id, st.preKeys[id]? ≠ none ∧
      X3dh.responderDH4 s msg.preKeyID msg.ephemeralKey st = .ok (some k) (st.removePreKey id) := by
  obtain ⟨id, preKey, k, hid, hpre, hdh⟩ := h
  refine ⟨k, id, by simp [hpre], ?_⟩
  rw [hid, X3dh.responderDH4, bind_of_ok (reads_apply _), hpre]
  simp only [hdh]
  rfl

theorem after_responderDH4_of_not (h : ¬ Consumes s st msg) :
    after (X3dh.responderDH4 s msg.preKeyID msg.ephemeralKey) st = st := by
  cases hid : msg.preKeyID with
  | none => rfl
  | some id =>
    rw [X3dh.responderDH4, after_bind_of_ok (reads_apply _)]
    cases hpre : st.preKeys[id]? with
    | none => rfl
    | some preKey =>
      simp only
      cases hdh : dh s.toPrims preKey.keyPair.privateKey msg.ephemeralKey with
      | ok k => exact absurd ⟨id, preKey, k, hid, hpre, hdh⟩ h
      | error e => rfl

theorem keeps_decapsulate (msg : X3dh.Message) : Keeps id (X3dh.decapsulate s msg) := by
  unfold X3dh.decapsulate
  split
  · exact .ite (fun _ => .fail _) fun _ => .pure _
  · refine .ite (fun _ => .fail _) fun _ => (Keeps.reads _).bind fun found => ?_
    cases found with
    | none => exact .fail _
    | some kyberPreKey => exact (Keeps.lift _).bind fun ss => .pure _

variable {signedPreKey : SignedPreKey}

/-- The terms succeed up to the fourth, and nothing behind it writes. -/
theorem after_of_hasTerms {identity : IdentityKeyPair} (h : HasTerms s identity signedPreKey msg) :
    after (X3dh.processInitialMessage s identity signedPreKey msg) st =
      after (X3dh.responderDH4 s msg.preKeyID msg.ephemeralKey) st := by
  obtain ⟨hsame, ⟨k1, h1⟩, ⟨k2, h2⟩, ⟨k3, h3⟩⟩ := h
  rw [X3dh.processInitialMessage, if_neg (by simpa using hsame),
    after_lift_bind (mapError_eq_ok.mpr h1), after_lift_bind (mapError_eq_ok.mpr h2),
    after_lift_bind (mapError_eq_ok.mpr h3)]
  exact after_bind_of_keeps fun dh4 => (keeps_decapsulate msg).bind fun ss =>
    (Keeps.lift _).bind fun secrets => .pure _

theorem after_of_not_hasTerms {identity : IdentityKeyPair}
    (h : ¬ HasTerms s identity signedPreKey msg) :
    after (X3dh.processInitialMessage s identity signedPreKey msg) st = st := by
  rw [X3dh.processInitialMessage]
  split
  case isTrue => rfl
  case isFalse hsame =>
    -- the first term that fails ends it
    cases h1 : dh s.toPrims signedPreKey.keyPair.privateKey msg.identityKey.publicKey with
    | error e => rfl
    | ok k1 =>
      cases h2 : dh s.toPrims identity.privateKey msg.ephemeralKey with
      | error e => rfl
      | ok k2 =>
        cases h3 : dh s.toPrims signedPreKey.keyPair.privateKey msg.ephemeralKey with
        | error e => rfl
        | ok k3 => exact absurd ⟨by simpa using hsame, ⟨k1, h1⟩, ⟨k2, h2⟩, ⟨k3, h3⟩⟩ h

/-- **The responder writes at most once**: it removes the one-time pre-key it has used. -/
theorem after_processInitialMessage (s : Suite) (identity : IdentityKeyPair)
    (signedPreKey : SignedPreKey) (msg : X3dh.Message) (st : Store) :
    HasTerms s identity signedPreKey msg ∧ Consumes s st msg ∧
        (after (X3dh.processInitialMessage s identity signedPreKey msg) st).preKeys ≠ st.preKeys ∨
      ¬ (HasTerms s identity signedPreKey msg ∧ Consumes s st msg) ∧
        after (X3dh.processInitialMessage s identity signedPreKey msg) st = st := by
  by_cases hterms : HasTerms s identity signedPreKey msg
  · rw [after_of_hasTerms hterms]
    by_cases hcons : Consumes s st msg
    · obtain ⟨k, id, hid, hrun⟩ := responderDH4_of_consumes hcons
      rw [after_of_ok hrun]
      exact .inl ⟨hterms, hcons, removePreKey_ne hid⟩
    · exact .inr ⟨fun h => hcons h.2, after_responderDH4_of_not hcons⟩
  · exact .inr ⟨fun h => hterms h.1, after_of_not_hasTerms hterms⟩

/-! ## The builder -/

/-- The handshake goes through to a session. -/
def Completes (s : Suite) (env : Env) (st : Store) (signedPreKey : SignedPreKey)
    (msg : X3dh.Message) : Prop :=
  ∃ result st1 session,
    X3dh.processInitialMessage s st.identityKeyPair signedPreKey msg st = .ok result st1 ∧
    buildSession s env st.identityKeyPair.publicKey msg.identityKey result false = .ok session

variable {e : Fault Err}

/-- A handshake that fails leaves what the responder left. -/
theorem respond_error
    (h : respond s env addr st.identityKeyPair signedPreKey msg st = .error e st') :
    st' = after (X3dh.processInitialMessage s st.identityKeyPair signedPreKey msg) st ∧
      ¬ Completes s env st signedPreKey msg := by
  rcases bind_eq_error.mp h with hinit | ⟨result, st1, hinit, h⟩
  · obtain ⟨e', hinit, -⟩ := adaptExcept_eq_error.mp hinit
    refine ⟨(after_of_error hinit).symm, ?_⟩
    rintro ⟨result, st1, session, hok, -⟩
    rw [hinit] at hok
    cases hok
  · have hinit := adaptExcept_eq_ok.mp hinit
    rcases bind_eq_error.mp h with hbuild | ⟨session, st2, -, h⟩
    · obtain ⟨hbuild, rfl⟩ := lift_eq_error.mp hbuild
      refine ⟨(after_of_ok hinit).symm, ?_⟩
      rintro ⟨result', st2, session, hok, hsession⟩
      rw [hinit] at hok
      cases hok
      rw [hsession] at hbuild
      cases hbuild
    · cases h

/-- Saving an identity that passed the trust check, without its signing half, changes nothing
unless the address was unknown. -/
theorem saveIdentity_eq_iff {identityKey : IdentityKey}
    (htrust : st.isTrustedIdentity addr identityKey = true)
    (hzero : identityKey.signingPublic = .zero) :
    st.saveIdentity addr identityKey = st ↔ st.identities[addr]? ≠ none := by
  constructor
  · intro heq hnone
    have := congrArg (fun st : Store => st.identities[addr]?) heq
    simp [Store.saveIdentity, hnone] at this
  · intro hsome
    obtain ⟨existing, hexisting⟩ := Option.ne_none_iff_exists'.mp hsome
    have hpublic : existing.publicKey = identityKey.publicKey := by
      simpa [Store.isTrustedIdentity, hexisting, hzero] using htrust
    have hmerge : Store.mergeIdentity (some existing) identityKey = existing := by
      unfold Store.mergeIdentity
      cases existing with
      | mk pub signing =>
        cases identityKey
        simp only at hpublic hzero ⊢
        by_cases hs : signing = .zero
        · simp [hs, hpublic, hzero]
        · simp [hs, hpublic, hzero]
    rw [Store.saveIdentity, hexisting, hmerge, insert_of_getElem? hexisting]

/-! ## A failed decryption -/

/-- No session of the record takes the message, and none takes it for a duplicate. -/
def Unsettled (s : Suite) (kem : Spqr.Kem) (env : Env) (record : Option Record)
    (msg : Wire.SignalMessage) : Prop :=
  ∀ r, record = some r → ∃ e, r.decryptSignalMessage s kem env.ratchet msg = .error (.err e) ∧
    e.is .duplicateMessage = false

/-- The ciphertext is a pre-key message that starts a handshake, and the handshake either uses up
a one-time pre-key or goes through for an address without an identity. -/
def LeavesTrace (s : Suite) (kem : Spqr.Kem) (w : Protowire) (env : Env) (addr : Address)
    (st : Store) (ciphertext : Bytes) : Prop :=
  ∃ msg record signedPreKey,
    (∀ m, Wire.parseSignalMessage s.toPrims w ciphertext ≠ .ok m) ∧
    Wire.parsePreKeySignalMessage s.toPrims w ciphertext = .ok msg ∧
    loadRecordOptional s addr st = .ok record st ∧
    Unsettled s kem env record msg.message ∧
    Usable env addr st (X3dh.ofPreKeySignalMessage msg) signedPreKey ∧
    (HasTerms s st.identityKeyPair signedPreKey (X3dh.ofPreKeySignalMessage msg) ∧
        Consumes s st (X3dh.ofPreKeySignalMessage msg) ∨
      st.identities[addr]? = none ∧
        Completes s env st signedPreKey (X3dh.ofPreKeySignalMessage msg))

variable {record : Option Record}

/-- Nothing fails behind the decryption. -/
theorem startSession_error {msg : Wire.PreKeySignalMessage}
    (h : startSession s kem env addr record msg st = .error e st') :
    processPreKeyMessage s env addr (X3dh.ofPreKeySignalMessage msg) st = .error e st' ∨
      ∃ session, processPreKeyMessage s env addr (X3dh.ofPreKeySignalMessage msg) st =
        .ok session st' := by
  rcases bind_eq_error.mp h with hproc | ⟨session, st1, hproc, h⟩
  · exact .inl hproc
  · rcases bind_eq_error.mp h with hdec | ⟨res, st2, -, h⟩
    · obtain ⟨-, rfl⟩ := lift_eq_error.mp hdec
      exact .inr ⟨session, hproc⟩
    · cases h

/-- What a session that could not be started leaves behind. -/
theorem startSession_trace {msg : Wire.PreKeySignalMessage}
    (hzero : msg.identityKey.signingPublic = .zero)
    (h : startSession s kem env addr record msg st = .error e st') :
    st' = st ↔ ¬ ∃ signedPreKey,
      Usable env addr st (X3dh.ofPreKeySignalMessage msg) signedPreKey ∧
      (HasTerms s st.identityKeyPair signedPreKey (X3dh.ofPreKeySignalMessage msg) ∧
          Consumes s st (X3dh.ofPreKeySignalMessage msg) ∨
        st.identities[addr]? = none ∧
          Completes s env st signedPreKey (X3dh.ofPreKeySignalMessage msg)) := by
  generalize hx : X3dh.ofPreKeySignalMessage msg = x3msg
  have herr := startSession_error h
  rw [hx] at herr
  have hzero : x3msg.identityKey.signingPublic = .zero := by rw [← hx]; exact hzero
  by_cases husable : ∃ signedPreKey, Usable env addr st x3msg signedPreKey
  · obtain ⟨signedPreKey, husable⟩ := husable
    rw [processPreKeyMessage_of_usable husable] at herr
    -- the signed pre-key is the stored one
    have hexists (P : SignedPreKey → Prop) :
        (∃ key, Usable env addr st x3msg key ∧ P key) ↔ P signedPreKey := by
      constructor
      · rintro ⟨key, hkey, hP⟩
        have := husable.stored.symm.trans hkey.stored
        cases this
        exact hP
      · exact fun hP => ⟨signedPreKey, husable, hP⟩
    rw [hexists]
    have hinit := after_processInitialMessage s st.identityKeyPair signedPreKey x3msg st
    rcases herr with herr | ⟨session, hok⟩
    · obtain ⟨rfl, hnot⟩ := respond_error herr
      rcases hinit with ⟨hterms, hcons, hne⟩ | ⟨hnc, heq⟩
      · exact ⟨fun heq => absurd (congrArg Store.preKeys heq) hne,
          fun hno => absurd (.inl ⟨hterms, hcons⟩) hno⟩
      · exact ⟨fun _ hor => hor.elim hnc fun h => hnot h.2, fun _ => heq⟩
    · obtain ⟨result, st1, hproc, hbuild, rfl⟩ := respond_ok.mp hok
      have hcomp : Completes s env st signedPreKey x3msg := ⟨result, st1, session, hproc, hbuild⟩
      rw [after_of_ok hproc] at hinit
      rcases hinit with ⟨hterms, hcons, hne⟩ | ⟨hnc, rfl⟩
      · exact ⟨fun heq => absurd (congrArg Store.preKeys heq) hne,
          fun hno => absurd (.inl ⟨hterms, hcons⟩) hno⟩
      · rw [saveIdentity_eq_iff husable.trusted hzero]
        exact ⟨fun hsome hor => hor.elim hnc fun h => hsome h.1,
          fun hno hnone => hno (.inr ⟨hnone, hcomp⟩)⟩
  · obtain ⟨e', herror⟩ := processPreKeyMessage_of_not_usable (s := s) husable
    rw [herror] at herr
    have hst : st' = st := by
      rcases herr with heq | ⟨session, heq⟩
      · cases heq
        rfl
      · cases heq
    exact ⟨fun _ ⟨key, hkey, _⟩ => husable ⟨key, hkey⟩, fun _ => hst⟩

/-- A message that goes to the record only. -/
theorem keeps_of_decryptWithRecord_error {msg : Wire.SignalMessage}
    (h : decryptWithRecord s kem env addr record msg st = .error e st') :
    st' = st := by
  cases record with
  | none =>
    cases h
    rfl
  | some r =>
    rcases bind_eq_error.mp h with hdec | ⟨res, st1, -, hrest⟩
    · exact (lift_eq_error.mp hdec).2
    · cases hrest

/-- A pre-key message that fails: the record has settled it, or it went on to the handshake. -/
theorem decryptPreKeyMessage_error {msg : Wire.PreKeySignalMessage}
    (h : decryptPreKeyMessage s kem env addr record msg st = .error e st') :
    st' = st ∧ ¬ Unsettled s kem env record msg.message ∨
      Unsettled s kem env record msg.message ∧
        startSession s kem env addr record msg st = .error e st' := by
  cases record with
  | none =>
    rw [decryptPreKeyMessage] at h
    refine .inr ⟨?_, h⟩
    intro r hr
    cases hr
  | some r =>
    -- what the record made of it
    have hun (f : Fault Err)
        (hdec : r.decryptSignalMessage s kem env.ratchet msg.message = .error f) :
        Unsettled s kem env (some r) msg.message ↔
          ∃ e, f = .err e ∧ e.is .duplicateMessage = false := by
      simp [Unsettled, hdec]
    cases hdec : r.decryptSignalMessage s kem env.ratchet msg.message with
    | ok res =>
      simp only [decryptPreKeyMessage, hdec] at h
      cases h
    | error f =>
      simp only [decryptPreKeyMessage, hdec] at h
      rw [hun f hdec]
      cases f with
      | panic =>
        cases h
        exact .inl ⟨rfl, nofun⟩
      | err e' =>
        cases hdup : e'.is .duplicateMessage with
        | true =>
          simp only [hdup, if_true] at h
          cases h
          refine .inl ⟨rfl, ?_⟩
          rintro ⟨e'', heq, hnot⟩
          cases heq
          rw [hdup] at hnot
          cases hnot
        | false =>
          simp only [hdup, Bool.false_eq_true, if_false] at h
          exact .inr ⟨⟨e', rfl, hdup⟩, h⟩

/-- A failed `Decrypt` leaves the store as it was exactly when the ciphertext is not a pre-key
message whose handshake has used up a one-time pre-key, or has gone through for an address without
a stored identity. -/
theorem failed_decrypt_effect (s : Suite) (kem : Spqr.Kem) (w : Protowire) (env : Env)
    (addr : Address) (ciphertext : Bytes) (st st' : Store) (e : Fault Err)
    (h : decrypt s kem w env addr ciphertext st = .error e st') :
    st' = st ↔ ¬ LeavesTrace s kem w env addr st ciphertext := by
  have hunchanged (hst : st' = st) (hno : ¬ LeavesTrace s kem w env addr st ciphertext) :
      st' = st ↔ ¬ LeavesTrace s kem w env addr st ciphertext := ⟨fun _ => hno, fun _ => hst⟩
  rcases bind_eq_error.mp h with hload | ⟨record, st₁, hload, hrest⟩
  · refine hunchanged (keeps_loadRecordOptional.of_error hload) ?_
    rintro ⟨msg, record, key, -, -, hok, -⟩
    rw [hload] at hok
    cases hok
  obtain rfl : st₁ = st := keeps_loadRecordOptional.of_ok hload
  cases hsignal : Wire.parseSignalMessage s.toPrims w ciphertext with
  | ok m =>
    rw [hsignal] at hrest
    -- a signal message only tries the sessions of the record
    refine hunchanged (keeps_of_decryptWithRecord_error hrest) ?_
    rintro ⟨msg, record, key, hnot, -⟩
    exact hnot m hsignal
  | error e₁ =>
    rw [hsignal] at hrest
    have hnot : ∀ m, Wire.parseSignalMessage s.toPrims w ciphertext ≠ .ok m := by
      rw [hsignal]
      exact nofun
    rcases bind_eq_error.mp hrest with hparse | ⟨msg, st₂, hparse, hpre⟩
    · obtain ⟨hparse, hst⟩ := lift_eq_error.mp hparse
      refine hunchanged hst ?_
      rintro ⟨msg, record, key, -, hok, -⟩
      rw [hok] at hparse
      cases hparse
    · obtain ⟨hmapped, rfl⟩ := lift_eq_ok.mp hparse
      have hparse := mapError_eq_ok.mp hmapped
      -- of a pre-key message that parses, what matters is its handshake
      have htrace : LeavesTrace s kem w env addr st₂ ciphertext ↔
          Unsettled s kem env record msg.message ∧ ∃ signedPreKey,
            Usable env addr st₂ (X3dh.ofPreKeySignalMessage msg) signedPreKey ∧
            (HasTerms s st₂.identityKeyPair signedPreKey (X3dh.ofPreKeySignalMessage msg) ∧
                Consumes s st₂ (X3dh.ofPreKeySignalMessage msg) ∨
              st₂.identities[addr]? = none ∧
                Completes s env st₂ signedPreKey (X3dh.ofPreKeySignalMessage msg)) := by
        constructor
        · rintro ⟨msg', record', key, -, hparse', hload', hun, hrest⟩
          rw [hparse] at hparse'
          cases hparse'
          rw [hload] at hload'
          cases hload'
          exact ⟨hun, key, hrest⟩
        · rintro ⟨hun, key, hrest⟩
          exact ⟨msg, record, key, hnot, hparse, hload, hun, hrest⟩
      rw [htrace]
      rcases decryptPreKeyMessage_error hpre with ⟨hst, hsettled⟩ | ⟨hun, hstart⟩
      · exact ⟨fun _ hall => hsettled hall.1, fun _ => hst⟩
      · rw [startSession_trace (Wire.signingPublic_of_parse hparse) hstart]
        exact ⟨fun hno hall => hno hall.2, fun hno hex => hno ⟨hun, hex⟩⟩

/-! ### Samples -/

/-- A message of a session that the store does not have changes nothing. -/
theorem failed_decrypt_effect_sessionless : ∃ m e st',
    Wire.newSignalMessage toyPrims varintWire 3 (Key.fill 1).toBytes (toyPair 8).publicKey 0 0 [7]
      ⟨(toyPair 2).publicKey, .zero⟩ ⟨(toyPair 3).publicKey, .zero⟩ [] = .ok m ∧
    decrypt toySuite Spqr.toyKem varintWire toyEnv toyAddress m.serialized X3dh.sampleStore =
      .error e st' ∧ st' = X3dh.sampleStore := by
  obtain ⟨m, hm⟩ : ∃ m, Wire.newSignalMessage toyPrims varintWire 3 (Key.fill 1).toBytes
      (toyPair 8).publicKey 0 0 [7] ⟨(toyPair 2).publicKey, .zero⟩ ⟨(toyPair 3).publicKey, .zero⟩
      [] = .ok m := ⟨_, rfl⟩
  have hparse := Wire.parseSignalMessage_serialized varintWire_laws (by decide) hm
  obtain ⟨e, st', h⟩ : ∃ e st', decrypt toySuite Spqr.toyKem varintWire toyEnv toyAddress
      m.serialized X3dh.sampleStore = .error e st' := by
    rw [decrypt, bind_of_ok
      (show loadRecordOptional toySuite toyAddress X3dh.sampleStore = .ok none _ from rfl)]
    simp only [show toySuite.toPrims = toyPrims from rfl, hparse]
    exact ⟨_, _, rfl⟩
  refine ⟨m, e, st', hm, h, (failed_decrypt_effect _ _ _ _ _ _ _ _ _ h).mpr ?_⟩
  rintro ⟨msg, record, key, hnot, -⟩
  exact hnot m hparse

/-- A store with a one-time pre-key 6 and a signed pre-key 5 that never expires. -/
def traceStore : Store :=
  { X3dh.sampleStore with
    signedPreKeyMaxAge := 0
    signedKeys := (∅ : Std.ExtTreeMap UInt32 SignedPreKey).insert 5
      { id := 5, keyPair := toyPair 4, signature := [1], timestamp := none } }

/-- The handshake of a sender with the identity `toyPair 2`, as the responder reads it. -/
def forgedHandshake (ciphertext : Bytes) : X3dh.Message where
  identityKey := ⟨(toyPair 2).publicKey, .zero⟩
  ephemeralKey := (toyPair 6).publicKey
  preKeyID := some 6
  signedPreKeyID := 5
  kyberPreKeyID := none
  kyberCiphertext := []
  ciphertext := ciphertext

theorem forged_handshake (ciphertext : Bytes) :
    ∃ session, processPreKeyMessage toySuite toyEnv toyAddress (forgedHandshake ciphertext)
      traceStore = .ok session ((traceStore.removePreKey 6).saveIdentity toyAddress
        ⟨(toyPair 2).publicKey, .zero⟩) := ⟨_, rfl⟩

/-- A message under a MAC key that is not the one of the session. The toy MAC shows its key, and
the toy keys of a session are all `0xff`. -/
theorem forged_refused {session : Session} {m : Wire.SignalMessage}
    {senderIdentity receiverIdentity : IdentityKey} {version : UInt8} {ratchet : Key}
    {counter previousCounter : UInt32} {ciphertext pqRatchet : Bytes} {rnd : Except String Key}
    (hm : Wire.newSignalMessage toyPrims varintWire version (Key.fill 1).toBytes ratchet counter
      previousCounter ciphertext senderIdentity receiverIdentity pqRatchet = .ok m) :
    ∃ e, decryptSignalWithSession toySuite Spqr.toyKem rnd session m = .error e := by
  cases hdec : decryptSignalWithSession toySuite Spqr.toyKem rnd session m with
  | error e => exact ⟨e, rfl⟩
  | ok r =>
    obtain ⟨-, next, messageKey, pqrNext, salt, -, -, hopen, -⟩ :=
      decryptSignalWithSession_ok.mp hdec
    obtain ⟨ok, hverify, hplain⟩ := bind_eq_ok.mp hopen
    obtain ⟨signed, mac, hmac, hverify'⟩ := Wire.verifyMAC_eq hm
    rw [show toySuite.toPrims = toyPrims from rfl, hverify'] at hverify
    cases hmac
    have hok : ok = false := by
      cases hverify
      refine decide_eq_false fun heq => ?_
      have hfirst : (1 : UInt8) ^^^ 1 = 0xff ^^^ 1 := congrArg (List.headD · 0) heq
      exact absurd hfirst (by decide)
    rw [hok] at hplain
    cases hplain

/-- A stranger's pre-key message fails its MAC; the one-time pre-key it names is gone and its
identity is trusted. -/
theorem failed_decrypt_effect_forged :
    ∃ ciphertext e st',
      decrypt toySuite Spqr.toyKem varintWire toyEnv toyAddress ciphertext traceStore =
        .error e st' ∧
      traceStore.preKeys[(6 : UInt32)]? ≠ none ∧ st'.preKeys[(6 : UInt32)]? = none ∧
      traceStore.identities[toyAddress]? = none ∧
      st'.identities[toyAddress]? = some ⟨(toyPair 2).publicKey, .zero⟩ := by
  have hm : ∃ m, Wire.newSignalMessage toyPrims varintWire 3 (Key.fill 1).toBytes
      (toyPair 8).publicKey 0 0 [] ⟨(toyPair 2).publicKey, .zero⟩ ⟨(toyPair 3).publicKey, .zero⟩
      [] = .ok m := ⟨_, rfl⟩
  obtain ⟨m, hm⟩ := hm
  have hpm : ∃ pm, Wire.newPreKeySignalMessage varintWire 3 9 (some 6) 5 none []
      (toyPair 6).publicKey ⟨(toyPair 2).publicKey, .zero⟩ m = .ok pm := ⟨_, rfl⟩
  obtain ⟨pm, hpm⟩ := hpm
  obtain ⟨e₁, hsignal⟩ :=
    Wire.parseSignalMessage_preKey toyPrims varintWire_laws varintWire_sized hpm
  have hparse := Wire.parsePreKeySignalMessage_serialized (p := toyPrims) varintWire_laws
    (by decide) (by decide) (Wire.parseSignalMessage_serialized varintWire_laws (by decide) hm) hpm
  obtain ⟨session, hhandshake⟩ := forged_handshake m.serialized
  have hrefused : ∃ e, decryptSignalWithSession toySuite Spqr.toyKem toyEnv.newRatchet session m =
      .error e := forged_refused hm
  obtain ⟨e₂, hrefused⟩ := hrefused
  have hload : loadRecordOptional toySuite toyAddress traceStore = .ok none traceStore := rfl
  generalize hmsg : ({ pm with identityKey := _ } : Wire.PreKeySignalMessage) = msg at hparse
  have hmsg : X3dh.ofPreKeySignalMessage msg = forgedHandshake m.serialized ∧ msg.message = m := by
    obtain ⟨-, -, -, rfl⟩ := (Wire.newPreKeySignalMessage_eq_ok varintWire).mp hpm
    rw [← hmsg]
    exact ⟨rfl, rfl⟩
  -- the handshake goes through, and only then the MAC is refused
  have hfailed : ∃ e, decrypt toySuite Spqr.toyKem varintWire toyEnv toyAddress pm.serialized
      traceStore = .error e ((traceStore.removePreKey 6).saveIdentity toyAddress
        ⟨(toyPair 2).publicKey, .zero⟩) := by
    rw [decrypt, bind_of_ok hload]
    simp only [show toySuite.toPrims = toyPrims from rfl, hsignal]
    rw [lift_bind_of_ok (mapError_eq_ok.mpr hparse), decryptPreKeyMessage, startSession, hmsg.1,
      bind_of_ok hhandshake, hmsg.2, hrefused]
    exact ⟨_, rfl⟩
  obtain ⟨e, hfailed⟩ := hfailed
  exact ⟨_, _, _, hfailed, by simp [traceStore, X3dh.sampleStore], rfl, rfl, rfl⟩

end SignalGo.Session
