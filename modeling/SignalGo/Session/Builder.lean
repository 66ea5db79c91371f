import SignalGo.Session.Session

/-!
# Session builder

`ProcessPreKeyBundle` starts a session with the keys of the peer's bundle, `ProcessPreKeyMessage`
starts the other end of it with the stored keys the message names. Both write to the store: the
peer's identity is saved, and the one-time pre-key of the message is gone.

`Env` is what one call of the packages above gets from outside.
-/

namespace SignalGo.Session

open Effect

/-- The time, the order in which the store's sessions are visited, and the random bytes a call
reads, by what they are for. -/
structure Env where
  now : Int
  pick : Nat → Nat
  ephemeral : Except String Key
  kyber : Bytes
  -- the key pairs of a new ratchet state
  initRatchet : Nat → Except String Key
  -- a DH ratchet step on the session at a position of the record
  ratchet : Nat → Except String Key
  -- a DH ratchet step on a session that was just made
  newRatchet : Except String Key
  spqr : Spqr.Rand

variable (s : Suite) (env : Env) (addr : Address)

/-- The session of a finished handshake. -/
def buildSession (localIdentity remoteIdentity : IdentityKey) (result : X3dh.Result)
    (isInitiator : Bool) : Except Err Session := do
  let state ← (Ratchet.initializeState s.toPrims env.initRatchet result isInitiator).mapError
    (.context "ratchet init")
  let session ← initSessionPQR s
    (newSession state localIdentity remoteIdentity result.associatedData) result isInitiator
  return setSessionCiphertextVersion session (ciphertextVersionFromX3DH result.initialMessage)

def untrusted : Fault Err := .err (.wrap .untrustedIdentity addr.text)

def processPreKeyBundle (bundle : PreKeyBundle) : StoreM (Session × X3dh.Message) := do
  let localID ← reads (·.identityKeyPair)
  if !(← reads (Store.isTrustedIdentity addr bundle.identityKey)) then fail (untrusted addr)
  else do
    let result ← lift (((X3dh.newInitiator s localID env.ephemeral env.kyber).processPreKeyBundle s
      bundle).mapError fun e => .err (.context "x3dh initiator" e))
    let session ← lift ((buildSession s env localID.publicKey bundle.identityKey result
      true).mapError .err)
    update (Store.saveIdentity addr bundle.identityKey)
    return (session, result.initialMessage)

/-- The signed pre-key the message names, unless it is too old. -/
def usableSignedPreKey (id : UInt32) : StoreM SignedPreKey := do
  match ← reads (·.signedKeys[id]?) with
  | none => fail (.err (.wrap .preKeyNotFound s!"signed pre-key {id}"))
  | some signedPreKey => do
      if ← reads (Store.signedPreKeyExpired signedPreKey env.now) then
        fail (.err (.wrap .preKeyExpired s!"signed pre-key {id}"))
      else return signedPreKey

/-- The part of `ProcessPreKeyMessage` behind the checks. -/
def respond (identityKey : IdentityKeyPair) (signedPreKey : SignedPreKey) (msg : X3dh.Message) :
    StoreM Session := do
  let result ← (X3dh.processInitialMessage s identityKey signedPreKey msg).adaptExcept fun e =>
    .err (.context "x3dh responder" e)
  let session ← lift ((buildSession s env identityKey.publicKey msg.identityKey result
    false).mapError .err)
  update (Store.saveIdentity addr msg.identityKey)
  return session

def processPreKeyMessage (msg : X3dh.Message) : StoreM Session := do
  let identityKey ← reads (·.identityKeyPair)
  if !(← reads (Store.isTrustedIdentity addr msg.identityKey)) then fail (untrusted addr)
  else do
    let signedPreKey ← usableSignedPreKey env msg.signedPreKeyID
    respond s env addr identityKey signedPreKey msg

/-! ## What a call did -/

section Inversion

variable {s : Suite} {env : Env} {addr : Address} {st st' : Store}

variable {session : Session} {msg : X3dh.Message}

/-- When a bundle is accepted, and what is stored then. -/
theorem processPreKeyBundle_ok {bundle : PreKeyBundle} :
    processPreKeyBundle s env addr bundle st = .ok (session, msg) st' ↔
      st.isTrustedIdentity addr bundle.identityKey = true ∧ ∃ result,
        (X3dh.newInitiator s st.identityKeyPair env.ephemeral env.kyber).processPreKeyBundle s
          bundle = .ok result ∧
        buildSession s env st.identityKeyPair.publicKey bundle.identityKey result true =
          .ok session ∧
        msg = result.initialMessage ∧ st' = st.saveIdentity addr bundle.identityKey := by
  rw [processPreKeyBundle, bind_of_ok (reads_apply _), bind_of_ok (reads_apply _)]
  cases htrust : st.isTrustedIdentity addr bundle.identityKey with
  | false => simp
  | true =>
    simp only [Bool.not_true, Bool.false_eq_true, if_false, true_and]
    constructor
    · intro h
      obtain ⟨result, st1, hlift, hrest⟩ := Effect.bind_eq_ok.mp h
      obtain ⟨hresult, rfl⟩ := lift_eq_ok.mp hlift
      obtain ⟨session', st2, hlift', hsave⟩ := Effect.bind_eq_ok.mp hrest
      obtain ⟨hbuild, rfl⟩ := lift_eq_ok.mp hlift'
      cases hsave
      exact ⟨result, mapError_eq_ok.mp hresult, mapError_eq_ok.mp hbuild, rfl, rfl⟩
    · rintro ⟨result, hresult, hbuild, rfl, rfl⟩
      rw [lift_bind_of_ok (mapError_eq_ok.mpr hresult), lift_bind_of_ok (mapError_eq_ok.mpr hbuild)]
      rfl

/-- The peer's identity is not a changed one, and the signed pre-key is there and not too old. -/
structure Usable (env : Env) (addr : Address) (st : Store) (msg : X3dh.Message)
    (signedPreKey : SignedPreKey) : Prop where
  trusted : st.isTrustedIdentity addr msg.identityKey = true
  stored : st.signedKeys[msg.signedPreKeyID]? = some signedPreKey
  unexpired : st.signedPreKeyExpired signedPreKey env.now = false

variable {signedPreKey : SignedPreKey}

/-- The signed pre-key is stored and has not expired. -/
theorem usableSignedPreKey_ok {id : UInt32} :
    usableSignedPreKey env id st = .ok signedPreKey st' ↔
      (st.signedKeys[id]? = some signedPreKey ∧
        st.signedPreKeyExpired signedPreKey env.now = false) ∧ st' = st := by
  rw [usableSignedPreKey, bind_of_ok (reads_apply _)]
  cases hkey : st.signedKeys[id]? with
  | none => simp
  | some key =>
    simp only
    rw [bind_of_ok (reads_apply _)]
    cases hexp : st.signedPreKeyExpired key env.now with
    | true =>
      simp only [if_true, fail_apply, Option.some.injEq, reduceCtorEq, false_iff]
      rintro ⟨⟨rfl, hnot⟩, -⟩
      rw [hexp] at hnot
      cases hnot
    | false =>
      simp only [if_false, Bool.false_eq_true, pure_apply, EStateM.Result.ok.injEq,
        Option.some.injEq]
      constructor
      · rintro ⟨rfl, rfl⟩
        exact ⟨⟨rfl, hexp⟩, rfl⟩
      · rintro ⟨⟨rfl, -⟩, rfl⟩
        exact ⟨rfl, rfl⟩

theorem processPreKeyMessage_of_usable (h : Usable env addr st msg signedPreKey) :
    processPreKeyMessage s env addr msg st =
      respond s env addr st.identityKeyPair signedPreKey msg st := by
  have hkey : usableSignedPreKey env msg.signedPreKeyID st = .ok signedPreKey st :=
    usableSignedPreKey_ok.mpr ⟨⟨h.stored, h.unexpired⟩, rfl⟩
  rw [processPreKeyMessage, bind_of_ok (reads_apply _), bind_of_ok (reads_apply _), h.trusted]
  simp only [Bool.not_true, Bool.false_eq_true, if_false]
  rw [bind_of_ok hkey]

theorem keeps_usableSignedPreKey (keyID : UInt32) : Keeps id (usableSignedPreKey env keyID) := by
  refine (Keeps.reads _).bind fun found => ?_
  cases found with
  | none => exact .fail _
  | some key => exact (Keeps.reads _).bind fun expired => .ite (fun _ => .fail _) fun _ => .pure _

theorem processPreKeyMessage_of_not_usable
    (h : ¬ ∃ signedPreKey, Usable env addr st msg signedPreKey) :
    ∃ e, processPreKeyMessage s env addr msg st = .error e st := by
  rw [processPreKeyMessage, bind_of_ok (reads_apply _), bind_of_ok (reads_apply _)]
  cases htrust : st.isTrustedIdentity addr msg.identityKey with
  | false => exact ⟨_, rfl⟩
  | true =>
    simp only [Bool.not_true, Bool.false_eq_true, if_false]
    cases hkey : usableSignedPreKey env msg.signedPreKeyID st with
    | ok signedPreKey st1 =>
      obtain ⟨⟨hstored, hexp⟩, -⟩ := usableSignedPreKey_ok.mp hkey
      exact absurd ⟨signedPreKey, htrust, hstored, hexp⟩ h
    | error e st1 =>
      have : st1 = st := (keeps_usableSignedPreKey _).of_error hkey
      exact ⟨e, by rw [bind_of_error hkey, this]⟩

/-- A handshake that succeeds saves the identity on top of it. -/
theorem respond_ok :
    respond s env addr st.identityKeyPair signedPreKey msg st = .ok session st' ↔
      ∃ result st1,
        X3dh.processInitialMessage s st.identityKeyPair signedPreKey msg st = .ok result st1 ∧
        buildSession s env st.identityKeyPair.publicKey msg.identityKey result false = .ok session ∧
        st' = st1.saveIdentity addr msg.identityKey := by
  constructor
  · intro h
    obtain ⟨result, st1, hinit, hrest⟩ := Effect.bind_eq_ok.mp h
    obtain ⟨session', st2, hlift, hsave⟩ := Effect.bind_eq_ok.mp hrest
    obtain ⟨hbuild, rfl⟩ := lift_eq_ok.mp hlift
    cases hsave
    exact ⟨result, st2, adaptExcept_eq_ok.mp hinit, mapError_eq_ok.mp hbuild, rfl⟩
  · rintro ⟨result, st1, hinit, hbuild, rfl⟩
    rw [respond, bind_of_ok (adaptExcept_eq_ok.mpr hinit),
      lift_bind_of_ok (mapError_eq_ok.mpr hbuild)]
    rfl

/-- When a handshake is accepted, and what is stored then. -/
theorem processPreKeyMessage_ok :
    processPreKeyMessage s env addr msg st = .ok session st' ↔
      ∃ signedPreKey, Usable env addr st msg signedPreKey ∧ ∃ result st1,
        X3dh.processInitialMessage s st.identityKeyPair signedPreKey msg st = .ok result st1 ∧
        buildSession s env st.identityKeyPair.publicKey msg.identityKey result false = .ok session ∧
        st' = st1.saveIdentity addr msg.identityKey := by
  constructor
  · intro h
    by_cases husable : ∃ signedPreKey, Usable env addr st msg signedPreKey
    · obtain ⟨signedPreKey, hu⟩ := husable
      rw [processPreKeyMessage_of_usable hu] at h
      exact ⟨signedPreKey, hu, respond_ok.mp h⟩
    · obtain ⟨e, he⟩ := processPreKeyMessage_of_not_usable (s := s) husable
      rw [he] at h
      cases h
  · rintro ⟨signedPreKey, hu, hrest⟩
    rw [processPreKeyMessage_of_usable hu]
    exact respond_ok.mpr hrest

end Inversion

/-! ## Sample values -/

def toyEnv : Env where
  now := 0
  pick _ := 0
  ephemeral := .ok (Key.fill 6)
  kyber := []
  initRatchet _ := .ok (Key.fill 7)
  ratchet _ := .ok (Key.fill 8)
  newRatchet := .ok (Key.fill 10)
  spqr _ := .ok .zero

def toyAddress : Address := ⟨[112, 101, 101, 114], 1⟩

/-- A bundle without one-time and Kyber pre-keys. -/
def plainBundle : PreKeyBundle where
  registrationID := 9
  deviceID := 1
  preKeyID := none
  preKeyPublic := none
  signedPreKeyID := 5
  signedPreKeyPublic := (toyPair 4).publicKey
  signedPreKeySignature := [1]
  kyberPreKeyID := none
  kyberPreKeyPublic := []
  kyberPreKeySignature := []
  identityKey := ⟨(toyPair 3).publicKey, .zero⟩

def plainStore : Store := newStore ⟨⟨(toyPair 2).publicKey, .zero⟩, (toyPair 2).privateKey⟩ 3

end SignalGo.Session
