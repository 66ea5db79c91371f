import SignalGo.Session.Cipher
import SignalGo.Session.Residue

/-!
# Stores that serve both ciphers

A store is written by the calls of the wire cipher and of the envelope cipher, for many addresses
in turn. Whatever a call does, and whether it succeeds, its writes are of three kinds; what these
keep holds of every store that serves.

* `one_time_pre_key`: a one-time pre-key is good for one handshake.
* `pinned_identity`: the public key of a known peer stays.
* `session_limit`: no name has more sessions than the limit.
-/

namespace SignalGo.Session

open Effect
open Std (ExtTreeMap)
open Relation (ReflTransGen)

variable (s : Suite) (kem : Spqr.Kem) (w : Protowire)

/-! ## What a call writes -/

/-- The calls of the two ciphers. -/
inductive CipherCall : StoreM Bytes → Prop where
  | encrypt (env addr plaintext) : CipherCall (encrypt s kem w env addr plaintext)
  | encryptWithPreKeyBundle (env addr bundle plaintext) :
      CipherCall (encryptWithPreKeyBundle s kem w env addr bundle plaintext)
  | decrypt (env addr ciphertext) : CipherCall (decrypt s kem w env addr ciphertext)
  | envelopeEncrypt (env addr plaintext) : CipherCall (Cipher.encrypt s env addr plaintext)
  | envelopeEncryptWithPreKeyBundle (env addr bundle plaintext) :
      CipherCall (Cipher.encryptWithPreKeyBundle s env addr bundle plaintext)
  | envelopeDecrypt (env addr data) : CipherCall (Cipher.decrypt s env addr data)

/-- One call on a store, which may fail. -/
def Served (st : Store) (call : StoreM Bytes) (st' : Store) : Prop :=
  CipherCall s kem w call ∧ st' = after call st

/-- An identity is saved only when it is trusted. -/
inductive Write : Store → Store → Prop where
  | removePreKey (st : Store) (id : UInt32) : Write st (st.removePreKey id)
  | saveIdentity (st : Store) (addr : Address) (key : IdentityKey)
      (trusted : st.isTrustedIdentity addr key = true) : Write st (st.saveIdentity addr key)
  | persist (st : Store) (env : Env) (addr : Address) (record : Record) :
      Write st (persisted env addr record st)

/-- The program changes the store by such writes only. -/
abbrev WritesOnly {α : Type} (x : StoreM α) : Prop := Moves (ReflTransGen Write) x

namespace WritesOnly

variable {α β : Type} {x : StoreM α} {f : α → StoreM β}

theorem silent (h : Keeps id x) : WritesOnly x := .of_keeps (fun _ => .refl) h

theorem bind (hx : WritesOnly x) (hf : ∀ a, WritesOnly (f a)) : WritesOnly (x >>= f) :=
  Moves.bind (fun _ _ _ => .trans) hx hf

theorem reads_bind (hx : Keeps id x) (hf : ∀ a, WritesOnly (f a)) : WritesOnly (x >>= f) :=
  (silent hx).bind hf

end WritesOnly

open WritesOnly

variable {s kem w} {env : Env} {addr : Address} {st st' : Store}

theorem writesOnly_persist {record : Record} {x : StoreM Bytes} (hx : Keeps id x) :
    WritesOnly (do persistRecord env addr record; x) := by
  have hpersist : WritesOnly (persistRecord env addr record) :=
    fun st => .single (.persist st env addr record)
  exact hpersist.bind fun _ => silent hx

theorem writesOnly_processPreKeyBundle (bundle : PreKeyBundle) :
    WritesOnly (processPreKeyBundle s env addr bundle) := by
  have hfail : FailKeeps id (processPreKeyBundle s env addr bundle) := by
    refine .bind (.reads _) fun localID => .bind (.reads _) fun trusted => ?_
    split
    · exact .of_keeps (.fail _)
    · exact .bind (.lift _) fun _ => .bind (.lift _) fun _ => .of_ok fun st => ⟨_, _, rfl⟩
  intro st
  cases h : processPreKeyBundle s env addr bundle st with
  | ok opened st' =>
    obtain ⟨htrust, -, -, -, -, rfl⟩ := processPreKeyBundle_ok.mp h
    rw [after_of_ok h]
    exact .single (.saveIdentity st addr _ htrust)
  | error e st' =>
    obtain rfl : st' = st := hfail _ _ _ h
    rw [after_of_error h]

/-- The responder writes at most once. -/
theorem after_responder (s : Suite) (identity : IdentityKeyPair) (signedPreKey : SignedPreKey)
    (msg : X3dh.Message) (st : Store) :
    after (X3dh.processInitialMessage s identity signedPreKey msg) st = st ∨
      ∃ id, after (X3dh.processInitialMessage s identity signedPreKey msg) st =
        st.removePreKey id := by
  by_cases hterms : HasTerms s identity signedPreKey msg
  · rw [after_of_hasTerms hterms]
    by_cases hcons : Consumes s st msg
    · obtain ⟨k, id, -, hrun⟩ := responderDH4_of_consumes hcons
      exact .inr ⟨id, after_of_ok hrun⟩
    · exact .inl (after_responderDH4_of_not hcons)
  · exact .inl (after_of_not_hasTerms hterms)

/-- A first message takes the one-time key away and saves the identity. -/
theorem writesOnly_processPreKeyMessage (msg : X3dh.Message) :
    WritesOnly (processPreKeyMessage s env addr msg) := by
  intro st
  cases h : processPreKeyMessage s env addr msg st with
  | ok session st' =>
    obtain ⟨signedPreKey, husable, result, st1, hinit, -, rfl⟩ := processPreKeyMessage_ok.mp h
    rw [after_of_ok h, ← after_of_ok hinit]
    rcases after_responder s st.identityKeyPair signedPreKey msg st with heq | ⟨id, heq⟩ <;>
      rw [heq]
    · exact .single (.saveIdentity st addr _ husable.trusted)
    -- the pre-key is gone by then, which the trust does not depend on
    · exact (ReflTransGen.single (.removePreKey st id)).tail
        (.saveIdentity _ addr _ husable.trusted)
  | error e st' =>
    rw [after_of_error h]
    by_cases husable : ∃ signedPreKey, Usable env addr st msg signedPreKey
    · obtain ⟨signedPreKey, husable⟩ := husable
      rw [processPreKeyMessage_of_usable husable] at h
      rw [(respond_error h).1]
      rcases after_responder s st.identityKeyPair signedPreKey msg st with heq | ⟨id, heq⟩
      · rw [heq]
      · exact heq ▸ .single (.removePreKey st id)
    · obtain ⟨_, hsame⟩ := processPreKeyMessage_of_not_usable (s := s) husable
      cases hsame.symm.trans h
      exact .refl

/-- A session of its own for the message, which has to open it. -/
theorem writesOnly_start {α : Type} {msg : X3dh.Message} {decrypt : Session → Except (Fault Err) α}
    {record : α → Record} {out : α → Bytes} :
    WritesOnly (do
      let session ← processPreKeyMessage s env addr msg
      let opened ← lift (decrypt session)
      persistRecord env addr (record opened)
      return out opened) :=
  (writesOnly_processPreKeyMessage msg).bind fun _ => reads_bind (.lift _) fun _ =>
    writesOnly_persist (.pure _)

/-- `Decrypt`, for either kind of message. -/
theorem writesOnly_decrypt (ciphertext : Bytes) :
    WritesOnly (decrypt s kem w env addr ciphertext) := by
  refine reads_bind keeps_loadRecordOptional fun record => ?_
  have hstart (msg : Wire.PreKeySignalMessage) :
      WritesOnly (startSession s kem env addr record msg) := writesOnly_start
  split
  · cases record with
    | none => exact silent (.fail _)
    | some r => exact reads_bind (.lift _) fun _ => writesOnly_persist (.pure _)
  · refine reads_bind (.lift _) fun msg => ?_
    unfold decryptPreKeyMessage
    split
    · exact hstart msg
    · split
      · exact writesOnly_persist (.pure _)
      · split
        · exact silent (.fail _)
        · exact hstart msg
      · exact silent (.fail _)

theorem writesOnly_envelopeDecrypt (data : Bytes) :
    WritesOnly (Cipher.decrypt s env addr data) := by
  refine reads_bind (.lift _) fun envelope => ?_
  obtain ⟨msgType, payload⟩ := envelope
  dsimp only
  split
  · refine reads_bind (.lift _) fun msg => reads_bind keeps_loadRecordRequired fun record => ?_
    exact reads_bind (.lift _) fun _ => writesOnly_persist (.pure _)
  · split
    · refine reads_bind (.lift _) fun msg => ?_
      split
      · exact silent (.fail _)
      · refine reads_bind (.lift _)
          fun ratchetMsg => reads_bind keeps_loadRecordOptional fun r => ?_
        split
        · exact writesOnly_start
        · split
          · exact writesOnly_persist (.pure _)
          · split
            · exact silent (.fail _)
            · exact writesOnly_start
          · exact silent (.fail _)
    · exact silent (.fail _)

/-- **What a call writes.** -/
theorem CipherCall.writes {call : StoreM Bytes} (h : CipherCall s kem w call) :
    WritesOnly call := by
  cases h with
  | encrypt | envelopeEncrypt =>
    exact reads_bind keeps_loadRecordRequired fun _ => reads_bind (.lift _) fun _ =>
      writesOnly_persist (.pure _)
  | encryptWithPreKeyBundle =>
    refine reads_bind (.reads _) fun found => ?_
    split
    · exact silent (.fail _)
    · refine (writesOnly_processPreKeyBundle _).bind fun _ => reads_bind (.lift _) fun _ => ?_
      exact reads_bind (.reads _) fun _ => reads_bind (.lift _)
        fun _ => writesOnly_persist (.pure _)
  | decrypt => exact writesOnly_decrypt _
  | envelopeEncryptWithPreKeyBundle =>
    refine reads_bind (.reads _) fun found => ?_
    split
    · exact silent (.fail _)
    · refine (writesOnly_processPreKeyBundle _).bind fun _ => reads_bind (.lift _) fun _ => ?_
      -- the record is stored before the message is serialized
      exact writesOnly_persist ((Keeps.lift _).bind fun _ => .pure _)
  | envelopeDecrypt => exact writesOnly_envelopeDecrypt _

/-- What every write keeps, every run of calls keeps. -/
theorem served_invariant {I : Store → Prop} {calls : List (StoreM Bytes)}
    (hwrite : ∀ {st st'}, Write st st' → I st → I st') (hrun : Run (Served s kem w) st calls st')
    (h : I st) : I st' := by
  have hwrites {t u : Store} (htu : ReflTransGen Write t u) (ht : I t) : I u := by
    induction htu with
    | refl => exact ht
    | tail _ hw ih => exact hwrite hw ih
  refine hrun.invariant (fun ht hstep => ?_) h
  obtain ⟨hcall, rfl⟩ := hstep
  exact hwrites (hcall.writes _) ht

/-! ## One-time pre-keys -/

section OneTime

variable {id : UInt32} {msg : X3dh.Message} {session : Session}

/-- A handshake that names a one-time pre-key finds it and leaves without it. -/
theorem preKey_of_processPreKeyMessage (hid : msg.preKeyID = some id)
    (h : processPreKeyMessage s env addr msg st = .ok session st') :
    id ∈ st.preKeys ∧ id ∉ st'.preKeys := by
  obtain ⟨signedPreKey, -, result, st1, hinit, -, rfl⟩ := processPreKeyMessage_ok.mp h
  unfold X3dh.processInitialMessage at hinit
  split at hinit
  · cases hinit
  -- the three terms in front of the fourth do not write, and neither does what follows it
  · obtain ⟨_, _, h1, hinit⟩ := Effect.bind_eq_ok.mp hinit
    obtain ⟨_, _, h2, hinit⟩ := Effect.bind_eq_ok.mp hinit
    obtain ⟨_, _, h3, hinit⟩ := Effect.bind_eq_ok.mp hinit
    obtain ⟨dh4, st4, h4, hinit⟩ := Effect.bind_eq_ok.mp hinit
    rw [(lift_eq_ok.mp h1).2] at h2
    rw [(lift_eq_ok.mp h2).2] at h3
    rw [(lift_eq_ok.mp h3).2] at h4
    obtain rfl : st1 = st4 := ((keeps_decapsulate msg).bind fun _ => (Keeps.lift _).bind fun _ =>
      .pure _).of_ok hinit
    rw [hid, X3dh.responderDH4, bind_of_ok (reads_apply _)] at h4
    cases hpre : st.preKeys[id]? with
    | none =>
      rw [hpre] at h4
      cases h4
    | some pre =>
      rw [hpre] at h4
      cases hdh : dh s.toPrims pre.keyPair.privateKey msg.ephemeralKey with
      | error e =>
        simp only [hdh] at h4
        cases h4
      | ok out =>
        simp only [hdh] at h4
        cases h4
        refine ⟨ExtTreeMap.mem_iff_isSome_getElem?.mpr (by rw [hpre]; rfl), ?_⟩
        simp [Store.saveIdentity, Store.removePreKey]

theorem Write.preKeys (h : Write st st') (hnot : id ∉ st.preKeys) : id ∉ st'.preKeys := by
  cases h with
  | removePreKey => exact fun hmem => hnot (ExtTreeMap.mem_of_mem_erase hmem)
  | saveIdentity => exact hnot
  | persist =>
    unfold persisted Store.enforceSessionLimit
    split <;> exact hnot

/-- **A one-time pre-key is good for one handshake.** After a handshake that named it, and whatever
calls of both ciphers follow, no other handshake that names it succeeds, and no pre-key message that
names it starts a session. -/
theorem one_time_pre_key {calls : List (StoreM Bytes)} {st₁ st₂ : Store}
    (h : processPreKeyMessage s env addr msg st = .ok session st₁) (hid : msg.preKeyID = some id)
    (hrun : Run (Served s kem w) st₁ calls st₂) :
    (∀ env addr (msg : X3dh.Message) session st₃, msg.preKeyID = some id →
      processPreKeyMessage s env addr msg st₂ ≠ .ok session st₃) ∧
    ∀ env addr record (msg : Wire.PreKeySignalMessage) plaintext st₃, msg.preKeyID = some id →
      startSession s kem env addr record msg st₂ ≠ .ok plaintext st₃ := by
  have hgone : id ∉ st₂.preKeys :=
    served_invariant Write.preKeys hrun (preKey_of_processPreKeyMessage hid h).2
  refine ⟨fun env addr msg session st₃ hid h => hgone (preKey_of_processPreKeyMessage hid h).1,
    fun env addr record msg plaintext st₃ hid hok => ?_⟩
  obtain ⟨session, st₄, -, hprocess, -⟩ := startSession_ok.mp hok
  exact hgone (preKey_of_processPreKeyMessage hid hprocess).1

/-- The stranger's handshake spends the one-time pre-key 6 of the sample store. -/
theorem one_time_pre_key_forged : ∃ session st₁ st₂,
    processPreKeyMessage toySuite toyEnv toyAddress (forgedHandshake []) traceStore =
      .ok session st₁ ∧
    Run (Served toySuite Spqr.toyKem varintWire) st₁
      [decrypt toySuite Spqr.toyKem varintWire toyEnv toyAddress []] st₂ ∧
    ∀ session st₃, processPreKeyMessage toySuite toyEnv toyAddress (forgedHandshake []) st₂ ≠
      .ok session st₃ := by
  obtain ⟨session, h⟩ := forged_handshake []
  refine ⟨session, _, _, h, .single ⟨.decrypt toyEnv toyAddress [], rfl⟩, fun session st₃ => ?_⟩
  exact (one_time_pre_key h rfl (.single ⟨.decrypt toyEnv toyAddress [], rfl⟩)).1 _ _ _ _ _ rfl

end OneTime

/-! ## Identities -/

/-- A write keeps the public key that is known for an address. -/
theorem Write.publicKey {key : Key} (h : Write st st')
    (hknown : st.identities[addr]?.map IdentityKey.publicKey = some key) :
    st'.identities[addr]?.map IdentityKey.publicKey = some key := by
  cases h with
  | removePreKey => exact hknown
  | persist =>
    unfold persisted Store.enforceSessionLimit
    split <;> exact hknown
  | saveIdentity addr' identity trusted =>
    simp only [Store.saveIdentity, lookup_insert]
    split
    case isFalse => exact hknown
    case isTrue heq =>
      -- what is saved has the public key that the trust check has compared
      subst heq
      obtain ⟨existing, hget, rfl⟩ := Option.map_eq_some_iff.mp hknown
      simp only [Store.isTrustedIdentity, hget] at trusted
      have hsame : existing.publicKey = identity.publicKey := by
        split at trusted <;> simp_all
      rw [hget, Option.map_some, hsame]
      simp only [Store.mergeIdentity]
      split <;> rfl

/-- **Trust on first use.** Once a store knows the public key of an address, no calls of both
ciphers change it. -/
theorem pinned_identity {calls : List (StoreM Bytes)} {key : Key}
    (hrun : Run (Served s kem w) st calls st')
    (h : st.identities[addr]?.map IdentityKey.publicKey = some key) :
    st'.identities[addr]?.map IdentityKey.publicKey = some key :=
  served_invariant Write.publicKey hrun h

/-- A store that knows the peer of the sample bundle. -/
def knownStore : Store := plainStore.saveIdentity toyAddress plainBundle.identityKey

/-- The first message to a device of the sample peer. -/
def openDevice (device : UInt32) (bundle : PreKeyBundle) : StoreM Bytes :=
  encryptWithPreKeyBundle toySuite Spqr.toyKem varintWire toyEnv
    ⟨toyAddress.name, device⟩ bundle [1]

theorem cipherCall_openDevice (device : UInt32) (bundle : PreKeyBundle) :
    CipherCall toySuite Spqr.toyKem varintWire (openDevice device bundle) :=
  .encryptWithPreKeyBundle _ _ _ _

/-- A bundle under another key is refused; the peer's own opens a session and saves its identity
again. -/
theorem pinned_identity_bundles : ∃ other e out st,
    openDevice 1 { plainBundle with identityKey := other } knownStore = .error e knownStore ∧
    openDevice 1 plainBundle knownStore = .ok out st ∧
    Run (Served toySuite Spqr.toyKem varintWire) knownStore
      [openDevice 1 { plainBundle with identityKey := other }, openDevice 1 plainBundle] st ∧
    st.identities[toyAddress]?.map IdentityKey.publicKey =
      some plainBundle.identityKey.publicKey := by
  obtain ⟨other, e, out, st, hrefused, hopened⟩ : ∃ other e out st,
      openDevice 1 { plainBundle with identityKey := other } knownStore = .error e knownStore ∧
      openDevice 1 plainBundle knownStore = .ok out st :=
    ⟨⟨(toyPair 11).publicKey, .zero⟩, _, _, _, rfl, rfl⟩
  have hrun : Run (Served toySuite Spqr.toyKem varintWire) knownStore
      [openDevice 1 { plainBundle with identityKey := other }, openDevice 1 plainBundle] st :=
    (Run.single ⟨cipherCall_openDevice _ _, (after_of_error hrefused).symm⟩).snoc
      ⟨cipherCall_openDevice _ _, (after_of_ok hopened).symm⟩
  exact ⟨other, e, out, st, hrefused, hopened, hrun, pinned_identity hrun rfl⟩

/-! ## The limit of the store -/

section Limit

open Store

variable {sessions : ExtTreeMap Address Bytes} {name : GoString} {limit : Int}

theorem countSessions_le_length {addrs : List Address}
    (h : ∀ a ∈ sessions, a.name = name → a ∈ addrs) :
    countSessions name sessions ≤ addrs.length := by
  refine ((ExtTreeMap.nodup_keys.filter _).subperm fun a ha => ?_).length_le
  obtain ⟨hkey, hname⟩ := List.mem_filter.mp ha
  exact h a (ExtTreeMap.mem_keys.mp hkey) (of_decide_eq_true hname)

/-- The loop ends at the limit. -/
theorem countSessions_dropSessions (hlimit : 0 < limit) (address : Address) (pick : Nat → Nat)
    (passes : Nat) (h : (countSessions address.name sessions : Int) ≤ limit + passes) :
    (countSessions address.name (dropSessions limit address pick passes sessions) : Int) ≤
      limit := by
  -- induction on the passes left: one more session of the name is gone with each
  induction passes generalizing sessions with
  | zero => simpa [dropSessions] using h
  | succ passes ih =>
    rw [dropSessions]
    split
    case isFalse hle => omega
    case isTrue hgt =>
      split
      case h_1 hnone =>
        have hone : countSessions address.name sessions ≤ [address].length := by
          refine countSessions_le_length fun a ha hname => List.mem_singleton.mpr ?_
          by_contra hne
          have hmem : a ∈ otherSessions address sessions :=
            List.mem_filter.mpr ⟨ExtTreeMap.mem_keys.mpr ha, decide_eq_true ⟨hname, hne⟩⟩
          exact List.not_mem_nil (hnone ▸ hmem)
        rw [List.length_singleton] at hone
        omega
      case h_2 first others hother =>
        simp only
        generalize hdrop : (first :: others).getD (pick passes % (others.length + 1)) first = drop
        have hmem : drop ∈ sessions.keys.filter fun a => a.name = address.name := by
          have hin : drop ∈ otherSessions address sessions := by
            have hlt : pick passes % (others.length + 1) < (first :: others).length :=
              Nat.mod_lt _ (Nat.succ_pos _)
            rw [hother, ← hdrop, List.getD_eq_getElem _ _ hlt]
            exact List.getElem_mem hlt
          obtain ⟨hkey, hname⟩ := List.mem_filter.mp hin
          exact List.mem_filter.mpr ⟨hkey, decide_eq_true (of_decide_eq_true hname).1⟩
        have hless : countSessions address.name (sessions.erase drop) ≤
            ((sessions.keys.filter fun a => a.name = address.name).erase drop).length := by
          refine countSessions_le_length fun a ha hname => ?_
          obtain ⟨hne, ha⟩ := ExtTreeMap.mem_erase.mp ha
          refine (List.mem_erase_of_ne ?_).mpr
            (List.mem_filter.mpr ⟨ExtTreeMap.mem_keys.mpr ha, decide_eq_true hname⟩)
          rintro rfl
          exact hne Std.ReflCmp.compare_self
        have hpos : 0 < countSessions address.name sessions := List.length_pos_of_mem hmem
        rw [List.length_erase_of_mem hmem, ← countSessions] at hless
        exact ih (by omega)

/-- Enforcing the limit leaves no more sessions of the name than it allows. -/
theorem countSessions_enforceSessionLimit (st : Store) (hlimit : 0 < st.maxSessionsPerName)
    (pick : Nat → Nat) {addr : Address} (hname : addr.name ≠ []) :
    (countSessions addr.name (st.enforceSessionLimit pick addr).sessions : Int) ≤
      st.maxSessionsPerName := by
  rw [enforceSessionLimit, if_neg (not_or.mpr ⟨not_le.mpr hlimit, hname⟩)]
  have hsize : countSessions addr.name st.sessions ≤ st.sessions.keys.length :=
    List.length_filter_le _ _
  rw [ExtTreeMap.length_keys] at hsize
  exact countSessions_dropSessions hlimit addr pick _ (by omega)

/-- A name other than the empty one has at most as many sessions as the limit allows. -/
def Limited (limit : Int) (st : Store) : Prop :=
  st.maxSessionsPerName = limit ∧
    ∀ name ≠ [], (countSessions name st.sessions : Int) ≤ limit

/-- **Every write** keeps the limit: it adds a session only together with enforcing it. -/
theorem Write.limited (hlimit : 0 < limit) (h : Write st st') (hst : Limited limit st) :
    Limited limit st' := by
  cases h with
  | removePreKey | saveIdentity => exact hst
  | persist env addr record =>
    obtain ⟨rfl, hcount⟩ := hst
    have hmax : (persisted env addr record st).maxSessionsPerName = st.maxSessionsPerName := by
      unfold persisted enforceSessionLimit
      split <;> rfl
    refine ⟨hmax, fun name hname => ?_⟩
    by_cases heq : name = addr.name
    · subst heq
      exact countSessions_enforceSessionLimit (st.storeSession addr _) hlimit env.pick hname
    · refine le_trans (Int.ofNat_le.mpr (countSessions_le_length fun a ha hna => ?_))
        (hcount name hname)
      -- a session of another name was there before
      have hold : a ∈ st.sessions := by
        have hsub := enforceSessionLimit_subset _ _ _ a ha
        refine (ExtTreeMap.mem_insert.mp hsub).resolve_left fun hsame => heq ?_
        rw [← hna, Std.LawfulEqOrd.eq_of_compare hsame]
      exact List.mem_filter.mpr ⟨ExtTreeMap.mem_keys.mpr hold, decide_eq_true hna⟩

/-- **The limit holds.** A store within its limit that serves any calls of both ciphers stays within
it. -/
theorem session_limit {calls : List (StoreM Bytes)} (hlimit : 0 < limit) (h : Limited limit st)
    (hrun : Run (Served s kem w) st calls st') : Limited limit st' :=
  served_invariant (Write.limited hlimit) hrun h

/-- A store with room for two sessions of a name. -/
def pairStore : Store := { plainStore with maxSessionsPerName := 2 }

/-- Three devices of one name are written to. The second fills the room, and with the third the
session of the first goes. -/
theorem session_limit_devices : ∃ st₂ st₃,
    Run (Served toySuite Spqr.toyKem varintWire) pairStore
      [openDevice 1 plainBundle, openDevice 2 plainBundle] st₂ ∧
    st₂.sessions.keys = [⟨toyAddress.name, 1⟩, ⟨toyAddress.name, 2⟩] ∧
    Run (Served toySuite Spqr.toyKem varintWire) st₂ [openDevice 3 plainBundle] st₃ ∧
    st₃.sessions.keys = [⟨toyAddress.name, 2⟩, ⟨toyAddress.name, 3⟩] ∧ Limited 2 st₃ := by
  obtain ⟨out₁, st₁, out₂, st₂, out₃, st₃, h₁, h₂, hfull, h₃, hdropped⟩ :
      ∃ out₁ st₁ out₂ st₂ out₃ st₃, openDevice 1 plainBundle pairStore = .ok out₁ st₁ ∧
        openDevice 2 plainBundle st₁ = .ok out₂ st₂ ∧
        st₂.sessions.keys = [⟨toyAddress.name, 1⟩, ⟨toyAddress.name, 2⟩] ∧
        openDevice 3 plainBundle st₂ = .ok out₃ st₃ ∧
        st₃.sessions.keys = [⟨toyAddress.name, 2⟩, ⟨toyAddress.name, 3⟩] :=
    ⟨_, _, _, _, _, _, rfl, rfl, rfl, rfl, rfl⟩
  have hrun : Run (Served toySuite Spqr.toyKem varintWire) pairStore
      [openDevice 1 plainBundle, openDevice 2 plainBundle] st₂ :=
    (Run.single ⟨cipherCall_openDevice _ _, (after_of_ok h₁).symm⟩).snoc
      ⟨cipherCall_openDevice _ _, (after_of_ok h₂).symm⟩
  have hthird : Served toySuite Spqr.toyKem varintWire st₂ (openDevice 3 plainBundle) st₃ :=
    ⟨cipherCall_openDevice _ _, (after_of_ok h₃).symm⟩
  exact ⟨st₂, st₃, hrun, hfull, .single hthird, hdropped,
    session_limit two_pos ⟨rfl, fun _ _ => zero_le_two⟩ (hrun.snoc hthird)⟩

end Limit

end SignalGo.Session
