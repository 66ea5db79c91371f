import SignalGo.SenderKeys.Redelivery
import SignalGo.SenderKeys.Persistence

/-!
# Sender keys: what a sender gives out

A sender calls `Create`, `Rotate` and `Encrypt` in any order. Everything it gives out is made from
the first state of its record; the log of a run keeps that state next to the bytes.

* `Sends`: the steps of a sender, with the log.
* `Sent.Made`: the bytes of an entry are those of its state, signed with its key.
* `Sent.Leads`: the state of an entry is an earlier moment of the same chain, if it has the
  same ids.
* `SenderOk.run`: both hold in every run whose distribution ids are distinct.
-/

namespace SignalGo.SenderKeys

variable {s : Suite} {w : Protowire} {name : SenderKeyName} {p : Prims}

/-! ## Senders -/

/-- What a sender has given out, with the state it was made from. -/
inductive Sent where
  | distribution (st : State) (bytes : Bytes)
  | message (st : State) (plaintext ciphertext : Bytes)

def Sent.state : Sent → State
  | .distribution st _ => st
  | .message st _ _ => st

def Sent.isMessage : Sent → Bool
  | .distribution _ _ => false
  | .message _ _ _ => true

/-- The stored record of a sender and its log, oldest first. -/
structure Sender where
  data : Option Bytes
  log : List Sent

/-- A sender without a record. -/
def Sender.start : Sender where
  data := none
  log := []

inductive SenderEvent where
  | create (rnd : SendingRandomness)
  | rotate (rnd : SendingRandomness)
  | encrypt (rnd plaintext : Bytes)

/-- The state the next message is made from. -/
def currentState (data : Option Bytes) : Option State :=
  match loadRecord data with
  | .error _ => none
  | .ok record => record.states.head?

/-- One call. A call that fails stores nothing and gives nothing out. -/
inductive Sends (s : Suite) (w : Protowire) (name : SenderKeyName) :
    Sender → SenderEvent → Sender → Prop where
  | created {g : Sender} {rnd : SendingRandomness} {bytes : Bytes} {data : Option Bytes}
      {st : State} :
      create s w rnd g.data = .ok (bytes, data) → currentState data = some st →
      Sends s w name g (.create rnd) { data, log := g.log ++ [.distribution st bytes] }
  | rotated {g : Sender} {rnd : SendingRandomness} {bytes data : Bytes} {st : State} :
      rotate s w rnd g.data = .ok (bytes, data) → currentState (some data) = some st →
      Sends s w name g (.rotate rnd)
        { data := some data, log := g.log ++ [.distribution st bytes] }
  | encrypted {g : Sender} {rnd plaintext ciphertext data : Bytes} {st : State} :
      currentState g.data = some st →
      encrypt s w name rnd g.data plaintext = .ok (ciphertext, data) →
      Sends s w name g (.encrypt rnd plaintext)
        { data := some data, log := g.log ++ [.message st plaintext ciphertext] }
  | notCreated {g : Sender} {rnd : SendingRandomness} {e : Fault Err} :
      create s w rnd g.data = .error e → Sends s w name g (.create rnd) g
  | notRotated {g : Sender} {rnd : SendingRandomness} {e : Fault Err} :
      rotate s w rnd g.data = .error e → Sends s w name g (.rotate rnd) g
  | notEncrypted {g : Sender} {rnd plaintext : Bytes} {e : Fault Err} :
      encrypt s w name rnd g.data plaintext = .error e →
      Sends s w name g (.encrypt rnd plaintext) g

/-- The distribution id of a new state has not been used before. -/
def FreshID (g : Sender) : SenderEvent → Prop
  | .rotate rnd => ∀ id, rnd.distributionID = .ok id → ∀ x ∈ g.log, x.state.distributionID ≠ id
  | .create _ => True
  | .encrypt _ _ => True

/-- The generated signing keys pass the check for low order. -/
def KeysValid (s : Suite) : Prop :=
  ∀ rnd kp, generateKeyPair s.toPrims rnd = .ok kp →
    isValidPublicKey s.toPrims kp.publicKey = true

/-! ## Sending states -/

/-- A state `Create` or `Rotate` has made, at some iteration. -/
structure State.Sending (s : Suite) (st : State) : Prop where
  hasPrivate : st.hasPrivate = true
  version : st.messageVersion = senderKeyMessageVersion
  keyPair : scalarBaseMult s.toPrims st.signingPrivateSeed = .ok st.signingPublic
  valid : isValidPublicKey s.toPrims st.signingPublic = true

variable {rnd : SendingRandomness} {st : State}

theorem newSendingState_ok (hvalid : KeysValid s) (h : newSendingState s rnd = .ok st) :
    st.Sending s ∧ st.Fits ∧ rnd.distributionID = .ok st.distributionID := by
  have hfits := (State.Built.sending h).fits
  unfold newSendingState at h
  obtain ⟨keyID, -, h⟩ := bind_eq_ok.mp h
  obtain ⟨distributionID, hid, h⟩ := bind_eq_ok.mp h
  obtain ⟨seed, -, h⟩ := bind_eq_ok.mp h
  obtain ⟨kp, hkp, h⟩ := bind_eq_ok.mp h
  cases h
  have hkp := mapError_eq_ok.mp hkp
  refine ⟨⟨rfl, rfl, ?_, hvalid _ _ hkp⟩, hfits, mapError_eq_ok.mp hid⟩
  unfold generateKeyPair at hkp
  obtain ⟨priv, -, hkp⟩ := bind_eq_ok.mp hkp
  obtain ⟨pub, hpub, hkp⟩ := bind_eq_ok.mp hkp
  cases hkp
  exact mapError_eq_ok.mp hpub

/-- The message `Encrypt` makes of the state, before it is signed. -/
def State.outgoing (s : Suite) (st : State) (plaintext : Bytes) : SenderKeyMessage :=
  let key := messageKeyOf s.toPrims st.chainIteration (st.chainKey.entry s.toPrims).seed
  { messageVersion := st.messageVersion
    distributionID := st.distributionID
    keyID := st.keyID
    iteration := st.chainIteration
    ciphertext := aesCBCEncrypt s key.cipherKey key.iv plaintext
    signature := .zero }

/-- The state one message later. -/
def State.advanced (p : Prims) (st : State) : State :=
  { st with
    chainIteration := (st.chainKey.step p).iteration
    chainSeed := (st.chainKey.step p).seed }

variable {data : Option Bytes}

/-- What a successful `Encrypt` has loaded, signed and stored. -/
theorem encrypt_ok {rnd : Bytes} {plaintext ciphertext data' : Bytes}
    (h : encrypt s w name rnd data plaintext = .ok (ciphertext, data')) :
    ∃ record st older, ∃ sig : ByteArr 64, loadRecord data = .ok record ∧
      record.states = st :: older ∧ st.chainIteration.toNat + 1 < 2 ^ 32 ∧
      s.xeddsaSign rnd st.signingPrivateSeed ((st.outgoing s plaintext).signedBytes w) =
        .ok sig.toBytes ∧
      ciphertext = SenderKeyMessage.serialize w { st.outgoing s plaintext with signature := sig } ∧
      data' = Record.serialize { record with states := st.advanced s.toPrims :: older } := by
  obtain ⟨record, hload, h⟩ := bind_eq_ok.mp h
  split at h
  · cases h
  · rename_i st older hstates
    split at h
    · cases h
    · rw [senderMessageKey_eq] at h
      simp only [Except.mapError, ok_bind] at h
      obtain ⟨sig, hsig, h⟩ := bind_eq_ok.mp h
      split at h
      · cases h
      · rename_i hlen
        obtain ⟨next, hnext, h⟩ := bind_eq_ok.mp h
        cases h
        have hnext := mapError_eq_ok.mp hnext
        -- `next` fails at the last iteration only.
        have hmax : st.chainIteration.toNat + 1 < 2 ^ 32 := by
          have hlt := st.chainIteration.toNat_lt
          by_contra hge
          obtain ⟨e, he⟩ := SenderChainKey.next_error (p := s.toPrims) (k := st.chainKey)
            (show st.chainIteration.toNat = 2 ^ 32 - 1 by omega)
          rw [he] at hnext
          cases hnext
        rw [SenderChainKey.next_eq (k := st.chainKey) hmax] at hnext
        cases hnext
        have hsig64 : (ByteArr.ofBytes 64 sig).toBytes = sig :=
          ByteArr.toBytes_ofBytes (not_not.mp hlen)
        refine ⟨record, st, older, .ofBytes 64 sig, hload, hstates, hmax, ?_, rfl, rfl⟩
        rw [hsig64]
        exact mapError_eq_ok.mp hsig

/-! ## The log -/

/-- `st` is `st0` after `n` messages. -/
structure State.Later (p : Prims) (st0 : State) (n : Nat) (st : State) : Prop where
  chain : st.chainKey = st0.chainKey.after p n
  range : st0.chainIteration.toNat + n < 2 ^ 32
  version : st.messageVersion = st0.messageVersion
  signingPublic : st.signingPublic = st0.signingPublic

theorem State.Later.refl (p : Prims) (st : State) : State.Later p st 0 st :=
  ⟨rfl, st.chainIteration.toNat_lt, rfl, rfl⟩

theorem State.Later.chainIteration {st0 : State} {n : Nat} (h : State.Later p st0 n st) :
    st.chainIteration.toNat = st0.chainIteration.toNat + n :=
  (congrArg (fun k => k.iteration.toNat) h.chain).trans (SenderChainKey.iteration_after h.range)

theorem State.Later.advanced {st0 : State} {n : Nat} (h : State.Later p st0 n st)
    (hmax : st.chainIteration.toNat + 1 < 2 ^ 32) : State.Later p st0 (n + 1) (st.advanced p) where
  chain := by
    rw [SenderChainKey.after_succ, ← h.chain]
    rfl
  range := by
    rw [h.chainIteration] at hmax
    omega
  version := h.version
  signingPublic := h.signingPublic

/-- The entry was made on the chain of `st`, if the ids are the same; a message lies before the
iteration `st` is at. -/
def Sent.Leads (p : Prims) (x : Sent) (st : State) : Prop :=
  x.state.ids = st.ids → ∃ n, State.Later p x.state n st ∧ (x.isMessage = true → 0 < n)

/-- The bytes of the entry are those of its state. -/
def Sent.Made (s : Suite) (w : Protowire) : Sent → Prop
  | .distribution st bytes => st.Sending s ∧ bytes = st.distributionMessage.serialize w
  | .message st plaintext ciphertext =>
      st.Sending s ∧ st.chainIteration.toNat + 1 < 2 ^ 32 ∧ ∃ rnd, ∃ sig : ByteArr 64,
        s.xeddsaSign rnd st.signingPrivateSeed ((st.outgoing s plaintext).signedBytes w) =
          .ok sig.toBytes ∧
        ciphertext = SenderKeyMessage.serialize w { st.outgoing s plaintext with signature := sig }

/-- The record of a sender that has a state, in order with its log. -/
def Current (s : Suite) (g : Sender) (record : Record) (st : State) (older : List State) : Prop :=
  loadRecord g.data = .ok record ∧ record.states = st :: older ∧ st.Sending s ∧
    ∀ x ∈ g.log, x.Leads s.toPrims st

structure SenderOk (s : Suite) (w : Protowire) (g : Sender) : Prop where
  made : ∀ x ∈ g.log, x.Made s w
  ordered : g.log.Pairwise fun x y => x.Leads s.toPrims y.state
  current : g = .start ∨ ∃ record st older, Current s g record st older

theorem senderOk_start : SenderOk s w .start where
  made := nofun
  ordered := .nil
  current := .inl rfl

variable {record : Record} {st' : State} {older : List State}

theorem currentState_eq (hload : loadRecord data = .ok record)
    (hstates : record.states = st :: older) (h : currentState data = some st') : st' = st := by
  rw [currentState, hload] at h
  simp only [hstates, List.head?_cons, Option.some.injEq] at h
  exact h.symm

variable {g : Sender}

/-- Giving out what was made from the current state. -/
theorem SenderOk.give {x : Sent} (h : SenderOk s w g) (hmade : x.Made s w) (hx : x.state = st)
    (hleads : ∀ y ∈ g.log, y.Leads s.toPrims st) (hload : loadRecord data = .ok record)
    (hstates : record.states = st' :: older) (hst' : st'.Sending s)
    (hleads' : ∀ y ∈ g.log ++ [x], y.Leads s.toPrims st') :
    SenderOk s w { data, log := g.log ++ [x] } where
  made y hy := by
    rcases List.mem_append.mp hy with hy | hy
    · exact h.made y hy
    · rw [List.mem_singleton.mp hy]
      exact hmade
  ordered := by
    refine List.pairwise_append.mpr ⟨h.ordered, List.pairwise_singleton _ _, ?_⟩
    intro y hy z hz
    rw [List.mem_singleton.mp hz, hx]
    exact hleads y hy
  current := .inr ⟨record, st', older, hload, hstates, hst', hleads'⟩

/-- The head of a record a state was put into. -/
theorem setState_head {r : Record} (hpos : 0 < r.maxStates) (next : State) :
    ∃ older, (r.setState next).states = next :: older := by
  obtain ⟨n, hn⟩ := Nat.exists_eq_succ_of_ne_zero hpos.ne'
  exact ⟨_, by rw [Record.setState, hn, List.take_succ_cons]⟩

/-- A new state in front: nothing in the log has its ids. -/
theorem SenderOk.install (h : SenderOk s w g) (hfits : record.Fits) (hst : st.Sending s)
    (hstfits : st.Fits) (hfresh : ∀ x ∈ g.log, x.state.ids ≠ st.ids)
    (hcur : currentState (some (record.setState st).serialize) = some st') :
    SenderOk s w { data := some (record.setState st).serialize
                   log := g.log ++ [.distribution st' (st.distributionMessage.serialize w)] } := by
  have hload := loadRecord_serialize (fits_setState hfits hstfits)
  obtain ⟨older, hstates⟩ := setState_head hfits.maxStates_pos st
  cases currentState_eq hload hstates hcur
  refine h.give ⟨hst, rfl⟩ rfl (fun y hy hids => absurd hids (hfresh y hy)) hload hstates hst ?_
  intro y hy
  rcases List.mem_append.mp hy with hy | hy
  · exact fun hids => absurd hids (hfresh y hy)
  · rw [List.mem_singleton.mp hy]
    exact fun _ => ⟨0, .refl _ _, nofun⟩

/-- A second `Create` gives out the current state once more. -/
theorem SenderOk.again (h : SenderOk s w g) (hcur : Current s g record st older) :
    SenderOk s w { data := g.data
                   log := g.log ++ [.distribution st (st.distributionMessage.serialize w)] } := by
  obtain ⟨hload, hstates, hst, hleads⟩ := hcur
  refine h.give ⟨hst, rfl⟩ rfl hleads hload hstates hst fun y hy => ?_
  rcases List.mem_append.mp hy with hy | hy
  · exact hleads y hy
  · rw [List.mem_singleton.mp hy]
    exact fun _ => ⟨0, .refl _ _, nofun⟩

/-- A distribution message is logged with the state it announces. -/
theorem SenderOk.created {bytes : Bytes} (hvalid : KeysValid s) (h : SenderOk s w g)
    (hcreate : create s w rnd g.data = .ok (bytes, data)) (hcur : currentState data = some st) :
    SenderOk s w { data, log := g.log ++ [.distribution st bytes] } := by
  rcases h.current with rfl | ⟨record, st0, older, hcurrent⟩
  · -- The first state; its record has no other.
    have hempty : create s w rnd none = _ := hcreate
    simp only [create, loadRecord, ok_bind] at hempty
    rw [if_pos (show (newRecord 0).isEmpty = true from rfl)] at hempty
    obtain ⟨st1, hnew, hempty⟩ := bind_eq_ok.mp hempty
    obtain ⟨hst, hfits, -⟩ := newSendingState_ok hvalid (mapError_eq_ok.mp hnew)
    have hcurrent : ((newRecord 0).setState st1).current = .ok st1 := rfl
    simp only [pure_bind, hcurrent, Except.mapError, ok_bind, hst.hasPrivate] at hempty
    cases hempty
    have hnone : loadRecord none = .ok (newRecord 0) := rfl
    refine h.install (loadRecord_fits hnone) hst hfits (fun x hx => ?_) hcur
    cases hx
  · obtain ⟨hload, hstates, hst, hleads⟩ := hcurrent
    have hne : record.isEmpty = false := by rw [Record.isEmpty, hstates]; rfl
    have hhead : record.current = .ok st0 := by rw [Record.current, hstates]
    rw [create, hload, ok_bind, hne, if_neg Bool.false_ne_true] at hcreate
    simp only [pure_bind, hhead, Except.mapError, ok_bind, hst.hasPrivate] at hcreate
    cases hcreate
    cases currentState_eq hload hstates hcur
    exact h.again ⟨hload, hstates, hst, hleads⟩

theorem SenderOk.rotated {bytes data : Bytes} (hvalid : KeysValid s) (h : SenderOk s w g)
    (hrotate : rotate s w rnd g.data = .ok (bytes, data))
    (hcur : currentState (some data) = some st)
    (hfresh : ∀ id, rnd.distributionID = .ok id → ∀ x ∈ g.log, x.state.distributionID ≠ id) :
    SenderOk s w { data := some data, log := g.log ++ [.distribution st bytes] } := by
  obtain ⟨record, hload, hrotate⟩ := bind_eq_ok.mp hrotate
  obtain ⟨st1, hnew, hrotate⟩ := bind_eq_ok.mp hrotate
  cases hrotate
  obtain ⟨hst, hfits, hid⟩ := newSendingState_ok hvalid (mapError_eq_ok.mp hnew)
  refine h.install (loadRecord_fits hload) hst hfits (fun x hx hids => ?_) hcur
  exact hfresh _ hid x hx (congrArg Prod.fst hids)

/-- A message is logged with the state that it was made from. -/
theorem SenderOk.encrypted {rnd plaintext ciphertext data : Bytes} (h : SenderOk s w g)
    (hcur : currentState g.data = some st)
    (henc : encrypt s w name rnd g.data plaintext = .ok (ciphertext, data)) :
    SenderOk s w { data := some data, log := g.log ++ [.message st plaintext ciphertext] } := by
  obtain ⟨record, st1, older, sig, hload, hstates, hmax, hsig, rfl, rfl⟩ := encrypt_ok henc
  cases currentState_eq hload hstates hcur
  rcases h.current with rfl | ⟨record', st', older', hload', hstates', hst, hleads⟩
  · cases hload
    cases hstates
  · cases hload.symm.trans hload'
    cases hstates.symm.trans hstates'
    have hfits := loadRecord_fits hload
    have hfits' : ({ record with states := st.advanced s.toPrims :: older } : Record).Fits :=
      hfits.step (RecordStep.advance (s := s) hstates
        (SenderChainKey.next_eq (k := st.chainKey) hmax))
    refine h.give ⟨hst, hmax, rnd, sig, hsig, rfl⟩ rfl hleads (loadRecord_serialize hfits') rfl
      ⟨hst.hasPrivate, hst.version, hst.keyPair, hst.valid⟩ fun y hy => ?_
    rcases List.mem_append.mp hy with hy | hy
    · intro hids
      obtain ⟨n, hlater, -⟩ := hleads y hy hids
      exact ⟨n + 1, hlater.advanced hmax, fun _ => Nat.succ_pos n⟩
    · rw [List.mem_singleton.mp hy]
      exact fun _ => ⟨1, (State.Later.refl _ _).advanced hmax, fun _ => Nat.one_pos⟩

/-- **Senders.** In every run with distinct distribution ids the log is in order. -/
theorem SenderOk.run (hvalid : KeysValid s) {es : List SenderEvent}
    (hrun : Run (fun g e g' => Sends s w name g e g' ∧ FreshID g e) .start es g) :
    SenderOk s w g := by
  refine hrun.invariant (fun {g e g'} h hstep => ?_) senderOk_start
  obtain ⟨hsends, hfresh⟩ := hstep
  cases hsends with
  | created hcreate hcur => exact h.created hvalid hcreate hcur
  | rotated hrotate hcur => exact h.rotated hvalid hrotate hcur hfresh
  | encrypted hcur henc => exact h.encrypted hcur henc
  | notCreated => exact h
  | notRotated => exact h
  | notEncrypted => exact h

end SignalGo.SenderKeys
