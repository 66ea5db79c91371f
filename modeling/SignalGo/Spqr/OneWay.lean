import SignalGo.Spqr.Lockstep

/-!
# Messages in one direction

Until the first answer only the initiator sends. It has no chain yet, so that its messages carry
neither a number nor a salt; the responder makes a chain when it receives one of them and takes no
key from it. Every message is accepted, in every order and number, and both states stay small.

* `OneWay`: the two parties while only the initiator sends.
* `OneWay.send`, `OneWay.receive`: one step of each party.
* `OneWay.length_serialize`: how long the states can get.
-/

namespace SignalGo.Spqr

variable {p : Prims} {kem : Kem} {authKey : Bytes} {c : Config}

/-- The initiator has received nothing and the responder has sent nothing. -/
structure OneWay (p : Prims) (kem : Kem) (authKey : Bytes) (c : Config) : Prop where
  joint : ∃ g, Joint p kem g c
  noChain : (c.st .initiator).chain = none
  lenient : ∀ vn, (c.st .initiator).negotiation = some vn → vn.minVersion ≤ versionDisabled
  sent : ∀ m ∈ c.sent .initiator, m.2 = [] ∧
    ∃ msg : V1Message, m.1 = msg.serialize 0 ∧ msg.WellFormed ∧ msg.epoch = 1
  silent : ∃ v, (c.st .responder).v1 = some v ∧ v.spoke = false ∧ v.epoch = 1
  keys : ∀ x vn, (c.st x).negotiation = some vn → vn.authKey = authKey
  chains : ∀ x chain, (c.st x).chain = some chain → chain.byteSize = 150

/-! ## The start -/

variable {params : ChainParams} {s : State}

/-- What `NewState` returns. -/
theorem newState_ok {dir : Direction} (h : newState p authKey dir params = .ok s) :
    ∃ v1, initV1StateForDirection p dir authKey = .ok v1 ∧ s = {
      version := versionV1
      v1 := some v1
      chain := none
      negotiation := some {
        authKey
        direction := dir
        minVersion := versionDisabled
        chainParams := params } } := by
  unfold newState newStateWithMinVersion at h
  split_ifs at h
  obtain ⟨v1, hv1, hret⟩ := bind_eq_ok.mp h
  cases hret
  exact ⟨v1, hv1, rfl⟩

variable {v : V1States}

/-- The responder begins by waiting for the header. -/
theorem initV1StateForDirection_responder
    (h : initV1StateForDirection p directionB2A authKey = .ok v) :
    v.spoke = false ∧ v.epoch = 1 := by
  rw [initV1StateForDirection, if_pos rfl] at h
  obtain ⟨uc, huc, hrest⟩ := bind_eq_ok.mp h
  obtain ⟨dec, -, hret⟩ := bind_eq_ok.mp hrest
  cases hret
  unfold newUnchunkedNoHeaderReceived at huc
  split at huc
  · cases huc
  · cases huc
    exact ⟨rfl, rfl⟩

theorem oneWay_start {params' : ChainParams} {a b : State}
    (ha : newState p authKey directionA2B params = .ok a)
    (hb : newState p authKey directionB2A params' = .ok b) :
    OneWay p kem authKey (Config.start a b) := by
  have hjoint : Joint p kem (Shared.start p authKey) (Config.start a b) := joint_start ha hb
  obtain ⟨va, -, rfl⟩ := newState_ok ha
  obtain ⟨vb, hvb, rfl⟩ := newState_ok hb
  refine ⟨⟨_, hjoint⟩, rfl, fun vn hvn => ?_, fun m hm => ?_,
    ⟨vb, rfl, initV1StateForDirection_responder hvb⟩, fun x vn hvn => ?_, fun x chain hc => ?_⟩
  · cases hvn
    exact UInt8.le_refl _
  · cases hm
  · cases x <;> (cases hvn; rfl)
  · cases x <;> cases hc

/-! ## The initiator sends -/

/-- Without a chain the message goes out without a number and without a salt. -/
theorem PartyOk.send_unanswered {l : Ledger} {n : Nat} {v' : V1States} {rnd : Rand} {out : V1Send}
    (h : PartyOk p l n v s) (hchain : s.chain = none)
    (hmin : ∀ vn, s.negotiation = some vn → vn.minVersion ≤ versionDisabled)
    (hsend : v.send p kem rnd = (v', .ok out)) (he : SendEffect v out) :
    s.send p kem rnd = ({ s with v1 := some out.state }, .ok (out.msg.serialize 0, [])) := by
  rcases h.chain with ⟨chain, hc, -⟩ | ⟨-, vn, hvn, hno⟩
  · rw [hchain] at hc
    cases hc
  · have hkey := (he.unanswered hno.unanswered).1
    rw [h.send_ok hsend, State.sendV1]
    simp only [State.chainForSend, hchain, hvn, if_pos (hmin vn hvn), hkey]

/-- A party without a chain is in the first epoch. -/
theorem PartyOk.epoch_unanswered {l : Ledger} {n : Nat} (h : PartyOk p l n v s)
    (hchain : s.chain = none) : v.epoch = 1 := by
  rcases h.chain with ⟨chain, hc, -⟩ | ⟨-, vn, -, hno⟩
  · rw [hchain] at hc
    cases hc
  · rw [h.handshake.epoch, hno.first]
    rfl

/-- The salts stay empty as long as there is no answer. -/
theorem OneWay.send (h : OneWay p kem authKey c) (laws : KemLaws kem) {rnd : Rand}
    {message salt : Bytes} (hsend : (c.st .initiator).send p kem rnd = (s, .ok (message, salt))) :
    salt = [] ∧ OneWay p kem authKey (c.afterSend p kem .initiator rnd) := by
  obtain ⟨g, hg⟩ := h.joint
  obtain ⟨g', hg', -⟩ := hg.step laws (.send .initiator rnd)
  obtain ⟨n, v, hparty⟩ := hg.party .initiator
  have hst : (c.afterSend p kem .initiator rnd).st .initiator = s := by
    simp [Config.afterSend, hsend]
  have hother : (c.afterSend p kem .initiator rnd).st .responder = c.st .responder := by
    simp [Config.afterSend]
  rcases send_effect p kem rnd hparty.handshake.valid with ⟨e, k, -, herr⟩ | ⟨v', out, hok, he⟩
  · rw [hparty.send_error herr] at hsend
    cases hsend
  · have heq := hparty.send_unanswered h.noChain h.lenient hok he
    rw [hsend] at heq
    obtain ⟨rfl, hres⟩ := Prod.mk.inj heq
    cases hres
    refine ⟨rfl, ⟨g', hg'⟩, ?_, ?_, ?_, ?_, ?_, ?_⟩
    · rw [hst]
      exact h.noChain
    · rw [hst]
      exact h.lenient
    · intro m hm
      rcases mem_sent_afterSend hsend hm with hold | ⟨-, hmsg, hsalt⟩
      · exact h.sent m hold
      · exact ⟨hsalt, out.msg, hmsg, he.wellFormed,
          he.msgEpoch.trans (hparty.epoch_unanswered h.noChain)⟩
    · rw [hother]
      exact h.silent
    · intro x vn hvn
      cases x with
      | initiator =>
        rw [hst] at hvn
        exact h.keys .initiator vn hvn
      | responder =>
        rw [hother] at hvn
        exact h.keys .responder vn hvn
    · intro x chain hc
      cases x with
      | initiator =>
        rw [hst] at hc
        exact h.chains .initiator chain hc
      | responder =>
        rw [hother] at hc
        exact h.chains .responder chain hc

/-! ## The responder receives -/

/-- A party that has not spoken in its epoch learns no secret from a message. -/
theorem recv_unspoken {msg : V1Message} {out : V1Recv} (hvalid : v.Valid)
    (hspoke : v.spoke = false) (hrecv : v.recv p kem msg = .ok out) :
    out.key = none ∧ out.state.spoke = false ∧ out.state.epoch = v.epoch := by
  cases (recv_effect hvalid hrecv).2 with
  | stay hkey hepoch _ hspoke' _ => exact ⟨hkey, hspoke'.trans hspoke, hepoch⟩
  | finish _ _ hspoke' _ _ _ =>
    rw [hspoke] at hspoke'
    cases hspoke'
  | next _ _ hspoke' _ _ _ _ _ =>
    rw [hspoke] at hspoke'
    cases hspoke'

/-- The chain of a new state has one link without keys. -/
theorem byteSize_newChain {dir : Direction} {chain : Chain}
    (h : newChain p authKey dir params = .ok chain) : chain.byteSize = 150 := by
  obtain ⟨okm, hokm, hret⟩ := bind_eq_ok.mp h
  cases hret
  have hlen : okm.length = 96 := by
    rw [hkdfTo_ok p _ _ _ (by decide)] at hokm
    cases hokm
    exact ByteArr.length_toBytes _
  obtain ⟨h1, h2⟩ := length_chainSeeds hlen dir
  simp [Chain.byteSize, linksByteSize, newLink, newChainEpochDirection,
    ChainEpochDirection.byteSize, KeyHistory.empty, h1, h2]

theorem OneWay.byteSize_chainForRecv (h : OneWay p kem authKey c) {chain : Chain} (x : Party)
    (hchain : (c.st x).chainForRecv p = .ok chain) : chain.byteSize = 150 := by
  unfold State.chainForRecv at hchain
  cases hc : (c.st x).chain with
  | some chain' =>
    rw [hc] at hchain
    cases hchain
    exact h.chains x chain hc
  | none =>
    rw [hc] at hchain
    cases hvn : (c.st x).negotiation with
    | none =>
      rw [hvn] at hchain
      cases hchain
    | some vn =>
      rw [hvn] at hchain
      exact byteSize_newChain hchain

/-- Without an answer every message sent is accepted, with the empty salt. -/
theorem OneWay.receive (h : OneWay p kem authKey c) (laws : KemLaws kem) {message salt : Bytes}
    (hmem : (message, salt) ∈ c.sent .initiator) :
    ∃ s, (c.st .responder).receiveOnClone p kem message = .ok (s, []) ∧
      OneWay p kem authKey (c.afterReceive p kem .responder message s) := by
  obtain ⟨g, hg⟩ := h.joint
  obtain ⟨v, hv, hspoke, hepoch⟩ := h.silent
  obtain ⟨n, v', hparty⟩ := hg.party .responder
  cases hv.symm.trans hparty.state
  have hne : v.epoch ≠ 0 := by rw [hepoch]; decide
  obtain ⟨-, msg, hmsg, hwf, hone⟩ := h.sent _ hmem
  obtain ⟨msg', idx, out, hser, hwf', -, hrecv⟩ := hg.accepts (x := .responder) laws hv hne hmem
  -- the message that is parsed is the one that was sent
  have hparse := deserializeV1Message_serialize hwf 0
  rw [← show message = msg.serialize 0 from hmsg, hser,
    deserializeV1Message_serialize hwf'] at hparse
  cases hparse
  obtain ⟨hkey, hspoke', hepoch'⟩ := recv_unspoken hparty.handshake.valid hspoke hrecv
  obtain ⟨chain0, chain, n', hfor, hadd, -, -, heq⟩ := hparty.receiveOnClone_eq (hg.ledger_sized _)
    hwf (by rw [hone]; decide) hrecv 0
  rw [hkey] at hadd
  cases hadd
  rw [hone, Spqr.recvSalt, if_neg (by decide), ← hser] at heq
  refine ⟨_, heq, ?_⟩
  obtain ⟨g', hg', -⟩ := hg.step laws (.receive (x := .responder) hmem heq)
  have hst (s : State) : (c.afterReceive p kem .responder message s).st .responder = s := by
    simp [Config.afterReceive]
  have hother (s : State) :
      (c.afterReceive p kem .responder message s).st .initiator = c.st .initiator := by
    simp [Config.afterReceive]
  refine ⟨⟨g', hg'⟩, ?_, ?_, h.sent, ⟨out.state, ?_, hspoke', hepoch'.trans hepoch⟩, ?_, ?_⟩
  · rw [hother]
    exact h.noChain
  · rw [hother]
    exact h.lenient
  · rw [hst]
  · intro x vn hvn
    cases x with
    | initiator =>
      rw [hother] at hvn
      exact h.keys .initiator vn hvn
    | responder =>
      rw [hst] at hvn
      cases hvn
  · intro x chain' hc
    cases x with
    | initiator =>
      rw [hother] at hc
      exact h.chains .initiator chain' hc
    | responder =>
      rw [hst] at hc
      cases hc
      exact h.byteSize_chainForRecv .responder hfor

/-! ## Both states -/

theorem OneWay.clone (h : OneWay p kem authKey c) (x : Party) : (c.st x).clone = some (c.st x) := by
  obtain ⟨g, hg⟩ := h.joint
  obtain ⟨n, v, hparty⟩ := hg.party x
  exact (hparty.restorable (hg.ledger_sized x)).clone

theorem OneWay.enabled (h : OneWay p kem authKey c) (x : Party) :
    (c.st x).version ≠ versionDisabled := by
  obtain ⟨g, hg⟩ := h.joint
  obtain ⟨n, v, hparty⟩ := hg.party x
  rw [hparty.version]
  decide

/-- **Both states are short**: the handshake takes most of their bytes. -/
theorem OneWay.length_serialize (h : OneWay p kem authKey c) (hkey : authKey.length = 32)
    (x : Party) : (c.st x).serialize.length < 2 ^ 25 := by
  obtain ⟨g, hg⟩ := h.joint
  obtain ⟨n, v, hparty⟩ := hg.party x
  have hv1 := length_serializeV1States hparty.handshake.valid
  have hneg : (((c.st x).negotiation.map appendNegotiation).getD []).length ≤ 46 := by
    cases hvn : (c.st x).negotiation with
    | none => exact Nat.zero_le _
    | some vn => simp [appendNegotiation, appendBytes, h.keys x vn hvn, hkey]
  have hchain : (((c.st x).chain.map fun c => appendBytes (serializeChain c)).getD []).length
      ≤ 154 := by
    cases hc : (c.st x).chain with
    | none => exact Nat.zero_le _
    | some chain => simp [appendBytes, length_serializeChain, h.chains x chain hc]
  rw [State.serialize, if_neg (h.enabled x), hparty.state]
  simp only [List.length_append, List.length_cons, List.length_nil, appendBytes, length_putUint32]
    at hneg hchain ⊢
  omega

end SignalGo.Spqr
