import SignalGo.Spqr.Exchange

/-!
# Agreement and lockstep of two parties

What the invariant of an exchange gives for its runs.

* `spqr_agreement`: the two parties make the same epoch secrets, and a receive returns the
  salt of the send, as long as no counter of a link has run full.
* `Joint.lockstep`: the handshakes stay together, no message of the peer is refused, and no
  send fails, as long as no epoch number has wrapped.
-/

namespace SignalGo.Spqr

variable {p : Prims} {kem : Kem} {g : Shared} {c c' : Config} {x : Party} {message salt : Bytes}

/-! ## The salts agree -/

/-- The link the next message is sent on has not used up its numbers. -/
def State.SendReady (s : State) : Prop :=
  ∀ v1 chain idx link, s.v1 = some v1 → s.chain = some chain →
    chain.epochIndex (v1.epoch - 1) = .ok idx → Chain.linkAt chain.links idx = some link →
    link.send.ctr ≠ 0xffffffff

/-- A step whose send, if it is one, is ready. -/
def ReadyExchange (p : Prims) (kem : Kem) (c : Config) (e : ExchangeEvent) (c' : Config) : Prop :=
  Exchange p kem c e c' ∧ ∀ x rnd, e = .send x rnd → (c.st x).SendReady

/-- No party has taken more keys in an epoch than there are numbers. -/
def Shared.Bounded (g : Shared) : Prop := ∀ x e, g.taken x e < 2 ^ 32

variable {chain : Chain}

section SendLink

variable {l : Ledger} {n : Nat} {v : V1States} {s : State}

/-- The link of the next message counts the keys taken in its epoch. -/
theorem PartyOk.sendLink (h : PartyOk p l n v s) (hn : n < 2 ^ 64) (hc : s.chain = some chain) :
    ∃ idx link, chain.epochIndex (v.epoch - 1) = .ok idx ∧
      Chain.linkAt chain.links idx = some link ∧
      link.send.ctr = UInt32.ofNat (l.sent (n - 1)) := by
  rcases h.chain with ⟨chain', hc', base, snd, hat, hle, hnear, -⟩ | ⟨hnone, -⟩
  · cases hc.symm.trans hc'
    have hpos := h.handshake.pos
    have hepoch : (v.epoch - 1).toNat = n - 1 :=
      toNat_epoch_sub_one (h.handshake.toNat_epoch hn) hpos
    have hbase := hat.links.base_le
    have hlen := hat.links.length
    have hcur : n - 1 ≤ v.chainEpoch n := by
      unfold V1States.chainEpoch
      split <;> omega
    have hidx : chain.epochIndex (v.epoch - 1) = .ok ((n - 1 - base : Nat) : Int) := by
      rw [← hepoch]
      exact hat.links.epochIndex (by omega) (by omega)
    have hlt : n - 1 - base < chain.links.length := by omega
    have hctr := (hat.links.links _ _ (List.getElem?_eq_getElem hlt)).sendCtr
    rw [show base + (n - 1 - base) = n - 1 by omega] at hctr
    exact ⟨_, chain.links[n - 1 - base], hidx, by simp [Chain.linkAt], hctr⟩
  · rw [hnone] at hc
    cases hc

theorem PartyOk.taken_lt (h : PartyOk p l n v s) (hn : n < 2 ^ 64) (hready : s.SendReady)
    (hlt : l.sent (n - 1) < 2 ^ 32) : l.sent (n - 1) + 1 < 2 ^ 32 := by
  rcases h.chain with ⟨chain, hc, -⟩ | ⟨-, vn, -, hno⟩
  · obtain ⟨idx, link, hidx, hlink, hctr⟩ := h.sendLink hn hc
    have hne := hready v chain idx link h.state hc hidx hlink
    rw [hctr] at hne
    have : l.sent (n - 1) ≠ 2 ^ 32 - 1 := by
      intro heq
      rw [heq] at hne
      exact hne rfl
    omega
  · rw [hno.fresh]
    decide

/-- A party that has taken fewer keys than there are numbers can send. -/
theorem PartyOk.sendReady (h : PartyOk p l n v s) (hn : n < 2 ^ 64)
    (hlt : l.sent (n - 1) + 1 < 2 ^ 32) : s.SendReady := by
  intro v' chain idx link hv hc hidx hlink
  cases h.state.symm.trans hv
  obtain ⟨idx', link', hidx', hlink', hctr⟩ := h.sendLink hn hc
  cases hidx.symm.trans hidx'
  cases hlink.symm.trans hlink'
  intro hfull
  have hmod := congrArg UInt32.toNat (hctr.symm.trans hfull)
  rw [UInt32.toNat_ofNat', Nat.mod_eq_of_lt (by omega)] at hmod
  simp at hmod
  omega

end SendLink

variable {n : Nat}

theorem Shared.Bounded.take (h : g.Bounded) (hlt : g.taken x n + 1 < 2 ^ 32) (y : Party) (e : Nat) :
    g.take x n y e < 2 ^ 32 := by
  by_cases hy : y = x
  · subst hy
    rw [Shared.take, Function.update_self]
    show Function.update (g.taken y) n _ e < _
    by_cases he : e = n
    · subst he
      rwa [Function.update_self]
    · rw [Function.update_of_ne he]
      exact h y e
  · rw [Shared.take, Function.update_of_ne hy]
    exact h y e

/-- **One step** keeps the counters of the keys within their width. -/
theorem ready_step (laws : KemLaws kem) {e : ExchangeEvent}
    (h : ∃ g, Joint p kem g c ∧ g.Bounded) (hstep : ReadyExchange p kem c e c') :
    ∃ g, Joint p kem g c' ∧ g.Bounded := by
  obtain ⟨g, hg, hb⟩ := h
  obtain ⟨g', hg', htaken⟩ := hg.step laws hstep.1
  refine ⟨g', hg', ?_⟩
  intro y i
  rcases htaken with htaken | ⟨x, rnd, n, v, rfl, hparty, hn, htaken⟩
  · rw [htaken]
    exact hb y i
  · rw [htaken]
    exact hb.take (hparty.taken_lt hn (hstep.2 x rnd rfl) (hb x _)) y i

/-- The receiving seeds of a party are the sending seeds of the other. -/
theorem Shared.seeds_other (g : Shared) (x : Party) (e : Nat) :
    ((g.ledger x.other).seeds e).1 = ((g.ledger x).seeds e).2 := by
  cases x <;> rfl

variable {s : State}

/-- What is received is the key of the ledger: the receive of the party of the key derives what the
other party has derived. -/
theorem Joint.recvSalt (h : Joint p kem g c) (laws : KemLaws kem) {salt' : Bytes}
    (hmem : (message, salt) ∈ c.sent x.other)
    (hrecv : (c.st x).receiveOnClone p kem message = .ok (s, salt')) :
    ∃ msg idx pos, deserializeV1Message message = .ok (msg, idx, pos) ∧
      RecvSalt p (g.ledger x) msg.epoch idx salt' := by
  rcases g.round.keyParty.eq_or_other x with rfl | rfl
  · obtain ⟨v, msg, idx, out, n', hout, -, hcases⟩ := h.receives_key laws hmem hrecv
    obtain ⟨pos, hparse⟩ := hout.parsed
    refine ⟨msg, idx, pos, hparse, ?_⟩
    have hsalt := hout.salt
    rcases hcases with ⟨hkey, -⟩ | ⟨enc, henc, hdone, -, hkey, -⟩
    · rwa [hkey] at hsalt
    · have hcur : g.secret g.round.e = some (g.round.secret p enc) := by rw [h.current, henc]; rfl
      have hepoch : g.round.keyEpoch = g.round.e := by rw [Round.keyEpoch, hdone]; rfl
      rwa [hkey, hepoch, Ledger.derive_eq_self (h.derived _ _ hcur)] at hsalt
  · rw [Party.other_other] at hmem
    obtain ⟨v, msg, idx, w, n', hout, -, -⟩ := h.receives_ct laws hmem hrecv
    obtain ⟨pos, hparse⟩ := hout.parsed
    exact ⟨msg, idx, pos, hparse, hout.salt⟩

/-- **The salts agree**: what is received with a message is what was sent with it. -/
theorem Joint.salt_eq (h : Joint p kem g c) (hb : g.Bounded) (laws : KemLaws kem) {salt' : Bytes}
    (hmem : (message, salt) ∈ c.sent x.other)
    (hrecv : (c.st x).receiveOnClone p kem message = .ok (s, salt')) : salt' = salt := by
  obtain ⟨msg, idx, pos, hparse, hrsalt⟩ := h.recvSalt laws hmem hrecv
  obtain ⟨msg', idx', rfl, hwf, hpos, -, hssalt⟩ := h.msgs _ _ _ hmem
  rw [deserializeV1Message_serialize hwf] at hparse
  cases hparse
  cases hssalt with
  | silent hone =>
    cases hrsalt with
    | silent _ _ => rfl
    | keyed hnot => exact absurd hone (hnot.resolve_right (not_not.mpr rfl))
  | keyed k hk hle =>
    have hlt : k < 2 ^ 32 := lt_of_le_of_lt hle (hb x.other _)
    have htoNat : (UInt32.ofNat k).toNat = k := by
      rw [UInt32.toNat_ofNat']
      exact Nat.mod_eq_of_lt hlt
    cases hrsalt with
    | silent _ hzero =>
      rw [hzero] at htoNat
      have : k = 0 := htoNat.symm
      omega
    | keyed _ => rw [htoNat, g.seeds_other]

/-- **Agreement.** In every run whose sends find a number left on their link, the two parties make
the same secret for an epoch, and a receive returns the salt the message was sent with. -/
theorem spqr_agreement (p : Prims) (kem : Kem) (laws : KemLaws kem) {authKey : Bytes}
    {params params' : ChainParams} {a b : State}
    (ha : newState p authKey directionA2B params = .ok a)
    (hb : newState p authKey directionB2A params' = .ok b) {es : List ExchangeEvent} {c : Config}
    (hrun : Run (ReadyExchange p kem) (Config.start a b) es c) :
    (∀ k ∈ c.secrets .initiator, ∀ k' ∈ c.secrets .responder, k.epoch = k'.epoch →
      k.secret = k'.secret) ∧
    ∀ x message salt s salt', (message, salt) ∈ c.sent x.other →
      (c.st x).receiveOnClone p kem message = .ok (s, salt') → salt' = salt := by
  obtain ⟨g, hg, hbound⟩ := hrun.invariant (I := fun c => ∃ g, Joint p kem g c ∧ g.Bounded)
    (ready_step laws) ⟨_, joint_start ha hb, fun _ _ => Nat.two_pow_pos 32⟩
  refine ⟨fun k hk k' hk' heq => ?_, fun x message salt s salt' hmem hrecv => ?_⟩
  · have hsecret := hg.secrets _ k hk
    rw [heq, hg.secrets _ k' hk'] at hsecret
    exact (Option.some.inj hsecret).symm
  · exact hg.salt_eq hbound laws hmem hrecv

/-! ## What happens when a counter runs full -/

variable {v : V1States}

/-- A receive of a first epoch's message without a number never needs a key. -/
theorem Joint.receive_silent (h : Joint p kem g c) (laws : KemLaws kem)
    (hv : (c.st x).v1 = some v) (hepoch : v.epoch ≠ 0) {msg : V1Message} (hwf : msg.WellFormed)
    (hone : msg.epoch = 1) (hmem : (msg.serialize 0, salt) ∈ c.sent x.other) :
    ∃ s chain, (c.st x).receiveOnClone p kem (msg.serialize 0) = .ok (s, []) ∧
      s.chain = some chain := by
  obtain ⟨msg', idx, out, hser, hwf', -, hrecv⟩ := h.accepts laws hv hepoch hmem
  have hparse := deserializeV1Message_serialize hwf 0
  rw [hser, deserializeV1Message_serialize hwf'] at hparse
  cases hparse
  obtain ⟨n, v', hparty⟩ := h.party x
  cases hv.symm.trans hparty.state
  obtain ⟨-, chain, n', -, -, -, -, heq⟩ := hparty.receiveOnClone_eq (h.ledger_sized x) hwf
    (by rw [hone]; decide) hrecv 0
  rw [hone, Spqr.recvSalt, if_neg (by decide)] at heq
  exact ⟨_, chain, heq, rfl⟩

variable {l : Ledger}

/-- Sends of a party that has a chain, one after the other. -/
theorem Joint.sends (h : Joint p kem g c) (laws : KemLaws kem) (rnd : Rand)
    (hrnd : ∀ n, ∃ bs, rnd n = .ok bs) (hparty : PartyOk p l 1 v (c.st x)) (hl : l.Sized)
    (hchain : (c.st x).chain ≠ none) (k : Nat) :
    ∃ es c', Run (Exchange p kem) c es c' ∧ (∃ g', Joint p kem g' c') ∧
      c'.st x.other = c.st x.other ∧ (c'.st x).chain ≠ none ∧
      ∃ l' v', PartyOk p l' 1 v' (c'.st x) ∧ l'.Sized ∧ l'.sent 0 = l.sent 0 + k := by
  induction k with
  | zero => exact ⟨[], c, .nil, ⟨g, h⟩, rfl, hchain, l, v, hparty, hl, rfl⟩
  | succ k ih =>
    obtain ⟨es, c', hrun, ⟨g', hg'⟩, hother, hchain', l', v', hparty', hl', hsent⟩ := ih
    rcases hparty'.send hl' kem rnd with ⟨e, n, herr, -⟩ | ⟨hwrap, -⟩ |
      ⟨-, w, out, idx, salt, l1, s1, -, -, hsalt, hsend, hok, -⟩
    · obtain ⟨bs, hbs⟩ := hrnd n
      rw [hbs] at herr
      cases herr
    · cases hwrap
    · obtain ⟨g1, hg1, -⟩ := hg'.step laws (.send x rnd)
      have hst : (c'.afterSend p kem x rnd).st x = s1 := by simp [Config.afterSend, hsend]
      have hl1 : l1.Sized ∧ l1.sent 0 = l.sent 0 + k + 1 := by
        cases hsalt with
        | silent hnone => exact absurd hnone hchain'
        | keyed => exact ⟨(hl'.derive p 1 out.key).takeKey 0, by simp [Ledger.takeKey, hsent]⟩
      refine ⟨es ++ [.send x rnd], _, hrun.snoc (.send x rnd), ⟨g1, hg1⟩, ?_, ?_, l1, out.state,
        hst ▸ hok, hl1.1, hl1.2⟩
      · rw [← hother]
        exact Function.update_of_ne x.other_ne _ _
      · -- without a chain no key would have been taken
        rw [hst]
        intro hnone
        rcases hok.chain with ⟨chain, hc, -⟩ | ⟨-, vn, -, hno⟩
        · rw [hnone] at hc
          cases hc
        · have := hno.fresh 0
          omega

/-- The first state of the party that sends the first key. -/
def sampleOpening (authKey : Bytes) : State where
  version := versionV1
  v1 := some (.keysUnsampled { epoch := 1, auth := newAuthenticator toyPrims authKey 1 })
  chain := none
  negotiation := some {
    authKey
    direction := directionA2B
    minVersion := versionDisabled
    chainParams := { MaxJump := 0, MaxOOO := 0 } }

theorem sampleOpening_new {authKey : Bytes} (h : authKey.length ≠ 0) :
    newState toyPrims authKey directionA2B { MaxJump := 0, MaxOOO := 0 }
      = .ok (sampleOpening authKey) := by
  rw [newState, newStateWithMinVersion, if_neg h, if_neg (by decide), initV1StateForDirection,
    if_neg (by decide), initV1StateA, newUnchunkedKeysUnsampled, if_neg h]
  rfl

/-- The responder has sent its first message. -/
def sampleGreeted : Config :=
  (Config.start (sampleOpening [1]) (sampleWaiting [1])).afterSend toyPrims toyKem .responder
    fun _ => .ok .zero

theorem sampleGreeted_joint : ∃ g, Joint toyPrims toyKem g sampleGreeted := by
  have hstart : Joint toyPrims toyKem (Shared.start toyPrims [1])
      (Config.start (sampleOpening [1]) (sampleWaiting [1])) :=
    joint_start (sampleOpening_new (by decide)) (sampleWaiting_new (by decide))
  obtain ⟨g, hg, -⟩ := hstart.step toyKem_laws (.send .responder fun _ => .ok .zero)
  exact ⟨g, hg⟩

theorem sampleGreeted_sent :
    ((plainMessage 1 messageTypeNone).serialize 0, []) ∈ sampleGreeted.sent Party.initiator.other :=
  List.mem_singleton.mpr rfl

/-- The initiator receives it. -/
theorem sampleGreeted_receive : ∃ s chain,
      (sampleGreeted.st .initiator).receiveOnClone toyPrims toyKem
      ((plainMessage 1 messageTypeNone).serialize 0) = .ok (s, []) ∧ s.chain = some chain := by
  obtain ⟨g, hg⟩ := sampleGreeted_joint
  exact hg.receive_silent toyKem_laws (x := .initiator) rfl (by decide)
    (plainMessage_wellFormed rfl) rfl sampleGreeted_sent

/-- After the receive the initiator has a chain, and has sent nothing. -/
theorem sampleGreeted_party {salt : Bytes}
    (h : (sampleGreeted.st .initiator).receiveOnClone toyPrims toyKem
      ((plainMessage 1 messageTypeNone).serialize 0) = .ok (s, salt)) :
    ∃ l v, PartyOk toyPrims l 1 v s ∧ l.Sized ∧ l.sent 0 = 0 := by
  have hnew := sampleOpening_new (show ([1] : Bytes).length ≠ 0 by decide)
  obtain ⟨v, -, hparty⟩ := newState_partyOk (.inl rfl) hnew
  have hsized := Ledger.start_sized (p := toyPrims) [1] directionA2B
  cases hparty.state
  obtain ⟨out, n', hout, -⟩ := hparty.receive_sent hsized (plainMessage_wellFormed rfl) h
  have hstay : out = { key := none, state := _ } := (Except.ok.inj hout.recv).symm
  have hn' := hout.epoch_eq (m := 1) (by rw [hstay]; rfl) le_rfl (by decide)
  have hok := hout.party
  rw [hn', hstay] at hok
  exact ⟨_, _, hok, hsized, rfl⟩

/-- The initiator, in the state `s` after the receive, answers. -/
def sampleAnswered (s : State) : Config :=
  (sampleGreeted.afterReceive toyPrims toyKem .initiator
    ((plainMessage 1 messageTypeNone).serialize 0) s).afterSend toyPrims toyKem .initiator
      fun _ => .ok .zero

/-- The answer has the number one and a salt, and the responder finds a key for it. -/
theorem sampleAnswered_receive (hrecv : (sampleGreeted.st .initiator).receiveOnClone toyPrims toyKem
      ((plainMessage 1 messageTypeNone).serialize 0) = .ok (s, []))
    (hchain : s.chain = some chain) :
    ∃ message salt s' salt', (message, salt) ∈ (sampleAnswered s).sent Party.responder.other ∧
      salt ≠ [] ∧
      ((sampleAnswered s).st .responder).receiveOnClone toyPrims toyKem message
        = .ok (s', salt') := by
  obtain ⟨l, v, hparty, hl, hzero⟩ := sampleGreeted_party hrecv
  obtain ⟨g0, hg0⟩ := sampleGreeted_joint
  obtain ⟨g1, hg1, -⟩ := hg0.step toyKem_laws (.receive sampleGreeted_sent hrecv)
  obtain ⟨g2, hg2, -⟩ := hg1.step toyKem_laws (.send .initiator fun _ => .ok .zero)
  rcases hparty.send hl toyKem (fun _ => .ok .zero) with ⟨e, n, herr, -⟩ | ⟨hwrap, -⟩ |
    ⟨-, w, out, idx, salt, l2, s2, -, he, hsalt, hsend, -, -⟩
  · cases herr
  · cases hwrap
  · have hmem : (out.msg.serialize idx, salt) ∈ (sampleAnswered s).sent Party.responder.other := by
      simp [sampleAnswered, Party.other, Config.afterSend, Config.afterReceive, hsend,
        Except.toOption]
    have hepoch : out.msg.epoch = 1 := he.msgEpoch.trans hparty.handshake.epoch
    cases hsalt with
    | silent hnone =>
      rw [hchain] at hnone
      cases hnone
    | keyed =>
      obtain ⟨msg, idx, r, hser, hwf, hne, hr⟩ := hg2.accepts toyKem_laws (x := .responder) rfl
        (by decide) hmem
      have hparse := deserializeV1Message_serialize he.wellFormed
        (UInt32.ofNat (l.sent (1 - 1) + 1))
      rw [hser, deserializeV1Message_serialize hwf, Nat.sub_self, hzero] at hparse
      cases hparse
      obtain ⟨n, u, hparty'⟩ := hg2.party .responder
      cases hparty'.state
      obtain ⟨chain0, chain1, n', hfor, hadd, -, -, heq⟩ := hparty'.receiveOnClone_eq
        (hg2.ledger_sized .responder) hwf hne hr (UInt32.ofNat 1)
      -- the responder makes its chain now, from what it was created with
      obtain ⟨chain', key, chain'', hfor', hkey⟩ : ∃ chain' key chain'',
          (sampleWaiting [1]).chainForRecv toyPrims = .ok chain' ∧
          recvSalt toyPrims chain' 0 1 = .ok (key, chain'') := ⟨_, _, _, rfl, rfl⟩
      cases hfor.symm.trans hfor'
      have hnone : r.key = none := by
        cases (recv_effect hparty'.handshake.valid hr).2 with
        | stay hkey => exact hkey
        | finish _ _ hspoke => cases hspoke
        | next hkey => exact hkey
      rw [hnone] at hadd
      cases hadd
      rw [hepoch, show UInt32.ofNat 1 = 1 from rfl, sub_self, hkey] at heq
      rw [Nat.sub_self, hzero] at hmem
      refine ⟨_, _, _, _, hmem, ?_, heq⟩
      intro hnil
      have := congrArg List.length hnil
      simp at this

/-- The initiator answers the first message of the responder, and the responder finds the salt of
the answer, which is not empty. -/
theorem spqr_agreement_sample : ∃ s message salt s',
      (message, salt) ∈ (sampleAnswered s).sent .initiator ∧
      ((sampleAnswered s).st .responder).receiveOnClone toyPrims toyKem message = .ok (s', salt) ∧
      salt ≠ [] := by
  obtain ⟨s, chain, hrecv, hchain⟩ := sampleGreeted_receive
  obtain ⟨l, v, hparty, -, hzero⟩ := sampleGreeted_party hrecv
  obtain ⟨es, hrun⟩ : ∃ es, Run (ReadyExchange toyPrims toyKem)
      (Config.start (sampleOpening [1]) (sampleWaiting [1])) es (sampleAnswered s) := by
    refine ⟨_, ((Run.single ⟨.send .responder _, ?_⟩).snoc
      ⟨.receive sampleGreeted_sent hrecv, nofun⟩).snoc ⟨.send .initiator _, ?_⟩⟩
    · rintro x rnd ⟨⟩
      exact hparty.sendReady (by decide) (by rw [Nat.sub_self, hzero]; decide)
    · rintro x rnd ⟨⟩
      nofun
  obtain ⟨message, salt, s', salt', hmem, hne, hanswer⟩ := sampleAnswered_receive hrecv hchain
  obtain ⟨-, hsalt⟩ := spqr_agreement toyPrims toyKem toyKem_laws
    (sampleOpening_new (by decide)) (sampleWaiting_new (by decide)) hrun
  cases hsalt .responder _ _ _ _ hmem hanswer
  exact ⟨s, message, salt, s', hmem, hanswer, hne⟩

/-- **A full counter**: message number `2 ^ 32` of the first epoch goes out with the number zero
and a salt, and arrives without one. -/
theorem spqr_agreement_full_counter :
    ∃ es c message salt s,
      newState toyPrims [1] directionA2B { MaxJump := 0, MaxOOO := 0 } = .ok (sampleOpening [1]) ∧
      newState toyPrims [1] directionB2A { MaxJump := 0, MaxOOO := 0 } = .ok (sampleWaiting [1]) ∧
      Run (Exchange toyPrims toyKem) (Config.start (sampleOpening [1]) (sampleWaiting [1])) es c ∧
      (message, salt) ∈ c.sent .initiator ∧
      (c.st .responder).receiveOnClone toyPrims toyKem message = .ok (s, []) ∧ salt ≠ [] := by
  obtain ⟨s₁, chain₁, hrecv, hchain⟩ := sampleGreeted_receive
  obtain ⟨l, v, hparty, hl, hzero⟩ := sampleGreeted_party hrecv
  obtain ⟨g₀, hg₀⟩ := sampleGreeted_joint
  have hstep : Exchange toyPrims toyKem sampleGreeted _
      (sampleGreeted.afterReceive toyPrims toyKem .initiator _ s₁) :=
    .receive (x := .initiator) sampleGreeted_sent hrecv
  obtain ⟨g₁, hg₁, -⟩ := hg₀.step toyKem_laws hstep
  -- all numbers but the last
  obtain ⟨es, c, hrun, ⟨g, hg⟩, hother, hchain', l', v', hparty', hl', hsent⟩ :=
    hg₁.sends toyKem_laws (x := .initiator) (fun _ => .ok .zero) (fun _ => ⟨_, rfl⟩) hparty hl
      (by simp [Config.afterReceive, hchain]) (2 ^ 32 - 1)
  rcases hparty'.send hl' toyKem (fun _ => .ok .zero) with ⟨e, n, herr, -⟩ | ⟨hwrap, -⟩ |
    ⟨-, w, out, idx, salt, l₂, s₂, -, he, hsalt, hsend, -, -⟩
  · cases herr
  · cases hwrap
  · have hmem : (out.msg.serialize idx, salt) ∈ (c.afterSend toyPrims toyKem .initiator
        fun _ => .ok .zero).sent Party.responder.other := by
      rw [show Party.responder.other = .initiator from rfl, Config.afterSend, hsend]
      simp [Except.toOption]
    have hrun' :=
      (((Run.nil.snoc (.send .responder fun _ => .ok .zero)).snoc hstep).trans hrun).snoc
      (.send .initiator fun _ => .ok .zero)
    obtain ⟨g', hg', -⟩ := hg.step toyKem_laws (.send .initiator fun _ => .ok .zero)
    have hepoch : out.msg.epoch = 1 := he.msgEpoch.trans hparty'.handshake.epoch
    cases hsalt with
    | silent hnone => exact absurd hnone hchain'
    | keyed =>
      have hidx : UInt32.ofNat (l'.sent (1 - 1) + 1) = 0 := by
        rw [Nat.sub_self, hsent, hzero]
        decide
      rw [hidx] at hmem
      have hst : ((c.afterSend toyPrims toyKem .initiator fun _ => .ok .zero).st .responder).v1
          = (sampleGreeted.st .responder).v1 := by
        show (c.st .responder).v1 = _
        exact congrArg State.v1 hother
      obtain ⟨s, -, hfinal, -⟩ := hg'.receive_silent toyKem_laws (hst.trans rfl) (by decide)
        he.wellFormed hepoch hmem
      refine ⟨_, _, _, _, s, sampleOpening_new (by decide), sampleWaiting_new (by decide), hrun',
        hmem, hfinal, ?_⟩
      intro hnil
      have := congrArg List.length hnil
      simp at this

/-! ## Lockstep -/

/-- The state of a party that has sent both parts of the ciphertext. -/
def V1States.isCt2Sampled : V1States → Bool
  | .ct2Sampled .. => true
  | _ => false

theorem CtSide.isCt2Sampled {r : Round} (h : CtSide p kem r v) (hct2 : r.ct2 = true) :
    v.isCt2Sampled = true := by
  cases h with
  | ct2Sampled => rfl
  | _ => simp_all

/-- The chain of a party serves its epoch or the one before. -/
theorem PartyOk.currentEpoch (h : PartyOk p l n v s) (hc : s.chain = some chain) :
    chain.currentEpoch.toNat + 1 = n ∨ chain.currentEpoch.toNat = n := by
  rcases h.chain with ⟨chain', hc', base, snd, hat, -⟩ | ⟨hc', -⟩
  · cases hc.symm.trans hc'
    have hpos := h.handshake.pos
    rw [hat.links.current]
    unfold V1States.chainEpoch
    split <;> omega
  · cases hc.symm.trans hc'

/-- A party whose epoch has not wrapped. -/
theorem PartyOk.lt_of_epoch (h : PartyOk p l n v s) (hepoch : v.epoch ≠ 0) : n < 2 ^ 64 := by
  refine lt_of_le_of_ne h.handshake.le fun hn => hepoch ?_
  rw [h.handshake.epoch, hn]
  rfl

/-- What lockstep means for the handshakes of the two parties. -/
structure Lockstep (p : Prims) (kem : Kem) (c : Config) (v : Party → V1States) : Prop where
  state : ∀ x, (c.st x).v1 = some (v x)
  near : ∀ x, (v x).epoch.toNat ≤ (v x.other).epoch.toNat + 1
  behind : ∀ x, (v x).epoch.toNat < (v x.other).epoch.toNat → (v x).isCt2Sampled = true
  chain : ∀ x chain, (c.st x).chain = some chain →
    chain.currentEpoch.toNat + 1 = (v x).epoch.toNat ∨ chain.currentEpoch = (v x).epoch
  accepts : ∀ x message salt, (message, salt) ∈ c.sent x.other →
    ∃ msg idx pos out, deserializeV1Message message = .ok (msg, idx, pos) ∧
      (v x).recv p kem msg = .ok out
  sends : ∀ x rnd, (∀ n, ∃ bs, rnd n = .ok bs) → ∃ out, ((c.st x).send p kem rnd).2 = .ok out

/-- The epochs of the two parties in the data of the round. -/
theorem Joint.epochs (h : Joint p kem g c)
    (hwrap : ∀ y v, (c.st y).v1 = some v → v.epoch ≠ 0) (x : Party) :
    ∃ n v, PartyOk p (g.ledger x) n v (c.st x) ∧ v.epoch.toNat = n ∧ g.round.e ≤ n ∧
      n ≤ g.round.e + 1 ∧ (n = g.round.e + 1 → x = g.round.keyParty ∧ g.round.ct2 = true) ∧
      (x ≠ g.round.keyParty → CtSide p kem g.round v) := by
  rcases g.round.keyParty.eq_or_other x with rfl | rfl
  · obtain ⟨v, hside, hparty⟩ := h.key
    have hlt := hparty.lt_of_epoch (hwrap _ v hparty.state)
    refine ⟨_, v, hparty, hparty.handshake.toNat_epoch hlt, ?_, ?_, ?_, fun hne => absurd rfl hne⟩
    · unfold Round.keyEpoch
      split <;> omega
    · unfold Round.keyEpoch
      split <;> omega
    · unfold Round.keyEpoch
      split
      · rename_i hdone
        exact fun _ => ⟨rfl, hside.ct2_of_done hdone⟩
      · omega
  · obtain ⟨v, hside, hparty⟩ := h.ct
    exact ⟨_, v, hparty, hparty.handshake.toNat_epoch h.round.lt, le_rfl, by omega,
      fun hn => by omega, fun _ => hside⟩

/-- Both parties are in the same epoch, in states that belong together. -/
theorem Joint.lockstep (h : Joint p kem g c) (laws : KemLaws kem)
    (hwrap : ∀ y v, (c.st y).v1 = some v → v.epoch ≠ 0) : ∃ v, Lockstep p kem c v := by
  choose n v hparty hepoch hle hle' hahead hside using h.epochs hwrap
  refine ⟨v, fun x => (hparty x).state, fun x => ?_, fun x hlt => ?_, fun x chain hc => ?_,
    fun x message salt hmem => ?_, fun x rnd hrnd => ?_⟩
  · have := hle' x
    have := hle x.other
    rw [hepoch, hepoch]
    omega
  · -- the other party is ahead, so it is the one of the key
    rw [hepoch, hepoch] at hlt
    have hx := hle x
    have hy := hle' x.other
    obtain ⟨hparty', hct2⟩ := hahead x.other (by omega)
    exact (hside x (hparty' ▸ x.other_ne.symm)).isCt2Sampled hct2
  · rw [← UInt64.toNat_inj, hepoch]
    exact (hparty x).currentEpoch hc
  · obtain ⟨msg, idx, out, rfl, hwf, -, hrecv⟩ := h.accepts laws (hparty x).state
      (hwrap x _ (hparty x).state) hmem
    exact ⟨msg, idx, _, out, deserializeV1Message_serialize hwf idx, hrecv⟩
  · have hn := (hparty x).lt_of_epoch (hwrap x _ (hparty x).state)
    rcases (hparty x).send (h.ledger_sized x) kem rnd with ⟨e, k, herr, -⟩ | ⟨hfull, -⟩ |
      ⟨-, _, _, _, _, _, _, -, -, -, hsend, -, -⟩
    · obtain ⟨bs, hbs⟩ := hrnd k
      rw [hbs] at herr
      cases herr
    · omega
    · exact ⟨_, congrArg Prod.snd hsend⟩

end SignalGo.Spqr
