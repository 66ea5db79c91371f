import SignalGo.Ratchet.Timeline

/-!
# Double Ratchet: both parties derive the same keys

Two parties that start from matching X3DH results, send, and receive each other's headers in any
order: a header in flight may be lost, delivered late or delivered again, and a receive that
succeeds is committed.

One party is ahead of the other by one key pair: it made the newest epoch of the timeline. The
invariant `Sync` says that both states are views of one timeline, that every header in flight
belongs to an epoch of its sender, and that no public key occurs twice. A receive either stays
in its epoch, or it is the party that is behind that learns the newest epoch, makes the next one
and is ahead from then on.

* `Exchange`: the steps of the two parties.
* `Sync.step`: every step keeps the invariant.
* `ratchet_agreement`: a header of the peer yields the peer's key, and it is refused only
  when it was accepted before, when a newer DH key was accepted, or at a limit.
-/

namespace SignalGo.Ratchet

open Std (ExtTreeMap ExtTreeSet)
open Function

variable {p : Prims}

/-! ## Configurations -/

/-- The two states, what each party has sent (header and message key) and accepted, and the
ratchet public keys made so far, newest first. -/
structure Config where
  st : Party → State
  sent : Party → List (Header × Key)
  accepted : Party → List Header
  keys : List Key

/-- The configuration after `x` made the header `h`. -/
def Config.afterSend (c : Config) (x : Party) (t : State) (h : Header) (mk : Key) : Config :=
  { c with
    st := update c.st x t
    sent := update c.sent x (c.sent x ++ [(h, mk)]) }

/-- The configuration after `x` accepted the header `h`. A receive that moved to another DH key
made a new key pair. -/
def Config.afterReceive (c : Config) (x : Party) (t : State) (h : Header) : Config :=
  { c with
    st := update c.st x t
    accepted := update c.accepted x (c.accepted x ++ [h])
    keys := if t.dhr = (c.st x).dhr then c.keys
      else (t.dhs.map KeyPair.publicKey).toList ++ c.keys }

/-- One step of `x`: a send, or a committed receive of a header the peer has sent at any time.
A key pair made on the way has a public key that was not there before. -/
inductive Exchange (p : Prims) (c : Config) : Party → Config → Prop where
  | send {x : Party} {t : State} {h : Header} {mk : Key} :
      nextSendingMessageKey p (c.st x) = .ok (t, h, mk) →
      Exchange p c x (c.afterSend x t h mk)
  | receive {x : Party} {t : State} {h : Header} {mk mk' : Key} (rnd : Except String Key) :
      (h, mk') ∈ c.sent x.other →
      advanceForHeader p rnd (c.st x) h = .ok (t, mk) →
      (t.dhr ≠ (c.st x).dhr → ∀ kp, t.dhs = some kp → kp.publicKey ∉ c.keys) →
      Exchange p c x (c.afterReceive x t h)

/-! ## The invariant -/

/-- `x` is ahead: the timeline is `e1 :: e2 :: e3 :: rest`, `x` owns `e1`, and the other party
knows it from `e2` on. -/
structure Sync (p : Prims) (c : Config) (x : Party) (e1 e2 e3 : Epoch) (rest : List Epoch) :
    Prop where
  ahead : View p (c.accepted x) (c.st x) e1 e2 (e3 :: rest)
  behind : View p (c.accepted x.other) (c.st x.other) e2 e3 rest
  sentAhead : ∀ h mk, (h, mk) ∈ c.sent x → SentUnder p (e1 :: e2 :: e3 :: rest) h mk
  sentBehind : ∀ h mk, (h, mk) ∈ c.sent x.other → SentUnder p (e2 :: e3 :: rest) h mk
  acceptedSent : ∀ y, ∀ h ∈ c.accepted y, ∃ mk, (h, mk) ∈ c.sent y.other
  linked : Linked p e1 e2
  valid₁ : KeyPairValid p e1.kp
  valid₂ : KeyPairValid p e2.kp
  keys : c.keys = (e1 :: e2 :: e3 :: rest).map Epoch.pub
  nodup : c.keys.Nodup

section Step

variable {c : Config} {x : Party} {e1 e2 e3 : Epoch} {rest : List Epoch} {t : State}
  {h : Header} {mk mk' : Key} {rnd : Except String Key}

theorem mem_acceptedSent_afterSend (hc : ∀ y, ∀ h ∈ c.accepted y, ∃ mk, (h, mk) ∈ c.sent y.other)
    (y : Party) (h' : Header) (hmem : h' ∈ (c.afterSend x t h mk).accepted y) :
    ∃ mk', (h', mk') ∈ (c.afterSend x t h mk).sent y.other := by
  obtain ⟨mk', hmk'⟩ := hc y h' hmem
  refine ⟨mk', ?_⟩
  by_cases hy : y.other = x
  · subst hy
    simp [Config.afterSend, hmk']
  · simp [Config.afterSend, update_of_ne hy, hmk']

theorem mem_acceptedSent_afterReceive
    (hc : ∀ y, ∀ h ∈ c.accepted y, ∃ mk, (h, mk) ∈ c.sent y.other)
    (hh : (h, mk') ∈ c.sent x.other) (y : Party) (h' : Header)
    (hmem : h' ∈ (c.afterReceive x t h).accepted y) :
    ∃ mk', (h', mk') ∈ (c.afterReceive x t h).sent y.other := by
  by_cases hy : y = x
  · subst hy
    simp only [Config.afterReceive, update_self, List.mem_append,
      List.mem_singleton] at hmem
    rcases hmem with hmem | rfl
    · exact hc y h' hmem
    · exact ⟨mk', hh⟩
  · simp only [Config.afterReceive, update_of_ne hy] at hmem
    exact hc y h' hmem

/-- The party that is ahead sends. -/
theorem Sync.send_ahead (hs : Sync p c x e1 e2 e3 rest)
    (hnext : nextSendingMessageKey p (c.st x) = .ok (t, h, mk)) :
    Sync p (c.afterSend x t h mk) x e1.send e2 e3 rest := by
  obtain ⟨hview, hin⟩ := hs.ahead.send hnext
  have hne := x.other_ne
  refine ⟨?_, ?_, ?_, ?_, mem_acceptedSent_afterSend hs.acceptedSent, hs.linked, hs.valid₁,
    hs.valid₂, hs.keys, hs.nodup⟩
  · simpa [Config.afterSend] using hview
  · simpa [Config.afterSend, update_of_ne hne] using hs.behind
  · intro h' mk' hmem
    simp only [Config.afterSend, update_self, List.mem_append, List.mem_singleton] at hmem
    rcases hmem with hmem | heq
    · exact (hs.sentAhead h' mk' hmem).send
    · cases heq
      exact ⟨_, _, .refl _, hin⟩
  · intro h' mk' hmem
    simp only [Config.afterSend, update_of_ne hne] at hmem
    exact hs.sentBehind h' mk' hmem

/-- The party that is behind sends. -/
theorem Sync.send_behind (hs : Sync p c x e1 e2 e3 rest)
    (hnext : nextSendingMessageKey p (c.st x.other) = .ok (t, h, mk)) :
    Sync p (c.afterSend x.other t h mk) x e1 e2.send e3 rest := by
  obtain ⟨hview, hin⟩ := hs.behind.send hnext
  have hne : x ≠ x.other := x.other_ne.symm
  refine ⟨?_, ?_, ?_, ?_, mem_acceptedSent_afterSend hs.acceptedSent, hs.linked, hs.valid₁,
    hs.valid₂, hs.keys, hs.nodup⟩
  · simpa [Config.afterSend, update_of_ne hne] using hs.ahead.peer_send
  · simpa [Config.afterSend] using hview
  · intro h' mk' hmem
    simp only [Config.afterSend, update_of_ne hne] at hmem
    exact (hs.sentAhead h' mk' hmem).peer_send
  · intro h' mk' hmem
    simp only [Config.afterSend, update_self, List.mem_append, List.mem_singleton] at hmem
    rcases hmem with hmem | heq
    · exact (hs.sentBehind h' mk' hmem).send
    · cases heq
      exact ⟨_, _, .refl _, hin⟩

/-- A receive that stays in its epoch. -/
theorem afterReceive_keys_same (hd : t.dhr = (c.st x).dhr) :
    (c.afterReceive x t h).keys = c.keys := if_pos hd

/-- The timeline known to the party that is ahead has no repeated key, and so on down. -/
theorem Sync.nodup_tail (hs : Sync p c x e1 e2 e3 rest) :
    ((e2 :: e3 :: rest).map Epoch.pub).Nodup := by
  have h := hs.nodup
  rw [hs.keys] at h
  exact (List.nodup_cons.mp h).2

/-- The party that is ahead receives. -/
theorem Sync.receive_ahead (hs : Sync p c x e1 e2 e3 rest) (hh : (h, mk') ∈ c.sent x.other)
    (hadv : advanceForHeader p rnd (c.st x) h = .ok (t, mk)) :
    mk = mk' ∧ Sync p (c.afterReceive x t h) x e1 e2 e3 rest := by
  obtain ⟨hmk, hview, hd⟩ := hs.ahead.receive_known hs.nodup_tail (hs.sentBehind h mk' hh) hadv
  have hkeys := afterReceive_keys_same (h := h) hd
  refine ⟨hmk, ?_, ?_, hs.sentAhead, hs.sentBehind,
    mem_acceptedSent_afterReceive hs.acceptedSent hh, hs.linked, hs.valid₁, hs.valid₂,
    hkeys.trans hs.keys, hkeys ▸ hs.nodup⟩
  · simpa [Config.afterReceive] using hview
  · simpa [Config.afterReceive, update_of_ne x.other_ne] using hs.behind

/-- The party that is behind receives a header of an epoch it knows. -/
theorem Sync.receive_behind_known (hs : Sync p c x e1 e2 e3 rest) (hh : (h, mk') ∈ c.sent x)
    (hsent : SentUnder p (e3 :: rest) h mk')
    (hadv : advanceForHeader p rnd (c.st x.other) h = .ok (t, mk)) :
    mk = mk' ∧ Sync p (c.afterReceive x.other t h) x e1 e2 e3 rest := by
  have hnodup := (List.nodup_cons.mp hs.nodup_tail).2
  obtain ⟨hmk, hview, hd⟩ := hs.behind.receive_known hnodup hsent hadv
  have hkeys := afterReceive_keys_same (h := h) hd
  rw [← x.other_other] at hh
  refine ⟨hmk, ?_, ?_, hs.sentAhead, hs.sentBehind,
    mem_acceptedSent_afterReceive hs.acceptedSent hh, hs.linked, hs.valid₁, hs.valid₂,
    hkeys.trans hs.keys, hkeys ▸ hs.nodup⟩
  · simpa [Config.afterReceive, update_of_ne x.other_ne.symm] using hs.ahead
  · simpa [Config.afterReceive] using hview

theorem Sync.new_ne (hs : Sync p c x e1 e2 e3 rest) : ∀ e ∈ e3 :: rest, e.pub ≠ e1.pub := by
  intro e he heq
  have h := hs.nodup
  rw [hs.keys] at h
  exact (List.nodup_cons.mp h).1 (List.mem_map.mpr ⟨e, .tail _ he, heq⟩)

/-- The party that is behind receives a header of the newest epoch: it makes the next one and is
ahead from then on. -/
theorem Sync.receive_behind_new (laws : DHLaws p) (hs : Sync p c x e1 e2 e3 rest)
    (hh : (h, mk') ∈ c.sent x) (hin : SentIn p e1 (e2 :: e3 :: rest) h mk')
    (hadv : advanceForHeader p rnd (c.st x.other) h = .ok (t, mk))
    (hfresh : t.dhr ≠ (c.st x.other).dhr → ∀ kp, t.dhs = some kp → kp.publicKey ∉ c.keys) :
    mk = mk' ∧ ∃ newest,
      Sync p (c.afterReceive x.other t h) x.other newest e1 e2 (e3 :: rest) := by
  obtain ⟨hmk, newest, hview, hlinked, hvalid, -⟩ := hs.behind.receive_new laws hs.linked
    hs.valid₁ hs.valid₂ hs.new_ne hin hadv
  have hd : t.dhr ≠ (c.st x.other).dhr := by
    rw [hview.dhr, hs.behind.dhr, ne_eq, Option.some.injEq]
    exact fun he => hs.new_ne e3 (.head _) he.symm
  have hkeys : (c.afterReceive x.other t h).keys = newest.pub :: c.keys := by
    show (if _ then _ else _) = _
    rw [if_neg hd, hview.dhs]
    rfl
  rw [← x.other_other] at hh
  refine ⟨hmk, newest, ?_, ?_, ?_, ?_, mem_acceptedSent_afterReceive hs.acceptedSent hh, hlinked,
    hvalid, hs.valid₁, ?_, ?_⟩
  · simpa [Config.afterReceive] using hview
  · simpa [Config.afterReceive, update_of_ne x.other_ne.symm] using hs.ahead
  · intro h' mk'' hmem
    obtain ⟨e, before, hearlier, hin'⟩ := hs.sentBehind h' mk'' hmem
    exact ⟨e, before, .drop _ _ hearlier, hin'⟩
  · intro h' mk'' hmem
    rw [x.other_other] at hmem
    exact hs.sentAhead h' mk'' hmem
  · rw [hkeys, hs.keys]
    rfl
  · rw [hkeys]
    exact List.nodup_cons.mpr ⟨hfresh hd newest.kp hview.dhs, hs.nodup⟩

/-- **One step.** Every step of either party keeps the invariant, for some timeline. -/
theorem Sync.step {c' : Config} {y : Party} (laws : DHLaws p)
    (hs : Sync p c x e1 e2 e3 rest) (hstep : Exchange p c y c') :
    ∃ x' d1 d2 d3 rest', Sync p c' x' d1 d2 d3 rest' := by
  cases hstep with
  | send hnext =>
    rcases x.eq_or_other y with rfl | rfl
    · exact ⟨_, _, _, _, _, hs.send_ahead hnext⟩
    · exact ⟨_, _, _, _, _, hs.send_behind hnext⟩
  | receive rnd hh hadv hfresh =>
    rcases x.eq_or_other y with rfl | rfl
    · exact ⟨_, _, _, _, _, (hs.receive_ahead hh hadv).2⟩
    · rw [x.other_other] at hh
      obtain ⟨e, before, hearlier, hin⟩ := hs.sentAhead _ _ hh
      rcases hearlier.cases with heq | hearlier
      · cases heq
        obtain ⟨-, newest, hs'⟩ := hs.receive_behind_new laws hh hin hadv hfresh
        exact ⟨_, _, _, _, _, hs'⟩
      · exact ⟨_, _, _, _, _,
          (hs.receive_behind_known hh ⟨e, before, hearlier, hin⟩ hadv).2⟩

end Step

/-! ## Matching handshakes -/

/-- The two X3DH results of one handshake: the same secrets, the initiator's ephemeral pair `ek`
and the responder's signed pre-key pair `spk`, each known to the other side by its public key. -/
structure Matching (p : Prims) (xa xb : X3dh.Result) (ek spk : KeyPair) : Prop where
  sharedSecret : xa.sharedSecret = xb.sharedSecret
  initialChainKey : xa.initialChainKey = xb.initialChainKey
  localEphemeral : xa.localEphemeral = some ek
  ephemeralKey : xb.initialMessage.ephemeralKey = ek.publicKey
  localRatchetKey : xb.localRatchetKey = some spk
  remoteRatchetKey : xa.remoteRatchetKey = some spk.publicKey
  ek_valid : KeyPairValid p ek
  spk_valid : KeyPairValid p spk

/-- The ratchet public keys after the handshake, newest first. With an initial chain key the
initiator has made a ratchet pair of its own; without one its ephemeral pair is the ratchet
pair and the responder has made the next. -/
def initialKeys (xa : X3dh.Result) (ek spk : KeyPair) (a b : State) : List Key :=
  match xa.initialChainKey with
  | some _ => (a.dhs.map KeyPair.publicKey).toList ++ [spk.publicKey, ek.publicKey]
  | none => (b.dhs.map KeyPair.publicKey).toList ++ [ek.publicKey, spk.publicKey]

/-- Both parties right after the handshake. -/
def Config.initial (a b : State) (keys : List Key) : Config where
  st
    | .initiator => a
    | .responder => b
  sent _ := []
  accepted _ := []
  keys := keys

/-- A state in which nothing has been sent or received is a view of the first epochs. -/
theorem view_initial {s : State} {own peer : Epoch} {older : List Epoch} (htidy : Tidy s)
    (hdhs : s.dhs = some own.kp) (hdhr : s.dhr = some peer.pub) (hrk : s.rk = own.root)
    (hcks : s.cks = own.chain) (hckr : s.ckr = peer.chain) (hns : s.ns = 0) (hnr : s.nr = 0)
    (hpn : s.pn = 0) (hmk : s.mkSkipped = ∅)
    (hseen : s.seenDH = (∅ : ExtTreeSet Key).insert peer.pub) (hsent : own.sent = 0)
    (holder : firstSent older = 0) (hlen : older.length ≤ 1) : View p [] s own peer older where
  receiving := by
    refine ⟨htidy, hdhr, by rw [hckr, hnr]; rfl, fun k mk hk => ?_, fun n hn => ?_⟩
    · rw [hmk] at hk
      cases hk
    · rw [hnr] at hn
      exact absurd hn UInt32.not_lt_zero
  dhs := hdhs
  rk := hrk
  ns := by rw [hns, hsent]; rfl
  cks := by rw [hcks, hsent]; rfl
  pn := by rw [hpn, holder]; rfl
  nr_le := by rw [hnr]; exact Nat.zero_le _
  seen d := by
    rw [hseen, ExtTreeSet.mem_insert, Std.LawfulEqOrd.compare_eq_iff_eq]
    constructor
    · rintro (rfl | hmem)
      · exact ⟨peer, older, .refl _, rfl⟩
      · exact absurd hmem ExtTreeSet.not_mem_empty
    · rintro ⟨e, before, hearlier, rfl⟩
      rcases hearlier.head_or with heq | ⟨b, T', rfl, hdeep⟩
      · cases heq
        exact .inl rfl
      · have := List.length_pos_of_mem hdeep.mem
        simp only [List.length_cons] at hlen
        omega
  reached := .inl hlen

section Initial

variable {xa xb : X3dh.Result} {ek spk : KeyPair} {rndA rndB : Nat → Except String Key}
  {a b : State}

/-- The initiator with an initial chain key has made a pair and stepped from the signed pre-key,
whose chain is the initial chain key. -/
theorem view_initiator_chain {ck : Key} (hm : Matching p xa xb ek spk)
    (hck : xa.initialChainKey = some ck) (ha : initializeState p rndA xa true = .ok a)
    (older : List Epoch) (holder : firstSent older = 0) (hlen : older.length ≤ 1) :
    ∃ e1 : Epoch, View p [] a e1 ⟨spk, xa.sharedSecret, ck, 0⟩ older
      ∧ Linked p e1 ⟨spk, xa.sharedSecret, ck, 0⟩ ∧ KeyPairValid p e1.kp := by
  have htidy := tidy_initializeState ha
  obtain ⟨-, ha⟩ | ⟨h, -⟩ := initializeStateWithGenerator_ok ha
  · obtain ⟨d, kp, out, hd, hkp, -, hout, rfl⟩ := initializeInitiator_ok ha
    have hd' : d = spk.publicKey := Option.some.inj (hd.symm.trans hm.remoteRatchetKey)
    subst hd'
    refine ⟨⟨kp, (rootStep p xa.sharedSecret out).1, (rootStep p xa.sharedSecret out).2, 0⟩,
      view_initial htidy rfl rfl rfl rfl ?_ rfl rfl rfl rfl rfl rfl holder hlen,
      ⟨out, hout, rfl, rfl⟩, ?_⟩
    · show xa.initialChainKey.getD .zero = _
      rw [hck]
      rfl
    · rcases hkp with h | ⟨h, -⟩
      · exact keyPairValid_generateKeyPair h
      · rw [hck] at h
        cases h
  · cases h

/-- The initiator without one sends under its ephemeral pair and has no receiving chain. -/
theorem view_initiator_legacy (hm : Matching p xa xb ek spk)
    (hck : xa.initialChainKey = none) (ha : initializeState p rndA xa true = .ok a) :
    ∃ out, dh p ek.privateKey spk.publicKey = .ok out
      ∧ View p [] a ⟨ek, (rootStep p xa.sharedSecret out).1,
          (rootStep p xa.sharedSecret out).2, 0⟩ ⟨spk, .zero, .zero, 0⟩ [] := by
  have htidy := tidy_initializeState ha
  obtain ⟨-, ha⟩ | ⟨h, -⟩ := initializeStateWithGenerator_ok ha
  · obtain ⟨d, kp, out, hd, -, hkp, hout, rfl⟩ := initializeInitiator_ok ha
    have hd' : d = spk.publicKey := Option.some.inj (hd.symm.trans hm.remoteRatchetKey)
    have hkp' : kp = ek := hkp hck ek hm.localEphemeral
    subst hd' hkp'
    refine ⟨out, hout, view_initial htidy rfl rfl rfl rfl ?_ rfl rfl rfl rfl rfl rfl rfl (by simp)⟩
    show xa.initialChainKey.getD .zero = _
    rw [hck]
    rfl
  · cases h

/-- The responder's ratchet pair is the signed pre-key. -/
theorem responder_key {kp : KeyPair} {P Q : Prop} (hm : Matching p xa xb ek spk)
    (hkp : xb.localRatchetKey = some kp ∧ P ∨ xb.localRatchetKey = none ∧ Q) : kp = spk := by
  rw [hm.localRatchetKey] at hkp
  rcases hkp with ⟨h, -⟩ | ⟨h, -⟩
  · exact (Option.some.inj h).symm
  · cases h

/-- The responder with an initial chain key sends over it under the signed pre-key and has no
receiving chain. -/
theorem view_responder_chain {ck : Key} (hm : Matching p xa xb ek spk)
    (hck : xa.initialChainKey = some ck) (hb : initializeState p rndB xb false = .ok b) :
    View p [] b ⟨spk, xa.sharedSecret, ck, 0⟩ ⟨ek, .zero, .zero, 0⟩ [] := by
  have htidy := tidy_initializeState hb
  obtain ⟨h, -⟩ | ⟨-, hb⟩ := initializeStateWithGenerator_ok hb
  · cases h
  obtain ⟨kp, calls, hkp, ⟨ck', hck', rfl⟩ | ⟨_, _, _, hnone, -⟩⟩ := initializeResponder_ok hb
  · have hck'' : ck' = ck := Option.some.inj ((hck'.symm.trans hm.initialChainKey.symm).trans hck)
    have hkp' := responder_key hm hkp
    subst hck'' hkp'
    exact view_initial htidy rfl (congrArg some hm.ephemeralKey) hm.sharedSecret.symm rfl rfl rfl
      rfl rfl rfl (congrArg (∅ : ExtTreeSet Key).insert hm.ephemeralKey) rfl rfl (by simp)
  · rw [← hm.initialChainKey, hck] at hnone
    cases hnone

/-- The responder without one has taken the initiator's step and made the next pair. -/
theorem view_responder_legacy (hm : Matching p xa xb ek spk)
    (hck : xa.initialChainKey = none) (hb : initializeState p rndB xb false = .ok b)
    (older : List Epoch) (holder : firstSent older = 0) (hlen : older.length ≤ 1) :
    ∃ out, dh p spk.privateKey ek.publicKey = .ok out ∧ ∃ e1 : Epoch,
      View p [] b e1 ⟨ek, (rootStep p xa.sharedSecret out).1,
          (rootStep p xa.sharedSecret out).2, 0⟩ older
      ∧ Linked p e1 ⟨ek, (rootStep p xa.sharedSecret out).1,
          (rootStep p xa.sharedSecret out).2, 0⟩ ∧ KeyPairValid p e1.kp := by
  have htidy := tidy_initializeState hb
  obtain ⟨h, -⟩ | ⟨-, hb⟩ := initializeStateWithGenerator_ok hb
  · cases h
  obtain ⟨kp, calls, hkp, ⟨ck, hck', -⟩ | ⟨out, kp', outSend, -, hout, hkp', hsend, rfl⟩⟩ :=
    initializeResponder_ok hb
  · rw [← hm.initialChainKey, hck] at hck'
    cases hck'
  · have hkp'' := responder_key hm hkp
    subst hkp''
    have hss := hm.sharedSecret.symm
    rw [hm.ephemeralKey] at hout hsend
    refine ⟨out, hout, ⟨kp', (rootStep p (rootStep p xa.sharedSecret out).1 outSend).1,
      (rootStep p (rootStep p xa.sharedSecret out).1 outSend).2, 0⟩, ?_,
      ⟨outSend, hsend, rfl, rfl⟩, keyPairValid_generateKeyPair hkp'⟩
    exact view_initial htidy rfl (congrArg some hm.ephemeralKey) (by rw [hss]; rfl)
      (by rw [hss]) (by rw [hss]) rfl rfl rfl rfl
      (congrArg (∅ : ExtTreeSet Key).insert hm.ephemeralKey) rfl holder hlen

/-- Views of the first three epochs are in sync. -/
theorem sync_of_views {x : Party} {e1 e2 e3 : Epoch} {keys : List Key}
    (hahead : View p [] ((Config.initial a b keys).st x) e1 e2 [e3])
    (hbehind : View p [] ((Config.initial a b keys).st x.other) e2 e3 [])
    (hlinked : Linked p e1 e2) (hv1 : KeyPairValid p e1.kp) (hv2 : KeyPairValid p e2.kp)
    (hkeys : keys = [e1.pub, e2.pub, e3.pub]) (hnodup : keys.Nodup) :
    Sync p (Config.initial a b keys) x e1 e2 e3 [] where
  ahead := hahead
  behind := hbehind
  sentAhead _ _ h := nomatch h
  sentBehind _ _ h := nomatch h
  acceptedSent _ _ h := nomatch h
  linked := hlinked
  valid₁ := hv1
  valid₂ := hv2
  keys := hkeys
  nodup := hnodup

/-- **The start.** After matching handshakes the two parties are in sync: with an initial chain
key the initiator is ahead, without one the responder. -/
theorem sync_initial (laws : DHLaws p) (hm : Matching p xa xb ek spk)
    (ha : initializeState p rndA xa true = .ok a) (hb : initializeState p rndB xb false = .ok b)
    (hnodup : (initialKeys xa ek spk a b).Nodup) :
    ∃ x e1 e2 e3, Sync p (Config.initial a b (initialKeys xa ek spk a b)) x e1 e2 e3 [] := by
  cases hck : xa.initialChainKey with
  | some ck =>
    obtain ⟨e1, hview, hlinked, hvalid⟩ := view_initiator_chain hm hck ha
      [⟨ek, .zero, .zero, 0⟩] rfl (by simp)
    refine ⟨.initiator, e1, _, ⟨ek, .zero, .zero, 0⟩, sync_of_views hview
      (view_responder_chain hm hck hb) hlinked hvalid hm.spk_valid ?_ hnodup⟩
    simp only [initialKeys, hck, hview.dhs]
    rfl
  | none =>
    obtain ⟨out', hout', hviewa⟩ := view_initiator_legacy hm hck ha
    obtain ⟨out, hout, e1, hview, hlinked, hvalid⟩ := view_responder_legacy hm hck hb
      [⟨spk, .zero, .zero, 0⟩] rfl (by simp)
    -- both sides of the first root step agree
    have hcomm := laws.comm ek spk hm.ek_valid hm.spk_valid
    have hout_eq : out' = out := Except.ok.inj (hout'.symm.trans (hcomm.trans hout))
    subst hout_eq
    refine ⟨.responder, e1, _, ⟨spk, .zero, .zero, 0⟩, sync_of_views hview hviewa hlinked hvalid
      hm.ek_valid ?_ hnodup⟩
    simp only [initialKeys, hck, hview.dhs]
    rfl

end Initial

/-! ## Agreement -/

/-- In a list of keys, newest first, `d'` was made after `d`. -/
def NewerKey (keys : List Key) (d' d : Key) : Prop :=
  ∃ newer older, keys = newer ++ older ∧ d' ∈ newer ∧ d ∈ older

/-- Why a header of the peer may be refused. -/
def RefusalReason (c : Config) (x : Party) (h : Header) (e : Err) : Prop :=
  h ∈ c.accepted x ∨ (∃ h' ∈ c.accepted x, NewerKey c.keys h'.dh h.dh) ∨ IsLimit e

/-- An accepted header with the same DH key and number is the header itself. -/
theorem mem_accepted_of_key {c : Config} {y : Party} {T : List Epoch} {h h' : Header} {mk : Key}
    (hnodup : (T.map Epoch.pub).Nodup)
    (hsent : ∀ h mk, (h, mk) ∈ c.sent y.other → SentUnder p T h mk)
    (hacc : ∀ h ∈ c.accepted y, ∃ mk, (h, mk) ∈ c.sent y.other) (hh : (h, mk) ∈ c.sent y.other)
    (hmem : h' ∈ c.accepted y) (hkey : skippedKeyForHeader h' = skippedKeyForHeader h) :
    h ∈ c.accepted y := by
  obtain ⟨mk', hmk'⟩ := hacc h' hmem
  rw [(hsent _ _ hh).unique hnodup (hsent _ _ hmk') hkey.symm]
  exact hmem

section

variable {c : Config} {x : Party} {e1 e2 e3 : Epoch} {rest : List Epoch} {h : Header}
  {mk mk' : Key} {rnd : Except String Key} {t : State} {e : Err} {kp : KeyPair}

theorem Sync.agree {y : Party} (laws : DHLaws p) (hs : Sync p c x e1 e2 e3 rest)
    (hh : (h, mk') ∈ c.sent y.other) (hadv : advanceForHeader p rnd (c.st y) h = .ok (t, mk)) :
    mk = mk' := by
  rcases x.eq_or_other y with rfl | rfl
  · exact (hs.receive_ahead hh hadv).1
  · rw [x.other_other] at hh
    obtain ⟨e, before, hearlier, hin⟩ := hs.sentAhead _ _ hh
    rcases hearlier.cases with heq | hearlier
    · cases heq
      exact (hs.behind.receive_new laws hs.linked hs.valid₁ hs.valid₂ hs.new_ne hin hadv).1
    · exact (hs.receive_behind_known hh ⟨e, before, hearlier, hin⟩ hadv).1

theorem Sync.dhr_isSome (hs : Sync p c x e1 e2 e3 rest) (y : Party) : (c.st y).dhr.isSome := by
  rcases x.eq_or_other y with rfl | rfl
  · rw [hs.ahead.dhr]
    rfl
  · rw [hs.behind.dhr]
    rfl

/-- A header of the peer that is refused was accepted before, is under a DH key that the peer has
left behind in an accepted header, or asks for a skip that fails. -/
theorem Sync.refuse_cases {y : Party} (laws : DHLaws p) (hs : Sync p c x e1 e2 e3 rest)
    (hh : (h, mk') ∈ c.sent y.other) (hkp : generateKeyPair p rnd = .ok kp)
    (hadv : advanceForHeader p rnd (c.st y) h = .error e) :
    h ∈ c.accepted y ∨ (∃ h' ∈ c.accepted y, NewerKey c.keys h'.dh h.dh)
      ∨ Blocked p (c.st y) h e := by
  have hnodup := hs.nodup
  rw [hs.keys] at hnodup
  rcases x.eq_or_other y with rfl | rfl
  · rcases hs.ahead.refuse_known (hs.sentBehind _ _ hh) hadv with
      ⟨h', hmem, hkey⟩ | ⟨h', hmem, hdh, hold⟩ | hblocked
    · exact .inl (mem_accepted_of_key hs.nodup_tail hs.sentBehind (hs.acceptedSent _) hh hmem hkey)
    · refine .inr (.inl ⟨h', hmem, [e1.pub, e2.pub], (e3 :: rest).map Epoch.pub, hs.keys, ?_,
        hold⟩)
      simp [hdh]
    · exact .inr (.inr hblocked)
  · have hh' := hh
    rw [x.other_other] at hh
    obtain ⟨e', before, hearlier, hin⟩ := hs.sentAhead _ _ hh
    rcases hearlier.cases with heq | hearlier
    · cases heq
      exact .inr (.inr (hs.behind.refuse_new laws hs.linked hs.valid₁ hs.valid₂ hs.new_ne hin hkp
        hadv))
    · rcases hs.behind.refuse_known ⟨e', before, hearlier, hin⟩ hadv with
        ⟨h', hmem, hkey⟩ | ⟨h', hmem, hdh, hold⟩ | hblocked
      · exact .inl (mem_accepted_of_key hnodup (x.other_other.symm ▸ hs.sentAhead)
          (hs.acceptedSent _) hh' hmem hkey)
      · refine .inr (.inl ⟨h', hmem, [e1.pub, e2.pub, e3.pub], rest.map Epoch.pub, hs.keys, ?_,
          hold⟩)
        simp [hdh]
      · exact .inr (.inr hblocked)

theorem Sync.refuse {y : Party} (laws : DHLaws p) (hs : Sync p c x e1 e2 e3 rest)
    (hh : (h, mk') ∈ c.sent y.other) (hkp : generateKeyPair p rnd = .ok kp)
    (hadv : advanceForHeader p rnd (c.st y) h = .error e) : RefusalReason c y h e :=
  (hs.refuse_cases laws hh hkp hadv).imp_right (.imp_right fun hb => hb.isLimit (hs.dhr_isSome y))

end

/-- Every configuration that is reached from a handshake is in sync. -/
theorem sync_run {xa xb : X3dh.Result} {ek spk : KeyPair} {rndA rndB : Nat → Except String Key}
    {a b : State} {c : Config} {steps : List Party} (laws : DHLaws p) (hm : Matching p xa xb ek spk)
    (ha : initializeState p rndA xa true = .ok a) (hb : initializeState p rndB xb false = .ok b)
    (hnodup : (initialKeys xa ek spk a b).Nodup)
    (hrun : Run (Exchange p) (Config.initial a b (initialKeys xa ek spk a b)) steps c) :
    ∃ x e1 e2 e3 rest, Sync p c x e1 e2 e3 rest := by
  refine hrun.invariant (I := fun c => ∃ x e1 e2 e3 rest, Sync p c x e1 e2 e3 rest) ?_ ?_
  · rintro c1 z c2 ⟨x, e1, e2, e3, rest, hs⟩ hstep
    exact hs.step laws hstep
  · obtain ⟨x, e1, e2, e3, hs⟩ := sync_initial laws hm ha hb hnodup
    exact ⟨x, e1, e2, e3, [], hs⟩

/-- **Double Ratchet key agreement.** Two parties start from matching X3DH results (with or
without an initial chain key) and exchange headers in any interleaving, with loss, reordering and
duplication; the public keys they make are pairwise distinct. Then in every configuration, for
every header the peer has sent: when `AdvanceForHeader` accepts it, the key is the one the peer
derived for it; and when it refuses it although a key pair can be generated, the header was
accepted before, or a header under a newer DH key of the peer was, or a limit was hit. -/
theorem ratchet_agreement {xa xb : X3dh.Result} {ek spk : KeyPair}
    {rndA rndB : Nat → Except String Key} {a b : State} {c : Config} {steps : List Party}
    (laws : DHLaws p) (hm : Matching p xa xb ek spk)
    (ha : initializeState p rndA xa true = .ok a) (hb : initializeState p rndB xb false = .ok b)
    (hnodup : (initialKeys xa ek spk a b).Nodup)
    (hrun : Run (Exchange p) (Config.initial a b (initialKeys xa ek spk a b)) steps c)
    (y : Party) (h : Header) (mk' : Key) (hh : (h, mk') ∈ c.sent y.other)
    (rnd : Except String Key) :
    (∀ t mk, advanceForHeader p rnd (c.st y) h = .ok (t, mk) → mk = mk')
    ∧ (∀ e kp, generateKeyPair p rnd = .ok kp → advanceForHeader p rnd (c.st y) h = .error e →
        RefusalReason c y h e) := by
  obtain ⟨x, e₁, e₂, e₃, rest, hs⟩ := sync_run laws hm ha hb hnodup hrun
  exact ⟨fun t mk hadv => hs.agree laws hh hadv,
    fun e kp hkp hadv => hs.refuse laws hh hkp hadv⟩

/-! ### The theorem at the sample handshake -/

theorem dh_toy (privateKey publicKey : Key) :
    ∃ out, dh toyPrims privateKey publicKey = .ok out := by
  refine ⟨_, if_neg fun hzero => ?_⟩
  have hlast := congrArg (fun k : Key => k.toBytes[31]?) hzero
  exact absurd hlast (by simp [ByteArr.toBytes, ByteArr.zero])

theorem toyPrims_dhLaws : DHLaws toyPrims where
  total a kp _ := dh_toy a kp.publicKey
  comm kp kp' h h' := by
    have hpub : ∀ {kp : KeyPair}, KeyPairValid toyPrims kp →
        kp.publicKey.toBytes.headD 0 = kp.privateKey.toBytes.headD 0 + 9 := by
      intro kp h
      rw [← Except.ok.inj h]
      rfl
    have hx : toyPrims.x25519 kp.privateKey kp'.publicKey
        = toyPrims.x25519 kp'.privateKey kp.publicKey := by
      have hsum : kp.privateKey.toBytes.headD 0 + kp'.publicKey.toBytes.headD 0
          = kp'.privateKey.toBytes.headD 0 + kp.publicKey.toBytes.headD 0 := by
        rw [hpub h, hpub h']
        ac_rfl
      simp only [toyPrims, hsum]
    rw [dh, dh, hx]

theorem sampleResult_matching (ck : Option Key) :
    Matching toyPrims (sampleResult ck) (sampleResult ck) (toyPair 2) (toyPair 4) :=
  ⟨rfl, rfl, rfl, rfl, rfl, rfl, rfl, rfl⟩

/-- The two parties of the sample handshake without an initial chain key. -/
def sampleConfig : Config :=
  .initial (sampleState none true) (sampleState none false)
    (initialKeys (sampleResult none) (toyPair 2) (toyPair 4) (sampleState none true)
      (sampleState none false))

/-- The initiator sends two messages and the responder accepts the second: the first one still
yields the key the initiator derived for it. -/
theorem ratchet_agreement_sample : ∃ c h mk,
    Run (Exchange toyPrims) sampleConfig [.initiator, .initiator, .responder] c
    ∧ (h, mk) ∈ c.sent .initiator ∧ c.accepted .responder ≠ []
    ∧ ∃ t, advanceForHeader toyPrims (.ok (Key.fill 5)) (c.st .responder) h = .ok (t, mk) := by
  have h₁ : Run (Exchange toyPrims) sampleConfig _ _ := .single (.send (x := .initiator) rfl)
  have h₂ := h₁.snoc (.send (x := .initiator) rfl)
  have h₃ := h₂.snoc (.receive (x := .responder) (.ok (Key.fill 5))
    (List.mem_append_right _ (.head _)) rfl (fun hne => absurd rfl hne))
  refine ⟨_, _, _, h₃, List.mem_append_left _ (.head _), by decide, ?_⟩
  have hok := (ratchet_agreement toyPrims_dhLaws (sampleResult_matching none)
    (sampleState_eq none true) (sampleState_eq none false) (by decide) h₃ .responder _ _
    (List.mem_append_left _ (.head _)) (.ok (Key.fill 5))).1 _ _ rfl
  rw [← hok]
  exact ⟨_, rfl⟩

end SignalGo.Ratchet
