import SignalGo.Spqr.Round
import SignalGo.Spqr.StatePersist

/-!
# Two parties exchange messages

Two states made from the same key with opposite directions send, and receive what the other one
sent: a message may be lost, delivered late or delivered again, and a receive runs on a clone that
is committed when it succeeds.

The ghost data `Shared` holds what the two have in common: the round, the key derivation and the
secret of every epoch, and how many keys each party has taken for sending. The invariant `Joint`
says that each party fits its side of the round and its ledger, and that every message in flight
was made for the round and with the salt of its epoch and number.

* `Exchange`: the steps of the two parties.
* `Joint.step`: every step keeps the invariant.
* `Joint.accepts`: no message of the peer is refused by the handshake.
-/

namespace SignalGo.Spqr

open Function

variable (p : Prims) (kem : Kem)

/-! ## Configurations -/

def directionOf : Party → Direction
  | .initiator => directionA2B
  | .responder => directionB2A

/-- The two states, what each party has sent (message and salt), and the epoch secrets it has
made. -/
structure Config where
  st : Party → State
  sent : Party → List (Bytes × Bytes)
  secrets : Party → List EpochSecret

def Config.start (a b : State) : Config where
  st
    | .initiator => a
    | .responder => b
  sent _ := []
  secrets _ := []

/-- The epoch secret a send makes. -/
def State.sentSecret (s : State) (rnd : Rand) : Option EpochSecret :=
  match s.v1 with
  | none => none
  | some v1 =>
      match (v1.send p kem rnd).2 with
      | .ok out => out.key
      | .error _ => none

/-- The epoch secret a receive makes. -/
def State.receivedSecret (s : State) (message : Bytes) : Option EpochSecret :=
  match s.v1, deserializeV1Message message with
  | some v1, .ok (msg, _, _) =>
      match v1.recv p kem msg with
      | .ok recv => recv.key
      | .error _ => none
  | _, _ => none

/-- The configuration after a send of `x`, which works in place also when it fails. -/
def Config.afterSend (c : Config) (x : Party) (rnd : Rand) : Config where
  st := update c.st x ((c.st x).send p kem rnd).1
  sent := update c.sent x (c.sent x ++ ((c.st x).send p kem rnd).2.toOption.toList)
  secrets := update c.secrets x (c.secrets x ++ ((c.st x).sentSecret p kem rnd).toList)

/-- The configuration after `x` received `message` and committed the state `s`. -/
def Config.afterReceive (c : Config) (x : Party) (message : Bytes) (s : State) : Config where
  st := update c.st x s
  sent := c.sent
  secrets := update c.secrets x
    (c.secrets x ++ ((c.st x).receivedSecret p kem message).toList)

inductive ExchangeEvent where
  | send (x : Party) (rnd : Rand)
  | receive (x : Party) (message : Bytes)

/-- `Receive` on a clone, as the session layer calls it. -/
def State.receiveOnClone (s : State) (message : Bytes) : Except (Fault Err) (State × Bytes) :=
  match s.clone with
  | none => .error (.err (.new "clone spqr state"))
  | some clone => clone.receive p kem message

/-- One step: a send, or a committed receive of a message the peer has sent at any time. -/
inductive Exchange (c : Config) : ExchangeEvent → Config → Prop
  | send (x : Party) (rnd : Rand) : Exchange c (.send x rnd) (c.afterSend p kem x rnd)
  | receive {x : Party} {message salt salt' : Bytes} {s : State} :
      (message, salt) ∈ c.sent x.other →
      (c.st x).receiveOnClone p kem message = .ok (s, salt') →
      Exchange c (.receive x message) (c.afterReceive p kem x message s)

/-! ## What the two have in common -/

/-- The round, the key derivation and the secret of each epoch, and the number of keys each party
has taken for sending. -/
structure Shared where
  round : Round
  okm : Nat → Bytes
  secret : Nat → Option Bytes
  taken : Party → Nat → Nat

def Shared.ledger (g : Shared) (x : Party) : Ledger where
  dir := directionOf x
  okm := g.okm
  sent := g.taken x

/-- The salt of a message that was sent: none for a message without a number, and the key of its
epoch and number otherwise. -/
inductive SentSalt (l : Ledger) (epoch : UInt64) : UInt32 → Bytes → Prop
  | silent : epoch = 1 → SentSalt l epoch 0 []
  | keyed (k : Nat) : 1 ≤ k → k ≤ l.sent (epoch.toNat - 1) → SentSalt l epoch (UInt32.ofNat k)
      (keyAt p (l.seeds (epoch.toNat - 1)).1 k).toBytes

/-- A message in flight: it was made for the round, and its salt is the one of its sender. -/
def InFlight (g : Shared) (x : Party) (message salt : Bytes) : Prop :=
  ∃ msg idx, message = msg.serialize idx ∧ msg.WellFormed ∧ 1 ≤ msg.epoch.toNat ∧
    MsgOk p kem g.round x msg ∧ SentSalt p (g.ledger x) msg.epoch idx salt

/-- The epoch of the party of the key, which is the first to go on. -/
def Round.keyEpoch (r : Round) : Nat := if r.done then r.e + 1 else r.e

structure Joint (g : Shared) (c : Config) : Prop where
  round : g.round.Valid kem
  sized : ∀ e, (g.okm e).length = 96
  key : ∃ v, KeySide p kem g.round v ∧
    PartyOk p (g.ledger g.round.keyParty) g.round.keyEpoch v (c.st g.round.keyParty)
  ct : ∃ v, CtSide p kem g.round v ∧
    PartyOk p (g.ledger g.round.keyParty.other) g.round.e v (c.st g.round.keyParty.other)
  current : g.secret g.round.e = g.round.enc.map (g.round.secret p)
  later : ∀ i, g.round.e < i → g.secret i = none
  derived : ∀ i secret, g.secret i = some secret →
    g.okm i = epochOkm p ((g.ledger .initiator).root (i - 1)) secret
  msgs : ∀ x message salt, (message, salt) ∈ c.sent x → InFlight p kem g x message salt
  secrets : ∀ x, ∀ k ∈ c.secrets x, g.secret k.epoch.toNat = some k.secret

section

variable {p kem} {g g' : Shared} {c : Config} {x y : Party} {r : Round} {msg : V1Message}
  {message salt : Bytes}

/-! ## Messages in flight -/

/-- Until the party of the key has finished there is no message of a later epoch. -/
theorem MsgOk.epoch_le (h : MsgOk p kem r x msg) (hr : r.Valid kem) (hdone : r.done = false) :
    msg.epoch.toNat ≤ r.e := by
  cases h with
  | old hlt => omega
  | next _ hd _ =>
    rw [hdone] at hd
    cases hd
  | _ => exact hr.toNat_epoch.le

theorem InFlight.mono (h : InFlight p kem g x message salt)
    (hmsg : ∀ msg, MsgOk p kem g.round x msg → MsgOk p kem g'.round x msg)
    (hokm : ∀ msg, 1 ≤ msg.epoch.toNat → MsgOk p kem g.round x msg →
      g'.okm (msg.epoch.toNat - 1) = g.okm (msg.epoch.toNat - 1))
    (htaken : ∀ e, g.taken x e ≤ g'.taken x e) : InFlight p kem g' x message salt := by
  obtain ⟨msg, idx, hser, hwf, hpos, hok, hsalt⟩ := h
  refine ⟨msg, idx, hser, hwf, hpos, hmsg msg hok, ?_⟩
  have hseeds : (g'.ledger x).seeds (msg.epoch.toNat - 1)
      = (g.ledger x).seeds (msg.epoch.toNat - 1) := by
    show chainSeedsForDirection (g'.okm _) _ = chainSeedsForDirection (g.okm _) _
    rw [hokm msg hpos hok]
    rfl
  cases hsalt with
  | silent hone => exact .silent hone
  | keyed k hk hle =>
    rw [← hseeds]
    exact .keyed k hk (hle.trans (htaken _))

/-- One more key of `x` in an epoch. -/
def Shared.take (g : Shared) (x : Party) (e : Nat) : Party → Nat → Nat :=
  update g.taken x ((g.ledger x).takeKey e).sent

/-- The ghost data behind a step: the new round, and the derivation of its epoch if the secret was
just made. -/
def Shared.advance (p : Prims) (g : Shared) (r : Round) (key : Option EpochSecret)
    (taken : Party → Nat → Nat) : Shared where
  round := r
  okm := ((g.ledger .initiator).derive p g.round.e key).okm
  secret := (key.elim g.secret fun k => update g.secret g.round.e (some k.secret))
  taken := taken

/-- What a send adds to the ghost data. -/
structure Taken (g : Shared) (x : Party) (n : Nat) (taken : Party → Nat → Nat) : Prop where
  frame : ∀ y, y ≠ x → taken y = g.taken y
  le : ∀ e, g.taken x e ≤ taken x e
  cases : taken = g.taken ∨ (n < 2 ^ 64 ∧ taken = g.take x (n - 1))

variable {taken : Party → Nat → Nat}

theorem derive_ledger (g : Shared) (x : Party) (key : Option EpochSecret)
    (h : taken x = g.taken x) (r : Round) :
    (g.advance p r key taken).ledger x = (g.ledger x).derive p g.round.e key := by
  cases key <;> simp [Shared.advance, Shared.ledger, Ledger.derive, h, Ledger.root]

theorem advance_okm_of_ne (g : Shared) {i : Nat} (h : i ≠ g.round.e) (r : Round)
    (key : Option EpochSecret) (taken : Party → Nat → Nat) :
    (g.advance p r key taken).okm i = g.okm i :=
  Ledger.derive_okm_of_ne p (g.ledger .initiator) h key

variable {s : State}

/-- The salt of a send, in the ghost data behind it. -/
theorem SendSalt.exists_taken {n : Nat} {out : V1Send} {idx : UInt32} {l' : Ledger}
    (h : SendSalt p (g.ledger x) n s out idx salt l') (hn : n = g.round.e ∨ out.key = none)
    (hpos : 1 ≤ n) (hepoch : out.msg.epoch.toNat = n) (r : Round) :
    ∃ taken, Taken g x n taken ∧ l' = (g.advance p r out.key taken).ledger x ∧
      SentSalt p l' out.msg.epoch idx salt := by
  cases h with
  | silent _ hone hkey =>
    refine ⟨g.taken, ⟨fun _ _ => rfl, fun _ => le_rfl, .inl rfl⟩, ?_, .silent ?_⟩
    · rw [derive_ledger g x out.key rfl r, hkey]
      rfl
    · apply UInt64.toNat_inj.mp
      rw [hepoch, hone]
      rfl
  | keyed =>
    have hderive : (g.ledger x).derive p n out.key = (g.ledger x).derive p g.round.e out.key := by
      rcases hn with rfl | hkey
      · rfl
      · rw [hkey]
        rfl
    refine ⟨g.take x (n - 1), ⟨fun y hy => update_of_ne hy _ _, fun e => ?_,
      .inr ⟨hepoch ▸ out.msg.epoch.toNat_lt, rfl⟩⟩, ?_, ?_⟩
    · rw [Shared.take, update_self]
      show _ ≤ update (g.taken x) (n - 1) _ e
      rcases eq_or_ne e (n - 1) with rfl | hne
      · rw [update_self]
        exact Nat.le_succ _
      · rw [update_of_ne hne]
    · rw [hderive]
      cases out.key <;>
        simp [Shared.advance, Shared.ledger, Ledger.derive, Shared.take, Ledger.root,
          Ledger.takeKey]
    · have hseeds : (((g.ledger x).derive p n out.key).takeKey (n - 1)).seeds (n - 1)
          = (g.ledger x).seeds (n - 1) := Ledger.derive_seeds_of_ne p _ (by omega) out.key
      rw [← hseeds, ← hepoch]
      refine .keyed _ (by omega) ?_
      simp [hepoch, Ledger.takeKey]

/-! ## Sending -/

theorem Joint.ledger_sized (h : Joint p kem g c) (x : Party) : (g.ledger x).Sized := h.sized

variable {rnd : Rand}

/-- A send that fails changes nothing. -/
theorem Config.afterSend_eq_self {f : Fault Err}
    (hsend : (c.st x).send p kem rnd = (c.st x, .error f))
    (hsecret : (c.st x).sentSecret p kem rnd = none) : c.afterSend p kem x rnd = c := by
  obtain ⟨st, sent, secrets⟩ := c
  simp only [Config.afterSend] at *
  simp [hsend, hsecret, Except.toOption]

variable {v : V1States}

theorem sentSecret_eq {v' : V1States} {out : V1Send} (hv : s.v1 = some v)
    (hsend : v.send p kem rnd = (v', .ok out)) :
    s.sentSecret p kem rnd = out.key := by
  simp only [State.sentSecret, hv, hsend]

theorem sentSecret_error {v' : V1States} {e : Err} (hv : s.v1 = some v)
    (hsend : v.send p kem rnd = (v', .error e)) :
    s.sentSecret p kem rnd = none := by
  simp only [State.sentSecret, hv, hsend]

theorem mem_sent_afterSend {s' : State} {m0 salt0 : Bytes}
    (hsend : (c.st x).send p kem rnd = (s', .ok (m0, salt0)))
    (hmem : (message, salt) ∈ (c.afterSend p kem x rnd).sent y) :
    (message, salt) ∈ c.sent y ∨ (y = x ∧ message = m0 ∧ salt = salt0) := by
  by_cases hy : y = x
  · subst hy
    simpa [Config.afterSend, hsend, Except.toOption] using hmem
  · rw [Config.afterSend] at hmem
    simp only [update_of_ne hy] at hmem
    exact .inl hmem

theorem mem_secrets_afterSend {k : EpochSecret} (hmem : k ∈ (c.afterSend p kem x rnd).secrets y) :
    k ∈ c.secrets y ∨ (c.st x).sentSecret p kem rnd = some k := by
  by_cases hy : y = x
  · subst hy
    simpa [Config.afterSend] using hmem
  · rw [Config.afterSend] at hmem
    simp only [update_of_ne hy] at hmem
    exact .inl hmem

/-- The derivation of the round's epoch does not touch the messages of older ones. -/
theorem Joint.okm_advance (h : Joint p kem g c) {key : Option EpochSecret}
    (hkey : key = none ∨ g.round.done = false) (hpos : 1 ≤ msg.epoch.toNat)
    (hmsg : MsgOk p kem g.round x msg) :
    (g.advance p r key taken).okm (msg.epoch.toNat - 1) = g.okm (msg.epoch.toNat - 1) := by
  rcases hkey with rfl | hdone
  · rfl
  · have := hmsg.epoch_le h.round hdone
    exact advance_okm_of_ne g (by omega) r key taken

/-- The messages in flight stay what they are, and the new one joins them. -/
theorem Joint.msgs_afterSend (h : Joint p kem g c) {s' : State} {m0 salt0 : Bytes}
    (hsend : (c.st x).send p kem rnd = (s', .ok (m0, salt0))) {n : Nat} {key : Option EpochSecret}
    (htaken : Taken g x n taken)
    (hmono : ∀ y msg, MsgOk p kem g.round y msg → MsgOk p kem r y msg)
    (hkey : key = none ∨ g.round.done = false)
    (hnew : InFlight p kem (g.advance p r key taken) x m0 salt0) :
    ∀ y message salt, (message, salt) ∈ (c.afterSend p kem x rnd).sent y →
      InFlight p kem (g.advance p r key taken) y message salt := by
  intro y message salt hmem
  rcases mem_sent_afterSend hsend hmem with hmem | ⟨rfl, rfl, rfl⟩
  · refine (h.msgs y message salt hmem).mono (hmono y) (fun msg hpos hm => ?_) fun i => ?_
    · exact h.okm_advance hkey hpos hm
    · by_cases hy : y = x
      · exact hy ▸ htaken.le i
      · exact (congrFun (htaken.frame y hy) i).ge
  · exact hnew

theorem Round.Valid.enc_none (h : r.Valid kem) (hnone : r.seed = none) : r.enc = none := by
  cases henc : r.enc with
  | none => rfl
  | some enc =>
    obtain ⟨seed, hseed, -⟩ := h.enc enc henc
    rw [hnone] at hseed
    cases hseed

theorem Round.Valid.withSeed (h : r.Valid kem) (hnone : r.seed = none) (seed : ByteArr 64) :
    ({ r with seed := some seed } : Round).Valid kem := by
  refine ⟨h.pos, h.lt, fun enc henc => ?_⟩
  have hr : r.enc = some enc := henc
  cases (h.enc_none hnone).symm.trans hr

theorem Round.Grows.withSeed (hnone : r.seed = none) (seed : ByteArr 64) :
    r.Grows { r with seed := some seed } :=
  ⟨rfl, rfl, rfl, fun _ h => (Option.some_ne_none _ (h.symm.trans hnone)).elim, fun _ h => h, id,
    id⟩

/-- **The party of the key sends.** -/
theorem Joint.send_key (h : Joint p kem g c) (rnd : Rand) :
    ∃ g', Joint p kem g' (c.afterSend p kem g.round.keyParty rnd) ∧
      Taken g g.round.keyParty g.round.keyEpoch g'.taken := by
  obtain ⟨v, hside, hparty⟩ := h.key
  have hsame : Taken g g.round.keyParty g.round.keyEpoch g.taken :=
    ⟨fun _ _ => rfl, fun _ => le_rfl, .inl rfl⟩
  rcases hparty.send (h.ledger_sized _) kem rnd with ⟨e, k, -, hv, hsend⟩ |
    ⟨-, ⟨v', out, hv, hkey⟩, hsend⟩ | ⟨hn, v', out, idx, salt, l', s', hv, he, hsalt, hsend, hok, -⟩
  · refine ⟨g, ?_, hsame⟩
    rwa [Config.afterSend_eq_self hsend (sentSecret_error hparty.state hv)]
  · refine ⟨g, ?_, hsame⟩
    rwa [Config.afterSend_eq_self hsend ((sentSecret_eq hparty.state hv).trans hkey)]
  · have hlt : g.round.done = true → g.round.e + 1 < 2 ^ 64 := by
      intro hdone
      rwa [Round.keyEpoch, if_pos hdone] at hn
    obtain ⟨hkey, r', hr', hside', hmsg⟩ := hside.send hlt hv
    have hepoch : out.msg.epoch.toNat = g.round.keyEpoch := by
      rw [he.msgEpoch]
      exact hparty.handshake.toNat_epoch hn
    obtain ⟨taken, htaken, hl', hsalt'⟩ :=
      hsalt.exists_taken (.inr hkey) hparty.handshake.pos hepoch r'
    rw [hkey] at hl'
    refine ⟨g.advance p r' none taken, ?_, htaken⟩
    obtain ⟨v2, hct, hparty2⟩ := h.ct
    have hne := g.round.keyParty.other_ne
    -- the round may have got its seed
    obtain ⟨hround, hct', hmono, he', hparty', hdone', henc'⟩ :
        r'.Valid kem ∧ CtSide p kem r' v2 ∧
        (∀ y msg, MsgOk p kem g.round y msg → MsgOk p kem r' y msg) ∧ r'.e = g.round.e ∧
        r'.keyParty = g.round.keyParty ∧ r'.done = g.round.done ∧
        r'.enc.map (r'.secret p) = g.round.enc.map (g.round.secret p) := by
      rcases hr' with rfl | ⟨seed, hnone, rfl⟩
      · exact ⟨h.round, hct, fun _ _ h => h, rfl, rfl, rfl, rfl⟩
      · exact ⟨h.round.withSeed hnone seed, hct.withSeed hnone seed (h.round.enc_none hnone),
          fun _ _ hm => hm.grow (.withSeed hnone seed), rfl, rfl, rfl, rfl⟩
    have hepoch' : r'.keyEpoch = g.round.keyEpoch := by
      rw [Round.keyEpoch, he', hdone', Round.keyEpoch]
    refine ⟨hround, h.sized, ⟨out.state, hside', ?_⟩, ⟨v2, hct', ?_⟩, ?_, ?_, h.derived, ?_, ?_⟩
    · show PartyOk p (Shared.ledger _ r'.keyParty) r'.keyEpoch _ (Config.st _ r'.keyParty)
      rw [hparty', hepoch', ← hl']
      simpa [Config.afterSend, hsend] using hok
    · show PartyOk p (Shared.ledger _ r'.keyParty.other) r'.e _ (Config.st _ r'.keyParty.other)
      rw [hparty', he', derive_ledger g _ none (htaken.frame _ hne)]
      simpa [Config.afterSend, update_of_ne hne] using hparty2
    · show g.secret r'.e = _
      rw [he', h.current]
      exact henc'.symm
    · intro i hi
      exact h.later i (he' ▸ hi)
    · exact h.msgs_afterSend hsend htaken hmono (.inl rfl) ⟨out.msg, idx, rfl, he.wellFormed,
        by rw [hepoch]; exact hparty.handshake.pos, hmsg, hl' ▸ hsalt'⟩
    · intro y k hk
      rcases mem_secrets_afterSend hk with hk | hk
      · exact h.secrets y k hk
      · rw [sentSecret_eq hparty.state hv, hkey] at hk
        cases hk

/-! The encapsulation is made while the party of the key still sends its header. -/

theorem KeySide.withEnc (h : KeySide p kem r v) (hnone : r.enc = none) (enc : Encapsulation) :
    r.done = false ∧ v.sampled = false ∧
      KeySide p kem { r with enc := some enc } v := by
  cases h with
  | keysUnsampled hdone hseed => exact ⟨hdone, rfl, .keysUnsampled hdone hseed⟩
  | keysSampled hdone hseed hcarries => exact ⟨hdone, rfl, .keysSampled hdone hseed hcarries⟩
  | _ => simp_all

theorem Round.Valid.withEnc (h : r.Valid kem) {seed : ByteArr 64} {enc : Encapsulation}
    (hseed : r.seed = some seed) (henc : Encapsulates kem seed enc) :
    ({ r with enc := some enc } : Round).Valid kem := by
  refine ⟨h.pos, h.lt, fun enc' henc' => ?_⟩
  cases henc'
  exact ⟨seed, hseed, henc⟩

theorem Round.Grows.withEnc (hnone : r.enc = none) (enc : Encapsulation) :
    r.Grows { r with enc := some enc } :=
  ⟨rfl, rfl, rfl, fun _ h => h, fun _ h => (Option.some_ne_none _ (h.symm.trans hnone)).elim, id,
    id⟩

/-- The secret of the round enters the ghost data. -/
theorem Joint.derived_advance (h : Joint p kem g c) (r : Round) (k : EpochSecret)
    (taken : Party → Nat → Nat) :
    ∀ i secret, (g.advance p r (some k) taken).secret i = some secret →
      (g.advance p r (some k) taken).okm i
        = epochOkm p (((g.advance p r (some k) taken).ledger .initiator).root (i - 1)) secret := by
  have hpos := h.round.pos
  have hroot : ∀ i, i ≤ g.round.e →
      ((g.advance p r (some k) taken).ledger .initiator).root (i - 1)
        = (g.ledger .initiator).root (i - 1) := by
    intro i hi
    show ByteArr.ofBytes 32 (((g.advance p r (some k) taken).okm _).take 32) = _
    rw [advance_okm_of_ne g (by omega)]
    rfl
  intro i secret hi
  simp only [Shared.advance, Option.elim_some] at hi
  rcases eq_or_ne i g.round.e with rfl | hne
  · rw [update_self] at hi
    cases hi
    rw [hroot _ le_rfl]
    exact update_self _ _ _
  · rw [update_of_ne hne] at hi
    have hlt : i < g.round.e := by
      rcases Nat.lt_trichotomy i g.round.e with hlt | heq | hgt
      · exact hlt
      · exact absurd heq hne
      · rw [h.later i hgt] at hi
        cases hi
    rw [hroot i hlt.le, ← h.derived i secret hi, advance_okm_of_ne g hne]

theorem sized_advance (h : Joint p kem g c) (r : Round) (key : Option EpochSecret)
    (taken : Party → Nat → Nat) (e : Nat) : ((g.advance p r key taken).okm e).length = 96 :=
  (h.ledger_sized .initiator).derive p g.round.e key e

/-- **The party of the ciphertext sends.** -/
theorem Joint.send_ct (h : Joint p kem g c) (rnd : Rand) :
    ∃ g', Joint p kem g' (c.afterSend p kem g.round.keyParty.other rnd) ∧
      Taken g g.round.keyParty.other g.round.e g'.taken := by
  obtain ⟨v, hside, hparty⟩ := h.ct
  have hne := g.round.keyParty.other_ne
  have hn := h.round.lt
  rcases hparty.send (h.ledger_sized _) kem rnd with ⟨e, k, -, hv, hsend⟩ |
    ⟨hwrap, -⟩ | ⟨-, v', out, idx, salt, l', s', hv, he, hsalt, hsend, hok, -⟩
  · -- a Send that fails changes nothing
    refine ⟨g, ?_, fun _ _ => rfl, fun _ => le_rfl, .inl rfl⟩
    rwa [Config.afterSend_eq_self hsend (sentSecret_error hparty.state hv)]
  · omega
  · obtain ⟨r', hside', hmsg, hr'⟩ := hside.send hne hv
    have hepoch : out.msg.epoch.toNat = g.round.e := by
      rw [he.msgEpoch]
      exact hparty.handshake.toNat_epoch hn
    obtain ⟨taken, htaken, hl', hsalt'⟩ :=
      hsalt.exists_taken (.inl rfl) hparty.handshake.pos hepoch r'
    refine ⟨g.advance p r' out.key taken, ?_, htaken⟩
    have hnew : InFlight p kem (g.advance p r' out.key taken) g.round.keyParty.other
        (out.msg.serialize idx) salt :=
      ⟨out.msg, idx, rfl, he.wellFormed, by rw [hepoch]; exact h.round.pos, hmsg, hl' ▸ hsalt'⟩
    have hself : PartyOk p ((g.advance p r' out.key taken).ledger g.round.keyParty.other)
        g.round.e out.state ((c.afterSend p kem g.round.keyParty.other rnd).st
          g.round.keyParty.other) := by
      rw [← hl']
      simpa [Config.afterSend, hsend] using hok
    -- the other party keeps its state; only its ledger may grow
    obtain ⟨v₁, hkside, hparty1⟩ := h.key
    have hst : (c.afterSend p kem g.round.keyParty.other rnd).st g.round.keyParty
        = c.st g.round.keyParty := by
      simp [Config.afterSend, update_of_ne hne.symm]
    have hled := derive_ledger (p := p) g g.round.keyParty out.key (htaken.frame _ hne.symm) r'
    have hsecret := sentSecret_eq hparty.state hv
    rcases hr' with ⟨hkey, rfl⟩ | ⟨seed, enc, hseed, hnone, hencaps, rfl, hkey⟩
    · -- no secret was made: every part of the invariant is kept
      rw [hkey] at hself hled hsecret hnew ⊢
      refine ⟨h.round, h.sized, ⟨v₁, hkside, ?_⟩, ⟨out.state, hside', hself⟩, h.current, h.later,
        h.derived, h.msgs_afterSend hsend htaken (fun _ _ h => h) (.inl rfl) hnew, ?_⟩
      · show PartyOk p (Shared.ledger _ g.round.keyParty) g.round.keyEpoch _
          (Config.st _ g.round.keyParty)
        rwa [hled, hst]
      · intro y k hk
        rcases mem_secrets_afterSend hk with hk | hk
        · exact h.secrets y k hk
        · rw [hsecret] at hk
          cases hk
    · -- the encapsulation and with it the secret of the epoch were made
      obtain ⟨hdone, hsampled, hkside'⟩ := hkside.withEnc hnone enc
      rw [hkey] at hself hled hsecret hnew ⊢
      have hcur : g.secret g.round.e = none := by rw [h.current, hnone]; rfl
      refine ⟨h.round.withEnc hseed hencaps, sized_advance h _ _ _, ⟨v₁, hkside', ?_⟩,
        ⟨out.state, hside', hself⟩, ?_, ?_, h.derived_advance _ _ taken,
        h.msgs_afterSend hsend htaken (fun _ _ hm => hm.grow (.withEnc hnone enc)) (.inr hdone)
          hnew, ?_⟩
      · show PartyOk p (Shared.ledger _ g.round.keyParty) g.round.keyEpoch _
          (Config.st _ g.round.keyParty)
        rw [hled, hst]
        refine hparty1.derive ?_ _
        have := h.round.pos
        rw [V1States.chainEpoch, hsampled, if_neg Bool.false_ne_true, Round.keyEpoch, hdone,
          if_neg Bool.false_ne_true]
        omega
      · exact update_self _ _ _
      · intro i hi
        exact (update_of_ne (Nat.ne_of_gt hi) _ _).trans (h.later i hi)
      · intro y k hk
        rcases mem_secrets_afterSend hk with hk | hk
        · have hk' := h.secrets y k hk
          have hne' : k.epoch.toNat ≠ g.round.e := by
            intro heq
            rw [heq, hcur] at hk'
            cases hk'
          exact (update_of_ne hne' _ _).trans hk'
        · rw [hsecret] at hk
          cases hk
          show update g.secret _ _ g.round.epoch.toNat = _
          rw [h.round.toNat_epoch, update_self]

/-! ## Receiving -/

section Received

variable {l : Ledger} {n n' : Nat} {v : V1States} {s s' : State} {idx : UInt32} {out : V1Recv}

/-- Behind the last epoch nothing is received. -/
theorem ReceivedV1.lt (h : ReceivedV1 p kem l n v message salt msg idx out n' s')
    (hh : HandshakeAt n v) : n < 2 ^ 64 := by
  refine lt_of_le_of_ne hh.le fun hn => ?_
  have hspoke := (sampled_of_waiting (hh.wrap hn)).2
  cases h.effect with
  | stay _ _ _ _ hle =>
    rw [hh.epoch, hn] at hle
    exact h.epoch (UInt64.toNat_inj.mp (Nat.le_zero.mp (UInt64.le_iff_toNat_le.mp hle)))
  | finish _ _ hsp => exact Bool.false_ne_true (hspoke.symm.trans hsp)
  | next _ _ hsp => exact Bool.false_ne_true (hspoke.symm.trans hsp)

/-- The epoch behind a receive, from the epoch of its state. -/
theorem ReceivedV1.epoch_eq (h : ReceivedV1 p kem l n v message salt msg idx out n' s') {m : Nat}
    (hm : out.state.epoch = UInt64.ofNat m) (hle : n ≤ m) (hle' : m ≤ n + 1) : n' = m := by
  have heq := congrArg UInt64.toNat (h.party.handshake.epoch.symm.trans hm)
  rw [UInt64.toNat_ofNat', UInt64.toNat_ofNat'] at heq
  have := h.le
  have := h.le_succ
  omega

/-- A receive of a message that was sent. -/
theorem PartyOk.receive_sent (h : PartyOk p l n v s) (hl : l.Sized) (hwf : msg.WellFormed)
    (hrecv : s.receiveOnClone p kem (msg.serialize idx) = .ok (s', salt)) :
    ∃ out n', ReceivedV1 p kem l n v (msg.serialize idx) salt msg idx out n' s' ∧
      s.receivedSecret p kem (msg.serialize idx) = out.key := by
  rw [State.receiveOnClone, (h.restorable hl).clone] at hrecv
  have hparse := deserializeV1Message_serialize hwf idx
  have hver : msgVersion (msg.serialize idx) = some versionV1 := rfl
  rcases h.receive hl hrecv with ⟨hv, -⟩ | ⟨hv, -⟩ | ⟨-, msg', idx', out, n', hout⟩
  · cases hver.symm.trans hv
  · cases hver.symm.trans hv
  · obtain ⟨pos, hparse'⟩ := hout.parsed
    rw [hparse] at hparse'
    cases hparse'
    refine ⟨out, n', hout, ?_⟩
    simp only [State.receivedSecret, h.state, hparse, hout.recv]

/-- A receive, when the handshake accepts the message, is a matter of the chain only. -/
theorem PartyOk.receiveOnClone_eq (h : PartyOk p l n v s) (hl : l.Sized) (hwf : msg.WellFormed)
    (hepoch : msg.epoch ≠ 0) (hrecv : v.recv p kem msg = .ok out) (idx : UInt32) :
    ∃ chain0 chain n', s.chainForRecv p = .ok chain0 ∧
      addReceivedEpoch p chain0 out.key = .ok chain ∧ HandshakeAt n' out.state ∧
      ChainPart p (l.derive p n out.key) n' out.state chain ∧
      s.receiveOnClone p kem (msg.serialize idx)
        = (do
            let (salt, chain) ← Spqr.recvSalt p chain (msg.epoch - 1) idx
            return ({ s with v1 := some out.state, chain := some chain, negotiation := none },
              salt)) := by
  obtain ⟨chain0, hfor, hpart⟩ := h.chain.forRecv
  obtain ⟨chain, n', hadd, hh', hpart', -, -⟩ :=
    hpart.receive h.handshake (recv_effect h.handshake.valid hrecv) hepoch
  have hver : msgVersion (msg.serialize idx) = some versionV1 := rfl
  refine ⟨chain0, chain, n', hfor, hadd, hh', hpart', ?_⟩
  rw [State.receiveOnClone, (h.restorable hl).clone]
  simp only [State.receive, h.state, hver, State.receiveVersion]
  rw [if_neg (by rw [h.version]; decide), if_neg (by rw [h.version]; decide),
    if_neg (by decide), State.receiveV1]
  simp only [deserializeV1Message_serialize hwf, hrecv, hfor, hadd, ok_bind, Except.mapError,
    if_neg hepoch]

end Received

theorem mem_secrets_afterReceive {k : EpochSecret}
    (hmem : k ∈ (c.afterReceive p kem x message s).secrets y) :
    k ∈ c.secrets y ∨ (c.st x).receivedSecret p kem message = some k := by
  by_cases hy : y = x
  · subst hy
    simpa [Config.afterReceive] using hmem
  · rw [Config.afterReceive] at hmem
    simp only [update_of_ne hy] at hmem
    exact .inl hmem

/-- What is left to show for a receive that leads to the round `r`. -/
theorem Joint.received (h : Joint p kem g c) (hround : r.Valid kem) (hle : g.round.e ≤ r.e)
    (hcur : g.secret r.e = r.enc.map (r.secret p)) (hkey : ∃ v, KeySide p kem r v ∧
      PartyOk p (g.ledger r.keyParty) r.keyEpoch v
        ((c.afterReceive p kem x message s).st r.keyParty))
    (hct : ∃ v, CtSide p kem r v ∧ PartyOk p (g.ledger r.keyParty.other) r.e v
      ((c.afterReceive p kem x message s).st r.keyParty.other))
    (hmono : ∀ y msg, MsgOk p kem g.round y msg → MsgOk p kem r y msg)
    (hsecret : ∀ k, (c.st x).receivedSecret p kem message = some k →
      g.secret k.epoch.toNat = some k.secret) :
    Joint p kem { g with round := r } (c.afterReceive p kem x message s) where
  round := hround
  sized := h.sized
  key := hkey
  ct := hct
  current := hcur
  later i hi := h.later i (lt_of_le_of_lt hle hi)
  derived := h.derived
  msgs y m salt hmem :=
    (h.msgs y m salt hmem).mono (hmono y) (fun _ _ _ => rfl) fun _ => le_rfl
  secrets y k hk := (mem_secrets_afterReceive hk).elim (h.secrets y k) (hsecret k)

theorem KeySide.epoch_eq (h : KeySide p kem r v) :
    v.epoch = UInt64.ofNat r.keyEpoch := by
  cases h with
  | finished hdone =>
    rw [Round.keyEpoch, if_pos hdone]
    exact (UInt64.ofNat_add r.e 1).symm
  | _ =>
    rw [Round.keyEpoch, if_neg (by simp_all)]
    rfl

/-- The other side does not see that the party of the key has finished. -/
theorem CtSide.withDone (h : CtSide p kem r v) :
    CtSide p kem { r with done := true } v := by
  cases h with
  | idle hseed hct2 hdec => exact .idle hseed hct2 hdec
  | noHeaderReceived hseed henc hct2 hdec => exact .noHeaderReceived hseed henc hct2 hdec
  | headerReceived hseed henc hct2 hdec => exact .headerReceived hseed henc hct2 hdec
  | ct1Sampled hseed henc hct2 hcarries hdec => exact .ct1Sampled hseed henc hct2 hcarries hdec
  | ekReceivedCt1Sampled hseed henc hct2 hcarries =>
    exact .ekReceivedCt1Sampled hseed henc hct2 hcarries
  | ct1Acknowledged hseed henc hct2 hdec => exact .ct1Acknowledged hseed henc hct2 hdec
  | ct2Sampled henc hct2 hcarries => exact .ct2Sampled henc hct2 hcarries

/-- Nor does the party of the key see that the second part is on its way. -/
theorem KeySide.withCt2 (h : KeySide p kem r v) :
    KeySide p kem { r with ct2 := true } v := by
  cases h with
  | keysUnsampled hdone hseed => exact .keysUnsampled hdone hseed
  | keysSampled hdone hseed hcarries => exact .keysSampled hdone hseed hcarries
  | headerSent hdone hseed henc hcarries hdec => exact .headerSent hdone hseed henc hcarries hdec
  | ct1Received hdone hseed henc hcarries => exact .ct1Received hdone hseed henc hcarries
  | ekSentCt1Received hdone hseed henc _ hdec => exact .ekSentCt1Received hdone hseed henc rfl hdec
  | finished hdone henc _ hdec => exact .finished hdone henc rfl hdec

variable {salt' : Bytes}

/-- What the party of the key makes of a message of the other one. -/
theorem Joint.receives_key (h : Joint p kem g c) (laws : KemLaws kem)
    (hmem : (message, salt) ∈ c.sent g.round.keyParty.other)
    (hrecv : (c.st g.round.keyParty).receiveOnClone p kem message = .ok (s, salt')) :
    ∃ v msg idx out n', ReceivedV1 p kem (g.ledger g.round.keyParty) g.round.keyEpoch v message
        salt' msg idx out n' s ∧ (c.st g.round.keyParty).receivedSecret p kem message = out.key ∧
      ((out.key = none ∧ KeySide p kem g.round out.state) ∨
        ∃ enc, g.round.enc = some enc ∧ g.round.done = false ∧ g.round.ct2 = true ∧
          out.key = some { epoch := g.round.epoch, secret := g.round.secret p enc } ∧
          KeySide p kem { g.round with done := true } out.state) := by
  obtain ⟨msg, idx, rfl, hwf, hpos, hmsg, -⟩ := h.msgs _ _ _ hmem
  obtain ⟨v, hside, hparty⟩ := h.key
  obtain ⟨out, n', hout, hsecret⟩ := hparty.receive_sent (h.ledger_sized _) hwf hrecv
  have hlt : g.round.done = true → g.round.e + 1 < 2 ^ 64 := by
    intro hdone
    have := hout.lt hparty.handshake
    rwa [Round.keyEpoch, if_pos hdone] at this
  obtain ⟨out', hrecv', hcases⟩ := hside.recv laws h.round hlt g.round.keyParty.other_ne hmsg
  cases hout.recv.symm.trans hrecv'
  exact ⟨v, msg, idx, out, n', hout, hsecret, hcases⟩

/-- **The party of the key receives.** -/
theorem Joint.receive_key (h : Joint p kem g c) (laws : KemLaws kem)
    (hmem : (message, salt) ∈ c.sent g.round.keyParty.other)
    (hrecv : (c.st g.round.keyParty).receiveOnClone p kem message = .ok (s, salt')) :
    ∃ r, Joint p kem { g with round := r } (c.afterReceive p kem g.round.keyParty message s) := by
  obtain ⟨v, msg, idx, out, n', hout, hsecret, hcases⟩ := h.receives_key laws hmem hrecv
  obtain ⟨v2, hct, hparty2⟩ := h.ct
  have hother : (c.afterReceive p kem g.round.keyParty message s).st
      g.round.keyParty.other = c.st g.round.keyParty.other :=
    update_of_ne g.round.keyParty.other_ne _ _
  have hself : (c.afterReceive p kem g.round.keyParty message s).st
      g.round.keyParty = s := update_self _ _ _
  rcases hcases with ⟨hkey, hside'⟩ | ⟨enc, henc, hdone, hct2, hkey, hside'⟩
  · -- no secret came out, and the round stays
    refine ⟨g.round, h.received h.round le_rfl h.current ⟨_, hside', ?_⟩ ⟨v2, hct, ?_⟩
      (fun _ _ h => h) ?_⟩
    · have hn' := hout.epoch_eq hside'.epoch_eq le_rfl (Nat.le_succ _)
      have hok := hout.party
      rw [hkey, Ledger.derive_none, hn'] at hok
      rwa [hself]
    · rwa [hother]
    · intro k hk
      rw [hsecret, hkey] at hk
      cases hk
  · -- the secret is the one the other party made
    have hcur : g.secret g.round.e = some (g.round.secret p enc) := by rw [h.current, henc]; rfl
    have hepoch : g.round.keyEpoch = g.round.e := by rw [Round.keyEpoch, hdone]; rfl
    refine ⟨{ g.round with done := true }, h.received ⟨h.round.pos, h.round.lt, h.round.enc⟩ le_rfl
      h.current ⟨_, hside', ?_⟩ ⟨v2, hct.withDone, ?_⟩ (fun _ _ hm => hm.grow ?_) ?_⟩
    · have hn' := hout.epoch_eq hside'.epoch_eq (by rw [hepoch]; exact Nat.le_succ _)
        (by rw [hepoch]; exact le_rfl)
      have hok := hout.party
      rw [hkey, hn', hepoch, Ledger.derive_eq_self (h.derived _ _ hcur)] at hok
      show PartyOk p _ _ _ (Config.st _ g.round.keyParty)
      rwa [hself]
    · show PartyOk p _ _ _ (Config.st _ g.round.keyParty.other)
      rwa [hother]
    · exact ⟨rfl, rfl, rfl, fun _ h => h, fun _ h => h, id, fun _ => rfl⟩
    · intro k hk
      rw [hsecret, hkey] at hk
      cases hk
      show g.secret g.round.epoch.toNat = _
      rw [h.round.toNat_epoch]
      exact hcur

/-- The round behind a finished one: the roles change. -/
def Round.next (p : Prims) (r : Round) (enc : Encapsulation) : Round where
  e := r.e + 1
  keyParty := r.keyParty.other
  auth := r.nextAuth p enc
  seed := none
  enc := none
  ct2 := false
  done := false

theorem Round.next_epoch (r : Round) (enc : Encapsulation) :
    (r.next p enc).epoch = r.epoch + 1 := UInt64.ofNat_add r.e 1

/-- What fitted a finished round fits the next one. -/
theorem MsgOk.next_round (h : MsgOk p kem r x msg) (hr : r.Valid kem) (enc : Encapsulation) :
    MsgOk p kem (r.next p enc) x msg := by
  have hold : msg.epoch = r.epoch → MsgOk p kem (r.next p enc) x msg := by
    intro heq
    refine .old ?_
    rw [heq, hr.toNat_epoch]
    exact Nat.lt_succ_self _
  cases h with
  | old hlt => exact .old (Nat.lt_succ_of_lt hlt)
  | next hx hdone hlt =>
    rw [← r.next_epoch enc]
    exact .none (by rw [hx]; exact r.keyParty.other_ne.symm)
  | _ => exact hold rfl

/-- The party that has finished waits in the next round. -/
theorem KeySide.next_round {enc : Encapsulation} (h : KeySide p kem r v) (hdone : r.done = true)
    (henc : r.enc = some enc) : CtSide p kem (r.next p enc) v := by
  cases h with
  | finished _ henc' _ hdec =>
    rw [henc] at henc'
    cases henc'
    rw [← r.next_epoch enc]
    exact .idle rfl rfl hdec
  | _ => simp_all

/-- What the party of the ciphertext makes of a message of the other one. -/
theorem Joint.receives_ct (h : Joint p kem g c) (laws : KemLaws kem)
    (hmem : (message, salt) ∈ c.sent g.round.keyParty)
    (hrecv : (c.st g.round.keyParty.other).receiveOnClone p kem message = .ok (s, salt')) :
    ∃ v msg idx w n', ReceivedV1 p kem (g.ledger g.round.keyParty.other) g.round.e v message
        salt' msg idx { key := none, state := w } n' s ∧
      (c.st g.round.keyParty.other).receivedSecret p kem message = none ∧
      (CtSide p kem g.round w ∨
        (g.round.ct2 = false ∧ CtSide p kem { g.round with ct2 := true } w) ∨
        ∃ enc, g.round.done = true ∧ g.round.e + 1 < 2 ^ 64 ∧ g.round.enc = some enc ∧
          w = .keysUnsampled { epoch := g.round.epoch + 1, auth := g.round.nextAuth p enc }) := by
  obtain ⟨msg, idx, rfl, hwf, hpos, hmsg, -⟩ := h.msgs _ _ _ hmem
  obtain ⟨v, hside, hparty⟩ := h.ct
  obtain ⟨v₁, hkside, -⟩ := h.key
  obtain ⟨out, n', hout, hsecret⟩ := hparty.receive_sent (h.ledger_sized _) hwf hrecv
  obtain ⟨w, hrecv', hcases⟩ := hside.recv laws h.round hkside.ct2_of_done hmsg
  cases hout.recv.symm.trans hrecv'
  exact ⟨v, msg, idx, w, n', hout, hsecret, hcases⟩

/-- **The party of the ciphertext receives.** -/
theorem Joint.receive_ct (h : Joint p kem g c) (laws : KemLaws kem)
    (hmem : (message, salt) ∈ c.sent g.round.keyParty)
    (hrecv : (c.st g.round.keyParty.other).receiveOnClone p kem message = .ok (s, salt')) :
    ∃ r, Joint p kem { g with round := r }
      (c.afterReceive p kem g.round.keyParty.other message s) := by
  obtain ⟨v, msg, idx, w, n', hout, hsecret, hcases⟩ := h.receives_ct laws hmem hrecv
  obtain ⟨v₁, hkside, hparty1⟩ := h.key
  have hne := g.round.keyParty.other_ne
  have hnone : ∀ k, (c.st g.round.keyParty.other).receivedSecret p kem message
      = some k → g.secret k.epoch.toNat = some k.secret := by
    intro k hk
    rw [hsecret] at hk
    cases hk
  have hkey : (c.afterReceive p kem g.round.keyParty.other message s).st
      g.round.keyParty = c.st g.round.keyParty := update_of_ne hne.symm _ _
  have hself : (c.afterReceive p kem g.round.keyParty.other message s).st
      g.round.keyParty.other = s := update_self _ _ _
  rw [← hkey] at hparty1
  have hok := hout.party
  rw [← hself] at hok
  -- within the round the epoch stays
  have hstay : w.epoch = g.round.epoch → PartyOk p (g.ledger g.round.keyParty.other) g.round.e w
      ((c.afterReceive p kem g.round.keyParty.other message s).st
        g.round.keyParty.other) := by
    intro hw
    have hn' := hout.epoch_eq hw le_rfl (Nat.le_succ _)
    rwa [hn'] at hok
  rcases hcases with hside' | ⟨hct2, hside'⟩ | ⟨enc, hdone, hlt, henc, rfl⟩
  · exact ⟨g.round, h.received h.round le_rfl h.current ⟨v₁, hkside, hparty1⟩
      ⟨w, hside', hstay hside'.epoch_eq⟩ (fun _ _ h => h) hnone⟩
  · refine ⟨{ g.round with ct2 := true }, h.received ⟨h.round.pos, h.round.lt, h.round.enc⟩ le_rfl
      h.current ⟨v₁, hkside.withCt2, hparty1⟩ ⟨w, hside', hstay hside'.epoch_eq⟩
      (fun _ _ hm => hm.grow ?_) hnone⟩
    exact ⟨rfl, rfl, rfl, fun _ h => h, fun _ h => h, fun _ => rfl, id⟩
  · -- the next round begins with the roles changed
    have hkeyEpoch : g.round.keyEpoch = g.round.e + 1 := by rw [Round.keyEpoch, hdone]; rfl
    have hepoch := g.round.next_epoch (p := p) enc
    refine ⟨g.round.next p enc, h.received ⟨Nat.le_add_left _ _, hlt, nofun⟩ (Nat.le_succ _)
      (h.later _ (Nat.lt_succ_self _))
      ⟨.keysUnsampled { epoch := g.round.epoch + 1, auth := g.round.nextAuth p enc }, ?_, ?_⟩
      ⟨v₁, hkside.next_round hdone henc, ?_⟩ (fun _ _ hm => hm.next_round h.round enc) hnone⟩
    · rw [← hepoch]
      exact .keysUnsampled rfl rfl
    · have hn' := hout.epoch_eq hepoch.symm (Nat.le_succ _) le_rfl
      rw [hn', ← hepoch] at hok
      rw [← hepoch]
      exact hok
    · show PartyOk p (g.ledger g.round.keyParty.other.other) _ _
        (Config.st _ g.round.keyParty.other.other)
      rw [Party.other_other]
      rwa [hkeyEpoch] at hparty1

/-! ## Runs -/

/-- The steps of a run keep the invariant. A send takes at most one key, in the epoch its party
is in. -/
theorem Joint.step (h : Joint p kem g c) (laws : KemLaws kem) {e : ExchangeEvent} {c' : Config}
    (hstep : Exchange p kem c e c') :
    ∃ g', Joint p kem g' c' ∧ (g'.taken = g.taken ∨ ∃ x rnd n v, e = .send x rnd ∧
      PartyOk p (g.ledger x) n v (c.st x) ∧ n < 2 ^ 64 ∧ g'.taken = g.take x (n - 1)) := by
  cases hstep with
  | send x rnd =>
    rcases g.round.keyParty.eq_or_other x with rfl | rfl
    · obtain ⟨v, -, hparty⟩ := h.key
      obtain ⟨g', hg', htaken⟩ := h.send_key rnd
      exact ⟨g', hg', htaken.cases.imp_right fun ht => ⟨_, rnd, _, v, rfl, hparty, ht⟩⟩
    · obtain ⟨v, -, hparty⟩ := h.ct
      obtain ⟨g', hg', htaken⟩ := h.send_ct rnd
      exact ⟨g', hg', htaken.cases.imp_right fun ht => ⟨_, rnd, _, v, rfl, hparty, ht⟩⟩
  | @receive x message salt salt' s hmem hrecv =>
    rcases g.round.keyParty.eq_or_other x with rfl | rfl
    · obtain ⟨r, hr⟩ := h.receive_key laws hmem hrecv
      exact ⟨_, hr, .inl rfl⟩
    · rw [Party.other_other] at hmem
      obtain ⟨r, hr⟩ := h.receive_ct laws hmem hrecv
      exact ⟨_, hr, .inl rfl⟩

/-- The party in the role of the key or of the ciphertext. -/
theorem Joint.party (h : Joint p kem g c) (x : Party) :
    ∃ n v, PartyOk p (g.ledger x) n v (c.st x) := by
  rcases g.round.keyParty.eq_or_other x with rfl | rfl
  · obtain ⟨v, -, hparty⟩ := h.key
    exact ⟨_, v, hparty⟩
  · obtain ⟨v, -, hparty⟩ := h.ct
    exact ⟨_, v, hparty⟩

/-- **No message of the peer is refused**, as long as the epoch has not wrapped. -/
theorem Joint.accepts (h : Joint p kem g c) (laws : KemLaws kem) (hv : (c.st x).v1 = some v)
    (hepoch : v.epoch ≠ 0) (hmem : (message, salt) ∈ c.sent x.other) :
    ∃ msg idx out, message = msg.serialize idx ∧ msg.WellFormed ∧ msg.epoch ≠ 0 ∧
      v.recv p kem msg = .ok out := by
  obtain ⟨msg, idx, hser, hwf, hpos, hmsg, -⟩ := h.msgs _ _ _ hmem
  have hne : msg.epoch ≠ 0 := by
    intro hzero
    rw [hzero] at hpos
    cases hpos
  obtain ⟨v₁, hkside, hparty1⟩ := h.key
  obtain ⟨v2, hct, hparty2⟩ := h.ct
  rcases g.round.keyParty.eq_or_other x with rfl | rfl
  · cases hv.symm.trans hparty1.state
    have hlt : g.round.done = true → g.round.e + 1 < 2 ^ 64 := by
      intro hdone
      have hle := hparty1.handshake.le
      have hv' := hparty1.handshake.epoch
      rw [Round.keyEpoch, if_pos hdone] at hle hv'
      refine lt_of_le_of_ne hle fun heq => hepoch ?_
      rw [hv', heq]
      rfl
    obtain ⟨out, hout, -⟩ := hkside.recv laws h.round hlt g.round.keyParty.other_ne hmsg
    exact ⟨msg, idx, out, hser, hwf, hne, hout⟩
  · cases hv.symm.trans hparty2.state
    rw [Party.other_other] at hmsg
    obtain ⟨w, hout, -⟩ := hct.recv laws h.round hkside.ct2_of_done hmsg
    exact ⟨msg, idx, _, hser, hwf, hne, hout⟩

/-- The ghost data at the start. -/
def Shared.start (p : Prims) (authKey : Bytes) : Shared where
  round := {
    e := 1
    keyParty := .initiator
    auth := newAuthenticator p authKey 1
    seed := none
    enc := none
    ct2 := false
    done := false }
  okm _ := startOkm p authKey
  secret _ := none
  taken _ _ := 0

/-- Two new states with the same key meet the invariant. -/
theorem joint_start {authKey : Bytes} {params params' : ChainParams} {a b : State}
    (ha : newState p authKey directionA2B params = .ok a)
    (hb : newState p authKey directionB2A params' = .ok b) :
    Joint p kem (Shared.start p authKey) (Config.start a b) := by
  obtain ⟨va, hva, hpa⟩ := newState_partyOk (.inl rfl) ha
  obtain ⟨vb, hvb, hpb⟩ := newState_partyOk (.inr rfl) hb
  have hkey : authKey.length ≠ 0 := by
    intro hzero
    rw [newState, newStateWithMinVersion, if_pos hzero] at ha
    cases ha
  obtain ⟨dec, hdec, -⟩ := newPolyDecoder_ok hdrMessageSize (by decide)
  have hva' : va = .keysUnsampled { epoch := 1, auth := newAuthenticator p authKey 1 } := by
    rw [initV1StateForDirection, if_neg (by decide), initV1StateA, newUnchunkedKeysUnsampled,
      if_neg hkey] at hva
    cases hva
    rfl
  have hvb' : vb = .noHeaderReceived { epoch := 1, auth := newAuthenticator p authKey 1 } dec := by
    rw [initV1StateForDirection, if_pos rfl, initV1StateB, newUnchunkedNoHeaderReceived,
      if_neg hkey, ok_bind, show mlkemHeaderSize + authenticatorMacSize = hdrMessageSize from rfl,
      hdec] at hvb
    cases hvb
    rfl
  subst hva' hvb'
  refine ⟨⟨le_rfl, show 1 < 2 ^ 64 by decide, ?_⟩, Ledger.start_sized (p := p) authKey directionA2B,
    ⟨_, .keysUnsampled rfl rfl, hpa⟩, ⟨_, .idle rfl rfl hdec, hpb⟩, rfl, fun _ _ => rfl, ?_, ?_, ?_⟩
  · intro e henc
    cases henc
  · intro i secret hsecret
    cases hsecret
  · intro x message salt hsent
    cases hsent
  · intro x k hk
    cases hk

end

end SignalGo.Spqr
