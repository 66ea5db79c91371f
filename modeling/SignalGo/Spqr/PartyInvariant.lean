import SignalGo.Spqr.ChainKeys
import SignalGo.Spqr.Transitions

/-!
# The invariant of one party

Handshake and chain of one party fit together, whatever messages come in: the chain has a link for
every epoch whose secret was made, and the epoch a message is sent in is one the chain can serve.

The ledger of a party holds what the key derivations of its epochs gave and how many keys were
taken for sending. It is ghost data: two parties agree when their ledgers do.

* `PartyOk`: the invariant, for the epoch number `n` counted without wrapping.
* `PartyOk.send`: a send fails only with the randomness or behind the last epoch.
* `PartyOk.receive`: what a successful receive does.
-/

namespace SignalGo.Spqr

open Function

variable (p : Prims) (kem : Kem)

/-! ## The ledger -/

/-- What the key derivation of each epoch gave, and the number of keys taken for sending. -/
structure Ledger where
  dir : Direction
  okm : Nat → Bytes
  sent : Nat → Nat

variable {e : Nat}

namespace Ledger

/-- The sending and the receiving seed of an epoch. -/
def seeds (l : Ledger) (e : Nat) : Bytes × Bytes := chainSeedsForDirection (l.okm e) l.dir

/-- The root behind an epoch. -/
def root (l : Ledger) (e : Nat) : Key := .ofBytes 32 ((l.okm e).take 32)

/-- One more key for sending in an epoch. -/
def takeKey (l : Ledger) (e : Nat) : Ledger :=
  { l with sent := update l.sent e (l.sent e + 1) }

/-- The derivation of epoch `e` from a new secret, if there is one. -/
def derive (l : Ledger) (e : Nat) : Option EpochSecret → Ledger
  | none => l
  | some key => { l with okm := update l.okm e (epochOkm p (l.root (e - 1)) key.secret) }

/-- The derivations have their length. -/
def Sized (l : Ledger) : Prop := ∀ e, (l.okm e).length = 96

variable {l : Ledger}

theorem Sized.seedsOk (h : l.Sized) : SeedsOk l.seeds :=
  fun e => length_chainSeeds (h e) l.dir

theorem Sized.takeKey (h : l.Sized) (e : Nat) : (l.takeKey e).Sized := h

theorem Sized.derive (h : l.Sized) (e : Nat) (key : Option EpochSecret) :
    (l.derive p e key).Sized := by
  cases key with
  | none => exact h
  | some key =>
    intro i
    rcases eq_or_ne i e with rfl | hne
    · simp [Ledger.derive, epochOkm]
    · simpa [Ledger.derive, update_of_ne hne] using h i

@[simp] theorem derive_none (l : Ledger) (e : Nat) : l.derive p e none = l := rfl

@[simp] theorem derive_dir (l : Ledger) (e : Nat) (key : Option EpochSecret) :
    (l.derive p e key).dir = l.dir := by
  cases key <;> rfl

@[simp] theorem derive_sent (l : Ledger) (e : Nat) (key : Option EpochSecret) :
    (l.derive p e key).sent = l.sent := by
  cases key <;> rfl

theorem derive_okm_of_ne (l : Ledger) {i : Nat} (h : i ≠ e) (key : Option EpochSecret) :
    (l.derive p e key).okm i = l.okm i := by
  cases key with
  | none => rfl
  | some key => exact update_of_ne h _ _

theorem derive_seeds_of_ne (l : Ledger) {i : Nat} (h : i ≠ e) (key : Option EpochSecret) :
    (l.derive p e key).seeds i = l.seeds i := by
  rw [seeds, derive_okm_of_ne p l h, derive_dir]
  rfl

end Ledger

/-! ## The chain of a party -/

/-- The chain holds the keys of the ledger up to the epoch `cur`. -/
structure ChainAt (l : Ledger) (base cur snd : Nat) (c : Chain) : Prop where
  dir : c.dir = l.dir
  root : c.nextRoot = l.root cur
  fresh : ∀ e, cur < e → l.sent e = 0
  links : ChainOk p l.seeds l.sent base cur snd c

variable {epoch : UInt64}

namespace ChainAt

variable {p} {l : Ledger} {base cur snd : Nat} {c : Chain}

/-- Later epochs of the ledger do not matter. -/
theorem derive (h : ChainAt p l base cur snd c) (he : cur < e) (key : Option EpochSecret) :
    ChainAt p (l.derive p e key) base cur snd c where
  dir := by rw [h.dir, Ledger.derive_dir]
  root := by rw [h.root, Ledger.root, Ledger.root, Ledger.derive_okm_of_ne p l (by omega)]
  fresh i hi := by
    rw [Ledger.derive_sent]
    exact h.fresh i hi
  links := h.links.congr (fun i hi => Ledger.derive_seeds_of_ne p l (by omega) key)
    (fun i _ => by rw [Ledger.derive_sent])

theorem addEpoch (h : ChainAt p l base cur snd c) (key : EpochSecret)
    (hepoch : key.epoch.toNat = cur + 1) (hnear : cur ≤ snd + 1) :
    ∃ c', c.addEpoch p key.epoch key.secret = .ok c' ∧
      ChainAt p (l.derive p (cur + 1) (some key)) base (cur + 1) snd c' := by
  have hokm : (l.derive p (cur + 1) (some key)).okm (cur + 1)
      = epochOkm p c.nextRoot key.secret := by
    rw [h.root]
    exact update_self _ _ _
  have h' := h.derive (Nat.lt_succ_self cur) (some key)
  obtain ⟨c', hc', hok, hdir, hroot, -⟩ := h'.links.addEpoch key.secret hepoch
    (by have := h.links.base_eq; omega) (by rw [Ledger.seeds, hokm, h'.dir])
    (h'.fresh _ (Nat.lt_succ_self cur))
  refine ⟨c', hc', hdir.trans h'.dir, ?_, fun e he => h'.fresh e (by omega), hok⟩
  rw [hroot, Ledger.root, hokm]

theorem sendKey (h : ChainAt p l base cur snd c) (hl : l.Sized) (epoch : UInt64)
    (hs : snd ≤ epoch.toNat) (hc : epoch.toNat ≤ cur) :
    ∃ c' base', c.sendKey p epoch
        = (c', .ok (UInt32.ofNat (l.sent epoch.toNat + 1),
            (keyAt p (l.seeds epoch.toNat).1 (l.sent epoch.toNat + 1)).toBytes)) ∧
      ChainAt p (l.takeKey epoch.toNat) base' cur epoch.toNat c' := by
  obtain ⟨c', base', hc', hok, hroot⟩ := h.links.sendKey hl.seedsOk hs hc
  refine ⟨c', base', hc', hroot.dir.trans h.dir, hroot.nextRoot.trans h.root, ?_, hok⟩
  intro e he
  exact (update_of_ne (by omega) _ _).trans (h.fresh e he)

theorem recvKey (h : ChainAt p l base cur snd c) (hl : l.Sized) {index : UInt32} {key : Bytes}
    {c' : Chain} (hkey : c.recvKey p epoch index = .ok (key, c')) :
    epoch.toNat ≤ cur ∧ key = (keyAt p (l.seeds epoch.toNat).2 index.toNat).toBytes ∧
      ChainAt p l base cur snd c' := by
  obtain ⟨hle, hval, hok, hroot⟩ := h.links.recvKey hl.seedsOk hkey
  exact ⟨hle, hval, hroot.dir.trans h.dir, hroot.nextRoot.trans h.root, h.fresh, hok⟩

end ChainAt

/-! ## The invariant -/

/-- The last epoch whose secret the party has. -/
def V1States.chainEpoch (v1 : V1States) (n : Nat) : Nat := if v1.sampled then n else n - 1

/-- The chain of a party in epoch `n`, whose last send was in this epoch or the one before. -/
def ChainPart (l : Ledger) (n : Nat) (v1 : V1States) (c : Chain) : Prop :=
  ∃ base snd, ChainAt p l base (v1.chainEpoch n) snd c ∧ snd + 1 ≤ n ∧ n ≤ snd + 2 ∧
    (v1.spoke = true → snd + 1 = n)

/-- A party that has not received anything yet may have no chain. -/
structure NoChain (l : Ledger) (n : Nat) (v1 : V1States) (vn : VersionNegotiation) : Prop where
  dir : vn.direction = l.dir
  start : l.okm 0 = startOkm p vn.authKey
  fresh : ∀ e, l.sent e = 0
  first : n = 1
  unanswered : v1.unanswered = true

/-- The chain, or that there is none yet. -/
def ChainSide (l : Ledger) (n : Nat) (v1 : V1States) (s : State) : Prop :=
  (∃ c, s.chain = some c ∧ ChainPart p l n v1 c) ∨
    (s.chain = none ∧ ∃ vn, s.negotiation = some vn ∧ NoChain p l n v1 vn)

structure VersionNegotiation.Valid (vn : VersionNegotiation) : Prop where
  authKey : vn.authKey.length ≠ 0
  direction : vn.direction = directionA2B ∨ vn.direction = directionB2A
  minVersion : vn.minVersion ≤ versionV1

/-- The handshake is in epoch `n`. Its epoch number wraps to zero behind the last epoch, where the
party only waits. -/
structure HandshakeAt (n : Nat) (v1 : V1States) : Prop where
  valid : v1.Valid
  epoch : v1.epoch = UInt64.ofNat n
  pos : 1 ≤ n
  le : n ≤ 2 ^ 64
  wrap : n = 2 ^ 64 → v1.waiting = true

/-- The invariant of a party whose handshake is in epoch `n`. -/
structure PartyOk (l : Ledger) (n : Nat) (v1 : V1States) (s : State) : Prop where
  version : s.version = versionV1
  state : s.v1 = some v1
  handshake : HandshakeAt n v1
  negotiation : ∀ vn, s.negotiation = some vn → vn.Valid
  chain : ChainSide p l n v1 s

section

variable {p kem} {l : Ledger} {n : Nat} {v1 : V1States} {s : State}

theorem HandshakeAt.toNat_epoch (h : HandshakeAt n v1) (hn : n < 2 ^ 64) : v1.epoch.toNat = n := by
  rw [h.epoch, UInt64.toNat_ofNat']
  exact Nat.mod_eq_of_lt hn

theorem sampled_of_unanswered (h : v1.unanswered = true) : v1.sampled = false := by
  cases v1 <;> first | rfl | cases h

theorem sampled_of_waiting (h : v1.waiting = true) : v1.sampled = false ∧ v1.spoke = false := by
  cases v1 <;> first | exact ⟨rfl, rfl⟩ | cases h

/-- The chain made from the negotiation data. -/
theorem NoChain.newChain {vn : VersionNegotiation} (h : NoChain p l n v1 vn) :
    ∃ c, chainFromNegotiation p vn = .ok c ∧ ChainPart p l n v1 c := by
  have hcur : v1.chainEpoch n = 0 := by
    simp [V1States.chainEpoch, sampled_of_unanswered h.unanswered, h.first]
  have hseeds : l.seeds 0 = chainSeedsForDirection (startOkm p vn.authKey) vn.direction := by
    rw [Ledger.seeds, h.start, h.dir]
  obtain ⟨c, hc, hok, hdir, hroot, -⟩ := newChain_ok vn.authKey vn.direction vn.chainParams hseeds
    (h.fresh 0)
  have hfirst := h.first
  refine ⟨c, hc, 0, 0, ?_, by omega, by omega, fun _ => by omega⟩
  rw [hcur]
  refine ⟨hdir.trans h.dir, ?_, fun e _ => h.fresh e, hok⟩
  rw [hroot, Ledger.root, h.start]

variable {c : Chain}

/-- The chain takes up the secret of the epoch, if it was just made. -/
theorem ChainAt.addKey {base snd : Nat} (h : ChainAt p l base (v1.chainEpoch n) snd c)
    (hh : HandshakeAt n v1) (hn : n < 2 ^ 64) (hnear : n ≤ snd + 2) {key : Option EpochSecret}
    (sampled : Bool) (hkey : (key = none ∧ sampled = v1.sampled) ∨
      ∃ secret, key = some { epoch := v1.epoch, secret } ∧ v1.sampled = false
      ∧ sampled = true) :
    ∃ c', addReceivedEpoch p c key = .ok c' ∧
      ChainAt p (l.derive p n key) base (if sampled then n else n - 1) snd c' := by
  rcases hkey with ⟨rfl, rfl⟩ | ⟨secret, rfl, hfalse, rfl⟩
  · exact ⟨c, rfl, h⟩
  · have hpos := hh.pos
    rw [V1States.chainEpoch, hfalse, if_neg Bool.false_ne_true] at h
    have hsucc : n - 1 + 1 = n := by omega
    obtain ⟨c', hc', hok⟩ := h.addEpoch { epoch := v1.epoch, secret }
      (by rw [hsucc]; exact hh.toNat_epoch hn) (by omega)
    rw [hsucc] at hok
    exact ⟨c', hc', hok⟩

theorem toNat_epoch_sub_one (h : epoch.toNat = n) (hpos : 1 ≤ n) :
    (epoch - 1).toNat = n - 1 := by
  rw [UInt64.toNat_sub_of_le _ _ (UInt64.le_iff_toNat_le.mpr (by rw [h]; exact hpos)), h]
  rfl

variable {out : V1Send}

/-- The chain's part of a send. -/
theorem ChainPart.send (h : ChainPart p l n v1 c) (hl : l.Sized) (hh : HandshakeAt n v1)
    (hn : n < 2 ^ 64) (he : SendEffect v1 out) :
    ∃ c1 c2, addReceivedEpoch p c out.key = .ok c1 ∧
      c1.sendKey p (out.msg.epoch - 1) = (c2, .ok (UInt32.ofNat (l.sent (n - 1) + 1),
        (keyAt p (l.seeds (n - 1)).1 (l.sent (n - 1) + 1)).toBytes)) ∧
      ChainPart p ((l.derive p n out.key).takeKey (n - 1)) n out.state c2 := by
  obtain ⟨base, snd, hat, hle, hnear, -⟩ := h
  have hpos := hh.pos
  have hepoch : (out.msg.epoch - 1).toNat = n - 1 := by
    rw [he.msgEpoch]
    exact toNat_epoch_sub_one (hh.toNat_epoch hn) hpos
  obtain ⟨c1, hc1, hat1⟩ := hat.addKey hh hn hnear _ he.key
  obtain ⟨c2, base', hc2, hat2⟩ := hat1.sendKey (hl.derive p n out.key) (out.msg.epoch - 1)
    (by omega) (by rw [hepoch]; split <;> omega)
  rw [hepoch, Ledger.derive_sent, Ledger.derive_seeds_of_ne p l (by omega)] at hc2
  rw [hepoch] at hat2
  exact ⟨c1, c2, hc1, hc2, base', n - 1, hat2, by omega, by omega, fun _ => by omega⟩

/-- What a successful send returns beside the message: no salt while there is no chain, and the
next key of the epoch with a chain. -/
inductive SendSalt (p : Prims) (l : Ledger) (n : Nat) (s : State) (out : V1Send) :
    UInt32 → Bytes → Ledger → Prop
  | silent : s.chain = none → n = 1 → out.key = none → SendSalt p l n s out 0 [] l
  | keyed : SendSalt p l n s out (UInt32.ofNat (l.sent (n - 1) + 1))
      (keyAt p (l.seeds (n - 1)).1 (l.sent (n - 1) + 1)).toBytes
      ((l.derive p n out.key).takeKey (n - 1))

variable {salt : Bytes}

/-- A send with a chain. -/
theorem sendOn_ok {c1 c2 : Chain} {idx : UInt32} (hchain : s.chainForSend p = .ok (some c))
    (hepoch : out.msg.epoch ≠ 0) (hadd : addReceivedEpoch p c out.key = .ok c1)
    (hsend : c1.sendKey p (out.msg.epoch - 1) = (c2, .ok (idx, salt))) :
    s.sendV1 p out = ({ s with v1 := some out.state, chain := some c2 },
      .ok (out.msg.serialize idx, salt)) := by
  have hon : s.sendOn p c1 out = ({ s with v1 := some out.state, chain := some c2 },
      .ok (out.msg.serialize idx, salt)) := by
    rw [State.sendOn, if_neg hepoch, hsend]
  unfold State.sendV1
  rw [hchain]
  cases hkey : out.key with
  | none =>
    rw [hkey] at hadd
    cases hadd
    exact hon
  | some key =>
    rw [hkey] at hadd
    simp only [show c.addEpoch p key.epoch key.secret = .ok c1 from hadd]
    exact hon

theorem PartyOk.send_error (h : PartyOk p l n v1 s) {rnd : Rand} {v1' : V1States} {e : Err}
    (hsend : v1.send p kem rnd = (v1', .error e)) :
    s.send p kem rnd = ({ s with v1 := some v1' }, .error (.err e)) := by
  rw [State.send, if_neg (by rw [h.version]; decide)]
  simp only [h.state, hsend]

theorem PartyOk.send_ok (h : PartyOk p l n v1 s) {rnd : Rand} {v1' : V1States}
    (hsend : v1.send p kem rnd = (v1', .ok out)) :
    s.send p kem rnd = State.sendV1 p { s with v1 := some v1' } out := by
  rw [State.send, if_neg (by rw [h.version]; decide)]
  simp only [h.state, hsend]

/-- After a send the handshake is in the same epoch. -/
theorem HandshakeAt.send (h : HandshakeAt n v1) (hn : n < 2 ^ 64) (he : SendEffect v1 out) :
    HandshakeAt n out.state :=
  ⟨he.valid, he.epoch.trans h.epoch, h.pos, h.le, fun hw => by omega⟩

/-- The chain for a send, or none while that is allowed. -/
theorem ChainSide.forSend (h : ChainSide p l n v1 s) :
    (∃ c, s.chainForSend p = .ok (some c) ∧ ChainPart p l n v1 c) ∨
      (s.chainForSend p = .ok none ∧ s.chain = none ∧
        ∃ vn, s.negotiation = some vn ∧ NoChain p l n v1 vn) := by
  rcases h with ⟨c, hc, hpart⟩ | ⟨hc, vn, hvn, hno⟩
  · exact .inl ⟨c, by rw [State.chainForSend, hc], hpart⟩
  · by_cases hmin : vn.minVersion ≤ versionDisabled
    · refine .inr ⟨?_, hc, vn, hvn, hno⟩
      simp only [State.chainForSend, hc, hvn, if_pos hmin]
    · obtain ⟨c, hnew, hpart⟩ := hno.newChain
      refine .inl ⟨c, ?_, hpart⟩
      simp only [State.chainForSend, hc, hvn, if_neg hmin, hnew]
      rfl

/-- Behind the last epoch every send fails. -/
theorem PartyOk.send_wrapped (h : PartyOk p l n v1 s) (hn : n = 2 ^ 64) (kem : Kem) (rnd : Rand) :
    s.send p kem rnd = (s, .error (.err (.sentinel .spqrEpochOutOfRange))) := by
  have hwait := h.handshake.wrap hn
  have hstate := h.state
  have hepoch := h.handshake.epoch
  cases v1 with
  | noHeaderReceived uc dec =>
    rw [h.send_ok (show V1States.send p kem _ rnd = _ from rfl)]
    rcases h.chain with ⟨c, hc, -⟩ | ⟨-, vn, -, hno⟩
    · have hzero : uc.epoch = 0 := by
        rw [hn] at hepoch
        exact hepoch
      simp only [State.sendV1, State.chainForSend, hc, State.sendOn, plainMessage, hzero, if_true]
      rw [← hc, ← hstate]
    · have := hno.first
      omega
  | _ => cases hwait

/-- **Sending**: it fails only with the randomness or behind the last epoch, and then changes
nothing. -/
theorem PartyOk.send (h : PartyOk p l n v1 s) (hl : l.Sized) (kem : Kem) (rnd : Rand) :
    (∃ e k, rnd k = .error e ∧ v1.send p kem rnd = (v1, .error e) ∧
      s.send p kem rnd = (s, .error (.err e))) ∨
    (n = 2 ^ 64 ∧ (∃ v1' out, v1.send p kem rnd = (v1', .ok out) ∧ out.key = none) ∧
      s.send p kem rnd = (s, .error (.err (.sentinel .spqrEpochOutOfRange)))) ∨
    (n < 2 ^ 64 ∧ ∃ v1' out idx salt l' s', v1.send p kem rnd = (v1', .ok out) ∧
      SendEffect v1 out ∧ SendSalt p l n s out idx salt l' ∧
      s.send p kem rnd = (s', .ok (out.msg.serialize idx, salt)) ∧ PartyOk p l' n out.state s' ∧
      s'.negotiation = s.negotiation) := by
  rcases send_effect p kem rnd h.handshake.valid with
    ⟨e, k, hrnd, hsend⟩ | ⟨v1', out, hsend, he⟩
  · refine .inl ⟨e, k, hrnd, hsend, ?_⟩
    rw [h.send_error hsend, ← h.state]
  · rcases Nat.lt_or_ge n (2 ^ 64) with hn | hn
    · refine .inr (.inr ⟨hn, v1', out, ?_⟩)
      have hepoch : out.msg.epoch ≠ 0 := by
        intro hzero
        have := h.handshake.toNat_epoch hn
        rw [← he.msgEpoch, hzero] at this
        have := h.handshake.pos
        simp at *
        omega
      have hside : ChainSide p l n v1 { s with v1 := some v1' } := h.chain
      have heq := h.send_ok hsend
      rcases hside.forSend with ⟨c, hfor, hpart⟩ | ⟨hfor, hc, vn, hvn, hno⟩
      · obtain ⟨c1, c2, hadd, hkey, hpart'⟩ := hpart.send hl h.handshake hn he
        refine ⟨_, _, _, _, hsend, he, .keyed, heq.trans (sendOn_ok hfor hepoch hadd hkey), ?_, rfl⟩
        exact ⟨h.version, rfl, h.handshake.send hn he, h.negotiation, .inl ⟨c2, rfl, hpart'⟩⟩
      · -- without a chain the message has no salt
        obtain ⟨hnone, hun⟩ := he.unanswered hno.unanswered
        refine ⟨0, [], l, { s with v1 := some out.state }, hsend, he,
          .silent hc hno.first hnone, ?_, ?_, rfl⟩
        · rw [heq]
          simp only [State.sendV1, hfor, hnone]
        · refine ⟨h.version, rfl, h.handshake.send hn he, h.negotiation, .inr ⟨hc, vn, hvn, ?_⟩⟩
          exact ⟨hno.dir, hno.start, hno.fresh, hno.first, hun⟩
    · have hn' := le_antisymm h.handshake.le hn
      refine .inr (.inl ⟨hn', ⟨v1', out, hsend, ?_⟩, h.send_wrapped hn' kem rnd⟩)
      -- a waiting party makes no secret
      rcases he.key with ⟨hkey, -⟩ | ⟨secret, -, -, htrue⟩
      · exact hkey
      · have hwait := h.handshake.wrap hn'
        cases v1 with
        | noHeaderReceived uc dec =>
          cases hsend
          rfl
        | _ => cases hwait

/-! ## Receiving -/

/-- After a receive the handshake is in the same epoch or in the next one, and the chain has the
secret the receive made. -/
theorem ChainPart.receive (h : ChainPart p l n v1 c) (hh : HandshakeAt n v1) {msg : V1Message}
    {r : V1Recv} (hr : r.state.Valid ∧ RecvEffect v1 msg r) (hmsg : msg.epoch ≠ 0) :
    ∃ c' n', addReceivedEpoch p c r.key = .ok c' ∧ HandshakeAt n' r.state ∧
      ChainPart p (l.derive p n r.key) n' r.state c' ∧ n ≤ n' ∧ n' ≤ n + 1 := by
  obtain ⟨base, snd, hat, hle, hnear, hspoke⟩ := h
  obtain ⟨hvalid, heffect⟩ := hr
  have hpos := hh.pos
  cases heffect with
  | stay hkey hepoch hsampled hspoke' hle' =>
    -- behind the last epoch only messages of epoch zero are accepted
    have hn : n < 2 ^ 64 := by
      refine lt_of_le_of_ne hh.le fun hn => hmsg ?_
      rw [hh.epoch, hn] at hle'
      exact UInt64.toNat_inj.mp (Nat.le_zero.mp (UInt64.le_iff_toNat_le.mp hle'))
    refine ⟨c, n, by rw [hkey]; rfl,
      ⟨hvalid, hepoch.trans hh.epoch, hpos, hh.le, fun _ => by omega⟩,
      ⟨base, snd, ?_, hle, hnear, ?_⟩, by omega, by omega⟩
    · rw [hkey, V1States.chainEpoch, hsampled]
      exact hat
    · rw [hspoke']
      exact hspoke
  | @finish secret hkey hsampled hsp hepoch hwait hm =>
    have hn : n < 2 ^ 64 := by
      refine lt_of_le_of_ne hh.le fun hn => ?_
      rw [(sampled_of_waiting (hh.wrap hn)).2] at hsp
      cases hsp
    -- the party of the key goes on to the next epoch with the secret
    have hsnd := hspoke hsp
    obtain ⟨hsampled', hspoke'⟩ := sampled_of_waiting hwait
    obtain ⟨c', hc', hat'⟩ := hat.addKey hh hn hnear true
      (.inr ⟨secret, hkey, hsampled, rfl⟩)
    refine ⟨c', n + 1, hc', ⟨hvalid, ?_, by omega, by omega, fun _ => hwait⟩,
      ⟨base, snd, ?_, by omega, by omega, ?_⟩, by omega, by omega⟩
    · rw [hepoch, hh.epoch]
      exact (UInt64.ofNat_add n 1).symm
    · rw [V1States.chainEpoch, hsampled']
      exact hat'
    · rw [hspoke']
      nofun
  | next hkey hsampled hsp hepoch hsampled' hspoke' hlt hm =>
    -- the party of the ciphertext had the secret already
    have hsnd := hspoke hsp
    have hn : n + 1 < 2 ^ 64 := by
      have hn : n ≠ 2 ^ 64 := by
        intro hn
        rw [(sampled_of_waiting (hh.wrap hn)).2] at hsp
        cases hsp
      have hle := hh.le
      have hlt' := UInt64.lt_iff_toNat_lt.mp hlt
      rw [hh.toNat_epoch (by omega)] at hlt'
      have := msg.epoch.toNat_lt
      omega
    refine ⟨c, n + 1, by rw [hkey]; rfl, ⟨hvalid, ?_, by omega, by omega, fun _ => by omega⟩,
      ⟨base, snd, ?_, by omega, by omega, ?_⟩, by omega, by omega⟩
    · rw [hepoch, hh.epoch]
      exact (UInt64.ofNat_add n 1).symm
    · rw [V1States.chainEpoch, hsampled, if_pos rfl] at hat
      rw [hkey, V1States.chainEpoch, hsampled', if_neg Bool.false_ne_true]
      exact hat
    · rw [hspoke']
      nofun

/-- The salt of a received message: none for number zero of the first epoch, and the key of its
epoch and number otherwise. -/
inductive RecvSalt (p : Prims) (l : Ledger) (epoch : UInt64) (idx : UInt32) : Bytes → Prop
  | silent : epoch = 1 → idx = 0 → RecvSalt p l epoch idx []
  | keyed : epoch ≠ 1 ∨ idx ≠ 0 → RecvSalt p l epoch idx
      (keyAt p (l.seeds (epoch.toNat - 1)).2 idx.toNat).toBytes

theorem ChainPart.recvSalt {c' : Chain} (h : ChainPart p l n v1 c) (hl : l.Sized) {idx : UInt32}
    (hepoch : epoch ≠ 0) (hrecv : Spqr.recvSalt p c (epoch - 1) idx = .ok (salt, c')) :
    RecvSalt p l epoch idx salt ∧ ChainPart p l n v1 c' := by
  have hpos : 1 ≤ epoch.toNat :=
    Nat.pos_of_ne_zero fun h => hepoch (UInt64.toNat_inj.mp h)
  have hsub := toNat_epoch_sub_one rfl hpos
  have hone : epoch - 1 ≠ 0 ↔ epoch ≠ 1 := by
    rw [ne_eq, ne_eq, ← UInt64.toNat_inj, ← UInt64.toNat_inj, hsub]
    simp
    omega
  unfold Spqr.recvSalt at hrecv
  split at hrecv
  · rename_i hkeyed
    obtain ⟨base, snd, hat, hrest⟩ := h
    obtain ⟨-, rfl, hat'⟩ := hat.recvKey hl hrecv
    rw [hsub]
    exact ⟨.keyed (hkeyed.imp_left hone.mp), base, snd, hat', hrest⟩
  · rename_i hsilent
    obtain ⟨he, hi⟩ := not_or.mp hsilent
    cases hrecv
    exact ⟨.silent (not_not.mp (mt hone.mpr he)) (not_not.mp hi), h⟩

theorem ChainSide.forRecv (h : ChainSide p l n v1 s) :
    ∃ c, s.chainForRecv p = .ok c ∧ ChainPart p l n v1 c := by
  rcases h with ⟨c, hc, hpart⟩ | ⟨hc, vn, hvn, hno⟩
  · exact ⟨c, by rw [State.chainForRecv, hc], hpart⟩
  · obtain ⟨c, hnew, hpart⟩ := hno.newChain
    exact ⟨c, by simp only [State.chainForRecv, hc, hvn, hnew], hpart⟩

/-- What a successful receive of a version 1 message does. -/
structure ReceivedV1 (p : Prims) (kem : Kem) (l : Ledger) (n : Nat) (v1 : V1States)
    (message salt : Bytes) (msg : V1Message) (idx : UInt32) (r : V1Recv) (n' : Nat) (s' : State) :
    Prop where
  parsed : ∃ pos, deserializeV1Message message = .ok (msg, idx, pos)
  epoch : msg.epoch ≠ 0
  recv : v1.recv p kem msg = .ok r
  effect : RecvEffect v1 msg r
  salt : RecvSalt p (l.derive p n r.key) msg.epoch idx salt
  party : PartyOk p (l.derive p n r.key) n' r.state s'
  le : n ≤ n'
  le_succ : n' ≤ n + 1
  negotiation : s'.negotiation = none

/-- A version 1 message that is accepted keeps the invariant. -/
theorem PartyOk.receiveV1 (h : PartyOk p l n v1 s) (hl : l.Sized) {message : Bytes} {s' : State}
    (hrecv : s.receiveV1 p kem v1 message = .ok (s', salt)) :
    ∃ msg idx r n', ReceivedV1 p kem l n v1 message salt msg idx r n' s' := by
  obtain ⟨⟨msg, idx, pos⟩, hparse, hrecv⟩ := bind_eq_ok.mp hrecv
  obtain ⟨r, hr, hrecv⟩ := bind_eq_ok.mp hrecv
  rw [mapError_eq_ok] at hr
  split at hrecv
  · cases hrecv
  · rename_i hepoch
    obtain ⟨c, hfor, hrecv⟩ := bind_eq_ok.mp hrecv
    obtain ⟨c1, hadd, hrecv⟩ := bind_eq_ok.mp hrecv
    obtain ⟨⟨key, c2⟩, hsalt, hrecv⟩ := bind_eq_ok.mp hrecv
    rw [mapError_eq_ok] at hfor hadd
    cases hrecv
    obtain ⟨c', hfor', hpart⟩ := h.chain.forRecv
    rw [hfor] at hfor'
    cases hfor'
    have heffect := recv_effect h.handshake.valid hr
    obtain ⟨c1', n', hadd', hh', hpart', hle, hle'⟩ := hpart.receive h.handshake heffect hepoch
    rw [hadd] at hadd'
    cases hadd'
    obtain ⟨hsalt', hpart''⟩ := hpart'.recvSalt (hl.derive p n r.key) hepoch hsalt
    exact ⟨msg, idx, r, n', ⟨pos, hparse⟩, hepoch, hr, heffect.2, hsalt',
      ⟨h.version, rfl, hh', nofun, .inl ⟨c2, rfl, hpart''⟩⟩, hle, hle', rfl⟩

/-- **Receiving**: an unknown version is ignored, version zero may disable the party, and version
one is taken up by the handshake and the chain. -/
theorem PartyOk.receive (h : PartyOk p l n v1 s) (hl : l.Sized) {message : Bytes} {s' : State}
    (hrecv : s.receive p kem message = .ok (s', salt)) :
    (msgVersion message = none ∧ s' = s ∧ salt = []) ∨
    (msgVersion message = some versionDisabled ∧ s.negotiation ≠ none ∧ s' = .disabled ∧
      salt = []) ∨
    (msgVersion message = some versionV1 ∧
      ∃ msg idx r n', ReceivedV1 p kem l n v1 message salt msg idx r n' s') := by
  unfold State.receive at hrecv
  simp only [h.state] at hrecv
  cases hver : msgVersion message with
  | none =>
    simp only [hver] at hrecv
    cases hrecv
    exact .inl ⟨rfl, rfl, rfl⟩
  | some version =>
    simp only [hver] at hrecv
    have hcases : version = versionDisabled ∨ version = versionV1 := by
      unfold msgVersion at hver
      split at hver
      · exact .inl (Option.some.inj hver).symm
      · split at hver
        · rename_i hv
          exact (Option.some.inj hver) ▸ hv
        · cases hver
    unfold State.receiveVersion at hrecv
    rw [h.version, if_neg (by decide)] at hrecv
    rcases hcases with rfl | rfl
    · rw [if_pos (by decide)] at hrecv
      cases hvn : s.negotiation with
      | none =>
        simp only [hvn] at hrecv
        cases hrecv
      | some vn =>
        simp only [hvn] at hrecv
        split at hrecv
        · cases hrecv
        · cases hrecv
          exact .inr (.inl ⟨rfl, by simp, rfl, rfl⟩)
    · rw [if_neg (by decide), if_neg (by decide)] at hrecv
      exact .inr (.inr ⟨rfl, h.receiveV1 hl hrecv⟩)

/-! ## What the ledger is read for -/

theorem Ledger.derive_eq_self {key : EpochSecret}
    (h : l.okm e = epochOkm p (l.root (e - 1)) key.secret) : l.derive p e (some key) = l := by
  show { l with okm := update l.okm e (epochOkm p (l.root (e - 1)) key.secret) } = l
  rw [← h, update_eq_self]

/-- Epochs behind the ones the party has do not matter to it. -/
theorem PartyOk.derive (h : PartyOk p l n v1 s) (he : v1.chainEpoch n < e)
    (key : Option EpochSecret) : PartyOk p (l.derive p e key) n v1 s where
  version := h.version
  state := h.state
  handshake := h.handshake
  negotiation := h.negotiation
  chain := by
    rcases h.chain with ⟨c, hc, base, snd, hat, hrest⟩ | ⟨hc, vn, hvn, hno⟩
    · exact .inl ⟨c, hc, base, snd, hat.derive he key, hrest⟩
    · refine .inr ⟨hc, vn, hvn, ?_, ?_, ?_, hno.first, hno.unanswered⟩
      · rw [hno.dir, Ledger.derive_dir]
      · rw [Ledger.derive_okm_of_ne p l (by omega), hno.start]
      · intro i
        rw [Ledger.derive_sent]
        exact hno.fresh i

/-! ## The first state -/

/-- The ledger of a party that has derived nothing but its start. -/
def Ledger.start (p : Prims) (authKey : Bytes) (dir : Direction) : Ledger where
  dir := dir
  okm _ := startOkm p authKey
  sent _ := 0

theorem Ledger.start_sized (authKey : Bytes) (dir : Direction) :
    (Ledger.start p authKey dir).Sized := fun _ => by
  simp [Ledger.start, startOkm]

/-- `initV1StateForDirection` for a key that is not empty. -/
theorem initV1State_ok {authKey : Bytes} (h : authKey.length ≠ 0) (dir : Direction) :
    ∃ v1, initV1StateForDirection p dir authKey = .ok v1 ∧ v1.Valid ∧ v1.epoch = 1 ∧
      v1.unanswered = true := by
  unfold initV1StateForDirection
  split
  · obtain ⟨dec, hdec, hawaits⟩ := newPolyDecoder_ok hdrMessageSize (by decide)
    refine ⟨.noHeaderReceived { epoch := 1, auth := newAuthenticator p authKey 1 } dec, ?_,
      hawaits, rfl, rfl⟩
    rw [initV1StateB, newUnchunkedNoHeaderReceived, if_neg h, ok_bind]
    rw [show mlkemHeaderSize + authenticatorMacSize = hdrMessageSize from rfl, hdec]
    rfl
  · refine ⟨.keysUnsampled { epoch := 1, auth := newAuthenticator p authKey 1 }, ?_, trivial, rfl,
      rfl⟩
    rw [initV1StateA, newUnchunkedKeysUnsampled, if_neg h]
    rfl

/-- **A new state satisfies the invariant.** -/
theorem newState_partyOk {authKey : Bytes} {dir : Direction} {params : ChainParams}
    {minVersion : Version} (hdir : dir = directionA2B ∨ dir = directionB2A)
    (h : newStateWithMinVersion p authKey dir params minVersion = .ok s) :
    ∃ v1, initV1StateForDirection p dir authKey = .ok v1 ∧
      PartyOk p (Ledger.start p authKey dir) 1 v1 s := by
  unfold newStateWithMinVersion at h
  split at h
  · cases h
  · rename_i hkey
    split at h
    · cases h
    · rename_i hver
      obtain ⟨v1, hv1, h⟩ := bind_eq_ok.mp h
      cases h
      obtain ⟨v1', hv1', hvalid, hepoch, hun⟩ := initV1State_ok (p := p) hkey dir
      rw [hv1] at hv1'
      cases hv1'
      have hvn : VersionNegotiation.Valid
          { authKey, direction := dir, minVersion, chainParams := params } :=
        ⟨hkey, hdir, by simpa using hver⟩
      refine ⟨v1, hv1, rfl, rfl, ⟨hvalid, hepoch, le_rfl, by omega, fun hn => by omega⟩, ?_, ?_⟩
      · intro vn heq
        exact Option.some.inj heq ▸ hvn
      · exact .inr ⟨rfl, _, rfl, rfl, rfl, fun _ => rfl, rfl, hun⟩

end

end SignalGo.Spqr
