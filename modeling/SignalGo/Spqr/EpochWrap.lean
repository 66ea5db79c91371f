import SignalGo.Spqr.Lockstep
import SignalGo.Spqr.RoundRun

/-!
# The last epoch

Two parties that take turns get from epoch to epoch, until the `uint64` epoch number wraps to
zero. There `Send` fails, and the two epoch numbers are no longer next to each other.

* `Chain.Receives`: how far the receiving side of each link has counted.
* `Synced.turn`: a turn of the two handshakes is a send and a receive of the two states.
* `spqr_lockstep`: up to the last epoch the two parties stay together.
* `spqr_lockstep_wraps`: behind it they do not.
-/

namespace SignalGo.Spqr

open Function

variable {p : Prims} {kem : Kem}

/-! ## The receiving counters

A message is received by its number, so that a receive succeeds when its number is ahead of the
counter of the link and not too far ahead. The links are looked at from the newest on: a send drops
links at the other end. -/

/-- The receiving sides of the links, newest first. -/
def Chain.recvs (c : Chain) : List ChainEpochDirection := (c.links.map ChainEpoch.recv).reverse

/-- The link of epoch `e` has counted up to `cap e` at most, and a thousand messages may be
skipped. -/
structure Chain.Receives (c : Chain) (cap : Nat → Nat) : Prop where
  atMost : ∀ j d, c.recvs[j]? = some d → d.ctr.toNat ≤ cap (c.currentEpoch.toNat - j)
  room : 1000 ≤ c.params.maxJump.toNat

variable {cap' : Nat → Nat} {epoch : UInt64} {authKey : Bytes}

variable {c : Chain} {cap : Nat → Nat}

namespace Chain

theorem recvs_getElem? (c : Chain) {j : Nat} (hj : j < c.links.length) :
    c.recvs[j]? = c.links[c.links.length - 1 - j]?.map ChainEpoch.recv := by
  rw [recvs, List.getElem?_reverse (by rwa [List.length_map]), List.getElem?_map, List.length_map]

theorem Receives.mono (h : c.Receives cap) (hle : ∀ e, cap e ≤ cap' e) : c.Receives cap' :=
  ⟨fun j d hd => (h.atMost j d hd).trans (hle _), h.room⟩

variable {c' : Chain}

/-- Old links may go, and the sending sides do not matter. -/
theorem Receives.of_prefix (h : c.Receives cap) (hpre : c'.recvs <+: c.recvs)
    (hcur : c'.currentEpoch = c.currentEpoch) (hparams : c'.params = c.params) :
    c'.Receives cap := by
  obtain ⟨old, hold⟩ := hpre
  refine ⟨fun j d hd => ?_, hparams ▸ h.room⟩
  have hj := (List.getElem?_eq_some_iff.mp hd).1
  rw [hcur]
  refine h.atMost j d ?_
  rw [← hold, List.getElem?_append_left hj, hd]

/-! ### A send keeps them -/

variable {links : List ChainEpoch} {idx : Int}

/-- Links are dropped at the front only. -/
theorem trimLinks_suffix {links' : List ChainEpoch} {idx' : Int}
    (h : trimLinks links idx = some (links', idx')) : links' <:+ links := by
  induction links generalizing idx with
  | nil =>
    rw [trimLinks] at h
    split at h
    · cases h
    · cases h
      exact List.suffix_rfl
  | cons link links ih =>
    rw [trimLinks] at h
    split at h
    · exact (ih h).trans (List.suffix_cons _ _)
    · cases h
      exact List.suffix_rfl

theorem clearSend_recv {links' : List ChainEpoch} (h : clearSend links idx = some links') :
    links'.map ChainEpoch.recv = links.map ChainEpoch.recv := by
  unfold clearSend at h
  split at h
  · cases h
  · cases h
    apply List.ext_getElem?
    intro i
    simp only [List.getElem?_map, List.getElem?_zipIdx]
    cases links[i]? with
    | none => rfl
    | some link =>
      simp only [Option.map_some]
      split <;> rfl

/-- The receiving sides that are left are the newest. -/
theorem moveSendEpoch_recvs {idx' : Int} (h : c.moveSendEpoch epoch idx = some (c', idx')) :
    c'.recvs <+: c.recvs ∧ c'.currentEpoch = c.currentEpoch ∧ c'.params = c.params := by
  unfold moveSendEpoch at h
  split at h
  · cases h
    exact ⟨List.prefix_rfl, rfl, rfl⟩
  · obtain ⟨⟨links, idx1⟩, htrim, h⟩ := Option.bind_eq_some_iff.mp h
    obtain ⟨links', hclear, h⟩ := Option.bind_eq_some_iff.mp h
    cases h
    refine ⟨?_, rfl, rfl⟩
    -- from the new end the links that are kept come first
    rw [recvs, recvs, List.reverse_prefix, clearSend_recv hclear]
    exact (trimLinks_suffix htrim).map _

theorem set_send_recv {link : ChainEpoch} (h : linkAt links idx = some link)
    (send : ChainEpochDirection) :
    (links.set idx.toNat { link with send }).map ChainEpoch.recv
      = links.map ChainEpoch.recv := by
  have hget : links[idx.toNat]? = some link := by
    unfold linkAt at h
    split at h
    · cases h
    · exact h
  apply List.ext_getElem?
  intro i
  rw [List.getElem?_map, List.getElem?_map, List.getElem?_set]
  split
  · rename_i heq
    rw [← heq, hget, if_pos (List.getElem?_eq_some_iff.mp hget).1]
    rfl
  · rfl

theorem sendKey_recvs {out : UInt32 × Bytes} (h : c.sendKey p epoch = (c', .ok out)) :
    c'.recvs <+: c.recvs ∧ c'.currentEpoch = c.currentEpoch ∧ c'.params = c.params := by
  unfold sendKey at h
  split at h
  · cases h
  · split at h
    · cases h
    · split at h
      · cases h
      · rename_i c1 idx1 hmove
        split at h
        · cases h
        · rename_i link hlink
          split at h
          · cases h
          · cases h
            obtain ⟨hpre, hcur, hparams⟩ := moveSendEpoch_recvs hmove
            refine ⟨?_, hcur, hparams⟩
            rwa [recvs, set_send_recv hlink]

/-- Sending counts no receiving side up. -/
theorem Receives.sendKey (h : c.Receives cap) {out : UInt32 × Bytes}
    (hsend : c.sendKey p epoch = (c', .ok out)) : c'.Receives cap := by
  obtain ⟨hpre, hcur, hparams⟩ := sendKey_recvs hsend
  exact h.of_prefix hpre hcur hparams

/-! ### New links have counted nothing -/

theorem receives_newChain {dir : Direction} {params : ChainParams}
    (h : newChain p authKey dir params = .ok c) (hroom : 1000 ≤ params.maxJump.toNat)
    (cap : Nat → Nat) : c.Receives cap := by
  obtain ⟨okm, -, h⟩ := bind_eq_ok.mp h
  cases h
  refine ⟨fun j d hd => ?_, hroom⟩
  have hmem := List.mem_of_getElem? hd
  have hd' : d = (newLink okm dir).recv := by simpa [recvs] using hmem
  rw [hd']
  exact Nat.zero_le _

/-- The receiving side of a new epoch has counted nothing yet. -/
theorem Receives.addEpoch (h : c.Receives cap) {secret : Bytes}
    (hadd : c.addEpoch p epoch secret = .ok c') (hepoch : epoch ≠ 0) :
    c'.Receives cap := by
  unfold Chain.addEpoch at hadd
  split at hadd
  · cases hadd
  · rename_i hnext
    obtain ⟨okm, -, hadd⟩ := bind_eq_ok.mp hadd
    cases hadd
    have hcur : epoch.toNat = c.currentEpoch.toNat + 1 := by
      have heq := congrArg UInt64.toNat (not_not.mp hnext)
      have hpos : epoch.toNat ≠ 0 := fun h => hepoch (UInt64.toNat_inj.mp h)
      rw [UInt64.toNat_add] at heq
      have := c.currentEpoch.toNat_lt
      simp at heq
      omega
    refine ⟨fun j d hd => ?_, h.room⟩
    have hrecvs : recvs { c with
        nextRoot := .ofBytes 32 (okm.take 32)
        currentEpoch := epoch
        links := c.links ++ [newLink okm c.dir] } = (newLink okm c.dir).recv :: c.recvs := by
      simp [recvs]
    rw [hrecvs] at hd
    cases j with
    | zero =>
      cases hd
      exact Nat.zero_le _
    | succ j =>
      rw [List.getElem?_cons_succ] at hd
      show d.ctr.toNat ≤ cap (epoch.toNat - (j + 1))
      rw [hcur, Nat.add_sub_add_right]
      exact h.atMost j d hd

theorem Receives.addReceivedEpoch (h : c.Receives cap) {key : Option EpochSecret}
    (hadd : addReceivedEpoch p c key = .ok c') (hkey : ∀ k, key = some k → k.epoch ≠ 0) :
    c'.Receives cap := by
  cases key with
  | none =>
    cases hadd
    exact h
  | some k => exact h.addEpoch hadd (hkey k rfl)

end Chain

/-! ### A receive ahead of the counter -/

section

variable {seeds : Nat → Bytes × Bytes} {sent : Nat → Nat} {base cur snd : Nat} {c : Chain}

/-- The link of an epoch, counted from the newest one. -/
theorem ChainOk.recvs_getElem? (h : ChainOk p seeds sent base cur snd c) {e : Nat}
    (hb : base ≤ e) (hc : e ≤ cur) {link : ChainEpoch} (hlink : c.links[e - base]? = some link) :
    c.recvs[cur - e]? = some link.recv := by
  have hlen := h.length
  rw [c.recvs_getElem? (by omega), show c.links.length - 1 - (cur - e) = e - base by omega, hlink]
  rfl

/-- **A key ahead**: `RecvKey` finds a key whose number is ahead of what the link has counted. -/
theorem ChainOk.recvKey_ahead (h : ChainOk p seeds sent base cur snd c) (hok : SeedsOk seeds)
    (hcap : c.Receives cap) (hb : base ≤ epoch.toNat) (hc : epoch.toNat ≤ cur) {index : UInt32}
    (hahead : cap epoch.toNat < index.toNat) (hjump : index.toNat ≤ 1000)
    (hmono : ∀ e, cap e ≤ cap' e) (hindex : index.toNat ≤ cap' epoch.toNat) :
    ∃ key c', c.recvKey p epoch index = .ok (key, c') ∧ c'.Receives cap' := by
  have hlen := h.length
  have hlt : epoch.toNat - base < c.links.length := by omega
  obtain ⟨link, hget⟩ : ∃ link, c.links[epoch.toNat - base]? = some link :=
    ⟨_, List.getElem?_eq_getElem hlt⟩
  have hl := h.links _ _ hget
  rw [Nat.add_sub_cancel' hb] at hl
  -- the counter of the link is behind the number
  have hctr : link.recv.ctr.toNat ≤ cap epoch.toNat := by
    have hat := hcap.atMost _ _ (h.recvs_getElem? hb hc hget)
    rwa [h.current, show cur - (cur - epoch.toNat) = epoch.toNat by omega] at hat
  have hbehind : link.recv.ctr < index := UInt32.lt_iff_toNat_lt.mpr (by omega)
  have hnear : ¬ c.params.maxJump < index - link.recv.ctr := by
    have hroom := hcap.room
    rw [UInt32.lt_iff_toNat_lt, UInt32.toNat_sub_of_le _ _ (UInt32.le_of_lt hbehind)]
    omega
  obtain ⟨d, hkey, -, hd, -⟩ := hl.recv.keyAhead c.params (hok _).2 hbehind hnear
  have hkey' : link.recv.key p index c.params =
      .ok (keyAt p (seeds epoch.toNat).2 index.toNat, d) := by
    rw [ChainEpochDirection.key, if_neg (by rw [UInt32.lt_iff_toNat_lt]; omega),
      if_neg (by rintro rfl; omega), hkey]
  have hlink : Chain.linkAt c.links ((epoch.toNat - base : Nat) : Int) = some link := by
    simpa [Chain.linkAt] using hget
  refine ⟨(keyAt p (seeds epoch.toNat).2 index.toNat).toBytes,
    { c with links := c.links.set (epoch.toNat - base) { link with recv := d } }, ?_, ?_⟩
  · rw [Chain.recvKey, h.epochIndex hb hc]
    simp only [Except.mapError, ok_bind, hlink, hkey', Int.toNat_natCast]
    rfl
  · refine ⟨fun j d' hd' => ?_, hcap.room⟩
    have hj := (List.getElem?_eq_some_iff.mp hd').1
    rw [Chain.recvs, List.length_reverse, List.length_map, List.length_set] at hj
    rw [Chain.recvs_getElem? _ (by rwa [List.length_set]), List.length_set,
      List.getElem?_set] at hd'
    split at hd'
    · -- the link of the message
      rename_i heq
      cases hd'
      show d.ctr.toNat ≤ cap' (c.currentEpoch.toNat - j)
      rwa [hd, h.current, show cur - j = epoch.toNat by omega]
    · refine (hcap.atMost j d' ?_).trans (hmono _)
      rwa [c.recvs_getElem? hj]

end

/-! ## The two states -/

/-- The receiving counters of a state, which may have to make its chain first. -/
structure State.Receives (s : State) (cap : Nat → Nat) : Prop where
  chain : ∀ c, s.chain = some c → c.Receives cap
  room : ∀ vn, s.negotiation = some vn → 1000 ≤ vn.chainParams.maxJump.toNat

variable {out : V1Send} {v : V1States}

namespace State

variable {s s' : State} {cap : Nat → Nat}

theorem Receives.forRecv (h : s.Receives cap) (hc : s.chainForRecv p = .ok c) :
    c.Receives cap := by
  unfold chainForRecv at hc
  split at hc
  · rename_i chain hchain
    cases hc
    exact h.chain c hchain
  · split at hc
    · cases hc
    · rename_i vn hvn
      exact Chain.receives_newChain hc (h.room vn hvn) cap

theorem Receives.forSend (h : s.Receives cap) (hc : s.chainForSend p = .ok (some c)) :
    c.Receives cap := by
  unfold chainForSend at hc
  split at hc
  · rename_i chain hchain
    cases hc
    exact h.chain c hchain
  · split at hc
    · cases hc
    · rename_i vn hvn
      split at hc
      · cases hc
      · cases hnew : chainFromNegotiation p vn with
        | error e =>
          rw [hnew] at hc
          cases hc
        | ok c' =>
          rw [hnew] at hc
          cases hc
          exact Chain.receives_newChain hnew (h.room vn hvn) cap

theorem Receives.sendOn (h : s.Receives cap) (hc : c.Receives cap) {m : Bytes × Bytes}
    (hsend : s.sendOn p c out = (s', .ok m)) : s'.Receives cap := by
  unfold State.sendOn at hsend
  split at hsend
  · cases hsend
  · split at hsend
    · cases hsend
    · rename_i c' idx key hkey
      cases hsend
      refine ⟨fun c'' hc'' => ?_, h.room⟩
      cases hc''
      exact hc.sendKey hkey

/-- A send takes a key from the chain, and maybe adds an epoch to it. -/
theorem Receives.send (h : s.Receives cap) {rnd : Rand} {w : V1States} (hv : s.v1 = some v)
    (hout : v.send p kem rnd = (w, .ok out)) (hkey : ∀ k, out.key = some k → k.epoch ≠ 0)
    {m : Bytes × Bytes} (hsend : s.send p kem rnd = (s', .ok m)) : s'.Receives cap := by
  unfold State.send at hsend
  split at hsend
  · cases hsend
    exact h
  · simp only [hv, hout] at hsend
    have h' : ({ s with v1 := some w } : State).Receives cap := ⟨h.chain, h.room⟩
    unfold sendV1 at hsend
    split at hsend
    · cases hsend
    · split at hsend
      · cases hsend
      · cases hsend
        exact ⟨h.chain, h.room⟩
    · rename_i c hfor
      have hc := h'.forSend hfor
      split at hsend
      · exact h'.sendOn hc hsend
      · rename_i k hk
        split at hsend
        · cases hsend
        · rename_i c' hadd
          exact h'.sendOn (hc.addEpoch hadd (hkey k hk)) hsend

end State

variable {g g' : Shared} {c c' : Config} {x : Party} {rnd : Rand}

/-- The invariant of a run in which nothing is lost for long: no party has counted further than the
other one has sent. -/
structure Synced (p : Prims) (kem : Kem) (g : Shared) (c : Config) : Prop where
  joint : Joint p kem g c
  receives : ∀ x, (c.st x).Receives (g.taken x.other)

/-- The keys taken behind a send: one more of the sender in its epoch, at most. -/
structure OneMore (g g' : Shared) (x : Party) (e : Nat) : Prop where
  le : ∀ y i, g.taken y i ≤ g'.taken y i
  frame : ∀ y i, i ≠ e → g'.taken y i = g.taken y i
  other : g'.taken x.other = g.taken x.other
  succ : g'.taken x e ≤ g.taken x e + 1

/-- One send takes one key of one epoch. -/
theorem OneMore.of_take {e : Nat} (h : g'.taken = g.taken ∨ g'.taken = g.take x e) :
    OneMore g g' x e := by
  rcases h with h | h
  · exact ⟨fun _ _ => by rw [h], fun _ _ _ => by rw [h], by rw [h], by rw [h]; omega⟩
  · have hself : g'.taken x = update (g.taken x) e (g.taken x e + 1) := by
      rw [h, Shared.take, update_self]
      rfl
    have hother : ∀ y, y ≠ x → g'.taken y = g.taken y := by
      intro y hy
      rw [h, Shared.take, update_of_ne hy]
    have hframe : ∀ y i, i ≠ e → g'.taken y i = g.taken y i := by
      intro y i hi
      by_cases hy : y = x
      · rw [hy, hself, update_of_ne hi]
      · rw [hother y hy]
    refine ⟨fun y i => ?_, hframe, hother _ x.other_ne, ?_⟩
    · by_cases hi : i = e
      · by_cases hy : y = x
        · rw [hy, hself, hi, update_self]
          omega
        · rw [hother y hy]
      · rw [hframe y i hi]
    · rw [hself, update_self]

variable {n : Nat}

/-- A send, in the numbers of the ghost data. -/
theorem Joint.step_send (h : Joint p kem g c) (laws : KemLaws kem) {l : Ledger}
    (hparty : PartyOk p l n v (c.st x)) (hn : n < 2 ^ 64) (rnd : Rand) :
    ∃ g', Joint p kem g' (c.afterSend p kem x rnd) ∧ OneMore g g' x (n - 1) := by
  obtain ⟨g', hg', htaken⟩ := h.step laws (.send x rnd)
  refine ⟨g', hg', .of_take (htaken.imp_right ?_)⟩
  rintro ⟨x', rnd', n', v', heq, hparty', hn', htake⟩
  cases heq
  -- the epoch of a state is one number only
  have hv : v' = v := Option.some.inj (hparty'.state.symm.trans hparty.state)
  have hepoch := hparty'.handshake.toNat_epoch hn'
  rw [hv, hparty.handshake.toNat_epoch hn] at hepoch
  rwa [hepoch]

variable {message salt salt' : Bytes}

variable {s : State}

theorem Joint.step_receive (h : Joint p kem g c) (laws : KemLaws kem)
    (hmem : (message, salt) ∈ c.sent x.other)
    (hrecv : (c.st x).receiveOnClone p kem message = .ok (s, salt')) :
    ∃ g', Joint p kem g' (c.afterReceive p kem x message s) ∧ g'.taken = g.taken := by
  obtain ⟨g', hg', htaken⟩ := h.step laws (.receive hmem hrecv)
  refine ⟨g', hg', htaken.resolve_right ?_⟩
  rintro ⟨_, _, _, _, heq, -⟩
  cases heq

/-! ## A turn of the two states -/

/-- The number of a message, for a link that has counted up to `cap` and will have counted up to
`cap'`: none in the first epoch, or one that is ahead. -/
def Ahead (cap cap' : Nat) (epoch : UInt64) (idx : UInt32) : Prop :=
  (epoch = 1 ∧ idx = 0) ∨ (cap < idx.toNat ∧ idx.toNat ≤ 1000 ∧ idx.toNat ≤ cap')

/-- A key ahead of what was received is found. -/
theorem ChainPart.recvSalt_ahead {l : Ledger} {chain : Chain} (h : ChainPart p l n v chain)
    (hl : l.Sized) (hcap : chain.Receives cap) (hmono : ∀ e, cap e ≤ cap' e) {idx : UInt32}
    (hpos : 1 ≤ epoch.toNat) (hnear : n = epoch.toNat ∨ n = epoch.toNat + 1)
    (hidx : Ahead (cap (epoch.toNat - 1)) (cap' (epoch.toNat - 1)) epoch idx) :
    ∃ salt chain', Spqr.recvSalt p chain (epoch - 1) idx = .ok (salt, chain') ∧
      chain'.Receives cap' := by
  have hsub := toNat_epoch_sub_one rfl hpos
  rcases hidx with ⟨rfl, rfl⟩ | ⟨hlt, hfew, hle⟩
  · exact ⟨[], chain, rfl, hcap.mono hmono⟩
  · obtain ⟨base, snd, hat, hsnd, -, -⟩ := h
    have hbase := hat.links.base_eq
    have hcur : n - 1 ≤ v.chainEpoch n := by
      unfold V1States.chainEpoch
      split <;> omega
    have hne : idx ≠ 0 := by
      rintro rfl
      simp at hlt
    rw [← hsub] at hlt hle
    obtain ⟨key, chain', hkey, hcap'⟩ := hat.links.recvKey_ahead hl.seedsOk hcap (by omega)
      (by omega) hlt hfew hmono hle
    exact ⟨key, chain', (if_pos (.inr hne)).trans hkey, hcap'⟩

/-- The number of a message that is just sent. -/
theorem SendSalt.ahead {idx : UInt32} {l' : Ledger}
    (h : SendSalt p (g.ledger x) n s out idx salt l') (hn : out.msg.epoch.toNat = n)
    (hmore : OneMore g g' x (n - 1)) (hfew : g.taken x (n - 1) < 1000)
    (hsent : SentSalt p (g'.ledger x) out.msg.epoch idx salt) :
    Ahead (g.taken x (n - 1)) (g'.taken x (n - 1)) out.msg.epoch idx := by
  cases h with
  | silent _ hone _ => exact .inl ⟨UInt64.toNat_inj.mp (hn.trans hone), rfl⟩
  | keyed =>
    have hsent' : (g.ledger x).sent (n - 1) = g.taken x (n - 1) := rfl
    have hnat : ∀ k, k ≤ 1000 → (UInt32.ofNat k).toNat = k := by
      intro k hk
      rw [UInt32.toNat_ofNat']
      exact Nat.mod_eq_of_lt (by omega)
    rw [hsent'] at hsent ⊢
    have hval := hnat (g.taken x (n - 1) + 1) (by omega)
    refine .inr ⟨by omega, by omega, ?_⟩
    -- the ghost data behind the send covers the number, since the salt is not empty
    generalize hi : UInt32.ofNat (g.taken x (n - 1) + 1) = i at hsent hval
    generalize hs : (keyAt p ((g.ledger x).seeds (n - 1)).1 (g.taken x (n - 1) + 1)).toBytes = salt'
      at hsent
    cases hsent with
    | silent _ =>
      have := congrArg List.length hs
      simp at this
    | keyed k hk hle =>
      rw [hn] at hle
      have hle' : k ≤ g'.taken x (n - 1) := hle
      have hsucc := hmore.succ
      rw [hnat k (by omega)] at hval
      rwa [hnat k (by omega)]

variable {e : UInt64}

/-- The epoch of a receiver, without wrapping. -/
theorem HandshakeAt.near (h : HandshakeAt n v) (hpos : 1 ≤ e.toNat)
    (hnear : v.epoch = e ∨ v.epoch = e + 1) :
    n = e.toNat ∨ n = e.toNat + 1 := by
  have hlt := e.toNat_lt
  have hle := h.le
  have hone := h.pos
  have hmod : v.epoch.toNat = n % 2 ^ 64 := by rw [h.epoch, UInt64.toNat_ofNat']
  rcases hnear with heq | heq
  · rw [heq] at hmod
    omega
  · rw [heq, UInt64.toNat_add] at hmod
    simp at hmod
    omega

/-- A secret a receive makes is the one of the message's epoch. -/
theorem RecvEffect.key_epoch {msg : V1Message} {r : V1Recv} (h : RecvEffect v msg r)
    {k : EpochSecret} (hk : r.key = some k) : k.epoch = msg.epoch := by
  cases h with
  | stay hkey =>
    rw [hkey] at hk
    cases hk
  | finish hkey _ _ _ _ hmsg =>
    rw [hkey] at hk
    cases hk
    exact hmsg.symm
  | next hkey =>
    rw [hkey] at hk
    cases hk

theorem afterReceive_self :
    (c.afterReceive p kem x message s).st x = s := update_self _ _ _

theorem afterReceive_of_ne {y : Party} (h : y ≠ x) :
    (c.afterReceive p kem x message s).st y = c.st y := update_of_ne h _ _

/-- **A turn of the two states**, for a turn of their handshakes. -/
theorem Synced.turn (h : Synced p kem g c) (laws : KemLaws kem) (he : e ≠ 0)
    {v v' : Party → V1States} (hv : ∀ y, (c.st y).v1 = some (v y)) (ht : Turn p kem rnd e v x v')
    (hfew : g.taken x (e.toNat - 1) < 1000) :
    ∃ es c' g', Run (Exchange p kem) c es c' ∧ Synced p kem g' c' ∧
      (∀ y, (c'.st y).v1 = some (v' y)) ∧ OneMore g g' x (e.toNat - 1) := by
  obtain ⟨w, out, r, hsend, hrecv, hself, hother⟩ := ht.exchanged
  obtain ⟨n, vx, hparty⟩ := h.joint.party x
  cases (hv x).symm.trans hparty.state
  have hepoch := ht.epoch
  have hn := hparty.lt_of_epoch (hepoch ▸ he)
  have hne : e.toNat = n := by rw [← hepoch, hparty.handshake.toNat_epoch hn]
  have hpos : 1 ≤ e.toNat := hne ▸ hparty.handshake.pos
  rcases hparty.send (h.joint.ledger_sized x) kem rnd with ⟨f, k, -, herr, -⟩ | ⟨hwrap, -⟩ |
    ⟨-, w', out', idx, salt, l', s1, hsend', heff, hsalt, hst, hok, -⟩
  · rw [hsend] at herr
    cases herr
  · omega
  rw [hsend] at hsend'
  cases hsend'
  have hmsg : out.msg.epoch = e := heff.msgEpoch.trans hepoch
  -- the send
  obtain ⟨g1, hg1, hmore⟩ := h.joint.step_send laws hparty hn rnd
  have hst1 : (c.afterSend p kem x rnd).st x = s1 := by simp [Config.afterSend, hst]
  have hsame : (c.afterSend p kem x rnd).st x.other = c.st x.other :=
    update_of_ne x.other_ne _ _
  have hmem : (out.msg.serialize idx, salt) ∈ (c.afterSend p kem x rnd).sent x := by
    simp [Config.afterSend, hst, Except.toOption]
  have hrec1 : s1.Receives (g.taken x.other) := by
    refine (h.receives x).send (hv x) hsend (fun k hk => ?_) hst
    rcases heff.key with ⟨hnone, -⟩ | ⟨secret, hsome, -, -⟩
    · rw [hnone] at hk
      cases hk
    · rw [hsome] at hk
      cases hk
      rwa [hepoch]
  -- the receive
  obtain ⟨m, vy, hparty'⟩ := hg1.party x.other
  have hvy : (c.st x.other).v1 = some vy := by
    rw [← hsame]
    exact hparty'.state
  cases (hv x.other).symm.trans hvy
  obtain ⟨chain0, chain, n', hfor, hadd, hh', hpart, heq⟩ := hparty'.receiveOnClone_eq
    (hg1.ledger_sized _) heff.wellFormed (hmsg ▸ he) hrecv idx
  rw [hsame] at hfor heq
  have hcap : chain.Receives (g.taken x) := by
    have h0 := (h.receives x.other).forRecv hfor
    rw [Party.other_other] at h0
    refine h0.addReceivedEpoch hadd fun k hk => ?_
    rwa [(recv_effect hparty'.handshake.valid hrecv).2.key_epoch hk, hmsg]
  have hnear : n' = out.msg.epoch.toNat ∨ n' = out.msg.epoch.toNat + 1 := by
    rw [hmsg]
    exact hh'.near hpos (hother ▸ ht.near)
  have hahead : Ahead (g.taken x (out.msg.epoch.toNat - 1)) (g1.taken x (out.msg.epoch.toNat - 1))
      out.msg.epoch idx := by
    obtain ⟨msg', idx', hser, hwf, -, -, hsent⟩ := hg1.msgs _ _ _ hmem
    have hparse := deserializeV1Message_serialize heff.wellFormed idx
    rw [hser, deserializeV1Message_serialize hwf] at hparse
    cases hparse
    rw [hmsg, hne]
    rw [hne] at hfew
    exact hmsg ▸ hsalt.ahead (by rw [hmsg, hne]) hmore hfew hsent
  obtain ⟨salt', chain', hkey, hcap'⟩ := hpart.recvSalt_ahead
    ((hg1.ledger_sized _).derive p m r.key) hcap (hmore.le x) (by rwa [hmsg]) hnear hahead
  rw [hkey, ok_bind] at heq
  have hmem' : (out.msg.serialize idx, salt) ∈ (c.afterSend p kem x rnd).sent x.other.other := by
    rwa [Party.other_other]
  rw [← hsame] at heq
  obtain ⟨g2, hg2, htaken⟩ := hg1.step_receive laws hmem' heq
  refine ⟨[.send x rnd, .receive x.other (out.msg.serialize idx)], _, g2,
    (Run.single (.send x rnd)).snoc (.receive hmem' heq), ⟨hg2, fun y => ?_⟩, fun y => ?_, ?_⟩
  · rcases x.eq_or_other y with rfl | rfl
    · rw [afterReceive_of_ne y.other_ne.symm, hst1, htaken, hmore.other]
      exact hrec1
    · rw [afterReceive_self, htaken, Party.other_other]
      refine ⟨fun _ hc => Option.some.inj hc ▸ hcap', fun _ hvn => ?_⟩
      cases hvn
  · rcases x.eq_or_other y with rfl | rfl
    · rw [afterReceive_of_ne y.other_ne.symm, hst1, hself]
      exact hok.state
    · rw [afterReceive_self, hother]
  · rw [hne]
    exact ⟨htaken ▸ hmore.le, htaken ▸ hmore.frame, htaken ▸ hmore.other, htaken ▸ hmore.succ⟩

/-! ## Epoch by epoch -/

/-- Turns of one epoch. -/
theorem Synced.turns (h : Synced p kem g c) (laws : KemLaws kem) (he : e ≠ 0)
    {v v' : Party → V1States} (hv : ∀ y, (c.st y).v1 = some (v y)) {xs : List Party}
    (hrun : Run (Turn p kem rnd e) v xs v')
    (hfew : ∀ y, g.taken y (e.toNat - 1) + xs.length ≤ 1000) :
    ∃ es c' g', Run (Exchange p kem) c es c' ∧ Synced p kem g' c' ∧
      (∀ y, (c'.st y).v1 = some (v' y)) ∧
      (∀ y i, i ≠ e.toNat - 1 → g'.taken y i = g.taken y i) ∧
      ∀ y, g'.taken y (e.toNat - 1) ≤ g.taken y (e.toNat - 1) + xs.length := by
  induction hrun with
  | nil => exact ⟨[], c, g, .nil, h, hv, fun _ _ _ => rfl, fun _ => le_rfl⟩
  | @snoc t u xs y _ hturn ih =>
    rw [List.length_append, List.length_singleton] at hfew
    obtain ⟨es, c1, g1, hrun1, h1, hv1, hframe, hle⟩ := ih fun y => by
      have := hfew y
      omega
    obtain ⟨es', c2, g2, hrun2, h2, hv2, hmore⟩ := h1.turn laws he hv1 hturn (by
      have := hfew y
      have := hle y
      omega)
    refine ⟨es ++ es', c2, g2, hrun1.trans hrun2, h2, hv2, fun z i hi => ?_, fun z => ?_⟩
    · rw [hmore.frame z i hi, hframe z i hi]
    · rw [List.length_append, List.length_singleton]
      have := hle z
      rcases y.eq_or_other z with rfl | rfl
      · have := hmore.succ
        omega
      · rw [hmore.other]
        omega

/-- The start of epoch `n`: the party `x` is about to draw a key pair and the other one waits. At
most one key of the epoch before was taken, and none of a later one. -/
structure Opened (p : Prims) (kem : Kem) (n : Nat) (x : Party) (g : Shared)
    (c : Config) : Prop where
  synced : Synced p kem g c
  states : ∃ auth dec, newPolyDecoder hdrMessageSize = .ok dec ∧ ∀ y, (c.st y).v1
    = some (sides x (.keysUnsampled { epoch := UInt64.ofNat n, auth })
        (.noHeaderReceived { epoch := UInt64.ofNat n, auth } dec) y)
  few : ∀ y, g.taken y (n - 1) ≤ 1
  later : ∀ y i, n ≤ i → g.taken y i = 0

/-- The party of the key gets to the next epoch. -/
theorem Opened.finish (h : Opened p kem n x g c) (laws : KemLaws kem)
    (hrnd : ∀ k, ∃ bs, rnd k = .ok bs) (hpos : 1 ≤ n) (hn : n < 2 ^ 64) :
    ∃ es c' g' auth dec sendingCt2, Run (Exchange p kem) c es c' ∧ Synced p kem g' c' ∧
      newPolyDecoder hdrMessageSize = .ok dec ∧
      (∀ y, (c'.st y).v1
        = some (sides x (.noHeaderReceived { epoch := UInt64.ofNat n + 1, auth } dec)
            (.ct2Sampled { epoch := UInt64.ofNat n, auth } sendingCt2) y)) ∧
      ∀ y i, n ≤ i → g'.taken y i = 0 := by
  obtain ⟨auth, dec, hdec, hv⟩ := h.states
  let r : Round :=
    { e := n, keyParty := x, auth, seed := none, enc := none, ct2 := false, done := false }
  obtain ⟨auth', sendingCt2, xs, hrun, hlen⟩ := round_completes laws hrnd x r hdec (p := p)
  have hnat : r.epoch.toNat = n := by
    show (UInt64.ofNat n).toNat = n
    rw [UInt64.toNat_ofNat']
    exact Nat.mod_eq_of_lt hn
  have he : r.epoch ≠ 0 := by
    intro hzero
    rw [hzero] at hnat
    simp at hnat
    omega
  obtain ⟨es, c', g', hrun', hs, hv', hframe, -⟩ := h.synced.turns laws he hv hrun (by
    intro y
    have := h.few y
    rw [hnat]
    omega)
  refine ⟨es, c', g', auth', dec, sendingCt2, hrun', hs, hdec, hv', fun y i hi => ?_⟩
  rw [hframe y i (by omega)]
  exact h.later y i hi

/-- The next epoch begins with the roles changed. -/
theorem Opened.next (h : Opened p kem n x g c) (laws : KemLaws kem)
    (hrnd : ∀ k, ∃ bs, rnd k = .ok bs) (hpos : 1 ≤ n) (hn : n + 1 < 2 ^ 64) :
    ∃ es c' g', Run (Exchange p kem) c es c' ∧ Opened p kem (n + 1) x.other g' c' := by
  obtain ⟨es, c1, g1, auth, dec, sendingCt2, hrun, hs, hdec, hv, hnone⟩ :=
    h.finish laws hrnd hpos (by omega)
  have hsucc : UInt64.ofNat n + 1 = UInt64.ofNat (n + 1) := (UInt64.ofNat_add n 1).symm
  have hnat : (UInt64.ofNat (n + 1)).toNat = n + 1 := by
    rw [UInt64.toNat_ofNat']
    exact Nat.mod_eq_of_lt hn
  have hnewer : UInt64.ofNat n < UInt64.ofNat n + 1 := by
    rw [UInt64.lt_iff_toNat_lt, hsucc, hnat, UInt64.toNat_ofNat']
    omega
  -- one message of the new epoch moves the other side on
  have hturn : Turn p kem rnd (UInt64.ofNat n + 1)
      (sides x (.noHeaderReceived { epoch := UInt64.ofNat n + 1, auth } dec)
        (.ct2Sampled { epoch := UInt64.ofNat n, auth } sendingCt2)) x
      (sides x (.noHeaderReceived { epoch := UInt64.ofNat n + 1, auth } dec)
        (.keysUnsampled { epoch := UInt64.ofNat n + 1, auth })) :=
    .ofKey rfl (recv_next_epoch hnewer) rfl (.inl rfl)
  have he : UInt64.ofNat n + 1 ≠ 0 := by
    intro hzero
    rw [← hsucc, hzero] at hnat
    simp at hnat
  have hsub : (UInt64.ofNat n + 1).toNat - 1 = n := by rw [hsucc, hnat, Nat.add_sub_cancel]
  obtain ⟨es', c2, g2, hrun', hs', hv', hmore⟩ := hs.turn laws he hv hturn (by
    rw [hsub, hnone x n le_rfl]
    decide)
  rw [hsub] at hmore
  refine ⟨es ++ es', c2, g2, hrun.trans hrun', hs', ⟨auth, dec, hdec, ?_⟩, fun y => ?_,
    fun y i hi => ?_⟩
  · intro y
    rw [hv' y, sides_swap, hsucc]
  · rw [Nat.add_sub_cancel]
    rcases x.eq_or_other y with rfl | rfl
    · have := hmore.succ
      rwa [hnone y n le_rfl] at this
    · rw [hmore.other, hnone _ n le_rfl]
      exact Nat.zero_le _
  · rw [hmore.frame y i (by omega)]
    exact hnone y i (by omega)

/-- **Every epoch is reached.** -/
theorem Opened.reach (h : Opened p kem 1 x g c) (laws : KemLaws kem)
    (hrnd : ∀ k, ∃ bs, rnd k = .ok bs) (n : Nat) (hn : n + 1 < 2 ^ 64) :
    ∃ es c' g' y, Run (Exchange p kem) c es c' ∧ Opened p kem (n + 1) y g' c' := by
  induction n with
  | zero => exact ⟨[], c, g, x, .nil, h⟩
  | succ n ih =>
    obtain ⟨es, c1, g1, y, hrun, h1⟩ := ih (by omega)
    obtain ⟨es', c2, g2, hrun', h2⟩ := h1.next laws hrnd (by omega) hn
    exact ⟨es ++ es', c2, g2, y.other, hrun.trans hrun', h2⟩

/-- Two new parties. -/
theorem opened_start (hkey : authKey.length ≠ 0) (kem : Kem) :
    Opened toyPrims kem 1 .initiator (Shared.start toyPrims authKey)
      (Config.start (sampleOpening authKey) (sampleWaiting authKey)) where
  synced :=
    { joint := joint_start (sampleOpening_new hkey) (sampleWaiting_new hkey)
      receives := by
        have hroom : 1000 ≤ (ChainParams.maxJump { MaxJump := 0, MaxOOO := 0 }).toNat := by decide
        intro y
        cases y
        all_goals
          refine ⟨nofun, fun vn hvn => ?_⟩
          cases hvn
          exact hroom }
  states := by
    obtain ⟨dec, hdec, -⟩ := newPolyDecoder_ok hdrMessageSize (by decide)
    refine ⟨newAuthenticator toyPrims authKey 1, dec, hdec, fun y => ?_⟩
    cases hdec
    cases y <;> rfl
  few _ := Nat.zero_le _
  later _ _ _ := rfl

/-! ## Lockstep up to the last epoch -/

/-- A step whose receive, if it is one, is not made in the last epoch. -/
def LiveExchange (p : Prims) (kem : Kem) (c : Config) (e : ExchangeEvent) (c' : Config) : Prop :=
  Exchange p kem c e c' ∧ ∀ x message v, e = .receive x message → (c.st x).v1 = some v →
    v.epoch ≠ 0xffffffffffffffff

/-- A receive is such a step when the party is not in the last epoch. -/
theorem LiveExchange.receive (hmem : (message, salt) ∈ c.sent x.other)
    (hrecv : (c.st x).receiveOnClone p kem message = .ok (s, salt')) (hv : (c.st x).v1 = some v)
    (hepoch : v.epoch ≠ 0xffffffffffffffff) :
    LiveExchange p kem c (.receive x message) (c.afterReceive p kem x message s) := by
  refine ⟨.receive hmem hrecv, ?_⟩
  rintro x message v' ⟨⟩ hv'
  cases hv.symm.trans hv'
  exact hepoch

/-- No epoch number has wrapped. -/
def Config.Unwrapped (c : Config) : Prop := ∀ y v, (c.st y).v1 = some v → v.epoch ≠ 0

/-- A send does not change the epoch. -/
theorem Joint.unwrapped_send (h : Joint p kem g c) (hu : c.Unwrapped) (rnd : Rand) :
    (c.afterSend p kem x rnd).Unwrapped := by
  intro y v hv
  by_cases hy : y = x
  · subst hy
    obtain ⟨n, v0, hparty⟩ := h.party y
    have hst : (c.afterSend p kem y rnd).st y = ((c.st y).send p kem rnd).1 :=
      update_self _ _ _
    rw [hst] at hv
    rcases hparty.send (h.ledger_sized y) kem rnd with ⟨_, _, -, -, hsend⟩ | ⟨-, -, hsend⟩ |
      ⟨-, _, out, _, _, _, s', -, he, -, hsend, hok, -⟩
    · rw [hsend] at hv
      exact hu y v hv
    · rw [hsend] at hv
      exact hu y v hv
    · rw [hsend, hok.state] at hv
      cases hv
      rw [he.epoch]
      exact hu y v0 hparty.state
  · have hst : (c.afterSend p kem x rnd).st y = c.st y := update_of_ne hy _ _
    rw [hst] at hv
    exact hu y v hv

/-- A receive may lead to the next epoch, which wraps in the last one only. -/
theorem Joint.unwrapped_receive (h : Joint p kem g c) (hu : c.Unwrapped)
    (hmem : (message, salt) ∈ c.sent x.other)
    (hrecv : (c.st x).receiveOnClone p kem message = .ok (s, salt'))
    (hlive : ∀ v, (c.st x).v1 = some v → v.epoch ≠ 0xffffffffffffffff) :
    (c.afterReceive p kem x message s).Unwrapped := by
  intro y v hv
  by_cases hy : y = x
  · subst hy
    rw [afterReceive_self] at hv
    obtain ⟨n, v0, hparty⟩ := h.party y
    obtain ⟨msg, idx, rfl, hwf, -, -, -⟩ := h.msgs _ _ _ hmem
    obtain ⟨out, n', hout, -⟩ := hparty.receive_sent (h.ledger_sized y) hwf hrecv
    cases hout.party.state.symm.trans hv
    have hzero := hu y v0 hparty.state
    have hsucc : v0.epoch + 1 ≠ 0 := by
      have hlast := hlive v0 hparty.state
      intro hwrap
      apply hlast
      have := congrArg UInt64.toNat hwrap
      rw [UInt64.toNat_add] at this
      have := v0.epoch.toNat_lt
      apply UInt64.toNat_inj.mp
      simp at *
      omega
    cases hout.effect with
    | stay _ hepoch => rwa [hepoch]
    | finish _ _ _ hepoch => rwa [hepoch]
    | next _ _ _ hepoch => rwa [hepoch]
  · rw [afterReceive_of_ne hy] at hv
    exact hu y v hv

/-- **One step** of a live exchange. -/
theorem live_step (laws : KemLaws kem) {e : ExchangeEvent}
    (h : (∃ g, Joint p kem g c) ∧ c.Unwrapped) (hstep : LiveExchange p kem c e c') :
    (∃ g, Joint p kem g c') ∧ c'.Unwrapped := by
  obtain ⟨⟨g, hg⟩, hu⟩ := h
  obtain ⟨hex, hlive⟩ := hstep
  obtain ⟨g', hg', -⟩ := hg.step laws hex
  refine ⟨⟨g', hg'⟩, ?_⟩
  cases hex with
  | send x rnd => exact hg.unwrapped_send hu rnd
  | @receive x message salt salt' s hmem hrecv =>
    exact hg.unwrapped_receive hu hmem hrecv fun v => hlive x message v rfl

theorem unwrapped_start {params params' : ChainParams} {a b : State}
    (ha : newState p authKey directionA2B params = .ok a)
    (hb : newState p authKey directionB2A params' = .ok b) : (Config.start a b).Unwrapped := by
  obtain ⟨va, -, hpa⟩ := newState_partyOk (.inl rfl) ha
  obtain ⟨vb, -, hpb⟩ := newState_partyOk (.inr rfl) hb
  intro y v hv
  cases y with
  | initiator =>
    cases hpa.state.symm.trans hv
    rw [hpa.handshake.epoch]
    decide
  | responder =>
    cases hpb.state.symm.trans hv
    rw [hpb.handshake.epoch]
    decide

/-- **Lockstep.** In every run without a receive in the last epoch, the handshakes of the two
parties stay together, no message of the peer is refused, and no send fails. -/
theorem spqr_lockstep (p : Prims) (kem : Kem) (laws : KemLaws kem) {authKey : Bytes}
    {params params' : ChainParams} {a b : State}
    (ha : newState p authKey directionA2B params = .ok a)
    (hb : newState p authKey directionB2A params' = .ok b) {es : List ExchangeEvent} {c : Config}
    (hrun : Run (LiveExchange p kem) (Config.start a b) es c) : ∃ v, Lockstep p kem c v := by
  obtain ⟨⟨g, hg⟩, hu⟩ := hrun.invariant
    (I := fun c => (∃ g, Joint p kem g c) ∧ c.Unwrapped) (live_step laws)
    ⟨⟨_, joint_start ha hb⟩, unwrapped_start ha hb⟩
  exact hg.lockstep laws hu

/-- Both parties have sent a message, and have received the one of the other. -/
theorem spqr_lockstep_sample : ∃ s message s' v, Lockstep toyPrims toyKem
      ((sampleAnswered s).afterReceive toyPrims toyKem .responder message s') v := by
  obtain ⟨s, chain, hrecv, hchain⟩ := sampleGreeted_receive
  obtain ⟨message, salt, s', salt', hmem, -, hanswer⟩ := sampleAnswered_receive hrecv hchain
  have hrun := (((Run.single ⟨.send .responder fun _ => .ok .zero, nofun⟩).snoc
    (.receive sampleGreeted_sent hrecv rfl (by decide))).snoc
    ⟨.send .initiator fun _ => .ok .zero, nofun⟩).snoc
    (LiveExchange.receive hmem hanswer rfl (by decide))
  obtain ⟨v, hv⟩ := spqr_lockstep toyPrims toyKem toyKem_laws (sampleOpening_new (by decide))
    (sampleWaiting_new (by decide)) hrun
  exact ⟨s, message, s', v, hv⟩

/-- **Behind the last epoch**: two parties that go on to the last epoch and through it end with the
epochs zero and `2 ^ 64 - 1`, and the one in epoch zero cannot send. -/
theorem spqr_lockstep_wraps :
    ∃ (es : List ExchangeEvent) (c : Config) (x : Party) (v : Party → V1States),
      newState toyPrims [1] directionA2B { MaxJump := 0, MaxOOO := 0 } = .ok (sampleOpening [1]) ∧
      newState toyPrims [1] directionB2A { MaxJump := 0, MaxOOO := 0 } = .ok (sampleWaiting [1]) ∧
      Run (Exchange toyPrims toyKem) (Config.start (sampleOpening [1]) (sampleWaiting [1])) es c ∧
      (∀ y, (c.st y).v1 = some (v y)) ∧ (v x).epoch = 0 ∧
      (v x.other).epoch = 0xffffffffffffffff ∧
      ((c.st x).send toyPrims toyKem fun _ => .ok .zero).2
        = .error (.err (.sentinel .spqrEpochOutOfRange)) ∧
      ¬ ∃ v, Lockstep toyPrims toyKem c v := by
  have hrnd : ∀ k, ∃ bs, (fun _ => .ok .zero : Rand) k = .ok bs := fun _ => ⟨_, rfl⟩
  have hkey : ([1] : Bytes).length ≠ 0 := by decide
  have hlast : UInt64.ofNat (2 ^ 64 - 2 + 1) = 0xffffffffffffffff := by decide
  have hfirst : UInt64.ofNat (2 ^ 64 - 2 + 1) + 1 = 0 := by decide
  obtain ⟨es, c₁, g₁, x, hrun, hopen⟩ := (opened_start hkey toyKem).reach toyKem_laws hrnd
    (2 ^ 64 - 2) (by decide)
  obtain ⟨es', c, g, auth, dec, sendingCt2, hrun', hs, -, hv, -⟩ :=
    hopen.finish toyKem_laws hrnd (by decide) (by decide)
  obtain ⟨n, v, hparty⟩ := hs.joint.party x
  have hzero : v.epoch = 0 := by
    cases (hv x).symm.trans hparty.state
    rw [sides_self]
    exact hfirst
  have hn : n = 2 ^ 64 := by
    have hle := hparty.handshake.le
    have hpos := hparty.handshake.pos
    have hepoch := congrArg UInt64.toNat (hparty.handshake.epoch.symm.trans hzero)
    rw [UInt64.toNat_ofNat'] at hepoch
    simp at hepoch
    omega
  have hsend := congrArg Prod.snd (hparty.send_wrapped hn toyKem fun _ => .ok .zero)
  refine ⟨es ++ es', c, x, _, sampleOpening_new hkey, sampleWaiting_new hkey,
    hrun.trans hrun', hv, ?_, ?_, hsend, ?_⟩
  · rw [sides_self]
    exact hfirst
  · rw [sides_other]
    exact hlast
  · rintro ⟨w, hw⟩
    obtain ⟨out, hout⟩ := hw.sends x _ hrnd
    rw [hsend] at hout
    cases hout

end SignalGo.Spqr
