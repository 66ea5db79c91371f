import SignalGo.Lib.Maps
import SignalGo.Ratchet.Loss

/-!
# The first chain of a session

What a party sends before it receives anything belongs to one epoch. The other party is in that
epoch after the handshake (without an initial chain key), or enters it with the first header that
it accepts. From then on a header of the epoch is accepted in any order, as long as its number does
not exceed `MaxSkip`.

With an initial chain key all this rests on the initiator's ratchet key being another one than its
ephemeral key: the responder has the ephemeral key as its current DH key, and no chain for it.

* `Awaits`: a party that is in the epoch or about to enter it.
* `Awaits.accepts`, `View.accepts`: the first header, and the ones after it.
* `awaits_initial`: both parties after the handshake.
* `refuses_ephemeral`: a ratchet key that is the ephemeral key.
-/

namespace SignalGo.Ratchet

open Std (ExtTreeMap ExtTreeSet)

variable {p : Prims} {s t : State} {h : Header} {mk : Key} {accepted : List Header}
  {own peer e : Epoch} {older before : List Epoch}

/-! ## Sizes -/

/-- The stored keys belong to different numbers below `Nr`. -/
theorem Tidy.size_le_nr (hs : Tidy s) : s.mkSkipped.size ≤ s.nr.toNat := by
  obtain ⟨d, hd, -⟩ := hs.current
  have hle := size_le_length s.mkSkipped
    (l := (List.range s.nr.toNat).map fun i => (⟨d, .ofNat i⟩ : SkippedKey)) fun k hk => by
      obtain ⟨hdk, hlt⟩ := hs.stored k hk
      rw [hd, Option.some.injEq] at hdk
      refine List.mem_map.mpr ⟨k.n.toNat, List.mem_range.mpr (UInt32.lt_iff_toNat_lt.mp hlt), ?_⟩
      rw [hdk, UInt32.ofNat_toNat]
  rwa [List.length_map, List.length_range] at hle

/-- The seen keys are those of the timeline. -/
theorem View.size_seenDH (hv : View p accepted s own peer older) :
    s.seenDH.size ≤ older.length + 1 := by
  have hle := set_size_le_length s.seenDH (l := (peer :: older).map Epoch.pub) fun d hd => by
    obtain ⟨e, before, hearlier, rfl⟩ := (hv.seen d).mp hd
    exact List.mem_map.mpr ⟨e, hearlier.mem, rfl⟩
  rwa [List.length_map, List.length_cons] at hle

/-! ## Headers of the current epoch -/

/-- The epoch once its owner has sent `n` messages under it. -/
def Epoch.after (e : Epoch) (n : Nat) : Epoch := { e with sent := n }

theorem Epoch.after_sent (e : Epoch) : e.after e.sent = e := rfl

/-- A send of the owner, with the number of its header. -/
theorem View.send_after {n : Nat} (hv : View p accepted s (own.after n) peer older)
    (hnext : nextSendingMessageKey p s = .ok (t, h, mk)) :
    View p accepted t (own.after (n + 1)) peer older ∧
      SentIn p (own.after (n + 1)) (peer :: older) h mk ∧ h.n.toNat = n := by
  obtain ⟨hv', hsent⟩ := hv.send hnext
  obtain ⟨dhs, -, -, -, rfl, -, -⟩ := nextSendingMessageKey_ok.mp hnext
  exact ⟨hv', hsent, hv.ns⟩

/-- **A new header of the epoch** is accepted with the key of its sender. -/
theorem View.accepts (hv : View p accepted s own peer older) (hsent : SentIn p peer before h mk)
    (hnew : ∀ h' ∈ accepted, skippedKeyForHeader h' ≠ skippedKeyForHeader h)
    (hle : h.n.toNat ≤ maxSkip) (rnd : Except String Key) :
    ∃ t, advanceForHeader p rnd s h = .ok (t, mk) ∧
      View p (accepted ++ [h]) t own peer older := by
  cases hadv : advanceForHeader p rnd s h with
  | ok r =>
    obtain ⟨t, mk'⟩ := r
    obtain ⟨rfl, hv', -⟩ := hv.receive_current hsent hadv
    exact ⟨t, rfl, hv'⟩
  | error e =>
    rcases hv.refuse_current hsent hadv with ⟨h', hmem, hkey⟩ | hblocked
    · exact absurd hkey (hnew h' hmem)
    · -- the keys below the number fit
      have htidy := hv.receiving.tidy
      have hnr := htidy.size_le_nr
      have hsize := htidy.size_le
      refine absurd ?_ (hblocked.not_fits htidy)
      rw [SkipFits, if_pos (hsent.dh ▸ hv.dhr)]
      omega

/-! ## The first header -/

/-- A party that has accepted nothing: it receives in the epoch `e`, or `e` is the epoch that the
peer has made from the party's own. -/
inductive Awaits (p : Prims) (s : State) (e : Epoch) (before : List Epoch) : Prop where
  | current {own : Epoch} {older : List Epoch} :
      View p [] s own e older → older.length ≤ 1 → Awaits p s e before
  | next {own peer : Epoch} :
      View p [] s own peer [] → Linked p e own → KeyPairValid p own.kp → peer.pub ≠ e.pub →
      peer.sent = 0 → before = [own, peer] → Awaits p s e before

/-- The peer sends on. -/
theorem Awaits.send (hs : Awaits p s e before) : Awaits p s e.send before := by
  cases hs with
  | current hv hlen => exact .current hv.peer_send hlen
  | next hv hlink hown hne hsent hbefore => exact .next hv hlink hown hne hsent hbefore

theorem Awaits.after (hs : Awaits p s (e.after 0) before) (n : Nat) :
    Awaits p s (e.after n) before := by
  induction n with
  | zero => exact hs
  | succ n ih => exact ih.send

/-- The first message from the peer is accepted, whichever arrives first. -/
theorem Awaits.accepts {rnd : Except String Key} {kp : KeyPair} (hs : Awaits p s e before)
    (laws : DHLaws p) (hvalid : KeyPairValid p e.kp) (hsent : SentIn p e before h mk)
    (hle : h.n.toNat ≤ maxSkip) (hkp : generateKeyPair p rnd = .ok kp) :
    ∃ t own older, advanceForHeader p rnd s h = .ok (t, mk) ∧ View p [h] t own e older ∧
      older.length ≤ 2 := by
  cases hs with
  | current hv hlen =>
    obtain ⟨t, hadv, hv'⟩ := hv.accepts hsent nofun hle rnd
    exact ⟨t, _, _, hadv, hv', by omega⟩
  | @next own peer hv hlink hown hne hzero hbefore =>
    subst hbefore
    have hnew : ∀ d ∈ [peer], d.pub ≠ e.pub := by
      intro d hd
      rw [List.mem_singleton.mp hd]
      exact hne
    cases hadv : advanceForHeader p rnd s h with
    | ok r =>
      obtain ⟨t, mk'⟩ := r
      obtain ⟨rfl, newest, hv', -⟩ := hv.receive_new laws hlink hvalid hown hnew hsent hadv
      exact ⟨t, _, _, rfl, hv', le_rfl⟩
    | error err =>
      have hblocked := hv.refuse_new laws hlink hvalid hown hnew hsent hkp hadv
      have htidy := hv.receiving.tidy
      have hpn : h.pn.toNat = 0 := hsent.pn.trans hzero
      refine absurd ?_ (hblocked.not_fits htidy)
      rw [SkipFits, if_neg (hv.fresh hnew hsent.dh).1, hpn, Nat.zero_sub]
      exact ⟨htidy.size_le, hle⟩

/-! ## After the handshake -/

section Initial

variable {xa xb : X3dh.Result} {ek spk : KeyPair} {rndA rndB : Nat → Except String Key}
  {a b : State}

/-- The ratchet pair of an initiator with an initial chain key is the generated one. -/
theorem initiator_dhs (ha : initializeState p rndA xa true = .ok a)
    (hck : xa.initialChainKey.isSome) :
    ∃ kp, generateKeyPair p (rndA 0) = .ok kp ∧ a.dhs = some kp := by
  obtain ⟨-, ha⟩ | ⟨h, -⟩ := initializeStateWithGenerator_ok ha
  · obtain ⟨d, kp, out, -, hkp, -, -, rfl⟩ := initializeInitiator_ok ha
    rcases hkp with hgen | ⟨hnone, -⟩
    · exact ⟨kp, hgen, rfl⟩
    · rw [hnone] at hck
      cases hck
  · cases h

/-- **The start.** The initiator is at the beginning of an epoch of its own, which the responder
awaits unless its key is the ephemeral key. -/
theorem awaits_initial (laws : DHLaws p) (hm : Matching p xa xb ek spk)
    (ha : initializeState p rndA xa true = .ok a) :
    ∃ e peer older, View p [] a e peer older ∧ older.length ≤ 1 ∧ e.sent = 0 ∧
      KeyPairValid p e.kp ∧ ∀ rndB b, initializeState p rndB xb false = .ok b →
        (xa.initialChainKey.isSome → ek.publicKey ≠ e.pub) → Awaits p b e (peer :: older) := by
  cases hck : xa.initialChainKey with
  | some ck =>
    obtain ⟨e, hview, hlinked, hvalid⟩ := view_initiator_chain hm hck ha
      [⟨ek, .zero, .zero, 0⟩] rfl (by simp)
    have hzero : e.sent = 0 := by
      have hns := hview.ns
      obtain ⟨-, ha⟩ | ⟨h, -⟩ := initializeStateWithGenerator_ok ha
      · obtain ⟨d, kp, out, -, -, -, -, rfl⟩ := initializeInitiator_ok ha
        exact hns.symm
      · cases h
    exact ⟨e, _, _, hview, by simp, hzero, hvalid, fun rndB b hb hne =>
      .next (view_responder_chain hm hck hb) hlinked hm.spk_valid (hne rfl) rfl rfl⟩
  | none =>
    obtain ⟨out', hout', hviewa⟩ := view_initiator_legacy hm hck ha
    refine ⟨_, _, _, hviewa, by simp, rfl, hm.ek_valid, fun rndB b hb _ => ?_⟩
    obtain ⟨out, hout, e1, hview, -, -⟩ := view_responder_legacy hm hck hb [] rfl (by simp)
    -- both sides of the first root step agree
    have hcomm := laws.comm ek spk hm.ek_valid hm.spk_valid
    have hout_eq : out' = out := Except.ok.inj (hout'.symm.trans (hcomm.trans hout))
    subst hout_eq
    exact .current hview (by simp)

/-- The responder's state is there when a key pair can be generated. -/
theorem initializeState_responder (laws : DHLaws p) (hm : Matching p xa xb ek spk)
    (ha : initializeState p rndA xa true = .ok a) {kp : KeyPair}
    (hkp : generateKeyPair p (rndB 0) = .ok kp) : ∃ b, initializeState p rndB xb false = .ok b := by
  have hsecret : xb.sharedSecret ≠ .zero := by
    intro hzero
    rw [initializeState, initializeStateWithGenerator, if_pos (hm.sharedSecret.trans hzero)] at ha
    cases ha
  obtain ⟨out, hout⟩ := laws.total spk.privateKey ek hm.ek_valid
  obtain ⟨outSend, hsend⟩ := laws.total kp.privateKey ek hm.ek_valid
  rw [initializeState, initializeStateWithGenerator, if_neg hsecret, if_neg Bool.false_ne_true]
  simp only [initializeResponder, responderKey, hm.localRatchetKey, ok_bind]
  cases xb.initialChainKey with
  | some ck => exact ⟨_, rfl⟩
  | none =>
    simp only [hm.ephemeralKey, hout, hkp, hsend, Except.mapError, kdfRoot_eq, ok_bind]
    exact ⟨_, rfl⟩

/-- A header under the ephemeral key finds no chain. -/
theorem refuses_ephemeral {ck : Key} (hm : Matching p xa xb ek spk)
    (hck : xa.initialChainKey = some ck) (hb : initializeState p rndB xb false = .ok b)
    (hdh : h.dh = ek.publicKey) (hn : h.n = 0) (rnd : Except String Key) :
    ∃ e, advanceForHeader p rnd b h = .error e := by
  have hv := view_responder_chain hm hck hb
  have hnr : b.nr = 0 := UInt32.toNat_inj.mp (Nat.le_zero.mp hv.nr_le)
  have hd : b.dhr = some h.dh := hdh ▸ hv.dhr
  have hstored : b.mkSkipped[skippedKeyForHeader h]? = none := by
    refine ExtTreeMap.getElem?_eq_none fun hmem => ?_
    have hlt := (hv.receiving.tidy.stored _ hmem).2
    rw [hnr] at hlt
    exact UInt32.not_lt_zero hlt
  have hreplay : checkReplay b h = .ok () := by
    refine checkReplay_ok.mpr fun d hd' => ?_
    rw [hd, Option.some.injEq] at hd'
    exact ⟨fun _ => by rw [hnr]; exact UInt32.zero_le, fun hne => absurd hd' hne⟩
  have hckr : b.ckr = .zero := by
    rw [hv.receiving.ckr, hnr]
    rfl
  refine ⟨.new "decrypt: missing receiving chain key", ?_⟩
  rw [advanceForHeader, hstored]
  simp only [advanceChain, hreplay, ok_bind, catchUp, if_pos hd]
  rw [skipMessageKeys_self (by rw [hn]; exact UInt32.zero_le), ok_bind, takeKey, if_pos hckr]

end Initial

end SignalGo.Ratchet
