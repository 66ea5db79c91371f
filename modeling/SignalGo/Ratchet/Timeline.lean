import SignalGo.Ratchet.Replay

/-!
# Double Ratchet: the common timeline of two parties

The DH ratchet of two parties produces one sequence of key pairs, made in turn by the one and the
other. Every key pair opens an *epoch*: a root key, and a chain under which its owner sends.
A party's state is its view of the timeline: it sends in its own newest epoch and receives in the
peer's newest epoch it knows.

* `View`: the state of a party, read off the timeline.
* `SentUnder`: a header and message key that the owner of the newest epoch has sent, now or
  in one of its earlier epochs.
* `View.receive_current`, `View.receive_older`, `View.receive_new`: a header of the
  peer under the epoch the party receives in, under an earlier one, and under the one that the
  party has not seen yet.
-/

namespace SignalGo.Ratchet

open Std (ExtTreeMap ExtTreeSet)

variable {p : Prims}

/-! ## Diffie-Hellman over honest key pairs -/

/-- A key pair whose public key belongs to its private key. -/
def KeyPairValid (p : Prims) (kp : KeyPair) : Prop :=
  scalarBaseMult p kp.privateKey = .ok kp.publicKey

/-- What is assumed of X25519: between valid key pairs Diffie-Hellman succeeds and both sides
compute the same secret. -/
structure DHLaws (p : Prims) : Prop where
  total : ∀ (a : Key) (kp : KeyPair), KeyPairValid p kp → ∃ out, dh p a kp.publicKey = .ok out
  comm : ∀ kp kp' : KeyPair, KeyPairValid p kp → KeyPairValid p kp' →
    dh p kp.privateKey kp'.publicKey = dh p kp'.privateKey kp.publicKey

variable {kp : KeyPair}

theorem keyPairValid_generateKeyPair {rnd : Except String Key}
    (h : generateKeyPair p rnd = .ok kp) : KeyPairValid p kp := by
  obtain ⟨priv, -, h⟩ := bind_eq_ok.mp h
  obtain ⟨pub, hpub, h⟩ := bind_eq_ok.mp h
  cases h
  exact mapError_eq_ok.mp hpub

/-! ## Epochs -/

/-- A key pair of the timeline with the root key and the chain key its ratchet step gave, and
the number of messages its owner has sent under it. -/
structure Epoch where
  kp : KeyPair
  root : Key
  chain : Key
  sent : Nat

def Epoch.pub (e : Epoch) : Key := e.kp.publicKey

/-- The epoch comes from the one before it by a root step over the shared secret of their keys. -/
def Linked (p : Prims) (e before : Epoch) : Prop :=
  ∃ out, dh p e.kp.privateKey before.pub = .ok out
    ∧ e.root = (rootStep p before.root out).1 ∧ e.chain = (rootStep p before.root out).2

/-- `Earlier T U`: `U` is the timeline `T` (newest epoch first) with some rounds taken off. A
round is two epochs, so the newest epochs of `T` and of `U` have the same owner. -/
inductive Earlier : List Epoch → List Epoch → Prop where
  | refl (T : List Epoch) : Earlier T T
  | drop {T U : List Epoch} (a b : Epoch) : Earlier T U → Earlier (a :: b :: T) U

variable {T : List Epoch}

theorem Earlier.cases {a b : Epoch} {U : List Epoch} (h : Earlier (a :: b :: T) U) :
    U = a :: b :: T ∨ Earlier T U := by
  cases h with
  | refl => exact .inl rfl
  | drop _ _ h => exact .inr h

variable {e : Epoch}

theorem Earlier.mem {rest : List Epoch} (h : Earlier T (e :: rest)) :
    e ∈ T := by
  generalize hU : e :: rest = U at h
  induction h with
  | refl T =>
    subst hU
    exact .head _
  | drop a b _ ih => exact .tail _ (.tail _ (ih hU))

/-- The head of the timeline, or what is left after its first round. -/
theorem Earlier.head_or {a : Epoch} {U : List Epoch} (h : Earlier (a :: T) U) :
    U = a :: T ∨ ∃ b T', T = b :: T' ∧ Earlier T' U := by
  cases h with
  | refl => exact .inl rfl
  | drop _ b h => exact .inr ⟨b, _, rfl, h⟩

variable {before : List Epoch}

/-- In a timeline without repeated public keys an epoch determines what came before it. -/
theorem Earlier.unique {before' : List Epoch} {e' : Epoch} (hnodup : (T.map Epoch.pub).Nodup)
    (h : Earlier T (e :: before)) (h' : Earlier T (e' :: before')) (hpub : e.pub = e'.pub) :
    e :: before = e' :: before' := by
  generalize hU : e :: before = U at h
  induction h with
  | refl T =>
    subst hU
    rcases h'.head_or with heq | ⟨b, T', rfl, hdeep⟩
    · exact heq.symm
    · -- the same public key deeper in the timeline
      have hmem : e.pub ∈ (b :: T').map Epoch.pub :=
        List.mem_map.mpr ⟨e', .tail _ hdeep.mem, hpub.symm⟩
      exact absurd hmem (List.nodup_cons.mp hnodup).1
  | @drop T U a b hd ih =>
    have hrest : (T.map Epoch.pub).Nodup :=
      (List.nodup_cons.mp (List.nodup_cons.mp hnodup).2).2
    rcases h'.cases with heq | hdeep
    · cases heq
      subst hU
      have hmem : e'.pub ∈ (b :: T).map Epoch.pub :=
        List.mem_map.mpr ⟨e, .tail _ hd.mem, hpub⟩
      exact absurd hmem (List.nodup_cons.mp hnodup).1
    · exact ih hrest hdeep hU

/-- The number of messages in the first epoch of the list. -/
def firstSent : List Epoch → Nat
  | [] => 0
  | e :: _ => e.sent

/-- The header and the message key belong to a message that the owner of the newest epoch of
`T` has sent: under an epoch of its own, at a number already sent, over a chain key the guard
of the sender let pass. `PN` is the final count of its epoch before that. -/
structure SentIn (p : Prims) (e : Epoch) (before : List Epoch) (h : Header) (mk : Key) :
    Prop where
  dh : h.dh = e.pub
  n_lt : h.n.toNat < e.sent
  n_ne : h.n ≠ maxUint32
  pn : h.pn.toNat = firstSent before.tail
  chain_ne : chainAt p e.chain h.n.toNat ≠ .zero
  key : mk = messageKeyAt p e.chain h.n.toNat

def SentUnder (p : Prims) (T : List Epoch) (h : Header) (mk : Key) : Prop :=
  ∃ e before, Earlier T (e :: before) ∧ SentIn p e before h mk

variable {h : Header} {mk : Key}

/-- A header of the timeline is determined by its DH key and its number. -/
theorem SentUnder.unique {h' : Header} {mk' : Key} (hnodup : (T.map Epoch.pub).Nodup)
    (hs : SentUnder p T h mk) (hs' : SentUnder p T h' mk')
    (hkey : skippedKeyForHeader h = skippedKeyForHeader h') : h = h' := by
  obtain ⟨e, before, hearlier, hin⟩ := hs
  obtain ⟨e', before', hearlier', hin'⟩ := hs'
  obtain ⟨hdh, hn⟩ := SkippedKey.mk.inj hkey
  cases hearlier.unique hnodup hearlier' (hin.dh.symm.trans (hdh.trans hin'.dh))
  have hpn : h.pn = h'.pn := UInt32.toNat_inj.mp (hin.pn.trans hin'.pn.symm)
  cases h
  cases h'
  simp_all

/-- The epoch with one more message sent. -/
def Epoch.send (e : Epoch) : Epoch := { e with sent := e.sent + 1 }

@[simp] theorem Epoch.send_pub (e : Epoch) : e.send.pub = e.pub := rfl

theorem SentIn.send (hs : SentIn p e before h mk) :
    SentIn p e.send before h mk :=
  { hs with n_lt := Nat.lt_succ_of_lt hs.n_lt }

/-- What was sent stays sent when the newest epoch sends on. -/
theorem SentUnder.send (hs : SentUnder p (e :: T) h mk) :
    SentUnder p (e.send :: T) h mk := by
  obtain ⟨e', before, hearlier, hin⟩ := hs
  rcases hearlier.head_or with heq | ⟨b, T', rfl, hdeep⟩
  · cases heq
    exact ⟨e.send, T, .refl _, hin.send⟩
  · exact ⟨e', before, .drop _ _ hdeep, hin⟩

/-- What was sent does not depend on how much the peer has sent. -/
theorem SentUnder.peer_send {e' : Epoch} (hs : SentUnder p (e :: e' :: T) h mk) :
    SentUnder p (e :: e'.send :: T) h mk := by
  obtain ⟨d, before, hearlier, hin⟩ := hs
  rcases hearlier.cases with heq | hdeep
  · cases heq
    exact ⟨e, e'.send :: T, .refl _, { hin with }⟩
  · exact ⟨d, before, .drop _ _ hdeep, hin⟩

/-! ## The receiving chain -/

/-- The receiving side of `s` is in the epoch `e`: the chain stands at `Nr`, and of the numbers
below `Nr` each one is stored with its key or was accepted. -/
structure Receiving (p : Prims) (accepted : List Header) (s : State) (e : Epoch) : Prop where
  tidy : Tidy s
  dhr : s.dhr = some e.pub
  ckr : s.ckr = chainAt p e.chain s.nr.toNat
  stored : ∀ (k : SkippedKey) (mk : Key), s.mkSkipped[k]? = some mk →
    mk = messageKeyAt p e.chain k.n.toNat
  kept : ∀ n : UInt32, n < s.nr → s.mkSkipped[(⟨e.pub, n⟩ : SkippedKey)]? = none →
    ∃ h ∈ accepted, skippedKeyForHeader h = ⟨e.pub, n⟩

theorem messageKeyAt_chainAt (ck : Key) (i j : Nat) :
    messageKeyAt p (chainAt p ck i) j = messageKeyAt p ck (i + j) := by
  rw [messageKeyAt, messageKeyAt, chainAt_add]

variable {accepted : List Header} {s t : State}

/-- A skip along the chain: the keys it stores are the epoch's. -/
theorem Receiving.skipped (hs : Receiving p accepted s e) (h : Skipped p s t) :
    Receiving p accepted t e := by
  have hle : s.nr.toNat ≤ t.nr.toNat := UInt32.le_iff_toNat_le.mp h.nr_le
  refine ⟨hs.tidy.skipped h, h.dhr.trans hs.dhr, ?_, ?_, ?_⟩
  · rw [h.ckr, hs.ckr, ← chainAt_add]
    congr 1
    omega
  · intro k mk hk
    rw [h.stored k] at hk
    split at hk
    · rename_i hrange
      have hkn : s.nr.toNat ≤ k.n.toNat := UInt32.le_iff_toNat_le.mp hrange.2.1
      cases hk
      rw [hs.ckr, messageKeyAt_chainAt]
      congr 1
      omega
    · exact hs.stored k mk hk
  · intro n hn hnone
    rw [h.stored] at hnone
    split at hnone
    · cases hnone
    · rename_i hrange
      -- the number is not one of those the skip stored, so it was below the old `Nr`
      refine hs.kept n (UInt32.not_le.mp fun hge => hrange ⟨hs.dhr, hge, hn⟩) hnone

/-- The key at the end of a skip is the epoch's key of that number. -/
theorem Receiving.take (hs : Receiving p accepted s e) (hdh : h.dh = e.pub) (hn : s.nr = h.n)
    (ht : takeKey p s = .ok (t, mk)) :
    mk = messageKeyAt p e.chain h.n.toNat ∧ Receiving p (accepted ++ [h]) t e
      ∧ t.nr.toNat = h.n.toNat + 1 := by
  have htidy := hs.tidy.takeKey ht
  obtain ⟨-, hmax, rfl, rfl⟩ := takeKey_ok.mp ht
  have hsucc : (s.nr + 1).toNat = s.nr.toNat + 1 := toNat_succ hmax
  refine ⟨?_, ⟨htidy, hs.dhr, ?_, hs.stored, ?_⟩, hn ▸ hsucc⟩
  · rw [hs.ckr, hn]
    rfl
  · show (kdfChain p s.ckr).1 = chainAt p e.chain (s.nr + 1).toNat
    rw [hsucc, hs.ckr]
    rfl
  · intro n hlt hnone
    by_cases heq : n = h.n
    · exact ⟨h, by simp, by rw [heq, ← hdh]; rfl⟩
    · have hlt' : n < s.nr := by
        have hne : n.toNat ≠ s.nr.toNat := fun he => heq (hn ▸ UInt32.toNat_inj.mp he)
        have hlt : n.toNat < (s.nr + 1).toNat := UInt32.lt_iff_toNat_lt.mp hlt
        rw [UInt32.lt_iff_toNat_lt]
        omega
      obtain ⟨h', hmem, heq'⟩ := hs.kept n hlt' hnone
      exact ⟨h', by simp [hmem], heq'⟩

/-- At a number that was sent the key is there to be taken. -/
theorem Receiving.takeKey_isOk (hs : Receiving p accepted s e) (hn : s.nr = h.n)
    (hsent : SentIn p e before h mk) :
    ∃ r, takeKey p s = .ok r := by
  refine ⟨_, takeKey_ok.mpr ⟨?_, hn ▸ hsent.n_ne, rfl, rfl⟩⟩
  rw [hs.ckr, hn]
  exact hsent.chain_ne

/-- A key taken out of the store is the epoch's, and the number counts as accepted. -/
theorem Receiving.fromStore (hs : Receiving p accepted s e)
    (hk : s.mkSkipped[skippedKeyForHeader h]? = some mk)
    (htidy : Tidy { s with mkSkipped := s.mkSkipped.erase (skippedKeyForHeader h) }) :
    mk = messageKeyAt p e.chain h.n.toNat ∧ Receiving p (accepted ++ [h])
      { s with mkSkipped := s.mkSkipped.erase (skippedKeyForHeader h) } e := by
  refine ⟨hs.stored _ _ hk, htidy, hs.dhr, hs.ckr, ?_, ?_⟩
  · intro k mk' hk'
    simp only [ExtTreeMap.getElem?_erase] at hk'
    split at hk'
    · cases hk'
    · exact hs.stored k mk' hk'
  · intro n hlt hnone
    simp only [ExtTreeMap.getElem?_erase] at hnone
    split at hnone
    · rename_i heq
      exact ⟨h, by simp, Std.LawfulEqOrd.eq_of_compare heq⟩
    · obtain ⟨h', hmem, heq'⟩ := hs.kept n hlt hnone
      exact ⟨h', by simp [hmem], heq'⟩

/-! ## Views -/

/-- The state `s` of the owner of `own`, where `own` is its newest epoch, `peer` the peer's newest
epoch it knows, and `older` the epochs before these. `accepted` are the headers it has
accepted. -/
structure View (p : Prims) (accepted : List Header) (s : State) (own peer : Epoch)
    (older : List Epoch) : Prop where
  receiving : Receiving p accepted s peer
  dhs : s.dhs = some own.kp
  rk : s.rk = own.root
  ns : s.ns.toNat = own.sent
  cks : s.cks = chainAt p own.chain own.sent
  pn : s.pn.toNat = firstSent older
  nr_le : s.nr.toNat ≤ peer.sent
  seen : ∀ d, d ∈ s.seenDH ↔ ∃ e before, Earlier (peer :: older) (e :: before) ∧ d = e.pub
  reached : older.length ≤ 1 ∨ ∃ h ∈ accepted, h.dh = peer.pub

variable {own peer : Epoch} {older : List Epoch}

theorem View.dhr (hv : View p accepted s own peer older) : s.dhr = some peer.pub :=
  hv.receiving.dhr

/-- A receive on the current chain changes only the receiving side. -/
theorem View.of_receiving (hv : View p accepted s own peer older)
    (ht : Receiving p (accepted ++ [h]) t peer) (hnr : t.nr.toNat ≤ peer.sent)
    (hdhs : t.dhs = s.dhs) (hrk : t.rk = s.rk) (hns : t.ns = s.ns) (hcks : t.cks = s.cks)
    (hpn : t.pn = s.pn) (hseen : t.seenDH = s.seenDH) :
    View p (accepted ++ [h]) t own peer older where
  receiving := ht
  dhs := hdhs.trans hv.dhs
  rk := hrk.trans hv.rk
  ns := hns ▸ hv.ns
  cks := hcks.trans hv.cks
  pn := hpn ▸ hv.pn
  nr_le := hnr
  seen d := hseen ▸ hv.seen d
  reached := hv.reached.imp_right fun ⟨h', hmem, heq⟩ => ⟨h', by simp [hmem], heq⟩

/-- A send of the party: its own epoch counts one more message. -/
theorem View.send (hv : View p accepted s own peer older)
    (hnext : nextSendingMessageKey p s = .ok (t, h, mk)) :
    View p accepted t own.send peer older ∧ SentIn p own.send (peer :: older) h mk := by
  have htidy := hv.receiving.tidy.sent hnext
  obtain ⟨dhs, hdhs, hz, hmax, rfl, rfl, rfl⟩ := nextSendingMessageKey_ok.mp hnext
  have hns := hv.ns
  have hsucc : (s.ns + 1).toNat = s.ns.toNat + 1 := toNat_succ hmax
  have hdhs' : dhs = own.kp := Option.some.inj (hdhs.symm.trans hv.dhs)
  constructor
  · refine ⟨⟨htidy, hv.dhr, hv.receiving.ckr, hv.receiving.stored, hv.receiving.kept⟩, hv.dhs,
      hv.rk, ?_, ?_, hv.pn, hv.nr_le, hv.seen, hv.reached⟩
    · show (s.ns + 1).toNat = own.sent + 1
      omega
    · show (kdfChain p s.cks).1 = chainAt p own.chain (own.sent + 1)
      rw [hv.cks]
      rfl
  · refine ⟨congrArg KeyPair.publicKey hdhs', ?_, hmax, hv.pn, ?_, ?_⟩
    · show s.ns.toNat < own.sent + 1
      omega
    · show chainAt p own.chain s.ns.toNat ≠ .zero
      rw [hns, ← hv.cks]
      exact hz
    · show (kdfChain p s.cks).2 = messageKeyAt p own.chain s.ns.toNat
      rw [hns, hv.cks]
      rfl

/-- A send of the peer leaves the view as it is. -/
theorem View.peer_send (hv : View p accepted s own peer older) :
    View p accepted s own peer.send older := by
  have hrec := hv.receiving
  refine ⟨⟨hrec.tidy, hrec.dhr, hrec.ckr, hrec.stored, hrec.kept⟩, hv.dhs, hv.rk, hv.ns, hv.cks,
    hv.pn, Nat.le_succ_of_le hv.nr_le, fun d => ?_, hv.reached⟩
  rw [hv.seen d]
  constructor
  · rintro ⟨e, before, hearlier, rfl⟩
    rcases hearlier.head_or with heq | ⟨b, T', rfl, hdeep⟩
    · cases heq
      exact ⟨peer.send, older, .refl _, rfl⟩
    · exact ⟨e, before, .drop _ _ hdeep, rfl⟩
  · rintro ⟨e, before, hearlier, rfl⟩
    rcases hearlier.head_or with heq | ⟨b, T', rfl, hdeep⟩
    · cases heq
      exact ⟨peer, older, .refl _, rfl⟩
    · exact ⟨e, before, .drop _ _ hdeep, rfl⟩

/-- The error is one of the two limits of the receiving side. -/
def IsLimit (e : Err) : Prop := e.is .counterOverflow ∨ e.is .maxSkipExceeded

/-- A skip that the header asks for fails: to its number on the current chain, to the end of the
chain that it leaves behind, or to its number on the chain it opens. -/
inductive Blocked (p : Prims) (s : State) (h : Header) (e : Err) : Prop where
  | current (hd : s.dhr = some h.dh) (hskip : skipMessageKeys p s h.n = .error e)
  | behind (hd : s.dhr ≠ some h.dh) (hskip : skipMessageKeys p s h.pn = .error e)
  | ahead {w : State} {kp : KeyPair} {out outSend : Key} (hd : s.dhr ≠ some h.dh)
      (hrest : skipMessageKeys p s h.pn = .ok w)
      (hskip : skipMessageKeys p (w.ratcheted p h.dh kp out outSend) h.n = .error e)

theorem Blocked.isLimit {e : Err} (hb : Blocked p s h e) (hd : s.dhr.isSome) : IsLimit e := by
  cases hb with
  | current _ hskip => exact skipMessageKeys_error hd hskip
  | behind _ hskip => exact skipMessageKeys_error hd hskip
  | ahead _ _ hskip => exact skipMessageKeys_error rfl hskip

section Receive

variable {accepted : List Header} {s t : State} {own peer : Epoch} {older : List Epoch}
  {h : Header} {mk mk' : Key} {rnd : Except String Key}

/-! ### A header under the epoch the party receives in -/

/-- The key is the sender's, and the party stays in its epoch. -/
theorem View.receive_current (hv : View p accepted s own peer older)
    (hsent : SentIn p peer before h mk') (hadv : advanceForHeader p rnd s h = .ok (t, mk)) :
    mk = mk' ∧ View p (accepted ++ [h]) t own peer older ∧ t.dhr = s.dhr := by
  have htidy := (advanced_of_advanceForHeader hv.receiving.tidy hadv).2
  have hd : s.dhr = some h.dh := hsent.dh ▸ hv.dhr
  rw [hsent.key]
  rcases advanceForHeader_cases hadv with ⟨hk, rfl⟩ | ⟨-, hreplay, u, v, hu, hskip, htake⟩
  · obtain ⟨hmk, hrec⟩ := hv.receiving.fromStore hk htidy
    exact ⟨hmk, hv.of_receiving hrec hv.nr_le rfl rfl rfl rfl rfl rfl, rfl⟩
  · have hle : s.nr ≤ h.n := (checkReplay_ok.mp hreplay _ hd).1 rfl
    rcases catchUp_cases hu with ⟨-, rfl⟩ | ⟨hne, -⟩
    · have hsk := (skipMessageKeys_ok hskip).1
      obtain ⟨hmk, hrec, hnr⟩ := (hv.receiving.skipped hsk).take hsent.dh
        (skipMessageKeys_nr hskip hle) htake
      obtain ⟨-, -, -, rfl⟩ := takeKey_ok.mp htake
      have hn := hsent.n_lt
      exact ⟨hmk, hv.of_receiving hrec (by omega) hsk.dhs hsk.rk hsk.ns hsk.cks hsk.pn
        hsk.seenDH, hsk.dhr⟩
    · exact absurd hd hne

/-- It is refused when its number was accepted before, or when the skip fails. -/
theorem View.refuse_current {e : Err} (hv : View p accepted s own peer older)
    (hsent : SentIn p peer before h mk') (hadv : advanceForHeader p rnd s h = .error e) :
    (∃ h' ∈ accepted, skippedKeyForHeader h' = skippedKeyForHeader h) ∨ Blocked p s h e := by
  have hd : s.dhr = some h.dh := hsent.dh ▸ hv.dhr
  unfold advanceForHeader at hadv
  split at hadv
  · cases hadv
  · rename_i hnone
    by_cases hlt : h.n < s.nr
    · refine .inl ?_
      have hkey : skippedKeyForHeader h = ⟨peer.pub, h.n⟩ := by rw [← hsent.dh]; rfl
      rw [hkey] at hnone ⊢
      exact hv.receiving.kept h.n hlt hnone
    · refine .inr ?_
      have hle := UInt32.not_lt.mp hlt
      have hreplay : checkReplay s h = .ok () := by
        refine checkReplay_ok.mpr fun d hd' => ?_
        rw [hd, Option.some.injEq] at hd'
        exact ⟨fun _ => hle, fun hne => absurd hd' hne⟩
      have hcatch : catchUp p rnd s h = .ok s := if_pos hd
      rw [advanceChain, hreplay, hcatch] at hadv
      cases hskip : skipMessageKeys p s h.n with
      | error e' =>
        simp only [hskip, bind, Except.bind] at hadv
        cases hadv
        exact .current hd hskip
      | ok v =>
        obtain ⟨r, hr⟩ := (hv.receiving.skipped (skipMessageKeys_ok hskip).1).takeKey_isOk
          (skipMessageKeys_nr hskip hle) hsent
        simp only [hskip, bind, Except.bind, hr] at hadv
        cases hadv

/-! ### A header under an earlier epoch of the peer -/

theorem View.receive_older (hv : View p accepted s own peer older)
    (hearlier : Earlier (peer :: older) (e :: before)) (hne : e.pub ≠ peer.pub)
    (hdh : h.dh = e.pub) : advanceForHeader p rnd s h = .error errPreviousRatchetKey := by
  refine Replaced.advanceForHeader_eq hv.receiving.tidy ⟨?_, ?_⟩ rnd
  · exact (hv.seen h.dh).mpr ⟨e, before, hearlier, hdh⟩
  · rw [hv.dhr, hdh, ne_eq, Option.some.injEq]
    exact fun heq => hne heq.symm

/-- **A header of an epoch the party knows.** It yields the key of its sender and leaves the
party in its epoch. -/
theorem View.receive_known (hv : View p accepted s own peer older)
    (hnodup : ((peer :: older).map Epoch.pub).Nodup)
    (hsent : SentUnder p (peer :: older) h mk')
    (hadv : advanceForHeader p rnd s h = .ok (t, mk)) :
    mk = mk' ∧ View p (accepted ++ [h]) t own peer older ∧ t.dhr = s.dhr := by
  obtain ⟨e, before, hearlier, hin⟩ := hsent
  rcases hearlier.head_or with heq | ⟨b, T', rfl, hdeep⟩
  · cases heq
    exact hv.receive_current hin hadv
  · have hmem : e.pub ∈ (b :: T').map Epoch.pub := List.mem_map.mpr ⟨e, .tail _ hdeep.mem, rfl⟩
    have hne : e.pub ≠ peer.pub := fun he => (List.nodup_cons.mp hnodup).1 (he ▸ hmem)
    rw [hv.receive_older hearlier hne hin.dh] at hadv
    cases hadv

/-- It is refused when its number was accepted, when its epoch lies behind the one the party
receives in, or when the skip fails. -/
theorem View.refuse_known {e : Err} (hv : View p accepted s own peer older)
    (hsent : SentUnder p (peer :: older) h mk')
    (hadv : advanceForHeader p rnd s h = .error e) :
    (∃ h' ∈ accepted, skippedKeyForHeader h' = skippedKeyForHeader h)
      ∨ (∃ h' ∈ accepted, h'.dh = peer.pub ∧ h.dh ∈ older.map Epoch.pub)
      ∨ Blocked p s h e := by
  obtain ⟨e', before, hearlier, hin⟩ := hsent
  rcases hearlier.head_or with heq | ⟨b, T', rfl, hdeep⟩
  · cases heq
    exact (hv.refuse_current hin hadv).imp_right .inr
  · -- an earlier epoch of the peer exists, so the party came here by accepting a header
    refine .inr (.inl ?_)
    rcases hv.reached with hlen | ⟨h', hmem, hdh⟩
    · have := List.length_pos_of_mem hdeep.mem
      simp only [List.length_cons] at hlen
      omega
    · refine ⟨h', hmem, hdh, ?_⟩
      rw [hin.dh]
      exact List.mem_map.mpr ⟨e', .tail _ hdeep.mem, rfl⟩

/-! ### A header under an epoch of the peer that is new to the party -/

variable {new : Epoch}

/-- A DH key outside the party's timeline is neither the current one nor a seen one. -/
theorem View.fresh (hv : View p accepted s own peer older)
    (hnew : ∀ e ∈ peer :: older, e.pub ≠ new.pub) (hdh : h.dh = new.pub) :
    s.dhr ≠ some h.dh ∧ s.mkSkipped[skippedKeyForHeader h]? = none
      ∧ checkReplay s h = .ok () := by
  have hne : s.dhr ≠ some h.dh := by
    rw [hv.dhr, hdh, ne_eq, Option.some.injEq]
    exact hnew peer (.head _)
  refine ⟨hne, ?_, ?_⟩
  · exact ExtTreeMap.getElem?_eq_none fun hk => hne (hv.receiving.tidy.stored _ hk).1
  · refine checkReplay_ok.mpr fun d hd => ⟨fun heq => absurd (heq ▸ hd) hne, fun _ hmem => ?_⟩
    obtain ⟨e, before, hearlier, heq⟩ := (hv.seen _).mp hmem
    exact hnew e hearlier.mem (heq.symm.trans hdh)

/-- The state right after the DH ratchet step is at the start of the new epoch's chain. -/
theorem receiving_ratcheted {w : State} {out outSend : Key} (hw : Tidy w)
    (hne : w.dhr ≠ some new.pub) (hchain : new.chain = (rootStep p w.rk out).2) :
    Receiving p accepted (w.ratcheted p new.pub kp out outSend) new where
  tidy := hw.ratcheted hne
  dhr := rfl
  ckr := hchain.symm
  stored k mk hk := by
    refine absurd ?_ (mem_ratcheted (p := p) hw hne kp out outSend k)
    rw [ExtTreeMap.mem_iff_isSome_getElem?, hk]
    rfl
  kept n hn := absurd hn UInt32.not_lt_zero

/-- A header under a new epoch of the peer: the party turns to an epoch of its own. -/
theorem View.receive_new (laws : DHLaws p) (hv : View p accepted s own peer older)
    (hlink : Linked p new own) (hvalid : KeyPairValid p new.kp) (hown : KeyPairValid p own.kp)
    (hnew : ∀ e ∈ peer :: older, e.pub ≠ new.pub)
    (hsent : SentIn p new (own :: peer :: older) h mk')
    (hadv : advanceForHeader p rnd s h = .ok (t, mk)) :
    mk = mk' ∧ ∃ newest : Epoch, View p (accepted ++ [h]) t newest new (own :: peer :: older)
      ∧ Linked p newest new ∧ KeyPairValid p newest.kp ∧ newest.sent = 0 := by
  obtain ⟨hne, hnone, -⟩ := hv.fresh hnew hsent.dh
  have hadvanced := (advanced_of_advanceForHeader hv.receiving.tidy hadv).1
  rcases advanceForHeader_cases hadv with ⟨hk, -⟩ | ⟨-, -, u, v, hu, hskip, htake⟩
  · rw [hnone] at hk
    cases hk
  rcases catchUp_cases hu with ⟨hd, -⟩ | ⟨-, w, hw, hr⟩
  · exact absurd hd hne
  have hsw := (skipMessageKeys_ok hw).1
  obtain ⟨dhs, kp, out, outSend, hdhs, hout, hkp, hsend, rfl⟩ := dhRatchet_ok.mp hr
  -- both sides of the root step over the shared secret agree
  obtain ⟨out', hout', hroot, hchain⟩ := hlink
  have hdhs' : dhs = own.kp := Option.some.inj (hdhs.symm.trans (hsw.dhs.trans hv.dhs))
  have hout_eq : out = out' := by
    rw [hdhs', hsent.dh] at hout
    have hcomm := laws.comm own.kp new.kp hown hvalid
    exact Except.ok.inj (hout.symm.trans (hcomm.trans hout'))
  subst hout_eq
  have hrk : w.rk = own.root := hsw.rk.trans hv.rk
  rw [hsent.dh] at hskip hsend
  have hrec : Receiving p accepted (w.ratcheted p new.pub kp out outSend) new :=
    receiving_ratcheted (hv.receiving.tidy.skipped hsw) (hsent.dh ▸ hsw.dhr ▸ hne)
      (hrk ▸ hchain)
  have hsk := (skipMessageKeys_ok hskip).1
  obtain ⟨hmk, hrec', hnr⟩ := (hrec.skipped hsk).take hsent.dh
    (skipMessageKeys_nr hskip (UInt32.zero_le (a := h.n))) htake
  obtain ⟨-, -, -, rfl⟩ := takeKey_ok.mp htake
  refine ⟨hmk.trans hsent.key.symm,
    ⟨kp, (rootStep p new.root outSend).1, (rootStep p new.root outSend).2, 0⟩, ?_,
    ⟨outSend, hsend, rfl, rfl⟩, keyPairValid_generateKeyPair hkp, rfl⟩
  have hn := hsent.n_lt
  have hroot' : (rootStep p w.rk out).1 = new.root := by rw [hrk, hroot]
  refine ⟨hrec', hsk.dhs, ?_, ?_, ?_, ?_, by omega, ?_, .inr ⟨h, by simp, hsent.dh⟩⟩
  · exact hsk.rk.trans (congrArg (fun r => (rootStep p r outSend).1) hroot')
  · exact congrArg UInt32.toNat hsk.ns
  · exact hsk.cks.trans (congrArg (fun r => (rootStep p r outSend).2) hroot')
  · show v.pn.toNat = own.sent
    rw [hsk.pn]
    show w.ns.toNat = own.sent
    rw [hsw.ns]
    exact hv.ns
  · -- the seen keys: the new one and those seen before
    intro d
    cases hadvanced with
    | fromStore hk _ =>
      rw [ExtTreeMap.mem_iff_isSome_getElem?, hnone] at hk
      cases hk
    | sameDH hd _ _ _ _ _ => exact absurd hd hne
    | newDH _ _ _ hseen _ _ =>
      rw [hseen d, hv.seen d, hsent.dh]
      constructor
      · rintro (rfl | ⟨e, before, hearlier, rfl⟩)
        · exact ⟨new, _, .refl _, rfl⟩
        · exact ⟨e, before, .drop new own hearlier, rfl⟩
      · rintro ⟨e, before, hearlier, rfl⟩
        rcases hearlier.cases with heq | hearlier
        · cases heq
          exact .inl rfl
        · exact .inr ⟨e, before, hearlier, rfl⟩

/-- It is refused only when a skip fails. -/
theorem View.refuse_new {e : Err} (laws : DHLaws p) (hv : View p accepted s own peer older)
    (hlink : Linked p new own) (hvalid : KeyPairValid p new.kp) (hown : KeyPairValid p own.kp)
    (hnew : ∀ e ∈ peer :: older, e.pub ≠ new.pub)
    (hsent : SentIn p new (own :: peer :: older) h mk') (hkp : generateKeyPair p rnd = .ok kp)
    (hadv : advanceForHeader p rnd s h = .error e) : Blocked p s h e := by
  obtain ⟨hne, hnone, hreplay⟩ := hv.fresh hnew hsent.dh
  unfold advanceForHeader at hadv
  rw [hnone] at hadv
  simp only [advanceChain, hreplay, catchUp, if_neg hne] at hadv
  cases hw : skipMessageKeys p s h.pn with
  | error e' =>
    simp only [hw, bind, Except.bind] at hadv
    cases hadv
    exact .behind hne hw
  | ok w =>
    have hsw := (skipMessageKeys_ok hw).1
    -- the DH ratchet step succeeds: Diffie-Hellman over valid keys does
    obtain ⟨out, hout⟩ := laws.total own.kp.privateKey new.kp hvalid
    obtain ⟨outSend, hsend⟩ := laws.total kp.privateKey new.kp hvalid
    have hr : dhRatchet p rnd w h.dh = .ok (w.ratcheted p h.dh kp out outSend) :=
      dhRatchet_ok.mpr ⟨own.kp, kp, out, outSend, hsw.dhs.trans hv.dhs, hsent.dh ▸ hout, hkp,
        hsent.dh ▸ hsend, rfl⟩
    simp only [hw, hr, bind, Except.bind] at hadv
    cases hskip : skipMessageKeys p (w.ratcheted p h.dh kp out outSend) h.n with
    | error e' =>
      simp only [hskip] at hadv
      cases hadv
      exact .ahead hne hw hskip
    | ok v =>
      obtain ⟨out', hout', -, hchain⟩ := hlink
      have hcomm := laws.comm own.kp new.kp hown hvalid
      have hout_eq : out = out' := Except.ok.inj (hout.symm.trans (hcomm.trans hout'))
      have hrec : Receiving p accepted (w.ratcheted p h.dh kp out outSend) new := by
        rw [hsent.dh]
        refine receiving_ratcheted (hv.receiving.tidy.skipped hsw) (hsent.dh ▸ hsw.dhr ▸ hne) ?_
        rw [hsw.rk, hv.rk, hout_eq]
        exact hchain
      obtain ⟨r, hr⟩ := (hrec.skipped (skipMessageKeys_ok hskip).1).takeKey_isOk
        (skipMessageKeys_nr hskip (UInt32.zero_le (a := h.n))) hsent
      simp only [hskip, hr] at hadv
      cases hadv

end Receive

end SignalGo.Ratchet
