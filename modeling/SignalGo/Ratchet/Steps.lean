import SignalGo.Ratchet.Message
import SignalGo.Lib.Runs

/-!
# Double Ratchet: what one call can do

One inversion lemma per function of the state machine: when it succeeds, which guards held and
which state came out. Every invariant of the ratchet is proved from these, without unfolding the
functions again.

* `skipMessageKeys_rule`: an invariant of one iteration of the skip loop is an invariant
  of the loop, which ends with `Nr` at the limit or above.
* `dhRatchet_ok`, `takeKey_ok`, `nextSendingMessageKey_ok`: the single steps.
* `advanceForHeader_cases`: a stored key is handed out, or the chain is advanced.
* `Step`, `Event`: a ratchet used by its owner and fed headers by anybody: sends, and
  receives that are committed when they succeed.
-/

namespace SignalGo.Ratchet

open Std (ExtTreeMap ExtTreeSet)

variable {p : Prims}

variable {n : UInt32}

theorem lt_maxUint32 (h : n ≠ maxUint32) : n.toNat + 1 < 2 ^ 32 := by
  have hlt := n.toNat_lt
  have hne : n.toNat ≠ maxUint32.toNat := fun h' => h (UInt32.toNat_inj.mp h')
  have : maxUint32.toNat = 2 ^ 32 - 1 := rfl
  omega

/-- A counter that passed the overflow check really grows by one. -/
theorem toNat_succ (h : n ≠ maxUint32) : (n + 1).toNat = n.toNat + 1 := by
  have := lt_maxUint32 h
  rw [UInt32.toNat_add]
  exact Nat.mod_eq_of_lt this

/-! ## The skip loop -/

/-- The state after one iteration of the skip loop under the DH key `d`. -/
def State.storeSkipped (p : Prims) (s : State) (d : Key) : State :=
  { s with
    ckr := (kdfChain p s.ckr).1
    mkSkipped := s.mkSkipped.insert ⟨d, s.nr⟩ (kdfChain p s.ckr).2
    nr := s.nr + 1 }

variable {s t : State}

theorem skipOne_ok (h : skipOne p s = .ok t) :
    ∃ d, s.dhr = some d ∧ s.nr ≠ maxUint32 ∧ s.mkSkipped.size < maxSkip
      ∧ t = s.storeSkipped p d := by
  unfold skipOne at h
  split at h
  · cases h
  · split at h
    · cases h
    · split at h
      · cases h
      · rename_i hn hsize _ d hd
        cases h
        exact ⟨d, hd, hn, by omega, rfl⟩

/-- What fails in the skip loop, with a DH key present: a limit. -/
theorem skipOne_error {e : Err} {d : Key} (hd : s.dhr = some d) (h : skipOne p s = .error e) :
    e.is .counterOverflow ∨ e.is .maxSkipExceeded := by
  unfold skipOne at h
  rw [hd] at h
  split at h
  · cases h
    exact .inl rfl
  · split at h
    · cases h
      exact .inr rfl
    · cases h

variable {limit : UInt32}

/-- An invariant of one skipped key is an invariant of the loop. -/
theorem skipLoop_rule {I : State → Prop}
    (hstep : ∀ {s t}, I s → s.nr < limit → skipOne p s = .ok t → I t) :
    ∀ {fuel : Nat} {s t : State}, limit.toNat - s.nr.toNat ≤ fuel →
      skipLoop p limit fuel s = .ok t → I s → I t ∧ limit ≤ t.nr := by
  intro fuel
  induction fuel with
  | zero =>
    intro s t hfuel h hI
    cases h
    refine ⟨hI, ?_⟩
    rw [UInt32.le_iff_toNat_le]
    omega
  | succ fuel ih =>
    intro s t hfuel h hI
    unfold skipLoop at h
    split at h
    · rename_i hlt
      obtain ⟨u, hu, hrest⟩ := bind_eq_ok.mp h
      refine ih ?_ hrest (hstep hI hlt hu)
      -- the iteration raised `Nr`, so the remaining distance fits the remaining fuel
      obtain ⟨d, -, hn, -, rfl⟩ := skipOne_ok hu
      have hsucc : (s.storeSkipped p d).nr.toNat = s.nr.toNat + 1 := toNat_succ hn
      omega
    · rename_i hlt
      cases h
      exact ⟨hI, UInt32.not_lt.mp hlt⟩

/-- **Rule for the skip loop.** What every iteration keeps, `skipMessageKeys` keeps; it ends
with `Nr` at the limit or above. -/
theorem skipMessageKeys_rule {I : State → Prop}
    (hstep : ∀ {s t}, I s → s.nr < limit → skipOne p s = .ok t → I t)
    (h : skipMessageKeys p s limit = .ok t) (h0 : I s) : I t ∧ limit ≤ t.nr :=
  skipLoop_rule hstep le_rfl h h0

theorem skipMessageKeys_self (h : limit ≤ s.nr) :
    skipMessageKeys p s limit = .ok s := by
  have : limit.toNat - s.nr.toNat = 0 := by
    rw [UInt32.le_iff_toNat_le] at h
    omega
  rw [skipMessageKeys, this]
  rfl

/-- The chain key `i` steps down the chain from `ck`. -/
def chainAt (p : Prims) (ck : Key) : Nat → Key
  | 0 => ck
  | i + 1 => (kdfChain p (chainAt p ck i)).1

/-- The message key of position `i` of the chain from `ck`. -/
def messageKeyAt (p : Prims) (ck : Key) (i : Nat) : Key := (kdfChain p (chainAt p ck i)).2

theorem chainAt_add (ck : Key) (i j : Nat) :
    chainAt p ck (i + j) = chainAt p (chainAt p ck i) j := by
  induction j with
  | zero => rfl
  | succ j ih =>
    show (kdfChain p (chainAt p ck (i + j))).1 = _
    rw [ih]
    rfl

/-- What the skip loop does on the way from `s` to `t`: the chain walks from `Nr` to the new
`Nr`, the message key of every number it passes is stored under the current DH key, and nothing
else changes. -/
structure Skipped (p : Prims) (s t : State) : Prop where
  dhs : t.dhs = s.dhs
  dhr : t.dhr = s.dhr
  rk : t.rk = s.rk
  cks : t.cks = s.cks
  ns : t.ns = s.ns
  pn : t.pn = s.pn
  seenDH : t.seenDH = s.seenDH
  nr_le : s.nr ≤ t.nr
  ckr : t.ckr = chainAt p s.ckr (t.nr.toNat - s.nr.toNat)
  stored : ∀ k : SkippedKey, t.mkSkipped[k]? =
    if s.dhr = some k.publicKey ∧ s.nr ≤ k.n ∧ k.n < t.nr
    then some (messageKeyAt p s.ckr (k.n.toNat - s.nr.toNat)) else s.mkSkipped[k]?
  size_le : t.mkSkipped.size ≤ max s.mkSkipped.size maxSkip

theorem Skipped.refl (s : State) : Skipped p s s where
  dhs := rfl
  dhr := rfl
  rk := rfl
  cks := rfl
  ns := rfl
  pn := rfl
  seenDH := rfl
  nr_le := UInt32.le_refl _
  ckr := by rw [Nat.sub_self]; rfl
  stored k := (if_neg fun h => UInt32.not_lt.mpr h.2.1 h.2.2).symm
  size_le := le_max_left _ _

/-- One more key is stored. -/
theorem Skipped.skipOne {u : State} (h : Skipped p s t) (hu : skipOne p t = .ok u) :
    Skipped p s u := by
  obtain ⟨d, hd, hn, hsize, rfl⟩ := skipOne_ok hu
  have hsucc : (t.nr + 1).toNat = t.nr.toNat + 1 := toNat_succ hn
  have hle : s.nr.toNat ≤ t.nr.toNat := UInt32.le_iff_toNat_le.mp h.nr_le
  refine ⟨h.dhs, h.dhr, h.rk, h.cks, h.ns, h.pn, h.seenDH, ?_, ?_, ?_, ?_⟩
  · show s.nr ≤ t.nr + 1
    rw [UInt32.le_iff_toNat_le]
    omega
  · show (kdfChain p t.ckr).1 = chainAt p s.ckr ((t.nr + 1).toNat - s.nr.toNat)
    rw [show (t.nr + 1).toNat - s.nr.toNat = (t.nr.toNat - s.nr.toNat) + 1 by omega, h.ckr]
    rfl
  · intro k
    show (t.mkSkipped.insert ⟨d, t.nr⟩ (kdfChain p t.ckr).2)[k]? = _
    rw [ExtTreeMap.getElem?_insert]
    by_cases hk : k = ⟨d, t.nr⟩
    · subst hk
      rw [if_pos Std.ReflOrd.compare_self, if_pos, h.ckr]
      · rfl
      · refine ⟨h.dhr ▸ hd, h.nr_le, ?_⟩
        show t.nr < t.nr + 1
        rw [UInt32.lt_iff_toNat_lt]
        omega
    · rw [if_neg fun h => hk (Std.LawfulEqOrd.eq_of_compare h).symm, h.stored k]
      -- a number below the new `Nr` that is not the old `Nr` is below the old one
      congr 1
      rw [← h.dhr, hd, Option.some.injEq]
      apply propext
      constructor
      · rintro ⟨rfl, h1, h2⟩
        refine ⟨rfl, h1, UInt32.lt_trans h2 ?_⟩
        show t.nr < t.nr + 1
        rw [UInt32.lt_iff_toNat_lt]
        omega
      · rintro ⟨rfl, h1, h2⟩
        refine ⟨rfl, h1, ?_⟩
        have hne : k.n.toNat ≠ t.nr.toNat := by
          intro he
          apply hk
          rw [← UInt32.toNat_inj.mp he]
        have h2' : k.n.toNat < (t.nr + 1).toNat := UInt32.lt_iff_toNat_lt.mp h2
        rw [UInt32.lt_iff_toNat_lt]
        omega
  · show (t.mkSkipped.insert ⟨d, t.nr⟩ (kdfChain p t.ckr).2).size ≤ _
    have := ExtTreeMap.size_insert_le (t := t.mkSkipped) (k := ⟨d, t.nr⟩)
      (v := (kdfChain p t.ckr).2)
    omega

/-- **What `skipMessageKeys` does**: it walks the chain up to the limit. -/
theorem skipMessageKeys_ok (h : skipMessageKeys p s limit = .ok t) :
    Skipped p s t ∧ limit ≤ t.nr ∧ (t.nr = s.nr ∨ t.nr ≤ limit) := by
  have hrule := skipMessageKeys_rule
    (I := fun u => Skipped p s u ∧ (u.nr = s.nr ∨ u.nr ≤ limit)) ?_ h
    ⟨Skipped.refl s, .inl rfl⟩
  · exact ⟨hrule.1.1, hrule.2, hrule.1.2⟩
  · rintro u v ⟨hu, -⟩ hlt hv
    refine ⟨hu.skipOne hv, .inr ?_⟩
    obtain ⟨d, -, hn, -, rfl⟩ := skipOne_ok hv
    show u.nr + 1 ≤ limit
    rw [UInt32.le_iff_toNat_le, toNat_succ hn]
    exact UInt32.lt_iff_toNat_lt.mp hlt

/-- A skip to a number not behind the chain ends exactly there. -/
theorem skipMessageKeys_nr (h : skipMessageKeys p s n = .ok t) (hle : s.nr ≤ n) : t.nr = n := by
  obtain ⟨-, hge, heq | hle'⟩ := skipMessageKeys_ok h
  · exact UInt32.le_antisymm (heq ▸ hle) hge
  · exact UInt32.le_antisymm hle' hge

theorem skipLoop_error : ∀ {fuel : Nat} {s : State} {e : Err},
    s.dhr.isSome → skipLoop p limit fuel s = .error e →
      e.is .counterOverflow ∨ e.is .maxSkipExceeded := by
  intro fuel
  induction fuel with
  | zero =>
    intro s e _ h
    cases h
  | succ fuel ih =>
    intro s e hd h
    obtain ⟨d, hd'⟩ := Option.isSome_iff_exists.mp hd
    unfold skipLoop at h
    split at h
    · cases hu : skipOne p s with
      | error e' =>
        rw [hu] at h
        cases h
        exact skipOne_error hd' hu
      | ok u =>
        rw [hu] at h
        obtain ⟨_, -, -, -, rfl⟩ := skipOne_ok hu
        exact ih (s := s.storeSkipped p _) hd h
    · cases h

/-- With a DH key present the loop fails only at one of its limits. -/
theorem skipMessageKeys_error {e : Err} (hd : s.dhr.isSome)
    (h : skipMessageKeys p s limit = .error e) :
    e.is .counterOverflow ∨ e.is .maxSkipExceeded :=
  skipLoop_error hd h

/-! ## The other steps -/

/-- The state after a DH ratchet step towards `theirs` that generated `kp`. -/
def State.ratcheted (p : Prims) (s : State) (theirs : Key) (kp : KeyPair)
    (out outSend : Key) : State where
  dhs := some kp
  dhr := some theirs
  rk := (rootStep p (rootStep p s.rk out).1 outSend).1
  cks := (rootStep p (rootStep p s.rk out).1 outSend).2
  ckr := (rootStep p s.rk out).2
  ns := 0
  nr := 0
  pn := s.ns
  mkSkipped := s.mkSkipped.filter fun k _ => k.publicKey == theirs
  seenDH := (match s.dhr with
    | some dhr => s.seenDH.insert dhr
    | none => s.seenDH).insert theirs

variable {rnd : Except String Key}

/-- A DH step needs two agreements and a fresh pair. -/
theorem dhRatchet_ok {theirs : Key} :
    dhRatchet p rnd s theirs = .ok t ↔ ∃ dhs kp out outSend, s.dhs = some dhs
      ∧ dh p dhs.privateKey theirs = .ok out ∧ generateKeyPair p rnd = .ok kp
      ∧ dh p kp.privateKey theirs = .ok outSend ∧ t = s.ratcheted p theirs kp out outSend := by
  unfold dhRatchet
  cases hs : s.dhs with
  | none => exact ⟨nofun, fun ⟨_, _, _, _, h, _⟩ => by cases h⟩
  | some dhs =>
    simp only [kdfRoot_eq, bind_eq_ok, mapError_eq_ok, Except.ok.injEq, Prod.exists]
    constructor
    · rintro ⟨out, hout, _, _, h1, kp, hkp, outSend, hsend, _, _, h2, h⟩
      obtain ⟨rfl, rfl⟩ := Prod.mk.inj h1
      obtain ⟨rfl, rfl⟩ := Prod.mk.inj h2
      cases h
      exact ⟨dhs, kp, out, outSend, rfl, hout, hkp, hsend, rfl⟩
    · rintro ⟨_, kp, out, outSend, hd, hout, hkp, hsend, rfl⟩
      cases hd
      exact ⟨out, hout, _, _, rfl, kp, hkp, outSend, hsend, _, _, rfl, rfl⟩

variable {mk : Key}

theorem takeKey_ok :
    takeKey p s = .ok (t, mk) ↔ s.ckr ≠ .zero ∧ s.nr ≠ maxUint32
      ∧ mk = (kdfChain p s.ckr).2
      ∧ t = { s with ckr := (kdfChain p s.ckr).1, nr := s.nr + 1 } := by
  unfold takeKey
  split
  · rename_i h
    exact ⟨nofun, fun h' => absurd h h'.1⟩
  · split
    · rename_i h
      exact ⟨nofun, fun h' => absurd h h'.2.1⟩
    · rename_i hz hn
      constructor
      · intro h
        cases h
        exact ⟨hz, hn, rfl, rfl⟩
      · rintro ⟨-, -, rfl, rfl⟩
        rfl

variable {h : Header}

theorem nextSendingMessageKey_ok :
    nextSendingMessageKey p s = .ok (t, h, mk) ↔ ∃ dhs, s.dhs = some dhs ∧ s.cks ≠ .zero
      ∧ s.ns ≠ maxUint32 ∧ h = ⟨dhs.publicKey, s.pn, s.ns⟩ ∧ mk = (kdfChain p s.cks).2
      ∧ t = { s with cks := (kdfChain p s.cks).1, ns := s.ns + 1 } := by
  unfold nextSendingMessageKey
  cases hs : s.dhs with
  | none => exact ⟨nofun, fun ⟨_, h, _⟩ => by cases h⟩
  | some dhs =>
    dsimp only
    split
    · rename_i h
      exact ⟨nofun, fun ⟨_, _, h', _⟩ => absurd h h'⟩
    · split
      · rename_i h
        exact ⟨nofun, fun ⟨_, _, _, h', _⟩ => absurd h h'⟩
      · rename_i hz hn
        constructor
        · intro h
          cases h
          exact ⟨dhs, rfl, hz, hn, rfl, rfl, rfl⟩
        · rintro ⟨_, h, -, -, rfl, rfl, rfl⟩
          cases h
          rfl

/-- `Encrypt` moves the state as `NextSendingMessageKey` does. -/
theorem encrypt_ok {m : Message} {plaintext ad : Bytes}
    (h : encrypt p s plaintext ad = .ok (t, m)) :
    ∃ mk, nextSendingMessageKey p s = .ok (t, m.header, mk) := by
  obtain ⟨⟨u, header, mk⟩, hnext, h⟩ := bind_eq_ok.mp h
  obtain ⟨_, -, h⟩ := bind_eq_ok.mp h
  cases h
  exact ⟨mk, hnext⟩

/-- `Decrypt` succeeds when `AdvanceForHeader` does and its key opens the message. -/
theorem decrypt_ok {m : Message} {ad plaintext : Bytes} :
    decrypt p rnd s m ad = .ok (t, plaintext) ↔ ∃ mk,
      advanceForHeader p rnd s m.header = .ok (t, mk)
        ∧ decryptWithMessageKey p mk m ad = .ok plaintext := by
  rw [decrypt_eq]
  simp only [bind_eq_ok, Prod.exists]
  constructor
  · rintro ⟨next, mk, hadv, pt, hpt, h⟩
    cases h
    exact ⟨mk, hadv, hpt⟩
  · rintro ⟨mk, hadv, hpt⟩
    exact ⟨t, mk, hadv, plaintext, hpt, rfl⟩

theorem checkReplay_ok : checkReplay s h = .ok () ↔
    ∀ d, s.dhr = some d → (h.dh = d → s.nr ≤ h.n) ∧ (h.dh ≠ d → h.dh ∉ s.seenDH) := by
  unfold checkReplay
  cases hd : s.dhr with
  | none => simp
  | some d =>
    simp only [Option.some.injEq, forall_eq']
    by_cases h1 : h.dh = d
    · by_cases h2 : h.n < s.nr
      · simp only [h1, h2, and_self, if_true]
        exact ⟨nofun, fun h' => absurd h2 (UInt32.not_lt.mpr (h'.1 trivial))⟩
      · simp [h1, h2, UInt32.not_lt.mp h2]
    · by_cases h2 : h.dh ∈ s.seenDH
      · simp [h1, h2]
      · simp [h1, h2]

/-- **What a successful receive does.** A stored key is handed out and forgotten; or the
header passes the replay checks, the DH ratchet catches up with its key, the chain skips to its
number and the next key is taken. -/
theorem advanceForHeader_cases (hadv : advanceForHeader p rnd s h = .ok (t, mk)) :
    (s.mkSkipped[skippedKeyForHeader h]? = some mk
      ∧ t = { s with mkSkipped := s.mkSkipped.erase (skippedKeyForHeader h) })
    ∨ (s.mkSkipped[skippedKeyForHeader h]? = none ∧ checkReplay s h = .ok () ∧ ∃ u v,
        catchUp p rnd s h = .ok u ∧ skipMessageKeys p u h.n = .ok v
          ∧ takeKey p v = .ok (t, mk)) := by
  unfold advanceForHeader at hadv
  split at hadv
  · rename_i hk
    cases hadv
    exact .inl ⟨hk, rfl⟩
  · rename_i hk
    obtain ⟨_, hreplay, hadv⟩ := bind_eq_ok.mp hadv
    obtain ⟨u, hu, hadv⟩ := bind_eq_ok.mp hadv
    obtain ⟨v, hv, hadv⟩ := bind_eq_ok.mp hadv
    exact .inr ⟨hk, hreplay, u, v, hu, hv, hadv⟩

/-- The catch-up is nothing, or a skip to `PN` and a DH ratchet step. -/
theorem catchUp_cases (hc : catchUp p rnd s h = .ok t) :
    (s.dhr = some h.dh ∧ t = s) ∨ (s.dhr ≠ some h.dh ∧ ∃ u,
      skipMessageKeys p s h.pn = .ok u ∧ dhRatchet p rnd u h.dh = .ok t) := by
  unfold catchUp at hc
  split at hc
  · rename_i hd
    cases hc
    exact .inl ⟨hd, rfl⟩
  · rename_i hd
    obtain ⟨u, hu, hr⟩ := bind_eq_ok.mp hc
    exact .inr ⟨hd, u, hu, hr⟩

/-! ## Initial states -/

variable {x3 : X3dh.Result} {gen : Nat → Except Err KeyPair}

/-- The initiator starts with the responder's ratchet key as `DHr`, the initial chain key (when
there is one) as receiving chain, and a sending chain from the first root step. -/
theorem initializeInitiator_ok (h : initializeInitiator p x3 gen = .ok s) :
    ∃ d kp out, x3.remoteRatchetKey = some d
      ∧ (gen 0 = .ok kp ∨ x3.initialChainKey = none ∧ x3.localEphemeral = some kp)
      ∧ (x3.initialChainKey = none → ∀ kp', x3.localEphemeral = some kp' → kp = kp')
      ∧ dh p kp.privateKey d = .ok out
      ∧ s = { emptyState (rootStep p x3.sharedSecret out).1 with
          dhs := some kp, dhr := some d, cks := (rootStep p x3.sharedSecret out).2
          ckr := x3.initialChainKey.getD .zero, seenDH := (∅ : ExtTreeSet Key).insert d } := by
  unfold initializeInitiator at h
  cases hd : x3.remoteRatchetKey with
  | none =>
    rw [hd] at h
    cases h
  | some d =>
    rw [hd] at h
    obtain ⟨⟨ckr, kp⟩, hkp, h⟩ := bind_eq_ok.mp h
    obtain ⟨out, hout, h⟩ := bind_eq_ok.mp h
    rw [mapError_eq_ok] at hout
    obtain ⟨_, hroot, h⟩ := bind_eq_ok.mp h
    rw [kdfRoot_eq] at hroot
    cases hroot
    cases h
    unfold initiatorKeys at hkp
    cases hi : x3.initialChainKey with
    | some ck =>
      rw [hi] at hkp
      obtain ⟨_, hgen, hkp⟩ := bind_eq_ok.mp hkp
      cases hkp
      exact ⟨d, kp, out, rfl, .inl (mapError_eq_ok.mp hgen), nofun, hout, rfl⟩
    | none =>
      rw [hi] at hkp
      cases he : x3.localEphemeral with
      | some kp' =>
        rw [he] at hkp
        cases hkp
        refine ⟨d, kp, out, rfl, .inr ⟨rfl, rfl⟩, ?_, hout, rfl⟩
        intro _ _ h
        cases h
        rfl
      | none =>
        rw [he] at hkp
        obtain ⟨_, hgen, hkp⟩ := bind_eq_ok.mp hkp
        cases hkp
        refine ⟨d, kp, out, rfl, .inl (mapError_eq_ok.mp hgen), ?_, hout, rfl⟩
        intro _ _ h
        cases h

/-- The responder starts with the initiator's base key as `DHr`. With an initial chain key this
is its sending chain and no root step is made; otherwise the first receiving chain and a fresh
sending chain come from two root steps. -/
theorem initializeResponder_ok (h : initializeResponder p x3 gen = .ok s) :
    ∃ kp calls, (x3.localRatchetKey = some kp ∧ calls = 0
        ∨ x3.localRatchetKey = none ∧ gen 0 = .ok kp ∧ calls = 1)
      ∧ ((∃ ck, x3.initialChainKey = some ck
          ∧ s = { emptyState x3.sharedSecret with
              dhs := some kp, dhr := some x3.initialMessage.ephemeralKey, cks := ck
              seenDH := (∅ : ExtTreeSet Key).insert x3.initialMessage.ephemeralKey })
        ∨ (∃ out kp' out', x3.initialChainKey = none
          ∧ dh p kp.privateKey x3.initialMessage.ephemeralKey = .ok out
          ∧ gen calls = .ok kp'
          ∧ dh p kp'.privateKey x3.initialMessage.ephemeralKey = .ok out'
          ∧ s = { emptyState (rootStep p (rootStep p x3.sharedSecret out).1 out').1 with
              dhs := some kp', dhr := some x3.initialMessage.ephemeralKey
              ckr := (rootStep p x3.sharedSecret out).2
              cks := (rootStep p (rootStep p x3.sharedSecret out).1 out').2
              seenDH := (∅ : ExtTreeSet Key).insert x3.initialMessage.ephemeralKey })) := by
  unfold initializeResponder at h
  obtain ⟨⟨kp, calls⟩, hkp, h⟩ := bind_eq_ok.mp h
  refine ⟨kp, calls, ?_, ?_⟩
  · unfold responderKey at hkp
    cases hl : x3.localRatchetKey with
    | some kp' =>
      rw [hl] at hkp
      cases hkp
      exact .inl ⟨rfl, rfl⟩
    | none =>
      rw [hl] at hkp
      obtain ⟨_, hgen, hkp⟩ := bind_eq_ok.mp hkp
      cases hkp
      exact .inr ⟨rfl, mapError_eq_ok.mp hgen, rfl⟩
  · cases hi : x3.initialChainKey with
    | some ck =>
      simp only [hi] at h
      cases h
      exact .inl ⟨ck, rfl, rfl⟩
    | none =>
      simp only [hi, kdfRoot_eq, bind_eq_ok, mapError_eq_ok, Except.ok.injEq, Prod.exists] at h
      obtain ⟨out, hout, _, _, h1, kp', hkp', out', hout', _, _, h2, h⟩ := h
      obtain ⟨rfl, rfl⟩ := Prod.mk.inj h1
      obtain ⟨rfl, rfl⟩ := Prod.mk.inj h2
      cases h
      exact .inr ⟨out, kp', out', rfl, hout, hkp', hout', rfl⟩

theorem initializeStateWithGenerator_ok {isInitiator : Bool}
    (h : initializeStateWithGenerator p x3 isInitiator gen = .ok s) :
    (isInitiator = true ∧ initializeInitiator p x3 gen = .ok s)
    ∨ (isInitiator = false ∧ initializeResponder p x3 gen = .ok s) := by
  unfold initializeStateWithGenerator at h
  split at h
  · cases h
  · cases isInitiator with
    | true => exact .inl ⟨rfl, h⟩
    | false => exact .inr ⟨rfl, h⟩

/-! ## Runs of one ratchet -/

/-- What one committed call shows: the header it made, or the header it accepted with the
message key it released or decrypted with. -/
inductive Event where
  | sent (header : Header)
  | received (header : Header) (messageKey : Key)

/-- The committed calls on one state. Random bytes, headers, messages and associated data are
arbitrary. -/
inductive Step (p : Prims) (s : State) : Event → State → Prop where
  | nextSendingMessageKey {t : State} {h : Header} {mk : Key} :
      nextSendingMessageKey p s = .ok (t, h, mk) → Step p s (.sent h) t
  | encrypt {t : State} {m : Message} (plaintext ad : Bytes) :
      encrypt p s plaintext ad = .ok (t, m) → Step p s (.sent m.header) t
  | advanceForHeader {t : State} {mk : Key} (rnd : Except String Key) (h : Header) :
      advanceForHeader p rnd s h = .ok (t, mk) → Step p s (.received h mk) t
  | decrypt {t : State} {mk plaintext : _} (rnd : Except String Key) (m : Message) (ad : Bytes) :
      decrypt p rnd s m ad = .ok (t, plaintext) →
      Ratchet.advanceForHeader p rnd s m.header = .ok (t, mk) →
      Step p s (.received m.header mk) t

/-- Every committed call is a send or a receive. -/
theorem Step.cases {e : Event} (h : Step p s e t) :
    (∃ header mk, e = .sent header ∧ Ratchet.nextSendingMessageKey p s = .ok (t, header, mk))
    ∨ (∃ rnd header mk, e = .received header mk
        ∧ Ratchet.advanceForHeader p rnd s header = .ok (t, mk)) := by
  cases h with
  | nextSendingMessageKey h => exact .inl ⟨_, _, rfl, h⟩
  | encrypt plaintext ad h =>
    obtain ⟨mk, hnext⟩ := encrypt_ok h
    exact .inl ⟨_, mk, rfl, hnext⟩
  | advanceForHeader rnd h hadv => exact .inr ⟨rnd, h, _, rfl, hadv⟩
  | decrypt rnd m ad _ hadv => exact .inr ⟨rnd, m.header, _, rfl, hadv⟩

/-! ## A sample handshake -/

/-- The result of a handshake over the toy primitives, with or without an initial chain key. It
carries the fields of both sides: the ephemeral pair is `toyPair 2`, the signed pre-key
`toyPair 4`. -/
def sampleResult (initialChainKey : Option Key) : X3dh.Result where
  sharedSecret := Key.fill 7
  initialChainKey := initialChainKey
  pqrKey := none
  associatedData := []
  remoteIdentity := ⟨Key.fill 1, Key.fill 1⟩
  initialMessage := {
    identityKey := ⟨Key.fill 1, Key.fill 1⟩
    ephemeralKey := (toyPair 2).publicKey
    preKeyID := none
    signedPreKeyID := 1
    kyberPreKeyID := none
    kyberCiphertext := []
    ciphertext := [] }
  localEphemeral := some (toyPair 2)
  localRatchetKey := some (toyPair 4)
  remoteRatchetKey := some (toyPair 4).publicKey

/-- The initial state of one side of the sample handshake. -/
def sampleState (initialChainKey : Option Key) (isInitiator : Bool) : State :=
  (initializeState toyPrims (fun _ => .ok (Key.fill 5)) (sampleResult initialChainKey)
    isInitiator).toOption.getD (emptyState .zero)

theorem sampleState_eq (initialChainKey : Option Key) (isInitiator : Bool) :
    initializeState toyPrims (fun _ => .ok (Key.fill 5)) (sampleResult initialChainKey)
      isInitiator = .ok (sampleState initialChainKey isInitiator) := by
  cases initialChainKey <;> cases isInitiator <;> rfl

end SignalGo.Ratchet
