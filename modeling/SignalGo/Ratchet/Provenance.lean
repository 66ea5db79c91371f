import SignalGo.Ratchet.Replay

/-!
# Double Ratchet: where receiving keys come from

A receiving chain is meant to start at the output of a root step or at the X3DH initial chain
key. The guard against an unset chain key (`CKr` all zero) stands behind the skip loop, and the
skip loop advances the chain without looking at it: on a state whose `CKr` was never set, a
header that makes the loop run derives keys from the zero key, and the guard then sees a chain
key that is no longer zero.

* `Derived`: the chain keys with a legitimate origin.
* `ChainReady`: the header does not run the skip loop over an unset receiving chain.
* `received_keys_derived`: in a run whose receives are all `ChainReady`, every released and
  every stored key has a legitimate origin, and an unset chain yields none.
* `unset_chain_yields_key`: without it, a responder right after the handshake hands out a key
  that anybody can compute.
-/

namespace SignalGo.Ratchet

open Std (ExtTreeMap ExtTreeSet)

variable {p : Prims} {x3 : X3dh.Result}

/-! ## Legitimate chain keys -/

/-- A chain key with a legitimate origin: an output of `KDFRoot`, the X3DH initial chain key, or
a successor of one under `KDFChain`. -/
inductive Derived (p : Prims) (x3 : X3dh.Result) : Key → Prop where
  | root {rk out rk' ck : Key} : kdfRoot p rk out = .ok (rk', ck) → Derived p x3 ck
  | initial {ck : Key} : x3.initialChainKey = some ck → Derived p x3 ck
  | chain {ck : Key} : Derived p x3 ck → Derived p x3 (kdfChain p ck).1

/-- A message key of a legitimate chain key. -/
def MessageKeyDerived (p : Prims) (x3 : X3dh.Result) (mk : Key) : Prop :=
  ∃ ck, Derived p x3 ck ∧ mk = (kdfChain p ck).2

theorem Derived.rootStep (rk out : Key) : Derived p x3 (rootStep p rk out).2 :=
  .root (kdfRoot_eq p rk out)

variable {ck : Key}

theorem Derived.chainAt (h : Derived p x3 ck) (i : Nat) :
    Derived p x3 (chainAt p ck i) := by
  induction i with
  | zero => exact h
  | succ i ih => exact ih.chain

theorem Derived.messageKeyAt (h : Derived p x3 ck) (i : Nat) :
    MessageKeyDerived p x3 (messageKeyAt p ck i) :=
  ⟨_, h.chainAt i, rfl⟩

/-- Every stored key has a legitimate origin. -/
def StoredDerived (p : Prims) (x3 : X3dh.Result) (s : State) : Prop :=
  ∀ (k : SkippedKey) (mk : Key), s.mkSkipped[k]? = some mk → MessageKeyDerived p x3 mk

/-- The invariant of a state: the receiving chain is unset or legitimate, and so are the stored
keys. -/
structure Provenance (p : Prims) (x3 : X3dh.Result) (s : State) : Prop where
  tidy : Tidy s
  ckr : s.ckr = .zero ∨ Derived p x3 s.ckr
  stored : StoredDerived p x3 s

variable {s : State}

theorem storedDerived_of_eq_empty (h : s.mkSkipped = ∅) : StoredDerived p x3 s := by
  intro k mk hk
  rw [h] at hk
  exact nomatch hk

theorem provenance_initializeState {isInitiator : Bool} {gen : Nat → Except Err KeyPair}
    (h : initializeStateWithGenerator p x3 isInitiator gen = .ok s) :
    Provenance p x3 s := by
  have htidy := tidy_initializeState h
  rcases initializeStateWithGenerator_ok h with ⟨-, h⟩ | ⟨-, h⟩
  · obtain ⟨d, kp, out, -, -, -, -, rfl⟩ := initializeInitiator_ok h
    refine ⟨htidy, ?_, storedDerived_of_eq_empty rfl⟩
    cases hi : x3.initialChainKey with
    | none => exact .inl rfl
    | some ck => exact .inr (.initial hi)
  · obtain ⟨kp, calls, -, ⟨ck, -, rfl⟩ | ⟨out, kp', out', -, -, -, -, rfl⟩⟩ :=
      initializeResponder_ok h
    · exact ⟨htidy, .inl rfl, storedDerived_of_eq_empty rfl⟩
    · exact ⟨htidy, .inr (.rootStep _ _), storedDerived_of_eq_empty rfl⟩

/-! ## The skip loop over a set chain -/

variable {t : State}

/-- The skip loop keeps the invariant when the chain it walks is legitimate, or when it does not
run at all. -/
theorem Provenance.skipped {limit : UInt32} (hs : Provenance p x3 s)
    (hready : Derived p x3 s.ckr ∨ limit ≤ s.nr) (h : skipMessageKeys p s limit = .ok t) :
    Provenance p x3 t := by
  rcases hready with hck | hle
  · have hskip := (skipMessageKeys_ok h).1
    refine ⟨hs.tidy.skipped hskip, .inr (hskip.ckr ▸ hck.chainAt _), ?_⟩
    intro k mk hk
    rw [hskip.stored k] at hk
    split at hk
    · cases hk
      exact hck.messageKeyAt _
    · exact hs.stored k mk hk
  · rw [skipMessageKeys_self hle] at h
    cases h
    exact hs

theorem Provenance.ratcheted (hs : Provenance p x3 s) {theirs : Key} (hne : s.dhr ≠ some theirs)
    {kp : KeyPair} {out outSend : Key} :
    Provenance p x3 (s.ratcheted p theirs kp out outSend) where
  tidy := hs.tidy.ratcheted hne
  ckr := .inr (.rootStep _ _)
  stored k mk hk := by
    refine absurd ?_ (mem_ratcheted (p := p) hs.tidy hne kp out outSend k)
    rw [ExtTreeMap.mem_iff_isSome_getElem?, hk]
    rfl

/-! ## Receives -/

/-- The header does not run the skip loop over an unset receiving chain: the loop that starts on
the state's own chain goes to `N` under the current DH key and to `PN` under another. -/
def ChainReady (s : State) (h : Header) : Prop :=
  ¬ (s.ckr = .zero ∧ s.nr < if s.dhr = some h.dh then h.n else h.pn)

instance (s : State) (h : Header) : Decidable (ChainReady s h) :=
  inferInstanceAs (Decidable (¬ _))

variable {h : Header}

theorem Provenance.ready (hs : Provenance p x3 s) (hready : ChainReady s h) :
    Derived p x3 s.ckr ∨ (if s.dhr = some h.dh then h.n else h.pn) ≤ s.nr := by
  rcases hs.ckr with hz | hck
  · exact .inr (UInt32.not_lt.mp fun hlt => hready ⟨hz, hlt⟩)
  · exact .inl hck

variable {rnd : Except String Key}

/-- After the catch-up the state is as the second skip needs it. -/
theorem Provenance.catchUp (hs : Provenance p x3 s) (hready : ChainReady s h)
    (hc : Ratchet.catchUp p rnd s h = .ok t) :
    Provenance p x3 t ∧ (Derived p x3 t.ckr ∨ h.n ≤ t.nr) := by
  have hready := hs.ready hready
  rcases catchUp_cases hc with ⟨hd, rfl⟩ | ⟨hne, u, hu, hr⟩
  · rw [if_pos hd] at hready
    exact ⟨hs, hready⟩
  · rw [if_neg hne] at hready
    have hu' := hs.skipped hready hu
    have hne' : u.dhr ≠ some h.dh := (skipMessageKeys_ok hu).1.dhr ▸ hne
    obtain ⟨dhs, kp, out, outSend, -, -, -, -, rfl⟩ := dhRatchet_ok.mp hr
    exact ⟨hu'.ratcheted hne', .inl (.rootStep _ _)⟩

/-- **One receive.** A header that meets the condition and yields a key yields a legitimate one,
and keeps the invariant. -/
theorem Provenance.advanceForHeader {mk : Key} (hs : Provenance p x3 s) (hready : ChainReady s h)
    (hadv : Ratchet.advanceForHeader p rnd s h = .ok (t, mk)) :
    MessageKeyDerived p x3 mk ∧ Provenance p x3 t := by
  have htidy := (advanced_of_advanceForHeader hs.tidy hadv).2
  rcases advanceForHeader_cases hadv with ⟨hk, rfl⟩ | ⟨-, -, u, v, hu, hv, ht⟩
  · refine ⟨hs.stored _ _ hk, htidy, hs.ckr, ?_⟩
    intro k mk' hk'
    simp only [ExtTreeMap.getElem?_erase] at hk'
    split at hk'
    · cases hk'
    · exact hs.stored k mk' hk'
  · obtain ⟨hu', hready'⟩ := hs.catchUp hready hu
    have hv' := hu'.skipped hready' hv
    obtain ⟨hz, -, rfl, rfl⟩ := takeKey_ok.mp ht
    have hck := hv'.ckr.resolve_left hz
    exact ⟨⟨_, hck, rfl⟩, htidy, .inr hck.chain, hv'.stored⟩

/-- An unset chain and a header under the current DH key: no key. -/
theorem Provenance.unset_refused (hs : Provenance p x3 s) (hready : ChainReady s h)
    (hz : s.ckr = .zero) (hn : s.nr = 0) (hd : s.dhr = some h.dh) :
    ∃ e, Ratchet.advanceForHeader p rnd s h = .error e := by
  cases hadv : Ratchet.advanceForHeader p rnd s h with
  | error e => exact ⟨e, rfl⟩
  | ok r =>
    exfalso
    have hle : h.n ≤ s.nr := by
      have := UInt32.not_lt.mp fun hlt => hready ⟨hz, hlt⟩
      rwa [if_pos hd] at this
    rcases advanceForHeader_cases hadv with ⟨hk, -⟩ | ⟨-, -, u, v, hu, hv, ht⟩
    · -- no key is stored below `Nr = 0`
      have hmem : skippedKeyForHeader h ∈ s.mkSkipped := by
        rw [ExtTreeMap.mem_iff_isSome_getElem?, hk]
        rfl
      have := (hs.tidy.stored _ hmem).2
      rw [hn] at this
      exact UInt32.not_lt_zero this
    · rcases catchUp_cases hu with ⟨-, rfl⟩ | ⟨hne, -⟩
      · rw [skipMessageKeys_self hle] at hv
        cases hv
        exact (takeKey_ok.mp ht).1 hz
      · exact hne hd

/-! ## Whole runs -/

/-- A committed call; a receive is `ChainReady`. -/
def ReadyStep (p : Prims) (s : State) (e : Event) (t : State) : Prop :=
  Step p s e t ∧ ∀ h mk, e = .received h mk → ChainReady s h

/-- What holds after a run of such calls. -/
structure RunDerived (p : Prims) (x3 : X3dh.Result) (es : List Event) (s : State) : Prop where
  state : Provenance p x3 s
  released : ∀ h mk, .received h mk ∈ es → MessageKeyDerived p x3 mk

theorem RunDerived.step {es : List Event} {e : Event} (hs : RunDerived p x3 es s)
    (h : ReadyStep p s e t) : RunDerived p x3 (es ++ [e]) t := by
  obtain ⟨hstep, hready⟩ := h
  rcases hstep.cases with ⟨header, mk, rfl, hnext⟩ | ⟨rnd, header, mk, rfl, hadv⟩
  · obtain ⟨dhs, -, -, -, -, -, rfl⟩ := nextSendingMessageKey_ok.mp hnext
    refine ⟨⟨hs.state.tidy.step hstep, hs.state.ckr, hs.state.stored⟩, fun h mk' hmem => ?_⟩
    exact hs.released h mk' (by simpa using hmem)
  · obtain ⟨hmk, ht⟩ := hs.state.advanceForHeader (hready _ _ rfl) hadv
    refine ⟨ht, fun h mk' hmem => ?_⟩
    rcases List.mem_append.mp hmem with hmem | hmem
    · exact hs.released h mk' hmem
    · cases List.mem_singleton.mp hmem
      exact hmk

/-- **Provenance of receiving keys.** In a run from an initial state whose receives never run the
skip loop over an unset chain, every key a receive released is a `KDFChain` message key of a
legitimate chain key. The same holds of the next such receive: for the keys that its two skip
loops store and for the key it returns; and while the receiving chain is unset, a header under
the current DH key yields none. -/
theorem received_keys_derived {isInitiator : Bool} {gen : Nat → Except Err KeyPair}
    {s₀ s : State} {es : List Event}
    (hinit : initializeStateWithGenerator p x3 isInitiator gen = .ok s₀)
    (hrun : Run (ReadyStep p) s₀ es s) :
    (∀ h mk, .received h mk ∈ es → MessageKeyDerived p x3 mk)
    ∧ StoredDerived p x3 s
    ∧ ∀ rnd h, ChainReady s h →
        (∀ t, s.dhr ≠ some h.dh → skipMessageKeys p s h.pn = .ok t → StoredDerived p x3 t)
        ∧ (∀ t u, catchUp p rnd s h = .ok t → skipMessageKeys p t h.n = .ok u →
            StoredDerived p x3 u)
        ∧ (∀ t mk, advanceForHeader p rnd s h = .ok (t, mk) → MessageKeyDerived p x3 mk)
        ∧ (s.ckr = .zero → s.nr = 0 → s.dhr = some h.dh →
            ∃ e, advanceForHeader p rnd s h = .error e) := by
  have hs : RunDerived p x3 es s := Run.invariant_history (fun hs => hs.step) hrun
    ⟨provenance_initializeState hinit, by simp⟩
  refine ⟨hs.released, hs.state.stored, fun rnd h hready => ⟨?_, ?_, ?_, ?_⟩⟩
  · intro t hne ht
    have hr := hs.state.ready hready
    rw [if_neg hne] at hr
    exact (hs.state.skipped hr ht).stored
  · intro t u ht hu
    obtain ⟨ht', hr⟩ := hs.state.catchUp hready ht
    exact (ht'.skipped hr hu).stored
  · intro t mk hadv
    exact (hs.state.advanceForHeader hready hadv).1
  · exact hs.state.unset_refused hready

/-- The theorem at the sample responder of the legacy handshake, which accepts message 2. -/
theorem received_keys_derived_sample :
    Run (ReadyStep toyPrims) (sampleState none false)
      [.received ⟨(toyPair 2).publicKey, 0, 2⟩ (messageKeyAt toyPrims (Key.fill 0xff) 2)]
        sampleAhead
    ∧ MessageKeyDerived toyPrims (sampleResult none)
        (messageKeyAt toyPrims (Key.fill 0xff) 2) := by
  have hrun : Run (ReadyStep toyPrims) (sampleState none false)
      [.received ⟨(toyPair 2).publicKey, 0, 2⟩ (messageKeyAt toyPrims (Key.fill 0xff) 2)]
        sampleAhead := by
    refine Run.single ⟨.advanceForHeader (.ok (Key.fill 5)) _ rfl, ?_⟩
    rintro h mk he
    cases he
    decide
  exact ⟨hrun, (received_keys_derived (sampleState_eq none false) hrun).1 _ _ (.head _)⟩

/-! ## The unset chain -/

/-- The responder's handshake result with an initial chain key: its receiving chain is unset. -/
def sampleUnset : X3dh.Result := sampleResult (some (Key.fill 0xAA))

/-- Over the toy primitives the last byte of a legitimate chain key is never zero. -/
theorem derived_last_byte (h : Derived toyPrims sampleUnset ck) :
    ck.toBytes[31]? ≠ some 0 := by
  induction h with
  | @root rk out rk' ck h =>
    have hck : ck = Key.fill 0xff := by
      rw [kdfRoot_eq] at h
      cases h
      rfl
    subst hck
    decide
  | initial h =>
    cases h
    decide
  | @chain ck _ ih =>
    have hlen : ((ck.toBytes.headD 0 ^^^ 1) :: ck.toBytes.tail).length = 32 := by simp
    show (ByteArr.ofBytes 32 ((ck.toBytes.headD 0 ^^^ 1) :: ck.toBytes.tail)).toBytes[31]? ≠ _
    rw [ByteArr.toBytes_ofBytes hlen, List.getElem?_cons_succ, List.getElem?_tail]
    exact ih

/-- **An unset chain yields a key.** Right after the handshake with an initial chain key the
responder has no receiving chain. The header `DH = *DHr, N = 1` makes the skip loop step the zero
key once, the guard behind the loop passes, and a key comes out that has no legitimate origin. -/
theorem unset_chain_yields_key :
    initializeState toyPrims (fun _ => .ok (Key.fill 5)) sampleUnset false
        = .ok (sampleState (some (Key.fill 0xAA)) false)
    ∧ (sampleState (some (Key.fill 0xAA)) false).ckr = .zero
    ∧ (sampleState (some (Key.fill 0xAA)) false).dhr = some (toyPair 2).publicKey
    ∧ ∃ t mk, advanceForHeader toyPrims (.ok (Key.fill 5))
          (sampleState (some (Key.fill 0xAA)) false) ⟨(toyPair 2).publicKey, 0, 1⟩ = .ok (t, mk)
        ∧ mk = messageKeyAt toyPrims .zero 1
        ∧ ¬ MessageKeyDerived toyPrims sampleUnset mk := by
  refine ⟨sampleState_eq _ false, rfl, rfl, _, _, rfl, rfl, ?_⟩
  rintro ⟨ck, hck, heq⟩
  -- the message key keeps the last byte of its chain key
  have hlast : (kdfChain toyPrims ck).2.toBytes[31]? ≠ some 0 := derived_last_byte hck.chain
  rw [← heq] at hlast
  exact hlast (by decide)

end SignalGo.Ratchet
