import SignalGo.Ratchet.Agreement

/-!
# Message loss and the limit on skipped keys

`skipMessageKeys` compares the number of keys that are stored, not of those it adds, with
`MaxSkip`. Keys of lost messages stay in the store for as long as the chain does, so that the
losses of a chain add up: a gap that is small by itself can be refused.

* `skipMessageKeys_room`: the loop succeeds exactly if what is stored and what it adds fit.
* `SkipFits`: the condition on a header, on the chain it belongs to.
* `bounded_loss`: in an honest run a header is accepted exactly under that condition.
-/

namespace SignalGo.Ratchet

open Std (ExtTreeMap ExtTreeSet)

variable {p : Prims} {s t : State} {h : Header}

/-! ## The loop -/

theorem skipOne_eq {d : Key} (hd : s.dhr = some d) (hn : s.nr ≠ maxUint32)
    (hsize : s.mkSkipped.size < maxSkip) : skipOne p s = .ok (s.storeSkipped p d) := by
  simp only [skipOne, if_neg hn, if_neg (Nat.not_le.mpr hsize), hd]
  simp only [State.storeSkipped, hd]

theorem Tidy.skipOne (hs : Tidy s) (ht : Ratchet.skipOne p s = .ok t) : Tidy t :=
  hs.skipped ((Skipped.refl s).skipOne ht)

/-- The number at the end of the chain is not stored yet. -/
theorem Tidy.size_storeSkipped (hs : Tidy s) (d : Key) :
    (s.storeSkipped p d).mkSkipped.size = s.mkSkipped.size + 1 := by
  have hnew : (⟨d, s.nr⟩ : SkippedKey) ∉ s.mkSkipped := fun hmem =>
    UInt32.lt_irrefl _ (hs.stored _ hmem).2
  rw [State.storeSkipped, ExtTreeMap.size_insert,
    if_neg fun hmem => hnew (ExtTreeMap.mem_iff_contains.mpr hmem)]

/-- The loop returns exactly if the store has room for the skipped keys. -/
theorem skipLoop_room {limit : UInt32} : ∀ {fuel : Nat} {s : State}, Tidy s →
    limit.toNat - s.nr.toNat = fuel →
      ((∃ t, skipLoop p limit fuel s = .ok t) ↔ s.mkSkipped.size + fuel ≤ maxSkip) := by
  intro fuel
  induction fuel with
  | zero =>
    intro s hs _
    exact iff_of_true ⟨s, rfl⟩ hs.size_le
  | succ fuel ih =>
    intro s hs hfuel
    obtain ⟨d, hd, -⟩ := hs.current
    have hlt : s.nr < limit := by
      rw [UInt32.lt_iff_toNat_lt]
      omega
    have hn : s.nr ≠ maxUint32 := by
      intro heq
      have hmax : s.nr.toNat = 2 ^ 32 - 1 := by rw [heq]; rfl
      have := limit.toNat_lt
      omega
    rw [skipLoop, if_pos hlt]
    by_cases hsize : s.mkSkipped.size < maxSkip
    · -- the iteration stores one key and leaves the rest of the way
      have hone := skipOne_eq (p := p) hd hn hsize
      have hsucc : (s.storeSkipped p d).nr.toNat = s.nr.toNat + 1 := toNat_succ hn
      rw [hone, ok_bind, ih (hs.skipOne hone) (by omega), hs.size_storeSkipped]
      omega
    · refine iff_of_false ?_ (by omega)
      rintro ⟨t, ht⟩
      obtain ⟨u, hu, -⟩ := bind_eq_ok.mp ht
      obtain ⟨-, -, -, hroom, -⟩ := skipOne_ok hu
      exact hsize hroom

/-- **The skip loop** succeeds exactly if the keys that are stored and those it adds fit. -/
theorem skipMessageKeys_room (hs : Tidy s) (limit : UInt32) :
    (∃ t, skipMessageKeys p s limit = .ok t) ↔
      s.mkSkipped.size + (limit.toNat - s.nr.toNat) ≤ maxSkip :=
  skipLoop_room hs rfl

theorem skipMessageKeys_size {limit : UInt32} (hs : Tidy s)
    (ht : skipMessageKeys p s limit = .ok t) :
    t.mkSkipped.size = s.mkSkipped.size + (limit.toNat - s.nr.toNat) := by
  have hrule := skipMessageKeys_rule (I := fun u => Tidy u ∧
    u.mkSkipped.size + s.nr.toNat = s.mkSkipped.size + u.nr.toNat) ?_ ht ⟨hs, rfl⟩
  · obtain ⟨hsk, hge, hle⟩ := skipMessageKeys_ok ht
    have hsum := hrule.1.2
    have hmono := UInt32.le_iff_toNat_le.mp hsk.nr_le
    rw [UInt32.le_iff_toNat_le] at hge
    rcases hle with heq | hle
    · rw [heq] at hsum hge
      omega
    · rw [UInt32.le_iff_toNat_le] at hle
      omega
  · rintro u v ⟨hu, hsum⟩ - hv
    refine ⟨hu.skipOne hv, ?_⟩
    obtain ⟨d, -, hn, -, rfl⟩ := skipOne_ok hv
    have hsucc : (u.storeSkipped p d).nr.toNat = u.nr.toNat + 1 := toNat_succ hn
    rw [hu.size_storeSkipped]
    omega

/-! ## One header -/

/-- The keys that the header makes the receiver skip, and those that are stored, fit: on the
current chain up to its number; under a new DH key up to the end of the chain it leaves behind,
and up to its number on the new chain, which starts with an empty store. -/
def SkipFits (s : State) (h : Header) : Prop :=
  if s.dhr = some h.dh then s.mkSkipped.size + (h.n.toNat - s.nr.toNat) ≤ maxSkip
  else s.mkSkipped.size + (h.pn.toNat - s.nr.toNat) ≤ maxSkip ∧ h.n.toNat ≤ maxSkip

instance (s : State) (h : Header) : Decidable (SkipFits s h) := by
  unfold SkipFits
  infer_instance

/-- The DH ratchet step leaves no key in the store. -/
theorem size_ratcheted (hs : Tidy s) {theirs : Key} (hne : s.dhr ≠ some theirs) (kp : KeyPair)
    (out outSend : Key) : (s.ratcheted p theirs kp out outSend).mkSkipped.size = 0 := by
  rw [← ExtTreeMap.eq_empty_iff_size_eq_zero, ExtTreeMap.eq_empty_iff_forall_not_mem]
  exact mem_ratcheted hs hne kp out outSend

theorem skipMessageKeys_ratcheted_room (hs : Tidy s) {theirs : Key} (hne : s.dhr ≠ some theirs)
    (kp : KeyPair) (out outSend : Key) (n : UInt32) :
    (∃ t, skipMessageKeys p (s.ratcheted p theirs kp out outSend) n = .ok t) ↔
      n.toNat ≤ maxSkip := by
  rw [skipMessageKeys_room (hs.ratcheted hne), size_ratcheted hs hne, Nat.zero_add,
    show (s.ratcheted p theirs kp out outSend).nr.toNat = 0 from rfl, Nat.sub_zero]

/-- A skip that fails does not fit. -/
theorem Blocked.not_fits {e : Err} (hb : Blocked p s h e) (hs : Tidy s) : ¬ SkipFits s h := by
  intro hfits
  cases hb with
  | current hd hskip =>
    rw [SkipFits, if_pos hd, ← skipMessageKeys_room (p := p) hs] at hfits
    obtain ⟨t, ht⟩ := hfits
    rw [hskip] at ht
    cases ht
  | behind hd hskip =>
    rw [SkipFits, if_neg hd, ← skipMessageKeys_room (p := p) hs] at hfits
    obtain ⟨⟨t, ht⟩, -⟩ := hfits
    rw [hskip] at ht
    cases ht
  | @ahead w kp out outSend hd hrest hskip =>
    rw [SkipFits, if_neg hd] at hfits
    have hsk := (skipMessageKeys_ok hrest).1
    obtain ⟨t, ht⟩ := (skipMessageKeys_ratcheted_room (hs.skipped hsk) (hsk.dhr ▸ hd) kp out outSend
      h.n).mpr hfits.2
    rw [hskip] at ht
    cases ht

variable {rnd : Except String Key}

/-- A header that is accepted fits. -/
theorem skipFits_of_advance {mk : Key} (hs : Tidy s)
    (hadv : advanceForHeader p rnd s h = .ok (t, mk)) : SkipFits s h := by
  rcases advanceForHeader_cases hadv with ⟨hk, -⟩ | ⟨-, -, u, v, hu, hskip, -⟩
  · -- a stored key belongs to the current chain, and asks for no skip
    have hmem : skippedKeyForHeader h ∈ s.mkSkipped := by
      rw [ExtTreeMap.mem_iff_isSome_getElem?, hk]
      rfl
    obtain ⟨hd, hlt⟩ := hs.stored _ hmem
    have hlt : h.n.toNat < s.nr.toNat := UInt32.lt_iff_toNat_lt.mp hlt
    rw [SkipFits, if_pos (show s.dhr = some h.dh from hd), Nat.sub_eq_zero_of_le hlt.le]
    exact hs.size_le
  · rcases catchUp_cases hu with ⟨hd, rfl⟩ | ⟨hne, w, hw, hr⟩
    · rw [SkipFits, if_pos hd, ← skipMessageKeys_room (p := p) hs]
      exact ⟨v, hskip⟩
    · obtain ⟨dhs, kp, out, outSend, -, -, -, -, rfl⟩ := dhRatchet_ok.mp hr
      have hsk := (skipMessageKeys_ok hw).1
      rw [SkipFits, if_neg hne, ← skipMessageKeys_room (p := p) hs]
      exact ⟨⟨w, hw⟩, (skipMessageKeys_ratcheted_room (hs.skipped hsk)
        (hsk.dhr ▸ hne) kp out outSend h.n).mp ⟨v, hskip⟩⟩

/-! ## Honest runs -/

variable {c : Config}

theorem Sync.tidy {x : Party} {e1 e2 e3 : Epoch} {rest : List Epoch}
    (hs : Sync p c x e1 e2 e3 rest) (y : Party) : Tidy (c.st y) := by
  rcases x.eq_or_other y with rfl | rfl
  · exact hs.ahead.receiving.tidy
  · exact hs.behind.receiving.tidy

/-- A header of the peer that is new, and of no chain left behind, is accepted exactly if it
fits. -/
theorem Sync.accepts_iff {x y : Party} {e1 e2 e3 : Epoch} {rest : List Epoch} {mk' : Key}
    {kp : KeyPair} (laws : DHLaws p) (hs : Sync p c x e1 e2 e3 rest)
    (hh : (h, mk') ∈ c.sent y.other) (hnew : h ∉ c.accepted y)
    (hlive : ¬ ∃ h' ∈ c.accepted y, NewerKey c.keys h'.dh h.dh)
    (hkp : generateKeyPair p rnd = .ok kp) :
    (∃ t mk, advanceForHeader p rnd (c.st y) h = .ok (t, mk)) ↔ SkipFits (c.st y) h := by
  constructor
  · rintro ⟨t, mk, hadv⟩
    exact skipFits_of_advance (hs.tidy y) hadv
  · intro hfits
    cases hadv : advanceForHeader p rnd (c.st y) h with
    | ok r => exact ⟨r.1, r.2, rfl⟩
    | error e =>
      rcases hs.refuse_cases laws hh hkp hadv with hmem | hold | hblocked
      · exact absurd hmem hnew
      · exact absurd hold hlive
      · exact absurd hfits (hblocked.not_fits (hs.tidy y))

/-- **Bounded loss.** Two parties start from matching handshakes and exchange headers in any
interleaving, with loss and reordering. A header of the peer that was not accepted yet, and whose
chain was not left behind, is accepted exactly if the keys it makes the receiver skip fit the
store beside those that are stored already. -/
theorem bounded_loss {xa xb : X3dh.Result} {ek spk : KeyPair} {rndA rndB : Nat → Except String Key}
    {a b : State} {c : Config} {steps : List Party} (laws : DHLaws p) (hm : Matching p xa xb ek spk)
    (ha : initializeState p rndA xa true = .ok a) (hb : initializeState p rndB xb false = .ok b)
    (hnodup : (initialKeys xa ek spk a b).Nodup)
    (hrun : Run (Exchange p) (Config.initial a b (initialKeys xa ek spk a b)) steps c)
    (y : Party) (h : Header) (mk' : Key) (hh : (h, mk') ∈ c.sent y.other) (hnew : h ∉ c.accepted y)
    (hlive : ¬ ∃ h' ∈ c.accepted y, NewerKey c.keys h'.dh h.dh) (rnd : Except String Key)
    (kp : KeyPair) (hkp : generateKeyPair p rnd = .ok kp) :
    (∃ t mk, advanceForHeader p rnd (c.st y) h = .ok (t, mk)) ↔ SkipFits (c.st y) h := by
  obtain ⟨x, e₁, e₂, e₃, rest, hs⟩ := sync_run laws hm ha hb hnodup hrun
  exact hs.accepts_iff laws hh hnew hlive hkp

/-! ### A chain on which the losses add up -/

/-- The sending chain of the sample handshake goes back and forth between two keys. -/
theorem chainAt_toy_ne_zero (n : Nat) : chainAt toyPrims (Key.fill 0xff) n ≠ .zero := by
  have hcycle : chainAt toyPrims (Key.fill 0xff) n = Key.fill 0xff ∨
      chainAt toyPrims (Key.fill 0xff) n = (kdfChain toyPrims (Key.fill 0xff)).1 := by
    induction n with
    | zero => exact .inl rfl
    | succ n ih =>
      rcases ih with ih | ih
      · right
        rw [chainAt, ih]
      · left
        rw [chainAt, ih]
        decide
  rcases hcycle with h | h <;> rw [h] <;> decide

/-- The header of message `n` of the initiator of the sample handshake. -/
def sampleHeader (n : Nat) : Header where
  dh := (toyPair 2).publicKey
  pn := 0
  n := .ofNat n

/-- The initiator has sent `k` messages and nothing was received. -/
structure SentOnly (k : Nat) (c : Config) : Prop where
  initiator : c.st .initiator = { sampleState none true with
    cks := chainAt toyPrims (Key.fill 0xff) k, ns := .ofNat k }
  responder : c.st .responder = sampleState none false
  accepted : ∀ y, c.accepted y = []
  keys : c.keys = sampleConfig.keys
  sent : ∀ n < k, ∃ mk, (sampleHeader n, mk) ∈ c.sent .initiator

/-- The responder has accepted nothing yet. -/
theorem SentOnly.fresh {k : Nat} (h : SentOnly k c) (header : Header) :
    header ∉ c.accepted .responder ∧
      ¬ ∃ h' ∈ c.accepted .responder, NewerKey c.keys h'.dh header.dh := by
  simp [h.accepted]

/-- A first gap of 600 messages fits. -/
theorem SentOnly.fits {k : Nat} (h : SentOnly k c) :
    SkipFits (c.st .responder) (sampleHeader 600) := by
  rw [h.responder]
  decide

/-- One more message of the initiator. -/
theorem SentOnly.send {k : Nat} (h : SentOnly k c) (hk : k < 2 ^ 32 - 1) :
    ∃ c', Exchange toyPrims c .initiator c' ∧ SentOnly (k + 1) c' := by
  have hns : (UInt32.ofNat k).toNat = k := UInt32.toNat_ofNat_of_lt' (show k < 2 ^ 32 by omega)
  have hmax : UInt32.ofNat k ≠ maxUint32 := by
    intro heq
    have hval : (UInt32.ofNat k).toNat = 2 ^ 32 - 1 := by rw [heq]; rfl
    omega
  have hsend : nextSendingMessageKey toyPrims (c.st .initiator) = .ok (_, sampleHeader k, _) :=
    nextSendingMessageKey_ok.mpr ⟨toyPair 2, by rw [h.initiator]; rfl,
      by rw [h.initiator]; exact chainAt_toy_ne_zero k, by rw [h.initiator]; exact hmax,
      by rw [h.initiator]; rfl, rfl, rfl⟩
  refine ⟨_, .send hsend, ?_, h.responder, h.accepted, h.keys, fun n hn => ?_⟩
  · simp only [Config.afterSend, Function.update_self, h.initiator, UInt32.ofNat_add, chainAt]
    rfl
  · simp only [Config.afterSend, Function.update_self]
    rcases Nat.lt_succ_iff_lt_or_eq.mp hn with hlt | rfl
    · obtain ⟨mk, hmk⟩ := h.sent n hlt
      exact ⟨mk, List.mem_append_left _ hmk⟩
    · exact ⟨_, List.mem_append_right _ (.head _)⟩

theorem exists_sentOnly (k : Nat) (hk : k ≤ 2 ^ 32 - 1) :
    ∃ steps c, Run (Exchange toyPrims) sampleConfig steps c ∧ SentOnly k c := by
  induction k with
  | zero => exact ⟨[], _, .nil, rfl, rfl, fun _ => rfl, rfl, fun n hn => absurd hn (by omega)⟩
  | succ k ih =>
    obtain ⟨steps, c, hrun, hc⟩ := ih (by omega)
    obtain ⟨c', hstep, hc'⟩ := hc.send (by omega)
    exact ⟨_, c', hrun.snoc hstep, hc'⟩

/-- What a receive on the current chain leaves: one more message is behind, and the keys of those
before it are stored. -/
theorem advance_current {mk : Key} (hs : Tidy s) (hd : s.dhr = some h.dh) (hle : s.nr ≤ h.n)
    (hadv : advanceForHeader p rnd s h = .ok (t, mk)) :
    t.dhr = s.dhr ∧ t.nr.toNat = h.n.toNat + 1 ∧
      t.mkSkipped.size = s.mkSkipped.size + (h.n.toNat - s.nr.toNat) := by
  rcases advanceForHeader_cases hadv with ⟨hk, -⟩ | ⟨-, -, u, v, hu, hskip, htake⟩
  · have hmem : skippedKeyForHeader h ∈ s.mkSkipped := by
      rw [ExtTreeMap.mem_iff_isSome_getElem?, hk]
      rfl
    exact absurd (hs.stored _ hmem).2 (UInt32.not_lt.mpr hle)
  · rcases catchUp_cases hu with ⟨-, rfl⟩ | ⟨hne, -⟩
    · have hsize := skipMessageKeys_size hs hskip
      obtain ⟨-, hmax, -, rfl⟩ := takeKey_ok.mp htake
      refine ⟨(skipMessageKeys_ok hskip).1.dhr, ?_, hsize⟩
      rw [← skipMessageKeys_nr hskip hle]
      exact toNat_succ hmax
    · exact absurd hd hne

/-- The responder of the sample handshake receives message 600 first. -/
theorem exists_gap : ∃ steps c, Run (Exchange toyPrims) sampleConfig steps c ∧
    c.accepted .responder = [sampleHeader 600] ∧
    (∃ mk, (sampleHeader 1201, mk) ∈ c.sent .initiator) ∧ c.keys = sampleConfig.keys ∧
    Tidy (c.st .responder) ∧ (c.st .responder).dhr = some (toyPair 2).publicKey ∧
    (c.st .responder).nr.toNat = 601 ∧ (c.st .responder).mkSkipped.size = 600 := by
  obtain ⟨steps, c, hrun, hc⟩ := exists_sentOnly 1202 (by decide)
  obtain ⟨x, e1, e2, e3, rest, hs⟩ := sync_run toyPrims_dhLaws (sampleResult_matching none)
    (sampleState_eq none true) (sampleState_eq none false) (by decide) hrun
  obtain ⟨mk', hmk'⟩ := hc.sent 600 (by decide)
  obtain ⟨hnone, hlive⟩ := hc.fresh (sampleHeader 600)
  have hkp : generateKeyPair toyPrims (.ok (Key.fill 5)) = .ok (toyPair 5) := rfl
  obtain ⟨t, mk, hadv⟩ := (hs.accepts_iff (y := .responder) toyPrims_dhLaws hmk' hnone hlive
    hkp).mpr hc.fits
  have hd : (c.st .responder).dhr = some (sampleHeader 600).dh := by
    rw [hc.responder]
    rfl
  have hnr : (c.st .responder).nr = 0 := by
    rw [hc.responder]
    rfl
  have hsize : (c.st .responder).mkSkipped.size = 0 := by
    rw [hc.responder]
    rfl
  obtain ⟨htd, htn, htsize⟩ := advance_current (hs.tidy .responder) hd
    (by rw [hnr]; exact UInt32.zero_le) hadv
  have hstep : Exchange toyPrims c .responder (c.afterReceive .responder t (sampleHeader 600)) :=
    .receive _ hmk' hadv fun hne => absurd htd hne
  have htidy := (advanced_of_advanceForHeader (hs.tidy .responder) hadv).2
  obtain ⟨mk2, hmk2⟩ := hc.sent 1201 (by decide)
  refine ⟨_, _, hrun.snoc hstep, ?_, ⟨mk2, hmk2⟩, ?_, ?_, ?_, ?_, ?_⟩
  · simp only [Config.afterReceive, Function.update_self, hc.accepted, List.nil_append]
  · simp only [Config.afterReceive, htd, if_true, hc.keys]
  all_goals simp only [Config.afterReceive, Function.update_self]
  · exact htidy
  · exact htd.trans hd
  · exact htn
  · rw [htsize, hsize, hnr]
    rfl

/-- The first gap of 600 messages is accepted. -/
theorem bounded_loss_first_gap : ∃ (c : Config) (t : State) (mk : Key),
    c.st .responder = sampleState none false ∧
    advanceForHeader toyPrims (.ok (Key.fill 5)) (c.st .responder) (sampleHeader 600)
      = .ok (t, mk) := by
  obtain ⟨steps, c, hrun, hc⟩ := exists_sentOnly 601 (by decide)
  obtain ⟨mk', hmk'⟩ := hc.sent 600 (by decide)
  obtain ⟨hnone, hlive⟩ := hc.fresh (sampleHeader 600)
  obtain ⟨t, mk, hadv⟩ := (bounded_loss toyPrims_dhLaws (sampleResult_matching none)
    (sampleState_eq none true) (sampleState_eq none false) (by decide) hrun .responder _ mk' hmk'
    hnone hlive (.ok (Key.fill 5)) _ rfl).mpr hc.fits
  exact ⟨c, t, mk, hc.responder, hadv⟩

/-- The second gap of 600 messages on the same chain is not. -/
theorem bounded_loss_second_gap : ∃ steps c h mk, Run (Exchange toyPrims) sampleConfig steps c ∧
    (h, mk) ∈ c.sent .initiator ∧ h ∉ c.accepted .responder ∧
    (¬ ∃ h' ∈ c.accepted .responder, NewerKey c.keys h'.dh h.dh) ∧
    (c.st .responder).dhr = some h.dh ∧
    h.n.toNat - (c.st .responder).nr.toNat = 600 ∧
    ∀ rnd t mk', advanceForHeader toyPrims rnd (c.st .responder) h ≠ .ok (t, mk') := by
  obtain ⟨steps, c, hrun, hacc, ⟨mk, hmk⟩, hkeys, htidy, hd, hnr, hsize⟩ := exists_gap
  have hn : (sampleHeader 1201).n.toNat = 1201 := by decide
  refine ⟨steps, c, sampleHeader 1201, mk, hrun, hmk, ?_, ?_, hd, ?_, fun rnd t mk' hadv => ?_⟩
  · rw [hacc]
    decide
  · rw [hacc, hkeys]
    rintro ⟨h', hmem, newer, older, heq, hnewer, holder⟩
    -- both headers are under the same key, which the list has only once
    cases List.mem_singleton.mp hmem
    have hnodup : sampleConfig.keys.Nodup := by decide
    rw [heq] at hnodup
    exact (List.nodup_append.mp hnodup).2.2 _ hnewer _ holder rfl
  · rw [hn, hnr]
  · have hfits := skipFits_of_advance htidy hadv
    rw [SkipFits, if_pos (show _ = some (sampleHeader 1201).dh from hd), hsize, hnr, hn] at hfits
    exact absurd hfits (by decide)

end SignalGo.Ratchet
