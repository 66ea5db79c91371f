import SignalGo.Ratchet.Steps

/-!
# Double Ratchet: no key is released twice

Replay protection is split over `Nr`, `MKSkipped` and `SeenDH`. The invariant that ties them
together, for every sequence of sends and of receives with arbitrary headers:

* `Tidy`: the current `DHr` has been seen, every stored key is one of its numbers below
  `Nr`, and at most `MaxSkip` keys are stored.
* `Advanced`: what a successful receive does to the three mechanisms.
* `Spent`: a released pair (DH key, number) can not be released again: its DH key was
  replaced, or its number is below `Nr` and no longer stored.
* `no_key_released_twice`: the result for whole runs.
-/

namespace SignalGo.Ratchet

open Std (ExtTreeMap ExtTreeSet)

variable {p : Prims}

/-! ## The invariant of a state -/

structure Tidy (s : State) : Prop where
  current : ∃ d, s.dhr = some d ∧ d ∈ s.seenDH
  stored : ∀ k ∈ s.mkSkipped, s.dhr = some k.publicKey ∧ k.n < s.nr
  size_le : s.mkSkipped.size ≤ maxSkip

variable {d : Key} {s : State}

theorem tidy_initial (rk : Key) (hd : s.dhr = some d)
    (hseen : s.seenDH = (emptyState rk).seenDH.insert d)
    (hmk : s.mkSkipped = (emptyState rk).mkSkipped) : Tidy s where
  current := ⟨d, hd, by simp [hseen]⟩
  stored k hk := by
    rw [hmk] at hk
    exact absurd hk ExtTreeMap.not_mem_empty
  size_le := by
    rw [hmk]
    exact Nat.zero_le _

/-- Every initial state is tidy. -/
theorem tidy_initializeState {x3 : X3dh.Result} {isInitiator : Bool}
    {gen : Nat → Except Err KeyPair}
    (h : initializeStateWithGenerator p x3 isInitiator gen = .ok s) : Tidy s := by
  rcases initializeStateWithGenerator_ok h with ⟨-, h⟩ | ⟨-, h⟩
  · obtain ⟨d, kp, out, -, -, -, -, rfl⟩ := initializeInitiator_ok h
    exact tidy_initial x3.sharedSecret rfl rfl rfl
  · obtain ⟨kp, calls, -, ⟨ck, -, rfl⟩ | ⟨out, kp', out', -, -, -, -, rfl⟩⟩ :=
      initializeResponder_ok h
    · exact tidy_initial x3.sharedSecret rfl rfl rfl
    · exact tidy_initial x3.sharedSecret rfl rfl rfl

variable {t : State} {k : SkippedKey}

theorem mem_of_skipped (h : Skipped p s t) :
    k ∈ t.mkSkipped ↔
      (s.dhr = some k.publicKey ∧ s.nr ≤ k.n ∧ k.n < t.nr) ∨ k ∈ s.mkSkipped := by
  rw [ExtTreeMap.mem_iff_isSome_getElem?, ExtTreeMap.mem_iff_isSome_getElem?, h.stored k]
  split <;> simp [*]

theorem Tidy.skipped (hs : Tidy s) (h : Skipped p s t) : Tidy t where
  current := by
    obtain ⟨d, hd, hmem⟩ := hs.current
    exact ⟨d, h.dhr ▸ hd, h.seenDH ▸ hmem⟩
  stored k hk := by
    rw [h.dhr]
    rcases (mem_of_skipped h).mp hk with ⟨hd, -, hlt⟩ | hk
    · exact ⟨hd, hlt⟩
    · obtain ⟨hd, hlt⟩ := hs.stored k hk
      exact ⟨hd, UInt32.lt_of_lt_of_le hlt h.nr_le⟩
  size_le := by
    have := h.size_le
    have := hs.size_le
    omega

/-! ## What a receive does -/

/-- The three ways a header yields a key, with what happens to `DHr`, `Nr`, `MKSkipped` and
`SeenDH`. -/
inductive Advanced (s t : State) (h : Header) : Prop where
  | fromStore (hk : skippedKeyForHeader h ∈ s.mkSkipped)
      (ht : t = { s with mkSkipped := s.mkSkipped.erase (skippedKeyForHeader h) })
  | sameDH (hd : s.dhr = some h.dh) (hn : s.nr ≤ h.n) (htd : t.dhr = s.dhr)
      (hseen : t.seenDH = s.seenDH) (htn : t.nr.toNat = h.n.toNat + 1)
      (hmk : ∀ k ∈ t.mkSkipped,
        k ∈ s.mkSkipped ∨ k.publicKey = h.dh ∧ s.nr ≤ k.n ∧ k.n < h.n)
  | newDH (hd : s.dhr ≠ some h.dh) (hfresh : h.dh ∉ s.seenDH) (htd : t.dhr = some h.dh)
      (hseen : ∀ d, d ∈ t.seenDH ↔ d = h.dh ∨ d ∈ s.seenDH)
      (htn : t.nr.toNat = h.n.toNat + 1)
      (hmk : ∀ k ∈ t.mkSkipped, k.publicKey = h.dh ∧ k.n < h.n)

/-- The DH ratchet step of a tidy state empties the store: no stored key is under a DH key that
is not the current one. -/
theorem mem_ratcheted (hs : Tidy s) {theirs : Key} (hne : s.dhr ≠ some theirs) (kp : KeyPair)
    (out outSend : Key) (k : SkippedKey) :
    k ∉ (s.ratcheted p theirs kp out outSend).mkSkipped := by
  intro hk
  obtain ⟨hmem, hpk⟩ := ExtTreeMap.mem_filter.mp hk
  rw [ExtTreeMap.getKey_eq, beq_iff_eq] at hpk
  exact hne (hpk ▸ (hs.stored k hmem).1)

theorem Tidy.ratcheted (hs : Tidy s) {theirs : Key} (hne : s.dhr ≠ some theirs) {kp : KeyPair}
    {out outSend : Key} : Tidy (s.ratcheted p theirs kp out outSend) where
  current := ⟨theirs, rfl, ExtTreeSet.mem_insert_self⟩
  stored k hk := absurd hk (mem_ratcheted hs hne kp out outSend k)
  size_le := ExtTreeMap.size_filter_le_size.trans hs.size_le

variable {mk : Key}

theorem Tidy.takeKey (hs : Tidy s) (h : Ratchet.takeKey p s = .ok (t, mk)) : Tidy t := by
  obtain ⟨-, hn, -, rfl⟩ := takeKey_ok.mp h
  refine ⟨hs.current, fun k hk => ⟨(hs.stored k hk).1, ?_⟩, hs.size_le⟩
  refine UInt32.lt_trans (hs.stored k hk).2 ?_
  show s.nr < s.nr + 1
  rw [UInt32.lt_iff_toNat_lt, toNat_succ hn]
  exact Nat.lt_succ_self _

variable {h : Header}

/-- **One receive.** A header that yields a key is one of the three cases, and the state stays
tidy. -/
theorem advanced_of_advanceForHeader {rnd : Except String Key} (hs : Tidy s)
    (hadv : advanceForHeader p rnd s h = .ok (t, mk)) :
    Advanced s t h ∧ Tidy t := by
  rcases advanceForHeader_cases hadv with ⟨hk, rfl⟩ | ⟨-, hreplay, u, v, hu, hv, ht⟩
  · have hmem : skippedKeyForHeader h ∈ s.mkSkipped := by
      rw [ExtTreeMap.mem_iff_isSome_getElem?, hk]
      rfl
    refine ⟨.fromStore hmem rfl, hs.current, ?_, ?_⟩
    · intro k hk
      exact hs.stored k (ExtTreeMap.mem_of_mem_erase hk)
    · exact ExtTreeMap.size_erase_le.trans hs.size_le
  · obtain ⟨hz, hn, -, rfl⟩ := takeKey_ok.mp ht
    have hskip := (skipMessageKeys_ok hv).1
    obtain ⟨d, hd, hseen⟩ := hs.current
    have hreplay := checkReplay_ok.mp hreplay d hd
    rcases catchUp_cases hu with ⟨hsame, rfl⟩ | ⟨hne, w, hw, hr⟩
    · -- the current DH key: the chain goes on from `Nr`
      rw [hd, Option.some.injEq] at hsame
      have hle := hreplay.1 hsame.symm
      have hnr := skipMessageKeys_nr hv hle
      refine ⟨.sameDH (hd.trans (congrArg some hsame)) hle hskip.dhr hskip.seenDH ?_ ?_,
        (hs.skipped hskip).takeKey ht⟩
      · exact hnr ▸ toNat_succ hn
      · intro k hk
        rcases (mem_of_skipped hskip).mp hk with ⟨hpk, h1, h2⟩ | hk
        · rw [hd, Option.some.injEq] at hpk
          exact .inr ⟨hpk.symm.trans hsame, h1, hnr ▸ h2⟩
        · exact .inl hk
    · -- a new DH key: the old chain is closed, the store emptied, the new chain starts at 0
      have hw' := (skipMessageKeys_ok hw).1
      have hwt := hs.skipped hw'
      have hne' : w.dhr ≠ some h.dh := hw'.dhr ▸ hne
      obtain ⟨dhs, kp, out, outSend, -, -, -, -, rfl⟩ := dhRatchet_ok.mp hr
      have hnr := skipMessageKeys_nr hv (UInt32.zero_le (a := h.n))
      have hdne : h.dh ≠ d := fun he => hne (he ▸ hd)
      refine ⟨.newDH hne (hreplay.2 hdne) hskip.dhr ?_ ?_ ?_,
        ((hwt.ratcheted hne').skipped hskip).takeKey ht⟩
      · intro d'
        show d' ∈ v.seenDH ↔ _
        rw [hskip.seenDH]
        simp only [State.ratcheted, hw'.dhr, hd, hw'.seenDH, ExtTreeSet.mem_insert,
          Std.LawfulEqOrd.compare_eq_iff_eq]
        constructor
        · rintro (rfl | rfl | h)
          · exact .inl rfl
          · exact .inr hseen
          · exact .inr h
        · rintro (rfl | h)
          · exact .inl rfl
          · exact .inr (.inr h)
      · exact hnr ▸ toNat_succ hn
      · intro k hk
        rcases (mem_of_skipped hskip).mp hk with ⟨hpk, -, h2⟩ | hk
        · exact ⟨(Option.some.inj hpk).symm, hnr ▸ h2⟩
        · exact absurd hk (mem_ratcheted hwt hne' kp out outSend k)

/-- A send touches none of the three mechanisms. -/
theorem Tidy.sent (hs : Tidy s) (hnext : nextSendingMessageKey p s = .ok (t, h, mk)) : Tidy t := by
  obtain ⟨dhs, -, -, -, -, -, rfl⟩ := nextSendingMessageKey_ok.mp hnext
  exact ⟨hs.current, hs.stored, hs.size_le⟩

variable {e : Event}

theorem Tidy.step (hs : Tidy s) (h : Step p s e t) : Tidy t := by
  rcases h.cases with ⟨_, _, -, hnext⟩ | ⟨rnd, h, mk, -, hadv⟩
  · exact hs.sent hnext
  · exact (advanced_of_advanceForHeader hs hadv).2

/-- Seen DH keys stay seen. -/
theorem mem_seenDH_step (hs : Tidy s) (h : Step p s e t) (hd : d ∈ s.seenDH) : d ∈ t.seenDH := by
  rcases h.cases with ⟨_, _, -, hnext⟩ | ⟨rnd, h, mk, -, hadv⟩
  · obtain ⟨dhs, -, -, -, -, -, rfl⟩ := nextSendingMessageKey_ok.mp hnext
    exact hd
  · cases (advanced_of_advanceForHeader hs hadv).1 with
    | fromStore _ ht => exact ht ▸ hd
    | sameDH _ _ _ htseen _ _ => exact htseen ▸ hd
    | newDH _ _ _ htseen _ _ => exact (htseen d).mpr (.inr hd)

/-! ## Released keys stay spent -/

/-- The pair can not yield a key any more. -/
def Spent (s : State) (k : SkippedKey) : Prop :=
  k.publicKey ∈ s.seenDH ∧ (s.dhr = some k.publicKey → k.n < s.nr ∧ k ∉ s.mkSkipped)

/-- A header that yields a key is not spent before. -/
theorem Advanced.not_spent (hs : Tidy s) (ha : Advanced s t h) :
    ¬ Spent s (skippedKeyForHeader h) := by
  rintro ⟨hseen, hspent⟩
  cases ha with
  | fromStore hk ht => exact (hspent (hs.stored _ hk).1).2 hk
  | sameDH hd hn _ _ _ _ => exact UInt32.not_lt.mpr hn (hspent hd).1
  | newDH _ hfresh _ _ _ _ => exact hfresh hseen

/-- A header that yielded a key is spent afterwards. -/
theorem Advanced.spent (hs : Tidy s) (ha : Advanced s t h) :
    Spent t (skippedKeyForHeader h) := by
  obtain ⟨d, hd', hseen⟩ := hs.current
  cases ha with
  | fromStore hk ht =>
    subst ht
    obtain ⟨hd, hlt⟩ := hs.stored _ hk
    rw [hd', Option.some.injEq] at hd
    refine ⟨hd ▸ hseen, fun _ => ⟨hlt, ?_⟩⟩
    simp [ExtTreeMap.mem_erase]
  | sameDH hd hn htd htseen htn hmk =>
    rw [hd', Option.some.injEq] at hd
    refine ⟨?_, fun _ => ⟨?_, ?_⟩⟩
    · show h.dh ∈ t.seenDH
      rw [htseen, ← hd]
      exact hseen
    · show h.n < t.nr
      rw [UInt32.lt_iff_toNat_lt]
      omega
    · intro hk
      rcases hmk _ hk with hk | ⟨-, -, hlt⟩
      · exact UInt32.not_lt.mpr hn (hs.stored _ hk).2
      · exact UInt32.lt_irrefl _ hlt
  | newDH _ _ htd htseen htn hmk =>
    refine ⟨(htseen h.dh).mpr (.inl rfl), fun _ => ⟨?_, ?_⟩⟩
    · show h.n < t.nr
      rw [UInt32.lt_iff_toNat_lt]
      omega
    · intro hk
      exact UInt32.lt_irrefl _ (hmk _ hk).2

/-- A key that was used up stays so. -/
theorem Spent.advanced (hk : Spent s k) (ha : Advanced s t h) : Spent t k := by
  obtain ⟨hseen, hspent⟩ := hk
  cases ha with
  | fromStore _ ht =>
    subst ht
    refine ⟨hseen, fun hd => ⟨(hspent hd).1, fun hk => (hspent hd).2 ?_⟩⟩
    exact ExtTreeMap.mem_of_mem_erase hk
  | sameDH hd hn htd htseen htn hmk =>
    refine ⟨htseen ▸ hseen, fun hd' => ?_⟩
    obtain ⟨hlt, hnot⟩ := hspent (htd ▸ hd')
    constructor
    · rw [UInt32.lt_iff_toNat_lt] at hlt ⊢
      rw [UInt32.le_iff_toNat_le] at hn
      omega
    · intro hk
      rcases hmk k hk with hk | ⟨-, hge, -⟩
      · exact hnot hk
      · exact UInt32.not_lt.mpr hge hlt
  | newDH _ hfresh htd htseen _ _ =>
    refine ⟨(htseen _).mpr (.inr hseen), fun hd' => ?_⟩
    -- the pair's DH key was seen before, the new one was not
    rw [htd, Option.some.injEq] at hd'
    exact absurd (hd' ▸ hseen) hfresh

theorem Spent.step (hs : Tidy s) (hk : Spent s k) (h : Step p s e t) : Spent t k := by
  rcases h.cases with ⟨_, _, -, hnext⟩ | ⟨rnd, h, mk, -, hadv⟩
  · obtain ⟨dhs, -, -, -, -, -, rfl⟩ := nextSendingMessageKey_ok.mp hnext
    exact hk
  · exact hk.advanced (advanced_of_advanceForHeader hs hadv).1

/-! ## Replaced DH keys stay refused -/

/-- The key was processed and is no longer the current one. -/
def Replaced (s : State) (d : Key) : Prop := d ∈ s.seenDH ∧ s.dhr ≠ some d

theorem Replaced.step (hs : Tidy s) (hd : Replaced s d) (h : Step p s e t) : Replaced t d := by
  obtain ⟨hseen, hne⟩ := hd
  rcases h.cases with ⟨_, _, -, hnext⟩ | ⟨rnd, h, mk, -, hadv⟩
  · obtain ⟨dhs, -, -, -, -, -, rfl⟩ := nextSendingMessageKey_ok.mp hnext
    exact ⟨hseen, hne⟩
  · cases (advanced_of_advanceForHeader hs hadv).1 with
    | fromStore _ ht =>
      subst ht
      exact ⟨hseen, hne⟩
    | sameDH _ _ htd htseen _ _ => exact ⟨htseen ▸ hseen, htd ▸ hne⟩
    | newDH _ hfresh htd htseen _ _ =>
      refine ⟨(htseen d).mpr (.inr hseen), fun hd' => ?_⟩
      rw [htd, Option.some.injEq] at hd'
      exact hfresh (hd' ▸ hseen)

/-- The error of the second replay check. -/
def errPreviousRatchetKey : Err := .wrap .duplicateMessage "message for previous ratchet key"

/-- A header under a replaced DH key finds no stored key and stops at the replay check. -/
theorem Replaced.refused (hs : Tidy s) (hd : Replaced s h.dh) :
    s.mkSkipped[skippedKeyForHeader h]? = none
      ∧ checkReplay s h = .error errPreviousRatchetKey := by
  obtain ⟨d, hd', hseen⟩ := hs.current
  constructor
  · exact ExtTreeMap.getElem?_eq_none fun hk => hd.2 (hs.stored _ hk).1
  · have hne : h.dh ≠ d := fun he => hd.2 (he ▸ hd')
    simp [checkReplay, hd', hne, hd.1, errPreviousRatchetKey]

theorem Replaced.advanceForHeader_eq (hs : Tidy s) (hd : Replaced s h.dh)
    (rnd : Except String Key) :
    advanceForHeader p rnd s h = .error errPreviousRatchetKey := by
  obtain ⟨hnone, hreplay⟩ := hd.refused hs
  unfold advanceForHeader advanceChain
  rw [hnone, hreplay]
  rfl

/-! ## Whole runs -/

/-- The pair whose key the call released. -/
def Event.released : Event → Option SkippedKey
  | .sent _ => none
  | .received h _ => some (skippedKeyForHeader h)

/-- The pairs released by a run, in order. -/
def releases (es : List Event) : List SkippedKey := es.filterMap Event.released

theorem releases_append (es : List Event) (e : Event) :
    releases (es ++ [e]) = releases es ++ e.released.toList := by
  unfold releases
  cases h : e.released <;> simp [h]

/-- What holds after a run with these events. -/
structure ReplaySafe (es : List Event) (s : State) : Prop where
  tidy : Tidy s
  spent : ∀ k ∈ releases es, Spent s k
  nodup : (releases es).Nodup

/-- No step releases a key a second time. -/
theorem ReplaySafe.step {es : List Event} (hs : ReplaySafe es s) (h : Step p s e t) :
    ReplaySafe (es ++ [e]) t := by
  have hold : ∀ k ∈ releases es, Spent t k := fun k hk => (hs.spent k hk).step hs.tidy h
  have hrel := releases_append es e
  refine ⟨hs.tidy.step h, ?_, ?_⟩ <;> rw [hrel]
  all_goals
    rcases h.cases with ⟨_, _, rfl, -⟩ | ⟨rnd, h, mk, rfl, hadv⟩
  · simpa [Event.released] using hold
  · intro k hk
    rcases List.mem_append.mp hk with hk | hk
    · exact hold k hk
    · cases List.mem_singleton.mp hk
      exact (advanced_of_advanceForHeader hs.tidy hadv).1.spent hs.tidy
  · simpa [Event.released] using hs.nodup
  · refine List.nodup_append.mpr ⟨hs.nodup, List.nodup_singleton _, ?_⟩
    intro k hk k' hk' he
    cases List.mem_singleton.mp hk'
    exact (advanced_of_advanceForHeader hs.tidy hadv).1.not_spent hs.tidy
      (he ▸ hs.spent k hk)

/-- **No ratchet key is released twice.** In every run from an initial state, with sends and
with committed receives of arbitrary headers: every pair (DH key, number) yields a key at most
once; the store holds at most `MaxSkip` keys, all under the current DH key and below `Nr`; and
a DH key that was replaced by another is refused from then on at the replay check, before any
key is looked up successfully or the DH ratchet is entered. -/
theorem no_key_released_twice {x3 : X3dh.Result} {isInitiator : Bool}
    {gen : Nat → Except Err KeyPair} {s₀ s : State} {es : List Event}
    (hinit : initializeStateWithGenerator p x3 isInitiator gen = .ok s₀)
    (hrun : Run (Step p) s₀ es s) :
    (releases es).Nodup
    ∧ s.mkSkipped.size ≤ maxSkip
    ∧ (∀ k ∈ s.mkSkipped, s.dhr = some k.publicKey ∧ k.n < s.nr)
    ∧ ∀ (d : Key) (t u : State) (es' es'' : List Event), s.dhr = some d →
        Run (Step p) s es' t → t.dhr ≠ some d → Run (Step p) t es'' u →
        ∀ h : Header, h.dh = d →
          checkReplay u h = .error errPreviousRatchetKey
          ∧ (∀ rnd, advanceForHeader p rnd u h = .error errPreviousRatchetKey)
          ∧ ∀ rnd m ad, m.header = h → decrypt p rnd u m ad = .error errPreviousRatchetKey := by
  have htidy₀ := tidy_initializeState hinit
  have hsafe : ReplaySafe es s := Run.invariant_history (fun hs => hs.step) hrun
    ⟨htidy₀, by simp [releases], by simp [releases]⟩
  refine ⟨hsafe.nodup, hsafe.tidy.size_le, hsafe.tidy.stored, ?_⟩
  intro d t u es' es'' hd ht hne hu h rfl
  obtain ⟨d', hd', hseen⟩ := hsafe.tidy.current
  rw [hd, Option.some.injEq] at hd'
  -- the key stays among the seen ones up to `t`, where it is not the current one any more
  have htidy : Tidy t ∧ h.dh ∈ t.seenDH := by
    refine ht.invariant (I := fun v => Tidy v ∧ h.dh ∈ v.seenDH) ?_ ⟨hsafe.tidy, hd' ▸ hseen⟩
    rintro v e w ⟨hv, hvseen⟩ hstep
    exact ⟨hv.step hstep, mem_seenDH_step hv hstep hvseen⟩
  have hrep : Tidy u ∧ Replaced u h.dh := by
    refine hu.invariant (I := fun v => Tidy v ∧ Replaced v h.dh) ?_
      ⟨htidy.1, htidy.2, hne⟩
    rintro v e w ⟨hv, hvrep⟩ hstep
    exact ⟨hv.step hstep, hvrep.step hv hstep⟩
  refine ⟨(hrep.2.refused hrep.1).2, fun rnd => hrep.2.advanceForHeader_eq hrep.1 rnd, ?_⟩
  rintro rnd m ad rfl
  rw [decrypt_eq, hrep.2.advanceForHeader_eq hrep.1 rnd]
  rfl

/-- The state of the sample responder after it accepted message number 2 first. -/
def sampleAhead : State :=
  ((advanceForHeader toyPrims (.ok (Key.fill 5)) (sampleState none false)
    ⟨(toyPair 2).publicKey, 0, 2⟩).toOption.map Prod.fst).getD (emptyState .zero)

/-- The theorem at the sample responder: it accepts message number 2 and then, from the store,
number 0. -/
theorem no_key_released_twice_sample : ∃ es s,
    Run (Step toyPrims) (sampleState none false) es s
      ∧ releases es = [⟨(toyPair 2).publicKey, 2⟩, ⟨(toyPair 2).publicKey, 0⟩] ∧
      s.mkSkipped.size = 1
      ∧ (releases es).Nodup := by
  have h1 : Run (Step toyPrims) (sampleState none false) _ sampleAhead :=
    Run.single (.advanceForHeader (.ok (Key.fill 5)) ⟨(toyPair 2).publicKey, 0, 2⟩ rfl)
  have h2 := h1.snoc (.advanceForHeader (.ok (Key.fill 5)) ⟨(toyPair 2).publicKey, 0, 0⟩ rfl)
  exact ⟨_, _, h2, rfl, rfl, (no_key_released_twice (sampleState_eq none false) h2).1⟩

end SignalGo.Ratchet
