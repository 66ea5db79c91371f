import SignalGo.Spqr.Window

/-!
# Where the receive window wraps

The window is decided by sums of a key number, or the counter, and `MaxOOO`, in 32 bits and without
a check. `SignalGo.Spqr.Window` stays below the range in which they wrap; here they are compared
with the sums of numbers everywhere.

* `lt_iff_not_wrapsBelow`: a comparison is wrong exactly when the wrapped sum ends up below
  the number it is compared with.
* `returned_iff`: a key that was skipped on the way to `goal` is given out afterwards exactly
  when the larger one of its number and the counter leaves room for `MaxOOO`.
* `window_arithmetic`: both, for every run of requests.
-/

namespace SignalGo.Spqr

open Std (ExtTreeMap)

/-- The sum `a + maxOOO` leaves the 32 bits and comes out below `b`. -/
def WrapsBelow (maxOOO a b : UInt32) : Prop :=
  2 ^ 32 ≤ a.toNat + maxOOO.toNat ∧ a.toNat + maxOOO.toNat < b.toNat + 2 ^ 32

instance (maxOOO a b : UInt32) : Decidable (WrapsBelow maxOOO a b) :=
  inferInstanceAs (Decidable (_ ∧ _))

section

variable {p : Prims} {params : ChainParams} {seed : Bytes} {maxOOO a b idx current goal : UInt32}
  {d d' : ChainEpochDirection} {key k : Key}

/-! ## One comparison -/

theorem lt_iff_wraps : a + maxOOO < b ↔
    a.toNat + maxOOO.toNat < b.toNat ∨ WrapsBelow maxOOO a b := by
  have ha := a.toNat_lt
  have hb := b.toNat_lt
  have hm := maxOOO.toNat_lt
  rw [UInt32.lt_iff_toNat_lt, UInt32.toNat_add, WrapsBelow]
  omega

theorem le_iff_wraps : b ≤ a + maxOOO ↔
    b.toNat ≤ a.toNat + maxOOO.toNat ∧ ¬ WrapsBelow maxOOO a b := by
  rw [← UInt32.not_lt, lt_iff_wraps, not_or, Nat.not_lt]

/-- A sum that wraps is too large for a comparison in numbers to hold. -/
theorem WrapsBelow.not_lt (h : WrapsBelow maxOOO a b) : ¬ a.toNat + maxOOO.toNat < b.toNat := by
  have hb := b.toNat_lt
  have hsum := h.1
  omega

theorem lt_iff_not_wrapsBelow :
    (a + maxOOO < b ↔ a.toNat + maxOOO.toNat < b.toNat) ↔ ¬ WrapsBelow maxOOO a b := by
  rw [lt_iff_wraps]
  constructor
  · intro hiff hwraps
    exact hwraps.not_lt (hiff.mp (.inr hwraps))
  · intro hnot
    exact ⟨fun h => h.resolve_right hnot, .inl⟩

theorem le_iff_not_wrapsBelow :
    (b ≤ a + maxOOO ↔ b.toNat ≤ a.toNat + maxOOO.toNat) ↔ ¬ WrapsBelow maxOOO a b := by
  rw [← UInt32.not_lt, ← Nat.not_lt, not_iff_not, lt_iff_not_wrapsBelow]

/-! ## Stored keys -/

theorem gc_keeps_iff {h : KeyHistory} (hkey : h.keys[idx]? = some key)
    (hrecent : current.toNat ≤ idx.toNat + maxOOO.toNat) :
    (h.gc current maxOOO).keys[idx]? = some key ↔ ¬ WrapsBelow maxOOO idx current := by
  rw [KeyHistory.gc, ExtTreeMap.getElem?_filter', hkey]
  simp [lt_iff_wraps, hrecent]

theorem get_returns_iff {h : KeyHistory} (hkey : h.keys[idx]? = some key)
    (hrecent : current.toNat ≤ idx.toNat + maxOOO.toNat) :
    (∃ prev, h.get idx current maxOOO = .ok (key, prev)) ↔ ¬ WrapsBelow maxOOO idx current := by
  rw [KeyHistory.get, hkey]
  by_cases hwraps : WrapsBelow maxOOO idx current
  · rw [if_pos (lt_iff_wraps.mpr (.inr hwraps))]
    simp [hwraps]
  · have hkept : ¬ idx + maxOOO < current := by
      rw [lt_iff_wraps, not_or, Nat.not_lt]
      exact ⟨hrecent, hwraps⟩
    rw [if_neg hkept]
    simp [hwraps]

/-! ## Keys that were skipped -/

theorem key_of_lt (hlt : goal < d.ctr) : d.key p goal params =
    (do let (key, prev) ← d.prev.get goal d.ctr params.maxOOO
        return (key, { d with prev })) :=
  if_pos hlt

/-- What a step ahead leaves of the numbers that the window should reach: those on its way need
room above themselves, those behind the counter need room above the counter. -/
theorem storedAhead_eq (hidx : idx.toNat < goal.toNat) (hctr : d.ctr.toNat < goal.toNat)
    (hrecent : goal.toNat ≤ idx.toNat + maxOOO.toNat)
    (hskipped : d.ctr < idx ∨
      idx < d.ctr ∧ d.prev.keys[idx]? = some (keyAt p seed idx.toNat)) :
    d.storedAhead p seed goal maxOOO idx =
      if max idx.toNat d.ctr.toNat + maxOOO.toNat < 2 ^ 32 then some (keyAt p seed idx.toNat)
      else none := by
  have hgoal := goal.toNat_lt
  have hm := maxOOO.toNat_lt
  have hone : (1 : UInt32) ≤ goal := UInt32.le_iff_toNat_le.mpr (by simp; omega)
  have hpred : (goal - 1).toNat = goal.toNat - 1 := UInt32.toNat_sub_of_le _ _ hone
  have hgc : idx + maxOOO < goal - 1 ↔ 2 ^ 32 ≤ idx.toNat + maxOOO.toNat ∧
      idx.toNat + maxOOO.toNat < goal.toNat - 1 + 2 ^ 32 := by
    rw [lt_iff_wraps, WrapsBelow, hpred]
    omega
  have hloop : goal ≤ idx + maxOOO ↔ idx.toNat + maxOOO.toNat < 2 ^ 32 := by
    rw [le_iff_wraps, WrapsBelow]
    omega
  have hclear : d.ctr + maxOOO < goal ↔ d.ctr.toNat + maxOOO.toNat < goal.toNat ∨
      2 ^ 32 ≤ d.ctr.toNat + maxOOO.toNat := by
    rw [lt_iff_wraps, WrapsBelow]
    omega
  have hnew : idx.toNat ≤ d.ctr.toNat → ¬ (d.ctr < idx ∧ idx < goal ∧ goal ≤ idx + maxOOO) := by
    rintro hle ⟨hlt, -⟩
    rw [UInt32.lt_iff_toNat_lt] at hlt
    omega
  simp only [UInt32.lt_iff_toNat_lt] at hskipped
  unfold ChainEpochDirection.storedAhead
  by_cases hroom : max idx.toNat d.ctr.toNat + maxOOO.toNat < 2 ^ 32
  · rw [if_pos hroom, if_neg (by rw [hgc]; omega)]
    rcases hskipped with hahead | ⟨hbehind, hstored⟩
    · rw [if_pos ⟨UInt32.lt_iff_toNat_lt.mpr hahead, UInt32.lt_iff_toNat_lt.mpr hidx,
        hloop.mpr (by omega)⟩]
    · rw [if_neg (hnew hbehind.le), if_neg (by rw [hclear]; omega), hstored]
  · rw [if_neg hroom]
    split
    · rfl
    · rename_i hkept
      rw [hgc] at hkept
      rcases hskipped with hahead | ⟨hbehind, hstored⟩
      · omega
      · rw [if_neg (hnew hbehind.le), if_pos (hclear.mpr (by omega))]

/-- A key inside of the window comes back unless the window's end wraps around. -/
theorem returned_iff (hseed : seed.length = 32) (h : RecvOk p seed d) (hctr : d.ctr < goal)
    (hkey : d.key p goal params = .ok (k, d')) (hidx : idx < goal)
    (hrecent : goal.toNat ≤ idx.toNat + params.maxOOO.toNat)
    (hskipped : d.ctr < idx ∨ idx < d.ctr ∧ d.prev.keys[idx]? ≠ none) :
    (∃ d'', d'.key p idx params = .ok (keyAt p seed idx.toNat, d'')) ↔
      max idx.toNat d.ctr.toNat + params.maxOOO.toNat < 2 ^ 32 := by
  have hctr' := UInt32.lt_iff_toNat_lt.mp hctr
  have hidx' := UInt32.lt_iff_toNat_lt.mp hidx
  -- the call went ahead
  rw [ChainEpochDirection.key, if_neg (UInt32.not_lt.mpr (UInt32.le_of_lt hctr)),
    if_neg (UInt32.ne_of_lt hctr).symm] at hkey
  have hjump : ¬ params.maxJump < goal - d.ctr := by
    intro hjump
    rw [ChainEpochDirection.keyAhead, if_pos hjump] at hkey
    cases hkey
  obtain ⟨d1, hahead, -, hctr1, hstored⟩ := h.keyAhead params hseed hctr hjump
  rw [hahead] at hkey
  cases hkey
  have hskipped' : d.ctr < idx ∨
      idx < d.ctr ∧ d.prev.keys[idx]? = some (keyAt p seed idx.toNat) := by
    refine hskipped.imp_right fun hold => ⟨hold.1, ?_⟩
    obtain ⟨key, hkey⟩ := Option.ne_none_iff_exists'.mp hold.2
    rw [hkey, (h.stored idx key hkey).2.2]
  have hleft := hstored idx
  rw [storedAhead_eq hidx' hctr' hrecent hskipped'] at hleft
  rw [key_of_lt (hctr1 ▸ hidx), hctr1]
  by_cases hroom : max idx.toNat d.ctr.toNat + params.maxOOO.toNat < 2 ^ 32
  · rw [if_pos hroom] at hleft
    obtain ⟨prev, hget⟩ := (get_returns_iff hleft hrecent).mpr fun hwraps => by
      have := hwraps.1
      omega
    rw [hget]
    exact iff_of_true ⟨_, rfl⟩ hroom
  · rw [if_neg hroom] at hleft
    refine iff_of_false ?_ hroom
    rintro ⟨d'', hres⟩
    obtain ⟨⟨key, prev⟩, hget, -⟩ := bind_eq_ok.mp hres
    rw [KeyHistory.get, hleft] at hget
    split at hget <;> cases hget

/-! ## Runs -/

theorem recvOk_run (hseed : seed.length = 32) {es : List (UInt32 × Option Key)}
    (hrun : Run (Requested p params) (newChainEpochDirection seed) es d) : RecvOk p seed d := by
  refine hrun.invariant (fun {d e d'} h hstep => ?_) (Window.start params seed).recv
  obtain ⟨hstate, -⟩ := hstep
  cases hres : (d.keyInPlace p e.1 params).2 with
  | error err =>
    rw [← hstate, h.keyInPlace_error hseed hres]
    exact h
  | ok key =>
    have hkey : d.key p e.1 params = .ok (key, d') := by
      rw [ChainEpochDirection.key_eq_inPlace, hres, hstate]
      rfl
    exact (h.key params hseed hkey).2

/-- **Window arithmetic.** The comparisons agree with those of numbers exactly when the sum does
not wrap below the other side; a recent key survives a trim, and is returned when asked for, under
the same condition; and a key that some request skipped is returned by the next request for it
exactly when the larger one of its number and the counter before leaves room for `MaxOOO`. -/
theorem window_arithmetic (p : Prims) (params : ChainParams) :
    (∀ a b : UInt32,
      ((a + params.maxOOO < b ↔ a.toNat + params.maxOOO.toNat < b.toNat) ↔
        ¬ WrapsBelow params.maxOOO a b) ∧
      ((b ≤ a + params.maxOOO ↔ b.toNat ≤ a.toNat + params.maxOOO.toNat) ↔
        ¬ WrapsBelow params.maxOOO a b)) ∧
    (∀ (h : KeyHistory) (idx current : UInt32) (key : Key), h.keys[idx]? = some key →
      current.toNat ≤ idx.toNat + params.maxOOO.toNat →
      ((h.gc current params.maxOOO).keys[idx]? = some key ↔
        ¬ WrapsBelow params.maxOOO idx current) ∧
      ((∃ prev, h.get idx current params.maxOOO = .ok (key, prev)) ↔
        ¬ WrapsBelow params.maxOOO idx current)) ∧
    ∀ (seed : Bytes) (es : List (UInt32 × Option Key)) (d d' : ChainEpochDirection)
      (goal idx : UInt32) (k : Key), seed.length = 32 →
      Run (Requested p params) (newChainEpochDirection seed) es d →
      d.ctr < goal → d.key p goal params = .ok (k, d') → idx < goal →
      goal.toNat ≤ idx.toNat + params.maxOOO.toNat →
      (d.ctr < idx ∨ idx < d.ctr ∧ d.prev.keys[idx]? ≠ none) →
      ((∃ d'', d'.key p idx params = .ok (keyAt p seed idx.toNat, d'')) ↔
        max idx.toNat d.ctr.toNat + params.maxOOO.toNat < 2 ^ 32) := by
  refine ⟨fun a b => ⟨lt_iff_not_wrapsBelow, le_iff_not_wrapsBelow⟩, ?_, ?_⟩
  · intro h idx current key hkey hrecent
    exact ⟨gc_keeps_iff hkey hrecent, get_returns_iff hkey hrecent⟩
  · intro seed es d d' goal idx k hseed hrun hctr hkey hidx hrecent hskipped
    exact returned_iff hseed (recvOk_run hseed hrun) hctr hkey hidx hrecent hskipped

/-- With the default window, the first key is returned after the second one. -/
theorem window_arithmetic_default : ∃ k d' d'',
    (newChainEpochDirection (List.replicate 32 0)).key toyPrims 2 { MaxJump := 0, MaxOOO := 0 } =
      .ok (k, d') ∧
    d'.key toyPrims 1 { MaxJump := 0, MaxOOO := 0 } =
      .ok (keyAt toyPrims (List.replicate 32 0) 1, d'') := by
  have hseed : (List.replicate 32 (0 : UInt8)).length = 32 := rfl
  obtain ⟨k, d', hkey⟩ : ∃ k d', (newChainEpochDirection (List.replicate 32 0)).key toyPrims 2
      { MaxJump := 0, MaxOOO := 0 } = .ok (k, d') := ⟨_, _, rfl⟩
  obtain ⟨-, -, hrun⟩ := window_arithmetic toyPrims { MaxJump := 0, MaxOOO := 0 }
  obtain ⟨d'', hback⟩ := (hrun _ [] _ d' 2 1 k hseed .nil (by decide) hkey (by decide) (by decide)
    (.inl (by decide))).mpr (by decide)
  exact ⟨k, d', d'', hkey, hback⟩

/-- With the largest `MaxOOO` the window is empty: the first key is lost once the second one was
returned, although it is only one behind. -/
theorem window_arithmetic_largest : ∃ k d',
    (newChainEpochDirection (List.replicate 32 0)).key toyPrims 2
      { MaxJump := 0, MaxOOO := 0xffffffff } = .ok (k, d') ∧
    ¬ ((1 : UInt32) + 0xffffffff < 2 ↔ (1 : UInt32).toNat + (0xffffffff : UInt32).toNat < 2) ∧
    d'.key toyPrims 1 { MaxJump := 0, MaxOOO := 0xffffffff } =
      .error (.sentinel .spqrKeyTrimmed) :=
  ⟨_, _, rfl, by decide, rfl⟩

end

end SignalGo.Spqr
