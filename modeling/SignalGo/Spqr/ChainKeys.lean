import SignalGo.Spqr.Chain

/-!
# The keys of a chain

What the chain functions compute, in terms of the seeds of the epochs: a seed determines an
infinite sequence of keys, a link of the chain stands somewhere in two of these sequences, and the
chain keeps the links from the epoch before the last send on.

* `keyAt`, `nextAt`: the key number `n` of a seed, and what is kept behind it.
* `ChainOk`: the chain holds the links of the epochs `base … cur`, and its sending and
  receiving positions agree with the seeds.
* `ChainOk.addEpoch`, `ChainOk.sendKey`: `AddEpoch` and `SendKey` succeed and keep this.
* `ChainOk.recvKey`: a key `RecvKey` returns is the key of its epoch and number.
-/

namespace SignalGo.Spqr

open Std (ExtTreeMap)

variable (p : Prims)

/-! ## The sequence of a seed -/

/-- One derivation: what is kept, and the key. -/
def keyStep (next : Bytes) (ctr : UInt32) : Bytes × Key :=
  let okm := (hkdfBytes p next (List.replicate 32 0) (putUint32 ctr ++ chainInfoNext) 64).toBytes
  (okm.take 32, .ofBytes 32 (okm.drop 32))

/-- What is kept behind key number `n`. -/
def nextAt (seed : Bytes) : Nat → Bytes
  | 0 => seed
  | n + 1 => (keyStep p (nextAt seed n) (UInt32.ofNat (n + 1))).1

/-- Key number `n`, counted from one. -/
def keyAt (seed : Bytes) (n : Nat) : Key :=
  (keyStep p (nextAt p seed (n - 1)) (UInt32.ofNat n)).2

theorem length_nextAt {seed : Bytes} (h : seed.length = 32) (n : Nat) :
    (nextAt p seed n).length = 32 := by
  cases n with
  | zero => exact h
  | succ n => simp [nextAt, keyStep]

theorem hkdfTo_ok (ikm : Bytes) (salt : Option Bytes) (info : Bytes) {length : Nat}
    (h : length ≤ hkdfMaxLength) :
    hkdfTo p ikm salt info length
      = .ok (hkdfBytes p ikm (salt.getD (List.replicate 32 0)) info length).toBytes := by
  rw [hkdfTo, hkdf_ok p h]
  rfl

/-- `nextKey` is one step of the sequence. -/
theorem nextKey_eq {d : ChainEpochDirection} (h : d.next.length = 32) :
    d.nextKey p = .ok (d.ctr + 1, (keyStep p d.next (d.ctr + 1)).2,
      { d with ctr := d.ctr + 1, next := (keyStep p d.next (d.ctr + 1)).1 }) := by
  rw [ChainEpochDirection.nextKey, if_neg (by omega), hkdfTo_ok p _ _ _ (by decide), ok_bind]
  simp only [keyStep, Option.getD_none]
  rw [copyInto_eq (by simp [h])]
  rfl

/-- The direction stands behind key number `n` of the seed. -/
structure StandsAt (seed : Bytes) (n : Nat) (d : ChainEpochDirection) : Prop where
  ctr : d.ctr = UInt32.ofNat n
  next : d.next = nextAt p seed n

theorem StandsAt.nextKey {seed : Bytes} {n : Nat} {d : ChainEpochDirection}
    (h : StandsAt p seed n d) (hseed : seed.length = 32) :
    ∃ d', d.nextKey p = .ok (UInt32.ofNat (n + 1), keyAt p seed (n + 1), d') ∧
      StandsAt p seed (n + 1) d' ∧ d'.prev = d.prev := by
  have hctr : d.ctr + 1 = UInt32.ofNat (n + 1) := by
    rw [h.ctr]
    apply UInt32.toNat_inj.mp
    simp
  have hnext := nextKey_eq p (d := d) (by rw [h.next, length_nextAt p hseed])
  rw [hctr, h.next] at hnext
  exact ⟨_, hnext, ⟨rfl, rfl⟩, rfl⟩

/-! ## The receiving side -/

/-- The receiving direction stands in the sequence of the seed, and the stored keys are the keys
of their numbers, which are not ahead. -/
structure RecvOk (seed : Bytes) (d : ChainEpochDirection) : Prop where
  stands : StandsAt p seed d.ctr.toNat d
  stored : ∀ (idx : UInt32) (key : Key), d.prev.keys[idx]? = some key →
    0 < idx.toNat ∧ idx.toNat ≤ d.ctr.toNat ∧ key = keyAt p seed idx.toNat

section Recv

variable {p} {seed : Bytes} {d d' : ChainEpochDirection} {goal : UInt32} {k : Key}

theorem toNat_add_one {a b : UInt32} (h : a < b) : (a + 1).toNat = a.toNat + 1 := by
  have := b.toNat_lt
  have := UInt32.lt_iff_toNat_lt.mp h
  rw [UInt32.toNat_add]
  exact Nat.mod_eq_of_lt (by simp; omega)

/-- One step ahead keeps the stored keys. -/
theorem RecvOk.nextKey (h : RecvOk p seed d) (hseed : seed.length = 32) (hlt : d.ctr < goal) :
    ∃ d', d.nextKey p = .ok (d.ctr + 1, keyAt p seed (d.ctr.toNat + 1), d') ∧
      RecvOk p seed d' ∧ d'.ctr = d.ctr + 1 ∧ d'.prev = d.prev := by
  obtain ⟨d', hnext, hstands, hprev⟩ := h.stands.nextKey p hseed
  have hctr : UInt32.ofNat (d.ctr.toNat + 1) = d.ctr + 1 := by
    apply UInt32.toNat_inj.mp
    rw [toNat_add_one hlt, UInt32.toNat_ofNat']
    have := goal.toNat_lt
    have := UInt32.lt_iff_toNat_lt.mp hlt
    exact Nat.mod_eq_of_lt (by omega)
  have hctr' : d'.ctr = d.ctr + 1 := hstands.ctr.trans hctr
  refine ⟨d', hctr ▸ hnext, ⟨?_, ?_⟩, hctr', hprev⟩
  · rwa [hctr', toNat_add_one hlt]
  · intro idx key hkey
    rw [hprev] at hkey
    obtain ⟨hpos, hle, hval⟩ := h.stored idx key hkey
    refine ⟨hpos, ?_, hval⟩
    rw [hctr', toNat_add_one hlt]
    omega

/-- The current key may be stored. -/
theorem RecvOk.add (h : RecvOk p seed d) (hpos : 0 < d.ctr.toNat) :
    RecvOk p seed { d with prev := d.prev.add d.ctr (keyAt p seed d.ctr.toNat) } where
  stands := ⟨h.stands.ctr, h.stands.next⟩
  stored i k hk := by
    rw [KeyHistory.add, ExtTreeMap.getElem?_insert] at hk
    split at hk
    · rename_i heq
      have := Std.LawfulEqOrd.compare_eq_iff_eq.mp heq
      subst this
      exact ⟨hpos, le_rfl, (Option.some.inj hk).symm⟩
    · exact h.stored i k hk

theorem RecvOk.gc (h : RecvOk p seed d) (current maxOOO : UInt32) :
    RecvOk p seed { d with prev := d.prev.gc current maxOOO } where
  stands := ⟨h.stands.ctr, h.stands.next⟩
  stored i k hk := by
    rw [KeyHistory.gc, ExtTreeMap.getElem?_filter', Option.filter_eq_some_iff] at hk
    exact h.stored i k hk.1

theorem RecvOk.clear (h : RecvOk p seed d) : RecvOk p seed { d with prev := .empty } where
  stands := ⟨h.stands.ctr, h.stands.next⟩
  stored i k hk := by
    simp [KeyHistory.empty] at hk

theorem RecvOk.get (h : RecvOk p seed d) {current maxOOO : UInt32} {prev : KeyHistory}
    (hget : d.prev.get goal current maxOOO = .ok (k, prev)) :
    k = keyAt p seed goal.toNat ∧ RecvOk p seed { d with prev } := by
  unfold KeyHistory.get at hget
  split at hget
  · cases hget
  · split at hget
    · cases hget
    · rename_i k' hk
      cases hget
      refine ⟨(h.stored goal k hk).2.2, ⟨h.stands.ctr, h.stands.next⟩, ?_⟩
      intro i k hk
      rw [ExtTreeMap.getElem?_erase] at hk
      split at hk
      · cases hk
      · exact h.stored i k hk

/-- The loop runs up to the key before `goal`, and stores the keys on its way that are recent
enough. -/
theorem RecvOk.keyLoop (maxOOO : UInt32) (hseed : seed.length = 32) (fuel : Nat)
    (h : RecvOk p seed d) (hlt : d.ctr < goal) (hfuel : goal.toNat ≤ d.ctr.toNat + fuel + 1) :
    ∃ d', ChainEpochDirection.keyLoop p maxOOO goal fuel d = .ok d' ∧ RecvOk p seed d' ∧
      d'.ctr.toNat + 1 = goal.toNat ∧
      ∀ idx, d'.prev.keys[idx]? = if d.ctr < idx ∧ idx < goal ∧ goal ≤ idx + maxOOO
        then some (keyAt p seed idx.toNat) else d.prev.keys[idx]? := by
  have hlt' := UInt32.lt_iff_toNat_lt.mp hlt
  induction fuel generalizing d with
  | zero =>
    refine ⟨d, rfl, h, by omega, fun idx => (if_neg ?_).symm⟩
    rintro ⟨hgt, hless, -⟩
    rw [UInt32.lt_iff_toNat_lt] at hgt hless
    omega
  | succ fuel ih =>
    rw [ChainEpochDirection.keyLoop]
    have hsucc := toNat_add_one hlt
    by_cases hmore : d.ctr + 1 < goal
    · have hmore' := UInt32.lt_iff_toNat_lt.mp hmore
      obtain ⟨d1, hnext, h1, hctr, hprev⟩ := h.nextKey hseed hlt
      have hd1 : d1.ctr.toNat = d.ctr.toNat + 1 := by rw [hctr, hsucc]
      -- the numbers behind the counter are the next one and those behind it
      have hbehind : ∀ idx, d.ctr < idx ↔ idx = d.ctr + 1 ∨ d.ctr + 1 < idx := by
        intro idx
        rw [UInt32.lt_iff_toNat_lt, UInt32.lt_iff_toNat_lt, ← UInt32.toNat_inj, hsucc]
        omega
      have hself : ¬ d.ctr + 1 < d.ctr + 1 := UInt32.lt_irrefl _
      rw [if_pos hmore, hnext, ok_bind]
      simp only
      split
      · rename_i hstore
        have hadd := h1.add (by omega)
        rw [hd1] at hadd
        rw [← hctr]
        obtain ⟨d', hloop, h', hctr', hstored⟩ := ih hadd (hctr ▸ hmore)
          (by show goal.toNat ≤ d1.ctr.toNat + fuel + 1; omega)
          (by show d1.ctr.toNat < goal.toNat; omega)
        refine ⟨d', hloop, h', hctr', fun idx => ?_⟩
        rw [hstored, KeyHistory.add, ExtTreeMap.getElem?_insert, hprev]
        simp only [hctr, hbehind, Std.LawfulEqOrd.compare_eq_iff_eq]
        by_cases heq : idx = d.ctr + 1
        · subst heq
          simp [hself, hmore, hstore, hsucc]
        · simp [heq, Ne.symm heq]
      · rename_i hdrop
        obtain ⟨d', hloop, h', hctr', hstored⟩ := ih h1 (hctr ▸ hmore) (by omega) (by omega)
        refine ⟨d', hloop, h', hctr', fun idx => ?_⟩
        rw [hstored, hprev]
        simp only [hctr, hbehind]
        by_cases heq : idx = d.ctr + 1
        · subst heq
          simp [hself, hdrop]
        · simp [heq]
    · have hmore' : ¬ (d.ctr + 1).toNat < goal.toNat :=
        fun h => hmore (UInt32.lt_iff_toNat_lt.mpr h)
      rw [if_neg hmore]
      refine ⟨d, rfl, h, by omega, fun idx => (if_neg ?_).symm⟩
      rintro ⟨hgt, hless, -⟩
      rw [UInt32.lt_iff_toNat_lt] at hgt hless
      omega

/-- What is stored behind a step ahead. -/
def ChainEpochDirection.storedAhead (p : Prims) (seed : Bytes) (d : ChainEpochDirection)
    (goal maxOOO : UInt32) (idx : UInt32) : Option Key :=
  if idx + maxOOO < goal - 1 then none
  else if d.ctr < idx ∧ idx < goal ∧ goal ≤ idx + maxOOO then some (keyAt p seed idx.toNat)
  else if d.ctr + maxOOO < goal then none
  else d.prev.keys[idx]?

/-- A request ahead of the counter stores the keys that it skips. -/
theorem RecvOk.keyAhead (params : ChainParams) (hseed : seed.length = 32) (h : RecvOk p seed d)
    (hlt : d.ctr < goal) (hjump : ¬ params.maxJump < goal - d.ctr) :
    ∃ d', d.keyAhead p goal params = .ok (keyAt p seed goal.toNat, d') ∧ RecvOk p seed d' ∧
      d'.ctr = goal ∧
      ∀ idx, d'.prev.keys[idx]? = d.storedAhead p seed goal params.maxOOO idx := by
  -- a jump over the whole window drops the stored keys first
  have hclear : ∃ d0, (if d.ctr + params.maxOOO < goal then { d with prev := .empty } else d) = d0
      ∧ RecvOk p seed d0 ∧ d0.ctr = d.ctr ∧ ∀ idx : UInt32, d0.prev.keys[idx]?
        = if d.ctr + params.maxOOO < goal then none else d.prev.keys[idx]? := by
    refine ⟨_, rfl, ?_⟩
    split
    · exact ⟨h.clear, rfl, fun idx => by simp [KeyHistory.empty]⟩
    · exact ⟨h, rfl, fun _ => rfl⟩
  obtain ⟨d0, hd0, h0, hctr0, hstored0⟩ := hclear
  obtain ⟨d1, hloop, h1, hctr1, hstored1⟩ := h0.keyLoop params.maxOOO hseed goal.toNat
    (hctr0 ▸ hlt) (by omega)
  have hgc := h1.gc d1.ctr params.maxOOO
  obtain ⟨d2, hnext, h2, hctr2, hprev2⟩ := hgc.nextKey hseed
    (show d1.ctr < goal from UInt32.lt_iff_toNat_lt.mpr (by omega))
  have hbefore : d1.ctr = goal - 1 := by
    have hone : (1 : UInt32) ≤ goal := UInt32.le_iff_toNat_le.mpr (by simp; omega)
    apply UInt32.toNat_inj.mp
    rw [UInt32.toNat_sub_of_le _ _ hone, ← hctr1]
    rfl
  refine ⟨d2, ?_, h2, ?_, fun idx => ?_⟩
  · rw [ChainEpochDirection.keyAhead, if_neg hjump]
    simp only [hd0]
    rw [hloop, ok_bind, hnext, ok_bind, ← hctr1]
    rfl
  · have hlt1 : d1.ctr < goal := UInt32.lt_iff_toNat_lt.mpr (by omega)
    refine hctr2.trans (UInt32.toNat_inj.mp ?_)
    rw [← hctr1]
    exact toNat_add_one hlt1
  · rw [hprev2, KeyHistory.gc, ExtTreeMap.getElem?_filter', hstored1, hstored0, hctr0, hbefore]
    by_cases hold : idx + params.maxOOO < goal - 1
    · simp [ChainEpochDirection.storedAhead, hold]
    · have hkeep : ∀ key : Option Key,
          key.filter (fun _ => decide (¬ idx + params.maxOOO < goal - 1)) = key := by
        intro key
        cases key <;> simp [hold]
      rw [ChainEpochDirection.storedAhead, if_neg hold]
      exact hkeep _

/-- **Receiving**: what `key` returns is the key of its number. -/
theorem RecvOk.key (params : ChainParams) (hseed : seed.length = 32) (h : RecvOk p seed d)
    (hkey : d.key p goal params = .ok (k, d')) :
    k = keyAt p seed goal.toNat ∧ RecvOk p seed d' := by
  unfold ChainEpochDirection.key at hkey
  split at hkey
  · obtain ⟨⟨k, prev⟩, hget, hk⟩ := bind_eq_ok.mp hkey
    cases hk
    exact h.get hget
  · split at hkey
    · cases hkey
    · rename_i hge hne
      have hlt : d.ctr < goal := by
        rw [UInt32.lt_iff_toNat_lt] at hge ⊢
        have : goal.toNat ≠ d.ctr.toNat := fun h => hne (UInt32.toNat_inj.mp h)
        omega
      by_cases hjump : params.maxJump < goal - d.ctr
      · rw [ChainEpochDirection.keyAhead, if_pos hjump] at hkey
        cases hkey
      · obtain ⟨d1, hahead, h1, -, -⟩ := h.keyAhead params hseed hlt hjump
        rw [hahead] at hkey
        cases hkey
        exact ⟨rfl, h1⟩

end Recv

/-! ## Links -/

/-- A link of an epoch with the given sending and receiving seeds, after `sent` keys for sending.
Behind the epoch of the last send the sending side may be cleared. -/
structure LinkOk (seeds : Bytes × Bytes) (sent : Nat) (live : Prop) (link : ChainEpoch) :
    Prop where
  sendCtr : link.send.ctr = UInt32.ofNat sent
  sendNext : link.send.next = nextAt p seeds.1 sent ∨ (¬ live ∧ link.send.next = [])
  sendPrev : link.send.prev = .empty
  recv : RecvOk p seeds.2 link.recv

/-- The chain holds the links of the epochs `base … cur`, of which `snd` is the epoch of the last
send and `base` the one before. -/
structure ChainOk (seeds : Nat → Bytes × Bytes) (sent : Nat → Nat) (base cur snd : Nat)
    (c : Chain) : Prop where
  current : c.currentEpoch.toNat = cur
  sendEpoch : c.sendEpoch.toNat = snd
  base_eq : base = snd - 1
  snd_le : snd ≤ cur
  near : cur < base + 2 ^ 63
  length : base + c.links.length = cur + 1
  links : ∀ i link, c.links[i]? = some link →
    LinkOk p (seeds (base + i)) (sent (base + i)) (snd ≤ base + i) link

/-- Seeds have 32 bytes. -/
def SeedsOk (seeds : Nat → Bytes × Bytes) : Prop :=
  ∀ e, (seeds e).1.length = 32 ∧ (seeds e).2.length = 32

namespace Chain

theorem goInt_small {n : Nat} (h : n < 2 ^ 63) : goInt n = n := by
  unfold goInt
  rw [Int.bmod_def, Int.emod_eq_of_lt (by omega) (by omega), if_pos (by omega)]

/-- Dropping the links before the last one that is kept. -/
theorem trimLinks_eq (links : List ChainEpoch) (idx : Nat) (h : idx < links.length) :
    trimLinks links idx = some (links.drop (idx - 1), ((min idx 1 : Nat) : Int)) := by
  induction links generalizing idx with
  | nil => simp at h
  | cons link links ih =>
    rw [trimLinks]
    by_cases hidx : (idx : Int) > epochsToKeepPriorToSend
    · have hidx' : 1 < idx := by
        simp only [epochsToKeepPriorToSend] at hidx
        omega
      obtain ⟨k, rfl⟩ : ∃ k, idx = k + 2 := ⟨idx - 2, by omega⟩
      rw [if_pos hidx]
      have ih' := ih (k + 1) (by rw [List.length_cons] at h; omega)
      simp only [show ((k + 2 : Nat) : Int) - 1 = ((k + 1 : Nat) : Int) by omega, ih']
      congr 2
      omega
    · have hidx' : idx ≤ 1 := by
        simp only [epochsToKeepPriorToSend] at hidx
        omega
      rw [if_neg hidx, show idx - 1 = 0 by omega, show min idx 1 = idx by omega]
      rfl

theorem clearSend_eq (links : List ChainEpoch) (idx : Nat) (h : idx ≤ links.length) :
    ∃ links', clearSend links idx = some links' ∧ links'.length = links.length ∧
      ∀ i, links'[i]? = links[i]?.map fun link =>
        if i < idx then { link with send := { link.send with next := [] } } else link := by
  refine ⟨_, if_neg (by omega), by simp, ?_⟩
  intro i
  rw [List.getElem?_map, List.getElem?_zipIdx]
  cases links[i]? with
  | none => rfl
  | some link => simp

theorem goInt_bounds (n : Int) : goInt n < 2 ^ 63 ∧ -2 ^ 63 ≤ goInt n ∧
    ∃ k, goInt n = n + k * 2 ^ 64 := by
  unfold goInt
  rw [Int.bmod_def]
  have hdm := Int.mul_ediv_add_emod n (2 ^ 64)
  split
  · exact ⟨by omega, by omega, -(n / 2 ^ 64), by omega⟩
  · exact ⟨by omega, by omega, -(n / 2 ^ 64) - 1, by omega⟩

end Chain

section

variable {p} {seeds : Nat → Bytes × Bytes} {sent : Nat → Nat} {base cur snd : Nat} {c : Chain}

variable {epoch : UInt64}

namespace ChainOk

theorem base_le (h : ChainOk p seeds sent base cur snd c) : base ≤ snd := by
  have := h.base_eq
  omega

theorem length_le (h : ChainOk p seeds sent base cur snd c) : c.links.length ≤ 2 ^ 63 := by
  have := h.length
  have := h.near
  omega

/-- Only the epochs up to the current one count. -/
theorem congr (h : ChainOk p seeds sent base cur snd c) {seeds' : Nat → Bytes × Bytes}
    {sent' : Nat → Nat} (hseeds : ∀ e, e ≤ cur → seeds' e = seeds e)
    (hsent : ∀ e, e ≤ cur → sent' e = sent e) : ChainOk p seeds' sent' base cur snd c := by
  refine ⟨h.current, h.sendEpoch, h.base_eq, h.snd_le, h.near, h.length, ?_⟩
  intro i link hlink
  have hi := (List.getElem?_eq_some_iff.mp hlink).1
  have hlen := h.length
  rw [hseeds _ (by omega), hsent _ (by omega)]
  exact h.links i link hlink

theorem epochIndex (h : ChainOk p seeds sent base cur snd c) (hb : base ≤ epoch.toNat)
    (hc : epoch.toNat ≤ cur) :
    c.epochIndex epoch = .ok ((epoch.toNat - base : Nat) : Int) := by
  have hlen := h.length
  have hlen' := h.length_le
  have hle : epoch ≤ c.currentEpoch := UInt64.le_iff_toNat_le.mpr (by rw [h.current]; exact hc)
  have hsub : (c.currentEpoch - epoch).toNat = cur - epoch.toNat := by
    rw [UInt64.toNat_sub_of_le _ _ hle, h.current]
  have hidx : (c.links.length : Int) - 1 - ((cur - epoch.toNat : Nat) : Int)
      = ((epoch.toNat - base : Nat) : Int) := by omega
  rw [Chain.epochIndex, if_neg (by simpa using hle), hsub, Chain.goInt_small (by omega),
    if_neg (by omega), hidx, Chain.goInt_small (by omega)]

/-- An index that leads to a link is the index of its epoch. A distance that turned negative
leads outside the links. -/
theorem of_linkAt (h : ChainOk p seeds sent base cur snd c) {idx : Int} {link : ChainEpoch}
    (hidx : c.epochIndex epoch = .ok idx) (hlink : Chain.linkAt c.links idx = some link) :
    base ≤ epoch.toNat ∧ epoch.toNat ≤ cur ∧ idx = ((epoch.toNat - base : Nat) : Int) := by
  have hlen := h.length
  have hlen' := h.length_le
  unfold Chain.epochIndex at hidx
  split at hidx
  · cases hidx
  · rename_i hle
    have hle' : epoch ≤ c.currentEpoch := by simpa using hle
    have hsub : (c.currentEpoch - epoch).toNat = cur - epoch.toNat := by
      rw [UInt64.toNat_sub_of_le _ _ hle', h.current]
    have hcur : epoch.toNat ≤ cur := h.current ▸ UInt64.le_iff_toNat_le.mp hle'
    have hcur' : cur < 2 ^ 64 := h.current ▸ c.currentEpoch.toNat_lt
    simp only [hsub] at hidx
    split at hidx
    · cases hidx
    · rename_i hback
      have hidx' := Except.ok.inj hidx
      have hnn : 0 ≤ idx ∧ idx.toNat < c.links.length := by
        unfold Chain.linkAt at hlink
        split at hlink
        · cases hlink
        · obtain ⟨hlt, -⟩ := List.getElem?_eq_some_iff.mp hlink
          exact ⟨by omega, hlt⟩
      obtain ⟨hb1, hb2, k, hk⟩ := Chain.goInt_bounds ((cur - epoch.toNat : Nat) : Int)
      obtain ⟨hi1, hi2, k', hk'⟩ := Chain.goInt_bounds
        ((c.links.length : Int) - 1 - Chain.goInt ((cur - epoch.toNat : Nat) : Int))
      rw [hidx'] at hi1 hi2 hk'
      omega

end ChainOk

/-- The two chains have the same direction, root and parameters. -/
structure SameRoot (c c' : Chain) : Prop where
  dir : c'.dir = c.dir
  nextRoot : c'.nextRoot = c.nextRoot
  params : c'.params = c.params

/-- What `AddEpoch` derives from the root and the secret. -/
def epochOkm (p : Prims) (root : Key) (secret : Bytes) : Bytes :=
  (hkdfBytes p secret root.toBytes chainInfoAddEpoch 96).toBytes

/-- What `NewChain` derives from the key of the session. -/
def startOkm (p : Prims) (authKey : Bytes) : Bytes :=
  (hkdfBytes p authKey (List.replicate 32 0) chainInfoStart 96).toBytes

theorem length_chainSeeds {okm : Bytes} (h : okm.length = 96) (dir : Direction) :
    (chainSeedsForDirection okm dir).1.length = 32
      ∧ (chainSeedsForDirection okm dir).2.length = 32 := by
  unfold chainSeedsForDirection
  split <;> simp [h]

theorem newLink_ok {okm : Bytes} {dir : Direction} {live : Prop} :
    LinkOk p (chainSeedsForDirection okm dir) 0 live (newLink okm dir) where
  sendCtr := rfl
  sendNext := .inl rfl
  sendPrev := rfl
  recv :=
    { stands := ⟨rfl, rfl⟩
      stored := fun idx key h => by
        simp [newLink, newChainEpochDirection, KeyHistory.empty] at h }

theorem newChain_ok (authKey : Bytes) (dir : Direction) (params : ChainParams)
    (hseeds : seeds 0 = chainSeedsForDirection (startOkm p authKey) dir) (hsent : sent 0 = 0) :
    ∃ c, newChain p authKey dir params = .ok c ∧ ChainOk p seeds sent 0 0 0 c ∧ c.dir = dir ∧
      c.nextRoot = .ofBytes 32 ((startOkm p authKey).take 32) ∧ c.params = params := by
  refine ⟨_, by rw [newChain, hkdfTo_ok p _ _ _ (by decide)]; rfl, ?_, rfl, rfl, rfl⟩
  refine ⟨rfl, rfl, rfl, le_rfl, by omega, rfl, ?_⟩
  intro i link hlink
  obtain ⟨hi, hval⟩ := List.getElem?_eq_some_iff.mp hlink
  have hi' : i = 0 := by simpa using hi
  subst hi' hval
  rw [Nat.zero_add, hseeds, hsent]
  exact newLink_ok

namespace ChainOk

/-- `AddEpoch` for the next epoch. -/
theorem addEpoch (h : ChainOk p seeds sent base cur snd c) (secret : Bytes)
    (hepoch : epoch.toNat = cur + 1) (hnear : cur + 1 < base + 2 ^ 63)
    (hseeds : seeds (cur + 1) = chainSeedsForDirection (epochOkm p c.nextRoot secret) c.dir)
    (hsent : sent (cur + 1) = 0) :
    ∃ c', c.addEpoch p epoch secret = .ok c' ∧ ChainOk p seeds sent base (cur + 1) snd c' ∧
      c'.dir = c.dir ∧ c'.nextRoot = .ofBytes 32 ((epochOkm p c.nextRoot secret).take 32) ∧
      c'.params = c.params := by
  have hnext : epoch = c.currentEpoch + 1 := by
    have hlt := epoch.toNat_lt
    apply UInt64.toNat_inj.mp
    rw [hepoch, UInt64.toNat_add, h.current]
    exact (Nat.mod_eq_of_lt (by simp; omega)).symm
  have heq : c.addEpoch p epoch secret = .ok { c with
      nextRoot := .ofBytes 32 ((epochOkm p c.nextRoot secret).take 32)
      currentEpoch := epoch
      links := c.links ++ [newLink (epochOkm p c.nextRoot secret) c.dir] } := by
    rw [Chain.addEpoch, if_neg (by simpa using hnext), hkdfTo_ok p _ _ _ (by decide)]
    rfl
  refine ⟨_, heq, ?_, rfl, rfl, rfl⟩
  have hlen := h.length
  refine ⟨hepoch, h.sendEpoch, h.base_eq, by have := h.snd_le; omega, hnear, by simp; omega, ?_⟩
  intro i link hlink
  rcases Nat.lt_or_ge i c.links.length with hi | hi
  · rw [List.getElem?_append_left hi] at hlink
    exact h.links i link hlink
  · -- the new link
    obtain ⟨hi', hval⟩ := List.getElem?_eq_some_iff.mp hlink
    have hi'' : i = c.links.length := by
      simp at hi'
      omega
    subst hi''
    rw [List.getElem_append_right (by omega)] at hval
    simp only [Nat.sub_self, List.getElem_cons_zero] at hval
    subst hval
    rw [hlen, hseeds, hsent]
    exact newLink_ok

/-- Moving the epoch of the last send forward. -/
theorem moveSendEpoch (h : ChainOk p seeds sent base cur snd c) (hs : snd ≤ epoch.toNat)
    (hc : epoch.toNat ≤ cur) :
    ∃ c' base', c.moveSendEpoch epoch ((epoch.toNat - base : Nat) : Int)
        = some (c', ((epoch.toNat - base' : Nat) : Int)) ∧ base' ≤ epoch.toNat ∧
      ChainOk p seeds sent base' cur epoch.toNat c' ∧ SameRoot c c' := by
  have hlen := h.length
  have hbase := h.base_eq
  unfold Chain.moveSendEpoch
  by_cases heq : epoch = c.sendEpoch
  · subst heq
    rw [h.sendEpoch] at hc ⊢
    exact ⟨c, base, if_pos rfl, h.base_le, h, ⟨rfl, rfl, rfl⟩⟩
  · have hne : epoch.toNat ≠ snd := fun he => heq (UInt64.toNat_inj.mp (he.trans h.sendEpoch.symm))
    -- the links before the one in front of the epoch go
    have htrim := Chain.trimLinks_eq c.links (epoch.toNat - base) (by omega)
    have hmin : min (epoch.toNat - base) 1 = 1 := by omega
    rw [hmin] at htrim
    obtain ⟨links', hclear, hlen', hget⟩ := Chain.clearSend_eq
      (c.links.drop (epoch.toNat - base - 1)) 1 (by rw [List.length_drop]; omega)
    rw [List.length_drop] at hlen'
    refine ⟨{ c with sendEpoch := epoch, links := links' }, epoch.toNat - 1, ?_, by omega, ?_,
      ⟨rfl, rfl, rfl⟩⟩
    · rw [if_neg heq, htrim]
      show (do let links ← Chain.clearSend _ _; _) = _
      rw [hclear, show epoch.toNat - (epoch.toNat - 1) = 1 by omega]
      rfl
    · refine ⟨h.current, rfl, rfl, hc, by have := h.near; omega, ?_, ?_⟩
      · show epoch.toNat - 1 + links'.length = cur + 1
        omega
      · intro i link' hlink'
        have hlink : links'[i]? = some link' := hlink'
        rw [hget, List.getElem?_drop] at hlink
        obtain ⟨link, hl, rfl⟩ := Option.map_eq_some_iff.mp hlink
        have hold := h.links _ _ hl
        rw [show base + (epoch.toNat - base - 1 + i) = epoch.toNat - 1 + i by omega] at hold
        split
        · rename_i hi
          exact ⟨hold.sendCtr, .inr ⟨by omega, rfl⟩, hold.sendPrev, hold.recv⟩
        · rename_i hi
          refine ⟨hold.sendCtr, .inl (hold.sendNext.resolve_right fun hcl => hcl.1 (by omega)),
            hold.sendPrev, hold.recv⟩

/-- **Sending**: `SendKey` succeeds for an epoch that is not behind the last one, with the next
key of the epoch. -/
theorem sendKey (h : ChainOk p seeds sent base cur snd c) (hok : SeedsOk seeds)
    (hs : snd ≤ epoch.toNat) (hc : epoch.toNat ≤ cur) :
    ∃ c' base', c.sendKey p epoch
        = (c', .ok (UInt32.ofNat (sent epoch.toNat + 1),
            (keyAt p (seeds epoch.toNat).1 (sent epoch.toNat + 1)).toBytes)) ∧
      ChainOk p seeds (Function.update sent epoch.toNat (sent epoch.toNat + 1)) base' cur
        epoch.toNat c' ∧ SameRoot c c' := by
  have hidx := h.epochIndex (by have := h.base_le; omega) hc
  obtain ⟨c1, base', hmove, hb', h1, hroot⟩ := h.moveSendEpoch hs hc
  have hlen := h1.length
  have hlt : epoch.toNat - base' < c1.links.length := by omega
  have hget : c1.links[epoch.toNat - base']? = some c1.links[epoch.toNat - base'] :=
    List.getElem?_eq_getElem hlt
  have hl := h1.links _ _ hget
  rw [Nat.add_sub_cancel' hb'] at hl
  -- only the links below the sending epoch have lost their send key
  have hstands : StandsAt p (seeds epoch.toNat).1 (sent epoch.toNat)
      c1.links[epoch.toNat - base'].send :=
    ⟨hl.sendCtr, hl.sendNext.resolve_right fun hcl => hcl.1 le_rfl⟩
  obtain ⟨send, hnext, hstands', hprev⟩ := hstands.nextKey p (hok _).1
  have hlink : Chain.linkAt c1.links ((epoch.toNat - base' : Nat) : Int)
      = some c1.links[epoch.toNat - base'] := by
    simp [Chain.linkAt]
  have hnlt : ¬ epoch < c.sendEpoch := by
    rw [UInt64.lt_iff_toNat_lt, h.sendEpoch]
    omega
  let link : ChainEpoch := { c1.links[epoch.toNat - base'] with send := send }
  refine ⟨{ c1 with links := c1.links.set (epoch.toNat - base') link }, base', ?_, ?_,
    ⟨hroot.dir, hroot.nextRoot, hroot.params⟩⟩
  · unfold Chain.sendKey
    rw [if_neg hnlt]
    simp only [hidx, hmove, hlink, hnext, Int.toNat_natCast]
    rfl
  · refine ⟨h1.current, h1.sendEpoch, h1.base_eq, h1.snd_le, h1.near,
      by simpa using hlen, ?_⟩
    intro i link' hlink'
    simp only [List.getElem?_set] at hlink'
    split at hlink'
    · rename_i heq
      cases hlink'
      subst heq
      rw [Nat.add_sub_cancel' hb', Function.update_self]
      exact ⟨hstands'.ctr, .inl hstands'.next, hprev.trans hl.sendPrev, hl.recv⟩
    · rename_i hne
      rw [Function.update_of_ne (by omega)]
      exact h1.links i link' hlink'

/-- **Receiving**: what `RecvKey` returns is the key of its epoch and number. -/
theorem recvKey (h : ChainOk p seeds sent base cur snd c) (hok : SeedsOk seeds) {index : UInt32}
    {key : Bytes} {c' : Chain} (hkey : c.recvKey p epoch index = .ok (key, c')) :
    epoch.toNat ≤ cur ∧ key = (keyAt p (seeds epoch.toNat).2 index.toNat).toBytes ∧
      ChainOk p seeds sent base cur snd c' ∧ SameRoot c c' := by
  obtain ⟨idx, hidx, hrest⟩ := bind_eq_ok.mp hkey
  rw [mapError_eq_ok] at hidx
  cases hlink : Chain.linkAt c.links idx with
  | none =>
    rw [hlink] at hrest
    cases hrest
  | some link =>
    simp only [hlink] at hrest
    obtain ⟨⟨k, recv⟩, hk, hrest⟩ := bind_eq_ok.mp hrest
    rw [mapError_eq_ok] at hk
    cases hrest
    obtain ⟨hb, hc, rfl⟩ := h.of_linkAt hidx hlink
    have hget : c.links[epoch.toNat - base]? = some link := by
      simpa [Chain.linkAt] using hlink
    have hl := h.links _ _ hget
    rw [Nat.add_sub_cancel' hb] at hl
    obtain ⟨hval, hrecv⟩ := hl.recv.key c.params (hok _).2 hk
    refine ⟨hc, by rw [hval], ?_, ⟨rfl, rfl, rfl⟩⟩
    refine ⟨h.current, h.sendEpoch, h.base_eq, h.snd_le, h.near, by simpa using h.length, ?_⟩
    intro i link' hlink'
    simp only [Int.toNat_natCast, List.getElem?_set] at hlink'
    split at hlink'
    · rename_i heq
      split at hlink'
      · cases hlink'
        subst heq
        rw [Nat.add_sub_cancel' hb]
        exact ⟨hl.sendCtr, hl.sendNext, hl.sendPrev, hrecv⟩
      · cases hlink'
    · exact h.links i link' hlink'

end ChainOk

end

end SignalGo.Spqr
