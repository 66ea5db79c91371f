import SignalGo.Spqr.Window

/-!
# The epochs of a chain

Any sequence of `AddEpoch`, `SendKey` and `RecvKey` calls on a chain, failed calls included. What a
chain derives is a function of the session key and the secrets it was given: `okmAt`. The history
of the calls tells how many keys were taken for sending in each epoch.

* `ChainHistory`: the chain holds the links of its history.
* `ChainHistory.step`: every call keeps this.
* `chain_epochs`: which epochs are retained, which calls succeed, and that two chains of
  opposite directions derive the same keys.
-/

namespace SignalGo.Spqr

variable (p : Prims)

/-! ## Calls -/

/-- `RecvKey`: the chain left behind, and the key. -/
def Chain.recvKeyInPlace (c : Chain) (epoch : UInt64) (index : UInt32) :
    Chain × Except (Fault Err) Bytes :=
  match c.epochIndex epoch with
  | .error e => (c, .error (.err e))
  | .ok idx =>
      match linkAt c.links idx with
      | none => (c, .error .panic)
      | some link =>
          let (recv, key) := link.recv.keyInPlace p index c.params
          ({ c with links := c.links.set idx.toNat { link with recv } },
            (key.map ByteArr.toBytes).mapError .err)

theorem Chain.recvKey_eq_inPlace (c : Chain) (epoch : UInt64) (index : UInt32) :
    c.recvKey p epoch index
      = (c.recvKeyInPlace p epoch index).2.map
          fun key => (key, (c.recvKeyInPlace p epoch index).1) := by
  unfold Chain.recvKey Chain.recvKeyInPlace
  cases c.epochIndex epoch with
  | error e => rfl
  | ok idx =>
    simp only [Except.mapError, ok_bind]
    cases Chain.linkAt c.links idx with
    | none => rfl
    | some link =>
      simp only [ChainEpochDirection.key_eq_inPlace]
      cases (link.recv.keyInPlace p index c.params).2 <;> rfl

inductive ChainCall where
  | addEpoch (epoch : UInt64) (secret : Bytes)
  | sendKey (epoch : UInt64)
  | recvKey (epoch : UInt64) (index : UInt32)

/-- A call, whether it succeeded, and the chain it left behind. `AddEpoch` changes the chain behind
its last error only. -/
inductive ChainStep (c : Chain) : ChainCall × Bool → Chain → Prop
  | addEpoch {epoch : UInt64} {secret : Bytes} {c' : Chain} :
      c.addEpoch p epoch secret = .ok c' → ChainStep c (.addEpoch epoch secret, true) c'
  | addEpoch_fails {epoch : UInt64} {secret : Bytes} {e : Err} :
      c.addEpoch p epoch secret = .error e → ChainStep c (.addEpoch epoch secret, false) c
  | sendKey {epoch : UInt64} {c' : Chain} {idx : UInt32} {key : Bytes} :
      c.sendKey p epoch = (c', .ok (idx, key)) → ChainStep c (.sendKey epoch, true) c'
  | sendKey_fails {epoch : UInt64} {c' : Chain} {f : Fault Err} :
      c.sendKey p epoch = (c', .error f) → ChainStep c (.sendKey epoch, false) c'
  | recvKey {epoch : UInt64} {index : UInt32} {c' : Chain} {r : Except (Fault Err) Bytes} :
      c.recvKeyInPlace p epoch index = (c', r) → ChainStep c (.recvKey epoch index, r.isOk) c'

/-! ## What the history says -/

/-- The secrets that were added, of epoch one first. -/
def secretsOf (es : List (ChainCall × Bool)) : List Bytes :=
  es.filterMap fun
    | (.addEpoch _ secret, true) => some secret
    | _ => none

/-- How many keys were taken for sending in epoch `n`. -/
def sentIn (es : List (ChainCall × Bool)) (n : Nat) : Nat :=
  es.countP fun
    | (.sendKey epoch, true) => epoch.toNat = n
    | _ => false

/-- What is derived for an epoch, from the session key and the secrets. -/
def okmAt (authKey : Bytes) (secrets : List Bytes) : Nat → Bytes
  | 0 => startOkm p authKey
  | i + 1 =>
      epochOkm p (.ofBytes 32 ((okmAt authKey secrets i).take 32)) (secrets.getD i [])

def seedsAt (authKey : Bytes) (dir : Direction) (secrets : List Bytes) (e : Nat) : Bytes × Bytes :=
  chainSeedsForDirection (okmAt p authKey secrets e) dir

/-- Only the secrets up to the epoch count. -/
theorem okmAt_congr (authKey : Bytes) {secrets secrets' : List Bytes} {e : Nat}
    (h : secrets.take e = secrets'.take e) :
    ∀ i ≤ e, okmAt p authKey secrets i = okmAt p authKey secrets' i := by
  intro i hi
  induction i with
  | zero => rfl
  | succ i ih =>
    have hget : secrets.getD i [] = secrets'.getD i [] := by
      rw [List.getD_eq_getElem?_getD, List.getD_eq_getElem?_getD,
        ← List.getElem?_take_of_lt (Nat.lt_of_succ_le hi), h,
          List.getElem?_take_of_lt (Nat.lt_of_succ_le hi)]
    rw [okmAt, okmAt, ih (by omega), hget]

theorem length_okmAt (authKey : Bytes) (secrets : List Bytes) (i : Nat) :
    (okmAt p authKey secrets i).length = 96 := by
  cases i <;> simp [okmAt, startOkm, epochOkm]

theorem seedsAt_ok (authKey : Bytes) (dir : Direction) (secrets : List Bytes) :
    SeedsOk (seedsAt p authKey dir secrets) :=
  fun e => length_chainSeeds (length_okmAt p authKey secrets e) dir

/-- The chain holds the links of its history. -/
structure ChainHistory (authKey : Bytes) (dir : Direction) (es : List (ChainCall × Bool))
    (c : Chain) : Prop where
  direction : c.dir = dir
  count : (secretsOf es).length = c.currentEpoch.toNat
  root : c.nextRoot
    = .ofBytes 32 ((okmAt p authKey (secretsOf es) c.currentEpoch.toNat).take 32)
  fresh : ∀ e, c.currentEpoch.toNat < e → sentIn es e = 0
  links : ChainOk p (seedsAt p authKey dir (secretsOf es)) (sentIn es) (c.sendEpoch.toNat - 1)
    c.currentEpoch.toNat c.sendEpoch.toNat c

section

variable {p} {seeds : Nat → Bytes × Bytes} {sent : Nat → Nat} {base cur snd : Nat} {c c' : Chain}
  {epoch : UInt64} {index : UInt32}

/-! ## Which calls succeed -/

theorem ChainOk.epochIndex_error (h : ChainOk p seeds sent base cur snd c) (hcur : cur < 2 ^ 63)
    (hout : epoch.toNat < base ∨ cur < epoch.toNat) :
    c.epochIndex epoch = .error (.sentinel .spqrEpochOutOfRange) := by
  unfold Chain.epochIndex
  rcases hout with hlow | hhigh
  · have hbase := h.base_le
    have hsnd := h.snd_le
    have hlen := h.length
    have hle : epoch ≤ c.currentEpoch := UInt64.le_iff_toNat_le.mpr (by rw [h.current]; omega)
    have hsub : (c.currentEpoch - epoch).toNat = cur - epoch.toNat := by
      rw [UInt64.toNat_sub_of_le _ _ hle, h.current]
    rw [if_neg (by simpa using hle)]
    simp only [hsub, Chain.goInt_small (show cur - epoch.toNat < 2 ^ 63 by omega)]
    rw [if_pos (by omega)]
  · rw [if_pos (UInt64.lt_iff_toNat_lt.mpr (by rw [h.current]; exact hhigh))]

/-- `SendKey` fails outside the epochs from the last send on, and changes nothing then. -/
theorem ChainOk.sendKey_fails (h : ChainOk p seeds sent base cur snd c) (hcur : cur < 2 ^ 63)
    (hout : epoch.toNat < snd ∨ cur < epoch.toNat) :
    ∃ e, c.sendKey p epoch = (c, .error (.err e)) := by
  unfold Chain.sendKey
  by_cases hlt : epoch < c.sendEpoch
  · exact ⟨_, if_pos hlt⟩
  · rw [if_neg hlt]
    rw [UInt64.lt_iff_toNat_lt, h.sendEpoch] at hlt
    simp only [h.epochIndex_error hcur (.inr (hout.resolve_left hlt))]
    exact ⟨_, rfl⟩

/-- The link of an epoch in range. -/
theorem ChainOk.linkAt (h : ChainOk p seeds sent base cur snd c) (hb : base ≤ epoch.toNat)
    (hc : epoch.toNat ≤ cur) :
    ∃ link, Chain.linkAt c.links ((epoch.toNat - base : Nat) : Int) = some link ∧
      LinkOk p (seeds epoch.toNat) (sent epoch.toNat) (snd ≤ epoch.toNat) link := by
  have hlen := h.length
  have hlt : epoch.toNat - base < c.links.length := by omega
  have hlink := h.links _ _ (List.getElem?_eq_getElem hlt)
  rw [Nat.add_sub_cancel' hb] at hlink
  exact ⟨_, by simp [Chain.linkAt], hlink⟩

/-- A key that is refused is refused for its number. -/
theorem RecvOk.keyInPlace_ne {seed : Bytes} {d : ChainEpochDirection} (h : RecvOk p seed d)
    (index : UInt32) (params : ChainParams) (hseed : seed.length = 32) :
    (d.keyInPlace p index params).2 ≠ .error (.sentinel .spqrEpochOutOfRange) := by
  have hget : ∀ e, d.prev.get index d.ctr params.maxOOO = .error e →
      e ≠ .sentinel .spqrEpochOutOfRange := by
    intro e he
    unfold KeyHistory.get at he
    split at he
    · cases he
      decide
    · split at he
      · cases he
        decide
      · cases he
  unfold ChainEpochDirection.keyInPlace
  split
  · cases hres : d.prev.get index d.ctr params.maxOOO with
    | ok r => nofun
    | error e => exact fun herr => hget e hres (Except.error.inj herr)
  · rename_i hge
    split
    · nofun
    · rename_i hne
      intro herr
      by_cases hjump : params.maxJump < index - d.ctr
      · rw [ChainEpochDirection.keyAheadInPlace, if_pos hjump] at herr
        cases herr
      · have hlt : d.ctr < index := by
          rw [UInt32.lt_iff_toNat_lt] at hge ⊢
          rw [← UInt32.toNat_inj] at hne
          omega
        obtain ⟨d1, hkey, -⟩ := h.keyAhead params hseed hlt hjump
        rw [ChainEpochDirection.keyAhead_eq_inPlace, herr] at hkey
        cases hkey

/-- A `RecvKey` that fails changes nothing. -/
theorem ChainOk.recvKeyInPlace_error (h : ChainOk p seeds sent base cur snd c) (hok : SeedsOk seeds)
    (hcur : cur < 2 ^ 63) {f : Fault Err} (herr : (c.recvKeyInPlace p epoch index).2 = .error f) :
    (c.recvKeyInPlace p epoch index).1 = c := by
  unfold Chain.recvKeyInPlace at herr ⊢
  by_cases hin : base ≤ epoch.toNat ∧ epoch.toNat ≤ cur
  · obtain ⟨link, hlink, hl⟩ := h.linkAt hin.1 hin.2
    simp only [h.epochIndex hin.1 hin.2, hlink] at herr ⊢
    cases hres : (link.recv.keyInPlace p index c.params).2 with
    | ok key =>
      rw [hres] at herr
      cases herr
    | error e =>
      rw [hl.recv.keyInPlace_error (hok _).2 hres]
      have hget : c.links[epoch.toNat - base]? = some link := by
        simpa [Chain.linkAt] using hlink
      obtain ⟨hlt, hval⟩ := List.getElem?_eq_some_iff.mp hget
      subst hval
      show ({ c with links := c.links.set _ c.links[epoch.toNat - base] } : Chain) = c
      rw [Int.toNat_natCast, List.set_getElem_self]
  · have hout : epoch.toNat < base ∨ cur < epoch.toNat := by omega
    simp only [h.epochIndex_error hcur hout]

/-- **`RecvKey` is out of range** exactly outside the retained epochs. -/
theorem ChainOk.recvKey_out_of_range (h : ChainOk p seeds sent base cur snd c)
    (hok : SeedsOk seeds) (hcur : cur < 2 ^ 63) :
    (c.recvKeyInPlace p epoch index).2 = .error (.err (.sentinel .spqrEpochOutOfRange)) ↔
      epoch.toNat < base ∨ cur < epoch.toNat := by
  unfold Chain.recvKeyInPlace
  by_cases hin : base ≤ epoch.toNat ∧ epoch.toNat ≤ cur
  · obtain ⟨link, hlink, hl⟩ := h.linkAt hin.1 hin.2
    simp only [h.epochIndex hin.1 hin.2, hlink]
    refine ⟨fun herr => ?_, fun hout => by omega⟩
    have hne := hl.recv.keyInPlace_ne index c.params (hok _).2
    cases hres : (link.recv.keyInPlace p index c.params).2 with
    | ok key =>
      rw [hres] at herr
      cases herr
    | error e =>
      rw [hres] at herr hne
      cases herr
      exact absurd rfl hne
  · have hout : epoch.toNat < base ∨ cur < epoch.toNat := by omega
    simp only [h.epochIndex_error hcur hout]
    exact ⟨fun _ => hout, fun _ => trivial⟩

/-! ## Histories -/

section History

variable {authKey : Bytes} {dir : Direction} {es : List (ChainCall × Bool)}

theorem ChainHistory.start {params : ChainParams} (h : newChain p authKey dir params = .ok c) :
    ChainHistory p authKey dir [] c ∧ c.currentEpoch.toNat < 2 ^ 63 := by
  obtain ⟨c', hc', hok, hdir, hroot, -⟩ := newChain_ok authKey dir params
    (show seedsAt p authKey dir [] 0 = _ from rfl) (show sentIn [] 0 = 0 from rfl)
  rw [h] at hc'
  cases hc'
  refine ⟨⟨hdir, ?_, ?_, fun _ _ => rfl, ?_⟩, ?_⟩
  · rw [hok.current]
    rfl
  · rw [hok.current]
    exact hroot
  · rw [hok.current, hok.sendEpoch]
    exact hok
  · rw [hok.current]
    decide

/-- A call that changes nothing. -/
theorem ChainHistory.stay (h : ChainHistory p authKey dir es c) {e : ChainCall × Bool}
    (hsecrets : secretsOf (es ++ [e]) = secretsOf es) (hsent : sentIn (es ++ [e]) = sentIn es) :
    ChainHistory p authKey dir (es ++ [e]) c := by
  refine ⟨h.direction, ?_, ?_, ?_, ?_⟩
  · rw [hsecrets, h.count]
  · rw [hsecrets, h.root]
  · rw [hsent]
    exact h.fresh
  · rw [hsecrets, hsent]
    exact h.links

/-- A new epoch goes behind the links, with the seeds of its secret. -/
theorem ChainHistory.addEpoch (h : ChainHistory p authKey dir es c) {secret : Bytes}
    (hadd : c.addEpoch p epoch secret = .ok c') (hcur : c.currentEpoch.toNat < 2 ^ 63)
    (hcur' : c'.currentEpoch.toNat < 2 ^ 63) :
    ChainHistory p authKey dir (es ++ [(.addEpoch epoch secret, true)]) c' := by
  have hsecrets : secretsOf (es ++ [(.addEpoch epoch secret, true)]) =
      secretsOf es ++ [secret] := by
    simp [secretsOf]
  have hsent : sentIn (es ++ [(.addEpoch epoch secret, true)]) = sentIn es := by
    funext n
    simp [sentIn]
  have hnext : epoch = c.currentEpoch + 1 := by
    by_contra hne
    rw [Chain.addEpoch, if_pos hne] at hadd
    cases hadd
  have hepoch : epoch.toNat = c.currentEpoch.toNat + 1 := by
    rw [hnext, UInt64.toNat_add]
    exact Nat.mod_eq_of_lt (by simp; omega)
  have hcount := h.count
  -- the earlier epochs do not depend on the new secret
  have hsame : (secretsOf es).take c.currentEpoch.toNat
      = (secretsOf es ++ [secret]).take c.currentEpoch.toNat := by
    rw [List.take_append_of_le_length (by omega)]
  have hokm := okmAt_congr p authKey hsame
  have hokm' : okmAt p authKey (secretsOf es ++ [secret]) (c.currentEpoch.toNat + 1)
      = epochOkm p c.nextRoot secret := by
    rw [okmAt, ← hokm _ le_rfl, ← h.root, ← hcount]
    simp
  have hlinks : ChainOk p (seedsAt p authKey dir (secretsOf es ++ [secret])) (sentIn es)
      (c.sendEpoch.toNat - 1) c.currentEpoch.toNat c.sendEpoch.toNat c :=
    h.links.congr (fun e he => by rw [seedsAt, seedsAt, hokm e he]) (fun _ _ => rfl)
  have hcur'' : epoch.toNat < 2 ^ 63 := by
    rw [Chain.addEpoch, if_neg (not_not.mpr hnext)] at hadd
    obtain ⟨okm, -, hc'⟩ := bind_eq_ok.mp hadd
    cases hc'
    exact hcur'
  obtain ⟨c1, hc1, hok, hdir, hroot, -⟩ := hlinks.addEpoch secret hepoch (by omega)
    (by rw [seedsAt, hokm', h.direction]) (h.fresh _ (Nat.lt_succ_self _))
  rw [hadd] at hc1
  cases hc1
  refine ⟨hdir.trans h.direction, ?_, ?_, ?_, ?_⟩
  · rw [hsecrets, hok.current]
    simp [hcount]
  · rw [hsecrets, hok.current, hroot, hokm']
  · intro e he
    rw [hok.current] at he
    rw [hsent]
    exact h.fresh e (by omega)
  · rw [hsecrets, hsent, hok.current, hok.sendEpoch]
    exact hok

/-- A send takes the next key of its epoch. -/
theorem ChainHistory.sendKey (h : ChainHistory p authKey dir es c)
    (hs : c.sendEpoch.toNat ≤ epoch.toNat) (hc : epoch.toNat ≤ c.currentEpoch.toNat) :
    ∃ c', c.sendKey p epoch = (c', .ok (UInt32.ofNat (sentIn es epoch.toNat + 1),
        (keyAt p (seedsAt p authKey dir (secretsOf es) epoch.toNat).1
          (sentIn es epoch.toNat + 1)).toBytes)) ∧
      c'.sendEpoch = epoch ∧ ChainHistory p authKey dir (es ++ [(.sendKey epoch, true)]) c' := by
  obtain ⟨c', base', hsend, hok, hroot⟩ := h.links.sendKey (seedsAt_ok p authKey dir _) hs hc
  have hsecrets : secretsOf (es ++ [(.sendKey epoch, true)]) = secretsOf es := by simp [secretsOf]
  have hsent : sentIn (es ++ [(.sendKey epoch, true)])
      = Function.update (sentIn es) epoch.toNat (sentIn es epoch.toNat + 1) := by
    funext n
    by_cases hn : n = epoch.toNat
    · subst hn
      simp [sentIn]
    · simp [sentIn, hn, Ne.symm hn]
  refine ⟨c', hsend, UInt64.toNat_inj.mp hok.sendEpoch, hroot.dir.trans h.direction, ?_, ?_, ?_, ?_⟩
  · rw [hsecrets, h.count, hok.current]
  · rw [hsecrets, hroot.nextRoot, h.root, hok.current]
  · intro e he
    rw [hok.current] at he
    rw [hsent, Function.update_of_ne (by omega)]
    exact h.fresh e he
  · have hbase := hok.base_eq
    subst hbase
    rw [hsecrets, hsent, hok.current, hok.sendEpoch]
    exact hok

/-- A send that succeeds is one in an epoch from the last one on. -/
theorem ChainHistory.of_sendKey (h : ChainHistory p authKey dir es c)
    (hcur : c.currentEpoch.toNat < 2 ^ 63) {idx : UInt32} {key : Bytes}
    (hsend : c.sendKey p epoch = (c', .ok (idx, key))) :
    c.sendEpoch.toNat ≤ epoch.toNat ∧ epoch.toNat ≤ c.currentEpoch.toNat := by
  by_contra hout
  obtain ⟨e, he⟩ := h.links.sendKey_fails hcur
    (show epoch.toNat < c.sendEpoch.toNat ∨ c.currentEpoch.toNat < epoch.toNat by omega)
  rw [hsend] at he
  cases he

/-- **Every call keeps the history.** -/
theorem ChainHistory.step (h : ChainHistory p authKey dir es c) {e : ChainCall × Bool}
    (hstep : ChainStep p c e c') (hcur : c.currentEpoch.toNat < 2 ^ 63)
    (hcur' : c'.currentEpoch.toNat < 2 ^ 63) : ChainHistory p authKey dir (es ++ [e]) c' := by
  have hseeds := seedsAt_ok p authKey dir (secretsOf es)
  cases hstep with
  | addEpoch hadd => exact h.addEpoch hadd hcur hcur'
  | addEpoch_fails _ => exact h.stay (by simp [secretsOf]) (by funext n; simp [sentIn])
  | @sendKey epoch c' idx key hsend =>
    obtain ⟨hs, hc⟩ := h.of_sendKey hcur hsend
    obtain ⟨c1, hc1, -, h1⟩ := h.sendKey hs hc
    rw [hsend] at hc1
    cases hc1
    exact h1
  | @sendKey_fails epoch c' f hsend =>
    -- between the two epochs the call would have succeeded
    by_cases hin : c.sendEpoch.toNat ≤ epoch.toNat ∧ epoch.toNat ≤ c.currentEpoch.toNat
    · obtain ⟨c1, hc1, -, -⟩ := h.sendKey hin.1 hin.2
      rw [hsend] at hc1
      cases hc1
    · obtain ⟨e, he⟩ := h.links.sendKey_fails hcur
        (show epoch.toNat < c.sendEpoch.toNat ∨ c.currentEpoch.toNat < epoch.toNat by omega)
      rw [hsend] at he
      cases he
      exact h.stay (by simp [secretsOf]) (by funext n; simp [sentIn])
  | @recvKey epoch index c' r hrecv =>
    have hsecrets : secretsOf (es ++ [(.recvKey epoch index, r.isOk)]) = secretsOf es := by
      simp [secretsOf]
    have hsent : sentIn (es ++ [(.recvKey epoch index, r.isOk)]) = sentIn es := by
      funext n
      simp [sentIn]
    have hstay := h.stay hsecrets hsent
    cases r with
    | error f =>
      have hsame := h.links.recvKeyInPlace_error hseeds hcur (congrArg Prod.snd hrecv)
      rw [hrecv] at hsame
      subst hsame
      exact hstay
    | ok key =>
      have hkey := c.recvKey_eq_inPlace p epoch index
      rw [hrecv] at hkey
      obtain ⟨-, -, hok, hroot⟩ := h.links.recvKey hseeds hkey
      refine ⟨hroot.dir.trans h.direction, ?_, ?_, ?_, ?_⟩
      · rw [hstay.count, hok.current]
      · rw [hroot.nextRoot, hstay.root, hok.current]
      · rw [hok.current]
        exact hstay.fresh
      · rw [hok.current, hok.sendEpoch, hsecrets, hsent]
        exact hok

/-- Calls on a chain whose epochs stay below `2 ^ 63`. -/
def ChainRun (p : Prims) : Chain → List (ChainCall × Bool) → Chain → Prop :=
  Run fun c e c' => ChainStep p c e c' ∧ c'.currentEpoch.toNat < 2 ^ 63

theorem ChainRun.history {params : ChainParams} {c0 : Chain}
    (hnew : newChain p authKey dir params = .ok c0) (hrun : ChainRun p c0 es c) :
    ChainHistory p authKey dir es c ∧ c.currentEpoch.toNat < 2 ^ 63 :=
  hrun.invariant_history
    (I := fun es c => ChainHistory p authKey dir es c ∧ c.currentEpoch.toNat < 2 ^ 63)
    (fun h hstep => ⟨h.1.step hstep.1 h.2 hstep.2, hstep.2⟩) (ChainHistory.start hnew)

def OppositeDirections (dir dir' : Direction) : Prop :=
  (dir = directionA2B ∧ dir' = directionB2A) ∨ (dir = directionB2A ∧ dir' = directionA2B)

/-- What one direction sends with, the other one receives with. -/
theorem OppositeDirections.seeds_eq {dir' : Direction} (h : OppositeDirections dir dir')
    (okm : Bytes) : (chainSeedsForDirection okm dir).1 = (chainSeedsForDirection okm dir').2 := by
  rcases h with ⟨rfl, rfl⟩ | ⟨rfl, rfl⟩ <;> rfl

/-- The key a chain sends with is the one the other chain receives. -/
theorem ChainHistory.agree {dir' : Direction} {es' : List (ChainCall × Bool)} {d d' : Chain}
    (h : ChainHistory p authKey dir es c) (h' : ChainHistory p authKey dir' es' d)
    (hdirs : OppositeDirections dir dir')
    (hsecrets : (secretsOf es).take epoch.toNat = (secretsOf es').take epoch.toNat)
    (hcount : sentIn es epoch.toNat + 1 < 2 ^ 32) {idx : UInt32} {key key' : Bytes}
    (hcur : c.currentEpoch.toNat < 2 ^ 63) (hsend : c.sendKey p epoch = (c', .ok (idx, key))) :
    idx.toNat = sentIn es epoch.toNat + 1 ∧
      (d.recvKeyInPlace p epoch idx = (d', .ok key') → key' = key) := by
  obtain ⟨hs, hc⟩ := h.of_sendKey hcur hsend
  obtain ⟨c1, hc1, -, -⟩ := h.sendKey hs hc
  rw [hsend] at hc1
  cases hc1
  have hidx : (UInt32.ofNat (sentIn es epoch.toNat + 1)).toNat = sentIn es epoch.toNat + 1 := by
    rw [UInt32.toNat_ofNat']
    exact Nat.mod_eq_of_lt hcount
  refine ⟨hidx, fun hrecv => ?_⟩
  have hkey := d.recvKey_eq_inPlace p epoch (UInt32.ofNat (sentIn es epoch.toNat + 1))
  rw [hrecv] at hkey
  obtain ⟨-, hval, -, -⟩ := h'.links.recvKey (seedsAt_ok p authKey dir' _) hkey
  rw [hval, hidx, seedsAt, seedsAt, hdirs.seeds_eq, okmAt_congr p authKey hsecrets _ le_rfl]

end History

end

/-- **The epochs of a chain.** After any calls the retained links are those of the epochs from the
one before the last send up to the current one; `SendKey` serves the epochs from the last send on
and moves there; `RecvKey` is out of range exactly outside of the retained epochs; and the key
number `n` of an epoch is the same for sending on one chain and for receiving on a chain of the
opposite direction with the same secrets. -/
theorem chain_epochs (p : Prims) {authKey : Bytes} {dir : Direction} {params : ChainParams}
    {c₀ c : Chain} {es : List (ChainCall × Bool)} (hnew : newChain p authKey dir params = .ok c₀)
    (hrun : ChainRun p c₀ es c) :
    c.sendEpoch ≤ c.currentEpoch ∧
    c.links.length = c.currentEpoch.toNat + 1 - (c.sendEpoch.toNat - 1) ∧
    (∀ e, (∃ idx link, c.epochIndex e = .ok idx ∧ Chain.linkAt c.links idx = some link) ↔
      c.sendEpoch.toNat - 1 ≤ e.toNat ∧ e ≤ c.currentEpoch) ∧
    (∀ e, (∃ c' idx key, c.sendKey p e = (c', .ok (idx, key))) ↔
      c.sendEpoch ≤ e ∧ e ≤ c.currentEpoch) ∧
    (∀ e c' idx key, c.sendKey p e = (c', .ok (idx, key)) → c'.sendEpoch = e) ∧
    (∀ e index, (c.recvKeyInPlace p e index).2 = .error (.err (.sentinel .spqrEpochOutOfRange)) ↔
      e.toNat < c.sendEpoch.toNat - 1 ∨ c.currentEpoch < e) ∧
    ∀ dir' params' d₀ es' d, OppositeDirections dir dir' →
      newChain p authKey dir' params' = .ok d₀ → ChainRun p d₀ es' d →
      ∀ e c' idx key d' key', (secretsOf es).take e.toNat = (secretsOf es').take e.toNat →
        sentIn es e.toNat + 1 < 2 ^ 32 → c.sendKey p e = (c', .ok (idx, key)) →
        idx.toNat = sentIn es e.toNat + 1 ∧
          (d.recvKeyInPlace p e idx = (d', .ok key') → key' = key) := by
  -- everything is read off the history of the run
  obtain ⟨h, hcur⟩ := hrun.history hnew
  have hbase := h.links.base_le
  have hsnd := h.links.snd_le
  have hlen := h.links.length
  have hseeds := seedsAt_ok p authKey dir (secretsOf es)
  refine ⟨UInt64.le_iff_toNat_le.mpr hsnd, by omega, fun e => ?_, fun e => ?_, ?_, ?_, ?_⟩
  · rw [UInt64.le_iff_toNat_le]
    constructor
    · rintro ⟨idx, link, hidx, hlink⟩
      obtain ⟨hb, hc, -⟩ := h.links.of_linkAt hidx hlink
      exact ⟨hb, hc⟩
    · rintro ⟨hb, hc⟩
      obtain ⟨link, hlink, -⟩ := h.links.linkAt hb hc
      exact ⟨_, link, h.links.epochIndex hb hc, hlink⟩
  · rw [UInt64.le_iff_toNat_le, UInt64.le_iff_toNat_le]
    constructor
    · rintro ⟨c', idx, key, hsend⟩
      exact h.of_sendKey hcur hsend
    · rintro ⟨hs, hc⟩
      obtain ⟨c', hsend, -⟩ := h.sendKey hs hc
      exact ⟨c', _, _, hsend⟩
  · intro e c' idx key hsend
    obtain ⟨hs, hc⟩ := h.of_sendKey hcur hsend
    obtain ⟨c₁, hc₁, hmoved, -⟩ := h.sendKey hs hc
    rw [hsend] at hc₁
    cases hc₁
    exact hmoved
  · intro e index
    rw [UInt64.lt_iff_toNat_lt]
    exact h.links.recvKey_out_of_range hseeds hcur
  · intro dir' params' d₀ es' d hdirs hnew' hrun' e c' idx key d' key' hsecrets hcount hsend
    exact h.agree (hrun'.history hnew').1 hdirs hsecrets hcount hcur hsend

/-- Toy primitives whose keys depend on the secret and on the number of the key. -/
def countingPrims : Prims :=
  { toyPrims with
    hkdfExpand := fun prk info length =>
      ⟨List.replicate length (prk.headD 0 + info.getD 3 0), List.length_replicate⟩ }

/-- Both parties have added one secret, and one key was taken for sending in epoch one. The next
key, with the number two, is received over the gap. -/
theorem chain_epochs_sample : ∃ c₀ d₀ c d c' d' key,
    newChain countingPrims [1] directionA2B ⟨0, 0⟩ = .ok c₀ ∧
    newChain countingPrims [1] directionB2A ⟨0, 0⟩ = .ok d₀ ∧
    ChainRun countingPrims c₀ [(.addEpoch 1 [5], true), (.sendKey 1, true)] c ∧
    ChainRun countingPrims d₀ [(.addEpoch 1 [5], true), (.addEpoch 1 [6], false)] d ∧
    c.sendKey countingPrims 1 = (c', .ok (2, key)) ∧
    d.recvKeyInPlace countingPrims 1 2 = (d', .ok key) := by
  obtain ⟨c₀, c₁, first, c, c', key, hc₀, hadd, hcur₁, hfirst, hcur, hsecond⟩ :
      ∃ c₀ c₁ first c c' key, newChain countingPrims [1] directionA2B ⟨0, 0⟩ = .ok c₀ ∧
        c₀.addEpoch countingPrims 1 [5] = .ok c₁ ∧ c₁.currentEpoch = 1 ∧
        c₁.sendKey countingPrims 1 = (c, .ok (1, first)) ∧ c.currentEpoch = 1 ∧
        c.sendKey countingPrims 1 = (c', .ok (2, key)) :=
    ⟨_, _, _, _, _, _, rfl, rfl, rfl, rfl, rfl, rfl⟩
  obtain ⟨d₀, d, e, d', key', hd₀, hadd', hcur', hagain, hrecv⟩ : ∃ d₀ d e d' key',
      newChain countingPrims [1] directionB2A ⟨0, 0⟩ = .ok d₀ ∧
      d₀.addEpoch countingPrims 1 [5] = .ok d ∧ d.currentEpoch = 1 ∧
      d.addEpoch countingPrims 1 [6] = .error e ∧
      d.recvKeyInPlace countingPrims 1 2 = (d', .ok key') :=
    ⟨_, _, _, _, _, rfl, rfl, rfl, rfl, rfl⟩
  have hone : (1 : UInt64).toNat < 2 ^ 63 := by decide
  have hrun : ChainRun countingPrims c₀ [(.addEpoch 1 [5], true), (.sendKey 1, true)] c :=
    (Run.single ⟨.addEpoch hadd, hcur₁ ▸ hone⟩).snoc ⟨.sendKey hfirst, hcur ▸ hone⟩
  have hrun' : ChainRun countingPrims d₀ [(.addEpoch 1 [5], true), (.addEpoch 1 [6], false)] d :=
    (Run.single ⟨.addEpoch hadd', hcur' ▸ hone⟩).snoc ⟨.addEpoch_fails hagain, hcur' ▸ hone⟩
  obtain ⟨-, -, -, -, -, -, hagree⟩ := chain_epochs countingPrims hc₀ hrun
  have hsame := (hagree directionB2A ⟨0, 0⟩ d₀ _ d (.inl ⟨rfl, rfl⟩) hd₀ hrun' 1 c' 2 key d' key'
    rfl (by decide) hsecond).2 hrecv
  exact ⟨c₀, d₀, c, d, c', d', key, hc₀, hd₀, hrun, hrun', hsecond, hsame ▸ hrecv⟩

end SignalGo.Spqr
