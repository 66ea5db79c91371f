import SignalGo.Lib.Runs
import SignalGo.SenderKeys.State

/-!
# The window of a sender-key receiver

A receiver starts at the chain key `start` of a distribution message and asks for the message
keys of iterations in any order. `SenderChainKey.after` says which chain key the sender has
after `n` messages; the invariant `WindowOk` places the receiver on that chain.

* `getSenderMessageKey_ahead`: a request at or past the chain, computed: the chain moves
  behind it and the skipped keys are stored, the oldest giving way.
* `getSenderMessageKey_behind`: a request behind the chain takes a stored key.
* `WindowOk.request`: one request keeps the window and spends the key it releases.
* `sender_key_window`: the behaviour over every sequence of requests.
-/

namespace SignalGo.SenderKeys

variable (p : Prims)

/-! ## The sender's chain -/

/-- The next chain key, before the check of the counter. -/
def SenderChainKey.step (k : SenderChainKey) : SenderChainKey where
  iteration := k.iteration + 1
  seed := k.derive p 0x02

/-- The chain key after `n` messages. -/
def SenderChainKey.after (k : SenderChainKey) (n : Nat) : SenderChainKey := (step p)^[n] k

/-- The message key of the chain key. -/
def messageKeyOf (iteration : UInt32) (seed : Key) : SenderMessageKey :=
  let derivative := (hkdfBytes p seed.toBytes [] "WhisperGroup".toUTF8.toList (16 + 32)).toBytes
  { iteration, seed
    iv := .ofBytes 16 (derivative.take 16)
    cipherKey := .ofBytes 32 (derivative.drop 16) }

/-- What is stored of a chain key that is passed. -/
def SenderChainKey.entry (k : SenderChainKey) : MessageKey where
  iteration := k.iteration
  seed := k.derive p 0x01

/-- The chain keys a sender goes through: `next` from one message to the next. -/
def senderChainAt (start : SenderChainKey) : Nat → Except Err SenderChainKey
  | 0 => .ok start
  | n + 1 => do (← senderChainAt start n).next p

/-- The message key the sender derives at iteration `i`. -/
def senderKeyAt (start : SenderChainKey) (i : UInt32) : Except Err SenderMessageKey := do
  let chainKey ← senderChainAt p start (i.toNat - start.iteration.toNat)
  chainKey.senderMessageKey p

variable {p : Prims} {start k : SenderChainKey} {st st' : State} {i j : UInt32} {n : Nat}

@[simp] theorem newSenderMessageKey_eq (iteration : UInt32) (seed : Key) :
    newSenderMessageKey p iteration seed = .ok (messageKeyOf p iteration seed) := by
  rw [newSenderMessageKey, hkdf_ok p (by decide)]
  rfl

theorem senderMessageKey_eq (k : SenderChainKey) :
    k.senderMessageKey p = .ok (messageKeyOf p k.iteration (k.entry p).seed) :=
  newSenderMessageKey_eq _ _

theorem SenderChainKey.after_succ (k : SenderChainKey) (n : Nat) :
    k.after p (n + 1) = (k.after p n).step p :=
  Function.iterate_succ_apply' _ _ _

theorem SenderChainKey.after_succ' (k : SenderChainKey) (n : Nat) :
    k.after p (n + 1) = (k.step p).after p n :=
  Function.iterate_succ_apply _ _ _

theorem SenderChainKey.after_after (k : SenderChainKey) (m n : Nat) :
    (k.after p m).after p n = k.after p (m + n) := by
  rw [Nat.add_comm]
  exact (Function.iterate_add_apply _ _ _ _).symm

theorem SenderChainKey.iteration_after (h : k.iteration.toNat + n < 2 ^ 32) :
    (k.after p n).iteration.toNat = k.iteration.toNat + n := by
  induction n with
  | zero => rfl
  | succ n ih =>
    rw [after_succ]
    show ((k.after p n).iteration + 1).toNat = _
    rw [UInt32.toNat_add, ih (by omega)]
    exact Nat.mod_eq_of_lt h

theorem SenderChainKey.next_eq (h : k.iteration.toNat + 1 < 2 ^ 32) :
    k.next p = .ok (k.step p) := by
  refine if_neg fun hmax => ?_
  rw [hmax] at h
  exact absurd h (by decide)

theorem SenderChainKey.next_error (h : k.iteration.toNat = 2 ^ 32 - 1) :
    ∃ e, k.next p = .error e := by
  refine ⟨_, if_pos ?_⟩
  exact UInt32.toNat_inj.mp h

theorem senderChainAt_eq (h : start.iteration.toNat + n < 2 ^ 32) :
    senderChainAt p start n = .ok (start.after p n) := by
  induction n with
  | zero => rfl
  | succ n ih =>
    rw [senderChainAt, ih (by omega), ok_bind, SenderChainKey.after_succ]
    refine SenderChainKey.next_eq ?_
    rw [SenderChainKey.iteration_after (by omega)]
    omega

theorem senderKeyAt_eq (hi : i.toNat = start.iteration.toNat + n) :
    senderKeyAt p start i = .ok (messageKeyOf p i ((start.after p n).entry p).seed) := by
  have hlt := i.toNat_lt
  have hn : i.toNat - start.iteration.toNat = n := by omega
  have hit : (start.after p n).iteration = i :=
    UInt32.toNat_inj.mp (by rw [SenderChainKey.iteration_after (by omega), hi])
  rw [senderKeyAt, hn, senderChainAt_eq (by omega), ok_bind, senderMessageKey_eq, hit]

/-! ## The store of skipped keys -/

/-- The newest `maxMessageKeysPerState` entries. -/
def newest (keys : List MessageKey) : List MessageKey :=
  keys.drop (keys.length - maxMessageKeysPerState)

theorem newest_of_le {keys : List MessageKey} (h : keys.length ≤ maxMessageKeysPerState) :
    newest keys = keys := by
  simp [newest, Nat.sub_eq_zero_of_le h]

/-- Trimming before more keys are added makes no difference to what is left at the end. -/
theorem newest_newest_append (keys more : List MessageKey) :
    newest (newest keys ++ more) = newest (keys ++ more) := by
  simp only [newest, List.drop_append, List.drop_drop, List.length_append, List.length_drop]
  generalize maxMessageKeysPerState = limit
  congr 2 <;> omega

theorem length_newest_le (keys : List MessageKey) :
    (newest keys).length ≤ maxMessageKeysPerState := by
  simp only [newest, List.length_drop]
  omega

theorem newest_sublist (keys : List MessageKey) : (newest keys).Sublist keys :=
  List.drop_sublist ..

theorem State.addMessageKey_eq (st : State) (key : MessageKey) :
    st.addMessageKey key = { st with messageKeys := newest (st.messageKeys ++ [key]) } := by
  rw [State.addMessageKey, newest]

-- Unfolded, the trimming makes the unifier count up to the limit.
attribute [irreducible] newest

theorem length_addMessageKey_le (st : State) (key : MessageKey) :
    (st.addMessageKey key).messageKeys.length ≤ maxMessageKeysPerState := by
  rw [State.addMessageKey_eq]
  exact length_newest_le _

/-- The entries of the `n` iterations from `k` on. -/
def SenderChainKey.skipped (p : Prims) (k : SenderChainKey) (n : Nat) : List MessageKey :=
  (List.range n).map fun j => (k.after p j).entry p

theorem SenderChainKey.skipped_succ (k : SenderChainKey) (n : Nat) :
    k.skipped p (n + 1) = k.entry p :: (k.step p).skipped p n := by
  simp only [skipped, List.range_succ_eq_map, List.map_cons, List.map_map]
  rfl

/-- The loop runs to the requested iteration and stores every key on the way. -/
theorem skipMessageKeys_eq (hi : i.toNat = k.iteration.toNat + n)
    (hlen : st.messageKeys.length ≤ maxMessageKeysPerState) :
    skipMessageKeys p i n k st = .ok (k.after p n,
      { st with messageKeys := newest (st.messageKeys ++ k.skipped p n) }) := by
  have hmax := i.toNat_lt
  induction n generalizing k st with
  | zero =>
    simp only [skipMessageKeys, SenderChainKey.skipped, List.range_zero, List.map_nil,
      List.append_nil, newest_of_le hlen]
    rfl
  | succ n ih =>
    have hlt : k.iteration < i := UInt32.lt_iff_toNat_lt.mpr (by omega)
    have hstep : (k.step p).iteration.toNat = k.iteration.toNat + 1 :=
      SenderChainKey.iteration_after (p := p) (n := 1) (by omega)
    have hi' : i.toNat = (k.step p).iteration.toNat + n := by omega
    rw [skipMessageKeys, if_pos hlt, senderMessageKey_eq, ok_bind,
      SenderChainKey.next_eq (by omega), ok_bind]
    rw [ih hi' (length_addMessageKey_le _ _)]
    -- the key that is passed stands behind the ones there, and the list is trimmed again
    rw [State.addMessageKey_eq, newest_newest_append, List.append_assoc, List.singleton_append,
      SenderChainKey.after_succ', SenderChainKey.skipped_succ]
    rfl

/-! ## The invariant -/

/-- The receiver is `n` messages behind `start` on the sender's chain, and what it has stored
are keys of iterations it has passed. -/
structure WindowOk (p : Prims) (start : SenderChainKey) (st : State) (n : Nat) : Prop where
  chain : st.chainKey = start.after p n
  range : start.iteration.toNat + n < 2 ^ 32
  stored : ∀ key ∈ st.messageKeys, ∃ j < n, key = (start.after p j).entry p
  sorted : st.messageKeys.Pairwise (·.iteration < ·.iteration)
  bounded : st.messageKeys.length ≤ maxMessageKeysPerState

/-- The iterations of the stored keys. -/
def State.storedIterations (st : State) : List UInt32 := st.messageKeys.map (·.iteration)

/-- The iterations `[lo, hi)`. -/
def iterationsBetween (lo hi : UInt32) : List UInt32 :=
  (List.range (hi.toNat - lo.toNat)).map fun j => lo + UInt32.ofNat j

namespace WindowOk

theorem chainIteration_toNat (h : WindowOk p start st n) :
    st.chainIteration.toNat = start.iteration.toNat + n := by
  have hchain := congrArg (fun k => k.iteration.toNat) h.chain
  exact hchain.trans (SenderChainKey.iteration_after h.range)

theorem chainKey_after (h : WindowOk p start st n) (m : Nat) :
    st.chainKey.after p m = start.after p (n + m) := by
  rw [h.chain, SenderChainKey.after_after]

/-- A stored key is the sender's key of its iteration. -/
theorem entry_eq (h : WindowOk p start st n) {key : MessageKey} (hkey : key ∈ st.messageKeys) :
    ∃ j < n, key.iteration.toNat = start.iteration.toNat + j ∧
      key.seed = ((start.after p j).entry p).seed := by
  obtain ⟨j, hj, rfl⟩ := h.stored key hkey
  have hrange := h.range
  exact ⟨j, hj, SenderChainKey.iteration_after (by omega), rfl⟩

theorem lt_chainIteration (h : WindowOk p start st n) {key : MessageKey}
    (hkey : key ∈ st.messageKeys) : key.iteration < st.chainIteration := by
  obtain ⟨j, hj, hit, -⟩ := h.entry_eq hkey
  rw [UInt32.lt_iff_toNat_lt, hit, h.chainIteration_toNat]
  omega

end WindowOk

/-- A receiver starts with nothing stored. -/
theorem windowOk_start {start : SenderChainKey} {st : State} (hchain : st.chainKey = start)
    (hkeys : st.messageKeys = []) : WindowOk p start st 0 where
  chain := hchain
  range := start.iteration.toNat_lt
  stored := by simp [hkeys]
  sorted := by simp [hkeys]
  bounded := by simp [hkeys]

/-! ## Requests past the chain -/

/-- The receiver after a request `g` iterations past the chain. -/
def State.passed (p : Prims) (st : State) (g : Nat) : State :=
  { st with
    chainIteration := (st.chainKey.after p (g + 1)).iteration
    chainSeed := (st.chainKey.after p (g + 1)).seed
    messageKeys := newest (st.messageKeys ++ st.chainKey.skipped p g) }

theorem State.passed_messageKeys (st : State) (g : Nat) :
    (st.passed p g).messageKeys = newest (st.messageKeys ++ st.chainKey.skipped p g) := rfl

section Ahead

variable {g : Nat} (hi : i.toNat = st.chainIteration.toNat + g)

include hi

theorem not_behind : ¬ st.chainIteration > i := by
  rw [gt_iff_lt, UInt32.lt_iff_toNat_lt]
  omega

theorem gap_eq : (i - st.chainIteration).toNat = g := by
  have hle : st.chainIteration ≤ i := UInt32.le_iff_toNat_le.mpr (by omega)
  rw [UInt32.toNat_sub_of_le _ _ hle]
  omega

theorem getSenderMessageKey_ahead (hgap : g ≤ maxMessageKeysPerState) (hmax : i.toNat + 1 < 2 ^ 32)
    (hlen : st.messageKeys.length ≤ maxMessageKeysPerState) :
    getSenderMessageKey p st i =
      .ok (messageKeyOf p i ((st.chainKey.after p g).entry p).seed, st.passed p g) := by
  have hit : (st.chainKey.after p g).iteration.toNat = i.toNat := by
    rw [SenderChainKey.iteration_after (k := st.chainKey)]
    · exact hi.symm
    · show st.chainIteration.toNat + g < 2 ^ 32
      omega
  rw [getSenderMessageKey, if_neg (not_behind hi), gap_eq hi, if_neg (by omega),
    skipMessageKeys_eq (k := st.chainKey) hi hlen, ok_bind]
  simp only
  rw [SenderChainKey.next_eq (by omega), ok_bind, senderMessageKey_eq, ok_bind,
    UInt32.toNat_inj.mp hit, ← SenderChainKey.after_succ]
  rfl

theorem getSenderMessageKey_far (hgap : maxMessageKeysPerState < g) :
    getSenderMessageKey p st i = .error (.sentinel .maxSkipExceeded) := by
  rw [getSenderMessageKey, if_neg (not_behind hi), gap_eq hi, if_pos hgap]

/-- At the last iteration the chain cannot move on, so its key is never released. -/
theorem getSenderMessageKey_last (hgap : g ≤ maxMessageKeysPerState) (hmax : i.toNat = 2 ^ 32 - 1)
    (hlen : st.messageKeys.length ≤ maxMessageKeysPerState) :
    ∃ e, getSenderMessageKey p st i = .error e := by
  have hit : (st.chainKey.after p g).iteration.toNat = 2 ^ 32 - 1 := by
    rw [SenderChainKey.iteration_after (k := st.chainKey)]
    · show st.chainIteration.toNat + g = _
      omega
    · show st.chainIteration.toNat + g < 2 ^ 32
      omega
  obtain ⟨e, he⟩ := SenderChainKey.next_error (p := p) hit
  refine ⟨e, ?_⟩
  rw [getSenderMessageKey, if_neg (not_behind hi), gap_eq hi, if_neg (by omega),
    skipMessageKeys_eq (k := st.chainKey) hi hlen, ok_bind]
  simp only
  rw [he, error_bind]

end Ahead

/-! ## Requests behind the chain -/

theorem getSenderMessageKey_behind (hi : i < st.chainIteration) :
    getSenderMessageKey p st i =
      match st.messageKeys.find? (·.iteration = i) with
      | none => .error (.sentinel .duplicateMessage)
      | some key => .ok (messageKeyOf p i key.seed,
          { st with messageKeys := st.messageKeys.eraseP (·.iteration = i) }) := by
  rw [getSenderMessageKey, if_pos hi, State.removeMessageKey]
  cases st.messageKeys.find? (·.iteration = i) with
  | none => rfl
  | some key =>
    simp only
    rw [newSenderMessageKey_eq]
    rfl

/-! ## One request -/

variable {key : SenderMessageKey}

/-- Everything a successful request can do: take a stored key, or move the chain. -/
theorem getSenderMessageKey_cases (hlen : st.messageKeys.length ≤ maxMessageKeysPerState)
    (hget : getSenderMessageKey p st i = .ok (key, st')) :
    (i < st.chainIteration ∧ ∃ found ∈ st.messageKeys, found.iteration = i ∧
      key = messageKeyOf p i found.seed ∧
      st' = { st with messageKeys := st.messageKeys.eraseP (·.iteration = i) }) ∨
    (∃ g ≤ maxMessageKeysPerState, i.toNat = st.chainIteration.toNat + g ∧
      i.toNat + 1 < 2 ^ 32 ∧ key = messageKeyOf p i ((st.chainKey.after p g).entry p).seed ∧
      st' = st.passed p g) := by
  by_cases hlt : i < st.chainIteration
  · left
    rw [getSenderMessageKey_behind hlt] at hget
    cases hfind : st.messageKeys.find? (·.iteration = i) with
    | none =>
      rw [hfind] at hget
      cases hget
    | some found =>
      rw [hfind] at hget
      cases hget
      exact ⟨hlt, found, List.mem_of_find?_eq_some hfind,
        by simpa using List.find?_some hfind, rfl, rfl⟩
  · right
    rw [UInt32.lt_iff_toNat_lt, Nat.not_lt] at hlt
    obtain ⟨g, hi⟩ := Nat.exists_eq_add_of_le hlt
    have hmax := i.toNat_lt
    by_cases hgap : g ≤ maxMessageKeysPerState
    · by_cases hlast : i.toNat = 2 ^ 32 - 1
      · obtain ⟨e, he⟩ := getSenderMessageKey_last (p := p) hi hgap hlast hlen
        rw [he] at hget
        cases hget
      · have hsucc : i.toNat + 1 < 2 ^ 32 := by omega
        rw [getSenderMessageKey_ahead hi hgap hsucc hlen] at hget
        cases hget
        exact ⟨g, hgap, hi, hsucc, rfl, rfl⟩
    · rw [getSenderMessageKey_far hi (by omega)] at hget
      cases hget

theorem SenderChainKey.iteration_after_eq (k : SenderChainKey) (j : Nat) :
    (k.after p j).iteration = k.iteration + UInt32.ofNat j := by
  induction j with
  | zero => exact (UInt32.add_zero _).symm
  | succ j ih =>
    rw [after_succ]
    show (k.after p j).iteration + 1 = _
    rw [ih, UInt32.ofNat_add, UInt32.add_assoc]
    rfl

variable {g : Nat}

/-- The keys skipped on the way to `i` are those of the iterations up to it. -/
theorem skipped_iterations (hi : i.toNat = st.chainIteration.toNat + g) :
    (st.chainKey.skipped p g).map (·.iteration) = iterationsBetween st.chainIteration i := by
  have hg : i.toNat - st.chainIteration.toNat = g := by omega
  rw [SenderChainKey.skipped, iterationsBetween, hg, List.map_map]
  exact List.map_congr_left fun j _ => SenderChainKey.iteration_after_eq st.chainKey j

theorem mem_iterationsBetween {lo hi : UInt32} :
    j ∈ iterationsBetween lo hi ↔ lo ≤ j ∧ j < hi := by
  have hhi := hi.toNat_lt
  simp only [iterationsBetween, List.mem_map, List.mem_range, UInt32.le_iff_toNat_le,
    UInt32.lt_iff_toNat_lt]
  constructor
  · rintro ⟨m, hm, rfl⟩
    have hval : (lo + UInt32.ofNat m).toNat = lo.toNat + m := by
      rw [UInt32.toNat_add, UInt32.toNat_ofNat_of_lt' (by simp [UInt32.size]; omega)]
      exact Nat.mod_eq_of_lt (by omega)
    omega
  · rintro ⟨hlo, hlt⟩
    refine ⟨j.toNat - lo.toNat, by omega, UInt32.toNat_inj.mp ?_⟩
    rw [UInt32.toNat_add, UInt32.toNat_ofNat_of_lt' (by simp [UInt32.size]; omega),
      Nat.mod_eq_of_lt (by omega)]
    omega

namespace WindowOk

/-- Taking a stored key keeps the invariant: the rest of the list stays as it is. -/
theorem taken (h : WindowOk p start st n) (i : UInt32) :
    WindowOk p start { st with messageKeys := st.messageKeys.eraseP (·.iteration = i) } n where
  chain := h.chain
  range := h.range
  stored key hkey := h.stored key (List.mem_of_mem_eraseP hkey)
  sorted := h.sorted.sublist (List.eraseP_sublist ..)
  bounded := (List.eraseP_sublist ..).length_le.trans h.bounded

theorem skipped_sorted (k : SenderChainKey) (h : k.iteration.toNat + g < 2 ^ 32) :
    (k.skipped p g).Pairwise (·.iteration < ·.iteration) := by
  rw [SenderChainKey.skipped, List.pairwise_map]
  refine List.Pairwise.imp_of_mem ?_ List.pairwise_lt_range
  intro a b ha hb hab
  rw [List.mem_range] at ha hb
  show (k.after p a).iteration < (k.after p b).iteration
  rw [UInt32.lt_iff_toNat_lt, SenderChainKey.iteration_after (by omega),
    SenderChainKey.iteration_after (by omega)]
  omega

/-- Moving the chain keeps the invariant: what is added behind the stored keys is newer than
all of them. -/
theorem passed (h : WindowOk p start st n) (hmax : start.iteration.toNat + n + g + 1 < 2 ^ 32) :
    WindowOk p start (st.passed p g) (n + (g + 1)) := by
  have hiter := h.chainIteration_toNat
  -- A skipped entry is one of the sender's, at an iteration from the chain on.
  have hskip : ∀ key ∈ st.chainKey.skipped p g,
      ∃ m < g, key = (start.after p (n + m)).entry p := by
    intro key hkey
    obtain ⟨m, hm, rfl⟩ := List.mem_map.mp hkey
    exact ⟨m, List.mem_range.mp hm, by rw [h.chainKey_after]⟩
  refine ⟨h.chainKey_after _, by omega, ?_, ?_, ?_⟩ <;> rw [State.passed_messageKeys]
  · intro key hkey
    rcases List.mem_append.mp ((newest_sublist _).subset hkey) with hkey | hkey
    · obtain ⟨m, hm, rfl⟩ := h.stored key hkey
      exact ⟨m, by omega, rfl⟩
    · obtain ⟨m, hm, rfl⟩ := hskip key hkey
      exact ⟨n + m, by omega, rfl⟩
  · refine List.Pairwise.sublist (newest_sublist _) (List.pairwise_append.mpr
      ⟨h.sorted, skipped_sorted _ (show st.chainIteration.toNat + g < 2 ^ 32 by omega), ?_⟩)
    intro a ha b hb
    have hlt := h.lt_chainIteration ha
    obtain ⟨m, hm, rfl⟩ := hskip b hb
    show a.iteration < (start.after p (n + m)).iteration
    rw [UInt32.lt_iff_toNat_lt] at hlt ⊢
    rw [SenderChainKey.iteration_after (by omega)]
    omega
  · exact length_newest_le _

theorem nodup (h : WindowOk p start st n) : st.storedIterations.Nodup :=
  (List.pairwise_map.mpr h.sorted).imp fun hlt => UInt32.ne_of_lt hlt

/-- A stored key taken out leaves the other iterations. -/
theorem storedIterations_eraseP (st : State) (i : UInt32) :
    State.storedIterations { st with messageKeys := st.messageKeys.eraseP (·.iteration = i) } =
      st.storedIterations.erase i := by
  have hpred : (fun key : MessageKey => decide (key.iteration = i)) =
      (fun j => i == j) ∘ MessageKey.iteration := by
    funext key
    rw [Bool.eq_iff_iff, decide_eq_true_eq, Function.comp_apply, beq_iff_eq]
    exact eq_comm
  simp only [State.storedIterations, List.erase_eq_eraseP, List.eraseP_map, hpred]

end WindowOk

/-- The key of iteration `j` cannot be released any more: the chain has passed it, and it is not
stored. -/
def State.Spent (st : State) (j : UInt32) : Prop :=
  j < st.chainIteration ∧ j ∉ st.storedIterations

/-- A request behind the chain spends the key it takes. -/
theorem WindowOk.spent_taken (h : WindowOk p start st n) {found : MessageKey}
    (hmem : found ∈ st.messageKeys) (hj : st.Spent j ∨ j = found.iteration) :
    State.Spent { st with messageKeys :=
      st.messageKeys.eraseP (·.iteration = found.iteration) } j := by
  rw [State.Spent, storedIterations_eraseP, h.nodup.mem_erase_iff]
  rcases hj with hj | rfl
  · exact ⟨hj.1, fun hmem => hj.2 hmem.2⟩
  · exact ⟨h.lt_chainIteration hmem, fun hmem => hmem.1 rfl⟩

/-- A request at or past the chain spends the key it releases. -/
theorem WindowOk.spent_passed (h : WindowOk p start st n)
    (hi : i.toNat = st.chainIteration.toNat + g) (hmax : i.toNat + 1 < 2 ^ 32)
    (hj : st.Spent j ∨ j = i) : (st.passed p g).Spent j := by
  have hiter := h.chainIteration_toNat
  have hwin' := h.passed (show start.iteration.toNat + n + g + 1 < 2 ^ 32 by omega)
  have hiter' := hwin'.chainIteration_toNat
  -- What is stored now was stored before or lies between the old chain and `i`.
  have hsub : j ∈ (st.passed p g).storedIterations →
      j ∈ st.storedIterations ∨ st.chainIteration ≤ j ∧ j < i := by
    intro hmem
    obtain ⟨entry, hentry, rfl⟩ := List.mem_map.mp hmem
    rw [State.passed_messageKeys] at hentry
    rcases List.mem_append.mp ((newest_sublist _).subset hentry) with hold | hnew
    · exact .inl (List.mem_map_of_mem hold)
    · refine .inr (mem_iterationsBetween.mp ?_)
      rw [← skipped_iterations (p := p) hi]
      exact List.mem_map_of_mem hnew
  simp only [State.Spent, UInt32.le_iff_toNat_le, UInt32.lt_iff_toNat_lt] at hsub hj ⊢
  rcases hj with ⟨hlt, hnot⟩ | rfl
  · refine ⟨by omega, fun hmem => ?_⟩
    rcases hsub hmem with hold | hbetween
    · exact hnot hold
    · omega
  · refine ⟨by omega, fun hmem => ?_⟩
    rcases hsub hmem with hold | hbetween
    · obtain ⟨entry, hentry, rfl⟩ := List.mem_map.mp hold
      have hlt := h.lt_chainIteration hentry
      rw [UInt32.lt_iff_toNat_lt] at hlt
      omega
    · omega

/-- **One request.** A success keeps the window, releases the sender's key of an iteration that
was not spent, and spends it. -/
theorem WindowOk.request (h : WindowOk p start st n)
    (hget : getSenderMessageKey p st i = .ok (key, st')) :
    (∃ n', WindowOk p start st' n') ∧
    (start.iteration ≤ i ∧ senderKeyAt p start i = .ok key) ∧ ¬ st.Spent i ∧
    ∀ j, st.Spent j ∨ j = i → st'.Spent j := by
  rcases getSenderMessageKey_cases h.bounded hget with
    ⟨-, found, hmem, rfl, rfl, rfl⟩ | ⟨g, -, hi, hmax, rfl, rfl⟩
  · obtain ⟨m, hm, hit, hseed⟩ := h.entry_eq hmem
    refine ⟨⟨n, h.taken _⟩, ⟨?_, ?_⟩, ?_, fun j => h.spent_taken hmem⟩
    · rw [UInt32.le_iff_toNat_le]
      omega
    · rw [senderKeyAt_eq hit, hseed]
    · exact fun hspent => hspent.2 (List.mem_map_of_mem hmem)
  · have hiter := h.chainIteration_toNat
    refine ⟨⟨_, h.passed (show start.iteration.toNat + n + g + 1 < 2 ^ 32 by omega)⟩, ⟨?_, ?_⟩,
      ?_, fun j => h.spent_passed hi hmax⟩
    · rw [UInt32.le_iff_toNat_le]
      omega
    · rw [h.chainKey_after, senderKeyAt_eq (n := n + g) (by omega)]
    · exact fun hspent => not_behind hi hspent.1

/-! ## Sequences of requests -/

/-- One request, its result and the state that is kept: the changed one on success, the old
one otherwise. -/
inductive Request (p : Prims) : State → UInt32 × Option SenderMessageKey → State → Prop where
  | released {st st' : State} {i : UInt32} {key : SenderMessageKey} :
      getSenderMessageKey p st i = .ok (key, st') → Request p st (i, some key) st'
  | failed {st : State} {i : UInt32} {e : Err} :
      getSenderMessageKey p st i = .error e → Request p st (i, none) st

/-- The iterations whose keys have been released, oldest first. -/
def released (es : List (UInt32 × Option SenderMessageKey)) : List UInt32 :=
  es.filterMap fun e => e.2.map fun _ => e.1

/-- The receiver with its history: every released key is the sender's key of an iteration that
is spent, and none has been released twice. -/
structure Released (p : Prims) (start : SenderChainKey)
    (es : List (UInt32 × Option SenderMessageKey)) (st : State) : Prop where
  window : ∃ n, WindowOk p start st n
  keys : ∀ i key, (i, some key) ∈ es →
    start.iteration ≤ i ∧ senderKeyAt p start i = .ok key
  spent : ∀ i ∈ released es, st.Spent i
  once : (released es).Nodup

theorem released_nil (h : WindowOk p start st 0) : Released p start [] st where
  window := ⟨0, h⟩
  keys := nofun
  spent := nofun
  once := .nil

/-- One request keeps the history in order. -/
theorem Released.step {es : List (UInt32 × Option SenderMessageKey)}
    (h : Released p start es st) {e : UInt32 × Option SenderMessageKey}
    (hreq : Request p st e st') : Released p start (es ++ [e]) st' := by
  obtain ⟨n, hwin⟩ := h.window
  cases hreq with
  | @released _ i key hget =>
    obtain ⟨hwin', hkey, hnew, hspent⟩ := hwin.request hget
    have hsnoc : released (es ++ [(i, some key)]) = released es ++ [i] := by
      simp [released]
    refine ⟨hwin', ?_, ?_, ?_⟩
    · intro j key' hmem
      rcases List.mem_append.mp hmem with hmem | hmem
      · exact h.keys j key' hmem
      · cases List.mem_singleton.mp hmem
        exact hkey
    · intro j hj
      rw [hsnoc, List.mem_append, List.mem_singleton] at hj
      exact hspent j (hj.imp_left (h.spent j))
    · rw [hsnoc]
      refine List.nodup_append.mpr ⟨h.once, List.nodup_singleton i, ?_⟩
      rintro a ha b hb rfl
      exact hnew (h.spent _ (List.mem_singleton.mp hb ▸ ha))
  | failed hget =>
    refine ⟨h.window, fun i key hmem => h.keys i key (by simpa using hmem), ?_, ?_⟩
    · simpa [released] using h.spent
    · simpa [released] using h.once

/-! ## The window -/

/-- The iterations stored after a successful request for `i`: a stored one has been used; past
the chain the iterations up to `i` are added, and of all only the newest
`maxMessageKeysPerState` are kept. -/
def State.storedAfter (st : State) (i : UInt32) : List UInt32 :=
  if i < st.chainIteration then st.storedIterations.erase i
  else (st.storedIterations ++ iterationsBetween st.chainIteration i).rtake
    maxMessageKeysPerState

theorem map_newest (keys : List MessageKey) :
    (newest keys).map (·.iteration) =
      (keys.map (·.iteration)).rtake maxMessageKeysPerState := by
  unfold newest List.rtake
  rw [List.map_drop, List.length_map]

theorem WindowOk.storedAfter (h : WindowOk p start st n)
    (hget : getSenderMessageKey p st i = .ok (key, st')) :
    st'.storedIterations = st.storedAfter i := by
  rcases getSenderMessageKey_cases h.bounded hget with
    ⟨hlt, found, -, rfl, -, rfl⟩ | ⟨g, -, hi, -, -, rfl⟩
  · rw [State.storedAfter, if_pos hlt, storedIterations_eraseP]
  · rw [State.storedAfter, if_neg (not_behind hi), State.storedIterations,
      State.passed_messageKeys, map_newest, List.map_append, skipped_iterations hi]
    rfl

/-- A key that is no longer stored has been used, or it was the oldest when one too many came:
`maxMessageKeysPerState` newer keys stand behind it. -/
theorem WindowOk.evicted (h : WindowOk p start st n)
    (hget : getSenderMessageKey p st i = .ok (key, st')) (hj : j ∈ st.storedIterations)
    (hgone : j ∉ st'.storedIterations) :
    j = i ∨ ∃ older newer, st.storedIterations ++ iterationsBetween st.chainIteration i =
      older ++ j :: newer ∧ maxMessageKeysPerState ≤ newer.length := by
  rw [h.storedAfter hget, State.storedAfter] at hgone
  split at hgone
  · left
    by_contra hne
    exact hgone (h.nodup.mem_erase_iff.mpr ⟨hne, hj⟩)
  · right
    obtain ⟨older, newer, hsplit⟩ :=
      List.append_of_mem (List.mem_append_left (iterationsBetween st.chainIteration i) hj)
    refine ⟨older, newer, hsplit, ?_⟩
    by_contra hlen
    -- Otherwise fewer than the limit stand behind it, and it is among those kept.
    apply hgone
    rw [hsplit, List.rtake, List.drop_append_of_le_length]
    · simp
    · simp only [List.length_append, List.length_cons]
      omega

theorem WindowOk.succeeds_ahead (h : WindowOk p start st n) (hi : st.chainIteration ≤ i) :
    (∃ r, getSenderMessageKey p st i = .ok r) ↔
      i.toNat - st.chainIteration.toNat ≤ maxMessageKeysPerState ∧ i.toNat < 2 ^ 32 - 1 := by
  obtain ⟨g, hg⟩ := Nat.exists_eq_add_of_le (UInt32.le_iff_toNat_le.mp hi)
  constructor
  · rintro ⟨⟨key, st'⟩, hget⟩
    rcases getSenderMessageKey_cases h.bounded hget with ⟨hlt, -⟩ | ⟨g', hgap, hi', hmax, -⟩
    · exact absurd hlt (UInt32.not_lt.mpr hi)
    · omega
  · rintro ⟨hgap, hmax⟩
    exact ⟨_, getSenderMessageKey_ahead hg (by omega) (by omega) h.bounded⟩

theorem WindowOk.succeeds_behind (h : WindowOk p start st n) (hi : i < st.chainIteration) :
    (∃ r, getSenderMessageKey p st i = .ok r) ↔ i ∈ st.storedIterations := by
  constructor
  · rintro ⟨⟨key, st'⟩, hget⟩
    rcases getSenderMessageKey_cases h.bounded hget with ⟨-, found, hmem, rfl, -⟩ | ⟨g, -, hg, -⟩
    · exact List.mem_map_of_mem hmem
    · exact absurd hi (not_behind hg)
  · intro hmem
    obtain ⟨found, hfound, rfl⟩ := List.mem_map.mp hmem
    rw [getSenderMessageKey_behind hi]
    cases hfind : st.messageKeys.find? (·.iteration = found.iteration) with
    | none => exact absurd (List.find?_eq_none.mp hfind found hfound) (by simp)
    | some key => exact ⟨_, rfl⟩

/-- **The window of a receiver.** After any sequence of requests to a receiver that started from
a distribution message, every released key is the one the sender derives at that iteration and
none has been released twice; the next request at or past the chain succeeds exactly within the
limit and below the last iteration, one behind the chain exactly if its key is stored; the
stored iterations increase strictly, lie behind the chain and are at most the limit; and a
successful request takes a key out of the store only by using it or, when more than the limit
would be stored, as the oldest. -/
theorem sender_key_window (p : Prims) (msg : DistributionMessage)
    (es : List (UInt32 × Option SenderMessageKey)) (st : State)
    (hrun : Run (Request p) msg.receivingState es st) :
    (∀ i key, (i, some key) ∈ es → msg.iteration ≤ i ∧
      senderKeyAt p { iteration := msg.iteration, seed := msg.chainKey } i = .ok key) ∧
    (released es).Nodup ∧
    (∀ i, st.chainIteration ≤ i → ((∃ r, getSenderMessageKey p st i = .ok r) ↔
      i.toNat - st.chainIteration.toNat ≤ maxMessageKeysPerState ∧ i.toNat < 2 ^ 32 - 1)) ∧
    (∀ i, i < st.chainIteration →
      ((∃ r, getSenderMessageKey p st i = .ok r) ↔ i ∈ st.storedIterations)) ∧
    st.storedIterations.Pairwise (· < ·) ∧
    (∀ j ∈ st.storedIterations, j < st.chainIteration) ∧
    st.storedIterations.length ≤ maxMessageKeysPerState ∧
    (∀ i key st', getSenderMessageKey p st i = .ok (key, st') →
      st'.storedIterations = st.storedAfter i ∧
      ∀ j ∈ st.storedIterations, j ∉ st'.storedIterations →
        j = i ∨ ∃ older newer, st.storedIterations ++ iterationsBetween st.chainIteration i =
          older ++ j :: newer ∧ maxMessageKeysPerState ≤ newer.length) := by
  have hstart : WindowOk p { iteration := msg.iteration, seed := msg.chainKey }
      msg.receivingState 0 := windowOk_start rfl rfl
  have hrel := hrun.invariant_history (I := Released p _) (fun h hreq => h.step hreq)
    (released_nil hstart)
  obtain ⟨n, hwin⟩ := hrel.window
  refine ⟨hrel.keys, hrel.once, fun i => hwin.succeeds_ahead, fun i => hwin.succeeds_behind,
    List.pairwise_map.mpr hwin.sorted, ?_, ?_, ?_⟩
  · intro j hj
    obtain ⟨key, hkey, rfl⟩ := List.mem_map.mp hj
    exact hwin.lt_chainIteration hkey
  · rw [State.storedIterations, List.length_map]
    exact hwin.bounded
  · intro i key st' hget
    exact ⟨hwin.storedAfter hget, fun j hj hgone => hwin.evicted hget hj hgone⟩

/-- A distribution message at iteration 7. -/
def sampleDistribution : DistributionMessage where
  messageVersion := 3
  distributionID := .zero
  keyID := 1
  iteration := 7
  chainKey := Key.fill 2
  signingPublic := Key.fill 5

/-- Iteration 9 is requested first, then the skipped iteration 7. -/
theorem sender_key_window_sample :
    ∃ es st, Run (Request toyPrims) sampleDistribution.receivingState es st ∧
      released es = [9, 7] ∧ st.storedIterations = [8] ∧ (released es).Nodup := by
  have hahead : getSenderMessageKey toyPrims sampleDistribution.receivingState 9 = _ :=
    getSenderMessageKey_ahead (g := 2) rfl (by decide) (by decide) (by decide)
  have hstart : WindowOk toyPrims { iteration := 7, seed := Key.fill 2 }
      sampleDistribution.receivingState 0 := windowOk_start rfl rfl
  have hwin := hstart.passed (show 7 + 0 + 2 + 1 < 2 ^ 32 by decide)
  have hstored : (sampleDistribution.receivingState.passed toyPrims 2).storedIterations = [7, 8] :=
    (hstart.storedAfter hahead).trans (by decide)
  obtain ⟨⟨key, st⟩, hbehind⟩ := (hwin.succeeds_behind (i := 7) (by decide)).mpr (by simp [hstored])
  have hrun := (Run.single (Request.released hahead)).snoc (Request.released hbehind)
  have hleft : st.storedIterations = [8] := by
    rw [hwin.storedAfter hbehind, State.storedAfter, hstored]
    decide
  exact ⟨_, _, hrun, rfl, hleft, (sender_key_window _ _ _ _ hrun).2.1⟩

end SignalGo.SenderKeys
