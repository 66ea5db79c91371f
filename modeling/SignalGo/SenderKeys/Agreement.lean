import SignalGo.SenderKeys.Sending

/-!
# Sender keys: sender and receiver agree

A receiver that has processed a distribution message can open what the sender encrypts afterwards
under the state of that message, in any order, each message once.

* `outstanding`: the iterations a receiver has passed and not yet been asked for.
* `Complete.deliver`: while at most 2000 of them are outstanding, every key is still there.
* `Placed`: the state keeps its place in the record while fewer than `maxStates` other states
  come in.
* `Tracks.step`, `group_agreement`: both along every run of a receiver.
-/

namespace SignalGo.SenderKeys

variable {s : Suite} {w : Protowire} {name : SenderKeyName} {p : Prims}

/-! ## The window, while it is not too small -/

/-- The highest of the delivered iterations, or `k`. -/
def highest (k : UInt32) (delivered : List UInt32) : UInt32 :=
  delivered.foldl (fun top i => if top < i then i else top) k

/-- The iterations from `k` up to the highest delivered one that have not been delivered. -/
def outstanding (k : UInt32) (delivered : List UInt32) : List UInt32 :=
  (iterationsBetween k (highest k delivered)).filter (· ∉ delivered)

theorem highest_append {k i : UInt32} {delivered : List UInt32} (hk : k ≤ i)
    (h : ∀ j ∈ delivered, j < i) : highest k (delivered ++ [i]) = i := by
  have hle : highest k delivered ≤ i := by
    unfold highest
    induction delivered generalizing k with
    | nil => exact hk
    | cons j rest ih =>
      rw [List.foldl_cons]
      refine ih ?_ fun x hx => h x (List.mem_cons_of_mem _ hx)
      split
      · exact UInt32.le_of_lt (h j List.mem_cons_self)
      · exact hk
  rw [highest, List.foldl_append]
  show (if highest k delivered < i then i else highest k delivered) = i
  split
  · rfl
  · exact UInt32.le_antisymm hle (UInt32.not_lt.mp ‹_›)

theorem nodup_iterationsBetween (lo hi : UInt32) : (iterationsBetween lo hi).Nodup := by
  have hhi := hi.toNat_lt
  have hval (c : Nat) (hc : c ∈ List.range (hi.toNat - lo.toNat)) :
      (lo + UInt32.ofNat c).toNat = lo.toNat + c := by
    rw [List.mem_range] at hc
    rw [UInt32.toNat_add, UInt32.toNat_ofNat_of_lt' (by simp [UInt32.size]; omega)]
    exact Nat.mod_eq_of_lt (by omega)
  refine List.nodup_range.map_on fun a ha b hb hab => ?_
  have hab := congrArg UInt32.toNat hab
  rw [hval a ha, hval b hb] at hab
  omega

/-- Every iteration the receiver has passed is delivered or stored. -/
structure Complete (p : Prims) (start : SenderChainKey) (st : State) (delivered : List UInt32) :
    Prop where
  window : ∃ n, WindowOk p start st n
  spent : ∀ i ∈ delivered, start.iteration ≤ i ∧ st.Spent i
  held : ∀ i, start.iteration ≤ i → i < st.chainIteration → i ∉ delivered →
    i ∈ st.storedIterations

section Complete

variable {start : SenderChainKey} {st : State} {delivered : List UInt32} {i : UInt32}

theorem complete_start {st : State} (hkeys : st.messageKeys = []) :
    Complete p st.chainKey st [] where
  window := ⟨0, windowOk_start rfl hkeys⟩
  spent := nofun
  held _ hle hlt _ := absurd hlt (UInt32.not_lt.mpr hle)

/-- What is stored after a delivery past the chain is all outstanding, so that nothing has to go. -/
theorem Complete.length_le (h : Complete p start st delivered) (hi : start.iteration ≤ i)
    (hahead : st.chainIteration ≤ i)
    (hwin : (outstanding start.iteration (delivered ++ [i])).length ≤ maxMessageKeysPerState) :
    (st.storedIterations ++ iterationsBetween st.chainIteration i).length ≤
      maxMessageKeysPerState := by
  obtain ⟨n, hok⟩ := h.window
  have hlt : ∀ j ∈ delivered, j < i := fun j hj =>
    UInt32.lt_of_lt_of_le (h.spent j hj).2.1 hahead
  rw [outstanding, highest_append hi hlt] at hwin
  refine le_trans (List.Nodup.subperm ?_ ?_).length_le hwin
  · refine List.nodup_append.mpr ⟨hok.nodup, nodup_iterationsBetween _ _, ?_⟩
    rintro a ha b hb rfl
    obtain ⟨key, hkey, rfl⟩ := List.mem_map.mp ha
    exact absurd (hok.lt_chainIteration hkey) (UInt32.not_lt.mpr (mem_iterationsBetween.mp hb).1)
  · intro j hj
    rw [List.mem_filter, mem_iterationsBetween, decide_eq_true_eq, List.mem_append,
      List.mem_singleton, not_or]
    rcases List.mem_append.mp hj with hj | hj
    · obtain ⟨key, hkey, rfl⟩ := List.mem_map.mp hj
      obtain ⟨m, hm, hit, -⟩ := hok.entry_eq hkey
      have hlow : start.iteration ≤ key.iteration := UInt32.le_iff_toNat_le.mpr (by omega)
      have hhigh := UInt32.lt_of_lt_of_le (hok.lt_chainIteration hkey) hahead
      exact ⟨⟨hlow, hhigh⟩, fun hd => (h.spent _ hd).2.2 hj, UInt32.ne_of_lt hhigh⟩
    · obtain ⟨hlow, hhigh⟩ := mem_iterationsBetween.mp hj
      have hchain := hok.chainIteration_toNat
      have hstart : start.iteration ≤ st.chainIteration := UInt32.le_iff_toNat_le.mpr (by omega)
      exact ⟨⟨UInt32.le_trans hstart hlow, hhigh⟩,
        fun hd => absurd (h.spent _ hd).2.1 (UInt32.not_lt.mpr hlow), UInt32.ne_of_lt hhigh⟩

/-- The key of an iteration that has not been delivered is found. -/
theorem Complete.found (h : Complete p start st delivered) (hi : start.iteration ≤ i)
    (hnew : i ∉ delivered) (hmax : i.toNat + 1 < 2 ^ 32)
    (hwin : (outstanding start.iteration (delivered ++ [i])).length ≤ maxMessageKeysPerState) :
    ∃ key st', getSenderMessageKey p st i = .ok (key, st') := by
  obtain ⟨n, hok⟩ := h.window
  by_cases hlt : i < st.chainIteration
  · -- Behind the chain its key is stored.
    obtain ⟨key, hkey, hit⟩ := List.mem_map.mp (h.held i hi hlt hnew)
    rw [getSenderMessageKey_behind hlt]
    cases hfind : st.messageKeys.find? (·.iteration = i) with
    | none => exact absurd (by simpa using hit) (List.find?_eq_none.mp hfind key hkey)
    | some found => exact ⟨_, _, rfl⟩
  · -- Past the chain the gap is part of what is outstanding.
    have hle := UInt32.not_lt.mp hlt
    obtain ⟨g, hg⟩ := Nat.exists_eq_add_of_le (UInt32.le_iff_toNat_le.mp hle)
    have hlen := h.length_le hi hle hwin
    rw [List.length_append, iterationsBetween, List.length_map, List.length_range] at hlen
    exact ⟨_, _, getSenderMessageKey_ahead hg (by omega) hmax hok.bounded⟩

/-- **One delivery.** It releases the sender's key, and what is passed is again delivered or
stored. -/
theorem Complete.deliver (h : Complete p start st delivered) (hi : start.iteration ≤ i)
    (hnew : i ∉ delivered) (hmax : i.toNat + 1 < 2 ^ 32)
    (hwin : (outstanding start.iteration (delivered ++ [i])).length ≤ maxMessageKeysPerState) :
    ∃ key st', getSenderMessageKey p st i = .ok (key, st') ∧ senderKeyAt p start i = .ok key ∧
      Complete p start st' (delivered ++ [i]) := by
  obtain ⟨key, st', hget⟩ := h.found hi hnew hmax hwin
  obtain ⟨n, hok⟩ := h.window
  obtain ⟨hok', ⟨-, hkey⟩, -, hspent⟩ := hok.request hget
  refine ⟨key, st', hget, hkey, hok', ?_, ?_⟩
  · intro j hj
    rcases List.mem_append.mp hj with hj | hj
    · exact ⟨(h.spent j hj).1, hspent j (.inl (h.spent j hj).2)⟩
    · rw [List.mem_singleton.mp hj]
      exact ⟨hi, hspent i (.inr rfl)⟩
  · intro j hj hlt hnot
    rw [List.mem_append, List.mem_singleton, not_or] at hnot
    rw [hok.storedAfter hget, State.storedAfter]
    split
    · rename_i hbehind
      -- The chain has not moved.
      rcases getSenderMessageKey_cases hok.bounded hget with ⟨-, -, -, -, -, rfl⟩ | ⟨g, -, hg, -⟩
      · exact hok.nodup.mem_erase_iff.mpr ⟨hnot.2, h.held j hj hlt hnot.1⟩
      · rw [UInt32.lt_iff_toNat_lt] at hbehind
        omega
    · rename_i hahead
      have hle := UInt32.not_lt.mp hahead
      rw [List.rtake, Nat.sub_eq_zero_of_le (h.length_le hi hle hwin), List.drop_zero,
        List.mem_append, mem_iterationsBetween]
      by_cases hjc : j < st.chainIteration
      · exact .inl (h.held j hj hjc hnot.1)
      · -- The chain is right behind `i` now.
        rcases getSenderMessageKey_cases hok.bounded hget with ⟨hbad, -⟩ | ⟨g, -, hg, hm, -, rfl⟩
        · exact absurd hbad hahead
        · have hchain := (hok.passed (p := p) (g := g) (by
            have := hok.chainIteration_toNat
            omega)).chainIteration_toNat
          have hbase := hok.chainIteration_toNat
          rw [UInt32.lt_iff_toNat_lt] at hlt
          refine .inr ⟨UInt32.not_lt.mp hjc, ?_⟩
          rw [UInt32.lt_iff_toNat_lt]
          have hne : j.toNat ≠ i.toNat := fun heq => hnot.2 (UInt32.toNat_inj.mp heq)
          omega

end Complete

/-! ## The place of a state in the record -/

/-- The state is in the record, and what stands before it came in since: the ids of these states
are among `seen`. -/
structure Placed (maxStates : Nat) (st : State) (seen : List (ByteArr 16 × UInt32)) (r : Record) :
    Prop where
  fits : r.Fits
  limit : r.maxStates = maxStates
  split : ∃ front back, r.states = front ++ st :: back ∧ (front.map State.ids).Nodup ∧
    (∀ x ∈ front, x.ids ∈ seen) ∧ st.ids ∉ front.map State.ids

section Placed

variable {maxStates : Nat} {st st' : State} {seen : List (ByteArr 16 × UInt32)} {r : Record}

theorem placed_setState (hfits : r.Fits) (hst : st.Fits) :
    Placed r.maxStates st [] (r.setState st) := by
  obtain ⟨back, hstates⟩ := setState_head hfits.maxStates_pos st
  exact ⟨fits_setState hfits hst, rfl, [], back, hstates, .nil, nofun, nofun⟩

/-- The state is the one its ids find. -/
theorem Placed.state_eq (h : Placed maxStates st seen r) :
    r.state st.distributionID st.keyID = .ok st := by
  obtain ⟨front, back, hstates, -, -, hnot⟩ := h.split
  have hself : st.hasIDs st.distributionID st.keyID = true := State.hasIDs_iff.mpr rfl
  have hfront : front.find? (·.hasIDs st.distributionID st.keyID) = none := by
    refine List.find?_eq_none.mpr fun x hx hids => hnot ?_
    exact List.mem_map.mpr ⟨x, hx, State.hasIDs_iff.mp hids⟩
  simp only [Record.state, hstates, List.find?_append, hfront, List.find?_cons, hself,
    Option.none_or]

/-- A state with other ids goes in front. -/
theorem Placed.install (h : Placed maxStates st seen r) {next : State} (hnext : next.Fits)
    (hne : st.ids ≠ next.ids) (hroom : (seen ++ [next.ids]).toFinset.card < maxStates) :
    Placed maxStates st (seen ++ [next.ids]) (r.setState next) := by
  obtain ⟨front, back, hstates, hnodup, hseen, hnot⟩ := h.split
  set keep := fun x : State => !x.hasIDs next.distributionID next.keyID with hkeep
  have hkeep_iff (x : State) : keep x = true ↔ x.ids ≠ next.ids := by
    rw [hkeep, Bool.not_eq_true', Bool.eq_false_iff]
    exact not_congr State.hasIDs_iff
  set front' := next :: front.filter keep with hfront'
  have hids : (front'.map State.ids).Nodup := by
    rw [hfront', List.map_cons, List.nodup_cons]
    refine ⟨fun hmem => ?_, hnodup.sublist (List.filter_sublist.map _)⟩
    obtain ⟨x, hx, hxids⟩ := List.mem_map.mp hmem
    exact (hkeep_iff x).mp (List.mem_filter.mp hx).2 hxids
  have hseen' : ∀ x ∈ front', x.ids ∈ seen ++ [next.ids] := by
    intro x hx
    rcases List.mem_cons.mp hx with rfl | hx
    · exact List.mem_append_right _ (List.mem_singleton_self _)
    · exact List.mem_append_left _ (hseen x (List.mem_filter.mp hx).1)
  -- The states in front are no more than those seen, so the cut is behind the state.
  have hlen : front'.length < maxStates := by
    refine lt_of_le_of_lt ?_ hroom
    rw [← List.length_map (f := State.ids), ← List.toFinset_card_of_nodup hids]
    refine Finset.card_le_card fun y hy => ?_
    obtain ⟨x, hx, rfl⟩ := List.mem_map.mp (List.mem_toFinset.mp hy)
    exact List.mem_toFinset.mpr (hseen' x hx)
  refine ⟨fits_setState h.fits hnext, h.limit, front',
    (back.filter keep).take (maxStates - front'.length - 1), ?_, hids, hseen', ?_⟩
  · have hcut : maxStates - front'.length = (maxStates - front'.length - 1) + 1 := by omega
    show (next :: r.states.filter keep).take r.maxStates = _
    rw [h.limit, hstates, List.filter_append, List.filter_cons_of_pos ((hkeep_iff st).mpr hne),
      ← List.cons_append, ← hfront', List.take_append, List.take_of_length_le hlen.le, hcut,
      List.take_succ_cons]
    rfl
  · rw [hfront', List.map_cons, List.mem_cons, not_or]
    exact ⟨hne, fun hmem => hnot ((List.filter_sublist.map _).subset hmem)⟩

/-- Writing the state back leaves it in its place. -/
theorem Placed.update (h : Placed maxStates st seen r) (hst' : st'.Fits) (hids : st'.ids = st.ids) :
    Placed maxStates st' seen (r.update st.distributionID st.keyID st') := by
  obtain ⟨front, back, hstates, hnodup, hseen, hnot⟩ := h.split
  refine ⟨h.fits.update hst', h.limit, front, back, ?_, hnodup, hseen, hids ▸ hnot⟩
  have hself : st.hasIDs st.distributionID st.keyID = true := State.hasIDs_iff.mpr rfl
  have hfront : ∀ x ∈ front, x.hasIDs st.distributionID st.keyID = false := by
    intro x hx
    rw [Bool.eq_false_iff]
    exact fun hx' => hnot (List.mem_map.mpr ⟨x, hx, State.hasIDs_iff.mp hx'⟩)
  simp only [Record.update, hstates]
  clear hstates hnodup hseen hnot
  induction front with
  | nil => simp [List.replaceF, hself]
  | cons x rest ih =>
    rw [List.forall_mem_cons] at hfront
    simp [List.replaceF, hfront.1, ih hfront.2]

/-- Writing back a state with other ids leaves it as it is. -/
theorem Placed.update_other (h : Placed maxStates st seen r) {id : ByteArr 16} {kid : UInt32}
    (hne : st.ids ≠ (id, kid)) (hst' : st'.Fits) (hids : st'.ids = (id, kid)) :
    Placed maxStates st seen (r.update id kid st') := by
  obtain ⟨front, back, hstates, hnodup, hseen, hnot⟩ := h.split
  have hself : st.hasIDs id kid = false := by
    rw [Bool.eq_false_iff]
    exact fun hst => hne (State.hasIDs_iff.mp hst)
  suffices hsplit : ∃ front' back', (r.update id kid st').states = front' ++ st :: back' ∧
      front'.map State.ids = front.map State.ids by
    obtain ⟨front', back', heq, hmap⟩ := hsplit
    refine ⟨h.fits.update hst', h.limit, front', back', heq, hmap ▸ hnodup, ?_, hmap ▸ hnot⟩
    intro x hx
    have hmem : x.ids ∈ front.map State.ids := hmap ▸ List.mem_map_of_mem hx
    obtain ⟨y, hy, hyx⟩ := List.mem_map.mp hmem
    exact hyx ▸ hseen y hy
  simp only [Record.update, hstates]
  clear hstates hnodup hseen hnot
  induction front with
  | nil =>
    refine ⟨[], back.replaceF fun x => if x.hasIDs id kid then some st' else none, ?_, rfl⟩
    simp [List.replaceF, hself]
  | cons x rest ih =>
    by_cases hx : x.hasIDs id kid = true
    · refine ⟨st' :: rest, back, by simp [List.replaceF, hx], ?_⟩
      rw [List.map_cons, List.map_cons, hids, State.hasIDs_iff.mp hx]
    · obtain ⟨front', back', heq, hmap⟩ := ih
      refine ⟨x :: front', back', ?_, by rw [List.map_cons, List.map_cons, hmap]⟩
      simp [List.replaceF, hx, heq]

end Placed

/-! ## Runs of a receiver -/

/-- The ids of the distribution messages processed in a run. -/
def processedIDs (s : Suite) (w : Protowire) (es : List GroupEvent) :
    List (ByteArr 16 × UInt32) :=
  es.filterMap fun
    | .process distribution =>
        (parseDistributionMessage s.toPrims w distribution).toOption.map fun msg =>
          (msg.distributionID, msg.keyID)
    | .decrypt _ => none

/-- The iteration of a message for the chain with these ids, from iteration `k` on. -/
def iterationFor (w : Protowire) (ids : ByteArr 16 × UInt32) (k : UInt32) (ciphertext : Bytes) :
    Option UInt32 :=
  match parseSenderKeyMessage w ciphertext with
  | .error _ => none
  | .ok (m, _) =>
      if (m.distributionID, m.keyID) = ids ∧ k ≤ m.iteration then some m.iteration else none

/-- The messages for the chain that are delivered in a run, with their iterations. -/
def deliveries (w : Protowire) (ids : ByteArr 16 × UInt32) (k : UInt32) (es : List GroupEvent) :
    List (Bytes × UInt32) :=
  es.filterMap fun
    | .process _ => none
    | .decrypt ciphertext => (iterationFor w ids k ciphertext).map (ciphertext, ·)

/-- What is asked of the deliveries, for a receiver that has processed the distribution message of
`st0`, after which the sender gave out `after`: no second distribution message of the state, fewer
than `maxStates` of other states; of the messages for the state only those of the sender, each at
most once; and never more than 2000 iterations outstanding. -/
structure Orderly (s : Suite) (w : Protowire) (st0 : State) (after : List Sent) (maxStates : Nat)
    (es : List GroupEvent) : Prop where
  others : st0.ids ∉ processedIDs s w es
  room : (processedIDs s w es).toFinset.card < maxStates
  ours : ∀ c i, (c, i) ∈ deliveries w st0.ids st0.chainIteration es →
    ∃ st plaintext, .message st plaintext c ∈ after
  once : (deliveries w st0.ids st0.chainIteration es).Nodup
  window : ∀ ds, ds <+: deliveries w st0.ids st0.chainIteration es →
    (outstanding st0.chainIteration (ds.map Prod.snd)).length ≤ maxMessageKeysPerState

section Orderly

variable {st0 : State} {after : List Sent} {maxStates : Nat} {es : List GroupEvent}
  {e : GroupEvent}

theorem processedIDs_append : processedIDs s w (es ++ [e]) =
    processedIDs s w es ++ processedIDs s w [e] := List.filterMap_append

theorem deliveries_append {ids : ByteArr 16 × UInt32} {k : UInt32} :
    deliveries w ids k (es ++ [e]) = deliveries w ids k es ++ deliveries w ids k [e] :=
  List.filterMap_append

/-- What is asked of a run is asked of its beginning. -/
theorem Orderly.init (h : Orderly s w st0 after maxStates (es ++ [e])) :
    Orderly s w st0 after maxStates es where
  others hmem := h.others (by
    rw [processedIDs_append]
    exact List.mem_append_left _ hmem)
  room := by
    refine lt_of_le_of_lt (Finset.card_le_card fun x hx => ?_) h.room
    rw [processedIDs_append, List.mem_toFinset]
    exact List.mem_append_left _ (List.mem_toFinset.mp hx)
  ours c i hmem := h.ours c i (by
    rw [deliveries_append]
    exact List.mem_append_left _ hmem)
  once := by
    have honce := h.once
    rw [deliveries_append] at honce
    exact honce.sublist (List.sublist_append_left _ _)
  window ds hds := h.window ds (by
    rw [deliveries_append]
    exact hds.trans (List.prefix_append _ _))

end Orderly

/-- The receiver has the state of `st0` in its record, moved on by what was delivered. -/
def Tracks (s : Suite) (w : Protowire) (st0 : State) (maxStates : Nat) (es : List GroupEvent)
    (data : Option Bytes) : Prop :=
  ∃ r st, loadRecord data = .ok r ∧ Placed maxStates st (processedIDs s w es) r ∧
    st.ids = st0.ids ∧ st.messageVersion = st0.messageVersion ∧
    st.signingPublic = st0.signingPublic ∧ Complete s.toPrims st0.chainKey st
      ((deliveries w st0.ids st0.chainIteration es).map Prod.snd)

/-- A message is parsed to what was signed, with its signature. -/
theorem Sent.Made.parse (laws : w.Laws) {st : State} {plaintext ciphertext : Bytes}
    (h : Sent.Made s w (.message st plaintext ciphertext)) :
    ∃ rnd, ∃ sig : ByteArr 64,
      s.xeddsaSign rnd st.signingPrivateSeed ((st.outgoing s plaintext).signedBytes w) =
        .ok sig.toBytes ∧
      parseSenderKeyMessage w ciphertext =
        .ok ({ st.outgoing s plaintext with signature := sig },
          (st.outgoing s plaintext).signedBytes w) := by
  obtain ⟨hst, -, rnd, sig, hsig, rfl⟩ := h
  exact ⟨rnd, sig, hsig, parseSenderKeyMessage_serialize laws hst.version⟩

/-- A message of the chain lies before the iteration of every later state. -/
theorem Sent.Leads.lt {st st' : State} {plaintext c : Bytes}
    (h : Sent.Leads p (.message st plaintext c) st') (hids : st.ids = st'.ids) :
    st.chainIteration.toNat < st'.chainIteration.toNat := by
  obtain ⟨n, hlater, hpos⟩ := h hids
  have hn := hpos rfl
  have hit : st'.chainIteration.toNat = st.chainIteration.toNat + n := hlater.chainIteration
  omega

/-- Two messages of one chain at the same iteration are the same. -/
theorem message_unique {log : List Sent} (hordered : log.Pairwise fun x y => x.Leads p y.state)
    {st st' : State} {plaintext plaintext' c c' : Bytes} (hc : .message st plaintext c ∈ log)
    (hc' : .message st' plaintext' c' ∈ log) (hids : st.ids = st'.ids)
    (hit : st.chainIteration = st'.chainIteration) : c = c' := by
  obtain ⟨a, ha, hca⟩ := List.mem_iff_getElem.mp hc
  obtain ⟨b, hb, hcb⟩ := List.mem_iff_getElem.mp hc'
  rw [List.pairwise_iff_getElem] at hordered
  have hsame := congrArg UInt32.toNat hit
  rcases Nat.lt_trichotomy a b with hab | rfl | hab
  · have hleads := hordered a b ha hb hab
    rw [hca, hcb] at hleads
    have hlt := Sent.Leads.lt hleads hids
    simp only [Sent.state] at hlt
    omega
  · rw [hca] at hcb
    cases hcb
    rfl
  · have hleads := hordered b a hb ha hab
    rw [hca, hcb] at hleads
    have hlt := Sent.Leads.lt hleads hids.symm
    simp only [Sent.state] at hlt
    omega

/-! ## One step of the receiver -/

/-- The sender's side of an agreement: the log from the distribution message of `st0` on. -/
structure Announced (s : Suite) (w : Protowire) (st0 : State) (after : List Sent) : Prop where
  made : ∀ x ∈ after, x.Made s w
  ordered : after.Pairwise fun x y => x.Leads s.toPrims y.state
  later : ∀ x ∈ after, x.state.ids = st0.ids → ∃ n, State.Later s.toPrims st0 n x.state

theorem SenderOk.announced {g : Sender} (h : SenderOk s w g) {before after : List Sent}
    {st0 : State} {distribution : Bytes}
    (hlog : g.log = before ++ .distribution st0 distribution :: after) :
    Announced s w st0 after where
  made x hx := h.made x (by
    rw [hlog]
    exact List.mem_append_right _ (List.mem_cons_of_mem _ hx))
  ordered := by
    have hordered := h.ordered
    rw [hlog] at hordered
    exact (List.pairwise_append.mp hordered).2.1.of_cons
  later x hx hids := by
    have hordered := h.ordered
    rw [hlog] at hordered
    obtain ⟨n, hlater, -⟩ :=
      (List.pairwise_cons.mp (List.pairwise_append.mp hordered).2.1).1 x hx hids.symm
    exact ⟨n, hlater⟩

section Step

variable {st0 st : State} {after : List Sent} {maxStates : Nat} {es : List GroupEvent}
  {data : Option Bytes} {plaintext c : Bytes}

/-- A request changes nothing but the chain and the stored keys. -/
theorem getSenderMessageKey_frame {st' : State} {i : UInt32} {key : SenderMessageKey}
    (hfits : st.Fits) (h : getSenderMessageKey p st i = .ok (key, st')) :
    st'.Fits ∧ st'.ids = st.ids ∧ st'.messageVersion = st.messageVersion ∧
      st'.signingPublic = st.signingPublic := by
  have hfits' := hfits.afterRequest (p := p) i
  rw [State.afterRequest, h] at hfits'
  refine ⟨hfits', ?_⟩
  rcases getSenderMessageKey_cases hfits.keys h with ⟨-, _, -, -, -, rfl⟩ | ⟨_, -, -, -, -, rfl⟩
  · exact ⟨rfl, rfl, rfl⟩
  · exact ⟨rfl, rfl, rfl⟩

/-- The iteration of a message of the sender is delivered with that message only. -/
theorem Announced.not_delivered (laws : w.Laws) (hann : Announced s w st0 after)
    (hmem : .message st plaintext c ∈ after) (hids : st.ids = st0.ids)
    (hours : ∀ c i, (c, i) ∈ deliveries w st0.ids st0.chainIteration es →
      ∃ st plaintext, .message st plaintext c ∈ after)
    (hnew : (c, st.chainIteration) ∉ deliveries w st0.ids st0.chainIteration es) :
    st.chainIteration ∉ (deliveries w st0.ids st0.chainIteration es).map Prod.snd := by
  intro hdel
  obtain ⟨⟨c', i⟩, hc', hi⟩ := List.mem_map.mp hdel
  obtain ⟨st', plaintext', hmem'⟩ := hours c' i hc'
  obtain ⟨-, sig', -, hparse'⟩ := (hann.made _ hmem').parse laws
  obtain ⟨e, -, he⟩ := List.mem_filterMap.mp hc'
  cases e with
  | process => cases he
  | decrypt =>
    obtain ⟨_, hfor, heq⟩ := Option.map_eq_some_iff.mp he
    cases heq
    rw [iterationFor, hparse'] at hfor
    simp only [Option.ite_none_right_eq_some, Option.some.injEq] at hfor
    obtain ⟨⟨hids', -⟩, hi'⟩ := hfor
    have hsame : c = c' := message_unique hann.ordered hmem hmem' (hids.trans hids'.symm)
      (hi.symm.trans hi'.symm)
    have hi : i = st.chainIteration := hi
    rw [← hsame, hi] at hc'
    exact hnew hc'

/-- **One delivery.** A message of the sender that has not been delivered is opened. -/
theorem Tracks.deliver (laws : w.Laws) (cbc : s.CbcLaws) (sign : s.SignLaws)
    (hann : Announced s w st0 after) (h : Tracks s w st0 maxStates es data)
    (hmem : .message st plaintext c ∈ after) (hids : st.ids = st0.ids)
    (hord : Orderly s w st0 after maxStates (es ++ [.decrypt c])) :
    ∃ data', decrypt s w name data c = .ok (plaintext, data') ∧
      Tracks s w st0 maxStates (es ++ [.decrypt c]) (some data') := by
  have hmade := hann.made _ hmem
  obtain ⟨rnd, sig, hsig, hparse⟩ := hmade.parse laws
  obtain ⟨hst, hmax, -⟩ := hmade
  obtain ⟨n, hlater⟩ := hann.later _ hmem hids
  have hit : st.chainIteration.toNat = st0.chainIteration.toNat + n := hlater.chainIteration
  have hge : st0.chainIteration ≤ st.chainIteration := UInt32.le_iff_toNat_le.mpr (by omega)
  obtain ⟨r, cur, hload, hplaced, hcids, hcversion, hcpublic, hcomplete⟩ := h
  -- The parser finds the iteration of the sender's state.
  have hnew : deliveries w st0.ids st0.chainIteration [.decrypt c] = [(c, st.chainIteration)] := by
    have hfor : iterationFor w st0.ids st0.chainIteration c = some st.chainIteration := by
      rw [iterationFor, hparse]
      exact if_pos ⟨hids, hge⟩
    simp [deliveries, hfor]
  have hseen : processedIDs s w (es ++ [.decrypt c]) = processedIDs s w es := by
    rw [processedIDs_append]
    exact List.append_nil _
  have honce := hord.once
  have hwindow := hord.window _ List.prefix_rfl
  rw [deliveries_append, hnew] at honce hwindow
  rw [List.map_append] at hwindow
  have hfresh := hann.not_delivered laws hmem hids hord.init.ours fun hdel =>
    (List.nodup_append.mp honce).2.2 _ hdel _ (List.mem_singleton_self _) rfl
  obtain ⟨key, cur', hget, hkey, hcomplete'⟩ := hcomplete.deliver hge hfresh hmax hwindow
  have hfits : cur.Fits := hplaced.fits.fits cur (Record.state_mem hplaced.state_eq).1
  obtain ⟨hfits', hids', hversion', hpublic'⟩ := getSenderMessageKey_frame hfits hget
  -- The key is the sender's, so decryption undoes encryption.
  rw [senderKeyAt_eq hit, ← hlater.chain] at hkey
  cases hkey
  have hdec := aesCBCDecrypt_aesCBCEncrypt s cbc
    (messageKeyOf s.toPrims st.chainIteration (st.chainKey.entry s.toPrims).seed).cipherKey
    (messageKeyOf s.toPrims st.chainIteration (st.chainKey.entry s.toPrims).seed).iv plaintext
  obtain ⟨sig', hsig', -, hverify⟩ := sign.complete hst.keyPair rnd
    ((st.outgoing s plaintext).signedBytes w)
  cases hsig.symm.trans hsig'
  have hcur : cur.ids = (st.distributionID, st.keyID) := hcids.trans hids.symm
  obtain ⟨hcid, hckid⟩ := Prod.mk.inj hcur
  have hplaced' := hplaced.update hfits' hids'
  refine ⟨_, decrypt_eq_ok.mpr ⟨_, _, r, cur, _, cur', hparse, hload, ?_, ?_, ?_, hget, hdec, rfl⟩,
    ?_⟩
  · have hstate := hplaced.state_eq
    rw [hcid, hckid] at hstate
    exact hstate
  · exact hlater.version.trans hcversion.symm
  · rw [hcpublic, ← hlater.signingPublic]
    exact hverify
  · rw [hcid, hckid] at hplaced'
    refine ⟨_, cur', loadRecord_serialize hplaced'.fits, ?_, hids'.trans hcids,
      hversion'.trans hcversion, hpublic'.trans hcpublic, ?_⟩
    · rw [hseen]
      exact hplaced'
    · rw [deliveries_append, hnew, List.map_append]
      exact hcomplete'

/-- A processed distribution message of another state. -/
theorem Tracks.install (h : Tracks s w st0 maxStates es data) {distribution : Bytes}
    {msg : DistributionMessage}
    (hparse : parseDistributionMessage s.toPrims w distribution = .ok msg)
    (hord : Orderly s w st0 after maxStates (es ++ [.process distribution])) :
    ∃ data', process s w data distribution = .ok data' ∧
      Tracks s w st0 maxStates (es ++ [.process distribution]) (some data') := by
  obtain ⟨r, cur, hload, hplaced, hids, hversion, hpublic, hcomplete⟩ := h
  have hnew : processedIDs s w [.process distribution] = [msg.receivingState.ids] := by
    simp [processedIDs, hparse, Except.toOption, State.ids, DistributionMessage.receivingState]
  have hothers := hord.others
  have hroom := hord.room
  rw [processedIDs_append, hnew] at hothers hroom
  have hne : cur.ids ≠ msg.receivingState.ids := by
    intro heq
    rw [← heq, hids] at hothers
    exact hothers (List.mem_append_right _ (List.mem_singleton_self _))
  have hplaced' := hplaced.install (receivingState_fits msg) hne hroom
  refine ⟨(r.setState msg.receivingState).serialize, ?_, _, cur,
    loadRecord_serialize hplaced'.fits, ?_, hids, hversion, hpublic, ?_⟩
  · rw [process, hparse, hload]
    rfl
  · rw [processedIDs_append, hnew]
    exact hplaced'
  · rw [deliveries_append]
    simpa [deliveries] using hcomplete

/-- A message that is not delivered to the state: for other ids, or from before the distribution
message. -/
theorem Tracks.pass (h : Tracks s w st0 maxStates es data) {plaintext data' : Bytes}
    (hfor : iterationFor w st0.ids st0.chainIteration c = none)
    (hdec : decrypt s w name data c = .ok (plaintext, data')) :
    Tracks s w st0 maxStates es (some data') := by
  obtain ⟨r, cur, hload, hplaced, hids, hversion, hpublic, hcomplete⟩ := h
  obtain ⟨m, signed, r', st, key, st', hparse, hload', hstate, -, -, hget, -, rfl⟩ :=
    decrypt_eq_ok.mp hdec
  cases hload.symm.trans hload'
  rw [iterationFor, hparse] at hfor
  simp only [ite_eq_right_iff, reduceCtorEq, imp_false, not_and] at hfor
  obtain ⟨hmem, hst⟩ := Record.state_mem hstate
  obtain ⟨hfits', hids', -, -⟩ := getSenderMessageKey_frame (hplaced.fits.fits st hmem) hget
  by_cases hsame : (m.distributionID, m.keyID) = st0.ids
  · -- The window gives no key from before its start.
    have hfound := hplaced.state_eq
    obtain ⟨hid, hkid⟩ := Prod.mk.inj (hids.trans hsame.symm)
    rw [hid, hkid, hstate] at hfound
    cases hfound
    obtain ⟨n, hok⟩ := hcomplete.window
    obtain ⟨-, ⟨hle, -⟩, -⟩ := hok.request hget
    exact absurd hle (hfor hsame)
  · have hplaced' := hplaced.update_other (fun heq => hsame (heq.symm.trans hids)) hfits'
      (hids'.trans hst)
    exact ⟨_, cur, loadRecord_serialize hplaced'.fits, hplaced', hids, hversion, hpublic, hcomplete⟩

/-- An event that is neither a processed nor a delivered message. -/
theorem tracks_append_iff {e : GroupEvent} (hprocessed : processedIDs s w [e] = [])
    (hdelivered : deliveries w st0.ids st0.chainIteration [e] = []) :
    Tracks s w st0 maxStates (es ++ [e]) data ↔ Tracks s w st0 maxStates es data := by
  rw [Tracks, Tracks, processedIDs_append, deliveries_append, hprocessed, hdelivered,
    List.append_nil, List.append_nil]

theorem Tracks.step (laws : w.Laws) (cbc : s.CbcLaws) (sign : s.SignLaws)
    (hann : Announced s w st0 after) {g g' : Receiver} {e : GroupEvent}
    (h : Tracks s w st0 maxStates es g.data) (hstep : Receives s w name g e g')
    (hord : Orderly s w st0 after maxStates (es ++ [e])) :
    Tracks s w st0 maxStates (es ++ [e]) g'.data := by
  cases e with
  | process distribution =>
    cases hparse : parseDistributionMessage s.toPrims w distribution with
    | error err =>
      have hnone : processedIDs s w [.process distribution] = [] := by
        simp [processedIDs, hparse, Except.toOption]
      have hfail : ∃ e, process s w g.data distribution = .error e := by
        rw [process, hparse]
        exact ⟨_, rfl⟩
      obtain ⟨e, hfail⟩ := hfail
      cases hstep with
      | processed hproc => cases hfail.symm.trans hproc
      | notProcessed =>
        exact (tracks_append_iff hnone rfl).mpr h
    | ok msg =>
      -- in an orderly run a distribution message that parses is installed
      obtain ⟨data', hproc', htracks⟩ := h.install hparse hord
      cases hstep with
      | processed hproc =>
        cases hproc'.symm.trans hproc
        exact htracks
      | notProcessed hproc => cases hproc'.symm.trans hproc
  | decrypt c =>
    cases hfor : iterationFor w st0.ids st0.chainIteration c with
    | none =>
      -- a ciphertext of another chain leaves ours where it is
      have hnone : deliveries w st0.ids st0.chainIteration [.decrypt c] = [] := by
        simp [deliveries, hfor]
      rw [tracks_append_iff rfl hnone]
      cases hstep with
      | opened hdec => exact h.pass hfor hdec
      | notOpened => exact h
    | some i =>
      have hmem : (c, i) ∈ deliveries w st0.ids st0.chainIteration (es ++ [.decrypt c]) := by
        rw [deliveries_append]
        exact List.mem_append_right _ (by simp [deliveries, hfor])
      obtain ⟨st, plaintext, hc⟩ := hord.ours c i hmem
      obtain ⟨-, sig, -, hparse⟩ := (hann.made _ hc).parse laws
      rw [iterationFor, hparse] at hfor
      simp only [Option.ite_none_right_eq_some] at hfor
      obtain ⟨data', hdec', htracks⟩ := h.deliver laws cbc sign hann hc hfor.1.1 hord
      cases hstep with
      | opened hdec =>
        cases hdec'.symm.trans hdec
        exact htracks
      | notOpened hdec => cases hdec'.symm.trans hdec

/-- The state is tracked along every orderly run. -/
theorem Tracks.run (laws : w.Laws) (cbc : s.CbcLaws) (sign : s.SignLaws)
    (hann : Announced s w st0 after) {g g' : Receiver} (h : Tracks s w st0 maxStates [] g.data)
    (hrun : Run (Receives s w name) g es g') (hord : Orderly s w st0 after maxStates es) :
    Tracks s w st0 maxStates es g'.data := by
  induction hrun with
  | nil => exact h
  | snoc _ hstep ih => exact (ih hord.init).step laws cbc sign hann hstep hord

end Step

/-! ## Agreement -/

/-- The parser gives back every field that was put into the bytes, and the bytes that were
signed. -/
def Sent.Parses (s : Suite) (w : Protowire) : Sent → Prop
  | .distribution st bytes =>
      parseDistributionMessage s.toPrims w bytes = .ok st.distributionMessage
  | .message st plaintext ciphertext => ∃ rnd, ∃ sig : ByteArr 64,
      s.xeddsaSign rnd st.signingPrivateSeed ((st.outgoing s plaintext).signedBytes w) =
        .ok sig.toBytes ∧
      parseSenderKeyMessage w ciphertext =
        .ok ({ st.outgoing s plaintext with signature := sig },
          (st.outgoing s plaintext).signedBytes w)

theorem Sent.Made.parses (laws : w.Laws) {x : Sent} (h : x.Made s w) : x.Parses s w := by
  cases x with
  | distribution st bytes =>
    obtain ⟨hst, rfl⟩ := h
    exact parseDistributionMessage_serialize laws hst.version hst.valid
  | message st plaintext ciphertext => exact h.parse laws

/-- The receiver right after it has processed the distribution message. -/
theorem tracks_processed (st0 : State) {r0 : Record} (hfits : r0.Fits) :
    Tracks s w st0 r0.maxStates []
      (some (r0.setState st0.distributionMessage.receivingState).serialize) := by
  have hplaced := placed_setState hfits (receivingState_fits st0.distributionMessage)
  have hcomplete : Complete s.toPrims st0.distributionMessage.receivingState.chainKey _ [] :=
    complete_start rfl
  exact ⟨_, _, loadRecord_serialize hplaced.fits, hplaced, rfl, rfl, rfl, hcomplete⟩

/-- **Group agreement.** A sender creates, rotates and encrypts in any order, and its distribution
ids are distinct. Everything it gives out is parsed back as it was made. A receiver, whatever its
record, can process each of the distribution messages; and then every message the sender encrypted
afterwards under that state is opened to its plaintext, whatever the receiver does in between, as
long as the deliveries are orderly. -/
theorem group_agreement (s : Suite) (w : Protowire) (name name' : SenderKeyName) (laws : w.Laws)
    (cbc : s.CbcLaws) (sign : s.SignLaws) (hvalid : KeysValid s) (calls : List SenderEvent)
    (g : Sender)
    (hsender : Run (fun g e g' => Sends s w name g e g' ∧ FreshID g e) .start calls g) :
    (∀ x ∈ g.log, x.Parses s w) ∧
    ∀ before st₀ distribution after,
      g.log = before ++ .distribution st₀ distribution :: after →
    ∀ data₀ r₀, loadRecord data₀ = .ok r₀ →
    ∃ data, process s w data₀ distribution = .ok data ∧
      ∀ es g', Run (Receives s w name') { data := some data, opened := [] } es g' →
      ∀ st plaintext ciphertext, .message st plaintext ciphertext ∈ after → st.ids = st₀.ids →
        Orderly s w st₀ after r₀.maxStates (es ++ [.decrypt ciphertext]) →
        ∃ data', decrypt s w name' g'.data ciphertext = .ok (plaintext, data') := by
  have hok := SenderOk.run hvalid hsender
  refine ⟨fun x hx => (hok.made x hx).parses laws, ?_⟩
  intro before st₀ distribution after hlog data₀ r₀ hload
  have hann := hok.announced hlog
  have hparse : parseDistributionMessage s.toPrims w distribution = .ok st₀.distributionMessage :=
    (hok.made (.distribution st₀ distribution) (by rw [hlog]; simp)).parses laws
  refine ⟨_, by rw [process, hparse, hload]; rfl, ?_⟩
  intro es g' hrun st plaintext ciphertext hmem hids hord
  have htracks := Tracks.run laws cbc sign hann (tracks_processed st₀ (loadRecord_fits hload)) hrun
    hord.init
  obtain ⟨data', hdec, -⟩ := htracks.deliver laws cbc sign hann hmem hids hord
  exact ⟨data', hdec⟩

/-! ## Two messages out of order -/

def sampleRandomness : SendingRandomness where
  keyID := .ok 1
  distributionID := .ok .zero
  seed := .ok (Key.fill 1)
  signingKey := .ok (Key.fill 2)

/-- The state `Create` makes of it, when its chain is at an iteration and a seed. -/
def sampleSendingState (iteration : UInt32) (seed : Key) : State where
  messageVersion := 3
  distributionID := .zero
  keyID := 1
  chainIteration := iteration
  chainSeed := seed
  signingPublic := (toyPair 2).publicKey
  signingPrivateSeed := Key.fill 2
  hasPrivate := true
  messageKeys := []

def sampleSendingRecord (iteration : UInt32) (seed : Key) : Record where
  states := [sampleSendingState iteration seed]
  maxStates := 5

theorem create_sample :
    create toySuite varintWire sampleRandomness none =
      .ok ((sampleSendingState 0 (Key.fill 1)).distributionMessage.serialize varintWire,
        some (sampleSendingRecord 0 (Key.fill 1)).serialize) := rfl

theorem load_sampleSendingRecord (iteration : UInt32) (seed : Key) :
    loadRecord (some (sampleSendingRecord iteration seed).serialize) =
      .ok (sampleSendingRecord iteration seed) := by
  refine loadRecord_serialize ⟨Nat.zero_lt_succ 4, show 5 < 2 ^ 16 by decide,
    Nat.succ_le_succ (Nat.zero_le 4), fun st hst => ?_⟩
  rw [List.mem_singleton.mp hst]
  exact ⟨Nat.zero_le _, nofun⟩

theorem currentState_sample (iteration : UInt32) (seed : Key) :
    currentState (some (sampleSendingRecord iteration seed).serialize) =
      some (sampleSendingState iteration seed) := by
  rw [currentState, load_sampleSendingRecord]
  rfl

theorem toySuite_keysValid : KeysValid toySuite := by
  intro rnd kp _
  rw [isValidPublicKey_iff]
  refine ⟨_, if_neg fun heq => ?_⟩
  have hlast := congrArg (fun k : Key => k.toBytes.getLastD 0) heq
  revert hlast
  simp [ByteArr.toBytes, ByteArr.zero]

/-- A sender creates a state and encrypts two messages. A receiver without a record processes the
distribution message and opens the second message and then the first. -/
theorem group_agreement_sample :
    ∃ calls g distribution st₁ st₂ c₁ c₂,
      Run (fun g e g' => Sends toySuite varintWire sampleName g e g' ∧ FreshID g e)
        .start calls g ∧
      g.log = [.distribution st₁ distribution, .message st₁ [1, 2, 3] c₁, .message st₂ [4] c₂] ∧
      ∃ data data₁ data₂, process toySuite varintWire none distribution = .ok data ∧
        decrypt toySuite varintWire sampleName (some data) c₂ = .ok ([4], data₁) ∧
        decrypt toySuite varintWire sampleName (some data₁) c₁ = .ok ([1, 2, 3], data₂) := by
  obtain ⟨c₁, c₂, seed, stored, henc₁, henc₂⟩ : ∃ c₁ c₂ seed stored,
      encrypt toySuite varintWire sampleName []
        (some (sampleSendingRecord 0 (Key.fill 1)).serialize) [1, 2, 3] =
          .ok (c₁, (sampleSendingRecord 1 seed).serialize) ∧
      encrypt toySuite varintWire sampleName [] (some (sampleSendingRecord 1 seed).serialize) [4] =
        .ok (c₂, stored) := by
    simp only [encrypt, load_sampleSendingRecord, ok_bind]
    exact ⟨_, _, _, _, rfl, rfl⟩
  have hrun : Run (fun g e g' => Sends toySuite varintWire sampleName g e g' ∧ FreshID g e) .start
      [.create sampleRandomness, .encrypt [] [1, 2, 3], .encrypt [] [4]] _ :=
    .snoc (.snoc (.single ⟨.created create_sample (currentState_sample _ _), trivial⟩)
      ⟨.encrypted (currentState_sample _ _) henc₁, trivial⟩)
      ⟨.encrypted (currentState_sample _ _) henc₂, trivial⟩
  refine ⟨_, _, _, _, _, c₁, c₂, hrun, rfl, ?_⟩
  obtain ⟨hparses, hopen⟩ := group_agreement toySuite varintWire sampleName sampleName
    varintWire_laws toySuite_cbcLaws toySuite_signLaws toySuite_keysValid _ _ hrun
  obtain ⟨-, sig₁, -, hparse₁⟩ :=
    hparses (.message (sampleSendingState 0 (Key.fill 1)) [1, 2, 3] c₁) (by simp)
  obtain ⟨-, sig₂, -, hparse₂⟩ := hparses (.message (sampleSendingState 1 seed) [4] c₂) (by simp)
  -- the two messages are for iterations 1 and 0 of the chain
  have hdel : deliveries varintWire (sampleSendingState 0 (Key.fill 1)).ids 0
      [.decrypt c₂, .decrypt c₁] = [(c₂, 1), (c₁, 0)] := by
    simp only [deliveries, List.filterMap_cons, List.filterMap_nil, iterationFor, hparse₁, hparse₂]
    rfl
  obtain ⟨data, hproc, hdecrypt⟩ := hopen [] _ _ [_, _] rfl none (newRecord 0) rfl
  have hord : Orderly toySuite varintWire (sampleSendingState 0 (Key.fill 1))
      [.message (sampleSendingState 0 (Key.fill 1)) [1, 2, 3] c₁,
        .message (sampleSendingState 1 seed) [4] c₂] (newRecord 0).maxStates
      [.decrypt c₂, .decrypt c₁] :=
    { others := List.not_mem_nil
      room := Nat.zero_lt_succ 4
      ours := fun c i hmem => by
        rw [show (sampleSendingState 0 (Key.fill 1)).chainIteration = 0 from rfl, hdel] at hmem
        rcases List.mem_pair.mp hmem with heq | heq
        · cases heq
          exact ⟨_, _, List.mem_cons_of_mem _ (List.mem_singleton_self _)⟩
        · cases heq
          exact ⟨_, _, List.mem_cons_self⟩
      once := by
        rw [show (sampleSendingState 0 (Key.fill 1)).chainIteration = 0 from rfl, hdel]
        simp
      window := fun ds hds => by
        rw [show (sampleSendingState 0 (Key.fill 1)).chainIteration = 0 from rfl, hdel,
          ← List.mem_inits] at hds
        simp only [List.inits, List.map_cons, List.map_nil, List.mem_cons] at hds
        rcases hds with rfl | rfl | rfl | hnil
        · decide
        · show (outstanding 0 [1]).length ≤ maxMessageKeysPerState
          decide
        · show (outstanding 0 [1, 0]).length ≤ maxMessageKeysPerState
          decide
        · cases hnil }
  obtain ⟨data₁, hsecond⟩ := hdecrypt [] _ .nil (sampleSendingState 1 seed) [4] c₂
    (List.mem_cons_of_mem _ (List.mem_singleton_self _)) rfl hord.init
  obtain ⟨data₂, hfirst⟩ := hdecrypt [.decrypt c₂] _ (.single (.opened hsecond)) _ [1, 2, 3] c₁
    List.mem_cons_self rfl hord
  exact ⟨data, data₁, data₂, hproc, hsecond, hfirst⟩

end SignalGo.SenderKeys
