import SignalGo.SenderKeys.Replay

/-!
# Sender keys: records survive being stored

The encoder cuts what a record may not hold, and the decoder refuses or cuts it again. None of
this happens to a record that the builder and the cipher can make.

* `RecordStep`: one change of a record: a state is installed, a message key is asked for, or
  the sending chain moves on.
* `bounded_record`: the decoder of a record stays inside of its input, for both versions of
  the format.
* `record_survives_storage`: every record reached comes back from its bytes, and
  every input is decoded or refused.
-/

namespace SignalGo.SenderKeys

open Decoder

variable {s : Suite} {p : Prims} {r r' : Record} {st : State} {i : UInt32}

/-! ## The records that are reached -/

/-- The states `setState` is called with: one of a new sending chain, and one made of a
distribution message. -/
inductive State.Built (s : Suite) : State → Prop where
  | sending {rnd : SendingRandomness} {st : State} :
      newSendingState s rnd = .ok st → State.Built s st
  | receiving (msg : DistributionMessage) : State.Built s msg.receivingState

/-- What `getSenderMessageKey` leaves in the state, also when it fails: the keys of the skipped
iterations are stored before the chain turns out to be at its end. -/
def State.afterRequest (p : Prims) (st : State) (i : UInt32) : State :=
  match getSenderMessageKey p st i with
  | .ok (_, st') => st'
  | .error _ =>
      if st.chainIteration > i ∨ (i - st.chainIteration).toNat > maxMessageKeysPerState then st
      else
        match skipMessageKeys p i (i - st.chainIteration).toNat st.chainKey st with
        | .ok (_, st') => st'
        | .error _ => st

inductive RecordEvent where
  | install (next : State)
  | request (distributionID : ByteArr 16) (keyID : UInt32) (iteration : UInt32)
  | advance

inductive RecordStep (s : Suite) : Record → RecordEvent → Record → Prop where
  | install {r : Record} {next : State} :
      State.Built s next → RecordStep s r (.install next) (r.setState next)
  | request {r : Record} {id : ByteArr 16} {kid : UInt32} {st : State} (i : UInt32) :
      r.state id kid = .ok st →
      RecordStep s r (.request id kid i) (r.update id kid (st.afterRequest s.toPrims i))
  | advance {r : Record} {st : State} {older : List State} {next : SenderChainKey} :
      r.states = st :: older → st.chainKey.next s.toPrims = .ok next →
      RecordStep s r .advance
        { r with
          states := { st with chainIteration := next.iteration, chainSeed := next.seed } :: older }

/-! ## They fit their format -/

theorem State.Built.fits (h : State.Built s st) : st.Fits := by
  cases h with
  | receiving msg => exact receivingState_fits msg
  | sending hnew =>
    unfold newSendingState at hnew
    obtain ⟨keyID, -, hnew⟩ := bind_eq_ok.mp hnew
    obtain ⟨distributionID, -, hnew⟩ := bind_eq_ok.mp hnew
    obtain ⟨seed, -, hnew⟩ := bind_eq_ok.mp hnew
    obtain ⟨kp, -, hnew⟩ := bind_eq_ok.mp hnew
    cases hnew
    exact ⟨Nat.zero_le _, nofun⟩

/-- A request changes the chain and the stored keys only, and stores no more than it may. -/
theorem State.Fits.afterRequest (h : st.Fits) (i : UInt32) : (st.afterRequest p i).Fits := by
  unfold State.afterRequest
  split
  case h_1 key st' hget =>
    rcases getSenderMessageKey_cases h.keys hget with ⟨-, found, -, -, -, rfl⟩ |
      ⟨g, -, -, -, -, rfl⟩
    · exact ⟨(List.length_eraseP_le).trans h.keys, h.noPrivate⟩
    · exact ⟨length_newest_le _, h.noPrivate⟩
  case h_2 =>
    split
    · exact h
    · rename_i hahead
      rw [not_or, gt_iff_lt, UInt32.lt_iff_toNat_lt, Nat.not_lt] at hahead
      obtain ⟨g, hi⟩ := Nat.exists_eq_add_of_le hahead.1
      rw [gap_eq hi, skipMessageKeys_eq (k := st.chainKey) hi h.keys]
      exact ⟨length_newest_le _, h.noPrivate⟩

theorem Record.mem_update {id : ByteArr 16} {kid : UInt32} {x : State}
    (hx : x ∈ (r.update id kid st).states) : x = st ∨ x ∈ r.states := by
  rw [Record.update] at hx
  rcases List.exists_or_eq_self_of_replaceF
    (fun old : State => if old.hasIDs id kid then some st else none) r.states with
    heq | ⟨a, a', before, behind, -, hsome, hold, hnew⟩
  · rw [heq] at hx
    exact .inr hx
  · have ha' : a' = st := by
      simp only [Option.ite_none_right_eq_some, Option.some.injEq] at hsome
      exact hsome.2.symm
    rw [hnew, List.mem_append, List.mem_cons, ha'] at hx
    rw [hold, List.mem_append, List.mem_cons]
    tauto

theorem Record.Fits.update (h : r.Fits) {id : ByteArr 16} {kid : UInt32} (hst : st.Fits) :
    (r.update id kid st).Fits where
  maxStates_pos := h.maxStates_pos
  maxStates_lt := h.maxStates_lt
  states := by
    simp only [Record.update, List.length_replaceF]
    exact h.states
  fits := by
    intro x hx
    rcases Record.mem_update hx with rfl | hold
    · exact hst
    · exact h.fits x hold

theorem Record.Fits.step {e : RecordEvent} (h : r.Fits) (hstep : RecordStep s r e r') :
    r'.Fits := by
  cases hstep with
  | install hbuilt => exact fits_setState h hbuilt.fits
  | request i hstate => exact h.update ((h.fits _ (Record.state_mem hstate).1).afterRequest i)
  | advance hstates hnext =>
    refine ⟨h.maxStates_pos, h.maxStates_lt, ?_, ?_⟩
    · have hlen := h.states
      rw [hstates] at hlen
      exact hlen
    · have hall := h.fits
      rw [hstates, List.forall_mem_cons] at hall
      exact List.forall_mem_cons.mpr ⟨⟨hall.1.keys, hall.1.noPrivate⟩, hall.2⟩

/-! ## Foreign bytes -/

theorem bounded_messageKey : Bounded 0 readMessageKey 0 :=
  (Bounded.need _ _).bind fun _ => .bind (.u32 (k := 32)) fun _ =>
    .bind (.array (k := 0) 32) fun _ => .pure _

theorem bounded_messageKeys : Bounded 0 readMessageKeys 0 := by
  refine .bind (.need _ _) fun _ => .bind (.u16 (k := 0)) fun count => ?_
  exact .ite (fun _ => .fail _) fun _ => bounded_messageKey.many _

/-- The flag is within the fixed size of a state; the key behind it has a check of its own. -/
theorem bounded_private : Bounded 1 readPrivate 0 := by
  refine .bind (.u8 (k := 0)) fun flag => .ite (fun _ => .pure none) fun _ => ?_
  refine .ite (fun _ => ?_) fun _ => .fail _
  exact .bind (.need _ _) fun _ => .bind (.array (k := 0) 32) fun _ => .pure _

/-- Both formats have the same fields behind their heads. -/
theorem bounded_stateHead (version : UInt8) :
    Bounded (stateFixedSize version) (readStateHead version) (4 + 4 + 32 + 32 + 1 + 2) := by
  unfold stateFixedSize readStateHead
  split
  · exact .bind (.u8 (k := 16 + (4 + 4 + 32 + 32 + 1 + 2))) fun _ =>
      .bind (.array 16) fun _ => .pure _
  · exact .pure _

theorem bounded_state (version : UInt8) : Bounded 0 (readState version) 0 := by
  refine .bind (.need _ _) fun _ => (bounded_stateHead version).bind fun head => ?_
  refine .bind (.u32 (k := 4 + 32 + 32 + 1 + 2)) fun _ => ?_
  refine .bind (.u32 (k := 32 + 32 + 1 + 2)) fun _ => ?_
  refine .bind (.array (k := 32 + 1 + 2) 32) fun _ => ?_
  refine .bind (.array (k := 1 + 2) 32) fun _ => ?_
  refine (bounded_private.mono (by omega) (Nat.le_refl 0)).bind fun _ => ?_
  exact bounded_messageKeys.bind fun _ => .pure _

theorem bounded_record : Bounded 1 readRecord 0 := by
  refine .bind (.u8 (k := 0)) fun version => .ite (fun _ => .fail _) fun _ => ?_
  refine .bind (.need _ _) fun _ => .bind (.u16 (k := 2)) fun _ => ?_
  refine .bind (.u16 (k := 0)) fun count => ?_
  exact ((bounded_state version).many _).bind fun _ => .pure _

theorem noPanic_deserializeRecord (data : Bytes) : NoPanic (deserializeRecord data) := by
  refine .ite (fun _ => .err _) fun _ => .ite (fun _ => .err _) fun hformat => ?_
  rw [not_or, Nat.not_lt] at hformat
  exact ((Bounded.bytes 4).bind fun _ => bounded_record).run _ (by omega)

/-! ## Storing a record -/

/-- **Sender-key records survive being stored.** A record with a limit of 16 bits comes back from
its bytes as it was, whatever the builder and the cipher did to it before; and whatever bytes are
decoded, the decoder does not read outside of them. -/
theorem record_survives_storage (s : Suite) :
    (∀ (maxStates : Int) (es : List RecordEvent) (r : Record),
      1 ≤ maxStates → maxStates ≤ 65535 → Run (RecordStep s) (newRecord maxStates) es r →
      deserializeRecord r.serialize = .ok r) ∧
    ∀ data : Bytes, NoPanic (deserializeRecord data) := by
  refine ⟨fun maxStates es r hlow hhigh hrun => ?_, noPanic_deserializeRecord⟩
  have hnew : (newRecord maxStates).Fits := by
    have hmax : (newRecord maxStates).maxStates = maxStates.toNat := if_neg (by omega)
    refine ⟨by omega, by omega, Nat.zero_le _, ?_⟩
    simp [newRecord]
  exact deserializeRecord_serialize (hrun.invariant (fun h hstep => h.step hstep) hnew)

/-- A record with the state of a distribution message, two keys of which were passed over, and a
sending chain that has moved on. -/
theorem record_survives_storage_grown : ∃ st r, Run (RecordStep toySuite) (newRecord 5)
      [.install sampleDistribution.receivingState, .request .zero 1 9, .install st, .advance] r ∧
    r.states.map (fun st => (st.chainIteration, st.hasPrivate, st.messageKeys.length)) =
      [(1, true, 0), (10, false, 2)] ∧
    deserializeRecord r.serialize = .ok r := by
  have hnew : newSendingState toySuite ⟨.ok 2, .ok .zero, .ok (Key.fill 1), .ok (Key.fill 2)⟩ =
      .ok _ := rfl
  have hrun : Run (RecordStep toySuite) (newRecord 5)
      [.install sampleDistribution.receivingState, .request .zero 1 9, .install _, .advance] _ :=
    .snoc (.snoc (.snoc (.single (.install (.receiving _))) (.request 9 rfl))
      (.install (.sending hnew))) (.advance rfl rfl)
  exact ⟨_, _, hrun, rfl, (record_survives_storage toySuite).1 5 _ _ (by decide) (by decide) hrun⟩

end SignalGo.SenderKeys
