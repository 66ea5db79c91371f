import SignalGo.SenderKeys.Cipher
import SignalGo.SenderKeys.Window

/-!
# Replays in a group

A receiver processes distribution messages and decrypts sender-key messages, in any order. What
it has opened is spent in the state with the ids of the message (`SpentBy`), as long as no
distribution message takes that state back to an iteration that was opened before.

* `Receives`: the steps of a receiver, with the messages it has opened.
* `ReceiverOk`: the invariant: the stored record is readable, has one state for each pair of
  ids, and everything opened is spent.
* `group_replay_safe`: no message is opened twice, if every distribution message goes on
  behind what was opened for its ids.
-/

namespace SignalGo.SenderKeys

variable {s : Suite} {w : Protowire} {name : SenderKeyName}

/-! ## Receivers -/

/-- The stored record of a receiver and the messages it has decrypted, oldest first. -/
structure Receiver where
  data : Option Bytes
  opened : List Bytes

/-- A receiver that has seen nothing. -/
def Receiver.start : Receiver where
  data := none
  opened := []

inductive GroupEvent where
  | process (distribution : Bytes)
  | decrypt (ciphertext : Bytes)

/-- One call. A call that fails stores nothing. -/
inductive Receives (s : Suite) (w : Protowire) (name : SenderKeyName) :
    Receiver → GroupEvent → Receiver → Prop where
  | processed {g : Receiver} {distribution data : Bytes} :
      process s w g.data distribution = .ok data →
      Receives s w name g (.process distribution) { g with data := some data }
  | notProcessed {g : Receiver} {distribution : Bytes} {e : Fault Err} :
      process s w g.data distribution = .error e →
      Receives s w name g (.process distribution) g
  | opened {g : Receiver} {ciphertext plaintext data : Bytes} :
      decrypt s w name g.data ciphertext = .ok (plaintext, data) →
      Receives s w name g (.decrypt ciphertext)
        { data := some data, opened := g.opened ++ [ciphertext] }
  | notOpened {g : Receiver} {ciphertext : Bytes} {e : Fault Err} :
      decrypt s w name g.data ciphertext = .error e →
      Receives s w name g (.decrypt ciphertext) g

/-- The message has the ids of the state. -/
def SenderKeyMessage.isFor (m : SenderKeyMessage) (st : State) : Prop :=
  m.distributionID = st.distributionID ∧ m.keyID = st.keyID

/-- A distribution message that goes on behind every message already opened for its ids. -/
def Advances (s : Suite) (w : Protowire) (g : Receiver) : GroupEvent → Prop
  | .decrypt _ => True
  | .process distribution =>
      ∀ msg, parseDistributionMessage s.toPrims w distribution = .ok msg →
        ∀ ct ∈ g.opened, ∀ m signed, parseSenderKeyMessage w ct = .ok (m, signed) →
          m.isFor msg.receivingState → m.iteration < msg.iteration

/-! ## The record -/

/-- Everything opened for the ids of the state is spent in it. -/
def SpentBy (w : Protowire) (opened : List Bytes) (st : State) : Prop :=
  ∀ ct ∈ opened, ∀ m signed, parseSenderKeyMessage w ct = .ok (m, signed) →
    m.isFor st → st.Spent m.iteration

def State.ids (st : State) : ByteArr 16 × UInt32 := (st.distributionID, st.keyID)

variable {st : State}

theorem State.hasIDs_iff {id : ByteArr 16} {keyID : UInt32} :
    st.hasIDs id keyID = true ↔ st.ids = (id, keyID) := by
  simp [State.hasIDs, State.ids, and_comm]

structure RecordOk (p : Prims) (w : Protowire) (opened : List Bytes) (r : Record) : Prop where
  fits : r.Fits
  distinct : (r.states.map State.ids).Nodup
  window : ∀ st ∈ r.states, ∃ start n, WindowOk p start st n
  spent : ∀ st ∈ r.states, SpentBy w opened st

variable {r : Record} {next : State}

theorem mem_setState (h : st ∈ (r.setState next).states) :
    st = next ∨ (st ∈ r.states ∧ st.ids ≠ next.ids) := by
  rcases List.mem_cons.mp (List.mem_of_mem_take h) with rfl | hmem
  · exact .inl rfl
  · obtain ⟨hmem, hids⟩ := List.mem_filter.mp hmem
    refine .inr ⟨hmem, fun heq => ?_⟩
    rw [Bool.not_eq_true', Bool.eq_false_iff] at hids
    exact hids (State.hasIDs_iff.mpr heq)

theorem nodup_setState (h : (r.states.map State.ids).Nodup) :
    ((r.setState next).states.map State.ids).Nodup := by
  have hfilter : (next :: r.states.filter (!·.hasIDs next.distributionID next.keyID)).map
      State.ids |>.Nodup := by
    rw [List.map_cons, List.nodup_cons]
    refine ⟨fun hmem => ?_, h.sublist (List.filter_sublist.map _)⟩
    obtain ⟨st, hst, hids⟩ := List.mem_map.mp hmem
    have hnot := (List.mem_filter.mp hst).2
    rw [Bool.not_eq_true', Bool.eq_false_iff] at hnot
    exact hnot (State.hasIDs_iff.mpr hids)
  exact hfilter.sublist ((List.take_sublist _ _).map _)

theorem fits_setState (h : r.Fits) (hnext : next.Fits) :
    (r.setState next).Fits where
  maxStates_pos := h.maxStates_pos
  maxStates_lt := h.maxStates_lt
  states := List.length_take_le _ _
  fits st hst := by
    rcases mem_setState hst with rfl | ⟨hmem, -⟩
    · exact hnext
    · exact h.fits st hmem

theorem receivingState_fits (msg : DistributionMessage) : msg.receivingState.Fits where
  keys := Nat.zero_le _
  noPrivate _ := rfl

/-- A new state with nothing stored spends everything below its iteration. -/
theorem RecordOk.setState {p : Prims} {opened : List Bytes} (h : RecordOk p w opened r)
    (msg : DistributionMessage) (hspent : SpentBy w opened msg.receivingState) :
    RecordOk p w opened (r.setState msg.receivingState) where
  fits := fits_setState h.fits (receivingState_fits msg)
  distinct := nodup_setState h.distinct
  window st hst := by
    rcases mem_setState hst with rfl | ⟨hmem, -⟩
    · exact ⟨_, 0, windowOk_start rfl rfl⟩
    · exact h.window st hmem
  spent st hst := by
    rcases mem_setState hst with rfl | ⟨hmem, -⟩
    · exact hspent
    · exact h.spent st hmem

/-! ## Writing a state back -/

/-- With one state for each pair of ids, overwriting the first match overwrites the match. -/
theorem update_states (h : (r.states.map State.ids).Nodup) (id : ByteArr 16) (keyID : UInt32)
    (new : State) :
    (r.update id keyID new).states =
      r.states.map fun st => if st.hasIDs id keyID then new else st := by
  rw [Record.update]
  simp only
  generalize r.states = l at h ⊢
  induction l with
  | nil => rfl
  | cons st l ih =>
    rw [List.map_cons, List.nodup_cons] at h
    by_cases hst : st.hasIDs id keyID = true
    · -- The first match: no state behind it has the ids.
      have hrest : l.map (fun x => if x.hasIDs id keyID then new else x) = l := by
        conv_rhs => rw [← List.map_id l]
        refine List.map_congr_left fun x hx => if_neg fun hids => h.1 (List.mem_map.mpr
          ⟨x, hx, (State.hasIDs_iff.mp hids).trans (State.hasIDs_iff.mp hst).symm⟩)
      simp [List.replaceF, hst, hrest]
    · simp [List.replaceF, hst, ih h.2]

theorem Record.state_mem {id : ByteArr 16} {keyID : UInt32} (h : r.state id keyID = .ok st) :
    st ∈ r.states ∧ st.ids = (id, keyID) := by
  rw [Record.state] at h
  split at h
  · cases h
  · rename_i found hfind
    cases h
    have hids := List.find?_some (p := fun x : State => x.hasIDs id keyID) hfind
    exact ⟨List.mem_of_find?_eq_some hfind, State.hasIDs_iff.mp hids⟩

/-- A request changes nothing but the chain and the stored keys. -/
theorem WindowOk.frame {p : Prims} {start : SenderChainKey} {st' : State} {n : Nat} {i : UInt32}
    {key : SenderMessageKey} (h : WindowOk p start st n)
    (hget : getSenderMessageKey p st i = .ok (key, st')) :
    st'.ids = st.ids ∧ st'.hasPrivate = st.hasPrivate ∧
      st'.signingPrivateSeed = st.signingPrivateSeed := by
  rcases getSenderMessageKey_cases h.bounded hget with ⟨-, _, -, -, -, rfl⟩ | ⟨_, -, -, -, -, rfl⟩
  · exact ⟨rfl, rfl, rfl⟩
  · exact ⟨rfl, rfl, rfl⟩

section Decrypted

variable {p : Prims} {opened : List Bytes} {r : Record} {m : SenderKeyMessage}
  {ct signed : Bytes} {st st' : State} {key : SenderMessageKey}

/-- A message that is opened has not been opened before, and it is spent afterwards. -/
theorem RecordOk.decrypted (h : RecordOk p w opened r)
    (hparse : parseSenderKeyMessage w ct = .ok (m, signed))
    (hstate : r.state m.distributionID m.keyID = .ok st)
    (hget : getSenderMessageKey p st m.iteration = .ok (key, st')) :
    ct ∉ opened ∧ RecordOk p w (opened ++ [ct]) (r.update m.distributionID m.keyID st') := by
  obtain ⟨hmem, hids⟩ := Record.state_mem hstate
  obtain ⟨start, n, hwin⟩ := h.window st hmem
  obtain ⟨hwin', -, hnew, hspent⟩ := hwin.request hget
  obtain ⟨hids', hpriv, hseed⟩ := hwin.frame hget
  have hfor : m.isFor st := by
    rw [State.ids, Prod.mk.injEq] at hids
    exact ⟨hids.1.symm, hids.2.symm⟩
  -- A state of the new record is the changed one, or an old one with other ids.
  have hmem' : ∀ x ∈ (r.update m.distributionID m.keyID st').states,
      x = st' ∨ (x ∈ r.states ∧ ¬ m.isFor x) := by
    intro x hx
    rw [update_states h.distinct] at hx
    obtain ⟨old, hold, rfl⟩ := List.mem_map.mp hx
    by_cases hc : old.hasIDs m.distributionID m.keyID = true
    · exact .inl (if_pos hc)
    · rw [if_neg hc]
      refine .inr ⟨hold, fun hm => hc (State.hasIDs_iff.mpr ?_)⟩
      rw [State.ids, hm.1, hm.2]
  refine ⟨fun hct => hnew (h.spent st hmem ct hct m signed hparse hfor), ?_, ?_, ?_, ?_⟩
  · refine ⟨h.fits.maxStates_pos, h.fits.maxStates_lt, ?_, fun x hx => ?_⟩
    · rw [update_states h.distinct, List.length_map]
      exact h.fits.states
    · rcases hmem' x hx with rfl | ⟨hold, -⟩
      · obtain ⟨n', hok⟩ := hwin'
        refine ⟨hok.bounded, fun hp => ?_⟩
        rw [hseed]
        exact (h.fits.fits st hmem).noPrivate (hpriv ▸ hp)
      · exact h.fits.fits x hold
  · rw [update_states h.distinct, List.map_map]
    convert h.distinct using 1
    refine List.map_congr_left fun x _ => ?_
    rw [Function.comp_apply]
    split
    · rename_i hc
      rw [hids', hids, State.hasIDs_iff.mp hc]
    · rfl
  · intro x hx
    rcases hmem' x hx with rfl | ⟨hold, -⟩
    · exact ⟨start, hwin'⟩
    · exact h.window x hold
  · intro x hx ct' hct' m' signed' hparse' hm'
    rcases List.mem_append.mp hct' with hct' | hct'
    · rcases hmem' x hx with rfl | ⟨hold, -⟩
      · refine hspent _ (.inl (h.spent st hmem ct' hct' m' signed' hparse' ?_))
        rw [State.ids, State.ids, Prod.mk.injEq] at hids'
        exact ⟨hm'.1.trans hids'.1, hm'.2.trans hids'.2⟩
      · exact h.spent x hold ct' hct' m' signed' hparse' hm'
    · rw [List.mem_singleton.mp hct', hparse] at hparse'
      cases hparse'
      rcases hmem' x hx with rfl | ⟨-, hnot⟩
      · exact hspent _ (.inr rfl)
      · exact absurd hm' hnot

end Decrypted

/-! ## The receiver -/

/-- The stored record can be read and is in order, and nothing has been opened twice. -/
structure ReceiverOk (p : Prims) (w : Protowire) (g : Receiver) : Prop where
  record : ∃ r, loadRecord g.data = .ok r ∧ RecordOk p w g.opened r
  once : g.opened.Nodup

theorem loadRecord_serialize (h : r.Fits) :
    loadRecord (some r.serialize) = .ok r := by
  have hne : ∃ b bs, r.serialize = b :: bs := ⟨_, _, rfl⟩
  obtain ⟨b, bs, hbytes⟩ := hne
  rw [hbytes, loadRecord, ← hbytes, deserializeRecord_serialize h]
  · rfl
  · simp

theorem receiverOk_start (p : Prims) (w : Protowire) : ReceiverOk p w .start where
  record := ⟨newRecord 0, rfl, {
    fits := ⟨by decide, by decide, by decide, nofun⟩
    distinct := .nil
    window := nofun
    spent := nofun }⟩
  once := .nil

/-- One event of the receiver keeps the invariant. -/
theorem ReceiverOk.step {g g' : Receiver} {e : GroupEvent} (h : ReceiverOk s.toPrims w g)
    (hstep : Receives s w name g e g' ∧ Advances s w g e) : ReceiverOk s.toPrims w g' := by
  obtain ⟨hrecv, hadv⟩ := hstep
  obtain ⟨r, hload, hok⟩ := h.record
  cases hrecv with
  | notProcessed => exact h
  | notOpened => exact h
  | processed hproc =>
    rw [process] at hproc
    obtain ⟨msg, hmsg, hproc⟩ := bind_eq_ok.mp hproc
    rw [hload, ok_bind] at hproc
    cases hproc
    have hparse := mapError_eq_ok.mp hmsg
    -- Below its iteration a state with nothing stored has spent everything.
    have hspent : SpentBy w g.opened msg.receivingState := by
      intro ct hct m signed hm hfor
      exact ⟨hadv msg hparse ct hct m signed hm hfor, by simp [State.storedIterations,
        DistributionMessage.receivingState]⟩
    have hok' := hok.setState msg hspent
    exact ⟨⟨_, loadRecord_serialize hok'.fits, hok'⟩, h.once⟩
  | @opened ct plaintext data hdec =>
    obtain ⟨m, signed, r', st, key, st', hparse, hload', hstate, -, -, hget, -, rfl⟩ :=
      decrypt_eq_ok.mp hdec
    cases hload.symm.trans hload'
    obtain ⟨hnew, hok'⟩ := hok.decrypted hparse hstate hget
    refine ⟨⟨_, loadRecord_serialize hok'.fits, hok'⟩, ?_⟩
    refine List.nodup_append.mpr ⟨h.once, List.nodup_singleton ct, ?_⟩
    rintro a ha b hb rfl
    exact hnew (List.mem_singleton.mp hb ▸ ha)

/-- **Group replay safety.** Over every interleaving of `Process` and `Decrypt` no sender-key
message is decrypted twice, as long as every distribution message goes on behind the messages
already opened for its ids. -/
theorem group_replay_safe (s : Suite) (w : Protowire) (name : SenderKeyName)
    (es : List GroupEvent) (g : Receiver)
    (hrun : Run (fun g e g' => Receives s w name g e g' ∧ Advances s w g e) .start es g) :
    g.opened.Nodup :=
  (hrun.invariant (fun h hstep => h.step hstep) (receiverOk_start s.toPrims w)).once

/-! ## A receiver that is taken back -/

/-- The message of iteration 7 under the chain of `sampleDistribution`, without a plaintext. -/
def sampleGroupMessage : SenderKeyMessage where
  messageVersion := 3
  distributionID := .zero
  keyID := 1
  iteration := 7
  ciphertext := List.replicate 16 16
  signature := .zero

def sampleName : SenderKeyName where
  group := "group".toUTF8.toList
  sender := { name := "sender".toUTF8.toList, device := 1 }

/-- The record with the state of `sampleDistribution`. -/
def sampleRecord : Record where
  states := [sampleDistribution.receivingState]
  maxStates := 5

theorem sampleRecord_fits : sampleRecord.Fits where
  maxStates_pos := by decide
  maxStates_lt := by decide
  states := by decide
  fits st hst := by
    rw [List.mem_singleton.mp hst]
    exact receivingState_fits _

theorem parse_sampleDistribution :
    parseDistributionMessage toySuite.toPrims varintWire (sampleDistribution.serialize varintWire) =
      .ok sampleDistribution :=
  parseDistributionMessage_serialize varintWire_laws rfl (by decide)

/-- Processing the distribution message gives its state at iteration 7, from the empty store and
from any record that has only that state. -/
theorem process_sample {data : Option Bytes} (hload : loadRecord data = .ok r)
    (hr : r.setState sampleDistribution.receivingState = sampleRecord) :
    process toySuite varintWire data (sampleDistribution.serialize varintWire) =
      .ok sampleRecord.serialize := by
  rw [process, parse_sampleDistribution, hload]
  show Except.ok (r.setState sampleDistribution.receivingState).serialize = _
  rw [hr]

/-- The record after the message has been opened. -/
def sampleOpened : Record where
  states := [sampleDistribution.receivingState.passed toyPrims 0]
  maxStates := 5

theorem decrypt_sample :
    decrypt toySuite varintWire sampleName (some sampleRecord.serialize)
      (sampleGroupMessage.serialize varintWire) = .ok ([], sampleOpened.serialize) := by
  have hparse := parseSenderKeyMessage_serialize (m := sampleGroupMessage) varintWire_laws rfl
  have hget : getSenderMessageKey toyPrims sampleDistribution.receivingState 7 = _ :=
    getSenderMessageKey_ahead (g := 0) rfl (by decide) (by decide) (by decide)
  have hrec : decryptWithRecord toySuite sampleName sampleRecord sampleGroupMessage
      (sampleGroupMessage.signedBytes varintWire) = .ok ([], sampleOpened) := by
    have hstate : sampleRecord.state sampleGroupMessage.distributionID sampleGroupMessage.keyID =
        .ok sampleDistribution.receivingState := rfl
    rw [decryptWithRecord, hstate]
    simp only
    rw [if_neg (by decide), if_neg (by decide)]
    show ((getSenderMessageKey toyPrims sampleDistribution.receivingState 7).mapError Fault.err
      >>= _) = _
    rw [hget]
    rfl
  simp only [decrypt, hparse, loadRecord_serialize sampleRecord_fits, Except.mapError, ok_bind]
  rw [if_neg (by decide), hrec]
  rfl

/-- Two steps without the second `Process`: the condition holds, the message is opened once. -/
theorem group_replay_safe_sample :
    ∃ g, Run (fun g e g' => Receives toySuite varintWire sampleName g e g' ∧
        Advances toySuite varintWire g e) .start
        [.process (sampleDistribution.serialize varintWire),
          .decrypt (sampleGroupMessage.serialize varintWire)] g ∧
      g.opened = [sampleGroupMessage.serialize varintWire] ∧ g.opened.Nodup := by
  have h₁ : Receives toySuite varintWire sampleName .start
      (.process (sampleDistribution.serialize varintWire)) ⟨some sampleRecord.serialize, []⟩ :=
    .processed (process_sample rfl rfl)
  have h₂ : Receives toySuite varintWire sampleName ⟨some sampleRecord.serialize, []⟩
      (.decrypt (sampleGroupMessage.serialize varintWire)) ⟨some sampleOpened.serialize, _⟩ :=
    .opened decrypt_sample
  have hadv : Advances toySuite varintWire .start
      (.process (sampleDistribution.serialize varintWire)) := nofun
  refine ⟨_, (Run.single ⟨h₁, hadv⟩).snoc ⟨h₂, trivial⟩, rfl, ?_⟩
  exact group_replay_safe toySuite varintWire sampleName _ _
    ((Run.single ⟨h₁, hadv⟩).snoc ⟨h₂, trivial⟩)

/-- Delivered a second time, the distribution message takes the state back to iteration 7, and
the message that was opened is opened again. -/
theorem group_replay_after_redelivery :
    ∃ es g, Run (Receives toySuite varintWire sampleName) .start es g ∧ ¬ g.opened.Nodup := by
  have hopened : sampleOpened.Fits := by
    refine ⟨by decide, by decide, by decide, fun st hst => ?_⟩
    rw [List.mem_singleton.mp hst]
    refine ⟨?_, fun _ => rfl⟩
    rw [State.passed_messageKeys]
    exact length_newest_le _
  have h₁ : Receives toySuite varintWire sampleName .start
      (.process (sampleDistribution.serialize varintWire)) ⟨some sampleRecord.serialize, []⟩ :=
    .processed (process_sample rfl rfl)
  have h₂ : Receives toySuite varintWire sampleName ⟨some sampleRecord.serialize, []⟩
      (.decrypt (sampleGroupMessage.serialize varintWire)) ⟨some sampleOpened.serialize, _⟩ :=
    .opened decrypt_sample
  have h₃ : Receives toySuite varintWire sampleName
      ⟨some sampleOpened.serialize, [sampleGroupMessage.serialize varintWire]⟩
      (.process (sampleDistribution.serialize varintWire))
      ⟨some sampleRecord.serialize, [sampleGroupMessage.serialize varintWire]⟩ :=
    .processed (process_sample (loadRecord_serialize hopened) rfl)
  have h₄ : Receives toySuite varintWire sampleName
      ⟨some sampleRecord.serialize, [sampleGroupMessage.serialize varintWire]⟩
      (.decrypt (sampleGroupMessage.serialize varintWire)) ⟨some sampleOpened.serialize, _⟩ :=
    .opened decrypt_sample
  exact ⟨_, _, (((Run.single h₁).snoc h₂).snoc h₃).snoc h₄, by simp⟩

end SignalGo.SenderKeys
