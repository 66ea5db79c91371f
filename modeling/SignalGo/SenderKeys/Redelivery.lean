import SignalGo.SenderKeys.Replay

/-!
# Distribution messages for ids already known

`Builder.Process` puts a fresh receiving state in the place of the state with the ids of the
distribution message. The fresh state has no private key and no stored keys, and it starts at the
iteration the message names.

* `loadRecord_fits`: every record that can be loaded respects its limits.
* `Record.Opens`: the iterations `Decrypt` finds a key for, with the key.
* `DistributionMessage.Covers`: the message gives all keys that the state could give.
* `redelivery_keeps`: `Process` takes nothing away exactly for a record that cannot encrypt
  and a message that covers a state without a private key.
-/

namespace SignalGo.SenderKeys

open Decoder

variable {s : Suite} {w : Protowire} {p : Prims} {r : Record} {st : State}
  {msg : DistributionMessage}

/-! ## Loaded records -/

theorem returns_messageKeys :
    Returns readMessageKeys fun keys => keys.length ≤ maxMessageKeysPerState := by
  refine .skip fun _ => .skip fun count => .ite (fun _ => .fail _) fun hle => ?_
  have hmany := Returns.many (Returns.any readMessageKey) count.toNat
  intro data pos keys pos' h
  rw [(hmany data pos keys pos' h).1]
  exact Nat.not_lt.mp hle

theorem returns_state (version : UInt8) : Returns (readState version) State.Fits := by
  refine .skip fun _ => .skip fun head => .skip fun keyID => .skip fun chainIteration =>
    .skip fun chainSeed => .skip fun signingPublic => .skip fun signingPrivate =>
    returns_messageKeys.bind fun keys hkeys => .pure ⟨hkeys, fun hnone => ?_⟩
  rw [Option.isSome_eq_false_iff, Option.isNone_iff_eq_none] at hnone
  rw [hnone, Option.getD_none]

theorem returns_record : Returns readRecord Record.Fits := by
  refine .skip fun version => .ite (fun _ => .fail _) fun _ => .skip fun _ =>
    .skip fun maxStates => .skip fun count =>
    ((returns_state version).many count.toNat).bind fun states hstates => .pure ?_
  have hlt := maxStates.toNat_lt
  refine ⟨?_, ?_, List.length_take_le _ _, fun st hst => hstates.2 st (List.mem_of_mem_take hst)⟩
  · show 0 < if maxStates = 0 then defaultMaxStates else maxStates.toNat
    split
    · decide
    · rename_i hne
      exact Nat.pos_of_ne_zero fun hzero => hne (UInt16.toNat_inj.mp hzero)
  · show (if maxStates = 0 then defaultMaxStates else maxStates.toNat) < 2 ^ 16
    split
    · decide
    · exact hlt

/-- The decoder cuts what a record may not hold, so that whatever is loaded can be stored. -/
theorem loadRecord_fits {data : Option Bytes} (h : loadRecord data = .ok r) : r.Fits := by
  have hnew : (newRecord 0).Fits := ⟨by decide, by decide, by decide, by simp [newRecord]⟩
  unfold loadRecord at h
  split at h
  · cases h
    exact hnew
  · cases h
    exact hnew
  · rename_i bytes _
    have hde : deserializeRecord bytes = .ok r := mapError_eq_ok.mp h
    unfold deserializeRecord at hde
    split at hde
    · cases hde
    · split at hde
      · cases hde
      · exact (Returns.skip fun _ => returns_record).run hde

/-! ## What a record can do -/

/-- `getSenderMessageKey` finds `key` for iteration `i`. -/
def State.Opens (p : Prims) (st : State) (i : UInt32) (key : SenderMessageKey) : Prop :=
  ∃ st', getSenderMessageKey p st i = .ok (key, st')

/-- What `Decrypt` has for a message with these ids, version and iteration: the state it looks up
is of this version, checks signatures with `signingPublic` and finds `key`. -/
def Record.Opens (p : Prims) (r : Record) (distributionID : ByteArr 16) (keyID : UInt32)
    (version : UInt8) (signingPublic : Key) (i : UInt32) (key : SenderMessageKey) : Prop :=
  ∃ st, r.state distributionID keyID = .ok st ∧ st.messageVersion = version ∧
    st.signingPublic = signingPublic ∧ st.Opens p i key

/-- The current state has its signing key, which `Encrypt` asks for. -/
def Record.CanEncrypt (r : Record) : Prop := ∃ st older, r.states = st :: older ∧ st.hasPrivate

/-- Every iteration the state has a key for is in reach of the message's chain, which gives the
same key for it. -/
def DistributionMessage.Covers (p : Prims) (msg : DistributionMessage) (st : State) : Prop :=
  ∀ i key, st.Opens p i key → msg.messageVersion = st.messageVersion ∧ msg.iteration ≤ i ∧
    i.toNat - msg.iteration.toNat ≤ maxMessageKeysPerState ∧
    senderKeyAt p { iteration := msg.iteration, seed := msg.chainKey } i = .ok key

/-- Nothing is taken away: the state for the ids has the same private key, a record that could
encrypt still can, and every iteration that could be opened still can, with the same key. -/
structure Kept (p : Prims) (r r' : Record) (distributionID : ByteArr 16) (keyID : UInt32)
    (st : State) : Prop where
  privateKey : ∃ st', r'.state distributionID keyID = .ok st' ∧
    st'.hasPrivate = st.hasPrivate ∧ st'.signingPrivateSeed = st.signingPrivateSeed
  encrypts : r.CanEncrypt → r'.CanEncrypt
  opens : ∀ id kid version signingPublic i key, r.Opens p id kid version signingPublic i key →
    r'.Opens p id kid version signingPublic i key

/-- The key of the last iteration is never released, for the chain could not move on. -/
theorem State.Opens.lt {i : UInt32} {key : SenderMessageKey} (h : st.Opens p i key)
    (hlen : st.messageKeys.length ≤ maxMessageKeysPerState) : i.toNat + 1 < 2 ^ 32 := by
  obtain ⟨st', hget⟩ := h
  rcases getSenderMessageKey_cases hlen hget with ⟨hlt, -⟩ | ⟨g, -, -, hmax, -⟩
  · rw [UInt32.lt_iff_toNat_lt] at hlt
    have := st.chainIteration.toNat_lt
    omega
  · exact hmax

/-- A fresh receiving state has the keys of its chain, as far as it may skip. -/
theorem receivingState_opens {i : UInt32} {key : SenderMessageKey} :
    msg.receivingState.Opens p i key ↔ i.toNat + 1 < 2 ^ 32 ∧ msg.iteration ≤ i ∧
      i.toNat - msg.iteration.toNat ≤ maxMessageKeysPerState ∧
      senderKeyAt p { iteration := msg.iteration, seed := msg.chainKey } i = .ok key := by
  have hlen : msg.receivingState.messageKeys.length ≤ maxMessageKeysPerState := Nat.zero_le _
  constructor
  · intro h
    refine ⟨h.lt hlen, ?_⟩
    obtain ⟨st', hget⟩ := h
    rcases getSenderMessageKey_cases hlen hget with ⟨-, found, hmem, -⟩ | ⟨g, hg, hi, -, rfl, -⟩
    · cases hmem
    · have hi' : i.toNat = msg.iteration.toNat + g := hi
      refine ⟨UInt32.le_iff_toNat_le.mpr (by omega), by omega, ?_⟩
      exact senderKeyAt_eq hi'
  · rintro ⟨hmax, hle, hgap, hkey⟩
    obtain ⟨g, hi⟩ := Nat.exists_eq_add_of_le (UInt32.le_iff_toNat_le.mp hle)
    have hkey' : senderKeyAt p { iteration := msg.iteration, seed := msg.chainKey } i = _ :=
      senderKeyAt_eq hi
    rw [hkey'] at hkey
    cases hkey
    have hget : getSenderMessageKey p msg.receivingState i = _ :=
      getSenderMessageKey_ahead hi (by omega) hmax hlen
    exact ⟨_, hget⟩

/-! ## Installing a state -/

theorem state_setState (hpos : 0 < r.maxStates) (next : State) :
    (r.setState next).state next.distributionID next.keyID = .ok next := by
  obtain ⟨n, hn⟩ := Nat.exists_eq_succ_of_ne_zero hpos.ne'
  have hids : next.hasIDs next.distributionID next.keyID = true := State.hasIDs_iff.mpr rfl
  simp only [Record.state, Record.setState, hn, List.take_succ_cons, List.find?_cons, hids]

/-- The state that is replaced makes the room for the new one. -/
theorem setState_states {next : State} (h : r.Fits)
    (hold : r.state next.distributionID next.keyID = .ok st) :
    (r.setState next).states =
      next :: r.states.filter (!·.hasIDs next.distributionID next.keyID) := by
  obtain ⟨hmem, hids⟩ := Record.state_mem hold
  have hlt : (r.states.filter (!·.hasIDs next.distributionID next.keyID)).length <
      r.states.length := by
    refine List.length_filter_lt_length_iff_exists.mpr ⟨st, hmem, ?_⟩
    simp [State.hasIDs_iff.mpr hids]
  have hroom := h.states
  exact List.take_of_length_le (by rw [List.length_cons]; omega)

/-- The states with other ids are found as before. -/
theorem state_setState_of_ne {next : State} (h : r.Fits)
    (hold : r.state next.distributionID next.keyID = .ok st) {id : ByteArr 16} {kid : UInt32}
    (hne : (id, kid) ≠ next.ids) : (r.setState next).state id kid = r.state id kid := by
  have hnext : next.hasIDs id kid = false := by
    rw [Bool.eq_false_iff]
    exact fun hids => hne (State.hasIDs_iff.mp hids).symm
  have hkeep : ∀ x : State, x.hasIDs id kid = true →
      (!x.hasIDs next.distributionID next.keyID) = true := by
    intro x hx
    rw [Bool.not_eq_true', Bool.eq_false_iff]
    exact fun hids => hne ((State.hasIDs_iff.mp hx).symm.trans (State.hasIDs_iff.mp hids))
  have hfind : (r.states.filter (!·.hasIDs next.distributionID next.keyID)).find?
      (·.hasIDs id kid) = r.states.find? (·.hasIDs id kid) := by
    rw [List.find?_filter]
    congr 1
    funext x
    cases hx : x.hasIDs id kid with
    | false => simp
    | true => simpa using hkeep x hx
  simp only [Record.state, setState_states h hold, List.find?_cons, hnext, hfind]

/-! ## Processing a message for known ids -/

/-- The fresh state is current and has no private key. -/
theorem not_canEncrypt_setState (hpos : 0 < r.maxStates) (msg : DistributionMessage) :
    ¬ (r.setState msg.receivingState).CanEncrypt := by
  rintro ⟨st', older, hstates, hprivate⟩
  obtain ⟨n, hn⟩ := Nat.exists_eq_succ_of_ne_zero hpos.ne'
  simp only [Record.setState, hn, List.take_succ_cons, List.cons.injEq] at hstates
  rw [← hstates.1] at hprivate
  cases hprivate

/-- When the state that a repeated distribution message brings loses nothing. -/
theorem kept_setState_iff (h : r.Fits) (hstate : r.state msg.distributionID msg.keyID = .ok st)
    (hkey : st.signingPublic = msg.signingPublic) :
    Kept p r (r.setState msg.receivingState) msg.distributionID msg.keyID st ↔
      st.hasPrivate = false ∧ ¬ r.CanEncrypt ∧ msg.Covers p st := by
  have hnew : (r.setState msg.receivingState).state msg.distributionID msg.keyID =
      .ok msg.receivingState := state_setState h.maxStates_pos _
  have hfits : st.Fits := h.fits st (Record.state_mem hstate).1
  constructor
  · intro hkept
    refine ⟨?_, fun hcan => not_canEncrypt_setState h.maxStates_pos msg (hkept.encrypts hcan), ?_⟩
    · obtain ⟨st', hst', hprivate, -⟩ := hkept.privateKey
      cases hnew.symm.trans hst'
      exact hprivate.symm
    · intro i key hopens
      obtain ⟨st', hst', hversion, -, hopens'⟩ :=
        hkept.opens _ _ _ _ i key ⟨st, hstate, rfl, rfl, hopens⟩
      cases hnew.symm.trans hst'
      exact ⟨hversion, (receivingState_opens.mp hopens').2⟩
  · rintro ⟨hprivate, hcan, hcovers⟩
    refine ⟨⟨_, hnew, hprivate.symm, (hfits.noPrivate hprivate).symm⟩, fun h' => absurd h' hcan, ?_⟩
    rintro id kid version signingPublic i key ⟨st1, hst1, rfl, rfl, hopens⟩
    by_cases hids : (id, kid) = (msg.distributionID, msg.keyID)
    · -- The replaced state: the message reaches each of its keys.
      cases hids
      cases hstate.symm.trans hst1
      obtain ⟨hversion, hreach⟩ := hcovers i key hopens
      exact ⟨_, hnew, hversion, hkey.symm,
        receivingState_opens.mpr ⟨hopens.lt hfits.keys, hreach⟩⟩
    · exact ⟨st1, (state_setState_of_ne h hstate hids).trans hst1, rfl, rfl, hopens⟩

/-- **Redelivered distribution messages.** For a message whose ids are in the record with the
same signing key `Process` succeeds, and it takes nothing away exactly if the state has no private
key, the record cannot encrypt, and the message covers what the state can open. -/
theorem redelivery_keeps (s : Suite) (w : Protowire) (data : Option Bytes) (distribution : Bytes)
    (msg : DistributionMessage) (r : Record) (st : State)
    (hparse : parseDistributionMessage s.toPrims w distribution = .ok msg)
    (hload : loadRecord data = .ok r) (hstate : r.state msg.distributionID msg.keyID = .ok st)
    (hkey : st.signingPublic = msg.signingPublic) :
    ∃ data' r', process s w data distribution = .ok data' ∧ loadRecord (some data') = .ok r' ∧
      (Kept s.toPrims r r' msg.distributionID msg.keyID st ↔
        st.hasPrivate = false ∧ ¬ r.CanEncrypt ∧ msg.Covers s.toPrims st) := by
  have hfits := loadRecord_fits hload
  have hprocess : process s w data distribution =
      .ok (r.setState msg.receivingState).serialize := by
    rw [process, hparse, hload]
    rfl
  exact ⟨_, _, hprocess, loadRecord_serialize (fits_setState hfits (receivingState_fits msg)),
    kept_setState_iff hfits hstate hkey⟩

/-- Redelivered before anything else, a distribution message changes nothing. -/
theorem redelivery_keeps_at_once :
    ∃ data' r', process toySuite varintWire (some sampleRecord.serialize)
        (sampleDistribution.serialize varintWire) = .ok data' ∧
      loadRecord (some data') = .ok r' ∧
      Kept toyPrims sampleRecord r' .zero 1 sampleDistribution.receivingState := by
  obtain ⟨data', r', hprocess, hload, hiff⟩ := redelivery_keeps toySuite varintWire
    (some sampleRecord.serialize) (sampleDistribution.serialize varintWire) sampleDistribution
    sampleRecord sampleDistribution.receivingState parse_sampleDistribution
    (loadRecord_serialize sampleRecord_fits) rfl rfl
  refine ⟨data', r', hprocess, hload, hiff.mpr ⟨rfl, ?_, fun i key hopens => ⟨rfl, ?_⟩⟩⟩
  · rintro ⟨st, older, hstates, hprivate⟩
    cases hstates
    cases hprivate
  · exact (receivingState_opens.mp hopens).2

/-- The sender's own record behind the state of `sampleDistribution`: with the private key, and
with a stored key of iteration 3. -/
def sampleOwnState : State :=
  { sampleDistribution.receivingState with
    signingPrivateSeed := Key.fill 9
    hasPrivate := true
    messageKeys := [{ iteration := 3, seed := Key.fill 1 }] }

def sampleOwnRecord : Record where
  states := [sampleOwnState]
  maxStates := 5

theorem sampleOwnRecord_fits : sampleOwnRecord.Fits := by
  refine ⟨by decide, by decide, by decide, fun st hst => ?_⟩
  rw [List.mem_singleton.mp hst]
  exact ⟨by decide, nofun⟩

/-- A sender that processes its own distribution message can no longer encrypt, and the stored key
of iteration 3 is gone. -/
theorem redelivery_takes_private_key :
    ∃ data data' distribution : Bytes,
      process toySuite varintWire (some data) distribution = .ok data' ∧
      (∃ ciphertext stored,
        encrypt toySuite varintWire sampleName [] (some data) [] = .ok (ciphertext, stored)) ∧
      encrypt toySuite varintWire sampleName [] (some data') [] =
        .error (.err (invalid "sender key state missing signing private key")) ∧
      (∃ r key, loadRecord (some data) = .ok r ∧ r.Opens toyPrims .zero 1 3 (Key.fill 5) 3 key) ∧
      ∀ r' key, loadRecord (some data') = .ok r' →
        ¬ r'.Opens toyPrims .zero 1 3 (Key.fill 5) 3 key := by
  have hload := loadRecord_serialize sampleOwnRecord_fits
  have hload' := loadRecord_serialize sampleRecord_fits
  refine ⟨_, _, _, process_sample hload rfl, ?_, ?_, ?_, ?_⟩
  · simp only [encrypt, hload, ok_bind]
    exact ⟨_, _, rfl⟩
  · simp only [encrypt, hload', ok_bind]
    rfl
  · exact ⟨_, _, hload, sampleOwnState, rfl, rfl, rfl, _, rfl⟩
  · rintro r' key hr' ⟨st, hst, -, -, hopens⟩
    cases hload'.symm.trans hr'
    cases hst
    exact absurd (receivingState_opens.mp hopens).2.1 (by decide)

end SignalGo.SenderKeys
