import SignalGo.Ratchet.Serialize
import SignalGo.Session.Record

/-!
# Session records as bytes

`Record.Serialize` and `DeserializeRecord`, over `serializeSession` and `deserializeSession`. A
record is three formats inside each other: the record frames its sessions by their length, a
session frames the states of its two ratchets.

* `deserializeSession_serialize`: a session whose parts fit their length fields comes back
  from its bytes, without its post-quantum ratchet if that was disabled.
* `deserializeRecord_serialize`: so does a record of such sessions.
-/

namespace SignalGo.Session

open Decoder

variable (p : Prims)

/-- `fmt.Errorf("%w: record: …", signalerrors.ErrInvalidMessage)`. -/
abbrev recordErr (msg : String) : Err := invalid s!"record: {msg}"

/-! ## Encoding -/

/-- The letters `SIGR`. -/
def recordSerializeMagic : Bytes := [0x53, 0x49, 0x47, 0x52]

def recordSerializeVersion : UInt8 := 1

def recordMinSize : Nat := 4 + 1 + 2 + 4 + 2

def sessionSerializeVersion : UInt8 := 2

def sessionIdentitySize : Nat := 1 + 32 + 32

/-- A block behind its length. -/
def framed (block : Bytes) : Bytes := putUint32 (.ofNat block.length) ++ block

/-- A previous state; a nil pointer is an empty block. -/
def encodePrevious (state : Option Ratchet.State) : Bytes :=
  framed ((state.map Ratchet.State.serialize).getD [])

/-- The version as it is stored: zero stands for `CurrentVersion`. -/
def storedVersion (version : UInt8) : UInt8 := if version = 0 then currentVersion else version

def serializeSession (session : Session) : Bytes :=
  [sessionSerializeVersion, storedVersion session.version]
    ++ session.localIdentity.serialize
    ++ session.remoteIdentity.serialize
    ++ framed session.associatedData
    ++ framed ((session.pqrState.map Spqr.State.serialize).getD [])
    ++ framed session.ratchetState.serialize
    ++ putUint32 (.ofNat session.previousStates.length)
    ++ session.previousStates.flatMap encodePrevious

/-- `Serialize`. -/
def Record.serialize (r : Record) : Bytes :=
  let maxArchived := if r.maxArchived = 0 then defaultMaxArchivedSessions else r.maxArchived
  let archived := r.archived.take maxArchived
  recordSerializeMagic
    ++ [recordSerializeVersion]
    ++ putUint16 (.ofNat maxArchived)
    ++ framed (serializeSession r.current)
    ++ putUint16 (.ofNat archived.length)
    ++ archived.flatMap fun session => framed (serializeSession session)

/-! ## Decoding -/

def readIdentity (truncated : String) : Decoder Err IdentityKey := do
  need sessionIdentitySize (recordErr truncated)
  let raw ← bytes sessionIdentitySize
  lift ((deserializeIdentityKey p raw).mapError fun e => .err (recordErr e.text))

/-- A block behind its length, which may be empty. -/
def readBlock (truncated bad : String) : Decoder Err Bytes := do
  need 4 (recordErr truncated)
  let len ← u32
  need len.toNat (recordErr bad)
  bytes len.toNat

/-- A block behind its length, which may not be empty. -/
def readNonEmpty (truncated bad : String) : Decoder Err Bytes := do
  need 4 (recordErr truncated)
  let len ← u32
  if len = 0 then fail (recordErr bad)
  else do
    need len.toNat (recordErr bad)
    bytes len.toNat

def parsePQR (block : Bytes) : Except (Fault Err) (Option Spqr.State) :=
  if block.length > 0 then Spqr.deserializeState block else .ok none

/-- The post-quantum ratchet; version 1 of the format does not have it. -/
def readPQR (ver : UInt8) : Decoder Err (Option Spqr.State) :=
  if ver = sessionSerializeVersion then do
    let block ← readBlock "session truncated pqr length" "session invalid pqr length"
    lift (parsePQR block)
  else return none

/-- A previous state; no bytes are a nil pointer. -/
def parsePrevious (block : Bytes) : Except (Fault Err) (Option Ratchet.State) :=
  if block.length = 0 then .ok none else some <$> Ratchet.deserializeState block

def readPrevious : Decoder Err (Option Ratchet.State) := do
  let block ← readBlock "session truncated previous length" "session invalid previous length"
  lift (parsePrevious block)

def readPreviousStates : Decoder Err (List (Option Ratchet.State)) := do
  need 4 (recordErr "session truncated previous count")
  let prevCount ← u32
  if prevCount.toNat > 1000 then fail (recordErr "session invalid previous count")
  else many readPrevious prevCount.toNat

def readSession : Decoder Err Session := do
  let ver ← u8
  if ver ≠ 1 ∧ ver ≠ sessionSerializeVersion then
    fail (recordErr s!"session unsupported version {ver}")
  else do
    let version ← u8
    let localIdentity ← readIdentity p "session truncated local identity"
    let remoteIdentity ← readIdentity p "session truncated remote identity"
    let associatedData ← readBlock "session truncated ad length" "session invalid ad length"
    let pqrState ← readPQR ver
    let block ← readNonEmpty "session truncated state length" "session invalid state length"
    let ratchetState ← lift (Ratchet.deserializeState block)
    let previousStates ← readPreviousStates
    return {
      ratchetState, pqrState, localIdentity, remoteIdentity, associatedData, previousStates
      version := storedVersion version }

def deserializeSession (data : Bytes) : Except (Fault Err) Session :=
  if data.length < 1 + 1 + sessionIdentitySize * 2 + 4 then
    .error (.err (recordErr "session too short"))
  else (readSession p).run (recordErr "session trailing data") data

/-- The loop over the archived sessions: those beyond the limit are skipped unread. -/
def readArchived (maxArchived : Nat) : Nat → List Session → Decoder Err (List Session)
  | 0, archived => return archived
  | n + 1, archived => do
      let block ← readNonEmpty "truncated archived length" "invalid archived length"
      if archived.length < maxArchived then do
        let session ← lift (deserializeSession p block)
        readArchived maxArchived n (archived ++ [session])
      else readArchived maxArchived n archived

/-- The number of archived sessions is read without a check that its bytes are there. -/
def readRecord : Decoder Err Record := do
  let _ ← bytes 4
  let version ← u8
  if version ≠ recordSerializeVersion then fail (recordErr s!"unsupported version {version}")
  else do
    need (2 + 4 + 2) (recordErr "truncated header")
    let limit ← u16
    let maxArchived := if limit = 0 then defaultMaxArchivedSessions else limit.toNat
    let block ← readNonEmpty "truncated header" "invalid current length"
    let current ← lift (deserializeSession p block)
    let archivedCount ← u16
    let archived ← readArchived p maxArchived archivedCount.toNat []
    return { current := current, archived, maxArchived }

def deserializeRecord (data : Bytes) : Except (Fault Err) Record :=
  if data.length = 0 then .error (.err (recordErr "empty data"))
  else if data.length < recordMinSize ∨ data.take 4 ≠ recordSerializeMagic then
    .error (.err (recordErr "unsupported format"))
  else (readRecord p).run (recordErr "trailing data") data

/-! ## What fits -/

/-- What becomes of a state of the post-quantum ratchet: a disabled one has no bytes. -/
def restoredPQR (state : Option Spqr.State) : Option Spqr.State :=
  state.bind fun st => if st.version = Spqr.versionDisabled then none else some st

/-- The session as it comes back from its bytes. -/
def restored (session : Session) : Session :=
  { session with pqrState := restoredPQR session.pqrState }

def Record.restored (r : Record) : Record :=
  { r with current := r.current.restored, archived := r.archived.map Session.restored }

/-- The parts of the session fit the limits of the decoder. -/
structure Fits (session : Session) : Prop where
  localIdentity : isValidPublicKey p session.localIdentity.publicKey = true
  remoteIdentity : isValidPublicKey p session.remoteIdentity.publicKey = true
  version : session.version ≠ 0
  ratchet : session.ratchetState.Fits
  pqr : ∀ st, session.pqrState = some st → st.version ≠ Spqr.versionDisabled →
    Spqr.deserializeState st.serialize = .ok (some st)
  previousCount : session.previousStates.length ≤ 1000
  previous : ∀ st, some st ∈ session.previousStates → st.Fits
  size : (serializeSession session).length < 2 ^ 32

variable {p}

theorem decodable_identity {key : IdentityKey} (truncated : String)
    (h : isValidPublicKey p key.publicKey = true) :
    Decodable (readIdentity p truncated) key.serialize key := by
  refine .need (le_of_eq (IdentityKey.length_serialize key).symm) ?_
  refine (Decodable.bytes (IdentityKey.length_serialize key)).parsed ?_
  rw [deserializeIdentityKey_serialize h]
  rfl

theorem toNat_length {b : Bytes} (h : b.length < 2 ^ 32) :
    (UInt32.ofNat b.length).toNat = b.length := UInt32.toNat_ofNat_of_lt' h

theorem decodable_block {b : Bytes} (truncated bad : String) (h : b.length < 2 ^ 32) :
    Decodable (readBlock truncated bad) (framed b) b := by
  refine .need (by simp [framed]) (.bind (.u32 _) ?_)
  rw [toNat_length h]
  exact .need le_rfl (Decodable.bytes rfl)

theorem ofNat_length_ne_zero {b : Bytes} (h : b.length < 2 ^ 32) (hne : b ≠ []) :
    UInt32.ofNat b.length ≠ 0 := by
  intro heq
  have hlen := congrArg UInt32.toNat heq
  rw [toNat_length h] at hlen
  exact hne (List.eq_nil_of_length_eq_zero hlen)

theorem decodable_nonEmpty {b : Bytes} (truncated bad : String) (h : b.length < 2 ^ 32)
    (hne : b ≠ []) : Decodable (readNonEmpty truncated bad) (framed b) b := by
  refine .need (by simp [framed]) (.bind (.u32 _) ?_)
  rw [if_neg (ofNat_length_ne_zero h hne), toNat_length h]
  exact .need le_rfl (Decodable.bytes rfl)

/-- A block is no longer than what it is framed in. -/
theorem length_framed (b : Bytes) : (framed b).length = 4 + b.length := by
  simp [framed]

theorem serialize_ne_nil (st : Ratchet.State) : st.serialize ≠ [] := by
  simp [Ratchet.State.serialize]

theorem parsePQR_serialize {state : Option Spqr.State}
    (h : ∀ st, state = some st → st.version ≠ Spqr.versionDisabled →
      Spqr.deserializeState st.serialize = .ok (some st)) :
    parsePQR ((state.map Spqr.State.serialize).getD []) = .ok (restoredPQR state) := by
  cases state with
  | none => rfl
  | some st =>
    by_cases hdis : st.version = Spqr.versionDisabled
    · have hnil : st.serialize = [] := by rw [Spqr.State.serialize, if_pos hdis]
      simp [parsePQR, restoredPQR, hdis, hnil]
    · have hround := h st rfl hdis
      have hne : st.serialize ≠ [] := by
        intro hnil
        rw [hnil] at hround
        cases hround
      simp [parsePQR, restoredPQR, hdis, List.length_pos_iff.mpr hne, hround]

theorem parsePrevious_serialize {state : Option Ratchet.State}
    (h : ∀ st, state = some st → st.Fits) :
    parsePrevious ((state.map Ratchet.State.serialize).getD []) = .ok state := by
  cases state with
  | none => rfl
  | some st =>
    have hne : st.serialize.length ≠ 0 :=
      fun h => serialize_ne_nil st (List.eq_nil_of_length_eq_zero h)
    simp only [parsePrevious, Option.map_some, Option.getD_some, hne, if_false,
      Ratchet.deserializeState_serialize (h st rfl)]
    rfl

/-- A block of a list of blocks is no longer than the list. -/
theorem length_le_flatMap {α : Type} {encode : α → Bytes} {x : α} {l : List α} (h : x ∈ l) :
    (encode x).length ≤ (l.flatMap encode).length := by
  rw [List.length_flatMap]
  exact List.le_sum_of_mem (List.mem_map_of_mem h)

theorem decodable_previousStates {states : List (Option Ratchet.State)}
    (hcount : states.length ≤ 1000) (hfits : ∀ st, some st ∈ states → st.Fits)
    (hsize : (states.flatMap encodePrevious).length < 2 ^ 32) :
    Decodable readPreviousStates
      (putUint32 (.ofNat states.length) ++ states.flatMap encodePrevious) states := by
  have hlen : (UInt32.ofNat states.length).toNat = states.length :=
    UInt32.toNat_ofNat_of_lt' (lt_of_le_of_lt hcount (by decide))
  have hmany : Decodable (many readPrevious states.length) (states.flatMap encodePrevious)
      (states.map id) := by
    refine .many fun state hmem => (decodable_block _ _ ?_).parsed
      (parsePrevious_serialize fun st hst => hfits st (hst ▸ hmem))
    have hle : (encodePrevious state).length ≤ _ := length_le_flatMap hmem
    rw [encodePrevious, length_framed] at hle
    omega
  rw [List.map_id] at hmany
  refine .need (by simp) (.bind (.u32 _) ?_)
  rw [hlen, if_neg (by omega)]
  exact hmany

theorem storedVersion_of_ne {version : UInt8} (h : version ≠ 0) : storedVersion version = version :=
  if_neg h

/-- **A session comes back from its bytes.** -/
theorem deserializeSession_serialize {session : Session} (h : session.Fits p) :
    deserializeSession p (serializeSession session) = .ok session.restored := by
  have hsize := h.size
  -- the parts, with the lengths of their blocks
  have hlen : (serializeSession session).length =
      2 + 65 + 65 + (4 + session.associatedData.length)
        + (4 + ((session.pqrState.map Spqr.State.serialize).getD []).length)
        + (4 + session.ratchetState.serialize.length)
        + 4 + (session.previousStates.flatMap encodePrevious).length := by
    simp only [serializeSession, List.length_append, length_framed, IdentityKey.length_serialize,
      length_putUint32, List.length_cons, List.length_nil]
  have hprev := decodable_previousStates h.previousCount h.previous (by omega)
  have hread : Decodable (readSession p) (serializeSession session) session.restored := by
    simp only [serializeSession, List.append_assoc]
    show Decodable _ ([sessionSerializeVersion] ++ ([storedVersion session.version] ++ _)) _
    refine .bind (.u8 _) ?_
    rw [if_neg (by decide), storedVersion_of_ne h.version]
    refine .bind (.u8 _) ((decodable_identity _ h.localIdentity).bind
      ((decodable_identity _ h.remoteIdentity).bind ((decodable_block _ _ (by omega)).bind ?_)))
    refine .bind (((decodable_block _ _ (by omega)).parsed (parsePQR_serialize h.pqr))) ?_
    refine (decodable_nonEmpty _ _ (by omega) (serialize_ne_nil _)).bind ?_
    refine .lift_bind (Ratchet.deserializeState_serialize h.ratchet) ?_
    rw [storedVersion_of_ne h.version]
    exact hprev.ret fun previousStates => ({
      ratchetState := session.ratchetState
      pqrState := restoredPQR session.pqrState
      localIdentity := session.localIdentity
      remoteIdentity := session.remoteIdentity
      associatedData := session.associatedData
      previousStates
      version := session.version } : Session)
  rw [deserializeSession, if_neg (by simp only [sessionIdentitySize]; omega)]
  exact hread.run _

/-- A record whose archive is within a limit that fits its field, and whose sessions fit. -/
structure Record.Fits (p : Prims) (r : Record) : Prop where
  positive : 0 < r.maxArchived
  limit : r.maxArchived < 2 ^ 16
  bounded : r.archived.length ≤ r.maxArchived
  sessions : ∀ session ∈ r.sessions, session.Fits p

theorem serializeSession_ne_nil (session : Session) : serializeSession session ≠ [] := by
  simp [serializeSession]

/-- One session in its frame, up to the decoding of its block. -/
theorem decodable_framedSession {session : Session} (truncated bad : String)
    (h : session.Fits p) :
    Decodable (readNonEmpty truncated bad) (framed (serializeSession session))
      (serializeSession session) :=
  decodable_nonEmpty truncated bad h.size (serializeSession_ne_nil session)

theorem decodable_archived {maxArchived : Nat} {sessions : List Session}
    (h : ∀ session ∈ sessions, session.Fits p) (archived : List Session)
    (hbound : archived.length + sessions.length ≤ maxArchived) :
    Decodable (readArchived p maxArchived sessions.length archived)
      (sessions.flatMap fun session => framed (serializeSession session))
      (archived ++ sessions.map restored) := by
  -- induction along the sessions that are left; the archive stays below its limit
  induction sessions generalizing archived with
  | nil =>
    rw [List.map_nil, List.append_nil]
    exact .pure archived
  | cons session rest ih =>
    rw [List.length_cons] at hbound
    have hfits := h session List.mem_cons_self
    have hrest := ih (fun s hs => h s (List.mem_cons_of_mem _ hs)) (archived ++ [session.restored])
      (by simp; omega)
    rw [List.append_assoc] at hrest
    refine (decodable_framedSession _ _ hfits).bind ?_
    rw [if_pos (by omega)]
    exact .lift_bind (deserializeSession_serialize hfits) hrest

/-- **A record comes back from its bytes.** -/
theorem deserializeRecord_serialize {r : Record} (h : r.Fits p) :
    deserializeRecord p r.serialize = .ok r.restored := by
  have hzero : r.maxArchived ≠ 0 := Nat.ne_of_gt h.positive
  have hmax : (UInt16.ofNat r.maxArchived).toNat = r.maxArchived :=
    UInt16.toNat_ofNat_of_lt' h.limit
  have hmax' : UInt16.ofNat r.maxArchived ≠ 0 := by
    intro heq
    rw [heq] at hmax
    exact hzero hmax.symm
  have hcount : (UInt16.ofNat r.archived.length).toNat = r.archived.length :=
    UInt16.toNat_ofNat_of_lt' (lt_of_le_of_lt h.bounded h.limit)
  have hser : r.serialize = recordSerializeMagic ++ ([recordSerializeVersion]
      ++ (putUint16 (.ofNat r.maxArchived) ++ (framed (serializeSession r.current)
        ++ (putUint16 (.ofNat r.archived.length)
          ++ r.archived.flatMap fun session => framed (serializeSession session))))) := by
    simp only [Record.serialize, hzero, if_false, List.take_of_length_le h.bounded,
      List.append_assoc]
  -- the sessions behind their lengths, the archive one after the other
  have hcurrent := h.sessions _ List.mem_cons_self
  have harchived := decodable_archived (p := p)
    (fun session hs => h.sessions session (List.mem_cons_of_mem _ hs)) []
    (show [].length + r.archived.length ≤ r.maxArchived by simpa using h.bounded)
  rw [List.nil_append] at harchived
  have hread : Decodable (readRecord p) r.serialize r.restored := by
    rw [hser]
    refine .bind (.bytes (by decide)) (.bind (.u8 _) ?_)
    rw [if_neg (by decide)]
    refine .need (by simp [framed]; omega) (.bind (.u16 _) ?_)
    simp only [hmax', if_false, hmax]
    refine (decodable_framedSession _ _ hcurrent).bind ?_
    refine .lift_bind (deserializeSession_serialize hcurrent) (.bind (.u16 _) ?_)
    rw [hcount]
    exact harchived.ret fun archived =>
      ({ current := r.current.restored, archived, maxArchived := r.maxArchived } : Record)
  have hmagic : r.serialize.take 4 = recordSerializeMagic := by
    rw [hser]
    exact List.take_left' (by decide)
  have hlen : recordMinSize ≤ r.serialize.length := by
    rw [hser]
    have : recordSerializeMagic.length = 4 := by decide
    simp [recordMinSize, framed, this]
    omega
  rw [deserializeRecord, if_neg (by simp only [recordMinSize] at hlen; omega),
    if_neg (by rw [hmagic]; simp; omega)]
  exact hread.run _

end SignalGo.Session
