import SignalGo.Session.OneWay

/-!
# Session records over pointers

The source's record holds pointers: a message that a session accepts is written into the session
it was tried on, `Promote` compares sessions by their address, filters the archive in place in its
own backing array, and puts fresh clones into the record.

* `filterInPlace`: the loop over the archive, slot by slot.
* `decryptPtr`: the loop over the sessions, on a heap.
* `decryptPtr_refines`: as long as no pointer occurs twice, it does to the sessions what
  `Record.decryptWith` says.
* `LiveRecord`: the records of the package, new ones and those read back from the store.
* `session_selection`: a message is opened exactly when a session is selected for it; that
  session changes, and no other.
-/

namespace SignalGo.Session

/-! ## The heap -/

/-- The sessions in memory; `fresh` is the next address. -/
structure Heap where
  cell : Nat → Session
  fresh : Nat

def Heap.write (h : Heap) (ptr : Nat) (session : Session) : Heap :=
  { h with cell := Function.update h.cell ptr session }

/-- A new object; its address is the old `fresh`. -/
def Heap.alloc (h : Heap) (session : Session) : Heap where
  cell := Function.update h.cell h.fresh session
  fresh := h.fresh + 1

theorem Heap.write_same (h : Heap) (ptr : Nat) (session : Session) :
    (h.write ptr session).cell ptr = session := Function.update_self _ _ _

theorem Heap.write_other (h : Heap) {ptr q : Nat} (session : Session) (hne : q ≠ ptr) :
    (h.write ptr session).cell q = h.cell q := Function.update_of_ne hne _ _

theorem Heap.alloc_same (h : Heap) (session : Session) :
    (h.alloc session).cell h.fresh = session := Function.update_self _ _ _

theorem Heap.alloc_other (h : Heap) {q : Nat} (session : Session) (hlt : q < h.fresh) :
    (h.alloc session).cell q = h.cell q := Function.update_of_ne (Nat.ne_of_lt hlt) _ _

structure PtrRecord where
  current : Nat
  archived : List Nat
  maxArchived : Nat

/-- A record and the memory it points to. -/
structure World where
  heap : Heap
  record : PtrRecord

def PtrRecord.pointers (r : PtrRecord) : List Nat := r.current :: r.archived

/-- The record with the sessions in place of their addresses. -/
def World.view (wd : World) : Record where
  current := wd.heap.cell wd.record.current
  archived := wd.record.archived.map wd.heap.cell
  maxArchived := wd.record.maxArchived

/-- All pointers of the record are allocated, and none occurs twice. -/
structure World.Sane (wd : World) : Prop where
  allocated : ∀ ptr ∈ wd.record.pointers, ptr < wd.heap.fresh
  distinct : wd.record.pointers.Nodup

/-! ## `Promote` -/

/-- The loop of `Promote`: slot `i` of the archive is read, and written to slot `len` of the same
array unless it is the promoted session. -/
def filterLoop (next : Nat) : Nat → Nat → Nat → List Nat → List Nat × Nat
  | 0, _, len, slots => (slots, len)
  | passes + 1, i, len, slots =>
      match slots[i]? with
      | none => (slots, len)
      | some ptr =>
          if ptr = next then filterLoop next passes (i + 1) len slots
          else filterLoop next passes (i + 1) (len + 1) (slots.set len ptr)

/-- The archive without the promoted session: the first `len` slots. The source also clears the
slots behind them, which the record does not reach any more. -/
def filterInPlace (next : Nat) (slots : List Nat) : List Nat :=
  let out := filterLoop next slots.length 0 0 slots
  out.1.take out.2

def promotePtr (next : Nat) (wd : World) : World :=
  let archived := filterInPlace next wd.record.archived
  let heap := wd.heap.alloc (wd.heap.cell wd.record.current).clone
  let heap' := heap.alloc (heap.cell next).clone
  { heap := heap'
    record := {
      current := heap.fresh
      archived := (wd.heap.fresh :: archived).take wd.record.maxArchived
      maxArchived := wd.record.maxArchived } }

/-! ## The loop over the sessions -/

/-- A try on the session behind a pointer: the session is written when it accepts. -/
def tryPtr (attempt : Attempt) (i : Nat) (ptr : Nat) : EStateM (Fault Err) World Bytes := fun wd =>
  match attempt i (wd.heap.cell ptr) with
  | .ok (next, plaintext) => .ok plaintext { wd with heap := wd.heap.write ptr next }
  | .error f => .error f wd

def tryArchivedPtr (attempt : Attempt) (err : Err) :
    Nat → List Nat → EStateM (Fault Err) World Bytes
  | _, [] => Effect.fail (.err err)
  | k, candidate :: rest => fun wd =>
      match tryPtr attempt (k + 1) candidate wd with
      | .ok plaintext wd => .ok plaintext (promotePtr candidate wd)
      | .error (.err e) wd =>
          if e.is .duplicateMessage then .error (.err e) wd
          else tryArchivedPtr attempt err (k + 1) rest wd
      | .error .panic wd => .error .panic wd

def decryptPtr (attempt : Attempt) : EStateM (Fault Err) World Bytes := fun wd =>
  match tryPtr attempt 0 wd.record.current wd with
  | .ok plaintext wd => .ok plaintext wd
  | .error (.err e) wd =>
      if e.is .duplicateMessage then .error (.err e) wd
      else tryArchivedPtr attempt e 0 wd.record.archived wd
  | .error .panic wd => .error .panic wd

/-- `WireCipher.decryptSignalMessage` on the heap. -/
def decryptSignalMessagePtr (s : Suite) (kem : Spqr.Kem) (rnd : Nat → Except String Key)
    (msg : Wire.SignalMessage) : EStateM (Fault Err) World Bytes :=
  decryptPtr (signalAttempt s kem rnd msg)

/-! ## The filter -/

/-- The invariant of the loop: the first `len` slots hold what was kept of the first `i`, and the
slots from `i` on are untouched. The write never overtakes the read. -/
theorem filterLoop_eq (next : Nat) (orig : List Nat) :
    ∀ (passes i len : Nat) (slots : List Nat), i + passes = orig.length → len ≤ i →
      slots.length = orig.length → slots.drop i = orig.drop i →
      slots.take len = (orig.take i).filter (· ≠ next) →
      (filterLoop next passes i len slots).1.take (filterLoop next passes i len slots).2 =
        orig.filter (· ≠ next) := by
  intro passes
  induction passes with
  | zero =>
    intro i len slots hi _ _ _ htake
    rw [filterLoop, htake, List.take_of_length_le (by omega)]
  | succ passes ih =>
    intro i len slots hi hlen hsize hdrop htake
    have hlt : i < orig.length := by omega
    have hget : slots[i]? = some orig[i] := by
      have h := congrArg (·[0]?) hdrop
      simpa [List.getElem?_drop, List.getElem?_eq_getElem hlt] using h
    have htail : slots.drop (i + 1) = orig.drop (i + 1) := by
      have h := congrArg (List.drop 1) hdrop
      simpa [List.drop_drop, Nat.add_comm] using h
    have htakeSucc : orig.take (i + 1) = orig.take i ++ [orig[i]] :=
      List.take_succ_eq_append_getElem hlt
    rw [filterLoop, hget]
    by_cases heq : orig[i] = next
    · simp only [heq, if_true]
      refine ih (i + 1) len slots (by omega) (by omega) hsize htail ?_
      rw [htakeSucc, List.filter_append, htake]
      simp [heq]
    · simp only [heq, if_false]
      refine ih (i + 1) (len + 1) _ (by omega) (by omega) (by simp [hsize]) ?_ ?_
      · -- slot `len` lies before slot `i + 1`
        rw [List.drop_set_of_lt (by omega), htail]
      · rw [htakeSucc, List.filter_append, ← htake,
          List.take_succ_eq_append_getElem (by simp; omega)]
        simp [heq, List.take_set_of_le]

theorem filterInPlace_eq (next : Nat) (slots : List Nat) :
    filterInPlace next slots = slots.filter (· ≠ next) :=
  filterLoop_eq next slots slots.length 0 0 slots (by omega) le_rfl rfl rfl rfl

/-- In an archive without repetitions the filter takes one slot out. -/
theorem filterInPlace_eraseIdx {slots : List Nat} (hnodup : slots.Nodup) {k : Nat} {ptr : Nat}
    (hptr : slots[k]? = some ptr) : filterInPlace ptr slots = slots.eraseIdx k := by
  obtain ⟨hk, rfl⟩ := List.getElem?_eq_some_iff.mp hptr
  rw [filterInPlace_eq, ← hnodup.erase_getElem k hk, hnodup.erase_eq_filter]
  exact List.filter_congr fun x _ => Bool.eq_iff_iff.mpr (by simp)

/-! ## The pointers and the sessions -/

section Refines

variable {attempt : Attempt} {wd : World} {plaintext : Bytes} {next : Session}

/-- The current session accepts: it is written in place. -/
theorem view_write_current (h : wd.Sane) (next : Session) :
    World.view { wd with heap := wd.heap.write wd.record.current next } =
      { wd.view with current := next } := by
  have hnot : wd.record.current ∉ wd.record.archived := (List.nodup_cons.mp h.distinct).1
  have hothers : wd.record.archived.map (wd.heap.write wd.record.current next).cell =
      wd.record.archived.map wd.heap.cell :=
    List.map_congr_left fun q hq => Heap.write_other _ _ fun heq => hnot (heq ▸ hq)
  simp only [World.view, hothers, Heap.write_same]

/-- An archived session accepts: it is written in place, taken out of the archive and cloned to
the front, with a clone of the session it replaces behind it. -/
theorem view_promotePtr (h : wd.Sane) {k : Nat} {ptr : Nat}
    (hptr : wd.record.archived[k]? = some ptr) (next : Session) :
    (promotePtr ptr { wd with heap := wd.heap.write ptr next }).view =
      wd.view.promoteArchived k next := by
  obtain ⟨hcur, harch⟩ := List.nodup_cons.mp h.distinct
  have hmem := List.mem_of_getElem? hptr
  have hne : wd.record.current ≠ ptr := fun heq => hcur (heq ▸ hmem)
  have hlt : ptr < wd.heap.fresh := h.allocated ptr (List.mem_cons_of_mem _ hmem)
  have hrest : ∀ q ∈ wd.record.archived.eraseIdx k, q ≠ ptr ∧ q < wd.heap.fresh := by
    intro q hq
    refine ⟨?_, h.allocated q (List.mem_cons_of_mem _ (List.mem_of_mem_eraseIdx hq))⟩
    rintro rfl
    rw [← filterInPlace_eraseIdx harch hptr, filterInPlace_eq] at hq
    simp at hq
  -- the heap after the write, and after each of the two clones
  generalize hwritten : wd.heap.write ptr next = written
  have hfresh : written.fresh = wd.heap.fresh := by rw [← hwritten]; rfl
  have hcurrent : written.cell wd.record.current = wd.heap.cell wd.record.current := by
    rw [← hwritten, Heap.write_other _ _ hne]
  have hnext : (written.alloc (wd.heap.cell wd.record.current).clone).cell ptr = next := by
    rw [Heap.alloc_other _ _ (by rw [hfresh]; exact hlt), ← hwritten, Heap.write_same]
  generalize hcloned : written.alloc (wd.heap.cell wd.record.current).clone = cloned at hnext
  have hfresh' : cloned.fresh = written.fresh + 1 := by rw [← hcloned]; rfl
  have hcells : (wd.record.archived.eraseIdx k).map (cloned.alloc next.clone).cell =
      (wd.record.archived.eraseIdx k).map wd.heap.cell := by
    refine List.map_congr_left fun q hq => ?_
    obtain ⟨hqne, hqlt⟩ := hrest q hq
    rw [Heap.alloc_other _ _ (by omega), ← hcloned, Heap.alloc_other _ _ (by omega), ← hwritten,
      Heap.write_other _ _ hqne]
  have hfirst : (cloned.alloc next.clone).cell written.fresh =
      (wd.heap.cell wd.record.current).clone := by
    rw [Heap.alloc_other _ _ (by omega), ← hcloned, Heap.alloc_same]
  simp only [promotePtr, World.view, Record.promoteArchived, hcurrent, hcloned, hnext,
    filterInPlace_eraseIdx harch hptr, List.map_take, List.map_cons, hcells, List.eraseIdx_map,
    hfirst, Heap.alloc_same]

/-- The two clones have addresses of their own. -/
theorem sane_promotePtr (h : wd.Sane) {k : Nat} {ptr : Nat}
    (hptr : wd.record.archived[k]? = some ptr) (next : Session) :
    (promotePtr ptr { wd with heap := wd.heap.write ptr next }).Sane := by
  obtain ⟨-, harch⟩ := List.nodup_cons.mp h.distinct
  have hlt : ∀ q ∈ wd.record.archived.eraseIdx k, q < wd.heap.fresh := fun q hq =>
    h.allocated q (List.mem_cons_of_mem _ (List.mem_of_mem_eraseIdx hq))
  have hfilter := filterInPlace_eraseIdx harch hptr
  have hkept : ∀ q ∈ (wd.heap.fresh :: wd.record.archived.eraseIdx k).take wd.record.maxArchived,
      q ≤ wd.heap.fresh := by
    intro q hq
    rcases List.mem_cons.mp (List.mem_of_mem_take hq) with rfl | hq
    · exact le_rfl
    · exact (hlt q hq).le
  constructor
  · intro q hq
    simp only [promotePtr, PtrRecord.pointers, hfilter, List.mem_cons] at hq
    show q < wd.heap.fresh + 1 + 1
    rcases hq with rfl | hq
    · exact Nat.lt_succ_self _
    · have := hkept q hq
      omega
  · simp only [promotePtr, PtrRecord.pointers, hfilter]
    refine List.nodup_cons.mpr ⟨fun hq => ?_, ?_⟩
    · have : wd.heap.fresh + 1 ≤ wd.heap.fresh := hkept _ hq
      omega
    · refine List.Nodup.sublist (List.take_sublist _ _) (List.nodup_cons.mpr ⟨fun hq => ?_, ?_⟩)
      · exact absurd (hlt _ hq) (lt_irrefl _)
      · exact harch.sublist (List.eraseIdx_sublist _ _)

/-- The result of the loop on the heap, next to the result on the sessions. -/
def Refines (wd : World) (res : EStateM.Result (Fault Err) World Bytes)
    (res' : Except (Fault Err) (Record × Bytes)) : Prop :=
  match res with
  | .ok plaintext wd' => res' = .ok (wd'.view, plaintext) ∧ wd'.Sane
  | .error f wd' => res' = .error f ∧ wd' = wd

/-- The loop over the archive, from slot `k` on. -/
theorem tryArchivedPtr_refines (h : wd.Sane) (err : Err) (k : Nat) (ptrs : List Nat)
    (hptrs : wd.record.archived.drop k = ptrs) :
    Refines wd (tryArchivedPtr attempt err k ptrs wd) (do
      let (k, next, plaintext) ← tryArchived attempt err k (ptrs.map wd.heap.cell)
      return (wd.view.promoteArchived k next, plaintext)) := by
  -- induction along the archive; a try that fails leaves the world as it is
  induction ptrs generalizing k with
  | nil => exact ⟨rfl, rfl⟩
  | cons ptr rest ih =>
    have hptr : wd.record.archived[k]? = some ptr := by
      rw [← List.head?_drop, hptrs]
      rfl
    have hrest : wd.record.archived.drop (k + 1) = rest := by
      rw [← List.drop_drop, hptrs]
      rfl
    simp only [List.map_cons, tryArchivedPtr, tryArchived, tryPtr]
    cases hatt : attempt (k + 1) (wd.heap.cell ptr) with
    | ok res =>
      obtain ⟨next, plaintext⟩ := res
      refine ⟨?_, sane_promotePtr h hptr next⟩
      rw [view_promotePtr h hptr next]
      rfl
    | error f =>
      cases f with
      | panic => exact ⟨rfl, rfl⟩
      | err e =>
        simp only
        split
        · exact ⟨rfl, rfl⟩
        · exact ih (k + 1) hrest

/-- **The pointer program does to the sessions what the record says.** -/
theorem decryptPtr_refines (h : wd.Sane) :
    Refines wd (decryptPtr attempt wd) (wd.view.decryptWith attempt) := by
  have hcurrent : wd.view.current = wd.heap.cell wd.record.current := rfl
  simp only [decryptPtr, tryPtr, Record.decryptWith, hcurrent]
  cases hatt : attempt 0 (wd.heap.cell wd.record.current) with
  | ok res =>
    obtain ⟨next, plaintext⟩ := res
    refine ⟨?_, h.allocated, h.distinct⟩
    rw [view_write_current h next]
  | error f =>
    cases f with
    | panic => exact ⟨rfl, rfl⟩
    | err e =>
      simp only
      split
      · exact ⟨rfl, rfl⟩
      · exact tryArchivedPtr_refines h e 0 wd.record.archived rfl

end Refines

/-! ## Records of sound sessions -/

/-- A record in memory: its pointers are distinct, its sessions are sound, and its archive is
within its limit. -/
structure LiveRecord (p : Prims) where
  world : World
  sane : world.Sane
  sound : ∀ session ∈ world.view.sessions, Sound p session
  bounded : world.record.archived.length ≤ world.record.maxArchived

/-- A record as it comes out of `DeserializeRecord`: every session has a fresh address. -/
def World.ofRecord (r : Record) : World where
  heap := { cell := fun ptr => r.sessions.getD ptr r.current, fresh := r.sessions.length }
  record := {
    current := 0
    archived := List.range' 1 r.archived.length
    maxArchived := r.maxArchived }

/-- A record put on the heap is seen as it was. -/
theorem view_ofRecord (r : Record) : (World.ofRecord r).view = r := by
  have harchived : (List.range' 1 r.archived.length).map (fun ptr => r.sessions.getD ptr r.current)
      = r.archived := by
    refine List.ext_getElem (by simp) fun k hk hk' => ?_
    simp [Record.sessions, Nat.add_comm 1 k, hk']
  simp only [World.view, World.ofRecord, harchived]
  rfl

/-- Every session gets a cell of its own. -/
theorem sane_ofRecord (r : Record) : (World.ofRecord r).Sane := by
  have hpointers : (World.ofRecord r).record.pointers = List.range' 0 r.sessions.length := by
    simp [World.ofRecord, PtrRecord.pointers, Record.sessions, List.range'_succ]
  constructor
  · intro ptr hptr
    rw [hpointers, List.mem_range'_1] at hptr
    simpa [World.ofRecord] using hptr.2
  · rw [hpointers]
    exact List.nodup_range'

/-- Every record of sound sessions within its limit is one in memory. -/
def LiveRecord.ofRecord {p : Prims} (r : Record) (hsound : ∀ session ∈ r.sessions, Sound p session)
    (hbound : r.archived.length ≤ r.maxArchived) : LiveRecord p where
  world := .ofRecord r
  sane := sane_ofRecord r
  sound := by rwa [view_ofRecord]
  bounded := by simpa [World.ofRecord] using hbound

/-- `NewRecord` on a sound session, with any limit. -/
def LiveRecord.new {p : Prims} {session : Session} (h : Sound p session) (maxArchived : Nat) :
    LiveRecord p :=
  .ofRecord (newRecord session maxArchived)
    (fun session' hmem => by
      obtain rfl : session' = session.clone := List.mem_singleton.mp hmem
      rwa [h.clone])
    (Nat.zero_le _)

/-- The record that the ciphers hold, after any run of calls on it. -/
def Record.Durable.live {p : Prims} {r : Record} (h : r.Durable p) : LiveRecord p :=
  .ofRecord r (fun session hmem => (h.sessions session hmem).sound) h.bounded

/-- `DeserializeRecord` on what was stored returns such a record. -/
theorem Record.Durable.deserialize_live {p : Prims} {r : Record} (h : r.Durable p)
    (hsize : r.Storable) :
    deserializeRecord p r.serialize = .ok h.restored.live.world.view := by
  rw [h.deserialize hsize]
  exact congrArg Except.ok (view_ofRecord _).symm

/-- Session number `i` of a record has become `next`, and no other session has changed. -/
structure Moved (r r' : Record) (i : Nat) (next : Session) : Prop where
  current : r'.current = next
  -- the previous current session goes to the front of the archive, the others keep their order
  archived : r'.archived =
    match i with
    | 0 => r.archived
    | k + 1 => r.current :: r.archived.eraseIdx k
  maxArchived : r'.maxArchived = r.maxArchived
  sessions : r'.sessions.Perm (r.sessions.set i next)

theorem perm_set_of_eraseIdx {α : Type*} {l : List α} {k : Nat} (hk : k < l.length) (x : α) :
    (x :: l.eraseIdx k).Perm (l.set k x) := by
  rw [List.eraseIdx_eq_take_drop_succ, List.set_eq_take_append_cons_drop, if_pos hk]
  exact List.perm_middle.symm

/-- Clones of sound sessions are the sessions, and the archive has room for one it gave up. -/
theorem moved_select {p : Prims} {r : Record} {i : Nat} {next : Session}
    (hcurrent : Sound p r.current) (hnext : Sound p next) (hi : i < r.sessions.length)
    (hbound : r.archived.length ≤ r.maxArchived) : Moved r (r.select i next) i next := by
  cases i with
  | zero => exact ⟨rfl, rfl, rfl, .refl _⟩
  | succ k =>
    have hk : k < r.archived.length := Nat.lt_of_succ_lt_succ hi
    have hlen : (r.current :: r.archived.eraseIdx k).length ≤ r.maxArchived := by
      rw [List.length_cons, List.length_eraseIdx_of_lt hk]
      omega
    have harchived : (r.select (k + 1) next).archived = r.current :: r.archived.eraseIdx k := by
      show (r.current.clone :: r.archived.eraseIdx k).take r.maxArchived = _
      rw [hcurrent.clone, List.take_of_length_le hlen]
    have hcur : (r.select (k + 1) next).current = next := hnext.clone
    refine ⟨hcur, harchived, rfl, ?_⟩
    rw [Record.sessions, hcur, harchived]
    show List.Perm _ (r.current :: r.archived.set k next)
    exact (List.Perm.swap _ _ _).trans ((perm_set_of_eraseIdx hk next).cons _)

/-- The sessions of the record afterwards: those it had, and the one that accepted. -/
theorem Moved.mem_sessions {r r' : Record} {i : Nat} {next session : Session}
    (h : Moved r r' i next) (hs : session ∈ r'.sessions) :
    session ∈ r.sessions ∨ session = next :=
  List.mem_or_eq_of_mem_set (h.sessions.mem_iff.mp hs)

/-- **Session selection.** The message is opened exactly when a session is selected for it: the
first that accepts it, with no session before it taking it for a duplicate. An error leaves every
session as it was. With a plaintext the selected session has changed and is current, and all the
others are still there, in their order; the record is one in memory again. -/
theorem session_selection (s : Suite) (kem : Spqr.Kem) (rnd : Nat → Except String Key)
    (msg : Wire.SignalMessage) (l : LiveRecord s.toPrims) :
    (∀ plaintext,
      (∃ world, decryptSignalMessagePtr s kem rnd msg l.world = .ok plaintext world) ↔
        ∃ i next, Selects (signalAttempt s kem rnd msg) l.world.view.sessions i next plaintext) ∧
    match decryptSignalMessagePtr s kem rnd msg l.world with
    | .error _ world => world = l.world
    | .ok plaintext world => ∃ i next,
        Selects (signalAttempt s kem rnd msg) l.world.view.sessions i next plaintext ∧
        Moved l.world.view world.view i next ∧
        ∃ l' : LiveRecord s.toPrims, l'.world = world := by
  have href : Refines l.world (decryptSignalMessagePtr s kem rnd msg l.world)
      (l.world.view.decryptSignalMessage s kem rnd msg) := decryptPtr_refines l.sane
  cases hres : decryptSignalMessagePtr s kem rnd msg l.world with
  | error f world =>
    rw [hres] at href
    refine ⟨fun plaintext => iff_of_false nofun ?_, href.2⟩
    -- a selected session would have made the record's loop succeed
    rintro ⟨i, next, hsel⟩
    have hok : l.world.view.decryptSignalMessage s kem rnd msg = .ok (_, plaintext) :=
      decryptWith_ok_iff.mpr ⟨i, next, hsel, rfl⟩
    rw [href.1] at hok
    cases hok
  | ok plaintext world =>
    rw [hres] at href
    obtain ⟨hdec, hsane⟩ := href
    obtain ⟨i, next, hsel, hview⟩ := decryptWith_ok_iff.mp hdec
    obtain ⟨session, hsession, haccept⟩ := hsel.accepts
    have hnext : Sound s.toPrims next :=
      (l.sound session (List.mem_of_getElem? hsession)).decrypt haccept
    have hmoved : Moved l.world.view world.view i next := by
      rw [hview]
      refine moved_select (l.sound _ List.mem_cons_self) hnext
        (List.getElem?_eq_some_iff.mp hsession).1 ?_
      show (l.world.record.archived.map _).length ≤ _
      rw [List.length_map]
      exact l.bounded
    refine ⟨fun plaintext' => ⟨?_, ?_⟩, i, next, hsel, hmoved,
      ⟨world, hsane, fun session hs => ?_, ?_⟩, rfl⟩
    · rintro ⟨_, ⟨⟩⟩
      exact ⟨i, next, hsel⟩
    · rintro ⟨i', next', hsel'⟩
      obtain ⟨-, -, rfl⟩ := hsel.unique hsel'
      exact ⟨world, rfl⟩
    · rcases hmoved.mem_sessions hs with hs | rfl
      · exact l.sound session hs
      · exact hnext
    · -- a permutation has as many sessions, and the limit is the old one
      have hlen := hmoved.sessions.length_eq
      have hmax : world.record.maxArchived = l.world.record.maxArchived := hmoved.maxArchived
      rw [List.length_set] at hlen
      have hcount : world.record.archived.length = l.world.record.archived.length := by
        simpa [Record.sessions, World.view] using hlen
      rw [hcount, hmax]
      exact l.bounded

/-! ### A message for an archived session -/

/-- A session with a Kyber pre-key, which takes messages of version 4 only. -/
theorem kyber_fresh : ∃ session, Fresh toySuite Spqr.toyKem varintWire session ∧
    session.version = Wire.ciphertextMessageCurrentVersion ∧ session.restored = session ∧
    storedSize session < 2 ^ 32 := by
  obtain ⟨result, hresult, base, hbuild, session, payload, henc, hversion⟩ : ∃ result,
      (X3dh.newInitiator toySuite plainStore.identityKeyPair toyEnv.ephemeral
        toyEnv.kyber).processPreKeyBundle toySuite X3dh.sampleBundle = .ok result ∧
      ∃ base, buildSession toySuite toyEnv plainStore.identityKeyPair.publicKey
          X3dh.sampleBundle.identityKey result true = .ok base ∧
        ∃ session payload, encryptRatchetMessage toySuite base [] = .ok (session, payload) ∧
          session.version = Wire.ciphertextMessageCurrentVersion ∧ session.restored = session ∧
          storedSize session < 2 ^ 32 :=
    ⟨_, X3dh.Initiator.processPreKeyBundle_ok.mpr ⟨⟨toyPair 6, _, _, _, _, _, _, _,
      X3dh.sampleBundle_validate, rfl, rfl, rfl, rfl, rfl, X3dh.sampleBundle_encapsulates _ _, rfl,
      rfl⟩⟩, _, rfl, _, _, rfl, by rfl, by rfl, by decide +kernel⟩
  have hprocess : processPreKeyBundle toySuite toyEnv toyAddress X3dh.sampleBundle plainStore = _ :=
    processPreKeyBundle_ok.mpr ⟨rfl, result, hresult, hbuild, rfl, rfl⟩
  exact ⟨session, .initiatorEnvelope rfl hprocess henc, hversion⟩

/-- The message of an older session arrives after a newer one with Kyber has replaced it and the
record has been stored. The newer session refuses the version, and the archived one opens the
message and is current again. -/
theorem session_selection_archived : ∃ (data : Bytes) (l : LiveRecord toyPrims)
    (newer older next : Session) (msg : Wire.SignalMessage) (world : World),
    deserializeRecord toyPrims data = .ok l.world.view ∧
    l.world.view.sessions = [newer, older] ∧
    decryptSignalMessagePtr toySuite Spqr.toyKem (fun _ => .ok (Key.fill 8)) msg l.world =
      .ok [1] world ∧
    world.view.sessions = [next, newer] := by
  obtain ⟨older, holder, ⟨kp, hkp⟩, hseen, hpqr, hplain, hsize, -⟩ := plain_fresh
  obtain ⟨newer, hnewer, hkyber, hrestored, hsize'⟩ := kyber_fresh
  have hdurable : ((newRecord older defaultMaxArchivedSessions).promote newer).Durable toyPrims :=
    (durable_newRecord holder.durable).pushed hnewer.durable fun _ hmem => hmem
  have hrecord : ((newRecord older defaultMaxArchivedSessions).promote newer).sessions =
      [newer, older] := by
    simp [Record.sessions, Record.promote, newRecord, holder.durable.sound.clone,
      hnewer.durable.sound.clone, defaultMaxArchivedSessions]
  have hstorable : ((newRecord older defaultMaxArchivedSessions).promote newer).Storable := by
    intro session hmem
    rw [hrecord] at hmem
    rcases List.mem_pair.mp hmem with rfl | rfl
    · exact hsize'
    · exact hsize
  have hsessions : hdurable.restored.live.world.view.sessions = [newer, older] := by
    have hrestored' : older.restored = older := by
      rw [restored, hpqr, restoredPQR, Option.bind_none, ← hpqr]
    show (World.ofRecord _).view.sessions = _
    rw [view_ofRecord]
    show ((newRecord older defaultMaxArchivedSessions).promote newer).sessions.map restored = _
    rw [hrecord, List.map_cons, List.map_cons, hrestored, hrestored', List.map_nil]
  -- the peer answers in the older session, under a key that was not seen before
  obtain ⟨state, mk, hadv, -⟩ := advance_fresh holder.durable.tidy hkp (hseen ▸ freshKey_unseen 0)
  obtain ⟨msg, hmsg⟩ : ∃ msg, Sealed toySuite varintWire Wire.ciphertextMessagePreKyberVersion
      older.remoteIdentity older.localIdentity ⟨freshKey 0, 0, 0⟩ mk [] [1] msg := ⟨_, rfl⟩
  have hselect : Selects (signalAttempt toySuite Spqr.toyKem (fun _ => .ok (Key.fill 8)) msg)
      [newer, older] 1 (older.withRatchets state none) [1] := by
    refine ⟨⟨older, rfl, hmsg.decrypts toySuite_cbcLaws rfl rfl (by rw [hplain]; rfl) hadv
      (by rw [hpqr]; rfl)⟩, fun j hj session hs => ?_⟩
    obtain rfl : j = 0 := by omega
    cases hs
    refine ⟨_, if_pos ?_, rfl⟩
    rw [versionMismatch, hkyber, hmsg.fields.2.2]
    rfl
  obtain ⟨hiff, hmoved⟩ := session_selection toySuite Spqr.toyKem (fun _ => .ok (Key.fill 8)) msg
    hdurable.restored.live
  obtain ⟨world, hworld⟩ := (hiff [1]).mpr ⟨1, _, hsessions ▸ hselect⟩
  rw [hworld, hsessions] at hmoved
  obtain ⟨i, next, hsel, hmoved, -⟩ := hmoved
  obtain ⟨rfl, -, -⟩ := hsel.unique hselect
  refine ⟨_, hdurable.restored.live, newer, older, next, msg, world,
    hdurable.deserialize_live hstorable, hsessions, hworld, ?_⟩
  obtain ⟨hcurrent, harchived⟩ := List.cons.inj hsessions
  rw [Record.sessions, hmoved.current, hmoved.archived, hcurrent, harchived]
  rfl

end SignalGo.Session
