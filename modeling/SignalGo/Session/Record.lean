import SignalGo.Session.Session

/-!
# Session records

A record holds the current session of a peer and the archived ones, newest first. A message is
tried on the current session and then on the archived ones, in order, until one accepts it or
reports it as a duplicate; an archived session that accepts becomes the current one.

The source does this with pointers to sessions. Here a record holds the sessions themselves;
`SignalGo.Session.Pointers` connects the two.

* `Record.decryptWith`: the loop over the sessions, for any way to try a message on one.
* `Selects`: the session the loop ends at, and what came before it.
* `decryptWith_ok_iff`: the loop succeeds exactly with the session it selects.
-/

namespace SignalGo.Session

/-- `DefaultMaxArchivedSessions`. -/
def defaultMaxArchivedSessions : Nat := 5

structure Record where
  current : Session
  archived : List Session
  maxArchived : Nat

/-- `NewRecord`; a limit of zero stands for every limit that is not positive. -/
def newRecord (current : Session) (maxArchived : Nat) : Record where
  current := current.clone
  archived := []
  maxArchived := if maxArchived = 0 then defaultMaxArchivedSessions else maxArchived

/-- The sessions in the order in which they are tried. -/
def Record.sessions (r : Record) : List Session := r.current :: r.archived

/-- `Promote` for a session that is not in the record. -/
def Record.promote (r : Record) (next : Session) : Record :=
  { r with
    current := next.clone
    archived := (r.current.clone :: r.archived).take r.maxArchived }

/-- `Promote` for the archived session number `k`, which leaves the archive first. -/
def Record.promoteArchived (r : Record) (k : Nat) (next : Session) : Record :=
  { r with
    current := next.clone
    archived := (r.current.clone :: r.archived.eraseIdx k).take r.maxArchived }

/-- A try of a message on the session at a position: the changed session and the plaintext. -/
abbrev Attempt := Nat → Session → Except (Fault Err) (Session × Bytes)

/-- The loop over the archived sessions; `err` is the error of the current session, which is
returned when none accepts. The result is the position of the session that did. -/
def tryArchived (attempt : Attempt) (err : Err) :
    Nat → List Session → Except (Fault Err) (Nat × Session × Bytes)
  | _, [] => .error (.err err)
  | k, candidate :: rest =>
      match attempt (k + 1) candidate with
      | .ok (next, plaintext) => .ok (k, next, plaintext)
      | .error (.err e) =>
          if e.is .duplicateMessage then .error (.err e) else tryArchived attempt err (k + 1) rest
      | .error .panic => .error .panic

def Record.decryptWith (attempt : Attempt) (r : Record) : Except (Fault Err) (Record × Bytes) :=
  match attempt 0 r.current with
  | .ok (next, plaintext) => .ok ({ r with current := next }, plaintext)
  | .error (.err e) =>
      if e.is .duplicateMessage then .error (.err e)
      else do
        let (k, next, plaintext) ← tryArchived attempt e 0 r.archived
        return (r.promoteArchived k next, plaintext)
  | .error .panic => .error .panic

/-- The try of a signal message; `rnd i` is read by the DH ratchet step on the session at
position `i`. -/
def signalAttempt (s : Suite) (kem : Spqr.Kem) (rnd : Nat → Except String Key)
    (msg : Wire.SignalMessage) : Attempt :=
  fun i session => decryptSignalWithSession s kem (rnd i) session msg

/-- `WireCipher.decryptSignalMessage`. -/
def Record.decryptSignalMessage (s : Suite) (kem : Spqr.Kem) (rnd : Nat → Except String Key)
    (r : Record) (msg : Wire.SignalMessage) : Except (Fault Err) (Record × Bytes) :=
  r.decryptWith (signalAttempt s kem rnd msg)

/-! ## Which session is selected -/

/-- The session refuses the message without taking it for a duplicate, so that the next one is
tried. -/
def Passes (attempt : Attempt) (i : Nat) (session : Session) : Prop :=
  ∃ e, attempt i session = .error (.err e) ∧ e.is .duplicateMessage = false

/-- Session number `i` accepts the message, and every session before it passes. -/
structure Selects (attempt : Attempt) (sessions : List Session) (i : Nat) (next : Session)
    (plaintext : Bytes) : Prop where
  accepts : ∃ session, sessions[i]? = some session ∧ attempt i session = .ok (next, plaintext)
  passes : ∀ j, j < i → ∀ session, sessions[j]? = some session → Passes attempt j session

variable {sessions : List Session}

/-- One session is selected at most, with one result. -/
theorem Selects.unique {attempt : Attempt} {i j : Nat} {next next' : Session}
    {plaintext plaintext' : Bytes} (h : Selects attempt sessions i next plaintext)
    (h' : Selects attempt sessions j next' plaintext') :
    i = j ∧ next = next' ∧ plaintext = plaintext' := by
  obtain ⟨session, hs, hok⟩ := h.accepts
  obtain ⟨session', hs', hok'⟩ := h'.accepts
  -- a session that accepts does not pass, so neither stands in front of the other
  rcases Nat.lt_trichotomy i j with hlt | rfl | hlt
  · obtain ⟨e, he, -⟩ := h'.passes i hlt session hs
    rw [hok] at he
    cases he
  · cases hs.symm.trans hs'
    cases hok.symm.trans hok'
    exact ⟨rfl, rfl, rfl⟩
  · obtain ⟨e, he, -⟩ := h.passes j hlt session' hs'
    rw [hok'] at he
    cases he

/-- The record in which session number `i` has become `next`, the current session. -/
def Record.select (r : Record) (i : Nat) (next : Session) : Record :=
  match i with
  | 0 => { r with current := next }
  | k + 1 => r.promoteArchived k next

variable {attempt : Attempt} {r : Record} {plaintext : Bytes} {next : Session}

variable {err : Err} {k : Nat}

/-- One step of the loop, from a session that passes. -/
theorem tryArchived_of_passes {candidate : Session} {rest : List Session}
    (h : Passes attempt (k + 1) candidate) :
    tryArchived attempt err k (candidate :: rest) = tryArchived attempt err (k + 1) rest := by
  obtain ⟨e, he, hdup⟩ := h
  rw [tryArchived, he]
  simp [hdup]

/-- What the loop over the archive returned: some session accepted, and all before it passed. -/
theorem tryArchived_ok {m : Nat}
    (h : tryArchived attempt err k sessions = .ok (m, next, plaintext)) :
    ∃ i, m = k + i ∧
      (∃ session, sessions[i]? = some session ∧
        attempt (k + i + 1) session = .ok (next, plaintext)) ∧
      ∀ j, j < i → ∀ session, sessions[j]? = some session → Passes attempt (k + j + 1) session := by
  -- induction along the archive: the head accepts, ends the loop, or passes
  induction sessions generalizing k with
  | nil => cases h
  | cons candidate rest ih =>
    cases hatt : attempt (k + 1) candidate with
    | ok res =>
      rw [tryArchived, hatt] at h
      cases h
      exact ⟨0, rfl, ⟨candidate, rfl, hatt⟩, nofun⟩
    | error f =>
      cases f with
      | panic =>
        rw [tryArchived, hatt] at h
        cases h
      | err e =>
        cases hdup : e.is .duplicateMessage with
        | true =>
          rw [tryArchived, hatt] at h
          simp [hdup] at h
        | false =>
          have hpass : Passes attempt (k + 1) candidate := ⟨e, hatt, hdup⟩
          rw [tryArchived_of_passes hpass] at h
          obtain ⟨i, rfl, ⟨session, hs, hok⟩, hbefore⟩ := ih h
          refine ⟨i + 1, by omega, ⟨session, hs, ?_⟩, fun j hj session hs => ?_⟩
          · rwa [show k + (i + 1) + 1 = k + 1 + i + 1 by omega]
          · cases j with
            | zero =>
              cases hs
              exact hpass
            | succ j =>
              rw [show k + (j + 1) + 1 = k + 1 + j + 1 by omega]
              exact hbefore j (by omega) session hs

/-- The loop over the archive reaches the first session that accepts, when all before it pass. -/
theorem tryArchived_of_selects {i : Nat} {session : Session} (hs : sessions[i]? = some session)
    (hok : attempt (k + i + 1) session = .ok (next, plaintext))
    (hbefore : ∀ j, j < i → ∀ session, sessions[j]? = some session →
      Passes attempt (k + j + 1) session) :
    tryArchived attempt err k sessions = .ok (k + i, next, plaintext) := by
  induction sessions generalizing k i with
  | nil => cases hs
  | cons candidate rest ih =>
    cases i with
    | zero =>
      cases hs
      rw [tryArchived, hok]
      rfl
    | succ i =>
      rw [tryArchived_of_passes (hbefore 0 (by omega) candidate rfl),
        show k + (i + 1) = k + 1 + i by omega]
      refine ih hs ?_ fun j hj session hs => ?_
      · rwa [show k + 1 + i + 1 = k + (i + 1) + 1 by omega]
      · rw [show k + 1 + j + 1 = k + (j + 1) + 1 by omega]
        exact hbefore (j + 1) (by omega) session hs

/-- **The loop over all sessions** succeeds exactly with the session it selects, which becomes the
current one. -/
theorem decryptWith_ok_iff {r' : Record} :
    r.decryptWith attempt = .ok (r', plaintext) ↔
      ∃ i next, Selects attempt r.sessions i next plaintext ∧ r' = r.select i next := by
  cases hatt : attempt 0 r.current with
  | ok res =>
    obtain ⟨next, plaintext'⟩ := res
    rw [Record.decryptWith, hatt]
    constructor
    · intro h
      cases h
      exact ⟨0, next, ⟨⟨r.current, rfl, hatt⟩, nofun⟩, rfl⟩
    · rintro ⟨i, next', hsel, rfl⟩
      -- the current session does not pass, so nothing behind it is selected
      have hi : i = 0 := by
        by_contra hne
        obtain ⟨e, he, -⟩ := hsel.passes 0 (by omega) r.current rfl
        rw [hatt] at he
        cases he
      subst hi
      obtain ⟨session, hs, hok⟩ := hsel.accepts
      cases hs
      rw [hatt] at hok
      cases hok
      rfl
  | error f =>
    by_cases hp : Passes attempt 0 r.current
    · obtain ⟨e, he, hdup⟩ := hp
      have hstep : r.decryptWith attempt = (do
          let (k, next, plaintext) ← tryArchived attempt e 0 r.archived
          return (r.promoteArchived k next, plaintext)) := by
        rw [Record.decryptWith, he]
        simp [hdup]
      rw [hstep]
      constructor
      · intro h
        obtain ⟨⟨k, next, plaintext'⟩, htry, h⟩ := bind_eq_ok.mp h
        cases h
        obtain ⟨i, rfl, ⟨session, hs, hok⟩, hbefore⟩ := tryArchived_ok htry
        rw [Nat.zero_add] at hok ⊢
        refine ⟨i + 1, next, ⟨⟨session, hs, hok⟩, fun j hj session hs => ?_⟩, rfl⟩
        cases j with
        | zero =>
          cases hs
          exact ⟨e, he, hdup⟩
        | succ j =>
          have := hbefore j (by omega) session hs
          rwa [Nat.zero_add] at this
      · rintro ⟨i, next, hsel, rfl⟩
        obtain ⟨session, hs, hok⟩ := hsel.accepts
        cases i with
        | zero =>
          cases hs
          rw [he] at hok
          cases hok
        | succ i =>
          have htry : tryArchived attempt e 0 r.archived = .ok (0 + i, next, plaintext) := by
            refine tryArchived_of_selects hs (by rwa [Nat.zero_add]) fun j hj session hs => ?_
            rw [Nat.zero_add]
            exact hsel.passes (j + 1) (by omega) session hs
          rw [htry, Nat.zero_add]
          rfl
    · -- a duplicate or a panic ends the loop at the current session
      have hnot : ∀ r' plaintext, r.decryptWith attempt ≠ .ok (r', plaintext) := by
        intro r' plaintext h
        rw [Record.decryptWith, hatt] at h
        cases f with
        | panic => cases h
        | err e =>
          simp only at h
          split at h
          case isTrue => cases h
          case isFalse hdup => exact hp ⟨e, hatt, Bool.eq_false_iff.mpr hdup⟩
      constructor
      · exact fun h => absurd h (hnot _ _)
      · rintro ⟨i, next, hsel, -⟩
        obtain ⟨session, hs, hok⟩ := hsel.accepts
        cases i with
        | zero =>
          cases hs
          rw [hatt] at hok
          cases hok
        | succ i => exact absurd (hsel.passes 0 (by omega) r.current rfl) hp

end SignalGo.Session
