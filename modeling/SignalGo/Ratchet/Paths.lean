import SignalGo.Lib.Effect
import SignalGo.Ratchet.Agreement

/-!
# The envelope path and the wire path of the ratchet

The package has two pairs of functions that move a state: `Encrypt` and `Decrypt` for messages in
legacy envelopes, `NextSendingMessageKey` and `AdvanceForHeader` for the wire format. The source
writes the state transitions out in both. Here all four are programs that work on the state in
place, as the source has them: what a function wrote before it failed is there afterwards.
`AdvanceForHeader` runs on a clone that is dropped when it fails, so nothing is said about the
clone in that case.

* `encryptInPlace_eq`, `decryptInPlace_eq`: the envelope functions in terms of the other
  two, with the state after a failure.
* `MixedExchange`: two parties that use both paths on one session.
* `envelope_and_wire_agree`: the two paths agree call by call, and any interleaving of them
  keeps the parties in step.
-/

namespace SignalGo.Ratchet

open Effect

/-! ## The four functions, in place -/

section Programs

variable (p : Prims)

/-- A method on the state that is called in the middle of another. -/
def inPlace (f : State → Except Err State) : EStateM Err State Unit := do
  let s ← reads id
  let s ← lift (f s)
  update fun _ => s

/-- `NextSendingMessageKey`. -/
def nextSendingMessageKeyInPlace : EStateM Err State (Header × Key) := do
  let s ← reads id
  match s.dhs with
  | none => fail (.new "encrypt: missing sending DH key")
  | some dhs =>
      if s.cks = .zero then fail (.new "encrypt: missing sending chain key")
      else if s.ns = maxUint32 then fail (.wrap .counterOverflow "send counter overflow")
      else do
        let header : Header := { dh := dhs.publicKey, pn := s.pn, n := s.ns }
        let (newCKs, mk) := kdfChain p s.cks
        update fun s => { s with cks := newCKs }
        update fun s => { s with ns := s.ns + 1 }
        return (header, mk)

/-- `Encrypt`. -/
def encryptInPlace (plaintext associatedData : Bytes) : EStateM Err State Message := do
  let s ← reads id
  match s.dhs with
  | none => fail (.new "encrypt: missing sending DH key")
  | some dhs =>
      if s.cks = .zero then fail (.new "encrypt: missing sending chain key")
      else if s.ns = maxUint32 then fail (.wrap .counterOverflow "send counter overflow")
      else do
        let header : Header := { dh := dhs.publicKey, pn := s.pn, n := s.ns }
        let (newCKs, mk) := kdfChain p s.cks
        update fun s => { s with cks := newCKs }
        update fun s => { s with ns := s.ns + 1 }
        -- the chain has advanced, also if the plaintext cannot be sealed
        let (encKey, _, iv) := deriveMessageKeys p mk
        let nonce := iv.take 12
        let ad := messageAD associatedData header
        let ciphertext ← lift ((aesGCMEncryptWithNonce p encKey plaintext nonce ad).mapError
          (.context "encrypt"))
        return { header, ciphertext := nonce ++ ciphertext }

/-- The part of `AdvanceForHeader` for a header under another DH key. -/
def catchUpInPlace (rnd : Except String Key) (header : Header) : EStateM Err State Unit := do
  let s ← reads id
  if s.dhr = none ∨ s.dhr ≠ some header.dh then do
    inPlace fun s => skipMessageKeys p s header.pn
    inPlace fun s => dhRatchet p rnd s header.dh
  else return ()

/-- The end of `AdvanceForHeader`: the receiving chain is at the message number. -/
def takeKeyInPlace : EStateM Err State Key := do
  let s ← reads id
  if s.ckr = .zero then fail (.new "decrypt: missing receiving chain key")
  else if s.nr = maxUint32 then fail (.wrap .counterOverflow "receive counter overflow")
  else do
    let (newCKr, mk) := kdfChain p s.ckr
    update fun s => { s with ckr := newCKr }
    update fun s => { s with nr := s.nr + 1 }
    return mk

/-- `AdvanceForHeader`. -/
def advanceForHeaderInPlace (rnd : Except String Key) (header : Header) :
    EStateM Err State Key := do
  let s ← reads id
  let key := skippedKeyForHeader header
  match s.mkSkipped[key]? with
  | some mk => do
      update fun s => { s with mkSkipped := s.mkSkipped.erase key }
      return mk
  | none =>
      if s.dhr = some header.dh ∧ header.n < s.nr then
        fail (.wrap .duplicateMessage "message already processed")
      else if s.dhr.isSome ∧ s.dhr ≠ some header.dh ∧ header.dh ∈ s.seenDH then
        fail (.wrap .duplicateMessage "message for previous ratchet key")
      else do
        catchUpInPlace p rnd header
        inPlace fun s => skipMessageKeys p s header.n
        takeKeyInPlace p

/-- `Decrypt`: a stored key is deleted behind the check of the ciphertext, and the clone `next`
replaces the state behind it. -/
def decryptInPlace (rnd : Except String Key) (msg : Message) (associatedData : Bytes) :
    EStateM Err State Bytes := do
  let s ← reads id
  let key := skippedKeyForHeader msg.header
  match s.mkSkipped[key]? with
  | some mk => do
      let plaintext ← lift (decryptWithMessageKey p mk msg associatedData)
      update fun s => { s with mkSkipped := s.mkSkipped.erase key }
      return plaintext
  | none =>
      let next := s
      if next.dhr = some msg.header.dh ∧ msg.header.n < next.nr then
        fail (.wrap .duplicateMessage "message already processed")
      else if next.dhr.isSome ∧ next.dhr ≠ some msg.header.dh ∧ msg.header.dh ∈ next.seenDH then
        fail (.wrap .duplicateMessage "message for previous ratchet key")
      else do
        let next ← lift (if next.dhr = none ∨ next.dhr ≠ some msg.header.dh then do
            let next ← skipMessageKeys p next msg.header.pn
            dhRatchet p rnd next msg.header.dh
          else .ok next)
        let next ← lift (skipMessageKeys p next msg.header.n)
        if next.ckr = .zero then fail (.new "decrypt: missing receiving chain key")
        else if next.nr = maxUint32 then fail (.wrap .counterOverflow "receive counter overflow")
        else do
          let (newCKr, mk) := kdfChain p next.ckr
          let next := { next with ckr := newCKr, nr := next.nr + 1 }
          let plaintext ← lift (decryptWithMessageKey p mk msg associatedData)
          update fun _ => next
          return plaintext

end Programs

variable {p : Prims} {s s' : State} {e : Err}

/-! ## Sending -/

/-- The result of a method that leaves the state alone when it fails. -/
def toResult {α : Type} (s : State) : Except Err (State × α) → EStateM.Result Err State α
  | .ok (s', a) => .ok a s'
  | .error e => .error e s

/-- The two paths fail at the same checks with the same errors, or at none. -/
theorem nextSendingMessageKey_cases (s : State) :
    (∃ e, nextSendingMessageKey p s = .error e ∧
      nextSendingMessageKeyInPlace p s = .error e s ∧
      ∀ plaintext ad, encryptInPlace p plaintext ad s = .error e s) ∨
    ∃ dhs, s.dhs = some dhs ∧ s.cks ≠ .zero ∧ s.ns ≠ maxUint32 := by
  cases hdhs : s.dhs with
  | none =>
    refine .inl ⟨.new "encrypt: missing sending DH key", ?_, ?_, fun plaintext ad => ?_⟩
    · rw [nextSendingMessageKey, hdhs]
    · rw [nextSendingMessageKeyInPlace, bind_of_ok (reads_apply id), id_eq, hdhs]
      rfl
    · rw [encryptInPlace, bind_of_ok (reads_apply id), id_eq, hdhs]
      rfl
  | some dhs =>
    by_cases hck : s.cks = .zero
    · refine .inl ⟨.new "encrypt: missing sending chain key", ?_, ?_, fun plaintext ad => ?_⟩
      · simp only [nextSendingMessageKey, hdhs, if_pos hck]
      · rw [nextSendingMessageKeyInPlace, bind_of_ok (reads_apply id)]
        simp only [id_eq, hdhs, if_pos hck, fail_apply]
      · rw [encryptInPlace, bind_of_ok (reads_apply id)]
        simp only [id_eq, hdhs, if_pos hck, fail_apply]
    · by_cases hmax : s.ns = maxUint32
      · refine .inl ⟨.wrap .counterOverflow "send counter overflow", ?_, ?_, fun plaintext ad => ?_⟩
        · simp only [nextSendingMessageKey, hdhs, if_neg hck, if_pos hmax]
        · rw [nextSendingMessageKeyInPlace, bind_of_ok (reads_apply id)]
          simp only [id_eq, hdhs, if_neg hck, if_pos hmax, fail_apply]
        · rw [encryptInPlace, bind_of_ok (reads_apply id)]
          simp only [id_eq, hdhs, if_neg hck, if_pos hmax, fail_apply]
      · exact .inr ⟨dhs, rfl, hck, hmax⟩

/-- The plaintext sealed under the keys that are derived from the message key. -/
def sealWith (p : Prims) (mk : Key) (header : Header) (plaintext associatedData : Bytes) :
    Message :=
  let (encKey, _, iv) := deriveMessageKeys p mk
  { header
    ciphertext := iv.take 12 ++ p.gcmSeal (.ofBytes 32 encKey) (iv.take 12) plaintext
      (messageAD associatedData header) }

/-- The derived keys have the lengths that AES-GCM asks for. -/
theorem length_deriveMessageKeys (mk : Key) : (deriveMessageKeys p mk).1.length = 32 ∧
    ((deriveMessageKeys p mk).2.2.take 12).length = 12 := by
  simp [deriveMessageKeys, deriveMessageKeysWithSalt]

theorem aesGCMEncryptWithNonce_derived (mk : Key) (plaintext ad : Bytes) :
    aesGCMEncryptWithNonce p (deriveMessageKeys p mk).1 plaintext
        ((deriveMessageKeys p mk).2.2.take 12) ad
      = .ok (p.gcmSeal (.ofBytes 32 (deriveMessageKeys p mk).1)
          ((deriveMessageKeys p mk).2.2.take 12) plaintext ad) := by
  obtain ⟨hkey, hnonce⟩ := length_deriveMessageKeys (p := p) mk
  rw [aesGCMEncryptWithNonce, if_neg (not_not.mpr hkey), if_neg (not_not.mpr hnonce)]

theorem nextSendingMessageKeyInPlace_eq (s : State) :
    nextSendingMessageKeyInPlace p s = toResult s (nextSendingMessageKey p s) := by
  rcases nextSendingMessageKey_cases (p := p) s with ⟨e, hnext, hplace, -⟩ | ⟨dhs, hdhs, hck, hmax⟩
  · rw [hnext, hplace]
    rfl
  · rw [nextSendingMessageKeyInPlace, bind_of_ok (reads_apply id)]
    simp only [nextSendingMessageKey, id_eq, hdhs, if_neg hck, if_neg hmax]
    show EStateM.Result.ok _ _ = EStateM.Result.ok _ _
    rw [← hdhs]

/-- `Encrypt` moves the state as `NextSendingMessageKey` does, and seals under its key. -/
theorem encryptInPlace_eq (s : State) (plaintext ad : Bytes) :
    encryptInPlace p plaintext ad s = match nextSendingMessageKey p s with
      | .ok (s', header, mk) => .ok (sealWith p mk header plaintext ad) s'
      | .error e => .error e s := by
  rcases nextSendingMessageKey_cases (p := p) s with ⟨e, hnext, -, hplace⟩ | ⟨dhs, hdhs, hck, hmax⟩
  · rw [hnext, hplace]
  · rw [encryptInPlace, bind_of_ok (reads_apply id)]
    simp only [nextSendingMessageKey, id_eq, hdhs, if_neg hck, if_neg hmax,
      aesGCMEncryptWithNonce_derived]
    show EStateM.Result.ok _ _ = EStateM.Result.ok _ _
    rw [← hdhs]
    rfl

/-! ## Receiving -/

theorem computes_inPlace (g : State → Except Err State) (s : State) :
    Computes (inPlace g) s (g s >>= fun t => .ok (t, ())) :=
  .reads_bind (.lift_bind fun t _ => .pure () t)

/-- The two replay checks as the source writes them. -/
theorem checkReplay_eq (s : State) (header : Header) :
    checkReplay s header =
      if s.dhr = some header.dh ∧ header.n < s.nr then
        .error (.wrap .duplicateMessage "message already processed")
      else if s.dhr.isSome ∧ s.dhr ≠ some header.dh ∧ header.dh ∈ s.seenDH then
        .error (.wrap .duplicateMessage "message for previous ratchet key")
      else .ok () := by
  unfold checkReplay
  cases s.dhr with
  | none => rfl
  | some dhr => simp [eq_comm]

theorem takeKey_computes (s : State) : Computes (takeKeyInPlace p) s (takeKey p s) := by
  refine .reads_bind ?_
  unfold takeKey
  simp only [id_eq]
  by_cases hck : s.ckr = .zero
  · rw [if_pos hck, if_pos hck]
    exact .fail _ s
  · rw [if_neg hck, if_neg hck]
    by_cases hmax : s.nr = maxUint32
    · rw [if_pos hmax, if_pos hmax]
      exact .fail _ s
    · rw [if_neg hmax, if_neg hmax]
      exact .update_bind (.update_bind (.pure _ _))

/-- Whether the source looks for a nil key does not matter: `none` is not the key of a header. -/
theorem ite_catchUp {α : Type} (s : State) (header : Header) (x y : α) :
    (if s.dhr = none ∨ s.dhr ≠ some header.dh then x else y)
      = if s.dhr = some header.dh then y else x := by
  cases s.dhr with
  | none => rfl
  | some dhr => by_cases h : dhr = header.dh <;> simp [h]

theorem catchUp_computes (rnd : Except String Key) (s : State) (header : Header) :
    Computes (catchUpInPlace p rnd header) s (catchUp p rnd s header >>= fun t => .ok (t, ())) := by
  refine .reads_bind ?_
  rw [id_eq, ite_catchUp, catchUp]
  by_cases hdh : s.dhr = some header.dh
  · rw [if_pos hdh, if_pos hdh]
    exact .pure () s
  · rw [if_neg hdh, if_neg hdh]
    rw [bind_assoc]
    exact (computes_inPlace _ s).seq fun t => computes_inPlace _ t

theorem advanceForHeader_computes (rnd : Except String Key) (s : State) (header : Header) :
    Computes (advanceForHeaderInPlace p rnd header) s (advanceForHeader p rnd s header) := by
  refine .reads_bind ?_
  unfold advanceForHeader
  simp only [id_eq]
  cases s.mkSkipped[skippedKeyForHeader header]? with
  | some mk => exact .update_bind (.pure mk _)
  | none =>
    simp only [advanceChain, checkReplay_eq]
    split
    · exact .fail _ s
    · split
      · exact .fail _ s
      · exact (catchUp_computes rnd s header).seq fun t =>
          (computes_inPlace _ t).seq fun u => takeKey_computes u

/-- What `Decrypt` does with the outcome of `AdvanceForHeader` on a clone. -/
def openWith (p : Prims) (s : State) (msg : Message) (associatedData : Bytes) :
    Except Err (State × Key) → EStateM.Result Err State Bytes
  | .error e => .error e s
  | .ok (next, mk) =>
      match decryptWithMessageKey p mk msg associatedData with
      | .ok plaintext => .ok plaintext next
      | .error e => .error e s

/-- `Decrypt` makes the checks and the moves of `AdvanceForHeader` on its clone; a failure at any
of them, or at the ciphertext, leaves the state as it was. -/
theorem decryptInPlace_eq (rnd : Except String Key) (s : State) (msg : Message) (ad : Bytes) :
    decryptInPlace p rnd msg ad s = openWith p s msg ad (advanceForHeader p rnd s msg.header) := by
  rw [decryptInPlace, bind_of_ok (reads_apply id), advanceForHeader]
  simp only [id_eq]
  cases s.mkSkipped[skippedKeyForHeader msg.header]? with
  | some mk =>
    simp only [openWith]
    cases decryptWithMessageKey p mk msg ad <;> rfl
  | none =>
    simp only [advanceChain, checkReplay_eq, ite_catchUp]
    split
    · rfl
    · split
      · rfl
      · rw [ok_bind]
        -- the clone moves: under a new DH key, to the message number, and over it
        show (lift (catchUp p rnd s msg.header) >>= _) s = _
        cases catchUp p rnd s msg.header with
        | error e => rfl
        | ok next =>
          rw [ok_bind, bind_of_ok lift_ok]
          cases skipMessageKeys p next msg.header.n with
          | error e => rfl
          | ok next =>
            rw [ok_bind, bind_of_ok lift_ok, takeKey]
            by_cases hck : next.ckr = .zero
            · rw [if_pos hck, if_pos hck]
              rfl
            · rw [if_neg hck, if_neg hck]
              by_cases hmax : next.nr = maxUint32
              · rw [if_pos hmax, if_pos hmax]
                rfl
              · rw [if_neg hmax, if_neg hmax]
                simp only [openWith]
                cases decryptWithMessageKey p (kdfChain p next.ckr).2 msg ad <;> rfl

/-! ## Both paths on one session -/

/-- What AES-GCM does with a ciphertext it made, under a nonce of the standard size. -/
structure GcmLaws (p : Prims) : Prop where
  open_seal : ∀ (key : Key) (nonce plaintext ad : Bytes), nonce.length = 12 →
    p.gcmOpen key nonce (p.gcmSeal key nonce plaintext ad) ad = .ok plaintext

/-- A sealed message opens under the same message key. -/
theorem decryptWithMessageKey_sealWith (laws : GcmLaws p) (mk : Key) (header : Header)
    (plaintext ad : Bytes) :
    decryptWithMessageKey p mk (sealWith p mk header plaintext ad) ad = .ok plaintext := by
  obtain ⟨hkey, hnonce⟩ := length_deriveMessageKeys (p := p) mk
  have hlen : ¬ (sealWith p mk header plaintext ad).ciphertext.length < 12 := by
    simp only [sealWith, List.length_append, hnonce]
    omega
  simp only [decryptWithMessageKey, if_neg hlen]
  simp only [sealWith, List.take_left' hnonce, List.drop_left' hnonce]
  rw [aesGCMDecrypt, if_neg (not_not.mpr hnonce), if_neg (not_not.mpr hkey)]
  simp only [List.take_left' hnonce, List.drop_left' hnonce, laws.open_seal _ _ _ _ hnonce]
  rfl

/-- One step of `x` on either path. A receive of a header that the peer has sent may fail in an
envelope, with whatever ciphertext; on the wire path a failure is dropped with its clone. -/
inductive MixedExchange (p : Prims) (c : Config) : Party → Config → Prop where
  | sendWire {x : Party} {t : State} {h : Header} {mk : Key} :
      nextSendingMessageKeyInPlace p (c.st x) = .ok (h, mk) t →
      MixedExchange p c x (c.afterSend x t h mk)
  | sendEnvelope {x : Party} {t : State} {msg : Message} (plaintext ad : Bytes) :
      encryptInPlace p plaintext ad (c.st x) = .ok msg t →
      MixedExchange p c x (c.afterSend x t msg.header (kdfChain p (c.st x).cks).2)
  | receiveWire {x : Party} {t : State} {h : Header} {mk mk' : Key} (rnd : Except String Key) :
      (h, mk') ∈ c.sent x.other →
      advanceForHeaderInPlace p rnd h (c.st x) = .ok mk t →
      (t.dhr ≠ (c.st x).dhr → ∀ kp, t.dhs = some kp → kp.publicKey ∉ c.keys) →
      MixedExchange p c x (c.afterReceive x t h)
  | receiveEnvelope {x : Party} {t : State} {msg : Message} {mk' : Key} {plaintext : Bytes}
      (rnd : Except String Key) (ad : Bytes) :
      (msg.header, mk') ∈ c.sent x.other →
      decryptInPlace p rnd msg ad (c.st x) = .ok plaintext t →
      (t.dhr ≠ (c.st x).dhr → ∀ kp, t.dhs = some kp → kp.publicKey ∉ c.keys) →
      MixedExchange p c x (c.afterReceive x t msg.header)
  | failEnvelope {x : Party} {t : State} {msg : Message} {e : Err} (rnd : Except String Key)
      (ad : Bytes) :
      decryptInPlace p rnd msg ad (c.st x) = .error e t →
      MixedExchange p c x { c with st := Function.update c.st x t }

variable {rnd : Except String Key} {header : Header}

theorem advanceForHeader_of_inPlace {mk : Key}
    (h : advanceForHeaderInPlace p rnd header s = .ok mk s') :
    advanceForHeader p rnd s header = .ok (s', mk) := by
  have hc := advanceForHeader_computes (p := p) rnd s header
  cases hadv : advanceForHeader p rnd s header with
  | ok r =>
    have := hc.1 r.2 r.1 hadv
    rw [h] at this
    cases this
    rfl
  | error e =>
    obtain ⟨t, ht⟩ := hc.2 e hadv
    rw [h] at ht
    cases ht

theorem advanceForHeader_of_inPlace_error
    (h : advanceForHeaderInPlace p rnd header s = .error e s') :
    advanceForHeader p rnd s header = .error e := by
  have hc := advanceForHeader_computes (p := p) rnd s header
  cases hadv : advanceForHeader p rnd s header with
  | ok r =>
    have := hc.1 r.2 r.1 hadv
    rw [h] at this
    cases this
  | error e' =>
    obtain ⟨t, ht⟩ := hc.2 e' hadv
    rw [h] at ht
    cases ht
    rfl

theorem nextSendingMessageKey_of_inPlace {mk : Key}
    (h : nextSendingMessageKeyInPlace p s = .ok (header, mk) s') :
    nextSendingMessageKey p s = .ok (s', header, mk) := by
  rw [nextSendingMessageKeyInPlace_eq] at h
  cases hnext : nextSendingMessageKey p s with
  | error e =>
    rw [hnext] at h
    cases h
  | ok r =>
    obtain ⟨t, header', mk'⟩ := r
    rw [hnext] at h
    cases h
    rfl

variable {ad : Bytes} {msg : Message}

/-- A message of `Encrypt` carries the header, and moves the state, of the wire path. -/
theorem nextSendingMessageKey_of_encryptInPlace {plaintext : Bytes}
    (h : encryptInPlace p plaintext ad s = .ok msg s') :
    nextSendingMessageKey p s = .ok (s', msg.header, (kdfChain p s.cks).2) ∧
      msg = sealWith p (kdfChain p s.cks).2 msg.header plaintext ad := by
  rw [encryptInPlace_eq] at h
  cases hnext : nextSendingMessageKey p s with
  | error e =>
    rw [hnext] at h
    cases h
  | ok r =>
    obtain ⟨t, header, mk⟩ := r
    rw [hnext] at h
    cases h
    obtain ⟨dhs, hdhs, hck, hmax, rfl, rfl, rfl⟩ := nextSendingMessageKey_ok.mp hnext
    exact ⟨rfl, rfl⟩

/-- `Decrypt` returned: the wire path returns with the same state, and its key opens the message. -/
theorem advanceForHeader_of_decryptInPlace {plaintext : Bytes}
    (h : decryptInPlace p rnd msg ad s = .ok plaintext s') :
    ∃ mk, advanceForHeader p rnd s msg.header = .ok (s', mk) ∧
      decryptWithMessageKey p mk msg ad = .ok plaintext := by
  rw [decryptInPlace_eq] at h
  cases hadv : advanceForHeader p rnd s msg.header with
  | error e =>
    rw [hadv] at h
    cases h
  | ok r =>
    obtain ⟨next, mk⟩ := r
    rw [hadv, openWith] at h
    cases hopen : decryptWithMessageKey p mk msg ad with
    | error e =>
      rw [hopen] at h
      cases h
    | ok pt =>
      rw [hopen] at h
      cases h
      exact ⟨mk, rfl, hopen⟩

/-- A failed `Decrypt` leaves the state as it was. -/
theorem eq_of_decryptInPlace_error (h : decryptInPlace p rnd msg ad s = .error e s') : s' = s := by
  rw [decryptInPlace_eq] at h
  unfold openWith at h
  split at h
  · cases h
    rfl
  · split at h
    · cases h
    · cases h
      rfl

variable {c : Config}

/-- A step on either path is a step of the wire path, or no step. -/
theorem MixedExchange.toExchange {c' : Config} {x : Party} (h : MixedExchange p c x c') :
    Exchange p c x c' ∨ c' = c := by
  cases h with
  | sendWire hsend => exact .inl (.send (nextSendingMessageKey_of_inPlace hsend))
  | sendEnvelope plaintext ad hsend =>
    exact .inl (.send (nextSendingMessageKey_of_encryptInPlace hsend).1)
  | receiveWire rnd hmem hrecv hfresh =>
    exact .inl (.receive rnd hmem (advanceForHeader_of_inPlace hrecv) hfresh)
  | receiveEnvelope rnd ad hmem hrecv hfresh =>
    obtain ⟨mk, hadv, -⟩ := advanceForHeader_of_decryptInPlace hrecv
    exact .inl (.receive rnd hmem hadv hfresh)
  | failEnvelope rnd ad hrecv =>
    right
    rw [eq_of_decryptInPlace_error hrecv, Function.update_eq_self]

theorem MixedExchange.run {c' : Config} {steps : List Party}
    (h : Run (MixedExchange p) c steps c') : ∃ steps', Run (Exchange p) c steps' c' := by
  induction h with
  | nil => exact ⟨[], .nil⟩
  | snoc _ hstep ih =>
    obtain ⟨steps', hrun⟩ := ih
    rcases hstep.toExchange with hwire | rfl
    · exact ⟨_, hrun.snoc hwire⟩
    · exact ⟨steps', hrun⟩

/-- The parties of a session are in step: on both paths the receiver has the key under which the
peer sent a header, moves to the same state, and opens what the peer sealed in an envelope. What
is refused on one path is refused on the other, for a reason. -/
structure InStep (p : Prims) (c : Config) : Prop where
  wire : ∀ {y h mk mk'} {t : State} (rnd : Except String Key), (h, mk') ∈ c.sent (Party.other y) →
    advanceForHeaderInPlace p rnd h (c.st y) = .ok mk t → mk = mk'
  envelope : ∀ {y h mk mk'} {t : State} (rnd : Except String Key) (plaintext ad : Bytes),
    (h, mk') ∈ c.sent (Party.other y) →
    advanceForHeaderInPlace p rnd h (c.st y) = .ok mk t →
    decryptInPlace p rnd (sealWith p mk' h plaintext ad) ad (c.st y) = .ok plaintext t
  refused : ∀ {y h mk' e kp} {t : State} (rnd : Except String Key),
    (h, mk') ∈ c.sent (Party.other y) → generateKeyPair p rnd = .ok kp →
    advanceForHeaderInPlace p rnd h (c.st y) = .error e t →
    RefusalReason c y h e ∧
      ∀ plaintext ad, decryptInPlace p rnd (sealWith p mk' h plaintext ad) ad (c.st y)
        = .error e (c.st y)

theorem Sync.inStep {x : Party} {e1 e2 e3 : Epoch} {rest : List Epoch} (laws : DHLaws p)
    (gcm : GcmLaws p) (hs : Sync p c x e1 e2 e3 rest) : InStep p c where
  wire rnd hmem hadv := hs.agree laws hmem (advanceForHeader_of_inPlace hadv)
  envelope {y h mk mk' t} rnd plaintext ad hmem hadv := by
    have hwire := advanceForHeader_of_inPlace hadv
    cases hs.agree laws hmem hwire
    rw [decryptInPlace_eq, show (sealWith p mk h plaintext ad).header = h from rfl, hwire, openWith,
      decryptWithMessageKey_sealWith gcm]
  refused {y h mk' e kp t} rnd hmem hkp hadv := by
    have hwire := advanceForHeader_of_inPlace_error hadv
    refine ⟨hs.refuse laws hmem hkp hwire, fun plaintext ad => ?_⟩
    rw [decryptInPlace_eq, show (sealWith p mk' h plaintext ad).header = h from rfl, hwire]
    rfl

/-- **The two paths agree.** `Encrypt` and `NextSendingMessageKey` fail alike or return the same
header and move to the same state, with the plaintext sealed under the message key; `Decrypt`
succeeds exactly when `AdvanceForHeader` does on a clone and its key opens the message, with the
state of the clone, and otherwise changes nothing. So two parties that mix the paths on one
session, from matching handshakes, stay in step. -/
theorem envelope_and_wire_agree (p : Prims) :
    (∀ s plaintext ad, match nextSendingMessageKeyInPlace p s with
      | .ok (header, mk) s' => encryptInPlace p plaintext ad s
          = .ok (sealWith p mk header plaintext ad) s'
      | .error e s' => s' = s ∧ encryptInPlace p plaintext ad s = .error e s) ∧
    (∀ rnd s msg ad, match advanceForHeaderInPlace p rnd msg.header s with
      | .ok mk next => decryptInPlace p rnd msg ad s =
          match decryptWithMessageKey p mk msg ad with
          | .ok plaintext => .ok plaintext next
          | .error e => .error e s
      | .error e _ => decryptInPlace p rnd msg ad s = .error e s) ∧
    (DHLaws p → GcmLaws p → ∀ {xa xb ek spk rndA rndB a b c steps}, Matching p xa xb ek spk →
      initializeState p rndA xa true = .ok a → initializeState p rndB xb false = .ok b →
      (initialKeys xa ek spk a b).Nodup →
      Run (MixedExchange p) (Config.initial a b (initialKeys xa ek spk a b)) steps c →
        InStep p c) := by
  refine ⟨fun s plaintext ad => ?_, fun rnd s msg ad => ?_, ?_⟩
  · split
    · rename_i hnext
      rw [encryptInPlace_eq, nextSendingMessageKey_of_inPlace hnext]
    · rename_i hnext
      rcases nextSendingMessageKey_cases (p := p) s with ⟨e, -, hplace, henc⟩ |
        ⟨dhs, hdhs, hck, hmax⟩
      · rw [hplace] at hnext
        cases hnext
        exact ⟨rfl, henc plaintext ad⟩
      · -- the checks have passed, and nothing else can fail
        have hok := (nextSendingMessageKey_ok (p := p)).mpr ⟨dhs, hdhs, hck, hmax, rfl, rfl, rfl⟩
        rw [nextSendingMessageKeyInPlace_eq, hok] at hnext
        cases hnext
  · split
    · rename_i hadv
      rw [decryptInPlace_eq, advanceForHeader_of_inPlace hadv, openWith]
    · rename_i hadv
      rw [decryptInPlace_eq, advanceForHeader_of_inPlace_error hadv, openWith]
  · intro laws gcm xa xb ek spk rndA rndB a b c steps hm ha hb hnodup hrun
    obtain ⟨steps', hrun'⟩ := MixedExchange.run hrun
    obtain ⟨x, e₁, e₂, e₃, rest, hs⟩ := sync_run laws hm ha hb hnodup hrun'
    exact hs.inStep laws gcm

theorem toyPrims_gcmLaws : GcmLaws toyPrims where
  open_seal key nonce plaintext ad _ := by
    simp [toyPrims]

/-- The initiator of the sample handshake sends one message on each path, and the responder, that
has received the second on the wire path, opens the first. -/
theorem envelope_and_wire_agree_sample : ∃ c msg t,
    Run (MixedExchange toyPrims) sampleConfig [.initiator, .initiator, .responder] c
    ∧ decryptInPlace toyPrims (.ok (Key.fill 5)) msg [1] (c.st .responder) = .ok [7, 8] t := by
  have h₁ : Run (MixedExchange toyPrims) sampleConfig _ _ :=
    .single (.sendEnvelope (x := .initiator) [7, 8] [1] rfl)
  have h₂ := h₁.snoc (.sendWire (x := .initiator) rfl)
  have h₃ := h₂.snoc (.receiveWire (x := .responder) (.ok (Key.fill 5))
    (List.mem_append_right _ (.head _)) rfl (fun hne => absurd rfl hne))
  obtain ⟨-, -, hrun⟩ := envelope_and_wire_agree toyPrims
  have hstep := hrun toyPrims_dhLaws toyPrims_gcmLaws (sampleResult_matching none)
    (sampleState_eq none true) (sampleState_eq none false) (by decide) h₃
  exact ⟨_, _, _, h₃, hstep.envelope (y := .responder) (.ok (Key.fill 5)) [7, 8] [1]
    (List.mem_append_left _ (.head _)) rfl⟩

end SignalGo.Ratchet
