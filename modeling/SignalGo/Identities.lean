import SignalGo.Store

/-!
# Identities saved under one address

A peer met through a wire message is saved without its signing half, and `SaveIdentity` then keeps
the half that was stored before. What is stored therefore depends on every identity saved since
the address was last forgotten.

* `lastSigner`: the identity whose signing half is stored.
* `getIdentity_saveAll`: what is stored after a history of calls.
* `stored_identity_coherent`: the two halves belong together exactly if the last identity that
  came with a signing half has the signing key of the last one.
-/

namespace SignalGo.Store

variable {addr : Address} {st : Store} {sp : Key → Key}

/-- The calls `SaveIdentity(addr, id)` for the identities of a history, oldest first. -/
def saveAll (addr : Address) (history : List (Option IdentityKey)) (st : Store) : Store :=
  history.foldl (fun st id => st.saveOrForgetIdentity addr id) st

/-- The last identity with a signing half since the address was last forgotten. -/
def lastSigner (history : List (Option IdentityKey)) : Option IdentityKey :=
  history.foldl
    (fun signer saved =>
      match saved with
      | none => none
      | some id => if id.signingPublic = .zero then signer else some id)
    none

/-- The signing half is unknown or the one of the public key. -/
def Coherent (sp : Key → Key) (id : IdentityKey) : Prop :=
  id.signingPublic = .zero ∨ id.signingPublic = sp id.publicKey

/-- The signing half that is kept for the last identity of the history is that of its key. -/
def SigningKept (sp : Key → Key) (history : List (Option IdentityKey)) : Prop :=
  ∀ id signer, history.getLast? = some (some id) → lastSigner history = some signer →
    sp signer.publicKey = sp id.publicKey

theorem saveAll_snoc (history : List (Option IdentityKey)) (id : Option IdentityKey) :
    st.saveAll addr (history ++ [id]) = (st.saveAll addr history).saveOrForgetIdentity addr id := by
  simp [saveAll]

theorem lastSigner_snoc_none (history : List (Option IdentityKey)) :
    lastSigner (history ++ [none]) = none := by
  simp [lastSigner]

theorem lastSigner_snoc_some (history : List (Option IdentityKey)) (id : IdentityKey) :
    lastSigner (history ++ [some id]) =
      if id.signingPublic = .zero then lastSigner history else some id := by
  simp [lastSigner]

variable {history : List (Option IdentityKey)}

/-- What is recorded of a signer came with a signing half, in a call of the history. -/
theorem lastSigner_mem {signer : IdentityKey} (h : lastSigner history = some signer) :
    some signer ∈ history ∧ signer.signingPublic ≠ .zero := by
  induction history using List.reverseRecOn with
  | nil => cases h
  | append_singleton history id ih =>
    rw [List.mem_append]
    cases id with
    | none =>
      rw [lastSigner_snoc_none] at h
      cases h
    | some id =>
      rw [lastSigner_snoc_some] at h
      split at h
      case isTrue => exact ⟨.inl (ih h).1, (ih h).2⟩
      case isFalse hne =>
        cases h
        exact ⟨.inr (List.mem_singleton_self _), hne⟩

theorem getIdentity_saveOrForget (id : Option IdentityKey) :
    (st.saveOrForgetIdentity addr id).getIdentity addr =
      id.map (mergeIdentity (st.getIdentity addr)) := by
  cases id with
  | none => simp [saveOrForgetIdentity, getIdentity]
  | some id => simp [saveOrForgetIdentity, saveIdentity, getIdentity]

theorem lastSigner_of_forgotten (h : history.getLast?.join = none) : lastSigner history = none := by
  induction history using List.reverseRecOn with
  | nil => rfl
  | append_singleton history id ih =>
    rw [List.getLast?_concat, Option.join_some] at h
    rw [h, lastSigner_snoc_none]

/-- The signing half of the last signer, if there is one. -/
def keptSigning (history : List (Option IdentityKey)) : Key :=
  ((lastSigner history).map IdentityKey.signingPublic).getD .zero

theorem keptSigning_snoc (history : List (Option IdentityKey)) (id : IdentityKey) :
    keptSigning (history ++ [some id]) =
      if id.signingPublic = .zero then keptSigning history else id.signingPublic := by
  rw [keptSigning, lastSigner_snoc_some]
  split <;> rfl

/-- **The stored identity after a history.** Its public key is the last one saved, its signing half
that of the last signer. -/
theorem getIdentity_saveAll (hnew : st.getIdentity addr = none)
    (history : List (Option IdentityKey)) :
    (st.saveAll addr history).getIdentity addr =
      history.getLast?.join.map fun id => ⟨id.publicKey, keptSigning history⟩ := by
  induction history using List.reverseRecOn with
  | nil => exact hnew
  | append_singleton history saved ih =>
    rw [saveAll_snoc, getIdentity_saveOrForget, ih, List.getLast?_concat, Option.join_some]
    cases saved with
    | none => rfl
    | some id =>
      rw [Option.map_some, Option.map_some, keptSigning_snoc]
      congr 1
      cases hlast : history.getLast?.join with
      | none =>
        -- Nothing is stored, so no signing half is known either.
        have hnone : keptSigning history = .zero := by
          rw [keptSigning, lastSigner_of_forgotten hlast]
          rfl
        rw [hnone, Option.map_none, mergeIdentity]
        split
        case isTrue hzero => rw [← hzero]
        case isFalse => rfl
      | some last =>
        rw [Option.map_some, mergeIdentity]
        by_cases hzero : id.signingPublic = .zero
        · by_cases hkept : keptSigning history = .zero
          · rw [if_neg (by simp [hkept]), if_pos hzero, hkept, ← hzero]
          · rw [if_pos ⟨hzero, hkept⟩, if_pos hzero]
        · rw [if_neg (by simp [hzero]), if_neg hzero]

/-! ## Do the two halves belong together? -/

/-- The kept half belongs to the last key exactly if it was saved with that signing key. -/
theorem coherent_keptSigning_iff {id : IdentityKey}
    (hgood : ∀ id, some id ∈ history → Coherent sp id) (hlast : history.getLast? = some (some id)) :
    Coherent sp ⟨id.publicKey, keptSigning history⟩ ↔ SigningKept sp history := by
  unfold Coherent SigningKept keptSigning
  cases hsigner : lastSigner history with
  | none => simp
  | some signer =>
    obtain ⟨hmem, hne⟩ := lastSigner_mem hsigner
    have hown : signer.signingPublic = sp signer.publicKey := (hgood signer hmem).resolve_left hne
    simp only [Option.map_some, Option.getD_some]
    rw [or_iff_right hne, hown]
    constructor
    · rintro heq id' signer' hid hs
      rw [hlast] at hid
      cases hid
      cases hs
      exact heq
    · exact fun hkept => hkept id signer hlast rfl

/-- A stored identity with its own halves accepts the full identity of its key. -/
theorem isTrustedIdentity_of_coherent {id : IdentityKey} (hid : st.getIdentity addr = some id)
    (h : Coherent sp id) : st.isTrustedIdentity addr ⟨id.publicKey, sp id.publicKey⟩ = true := by
  have hstored : st.identities[addr]? = some id := hid
  simp only [isTrustedIdentity, hstored]
  split
  · simp
  · rename_i hne
    rw [not_or] at hne
    simp [h.resolve_left hne.1]

/-- **When stored identities are coherent.** Let every identity saved under the address have no
signing half or the one of its key. The stored halves belong together, and the full identity of the
key saved last is trusted, exactly if the signing half that is kept was saved with a key of the
same signing key: `SaveIdentity` keeps it also for a new public key. -/
theorem stored_identity_coherent (sp : Key → Key) (addr : Address) (st : Store)
    (history : List (Option IdentityKey)) (hnew : st.getIdentity addr = none)
    (hgood : ∀ id, some id ∈ history → Coherent sp id) :
    ((∀ id, (st.saveAll addr history).getIdentity addr = some id → Coherent sp id) ∧
      ∀ id, history.getLast? = some (some id) →
        (st.saveAll addr history).isTrustedIdentity addr ⟨id.publicKey, sp id.publicKey⟩ = true) ↔
    SigningKept sp history := by
  have hstored := getIdentity_saveAll hnew history
  constructor
  · rintro ⟨hcoherent, -⟩ id signer hlast hsigner
    rw [hlast] at hstored
    exact (coherent_keptSigning_iff hgood hlast).mp (hcoherent _ hstored) id signer hlast hsigner
  · intro hkept
    have hcoherent : ∀ id, (st.saveAll addr history).getIdentity addr = some id →
        Coherent sp id := by
      intro id hid
      cases hlast : history.getLast?.join with
      | none =>
        rw [hstored, hlast] at hid
        cases hid
      | some last =>
        rw [hstored, hlast] at hid
        cases hid
        exact (coherent_keptSigning_iff hgood (Option.join_eq_some_iff.mp hlast)).mpr hkept
    refine ⟨hcoherent, fun id hlast => ?_⟩
    have hid : (st.saveAll addr history).getIdentity addr =
        some ⟨id.publicKey, keptSigning history⟩ := by
      rw [hstored, hlast]
      rfl
    have htrusted := isTrustedIdentity_of_coherent hid (hcoherent _ hid)
    exact htrusted

/-- The store of the examples, before anything is saved. -/
def emptyStore : Store := newStore ⟨⟨.zero, .zero⟩, .zero⟩ 1

/-- The peer of the examples. -/
def samplePeer : Address := ⟨[112, 101, 101, 114], 1⟩

/-- A peer that comes with both halves first, and with the public key `b` later, in a wire message
that carries no signing key. -/
def sampleHistory (b : UInt8) : List (Option IdentityKey) :=
  [some ⟨.fill 1, .fill 1⟩, some ⟨.fill b, .zero⟩]

theorem sampleHistory_coherent (b : UInt8) :
    ∀ key, some key ∈ sampleHistory b → Coherent id key := by
  intro key hkey
  simp only [sampleHistory, List.mem_cons, Option.some.injEq, List.not_mem_nil, or_false] at hkey
  rcases hkey with rfl | rfl
  · exact .inr rfl
  · exact .inl rfl

theorem stored_identity_coherent_learned :
    SigningKept id (sampleHistory 1) ∧
    (emptyStore.saveAll samplePeer (sampleHistory 1)).isTrustedIdentity samplePeer
      ⟨.fill 1, .fill 1⟩ = true :=
  have hkept : SigningKept id (sampleHistory 1) := by
    intro key signer hlast hsigner
    cases hlast
    cases hsigner
    rfl
  ⟨hkept, ((stored_identity_coherent id samplePeer emptyStore (sampleHistory 1) rfl
    (sampleHistory_coherent 1)).mpr hkept).2 ⟨.fill 1, .zero⟩ rfl⟩

/-- **A new key with the old signing half.** When the public key has changed in between, the stored
entry joins the new key with the old signing half, and the full new identity is refused. -/
theorem stored_identity_mixed :
    (∀ key, some key ∈ sampleHistory 2 → Coherent id key) ∧
    (emptyStore.saveAll samplePeer (sampleHistory 2)).getIdentity samplePeer =
      some ⟨.fill 2, .fill 1⟩ ∧
    ¬ Coherent id ⟨.fill 2, .fill 1⟩ ∧
    (emptyStore.saveAll samplePeer (sampleHistory 2)).isTrustedIdentity samplePeer
      ⟨.fill 2, .fill 2⟩ = false := by
  have hstored : (emptyStore.saveAll samplePeer (sampleHistory 2)).getIdentity samplePeer =
      some ⟨.fill 2, .fill 1⟩ := getIdentity_saveAll rfl _
  have hentry : (emptyStore.saveAll samplePeer (sampleHistory 2)).identities[samplePeer]? =
      some ⟨.fill 2, .fill 1⟩ := hstored
  refine ⟨sampleHistory_coherent 2, hstored, by unfold Coherent; decide, ?_⟩
  simp only [isTrustedIdentity, hentry]
  decide

end SignalGo.Store
