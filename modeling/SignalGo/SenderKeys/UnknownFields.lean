import SignalGo.SenderKeys.Message
import SignalGo.Wire

/-!
# Sender keys: fields that are not known

A decoder that meets a field of a number it does not know has to step over its value. The decoders
of the two group messages do so by the wire type, but know only two: bytes, and everything else as
a varint. The value of a 32-bit, 64-bit or group field is then cut at the first byte without the
high bit, and what is left of it is read as fields.

* `SkippedRun`: bytes that the loop reads as fields of unknown numbers.
* `Skippable`: the value is stepped over, up to such a run.
* `unknown_fields_skipped`: a field can be inserted into every message exactly when its value
  is like that; the decoder of the signal messages has no such condition.
-/

namespace SignalGo.SenderKeys

variable {w : Protowire}

/-! ## Stepping over a value -/

/-- `skipField` steps over a value: bytes for the type of bytes, a varint for every other one. -/
def SkipsTo (w : Protowire) (typ : WireType) (data rest : Bytes) : Prop :=
  ∃ n, rest = data.drop n ∧
    if typ = .bytes then ∃ b, w.consumeBytes data = some (b, n)
    else ∃ v, w.consumeVarint data = some (v, n)

variable {typ : WireType} {data rest : Bytes}

theorem skipField_ok {unknown : Err} :
    skipField w unknown typ data = .ok rest ↔ SkipsTo w typ data rest := by
  unfold skipField SkipsTo
  split
  · cases w.consumeBytes data with
    | none => simp
    | some r =>
      obtain ⟨b, n⟩ := r
      simp [eq_comm]
  · cases w.consumeVarint data with
    | none => simp
    | some r =>
      obtain ⟨v, n⟩ := r
      simp [eq_comm]

theorem SkipsTo.unique {rest' : Bytes} (h : SkipsTo w typ data rest)
    (h' : SkipsTo w typ data rest') : rest' = rest := by
  have hskip : skipField w (invalid "") typ data = .ok rest := skipField_ok.mpr h
  have hskip' : skipField w (invalid "") typ data = .ok rest' := skipField_ok.mpr h'
  exact Except.ok.inj (hskip'.symm.trans hskip)

theorem SkipsTo.length_le (h : SkipsTo w typ data rest) :
    rest.length ≤ data.length := by
  obtain ⟨n, rfl, -⟩ := h
  rw [List.length_drop]
  omega

/-- With more data behind it the same bytes are stepped over. -/
theorem SkipsTo.append (hw : w.Local) (hs : w.Skips) (h : SkipsTo w typ data rest) (tail : Bytes) :
    SkipsTo w typ (data ++ tail) (rest ++ tail) := by
  obtain ⟨n, rfl, h⟩ := h
  split at h
  case isTrue htyp =>
    obtain ⟨b, hval⟩ := h
    have hfield : w.consumeFieldValue 0 .bytes data = some n := hw.bytesValue hval
    obtain ⟨hle, hmore⟩ := hw.fieldValue hfield
    refine ⟨n, (List.drop_append_of_le_length hle).symm, ?_⟩
    rw [if_pos htyp]
    exact hs.bytes (hmore tail)
  case isFalse htyp =>
    obtain ⟨v, hval⟩ := h
    have hfield : w.consumeFieldValue 0 .varint data = some n := hw.varintValue hval
    obtain ⟨hle, hmore⟩ := hw.fieldValue hfield
    refine ⟨n, (List.drop_append_of_le_length hle).symm, ?_⟩
    rw [if_neg htyp]
    exact hs.varint (hmore tail)

/-- Bytes that are read as fields of unknown numbers, one behind the other. -/
inductive SkippedRun (w : Protowire) (known : Nat → Prop) : Bytes → Prop where
  | nil : SkippedRun w known []
  | field {num n : Nat} {typ : WireType} {data rest : Bytes} :
      w.consumeTag data = some (num, typ, n) → ¬ known num → SkipsTo w typ (data.drop n) rest →
      SkippedRun w known rest → SkippedRun w known data

variable {num : Nat}

theorem SkippedRun.inv (hw : w.Local) {known : Nat → Prop} {n : Nat} (h : SkippedRun w known data)
    (htag : w.consumeTag data = some (num, typ, n)) :
    ∃ rest, SkipsTo w typ (data.drop n) rest ∧ SkippedRun w known rest := by
  cases h with
  | nil =>
    have hpos := w.consumeTag_pos htag
    have hle : n ≤ 0 := (hw.tag htag).1
    omega
  | field htag' _ hskip hrun =>
    cases htag.symm.trans htag'
    exact ⟨_, hskip, hrun⟩

/-- The value of a field of an unknown number that the loop gets over without a trace. -/
def Skippable (w : Protowire) (known : Nat → Prop) (typ : WireType) (value : Bytes) : Prop :=
  ∃ rest, SkipsTo w typ value rest ∧ SkippedRun w known rest

variable {value : Bytes}

/-- The two types that are handled: the value ends where the field does. -/
theorem skippable_of_handled (hs : w.Skips) (known : Nat → Prop)
    (hvalue : w.consumeFieldValue num typ value = some value.length)
    (htyp : typ = .varint ∨ typ = .bytes) : Skippable w known typ value := by
  refine ⟨[], ⟨value.length, (List.drop_length).symm, ?_⟩, .nil⟩
  rcases htyp with rfl | rfl
  · exact hs.varint hvalue
  · exact hs.bytes hvalue

/-! ## Decoders that skip like this -/

section Decoders

variable {σ : Type} {step : FieldStep σ Err} {known : Nat → Prop} {tagErr : Err}

/-- A field of an unknown number is skipped and changes nothing. Two decoders that read the same
field agree in it afterwards: `meets s t` says that two states have a field in common. -/
structure SkipsUnknown (w : Protowire) (step : FieldStep σ Err) (known : Nat → Prop)
    (meets : σ → σ → Prop) : Prop where
  shrinks : Shrinks step
  skip {s s' : σ} {num : Nat} {typ : WireType} {data rest : Bytes} : ¬ known num →
    (step s num typ data = .ok (s', rest) ↔ s' = s ∧ SkipsTo w typ data rest)
  meet {s s' t t' : σ} {num : Nat} {typ : WireType} {data rest rest' : Bytes} :
    step s num typ data = .ok (s', rest) → step t num typ data = .ok (t', rest') →
      rest' = rest ∧ (known num ∨ meets s t → meets s' t')

variable {meets : σ → σ → Prop} (hstep : SkipsUnknown w step known meets)

include hstep

theorem SkippedRun.decodes (hw : w.Local) (hs : w.Skips) (h : SkippedRun w known data) (s : σ) :
    Decodes w tagErr step data s s := by
  induction h with
  | nil => exact .nil
  | @field num n typ data rest htag hknown hskip _ ih =>
    intro passes tail hlen
    have hpos := w.consumeTag_pos htag
    obtain ⟨hn, htag'⟩ := hw.tag htag
    obtain ⟨passes, rfl⟩ : ∃ m, passes = m + 1 := ⟨passes - 1, by omega⟩
    have hne : (data ++ tail).isEmpty = false := by
      cases data with
      | nil => simp at hn; omega
      | cons b data => rfl
    have hfield := (hstep.skip (s := s) hknown).mpr ⟨rfl, hskip.append hw hs tail⟩
    have hle := hskip.length_le
    rw [List.length_drop] at hle
    obtain ⟨passes', hle', heq⟩ := ih passes tail (by omega)
    refine ⟨passes', hle', ?_⟩
    rw [decodeLoop, hne, if_neg Bool.false_ne_true, htag' tail]
    simp only [List.drop_append_of_le_length hn, hfield, ok_bind]
    exact heq

/-- Two loops over the same fields. What they have in common they keep. -/
theorem meets_decodeLoop {passes : Nat} {s s' t t' : σ} (hmeets : meets s t)
    (h : decodeLoop w tagErr step passes s data = .ok s')
    (h' : decodeLoop w tagErr step passes t data = .ok t') : meets s' t' := by
  induction passes generalizing s t data with
  | zero =>
    cases h
    cases h'
    exact hmeets
  | succ passes ih =>
    rw [decodeLoop] at h h'
    split at h
    case isTrue hempty =>
      rw [if_pos hempty] at h'
      cases h
      cases h'
      exact hmeets
    case isFalse hne =>
      rw [if_neg hne] at h'
      split at h
      · cases h
      · rename_i num typ n htag
        rw [htag] at h'
        obtain ⟨⟨s1, rest⟩, hs, hrest⟩ := bind_eq_ok.mp h
        obtain ⟨⟨t1, rest'⟩, ht, hrest'⟩ := bind_eq_ok.mp h'
        obtain ⟨rfl, hkeep⟩ := hstep.meet hs ht
        exact ih (hkeep (.inr hmeets)) hrest hrest'

/-- Bytes that bring two decoders with nothing in common back to where they were are a run of
fields that are skipped: a field with a known number would give them one in common. -/
theorem skippedRun_of_decodeLoop {passes : Nat} {s t : σ} (hlen : data.length ≤ passes)
    (hmeets : ¬ meets s t) (h : decodeLoop w tagErr step passes s data = .ok s)
    (h' : decodeLoop w tagErr step passes t data = .ok t) : SkippedRun w known data := by
  induction passes generalizing data with
  | zero =>
    cases List.eq_nil_of_length_eq_zero (Nat.le_zero.mp hlen)
    exact .nil
  | succ passes ih =>
    rw [decodeLoop] at h h'
    split at h
    case isTrue hempty =>
      cases List.isEmpty_iff.mp hempty
      exact .nil
    case isFalse hne =>
      rw [if_neg hne] at h'
      split at h
      · cases h
      · rename_i num typ n htag
        rw [htag] at h'
        obtain ⟨⟨s1, rest⟩, hs, hrest⟩ := bind_eq_ok.mp h
        obtain ⟨⟨t1, rest'⟩, ht, hrest'⟩ := bind_eq_ok.mp h'
        obtain ⟨rfl, hkeep⟩ := hstep.meet hs ht
        have hknown : ¬ known num := fun hk =>
          hmeets (meets_decodeLoop hstep (hkeep (.inl hk)) hrest hrest')
        obtain ⟨rfl, hskip⟩ := (hstep.skip hknown).mp hs
        obtain ⟨rfl, -⟩ := (hstep.skip hknown).mp ht
        have hn := w.consumeTag_pos htag
        have hle := hskip.length_le
        rw [List.length_drop] at hle
        exact .field htag hknown hskip (ih (by omega) hrest hrest')

/-- **Inserting a field.** `finish` is what a decoder does behind the loop. With two messages that
have nothing in common, a field of an unknown number can be inserted at every boundary of every
message exactly when it can be skipped. -/
theorem insert_iff (laws : w.Laws) (hw : w.Local) (hs : w.Skips) {ρ : Type} {start s1 s2 : σ}
    {finish : σ → Except Err ρ} {enc1 enc2 : Bytes}
    (hfinish : ∀ s t r, finish s = .ok r → finish t = .ok r → s = t)
    (h1 : Decodes w tagErr step enc1 start s1) (hr1 : ∃ r, finish s1 = .ok r)
    (h2 : Decodes w tagErr step enc2 start s2) (hr2 : ∃ r, finish s2 = .ok r)
    (hmeets : ¬ meets s1 s2) (hpos : 0 < num) (hmax : num < 2 ^ 29) (hknown : ¬ known num) :
    (∀ pre post s r, Decodes w tagErr step pre start s →
      (decodeFields w tagErr step start (pre ++ post) >>= finish) = .ok r →
      (decodeFields w tagErr step start (pre ++ (w.appendTag num typ ++ value) ++ post) >>= finish)
        = .ok r) ↔ Skippable w known typ value := by
  have htag := laws.tag num typ value hpos hmax
  constructor
  · intro h
    -- at the end of a message the field has to bring the decoder back to the same state
    have hback {enc : Bytes} {s : σ} (hdec : Decodes w tagErr step enc start s)
        (hr : ∃ r, finish s = .ok r) :
        decodeFields w tagErr step s (w.appendTag num typ ++ value) = .ok s := by
      obtain ⟨r, hr⟩ := hr
      have hins := h enc [] s r hdec (by rw [List.append_nil, hdec.eq, ok_bind, hr])
      rw [List.append_nil, hdec.append hstep.shrinks] at hins
      obtain ⟨s', hloop, hs'⟩ := bind_eq_ok.mp hins
      rw [hloop, hfinish s' s r hs' hr]
    have hrun := skippedRun_of_decodeLoop hstep le_rfl hmeets (hback h1 hr1) (hback h2 hr2)
    have hvalue := hrun.inv hw htag
    rwa [List.drop_left] at hvalue
  · rintro ⟨rest, hskip, hrun⟩ pre post s r hpre hr
    have hfield : SkippedRun w known (w.appendTag num typ ++ value) :=
      .field htag hknown (by rwa [List.drop_left]) hrun
    rw [(hpre.trans (hfield.decodes hstep hw hs s)).append hstep.shrinks]
    rwa [hpre.append hstep.shrinks] at hr

end Decoders

/-! ## The two group messages -/

theorem length_of_bytesField {typeErr valueErr : Err} {val : Bytes}
    (h : bytesField w typeErr valueErr typ data = .ok (val, rest)) : rest.length ≤ data.length := by
  unfold bytesField at h
  split at h
  · cases h
  · split at h
    · cases h
    · cases h
      rw [List.length_drop]
      omega

theorem length_of_uint32Field {what : String} {val : UInt32}
    (h : uint32Field w what typ data = .ok (val, rest)) : rest.length ≤ data.length := by
  obtain ⟨⟨v, rest'⟩, hval, hret⟩ := bind_eq_ok.mp h
  cases hret
  unfold varintField at hval
  split at hval
  · cases hval
  · split at hval
    · cases hval
    · cases hval
      rw [List.length_drop]
      omega

theorem length_of_distributionIDField {id : ByteArr 16}
    (h : distributionIDField w typ data = .ok (id, rest)) : rest.length ≤ data.length := by
  obtain ⟨⟨val, rest'⟩, hval, h⟩ := bind_eq_ok.mp h
  simp only at h
  split at h
  · cases h
  · cases h
    exact length_of_bytesField hval

theorem length_of_chainKeyField {key : Key} (h : chainKeyField w typ data = .ok (key, rest)) :
    rest.length ≤ data.length := by
  obtain ⟨⟨val, rest'⟩, hval, h⟩ := bind_eq_ok.mp h
  simp only at h
  split at h
  · cases h
  · cases h
    exact length_of_bytesField hval

theorem length_of_signingKeyField {p : Prims} {key : Key}
    (h : signingKeyField p w typ data = .ok (key, rest)) : rest.length ≤ data.length := by
  obtain ⟨⟨val, rest'⟩, hval, h⟩ := bind_eq_ok.mp h
  have hle := length_of_bytesField hval
  simp only at h
  split at h
  · split at h
    · cases h
      exact hle
    · cases h
  · split at h
    · obtain ⟨key', -, h⟩ := bind_eq_ok.mp h
      cases h
      exact hle
    · cases h

/-- The numbers `decodeSenderKeyMessageBody` knows. -/
def MessageKnown (num : Nat) : Prop := 1 ≤ num ∧ num ≤ 4

/-- The two decoders have read the same for some field. -/
def MessageFields.Meets (s t : MessageFields) : Prop :=
  s.distributionID = t.distributionID ∨ s.keyID = t.keyID ∨ s.iteration = t.iteration ∨
    s.ciphertext = t.ciphertext

/-- The branch for the other numbers, of either decoder. -/
theorem skip_eq_ok {σ : Type} {unknown : Err} {s s' : σ} :
    (do let rest ← skipField w unknown typ data
        return (s, rest)) = Except.ok (s', rest) ↔ s' = s ∧ SkipsTo w typ data rest := by
  rw [bind_eq_ok]
  constructor
  · rintro ⟨rest', hskip, hret⟩
    cases hret
    exact ⟨rfl, skipField_ok.mp hskip⟩
  · rintro ⟨rfl, hskip⟩
    exact ⟨rest, skipField_ok.mpr hskip, rfl⟩

theorem messageField_unknown {s : MessageFields} (h : ¬ MessageKnown num) :
    messageField w s num typ data = (do
      let rest ← skipField w (invalid "sender key unknown field") typ data
      return (s, rest)) := by
  unfold messageField
  split
  case h_5 => rfl
  all_goals exact absurd ⟨by decide, by decide⟩ h

theorem messageField_skips : SkipsUnknown w (messageField w) MessageKnown MessageFields.Meets where
  shrinks := by
    intro s num typ data s' rest h
    unfold messageField at h
    split at h
    all_goals
      obtain ⟨val, hval, h⟩ := bind_eq_ok.mp h
      cases h
    · exact length_of_distributionIDField hval
    · exact length_of_uint32Field hval
    · exact length_of_uint32Field hval
    · exact length_of_bytesField hval
    · exact (skipField_ok.mp hval).length_le
  skip := by
    intro s s' num typ data rest hknown
    rw [messageField_unknown hknown]
    exact skip_eq_ok
  meet := by
    intro s s' t t' num typ data rest rest' h h'
    by_cases hknown : MessageKnown num
    · -- a known field is overwritten in both
      obtain ⟨hlow, hhigh⟩ := hknown
      interval_cases num
      all_goals
        obtain ⟨val, hval, hret⟩ := bind_eq_ok.mp h
        obtain ⟨val', hval', hret'⟩ := bind_eq_ok.mp h'
        cases hval.symm.trans hval'
        cases hret
        cases hret'
      · exact ⟨rfl, fun _ => .inl rfl⟩
      · exact ⟨rfl, fun _ => .inr (.inl rfl)⟩
      · exact ⟨rfl, fun _ => .inr (.inr (.inl rfl))⟩
      · exact ⟨rfl, fun _ => .inr (.inr (.inr rfl))⟩
    · rw [messageField_unknown hknown, skip_eq_ok] at h h'
      obtain ⟨rfl, hskip⟩ := h
      obtain ⟨rfl, hskip'⟩ := h'
      exact ⟨hskip.unique hskip', fun hor => hor.resolve_left hknown⟩

/-- The numbers `decodeSenderKeyDistributionBody` knows. -/
def DistributionKnown (num : Nat) : Prop := 1 ≤ num ∧ num ≤ 5

def DistributionFields.Meets (s t : DistributionFields) : Prop :=
  s.distributionID = t.distributionID ∨ s.keyID = t.keyID ∨ s.iteration = t.iteration ∨
    s.chainKey = t.chainKey ∨ s.signingPublic = t.signingPublic

variable {p : Prims}

theorem distributionField_unknown {s : DistributionFields} (h : ¬ DistributionKnown num) :
    distributionField p w s num typ data = (do
      let rest ← skipField w (invalid "sender key distribution unknown field") typ data
      return (s, rest)) := by
  unfold distributionField
  split
  case h_6 => rfl
  all_goals exact absurd ⟨by decide, by decide⟩ h

theorem distributionField_skips :
    SkipsUnknown w (distributionField p w) DistributionKnown DistributionFields.Meets where
  shrinks := by
    intro s num typ data s' rest h
    unfold distributionField at h
    split at h
    all_goals
      obtain ⟨val, hval, h⟩ := bind_eq_ok.mp h
      cases h
    · exact length_of_distributionIDField hval
    · exact length_of_uint32Field hval
    · exact length_of_uint32Field hval
    · exact length_of_chainKeyField hval
    · exact length_of_signingKeyField hval
    · exact (skipField_ok.mp hval).length_le
  skip := by
    intro s s' num typ data rest hknown
    rw [distributionField_unknown hknown]
    exact skip_eq_ok
  meet := by
    intro s s' t t' num typ data rest rest' h h'
    by_cases hknown : DistributionKnown num
    · obtain ⟨hlow, hhigh⟩ := hknown
      interval_cases num
      all_goals
        obtain ⟨val, hval, hret⟩ := bind_eq_ok.mp h
        obtain ⟨val', hval', hret'⟩ := bind_eq_ok.mp h'
        cases hval.symm.trans hval'
        cases hret
        cases hret'
      · exact ⟨rfl, fun _ => .inl rfl⟩
      · exact ⟨rfl, fun _ => .inr (.inl rfl)⟩
      · exact ⟨rfl, fun _ => .inr (.inr (.inl rfl))⟩
      · exact ⟨rfl, fun _ => .inr (.inr (.inr (.inl rfl)))⟩
      · exact ⟨rfl, fun _ => .inr (.inr (.inr (.inr rfl)))⟩
    · rw [distributionField_unknown hknown, skip_eq_ok] at h h'
      obtain ⟨rfl, hskip⟩ := h
      obtain ⟨rfl, hskip'⟩ := h'
      exact ⟨hskip.unique hskip', fun hor => hor.resolve_left hknown⟩

/-! ## The signal messages -/

def SignalKnown (num : Nat) : Prop := 1 ≤ num ∧ num ≤ 5

theorem signalField_unknown {s : Wire.SignalFields} (h : ¬ SignalKnown num) :
    Wire.signalField p w s num typ data =
      match w.consumeFieldValue num typ data with
      | none => .error (invalid "signal message field")
      | some n => .ok (s, data.drop n) := by
  unfold Wire.signalField
  split
  case h_6 => rfl
  all_goals exact absurd ⟨by decide, by decide⟩ h

theorem shrinks_signalField : Shrinks (Wire.signalField p w) := by
  intro s num typ data s' rest h
  by_cases hknown : SignalKnown num
  · obtain ⟨hlow, hhigh⟩ := hknown
    interval_cases num
    all_goals
      obtain ⟨⟨val, rest'⟩, hval, hret⟩ := bind_eq_ok.mp h
      cases hret
    · obtain ⟨⟨raw, rest'⟩, hraw, hkey⟩ := bind_eq_ok.mp hval
      obtain ⟨key, -, hret⟩ := bind_eq_ok.mp hkey
      cases hret
      exact length_of_bytesField hraw
    · exact length_of_uint32Field hval
    · exact length_of_uint32Field hval
    · exact length_of_bytesField hval
    · exact length_of_bytesField hval
  · rw [signalField_unknown hknown] at h
    split at h
    · cases h
    · cases h
      rw [List.length_drop]
      omega

/-! ## All three decoders -/

/-- What the decoders have read before the first field. -/
def MessageFields.start : MessageFields :=
  { distributionID := none, keyID := none, iteration := none, ciphertext := none }

def DistributionFields.start : DistributionFields :=
  { distributionID := none, keyID := none, iteration := none, chainKey := none,
    signingPublic := none }

def signalStart : Wire.SignalFields :=
  { senderRatchet := none, counter := none, previousCounter := 0, ciphertext := none,
    pqRatchet := [] }

theorem message_insert_iff (laws : w.Laws) (hw : w.Local) (hs : w.Skips) (hpos : 0 < num)
    (hmax : num < 2 ^ 29) (hknown : ¬ MessageKnown num) :
    (∀ pre post s r, Decodes w (invalid "sender key tag") (messageField w) pre .start s →
      decodeSenderKeyMessageBody w (pre ++ post) = .ok r →
      decodeSenderKeyMessageBody w (pre ++ (w.appendTag num typ ++ value) ++ post) = .ok r) ↔
    Skippable w MessageKnown typ value := by
  refine insert_iff messageField_skips laws hw hs ?_
    (decodes_senderKeyMessageBody laws .zero 0 0 [] _) ?_
    (decodes_senderKeyMessageBody laws (.ofBytes 16 [1]) 1 1 [1] _) ?_ ?_ hpos hmax hknown
  · rintro ⟨_ | id, _ | keyID, _ | iteration, _ | ciphertext⟩
      ⟨_ | id', _ | keyID', _ | iteration', _ | ciphertext'⟩ r h h' <;> cases h <;> cases h'
    rfl
  · exact ⟨_, rfl⟩
  · exact ⟨_, rfl⟩
  · rintro (h | h | h | h) <;> exact absurd h (by decide)

/-- An unknown field may stand anywhere exactly if it is skipped as a whole. -/
theorem distribution_insert_iff (laws : w.Laws) (hw : w.Local) (hs : w.Skips) {k1 k2 : Key}
    (hk1 : isValidPublicKey p k1 = true) (hk2 : isValidPublicKey p k2 = true) (hne : k1 ≠ k2)
    (version : UInt8) (hpos : 0 < num) (hmax : num < 2 ^ 29) (hknown : ¬ DistributionKnown num) :
    (∀ pre post s r,
      Decodes w (invalid "sender key distribution tag") (distributionField p w) pre .start s →
      decodeSenderKeyDistributionBody p w version (pre ++ post) = .ok r →
      decodeSenderKeyDistributionBody p w version (pre ++ (w.appendTag num typ ++ value) ++ post) =
        .ok r) ↔
    Skippable w DistributionKnown typ value := by
  let m1 : DistributionMessage := ⟨version, .zero, 0, 0, .zero, k1⟩
  let m2 : DistributionMessage := ⟨version, .ofBytes 16 [1], 1, 1, .ofBytes 32 [1], k2⟩
  refine insert_iff distributionField_skips laws hw hs ?_
    (decodes_senderKeyDistributionBody laws (m := m1) hk1 _) ?_
    (decodes_senderKeyDistributionBody laws (m := m2) hk2 _) ?_ ?_ hpos hmax hknown
  · rintro ⟨_ | id, _ | keyID, _ | iteration, _ | chainKey, _ | signingPublic⟩
      ⟨_ | id', _ | keyID', _ | iteration', _ | chainKey', _ | signingPublic'⟩ r h h' <;>
      cases h <;> cases h'
    rfl
  · exact ⟨_, rfl⟩
  · exact ⟨_, rfl⟩
  · rintro (h | h | h | h | h)
    · exact absurd (show (ByteArr.zero : ByteArr 16) = .ofBytes 16 [1] from Option.some.inj h)
        (by decide)
    · exact absurd (show (0 : UInt32) = 1 from Option.some.inj h) (by decide)
    · exact absurd (show (0 : UInt32) = 1 from Option.some.inj h) (by decide)
    · exact absurd (show (ByteArr.zero : Key) = .ofBytes 32 [1] from Option.some.inj h) (by decide)
    · exact hne (Option.some.inj h)

theorem signal_insert (laws : w.Laws) (hw : w.Local) (hpos : 0 < num) (hmax : num < 2 ^ 29)
    (hknown : ¬ SignalKnown num) (hvalue : w.consumeFieldValue num typ value = some value.length)
    {pre post : Bytes} {s : Wire.SignalFields}
    (hpre : Decodes w (invalid "signal message tag") (Wire.signalField p w) pre signalStart s) :
    Wire.decodeSignalMessageBody p w (pre ++ (w.appendTag num typ ++ value) ++ post) =
      Wire.decodeSignalMessageBody p w (pre ++ post) := by
  have hfield : Decodes w (invalid "signal message tag") (Wire.signalField p w)
      (w.appendTag num typ ++ value) s s :=
    .field laws ⟨hpos, hmax⟩ fun rest => by
      rw [signalField_unknown hknown, (hw.fieldValue hvalue).2 rest]
      simp
  have hsame := (hpre.trans hfield).append shrinks_signalField post
  rw [← hpre.append shrinks_signalField] at hsame
  unfold Wire.decodeSignalMessageBody
  exact congrArg (· >>= _) hsame

/-- **Unknown fields.** A well-formed field of a number that the decoder does not know can be
inserted at every field boundary of every valid group message without a change of the result
exactly when its value is skippable, which values of varints and bytes are; for the decoder of
signal messages every value is. -/
theorem unknown_fields_skipped (p : Prims) (w : Protowire) (laws : w.Laws) (hw : w.Local)
    (hs : w.Skips) {k₁ k₂ : Key} (hk₁ : isValidPublicKey p k₁ = true)
    (hk₂ : isValidPublicKey p k₂ = true) (hne : k₁ ≠ k₂) {num : Nat} (hpos : 0 < num)
    (hmax : num < 2 ^ 29) {typ : WireType} {value : Bytes}
    (hvalue : w.consumeFieldValue num typ value = some value.length) :
    (¬ MessageKnown num →
      ((∀ pre post s r, Decodes w (invalid "sender key tag") (messageField w) pre .start s →
        decodeSenderKeyMessageBody w (pre ++ post) = .ok r →
        decodeSenderKeyMessageBody w (pre ++ (w.appendTag num typ ++ value) ++ post) = .ok r) ↔
      Skippable w MessageKnown typ value)) ∧
    (¬ DistributionKnown num → ∀ version,
      ((∀ pre post s r,
        Decodes w (invalid "sender key distribution tag") (distributionField p w) pre .start s →
        decodeSenderKeyDistributionBody p w version (pre ++ post) = .ok r →
        decodeSenderKeyDistributionBody p w version
          (pre ++ (w.appendTag num typ ++ value) ++ post) = .ok r) ↔
      Skippable w DistributionKnown typ value)) ∧
    (typ = .varint ∨ typ = .bytes →
      Skippable w MessageKnown typ value ∧ Skippable w DistributionKnown typ value) ∧
    (¬ SignalKnown num → ∀ pre post s,
      Decodes w (invalid "signal message tag") (Wire.signalField p w) pre signalStart s →
      Wire.decodeSignalMessageBody p w (pre ++ (w.appendTag num typ ++ value) ++ post) =
        Wire.decodeSignalMessageBody p w (pre ++ post)) := by
  refine ⟨fun hknown => ?_, fun hknown version => ?_, fun htyp => ?_,
    fun hknown pre post s hpre => ?_⟩
  · exact message_insert_iff laws hw hs hpos hmax hknown
  · exact distribution_insert_iff laws hw hs hk₁ hk₂ hne version hpos hmax hknown
  · exact ⟨skippable_of_handled hs _ hvalue htyp, skippable_of_handled hs _ hvalue htyp⟩
  · exact signal_insert laws hw hpos hmax hknown hvalue hpre

/-- A varint of one byte in field 6. -/
theorem unknown_fields_skipped_varint : ∃ r,
    decodeSenderKeyMessageBody varintWire (encodeSenderKeyMessageBody varintWire .zero 7 8 [1] ++
      (varintWire.appendTag 6 .varint ++ [0]) ++ []) = .ok r ∧ r = (.zero, 7, 8, [1]) := by
  have hkey₁ : isValidPublicKey toyPrims (toyPair 1).publicKey = true := by decide
  have hkey₂ : isValidPublicKey toyPrims (toyPair 2).publicKey = true := by decide
  obtain ⟨hmessage, -, hhandled, -⟩ := unknown_fields_skipped toyPrims varintWire varintWire_laws
    varintWire_local varintWire_skips hkey₁ hkey₂ (by decide) (show 0 < 6 by decide)
    (by decide) (show varintWire.consumeFieldValue 6 .varint [0] = some 1 by decide)
  have hinsert := (hmessage (by unfold MessageKnown; decide)).mpr (hhandled (.inl rfl)).1
  have hbody := decodeSenderKeyMessageBody_encode varintWire_laws .zero 7 8 [1]
  refine ⟨_, hinsert _ [] _ _ (decodes_senderKeyMessageBody varintWire_laws .zero 7 8 [1] _) ?_,
    rfl⟩
  rwa [List.append_nil]

/-- A 32-bit field behind a message. Its first byte is taken for a varint, and the other three for
the tag and the value of field 3, so that the message comes out with another iteration. -/
theorem unknown_fields_skipped_fixed32 :
    varintWire.consumeFieldValue 6 .fixed32 [0, 0x18, 0xe3, 0] = some 4 ∧
    decodeSenderKeyMessageBody varintWire (encodeSenderKeyMessageBody varintWire .zero 7 8 [1]) =
      .ok (.zero, 7, 8, [1]) ∧
    decodeSenderKeyMessageBody varintWire (encodeSenderKeyMessageBody varintWire .zero 7 8 [1] ++
      (varintWire.appendTag 6 .fixed32 ++ [0, 0x18, 0xe3, 0])) = .ok (.zero, 7, 99, [1]) := by
  have hbody := decodes_senderKeyMessageBody varintWire_laws .zero 7 8 [1] .start
  have htag : varintWire.appendTag 6 .fixed32 = [0x35] := by
    show varintBytes 53 = _
    rw [varintBytes, if_pos (by decide)]
    rfl
  refine ⟨rfl, decodeSenderKeyMessageBody_encode varintWire_laws .zero 7 8 [1], ?_⟩
  have hloop := hbody.append messageField_skips.shrinks
    (varintWire.appendTag 6 .fixed32 ++ [0, 0x18, 0xe3, 0])
  rw [htag] at hloop ⊢
  exact (congrArg (· >>= _) hloop).trans rfl

end SignalGo.SenderKeys
