import SignalGo.Lib.Bytes

/-!
# Protocol-buffer fields

The low-level field coding a hand-written protocol-buffer codec is made of. The functions that
append and consume tags, varints and length-prefixed bytes are the parameters `Protowire`;
`Protowire.Laws` says that every consumer inverts the matching appender.

* `decodeFields`: the loop over the fields of a message: a tag, then the field's own code.
* `Decodes`: the loop, in front of the bytes `enc`, goes from one decoder state to another
  and stops right behind them. `Decodes.field` and `Decodes.trans` follow an encoder field by
  field, `Decodes.eq` closes the message.
* `Takes`: what a field reads of the data. Under `Protowire.Local` two decoders that accept the
  same bytes read the same fields (`decodeFields_lockstep`).
* `varintWire`: the base-128 coding itself, which satisfies the laws.
-/

namespace SignalGo

/-- The wire type of a field, the low three bits of its tag. -/
inductive WireType where
  | varint
  | fixed64
  | bytes
  | startGroup
  | endGroup
  | fixed32
  | reserved6
  | reserved7
  deriving DecidableEq

/-- The appenders return what they append. The consumers return the value and the number of
bytes it took, or nothing where the library reports a parse error. -/
structure Protowire where
  appendTag : Nat → WireType → Bytes
  appendVarint : UInt64 → Bytes
  appendBytes : Bytes → Bytes
  consumeTag : Bytes → Option (Nat × WireType × Nat)
  consumeVarint : Bytes → Option (UInt64 × Nat)
  consumeBytes : Bytes → Option (Bytes × Nat)
  consumeFieldValue : Nat → WireType → Bytes → Option Nat
  /-- A tag is never empty. -/
  consumeTag_pos {data : Bytes} {num n : Nat} {typ : WireType} :
    consumeTag data = some (num, typ, n) → 0 < n

/-- Each append is inverted by the matching consume, whatever follows. -/
structure Protowire.Laws (w : Protowire) : Prop where
  tag (num : Nat) (typ : WireType) (rest : Bytes) (hpos : 0 < num) (hmax : num < 2 ^ 29) :
    w.consumeTag (w.appendTag num typ ++ rest) = some (num, typ, (w.appendTag num typ).length)
  varint (v : UInt64) (rest : Bytes) :
    w.consumeVarint (w.appendVarint v ++ rest) = some (v, (w.appendVarint v).length)
  bytes (b rest : Bytes) :
    w.consumeBytes (w.appendBytes b ++ rest) = some (b, (w.appendBytes b).length)

/-- Bytes are appended with at least themselves. -/
def Protowire.Sized (w : Protowire) : Prop := ∀ b : Bytes, b.length ≤ (w.appendBytes b).length

/-- A consumer reads no further than it says: what it accepts it accepts with anything behind it,
and the consumer of a field that is not known agrees with the one for the wire type. -/
structure Protowire.Local (w : Protowire) : Prop where
  tag {data : Bytes} {num n : Nat} {typ : WireType} : w.consumeTag data = some (num, typ, n) →
    n ≤ data.length ∧ ∀ rest, w.consumeTag (data ++ rest) = some (num, typ, n)
  fieldValue {data : Bytes} {num n : Nat} {typ : WireType} :
    w.consumeFieldValue num typ data = some n →
      n ≤ data.length ∧ ∀ rest, w.consumeFieldValue num typ (data ++ rest) = some n
  varintValue {data : Bytes} {num n : Nat} {v : UInt64} :
    w.consumeVarint data = some (v, n) → w.consumeFieldValue num .varint data = some n
  bytesValue {data b : Bytes} {num n : Nat} :
    w.consumeBytes data = some (b, n) → w.consumeFieldValue num .bytes data = some n

/-- For varints and bytes, what `consumeFieldValue` steps over is what the consumer of the type
accepts. -/
structure Protowire.Skips (w : Protowire) : Prop where
  varint {data : Bytes} {num n : Nat} : w.consumeFieldValue num .varint data = some n →
    ∃ v, w.consumeVarint data = some (v, n)
  bytes {data : Bytes} {num n : Nat} : w.consumeFieldValue num .bytes data = some n →
    ∃ b, w.consumeBytes data = some (b, n)

variable {data : Bytes}

section Fields

variable {σ τ ε : Type} (w : Protowire)

/-! ## Reading one field -/

/-- The code of a bytes field: the wire type is checked, then the value is consumed. Returns
the value and the data behind it. -/
def bytesField (typeErr valueErr : ε) (typ : WireType) (data : Bytes) :
    Except ε (Bytes × Bytes) :=
  if typ ≠ .bytes then .error typeErr
  else
    match w.consumeBytes data with
    | none => .error valueErr
    | some (val, n) => .ok (val, data.drop n)

/-- The code of a varint field. -/
def varintField (typeErr valueErr : ε) (typ : WireType) (data : Bytes) :
    Except ε (UInt64 × Bytes) :=
  if typ ≠ .varint then .error typeErr
  else
    match w.consumeVarint data with
    | none => .error valueErr
    | some (val, n) => .ok (val, data.drop n)

variable {w}

theorem bytesField_append (laws : w.Laws) (typeErr valueErr : ε) (b rest : Bytes) :
    bytesField w typeErr valueErr .bytes (w.appendBytes b ++ rest) = .ok (b, rest) := by
  simp [bytesField, laws.bytes]

theorem varintField_append (laws : w.Laws) (typeErr valueErr : ε) (v : UInt64) (rest : Bytes) :
    varintField w typeErr valueErr .varint (w.appendVarint v ++ rest) = .ok (v, rest) := by
  simp [varintField, laws.varint]

/-- The value of the field is in front of the data, and `rest` behind it. -/
def Takes (w : Protowire) (num : Nat) (typ : WireType) (data rest : Bytes) : Prop :=
  ∃ n, w.consumeFieldValue num typ data = some n ∧ rest = data.drop n

variable {num : Nat} {typ : WireType} {rest : Bytes}

theorem takes_of_bytesField (hw : w.Local) {typeErr valueErr : ε} {val : Bytes}
    (h : bytesField w typeErr valueErr typ data = .ok (val, rest)) :
    typ = .bytes ∧ Takes w num typ data rest := by
  unfold bytesField at h
  split at h
  · cases h
  · rename_i htyp
    rw [not_not] at htyp
    subst htyp
    split at h
    · cases h
    · rename_i val n hval
      cases h
      exact ⟨rfl, n, hw.bytesValue hval, rfl⟩

theorem takes_of_varintField (hw : w.Local) {typeErr valueErr : ε} {val : UInt64}
    (h : varintField w typeErr valueErr typ data = .ok (val, rest)) :
    typ = .varint ∧ Takes w num typ data rest := by
  unfold varintField at h
  split at h
  · cases h
  · rename_i htyp
    rw [not_not] at htyp
    subst htyp
    split at h
    · cases h
    · rename_i val n hval
      cases h
      exact ⟨rfl, n, hw.varintValue hval, rfl⟩

/-- With more data behind it the field takes the same bytes. -/
theorem Takes.append (hw : w.Local) {rest' tail : Bytes} (h : Takes w num typ data rest)
    (h' : Takes w num typ (data ++ tail) rest') :
    rest' = rest ++ tail ∧ rest.length ≤ data.length := by
  obtain ⟨n, hn, rfl⟩ := h
  obtain ⟨n', hn', rfl⟩ := h'
  obtain ⟨hle, hmore⟩ := hw.fieldValue hn
  rw [hmore tail, Option.some.injEq] at hn'
  subst hn'
  exact ⟨List.drop_append_of_le_length hle, by rw [List.length_drop]; omega⟩

/-! ## The loop over the fields -/

/-- `step s num typ data` handles the field with the given tag: it returns the new decoder
state and the data behind the field. -/
abbrev FieldStep (σ ε : Type) := σ → Nat → WireType → Bytes → Except ε (σ × Bytes)

/-- `for len(data) > 0 { … }`. Every pass takes at least the tag off the data, so as many
passes as there are bytes are enough. -/
def decodeLoop (w : Protowire) (tagErr : ε) (step : FieldStep σ ε) :
    Nat → σ → Bytes → Except ε σ
  | 0, s, _ => .ok s
  | passes + 1, s, data =>
    if data.isEmpty then .ok s
    else
      match w.consumeTag data with
      | none => .error tagErr
      | some (num, typ, n) => do
        let (s, rest) ← step s num typ (data.drop n)
        decodeLoop w tagErr step passes s rest

def decodeFields (w : Protowire) (tagErr : ε) (step : FieldStep σ ε) (s : σ) (data : Bytes) :
    Except ε σ :=
  decodeLoop w tagErr step data.length s data

@[simp] theorem decodeLoop_nil (tagErr : ε) (step : FieldStep σ ε) (passes : Nat) (s : σ) :
    decodeLoop w tagErr step passes s [] = .ok s := by
  cases passes <;> rfl

/-- At a tag the loop goes on with the field behind it. -/
theorem decodeLoop_tag (laws : w.Laws) {tagErr : ε} {step : FieldStep σ ε} {s : σ} {passes : Nat}
    (hnum : 0 < num ∧ num < 2 ^ 29) (hpasses : (w.appendTag num typ ++ rest).length ≤ passes) :
    ∃ passes', rest.length ≤ passes' ∧
      decodeLoop w tagErr step passes s (w.appendTag num typ ++ rest) = (do
        let (s, rest) ← step s num typ rest
        decodeLoop w tagErr step passes' s rest) := by
  have htag := laws.tag num typ rest hnum.1 hnum.2
  have hn := w.consumeTag_pos htag
  rw [List.length_append] at hpasses
  -- the tag is not empty, so there is a pass for it
  obtain ⟨passes, rfl⟩ : ∃ m, passes = m + 1 := ⟨passes - 1, by omega⟩
  have hne : (w.appendTag num typ ++ rest).isEmpty = false := by
    cases htag' : w.appendTag num typ with
    | nil => simp [htag'] at hn
    | cons b bs => rfl
  refine ⟨passes, by omega, ?_⟩
  rw [decodeLoop, hne, if_neg Bool.false_ne_true, htag]
  simp only [List.drop_left]

/-- A field that is refused ends the loop. -/
theorem decodeLoop_error (laws : w.Laws) {tagErr e : ε} {step : FieldStep σ ε} {s : σ}
    {passes : Nat} (hnum : 0 < num ∧ num < 2 ^ 29)
    (hpasses : (w.appendTag num typ ++ rest).length ≤ passes) (h : step s num typ rest = .error e) :
    decodeLoop w tagErr step passes s (w.appendTag num typ ++ rest) = .error e := by
  obtain ⟨passes', -, heq⟩ := decodeLoop_tag laws hnum hpasses
  rw [heq, h, error_bind]

theorem decodeFields_error (laws : w.Laws) {tagErr e : ε} {step : FieldStep σ ε} {s : σ}
    (hnum : 0 < num ∧ num < 2 ^ 29) (h : step s num typ rest = .error e) :
    decodeFields w tagErr step s (w.appendTag num typ ++ rest) = .error e :=
  decodeLoop_error laws hnum le_rfl h

/-- A field leaves no more data than there was. -/
def Shrinks (step : FieldStep σ ε) : Prop :=
  ∀ {s num typ data s' rest}, step s num typ data = .ok (s', rest) → rest.length ≤ data.length

/-- As many passes as there are bytes are enough. -/
theorem decodeLoop_congr {tagErr : ε} {step : FieldStep σ ε} (hshrinks : Shrinks step) {s : σ}
    {passes passes' : Nat} (hle : data.length ≤ passes) (hle' : data.length ≤ passes') :
    decodeLoop w tagErr step passes s data = decodeLoop w tagErr step passes' s data := by
  induction passes generalizing passes' s data with
  | zero =>
    cases List.eq_nil_of_length_eq_zero (Nat.le_zero.mp hle)
    rw [decodeLoop_nil, decodeLoop_nil]
  | succ passes ih =>
    cases passes' with
    | zero =>
      cases List.eq_nil_of_length_eq_zero (Nat.le_zero.mp hle')
      rw [decodeLoop_nil, decodeLoop_nil]
    | succ passes' =>
      rw [decodeLoop, decodeLoop]
      split
      case isTrue => rfl
      case isFalse hne =>
        have hpos : 0 < data.length := List.length_pos_iff.mpr fun hnil => hne (by rw [hnil]; rfl)
        split
        · rfl
        · rename_i num typ n htag
          have hn := w.consumeTag_pos htag
          cases hstep : step s num typ (data.drop n) with
          | error e => rfl
          | ok res =>
            have hrest := hshrinks hstep
            rw [List.length_drop] at hrest
            exact ih (by omega) (by omega)

/-- What every field keeps holds of the result. -/
theorem decodeFields_invariant {tagErr : ε} {step : FieldStep σ ε} {P : σ → Prop} {s s' : σ}
    (hstep : ∀ s num typ data s' rest, P s → step s num typ data = .ok (s', rest) → P s')
    (hs : P s) (h : decodeFields w tagErr step s data = .ok s') : P s' := by
  unfold decodeFields at h
  generalize data.length = passes at h
  induction passes generalizing s data with
  | zero =>
    cases h
    exact hs
  | succ passes ih =>
    rw [decodeLoop] at h
    split at h
    · cases h
      exact hs
    · split at h
      · cases h
      · obtain ⟨⟨s1, rest⟩, hfield, h⟩ := bind_eq_ok.mp h
        exact ih (hstep _ _ _ _ _ _ hs hfield) h

/-- Two decoders, one of which has more data behind: as long as both accept they read the same
fields, so that what every field keeps that both accept holds of the result. -/
theorem decodeFields_lockstep (hw : w.Local) {tagErr tagErr' : ε} {step : FieldStep σ ε}
    {step' : FieldStep τ ε} {P : σ → Prop} {tail : Bytes}
    (hstep : ∀ s t num typ data s' rest t' rest', P s → step s num typ data = .ok (s', rest) →
      step' t num typ (data ++ tail) = .ok (t', rest') →
      P s' ∧ rest' = rest ++ tail ∧ rest.length ≤ data.length) {s s' : σ} {t t' : τ} (hs : P s)
    (h : decodeFields w tagErr step s data = .ok s')
    (h' : decodeFields w tagErr' step' t (data ++ tail) = .ok t') : P s' := by
  unfold decodeFields at h h'
  generalize hpasses : (data ++ tail).length = passes' at h'
  replace hpasses := hpasses.le
  generalize data.length = passes at h
  induction passes generalizing s t data passes' with
  | zero =>
    cases h
    exact hs
  | succ passes ih =>
    rw [decodeLoop] at h
    split at h
    · cases h
      exact hs
    · rename_i hne
      split at h
      · cases h
      · rename_i num typ n htag
        obtain ⟨⟨s1, rest⟩, hfield, h⟩ := bind_eq_ok.mp h
        obtain ⟨hn, htag'⟩ := hw.tag htag
        have hpos := w.consumeTag_pos htag
        rw [List.length_append] at hpasses
        obtain ⟨passes', rfl⟩ : ∃ m, passes' = m + 1 := ⟨passes' - 1, by omega⟩
        -- The other decoder sees the same tag.
        have hne' : (data ++ tail).isEmpty = false := by
          cases data with
          | nil => exact absurd rfl hne
          | cons b data => rfl
        rw [decodeLoop, hne', if_neg Bool.false_ne_true, htag' tail] at h'
        simp only [List.drop_append_of_le_length hn] at h'
        obtain ⟨⟨t1, rest'⟩, hfield', h'⟩ := bind_eq_ok.mp h'
        obtain ⟨hs1, rfl, hle⟩ := hstep _ _ _ _ _ _ _ _ _ hs hfield hfield'
        rw [List.length_drop] at hle
        have hleft : (rest ++ tail).length ≤ passes' := by
          rw [List.length_append]
          omega
        exact ih hs1 passes' h' hleft h

/-- The loop goes from state `s` to state `s'` over the bytes `enc`. -/
def Decodes (w : Protowire) (tagErr : ε) (step : FieldStep σ ε) (enc : Bytes) (s s' : σ) : Prop :=
  ∀ passes rest, enc.length + rest.length ≤ passes →
    ∃ passes', rest.length ≤ passes' ∧
      decodeLoop w tagErr step passes s (enc ++ rest) =
        decodeLoop w tagErr step passes' s' rest

namespace Decodes

variable {tagErr : ε} {step : FieldStep σ ε} {enc enc' : Bytes} {s s' s'' : σ}

theorem nil : Decodes w tagErr step [] s s :=
  fun passes rest h => ⟨passes, by simpa using h, rfl⟩

theorem trans (h : Decodes w tagErr step enc s s') (h' : Decodes w tagErr step enc' s' s'') :
    Decodes w tagErr step (enc ++ enc') s s'' := by
  intro passes rest hlen
  simp only [List.length_append] at hlen
  obtain ⟨passes', hle, heq⟩ := h passes (enc' ++ rest) (by simp; omega)
  obtain ⟨passes'', hle', heq'⟩ := h' passes' rest (by simpa using hle)
  exact ⟨passes'', hle', by rw [List.append_assoc, heq, heq']⟩

/-- One field: its tag, then what its own code reads. -/
theorem field (laws : w.Laws) (hnum : 0 < num ∧ num < 2 ^ 29)
    (hstep : ∀ rest, step s num typ (enc ++ rest) = .ok (s', rest)) :
    Decodes w tagErr step (w.appendTag num typ ++ enc) s s' := by
  intro passes rest hlen
  rw [← List.length_append, List.append_assoc] at hlen
  obtain ⟨passes', hle, heq⟩ := decodeLoop_tag laws hnum hlen
  rw [List.length_append] at hle
  exact ⟨passes', by omega, by rw [List.append_assoc, heq, hstep, ok_bind]⟩

/-- A field that is present only sometimes. -/
theorem ite {c : Prop} [Decidable c] (h : c → Decodes w tagErr step enc s s')
    (hnot : ¬ c → s = s') : Decodes w tagErr step (if c then enc else []) s s' := by
  split
  · exact h ‹_›
  · rw [hnot ‹_›]
    exact nil

/-- At the end of the data the state is the result. -/
theorem eq (h : Decodes w tagErr step enc s s') : decodeFields w tagErr step s enc = .ok s' := by
  obtain ⟨passes', -, heq⟩ := h enc.length [] (by simp)
  rw [List.append_nil, decodeLoop_nil] at heq
  exact heq

/-- Behind `enc` the loop goes on from the new state. -/
theorem append (hshrinks : Shrinks step) (h : Decodes w tagErr step enc s s') (rest : Bytes) :
    decodeFields w tagErr step s (enc ++ rest) = decodeFields w tagErr step s' rest := by
  obtain ⟨passes', hle, heq⟩ := h _ rest (List.length_append ..).ge
  rw [decodeFields, heq]
  exact decodeLoop_congr hshrinks hle le_rfl

/-- A field that is refused behind fields that are not. -/
theorem error (laws : w.Laws) (h : Decodes w tagErr step enc s s') {e : ε}
    (hnum : 0 < num ∧ num < 2 ^ 29) (hstep : step s' num typ rest = .error e) :
    decodeFields w tagErr step s (enc ++ (w.appendTag num typ ++ rest)) = .error e := by
  obtain ⟨passes', hle, heq⟩ := h _ (w.appendTag num typ ++ rest) (List.length_append ..).ge
  rw [decodeFields, heq]
  exact decodeLoop_error laws hnum hle hstep

end Decodes

end Fields

/-! ## The base-128 coding -/

/-- Seven bits a byte, the lowest first; the high bit says that more follow. -/
def varintBytes (n : Nat) : Bytes :=
  if n < 128 then [UInt8.ofNat n] else UInt8.ofNat (n % 128 + 128) :: varintBytes (n / 128)

/-- The number in front of the data and the number of bytes it takes. -/
def readVarint : Bytes → Option (Nat × Nat)
  | [] => none
  | b :: rest =>
    if b.toNat < 128 then some (b.toNat, 1)
    else
      match readVarint rest with
      | none => none
      | some (v, n) => some (b.toNat - 128 + 128 * v, n + 1)

theorem readVarint_varintBytes (n : Nat) (rest : Bytes) :
    readVarint (varintBytes n ++ rest) = some (n, (varintBytes n).length) := by
  induction n using Nat.strongRecOn with
  | ind n ih =>
    rw [varintBytes]
    split
    case isTrue hlt =>
      have hval : (UInt8.ofNat n).toNat = n :=
        UInt8.toNat_ofNat_of_lt' (by simp [UInt8.size]; omega)
      simp [readVarint, hval, hlt]
    case isFalse hge =>
      have hval : (UInt8.ofNat (n % 128 + 128)).toNat = n % 128 + 128 :=
        UInt8.toNat_ofNat_of_lt' (by simp [UInt8.size]; omega)
      have hdiv := Nat.div_add_mod n 128
      simp only [List.cons_append, readVarint, hval, ih (n / 128) (by omega)]
      rw [if_neg (by omega)]
      simp only [List.length_cons, Option.some.injEq, Prod.mk.injEq, and_true]
      omega

theorem readVarint_pos {v n : Nat} (h : readVarint data = some (v, n)) : 0 < n := by
  cases data with
  | nil => cases h
  | cons b rest =>
    rw [readVarint] at h
    split at h
    · cases h
      decide
    · split at h
      · cases h
      · cases h
        omega

def WireType.code : WireType → Nat
  | varint => 0
  | fixed64 => 1
  | bytes => 2
  | startGroup => 3
  | endGroup => 4
  | fixed32 => 5
  | reserved6 => 6
  | reserved7 => 7

def WireType.ofCode : Nat → WireType
  | 0 => varint
  | 1 => fixed64
  | 2 => bytes
  | 3 => startGroup
  | 4 => endGroup
  | 5 => fixed32
  | 6 => reserved6
  | _ => reserved7

/-- The coding with numbers of any size, without groups. -/
def varintWire : Protowire where
  appendTag num typ := varintBytes (num * 8 + typ.code)
  appendVarint v := varintBytes v.toNat
  appendBytes b := varintBytes b.length ++ b
  consumeTag data :=
    (readVarint data).bind fun r =>
      if r.1 / 8 = 0 then none else some (r.1 / 8, .ofCode (r.1 % 8), r.2)
  consumeVarint data :=
    (readVarint data).bind fun r => if r.1 < 2 ^ 64 then some (.ofNat r.1, r.2) else none
  consumeBytes data :=
    (readVarint data).bind fun r =>
      if r.1 ≤ data.length - r.2 then some ((data.drop r.2).take r.1, r.2 + r.1) else none
  consumeFieldValue _ typ data :=
    match typ with
    | .varint => (readVarint data).bind fun r => if r.1 < 2 ^ 64 then some r.2 else none
    | .fixed64 => if 8 ≤ data.length then some 8 else none
    | .bytes => (readVarint data).bind fun r =>
        if r.1 ≤ data.length - r.2 then some (r.2 + r.1) else none
    | .fixed32 => if 4 ≤ data.length then some 4 else none
    | _ => none
  consumeTag_pos {data num n typ} h := by
    simp only [Option.bind_eq_some_iff] at h
    obtain ⟨r, hr, h⟩ := h
    split at h
    · cases h
    · cases h
      exact readVarint_pos hr

theorem WireType.ofCode_code (typ : WireType) : ofCode typ.code = typ := by
  cases typ <;> rfl

theorem WireType.code_lt (typ : WireType) : typ.code < 8 := by
  cases typ <;> decide

theorem varintWire_laws : varintWire.Laws where
  tag num typ rest hpos _ := by
    have hcode := typ.code_lt
    have hdiv : (num * 8 + typ.code) / 8 = num := by omega
    have hmod : (num * 8 + typ.code) % 8 = typ.code := by omega
    simp only [varintWire, readVarint_varintBytes, Option.bind_some, hdiv, hmod,
      WireType.ofCode_code]
    rw [if_neg (by omega)]
  varint v rest := by
    have := v.toNat_lt
    simp [varintWire, readVarint_varintBytes, this]
  bytes b rest := by
    simp [varintWire, readVarint_varintBytes]

theorem readVarint_append {v n : Nat} (h : readVarint data = some (v, n)) :
    n ≤ data.length ∧ ∀ rest, readVarint (data ++ rest) = some (v, n) := by
  induction data generalizing v n with
  | nil => cases h
  | cons b data ih =>
    rw [readVarint] at h
    split at h
    case isTrue hlt =>
      cases h
      exact ⟨by simp, fun rest => by rw [List.cons_append, readVarint, if_pos hlt]⟩
    case isFalse hge =>
      split at h
      · cases h
      · rename_i v' n' hmore
        cases h
        obtain ⟨hle, happend⟩ := ih hmore
        refine ⟨by simpa using hle, fun rest => ?_⟩
        rw [List.cons_append, readVarint, if_neg hge, happend rest]

theorem varintWire_local : varintWire.Local where
  tag {data num n typ} h := by
    simp only [varintWire, Option.bind_eq_some_iff] at h ⊢
    obtain ⟨r, hr, h⟩ := h
    obtain ⟨hle, happend⟩ := readVarint_append hr
    have hn : n = r.2 := by
      split at h <;> cases h
      rfl
    exact ⟨hn ▸ hle, fun rest => ⟨r, happend rest, h⟩⟩
  fieldValue {data num n typ} h := by
    cases typ with
    | varint =>
      simp only [varintWire, Option.bind_eq_some_iff] at h ⊢
      obtain ⟨r, hr, h⟩ := h
      obtain ⟨hle, happend⟩ := readVarint_append hr
      have hn : n = r.2 := by
        split at h <;> cases h
        rfl
      exact ⟨hn ▸ hle, fun rest => ⟨r, happend rest, h⟩⟩
    | bytes =>
      simp only [varintWire, Option.bind_eq_some_iff] at h ⊢
      obtain ⟨r, hr, h⟩ := h
      obtain ⟨hle, happend⟩ := readVarint_append hr
      split at h
      · cases h
        refine ⟨by omega, fun rest => ⟨r, happend rest, if_pos ?_⟩⟩
        rw [List.length_append]
        omega
      · cases h
    | fixed64 | fixed32 =>
      simp only [varintWire] at h ⊢
      split at h
      · cases h
        exact ⟨‹_›, fun rest => if_pos (by rw [List.length_append]; omega)⟩
      · cases h
    | startGroup | endGroup | reserved6 | reserved7 => cases h
  varintValue {data num n v} h := by
    simp only [varintWire, Option.bind_eq_some_iff] at h ⊢
    obtain ⟨r, hr, h⟩ := h
    refine ⟨r, hr, ?_⟩
    split at h
    · cases h
      exact if_pos ‹_›
    · cases h
  bytesValue {data b num n} h := by
    simp only [varintWire, Option.bind_eq_some_iff] at h ⊢
    obtain ⟨r, hr, h⟩ := h
    refine ⟨r, hr, ?_⟩
    split at h
    · cases h
      exact if_pos ‹_›
    · cases h

theorem varintWire_skips : varintWire.Skips where
  varint {data num n} h := by
    simp only [varintWire, Option.bind_eq_some_iff] at h ⊢
    obtain ⟨r, hr, h⟩ := h
    split at h
    · cases h
      exact ⟨_, r, hr, if_pos ‹_›⟩
    · cases h
  bytes {data num n} h := by
    simp only [varintWire, Option.bind_eq_some_iff] at h ⊢
    obtain ⟨r, hr, h⟩ := h
    split at h
    · cases h
      exact ⟨_, r, hr, if_pos ‹_›⟩
    · cases h

theorem varintWire_sized : varintWire.Sized := by
  intro b
  simp [varintWire]

end SignalGo
