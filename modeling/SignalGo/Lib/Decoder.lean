import SignalGo.Lib.Bytes

/-!
# Decoders that walk through a record

A decoder of a binary record keeps a position and reads field after field. `Decoder` is that
position made implicit: a state monad over `pos` with the data to read from, in which slicing
outside the data is a panic and the program's own checks are errors.

* `Decoder.need`, `more`: the checks `if pos+n > len(data)` and `if pos < len(data)`.
* `Decoder.u8`, `u16`, `u32`, `u64`, `bytes`, `array`: one field each.
* `Decoder.many`: a counted loop.
* `Decoder.run`: decodes all of the data and refuses trailing bytes.
* `Decodable r enc x`: `r` in front of the bytes `enc` returns `x` and stops behind them; the
  rules `bind`, `need`, `pure` follow a decoder through an encoding. `DecodesRest` is the same for
  an encoding that ends the data.
* `Bounded k r k'`: with `k` bytes left `r` stays inside of the data, and leaves `k'` bytes
  when it returns; one rule per decoder.
* `Returns r P`: whatever `r` decodes meets `P`.
* `Consumes k r size`: whatever `r` decodes took as many bytes as its size says, `k` of them
  before `r`.
-/

namespace SignalGo

/-- A decoder with errors `ε`. -/
def Decoder (ε α : Type) := Bytes → Nat → Except (Fault ε) (α × Nat)

variable {data : Bytes} {n : Nat}

namespace Decoder

variable {ε α β : Type}

instance : Monad (Decoder ε) where
  pure a := fun _ pos => .ok (a, pos)
  bind r k := fun data pos => r data pos >>= fun ap => k ap.1 data ap.2

/-- An error of the program. -/
def fail (e : ε) : Decoder ε α := fun _ _ => .error (.err e)

/-- `if pos+n > len(data) { return err }`. -/
def need (n : Nat) (e : ε) : Decoder ε Unit := fun data pos =>
  if pos + n > data.length then .error (.err e) else .ok ((), pos)

/-- `data[pos]`, `pos++`. -/
def u8 : Decoder ε UInt8 := fun data pos => do return (← byteAt data pos, pos + 1)

def u16 : Decoder ε UInt16 := fun data pos => do return (← uint16At data pos, pos + 2)

def u32 : Decoder ε UInt32 := fun data pos => do return (← uint32At data pos, pos + 4)

def u64 : Decoder ε UInt64 := fun data pos => do return (← uint64At data pos, pos + 8)

/-- `data[pos:pos+n]`, `pos += n`. -/
def bytes (n : Nat) : Decoder ε Bytes := fun data pos => do
  return (← slice data pos (pos + n), pos + n)

/-- `copy(a[:], data[pos:pos+n])` into an array of `n` bytes. -/
def array (n : Nat) : Decoder ε (ByteArr n) := fun data pos => do
  return (.ofBytes n (← slice data pos (pos + n)), pos + n)

/-- Whether bytes are left: `pos < len(data)`. -/
def more : Decoder ε Bool := fun data pos => .ok (pos < data.length, pos)

/-- The result of a computation on what has been read. -/
def lift (x : Except (Fault ε) α) : Decoder ε α := fun _ pos => do return (← x, pos)

/-- `n` values, one after the other. -/
def many (r : Decoder ε α) : Nat → Decoder ε (List α)
  | 0 => pure []
  | n + 1 => do
      let a ← r
      let as ← many r n
      return a :: as

/-- Decodes the data from its start to its end. -/
def run (r : Decoder ε α) (trailing : ε) (data : Bytes) : Except (Fault ε) α := do
  let (a, pos) ← r data 0
  if pos ≠ data.length then .error (.err trailing) else return a

/-- The decoder has read all of the data. -/
theorem run_eq_ok {r : Decoder ε α} {trailing : ε} {a : α} :
    r.run trailing data = .ok a ↔ r data 0 = .ok (a, data.length) := by
  unfold run
  constructor
  · intro h
    obtain ⟨⟨b, pos⟩, hread, hend⟩ := bind_eq_ok.mp h
    simp only at hend
    split at hend
    · cases hend
    · rename_i hpos
      cases hend
      rw [hread, not_not.mp hpos]
  · intro h
    rw [h, ok_bind]
    exact if_neg (not_not.mpr rfl)

/-- The check for trailing bytes does not read any. -/
theorem run_eq_panic {r : Decoder ε α} {trailing : ε} :
    r.run trailing data = .error .panic ↔ r data 0 = .error .panic := by
  unfold run
  cases r data 0 with
  | error e => rw [error_bind, Except.error.injEq, Except.error.injEq]
  | ok ap =>
    refine iff_of_false (fun h => ?_) nofun
    simp only [ok_bind] at h
    split at h <;> cases h

/-! ### What a decoder has read -/

section Inversion

variable {data : Bytes} {pos pos' : Nat}

theorem bind_apply_of_ok {r : Decoder ε α} {f : α → Decoder ε β} {a : α}
    (h : r data pos = .ok (a, pos')) : (r >>= f) data pos = f a data pos' := by
  show (r data pos >>= fun ap => f ap.1 data ap.2) = _
  rw [h, ok_bind]

theorem bind_apply_of_error {r : Decoder ε α} {f : α → Decoder ε β} {e : Fault ε}
    (h : r data pos = .error e) : (r >>= f) data pos = .error e := by
  show (r data pos >>= fun ap => f ap.1 data ap.2) = _
  rw [h, error_bind]

/-- Both parts have returned, one behind the other. -/
theorem bind_apply_eq_ok {r : Decoder ε α} {f : α → Decoder ε β} {b : β} :
    (r >>= f) data pos = .ok (b, pos') ↔
      ∃ a pos1, r data pos = .ok (a, pos1) ∧ f a data pos1 = .ok (b, pos') := by
  refine Iff.trans (bind_eq_ok (x := r data pos)) ⟨fun ⟨ap, hr, hf⟩ => ⟨ap.1, ap.2, hr, hf⟩, ?_⟩
  rintro ⟨a, pos1, hr, hf⟩
  exact ⟨(a, pos1), hr, hf⟩

/-- A reader of `n` bytes at `pos`, and what it makes of them. -/
theorem read_eq_ok {x : Except (Fault ε) β} {f : β → α} {a : α} :
    (x >>= fun b => .ok (f b, pos + n)) = .ok (a, pos') ↔
      (∃ b, x = .ok b ∧ f b = a) ∧ pos' = pos + n := by
  rw [bind_eq_ok]
  constructor
  · rintro ⟨b, hb, h⟩
    cases h
    exact ⟨⟨b, hb, rfl⟩, rfl⟩
  · rintro ⟨⟨b, hb, rfl⟩, rfl⟩
    exact ⟨b, hb, rfl⟩

theorem u8_eq_ok {b : UInt8} : (u8 : Decoder ε UInt8) data pos = .ok (b, pos') ↔
    byteAt (ε := ε) data pos = .ok b ∧ pos' = pos + 1 := by
  refine (read_eq_ok (f := id)).trans (and_congr_left fun _ => ?_)
  simp

theorem u16_eq_ok {v : UInt16} : (u16 : Decoder ε UInt16) data pos = .ok (v, pos') ↔
    uint16At (ε := ε) data pos = .ok v ∧ pos' = pos + 2 := by
  refine (read_eq_ok (f := id)).trans (and_congr_left fun _ => ?_)
  simp

theorem u32_eq_ok {v : UInt32} : (u32 : Decoder ε UInt32) data pos = .ok (v, pos') ↔
    uint32At (ε := ε) data pos = .ok v ∧ pos' = pos + 4 := by
  refine (read_eq_ok (f := id)).trans (and_congr_left fun _ => ?_)
  simp

theorem bytes_eq_ok {b : Bytes} : (bytes n : Decoder ε Bytes) data pos = .ok (b, pos') ↔
    slice (ε := ε) data pos (pos + n) = .ok b ∧ pos' = pos + n := by
  refine (read_eq_ok (f := id)).trans (and_congr_left fun _ => ?_)
  simp

theorem need_eq_ok {e : ε} : need n e data pos = .ok ((), pos') ↔
    pos + n ≤ data.length ∧ pos' = pos := by
  unfold need
  split
  · exact ⟨nofun, fun h => by omega⟩
  · refine ⟨fun h => ?_, fun h => by rw [h.2]⟩
    cases h
    exact ⟨by omega, rfl⟩

end Inversion

end Decoder

/-- In front of the bytes `enc`, whatever stands before and behind them, the decoder returns `x`
and stops behind them. -/
def Decodable {ε α : Type} (r : Decoder ε α) (enc : Bytes) (x : α) : Prop :=
  ∀ pre post : Bytes, r (pre ++ enc ++ post) pre.length = .ok (x, (pre ++ enc).length)

variable {c : Prop}

namespace Decodable

variable {ε α β : Type} {r : Decoder ε α} {enc enc' : Bytes} {x : α} {y : β}

theorem pure (x : α) : Decodable (Pure.pure x : Decoder ε α) [] x := by
  intro pre post
  simp [Pure.pure]

theorem bind {k : α → Decoder ε β} (hr : Decodable r enc x) (hk : Decodable (k x) enc' y) :
    Decodable (r >>= k) (enc ++ enc') y := by
  intro pre post
  have hx := hr pre (enc' ++ post)
  have hy := hk (pre ++ enc) post
  simp only [List.append_assoc] at hx hy ⊢
  show (r _ _ >>= fun ap => k ap.1 _ ap.2) = _
  rw [hx, ok_bind]
  exact hy

/-- The last field: what follows reads nothing. -/
theorem last {k : α → Decoder ε β} (hr : Decodable r enc x) (hk : Decodable (k x) [] y) :
    Decodable (r >>= k) enc y := by
  have h := hr.bind hk
  rwa [List.append_nil] at h

/-- The last field: what follows only builds the result. -/
theorem ret (hr : Decodable r enc x) (f : α → β) :
    Decodable (r >>= fun a => Pure.pure (f a)) enc (f x) :=
  hr.last (pure (f x))

/-- A check of what has been read that lets it pass. -/
theorem guard [Decidable c] {e : ε} (h : ¬ c) (hr : Decodable r enc x) :
    Decodable (if c then Decoder.fail e else r) enc x := by
  rwa [if_neg h]

/-- A check for bytes that are there. -/
theorem need {k : Unit → Decoder ε β} {e : ε} (hn : n ≤ enc.length) (hk : Decodable (k ()) enc y) :
    Decodable (Decoder.need n e >>= k) enc y := by
  intro pre post
  show (Decoder.need n e _ _ >>= fun ap => k ap.1 _ ap.2) = _
  rw [Decoder.need, if_neg (by simp; omega), ok_bind]
  exact hk pre post

theorem u8 (b : UInt8) : Decodable (Decoder.u8 : Decoder ε UInt8) [b] b := by
  intro pre post
  have hread : byteAt (ε := ε) (pre ++ [b] ++ post) pre.length = .ok b :=
    byteAt_eq pre post (by simp) rfl
  simp only [Decoder.u8, hread, ok_bind, List.length_append, List.length_singleton]
  rfl

theorem u16 (v : UInt16) : Decodable (Decoder.u16 : Decoder ε UInt16) (putUint16 v) v := by
  intro pre post
  have hread : uint16At (ε := ε) (pre ++ putUint16 v ++ post) pre.length = .ok v :=
    uint16At_eq pre post v rfl rfl
  simp only [Decoder.u16, hread, ok_bind, List.length_append, length_putUint16]
  rfl

theorem u32 (v : UInt32) : Decodable (Decoder.u32 : Decoder ε UInt32) (putUint32 v) v := by
  intro pre post
  have hread : uint32At (ε := ε) (pre ++ putUint32 v ++ post) pre.length = .ok v :=
    uint32At_eq pre post v rfl rfl
  simp only [Decoder.u32, hread, ok_bind, List.length_append, length_putUint32]
  rfl

theorem u64 (v : UInt64) : Decodable (Decoder.u64 : Decoder ε UInt64) (putUint64 v) v := by
  intro pre post
  have hread : uint64At (ε := ε) (pre ++ putUint64 v ++ post) pre.length = .ok v :=
    uint64At_eq pre post v rfl rfl
  simp only [Decoder.u64, hread, ok_bind, List.length_append, length_putUint64]
  rfl

theorem bytes {b : Bytes} (h : b.length = n) :
    Decodable (Decoder.bytes n : Decoder ε Bytes) b b := by
  intro pre post
  have hread : slice (ε := ε) (pre ++ b ++ post) pre.length (pre.length + n) = .ok b :=
    slice_eq pre b post rfl rfl (by rw [h])
  simp only [Decoder.bytes, hread, ok_bind, List.length_append, h]
  rfl

theorem array (a : ByteArr n) :
    Decodable (Decoder.array n : Decoder ε (ByteArr n)) a.toBytes a := by
  intro pre post
  have hread : slice (ε := ε) (pre ++ a.toBytes ++ post) pre.length (pre.length + n) =
      .ok a.toBytes :=
    slice_eq pre a.toBytes post rfl rfl (by simp)
  simp only [Decoder.array, hread, ok_bind, List.length_append, ByteArr.length_toBytes,
    ByteArr.ofBytes_toBytes]
  rfl

theorem lift {v : Except (Fault ε) α} (h : v = .ok x) : Decodable (Decoder.lift v) [] x := by
  intro pre post
  simp only [Decoder.lift, h, ok_bind, List.append_nil]
  rfl

/-- A field whose bytes go through a decoder of their own. -/
theorem parsed {f : α → Except (Fault ε) β} (hr : Decodable r enc x) (h : f x = .ok y) :
    Decodable (r >>= fun a => Decoder.lift (f a)) enc y :=
  hr.last (lift h)

theorem lift_bind {v : Except (Fault ε) α} {k : α → Decoder ε β} (h : v = .ok x)
    (hk : Decodable (k x) enc y) : Decodable (Decoder.lift v >>= k) enc y :=
  (lift h).bind hk

/-- A counted loop over encodings of the elements. -/
theorem many {γ : Type} {encode : γ → Bytes} {value : γ → α} {cs : List γ}
    (h : ∀ c ∈ cs, Decodable r (encode c) (value c)) :
    Decodable (Decoder.many r cs.length) (cs.flatMap encode) (cs.map value) := by
  induction cs with
  | nil => exact pure []
  | cons c cs ih =>
    have hc := h c (by simp)
    have hcs := ih fun c' hc' => h c' (by simp [hc'])
    exact hc.bind (k := fun a => Decoder.many r cs.length >>= fun as => Pure.pure (a :: as))
      (hcs.ret fun as => value c :: as)

/-- Data that is one encoding decodes to its value. -/
theorem run (h : Decodable r enc x) (trailing : ε) : r.run trailing enc = .ok x := by
  have hx := h [] []
  simp only [List.nil_append, List.append_nil, List.length_nil] at hx
  rw [Decoder.run, hx, ok_bind]
  simp only
  rw [if_neg (by simp)]
  rfl

end Decodable

/-- As `Decodable`, for a decoder that looks whether bytes are left: nothing stands behind `enc`. -/
def DecodesRest {ε α : Type} (r : Decoder ε α) (enc : Bytes) (x : α) : Prop :=
  ∀ pre : Bytes, r (pre ++ enc) pre.length = .ok (x, (pre ++ enc).length)

namespace DecodesRest

variable {ε α β : Type} {r : Decoder ε α} {enc enc' : Bytes} {x : α} {y : β}

theorem of_decodable (h : Decodable r enc x) : DecodesRest r enc x := by
  intro pre
  have hx := h pre []
  rwa [List.append_nil] at hx

theorem bind {k : α → Decoder ε β} (hr : Decodable r enc x) (hk : DecodesRest (k x) enc' y) :
    DecodesRest (r >>= k) (enc ++ enc') y := by
  intro pre
  rw [← List.append_assoc, Decoder.bind_apply_of_ok (hr pre enc')]
  exact hk (pre ++ enc)

/-- The last part, from which the result is built. -/
theorem ret (hr : DecodesRest r enc x) (f : α → β) :
    DecodesRest (r >>= fun a => Pure.pure (f a)) enc (f x) := by
  intro pre
  rw [Decoder.bind_apply_of_ok (hr pre)]
  rfl

theorem need {k : Unit → Decoder ε β} {e : ε} (hn : n ≤ enc.length)
    (hk : DecodesRest (k ()) enc y) : DecodesRest (Decoder.need n e >>= k) enc y := by
  intro pre
  have hok : Decoder.need n e (pre ++ enc) pre.length = .ok ((), pre.length) :=
    if_neg (by simp; omega)
  rw [Decoder.bind_apply_of_ok hok]
  exact hk pre

theorem more {k : Bool → Decoder ε β} (hk : DecodesRest (k !enc.isEmpty) enc y) :
    DecodesRest (Decoder.more >>= k) enc y := by
  intro pre
  have hok : (Decoder.more : Decoder ε Bool) (pre ++ enc) pre.length =
      .ok (!enc.isEmpty, pre.length) := by
    cases enc <;> simp [Decoder.more]
  rw [Decoder.bind_apply_of_ok hok]
  exact hk pre

theorem run (h : DecodesRest r enc x) (trailing : ε) : r.run trailing enc = .ok x :=
  Decoder.run_eq_ok.mpr (h [])

end DecodesRest

/-- With `k` bytes left the decoder does not read outside of the data, and where it returns `k'`
bytes are left. -/
def Bounded {ε α : Type} (k : Nat) (r : Decoder ε α) (k' : Nat) : Prop :=
  ∀ data pos, pos + k ≤ data.length →
    NoPanic (r data pos) ∧ ∀ a pos', r data pos = .ok (a, pos') → pos' + k' ≤ data.length

namespace Bounded

variable {ε α β : Type} {r : Decoder ε α} {k k' m : Nat}

/-- A reader of `n` bytes at `pos`, and what it makes of them. -/
theorem of_read {read : Bytes → Nat → Except (Fault ε) β} {f : β → α}
    (hread : ∀ {data : Bytes} {pos : Nat}, pos + n ≤ data.length → NoPanic (read data pos)) :
    Bounded (n + k) (fun data pos => read data pos >>= fun b => .ok (f b, pos + n)) k := by
  intro data pos hpos
  refine ⟨.bind (hread (by omega)) fun b _ => .ok _, fun a pos' h => ?_⟩
  obtain ⟨b, -, h⟩ := bind_eq_ok.mp h
  cases h
  omega

theorem pure (a : α) : Bounded k (Pure.pure a : Decoder ε α) k := by
  intro data pos hpos
  refine ⟨.ok _, fun a' pos' h => ?_⟩
  cases h
  exact hpos

theorem fail (e : ε) : Bounded k (Decoder.fail e : Decoder ε α) k' :=
  fun _ _ _ => ⟨.err e, nofun⟩

/-- Behind the check the bytes it asks for are there. -/
theorem need (n : Nat) (e : ε) : Bounded k (Decoder.need n e) n := by
  intro data pos hpos
  unfold Decoder.need
  split
  · exact ⟨.err e, nofun⟩
  · refine ⟨.ok _, fun a pos' h => ?_⟩
    cases h
    omega

/-- A check for fewer bytes than are known to be there. -/
theorem check (n : Nat) (e : ε) : Bounded k (Decoder.need n e) k := by
  intro data pos hpos
  unfold Decoder.need
  split
  · exact ⟨.err e, nofun⟩
  · refine ⟨.ok _, fun a pos' h => ?_⟩
    cases h
    exact hpos

theorem more : Bounded k (Decoder.more : Decoder ε Bool) k := by
  intro data pos hpos
  refine ⟨.ok _, fun a pos' h => ?_⟩
  cases h
  exact hpos

theorem u8 : Bounded (1 + k) (Decoder.u8 : Decoder ε UInt8) k :=
  of_read (f := id) fun h => noPanic_byteAt h

theorem u16 : Bounded (2 + k) (Decoder.u16 : Decoder ε UInt16) k :=
  of_read (f := id) noPanic_uint16At

theorem u32 : Bounded (4 + k) (Decoder.u32 : Decoder ε UInt32) k :=
  of_read (f := id) noPanic_uint32At

theorem u64 : Bounded (8 + k) (Decoder.u64 : Decoder ε UInt64) k :=
  of_read (f := id) noPanic_uint64At

theorem bytes (n : Nat) : Bounded (n + k) (Decoder.bytes n : Decoder ε Bytes) k :=
  of_read (f := id) fun h => noPanic_slice (by omega) h

theorem array (n : Nat) : Bounded (n + k) (Decoder.array n : Decoder ε (ByteArr n)) k :=
  of_read (f := ByteArr.ofBytes n) fun h => noPanic_slice (by omega) h

theorem lift {x : Except (Fault ε) α} (hx : NoPanic x) : Bounded k (Decoder.lift x) k := by
  intro data pos hpos
  refine ⟨.bind hx fun a _ => .ok _, fun a pos' h => ?_⟩
  obtain ⟨b, -, h⟩ := bind_eq_ok.mp h
  cases h
  exact hpos

theorem bind {f : α → Decoder ε β} (hr : Bounded k r m) (hf : ∀ a, Bounded m (f a) k') :
    Bounded k (r >>= f) k' := by
  intro data pos hpos
  obtain ⟨hsafe, hleft⟩ := hr data pos hpos
  refine ⟨.bind hsafe fun ap hap => (hf ap.1 data ap.2 (hleft _ _ hap)).1, fun b pos' h => ?_⟩
  obtain ⟨ap, hap, h⟩ := bind_eq_ok.mp h
  exact (hf ap.1 data ap.2 (hleft _ _ hap)).2 b pos' h

/-- Only what follows can leave the data. -/
theorem bind_panic {f : α → Decoder ε β} (hr : Bounded k r m) {pos : Nat}
    (hpos : pos + k ≤ data.length) : (r >>= f) data pos = .error .panic ↔
      ∃ a pos', r data pos = .ok (a, pos') ∧ f a data pos' = .error .panic := by
  obtain ⟨hsafe, -⟩ := hr data pos hpos
  constructor
  · intro h
    cases hx : r data pos with
    | ok ap => exact ⟨ap.1, ap.2, rfl, (Decoder.bind_apply_of_ok hx).symm.trans h⟩
    | error e =>
      have hpanic : (r data pos >>= fun ap => f ap.1 data ap.2) = .error .panic := h
      rw [hx, error_bind] at hpanic
      cases hpanic
      exact absurd hx hsafe
  · rintro ⟨a, pos', hx, h⟩
    rw [Decoder.bind_apply_of_ok hx, h]

theorem ite [Decidable c] {r' : Decoder ε α} (h : c → Bounded k r k') (h' : ¬ c → Bounded k r' k') :
    Bounded k (if c then r else r') k' := by
  split
  · exact h ‹_›
  · exact h' ‹_›

/-- More bytes in front do no harm, and bytes that are left need not be counted. -/
theorem mono {m' : Nat} (h : Bounded k r k') (hk : k ≤ m) (hk' : m' ≤ k') : Bounded m r m' := by
  intro data pos hpos
  obtain ⟨hsafe, hleft⟩ := h data pos (by omega)
  refine ⟨hsafe, fun a pos' hr => ?_⟩
  have := hleft a pos' hr
  omega

theorem many (h : Bounded 0 r 0) (n : Nat) : Bounded 0 (Decoder.many r n) 0 := by
  induction n with
  | zero => exact pure []
  | succ n ih => exact h.bind fun a => ih.bind fun as => pure (a :: as)

theorem run (h : Bounded k r k') (trailing : ε) (hlen : k ≤ data.length) :
    NoPanic (r.run trailing data) := by
  obtain ⟨hsafe, -⟩ := h data 0 (by omega)
  exact .bind hsafe fun ap _ => .ite (fun _ => .err _) fun _ => .ok _

end Bounded

/-- Every value the decoder returns, on any data, meets `P`. -/
def Returns {ε α : Type} (r : Decoder ε α) (P : α → Prop) : Prop :=
  ∀ data pos a pos', r data pos = .ok (a, pos') → P a

namespace Returns

variable {ε α β : Type} {r : Decoder ε α} {P : α → Prop} {Q : β → Prop}

theorem any (r : Decoder ε α) : Returns r fun _ => True := fun _ _ _ _ _ => trivial

theorem pure {a : α} (h : P a) : Returns (Pure.pure a : Decoder ε α) P := by
  intro data pos a' pos' hr
  cases hr
  exact h

theorem fail (e : ε) : Returns (Decoder.fail e : Decoder ε α) P := fun _ _ _ _ => nofun

theorem bind {f : α → Decoder ε β} (hr : Returns r P) (hf : ∀ a, P a → Returns (f a) Q) :
    Returns (r >>= f) Q := by
  intro data pos b pos' h
  obtain ⟨a, pos1, ha, hb⟩ := Decoder.bind_apply_eq_ok.mp h
  exact hf a (hr _ _ _ _ ha) _ _ _ _ hb

/-- A field that the postcondition does not speak of. -/
theorem skip {f : α → Decoder ε β} (hf : ∀ a, Returns (f a) Q) : Returns (r >>= f) Q :=
  (any r).bind fun a _ => hf a

theorem ite [Decidable c] {r' : Decoder ε α} (h : c → Returns r P) (h' : ¬ c → Returns r' P) :
    Returns (if c then r else r') P := by
  split
  · exact h ‹_›
  · exact h' ‹_›

theorem many (h : Returns r P) (n : Nat) :
    Returns (Decoder.many r n) fun as => as.length = n ∧ ∀ a ∈ as, P a := by
  induction n with
  | zero => exact pure ⟨rfl, by simp⟩
  | succ n ih =>
    refine h.bind fun a ha => ih.bind fun as has => pure ⟨by simp [has.1], ?_⟩
    simpa using ⟨ha, has.2⟩

theorem run (h : Returns r P) {trailing : ε} {a : α} (hrun : r.run trailing data = .ok a) : P a :=
  h _ _ _ _ (Decoder.run_eq_ok.mp hrun)

end Returns

/-- Every value the decoder returns took at least `size` bytes, of which `k` were taken before. -/
def Consumes {ε α : Type} (k : Nat) (r : Decoder ε α) (size : α → Nat) : Prop :=
  ∀ data pos a pos', r data pos = .ok (a, pos') → pos + size a ≤ pos' + k

namespace Consumes

variable {ε α β : Type} {r : Decoder ε α} {s : α → Nat} {size : β → Nat} {k : Nat}

theorem pure {b : β} (h : size b ≤ k) : Consumes k (Pure.pure b : Decoder ε β) size := by
  intro data pos b' pos' hr
  cases hr
  omega

theorem fail (e : ε) : Consumes k (Decoder.fail e : Decoder ε β) size := fun _ _ _ _ => nofun

theorem bind {f : α → Decoder ε β} (hr : Consumes 0 r s) (hf : ∀ a, Consumes (k + s a) (f a) size) :
    Consumes k (r >>= f) size := by
  intro data pos b pos' h
  obtain ⟨a, pos1, ha, hb⟩ := Decoder.bind_apply_eq_ok.mp h
  have := hr _ _ _ _ ha
  have := hf a _ _ _ _ hb
  omega

theorem ite [Decidable c] {r' : Decoder ε α} (h : ¬ c → Consumes k r' s) {e : ε} :
    Consumes k (if c then Decoder.fail e else r') s := by
  split
  · exact fail e
  · exact h ‹_›

theorem need (n : Nat) (e : ε) : Consumes 0 (Decoder.need n e) fun _ => 0 := by
  intro data pos a pos' h
  rw [(Decoder.need_eq_ok.mp h).2]

/-- A reader that moves on by `n`. -/
theorem of_read {read : Bytes → Nat → Except (Fault ε) β} {f : β → α} (n : Nat) :
    Consumes 0 (fun data pos => read data pos >>= fun b => .ok (f b, pos + n)) fun _ => n := by
  intro data pos a pos' h
  rw [(Decoder.read_eq_ok.mp h).2]
  exact le_rfl

theorem bytes (n : Nat) : Consumes 0 (Decoder.bytes n : Decoder ε Bytes) List.length := by
  intro data pos b pos' h
  obtain ⟨hslice, hpos⟩ := Decoder.bytes_eq_ok.mp h
  have := length_of_slice hslice
  omega

theorem many (h : Consumes 0 r s) (n : Nat) :
    Consumes 0 (Decoder.many r n) fun as => (as.map s).sum := by
  induction n with
  | zero => exact pure le_rfl
  | succ n ih =>
    refine h.bind fun a => ih.bind fun as => pure ?_
    simp

end Consumes

end SignalGo
