import Mathlib

/-!
# Byte strings, fixed-size arrays and checked slicing

The byte-level vocabulary of a Go program: `[]byte` is a list of bytes, `[n]byte` is a
list that carries its length, and reading is done at explicit offsets, where an index or
slice expression outside the data is a run-time panic.

* `ByteArr n`: an array of exactly `n` bytes; `ofBytes` is Go's `copy` into a zeroed
  array.
* `slice`, `byteAt`, `uint16At`, `uint32At`, `uint64At`: the checked slice and index
  expressions and the big-endian readers; outside the data they end in `Fault.panic`.
* `NoPanic`: a computation that may fail but never panics.
-/

namespace SignalGo

abbrev Bytes := List UInt8

/-- How a Go call ends abnormally: with an error value, or with a run-time panic (an index
or slice expression out of range). -/
inductive Fault (ε : Type) where
  | err (e : ε)
  | panic
  deriving DecidableEq

/-! ## Chains of fallible calls -/

section Chains

variable {ε ε' α β : Type}

@[simp] theorem ok_bind (a : α) (f : α → Except ε β) : (Except.ok a >>= f) = f a := rfl

@[simp] theorem error_bind (e : ε) (f : α → Except ε β) : (Except.error e >>= f) = .error e := rfl

theorem bind_eq_ok {x : Except ε α} {f : α → Except ε β} {b : β} :
    (x >>= f) = .ok b ↔ ∃ a, x = .ok a ∧ f a = .ok b := by
  cases x with
  | error e => exact ⟨nofun, nofun⟩
  | ok a => exact ⟨fun h => ⟨a, rfl, h⟩, fun ⟨_, h, h'⟩ => by cases h; exact h'⟩

theorem mapError_eq_ok {x : Except ε α} {f : ε → ε'} {a : α} :
    x.mapError f = .ok a ↔ x = .ok a := by
  cases x with
  | error e => exact ⟨nofun, nofun⟩
  | ok a' => exact ⟨fun h => by cases h; rfl, fun h => by cases h; rfl⟩

end Chains

/-! ## Fixed-size arrays -/

/-- A Go array `[n]byte`. -/
def ByteArr (n : Nat) : Type := { bs : Bytes // bs.length = n }

variable {bs : Bytes}

namespace ByteArr

variable {n : Nat}

/-- The slice `a[:]`. -/
def toBytes (a : ByteArr n) : Bytes := a.val

@[simp] theorem length_toBytes (a : ByteArr n) : a.toBytes.length = n := a.property

/-- The zero value of the array type. -/
def zero : ByteArr n := ⟨List.replicate n 0, by simp⟩

/-- `copy(a[:], bs)` into a zeroed array `a`. -/
def ofBytes (n : Nat) (bs : Bytes) : ByteArr n :=
  ⟨(bs ++ List.replicate n 0).take n, by simp⟩

theorem ext {a b : ByteArr n} (h : a.toBytes = b.toBytes) : a = b := Subtype.ext h

instance : DecidableEq (ByteArr n) :=
  inferInstanceAs (DecidableEq { bs : Bytes // bs.length = n })

instance : Inhabited (ByteArr n) := ⟨zero⟩

/-- `bytes.Compare` on the two arrays. -/
instance : Ord (ByteArr n) := ⟨fun a b => compare a.toBytes b.toBytes⟩

instance : Std.TransOrd (ByteArr n) where
  eq_swap {a b} := Std.OrientedOrd.eq_swap (α := Bytes) (a := a.toBytes) (b := b.toBytes)
  isLE_trans {a b c} := Std.TransOrd.isLE_trans (α := Bytes)
    (a := a.toBytes) (b := b.toBytes) (c := c.toBytes)

instance : Std.LawfulEqOrd (ByteArr n) where
  compare_self {a} := Std.ReflOrd.compare_self (α := Bytes) (a := a.toBytes)
  eq_of_compare {a b} h :=
    ext (Std.LawfulEqOrd.eq_of_compare (α := Bytes) (a := a.toBytes) (b := b.toBytes) h)

/-- Copying exactly `n` bytes gives these bytes. -/
theorem toBytes_ofBytes (h : bs.length = n) : (ofBytes n bs).toBytes = bs := by
  show (bs ++ List.replicate n 0).take n = bs
  rw [← h]
  simp

@[simp] theorem ofBytes_toBytes (a : ByteArr n) : ofBytes n a.toBytes = a :=
  ext (toBytes_ofBytes a.length_toBytes)

end ByteArr

/-- Go's `copy(dst, src)`: the first `min (len dst) (len src)` bytes of `dst` are
overwritten. -/
def copyInto (dst src : Bytes) : Bytes := src.take dst.length ++ dst.drop src.length

@[simp] theorem length_copyInto (dst src : Bytes) : (copyInto dst src).length = dst.length := by
  simp [copyInto]
  omega

theorem copyInto_eq {dst src : Bytes} (h : dst.length = src.length) : copyInto dst src = src := by
  simp [copyInto, h]

/-! ## Big-endian integers -/

def putUint16 (v : UInt16) : Bytes := [(v >>> 8).toUInt8, v.toUInt8]

def putUint32 (v : UInt32) : Bytes :=
  [(v >>> 24).toUInt8, (v >>> 16).toUInt8, (v >>> 8).toUInt8, v.toUInt8]

def putUint64 (v : UInt64) : Bytes :=
  [(v >>> 56).toUInt8, (v >>> 48).toUInt8, (v >>> 40).toUInt8, (v >>> 32).toUInt8,
    (v >>> 24).toUInt8, (v >>> 16).toUInt8, (v >>> 8).toUInt8, v.toUInt8]

@[simp] theorem length_putUint16 (v : UInt16) : (putUint16 v).length = 2 := rfl
@[simp] theorem length_putUint32 (v : UInt32) : (putUint32 v).length = 4 := rfl
@[simp] theorem length_putUint64 (v : UInt64) : (putUint64 v).length = 8 := rfl

variable {ε α β : Type}

/-- `b[0]<<8 | b[1]`; indexing a shorter slice panics. -/
def readUint16 : Bytes → Except (Fault ε) UInt16
  | b0 :: b1 :: _ => .ok (b0.toUInt16 <<< 8 ||| b1.toUInt16)
  | _ => .error .panic

def readUint32 : Bytes → Except (Fault ε) UInt32
  | b0 :: b1 :: b2 :: b3 :: _ =>
      .ok (b0.toUInt32 <<< 24 ||| b1.toUInt32 <<< 16 ||| b2.toUInt32 <<< 8 ||| b3.toUInt32)
  | _ => .error .panic

def readUint64 : Bytes → Except (Fault ε) UInt64
  | b0 :: b1 :: b2 :: b3 :: b4 :: b5 :: b6 :: b7 :: _ =>
      .ok (b0.toUInt64 <<< 56 ||| b1.toUInt64 <<< 48 ||| b2.toUInt64 <<< 40
        ||| b3.toUInt64 <<< 32 ||| b4.toUInt64 <<< 24 ||| b5.toUInt64 <<< 16
        ||| b6.toUInt64 <<< 8 ||| b7.toUInt64)
  | _ => .error .panic

/-- One digit of a big-endian value: a byte shifted in below bits that are already in place
adds up, because the two do not overlap. -/
theorem or_byte_shiftLeft (x : Nat) (b : UInt8) (k : Nat) :
    2 ^ (k + 8) * x ||| b.toNat <<< k = 2 ^ k * (256 * x + b.toNat) := by
  have hlt : b.toNat <<< k < 2 ^ (k + 8) := by
    rw [Nat.shiftLeft_eq, pow_add, mul_comm]
    have := b.toNat_lt
    gcongr
  rw [← Nat.two_pow_add_eq_or_of_lt hlt, Nat.shiftLeft_eq]
  ring

/-- The lowest digit. -/
theorem or_byte (x : Nat) (b : UInt8) : 2 ^ 8 * x ||| b.toNat = 256 * x + b.toNat := by
  simpa using or_byte_shiftLeft x b 0

theorem byte_shiftLeft_mod (b : UInt8) (k w : Nat) (h : k + 8 ≤ w) :
    b.toNat <<< k % 2 ^ w = b.toNat <<< k := by
  apply Nat.mod_eq_of_lt
  have hb := b.toNat_lt
  rw [Nat.shiftLeft_eq]
  calc b.toNat * 2 ^ k < 2 ^ 8 * 2 ^ k := by gcongr
    _ = 2 ^ (k + 8) := by rw [pow_add, mul_comm]
    _ ≤ 2 ^ w := Nat.pow_le_pow_right (by omega) h

theorem readUint16_putUint16 (v : UInt16) (rest : Bytes) :
    readUint16 (ε := ε) (putUint16 v ++ rest) = .ok v := by
  simp only [putUint16, List.cons_append, List.nil_append, readUint16]
  congr 1
  apply UInt16.toNat_inj.mp
  simp only [UInt16.toNat_or, UInt16.toNat_shiftLeft, UInt8.toNat_toUInt16,
    show UInt16.toNat 8 % 16 = 8 from rfl]
  rw [byte_shiftLeft_mod _ 8 16 (by omega), Nat.shiftLeft_eq, mul_comm, or_byte]
  have := v.toNat_lt
  simp [Nat.shiftRight_eq_div_pow]
  omega

theorem readUint32_putUint32 (v : UInt32) (rest : Bytes) :
    readUint32 (ε := ε) (putUint32 v ++ rest) = .ok v := by
  simp only [putUint32, List.cons_append, List.nil_append, readUint32]
  congr 1
  apply UInt32.toNat_inj.mp
  simp only [UInt32.toNat_or, UInt32.toNat_shiftLeft, UInt8.toNat_toUInt32, UInt32.reduceToNat,
    Nat.reduceMod]
  simp (disch := omega) only [byte_shiftLeft_mod]
  rw [Nat.shiftLeft_eq _ 24, mul_comm _ (2 ^ 24), or_byte_shiftLeft _ _ 16,
    or_byte_shiftLeft _ _ 8, or_byte]
  have := v.toNat_lt
  simp [Nat.shiftRight_eq_div_pow]
  omega

theorem readUint64_putUint64 (v : UInt64) (rest : Bytes) :
    readUint64 (ε := ε) (putUint64 v ++ rest) = .ok v := by
  simp only [putUint64, List.cons_append, List.nil_append, readUint64]
  congr 1
  apply UInt64.toNat_inj.mp
  simp only [UInt64.toNat_or, UInt64.toNat_shiftLeft, UInt8.toNat_toUInt64, UInt64.reduceToNat,
    Nat.reduceMod]
  simp (disch := omega) only [byte_shiftLeft_mod]
  -- the digits are put together from the highest on
  rw [Nat.shiftLeft_eq _ 56, mul_comm _ (2 ^ 56), or_byte_shiftLeft _ _ 48,
    or_byte_shiftLeft _ _ 40, or_byte_shiftLeft _ _ 32, or_byte_shiftLeft _ _ 24,
    or_byte_shiftLeft _ _ 16, or_byte_shiftLeft _ _ 8, or_byte]
  have := v.toNat_lt
  simp [Nat.shiftRight_eq_div_pow]
  omega

/-! ## Checked slices -/

/-- The slice expression `data[lo:hi]`. -/
def slice (data : Bytes) (lo hi : Nat) : Except (Fault ε) Bytes :=
  if lo ≤ hi ∧ hi ≤ data.length then .ok ((data.take hi).drop lo) else .error .panic

/-- The index expression `data[i]`. -/
def byteAt (data : Bytes) (i : Nat) : Except (Fault ε) UInt8 :=
  match data[i]? with
  | some b => .ok b
  | none => .error .panic

variable {data : Bytes} {lo hi : Nat}

theorem slice_ok (h : lo ≤ hi) (h' : hi ≤ data.length) :
    slice (ε := ε) data lo hi = .ok ((data.take hi).drop lo) := by
  simp [slice, h, h']

variable {i : Nat}

theorem byteAt_ok (h : i < data.length) :
    byteAt (ε := ε) data i = .ok data[i] := by
  simp [byteAt, List.getElem?_eq_getElem h]

theorem getElem?_of_byteAt {b : UInt8} (h : byteAt (ε := ε) data i = .ok b) :
    data[i]? = some b := by
  unfold byteAt at h
  cases hb : data[i]? with
  | none =>
    rw [hb] at h
    cases h
  | some b' =>
    rw [hb] at h
    cases h
    rfl

/-- `readUint16(data[pos:pos+2])`. -/
def uint16At (data : Bytes) (pos : Nat) : Except (Fault ε) UInt16 := do
  readUint16 (← slice data pos (pos + 2))

/-- `readUint32(data[pos:pos+4])`. -/
def uint32At (data : Bytes) (pos : Nat) : Except (Fault ε) UInt32 := do
  readUint32 (← slice data pos (pos + 4))

/-- `readUint64(data[pos:pos+8])`. -/
def uint64At (data : Bytes) (pos : Nat) : Except (Fault ε) UInt64 := do
  readUint64 (← slice data pos (pos + 8))

/-- The slice that covers exactly the middle part of the data. -/
theorem slice_eq (pre mid post : Bytes) (hdata : data = pre ++ mid ++ post)
    (hlo : lo = pre.length) (hhi : hi = lo + mid.length) :
    slice (ε := ε) data lo hi = .ok mid := by
  subst hdata hhi hlo
  rw [slice_ok (by omega) (by simp)]
  simp [List.take_append]

theorem byteAt_eq (pre post : Bytes) {b : UInt8} (hdata : data = pre ++ b :: post)
    (hi : i = pre.length) :
    byteAt (ε := ε) data i = .ok b := by
  subst hdata hi
  rw [byteAt_ok (by simp)]
  simp

variable {pos : Nat}

theorem uint16At_eq (pre post : Bytes) (v : UInt16) (hdata : data = pre ++ putUint16 v ++ post)
    (hpos : pos = pre.length) :
    uint16At (ε := ε) data pos = .ok v := by
  have hslice : slice (ε := ε) data pos (pos + 2) = .ok (putUint16 v) :=
    slice_eq pre _ post hdata hpos rfl
  rw [uint16At, hslice, ok_bind]
  exact readUint16_putUint16 v []

theorem uint32At_eq (pre post : Bytes) (v : UInt32) (hdata : data = pre ++ putUint32 v ++ post)
    (hpos : pos = pre.length) :
    uint32At (ε := ε) data pos = .ok v := by
  have hslice : slice (ε := ε) data pos (pos + 4) = .ok (putUint32 v) :=
    slice_eq pre _ post hdata hpos rfl
  rw [uint32At, hslice, ok_bind]
  exact readUint32_putUint32 v []

theorem uint64At_eq (pre post : Bytes) (v : UInt64) (hdata : data = pre ++ putUint64 v ++ post)
    (hpos : pos = pre.length) :
    uint64At (ε := ε) data pos = .ok v := by
  have hslice : slice (ε := ε) data pos (pos + 8) = .ok (putUint64 v) :=
    slice_eq pre _ post hdata hpos rfl
  rw [uint64At, hslice, ok_bind]
  exact readUint64_putUint64 v []

/-! ## Computations that do not panic -/

/-- The computation returns a value or an error, never a panic. -/
def NoPanic (x : Except (Fault ε) α) : Prop := x ≠ .error .panic

theorem NoPanic.ok (a : α) : NoPanic (ε := ε) (.ok a) := nofun

theorem NoPanic.err (e : ε) : NoPanic (α := α) (.error (.err e)) := nofun

/-- An error that is passed on is not a panic. -/
theorem NoPanic.mapError {δ : Type} (x : Except δ α) (f : δ → ε) :
    NoPanic (x.mapError fun e => .err (f e)) := by
  cases x with
  | error e => exact .err (f e)
  | ok a => exact .ok a

theorem NoPanic.bind {x : Except (Fault ε) α} {f : α → Except (Fault ε) β}
    (hx : NoPanic x) (hf : ∀ a, x = .ok a → NoPanic (f a)) : NoPanic (x >>= f) := by
  cases x with
  | error e => exact fun h => hx (by cases h; rfl)
  | ok a => exact hf a rfl

theorem NoPanic.ite {c : Prop} [Decidable c] {x y : Except (Fault ε) α}
    (hx : c → NoPanic x) (hy : ¬ c → NoPanic y) : NoPanic (if c then x else y) := by
  split
  · exact hx ‹_›
  · exact hy ‹_›

theorem noPanic_slice (h : lo ≤ hi) (h' : hi ≤ data.length) :
    NoPanic (slice (ε := ε) data lo hi) := by
  rw [slice_ok h h']
  exact .ok _

theorem length_of_slice (h : slice (ε := ε) data lo hi = .ok bs) : bs.length = hi - lo := by
  unfold slice at h
  split at h
  · cases h
    simp
    omega
  · cases h

theorem le_length_of_slice (h : slice (ε := ε) data lo hi = .ok bs) : hi ≤ data.length := by
  unfold slice at h
  split at h
  · rename_i hin
    exact hin.2
  · cases h

theorem noPanic_byteAt (h : i < data.length) :
    NoPanic (byteAt (ε := ε) data i) := by
  rw [byteAt_ok h]
  exact .ok _

/-- Inside of the data the integer is read. -/
theorem exists_uint16At (h : pos + 2 ≤ data.length) :
    ∃ v, uint16At (ε := ε) data pos = .ok v := by
  have hslice := slice_ok (ε := ε) (show pos ≤ pos + 2 by omega) h
  have hlen : 2 ≤ ((data.take (pos + 2)).drop pos).length := by
    rw [length_of_slice hslice]
    omega
  simp only [uint16At, hslice, ok_bind]
  match (data.take (pos + 2)).drop pos, hlen with
  | _ :: _ :: _, _ => exact ⟨_, rfl⟩

theorem uint16At_panic (h : data.length < pos + 2) :
    uint16At (ε := ε) data pos = .error .panic := by
  rw [uint16At, slice, if_neg (by omega)]
  rfl

theorem noPanic_uint16At (h : pos + 2 ≤ data.length) :
    NoPanic (uint16At (ε := ε) data pos) := by
  obtain ⟨v, hv⟩ := exists_uint16At (ε := ε) h
  rw [hv]
  exact .ok v

/-- Inside of the data the integer is read. -/
theorem exists_uint32At (h : pos + 4 ≤ data.length) :
    ∃ v, uint32At (ε := ε) data pos = .ok v := by
  have hslice := slice_ok (ε := ε) (show pos ≤ pos + 4 by omega) h
  have hlen : 4 ≤ ((data.take (pos + 4)).drop pos).length := by
    rw [length_of_slice hslice]
    omega
  simp only [uint32At, hslice, ok_bind]
  match (data.take (pos + 4)).drop pos, hlen with
  | _ :: _ :: _ :: _ :: _, _ => exact ⟨_, rfl⟩

theorem uint32At_panic (h : data.length < pos + 4) :
    uint32At (ε := ε) data pos = .error .panic := by
  rw [uint32At, slice, if_neg (by omega)]
  rfl

theorem noPanic_uint32At (h : pos + 4 ≤ data.length) :
    NoPanic (uint32At (ε := ε) data pos) := by
  obtain ⟨v, hv⟩ := exists_uint32At (ε := ε) h
  rw [hv]
  exact .ok v

theorem noPanic_uint64At (h : pos + 8 ≤ data.length) :
    NoPanic (uint64At (ε := ε) data pos) := by
  refine .bind (noPanic_slice (by omega) h) fun bs hbs => ?_
  have hlen : 8 ≤ bs.length := by
    rw [length_of_slice hbs]
    omega
  match bs, hlen with
  | _ :: _ :: _ :: _ :: _ :: _ :: _ :: _ :: _, _ => exact .ok _

end SignalGo
