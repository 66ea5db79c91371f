import SignalGo.Lib.Bytes

/-!
# Little-endian numbers in byte arrays

Elliptic-curve code keeps numbers in byte arrays with the lowest byte first, and sets single
bits of the outer bytes by index assignments.

* `ByteArr.byte`, `ByteArr.modify`: the expressions `a[i]` and `a[i] = f(a[i])` at a
  constant index of an array.
* `value`, `encode`: the number a byte string stands for, and the `w` lowest bytes of a
  number. `value_encode` is their round trip, and `encode_succ` shows the highest byte.
-/

namespace SignalGo

/-! ## Single bytes of an array -/

namespace ByteArr

variable {n : Nat}

/-- `a[i]` at an index inside the array. -/
def byte (a : ByteArr n) (i : Nat) : UInt8 := a.toBytes.getD i 0

/-- The assignment `a[i] = f(a[i])`. -/
def modify (a : ByteArr n) (i : Nat) (f : UInt8 → UInt8) : ByteArr n :=
  ⟨a.toBytes.modify i f, by simp⟩

theorem toBytes_modify (a : ByteArr n) (i : Nat) (f : UInt8 → UInt8) :
    (a.modify i f).toBytes = a.toBytes.modify i f := rfl

/-- The assignment to the last byte. -/
theorem modify_concat (bs : Bytes) (b : UInt8) (f : UInt8 → UInt8) :
    (bs ++ [b]).modify bs.length f = bs ++ [f b] := by
  induction bs with
  | nil => rfl
  | cons x xs ih => rw [List.cons_append, List.length_cons, List.modify_succ_cons, ih]; rfl

/-- An assignment of the value that is there. -/
theorem modify_id (a : ByteArr n) (i : Nat) {f : UInt8 → UInt8} (h : f (a.byte i) = a.byte i) :
    a.modify i f = a := by
  apply ext
  rw [toBytes_modify]
  refine List.ext_getElem? fun j => ?_
  rw [List.getElem?_modify]
  cases hj : a.toBytes[j]? with
  | none => rfl
  | some b =>
    by_cases hij : i = j
    · subst hij
      have hb : a.byte i = b := by rw [byte, List.getD_eq_getElem?_getD, hj, Option.getD_some]
      rw [hb] at h
      simp [h]
    · simp [hij]

/-- Two assignments to the same byte. -/
theorem modify_modify (a : ByteArr n) (i : Nat) (f g : UInt8 → UInt8) :
    (a.modify i f).modify i g = a.modify i (g ∘ f) := by
  apply ext
  simp only [toBytes_modify]
  refine List.ext_getElem? fun j => ?_
  simp only [List.getElem?_modify]
  cases a.toBytes[j]? with
  | none => rfl
  | some b => by_cases hij : i = j <;> simp [hij]

theorem byte_modify_self (a : ByteArr n) {i : Nat} (h : i < n) (f : UInt8 → UInt8) :
    (a.modify i f).byte i = f (a.byte i) := by
  have hi : i < a.toBytes.length := by rw [length_toBytes]; exact h
  rw [byte, byte, toBytes_modify, List.getD_eq_getElem?_getD, List.getD_eq_getElem?_getD,
    List.getElem?_modify, List.getElem?_eq_getElem hi]
  simp

end ByteArr

/-! ## Numbers -/

namespace LittleEndian

/-- The number a byte string stands for, lowest byte first. -/
def value : Bytes → Nat
  | [] => 0
  | b :: bs => b.toNat + 256 * value bs

/-- The `w` lowest bytes of `n`. -/
def encode : Nat → Nat → Bytes
  | 0, _ => []
  | w + 1, n => .ofNat (n % 256) :: encode w (n / 256)

@[simp] theorem length_encode (w n : Nat) : (encode w n).length = w := by
  induction w generalizing n with
  | zero => rfl
  | succ w ih => rw [encode, List.length_cons, ih]

/-- Bytes behind others count for more. -/
theorem value_append (xs ys : Bytes) :
    value (xs ++ ys) = value xs + 256 ^ xs.length * value ys := by
  induction xs with
  | nil => simp [value]
  | cons x xs ih =>
    rw [List.cons_append, value, value, ih, List.length_cons, pow_succ']
    ring

@[simp] theorem value_zeros (k : Nat) : value (List.replicate k 0) = 0 := by
  induction k with
  | zero => rfl
  | succ k ih => rw [List.replicate_succ, value, ih]; rfl

theorem value_lt (bs : Bytes) : value bs < 256 ^ bs.length := by
  induction bs with
  | nil => exact Nat.one_pos
  | cons b bs ih =>
    have hb := b.toNat_lt
    rw [value, List.length_cons, pow_succ']
    omega

theorem toNat_ofNat_mod (n : Nat) : (UInt8.ofNat (n % 256)).toNat = n % 256 := by
  rw [UInt8.toNat_ofNat']
  omega

/-- The round trip, up to the width. -/
theorem value_encode (w n : Nat) : value (encode w n) = n % 256 ^ w := by
  induction w generalizing n with
  | zero => rw [pow_zero, Nat.mod_one]; rfl
  | succ w ih =>
    rw [encode, value, ih, toNat_ofNat_mod, pow_succ', Nat.mod_mul]

/-- The highest of `w + 1` bytes is the last digit. -/
theorem encode_succ (w n : Nat) :
    encode (w + 1) n = encode w n ++ [.ofNat (n / 256 ^ w % 256)] := by
  induction w generalizing n with
  | zero => simp [encode]
  | succ w ih =>
    rw [encode, ih, encode, List.cons_append, Nat.div_div_eq_div_mul, pow_succ']

end LittleEndian

end SignalGo
