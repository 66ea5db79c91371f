import SignalGo.Lib.XorLinear

/-!
# GF(2¹⁶)

The arithmetic of the erasure code: bits are coefficients of a polynomial over GF(2), addition is
exclusive or, multiplication is the carry-less product reduced by `0x1100b`
(`x¹⁶ + x¹² + x³ + x + 1`), division multiplies with a power.

* `GF16.commRing`: the ring laws. Every law is linear in each argument, so it is enough to
  look at words with a single bit, and associativity follows from the rule for a factor `x`.
* `GF16.field`: the powers of `x` are all the non-zero elements, because its order is
  2¹⁶ - 1; hence `b ^ 65534` is the inverse of `b`.
-/

namespace SignalGo.Spqr

/-! ## The code -/

def gf16Poly : UInt32 := 0x1100b

/-- The carry-less product. -/
def gf16Mul (a b : UInt16) : UInt32 :=
  (List.range 16).foldl (fun acc i =>
    if (b.toUInt32 >>> UInt32.ofNat i) &&& 1 = 1 then acc ^^^ (a.toUInt32 <<< UInt32.ofNat i)
    else acc) 0

/-- The loop of `gf16Reduce` counts `i` down from 31 to 16; here it counts `i - 16`. -/
def gf16Reduce (v : UInt32) : UInt16 :=
  ((List.range 16).foldr (fun i v =>
    if (v >>> UInt32.ofNat (i + 16)) &&& 1 = 1 then v ^^^ (gf16Poly <<< UInt32.ofNat i)
    else v) v).toUInt16

structure GF16 where
  val : UInt16
  deriving DecidableEq

namespace GF16

def add (a b : GF16) : GF16 := ⟨a.val ^^^ b.val⟩

def sub (a b : GF16) : GF16 := ⟨a.val ^^^ b.val⟩

def mul (a b : GF16) : GF16 := ⟨gf16Reduce (gf16Mul a.val b.val)⟩

end GF16

/-- The loop of `gf16Pow`, with a bound on its iterations. -/
def gf16PowLoop : Nat → GF16 → GF16 → UInt32 → GF16
  | 0, result, _, _ => result
  | fuel + 1, result, base, exp =>
      if exp > 0 then
        gf16PowLoop fuel (if exp &&& 1 = 1 then result.mul base else result) (base.mul base)
          (exp >>> 1)
      else result

/-- `gf16Pow`: the exponent has 32 bits. -/
def gf16Pow (a : GF16) (exp : UInt32) : GF16 := gf16PowLoop 32 ⟨1⟩ a exp

def GF16.div (a b : GF16) : GF16 :=
  if b = ⟨0⟩ then ⟨0⟩ else a.mul (gf16Pow b 65534)

/-! ## Linearity -/

/-- `c` when the bit is set, zero otherwise. -/
def sel (t c : UInt32) : UInt32 := if t = 1 then c else 0

theorem and_one_cases (v : UInt32) : v &&& 1 = 0 ∨ v &&& 1 = 1 := by
  have h : (v &&& 1).toNat = v.toNat % 2 := by
    rw [UInt32.toNat_and]
    exact Nat.and_one_is_mod _
  rcases Nat.mod_two_eq_zero_or_one v.toNat with h' | h'
  · exact .inl (UInt32.toNat_inj.mp (h.trans h'))
  · exact .inr (UInt32.toNat_inj.mp (h.trans h'))

theorem sel_xor_left (v w c : UInt32) :
    sel ((v ^^^ w) &&& 1) c = sel (v &&& 1) c ^^^ sel (w &&& 1) c := by
  have h : (v ^^^ w) &&& 1 = (v &&& 1) ^^^ (w &&& 1) := by
    apply UInt32.toBitVec_inj.mp
    apply BitVec.eq_of_getLsbD_eq
    intro i _
    simp [Bool.and_xor_distrib_right]
  rw [h]
  rcases and_one_cases v with hv | hv <;> rcases and_one_cases w with hw | hw <;>
    simp [hv, hw, sel]

theorem sel_xor_right (t c d : UInt32) : sel t (c ^^^ d) = sel t c ^^^ sel t d := by
  unfold sel
  split <;> simp

theorem xor_xor_xor_comm32 (a b c d : UInt32) : (a ^^^ b) ^^^ (c ^^^ d) =
    (a ^^^ c) ^^^ (b ^^^ d) := by
  ac_rfl

/-- A sum of selected words. -/
theorem foldl_xor_add (f g : Nat → UInt32) (l : List Nat) (x y : UInt32) :
    l.foldl (fun acc i => acc ^^^ (f i ^^^ g i)) (x ^^^ y)
      = l.foldl (fun acc i => acc ^^^ f i) x ^^^ l.foldl (fun acc i => acc ^^^ g i) y := by
  induction l generalizing x y with
  | nil => rfl
  | cons i l ih =>
    simp only [List.foldl_cons]
    rw [xor_xor_xor_comm32, ih]

theorem gf16Mul_eq (a b : UInt16) : gf16Mul a b = (List.range 16).foldl (fun acc i => acc ^^^
    sel ((b.toUInt32 >>> UInt32.ofNat i) &&& 1) (a.toUInt32 <<< UInt32.ofNat i)) 0 := by
  unfold gf16Mul
  congr 1
  funext acc i
  unfold sel
  split <;> simp

theorem gf16Mul_xor_left (a a' b : UInt16) :
    gf16Mul (a ^^^ a') b = gf16Mul a b ^^^ gf16Mul a' b := by
  rw [gf16Mul_eq, gf16Mul_eq, gf16Mul_eq, ← foldl_xor_add]
  congr 1
  funext acc i
  rw [UInt16.toUInt32_xor, UInt32.shiftLeft_xor, sel_xor_right]

theorem gf16Mul_xor_right (a b b' : UInt16) :
    gf16Mul a (b ^^^ b') = gf16Mul a b ^^^ gf16Mul a b' := by
  rw [gf16Mul_eq, gf16Mul_eq, gf16Mul_eq, ← foldl_xor_add]
  congr 1
  funext acc i
  rw [UInt16.toUInt32_xor, UInt32.shiftRight_xor, sel_xor_left]

theorem gf16Reduce_xor (v w : UInt32) : gf16Reduce (v ^^^ w) = gf16Reduce v ^^^ gf16Reduce w := by
  unfold gf16Reduce
  rw [← UInt32.toUInt16_xor]
  congr 1
  induction List.range 16 with
  | nil => rfl
  | cons i l ih =>
    simp only [List.foldr_cons]
    rw [ih]
    generalize List.foldr _ v l = x
    generalize List.foldr _ w l = y
    have hstep : ∀ u : UInt32, (if u >>> UInt32.ofNat (i + 16) &&& 1 = 1
        then u ^^^ gf16Poly <<< UInt32.ofNat i else u)
        = u ^^^ sel (u >>> UInt32.ofNat (i + 16) &&& 1) (gf16Poly <<< UInt32.ofNat i) := by
      intro u
      unfold sel
      split <;> simp
    rw [hstep, hstep, hstep, UInt32.shiftRight_xor, sel_xor_left, xor_xor_xor_comm32]


/-- The product on words. -/
def mulWord (a b : UInt16) : UInt16 := gf16Reduce (gf16Mul a b)

theorem mulWord_xor_left (a a' b : UInt16) :
    mulWord (a ^^^ a') b = mulWord a b ^^^ mulWord a' b := by
  rw [mulWord, gf16Mul_xor_left, gf16Reduce_xor]
  rfl

theorem mulWord_xor_right (a b b' : UInt16) :
    mulWord a (b ^^^ b') = mulWord a b ^^^ mulWord a b' := by
  rw [mulWord, gf16Mul_xor_right, gf16Reduce_xor]
  rfl

theorem mulWord_one (a : UInt16) : mulWord a 1 = a :=
  eq_of_xorLinear (f := fun a => mulWord a 1) (g := id) (fun a b => mulWord_xor_left a b 1)
    (fun _ _ => rfl) (by decide +kernel) a

/-- Two bilinear products that agree on single bits are equal. -/
theorem eq_of_bilinear {f g : UInt16 → UInt16 → UInt16}
    (hf : ∀ b, XorLinear (f · b)) (hf' : ∀ a, XorLinear (f a))
    (hg : ∀ b, XorLinear (g · b)) (hg' : ∀ a, XorLinear (g a))
    (hbit : ∀ i j, f (bit16 i) (bit16 j) = g (bit16 i) (bit16 j)) (a b : UInt16) :
    f a b = g a b :=
  eq_of_xorLinear (hf b) (hg b) (fun i => eq_of_xorLinear (hf' _) (hg' _) (hbit i) b) a

theorem mulWord_comm (a b : UInt16) : mulWord a b = mulWord b a :=
  eq_of_bilinear (f := mulWord) (g := fun a b => mulWord b a)
    (fun b a a' => mulWord_xor_left a a' b) (fun a b b' => mulWord_xor_right a b b')
    (fun b a a' => mulWord_xor_right b a a') (fun a b b' => mulWord_xor_left b b' a)
    (by decide +kernel) a b

/-- A factor `x` moves out of a product. -/
theorem mulWord_two (a b : UInt16) : mulWord a (mulWord b 2) = mulWord (mulWord a b) 2 :=
  eq_of_bilinear (f := fun a b => mulWord a (mulWord b 2)) (g := fun a b => mulWord (mulWord a b) 2)
    (fun b a a' => mulWord_xor_left a a' _)
    (fun a b b' => by simp only [mulWord_xor_left, mulWord_xor_right])
    (fun b a a' => by simp only [mulWord_xor_left])
    (fun a b b' => by simp only [mulWord_xor_left, mulWord_xor_right])
    (by decide +kernel) a b

theorem mulWord_zero (a : UInt16) : mulWord a 0 = 0 :=
  XorLinear.zero (f := mulWord a) fun b b' => mulWord_xor_right a b b'

/-- The single bits are the powers of `x`. -/
theorem bit16_succ : ∀ i : Fin 15, bit16 i.succ = mulWord (bit16 i.castSucc) 2 := by
  decide +kernel

theorem mulWord_assoc (a b c : UInt16) :
    mulWord (mulWord a b) c = mulWord a (mulWord b c) := by
  refine xor_induction (P := fun c => ∀ a b, mulWord (mulWord a b) c = mulWord a (mulWord b c))
    ?_ ?_ ?_ c a b
  · intro a b
    simp only [mulWord_zero]
  · intro c c' hc hc' a b
    simp only [mulWord_xor_right, hc, hc']
  · rintro ⟨i, hi⟩
    induction i with
    | zero =>
      intro a b
      rw [show bit16 ⟨0, hi⟩ = 1 from rfl, mulWord_one, mulWord_one]
    | succ i ih =>
      intro a b
      have hsucc : bit16 ⟨i + 1, hi⟩ = mulWord (bit16 ⟨i, by omega⟩) 2 :=
        bit16_succ ⟨i, by omega⟩
      rw [hsucc, mulWord_two, ih (by omega), ← mulWord_two, ← mulWord_two]

/-! ## The ring -/

namespace GF16

instance : Zero GF16 := ⟨⟨0⟩⟩
instance : One GF16 := ⟨⟨1⟩⟩
instance : Add GF16 := ⟨add⟩
instance : Sub GF16 := ⟨sub⟩
instance : Neg GF16 := ⟨id⟩
instance : Mul GF16 := ⟨mul⟩

theorem ext_val {a b : GF16} (h : a.val = b.val) : a = b := by
  cases a
  cases b
  cases h
  rfl

theorem mul_comm' (a b : GF16) : a * b = b * a := ext_val (mulWord_comm _ _)

theorem left_distrib' (a b c : GF16) : a * (b + c) = a * b + a * c :=
  ext_val (mulWord_xor_right _ _ _)

theorem mul_one' (a : GF16) : a * 1 = a := ext_val (mulWord_one _)

instance commRing : CommRing GF16 where
  add_assoc a b c := ext_val (UInt16.xor_assoc _ _ _)
  zero_add a := ext_val UInt16.zero_xor
  add_zero a := ext_val UInt16.xor_zero
  add_comm a b := ext_val (UInt16.xor_comm _ _)
  neg_add_cancel a := ext_val UInt16.xor_self
  sub_eq_add_neg a b := rfl
  mul_assoc a b c := ext_val (mulWord_assoc _ _ _)
  mul_comm := mul_comm'
  one_mul a := by rw [mul_comm', mul_one']
  mul_one := mul_one'
  left_distrib := left_distrib'
  right_distrib a b c := by rw [mul_comm', left_distrib', mul_comm' a, mul_comm' b]
  zero_mul a := by rw [mul_comm']; exact ext_val (mulWord_zero _)
  mul_zero a := ext_val (mulWord_zero _)
  nsmul := nsmulRec
  zsmul := zsmulRec
  npow := npowRec

theorem add_self (a : GF16) : a + a = 0 := neg_add_cancel a

/-! ## Powers and inverses -/

/-- Square and multiply, by induction on the bits that are left. -/
theorem gf16PowLoop_eq : ∀ (fuel : Nat) (result base : GF16) (exp : UInt32),
    exp.toNat < 2 ^ fuel → gf16PowLoop fuel result base exp = result * base ^ exp.toNat := by
  intro fuel
  induction fuel with
  | zero =>
    intro result base exp h
    have h0 : exp.toNat = 0 := by omega
    rw [h0, pow_zero, mul_one]
    rfl
  | succ fuel ih =>
    intro result base exp h
    have hhalf : (exp >>> 1).toNat = exp.toNat / 2 := by
      rw [UInt32.toNat_shiftRight]
      exact Nat.shiftRight_one _
    have hodd : (exp &&& 1).toNat = exp.toNat % 2 := by
      rw [UInt32.toNat_and]
      exact Nat.and_one_is_mod _
    unfold gf16PowLoop
    split
    · have hlt : (exp >>> 1).toNat < 2 ^ fuel := by
        rw [hhalf]
        omega
      rw [ih _ _ _ hlt, hhalf]
      -- `base ^ exp` is `(base * base) ^ (exp / 2)`, with one factor more when `exp` is odd
      have hsq : (base.mul base) ^ (exp.toNat / 2) = base ^ (2 * (exp.toNat / 2)) := by
        rw [pow_mul, sq]
        rfl
      rw [hsq]
      split
      · rename_i hbit
        have hmod : exp.toNat % 2 = 1 := by rw [← hodd, hbit]; rfl
        show result * base * base ^ (2 * (exp.toNat / 2)) = _
        rw [mul_assoc, ← pow_succ']
        congr 2
        omega
      · rename_i hbit
        have hmod : exp.toNat % 2 = 0 := by
          rcases and_one_cases exp with h' | h'
          · rw [← hodd, h']
            rfl
          · exact absurd h' hbit
        congr 2
        omega
    · rename_i hexp
      have h0 : exp.toNat = 0 := by
        have : ¬ (0 < exp.toNat) := fun h => hexp (UInt32.lt_iff_toNat_lt.mpr h)
        omega
      rw [h0, pow_zero, mul_one]

theorem gf16Pow_eq (a : GF16) (exp : UInt32) : gf16Pow a exp = a ^ exp.toNat := by
  rw [gf16Pow, gf16PowLoop_eq 32 _ _ _ exp.toNat_lt]
  exact one_mul _

/-- The residue class of `x`. -/
def x : GF16 := ⟨2⟩

/-- `x` generates the multiplicative group. -/
theorem orderOf_x : orderOf x = 65535 := by
  refine orderOf_eq_of_pow_and_pow_div_prime (by norm_num) ?_ ?_
  · have h : gf16Pow x 65535 = 1 := by decide +kernel
    rwa [gf16Pow_eq] at h
  · intro q hq hdvd
    rw [show 65535 = 3 * (5 * (17 * 257)) by norm_num] at hdvd
    have hp : ∀ r : Nat, r.Prime → q ∣ r → q = r :=
      fun r hr h => (Nat.prime_dvd_prime_iff_eq hq hr).mp h
    have hne : gf16Pow x 21845 ≠ 1 ∧ gf16Pow x 13107 ≠ 1 ∧ gf16Pow x 3855 ≠ 1
        ∧ gf16Pow x 255 ≠ 1 := by
      decide +kernel
    simp only [gf16Pow_eq] at hne
    rcases (Nat.Prime.dvd_mul hq).mp hdvd with h | h
    · cases hp 3 (by norm_num) h
      exact hne.1
    rcases (Nat.Prime.dvd_mul hq).mp h with h | h
    · cases hp 5 (by norm_num) h
      exact hne.2.1
    rcases (Nat.Prime.dvd_mul hq).mp h with h | h
    · cases hp 17 (by norm_num) h
      exact hne.2.2.1
    · cases hp 257 (by norm_num) h
      exact hne.2.2.2

def equivUInt16 : GF16 ≃ Fin 65536 where
  toFun a := ⟨a.val.toNat, a.val.toNat_lt⟩
  invFun n := ⟨UInt16.ofNat n⟩
  left_inv a := by simp
  right_inv n := by
    ext
    simp only [UInt16.toNat_ofNat']
    omega

instance : Fintype GF16 := Fintype.ofEquiv _ equivUInt16.symm

theorem card_eq : Fintype.card GF16 = 65536 := by
  rw [Fintype.card_congr equivUInt16, Fintype.card_fin]

theorem one_ne_zero' : (1 : GF16) ≠ 0 := by decide

/-- Every non-zero element is a power of `x`. -/
theorem exists_pow_eq {a : GF16} (ha : a ≠ 0) : ∃ n, x ^ n = a := by
  classical
  have hx : x ^ 65535 = 1 := orderOf_x ▸ pow_orderOf_eq_one x
  have hne : ∀ n, x ^ n ≠ 0 := by
    intro n h
    have : (1 : GF16) = 0 := by
      rw [← one_pow n, ← hx, ← pow_mul, mul_comm, pow_mul, h]
      exact zero_pow (by norm_num)
    exact one_ne_zero' this
  -- 65535 different powers among 65535 non-zero elements
  let f : Fin 65535 → {a : GF16 // a ≠ 0} := fun n => ⟨x ^ n.val, hne n⟩
  have hinj : Function.Injective f := by
    intro m n h
    have h' : x ^ m.val = x ^ n.val := congrArg Subtype.val h
    exact Fin.ext (pow_injOn_Iio_orderOf (by simp [orderOf_x]) (by simp [orderOf_x]) h')
  have hcard : Fintype.card (Fin 65535) = Fintype.card {a : GF16 // a ≠ 0} := by
    rw [Fintype.card_fin, Fintype.card_subtype_compl, card_eq, Fintype.card_subtype_eq]
  obtain ⟨n, hn⟩ := ((Fintype.bijective_iff_injective_and_card f).mpr ⟨hinj, hcard⟩).2 ⟨a, ha⟩
  exact ⟨n, congrArg Subtype.val hn⟩

theorem pow_card_sub_one {a : GF16} (ha : a ≠ 0) : a ^ 65535 = 1 := by
  obtain ⟨n, rfl⟩ := exists_pow_eq ha
  rw [← pow_mul, mul_comm, pow_mul, ← orderOf_x, pow_orderOf_eq_one, one_pow]

instance : Inv GF16 := ⟨fun a => gf16Pow a 65534⟩

instance field : Field GF16 where
  exists_pair_ne := ⟨0, 1, one_ne_zero'.symm⟩
  div := div
  div_eq_mul_inv a b := by
    show (if b = 0 then 0 else a * b⁻¹) = a * b⁻¹
    split
    · rename_i hb
      subst hb
      show 0 = a * gf16Pow 0 65534
      rw [gf16Pow_eq, zero_pow (by decide), mul_zero]
    · rfl
  mul_inv_cancel a ha := by
    show a * gf16Pow a 65534 = 1
    rw [gf16Pow_eq, ← pow_succ']
    exact pow_card_sub_one ha
  inv_zero := by
    show gf16Pow 0 65534 = 0
    rw [gf16Pow_eq, zero_pow (by decide)]
  nnqsmul := _
  nnqsmul_def _ _ := rfl
  qsmul := _
  qsmul_def _ _ := rfl

instance : CharP GF16 2 := CharTwo.of_one_ne_zero_of_two_eq_zero one_ne_zero (by
  rw [← one_add_one_eq_two]
  exact add_self 1)

/-- **The operations of the code are those of a field**: multiplication is associative and
commutative, has the identity 1 and distributes over exclusive or, and division by `b ≠ 0` is
undone by multiplication, because `gf16Pow b 65534` is the inverse of `b`. -/
theorem gf16_is_field (a b c : GF16) :
    (a.mul b).mul c = a.mul (b.mul c) ∧ a.mul b = b.mul a ∧ a.mul ⟨1⟩ = a ∧
      a.mul (b.add c) = (a.mul b).add (a.mul c) ∧
      (b ≠ ⟨0⟩ → (a.div b).mul b = a ∧ b.mul (gf16Pow b 65534) = ⟨1⟩) := by
  refine ⟨mul_assoc a b c, mul_comm a b, mul_one a, mul_add a b c, fun hb => ?_⟩
  have hb' : b ≠ 0 := hb
  exact ⟨div_mul_cancel₀ a hb', mul_inv_cancel₀ hb'⟩

theorem gf16_is_field_sample : (GF16.div ⟨0x1234⟩ ⟨0xabcd⟩).mul ⟨0xabcd⟩ = ⟨0x1234⟩ :=
  ((gf16_is_field ⟨0x1234⟩ ⟨0xabcd⟩ ⟨0⟩).2.2.2.2 (by decide)).1

end GF16

end SignalGo.Spqr
