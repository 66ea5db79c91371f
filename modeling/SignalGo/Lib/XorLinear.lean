import Mathlib

/-!
# Exclusive or and linear maps on words

A word is a vector of bits, exclusive or is its addition, and a map that commutes with it is
determined by the words with a single bit.

* `xor_induction`: what holds of zero and of the single bits, and is closed under
  exclusive or, holds of every 16-bit word.
* `eq_of_xorLinear`: two linear maps that agree on the single bits are equal.
-/

namespace SignalGo

/-- The word with only bit `i` set. -/
def bit16 (i : Fin 16) : UInt16 := UInt16.ofBitVec (BitVec.twoPow 16 i)

/-- A property of the bits that sums keep holds of every word. -/
theorem xor_induction {P : UInt16 → Prop} (h0 : P 0) (hxor : ∀ a b, P a → P b → P (a ^^^ b))
    (hbit : ∀ i, P (bit16 i)) (a : UInt16) : P a := by
  -- the bits from `n` on are zero: take off the highest remaining one
  have key : ∀ n ≤ 16, ∀ v : BitVec 16, (∀ i, n ≤ i → v.getLsbD i = false) →
      P (UInt16.ofBitVec v) := by
    intro n
    induction n with
    | zero =>
      intro _ v hv
      have hv0 : v = 0 := by
        apply BitVec.eq_of_getLsbD_eq
        intro i _
        simpa using hv i (Nat.zero_le i)
      rw [hv0]
      exact h0
    | succ n ih =>
      intro hn v hv
      by_cases hb : v.getLsbD n
      · have hsplit : v = (v ^^^ BitVec.twoPow 16 n) ^^^ BitVec.twoPow 16 n := by
          rw [BitVec.xor_assoc, BitVec.xor_self, BitVec.xor_zero]
        rw [hsplit]
        refine hxor _ _ (ih (by omega) _ ?_) (hbit ⟨n, hn⟩)
        intro i hi
        rw [BitVec.getLsbD_xor, BitVec.getLsbD_twoPow]
        by_cases hin : i = n
        · subst hin
          simp [hb]
          omega
        · have hne : ¬ (n = i) := fun h => hin h.symm
          simp [hv i (by omega), hne]
      · refine ih (by omega) v fun i hi => ?_
        by_cases hin : i = n
        · subst hin
          simpa using hb
        · exact hv i (by omega)
  exact key 16 le_rfl a.toBitVec fun i hi => BitVec.getLsbD_of_ge _ _ hi

/-- A map on words that commutes with exclusive or. -/
def XorLinear (f : UInt16 → UInt16) : Prop := ∀ a b, f (a ^^^ b) = f a ^^^ f b

theorem XorLinear.zero {f : UInt16 → UInt16} (h : XorLinear f) : f 0 = 0 := by
  have := h 0 0
  simpa using this

theorem eq_of_xorLinear {f g : UInt16 → UInt16} (hf : XorLinear f) (hg : XorLinear g)
    (hbit : ∀ i, f (bit16 i) = g (bit16 i)) (a : UInt16) : f a = g a := by
  refine xor_induction (P := fun a => f a = g a) ?_ (fun a b ha hb => ?_) hbit a
  · rw [hf.zero, hg.zero]
  · rw [hf, hg, ha, hb]

end SignalGo
