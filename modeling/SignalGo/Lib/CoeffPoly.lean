import Mathlib

/-!
# Polynomials as coefficient lists

Code computes with a list of coefficients, lowest first. `toPoly` is the polynomial such a list
stands for; the lemmas say what the usual loops over coefficient lists do to it.

* `toPoly_foldl_addAt`: a loop of in-place additions adds the monomials.
* `eval_toPoly`: Horner's rule, from the highest coefficient down.
* `toPoly_eq_of_eval`: two lists of `n` coefficients that agree at `n` places are the same
  polynomial.
-/

namespace SignalGo

open Polynomial

variable {F : Type} [Field F]

noncomputable def toPoly : List F → F[X]
  | [] => 0
  | a :: l => C a + X * toPoly l

@[simp] theorem toPoly_nil : toPoly ([] : List F) = 0 := rfl

@[simp] theorem toPoly_cons (a : F) (l : List F) : toPoly (a :: l) = C a + X * toPoly l := rfl

theorem toPoly_replicate_zero (n : Nat) : toPoly (List.replicate n (0 : F)) = 0 := by
  induction n with
  | zero => rfl
  | succ n ih => simp [List.replicate_succ, ih]

theorem toPoly_map_mul (l : List F) (s : F) : toPoly (l.map (· * s)) = C s * toPoly l := by
  induction l with
  | nil => simp
  | cons a l ih =>
    simp only [List.map_cons, toPoly_cons, ih, C_mul]
    ring

theorem degree_toPoly_lt (l : List F) : (toPoly l).degree < l.length := by
  induction l with
  | nil => simp
  | cons a l ih =>
    rw [toPoly_cons, List.length_cons]
    refine lt_of_le_of_lt (degree_add_le _ _) (max_lt ?_ ?_)
    · exact lt_of_le_of_lt degree_C_le (by exact_mod_cast Nat.succ_pos _)
    · by_cases h : toPoly l = 0
      · rw [h, mul_zero, degree_zero]
        exact WithBot.bot_lt_coe _
      · rw [degree_mul, degree_X, degree_eq_natDegree h]
        rw [degree_eq_natDegree h] at ih
        have ih' : (toPoly l).natDegree < l.length := by exact_mod_cast ih
        exact_mod_cast (by omega : 1 + (toPoly l).natDegree < l.length + 1)

/-! ## Loops -/

/-- Add `v` to the coefficient at `k` in place. -/
def addAt (l : List F) (k : Nat) (v : F) : List F := l.modify k (· + v)

@[simp] theorem length_addAt (l : List F) (k : Nat) (v : F) : (addAt l k v).length = l.length := by
  simp [addAt]

theorem toPoly_addAt {l : List F} {k : Nat} (h : k < l.length) (v : F) :
    toPoly (addAt l k v) = toPoly l + C v * X ^ k := by
  induction l generalizing k with
  | nil => simp at h
  | cons a l ih =>
    cases k with
    | zero =>
      simp only [addAt, List.modify_zero_cons, toPoly_cons, C_add]
      ring
    | succ k =>
      have ih' := ih (k := k) (by simpa using h)
      simp only [addAt, List.modify_succ_cons, toPoly_cons] at ih' ⊢
      rw [ih']
      ring

/-- The updates are made one after the other. -/
theorem toPoly_foldl_addAt {ι : Type} (us : List ι) (k : ι → Nat) (v : ι → F) {l : List F}
    (h : ∀ u ∈ us, k u < l.length) :
    toPoly (us.foldl (fun l u => addAt l (k u) (v u)) l)
      = toPoly l + (us.map fun u => C (v u) * X ^ k u).sum := by
  induction us generalizing l with
  | nil => simp
  | cons u us ih =>
    have hu : k u < l.length := h u List.mem_cons_self
    have hus : ∀ u' ∈ us, k u' < (addAt l (k u) (v u)).length := by
      intro u' hu'
      rw [length_addAt]
      exact h u' (List.mem_cons_of_mem _ hu')
    rw [List.foldl_cons, ih hus, toPoly_addAt hu, List.map_cons, List.sum_cons]
    ring

@[simp] theorem length_foldl_addAt {ι : Type} (us : List ι) (k : ι → Nat) (v : ι → F)
    (l : List F) : (us.foldl (fun l u => addAt l (k u) (v u)) l).length = l.length := by
  induction us generalizing l with
  | nil => rfl
  | cons u us ih => rw [List.foldl_cons, ih, length_addAt]

theorem toPoly_eq_sum (l : List F) (n : Nat) :
    ((l.zipIdx n).map fun u => C u.1 * X ^ u.2).sum = X ^ n * toPoly l := by
  induction l generalizing n with
  | nil => simp
  | cons a l ih =>
    rw [List.zipIdx_cons, List.map_cons, List.sum_cons, ih, toPoly_cons, pow_succ]
    ring

/-- Adding a list into a list that is not shorter adds the polynomials. -/
theorem toPoly_foldl_add {a b : List F} (h : b.length ≤ a.length) :
    toPoly (b.zipIdx.foldl (fun out bi => addAt out bi.2 bi.1) a) = toPoly a + toPoly b := by
  rw [toPoly_foldl_addAt b.zipIdx (fun u => u.2) (fun u => u.1), toPoly_eq_sum, pow_zero, one_mul]
  intro u hu
  have := List.snd_lt_of_mem_zipIdx hu
  omega

/-- Adding the multiples `c * bⱼ` at the places `i + j` adds `c * Xⁱ` times the polynomial. -/
theorem toPoly_foldl_mul_inner (c : F) (i : Nat) {b out : List F}
    (h : i + b.length ≤ out.length) :
    toPoly (b.zipIdx.foldl (fun out bj => addAt out (i + bj.2) (c * bj.1)) out)
      = toPoly out + C c * X ^ i * toPoly b := by
  rw [toPoly_foldl_addAt b.zipIdx (fun u => i + u.2) (fun u => c * u.1)]
  · congr 1
    have hsum := toPoly_eq_sum b 0
    rw [pow_zero, one_mul] at hsum
    rw [← hsum, ← List.sum_map_mul_left]
    congr 1
    apply List.map_congr_left
    intro u _
    rw [C_mul, pow_add]
    ring
  · intro u hu
    have := List.snd_lt_of_mem_zipIdx hu
    omega

/-- The double loop of schoolbook multiplication. -/
theorem toPoly_foldl_mul (b : List F) (us : List (F × Nat)) (out : List F)
    (h : ∀ u ∈ us, u.2 + b.length ≤ out.length) :
    toPoly (us.foldl (fun out ai =>
        b.zipIdx.foldl (fun out bj => addAt out (ai.2 + bj.2) (ai.1 * bj.1)) out) out)
      = toPoly out + (us.map fun u => C u.1 * X ^ u.2).sum * toPoly b := by
  induction us generalizing out with
  | nil => simp
  | cons u us ih =>
    rw [List.foldl_cons, ih, toPoly_foldl_mul_inner _ _ (h u List.mem_cons_self),
      List.map_cons, List.sum_cons]
    · ring
    · intro u' hu'
      rw [length_foldl_addAt]
      exact h u' (List.mem_cons_of_mem _ hu')

theorem length_foldl_mul (b : List F) (us : List (F × Nat)) (out : List F) :
    (us.foldl (fun out ai =>
        b.zipIdx.foldl (fun out bj => addAt out (ai.2 + bj.2) (ai.1 * bj.1)) out) out).length
      = out.length := by
  induction us generalizing out with
  | nil => rfl
  | cons u us ih => rw [List.foldl_cons, ih, length_foldl_addAt]

/-- Horner's rule: the highest coefficient first, then down to the lowest. -/
theorem eval_toPoly (l : List F) (x : F) :
    (toPoly l).eval x = l.reverse.foldl (fun out c => out * x + c) 0 := by
  rw [List.foldl_reverse]
  induction l with
  | nil => simp
  | cons a l ih =>
    rw [toPoly_cons, List.foldr_cons, ← ih]
    simp only [eval_add, eval_C, eval_mul, eval_X]
    ring

/-! ## Interpolation -/

theorem prod_zipIdx {α M : Type} [CommMonoid M] (l : List α) (f : α × Nat → M) :
    (l.zipIdx.map f).prod = ∏ i : Fin l.length, f (l[i], i) := by
  rw [← List.prod_ofFn]
  congr 1
  apply List.ext_getElem
  · simp
  · intro i h1 h2
    simp

/-- The Lagrange sum in characteristic two, where `x - xⱼ` is `x + xⱼ`: at the place `xₖ` it is
`yₖ`. -/
theorem lagrange_sum [CharP F 2] {n : Nat} {x : Fin n → F} (hx : Function.Injective x)
    (y : Fin n → F) (k : Fin n) :
    ∑ i : Fin n, y i / (∏ j : Fin n, if i = j then 1 else x i + x j)
      * (∏ j : Fin n, if i = j then 1 else x k + x j) = y k := by
  rw [Finset.sum_eq_single k]
  · refine div_mul_cancel₀ _ (Finset.prod_ne_zero_iff.mpr fun j _ => ?_)
    split
    · exact one_ne_zero
    · rename_i hkj
      exact fun h => hkj (hx (CharTwo.add_eq_zero.mp h))
  · intro i _ hik
    have hzero : (∏ j : Fin n, if i = j then 1 else x k + x j) = 0 := by
      refine Finset.prod_eq_zero (Finset.mem_univ k) ?_
      rw [if_neg hik]
      exact CharTwo.add_self_eq_zero _
    rw [hzero, mul_zero]
  · exact fun h => absurd (Finset.mem_univ k) h

theorem toPoly_eq_of_eval {l l' : List F} {n : Nat} (hl : l.length = n) (hl' : l'.length = n)
    {s : Finset F} (hs : n ≤ s.card) (h : ∀ x ∈ s, (toPoly l).eval x = (toPoly l').eval x) :
    toPoly l = toPoly l' := by
  have hs' : (n : WithBot Nat) ≤ s.card := by exact_mod_cast hs
  refine Polynomial.eq_of_degrees_lt_of_eval_finset_eq s ?_ ?_ h
  · exact lt_of_lt_of_le (hl ▸ degree_toPoly_lt l) hs'
  · exact lt_of_lt_of_le (hl' ▸ degree_toPoly_lt l') hs'

end SignalGo
