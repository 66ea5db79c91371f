import SignalGo.Lib.CoeffPoly
import SignalGo.Spqr.Gf

/-!
# Polynomials over GF(2¹⁶)

The polynomial arithmetic of the erasure code, on coefficient lists, lowest first, as the code
computes it: `polyAdd`, `polyMul`, `polyScale`, evaluation by Horner's rule, and Lagrange
interpolation.

* `toPoly_polyAdd`, `toPoly_polyMul`, `toPoly_polyScale`, `polyEval_eq`: the
  functions compute the operations they are named after.
* `eval_lagrangeInterpolate`: through points with different `x`, the interpolated
  polynomial takes the value of every point, and has one coefficient per point
  (`length_lagrangeInterpolate`).
-/

namespace SignalGo.Spqr

open Polynomial

/-! ## The code -/

/-- `poly.eval`: from the last coefficient down to the first. -/
def polyEval (coeffs : List GF16) (x : GF16) : GF16 :=
  match coeffs.reverse with
  | [] => ⟨0⟩
  | c :: cs => cs.foldl (fun out c => (out.mul x).add c) c

/-- `out[i] = out[i].add(b[i])` over all of the shorter list. -/
def polyAdd (a b : List GF16) : List GF16 :=
  let (a, b) := if a.length < b.length then (b, a) else (a, b)
  b.zipIdx.foldl (fun out bi => out.modify bi.2 (·.add bi.1)) a

def polyMul (a b : List GF16) : List GF16 :=
  if a.length = 0 ∨ b.length = 0 then []
  else
    a.zipIdx.foldl (fun out ai =>
      b.zipIdx.foldl (fun out bj => out.modify (ai.2 + bj.2) (·.add (ai.1.mul bj.1))) out)
      (List.replicate (a.length + b.length - 1) ⟨0⟩)

def polyScale (a : List GF16) (s : GF16) : List GF16 := a.map (·.mul s)

structure Point where
  x : GF16
  y : GF16
  deriving DecidableEq

/-- The inner loop of `lagrangeInterpolate`: the product of `x - xⱼ` and the product of
`xᵢ - xⱼ`, over all `j ≠ i`. -/
def lagrangeBasis (points : List Point) (i : Nat) (xi : GF16) : List GF16 × GF16 :=
  points.zipIdx.foldl (fun acc pj =>
    if i = pj.2 then acc else (polyMul acc.1 [pj.1.x, ⟨1⟩], acc.2.mul (xi.add pj.1.x)))
    ([⟨1⟩], ⟨1⟩)

/-- The outer loop of `lagrangeInterpolate`: the term of one point is added. -/
def lagrangeAdd (points : List Point) (coeffs : List GF16) (pi : Point × Nat) : List GF16 :=
  let (basis, denom) := lagrangeBasis points pi.2 pi.1.x
  if denom = ⟨0⟩ then coeffs
  else polyAdd coeffs (polyScale basis (pi.1.y.div denom))

def lagrangeInterpolate (points : List Point) : List GF16 :=
  if points.length = 0 then []
  else points.zipIdx.foldl (lagrangeAdd points) (List.replicate points.length ⟨0⟩)

/-! ## What the functions compute -/

theorem polyEval_eq (coeffs : List GF16) (x : GF16) :
    polyEval coeffs x = (toPoly coeffs).eval x := by
  rw [eval_toPoly, polyEval]
  cases h : coeffs.reverse with
  | nil => rfl
  | cons c cs =>
    show _ = cs.foldl (fun out c => out * x + c) (0 * x + c)
    rw [zero_mul, zero_add]
    rfl

theorem polyAdd_eq (a b : List GF16) : polyAdd a b =
    if a.length < b.length then a.zipIdx.foldl (fun out bi => addAt out bi.2 bi.1) b
    else b.zipIdx.foldl (fun out bi => addAt out bi.2 bi.1) a := by
  unfold polyAdd
  by_cases h : a.length < b.length
  · rw [if_pos h, if_pos h]
    rfl
  · rw [if_neg h, if_neg h]
    rfl

theorem toPoly_polyAdd (a b : List GF16) : toPoly (polyAdd a b) = toPoly a + toPoly b := by
  rw [polyAdd_eq]
  split
  · rw [toPoly_foldl_add (by omega), add_comm]
  · exact toPoly_foldl_add (by omega)

theorem length_polyAdd (a b : List GF16) :
    (polyAdd a b).length = max a.length b.length := by
  rw [polyAdd_eq]
  split
  · rw [length_foldl_addAt]
    omega
  · rw [length_foldl_addAt]
    omega

theorem polyMul_eq {a b : List GF16} (ha : a.length ≠ 0) (hb : b.length ≠ 0) : polyMul a b =
    a.zipIdx.foldl (fun out ai =>
      b.zipIdx.foldl (fun out bj => addAt out (ai.2 + bj.2) (ai.1 * bj.1)) out)
      (List.replicate (a.length + b.length - 1) 0) := by
  unfold polyMul
  rw [if_neg (by tauto)]
  rfl

theorem toPoly_polyMul (a b : List GF16) : toPoly (polyMul a b) = toPoly a * toPoly b := by
  by_cases ha : a.length = 0
  · simp [List.length_eq_zero_iff.mp ha, polyMul]
  by_cases hb : b.length = 0
  · simp [List.length_eq_zero_iff.mp hb, polyMul]
  rw [polyMul_eq ha hb, toPoly_foldl_mul, toPoly_eq_sum, pow_zero, one_mul,
    toPoly_replicate_zero, zero_add]
  intro u hu
  have := List.snd_lt_of_mem_zipIdx hu
  rw [List.length_replicate]
  omega

theorem length_polyMul {a b : List GF16} (ha : a.length ≠ 0) (hb : b.length ≠ 0) :
    (polyMul a b).length = a.length + b.length - 1 := by
  rw [polyMul_eq ha hb, length_foldl_mul, List.length_replicate]

theorem toPoly_polyScale (a : List GF16) (s : GF16) :
    toPoly (polyScale a s) = C s * toPoly a :=
  toPoly_map_mul a s

/-! ## Interpolation -/

/-- The inner loop, over any of the points. -/
theorem lagrangeBasis_fold (i : Nat) (xi : GF16) (us : List (Point × Nat))
    (acc : List GF16 × GF16) (hacc : acc.1.length ≠ 0) :
    let res := us.foldl (fun acc pj =>
      if i = pj.2 then acc else (polyMul acc.1 [pj.1.x, ⟨1⟩], acc.2.mul (xi.add pj.1.x))) acc
    toPoly res.1 = toPoly acc.1
        * (us.map fun u => if i = u.2 then 1 else X + C u.1.x).prod
      ∧ res.2 = acc.2 * (us.map fun u => if i = u.2 then 1 else xi + u.1.x).prod
      ∧ res.1.length = acc.1.length + (us.filter fun u => i ≠ u.2).length := by
  induction us generalizing acc with
  | nil => simp
  | cons u us ih =>
    by_cases hi : i = u.2
    · simpa [hi] using ih acc hacc
    · have hlen : (polyMul acc.1 [u.1.x, ⟨1⟩]).length = acc.1.length + 1 :=
        length_polyMul hacc (by simp)
      have hpoly : toPoly (polyMul acc.1 [u.1.x, ⟨1⟩]) = toPoly acc.1 * (X + C u.1.x) := by
        rw [toPoly_polyMul]
        congr 1
        show C u.1.x + X * (C 1 + X * 0) = _
        rw [mul_zero, add_zero, C_1, mul_one, add_comm]
      obtain ⟨ih1, ih2, ih3⟩ := ih (polyMul acc.1 [u.1.x, ⟨1⟩], acc.2.mul (xi.add u.1.x))
        (by rw [hlen]; omega)
      refine ⟨?_, ?_, ?_⟩
      · rw [List.foldl_cons, if_neg hi, ih1, hpoly, List.map_cons, List.prod_cons, if_neg hi,
          mul_assoc]
      · rw [List.foldl_cons, if_neg hi, ih2, List.map_cons, List.prod_cons, if_neg hi, ← mul_assoc]
        rfl
      · rw [List.foldl_cons, if_neg hi, ih3, hlen, List.filter_cons_of_pos (by simpa using hi),
          List.length_cons]
        omega

section

variable (points : List Point)

/-- The place of the point number `i`. -/
def pointX (i : Fin points.length) : GF16 := points[i].x

/-- Numerator and denominator of the Lagrange basis. -/
theorem lagrangeBasis_eq (i : Fin points.length) (xi : GF16) :
    toPoly (lagrangeBasis points i xi).1
        = ∏ j : Fin points.length, (if i = j then 1 else X + C (pointX points j))
      ∧ (lagrangeBasis points i xi).2
        = ∏ j : Fin points.length, (if i = j then 1 else xi + pointX points j)
      ∧ (lagrangeBasis points i xi).1.length ≤ points.length := by
  obtain ⟨h1, h2, h3⟩ := lagrangeBasis_fold i xi points.zipIdx ([⟨1⟩], ⟨1⟩) (by simp)
  refine ⟨?_, ?_, ?_⟩
  · rw [prod_zipIdx] at h1
    refine h1.trans ?_
    rw [show toPoly [(⟨1⟩ : GF16)] = 1 by show C 1 + X * 0 = _; rw [mul_zero, add_zero, C_1],
      one_mul]
    exact Finset.prod_congr rfl fun j _ => by simp [Fin.ext_iff, pointX]
  · rw [prod_zipIdx] at h2
    refine h2.trans ?_
    rw [show (⟨1⟩ : GF16) = 1 from rfl, one_mul]
    exact Finset.prod_congr rfl fun j _ => by simp [Fin.ext_iff, pointX]
  · -- the point itself is left out
    have hlt : (points.zipIdx.filter fun u => (i : Nat) ≠ u.2).length < points.zipIdx.length := by
      refine List.length_filter_lt_length_iff_exists.mpr ⟨(points[i], i), ?_, by simp⟩
      exact List.mk_mem_zipIdx_iff_getElem?.mpr (by simp)
    rw [List.length_zipIdx] at hlt
    have h3' : (lagrangeBasis points i xi).1.length = 1 + _ := h3
    omega

/-- One term of the interpolation. -/
noncomputable def lagrangeTerm (i : Fin points.length) : GF16[X] :=
  C (points[i].y / ∏ j : Fin points.length,
      (if i = j then 1 else pointX points i + pointX points j))
    * ∏ j : Fin points.length, (if i = j then 1 else X + C (pointX points j))

/-- One round of the outer loop, for points with different places. -/
theorem lagrangeAdd_eq (hx : Function.Injective (pointX points)) (i : Fin points.length)
    {coeffs : List GF16} (hlen : coeffs.length = points.length) :
    toPoly (lagrangeAdd points coeffs (points[i], i)) = toPoly coeffs + lagrangeTerm points i
      ∧ (lagrangeAdd points coeffs (points[i], i)).length = points.length := by
  obtain ⟨hbasis, hdenom, hblen⟩ := lagrangeBasis_eq points i points[i].x
  have hne : (lagrangeBasis points i points[i].x).2 ≠ 0 := by
    rw [hdenom]
    refine Finset.prod_ne_zero_iff.mpr fun j _ => ?_
    split
    · exact one_ne_zero
    · rename_i hij
      exact fun h => hij (hx (CharTwo.add_eq_zero.mp h))
  have hadd : lagrangeAdd points coeffs (points[i], i)
      = polyAdd coeffs (polyScale (lagrangeBasis points i points[i].x).1
        (points[i].y.div (lagrangeBasis points i points[i].x).2)) := if_neg hne
  rw [hadd]
  constructor
  · rw [toPoly_polyAdd, toPoly_polyScale, hbasis, hdenom]
    rfl
  · rw [length_polyAdd, polyScale, List.length_map]
    omega

theorem lagrangeInterpolate_fold (hx : Function.Injective (pointX points))
    (us : List (Fin points.length)) (coeffs : List GF16) (hlen : coeffs.length = points.length) :
    let res := us.foldl (fun coeffs (i : Fin points.length) =>
      lagrangeAdd points coeffs (points[i], i)) coeffs
    toPoly res = toPoly coeffs + (us.map (lagrangeTerm points)).sum
      ∧ res.length = points.length := by
  induction us generalizing coeffs with
  | nil => simpa using hlen
  | cons i us ih =>
    obtain ⟨hstep, hlen'⟩ := lagrangeAdd_eq points hx i hlen
    obtain ⟨ih1, ih2⟩ := ih _ hlen'
    refine ⟨?_, ih2⟩
    rw [List.foldl_cons, ih1, hstep, List.map_cons, List.sum_cons, add_assoc]

theorem zipIdx_eq_map_finRange {α : Type} (l : List α) :
    l.zipIdx = (List.finRange l.length).map fun i : Fin l.length => (l.get i, (i : Nat)) := by
  apply List.ext_getElem
  · simp
  · intro i h1 h2
    simp

/-- **Interpolation** through points with different places: one coefficient per point, and the
sum of the Lagrange terms. -/
theorem lagrangeInterpolate_eq (hx : Function.Injective (pointX points)) :
    toPoly (lagrangeInterpolate points) = ∑ i : Fin points.length, lagrangeTerm points i
      ∧ (lagrangeInterpolate points).length = points.length := by
  unfold lagrangeInterpolate
  split
  · rename_i h
    have hnil := List.length_eq_zero_iff.mp h
    subst hnil
    simp
  · rw [zipIdx_eq_map_finRange, List.foldl_map]
    obtain ⟨h1, h2⟩ := lagrangeInterpolate_fold points hx (List.finRange points.length)
      (List.replicate points.length 0) List.length_replicate
    rw [toPoly_replicate_zero, zero_add, ← List.ofFn_eq_map, List.sum_ofFn] at h1
    exact ⟨h1, h2⟩

theorem length_lagrangeInterpolate (hx : Function.Injective (pointX points)) :
    (lagrangeInterpolate points).length = points.length :=
  (lagrangeInterpolate_eq points hx).2

theorem eval_lagrangeInterpolate (hx : Function.Injective (pointX points))
    (k : Fin points.length) :
    (toPoly (lagrangeInterpolate points)).eval points[k].x = points[k].y := by
  rw [(lagrangeInterpolate_eq points hx).1, eval_finsetSum]
  refine Eq.trans (Finset.sum_congr rfl fun i _ => ?_)
    (lagrange_sum hx (fun i => points[i].y) k)
  rw [lagrangeTerm, eval_mul, eval_C, eval_prod]
  congr 1
  refine Finset.prod_congr rfl fun j _ => ?_
  split
  · exact eval_one
  · rw [eval_add, eval_X, eval_C]
    rfl

end

end SignalGo.Spqr
