import SignalGo.Spqr.EncodingPersist

/-!
# The erasure code decodes

Any `⌈len / 32⌉` different chunks of a message determine it, in any order and with repetitions,
and fewer yield nothing.

* `dealPoints_getElem?`: polynomial `j` holds the symbols `j`, `16 + j`, `32 + j`, ….
* `pointAt_eq`: the encoder's symbols are values of one polynomial per index, of a degree
  below its number of points.
* `Collected`: what the decoder has kept of the chunks it was given.
* `Collected.decodedMessage`: with enough different chunks the message comes out.
* `erasure_code_correct`: the whole exchange, with either side saved and restored at any
  point.
-/

namespace SignalGo.Spqr

open Std (ExtTreeMap)
open Polynomial

/-! ## Symbols -/

theorem symbolOf_symbolBytes (v : GF16) :
    symbolOf (v.val >>> 8).toUInt8 v.val.toUInt8 = v := by
  have h := readUint16_putUint16 (ε := Err) v.val []
  exact GF16.ext_val (Except.ok.inj h)

theorem symbolBytes_symbolOf (hi lo : UInt8) : symbolBytes (symbolOf hi lo) = [hi, lo] := by
  have hval : (symbolOf hi lo).val.toNat = 256 * hi.toNat + lo.toNat := by
    show (hi.toUInt16 <<< 8 ||| lo.toUInt16).toNat = _
    simp only [UInt16.toNat_or, UInt16.toNat_shiftLeft, UInt8.toNat_toUInt16,
      show UInt16.toNat 8 % 16 = 8 from rfl]
    have h0 := or_byte_shiftLeft hi.toNat lo 0
    simp only [Nat.shiftLeft_zero, Nat.zero_add, pow_zero, one_mul] at h0
    rw [byte_shiftLeft_mod _ 8 16 (by omega), Nat.shiftLeft_eq, mul_comm, h0]
  have hlo := lo.toNat_lt
  have hhi := hi.toNat_lt
  simp only [symbolBytes, List.cons.injEq, and_true]
  constructor
  · apply UInt8.toNat_inj.mp
    rw [UInt16.toNat_toUInt8, UInt16.toNat_shiftRight, hval,
      show UInt16.toNat 8 % 16 = 8 from rfl, Nat.shiftRight_eq_div_pow]
    omega
  · apply UInt8.toNat_inj.mp
    rw [UInt16.toNat_toUInt8, hval]
    omega

theorem length_symbolsOf : ∀ msg : Bytes, (symbolsOf msg).length = msg.length / 2
  | [] => rfl
  | [_] => by simp [symbolsOf]
  | hi :: lo :: rest => by
      rw [symbolsOf, List.length_cons, length_symbolsOf rest, List.length_cons, List.length_cons]
      omega

theorem flatMap_symbolsOf : ∀ msg : Bytes, msg.length % 2 = 0 →
    (symbolsOf msg).flatMap symbolBytes = msg
  | [], _ => rfl
  | [_], h => by simp at h
  | hi :: lo :: rest, h => by
      have hrest : rest.length % 2 = 0 := by
        simp only [List.length_cons] at h
        omega
      rw [symbolsOf, List.flatMap_cons, flatMap_symbolsOf rest hrest, symbolBytes_symbolOf]
      rfl

theorem symbol_chunkData (symbol : Fin 16 → GF16) (index : UInt16) (i : Fin 16) :
    ({ index, data := chunkData symbol } : Chunk).symbol i = symbol i := by
  rw [← symbolOf_symbolBytes (symbol i)]
  fin_cases i <;> rfl

/-! ## Dealing the symbols -/

theorem dealPoints_append (symbols : List GF16) (v : GF16) :
    dealPoints (symbols ++ [v]) = (dealPoints symbols).set (symbols.length % 16)
      ((dealPoints symbols)[symbols.length % 16] ++ [v]) := by
  unfold dealPoints
  rw [List.zipIdx_append, List.foldl_append]
  simp

/-- Polynomial `j` holds the symbols `j`, `16 + j`, `32 + j`, …. -/
theorem dealPoints_getElem? (symbols : List GF16) (j : Nat) (hj : j < 16) (k : Nat) :
    (dealPoints symbols)[j][k]? = symbols[16 * k + j]? := by
  induction symbols using List.reverseRecOn generalizing k with
  | nil => simp [dealPoints]
  | append_singleton symbols v ih =>
    simp only [dealPoints_append]
    by_cases hj' : symbols.length % 16 = j
    · subst hj'
      -- the list of this polynomial ends where the symbols end
      have hlen : (dealPoints symbols)[symbols.length % 16].length = symbols.length / 16 := by
        have hle : ∀ k, (dealPoints symbols)[symbols.length % 16].length ≤ k ↔
            symbols.length ≤ 16 * k + symbols.length % 16 := by
          intro k
          rw [← List.getElem?_eq_none_iff, ih, List.getElem?_eq_none_iff]
        have h1 := (hle (symbols.length / 16)).mpr (by omega)
        have h2 := (hle (dealPoints symbols)[symbols.length % 16].length).mp le_rfl
        omega
      rw [Vector.getElem_set_self, List.getElem?_append, List.getElem?_append, hlen, ih]
      by_cases hk : k < symbols.length / 16
      · rw [if_pos hk, if_pos (by omega)]
      · rw [if_neg hk, if_neg (by omega)]
        by_cases hk' : k = symbols.length / 16
        · rw [show k - symbols.length / 16 = 0 by omega,
            show 16 * k + symbols.length % 16 - symbols.length = 0 by omega]
        · rw [List.getElem?_eq_none (by simp; omega), List.getElem?_eq_none (by simp; omega)]
    · rw [Vector.getElem_set_ne _ _ hj', ih, List.getElem?_append]
      by_cases hk : 16 * k + j < symbols.length
      · rw [if_pos hk]
      · rw [if_neg hk, List.getElem?_eq_none (by omega), List.getElem?_eq_none (by simp; omega)]

/-- The number of symbols of polynomial `j`. -/
theorem length_dealPoints (symbols : List GF16) (j : Nat) (hj : j < 16) :
    (dealPoints symbols)[j].length
      = if j < symbols.length % 16 then symbols.length / 16 + 1 else symbols.length / 16 := by
  have hle : ∀ k, (dealPoints symbols)[j].length ≤ k ↔ symbols.length ≤ 16 * k + j := by
    intro k
    rw [← List.getElem?_eq_none_iff, dealPoints_getElem?, List.getElem?_eq_none_iff]
  have h1 := (hle (dealPoints symbols)[j].length).mp le_rfl
  have h2 := hle (symbols.length / 16 + 1)
  have h3 := hle (symbols.length / 16)
  split <;> omega

/-- The symbols of polynomial `j`. -/
def share (symbols : List GF16) (j : Fin 16) : List GF16 := (dealPoints symbols).get j

/-! ## The polynomials of the encoder -/

theorem pointX_injective {points : List Point} (h : (points.map Point.x).Nodup) :
    Function.Injective (pointX points) := by
  intro i j hij
  have hi : (i : Nat) < (points.map Point.x).length := by simp
  have hj : (j : Nat) < (points.map Point.x).length := by simp
  have hval : (points.map Point.x)[(i : Nat)] = (points.map Point.x)[(j : Nat)] := by
    rw [List.getElem_map, List.getElem_map]
    exact hij
  exact Fin.ext (h.getElem_inj_iff.mp hval)

theorem nodup_indexedPoints {ys : List GF16} (h : ys.length ≤ 2 ^ 16) :
    ((indexedPoints ys).map Point.x).Nodup := by
  have hx : (indexedPoints ys).map Point.x
      = (List.range ys.length).map fun k => (⟨UInt16.ofNat k⟩ : GF16) := by
    apply List.ext_getElem <;> simp [indexedPoints]
  rw [hx]
  refine List.Nodup.map_on ?_ List.nodup_range
  intro a ha b hb hab
  have hval : UInt16.ofNat a = UInt16.ofNat b := congrArg GF16.val hab
  have hnat := congrArg UInt16.toNat hval
  rw [UInt16.toNat_ofNat', UInt16.toNat_ofNat'] at hnat
  have ha' := List.mem_range.mp ha
  have hb' := List.mem_range.mp hb
  omega

/-- The polynomial that takes the values `ys` at the places `0, 1, …`. -/
noncomputable def codePoly (ys : List GF16) : GF16[X] :=
  toPoly (lagrangeInterpolate (indexedPoints ys))

theorem length_indexedPoints (ys : List GF16) : (indexedPoints ys).length = ys.length := by
  simp [indexedPoints]

theorem eval_codePoly {ys : List GF16} (h : ys.length ≤ 2 ^ 16) {k : Nat} (hk : k < ys.length) :
    (codePoly ys).eval ⟨UInt16.ofNat k⟩ = ys[k] := by
  have hk' : k < (indexedPoints ys).length := by rwa [length_indexedPoints]
  have heval := eval_lagrangeInterpolate (indexedPoints ys)
    (pointX_injective (nodup_indexedPoints h)) ⟨k, hk'⟩
  simpa [indexedPoints, codePoly] using heval

/-- A symbol of a chunk is the value of its polynomial at the index of the chunk, whether the
encoder reads it off the message or computes it. -/
theorem pointAt_eq (e : PolyEncoder) (j : Fin 16) (h : (e.points.get j).length ≤ 2 ^ 16)
    (i : UInt16) : e.pointAt j i.toNat = (codePoly (e.points.get j)).eval ⟨i⟩ := by
  unfold PolyEncoder.pointAt
  cases hy : e.points[j][i.toNat]? with
  | none =>
    simp only [UInt16.ofNat_toNat]
    exact polyEval_eq _ _
  | some y =>
    obtain ⟨hlt, rfl⟩ := List.getElem?_eq_some_iff.mp hy
    have hval := eval_codePoly h hlt
    rw [UInt16.ofNat_toNat] at hval
    exact hval.symm

/-! ## What the decoder has kept -/

/-- The decoder was given the chunks with the indices `S`, whose symbols are the values of the
polynomials through `symbols`. Every stored point is such a value, and a polynomial that still
misses points has kept all of them. -/
structure Collected (symbols : List GF16) (S : Finset UInt16) (d : PolyDecoder) : Prop where
  incomplete : d.isComplete = false
  ptsNeeded : d.ptsNeeded = symbols.length
  stored : ∀ (j : Fin 16) (x : UInt16) (y : GF16), d.points[j][x]? = some y →
    x ∈ S ∧ y = (codePoly (share symbols j)).eval ⟨x⟩
  kept : ∀ j : Fin 16, (share symbols j).length ≤ d.points[j].size ∨ ∀ x ∈ S, x ∈ d.points[j]

section Decoder

variable {symbols : List GF16} {S : Finset UInt16} {d : PolyDecoder}

theorem Collected.needed (hd : Collected symbols S d) (j : Fin 16) :
    d.necessaryPoints j = (share symbols j).length := by
  rw [share, Vector.get_eq_getElem, length_dealPoints, PolyDecoder.necessaryPoints, hd.ptsNeeded]
  rfl

theorem getElem?_keepPoint (needed : Nat) (pts : PointMap) (x a : UInt16) (y y' : GF16)
    (h : (keepPoint needed pts x y)[a]? = some y') : (a = x ∧ y' = y) ∨ pts[a]? = some y' := by
  unfold keepPoint at h
  split at h
  · rw [ExtTreeMap.getElem?_insertIfNew] at h
    split at h
    · rename_i hc
      exact .inl ⟨(Std.LawfulEqOrd.compare_eq_iff_eq.mp hc.1).symm, by cases h; rfl⟩
    · exact .inr h
  · exact .inr h

theorem size_le_size_keepPoint (needed : Nat) (pts : PointMap) (x : UInt16) (y : GF16) :
    pts.size ≤ (keepPoint needed pts x y).size := by
  unfold keepPoint
  split
  · exact ExtTreeMap.size_le_size_insertIfNew
  · exact le_rfl

/-- While points are missing every point is kept. -/
theorem mem_keepPoint {needed : Nat} {pts : PointMap} (h : pts.size < needed) (x a : UInt16)
    (y : GF16) : a ∈ keepPoint needed pts x y ↔ x = a ∨ a ∈ pts := by
  rw [keepPoint, if_pos (.inr h), ExtTreeMap.mem_insertIfNew,
    Std.LawfulEqOrd.compare_eq_iff_eq]

theorem points_addChunk (d : PolyDecoder) (c : Chunk) {j : Nat} (hj : j < 16) :
    (d.addChunk c).points[j]
      = keepPoint (d.necessaryPoints ⟨j, hj⟩) d.points[j] c.index (c.symbol ⟨j, hj⟩) := by
  rw [PolyDecoder.addChunk, Vector.getElem_ofFn]
  rfl

/-- One more chunk. -/
theorem Collected.addChunk (hd : Collected symbols S d) (c : Chunk)
    (hc : ∀ j, c.symbol j = (codePoly (share symbols j)).eval ⟨c.index⟩) :
    Collected symbols (insert c.index S) (d.addChunk c) where
  incomplete := by simpa only [PolyDecoder.addChunk] using hd.incomplete
  ptsNeeded := by simpa only [PolyDecoder.addChunk] using hd.ptsNeeded
  stored j x y h := by
    rw [Fin.getElem_fin, points_addChunk] at h
    obtain ⟨rfl, rfl⟩ | hold := getElem?_keepPoint _ _ _ _ _ _ h
    · exact ⟨Finset.mem_insert_self _ _, hc j⟩
    · obtain ⟨hx, hy⟩ := hd.stored j x y hold
      exact ⟨Finset.mem_insert_of_mem hx, hy⟩
  kept j := by
    rw [Fin.getElem_fin, points_addChunk, Fin.eta, hd.needed]
    rcases hd.kept j with hfull | hall
    · exact .inl (hfull.trans (size_le_size_keepPoint _ _ _ _))
    rcases le_or_gt (share symbols j).length d.points[j].size with hfull | hshort
    · exact .inl (hfull.trans (size_le_size_keepPoint _ _ _ _))
    · refine .inr fun x hx => (mem_keepPoint hshort _ _ _).mpr ?_
      rcases Finset.mem_insert.mp hx with rfl | hx
      · exact .inl rfl
      · exact .inr (hall x hx)

theorem Collected.size_le (hd : Collected symbols S d) (j : Fin 16) :
    (d.points.get j).size ≤ S.card := by
  rw [← size_eq_card]
  refine Finset.card_le_card fun x hx => ?_
  have hmem : x ∈ d.points[j] := ExtTreeMap.mem_keys.mp (List.mem_toFinset.mp hx)
  obtain ⟨y, hy⟩ := Option.isSome_iff_exists.mp (ExtTreeMap.mem_iff_isSome_getElem?.mp hmem)
  exact (hd.stored j x y hy).1

/-- A polynomial has all the points it needs once that many chunks have come in. -/
theorem Collected.size_ge (hd : Collected symbols S d) (j : Fin 16)
    (h : (share symbols j).length ≤ S.card) : (share symbols j).length ≤ d.points[j].size := by
  rcases hd.kept j with hfull | hall
  · exact hfull
  · rw [← size_eq_card]
    refine h.trans (Finset.card_le_card fun x hx => ?_)
    exact List.mem_toFinset.mpr (ExtTreeMap.mem_keys.mpr (hall x hx))

/-! ## Decoding -/

theorem gatherPoints_full (d : PolyDecoder) (is : List (Fin 16))
    (h : ∀ i ∈ is, 0 < d.necessaryPoints i ∧ d.necessaryPoints i ≤ (d.points.get i).size) :
    d.gatherPoints is
      = .ok (some (is.map fun i => (i, d.sortedPoints i (d.necessaryPoints i)))) := by
  induction is with
  | nil => rfl
  | cons i is ih =>
    obtain ⟨hpos, hget⟩ := h i List.mem_cons_self
    have hsize : d.necessaryPoints i ≤ d.points[i].size := hget
    have hlen : (d.sortedPoints i (d.necessaryPoints i)).length ≠ 0 := by
      rw [PolyDecoder.sortedPoints, List.length_map, List.length_take, ExtTreeMap.length_toList]
      omega
    rw [PolyDecoder.gatherPoints, if_neg (by omega), if_neg hlen,
      ih fun i' hi' => h i' (List.mem_cons_of_mem _ hi')]
    rfl

theorem lookup_map_mk {β : Type} (f : Fin 16 → β) (is : List (Fin 16)) {j : Fin 16}
    (hj : j ∈ is) : (is.map fun i => (i, f i)).lookup j = some (f j) := by
  induction is with
  | nil => cases hj
  | cons i is ih =>
    rw [List.map_cons, List.lookup_cons]
    by_cases hij : j = i
    · subst hij
      simp
    · rw [beq_eq_false_iff_ne.mpr hij]
      exact ih ((List.mem_cons.mp hj).resolve_left hij)

/-- The points the decoder interpolates through have different places. -/
theorem nodup_sortedPoints (d : PolyDecoder) (j : Fin 16) (n : Nat) :
    ((d.sortedPoints j n).map Point.x).Nodup := by
  have hx : (d.sortedPoints j n).map Point.x
      = (d.points[j].keys.take n).map GF16.mk := by
    rw [← ExtTreeMap.map_fst_toList_eq_keys, PolyDecoder.sortedPoints, ← List.map_take,
      List.map_map, List.map_map]
    rfl
  rw [hx]
  refine List.Nodup.map (fun a b h => congrArg GF16.val h) ?_
  exact ExtTreeMap.nodup_keys.sublist (List.take_sublist _ _)

/-- **Uniqueness**: the polynomial through the decoder's points is the one through the symbols. -/
theorem Collected.interpolate (hd : Collected symbols S d) (j : Fin 16)
    (hlen : (share symbols j).length ≤ 2 ^ 16)
    (hsize : (share symbols j).length ≤ d.points[j].size) :
    toPoly (lagrangeInterpolate (d.sortedPoints j (share symbols j).length)) =
      codePoly (share symbols j) := by
  have hinj := pointX_injective (nodup_sortedPoints d j (share symbols j).length)
  have hpts : (d.sortedPoints j (share symbols j).length).length = (share symbols j).length := by
    rw [PolyDecoder.sortedPoints, List.length_map, List.length_take, ExtTreeMap.length_toList]
    omega
  refine toPoly_eq_of_eval (n := (share symbols j).length)
    (s := Finset.univ.image (pointX (d.sortedPoints j (share symbols j).length))) ?_ ?_ ?_ ?_
  · rw [length_lagrangeInterpolate _ hinj, hpts]
  · rw [length_lagrangeInterpolate _ (pointX_injective (nodup_indexedPoints hlen)),
      length_indexedPoints]
  · rw [Finset.card_image_of_injective _ hinj, Finset.card_univ, Fintype.card_fin, hpts]
  · intro x hx
    obtain ⟨k, -, rfl⟩ := Finset.mem_image.mp hx
    refine (eval_lagrangeInterpolate _ hinj k).trans ?_
    -- the point number `k` is one of the stored ones
    obtain ⟨⟨x, y⟩, hxy, hk⟩ := List.mem_map.mp
      (List.getElem_mem (l := d.sortedPoints j (share symbols j).length) k.isLt)
    have hget := ExtTreeMap.mem_toList_iff_getElem?_eq_some.mp (List.mem_of_mem_take hxy)
    have hy := (hd.stored j x y hget).2
    show (d.sortedPoints j (share symbols j).length)[(k : Nat)].y
      = (codePoly (share symbols j)).eval (d.sortedPoints j (share symbols j).length)[(k : Nat)].x
    rw [← hk]
    exact hy

theorem Collected.decodedMessage_none (hd : Collected symbols S d)
    (h : S.card < (symbols.length + 15) / 16) : d.decodedMessage = .ok none := by
  have hneeded : d.necessaryPoints 0 = (symbols.length + 15) / 16 := by
    rw [PolyDecoder.necessaryPoints, hd.ptsNeeded]
    show (if 0 % 16 < symbols.length % 16 then symbols.length / 16 + 1 else symbols.length / 16) = _
    by_cases hrem : 0 < symbols.length % 16
    · rw [if_pos hrem]
      omega
    · rw [if_neg hrem]
      omega
  have hshort : d.points[(0 : Fin 16)].size < d.necessaryPoints 0 := by
    have hle : d.points[(0 : Fin 16)].size ≤ S.card := hd.size_le 0
    omega
  have hgather : d.gatherPoints (List.finRange 16) = .ok none := by
    rw [List.finRange_succ, PolyDecoder.gatherPoints, if_pos hshort]
    rfl
  unfold PolyDecoder.decodedMessage
  rw [if_neg (by simp [hd.incomplete]), hgather]
  rfl

/-- One symbol of the message. -/
theorem Collected.symbolAt (hd : Collected symbols S d) (hmax : symbols.length ≤ 2 ^ 19)
    (hsize : ∀ j, (share symbols j).length ≤ d.points[j].size)
    {t : Nat} (ht : t < symbols.length) :
    d.symbolAt ((List.finRange 16).map fun i => (i, d.sortedPoints i (d.necessaryPoints i))) t
      = symbols[t] := by
  have hj : t % 16 < 16 := Nat.mod_lt _ (by decide)
  have hlen : (share symbols ⟨t % 16, hj⟩).length ≤ 2 ^ 16 := by
    rw [share, Vector.get_eq_getElem, length_dealPoints]
    split <;> omega
  -- symbol `t` is the value of its polynomial at `t / 16`
  have hget : (share symbols ⟨t % 16, hj⟩)[t / 16]? = some symbols[t] := by
    rw [share, Vector.get_eq_getElem, dealPoints_getElem?, Nat.div_add_mod,
      List.getElem?_eq_getElem ht]
  obtain ⟨hlt, hval⟩ := List.getElem?_eq_some_iff.mp hget
  have heval : (codePoly (share symbols ⟨t % 16, hj⟩)).eval ⟨UInt16.ofNat (t / 16)⟩ =
      symbols[t] := by
    rw [eval_codePoly hlen hlt, hval]
  unfold PolyDecoder.symbolAt
  simp only [polyNumPolys]
  cases hy : d.points[(⟨t % 16, hj⟩ : Fin 16)][UInt16.ofNat (t / 16)]? with
  | some y => exact (hd.stored _ _ _ hy).2.trans heval
  | none =>
    rw [lookup_map_mk _ _ (List.mem_finRange _), Option.getD_some, hd.needed, polyEval_eq,
      hd.interpolate _ hlen (hsize _), heval]

/-- Enough chunks give the message back. -/
theorem Collected.decodedMessage_some (hd : Collected symbols S d) (hmin : 16 ≤ symbols.length)
    (hmax : symbols.length ≤ 2 ^ 19) (h : (symbols.length + 15) / 16 ≤ S.card) :
    d.decodedMessage = .ok (some (symbols.flatMap symbolBytes)) := by
  have hlen : ∀ j : Fin 16, 0 < (share symbols j).length ∧ (share symbols j).length ≤ S.card := by
    intro j
    rw [share, Vector.get_eq_getElem, length_dealPoints]
    split <;> omega
  have hsize : ∀ j, (share symbols j).length ≤ d.points[j].size :=
    fun j => hd.size_ge j (hlen j).2
  have hgather := gatherPoints_full d (List.finRange 16) fun j _ => by
    rw [hd.needed]
    exact ⟨(hlen j).1, hsize j⟩
  have hsyms : (List.range symbols.length).map (d.symbolAt
      ((List.finRange 16).map fun i => (i, d.sortedPoints i (d.necessaryPoints i)))) = symbols := by
    apply List.ext_getElem
    · simp
    · intro t h1 h2
      rw [List.getElem_map, List.getElem_range, hd.symbolAt hmax hsize h2]
  unfold PolyDecoder.decodedMessage
  rw [if_neg (by simp [hd.incomplete]), hgather, hd.ptsNeeded]
  show Except.ok (some ((List.range symbols.length).flatMap fun t => symbolBytes (d.symbolAt _ t)))
    = _
  rw [← List.flatMap_map, hsyms]

end Decoder

/-! ## The whole exchange -/

/-- What happens between an encoder and a decoder: a chunk is made and added, or one of the two
is saved and restored. -/
inductive Transfer where
  | add (index : UInt16)
  | saveEncoder
  | saveDecoder
  deriving DecidableEq

def Transfer.apply (s : PolyEncoder × PolyDecoder) :
    Transfer → Except (Fault Err) (PolyEncoder × PolyDecoder)
  | add index => return (s.1, s.2.addChunk (s.1.chunkAt index))
  | saveEncoder => return (← decodePolyEncoder s.1.serialize, s.2)
  | saveDecoder => return (s.1, ← decodePolyDecoder s.2.serialize)

/-- A fresh encoder of the message and a fresh decoder of its length, after `ops`. -/
def transfer (msg : Bytes) (ops : List Transfer) :
    Except (Fault Err) (PolyEncoder × PolyDecoder) := do
  let enc ← (newPolyEncoder msg).mapError .err
  let dec ← (newPolyDecoder msg.length).mapError .err
  ops.foldlM Transfer.apply (enc, dec)

/-- The different indices among the added chunks. -/
def addedIndices (ops : List Transfer) : Finset UInt16 :=
  (ops.filterMap fun | .add index => some index | _ => none).toFinset

/-- The chunk of a valid encoder carries the values of the polynomials. -/
theorem symbol_chunkAt {e : PolyEncoder} (he : e.Valid) (i : UInt16) (j : Fin 16) :
    (e.chunkAt i).symbol j = (codePoly (share (symbolsOf e.msg) j)).eval ⟨i⟩ := by
  have hlen : e.points[j].length ≤ 2 ^ 16 := by
    have := he.length_le
    rw [he.points, Fin.getElem_fin, length_dealPoints, length_symbolsOf]
    split <;> omega
  rw [PolyEncoder.chunkAt, symbol_chunkData, pointAt_eq e j hlen, he.points]
  rfl

/-- What holds of the two objects after the chunks with the indices `S`. -/
structure Transferred (msg : Bytes) (S : Finset UInt16) (s : PolyEncoder × PolyDecoder) :
    Prop where
  valid : s.1.Valid
  carries : s.1.msg = msg
  collected : Collected (symbolsOf msg) S s.2

theorem Transferred.start {msg : Bytes} (h : msg.length % 2 = 0) (h' : msg.length ≤ 2 ^ 20) :
    ∃ enc dec, newPolyEncoder msg = .ok enc ∧ newPolyDecoder msg.length = .ok dec
      ∧ Transferred msg ∅ (enc, dec) := by
  refine ⟨_, _, newPolyEncoder_ok h h', if_neg (by simpa using h), ⟨h, h', rfl⟩, rfl, ?_⟩
  refine ⟨rfl, (length_symbolsOf msg).symm, ?_, fun j => .inr fun x hx => ?_⟩
  · intro j x y hy
    simp at hy
  · cases Finset.notMem_empty x hx

/-- A chunk that arrives, or a save of either end, keeps the transfer. -/
theorem Transferred.apply {msg : Bytes} {S : Finset UInt16} {s : PolyEncoder × PolyDecoder}
    (hs : Transferred msg S s) (op : Transfer) :
    ∃ s', op.apply s = .ok s' ∧ Transferred msg (S ∪ addedIndices [op]) s' := by
  cases op with
  | add index =>
    refine ⟨_, rfl, hs.valid, hs.carries, ?_⟩
    have hadd := hs.collected.addChunk (s.1.chunkAt index) fun j => by
      rw [symbol_chunkAt hs.valid, hs.carries]
      rfl
    rw [Finset.union_comm]
    exact hadd
  | saveEncoder =>
    refine ⟨s, ?_, ?_⟩
    · rw [Transfer.apply, decodePolyEncoder_serialize hs.valid]
      rfl
    · simpa [addedIndices] using hs
  | saveDecoder =>
    refine ⟨s, ?_, ?_⟩
    · have hneeded : s.2.ptsNeeded < 2 ^ 32 := by
        have := hs.valid.length_le
        rw [hs.collected.ptsNeeded, length_symbolsOf, ← hs.carries]
        omega
      rw [Transfer.apply, decodePolyDecoder_serialize hneeded]
      rfl
    · simpa [addedIndices] using hs

theorem addedIndices_cons (op : Transfer) (ops : List Transfer) :
    addedIndices (op :: ops) = addedIndices [op] ∪ addedIndices ops := by
  cases op <;> simp [addedIndices]

theorem Transferred.foldlM {msg : Bytes} {S : Finset UInt16} {s : PolyEncoder × PolyDecoder}
    (hs : Transferred msg S s) (ops : List Transfer) :
    ∃ s', ops.foldlM Transfer.apply s = .ok s' ∧ Transferred msg (S ∪ addedIndices ops) s' := by
  induction ops generalizing s S with
  | nil => exact ⟨s, rfl, by simpa [addedIndices] using hs⟩
  | cons op ops ih =>
    obtain ⟨s1, h1, hs1⟩ := hs.apply op
    obtain ⟨s2, h2, hs2⟩ := ih hs1
    refine ⟨s2, ?_, ?_⟩
    · rw [List.foldlM_cons, h1, ok_bind, h2]
    · rw [addedIndices_cons, ← Finset.union_assoc]
      exact hs2

/-- **The erasure code.** Whatever chunks were added, in whatever order, and wherever the two
objects were saved and restored: below `⌈len / 32⌉` different indices the decoder yields
nothing, and from there on exactly the message. -/
theorem erasure_code_correct (msg : Bytes) (heven : msg.length % 2 = 0)
    (hmin : 32 ≤ msg.length) (hmax : msg.length ≤ 2 ^ 20) (ops : List Transfer) :
    ∃ enc dec, transfer msg ops = .ok (enc, dec) ∧
      dec.decodedMessage
        = .ok (if (addedIndices ops).card < (msg.length + 31) / 32 then none else some msg) := by
  obtain ⟨enc₀, dec₀, henc, hdec, hstart⟩ := Transferred.start heven hmax
  obtain ⟨⟨enc, dec⟩, hops, hs⟩ := hstart.foldlM ops
  have hlen := length_symbolsOf msg
  refine ⟨enc, dec, ?_, ?_⟩
  · rw [transfer, henc, hdec]
    exact hops
  · have hcollected := hs.collected
    rw [Finset.empty_union] at hcollected
    split
    · exact hcollected.decodedMessage_none (by omega)
    · rw [hcollected.decodedMessage_some (by omega) (by omega) (by omega),
        flatMap_symbolsOf msg heven]

/-- Two chunks beyond the message's own restore a message of 64 bytes. -/
theorem erasure_code_correct_sample :
    ∃ enc dec, transfer (List.replicate 64 7) [.add 9, .saveDecoder, .add 9, .saveEncoder, .add 5]
        = .ok (enc, dec) ∧ dec.decodedMessage = .ok (some (List.replicate 64 7)) := by
  have h := erasure_code_correct (List.replicate 64 7) (by simp) (by simp) (by simp)
    [.add 9, .saveDecoder, .add 9, .saveEncoder, .add 5]
  rwa [if_neg (by rw [List.length_replicate]; decide)] at h

end SignalGo.Spqr
