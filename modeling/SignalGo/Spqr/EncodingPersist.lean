import SignalGo.Lib.Maps
import SignalGo.Spqr.Encoding

/-!
# Saving and restoring the erasure code

The encoder and the decoder are stored inside the session state while a message is on its way in
pieces. Both come back from their bytes as they were, and reading foreign bytes ends in a value
or an error.
-/

namespace SignalGo.Spqr

open Std (ExtTreeMap)

/-! ## The encoder -/

/-- An encoder as `newPolyEncoder` builds it, at any index. -/
structure PolyEncoder.Valid (e : PolyEncoder) : Prop where
  even : e.msg.length % 2 = 0
  length_le : e.msg.length ≤ 2 ^ 20
  points : e.points = dealPoints (symbolsOf e.msg)

theorem newPolyEncoder_ok {msg : Bytes} (h : msg.length % 2 = 0) (h' : msg.length ≤ 2 ^ 20) :
    newPolyEncoder msg = .ok { idx := 0, msg, points := dealPoints (symbolsOf msg) } := by
  rw [newPolyEncoder, if_neg (by simpa using h), if_neg (by simp only [polyNumPolys]; omega)]

theorem newPolyEncoder_valid {msg : Bytes} {e : PolyEncoder} (h : newPolyEncoder msg = .ok e) :
    e.Valid ∧ e.idx = 0 ∧ e.msg = msg := by
  unfold newPolyEncoder at h
  split at h
  · cases h
  · split at h
    · cases h
    · rename_i hodd hlong
      cases h
      simp only [polyNumPolys] at hlong
      exact ⟨⟨by simpa using hodd, by simpa using hlong, rfl⟩, rfl, rfl⟩

theorem toNat_ofNat_lt {n : Nat} (h : n < 2 ^ 32) : (UInt32.ofNat n).toNat = n := by
  rw [UInt32.toNat_ofNat']
  exact Nat.mod_eq_of_lt h

/-- The points of an encoder are not stored: they are dealt out again from its message. -/
theorem decodable_polyEncoder {e : PolyEncoder} (h : e.Valid) :
    Decodable readPolyEncoder e.serialize e := by
  have hlen : (UInt32.ofNat e.msg.length).toNat = e.msg.length :=
    toNat_ofNat_lt (h.length_le.trans_lt (by decide))
  have hnew := newPolyEncoder_ok h.even h.length_le
  rw [← h.points] at hnew
  rw [PolyEncoder.serialize, List.append_assoc]
  refine .need (by simp; omega) (.bind (.u32 e.idx) (.bind (.u32 _) ?_))
  rw [hlen]
  exact .need le_rfl ((Decodable.bytes rfl).last (.lift_bind (mapError_eq_ok.mpr hnew) (.pure e)))

theorem decodePolyEncoder_serialize {e : PolyEncoder} (h : e.Valid) :
    decodePolyEncoder e.serialize = .ok e := by
  have hread := decodable_polyEncoder h [] []
  rw [List.nil_append, List.append_nil, List.length_nil] at hread
  rw [decodePolyEncoder, hread]
  rfl

/-! ## The decoder -/

/-- A map has no more points than there are arguments. -/
theorem size_le_of_uint16 (pts : PointMap) : pts.size ≤ 65536 := by
  rw [← size_eq_card]
  refine (Finset.card_le_card_of_injOn (t := Finset.range 65536) UInt16.toNat ?_ ?_).trans_eq
    (Finset.card_range _)
  · intro x _
    exact Finset.mem_coe.mpr (Finset.mem_range.mpr x.toNat_lt)
  · intro x _ y _ h
    exact UInt16.toNat_inj.mp h

theorem decodable_point (xy : UInt16 × GF16) : Decodable decodePoint (pointBytes xy) xy :=
  .need (by simp [pointBytes]) ((Decodable.u16 xy.1).bind
    ((Decodable.u16 xy.2.val).ret fun y => (xy.1, (⟨y⟩ : GF16))))

/-- The points of one polynomial, in ascending order. -/
theorem decodable_points (pts : PointMap) : Decodable decodePoints (serializePoints pts) pts := by
  have hsize : (UInt32.ofNat pts.size).toNat = pts.toList.length := by
    rw [ExtTreeMap.length_toList]
    exact toNat_ofNat_lt ((size_le_of_uint16 pts).trans_lt (by decide))
  have hpoints := Decodable.many fun xy (_ : xy ∈ pts.toList) => decodable_point xy
  refine .need (by simp [serializePoints]) (.bind (.u32 _) ?_)
  rw [hsize]
  -- inserting the entries of a map one after the other restores it
  refine hpoints.last ?_
  rw [List.map_id', foldl_insert_toList]
  exact .pure pts

/-- A decoder comes back with its points and its flag. -/
theorem decodable_polyDecoder {d : PolyDecoder} (h : d.ptsNeeded < 2 ^ 32) :
    Decodable readPolyDecoder d.serialize d := by
  have hpts : ((List.finRange 16).flatMap fun i => serializePoints d.points[i])
      = d.points.toList.flatMap serializePoints := by
    rw [← List.flatMap_map (fun i : Fin 16 => d.points[i]) serializePoints]
    congr 1
    apply List.ext_getElem <;> simp
  have hpolys := Decodable.many fun pts (_ : pts ∈ d.points.toList) => decodable_points pts
  rw [Vector.length_toList, List.map_id'] at hpolys
  rw [PolyDecoder.serialize, hpts, List.append_assoc]
  refine .need (by simp; omega) (.bind (.u32 _) (.bind (.u8 _) (hpolys.last ?_)))
  rw [toNat_ofNat_lt h]
  convert Decodable.pure d using 2
  cases d with
  | mk ptsNeeded points isComplete =>
    congr 1
    · ext i
      simp
    · cases isComplete <;> rfl

theorem decodePolyDecoder_serialize {d : PolyDecoder} (h : d.ptsNeeded < 2 ^ 32) :
    decodePolyDecoder d.serialize = .ok d :=
  (decodable_polyDecoder h).run _

/-! ## Foreign bytes -/

theorem bounded_polyEncoder : Bounded 0 readPolyEncoder 0 := by
  refine .bind (.need _ _) fun _ => .bind (.u32 (k := 4)) fun idx => ?_
  refine .bind (.u32 (k := 0)) fun msgLen => .bind (.need _ _) fun _ => ?_
  refine .bind (.bytes (k := 0) _) fun msg => .bind (.lift ?_) fun _ => .pure _
  cases newPolyEncoder msg with
  | error e => exact .err e
  | ok enc => exact .ok enc

theorem noPanic_decodePolyEncoder (data : Bytes) : NoPanic (decodePolyEncoder data) :=
  .bind (bounded_polyEncoder data 0 (Nat.zero_le _)).1 fun _ _ => .ok _

theorem bounded_points : Bounded 0 decodePoints 0 := by
  have hpoint : Bounded 0 decodePoint 0 :=
    (Bounded.need _ _).bind fun _ => .bind (.u16 (k := 2)) fun _ =>
      .bind (.u16 (k := 0)) fun _ => .pure _
  exact .bind (.need _ _) fun _ => .bind (.u32 (k := 0)) fun count =>
    (hpoint.many _).bind fun _ => .pure _

theorem noPanic_decodePolyDecoder (data : Bytes) : NoPanic (decodePolyDecoder data) := by
  have hread : Bounded 0 readPolyDecoder 0 :=
    (Bounded.need _ _).bind fun _ => .bind (.u32 (k := 1)) fun _ =>
      .bind (.u8 (k := 0)) fun _ => (bounded_points.many _).bind fun _ => .pure _
  exact hread.run _ (Nat.zero_le _)

end SignalGo.Spqr
