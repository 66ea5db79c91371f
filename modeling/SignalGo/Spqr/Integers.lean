import SignalGo.Lib.Protowire
import SignalGo.Spqr.Message

/-!
# SPQR messages: the integers that are written and those that are read

A message writes its epoch, its key number and the index of its chunk in base 128. The decoder
collects them by shifts on 64 bits and cuts the last two to 32 and 16 bits, without a check that
nothing is lost.

* `consumeVarint_eq_mod`: what is read is what is written, modulo `2 ^ 64`.
* `writtenIntegers`: the integers as they are written.
* `v1Message_integers`: the integers of an accepted message are those that are written exactly
  when these fit.
-/

namespace SignalGo.Spqr

/-! ## One integer -/

/-- Bits above those that were read; what does not fit 64 bits is gone. -/
theorem toNat_or_shiftLeft64_mod {x y : UInt64} {s : Nat} (hx : x.toNat < 2 ^ s) :
    (x ||| shiftLeft64 y s).toNat = (x.toNat + y.toNat * 2 ^ s) % 2 ^ 64 := by
  have hx64 := x.toNat_lt
  unfold shiftLeft64
  split
  case isTrue hs =>
    have hpow : 2 ^ 64 = 2 ^ s * 2 ^ (64 - s) := by rw [← Nat.pow_add]; congr 1; omega
    have hshift : (y <<< UInt64.ofNat s).toNat = 2 ^ s * (y.toNat % 2 ^ (64 - s)) := by
      rw [UInt64.toNat_shiftLeft, UInt64.toNat_ofNat', Nat.mod_eq_of_lt (by omega : s < 2 ^ 64),
        Nat.mod_eq_of_lt hs, Nat.shiftLeft_eq, mul_comm, hpow, Nat.mul_mod_mul_left]
    -- the bits do not overlap, so that the disjunction is a sum
    have hor : (x ||| y <<< UInt64.ofNat s).toNat = 2 ^ s * (y.toNat % 2 ^ (64 - s)) + x.toNat := by
      rw [UInt64.toNat_or, hshift, Nat.or_comm, ← Nat.two_pow_add_eq_or_of_lt hx]
    have hlt := (x ||| y <<< UInt64.ofNat s).toNat_lt
    have hdm := Nat.div_add_mod y.toNat (2 ^ (64 - s))
    have hsplit : x.toNat + y.toNat * 2 ^ s =
        (2 ^ s * (y.toNat % 2 ^ (64 - s)) + x.toNat) + 2 ^ 64 * (y.toNat / 2 ^ (64 - s)) := by
      rw [hpow]
      nth_rewrite 1 [← hdm]
      ring
    rw [hor] at hlt ⊢
    rw [hsplit, Nat.add_mul_mod_self_left, Nat.mod_eq_of_lt hlt]
  case isFalse hs =>
    have hpow : 2 ^ s = 2 ^ 64 * 2 ^ (s - 64) := by rw [← Nat.pow_add]; congr 1; omega
    rw [hpow, mul_left_comm, Nat.add_mul_mod_self_left, Nat.mod_eq_of_lt hx64]
    simp

/-- The low seven bits of a byte that continues. -/
theorem toNat_and_low7 {b : UInt8} (h : ¬ b.toNat < 128) :
    (b &&& 0x7f).toUInt64.toNat = b.toNat - 128 := by
  have := b.toNat_lt
  rw [UInt8.toNat_toUInt64, UInt8.toNat_and, show UInt8.toNat 0x7f = 2 ^ 7 - 1 from rfl,
    Nat.and_two_pow_sub_one_eq_mod]
  omega

/-- The loop adds the rest of the number above the bits it has. -/
theorem consumeVarintLoop_eq_mod {data : Bytes} {fuel idx s pos : Nat} {x r : UInt64}
    (hx : x.toNat < 2 ^ s) (h : consumeVarintLoop data fuel idx x s = .ok (r, pos)) :
    ∃ v n, readVarint (data.drop idx) = some (v, n) ∧ pos = idx + n ∧
      r.toNat = (x.toNat + v * 2 ^ s) % 2 ^ 64 := by
  induction fuel generalizing idx x s with
  | zero => cases h
  | succ fuel ih =>
    rw [consumeVarintLoop] at h
    cases hb : data[idx]? with
    | none =>
      rw [hb] at h
      cases h
    | some b =>
      have hdrop : data.drop idx = b :: data.drop (idx + 1) := by
        obtain ⟨hlt, rfl⟩ := List.getElem?_eq_some_iff.mp hb
        exact List.drop_eq_getElem_cons hlt
      rw [hdrop, readVarint]
      simp only [hb] at h
      have hiff : b < 0x80 ↔ b.toNat < 128 := UInt8.lt_iff_toNat_lt
      by_cases hlast : b.toNat < 128
      · rw [if_pos (hiff.mpr hlast)] at h
        split at h
        · cases h
        · cases h
          refine ⟨b.toNat, 1, by rw [if_pos hlast], rfl, ?_⟩
          rw [toNat_or_shiftLeft64_mod hx, UInt8.toNat_toUInt64]
      · rw [if_neg (mt hiff.mp hlast)] at h
        have hbits := toNat_or_shiftLeft64_mod (y := (b &&& 0x7f).toUInt64) hx
        rw [toNat_and_low7 hlast] at hbits
        have hpow : 2 ^ (s + 7) = 128 * 2 ^ s := by ring
        have hbound : (x ||| shiftLeft64 (b &&& 0x7f).toUInt64 s).toNat < 2 ^ (s + 7) := by
          have hmul : (b.toNat - 128) * 2 ^ s ≤ 127 * 2 ^ s :=
            Nat.mul_le_mul_right _ (by have := b.toNat_lt; omega)
          rw [hbits]
          exact lt_of_le_of_lt (Nat.mod_le _ _) (by omega)
        obtain ⟨v, n, hread, rfl, hr⟩ := ih hbound h
        refine ⟨b.toNat - 128 + 128 * v, n + 1, by rw [if_neg hlast, hread], by omega, ?_⟩
        have hsum : x.toNat + (b.toNat - 128 + 128 * v) * 2 ^ s =
            x.toNat + (b.toNat - 128) * 2 ^ s + v * 2 ^ (s + 7) := by
          rw [hpow]
          ring
        rw [hr, hbits, Nat.mod_add_mod, hsum]

/-- **What is read is what is written**, up to multiples of `2 ^ 64`. -/
theorem consumeVarint_eq_mod {data : Bytes} {idx pos : Nat} {x : UInt64}
    (h : consumeVarint data idx = .ok (x, pos)) :
    ∃ v n, readVarint (data.drop idx) = some (v, n) ∧ pos = idx + n ∧ x.toNat = v % 2 ^ 64 := by
  obtain ⟨v, n, hread, hpos, hx⟩ := consumeVarintLoop_eq_mod (x := 0) (by decide) h
  exact ⟨v, n, hread, hpos, by simpa using hx⟩

/-! ## The integers of a message -/

structure Written where
  epoch : Nat
  index : Nat
  chunkIndex : Option Nat
  deriving DecidableEq

/-- The three integers in the order of the message; a message without a chunk has two. -/
def writtenIntegers (data : Bytes) : Option Written := do
  let (epoch, n) ← readVarint (data.drop 1)
  let (index, n') ← readVarint (data.drop (1 + n))
  let kind ← data[1 + n + n']?
  if hasChunk kind then do
    let (chunkIndex, _) ← readVarint (data.drop (1 + n + n' + 1))
    return { epoch, index, chunkIndex := some chunkIndex }
  else return { epoch, index, chunkIndex := none }

/-- The integers fit the fields they are read into. -/
structure Written.Fits (wr : Written) : Prop where
  epoch : wr.epoch < 2 ^ 64
  index : wr.index < 2 ^ 32
  chunkIndex : ∀ c, wr.chunkIndex = some c → c < 2 ^ 16

/-- The decoded message has the integers that were written. -/
structure Written.Matches (wr : Written) (m : V1Message) (index : UInt32) : Prop where
  epoch : m.epoch.toNat = wr.epoch
  index : index.toNat = wr.index
  chunkIndex : (m.payload.chunk.map fun c => c.index.toNat) = wr.chunkIndex

/-- The integers of the message, cut to the sizes of their fields. -/
theorem writtenIntegers_of_deserialize {data : Bytes} {m : V1Message} {index : UInt32} {pos : Nat}
    (h : deserializeV1Message data = .ok (m, index, pos)) :
    ∃ wr, writtenIntegers data = some wr ∧ m.epoch.toNat = wr.epoch % 2 ^ 64 ∧
      index.toNat = wr.index % 2 ^ 32 ∧
      (m.payload.chunk.map fun c => c.index.toNat) = wr.chunkIndex.map (· % 2 ^ 16) := by
  unfold deserializeV1Message at h
  split at h
  case isTrue => cases h
  obtain ⟨⟨epoch, p1⟩, hepoch, h⟩ := bind_eq_ok.mp h
  obtain ⟨⟨index', p2⟩, hindex, h⟩ := bind_eq_ok.mp h
  obtain ⟨ve, n, hve, rfl, hmod⟩ := consumeVarint_eq_mod (mapError_eq_ok.mp hepoch)
  obtain ⟨vi, n', hvi, rfl, hmod'⟩ := consumeVarint_eq_mod (mapError_eq_ok.mp hindex)
  simp only at h
  split at h
  case isTrue => cases h
  obtain ⟨kind, hkind, h⟩ := bind_eq_ok.mp h
  obtain ⟨⟨payload, p3⟩, hpayload, h⟩ := bind_eq_ok.mp h
  cases h
  have hkind' : data[1 + n + n']? = some kind := getElem?_of_byteAt hkind
  -- the conversion of the index drops its upper half
  have hcut : index'.toUInt32.toNat = vi % 2 ^ 32 := by
    rw [UInt64.toNat_toUInt32, hmod']
    omega
  unfold deserializePayload at hpayload
  cases hchunk : hasChunk kind with
  | false =>
    rw [hchunk] at hpayload
    cases hpayload
    refine ⟨⟨ve, vi, none⟩, ?_, hmod, hcut, rfl⟩
    simp only [writtenIntegers, hve, hvi, hkind', hchunk, Option.bind_eq_bind, Option.bind_some]
    rfl
  | true =>
    rw [hchunk, if_pos rfl] at hpayload
    obtain ⟨⟨c, p4⟩, hread, hpayload⟩ := bind_eq_ok.mp hpayload
    cases hpayload
    obtain ⟨⟨ci, p5⟩, hci, hread⟩ := bind_eq_ok.mp hread
    obtain ⟨vc, n'', hvc, rfl, hmod''⟩ := consumeVarint_eq_mod (mapError_eq_ok.mp hci)
    simp only at hread
    split at hread
    case isTrue => cases hread
    obtain ⟨bytes, -, hread⟩ := bind_eq_ok.mp hread
    cases hread
    refine ⟨⟨ve, vi, some vc⟩, ?_, hmod, hcut, ?_⟩
    · simp only [writtenIntegers, hve, hvi, hkind', hchunk, hvc, Option.bind_eq_bind,
        Option.bind_some]
      rfl
    · simp only [Option.map_some, Option.some.injEq, UInt64.toNat_toUInt16, hmod'']
      omega

/-- The integers of an accepted message are those written in its bytes exactly when the epoch is
below `2 ^ 64`, the key number below `2 ^ 32` and the index of the chunk below `2 ^ 16`. -/
theorem v1Message_integers (data : Bytes) (m : V1Message) (index : UInt32) (pos : Nat)
    (h : deserializeV1Message data = .ok (m, index, pos)) :
    ∃ wr, writtenIntegers data = some wr ∧ (wr.Matches m index ↔ wr.Fits) := by
  obtain ⟨wr, hwr, hepoch, hindex, hchunk⟩ := writtenIntegers_of_deserialize h
  refine ⟨wr, hwr, fun hm => ⟨?_, ?_, ?_⟩, fun hf => ⟨?_, ?_, ?_⟩⟩
  · rw [← hm.epoch]
    exact m.epoch.toNat_lt
  · rw [← hm.index]
    exact index.toNat_lt
  · intro c hc
    rw [← hm.chunkIndex] at hc
    obtain ⟨chunk, -, rfl⟩ := Option.map_eq_some_iff.mp hc
    exact chunk.index.toNat_lt
  · rw [hepoch, Nat.mod_eq_of_lt hf.epoch]
  · rw [hindex, Nat.mod_eq_of_lt hf.index]
  · rw [hchunk]
    cases hc : wr.chunkIndex with
    | none => rfl
    | some c => rw [Option.map_some, Nat.mod_eq_of_lt (hf.chunkIndex c hc)]

/-- A message without a chunk, in epoch 300 under key number 5. -/
theorem v1Message_integers_small :
    deserializeV1Message [1, 0xac, 0x02, 5, 0] = .ok (⟨300, ⟨0, none⟩⟩, 5, 5) ∧
    ∃ wr, writtenIntegers [1, 0xac, 0x02, 5, 0] = some wr ∧
    (wr.Matches ⟨300, ⟨0, none⟩⟩ 5 ↔ wr.Fits) :=
  ⟨rfl, v1Message_integers [1, 0xac, 0x02, 5, 0] ⟨300, ⟨0, none⟩⟩ 5 5 rfl⟩

/-- The epoch `2 ^ 64`, whose only bit is cut off in the tenth byte, is read as zero; so are the
key number `2 ^ 32` and the chunk index `2 ^ 16`. -/
theorem v1Message_integers_aliased :
    (deserializeV1Message [1, 0x80, 0x80, 0x80, 0x80, 0x80, 0x80, 0x80, 0x80, 0x80, 2, 0, 0] =
        .ok (⟨0, ⟨0, none⟩⟩, 0, 13) ∧
      writtenIntegers [1, 0x80, 0x80, 0x80, 0x80, 0x80, 0x80, 0x80, 0x80, 0x80, 2, 0, 0] =
        some ⟨2 ^ 64, 0, none⟩) ∧
    (deserializeV1Message [1, 0, 0x80, 0x80, 0x80, 0x80, 0x10, 0] =
        .ok (⟨0, ⟨0, none⟩⟩, 0, 8) ∧
      writtenIntegers [1, 0, 0x80, 0x80, 0x80, 0x80, 0x10, 0] = some ⟨0, 2 ^ 32, none⟩) ∧
    deserializeV1Message ([1, 0, 0, 1, 0x80, 0x80, 4] ++ List.replicate 32 0) =
        .ok (⟨0, ⟨1, some ⟨0, .zero⟩⟩⟩, 0, 39) ∧
      writtenIntegers ([1, 0, 0, 1, 0x80, 0x80, 4] ++ List.replicate 32 0) =
        some ⟨0, 0, some (2 ^ 16)⟩ := by
  refine ⟨⟨rfl, by decide⟩, ⟨rfl, by decide⟩, rfl, by decide⟩

end SignalGo.Spqr
