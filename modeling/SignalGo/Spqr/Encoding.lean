import SignalGo.Errors
import SignalGo.Lib.Decoder
import SignalGo.Spqr.Polynomial

/-!
# The erasure code: encoder and decoder

A message is read as 16-bit symbols, dealt in turn to 16 polynomials: symbol number `t` is the
value of polynomial `t % 16` at the place `t / 16`. Chunk number `i` carries the values of the 16
polynomials at the place `i`.

The encoder of the source also keeps the interpolated polynomials once they are computed
(`polys`); they are a function of `points` and are left out here.
-/

namespace SignalGo.Spqr

open Std (ExtTreeMap)
open Decoder

/-! ## Chunks -/

def polyNumPolys : Nat := 16

def polyChunkDataSize : Nat := 32

structure Chunk where
  index : UInt16
  data : ByteArr polyChunkDataSize
  deriving DecidableEq

/-- The two bytes of a symbol, high byte first. -/
def symbolBytes (v : GF16) : Bytes := [(v.val >>> 8).toUInt8, v.val.toUInt8]

/-- The symbol of two bytes. -/
def symbolOf (hi lo : UInt8) : GF16 := ⟨hi.toUInt16 <<< 8 ||| lo.toUInt16⟩

/-- The bytes read as symbols, in pairs. -/
def symbolsOf : Bytes → List GF16
  | hi :: lo :: rest => symbolOf hi lo :: symbolsOf rest
  | _ => []

/-! ## The encoder -/

structure PolyEncoder where
  idx : UInt32
  msg : Bytes
  points : Vector (List GF16) 16
  deriving DecidableEq

/-- The loop of `newPolyEncoder`: symbol `t` goes to the end of the list `t % 16`. -/
def dealPoints (symbols : List GF16) : Vector (List GF16) 16 :=
  symbols.zipIdx.foldl (fun pts vt => pts.set (vt.2 % 16) (pts[vt.2 % 16] ++ [vt.1]))
    (Vector.replicate 16 [])

def errPolyMessageLengthEven : Err := .new "spqr: polynomial message length must be even"

def errPolyMessageTooLong : Err := .new "spqr: polynomial message length too long"

def newPolyEncoder (msg : Bytes) : Except Err PolyEncoder :=
  if msg.length % 2 ≠ 0 then .error errPolyMessageLengthEven
  else if msg.length > 2 ^ 16 * polyNumPolys then .error errPolyMessageTooLong
  else .ok { idx := 0, msg, points := dealPoints (symbolsOf msg) }

/-- The points `(0, y0), (1, y1), …` of one polynomial. -/
def indexedPoints (ys : List GF16) : List Point :=
  ys.zipIdx.map fun yj => { x := ⟨UInt16.ofNat yj.2⟩, y := yj.1 }

/-- `pointAt`: a symbol of the message, or the value of the interpolated polynomial. -/
def PolyEncoder.pointAt (e : PolyEncoder) (polyIdx : Fin 16) (idx : Nat) : GF16 :=
  match e.points[polyIdx][idx]? with
  | some y => y
  | none =>
      polyEval (lagrangeInterpolate (indexedPoints e.points[polyIdx])) ⟨UInt16.ofNat idx⟩

/-- The data of a chunk from its 16 symbols. -/
def chunkData (symbol : Fin 16 → GF16) : ByteArr polyChunkDataSize :=
  ⟨(List.finRange 16).flatMap fun i => symbolBytes (symbol i), by
    simp [symbolBytes, polyChunkDataSize]⟩

/-- `chunkAt`. The symbol number `idx * 16 + i` belongs to polynomial `i` at the place `idx`. -/
def PolyEncoder.chunkAt (e : PolyEncoder) (idx : UInt16) : Chunk where
  index := idx
  data := chunkData fun i => e.pointAt i idx.toNat

def PolyEncoder.nextChunk (e : PolyEncoder) : PolyEncoder × Chunk :=
  ({ e with idx := e.idx + 1 }, e.chunkAt e.idx.toUInt16)

def PolyEncoder.serialize (e : PolyEncoder) : Bytes :=
  putUint32 e.idx ++ putUint32 (UInt32.ofNat e.msg.length) ++ e.msg

def errStateDecode : Err := .sentinel .spqrStateDecode

/-- The index, and the message behind its length. -/
def readPolyEncoder : Decoder Err PolyEncoder := do
  need 8 errStateDecode
  let idx ← u32
  let msgLen ← u32
  need msgLen.toNat errStateDecode
  let msg ← bytes msgLen.toNat
  let enc ← lift ((newPolyEncoder msg).mapError .err)
  return { enc with idx }

/-- `decodePolyEncoder` does not look at what stands behind the message. -/
def decodePolyEncoder (data : Bytes) : Except (Fault Err) PolyEncoder := do
  let enc ← readPolyEncoder data 0
  return enc.1

/-! ## The decoder -/

/-- The points of one polynomial by their places, `map[uint16]gf16`. -/
abbrev PointMap := ExtTreeMap UInt16 GF16

structure PolyDecoder where
  ptsNeeded : Nat
  points : Vector PointMap 16
  isComplete : Bool

def newPolyDecoder (lenBytes : Nat) : Except Err PolyDecoder :=
  if lenBytes % 2 ≠ 0 then .error errPolyMessageLengthEven
  else .ok { ptsNeeded := lenBytes / 2, points := Vector.replicate 16 ∅, isComplete := false }

def PolyDecoder.necessaryPoints (d : PolyDecoder) (poly : Fin 16) : Nat :=
  let pointsPerPoly := d.ptsNeeded / polyNumPolys
  let pointsRemaining := d.ptsNeeded % polyNumPolys
  if poly < pointsRemaining then pointsPerPoly + 1 else pointsPerPoly

/-- The symbol number `i` of a chunk. -/
def Chunk.symbol (c : Chunk) (i : Fin 16) : GF16 :=
  symbolOf (c.data.toBytes.getD (i * 2) 0) (c.data.toBytes.getD (i * 2 + 1) 0)

/-- One polynomial's part of `addChunk`: a point is kept when its place is one of the message's
own, or while points are missing; the first value for a place stays. -/
def keepPoint (needed : Nat) (pts : PointMap) (x : UInt16) (y : GF16) :
    PointMap :=
  if x.toNat < needed ∨ pts.size < needed then pts.insertIfNew x y else pts

/-- `addChunk`. The symbol number `index * 16 + i` belongs to polynomial `i` at the place
`index`. -/
@[irreducible] def PolyDecoder.addChunk (d : PolyDecoder) (c : Chunk) : PolyDecoder :=
  { d with
    points := Vector.ofFn fun i =>
      keepPoint (d.necessaryPoints i) d.points[i] c.index (c.symbol i) }

/-- `sortedPoints`: the first points in the order of their places. -/
def PolyDecoder.sortedPoints (d : PolyDecoder) (polyIdx : Fin 16) (needed : Nat) : List Point :=
  (d.points[polyIdx].toList.take needed).map fun xy => { x := ⟨xy.1⟩, y := xy.2 }

/-- The first loop of `decodedMessage`: `none` when points are missing. -/
def PolyDecoder.gatherPoints (d : PolyDecoder) :
    List (Fin 16) → Except Err (Option (List (Fin 16 × List Point)))
  | [] => .ok (some [])
  | i :: is => do
      let needed := d.necessaryPoints i
      if d.points[i].size < needed then return none
      else
        let pts := d.sortedPoints i needed
        if pts.length = 0 then .error (.new "spqr: polynomial decode missing points")
        else
          match ← d.gatherPoints is with
          | none => return none
          | some vecs => return some ((i, pts) :: vecs)

/-- The symbol number `t` of the message: a stored point, or the value of the polynomial through
the gathered points. -/
def PolyDecoder.symbolAt (d : PolyDecoder) (pointsVecs : List (Fin 16 × List Point)) (t : Nat) :
    GF16 :=
  let poly : Fin 16 := ⟨t % 16, Nat.mod_lt _ (by decide)⟩
  let x := UInt16.ofNat (t / polyNumPolys)
  match d.points[poly][x]? with
  | some y => y
  | none => polyEval (lagrangeInterpolate ((pointsVecs.lookup poly).getD [])) ⟨x⟩

/-- `decodedMessage`; `none` stands for a nil message without an error. -/
def PolyDecoder.decodedMessage (d : PolyDecoder) : Except Err (Option Bytes) :=
  if d.isComplete then .ok none
  else do
    match ← d.gatherPoints (List.finRange 16) with
    | none => return none
    | some pointsVecs =>
        return some ((List.range d.ptsNeeded).flatMap fun t =>
          symbolBytes (d.symbolAt pointsVecs t))

/-! ## Serialization of the decoder -/

/-- The bytes of one point. -/
def pointBytes (xy : UInt16 × GF16) : Bytes := putUint16 xy.1 ++ putUint16 xy.2.val

/-- The points of one polynomial, in the order of their places. -/
def serializePoints (pts : PointMap) : Bytes :=
  putUint32 (UInt32.ofNat pts.size) ++ pts.toList.flatMap pointBytes

def PolyDecoder.serialize (d : PolyDecoder) : Bytes :=
  putUint32 (UInt32.ofNat d.ptsNeeded) ++ [if d.isComplete then (1 : UInt8) else 0]
    ++ (List.finRange 16).flatMap fun i => serializePoints d.points[i]

/-- One pass of the loop over the points of a polynomial. -/
def decodePoint : Decoder Err (UInt16 × GF16) := do
  need 4 errStateDecode
  let x ← u16
  let y ← u16
  return (x, ⟨y⟩)

/-- The points of one polynomial. A place that comes twice keeps its last point, as the map of the
source does. -/
def decodePoints : Decoder Err PointMap := do
  need 4 errStateDecode
  let count ← u32
  let points ← many decodePoint count.toNat
  return points.foldl (fun pts xy => pts.insert xy.1 xy.2) ∅

def readPolyDecoder : Decoder Err PolyDecoder := do
  need 5 errStateDecode
  let ptsNeeded ← u32
  let isComplete ← u8
  let polys ← many decodePoints polyNumPolys
  return {
    ptsNeeded := ptsNeeded.toNat
    points := Vector.ofFn fun i => polys.getD i ∅
    isComplete := isComplete == 1 }

def decodePolyDecoder (data : Bytes) : Except (Fault Err) PolyDecoder :=
  readPolyDecoder.run errStateDecode data

end SignalGo.Spqr
