import RemoteAgent.Gzip.Huffman

/-!
# Inflating

Compressed data is a sequence of blocks: stored bytes, or literals and copies of what came before,
written in a fixed code or in one that the block brings with it. A copy that reaches back beyond the
start finds zeros there.
-/

namespace RemoteAgent.Gzip

/-- Why inflating stopped before the end. -/
inductive InflateStop where
  /-- The data is no compressed data. -/
  | damaged
  /-- The data ended early. -/
  | cutShort
  deriving DecidableEq, Repr

/-- Inflating in progress: what is left to read, and what has come out. -/
structure Inflating where
  reader : BitReader
  output : ByteArray

namespace Inflating

/-- A step: the state after it, and whether inflating stopped there. -/
abbrev Step := Inflating × Option InflateStop

/-- The base of a length or distance and the number of bits added to it. -/
abbrev Range := Nat × Nat

def lengthRanges : Array Range := #[
  (3, 0), (4, 0), (5, 0), (6, 0), (7, 0), (8, 0), (9, 0), (10, 0), (11, 1), (13, 1), (15, 1),
  (17, 1), (19, 2), (23, 2), (27, 2), (31, 2), (35, 3), (43, 3), (51, 3), (59, 3), (67, 4),
  (83, 4), (99, 4), (115, 4), (131, 5), (163, 5), (195, 5), (227, 5), (258, 0)]

def distanceRanges : Array Range := #[
  (1, 0), (2, 0), (3, 0), (4, 0), (5, 1), (7, 1), (9, 2), (13, 2), (17, 3), (25, 3), (33, 4),
  (49, 4), (65, 5), (97, 5), (129, 6), (193, 6), (257, 7), (385, 7), (513, 8), (769, 8),
  (1025, 9), (1537, 9), (2049, 10), (3073, 10), (4097, 11), (6145, 11), (8193, 12), (12289, 12),
  (16385, 13), (24577, 13)]

/-- Appends `n` bytes, each the one that stands `distance` bytes before it. -/
def copyBack (distance : Nat) : Nat → ByteArray → ByteArray
  | 0, out => out
  | n + 1, out =>
    let b : UInt8 :=
      if h : distance ≤ out.size ∧ out.size - distance < out.size then out[out.size - distance]
      else 0
    copyBack distance n (out.push b)

/-- A number in a range, its bits read from the input. -/
def inRange (range : Range) (r : BitReader) : Option (Nat × BitReader) :=
  (r.bits? range.2).map fun (n, r) => (range.1 + n, r)

/-- Copies after the symbol of a length. -/
def copy (distances : Huffman) (lengthSymbol : Nat) (s : Inflating) : Step :=
  match lengthRanges[lengthSymbol]? with
  | none => (s, some .damaged)
  | some range =>
    match inRange range s.reader with
    | none => (s, some .cutShort)
    | some (length, r) =>
      match distances.read r with
      | .noWord => (s, some .damaged)
      | .cutShort => (s, some .cutShort)
      | .symbol d r =>
        match distanceRanges[d]? with
        | none => (s, some .damaged)
        | some range =>
          match inRange range r with
          | none => (s, some .cutShort)
          | some (distance, r) =>
            ({ reader := r, output := copyBack distance length s.output }, none)

/-- The symbols of a block up to its end. Every symbol takes at least a bit. -/
def symbols (literals distances : Huffman) : Nat → Inflating → Step
  | 0, s => (s, some .cutShort)
  | fuel + 1, s =>
    match literals.read s.reader with
    | .noWord => (s, some .damaged)
    | .cutShort => (s, some .cutShort)
    | .symbol n r =>
      let s := { s with reader := r }
      if n < 256 then
        symbols literals distances fuel { s with output := s.output.push (UInt8.ofNat n) }
      else if n = 256 then (s, none)
      else
        match copy distances (n - 257) s with
        | (s, none) => symbols literals distances fuel s
        | stopped => stopped

/-- A stored block: its length, the complement of it, and so many bytes. -/
def stored (s : Inflating) : Step :=
  let r := s.reader.align
  match r.bits? 16 with
  | none => (s, some .cutShort)
  | some (length, r) =>
    match r.bits? 16 with
    | none => (s, some .cutShort)
    | some (complement, r) =>
      if length + complement ≠ 0xFFFF then (s, some .damaged)
      else
        let start := r.byteIndex
        let stop := min (start + length) r.bytes.size
        let output := s.output ++ r.bytes.extract start stop
        let reader := { r with position := 8 * stop }
        ({ reader, output }, if stop < start + length then some .cutShort else none)

def fixedLiterals : Huffman :=
  .ofLengths (List.replicate 144 8 ++ List.replicate 112 9 ++ List.replicate 24 7 ++
    List.replicate 8 8)

def fixedDistances : Huffman :=
  .ofLengths (List.replicate 32 5)

/-- The order in which the lengths of the code for lengths are written. -/
def lengthOrder : List Nat :=
  [16, 17, 18, 0, 8, 7, 9, 6, 10, 5, 11, 4, 12, 3, 13, 2, 14, 1, 15]

/-- Reads `n` numbers of three bits. -/
def triples : Nat → BitReader → Option (List Nat × BitReader)
  | 0, r => some ([], r)
  | n + 1, r => do
    let (x, r) ← r.bits? 3
    let (xs, r) ← triples n r
    return (x :: xs, r)

/-- Reads lengths of words until there are `count` of them; those read are held last first. A symbol
above 15 repeats the last length or zero. -/
def codeLengths (code : Huffman) (count : Nat) :
    Nat → List Nat → BitReader → Except InflateStop (List Nat × BitReader)
  | 0, _, _ => .error .damaged
  | fuel + 1, done, r =>
    if count < done.length then .error .damaged
    else if done.length = count then .ok (done.reverse, r)
    else
      match code.read r with
      | .noWord => .error .damaged
      | .cutShort => .error .cutShort
      | .symbol n r =>
        let again (value bits base : Nat) : Except InflateStop (List Nat × BitReader) :=
          match r.bits? bits with
          | none => .error .cutShort
          | some (extra, r) =>
            codeLengths code count fuel (List.replicate (base + extra) value ++ done) r
        if n < 16 then codeLengths code count fuel (n :: done) r
        else if n = 16 then
          match done with
          | [] => .error .damaged
          | last :: _ => again last 2 3
        else if n = 17 then again 0 3 3
        else again 0 7 11

/-- The codes that a block brings with it, for literals and for distances. -/
def ownCodes (r : BitReader) : Except InflateStop (Huffman × Huffman × BitReader) := do
  let number (bits : Nat) (r : BitReader) : Except InflateStop (Nat × BitReader) :=
    match r.bits? bits with
    | some found => .ok found
    | none => .error .cutShort
  let (literals, r) ← number 5 r
  let (distances, r) ← number 5 r
  let (lengths, r) ← number 4 r
  let literals := literals + 257
  let distances := distances + 1
  let (written, r) ←
    match triples (lengths + 4) r with
    | some found => .ok found
    | none => .error .cutShort
  if 286 < literals ∨ 30 < distances then throw .damaged
  let assigned := lengthOrder.zip written
  let code := Huffman.ofLengths ((List.range 19).map fun n => (assigned.lookup n).getD 0)
  if !code.isUsable then throw .damaged
  let count := literals + distances
  let (all, r) ← codeLengths code count (count + 1) [] r
  let literalCode := Huffman.ofLengths (all.take literals)
  let distanceCode := Huffman.ofLengths (all.drop literals)
  if !literalCode.isUsable || !distanceCode.isUsable then throw .damaged
  return (literalCode, distanceCode, r)

/-- One block and whether it is the last. -/
def block (s : Inflating) : Bool × Step :=
  match s.reader.bits? 3 with
  | none => (true, s, some .cutShort)
  | some (header, r) =>
    let s := { s with reader := r }
    let step : Step :=
      match header / 2 with
      | 0 => stored s
      | 1 => symbols fixedLiterals fixedDistances (r.size + 1) s
      | 2 =>
        match ownCodes r with
        | .ok (literals, distances, r) =>
          symbols literals distances (r.size + 1) { s with reader := r }
        | .error stop => (s, some stop)
      | _ => (s, some .damaged)
    (header % 2 = 1, step)

/-- Blocks up to the last one. Every block takes at least three bits. -/
def blocks : Nat → Inflating → Step
  | 0, s => (s, some .cutShort)
  | fuel + 1, s =>
    match block s with
    | (_, s, some stop) => (s, some stop)
    | (true, s, none) => (s, none)
    | (false, s, none) => blocks fuel s

end Inflating

/-- Inflates from a byte on: what comes out, and the index of the byte after the compressed data, or
why there is none. -/
def inflate (bytes : ByteArray) (start : Nat) : ByteArray × Except InflateStop Nat :=
  let reader : BitReader := { bytes, position := 8 * start }
  match Inflating.blocks (reader.size + 1) { reader, output := .empty } with
  | (s, none) => (s.output, .ok s.reader.align.byteIndex)
  | (s, some stop) => (s.output, .error stop)

end RemoteAgent.Gzip
