import RemoteAgent.Gzip.Member
import RemoteAgent.Tar.Header
import RemoteAgent.Tar.Records

/-!
# Archives

An archive is a sequence of headers, each followed by data in whole blocks, up to a block of zeros
or to the end. Some entries only describe the next one: its name, its link target, or records about
it. -/

namespace RemoteAgent.Tar

structure Entry where
  name : List UInt8
  kind : UInt8
  /-- The size that the header states, with the holes of a sparse file. -/
  size : Nat
  /-- The data that can be read. -/
  data : List UInt8
  /-- Whether the data can be read without a failure of the stream; it may still be short. -/
  readable : Bool
  deriving DecidableEq, Repr

/-- The entries of an archive up to its end, or up to where reading it fails. -/
structure Contents where
  entries : List Entry
  sound : Bool

inductive Piece where
  /-- So many bytes of the archive. -/
  | data (length : Nat)
  /-- So many zeros. -/
  | hole (length : Nat)
  deriving DecidableEq, Repr

inductive Found where
  | block (b : Block)
  /-- The stream has ended before it. -/
  | finish
  /-- The stream fails or ends within it. -/
  | failure

def blockAt (s : Gzip.Decompressed) (position : Nat) : Found :=
  if position + blockSize ≤ s.bytes.size then
    .block (s.bytes.extract position (position + blockSize)).data.toList
  else if position = s.bytes.size ∧ s.sound then .finish
  else .failure

/-- The bytes of pieces that lie at a position of a stream; those taken already are held in the
array. A stream that fails ends the data, one that merely ends gives no more bytes and lets holes be
holes. -/
def assemble (s : Gzip.Decompressed) : Nat → ByteArray → List Piece → List UInt8 × Bool
  | _, done, [] => (done.data.toList, true)
  | position, done, .hole n :: r =>
    assemble s position (done ++ ⟨Array.replicate n 0⟩) r
  | position, done, .data n :: r =>
    let stop := min (position + n) s.bytes.size
    let done := done ++ s.bytes.extract position stop
    if stop < position + n ∧ ¬ s.sound then (done.data.toList, false)
    else assemble s stop done r

/-- The layout of a sparse file in progress. -/
structure Layout where
  /-- The pieces so far, last first. -/
  pieces : List Piece
  /-- Where in the file they end. -/
  reached : Nat
  /-- How much of the data is not used yet. -/
  remaining : Nat

/-- Adds a block of a sparse file: its place and its length. Blocks come in order, begin at whole
blocks of the data, and use no more than there is. -/
def Layout.add (size : Nat) (l : Layout) (place : List UInt8) : Option Layout :=
  let offset := place.take 12
  let length := (place.drop 12).take 12
  if offset.headD 0 = 0 ∨ length.headD 0 = 0 then some l
  else do
    let offset ← octal? offset
    let length ← octal? length
    if length ≠ 0 ∧ (size - l.remaining) % blockSize ≠ 0 then none
    else if offset < l.reached then none
    else if Numeral.wordLimit ≤ offset + length ∨ l.remaining < length then none
    else
      let hole := if l.reached < offset then [Piece.hole (offset - l.reached)] else []
      return {
        pieces := .data length :: hole ++ l.pieces
        reached := offset + length
        remaining := l.remaining - length }

/-- Adds all blocks that stand in a part of a header. -/
def Layout.addAll (size count : Nat) (l : Layout) (bytes : List UInt8) : Option Layout :=
  (List.range count).foldlM (fun l i => l.add size ((bytes.drop (24 * i)).take 24)) l

/-- Adds the blocks of continuation headers while there are any, and gives the position after
them. -/
def Layout.continued (s : Gzip.Decompressed) (size : Nat) :
    Nat → Bool → Nat → Layout → Option (Nat × Layout)
  | _, false, position, l => some (position, l)
  | 0, true, _, _ => none
  | fuel + 1, true, position, l =>
    match blockAt s position with
    | .block b => do
      let l ← l.addAll size 21 b
      continued s size fuel (b.getD 504 0 = 1) (position + blockSize) l
    | _ => none

/-- The pieces of a sparse file and the position of its data. -/
def sparsePieces? (s : Gzip.Decompressed) (header : Block) (size position : Nat) :
    Option (Nat × List Piece) := do
  if !header.isGnu then none
  let l ← Layout.addAll size 4 { pieces := [], reached := 0, remaining := size } (header.drop 386)
  let (position, l) ←
    l.continued s size (s.bytes.size / blockSize + 1) (header.getD 482 0 = 1) position
  if header.realSize? = some l.reached ∧ l.remaining = 0 then some (position, l.pieces.reverse)
  else none

/-- What entries have said about the next one. -/
structure Described where
  longName : Option (List UInt8) := none
  longLink : Option (List UInt8) := none
  records : Option (List UInt8) := none

namespace Described

def isNothing (d : Described) : Bool :=
  d.longName.isNone && d.longLink.isNone && d.records.isNone

/-- The size of the data after a header: the recorded one, or else the header's. -/
def dataSize? (d : Described) (header : Block) : Option Nat := do
  let size ← header.size?
  return (d.records.bind recordedSize?).getD size

/-- The name of an entry: the long one without a zero byte at its end, or else the recorded one, or
else the header's. -/
def name (d : Described) (header : Block) : List UInt8 :=
  match d.longName with
  | some name => if name.getLast? = some 0 then name.dropLast else name
  | none => (d.records.bind recordedPath?).getD header.name

/-- Takes note of what an entry says about the next one; nothing may be said twice. -/
def note? (d : Described) (kind : UInt8) (data : List UInt8) : Option Described :=
  if kind = longNameKind then
    if d.longName.isSome then none else some { d with longName := some data }
  else if kind = longLinkKind then
    if d.longLink.isSome then none else some { d with longLink := some data }
  else if d.records.isSome then none else some { d with records := some data }

end Described

/-- The entries from a position on; those found already are held last first. Every header takes a
block. -/
def entriesFrom (s : Gzip.Decompressed) : Nat → Nat → Described → List Entry → Contents
  | 0, _, _, done => ⟨done.reverse, false⟩
  | fuel + 1, position, described, done =>
    let failure : Contents := ⟨done.reverse, false⟩
    let finish : Contents := ⟨done.reverse, described.isNothing⟩
    match blockAt s position with
    | .finish => finish
    | .failure => failure
    | .block header =>
      if header.isZero then finish
      else if !header.hasChecksum then failure
      else
        match described.dataSize? header with
        | none => failure
        | some size =>
          let start := position + blockSize
          let next := start + (size + blockSize - 1) / blockSize * blockSize
          if Numeral.wordLimit ≤ next then failure
          else if (header.isUstar || header.isGnu) &&
              [longNameKind, longLinkKind, recordsKind].contains header.kind then
            let (data, readable) := assemble s start .empty [.data size]
            match readable, described.note? header.kind data with
            | true, some described => entriesFrom s fuel next described done
            | _, _ => failure
          else
            let found :=
              if header.kind = sparseKind then
                (sparsePieces? s header size start).bind fun (dataStart, pieces) =>
                  header.realSize?.map fun real => (real, dataStart, pieces)
              else header.size?.map fun size' => (size', start, [Piece.data size])
            match found with
            | none => failure
            | some (stated, dataStart, pieces) =>
              let (data, readable) := assemble s dataStart .empty pieces
              let name := described.name header
              let entry : Entry := { name, kind := header.kind, size := stated, data, readable }
              entriesFrom s fuel (next + (dataStart - start)) {} (entry :: done)

def contents (s : Gzip.Decompressed) : Contents :=
  entriesFrom s (s.bytes.size / blockSize + 2) 0 {} []

end RemoteAgent.Tar
