import RemoteAgent.Tar.Archive

/-! # Entries of archives

A header describes the entry after it or begins an entry itself. Either way a step leads over it and
its data, in whole blocks, to the next header.
-/

namespace RemoteAgent.Tar

/-- Where the header after an entry's data is. -/
def afterData (position size : Nat) : Nat :=
  position + blockSize + (size + blockSize - 1) / blockSize * blockSize

variable {s : Gzip.Decompressed} {position : Nat} {d : Described}

/-- Whether a header begins no entry but describes the next one. -/
def Block.isDescription (b : Block) : Bool :=
  (b.isUstar || b.isGnu) && [longNameKind, longLinkKind, recordsKind].contains b.kind

/-- The size that a header states itself, whatever is recorded about it; that of a sparse file
counts the holes. -/
def Block.statedSize? (b : Block) : Option Nat :=
  if b.kind = sparseKind then b.realSize? else b.size?

/-- Where the data of an entry is and how it is spread over the file. -/
def pieces? (s : Gzip.Decompressed) (header : Block) (size start : Nat) :
    Option (Nat × List Piece) :=
  if header.kind = sparseKind then sparsePieces? s header size start
  else some (start, [.data size])

/-- A header that can be read, with so much data after it. -/
structure HeaderAt (s : Gzip.Decompressed) (position : Nat) (d : Described) (header : Block)
    (size : Nat) : Prop where
  block : blockAt s position = .block header
  isZero : header.isZero = false
  hasChecksum : header.hasChecksum = true
  dataSize : d.dataSize? header = some size
  limit : afterData position size < Numeral.wordLimit

/-- The step that is made with a header, and what is known after it of the header to come. -/
inductive Step (s : Gzip.Decompressed) (position : Nat) (d : Described) :
    Option Entry → Nat → Described → Prop where

  | description {header : Block} {size : Nat} {data : List UInt8} {d' : Described} :
      HeaderAt s position d header size → header.isDescription = true →
      assemble s (position + blockSize) .empty [.data size] = (data, true) →
      d.note? header.kind data = some d' → Step s position d none (afterData position size) d'

  | entry {header : Block} {size stated start : Nat} {pieces : List Piece} :
      HeaderAt s position d header size → header.isDescription = false →
      header.statedSize? = some stated →
      pieces? s header size (position + blockSize) = some (start, pieces) →
      Step s position d
        (some {
          name := d.name header, kind := header.kind, size := stated,
          data := (assemble s start .empty pieces).1,
          readable := (assemble s start .empty pieces).2 })
        (afterData position size + (start - (position + blockSize))) {}

variable {e : Option Entry} {next : Nat} {d' : Described}

theorem entriesFrom_step (h : Step s position d e next d') (fuel : Nat) (done : List Entry) :
    entriesFrom s (fuel + 1) position d done = entriesFrom s fuel next d' (e.toList ++ done) := by
  cases h with
  | description hat hdescription hdata hnote =>
    have hlimit := Nat.not_le_of_lt hat.limit
    unfold afterData at hlimit
    rw [entriesFrom]
    simp only [hat.block, hat.isZero, hat.hasChecksum, hat.dataSize, if_neg hlimit]
    unfold Block.isDescription at hdescription
    simp only [hdescription, hdata, hnote]
    rfl
  | @entry header size stated start pieces hat hdescription hstated hpieces =>
    have hlimit := Nat.not_le_of_lt hat.limit
    unfold afterData at hlimit
    rw [entriesFrom]
    simp only [hat.block, hat.isZero, hat.hasChecksum, hat.dataSize, if_neg hlimit]
    unfold Block.isDescription at hdescription
    unfold Block.statedSize? at hstated
    unfold pieces? at hpieces
    simp only [hdescription]
    by_cases hsparse : header.kind = sparseKind
    · rw [if_pos hsparse] at hstated hpieces
      simp [hsparse, hstated, hpieces, afterData]
    · rw [if_neg hsparse] at hstated hpieces
      cases hpieces
      simp [hsparse, hstated, afterData]

/-- An entry that needs no description takes one header and its data. -/
theorem entriesFrom_plain {fuel size : Nat} {header : Block} {done : List Entry}
    (hblock : blockAt s position = .block header) (hzero : header.isZero = false)
    (hsum : header.hasChecksum = true) (hsize : header.size? = some size)
    (hustar : header.isUstar = false) (hgnu : header.isGnu = false)
    (hkind : header.kind ≠ sparseKind) (hlimit : afterData position size < Numeral.wordLimit) :
    entriesFrom s (fuel + 1) position {} done =
      entriesFrom s fuel (afterData position size) {}
        ({ name := header.name, kind := header.kind, size,
           data := (assemble s (position + blockSize) .empty [.data size]).1,
           readable := (assemble s (position + blockSize) .empty [.data size]).2 } :: done) := by
  have hdata : ({} : Described).dataSize? header = some size := by
    simp [Described.dataSize?, hsize]
  have hentry : header.isDescription = false := by
    simp [Block.isDescription, hustar, hgnu]
  have hstated : header.statedSize? = some size := by
    rw [Block.statedSize?, if_neg hkind, hsize]
  have hpieces : pieces? s header size (position + blockSize) =
      some (position + blockSize, [.data size]) := by
    rw [pieces?, if_neg hkind]
  rw [entriesFrom_step (.entry ⟨hblock, hzero, hsum, hdata, hlimit⟩ hentry hstated hpieces),
    Nat.sub_self, Nat.add_zero]
  rfl

end RemoteAgent.Tar
