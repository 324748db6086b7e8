import RemoteAgent.Numeral
import RemoteAgent.Text.Utf8
import RemoteAgent.Text.Basic

/-!
# Archive headers

A header is a block of 512 bytes with fields at fixed places. The old form has names of 100 bytes;
two later forms mark themselves and add fields.
-/

namespace RemoteAgent.Tar

abbrev Block := List UInt8

def blockSize : Nat := 512

namespace Block

def field (b : Block) (start length : Nat) : List UInt8 :=
  (b.drop start).take length

end Block

/-- The bytes before the first zero byte. -/
def untilZero (bytes : List UInt8) : List UInt8 :=
  bytes.takeWhile (· ≠ 0)

/-- The number that bytes denote, highest byte first. -/
def bigEndian (bytes : List UInt8) : Nat :=
  bytes.foldl (fun n b => 256 * n + b.toNat) 0

/-- A number in octal digits: the text before the first zero byte, between white space. -/
def octal? (bytes : List UInt8) : Option Nat := do
  let s ← Text.decode? (untilZero bytes)
  Numeral.ofSigned? 8 Numeral.wordLimit (Text.trimBlanks s.toList)

/-- A number in octal digits or, if the highest bit is set, in the last eight bytes. -/
def number? (bytes : List UInt8) : Option Nat :=
  if (bytes.headD 0) &&& 0x80 = 0 then octal? bytes
  else some (bigEndian (bytes.drop (bytes.length - 8)))

namespace Block

/-- Whether a header is of the standard form with a prefix for names. -/
def isUstar (b : Block) : Bool :=
  b.field 257 8 = [0x75, 0x73, 0x74, 0x61, 0x72, 0x00, 0x30, 0x30]

/-- Whether a header is of the form with sparse files. -/
def isGnu (b : Block) : Bool :=
  b.field 257 8 = [0x75, 0x73, 0x74, 0x61, 0x72, 0x20, 0x20, 0x00]

def kind (b : Block) : UInt8 :=
  b.getD 156 0

/-- The name in the header: with a prefix before it in the standard form. -/
def name (b : Block) : List UInt8 :=
  let name := untilZero (b.field 0 100)
  let before := if b.isUstar then untilZero (b.field 345 155) else []
  if before.isEmpty then name else before ++ 0x2F :: name

def size? (b : Block) : Option Nat :=
  number? (b.field 124 12)

/-- The size of a sparse file with its holes. -/
def realSize? (b : Block) : Option Nat :=
  octal? (b.field 483 12)

/-- The sum of all bytes, those of the sum itself taken as spaces. -/
def checksum (b : Block) : Nat :=
  (b.take 148 ++ b.drop 156).foldl (fun n c => n + c.toNat) (8 * 32)

/-- Whether the sum in the header is right. -/
def hasChecksum (b : Block) : Bool :=
  (octal? (b.field 148 8)).map (· % 0x100000000) = some b.checksum

def isZero (b : Block) : Bool :=
  b.all (· = 0)

end Block

/-- Sparse files, `S`. -/
def sparseKind : UInt8 := 0x53

/-- The name of the next entry, `L`. -/
def longNameKind : UInt8 := 0x4C

/-- The link target of the next entry, `K`. -/
def longLinkKind : UInt8 := 0x4B

/-- Records about the next entry, `x`. -/
def recordsKind : UInt8 := 0x78

end RemoteAgent.Tar
