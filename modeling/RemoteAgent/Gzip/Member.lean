import RemoteAgent.Gzip.Inflate

/-!
# Compressed files

A compressed file has a header, compressed data, and a trailer with the checksum and the length of
what comes out; only the first of several is read. The reader holds a window of output: when it
meets damage, what is in the window is lost, while data that merely ends early loses nothing. -/

namespace RemoteAgent.Gzip

section Checksums

/-- Eight steps of division of a remainder. -/
def crcShift : Nat → UInt32 → UInt32
  | 0, c => c
  | n + 1, c => crcShift n (if c &&& 1 = 1 then (c >>> 1) ^^^ 0xEDB88320 else c >>> 1)

/-- The remainder for every low byte. -/
def crcTable : Array UInt32 :=
  ((List.range 256).map fun n => crcShift 8 (UInt32.ofNat n)).toArray

/-- The cyclic redundancy code of 32 bits with the polynomial 0xEDB88320, lowest bit first. -/
def crc32 (bytes : ByteArray) : UInt32 :=
  let last := bytes.foldl
    (fun c b => crcTable.getD ((c ^^^ b.toUInt32) &&& 0xFF).toNat 0 ^^^ (c >>> 8)) 0xFFFFFFFF
  last ^^^ 0xFFFFFFFF

end Checksums

/-- What comes out of a compressed file, and whether it ends there properly: past its bytes, a sound
stream is at its end and any other fails. -/
structure Decompressed where
  bytes : ByteArray
  sound : Bool

/-- The size of the window of output. -/
def windowSize : Nat := 32768

/-- The longest name or comment in a header. -/
def fieldLimit : Nat := 65535

def byteAt? (bytes : ByteArray) (i : Nat) : Option UInt8 :=
  if h : i < bytes.size then some bytes[i] else none

/-- The number that `n` bytes denote, lowest byte first. -/
def littleEndian? (bytes : ByteArray) : Nat → Nat → Option Nat
  | 0, _ => some 0
  | n + 1, i => do
    let low ← byteAt? bytes i
    let high ← littleEndian? bytes n (i + 1)
    return low.toNat + 256 * high

/-- The index after a field that a zero byte ends. -/
def afterField? (bytes : ByteArray) : Nat → Nat → Option Nat
  | 0, i => if byteAt? bytes i = some 0 then some (i + 1) else none
  | limit + 1, i =>
    match byteAt? bytes i with
    | none => none
    | some 0 => some (i + 1)
    | some _ => afterField? bytes limit (i + 1)

/-- The index of the first byte after the header. Its fields are all read; the flags say which of
them there are, and three flags must not be set. -/
def afterHeader? (bytes : ByteArray) : Option Nat := do
  if (← byteAt? bytes 0) ≠ 0x1F ∨ (← byteAt? bytes 1) ≠ 0x8B ∨ (← byteAt? bytes 2) ≠ 8 then
    none
  let flags ← byteAt? bytes 3
  if flags &&& 0xE0 ≠ 0 ∨ bytes.size < 10 then none
  let i := 10
  let i ←
    if flags &&& 4 ≠ 0 then do
      let length ← littleEndian? bytes 2 i
      if bytes.size < i + 2 + length then none else some (i + 2 + length)
    else some i
  let i ← if flags &&& 8 ≠ 0 then afterField? bytes fieldLimit i else some i
  let i ← if flags &&& 16 ≠ 0 then afterField? bytes fieldLimit i else some i
  if flags &&& 2 ≠ 0 then
    let check ← littleEndian? bytes 2 i
    if check = (crc32 (bytes.extract 0 i)).toNat % 65536 then some (i + 2) else none
  else some i

/-- Whether the trailer at an index fits what came out. -/
def trailerFits (bytes output : ByteArray) (i : Nat) : Bool :=
  littleEndian? bytes 4 i = some (crc32 output).toNat &&
    littleEndian? bytes 4 (i + 4) = some (output.size % 0x100000000)

/-- Decompresses the first compressed file in a byte string. -/
def decompress (bytes : ByteArray) : Decompressed :=
  match afterHeader? bytes with
  | none => { bytes := .empty, sound := false }
  | some start =>
    match inflate bytes start with
    | (output, .ok stop) => { bytes := output, sound := trailerFits bytes output stop }
    | (output, .error .cutShort) => { bytes := output, sound := false }
    | (output, .error .damaged) =>
      { bytes := output.extract 0 (output.size / windowSize * windowSize), sound := false }

end RemoteAgent.Gzip
