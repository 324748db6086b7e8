/-!
# Reading bits

The bits of a byte string, each byte from its lowest bit up.
-/

namespace RemoteAgent.Gzip

/-- A byte string and the number of bits already read. -/
structure BitReader where
  bytes : ByteArray
  position : Nat

namespace BitReader

def size (r : BitReader) : Nat :=
  8 * r.bytes.size

def bit? (r : BitReader) : Option (Nat × BitReader) :=
  if h : r.position / 8 < r.bytes.size then
    let b := r.bytes[r.position / 8]
    some ((b.toNat >>> (r.position % 8)) % 2, { r with position := r.position + 1 })
  else none

/-- The next `n` bits as a number, the first one lowest. -/
def bits? : Nat → BitReader → Option (Nat × BitReader)
  | 0, r => some (0, r)
  | n + 1, r => do
    let (low, r) ← r.bit?
    let (high, r) ← bits? n r
    return (low + 2 * high, r)

/-- Skips to the next whole byte. -/
def align (r : BitReader) : BitReader :=
  { r with position := (r.position + 7) / 8 * 8 }

/-- The index of the byte that the next bit is in. -/
def byteIndex (r : BitReader) : Nat :=
  r.position / 8

end BitReader

end RemoteAgent.Gzip
