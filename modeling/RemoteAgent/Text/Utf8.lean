/-!
# UTF-8

Decoding is done by a machine that is fed one byte at a time, so that the decoding of a byte string
can be cut wherever the machine stands between characters. A malformed part yields one replacement
character: the longest run of bytes that begins some character, or else a single byte.
-/

namespace RemoteAgent.Text

/-- Where a decoder stands between bytes. -/
inductive Decoder where
  /-- Between characters. -/
  | start
  /-- Inside a character: `value` holds the bits so far, the next byte has to lie between `low`
  and `high`, and `more` continuation bytes follow it. -/
  | within (value : Nat) (low high : UInt8) (more : Nat)
  deriving DecidableEq

namespace Decoder

/-- Reads a byte at the start of a character; `none` stands for a malformed part. -/
def first (b : UInt8) : List (Option Char) × Decoder :=
  let lead (mask : UInt8) (low high : UInt8) (more : Nat) : List (Option Char) × Decoder :=
    ([], .within (b &&& mask).toNat low high more)
  if b < 0x80 then ([some (Char.ofNat b.toNat)], .start)
  else if b < 0xC2 then ([none], .start)
  else if b < 0xE0 then lead 0x1F 0x80 0xBF 0
  else if b = 0xE0 then lead 0x0F 0xA0 0xBF 1
  else if b = 0xED then lead 0x0F 0x80 0x9F 1
  else if b < 0xF0 then lead 0x0F 0x80 0xBF 1
  else if b = 0xF0 then lead 0x07 0x90 0xBF 2
  else if b < 0xF4 then lead 0x07 0x80 0xBF 2
  else if b = 0xF4 then lead 0x07 0x80 0x8F 2
  else ([none], .start)

/-- Reads a byte: what it completes, and where the decoder stands after it. -/
def feed (b : UInt8) : Decoder → List (Option Char) × Decoder
  | .start => first b
  | .within value low high more =>
    if low ≤ b ∧ b ≤ high then
      let value := value * 64 + (b &&& 0x3F).toNat
      match more with
      | 0 => ([some (Char.ofNat value)], .start)
      | more + 1 => ([], .within value 0x80 0xBF more)
    else
      let (out, next) := first b
      (none :: out, next)

/-- What the end of the input adds. -/
def finish : Decoder → List (Option Char)
  | .start => []
  | .within .. => [none]

/-- Decodes the rest of an input; `done` holds what is already decoded, last first. -/
def run (done : List (Option Char)) (d : Decoder) : List UInt8 → List (Option Char)
  | [] => (d.finish.reverse ++ done).reverse
  | b :: bs => run ((d.feed b).1.reverse ++ done) (d.feed b).2 bs

end Decoder

/-- The characters of a byte string, `none` for each malformed part. -/
def decodeParts (bytes : List UInt8) : List (Option Char) :=
  Decoder.start.run [] bytes

/-- Decodes a byte string, replacing each malformed part by U+FFFD. -/
def decodeLossy (bytes : List UInt8) : String :=
  String.ofList ((decodeParts bytes).map (·.getD '\ufffd'))

/-- Decodes a byte string without malformed parts. -/
def decode? (bytes : List UInt8) : Option String :=
  let parts := decodeParts bytes
  if parts.all Option.isSome then some (String.ofList (parts.filterMap id)) else none

def encode (s : String) : List UInt8 :=
  s.toUTF8.data.toList

end RemoteAgent.Text
