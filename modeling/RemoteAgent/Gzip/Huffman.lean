import RemoteAgent.Gzip.BitReader

/-!
# Canonical prefix codes

A code is given by the lengths of its words. Words of one length follow each other in the order of
their symbols, and shorter words come before longer ones.
-/

namespace RemoteAgent.Gzip

/-- A canonical prefix code with words of at most 15 bits. -/
structure Huffman where
  /-- How many words there are of each length. -/
  counts : Array Nat
  /-- The symbols in the order of their words. -/
  symbols : Array Nat

namespace Huffman

def maxLength : Nat := 15

/-- The code with given lengths of words; zero means that a symbol has no word. -/
def ofLengths (lengths : List Nat) : Huffman where
  counts := ((List.range (maxLength + 1)).map fun n =>
    if n = 0 then 0 else lengths.count n).toArray
  symbols := ((List.range maxLength).flatMap fun n =>
    lengths.zipIdx.filterMap fun (length, symbol) =>
      if length = n + 1 then some symbol else none).toArray

/-- How many words of the greatest length begin with a word of the code. -/
def coverage (h : Huffman) : Nat :=
  h.counts.toList.zipIdx.foldl
    (fun n (count, length) => n + count * Nat.pow 2 (maxLength - length)) 0

/-- A code may be used when its words fill the code space exactly, or when it has at most one
word. -/
def isUsable (h : Huffman) : Bool :=
  h.symbols.size ≤ 1 || h.coverage = Nat.pow 2 maxLength

inductive Read where
  | symbol (value : Nat) (rest : BitReader)
  /-- The bits are no word of the code. -/
  | noWord
  /-- The input ended within a word. -/
  | cutShort

/-- Reads the rest of a word of which `length` bits are read. `code` is what they amount to, `first`
the least code of that length and `index` the number of shorter words. -/
def readFrom (h : Huffman) (length code first index : Nat) : Nat → BitReader → Read
  | 0, _ => .noWord
  | more + 1, r =>
    match r.bit? with
    | none => .cutShort
    | some (b, r) =>
      let code := 2 * code + b
      let first := 2 * first
      let count := h.counts.getD (length + 1) 0
      if code < first + count then
        match h.symbols[index + (code - first)]? with
        | some s => .symbol s r
        | none => .noWord
      else readFrom h (length + 1) code (first + count) (index + count) more r

def read (h : Huffman) (r : BitReader) : Read :=
  readFrom h 0 0 0 0 maxLength r

end Huffman

end RemoteAgent.Gzip
