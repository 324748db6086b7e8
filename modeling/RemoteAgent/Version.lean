import RemoteAgent.IoError

/-!
# Versions

A version has three numbers and perhaps a tag. Its wire form is the three numbers as 32-bit words,
most significant byte first; the tag is never sent, and two versions can talk to each other when
their numbers agree.
-/

namespace RemoteAgent

structure Version where
  major : UInt32
  minor : UInt32
  patch : UInt32
  tag : Option String
  deriving DecidableEq, Repr

inductive ProtocolError where
  | truncated (received expected : Nat)
  | io (cause : IoError)
  deriving DecidableEq, Repr

namespace ProtocolError

def message : ProtocolError → String
  | truncated received expected => s!"truncated version: received {received} of {expected} bytes"
  | io cause => s!"I/O error: {cause.message}"

end ProtocolError

namespace Version

/-- A component of the version, written in decimal digits. -/
def component (digits : String) : UInt32 :=
  digits.toList.foldl (fun n c => n * 10 + (c.val - '0'.val)) 0

def buildTag : String := ""

/-- The version of this program; an empty tag is no tag. -/
def current : Version where
  major := component "0"
  minor := component "1"
  patch := component "0"
  tag := if buildTag.isEmpty then none else some buildTag

def text (v : Version) : String :=
  let numbers := s!"{v.major}.{v.minor}.{v.patch}"
  match v.tag with
  | none => numbers
  | some tag => s!"{numbers}-{tag}"

/-- Whether two versions can talk to each other. -/
def isCompatibleWith (v w : Version) : Bool :=
  v.major = w.major && v.minor = w.minor && v.patch = w.patch

/-- The number of bytes of a wire form. -/
def wireSize : Nat := 12

/-- A word as four bytes, most significant first. -/
def wordBytes (n : UInt32) : List UInt8 :=
  [(n >>> 24).toUInt8, (n >>> 16).toUInt8, (n >>> 8).toUInt8, n.toUInt8]

def wordOf (a b c d : UInt8) : UInt32 :=
  (a.toUInt32 <<< 24) ||| (b.toUInt32 <<< 16) ||| (c.toUInt32 <<< 8) ||| d.toUInt32

def toWire (v : Version) : List UInt8 :=
  wordBytes v.major ++ wordBytes v.minor ++ wordBytes v.patch

/-- Reads a wire form; bytes after it are ignored. -/
def ofWire : List UInt8 → Except ProtocolError Version
  | a :: b :: c :: d :: e :: f :: g :: h :: i :: j :: k :: l :: _ =>
    .ok ⟨wordOf a b c d, wordOf e f g h, wordOf i j k l, none⟩
  | bytes => .error (.truncated bytes.length wireSize)

end Version

/-- The outcome of comparing a peer's version with one's own. -/
inductive Version.Check where
  | compatible
  | incompatible (remote : Version)
  deriving DecidableEq, Repr

def Version.check (own remote : Version) : Version.Check :=
  if remote.isCompatibleWith own then .compatible else .incompatible remote

end RemoteAgent
