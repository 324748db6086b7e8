import RemoteAgent.Numeral
import RemoteAgent.Text.Utf8

/-!
# Extended records

The records about an entry stand one a line: the length of the line, a blank, a key, an equals sign
and a value. An empty line ends them.
-/

namespace RemoteAgent.Tar

/-- The parts between separators. The part that has begun is held last first. -/
def splitBytesFrom (separator : UInt8) (part : List UInt8) : List UInt8 → List (List UInt8)
  | [] => [part.reverse]
  | b :: r =>
    if b = separator then part.reverse :: splitBytesFrom separator [] r
    else splitBytesFrom separator (b :: part) r

/-- Splits at the first byte of a value. -/
def cutAt? (b : UInt8) (bytes : List UInt8) : Option (List UInt8 × List UInt8) :=
  match bytes.dropWhile (· ≠ b) with
  | [] => none
  | _ :: r => some (bytes.takeWhile (· ≠ b), r)

/-- The key and the value of a record; nothing if its length is wrong or it has no key. -/
def record? (line : List UInt8) : Option (List UInt8 × List UInt8) := do
  let (length, body) ← cutAt? 0x20 line
  let length ← Text.decode? length
  let length ← Numeral.ofSigned? 10 Numeral.wordLimit length.toList
  if length = line.length + 1 then cutAt? 0x3D body else none

/-- The records up to the first empty line. -/
def records (bytes : List UInt8) : List (Option (List UInt8 × List UInt8)) :=
  ((splitBytesFrom 0x0A [] bytes).takeWhile fun line => !line.isEmpty).map record?

/-- The value of the first record about the path. Malformed records are passed over. -/
def recordedPath? (bytes : List UInt8) : Option (List UInt8) :=
  ((records bytes).findSome? fun r =>
    r.bind fun (key, value) => if key = Text.encode "path" then some value else none)

/-- The value of the first record about the size, if it is a number and no malformed record stands
before it. -/
def recordedSize? (bytes : List UInt8) : Option Nat :=
  let found := (records bytes).find? fun r =>
    match r with
    | none => true
    | some (key, _) => key = Text.encode "size"
  match found with
  | some (some (_, value)) =>
    (Text.decode? value).bind fun s => Numeral.ofSigned? 10 Numeral.wordLimit s.toList
  | _ => none

end RemoteAgent.Tar
