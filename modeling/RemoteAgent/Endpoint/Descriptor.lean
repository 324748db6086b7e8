import RemoteAgent.Endpoint.Basic
import RemoteAgent.Json.Basic
import RemoteAgent.Decimal.Shortest
import RemoteAgent.Text.Quoted

/-!
# Descriptors of endpoints

An endpoint is described by a JSON object with a field for each of its parts. Protocol and side are
required, the others may be absent. An array of the same values in the order of the fields is read
too, and it may stop after the side.
-/

namespace RemoteAgent

inductive DescriptorError where
  /-- A value of another kind was expected. -/
  | wrongType (found : Json) (expected : String)
  /-- A value of the right kind is out of range. -/
  | wrongValue (found : Json) (expected : String)
  | wrongLength (length : Nat) (expected : String)
  | unknownName (name : String) (known : List String)
  | missingField (name : String)

/-- Whether an integer has 64 bits, with or without a sign. -/
def Descriptor.fitsWord (n : Int) : Bool :=
  -0x8000000000000000 ≤ n && n < Numeral.wordLimit

namespace DescriptorError

/-- The float that stands for a number which is no integer of 64 bits. -/
def describeDecimal (d : Decimal) : String :=
  "floating point `" ++ (Binary64.ofDecimal d).text ++ "`"

/-- A value in a message: its kind, and what it is if it has no parts. -/
def describe : Json → String
  | .null => "null"
  | .bool b => "boolean `" ++ (if b then "true" else "false") ++ "`"
  | .integer n =>
    if Descriptor.fitsWord n then "integer `" ++ toString n ++ "`"
    else describeDecimal ⟨n < 0, n.natAbs, 0⟩
  | .decimal d => describeDecimal d
  | .string s => "string " ++ Text.quoted s
  | .array _ => "sequence"
  | .object _ => "map"

/-- Two or more names between backquotes. -/
def listNames : List String → String
  | [a, b] => "`" ++ a ++ "` or `" ++ b ++ "`"
  | names => "one of " ++ ", ".intercalate (names.map fun n => "`" ++ n ++ "`")

def message : DescriptorError → String
  | wrongType found expected => "invalid type: " ++ describe found ++ ", expected " ++ expected
  | wrongValue found expected => "invalid value: " ++ describe found ++ ", expected " ++ expected
  | wrongLength length expected => s!"invalid length {length}, expected {expected}"
  | unknownName name known => "unknown variant `" ++ name ++ "`, expected " ++ listNames known
  | missingField name => "missing field `" ++ name ++ "`"

end DescriptorError

namespace Descriptor

def protocolName : Protocol → String
  | .localHost => "local"
  | .inMemory => "inmemory"
  | .ssh => "ssh"
  | .docker => "docker"
  | .ipfs => "ipfs"

def protocols : List (String × Protocol) :=
  [.localHost, .inMemory, .ssh, .docker, .ipfs].map fun p => (protocolName p, p)

def sideName : Side → String
  | .alpha => "alpha"
  | .beta => "beta"

def sides : List (String × Side) :=
  [.alpha, .beta].map fun s => (sideName s, s)

/-- One of several named values: its name, or an object with the name for its only field and null
for the value of that field. -/
def ofNames {α : Type} (known : List (String × α)) (v : Json) : Except DescriptorError α :=
  let named (name : String) : Except DescriptorError α :=
    match known.find? (·.1 = name) with
    | some (_, a) => .ok a
    | none => .error (.unknownName name (known.map (·.1)))
  match v with
  | .string name => named name
  | .object [(name, content)] => do
    let a ← named name
    match content with
    | .null => .ok a
    | content => .error (.wrongType content "unit")
  | .object _ => .error (.wrongValue v "map with a single key")
  | _ => .error (.wrongType v "string or map")

def protocol (v : Json) : Except DescriptorError Protocol :=
  ofNames protocols v

def side (v : Json) : Except DescriptorError Side :=
  ofNames sides v

def text : Json → Except DescriptorError String
  | .string s => .ok s
  | v => .error (.wrongType v "a string")

/-- A port, or null for none. -/
def port : Json → Except DescriptorError (Option UInt16)
  | .null => .ok none
  | .integer n =>
    if 0 ≤ n ∧ n < 65536 then .ok (some (UInt16.ofNat n.toNat))
    else if fitsWord n then .error (.wrongValue (.integer n) "u16")
    else .error (.wrongType (.integer n) "u16")
  | v => .error (.wrongType v "u16")

def environment : Json → Except DescriptorError (SortedMap String)
  | .object fields => (SortedMap.ofList fields).mapM text
  | v => .error (.wrongType v "a map")

/-- Reads a value if there is one. -/
def optional {α : Type} (read : Json → Except DescriptorError α) (default : α) :
    Option Json → Except DescriptorError α
  | none => .ok default
  | some v => read v

/-- Reads an object. Its fields are read in the order of their names; what is missing is found out
last. -/
def ofFields (v : Json) : Except DescriptorError Endpoint := do
  let environment ← optional environment .empty (v.field? "environment")
  let hostname ← optional text "" (v.field? "hostname")
  let side? ← (v.field? "kind").mapM side
  let path ← optional text "" (v.field? "path")
  let port ← optional port none (v.field? "port")
  let protocol? ← (v.field? "protocol").mapM protocol
  let username ← optional text "" (v.field? "username")
  match protocol?, side? with
  | some protocol, some side =>
    .ok { protocol, side, username, hostname, port, path, environment }
  | none, _ => .error (.missingField "protocol")
  | _, none => .error (.missingField "kind")

/-- Reads the values of an array in the order of the fields. -/
def ofItems : List Json → Except DescriptorError Endpoint
  | [] => .error (.wrongLength 0 "struct Endpoint with 7 elements")
  | p :: r => do
    let protocol ← protocol p
    match r with
    | [] => .error (.wrongLength 1 "struct Endpoint with 7 elements")
    | k :: r =>
      let side ← side k
      let username ← optional text "" r[0]?
      let hostname ← optional text "" r[1]?
      let port ← optional port none r[2]?
      let path ← optional text "" r[3]?
      let environment ← optional environment .empty r[4]?
      if r.length ≤ 5 then
        .ok { protocol, side, username, hostname, port, path, environment }
      else .error (.wrongLength (r.length + 2) "fewer elements in array")

end Descriptor

namespace Endpoint

def ofJson (v : Json) : Except DescriptorError Endpoint :=
  match v with
  | .object _ => Descriptor.ofFields v
  | .array items => Descriptor.ofItems items
  | v => .error (.wrongType v "struct Endpoint")

def toJson (e : Endpoint) : Json :=
  .object [
    ("protocol", .string (Descriptor.protocolName e.protocol)),
    ("kind", .string (Descriptor.sideName e.side)),
    ("username", .string e.username),
    ("hostname", .string e.hostname),
    ("port", match e.port with
      | none => .null
      | some port => .integer port.toNat),
    ("path", .string e.path),
    ("environment", .object (e.environment.entries.map fun (name, value) =>
      (name, .string value)))]

end Endpoint

end RemoteAgent
