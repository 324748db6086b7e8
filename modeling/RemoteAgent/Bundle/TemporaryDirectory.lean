import RemoteAgent.IoError

/-!
# Temporary files

The files that this program keeps in the temporary directory while it needs them.
-/

namespace RemoteAgent

structure TemporaryFile where
  name : String
  content : List UInt8
  mode : Nat
  deriving DecidableEq, Repr

abbrev TemporaryDirectory := List TemporaryFile

namespace TemporaryDirectory

/-- The permissions of a new file: its owner may read and write it. -/
def newMode : Nat := 0o600

def create (d : TemporaryDirectory) (name : String) : TemporaryDirectory :=
  d ++ [{ name, content := [], mode := newMode }]

def modify (d : TemporaryDirectory) (name : String) (f : TemporaryFile → TemporaryFile) :
    TemporaryDirectory :=
  d.map fun file => if file.name = name then f file else file

def write (d : TemporaryDirectory) (name : String) (bytes : List UInt8) : TemporaryDirectory :=
  d.modify name fun file => { file with content := file.content ++ bytes }

def setMode (d : TemporaryDirectory) (name : String) (mode : Nat) : TemporaryDirectory :=
  d.modify name fun file => { file with mode }

def remove (d : TemporaryDirectory) (name : String) : TemporaryDirectory :=
  d.filter (·.name ≠ name)

def find? (d : TemporaryDirectory) (name : String) : Option TemporaryFile :=
  List.find? (·.name = name) d

end TemporaryDirectory

/-- What the system refuses while a temporary file is made; by default it refuses nothing. -/
structure Refusals where
  create : Option IoError := none
  /-- How many bytes can be written, and what befalls the next one. -/
  write : Option (Nat × IoError) := none
  setMode : Option IoError := none
  deriving DecidableEq, Repr

namespace Refusals

/-- What gets written of some bytes. -/
def written (r : Refusals) (bytes : List UInt8) : List UInt8 :=
  match r.write with
  | none => bytes
  | some (room, _) => bytes.take room

/-- What befalls the writing of some bytes. -/
def writing? (r : Refusals) (bytes : List UInt8) : Option IoError :=
  match r.write with
  | none => none
  | some (room, cause) => if room < bytes.length then some cause else none

end Refusals

end RemoteAgent
