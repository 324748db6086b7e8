import RemoteAgent.Effect
import RemoteAgent.FileTree.Walk

/-!
# Operations on file trees

Each is one step in the world of a file tree. Links at the end of a path are followed where
something is read or written, and not where an entry of a directory is made, moved or removed. -/

namespace RemoteAgent.FileTree

structure Entry where
  name : String
  isDirectory : Bool
  deriving DecidableEq, Repr

/-- A step that changes nothing. -/
def query {α : Type} (f : FileTree → Except SystemError α) : Effect FileTree SystemError α := do
  Effect.ofExcept (f (← get))

def list (p : Path) : Effect FileTree SystemError (List Entry) :=
  query fun t => do
    let l ← t.locate p
    t.requireDirectory l
    return (t.children l).map fun (name, node) => { name, isDirectory := node.isDirectory }

def accessTime (p : Path) : Effect FileTree SystemError Timestamp :=
  query fun t => do
    match (← t.node p).accessed? with
    | some time => return time
    | none => throw .linkLoop

def setAccessTime (p : Path) (time : Timestamp) : Effect FileTree SystemError Unit := do
  let t ← get
  let l ← Effect.ofExcept (t.locate p)
  match t.find? l with
  | some (.file content mode _) => set (t.put l (.file content mode time))
  | some (.directory _) => set (t.put l (.directory time))
  | _ => throw .noEntry

/-- The entry that a path names, if it names one. -/
def slot (otherwise : SystemError) (p : Path) : Effect FileTree SystemError Location := do
  match ← query (·.slot? p) with
  | some l => return l
  | none => throw otherwise

/-- Removes a directory with all that it holds; of a link, only the link itself. -/
def removeTree (p : Path) : Effect FileTree SystemError Unit := do
  let l ← slot .busy p
  let t ← get
  match t.find? l with
  | some (.directory _) | some (.link _) => set (t.clear l)
  | some (.file _ _ _) => throw .notADirectory
  | none => throw .noEntry

def removeFile (p : Path) : Effect FileTree SystemError Unit := do
  let l ← slot .isADirectory p
  let t ← get
  match t.find? l with
  | some (.directory _) => throw .isADirectory
  | some _ => if p.endsInSlash then throw .notADirectory else set (t.clear l)
  | none => throw .noEntry

def makeDirectory (p : Path) : Effect FileTree SystemError Unit := do
  let l ← slot .alreadyExists p
  let t ← get
  if (t.find? l).isSome then throw .alreadyExists
  set (t.put l (.directory t.now))

def makeLink (target p : Path) : Effect FileTree SystemError Unit := do
  let l ← slot .alreadyExists p
  let t ← get
  if (t.find? l).isSome then throw .alreadyExists
  set (t.put l (.link target))

/-- Makes sure of the first path, by means of the others, which are those above it. -/
def makeDirectoriesFrom : List Path → Effect FileTree SystemError Unit
  | [] => pure ()
  | p :: above => do
    let settle : Except SystemError Unit → Effect FileTree SystemError Unit
      | .ok () => pure ()
      | .error cause => do
        if (← get).isDirectory p then pure () else throw cause
    match ← (makeDirectory p).attempt with
    | .error .noEntry =>
      makeDirectoriesFrom above
      settle (← (makeDirectory p).attempt)
    | outcome => settle outcome

/-- Makes sure that a directory stands at a path, and makes those above it that are missing. -/
def makeDirectories (p : Path) : Effect FileTree SystemError Unit :=
  makeDirectoriesFrom p.withAbove

/-- Moves an entry from one directory to another. It replaces a file by what is no directory, and an
empty directory by a directory. Nothing is moved from one filesystem to another. -/
def rename (source destination : Path) : Effect FileTree SystemError Unit := do
  let l ← slot .busy source
  let target ← slot .busy destination
  let t ← get
  if t.filesystem l.dropLast ≠ t.filesystem target.dropLast then throw .crossDevice
  match t.find? l with
  | none => throw .noEntry
  | some node =>
    if !node.isDirectory && (source.endsInSlash || destination.endsInSlash) then
      throw .notADirectory
    if l = target then return
    if l.isPrefixOf target then throw .invalidArgument
    if target.isPrefixOf l then throw .notEmpty
    match t.find? target with
    | none => pure ()
    | some old =>
      if old.isDirectory && !node.isDirectory then throw .isADirectory
      if node.isDirectory && !old.isDirectory then throw .notADirectory
      if !(t.children target).isEmpty then throw .notEmpty
    set (t.move l target)

/-- Where a file can be written that need not exist yet. -/
def writable (p : Path) : Effect FileTree SystemError Location := do
  if p.endsInSlash then
    let _ ← slot .isADirectory p
    throw .isADirectory
  let l ← query fun t => do
    requirePath p
    t.walk true linkLimit [] p.steps
  match (← get).find? l with
  | some (.directory _) => throw .isADirectory
  | _ => return l

/-- Empties a file and sets its permission bits; a missing one is made. -/
def openFile (p : Path) (mode : Nat) : Effect FileTree SystemError Location := do
  let l ← writable p
  let t ← get
  let accessed := ((t.find? l).bind (·.accessed?)).getD t.now
  set (t.put l (.file [] mode accessed))
  return l

def append (l : Location) (bytes : List UInt8) : Effect FileTree SystemError Unit := do
  let t ← get
  match t.find? l with
  | some (.file content mode accessed) => set (t.put l (.file (content ++ bytes) mode accessed))
  | _ => throw .noEntry

def writeFile (p : Path) (content : List UInt8) (mode : Nat) :
    Effect FileTree SystemError Unit := do
  append (← openFile p mode) content

/-- Makes sure that a path can be handed to the system. -/
def requirePlain (p : Path) : Effect FileTree IoError Unit := do
  if p.text.toList.contains '\x00' then throw .nulInPath

/-- A step on a path that can be handed to the system. -/
def onPath {α : Type} (p : Path) (step : Effect FileTree SystemError α) :
    Effect FileTree IoError α := do
  requirePlain p
  step.mapError .system

/-- Only files are copied. -/
def notCopied : IoError :=
  .custom .invalidInput "the source path is neither a regular file nor a symlink to a regular file"

/-- Copies the content and the permission bits of a file over another one. The other one is emptied
first, so a file that is copied over itself is empty afterwards. -/
def copy (source destination : Path) : Effect FileTree IoError Unit := do
  let l ← onPath source (query (·.locate source))
  match (← get).find? l with
  | some (.file _ mode _) =>
    let target ← onPath destination (openFile destination mode)
    match (← get).find? l with
    | some (.file content _ _) => (append target content).mapError .system
    | _ => pure ()
  | some _ => throw notCopied
  | none => throw (.system .noEntry)

end RemoteAgent.FileTree
