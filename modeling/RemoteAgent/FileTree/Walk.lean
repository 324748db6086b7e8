import RemoteAgent.FileTree.Basic
import RemoteAgent.IoError

/-!
# Where paths lead

A path is walked step by step; every step starts from a directory, and links are followed on the
way. Relative paths start at the root. -/

namespace RemoteAgent

/-- The steps of a path; a slash or a `.` at the end asks for a directory. -/
def Path.steps (p : Path) : List Path.Component :=
  p.components ++ if p.endsInDot || p.endsInSlash then [.here] else []

namespace FileTree

/-- No name has more bytes. -/
def nameLimit : Nat := 255

/-- Every path has fewer bytes. -/
def pathLimit : Nat := 4096

/-- No more links are followed on one way. -/
def linkLimit : Nat := 40

/-- Makes sure that a directory stands at a location. -/
def requireDirectory (t : FileTree) (l : Location) : Except SystemError Unit :=
  match t.find? l with
  | some (.directory _) => .ok ()
  | some _ => .error .notADirectory
  | none => .error .noEntry

def requireName (name : String) : Except SystemError Unit :=
  if nameLimit < name.utf8ByteSize then .error .nameTooLong else .ok ()

def requirePath (p : Path) : Except SystemError Unit :=
  if p.text.isEmpty then .error .noEntry
  else if pathLimit ≤ p.text.utf8ByteSize then .error .nameTooLong
  else .ok ()

/-- Takes steps from a location, and follows up to `links` links. If it may be new, the last
location need not have anything in it. -/
def walk (t : FileTree) (mayBeNew : Bool) (links : Nat) (l : Location) :
    List Path.Component → Except SystemError Location
  | [] => .ok l
  | .root :: rest => walk t mayBeNew links [] rest
  | .here :: rest => do
    t.requireDirectory l
    walk t mayBeNew links l rest
  | .up :: rest => do
    t.requireDirectory l
    walk t mayBeNew links l.dropLast rest
  | .name cs :: rest => do
    t.requireDirectory l
    let name := String.ofList cs
    requireName name
    match t.find? (l ++ [name]) with
    | some (.link target) =>
      match links with
      | 0 => .error .linkLoop
      | links + 1 => walk t mayBeNew links l (target.steps ++ rest)
    | some _ => walk t mayBeNew links (l ++ [name]) rest
    | none => if mayBeNew && rest.isEmpty then .ok (l ++ [name]) else .error .noEntry
termination_by steps => (links, steps.length)

/-- Where a path leads. -/
def locate (t : FileTree) (p : Path) : Except SystemError Location := do
  requirePath p
  t.walk false linkLimit [] p.steps

def node (t : FileTree) (p : Path) : Except SystemError Node := do
  match t.find? (← t.locate p) with
  | some node => return node
  | none => throw .noEntry

def isDirectory (t : FileTree) (p : Path) : Bool :=
  match t.node p with
  | .ok node => node.isDirectory
  | .error _ => false

/-- Where a path leads if a link at its end is not followed. Something need not stand there, but it
has a name in a directory; paths that end in `.` or `..` or at the root name nothing of this kind.
-/
def slot? (t : FileTree) (p : Path) : Except SystemError (Option Location) := do
  requirePath p
  let named := p.components
  match named.getLast? with
  | some (.name cs) =>
    let directory ← t.walk false linkLimit [] (if p.endsInDot then named else named.dropLast)
    t.requireDirectory directory
    if p.endsInDot then return none
    requireName (String.ofList cs)
    return some (directory ++ [String.ofList cs])
  | _ =>
    t.requireDirectory (← t.walk false linkLimit [] named.dropLast)
    return none

end FileTree

end RemoteAgent
