import RemoteAgent.FileTree.Operations

/-!
# Furnished file trees

File trees are set up item by item.
-/

namespace RemoteAgent.Rehearsal

inductive Item where
  | file (content : List UInt8) (mode : Nat)
  | directory
  | link (target : Path)
  deriving DecidableEq, Repr

namespace Item

def make (p : Path) : Item → Effect FileTree SystemError Unit
  | file content mode => FileTree.writeFile p content mode
  | directory => FileTree.makeDirectories p
  | link target => FileTree.makeLink target p

end Item

/-- Makes an item at a path, with the directories above it, and sets when it was last accessed. What
cannot be done is left out. -/
def furnish (p : Path) (item : Item) (accessed : Option Timestamp) (t : FileTree) : FileTree :=
  let above := match p.parent? with
    | some parent => FileTree.makeDirectories parent
    | none => pure ()
  let access := match accessed with
    | some time => FileTree.setAccessTime p time
    | none => pure ()
  [above, item.make p, access].foldl (fun t step => (step.outcome t).2) t

end RemoteAgent.Rehearsal
