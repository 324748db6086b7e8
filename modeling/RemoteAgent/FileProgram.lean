import RemoteAgent.FileTree.Operations

/-!
# Programs on files

A program is a tree of calls, each of which goes on with the outcome. It says nothing of what
carries out the calls: a file tree does, and so does an operating system, and the calls of two
programs may be carried out in turns. -/

namespace RemoteAgent

inductive FileCall where
  | list (directory : Path)
  /-- Asks when something was last accessed, following links. -/
  | accessTime (path : Path)
  /-- Removes a directory with all that it holds. -/
  | removeTree (directory : Path)
  /-- Makes a directory and those above it, unless they exist. -/
  | makeDirectories (directory : Path)
  | rename (source destination : Path)
  | copy (source destination : Path)
  | removeFile (path : Path)
  deriving DecidableEq, Repr

namespace FileCall

/-- What a call gives if it succeeds. -/
def Answer : FileCall → Type
  | list _ => List FileTree.Entry
  | accessTime _ => Timestamp
  | _ => Unit

def perform : (c : FileCall) → Effect FileTree IoError c.Answer
  | list directory => FileTree.onPath directory (FileTree.list directory)
  | accessTime path => FileTree.onPath path (FileTree.accessTime path)
  | removeTree directory => FileTree.onPath directory (FileTree.removeTree directory)
  | makeDirectories directory => FileTree.onPath directory (FileTree.makeDirectories directory)
  | rename source destination => do
    FileTree.requirePlain source
    FileTree.onPath destination (FileTree.rename source destination)
  | copy source destination => FileTree.copy source destination
  | removeFile path => FileTree.onPath path (FileTree.removeFile path)

end FileCall

inductive FileProgram (α : Type) where
  | done (result : α)
  | call (c : FileCall) (next : Except IoError c.Answer → FileProgram α)

namespace FileProgram

variable {α β : Type}

def bind : FileProgram α → (α → FileProgram β) → FileProgram β
  | done result, f => f result
  | call c next, f => call c fun outcome => (next outcome).bind f

instance : Monad FileProgram where
  pure := done
  bind := bind

theorem bind_done (p : FileProgram α) : p.bind done = p := by
  induction p with
  | done result => rfl
  | call c next ih => simp only [bind, ih]

theorem bind_assoc {γ : Type} (p : FileProgram α) (f : α → FileProgram β)
    (g : β → FileProgram γ) : (p.bind f).bind g = p.bind fun result => (f result).bind g := by
  induction p with
  | done result => rfl
  | call c next ih => simp only [bind, ih]

instance : LawfulMonad FileProgram := .mk' FileProgram
  (fun p => p.bind_done) (fun _ _ => rfl) (fun p f g => p.bind_assoc f g)

def perform (c : FileCall) : FileProgram (Except IoError c.Answer) :=
  call c done

def run : FileProgram α → FileTree → α × FileTree
  | done result, t => (result, t)
  | call c next, t => (next (c.perform.outcome t).1).run (c.perform.outcome t).2

theorem run_bind (p : FileProgram α) (f : α → FileProgram β) (t : FileTree) :
    (p >>= f).run t = (f (p.run t).1).run (p.run t).2 := by
  induction p generalizing t with
  | done result => rfl
  | call c next ih => exact ih _ _

end FileProgram

end RemoteAgent
