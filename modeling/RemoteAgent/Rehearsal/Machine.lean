import RemoteAgent.Command
import RemoteAgent.FileTree.Walk
import RemoteAgent.Rehearsal.Stage

/-!
# Rehearsed machines

A machine on a stage has a few programs, whose processes follow the rules of the stage, and a record
is kept of every process that is started.
-/

namespace RemoteAgent.Rehearsal

/-- A process that was started, and the directory that it was started in, if that is another one
than its parent's. -/
structure Launch where
  command : Command
  directory : Option Location
  deriving DecidableEq, Repr

structure Scene where
  stage : Stage
  launches : List Launch

namespace Scene

def start (stage : Stage) : Scene :=
  ⟨stage, []⟩

def prompter (p : Prompter Stage) : Prompter Scene :=
  p.within Scene.stage fun s stage => { s with stage }

end Scene

structure Machine where
  executable : Path
  /-- The programs that can be started by name. -/
  programs : List String
  files : FileTree

namespace Machine

/-- The directory that a command asks for. -/
def directory (m : Machine) (c : Command) : Except SystemError (Option Location) :=
  match c.directory with
  | none => .ok none
  | some p => do
    let l ← m.files.locate p
    m.files.requireDirectory l
    return some l

/-- Whether a program can be started. A path leads to no program, and what it leads to instead
cannot be executed; nor can a directory that is looked for by its name. -/
def findProgram (m : Machine) (program : String) : Except SystemError Unit :=
  if m.programs.contains program then .ok ()
  else if program = "." || program = ".." then .error .accessDenied
  else if program.toList.contains '/' then do
    let _ ← m.files.node ⟨program⟩
    throw .accessDenied
  else if FileTree.nameLimit < program.utf8ByteSize then .error .nameTooLong
  else .error .noEntry

/-- The line that the rules are matched with. -/
def line (c : Command) : String :=
  " ".intercalate (c.program :: c.arguments)

def host (m : Machine) : Host Scene where
  executable := .ok m.executable
  start c := do
    if c.hasNul then throw .nulCharacter
    let directory ← Effect.ofExcept ((m.directory c).mapError .system)
    Effect.ofExcept ((m.findProgram c.program).mapError .system)
    let s : Scene ← get
    let (reaction, rules) := Rule.answer (.process .notFound) (line c) s.stage.rules
    match reaction with
    | .process reply =>
      set { s with
        stage := { s.stage with rules }
        launches := s.launches ++ [Launch.mk c directory] }
      return reply.process
    | .refused _ | .noProgram =>
      set { s with stage := { s.stage with rules } }
      throw (.system .noEntry)

end Machine

end RemoteAgent.Rehearsal
