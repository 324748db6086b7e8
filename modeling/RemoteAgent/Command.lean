import RemoteAgent.Effect
import RemoteAgent.Path
import RemoteAgent.Process.Basic
import RemoteAgent.SortedMap
import RemoteAgent.IoError

/-!
# Commands

A command is a program with arguments, changes to the environment and perhaps a working directory. A
host starts commands.
-/

namespace RemoteAgent

structure Command where
  program : String
  arguments : List String
  /-- What is set on the environment, and with no value what is removed from it. -/
  environment : SortedMap (Option String)
  directory : Option Path
  deriving DecidableEq, Repr

namespace Command

def new (program : String) (arguments : List String) : Command where
  program := program
  arguments := arguments
  environment := .empty
  directory := none

def withVariable (c : Command) (name value : String) : Command :=
  { c with environment := c.environment.insert name (some value) }

def withVariables (c : Command) (settings : List (String × String)) : Command :=
  settings.foldl (fun c v => c.withVariable v.1 v.2) c

def withoutVariable (c : Command) (name : String) : Command :=
  { c with environment := c.environment.insert name none }

def inDirectory (c : Command) (directory : Path) : Command :=
  { c with directory := some directory }

/-- What the process finds under a name, given what its parent has. -/
def seen? (c : Command) (inherited : String → Option String) (name : String) :
    Option String :=
  (c.environment.find? name).getD (inherited name)

/-- All texts that are handed to the system. -/
def texts (c : Command) : List String :=
  c.program :: c.arguments ++
    c.environment.entries.flatMap (fun (name, value) => name :: value.toList) ++
    (c.directory.map (·.text)).toList

/-- Whether a text holds a NUL character, so that the system cannot take it. -/
def hasNul (c : Command) : Bool :=
  c.texts.any fun s => s.toList.contains '\x00'

end Command

/-- The machine that this program runs on, in a world of type `ω`. -/
structure Host (ω : Type) where
  /-- Where the running program is, or why it cannot be located. -/
  executable : Except IoError Path
  start : Command → Effect ω IoError Process

end RemoteAgent
