import RemoteAgent.Bundle.TemporaryDirectory
import RemoteAgent.Effect
import RemoteAgent.Path
import RemoteAgent.Process.Basic
import RemoteAgent.Text.Utf8
import RemoteAgent.Text.Basic
import RemoteAgent.Transport.Error

/-!
# Transports

A transport copies files to one far side and prepares commands that run there. What it prepares is
started separately.
-/

namespace RemoteAgent

/-- A local file that is to be copied: its path, and the file that stands there, if it is one of
this program. -/
structure LocalFile where
  path : Path
  file : Option TemporaryFile
  deriving DecidableEq, Repr

/-- A transport in a world of type `ω`, whose commands are prepared as a `κ`. -/
structure Transport (ω κ : Type) where
  /-- Copies a file to a name below the remote working directory. -/
  copy : LocalFile → String → Effect ω TransportError Unit
  command : String → Effect ω TransportError κ
  /-- Starts what was prepared. -/
  start : κ → Effect ω IoError Process

/-- What is left of a process that was given no input and has ended: its output if it succeeded, or
else its trimmed error output. Both are decoded with replacements. -/
def Process.result (p : Process) : Except TransportError String :=
  if p.finalStatus.isSuccess then .ok (Text.decodeLossy (p.output [] true))
  else
    .error (.commandFailed (p.finalStatus.code?.getD (-1))
      (Text.trim (Text.decodeLossy p.errorOutput.flatten)))

/-- Starts a process and runs it to its end. -/
def runToEnd {ω : Type} (start : Effect ω IoError Process) : Effect ω TransportError String := do
  let p ← start.mapError .io
  Effect.ofExcept p.result

namespace Transport

variable {ω ν κ : Type}

def run (t : Transport ω κ) (line : String) : Effect ω TransportError String := do
  let prepared ← t.command line
  runToEnd (t.start prepared)

/-- A transport in a part of the world. -/
def within (part : ω → ν) (replace : ω → ν → ω) (t : Transport ν κ) : Transport ω κ where
  copy file name := (t.copy file name).within part replace
  command line := (t.command line).within part replace
  start prepared := (t.start prepared).within part replace

end Transport

end RemoteAgent
