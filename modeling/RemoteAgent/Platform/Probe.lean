import RemoteAgent.Platform.WindowsEnvironment
import RemoteAgent.Transport.Basic

/-!
# Finding out the platform

First the far side is taken for a POSIX shell and asked for its `uname`; if that fails in any way,
it is taken for a Windows shell and asked for its environment. -/

namespace RemoteAgent.Platform

variable {ω κ : Type}

def posixMessage : String := "Probing endpoint (POSIX)..."

def posixLine : String := "uname -s -m"

def windowsMessage : String := "Probing endpoint (Windows)..."

def windowsLine : String := "cmd /c set"

/-- Runs a command line and reads its output. -/
def ask (t : Transport ω κ) (line : String) (read : String → Except ProbeError Platform) :
    Effect ω ProbeError Platform := do
  let output ← (t.run line).mapError .transport
  Effect.ofExcept (read output)

def probe (t : Transport ω κ) (p : Prompter ω) : Effect ω ProbeError Platform := do
  (p.message posixMessage).mapError .notify
  match ← (ask t posixLine ofUname).attempt with
  | .ok platform => return platform
  | .error posix =>
    (p.message windowsMessage).mapError .notify
    match ← (ask t windowsLine ofWindowsEnvironment).attempt with
    | .ok platform => return platform
    | .error windows => throw (.exhausted posix windows)

end RemoteAgent.Platform
