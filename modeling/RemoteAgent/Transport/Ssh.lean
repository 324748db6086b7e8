import RemoteAgent.Command
import RemoteAgent.Endpoint.Basic
import RemoteAgent.Transport.Basic

/-!
# Transport over secure shell

Commands go through `ssh` and files through `scp`. Questions of these clients are routed back to a
registered prompter, through the running program; without one they must not be asked at all.
-/

namespace RemoteAgent

structure Ssh where
  endpoint : Endpoint
  /-- In seconds. -/
  connectTimeout : Nat
  /-- The identifier of a registered prompter. -/
  prompter : Option String

namespace Ssh

def prompterVariable : String := "TETHER_PROMPTER"

def askpassVariable : String := "SSH_ASKPASS"

/-- The client asks through a program only if there is a display. -/
def displayVariable : String := "DISPLAY"

def displayValue : String := "tether"

/-- The arguments that both clients are given first; they have different flags for a port. -/
def commonArguments (s : Ssh) (portFlag : String) : List String :=
  s!"-oConnectTimeout={s.connectTimeout}" ::
    match s.endpoint.port with
    | some port => [portFlag, toString port]
    | none => []

/-- How the questions of a client are routed back: the program that it is to ask through, and the
identifier of the prompter. -/
structure Askpass where
  executable : Path
  prompter : String
  deriving DecidableEq, Repr

/-- The running program has to be located if there is a prompter. -/
def askpass (s : Ssh) (executable : Except IoError Path) :
    Except TransportError (Option Askpass) :=
  match s.prompter with
  | some prompter =>
    match executable with
    | .ok executable => .ok (some ⟨executable, prompter⟩)
    | .error cause =>
      .error (.configuration ("unable to locate executable for askpass: " ++ cause.message))
  | none => .ok none

def configure (askpass : Option Askpass) (c : Command) : Command :=
  match askpass with
  | some askpass =>
    ((c.withVariable askpassVariable askpass.executable.text).withVariable displayVariable
      displayValue).withVariable prompterVariable askpass.prompter
  | none => c.withoutVariable askpassVariable

def shellCommand (s : Ssh) (askpass : Option Askpass) (line : String) : Command :=
  configure askpass (.new "ssh" (s.commonArguments "-p" ++ [s.endpoint.remoteTarget, line]))

def copyCommand (s : Ssh) (askpass : Option Askpass) (source : Path) (name : String) : Command :=
  configure askpass
    (.new "scp" (s.commonArguments "-P" ++ [source.text, s.endpoint.remoteTarget ++ ":" ++ name]))

/-- Where questions cannot be routed back, there is no transport, and every use of it fails. -/
def transport {ω : Type} (s : Ssh) (host : Host ω) : Transport ω Command where
  copy file name := do
    let askpass ← Effect.ofExcept (s.askpass host.executable)
    let _ ← runToEnd (host.start (s.copyCommand askpass file.path name))
  command line := do
    let askpass ← Effect.ofExcept (s.askpass host.executable)
    return s.shellCommand askpass line
  start := host.start

/-- Creates the transport, for which it must be known how questions are routed back. -/
def create {ω : Type} (s : Ssh) (host : Host ω) : Except TransportError (Transport ω Command) := do
  let _ ← s.askpass host.executable
  return s.transport host

end Ssh

end RemoteAgent
