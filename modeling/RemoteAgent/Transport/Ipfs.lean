import RemoteAgent.Command
import RemoteAgent.Endpoint.Basic
import RemoteAgent.Transport.Basic

/-!
# Transport through a gateway

A helper program runs commands on peers of a gateway and copies files to them. It is started in the
directory of the file that it copies.
-/

namespace RemoteAgent

structure Ipfs where
  endpoint : Endpoint
  helper : String

namespace Ipfs

/-- The variables of an endpoint that the helper is given. -/
def variableNames : List String :=
  ["IPFS_PATH"]

def helperCommand (i : Ipfs) (arguments : List String) : Command :=
  (Command.new i.helper arguments).withVariables (i.endpoint.resolve variableNames)

def execCommand (i : Ipfs) (line : String) : Command :=
  i.helperCommand ["exec", i.endpoint.hostname, line]

/-- The command that copies a file, which is found by its name in its directory. -/
def copyCommand (i : Ipfs) (source : Path) (name : String) : Except TransportError Command :=
  if !source.isAbsolute then
    .error (.configuration ("IPFS copy source must be absolute: " ++ source.text))
  else
    match source.parent?, source.fileName? with
    | some directory, some file =>
      .ok ((i.helperCommand ["cp", "-r", file, i.endpoint.hostname ++ ":" ++ name]).inDirectory
        directory)
    | _, _ => .error (.configuration ("IPFS copy source has no file name: " ++ source.text))

def transport {ω : Type} (i : Ipfs) (host : Host ω) : Transport ω Command where
  copy file name := do
    let c ← Effect.ofExcept (i.copyCommand file.path name)
    let _ ← runToEnd (host.start c)
  command line := return i.execCommand line
  start := host.start

end Ipfs

end RemoteAgent
