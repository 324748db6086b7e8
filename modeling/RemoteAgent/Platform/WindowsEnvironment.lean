import RemoteAgent.Platform.Uname
import RemoteAgent.Platform.EnvironmentDump

/-!
# Platforms named by a Windows environment

The output of `cmd /c set` names the system and the architecture.
-/

namespace RemoteAgent.Platform

def windowsSystems : List (String × String) :=
  [("Windows_NT", "windows")]

def windowsArchitectures : List (String × String) :=
  [("x86", "386"), ("AMD64", "amd64")]

/-- The platform that the output of `cmd /c set` names. -/
def ofWindowsEnvironment (output : String) : Except ProbeError Platform :=
  match EnvironmentDump.value? output "OS",
    EnvironmentDump.value? output "PROCESSOR_ARCHITECTURE" with
  | none, _ => .error (.malformedOutput "OS is not set")
  | _, none => .error (.malformedOutput "PROCESSOR_ARCHITECTURE is not set")
  | some system, some machine =>
    match listed? windowsSystems system, listed? windowsArchitectures machine with
    | none, _ => .error (.unrecognizedOs system)
    | _, none => .error (.unrecognizedArch machine)
    | some os, some arch => .ok { os, arch, posix := false }

end RemoteAgent.Platform
