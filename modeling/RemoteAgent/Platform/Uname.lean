import RemoteAgent.Platform.Basic
import RemoteAgent.Text.Basic

/-!
# Platforms named by `uname`

The output of `uname -s -m` is two words: a system and a machine.
-/

namespace RemoteAgent.Platform

/-- The value listed for a name. -/
def listed? (table : List (String × String)) (name : String) : Option String :=
  (table.find? (·.1 = name)).map (·.2)

def unameSystems : List (String × String) := [
  ("Linux", "linux"),
  ("Darwin", "darwin"),
  ("FreeBSD", "freebsd"),
  ("NetBSD", "netbsd"),
  ("OpenBSD", "openbsd"),
  ("DragonFly", "dragonfly"),
  ("SunOS", "solaris"),
  ("Plan9", "plan9")]

/-- How the names of POSIX environments on Windows begin. -/
def windowsPosixPrefixes : List String :=
  ["CYGWIN", "MINGW", "MSYS"]

def unameMachines : List (String × String) := [
  ("i386", "386"),
  ("i486", "386"),
  ("i586", "386"),
  ("i686", "386"),
  ("i86pc", "amd64"),
  ("x86_64", "amd64"),
  ("amd64", "amd64"),
  ("armv5l", "arm"),
  ("armv6l", "arm"),
  ("armv7l", "arm"),
  ("armv8l", "arm"),
  ("aarch64", "arm64"),
  ("arm64", "arm64"),
  ("mips", "mips"),
  ("mipsel", "mipsle"),
  ("mips64", "mips64"),
  ("mips64el", "mips64le"),
  ("ppc64", "ppc64"),
  ("ppc64le", "ppc64le"),
  ("s390x", "s390x")]

/-- Whether a system name denotes Windows reached through a POSIX shell. -/
def isWindowsPosixShell (os : String) : Bool :=
  windowsPosixPrefixes.any fun p => p.toList.isPrefixOf os.toList

/-- The platform that the output of `uname -s -m` names. -/
def ofUname (output : String) : Except ProbeError Platform :=
  match Text.words output.toList with
  | [system, machine] => do
    let system := String.ofList system
    let machine := String.ofList machine
    let os ←
      if isWindowsPosixShell system then pure "windows"
      else
        match listed? unameSystems system with
        | some os => pure os
        | none => throw (.unrecognizedOs system)
    match listed? unameMachines machine with
    | some arch => return { os, arch, posix := true }
    | none => throw (.unrecognizedArch machine)
  | _ => .error (.malformedOutput output)

end RemoteAgent.Platform
