import RemoteAgent.Transport.Error
import RemoteAgent.Text.Quoted

/-!
# Platforms

A platform is an operating system, an architecture, and whether its shell is a POSIX one, which it
can be on Windows too.
-/

namespace RemoteAgent

structure Platform where
  os : String
  arch : String
  posix : Bool
  deriving DecidableEq, Repr

def Platform.bundleEntry (p : Platform) : String :=
  p.os ++ "_" ++ p.arch

inductive ProbeError where
  | notify (cause : PromptError)
  | transport (cause : TransportError)
  | malformedOutput (output : String)
  | unrecognizedOs (name : String)
  | unrecognizedArch (name : String)
  /-- Neither kind of shell answered. -/
  | exhausted (posix windows : ProbeError)
  deriving DecidableEq, Repr

def ProbeError.message : ProbeError → String
  | notify cause => "unable to send status notification: " ++ cause.message
  | transport cause => "probe command failed: " ++ cause.message
  | malformedOutput output => "malformed probe output: " ++ Text.quoted output
  | unrecognizedOs name => "unrecognized operating system: " ++ name
  | unrecognizedArch name => "unrecognized architecture: " ++ name
  | exhausted posix windows =>
    s!"unable to probe platform (POSIX: {posix.message}; Windows: {windows.message})"

end RemoteAgent
