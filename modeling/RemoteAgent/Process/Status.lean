/-!
# Exit statuses
-/

namespace RemoteAgent

inductive ExitStatus where
  | exited (code : Nat)
  | signaled (signal : Nat) (coreDumped : Bool := false)
  deriving DecidableEq, Repr

namespace ExitStatus

def killed : ExitStatus :=
  .signaled 9

def isSuccess (s : ExitStatus) : Bool :=
  s = .exited 0

/-- The exit code, if no signal ended the process. -/
def code? : ExitStatus → Option Int
  | exited code => some code
  | signaled _ _ => none

/-- The names of signals from 1 on. -/
def signalNames : List String := [
  "SIGHUP", "SIGINT", "SIGQUIT", "SIGILL", "SIGTRAP", "SIGABRT", "SIGBUS", "SIGFPE", "SIGKILL",
  "SIGUSR1", "SIGSEGV", "SIGUSR2", "SIGPIPE", "SIGALRM", "SIGTERM", "SIGSTKFLT", "SIGCHLD",
  "SIGCONT", "SIGSTOP", "SIGTSTP", "SIGTTIN", "SIGTTOU", "SIGURG", "SIGXCPU", "SIGXFSZ",
  "SIGVTALRM", "SIGPROF", "SIGWINCH", "SIGIO", "SIGPWR", "SIGSYS"]

def signalName? : Nat → Option String
  | 0 => none
  | n + 1 => signalNames[n]?

def text : ExitStatus → String
  | exited code => s!"exit status: {code}"
  | signaled signal coreDumped =>
    let name := match signalName? signal with
      | some name => s!" ({name})"
      | none => ""
    s!"signal: {signal}" ++ name ++ if coreDumped then " (core dumped)" else ""

end ExitStatus

end RemoteAgent
