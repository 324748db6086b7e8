import RemoteAgent.Connection.Basic
import RemoteAgent.Dial.Greeting
import RemoteAgent.Dial.World
import RemoteAgent.Invocation

/-!
# Attempts to reach an agent

An attempt starts the agent on the far side and greets it. If that fails, the connection is closed
and the failure says what to do about it.
-/

namespace RemoteAgent.Dial

structure FailedAttempt where
  failure : Invocation.Failure
  error : DialError
  deriving DecidableEq, Repr

namespace FailedAttempt

/-- A failure that nothing can be done about. -/
def final (error : DialError) : FailedAttempt :=
  ⟨.other, error⟩

/-- What a failed greeting means, once the connection is closed. A version mismatch is final. -/
def ofGreeting (cause : DialError) (status : Option ExitStatus) (errorOutput : String) :
    FailedAttempt :=
  match cause with
  | .versionMismatch _ _ => final cause
  | cause =>
    let failure := Invocation.classify (status.bind (·.code?)) errorOutput
    match status with
    | some status =>
      if status.isSuccess then ⟨failure, cause⟩
      else ⟨failure, .agentFailed status.text (Text.trim errorOutput)⟩
    | none => ⟨failure, cause⟩

end FailedAttempt

variable {ω κ : Type}

/-- Starts the agent and greets it. -/
def attempt (t : Transport (World ω) κ) (s : Setting) (paths : PathSyntax) :
    Effect (World ω) FailedAttempt Connection := do
  let line := Invocation.commandLine s.own paths s.config.agentLogLevel
  let prepared ← (t.command line).mapError fun e => .final (.transport e)
  let process ← (t.start prepared).mapError fun e => .final (.connection (.io e))
  World.note .agentStarted
  match greet s.own (.new process s.config.killDelay) with
  | (.ok (), connection) => return connection
  | (.error cause, connection) =>
    let (status, connection) := connection.close
    World.note (.agentClosed status.toOption)
    throw (.ofGreeting cause status.toOption connection.errorOutput)

end RemoteAgent.Dial
