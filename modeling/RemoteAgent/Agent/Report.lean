import RemoteAgent.Agent.Basic
import RemoteAgent.Agent.LogFilter

/-!
# Reports

A report says in what a failure happened, and lists its causes, the outermost first.
-/

namespace RemoteAgent

namespace AgentError

/-- The failure and what is behind it. -/
def chain (e : AgentError) : List String :=
  match e with
  | protocol cause =>
    match cause with
    | .truncated _ _ => [e.message, cause.message]
    | .io inner => [e.message, cause.message, inner.message]
  | versionMismatch _ _ | homeDirectory => [e.message]
  | io cause => [e.message, cause.message]

end AgentError

namespace Agent

structure Report where
  context : String
  causes : List String
  deriving DecidableEq, Repr

namespace Report

def ofError (context : String) (e : AgentError) : Report :=
  ⟨context, e.chain⟩

/-- The lines for causes, numbered from `n` on. -/
def numbered (n : Nat) : List String → List String
  | [] => []
  | cause :: rest => s!"    {n}: {cause}" :: numbered (n + 1) rest

/-- A single cause has no number. -/
def causeLines : List String → List String
  | [cause] => ["    " ++ cause]
  | causes => numbered 0 causes

def text (r : Report) : String :=
  "Error: " ++ r.context ++ "\n" ++
    if r.causes.isEmpty then ""
    else "\nCaused by:\n" ++ String.join ((causeLines r.causes).map (· ++ "\n"))

end Report

end Agent

end RemoteAgent
