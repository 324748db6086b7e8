import RemoteAgent.Agent.Basic
import RemoteAgent.FileProgram

/-!
# Housekeeping

A version of the agent whose executable nobody has used for a month is removed. The version that
keeps house is not, however long it has been idle, and nor is anything that is no directory of a
version. -/

namespace RemoteAgent.Agent

/-- An agent may be idle for so long. -/
def maximumIdle : Duration :=
  .ofSeconds (30 * 24 * 60 * 60)

/-- The time from one sweep to the next. -/
def sweepInterval : Duration :=
  .ofSeconds (24 * 60 * 60)

/-- Whether something that was last accessed at some time has been idle for too long. -/
def isIdle (now accessed : Timestamp) : Bool :=
  maximumIdle.nanoseconds < (now.since accessed).nanoseconds

/-- Removes an entry of the agents directory if it is an idle version. What cannot be looked at or
removed stays. -/
def sweepEntry (agents : Path) (now : Timestamp) (e : FileTree.Entry) :
    FileProgram (Option Path) := do
  if e.name = Version.current.text || !e.isDirectory then return none
  let directory := agents.join e.name
  match ← FileProgram.perform (.accessTime (directory.join (executableName ownSystem))) with
  | .error _ => return none
  | .ok accessed =>
    if !isIdle now accessed then return none
    match ← FileProgram.perform (.removeTree directory) with
    | .error _ => return none
    | .ok _ => return some directory

/-- Looks at entries one after the other and gives the directories that were removed. -/
def sweepEntries (agents : Path) (now : Timestamp) :
    List FileTree.Entry → FileProgram (List Path)
  | [] => return []
  | e :: rest => do
    let removed ← sweepEntry agents now e
    return removed.toList ++ (← sweepEntries agents now rest)

/-- Removes idle versions from the agents directory and gives their directories. Where there is no
agents directory there is nothing to do. -/
def housekeep (agents : Path) (now : Timestamp) :
    FileProgram (Except AgentError (List Path)) := do
  match ← FileProgram.perform (.list agents) with
  | .error cause =>
    if cause.kind = .notFound then return .ok [] else return .error (.io cause)
  | .ok entries => return .ok (← sweepEntries agents now entries)

/-- Sweeps as often as given. -/
def housekeepTimes (agents : Path) (now : Timestamp) : Nat → FileProgram Unit
  | 0 => return ()
  | n + 1 => do
    let _ ← housekeep agents now
    housekeepTimes agents now n

/-- The housekeeping of an agent that serves: how long it has been kept, and the sweeps made. -/
structure Housekeeper where
  elapsed : Duration
  sweeps : Nat
  deriving DecidableEq, Repr

namespace Housekeeper

def start : Housekeeper :=
  ⟨⟨0⟩, 0⟩

/-- How many sweeps are made in some time: one at once, and one after each interval. -/
def due (elapsed : Duration) : Nat :=
  if elapsed.nanoseconds = 0 then 0
  else elapsed.nanoseconds / sweepInterval.nanoseconds + 1

/-- Lets some time pass and makes the sweeps that fall due. -/
def pass (h : Housekeeper) (agents : Path) (now : Timestamp) (time : Duration) :
    FileProgram Housekeeper := do
  let elapsed : Duration := ⟨h.elapsed.nanoseconds + time.nanoseconds⟩
  housekeepTimes agents now (due elapsed - h.sweeps)
  return { elapsed, sweeps := due elapsed }

end Housekeeper

end RemoteAgent.Agent
