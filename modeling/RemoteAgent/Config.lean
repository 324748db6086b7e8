import RemoteAgent.Bundle.Error
import RemoteAgent.Decimal.Binary64
import RemoteAgent.Duration
import RemoteAgent.Path
import RemoteAgent.Text.Basic

/-!
# Configuration of dials

Defaults, overridden by variables of the environment. Every variable sets one field.
-/

namespace RemoteAgent

/-- Settings of the clients that carry commands and files. -/
structure TransportOptions where
  /-- In seconds. -/
  sshConnectTimeout : Nat
  /-- The program that reaches peers of a gateway. -/
  ipfsHelper : String
  deriving DecidableEq, Repr

def TransportOptions.default : TransportOptions where
  sshConnectTimeout := 5
  ipfsHelper := "tether-ipfs"

/-- How long a process is given to end by itself unless something else is set. -/
def defaultKillDelay : Duration :=
  .ofSeconds 5

/-- A variable of the environment with a value that cannot be used. -/
structure ConfigError where
  name : String
  value : String
  deriving DecidableEq, Repr

def ConfigError.message (e : ConfigError) : String :=
  s!"Invalid value for {e.name}: {e.value}"

structure Config where
  /-- The bundle, if it is not the one beside the running program. -/
  bundlePath : Option Path
  killDelay : Duration
  agentLogLevel : String
  transport : TransportOptions
  deriving DecidableEq, Repr

namespace Config

def bundleVariable : String := "TETHER_AGENT_BUNDLE"

def timeoutVariable : String := "TETHER_SSH_CONNECT_TIMEOUT"

def killDelayVariable : String := "TETHER_KILL_DELAY"

def logLevelVariable : String := "TETHER_AGENT_LOG_LEVEL"

def helperVariable : String := "TETHER_IPFS_HELPER"

/-- The name of the bundle beside the running program. -/
def bundleName : String := "tether-agents.tar.gz"

def default : Config where
  bundlePath := none
  killDelay := defaultKillDelay
  agentLogLevel := "info"
  transport := .default

/-- A count of seconds: an optional plus sign and digits for a number of 64 bits, between white
space. -/
def timeout? (value : String) : Option Nat :=
  Numeral.ofSigned? 10 Numeral.wordLimit (Text.trimBlanks value.toList)

/-- The length of time nearest to a number of seconds, if it is not negative and has a whole number
of seconds of at most 64 bits. -/
def duration? : Binary64 → Option Duration
  | .finite negative mantissa exponent =>
    if negative ∧ mantissa ≠ 0 then none
    else
      let (num, den) := Binary64.scale mantissa 1 exponent
      if Numeral.wordLimit * den ≤ num then none
      else some ⟨roundQuotient (num * Duration.nanosecondsPerSecond) den⟩
  | _ => none

/-- A number of seconds, between white space. -/
def killDelay? (value : String) : Option Duration :=
  (Binary64.ofText? (Text.trimBlanks value.toList)).bind duration?

/-- The value of a variable read in some way, or the default if it is not set. -/
def setting {α : Type} (lookup : String → Option String) (name : String)
    (read : String → Option α) (default : α) : Except ConfigError α :=
  match lookup name with
  | none => .ok default
  | some value =>
    match read value with
    | some a => .ok a
    | none => .error { name, value }

def ofVariables (lookup : String → Option String) : Except ConfigError Config := do
  let sshConnectTimeout ←
    setting lookup timeoutVariable timeout? default.transport.sshConnectTimeout
  let killDelay ← setting lookup killDelayVariable killDelay? default.killDelay
  return {
    bundlePath := ((lookup bundleVariable).map Path.mk).or default.bundlePath
    killDelay
    agentLogLevel := (lookup logLevelVariable).getD default.agentLogLevel
    transport := {
      sshConnectTimeout
      ipfsHelper := (lookup helperVariable).getD default.transport.ipfsHelper } }

/-- The bundle: the one set, or the one beside the running program. -/
def resolvedBundlePath (c : Config) (executable : Path) : Except BundleError Path :=
  match c.bundlePath with
  | some path => .ok path
  | none =>
    match executable.parent? with
    | some directory => .ok (directory.join bundleName)
    | none =>
      .error (.io (.custom .notFound "current executable has no parent directory"))

end Config

end RemoteAgent
