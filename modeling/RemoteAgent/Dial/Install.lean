import RemoteAgent.Agent.Basic
import RemoteAgent.Bundle.Extract
import RemoteAgent.Dial.Error
import RemoteAgent.Dial.World
import RemoteAgent.Platform.Probe

/-!
# Installing an agent on the far side

The platform is found out, its agent is taken from the bundle, copied under a name of its own, made
executable, and told to install itself. The local copy is removed as soon as it is not needed.
-/

namespace RemoteAgent.Dial

variable {ω κ : Type}

def extractMessage : String := "Extracting agent..."

def copyMessage : String := "Copying agent..."

def installMessage : String := "Installing agent..."

def tell (p : Prompter ω) (text : String) : Effect ω DialError Unit :=
  (p.message text).mapError .prompt

def remoteName (os : String) (id : Uuid) : String :=
  if os = "windows" then Agent.baseName ++ id.text ++ ".exe" else Agent.baseName ++ id.text

def chmodLine (name : String) : String :=
  "chmod 700 " ++ name

/-- The command line that has the copied agent install itself. -/
def installLine (posix : Bool) (name : String) : String :=
  if posix then "./" ++ name ++ " install" else name ++ " install"

/-- Takes the agent for a platform out of the bundle, into a temporary file. -/
def extractAgent (s : Setting) (platform : Platform) (refusals : Refusals := {}) :
    Effect (World ω) DialError Unit := do
  let bundle ← Effect.ofExcept ((s.config.resolvedBundlePath s.executable).mapError .extract)
  let w ← get
  let (extracted, temporaries) :=
    Bundle.extract (s.readBundle bundle) platform.os platform.arch s.freshName w.temporaries
      refusals
  set { w with temporaries }
  match extracted with
  | .ok () => World.note (.fileCreated s.freshName)
  | .error cause => throw (.extract cause)

def removeAgent (s : Setting) : Effect (World ω) DialError Unit := do
  modify fun w => { w with temporaries := w.temporaries.remove s.freshName }
  World.note (.fileRemoved s.freshName)

def copyAgent (t : Transport (World ω) κ) (p : Prompter (World ω)) (s : Setting) (name : String) :
    Effect (World ω) DialError Unit := do
  tell p copyMessage
  let file : LocalFile :=
    { path := s.temporaryDirectory.join s.freshName
      file := (← get).temporaries.find? s.freshName }
  (t.copy file name).mapError .copy

/-- Copies the agent and removes the local copy, whether or not it arrived. -/
def deliverAgent (t : Transport (World ω) κ) (p : Prompter (World ω)) (s : Setting)
    (name : String) : Effect (World ω) DialError Unit := do
  let copied ← (copyAgent t p s name).attempt
  removeAgent s
  Effect.ofExcept copied

/-- Runs a command to its end; its output does not matter. -/
def runLine (t : Transport ω κ) (line : String) : Effect ω DialError Unit := do
  let _ ← (t.run line).mapError .install

/-- What follows once the agent has been delivered. -/
def launchInstaller (t : Transport ω κ) (p : Prompter ω) (platform : Platform) (name : String) :
    Effect ω DialError Unit := do
  if platform.posix ∧ platform.os ≠ "windows" then runLine t (chmodLine name)
  tell p installMessage
  runLine t (installLine platform.posix name)

/-- What follows once the platform is known. -/
def installFor (t : Transport (World ω) κ) (p : Prompter (World ω)) (s : Setting)
    (platform : Platform) (name : String) (refusals : Refusals := {}) :
    Effect (World ω) DialError Unit := do
  tell p extractMessage
  extractAgent s platform refusals
  deliverAgent t p s name
  launchInstaller t p platform name

/-- Installs the agent, through a transport and a prompter that keep the journal. -/
def installThrough (t : Transport (World ω) κ) (p : Prompter (World ω)) (s : Setting)
    (refusals : Refusals := {}) : Effect (World ω) DialError Unit := do
  let platform ← (Platform.probe t p).mapError .probe
  installFor t p s platform (remoteName platform.os s.freshId) refusals

/-- Installs the agent on the far side of a transport. -/
def install (t : Transport ω κ) (p : Prompter ω) (s : Setting) (refusals : Refusals := {}) :
    Effect (World ω) DialError Unit :=
  installThrough (World.transport t) (World.prompter p) s refusals

end RemoteAgent.Dial
