import RemoteAgent.Config
import RemoteAgent.Transport.Basic
import RemoteAgent.Version

/-!
# The world of a dial

Besides the world that the transport and the prompter live in, a dial has files in the temporary
directory and a journal of what it has done.
-/

namespace RemoteAgent

/-- A universally unique identifier. -/
abbrev Uuid := BitVec 128

/-- The last `n` hexadecimal digits of a number. -/
def hexDigits : Nat → Nat → List Char
  | 0, _ => []
  | n + 1, value => hexDigits n (value / 16) ++ [Nat.digitChar (value % 16)]

/-- The identifier in 32 lower-case hexadecimal digits. -/
def Uuid.text (u : Uuid) : String :=
  String.ofList (hexDigits 32 u.toNat)

namespace Dial

/-- Something that a dial did. -/
inductive Event where
  /-- A status message was to be delivered. -/
  | message (text : String)
  /-- A command line was to be prepared. -/
  | command (line : String)
  /-- A file was to be copied. -/
  | copy (file : LocalFile) (name : String)
  /-- A process of the agent was started. -/
  | agentStarted
  /-- The connection to a process of the agent was closed. -/
  | agentClosed (status : Option ExitStatus)
  /-- A temporary file was created. -/
  | fileCreated (name : String)
  | fileRemoved (name : String)
  deriving DecidableEq, Repr

structure World (ω : Type) where
  outer : ω
  journal : List Event
  temporaries : TemporaryDirectory

structure Setting where
  config : Config
  /-- The version of this client. -/
  own : Version
  executable : Path
  /-- What reading a bundle gives. -/
  readBundle : Path → Except IoError ByteArray
  temporaryDirectory : Path
  /-- A name that no file in the temporary directory has. -/
  freshName : String
  /-- An identifier that no file on the far side bears. -/
  freshId : Uuid

namespace World

variable {ω κ ε α : Type}

/-- A world in which nothing has been done. -/
def start (outer : ω) : World ω where
  outer := outer
  journal := []
  temporaries := []

/-- A step in the world outside. -/
def lift (x : Effect ω ε α) : Effect (World ω) ε α :=
  x.within outer fun w outer => { w with outer }

/-- Enters an event into the journal. -/
def note (e : Event) : Effect (World ω) ε Unit :=
  modify fun w => { w with journal := w.journal ++ [e] }

/-- A transport whose use is entered into the journal. -/
def transport (t : Transport ω κ) : Transport (World ω) κ where
  copy file name := do
    note (.copy file name)
    lift (t.copy file name)
  command line := do
    note (.command line)
    lift (t.command line)
  start prepared := lift (t.start prepared)

/-- A prompter whose messages are entered into the journal. -/
def prompter (p : Prompter ω) : Prompter (World ω) where
  identifier := p.identifier
  message text := do
    note (.message text)
    lift (p.message text)
  prompt text := lift (p.prompt text)

end World

end Dial

end RemoteAgent
