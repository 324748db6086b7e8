/-!
# The agent's command line

One task is named, and the log level may be set before its name and after it.
-/

namespace RemoteAgent.Agent

inductive Task where
  /-- Serve a client on the standard streams. -/
  | endpoint
  /-- Move the executable to where it belongs. -/
  | install
  | version
  | legal
  deriving DecidableEq, Repr

namespace Task

def all : List Task :=
  [endpoint, install, version, legal]

def name : Task → String
  | endpoint => "endpoint"
  | install => "install"
  | version => "version"
  | legal => "legal"

def ofName? (name : String) : Option Task :=
  all.find? (·.name = name)

end Task

inductive Request where
  | help
  | run (logLevel : String) (task : Task)
  deriving DecidableEq, Repr

namespace CommandLine

def logLevelOption : String := "--log-level"

def defaultLogLevel : String := "info"

def helpTask : String := "help"

/-- Options begin with a hyphen, which is none by itself. -/
def isOption (word : String) : Bool :=
  match word.toList with
  | '-' :: _ :: _ => true
  | _ => false

/-- The value in a word that sets the log level. -/
def attachedLevel? (word : String) : Option String :=
  let front := logLevelOption.toList ++ ['=']
  if front.isPrefixOf word.toList then some (String.ofList (word.toList.drop front.length))
  else none

/-- What options are followed by. -/
inductive Reading where
  | refused
  | help
  /-- A word that is no option, or the end, and what follows. Nothing is an option after `--`. -/
  | words (logLevel : Option String) (rest : List String)
  | ended (logLevel : Option String) (rest : List String)
  deriving DecidableEq, Repr

/-- Reads options. The log level can be set once, and a value of its own must not look like an
option. -/
def readOptions (logLevel : Option String) : List String → Reading
  | [] => .words logLevel []
  | "--" :: rest => .ended logLevel rest
  | [word] =>
    match attachedLevel? word with
    | some level => if logLevel.isSome then .refused else .words (some level) []
    | none => readOther logLevel word []
  | word :: value :: rest =>
    if word = logLevelOption then
      if logLevel.isSome || isOption value then .refused else readOptions (some value) rest
    else
      match attachedLevel? word with
      | some level =>
        if logLevel.isSome then .refused else readOptions (some level) (value :: rest)
      | none => readOther logLevel word (value :: rest)
where
  /-- A word that does not set the log level. -/
  readOther (logLevel : Option String) (word : String) (rest : List String) : Reading :=
    if word = "--help" || word.toList.take 2 = ['-', 'h'] then .help
    else if isOption word then .refused
    else .words logLevel (word :: rest)

/-- A request for help may name tasks, each of which would have to belong to the one before. -/
def readHelp : List String → Option Request
  | [] => some .help
  | [name] => if (Task.ofName? name).isSome || name = helpTask then some .help else none
  | _ => none

/-- Reads a command line. The log level that is set after the task counts before the other one. -/
def read (args : List String) : Option Request :=
  match readOptions none args with
  | .refused | .ended _ _ | .words _ [] => none
  | .help => some .help
  | .words outer (name :: rest) =>
    if name = helpTask then readHelp rest
    else
      match Task.ofName? name with
      | none => none
      | some task =>
        match readOptions none rest with
        | .help => some .help
        | .words inner [] | .ended inner [] =>
          some (.run ((inner.or outer).getD defaultLogLevel) task)
        | _ => none

def usage : String :=
  "Tether remote agent\n\n" ++
  "Usage: tether-agent [--log-level <LOG_LEVEL>] <endpoint|install|version|legal>\n"

end CommandLine

end RemoteAgent.Agent
