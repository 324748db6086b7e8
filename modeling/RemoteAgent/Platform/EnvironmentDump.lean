import RemoteAgent.Text.Basic

/-!
# Printed environments

An environment is printed as one `NAME=VALUE` a line. Names are compared up to the case of ASCII
letters, and the first line with a name counts.
-/

namespace RemoteAgent.EnvironmentDump

/-- Splits a line at its first equals sign. -/
def splitAtEquals : List Char → Option (List Char × List Char)
  | [] => none
  | '=' :: r => some ([], r)
  | c :: r => (splitAtEquals r).map fun (name, value) => (c :: name, value)

/-- A line without its line feed and the carriage returns before it. -/
def stripEnd (line : List Char) : List Char :=
  let line := if line.getLast? = some '\n' then line.dropLast else line
  Text.dropEndWhile (· == '\r') line

/-- Whether two names are equal up to the case of ASCII letters. -/
def sameName (a b : List Char) : Bool :=
  a.map Char.toLower = b.map Char.toLower

/-- The variables of a dump, in the order of the lines. -/
def entries (dump : String) : List (List Char × List Char) :=
  (Text.lines dump.toList).filterMap fun line => splitAtEquals (stripEnd line)

def value? (dump name : String) : Option String :=
  ((entries dump).find? fun v => sameName v.1 name.toList).map fun v => String.ofList v.2

end RemoteAgent.EnvironmentDump
