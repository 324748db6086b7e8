import RemoteAgent.Numeral
import RemoteAgent.Text.Alphanumeric
import RemoteAgent.Text.Basic

/-!
# Log filters

A filter is a list of directives between commas. A directive may name a target, a span with fields
in brackets, and after an equals sign a level; a level may also stand alone. -/

namespace RemoteAgent

inductive LogLevel where
  | off
  | error
  | warn
  | info
  | debug
  | trace
  deriving DecidableEq, Repr

namespace LogLevel

/-- The levels by number. -/
def all : List LogLevel :=
  [off, error, warn, info, debug, trace]

def name : LogLevel → String
  | off => "off"
  | error => "error"
  | warn => "warn"
  | info => "info"
  | debug => "debug"
  | trace => "trace"

/-- A level is given by its number, or by its name in capitals or not; no text stands for errors. -/
def ofText? (cs : List Char) : Option LogLevel :=
  match Numeral.ofSigned? 10 all.length cs with
  | some n => all[n]?
  | none =>
    if cs.isEmpty then some error
    else all.find? fun level => level.name.toList = cs.map Char.toLower

end LogLevel

inductive LogFilterError where
  | malformed
  /-- What stands after an equals sign is no level. -/
  | unknownLevel
  deriving DecidableEq, Repr

namespace LogFilterError

def message : LogFilterError → String
  | malformed => "invalid filter directive"
  | unknownLevel =>
    "error parsing level filter: expected one of \"off\", \"error\", \"warn\", " ++
      "\"info\", \"debug\", \"trace\", or a number 0-5"

/-- The failure and what is behind it. -/
def chain (e : LogFilterError) : List String :=
  match e with
  | malformed => [e.message]
  | unknownLevel => [e.message, e.message]

end LogFilterError

structure LogDirective where
  target : Option String
  span : Option String
  fields : List String
  level : LogLevel
  deriving DecidableEq, Repr

namespace LogDirective

/-- The part of a directive that is being read; the number says where its text begins. -/
inductive Part where
  | front
  | levelOrTarget (first : Nat)
  | span (first : Nat)
  | field (first : Nat)
  | afterFields
  | afterSpan
  | level (first : Nat)
  deriving DecidableEq, Repr

/-- The characters that a target or a level can begin with. -/
def begins (c : Char) : Bool :=
  c = '-' || c = ':' || c = '_' || Text.isAlphanumeric c

/-- The text from one place up to another. -/
def cut (text : List Char) (first last : Nat) : String :=
  String.ofList ((text.drop first).take (last - first))

/-- Takes the character at a place. -/
def step (text : List Char) (d : LogDirective) (place : Nat) (c : Char) :
    Part → Except LogFilterError (Part × LogDirective)
  | .front =>
    if c = '[' then .ok (.span (place + 1), d)
    else if begins c then .ok (.levelOrTarget place, d)
    else .error .malformed
  | .levelOrTarget first =>
    if c = '=' then .ok (.level (place + 1), { d with target := some (cut text first place) })
    else if c = '[' then .ok (.span (place + 1), { d with target := some (cut text first place) })
    else .ok (.levelOrTarget first, d)
  | .span first =>
    let named := cut text first place
    if c = ']' then .ok (.afterSpan, { d with span := some named })
    else if c = '\x7b' then
      .ok (.field (place + 1), { d with span := if named.isEmpty then none else some named })
    else .ok (.span first, d)
  | .field first =>
    let field := cut text first place
    if c = '\x7d' then
      if field.isEmpty then .error .malformed
      else .ok (.afterFields, { d with fields := d.fields ++ [field] })
    else .ok (.field first, d)
  | .afterFields => if c = ']' then .ok (.afterSpan, d) else .error .malformed
  | .afterSpan => if c = '=' then .ok (.level (place + 1), d) else .error .malformed
  | .level first => .ok (.level first, d)

/-- Takes characters from a place on. -/
def steps (text : List Char) (part : Part) (d : LogDirective) (place : Nat) :
    List Char → Except LogFilterError (Part × LogDirective)
  | [] => .ok (part, d)
  | c :: rest => do
    let (part, d) ← step text d place c part
    steps text part d (place + 1) rest

/-- The end of the text. A word alone is a level, or else a target of which everything is kept; no
level stands for everything. -/
def finish (text : List Char) (d : LogDirective) : Part → Except LogFilterError LogDirective
  | .levelOrTarget first =>
    let word := text.drop first
    match LogLevel.ofText? word with
    | some level => .ok { d with level, target := none }
    | none => .ok { d with level := .trace, target := some (String.ofList word) }
  | .level first =>
    let word := text.drop first
    if word.isEmpty then .ok { d with level := .trace }
    else
      match LogLevel.ofText? word with
      | some level => .ok { d with level }
      | none => .error .unknownLevel
  | .afterSpan => .ok d
  | _ => .error .malformed

/-- Reads a directive. White space around it is not looked at, but places are counted from behind it
and texts are cut from the whole. -/
def ofText (text : List Char) : Except LogFilterError LogDirective := do
  let nothing : LogDirective := { target := none, span := none, fields := [], level := .trace }
  let (part, d) ← steps text .front nothing 0 (Text.trimBlanks text)
  finish text d part

end LogDirective

abbrev LogFilter := List LogDirective

namespace LogFilter

/-- Reads directives between commas; nothing between two commas is passed over. -/
def ofText (s : String) : Except LogFilterError LogFilter :=
  ((s.toList.splitOn ',').filter (!·.isEmpty)).mapM LogDirective.ofText

/-- The filter that a variable of the environment gives, or else the one that was asked for. -/
def choose (given : Option String) (asked : String) : Except LogFilterError LogFilter :=
  match given.map ofText with
  | some (.ok filter) => .ok filter
  | _ => ofText asked

end LogFilter

end RemoteAgent
