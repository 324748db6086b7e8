import RemoteAgent.Rehearsal.Reply
import RemoteAgent.Rehearsal.Rules
import RemoteAgent.Transport.Basic

/-!
# Rehearsed transports and prompters

A stage holds what the far side and the user will do, and a log of what was asked of them.
-/

namespace RemoteAgent.Rehearsal

/-- How the far side reacts to a command line. -/
inductive Reaction where
  | process (reply : Reply)
  | refused (cause : TransportError)
  | noProgram

inductive Answer where
  | text (answer : String)
  | fail (text : String)
  deriving DecidableEq, Repr

/-- Something that was asked of the far side or of the user. -/
inductive LogEntry where
  | message (text : String)
  | prompt (text : String)
  | command (line : String)
  | copy (file : LocalFile) (name : String)
  deriving DecidableEq, Repr

structure Stage where
  rules : List (Rule Reaction)
  /-- The outcomes of copies; once there are none left, copies succeed. -/
  copies : List (Option TransportError)
  /-- How many messages were attempted. -/
  messages : Nat
  /-- The number of the message that is lost. -/
  lostMessage : Option Nat
  answers : List Answer
  /-- What was asked, in order. -/
  log : List LogEntry

namespace Stage

def note (e : LogEntry) : Stage → Stage := fun s =>
  { s with log := s.log ++ [e] }

def prompter (identifier : Option String) : Prompter Stage where
  identifier := identifier
  message text := do
    let s ← get
    let n := s.messages + 1
    set { s with messages := n }
    if s.lostMessage = some n then throw (.failed s!"message {n} lost")
    else modify (note (.message text))
  prompt text := do
    modify (note (.prompt text))
    let s ← get
    match s.answers with
    | [] => throw .unavailable
    | .text answer :: answers =>
      set { s with answers }
      return answer
    | .fail text :: answers =>
      set { s with answers }
      throw (.failed text)

def transport : Transport Stage (Option Reply) where
  copy file name := do
    modify (note (.copy file name))
    let s ← get
    set { s with copies := s.copies.tail }
    match s.copies.head?.join with
    | some cause => throw cause
    | none => return
  command line := do
    modify (note (.command line))
    let s ← get
    let (reaction, rules) := Rule.answer (.process .notFound) line s.rules
    set { s with rules }
    match reaction with
    | .process reply => return some reply
    | .noProgram => return none
    | .refused cause => throw cause
  start
    | some reply => return reply.process
    | none => throw (.system .noEntry)

end Stage

end RemoteAgent.Rehearsal
