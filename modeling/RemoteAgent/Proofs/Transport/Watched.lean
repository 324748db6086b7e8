import RemoteAgent.Dial.World
import RemoteAgent.Proofs.Transport.Recorded

/-! # Calls on record

A record is kept of every call of a transport and of a prompter, with what it gave. Everything else
is as it is without the record.
-/

namespace RemoteAgent

open Effect

/-- A call of a transport or of a prompter, and what it gave. -/
inductive Call (κ : Type) where
  | message (text : String) (result : Except PromptError Unit)
  | prompt (question : String) (result : Except PromptError String)
  | copy (file : LocalFile) (name : String) (result : Except TransportError Unit)
  | command (line : String) (result : Except TransportError κ)
  | start (prepared : κ) (result : Except IoError Process)

/-- What a journal would tell of a call. -/
def Call.event? {κ : Type} : Call κ → Option Dial.Event
  | message text _ => some (.message text)
  | copy file name _ => some (.copy file name)
  | command line _ => some (.command line)
  | prompt .. | start .. => none

/-- A world together with the calls made in it. -/
structure Watched (ω κ : Type) where
  outer : ω
  calls : List (Call κ)

namespace Watched

variable {ω κ ε α : Type}

/-- Takes a step in the world outside and puts it on record. -/
def record (call : Except ε α → Call κ) (x : Effect ω ε α) : Effect (Watched ω κ) ε α := do
  let result ← (x.within outer fun w outer => { w with outer }).attempt
  modify fun w => { w with calls := w.calls ++ [call result] }
  Effect.ofExcept result

def transport (t : Transport ω κ) : Transport (Watched ω κ) κ where
  copy file name := record (.copy file name) (t.copy file name)
  command line := record (.command line) (t.command line)
  start prepared := record (.start prepared) (t.start prepared)

def prompter (p : Prompter ω) : Prompter (Watched ω κ) where
  identifier := p.identifier
  message text := record (.message text) (p.message text)
  prompt question := record (.prompt question) (p.prompt question)

/-- The world after such calls, which have left the world outside as `o`. -/
def after (w : Watched ω κ) (o : ω) (calls : List (Call κ)) : Watched ω κ :=
  ⟨o, w.calls ++ calls⟩

@[simp] theorem outer_after (w : Watched ω κ) (o : ω) (calls : List (Call κ)) :
    (w.after o calls).outer = o := rfl

@[simp] theorem after_after (w : Watched ω κ) (o o' : ω) (calls calls' : List (Call κ)) :
    (w.after o calls).after o' calls' = w.after o' (calls ++ calls') := by
  simp [after]

@[simp] theorem outcome_record (call : Except ε α → Call κ) (x : Effect ω ε α)
    (w : Watched ω κ) :
    (record call x).outcome w =
      ((x.outcome w.outer).1, w.after (x.outcome w.outer).2 [call (x.outcome w.outer).1]) := by
  simp only [record, after, outcome_bind, outcome_attempt, outcome_within, outcome_modify,
    outcome_ofExcept]

/-- The calls with which a command line is run. -/
inductive Runs (line : String) : List (Call κ) → Prop where

  | unprepared {cause : TransportError} : Runs line [.command line (.error cause)]

  | started {prepared : κ} {result : Except IoError Process} :
      Runs line [.command line (.ok prepared), .start prepared result]

theorem Runs.events {line : String} {calls : List (Call κ)} (h : Runs line calls) :
    calls.filterMap Call.event? = [.command line] := by
  cases h <;> rfl

theorem Runs.message_notMem {line : String} {calls : List (Call κ)} (h : Runs line calls)
    (text : String) (result : Except PromptError Unit) : .message text result ∉ calls := by
  cases h <;> simp

theorem outcome_run (t : Transport ω κ) (line : String) (w : Watched ω κ) :
    ∃ calls, Runs line calls ∧
      ((transport t).run line).outcome w =
        (((t.run line).outcome w.outer).1, w.after ((t.run line).outcome w.outer).2 calls) := by
  simp only [Transport.run, transport, outcome_bind, outcome_record, outcome_runToEnd]
  rcases (t.command line).outcome w.outer with ⟨cause | prepared, o⟩
  · exact ⟨_, .unprepared, rfl⟩
  · exact ⟨[.command line (.ok prepared), .start prepared ((t.start prepared).outcome o).1],
      .started, by simp⟩

end Watched

end RemoteAgent
