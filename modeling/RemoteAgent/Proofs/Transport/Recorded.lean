import RemoteAgent.Command
import RemoteAgent.Proofs.Log
import RemoteAgent.Transport.Basic

/-! # Recorded uses of a host

A record is kept of the processes that are started on a host, with what starting them gave, and of
the questions that are asked. Everything else is as it is without the record.
-/

namespace RemoteAgent

open Effect

variable {ω : Type}

inductive Use where
  | started (c : Command) (result : Except IoError Process)
  | asked (question : String)

/-- A world together with the uses made of it. -/
structure Recorded (ω : Type) where
  outer : ω
  uses : List Use

/-- What is left of a process that was to be started and run to its end. -/
def ended (started : Except IoError Process) : Except TransportError String :=
  started.mapError .io >>= Process.result

theorem outcome_runToEnd (start : Effect ω IoError Process) (w : ω) :
    (runToEnd start).outcome w = (ended (start.outcome w).1, (start.outcome w).2) := by
  simp only [runToEnd, ended, outcome_bind, outcome_mapError, outcome_ofExcept]
  rcases start.outcome w with ⟨e | process, w'⟩ <;> rfl

def Host.recorded (host : Host ω) : Host (Recorded ω) where
  executable := host.executable
  start c := do
    let result ← ((host.start c).within Recorded.outer fun w outer => { w with outer }).attempt
    modify fun w => { w with uses := w.uses ++ [.started c result] }
    Effect.ofExcept result

def Prompter.recorded (p : Prompter ω) : Prompter (Recorded ω) where
  identifier := p.identifier
  message text := (p.message text).within Recorded.outer fun w outer => { w with outer }
  prompt question := do
    modify fun w => { w with uses := w.uses ++ [.asked question] }
    (p.prompt question).within Recorded.outer fun w outer => { w with outer }

section Uses

variable {P : Use → Prop} (host : Host ω) (p : Prompter ω)

theorem outcome_start_recorded (c : Command) (w : Recorded ω) :
    (host.recorded.start c).outcome w =
      (((host.start c).outcome w.outer).1,
        ⟨((host.start c).outcome w.outer).2,
          w.uses ++ [.started c ((host.start c).outcome w.outer).1]⟩) := by
  simp only [Host.recorded, outcome_bind, outcome_attempt, outcome_within, outcome_modify,
    outcome_ofExcept]

theorem adds_start {c : Command} (h : ∀ result, P (.started c result)) :
    Adds Recorded.uses P (host.recorded.start c) := by
  intro w
  rw [outcome_start_recorded]
  exact ⟨_, rfl, by simpa using h _⟩

theorem adds_runToEnd {c : Command} (h : ∀ result, P (.started c result)) :
    Adds Recorded.uses P (runToEnd (host.recorded.start c)) :=
  .bind ((adds_start host h).mapError _) fun _ => adds_ofExcept _

theorem adds_message (text : String) : Adds Recorded.uses P (p.recorded.message text) :=
  .of_unchanged fun w => by rw [Prompter.recorded, outcome_within]

theorem adds_prompt {question : String} (h : P (.asked question)) :
    Adds Recorded.uses P (p.recorded.prompt question) := by
  refine .of_outcome [.asked question] (fun w => ?_) (by simpa using h)
  simp only [Prompter.recorded, outcome_bind, outcome_modify, outcome_within]

end Uses

end RemoteAgent
