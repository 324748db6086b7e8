import RemoteAgent.Dial.World
import RemoteAgent.Proofs.Effect

/-! # The journal of a dial

Through the transport and the prompter that keep the journal, everything ends as it would in the
world outside, and the journal grows by exactly one entry for each message, command and copy.
-/

namespace RemoteAgent.Dial

open Effect

variable {ω κ ε α : Type}

namespace World

/-- The world after something was done outside that the journal tells as `events`. -/
def after (w : World ω) (o : ω) (events : List Event) : World ω :=
  { w with outer := o, journal := w.journal ++ events }

@[simp] theorem outer_after (w : World ω) (o : ω) (events : List Event) :
    (w.after o events).outer = o := rfl

@[simp] theorem journal_after (w : World ω) (o : ω) (events : List Event) :
    (w.after o events).journal = w.journal ++ events := rfl

@[simp] theorem after_after (w : World ω) (o o' : ω) (events events' : List Event) :
    (w.after o events).after o' events' = w.after o' (events ++ events') := by
  simp [after]

@[simp] theorem after_nil (w : World ω) : w.after w.outer [] = w := by
  simp [after]

@[simp] theorem outcome_note (e : Event) (w : World ω) :
    (note e : Effect (World ω) ε Unit).outcome w = (.ok (), w.after w.outer [e]) := rfl

theorem outcome_lift (x : Effect ω ε α) (w : World ω) :
    (lift x).outcome w = ((x.outcome w.outer).1, w.after (x.outcome w.outer).2 []) := by
  simp [lift, after]

theorem outcome_noted (e : Event) (x : Effect ω ε α) (w : World ω) :
    (do note e; lift x).outcome w =
      ((x.outcome w.outer).1, w.after (x.outcome w.outer).2 [e]) := by
  rw [outcome_bind_ok (outcome_note e w), outcome_lift]
  simp

variable (t : Transport ω κ) (p : Prompter ω) (w : World ω)

@[simp] theorem outcome_copy (file : LocalFile) (name : String) :
    ((transport t).copy file name).outcome w =
      (((t.copy file name).outcome w.outer).1,
        w.after ((t.copy file name).outcome w.outer).2 [.copy file name]) :=
  outcome_noted _ _ _

@[simp] theorem outcome_command (line : String) :
    ((transport t).command line).outcome w =
      (((t.command line).outcome w.outer).1,
        w.after ((t.command line).outcome w.outer).2 [.command line]) :=
  outcome_noted _ _ _

@[simp] theorem outcome_start (prepared : κ) :
    ((transport t).start prepared).outcome w =
      (((t.start prepared).outcome w.outer).1,
        w.after ((t.start prepared).outcome w.outer).2 []) :=
  outcome_lift _ _

@[simp] theorem outcome_message (text : String) :
    ((prompter p).message text).outcome w =
      (((p.message text).outcome w.outer).1,
        w.after ((p.message text).outcome w.outer).2 [.message text]) :=
  outcome_noted _ _ _

@[simp] theorem outcome_run (line : String) :
    ((transport t).run line).outcome w =
      (((t.run line).outcome w.outer).1,
        w.after ((t.run line).outcome w.outer).2 [.command line]) := by
  simp only [Transport.run, runToEnd, outcome_bind, outcome_command, outcome_mapError,
    outcome_start, outcome_ofExcept]
  rcases (t.command line).outcome w.outer with ⟨e | prepared, o⟩
  · rfl
  · dsimp only [outer_after]
    rcases (t.start prepared).outcome o with ⟨e | process, o'⟩ <;> simp

end World

end RemoteAgent.Dial
