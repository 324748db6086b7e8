import RemoteAgent.Proofs.Dial.Machine
import RemoteAgent.Proofs.Log

/-! # What programs enter into the journal

Messages, commands and copies are entered as such, and extracting and removing the agent as the file
that it is about. The processes of the agent are entered by attempts alone.
-/

namespace RemoteAgent.Dial

open Effect

variable {ω κ ε α : Type} {P : Event → Prop}

/-- A program adds to the journal, and only events of a kind. -/
abbrev Enters (P : Event → Prop) (x : Effect (World ω) ε α) : Prop :=
  Adds World.journal P x

section Leaves

variable {t : Transport ω κ} {p : Prompter ω} {s : Setting}

theorem enters_message {text : String} (h : P (.message text)) :
    Enters P ((World.prompter p).message text) :=
  .of_outcome [.message text] (fun w => by rw [World.outcome_message]; rfl) (by simpa using h)

theorem enters_tell {text : String} (h : P (.message text)) :
    Enters P (tell (World.prompter p) text) :=
  (enters_message h).mapError _

theorem enters_run {line : String} (h : P (.command line)) :
    Enters P ((World.transport t).run line) :=
  .of_outcome [.command line] (fun w => by rw [World.outcome_run]; rfl) (by simpa using h)

theorem enters_runLine {line : String} (h : P (.command line)) :
    Enters P (runLine (World.transport t) line) :=
  ((enters_run h).mapError _).bind fun _ => adds_pure _

theorem enters_ask {line : String} {read : String → Except ProbeError Platform}
    (h : P (.command line)) : Enters P (Platform.ask (World.transport t) line read) :=
  ((enters_run h).mapError _).bind fun _ => adds_ofExcept _

theorem enters_copy {file : LocalFile} {name : String} (h : P (.copy file name)) :
    Enters P ((World.transport t).copy file name) :=
  .of_outcome [.copy file name] (fun w => by rw [World.outcome_copy]; rfl) (by simpa using h)

theorem enters_extractAgent {platform : Platform} (h : P (.fileCreated s.freshName)) :
    Enters P (extractAgent (ω := ω) s platform) := by
  refine .bind (adds_ofExcept _) fun bundle w => ?_
  rw [outcome_bind_ok (outcome_get w)]
  rcases Bundle.extract (s.readBundle bundle) platform.os platform.arch s.freshName
    w.temporaries with ⟨cause | _, d⟩
  · exact ⟨[], (List.append_nil _).symm, nofun⟩
  · exact ⟨[.fileCreated s.freshName], rfl, by simpa using h⟩

theorem enters_removeAgent (h : P (.fileRemoved s.freshName)) :
    Enters P (removeAgent (ω := ω) s) :=
  .of_outcome [.fileRemoved s.freshName] (fun w => rfl) (by simpa using h)

end Leaves

end RemoteAgent.Dial
