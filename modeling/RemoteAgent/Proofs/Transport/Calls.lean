import RemoteAgent.Proofs.Transport.Recorded

/-! # Calls of a transport

Calls are made one after the other, whatever becomes of each of them. If every command that a
transport prepares or starts is of a kind, then so is every command of a whole sequence of calls.
-/

namespace RemoteAgent.Transport

open Effect

variable {ω κ : Type}

/-- A use of a transport: a command may be prepared only, or run to its end too. -/
inductive Call where
  | copy (file : LocalFile) (name : String)
  | command (line : String)
  | run (line : String)

inductive Answer (κ : Type) where
  | copied
  | prepared (command : κ)
  | output (text : String)

def perform (t : Transport ω κ) : Call → Effect ω TransportError (Answer κ)
  | .copy file name => do
    t.copy file name
    return .copied
  | .command line => do return .prepared (← t.command line)
  | .run line => do return .output (← t.run line)

def performAll (t : Transport ω κ) (calls : List Call) :
    Effect ω TransportError (List (Except TransportError (Answer κ))) :=
  calls.mapM fun call => (t.perform call).attempt

/-- Such a command is started, or else a question is asked. -/
def StartsOnly (P : Command → Prop) : Use → Prop
  | .started c _ => P c
  | .asked _ => True

/-- All commands that a transport prepares or starts are of a kind. -/
structure Starts (P : Command → Prop) (log : ω → List Use) (t : Transport ω Command) : Prop where
  copy : ∀ file name, Adds log (StartsOnly P) (t.copy file name)
  command : ∀ line, Adds log (StartsOnly P) (t.command line)
  prepared : ∀ {line w c w'}, (t.command line).outcome w = (.ok c, w') → P c
  start : ∀ {c}, P c → Adds log (StartsOnly P) (t.start c)

namespace Starts

variable {P : Command → Prop} {log : ω → List Use} {t : Transport ω Command}

theorem run (h : t.Starts P log) (line : String) : Adds log (StartsOnly P) (t.run line) :=
  (h.command line).bind_of_ok fun _ _ _ hc =>
    .bind ((h.start (h.prepared hc)).mapError _) fun _ => adds_ofExcept _

theorem perform (h : t.Starts P log) (call : Call) : Adds log (StartsOnly P) (t.perform call) := by
  cases call with
  | copy file name => exact .bind (h.copy file name) fun _ => adds_pure _
  | command line => exact .bind (h.command line) fun _ => adds_pure _
  | run line => exact .bind (h.run line) fun _ => adds_pure _

theorem of_prepared (h : t.Starts P log) {call : Call} {w w' : ω} {c : Command}
    (ho : (t.perform call).outcome w = (.ok (.prepared c), w')) : P c := by
  cases call with
  | copy file name =>
    rw [Transport.perform, outcome_bind] at ho
    rcases hcopy : (t.copy file name).outcome w with ⟨e | _, v⟩ <;> rw [hcopy] at ho <;> cases ho
  | command line =>
    rw [Transport.perform, outcome_bind] at ho
    rcases hcommand : (t.command line).outcome w with ⟨e | d, v⟩ <;> rw [hcommand] at ho <;>
      cases ho
    exact h.prepared hcommand
  | run line =>
    rw [Transport.perform, outcome_bind] at ho
    rcases hrun : (t.run line).outcome w with ⟨e | _, v⟩ <;> rw [hrun] at ho <;> cases ho

/-- The step from one call to a sequence of them. -/
theorem performAll (h : t.Starts P log) (calls : List Call) (w : ω) :
    ∃ answers w' uses, (t.performAll calls).outcome w = (.ok answers, w') ∧
      log w' = log w ++ uses ∧ (∀ u ∈ uses, StartsOnly P u) ∧
      ∀ c, .ok (.prepared c) ∈ answers → P c := by
  unfold Transport.performAll
  induction calls generalizing w with
  | nil => exact ⟨[], w, [], rfl, (List.append_nil _).symm, nofun, nofun⟩
  | cons call calls ih =>
    obtain ⟨uses, hlog, huses⟩ := h.perform call w
    rcases ho : (t.perform call).outcome w with ⟨result, v⟩
    rw [ho] at hlog
    obtain ⟨answers, w', uses', ho', hlog', huses', hanswers⟩ := ih v
    refine ⟨result :: answers, w', uses ++ uses', ?_, ?_, List.forall_mem_append.2 ⟨huses, huses'⟩,
      ?_⟩
    · rw [List.mapM_cons, outcome_bind_ok (outcome_attempt _ _), ho, outcome_bind_ok ho']
      rfl
    · rw [hlog', hlog, List.append_assoc]
    · intro c hc
      rcases List.mem_cons.1 hc with rfl | hc
      · exact h.of_prepared ho
      · exact hanswers c hc

end Starts

end RemoteAgent.Transport
