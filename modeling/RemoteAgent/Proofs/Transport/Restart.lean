import RemoteAgent.Proofs.Transport.Recorded
import RemoteAgent.Rehearsal.Reply
import RemoteAgent.Transport.Docker

/-! # Copies into Windows containers

A Windows container is stopped only once the user has agreed to it, and once it has been stopped it
is started again, whatever became of the copy in between.
-/

namespace RemoteAgent.Docker

open Effect

variable {ω : Type}

section Asking

variable (p : Prompter ω)

/-- After such an answer the question is asked again. -/
def IsUnclear (answer : String) : Prop :=
  Text.trim answer ≠ "yes" ∧ Text.trim answer ≠ "no"

/-- The question is answered so often, and unclearly each time. -/
inductive Unsettled : ω → Nat → ω → Prop where

  | unasked (w : ω) : Unsettled w 0 w

  | again {w w' v : ω} {answer : String} {n : Nat} :
      (p.prompt restartQuestion).outcome w = (.ok answer, w') → IsUnclear answer →
      Unsettled w' n v → Unsettled w (n + 1) v

/-- The question is asked so often, and the last time that settles the matter. -/
inductive Settled : ω → Nat → Except TransportError Unit → ω → Prop where

  | agreed {w v : ω} {answer : String} :
      (p.prompt restartQuestion).outcome w = (.ok answer, v) → Text.trim answer = "yes" →
      Settled w 1 (.ok ()) v

  | declined {w v : ω} {answer : String} :
      (p.prompt restartQuestion).outcome w = (.ok answer, v) → Text.trim answer = "no" →
      Settled w 1 (.error (.cancelled "container restart declined")) v

  | unanswered {w v : ω} {cause : PromptError} :
      (p.prompt restartQuestion).outcome w = (.error cause, v) →
      Settled w 1 (.error (.prompt cause)) v

  | again {w w' v : ω} {answer : String} {n : Nat} {result : Except TransportError Unit} :
      (p.prompt restartQuestion).outcome w = (.ok answer, w') → IsUnclear answer →
      Settled w' n result v → Settled w (n + 1) result v

variable {p} in
/-- As long as all answers are unclear, nothing is settled. -/
theorem Unsettled.lt {w v v' : ω} {k n : Nat} {result : Except TransportError Unit}
    (h : Unsettled p w k v) (hs : Settled p w n result v') : k < n := by
  induction h generalizing n with
  | unasked => cases hs <;> omega
  | again ho hunclear _ ih =>
    cases hs with
    | agreed ho' hyes =>
      cases ho.symm.trans ho'
      exact absurd hyes hunclear.1
    | declined ho' hno =>
      cases ho.symm.trans ho'
      exact absurd hno hunclear.2
    | unanswered ho' => cases ho.symm.trans ho'
    | again ho' _ hs =>
      cases ho.symm.trans ho'
      exact Nat.succ_lt_succ (ih hs)

theorem outcome_prompt_recorded (question : String) (w : Recorded ω) :
    (p.recorded.prompt question).outcome w =
      (((p.prompt question).outcome w.outer).1,
        ⟨((p.prompt question).outcome w.outer).2, w.uses ++ [.asked question]⟩) := by
  simp only [Prompter.recorded, outcome_bind, outcome_modify, outcome_within]

/-- An unclear answer costs one question and settles nothing. -/
theorem outcome_confirmRestart_unclear {patience : Nat} {w w' : ω} {answer : String}
    (h : (p.prompt restartQuestion).outcome w = (.ok answer, w')) (hunclear : IsUnclear answer) :
    (confirmRestart p (patience + 1)).outcome w = (confirmRestart p patience).outcome w' := by
  have hanswer : ((p.prompt restartQuestion).mapError TransportError.prompt).outcome w =
      (.ok answer, w') := by
    rw [outcome_mapError, h, mapError_ok]
  rw [confirmRestart, outcome_bind_ok hanswer]
  split
  · exact absurd ‹_› hunclear.1
  · exact absurd ‹_› hunclear.2
  · rfl

/-- Asked so often, the question is settled in the end, or answered unclearly each time. -/
theorem settled_or_unsettled (patience : Nat) (w : ω) :
    (∃ n result v, n ≤ patience ∧ Settled p w n result v) ∨ ∃ v, Unsettled p w patience v := by
  induction patience generalizing w with
  | zero => exact .inr ⟨w, .unasked w⟩
  | succ patience ih =>
    rcases ho : (p.prompt restartQuestion).outcome w with ⟨cause | answer, w'⟩
    · exact .inl ⟨1, _, w', Nat.le_add_left 1 _, .unanswered ho⟩
    by_cases hyes : Text.trim answer = "yes"
    · exact .inl ⟨1, _, w', Nat.le_add_left 1 _, .agreed ho hyes⟩
    by_cases hno : Text.trim answer = "no"
    · exact .inl ⟨1, _, w', Nat.le_add_left 1 _, .declined ho hno⟩
    have hunclear : IsUnclear answer := ⟨hyes, hno⟩
    rcases ih w' with ⟨n, result, v, hn, hs⟩ | ⟨v, hu⟩
    · exact .inl ⟨n + 1, result, v, Nat.succ_le_succ hn, .again ho hunclear hs⟩
    · exact .inr ⟨v, .again ho hunclear hu⟩

/-- The matter is settled some time, or every question asked is answered unclearly. -/
theorem settled_or_never (w : ω) :
    (∃ n result v, Settled p w n result v) ∨ ∀ n, ∃ v, Unsettled p w n v := by
  by_cases hever : ∃ n result v, Settled p w n result v
  · exact .inl hever
  · refine .inr fun n => (settled_or_unsettled p n w).resolve_left ?_
    rintro ⟨n', result, v, -, hs⟩
    exact hever ⟨n', result, v, hs⟩

theorem append_asked (uses : List Use) (n : Nat) :
    (uses ++ [.asked restartQuestion]) ++ List.replicate n (.asked restartQuestion) =
      uses ++ List.replicate (n + 1) (.asked restartQuestion) := by
  rw [List.append_assoc, List.singleton_append, List.replicate_succ]

variable {p}

/-- Where the patience lasts until the matter is settled, it makes no difference. -/
theorem Settled.outcome_confirmRestart {patience n : Nat} {w v : ω}
    {result : Except TransportError Unit} (hs : Settled p w n result v) (hn : n ≤ patience)
    (uses : List Use) :
    (confirmRestart p.recorded patience).outcome ⟨w, uses⟩ =
      (result, ⟨v, uses ++ List.replicate n (.asked restartQuestion)⟩) := by
  induction hs generalizing patience uses with
  | agreed ho hyes =>
    obtain ⟨patience, rfl⟩ := Nat.exists_eq_add_of_le' hn
    simp [confirmRestart, outcome_bind, outcome_prompt_recorded, ho, hyes]
  | declined ho hno =>
    obtain ⟨patience, rfl⟩ := Nat.exists_eq_add_of_le' hn
    simp [confirmRestart, outcome_bind, outcome_prompt_recorded, ho, hno]
  | unanswered ho =>
    obtain ⟨patience, rfl⟩ := Nat.exists_eq_add_of_le' hn
    simp [confirmRestart, outcome_bind, outcome_prompt_recorded, ho]
  | @again w w' _ _ n _ ho hunclear _ ih =>
    obtain ⟨patience, rfl⟩ := Nat.exists_eq_add_of_le' hn
    have hprompt := outcome_prompt_recorded p restartQuestion ⟨w, uses⟩
    rw [ho] at hprompt
    rw [← Nat.add_assoc, outcome_confirmRestart_unclear p.recorded hprompt hunclear,
      ih (Nat.le_add_left n patience), append_asked]

theorem Unsettled.outcome_confirmRestart {n : Nat} {w v : ω} (hu : Unsettled p w n v)
    (uses : List Use) :
    (confirmRestart p.recorded n).outcome ⟨w, uses⟩ =
      (.error outOfPatience, ⟨v, uses ++ List.replicate n (.asked restartQuestion)⟩) := by
  induction hu generalizing uses with
  | unasked w => rw [confirmRestart, outcome_throw, List.replicate_zero, List.append_nil]
  | @again w w' _ _ n ho hunclear _ ih =>
    have hprompt := outcome_prompt_recorded p restartQuestion ⟨w, uses⟩
    rw [ho] at hprompt
    rw [outcome_confirmRestart_unclear p.recorded hprompt hunclear, ih, append_asked]

end Asking

section Restarting

variable (d : Docker) (host : Host ω) (p : Prompter ω)

theorem outcome_runClient_recorded (arguments : List String) (w : Recorded ω) {v : ω}
    {r : Except IoError Process}
    (h : (host.start (d.clientCommand arguments)).outcome w.outer = (r, v)) :
    (d.runClient host.recorded arguments).outcome w =
      ((ended r).map fun _ => (), ⟨v, w.uses ++ [.started (d.clientCommand arguments) r]⟩) := by
  rw [runClient, outcome_bind, outcome_runToEnd, outcome_start_recorded, h]
  rcases ended r with e | output <;> rfl

def stopCommand : Command :=
  d.clientCommand ["stop", d.endpoint.hostname]

def startCommand : Command :=
  d.clientCommand ["start", d.endpoint.hostname]

def cpCommand (source : Path) (destination : String) : Command :=
  d.clientCommand ["cp", source.text, destination]

/-- Of two things that were done one after the other, the failure of the first one counts. -/
def firstFailure : Except TransportError String → Except TransportError String →
    Except TransportError Unit
  | .error e, _ => .error e
  | .ok _, .error e => .error e
  | .ok _, .ok _ => .ok ()

variable (source : Path) (destination : String)

/-- The ways a copy into a Windows container goes: the uses that it makes, and what it comes to. -/
inductive Restarted (w : ω) : List Use → Except TransportError Unit → ω → Prop where

  /-- The user has declined or could not be asked. -/
  | refused {n : Nat} {e : TransportError} {v : ω} :
      Settled p w n (.error e) v → n ≤ d.patience + 1 →
      Restarted w (List.replicate n (.asked restartQuestion)) (.error e) v

  /-- The matter is not settled for as long as there is patience. -/
  | abandoned {v : ω} :
      Unsettled p w (d.patience + 1) v →
      (∀ n result v, Settled p w n result v → d.patience + 1 < n) →
      Restarted w (List.replicate (d.patience + 1) (.asked restartQuestion))
        (.error outOfPatience) v

  | unstopped {n : Nat} {v v' : ω} {r : Except IoError Process} {e : TransportError} :
      Settled p w n (.ok ()) v → n ≤ d.patience + 1 →
      (host.start d.stopCommand).outcome v = (r, v') → ended r = .error e →
      Restarted w (List.replicate n (.asked restartQuestion) ++ [.started d.stopCommand r])
        (.error e) v'

  | restarted {n : Nat} {v v₁ v₂ v₃ : ω} {stopped copied started : Except IoError Process}
      {output : String} :
      Settled p w n (.ok ()) v → n ≤ d.patience + 1 →
      (host.start d.stopCommand).outcome v = (stopped, v₁) → ended stopped = .ok output →
      (host.start (d.cpCommand source destination)).outcome v₁ = (copied, v₂) →
      (host.start d.startCommand).outcome v₂ = (started, v₃) →
      Restarted w (List.replicate n (.asked restartQuestion) ++
          [.started d.stopCommand stopped, .started (d.cpCommand source destination) copied,
            .started d.startCommand started])
        (firstFailure (ended copied) (ended started)) v₃

theorem outcome_copyIntoWindows (w : Recorded ω) :
    ∃ uses result v,
      (d.copyIntoWindows host.recorded p.recorded source destination).outcome w =
        (result, ⟨v, w.uses ++ uses⟩) ∧
      Restarted d host p source destination w.outer uses result v := by
  unfold copyIntoWindows copyStopped
  rcases settled_or_unsettled p (d.patience + 1) w.outer with ⟨n, result, v, hn, hs⟩ | ⟨v, hu⟩
  · have ho := hs.outcome_confirmRestart hn w.uses
    rcases result with e | _
    · exact ⟨_, _, v, outcome_bind_error ho _, .refused hs hn⟩
    rw [outcome_bind_ok ho]
    rcases hstop : (host.start d.stopCommand).outcome v with ⟨stopped, v₁⟩
    have hstopped := outcome_runClient_recorded d host ["stop", d.endpoint.hostname]
      ⟨v, w.uses ++ List.replicate n (.asked restartQuestion)⟩ hstop
    rcases hended : ended stopped with e | output <;> rw [hended] at hstopped
    · refine ⟨_, _, v₁, ?_, .unstopped hs hn hstop hended⟩
      rw [outcome_bind_error hstopped, List.append_assoc]
      rfl
    rw [outcome_bind_ok hstopped]
    rcases hcp : (host.start (d.cpCommand source destination)).outcome v₁ with ⟨copied, v₂⟩
    rcases hstart : (host.start d.startCommand).outcome v₂ with ⟨started, v₃⟩
    refine ⟨_, _, v₃, ?_, .restarted hs hn hstop hended hcp hstart⟩
    rw [outcome_bind_ok (outcome_attempt _ _), outcome_runClient_recorded d host _ ⟨v₁, _⟩ hcp,
      outcome_bind_ok (outcome_attempt _ _), outcome_runClient_recorded d host _ ⟨v₂, _⟩ hstart]
    simp only [outcome_bind, outcome_ofExcept, List.append_assoc]
    rcases ended copied with e | _
    · rfl
    · rcases ended started with e | _ <;> rfl
  · exact ⟨_, _, v, outcome_bind_error (hu.outcome_confirmRestart w.uses) _,
      .abandoned hu fun _ _ _ => hu.lt⟩

variable {d host p source destination}

/-- If the matter is settled, what a copy comes to depends on how it is settled and on what becomes
of the stopped container, and on the patience only in that it has to last so long. -/
theorem Settled.outcome_copyIntoWindows {n : Nat} {w : Recorded ω} {v : ω}
    {result : Except TransportError Unit} (hs : Settled p w.outer n result v)
    (hn : n ≤ d.patience + 1) :
    (d.copyIntoWindows host.recorded p.recorded source destination).outcome w =
      (Effect.ofExcept result >>= fun _ =>
        d.copyStopped host.recorded source destination).outcome
          ⟨v, w.uses ++ List.replicate n (.asked restartQuestion)⟩ := by
  rw [copyIntoWindows, outcome_bind, hs.outcome_confirmRestart hn w.uses, outcome_bind,
    outcome_ofExcept]

/-- Of two clients that differ in their patience, both of which lasts, a copy comes to the same. -/
theorem Settled.copyIntoWindows_patience {n patience : Nat} {w : Recorded ω} {v : ω}
    {result : Except TransportError Unit} (hs : Settled p w.outer n result v)
    (hn : n ≤ d.patience + 1) (hpatience : n ≤ patience + 1) :
    (copyIntoWindows { d with patience } host.recorded p.recorded source destination).outcome w =
      (d.copyIntoWindows host.recorded p.recorded source destination).outcome w := by
  rw [hs.outcome_copyIntoWindows hn]
  exact hs.outcome_copyIntoWindows (d := { d with patience }) hpatience

/-- The usual client gives up only on a matter that so many answers have not settled. -/
theorem outcome_copyIntoWindows_new (e : Endpoint) (w : Recorded ω) :
    (∃ n result v, Settled p w.outer n result v ∧
      ((Docker.new e).copyIntoWindows host.recorded p.recorded source destination).outcome w =
        (Effect.ofExcept result >>= fun _ =>
          (Docker.new e).copyStopped host.recorded source destination).outcome
            ⟨v, w.uses ++ List.replicate n (.asked restartQuestion)⟩) ∨
    ∃ v, Unsettled p w.outer 0x4000000000000001 v ∧
      ((Docker.new e).copyIntoWindows host.recorded p.recorded source destination).outcome w =
        (.error outOfPatience,
          ⟨v, w.uses ++ List.replicate 0x4000000000000001 (.asked restartQuestion)⟩) := by
  rcases settled_or_unsettled p ((Docker.new e).patience + 1) w.outer with
    ⟨n, result, v, hn, hs⟩ | ⟨v, hu⟩
  · exact .inl ⟨n, result, v, hs, hs.outcome_copyIntoWindows hn⟩
  · exact .inr ⟨v, hu, outcome_bind_error (hu.outcome_confirmRestart w.uses) _⟩

/-- A container that was found to be a Windows one is stopped only after the user has said yes, and
before that nothing is said clearly. If the user says no instead, or cannot be asked, nothing at all
is started. Once the container has been stopped, the copy is attempted once and then the container
is started once, whatever became of the copy. The failure of the copy counts before that of the
start. -/
theorem copy_restarts {file : LocalFile} {name : String} {w w' : WithContainer (Recorded ω)}
    {c : ContainerProperties} (hprobed : (d.properties host.recorded).outcome w = (.ok c, w'))
    (hwindows : c.windows = true) :
    ∃ uses result v,
      ((d.transport host.recorded p.recorded).copy file name).outcome w =
        (result, { w' with outer := ⟨v, w'.outer.uses ++ uses⟩ }) ∧
      Restarted d host p file.path (d.endpoint.hostname ++ ":" ++ (c.home ++ "\\" ++ name))
        w'.outer.outer uses result v := by
  obtain ⟨uses, result, v, ho, hr⟩ := outcome_copyIntoWindows d host p file.path
    (d.endpoint.hostname ++ ":" ++ (c.home ++ "\\" ++ name)) w'.outer
  refine ⟨uses, result, v, ?_, hr⟩
  rw [transport, outcome_bind_ok hprobed, if_pos hwindows, WithContainer.lift, outcome_within, ho]

end Restarting

section Wary

/-- A Windows container into which nothing can be copied. -/
def fullContainerReply (arguments : List String) : Rehearsal.Reply :=
  if arguments.getLast? = some "set" then
    { output := Text.encode "USERPROFILE=C:\\Users\\me\r\nUSERNAME=me\r\n", mode := .exit
      status := .exited 0, errorOutput := [] }
  else if arguments.head? = some "stop" ∨ arguments.head? = some "start" then
    { output := [], mode := .exit, status := .exited 0, errorOutput := [] }
  else
    { output := [], mode := .exit, status := .exited 1
      errorOutput := Text.encode "no space left on device\n" }

def fullContainer : Host (List String) where
  executable := .ok ⟨"tether"⟩
  start c := pure (fullContainerReply c.arguments).process

/-- A user who gives the answers that the world holds. -/
def waryUser : Prompter (List String) where
  identifier := none
  message _ := pure ()
  prompt _ := do
    match ← get with
    | [] => throw .unavailable
    | answer :: answers =>
      set answers
      return answer

def fullContainerClient : Docker :=
  .new (.new .docker .alpha "web")

def hesitation : WithContainer (Recorded (List String)) :=
  ⟨⟨["maybe", " yes\n"], []⟩, none⟩

theorem copy_restarts_fullContainer :
    ((fullContainerClient.properties fullContainer.recorded).outcome hesitation).1 =
      .ok ⟨true, "C:\\Users\\me", "me", ""⟩ ∧
    ∃ uses result v,
      (((fullContainerClient.transport fullContainer.recorded waryUser.recorded).copy
          ⟨⟨"agent"⟩, none⟩ "agent.exe").outcome hesitation).1 = result ∧
      Restarted fullContainerClient fullContainer waryUser ⟨"agent"⟩
        "web:C:\\Users\\me\\agent.exe" ["maybe", " yes\n"] uses result v := by
  have hprobed : ((fullContainerClient.properties fullContainer.recorded).outcome hesitation).1 =
      .ok ⟨true, "C:\\Users\\me", "me", ""⟩ := rfl
  obtain ⟨uses, result, v, ho, hr⟩ :=
    @copy_restarts _ _ _ waryUser ⟨⟨"agent"⟩, none⟩ "agent.exe" _ _ _ (Prod.ext hprobed rfl) rfl
  exact ⟨hprobed, uses, result, v, congrArg Prod.fst ho, hr⟩

end Wary

end RemoteAgent.Docker
