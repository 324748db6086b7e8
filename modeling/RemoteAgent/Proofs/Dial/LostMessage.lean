import RemoteAgent.Proofs.Dial.Agents
import RemoteAgent.Proofs.Dial.Congruence
import RemoteAgent.Proofs.Dial.Temporaries

/-! # When a message is lost

Two dials on the same far side are compared: in one every status message is delivered, in the other
one message is lost. They do the same up to that message. There the other one ends, and all it does
after it is to remove its temporary file.
-/

namespace RemoteAgent

variable {ω κ : Type}

/-- A transport beside a number that it does not touch. -/
def Transport.beside (t : Transport ω κ) : Transport (ω × Nat) κ :=
  t.within Prod.fst fun w o => (o, w.2)

/-- A prompter that counts messages and loses those for which there is a reason. -/
def Prompter.counting (lost : Nat → Option PromptError) : Prompter Nat where
  identifier := none
  message _ := do
    let told ← get
    set (told + 1)
    match lost told with
    | none => return ()
    | some cause => throw cause
  prompt _ := throw .unavailable

/-- A prompter that loses messages, beside the world of a transport that it does not touch. -/
def Prompter.losing (lost : Nat → Option PromptError) : Prompter (ω × Nat) :=
  (Prompter.counting lost).within Prod.snd fun w told => (w.1, told)

/-- Only the message that follows `n` others is lost. -/
def onlyAfter (n : Nat) (cause : PromptError) (told : Nat) : Option PromptError :=
  if told = n then some cause else none

namespace Dial

open Effect

variable {ε ε' α β : Type}

def Event.isMessage : Event → Bool
  | .message _ => true
  | .command _ | .copy _ _ | .agentStarted | .agentClosed _ => false
  | .fileCreated _ | .fileRemoved _ => false

def messages (events : List Event) : Nat :=
  events.countP Event.isMessage

@[simp] theorem messages_append (events events' : List Event) :
    messages (events ++ events') = messages events + messages events' :=
  List.countP_append

theorem messages_message (text : String) (events : List Event) :
    messages (.message text :: events) = messages events + 1 :=
  List.countP_cons_of_pos rfl

/-- How a dial ends that has lost a message. -/
def undelivered (text : String) (cause : PromptError) : DialError :=
  if text = "Probing endpoint (POSIX)..." ∨ text = "Probing endpoint (Windows)..." then
    .probe (.notify cause)
  else .prompt cause

section Programs

variable (s : Setting) (n : Nat) (cause : PromptError) (failure : ε → DialError)

/-- Two programs do the same, and the messages are counted. -/
def Together (x y : Effect (World (ω × Nat)) ε α) (w : World (ω × Nat)) : Prop :=
  y.outcome w = x.outcome w ∧ (x.outcome w).2.outer.2 ≤ n ∧
    ∃ events, (x.outcome w).2.journal = w.journal ++ events ∧
      (x.outcome w).2.outer.2 = w.outer.2 + messages events

/-- Two programs do the same up to the message that follows `n` others. There the second one fails,
and it does no more than to clean up. -/
def Apart (x y : Effect (World (ω × Nat)) ε α) (w : World (ω × Nat)) : Prop :=
  ∃ before text rest e, w.journal ++ (before ++ [.message text]) <+: (x.outcome w).2.journal ∧
    w.outer.2 + messages before = n ∧ (y.outcome w).1 = .error e ∧
    failure e = undelivered text cause ∧
    (y.outcome w).2.journal = w.journal ++ (before ++ .message text :: rest) ∧
    ∀ e ∈ rest, e = .fileRemoved s.freshName

structure Parts (x y : Effect (World (ω × Nat)) ε α) : Prop where
  grows : Enters (fun _ => True) x
  splits : ∀ w, w.outer.2 ≤ n → Together n x y w ∨ Apart s n cause failure x y w

/-- A program that tells no messages. -/
structure Quiet (x : Effect (World (ω × Nat)) ε α) : Prop where
  enters : Enters (·.isMessage = false) x
  told : ∀ w, (x.outcome w).2.outer.2 = w.outer.2

variable {s n cause failure}

theorem prefix_bind {x : Effect (World (ω × Nat)) ε α} {f : α → Effect (World (ω × Nat)) ε β}
    (hf : ∀ a, Enters (fun _ => True) (f a)) (w : World (ω × Nat)) :
    (x.outcome w).2.journal <+: ((x >>= f).outcome w).2.journal := by
  rcases hw : x.outcome w with ⟨e | a, w'⟩
  · exact ⟨[], by rw [outcome_bind_error hw, List.append_nil]⟩
  · obtain ⟨events, hj, -⟩ := hf a w'
    exact ⟨events, by rw [outcome_bind_ok hw, hj]⟩

namespace Quiet

variable {x : Effect (World (ω × Nat)) ε α}

theorem of_unchanged (h : ∀ w, (x.outcome w).2 = w) : Quiet x where
  enters := .of_unchanged fun w => by rw [h]
  told w := by rw [h]

theorem attempt (h : Quiet x) : Quiet (x.attempt : Effect (World (ω × Nat)) ε' (Except ε α)) where
  enters := h.enters.attempt
  told w := by simpa only [outcome_attempt] using h.told w

theorem mapError (h : Quiet x) (f : ε → ε') : Quiet (x.mapError f) where
  enters := h.enters.mapError f
  told w := by simpa only [outcome_mapError] using h.told w

theorem parts (h : Quiet x) : Parts s n cause failure x x where
  grows := h.enters.mono fun _ _ => trivial
  splits w hw := by
    obtain ⟨events, hj, he⟩ := h.enters w
    have hnone : messages events = 0 := List.countP_eq_zero.2 fun e hmem => by simp [he e hmem]
    exact .inl ⟨rfl, by rwa [h.told], events, hj, by rw [h.told, hnone, Nat.add_zero]⟩

end Quiet

namespace Parts

variable {x y : Effect (World (ω × Nat)) ε α}

theorem bind {f g : α → Effect (World (ω × Nat)) ε β} (h : Parts s n cause failure x y)
    (hf : ∀ a, Parts s n cause failure (f a) (g a)) :
    Parts s n cause failure (x >>= f) (y >>= g) where
  grows := h.grows.bind fun a => (hf a).grows
  splits w hw := by
    rcases h.splits w hw with ⟨hsame, hle, events, hj, hm⟩ |
      ⟨before, text, rest, e, hpre, hn, hr, he, hj, hrest⟩
    · rcases hx : x.outcome w with ⟨e | a, w'⟩ <;> rw [hx] at hsame hle hj hm
      · refine .inl ?_
        unfold Together
        rw [outcome_bind_error hx, outcome_bind_error hsame]
        exact ⟨rfl, hle, events, hj, hm⟩
      · unfold Together Apart
        rw [outcome_bind_ok hx, outcome_bind_ok hsame]
        dsimp only at hle hj hm
        rcases (hf a).splits w' hle with ⟨hsame', hle', events', hj', hm'⟩ |
          ⟨before, text, rest, e, hpre, hn, hr, he, hj', hrest⟩
        · refine .inl ⟨hsame', hle', events ++ events', ?_, ?_⟩
          · rw [hj', hj, List.append_assoc]
          · rw [hm', hm, messages_append, Nat.add_assoc]
        · refine .inr ⟨events ++ before, text, rest, e, ?_, ?_, hr, he, ?_, hrest⟩
          · simpa only [hj, List.append_assoc] using hpre
          · rw [messages_append, ← Nat.add_assoc, ← hm, hn]
          · simp only [hj', hj, List.append_assoc]
    · refine .inr ⟨before, text, rest, e, ?_, hn, ?_⟩
      · exact hpre.trans (prefix_bind (fun a => (hf a).grows) w)
      · rw [outcome_bind_error (Prod.ext hr rfl)]
        exact ⟨rfl, he, hj, hrest⟩

theorem mapError {failure : ε' → DialError} {f : ε → ε'}
    (h : Parts s n cause (fun e => failure (f e)) x y) :
    Parts s n cause failure (x.mapError f) (y.mapError f) where
  grows := h.grows.mapError f
  splits w hw := by
    unfold Together Apart
    simp only [outcome_mapError]
    rcases h.splits w hw with ⟨hsame, hle, hevents⟩ |
      ⟨before, text, rest, e, hpre, hn, hr, he, hj, hrest⟩
    · exact .inl ⟨by rw [hsame], hle, hevents⟩
    · exact .inr ⟨before, text, rest, f e, hpre, hn, by rw [hr]; rfl, he, hj, hrest⟩

theorem outcome_cleaned (x : Effect (World ω) DialError α) (w : World ω) :
    (do
      let result ← x.attempt
      removeAgent s
      Effect.ofExcept result).outcome w = ((x.outcome w).1,
        { (x.outcome w).2 with
          temporaries := (x.outcome w).2.temporaries.remove s.freshName }.after
            (x.outcome w).2.outer [.fileRemoved s.freshName]) := by
  simp only [removeAgent, outcome_bind, outcome_attempt, outcome_modify, outcome_ofExcept,
    World.outcome_note]

/-- Both clean up. -/
theorem cleaned {x y : Effect (World (ω × Nat)) DialError α}
    (h : Parts s n cause id x y) :
    Parts s n cause id
      (do
        let result ← x.attempt
        removeAgent s
        Effect.ofExcept result)
      (do
        let result ← y.attempt
        removeAgent s
        Effect.ofExcept result) where
  grows := .bind h.grows.attempt fun _ =>
    .bind (enters_removeAgent trivial) fun _ => adds_ofExcept _
  splits w hw := by
    unfold Together Apart
    simp only [outcome_cleaned, World.journal_after, World.outer_after]
    rcases h.splits w hw with ⟨hsame, hle, events, hj, hm⟩ |
      ⟨before, text, rest, e, hpre, hn, hr, he, hj, hrest⟩
    · refine .inl ⟨by rw [hsame], hle, events ++ [.fileRemoved s.freshName], ?_, ?_⟩
      · rw [hj, List.append_assoc]
      · rw [hm, messages_append]
        rfl
    · refine .inr ⟨before, text, rest ++ [.fileRemoved s.freshName], e, ?_, hn, hr, he, ?_, ?_⟩
      · exact hpre.trans (List.prefix_append _ _)
      · simp only [hj, List.append_assoc, List.cons_append]
      · simpa [or_imp, forall_and] using hrest

end Parts

end Programs

section Leaves

variable {t : Transport ω κ} {s : Setting}

theorem keeps_beside (told : Nat) : t.beside.Keeps (·.2 = told) where
  copy file name o ho := by rwa [Transport.beside, Transport.within, outcome_within]
  command line o ho := by rwa [Transport.beside, Transport.within, outcome_within]
  start ho hc := by
    rw [Transport.beside, Transport.within, outcome_within] at hc ⊢
    rw [← (Prod.mk.inj hc).2]
    exact ho

theorem quiet_attempt (paths : PathSyntax) :
    Quiet (attempt (World.transport t.beside) s paths) where
  enters w := by
    obtain ⟨o, status, h | h | h⟩ := (attempted t.beside s paths w).journal <;> rw [h] <;>
      exact ⟨_, rfl, by simp [Event.isMessage]⟩
  told w := (same_attempt (keeps_beside w.outer.2).same paths w rfl).2

theorem quiet_ask (line : String) (read : String → Except ProbeError Platform) :
    Quiet (Platform.ask (World.transport t.beside) line read) where
  enters := enters_ask rfl
  told w := (same_ask (keeps_beside w.outer.2).same line read w rfl).2

theorem quiet_runLine (line : String) : Quiet (runLine (World.transport t.beside) line) where
  enters := enters_runLine rfl
  told w := (same_runLine (keeps_beside w.outer.2).same line w rfl).2

theorem quiet_copy (file : LocalFile) (name : String) :
    Quiet ((World.transport t.beside).copy file name) where
  enters := enters_copy rfl
  told w := ((same_transport (keeps_beside w.outer.2).same).copy file name w rfl).2

theorem quiet_extractAgent (platform : Platform) :
    Quiet (extractAgent (ω := ω × Nat) s platform) where
  enters := enters_extractAgent rfl
  told w := by
    obtain ⟨events, -, h⟩ := outcome_extractAgent s platform w
    rw [h]
    rfl

variable {n : Nat} {cause : PromptError}

theorem outcome_losing (lost : Nat → Option PromptError) (text : String) (w : World (ω × Nat)) :
    ((World.prompter (Prompter.losing lost)).message text).outcome w =
      (match lost w.outer.2 with | none => .ok () | some cause => .error cause,
        w.after (w.outer.1, w.outer.2 + 1) [.message text]) := by
  rw [World.outcome_message, Prompter.losing, Prompter.within, outcome_within,
    Prompter.counting]
  simp only [outcome_bind, outcome_get, outcome_set]
  rcases lost w.outer.2 with _ | cause <;> rfl

/-- The message that is lost is where the two part. -/
theorem parts_message {failure : ε → DialError} {f : PromptError → ε} {text : String}
    (h : failure (f cause) = undelivered text cause) :
    Parts s n cause failure
      (((World.prompter (Prompter.losing (ω := ω) fun _ => none)).message text).mapError f)
      (((World.prompter (Prompter.losing (onlyAfter n cause))).message text).mapError f) where
  grows := (enters_message trivial).mapError f
  splits w hw := by
    unfold Together Apart
    simp only [outcome_mapError, outcome_losing]
    by_cases hn : w.outer.2 = n
    · refine .inr ⟨[], text, [], f cause, List.prefix_rfl, hn, ?_, h, rfl, nofun⟩
      rw [onlyAfter, if_pos hn]
      rfl
    · refine .inl ⟨?_, Nat.lt_of_le_of_ne hw hn, [.message text], rfl, rfl⟩
      rw [onlyAfter, if_neg hn]

end Leaves

section Dials

variable {t : Transport ω κ} {s : Setting} {n : Nat} {cause : PromptError}

theorem parts_probe :
    Parts s n cause .probe
      (Platform.probe (World.transport t.beside) (World.prompter (Prompter.losing fun _ => none)))
      (Platform.probe (World.transport t.beside)
        (World.prompter (Prompter.losing (onlyAfter n cause)))) := by
  unfold Platform.probe
  refine .bind (parts_message rfl) fun _ => .bind (quiet_ask _ _).attempt.parts fun r => ?_
  rcases r with posix | platform
  · refine .bind (parts_message rfl) fun _ => .bind (quiet_ask _ _).attempt.parts fun r => ?_
    rcases r with windows | platform
    · exact (Quiet.of_unchanged fun _ => rfl).parts
    · exact (Quiet.of_unchanged fun _ => rfl).parts
  · exact (Quiet.of_unchanged fun _ => rfl).parts

theorem parts_tell {text : String} (h : undelivered text cause = .prompt cause) :
    Parts s n cause id
      (tell (World.prompter (Prompter.losing (ω := ω) fun _ => none)) text)
      (tell (World.prompter (Prompter.losing (onlyAfter n cause))) text) :=
  parts_message h.symm

theorem parts_copyAgent (name : String) :
    Parts s n cause id
      (copyAgent (World.transport t.beside) (World.prompter (Prompter.losing fun _ => none)) s name)
      (copyAgent (World.transport t.beside)
        (World.prompter (Prompter.losing (onlyAfter n cause))) s name) := by
  refine (parts_tell rfl).bind fun _ => ?_
  refine (Quiet.of_unchanged fun _ => rfl).parts.bind fun w => ?_
  exact ((quiet_copy _ name).mapError _).parts

theorem compositional_parts :
    Compositional fun _ (x y : Effect (World (ω × Nat)) DialError _) => Parts s n cause id x y :=
  ⟨.bind, fun h => (Quiet.of_unchanged h).parts⟩

theorem parts_install :
    Parts s n cause id (install t.beside (Prompter.losing fun _ => none) s)
      (install t.beside (Prompter.losing (onlyAfter n cause)) s) := by
  refine related_install compositional_parts (.mapError parts_probe) (fun text htext => ?_)
    (fun platform => (quiet_extractAgent platform).parts)
    (fun name => (parts_copyAgent name).cleaned) (fun line => (quiet_runLine line).parts)
  simp only [List.mem_cons, List.not_mem_nil, or_false] at htext
  rcases htext with rfl | rfl <;> exact parts_tell rfl

theorem parts_dialTransport :
    Parts s n cause id (dialTransport t.beside (Prompter.losing fun _ => none) s)
      (dialTransport t.beside (Prompter.losing (onlyAfter n cause)) s) :=
  related_dialTransport compositional_parts (fun paths => (quiet_attempt paths).attempt.parts)
    (fun paths => ((quiet_attempt paths).mapError _).parts) (parts_tell rfl) parts_install

/-- A dial on a far side that is in the state `o`, by one that has told no messages yet. -/
def dialLosing (t : Transport ω κ) (s : Setting) (lost : Nat → Option PromptError) (o : ω) :
    Except DialError Connection × World (ω × Nat) :=
  (dialTransport t.beside (Prompter.losing lost) s).outcome (World.start (o, 0))

variable (t s n cause)

/-- A dial in which the message that follows `n` others is lost goes as if it had been delivered, if
there is no such message. Else it goes so up to the message, and ends there with an error that tells
of it; no process of the agent and no temporary file is left. -/
theorem dialLosing_onlyAfter (o : ω) :
    (messages (dialLosing t s (fun _ => none) o).2.journal ≤ n →
      dialLosing t s (onlyAfter n cause) o = dialLosing t s (fun _ => none) o) ∧
    (n < messages (dialLosing t s (fun _ => none) o).2.journal →
      ∃ before text after rest,
        (dialLosing t s (fun _ => none) o).2.journal = before ++ .message text :: after ∧
        messages before = n ∧
        (dialLosing t s (onlyAfter n cause) o).2.journal = before ++ .message text :: rest ∧
        (∀ e ∈ rest, e = .fileRemoved s.freshName) ∧
        (dialLosing t s (onlyAfter n cause) o).1 = .error (undelivered text cause) ∧
        (dialLosing t s (onlyAfter n cause) o).2.temporaries = [] ∧
        Alive (dialLosing t s (onlyAfter n cause) o).2.journal 0) := by
  have hparts : Parts s n cause id (dialTransport t.beside (Prompter.losing fun _ => none) s)
      (dialTransport t.beside (Prompter.losing (onlyAfter n cause)) s) := parts_dialTransport
  rcases hparts.splits (World.start (o, 0)) (Nat.zero_le n) with
    ⟨hsame, hle, events, hj, hm⟩ | ⟨before, text, rest, e, ⟨after, hj⟩, hn, hr, he, hj', hrest⟩
  · have hcount : messages (dialLosing t s (fun _ => none) o).2.journal ≤ n := by
      have hj' : (dialLosing t s (fun _ => none) o).2.journal = events := hj
      have hm' : _ = 0 + messages events := hm
      rwa [hj', ← Nat.zero_add (messages events), ← hm']
    exact ⟨fun _ => hsame, fun hlt => absurd hcount (Nat.not_le.2 hlt)⟩
  · have hjournal : (dialLosing t s (fun _ => none) o).2.journal =
        before ++ .message text :: after := by
      rw [dialLosing, ← hj]
      simp [World.start]
    have hbefore : messages before = n := (Nat.zero_add _).symm.trans hn
    refine ⟨fun hle => ?_, fun _ => ⟨before, text, after, rest, hjournal, hbefore, hj', hrest, ?_,
      ?_, ?_⟩⟩
    · rw [hjournal, messages_append, messages_message, hbefore] at hle
      omega
    · exact hr.trans (congrArg Except.error he)
    · exact temporaries_dialTransport rfl
    · obtain ⟨events, closed, hevents, htended, -⟩ := dialTransport_tended (t := t.beside)
        (p := Prompter.losing (onlyAfter n cause)) (s := s) (World.start (o, 0))
      rw [hr] at htended
      rw [dialLosing, hevents]
      exact htended.alive

end Dials

end Dial

end RemoteAgent
