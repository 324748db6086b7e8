import RemoteAgent.Proofs.Congruence
import RemoteAgent.Proofs.Dial.Composition

/-! # Dials through transports that do the same

A dial touches the world outside only through its transport and the messages of its prompter. So it
does not tell two transports apart that do the same in the worlds it comes to, and what they keep,
it keeps. Nothing but the first command line that it has prepared tells one beginning from another.
-/

namespace RemoteAgent.Dial

open Effect

variable {ω κ ε α : Type} {t t' : Transport ω κ} {p : Prompter ω} {s : Setting} {I : ω → Prop}

theorem same_lift {x y : Effect ω ε α} (h : Same I x y) :
    Same (fun w : World ω => I w.outer) (World.lift x) (World.lift y) :=
  fun w hw => (h w.outer hw).within fun _ _ => rfl

theorem same_note (e : Event) :
    Same (fun w : World ω => I w.outer) (World.note e : Effect (World ω) ε Unit) (World.note e) :=
  .of_keeps fun _ hw => hw

theorem same_transport (h : t.Same t' I) :
    (World.transport t).Same (World.transport t') (fun w => I w.outer) where
  copy file name := .bind (same_note _) fun _ => same_lift (h.copy file name)
  command line := .bind (same_note _) fun _ => same_lift (h.command line)
  start hw hc := by
    rw [World.outcome_command] at hc
    obtain ⟨hprepared, rfl⟩ := Prod.mk.inj hc
    exact (h.start hw (Prod.ext hprepared rfl)).within fun _ _ => rfl

theorem same_message (hp : p.Keeps I) (text : String) :
    Same (fun w : World ω => I w.outer) ((World.prompter p).message text)
      ((World.prompter p).message text) :=
  .bind (same_note _) fun _ => same_lift (.of_keeps fun _ ho => hp text ho)

theorem same_tell (hp : p.Keeps I) (text : String) :
    Same (fun w : World ω => I w.outer) (tell (World.prompter p) text)
      (tell (World.prompter p) text) :=
  (same_message hp text).mapError _

theorem same_attempt (h : t.Same t' I) (paths : PathSyntax) :
    Same (fun w : World ω => I w.outer) (attempt (World.transport t) s paths)
      (attempt (World.transport t') s paths) := by
  have ht := same_transport h
  refine fun w hw => ((ht.command _ w hw).mapError _).bind fun prepared w' hc _ => ?_
  refine ((ht.start hw (outcome_of_mapError hc)).mapError _).bind fun process w'' _ hw'' => ?_
  refine (same_note .agentStarted w'' hw'').bind fun _ v _ hv => ⟨rfl, ?_⟩
  rcases greet s.own (Connection.new process s.config.killDelay) with ⟨cause | _, c⟩ <;> exact hv

theorem same_ask (h : t.Same t' I) (line : String)
    (read : String → Except ProbeError Platform) :
    Same (fun w : World ω => I w.outer) (Platform.ask (World.transport t) line read)
      (Platform.ask (World.transport t') line read) :=
  .bind (((same_transport h).run line).mapError _) fun _ =>
    .of_unchanged fun w => by rw [outcome_ofExcept]

theorem same_probe (h : t.Same t' I) (hp : p.Keeps I) :
    Same (fun w : World ω => I w.outer) (Platform.probe (World.transport t) (World.prompter p))
      (Platform.probe (World.transport t') (World.prompter p)) := by
  refine .bind ((same_message hp _).mapError _) fun _ => .bind (same_ask h _ _).attempt fun r => ?_
  rcases r with posix | platform
  · refine .bind ((same_message hp _).mapError _) fun _ => ?_
    refine .bind (same_ask h _ _).attempt fun r => ?_
    rcases r with windows | platform
    · exact .of_unchanged fun _ => rfl
    · exact .of_unchanged fun _ => rfl
  · exact .of_unchanged fun _ => rfl

theorem same_extractAgent (platform : Platform) :
    Same (fun w : World ω => I w.outer) (extractAgent s platform) (extractAgent s platform) := by
  refine .of_keeps fun w hw => ?_
  obtain ⟨events, -, ho⟩ := outcome_extractAgent s platform w
  rw [ho]
  exact hw

theorem same_copyAgent (h : t.Same t' I) (hp : p.Keeps I) (name : String) :
    Same (fun w : World ω => I w.outer)
      (copyAgent (World.transport t) (World.prompter p) s name)
      (copyAgent (World.transport t') (World.prompter p) s name) := by
  refine .bind (same_tell hp _) fun _ => .bind (.of_unchanged fun _ => rfl) fun w => ?_
  exact ((same_transport h).copy _ name).mapError _

theorem same_deliverAgent (h : t.Same t' I) (hp : p.Keeps I) (name : String) :
    Same (fun w : World ω => I w.outer) (deliverAgent (World.transport t) (World.prompter p) s name)
      (deliverAgent (World.transport t') (World.prompter p) s name) := by
  refine .bind (same_copyAgent h hp name).attempt fun copied => ?_
  refine .bind (.of_keeps fun _ hw => hw) fun _ => .of_unchanged fun w => ?_
  rw [outcome_ofExcept]

theorem same_runLine (h : t.Same t' I) (line : String) :
    Same (fun w : World ω => I w.outer) (runLine (World.transport t) line)
      (runLine (World.transport t') line) :=
  .bind (((same_transport h).run line).mapError _) fun _ => .of_unchanged fun _ => rfl

theorem compositional_same :
    Compositional fun _ (x y : Effect (World ω) DialError _) => Same (fun w => I w.outer) x y :=
  ⟨.bind, .of_unchanged⟩

theorem same_install (h : t.Same t' I) (hp : p.Keeps I) :
    Same (fun w : World ω => I w.outer) (install t p s) (install t' p s) :=
  related_install compositional_same ((same_probe h hp).mapError _) (fun _ _ => same_tell hp _)
    same_extractAgent (same_deliverAgent h hp) (same_runLine h)

theorem same_dialTransport (h : t.Same t' I) (hp : p.Keeps I) :
    Same (fun w : World ω => I w.outer) (dialTransport t p s) (dialTransport t' p s) :=
  related_dialTransport compositional_same (fun paths => (same_attempt h paths).attempt)
    (fun paths => (same_attempt h paths).mapError _) (same_tell hp _) (same_install h hp)

/-- What the calls of the transport and the messages keep, a dial keeps. -/
theorem dialTransport_keeps (ht : t.Keeps I) (hp : p.Keeps I) {w : World ω} (hw : I w.outer) :
    I ((dialTransport t p s).outcome w).2.outer :=
  (same_dialTransport ht.same hp w hw).2

/-- A dial begins with preparing the agent's command line, and sees nothing else of its world. -/
theorem outcome_dialTransport_congr {w : World ω} {o o' : ω}
    (h : (t.command (agentLine s .posix)).outcome o = (t.command (agentLine s .posix)).outcome o') :
    (dialTransport t p s).outcome { w with outer := o } =
      (dialTransport t p s).outcome { w with outer := o' } := by
  have hcommand : ((World.transport t).command (agentLine s .posix)).outcome { w with outer := o } =
      ((World.transport t).command (agentLine s .posix)).outcome { w with outer := o' } := by
    simp only [World.outcome_command, h]
    rfl
  have hattempt : (attempt (World.transport t) s .posix).outcome { w with outer := o } =
      (attempt (World.transport t) s .posix).outcome { w with outer := o' } := by
    have hline : Invocation.commandLine s.own .posix s.config.agentLogLevel =
        agentLine s .posix := rfl
    refine outcome_bind_congr ?_ _
    simp only [outcome_mapError, hline, hcommand]
  refine outcome_bind_congr ?_ _
  simp only [outcome_attempt, hattempt]

end RemoteAgent.Dial
