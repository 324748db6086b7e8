import RemoteAgent.Proofs.Dial.Machine

/-! # How dials are put together

A relation between programs that goes from the parts of programs to the programs holds between two
dials, or two installations, if it holds between the parts that these are made of. What only one
program is said to do is such a relation too.
-/

namespace RemoteAgent.Dial

open Effect

variable {ω κ : Type}
  {R : ∀ α : Type, Effect (World ω) DialError α → Effect (World ω) DialError α → Prop}

variable (R) in
/-- A relation that goes from the parts of programs to the programs. -/
structure Compositional : Prop where
  bind : ∀ {α β x y} {f g : α → Effect (World ω) DialError β}, R α x y →
    (∀ a, R β (f a) (g a)) → R β (x >>= f) (y >>= g)
  unchanged : ∀ {α x}, (∀ w, (x.outcome w).2 = w) → R α x x

variable {t u : Transport ω κ} {p q : Prompter ω} {s : Setting}

theorem related_launchInstaller (h : Compositional R) {platform : Platform} {name : String}
    (htell : R _ (tell (World.prompter p) installMessage) (tell (World.prompter q) installMessage))
    (hrun : ∀ line, R _ (runLine (World.transport t) line) (runLine (World.transport u) line)) :
    R _ (launchInstaller (World.transport t) (World.prompter p) platform name)
      (launchInstaller (World.transport u) (World.prompter q) platform name) := by
  have hlast := h.bind htell fun _ => hrun (installLine platform.posix name)
  unfold launchInstaller
  split
  · exact h.bind (hrun _) fun _ => hlast
  · exact hlast

theorem related_install (h : Compositional R)
    (hprobe : R _
      ((Platform.probe (World.transport t) (World.prompter p)).mapError .probe)
      ((Platform.probe (World.transport u) (World.prompter q)).mapError .probe))
    (htell : ∀ text ∈ [extractMessage, installMessage],
      R _ (tell (World.prompter p) text) (tell (World.prompter q) text))
    (hextract : ∀ platform, R _ (extractAgent s platform) (extractAgent s platform))
    (hdeliver : ∀ name, R _ (deliverAgent (World.transport t) (World.prompter p) s name)
      (deliverAgent (World.transport u) (World.prompter q) s name))
    (hrun : ∀ line, R _ (runLine (World.transport t) line) (runLine (World.transport u) line)) :
    R _ (install t p s) (install u q s) := by
  unfold install installThrough installFor
  refine h.bind hprobe fun platform => h.bind (htell _ (by simp)) fun _ => ?_
  refine h.bind (hextract platform) fun _ => h.bind (hdeliver _) fun _ => ?_
  exact related_launchInstaller h (htell _ (by simp)) hrun

theorem related_afterAttempt (h : Compositional R) (paths : PathSyntax)
    (r : Except FailedAttempt Connection)
    (hreconnect : R _
      ((attempt (World.transport t) s paths).mapError fun failed => .reconnect failed.error)
      ((attempt (World.transport u) s paths).mapError fun failed => .reconnect failed.error))
    (htell : R _ (tell (World.prompter p) connectMessage) (tell (World.prompter q) connectMessage))
    (hinstall : R _ (install t p s) (install u q s)) :
    R _ (afterAttempt (World.transport t) (World.prompter p) s paths r)
      (afterAttempt (World.transport u) (World.prompter q) s paths r) := by
  rcases r with ⟨failure, e⟩ | c
  · by_cases hf : failure = .agentMissing
    · subst hf
      simp only [afterAttempt_missing, reconnection]
      exact h.bind hinstall fun _ => h.bind htell fun _ => hreconnect
    · unfold afterAttempt
      dsimp only
      rw [if_pos hf, if_pos hf]
      exact h.unchanged fun _ => rfl
  · exact h.unchanged fun _ => rfl

theorem related_dialTransport (h : Compositional R)
    (hattempt : ∀ paths, R _ (attempt (World.transport t) s paths).attempt
      (attempt (World.transport u) s paths).attempt)
    (hreconnect : ∀ paths, R _
      ((attempt (World.transport t) s paths).mapError fun failed => .reconnect failed.error)
      ((attempt (World.transport u) s paths).mapError fun failed => .reconnect failed.error))
    (htell : R _ (tell (World.prompter p) connectMessage) (tell (World.prompter q) connectMessage))
    (hinstall : R _ (install t p s) (install u q s)) :
    R _ (dialTransport t p s) (dialTransport u q s) := by
  refine h.bind (hattempt _) fun r => ?_
  rcases r with ⟨_ | _ | _, e⟩ | c
  case error.wrongShell =>
    exact h.bind (hattempt _) fun r => related_afterAttempt h _ r (hreconnect _) htell hinstall
  all_goals exact related_afterAttempt h _ _ (hreconnect _) htell hinstall

end RemoteAgent.Dial
