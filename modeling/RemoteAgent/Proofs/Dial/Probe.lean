import RemoteAgent.Platform.Probe
import RemoteAgent.Proofs.Dial.Journal
import RemoteAgent.Proofs.Platform.Uname

/-! # What probing does

A platform is a POSIX one exactly if `uname` named it; one that is not has been named by a Windows
environment, so its system is Windows.
-/

namespace RemoteAgent

namespace Platform

theorem posix_of_ofUname {output : String} {platform : Platform}
    (h : ofUname output = .ok platform) : platform.posix = true := by
  cases ofUname_eq_iff.1 h with
  | platform => rfl

theorem of_ofWindowsEnvironment {output : String} {platform : Platform}
    (h : ofWindowsEnvironment output = .ok platform) :
    platform.posix = false ∧ platform.os = "windows" := by
  unfold ofWindowsEnvironment at h
  split at h
  · cases h
  · cases h
  · split at h
    · cases h
    · cases h
    next hos _ =>
      cases h
      refine ⟨rfl, ?_⟩
      simp only [listed?, windowsSystems, List.find?_cons, List.find?_nil] at hos
      split at hos <;> simp_all

variable {ω κ : Type}

theorem outcome_ask (t : Transport ω κ) (line : String)
    (read : String → Except ProbeError Platform) (w : ω) :
    (ask t line read).outcome w =
      (((t.run line).outcome w).1.mapError ProbeError.transport >>= read,
        ((t.run line).outcome w).2) := by
  simp only [ask, Effect.outcome_bind, Effect.outcome_mapError, Effect.outcome_ofExcept]
  rcases (t.run line).outcome w with ⟨_ | _, _⟩ <;> rfl

theorem read_of_ask {t : Transport ω κ} {line : String}
    {read : String → Except ProbeError Platform} {w w' : ω} {platform : Platform}
    (h : (ask t line read).outcome w = (.ok platform, w')) :
    ∃ output, (t.run line).outcome w = (.ok output, w') ∧ read output = .ok platform := by
  rw [outcome_ask] at h
  rcases hr : (t.run line).outcome w with ⟨e | output, v⟩ <;> rw [hr] at h
  · cases h
  · obtain ⟨ho, rfl⟩ := Prod.mk.inj h
    exact ⟨output, rfl, ho⟩

end Platform

namespace Dial

open Effect Platform

variable {ω κ : Type}

theorem outcome_ask_noted (t : Transport ω κ) (line : String)
    (read : String → Except ProbeError Platform) (w : World ω) :
    (ask (World.transport t) line read).outcome w =
      (((ask t line read).outcome w.outer).1,
        w.after ((ask t line read).outcome w.outer).2 [.command line]) := by
  simp only [outcome_ask, World.outcome_run]

section Probes

variable (t : Transport ω κ) (p : Prompter ω) (w : World ω)

/-- The ways probing goes: what it comes to, and the world after it. -/
inductive Probed : Except ProbeError Platform → World ω → Prop where

  | untold {cause : PromptError} {o : ω} :
      (p.message posixMessage).outcome w.outer = (.error cause, o) →
      Probed (.error (.notify cause)) (w.after o [.message posixMessage])

  | posix {platform : Platform} {o o' : ω} :
      (p.message posixMessage).outcome w.outer = (.ok (), o) →
      (ask t posixLine ofUname).outcome o = (.ok platform, o') →
      Probed (.ok platform) (w.after o' [.message posixMessage, .command posixLine])

  | untoldAgain {posix : ProbeError} {cause : PromptError} {o o' o'' : ω} :
      (p.message posixMessage).outcome w.outer = (.ok (), o) →
      (ask t posixLine ofUname).outcome o = (.error posix, o') →
      (p.message windowsMessage).outcome o' = (.error cause, o'') →
      Probed (.error (.notify cause))
        (w.after o'' [.message posixMessage, .command posixLine, .message windowsMessage])

  | windows {posix : ProbeError} {platform : Platform} {o o' o'' o₃ : ω} :
      (p.message posixMessage).outcome w.outer = (.ok (), o) →
      (ask t posixLine ofUname).outcome o = (.error posix, o') →
      (p.message windowsMessage).outcome o' = (.ok (), o'') →
      (ask t windowsLine ofWindowsEnvironment).outcome o'' = (.ok platform, o₃) →
      Probed (.ok platform)
        (w.after o₃ [.message posixMessage, .command posixLine, .message windowsMessage,
          .command windowsLine])

  | exhausted {posix windows : ProbeError} {o o' o'' o₃ : ω} :
      (p.message posixMessage).outcome w.outer = (.ok (), o) →
      (ask t posixLine ofUname).outcome o = (.error posix, o') →
      (p.message windowsMessage).outcome o' = (.ok (), o'') →
      (ask t windowsLine ofWindowsEnvironment).outcome o'' = (.error windows, o₃) →
      Probed (.error (.exhausted posix windows))
        (w.after o₃ [.message posixMessage, .command posixLine, .message windowsMessage,
          .command windowsLine])

theorem probed :
    Probed t p w ((probe (World.transport t) (World.prompter p)).outcome w).1
      ((probe (World.transport t) (World.prompter p)).outcome w).2 := by
  simp only [probe, outcome_bind, outcome_mapError, outcome_attempt, World.outcome_message,
    outcome_ask_noted]
  rcases hm : (p.message posixMessage).outcome w.outer with ⟨cause | _, o⟩
  · exact .untold hm
  simp only [mapError_ok, World.outer_after, World.after_after, List.singleton_append]
  rcases ha : (ask t posixLine ofUname).outcome o with ⟨posix | platform, o'⟩
  case ok.ok => exact .posix hm ha
  simp only [outcome_bind, outcome_mapError, outcome_attempt, World.outcome_message,
    outcome_ask_noted, World.outer_after, World.after_after, List.cons_append, List.nil_append]
  rcases hm' : (p.message windowsMessage).outcome o' with ⟨cause | _, o''⟩
  · exact .untoldAgain hm ha hm'
  simp only [mapError_ok, World.outer_after, World.after_after, List.cons_append,
    List.nil_append]
  rcases ha' : (ask t windowsLine ofWindowsEnvironment).outcome o'' with ⟨windows | platform, o₃⟩
  · exact .exhausted hm ha hm' ha'
  · exact .windows hm ha hm' ha'

variable {t p w}

theorem outcome_probe_posix {platform : Platform} {o o' : ω}
    (hm : (p.message posixMessage).outcome w.outer = (.ok (), o))
    (ha : (ask t posixLine ofUname).outcome o = (.ok platform, o')) :
    (probe (World.transport t) (World.prompter p)).outcome w =
      (.ok platform, w.after o' [.message posixMessage, .command posixLine]) := by
  have h := probed t p w
  generalize (probe (World.transport t) (World.prompter p)).outcome w = x at h
  obtain ⟨r, w'⟩ := x
  cases h with
  | untold hm' => cases hm.symm.trans hm'
  | posix hm' ha' =>
    cases hm.symm.trans hm'
    cases ha.symm.trans ha'
    rfl
  | untoldAgain hm' ha' | windows hm' ha' | exhausted hm' ha' =>
    cases hm.symm.trans hm'
    cases ha.symm.trans ha'

/-- What probing may enter into the journal, in its order. -/
def probeEvents : List Event := [
  .message "Probing endpoint (POSIX)...",
  .command "uname -s -m",
  .message "Probing endpoint (Windows)...",
  .command "cmd /c set"]

theorem Probed.journal {r : Except ProbeError Platform} {w' : World ω} (h : Probed t p w r w') :
    ∃ o probing, w' = w.after o probing ∧ probing <+: probeEvents := by
  cases h with
  | untold => exact ⟨_, _, rfl, _, rfl⟩
  | posix => exact ⟨_, _, rfl, _, rfl⟩
  | untoldAgain => exact ⟨_, _, rfl, _, rfl⟩
  | windows => exact ⟨_, _, rfl, _, rfl⟩
  | exhausted => exact ⟨_, _, rfl, _, rfl⟩

theorem Probed.posix_of_os_ne {platform : Platform} {w' : World ω}
    (h : Probed t p w (.ok platform) w') (hos : platform.os ≠ "windows") :
    platform.posix = true := by
  cases h with
  | posix _ ha =>
    obtain ⟨output, -, ho⟩ := read_of_ask ha
    exact posix_of_ofUname ho
  | windows _ _ _ ha =>
    obtain ⟨output, -, ho⟩ := read_of_ask ha
    exact absurd (of_ofWindowsEnvironment ho).2 hos

end Probes

end Dial

end RemoteAgent
