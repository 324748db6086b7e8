import RemoteAgent.Proofs.Platform.EnvironmentDump
import RemoteAgent.Proofs.Text.Utf8
import RemoteAgent.Proofs.Transport.Docker
import RemoteAgent.Rehearsal.Reply

/-! # The home directory of a container

A POSIX container prints its environment, and the variable that is printed first among those named
HOME, in whatever case, is taken for the home directory. That is the variable named HOME unless one
named like it stands before it.
-/

namespace RemoteAgent

open EnvironmentDump

/-- A process that prints a text and ends well. -/
structure Process.Prints (p : Process) (text : String) : Prop where
  output : p.output [] true = Text.encode text
  isSuccess : p.finalStatus.isSuccess = true

theorem Process.Prints.result_eq {p : Process} {text : String} (h : p.Prints text) :
    p.result = .ok text := by
  rw [Process.result, if_pos h.isSuccess, h.output, Text.decodeLossy_encode]

namespace EnvironmentDump

variable {vars : List (String × String)} {name : String}

/-- The value of the variable that is named exactly so. -/
def named (vars : List (String × String)) (name : String) : Option String :=
  (vars.find? (·.1 = name)).map (·.2)

/-- Where no other variable is named so up to case, case does not matter. -/
theorem firstNamed_eq_named (h : ∀ v ∈ vars, sameName v.1.toList name.toList → v.1 = name) :
    firstNamed vars name = named vars name := by
  induction vars with
  | nil => rfl
  | cons v vars ih =>
    obtain ⟨hv, hvars⟩ := List.forall_mem_cons.1 h
    by_cases hname : v.1 = name
    · simp [firstNamed, named, hname, sameName]
    · have hother : sameName v.1.toList name.toList = false := by
        simpa using mt hv hname
      simpa [firstNamed, named, hname, hother] using ih hvars

end EnvironmentDump

namespace Docker

open Effect

variable {ω : Type} (d : Docker) (host : Host ω)

/-- A container with an environment, a user and a group, as the client finds it when it is asked for
them one after the other. -/
structure IsPosix (vars : List (String × String)) (user group : String) (w w₁ w₂ w₃ : ω) :
    Prop where
  environment : ∃ p, (host.start (d.probeCommand ["env"])).outcome w = (.ok p, w₁) ∧
    p.Prints (print vars)
  user : ∃ p, (host.start (d.probeCommand ["id", "-un"])).outcome w₁ = (.ok p, w₂) ∧
    p.result = .ok user
  group : ∃ p, (host.start (d.probeCommand ["id", "-gn"])).outcome w₂ = (.ok p, w₃) ∧
    p.result = .ok group

/-- What is known of a POSIX container with a home directory, or without one. -/
def reported (user group : String) : Option String → Except TransportError ContainerProperties
  | some home => .ok ⟨false, home, Text.trim user, Text.trim group⟩
  | none => .error (.container "HOME is not set")

variable {d host} {vars : List (String × String)} {user group : String} {w w₁ w₂ w₃ : ω}

theorem outcome_ask_of_result {arguments : List String} {p : Process} {text : String} {v v' : ω}
    (hstart : (host.start (d.probeCommand arguments)).outcome v = (.ok p, v'))
    (hresult : p.result = .ok text) : (d.ask host arguments).outcome v = (.ok text, v') := by
  rw [ask, outcome_runToEnd, ← probeCommand, hstart]
  exact Prod.ext hresult rfl

theorem outcome_probePosix (hprintable : ∀ v ∈ vars, IsPrintable v)
    (h : IsPosix d host vars user group w w₁ w₂ w₃) :
    (d.probePosix host).outcome w = (reported user group (firstNamed vars "HOME"),
      if (firstNamed vars "HOME").isSome then w₃ else w₁) := by
  obtain ⟨⟨env, henv, hprints⟩, ⟨un, hun, huser⟩, gn, hgn, hgroup⟩ := h
  have hknown : known (print vars) "HOME" =
      match firstNamed vars "HOME" with
      | some home => .ok home
      | none => .error (.container "HOME is not set") := by
    rw [known, value?_print hprintable]
    rfl
  rw [probePosix, outcome_bind_ok (outcome_ask_of_result henv hprints.result_eq), hknown]
  rcases firstNamed vars "HOME" with _ | home
  · rfl
  · simp only [Effect.ofExcept, pure_bind]
    rw [outcome_bind_ok (outcome_ask_of_result hun huser),
      outcome_bind_ok (outcome_ask_of_result hgn hgroup)]
    rfl

theorem reported_injective : Function.Injective (reported user group) := by
  intro a b h
  cases a <;> cases b <;> simp_all [reported]

theorem outcome_probe_of_posix {c : ContainerProperties}
    (h : (d.probePosix host).outcome w = (.ok c, w₃)) : (d.probe host).outcome w = (.ok c, w₃) := by
  rw [probe, outcome_bind_ok (outcome_attempt _ _), h]
  rfl

/-- A container whose properties are remembered: every command runs in its home directory, and every
copy goes there. -/
structure UsesHome (d : Docker) (host : Host ω) (p : Prompter ω) (c : ContainerProperties)
    (home : String) : Prop where
  commands : ∀ line v, ((d.transport host p).command line).outcome ⟨v, some (.ok c)⟩ =
    (.ok (d.execCommand ["sh", "-c", line] (some home) d.configuredUser), ⟨v, some (.ok c)⟩)
  copies : ∀ file name v, ((d.transport host p).copy file name).outcome ⟨v, some (.ok c)⟩ =
    (((d.copyIntoPosix host c file.path (home ++ "/" ++ name)).outcome v).1,
      ⟨((d.copyIntoPosix host c file.path (home ++ "/" ++ name)).outcome v).2, some (.ok c)⟩)

theorem usesHome (d : Docker) (host : Host ω) (p : Prompter ω) {c : ContainerProperties}
    (h : c.windows = false) : d.UsesHome host p c c.home where
  commands line v := by
    rw [outcome_command_some]
    simp only [informed, Effect.outcome_bind, Effect.outcome_ofExcept, mapError_ok, h]
    rfl
  copies file name v := by
    rw [outcome_copy_some]
    simp only [informed, Effect.outcome_bind, Effect.outcome_ofExcept, mapError_ok, h]
    rfl

/-- The home directory of a POSIX container is the value of the variable that is printed first among
those named HOME in whatever case, and there is none only if no variable is named so. It is what all
later commands and copies go by. It is the value of the variable named HOME just if the variable
that is printed first has the same value. -/
theorem posixHome_first (p : Prompter ω) (hprintable : ∀ v ∈ vars, IsPrintable v)
    (h : IsPosix d host vars user group w w₁ w₂ w₃) :
    ((d.probePosix host).outcome w).1 = reported user group (firstNamed vars "HOME") ∧
    (((d.probePosix host).outcome w).1 = reported user group (named vars "HOME") ↔
      firstNamed vars "HOME" = named vars "HOME") ∧
    ((∀ v ∈ vars, sameName v.1.toList "HOME".toList → v.1 = "HOME") →
      ((d.probePosix host).outcome w).1 = reported user group (named vars "HOME")) ∧
    ∀ home, firstNamed vars "HOME" = some home → ∃ c,
      (d.properties host).outcome ⟨w, none⟩ = (.ok c, ⟨w₃, some (.ok c)⟩) ∧
      d.UsesHome host p c home := by
  have ho := outcome_probePosix hprintable h
  have hresult := congrArg Prod.fst ho
  refine ⟨hresult, ?_, fun hexact => ?_, fun home hhome => ?_⟩
  · rw [hresult]
    exact reported_injective.eq_iff
  · rw [hresult, firstNamed_eq_named hexact]
  · rw [hhome] at ho
    refine ⟨⟨false, home, Text.trim user, Text.trim group⟩, ?_, usesHome d host p rfl⟩
    rw [outcome_properties_none (outcome_probe_of_posix ho), outcome_properties_some]
    rfl

section Shadowed

/-- Two variables whose names differ in case only. -/
def shadowedHome : List (String × String) :=
  [("home", "/srv/lower"), ("HOME", "/root")]

def shadowedReply (arguments : List String) : Rehearsal.Reply where
  output := Text.encode (if arguments.getLast? = some "env" then print shadowedHome else "app\n")
  errorOutput := []
  mode := .exit
  status := .exited 0

def shadowedContainer : Host Unit where
  executable := .ok ⟨"tether"⟩
  start c := pure (shadowedReply c.arguments).process

def shadowedClient : Docker :=
  .new (.new .docker .alpha "web")

theorem isPosix_shadowedContainer :
    IsPosix shadowedClient shadowedContainer shadowedHome "app\n" "app\n" () () () () where
  environment := ⟨_, rfl, rfl, rfl⟩
  user := ⟨_, rfl, rfl⟩
  group := ⟨_, rfl, rfl⟩

theorem isPrintable_shadowedHome : ∀ v ∈ shadowedHome, IsPrintable v := by
  decide

theorem posixHome_first_shadowed :
    ((shadowedClient.probePosix shadowedContainer).outcome ()).1 =
      reported "app\n" "app\n" (firstNamed shadowedHome "HOME") :=
  (posixHome_first (.silent Unit) isPrintable_shadowedHome isPosix_shadowedContainer).1

/-- A variable whose name differs from HOME in case only can be taken for the home directory. -/
theorem not_posixHome_named :
    ¬ ∀ (d : Docker) (host : Host Unit) (vars : List (String × String)) (user group : String),
      (vars.map (·.1)).Nodup → (∀ v ∈ vars, IsPrintable v) →
      IsPosix d host vars user group () () () () →
      ((d.probePosix host).outcome ()).1 = reported user group (named vars "HOME") := by
  intro h
  have hnamed := h shadowedClient shadowedContainer shadowedHome "app\n" "app\n" (by decide)
    isPrintable_shadowedHome isPosix_shadowedContainer
  rw [outcome_probePosix isPrintable_shadowedHome isPosix_shadowedContainer] at hnamed
  have heq : firstNamed shadowedHome "HOME" = named shadowedHome "HOME" :=
    reported_injective hnamed
  exact absurd heq (by decide)

end Shadowed

end Docker

end RemoteAgent
