import RemoteAgent.Proofs.Congruence
import RemoteAgent.Proofs.Transport.Recorded
import RemoteAgent.Transport.Docker

/-! # What is remembered of a container

A container is probed during the first call, with commands that are run for nothing else. After
that the transport does what one would do that had been told what the probe came to: all calls use
the same properties, or all of them fail in the same way.
-/

namespace RemoteAgent.Docker

open Effect

variable {ω : Type}

section Commands

variable (d : Docker)

/-- A command that finds out something about the container. -/
def probeCommand (arguments : List String) : Command :=
  d.execCommand arguments none d.configuredUser

def probeCommands : List Command :=
  [["env"], ["id", "-un"], ["id", "-gn"], ["cmd", "/c", "set"]].map d.probeCommand

/-- A use of the host that is no part of a probe. -/
def IsOrdinary : Use → Prop
  | .started c _ => c ∉ d.probeCommands
  | .asked _ => True

theorem arguments_withVariables (c : Command) (settings : List (String × String)) :
    (c.withVariables settings).arguments = c.arguments := by
  induction settings generalizing c with
  | nil => rfl
  | cons v settings ih => exact ih _

theorem arguments_clientCommand (arguments : List String) :
    (d.clientCommand arguments).arguments = arguments :=
  arguments_withVariables _ _

theorem arguments_execCommand (arguments : List String) (directory user : Option String) :
    (d.execCommand arguments directory user).arguments =
      ["exec", "--interactive"] ++ (match user with | some user => ["--user", user] | none => []) ++
        (match directory with | some directory => ["--workdir", directory] | none => []) ++
        d.endpoint.hostname :: arguments :=
  arguments_clientCommand _ _

theorem clientCommand_notMem {arguments : List String} (h : arguments.head? ≠ some "exec") :
    d.clientCommand arguments ∉ d.probeCommands := by
  intro hmem
  obtain ⟨probing, -, heq⟩ := List.mem_map.1 hmem
  have harguments := congrArg Command.arguments heq
  rw [probeCommand, arguments_execCommand, arguments_clientCommand] at harguments
  exact h (harguments ▸ rfl)

/-- Probes are made in no directory of their own, and their command lines are shorter. -/
theorem shellCommand_notMem (shell flag line home : String) :
    d.execCommand [shell, flag, line] (some home) d.configuredUser ∉ d.probeCommands := by
  intro hmem
  obtain ⟨probing, hprobing, heq⟩ := List.mem_map.1 hmem
  have hshort : ∀ probing ∈ [["env"], ["id", "-un"], ["id", "-gn"], ["cmd", "/c", "set"]],
      probing.length ≤ 3 := by decide
  have hlength := congrArg (·.arguments.length) heq
  simp only [probeCommand, arguments_execCommand, List.length_append, List.length_cons,
    List.length_nil] at hlength
  have := hshort probing hprobing
  omega

theorem chownCommand_notMem (owner remote : String) :
    d.execCommand ["chown", owner, remote] none (some "root") ∉ d.probeCommands := by
  intro hmem
  obtain ⟨probing, hprobing, heq⟩ := List.mem_map.1 hmem
  have harguments := congrArg Command.arguments heq
  simp only [probeCommand, arguments_execCommand] at harguments
  simp only [List.mem_cons, List.not_mem_nil, or_false] at hprobing
  generalize d.configuredUser = configured at harguments
  rcases configured with _ | user <;> rcases hprobing with rfl | rfl | rfl | rfl <;>
    simp at harguments

end Commands

section Probing

variable (d : Docker)

/-- What is known of a Windows container by its environment. -/
def windowsProperties (environment : String) : Except TransportError ContainerProperties := do
  let home ← known environment "USERPROFILE"
  let user ← known environment "USERNAME"
  return { windows := true, home, user, group := "" }

/-- The ways a container is taken for a POSIX one. The first command that fails is the last one, and
so is the first one if there is no home directory. -/
inductive PosixProbed : List Use → Except TransportError ContainerProperties → Prop where

  | homeless {r : Except IoError Process} {e : TransportError} :
      (ended r >>= (known · "HOME")) = .error e →
      PosixProbed [.started (d.probeCommand ["env"]) r] (.error e)

  | nameless {r r' : Except IoError Process} {home : String} {e : TransportError} :
      (ended r >>= (known · "HOME")) = .ok home → ended r' = .error e →
      PosixProbed [.started (d.probeCommand ["env"]) r,
        .started (d.probeCommand ["id", "-un"]) r'] (.error e)

  | groupless {r r' r'' : Except IoError Process} {home user : String} {e : TransportError} :
      (ended r >>= (known · "HOME")) = .ok home → ended r' = .ok user → ended r'' = .error e →
      PosixProbed [.started (d.probeCommand ["env"]) r,
        .started (d.probeCommand ["id", "-un"]) r',
        .started (d.probeCommand ["id", "-gn"]) r''] (.error e)

  | found {r r' r'' : Except IoError Process} {home user group : String} :
      (ended r >>= (known · "HOME")) = .ok home → ended r' = .ok user → ended r'' = .ok group →
      PosixProbed [.started (d.probeCommand ["env"]) r,
        .started (d.probeCommand ["id", "-un"]) r',
        .started (d.probeCommand ["id", "-gn"]) r'']
        (.ok ⟨false, home, Text.trim user, Text.trim group⟩)

/-- The ways a container is probed. It is taken for a Windows one if and only if it could not be
taken for a POSIX one. -/
inductive Probed : List Use → Except String ContainerProperties → Prop where

  | posix {uses : List Use} {c : ContainerProperties} :
      PosixProbed d uses (.ok c) → Probed uses (.ok c)

  | windows {uses : List Use} {posix : TransportError} {r : Except IoError Process}
      {c : ContainerProperties} :
      PosixProbed d uses (.error posix) → (ended r >>= windowsProperties) = .ok c →
      Probed (uses ++ [.started (d.probeCommand ["cmd", "/c", "set"]) r]) (.ok c)

  | neither {uses : List Use} {posix windows : TransportError} {r : Except IoError Process} :
      PosixProbed d uses (.error posix) → (ended r >>= windowsProperties) = .error windows →
      Probed (uses ++ [.started (d.probeCommand ["cmd", "/c", "set"]) r])
        (.error s!"POSIX: {posix.message}; Windows: {windows.message}")

theorem probeWindows_eq (host : Host ω) :
    d.probeWindows host =
      d.ask host ["cmd", "/c", "set"] >>= fun environment =>
        Effect.ofExcept (windowsProperties environment) := by
  unfold probeWindows windowsProperties
  refine bind_congr fun environment => ?_
  rcases known environment "USERPROFILE" with e | home
  · rfl
  · rcases known environment "USERNAME" with e | user <;> rfl

variable (host : Host ω) (w : Recorded ω)

theorem outcome_ask_recorded (arguments : List String) :
    ∃ o r, (d.ask host.recorded arguments).outcome w =
      (ended r, ⟨o, w.uses ++ [.started (d.probeCommand arguments) r]⟩) := by
  rw [ask, outcome_runToEnd, outcome_start_recorded]
  exact ⟨_, _, rfl⟩

theorem posixProbed :
    ∃ uses, ((d.probePosix host.recorded).outcome w).2.uses = w.uses ++ uses ∧
      PosixProbed d uses ((d.probePosix host.recorded).outcome w).1 := by
  unfold probePosix
  obtain ⟨o, r, hr⟩ := outcome_ask_recorded d host w ["env"]
  rcases hended : ended r with e | environment <;> rw [hended] at hr
  · rw [outcome_bind_error hr]
    exact ⟨_, rfl, .homeless (by rw [hended]; rfl)⟩
  rw [outcome_bind_ok hr]
  rcases hhome : known environment "HOME" with e | home
  · exact ⟨_, rfl, .homeless (by rw [hended]; exact hhome)⟩
  have hfirst : (ended r >>= (known · "HOME")) = .ok home := by
    rw [hended]
    exact hhome
  simp only [Effect.ofExcept, pure_bind]
  obtain ⟨o', r', hr'⟩ := outcome_ask_recorded d host
    ⟨o, w.uses ++ [.started (d.probeCommand ["env"]) r]⟩ ["id", "-un"]
  rcases hended' : ended r' with e | user <;> rw [hended'] at hr'
  · rw [outcome_bind_error hr']
    exact ⟨_, by simp, .nameless hfirst hended'⟩
  rw [outcome_bind_ok hr']
  obtain ⟨o'', r'', hr''⟩ := outcome_ask_recorded d host
    ⟨o', w.uses ++ [.started (d.probeCommand ["env"]) r] ++
      [.started (d.probeCommand ["id", "-un"]) r']⟩ ["id", "-gn"]
  rcases hended'' : ended r'' with e | group <;> rw [hended''] at hr''
  · rw [outcome_bind_error hr'']
    exact ⟨_, by simp, .groupless hfirst hended' hended''⟩
  · rw [outcome_bind_ok hr'']
    exact ⟨_, by simp, .found hfirst hended' hended''⟩

theorem outcome_probeWindows :
    ∃ o r, (d.probeWindows host.recorded).outcome w = (ended r >>= windowsProperties,
      ⟨o, w.uses ++ [.started (d.probeCommand ["cmd", "/c", "set"]) r]⟩) := by
  obtain ⟨o, r, hr⟩ := outcome_ask_recorded d host w ["cmd", "/c", "set"]
  refine ⟨o, r, ?_⟩
  rw [probeWindows_eq, outcome_bind, hr]
  rcases ended r with e | environment
  · rfl
  · exact outcome_ofExcept _ _

theorem probed :
    ∃ uses, ((d.probe host.recorded).outcome w).2.uses = w.uses ++ uses ∧
      Probed d uses ((d.probe host.recorded).outcome w).1 := by
  obtain ⟨uses, huses, hposix⟩ := posixProbed d host w
  unfold probe
  rw [outcome_bind_ok (outcome_attempt _ _)]
  rcases hp : (d.probePosix host.recorded).outcome w with ⟨posix | c, w'⟩ <;>
    rw [hp] at huses hposix
  · obtain ⟨o, r, hr⟩ := outcome_probeWindows d host w'
    dsimp only at huses ⊢
    rw [outcome_bind_ok (outcome_attempt _ _), hr, huses]
    rcases hended : ended r >>= windowsProperties with windows | c
    · exact ⟨_, List.append_assoc _ _ _, .neither hposix hended⟩
    · exact ⟨_, List.append_assoc _ _ _, .windows hposix hended⟩
  · exact ⟨uses, huses, .posix hposix⟩

end Probing

section Informed

variable (d : Docker) (found : Except String ContainerProperties) (host : Host ω) (p : Prompter ω)

/-- The transport of one that has been told what a probe comes to, and never probes. -/
def informed : Transport ω Command where
  copy file name := do
    let c ← Effect.ofExcept (found.mapError .container)
    if c.windows then
      d.copyIntoWindows host p file.path (d.endpoint.hostname ++ ":" ++ (c.home ++ "\\" ++ name))
    else d.copyIntoPosix host c file.path (c.home ++ "/" ++ name)
  command line := do
    let c ← Effect.ofExcept (found.mapError .container)
    let shell := if c.windows then ["cmd", "/c", line] else ["sh", "-c", line]
    return d.execCommand shell (some c.home) d.configuredUser
  start c := host.start c

variable {d found host p}

theorem outcome_properties_some (w : ω) :
    (d.properties host).outcome ⟨w, some found⟩ =
      (found.mapError .container, ⟨w, some found⟩) := by
  unfold properties
  rw [outcome_bind_ok (outcome_get _)]
  dsimp only
  rw [outcome_ofExcept]

/-- The first call finds out what is remembered, and goes on as if it had been known. -/
theorem outcome_properties_none {w w' : ω} (h : (d.probe host).outcome w = (found, w')) :
    (d.properties host).outcome ⟨w, none⟩ = (d.properties host).outcome ⟨w', some found⟩ := by
  rw [outcome_properties_some]
  unfold properties
  rw [outcome_bind_ok (outcome_get _)]
  simp only [WithContainer.lift, outcome_bind, outcome_attempt, outcome_within, h, outcome_modify,
    outcome_ofExcept]

theorem outcome_command_some (line : String) (w : ω) :
    ((d.transport host p).command line).outcome ⟨w, some found⟩ =
      ((((d.informed found host p).command line).outcome w).1,
        ⟨(((d.informed found host p).command line).outcome w).2, some found⟩) := by
  simp only [transport, informed, outcome_bind, outcome_ofExcept, outcome_properties_some]
  rcases found with m | c <;> rfl

theorem outcome_copy_some (file : LocalFile) (name : String) (w : ω) :
    ((d.transport host p).copy file name).outcome ⟨w, some found⟩ =
      ((((d.informed found host p).copy file name).outcome w).1,
        ⟨(((d.informed found host p).copy file name).outcome w).2, some found⟩) := by
  simp only [transport, informed, outcome_bind, outcome_ofExcept, outcome_properties_some]
  rcases found with m | c
  · rfl
  · simp only [mapError_ok]
    split <;> simp only [WithContainer.lift, outcome_within]

section Adding

variable {P : Use → Prop}

theorem adds_runClient {arguments : List String}
    (h : ∀ result, P (.started (d.clientCommand arguments) result)) :
    Adds Recorded.uses P (d.runClient host.recorded arguments) :=
  .bind (adds_runToEnd host h) fun _ => adds_pure _

theorem adds_confirmRestart (hasked : P (.asked restartQuestion)) (patience : Nat) :
    Adds Recorded.uses P (confirmRestart p.recorded patience) := by
  induction patience with
  | zero => exact .of_unchanged fun _ => rfl
  | succ patience ih =>
    refine .bind ((adds_prompt p hasked).mapError _) fun answer => ?_
    split
    · exact adds_pure _
    · exact .of_unchanged fun _ => rfl
    · exact ih

variable (hclient : ∀ arguments result, arguments.head? ≠ some "exec" →
  P (.started (d.clientCommand arguments) result))

include hclient in
theorem adds_copyIntoWindows (hasked : P (.asked restartQuestion)) (source : Path)
    (destination : String) :
    Adds Recorded.uses P (d.copyIntoWindows host.recorded p.recorded source destination) := by
  have hrun : ∀ arguments : List String, arguments.head? ≠ some "exec" →
      Adds Recorded.uses P (d.runClient host.recorded arguments) :=
    fun arguments h => adds_runClient fun result => hclient arguments result h
  refine .bind (adds_confirmRestart hasked _) fun _ => .bind (hrun _ (by simp)) fun _ => ?_
  refine .bind (hrun _ (by simp)).attempt fun copied => ?_
  refine .bind (hrun _ (by simp)).attempt fun started => ?_
  exact .bind (adds_ofExcept _) fun _ => adds_ofExcept _

include hclient in
theorem adds_copyIntoPosix (hchown : ∀ owner remote result,
      P (.started (d.execCommand ["chown", owner, remote] none (some "root")) result))
    (c : ContainerProperties) (source : Path) (remote : String) :
    Adds Recorded.uses P (d.copyIntoPosix host.recorded c source remote) := by
  refine .bind (adds_runClient fun result => hclient _ result (by simp)) fun _ => ?_
  exact .bind (adds_runToEnd host (hchown _ _)) fun _ => adds_pure _

end Adding

theorem adds_copy (file : LocalFile) (name : String) :
    Adds Recorded.uses d.IsOrdinary
      ((d.informed found host.recorded p.recorded).copy file name) := by
  have hclient : ∀ arguments result, arguments.head? ≠ some "exec" →
      d.IsOrdinary (.started (d.clientCommand arguments) result) :=
    fun _ _ h => d.clientCommand_notMem h
  refine .bind (adds_ofExcept _) fun c => ?_
  split
  · exact adds_copyIntoWindows hclient trivial _ _
  · exact adds_copyIntoPosix hclient (fun _ _ _ => d.chownCommand_notMem _ _) _ _ _

variable (d found host p) in
/-- Commands are prepared without the host, and none of them is part of a probe. -/
theorem outcome_command (line : String) (w : ω) :
    (((d.informed found host p).command line).outcome w).2 = w ∧
      ∀ c, (((d.informed found host p).command line).outcome w).1 = .ok c →
        c ∉ d.probeCommands := by
  simp only [informed, outcome_bind, outcome_ofExcept]
  rcases found with m | c
  · exact ⟨rfl, nofun⟩
  refine ⟨rfl, fun prepared h => ?_⟩
  cases h
  split
  · exact d.shellCommand_notMem _ _ _ _
  · exact d.shellCommand_notMem _ _ _ _

end Informed

section Calls

/-- A use of the transport. -/
inductive Call where
  | properties
  | command (line : String)
  | copy (file : LocalFile) (name : String)

inductive Answer where
  | properties (c : ContainerProperties)
  | command (c : Command)
  | copied

def perform (properties : Effect ω TransportError ContainerProperties)
    (t : Transport ω Command) : Call → Effect ω TransportError Answer
  | .properties => do return .properties (← properties)
  | .command line => do return .command (← t.command line)
  | .copy file name => do
    t.copy file name
    return .copied

/-- Calls are made in order, whatever becomes of each of them. -/
def performAll (act : Call → Effect ω TransportError Answer) :
    List Call → ω → List (Except TransportError Answer) × ω
  | [], w => ([], w)
  | call :: calls, w =>
    let first := (act call).outcome w
    let rest := performAll act calls first.2
    (first.1 :: rest.1, rest.2)

theorem performAll_cons (act : Call → Effect ω TransportError Answer) (call : Call)
    (calls : List Call) (w : ω) :
    performAll act (call :: calls) w =
      (((act call).outcome w).1 :: (performAll act calls ((act call).outcome w).2).1,
        (performAll act calls ((act call).outcome w).2).2) := rfl

variable (d : Docker) (found : Except String ContainerProperties) (host : Host ω) (p : Prompter ω)

def act : Call → Effect (WithContainer ω) TransportError Answer :=
  perform (d.properties host) (d.transport host p)

/-- How calls go for one that has been told what a probe comes to. -/
def actInformed : Call → Effect ω TransportError Answer :=
  perform (Effect.ofExcept (found.mapError .container)) (d.informed found host p)

variable {d found host p}

theorem outcome_act_some (call : Call) (w : ω) :
    (d.act host p call).outcome ⟨w, some found⟩ =
      (((d.actInformed found host p call).outcome w).1,
        ⟨((d.actInformed found host p call).outcome w).2, some found⟩) := by
  cases call with
  | properties =>
    simp only [act, actInformed, perform, outcome_bind, outcome_properties_some,
      outcome_ofExcept]
    rcases found with m | c <;> rfl
  | command line =>
    simp only [act, actInformed, perform, outcome_bind, outcome_command_some]
    rcases ((d.informed found host p).command line).outcome w with ⟨e | c, w'⟩ <;> rfl
  | copy file name =>
    simp only [act, actInformed, perform, outcome_bind, outcome_copy_some]
    rcases ((d.informed found host p).copy file name).outcome w with ⟨e | _, w'⟩ <;> rfl

/-- Once it is remembered what was found out, calls go as if it had always been known. -/
theorem performAll_some (calls : List Call) (w : ω) :
    performAll (d.act host p) calls ⟨w, some found⟩ =
      ((performAll (d.actInformed found host p) calls w).1,
        ⟨(performAll (d.actInformed found host p) calls w).2, some found⟩) := by
  induction calls generalizing w with
  | nil => rfl
  | cons call calls ih => simp only [performAll_cons, outcome_act_some, ih]

theorem outcome_act_none {w w' : ω} (h : (d.probe host).outcome w = (found, w')) (call : Call) :
    (d.act host p call).outcome ⟨w, none⟩ = (d.act host p call).outcome ⟨w', some found⟩ := by
  have hproperties := outcome_properties_none h
  cases call with
  | properties => exact outcome_bind_congr hproperties _
  | command line => exact outcome_bind_congr (outcome_bind_congr hproperties _) _
  | copy file name => exact outcome_bind_congr (outcome_bind_congr hproperties _) _

/-- The first of some calls probes, and then they all go as if that had been done before. -/
theorem performAll_none {w w' : ω} (h : (d.probe host).outcome w = (found, w')) (call : Call)
    (calls : List Call) :
    performAll (d.act host p) (call :: calls) ⟨w, none⟩ =
      performAll (d.act host p) (call :: calls) ⟨w', some found⟩ := by
  rw [performAll_cons, outcome_act_none h, ← performAll_cons]

theorem adds_actInformed (call : Call) :
    Adds Recorded.uses d.IsOrdinary
      (d.actInformed found host.recorded p.recorded call) := by
  cases call with
  | properties => exact .bind (adds_ofExcept _) fun _ => adds_pure _
  | command line =>
    refine .bind (.of_unchanged fun w => ?_) fun _ => adds_pure _
    rw [(outcome_command d found host.recorded p.recorded line w).1]
  | copy file name => exact .bind (adds_copy file name) fun _ => adds_pure _

theorem performAll_ordinary (calls : List Call) (w : Recorded ω) :
    ∃ uses, (performAll (d.actInformed found host.recorded p.recorded) calls w).2.uses =
        w.uses ++ uses ∧ ∀ u ∈ uses, d.IsOrdinary u := by
  induction calls generalizing w with
  | nil => exact ⟨[], (List.append_nil _).symm, nofun⟩
  | cons call calls ih =>
    have hcall : Adds Recorded.uses d.IsOrdinary
        (d.actInformed found host.recorded p.recorded call) := adds_actInformed call
    obtain ⟨uses, huses, hordinary⟩ := hcall w
    obtain ⟨uses', huses', hordinary'⟩ :=
      ih ((d.actInformed found host.recorded p.recorded call).outcome w).2
    refine ⟨uses ++ uses', ?_, List.forall_mem_append.2 ⟨hordinary, hordinary'⟩⟩
    rw [performAll_cons, huses', huses, List.append_assoc]

/-- Where nothing could be found out, every call fails for the same reason and uses nothing. -/
theorem performAll_error (m : String) (calls : List Call) (w : ω) :
    performAll (d.actInformed (.error m) host p) calls w =
      (List.replicate calls.length (.error (.container m)), w) := by
  induction calls with
  | nil => rfl
  | cons call calls ih =>
    have hcall : (d.actInformed (.error m) host p call).outcome w = (.error (.container m), w) := by
      cases call <;> rfl
    rw [performAll_cons, hcall, ih]
    rfl

end Calls

end RemoteAgent.Docker
