import RemoteAgent.Dial.Basic
import RemoteAgent.Proofs.Transport.Calls
import RemoteAgent.Proofs.Transport.Docker
import RemoteAgent.Rehearsal.Reply

/-! # What of an endpoint's environment reaches its client

The client of an endpoint is given the variables that its protocol declares and nothing else of the
endpoint's environment. So two endpoints that agree on these have the same transport. What the
client finds under any name is told by one equation.
-/

namespace RemoteAgent

open Effect

variable {ω : Type}

/-- The variables of an endpoint that a client of the protocol is given. -/
def Protocol.declared : Protocol → List String
  | .docker => Docker.variableNames
  | .ipfs => Ipfs.variableNames
  | .localHost | .inMemory | .ssh => []

/-- Two endpoints that differ at most in their environments, and not in the values of the variables
that their protocol declares. -/
structure Endpoint.Alike (e e' : Endpoint) : Prop where
  same : e' = { e with environment := e'.environment }
  lookup : ∀ name ∈ e.protocol.declared, e.lookup name = e'.lookup name

section Alike

theorem Endpoint.resolve_congr {e e' : Endpoint} {names : List String}
    (h : ∀ name ∈ names, e.lookup name = e'.lookup name) : e.resolve names = e'.resolve names := by
  unfold resolve
  induction names with
  | nil => rfl
  | cons name names ih =>
    obtain ⟨hname, hnames⟩ := List.forall_mem_cons.1 h
    simp only [List.filterMap_cons, hname, ih hnames]

namespace Docker

variable {d d' : Docker}

/-- Two clients that reach the same container with the same variables. -/
structure Alike (d d' : Docker) : Prop where
  clientCommand : d.clientCommand = d'.clientCommand
  hostname : d.endpoint.hostname = d'.endpoint.hostname
  configuredUser : d.configuredUser = d'.configuredUser
  patience : d.patience = d'.patience

theorem Alike.execCommand (h : d.Alike d') : d.execCommand = d'.execCommand := by
  funext arguments directory user
  simp only [Docker.execCommand, h.clientCommand, h.hostname]

theorem Alike.probe (h : d.Alike d') (host : Host ω) : d.probe host = d'.probe host := by
  have hask : ∀ arguments, d.ask host arguments = d'.ask host arguments := by
    intro arguments
    simp only [ask, h.execCommand, h.configuredUser]
  simp only [Docker.probe, probePosix, probeWindows, hask]

theorem Alike.runClient (h : d.Alike d') (host : Host ω) :
    d.runClient host = d'.runClient host := by
  funext arguments
  simp only [Docker.runClient, h.clientCommand]

theorem Alike.transport (h : d.Alike d') (host : Host ω) (p : Prompter ω) :
    d.transport host p = d'.transport host p := by
  have hproperties : d.properties host = d'.properties host := by
    simp only [properties, h.probe]
  have hwindows : d.copyIntoWindows host p = d'.copyIntoWindows host p := by
    funext source destination
    simp only [copyIntoWindows, copyStopped, h.runClient, h.hostname, h.patience]
  have hposix : d.copyIntoPosix host = d'.copyIntoPosix host := by
    funext c source remote
    simp only [copyIntoPosix, h.runClient, h.hostname, h.execCommand]
  simp only [Docker.transport, hproperties, hwindows, hposix, h.hostname, h.execCommand,
    h.configuredUser]

end Docker

theorem Ipfs.transport_congr {i i' : Ipfs} (hhelper : i.helperCommand = i'.helperCommand)
    (hhostname : i.endpoint.hostname = i'.endpoint.hostname) (host : Host ω) :
    i.transport host = i'.transport host := by
  have hcopy : i.copyCommand = i'.copyCommand := by
    funext source name
    simp only [Ipfs.copyCommand, hhelper, hhostname]
  have hexec : i.execCommand = i'.execCommand := by
    funext line
    simp only [Ipfs.execCommand, hhelper, hhostname]
  simp only [Ipfs.transport, hcopy, hexec]

theorem Ssh.create_congr {e e' : Endpoint} (hport : e.port = e'.port)
    (htarget : e.remoteTarget = e'.remoteTarget) (connectTimeout : Nat) (prompter : Option String)
    (host : Host ω) :
    (Ssh.mk e connectTimeout prompter).create host =
      (Ssh.mk e' connectTimeout prompter).create host := by
  simp only [create, Ssh.transport, askpass, copyCommand, shellCommand, commonArguments, hport,
    htarget]

/-- The transport of an endpoint depends on its environment by the declared variables only. -/
theorem Endpoint.Alike.ofEndpoint {e e' : Endpoint} (h : e.Alike e') (host : Host ω)
    (p : Prompter ω) (options : TransportOptions) :
    Transport.ofEndpoint e host p options = Transport.ofEndpoint e' host p options := by
  obtain ⟨hsame, hlookup⟩ := h
  have hresolve := Endpoint.resolve_congr hlookup
  have hprotocol : e.protocol = e'.protocol := by rw [hsame]
  have hhostname : e.hostname = e'.hostname := by rw [hsame]
  have husername : e.username = e'.username := by rw [hsame]
  have hport : e.port = e'.port := by rw [hsame]
  unfold Transport.ofEndpoint
  rw [← hprotocol]
  cases hp : e.protocol with
  | localHost | inMemory => rfl
  | ssh =>
    have htarget : e.remoteTarget = e'.remoteTarget := by
      rw [remoteTarget, remoteTarget, hhostname, husername]
    dsimp only
    rw [Ssh.create_congr hport htarget]
  | docker =>
    rw [hp] at hresolve
    have hclient : (Docker.new e).Alike (Docker.new e') := by
      refine ⟨?_, hhostname, ?_, rfl⟩
      · funext arguments
        exact congrArg (Command.withVariables _) hresolve
      · exact congrArg (fun user : String => if user.isEmpty then none else some user) husername
    dsimp only
    rw [hclient.transport]
  | ipfs =>
    rw [hp] at hresolve
    have hhelper : (Ipfs.mk e options.ipfsHelper).helperCommand =
        (Ipfs.mk e' options.ipfsHelper).helperCommand := by
      funext arguments
      exact congrArg (Command.withVariables _) hresolve
    dsimp only
    rw [Ipfs.transport_congr hhelper hhostname]

end Alike

section Seen

variable (inherited : String → Option String) (name : String)

theorem Command.seen?_withVariable (c : Command) (set value : String) :
    (c.withVariable set value).seen? inherited name =
      if set = name then some value else c.seen? inherited name := by
  simp only [seen?, withVariable, SortedMap.find?_insert]
  split <;> rfl

theorem Command.seen?_withoutVariable (c : Command) (removed : String) :
    (c.withoutVariable removed).seen? inherited name =
      if removed = name then none else c.seen? inherited name := by
  simp only [seen?, withoutVariable, SortedMap.find?_insert]
  split <;> rfl

theorem Command.seen?_new (program : String) (arguments : List String) :
    (Command.new program arguments).seen? inherited name = inherited name := rfl

/-- A command that is given variables of an endpoint: each is found with the endpoint's value, or
with the one it has anyway. -/
theorem Command.seen?_resolve (e : Endpoint) (names : List String) (c : Command) :
    (c.withVariables (e.resolve names)).seen? inherited name =
      if name ∈ names then (e.lookup name).or (c.seen? inherited name)
      else c.seen? inherited name := by
  unfold withVariables Endpoint.resolve
  induction names generalizing c with
  | nil => rfl
  | cons declared names ih =>
    rcases hlookup : e.lookup declared with _ | value
    · rw [List.filterMap_cons_none (by rw [hlookup]; rfl), ih]
      by_cases heq : name = declared
      · subst heq
        simp [hlookup]
      · simp [heq]
    · rw [List.filterMap_cons_some (by rw [hlookup]; rfl), List.foldl_cons, ih]
      by_cases heq : name = declared
      · subst heq
        simp [hlookup, seen?_withVariable]
      · simp [heq, Ne.symm heq, seen?_withVariable]

/-- What a client of secure shell finds: the program that answers its questions is the running one
or none at all. -/
def Ssh.seenByClient (executable : Except IoError Path) (prompter : Option String) :
    Option String :=
  if name = askpassVariable then prompter.bind fun _ => executable.toOption.map Path.text
  else if name = displayVariable then (prompter.map fun _ => displayValue).or (inherited name)
  else if name = prompterVariable then prompter.or (inherited name)
  else inherited name

/-- What the client of an endpoint finds under a name: for a declared variable the value that is set
for the endpoint's side, or else the one set for both sides, or else what is inherited. -/
def Endpoint.seenByClient (e : Endpoint) (executable : Except IoError Path)
    (prompter : Option String) : Option String :=
  if name ∈ e.protocol.declared then
    match e.environment.find? (Endpoint.overrideName e.side name) with
    | some value => some value
    | none =>
      match e.environment.find? name with
      | some value => some value
      | none => inherited name
  else if e.protocol = .ssh then Ssh.seenByClient inherited name executable prompter
  else inherited name

end Seen

section Started

open Transport

variable {P : Command → Prop} (host : Host ω) (p : Prompter ω)

namespace Docker

variable {d : Docker} (h : ∀ arguments, P (d.clientCommand arguments))

include h in
theorem startsOnly_probe : Adds Recorded.uses (StartsOnly P) (d.probe host.recorded) := by
  have hask : ∀ arguments, Adds Recorded.uses (StartsOnly P) (d.ask host.recorded arguments) :=
    fun arguments => adds_runToEnd host fun _ => h _
  refine .bind (.attempt ?_) fun posix => ?_
  · refine .bind (hask _) fun _ => .bind (adds_ofExcept _) fun _ => ?_
    exact .bind (hask _) fun _ => .bind (hask _) fun _ => adds_pure _
  · rcases posix with posix | c
    · refine .bind (.attempt ?_) fun windows => ?_
      · refine .bind (hask _) fun _ => .bind (adds_ofExcept _) fun _ => ?_
        exact .bind (adds_ofExcept _) fun _ => adds_pure _
      · rcases windows with windows | c
        · exact .of_unchanged fun _ => rfl
        · exact adds_pure _
    · exact adds_pure _

theorem startsOnly_lift {ε α : Type} {x : Effect (Recorded ω) ε α}
    (hx : Adds Recorded.uses (StartsOnly P) x) :
    Adds (fun w : WithContainer (Recorded ω) => w.outer.uses) (StartsOnly P)
      (WithContainer.lift x) :=
  hx.within fun _ _ => rfl

include h in
theorem startsOnly_properties :
    Adds (fun w : WithContainer (Recorded ω) => w.outer.uses) (StartsOnly P)
      (d.properties host.recorded) := by
  refine .bind (.of_unchanged fun _ => rfl) fun w => ?_
  split
  · exact adds_ofExcept _
  · refine .bind (startsOnly_lift (startsOnly_probe host h)).attempt fun found => ?_
    exact .bind (.of_unchanged fun _ => rfl) fun _ => adds_ofExcept _

include h in
theorem starts_transport :
    (d.transport host.recorded p.recorded).Starts P fun w => w.outer.uses where
  copy file name := by
    refine .bind (startsOnly_properties host h) fun c => ?_
    split
    · exact startsOnly_lift (adds_copyIntoWindows (fun _ _ _ => h _) trivial _ _)
    · exact startsOnly_lift (adds_copyIntoPosix (fun _ _ _ => h _) (fun _ _ _ => h _) _ _ _)
  command line := .bind (startsOnly_properties host h) fun c => adds_pure _
  prepared {line w c w'} ho := by
    rw [Docker.transport, outcome_bind] at ho
    rcases hc : (d.properties host.recorded).outcome w with ⟨e | found, v⟩ <;> rw [hc] at ho <;>
      cases ho
    exact h _
  start hc := startsOnly_lift (adds_start host fun _ => hc)

end Docker

theorem Transport.Starts.outside {t : Transport (Recorded ω) Command}
    (h : t.Starts P Recorded.uses) :
    (t.within WithContainer.outer fun w outer => { w with outer }).Starts P
      fun w : WithContainer (Recorded ω) => w.outer.uses where
  copy file name := (h.copy file name).within fun _ _ => rfl
  command line := (h.command line).within fun _ _ => rfl
  prepared {line w c w'} ho := by
    rw [Transport.within, outcome_within] at ho
    exact h.prepared (Prod.ext (Prod.mk.inj ho).1 rfl)
  start hc := (h.start hc).within fun _ _ => rfl

theorem Ipfs.starts_transport {i : Ipfs}
    (hexec : ∀ line, P (i.execCommand line))
    (hcopy : ∀ source name c, i.copyCommand source name = .ok c → P c) :
    (i.transport host.recorded).Starts P Recorded.uses where
  copy file name := by
    refine .bind_of_ok (adds_ofExcept _) fun w c v hc => ?_
    rw [outcome_ofExcept] at hc
    exact .bind (adds_runToEnd host fun _ => hcopy _ _ c (Prod.mk.inj hc).1) fun _ => adds_pure _
  command line := adds_pure _
  prepared ho := by
    cases ho
    exact hexec _
  start hc := adds_start host fun _ => hc

theorem Ssh.starts_transport {s : Ssh} {askpass : Option Ssh.Askpass}
    (haskpass : s.askpass host.executable = .ok askpass)
    (h : ∀ program arguments, P (Ssh.configure askpass (.new program arguments))) :
    (s.transport host.recorded).Starts P Recorded.uses where
  copy file name := by
    refine .bind_of_ok (adds_ofExcept _) fun w located v hlocated => ?_
    rw [outcome_ofExcept, Host.recorded, haskpass] at hlocated
    cases hlocated
    exact .bind (adds_runToEnd host fun _ => h _ _) fun _ => adds_pure _
  command line := .bind (adds_ofExcept _) fun _ => adds_pure _
  prepared {line w c w'} ho := by
    rw [Ssh.transport, outcome_bind, outcome_ofExcept, Host.recorded, haskpass] at ho
    cases ho
    exact h _ _
  start hc := adds_start host fun _ => hc

end Started

section Isolation

open Transport

variable {e e' : Endpoint}

/-- A command whose process finds exactly what the client of an endpoint is to find. -/
def Command.IsFor (e : Endpoint) (executable : Except IoError Path) (prompter : Option String)
    (c : Command) : Prop :=
  ∀ inherited name, c.seen? inherited name = e.seenByClient inherited name executable prompter

theorem Endpoint.seenByClient_declared {executable : Except IoError Path}
    {prompter : Option String} (hssh : e.protocol ≠ .ssh) (inherited : String → Option String)
    (name : String) :
    e.seenByClient inherited name executable prompter =
      if name ∈ e.protocol.declared then (e.lookup name).or (inherited name)
      else inherited name := by
  unfold seenByClient lookup
  rw [if_neg hssh]
  split
  · rcases e.environment.find? (overrideName e.side name) with _ | value
    · rcases e.environment.find? name with _ | value <;> rfl
    · rfl
  · rfl

theorem isFor_resolve {executable : Except IoError Path} {prompter : Option String}
    (hssh : e.protocol ≠ .ssh) (program : String) (arguments : List String) :
    ((Command.new program arguments).withVariables (e.resolve e.protocol.declared)).IsFor e
      executable prompter := by
  intro inherited name
  rw [Command.seen?_resolve, Endpoint.seenByClient_declared hssh]
  rfl

theorem Ssh.create_eq (s : Ssh) (host : Host ω) :
    s.create host = (s.askpass host.executable).map fun _ => s.transport host := by
  unfold create
  cases s.askpass host.executable <;> rfl

/-- The ways in which questions can be routed back: there is no prompter, or the running program is
located. -/
theorem Ssh.askpass_eq_ok_iff {s : Ssh} {executable : Except IoError Path}
    {askpass : Option Ssh.Askpass} :
    s.askpass executable = .ok askpass ↔
      (s.prompter = none ∧ askpass = none) ∨
        ∃ prompter located, s.prompter = some prompter ∧ executable = .ok located ∧
          askpass = some ⟨located, prompter⟩ := by
  unfold Ssh.askpass
  rcases s.prompter with _ | prompter
  · simp [eq_comm]
  · rcases executable with cause | located <;> simp [eq_comm]

theorem isFor_configure (s : Ssh) (hssh : s.endpoint.protocol = .ssh)
    {executable : Except IoError Path} {askpass : Option Ssh.Askpass}
    (haskpass : s.askpass executable = .ok askpass) (program : String) (arguments : List String) :
    (Ssh.configure askpass (.new program arguments)).IsFor s.endpoint executable s.prompter := by
  intro inherited name
  rw [Endpoint.seenByClient, hssh, if_neg (by simp [Protocol.declared]), if_pos rfl,
    Ssh.seenByClient]
  rcases Ssh.askpass_eq_ok_iff.1 haskpass with ⟨hnone, rfl⟩ | ⟨prompter, located, hsome, rfl, rfl⟩
  · rw [hnone, Ssh.configure, Command.seen?_withoutVariable, Command.seen?_new]
    by_cases hname : name = Ssh.askpassVariable <;> simp [hname, eq_comm]
  · rw [hsome, Ssh.configure]
    simp only [Command.seen?_withVariable, Command.seen?_new]
    by_cases hask : name = Ssh.askpassVariable
    · subst hask
      simp [Ssh.askpassVariable, Ssh.displayVariable, Ssh.prompterVariable, Except.toOption]
    · by_cases hdisplay : name = Ssh.displayVariable
      · subst hdisplay
        simp [Ssh.askpassVariable, Ssh.displayVariable, Ssh.prompterVariable]
      · simp only [hask, hdisplay, Ne.symm hask, Ne.symm hdisplay, if_false]
        by_cases hprompter : name = Ssh.prompterVariable <;> simp [hprompter, eq_comm]

/-- Whatever is asked of the transport of an endpoint, the processes that it starts and the commands
that it prepares are for that endpoint. -/
theorem starts_ofEndpoint (host : Host ω) (p : Prompter ω) {options : TransportOptions}
    {t : Transport (WithContainer (Recorded ω)) Command}
    (ht : Transport.ofEndpoint e host.recorded p.recorded options = .ok t) :
    t.Starts (Command.IsFor e host.executable p.identifier) fun w => w.outer.uses := by
  unfold Transport.ofEndpoint at ht
  split at ht
  next hssh =>
    let s : Ssh := ⟨e, options.sshConnectTimeout, p.identifier⟩
    rw [show Ssh.mk e options.sshConnectTimeout p.recorded.identifier = s from rfl,
      Ssh.create_eq] at ht
    rcases haskpass : s.askpass host.recorded.executable with cause | askpass <;>
      rw [haskpass] at ht <;> cases ht
    exact (Ssh.starts_transport host haskpass fun _ _ =>
      isFor_configure s hssh haskpass _ _).outside
  next hdocker =>
    cases ht
    refine Docker.starts_transport host p fun arguments => ?_
    have hfor : (Command.new "docker" arguments |>.withVariables
        (e.resolve e.protocol.declared)).IsFor e host.executable p.identifier :=
      isFor_resolve (by simp [hdocker]) _ _
    rwa [hdocker] at hfor
  next hipfs =>
    cases ht
    have hfor : ∀ arguments, ((Ipfs.mk e options.ipfsHelper).helperCommand arguments).IsFor e
        host.executable p.identifier := by
      intro arguments
      have hfor : (Command.new options.ipfsHelper arguments |>.withVariables
          (e.resolve e.protocol.declared)).IsFor e host.executable p.identifier :=
        isFor_resolve (by simp [hipfs]) _ _
      rwa [hipfs] at hfor
    refine (Ipfs.starts_transport host (fun _ => hfor _) fun source name c hc => ?_).outside
    unfold Ipfs.copyCommand at hc
    split at hc
    · cases hc
    · split at hc <;> cases hc
      exact hfor _
  all_goals cases ht

/-- The program that the questions of a client go through is located wherever one is needed. -/
def Endpoint.Answerable (e : Endpoint) (executable : Except IoError Path)
    (prompter : Option String) : Prop :=
  e.protocol = .ssh → prompter.isSome → ∃ located, executable = .ok located

theorem exists_ofEndpoint (host : Host ω) (p : Prompter ω)
    (hremote : e.protocol.isInProcess = false)
    (hanswerable : e.Answerable host.executable p.identifier) (options : TransportOptions) :
    ∃ t, Transport.ofEndpoint e host p options = .ok t := by
  unfold Transport.ofEndpoint
  cases hp : e.protocol with
  | localHost | inMemory =>
    rw [hp] at hremote
    cases hremote
  | docker | ipfs => exact ⟨_, rfl⟩
  | ssh =>
    obtain ⟨askpass, haskpass⟩ : ∃ askpass, (Ssh.mk e options.sshConnectTimeout
        p.identifier).askpass host.executable = .ok askpass := by
      rcases hprompter : p.identifier with _ | prompter
      · exact ⟨_, rfl⟩
      · obtain ⟨located, hlocated⟩ := hanswerable hp (by rw [hprompter]; rfl)
        exact ⟨_, by rw [hlocated]; rfl⟩
    dsimp only
    rw [Ssh.create_eq, haskpass]
    exact ⟨_, rfl⟩

theorem ofEndpoint_not_answerable {host : Host ω} {p : Prompter ω} {cause : IoError}
    (hssh : e.protocol = .ssh) (hprompter : p.identifier.isSome)
    (hexecutable : host.executable = .error cause) (options : TransportOptions) :
    Transport.ofEndpoint e host p options = .error (.configuration
      ("unable to locate executable for askpass: " ++ cause.message)) := by
  obtain ⟨prompter, hprompter⟩ := Option.isSome_iff_exists.1 hprompter
  unfold Transport.ofEndpoint
  rw [hssh]
  dsimp only
  rw [Ssh.create_eq, hprompter, hexecutable]
  rfl

/-- Two endpoints that differ in undeclared variables only have the same transport. Under it any
calls start the same processes, each of which finds the declared variables of the endpoint and apart
from them what it would find anyway. The program that answers the questions of a client is never an
inherited one, and where one is needed and not located, there is no transport. -/
theorem transport_declaredOnly (h : e.Alike e') (host : Host ω) (p : Prompter ω)
    (options : TransportOptions) :
    Transport.ofEndpoint e host p options = Transport.ofEndpoint e' host p options ∧
    (e.protocol.isInProcess = false → e.Answerable host.executable p.identifier →
      ∃ t, Transport.ofEndpoint e host.recorded p.recorded options = .ok t ∧
        Transport.ofEndpoint e' host.recorded p.recorded options = .ok t ∧
        ∀ calls w, ∃ answers w' uses, (t.performAll calls).outcome w = (.ok answers, w') ∧
          w'.outer.uses = w.outer.uses ++ uses ∧
          (∀ u ∈ uses, StartsOnly (Command.IsFor e host.executable p.identifier) u) ∧
          ∀ c, .ok (.prepared c) ∈ answers → c.IsFor e host.executable p.identifier) ∧
    (e.protocol = .ssh → ∀ inherited,
      e.seenByClient inherited Ssh.askpassVariable host.executable p.identifier =
        p.identifier.bind fun _ => host.executable.toOption.map Path.text) ∧
    ∀ cause, e.protocol = .ssh → p.identifier.isSome → host.executable = .error cause →
      Transport.ofEndpoint e host p options = .error (.configuration
        ("unable to locate executable for askpass: " ++ cause.message)) := by
  refine ⟨h.ofEndpoint host p options, fun hremote hanswerable => ?_, fun hssh inherited => ?_,
    fun cause hssh hprompter hexecutable =>
      ofEndpoint_not_answerable hssh hprompter hexecutable options⟩
  · obtain ⟨t, ht⟩ : ∃ t, Transport.ofEndpoint e host.recorded p.recorded options = .ok t :=
      exists_ofEndpoint host.recorded p.recorded hremote hanswerable options
    refine ⟨t, ht, ?_, fun calls w => ?_⟩
    · rw [← h.ofEndpoint, ht]
    · exact (starts_ofEndpoint host p ht).performAll calls w
  · rw [Endpoint.seenByClient, hssh, if_neg (by simp [Protocol.declared]), if_pos rfl,
      Ssh.seenByClient, if_pos rfl]

section Harbour

/-- A container behind a daemon that is set for its side only. -/
def harbour : Endpoint :=
  ((Endpoint.new .docker .alpha "web").withVariable "TETHER_ALPHA_DOCKER_HOST" "").withVariable
    "DOCKER_HOST" "tcp://other"

/-- The same container, with settings that are not for its client. -/
def crowdedHarbour : Endpoint :=
  let noisy := (harbour.withVariable "TETHER_BETA_DOCKER_HOST" "tcp://beta").withVariable "LANG" "C"
  noisy.withVariable "DOCKER_HOST" "tcp://third"

theorem alike_crowdedHarbour : harbour.Alike crowdedHarbour where
  same := rfl
  lookup := by decide

def harbourReply (arguments : List String) : Rehearsal.Reply where
  output := Text.encode (if arguments.getLast? = some "env" then "HOME=/root\n" else "app\n")
  errorOutput := []
  mode := .exit
  status := .exited 0

def harbourHost : Host Unit where
  executable := .ok ⟨"tether"⟩
  start c := pure (harbourReply c.arguments).process

theorem transport_declaredOnly_harbour :
    harbour.Alike crowdedHarbour ∧
    Transport.ofEndpoint harbour harbourHost (.silent Unit) .default =
      Transport.ofEndpoint crowdedHarbour harbourHost (.silent Unit) .default ∧
    harbour.protocol.isInProcess = false ∧ harbour.Answerable harbourHost.executable none ∧
    ∃ t, Transport.ofEndpoint harbour harbourHost.recorded (Prompter.silent Unit).recorded .default =
        .ok t ∧
      ∀ calls w, ∃ answers w' uses, (t.performAll calls).outcome w = (.ok answers, w') ∧
        w'.outer.uses = w.outer.uses ++ uses ∧
        ∀ u ∈ uses, StartsOnly (Command.IsFor harbour harbourHost.executable none) u := by
  have hanswerable : harbour.Answerable harbourHost.executable none := nofun
  obtain ⟨hsame, hcalls, -⟩ :=
    transport_declaredOnly alike_crowdedHarbour harbourHost (.silent Unit) .default
  obtain ⟨t, ht, -, hstarts⟩ := hcalls rfl hanswerable
  refine ⟨alike_crowdedHarbour, hsame, rfl, hanswerable, t, ht, fun calls w => ?_⟩
  obtain ⟨answers, w', uses, ho, huses, hfor, -⟩ := hstarts calls w
  exact ⟨answers, w', uses, ho, huses, hfor⟩

example (inherited : String → Option String) :
    crowdedHarbour.seenByClient inherited "DOCKER_HOST" (.ok ⟨"tether"⟩) none = some "" := by
  rfl

end Harbour

end Isolation

end RemoteAgent
