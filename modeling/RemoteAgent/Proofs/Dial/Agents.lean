import RemoteAgent.Proofs.Connection.Closing
import RemoteAgent.Proofs.Dial.Composition
import RemoteAgent.Proofs.Dial.Entries

/-! # The processes of the agent

A dial has at most one process of the agent at a time, and none whenever it uses its transport or
its prompter: what failed to greet is closed before anything else is done. Only the process behind
the connection that a dial gives survives it, and that connection is still open.
-/

namespace RemoteAgent.Dial

open Effect Relation

variable {ω κ : Type}

def Event.isAgent : Event → Bool
  | .agentStarted | .agentClosed _ => true
  | .message _ | .command _ | .copy _ _ | .fileCreated _ | .fileRemoved _ => false

/-- Whether an event is the end of a process. -/
def Event.isEnd : Event → Bool
  | .agentClosed (some _) => true
  | .agentClosed none | .agentStarted => false
  | .message _ | .command _ | .copy _ _ | .fileCreated _ | .fileRemoved _ => false

/-- So many of the processes that events tell of are alive after them. -/
def Alive (events : List Event) (n : Nat) : Prop :=
  events.count .agentStarted = events.countP Event.isEnd + n

def survivors {ε : Type} : Except ε Connection → Nat
  | .ok _ => 1
  | .error _ => 0

section Connections

variable (t : Transport ω κ) (s : Setting)

/-- A connection to a process that was started as the agent, once it has been greeted. The world was
`o` when the process had been started. -/
def Greeted (result : Except DialError Unit) (c : Connection) (o : ω) : Prop :=
  ∃ paths prepared process v v',
    (t.command (agentLine s paths)).outcome v = (.ok prepared, v') ∧
    (t.start prepared).outcome v' = (.ok process, o) ∧
    greet s.own (Connection.new process s.config.killDelay) = (result, c)

/-- A connection that was closed because the greeting failed. -/
def GivenUp (c : Connection) : Prop :=
  ∃ cause greeted o, Greeted t s (.error cause) greeted o ∧ c = greeted.close.2

variable {t s}

theorem Greeted.isOpen {result : Except DialError Unit} {c : Connection} {o : ω}
    (h : Greeted t s result c o) : c.IsOpen ∧ c.killDelay = s.config.killDelay := by
  obtain ⟨-, -, process, -, -, -, -, hg⟩ := h
  have hhandle : c.handle = (Connection.new process s.config.killDelay).handle := by
    have := Connection.handle_run (Greeting.start s.own)
      (Connection.new process s.config.killDelay)
    rwa [← greet, hg] at this
  obtain ⟨hopen, -, hdelay⟩ := Connection.isOpen_of_handle hhandle
  exact ⟨hopen, hdelay⟩

theorem GivenUp.isClosed {c : Connection} (h : GivenUp t s c) : c.IsClosed := by
  obtain ⟨cause, greeted, o, hg, rfl⟩ := h
  exact hg.isOpen.1.close.1

variable (t s)

/-- Events that start and close processes in turn. Before and after them so many are alive, and
these are the connections that they close. -/
inductive Tended : Nat → List Event → List Connection → Nat → Prop where

  | nil (n : Nat) : Tended n [] [] n

  | other {e : Event} {events : List Event} {closed : List Connection} {n : Nat} :
      e.isAgent = false → Tended 0 events closed n → Tended 0 (e :: events) closed n

  | started {events : List Event} {closed : List Connection} {n : Nat} :
      Tended 1 events closed n → Tended 0 (.agentStarted :: events) closed n

  | closed {c : Connection} {status : ExitStatus} {events : List Event}
      {closed : List Connection} {n : Nat} :
      GivenUp t s c → c.status = some status → Tended 0 events closed n →
      Tended 1 (.agentClosed (some status) :: events) (c :: closed) n

namespace Tended

variable {t s} {n k m : Nat} {events events' : List Event} {closed closed' : List Connection}

theorem append (h : Tended t s n events closed k) (h' : Tended t s k events' closed' m) :
    Tended t s n (events ++ events') (closed ++ closed') m := by
  induction h with
  | nil => exact h'
  | other he _ ih => exact .other he (ih h')
  | started _ ih => exact .started (ih h')
  | closed hc hs _ ih => exact .closed hc hs (ih h')

theorem of_others (h : ∀ e ∈ events, e.isAgent = false) : Tended t s 0 events [] 0 := by
  induction events with
  | nil => exact .nil 0
  | cons e events ih =>
    exact .other (h e List.mem_cons_self) (ih fun e he => h e (List.mem_cons_of_mem _ he))

theorem exists_split (h : Tended t s n (events ++ events') closed m) :
    ∃ k closed₁ closed₂, Tended t s n events closed₁ k ∧ Tended t s k events' closed₂ m := by
  induction events generalizing n closed with
  | nil => exact ⟨n, [], closed, .nil n, h⟩
  | cons e events ih =>
    cases h with
    | other he h =>
      obtain ⟨k, closed₁, closed₂, h₁, h₂⟩ := ih h
      exact ⟨k, closed₁, closed₂, .other he h₁, h₂⟩
    | started h =>
      obtain ⟨k, closed₁, closed₂, h₁, h₂⟩ := ih h
      exact ⟨k, closed₁, closed₂, .started h₁, h₂⟩
    | closed hc hs h =>
      obtain ⟨k, closed₁, closed₂, h₁, h₂⟩ := ih h
      exact ⟨k, _, closed₂, .closed hc hs h₁, h₂⟩

theorem count (h : Tended t s n events closed m) :
    events.count .agentStarted + n = events.countP Event.isEnd + m := by
  induction h with
  | nil => rfl
  | @other e _ _ _ he _ ih =>
    cases e <;> simp_all [Event.isAgent, Event.isEnd]
  | started _ ih =>
    simp [Event.isEnd, ← ih]
  | closed _ _ _ ih =>
    simp only [Event.isEnd, List.count_cons, List.countP_cons]
    simp
    omega

theorem alive (h : Tended t s 0 events closed m) : Alive events m :=
  h.count

theorem le_one (h : Tended t s n events closed m) (hn : n ≤ 1) : m ≤ 1 := by
  induction h with
  | nil => exact hn
  | other _ _ ih => exact ih (by omega)
  | started _ ih => exact ih (Nat.le_refl 1)
  | closed _ _ _ ih => exact ih (by omega)

theorem eq_zero_of_isCall {e : Event} (h : Tended t s n (e :: events) closed m)
    (he : e.isCall = true) : n = 0 := by
  cases h with
  | other => rfl
  | started => rfl
  | closed => cases he

theorem givenUp (h : Tended t s n events closed m) : ∀ c ∈ closed, GivenUp t s c := by
  induction h with
  | nil => nofun
  | other _ _ ih => exact ih
  | started _ ih => exact ih
  | closed hc _ _ ih => exact List.forall_mem_cons.2 ⟨hc, ih⟩

theorem filter_isAgent (h : Tended t s n events closed m) :
    List.replicate n .agentStarted ++ events.filter Event.isAgent =
      closed.flatMap (fun c => [.agentStarted, .agentClosed c.status]) ++
        List.replicate m .agentStarted := by
  induction h with
  | nil => simp
  | other he _ ih => simpa [he] using ih
  | started _ ih => simpa [List.filter_cons, Event.isAgent] using ih
  | closed _ hs _ ih => simpa [List.filter_cons, Event.isAgent, hs] using ih

end Tended

end Connections

section Installing

variable {t : Transport ω κ} {p : Prompter ω} {s : Setting}

theorem enters_probe :
    Enters (·.isAgent = false) (Platform.probe (World.transport t) (World.prompter p)) := by
  intro w
  obtain ⟨o, probing, hw, hpre⟩ := (probed t p w).journal
  refine ⟨probing, by rw [hw, World.journal_after], fun e he => ?_⟩
  have hnone : ∀ e ∈ probeEvents, e.isAgent = false := by decide
  exact hnone e (hpre.subset he)

theorem enters_copyAgent (name : String) :
    Enters (·.isAgent = false) (copyAgent (World.transport t) (World.prompter p) s name) := by
  have hcopy : ∀ file, Enters (·.isAgent = false) ((World.transport t).copy file name) :=
    fun _ => enters_copy rfl
  refine .bind (enters_tell rfl) fun _ => .bind ?_ fun w => (hcopy _).mapError _
  exact .of_unchanged fun w => rfl

theorem enters_deliverAgent (name : String) :
    Enters (·.isAgent = false) (deliverAgent (World.transport t) (World.prompter p) s name) :=
  .bind (enters_copyAgent name).attempt fun _ =>
    .bind (enters_removeAgent rfl) fun _ => adds_ofExcept _

theorem compositional_enters {P : Event → Prop} :
    Compositional fun _ (x _ : Effect (World ω) DialError _) => Enters P x :=
  ⟨.bind, fun h => .of_unchanged fun w => by rw [h]⟩

theorem enters_install : Enters (·.isAgent = false) (install t p s) :=
  related_install (u := t) (q := p) compositional_enters (enters_probe.mapError _)
    (fun _ _ => enters_tell rfl) (fun _ => enters_extractAgent rfl) enters_deliverAgent
    (fun _ => enters_runLine rfl)

end Installing

section Runs

variable {t : Transport ω κ} {p : Prompter ω} {s : Setting}

theorem Attempted.tended {paths : PathSyntax} {r : Except FailedAttempt Connection}
    {w w' : World ω} (h : Attempted t s paths w r w') :
    ∃ events closed, w'.journal = w.journal ++ events ∧
      Tended t s 0 events closed (survivors r) ∧
      ∀ c, r = .ok c → Greeted t s (.ok ()) c w'.outer := by
  cases h with
  | unprepared => exact ⟨_, [], rfl, .other rfl (.nil 0), nofun⟩
  | unstarted => exact ⟨_, [], rfl, .other rfl (.nil 0), nofun⟩
  | greeted hc hs hg =>
    refine ⟨_, [], rfl, .other rfl (.started (.nil 1)), fun c h => ?_⟩
    cases h
    exact ⟨_, _, _, _, _, hc, hs, hg⟩
  | @ungreeted _ _ cause c _ o hc hs hg =>
    have hgreeted : Greeted t s (.error cause) c o := ⟨_, _, _, _, _, hc, hs, hg⟩
    obtain ⟨-, hstatus, hsome⟩ := hgreeted.isOpen.1.close
    obtain ⟨status, h⟩ := Option.isSome_iff_exists.1 hsome
    rw [h] at hstatus ⊢
    exact ⟨_, [c.close.2], rfl,
      .other rfl (.started (.closed ⟨cause, c, o, hgreeted, rfl⟩ hstatus (.nil 0))), nofun⟩

def Stage.survivors : Stage → Nat
  | attempting _ | installing _ | announcing _ | reconnecting _ => 0
  | finished result => Dial.survivors result

/-- A step leaves no process behind, except that of the connection it comes to. -/
theorem Step.tended {a b : Stage × World ω} (h : Step t p s a b) :
    a.1.survivors = 0 ∧ ∃ events closed, b.2.journal = a.2.journal ++ events ∧
      Tended t s 0 events closed b.1.survivors ∧
      ∀ c, b.1 = .finished (.ok c) → Greeted t s (.ok ()) c b.2.outer := by
  have hattempt : ∀ {paths r w w'}, (attempt (World.transport t) s paths).outcome w = (r, w') →
      ∃ events closed, w'.journal = w.journal ++ events ∧
        Tended t s 0 events closed (survivors r) ∧
        ∀ c, r = .ok c → Greeted t s (.ok ()) c w'.outer := by
    intro paths r w w' h
    have ha := attempted t s paths w
    rw [h] at ha
    exact ha.tended
  have hinstall : ∀ {r w w'}, (install t p s).outcome w = (r, w') →
      ∃ events, w'.journal = w.journal ++ events ∧ Tended t s 0 events [] 0 := by
    intro r w w' h
    obtain ⟨events, hj, he⟩ := enters_install (t := t) (p := p) (s := s) w
    rw [h] at hj
    exact ⟨events, hj, .of_others he⟩
  cases h with
  | connected h | reconnected h =>
    obtain ⟨events, closed, hj, htended, hc⟩ := hattempt h
    refine ⟨rfl, events, closed, hj, htended, fun c h => hc c ?_⟩
    cases h
    rfl
  | wrongShell h | missing h | final h | unreconnected h =>
    obtain ⟨events, closed, hj, htended, -⟩ := hattempt h
    exact ⟨rfl, events, closed, hj, htended, nofun⟩
  | uninstalled h | installed h =>
    obtain ⟨events, hj, htended⟩ := hinstall h
    exact ⟨rfl, events, [], hj, htended, nofun⟩
  | unannounced | announced => exact ⟨rfl, _, [], rfl, .other rfl (.nil 0), nofun⟩

theorem tended_of_reaches {a b : Stage × World ω} (h : ReflTransGen (Step t p s) a b)
    (ha : ∀ result, a.1 ≠ .finished result) :
    ∃ events closed, b.2.journal = a.2.journal ++ events ∧
      Tended t s a.1.survivors events closed b.1.survivors ∧
      ∀ c, b.1 = .finished (.ok c) → Greeted t s (.ok ()) c b.2.outer := by
  induction h with
  | refl => exact ⟨[], [], (List.append_nil _).symm, .nil _, fun c h => absurd h (ha _)⟩
  | tail _ hstep ih =>
    obtain ⟨events, closed, hj, htended, -⟩ := ih
    obtain ⟨hnone, events', closed', hj', htended', hc⟩ := hstep.tended
    rw [hnone] at htended
    exact ⟨_, _, by rw [hj', hj, List.append_assoc], htended.append htended', hc⟩

theorem dialTransport_tended (w : World ω) :
    ∃ events closed, ((dialTransport t p s).outcome w).2.journal = w.journal ++ events ∧
      Tended t s 0 events closed (survivors ((dialTransport t p s).outcome w).1) ∧
      ∀ c, ((dialTransport t p s).outcome w).1 = .ok c →
        Greeted t s (.ok ()) c ((dialTransport t p s).outcome w).2.outer := by
  obtain ⟨events, closed, hj, htended, hc⟩ :=
    tended_of_reaches (endsAs_dialTransport (t := t) (p := p) (s := s) w) nofun
  exact ⟨events, closed, hj, htended, fun c h => hc c (by rw [h])⟩

end Runs

section Accounts

variable (t : Transport ω κ) (p : Prompter ω) (s : Setting)

/-- The account of the processes that a dial has started, given the connections it has closed. The
world outside is `o` after it. -/
structure Accounted (events : List Event) (closed : List Connection)
    (result : Except DialError Connection) (o : ω) : Prop where
  /-- One process after the other is started and closed, and the last one may be left open. -/
  inTurn : events.filter Event.isAgent =
    closed.flatMap (fun c => [.agentStarted, .agentClosed c.status]) ++
      List.replicate (survivors result) .agentStarted
  closed : ∀ c ∈ closed, GivenUp t s c ∧ c.IsClosed
  atMostOne : ∀ before, before <+: events → ∃ n ≤ 1, Alive before n
  noneAtCalls : ∀ before e after, events = before ++ e :: after → e.isCall = true →
    Alive before 0
  failed : ∀ e, result = .error e → Alive events 0
  connected : ∀ c, result = .ok c → Alive events 1 ∧ Greeted t s (.ok ()) c o ∧ c.IsOpen ∧
    c.killDelay = s.config.killDelay

/-- At any time of a dial at most one process of the agent is alive. The connection to every one
that failed to greet is closed before the transport or the prompter is used again. None is left when
the dial fails; if it succeeds, the one behind its connection is left, and that connection is open.
-/
theorem dialTransport_accounted (w : World ω) :
    ∃ events closed, ((dialTransport t p s).outcome w).2.journal = w.journal ++ events ∧
      Accounted t s events closed ((dialTransport t p s).outcome w).1
        ((dialTransport t p s).outcome w).2.outer := by
  obtain ⟨events, closed, hj, htended, hc⟩ := dialTransport_tended (t := t) (p := p) (s := s) w
  refine ⟨events, closed, hj, ?_, fun c hmem => ?_, ?_, ?_, fun e h => ?_, fun c h => ?_⟩
  · simpa using htended.filter_isAgent
  · exact ⟨htended.givenUp c hmem, (htended.givenUp c hmem).isClosed⟩
  · rintro before ⟨after, rfl⟩
    obtain ⟨n, _, _, hbefore, -⟩ := htended.exists_split
    exact ⟨n, hbefore.le_one (by decide), hbefore.alive⟩
  · rintro before e after rfl he
    obtain ⟨n, _, _, hbefore, hafter⟩ := htended.exists_split
    rw [hafter.eq_zero_of_isCall he] at hbefore
    exact hbefore.alive
  · rw [h] at htended
    exact htended.alive
  · rw [h] at htended
    exact ⟨htended.alive, hc c h, (hc c h).isOpen⟩

end Accounts

end RemoteAgent.Dial
