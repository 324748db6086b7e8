import RemoteAgent.Proofs.Agent.Serving
import RemoteAgent.Proofs.Dial.Container
import RemoteAgent.Proofs.Dial.Payload

/-! # The two kinds of connections

A dial gives a connection to a process that serves or to an agent in this process, and its caller
uses both in one way. Nothing tells the two apart up to the first close, which succeeds. After it
the first kind refuses to be closed again and the second one does not.
-/

namespace RemoteAgent

open StreamMachine Version

namespace AgentConnection

inductive Operation where
  /-- Offers bytes once. How many of them are taken is the pipe's concern. -/
  | offer (bytes : List UInt8)
  /-- Writes all of these bytes. -/
  | write (bytes : List UInt8)
  | flush
  | shutdown
  /-- Reads so many bytes, or fewer if the stream ends. -/
  | read (count : Nat)
  | readToEnd
  | close
  deriving DecidableEq

/-- What a caller gets from an operation that succeeds. -/
inductive Answer where
  | done
  | bytes (bytes : List UInt8)
  deriving DecidableEq

inductive Failure where
  | io (cause : IoError)
  | closing (cause : ConnectionError)
  deriving DecidableEq

def perform : Operation → AgentConnection → Except Failure Answer × AgentConnection
  | .offer bytes, c => (c.write bytes).map (fun r => (r.map fun _ => .done).mapError .io) id
  | .write bytes, c => (c.writeAll bytes).map (fun r => (r.map fun _ => .done).mapError .io) id
  | .flush, c => c.flush.map (fun r => (r.map fun _ => .done).mapError .io) id
  | .shutdown, c => (.ok .done, c.shutdown)
  | .read count, c => (c.readUpTo count).map (fun r => (r.map .bytes).mapError .io) id
  | .readToEnd, c => c.readToEnd.map (fun r => (r.map .bytes).mapError .io) id
  | .close, c => c.close.map (fun r => (r.map fun _ => .done).mapError .closing) id

/-- A connection with which all of this has been done. -/
def after (c : AgentConnection) (operations : List Operation) : AgentConnection :=
  operations.foldl (fun c operation => (c.perform operation).2) c

/-- What an operation comes to when all of this has been done before it. -/
def answer (c : AgentConnection) (before : List Operation) (operation : Operation) :
    Except Failure Answer :=
  ((c.after before).perform operation).1

end AgentConnection

/-- Where the writing of some bytes stands of which no offer has failed. -/
inductive Writing.GoesWell : Writing → Prop where

  | done : GoesWell (.done (.ok ()))

  | writing {rest : List UInt8} : rest ≠ [] → GoesWell (.writing rest)

theorem Writing.goesWell_start (bytes : List UInt8) : (Writing.start bytes).GoesWell := by
  by_cases hnil : bytes = []
  · subst hnil
    exact .done
  · rw [start_of_ne_nil hnil]
    exact .writing hnil

namespace Connection

variable {own : Version} {c d : Connection} {bytes : List UInt8}

/-- A connection to a process that serves, once the versions have been exchanged. -/
structure Served (own : Version) (c : Connection) : Prop where
  serves : c.process.Serves own
  read : c.HasRead own.toWire
  given : own.toWire <+: c.given
  closed : c.status.isSome → c.inputOpen = false

/-- The process has said its version, and that has been read. -/
theorem Served.nothingLeft (h : Served own c) : c.buffer ++ c.pending = [] := by
  have hall : c.process.output c.given (!c.inputOpen) = own.toWire := by
    rw [h.serves.output, (servedUpTo_speaks own _ _).1]
  have houtput := hall ▸ c.output_isPrefix_process
  rw [h.read.output_eq] at houtput
  have hnone : c.buffer ++ c.pending <+: [] :=
    (List.prefix_append_right_inj own.toWire).1 (by rwa [List.append_nil])
  exact List.prefix_nil.1 hnone

theorem Served.status_eq_none (h : Served own c) (hopen : c.inputOpen = true) :
    c.status = none := by
  cases hstatus : c.status with
  | none => rfl
  | some status => exact nomatch (h.closed (by rw [hstatus]; rfl)).symm.trans hopen

/-- The process waits for its input to end. -/
theorem Served.hasEnded_eq_false (h : Served own c) (hopen : c.inputOpen = true) :
    c.hasEnded = false := by
  have hending : c.process.ending c.given (!c.inputOpen) = none := by
    obtain ⟨payload, hgiven⟩ := h.given
    rw [hopen, ← hgiven]
    exact h.serves.ending_eq_none List.prefix_rfl
  rw [hasEnded, h.status_eq_none hopen, hending, Bool.and_false]
  rfl

theorem Served.of_handle (h : Served own c) (hhandle : d.handle = c.handle)
    (hread : d.HasRead own.toWire) (hgiven : own.toWire <+: d.given) : Served own d := by
  simp only [handle, Handle.mk.injEq] at hhandle
  obtain ⟨hprocess, hstatus, hopen, -, -⟩ := hhandle
  exact ⟨hprocess ▸ h.serves, hread, hgiven, by rw [hstatus, hopen]; exact h.closed⟩

theorem Served.write (h : Served own c) (bytes : List UInt8) : Served own (c.write bytes).2 := by
  refine h.of_handle (handle_write bytes c) (h.read.write bytes) ?_
  rcases write_cases bytes c with ⟨_, hw⟩ | ⟨-, hw⟩ | ⟨-, hw⟩ <;> rw [hw]
  · exact h.given
  · exact h.given
  · exact h.given.trans (List.prefix_append _ _)

theorem Served.write_of_inputOpen (h : Served own c) (hopen : c.inputOpen = true)
    (hne : bytes ≠ []) : (c.write bytes).1 = .ok (c.accepted bytes.length) := by
  have hempty : bytes.isEmpty = false := by simpa using hne
  rw [Connection.write, hempty, offer, hopen, hempty, h.hasEnded_eq_false hopen]
  rfl

theorem write_of_inputEnded (hended : c.inputOpen = false) (hne : bytes ≠ []) :
    (c.write bytes).1 = .error closedPipe := by
  have hempty : bytes.isEmpty = false := by simpa using hne
  rw [Connection.write, hempty, offer, hended]
  rfl

theorem Served.read_eq_nil (h : Served own c) (limit : Nat) :
    (c.read limit).1 = .ok [] ∧ Served own (c.read limit).2 := by
  obtain ⟨more, hmore⟩ := exists_read limit c
  have hmoved := buffer_pending_read hmore
  rw [h.nothingLeft, List.append_assoc] at hmoved
  obtain rfl : more = [] := (List.append_eq_nil_iff.1 hmoved.symm).1
  have hread := h.read.read hmore
  rw [List.append_nil] at hread
  exact ⟨hmore, h.of_handle (handle_read limit c) hread ((given_read limit c).symm ▸ h.given)⟩

/-- Whatever a machine does with the streams, the agent goes on serving. -/
theorem Served.run {μ ρ : Type} [StreamMachine μ ρ] (h : Served own c) (m : μ) :
    Served own (run m c).2 :=
  run_induction (I := fun (_ : μ) d => Served own d) (Q := fun _ d => Served own d)
    (fun _ h => h) (fun _ h => h.write _) (fun _ h => h) (fun _ h => (h.read_eq_nil _).2) m c h

/-- As long as its input is open, an agent that serves takes all that is written to it. -/
theorem Served.writeAll_of_inputOpen (h : Served own c) (hopen : c.inputOpen = true)
    (bytes : List UInt8) : (ByteStream.writeAll bytes c).1 = .ok () := by
  refine run_induction
    (I := fun (m : Writing) d => m.GoesWell ∧ Served own d ∧ d.inputOpen = true)
    (Q := fun result (_ : Connection) => result = .ok ())
    ?_ ?_ ?_ ?_ (.start bytes) c ⟨Writing.goesWell_start bytes, h, hopen⟩
  · rintro m d result ha ⟨_ | _, -⟩ <;> cases ha
    rfl
  · rintro m d rest next ha ⟨_ | hne, hserved, hopen⟩ <;> cases ha
    refine ⟨?_, hserved.write _, (congrArg Handle.inputOpen (handle_write _ d)).trans hopen⟩
    change (Writing.afterWrite rest (d.write rest).1).GoesWell
    rw [hserved.write_of_inputOpen hopen hne,
      Writing.afterWrite_of_pos (accepted_pos (List.length_pos_iff.2 hne) d)]
    exact Writing.goesWell_start _
  · rintro m d next ha ⟨_ | _, -⟩ <;> cases ha
  · rintro m d limit next ha ⟨_ | _, -⟩ <;> cases ha

theorem writeAll_of_inputEnded (hended : c.inputOpen = false) (hne : bytes ≠ []) :
    (ByteStream.writeAll bytes c).1 = .error closedPipe := by
  have hwrite := write_of_inputEnded hended hne
  rw [ByteStream.writeAll, Writing.start_of_ne_nil hne, run_write rfl]
  change (StreamMachine.run (Writing.afterWrite bytes (c.write bytes).1) _).1 = _
  rw [hwrite]
  exact congrArg Prod.fst (run_finish rfl)

theorem Served.collect (h : Served own c) (wanted : Option Nat) :
    (StreamMachine.run (Collecting.start wanted) c).1 = .ok [] := by
  refine run_induction
    (I := fun (m : Collecting) d => (m = .start wanted ∨ m = .done (.ok [])) ∧ Served own d)
    (Q := fun result (_ : Connection) => result = .ok [])
    ?_ ?_ ?_ ?_ (.start wanted) c ⟨.inl rfl, h⟩
  · rintro m d result ha ⟨rfl | rfl, -⟩
    · rcases wanted with _ | _ | _ <;> cases ha
      rfl
    · cases ha
      rfl
  · rintro m d bytes next ha ⟨rfl | rfl, -⟩
    · rcases wanted with _ | _ | _ <;> cases ha
    · cases ha
  · rintro m d next ha ⟨rfl | rfl, -⟩
    · rcases wanted with _ | _ | _ <;> cases ha
    · cases ha
  · rintro m d limit next ha ⟨rfl | rfl, hserved⟩
    · obtain ⟨hnil, hserved'⟩ := hserved.read_eq_nil limit
      refine ⟨.inr ?_, hserved'⟩
      change next (d.read limit).1 = _
      rcases wanted with _ | _ | _ <;> cases ha <;> rw [hnil] <;> rfl
    · cases ha

theorem Served.shutdown (h : Served own c) : Served own c.shutdown :=
  ⟨h.serves, h.read.shutdown, h.given, fun _ => rfl⟩

theorem Served.close (h : Served own c) : Served own c.close.2 := by
  refine ⟨process_close c ▸ h.serves, h.read.close, ?_, ?_⟩
  · rcases close_cases c with ⟨-, hc⟩ | ⟨-, hgiven, -⟩
    · rw [hc]
      exact h.given
    · rw [hgiven]
      exact h.given
  · rcases close_cases c with ⟨-, hc⟩ | ⟨-, -, hended⟩
    · rw [hc]
      exact h.closed
    · exact fun _ => hended

end Connection

namespace AgentConnection

variable {own : Version} {closed : Bool} {a b : AgentConnection} {operation : Operation}

/-- A connection of each kind, of which the same has been written, ended and closed. -/
inductive Alike (own : Version) (closed : Bool) : AgentConnection → AgentConnection → Prop where

  | intro {c : Connection} : c.Served own → c.status.isSome = closed →
      Alike own closed (.process c) (.memory (.resting (!c.inputOpen)))

theorem Alike.of_handle {c d : Connection} (hserved : d.Served own) (hhandle : d.handle = c.handle)
    (hclosed : c.status.isSome = closed) :
    Alike own closed (.process d) (.memory (.resting (!c.inputOpen))) := by
  simp only [Connection.handle, Connection.Handle.mk.injEq] at hhandle
  obtain ⟨-, hstatus, hopen, -, -⟩ := hhandle
  rw [← hopen]
  exact .intro hserved (hstatus ▸ hclosed)

theorem Alike.perform_offer (h : Alike own closed a b) (bytes : List UInt8) :
    (a.perform (.offer bytes)).1.toOption = (b.perform (.offer bytes)).1.toOption ∧
      Alike own closed (a.perform (.offer bytes)).2 (b.perform (.offer bytes)).2 := by
  cases h with
  | @intro c hserved hclosed =>
    have hnext := Alike.of_handle (hserved.write bytes) (Connection.handle_write bytes c) hclosed
    by_cases hnil : bytes = []
    · subst hnil
      exact ⟨rfl, hnext⟩
    · simp only [AgentConnection.perform, AgentConnection.write, Prod.map]
      cases hopen : c.inputOpen with
      | true =>
        rw [hopen] at hnext
        rw [hserved.write_of_inputOpen hopen hnil, Bool.not_true,
          MemoryConnection.write_resting_false hnil]
        exact ⟨rfl, hnext⟩
      | false =>
        rw [hopen] at hnext
        rw [Connection.write_of_inputEnded hopen hnil, Bool.not_false,
          MemoryConnection.write_resting_true hnil]
        exact ⟨rfl, hnext⟩

theorem Alike.perform_write (h : Alike own closed a b) (bytes : List UInt8) :
    (a.perform (.write bytes)).1.toOption = (b.perform (.write bytes)).1.toOption ∧
      Alike own closed (a.perform (.write bytes)).2 (b.perform (.write bytes)).2 := by
  cases h with
  | @intro c hserved hclosed =>
    have hnext := Alike.of_handle (hserved.run (Writing.start bytes))
      (Connection.handle_run (Writing.start bytes) c) hclosed
    by_cases hnil : bytes = []
    · subst hnil
      have hdone : (ByteStream.writeAll [] c).1 = .ok () := congrArg Prod.fst (run_finish rfl)
      simp only [AgentConnection.perform, writeAll, Prod.map, hdone]
      exact ⟨rfl, hnext⟩
    · simp only [AgentConnection.perform, writeAll, Prod.map]
      cases hopen : c.inputOpen with
      | true =>
        rw [hopen] at hnext
        rw [hserved.writeAll_of_inputOpen hopen, Bool.not_true,
          MemoryConnection.write_resting_false hnil]
        exact ⟨rfl, hnext⟩
      | false =>
        rw [hopen] at hnext
        rw [Connection.writeAll_of_inputEnded hopen hnil, Bool.not_false,
          MemoryConnection.write_resting_true hnil]
        exact ⟨rfl, hnext⟩

/-- Whichever way the connections are read, nothing more comes from an agent that serves. -/
theorem Alike.perform_collect {wanted : Option Nat} (h : Alike own closed a b)
    (hprocess : ∀ c : Connection, (process c).perform operation =
      (run (Collecting.start wanted) c).map (fun r => (r.map .bytes).mapError .io) .process)
    (hmemory : ∀ hungUp, (memory (.resting hungUp)).perform operation =
      (.ok (.bytes []), .memory (.resting hungUp))) :
    (a.perform operation).1.toOption = (b.perform operation).1.toOption ∧
      Alike own closed (a.perform operation).2 (b.perform operation).2 := by
  cases h with
  | @intro c hserved hclosed =>
    rw [hprocess, hmemory]
    refine ⟨?_, .of_handle (hserved.run _) (Connection.handle_run _ c) hclosed⟩
    rw [Prod.map, hserved.collect]
    rfl

theorem perform_read_resting (count : Nat) (hungUp : Bool) :
    (memory (.resting hungUp)).perform (.read count) =
      (.ok (.bytes []), .memory (.resting hungUp)) := by
  rw [AgentConnection.perform, readUpTo, MemoryConnection.read_resting]
  rfl

theorem perform_readToEnd_resting (hungUp : Bool) :
    (memory (.resting hungUp)).perform .readToEnd =
      (.ok (.bytes []), .memory (.resting hungUp)) := by
  rw [AgentConnection.perform, readToEnd, MemoryConnection.read_resting]
  rfl

theorem Alike.perform_shutdown (h : Alike own closed a b) :
    Alike own closed (a.perform .shutdown).2 (b.perform .shutdown).2 := by
  cases h with
  | @intro c hserved hclosed =>
    simp only [AgentConnection.perform, shutdown, MemoryConnection.shutdown_resting]
    exact .intro hserved.shutdown hclosed

/-- Only the connection to a process knows that it has been closed before. -/
theorem Alike.perform_close (h : Alike own closed a b) :
    (a.perform .close).1 = (if closed then .error (.closing .notRunning) else .ok .done) ∧
      (b.perform .close).1 = .ok .done ∧
      Alike own true (a.perform .close).2 (b.perform .close).2 := by
  cases h with
  | @intro c hserved hclosed =>
    simp only [AgentConnection.perform, close, Prod.map, MemoryConnection.shutdown_resting]
    have hserved' := hserved.close
    cases closed with
    | true =>
      have hended := hserved.closed hclosed
      rw [Connection.close_of_isSome hclosed] at hserved' ⊢
      have hnext := Alike.intro hserved' hclosed
      rw [hended] at hnext
      exact ⟨rfl, rfl, hnext⟩
    | false =>
      have hnone := Option.isNone_iff_eq_none.1 (Option.isSome_eq_false_iff.1 hclosed)
      obtain ⟨status, hok, hstatus⟩ := Connection.close_of_none hnone
      have hsome : c.close.2.status.isSome = true := by rw [hstatus]; rfl
      have hnext := Alike.intro hserved' hsome
      rw [hserved'.closed hsome] at hnext
      rw [hok]
      exact ⟨rfl, rfl, hnext⟩

theorem Alike.perform (h : Alike own closed a b) (hne : operation ≠ .close) :
    (a.perform operation).1.toOption = (b.perform operation).1.toOption ∧
      Alike own closed (a.perform operation).2 (b.perform operation).2 := by
  cases operation with
  | offer bytes => exact h.perform_offer bytes
  | write bytes => exact h.perform_write bytes
  | flush =>
    cases h with
    | intro hserved hclosed => exact ⟨rfl, .intro hserved hclosed⟩
  | shutdown => exact ⟨rfl, h.perform_shutdown⟩
  | read count => exact h.perform_collect (fun _ => rfl) (perform_read_resting count)
  | readToEnd => exact h.perform_collect (fun _ => rfl) perform_readToEnd_resting
  | close => exact absurd rfl hne

theorem Alike.after (h : Alike own closed a b) (operations : List Operation) :
    Alike own (closed || decide (.close ∈ operations)) (a.after operations)
      (b.after operations) := by
  induction operations generalizing closed a b with
  | nil =>
    rw [decide_eq_false List.not_mem_nil, Bool.or_false]
    exact h
  | cons operation operations ih =>
    by_cases hclose : operation = .close
    · subst hclose
      obtain ⟨-, -, hnext⟩ := h.perform_close
      rw [decide_eq_true List.mem_cons_self, Bool.or_true]
      exact ih hnext
    · obtain ⟨-, hnext⟩ := h.perform hclose
      have hmem : Operation.close ∈ operation :: operations ↔ Operation.close ∈ operations := by
        rw [List.mem_cons, or_iff_right (Ne.symm hclose)]
      rw [decide_eq_decide.2 hmem]
      exact ih hnext

/-- Nothing that a caller does tells two connections apart, and each of them can be closed once. -/
structure Interchangeable (a b : AgentConnection) : Prop where
  answers : ∀ before operation,
    (a.answer before operation).toOption = (b.answer before operation).toOption
  closes : ∀ before, .close ∉ before →
    a.answer before .close = .ok .done ∧ b.answer before .close = .ok .done
  closesOnce : ∀ before, .close ∈ before →
    (a.answer before .close).toOption = none ∧ (b.answer before .close).toOption = none

end AgentConnection

namespace Dial

open Effect AgentConnection

variable {ω : Type} {e : Endpoint} {host : Host ω} {p : Prompter ω} {s : Setting}
  {w w' : World (WithContainer ω)} {c : Connection} {m : MemoryConnection} {own : Version}

theorem outcome_dial_inProcess (h : e.protocol.isInProcess = true) :
    (dial e host p s).outcome w = (.ok (.memory (.resting false)), w) := by
  unfold dial
  rw [if_pos h, MemoryConnection.dial_self]
  rfl

theorem outcome_dial_remote (h : e.protocol.isInProcess = false) :
    (dial e host p s).outcome w =
      match Transport.ofEndpoint e host p s.config.transport with
      | .error cause => (.error (.transport cause), w)
      | .ok t => (((dialTransport t p.outside s).outcome w).1.map .process,
          ((dialTransport t p.outside s).outcome w).2) := by
  unfold dial
  rw [if_neg (by simp [h]), outcome_bind, outcome_ofExcept]
  cases Transport.ofEndpoint e host p s.config.transport with
  | error cause => rfl
  | ok t =>
    refine (outcome_bind _ _ _).trans ?_
    rw [← Prompter.outside]
    dsimp only
    rcases (dialTransport t p.outside s).outcome w with ⟨cause | c, w'⟩ <;> rfl

theorem exists_dialTransport (h : (dial e host p s).outcome w = (.ok (.process c), w')) :
    ∃ t : Transport (WithContainer ω) Command,
      (dialTransport t p.outside s).outcome w = (.ok c, w') := by
  cases hprotocol : e.protocol.isInProcess with
  | true =>
    rw [outcome_dial_inProcess hprotocol] at h
    cases h
  | false =>
    rw [outcome_dial_remote hprotocol] at h
    split at h
    · cases h
    next t _ =>
      refine ⟨t, ?_⟩
      rcases hdial : (dialTransport t p.outside s).outcome w with ⟨cause | d, v⟩ <;>
        rw [hdial] at h <;> cases h
      rfl

theorem eq_resting_of_dial (h : (dial e host p s).outcome w = (.ok (.memory m), w')) :
    m = .resting false := by
  cases hprotocol : e.protocol.isInProcess with
  | true =>
    rw [outcome_dial_inProcess hprotocol] at h
    cases h
    rfl
  | false =>
    rw [outcome_dial_remote hprotocol] at h
    split at h
    · cases h
    next t _ =>
      rcases hdial : (dialTransport t p.outside s).outcome w with ⟨cause | d, v⟩ <;>
        rw [hdial] at h <;> cases h

/-- Only an agent of the version of the client is connected to. -/
theorem served_of_dial (h : (dial e host p s).outcome w = (.ok (.process c), w'))
    (hserves : c.process.Serves own) : c.Served own ∧ c.IsOpen := by
  obtain ⟨t, hdial⟩ := exists_dialTransport h
  obtain ⟨-, -, -, -, hgreeted⟩ := dialTransport_tended (t := t) (p := p.outside) (s := s) w
  rw [hdial] at hgreeted
  obtain ⟨-, -, process, -, -, -, -, hgreet⟩ := hgreeted c rfl
  obtain ⟨hread, hgiven⟩ := hasRead_of_greet hgreet
  obtain ⟨hopen, -⟩ := isOpen_of_greet hgreet
  have hsaid : c.process.output c.given (!c.inputOpen) = own.toWire := by
    rw [hserves.output, (servedUpTo_speaks own _ _).1]
  have hown : s.own.toWire = own.toWire := by
    have hprefix : s.own.toWire <+: own.toWire :=
      (List.prefix_append _ _).trans (hread.isPrefix.trans (hsaid ▸ c.output_isPrefix_process))
    exact hprefix.eq_of_length rfl
  rw [hown] at hread hgiven
  refine ⟨⟨hserves, hread, hgiven ▸ List.prefix_rfl, fun hsome => ?_⟩, hopen⟩
  rw [hopen.status] at hsome
  cases hsome

theorem alike_of_dial (h : (dial e host p s).outcome w = (.ok (.process c), w'))
    (hserves : c.process.Serves own) :
    Alike own false (.process c) (.memory (.resting false)) := by
  obtain ⟨hserved, hopen⟩ := served_of_dial h hserves
  have halike := Alike.intro hserved (congrArg Option.isSome hopen.status)
  rwa [hopen.inputOpen] at halike

/-- Connections to a serving process and to an agent in this process do the same for their caller:
each operation has the same success or fails on both, and the first close succeeds. Only closing
once more is an error on the one and a success on the other. -/
theorem dial_kinds {ν : Type} {e' : Endpoint} {host' : Host ν} {p' : Prompter ν} {s' : Setting}
    {v v' : World (WithContainer ν)}
    (hprocess : (dial e host p s).outcome w = (.ok (.process c), w'))
    (hserves : c.process.Serves own)
    (hmemory : (dial e' host' p' s').outcome v = (.ok (.memory m), v')) :
    (∀ before operation, ¬ (operation = .close ∧ .close ∈ before) →
      ((AgentConnection.process c).answer before operation).toOption =
        ((AgentConnection.memory m).answer before operation).toOption) ∧
    (∀ before, .close ∉ before →
      (AgentConnection.process c).answer before .close = .ok .done ∧
        (AgentConnection.memory m).answer before .close = .ok .done) ∧
    ∀ before, .close ∈ before →
      (AgentConnection.process c).answer before .close = .error (.closing .notRunning) ∧
        (AgentConnection.memory m).answer before .close = .ok .done := by
  obtain rfl := eq_resting_of_dial hmemory
  have hafter := fun before => (alike_of_dial hprocess hserves).after before
  have hcloses : ∀ before, .close ∉ before →
      (AgentConnection.process c).answer before .close = .ok .done ∧
        (AgentConnection.memory (.resting false)).answer before .close = .ok .done := by
    intro before hnot
    obtain ⟨hprocess, hmemory, -⟩ := (hafter before).perform_close
    rw [decide_eq_false hnot] at hprocess
    exact ⟨hprocess, hmemory⟩
  refine ⟨fun before operation hfirst => ?_, hcloses, fun before hmem => ?_⟩
  · by_cases hclose : operation = .close
    · subst hclose
      obtain ⟨hprocess, hmemory⟩ := hcloses before fun hmem => hfirst ⟨rfl, hmem⟩
      rw [hprocess, hmemory]
    · exact ((hafter before).perform hclose).1
  · obtain ⟨hprocess, hmemory, -⟩ := (hafter before).perform_close
    rw [decide_eq_true hmem] at hprocess
    exact ⟨hprocess, hmemory⟩

section Serving

/-- A host on which everything that is started is an agent that serves. -/
def servingHost : Host Unit where
  executable := .ok ⟨"tether"⟩
  start _ := pure (.serving .current)

/-- A connection to a serving agent that has said its version. -/
def heard : Connection :=
  { Connection.new (.serving .current) echoSetting.config.killDelay with taken := 12, reads := 1 }

def greeted : Connection :=
  { heard with given := Version.current.toWire, writes := 1 }

theorem write_heard : heard.write Version.current.toWire = (.ok 12, greeted) := by
  have hending : heard.process.ending heard.given (!heard.inputOpen) = none :=
    (serves_serving .current).ending_eq_none
      (show [] <+: Version.current.toWire ++ [] from List.nil_prefix)
  have hended : heard.hasEnded = false := by
    rw [Connection.hasEnded, hending, Bool.and_false]
    rfl
  rw [Connection.write, if_neg (by decide), Connection.offer, if_neg (by decide),
    if_neg (by decide), hended]
  rfl

theorem greet_serving :
    greet Version.current (Connection.new (.serving .current) echoSetting.config.killDelay) =
      (.ok (), greeted) := by
  rw [greet, run_read rfl]
  change run (Greeting.sending (.writing Version.current.toWire)) heard = _
  rw [run_write rfl]
  change run (Greeting.afterSending (.afterWrite _ (heard.write Version.current.toWire).1))
    (heard.write Version.current.toWire).2 = _
  rw [write_heard]
  exact (run_flush rfl).trans (run_finish rfl)

/-- Everything that is started over this endpoint serves. -/
def servingEndpoint : Endpoint :=
  .new .ssh .alpha "host"

def servingTransport : Transport (WithContainer Unit) Command :=
  (Ssh.transport ⟨servingEndpoint, echoSetting.config.transport.sshConnectTimeout,
    (Prompter.silent Unit).identifier⟩ servingHost).outside

theorem dial_serving :
    ∃ w', (dial servingEndpoint servingHost (.silent Unit) echoSetting).outcome
      (World.start ⟨(), none⟩) = (.ok (.process greeted), w') := by
  have hendpoint : Transport.ofEndpoint servingEndpoint servingHost (.silent Unit)
      echoSetting.config.transport = .ok servingTransport := rfl
  have hattempt : (attempt (World.transport servingTransport) echoSetting .posix).outcome
      (World.start ⟨(), none⟩) = (.ok greeted, _) :=
    outcome_attempt_greeted rfl rfl greet_serving
  have hends := endsAs_dialTransport (t := servingTransport) (p := (Prompter.silent Unit).outside)
    (s := echoSetting) (World.start ⟨(), none⟩)
  obtain ⟨hresult, hworld⟩ := finished_unique hends (.single (.connected hattempt))
  rw [outcome_dial_remote rfl, hendpoint]
  dsimp only
  rw [hresult]
  exact ⟨_, rfl⟩

theorem dial_inProcess :
    (dial (.new .localHost .alpha "") servingHost (.silent Unit) echoSetting).outcome
      (World.start ⟨(), none⟩) = (.ok (.memory (.resting false)), World.start ⟨(), none⟩) :=
  outcome_dial_inProcess rfl

theorem dial_kinds_serving :
    greeted.process.Serves .current ∧
    (AgentConnection.process greeted).answer [.write [1, 2, 3], .shutdown] .close = .ok .done ∧
    ((AgentConnection.process greeted).answer [.write [1, 2, 3], .shutdown] (.write [4])).toOption =
      ((AgentConnection.memory (.resting false)).answer [.write [1, 2, 3], .shutdown]
        (.write [4])).toOption := by
  obtain ⟨w', hprocess⟩ := dial_serving
  have hserves : greeted.process.Serves .current := serves_serving .current
  obtain ⟨hanswers, hcloses, -⟩ := dial_kinds hprocess hserves dial_inProcess
  exact ⟨hserves, (hcloses _ (by decide)).1, hanswers _ _ (by decide)⟩

/-- The connection to a serving process refuses to be closed twice, and the other one does not. -/
theorem not_interchangeable_serving :
    (∃ w', (dial servingEndpoint servingHost (.silent Unit) echoSetting).outcome
      (World.start ⟨(), none⟩) = (.ok (.process greeted), w')) ∧
    greeted.process.Serves .current ∧
    (dial (.new .localHost .alpha "") servingHost (.silent Unit) echoSetting).outcome
      (World.start ⟨(), none⟩) = (.ok (.memory (.resting false)), World.start ⟨(), none⟩) ∧
    ¬ Interchangeable (.process greeted) (.memory (.resting false)) := by
  obtain ⟨w', hprocess⟩ := dial_serving
  have hserves : greeted.process.Serves .current := serves_serving .current
  refine ⟨⟨w', hprocess⟩, hserves, dial_inProcess, fun h => ?_⟩
  obtain ⟨-, -, hclosed⟩ := (alike_of_dial hprocess hserves).perform_close
  obtain ⟨-, hagain, -⟩ := hclosed.perform_close
  obtain ⟨-, hfails⟩ := h.closesOnce [.close] (by decide)
  rw [answer] at hfails
  exact nomatch hfails.symm.trans (congrArg Except.toOption hagain)

end Serving

end Dial

end RemoteAgent
