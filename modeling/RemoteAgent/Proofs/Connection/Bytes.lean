import RemoteAgent.Proofs.Connection.Closing
import RemoteAgent.Stream.Collecting

/-! # The bytes that pass through a connection

What has been read, what the buffer holds and what is still in the pipe make up the output of the
process, in order. So whatever is done with a connection, its reader gets that output and its
process gets what was written, byte for byte.
-/

namespace RemoteAgent.Connection

variable {c d : Connection} {bytes : List UInt8}

/-- These bytes have been read: with the buffer they are what came out of the pipe. -/
structure HasRead (c : Connection) (bytes : List UInt8) : Prop where
  taken : c.taken = (bytes ++ c.buffer).length
  isPrefix : bytes ++ c.buffer <+: c.output

section Reading

theorem hasRead_new (process : Process) (delay : Duration) : (new process delay).HasRead [] :=
  ⟨rfl, List.nil_prefix⟩

theorem HasRead.output_eq (h : c.HasRead bytes) : c.output = bytes ++ (c.buffer ++ c.pending) := by
  obtain ⟨rest, hrest⟩ := h.isPrefix
  have hpending : c.pending = rest := by
    rw [pending, h.taken, ← hrest, List.drop_left]
  rw [hpending, ← hrest, List.append_assoc]

theorem output_read (limit : Nat) (c : Connection) : (c.read limit).2.output = c.output := by
  unfold read
  repeat' split
  all_goals rfl

theorem given_read (limit : Nat) (c : Connection) : (c.read limit).2.given = c.given := by
  unfold read
  repeat' split
  all_goals rfl

theorem taken_takeOut (limit : Nat) (c : Connection) :
    (c.takeOut limit).2.taken = c.taken + (c.takeOut limit).1.length := rfl

theorem taken_read {limit : Nat} {more : List UInt8} (h : (c.read limit).1 = .ok more) :
    (c.read limit).2.taken + c.buffer.length =
      c.taken + (more ++ (c.read limit).2.buffer).length := by
  unfold read at h ⊢
  split at h
  next hb =>
    cases h
    rw [if_pos hb, List.take_append_drop]
  next hb =>
    have hb' : c.buffer = [] := by simpa using hb
    rw [if_neg hb]
    split at h
    next hl =>
      cases h
      have hb'' : (c.takeOut limit).2.buffer = [] := hb'
      rw [if_pos hl, taken_takeOut, hb', hb'', List.append_nil, List.length_nil, Nat.add_zero]
    next hl =>
      cases h
      rw [if_neg hl]
      dsimp only
      rw [taken_takeOut, hb', List.take_append_drop, List.length_nil, Nat.add_zero]

theorem HasRead.read (h : c.HasRead bytes) {limit : Nat} {more : List UInt8}
    (hread : (c.read limit).1 = .ok more) : (c.read limit).2.HasRead (bytes ++ more) := by
  refine ⟨?_, (c.read limit).2.pending, ?_⟩
  · have htaken := taken_read hread
    have := h.taken
    simp only [List.length_append] at htaken this ⊢
    omega
  · rw [output_read, h.output_eq, buffer_pending_read hread]
    simp only [List.append_assoc]

/-- A read that could have given a byte and gave none has come to the end. -/
theorem buffer_append_pending_eq_nil {limit : Nat} (hpos : 0 < limit)
    (h : (c.read limit).1 = .ok []) : c.buffer ++ c.pending = [] := by
  have htakeOut : ∀ {n : Nat}, 0 < n → (c.takeOut n).1 = [] → c.pending = [] := by
    intro n hn hnil
    rcases List.take_eq_nil_iff.1 hnil with hzero | hnil
    · omega
    · exact hnil
  unfold Connection.read at h
  split at h
  next hb =>
    have hnil := (Except.ok.injEq _ _).mp h
    rcases List.take_eq_nil_iff.1 hnil with rfl | hnil
    · exact absurd hpos (Nat.lt_irrefl 0)
    · simp [hnil] at hb
  next hb =>
    have hb' : c.buffer = [] := by simpa using hb
    rw [hb', List.nil_append]
    split at h
    · exact htakeOut hpos ((Except.ok.injEq _ _).mp h)
    · have hnil := (Except.ok.injEq _ _).mp h
      rcases List.take_eq_nil_iff.1 hnil with rfl | hnil
      · exact absurd hpos (Nat.lt_irrefl 0)
      · exact htakeOut (by decide) hnil

theorem length_read_le {limit : Nat} {more : List UInt8} (h : (c.read limit).1 = .ok more) :
    more.length ≤ limit := by
  unfold read at h
  split at h
  · cases h
    exact List.length_take_le _ _
  · split at h <;> cases h
    · exact Nat.le_trans (List.length_take_le _ _) (Nat.min_le_left _ _)
    · exact List.length_take_le _ _

theorem exists_read (limit : Nat) (c : Connection) : ∃ more, (c.read limit).1 = .ok more := by
  unfold read
  repeat' split
  all_goals exact ⟨_, rfl⟩

/-- What has been collected and what is left are these bytes. -/
inductive Collects (bytes : List UInt8) : Collecting → Connection → Prop where

  | reading {pieces : List (List UInt8)} {c : Connection} :
      pieces.reverse.flatten ++ (c.buffer ++ c.pending) = bytes →
      Collects bytes (.reading none pieces) c

  | done {c : Connection} : Collects bytes (.done (.ok bytes)) c

theorem collects_afterRead {pieces : List (List UInt8)} {limit : Nat} (hpos : 0 < limit)
    (h : pieces.reverse.flatten ++ (c.buffer ++ c.pending) = bytes) :
    Collects bytes (.afterRead none pieces (c.read limit).1) (c.read limit).2 := by
  obtain ⟨more, hread⟩ := exists_read limit c
  have hmoved := buffer_pending_read hread
  rw [hread]
  rcases more with _ | ⟨b, more⟩
  · rw [buffer_append_pending_eq_nil hpos hread, List.append_nil] at h
    subst h
    exact .done
  · refine .reading ?_
    rw [← h, hmoved]
    simp

/-- Reading to the end gives all that is left. -/
theorem readToEnd_eq (c : Connection) :
    (ByteStream.readToEnd c).1 = .ok (c.buffer ++ c.pending) := by
  refine StreamMachine.run_induction (I := Collects (c.buffer ++ c.pending))
    (Q := fun result _ => result = .ok (c.buffer ++ c.pending))
    ?_ ?_ ?_ ?_ (.start none) c (.reading rfl)
  · rintro m d result ha (h | _) <;> cases ha
    rfl
  · rintro m d bytes next ha (h | _) <;> cases ha
  · rintro m d next ha (h | _) <;> cases ha
  · rintro m d limit next ha (h | _) <;> cases ha
    exact collects_afterRead (by decide) h

end Reading

section Output

theorem output_isPrefix_process (c : Connection) :
    c.output <+: c.process.output c.given (!c.inputOpen) := by
  unfold output
  dsimp only
  split
  · exact List.prefix_rfl
  · exact List.take_prefix _ _

/-- All that the process has put on its output is output, unless it was killed. -/
theorem output_of_wasKilled_eq_false (h : c.wasKilled = false) :
    c.output = c.process.output c.given (!c.inputOpen) := by
  unfold wasKilled at h
  rw [Option.isSome_eq_false_iff, Option.isNone_iff_eq_none] at h
  unfold output
  rw [h]

end Output

section Writing

/-- Whatever an open connection is given, and if its input ends, its output is only added to. -/
theorem output_isPrefix {more : List UInt8} (hopen : c.inputOpen = true)
    (hprocess : d.process = c.process) (hcutoff : d.cutoff = c.cutoff)
    (hgiven : d.given = c.given ++ more) : c.output <+: d.output := by
  obtain ⟨rest, hrest⟩ := c.process.output_grows c.given more (!d.inputOpen)
  simp only [output, hprocess, hcutoff, hgiven, hopen, Bool.not_true, ← hrest]
  cases c.cutoff with
  | none => exact List.prefix_append _ _
  | some n =>
    dsimp only
    rw [List.take_append]
    exact List.prefix_append _ _

theorem HasRead.of_output (h : c.HasRead bytes) (htaken : d.taken = c.taken)
    (hbuffer : d.buffer = c.buffer) (houtput : bytes ++ c.buffer <+: d.output) :
    d.HasRead bytes :=
  ⟨by rw [htaken, h.taken, hbuffer], by rwa [hbuffer]⟩

theorem accepted_le (size : Nat) (c : Connection) : c.accepted size ≤ size := by
  unfold accepted
  split
  · exact Nat.min_le_left _ _
  · exact Nat.le_refl _

/-- Of an offer that is not empty the pipe takes something. -/
theorem accepted_pos {size : Nat} (hpos : 0 < size) (c : Connection) : 0 < c.accepted size := by
  unfold accepted
  split
  · exact Nat.lt_min.2 ⟨hpos, Nat.succ_pos _⟩
  · exact hpos

theorem offer_cases (bytes : List UInt8) (c : Connection) :
    (∃ cause, c.offer bytes = (.error cause, c)) ∨ (bytes = [] ∧ c.offer bytes = (.ok 0, c)) ∨
      c.inputOpen = true ∧
        c.offer bytes = (.ok (c.accepted bytes.length), c.give bytes) := by
  unfold offer
  split
  · exact .inl ⟨_, rfl⟩
  next hopen =>
    split
    next h => exact .inr (.inl ⟨List.isEmpty_iff.1 h, rfl⟩)
    · split
      · exact .inl ⟨_, rfl⟩
      · exact .inr (.inr ⟨by simpa using hopen, rfl⟩)

theorem write_cases (bytes : List UInt8) (c : Connection) :
    (∃ cause, c.write bytes = (.error cause, c)) ∨ (bytes = [] ∧ c.write bytes = (.ok 0, c)) ∨
      c.inputOpen = true ∧
        c.write bytes = (.ok (c.accepted bytes.length), c.give bytes) := by
  unfold write
  split
  next h => exact .inr (.inl ⟨List.isEmpty_iff.1 h, rfl⟩)
  · exact offer_cases bytes c

theorem HasRead.offer (h : c.HasRead bytes) (more : List UInt8) :
    (c.offer more).2.HasRead bytes := by
  rcases offer_cases more c with ⟨_, ho⟩ | ⟨-, ho⟩ | ⟨hopen, ho⟩ <;> rw [ho]
  · exact h
  · exact h
  · exact h.of_output rfl rfl (h.isPrefix.trans (output_isPrefix hopen rfl rfl rfl))

theorem HasRead.write (h : c.HasRead bytes) (more : List UInt8) :
    (c.write more).2.HasRead bytes := by
  unfold Connection.write
  split
  · exact h
  · exact h.offer more

theorem HasRead.shutdown (h : c.HasRead bytes) : c.shutdown.HasRead bytes := by
  refine h.of_output rfl rfl (h.isPrefix.trans ?_)
  cases hopen : c.inputOpen with
  | true => exact output_isPrefix hopen rfl rfl (List.append_nil _).symm
  | false =>
    simp only [output, Connection.shutdown, hopen]
    exact List.prefix_rfl

/-- What has come out of the pipe was there before the process was killed. -/
theorem HasRead.waitFor (h : c.HasRead bytes) (delay : Duration) :
    (c.waitFor delay).2.HasRead bytes := by
  rcases waitFor_cases delay c with ⟨e, -, hw⟩ | ⟨-, hw⟩ <;> rw [hw]
  · exact h.of_output rfl rfl h.isPrefix
  · refine h.of_output rfl rfl ?_
    have hall := h.isPrefix.trans c.output_isPrefix_process
    refine List.prefix_take_iff.2 ⟨hall, ?_⟩
    have := h.taken
    omega

theorem HasRead.close (h : c.HasRead bytes) : c.close.2.HasRead bytes := by
  unfold Connection.close
  split
  · exact h
  · exact h.shutdown.waitFor c.killDelay

theorem close_cases (c : Connection) :
    c.status.isSome ∧ c.close.2 = c ∨
      c.close.2.process = c.process ∧ c.close.2.given = c.given ∧ c.close.2.inputOpen = false := by
  unfold Connection.close
  split
  next h => exact .inl ⟨h, rfl⟩
  · right
    rcases waitFor_cases c.killDelay c.shutdown with ⟨e, -, hw⟩ | ⟨-, hw⟩
    · exact ⟨congrArg (·.2.process) hw, congrArg (·.2.given) hw, congrArg (·.2.inputOpen) hw⟩
    · exact ⟨congrArg (·.2.process) hw, congrArg (·.2.given) hw, congrArg (·.2.inputOpen) hw⟩

theorem process_close (c : Connection) : c.close.2.process = c.process := by
  rcases close_cases c with ⟨-, h⟩ | ⟨h, -⟩
  · rw [h]
  · exact h

theorem close_of_none (h : c.status = none) :
    ∃ status, c.close.1 = .ok status ∧ c.close.2.status = some status := by
  unfold Connection.close
  rw [if_neg (by simp [h])]
  rcases waitFor_cases c.killDelay c.shutdown with ⟨e, -, hw⟩ | ⟨-, hw⟩ <;> rw [hw]
  · exact ⟨_, rfl, rfl⟩
  · exact ⟨_, rfl, rfl⟩

theorem close_of_isSome (h : c.status.isSome) : c.close = (.error .notRunning, c) :=
  if_pos h

end Writing

section Callers

/-- What can be done with a connection. -/
inductive Operation where
  | read (limit : Nat)
  | write (bytes : List UInt8)
  | flush
  | shutdown
  | close
  | setKillDelay (delay : Duration)

/-- Whether an operation ends the input of the process. -/
def Operation.endsInput : Operation → Bool
  | shutdown | close => true
  | read _ | write _ | flush | setKillDelay _ => false

/-- One who uses a connection: what has been read from it, and what has been written to it with
success. -/
structure Caller where
  connection : Connection
  received : List UInt8
  written : List UInt8

namespace Caller

/-- One who has not used a connection yet. -/
def start (c : Connection) : Caller :=
  ⟨c, [], []⟩

def act (caller : Caller) : Operation → Caller
  | .read limit =>
    match caller.connection.read limit with
    | (.ok bytes, c) => { caller with connection := c, received := caller.received ++ bytes }
    | (.error _, c) => { caller with connection := c }
  | .write bytes =>
    match caller.connection.write bytes with
    | (.ok count, c) =>
      { caller with connection := c, written := caller.written ++ bytes.take count }
    | (.error _, c) => { caller with connection := c }
  | .flush => { caller with connection := caller.connection.flush.2 }
  | .shutdown => { caller with connection := caller.connection.shutdown }
  | .close => { caller with connection := caller.connection.close.2 }
  | .setKillDelay delay => { caller with connection := caller.connection.setKillDelay delay }

def actAll (caller : Caller) (operations : List Operation) : Caller :=
  operations.foldl act caller

/-- One who has got a connection and done something with it. -/
def after (c : Connection) (operations : List Operation) : Caller :=
  (start c).actAll operations

/-- Before the caller got the connection, some bytes were read from it and some were written to it.
Since then it has carried what the caller has received and written, and nothing else. -/
structure Carried (process : Process) (read written : List UInt8) (caller : Caller) : Prop where
  process : caller.connection.process = process
  read : caller.connection.HasRead (read ++ caller.received)
  given : caller.connection.given = written ++ caller.written
  closed : caller.connection.status.isSome → caller.connection.inputOpen = false

variable {process : Process} {read written : List UInt8} {caller : Caller}

theorem act_read {limit : Nat} {more : List UInt8}
    (h : (caller.connection.read limit).1 = .ok more) :
    caller.act (.read limit) =
      { caller with
        connection := (caller.connection.read limit).2
        received := caller.received ++ more } := by
  have hpair : caller.connection.read limit = (.ok more, (caller.connection.read limit).2) :=
    Prod.ext h rfl
  rw [act, hpair]

theorem act_write_ok {bytes : List UInt8} {count : Nat} {d : Connection}
    (h : caller.connection.write bytes = (.ok count, d)) :
    caller.act (.write bytes) =
      { caller with connection := d, written := caller.written ++ bytes.take count } := by
  rw [act, h]

theorem act_write_error {bytes : List UInt8} {cause : IoError} {d : Connection}
    (h : caller.connection.write bytes = (.error cause, d)) :
    caller.act (.write bytes) = { caller with connection := d } := by
  rw [act, h]

theorem Carried.read_step (h : caller.Carried process read written) (limit : Nat) :
    (caller.act (.read limit)).Carried process read written := by
  obtain ⟨more, hmore⟩ := exists_read limit caller.connection
  have hhandle := handle_read limit caller.connection
  simp only [handle, Handle.mk.injEq] at hhandle
  obtain ⟨hprocess, hstatus, hopen, -, -⟩ := hhandle
  rw [act_read hmore]
  refine ⟨hprocess.trans h.process, ?_, (given_read _ _).trans h.given, ?_⟩
  · rw [← List.append_assoc]
    exact h.read.read hmore
  · rw [hstatus, hopen]
    exact h.closed

theorem Carried.write_step (h : caller.Carried process read written) (bytes : List UInt8) :
    (caller.act (.write bytes)).Carried process read written := by
  have hread := h.read.write bytes
  rcases write_cases bytes caller.connection with ⟨_, hw⟩ | ⟨rfl, hw⟩ | ⟨-, hw⟩ <;>
    rw [hw] at hread
  · rw [act_write_error hw]
    exact h
  · rw [act_write_ok hw, List.take_zero, List.append_nil]
    exact h
  · rw [act_write_ok hw]
    refine ⟨h.process, hread, ?_, h.closed⟩
    exact (congrArg (· ++ bytes.take _) h.given).trans (List.append_assoc _ _ _)

theorem Carried.close_step (h : caller.Carried process read written) :
    (caller.act .close).Carried process read written := by
  rcases close_cases caller.connection with ⟨-, hc⟩ | ⟨hprocess, hgiven, hopen⟩
  · unfold Caller.act
    rw [hc]
    exact h
  · exact ⟨hprocess.trans h.process, h.read.close, hgiven.trans h.given, fun _ => hopen⟩

theorem Carried.act (h : caller.Carried process read written) (operation : Operation) :
    (caller.act operation).Carried process read written := by
  cases operation with
  | read limit => exact h.read_step limit
  | write bytes => exact h.write_step bytes
  | flush => exact h
  | shutdown => exact ⟨h.process, h.read.shutdown, h.given, fun _ => rfl⟩
  | close => exact h.close_step
  | setKillDelay delay => exact ⟨h.process, ⟨h.read.taken, h.read.isPrefix⟩, h.given, h.closed⟩

theorem Carried.actAll (h : caller.Carried process read written) (operations : List Operation) :
    (caller.actAll operations).Carried process read written := by
  induction operations generalizing caller with
  | nil => exact h
  | cons operation operations ih => exact ih (h.act operation)

theorem Carried.inputOpen_act (h : caller.Carried process read written) (operation : Operation) :
    (caller.act operation).connection.inputOpen =
      (caller.connection.inputOpen && !operation.endsInput) := by
  cases operation with
  | read limit =>
    obtain ⟨more, hmore⟩ := exists_read limit caller.connection
    rw [act_read hmore]
    exact (congrArg Handle.inputOpen (handle_read limit caller.connection)).trans
      (Bool.and_true _).symm
  | write bytes =>
    rcases write_cases bytes caller.connection with ⟨_, hw⟩ | ⟨-, hw⟩ | ⟨-, hw⟩
    · rw [act_write_error hw]
      exact (Bool.and_true _).symm
    · rw [act_write_ok hw]
      exact (Bool.and_true _).symm
    · rw [act_write_ok hw]
      exact (Bool.and_true _).symm
  | flush | setKillDelay => exact (Bool.and_true _).symm
  | shutdown => exact (Bool.and_false _).symm
  | close =>
    refine Eq.trans ?_ (Bool.and_false _).symm
    rcases close_cases caller.connection with ⟨hsome, hc⟩ | ⟨-, -, hopen⟩
    · exact (congrArg inputOpen hc).trans (h.closed hsome)
    · exact hopen

/-- The input of the process has ended once an operation has ended it, and not before. -/
theorem Carried.inputOpen_actAll (h : caller.Carried process read written)
    (operations : List Operation) :
    (caller.actAll operations).connection.inputOpen =
      (caller.connection.inputOpen && !operations.any Operation.endsInput) := by
  induction operations generalizing caller with
  | nil => exact (Bool.and_true _).symm
  | cons operation operations ih =>
    refine (ih (h.act operation)).trans ?_
    rw [h.inputOpen_act, List.any_cons, Bool.not_or, Bool.and_assoc]

theorem wasKilled_act {operation : Operation} (h : operation ≠ .close) :
    (caller.act operation).connection.wasKilled = caller.connection.wasKilled := by
  cases operation with
  | read limit =>
    obtain ⟨more, hmore⟩ := exists_read limit caller.connection
    rw [act_read hmore]
    exact congrArg (·.cutoff.isSome) (handle_read limit caller.connection)
  | write bytes =>
    rcases write_cases bytes caller.connection with ⟨_, hw⟩ | ⟨-, hw⟩ | ⟨-, hw⟩
    · rw [act_write_error hw]
    · rw [act_write_ok hw]
    · rw [act_write_ok hw]
      rfl
  | flush | shutdown | setKillDelay => rfl
  | close => exact absurd rfl h

/-- Only who closes a connection kills its process. -/
theorem wasKilled_actAll {operations : List Operation} (h : .close ∉ operations) :
    (caller.actAll operations).connection.wasKilled = caller.connection.wasKilled := by
  induction operations generalizing caller with
  | nil => rfl
  | cons operation operations ih =>
    obtain ⟨hne, hrest⟩ := List.ne_and_not_mem_of_not_mem_cons h
    exact (ih hrest).trans (wasKilled_act hne.symm)

theorem written_act (hclosed : caller.connection.inputOpen = false) (operation : Operation) :
    (caller.act operation).written = caller.written := by
  cases operation with
  | read limit =>
    obtain ⟨more, hmore⟩ := exists_read limit caller.connection
    rw [act_read hmore]
  | write bytes =>
    rcases write_cases bytes caller.connection with ⟨_, hw⟩ | ⟨rfl, hw⟩ | ⟨hopen, -⟩
    · rw [act_write_error hw]
    · rw [act_write_ok hw]
      exact List.append_nil _
    · exact nomatch hclosed.symm.trans hopen
  | flush | shutdown | close | setKillDelay => rfl

/-- Nothing is written with success after the end of the input. -/
theorem Carried.written_actAll (h : caller.Carried process read written)
    (hclosed : caller.connection.inputOpen = false) (operations : List Operation) :
    (caller.actAll operations).written = caller.written := by
  induction operations generalizing caller with
  | nil => rfl
  | cons operation operations ih =>
    refine (ih (h.act operation) ?_).trans (written_act hclosed operation)
    rw [h.inputOpen_act, hclosed, Bool.false_and]

end Caller

end Callers

end RemoteAgent.Connection
